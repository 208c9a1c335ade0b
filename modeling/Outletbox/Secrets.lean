import Outletbox.Platform
import Outletbox.Library.Sampling

/-!
# Codes and passwords from random bytes

`newAccessCode` and `newTempPassword` of `crypto.ts`, on the bytes `randomBytes`
returns.  Both ask for a batch of bytes as long as characters are missing; here
the batches are cut from one source, and `batches` says how many there are.

A byte that is kept picks a remainder, all remainders equally often, and the
loop returns the first characters picked.  So each code comes out of equally
many sources.
-/

namespace Outletbox

open Sampling (Sampler residue)

/-! ## The functions -/

/-- `while (out.length < wanted)`, with batches of `size` bytes. -/
def fill (wanted size : Nat) (round : List Char → Bytes → List Char) :
    Nat → List Char → Bytes → Option (List Char)
  | 0, out, _ => if out.length < wanted then none else some out
  | batches + 1, out, source =>
      if out.length < wanted then
        fill wanted size round batches (round out (source.take size)) (source.drop size)
      else some out

/-- `String(n)`. -/
def decimal (n : Nat) : List Char := (toString n).toList

/-- The bytes of a batch, in `newAccessCode`. -/
def codeRound (digits : Nat) (out : List Char) : Bytes → List Char
  | [] => out
  | byte :: batch =>
      -- 250 = 25 * 10: the remaining range is an exact multiple of 10
      if byte.toNat ≥ 250 then codeRound digits out batch
      else
        let out := out ++ decimal (byte.toNat % 10)
        if out.length = digits then out else codeRound digits out batch

/-- A one-time access code. -/
def newAccessCode (digits batches : Nat) (source : Bytes) : Option String :=
  (fill digits digits (codeRound digits) batches [] source).map String.ofList

/-- No 0/o, 1/l/i: it is read off a screen and typed. -/
def readableAlphabet : List Char := "abcdefghjkmnpqrstuvwxyz23456789".toList

/-- The bytes of a batch, in `newTempPassword`. -/
def passwordRound (chars : List Char) : Bytes → List Char
  | [] => chars
  | b :: batch =>
      -- Rejection sampling keeps every character equally likely (248 = 8 * 31).
      if b.toNat < 248 ∧ chars.length < 20 then
        passwordRound (chars ++ (readableAlphabet[b.toNat % 31]?).toList) batch
      else passwordRound chars batch

/-- `replace(/(.{5})(?!$)/g, '$1-')`, on a text in one line. -/
def dashed : List Char → List Char
  | a :: b :: c :: d :: e :: f :: rest => a :: b :: c :: d :: e :: '-' :: dashed (f :: rest)
  | cs => cs

/-- A password an administrator hands to someone. -/
def newTempPassword (batches : Nat) (source : Bytes) : Option String :=
  (fill 20 32 passwordRound batches [] source).map fun chars => String.ofList (dashed chars)

/-! ## What a round picks -/

/-- A round keeps the characters the bytes pick, until there are enough. -/
def Keeps {m : Nat} (S : Sampler UInt8 (Fin m)) (char : Fin m → Char) (wanted : Nat)
    (round : List Char → Bytes → List Char) : Prop :=
  ∀ out batch, out.length < wanted →
    round out batch = (out ++ (S.picks batch).map char).take wanted

variable {m : Nat} {S : Sampler UInt8 (Fin m)} {char : Fin m → Char} {wanted size : Nat}
  {round : List Char → Bytes → List Char}

theorem picks_rejected {b : UInt8} (hb : S.pick b = none) (batch : Bytes) :
    S.picks (b :: batch) = S.picks batch := List.filterMap_cons_none hb

theorem picks_kept {b : UInt8} {r : Fin m} (hb : S.pick b = some r) (out : List Char)
    (batch : Bytes) :
    out ++ (S.picks (b :: batch)).map char = out ++ [char r] ++ (S.picks batch).map char := by
  rw [Sampler.picks, List.filterMap_cons_some hb, List.map_cons, List.append_assoc]
  rfl

theorem take_take_append {α : Type} (n : Nat) (l₁ l₂ : List α) :
    (l₁.take n ++ l₂).take n = (l₁ ++ l₂).take n := by
  rw [List.take_append, List.take_append, List.take_take, Nat.min_self, List.length_take]
  congr 2
  omega

/-- What the loop returns. -/
theorem Keeps.fill_eq (h : Keeps S char wanted round) :
    ∀ (batches : Nat) (out : List Char) (source : Bytes), out.length ≤ wanted →
      source.length ≤ batches * size →
      fill wanted size round batches out source =
        if (out ++ (S.picks source).map char).length < wanted then none
        else some ((out ++ (S.picks source).map char).take wanted)
  | 0, out, source, hout, hsource => by
      rw [Nat.zero_mul, Nat.le_zero, List.length_eq_zero_iff] at hsource
      have hpicks : S.picks source = [] := by rw [hsource]; rfl
      rw [fill, hpicks, List.map_nil, List.append_nil, List.take_of_length_le hout]
  | batches + 1, out, source, hout, hsource => by
      by_cases hfull : out.length < wanted
      swap
      · have hlength : out.length = wanted := by omega
        have hnone : ¬(out ++ (S.picks source).map char).length < wanted := by
          rw [List.length_append]
          omega
        rw [fill, if_neg hfull, if_neg hnone, ← hlength, List.take_left]
      have hrest : (source.drop size).length ≤ batches * size := by
        rw [List.length_drop]
        rw [Nat.succ_mul] at hsource
        omega
      have hpicks : S.picks source = S.picks (source.take size) ++ S.picks (source.drop size) := by
        rw [Sampler.picks, Sampler.picks, Sampler.picks, ← List.filterMap_append,
          List.take_append_drop]
      rw [fill, if_pos hfull, h _ _ hfull, h.fill_eq batches _ _ (List.length_take_le _ _) hrest,
        hpicks, List.map_append, ← List.append_assoc]
      set first := out ++ (S.picks (source.take size)).map char
      set second := (S.picks (source.drop size)).map char
      -- what one batch gives beyond the end is dropped, so cutting it off early changes nothing
      have hlength : (first.take wanted ++ second).length < wanted ↔
          (first ++ second).length < wanted := by
        rw [List.length_append, List.length_append, List.length_take]
        omega
      rw [take_take_append]
      exact if_congr hlength rfl rfl

/-- The loop returns given characters when they are what is picked first. -/
theorem Keeps.fill_eq_some_iff (h : Keeps S char wanted round) (hchar : Function.Injective char)
    {batches : Nat} {source : Bytes} (hsource : source.length ≤ batches * size)
    {cs : List (Fin m)} (hcs : cs.length = wanted) :
    fill wanted size round batches [] source = some (cs.map char) ↔
      (S.picks source).take cs.length = cs := by
  rw [h.fill_eq batches [] source (Nat.zero_le _) hsource, List.nil_append, List.length_map]
  have htake : (((S.picks source).map char).take wanted = cs.map char) ↔
      (S.picks source).take cs.length = cs := by
    rw [← List.map_take, hcs]
    exact ⟨fun h => List.map_injective_iff.2 hchar h, fun h => by rw [h]⟩
  by_cases hshort : (S.picks source).length < wanted
  · rw [if_pos hshort]
    refine iff_of_false nofun fun hpicks => ?_
    have hlength := congrArg List.length hpicks
    rw [List.length_take] at hlength
    omega
  · rw [if_neg hshort, Option.some_inj, htake]

/-- The characters `char` gives, `n` of them. -/
def Made (char : Fin m → Char) (n : Nat) (cs : List Char) : Prop :=
  cs.length = n ∧ ∀ c ∈ cs, c ∈ Set.range char

theorem Made.exists_map {n : Nat} {cs : List Char} (h : Made char n cs) :
    ∃ rs : List (Fin m), rs.length = n ∧ rs.map char = cs := by
  have hrange : cs ∈ Set.range (List.map char) := by
    rw [Set.range_list_map]
    exact h.2
  obtain ⟨rs, rfl⟩ := hrange
  exact ⟨rs, by rw [← h.1, List.length_map], rfl⟩

/-- Whatever the loop returns is as long as wanted, and made of characters that are picked. -/
theorem Keeps.of_fill (h : Keeps S char wanted round) {batches : Nat} {source : Bytes}
    {out cs : List Char} (hlength : out.length ≤ wanted) (hout : ∀ c ∈ out, c ∈ Set.range char)
    (hfill : fill wanted size round batches out source = some cs) : Made char wanted cs := by
  induction batches generalizing out source with
  | zero =>
      rw [fill] at hfill
      split at hfill
      · cases hfill
      · cases hfill
        exact ⟨by omega, hout⟩
  | succ batches ih =>
      rw [fill] at hfill
      by_cases hfull : out.length < wanted
      · rw [if_pos hfull, h _ _ hfull] at hfill
        refine ih (List.length_take_le _ _) (fun c hc => ?_) hfill
        obtain hc | hc := List.mem_append.1 (List.mem_of_mem_take hc)
        · exact hout c hc
        · obtain ⟨r, -, rfl⟩ := List.mem_map.1 hc
          exact ⟨r, rfl⟩
      · rw [if_neg hfull] at hfill
        cases hfill
        exact ⟨by omega, hout⟩

theorem Keeps.made (h : Keeps S char wanted round) {batches : Nat} {source : Bytes}
    {cs : List Char} (hfill : fill wanted size round batches [] source = some cs) :
    Made char wanted cs := by
  refine h.of_fill ?_ (List.forall_mem_nil _) hfill
  exact Nat.zero_le wanted

/-- The loop returns all texts of the wanted length equally often. -/
theorem Keeps.card_fill (h : Keeps S char wanted round) (hchar : Function.Injective char)
    (batches : Nat) {cs ds : List Char} (hcs : Made char wanted cs) (hds : Made char wanted ds) :
    Fintype.card {source : List.Vector UInt8 (batches * size) //
        fill wanted size round batches [] source.toList = some cs} =
      Fintype.card {source : List.Vector UInt8 (batches * size) //
        fill wanted size round batches [] source.toList = some ds} := by
  have hpicks : ∀ {rs : List (Fin m)}, rs.length = wanted →
      Fintype.card {source : List.Vector UInt8 (batches * size) //
          fill wanted size round batches [] source.toList = some (rs.map char)} =
        Fintype.card {source : List.Vector UInt8 (batches * size) //
          (S.picks source.toList).take rs.length = rs} := fun hrs =>
    Fintype.card_congr (Equiv.subtypeEquivRight fun source =>
      h.fill_eq_some_iff hchar source.toList_length.le hrs)
  obtain ⟨rs, hrs, rfl⟩ := hcs.exists_map
  obtain ⟨us, hus, rfl⟩ := hds.exists_map
  rw [hpicks hrs, hpicks hus, S.card_picks (hrs.trans hus.symm)]

/-! ## Access codes -/

/-- A decimal digit. -/
def digit (r : Fin 10) : Char := r.val.digitChar

theorem decimal_eq (r : Fin 10) : decimal r.val = [digit r] := by
  revert r
  decide

theorem digit_injective : Function.Injective digit := by decide

/-- Bytes below 250 pick a digit. -/
def digits : Sampler UInt8 (Fin 10) := residue 10 25 (by decide) (by decide)

theorem digits_pick_none {b : UInt8} (hb : b.toNat ≥ 250) : digits.pick b = none :=
  if_neg (Nat.not_lt.2 hb)

theorem digits_pick_some {b : UInt8} (hb : ¬b.toNat ≥ 250) :
    digits.pick b = some ⟨b.toNat % 10, Nat.mod_lt _ (by decide)⟩ :=
  if_pos (Nat.lt_of_not_ge hb)

theorem codeRound_keeps (k : Nat) : Keeps digits digit k (codeRound k) := by
  intro out batch
  induction batch generalizing out with
  | nil =>
      intro hout
      rw [codeRound, Sampler.picks, List.filterMap_nil, List.map_nil, List.append_nil,
        List.take_of_length_le (Nat.le_of_lt hout)]
  | cons byte batch ih =>
      intro hout
      by_cases hb : byte.toNat ≥ 250
      · rw [codeRound, if_pos hb, picks_rejected (digits_pick_none hb)]
        exact ih out hout
      have hdecimal : decimal (byte.toNat % 10) = [digit ⟨byte.toNat % 10, _⟩] :=
        decimal_eq ⟨byte.toNat % 10, Nat.mod_lt _ (by decide)⟩
      rw [codeRound, if_neg hb, hdecimal, picks_kept (digits_pick_some hb)]
      by_cases hfull : (out ++ [digit ⟨byte.toNat % 10, Nat.mod_lt _ (by decide)⟩]).length = k
      · exact (if_pos hfull).trans (by rw [← hfull, List.take_left])
      · refine (if_neg hfull).trans (ih _ ?_)
        rw [List.length_append, List.length_singleton] at hfull ⊢
        omega

/-! ## Passwords -/

/-- A character of the alphabet. -/
def letter (r : Fin 31) : Char := readableAlphabet.get (r.cast (by decide +kernel))

theorem alphabet_eq (r : Fin 31) : readableAlphabet[r.val]? = some (letter r) := by
  revert r
  decide +kernel

theorem letter_injective : Function.Injective letter := by decide +kernel

/-- Bytes below 248 pick a character of the alphabet. -/
def letters : Sampler UInt8 (Fin 31) := residue 31 8 (by decide) (by decide)

theorem letters_pick_none {b : UInt8} (hb : ¬b.toNat < 248) : letters.pick b = none := if_neg hb

theorem letters_pick_some {b : UInt8} (hb : b.toNat < 248) :
    letters.pick b = some ⟨b.toNat % 31, Nat.mod_lt _ (by decide)⟩ := if_pos hb

theorem passwordRound_full {chars : List Char} (h : ¬chars.length < 20) (batch : Bytes) :
    passwordRound chars batch = chars := by
  induction batch with
  | nil => rfl
  | cons b batch ih => rw [passwordRound, if_neg fun hb => h hb.2, ih]

theorem passwordRound_keeps : Keeps letters letter 20 passwordRound := by
  intro out batch
  induction batch generalizing out with
  | nil =>
      intro hout
      rw [passwordRound, Sampler.picks, List.filterMap_nil, List.map_nil, List.append_nil,
        List.take_of_length_le (Nat.le_of_lt hout)]
  | cons b batch ih =>
      intro hout
      by_cases hb : b.toNat < 248
      swap
      · rw [passwordRound, if_neg fun h => hb h.1, picks_rejected (letters_pick_none hb)]
        exact ih out hout
      have hletter : (readableAlphabet[b.toNat % 31]?).toList = [letter ⟨b.toNat % 31, _⟩] :=
        congrArg Option.toList (alphabet_eq ⟨b.toNat % 31, Nat.mod_lt _ (by decide)⟩)
      rw [passwordRound, if_pos ⟨hb, hout⟩, hletter, picks_kept (letters_pick_some hb)]
      by_cases hfull : (out ++ [letter ⟨b.toNat % 31, Nat.mod_lt _ (by decide)⟩]).length < 20
      · exact ih _ hfull
      · have hlength : (out ++ [letter ⟨b.toNat % 31, Nat.mod_lt _ (by decide)⟩]).length = 20 := by
          rw [List.length_append, List.length_singleton] at hfull ⊢
          omega
        rw [passwordRound_full hfull, ← hlength, List.take_left]

/-- Dropping the dashes gives the text back. -/
theorem filter_dashed {cs : List Char} (h : '-' ∉ cs) : (dashed cs).filter (· != '-') = cs := by
  fun_induction dashed cs with
  | case1 a b c d e f rest ih =>
      have hgroup : ∀ x ∈ [a, b, c, d, e], (x != '-') = true := fun x hx =>
        bne_iff_ne.2 fun hx' => h (hx' ▸ List.mem_append_left (f :: rest) hx)
      have hrest : '-' ∉ f :: rest := fun hf => h (List.mem_append_right [a, b, c, d, e] hf)
      change ([a, b, c, d, e] ++ '-' :: dashed (f :: rest)).filter (· != '-') = _
      rw [List.filter_append, List.filter_eq_self.2 hgroup, List.filter_cons_of_neg (by decide),
        ih hrest]
      rfl
  | case2 cs hcs =>
      refine List.filter_eq_self.2 fun x hx => bne_iff_ne.2 fun hx' => h (hx' ▸ hx)

theorem dashed_group {group rest : List Char} (hgroup : group.length = 5) (hrest : rest ≠ []) :
    dashed (group ++ rest) = group ++ '-' :: dashed rest := by
  obtain ⟨f, rest, rfl⟩ := List.exists_cons_of_ne_nil hrest
  match group, hgroup with
  | [a, b, c, d, e], _ => rfl

theorem dashed_last {group : List Char} (hgroup : group.length = 5) : dashed group = group := by
  match group, hgroup with
  | [a, b, c, d, e], _ => rfl

/-! ## Every result equally often -/

/-- A code of `k` decimal digits. -/
def IsCode (k : Nat) (code : String) : Prop :=
  code.length = k ∧ ∀ c ∈ code.toList, c ∈ "0123456789".toList

/-- `n` characters of the alphabet. -/
def Readable (n : Nat) (cs : List Char) : Prop :=
  cs.length = n ∧ ∀ c ∈ cs, c ∈ readableAlphabet

/-- Four groups of five characters of the alphabet, with dashes between them. -/
def IsTempPassword (password : String) : Prop :=
  ∃ group₁ group₂ group₃ group₄, Readable 5 group₁ ∧ Readable 5 group₂ ∧ Readable 5 group₃ ∧
    Readable 5 group₄ ∧ password = String.ofList
      (group₁ ++ '-' :: (group₂ ++ '-' :: (group₃ ++ '-' :: group₄)))

theorem made_digit_iff {k : Nat} {code : String} : Made digit k code.toList ↔ IsCode k code := by
  have halphabet : "0123456789".toList = List.ofFn digit := by decide +kernel
  rw [Made, IsCode, halphabet, String.length_toList]
  simp only [List.mem_ofFn, Set.mem_range]

theorem made_letter_iff {n : Nat} {cs : List Char} : Made letter n cs ↔ Readable n cs := by
  have halphabet : readableAlphabet = List.ofFn letter := by decide +kernel
  rw [Made, Readable, halphabet]
  simp only [List.mem_ofFn, Set.mem_range]

theorem newAccessCode_eq_some_iff {k batches : Nat} {source : Bytes} {code : String} :
    newAccessCode k batches source = some code ↔
      fill k k (codeRound k) batches [] source = some code.toList := by
  rw [newAccessCode, Option.map_eq_some_iff]
  constructor
  · rintro ⟨cs, hfill, rfl⟩
    rw [hfill, String.toList_ofList]
  · exact fun hfill => ⟨code.toList, hfill, String.ofList_toList⟩

theorem newTempPassword_made {batches : Nat} {source : Bytes} {cs : List Char}
    (h : fill 20 32 passwordRound batches [] source = some cs) : Readable 20 cs :=
  made_letter_iff.1 (passwordRound_keeps.made h)

theorem Readable.filter_dashed {n : Nat} {cs : List Char} (h : Readable n cs) :
    (dashed cs).filter (· != '-') = cs :=
  Outletbox.filter_dashed fun hdash => absurd (h.2 '-' hdash) (by decide +kernel)

theorem newTempPassword_eq_some_iff {batches : Nat} {source : Bytes} {cs : List Char}
    (hcs : Readable 20 cs) :
    newTempPassword batches source = some (String.ofList (dashed cs)) ↔
      fill 20 32 passwordRound batches [] source = some cs := by
  rw [newTempPassword, Option.map_eq_some_iff]
  constructor
  · rintro ⟨out, hfill, hout⟩
    have hdashed : dashed out = dashed cs := String.ofList_injective hout
    rw [hfill, ← (newTempPassword_made hfill).filter_dashed, hdashed, hcs.filter_dashed]
  · exact fun hfill => ⟨cs, hfill, rfl⟩

/-- Twenty characters make four groups. -/
theorem Readable.isTempPassword {cs : List Char} (h : Readable 20 cs) :
    IsTempPassword (String.ofList (dashed cs)) := by
  have hgroup : ∀ n, n + 5 ≤ 20 → Readable 5 ((cs.drop n).take 5) := fun n hn => by
    refine ⟨?_, fun c hc => h.2 c (List.mem_of_mem_drop (List.mem_of_mem_take hc))⟩
    rw [List.length_take, List.length_drop, h.1]
    omega
  have hsplit : ∀ n, cs.drop n = (cs.drop n).take 5 ++ cs.drop (n + 5) := fun n => by
    rw [← List.drop_drop, List.take_append_drop]
  have hne : ∀ n, n < 20 → cs.drop n ≠ [] := fun n hn hnil => by
    have hlength := List.length_drop (i := n) (l := cs)
    rw [hnil, List.length_nil, h.1] at hlength
    omega
  have hend : cs.drop 15 = (cs.drop 15).take 5 := by
    rw [List.take_of_length_le (by rw [List.length_drop, h.1])]
  refine ⟨_, _, _, _, hgroup 0 (by decide), hgroup 5 (by decide), hgroup 10 (by decide),
    hgroup 15 (by decide), congrArg String.ofList ?_⟩
  rw [← dashed_last (hgroup 15 (by decide)).1, ← hend,
    ← dashed_group (hgroup 10 (by decide)).1 (hne 15 (by decide)), ← hsplit 10,
    ← dashed_group (hgroup 5 (by decide)).1 (hne 10 (by decide)), ← hsplit 5,
    ← dashed_group (hgroup 0 (by decide)).1 (hne 5 (by decide)), ← hsplit 0, List.drop_zero]

/-- Codes and passwords are unbiased, and of the form they should have: out of
the byte sequences of a number of batches, each result comes equally often. -/
theorem secrets_unbiased :
    (∀ (k batches : Nat) (c d : String), IsCode k c → IsCode k d →
      Fintype.card {source : List.Vector UInt8 (batches * k) //
          newAccessCode k batches source.toList = some c} =
        Fintype.card {source : List.Vector UInt8 (batches * k) //
          newAccessCode k batches source.toList = some d}) ∧
    (∀ (batches : Nat) (cs ds : List Char), Readable 20 cs → Readable 20 ds →
      Fintype.card {source : List.Vector UInt8 (batches * 32) //
          newTempPassword batches source.toList = some (String.ofList (dashed cs))} =
        Fintype.card {source : List.Vector UInt8 (batches * 32) //
          newTempPassword batches source.toList = some (String.ofList (dashed ds))}) ∧
    (∀ (k batches : Nat) (source : Bytes) (code : String),
      newAccessCode k batches source = some code → IsCode k code) ∧
    (∀ (batches : Nat) (source : Bytes) (password : String),
      newTempPassword batches source = some password → IsTempPassword password) := by
  refine ⟨fun k batches c d hc hd => ?_, fun batches cs ds hcs hds => ?_,
    fun k batches source code h => ?_, fun batches source password h => ?_⟩
  · simp only [newAccessCode_eq_some_iff]
    exact (codeRound_keeps k).card_fill digit_injective batches (made_digit_iff.2 hc)
      (made_digit_iff.2 hd)
  · simp only [newTempPassword_eq_some_iff hcs, newTempPassword_eq_some_iff hds]
    exact passwordRound_keeps.card_fill letter_injective batches (made_letter_iff.2 hcs)
      (made_letter_iff.2 hds)
  · exact made_digit_iff.1 ((codeRound_keeps k).made (newAccessCode_eq_some_iff.1 h))
  · obtain ⟨cs, hfill, rfl⟩ := Option.map_eq_some_iff.1 h
    exact (newTempPassword_made hfill).isTempPassword

/-- A code of six digits out of two batches. -/
theorem secrets_unbiased_six :
    IsCode 6 "040701" ∧ IsCode 6 "999999" ∧
      Fintype.card {source : List.Vector UInt8 (2 * 6) //
          newAccessCode 6 2 source.toList = some "040701"} =
        Fintype.card {source : List.Vector UInt8 (2 * 6) //
          newAccessCode 6 2 source.toList = some "999999"} ∧
      newAccessCode 6 2 [10, 254, 4, 250, 20, 247, 100, 61, 0, 0, 0, 0] = some "040701" ∧
      newTempPassword 1 (List.replicate 32 247) = some "99999-99999-99999-99999" := by
  have hdigits : ∀ code : String, (code.toList.all fun c => "0123456789".toList.contains c) →
      ∀ c ∈ code.toList, c ∈ "0123456789".toList := fun code h c hc =>
    List.contains_iff_mem.1 (List.all_eq_true.1 h c hc)
  have hc : IsCode 6 "040701" := ⟨by decide +kernel, hdigits _ (by decide +kernel)⟩
  have hd : IsCode 6 "999999" := ⟨by decide +kernel, hdigits _ (by decide +kernel)⟩
  exact ⟨hc, hd, secrets_unbiased.1 6 2 _ _ hc hd, by decide +kernel, by decide +kernel⟩

end Outletbox
