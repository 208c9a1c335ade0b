import Outletbox.Totp
import Outletbox.Library.Regroup

/-!
# The text of a secret

`base32Encode` and `base32Decode` of `totp.ts` on the 32-bit numbers of
JavaScript's shifts.  The accumulator of either loop is never cleared: after
four bytes its upper bits are those of digits already written, and they go
when a shift pushes them out.  What the loops keep is that its low bits are
the pending ones; there are never more than twelve.
-/

namespace Outletbox

namespace Base32

open Regroup

/-! ## The functions -/

/-- `value << n`; the sign is the uppermost bit. -/
def shiftLeft (value : BitVec 32) (n : Nat) : BitVec 32 := value <<< (n % 32)

/-- `value >>> n`. -/
def shiftRight (value : BitVec 32) (n : Nat) : BitVec 32 := value >>> (n % 32)

/-- `ALPHABET[i & 31]`. -/
def alphabetAt (i : BitVec 32) : Char := base32Alphabet.getD (i &&& 31).toNat 'A'

/-- `while (bits >= 5)`: the characters, and the number of bits left. -/
def drain (value : BitVec 32) : Nat → List Char × Nat
  | bits + 5 =>
      let (out, left) := drain value bits
      (alphabetAt (shiftRight value bits) :: out, left)
  | bits => ([], bits)

/-- `for (const byte of buf)`, and the padded character after it. -/
def encodeLoop : Bytes → Nat → BitVec 32 → List Char
  | [], bits, value => if 0 < bits then [alphabetAt (shiftLeft value (5 - bits))] else []
  | byte :: buf, bits, value =>
      let value := shiftLeft value 8 ||| BitVec.ofNat 32 byte.toNat
      let (out, bits) := drain value (bits + 8)
      out ++ encodeLoop buf bits value

def base32Encode (buf : Bytes) : String := String.ofList (encodeLoop buf 0 0)

/-- What `toUpperCase` makes of a character. -/
structure Uppercase where
  map : Char → List Char
  ascii : ∀ c, c.toNat < 128 → map c = [c.toUpper]
  space : ∀ c, isSpace c = true → map c = [c]

/-- ASCII upper-casing leaves white space alone. -/
theorem toUpper_of_isSpace {c : Char} (h : isSpace c = true) : c.toUpper = c := by
  rw [Char.toUpper, dif_neg]
  rintro ⟨hlo, hhi⟩
  have hlo : 97 ≤ c.toNat := hlo
  have hhi : c.toNat ≤ 122 := hhi
  simp only [isSpace, Bool.or_eq_true, Bool.and_eq_true, decide_eq_true_eq, beq_iff_eq] at h
  omega

/-- Tables that know the ASCII letters alone. -/
def Uppercase.ofAscii : Uppercase where
  map c := [c.toUpper]
  ascii _ _ := rfl
  space _ h := congrArg (fun c => [c]) (toUpper_of_isSpace h)

/-- The characters of `/[=\s-]/`. -/
def isFiller (c : Char) : Bool := c == '=' || isSpace c || c == '-'

/-- `for (const ch of clean)`. -/
def decodeLoop : List Char → Nat → BitVec 32 → Except String Bytes
  | [], _, _ => .ok []
  | ch :: clean, bits, value =>
      match base32Alphabet.idxOf? ch with
      | none => .error "invalid base32"
      | some idx =>
          let value := shiftLeft value 5 ||| BitVec.ofNat 32 idx
          let bits := bits + 5
          if 8 ≤ bits then
            (decodeLoop clean (bits - 8) value).map
              (UInt8.ofNat (shiftRight value (bits - 8) &&& 255).toNat :: ·)
          else decodeLoop clean bits value

def base32Decode (U : Uppercase) (str : String) : Except String Bytes :=
  decodeLoop ((str.toList.flatMap U.map).filter fun c => !isFiller c) 0 0

/-! ## Digits -/

section

variable {U : Uppercase} {value : BitVec 32} {pending : List Bool} {c : Char} {s t : List Char}

/-- The numbers of bytes. -/
def digits (buf : Bytes) : List Nat := buf.map UInt8.toNat

/-- The numbers of characters of the alphabet. -/
def symbols (s : List Char) : List Nat := s.map base32Alphabet.idxOf

@[simp] theorem digits_cons (byte : UInt8) (buf : Bytes) :
    digits (byte :: buf) = byte.toNat :: digits buf := rfl

@[simp] theorem symbols_cons (c : Char) (s : List Char) :
    symbols (c :: s) = base32Alphabet.idxOf c :: symbols s := rfl

@[simp] theorem symbols_append (s t : List Char) : symbols (s ++ t) = symbols s ++ symbols t :=
  List.map_append

theorem digits_lt (buf : Bytes) : ∀ d ∈ digits buf, d < 2 ^ 8 := by
  simp only [digits, List.forall_mem_map]
  exact fun b _ => b.toNat_lt

theorem digits_injective : Function.Injective digits :=
  List.map_injective_iff.2 fun _ _ => UInt8.toNat_inj.1

/-- The low bits of the accumulator are the pending ones. -/
def Holds (value : BitVec 32) (pending : List Bool) : Prop :=
  bits pending.length value.toNat = pending

theorem holds_nil (value : BitVec 32) : Holds value [] := rfl

theorem Holds.push (h : Holds value pending) {k d : Nat} (hfits : pending.length + k ≤ 31)
    (hd : d < 2 ^ k) :
    Holds (shiftLeft value k ||| BitVec.ofNat 32 d) (pending ++ bits k d) := by
  rw [Holds, List.length_append, length_bits, shiftLeft, Nat.mod_eq_of_lt (by omega),
    bits_push value (by omega) hd, h]

/-- The bits that a digit of the accumulator has. -/
theorem Holds.take {k : Nat} {front back : List Bool} (h : Holds value (front ++ back))
    (hfront : front.length = k) (hfits : k + back.length ≤ 31) :
    bits k (shiftRight value back.length &&& BitVec.ofNat 32 (2 ^ k - 1)).toNat = front ∧
      Holds value back := by
  rw [Holds, List.length_append, hfront, bits_add] at h
  obtain ⟨hupper, hlower⟩ := List.append_inj h (by rw [length_bits, hfront])
  rw [shiftRight, Nat.mod_eq_of_lt (by omega), bits_take value (by omega)]
  exact ⟨hupper, hlower⟩

theorem idxOf_alphabet : ∀ k < 32, base32Alphabet.idxOf (base32Alphabet.getD k 'A') = k := by
  decide +kernel

theorem idxOf?_alphabet : ∀ c ∈ base32Alphabet,
    base32Alphabet.idxOf? c = some (base32Alphabet.idxOf c) ∧ base32Alphabet.idxOf c < 2 ^ 5 := by
  have h : base32Alphabet.all fun c => base32Alphabet.idxOf? c = some (base32Alphabet.idxOf c) ∧
      base32Alphabet.idxOf c < 2 ^ 5 := by decide +kernel
  exact fun c hc => of_decide_eq_true (List.all_eq_true.1 h c hc)

theorem getD_mem_alphabet : ∀ k < 32, base32Alphabet.getD k 'A' ∈ base32Alphabet := by decide

theorem mask_lt (i : BitVec 32) : (i &&& 31).toNat < 32 := take_lt (i : BitVec 32) 0 5

theorem alphabetAt_mem (i : BitVec 32) : alphabetAt i ∈ base32Alphabet :=
  getD_mem_alphabet _ (mask_lt i)

@[simp] theorem idxOf_alphabetAt (i : BitVec 32) :
    base32Alphabet.idxOf (alphabetAt i) = (i &&& 31).toNat :=
  idxOf_alphabet _ (mask_lt i)

/-! ## Encoding -/

/-- The loop writes the pending bits in groups of five. -/
theorem drain_spec (h : Holds value pending) (hfits : pending.length ≤ 31) :
    ∃ rest, (drain value pending.length).2 = rest.length ∧ Holds value rest ∧
      Groups 5 pending (symbols (drain value pending.length).1) rest ∧
      ∀ c ∈ (drain value pending.length).1, c ∈ base32Alphabet := by
  generalize hbits : pending.length = n at hfits
  induction n using Nat.strong_induction_on generalizing pending with
  | _ n ih =>
  obtain hshort | ⟨m, rfl⟩ : n < 5 ∨ ∃ m, n = m + 5 :=
    (Nat.lt_or_ge n 5).imp_right fun hn => ⟨n - 5, by omega⟩
  · have hdrain : drain value n = ([], n) := by
      match n, hshort with
      | 0, _ | 1, _ | 2, _ | 3, _ | 4, _ => rfl
    rw [hdrain]
    exact ⟨pending, hbits.symm, h, .nil (hbits ▸ hshort), nofun⟩
  · obtain ⟨front, back, rfl, hfront⟩ : ∃ front back, pending = front ++ back ∧ front.length = 5 :=
      ⟨pending.take 5, pending.drop 5, (List.take_append_drop 5 pending).symm,
        List.length_take_of_le (by omega)⟩
    have hback : back.length = m := by
      rw [List.length_append, hfront] at hbits
      omega
    obtain ⟨hdigit, hheld⟩ := h.take hfront (by omega)
    obtain ⟨rest, hleft, hrest, hgroups, hchars⟩ := ih m (by omega) hheld hback (by omega)
    rw [hback] at hdigit
    rw [drain]
    refine ⟨rest, hleft, hrest, ?_, List.forall_mem_cons.2 ⟨alphabetAt_mem _, hchars⟩⟩
    rw [symbols_cons, idxOf_alphabetAt, ← hdigit]
    exact hgroups.cons (mask_lt _)

/-- The loop writes the pending bits and those of the bytes, padded to a group of five. -/
theorem encodeLoop_spec (buf : Bytes) (h : Holds value pending) (hshort : pending.length < 5) :
    ∃ pad, pad.length < 5 ∧
      bitsOf 5 (symbols (encodeLoop buf pending.length value)) =
        pending ++ bitsOf 8 (digits buf) ++ pad ∧
      ∀ c ∈ encodeLoop buf pending.length value, c ∈ base32Alphabet := by
  induction buf generalizing value pending with
  | nil =>
      rw [encodeLoop]
      split
      · rename_i hpos
        have hpadded := h.push (k := 5 - pending.length) (d := 0) (by omega) (Nat.two_pow_pos _)
        rw [BitVec.or_zero, ← List.append_nil (pending ++ _)] at hpadded
        have hdigit := (hpadded.take (k := 5) (by
          rw [List.length_append, length_bits]
          omega) (by decide)).1
        refine ⟨bits (5 - pending.length) 0, by rw [length_bits]; omega, ?_, ?_⟩
        · rw [symbols_cons, idxOf_alphabetAt, bitsOf_cons, List.append_assoc]
          exact (List.append_nil _).trans hdigit
        · rw [List.forall_mem_singleton]
          exact alphabetAt_mem _
      · rename_i hnone
        have hnil : pending = [] := List.eq_nil_of_length_eq_zero (by omega)
        subst hnil
        exact ⟨[], by decide, rfl, nofun⟩
  | cons byte buf ih =>
      have hpushed := h.push (k := 8) (by omega) byte.toNat_lt
      obtain ⟨rest, hleft, hrest, hgroups, hchars⟩ := drain_spec hpushed (by
        rw [List.length_append, length_bits]
        omega)
      rw [List.length_append, length_bits] at hleft hgroups hchars
      obtain ⟨pad, hpad, hbits, hlater⟩ := ih hrest hgroups.short
      rw [encodeLoop]
      dsimp only
      rw [hleft]
      refine ⟨pad, hpad, ?_, List.forall_mem_append.2 ⟨hchars, hlater⟩⟩
      rw [symbols_append, bitsOf_append, hbits, ← List.append_assoc, ← List.append_assoc,
        hgroups.cut, digits_cons, bitsOf_cons]
      simp only [List.append_assoc]

/-! ## Decoding -/

theorem byte_of_mask (i : BitVec 32) : (UInt8.ofNat (i &&& 255).toNat).toNat = (i &&& 255).toNat :=
  Nat.mod_eq_of_lt (take_lt (i : BitVec 32) 0 8)

/-- The loop cuts the pending bits and those of the characters into bytes. -/
theorem decodeLoop_spec (hs : ∀ c ∈ s, c ∈ base32Alphabet) (h : Holds value pending)
    (hshort : pending.length < 8) :
    ∃ buf rest, decodeLoop s pending.length value = .ok buf ∧
      Groups 8 (pending ++ bitsOf 5 (symbols s)) (digits buf) rest := by
  induction s generalizing value pending with
  | nil => exact ⟨[], pending, rfl, (List.append_nil pending).symm ▸ .nil hshort⟩
  | cons c s ih =>
      obtain ⟨hc, hs⟩ := List.forall_mem_cons.1 hs
      obtain ⟨hfound, hlt⟩ := idxOf?_alphabet c hc
      have hpushed := h.push (k := 5) (by omega) hlt
      have hlength : (pending ++ bits 5 (base32Alphabet.idxOf c)).length = pending.length + 5 := by
        rw [List.length_append, length_bits]
      have hbits : pending ++ bitsOf 5 (symbols (c :: s)) =
          pending ++ bits 5 (base32Alphabet.idxOf c) ++ bitsOf 5 (symbols s) := by
        rw [symbols_cons, bitsOf_cons, List.append_assoc]
      rw [decodeLoop, hfound, hbits]
      dsimp only
      generalize pending ++ bits 5 (base32Alphabet.idxOf c) = pending' at hpushed hlength ⊢
      split
      · rename_i hbyte
        obtain ⟨front, back, rfl, hfront⟩ :
            ∃ front back, pending' = front ++ back ∧ front.length = 8 :=
          ⟨pending'.take 8, pending'.drop 8, (List.take_append_drop 8 pending').symm,
            List.length_take_of_le (by omega)⟩
        rw [List.length_append, hfront] at hlength
        obtain ⟨hdigit, hheld⟩ := hpushed.take hfront (by omega)
        obtain ⟨buf, rest, hok, hgroups⟩ := ih hs hheld (by omega)
        rw [show pending.length + 5 - 8 = back.length by omega, hok]
        refine ⟨_, rest, rfl, ?_⟩
        rw [digits_cons, byte_of_mask, List.append_assoc, ← hdigit]
        exact hgroups.cons (take_lt _ _ 8)
      · rw [← hlength]
        exact ih hs hpushed (by omega)

/-! ## Spellings -/

/-- The text with any of its letters in lower case, and with fillers anywhere. -/
inductive Spells : List Char → List Char → Prop
  | nil : Spells [] []
  | letter {s t : List Char} (c : Char) (h : Spells s t) : Spells (c :: s) (c :: t)
  | lower {s t : List Char} (c : Char) (h : Spells s t) : Spells (c :: s) (c.toLower :: t)
  | filler {s t : List Char} (c : Char) (hc : isFiller c = true) (h : Spells s t) :
      Spells s (c :: t)

theorem Spells.refl (s : List Char) : Spells s s := by
  induction s with
  | nil => exact .nil
  | cons c s ih => exact .letter c ih

theorem Spells.toLower (s : List Char) : Spells s (s.map Char.toLower) := by
  induction s with
  | nil => exact .nil
  | cons c s ih => exact .lower c ih

theorem upper_alphabet : ∀ c ∈ base32Alphabet, c.toNat < 128 ∧ c.toLower.toNat < 128 ∧
    c.toUpper = c ∧ c.toLower.toUpper = c ∧ isFiller c = false := by
  have h : base32Alphabet.all fun c => c.toNat < 128 ∧ c.toLower.toNat < 128 ∧
      c.toUpper = c ∧ c.toLower.toUpper = c ∧ isFiller c = false := by decide +kernel
  exact fun c hc => of_decide_eq_true (List.all_eq_true.1 h c hc)

theorem map_filler (hc : isFiller c = true) : U.map c = [c] := by
  rw [isFiller, Bool.or_eq_true, Bool.or_eq_true, beq_iff_eq, beq_iff_eq] at hc
  obtain (rfl | hspace) | rfl := hc
  · exact U.ascii '=' (by decide)
  · exact U.space c hspace
  · exact U.ascii '-' (by decide)

/-- Upper-casing and removing the fillers finds the text again. -/
theorem Spells.clean (h : Spells s t) (hs : ∀ c ∈ s, c ∈ base32Alphabet) :
    (t.flatMap U.map).filter (fun c => !isFiller c) = s := by
  induction h with
  | nil => rfl
  | letter c h ih =>
      obtain ⟨hc, hs⟩ := List.forall_mem_cons.1 hs
      obtain ⟨hascii, -, hupper, -, hkept⟩ := upper_alphabet c hc
      rw [List.flatMap_cons, U.ascii c hascii, hupper, List.singleton_append,
        List.filter_cons_of_pos (by rw [hkept]; rfl), ih hs]
  | lower c h ih =>
      obtain ⟨hc, hs⟩ := List.forall_mem_cons.1 hs
      obtain ⟨-, hascii, -, hupper, hkept⟩ := upper_alphabet c hc
      rw [List.flatMap_cons, U.ascii _ hascii, hupper, List.singleton_append,
        List.filter_cons_of_pos (by rw [hkept]; rfl), ih hs]
  | filler c hc h ih =>
      rw [List.flatMap_cons, map_filler hc, List.singleton_append,
        List.filter_cons_of_neg (by rw [hc]; decide), ih hs]

/-! ## The round trip -/

/-- Every spelling of the text of some bytes is decoded to the bytes. -/
theorem decode_spelling (U : Uppercase) (buf : Bytes) {str : String}
    (h : Spells (base32Encode buf).toList str.toList) : base32Decode U str = .ok buf := by
  obtain ⟨pad, hpad, hbits, hchars⟩ := @encodeLoop_spec 0 [] buf rfl (by decide)
  obtain ⟨buf', rest, hok, hgroups⟩ := decodeLoop_spec hchars (holds_nil 0) (by decide)
  rw [List.nil_append] at hbits hgroups
  rw [hbits] at hgroups
  have hsame := hgroups.back (digits_lt buf) (by omega)
  obtain rfl := digits_injective hsame
  rw [base32Encode, String.toList_ofList] at h
  rw [base32Decode, h.clean hchars]
  exact hok

/-- The characters written are those of the alphabet. -/
theorem base32Encode_alphabet (buf : Bytes) : ∀ c ∈ (base32Encode buf).toList, c ∈ base32Alphabet := by
  obtain ⟨-, -, -, hchars⟩ := @encodeLoop_spec 0 [] buf rfl (by decide)
  rw [base32Encode, String.toList_ofList]
  exact hchars

/-- Bytes are found again from their text, in lower case, too, and with spaces, dashes and
padding in it; and a text that was written is written again. -/
theorem base32_round_trip (U : Uppercase) :
    (∀ buf, base32Decode U (base32Encode buf) = .ok buf ∧
      base32Decode U (String.ofList ((base32Encode buf).toList.map Char.toLower)) = .ok buf ∧
      ∀ str : String, Spells (base32Encode buf).toList str.toList →
        base32Decode U str = .ok buf) ∧
    ∀ str ∈ Set.range base32Encode, (base32Decode U str).map base32Encode = .ok str := by
  refine ⟨fun buf => ⟨?_, ?_, fun str h => decode_spelling U buf h⟩, ?_⟩
  · exact decode_spelling U buf (Spells.refl _)
  · refine decode_spelling U buf ?_
    rw [String.toList_ofList]
    exact Spells.toLower _
  · rintro _ ⟨buf, rfl⟩
    rw [decode_spelling U buf (Spells.refl _)]
    rfl

example : base32Decode .ofAscii "mzxw 6ytb-oi======" = .ok [0x66, 0x6f, 0x6f, 0x62, 0x61, 0x72] := by
  decide +kernel

/-! ## Without overflow -/

/-- A value that is never cut off has the same pending bits. -/
theorem digit_eq {n w : Nat} (h : bits (5 + w) n = bits (5 + w) value.toNat) (hfits : w ≤ 26) :
    alphabetAt (shiftRight value w) = base32Char (n / 2 ^ w) := by
  rw [bits_add, bits_add] at h
  obtain ⟨hupper, -⟩ := List.append_inj h (by rw [length_bits, length_bits])
  have hdigit : (shiftRight value w &&& 31).toNat = n / 2 ^ w % 32 := by
    refine bits_inj (w := 5) ?_ (mask_lt _) (Nat.mod_lt _ (by decide))
    have htake := bits_take (k := 5) (w := w) value (by decide)
    rw [shiftRight, Nat.mod_eq_of_lt (by omega)]
    refine (htake.trans hupper.symm).trans (bits_congr fun i hi => ?_)
    rw [Nat.shiftRight_eq_div_pow, show 32 = 2 ^ 5 from rfl, Nat.testBit_mod_two_pow]
    simp [hi]
  rw [alphabetAt, hdigit, base32Char]

theorem drain_eq {n bits : Nat} (h : Regroup.bits bits n = Regroup.bits bits value.toNat)
    (hfits : bits ≤ 31) : drain value bits = (base32Drain n bits, bits % 5) := by
  induction bits using Nat.strong_induction_on with
  | _ bits ih =>
  obtain hshort | ⟨m, rfl⟩ : bits < 5 ∨ ∃ m, bits = m + 5 :=
    (Nat.lt_or_ge bits 5).imp_right fun hn => ⟨bits - 5, by omega⟩
  · match bits, hshort with
    | 0, _ | 1, _ | 2, _ | 3, _ | 4, _ => rfl
  · rw [Nat.add_comm m 5] at h
    have hlow := bits_eq_of_le h (Nat.le_add_left m 5)
    rw [drain, base32Drain, ih m (by omega) hlow (by omega), digit_eq h (by omega),
      Nat.add_mod_right]

theorem push_eq {n bits k d : Nat} (h : Regroup.bits bits n = Regroup.bits bits value.toNat)
    (hfits : bits + k ≤ 31) (hd : d < 2 ^ k) :
    Regroup.bits (bits + k) (n * 2 ^ k + d) =
      Regroup.bits (bits + k) (shiftLeft value k ||| BitVec.ofNat 32 d).toNat := by
  rw [bits_mul_add n hd, shiftLeft, Nat.mod_eq_of_lt (by omega), bits_push value (by omega) hd, h]

/-- What `totp.ts` computes is what its numbers would give without overflow. -/
theorem encodeLoop_eq {n bits : Nat} (buf : Bytes) (hshort : bits < 5)
    (h : Regroup.bits bits n = Regroup.bits bits value.toNat) :
    encodeLoop buf bits value = base32Loop buf bits n := by
  induction buf generalizing bits n value with
  | nil =>
      rw [encodeLoop, base32Loop]
      split
      · have hpadded := push_eq h (k := 5 - bits) (by omega) (Nat.two_pow_pos _)
        rw [Nat.add_sub_cancel' (by omega), BitVec.or_zero, Nat.add_zero] at hpadded
        have hdigit := digit_eq (w := 0) hpadded (by decide)
        rw [Nat.pow_zero, Nat.div_one] at hdigit
        exact congrArg (fun c => [c]) hdigit
      · rfl
  | cons byte buf ih =>
      have hbyte := push_eq h (k := 8) (by omega) byte.toNat_lt
      have hleft : (bits + 8) % 5 < 5 := Nat.mod_lt _ (by decide)
      have hdrain := drain_eq hbyte (by omega)
      rw [encodeLoop, base32Loop, hdrain]
      dsimp only
      congr 1
      exact ih hleft (bits_eq_of_le hbyte (Nat.mod_le _ _))

theorem base32Encode_eq (buf : Bytes) : base32Encode buf = Outletbox.base32Encode buf :=
  congrArg String.ofList (encodeLoop_eq buf (by decide) rfl)

end

end Base32

end Outletbox
