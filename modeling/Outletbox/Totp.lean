import Outletbox.Crypto

/-!
# Time-based one-time passwords

The functions of `totp.ts`, with six digits, thirty seconds and HMAC-SHA-1.  A
secret is kept as its bytes: the base32 text is only what an authenticator app
is shown.
-/

namespace Outletbox

variable (P : Platform)

/-- The eight bytes of a counter, most significant first. -/
def counterBytes (counter : Nat) : Bytes :=
  (List.range 8).reverse.map fun i => UInt8.ofNat (counter / 256 ^ i)

/-- The digits of a number, padded with zeros to six places. -/
def sixDigits (n : Nat) : String :=
  String.ofList ((List.range 6).reverse.map fun i => Char.ofNat (48 + n / 10 ^ i % 10))

def hotp (secret : Bytes) (counter : Nat) : String :=
  let mac := P.hmacSha1 secret (counterBytes counter)
  let offset := (mac.getLastD 0).toNat % 16
  let byte := fun i => (mac.getD (offset + i) 0).toNat
  sixDigits ((byte 0 % 128 * 256 ^ 3 + byte 1 * 256 ^ 2 + byte 2 * 256 + byte 3) % 10 ^ 6)

def totpStep (nowMs : Int) : Int := nowMs / 30000

def isDigit (c : Char) : Bool := '0' ≤ c && c ≤ '9'

/-- Verifies a code within one step of the current time and returns the matched
step; a step that is not later than the last accepted one does not match.  A step
before 1970 counts as the first: Node throws there, which is left out. -/
def verifyTotp (secret : Bytes) (code : String) (nowMs : Int) (minStep : Option Int) :
    Option Int :=
  let clean := code.toList.filter fun c => !isSpace c
  if clean.length == 6 && clean.all isDigit then
    let current := totpStep nowMs
    [current - 1, current, current + 1].foldl (fun matched step =>
      if hotp P secret step.toNat == String.ofList clean && minStep.all (· < step) then some step
      else matched) none
  else none

/-! ## Recovery codes -/

/-- `ALPHABET`. -/
def base32Alphabet : List Char := "ABCDEFGHIJKLMNOPQRSTUVWXYZ234567".toList

def base32Char (n : Nat) : Char := base32Alphabet.getD (n % 32) 'A'

/-- A character for every five pending bits.  Only the pending bits of the value are read,
so that its 32-bit overflow in the source does not show. -/
def base32Drain (value : Nat) : Nat → List Char
  | bits + 5 => base32Char (value / 2 ^ bits) :: base32Drain value bits
  | _ => []

def base32Loop : Bytes → Nat → Nat → List Char
  | [], bits, value => if 0 < bits then [base32Char (value * 2 ^ (5 - bits))] else []
  | byte :: buf, bits, value =>
      let value := value * 256 + byte.toNat
      base32Drain value (bits + 8) ++ base32Loop buf ((bits + 8) % 5) value

def base32Encode (buf : Bytes) : String := String.ofList (base32Loop buf 0 0)

/-- Human-friendly one-time recovery codes: 10 base32 characters, shown as xxxxx-xxxxx. -/
def generateRecoveryCodes (draws : List Bytes) : List String :=
  draws.map fun random =>
    let raw := (P.toLowerCase (String.ofList ((base32Encode random).toList.take 10))).toList
    String.ofList (raw.take 5 ++ '-' :: raw.drop 5)

/-- The letters and digits of a recovery code. -/
def isRecoveryChar (c : Char) : Bool := ('a' ≤ c && c ≤ 'z') || ('2' ≤ c && c ≤ '7')

def normalizeRecoveryCode (code : String) : String :=
  String.ofList ((P.toLowerCase code).toList.filter isRecoveryChar)

/-! ## What a verified code is -/

/-- The code that is compared: `code.replace(/\s+/g, '')`. -/
def withoutSpaces (code : String) : String :=
  String.ofList (code.toList.filter fun c => !isSpace c)

section

variable {P}

/-- The last element that passes a test, found without an early exit. -/
theorem mem_of_foldl_last {α : Type} {p : α → Bool} {l : List α} {acc : Option α} {a : α}
    (h : l.foldl (fun found x => if p x then some x else found) acc = some a) :
    acc = some a ∨ (a ∈ l ∧ p a = true) := by
  induction l generalizing acc with
  | nil => exact .inl h
  | cons x xs ih =>
      rcases ih h with hx | ⟨hmem, hp⟩
      · simp only [] at hx
        split at hx
        · rename_i hpx
          cases hx
          exact .inr ⟨List.mem_cons_self .., hpx⟩
        · exact .inl hx
      · exact .inr ⟨List.mem_cons_of_mem _ hmem, hp⟩

/-- A matched step is at most one away from the clock, later than the last one, and its
value is the code. -/
theorem verifyTotp_some {secret : Bytes} {code : String} {nowMs step : Int}
    {minStep : Option Int} (h : verifyTotp P secret code nowMs minStep = some step) :
    (totpStep nowMs - 1 ≤ step ∧ step ≤ totpStep nowMs + 1) ∧
      hotp P secret step.toNat = withoutSpaces code ∧ ∀ last ∈ minStep, last < step := by
  simp only [verifyTotp] at h
  split at h
  · rcases mem_of_foldl_last h with hnone | ⟨hmem, hp⟩
    · cases hnone
    · simp only [Bool.and_eq_true, beq_iff_eq] at hp
      simp only [List.mem_cons, List.not_mem_nil, or_false] at hmem
      refine ⟨by omega, hp.1, ?_⟩
      intro last hlast
      rw [Option.mem_def.1 hlast] at hp
      simpa using hp.2
  · cases h

end

/-! ## What a recovery code may be typed as -/

/-- The documented behaviour of `toLowerCase` the recovery codes rest on: ASCII text is
lower-cased letter by letter, and which of a-z and 2-7 a text has in lower case is decided
character by character. -/
structure LowerCase : Prop where
  ascii : ∀ s : String, (∀ c ∈ s.toList, c.toNat < 128) →
    P.toLowerCase s = String.ofList (s.toList.map Char.toLower)
  chars : ∀ s : String, (P.toLowerCase s).toList.filter isRecoveryChar =
    s.toList.flatMap fun c => (P.toLowerCase (String.singleton c)).toList.filter isRecoveryChar

/-- The characters of a-z and 2-7 in the lower case of a character. -/
def lowerLetters (c : Char) : List Char :=
  (P.toLowerCase (String.singleton c)).toList.filter isRecoveryChar

/-- A code as it may be typed: its letters in any case, with characters inserted or left
out whose lower case has none of a-z and 2-7. -/
inductive Spells : List Char → List Char → Prop
  | nil : Spells [] []
  | letter {x c : Char} {code typed : List Char} : isRecoveryChar x = true →
      c = x ∨ c = x.toUpper → Spells code typed → Spells (x :: code) (c :: typed)
  | inserted {c : Char} {code typed : List Char} : lowerLetters P c = [] →
      Spells code typed → Spells code (c :: typed)
  | dropped {x : Char} {code typed : List Char} : lowerLetters P x = [] →
      Spells code typed → Spells (x :: code) typed

section

variable {P}

theorem isRecoveryChar_cases {c : Char} (h : isRecoveryChar c = true) :
    (∃ n < 26, c = Char.ofNat (97 + n)) ∨ ∃ n < 6, c = Char.ofNat (50 + n) := by
  simp only [isRecoveryChar, Bool.or_eq_true, Bool.and_eq_true, decide_eq_true_eq] at h
  rcases h with ⟨hlow, hhigh⟩ | ⟨hlow, hhigh⟩
  · have hlow : 97 ≤ c.toNat := hlow
    have hhigh : c.toNat ≤ 122 := hhigh
    exact .inl ⟨c.toNat - 97, by omega, by rw [Nat.add_sub_cancel' hlow, Char.ofNat_toNat]⟩
  · have hlow : 50 ≤ c.toNat := hlow
    have hhigh : c.toNat ≤ 55 := hhigh
    exact .inr ⟨c.toNat - 50, by omega, by rw [Nat.add_sub_cancel' hlow, Char.ofNat_toNat]⟩

/-- Both cases of a letter are ASCII and have the letter as their lower case. -/
theorem toLower_of_isRecoveryChar {x c : Char} (hx : isRecoveryChar x = true)
    (hc : c = x ∨ c = x.toUpper) : c.toNat < 128 ∧ c.toLower = x := by
  have hletter : ∀ n < 26, ∀ x, x = Char.ofNat (97 + n) →
      (x.toNat < 128 ∧ x.toLower = x) ∧ x.toUpper.toNat < 128 ∧ x.toUpper.toLower = x := by
    rintro n hn x rfl
    revert n
    decide
  have hdigit : ∀ n < 6, ∀ x, x = Char.ofNat (50 + n) →
      (x.toNat < 128 ∧ x.toLower = x) ∧ x.toUpper.toNat < 128 ∧ x.toUpper.toLower = x := by
    rintro n hn x rfl
    revert n
    decide
  have hboth : (x.toNat < 128 ∧ x.toLower = x) ∧ x.toUpper.toNat < 128 ∧ x.toUpper.toLower = x := by
    rcases isRecoveryChar_cases hx with ⟨n, hn, hxn⟩ | ⟨n, hn, hxn⟩
    · exact hletter n hn x hxn
    · exact hdigit n hn x hxn
  rcases hc with rfl | rfl
  · exact hboth.1
  · exact hboth.2

theorem normalizeRecoveryCode_eq (hl : LowerCase P) (code : String) :
    normalizeRecoveryCode P code = String.ofList (code.toList.flatMap (lowerLetters P)) := by
  rw [normalizeRecoveryCode, hl.chars]
  rfl

theorem lowerLetters_of_isRecoveryChar (hl : LowerCase P) {x c : Char}
    (hx : isRecoveryChar x = true) (hc : c = x ∨ c = x.toUpper) : lowerLetters P c = [x] := by
  obtain ⟨hascii, hlower⟩ := toLower_of_isRecoveryChar hx hc
  have hs : P.toLowerCase (String.singleton c) = String.ofList [x] := by
    rw [hl.ascii (String.singleton c) (by simpa using hascii)]
    simp [hlower]
  rw [lowerLetters, hs, String.toList_ofList]
  simp [hx]

/-- Every spelling of a code has its normal form. -/
theorem normalizeRecoveryCode_of_spells (hl : LowerCase P) {code typed : String}
    (h : Spells P code.toList typed.toList) :
    normalizeRecoveryCode P typed = normalizeRecoveryCode P code := by
  rw [normalizeRecoveryCode_eq hl, normalizeRecoveryCode_eq hl]
  congr 1
  generalize code.toList = cs, typed.toList = ts at h
  induction h with
  | nil => rfl
  | letter hx hc _ ih =>
      rw [List.flatMap_cons, List.flatMap_cons, ih, lowerLetters_of_isRecoveryChar hl hx hc,
        lowerLetters_of_isRecoveryChar hl hx (.inl rfl)]
  | inserted hc _ ih => rw [List.flatMap_cons, hc, ih, List.nil_append]
  | dropped hx _ ih => rw [List.flatMap_cons, hx, ih, List.nil_append]

/-! ## The form of a generated code -/

theorem base32Alphabet_lower : ∀ i < 32, (base32Char i).toNat < 128 ∧
    isRecoveryChar (base32Char i).toLower = true := by
  decide

theorem base32Char_mod (n : Nat) : base32Char n = base32Char (n % 32) := by
  rw [base32Char, base32Char, Nat.mod_mod]

theorem base32Drain_mem {value : Nat} {c : Char} :
    ∀ {bits : Nat}, c ∈ base32Drain value bits → ∃ i < 32, c = base32Char i
  | bits + 5, h => by
      rcases List.mem_cons.1 h with rfl | h
      · exact ⟨_, Nat.mod_lt _ (by decide), base32Char_mod _⟩
      · exact base32Drain_mem h

theorem base32Loop_mem {c : Char} :
    ∀ {buf : Bytes} {bits value : Nat}, c ∈ base32Loop buf bits value → ∃ i < 32, c = base32Char i
  | [], bits, value, h => by
      simp only [base32Loop] at h
      split at h
      · rw [List.mem_singleton.1 h]
        exact ⟨_, Nat.mod_lt _ (by decide), base32Char_mod _⟩
      · cases h
  | byte :: buf, bits, value, h => by
      rcases List.mem_append.1 h with h | h
      · exact base32Drain_mem h
      · exact base32Loop_mem h

theorem base32Drain_length (value : Nat) : ∀ bits, (base32Drain value bits).length = bits / 5
  | bits + 5 => by
      rw [base32Drain, List.length_cons, base32Drain_length value bits]
      omega
  | 0 | 1 | 2 | 3 | 4 => rfl

theorem base32Loop_length :
    ∀ (buf : Bytes) (bits value : Nat), bits < 5 →
      (base32Loop buf bits value).length = (8 * buf.length + bits + 4) / 5
  | [], bits, value, h => by
      simp only [base32Loop, List.length_nil]
      split
      · simp only [List.length_singleton]
        omega
      · simp only [List.length_nil]
        omega
  | byte :: buf, bits, value, h => by
      rw [base32Loop, List.length_append, base32Drain_length,
        base32Loop_length buf _ _ (Nat.mod_lt _ (by decide)), List.length_cons]
      omega

/-- The ten characters of a generated code. -/
theorem generated_form (hl : LowerCase P) {draws : List Bytes} {code : String}
    (hdraws : ∀ random ∈ draws, random.length = 7) (h : code ∈ generateRecoveryCodes P draws) :
    ∃ raw : List Char, raw.length = 10 ∧ (∀ c ∈ raw, isRecoveryChar c = true) ∧
      code = String.ofList (raw.take 5 ++ '-' :: raw.drop 5) := by
  obtain ⟨random, hrandom, rfl⟩ := List.mem_map.1 h
  have hmem : ∀ c ∈ (base32Encode random).toList.take 10,
      c.toNat < 128 ∧ isRecoveryChar c.toLower = true := by
    intro c hc
    have hc := List.mem_of_mem_take hc
    rw [base32Encode, String.toList_ofList] at hc
    obtain ⟨i, hi, rfl⟩ := base32Loop_mem hc
    exact base32Alphabet_lower i hi
  have hlength : ((base32Encode random).toList.take 10).length = 10 := by
    rw [base32Encode, String.toList_ofList, List.length_take,
      base32Loop_length random 0 0 (by decide), hdraws random hrandom]
    rfl
  have hlower := hl.ascii (String.ofList ((base32Encode random).toList.take 10))
    (by rw [String.toList_ofList]; exact fun c hc => (hmem c hc).1)
  refine ⟨((base32Encode random).toList.take 10).map Char.toLower, ?_, ?_, ?_⟩
  · rw [List.length_map, hlength]
  · intro c hc
    obtain ⟨u, hu, rfl⟩ := List.mem_map.1 hc
    exact (hmem u hu).2
  · rw [hlower]
    simp only [String.toList_ofList]

/-- The round trip: the normal form of a generated code has ten characters. -/
theorem normalizeRecoveryCode_generated (hl : LowerCase P) {draws : List Bytes} {code : String}
    (hdraws : ∀ random ∈ draws, random.length = 7) (h : code ∈ generateRecoveryCodes P draws) :
    utf16Length (normalizeRecoveryCode P code) = 10 := by
  obtain ⟨raw, hlength, hraw, rfl⟩ := generated_form hl hdraws h
  have hdash : lowerLetters P '-' = [] := by
    have hs : P.toLowerCase (String.singleton '-') = String.ofList ['-'] := by
      rw [hl.ascii (String.singleton '-') (by simp)]
      simp [Char.toLower]
    rw [lowerLetters, hs, String.toList_ofList]
    rfl
  have hletters : ∀ cs : List Char, (∀ c ∈ cs, isRecoveryChar c = true) →
      cs.flatMap (lowerLetters P) = cs := by
    intro cs hcs
    induction cs with
    | nil => rfl
    | cons c cs ih =>
        rw [List.flatMap_cons, lowerLetters_of_isRecoveryChar hl (hcs c (by simp)) (.inl rfl),
          ih fun x hx => hcs x (by simp [hx]), List.singleton_append]
  have hunits : ∀ c ∈ raw, units c = 1 := by
    intro c hc
    have hascii := (toLower_of_isRecoveryChar (hraw c hc) (.inl rfl)).1
    exact if_pos (by omega)
  rw [normalizeRecoveryCode_eq hl, String.toList_ofList, List.flatMap_append, List.flatMap_cons,
    hdash, List.nil_append, hletters _ fun c hc => hraw c (List.mem_of_mem_take hc),
    hletters _ fun c hc => hraw c (List.mem_of_mem_drop hc), List.take_append_drop, utf16Length,
    String.toList_ofList, List.map_congr_left hunits]
  simp [hlength]

end

end Outletbox
