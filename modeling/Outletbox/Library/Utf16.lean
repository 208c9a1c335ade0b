import Mathlib

/-!
# Texts of UTF-16 units

A JavaScript string is a sequence of 16-bit units, of which a pair of surrogates
writes one character beyond U+FFFF.  A surrogate may stand alone.
-/

namespace Utf16

/-- A string, unit by unit. -/
abbrev Units := List UInt16

instance : LawfulBEq Units := inferInstance

/-- The units of a character. -/
def encodeChar (c : Char) : Units :=
  if c.toNat < 0x10000 then [UInt16.ofNat c.toNat]
  else [UInt16.ofNat (0xd800 + (c.toNat - 0x10000) / 0x400),
    UInt16.ofNat (0xdc00 + (c.toNat - 0x10000) % 0x400)]

/-- The units of the characters of a text. -/
def encode (cs : List Char) : Units := cs.flatMap encodeChar

/-- The units of a literal. -/
def text (s : String) : Units := encode s.toList

/-- The first half of a surrogate pair. -/
def isHigh (u : UInt16) : Bool := 0xd800 ≤ u && u ≤ 0xdbff

/-- The second half of a surrogate pair. -/
def isLow (u : UInt16) : Bool := 0xdc00 ≤ u && u ≤ 0xdfff

/-- A unit of ASCII text. -/
def unit (c : Char) : UInt16 := UInt16.ofNat c.toNat

/-! ## Texts and their units -/

section

variable {p : UInt16 → Bool} {q : Char → Bool} {cs : List Char}

theorem encode_cons (c : Char) (cs : List Char) : encode (c :: cs) = encodeChar c ++ encode cs :=
  List.flatMap_cons

theorem encode_append (cs ds : List Char) : encode (cs ++ ds) = encode cs ++ encode ds :=
  List.flatMap_append

/-- Every character has a unit. -/
theorem encodeChar_ne_nil (c : Char) : encodeChar c ≠ [] := by
  unfold encodeChar
  split
  · exact List.cons_ne_nil _ _
  · exact List.cons_ne_nil _ _

/-- A test of units that says of each unit of a character what the other says of the
character. -/
def Agrees (p : UInt16 → Bool) (q : Char → Bool) : Prop := ∀ c, ∀ u ∈ encodeChar c, p u = q c

/-- The halves of a pair are surrogates, so a test that holds of none sees single units only. -/
theorem Agrees.of_single (hsingle : ∀ c : Char, c.toNat < 0x10000 → p (unit c) = q c)
    (hpair : ∀ u, isHigh u = true ∨ isLow u = true → p u = false)
    (hbeyond : ∀ c : Char, 0x10000 ≤ c.toNat → q c = false) : Agrees p q := by
  intro c u hu
  unfold encodeChar at hu
  split at hu
  · rename_i hc
    rw [List.mem_singleton.1 hu]
    exact hsingle c hc
  · rename_i hc
    rw [hbeyond c (not_lt.1 hc)]
    have hmax : c.toNat < 0x110000 := by
      rcases c.valid with h | ⟨-, h⟩
      · exact h.trans (by decide)
      · exact h
    refine hpair u ?_
    rcases List.mem_pair.1 hu with rfl | rfl
    · left
      simp only [isHigh, Bool.and_eq_true, decide_eq_true_eq, UInt16.le_iff_toNat_le,
        UInt16.toNat_ofNat', UInt16.reduceToNat]
      omega
    · right
      simp only [isLow, Bool.and_eq_true, decide_eq_true_eq, UInt16.le_iff_toNat_le,
        UInt16.toNat_ofNat', UInt16.reduceToNat]
      omega

theorem Agrees.not (h : Agrees p q) : Agrees (fun u => !p u) (fun c => !q c) :=
  fun c u hu => congrArg (!·) (h c u hu)

/-- A character is tested by its first unit. -/
theorem Agrees.cons (h : Agrees p q) (c : Char) :
    ∃ u us, encodeChar c = u :: us ∧ p u = q c := by
  obtain ⟨u, us, hus⟩ := List.exists_cons_of_ne_nil (encodeChar_ne_nil c)
  exact ⟨u, us, hus, h c u (hus ▸ List.mem_cons_self)⟩

theorem mem_encode {u : UInt16} : u ∈ encode cs ↔ ∃ c ∈ cs, u ∈ encodeChar c := List.mem_flatMap

/-- All units pass where all characters do. -/
theorem forall_mem_encode (h : Agrees p q) {b : Bool} (hcs : ∀ c ∈ cs, q c = b) :
    ∀ u ∈ encode cs, p u = b := by
  intro u hu
  obtain ⟨c, hc, hu⟩ := mem_encode.1 hu
  rw [h c u hu]
  exact hcs c hc

theorem all_encode (h : Agrees p q) (cs : List Char) : (encode cs).all p = cs.all q := by
  induction cs with
  | nil => rfl
  | cons c cs ih =>
      obtain ⟨u, us, hus, hu⟩ := h.cons c
      rw [encode_cons, List.all_append, ih, List.all_cons]
      refine congrArg (· && cs.all q) (Bool.eq_iff_iff.2 ?_)
      rw [List.all_eq_true]
      constructor
      · intro hall
        rw [← hu]
        exact hall u (hus ▸ List.mem_cons_self)
      · intro hc v hv
        rw [h c v hv, hc]

/-- Only whole characters are taken away. -/
theorem filter_encode (h : Agrees p q) (cs : List Char) :
    (encode cs).filter p = encode (cs.filter q) := by
  induction cs with
  | nil => rfl
  | cons c cs ih =>
      rw [encode_cons, List.filter_append, ih]
      cases hc : q c with
      | true =>
          rw [List.filter_cons_of_pos hc, encode_cons,
            List.filter_eq_self.2 fun u hu => (h c u hu).trans hc]
      | false =>
          rw [List.filter_cons_of_neg (Bool.eq_false_iff.1 hc),
            List.filter_eq_nil_iff.2 fun u hu => Bool.eq_false_iff.1 ((h c u hu).trans hc),
            List.nil_append]

/-- What is dropped at the start is whole characters. -/
theorem dropWhile_encode (h : Agrees p q) (cs : List Char) :
    (encode cs).dropWhile p = encode (cs.dropWhile q) := by
  induction cs with
  | nil => rfl
  | cons c cs ih =>
      rw [encode_cons]
      cases hc : q c with
      | true =>
          rw [List.dropWhile_append_of_pos fun u hu => (h c u hu).trans hc, ih,
            List.dropWhile_cons_of_pos hc]
      | false =>
          obtain ⟨u, us, hus, hu⟩ := h.cons c
          rw [List.dropWhile_cons_of_neg (Bool.eq_false_iff.1 hc), encode_cons, hus,
            List.cons_append, List.dropWhile_cons_of_neg (Bool.eq_false_iff.1 (hu.trans hc))]

theorem rdropWhile_encode (h : Agrees p q) (cs : List Char) :
    (encode cs).rdropWhile p = encode (cs.rdropWhile q) := by
  induction cs using List.reverseRecOn with
  | nil => rfl
  | append_singleton cs c ih =>
      have hlast : encode (cs ++ [c]) = encode cs ++ encodeChar c := by
        rw [encode_append, encode_cons]
        exact congrArg (encode cs ++ ·) (List.append_nil _)
      cases hc : q c with
      | true =>
          have hrev : ∀ u ∈ (encodeChar c).reverse, p u = true :=
            fun u hu => (h c u (List.mem_reverse.1 hu)).trans hc
          rw [List.rdropWhile_concat_pos _ _ _ hc, ← ih, hlast, List.rdropWhile,
            List.reverse_append, List.dropWhile_append_of_pos hrev]
          rfl
      | false =>
          rw [List.rdropWhile_concat_neg _ _ _ (Bool.eq_false_iff.1 hc), hlast,
            List.rdropWhile_eq_self_iff]
          intro hne
          rw [List.getLast_append_of_ne_nil _ (encodeChar_ne_nil c),
            h c _ (List.getLast_mem (encodeChar_ne_nil c)), hc]
          exact Bool.false_ne_true

theorem isEmpty_encode (cs : List Char) : (encode cs).isEmpty = cs.isEmpty := by
  cases cs with
  | nil => rfl
  | cons c cs =>
      rw [encode_cons]
      exact List.isEmpty_eq_false_iff.2 (List.append_ne_nil_of_left_ne_nil (encodeChar_ne_nil c) _)

end

end Utf16
