import Mathlib

/-!
# Digits of one width written as digits of another

A stream of digits is written as digits of another width by a loop that keeps
the bits it has read and not yet written in the low end of a machine word.
Nothing clears the word: bits that were written stay above the pending ones
until shifts push them out at the top.  So only the low bits of the word are
ever looked at, as a list.

`Groups w bs ds rest` says that the bits `bs` are cut into the digits `ds` of
`w` bits, and `rest`, too short for another one.  There is one such cut.
-/

namespace Regroup

/-- The low `w` bits of a number, most significant first. -/
def bits : Nat → Nat → List Bool
  | 0, _ => []
  | w + 1, n => n.testBit w :: bits w n

/-- The bits of digits of `w` bits. -/
def bitsOf (w : Nat) (ds : List Nat) : List Bool := ds.flatMap (bits w)

section

variable {w k n m d : Nat} {ds es : List Nat} {bs cs rest rest' : List Bool}

@[simp] theorem length_bits (w n : Nat) : (bits w n).length = w := by
  induction w with
  | zero => rfl
  | succ w ih => simp [bits, ih]

@[simp] theorem bitsOf_nil (w : Nat) : bitsOf w [] = [] := rfl

@[simp] theorem bitsOf_cons (w d : Nat) (ds : List Nat) :
    bitsOf w (d :: ds) = bits w d ++ bitsOf w ds := rfl

@[simp] theorem bitsOf_append (w : Nat) (ds es : List Nat) :
    bitsOf w (ds ++ es) = bitsOf w ds ++ bitsOf w es := by
  simp [bitsOf]

@[simp] theorem length_bitsOf (w : Nat) (ds : List Nat) :
    (bitsOf w ds).length = w * ds.length := by
  induction ds with
  | nil => rfl
  | cons d ds ih =>
      rw [bitsOf_cons, List.length_append, length_bits, ih, List.length_cons, Nat.mul_succ,
        Nat.add_comm]

/-- Higher bits do not count. -/
theorem bits_congr (h : ∀ i < w, n.testBit i = m.testBit i) : bits w n = bits w m := by
  induction w with
  | zero => rfl
  | succ w ih =>
      rw [bits, bits, h w (Nat.lt_succ_self w), ih fun i hi => h i (Nat.lt_succ_of_lt hi)]

theorem testBit_of_bits_eq (h : bits w n = bits w m) : ∀ i < w, n.testBit i = m.testBit i := by
  induction w with
  | zero => exact fun i hi => absurd hi (Nat.not_lt_zero i)
  | succ w ih =>
      obtain ⟨htop, hlow⟩ := List.cons.inj h
      intro i hi
      obtain hi | rfl := Nat.lt_succ_iff_lt_or_eq.1 hi
      · exact ih hlow i hi
      · exact htop

theorem bits_eq_of_le (h : bits w n = bits w m) (hk : k ≤ w) : bits k n = bits k m :=
  bits_congr fun i hi => testBit_of_bits_eq h i (hi.trans_le hk)

/-- A digit is determined by its bits. -/
theorem bits_inj (h : bits w n = bits w m) (hn : n < 2 ^ w) (hm : m < 2 ^ w) : n = m := by
  refine Nat.eq_of_testBit_eq fun i => ?_
  obtain hi | hi := Nat.lt_or_ge i w
  · exact testBit_of_bits_eq h i hi
  · have hpow := Nat.pow_le_pow_right Nat.two_pos hi
    rw [Nat.testBit_lt_two_pow (hn.trans_le hpow), Nat.testBit_lt_two_pow (hm.trans_le hpow)]

/-- The upper bits, then the lower ones. -/
theorem bits_add (w k n : Nat) : bits (w + k) n = bits w (n >>> k) ++ bits k n := by
  induction w with
  | zero => simp [bits]
  | succ w ih =>
      rw [Nat.succ_add, bits, bits, ih, Nat.testBit_shiftRight, Nat.add_comm k w]
      rfl

/-- A digit behind a number. -/
theorem bits_mul_add (n : Nat) (hd : d < 2 ^ k) :
    bits (w + k) (n * 2 ^ k + d) = bits w n ++ bits k d := by
  rw [bits_add]
  congr 1
  · rw [Nat.shiftRight_eq_div_pow, Nat.mul_comm, Nat.mul_add_div (Nat.two_pow_pos k),
      Nat.div_eq_of_lt hd, Nat.add_zero]
  · refine bits_congr fun i hi => ?_
    rw [Nat.mul_comm, Nat.testBit_two_pow_mul_add n hd, if_pos hi]

/-! ## Words -/

/-- A digit is shifted in: the pending bits move up, and the digit follows. -/
theorem bits_push {N : Nat} (v : BitVec N) (hfits : w + k ≤ N) (hd : d < 2 ^ k) :
    bits (w + k) (v <<< k ||| BitVec.ofNat N d).toNat = bits w v.toNat ++ bits k d := by
  rw [bits_add]
  congr 1
  · refine bits_congr fun i hi => ?_
    have hhigh : d.testBit (k + i) = false :=
      Nat.testBit_lt_two_pow (hd.trans_le (Nat.pow_le_pow_right Nat.two_pos (Nat.le_add_right k i)))
    rw [Nat.testBit_shiftRight, BitVec.testBit_toNat, BitVec.testBit_toNat, BitVec.getLsbD_or,
      BitVec.getLsbD_shiftLeft, BitVec.getLsbD_ofNat, hhigh]
    simp [show k + i < N by omega]
  · refine bits_congr fun i hi => ?_
    rw [BitVec.testBit_toNat, BitVec.getLsbD_or, BitVec.getLsbD_shiftLeft, BitVec.getLsbD_ofNat]
    simp [hi, show i < N by omega]

/-- A digit is read off: the upper ones of the pending bits. -/
theorem bits_take {N : Nat} (v : BitVec N) (hfits : k ≤ N) :
    bits k (v >>> w &&& BitVec.ofNat N (2 ^ k - 1)).toNat = bits k (v.toNat >>> w) := by
  refine bits_congr fun i hi => ?_
  rw [BitVec.testBit_toNat, BitVec.getLsbD_and, BitVec.getLsbD_ushiftRight, BitVec.getLsbD_ofNat,
    Nat.testBit_two_pow_sub_one, Nat.testBit_shiftRight, BitVec.testBit_toNat]
  simp [hi, show i < N by omega]

theorem take_lt {N : Nat} (v : BitVec N) (w k : Nat) :
    (v >>> w &&& BitVec.ofNat N (2 ^ k - 1)).toNat < 2 ^ k := by
  rw [BitVec.toNat_and, BitVec.toNat_ofNat]
  have hmask := Nat.mod_le (2 ^ k - 1) (2 ^ N)
  have hpos := Nat.two_pow_pos k
  exact Nat.lt_of_le_of_lt Nat.and_le_right (by omega)

/-! ## Cuts -/

/-- The bits are cut into digits, and what is too short for one. -/
structure Groups (w : Nat) (bs : List Bool) (ds : List Nat) (rest : List Bool) : Prop where
  cut : bitsOf w ds ++ rest = bs
  digits : ∀ d ∈ ds, d < 2 ^ w
  short : rest.length < w

theorem Groups.nil (h : rest.length < w) : Groups w rest [] rest := ⟨rfl, nofun, h⟩

/-- A digit comes first. -/
theorem Groups.cons (h : Groups w bs ds rest) (hd : d < 2 ^ w) :
    Groups w (bits w d ++ bs) (d :: ds) rest :=
  ⟨by rw [bitsOf_cons, List.append_assoc, h.cut], List.forall_mem_cons.2 ⟨hd, h.digits⟩, h.short⟩

/-- Bits are cut, and what is left is cut with the bits that follow. -/
theorem Groups.append (h : Groups w bs ds rest) (h' : Groups w (rest ++ cs) es rest') :
    Groups w (bs ++ cs) (ds ++ es) rest' :=
  ⟨by rw [bitsOf_append, List.append_assoc, h'.cut, ← List.append_assoc, h.cut],
    List.forall_mem_append.2 ⟨h.digits, h'.digits⟩, h'.short⟩

/-- There is one cut. -/
theorem Groups.unique (h : Groups w bs ds rest) (h' : Groups w bs es rest') :
    ds = es ∧ rest = rest' := by
  induction ds generalizing bs es with
  | nil =>
      cases es with
      | nil => exact ⟨rfl, h.cut.trans h'.cut.symm⟩
      | cons e es =>
          have hlength := congrArg List.length (h.cut.trans h'.cut.symm)
          have hshort := h.short
          simp only [bitsOf_nil, List.nil_append, bitsOf_cons, List.length_append,
            length_bits] at hlength
          omega
  | cons d ds ih =>
      cases es with
      | nil =>
          have hlength := congrArg List.length (h.cut.trans h'.cut.symm)
          have hshort := h'.short
          simp only [bitsOf_nil, List.nil_append, bitsOf_cons, List.length_append,
            length_bits] at hlength
          omega
      | cons e es =>
          have hcut := h.cut.trans h'.cut.symm
          rw [bitsOf_cons, bitsOf_cons, List.append_assoc, List.append_assoc] at hcut
          obtain ⟨hfirst, hlater⟩ := List.append_inj hcut (by rw [length_bits, length_bits])
          obtain ⟨hd, hds⟩ := List.forall_mem_cons.1 h.digits
          obtain ⟨he, hes⟩ := List.forall_mem_cons.1 h'.digits
          obtain ⟨rfl, hrest⟩ := ih ⟨hlater, hds, h.short⟩ ⟨rfl, hes, h'.short⟩
          exact ⟨by rw [bits_inj hfirst hd he], hrest⟩

/-- Digits of one width, padded and cut into digits of another, are found again when the
padding is too short for one of them. -/
theorem Groups.back {pad : List Bool} (hds : ∀ d ∈ ds, d < 2 ^ w) (hpad : pad.length < w)
    (h : Groups w (bitsOf w ds ++ pad) es rest) : es = ds :=
  (h.unique ⟨rfl, hds, hpad⟩).1

end

end Regroup
