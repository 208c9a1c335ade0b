import Mathlib

/-!
# Numerals of a fixed width

Numerals with leading zeros order as texts like the numbers they write.  So does
a text made of such numerals, with the most significant first.
-/

namespace Numerals

/-- The last decimal digit of a number. -/
def digit (n : Nat) : Char := Char.ofNat (48 + n % 10)

/-- The last `w` decimal digits of a number. -/
def pad : Nat → Nat → List Char
  | 0, _ => []
  | w + 1, n => digit (n / 10 ^ w) :: pad w n

theorem digit_toNat (n : Nat) : (digit n).toNat = 48 + n % 10 := by
  have hlt : n % 10 < 10 := Nat.mod_lt _ (by decide)
  rw [digit, Char.toNat_ofNat, if_pos (.inl (by omega))]

theorem digit_lt {m n : Nat} (h : m % 10 < n % 10) : digit m < digit n := by
  have hlt : (digit m).toNat < (digit n).toNat := by
    rw [digit_toNat, digit_toNat]
    omega
  exact hlt

theorem digit_congr {m n : Nat} (h : m % 10 = n % 10) : digit m = digit n := by
  rw [digit, digit, h]

theorem length_pad (w n : Nat) : (pad w n).length = w := by
  induction w with
  | zero => rfl
  | succ w ih => rw [pad, List.length_cons, ih]

theorem pad_lt {w m n : Nat} (h : m % 10 ^ w < n % 10 ^ w) : pad w m < pad w n := by
  induction w with
  | zero => simp [Nat.mod_one] at h
  | succ w ih =>
      rw [Nat.mod_pow_succ, Nat.mod_pow_succ] at h
      have hm : m % 10 ^ w < 10 ^ w := Nat.mod_lt _ (by positivity)
      have hn : n % 10 ^ w < 10 ^ w := Nat.mod_lt _ (by positivity)
      rcases lt_trichotomy (m / 10 ^ w % 10) (n / 10 ^ w % 10) with hlt | heq | hgt
      · exact List.cons_lt_cons_iff.2 (.inl (digit_lt hlt))
      · rw [heq] at h
        exact List.cons_lt_cons_iff.2 (.inr ⟨digit_congr heq, ih (by omega)⟩)
      · have hmul : 10 ^ w * (n / 10 ^ w % 10) + 10 ^ w ≤ 10 ^ w * (m / 10 ^ w % 10) := by
          rw [← Nat.mul_succ]
          exact Nat.mul_le_mul_left _ hgt
        omega

/-- The numerals of numbers that fit the width order like the numbers. -/
theorem pad_lt_pad {w m n : Nat} (h : m < n) (hn : n < 10 ^ w) : pad w m < pad w n := by
  refine pad_lt ?_
  rwa [Nat.mod_eq_of_lt (h.trans hn), Nat.mod_eq_of_lt hn]

/-- What follows two different texts of one length does not decide their order. -/
theorem append_lt_append {α : Type*} [LinearOrder α] {xs ys : List α}
    (hlength : xs.length = ys.length) (h : xs < ys) (as bs : List α) : xs ++ as < ys ++ bs := by
  induction xs generalizing ys with
  | nil =>
      cases ys with
      | nil => exact absurd h (lt_irrefl _)
      | cons y ys => cases hlength
  | cons x xs ih =>
      cases ys with
      | nil => cases hlength
      | cons y ys =>
          rw [List.cons_append, List.cons_append]
          rcases List.cons_lt_cons_iff.1 h with hxy | ⟨rfl, hrest⟩
          · exact List.cons_lt_cons_iff.2 (.inl hxy)
          · exact List.cons_lt_cons_iff.2 (.inr ⟨rfl, ih (Nat.succ.inj hlength) hrest⟩)

/-- Two texts that start with the numerals of two numbers. -/
theorem pad_append_lt {w m n : Nat} {as bs : List Char} (h : m < n ∨ m = n ∧ as < bs)
    (hn : n < 10 ^ w) : pad w m ++ as < pad w n ++ bs := by
  rcases h with hlt | ⟨rfl, hrest⟩
  · exact append_lt_append (by rw [length_pad, length_pad]) (pad_lt_pad hlt hn) as bs
  · exact List.append_left_lt hrest

theorem cons_lt {α : Type*} [LinearOrder α] {x : α} {as bs : List α} (h : as < bs) :
    x :: as < x :: bs :=
  List.cons_lt_cons_iff.2 (.inr ⟨rfl, h⟩)

/-- A text that starts with a sign sorts before one that starts with a numeral. -/
theorem cons_lt_pad_append {c : Char} (hc : c < '0') (as : List Char) (w n : Nat)
    (bs : List Char) : c :: as < pad (w + 1) n ++ bs := by
  have hdigit : '0' ≤ digit (n / 10 ^ w) := by
    have hle : ('0' : Char).toNat ≤ (digit (n / 10 ^ w)).toNat := by
      rw [digit_toNat]
      exact Nat.le_add_right _ _
    exact hle
  exact List.cons_lt_cons_iff.2 (.inl (hc.trans_le hdigit))

end Numerals
