import Outletbox.Library.Fallible

/-!
# What a computation may throw

`Throws E x` says of a computation in `Except` that every error it throws satisfies
`E`.  The rules follow the shape of a `do` block: a value, an error, a sequence, a
check.
-/

namespace Fallible

universe u v

variable {ε : Type u} {α β : Type v} {E E' : ε → Prop}

/-- Every error thrown satisfies `E`. -/
def Throws (E : ε → Prop) (x : Except ε α) : Prop := ∀ e, x = .error e → E e

namespace Throws

theorem ok (a : α) : Throws E (.ok a : Except ε α) := by
  intro e h
  cases h

theorem error {e : ε} (he : E e) : Throws E (.error e : Except ε α) := by
  intro e' h
  cases h
  exact he

/-- A sequence throws what its parts throw. -/
theorem bind {x : Except ε α} {f : α → Except ε β} (hx : Throws E x)
    (hf : ∀ a, x = .ok a → Throws E (f a)) : Throws E (x >>= f) := by
  cases x with
  | error e => exact error (hx e rfl)
  | ok a => exact hf a rfl

/-- A check throws its own error, or what comes after it. -/
theorem guard {c : Prop} [Decidable c] {e : ε} {x : Except ε α} (he : c → E e)
    (hx : ¬ c → Throws E x) : Throws E (if c then .error e else x) := by
  by_cases hc : c
  · rw [if_pos hc]
    exact error (he hc)
  · rw [if_neg hc]
    exact hx hc

theorem mono {x : Except ε α} (hx : Throws E x) (h : ∀ e, E e → E' e) : Throws E' x :=
  fun e he => h e (hx e he)

end Throws

end Fallible
