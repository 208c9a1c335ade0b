import Mathlib
import Outletbox.Library.Table

/-!
# Tables read by their key

A table with a primary key is a partial function from the key to its row.  An
`INSERT` of a new key and an `UPDATE` of one key change that function in one
place, and so does every view of the rows that is computed from them.
-/

namespace Table

variable {α β κ : Type*} [DecidableEq κ] {key : α → κ} {t : List α}

/-- What is shown of the row with a key. -/
def lookup (key : α → κ) (g : α → β) (t : List α) (k : κ) : Option β :=
  (t.find? fun r => key r == k).map g

/-- `INSERT` of a row with a new key. -/
theorem lookup_append_row (g : α → β) {r : α} (hnew : ∀ x ∈ t, key x ≠ key r) :
    lookup key g (t ++ [r]) = Function.update (lookup key g t) (key r) (some (g r)) := by
  funext k
  by_cases hk : k = key r
  · subst hk
    have hnone : t.find? (fun x => key x == key r) = none := by
      rw [List.find?_eq_none]
      intro x hx
      simpa using hnew x hx
    rw [Function.update_self, lookup, List.find?_append, hnone, Option.none_or,
      List.find?_cons_of_pos (by simp), Option.map_some]
  · rw [Function.update_of_ne hk, lookup, lookup, List.find?_append]
    congr 1
    rw [List.find?_cons_of_neg (by simpa using Ne.symm hk), List.find?_nil, Option.or_none]

/-- `UPDATE .. WHERE key = k AND p`, when what is shown of the row with the key becomes `v`. -/
theorem lookup_update (g : α → β) {p : α → Bool} {f : α → α} (hf : ∀ r, key (f r) = key r)
    (k : κ) :
    lookup key g (update (fun r => key r == k && p r) f t) =
      Function.update (lookup key g t) k
        ((t.find? fun r => key r == k).map fun r => g (if p r then f r else r)) := by
  funext x
  rw [lookup, find?_update fun r => by rw [hf], Option.map_map]
  by_cases hx : x = k
  · subst hx
    rw [Function.update_self]
    cases hrow : t.find? fun r => key r == x with
    | none => rfl
    | some r =>
        have hkey : key r == x := List.find?_some (p := fun r => key r == x) hrow
        simp only [Option.map_some, Function.comp_apply, hkey, Bool.true_and]
  · rw [Function.update_of_ne hx, lookup]
    cases hrow : t.find? fun r => key r == x with
    | none => rfl
    | some r =>
        have hkey := List.find?_some (p := fun r => key r == x) hrow
        have hne : (key r == k) = false := by
          rw [beq_iff_eq.1 hkey]
          simpa using hx
        simp only [Option.map_some, Function.comp_apply, hne, Bool.false_and, Bool.false_eq_true,
          if_false]

/-- `UPDATE .. WHERE key = k`. -/
theorem lookup_update_row (g : α → β) {f : α → α} (hf : ∀ r, key (f r) = key r) (k : κ) :
    lookup key g (update (fun r => key r == k) f t) =
      Function.update (lookup key g t) k (lookup key (fun r => g (f r)) t k) := by
  have h := lookup_update (t := t) g (p := fun _ => true) hf k
  simp only [Bool.and_true, if_true] at h
  exact h

/-- An `UPDATE` of columns that are not shown. -/
theorem lookup_update_hidden (g : α → β) {p : α → Bool} {f : α → α}
    (hf : ∀ r, key (f r) = key r) (hg : ∀ r, g (f r) = g r) :
    lookup key g (update p f t) = lookup key g t := by
  funext x
  rw [lookup, lookup, find?_update fun r => by rw [hf], Option.map_map]
  congr 1
  funext r
  rw [Function.comp_apply]
  split
  · exact hg r
  · rfl

theorem lookup_of_mem (g : α → β) (hkeys : (t.map key).Nodup) {r : α} (hr : r ∈ t) :
    lookup key g t (key r) = some (g r) := by
  rw [lookup, find?_of_mem hkeys hr, Option.map_some]

end Table
