import Outletbox.Library.Table

/-!
# Constraints on single rows

`Check p t` says that every row of `t` passes `p`, as a `CHECK` of SQL does.
`AtMost n col t` bounds how many rows share a value of a column.
-/

namespace Table

variable {α κ : Type*}

/-- `CHECK (p)`. -/
def Check (p : α → Prop) (t : List α) : Prop := ∀ r ∈ t, p r

namespace Check

variable {p : α → Prop} {t t' : List α}

theorem nil (p : α → Prop) : Check p [] := List.forall_mem_nil _

/-- An update of rows that pass, into rows that pass. -/
theorem update {q : α → Bool} {f : α → α} (h : Check p t)
    (hf : ∀ r, q r = true → p r → p (f r)) : Check p (Table.update q f t) := by
  intro r hr
  obtain ⟨r₀, hr₀, rfl⟩ := mem_update.1 hr
  split
  · rename_i hq
    exact hf r₀ hq (h r₀ hr₀)
  · exact h r₀ hr₀

theorem delete {q : α → Bool} (h : Check p t) : Check p (Table.delete q t) :=
  fun r hr => h r (mem_delete.1 hr).1

theorem append (h : Check p t) (h' : Check p t') : Check p (t ++ t') :=
  List.forall_mem_append.2 ⟨h, h'⟩

theorem append_row {r : α} (h : Check p t) (hr : p r) : Check p (t ++ [r]) :=
  h.append (List.forall_mem_singleton.2 hr)

end Check

variable [DecidableEq κ]

/-- No value of the column stands in more than `n` rows. -/
def AtMost (n : Nat) (col : α → κ) (t : List α) : Prop :=
  ∀ k, t.countP (fun r => col r == k) ≤ n

namespace AtMost

variable {n : Nat} {col : α → κ} {t t' : List α}

theorem nil (n : Nat) (col : α → κ) : AtMost n col [] := fun _ => Nat.zero_le n

theorem update {q : α → Bool} {f : α → α} (h : AtMost n col t) (hf : ∀ r, col (f r) = col r) :
    AtMost n col (Table.update q f t) := by
  intro k
  rw [countP_update fun r => by rw [hf]]
  exact h k

theorem delete {q : α → Bool} (h : AtMost n col t) : AtMost n col (Table.delete q t) :=
  fun k => (List.Sublist.countP_le List.filter_sublist).trans (h k)

/-- A row for which there was room. -/
theorem append_row {r : α} (h : AtMost n col t)
    (hroom : t.countP (fun x => col x == col r) < n) : AtMost n col (t ++ [r]) := by
  intro k
  rw [List.countP_append, List.countP_singleton]
  by_cases hk : col r = k
  · subst hk
    rw [if_pos (beq_self_eq_true _)]
    exact hroom
  · rw [if_neg (by simpa using hk)]
    exact h k

/-- The rows of one value are replaced by no more than `n` others. -/
theorem replace {k : κ} {rows : List α} (h : AtMost n col t) (hrows : ∀ r ∈ rows, col r = k)
    (hn : rows.length ≤ n) :
    AtMost n col (Table.delete (fun r => col r == k) t ++ rows) := by
  intro k'
  rw [List.countP_append]
  by_cases hk : k' = k
  · subst hk
    have hgone : (Table.delete (fun r => col r == k') t).countP (fun r => col r == k') = 0 := by
      refine List.countP_eq_zero.2 fun r hr => ?_
      rw [(mem_delete.1 hr).2]
      exact Bool.false_ne_true
    rw [hgone, Nat.zero_add]
    exact List.countP_le_length.trans hn
  · have hnone : rows.countP (fun r => col r == k') = 0 := by
      refine List.countP_eq_zero.2 fun r hr => ?_
      rw [hrows r hr, beq_iff_eq]
      exact Ne.symm hk
    rw [hnone, Nat.add_zero]
    exact h.delete k'

end AtMost

end Table
