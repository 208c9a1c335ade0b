import Outletbox.Library.Table

/-!
# Foreign keys between tables

`References col t key u` says that what the column `col` of `t` names is a `key`
of `u`, or that it is null.  There is one rule for each kind of statement on
either table: an update, an insertion, a deletion, and a deletion that takes the
rows that point at what it deletes with it.
-/

namespace Table

variable {α β κ : Type*}

/-- `REFERENCES u(key)`, on a column that may be null. -/
def References (col : α → Option κ) (t : List α) (key : β → κ) (u : List β) : Prop :=
  ∀ r ∈ t, ∀ k, col r = some k → ∃ x ∈ u, key x = k

namespace References

variable {col : α → Option κ} {key : β → κ} {t t' : List α} {u u' : List β}

theorem nil (col : α → Option κ) (key : β → κ) (u : List β) : References col [] key u := by
  intro r hr
  cases hr

/-! ## Statements on the table that points -/

/-- No row points at anything new. -/
theorem mono (h : References col t key u)
    (ht : ∀ r ∈ t', ∀ k, col r = some k → ∃ r₀ ∈ t, col r₀ = some k) :
    References col t' key u := by
  intro r hr k hk
  obtain ⟨r₀, hr₀, hk₀⟩ := ht r hr k hk
  exact h r₀ hr₀ k hk₀

/-- An update that keeps the column or clears it. -/
theorem update {p : α → Bool} {f : α → α} (h : References col t key u)
    (hf : ∀ r k, col (f r) = some k → col r = some k) :
    References col (Table.update p f t) key u := by
  refine h.mono fun r hr k hk => ?_
  obtain ⟨r₀, hr₀, rfl⟩ := mem_update.1 hr
  refine ⟨r₀, hr₀, ?_⟩
  split at hk
  · exact hf r₀ k hk
  · exact hk

theorem delete {p : α → Bool} (h : References col t key u) :
    References col (Table.delete p t) key u :=
  h.mono fun r hr _ hk => ⟨r, (mem_delete.1 hr).1, hk⟩

theorem append (h : References col t key u) (h' : References col t' key u) :
    References col (t ++ t') key u := by
  intro r hr
  rcases List.mem_append.1 hr with hr | hr
  · exact h r hr
  · exact h' r hr

/-- A new row, whose reference was looked up. -/
theorem row {r : α} (hr : ∀ k, col r = some k → ∃ x ∈ u, key x = k) :
    References col [r] key u := by
  intro r' hr'
  rw [List.mem_singleton.1 hr']
  exact hr

theorem append_row {r : α} (h : References col t key u)
    (hr : ∀ k, col r = some k → ∃ x ∈ u, key x = k) : References col (t ++ [r]) key u :=
  h.append (row hr)

/-! ## Statements on the table that is pointed at -/

/-- No key is lost. -/
theorem mono_target (h : References col t key u) (hu : ∀ x ∈ u, ∃ x' ∈ u', key x' = key x) :
    References col t key u' := by
  intro r hr k hk
  obtain ⟨x, hx, rfl⟩ := h r hr k hk
  exact hu x hx

theorem update_target {p : β → Bool} {f : β → β} (h : References col t key u)
    (hf : ∀ x, key (f x) = key x) : References col t key (Table.update p f u) := by
  refine h.mono_target fun x hx => ⟨_, mem_update.2 ⟨x, hx, rfl⟩, ?_⟩
  split
  · exact hf x
  · rfl

theorem append_target (h : References col t key u) : References col t key (u ++ u') :=
  h.mono_target fun x hx => ⟨x, List.mem_append_left u' hx, rfl⟩

/-- A deletion of rows nothing points at. -/
theorem delete_target {p : β → Bool} (h : References col t key u)
    (hp : ∀ r ∈ t, ∀ x ∈ u, col r = some (key x) → p x = false) :
    References col t key (Table.delete p u) := by
  intro r hr k hk
  obtain ⟨x, hx, rfl⟩ := h r hr k hk
  exact ⟨x, mem_delete.2 ⟨hx, hp r hr x hx hk⟩, rfl⟩

/-- `ON DELETE CASCADE`: what points at a deleted row goes with it. -/
theorem cascade {p : β → Bool} {q : α → Bool} (h : References col t key u)
    (hq : ∀ r ∈ t, ∀ x ∈ u, col r = some (key x) → p x = true → q r = true) :
    References col (Table.delete q t) key (Table.delete p u) := by
  refine h.delete.delete_target fun r hr x hx hk => ?_
  obtain ⟨hr, hkept⟩ := mem_delete.1 hr
  by_contra hp
  exact Bool.false_ne_true (hkept.symm.trans (hq r hr x hx hk (Bool.eq_true_of_not_eq_false hp)))

/-- `ON DELETE SET NULL`: what points at a deleted row points nowhere. -/
theorem setNull {p : β → Bool} {q : α → Bool} {f : α → α} (h : References col t key u)
    (hf : ∀ r, col (f r) = none)
    (hq : ∀ r ∈ t, ∀ x ∈ u, col r = some (key x) → p x = true → q r = true) :
    References col (Table.update q f t) key (Table.delete p u) := by
  intro r hr k hk
  obtain ⟨r₀, hr₀, rfl⟩ := mem_update.1 hr
  split at hk
  · rw [hf] at hk
    cases hk
  · rename_i hkept
    obtain ⟨x, hx, rfl⟩ := h r₀ hr₀ k hk
    refine ⟨x, mem_delete.2 ⟨hx, ?_⟩, rfl⟩
    by_contra hp
    exact hkept (hq r₀ hr₀ x hx hk (Bool.eq_true_of_not_eq_false hp))

end References

end Table
