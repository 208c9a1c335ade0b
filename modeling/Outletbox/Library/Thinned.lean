import Outletbox.Library.Table

/-!
# Tables that lack some rows

A table is *thinned* when some rows of it are gone, and all of these satisfy a
condition.  Statements that keep the condition keep two tables in this relation,
and a query that never selects a row with the condition answers the same on
both.
-/

namespace Table

variable {α κ : Type*}

/-- The second table is the first one without some rows, all of which satisfy `p`. -/
inductive Thinned (p : α → Prop) : List α → List α → Prop
  | nil : Thinned p [] []
  | keep {r : α} {t t' : List α} : Thinned p t t' → Thinned p (r :: t) (r :: t')
  | drop {r : α} {t t' : List α} : p r → Thinned p t t' → Thinned p (r :: t) t'

namespace Thinned

variable {p : α → Prop} {t t' u : List α}

theorem refl (p : α → Prop) (t : List α) : Thinned p t t := by
  induction t with
  | nil => exact .nil
  | cons r t ih => exact .keep ih

theorem sublist (h : Thinned p t t') : t'.Sublist t := by
  induction h with
  | nil => exact .slnil
  | keep _ ih => exact .cons_cons _ ih
  | drop _ _ ih => exact .cons _ ih

/-! ## Statements -/

/-- A deletion thins a table. -/
theorem of_delete {q : α → Bool} (h : ∀ r ∈ t, q r = true → p r) : Thinned p t (delete q t) := by
  induction t with
  | nil => exact .nil
  | cons r t ih =>
      have ih := ih fun x hx => h x (List.mem_cons_of_mem _ hx)
      cases hq : q r with
      | true =>
          rw [delete, List.filter_cons_of_neg (by simp [hq])]
          exact .drop (h r (List.mem_cons_self ..) hq) ih
      | false =>
          rw [delete, List.filter_cons_of_pos (by simp [hq])]
          exact .keep ih

theorem update (h : Thinned p t t') (q : α → Bool) {f : α → α} (hf : ∀ r, p r → p (f r)) :
    Thinned p (Table.update q f t) (Table.update q f t') := by
  induction h with
  | nil => exact .nil
  | keep _ ih => exact .keep ih
  | @drop r t t' hr _ ih =>
      have hkept : p (if q r then f r else r) := by
        split
        · exact hf r hr
        · exact hr
      exact .drop hkept ih

theorem delete (h : Thinned p t t') (q : α → Bool) :
    Thinned p (Table.delete q t) (Table.delete q t') := by
  induction h with
  | nil => exact .nil
  | @keep r t t' _ ih =>
      cases hq : q r with
      | true => simpa [Table.delete, List.filter_cons, hq] using ih
      | false => simpa [Table.delete, List.filter_cons, hq] using ih.keep
  | @drop r t t' hr _ ih =>
      cases hq : q r with
      | true => simpa [Table.delete, List.filter_cons, hq] using ih
      | false => simpa [Table.delete, List.filter_cons, hq] using ih.drop hr

theorem append (h : Thinned p t t') (u : List α) : Thinned p (t ++ u) (t' ++ u) := by
  induction h with
  | nil => exact refl p u
  | keep _ ih => exact ih.keep
  | drop hr _ ih => exact ih.drop hr

/-! ## Queries -/

/-- A query that selects none of the rows that may be gone. -/
theorem filter_eq (h : Thinned p t t') {q : α → Bool} (hq : ∀ r, p r → q r = false) :
    t'.filter q = t.filter q := by
  induction h with
  | nil => rfl
  | keep _ ih => rw [List.filter_cons, List.filter_cons, ih]
  | drop hr _ ih => rw [ih, List.filter_cons_of_neg (by simp [hq _ hr])]

theorem countP_eq (h : Thinned p t t') {q : α → Bool} (hq : ∀ r, p r → q r = false) :
    t'.countP q = t.countP q := by
  rw [List.countP_eq_length_filter, List.countP_eq_length_filter, h.filter_eq hq]

/-- What no row of the full table has, no row of the thinned one has. -/
theorem any_eq_false (h : Thinned p t t') {q : α → Bool} (hq : t.any q = false) :
    t'.any q = false := by
  rw [List.any_eq_false] at hq ⊢
  exact fun r hr => hq r (h.sublist.subset hr)

/-- A row that is looked up by its key is the same one, or it is gone. -/
theorem find?_key [DecidableEq κ] {key : α → κ} (h : Thinned p t t') (hn : (t.map key).Nodup)
    (k : κ) :
    t'.find? (fun r => key r == k) = t.find? (fun r => key r == k) ∨
      ∃ r, t.find? (fun r => key r == k) = some r ∧ p r ∧
        t'.find? (fun r => key r == k) = none := by
  induction h with
  | nil => exact .inl rfl
  | @keep r t t' _ ih =>
      rw [List.map_cons, List.nodup_cons] at hn
      by_cases hk : key r = k
      · rw [List.find?_cons_of_pos (by simpa using hk), List.find?_cons_of_pos (by simpa using hk)]
        exact .inl rfl
      · rw [List.find?_cons_of_neg (by simpa using hk), List.find?_cons_of_neg (by simpa using hk)]
        exact ih hn.2
  | @drop r t t' hr hrest ih =>
      rw [List.map_cons, List.nodup_cons] at hn
      by_cases hk : key r = k
      · refine .inr ⟨r, List.find?_cons_of_pos (by simpa using hk), hr, ?_⟩
        refine List.find?_eq_none.2 fun x hx hkx => hn.1 ?_
        rw [hk, ← beq_iff_eq.1 hkx]
        exact List.mem_map_of_mem (hrest.sublist.subset hx)
      · rw [List.find?_cons_of_neg (l := t) (by simpa using hk)]
        exact ih hn.2

end Thinned

end Table
