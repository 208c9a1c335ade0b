import Mathlib

/-!
# Tables as lists

A table is the list of its rows in insertion order.  `update` and `delete` are
`UPDATE .. SET .. WHERE` and `DELETE FROM .. WHERE`, and `latest` is
`SELECT .. ORDER BY .. DESC LIMIT 1`, where of equal rows the one inserted last
is taken.

The lemmas say which rows a statement leaves behind, that a statement whose
condition holds of no row changes nothing, and how statements on disjoint sets
of rows commute.
-/

namespace Table

variable {α β κ : Type*}

/-- `UPDATE t SET f WHERE p`. -/
def update (p : α → Bool) (f : α → α) (t : List α) : List α :=
  t.map fun r => if p r then f r else r

/-- `DELETE FROM t WHERE p`. -/
def delete (p : α → Bool) (t : List α) : List α :=
  t.filter fun r => !p r

/-- `SELECT * FROM t ORDER BY key DESC LIMIT 1`. -/
def latest [LinearOrder κ] (key : α → κ) (t : List α) : Option α :=
  t.reverse.argmax key

/-! ## Which rows are left -/

theorem mem_update {p : α → Bool} {f : α → α} {t : List α} {r : α} :
    r ∈ update p f t ↔ ∃ r₀ ∈ t, (if p r₀ then f r₀ else r₀) = r := by
  simp [update]

/-- A row that is not matched stays. -/
theorem mem_update_of_not {p : α → Bool} {f : α → α} {t : List α} {r : α}
    (hr : r ∈ t) (hp : p r = false) : r ∈ update p f t :=
  mem_update.2 ⟨r, hr, by simp [hp]⟩

@[simp] theorem mem_delete {p : α → Bool} {t : List α} {r : α} :
    r ∈ delete p t ↔ r ∈ t ∧ p r = false := by
  simp [delete]

/-! ## Statements that change nothing -/

theorem update_eq_self {p : α → Bool} {f : α → α} {t : List α}
    (h : ∀ r ∈ t, p r = true → f r = r) : update p f t = t := by
  refine (List.map_congr_left fun r hr => ?_).trans (List.map_id t)
  by_cases hp : p r = true
  · simp [hp, h r hr hp]
  · simp [hp]

theorem delete_eq_self {p : α → Bool} {t : List α} (h : ∀ r ∈ t, p r = false) :
    delete p t = t :=
  List.filter_eq_self.2 fun r hr => by simp [h r hr]

@[simp] theorem update_nil (p : α → Bool) (f : α → α) : update p f [] = [] := rfl

@[simp] theorem delete_nil (p : α → Bool) : delete p ([] : List α) = [] := rfl

/-! ## Columns an update leaves alone -/

/-- An update that keeps a column keeps the list of that column's values. -/
theorem map_update {p : α → Bool} {f : α → α} (g : α → β) (hg : ∀ r, g (f r) = g r)
    (t : List α) : (update p f t).map g = t.map g := by
  simp only [update, List.map_map]
  refine List.map_congr_left fun r _ => ?_
  by_cases hp : p r = true <;> simp [hp, hg]

/-- Filtering on columns an update keeps commutes with the update. -/
theorem filter_update {p q : α → Bool} {f : α → α} (hq : ∀ r, q (f r) = q r) (t : List α) :
    (update p f t).filter q = update p f (t.filter q) := by
  simp only [update, List.filter_map]
  congr 1
  refine List.filter_congr fun r _ => ?_
  by_cases hp : p r = true <;> simp [hp, hq]

/-- Counting on columns an update keeps. -/
theorem countP_update {p q : α → Bool} {f : α → α} (hq : ∀ r, q (f r) = q r) (t : List α) :
    (update p f t).countP q = t.countP q := by
  rw [List.countP_eq_length_filter, List.countP_eq_length_filter, filter_update hq, update,
    List.length_map]

/-- A deletion that spares the rows that count. -/
theorem countP_delete {p q : α → Bool} {t : List α} (h : ∀ r ∈ t, q r = true → p r = false) :
    (delete p t).countP q = t.countP q := by
  rw [delete, List.countP_filter]
  refine List.countP_congr fun r hr => ?_
  rw [Bool.and_eq_true, Bool.not_eq_true']
  exact ⟨And.left, fun hq => ⟨hq, h r hr hq⟩⟩

/-- `find?` on a column an update keeps finds the updated row. -/
theorem find?_update {p q : α → Bool} {f : α → α} (hq : ∀ r, q (f r) = q r) (t : List α) :
    (update p f t).find? q = (t.find? q).map fun r => if p r then f r else r := by
  have hcomp : (q ∘ fun r => if p r then f r else r) = q := by
    funext r
    by_cases hp : p r = true <;> simp [hp, hq]
  rw [update, List.find?_map, hcomp]

/-- A deletion that spares what `find?` looks for. -/
theorem find?_delete {p q : α → Bool} {t : List α} (h : ∀ r, q r = true → p r = false) :
    (delete p t).find? q = t.find? q := by
  rw [delete, List.find?_filter]
  congr 1
  funext r
  cases hq : q r with
  | true => simp [h r hq]
  | false => simp

/-- A deletion that spares the rows a filter takes. -/
theorem filter_delete {p q : α → Bool} {t : List α} (h : ∀ r ∈ t, q r = true → p r = false) :
    (delete p t).filter q = t.filter q := by
  rw [delete, List.filter_filter]
  refine List.filter_congr fun r hr => ?_
  cases hq : q r with
  | true => simp [h r hr hq]
  | false => simp

/-- A deletion that spares the rows a test is about. -/
theorem any_delete {p q : α → Bool} {t : List α} (h : ∀ r ∈ t, q r = true → p r = false) :
    (delete p t).any q = t.any q := by
  rw [Bool.eq_iff_iff, List.any_eq_true, List.any_eq_true]
  constructor
  · rintro ⟨r, hr, hq⟩
    exact ⟨r, (mem_delete.1 hr).1, hq⟩
  · rintro ⟨r, hr, hq⟩
    exact ⟨r, mem_delete.2 ⟨hr, h r hr hq⟩, hq⟩

/-! ## Lookup by a unique column -/

/-- With pairwise distinct keys, looking a present row up by its key finds it. -/
theorem find?_of_mem [DecidableEq κ] {key : α → κ} {t : List α} (hn : (t.map key).Nodup)
    {r : α} (hr : r ∈ t) : t.find? (fun x => key x == key r) = some r := by
  induction t with
  | nil => cases hr
  | cons x xs ih =>
      rw [List.map_cons, List.nodup_cons] at hn
      rcases List.mem_cons.1 hr with rfl | hr
      · simp
      · have hne : key x ≠ key r := fun he =>
          hn.1 (he ▸ List.mem_map_of_mem (f := key) hr)
        rw [List.find?_cons_of_neg (by simpa using hne)]
        exact ih hn.2 hr

/-- Rows with equal keys in a table with distinct keys are the same row. -/
theorem eq_of_key {key : α → κ} {t : List α} (hn : (t.map key).Nodup) {r r' : α}
    (hr : r ∈ t) (hr' : r' ∈ t) (h : key r = key r') : r = r' :=
  List.inj_on_of_nodup_map hn hr hr' h

theorem nodup_delete {key : α → κ} {p : α → Bool} {t : List α} (hn : (t.map key).Nodup) :
    ((delete p t).map key).Nodup :=
  (List.Sublist.map key List.filter_sublist).nodup hn

theorem nodup_update {key : α → κ} {p : α → Bool} {f : α → α} (hk : ∀ r, key (f r) = key r)
    {t : List α} (hn : (t.map key).Nodup) : ((update p f t).map key).Nodup := by
  rwa [map_update key hk]

/-- An update of one row, to a value of a unique column that no other row has. -/
theorem nodup_update_one [DecidableEq β] {key : α → β} {col : α → κ} {k : β} {v : κ} {f : α → α}
    {t : List α} (hkeys : (t.map key).Nodup) (hcol : (t.map col).Nodup) (hf : ∀ r, col (f r) = v)
    (hnew : ∀ r ∈ t, key r ≠ k → col r ≠ v) :
    ((update (fun r => key r == k) f t).map col).Nodup := by
  induction t with
  | nil => exact List.nodup_nil
  | cons r rs ih =>
      rw [List.map_cons, List.nodup_cons] at hkeys hcol
      have hrest := ih hkeys.2 hcol.2 fun x hx => hnew x (List.mem_cons_of_mem _ hx)
      refine List.nodup_cons.2 ⟨fun hmem => ?_, hrest⟩
      obtain ⟨_, hy, hsame⟩ := List.mem_map.1 hmem
      obtain ⟨x, hx, rfl⟩ := mem_update.1 hy
      simp only [beq_iff_eq] at hsame
      have hne : key x ≠ key r := fun h => hkeys.1 (h ▸ List.mem_map_of_mem hx)
      by_cases hr : key r = k
      · have hother : key x ≠ k := fun h => hne (h.trans hr.symm)
        rw [if_pos hr, if_neg hother, hf] at hsame
        exact hnew x (List.mem_cons_of_mem _ hx) hother hsame
      · rw [if_neg hr] at hsame
        by_cases hxk : key x = k
        · rw [if_pos hxk, hf] at hsame
          exact hnew r (List.mem_cons_self ..) hr hsame.symm
        · rw [if_neg hxk] at hsame
          exact hcol.1 (hsame ▸ List.mem_map_of_mem hx)

theorem nodup_append_row {key : α → κ} {r : α} {t : List α} (hn : (t.map key).Nodup)
    (hf : ∀ x ∈ t, key x ≠ key r) : ((t ++ [r]).map key).Nodup := by
  rw [List.map_append, List.nodup_append]
  refine ⟨hn, by simp, ?_⟩
  intro a ha b hb hab
  obtain ⟨x, hx, rfl⟩ := List.mem_map.1 ha
  simp only [List.map_cons, List.map_nil, List.mem_singleton] at hb
  exact hf x hx (hab.trans hb)

/-- At most one row has a given key. -/
theorem countP_key_le_one [DecidableEq κ] {key : α → κ} {t : List α} (hn : (t.map key).Nodup)
    (k : κ) : t.countP (fun r => key r == k) ≤ 1 := by
  have h := List.nodup_iff_count_le_one.1 hn k
  rwa [List.count_eq_countP, List.countP_map] at h

/-! ## Sums of a column -/

/-- Incrementing one row's value adds at most one to the sum. -/
theorem sum_map_update_le {p : α → Bool} {f : α → α} {g : α → Nat} {t : List α}
    (hf : ∀ r, g (f r) ≤ g r + 1) :
    ((update p f t).map g).sum ≤ (t.map g).sum + t.countP p := by
  induction t with
  | nil => simp [update]
  | cons r rs ih =>
      simp only [update, List.map_cons, List.sum_cons, List.countP_cons] at ih ⊢
      have hr := hf r
      by_cases hp : p r = true
      · simp only [hp, if_true]; omega
      · simp only [hp]; simp only [Bool.false_eq_true, if_false] at ih ⊢; omega

/-- An update that makes no value larger makes no sum larger. -/
theorem sum_map_update_mono {p : α → Bool} {f : α → α} {g : α → Nat} {t : List α}
    (hf : ∀ r ∈ t, p r = true → g (f r) ≤ g r) : ((update p f t).map g).sum ≤ (t.map g).sum := by
  rw [update, List.map_map]
  refine List.sum_le_sum fun r hr => ?_
  show g (if p r then f r else r) ≤ g r
  split
  · rename_i hp
    exact hf r hr hp
  · exact le_rfl

/-- An update that makes no value larger, and that of one row smaller. -/
theorem sum_map_update_lt {p : α → Bool} {f : α → α} {g : α → Nat} {t : List α}
    (hf : ∀ r ∈ t, p r = true → g (f r) ≤ g r) {x : α} (hx : x ∈ t) (hp : p x = true)
    (hlt : g (f x) < g x) : ((update p f t).map g).sum < (t.map g).sum := by
  rw [update, List.map_map]
  refine List.sum_lt_sum _ _ (fun r hr => ?_) ⟨x, hx, ?_⟩
  · show g (if p r then f r else r) ≤ g r
    split
    · rename_i hr'
      exact hf r hr hr'
    · exact le_rfl
  · show g (if p x then f x else x) < g x
    rwa [if_pos hp]

/-- Deleting rows makes no sum larger. -/
theorem sum_map_delete_le {p : α → Bool} {g : α → Nat} (t : List α) :
    ((delete p t).map g).sum ≤ (t.map g).sum := by
  induction t with
  | nil => simp
  | cons r rs ih =>
      simp only [delete, List.filter_cons, List.map_cons, List.sum_cons] at ih ⊢
      split
      · simp only [List.map_cons, List.sum_cons]; omega
      · omega

/-! ## Rows by their place -/

/-- Replacing the row at a place changes a count by what the two rows count for. -/
theorem countP_set_add {p : α → Bool} {t : List α} {i : Nat} {x : α} (a : α)
    (hi : t[i]? = some x) :
    (t.set i a).countP p + (if p x then 1 else 0) = t.countP p + (if p a then 1 else 0) := by
  obtain ⟨hlt, rfl⟩ := List.getElem?_eq_some_iff.1 hi
  have hle : (if p t[i] then 1 else 0) ≤ t.countP p := by
    split
    · rename_i hp
      exact List.countP_pos_iff.2 ⟨t[i], List.getElem_mem hlt, hp⟩
    · exact Nat.zero_le _
  rw [List.countP_set hlt]
  omega

/-! ## Two statements in a row -/

/-- A deletion commutes with an update that keeps the columns it tests. -/
theorem delete_update {p q : α → Bool} {f : α → α} (hq : ∀ r, q (f r) = q r) (t : List α) :
    delete q (update p f t) = update p f (delete q t) :=
  filter_update (q := fun r => !q r) (fun r => by rw [hq]) t

theorem delete_delete (p q : α → Bool) (t : List α) :
    delete p (delete q t) = delete q (delete p t) := by
  simp only [delete, List.filter_filter]
  exact List.filter_congr fun r _ => Bool.and_comm ..

theorem delete_append (p : α → Bool) (t u : List α) :
    delete p (t ++ u) = delete p t ++ delete p u :=
  List.filter_append ..

/-- A new row the deletion does not hit stays. -/
theorem delete_append_row {p : α → Bool} {r : α} (h : p r = false) (t : List α) :
    delete p (t ++ [r]) = delete p t ++ [r] := by
  rw [delete_append, delete_eq_self (t := [r])]
  intro x hx
  rwa [List.mem_singleton.1 hx]

theorem update_append (p : α → Bool) (f : α → α) (t u : List α) :
    update p f (t ++ u) = update p f t ++ update p f u :=
  List.map_append ..

/-! ## The latest row -/

section

variable [LinearOrder κ] {key : α → κ} {t : List α} {r : α}

theorem latest_mem (h : latest key t = some r) : r ∈ t :=
  List.mem_reverse.1 (List.argmax_mem h)

theorem latest_le (h : latest key t = some r) {x : α} (hx : x ∈ t) : key x ≤ key r :=
  List.le_of_mem_argmax (List.mem_reverse.2 hx) h

theorem latest_eq_none : latest key t = none ↔ t = [] := by
  simp [latest]

theorem latest_isSome (hr : r ∈ t) : ∃ x, latest key t = some x := by
  cases h : latest key t with
  | some x => exact ⟨x, rfl⟩
  | none => rw [latest_eq_none.1 h] at hr; cases hr

/-- A row appended last is the latest one unless an earlier row has a later key. -/
theorem latest_append_row (key : α → κ) (t : List α) (r : α) :
    latest key (t ++ [r]) =
      match latest key t with
      | none => some r
      | some x => if key r < key x then some x else some r := by
  simp only [latest, List.reverse_append, List.reverse_cons, List.reverse_nil, List.nil_append,
    List.singleton_append, List.argmax_cons]
  cases h : t.reverse.argmax key with
  | none => rfl
  | some x => rfl

/-- The latest row is still the latest one among those a filter keeps with it. -/
theorem latest_filter {q : α → Bool} (h : latest key t = some r) (hq : q r = true) :
    latest key (t.filter q) = some r := by
  induction t using List.reverseRecOn generalizing r with
  | nil => cases h
  | append_singleton t x ih =>
      have hle : ∀ y, latest key (t.filter q) = some y →
          ∃ z, latest key t = some z ∧ key y ≤ key z := by
        intro y hy
        have hmem := (List.mem_filter.1 (latest_mem hy)).1
        obtain ⟨z, hz⟩ : ∃ z, latest key t = some z := latest_isSome hmem
        exact ⟨z, hz, latest_le hz hmem⟩
      rw [latest_append_row] at h
      rw [List.filter_append]
      by_cases hx : q x = true
      · rw [List.filter_cons_of_pos hx, List.filter_nil, latest_append_row]
        cases hl : latest key t with
        | none =>
            rw [hl] at h
            cases hf : latest key (t.filter q) with
            | none => exact h
            | some y =>
                obtain ⟨z, hz, -⟩ := hle y hf
                rw [hl] at hz
                cases hz
        | some z =>
            simp only [hl] at h
            by_cases hlt : key x < key z
            · rw [if_pos hlt] at h
              rw [ih (hl.trans h) hq]
              cases h
              simp only [if_pos hlt]
            · rw [if_neg hlt] at h
              cases hf : latest key (t.filter q) with
              | none => exact h
              | some y =>
                  obtain ⟨z', hz', hyz⟩ := hle y hf
                  rw [hl] at hz'
                  cases hz'
                  simp only [if_neg (not_lt.2 (hyz.trans (not_lt.1 hlt)))]
                  exact h
      · rw [List.filter_cons_of_neg hx, List.filter_nil, List.append_nil]
        cases hl : latest key t with
        | none =>
            rw [hl] at h
            cases h
            exact absurd hq hx
        | some z =>
            simp only [hl] at h
            by_cases hlt : key x < key z
            · rw [if_pos hlt] at h
              exact ih (hl.trans h) hq
            · rw [if_neg hlt] at h
              cases h
              exact absurd hq hx

end

end Table
