import Mathlib

/-!
# Lists without a second row of a key

A list is read from left to right, and a row is kept when no row of its key was
kept before.
-/

namespace Distinct

variable {α κ : Type} [DecidableEq κ] (key : α → κ)

/-- Some row of the list has the key of `r`. -/
def seen (out : List α) (r : α) : Bool := out.any fun x => key x == key r

/-- `r` comes last, unless its key was seen. -/
def insertNew (out : List α) (r : α) : List α := if seen key out r then out else out ++ [r]

/-- The first row of each key. -/
def distinct (l : List α) : List α := l.foldl (insertNew key) []

variable {key}

theorem seen_iff {out : List α} {r : α} : seen key out r = true ↔ ∃ x ∈ out, key x = key r := by
  simp [seen]

theorem seen_append (out more : List α) (r : α) :
    seen key (out ++ more) r = (seen key out r || seen key more r) := List.any_append

theorem distinct_append_row (l : List α) (r : α) :
    distinct key (l ++ [r]) = insertNew key (distinct key l) r := by
  rw [distinct, List.foldl_append, distinct]
  rfl

theorem nodup_insertNew {out : List α} (h : (out.map key).Nodup) (r : α) :
    ((insertNew key out r).map key).Nodup := by
  unfold insertNew
  split
  · exact h
  · rename_i hseen
    rw [List.map_append, List.nodup_append]
    refine ⟨h, List.nodup_singleton _, ?_⟩
    rintro k hk k' hk' rfl
    obtain ⟨x, hx, hkey⟩ := List.mem_map.1 hk
    exact hseen (seen_iff.2 ⟨x, hx, hkey.trans (List.mem_singleton.1 hk')⟩)

theorem nodup_distinct (l : List α) : ((distinct key l).map key).Nodup := by
  induction l using List.reverseRecOn with
  | nil => exact List.nodup_nil
  | append_singleton l r ih =>
      rw [distinct_append_row]
      exact nodup_insertNew ih r

theorem distinct_subset (l : List α) : distinct key l ⊆ l := by
  induction l using List.reverseRecOn with
  | nil => exact List.Subset.refl _
  | append_singleton l r ih =>
      rw [distinct_append_row, insertNew]
      split
      · exact fun x hx => List.mem_append_left _ (ih hx)
      · exact List.append_subset.2 ⟨fun x hx => List.mem_append_left _ (ih hx),
          List.subset_append_right _ _⟩

/-- A key of the list stays a key. -/
theorem seen_distinct (l : List α) (r : α) : seen key (distinct key l) r = seen key l r := by
  induction l using List.reverseRecOn with
  | nil => rfl
  | append_singleton l x ih =>
      rw [distinct_append_row, insertNew, seen_append, ← ih]
      split
      · rename_i hseen
        cases hx : seen key [x] r with
        | false => rw [Bool.or_false]
        | true =>
            obtain ⟨y, hy, hkey⟩ := seen_iff.1 hx
            rw [List.mem_singleton.1 hy] at hkey
            obtain ⟨z, hz, hzkey⟩ := seen_iff.1 hseen
            rw [Bool.or_true]
            exact seen_iff.2 ⟨z, hz, hzkey.trans hkey⟩
      · exact seen_append _ _ _

/-- After other rows, a list adds the rows of its own whose keys are new. -/
theorem foldl_insertNew (out l : List α) : l.foldl (insertNew key) out =
    out ++ (distinct key l).filter fun r => !seen key out r := by
  induction l using List.reverseRecOn with
  | nil => simp [distinct]
  | append_singleton l r ih =>
      rw [List.foldl_append, ih, distinct_append_row]
      show insertNew key _ r = _
      have hfilter : seen key ((distinct key l).filter fun x => !seen key out x) r =
          (seen key (distinct key l) r && !seen key out r) := by
        rw [Bool.eq_iff_iff, Bool.and_eq_true, seen_iff, seen_iff]
        constructor
        · rintro ⟨x, hx, hkey⟩
          obtain ⟨hx, hnew⟩ := List.mem_filter.1 hx
          refine ⟨⟨x, hx, hkey⟩, ?_⟩
          rwa [seen, hkey] at hnew
        · rintro ⟨⟨x, hx, hkey⟩, hnew⟩
          refine ⟨x, List.mem_filter.2 ⟨hx, ?_⟩, hkey⟩
          rwa [seen, hkey]
      unfold insertNew
      rw [seen_append, hfilter]
      cases hout : seen key out r with
      | true =>
          rw [Bool.true_or, if_pos rfl]
          split
          · rfl
          · rw [List.filter_append]
            simp [hout]
      | false =>
          rw [Bool.false_or, Bool.not_false, Bool.and_true]
          split
          · rfl
          · rw [List.filter_append, List.append_assoc]
            simp [hout]

theorem distinct_of_nodup {l : List α} (h : (l.map key).Nodup) : distinct key l = l := by
  induction l using List.reverseRecOn with
  | nil => rfl
  | append_singleton l r ih =>
      rw [List.map_append, List.nodup_append] at h
      obtain ⟨hl, -, hnew⟩ := h
      rw [distinct_append_row, ih hl, insertNew, if_neg]
      rw [seen_iff]
      rintro ⟨x, hx, hkey⟩
      exact hnew (key x) (List.mem_map_of_mem hx) (key r) (List.mem_singleton_self _) hkey

/-- Lists may be made distinct before they are joined. -/
theorem distinct_append (x y : List α) :
    distinct key (x ++ y) = distinct key (distinct key x ++ distinct key y) := by
  have hjoin : ∀ a b : List α, distinct key (a ++ b) =
      distinct key a ++ (distinct key b).filter fun r => !seen key (distinct key a) r := by
    intro a b
    rw [distinct, List.foldl_append]
    exact foldl_insertNew (distinct key a) b
  rw [hjoin x y, hjoin (distinct key x) (distinct key y), distinct_of_nodup (nodup_distinct x),
    distinct_of_nodup (nodup_distinct y)]

end Distinct
