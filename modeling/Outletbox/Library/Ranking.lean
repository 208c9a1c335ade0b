import Mathlib.Data.List.Sort

/-!
# The place of an element in a sorted list

A stable sort puts before an element what ranks before it, and of what ranks with
it the elements that stood before it.
-/

namespace Ranking

variable {α : Type*} (r : α → α → Prop) [DecidableRel r]

/-- The elements a stable sort by `r` puts before `x`, in a list with `x` between two parts. -/
def ahead (x : α) (pre post : List α) : List α :=
  pre.filter (fun y => decide (r y x)) ++ post.filter fun y => !decide (r x y)

section

variable {r} {p x : α}

/-- What ranks before `x`, or with it, is inserted before it. -/
theorem orderedInsert_before (h : r p x) (before after : List α) :
    (before ++ x :: after).orderedInsert r p = before.orderedInsert r p ++ x :: after := by
  induction before with
  | nil => simp only [List.nil_append, List.orderedInsert, if_pos h, List.singleton_append]
  | cons b before ih =>
      rw [List.cons_append, List.orderedInsert, List.orderedInsert, ih]
      split
      · rfl
      · rfl

/-- What ranks after `x` is inserted after it. -/
theorem orderedInsert_after {before : List α} (h : ¬ r p x) (hbefore : ∀ b ∈ before, ¬ r p b)
    (after : List α) :
    (before ++ x :: after).orderedInsert r p = before ++ x :: after.orderedInsert r p := by
  induction before with
  | nil => rw [List.nil_append, List.orderedInsert, if_neg h]; rfl
  | cons b before ih =>
      obtain ⟨hb, hbefore⟩ := List.forall_mem_cons.1 hbefore
      rw [List.cons_append, List.orderedInsert, if_neg hb, ih hbefore]
      rfl

end

variable [IsTrans α r]

/-- The first elements of a sorted list that do not rank after `x`. -/
theorem takeWhile_perm {l : List α} (hl : l.Pairwise r) (x : α) :
    (l.takeWhile fun y => decide ¬ r x y) = l.filter fun y => !decide (r x y) := by
  induction l with
  | nil => rfl
  | cons y l ih =>
      obtain ⟨hy, hl⟩ := List.pairwise_cons.1 hl
      by_cases hxy : r x y
      · have hnone : l.filter (fun z => !decide (r x z)) = [] := by
          refine List.filter_eq_nil_iff.2 fun z hz => ?_
          simp only [IsTrans.trans x y z hxy (hy z hz), decide_true, Bool.not_true, Bool.false_eq_true,
            not_false_eq_true]
        rw [List.takeWhile_cons_of_neg (by simpa using hxy), List.filter_cons_of_neg (by simpa using hxy),
          hnone]
      · rw [List.takeWhile_cons_of_pos (by simpa using hxy), List.filter_cons_of_pos (by simpa using hxy),
          ih hl]

variable [Std.Total r]

/-- What a stable sort puts before an element. -/
theorem insertionSort_split (x : α) (pre post : List α) :
    ∃ before after, (pre ++ x :: post).insertionSort r = before ++ x :: after ∧
      before.Perm (ahead r x pre post) := by
  induction pre with
  | nil =>
      refine ⟨_, _, List.insertionSort_cons_eq_take_drop r x post, ?_⟩
      rw [takeWhile_perm r (List.pairwise_insertionSort r post)]
      exact (List.perm_insertionSort r post).filter _
  | cons p pre ih =>
      obtain ⟨before, after, hsort, hperm⟩ := ih
      have hsorted := List.pairwise_insertionSort r (pre ++ x :: post)
      rw [hsort, List.pairwise_append] at hsorted
      rw [List.cons_append, List.insertionSort_cons, hsort]
      by_cases hpx : r p x
      · refine ⟨before.orderedInsert r p, after, orderedInsert_before hpx before after, ?_⟩
        rw [ahead, List.filter_cons_of_pos (by simpa using hpx)]
        exact (List.perm_orderedInsert r p before).trans (hperm.cons p)
      · refine ⟨before, after.orderedInsert r p, orderedInsert_after hpx (fun b hb hpb => ?_) after, ?_⟩
        · exact hpx (IsTrans.trans p b x hpb (hsorted.2.2 b hb x (List.mem_cons_self ..)))
        · rwa [ahead, List.filter_cons_of_neg (by simpa using hpx)]

/-- An element is among the first `k` of the sorted list when fewer stand before it. -/
theorem mem_take_insertionSort {x : α} {pre post : List α} (hpre : x ∉ pre) (hpost : x ∉ post)
    (k : Nat) :
    x ∈ ((pre ++ x :: post).insertionSort r).take k ↔ (ahead r x pre post).length < k := by
  obtain ⟨before, after, hsort, hperm⟩ := insertionSort_split r x pre post
  have hbefore : x ∉ before := by
    intro h
    rcases List.mem_append.1 (hperm.mem_iff.1 h) with h | h
    · exact hpre (List.mem_filter.1 h).1
    · exact hpost (List.mem_filter.1 h).1
  rw [hsort, ← hperm.length_eq, List.take_append]
  constructor
  · intro h
    by_contra hle
    rw [Nat.sub_eq_zero_of_le (not_lt.1 hle), List.take_zero, List.append_nil] at h
    exact hbefore (List.mem_of_mem_take h)
  · intro h
    obtain ⟨n, hn⟩ := Nat.exists_eq_succ_of_ne_zero (Nat.sub_ne_zero_of_lt h)
    rw [hn, List.take_succ_cons]
    exact List.mem_append_right _ (List.mem_cons_self ..)

end Ranking
