import Mathlib

/-!
# Trimmed lists

A list without what stands at its two ends.  Nothing is left only where there was
nothing else, and trimming twice is trimming once.
-/

namespace Trimming

variable {α : Type*} {p : α → Bool} {xs : List α}

/-- The list without the elements that satisfy `p` at its ends. -/
def trimmed (p : α → Bool) (xs : List α) : List α := (xs.dropWhile p).rdropWhile p

/-- Trimming takes elements away at both ends. -/
theorem trimmed_within (p : α → Bool) (xs : List α) : trimmed p xs <:+: xs :=
  (List.rdropWhile_prefix _ _).isInfix.trans (List.dropWhile_suffix _).isInfix

/-- A list that neither starts nor ends with such an element is trimmed. -/
theorem trimmed_eq_self (hhead : ∀ x, xs.head? = some x → p x = false)
    (hlast : ∀ x, xs.getLast? = some x → p x = false) : trimmed p xs = xs := by
  have hdrop : xs.dropWhile p = xs := by
    cases xs with
    | nil => rfl
    | cons y ys => rw [List.dropWhile_cons_of_neg (by rw [hhead y rfl]; exact Bool.false_ne_true)]
  rw [trimmed, hdrop, List.rdropWhile_eq_self_iff]
  intro hne
  rw [hlast _ (List.getLast?_eq_some_getLast hne)]
  exact Bool.false_ne_true

theorem head_trimmed {x : α} (h : (trimmed p xs).head? = some x) : p x = false := by
  have hne : xs.dropWhile p ≠ [] := by
    intro hnil
    rw [trimmed, hnil, List.rdropWhile_nil] at h
    cases h
  have hpre := List.rdropWhile_prefix p (xs.dropWhile p)
  have hhead : (xs.dropWhile p).head? = some x := by
    obtain ⟨rest, hrest⟩ := hpre
    rw [← hrest, List.head?_append]
    exact congrArg (Option.or · _) h
  rw [List.head?_eq_some_head hne, Option.some.injEq] at hhead
  rw [← hhead]
  exact List.head_dropWhile_not p hne

theorem last_trimmed {x : α} (h : (trimmed p xs).getLast? = some x) : p x = false := by
  have hne : trimmed p xs ≠ [] := by
    intro hnil
    rw [hnil] at h
    cases h
  rw [List.getLast?_eq_some_getLast hne, Option.some.injEq] at h
  rw [← h]
  exact Bool.eq_false_iff.2 (List.rdropWhile_last_not p (xs.dropWhile p) hne)

theorem trimmed_trimmed (p : α → Bool) (xs : List α) :
    trimmed p (trimmed p xs) = trimmed p xs :=
  trimmed_eq_self (fun _ => head_trimmed) fun _ => last_trimmed

/-- An element that stays keeps the list from being trimmed away. -/
theorem trimmed_ne_nil {x : α} (hx : x ∈ xs) (hp : p x = false) : trimmed p xs ≠ [] := by
  intro hnil
  have hdrop := List.rdropWhile_eq_nil_iff.1 hnil
  have hmem : x ∈ xs.takeWhile p ++ xs.dropWhile p := by rwa [List.takeWhile_append_dropWhile]
  rcases List.mem_append.1 hmem with hmem | hmem
  · rw [List.mem_takeWhile_imp hmem] at hp
    cases hp
  · rw [hdrop x hmem] at hp
    cases hp

end Trimming
