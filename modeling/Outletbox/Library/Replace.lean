import Mathlib.Data.List.Basic

/-!
# Replacing every match in a text

A pattern has a *head*, which a match starts with, and a *run*, a class of
characters the match then goes on with as long as it can.  The text is read once,
from left to right, and the next match is looked for after the end of the last.

Where a text has no character of a word, the word stands in a joined text exactly
when it stands in one of the parts.
-/

namespace Replace

/-! ## Matches -/

/-- The text with every match replaced.  The head of a match says how many characters it has after
the first, and what the match is replaced by.  The first argument counts what is left of a head, and
the second says whether the text before belongs to a match. -/
def replaceAll (head : List Char → Option (Nat × List Char)) (run : Char → Bool) :
    Nat → Bool → List Char → List Char
  | _, _, [] => []
  | n + 1, inMatch, _ :: cs => replaceAll head run n inMatch cs
  | 0, inMatch, c :: cs =>
      if inMatch && run c then replaceAll head run 0 true cs
      else match head (c :: cs) with
        | some (n, out) => out ++ replaceAll head run n true cs
        | none => c :: replaceAll head run 0 false cs

/-- The text with every match replaced. -/
def replace (head : List Char → Option (Nat × List Char)) (run : Char → Bool)
    (text : List Char) : List Char := replaceAll head run 0 false text

variable {head : List Char → Option (Nat × List Char)} {run : Char → Bool} {inMatch : Bool}

theorem replaceAll_nil (n : Nat) : replaceAll head run n inMatch [] = [] := by
  unfold replaceAll
  rfl

/-- The rest of a head is dropped. -/
theorem replaceAll_skip (xs ys : List Char) :
    replaceAll head run xs.length inMatch (xs ++ ys) = replaceAll head run 0 inMatch ys := by
  induction xs with
  | nil => rfl
  | cons x xs ih => exact ih

/-- The run of a match is dropped. -/
theorem replaceAll_run {xs : List Char} (h : ∀ c ∈ xs, run c = true) (ys : List Char) :
    replaceAll head run 0 true (xs ++ ys) = replaceAll head run 0 true ys := by
  induction xs with
  | nil => rfl
  | cons x xs ih =>
      have hx := h x (List.mem_cons_self ..)
      rw [List.cons_append, replaceAll, hx, Bool.and_self, if_pos rfl]
      exact ih fun c hc => h c (List.mem_cons_of_mem _ hc)

/-- A match ends before a character that is not of its run. -/
theorem replaceAll_end {ys : List Char} (h : ∀ c, ys.head? = some c → run c = false) :
    replaceAll head run 0 true ys = replace head run ys := by
  cases ys with
  | nil => rw [replace, replaceAll_nil, replaceAll_nil]
  | cons c cs => rw [replace, replaceAll, replaceAll, h c rfl, Bool.and_false, Bool.and_false]

/-- Text no match starts in stays as it is. -/
theorem replace_append {xs : List Char} (ys : List Char)
    (h : ∀ s, s ≠ [] → s <:+ xs → head (s ++ ys) = none) :
    replace head run (xs ++ ys) = xs ++ replace head run ys := by
  induction xs with
  | nil => rfl
  | cons x xs ih =>
      have hx := h (x :: xs) (List.cons_ne_nil _ _) (List.suffix_refl _)
      rw [List.cons_append] at hx ⊢
      rw [replace, replaceAll, Bool.false_and, if_neg Bool.false_ne_true, hx]
      exact congrArg (x :: ·) (ih fun s hs hsuffix => h s hs (hsuffix.trans (List.suffix_cons x xs)))

/-- A match at the front of a text. -/
theorem replace_match {c : Char} {xs ys zs out : List Char}
    (hhead : head (c :: (xs ++ (ys ++ zs))) = some (xs.length, out)) (hrun : ∀ x ∈ ys, run x = true)
    (hend : ∀ x, zs.head? = some x → run x = false) :
    replace head run (c :: (xs ++ (ys ++ zs))) = out ++ replace head run zs := by
  rw [replace, replaceAll, Bool.false_and, if_neg Bool.false_ne_true, hhead]
  simp only []
  rw [replaceAll_skip, replaceAll_run hrun, replaceAll_end hend]

/-! ## Words in joined texts -/

/-- A word without a separator stands on one side of it. -/
theorem infix_append_cons {sep : Char} {word x y : List Char} (hsep : sep ∉ word) :
    word <:+: x ++ sep :: y ↔ word <:+: x ∨ word <:+: y := by
  constructor
  · rintro ⟨s, t, h⟩
    rw [List.append_assoc] at h
    rcases List.append_eq_append_iff.1 h with ⟨mid, hx, hmid⟩ | ⟨mid, hs, hmid⟩
    · rcases List.append_eq_append_iff.1 hmid with ⟨mid', rfl, ht⟩ | ⟨mid', hword, hmid'⟩
      · exact .inl ⟨s, mid', by rw [hx, List.append_assoc]⟩
      · cases mid' with
        | nil =>
            rw [List.append_nil] at hword
            exact .inl ⟨s, [], by rw [hx, ← hword, List.append_nil]⟩
        | cons c mid' =>
            rw [List.cons_append, List.cons.injEq] at hmid'
            refine absurd ?_ hsep
            rw [hword, hmid'.1]
            exact List.mem_append_right _ (List.mem_cons_self ..)
    · cases mid with
      | nil =>
          cases word with
          | nil => exact .inl List.nil_infix
          | cons c word =>
              rw [List.nil_append, List.cons_append, List.cons.injEq] at hmid
              exact absurd (by rw [hmid.1]; exact List.mem_cons_self ..) hsep
      | cons c mid =>
          rw [List.cons_append, List.cons.injEq] at hmid
          exact .inr ⟨mid, t, by rw [hmid.2, List.append_assoc]⟩
  · rintro (h | h)
    · exact h.trans ⟨[], sep :: y, by simp⟩
    · exact h.trans ⟨x ++ [sep], [], by simp⟩

theorem infix_cons {sep : Char} {word y : List Char} (hsep : sep ∉ word) (hne : word ≠ []) :
    word <:+: sep :: y ↔ word <:+: y := by
  have h := infix_append_cons (x := []) (y := y) hsep
  rw [List.nil_append] at h
  rw [h]
  exact or_iff_right fun hnil => hne (List.infix_nil.1 hnil)

/-- The pieces of a text have its characters, without the separator. -/
theorem mem_splitOn {sep c : Char} {xs piece : List Char} (h : piece ∈ xs.splitOn sep)
    (hc : c ∈ piece) : c ∈ xs ∧ c ≠ sep := by
  induction xs generalizing piece with
  | nil =>
      rw [List.splitOn_nil, List.mem_singleton] at h
      exact absurd (h ▸ hc) List.not_mem_nil
  | cons x xs ih =>
      rw [List.splitOn_cons_eq_if_modifyHead] at h
      split at h
      · rcases List.mem_cons.1 h with rfl | h
        · exact absurd hc List.not_mem_nil
        · exact ⟨List.mem_cons_of_mem _ (ih h hc).1, (ih h hc).2⟩
      · next hx =>
          obtain ⟨first, rest, hsplit⟩ := List.exists_cons_of_ne_nil (List.splitOn_ne_nil sep xs)
          rw [hsplit] at h ih
          rcases List.mem_cons.1 h with rfl | h
          · rcases List.mem_cons.1 hc with rfl | hc
            · exact ⟨List.mem_cons_self .., fun heq => hx (by rw [heq, beq_self_eq_true])⟩
            · have hmem := ih (List.mem_cons_self ..) hc
              exact ⟨List.mem_cons_of_mem _ hmem.1, hmem.2⟩
          · have hmem := ih (List.mem_cons_of_mem _ h) hc
            exact ⟨List.mem_cons_of_mem _ hmem.1, hmem.2⟩

/-- A text is its pieces, each but the first after a separator. -/
theorem eq_of_splitOn {sep : Char} {xs first : List Char} {rest : List (List Char)}
    (h : xs.splitOn sep = first :: rest) : xs = first ++ rest.flatMap (sep :: ·) := by
  have hjoin : ∀ (rest : List (List Char)) (first : List Char),
      [sep].intercalate (first :: rest) = first ++ rest.flatMap (sep :: ·) := by
    intro rest
    induction rest with
    | nil => intro first; rw [List.intercalate_singleton, List.flatMap_nil, List.append_nil]
    | cons s rest ih =>
        intro first
        rw [List.intercalate_cons_cons, ih, List.flatMap_cons]
        simp
  rw [← hjoin, ← h, List.intercalate_splitOn]

end Replace
