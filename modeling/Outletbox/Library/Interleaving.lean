import Outletbox.Library.History

/-!
# Suspended tasks that take turns

A pool is a shared state with the tasks that are suspended over it.  A task that
is resumed runs up to its next suspension point without interruption: it changes
the shared state, says what it puts out, and leaves the tasks that stand for what
is still to be done.  A new task may start at any time.  Which task is resumed is
up to the environment, so a run of `step` is one interleaving.

An invariant of a pool does not depend on the order of its tasks.
`Pool.invariant` reduces it to one turn of one task beside all the others.
-/

namespace Interleaving

variable {σ τ ι α ω : Type*}

/-- A shared state and the suspended tasks. -/
structure Pool (σ τ : Type*) where
  shared : σ
  tasks : List τ

/-- What a task does from one suspension point to the next. -/
structure Slice (σ τ ω : Type*) where
  shared : σ
  /-- What is still to be done, and what was started on the way. -/
  tasks : List τ
  output : ω

/-- A turn: something starts, or a suspended task is resumed with what it waited for. -/
inductive Move (ι α : Type*)
  | start (i : ι)
  | resume (n : Nat) (answer : α)

/-- One turn.  Resuming a task that is not there does nothing. -/
def step (start : σ → ι → Slice σ τ ω) (resume : σ → τ → α → Slice σ τ ω) (p : Pool σ τ) :
    Move ι α → Pool σ τ × Option ω
  | .start i =>
      let s := start p.shared i
      (⟨s.shared, s.tasks ++ p.tasks⟩, some s.output)
  | .resume n answer =>
      match p.tasks[n]? with
      | none => (p, none)
      | some t =>
          let s := resume p.shared t answer
          (⟨s.shared, s.tasks ++ p.tasks.eraseIdx n⟩, some s.output)

section

variable {start : σ → ι → Slice σ τ ω} {resume : σ → τ → α → Slice σ τ ω}

/-- What a turn can be. -/
inductive Turn (start : σ → ι → Slice σ τ ω) (resume : σ → τ → α → Slice σ τ ω) (p : Pool σ τ) :
    Move ι α → Pool σ τ × Option ω → Prop
  | started (i : ι) : Turn start resume p (.start i)
      (⟨(start p.shared i).shared, (start p.shared i).tasks ++ p.tasks⟩,
        some (start p.shared i).output)
  | resumed {n : Nat} {answer : α} {t : τ} {rest : List τ} : p.tasks[n]? = some t →
      p.tasks.Perm (t :: rest) →
      Turn start resume p (.resume n answer)
        (⟨(resume p.shared t answer).shared, (resume p.shared t answer).tasks ++ rest⟩,
          some (resume p.shared t answer).output)
  | nobody {n : Nat} {answer : α} : p.tasks[n]? = none →
      Turn start resume p (.resume n answer) (p, none)

theorem step_turn (start : σ → ι → Slice σ τ ω) (resume : σ → τ → α → Slice σ τ ω) (p : Pool σ τ)
    (m : Move ι α) : Turn start resume p m (step start resume p m) := by
  cases m with
  | start i => exact .started i
  | resume n answer =>
      cases hn : p.tasks[n]? with
      | none =>
          have hstep : step start resume p (.resume n answer) = (p, none) := by
            simp only [step, hn]
          rw [hstep]
          exact .nobody hn
      | some t =>
          have hstep : step start resume p (.resume n answer) =
              (⟨(resume p.shared t answer).shared,
                (resume p.shared t answer).tasks ++ p.tasks.eraseIdx n⟩,
                some (resume p.shared t answer).output) := by
            simp only [step, hn]
          obtain ⟨hlt, rfl⟩ := List.getElem?_eq_some_iff.1 hn
          rw [hstep]
          exact .resumed hn (List.getElem_cons_eraseIdx_perm hlt).symm

/-- What one turn of one task keeps, whatever else is suspended, every step keeps.  `ok` may
restrict the turns. -/
theorem Pool.invariant {I : σ → List τ → Prop} {ok : σ → List τ → τ → α → Prop}
    {ok' : σ → ι → Prop} {p : Pool σ τ} {m : Move ι α}
    (hperm : ∀ s ts ts', ts.Perm ts' → I s ts → I s ts')
    (hokPerm : ∀ s ts ts' t a, ts.Perm ts' → ok s ts t a → ok s ts' t a)
    (hstart : ∀ i, m = .start i → I p.shared p.tasks → ok' p.shared i →
      I (start p.shared i).shared ((start p.shared i).tasks ++ p.tasks))
    (hresume : ∀ n answer t rest, m = .resume n answer → I p.shared (t :: rest) →
      ok p.shared (t :: rest) t answer →
      I (resume p.shared t answer).shared ((resume p.shared t answer).tasks ++ rest))
    (hi : I p.shared p.tasks) (hm' : ∀ i, m = .start i → ok' p.shared i)
    (hm : ∀ n answer t, m = .resume n answer → p.tasks[n]? = some t →
      ok p.shared p.tasks t answer) :
    I (step start resume p m).1.shared (step start resume p m).1.tasks := by
  have hturn := step_turn start resume p m
  generalize step start resume p m = r at hturn ⊢
  cases hturn with
  | started i => exact hstart i rfl hi (hm' i rfl)
  | @resumed n answer t rest hn hrest =>
      exact hresume n answer t rest rfl (hperm _ _ _ hrest hi)
        (hokPerm _ _ _ _ _ hrest (hm n answer t rfl hn))
  | nobody hn => exact hi

end

end Interleaving
