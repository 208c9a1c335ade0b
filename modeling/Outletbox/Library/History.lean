import Mathlib

/-!
# Runs of a deterministic system and what they remember

A system is a step function from a state and an input to a state and an
output.  A *run* starts in a given state and fires one event after the other;
its history lists the events newest first.  The environment relation `env`
says which inputs may come after a history and in a state: a clock that does
not go back, a random value that was not drawn before.

`Since p q` is the past operator of temporal logic: some event satisfied `p`
and every later event satisfied `q`.  Facts of the form "this row was created
by such an event, and nothing has ended it since" are invariants of runs
stated with it.

`Lockstep` and `lockstep_outputs` are the two-run rule: two runs over paired
inputs, related by a relation that every pair of steps keeps, give the same
outputs exactly when every position satisfies the condition under which one
pair of steps does.
-/

namespace History

variable {σ ι ω ε : Type*}

/-! ## Events and runs -/

/-- One step as it was taken. -/
structure Event (σ ι ω : Type*) where
  /-- The state before. -/
  pre : σ
  /-- The input. -/
  input : ι
  /-- The output. -/
  output : ω
  /-- The state after. -/
  post : σ

/-- The event of running `step` on an input. -/
def fire (step : σ → ι → σ × ω) (s : σ) (i : ι) : Event σ ι ω :=
  ⟨s, i, (step s i).2, (step s i).1⟩

@[simp] theorem fire_pre (step : σ → ι → σ × ω) (s : σ) (i : ι) : (fire step s i).pre = s := rfl

@[simp] theorem fire_input (step : σ → ι → σ × ω) (s : σ) (i : ι) :
    (fire step s i).input = i := rfl

@[simp] theorem fire_output (step : σ → ι → σ × ω) (s : σ) (i : ι) :
    (fire step s i).output = (step s i).2 := rfl

@[simp] theorem fire_post (step : σ → ι → σ × ω) (s : σ) (i : ι) :
    (fire step s i).post = (step s i).1 := rfl

/-- The runs from `s₀`, with their history, newest event first. -/
inductive Run (step : σ → ι → σ × ω) (env : List (Event σ ι ω) → σ → ι → Prop) (s₀ : σ) :
    List (Event σ ι ω) → σ → Prop
  | start : Run step env s₀ [] s₀
  | step {h : List (Event σ ι ω)} {s : σ} (i : ι) :
      Run step env s₀ h s → env h s i → Run step env s₀ (fire step s i :: h) (step s i).1

section

variable {step : σ → ι → σ × ω} {env : List (Event σ ι ω) → σ → ι → Prop} {s₀ : σ}

/-- What holds at the start and is kept by every step holds after every run. -/
theorem Run.invariant {I : List (Event σ ι ω) → σ → Prop} (h0 : I [] s₀)
    (hs : ∀ h s i, Run step env s₀ h s → env h s i → I h s → I (fire step s i :: h) (step s i).1)
    {h : List (Event σ ι ω)} {s : σ} (hr : Run step env s₀ h s) : I h s := by
  induction hr with
  | start => exact h0
  | step i hr he ih => exact hs _ _ i hr he ih

/-- A run of a strict environment is one of a more liberal environment. -/
theorem Run.mono {env' : List (Event σ ι ω) → σ → ι → Prop}
    (henv : ∀ h s i, env h s i → env' h s i) {h : List (Event σ ι ω)} {s : σ}
    (hr : Run step env s₀ h s) : Run step env' s₀ h s := by
  induction hr with
  | start => exact .start
  | step i _ he ih => exact ih.step i (henv _ _ i he)

/-- Every event of a run was fired in the state an earlier part of the run reached. -/
theorem Run.split {later earlier : List (Event σ ι ω)} {e : Event σ ι ω} {s : σ}
    (hr : Run step env s₀ (later ++ e :: earlier) s) :
    ∃ i, Run step env s₀ earlier e.pre ∧ env earlier e.pre i ∧ e = fire step e.pre i := by
  induction later generalizing s with
  | nil =>
      cases hr with
      | step i hr he => exact ⟨i, hr, he, rfl⟩
  | cons x xs ih =>
      cases hr with
      | step i hr he => exact ih hr

/-- What holds after an event, and is kept by every later step that satisfies `q`. -/
theorem Run.keeps {Q : σ → Prop} {q : Event σ ι ω → Prop}
    (hstep : ∀ s i, Q s → q (fire step s i) → Q (step s i).1)
    {later earlier : List (Event σ ι ω)} {e : Event σ ι ω} {s : σ}
    (hr : Run step env s₀ (later ++ e :: earlier) s) (he : Q e.post)
    (hlater : ∀ x ∈ later, q x) : Q s := by
  induction later generalizing s with
  | nil =>
      cases hr with
      | step i hr henv => exact he
  | cons x xs ih =>
      cases hr with
      | step i hr henv =>
          have hs := ih hr fun y hy => hlater y (List.mem_cons_of_mem _ hy)
          exact hstep _ i hs (hlater _ (List.mem_cons_self ..))

theorem Run.of_mem {h : List (Event σ ι ω)} {e : Event σ ι ω} {s : σ}
    (hr : Run step env s₀ h s) (he : e ∈ h) : ∃ i, e = fire step e.pre i := by
  obtain ⟨later, earlier, rfl⟩ := List.append_of_mem he
  obtain ⟨i, -, -, hi⟩ := hr.split
  exact ⟨i, hi⟩

end

/-! ## Replaying inputs -/

/-- The history and the state after more inputs, oldest first. -/
def replay (step : σ → ι → σ × ω) :
    List (Event σ ι ω) → σ → List ι → List (Event σ ι ω) × σ
  | h, s, [] => (h, s)
  | h, s, i :: is => replay step (fire step s i :: h) (step s i).1 is

/-- The environment admits every one of the inputs in turn. -/
def Admits (step : σ → ι → σ × ω) (env : List (Event σ ι ω) → σ → ι → Prop) :
    List (Event σ ι ω) → σ → List ι → Prop
  | _, _, [] => True
  | h, s, i :: is => env h s i ∧ Admits step env (fire step s i :: h) (step s i).1 is

/-- An environment that admits everything admits every list of inputs. -/
theorem admits_of_forall {step : σ → ι → σ × ω} {env : List (Event σ ι ω) → σ → ι → Prop}
    (henv : ∀ h s i, env h s i) (h : List (Event σ ι ω)) (s : σ) (is : List ι) :
    Admits step env h s is := by
  induction is generalizing h s with
  | nil => trivial
  | cons i is ih => exact ⟨henv h s i, ih _ _⟩

/-- Inputs that agree with each other are admitted when that is all the environment asks. -/
theorem admits_of_pairwise {step : σ → ι → σ × ω} {env : List (Event σ ι ω) → σ → ι → Prop}
    {R : ι → ι → Prop} (henv : ∀ h s i, (∀ e ∈ h, R e.input i) → env h s i) {is : List ι}
    (hp : is.Pairwise R) {h : List (Event σ ι ω)} (hh : ∀ e ∈ h, ∀ i ∈ is, R e.input i) (s : σ) :
    Admits step env h s is := by
  induction is generalizing h s with
  | nil => trivial
  | cons i is ih =>
      obtain ⟨hi, hrest⟩ := List.pairwise_cons.1 hp
      refine ⟨henv h s i fun e he => hh e he i (List.mem_cons_self ..), ih hrest ?_ _⟩
      intro e he j hj
      rcases List.mem_cons.1 he with rfl | he
      · exact hi j hj
      · exact hh e he j (List.mem_cons_of_mem _ hj)

theorem run_replay {step : σ → ι → σ × ω} {env : List (Event σ ι ω) → σ → ι → Prop} {s₀ s : σ}
    {h : List (Event σ ι ω)} {is : List ι} (hr : Run step env s₀ h s)
    (ha : Admits step env h s is) :
    Run step env s₀ (replay step h s is).1 (replay step h s is).2 := by
  induction is generalizing h s with
  | nil => exact hr
  | cons i is ih => exact ih (hr.step i ha.1) ha.2

/-! ## Since -/

/-- Some event satisfied `p`, and every event after it `q`. -/
def Since (p q : ε → Prop) : List ε → Prop
  | [] => False
  | e :: es => p e ∨ (q e ∧ Since p q es)

@[simp] theorem since_nil (p q : ε → Prop) : ¬ Since p q [] := id

theorem Since.now {p q : ε → Prop} {e : ε} {es : List ε} (h : p e) : Since p q (e :: es) :=
  .inl h

theorem Since.later {p q : ε → Prop} {e : ε} {es : List ε} (hq : q e) (h : Since p q es) :
    Since p q (e :: es) :=
  .inr ⟨hq, h⟩

theorem Since.mono {p p' q q' : ε → Prop} (hp : ∀ e, p e → p' e) (hq : ∀ e, q e → q' e) :
    ∀ {es : List ε}, Since p q es → Since p' q' es
  | [], h => h
  | e :: _, h => h.imp (hp e) fun ⟨h1, h2⟩ => ⟨hq e h1, Since.mono hp hq h2⟩

/-- The event `Since` speaks of, with what came after it. -/
theorem Since.split {p q : ε → Prop} :
    ∀ {es : List ε}, Since p q es →
      ∃ later e earlier, es = later ++ e :: earlier ∧ p e ∧ ∀ x ∈ later, q x
  | e :: es, h => by
      rcases h with hp | ⟨hq, h⟩
      · exact ⟨[], e, es, rfl, hp, by simp⟩
      · obtain ⟨later, x, earlier, rfl, hx, hl⟩ := h.split
        refine ⟨e :: later, x, earlier, rfl, hx, ?_⟩
        intro y hy
        rcases List.mem_cons.1 hy with rfl | hy
        · exact hq
        · exact hl y hy

/-- Nothing that violates `q` came after the event `Since` speaks of. -/
theorem Since.not_after {p q : ε → Prop} {later earlier : List ε} {e : ε}
    (h : Since p q (later ++ e :: earlier)) (he : ¬ q e) (hp : ¬ p e) :
    ∃ x ∈ later, p x := by
  induction later with
  | nil =>
      rcases h with h | ⟨h, -⟩
      · exact absurd h hp
      · exact absurd h he
  | cons x xs ih =>
      rcases h with h | ⟨-, h⟩
      · exact ⟨x, List.mem_cons_self .., h⟩
      · obtain ⟨y, hy, h⟩ := ih h
        exact ⟨y, List.mem_cons_of_mem _ hy, h⟩

/-! ## Two runs -/

/-- The outputs of running a list of inputs, oldest first. -/
def outputs (step : σ → ι → σ × ω) : σ → List ι → List ω
  | _, [] => []
  | s, i :: is => (step s i).2 :: outputs step (step s i).1 is

/-- A condition on the two states and the two inputs holds at every position
of two runs over paired inputs. -/
def Lockstep (step : σ → ι → σ × ω) (c : σ → σ → ι → ι → Prop) :
    σ → σ → List (ι × ι) → Prop
  | _, _, [] => True
  | s, s', (i, i') :: is =>
      c s s' i i' ∧ Lockstep step c (step s i).1 (step s' i').1 is

section

variable {step : σ → ι → σ × ω} {R : σ → σ → Prop} {ok agree : σ → σ → ι → ι → Prop}

/-- The two-run rule. -/
theorem lockstep_outputs
    (hR : ∀ s s' i i', R s s' → ok s s' i i' → R (step s i).1 (step s' i').1)
    (ho : ∀ s s' i i', R s s' → ok s s' i i' →
      ((step s i).2 = (step s' i').2 ↔ agree s s' i i')) :
    ∀ {is : List (ι × ι)} {s s' : σ}, R s s' → Lockstep step ok s s' is →
      (outputs step s (is.map Prod.fst) = outputs step s' (is.map Prod.snd) ↔
        Lockstep step agree s s' is)
  | [], _, _, _, _ => by simp [outputs, Lockstep]
  | (i, i') :: is, s, s', hs, ⟨hok, hrest⟩ => by
      have ih := lockstep_outputs hR ho (hR s s' i i' hs hok) hrest
      simp only [List.map_cons, outputs, List.cons.injEq, Lockstep]
      rw [ho s s' i i' hs hok, ih]

end

end History
