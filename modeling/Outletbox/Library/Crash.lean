import Mathlib.Tactic.Common

/-!
# Commands that may be cut short

A command runs against a world, one operation after the other.  A list of faults
says what becomes of each operation: it may be carried out, it may throw, and the
process may end before it.  A command so ends in one of three ways, and a triple
states what holds of the world in each of them, whatever the faults are.

The rules take a command apart along its definition.
-/

namespace Crash

variable {W : Type} {α β : Type}

/-- What becomes of an operation. -/
inductive Fault
  | carriedOut | throws | crash
  deriving DecidableEq, Repr

/-- How a command ends. -/
inductive Outcome (α : Type)
  | done (a : α)
  | threw (message : String)
  | crashed
  deriving DecidableEq, Repr

/-- A command returns what is left of the faults, and leaves a world behind. -/
def Cmd (W α : Type) : Type := W → List Fault → Outcome α × W × List Fault

namespace Cmd

protected def pure (a : α) : Cmd W α := fun w fs => (.done a, w, fs)

protected def bind (m : Cmd W α) (f : α → Cmd W β) : Cmd W β := fun w fs =>
  match m w fs with
  | (.done a, w, fs) => f a w fs
  | (.threw e, w, fs) => (.threw e, w, fs)
  | (.crashed, w, fs) => (.crashed, w, fs)

instance : Monad (Cmd W) where
  pure := Cmd.pure
  bind := Cmd.bind

/-- Throws an error. -/
def throw (message : String) : Cmd W α := fun w fs => (.threw message, w, fs)

/-- One operation, which may throw for reasons of its own. -/
def op (f : W → Except String (α × W)) : Cmd W α
  | w, .crash :: fs => (.crashed, w, fs)
  | w, .throws :: fs => (.threw "operation failed", w, fs)
  | w, .carriedOut :: fs =>
      match f w with
      | .ok (a, w) => (.done a, w, fs)
      | .error e => (.threw e, w, fs)
  | w, [] =>
      match f w with
      | .ok (a, w) => (.done a, w, [])
      | .error e => (.threw e, w, [])

/-- `try m catch (e) handler`. -/
def tryCatch (m : Cmd W α) (handler : String → Cmd W α) : Cmd W α := fun w fs =>
  match m w fs with
  | (.threw e, w, fs) => handler e w fs
  | (.done a, w, fs) => (.done a, w, fs)
  | (.crashed, w, fs) => (.crashed, w, fs)

end Cmd

/-- What must hold of an outcome and the world it leaves: `Q` of a result, `E` after an
error, `C` after a crash. -/
def Outcome.Meets (Q : α → W → Prop) (E C : W → Prop) : Outcome α → W → Prop
  | .done a, w => Q a w
  | .threw _, w => E w
  | .crashed, w => C w

/-- From a world with `P`, whatever the faults are. -/
def Triple (P : W → Prop) (m : Cmd W α) (Q : α → W → Prop) (E C : W → Prop) : Prop :=
  ∀ w fs, P w → (m w fs).1.Meets Q E C (m w fs).2.1

namespace Triple

variable {P P' E E' C C' : W → Prop} {Q Q' : α → W → Prop} {R : β → W → Prop} {m : Cmd W α}

theorem pure {a : α} (h : ∀ w, P w → Q a w) : Triple P (Pure.pure a : Cmd W α) Q E C :=
  fun w _ hw => h w hw

theorem throw {message : String} (h : ∀ w, P w → E w) :
    Triple P (Cmd.throw message : Cmd W α) Q E C :=
  fun w _ hw => h w hw

theorem bind {f : α → Cmd W β} (hm : Triple P m Q E C) (hf : ∀ a, Triple (Q a) (f a) R E C) :
    Triple P (m >>= f) R E C := by
  intro w fs hw
  have hmeets := hm w fs hw
  simp only [Bind.bind, Cmd.bind]
  generalize m w fs = r at hmeets ⊢
  obtain ⟨outcome, w', fs'⟩ := r
  cases outcome with
  | done a => exact hf a w' fs' hmeets
  | threw e => exact hmeets
  | crashed => exact hmeets

theorem op {f : W → Except String (α × W)} (hok : ∀ w a w', P w → f w = .ok (a, w') → Q a w')
    (herror : ∀ w, P w → E w) (hcrash : ∀ w, P w → C w) : Triple P (Cmd.op f) Q E C := by
  intro w fs hw
  have hrun : ∀ fs', (match f w with
      | .ok (a, w) => (.done a, w, fs')
      | .error e => (.threw e, w, fs') : Outcome α × W × List Fault).1.Meets Q E C
      (match f w with
      | .ok (a, w) => (.done a, w, fs')
      | .error e => (.threw e, w, fs') : Outcome α × W × List Fault).2.1 := by
    intro fs'
    cases hf : f w with
    | error e => exact herror w hw
    | ok r => exact hok w r.1 r.2 hw hf
  cases fs with
  | nil => exact hrun []
  | cons fault fs =>
      cases fault with
      | carriedOut => exact hrun fs
      | throws => exact herror w hw
      | crash => exact hcrash w hw

/-- What an error leaves is what the handler starts from. -/
theorem tryCatch {handler : String → Cmd W α} (hm : Triple P m Q E' C)
    (hhandler : ∀ e, Triple E' (handler e) Q E C) : Triple P (Cmd.tryCatch m handler) Q E C := by
  intro w fs hw
  have hmeets := hm w fs hw
  simp only [Cmd.tryCatch]
  generalize m w fs = r at hmeets ⊢
  obtain ⟨outcome, w', fs'⟩ := r
  cases outcome with
  | done a => exact hmeets
  | threw e => exact hhandler e w' fs' hmeets
  | crashed => exact hmeets

/-- The rule of consequence. -/
theorem mono (hm : Triple P' m Q' E' C') (hP : ∀ w, P w → P' w) (hQ : ∀ a w, Q' a w → Q a w)
    (hE : ∀ w, E' w → E w) (hC : ∀ w, C' w → C w) : Triple P m Q E C := by
  intro w fs hw
  have hmeets := hm w fs (hP w hw)
  generalize m w fs = r at hmeets ⊢
  obtain ⟨outcome, w', fs'⟩ := r
  cases outcome with
  | done a => exact hQ a w' hmeets
  | threw e => exact hE w' hmeets
  | crashed => exact hC w' hmeets

/-- A triple for each world a command may start from. -/
theorem of_forall (h : ∀ w₀, P w₀ → Triple (· = w₀) m Q E C) : Triple P m Q E C :=
  fun w fs hw => h w hw w fs rfl

end Triple

/-- What holds however a command ends. -/
theorem Triple.ends {P Q : W → Prop} {m : Cmd W α} (h : Triple P m (fun _ => Q) Q Q) (w : W)
    (fs : List Fault) (hw : P w) : Q (m w fs).2.1 := by
  have hmeets := h w fs hw
  generalize m w fs = r at hmeets ⊢
  obtain ⟨outcome, w', fs'⟩ := r
  cases outcome with
  | done a => exact hmeets
  | threw e => exact hmeets
  | crashed => exact hmeets

/-- A command that ended with a result. -/
theorem Triple.of_done {P : W → Prop} {m : Cmd W α} {Q : α → W → Prop} {E C : W → Prop} {w w' : W}
    {fs fs' : List Fault} {a : α} (h : Triple P m Q E C) (hw : P w)
    (hm : m w fs = (.done a, w', fs')) : Q a w' := by
  have hmeets := h w fs hw
  rw [hm] at hmeets
  exact hmeets

end Crash
