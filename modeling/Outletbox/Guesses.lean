import Outletbox.Factors
import Outletbox.Replay

/-!
# How often a second factor can be guessed

Four operations compare a typed code with the authenticator app or the recovery
codes of an account.  `wrongGuess` says when such a comparison fails.  Sign-in and
confirmation count their wrong codes and look at the lockout; `regenerateRecoveryCodes`
and `disableTotp` do neither, and that is what `Guarded` leaves out.

`Tally` is what a guarded call does to the counter and the lockout of one account.
The budget is then an invariant over a window: the wrong codes so far are in the
counter, or the account is locked until the window is over, or the window is over.
-/

namespace Outletbox

namespace Guesses

open Factors

variable (P : Platform)

/-! ## Wrong codes -/

/-- A code fits neither the authenticator app nor an unused recovery code. -/
def misses (now : Int) (admin : AdminRow) (code : String) (d : AccountDb) : Bool :=
  (checkFactor P now admin code d).1.isNone

/-- The authenticator app of the account is enabled. -/
def hasApp (admin : AdminRow) : Bool := admin.totpSecret.isSome && admin.totpEnabledAt.isSome

/-- The account whose second factors a call compares with a code that fits none of them. -/
def wrongGuess (d : AccountDb) (c : Call) : Option String :=
  match c.op with
  | .verifySessionTotp _ sessionId code _ => do
      let s ← d.sessions.find? (·.idHash == P.sha256Hex sessionId)
      let admin ← adminById s.adminId d
      if (toAdmin d admin).hasSecondFactor && !isTotpLocked admin c.now &&
          misses P c.now admin code d then some s.adminId else none
  | .verifyConfirmCode adminId code => do
      let admin ← adminById adminId d
      if !isTotpLocked admin c.now && misses P c.now admin code d then some adminId else none
  | .regenerateRecoveryCodes _ adminId code => do
      let admin ← adminById adminId d
      if hasApp admin && (matchedStep P admin code c.now).isNone then some adminId else none
  | .disableTotp adminId code _ => do
      let admin ← adminById adminId d
      if hasApp admin && misses P c.now admin code d then some adminId else none
  | _ => none

/-- The pending session a wrong code is typed in. -/
def pendingGuess (d : AccountDb) (c : Call) : Option String :=
  match c.op with
  | .verifySessionTotp _ sessionId _ _ =>
      if (wrongGuess P d c).isSome &&
          d.sessions.any fun s => s.idHash == P.sha256Hex sessionId && !s.totpVerified then
        some (P.sha256Hex sessionId)
      else none
  | _ => none

/-- How many wrong codes were compared with the factors of an account in the window from `t` on. -/
def guessesIn (adminId : String) (t : Int) (h : List Event) : Nat :=
  h.countP fun e => wrongGuess P e.pre e.input == some adminId &&
    decide (t ≤ e.input.now) && decide (e.input.now < t + totpAccountLockMs)

/-- How many wrong codes were typed in a pending session. -/
def pendingGuesses (idHash : String) (h : List Event) : Nat :=
  h.countP fun e => pendingGuess P e.pre e.input == some idHash

/-- The account and the code of a call that accepts a code of a second factor. -/
def guesses (d : AccountDb) (c : Call) : Option (String × String) :=
  match c.op with
  | .confirmTotpEnrolment _ _ _ => none
  | _ => presents P d c

/-- The account a passkey is asserted for. -/
def asserts (c : Call) : Option String :=
  match c.op with
  | .verifyPasskeyLogin _ _ login => some login.admin.id
  | .verifyPasskeyConfirm input _ => some input.adminId
  | _ => none

/-- A valid factor is presented for the account, its factors are reset, or it goes. -/
def Interrupts (adminId : String) (e : Event) : Prop :=
  (∃ code, guesses P e.pre e.input = some (adminId, code) ∧ isAccepted e.output = true) ∨
    (asserts e.input = some adminId ∧ e.output = .asserted (.ok ())) ∨
    e.input.op = .resetSecondFactors adminId ∨ e.input.op = .deleteAdmin adminId

/-- The clock does not go back, and the identifier of a session is drawn once. -/
def env (h : List Event) (_ : AccountDb) (c : Call) : Prop :=
  (∀ e ∈ h, e.input.now ≤ c.now) ∧
    ∀ idHash, drawnSession P c = some idHash → ∀ e ∈ h, drawnSession P e.input ≠ some idHash

/-- The guess budget of a run. -/
structure Budget (h : List Event) : Prop where
  /-- In every part of the run in which no valid factor is presented for an account, and in every
  window, few wrong codes are compared with its factors. -/
  account : ∀ later earlier, h = later ++ earlier → ∀ adminId,
    (∀ e ∈ later, ¬ Interrupts P adminId e) →
      ∀ t, guessesIn P adminId t later ≤ totpAccountLockThreshold
  /-- No code is accepted while the account is locked. -/
  locked : ∀ e ∈ h, ∀ adminId code, guesses P e.pre e.input = some (adminId, code) →
    (totpLockedUntil e.input.now adminId e.pre).isSome = true → isAccepted e.output = false
  /-- A pending session sees few wrong codes. -/
  session : ∀ idHash, pendingGuesses P idHash h ≤ maxTotpAttempts

/-- The account and the code of a call that neither counts wrong codes nor looks at the lockout. -/
def unchecked (c : Call) : Option (String × String) :=
  match c.op with
  | .regenerateRecoveryCodes _ adminId code => some (adminId, code)
  | .disableTotp adminId code _ => some (adminId, code)
  | _ => none

/-- Such a call is made with a code that fits, while the account is not locked. -/
def Guarded (d : AccountDb) (c : Call) : Prop :=
  ∀ adminId code, unchecked c = some (adminId, code) →
    wrongGuess P d c = none ∧ totpLockedUntil c.now adminId d = none

/-! ## The counter and the lockout of an account -/

/-- The wrong codes that are counted for an account, and the end of its lockout. -/
def tally (adminId : String) (d : AccountDb) : Option (Nat × Option Int) :=
  (adminById adminId d).map fun a => (a.totpFailedCount, a.totpLockedUntil)

/-- What a call does to the counter and the lockout of an account. -/
inductive Tally (adminId : String) (d : AccountDb) (c : Call) (d' : AccountDb) : Prop
  | same : wrongGuess P d c ≠ some adminId → tally adminId d' = tally adminId d →
      Tally adminId d c d'
  | created : wrongGuess P d c ≠ some adminId → tally adminId d = none →
      tally adminId d' = some (0, none) → Tally adminId d c d'
  | counted {n : Nat} {locked : Option Int} : wrongGuess P d c = some adminId →
      tally adminId d = some (n, locked) → locked.any (c.now < ·) = false →
      n + 1 < totpAccountLockThreshold → tally adminId d' = some (n + 1, locked) →
      Tally adminId d c d'
  | lockout {n : Nat} {locked : Option Int} : wrongGuess P d c = some adminId →
      tally adminId d = some (n, locked) → locked.any (c.now < ·) = false →
      tally adminId d' = some (0, some (c.now + totpAccountLockMs)) → Tally adminId d c d'
  | interrupted : Interrupts P adminId (History.fire (step P) d c) → Tally adminId d c d'

section

variable {P : Platform} {d d' : AccountDb} {now : Int} {adminId id typed : String}
  {admin : AdminRow} {c : Call}

theorem tally_of_admins (h : d'.admins = d.admins) (adminId : String) :
    tally adminId d' = tally adminId d := by
  rw [tally, tally, adminById_of_admins h]

/-- An `UPDATE` that leaves the counter and the lockout alone. -/
theorem tally_updateAdmin {f : AdminRow → AdminRow} (hid : ∀ a, (f a).id = a.id)
    (hf : ∀ a, (f a).totpFailedCount = a.totpFailedCount ∧ (f a).totpLockedUntil = a.totpLockedUntil)
    (adminId id : String) (d : AccountDb) : tally adminId (updateAdmin id f d) = tally adminId d := by
  rw [tally, tally, adminById_updateAdmin hid, Option.map_map]
  refine congrArg (fun g => Option.map g (adminById adminId d)) (funext fun a => ?_)
  simp only [Function.comp_apply]
  split
  · rw [(hf a).1, (hf a).2]
  · rfl

/-- An `UPDATE` of another account. -/
theorem tally_updateAdmin_of_ne {f : AdminRow → AdminRow} (hid : ∀ a, (f a).id = a.id)
    (hne : id ≠ adminId) (d : AccountDb) : tally adminId (updateAdmin id f d) = tally adminId d := by
  rw [tally, tally, adminById_updateAdmin hid]
  cases hadmin : adminById adminId d with
  | none => rfl
  | some a =>
      have ha : a.id = adminId := adminById_id hadmin
      rw [Option.map_some, if_neg (by simpa [ha] using Ne.symm hne)]

theorem tally_updated {f : AdminRow → AdminRow} (hid : ∀ a, (f a).id = a.id)
    (hadmin : adminById adminId d = some admin) :
    tally adminId (updateAdmin admin.id f d) =
      some ((f admin).totpFailedCount, (f admin).totpLockedUntil) := by
  rw [tally, adminById_updateAdmin hid, hadmin, Option.map_some, if_pos (by simp), Option.map_some]

theorem tally_of_admin (hadmin : adminById adminId d = some admin) :
    tally adminId d = some (admin.totpFailedCount, admin.totpLockedUntil) := by
  rw [tally, hadmin, Option.map_some]

theorem tally_countFailure (hadmin : adminById adminId d = some admin) :
    tally adminId (countFailure admin d) =
      some (admin.totpFailedCount + 1, admin.totpLockedUntil) :=
  tally_updated (fun _ => rfl) hadmin

theorem tally_countFailure_of_ne (hne : admin.id ≠ adminId) :
    tally adminId (countFailure admin d) = tally adminId d :=
  tally_updateAdmin_of_ne (fun _ => by rfl) hne d

theorem tally_lockAccount_of_ne (hne : admin.id ≠ adminId) :
    tally adminId (lockAccount now admin d) = tally adminId d :=
  (tally_of_admins rfl adminId).trans (tally_updateAdmin_of_ne (fun _ => by rfl) hne d)

theorem tally_lockAccount (hadmin : adminById adminId d = some admin) (now : Int) :
    tally adminId (lockAccount now admin d) = some (0, some (now + totpAccountLockMs)) :=
  (tally_of_admins rfl adminId).trans (tally_updated (fun _ => rfl) hadmin)

/-! ## Comparisons -/

theorem misses_iff : misses P now admin typed d = true ↔
    matchedStep P admin typed now = none ∧ ¬ hasUnusedCode P admin.id typed d := by
  have hcheck := checked (P := P) now admin typed d
  unfold misses
  generalize checkFactor P now admin typed d = answer at hcheck ⊢
  cases hcheck with
  | totp step hstep => simp [hstep]
  | recovery hstep hcode => simp [hcode]
  | wrong hstep hcode => simp [hstep, hcode]

/-- A comparison that fails finds a wrong code. -/
theorem wrongCode_of_misses (hlocked : isTotpLocked admin now = false)
    (h : misses P now admin typed d = true) : WrongCode P now admin typed d :=
  ⟨hlocked, (misses_iff.1 h).1, (misses_iff.1 h).2⟩

theorem misses_of_wrongCode (h : WrongCode P now admin typed d) :
    misses P now admin typed d = true :=
  misses_iff.2 ⟨h.noStep, h.noCode⟩

/-- The wrong codes of sign-in. -/
theorem wrongGuess_verifySessionTotp {draw : SessionDraw} {sessionId : String} {ttlMs : Nat} :
    wrongGuess P d ⟨now, .verifySessionTotp draw sessionId typed ttlMs⟩ = some adminId ↔
      ∃ s admin, d.sessions.find? (·.idHash == P.sha256Hex sessionId) = some s ∧
        s.adminId = adminId ∧ adminById adminId d = some admin ∧
        (toAdmin d admin).hasSecondFactor = true ∧ WrongCode P now admin typed d := by
  constructor
  · intro h
    obtain ⟨s, hs, h⟩ := Option.bind_eq_some_iff.1 h
    obtain ⟨admin, hadmin, h⟩ := Option.bind_eq_some_iff.1 h
    split at h
    · rename_i hwrong
      cases h
      simp only [Bool.and_eq_true, Bool.not_eq_true'] at hwrong
      exact ⟨s, admin, hs, rfl, hadmin, hwrong.1.1, wrongCode_of_misses hwrong.1.2 hwrong.2⟩
    · cases h
  · rintro ⟨s, admin, hs, rfl, hadmin, hfactor, hwrong⟩
    refine Option.bind_eq_some_iff.2 ⟨s, hs, Option.bind_eq_some_iff.2 ⟨admin, hadmin, ?_⟩⟩
    rw [if_pos]
    simp [hfactor, hwrong.unlocked, misses_of_wrongCode hwrong]

/-- The wrong codes of a confirmation. -/
theorem wrongGuess_verifyConfirmCode :
    wrongGuess P d ⟨now, .verifyConfirmCode id typed⟩ = some adminId ↔
      id = adminId ∧ ∃ admin, adminById adminId d = some admin ∧ WrongCode P now admin typed d := by
  constructor
  · intro h
    obtain ⟨admin, hadmin, h⟩ := Option.bind_eq_some_iff.1 h
    split at h
    · rename_i hwrong
      cases h
      simp only [Bool.and_eq_true, Bool.not_eq_true'] at hwrong
      exact ⟨rfl, admin, hadmin, wrongCode_of_misses hwrong.1 hwrong.2⟩
    · cases h
  · rintro ⟨rfl, admin, hadmin, hwrong⟩
    refine Option.bind_eq_some_iff.2 ⟨admin, hadmin, ?_⟩
    rw [if_pos]
    simp [hwrong.unlocked, misses_of_wrongCode hwrong]

/-- A wrong code at sign-in is counted, or is the tenth. -/
theorem verifySessionTotp_wrong {draw : SessionDraw} {sessionId : String} {ttlMs : Nat}
    {s : SessionRow} (hs : d.sessions.find? (·.idHash == P.sha256Hex sessionId) = some s)
    (hadmin : adminById s.adminId d = some admin)
    (hfactor : (toAdmin d admin).hasSecondFactor = true) (hwrong : WrongCode P now admin typed d) :
    ∃ result, verifySessionTotp P now draw sessionId typed ttlMs d = .ok result ∧
      (totpAccountLockThreshold ≤ admin.totpFailedCount + 1 ∧ result.2 = lockAccount now admin d ∨
        admin.totpFailedCount + 1 < totpAccountLockThreshold ∧
          (maxTotpAttempts ≤ s.totpAttempts + 1 ∧
              result.2 = deletePanelSessions (fun x => x.idHash == P.sha256Hex sessionId)
                (countFailure admin d) ∨
            s.totpAttempts + 1 < maxTotpAttempts ∧
              result.2 = updateSession (P.sha256Hex sessionId) (fun x => { x with
                totpAttempts := s.totpAttempts + 1 }) (countFailure admin d))) := by
  have hcheck : checkFactor P now admin typed d = (none, d) := by
    have hcases := checked (P := P) now admin typed d
    generalize checkFactor P now admin typed d = answer at hcases ⊢
    cases hcases with
    | totp step hstep => rw [hwrong.noStep] at hstep; cases hstep
    | recovery hstep hcode => exact absurd hcode hwrong.noCode
    | wrong hstep hcode => rfl
  simp only [verifySessionTotp, hs, hadmin, hfactor, hwrong.unlocked, hcheck, Bool.not_true,
    Bool.false_eq_true, if_false]
  rcases recordTotpFailure_cases admin now d with ⟨hmax, hr⟩ | ⟨hmax, hr⟩
  · rw [hr]
    exact ⟨_, rfl, .inl ⟨hmax, rfl⟩⟩
  · rw [hr]
    simp only []
    by_cases hover : maxTotpAttempts ≤ s.totpAttempts + 1
    · rw [if_pos hover]
      exact ⟨_, rfl, .inr ⟨hmax, .inl ⟨hover, rfl⟩⟩⟩
    · rw [if_neg hover]
      exact ⟨_, rfl, .inr ⟨hmax, .inr ⟨not_le.1 hover, rfl⟩⟩⟩

/-! ## One call -/

theorem tally_completed {account : Admin} {used : SecondFactor} {draw : SessionDraw}
    {pending : String} {ttlMs : Nat} (hne : account.id ≠ adminId)
    (hdone : completeSecondFactor P now draw pending account ttlMs used d = .ok d') :
    tally adminId d' = tally adminId d := by
  obtain ⟨hd', -⟩ := completeSecondFactor_ok hdone
  have hrows : d'.admins = (forgetFailures account.id d).admins := by
    rw [hd']
    rfl
  exact (tally_of_admins hrows adminId).trans (tally_updateAdmin_of_ne (fun _ => by rfl) hne d)

theorem tally_forceDisableTotp {keep : Option String} (hne : id ≠ adminId) :
    tally adminId (forceDisableTotp P id keep d) = tally adminId d := by
  exact (tally_of_admins (forceDisableTotp_admins id keep d) adminId).trans
    (tally_updateAdmin_of_ne (fun _ => by rfl) hne d)

theorem tally_checked {factor : Option SecondFactor}
    (h : Checked P now admin typed d (factor, d')) : tally adminId d' = tally adminId d := by
  cases h with
  | totp n hn =>
      exact tally_updateAdmin (fun _ => by rfl) (fun _ => ⟨by rfl, by rfl⟩) adminId admin.id d
  | recovery hn hcode => exact tally_of_admins rfl adminId
  | wrong hn hcode => rfl

/-- What sign-in answers when it does not throw. -/
theorem step_verifySessionTotp {draw : SessionDraw} {sessionId : String} {ttlMs : Nat}
    {result : TotpLoginResult × AccountDb}
    (h : verifySessionTotp P now draw sessionId typed ttlMs d = .ok result) :
    step P d ⟨now, .verifySessionTotp draw sessionId typed ttlMs⟩ = (result.2, .login result.1) := by
  show orFailed d (verifySessionTotp P now draw sessionId typed ttlMs d) .login = _
  rw [h]
  rfl

theorem tally_verifySessionTotp (draw : SessionDraw) (sessionId typed : String) (ttlMs : Nat)
    (now : Int) :
    Tally P adminId d ⟨now, .verifySessionTotp draw sessionId typed ttlMs⟩
      (step P d ⟨now, .verifySessionTotp draw sessionId typed ttlMs⟩).1 := by
  by_cases hguess :
      wrongGuess P d ⟨now, .verifySessionTotp draw sessionId typed ttlMs⟩ = some adminId
  · obtain ⟨s, admin, hs, rfl, hadmin, hfactor, hwrong⟩ := wrongGuess_verifySessionTotp.1 hguess
    obtain ⟨result, hresult, hcounted⟩ := verifySessionTotp_wrong (P := P) (d := d) (s := s) hs
        hadmin hfactor hwrong
    rw [step_verifySessionTotp hresult]
    rcases hcounted with ⟨-, h⟩ | ⟨hmax, ⟨-, h⟩ | ⟨-, h⟩⟩
    · rw [h]
      exact .lockout hguess (tally_of_admin hadmin) hwrong.unlocked (tally_lockAccount hadmin now)
    · rw [h]
      exact .counted hguess (tally_of_admin hadmin) hwrong.unlocked hmax
        ((tally_of_admins rfl _).trans (tally_countFailure hadmin))
    · rw [h]
      exact .counted hguess (tally_of_admin hadmin) hwrong.unlocked hmax
        ((tally_of_admins rfl _).trans (tally_countFailure hadmin))
  · cases hresult : verifySessionTotp P now draw sessionId typed ttlMs d with
    | error e =>
        have hpost : (step P d ⟨now, .verifySessionTotp draw sessionId typed ttlMs⟩).1 = d := by
          show (orFailed d (verifySessionTotp P now draw sessionId typed ttlMs d) .login).1 = d
          rw [hresult]
          rfl
        exact .same hguess (by rw [hpost])
    | ok result =>
        have hother : ∀ {s : SessionRow} {admin : AdminRow},
            d.sessions.find? (·.idHash == P.sha256Hex sessionId) = some s →
            adminById s.adminId d = some admin → (toAdmin d admin).hasSecondFactor = true →
            WrongCode P now admin typed d → admin.id ≠ adminId := by
          intro s admin hs hadmin hfactor hwrong hid
          have hs' : s.adminId = adminId := (adminById_id hadmin).symm.trans hid
          exact hguess (wrongGuess_verifySessionTotp.2
            ⟨s, admin, hs, hs', hs' ▸ hadmin, hfactor, hwrong⟩)
        have hpost := step_verifySessionTotp hresult
        rw [hpost]
        cases sessionTotp hresult with
        | nothing result hno => exact .same hguess rfl
        | @passed s admin factor d₁ d₂ hs hadmin hfactor hlocked hcheck hdone =>
            by_cases hid : admin.id = adminId
            · refine .interrupted (.inl ⟨typed, ?_, ?_⟩)
              · show ((d.sessions.find? (·.idHash == P.sha256Hex sessionId)).map
                  fun s => (s.adminId, typed)) = some (adminId, typed)
                rw [hs, Option.map_some, ← adminById_id hadmin, hid]
              · rw [History.fire_output, hpost]
                rfl
            · refine .same hguess ?_
              rw [tally_completed hid hdone, tally_checked hcheck]
        | lockout hs hadmin hfactor hwrong =>
            exact .same hguess (tally_lockAccount_of_ne (hother hs hadmin hfactor hwrong))
        | sessionOver hs hadmin hfactor hwrong =>
            exact .same hguess (tally_countFailure_of_ne (hother hs hadmin hfactor hwrong))
        | wrong hs hadmin hfactor hwrong =>
            exact .same hguess (tally_countFailure_of_ne (hother hs hadmin hfactor hwrong))

theorem tally_verifyConfirmCode (id typed : String) (now : Int) :
    Tally P adminId d ⟨now, .verifyConfirmCode id typed⟩
      (step P d ⟨now, .verifyConfirmCode id typed⟩).1 := by
  have hpost : step P d ⟨now, .verifyConfirmCode id typed⟩ =
      ((verifyConfirmCode P now id typed d).2, .confirm (verifyConfirmCode P now id typed d).1) := rfl
  -- A code that is accepted ends the guessing, or is for another account.
  have hproved : (verifyConfirmCode P now id typed d).1 = .ok →
      tally adminId (verifyConfirmCode P now id typed d).2 = tally adminId d ∨ id = adminId →
      wrongGuess P d ⟨now, .verifyConfirmCode id typed⟩ ≠ some adminId →
      Tally P adminId d ⟨now, .verifyConfirmCode id typed⟩ (verifyConfirmCode P now id typed d).2 := by
    rintro hok (hsame | rfl) hno
    · exact .same hno hsame
    · refine .interrupted (.inl ⟨typed, rfl, ?_⟩)
      rw [History.fire_output, hpost, hok]
      rfl
  rw [hpost]
  have h := confirmCode_spec (P := P) now id typed d
  generalize verifyConfirmCode P now id typed d = answer at h hproved ⊢
  have hfits : ∀ {admin : AdminRow}, adminById id d = some admin →
      ¬ WrongCode P now admin typed d →
        wrongGuess P d ⟨now, .verifyConfirmCode id typed⟩ ≠ some adminId := by
    intro admin hadmin hno hguess
    obtain ⟨rfl, found, hfound, hwrong⟩ := wrongGuess_verifyConfirmCode.1 hguess
    cases Option.some.inj (hadmin.symm.trans hfound)
    exact hno hwrong
  cases h with
  | missing hadmin =>
      refine .same (fun hguess => ?_) rfl
      obtain ⟨rfl, found, hfound, -⟩ := wrongGuess_verifyConfirmCode.1 hguess
      rw [hadmin] at hfound
      cases hfound
  | locked hadmin hlocked =>
      refine .same (hfits hadmin fun hwrong => ?_) rfl
      rw [hwrong.unlocked] at hlocked
      cases hlocked
  | @totp admin n hadmin hlocked hn =>
      refine hproved rfl ?_ (hfits hadmin fun hwrong => ?_)
      · by_cases hid : id = adminId
        · exact .inr hid
        · exact .inl (tally_updateAdmin_of_ne (fun _ => by rfl) hid d)
      · rw [hwrong.noStep] at hn
        cases hn
  | recovery hadmin hlocked hn hcode =>
      refine hproved rfl (.inl (tally_of_admins rfl adminId)) (hfits hadmin fun hwrong => ?_)
      exact hwrong.noCode (adminById_id hadmin ▸ hcode)
  | @lockout admin hadmin hwrong hmax =>
      by_cases hid : id = adminId
      · subst hid
        exact .lockout (wrongGuess_verifyConfirmCode.2 ⟨rfl, admin, hadmin, hwrong⟩)
          (tally_of_admin hadmin) hwrong.unlocked (tally_lockAccount hadmin now)
      · refine .same (fun hguess => hid (wrongGuess_verifyConfirmCode.1 hguess).1) ?_
        exact tally_lockAccount_of_ne (adminById_id hadmin ▸ hid)
  | @wrong admin hadmin hwrong hmax =>
      by_cases hid : id = adminId
      · subst hid
        exact .counted (wrongGuess_verifyConfirmCode.2 ⟨rfl, admin, hadmin, hwrong⟩)
          (tally_of_admin hadmin) hwrong.unlocked hmax (tally_countFailure hadmin)
      · refine .same (fun hguess => hid (wrongGuess_verifyConfirmCode.1 hguess).1) ?_
        exact tally_countFailure_of_ne (adminById_id hadmin ▸ hid)

theorem tally_regenerateRecoveryCodes (codes : List String) (id typed : String) (now : Int)
    (hg : Guarded P d ⟨now, .regenerateRecoveryCodes codes id typed⟩) :
    Tally P adminId d ⟨now, .regenerateRecoveryCodes codes id typed⟩
      (regenerateRecoveryCodes P now codes id typed d).2 := by
  have hno : wrongGuess P d ⟨now, .regenerateRecoveryCodes codes id typed⟩ ≠ some adminId := by
    rw [(hg id typed rfl).1]
    exact nofun
  rcases regenerateRecoveryCodes_cases (P := P) now codes id typed d with
      h | ⟨admin, n, hadmin, hn, h⟩
  · rw [h]
    exact .same hno rfl
  · rw [h]
    refine .same hno ((tally_of_admins rfl adminId).trans ?_)
    exact tally_updateAdmin (fun _ => by rfl) (fun _ => ⟨by rfl, by rfl⟩) adminId id d

theorem tally_disableTotp (id typed keep : String) (now : Int)
    (hg : Guarded P d ⟨now, .disableTotp id typed keep⟩) :
    Tally P adminId d ⟨now, .disableTotp id typed keep⟩ (disableTotp P now id typed keep d).2 := by
  have hno : wrongGuess P d ⟨now, .disableTotp id typed keep⟩ ≠ some adminId := by
    rw [(hg id typed rfl).1]
    exact nofun
  by_cases hid : id = adminId
  · subst hid
    rcases hdone : (disableTotp P now id typed keep d).1 with _ | _
    · rcases disableTotp_cases (P := P) now id typed keep d with
          h | ⟨_, -, -, ⟨_, -, h⟩ | ⟨-, -, h⟩⟩
      · rw [h]
        exact .same hno rfl
      · rw [h] at hdone
        cases hdone
      · rw [h] at hdone
        cases hdone
    · refine .interrupted (.inl ⟨typed, rfl, ?_⟩)
      show isAccepted (.disabled (disableTotp P now id typed keep d).1) = true
      rw [hdone]
      rfl
  · refine .same hno ?_
    rcases disableTotp_cases (P := P) now id typed keep d with h | ⟨_, -, -, ⟨_, -, h⟩ | ⟨-, -, h⟩⟩
    · rw [h]
    · rw [h]
      exact tally_forceDisableTotp hid
    · rw [h]
      exact (tally_forceDisableTotp hid).trans (tally_of_admins rfl adminId)

theorem tally_createAdmin (id salt : String) (input : CreateAdminInput) (now : Int) :
    Tally P adminId d ⟨now, .createAdmin id salt input⟩
      (step P d ⟨now, .createAdmin id salt input⟩).1 := by
  refine orFailed_keeps (.same nofun rfl) fun _ d' h => ?_
  obtain ⟨hd', hfree⟩ := createAdmin_ok h
  have hrows : d'.admins = d.admins ++ [newAdminRow P now id salt input] := by rw [hd']
  have hfound := adminById_of_append hrows adminId
  by_cases hid : (newAdminRow P now id salt input).id = adminId
  · have hnone : adminById adminId d = none := by
      refine List.find?_eq_none.2 fun a ha heq => hfree a ha ?_
      exact (beq_iff_eq.1 heq).trans hid.symm
    refine .created nofun ?_ ?_
    · rw [tally, hnone, Option.map_none]
    · rw [tally, hfound, hnone, Option.none_or, if_pos (beq_iff_eq.2 hid), Option.map_some]
      rfl
  · refine .same nofun ?_
    rw [tally, hfound, if_neg (fun heq => hid (beq_iff_eq.1 heq)), Option.or_none, ← tally]

theorem tally_deleteAdmin (id : String) (now : Int) :
    Tally P adminId d ⟨now, .deleteAdmin id⟩ (deleteAdmin id d) := by
  by_cases hid : id = adminId
  · exact .interrupted (.inr (.inr (.inr (by rw [← hid]; rfl))))
  · refine .same nofun ?_
    have hfound : adminById adminId (deleteAdmin id d) = adminById adminId d := by
      refine (Table.find?_delete fun a ha => ?_ : (Table.delete _ d.admins).find? _ = _)
      rw [beq_iff_eq] at ha
      simpa [ha] using Ne.symm hid
    rw [tally, hfound, ← tally]

/-- What a guarded call does to the counter and the lockout of an account. -/
theorem tally_step (adminId : String) (hg : Guarded P d c) :
    Tally P adminId d c (step P d c).1 := by
  obtain ⟨now, op⟩ := c
  cases op with
  | createAdmin id salt input => exact tally_createAdmin id salt input now
  | deleteAdmin id => exact tally_deleteAdmin id now
  | resetSecondFactors id =>
      by_cases hid : id = adminId
      · exact .interrupted (.inr (.inr (.inl (by rw [← hid]; rfl))))
      · exact .same nofun ((tally_forceDisableTotp hid).trans (tally_of_admins rfl adminId))
  | signIn draw username password ttlMs info =>
      refine orFailed_keeps (.same nofun rfl) fun _ _ h => ?_
      obtain ⟨_, -, hd'⟩ := signIn_ok h
      obtain ⟨rfl, -⟩ := insertSession_ok hd'
      exact .same nofun (tally_of_admins rfl adminId)
  | endSessions p => exact .same nofun (tally_of_admins rfl adminId)
  | verifySessionTotp draw sessionId typed ttlMs =>
      exact tally_verifySessionTotp draw sessionId typed ttlMs now
  | verifyConfirmCode id typed => exact tally_verifyConfirmCode id typed now
  | beginTotpEnrolment secret id =>
      refine orFailed_keeps (.same nofun rfl) fun _ _ h => ?_
      obtain ⟨d₂, hd₂, he⟩ := Fallible.map_eq_ok.1 h
      cases he
      obtain ⟨admin, -, -, rfl⟩ := beginTotpEnrolment_ok hd₂
      exact .same nofun
        (tally_updateAdmin (fun _ => by rfl) (fun _ => ⟨by rfl, by rfl⟩) adminId id d)
  | confirmTotpEnrolment codes id typed =>
      show Tally P adminId d _ (confirmTotpEnrolment P now codes id typed d).2
      rcases confirmTotpEnrolment_cases (P := P) now codes id typed d with
          h | ⟨_, _, _, -, -, -, -, h⟩
      · rw [h]
        exact .same nofun rfl
      · rw [h]
        refine .same nofun ((tally_of_admins rfl adminId).trans ?_)
        exact tally_updateAdmin (fun _ => by rfl) (fun _ => ⟨by rfl, by rfl⟩) adminId id d
  | regenerateRecoveryCodes codes id typed => exact tally_regenerateRecoveryCodes codes id typed now hg
  | regenerateRecoveryCodesConfirmed codes id =>
      show Tally P adminId d _ (regenerateRecoveryCodesConfirmed P codes id d).2
      rcases regenerateRecoveryCodesConfirmed_cases (P := P) codes id d with h | ⟨_, -, -, h⟩
      · rw [h]
        exact .same nofun rfl
      · rw [h]
        exact .same nofun (tally_of_admins rfl adminId)
  | disableTotp id typed keep => exact tally_disableTotp id typed keep now hg
  | beginCeremony challenge sessionId purpose => exact .same nofun (tally_of_admins rfl adminId)
  | registerPasskey id input rp =>
      refine orFailed_keeps (.same nofun rfl) fun _ _ h => ?_
      obtain ⟨_, _, -, -, -, -, rfl⟩ := registerPasskey_ok h
      exact .same nofun (tally_of_admins rfl adminId)
  | verifyPasskeyLogin input rp login =>
      have hpost : step P d ⟨now, .verifyPasskeyLogin input rp login⟩ =
          answered (verifyPasskeyLogin P now login.draw (login.assertion input) rp login.admin
            login.ttlMs d) .asserted := rfl
      rcases verifyPasskeyLogin_cases (P := P) now login.draw (login.assertion input) rp login.admin
          login.ttlMs d with ⟨e, h⟩ | ⟨e, h⟩ | ⟨_, _, _, d', -, -, hdone, h⟩
      · rw [hpost, h]
        exact .same nofun (tally_of_admins rfl adminId)
      · rw [hpost, h]
        exact .same nofun rfl
      · by_cases hid : login.admin.id = adminId
        · refine .interrupted (.inr (.inl ⟨congrArg some hid, ?_⟩))
          rw [History.fire_output, hpost, h]
          rfl
        · rw [hpost, h]
          exact .same nofun ((tally_completed hid hdone).trans (tally_of_admins rfl adminId))
  | verifyPasskeyConfirm input rp =>
      show Tally P adminId d _ (checkAssertion P now .confirm input rp d).2
      rcases checkAssertion_cases (P := P) now .confirm input rp d with ⟨e, h⟩ | ⟨_, _, _, -, -, h⟩
      · rw [h]
        exact .same nofun (tally_of_admins rfl adminId)
      · rw [h]
        exact .same nofun (tally_of_admins rfl adminId)
  | removePasskey id passkeyId keep =>
      show Tally P adminId d _ (removePasskey P id passkeyId keep d).2
      rcases removePasskey_cases (P := P) id passkeyId keep d with h | ⟨pk, -, -, -, h⟩
      · rw [h]
        exact .same nofun rfl
      · rw [h]
        exact .same nofun (tally_of_admins (dropRecoveryCodesIfUnused_admins _ _) adminId)

/-! ## The attempts of a pending session -/

/-- Every pending session was there, with the attempts it has. -/
def Keeps (d d' : AccountDb) : Prop :=
  ∀ s' ∈ d'.sessions, s'.totpVerified = false → ∃ s ∈ d.sessions,
    s.idHash = s'.idHash ∧ s.totpVerified = false ∧ s.totpAttempts = s'.totpAttempts

theorem Keeps.of_sessions (h : d'.sessions = d.sessions) : Keeps d d' := by
  intro s' hs' hpending
  rw [h] at hs'
  exact ⟨s', hs', rfl, hpending, rfl⟩

theorem Keeps.trans {d₁ : AccountDb} (h : Keeps d d₁) (h' : Keeps d₁ d') : Keeps d d' := by
  intro s' hs' hpending
  obtain ⟨s₁, hs₁, hid₁, hpending₁, hattempts₁⟩ := h' s' hs' hpending
  obtain ⟨s, hs, hid, hpending, hattempts⟩ := h s₁ hs₁ hpending₁
  exact ⟨s, hs, hid.trans hid₁, hpending, hattempts.trans hattempts₁⟩

/-- An `UPDATE` that counts nothing and makes nothing pending. -/
theorem Keeps.of_update {p : SessionRow → Bool} {f : SessionRow → SessionRow}
    (h : d'.sessions = Table.update p f d.sessions)
    (hf : ∀ s, (f s).idHash = s.idHash ∧ (f s).totpAttempts = s.totpAttempts ∧
      ((f s).totpVerified = false → s.totpVerified = false)) : Keeps d d' := by
  intro s' hs' hpending
  rw [h] at hs'
  obtain ⟨s, hs, rfl⟩ := Table.mem_update.1 hs'
  split at hpending
  · rename_i hp
    rw [if_pos hp]
    exact ⟨s, hs, (hf s).1.symm, (hf s).2.2 hpending, (hf s).2.1.symm⟩
  · rename_i hp
    rw [if_neg hp]
    exact ⟨s, hs, rfl, hpending, rfl⟩

theorem keeps_deletePanelSessions (p : SessionRow → Bool) (d : AccountDb) :
    Keeps d (deletePanelSessions p d) := by
  intro s' hs' hpending
  exact ⟨s', (Table.mem_delete.1 hs').1, rfl, hpending, rfl⟩

theorem keeps_dropChallenge (idHash : String) (d : AccountDb) : Keeps d (dropChallenge idHash d) :=
  .of_update rfl fun _ => ⟨rfl, rfl, id⟩

theorem keeps_checked {factor : Option SecondFactor}
    (h : Checked P now admin typed d (factor, d')) : Keeps d d' := by
  cases h with
  | totp n hn => exact .of_sessions rfl
  | recovery hn hcode => exact .of_sessions rfl
  | wrong hn hcode => exact .of_sessions rfl

theorem keeps_completed {account : Admin} {used : SecondFactor} {draw : SessionDraw}
    {pending : String} {ttlMs : Nat}
    (hdone : completeSecondFactor P now draw pending account ttlMs used d = .ok d') : Keeps d d' := by
  obtain ⟨rfl, -⟩ := completeSecondFactor_ok hdone
  intro s' hs' hpending
  rcases List.mem_append.1 hs' with hs' | hs'
  · exact ⟨s', (Table.mem_delete.1 hs').1, rfl, hpending, rfl⟩
  · rw [List.mem_singleton] at hs'
    subst hs'
    cases hpending

theorem keeps_forceDisableTotp {keep : Option String} : Keeps d (forceDisableTotp P id keep d) := by
  have hcleared : Keeps d (dropRecoveryCodesIfUnused id (clearTotp id d)) :=
    .of_sessions (dropRecoveryCodesIfUnused_sessions _ _)
  cases keep with
  | none => exact hcleared.trans (keeps_deletePanelSessions _ _)
  | some sessionId => exact hcleared.trans (keeps_deletePanelSessions _ _)

/-- Where a pending session comes from. -/
inductive Attempts (P : Platform) (d : AccountDb) (c : Call) (s' : SessionRow) : Prop
  | kept {s : SessionRow} : s ∈ d.sessions → s.idHash = s'.idHash → s.totpVerified = false →
      s.totpAttempts = s'.totpAttempts → pendingGuess P d c ≠ some s'.idHash → Attempts P d c s'
  /-- A wrong code is typed in it. -/
  | counted {s : SessionRow} : s ∈ d.sessions → s.idHash = s'.idHash → s.totpVerified = false →
      s'.totpAttempts = s.totpAttempts + 1 → s'.totpAttempts < maxTotpAttempts →
      Attempts P d c s'
  | opened : drawnSession P c = some s'.idHash → s'.totpAttempts = 0 →
      pendingGuess P d c = none → Attempts P d c s'

/-- A call that finds no wrong code in a pending session. -/
theorem Keeps.attempts (h : Keeps d d') (hno : pendingGuess P d c = none) {s' : SessionRow}
    (hs' : s' ∈ d'.sessions) (hpending : s'.totpVerified = false) : Attempts P d c s' := by
  obtain ⟨s, hs, hid, hpending, hattempts⟩ := h s' hs' hpending
  exact .kept hs hid hpending hattempts (by rw [hno]; exact nofun)

theorem mem_of_find {sessionId : String} {s : SessionRow}
    (h : d.sessions.find? (·.idHash == P.sha256Hex sessionId) = some s) :
    s ∈ d.sessions ∧ s.idHash = P.sha256Hex sessionId := by
  have hfound := List.find?_some h
  exact ⟨List.mem_of_find?_eq_some h, beq_iff_eq.1 hfound⟩

theorem pendingGuess_verifySessionTotp {draw : SessionDraw} {sessionId idHash : String}
    {ttlMs : Nat} (h : pendingGuess P d ⟨now, .verifySessionTotp draw sessionId typed ttlMs⟩ =
      some idHash) : idHash = P.sha256Hex sessionId ∧
        (wrongGuess P d ⟨now, .verifySessionTotp draw sessionId typed ttlMs⟩).isSome = true ∧
        ∃ s ∈ d.sessions, s.idHash = idHash ∧ s.totpVerified = false := by
  unfold pendingGuess at h
  simp only [] at h
  split at h
  · rename_i hguess
    cases h
    rw [Bool.and_eq_true] at hguess
    obtain ⟨s, hs, hfound⟩ := List.any_eq_true.1 hguess.2
    simp only [Bool.and_eq_true, beq_iff_eq, Bool.not_eq_true'] at hfound
    exact ⟨rfl, hguess.1, s, hs, hfound.1, hfound.2⟩
  · cases h

/-- A wrong code at sign-in is counted in its session, or ends it. -/
theorem attempts_wrong {draw : SessionDraw} {sessionId : String} {ttlMs : Nat} {s : SessionRow}
    (hn : (d.sessions.map (·.idHash)).Nodup)
    (hs : d.sessions.find? (·.idHash == P.sha256Hex sessionId) = some s)
    (hadmin : adminById s.adminId d = some admin)
    (hfactor : (toAdmin d admin).hasSecondFactor = true) (hwrong : WrongCode P now admin typed d)
    {s' : SessionRow}
    (hs' : s' ∈ (step P d ⟨now, .verifySessionTotp draw sessionId typed ttlMs⟩).1.sessions)
    (hpending : s'.totpVerified = false) :
    Attempts P d ⟨now, .verifySessionTotp draw sessionId typed ttlMs⟩ s' := by
  obtain ⟨hmem, hid⟩ := mem_of_find hs
  obtain ⟨result, hresult, hcounted⟩ := verifySessionTotp_wrong (P := P) (d := d) (s := s) hs hadmin
      hfactor hwrong
  rw [step_verifySessionTotp hresult] at hs'
  -- Another session is left alone.
  have hkept : s' ∈ d.sessions → s' ≠ s →
      Attempts P d ⟨now, .verifySessionTotp draw sessionId typed ttlMs⟩ s' := by
    intro hold hne
    refine .kept hold rfl hpending rfl fun hguess => hne ?_
    have hsame := (pendingGuess_verifySessionTotp hguess).1
    exact Table.eq_of_key hn hold hmem (hsame.trans hid.symm)
  rcases hcounted with ⟨-, h⟩ | ⟨-, ⟨-, h⟩ | ⟨hmax, h⟩⟩
  · rw [h] at hs'
    obtain ⟨hold, hkeep⟩ := Table.mem_delete.1 hs'
    refine hkept hold ?_
    rintro rfl
    simp [adminById_id hadmin, hpending] at hkeep
  · rw [h] at hs'
    obtain ⟨hold, hkeep⟩ := Table.mem_delete.1 hs'
    refine hkept hold ?_
    rintro rfl
    simp [hid] at hkeep
  · rw [h] at hs'
    obtain ⟨x, hx, rfl⟩ := Table.mem_update.1 hs'
    by_cases hthis : x.idHash = P.sha256Hex sessionId
    · rw [if_pos (beq_iff_eq.2 hthis)] at hpending ⊢
      cases Table.eq_of_key hn hx hmem (hthis.trans hid.symm)
      exact .counted hmem rfl hpending rfl hmax
    · have hsame : (if (x.idHash == P.sha256Hex sessionId) = true then
          { x with totpAttempts := s.totpAttempts + 1 } else x) = x :=
        if_neg fun heq => hthis (beq_iff_eq.1 heq)
      rw [hsame] at hkept ⊢
      exact hkept hx fun heq => hthis (heq ▸ hid)

theorem attempts_verifySessionTotp {draw : SessionDraw} {sessionId : String} {ttlMs : Nat}
    (hn : (d.sessions.map (·.idHash)).Nodup) {s' : SessionRow}
    (hs' : s' ∈ (step P d ⟨now, .verifySessionTotp draw sessionId typed ttlMs⟩).1.sessions)
    (hpending : s'.totpVerified = false) :
    Attempts P d ⟨now, .verifySessionTotp draw sessionId typed ttlMs⟩ s' := by
  cases hresult : verifySessionTotp P now draw sessionId typed ttlMs d with
  | error e =>
      have hpost : (step P d ⟨now, .verifySessionTotp draw sessionId typed ttlMs⟩).1 = d := by
        show (orFailed d (verifySessionTotp P now draw sessionId typed ttlMs d) .login).1 = d
        rw [hresult]
        rfl
      rw [hpost] at hs'
      refine .kept hs' rfl hpending rfl fun hguess => ?_
      obtain ⟨-, hwrong, -⟩ := pendingGuess_verifySessionTotp hguess
      obtain ⟨adminId, hwrong⟩ := Option.isSome_iff_exists.1 hwrong
      obtain ⟨s, admin, hs, rfl, hadmin, hfactor, hwrong⟩ := wrongGuess_verifySessionTotp.1 hwrong
      obtain ⟨_, hok, -⟩ := verifySessionTotp_wrong (P := P) (d := d) (s := s) hs hadmin hfactor
          hwrong
      rw [hresult] at hok
      cases hok
  | ok result =>
      by_cases hguess :
          (wrongGuess P d ⟨now, .verifySessionTotp draw sessionId typed ttlMs⟩).isSome = true
      · obtain ⟨adminId, hguess⟩ := Option.isSome_iff_exists.1 hguess
        obtain ⟨s, admin, hs, rfl, hadmin, hfactor, hwrong⟩ := wrongGuess_verifySessionTotp.1 hguess
        exact attempts_wrong hn hs hadmin hfactor hwrong hs' hpending
      · have hno : pendingGuess P d ⟨now, .verifySessionTotp draw sessionId typed ttlMs⟩ = none := by
          rw [Option.eq_none_iff_forall_ne_some]
          exact fun _ h => hguess (pendingGuess_verifySessionTotp h).2.1
        have hright : ∀ {s : SessionRow} {admin : AdminRow},
            d.sessions.find? (·.idHash == P.sha256Hex sessionId) = some s →
            adminById s.adminId d = some admin → (toAdmin d admin).hasSecondFactor = true →
            ¬ WrongCode P now admin typed d := by
          intro s admin hs hadmin hfactor hwrong
          rw [wrongGuess_verifySessionTotp.2 ⟨s, admin, hs, rfl, hadmin, hfactor, hwrong⟩] at hguess
          exact hguess rfl
        rw [step_verifySessionTotp hresult] at hs'
        cases sessionTotp hresult with
        | nothing result hresult => exact Keeps.attempts (.of_sessions rfl) hno hs' hpending
        | passed hs hadmin hfactor hlocked hcheck hdone =>
            exact Keeps.attempts ((keeps_checked hcheck).trans (keeps_completed hdone)) hno hs'
              hpending
        | lockout hs hadmin hfactor hwrong => exact absurd hwrong (hright hs hadmin hfactor)
        | sessionOver hs hadmin hfactor hwrong => exact absurd hwrong (hright hs hadmin hfactor)
        | wrong hs hadmin hfactor hwrong => exact absurd hwrong (hright hs hadmin hfactor)

theorem keeps_verifyConfirmCode : Keeps d (verifyConfirmCode P now id typed d).2 := by
  have h := confirmCode_spec (P := P) now id typed d
  generalize verifyConfirmCode P now id typed d = answer at h ⊢
  cases h with
  | missing => exact .of_sessions rfl
  | locked => exact .of_sessions rfl
  | totp => exact .of_sessions rfl
  | recovery => exact .of_sessions rfl
  | @lockout admin => exact Keeps.trans (.of_sessions rfl) (keeps_deletePanelSessions _ _)
  | wrong => exact .of_sessions rfl

/-- A sign-in may open a pending session. -/
theorem attempts_signIn {draw : SessionDraw} {username password : String} {ttlMs : Nat}
    {info : SessionMeta} {s' : SessionRow}
    (hs' : s' ∈ (step P d ⟨now, .signIn draw username password ttlMs info⟩).1.sessions)
    (hpending : s'.totpVerified = false) :
    Attempts P d ⟨now, .signIn draw username password ttlMs info⟩ s' := by
  cases hresult : signIn P now draw username password ttlMs info d with
  | error e =>
      have hpost : (step P d ⟨now, .signIn draw username password ttlMs info⟩).1 = d := by
        show (orFailed d (signIn P now draw username password ttlMs info d) fun _ => .done).1 = d
        rw [hresult]
        rfl
      rw [hpost] at hs'
      exact (Keeps.of_sessions rfl).attempts rfl hs' hpending
  | ok result =>
      have hpost : (step P d ⟨now, .signIn draw username password ttlMs info⟩).1 = result.2 := by
        show (orFailed d (signIn P now draw username password ttlMs info d) fun _ => .done).1 = _
        rw [hresult]
        rfl
      obtain ⟨account, -, hinsert⟩ := signIn_ok hresult
      rw [hpost, (insertSession_ok hinsert).1] at hs'
      rcases List.mem_append.1 hs' with hold | hnew
      · exact (Keeps.of_sessions rfl).attempts rfl hold hpending
      · rw [List.mem_singleton] at hnew
        subst hnew
        exact .opened rfl rfl rfl

/-- Only sign-in opens a pending session, and only a wrong code at sign-in counts in one. -/
theorem attempts_step (hn : (d.sessions.map (·.idHash)).Nodup) {s' : SessionRow}
    (hs' : s' ∈ (step P d c).1.sessions) (hpending : s'.totpVerified = false) :
    Attempts P d c s' := by
  obtain ⟨now, op⟩ := c
  cases op with
  | createAdmin id salt input =>
      refine Keeps.attempts ?_ rfl hs' hpending
      refine orFailed_keeps (.of_sessions rfl) fun _ _ h => ?_
      obtain ⟨rfl, -⟩ := createAdmin_ok h
      exact .of_sessions rfl
  | deleteAdmin id =>
      refine Keeps.attempts ?_ rfl hs' hpending
      exact (keeps_deletePanelSessions _ d).trans (.of_sessions rfl)
  | resetSecondFactors id =>
      refine Keeps.attempts ?_ rfl hs' hpending
      exact Keeps.trans (.of_sessions rfl) keeps_forceDisableTotp
  | signIn draw username password ttlMs info => exact attempts_signIn hs' hpending
  | endSessions p => exact (keeps_deletePanelSessions p d).attempts rfl hs' hpending
  | verifySessionTotp draw sessionId typed ttlMs => exact attempts_verifySessionTotp hn hs' hpending
  | verifyConfirmCode id typed => exact keeps_verifyConfirmCode.attempts rfl hs' hpending
  | beginTotpEnrolment secret id =>
      refine Keeps.attempts ?_ rfl hs' hpending
      refine orFailed_keeps (.of_sessions rfl) fun _ _ h => ?_
      obtain ⟨d₂, hd₂, he⟩ := Fallible.map_eq_ok.1 h
      cases he
      obtain ⟨admin, -, -, rfl⟩ := beginTotpEnrolment_ok hd₂
      exact .of_sessions rfl
  | confirmTotpEnrolment codes id typed =>
      refine Keeps.attempts ?_ rfl hs' hpending
      show Keeps d (confirmTotpEnrolment P now codes id typed d).2
      rcases confirmTotpEnrolment_cases (P := P) now codes id typed d with
          h | ⟨_, _, _, -, -, -, -, h⟩
      · rw [h]
        exact .of_sessions rfl
      · rw [h]
        exact .of_update rfl fun _ => ⟨rfl, rfl, nofun⟩
  | regenerateRecoveryCodes codes id typed =>
      refine Keeps.attempts ?_ rfl hs' hpending
      show Keeps d (regenerateRecoveryCodes P now codes id typed d).2
      rcases regenerateRecoveryCodes_cases (P := P) now codes id typed d with h | ⟨_, _, -, -, h⟩
      · rw [h]
        exact .of_sessions rfl
      · rw [h]
        exact .of_sessions rfl
  | regenerateRecoveryCodesConfirmed codes id =>
      refine Keeps.attempts ?_ rfl hs' hpending
      show Keeps d (regenerateRecoveryCodesConfirmed P codes id d).2
      rcases regenerateRecoveryCodesConfirmed_cases (P := P) codes id d with h | ⟨_, -, -, h⟩
      · rw [h]
        exact .of_sessions rfl
      · rw [h]
        exact .of_sessions rfl
  | disableTotp id typed keep =>
      refine Keeps.attempts ?_ rfl hs' hpending
      show Keeps d (disableTotp P now id typed keep d).2
      rcases disableTotp_cases (P := P) now id typed keep d with
          h | ⟨_, -, -, ⟨_, -, h⟩ | ⟨-, -, h⟩⟩
      · rw [h]
        exact .of_sessions rfl
      · rw [h]
        exact keeps_forceDisableTotp
      · rw [h]
        exact Keeps.trans (.of_sessions rfl) keeps_forceDisableTotp
  | beginCeremony challenge sessionId purpose =>
      refine Keeps.attempts ?_ rfl hs' hpending
      exact .of_update rfl fun _ => ⟨rfl, rfl, id⟩
  | registerPasskey id input rp =>
      refine Keeps.attempts ?_ rfl hs' hpending
      refine orFailed_keeps (.of_sessions rfl) fun _ _ h => ?_
      obtain ⟨_, _, -, -, -, -, rfl⟩ := registerPasskey_ok h
      exact (keeps_dropChallenge _ d).trans (.of_update rfl fun _ => ⟨rfl, rfl, nofun⟩)
  | verifyPasskeyLogin input rp login =>
      refine Keeps.attempts ?_ rfl hs' hpending
      show Keeps d
        (verifyPasskeyLogin P now login.draw (login.assertion input) rp login.admin login.ttlMs d).2
      rcases verifyPasskeyLogin_cases (P := P) now login.draw (login.assertion input) rp login.admin
          login.ttlMs d with ⟨e, h⟩ | ⟨e, h⟩ | ⟨_, _, _, d', -, -, hdone, h⟩
      · rw [h]
        exact keeps_dropChallenge _ d
      · rw [h]
        exact .of_sessions rfl
      · rw [h]
        refine .trans ?_ (keeps_completed hdone)
        exact (keeps_dropChallenge _ d).trans (.of_sessions rfl)
  | verifyPasskeyConfirm input rp =>
      refine Keeps.attempts ?_ rfl hs' hpending
      show Keeps d (checkAssertion P now .confirm input rp d).2
      rcases checkAssertion_cases (P := P) now .confirm input rp d with ⟨e, h⟩ | ⟨_, _, _, -, -, h⟩
      · rw [h]
        exact keeps_dropChallenge _ d
      · rw [h]
        exact (keeps_dropChallenge _ d).trans (.of_sessions rfl)
  | removePasskey id passkeyId keep =>
      refine Keeps.attempts ?_ rfl hs' hpending
      show Keeps d (removePasskey P id passkeyId keep d).2
      rcases removePasskey_cases (P := P) id passkeyId keep d with h | ⟨pk, -, -, -, h⟩
      · rw [h]
        exact .of_sessions rfl
      · rw [h]
        refine Keeps.trans (.of_sessions ?_) (keeps_deletePanelSessions _ _)
        exact dropRecoveryCodesIfUnused_sessions _ _

/-- The hashes of the sessions stay distinct. -/
theorem nodup_of_move {drawn : Option String} (hm : SessionsMove drawn d d')
    (hn : (d.sessions.map (·.idHash)).Nodup) : (d'.sessions.map (·.idHash)).Nodup := by
  induction hm with
  | same hrows hbindings => rwa [hrows]
  | update p f hrows hbindings hf =>
      rw [hrows]
      exact Table.nodup_update (fun s => (hf s).idHash) hn
  | delete p hrows hbindings =>
      rw [hrows]
      exact Table.nodup_delete hn
  | append row hfresh hdrawn hblank hrows hbindings =>
      rw [hrows]
      exact Table.nodup_append_row hn hfresh
  | trans h h' ih ih' => exact ih' (ih hn)

theorem nodup_step (hn : (d.sessions.map (·.idHash)).Nodup) (c : Call) :
    ((step P d c).1.sessions.map (·.idHash)).Nodup := by
  obtain ⟨now, op⟩ := c
  by_cases hop : ∃ challenge sessionId purpose, op = .beginCeremony challenge sessionId purpose
  · obtain ⟨challenge, sessionId, purpose, rfl⟩ := hop
    exact Table.nodup_update (fun _ => by rfl) hn
  · refine nodup_of_move (sessionsMove _ ?_) hn
    exact fun challenge sessionId purpose h => hop ⟨challenge, sessionId, purpose, h⟩

/-! ## The window -/

/-- Where a window of wrong codes stands. -/
inductive Within (P : Platform) (adminId : String) (t : Int) (later : List Event)
    (d : AccountDb) : Prop
  | untouched : guessesIn P adminId t later = 0 → Within P adminId t later d
  /-- The wrong codes are in the counter. -/
  | counting {n : Nat} {locked : Option Int} : tally adminId d = some (n, locked) →
      guessesIn P adminId t later ≤ n → n < totpAccountLockThreshold → Within P adminId t later d
  /-- The account is locked until the window is over. -/
  | locked {n : Nat} {lockedUntil : Int} : guessesIn P adminId t later ≤ totpAccountLockThreshold →
      tally adminId d = some (n, some lockedUntil) → t + totpAccountLockMs ≤ lockedUntil →
      Within P adminId t later d
  | past {e : Event} : guessesIn P adminId t later ≤ totpAccountLockThreshold → e ∈ later →
      t + totpAccountLockMs ≤ e.input.now → Within P adminId t later d

theorem Within.le {t : Int} {later : List Event} (h : Within P adminId t later d) :
    guessesIn P adminId t later ≤ totpAccountLockThreshold := by
  cases h with
  | untouched h => omega
  | counting htally hle hlt => omega
  | locked hle htally huntil => exact hle
  | past hle he htime => exact hle

theorem guessesIn_cons_of_ne (t : Int) (later : List Event)
    (h : wrongGuess P d c ≠ some adminId) :
    guessesIn P adminId t (History.fire (step P) d c :: later) = guessesIn P adminId t later := by
  refine List.countP_cons_of_neg ?_
  simp [h]

theorem guessesIn_cons_le (t : Int) (later : List Event) :
    guessesIn P adminId t (History.fire (step P) d c :: later) ≤
      guessesIn P adminId t later + 1 := by
  rw [guessesIn, List.countP_cons, ← guessesIn]
  split <;> omega

/-- A wrong code outside of the window. -/
theorem guessesIn_cons_of_outside {t : Int} {later : List Event}
    (h : c.now < t ∨ t + totpAccountLockMs ≤ c.now) :
    guessesIn P adminId t (History.fire (step P) d c :: later) = guessesIn P adminId t later := by
  refine List.countP_cons_of_neg ?_
  rw [History.fire_input]
  simp only [Bool.and_eq_true, decide_eq_true_eq, not_and]
  omega

/-- Before the window there is nothing to count. -/
theorem guessesIn_of_before {t : Int} {later : List Event} (h : ∀ e ∈ later, e.input.now < t) :
    guessesIn P adminId t later = 0 := by
  refine List.countP_eq_zero.2 fun e he => ?_
  have hbefore := h e he
  simp only [Bool.and_eq_true, decide_eq_true_eq, not_and]
  omega

/-- A guarded call keeps the window in order. -/
theorem within_step {t : Int} {later : List Event} (hi : Within P adminId t later d)
    (hg : Guarded P d c) (hno : ¬ Interrupts P adminId (History.fire (step P) d c))
    (hclock : ∀ e ∈ later, e.input.now ≤ c.now) :
    Within P adminId t (History.fire (step P) d c :: later) (step P d c).1 := by
  have hmore : guessesIn P adminId t (History.fire (step P) d c :: later) ≤
      guessesIn P adminId t later + 1 := guessesIn_cons_le t later
  -- Once the window is over, it stays over.
  have hafter : t + totpAccountLockMs ≤ c.now →
      Within P adminId t (History.fire (step P) d c :: later) (step P d c).1 := by
    intro htime
    refine .past ?_ (List.mem_cons_self ..) htime
    rw [guessesIn_cons_of_outside (.inr htime)]
    exact hi.le
  have hover : ∀ {e : Event}, e ∈ later → t + totpAccountLockMs ≤ e.input.now →
      Within P adminId t (History.fire (step P) d c :: later) (step P d c).1 := fun he htime =>
    hafter (htime.trans (hclock _ he))
  -- An account that is locked until the window is over is not open within it.
  have hopen : ∀ {n n' : Nat} {locked : Option Int} {lockedUntil : Int},
      tally adminId d = some (n, locked) → locked.any (c.now < ·) = false →
      tally adminId d = some (n', some lockedUntil) → t + totpAccountLockMs ≤ lockedUntil →
      t + totpAccountLockMs ≤ c.now := by
    intro n n' locked lockedUntil htally hunlocked htally' huntil
    cases Option.some.inj (htally.symm.trans htally')
    simp only [Option.any_some, decide_eq_false_iff_not, not_lt] at hunlocked
    omega
  cases tally_step adminId hg with
  | interrupted h => exact absurd h hno
  | same hguess hsame =>
      have hcount := guessesIn_cons_of_ne t later hguess
      cases hi with
      | untouched h => exact .untouched (hcount.trans h)
      | counting htally hle hlt => exact .counting (hsame.trans htally) (hcount.le.trans hle) hlt
      | locked hle htally huntil =>
          exact .locked (hcount.le.trans hle) (hsame.trans htally) huntil
      | past hle he htime => exact hover he htime
  | created hguess hnone hcreated =>
      have hcount := guessesIn_cons_of_ne t later hguess
      cases hi with
      | untouched h => exact .untouched (hcount.trans h)
      | counting htally hle hlt =>
          rw [hnone] at htally
          cases htally
      | locked hle htally huntil =>
          rw [hnone] at htally
          cases htally
      | past hle he htime => exact hover he htime
  | @counted n locked hguess htally hunlocked hmax hcounted =>
      cases hi with
      | untouched h => exact .counting hcounted (by omega) hmax
      | counting htally' hle hlt =>
          cases Option.some.inj (htally.symm.trans htally')
          exact .counting hcounted (by omega) hmax
      | locked hle htally' huntil => exact hafter (hopen htally hunlocked htally' huntil)
      | past hle he htime => exact hover he htime
  | @lockout n locked hguess htally hunlocked hlocked =>
      by_cases htime : t + totpAccountLockMs ≤ c.now
      · exact hafter htime
      · by_cases hbefore : c.now < t
        · refine .untouched ((guessesIn_cons_of_outside (.inl hbefore)).trans ?_)
          exact guessesIn_of_before fun e he => (hclock e he).trans_lt hbefore
        · have hfew : guessesIn P adminId t later < totpAccountLockThreshold := by
            cases hi with
            | untouched h =>
                rw [h]
                decide
            | counting htally' hle hlt => omega
            | locked hle htally' huntil =>
                exact absurd (hopen htally hunlocked htally' huntil) htime
            | past hle he hlate => exact absurd (hlate.trans (hclock _ he)) htime
          exact .locked (by omega) hlocked (by omega)

/-- A part of a run in which no valid factor is presented keeps the window in order. -/
theorem within_run {d₀ : AccountDb} {later earlier : List Event} (t : Int)
    (hr : History.Run (step P) (env P) d₀ (later ++ earlier) d)
    (hg : ∀ e ∈ later, Guarded P e.pre e.input) (hno : ∀ e ∈ later, ¬ Interrupts P adminId e) :
    Within P adminId t later d := by
  induction later generalizing d with
  | nil => exact .untouched rfl
  | cons e later ih =>
      cases hr with
      | step c hr henv =>
          have hi := ih hr (fun x hx => hg x (List.mem_cons_of_mem _ hx))
            fun x hx => hno x (List.mem_cons_of_mem _ hx)
          refine within_step hi (hg _ (List.mem_cons_self ..)) (hno _ (List.mem_cons_self ..)) ?_
          exact fun x hx => henv.1 x (List.mem_append_left _ hx)

/-! ## The pending session -/

/-- A session that is drawn at most once has its wrong codes in its row. -/
structure Pending (P : Platform) (idHash : String) (h : List Event) (d : AccountDb) : Prop where
  few : pendingGuesses P idHash h ≤ maxTotpAttempts
  distinct : (d.sessions.map (·.idHash)).Nodup
  counted : ∀ s ∈ d.sessions, s.idHash = idHash → s.totpVerified = false →
    pendingGuesses P idHash h ≤ s.totpAttempts ∧ s.totpAttempts < maxTotpAttempts
  /-- Before it is drawn there is nothing to count. -/
  drawn : (∃ e ∈ h, drawnSession P e.input = some idHash) ∨
    pendingGuesses P idHash h = 0 ∧
      ∀ s ∈ d.sessions, s.idHash = idHash → s.totpVerified = true

theorem pendingGuesses_cons {idHash : String} {h : List Event} :
    pendingGuesses P idHash (History.fire (step P) d c :: h) =
      pendingGuesses P idHash h + if pendingGuess P d c = some idHash then 1 else 0 := by
  rw [pendingGuesses, List.countP_cons, ← pendingGuesses]
  simp

/-- A wrong code in a pending session finds the session. -/
theorem pending_of_guess {idHash : String} (h : pendingGuess P d c = some idHash) :
    ∃ s ∈ d.sessions, s.idHash = idHash ∧ s.totpVerified = false := by
  obtain ⟨now, op⟩ := c
  cases op with
  | verifySessionTotp draw sessionId typed ttlMs => exact (pendingGuess_verifySessionTotp h).2.2
  | _ => cases h

theorem pending_step {idHash : String} {h : List Event} (hi : Pending P idHash h d)
    (henv : env P h d c) :
    Pending P idHash (History.fire (step P) d c :: h) (step P d c).1 where
  few := by
    rw [pendingGuesses_cons]
    split
    · rename_i hguess
      obtain ⟨s, hs, hid, hpending⟩ := pending_of_guess hguess
      have hattempts := hi.counted s hs hid hpending
      omega
    · exact hi.few
  distinct := nodup_step hi.distinct c
  counted := by
    intro s' hs' hid' hpending'
    rw [pendingGuesses_cons]
    cases attempts_step hi.distinct hs' hpending' with
    | kept hs hid hpending hattempts hguess =>
        rw [if_neg (hid' ▸ hguess), ← hattempts]
        exact hi.counted _ hs (hid.trans hid') hpending
    | counted hs hid hpending hattempts hmax =>
        have hbefore := hi.counted _ hs (hid.trans hid') hpending
        refine ⟨?_, hmax⟩
        rw [hattempts]
        split <;> omega
    | opened hdrawn hattempts hguess =>
        rw [hguess, if_neg nofun, hattempts]
        refine ⟨?_, by decide⟩
        rcases hi.drawn with ⟨e, he, hbefore⟩ | ⟨hzero, -⟩
        · exact absurd hbefore (henv.2 idHash (hid' ▸ hdrawn) e he)
        · exact hzero.le
  drawn := by
    rcases hi.drawn with ⟨e, he, hdrawn⟩ | ⟨hzero, hnone⟩
    · exact .inl ⟨e, List.mem_cons_of_mem _ he, hdrawn⟩
    by_cases hdrawn : drawnSession P c = some idHash
    · exact .inl ⟨_, List.mem_cons_self .., hdrawn⟩
    have hno : ∀ s ∈ d.sessions, s.idHash = idHash → s.totpVerified ≠ false := by
      intro s hs hid hpending
      rw [hnone s hs hid] at hpending
      cases hpending
    refine .inr ⟨?_, fun s' hs' hid' => ?_⟩
    · rw [pendingGuesses_cons, hzero, if_neg]
      intro hguess
      obtain ⟨s, hs, hid, hpending⟩ := pending_of_guess hguess
      exact hno s hs hid hpending
    · refine Bool.eq_true_of_not_eq_false fun hpending' => ?_
      cases attempts_step hi.distinct hs' hpending' with
      | kept hs hid hpending => exact hno _ hs (hid.trans hid') hpending
      | counted hs hid hpending => exact hno _ hs (hid.trans hid') hpending
      | opened hopened => exact hdrawn (hid' ▸ hopened)

/-! ## The lockout -/

/-- A guarded call accepts no code while the account is locked. -/
theorem not_accepted_of_locked (hg : Guarded P d c)
    (hp : guesses P d c = some (adminId, typed))
    (hlocked : (totpLockedUntil c.now adminId d).isSome = true) :
    isAccepted (step P d c).2 = false := by
  obtain ⟨now, op⟩ := c
  have hfound : ∃ admin, adminById adminId d = some admin ∧ isTotpLocked admin now = true := by
    obtain ⟨l, hl⟩ := Option.isSome_iff_exists.1 hlocked
    obtain ⟨admin, hadmin, h⟩ := Option.bind_eq_some_iff.1 hl
    split at h
    · rename_i h'
      exact ⟨admin, hadmin, h'⟩
    · cases h
  obtain ⟨admin, hadmin, hlock⟩ := hfound
  cases op with
  | verifySessionTotp draw sessionId code ttlMs =>
      obtain ⟨s, hs, hpair⟩ := Option.map_eq_some_iff.1 hp
      cases hpair
      show isAccepted (orFailed d (verifySessionTotp P now draw sessionId typed ttlMs d) .login).2 = _
      cases hresult : verifySessionTotp P now draw sessionId typed ttlMs d with
      | error e => rfl
      | ok result =>
          cases sessionTotp hresult with
          | nothing result hno =>
              cases result with
              | ok a b f => exact absurd rfl (hno a b f)
              | invalid => rfl
              | locked lockedUntil => rfl
          | passed hs' hadmin' hfactor hunlocked hcheck hdone =>
              cases Option.some.inj (hs.symm.trans hs')
              cases Option.some.inj (hadmin.symm.trans hadmin')
              rw [hlock] at hunlocked
              cases hunlocked
          | lockout => rfl
          | sessionOver => rfl
          | wrong => rfl
  | verifyConfirmCode id code =>
      cases hp
      show isAccepted (.confirm (verifyConfirmCode P now adminId typed d).1) = false
      have h := confirmCode_spec (P := P) now adminId typed d
      generalize verifyConfirmCode P now adminId typed d = answer at h ⊢
      have hopen : ∀ {admin' : AdminRow}, adminById adminId d = some admin' →
          isTotpLocked admin' now ≠ false := by
        intro admin' hadmin' hunlocked
        cases Option.some.inj (hadmin.symm.trans hadmin')
        rw [hlock] at hunlocked
        cases hunlocked
      cases h with
      | missing => rfl
      | locked => rfl
      | totp hadmin' hunlocked => exact absurd hunlocked (hopen hadmin')
      | recovery hadmin' hunlocked => exact absurd hunlocked (hopen hadmin')
      | lockout => rfl
      | wrong => rfl
  | regenerateRecoveryCodes codes id code =>
      cases hp
      rw [(hg adminId typed rfl).2] at hlocked
      cases hlocked
  | disableTotp id code keep =>
      cases hp
      rw [(hg adminId typed rfl).2] at hlocked
      cases hlocked
  | _ => cases hp

end

/-- The guess budget holds in every run in which no code is sent to the two operations that neither
count nor look at the lockout, except codes that fit, while the account is not locked. -/
theorem guess_budget {d₀ d : AccountDb} {h : List Event} (h0 : d₀.sessions = [])
    (hr : History.Run (step P) (env P) d₀ h d) (hg : ∀ e ∈ h, Guarded P e.pre e.input) :
    Budget P h where
  account := by
    rintro later earlier rfl adminId hno t
    exact (within_run t hr (fun e he => hg e (List.mem_append_left _ he)) hno).le
  locked := by
    intro e he adminId code hp hlocked
    obtain ⟨c, hc⟩ := hr.of_mem he
    have hinput : e.input = c := congrArg History.Event.input hc
    have hout : e.output = (step P e.pre e.input).2 := by
      rw [hinput]
      exact congrArg History.Event.output hc
    rw [hout]
    exact not_accepted_of_locked (hg e he) hp hlocked
  session := by
    intro idHash
    have hi : Pending P idHash h d := by
      refine hr.invariant (I := Pending P idHash) ?_ fun _ _ _ _ henv hi => pending_step hi henv
      refine ⟨Nat.zero_le _, ?_, ?_, .inr ⟨rfl, ?_⟩⟩
      all_goals simp [h0]
    exact hi.few

/-! ## Guesses nobody counts -/

/-- An account enrols, and eleven wrong codes are sent to the operation that disables its app. -/
def uncountedCalls : List Call :=
  [⟨0, .createAdmin "1" "salt" ⟨"ada", "correct horse", .user, false⟩⟩,
    ⟨1, .beginTotpEnrolment Replay.sampleSecret "a_1"⟩,
    ⟨60000, .confirmTotpEnrolment [] "a_1" "000000"⟩] ++
    List.replicate 11 ⟨90000, .disableTotp "a_1" "111111" "sid"⟩

/-- Calls in order that draw no session. -/
theorem admits_of_sorted {calls : List Call}
    (h : calls.Pairwise fun c c' => c.now ≤ c'.now ∧ drawnSession P c' = none) :
    History.Admits (step P) (env P) [] .empty calls := by
  refine History.admits_of_pairwise
    (R := fun c c' => c.now ≤ c'.now ∧ drawnSession P c' = none)
    (fun h d c hc => ⟨fun e he => (hc e he).1, fun x hx e he => ?_⟩) h (by simp) _
  rw [(hc e he).2] at hx
  cases hx

/-- The app is not disabled. -/
def refusedDisable (e : Event) : Bool :=
  match e.input.op with
  | .disableTotp _ _ _ => !isAccepted e.output
  | _ => false

theorem not_interrupts_of_refused {adminId : String} {e : Event} (h : refusedDisable e = true) :
    ¬ Interrupts P adminId e := by
  obtain ⟨pre, ⟨now, op⟩, output, post⟩ := e
  cases op with
  | disableTotp id typed keep =>
      rintro (⟨code, -, haccepted⟩ | ⟨hasserts, -⟩ | hreset | hdelete)
      · simp only [refusedDisable, haccepted, Bool.not_true] at h
        cases h
      · cases hasserts
      · cases hreset
      · cases hdelete
  | _ => cases h

/-- Eleven wrong codes are compared with the authenticator app at one instant. -/
theorem eleven_guesses :
    ¬ ∀ (d₀ d : AccountDb) (h : List Event), d₀.sessions = [] →
      History.Run (step .sample) (env .sample) d₀ h d → Budget .sample h := by
  intro hall
  have hadmits : History.Admits (step .sample) (env .sample) [] .empty uncountedCalls :=
    admits_of_sorted _ (by decide)
  have hbudget := hall _ _ _ rfl (History.run_replay .start hadmits)
  have hrefused : ((History.replay (step .sample) [] .empty uncountedCalls).1.take 11).all
      refusedDisable = true := by decide +kernel
  have hcount := hbudget.account _ _ (List.take_append_drop 11 _).symm "a_1"
    (fun e he => not_interrupts_of_refused _ (List.all_eq_true.1 hrefused e he)) 90000
  revert hcount
  decide +kernel

/-- An account that confirms an action, and then mistypes a code. -/
theorem guess_budget_sample :
    Budget .sample (History.replay (step .sample) [] .empty
      (Replay.sampleCalls ++ [⟨90000, .verifyConfirmCode "a_1" "111111"⟩])).1 := by
  refine guess_budget .sample rfl (History.run_replay .start (admits_of_sorted _ (by decide)))
    fun e he adminId code h => ?_
  have hchecked : ((History.replay (step .sample) [] .empty (Replay.sampleCalls ++
      [⟨90000, .verifyConfirmCode "a_1" "111111"⟩])).1.all
        fun e => (unchecked e.input).isNone) = true := by decide +kernel
  have hnone := List.all_eq_true.1 hchecked e he
  rw [h] at hnone
  cases hnone

end Guesses

end Outletbox
