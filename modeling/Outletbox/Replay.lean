import Outletbox.Factors

/-!
# A code of the authenticator app is accepted once

`verifyTotp` refuses a step that is not later than the last accepted one, and
each of its five callers must store the step it returns or destroy the secret.
Enrolment resets the marker and asks without it, but only while the secret is
not enabled.  The invariant relates the three columns: once a step of a secret
was accepted, the account either has another secret, or has this one enabled
with a marker that is at least that step.
-/

namespace Outletbox

namespace Replay

open Factors

variable (P : Platform)

/-! ## Acceptance -/

/-- The step of the account's secret a code is for.  While the secret is being enrolled
there is no last step. -/
def stepOf (c : Call) (admin : AdminRow) (code : String) : Option Int :=
  match c.op with
  | .confirmTotpEnrolment _ _ _ =>
      if admin.totpEnabledAt.isSome then none
      else admin.totpSecret.bind fun secret => verifyTotp P secret code c.now none
  | _ => matchedStep P admin code c.now

/-- A code was accepted as the value of an account's secret at a time step. -/
structure Accepts (adminId : String) (secret : Bytes) (step : Int) (code : String) (e : Event) :
    Prop where
  presented : presents P e.pre e.input = some (adminId, code)
  accepted : isAccepted e.output = true
  matched : ∃ admin, adminById adminId e.pre = some admin ∧ admin.totpSecret = some secret ∧
    stepOf P e.input admin code = some step

/-- The secret was drawn anew for the account. -/
def Draws (adminId : String) (secret : Bytes) (e : Event) : Prop :=
  e.input.op = .beginTotpEnrolment secret adminId

/-- The law of a history: every accepted step is at most one away from the clock and its
value is the code that was typed, without its white space; between two acceptances of a
secret that was not drawn anew the step grows; and a code that is accepted otherwise is a
recovery code. -/
structure Increasing (h : List Event) : Prop where
  near : ∀ e ∈ h, ∀ adminId secret step code, Accepts P adminId secret step code e →
    totpStep e.input.now - 1 ≤ step ∧ step ≤ totpStep e.input.now + 1 ∧
      hotp P secret step.toNat = withoutSpaces code
  grows : ∀ later e between e' earlier, h = later ++ e :: (between ++ e' :: earlier) →
    ∀ adminId secret step step' code code', Accepts P adminId secret step' code' e' →
      Accepts P adminId secret step code e → (∀ x ∈ between, ¬ Draws adminId secret x) →
      step' < step
  others : ∀ e ∈ h, ∀ adminId code, presents P e.pre e.input = some (adminId, code) →
    isAccepted e.output = true →
      (∃ secret step, Accepts P adminId secret step code e) ∨ hasUnusedCode P adminId code e.pre

/-! ## The guard -/

/-- While the account has the secret, no step up to `step` is accepted any more. -/
def Guards (secret : Bytes) (step : Int) (admin : AdminRow) : Prop :=
  admin.totpSecret = some secret →
    admin.totpEnabledAt.isSome = true ∧ ∃ last, admin.totpLastStep = some last ∧ step ≤ last

def Guarded (adminId : String) (secret : Bytes) (step : Int) (d : AccountDb) : Prop :=
  ∀ admin, adminById adminId d = some admin → Guards secret step admin

section

variable {P} {adminId id code : String} {secret : Bytes} {n n' : Int} {d d' : AccountDb}
  {admin : AdminRow} {now : Int}

/-- A matched step of an enabled app. -/
theorem matchedStep_some (h : matchedStep P admin code now = some n) :
    admin.totpEnabledAt.isSome = true ∧ ∃ secret, admin.totpSecret = some secret ∧
      verifyTotp P secret code now admin.totpLastStep = some n := by
  unfold matchedStep at h
  split at h
  · rename_i secret enabled hsecret henabled
    exact ⟨by simp [henabled], secret, hsecret, h⟩
  · cases h

/-- A guarded secret accepts only later steps. -/
theorem Guards.lt_of_matched (hg : Guards secret n admin) (hsecret : admin.totpSecret = some secret)
    (h : matchedStep P admin code now = some n') : n < n' := by
  obtain ⟨-, last, hlast, hle⟩ := hg hsecret
  obtain ⟨-, s, hs, hverify⟩ := matchedStep_some h
  have hlt := (verifyTotp_some hverify).2.2 last (by simp [hlast])
  exact lt_of_le_of_lt hle hlt

/-- An accepted step is stored, so that the guard stays. -/
theorem Guards.advance (hg : Guards secret n admin)
    (h : matchedStep P admin code now = some n') :
    Guards secret n { admin with totpLastStep := some n' } := by
  intro hsecret
  exact ⟨(hg hsecret).1, n', rfl, (hg.lt_of_matched hsecret h).le⟩

theorem Guards.of_none (h : admin.totpSecret = none) : Guards secret n admin := by
  intro hsecret
  rw [h] at hsecret
  cases hsecret

/-- The guard reads three columns. -/
theorem Guards.congr {admin' : AdminRow} (hg : Guards secret n admin)
    (hsecret : admin'.totpSecret = admin.totpSecret)
    (henabled : admin'.totpEnabledAt = admin.totpEnabledAt)
    (hlast : admin'.totpLastStep = admin.totpLastStep) : Guards secret n admin' := by
  intro h
  obtain ⟨h1, last, h2, h3⟩ := hg (hsecret ▸ h)
  exact ⟨henabled ▸ h1, last, hlast.trans h2, h3⟩

/-- An `UPDATE` keeps the guard when it keeps it in the one row it changes. -/
theorem Guarded.update {f : AdminRow → AdminRow} (hg : Guarded adminId secret n d)
    (h : d'.admins = (updateAdmin id f d).admins) (hid : ∀ a, (f a).id = a.id)
    (hf : ∀ a, adminById id d = some a → adminId = id →
      Guards secret n a → Guards secret n (f a)) : Guarded adminId secret n d' := by
  intro a ha
  rw [adminById_of_admins h, adminById_updateAdmin hid] at ha
  obtain ⟨r, hr, hra⟩ := Option.map_eq_some_iff.1 ha
  have hr' := hg r hr
  by_cases hsame : r.id = id
  · have hadmin : adminId = id := (adminById_id hr).symm.trans hsame
    rw [if_pos (by simpa using hsame)] at hra
    subst hra
    exact hf r (hadmin ▸ hr) hadmin hr'
  · rw [if_neg (by simpa using hsame)] at hra
    exact hra ▸ hr'

/-- A new account has no secret. -/
theorem Guarded.insert {row : AdminRow} (hg : Guarded adminId secret n d)
    (hrow : row.totpSecret = none) (h : d'.admins = d.admins ++ [row]) :
    Guarded adminId secret n d' := by
  intro a ha
  rw [adminById_of_append h] at ha
  cases hold : adminById adminId d with
  | some r =>
      rw [hold] at ha
      cases ha
      exact hg a hold
  | none =>
      rw [hold, Option.none_or] at ha
      split at ha
      · cases ha
        exact .of_none hrow
      · cases ha

theorem Guarded.delete (hg : Guarded adminId secret n d)
    (h : d'.admins = Table.delete (fun a => a.id == id) d.admins) :
    Guarded adminId secret n d' := by
  intro a ha
  have hmem : a ∈ d'.admins := List.mem_of_find?_eq_some ha
  rw [h] at hmem
  have hne : a.id ≠ id := by simpa using (Table.mem_delete.1 hmem).2
  have hid := adminById_id ha
  refine hg a ?_
  rw [adminById, h] at ha
  rw [← ha, adminById, Table.find?_delete]
  intro r hr
  have : r.id = adminId := by simpa using hr
  simp [this, ← hid, hne]

/-- The app of the account goes. -/
theorem Guarded.clear (hg : Guarded adminId secret n d)
    (h : d'.admins = (clearTotp id d).admins) : Guarded adminId secret n d' :=
  hg.update h (fun _ => rfl) fun _ _ _ _ => .of_none rfl

/-- An accepted step of the enabled app is stored. -/
theorem Guarded.accept {f : AdminRow → AdminRow} (hg : Guarded adminId secret n d)
    (hadmin : adminById id d = some admin) (hstep : matchedStep P admin code now = some n')
    (h : d'.admins = (updateAdmin id f d).admins) (hf : ∀ a, StepStored n' a (f a)) :
    Guarded adminId secret n d' := by
  refine hg.update h (fun a => (hf a).id) ?_
  intro a ha _ hga
  rw [hadmin] at ha
  cases ha
  exact (hga.advance hstep).congr (hf admin).secret (hf admin).enabledAt (hf admin).lastStep

/-- One step keeps the guard unless it draws the secret. -/
theorem guarded_step (c : Call) (hg : Guarded adminId secret n d)
    (hdraw : ¬ Draws adminId secret (History.fire (step P) d c)) :
    Guarded adminId secret n (step P d c).1 := by
  cases adminsMove (P := P) d c with
  | frame id f hrows hf =>
      refine hg.update hrows (fun a => (hf a).id) ?_
      intro a _ _ ha
      exact ha.congr (hf a).secret (hf a).enabledAt (hf a).lastStep
  | accept id typed admin n' f hadmin hn hrows hf => exact hg.accept hadmin hn hrows hf
  | clear id hid hrows => exact hg.clear hrows
  | draw drawn id admin hop hadmin henabled hrows =>
      -- the one way to a secret without a marker
      refine hg.update hrows (fun _ => rfl) ?_
      intro a _ hid _ hs
      subst hid
      cases hs
      exact absurd hop hdraw
  | enrol id typed admin s n' hadmin hsecret henabled hverify hrows =>
      -- a guarded secret is enabled, so that it is not enrolled again
      refine hg.update hrows (fun _ => rfl) ?_
      intro a ha _ hga hs
      rw [hadmin] at ha
      cases ha
      have := (hga hs).1
      rw [henabled] at this
      cases this
  | insert row hfree hsecret henabled hrows => exact hg.insert hsecret hrows
  | delete id hid hrows => exact hg.delete hrows

/-! ## What an acceptance leaves behind -/

/-- The one row that was changed is guarded. -/
theorem guarded_of_row {f : AdminRow → AdminRow} (hadmin : adminById adminId d = some admin)
    (h : d'.admins = (updateAdmin adminId f d).admins) (hid : ∀ a, (f a).id = a.id)
    (hf : Guards secret n (f admin)) : Guarded adminId secret n d' := by
  intro a ha
  rw [adminById_of_admins h, adminById_updateAdmin hid, hadmin, Option.map_some,
    if_pos (by simpa using adminById_id hadmin)] at ha
  cases ha
  exact hf

/-- The step of the enabled app is stored. -/
theorem guarded_of_matched {f : AdminRow → AdminRow} (hadmin : adminById adminId d = some admin)
    (hstep : matchedStep P admin code now = some n)
    (h : d'.admins = (updateAdmin adminId f d).admins)
    (hf : ∀ a, (f a).id = a.id ∧ (f a).totpEnabledAt = a.totpEnabledAt ∧
      (f a).totpLastStep = some n) : Guarded adminId secret n d' := by
  refine guarded_of_row hadmin h (fun a => (hf a).1) ?_
  intro _
  exact ⟨(hf admin).2.1 ▸ (matchedStep_some hstep).1, n, (hf admin).2.2, le_rfl⟩

theorem guarded_of_sessionTotp {draw : SessionDraw} {sessionId : String} {ttlMs : Nat}
    {result : TotpLoginResult} {s : SessionRow}
    (hs : d.sessions.find? (·.idHash == P.sha256Hex sessionId) = some s)
    (hadmin : adminById s.adminId d = some admin) (hstep : matchedStep P admin code now = some n)
    (h : verifySessionTotp P now draw sessionId code ttlMs d = .ok (result, d'))
    (hok : isAccepted (.login result) = true) : Guarded s.adminId secret n d' := by
  cases sessionTotp h with
  | nothing result hresult =>
      cases result with
      | ok a b c => exact absurd rfl (hresult a b c)
      | invalid => cases hok
      | locked _ => cases hok
  | @passed _ _ factor d₁ _ hs' hadmin' hfactor hlocked hcheck hdone =>
      rw [hs] at hs'
      cases hs'
      rw [hadmin] at hadmin'
      cases hadmin'
      obtain ⟨hd', -⟩ := completeSecondFactor_ok hdone
      have hrows : d'.admins = (forgetFailures admin.id d₁).admins := by
        rw [hd']
        rfl
      have hid := adminById_id hadmin
      cases hcheck with
      | totp step hstep' =>
          rw [hstep] at hstep'
          cases hstep'
          have hstored : Guarded s.adminId secret n (acceptStep n admin.id d) := by
            rw [hid]
            exact guarded_of_matched hadmin hstep rfl fun _ => ⟨rfl, rfl, rfl⟩
          exact hstored.update hrows (fun _ => rfl) fun _ _ _ ha => ha.congr rfl rfl rfl
      | recovery hnone hcode =>
          rw [hstep] at hnone
          cases hnone
  | lockout => cases hok
  | sessionOver => cases hok
  | wrong => cases hok

/-- After an acceptance the secret is guarded from the accepted step on. -/
theorem guarded_of_accepts {c : Call}
    (h : Accepts P adminId secret n code (History.fire (step P) d c)) :
    Guarded adminId secret n (step P d c).1 := by
  obtain ⟨now, op⟩ := c
  obtain ⟨hpresented, haccepted, admin, hadmin, hsecret, hstep⟩ := h
  simp only [History.fire_pre, History.fire_input, History.fire_output] at *
  cases op with
  | verifySessionTotp draw sessionId typed ttlMs =>
      obtain ⟨s, hs, he⟩ := Option.map_eq_some_iff.1 hpresented
      cases he
      obtain ⟨result, d', hx, hok, hd'⟩ := accepts_orFailed haccepted
      rw [step, hd']
      exact guarded_of_sessionTotp hs hadmin hstep hx hok
  | verifyConfirmCode id typed =>
      cases hpresented
      have hspec := confirmCode_spec (P := P) now adminId code d
      simp only [step, stepOf] at haccepted hstep ⊢
      generalize verifyConfirmCode P now adminId code d = answer at hspec haccepted ⊢
      cases hspec with
      | missing => cases haccepted
      | locked => cases haccepted
      | totp hadmin' hlocked hstep' =>
          rw [hadmin] at hadmin'
          cases hadmin'
          rw [hstep] at hstep'
          cases hstep'
          exact guarded_of_matched hadmin hstep rfl fun _ => ⟨rfl, rfl, rfl⟩
      | recovery hadmin' hlocked hnone hcode =>
          rw [hadmin] at hadmin'
          cases hadmin'
          rw [hstep] at hnone
          cases hnone
      | lockout => cases haccepted
      | wrong => cases haccepted
  | confirmTotpEnrolment codes id typed =>
      cases hpresented
      simp only [step, stepOf, hsecret, Option.bind_some] at haccepted hstep ⊢
      rcases confirmTotpEnrolment_cases (P := P) now codes adminId code d with
        hx | ⟨admin', s, m, hadmin', hsecret', henabled, hverify, hx⟩
      · rw [hx] at haccepted
        cases haccepted
      · rw [hadmin] at hadmin'
        cases hadmin'
        rw [hsecret] at hsecret'
        cases hsecret'
        simp only [henabled, Option.isSome_none, Bool.false_eq_true, if_false, hverify] at hstep
        cases hstep
        rw [hx]
        refine guarded_of_row hadmin rfl (fun _ => rfl) ?_
        intro _
        exact ⟨rfl, n, rfl, le_rfl⟩
  | regenerateRecoveryCodes codes id typed =>
      cases hpresented
      simp only [step, stepOf] at haccepted hstep ⊢
      rcases regenerateRecoveryCodes_cases (P := P) now codes adminId code d with
        hx | ⟨admin', m, hadmin', hstep', hx⟩
      · rw [hx] at haccepted
        cases haccepted
      · rw [hadmin] at hadmin'
        cases hadmin'
        rw [hstep] at hstep'
        cases hstep'
        rw [hx]
        exact guarded_of_matched hadmin hstep rfl fun _ => ⟨rfl, rfl, rfl⟩
  | disableTotp id typed keep =>
      cases hpresented
      simp only [step] at haccepted ⊢
      rcases disableTotp_cases (P := P) now adminId code keep d with
        hx | ⟨_, -, -, ⟨_, -, hx⟩ | ⟨-, -, hx⟩⟩
      · rw [hx] at haccepted
        cases haccepted
      · rw [hx]
        exact guarded_of_row hadmin (forceDisableTotp_admins ..) (fun _ => rfl) (.of_none rfl)
      · rw [hx]
        exact guarded_of_row hadmin (forceDisableTotp_admins ..) (fun _ => rfl) (.of_none rfl)
  | _ => cases hpresented

/-- A guarded secret accepts only later steps, whichever operation asks. -/
theorem lt_of_accepts {e : Event} (hg : Guarded adminId secret n e.pre)
    (h : Accepts P adminId secret n' code e) : n < n' := by
  obtain ⟨-, -, admin, hadmin, hsecret, hstep⟩ := h
  have hrow := hg admin hadmin
  unfold stepOf at hstep
  split at hstep
  · rw [if_pos (hrow hsecret).1] at hstep
    cases hstep
  · exact hrow.lt_of_matched hsecret hstep

/-- The step of an acceptance, as `verifyTotp` returned it. -/
theorem verifyTotp_of_accepts {e : Event} (h : Accepts P adminId secret n code e) :
    ∃ minStep, verifyTotp P secret code e.input.now minStep = some n := by
  obtain ⟨-, -, admin, hadmin, hsecret, hstep⟩ := h
  unfold stepOf at hstep
  split at hstep
  · split at hstep
    · cases hstep
    · rw [hsecret] at hstep
      exact ⟨none, hstep⟩
  · obtain ⟨-, s, hs, hverify⟩ := matchedStep_some hstep
    rw [hsecret] at hs
    cases hs
    exact ⟨_, hverify⟩

/-! ## Which acceptances there are -/

/-- A matched step of the enabled app, accepted by any operation but the enrolment. -/
theorem accepts_of_matched {e : Event} (hpresented : presents P e.pre e.input = some (adminId, code))
    (haccepted : isAccepted e.output = true) (hadmin : adminById adminId e.pre = some admin)
    (hop : ∀ codes id typed, e.input.op ≠ .confirmTotpEnrolment codes id typed)
    (hstep : matchedStep P admin code e.input.now = some n) :
    ∃ secret step, Accepts P adminId secret step code e := by
  obtain ⟨-, secret, hsecret, -⟩ := matchedStep_some hstep
  refine ⟨secret, n, hpresented, haccepted, admin, hadmin, hsecret, ?_⟩
  unfold stepOf
  split
  · rename_i hcontra
    exact absurd hcontra (hop _ _ _)
  · exact hstep

/-- An accepted code has a step of the app, or is an unused recovery code of the account. -/
theorem accepts_or_recovery {c : Call} (hpresented : presents P d c = some (adminId, code))
    (haccepted : isAccepted (step P d c).2 = true) :
    (∃ secret n, Accepts P adminId secret n code (History.fire (step P) d c)) ∨
      hasUnusedCode P adminId code d := by
  obtain ⟨now, op⟩ := c
  have hevent := haccepted
  cases op with
  | verifySessionTotp draw sessionId typed ttlMs =>
      obtain ⟨s, hs, he⟩ := Option.map_eq_some_iff.1 hpresented
      cases he
      obtain ⟨result, d', hx, hok, -⟩ := accepts_orFailed hevent
      cases sessionTotp hx with
      | nothing result hresult =>
          cases result with
          | ok a b c => exact absurd rfl (hresult a b c)
          | invalid => cases hok
          | locked _ => cases hok
      | passed hs' hadmin hfactor hlocked hcheck hdone =>
          rw [hs] at hs'
          cases hs'
          cases hcheck with
          | totp step hstep =>
              exact .inl (accepts_of_matched hpresented haccepted hadmin (by simp) hstep)
          | recovery hnone hcode => exact .inr (adminById_id hadmin ▸ hcode)
      | lockout => cases hok
      | sessionOver => cases hok
      | wrong => cases hok
  | verifyConfirmCode id typed =>
      cases hpresented
      have hspec := confirmCode_spec (P := P) now adminId code d
      simp only [step] at hevent
      generalize verifyConfirmCode P now adminId code d = answer at hspec hevent
      cases hspec with
      | missing => cases hevent
      | locked => cases hevent
      | totp hadmin hlocked hstep =>
          exact .inl (accepts_of_matched rfl haccepted hadmin (by simp) hstep)
      | recovery hadmin hlocked hnone hcode => exact .inr hcode
      | lockout => cases hevent
      | wrong => cases hevent
  | confirmTotpEnrolment codes id typed =>
      cases hpresented
      simp only [step] at hevent
      rcases confirmTotpEnrolment_cases (P := P) now codes adminId code d with
        hx | ⟨admin, secret, n, hadmin, hsecret, henabled, hverify, hx⟩
      · rw [hx] at hevent
        cases hevent
      · refine .inl ⟨secret, n, rfl, haccepted, admin, hadmin, hsecret, ?_⟩
        simp [stepOf, henabled, hsecret, hverify]
  | regenerateRecoveryCodes codes id typed =>
      cases hpresented
      simp only [step] at hevent
      rcases regenerateRecoveryCodes_cases (P := P) now codes adminId code d with
        hx | ⟨admin, n, hadmin, hstep, hx⟩
      · rw [hx] at hevent
        cases hevent
      · exact .inl (accepts_of_matched rfl haccepted hadmin (by simp) hstep)
  | disableTotp id typed keep =>
      cases hpresented
      simp only [step] at hevent
      rcases disableTotp_cases (P := P) now adminId code keep d with
        hx | ⟨admin, hadmin, -, ⟨n, hstep, hx⟩ | ⟨-, hcode, hx⟩⟩
      · rw [hx] at hevent
        cases hevent
      · exact .inl (accepts_of_matched rfl haccepted hadmin (by simp) hstep)
      · exact .inr hcode
  | _ => cases hpresented

/-! ## Every run -/

theorem accepted_steps {d₀ : AccountDb} {h : List Event}
    (hr : History.Run (step P) env d₀ h d) : Increasing P h := by
  refine ⟨?_, ?_, ?_⟩
  · intro e _ adminId secret n code haccepts
    obtain ⟨minStep, hverify⟩ := verifyTotp_of_accepts haccepts
    obtain ⟨⟨hlow, hhigh⟩, hvalue, -⟩ := verifyTotp_some hverify
    exact ⟨hlow, hhigh, hvalue⟩
  · rintro later e between e' earlier rfl adminId secret n n' code code' hfirst hsecond hdraws
    obtain ⟨i, hbetween, -, -⟩ := hr.split
    obtain ⟨i', -, -, he'⟩ := hbetween.split
    have hguard : Guarded adminId secret n' e'.post := by
      rw [he'] at hfirst ⊢
      exact guarded_of_accepts hfirst
    have hpre : Guarded adminId secret n' e.pre :=
      hbetween.keeps (fun s i hs hq => guarded_step i hs hq) hguard hdraws
    exact lt_of_accepts hpre hsecond
  · intro e he adminId code hpresented haccepted
    obtain ⟨i, hi⟩ := hr.of_mem he
    rw [hi] at hpresented haccepted ⊢
    exact accepts_or_recovery hpresented haccepted

end

/-! ## An account that enrols and confirms -/

/-- The sample host computes the code `000000` for every small step of this secret. -/
def sampleSecret : Bytes := List.replicate 20 0

/-- An account enrols with the step 3 and confirms an action with the step 4. -/
def sampleCalls : List Call :=
  [⟨0, .createAdmin "1" "salt" ⟨"ada", "correct horse", .user, false⟩⟩,
    ⟨1, .beginTotpEnrolment sampleSecret "a_1"⟩,
    ⟨60000, .confirmTotpEnrolment [] "a_1" "000000"⟩,
    ⟨90000, .verifyConfirmCode "a_1" "000 000"⟩]

theorem accepted_steps_enrolled :
    Increasing .sample (History.replay (step .sample) [] .empty sampleCalls).1 :=
  accepted_steps (History.run_replay .start
    (History.admits_of_forall (fun _ _ _ => trivial) _ _ sampleCalls))

/-- A code is accepted whose text is not the value of any step. -/
theorem spaced_code_accepted :
    ∃ h d, History.Run (step .sample) env .empty h d ∧ ∃ e ∈ h, ∃ step,
      Accepts .sample "a_1" sampleSecret step "000 000" e ∧
        hotp .sample sampleSecret step.toNat ≠ "000 000" := by
  refine ⟨_, _, History.run_replay .start
    (History.admits_of_forall (fun _ _ _ => trivial) _ _ sampleCalls),
    _, List.mem_cons_self .., 4, ⟨by decide +kernel, by decide +kernel, ?_⟩, by decide +kernel⟩
  exact ⟨_, rfl, by decide +kernel, by decide +kernel⟩

end Replay

end Outletbox
