import Outletbox.Library.History
import Outletbox.Services.Passkeys
import Outletbox.Services.Users

/-!
# The second factor as one system

Accounts come and go, sign in and sign out; their second factors are enrolled,
presented, replaced, removed and reset.  Each operation is one step at any
instant.  The laws about codes, steps, challenges and counters are stated over
the runs of this system.
-/

namespace Outletbox

namespace Factors

variable (P : Platform)

/-- What a caller of a passkey login passes besides its assertion. -/
structure LoginInput where
  draw : SessionDraw
  admin : Admin
  ttlMs : Nat

/-- A login asserts a passkey of the account it is for. -/
def LoginInput.assertion (login : LoginInput) (input : AssertPasskeyInput) : AssertPasskeyInput :=
  { input with adminId := login.admin.id }

inductive Op
  | createAdmin (id salt : String) (input : CreateAdminInput)
  | deleteAdmin (id : String)
  | resetSecondFactors (adminId : String)
  /-- `createSession`, after `authenticate`. -/
  | signIn (draw : SessionDraw) (username password : String) (ttlMs : Nat) (info : SessionMeta)
  /-- Sessions end, whichever: a logout, a revocation, the housekeeping job. -/
  | endSessions (p : SessionRow → Bool)
  | verifySessionTotp (draw : SessionDraw) (sessionId code : String) (ttlMs : Nat)
  | verifyConfirmCode (adminId code : String)
  | beginTotpEnrolment (secret : Bytes) (adminId : String)
  | confirmTotpEnrolment (codes : List String) (adminId code : String)
  | regenerateRecoveryCodes (codes : List String) (adminId code : String)
  | regenerateRecoveryCodesConfirmed (codes : List String) (adminId : String)
  | disableTotp (adminId code keepSessionId : String)
  | beginCeremony (challenge sessionId : String) (purpose : CeremonyPurpose)
  | registerPasskey (id : String) (input : RegisterPasskeyInput) (rp : RelyingParty)
  | verifyPasskeyLogin (input : AssertPasskeyInput) (rp : RelyingParty) (login : LoginInput)
  | verifyPasskeyConfirm (input : AssertPasskeyInput) (rp : RelyingParty)
  | removePasskey (adminId passkeyId keepSessionId : String)

/-- An operation and the instant it runs at. -/
structure Call where
  now : Int
  op : Op

inductive Output
  | login (result : TotpLoginResult)
  | confirm (result : ConfirmResult)
  | codes (codes : Option (List String))
  | disabled (done : Bool)
  | registered (passkey : Passkey)
  | asserted (result : Except Failure Unit)
  | removed (passkey : Option Passkey)
  | failed (why : Failure)
  | done

/-- The state and the output of a call that may throw, and writes nothing then. -/
def orFailed {α : Type} (d : AccountDb) (x : Except Failure (α × AccountDb)) (f : α → Output) :
    AccountDb × Output :=
  match x with
  | .ok (a, d') => (d', f a)
  | .error e => (d, .failed e)

/-- The state and the output of a call that does not throw. -/
def answered {α : Type} (x : α × AccountDb) (f : α → Output) : AccountDb × Output := (x.2, f x.1)

/-- A password that is right opens a session. -/
def signIn (now : Int) (draw : SessionDraw) (username password : String) (ttlMs : Nat)
    (info : SessionMeta) (d : AccountDb) : Except Failure (Unit × AccountDb) :=
  match authenticate P username password d with
  | none => .error (.error "login failed")
  | some admin => (createSession P now draw admin ttlMs info d).map fun d => ((), d)

def step (d : AccountDb) (c : Call) : AccountDb × Output :=
  match c.op with
  | .createAdmin id salt input =>
      orFailed d (Outletbox.createAdmin P c.now id salt input d) fun _ => .done
  | .deleteAdmin id => (Outletbox.deleteAdmin id d, .done)
  | .resetSecondFactors adminId => (Outletbox.resetSecondFactors P adminId d, .done)
  | .signIn draw username password ttlMs info =>
      orFailed d (signIn P c.now draw username password ttlMs info d) fun _ => .done
  | .endSessions p => (deletePanelSessions p d, .done)
  | .verifySessionTotp draw sessionId code ttlMs =>
      orFailed d (Outletbox.verifySessionTotp P c.now draw sessionId code ttlMs d) .login
  | .verifyConfirmCode adminId code =>
      answered (Outletbox.verifyConfirmCode P c.now adminId code d) .confirm
  | .beginTotpEnrolment secret adminId =>
      orFailed d ((Outletbox.beginTotpEnrolment secret adminId d).map fun d => ((), d))
        fun _ => .done
  | .confirmTotpEnrolment codes adminId code =>
      answered (Outletbox.confirmTotpEnrolment P c.now codes adminId code d) .codes
  | .regenerateRecoveryCodes codes adminId code =>
      answered (Outletbox.regenerateRecoveryCodes P c.now codes adminId code d) .codes
  | .regenerateRecoveryCodesConfirmed codes adminId =>
      answered (Outletbox.regenerateRecoveryCodesConfirmed P codes adminId d) .codes
  | .disableTotp adminId code keepSessionId =>
      answered (Outletbox.disableTotp P c.now adminId code keepSessionId d) .disabled
  | .beginCeremony challenge sessionId purpose =>
      (Outletbox.beginCeremony P c.now challenge sessionId purpose d, .done)
  | .registerPasskey id input rp =>
      orFailed d (Outletbox.registerPasskey P c.now id input rp d) .registered
  | .verifyPasskeyLogin input rp login =>
      answered (Outletbox.verifyPasskeyLogin P c.now login.draw (login.assertion input) rp login.admin
        login.ttlMs d) .asserted
  | .verifyPasskeyConfirm input rp =>
      answered (Outletbox.verifyPasskeyConfirm P c.now input rp d) .asserted
  | .removePasskey adminId passkeyId keepSessionId =>
      answered (Outletbox.removePasskey P adminId passkeyId keepSessionId d) .removed

/-- The account and the code a call presents. -/
def presents (d : AccountDb) (c : Call) : Option (String × String) :=
  match c.op with
  | .verifySessionTotp _ sessionId code _ =>
      (d.sessions.find? (·.idHash == P.sha256Hex sessionId)).map fun s => (s.adminId, code)
  | .verifyConfirmCode adminId code => some (adminId, code)
  | .confirmTotpEnrolment _ adminId code => some (adminId, code)
  | .regenerateRecoveryCodes _ adminId code => some (adminId, code)
  | .disableTotp adminId code _ => some (adminId, code)
  | _ => none

/-- The answer to a code that is right. -/
def isAccepted : Output → Bool
  | .login (.ok _ _ _) => true
  | .confirm .ok => true
  | .codes (some _) => true
  | .disabled true => true
  | _ => false

/-- A call as it was made. -/
abbrev Event := History.Event AccountDb Call Output

/-- Calls may come in any order and at any instant. -/
def env (_ : List Event) (_ : AccountDb) (_ : Call) : Prop := True

section

variable {α : Type} {d : AccountDb} {x : Except Failure (α × AccountDb)} {f : α → Output}

/-- A call that throws writes nothing. -/
theorem orFailed_keeps {Q : AccountDb → Prop} (hd : Q d) (h : ∀ a d', x = .ok (a, d') → Q d') :
    Q (orFailed d x f).1 := by
  unfold orFailed
  split
  · exact h _ _ rfl
  · exact hd

/-- A call that threw accepted nothing. -/
theorem accepts_orFailed (h : isAccepted (orFailed d x f).2 = true) :
    ∃ a d', x = .ok (a, d') ∧ isAccepted (f a) = true ∧ (orFailed d x f).1 = d' := by
  cases x with
  | error e => cases h
  | ok r => exact ⟨r.1, r.2, rfl, h, rfl⟩

end

/-! ## What a step does to the accounts -/

/-- The account whose second factors a call takes away. -/
def removes (c : Call) : Option String :=
  match c.op with
  | .deleteAdmin id => some id
  | .resetSecondFactors adminId => some adminId
  | .disableTotp adminId _ _ => some adminId
  | .removePasskey adminId _ _ => some adminId
  | _ => none

/-- The columns of the authenticator app are left alone. -/
structure SameApp (a a' : AdminRow) : Prop where
  id : a'.id = a.id
  secret : a'.totpSecret = a.totpSecret
  enabledAt : a'.totpEnabledAt = a.totpEnabledAt
  lastStep : a'.totpLastStep = a.totpLastStep

/-- An accepted step is stored in the account. -/
structure StepStored (n : Int) (a a' : AdminRow) : Prop where
  id : a'.id = a.id
  secret : a'.totpSecret = a.totpSecret
  enabledAt : a'.totpEnabledAt = a.totpEnabledAt
  lastStep : a'.totpLastStep = some n

/-- All that a call does to the table of accounts. -/
inductive AdminsMove (d : AccountDb) (c : Call) (d' : AccountDb) : Prop
  | frame (id : String) (f : AdminRow → AdminRow) : d'.admins = (updateAdmin id f d).admins →
      (∀ a, SameApp a (f a)) → AdminsMove d c d'
  | accept (id typed : String) (admin : AdminRow) (n : Int) (f : AdminRow → AdminRow) :
      adminById id d = some admin → matchedStep P admin typed c.now = some n →
      d'.admins = (updateAdmin id f d).admins → (∀ a, StepStored n a (f a)) → AdminsMove d c d'
  | clear (id : String) : removes c = some id → d'.admins = (clearTotp id d).admins →
      AdminsMove d c d'
  | draw (secret : Bytes) (id : String) (admin : AdminRow) :
      c.op = .beginTotpEnrolment secret id → adminById id d = some admin →
      admin.totpEnabledAt = none →
      d'.admins = (updateAdmin id (fun a => { a with
        totpSecret := some secret, totpLastStep := none }) d).admins → AdminsMove d c d'
  | enrol (id typed : String) (admin : AdminRow) (secret : Bytes) (n : Int) :
      adminById id d = some admin → admin.totpSecret = some secret →
      admin.totpEnabledAt = none → verifyTotp P secret typed c.now none = some n →
      d'.admins = (updateAdmin id (fun a => { a with
        totpEnabledAt := some c.now, totpLastStep := some n }) d).admins → AdminsMove d c d'
  | insert (row : AdminRow) : (∀ a ∈ d.admins, a.id ≠ row.id) → row.totpSecret = none →
      row.totpEnabledAt = none → d'.admins = d.admins ++ [row] → AdminsMove d c d'
  | delete (id : String) : removes c = some id →
      d'.admins = Table.delete (fun a => a.id == id) d.admins → AdminsMove d c d'

section

variable {P} {d d' : AccountDb} {now : Int} {id typed : String} {admin : AdminRow} {c : Call}

/-- A call that leaves the table alone. -/
theorem AdminsMove.of_same (h : d'.admins = d.admins) : AdminsMove P d c d' := by
  refine .frame "" (fun a => a) ?_ fun _ => ⟨rfl, rfl, rfl, rfl⟩
  rw [h, updateAdmin]
  exact (Table.update_eq_self fun _ _ _ => rfl).symm

/-- The failures of the account are forgotten after a right code. -/
theorem adminsMove_completed {factor used : SecondFactor} {op : Op} {draw : SessionDraw}
    {pending : String} {ttlMs : Nat} {d₁ : AccountDb} (hadmin : adminById id d = some admin)
    (h : Checked P now admin typed d (some factor, d₁))
    (hdone : completeSecondFactor P now draw pending (toAdmin d admin) ttlMs used d₁ = .ok d') :
    AdminsMove P d ⟨now, op⟩ d' := by
  have hid := adminById_id hadmin
  subst hid
  obtain ⟨hd', -⟩ := completeSecondFactor_ok hdone
  have hrows : d'.admins = (forgetFailures admin.id d₁).admins := by
    rw [hd']
    rfl
  cases h with
  | totp n hn =>
      rw [forgetFailures, acceptStep, updateAdmin_updateAdmin] at hrows
      · exact .accept _ typed admin n _ hadmin hn hrows fun _ => ⟨rfl, rfl, rfl, rfl⟩
      · exact fun _ => rfl
  | recovery hn hcode => exact .frame admin.id _ hrows fun _ => ⟨rfl, rfl, rfl, rfl⟩

/-- The second step: the step of the app is kept, or a failure counted. -/
theorem adminsMove_verifySessionTotp {draw : SessionDraw} {sessionId : String} {ttlMs : Nat}
    {op : Op} {result : TotpLoginResult}
    (h : verifySessionTotp P now draw sessionId typed ttlMs d = .ok (result, d')) :
    AdminsMove P d ⟨now, op⟩ d' := by
  cases sessionTotp h with
  | nothing result hresult => exact .of_same rfl
  | passed hs hadmin hfactor hlocked hcheck hdone => exact adminsMove_completed hadmin hcheck hdone
  | @lockout _ admin => exact .frame admin.id _ rfl fun _ => ⟨rfl, rfl, rfl, rfl⟩
  | @sessionOver _ admin => exact .frame admin.id _ rfl fun _ => ⟨rfl, rfl, rfl, rfl⟩
  | @wrong _ admin => exact .frame admin.id _ rfl fun _ => ⟨rfl, rfl, rfl, rfl⟩

theorem adminsMove_verifyConfirmCode {op : Op} :
    AdminsMove P d ⟨now, op⟩ (verifyConfirmCode P now id typed d).2 := by
  have h := confirmCode_spec (P := P) now id typed d
  generalize verifyConfirmCode P now id typed d = answer at h ⊢
  cases h with
  | missing hadmin => exact .of_same rfl
  | locked hadmin hlocked => exact .of_same rfl
  | @totp admin n hadmin hlocked hn =>
      exact .accept id typed admin n _ hadmin hn rfl fun _ => ⟨rfl, rfl, rfl, rfl⟩
  | recovery hadmin hlocked hn hcode => exact .of_same rfl
  | @lockout admin => exact .frame admin.id _ rfl fun _ => ⟨rfl, rfl, rfl, rfl⟩
  | @wrong admin => exact .frame admin.id _ rfl fun _ => ⟨rfl, rfl, rfl, rfl⟩

theorem adminsMove_confirmTotpEnrolment {op : Op} {codes : List String} :
    AdminsMove P d ⟨now, op⟩ (confirmTotpEnrolment P now codes id typed d).2 := by
  rcases confirmTotpEnrolment_cases (P := P) now codes id typed d with
    h | ⟨admin, secret, n, hadmin, hsecret, henabled, hverify, h⟩
  · rw [h]
    exact .of_same rfl
  · rw [h]
    exact .enrol id typed admin secret n hadmin hsecret henabled hverify rfl

theorem adminsMove_regenerateRecoveryCodes {op : Op} {codes : List String} :
    AdminsMove P d ⟨now, op⟩ (regenerateRecoveryCodes P now codes id typed d).2 := by
  rcases regenerateRecoveryCodes_cases (P := P) now codes id typed d with
      h | ⟨admin, n, hadmin, hn, h⟩
  · rw [h]
    exact .of_same rfl
  · rw [h]
    exact .accept id typed admin n _ hadmin hn rfl fun _ => ⟨rfl, rfl, rfl, rfl⟩

theorem adminsMove_regenerateRecoveryCodesConfirmed {codes : List String} :
    AdminsMove P d c (regenerateRecoveryCodesConfirmed P codes id d).2 := by
  rcases regenerateRecoveryCodesConfirmed_cases (P := P) codes id d with h | ⟨_, -, -, h⟩
  · rw [h]
    exact .of_same rfl
  · rw [h]
    exact .of_same rfl

/-- Only this call takes the app away, and from its own account. -/
theorem adminsMove_disableTotp {keep : String} (hc : removes c = some id) :
    AdminsMove P d c (disableTotp P now id typed keep d).2 := by
  rcases disableTotp_cases (P := P) now id typed keep d with
    h | ⟨admin, -, -, ⟨n, -, h⟩ | ⟨-, -, h⟩⟩
  · rw [h]
    exact .of_same rfl
  · rw [h]
    exact .clear id hc (forceDisableTotp_admins _ _ _)
  · rw [h]
    exact .clear id hc (forceDisableTotp_admins _ _ _)

theorem adminsMove_verifyPasskeyConfirm {input : AssertPasskeyInput} {rp : RelyingParty} :
    AdminsMove P d c (verifyPasskeyConfirm P now input rp d).2 := by
  unfold verifyPasskeyConfirm
  rcases checkAssertion_cases (P := P) now .confirm input rp d with ⟨e, h⟩ | ⟨_, _, _, -, -, h⟩
  · rw [h]
    exact .of_same rfl
  · rw [h]
    exact .of_same rfl

theorem adminsMove_verifyPasskeyLogin {draw : SessionDraw} {input : AssertPasskeyInput}
    {rp : RelyingParty} {account : Admin} {ttlMs : Nat} :
    AdminsMove P d c (verifyPasskeyLogin P now draw input rp account ttlMs d).2 := by
  rcases verifyPasskeyLogin_cases (P := P) now draw input rp account ttlMs d with
    ⟨e, h⟩ | ⟨e, h⟩ | ⟨_, _, _, d', -, -, hdone, h⟩
  · rw [h]
    exact .of_same rfl
  · rw [h]
    exact .of_same rfl
  · rw [h]
    obtain ⟨hd', -⟩ := completeSecondFactor_ok hdone
    have hrows : d'.admins = (forgetFailures account.id d).admins := by
      rw [hd']
      rfl
    exact .frame account.id _ hrows fun _ => ⟨rfl, rfl, rfl, rfl⟩

theorem adminsMove_removePasskey {passkeyId keep : String} :
    AdminsMove P d c (removePasskey P id passkeyId keep d).2 := by
  rcases removePasskey_cases (P := P) id passkeyId keep d with h | ⟨pk, -, -, -, h⟩
  · rw [h]
    exact .of_same rfl
  · rw [h]
    exact .of_same (dropRecoveryCodesIfUnused_admins _ _)

/-- A login opens a session for the account whose password was right. -/
theorem signIn_ok {draw : SessionDraw} {username password : String} {ttlMs : Nat}
    {info : SessionMeta} {u : Unit}
    (h : signIn P now draw username password ttlMs info d = .ok (u, d')) :
    ∃ account, authenticate P username password d = some account ∧
      insertSession (newSession P now draw account ttlMs info) d = .ok d' := by
  unfold signIn at h
  split at h
  · cases h
  · rename_i account haccount
    obtain ⟨d₂, hd₂, he⟩ := Fallible.map_eq_ok.1 h
    cases he
    exact ⟨account, haccount, hd₂⟩

/-- What any call does to the accounts. -/
theorem adminsMove (d : AccountDb) (c : Call) : AdminsMove P d c (step P d c).1 := by
  obtain ⟨now, op⟩ := c
  cases op with
  | createAdmin id salt input =>
      refine orFailed_keeps (.of_same rfl) fun _ _ h => ?_
      obtain ⟨rfl, hfree⟩ := createAdmin_ok h
      exact .insert _ hfree rfl rfl rfl
  | deleteAdmin id => exact .delete id rfl rfl
  | resetSecondFactors id => exact .clear id rfl (forceDisableTotp_admins _ _ _)
  | signIn =>
      refine orFailed_keeps (.of_same rfl) fun _ _ h => ?_
      obtain ⟨_, -, hd'⟩ := signIn_ok h
      obtain ⟨rfl, -⟩ := insertSession_ok hd'
      exact .of_same rfl
  | endSessions p => exact .of_same rfl
  | verifySessionTotp =>
      exact orFailed_keeps (.of_same rfl) fun _ _ h => adminsMove_verifySessionTotp h
  | verifyConfirmCode => exact adminsMove_verifyConfirmCode
  | beginTotpEnrolment secret id =>
      refine orFailed_keeps (.of_same rfl) fun _ _ h => ?_
      obtain ⟨d₂, hd₂, he⟩ := Fallible.map_eq_ok.1 h
      cases he
      obtain ⟨admin, hadmin, henabled, rfl⟩ := beginTotpEnrolment_ok hd₂
      exact .draw secret id admin rfl hadmin henabled rfl
  | confirmTotpEnrolment => exact adminsMove_confirmTotpEnrolment
  | regenerateRecoveryCodes => exact adminsMove_regenerateRecoveryCodes
  | regenerateRecoveryCodesConfirmed => exact adminsMove_regenerateRecoveryCodesConfirmed
  | disableTotp => exact adminsMove_disableTotp rfl
  | beginCeremony => exact .of_same rfl
  | registerPasskey =>
      refine orFailed_keeps (.of_same rfl) fun _ _ h => ?_
      obtain ⟨_, _, -, -, -, -, rfl⟩ := registerPasskey_ok h
      exact .of_same rfl
  | verifyPasskeyLogin => exact adminsMove_verifyPasskeyLogin
  | verifyPasskeyConfirm => exact adminsMove_verifyPasskeyConfirm
  | removePasskey => exact adminsMove_removePasskey

/-! ## What a step does to the passkeys -/

/-- All that a call does to the table of passkeys. -/
inductive PasskeysMove (P : Platform) (d : AccountDb) (c : Call) (d' : AccountDb) : Prop
  | same : d'.passkeys = d.passkeys → PasskeysMove P d c d'
  | register (id challenge : String) (input : RegisterPasskeyInput) (rp : RelyingParty)
      (reg : VerifiedRegistration) : c.op = .registerPasskey id input rp →
      Awaits c.now (P.sha256Hex input.sessionId) .register challenge d →
      verifyRegistration P input.answer ⟨challenge, rp.origin, rp.rpId⟩ = .ok reg →
      (∀ p ∈ d.passkeys, p.id ≠ newId "pk" id) →
      d'.passkeys = d.passkeys ++ [newPasskey c.now id input reg] → PasskeysMove P d c d'
  | use (challenge : String) (purpose : CeremonyPurpose) (input : AssertPasskeyInput)
      (rp : RelyingParty) (cred : PasskeyRow) (signCount : Nat) :
      Awaits c.now (P.sha256Hex input.sessionId) purpose challenge d →
      Asserted P input rp challenge cred signCount d →
      d'.passkeys = (recordUse c.now cred.id signCount d).passkeys → PasskeysMove P d c d'
  /-- All passkeys of an account go, or one does. -/
  | drop (id : String) (p : PasskeyRow → Bool) : removes c = some id →
      (∀ x ∈ d.passkeys, p x = true → ∃ y ∈ d.passkeys, y.adminId = id ∧ y.id = x.id) →
      d'.passkeys = Table.delete p d.passkeys → PasskeysMove P d c d'

theorem passkeysMove_completed {account : Admin} {used : SecondFactor} {draw : SessionDraw}
    {pending : String} {ttlMs : Nat}
    (hdone : completeSecondFactor P now draw pending account ttlMs used d = .ok d') :
    d'.passkeys = d.passkeys := by
  obtain ⟨hd', -⟩ := completeSecondFactor_ok hdone
  rw [hd']
  rfl

theorem passkeysMove_verifySessionTotp {draw : SessionDraw} {sessionId : String} {ttlMs : Nat}
    {result : TotpLoginResult}
    (h : verifySessionTotp P now draw sessionId typed ttlMs d = .ok (result, d')) :
    d'.passkeys = d.passkeys := by
  cases sessionTotp h with
  | nothing result hresult => rfl
  | passed hs hadmin hfactor hlocked hcheck hdone =>
      rw [passkeysMove_completed hdone]
      cases hcheck with
      | totp n hn => rfl
      | recovery hn hcode => rfl
  | lockout => rfl
  | sessionOver => rfl
  | wrong => rfl

theorem passkeysMove_verifyConfirmCode :
    (verifyConfirmCode P now id typed d).2.passkeys = d.passkeys := by
  have h := confirmCode_spec (P := P) now id typed d
  generalize verifyConfirmCode P now id typed d = answer at h ⊢
  cases h with
  | missing => rfl
  | locked => rfl
  | totp => rfl
  | recovery => rfl
  | lockout => rfl
  | wrong => rfl

/-- What any call does to the passkeys. -/
theorem passkeysMove (d : AccountDb) (c : Call) : PasskeysMove P d c (step P d c).1 := by
  obtain ⟨now, op⟩ := c
  cases op with
  | createAdmin id salt input =>
      refine orFailed_keeps (.same rfl) fun _ _ h => ?_
      obtain ⟨rfl, -⟩ := createAdmin_ok h
      exact .same rfl
  | deleteAdmin id =>
      refine .drop id _ rfl ?_ rfl
      intro x hx hp
      exact ⟨x, hx, by simpa using hp, rfl⟩
  | resetSecondFactors id =>
      refine .drop id (fun p => p.adminId == id) rfl ?_ (forceDisableTotp_passkeys _ _ _)
      intro x hx hp
      exact ⟨x, hx, by simpa using hp, rfl⟩
  | signIn =>
      refine orFailed_keeps (.same rfl) fun _ _ h => ?_
      obtain ⟨_, -, hd'⟩ := signIn_ok h
      obtain ⟨rfl, -⟩ := insertSession_ok hd'
      exact .same rfl
  | endSessions p => exact .same rfl
  | verifySessionTotp =>
      exact orFailed_keeps (.same rfl) fun _ _ h => .same (passkeysMove_verifySessionTotp h)
  | verifyConfirmCode => exact .same passkeysMove_verifyConfirmCode
  | beginTotpEnrolment secret id =>
      refine orFailed_keeps (.same rfl) fun _ _ h => ?_
      obtain ⟨d₂, hd₂, he⟩ := Fallible.map_eq_ok.1 h
      cases he
      obtain ⟨admin, -, -, rfl⟩ := beginTotpEnrolment_ok hd₂
      exact .same rfl
  | confirmTotpEnrolment codes id typed =>
      show PasskeysMove P d _ (confirmTotpEnrolment P now codes id typed d).2
      rcases confirmTotpEnrolment_cases (P := P) now codes id typed d with
          h | ⟨_, _, _, -, -, -, -, h⟩
      · rw [h]
        exact .same rfl
      · rw [h]
        exact .same rfl
  | regenerateRecoveryCodes codes id typed =>
      show PasskeysMove P d _ (regenerateRecoveryCodes P now codes id typed d).2
      rcases regenerateRecoveryCodes_cases (P := P) now codes id typed d with h | ⟨_, _, -, -, h⟩
      · rw [h]
        exact .same rfl
      · rw [h]
        exact .same rfl
  | regenerateRecoveryCodesConfirmed codes id =>
      show PasskeysMove P d _ (regenerateRecoveryCodesConfirmed P codes id d).2
      rcases regenerateRecoveryCodesConfirmed_cases (P := P) codes id d with h | ⟨_, -, -, h⟩
      · rw [h]
        exact .same rfl
      · rw [h]
        exact .same rfl
  | disableTotp id typed keep =>
      show PasskeysMove P d _ (disableTotp P now id typed keep d).2
      rcases disableTotp_cases (P := P) now id typed keep d with
        h | ⟨_, -, -, ⟨_, -, h⟩ | ⟨-, -, h⟩⟩
      · rw [h]
        exact .same rfl
      · rw [h]
        exact .same (forceDisableTotp_passkeys _ _ _)
      · rw [h]
        exact .same (forceDisableTotp_passkeys _ _ _)
  | beginCeremony => exact .same rfl
  | registerPasskey id input rp =>
      refine orFailed_keeps (.same rfl) fun _ _ h => ?_
      obtain ⟨challenge, reg, hawaits, hreg, hfree, -, rfl⟩ := registerPasskey_ok h
      exact .register id challenge input rp reg rfl hawaits hreg (fun p hp => (hfree p hp).1) rfl
  | verifyPasskeyLogin input rp login =>
      show PasskeysMove P d _
        (verifyPasskeyLogin P now login.draw (login.assertion input) rp login.admin login.ttlMs d).2
      rcases verifyPasskeyLogin_cases (P := P) now login.draw (login.assertion input) rp login.admin
          login.ttlMs d with
        ⟨e, h⟩ | ⟨e, h⟩ | ⟨challenge, cred, signCount, d', hawaits, hasserted, hdone, h⟩
      · rw [h]
        exact .same rfl
      · rw [h]
        exact .same rfl
      · have hrows := passkeysMove_completed hdone
        rw [h]
        exact .use challenge .login (login.assertion input) rp cred signCount hawaits hasserted hrows
  | verifyPasskeyConfirm input rp =>
      show PasskeysMove P d _ (checkAssertion P now .confirm input rp d).2
      rcases checkAssertion_cases (P := P) now .confirm input rp d with
        ⟨e, h⟩ | ⟨challenge, cred, signCount, hawaits, hasserted, h⟩
      · rw [h]
        exact .same rfl
      · rw [h]
        exact .use challenge .confirm input rp cred signCount hawaits hasserted rfl
  | removePasskey id passkeyId keep =>
      show PasskeysMove P d _ (removePasskey P id passkeyId keep d).2
      rcases removePasskey_cases (P := P) id passkeyId keep d with h | ⟨pk, hpk, hid, howner, h⟩
      · rw [h]
        exact .same rfl
      · rw [h]
        refine .drop id (fun p => p.id == passkeyId) rfl ?_ (dropRecoveryCodesIfUnused_passkeys _ _)
        intro x hx hp
        exact ⟨pk, hpk, howner, hid.trans (by simpa using hp : x.id = passkeyId).symm⟩

/-- The identifiers of the passkeys stay distinct. -/
theorem nodup_passkeys_of_move (hm : PasskeysMove P d c d')
    (hn : (d.passkeys.map (·.id)).Nodup) : (d'.passkeys.map (·.id)).Nodup := by
  cases hm with
  | same hrows => rwa [hrows]
  | register id challenge input rp reg hop hawaits hreg hfree hrows =>
      rw [hrows]
      exact Table.nodup_append_row hn hfree
  | use challenge purpose input rp cred signCount hawaits hasserted hrows =>
      rw [hrows]
      refine Table.nodup_update ?_ hn
      exact fun _ => rfl
  | drop id p hc hp hrows =>
      rw [hrows]
      exact Table.nodup_delete hn

/-! ## What a step does to the sessions -/

/-- A session whose pending challenge nobody touched. -/
structure SameCeremony (s s' : SessionRow) : Prop where
  idHash : s'.idHash = s.idHash
  challenge : s'.webauthnChallenge = s.webauthnChallenge
  purpose : s'.webauthnPurpose = s.webauthnPurpose
  expiresAt : s'.webauthnExpiresAt = s.webauthnExpiresAt

theorem SameCeremony.refl (s : SessionRow) : SameCeremony s s := ⟨rfl, rfl, rfl, rfl⟩

/-- A session whose device binding nobody touched, and whose pending challenge is the same
or gone. -/
structure Touched (s s' : SessionRow) : Prop where
  idHash : s'.idHash = s.idHash
  dbscChallenge : s'.dbscChallenge = s.dbscChallenge
  dbscOfferedAt : s'.dbscOfferedAt = s.dbscOfferedAt
  ceremony : s'.webauthnChallenge = none ∨ SameCeremony s s'

/-- A session nothing was asked of yet. -/
structure Blank (s : SessionRow) : Prop where
  dbscChallenge : s.dbscChallenge = none
  dbscOfferedAt : s.dbscOfferedAt = none
  ceremony : s.webauthnChallenge = none

/-- What the calls do to the sessions and their bindings, one statement after the other.
A new session has the hash that was drawn for it. -/
inductive SessionsMove (drawn : Option String) : AccountDb → AccountDb → Prop
  | same {d d' : AccountDb} : d'.sessions = d.sessions → d'.bindings = d.bindings →
      SessionsMove drawn d d'
  | update {d d' : AccountDb} (p : SessionRow → Bool) (f : SessionRow → SessionRow) :
      d'.sessions = Table.update p f d.sessions → d'.bindings = d.bindings →
      (∀ s, Touched s (f s)) → SessionsMove drawn d d'
  | delete {d d' : AccountDb} (p : SessionRow → Bool) :
      d'.sessions = (deletePanelSessions p d).sessions →
      d'.bindings = (deletePanelSessions p d).bindings → SessionsMove drawn d d'
  | append {d d' : AccountDb} (row : SessionRow) : (∀ s ∈ d.sessions, s.idHash ≠ row.idHash) →
      drawn = some row.idHash → Blank row → d'.sessions = d.sessions ++ [row] →
      d'.bindings = d.bindings → SessionsMove drawn d d'
  | trans {d x d' : AccountDb} : SessionsMove drawn d x → SessionsMove drawn x d' →
      SessionsMove drawn d d'

/-- The hash of the session a call draws. -/
def drawnSession (P : Platform) (c : Call) : Option String :=
  match c.op with
  | .signIn draw _ _ _ _ => some (P.sha256Hex draw.sessionId)
  | .verifySessionTotp draw _ _ _ => some (P.sha256Hex draw.sessionId)
  | .verifyPasskeyLogin _ _ login => some (P.sha256Hex login.draw.sessionId)
  | _ => none

/-- The pending session is replaced by the one that was drawn. -/
theorem sessionsMove_completed {account : Admin} {used : SecondFactor} {draw : SessionDraw}
    {pending : String} {ttlMs : Nat}
    (hdone : completeSecondFactor P now draw pending account ttlMs used d = .ok d') :
    SessionsMove (some (P.sha256Hex draw.sessionId)) d d' := by
  obtain ⟨rfl, hfresh⟩ := completeSecondFactor_ok hdone
  refine .trans (x := deletePanelSessions (fun s => s.idHash == pending) d) (.delete _ rfl rfl) ?_
  refine .append _ ?_ rfl ⟨rfl, rfl, rfl⟩ rfl rfl
  intro s hs
  obtain ⟨hmem, hne⟩ := Table.mem_delete.1 hs
  exact (hfresh s hmem (by simpa using hne)).1

variable {drawn : Option String}

theorem sessionsMove_dropChallenge (idHash : String) :
    SessionsMove drawn d (dropChallenge idHash d) :=
  .update _ _ rfl rfl fun _ => ⟨rfl, rfl, rfl, .inl rfl⟩

theorem sessionsMove_checkAssertion {input : AssertPasskeyInput} {rp : RelyingParty}
    {purpose : CeremonyPurpose} :
    SessionsMove drawn d (checkAssertion P now purpose input rp d).2 := by
  rcases checkAssertion_cases (P := P) now purpose input rp d with ⟨e, h⟩ | ⟨_, _, _, -, -, h⟩
  · rw [h]
    exact sessionsMove_dropChallenge _
  · rw [h]
    exact (sessionsMove_dropChallenge _).trans (.same rfl rfl)

theorem sessionsMove_verifySessionTotp {draw : SessionDraw} {sessionId : String} {ttlMs : Nat}
    {result : TotpLoginResult}
    (h : verifySessionTotp P now draw sessionId typed ttlMs d = .ok (result, d')) :
    SessionsMove (some (P.sha256Hex draw.sessionId)) d d' := by
  cases sessionTotp h with
  | nothing result hresult => exact .same rfl rfl
  | passed hs hadmin hfactor hlocked hcheck hdone =>
      refine .trans ?_ (sessionsMove_completed hdone)
      cases hcheck with
      | totp n hn => exact .same rfl rfl
      | recovery hn hcode => exact .same rfl rfl
  | lockout => exact .delete _ rfl rfl
  | sessionOver => exact .delete _ rfl rfl
  | wrong => exact .update _ _ rfl rfl fun s => ⟨rfl, rfl, rfl, .inr ⟨rfl, rfl, rfl, rfl⟩⟩

theorem sessionsMove_verifyConfirmCode :
    SessionsMove drawn d (verifyConfirmCode P now id typed d).2 := by
  have h := confirmCode_spec (P := P) now id typed d
  generalize verifyConfirmCode P now id typed d = answer at h ⊢
  cases h with
  | missing => exact .same rfl rfl
  | locked => exact .same rfl rfl
  | totp => exact .same rfl rfl
  | recovery => exact .same rfl rfl
  | lockout => exact .delete _ rfl rfl
  | wrong => exact .same rfl rfl

theorem sessionsMove_forceDisableTotp {keep : Option String} :
    SessionsMove drawn d (forceDisableTotp P id keep d) := by
  refine .trans (x := dropRecoveryCodesIfUnused id (clearTotp id d)) (.same ?_ ?_) ?_
  · rw [dropRecoveryCodesIfUnused_sessions]
    rfl
  · rw [dropRecoveryCodesIfUnused_bindings]
    rfl
  · cases keep with
    | none => exact .delete _ rfl rfl
    | some sessionId => exact .delete _ rfl rfl

/-- Only `beginCeremony` makes a challenge pending. -/
theorem sessionsMove (c : Call) (hop : ∀ challenge sessionId purpose,
    c.op ≠ .beginCeremony challenge sessionId purpose) :
    SessionsMove (drawnSession P c) d (step P d c).1 := by
  obtain ⟨now, op⟩ := c
  cases op with
  | createAdmin id salt input =>
      refine orFailed_keeps (.same rfl rfl) fun _ _ h => ?_
      obtain ⟨rfl, -⟩ := createAdmin_ok h
      exact .same rfl rfl
  | deleteAdmin id => exact .delete _ rfl rfl
  | resetSecondFactors id =>
      show SessionsMove _ d (forceDisableTotp P id none
        { d with passkeys := Table.delete (fun p => p.adminId == id) d.passkeys })
      refine .trans ?_ sessionsMove_forceDisableTotp
      exact .same rfl rfl
  | signIn draw username password ttlMs info =>
      refine orFailed_keeps (.same rfl rfl) fun _ _ h => ?_
      obtain ⟨_, -, hd'⟩ := signIn_ok h
      obtain ⟨rfl, hfresh, -⟩ := insertSession_ok hd'
      exact .append _ (fun s hs => (hfresh s hs).1) rfl ⟨rfl, rfl, rfl⟩ rfl rfl
  | endSessions p => exact .delete p rfl rfl
  | verifySessionTotp =>
      exact orFailed_keeps (.same rfl rfl) fun _ _ h => sessionsMove_verifySessionTotp h
  | verifyConfirmCode => exact sessionsMove_verifyConfirmCode
  | beginTotpEnrolment secret id =>
      refine orFailed_keeps (.same rfl rfl) fun _ _ h => ?_
      obtain ⟨d₂, hd₂, he⟩ := Fallible.map_eq_ok.1 h
      cases he
      obtain ⟨admin, -, -, rfl⟩ := beginTotpEnrolment_ok hd₂
      exact .same rfl rfl
  | confirmTotpEnrolment codes id typed =>
      show SessionsMove _ d (confirmTotpEnrolment P now codes id typed d).2
      rcases confirmTotpEnrolment_cases (P := P) now codes id typed d with
          h | ⟨_, _, _, -, -, -, -, h⟩
      · rw [h]
        exact .same rfl rfl
      · rw [h]
        exact .update _ _ rfl rfl fun s => ⟨rfl, rfl, rfl, .inr ⟨rfl, rfl, rfl, rfl⟩⟩
  | regenerateRecoveryCodes codes id typed =>
      show SessionsMove _ d (regenerateRecoveryCodes P now codes id typed d).2
      rcases regenerateRecoveryCodes_cases (P := P) now codes id typed d with h | ⟨_, _, -, -, h⟩
      · rw [h]
        exact .same rfl rfl
      · rw [h]
        exact .same rfl rfl
  | regenerateRecoveryCodesConfirmed codes id =>
      show SessionsMove _ d (regenerateRecoveryCodesConfirmed P codes id d).2
      rcases regenerateRecoveryCodesConfirmed_cases (P := P) codes id d with h | ⟨_, -, -, h⟩
      · rw [h]
        exact .same rfl rfl
      · rw [h]
        exact .same rfl rfl
  | disableTotp id typed keep =>
      show SessionsMove _ d (disableTotp P now id typed keep d).2
      rcases disableTotp_cases (P := P) now id typed keep d with
        h | ⟨_, -, -, ⟨_, -, h⟩ | ⟨-, -, h⟩⟩
      · rw [h]
        exact .same rfl rfl
      · rw [h]
        show SessionsMove _ d (forceDisableTotp P id (some keep) d)
        exact sessionsMove_forceDisableTotp
      · rw [h]
        show SessionsMove _ d (forceDisableTotp P id (some keep) (useCode P now id typed d))
        refine .trans ?_ sessionsMove_forceDisableTotp
        exact .same rfl rfl
  | beginCeremony challenge sessionId purpose => exact absurd rfl (hop challenge sessionId purpose)
  | registerPasskey id input rp =>
      refine orFailed_keeps (.same rfl rfl) fun _ _ h => ?_
      obtain ⟨_, _, -, -, -, -, rfl⟩ := registerPasskey_ok h
      refine (sessionsMove_dropChallenge _).trans (.update _ _ rfl rfl ?_)
      exact fun s => ⟨rfl, rfl, rfl, .inr ⟨rfl, rfl, rfl, rfl⟩⟩
  | verifyPasskeyLogin input rp login =>
      show SessionsMove _ d
        (verifyPasskeyLogin P now login.draw (login.assertion input) rp login.admin login.ttlMs d).2
      rcases verifyPasskeyLogin_cases (P := P) now login.draw (login.assertion input) rp login.admin
          login.ttlMs d with ⟨e, h⟩ | ⟨e, h⟩ | ⟨_, _, _, d', -, -, hdone, h⟩
      · rw [h]
        exact sessionsMove_dropChallenge _
      · rw [h]
        exact .same rfl rfl
      · rw [h]
        refine .trans ?_ (sessionsMove_completed hdone)
        exact (sessionsMove_dropChallenge _).trans (.same rfl rfl)
  | verifyPasskeyConfirm => exact sessionsMove_checkAssertion
  | removePasskey id passkeyId keep =>
      show SessionsMove _ d (removePasskey P id passkeyId keep d).2
      rcases removePasskey_cases (P := P) id passkeyId keep d with h | ⟨pk, -, -, -, h⟩
      · rw [h]
        exact .same rfl rfl
      · rw [h]
        refine .trans (x := dropRecoveryCodesIfUnused id
          { d with passkeys := Table.delete (fun p => p.id == passkeyId) d.passkeys }) ?_
          (.delete _ rfl rfl)
        exact .same (dropRecoveryCodesIfUnused_sessions _ _)
          (dropRecoveryCodesIfUnused_bindings _ _)

end

end Factors

end Outletbox
