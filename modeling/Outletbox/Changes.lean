import Outletbox.Credentials

/-!
# Requests that change credentials

A request that changes a password or a second factor says so in the audit log,
and so does one that opens a session.  What it does not say it did, it did not
do.
-/

namespace Outletbox

namespace Credentials

open Recovery (HasFactor)

variable (P : Platform) (cfg : Config)

/-! ## Requests -/

/-- The actions of audit events. -/
def actions (audit : List AuditEvent) : List String := audit.map (·.action)

/-- The account whose credentials a route changes, and the action that says so. -/
def changes (own : String) : PanelRoute → Option (String × String)
  | .settings .password => some (own, "admin.password_changed")
  | .settings .totpConfirm => some (own, "admin.totp_enabled")
  | .settings .totpDisable => some (own, "admin.totp_disabled")
  | .settings .passkeys => some (own, "admin.passkey_added")
  | .settings (.passkeyRemove _) => some (own, "admin.passkey_removed")
  | .users (.password id) => some (id, "user.password_reset")
  | .users (.totp id) => some (id, "user.totp_reset")
  | .users (.disable id) => some (id, "user.disable")
  | .users (.delete id) => some (id, "user.delete")
  | _ => none

/-- The routes that enrol a second factor. -/
def enrolment : PanelRoute → Bool
  | .settings .totpConfirm | .settings .passkeys => true
  | _ => false

/-- A request of the account `own` changed the credentials of an account. -/
def Touches (own : String) (route : PanelRoute) (audit : List AuditEvent) (id : String) : Prop :=
  ∃ action, changes own route = some (id, action) ∧ action ∈ actions audit

/-- A session is opened after a factor of the account was presented. -/
inductive Completion (req : Request) (s : Signed) (d : AccountDb) (id : String) : Prop
  | code {admin : AdminRow} {factor : SecondFactor} {d₁ d₂ : AccountDb} :
      adminById id d = some admin →
      Checked P req.now admin (req.field "code") d (some factor, d₁) →
      completeSecondFactor P req.now req.sessionDraw (P.sha256Hex s.sessionId) (toAdmin d admin)
        cfg.sessionTtlMs factor d₁ = .ok d₂ →
      Completion req s d id
  | passkey {challenge : String} {cred : PasskeyRow} {signCount : Nat} {d₂ : AccountDb} :
      s.admin.id = id → Awaits req.now (P.sha256Hex s.sessionId) .login challenge d →
      Asserted P (assertion req s) (relyingParty cfg) challenge cred signCount d →
      completeSecondFactor P req.now req.sessionDraw (P.sha256Hex s.sessionId) s.admin
        cfg.sessionTtlMs .passkey
        (recordUse req.now cred.id signCount (dropChallenge (P.sha256Hex s.sessionId) d)) =
          .ok d₂ →
      Completion req s d id

section

variable {P} {cfg} {d d₁ d' : AccountDb} {id own : String} {touched : String → Prop}
  {kept : Option String} {enrols : Prop} {opened : Option Standing} {route : PanelRoute}
  {audit : List AuditEvent}

/-- A request that does not say it changed credentials, and did not. -/
theorem Quiet.silent (h : Quiet d d')
    (hno : ∀ id action, changes own route = some (id, action) → action ∉ actions audit) :
    Effect (Touches own route audit) kept enrols none d d' :=
  h.effect fun id ⟨action, hroute, haction⟩ => hno id action hroute haction

/-- A request that says it changed the credentials of an account. -/
theorem Effect.told {action : String} (h : Effect (· = id) kept enrols opened d d')
    (hroute : changes own route = some (id, action)) (haction : action ∈ actions audit) :
    Effect (Touches own route audit) kept enrols opened d d' := by
  refine h.congr fun x => ⟨?_, ?_⟩
  · rintro ⟨action', hroute', -⟩
    rw [hroute] at hroute'
    cases hroute'
    rfl
  · rintro rfl
    exact ⟨action, hroute, haction⟩

/-! ## Signing in -/

theorem authenticate_some {username password : String} {account : Admin}
    (h : authenticate P username password d = some account) :
    ∃ row ∈ d.admins, row.username = username ∧ row.disabledAt = none ∧ account = toAdmin d row := by
  unfold authenticate at h
  split at h
  · cases h
  · rename_i row hrow
    split at h
    · cases h
    · rename_i hgood
      simp only [Bool.or_eq_true, not_or, Bool.not_eq_true, Option.isSome_eq_false_iff,
        Option.isNone_iff_eq_none] at hgood
      cases h
      exact ⟨row, List.mem_of_find?_eq_some hrow, by simpa using List.find?_some hrow, hgood.2, rfl⟩

/-- The account of a row, where accounts have their own ids. -/
theorem adminById_mem (hd : Distinct d) {row : AdminRow} (hrow : row ∈ d.admins) :
    adminById row.id d = some row :=
  Table.find?_of_mem hd.admins hrow

/-- A login opens no session, or one that waits for a second factor where there is one. -/
theorem login_effect (hd : Distinct d) (req : Request) :
    ((postLogin P cfg req d).state = d ∧
        "admin.login" ∉ actions (postLogin P cfg req d).audit ∧
        "admin.login_password" ∉ actions (postLogin P cfg req d).audit) ∨
      ∃ account row, adminById account.id d = some row ∧ account = toAdmin d row ∧
        Effect (fun _ => False) none False
          (some ⟨P.sha256Hex req.random.sessionId, account.id, !account.hasSecondFactor⟩) d
          (postLogin P cfg req d).state ∧
        actions (postLogin P cfg req d).audit =
          [if account.hasSecondFactor then "admin.login_password" else "admin.login"] := by
  unfold postLogin
  cases haccount : loginAdmin P req d with
  | none => exact .inl ⟨rfl, by simp [actions], by simp [actions]⟩
  | some account =>
      dsimp only
      cases hsession : createSession P req.now req.sessionDraw account cfg.sessionTtlMs
          (sessionMeta req) d with
      | error e => exact .inl ⟨rfl, by simp [actions], by simp [actions]⟩
      | ok d₁ =>
          have hauth : ∃ row ∈ d.admins, account = toAdmin d row := by
            unfold loginAdmin at haccount
            dsimp only at haccount
            split at haccount
            · cases haccount
            · obtain ⟨row, hrow, -, -, he⟩ := authenticate_some haccount
              exact ⟨row, hrow, he⟩
          obtain ⟨row, hrow, rfl⟩ := hauth
          obtain ⟨rfl, hfresh, -⟩ := insertSession_ok hsession
          have hopen : Effect (fun _ => False) none False (some ⟨P.sha256Hex req.random.sessionId,
              (toAdmin d row).id, !(toAdmin d row).hasSecondFactor⟩) d
              { d with sessions := d.sessions ++ [newSession P req.now req.sessionDraw
                (toAdmin d row) cfg.sessionTtlMs (sessionMeta req)] } :=
            effect_open (.refl d) (fun s hs => (hfresh s hs).1) rfl rfl rfl fun _ h => h
          refine .inr ⟨toAdmin d row, row, adminById_mem hd hrow, rfl, ?_⟩
          dsimp only
          split
          · rename_i hfactor
            exact ⟨hopen, by simp [actions]⟩
          · rename_i hfactor
            exact ⟨hopen.andThen (quiet_recordLogin _ _ _ _ _), by simp [actions]⟩

theorem quiet_dbscRegister (req : Request) (signed : Option Signed) (d : AccountDb) :
    Quiet d (dbscRegister P cfg req signed d).state := by
  unfold dbscRegister
  split
  · split
    · exact .refl d
    · split
      · rename_i hok
        obtain ⟨_, -, _, _, _, -, -, -, -, -, -, rfl⟩ := registerBinding_ok hok
        exact quiet_update rfl rfl (by exact fun _ => rfl) rfl
      · exact .refl d
      · exact .refl d
  · exact .refl d

theorem quiet_dbscRefresh (req : Request) (d : AccountDb) :
    Quiet d (dbscRefresh P cfg req d).state := by
  have hrefresh : ∀ {result d'}, refreshBinding P req.now req.bindingDraw
      (unquote req.secureSessionId) (proofFromHeader req.sessionResponse) d = .ok (result, d') →
      Quiet d d' := by
    intro result d' hok
    obtain ⟨-, rfl⟩ | ⟨b, -, -, hfresh | ⟨_, _, _, -, -, -, -, -, -, rfl⟩⟩ :=
      refreshBinding_cases hok
    · exact .refl _
    · cases hfresh
      exact quiet_same rfl rfl rfl
    · exact quiet_same rfl rfl rfl
  unfold dbscRefresh
  dsimp only
  split
  · exact .refl d
  · split
    · exact .refl d
    · exact .refl d
    · rename_i hok
      exact hrefresh hok
    · rename_i hok
      exact hrefresh hok
    · rename_i hok
      exact hrefresh hok

theorem quiet_ceremonyOptions (req : Request) (s : Signed) (purpose : CeremonyPurpose)
    (d : AccountDb) : Quiet d (ceremonyOptions P cfg req s purpose d).state := by
  unfold ceremonyOptions
  dsimp only
  split
  · exact .refl d
  · exact quiet_updateSession (by exact fun _ => rfl) _ d

/-- A wrong code is counted, and may end pending sessions. -/
theorem quiet_countFailure (admin : AdminRow) (d : AccountDb) : Quiet d (countFailure admin d) :=
  quiet_updateAdmin (by exact fun _ => ⟨rfl, rfl, fun h => h, rfl⟩) _ d

theorem quiet_lockAccount (now : Int) (admin : AdminRow) (d : AccountDb) :
    Quiet d (lockAccount now admin d) :=
  (quiet_updateAdmin (by exact fun _ => ⟨rfl, rfl, fun h => h, rfl⟩) _ d).trans (quiet_deleteSessions _ _)

theorem quiet_checked {now : Int} {admin : AdminRow} {code : String} {factor : Option SecondFactor}
    (h : Checked P now admin code d (factor, d₁)) : Quiet d d₁ := by
  cases h with
  | totp step hstep => exact quiet_updateAdmin (by exact fun _ => ⟨rfl, rfl, fun h => h, rfl⟩) _ d
  | recovery hstep hcode => exact quiet_useCode _ _ _ d
  | wrong hstep hcode => exact .refl d

/-- What a request does that opens a session after a second factor, or nothing of note. -/
def SignsIn (P : Platform) (cfg : Config) (req : Request) (s : Signed) (d : AccountDb)
    (out : Outcome AccountDb PanelPage) : Prop :=
  (Quiet d out.state ∧ "admin.login" ∉ actions out.audit) ∨
    ∃ id, (∃ a, adminById id d = some a) ∧ Completion P cfg req s d id ∧
      actions out.audit = ["admin.login"] ∧ Effect (fun _ => False) none False
        (some ⟨P.sha256Hex req.random.sessionId, id, true⟩) d out.state

theorem totp_signsIn (req : Request) (s : Signed) (d : AccountDb) :
    SignsIn P cfg req s d (postTotp P cfg req s d) := by
  unfold postTotp
  dsimp only
  split
  · exact .inl ⟨.refl d, by simp [actions]⟩
  cases hresult : verifySessionTotp P req.now req.sessionDraw s.sessionId (req.field "code")
      cfg.sessionTtlMs d with
  | error e => exact .inl ⟨.refl d, by simp [actions]⟩
  | ok out =>
      have hout := sessionTotp hresult
      cases hout with
      | nothing result hno =>
          cases result with
          | ok a b c => exact absurd rfl (hno a b c)
          | invalid => exact .inl ⟨.refl d, by simp [actions, Signed.event]⟩
          | locked t => exact .inl ⟨.refl d, by simp [actions, Signed.event]⟩
      | @passed x admin factor d₁ d₂ hx hadmin hfactor hlocked hchecked hok =>
          have hid : admin.id = x.adminId := adminById_id hadmin
          refine .inr ⟨admin.id, ⟨admin, hid ▸ hadmin⟩, .code (hid ▸ hadmin) hchecked hok, ?_, ?_⟩
          · simp [actions, signedIn, Signed.event]
          · exact ((effect_completeSecondFactor hok fun _ h => h).after
              (quiet_checked hchecked)).andThen (quiet_recordLogin _ _ _ _ _)
      | lockout => exact .inl ⟨quiet_lockAccount _ _ d, by simp [actions, Signed.event]⟩
      | sessionOver =>
          exact .inl ⟨(quiet_countFailure _ d).trans (quiet_deleteSessions _ _),
            by simp [actions, Signed.event]⟩
      | wrong =>
          exact .inl ⟨(quiet_countFailure _ d).trans
            (quiet_updateSession (by exact fun _ => rfl) _ _), by simp [actions, Signed.event]⟩

theorem passkeyLogin_signsIn (req : Request) (s : Signed)
    (hown : ∃ a, adminById s.admin.id d = some a) :
    SignsIn P cfg req s d (passkeyLogin P cfg req s d) := by
  have hdrop : Quiet d (dropChallenge (P.sha256Hex s.sessionId) d) :=
    quiet_updateSession (by exact fun _ => rfl) _ d
  unfold passkeyLogin
  split
  · exact .inl ⟨.refl d, by simp [actions]⟩
  rcases verifyPasskeyLogin_cases (P := P) req.now req.sessionDraw (assertion req s)
      (relyingParty cfg) s.admin cfg.sessionTtlMs d with
      ⟨e, h⟩ | ⟨e, h⟩ | ⟨ch, cred, count, d₂, hawaits, hassert, hok, h⟩
  · simp only [h]
    split
    · rename_i heq
      cases heq
    · rename_i heq
      cases heq
      exact .inl ⟨hdrop, by simp [actions, Signed.event]⟩
    · rename_i heq
      cases heq
      exact .inl ⟨hdrop, by simp [actions]⟩
  · simp only [h]
    split
    · rename_i heq
      cases heq
    · rename_i heq
      cases heq
      exact .inl ⟨.refl d, by simp [actions, Signed.event]⟩
    · rename_i heq
      cases heq
      exact .inl ⟨.refl d, by simp [actions]⟩
  · simp only [h]
    refine .inr ⟨s.admin.id, hown, .passkey rfl hawaits hassert hok, ?_, ?_⟩
    · simp [actions, signedIn, Signed.event]
    · exact ((effect_completeSecondFactor hok fun _ h => h).after
        (hdrop.trans (quiet_recordUse _ _ _ _))).andThen (quiet_recordLogin _ _ _ _ _)

/-! ## The settings of an account -/

theorem Effect.enrolling {enrols' : Prop} (h : Effect touched kept enrols opened d d')
    (he : enrols → enrols') : Effect touched kept enrols' opened d d' := by
  refine ⟨h.accounts, fun s' hs' => ?_, h.distinct⟩
  rcases h.rows s' hs' with hopened | ⟨hne, s, hs, hfrom⟩
  · exact .inl hopened
  · refine .inr ⟨hne, s, hs, hfrom.idHash, hfrom.adminId, hfrom.raised, hfrom.same, fun ht => ?_⟩
    obtain ⟨hkept, haccount, hfactor⟩ := hfrom.spared ht
    exact ⟨hkept, haccount, fun hf => (hfactor hf).imp_left he⟩

/-- A password stays, or is replaced. -/
theorem changeAdminPassword_cases {adminId current password salt : String} {changed : Bool}
    (h : changeAdminPassword P adminId current password salt d = .ok (changed, d')) :
    (changed = false ∧ d' = d) ∨ changed = true ∧ d' = updateAdmin adminId (fun a => { a with
      passwordHash := hashPassword P password salt, mustChangePassword := false }) d := by
  unfold changeAdminPassword at h
  split at h
  · cases h
  split at h
  · cases h
    exact .inl ⟨rfl, rfl⟩
  split at h
  · cases h
    exact .inl ⟨rfl, rfl⟩
  split at h
  · cases h
  cases h
  exact .inr ⟨rfl, rfl⟩

theorem password_effect (req : Request) (s : Signed) (hown : ∃ a, adminById s.admin.id d = some a) :
    Effect (Touches s.admin.id (.settings .password) (postPassword P cfg req s d).audit)
      (some (P.sha256Hex s.sessionId)) False none d (postPassword P cfg req s d).state := by
  have hidle : Effect (Touches s.admin.id (.settings .password) [])
      (some (P.sha256Hex s.sessionId)) False none d d :=
    (Quiet.refl d).silent fun _ _ _ => by simp [actions]
  unfold postPassword
  dsimp only
  split
  · exact hidle
  split
  · exact hidle
  · rename_i hok
    obtain ⟨-, rfl⟩ | ⟨h, -⟩ := changeAdminPassword_cases hok
    · exact hidle
    · cases h
  · rename_i hok
    obtain ⟨h, -⟩ | ⟨-, rfl⟩ := changeAdminPassword_cases hok
    · cases h
    · exact (effect_password (by exact fun _ => ⟨rfl, rfl⟩) hown).told rfl
        (by simp [actions, securityDone, Signed.event])

theorem totpConfirm_effect (req : Request) (s : Signed)
    (hown : ∃ a, adminById s.admin.id d = some a) :
    Effect (Touches s.admin.id (.settings .totpConfirm) (totpConfirm P cfg req s d).audit)
      (some (P.sha256Hex s.sessionId)) True none d (totpConfirm P cfg req s d).state := by
  unfold totpConfirm
  dsimp only
  rcases confirmTotpEnrolment_cases (P := P) req.now req.random.recoveryCodes s.admin.id
      (req.field "code") d with h | ⟨admin, secret, step, -, -, -, -, h⟩
  · rw [h]
    exact (Quiet.refl d).silent fun _ _ _ => by simp [actions, securityError]
  · rw [h]
    exact (effect_enableTotp _ _ _ hown).told rfl (by simp [actions, securityDone, Signed.event])

theorem totpDisable_effect (req : Request) (s : Signed)
    (hown : ∃ a, adminById s.admin.id d = some a) :
    Effect (Touches s.admin.id (.settings .totpDisable) (totpDisable P cfg req s d).audit)
      (some (P.sha256Hex s.sessionId)) False none d (totpDisable P cfg req s d).state := by
  unfold totpDisable
  dsimp only
  split
  · exact (Quiet.refl d).silent fun _ _ _ => by simp [actions, securityError]
  rcases disableTotp_cases (P := P) req.now s.admin.id (req.field "code") s.sessionId d with
    h | ⟨a, -, -, ⟨-, -, h⟩ | ⟨-, -, h⟩⟩
  · rw [h]
    refine (Quiet.refl d).silent ?_
    rintro _ _ ⟨⟩
    simp [actions, Signed.event]
  · rw [h]
    exact (effect_disableTotp hown).told rfl (by simp [actions, securityDone, Signed.event])
  · rw [h]
    have hused := quiet_useCode (P := P) req.now s.admin.id (req.field "code") d
    exact ((effect_disableTotp (hused.account.2 hown)).after hused).told rfl
      (by simp [actions, securityDone, Signed.event])

theorem passkeys_effect (req : Request) (s : Signed) (st : AccountState)
    (hown : ∃ a, adminById s.admin.id st.accounts = some a) :
    Effect (Touches s.admin.id (.settings .passkeys) (postPasskey P cfg req s st).audit)
      (some (P.sha256Hex s.sessionId)) True none st.accounts
      (postPasskey P cfg req s st).state.accounts := by
  unfold postPasskey
  dsimp only
  cases hregister : registerPasskey P req.now req.random.id (registration P req s)
      (relyingParty cfg) st.accounts with
  | error e =>
      cases e with
      | webAuthn reason =>
          refine (Quiet.refl _).silent ?_
          rintro _ _ ⟨⟩
          simp [actions, Signed.event]
      | _ => exact (Quiet.refl _).silent fun _ _ _ => by simp [actions]
  | ok out =>
      obtain ⟨pk, d₁⟩ := out
      obtain ⟨challenge, reg, -, -, hfresh, -, rfl⟩ := registerPasskey_ok hregister
      have hadded := @effect_addPasskey P st.accounts s.admin.id s.sessionId _
        (newPasskey req.now req.random.id (registration P req s) reg) rfl
        (fun p hp => (hfresh p hp).1) hown rfl
      refine Effect.told ?_ rfl (by simp [actions, Signed.event])
      dsimp only
      split
      · refine hadded.andThen ?_
        rcases regenerateRecoveryCodesConfirmed_cases (P := P) req.random.recoveryCodes s.admin.id
            (destroyOtherSessions P s.admin.id s.sessionId _) with h | ⟨_, -, -, h⟩
        · rw [h]
          exact .refl _
        · rw [h]
          exact quiet_replaceCodes _ _ _
      · exact hadded

theorem passkeyRemove_effect (x : String) (req : Request) (s : Signed)
    (hown : ∃ a, adminById s.admin.id d = some a) :
    Effect (Touches s.admin.id (.settings (.passkeyRemove x))
        (postPasskeyRemove P cfg x req s d).audit)
      (some (P.sha256Hex s.sessionId)) False none d (postPasskeyRemove P cfg x req s d).state := by
  have hidle : Effect (Touches s.admin.id (.settings (.passkeyRemove x)) [])
      (some (P.sha256Hex s.sessionId)) False none d d :=
    (Quiet.refl d).silent fun _ _ _ => by simp [actions]
  unfold postPasskeyRemove
  dsimp only
  split
  · exact hidle
  split
  · exact hidle
  rename_i id _
  rcases removePasskey_cases (P := P) s.admin.id id s.sessionId d with h | ⟨pk, hpk, rfl, hmine, h⟩
  · rw [h]
    exact hidle
  · rw [h]
    exact (effect_removePasskey hpk hmine hown).told rfl
      (by simp [actions, securityDone, Signed.event])

theorem quiet_confirmCode (req : Request) (s : Signed) (d : AccountDb) :
    Quiet d (confirmCode P cfg req s d).state := by
  have hcode := confirmCode_spec (P := P) req.now s.admin.id (req.field "code") d
  have hcall : Quiet d (verifyConfirmCode P req.now s.admin.id (req.field "code") d).2 := by
    generalize verifyConfirmCode P req.now s.admin.id (req.field "code") d = out at hcode
    cases hcode with
    | missing => exact .refl d
    | locked => exact .refl d
    | totp => exact quiet_updateAdmin (by exact fun _ => ⟨rfl, rfl, fun h => h, rfl⟩) _ d
    | recovery => exact quiet_useCode _ _ _ d
    | lockout => exact quiet_lockAccount _ _ d
    | wrong => exact quiet_countFailure _ d
  unfold confirmCode
  dsimp only
  generalize verifyConfirmCode P req.now s.admin.id (req.field "code") d = out at hcall ⊢
  split
  · exact hcall.trans (quiet_updateSession (by exact fun _ => rfl) _ _)
  · exact hcall
  · exact hcall

theorem quiet_confirmPasskey (req : Request) (s : Signed) (d : AccountDb) :
    Quiet d (confirmPasskey P cfg req s d).state := by
  have hdrop : Quiet d (dropChallenge (P.sha256Hex s.sessionId) d) :=
    quiet_updateSession (by exact fun _ => rfl) _ d
  have hcall : Quiet d (verifyPasskeyConfirm P req.now (assertion req s) (relyingParty cfg) d).2 := by
    unfold verifyPasskeyConfirm
    rcases checkAssertion_cases (P := P) req.now .confirm (assertion req s)
        (relyingParty cfg) d with
      ⟨e, h⟩ | ⟨_, cred, count, -, -, h⟩
    · rw [h]
      exact hdrop
    · rw [h]
      exact hdrop.trans (quiet_recordUse _ _ _ _)
  unfold confirmPasskey
  generalize verifyPasskeyConfirm P req.now (assertion req s) (relyingParty cfg) d = out
    at hcall ⊢
  split
  · exact hcall.trans (quiet_updateSession (by exact fun _ => rfl) _ _)
  · exact hcall
  · exact hcall

theorem quiet_totpBegin (req : Request) (s : Signed) (d : AccountDb) :
    Quiet d (totpBegin P cfg req s d).state := by
  unfold totpBegin
  split
  · exact .refl d
  · rename_i hok
    obtain ⟨a, ha, -, rfl⟩ := beginTotpEnrolment_ok hok
    exact quiet_updateAdmin (by exact fun _ => ⟨rfl, rfl, fun h => h, rfl⟩) _ d

theorem quiet_totpRecovery (req : Request) (s : Signed) (d : AccountDb) :
    Quiet d (totpRecovery P cfg req s d).state := by
  unfold totpRecovery
  dsimp only
  rcases regenerateRecoveryCodes_cases (P := P) req.now req.random.recoveryCodes s.admin.id
      (req.field "code") d with h | ⟨_, _, -, -, h⟩
  · rw [h]
    exact .refl d
  · rw [h]
    exact (quiet_updateAdmin (f := fun a => { a with totpLastStep := some _ })
      (by exact fun _ => ⟨rfl, rfl, fun h => h, rfl⟩) _ d).trans (quiet_replaceCodes _ _ _)

theorem quiet_recoveryRegenerate (req : Request) (s : Signed) (d : AccountDb) :
    Quiet d (recoveryRegenerate P cfg req s d).state := by
  unfold recoveryRegenerate
  dsimp only
  rcases regenerateRecoveryCodesConfirmed_cases (P := P) req.random.recoveryCodes s.admin.id d with
    h | ⟨_, -, -, h⟩
  · rw [h]
    exact .refl d
  · rw [h]
    exact quiet_replaceCodes _ _ _

theorem quiet_revokeSession (x : String) (req : Request) (s : Signed) (d : AccountDb) :
    Quiet d (postRevokeSession P cfg x req s d).state := by
  have hcall : Quiet d (revokeSession s.admin.id x d).2 := quiet_deleteSessions _ d
  unfold postRevokeSession
  dsimp only
  split
  · exact .refl d
  · generalize revokeSession s.admin.id x d = out at hcall ⊢
    split
    · exact hcall
    · exact hcall

theorem quiet_passkeyOptions (req : Request) (s : Signed) (d : AccountDb) :
    Quiet d (passkeyOptions P cfg req s d).state := by
  unfold passkeyOptions
  split
  · exact .refl d
  · dsimp only
    split
    · exact .refl d
    · exact quiet_updateSession (by exact fun _ => rfl) _ d

/-- Every route of the settings: what changes is told, and the session it is changed from stays. -/
theorem settings_effect (route : SettingsRoute) (req : Request) (s : Signed) (st : AccountState)
    (hown : ∃ a, adminById s.admin.id st.accounts = some a) :
    Effect (Touches s.admin.id (.settings route) (route.handle P cfg req s st).audit)
      (some (P.sha256Hex s.sessionId)) (enrolment (.settings route) = true) none st.accounts
      (route.handle P cfg req s st).state.accounts := by
  have hquiet : ∀ {d'}, Quiet st.accounts d' → changes s.admin.id (.settings route) = none →
      Effect (Touches s.admin.id (.settings route) (route.handle P cfg req s st).audit)
        (some (P.sha256Hex s.sessionId)) (enrolment (.settings route) = true) none st.accounts d' := by
    intro d' hq hroute
    refine hq.silent fun id action h => ?_
    rw [hroute] at h
    cases h
  cases route with
  | confirmPage => exact hquiet (.refl _) rfl
  | confirmCode => exact hquiet (quiet_confirmCode req s _) rfl
  | confirmPassword =>
      refine hquiet ?_ rfl
      show Quiet st.accounts (confirmPassword P cfg req s st.accounts).state
      unfold confirmPassword
      split
      · exact .refl _
      · exact quiet_updateSession (by exact fun _ => rfl) _ _
  | confirmPasskeyOptions => exact hquiet (quiet_ceremonyOptions req s .confirm _) rfl
  | confirmPasskey => exact hquiet (quiet_confirmPasskey req s _) rfl
  | security => exact hquiet (.refl _) rfl
  | password => exact (password_effect req s hown).enrolling False.elim
  | totpBegin => exact hquiet (quiet_totpBegin req s _) rfl
  | totpConfirm => exact (totpConfirm_effect req s hown).enrolling fun _ => rfl
  | totpRecovery => exact hquiet (quiet_totpRecovery req s _) rfl
  | totpDisable => exact (totpDisable_effect req s hown).enrolling False.elim
  | passkeyOptions => exact hquiet (quiet_passkeyOptions req s _) rfl
  | passkeys => exact (passkeys_effect req s st hown).enrolling fun _ => rfl
  | passkeyRemove x => exact (passkeyRemove_effect x req s hown).enrolling False.elim
  | recoveryRegenerate => exact hquiet (quiet_recoveryRegenerate req s _) rfl
  | revokeOthers => exact hquiet (quiet_deleteSessions _ _) rfl
  | revokeSession x => exact hquiet (quiet_revokeSession x req s _) rfl

/-! ## The accounts of others -/

theorem userFailed_audit {req : Request} {s : Signed} {db : Tables} (e : Failure) :
    (userFailed P req s e db).audit = [] := by
  unfold userFailed
  split <;> rfl

/-- An action on an account that fails leaves the tables; one that runs is audited. -/
theorem userAction_effect {action x : String} {req : Request} {s : Signed} {db : Tables}
    {f : String → Tables → Except Failure (UserDone × Tables)}
    (hf : ∀ done db', f x db = .ok (done, db') → ∀ audit, actions audit = [action] →
      Effect (Touches own route audit) none False none db.accounts db'.accounts) :
    Effect (Touches own route (userAction P action x req s f db).audit) none False none
      db.accounts (userAction P action x req s f db).state.accounts := by
  have hidle : Effect (Touches own route []) none False none db.accounts db.accounts :=
    (Quiet.refl _).silent fun _ _ _ => by simp [actions]
  unfold userAction
  cases hv : validId x with
  | none => exact hidle
  | some y =>
      have hy : y = x := by
        unfold validId at hv
        split at hv
        · exact (Option.some.inj hv).symm
        · cases hv
      subst hy
      dsimp only
      cases hdone : f y db with
      | error e =>
          dsimp only
          rw [userFailed_state, userFailed_audit]
          exact hidle
      | ok done => exact hf done.1 done.2 hdone _ rfl

/-- An audited action after which every session of the account is over. -/
theorem Effect.audited {action : String} (h : Effect (· = id) kept enrols opened d d')
    (hroute : changes own route = some (id, action)) (haudit : actions audit = [action]) :
    Effect (Touches own route audit) kept enrols opened d d' :=
  h.told hroute (by rw [haudit]; exact List.mem_singleton_self _)

theorem users_effect (route : UserRoute) (req : Request) (s : Signed) (db : Tables) :
    Effect (Touches own (.users route) (route.handle P req s db).audit) none False none db.accounts
      (route.handle P req s db).state.accounts := by
  cases route with
  | list => exact (Quiet.refl _).silent (by rintro _ _ ⟨⟩)
  | create =>
      rw [UserRoute.handle, postUser]
      dsimp only
      split
      · rw [userFailed_state]
        exact (Quiet.refl _).silent (by rintro _ _ ⟨⟩)
      · rename_i hok
        unfold createUser at hok
        dsimp only at hok
        obtain ⟨-, hok⟩ := Fallible.guard_eq_ok.1 hok
        obtain ⟨-, hok⟩ := Fallible.guard_eq_ok.1 hok
        exact effect_createAdmin hok (by rintro _ ⟨_, ⟨⟩, _⟩)
  | role x =>
      rw [UserRoute.handle]
      refine userAction_effect fun done db' hdone audit haudit => ?_
      unfold roleAction at hdone
      split at hdone
      · cases hdone
      · obtain ⟨_, _, hok, rfl⟩ := onAccounts_ok hdone
        obtain ⟨_, -, hok⟩ := Fallible.bind_eq_ok.1 hok
        obtain ⟨-, hok⟩ := Fallible.guard_eq_ok.1 hok
        cases hok
        exact (quiet_updateAdmin (by exact fun _ => ⟨rfl, rfl, fun h => h, rfl⟩) _ _).silent
          (by rintro _ _ ⟨⟩)
  | password x =>
      rw [UserRoute.handle]
      refine userAction_effect fun done db' hdone audit haudit => ?_
      unfold passwordAction at hdone
      obtain ⟨_, _, hok, rfl⟩ := onAccounts_ok hdone
      obtain ⟨_, -, hok⟩ := Fallible.bind_eq_ok.1 hok
      cases hok
      exact (effect_updateEnded (by exact fun _ => rfl)).audited rfl haudit
  | totp x =>
      rw [UserRoute.handle]
      refine userAction_effect fun done db' hdone audit haudit => ?_
      unfold totpAction at hdone
      obtain ⟨_, _, hok, rfl⟩ := onAccounts_ok hdone
      obtain ⟨_, -, hok⟩ := Fallible.bind_eq_ok.1 hok
      cases hok
      exact (effect_reset (P := P) x db.accounts).audited rfl haudit
  | disable x =>
      rw [UserRoute.handle]
      refine userAction_effect fun done db' hdone audit haudit => ?_
      unfold disableAction at hdone
      obtain ⟨_, _, hok, rfl⟩ := onAccounts_ok hdone
      obtain ⟨_, -, hok⟩ := Fallible.bind_eq_ok.1 hok
      obtain ⟨-, hok⟩ := Fallible.guard_eq_ok.1 hok
      cases hok
      exact (effect_updateEnded (by exact fun _ => rfl)).audited rfl haudit
  | enable x =>
      rw [UserRoute.handle]
      refine userAction_effect fun done db' hdone audit haudit => ?_
      unfold disableAction at hdone
      obtain ⟨_, _, hok, rfl⟩ := onAccounts_ok hdone
      obtain ⟨_, -, hok⟩ := Fallible.bind_eq_ok.1 hok
      obtain ⟨-, hok⟩ := Fallible.guard_eq_ok.1 hok
      cases hok
      exact (quiet_updateAdmin (by exact fun _ => ⟨rfl, rfl, (by rintro ⟨⟩), rfl⟩) _ _).silent
        (by rintro _ _ ⟨⟩)
  | delete x =>
      rw [UserRoute.handle]
      refine userAction_effect fun done db' hdone audit haudit => ?_
      obtain ⟨⟨_, _⟩, hok, hdone⟩ := Fallible.bind_eq_ok.1 hdone
      cases hdone
      obtain ⟨_, -, hok⟩ := Fallible.bind_eq_ok.1 hok
      obtain ⟨-, hok⟩ := Fallible.guard_eq_ok.1 hok
      cases hok
      exact (effect_deleteAdmin x db.accounts).audited rfl haudit

/-! ## The operator -/

end

/-- The operator's command resets the password or the second factors of the account. -/
def Resets (command : CliCommand) (d : AccountDb) (id : String) : Prop :=
  match command with
  | .createAdmin _ _ => False
  | .resetPassword username password => minPasswordLength ≤ utf16Length password ∧
      ∃ a ∈ d.admins, a.username = username ∧ a.id = id
  | .disableTotp username => ∃ a, findAdminByUsername username d = some a ∧ a.id = id

section

variable {P} {cfg} {d d₁ d' : AccountDb} {id own : String}

theorem effect_setAdminPassword {username password salt : String} {changed : Bool}
    (hok : setAdminPassword P username password salt d = .ok (changed, d')) :
    Effect (Resets (.resetPassword username password) d) none False none d d' := by
  unfold setAdminPassword at hok
  obtain ⟨hlength, hok⟩ := Fallible.guard_eq_ok.1 hok
  cases hok
  have hrow : ∀ a ∈ d.admins, a.username = username →
      Resets (.resetPassword username password) d a.id :=
    fun a ha hname => ⟨not_lt.1 hlength, a, ha, hname, rfl⟩
  refine ⟨fun _ id hid => .of_eq (held_of ?_ rfl), fun s' hs' => ?_, fun hd => ⟨?_, ?_, hd.passkeys⟩⟩
  · refine (Table.find?_update (by exact fun _ => rfl) d.admins).trans ?_
    show (adminById id d).map _ = adminById id d
    cases ha : adminById id d with
    | none => rfl
    | some a =>
        have hname : a.username ≠ username := fun hname =>
          hid (adminById_id ha ▸ hrow a (List.mem_of_find?_eq_some ha) hname)
        rw [Option.map_some, if_neg (by simpa using hname)]
  · obtain ⟨hs, hstays⟩ := Table.mem_delete.1 hs'
    refine .inr ⟨nofun, s', hs, rfl, rfl, fun h => h, fun _ => rfl, ?_⟩
    rintro ⟨-, a, ha, hname, hid⟩
    have hgone := List.any_eq_false.1 hstays _ (Table.mem_update.2 ⟨a, ha, rfl⟩)
    simp [hname, hid] at hgone
  · exact Table.nodup_delete hd.sessions
  · exact Table.nodup_update (by exact fun _ => rfl) hd.admins

theorem cli_effect (now : Int) (draw : CliDraw) (command : CliCommand) (d : AccountDb) :
    Effect (Resets command d) none False none d (runCli P now draw command d) := by
  cases command with
  | createAdmin username password =>
      unfold runCli
      dsimp only
      split
      · rename_i hok
        exact effect_createAdmin hok fun _ h => h
      · exact (Quiet.refl d).effect fun _ h => h
  | resetPassword username password =>
      unfold runCli
      dsimp only
      split
      · rename_i hok
        exact effect_setAdminPassword hok
      · rename_i hfailed
        refine (Quiet.refl d).effect ?_
        rintro id ⟨hlength, -⟩
        unfold setAdminPassword at hfailed
        rw [if_neg (not_lt.2 hlength)] at hfailed
        cases hfailed
  | disableTotp username =>
      unfold runCli
      dsimp only
      split
      · rename_i a ha
        refine (effect_reset a.id d).congr fun id => ⟨?_, ?_⟩
        · rintro ⟨a', ha', rfl⟩
          rw [ha] at ha'
          cases ha'
          rfl
        · rintro rfl
          exact ⟨a, ha, rfl⟩
      · rename_i hnone
        refine (Quiet.refl d).effect ?_
        rintro id ⟨a, ha, -⟩
        rw [hnone] at ha
        cases ha

end

end Credentials

end Outletbox
