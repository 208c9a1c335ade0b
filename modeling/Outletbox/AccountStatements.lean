import Outletbox.Library.References
import Outletbox.Rows

/-!
# The statements on the account tables

What a request does to the account tables is a sequence of SQL statements: an
update leaves the columns of keys alone, an insertion was checked, and a deletion
takes with it what points at the deleted rows.  The one statement that is not
among them removes an account, which reaches into the other tables.
-/

namespace Outletbox

namespace Statements

variable (P : Platform) (cfg : Config)

/-! ## The account tables -/

/-- Whether a request may create accounts and change roles, and whose rows it may change. -/
structure Grant where
  manages : Prop
  mine : String → Prop

/-- Everything is granted. -/
def Grant.all : Grant := ⟨True, fun _ => True⟩

/-- One statement on the account tables. -/
inductive AccountWrite (G : Grant) : AccountDb → AccountDb → Prop
  | admins {p : AdminRow → Bool} {f : AdminRow → AdminRow} (d : AccountDb) :
      (∀ a, (f a).id = a.id ∧ (f a).username = a.username ∧ (f a).role = a.role) →
      (∀ a ∈ d.admins, p a = true → G.mine a.id) →
      AccountWrite G d { d with admins := Table.update p f d.admins }
  | role {p : AdminRow → Bool} {f : AdminRow → AdminRow} (d : AccountDb) : G.manages →
      (∀ a, (f a).id = a.id ∧ (f a).username = a.username) →
      (∀ a ∈ d.admins, p a = true → G.mine a.id) →
      AccountWrite G d { d with admins := Table.update p f d.admins }
  | newAdmin {a : AdminRow} (d : AccountDb) : G.manages →
      (∀ x ∈ d.admins, x.id ≠ a.id ∧ x.username ≠ a.username) → isValidUsername a.username = true →
      AccountWrite G d { d with admins := d.admins ++ [a] }
  | sessions {p : SessionRow → Bool} {f : SessionRow → SessionRow} (d : AccountDb) :
      (∀ s, (f s).idHash = s.idHash ∧ (f s).publicId = s.publicId ∧ (f s).adminId = s.adminId) →
      AccountWrite G d { d with sessions := Table.update p f d.sessions }
  | newSession {s : SessionRow} {d d' : AccountDb} : insertSession s d = .ok d' →
      G.mine s.adminId → AccountWrite G d d'
  | endSessions (p : SessionRow → Bool) (d : AccountDb) : AccountWrite G d (deletePanelSessions p d)
  | codes {p : RecoveryCode → Bool} {f : RecoveryCode → RecoveryCode} (d : AccountDb) :
      (∀ c, (f c).adminId = c.adminId) →
      (∀ c ∈ d.recoveryCodes, p c = true → G.mine c.adminId) →
      AccountWrite G d { d with recoveryCodes := Table.update p f d.recoveryCodes }
  | newCodes {cs : List RecoveryCode} (d : AccountDb) :
      (∀ c ∈ cs, ∃ a ∈ d.admins, a.id = c.adminId) → (∀ c ∈ cs, G.mine c.adminId) →
      AccountWrite G d { d with recoveryCodes := d.recoveryCodes ++ cs }
  | dropCodes {p : RecoveryCode → Bool} (d : AccountDb) :
      (∀ c ∈ d.recoveryCodes, p c = true → G.mine c.adminId) →
      AccountWrite G d { d with recoveryCodes := Table.delete p d.recoveryCodes }
  | passkeys {p : PasskeyRow → Bool} {f : PasskeyRow → PasskeyRow} (d : AccountDb) :
      (∀ k, (f k).id = k.id ∧ (f k).credentialId = k.credentialId ∧ (f k).adminId = k.adminId) →
      (∀ k ∈ d.passkeys, p k = true → G.mine k.adminId) → (∀ k, k.Valid → (f k).Valid) →
      AccountWrite G d { d with passkeys := Table.update p f d.passkeys }
  | newPasskey {k : PasskeyRow} (d : AccountDb) :
      (∀ x ∈ d.passkeys, x.id ≠ k.id ∧ x.credentialId ≠ k.credentialId) →
      (∃ a ∈ d.admins, a.id = k.adminId) → G.mine k.adminId → k.Valid →
      passkeyCount k.adminId d < maxPasskeys →
      AccountWrite G d { d with passkeys := d.passkeys ++ [k] }
  | dropPasskeys {p : PasskeyRow → Bool} (d : AccountDb) :
      (∀ k ∈ d.passkeys, p k = true → G.mine k.adminId) →
      AccountWrite G d { d with passkeys := Table.delete p d.passkeys }
  | bindings {p : BindingRow → Bool} {f : BindingRow → BindingRow} (d : AccountDb) :
      (∀ b, (f b).id = b.id ∧ (f b).sessionHash = b.sessionHash) →
      AccountWrite G d { d with bindings := Table.update p f d.bindings }
  | newBinding {b : BindingRow} (d : AccountDb) :
      (∀ x ∈ d.bindings, x.id ≠ b.id ∧ x.sessionHash ≠ b.sessionHash) →
      (∃ s ∈ d.sessions, s.idHash = b.sessionHash) →
      AccountWrite G d { d with bindings := d.bindings ++ [b] }

/-- A sequence of statements. -/
def Writes (G : Grant) : AccountDb → AccountDb → Prop := Relation.ReflTransGen (AccountWrite G)

/-- Every row with the key of a passkey of the account is the account's. -/
def Keyed (G : Grant) (d : AccountDb) : Prop :=
  ∀ k ∈ d.passkeys, ∀ k' ∈ d.passkeys, k.id = k'.id → G.mine k.adminId → G.mine k'.adminId

/-- The rows of a signed-in request are its account's. -/
structure Scope (G : Grant) (s : Signed) (d : AccountDb) : Prop where
  account : G.mine s.admin.id
  sessions : ∀ row ∈ d.sessions, row.idHash = P.sha256Hex s.sessionId → G.mine row.adminId
  passkeys : Keyed G d

section

variable {P} {cfg} {G : Grant} {d d₁ d' : AccountDb} {id : String} {now : Int}

theorem Writes.refl (d : AccountDb) : Writes G d d := Relation.ReflTransGen.refl

theorem Writes.one (h : AccountWrite G d d') : Writes G d d' := Relation.ReflTransGen.single h

theorem Writes.trans (h : Writes G d d₁) (h' : Writes G d₁ d') : Writes G d d' :=
  Relation.ReflTransGen.trans h h'

theorem mem_of_adminById {a : AdminRow} (h : adminById id d = some a) : a ∈ d.admins ∧ a.id = id :=
  ⟨List.mem_of_find?_eq_some h, adminById_id h⟩

/-! ## Updates of one row -/

/-- One account's own columns, its name and role apart. -/
theorem writes_updateAdmin {f : AdminRow → AdminRow}
    (hf : ∀ a, (f a).id = a.id ∧ (f a).username = a.username ∧ (f a).role = a.role)
    (hm : G.mine id) (d : AccountDb) : Writes G d (updateAdmin id f d) :=
  .one (.admins d hf fun _ _ ha => (beq_iff_eq.1 ha).symm ▸ hm)

/-- One session's columns, its keys apart. -/
theorem writes_updateSession {f : SessionRow → SessionRow}
    (hf : ∀ s, (f s).idHash = s.idHash ∧ (f s).publicId = s.publicId ∧ (f s).adminId = s.adminId)
    (idHash : String) (d : AccountDb) : Writes G d (updateSession idHash f d) :=
  .one (.sessions d hf)

theorem writes_endSessions (p : SessionRow → Bool) (d : AccountDb) :
    Writes G d (deletePanelSessions p d) := .one (.endSessions p d)

theorem writes_updateBinding {f : BindingRow → BindingRow}
    (hf : ∀ b, (f b).id = b.id ∧ (f b).sessionHash = b.sessionHash) (id : String)
    (d : AccountDb) : Writes G d (updateBinding id f d) := .one (.bindings d hf)

theorem writes_endSessions_keep (id : String) (keep : Option String) (d : AccountDb) :
    Writes G d (endSessions P id keep d) := by
  cases keep with
  | none => exact writes_endSessions _ d
  | some sid => exact writes_endSessions _ d

/-! ## Accounts -/

/-- The name was checked and is free. -/
theorem writes_createAdmin {salt : String} {input : CreateAdminInput} {account : Admin}
    (hmanages : G.manages) (h : createAdmin P now id salt input d = .ok (account, d')) :
    Writes G d d' := by
  unfold createAdmin at h
  obtain ⟨hname, h⟩ := Fallible.guard_eq_ok.1 h
  obtain ⟨-, h⟩ := Fallible.guard_eq_ok.1 h
  dsimp only at h
  obtain ⟨hfree, h⟩ := Fallible.guard_eq_ok.1 h
  cases h
  refine .one (.newAdmin d hmanages (fun x hx => ?_) (by simpa [newAdminRow] using hname))
  simp only [List.any_eq_true, Bool.or_eq_true, beq_iff_eq, not_exists, not_and, not_or] at hfree
  exact hfree x hx

/-- The console's new password ends every session of the account. -/
theorem writes_setAdminPassword {username password salt : String} {changed : Bool}
    (hm : ∀ a ∈ d.admins, a.username = username → G.mine a.id)
    (h : setAdminPassword P username password salt d = .ok (changed, d')) : Writes G d d' := by
  unfold setAdminPassword at h
  obtain ⟨-, h⟩ := Fallible.guard_eq_ok.1 h
  cases h
  have hrows : ∀ a ∈ d.admins, (a.username == username) = true → G.mine a.id :=
    fun a ha hname => hm a ha (beq_iff_eq.1 hname)
  exact (Writes.one (.admins d (by exact fun _ => ⟨rfl, rfl, rfl⟩) hrows)).trans
    (writes_endSessions _ _)

/-- The panel's new password; the other sessions end in the route. -/
theorem writes_changeAdminPassword {current password salt : String} {changed : Bool}
    (hm : G.mine id) (h : changeAdminPassword P id current password salt d = .ok (changed, d')) :
    Writes G d d' := by
  unfold changeAdminPassword at h
  obtain ⟨-, h⟩ := Fallible.guard_eq_ok.1 h
  split at h
  · cases h
    exact .refl d
  split at h
  · cases h
    exact .refl d
  obtain ⟨-, h⟩ := Fallible.guard_eq_ok.1 h
  cases h
  exact writes_updateAdmin (by exact fun _ => ⟨rfl, rfl, rfl⟩) hm d

theorem writes_recordLogin (now : Int) (hm : G.mine id) (d : AccountDb) :
    Writes G d (recordLogin now id d) :=
  writes_updateAdmin (by exact fun _ => ⟨rfl, rfl, rfl⟩) hm d

/-! ## Sessions -/

theorem writes_markConfirmed (now : Int) (sid : String) (ms : Nat) (d : AccountDb) :
    Writes G d (markConfirmed P now sid ms d) :=
  writes_updateSession (by exact fun _ => ⟨rfl, rfl, rfl⟩) _ d

theorem writes_createSession {draw : SessionDraw} {admin : Admin} {ttlMs : Nat} {info : SessionMeta}
    (hm : G.mine admin.id) (h : createSession P now draw admin ttlMs info d = .ok d') :
    Writes G d d' :=
  .one (.newSession h hm)

/-- The lock is lifted, the pending session goes, and a new one is inserted past its second step. -/
theorem writes_completeSecondFactor {draw : SessionDraw} {pending : String} {admin : Admin}
    {ttlMs : Nat} {factor : SecondFactor} (hm : G.mine admin.id)
    (h : completeSecondFactor P now draw pending admin ttlMs factor d = .ok d') :
    Writes G d d' := by
  unfold completeSecondFactor at h
  obtain ⟨d₂, hopened, h⟩ := Fallible.bind_eq_ok.1 h
  cases h
  exact (writes_updateAdmin (by exact fun _ => ⟨rfl, rfl, rfl⟩) hm _).trans <|
    (writes_endSessions _ _).trans <| (writes_createSession hm hopened).trans <|
    writes_updateSession (by exact fun _ => ⟨rfl, rfl, rfl⟩) _ _

/-- A lookup removes a session that is over and stamps any other. -/
theorem writes_getSession (now : Int) (sid : String) (d : AccountDb) :
    Writes G d (getSession P now sid d).2 := by
  unfold getSession
  split
  · exact .refl d
  split
  · exact .refl d
  split
  · exact writes_endSessions _ d
  · exact writes_updateSession (by exact fun _ => ⟨rfl, rfl, rfl⟩) _ d

/-! ## The second factor -/

/-- A recovery code is marked as used. -/
theorem writes_useCode (now : Int) (hm : G.mine id) (code : String) (d : AccountDb) :
    Writes G d (useCode P now id code d) := by
  refine .one (.codes d (by exact fun _ => rfl) fun c _ hc => ?_)
  obtain ⟨⟨hid, -⟩, -⟩ := by
    simpa only [isUnusedCode, Bool.and_eq_true, beq_iff_eq] using hc
  rwa [hid]

theorem writes_acceptStep (step : Int) (hm : G.mine id) (d : AccountDb) :
    Writes G d (acceptStep step id d) :=
  writes_updateAdmin (by exact fun _ => ⟨rfl, rfl, rfl⟩) hm d

theorem writes_countFailure {admin : AdminRow} (hm : G.mine admin.id) (d : AccountDb) :
    Writes G d (countFailure admin d) :=
  writes_updateAdmin (by exact fun _ => ⟨rfl, rfl, rfl⟩) hm d

/-- The sessions that wait for their second step end with the lock. -/
theorem writes_lockAccount (now : Int) {admin : AdminRow} (hm : G.mine admin.id) (d : AccountDb) :
    Writes G d (lockAccount now admin d) :=
  (writes_updateAdmin (by exact fun _ => ⟨rfl, rfl, rfl⟩) hm d).trans (writes_endSessions _ _)

/-- What a right code costs: a time step, or a recovery code. -/
theorem writes_checked {admin : AdminRow} {code : String} {out : Option SecondFactor × AccountDb}
    (hm : G.mine admin.id) (h : Checked P now admin code d out) : Writes G d out.2 := by
  cases h with
  | totp step => exact writes_acceptStep step hm d
  | recovery => exact writes_useCode _ hm _ d
  | wrong => exact .refl d

/-- The second step, case by case. -/
theorem writes_verifySessionTotp {draw : SessionDraw} {sid code : String} {ttlMs : Nat}
    {out : TotpLoginResult × AccountDb}
    (hm : ∀ row ∈ d.sessions, row.idHash = P.sha256Hex sid → G.mine row.adminId)
    (h : verifySessionTotp P now draw sid code ttlMs d = .ok out) : Writes G d out.2 := by
  have hmine : ∀ {s : SessionRow} {admin : AdminRow},
      d.sessions.find? (fun s => s.idHash == P.sha256Hex sid) = some s →
      adminById s.adminId d = some admin → G.mine admin.id := by
    intro s admin hs ha
    rw [adminById_id ha]
    have hhash := List.find?_some hs
    exact hm s (List.mem_of_find?_eq_some hs) (beq_iff_eq.1 hhash)
  cases sessionTotp h with
  | nothing => exact .refl d
  | passed hs ha hfactor hlocked hchecked hdone =>
      exact (writes_checked (hmine hs ha) hchecked).trans
        (writes_completeSecondFactor (hmine hs ha) hdone)
  | lockout hs ha => exact writes_lockAccount _ (hmine hs ha) d
  | sessionOver hs ha =>
      exact (writes_countFailure (hmine hs ha) d).trans (writes_endSessions _ _)
  | wrong hs ha =>
      exact (writes_countFailure (hmine hs ha) d).trans
        (writes_updateSession (by exact fun _ => ⟨rfl, rfl, rfl⟩) _ _)

theorem writes_verifyConfirmCode (now : Int) (hm : G.mine id) (code : String) (d : AccountDb) :
    Writes G d (verifyConfirmCode P now id code d).2 := by
  have hcode := confirmCode_spec (P := P) now id code d
  have hmine : ∀ {admin : AdminRow}, adminById id d = some admin → G.mine admin.id := by
    intro admin ha
    rwa [adminById_id ha]
  generalize verifyConfirmCode P now id code d = out at hcode
  cases hcode with
  | missing => exact .refl d
  | locked => exact .refl d
  | totp => exact writes_updateAdmin (by exact fun _ => ⟨rfl, rfl, rfl⟩) hm d
  | recovery => exact writes_useCode _ hm _ d
  | lockout ha => exact writes_lockAccount _ (hmine ha) d
  | wrong ha => exact writes_countFailure (hmine ha) d

theorem writes_beginTotpEnrolment {secret : Bytes} (hm : G.mine id)
    (h : beginTotpEnrolment secret id d = .ok d') : Writes G d d' := by
  obtain ⟨_, -, -, rfl⟩ := beginTotpEnrolment_ok h
  exact writes_updateAdmin (by exact fun _ => ⟨rfl, rfl, rfl⟩) hm d

theorem writes_dropCodesOf (hm : G.mine id) (d : AccountDb) :
    Writes G d { d with
      recoveryCodes := Table.delete (fun c => c.adminId == id) d.recoveryCodes } :=
  .one (.dropCodes d fun _ _ hc => (beq_iff_eq.1 hc).symm ▸ hm)

/-- Out with the old codes, in with the new ones. -/
theorem writes_replaceCodes {a : AdminRow} (ha : a ∈ d.admins) (hm : G.mine a.id)
    (codes : List String) : Writes G d (replaceRecoveryCodes P a.id codes d) := by
  have howner : ∀ c ∈ codes.map fun c =>
      RecoveryCode.mk a.id (P.sha256Hex (normalizeRecoveryCode P c)) none, a.id = c.adminId := by
    intro c hc
    obtain ⟨code, -, rfl⟩ := List.mem_map.1 hc
    rfl
  exact (writes_dropCodesOf hm d).trans
    (.one (.newCodes _ (fun c hc => ⟨a, ha, howner c hc⟩) fun c hc => howner c hc ▸ hm))

theorem writes_dropCodes (hm : G.mine id) (d : AccountDb) :
    Writes G d (dropRecoveryCodesIfUnused id d) := by
  unfold dropRecoveryCodesIfUnused
  split
  · exact .refl d
  split
  · exact .refl d
  · exact writes_dropCodesOf hm d

/-- Without the app the codes may go too, and the other sessions end. -/
theorem writes_forceDisableTotp (hm : G.mine id) (keep : Option String) (d : AccountDb) :
    Writes G d (forceDisableTotp P id keep d) :=
  (writes_updateAdmin (by exact fun _ => ⟨rfl, rfl, rfl⟩) hm d).trans <|
    (writes_dropCodes hm _).trans (writes_endSessions_keep id keep _)

theorem writes_resetSecondFactors (hm : G.mine id) (d : AccountDb) :
    Writes G d (resetSecondFactors P id d) :=
  (Writes.one (.dropPasskeys d fun _ _ hk => (beq_iff_eq.1 hk).symm ▸ hm)).trans
    (writes_forceDisableTotp hm none _)

/-- The row an update leaves in the place of one. -/
theorem mem_updated {p : AdminRow → Bool} {f : AdminRow → AdminRow} (hf : ∀ a, (f a).id = a.id)
    {a : AdminRow} (ha : a ∈ d.admins) : ∃ x ∈ Table.update p f d.admins, x.id = a.id := by
  refine ⟨_, Table.mem_update.2 ⟨a, ha, rfl⟩, ?_⟩
  split
  · exact hf a
  · rfl

/-- The account still has its row when its codes are inserted. -/
theorem writes_confirmTotpEnrolment (now : Int) (codes : List String) (hm : G.mine id)
    (code : String) (d : AccountDb) :
    Writes G d (confirmTotpEnrolment P now codes id code d).2 := by
  rcases confirmTotpEnrolment_cases (P := P) now codes id code d with
      h | ⟨a, _, step, ha, -, -, -, h⟩
  · rw [h]
    exact .refl d
  · rw [h]
    obtain ⟨hmem, rfl⟩ := mem_of_adminById ha
    obtain ⟨x, hx, hxid⟩ := mem_updated (p := fun x => x.id == a.id)
      (f := fun a => { a with totpEnabledAt := some now, totpLastStep := some step })
      (by exact fun _ => rfl) hmem
    have hcodes := writes_replaceCodes (P := P) (G := G) (d := enableTotp now step a.id d)
        (a := x) hx (hxid ▸ hm) codes
    rw [hxid] at hcodes
    exact ((writes_updateAdmin (by exact fun _ => ⟨rfl, rfl, rfl⟩) hm d).trans
      (.one (.sessions _ (by exact fun _ => ⟨rfl, rfl, rfl⟩)))).trans hcodes

theorem writes_regenerateRecoveryCodes (now : Int) (codes : List String) (hm : G.mine id)
    (code : String) (d : AccountDb) :
    Writes G d (regenerateRecoveryCodes P now codes id code d).2 := by
  rcases regenerateRecoveryCodes_cases (P := P) now codes id code d with h | ⟨a, step, ha, -, h⟩
  · rw [h]
    exact .refl d
  · rw [h]
    obtain ⟨hmem, rfl⟩ := mem_of_adminById ha
    obtain ⟨x, hx, hxid⟩ := mem_updated (p := fun x => x.id == a.id)
      (f := fun a => { a with totpLastStep := some step }) (by exact fun _ => rfl) hmem
    have hcodes := writes_replaceCodes (P := P) (G := G) (d := acceptStep step a.id d) (a := x) hx
        (hxid ▸ hm) codes
    rw [hxid] at hcodes
    exact (writes_acceptStep step hm d).trans hcodes

theorem writes_regenerateConfirmed (codes : List String) (hm : G.mine id) (d : AccountDb) :
    Writes G d (regenerateRecoveryCodesConfirmed P codes id d).2 := by
  rcases regenerateRecoveryCodesConfirmed_cases (P := P) codes id d with h | ⟨a, ha, -, h⟩
  · rw [h]
    exact .refl d
  · rw [h]
    obtain ⟨hmem, rfl⟩ := mem_of_adminById ha
    exact writes_replaceCodes hmem hm codes

theorem writes_disableTotp (now : Int) (hm : G.mine id) (code keep : String) (d : AccountDb) :
    Writes G d (disableTotp P now id code keep d).2 := by
  rcases disableTotp_cases (P := P) now id code keep d with h | ⟨a, -, -, ⟨-, -, h⟩ | ⟨-, -, h⟩⟩
  · rw [h]
    exact .refl d
  · rw [h]
    exact writes_forceDisableTotp hm (some keep) d
  · rw [h]
    exact (writes_useCode now hm code d).trans (writes_forceDisableTotp hm (some keep) _)

/-! ## Passkeys and device bindings -/

theorem writes_dropChallenge (idHash : String) (d : AccountDb) :
    Writes G d (dropChallenge idHash d) :=
  writes_updateSession (by exact fun _ => ⟨rfl, rfl, rfl⟩) idHash d

/-- The row is found by the key of the credential that was checked. -/
theorem writes_recordUse {cred : PasskeyRow} (hkeyed : Keyed G d) (hcred : cred ∈ d.passkeys)
    (hm : G.mine cred.adminId) (now : Int) (signCount : Nat) :
    Writes G d (recordUse now cred.id signCount d) :=
  .one (.passkeys d (by exact fun _ => ⟨rfl, rfl, rfl⟩) (fun k hk hid =>
    hkeyed cred hcred k hk (beq_iff_eq.1 hid).symm hm) fun _ hk => ⟨hk.name, hk.algorithm⟩)

/-- There is room, the credential is new, and its account is there. -/
theorem writes_registerPasskey {input : RegisterPasskeyInput} {rp : RelyingParty}
    {passkey : Passkey} (hm : G.mine input.adminId)
    (h : registerPasskey P now id input rp d = .ok (passkey, d')) : Writes G d d' := by
  have hroom := registerPasskey_room h
  obtain ⟨_, reg, -, hreg, hfresh, ⟨a, ha⟩, rfl⟩ := registerPasskey_ok h
  obtain ⟨hmem, hid⟩ := mem_of_adminById ha
  have hvalid : (newPasskey now id input reg).Valid :=
    newPasskey_valid (verifyRegistration_algorithm hreg)
  have hrow : AccountWrite G (dropChallenge (P.sha256Hex input.sessionId) d) _ :=
    .newPasskey (k := newPasskey now id input reg) _ hfresh ⟨a, hmem, hid⟩ hm hvalid hroom
  exact (writes_dropChallenge _ d).trans <| (Writes.one hrow).trans <|
    writes_updateSession (by exact fun _ => ⟨rfl, rfl, rfl⟩) _ _

/-- The challenge is dropped whether the assertion is good or not. -/
theorem writes_checkAssertion {input : AssertPasskeyInput} (hkeyed : Keyed G d)
    (hm : G.mine input.adminId) (now : Int) (purpose : CeremonyPurpose) (rp : RelyingParty) :
    Writes G d (checkAssertion P now purpose input rp d).2 := by
  rcases checkAssertion_cases (P := P) now purpose input rp d with
    ⟨_, h⟩ | ⟨_, cred, count, -, hasserted, h⟩
  · rw [h]
    exact writes_dropChallenge _ d
  · rw [h]
    have hused := writes_recordUse (G := G) (d := dropChallenge (P.sha256Hex input.sessionId) d)
        hkeyed hasserted.mem (hasserted.owner ▸ hm) now count
    exact (writes_dropChallenge _ d).trans hused

theorem writes_verifyPasskeyLogin {input : AssertPasskeyInput} {admin : Admin}
    (hkeyed : Keyed G d) (hinput : G.mine input.adminId) (hm : G.mine admin.id) (now : Int)
    (draw : SessionDraw) (rp : RelyingParty) (ttlMs : Nat) :
    Writes G d (verifyPasskeyLogin P now draw input rp admin ttlMs d).2 := by
  rcases verifyPasskeyLogin_cases (P := P) now draw input rp admin ttlMs d with
    ⟨_, h⟩ | ⟨_, h⟩ | ⟨_, cred, count, d', -, hasserted, hdone, h⟩
  · rw [h]
    exact writes_dropChallenge _ d
  · rw [h]
    exact .refl d
  · rw [h]
    have hused := writes_recordUse (G := G) (d := dropChallenge (P.sha256Hex input.sessionId) d)
        hkeyed hasserted.mem (hasserted.owner ▸ hinput) now count
    exact (writes_dropChallenge _ d).trans (hused.trans (writes_completeSecondFactor hm hdone))

/-- The last factor takes the codes with it, and the other sessions end. -/
theorem writes_removePasskey (hkeyed : Keyed G d) (hm : G.mine id) (pid keep : String) :
    Writes G d (removePasskey P id pid keep d).2 := by
  rcases removePasskey_cases (P := P) id pid keep d with h | ⟨pk, hpk, rfl, rfl, h⟩
  · rw [h]
    exact .refl d
  · rw [h]
    have hrows : ∀ k ∈ d.passkeys, (k.id == pk.id) = true → G.mine k.adminId :=
      fun k hk hid => hkeyed pk hpk k hk (beq_iff_eq.1 hid).symm hm
    exact (Writes.one (.dropPasskeys d hrows)).trans <| (writes_dropCodes hm _).trans
      (writes_endSessions _ _)

/-- An offer is stored on the session. -/
theorem writes_offerBinding (now : Int) (challenge sid : String) (d : AccountDb) :
    Writes G d (offerBinding P now challenge sid d).2 := by
  rcases offerBinding_cases (P := P) now challenge sid d with h | ⟨s, -, -, -, -, h⟩
  · rw [h]
    exact .refl d
  · rw [h]
    exact writes_updateSession (by exact fun _ => ⟨rfl, rfl, rfl⟩) _ d

/-- The session is there and has no binding yet. -/
theorem writes_registerBinding {draw : BindingDraw} {sid jwt : String} {issued : IssuedCookie}
    (h : registerBinding P now draw sid jwt d = .ok (issued, d')) : Writes G d d' := by
  obtain ⟨s, hs, alg, jwk, jti, hhash, -, -, hbound, hfresh, -, rfl⟩ := registerBinding_ok h
  refine (Writes.one (.newBinding d (fun b hb => ⟨hfresh b hb, fun hsame => ?_⟩)
    ⟨s, hs, hhash⟩)).trans (writes_updateSession (by exact fun _ => ⟨rfl, rfl, rfl⟩) _ _)
  exact List.find?_eq_none.1 hbound b hb (beq_iff_eq.2 hsame)

/-- A refresh changes its own binding only. -/
theorem writes_refreshBinding {draw : BindingDraw} {bid : String} {proof : Option String}
    {result : RefreshResult} (h : refreshBinding P now draw bid proof d = .ok (result, d')) :
    Writes G d d' := by
  rcases refreshBinding_cases h with
    ⟨-, rfl⟩ | ⟨b, -, -, hfresh | ⟨_, _, _, -, -, -, -, -, -, rfl⟩⟩
  · exact .refl _
  · rw [(Prod.mk.inj hfresh).2]
    exact writes_updateBinding (by exact fun _ => ⟨rfl, rfl⟩) _ d
  · exact writes_updateBinding (by exact fun _ => ⟨rfl, rfl⟩) _ d

/-! ## Requests to the account routes -/

theorem writes_sessionMiddleware (req : Request) (d : AccountDb) :
    Writes G d (sessionMiddleware P req d).2 := by
  unfold sessionMiddleware
  split
  · exact .refl d
  rename_i sid _
  have hread := writes_getSession (P := P) (G := G) req.now sid d
  split
  · rename_i h
    rwa [h] at hread
  · rename_i h
    rw [h] at hread
    split
    · exact hread
    · exact hread

theorem writes_offerMiddleware (r : PanelRequest) (s : Signed) (d : AccountDb) :
    Writes G d (offerMiddleware P cfg r s d).2 := by
  have hoffer := writes_offerBinding (P := P) (G := G) r.now r.random.challenge s.sessionId d
  unfold offerMiddleware
  split
  · split
    · rename_i h
      rwa [h] at hoffer
    · rename_i h
      rwa [h] at hoffer
  · exact .refl d

variable {req : Request} {s : Signed}

/-- A login writes to the account whose password was right. -/
theorem writes_login (req : Request) (d : AccountDb)
    (hm : ∀ account, loginAdmin P req d = some account → G.mine account.id) :
    Writes G d (postLogin P cfg req d).state := by
  unfold postLogin
  split
  · exact .refl d
  rename_i account haccount
  have hmine := hm account haccount
  dsimp only
  split
  · exact .refl d
  · rename_i hopened
    have hrow := writes_createSession hmine hopened
    split
    · exact hrow
    · exact hrow.trans ((writes_markConfirmed _ _ _ _).trans (writes_recordLogin _ hmine _))

theorem writes_dbscRegister (req : Request) (signed : Option Signed) (d : AccountDb) :
    Writes G d (dbscRegister P cfg req signed d).state := by
  unfold dbscRegister
  dsimp only
  split
  · split
    · exact .refl d
    split
    · rename_i hbound
      exact writes_registerBinding hbound
    · exact .refl d
    · exact .refl d
  · exact .refl d

theorem writes_dbscRefresh (req : Request) (d : AccountDb) :
    Writes G d (dbscRefresh P cfg req d).state := by
  unfold dbscRefresh
  dsimp only
  split
  · exact .refl d
  split
  · exact .refl d
  · exact .refl d
  · rename_i h
    exact writes_refreshBinding h
  · rename_i h
    exact writes_refreshBinding h
  · rename_i h
    exact writes_refreshBinding h

/-- Of the open routes only the login writes to an account. -/
theorem writes_open (route : OpenRoute) (req : Request) (signed : Option Signed) (d : AccountDb)
    (hm : route = .login → ∀ account, loginAdmin P req d = some account → G.mine account.id) :
    Writes G d (route.handle P cfg req signed d).state := by
  cases route with
  | dbscRegister => exact writes_dbscRegister req signed d
  | dbscRefresh => exact writes_dbscRefresh req d
  | loginPage => exact .refl d
  | login => exact writes_login req d (hm rfl)

/-- A finished login confirms its session and stamps the account. -/
theorem writes_signedIn {factor : String} {answer : String → Response PanelPage}
    (hm : G.mine s.admin.id) (d : AccountDb) :
    Writes G d (signedIn P cfg req s factor answer d).state :=
  (writes_markConfirmed _ _ _ d).trans (writes_recordLogin _ hm _)

theorem writes_ceremonyOptions (purpose : CeremonyPurpose) (d : AccountDb) :
    Writes G d (ceremonyOptions P cfg req s purpose d).state := by
  unfold ceremonyOptions
  dsimp only
  split
  · exact .refl d
  · exact writes_updateSession (by exact fun _ => ⟨rfl, rfl, rfl⟩) _ d

theorem writes_passkeyLogin (hs : Scope P G s d) :
    Writes G d (passkeyLogin P cfg req s d).state := by
  unfold passkeyLogin
  split
  · exact .refl d
  have hcall := @writes_verifyPasskeyLogin P G d (assertion req s) s.admin hs.passkeys hs.account
    hs.account req.now req.sessionDraw (relyingParty cfg) cfg.sessionTtlMs
  split
  · rename_i h
    rw [h] at hcall
    exact hcall.trans (writes_signedIn hs.account _)
  · rename_i h
    rwa [h] at hcall
  · rename_i h
    rwa [h] at hcall

theorem writes_totp (hs : Scope P G s d) : Writes G d (postTotp P cfg req s d).state := by
  unfold postTotp
  dsimp only
  split
  · exact .refl d
  split
  · exact .refl d
  · rename_i h
    exact (writes_verifySessionTotp hs.sessions h).trans (writes_signedIn hs.account _)
  · rename_i h
    exact writes_verifySessionTotp hs.sessions h
  · rename_i h
    exact writes_verifySessionTotp hs.sessions h

/-- The routes of a login that waits for its second step. -/
theorem writes_pending (route : PendingRoute) (req : Request) (hs : Scope P G s d) :
    Writes G d (route.handle P cfg req s d).state := by
  cases route with
  | logout => exact writes_endSessions _ d
  | totpPage => exact .refl d
  | passkeyLoginOptions =>
      rw [PendingRoute.handle]
      unfold passkeyLoginOptions
      split
      · exact .refl d
      · exact writes_ceremonyOptions .login d
  | passkeyLogin => exact writes_passkeyLogin hs
  | totp => exact writes_totp hs

theorem writes_confirmCode (hm : G.mine s.admin.id) (d : AccountDb) :
    Writes G d (confirmCode P cfg req s d).state := by
  have hcall := writes_verifyConfirmCode (P := P) (G := G) req.now hm (req.field "code") d
  unfold confirmCode
  dsimp only
  split
  · rename_i h
    rw [h] at hcall
    exact hcall.trans (writes_markConfirmed _ _ _ _)
  · rename_i h
    rwa [h] at hcall
  · rename_i h
    rwa [h] at hcall

theorem writes_confirmPasskey (hs : Scope P G s d) :
    Writes G d (confirmPasskey P cfg req s d).state := by
  have hcall := @writes_checkAssertion P G d (assertion req s) hs.passkeys hs.account req.now .confirm
    (relyingParty cfg)
  unfold confirmPasskey verifyPasskeyConfirm
  split
  · rename_i h
    rw [h] at hcall
    exact hcall.trans (writes_markConfirmed _ _ _ _)
  · rename_i h
    rwa [h] at hcall
  · rename_i h
    rwa [h] at hcall

theorem writes_password (hm : G.mine s.admin.id) (d : AccountDb) :
    Writes G d (postPassword P cfg req s d).state := by
  unfold postPassword
  dsimp only
  split
  · exact .refl d
  split
  · exact .refl d
  · rename_i h
    exact writes_changeAdminPassword hm h
  · rename_i h
    exact (writes_changeAdminPassword hm h).trans (writes_endSessions _ _)

theorem writes_totpConfirm (hm : G.mine s.admin.id) (d : AccountDb) :
    Writes G d (totpConfirm P cfg req s d).state := by
  have hcall := writes_confirmTotpEnrolment (P := P) (G := G) req.now req.random.recoveryCodes hm
      (req.field "code") d
  unfold totpConfirm
  dsimp only
  split
  · rename_i h
    rwa [h] at hcall
  · rename_i h
    rw [h] at hcall
    exact hcall.trans (writes_endSessions _ _)

theorem writes_totpRecovery (hm : G.mine s.admin.id) (d : AccountDb) :
    Writes G d (totpRecovery P cfg req s d).state := by
  have hcall := writes_regenerateRecoveryCodes (P := P) (G := G) req.now req.random.recoveryCodes hm
      (req.field "code") d
  unfold totpRecovery
  dsimp only
  split
  · rename_i h
    rwa [h] at hcall
  · rename_i h
    rwa [h] at hcall

theorem writes_totpDisable (hm : G.mine s.admin.id) (d : AccountDb) :
    Writes G d (totpDisable P cfg req s d).state := by
  have hcall := writes_disableTotp (P := P) (G := G) req.now hm (req.field "code") s.sessionId d
  unfold totpDisable
  dsimp only
  split
  · exact .refl d
  split
  · rename_i h
    rwa [h] at hcall
  · rename_i h
    rwa [h] at hcall

theorem writes_passkeyOptions (d : AccountDb) : Writes G d (passkeyOptions P cfg req s d).state := by
  unfold passkeyOptions
  split
  · exact .refl d
  dsimp only
  split
  · exact .refl d
  · exact writes_updateSession (by exact fun _ => ⟨rfl, rfl, rfl⟩) _ d

theorem writes_passkey (hm : G.mine s.admin.id) (st : AccountState) :
    Writes G st.accounts (postPasskey P cfg req s st).state.accounts := by
  unfold postPasskey
  dsimp only
  split
  · rename_i hadded
    refine (writes_registerPasskey hm hadded).trans ?_
    split
    · exact (writes_endSessions _ _).trans (writes_regenerateConfirmed _ hm _)
    · exact writes_endSessions _ _
  · exact .refl _
  · exact .refl _

theorem writes_passkeyRemove (id : String) (hs : Scope P G s d) :
    Writes G d (postPasskeyRemove P cfg id req s d).state := by
  unfold postPasskeyRemove
  dsimp only
  split
  · exact .refl d
  split
  · exact .refl d
  rename_i pid _
  have hcall := writes_removePasskey (P := P) (G := G) (d := d) hs.passkeys hs.account pid
      s.sessionId
  split
  · rename_i h
    rwa [h] at hcall
  · rename_i h
    rwa [h] at hcall

theorem writes_recoveryRegenerate (hm : G.mine s.admin.id) (d : AccountDb) :
    Writes G d (recoveryRegenerate P cfg req s d).state := by
  have hcall := writes_regenerateConfirmed (P := P) (G := G) req.random.recoveryCodes hm d
  unfold recoveryRegenerate
  dsimp only
  split
  · rename_i h
    rwa [h] at hcall
  · rename_i h
    rwa [h] at hcall

theorem writes_revokeSession (id : String) (d : AccountDb) :
    Writes G d (postRevokeSession P cfg id req s d).state := by
  have hcall : Writes G d (revokeSession s.admin.id id d).2 := writes_endSessions _ d
  unfold postRevokeSession
  dsimp only
  split
  · exact .refl d
  split
  · rename_i h
    rwa [h] at hcall
  · rename_i h
    rwa [h] at hcall

/-- The routes of an account's own settings write to that account alone. -/
theorem writes_settings (route : SettingsRoute) (req : Request) (st : AccountState)
    (hs : Scope P G s st.accounts) :
    Writes G st.accounts (route.handle P cfg req s st).state.accounts := by
  cases route with
  | confirmPage => exact .refl _
  | confirmCode => exact writes_confirmCode hs.account _
  | confirmPassword =>
      show Writes G st.accounts (confirmPassword P cfg req s st.accounts).state
      unfold confirmPassword
      split
      · exact .refl _
      · exact writes_markConfirmed _ _ _ _
  | confirmPasskeyOptions => exact writes_ceremonyOptions .confirm _
  | confirmPasskey => exact writes_confirmPasskey hs
  | security => exact .refl _
  | password => exact writes_password hs.account _
  | totpBegin =>
      show Writes G st.accounts (totpBegin P cfg req s st.accounts).state
      unfold totpBegin
      split
      · exact .refl _
      · rename_i h
        exact writes_beginTotpEnrolment hs.account h
  | totpConfirm => exact writes_totpConfirm hs.account _
  | totpRecovery => exact writes_totpRecovery hs.account _
  | totpDisable => exact writes_totpDisable hs.account _
  | passkeyOptions => exact writes_passkeyOptions _
  | passkeys => exact writes_passkey hs.account st
  | passkeyRemove id => exact writes_passkeyRemove id hs
  | recoveryRegenerate => exact writes_recoveryRegenerate hs.account _
  | revokeOthers => exact writes_endSessions _ _
  | revokeSession id => exact writes_revokeSession id _

/-- The account a route of the administrators changes. -/
def target : UserRoute → Option String
  | .list | .create => none
  | .role id | .password id | .totp id | .disable id | .enable id | .delete id => some id

/-- An account route of the administrators: the account goes, with what it had in all tables, or
the account tables are written to. -/
theorem writes_userEffect {route : UserRoute} {db db' : Tables}
    (hmanages : G.manages) (hm : ∀ id, target route = some id → G.mine id)
    (h : UserEffect P req s db route db') :
    (Writes G db.accounts db'.accounts ∧ db'.deliveries = db.deliveries ∧ db'.groups = db.groups) ∨
      ∃ id, route = .delete id ∧ db' = ⟨deleteAdmin id db.accounts, db.deliveries.forgetAdmin id,
        db.groups.forgetAdmin id⟩ := by
  cases h with
  | idle => exact .inl ⟨.refl _, rfl, rfl⟩
  | created h =>
      unfold createUser at h
      dsimp only at h
      obtain ⟨-, h⟩ := Fallible.guard_eq_ok.1 h
      obtain ⟨-, h⟩ := Fallible.guard_eq_ok.1 h
      exact .inl ⟨writes_createAdmin hmanages h, rfl, rfl⟩
  | role h =>
      obtain ⟨_, -, h⟩ := Fallible.bind_eq_ok.1 h
      obtain ⟨-, h⟩ := Fallible.guard_eq_ok.1 h
      cases h
      exact .inl ⟨.one (.role _ hmanages (by exact fun _ => ⟨rfl, rfl⟩) fun _ _ ha =>
        (beq_iff_eq.1 ha).symm ▸ hm _ rfl), rfl, rfl⟩
  | password h =>
      obtain ⟨_, -, h⟩ := Fallible.bind_eq_ok.1 h
      cases h
      exact .inl ⟨(writes_updateAdmin (by exact fun _ => ⟨rfl, rfl, rfl⟩) (hm _ rfl) _).trans
        (writes_endSessions _ _), rfl, rfl⟩
  | totp h =>
      obtain ⟨_, -, h⟩ := Fallible.bind_eq_ok.1 h
      cases h
      exact .inl ⟨writes_resetSecondFactors (P := P) (G := G) (hm _ rfl) _, rfl, rfl⟩
  | disabled hroute h =>
      have hmine : G.mine _ := hm _ (by rcases hroute with rfl | rfl <;> rfl)
      obtain ⟨_, -, h⟩ := Fallible.bind_eq_ok.1 h
      obtain ⟨-, h⟩ := Fallible.guard_eq_ok.1 h
      cases h
      refine .inl ⟨?_, rfl, rfl⟩
      dsimp only
      split
      · exact (writes_updateAdmin (by exact fun _ => ⟨rfl, rfl, rfl⟩) hmine _).trans
          (writes_endSessions _ _)
      · exact writes_updateAdmin (by exact fun _ => ⟨rfl, rfl, rfl⟩) hmine _
  | deleted h =>
      obtain ⟨_, -, h⟩ := Fallible.bind_eq_ok.1 h
      obtain ⟨-, h⟩ := Fallible.guard_eq_ok.1 h
      cases h
      exact .inr ⟨_, rfl, rfl⟩

/-- The account a command changes. -/
def named : CliCommand → Option String
  | .createAdmin _ _ => none
  | .resetPassword username _ | .disableTotp username => some username

/-- A command creates an account or changes the one it names. -/
theorem writes_cli (now : Int) (draw : CliDraw) (command : CliCommand) (d : AccountDb)
    (hmanages : G.manages) (hm : ∀ a ∈ d.admins, named command = some a.username → G.mine a.id) :
    Writes G d (runCli P now draw command d) := by
  cases command with
  | createAdmin username password =>
      unfold runCli
      dsimp only
      split
      · rename_i h
        exact writes_createAdmin hmanages h
      · exact .refl d
  | resetPassword username password =>
      unfold runCli
      dsimp only
      split
      · rename_i h
        exact writes_setAdminPassword (fun a ha hname => hm a ha (by rw [hname]; rfl)) h
      · exact .refl d
  | disableTotp username =>
      unfold runCli
      dsimp only
      split
      · rename_i a ha
        obtain ⟨row, hrow, rfl⟩ := Option.map_eq_some_iff.1 ha
        have hname := List.find?_some (p := fun a : AdminRow => a.username == username) hrow
        exact writes_resetSecondFactors
          (hm row (List.mem_of_find?_eq_some hrow) (by rw [beq_iff_eq.1 hname]; rfl)) d
      · exact .refl d

end

end Statements

end Outletbox
