import Outletbox.SessionLife

/-!
# Confirmations of sensitive actions

A session is confirmed for a while, and some actions are for confirmed sessions
alone.  A request reads its session when its headers come and runs its handler when
its form has come, and other requests may be served in between.  `Calm` says once
what a handler may do to the accounts: which sessions it may confirm and open, and,
when its own is not confirmed, that it leaves other accounts and the second factors
of its own as they are.  One route gives an account a second factor without asking,
and one confirms a session on what it read about the account.
-/

namespace Outletbox

namespace Confirmations

open Credentials (Asks Distinct)
open LastFactor (Event Move State Waiting)
open Recovery (HasFactor)

variable (P : Platform) (cfg : Config)

/-! ## Sensitive actions -/

/-- The session is confirmed until after this moment. -/
def ConfirmedAt (now : Int) (s : Signed) : Prop :=
  ∃ u, s.session.confirmedUntil = some u ∧ now < u

/-- The body of the page is a stored object. -/
def streams : PanelPage → Bool
  | .attachment _ _ _ => true
  | _ => false

/-- The recovery codes of an account. -/
def codesOf (id : String) (d : AccountDb) : List RecoveryCode :=
  d.recoveryCodes.filter fun c => c.adminId == id

/-- The step did what a session must be confirmed for. -/
inductive Sensitive (own : String) (e : Event) : Prop
  /-- It streams the bytes of an item. -/
  | stream {output : Output} {response : Response PanelPage} : e.output = some output →
      output.answer = .panel response → streams response.page = true → Sensitive own e
  /-- A link is created, or gets a new token. -/
  | token {l : Link} : l ∈ e.post.server.deliveries.links →
      (∀ x ∈ e.pre.server.deliveries.links, x.id = l.id → x.tokenHash ≠ l.tokenHash) →
      Sensitive own e
  /-- Someone is added to a link. -/
  | recipient {r : LinkRecipient} : r ∈ e.post.server.deliveries.linkRecipients →
      (∀ x ∈ e.pre.server.deliveries.linkRecipients, x.id = r.id →
        ¬ (x.linkId = r.linkId ∧ x.email = r.email)) → Sensitive own e
  /-- Another account is created or changed. -/
  | account {id : String} : id ≠ own →
      adminById id e.post.server.accounts ≠ adminById id e.pre.server.accounts ∨
        credentialIds id e.post.server.accounts ≠ credentialIds id e.pre.server.accounts ∨
        codesOf id e.post.server.accounts ≠ codesOf id e.pre.server.accounts → Sensitive own e
  /-- The account gets a passkey. -/
  | passkey {p : PasskeyRow} : p ∈ e.post.server.accounts.passkeys → p.adminId = own →
      (∀ x ∈ e.pre.server.accounts.passkeys, x.id ≠ p.id) → Sensitive own e
  /-- The account gets the app. -/
  | app {a a' : AdminRow} : adminById own e.pre.server.accounts = some a →
      a.totpEnabledAt = none → adminById own e.post.server.accounts = some a' →
      a'.totpEnabledAt.isSome = true → Sensitive own e

/-- The step is a request in this session, or a part of one: to a route behind `requireAdmin`, or
to an open one other than the login, which opens a session of its own.  The session is the one
that was read when the request started. -/
def InSession (now : Int) (s : Signed) (e : Event) : Prop :=
  match e.input with
  | .serve (.panel r) => r.now = now ∧ Asks P r s e.pre.server.accounts
  | .serve (.visit r) => r.now = now ∧ r.route ≠ .login ∧
      (sessionMiddleware P r.toRequest e.pre.server.accounts).1 = some s
  | .receive t r => t = now ∧
      (sessionMiddleware P { r.toRequest with now := t } e.pre.server.accounts).1 = some s
  | .handle k => ∃ r, e.pre.waiting[k]? = some ⟨r, some s⟩ ∧ r.now = now
  | _ => False

/-- The step runs the handler of this request, in this session. -/
def Resumes (r : PanelRequest) (s : Signed) (e : Event) : Prop :=
  match e.input with
  | .serve (.panel r') => r' = r ∧ Asks P r s e.pre.server.accounts
  | .handle k => e.pre.waiting[k]? = some ⟨r, some s⟩
  | _ => False

/-- A sensitive action is done in a session that is confirmed when the request starts. -/
def Fresh (e : Event) : Prop :=
  ∀ now s, InSession P now s e → Sensitive s.admin.id e → ConfirmedAt now s

/-! ## Proofs of a second factor -/

/-- The request verifies a code of the app, an unused recovery code or a passkey assertion of the
account. -/
inductive Proves (req : Request) (s : Signed) (id : String) (d : AccountDb) : Prop
  | app {a : AdminRow} {step : Int} : adminById id d = some a →
      matchedStep P a (req.field "code") req.now = some step → Proves req s id d
  | code : hasUnusedCode P id (req.field "code") d → Proves req s id d
  | passkey {purpose : CeremonyPurpose} {challenge : String} {cred : PasskeyRow} {count : Nat} :
      purpose ≠ .register → Awaits req.now (P.sha256Hex s.sessionId) purpose challenge d →
      Asserted P (assertion req s) (relyingParty cfg) challenge cred count d →
      cred.adminId = id → Proves req s id d

/-- The step runs a request of the panel that proves a second factor of the account. -/
def Proving (id : String) (e : Event) : Prop :=
  ∃ r s, Resumes P r s e ∧ Proves P cfg r.toRequest s id e.pre.server.accounts

/-- The confirmation of a session reaches further than before. -/
def Forward (d : AccountDb) (s' : SessionRow) : Prop :=
  ∃ u', s'.confirmedUntil = some u' ∧
    ∀ s ∈ d.sessions, s.idHash = s'.idHash → ∀ u, s.confirmedUntil = some u → u < u'

/-- While an account has a second factor, its sessions are confirmed by proofs of one alone. -/
def Moved (e : Event) : Prop :=
  ∀ s' ∈ e.post.server.accounts.sessions, HasFactor s'.adminId e.pre.server.accounts →
    Forward e.pre.server.accounts s' → Proving P cfg s'.adminId e

/-! ## What a request does to confirmations -/

/-- What a request leaves alone in a session that is not confirmed. -/
structure Modest (own : String) (d d' : AccountDb) : Prop where
  admins : ∀ id, id ≠ own → adminById id d' = adminById id d
  credentials : ∀ id, id ≠ own → credentialIds id d' = credentialIds id d
  codes : ∀ id, id ≠ own → codesOf id d' = codesOf id d
  passkeys : ∀ p' ∈ d'.passkeys, ∃ p ∈ d.passkeys, p.id = p'.id
  app : ∀ a', adminById own d' = some a' → a'.totpEnabledAt.isSome = true →
    ∃ a, adminById own d = some a ∧ a.totpEnabledAt.isSome = true

/-- What a session row says about its confirmation. -/
def stamp (s : SessionRow) : String × String × Option Int := (s.idHash, s.adminId, s.confirmedUntil)

/-- The accounts a request may confirm sessions of, and the hashes of those it may open. -/
structure Marks where
  confirms : String → Prop
  opens : String → Prop

/-- Where a session row comes from. -/
structure Row (marks : Marks) (d : AccountDb) (s' : SessionRow) : Prop where
  /-- It comes without a confirmation, with a new one, or with the one it had. -/
  confirmation : s'.confirmedUntil = none ∨ marks.confirms s'.adminId ∨
    ∃ s ∈ d.sessions, stamp s = stamp s'
  /-- It is opened, or was the same account's before. -/
  owner : marks.opens s'.idHash ∨ ∃ s ∈ d.sessions, s.idHash = s'.idHash ∧ s.adminId = s'.adminId

/-- What a request does: it confirms and opens only the sessions it may, and one that has not
passed the gate is modest. -/
structure Calm (gated : Prop) (own : String) (marks : Marks) (d d' : AccountDb) : Prop where
  rows : ∀ s' ∈ d'.sessions, Row marks d s'
  modest : gated ∨ Modest own d d'

section

variable {P} {cfg} {own : String} {gated : Prop} {marks : Marks} {d d₁ d' : AccountDb}

theorem Modest.refl (own : String) (d : AccountDb) : Modest own d d :=
  ⟨fun _ _ => rfl, fun _ _ => rfl, fun _ _ => rfl, fun p hp => ⟨p, hp, rfl⟩,
    fun a ha henabled => ⟨a, ha, henabled⟩⟩

theorem Modest.trans (h : Modest own d d₁) (h' : Modest own d₁ d') : Modest own d d' := by
  refine ⟨fun id hid => (h'.admins id hid).trans (h.admins id hid),
    fun id hid => (h'.credentials id hid).trans (h.credentials id hid),
    fun id hid => (h'.codes id hid).trans (h.codes id hid), fun p' hp' => ?_,
    fun a' ha' henabled' => ?_⟩
  · obtain ⟨p₁, hp₁, he₁⟩ := h'.passkeys p' hp'
    obtain ⟨p, hp, he⟩ := h.passkeys p₁ hp₁
    exact ⟨p, hp, he.trans he₁⟩
  · obtain ⟨a₁, ha₁, henabled₁⟩ := h'.app a' ha' henabled'
    exact h.app a₁ ha₁ henabled₁

theorem stamp_eq {s s' : SessionRow} (h : stamp s = stamp s') :
    s.idHash = s'.idHash ∧ s.adminId = s'.adminId ∧ s.confirmedUntil = s'.confirmedUntil := by
  simpa [stamp] using h

/-- A row that is as it was. -/
theorem Row.kept {s s' : SessionRow} (hs : s ∈ d.sessions) (h : stamp s = stamp s') :
    Row marks d s' :=
  ⟨.inr (.inr ⟨s, hs, h⟩), .inr ⟨s, hs, (stamp_eq h).1, (stamp_eq h).2.1⟩⟩

theorem Row.trans {s' : SessionRow} (h : ∀ s ∈ d₁.sessions, Row marks d s)
    (h' : Row marks d₁ s') : Row marks d s' := by
  constructor
  · rcases h'.confirmation with hnone | hconfirmed | ⟨s₁, hs₁, he₁⟩
    · exact .inl hnone
    · exact .inr (.inl hconfirmed)
    · obtain ⟨-, hadmin, huntil⟩ := stamp_eq he₁
      rcases (h s₁ hs₁).confirmation with hnone | hconfirmed | ⟨s, hs, he⟩
      · exact .inl (huntil ▸ hnone)
      · exact .inr (.inl (hadmin ▸ hconfirmed))
      · exact .inr (.inr ⟨s, hs, he.trans he₁⟩)
  · rcases h'.owner with hopened | ⟨s₁, hs₁, hid₁, hadmin₁⟩
    · exact .inl hopened
    · rcases (h s₁ hs₁).owner with hopened | ⟨s, hs, hid, hadmin⟩
      · exact .inl (hid₁ ▸ hopened)
      · exact .inr ⟨s, hs, hid.trans hid₁, hadmin.trans hadmin₁⟩

theorem Calm.refl (d : AccountDb) : Calm gated own marks d d :=
  ⟨fun _ hs => .kept hs rfl, .inr (.refl own d)⟩

theorem Calm.trans (h : Calm gated own marks d d₁) (h' : Calm gated own marks d₁ d') :
    Calm gated own marks d d' := by
  refine ⟨fun s' hs' => .trans h.rows (h'.rows s' hs'), ?_⟩
  rcases h.modest with hgate | hmodest
  · exact .inl hgate
  · exact h'.modest.imp_right hmodest.trans

/-- A request in a confirmed session may do anything to the accounts. -/
theorem calm_confirmed (hgate : gated) (hrows : ∀ s' ∈ d'.sessions, Row marks d s') :
    Calm gated own marks d d' :=
  ⟨hrows, .inl hgate⟩

theorem Calm.passed (h : Calm True own marks d d') (hgate : gated) :
    Calm gated own marks d d' :=
  calm_confirmed hgate h.rows

/-! ## Statements -/

theorem modest_same (hadmins : d'.admins = d.admins) (hpasskeys : d'.passkeys = d.passkeys)
    (hcodes : ∀ id, id ≠ own → codesOf id d' = codesOf id d) : Modest own d d' := by
  refine ⟨fun id _ => adminById_of_admins hadmins id, fun id _ => ?_, hcodes, fun p hp => ?_,
    fun a ha henabled => ⟨a, (adminById_of_admins hadmins own) ▸ ha, henabled⟩⟩
  · rw [credentialIds, credentialIds, hpasskeys]
  · exact ⟨p, hpasskeys ▸ hp, rfl⟩

theorem calm_rows (hadmins : d'.admins = d.admins) (hpasskeys : d'.passkeys = d.passkeys)
    (hcodes : d'.recoveryCodes = d.recoveryCodes) (hrows : ∀ s' ∈ d'.sessions, Row marks d s') :
    Calm gated own marks d d' :=
  ⟨hrows, .inr (modest_same hadmins hpasskeys fun id _ => by rw [codesOf, codesOf, hcodes])⟩

theorem row_same (hrows : d'.sessions = d.sessions) : ∀ s' ∈ d'.sessions, Row marks d s' :=
  fun _ hs => .kept (hrows ▸ hs) rfl

theorem row_update {p : SessionRow → Bool} {f : SessionRow → SessionRow}
    (hf : ∀ s, stamp (f s) = stamp s) (hrows : d'.sessions = Table.update p f d.sessions) :
    ∀ s' ∈ d'.sessions, Row marks d s' := by
  intro s' hs'
  rw [hrows] at hs'
  obtain ⟨s, hs, rfl⟩ := Table.mem_update.1 hs'
  refine .kept hs ?_
  split
  · exact (hf s).symm
  · rfl

theorem row_delete {p : SessionRow → Bool} (hrows : d'.sessions = Table.delete p d.sessions) :
    ∀ s' ∈ d'.sessions, Row marks d s' := by
  intro s' hs'
  rw [hrows] at hs'
  exact .kept (Table.mem_delete.1 hs').1 rfl

/-- A statement on the account's own recovery codes. -/
theorem calm_codes (hadmins : d'.admins = d.admins) (hpasskeys : d'.passkeys = d.passkeys)
    (hcodes : ∀ id, id ≠ own → codesOf id d' = codesOf id d) (hrows : d'.sessions = d.sessions) :
    Calm gated own marks d d' :=
  ⟨row_same hrows, .inr (modest_same hadmins hpasskeys hcodes)⟩

theorem calm_updateSession {f : SessionRow → SessionRow} (hf : ∀ s, stamp (f s) = stamp s)
    (idHash : String) (d : AccountDb) :
    Calm gated own marks d (updateSession idHash f d) :=
  calm_rows rfl rfl rfl (row_update hf rfl)

theorem calm_deleteSessions (p : SessionRow → Bool) (d : AccountDb) :
    Calm gated own marks d (deletePanelSessions p d) :=
  calm_rows rfl rfl rfl (row_delete rfl)

/-- A new session comes without a confirmation. -/
theorem calm_open {row : SessionRow} (hrow : row.confirmedUntil = none)
    (hopens : marks.opens row.idHash) (hadmins : d'.admins = d.admins) (hpasskeys : d'.passkeys = d.passkeys)
    (hcodes : d'.recoveryCodes = d.recoveryCodes) (hrows : d'.sessions = d.sessions ++ [row]) :
    Calm gated own marks d d' := by
  refine calm_rows hadmins hpasskeys hcodes fun s' hs' => ?_
  rw [hrows] at hs'
  rcases List.mem_append.1 hs' with hs' | hs'
  · exact .kept hs' rfl
  · rw [List.mem_singleton.1 hs']
    exact ⟨.inl hrow, .inl hopens⟩

/-- The sessions of an identifier are confirmed. -/
theorem calm_markConfirmed {now : Int} {sessionId : String} {ms : Nat}
    (hconfirms : ∀ s ∈ d.sessions, s.idHash = P.sha256Hex sessionId → marks.confirms s.adminId) :
    Calm gated own marks d (markConfirmed P now sessionId ms d) := by
  refine calm_rows rfl rfl rfl fun s' hs' => ?_
  obtain ⟨s, hs, rfl⟩ := Table.mem_update.1 hs'
  split
  · rename_i hid
    exact ⟨.inr (.inl (hconfirms s hs (by simpa using hid))), .inr ⟨s, hs, rfl, rfl⟩⟩
  · exact .kept hs rfl

/-- An update of the account's own row that enables nothing. -/
theorem calm_updateAdmin {f : AdminRow → AdminRow} (hf : ∀ a, (f a).id = a.id)
    (happ : ∀ a, (f a).totpEnabledAt.isSome = true → a.totpEnabledAt.isSome = true)
    (own : String) (d : AccountDb) : Calm gated own marks d (updateAdmin own f d) := by
  refine ⟨row_same rfl, .inr ⟨fun id hid => Credentials.adminById_update_other hf hid,
    fun _ _ => rfl, fun _ _ => rfl, fun p hp => ⟨p, hp, rfl⟩, fun a' ha' henabled => ?_⟩⟩
  rw [Credentials.adminById_update_own hf] at ha'
  obtain ⟨a, ha, rfl⟩ := Option.map_eq_some_iff.1 ha'
  exact ⟨a, ha, happ a henabled⟩

/-- An update of the account's own row that does not touch the app. -/
theorem calm_account {f : AdminRow → AdminRow}
    (hf : ∀ a, (f a).id = a.id ∧ (f a).totpEnabledAt = a.totpEnabledAt) (own : String)
    (d : AccountDb) : Calm gated own marks d (updateAdmin own f d) :=
  calm_updateAdmin (fun a => (hf a).1) (fun a h => (hf a).2 ▸ h) own d

theorem calm_recordUse (now : Int) (id : String) (signCount : Nat) (d : AccountDb) :
    Calm gated own marks d (recordUse now id signCount d) := by
  refine ⟨row_same rfl, .inr ⟨fun _ _ => rfl, fun adminId _ => ?_, fun _ _ => rfl,
    fun p' hp' => ?_, fun a ha henabled => ⟨a, ha, henabled⟩⟩⟩
  · simp only [credentialIds, recordUse]
    rw [Table.filter_update (by exact fun _ => rfl), Table.map_update _ (by exact fun _ => rfl)]
  · obtain ⟨p, hp, rfl⟩ := Table.mem_update.1 hp'
    refine ⟨p, hp, ?_⟩
    split <;> rfl

/-- Codes of the account alone go. -/
theorem codesOf_delete {id own : String} (hne : id ≠ own) (codes : List RecoveryCode) :
    (Table.delete (fun c => c.adminId == own) codes).filter (fun c => c.adminId == id) =
      codes.filter fun c => c.adminId == id := by
  rw [Table.delete, List.filter_filter]
  refine List.filter_congr fun c _ => ?_
  by_cases hc : c.adminId = id
  · simp [hc, hne]
  · simp [hc]

theorem calm_dropCodes (own : String) (d : AccountDb) :
    Calm gated own marks d (dropRecoveryCodesIfUnused own d) := by
  refine calm_codes (dropRecoveryCodesIfUnused_admins own d) (dropRecoveryCodesIfUnused_passkeys own d)
    (fun id hid => ?_) (dropRecoveryCodesIfUnused_sessions own d)
  unfold dropRecoveryCodesIfUnused
  split
  · rfl
  · split
    · rfl
    · exact codesOf_delete hid d.recoveryCodes

theorem calm_replaceCodes (own : String) (codes : List String) (d : AccountDb) :
    Calm gated own marks d (replaceRecoveryCodes P own codes d) := by
  refine calm_codes rfl rfl (fun id hid => ?_) rfl
  simp only [codesOf, replaceRecoveryCodes]
  rw [List.filter_append, codesOf_delete hid, List.append_right_eq_self, List.filter_eq_nil_iff]
  intro c hc
  obtain ⟨x, -, rfl⟩ := List.mem_map.1 hc
  simpa using hid.symm

theorem calm_useCode (now : Int) (own code : String) (d : AccountDb) :
    Calm gated own marks d (useCode P now own code d) := by
  refine calm_codes rfl rfl (fun id hid => ?_) rfl
  simp only [codesOf, useCode]
  rw [Table.filter_update (by exact fun _ => rfl)]
  refine Table.update_eq_self fun c hc hused => ?_
  have hown : c.adminId = own := by
    simp only [isUnusedCode, Bool.and_eq_true, beq_iff_eq] at hused
    exact hused.1.1
  have hother : c.adminId = id := by simpa using (List.mem_filter.1 hc).2
  exact absurd (hother.symm.trans hown) hid

theorem calm_getSession (now : Int) (sessionId : String) (d : AccountDb) :
    Calm gated own marks d (getSession P now sessionId d).2 := by
  unfold getSession
  split
  · exact .refl d
  cases sessionRow P sessionId d with
  | none => exact .refl d
  | some row =>
      dsimp only
      split
      · exact calm_deleteSessions _ d
      · exact calm_updateSession (by exact fun _ => rfl) _ d

theorem calm_sessionMiddleware (req : Request) (d : AccountDb) :
    Calm gated own marks d (sessionMiddleware P req d).2 := by
  unfold sessionMiddleware
  cases req.cookie P sessionCookieName with
  | none => exact .refl d
  | some sid =>
      have hcalm : Calm gated own marks d (getSession P req.now sid d).2 := calm_getSession _ _ d
      dsimp only
      generalize getSession P req.now sid d = answer at hcalm ⊢
      obtain ⟨session, d₁⟩ := answer
      cases session with
      | none => exact hcalm
      | some session =>
          dsimp only
          split
          · exact hcalm
          · exact hcalm

/-- Reading a session confirms none, and opens none. -/
theorem row_sessionMiddleware (req : Request) (d : AccountDb) :
    ∀ s' ∈ (sessionMiddleware P req d).2.sessions, Row marks d s' :=
  have hcalm : Calm True "" marks d (sessionMiddleware P req d).2 := calm_sessionMiddleware req d
  hcalm.rows

/-- Whoever reads a session is modest. -/
theorem modest_sessionMiddleware (own : String) (req : Request) (d : AccountDb) :
    Modest own d (sessionMiddleware P req d).2 :=
  have hcalm : Calm False own ⟨fun _ => True, fun _ => True⟩ d (sessionMiddleware P req d).2 :=
    calm_sessionMiddleware req d
  hcalm.modest.resolve_left id

theorem calm_offerMiddleware (r : PanelRequest) (s : Signed) (d : AccountDb) :
    Calm gated own marks d (offerMiddleware P cfg r s d).2 := by
  unfold offerMiddleware
  split
  · rcases offerBinding_cases (P := P) r.now r.random.challenge s.sessionId d with
        h | ⟨x, -, -, -, -, h⟩
    · rw [h]
      exact .refl _
    · rw [h]
      exact calm_updateSession (by exact fun _ => rfl) _ _
  · exact .refl _

end

/-! ## Requests -/

/-- A request that gives the account the app: its code fits the secret that waits. -/
def Enables (req : Request) (s : Signed) (d : AccountDb) : Prop :=
  ∃ a secret step, adminById s.admin.id d = some a ∧ a.totpSecret = some secret ∧
    a.totpEnabledAt = none ∧ verifyTotp P secret (req.field "code") req.now none = some step

/-- The password is right, and the session says that the account has no second factor. -/
def ByPassword (req : Request) (s : Signed) (d : AccountDb) (id : String) : Prop :=
  s.admin.id = id ∧ s.admin.hasSecondFactor = false ∧
    (authenticate P s.admin.username (req.field "password") d).isSome = true

/-- The route opens the session of a completed sign-in. -/
def opensSession : PanelRoute → Bool
  | .pending .totp | .pending .passkeyLogin => true
  | _ => false

/-- What a handler may do to sessions. -/
def marksOf (route : PanelRoute) (req : Request) (s : Signed) (d : AccountDb) : Marks where
  confirms id := HasFactor id d → Proves P cfg req s id d ∨
    route = .settings .confirmPassword ∧ ByPassword P req s d id
  opens hash := opensSession route = true ∧ P.sha256Hex req.random.sessionId = hash

/-- A row under the identifier of the session is its account's. -/
def Held (s : Signed) (d : AccountDb) : Prop :=
  ∀ row ∈ d.sessions, row.idHash = P.sha256Hex s.sessionId → row.adminId = s.admin.id

section

variable {P} {cfg} {own : String} {gated : Prop} {marks : Marks} {req : Request} {s : Signed}
  {d d₁ d' : AccountDb}

/-! ### Signing in -/

theorem calm_recordLogin (now : Int) (own : String) (d : AccountDb) :
    Calm gated own marks d (recordLogin now own d) :=
  calm_account (by exact fun _ => ⟨rfl, rfl⟩) own d

/-- A login confirms the session of an account without a second factor. -/
theorem calm_login (hd : Distinct d) (req : Request) :
    Calm True own ⟨fun id => ¬ HasFactor id d, (P.sha256Hex req.random.sessionId = ·)⟩ d
      (postLogin P cfg req d).state := by
  unfold postLogin
  cases haccount : loginAdmin P req d with
  | none => exact .refl d
  | some account =>
      dsimp only
      cases hsession : createSession P req.now req.sessionDraw account cfg.sessionTtlMs
          (sessionMeta req) d with
      | error e => exact .refl d
      | ok d₁ =>
          obtain ⟨rfl, hfresh, -⟩ := insertSession_ok hsession
          dsimp only
          have hopen := @calm_open own True
            ⟨fun id => ¬ HasFactor id d, (P.sha256Hex req.random.sessionId = ·)⟩ d
            { d with sessions := d.sessions ++ [newSession P req.now req.sessionDraw account
              cfg.sessionTtlMs (sessionMeta req)] } _ rfl rfl rfl rfl rfl rfl
          split
          · exact hopen
          · rename_i hfactor
            have hnone : ¬ HasFactor account.id d := by
              rintro ⟨a, ha, hsecond⟩
              unfold loginAdmin at haccount
              dsimp only at haccount
              split at haccount
              · cases haccount
              · obtain ⟨row, hrow, -, -, rfl⟩ := Credentials.authenticate_some haccount
                have hsame : some row = some a := (Credentials.adminById_mem hd hrow).symm.trans ha
                cases hsame
                exact hfactor hsecond
            refine (hopen.trans (calm_markConfirmed fun row hrow hid => ?_)).trans
              (calm_confirmed trivial (row_same rfl))
            rcases List.mem_append.1 hrow with hrow | hrow
            · exact absurd hid (hfresh row hrow).1
            · rw [List.mem_singleton.1 hrow]
              exact hnone

theorem calm_completeSecondFactor {now : Int} {draw : SessionDraw} {pending : String}
    {account : Admin} {ttlMs : Nat} {factor : SecondFactor}
    (hok : completeSecondFactor P now draw pending account ttlMs factor d = .ok d')
    (hopens : marks.opens (P.sha256Hex draw.sessionId)) : Calm gated account.id marks d d' ∧
      ∀ row ∈ d'.sessions, row.idHash = P.sha256Hex draw.sessionId → row.adminId = account.id := by
  obtain ⟨rfl, hfresh⟩ := completeSecondFactor_ok hok
  constructor
  · exact ((calm_account (by exact fun _ => ⟨rfl, rfl⟩) account.id d).trans
      (calm_deleteSessions (fun s => s.idHash == pending) _)).trans
        (calm_open rfl hopens rfl rfl rfl rfl)
  · intro row hrow hid
    rcases List.mem_append.1 hrow with hrow | hrow
    · obtain ⟨hrow, hne⟩ := Table.mem_delete.1 hrow
      exact absurd hid (hfresh row hrow (by simpa using hne)).1
    · rw [List.mem_singleton.1 hrow]
      rfl

/-- A completed sign-in confirms the session it opened. -/
theorem calm_signedIn {factor : String} {answer : String → Response PanelPage}
    (hconfirms : marks.confirms s.admin.id)
    (hrows : ∀ row ∈ d.sessions, row.idHash = P.sha256Hex req.random.sessionId →
      row.adminId = s.admin.id) :
    Calm gated s.admin.id marks d (signedIn P cfg req s factor answer d).state := by
  refine (calm_markConfirmed fun row hrow hid => ?_).trans (calm_recordLogin _ _ _)
  rw [hrows row hrow hid]
  exact hconfirms

theorem calm_checked {now : Int} {admin : AdminRow} {code : String} {factor : Option SecondFactor}
    (h : Checked P now admin code d (factor, d₁)) : Calm gated admin.id marks d d₁ := by
  cases h with
  | totp step hstep => exact calm_account (by exact fun _ => ⟨rfl, rfl⟩) _ d
  | recovery hstep hcode => exact calm_useCode _ _ _ d
  | wrong hstep hcode => exact .refl d

/-- A code that was accepted proves a factor. -/
theorem proves_checked {admin : AdminRow} {factor : SecondFactor}
    (hadmin : adminById admin.id d = some admin)
    (h : Checked P req.now admin (req.field "code") d (some factor, d₁)) :
    Proves P cfg req s admin.id d := by
  cases h with
  | totp step hstep => exact .app hadmin hstep
  | recovery hstep hcode => exact .code hcode

theorem calm_countFailure (admin : AdminRow) (d : AccountDb) :
    Calm gated admin.id marks d (countFailure admin d) :=
  calm_account (by exact fun _ => ⟨rfl, rfl⟩) _ d

theorem calm_lockAccount (now : Int) (admin : AdminRow) (d : AccountDb) :
    Calm gated admin.id marks d (lockAccount now admin d) :=
  (calm_account (by exact fun _ => ⟨rfl, rfl⟩) _ d).trans (calm_deleteSessions _ _)

theorem calm_totp (hheld : Held P s d) :
    Calm gated s.admin.id (marksOf P cfg (.pending .totp) req s d) d
      (postTotp P cfg req s d).state := by
  unfold postTotp
  dsimp only
  split
  · exact .refl d
  cases hresult : verifySessionTotp P req.now req.sessionDraw s.sessionId (req.field "code")
      cfg.sessionTtlMs d with
  | error e => exact .refl d
  | ok out =>
      have hmine : ∀ {x admin}, d.sessions.find? (·.idHash == P.sha256Hex s.sessionId) = some x →
          adminById x.adminId d = some admin → s.admin.id = admin.id := by
        intro x admin hx hadmin
        rw [adminById_id hadmin]
        exact (hheld x (List.mem_of_find?_eq_some hx) (by simpa using List.find?_some hx)).symm
      have hout := sessionTotp hresult
      cases hout with
      | nothing result hno =>
          cases result with
          | ok a b c => exact absurd rfl (hno a b c)
          | invalid => exact .refl d
          | locked t => exact .refl d
      | @passed x admin factor d₁ d₂ hx hadmin hfactor hlocked hchecked hok =>
          have hid := hmine hx hadmin
          have hadmin' : adminById admin.id d = some admin := by
            rw [adminById_id hadmin]
            exact hadmin
          obtain ⟨hcalm, hopened⟩ := @calm_completeSecondFactor P gated
            (marksOf P cfg (.pending .totp) req s d) _ _ _ _ _ _ _ _ hok ⟨rfl, rfl⟩
          refine Calm.trans ?_
            (calm_signedIn (fun _ => ?_) fun row hrow h => ?_)
          · rw [hid]
            exact (calm_checked hchecked).trans hcalm
          · rw [hid]
            exact .inl (proves_checked hadmin' hchecked)
          · rw [hid]
            exact hopened row hrow h
      | lockout hx hadmin =>
          rw [hmine hx hadmin]
          exact calm_lockAccount _ _ d
      | sessionOver hx hadmin =>
          rw [hmine hx hadmin]
          exact (calm_countFailure _ d).trans (calm_deleteSessions _ _)
      | wrong hx hadmin =>
          rw [hmine hx hadmin]
          exact (calm_countFailure _ d).trans (calm_updateSession (by exact fun _ => rfl) _ _)

theorem calm_dropChallenge (idHash : String) (d : AccountDb) :
    Calm gated own marks d (dropChallenge idHash d) :=
  calm_updateSession (by exact fun _ => rfl) _ d

theorem calm_passkeyLogin (req : Request) (s : Signed) (d : AccountDb) :
    Calm gated s.admin.id (marksOf P cfg (.pending .passkeyLogin) req s d) d
      (passkeyLogin P cfg req s d).state := by
  unfold passkeyLogin
  split
  · exact .refl d
  rcases verifyPasskeyLogin_cases (P := P) req.now req.sessionDraw (assertion req s)
      (relyingParty cfg) s.admin cfg.sessionTtlMs d with
      ⟨e, h⟩ | ⟨e, h⟩ | ⟨ch, cred, count, d₂, hawaits, hassert, hok, h⟩
  · simp only [h]
    split
    · rename_i heq
      cases heq
    · rename_i heq
      cases heq
      exact calm_dropChallenge _ d
    · rename_i heq
      cases heq
      exact calm_dropChallenge _ d
  · simp only [h]
    split
    · rename_i heq
      cases heq
    · rename_i heq
      cases heq
      exact .refl d
    · rename_i heq
      cases heq
      exact .refl d
  · simp only [h]
    obtain ⟨hcalm, hopened⟩ := @calm_completeSecondFactor P gated
      (marksOf P cfg (.pending .passkeyLogin) req s d) _ _ _ _ _ _ _ _ hok ⟨rfl, rfl⟩
    exact (((calm_dropChallenge _ d).trans (calm_recordUse _ _ _ _)).trans hcalm).trans
      (calm_signedIn (fun _ => .inl (.passkey (by decide) hawaits hassert hassert.owner)) hopened)

theorem calm_ceremonyOptions (purpose : CeremonyPurpose) (d : AccountDb) :
    Calm gated own marks d (ceremonyOptions P cfg req s purpose d).state := by
  unfold ceremonyOptions
  dsimp only
  split
  · exact .refl d
  · exact calm_updateSession (by exact fun _ => rfl) _ d

theorem calm_pending (route : PendingRoute) (hheld : Held P s d) :
    Calm gated s.admin.id (marksOf P cfg (.pending route) req s d) d
      (route.handle P cfg req s d).state := by
  cases route with
  | logout => exact calm_deleteSessions _ d
  | totpPage => exact .refl d
  | passkeyLoginOptions =>
      unfold PendingRoute.handle Outletbox.passkeyLoginOptions
      dsimp only
      split
      · exact .refl d
      · exact calm_ceremonyOptions _ d
  | passkeyLogin => exact calm_passkeyLogin req s d
  | totp => exact calm_totp hheld

/-! ### The settings -/

/-- A confirmation of the session itself. -/
theorem calm_confirmSession {method : String} {answer : Response PanelPage} (hheld : Held P s d)
    (hrows : d₁.sessions = d.sessions) (hconfirms : marks.confirms s.admin.id) :
    Calm gated s.admin.id marks d₁ (confirmed P cfg req s method answer d₁).state := by
  refine calm_markConfirmed fun row hrow hid => ?_
  rw [hheld row (hrows ▸ hrow) hid]
  exact hconfirms

theorem calm_confirmCode (hheld : Held P s d) :
    Calm gated s.admin.id (marksOf P cfg (.settings .confirmCode) req s d) d
      (confirmCode P cfg req s d).state := by
  have hcode := confirmCode_spec (P := P) req.now s.admin.id (req.field "code") d
  unfold confirmCode
  dsimp only
  generalize verifyConfirmCode P req.now s.admin.id (req.field "code") d = out at hcode ⊢
  cases hcode with
  | missing => exact .refl d
  | locked => exact .refl d
  | totp hadmin hlocked hstep =>
      exact (calm_account (by exact fun _ => ⟨rfl, rfl⟩) _ d).trans
        (calm_confirmSession hheld rfl fun _ => .inl (.app hadmin hstep))
  | recovery hadmin hlocked hstep hcode =>
      exact (calm_useCode _ _ _ d).trans (calm_confirmSession hheld rfl fun _ => .inl (.code hcode))
  | lockout hadmin =>
      rw [← adminById_id hadmin]
      exact calm_lockAccount _ _ d
  | wrong hadmin =>
      rw [← adminById_id hadmin]
      exact calm_countFailure _ d

/-- A password confirms a session that knows no second factor of its account. -/
theorem calm_confirmPassword (hheld : Held P s d) :
    Calm gated s.admin.id (marksOf P cfg (.settings .confirmPassword) req s d) d
      (confirmPassword P cfg req s d).state := by
  unfold confirmPassword
  split
  · exact .refl d
  · rename_i hfirst
    rw [Bool.or_eq_true, not_or, Bool.not_eq_true, Option.isNone_iff_eq_none,
      ← ne_eq, ← Option.isSome_iff_ne_none] at hfirst
    exact calm_confirmSession hheld rfl fun _ => .inr ⟨rfl, rfl, hfirst⟩

theorem calm_confirmPasskey (hheld : Held P s d) :
    Calm gated s.admin.id (marksOf P cfg (.settings .confirmPasskey) req s d) d
      (confirmPasskey P cfg req s d).state := by
  unfold confirmPasskey verifyPasskeyConfirm
  rcases checkAssertion_cases (P := P) req.now .confirm (assertion req s) (relyingParty cfg) d with
    ⟨e, h⟩ | ⟨challenge, cred, count, hawaits, hassert, h⟩
  · simp only [h]
    split
    · rename_i heq
      cases heq
    · rename_i heq
      cases heq
      exact calm_dropChallenge _ d
    · rename_i heq
      cases heq
      exact calm_dropChallenge _ d
  · simp only [h]
    have hused := (@calm_dropChallenge s.admin.id gated
      (marksOf P cfg (.settings .confirmPasskey) req s d) (P.sha256Hex s.sessionId) d).trans (calm_recordUse req.now cred.id count _)
    refine hused.trans (calm_markConfirmed fun row hrow hid => ?_)
    obtain ⟨row₀, hrow₀, rfl⟩ := Table.mem_update.1 hrow
    have hmine : row₀.adminId = s.admin.id := hheld row₀ hrow₀ (by
      by_cases hkept : (row₀.idHash == P.sha256Hex s.sessionId) = true
      · simpa using hkept
      · rw [if_neg hkept] at hid
        exact hid)
    have hsame : ∀ x : SessionRow, x.adminId = s.admin.id →
        (marksOf P cfg (.settings .confirmPasskey) req s d).confirms x.adminId := by
      intro x hx
      rw [hx]
      exact fun _ => .inl (.passkey (by decide) hawaits hassert hassert.owner)
    split
    · exact hsame _ hmine
    · exact hsame _ hmine

theorem calm_password (req : Request) (s : Signed) (d : AccountDb) :
    Calm gated s.admin.id marks d (postPassword P cfg req s d).state := by
  unfold postPassword
  dsimp only
  split
  · exact .refl d
  split
  · exact .refl d
  · rename_i hok
    obtain ⟨-, rfl⟩ | ⟨h, -⟩ := Credentials.changeAdminPassword_cases hok
    · exact .refl _
    · cases h
  · rename_i hok
    obtain ⟨h, -⟩ | ⟨-, rfl⟩ := Credentials.changeAdminPassword_cases hok
    · cases h
    · exact (calm_account (by exact fun _ => ⟨rfl, rfl⟩) _ d).trans (calm_deleteSessions _ _)

theorem calm_totpBegin (req : Request) (s : Signed) (d : AccountDb) :
    Calm gated s.admin.id marks d (totpBegin P cfg req s d).state := by
  unfold totpBegin
  split
  · exact .refl d
  · rename_i hok
    obtain ⟨a, ha, -, rfl⟩ := beginTotpEnrolment_ok hok
    exact calm_account (by exact fun _ => ⟨rfl, rfl⟩) _ d

/-- The one route that enrols a factor without the guard. -/
theorem calm_totpConfirm (hgate : Enables P req s d → gated) :
    Calm gated s.admin.id marks d (totpConfirm P cfg req s d).state := by
  unfold totpConfirm
  dsimp only
  rcases confirmTotpEnrolment_cases (P := P) req.now req.random.recoveryCodes s.admin.id
      (req.field "code") d with h | ⟨a, secret, step, ha, hsecret, hnone, hstep, h⟩
  · rw [h]
    exact .refl d
  · rw [h]
    have henabled : Calm True s.admin.id marks d (enableTotp req.now step s.admin.id d) :=
      calm_confirmed trivial (row_update (by exact fun _ => rfl) rfl)
    exact ((henabled.trans (calm_replaceCodes _ _ _)).trans (calm_deleteSessions _ _)).passed
      (hgate ⟨a, secret, step, ha, hsecret, hnone, hstep⟩)

theorem calm_totpRecovery (req : Request) (s : Signed) (d : AccountDb) :
    Calm gated s.admin.id marks d (totpRecovery P cfg req s d).state := by
  unfold totpRecovery
  dsimp only
  rcases regenerateRecoveryCodes_cases (P := P) req.now req.random.recoveryCodes s.admin.id
      (req.field "code") d with h | ⟨_, _, -, -, h⟩
  · rw [h]
    exact .refl d
  · rw [h]
    exact (calm_account (f := fun a => { a with totpLastStep := some _ })
      (by exact fun _ => ⟨rfl, rfl⟩) _ d).trans (calm_replaceCodes _ _ _)

theorem calm_recoveryRegenerate (req : Request) (s : Signed) (d : AccountDb) :
    Calm gated s.admin.id marks d (recoveryRegenerate P cfg req s d).state := by
  unfold recoveryRegenerate
  dsimp only
  rcases regenerateRecoveryCodesConfirmed_cases (P := P) req.random.recoveryCodes s.admin.id d with
    h | ⟨_, -, -, h⟩
  · rw [h]
    exact .refl d
  · rw [h]
    exact calm_replaceCodes _ _ _

/-- Giving up the app gives nothing. -/
theorem calm_disabled (keep : String) (d : AccountDb) :
    Calm gated own marks d (forceDisableTotp P own (some keep) d) := by
  have hcleared : Calm gated own marks d (clearTotp own d) :=
    calm_updateAdmin (by exact fun _ => rfl) (by exact fun _ h => absurd h Bool.false_ne_true) own d
  show Calm gated own marks d
    (destroyOtherSessions P own keep (dropRecoveryCodesIfUnused own (clearTotp own d)))
  exact (hcleared.trans (calm_dropCodes _ _)).trans (calm_deleteSessions _ _)

theorem calm_totpDisable (req : Request) (s : Signed) (d : AccountDb) :
    Calm gated s.admin.id marks d (totpDisable P cfg req s d).state := by
  unfold totpDisable
  dsimp only
  split
  · exact .refl d
  rcases disableTotp_cases (P := P) req.now s.admin.id (req.field "code") s.sessionId d with
    h | ⟨a, -, -, ⟨-, -, h⟩ | ⟨-, -, h⟩⟩
  · rw [h]
    exact .refl d
  · rw [h]
    exact calm_disabled _ d
  · rw [h]
    exact (calm_useCode _ _ _ d).trans (calm_disabled _ _)

theorem calm_passkeyOptions (req : Request) (s : Signed) (d : AccountDb) :
    Calm gated own marks d (passkeyOptions P cfg req s d).state := by
  unfold passkeyOptions
  split
  · exact .refl d
  · dsimp only
    split
    · exact .refl d
    · exact calm_updateSession (by exact fun _ => rfl) _ d

theorem calm_passkeys (hgate : gated) (req : Request) (s : Signed) (st : AccountState) :
    Calm gated s.admin.id marks st.accounts (postPasskey P cfg req s st).state.accounts := by
  unfold postPasskey
  dsimp only
  cases hregister : registerPasskey P req.now req.random.id (registration P req s)
      (relyingParty cfg) st.accounts with
  | error e =>
      cases e with
      | webAuthn reason => exact .refl _
      | _ => exact .refl _
  | ok out =>
      obtain ⟨pk, d₁⟩ := out
      obtain ⟨challenge, reg, -, -, -, -, rfl⟩ := registerPasskey_ok hregister
      have hadded : Calm gated s.admin.id marks st.accounts
          { dropChallenge (P.sha256Hex s.sessionId) st.accounts with
            passkeys := st.accounts.passkeys ++
              [newPasskey req.now req.random.id (registration P req s) reg] } :=
        calm_confirmed hgate (row_update (by exact fun _ => rfl) rfl)
      have hkept := (hadded.trans (calm_updateSession
        (f := fun s => { s with totpVerified := true }) (by exact fun _ => rfl)
          (P.sha256Hex s.sessionId) _)).trans
        (calm_deleteSessions (fun x => x.adminId == s.admin.id && x.idHash != P.sha256Hex s.sessionId) _)
      dsimp only
      split
      · refine hkept.trans ?_
        rcases regenerateRecoveryCodesConfirmed_cases (P := P) req.random.recoveryCodes s.admin.id
            (destroyOtherSessions P s.admin.id s.sessionId _) with h | ⟨_, -, -, h⟩
        · rw [h]
          exact .refl _
        · rw [h]
          exact calm_replaceCodes _ _ _
      · exact hkept

theorem calm_passkeyRemove (hgate : gated) (x : String) (req : Request) (s : Signed)
    (d : AccountDb) : Calm gated s.admin.id marks d (postPasskeyRemove P cfg x req s d).state := by
  unfold postPasskeyRemove
  dsimp only
  split
  · exact .refl d
  split
  · exact .refl d
  rename_i id _
  rcases removePasskey_cases (P := P) s.admin.id id s.sessionId d with h | ⟨pk, hpk, rfl, hmine, h⟩
  · rw [h]
    exact .refl d
  · rw [h]
    have hremoved : Calm gated s.admin.id marks d
        { d with passkeys := Table.delete (fun p => p.id == pk.id) d.passkeys } :=
      calm_confirmed hgate (row_same rfl)
    exact (hremoved.trans (calm_dropCodes _ _)).trans (calm_deleteSessions _ _)

theorem calm_revokeSession (x : String) (req : Request) (s : Signed) (d : AccountDb) :
    Calm gated own marks d (postRevokeSession P cfg x req s d).state := by
  have hcall : Calm gated own marks d (revokeSession s.admin.id x d).2 := calm_deleteSessions _ d
  unfold postRevokeSession
  dsimp only
  split
  · exact .refl d
  · generalize revokeSession s.admin.id x d = out at hcall ⊢
    split
    · exact hcall
    · exact hcall

/-- Every route of the settings. -/
theorem calm_settings (route : SettingsRoute) {st : AccountState} (hheld : Held P s st.accounts)
    (hgate : route.back ≠ none → gated)
    (henrols : route = .totpConfirm → Enables P req s st.accounts → gated) :
    Calm gated s.admin.id (marksOf P cfg (.settings route) req s st.accounts) st.accounts
      (route.handle P cfg req s st).state.accounts := by
  cases route with
  | confirmPage => exact .refl _
  | confirmCode => exact calm_confirmCode hheld
  | confirmPassword => exact calm_confirmPassword hheld
  | confirmPasskeyOptions => exact calm_ceremonyOptions _ _
  | confirmPasskey => exact calm_confirmPasskey hheld
  | security => exact .refl _
  | password => exact calm_password req s _
  | totpBegin => exact calm_totpBegin req s _
  | totpConfirm => exact calm_totpConfirm (henrols rfl)
  | totpRecovery => exact calm_totpRecovery req s _
  | totpDisable => exact calm_totpDisable req s _
  | passkeyOptions => exact calm_passkeyOptions req s _
  | passkeys => exact calm_passkeys (hgate nofun) req s st
  | passkeyRemove x => exact calm_passkeyRemove (hgate nofun) x req s _
  | recoveryRegenerate => exact calm_recoveryRegenerate req s _
  | revokeOthers => exact calm_deleteSessions _ _
  | revokeSession x => exact calm_revokeSession x req s _

/-! ### The accounts of others -/

theorem row_updateEnded {own : String} {f : AdminRow → AdminRow} :
    ∀ s' ∈ (deletePanelSessions (fun s => s.adminId == own) (updateAdmin own f d)).sessions,
      Row marks d s' :=
  row_delete rfl

theorem row_reset (own : String) (d : AccountDb) :
    ∀ s' ∈ (resetSecondFactors P own d).sessions, Row marks d s' := by
  let d₀ : AccountDb := { d with passkeys := Table.delete (fun p => p.adminId == own) d.passkeys }
  refine row_delete (p := fun s => s.adminId == own) ?_
  show Table.delete _ (dropRecoveryCodesIfUnused own (clearTotp own d₀)).sessions = _
  rw [dropRecoveryCodesIfUnused_sessions]
  rfl

theorem row_users (route : UserRoute) (req : Request) (s : Signed) (db : Tables) :
    ∀ s' ∈ (route.handle P req s db).state.accounts.sessions, Row marks db.accounts s' := by
  have heffect := userEffect P route req s db
  generalize (route.handle P req s db).state = db' at heffect ⊢
  cases heffect with
  | idle => exact row_same rfl
  | created hok =>
      unfold createUser at hok
      dsimp only at hok
      obtain ⟨-, hok⟩ := Fallible.guard_eq_ok.1 hok
      obtain ⟨-, hok⟩ := Fallible.guard_eq_ok.1 hok
      obtain ⟨rfl, -⟩ := createAdmin_ok hok
      exact row_same rfl
  | role hok =>
      obtain ⟨_, -, hok⟩ := Fallible.bind_eq_ok.1 hok
      obtain ⟨-, hok⟩ := Fallible.guard_eq_ok.1 hok
      cases hok
      exact row_same rfl
  | password hok =>
      obtain ⟨_, -, hok⟩ := Fallible.bind_eq_ok.1 hok
      cases hok
      exact row_updateEnded
  | totp hok =>
      obtain ⟨_, -, hok⟩ := Fallible.bind_eq_ok.1 hok
      cases hok
      exact row_reset (P := P) _ _
  | @disabled _ _ disabled _ _ _ hok =>
      obtain ⟨_, -, hok⟩ := Fallible.bind_eq_ok.1 hok
      obtain ⟨-, hok⟩ := Fallible.guard_eq_ok.1 hok
      cases hok
      cases disabled with
      | true => exact row_updateEnded
      | false => exact row_same rfl
  | deleted hok =>
      obtain ⟨_, -, hok⟩ := Fallible.bind_eq_ok.1 hok
      obtain ⟨-, hok⟩ := Fallible.guard_eq_ok.1 hok
      cases hok
      exact row_delete rfl

/-! ### Open routes and the operator -/

theorem calm_dbscRegister (req : Request) (signed : Option Signed) (d : AccountDb) :
    Calm gated own marks d (dbscRegister P cfg req signed d).state := by
  unfold dbscRegister
  split
  · split
    · exact .refl d
    · split
      · rename_i hok
        obtain ⟨_, -, _, _, _, -, -, -, -, -, -, rfl⟩ := registerBinding_ok hok
        exact calm_rows rfl rfl rfl (row_update (by exact fun _ => rfl) rfl)
      · exact .refl d
      · exact .refl d
  · exact .refl d

theorem calm_dbscRefresh (req : Request) (d : AccountDb) :
    Calm gated own marks d (dbscRefresh P cfg req d).state := by
  have hrefresh : ∀ {result d'}, refreshBinding P req.now req.bindingDraw
      (unquote req.secureSessionId) (proofFromHeader req.sessionResponse) d = .ok (result, d') →
      Calm gated own marks d d' := by
    intro result d' hok
    obtain ⟨-, rfl⟩ | ⟨b, -, -, hfresh | ⟨_, _, _, -, -, -, -, -, -, rfl⟩⟩ :=
      refreshBinding_cases hok
    · exact .refl _
    · cases hfresh
      exact calm_rows rfl rfl rfl (row_same rfl)
    · exact calm_rows rfl rfl rfl (row_same rfl)
  unfold dbscRefresh
  dsimp only
  split
  · exact .refl d
  · split
    · exact .refl d
    · exact .refl d
    · rename_i hok
      exact hrefresh hok
    · rename_i hok
      exact hrefresh hok
    · rename_i hok
      exact hrefresh hok

theorem row_cli (now : Int) (draw : CliDraw) (command : CliCommand) (d : AccountDb) :
    ∀ s' ∈ (runCli P now draw command d).sessions, Row marks d s' := by
  unfold runCli
  cases command with
  | createAdmin username password =>
      dsimp only
      split
      · rename_i hok
        obtain ⟨rfl, -⟩ := createAdmin_ok hok
        exact row_same rfl
      · exact row_same rfl
  | resetPassword username password =>
      dsimp only
      split
      · rename_i hok
        obtain ⟨-, hok⟩ := Fallible.guard_eq_ok.1 hok
        cases hok
        exact row_delete rfl
      · exact row_same rfl
  | disableTotp username =>
      dsimp only
      split
      · exact row_reset _ _
      · exact row_same rfl

end

end Confirmations

end Outletbox
