import Outletbox.Http.App
import Outletbox.Http.Steps
import Outletbox.Recovery

/-!
# What a step does to credentials and sessions

An account is protected by its password, by whether it is disabled, and by its
second factors.  `Effect` says once what a step of the server does to them and
to the sessions: whose credentials it may have touched, which session of such an
account stays, and which session it opened.
-/

namespace Outletbox

namespace Credentials

open Recovery (HasFactor)

variable (P : Platform) (cfg : Config)

/-! ## Credentials -/

/-- What protects an account. -/
structure Held where
  passwordHash : PasswordHash
  disabled : Bool
  totpEnabledAt : Option Int
  passkeys : List String

def held (id : String) (d : AccountDb) : Option Held :=
  (adminById id d).map fun a =>
    ⟨a.passwordHash, a.disabledAt.isSome, a.totpEnabledAt, credentialIds id d⟩

/-- Nothing changes, but that a disabled account may be enabled again. -/
structure Held.Same (c c' : Held) : Prop where
  password : c'.passwordHash = c.passwordHash
  disabled : c'.disabled = true → c.disabled = true
  app : c'.totpEnabledAt = c.totpEnabledAt
  passkeys : c'.passkeys = c.passkeys

/-- The account is there afterwards, with the credentials it had. -/
def Keeps (id : String) (d d' : AccountDb) : Prop :=
  ∀ c, held id d = some c → ∃ c', held id d' = some c' ∧ c.Same c'

/-- What a session row says about its session. -/
structure Standing where
  idHash : String
  adminId : String
  verified : Bool
  deriving DecidableEq

/-- The standing of the session of a row. -/
def standing (s : SessionRow) : Standing := ⟨s.idHash, s.adminId, s.totpVerified⟩

/-- Sessions, accounts and passkeys have their own ids. -/
structure Distinct (d : AccountDb) : Prop where
  sessions : (d.sessions.map (·.idHash)).Nodup
  admins : (d.admins.map (·.id)).Nodup
  passkeys : (d.passkeys.map (·.id)).Nodup

/-! ## Steps on the account tables -/

/-- No credentials change, no session is opened, and none is worth more than before. -/
structure Quiet (d d' : AccountDb) : Prop where
  accounts : ∀ id, Option.Rel Held.Same (held id d) (held id d')
  rows : ∀ s' ∈ d'.sessions, ∃ s ∈ d.sessions, standing s' = standing s
  distinct : Distinct d → Distinct d'

/-- A session and what becomes of it.  One whose account was touched is the one that is kept;
the account is still there, and has a second factor only if it had one or enrols one. -/
structure From (touched : String → Prop) (kept : Option String) (enrols : Prop)
    (d d' : AccountDb) (s s' : SessionRow) : Prop where
  idHash : s'.idHash = s.idHash
  adminId : s'.adminId = s.adminId
  raised : s.totpVerified = true → s'.totpVerified = true
  same : kept ≠ some s.idHash → s'.totpVerified = s.totpVerified
  spared : touched s.adminId → kept = some s.idHash ∧ (∃ a, adminById s.adminId d' = some a) ∧
    (HasFactor s.adminId d' → enrols ∨ HasFactor s.adminId d)

/-- What a step does: `touched` are the accounts whose credentials it may have changed, `kept`
the one session of such an account that does not end, `opened` the session it opened. -/
structure Effect (touched : String → Prop) (kept : Option String) (enrols : Prop)
    (opened : Option Standing) (d d' : AccountDb) : Prop where
  accounts : Distinct d → ∀ id, ¬ touched id → Keeps id d d'
  rows : ∀ s' ∈ d'.sessions, opened = some (standing s') ∨
    (∀ x, opened = some x → x.idHash ≠ s'.idHash) ∧
      ∃ s ∈ d.sessions, From touched kept enrols d d' s s'
  distinct : Distinct d → Distinct d'

section

variable {P} {cfg} {d d₁ d' : AccountDb} {id : String} {touched : String → Prop}
  {kept : Option String} {enrols : Prop} {opened : Option Standing}

theorem Held.Same.refl (c : Held) : c.Same c := ⟨rfl, id, rfl, rfl⟩

theorem Held.Same.trans {c c₁ c' : Held} (h : c.Same c₁) (h' : c₁.Same c') : c.Same c' :=
  ⟨h'.password.trans h.password, fun hd => h.disabled (h'.disabled hd), h'.app.trans h.app,
    h'.passkeys.trans h.passkeys⟩

theorem Keeps.trans (h : Keeps id d d₁) (h' : Keeps id d₁ d') : Keeps id d d' := by
  intro c hc
  obtain ⟨c₁, hc₁, hs⟩ := h c hc
  obtain ⟨c', hc', hs'⟩ := h' c₁ hc₁
  exact ⟨c', hc', hs.trans hs'⟩

theorem hasFactor_iff_held :
    HasFactor id d ↔ ∃ c, held id d = some c ∧ (c.totpEnabledAt.isSome = true ∨ c.passkeys ≠ []) := by
  have hcount : ∀ a : AdminRow, a.id = id →
      (0 < passkeyCount a.id d ↔ credentialIds id d ≠ []) := by
    rintro a rfl
    rw [passkeyCount, List.countP_eq_length_filter, credentialIds, ne_eq, List.map_eq_nil_iff,
      List.length_pos_iff]
  constructor
  · rintro ⟨a, ha, hfactor⟩
    refine ⟨_, by rw [held, ha]; rfl, ?_⟩
    simpa [Admin.hasSecondFactor, toAdmin, hcount a (adminById_id ha)] using hfactor
  · rintro ⟨c, hc, hfactor⟩
    obtain ⟨a, ha, rfl⟩ := Option.map_eq_some_iff.1 hc
    refine ⟨a, ha, ?_⟩
    simpa [Admin.hasSecondFactor, toAdmin, hcount a (adminById_id ha)] using hfactor

theorem exists_held : (∃ c, held id d = some c) ↔ ∃ a, adminById id d = some a := by
  simp [held]

theorem Keeps.account (h : Keeps id d d') (ha : ∃ a, adminById id d = some a) :
    ∃ a, adminById id d' = some a := by
  obtain ⟨c, hc⟩ := exists_held.2 ha
  obtain ⟨c', hc', -⟩ := h c hc
  exact exists_held.1 ⟨c', hc'⟩

/-- An account that keeps its credentials has a second factor when it had one. -/
theorem Keeps.hasFactor (h : Keeps id d d') (ha : ∃ a, adminById id d = some a) :
    HasFactor id d' ↔ HasFactor id d := by
  obtain ⟨c, hc⟩ := exists_held.2 ha
  obtain ⟨c', hc', hs⟩ := h c hc
  rw [hasFactor_iff_held, hasFactor_iff_held, hc, hc']
  simp [hs.app, hs.passkeys]

/-! ## Composing -/

theorem rel_trans {x x₁ x' : Option Held} (h : Option.Rel Held.Same x x₁)
    (h' : Option.Rel Held.Same x₁ x') : Option.Rel Held.Same x x' := by
  cases h with
  | none => exact h'
  | some hs =>
      cases h' with
      | some hs' => exact .some (hs.trans hs')

theorem Quiet.refl (d : AccountDb) : Quiet d d := by
  refine ⟨fun id => ?_, fun s hs => ⟨s, hs, rfl⟩, fun h => h⟩
  cases held id d with
  | none => exact .none
  | some c => exact .some (.refl c)

theorem Quiet.trans (h : Quiet d d₁) (h' : Quiet d₁ d') : Quiet d d' := by
  refine ⟨fun id => rel_trans (h.accounts id) (h'.accounts id), ?_,
    fun hd => h'.distinct (h.distinct hd)⟩
  intro s' hs'
  obtain ⟨s₁, hs₁, he₁⟩ := h'.rows s' hs'
  obtain ⟨s, hs, he⟩ := h.rows s₁ hs₁
  exact ⟨s, hs, he₁.trans he⟩

theorem Quiet.keeps (h : Quiet d d') (id : String) : Keeps id d d' := by
  intro c hc
  have hrel := h.accounts id
  rw [hc] at hrel
  generalize held id d' = x at hrel
  cases hrel with
  | some hs => exact ⟨_, rfl, hs⟩

/-- A quiet step gives no account a second factor, and takes none away. -/
theorem Quiet.hasFactor (h : Quiet d d') : HasFactor id d' ↔ HasFactor id d := by
  have hrel := h.accounts id
  rw [hasFactor_iff_held, hasFactor_iff_held]
  generalize held id d = x at hrel
  generalize held id d' = x' at hrel
  cases hrel with
  | none => rfl
  | some hs => simp [hs.app, hs.passkeys]

theorem Quiet.account (h : Quiet d d') :
    (∃ a, adminById id d' = some a) ↔ ∃ a, adminById id d = some a := by
  have hrel := h.accounts id
  rw [← exists_held, ← exists_held]
  generalize held id d = x at hrel
  generalize held id d' = x' at hrel
  cases hrel with
  | none => rfl
  | some hs => simp

theorem standing_eq {s s' : SessionRow} (h : standing s' = standing s) :
    s'.idHash = s.idHash ∧ s'.adminId = s.adminId ∧ s'.totpVerified = s.totpVerified := by
  simpa [standing] using h

/-- A quiet step touches no account. -/
theorem Quiet.effect (h : Quiet d d') (hno : ∀ id, ¬ touched id) :
    Effect touched kept enrols none d d' := by
  refine ⟨fun _ id _ => h.keeps id, fun s' hs' => .inr ⟨nofun, ?_⟩, h.distinct⟩
  obtain ⟨s, hs, he⟩ := h.rows s' hs'
  obtain ⟨hid, hadmin, hverified⟩ := standing_eq he
  exact ⟨s, hs, hid, hadmin, hverified.trans, fun _ => hverified, fun ht => absurd ht (hno _)⟩

theorem Effect.after (h : Effect touched kept enrols opened d₁ d') (hq : Quiet d d₁) :
    Effect touched kept enrols opened d d' := by
  refine ⟨fun hd id hid => (hq.keeps id).trans (h.accounts (hq.distinct hd) id hid), ?_,
    fun hd => h.distinct (hq.distinct hd)⟩
  intro s' hs'
  rcases h.rows s' hs' with hopened | ⟨hne, s₁, hs₁, hfrom⟩
  · exact .inl hopened
  · obtain ⟨s, hs, he⟩ := hq.rows s₁ hs₁
    obtain ⟨hid, hadmin, hverified⟩ := standing_eq he
    refine .inr ⟨hne, s, hs, hfrom.idHash.trans hid, hfrom.adminId.trans hadmin, ?_, ?_, ?_⟩
    · rw [← hverified]
      exact hfrom.raised
    · rw [← hverified, ← hid]
      exact hfrom.same
    · rw [← hadmin, ← hid, ← hq.hasFactor]
      exact hfrom.spared

theorem Effect.andThen (h : Effect touched kept enrols opened d d₁) (hq : Quiet d₁ d') :
    Effect touched kept enrols opened d d' := by
  refine ⟨fun hd id hid => (h.accounts hd id hid).trans (hq.keeps id), ?_,
    fun hd => hq.distinct (h.distinct hd)⟩
  intro s' hs'
  obtain ⟨s₁, hs₁, he⟩ := hq.rows s' hs'
  obtain ⟨hid, hadmin, hverified⟩ := standing_eq he
  rcases h.rows s₁ hs₁ with hopened | ⟨hne, s, hs, hfrom⟩
  · exact .inl (hopened.trans (congrArg some he.symm))
  · refine .inr ⟨by rwa [hid], s, hs, hid.trans hfrom.idHash, hadmin.trans hfrom.adminId, ?_, ?_, ?_⟩
    · rw [hverified]
      exact hfrom.raised
    · rw [hverified]
      exact hfrom.same
    · rw [hq.hasFactor, hq.account]
      exact hfrom.spared

/-! ## Statements that are quiet -/

theorem held_congr (hadmins : d'.admins = d.admins) (hpasskeys : d'.passkeys = d.passkeys)
    (id : String) : held id d' = held id d := by
  rw [held, held, adminById_of_admins hadmins]
  simp only [credentialIds, hpasskeys]

theorem rel_refl (x : Option Held) : Option.Rel Held.Same x x := by
  cases x with
  | none => exact .none
  | some c => exact .some (.refl c)

theorem Distinct.congr (h : Distinct d)
    (hsessions : (d.sessions.map (·.idHash)).Nodup → (d'.sessions.map (·.idHash)).Nodup)
    (hadmins : d'.admins = d.admins) (hpasskeys : d'.passkeys = d.passkeys) : Distinct d' :=
  ⟨hsessions h.sessions, hadmins ▸ h.admins, hpasskeys ▸ h.passkeys⟩

/-- A statement on the sessions that keeps what they stand for, or on none of the tables. -/
theorem quiet_update (hadmins : d'.admins = d.admins) (hpasskeys : d'.passkeys = d.passkeys)
    {p : SessionRow → Bool} {f : SessionRow → SessionRow}
    (hf : ∀ s, standing (f s) = standing s)
    (hrows : d'.sessions = Table.update p f d.sessions) : Quiet d d' := by
  refine ⟨fun id => ?_, fun s' hs' => ?_, fun hd => hd.congr (fun hn => ?_) hadmins hpasskeys⟩
  · rw [held_congr hadmins hpasskeys]
    exact rel_refl _
  · rw [hrows] at hs'
    obtain ⟨s, hs, rfl⟩ := Table.mem_update.1 hs'
    refine ⟨s, hs, ?_⟩
    split
    · exact hf s
    · rfl
  · rw [hrows]
    exact Table.nodup_update (fun s => (standing_eq (hf s)).1) hn

theorem quiet_same (hadmins : d'.admins = d.admins) (hpasskeys : d'.passkeys = d.passkeys)
    (hrows : d'.sessions = d.sessions) : Quiet d d' :=
  quiet_update hadmins hpasskeys (p := fun _ => false) (f := fun s => s) (fun _ => rfl)
    (hrows.trans (Table.update_eq_self fun _ _ _ => rfl).symm)

theorem quiet_delete (hadmins : d'.admins = d.admins) (hpasskeys : d'.passkeys = d.passkeys)
    {p : SessionRow → Bool} (hrows : d'.sessions = Table.delete p d.sessions) : Quiet d d' := by
  refine ⟨fun id => ?_, fun s' hs' => ?_, fun hd => hd.congr (fun hn => ?_) hadmins hpasskeys⟩
  · rw [held_congr hadmins hpasskeys]
    exact rel_refl _
  · rw [hrows] at hs'
    exact ⟨s', (Table.mem_delete.1 hs').1, rfl⟩
  · rw [hrows]
    exact Table.nodup_delete hn

/-- What an update of the accounts keeps of their credentials. -/
structure SameAccount (a a' : AdminRow) : Prop where
  id : a'.id = a.id
  passwordHash : a'.passwordHash = a.passwordHash
  disabled : a'.disabledAt.isSome = true → a.disabledAt.isSome = true
  totpEnabledAt : a'.totpEnabledAt = a.totpEnabledAt

theorem quiet_admins {p : AdminRow → Bool} {f : AdminRow → AdminRow}
    (hf : ∀ a, SameAccount a (f a)) (hadmins : d'.admins = Table.update p f d.admins)
    (hpasskeys : d'.passkeys = d.passkeys) (hrows : d'.sessions = d.sessions) : Quiet d d' := by
  refine ⟨fun id => ?_, fun s hs => ⟨s, hrows ▸ hs, rfl⟩, fun hd => ⟨?_, ?_, ?_⟩⟩
  · have hfind : adminById id d' = (adminById id d).map fun a => if p a then f a else a := by
      rw [adminById, hadmins]
      exact Table.find?_update (q := fun a : AdminRow => a.id == id) (fun a => by rw [(hf a).id])
        d.admins
    have hsame : ∀ a, SameAccount a (if p a then f a else a) := fun a => by
      split
      · exact hf a
      · exact ⟨rfl, rfl, fun h => h, rfl⟩
    simp only [held, hfind, credentialIds, hpasskeys]
    cases adminById id d with
    | none => exact .none
    | some a =>
        exact .some ⟨(hsame a).passwordHash, (hsame a).disabled, (hsame a).totpEnabledAt, rfl⟩
  · rw [hrows]
    exact hd.sessions
  · rw [hadmins]
    exact Table.nodup_update (fun a => (hf a).id) hd.admins
  · rw [hpasskeys]
    exact hd.passkeys

/-- An update of one account. -/
theorem quiet_updateAdmin {f : AdminRow → AdminRow} (hf : ∀ a, SameAccount a (f a)) (id : String)
    (d : AccountDb) : Quiet d (updateAdmin id f d) :=
  quiet_admins (p := fun a => a.id == id) hf rfl rfl rfl

theorem quiet_updateSession {f : SessionRow → SessionRow} (hf : ∀ s, standing (f s) = standing s)
    (idHash : String) (d : AccountDb) : Quiet d (updateSession idHash f d) :=
  quiet_update rfl rfl hf rfl

theorem quiet_deleteSessions (p : SessionRow → Bool) (d : AccountDb) :
    Quiet d (deletePanelSessions p d) :=
  quiet_delete rfl rfl rfl

theorem quiet_useCode (now : Int) (adminId code : String) (d : AccountDb) :
    Quiet d (useCode P now adminId code d) :=
  quiet_same rfl rfl rfl

theorem quiet_replaceCodes (adminId : String) (codes : List String) (d : AccountDb) :
    Quiet d (replaceRecoveryCodes P adminId codes d) :=
  quiet_same rfl rfl rfl

/-- The use of a passkey changes its counter alone. -/
theorem quiet_recordUse (now : Int) (id : String) (signCount : Nat) (d : AccountDb) :
    Quiet d (recordUse now id signCount d) := by
  have hids : ∀ adminId, credentialIds adminId (recordUse now id signCount d) =
      credentialIds adminId d := fun adminId => by
    simp only [credentialIds, recordUse]
    rw [Table.filter_update (by exact fun _ => rfl), Table.map_update _ (by exact fun _ => rfl)]
  refine ⟨fun adminId => ?_, fun s hs => ⟨s, hs, rfl⟩, fun hd => ⟨hd.sessions, hd.admins, ?_⟩⟩
  · have hsame : held adminId (recordUse now id signCount d) = held adminId d := by
      simp only [held, hids]
      rfl
    rw [hsame]
    exact rel_refl _
  · exact Table.nodup_update (by exact fun _ => rfl) hd.passkeys

theorem quiet_getSession (now : Int) (sessionId : String) (d : AccountDb) :
    Quiet d (getSession P now sessionId d).2 := by
  unfold getSession
  split
  · exact .refl d
  cases sessionRow P sessionId d with
  | none => exact .refl d
  | some row =>
      dsimp only
      split
      · exact quiet_deleteSessions _ d
      · exact quiet_updateSession (by exact fun _ => rfl) _ d

theorem quiet_sessionMiddleware (req : Request) (d : AccountDb) :
    Quiet d (sessionMiddleware P req d).2 := by
  unfold sessionMiddleware
  cases req.cookie P sessionCookieName with
  | none => exact .refl d
  | some sid =>
      have hquiet := quiet_getSession (P := P) req.now sid d
      dsimp only
      generalize getSession P req.now sid d = answer at hquiet ⊢
      obtain ⟨session, d₁⟩ := answer
      cases session with
      | none => exact hquiet
      | some session =>
          dsimp only
          split
          · exact hquiet
          · exact hquiet

theorem quiet_offerMiddleware (r : PanelRequest) (s : Signed) (d : AccountDb) :
    Quiet d (offerMiddleware P cfg r s d).2 := by
  unfold offerMiddleware
  split
  · rcases offerBinding_cases (P := P) r.now r.random.challenge s.sessionId d with
        h | ⟨x, -, -, -, -, h⟩
    · rw [h]
      exact .refl d
    · rw [h]
      exact quiet_updateSession (by exact fun _ => rfl) _ d
  · exact .refl d

theorem quiet_dropCodes (id : String) (d : AccountDb) : Quiet d (dropRecoveryCodesIfUnused id d) :=
  quiet_same (dropRecoveryCodesIfUnused_admins id d) (dropRecoveryCodesIfUnused_passkeys id d)
    (dropRecoveryCodesIfUnused_sessions id d)

/-! ## Statements that change credentials -/

theorem Keeps.of_eq (h : held id d' = held id d) : Keeps id d d' := by
  intro c hc
  exact ⟨c, h.trans hc, .refl c⟩

theorem held_of (hadmin : adminById id d' = adminById id d)
    (hpasskeys : credentialIds id d' = credentialIds id d) : held id d' = held id d := by
  rw [held, held, hadmin, hpasskeys]

/-- A statement on the passkeys of others. -/
theorem credentialIds_delete {p : PasskeyRow → Bool}
    (hp : ∀ x ∈ d.passkeys, p x = true → x.adminId ≠ id)
    (hrows : d'.passkeys = Table.delete p d.passkeys) :
    credentialIds id d' = credentialIds id d := by
  simp only [credentialIds, hrows, Table.delete, List.filter_filter]
  congr 1
  refine List.filter_congr fun x hx => ?_
  cases hpx : p x with
  | false => simp
  | true => simp [hp x hx hpx]

theorem adminById_update_other {own : String} {f : AdminRow → AdminRow}
    (hf : ∀ a, (f a).id = a.id) (hne : id ≠ own) :
    adminById id (updateAdmin own f d) = adminById id d := by
  rw [adminById_updateAdmin hf]
  cases ha : adminById id d with
  | none => rfl
  | some a =>
      have hid : (a.id == own) = false := by
        rw [adminById_id ha]
        simpa using hne
      rw [Option.map_some, hid]
      rfl

theorem adminById_update_own {own : String} {f : AdminRow → AdminRow}
    (hf : ∀ a, (f a).id = a.id) :
    adminById own (updateAdmin own f d) = (adminById own d).map f := by
  rw [adminById_updateAdmin hf]
  cases ha : adminById own d with
  | none => rfl
  | some a => simp [adminById_id ha]

theorem distinct_updateAdmin {own : String} {f : AdminRow → AdminRow}
    (hf : ∀ a, (f a).id = a.id) (hd : Distinct d) : Distinct (updateAdmin own f d) :=
  ⟨hd.sessions, Table.nodup_update hf hd.admins, hd.passkeys⟩

/-- A change of an account made from a session of it: the other sessions of the account end. -/
theorem effect_destroyOthers {own sid : String} {enrols : Prop}
    (hother : Distinct d → ∀ id, id ≠ own → Keeps id d d₁)
    (hrows : ∀ s₁ ∈ d₁.sessions, ∃ s ∈ d.sessions, s₁.idHash = s.idHash ∧
      s₁.adminId = s.adminId ∧ (s.totpVerified = true → s₁.totpVerified = true) ∧
      (s.adminId ≠ own → s.idHash ≠ P.sha256Hex sid → s₁.totpVerified = s.totpVerified))
    (haccount : ∃ a, adminById own d₁ = some a)
    (hfactor : HasFactor own d₁ → enrols ∨ HasFactor own d)
    (hdistinct : Distinct d → Distinct d₁) :
    Effect (· = own) (some (P.sha256Hex sid)) enrols none d (destroyOtherSessions P own sid d₁) := by
  have hquiet : Quiet d₁ (destroyOtherSessions P own sid d₁) := quiet_deleteSessions _ d₁
  refine ⟨fun hd id hid => (hother hd id hid).trans (hquiet.keeps id), ?_,
    fun hd => hquiet.distinct (hdistinct hd)⟩
  intro s' hs'
  obtain ⟨hs₁, hstays⟩ := Table.mem_delete.1 hs'
  obtain ⟨s, hs, hid, hadmin, hraised, hsame⟩ := hrows s' hs₁
  have hmine : s.adminId = own → s.idHash = P.sha256Hex sid := by
    rintro rfl
    rw [← hid]
    simpa [hadmin] using hstays
  refine .inr ⟨nofun, s, hs, hid, hadmin, hraised, fun hne => ?_, fun htouched => ?_⟩
  · have hne : s.idHash ≠ P.sha256Hex sid := fun h => hne (congrArg some h.symm)
    exact hsame (fun h => hne (hmine h)) hne
  · refine ⟨congrArg some (hmine htouched).symm, ?_, ?_⟩
    · rw [htouched]
      exact hquiet.account.2 haccount
    · rw [htouched, hquiet.hasFactor]
      exact hfactor

/-- A change of an account after which every session of it is over. -/
theorem effect_ended {own : String} (hother : Distinct d → ∀ id, id ≠ own → Keeps id d d')
    (hrows : d'.sessions = Table.delete (fun s => s.adminId == own) d.sessions)
    (hdistinct : Distinct d → Distinct d') : Effect (· = own) none False none d d' := by
  refine ⟨hother, fun s' hs' => ?_, hdistinct⟩
  rw [hrows] at hs'
  obtain ⟨hs, hstays⟩ := Table.mem_delete.1 hs'
  refine .inr ⟨nofun, s', hs, rfl, rfl, fun h => h, fun _ => rfl, fun htouched => ?_⟩
  exact absurd htouched (by simpa using hstays)

/-- Rows a statement keeps as they are. -/
theorem rows_kept {own keep : String} (hrows : d₁.sessions = d.sessions) :
    ∀ s₁ ∈ d₁.sessions, ∃ s ∈ d.sessions, s₁.idHash = s.idHash ∧
      s₁.adminId = s.adminId ∧ (s.totpVerified = true → s₁.totpVerified = true) ∧
      (s.adminId ≠ own → s.idHash ≠ keep → s₁.totpVerified = s.totpVerified) := by
  intro s hs
  exact ⟨s, hrows ▸ hs, rfl, rfl, fun h => h, fun _ _ => rfl⟩

/-- The account's own change of its password. -/
theorem effect_password {own sid : String} {f : AdminRow → AdminRow}
    (hf : ∀ a, (f a).id = a.id ∧ (f a).totpEnabledAt = a.totpEnabledAt)
    (hown : ∃ a, adminById own d = some a) :
    Effect (· = own) (some (P.sha256Hex sid)) False none d
      (destroyOtherSessions P own sid (updateAdmin own f d)) := by
  have hid : ∀ a, (f a).id = a.id := fun a => (hf a).1
  refine effect_destroyOthers ?_ (rows_kept rfl) ?_ ?_ (distinct_updateAdmin hid)
  · intro _ id hne
    exact .of_eq (held_of (adminById_update_other hid hne) rfl)
  · obtain ⟨a, ha⟩ := hown
    exact ⟨f a, by rw [adminById_update_own hid, ha]; rfl⟩
  · rintro ⟨a', ha', hfactor⟩
    rw [adminById_update_own hid] at ha'
    obtain ⟨a, ha, rfl⟩ := Option.map_eq_some_iff.1 ha'
    refine .inr ⟨a, ha, ?_⟩
    rw [← hfactor]
    simp only [Admin.hasSecondFactor, toAdmin, (hf a).1, (hf a).2, passkeyCount, updateAdmin]
    rfl

/-- The app is enabled from a session of the account. -/
theorem effect_enableTotp {own sid : String} (now step : Int) (codes : List String)
    (hown : ∃ a, adminById own d = some a) :
    Effect (· = own) (some (P.sha256Hex sid)) True none d
      (destroyOtherSessions P own sid
        (replaceRecoveryCodes P own codes (enableTotp now step own d))) := by
  have hid : ∀ a : AdminRow, ({ a with totpEnabledAt := some now, totpLastStep := some step } :
      AdminRow).id = a.id := fun _ => rfl
  refine effect_destroyOthers ?_ ?_ ?_ (fun _ => .inl trivial) ?_
  · intro _ id hne
    exact .of_eq (held_of (adminById_update_other hid hne) rfl)
  · intro s₁ hs₁
    obtain ⟨s, hs, rfl⟩ := Table.mem_update.1 hs₁
    refine ⟨s, hs, ?_⟩
    by_cases hmine : s.adminId = own
    · simp [hmine]
    · simp [hmine]
  · obtain ⟨a, ha⟩ := hown
    exact ⟨_, (adminById_update_own hid).trans (by rw [ha]; rfl)⟩
  · intro hd
    have hd' : Distinct (updateAdmin own _ d) := distinct_updateAdmin hid hd
    exact ⟨Table.nodup_update (by exact fun _ => rfl) hd'.sessions, hd'.admins, hd'.passkeys⟩

/-- A passkey is added from a session of the account. -/
theorem effect_addPasskey {own sid idHash : String} {pk : PasskeyRow} (hmine : pk.adminId = own)
    (hfresh : ∀ p ∈ d.passkeys, p.id ≠ pk.id) (hown : ∃ a, adminById own d = some a)
    (hhash : idHash = P.sha256Hex sid) :
    Effect (· = own) (some (P.sha256Hex sid)) True none d
      (destroyOtherSessions P own sid (updateSession idHash (fun s => { s with totpVerified := true })
        { dropChallenge idHash d with passkeys := d.passkeys ++ [pk] })) := by
  subst hhash
  have hdropped := quiet_updateSession (d := d) (f := fun s => { s with
    webauthnChallenge := none, webauthnPurpose := none, webauthnExpiresAt := none })
    (fun _ => rfl) (P.sha256Hex sid)
  refine effect_destroyOthers ?_ ?_ hown (fun _ => .inl trivial) ?_
  · intro _ id hne
    refine .of_eq (held_of rfl ?_)
    simp [credentialIds, updateSession, hmine, hne.symm]
  · intro s₁ hs₁
    obtain ⟨s₀, hs₀, rfl⟩ := Table.mem_update.1 hs₁
    obtain ⟨s, hs, he⟩ := hdropped.rows s₀ hs₀
    obtain ⟨hid, hadmin, hverified⟩ := standing_eq he
    refine ⟨s, hs, ?_⟩
    by_cases hkept : s₀.idHash = P.sha256Hex sid
    · simp only [hkept, beq_self_eq_true, if_true]
      exact ⟨hkept.symm.trans hid, hadmin, fun _ => trivial, fun _ hne => absurd (hid.symm.trans hkept) hne⟩
    · simp only [beq_eq_false_iff_ne.2 hkept, Bool.false_eq_true, if_false]
      exact ⟨hid, hadmin, hverified.trans, fun _ _ => hverified⟩
  · intro hd
    have hd' := hdropped.distinct hd
    exact ⟨Table.nodup_update (by exact fun _ => rfl) hd'.sessions, hd.admins,
      Table.nodup_append_row hd.passkeys hfresh⟩

/-- The app is given up from a session of the account, which may be nobody's. -/
theorem keeps_clearTotp {own : String} (hne : id ≠ own) : Keeps id d (clearTotp own d) :=
  .of_eq (held_of (adminById_update_other (by exact fun _ => rfl) hne) rfl)

theorem hasFactor_clearTotp {own : String} (h : HasFactor own (clearTotp own d)) :
    HasFactor own d := by
  obtain ⟨a', ha', hfactor⟩ := h
  rw [clearTotp, adminById_update_own (by exact fun _ => rfl)] at ha'
  obtain ⟨a, ha, rfl⟩ := Option.map_eq_some_iff.1 ha'
  refine ⟨a, ha, ?_⟩
  rw [Admin.hasSecondFactor, Bool.or_eq_true] at hfactor ⊢
  rcases hfactor with hfactor | hfactor
  · cases hfactor
  · exact .inr hfactor

theorem effect_disableTotp {own sid : String} (hown : ∃ a, adminById own d = some a) :
    Effect (· = own) (some (P.sha256Hex sid)) False none d
      (forceDisableTotp P own (some sid) d) := by
  have hquiet := quiet_dropCodes own (clearTotp own d)
  show Effect _ _ _ _ d
    (destroyOtherSessions P own sid (dropRecoveryCodesIfUnused own (clearTotp own d)))
  refine effect_destroyOthers ?_ ?_ ?_ ?_ ?_
  · exact fun _ id hne => (keeps_clearTotp hne).trans (hquiet.keeps id)
  · exact rows_kept (dropRecoveryCodesIfUnused_sessions own (clearTotp own d))
  · obtain ⟨a, ha⟩ := hown
    exact hquiet.account.2 (Recovery.adminById_clearTotp ha)
  · exact fun h => .inr (hasFactor_clearTotp (hquiet.hasFactor.1 h))
  · exact fun hd => hquiet.distinct (distinct_updateAdmin (by exact fun _ => rfl) hd)

/-- A passkey is removed from a session of the account. -/
theorem effect_removePasskey {own sid : String} {pk : PasskeyRow} (hpk : pk ∈ d.passkeys)
    (hmine : pk.adminId = own) (hown : ∃ a, adminById own d = some a) :
    Effect (· = own) (some (P.sha256Hex sid)) False none d
      (destroyOtherSessions P own sid (dropRecoveryCodesIfUnused own
        { d with passkeys := Table.delete (fun p => p.id == pk.id) d.passkeys })) := by
  have hquiet := quiet_dropCodes own
    { d with passkeys := Table.delete (fun p => p.id == pk.id) d.passkeys }
  refine effect_destroyOthers ?_ (rows_kept (dropRecoveryCodesIfUnused_sessions _ _))
    (hquiet.account.2 hown) ?_ ?_
  · intro hd id hne
    have hpasskeys : Keeps id d
        { d with passkeys := Table.delete (fun p => p.id == pk.id) d.passkeys } := by
      refine .of_eq (held_of rfl (credentialIds_delete ?_ rfl))
      intro x hx hp
      rw [Table.eq_of_key hd.passkeys hx hpk (by simpa using hp), hmine]
      exact hne.symm
    exact hpasskeys.trans (hquiet.keeps id)
  · intro h
    obtain ⟨a, ha, hfactor⟩ := hquiet.hasFactor.1 h
    refine .inr ⟨a, ha, ?_⟩
    rw [Admin.hasSecondFactor, Bool.or_eq_true, decide_eq_true_eq] at hfactor ⊢
    exact hfactor.imp_right fun hpos => hpos.trans_le (List.filter_sublist.countP_le)
  · intro hd
    exact hquiet.distinct ⟨hd.sessions, hd.admins, Table.nodup_delete hd.passkeys⟩

/-- An account loses its second factors, and every session. -/
theorem effect_reset (own : String) (d : AccountDb) :
    Effect (· = own) none False none d (resetSecondFactors P own d) := by
  let d₀ : AccountDb := { d with passkeys := Table.delete (fun p => p.adminId == own) d.passkeys }
  have hquiet := quiet_dropCodes own (clearTotp own d₀)
  refine effect_ended ?_ ?_ ?_
  · intro _ id hne
    have hpasskeys : Keeps id d d₀ := by
      refine .of_eq (held_of rfl (credentialIds_delete ?_ rfl))
      intro x _ hx
      rw [show x.adminId = own by simpa using hx]
      exact hne.symm
    exact (hpasskeys.trans (keeps_clearTotp hne)).trans
      ((hquiet.trans (quiet_deleteSessions _ _)).keeps id)
  · show Table.delete _ (dropRecoveryCodesIfUnused own (clearTotp own d₀)).sessions = _
    rw [dropRecoveryCodesIfUnused_sessions]
    rfl
  · intro hd
    have hd₀ : Distinct d₀ := ⟨hd.sessions, hd.admins, Table.nodup_delete hd.passkeys⟩
    exact (hquiet.trans (quiet_deleteSessions _ _)).distinct
      (distinct_updateAdmin (by exact fun _ => rfl) hd₀)

/-- An account is changed, and every session of it ends. -/
theorem effect_updateEnded {own : String} {f : AdminRow → AdminRow} (hf : ∀ a, (f a).id = a.id) :
    Effect (· = own) none False none d
      (deletePanelSessions (fun s => s.adminId == own) (updateAdmin own f d)) :=
  effect_ended (fun _ _ hne => .of_eq (held_of (adminById_update_other hf hne) rfl)) rfl
    fun hd => (quiet_deleteSessions _ _).distinct (distinct_updateAdmin hf hd)

theorem effect_deleteAdmin (own : String) (d : AccountDb) :
    Effect (· = own) none False none d (deleteAdmin own d) := by
  refine effect_ended ?_ rfl fun hd => ⟨Table.nodup_delete hd.sessions,
    Table.nodup_delete hd.admins, Table.nodup_delete hd.passkeys⟩
  intro _ id hne
  refine .of_eq (held_of ?_ (credentialIds_delete ?_ rfl))
  · refine Table.find?_delete fun a ha => ?_
    rw [beq_iff_eq] at ha
    simpa [ha] using hne
  · intro x _ hx
    rw [show x.adminId = own by simpa using hx]
    exact hne.symm

/-- A new account touches no other. -/
theorem effect_createAdmin {now : Int} {x salt : String} {input : CreateAdminInput}
    {account : Admin} (hok : createAdmin P now x salt input d = .ok (account, d'))
    (hno : ∀ id, ¬ touched id) : Effect touched kept enrols none d d' := by
  obtain ⟨rfl, hfree⟩ := createAdmin_ok hok
  refine ⟨fun _ id _ c hc => ?_, fun s hs => ?_, fun hd => ⟨hd.sessions, ?_, hd.passkeys⟩⟩
  · obtain ⟨a, ha, rfl⟩ := Option.map_eq_some_iff.1 hc
    refine ⟨_, ?_, .refl _⟩
    rw [held, adminById_of_append rfl, ha]
    rfl
  · exact .inr ⟨nofun, s, hs, rfl, rfl, fun h => h, fun _ => rfl, fun ht => absurd ht (hno _)⟩
  · exact Table.nodup_append_row hd.admins hfree

/-! ## Statements that open a session -/

theorem Effect.congr {touched' : String → Prop} (h : Effect touched kept enrols opened d d')
    (ht : ∀ id, touched' id ↔ touched id) : Effect touched' kept enrols opened d d' := by
  have hsame : touched' = touched := funext fun id => propext (ht id)
  rw [hsame]
  exact h

theorem effect_open {row : SessionRow} (hq : Quiet d d₁)
    (hfresh : ∀ s ∈ d₁.sessions, s.idHash ≠ row.idHash) (hadmins : d'.admins = d₁.admins)
    (hpasskeys : d'.passkeys = d₁.passkeys) (hrows : d'.sessions = d₁.sessions ++ [row])
    (hno : ∀ id, ¬ touched id) : Effect touched kept enrols (some (standing row)) d d' := by
  refine ⟨fun _ id _ => (hq.keeps id).trans (.of_eq (held_congr hadmins hpasskeys id)), ?_, ?_⟩
  · intro s' hs'
    rw [hrows] at hs'
    rcases List.mem_append.1 hs' with hs' | hs'
    · obtain ⟨s, hs, he⟩ := hq.rows s' hs'
      obtain ⟨hid, hadmin, hverified⟩ := standing_eq he
      refine .inr ⟨?_, s, hs, hid, hadmin, hverified.trans, fun _ => hverified,
        fun ht => absurd ht (hno _)⟩
      rintro x ⟨⟩
      exact (hfresh s' hs').symm
    · rw [List.mem_singleton.1 hs']
      exact .inl rfl
  · intro hd
    refine (hq.distinct hd).congr (fun hn => ?_) hadmins hpasskeys
    rw [hrows]
    exact Table.nodup_append_row hn hfresh

theorem effect_completeSecondFactor {now : Int} {draw : SessionDraw} {pending : String}
    {account : Admin} {ttlMs : Nat} {factor : SecondFactor}
    (hok : completeSecondFactor P now draw pending account ttlMs factor d = .ok d')
    (hno : ∀ id, ¬ touched id) :
    Effect touched kept enrols (some ⟨P.sha256Hex draw.sessionId, account.id, true⟩) d d' := by
  obtain ⟨rfl, hfresh⟩ := completeSecondFactor_ok hok
  have hquiet : Quiet d (deletePanelSessions (fun s => s.idHash == pending)
      (forgetFailures account.id d)) :=
    (quiet_updateAdmin (by exact fun _ => ⟨rfl, rfl, fun h => h, rfl⟩) account.id d).trans
      (quiet_deleteSessions _ _)
  show Effect _ _ _ (some (standing
    (completedSession P now draw account ttlMs (metaOf pending d) factor))) d _
  refine effect_open hquiet (fun s hs => ?_) rfl rfl rfl hno
  obtain ⟨hs, hne⟩ := Table.mem_delete.1 hs
  exact (hfresh s hs (by simpa using hne)).1

/-- A completed sign-in is stamped. -/
theorem quiet_recordLogin (now : Int) (sessionId adminId : String) (ms : Nat) (d : AccountDb) :
    Quiet d (recordLogin now adminId (markConfirmed P now sessionId ms d)) :=
  (quiet_updateSession (by exact fun _ => rfl) _ d).trans
    (quiet_updateAdmin (by exact fun _ => ⟨rfl, rfl, fun h => h, rfl⟩) _ _)

end

end Credentials

end Outletbox
