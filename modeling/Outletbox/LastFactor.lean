import Outletbox.Ceremonies
import Outletbox.Recovery
import Outletbox.Http.App

/-!
# The last second factor

With `ADMIN_REQUIRE_TOTP` an account may give up its authenticator app only while
it has a passkey, and its last passkey only while it has the app.  Both routes
look at the session of the request, which is read when the headers have come;
the form is read after that, and the handler runs when the form is complete.
Other requests may be served in between.

So a request is two steps here: `receive` reads its session, `handle` runs its
handler.  A request that is served at once is one step of the server.
-/

namespace Outletbox

namespace LastFactor

open Factors Recovery

variable (P : Platform) (cfg : Config)

/-! ## Requests whose forms take their time -/

/-- What `panel` does once the session is read. -/
def resume (r : PanelRequest) (signed : Option Signed) (sv : Server) : Outcome Server PanelPage :=
  match requireAdmin P cfg r signed with
  | .error response => refuse sv response
  | .ok s =>
      let (headers, accounts) := offerMiddleware P cfg r s sv.accounts
      let out := servePanel P cfg r s { sv with accounts := accounts }
      { out with response := { out.response with headers := headers ++ out.response.headers } }

theorem panel_eq_resume (r : PanelRequest) (sv : Server) :
    panel P cfg r sv = resume P cfg r (sessionMiddleware P r.toRequest sv.accounts).1
      { sv with accounts := (sessionMiddleware P r.toRequest sv.accounts).2 } := rfl

/-- A request whose form is still to come, with the session it was made in. -/
structure Waiting where
  request : PanelRequest
  signed : Option Signed

/-- The server, and the requests it has read the session of. -/
structure State where
  server : Server
  waiting : List Waiting

def State.empty : State := ⟨.empty, []⟩

inductive Move
  /-- A step of the server; a request to the panel is handled at once. -/
  | serve (i : Input)
  /-- The headers of a request have come. -/
  | receive (now : Int) (r : PanelRequest)
  /-- The form of a waiting request has come. -/
  | handle (k : Nat)

def step (s : State) : Move → State × Option Output
  | .serve i =>
      let (server, output) := s.server.step P cfg i
      ({ s with server := server }, some output)
  | .receive now r =>
      let (signed, accounts) := sessionMiddleware P { r.toRequest with now := now } s.server.accounts
      (⟨{ s.server with accounts := accounts }, s.waiting ++ [⟨r, signed⟩]⟩, none)
  | .handle k =>
      match s.waiting[k]? with
      | none => (s, none)
      | some w =>
          let (server, output) :=
            answerPanel w.request.now (resume P cfg w.request w.signed s.server)
          (⟨server, s.waiting.eraseIdx k⟩, some output)

abbrev Event := History.Event State Move (Option Output)

/-- Anything may come next. -/
def env (_ : List Event) (_ : State) (_ : Move) : Prop := True

/-! ## Resets, and the two guards -/

/-- The account whose factors the route takes away, for an administrator. -/
def resetRoute : PanelRoute → Option String
  | .users (.totp id) => some id
  | .users (.delete id) => some id
  | _ => none

/-- The account that an administrator or the operator resets. -/
def resets (e : Event) : Option String :=
  match e.input with
  | .serve (.panel r) => resetRoute r.route
  | .serve (.cli _ _ (.disableTotp username)) =>
      (findAdminByUsername username e.pre.server.accounts).map (·.id)
  | .handle k => e.pre.waiting[k]?.bind fun w => resetRoute w.request.route
  | _ => none

/-- The account whose waiting request is handled. -/
def asker (e : Event) : Option String :=
  match e.input with
  | .handle k => e.pre.waiting[k]?.bind fun w => w.signed.map (·.admin.id)
  | _ => none

/-- What the guard of a route that takes a factor away asks of the account, with
`adminRequireTotp`. -/
def guard : PanelRoute → Admin → Bool
  | .settings .totpDisable, a => a.passkeys != 0
  | .settings (.passkeyRemove _), a => a.totpEnabled || 1 < a.passkeys
  | _, _ => true

/-- Where the guard lets a request of the account through, it would do so if it looked
at the account as it is. -/
def StillHolds (id : String) (route : PanelRoute) (s : Signed) (d : AccountDb) : Prop :=
  s.admin.id = id → ∀ a, adminById id d = some a → guard route s.admin = true →
    guard route (toAdmin d a) = true

/-- What the guard finds in the session of a waiting request still holds. -/
def Current (id : String) (e : Event) : Prop :=
  match e.input with
  | .handle k =>
      ∀ w s, e.pre.waiting[k]? = some w → w.signed = some s →
        StillHolds id w.request.route s e.pre.server.accounts
  | _ => True

/-! ## Accounts that keep a factor -/

/-- The account has a second factor afterwards, if it had one. -/
structure Keeps (id : String) (d d' : AccountDb) : Prop where
  distinct : (d.passkeys.map (·.id)).Nodup → (d'.passkeys.map (·.id)).Nodup
  factor : (d.passkeys.map (·.id)).Nodup → HasFactor id d → HasFactor id d'

section

variable {P} {cfg} {id : String} {d d' d'' : AccountDb}

theorem Keeps.refl (id : String) (d : AccountDb) : Keeps id d d := ⟨fun h => h, fun _ h => h⟩

theorem Keeps.trans (h : Keeps id d d') (h' : Keeps id d' d'') : Keeps id d d'' :=
  ⟨fun hn => h'.distinct (h.distinct hn), fun hn hf => h'.factor (h.distinct hn) (h.factor hn hf)⟩

theorem keeps_same (hadmins : d'.admins = d.admins) (hpasskeys : d'.passkeys = d.passkeys) :
    Keeps id d d' :=
  ⟨fun hn => by rwa [hpasskeys], fun _ hf => (hasFactor_congr hadmins hpasskeys).2 hf⟩

theorem keeps_moves {c : Call} (hadmins : AdminsMove P d c d') (hpasskeys : PasskeysMove P d c d')
    (hc : removes c ≠ some id) : Keeps id d d' := by
  refine ⟨nodup_passkeys_of_move hpasskeys, fun hn hf => ?_⟩
  obtain ⟨admin, hadmin, hfactor⟩ := hf
  obtain ⟨admin', hadmin', henabled⟩ := enabled_of_move hadmins hc hadmin
  have hcount := passkeyCount_of_move hpasskeys hc hn
  refine ⟨admin', hadmin', ?_⟩
  have hid := adminById_id hadmin
  have hid' := adminById_id hadmin'
  simp only [Admin.hasSecondFactor, toAdmin, Bool.or_eq_true, decide_eq_true_eq, hid] at hfactor
  simp only [Admin.hasSecondFactor, toAdmin, Bool.or_eq_true, decide_eq_true_eq, hid']
  exact hfactor.imp henabled fun hpos => lt_of_lt_of_le hpos hcount

/-- A call of the second factor's system that takes nothing from the account. -/
theorem keeps_call (d : AccountDb) (c : Call) (hc : removes c ≠ some id) :
    Keeps id d (Factors.step P d c).1 :=
  keeps_moves (adminsMove d c) (passkeysMove d c) hc

/-- A change of an account that leaves its app alone. -/
theorem keeps_update {p : AdminRow → Bool} {f : AdminRow → AdminRow}
    (hf : ∀ a, (f a).id = a.id ∧ (f a).totpEnabledAt = a.totpEnabledAt)
    (hadmins : d'.admins = Table.update p f d.admins) (hpasskeys : d'.passkeys = d.passkeys) :
    Keeps id d d' := by
  refine ⟨fun hn => by rwa [hpasskeys], fun _ ⟨admin, hadmin, hfactor⟩ => ?_⟩
  have hfind : adminById id d' = (adminById id d).map fun a => if p a then f a else a := by
    rw [adminById, hadmins]
    exact Table.find?_update (q := fun a : AdminRow => a.id == id) (fun a => by rw [(hf a).1])
      d.admins
  have hsame : ∀ a : AdminRow, (toAdmin d' (if p a then f a else a)).hasSecondFactor =
      (toAdmin d a).hasSecondFactor := fun a => by
    split
    · simp only [Admin.hasSecondFactor, toAdmin, passkeyCount, hpasskeys, (hf a).1, (hf a).2]
      rfl
    · rw [toAdmin_congr hpasskeys]
  rw [hadmin] at hfind
  exact ⟨_, hfind, (hsame admin).trans hfactor⟩

/-! ## The services that are no calls of that system -/

/-- Reading a session touches no account and no passkey. -/
theorem getSession_rows (now : Int) (sessionId : String) (d : AccountDb) :
    (getSession P now sessionId d).2.admins = d.admins ∧
      (getSession P now sessionId d).2.passkeys = d.passkeys := by
  unfold getSession
  split
  · exact ⟨rfl, rfl⟩
  cases sessionRow P sessionId d with
  | none => exact ⟨rfl, rfl⟩
  | some row =>
      dsimp only
      split <;> exact ⟨rfl, rfl⟩

theorem sessionMiddleware_rows (req : Request) (d : AccountDb) :
    (sessionMiddleware P req d).2.admins = d.admins ∧
      (sessionMiddleware P req d).2.passkeys = d.passkeys := by
  unfold sessionMiddleware
  cases req.cookie P sessionCookieName with
  | none => exact ⟨rfl, rfl⟩
  | some sid =>
      have hrows := getSession_rows (P := P) req.now sid d
      dsimp only
      generalize getSession P req.now sid d = answer at hrows ⊢
      obtain ⟨session, d₁⟩ := answer
      cases session with
      | none => exact hrows
      | some session =>
          dsimp only
          split <;> exact hrows

theorem keeps_sessionMiddleware (req : Request) (d : AccountDb) :
    Keeps id d (sessionMiddleware P req d).2 :=
  keeps_same (sessionMiddleware_rows req d).1 (sessionMiddleware_rows req d).2

theorem offerMiddleware_rows (r : PanelRequest) (s : Signed) (d : AccountDb) :
    (offerMiddleware P cfg r s d).2.admins = d.admins ∧
      (offerMiddleware P cfg r s d).2.passkeys = d.passkeys := by
  unfold offerMiddleware
  split
  · rcases offerBinding_cases (P := P) r.now r.random.challenge s.sessionId d with
        h | ⟨x, -, -, -, -, h⟩
    · rw [h]
      exact ⟨rfl, rfl⟩
    · rw [h]
      exact ⟨rfl, rfl⟩
  · exact ⟨rfl, rfl⟩

/-- A completed sign-in leaves the factors alone. -/
theorem keeps_recordLogin (now : Int) (sessionId adminId : String) (ms : Nat) (d : AccountDb) :
    Keeps id d (recordLogin now adminId (markConfirmed P now sessionId ms d)) :=
  keeps_update (p := fun a => a.id == adminId) (f := fun a => { a with lastLoginAt := some now })
    (fun _ => ⟨rfl, rfl⟩) rfl rfl

/-- A call after which a sign-in is complete. -/
theorem keeps_signedIn {req : Request} {s : Signed} {factor : String}
    {answer : String → Response PanelPage} (h : Keeps id d d') :
    Keeps id d (signedIn P cfg req s factor answer d').state :=
  h.trans (keeps_recordLogin req.now req.random.sessionId s.admin.id cfg.reauthWindowMs d')

/-! ## The routes before the second factor -/

theorem keeps_open (route : OpenRoute) (req : Request) (signed : Option Signed) (d : AccountDb) :
    Keeps id d (route.handle P cfg req signed d).state := by
  cases route with
  | dbscRegister =>
      change Keeps id d (dbscRegister P cfg req signed d).state
      unfold dbscRegister
      split
      · split
        · exact .refl id d
        · split
          · rename_i hok
            obtain ⟨_, -, _, _, _, -, -, -, -, -, -, rfl⟩ := registerBinding_ok hok
            exact keeps_same rfl rfl
          · exact .refl id d
          · exact .refl id d
      · exact .refl id d
  | dbscRefresh =>
      have hrefresh : ∀ {result d'}, refreshBinding P req.now req.bindingDraw
          (unquote req.secureSessionId) (proofFromHeader req.sessionResponse) d = .ok (result, d') →
          Keeps id d d' := by
        intro result d' hok
        obtain ⟨-, rfl⟩ | ⟨b, -, -, hfresh | ⟨_, _, _, -, -, -, -, -, -, rfl⟩⟩ :=
          refreshBinding_cases hok
        · exact .refl id _
        · cases hfresh
          exact keeps_same rfl rfl
        · exact keeps_same rfl rfl
      change Keeps id d (dbscRefresh P cfg req d).state
      unfold dbscRefresh
      dsimp only
      split
      · exact .refl id d
      · split
        · exact .refl id d
        · exact .refl id d
        · rename_i hok
          exact hrefresh hok
        · rename_i hok
          exact hrefresh hok
        · rename_i hok
          exact hrefresh hok
  | loginPage => exact .refl id d
  | login =>
      change Keeps id d (postLogin P cfg req d).state
      unfold postLogin
      split
      · exact .refl id d
      · dsimp only
        split
        · exact .refl id d
        · rename_i hok
          obtain ⟨hrow, -⟩ := insertSession_ok hok
          have hinsert : Keeps id d _ := keeps_same (congrArg (·.admins) hrow)
            (congrArg (·.passkeys) hrow)
          split
          · exact hinsert
          · exact hinsert.trans (keeps_recordLogin req.now req.random.sessionId _ _ _)

theorem keeps_ceremonyOptions (req : Request) (s : Signed) (purpose : CeremonyPurpose)
    (d : AccountDb) : Keeps id d (ceremonyOptions P cfg req s purpose d).state := by
  unfold ceremonyOptions
  dsimp only
  split
  · exact .refl id d
  · exact keeps_same rfl rfl

theorem keeps_pending (route : PendingRoute) (req : Request) (s : Signed) (d : AccountDb) :
    Keeps id d (route.handle P cfg req s d).state := by
  cases route with
  | logout => exact keeps_same rfl rfl
  | totpPage => exact .refl id d
  | passkeyLoginOptions =>
      change Keeps id d (passkeyLoginOptions P cfg req s d).state
      unfold passkeyLoginOptions
      split
      · exact .refl id d
      · exact keeps_ceremonyOptions req s .login d
  | passkeyLogin =>
      have hcall := @keeps_call P id d ⟨req.now, .verifyPasskeyLogin (assertion req s)
        (relyingParty cfg) ⟨req.sessionDraw, s.admin, cfg.sessionTtlMs⟩⟩ nofun
      change Keeps id d (verifyPasskeyLogin P req.now req.sessionDraw (assertion req s)
        (relyingParty cfg) s.admin cfg.sessionTtlMs d).2 at hcall
      change Keeps id d (passkeyLogin P cfg req s d).state
      unfold passkeyLogin
      split
      · exact .refl id d
      · generalize verifyPasskeyLogin P req.now req.sessionDraw (assertion req s)
          (relyingParty cfg) s.admin cfg.sessionTtlMs d = result at hcall ⊢
        split
        · exact keeps_signedIn hcall
        · exact hcall
        · exact hcall
  | totp =>
      have hcall : ∀ {result d'}, verifySessionTotp P req.now req.sessionDraw s.sessionId
          (req.field "code") cfg.sessionTtlMs d = .ok (result, d') → Keeps id d d' := fun hok =>
        keeps_moves (c := ⟨req.now, .endSessions fun _ => false⟩) (adminsMove_verifySessionTotp hok)
          (.same (passkeysMove_verifySessionTotp hok)) nofun
      change Keeps id d (postTotp P cfg req s d).state
      unfold postTotp
      dsimp only
      split
      · exact .refl id d
      · split
        · exact .refl id d
        · rename_i hok
          exact keeps_signedIn (hcall hok)
        · rename_i hok
          exact hcall hok
        · rename_i hok
          exact hcall hok

/-! ## The two routes that take a factor away -/

theorem hasFactor_of_passkeys {a : AdminRow} (hadmin : adminById id d = some a)
    (hpasskeys : 0 < passkeyCount id d) : HasFactor id d := by
  refine ⟨a, hadmin, ?_⟩
  simp only [Admin.hasSecondFactor, toAdmin, adminById_id hadmin, Bool.or_eq_true,
    decide_eq_true_eq]
  exact .inr hpasskeys

/-- Disabling the app of an account that has a passkey. -/
theorem keeps_disableTotp {now : Int} {adminId code keep : String}
    (hguard : adminId = id → ∀ a, adminById id d = some a → 0 < passkeyCount id d) :
    Keeps id d (disableTotp P now adminId code keep d).2 := by
  by_cases hid : adminId = id
  swap
  · exact keeps_call d ⟨now, .disableTotp adminId code keep⟩ fun h => hid (Option.some.inj h)
  subst hid
  have hclear : ∀ d₁ : AccountDb, d₁.admins = d.admins → d₁.passkeys = d.passkeys →
      ∀ a, adminById adminId d = some a →
        HasFactor adminId (forceDisableTotp P adminId (some keep) d₁) := by
    intro d₁ hadmins hpasskeys a ha
    obtain ⟨a', ha'⟩ := adminById_clearTotp ((adminById_of_admins hadmins adminId).trans ha)
    refine hasFactor_of_passkeys
      ((adminById_of_admins (forceDisableTotp_admins ..) adminId).trans ha') ?_
    rw [passkeyCount, forceDisableTotp_passkeys, hpasskeys]
    exact hguard rfl a ha
  refine ⟨nodup_passkeys_of_move (passkeysMove (P := P) d
    ⟨now, .disableTotp adminId code keep⟩), fun _ hf => ?_⟩
  obtain h | ⟨a, ha, -, ⟨-, -, h⟩ | ⟨-, -, h⟩⟩ := disableTotp_cases (P := P) now adminId code keep d
  · rw [h]
    exact hf
  · rw [h]
    exact hclear d rfl rfl a ha
  · rw [h]
    exact hclear _ rfl rfl a ha

/-- One passkey goes. -/
theorem passkeyCount_delete (hn : (d.passkeys.map (·.id)).Nodup) (adminId passkeyId : String) :
    passkeyCount adminId d ≤
      (Table.delete (fun p => p.id == passkeyId) d.passkeys).countP (·.adminId == adminId) + 1 := by
  have hone := Table.countP_key_le_one hn passkeyId
  have hsplit := List.countP_eq_countP_filter_add d.passkeys (fun p => p.adminId == adminId)
    (fun p => !(p.id == passkeyId))
  have hgone : (d.passkeys.filter fun p => !!(p.id == passkeyId)).countP (·.adminId == adminId) ≤ 1 := by
    refine List.countP_le_length.trans ?_
    rw [← List.countP_eq_length_filter]
    simpa using hone
  rw [passkeyCount, hsplit]
  exact Nat.add_le_add_left hgone _

/-- Removing a passkey of an account that has the app, or another passkey. -/
theorem keeps_removePasskey {adminId passkeyId keep : String}
    (hguard : adminId = id → ∀ a, adminById id d = some a →
      a.totpEnabledAt.isSome = true ∨ 1 < passkeyCount id d) :
    Keeps id d (removePasskey P adminId passkeyId keep d).2 := by
  by_cases hid : adminId = id
  swap
  · exact keeps_call d ⟨0, .removePasskey adminId passkeyId keep⟩ fun h => hid (Option.some.inj h)
  subst hid
  refine ⟨nodup_passkeys_of_move (passkeysMove (P := P) d
    ⟨0, .removePasskey adminId passkeyId keep⟩), fun hn hf => ?_⟩
  obtain h | ⟨pk, -, -, -, h⟩ := removePasskey_cases (P := P) adminId passkeyId keep d
  · rw [h]
    exact hf
  rw [h]
  refine (hasFactor_congr (dropRecoveryCodesIfUnused_admins _ _)
    (dropRecoveryCodesIfUnused_passkeys _ _)).2 ?_
  obtain ⟨a, ha, -⟩ := hf
  obtain htotp | hpasskeys := hguard rfl a ha
  · refine ⟨a, ha, ?_⟩
    rw [Admin.hasSecondFactor, Bool.or_eq_true]
    exact .inl htotp
  · refine hasFactor_of_passkeys ha ?_
    have hcount := passkeyCount_delete hn adminId passkeyId
    exact Nat.lt_of_succ_lt_succ (hpasskeys.trans_le hcount)

/-! ## The settings of an account -/

theorem keeps_postPassword (req : Request) (s : Signed) (d : AccountDb) :
    Keeps id d (postPassword P cfg req s d).state := by
  have hchange : ∀ {changed d'}, changeAdminPassword P s.admin.id (req.field "current_password")
      (req.field "new_password") req.random.salt d = .ok (changed, d') → Keeps id d d' := by
    intro changed d' hok
    unfold changeAdminPassword at hok
    split at hok
    · cases hok
    split at hok
    · cases hok
      exact .refl id d
    split at hok
    · cases hok
      exact .refl id d
    split at hok
    · cases hok
    cases hok
    exact keeps_update (p := fun a => a.id == s.admin.id) (f := fun a => { a with
      passwordHash := hashPassword P (req.field "new_password") req.random.salt,
      mustChangePassword := false }) (fun _ => ⟨rfl, rfl⟩) rfl rfl
  unfold postPassword
  dsimp only
  split
  · exact .refl id d
  split
  · exact .refl id d
  · rename_i hok
    exact hchange hok
  · rename_i hok
    exact (hchange hok).trans (keeps_same rfl rfl)

theorem keeps_postPasskey (req : Request) (s : Signed) (st : AccountState) :
    Keeps id st.accounts (postPasskey P cfg req s st).state.accounts := by
  have hcodes : ∀ d, Keeps id d
      (regenerateRecoveryCodesConfirmed P req.random.recoveryCodes s.admin.id d).2 := fun d =>
    keeps_call d ⟨req.now, .regenerateRecoveryCodesConfirmed req.random.recoveryCodes s.admin.id⟩
      nofun
  have hothers : ∀ d, Keeps id d (destroyOtherSessions P s.admin.id s.sessionId d) := fun d =>
    keeps_same rfl rfl
  have hregister := @keeps_call P id st.accounts
    ⟨req.now, .registerPasskey req.random.id (registration P req s) (relyingParty cfg)⟩ nofun
  change Keeps id st.accounts (orFailed st.accounts (registerPasskey P req.now req.random.id
    (registration P req s) (relyingParty cfg) st.accounts) Factors.Output.registered).1 at hregister
  unfold postPasskey
  dsimp only
  generalize registerPasskey P req.now req.random.id (registration P req s) (relyingParty cfg)
    st.accounts = result at hregister ⊢
  split
  · dsimp only [orFailed] at hregister
    refine hregister.trans ?_
    split
    · exact (hothers _).trans (hcodes _)
    · exact hothers _
  · exact .refl id _
  · exact .refl id _

theorem StillHolds.congr {route : PanelRoute} {s : Signed} (h : StillHolds id route s d)
    (hrows : d'.admins = d.admins ∧ d'.passkeys = d.passkeys) : StillHolds id route s d' := by
  intro hid a ha
  rw [adminById_of_admins hrows.1] at ha
  rw [toAdmin_congr hrows.2]
  exact h hid a ha

theorem keeps_totpDisable (hcfg : cfg.adminRequireTotp = true) (req : Request) {s : Signed}
    (hcurrent : StillHolds id (.settings .totpDisable) s d) :
    Keeps id d (totpDisable P cfg req s d).state := by
  unfold totpDisable
  dsimp only
  split
  · exact .refl id d
  rename_i hguard
  rw [hcfg, Bool.true_and] at hguard
  have hcall : Keeps id d (disableTotp P req.now s.admin.id (req.field "code") s.sessionId d).2 := by
    refine keeps_disableTotp fun hid a ha => ?_
    have hpasskeys := hcurrent hid a ha (by simpa [guard] using hguard)
    rw [guard, toAdmin, adminById_id ha, bne_iff_ne] at hpasskeys
    exact Nat.pos_of_ne_zero hpasskeys
  generalize disableTotp P req.now s.admin.id (req.field "code") s.sessionId d = result at hcall ⊢
  split
  · exact hcall
  · exact hcall

theorem keeps_postPasskeyRemove (hcfg : cfg.adminRequireTotp = true) (passkeyId : String)
    (req : Request) {s : Signed}
    (hcurrent : StillHolds id (.settings (.passkeyRemove passkeyId)) s d) :
    Keeps id d (postPasskeyRemove P cfg passkeyId req s d).state := by
  unfold postPasskeyRemove
  dsimp only
  split
  · exact .refl id d
  rename_i hguard
  rw [hcfg, Bool.true_and] at hguard
  have hcall : ∀ x, Keeps id d (removePasskey P s.admin.id x s.sessionId d).2 := fun x => by
    refine keeps_removePasskey fun hid a ha => ?_
    have hfactors := hcurrent hid a ha (by simpa [guard, Nat.lt_iff_add_one_le, imp_iff_not_or] using hguard)
    rw [guard, toAdmin, adminById_id ha, Bool.or_eq_true, decide_eq_true_eq] at hfactors
    exact hfactors
  split
  · exact .refl id d
  · rename_i x _
    have hcall := hcall x
    generalize removePasskey P s.admin.id x s.sessionId d = result at hcall ⊢
    split
    · exact hcall
    · exact hcall

theorem keeps_confirmCode (req : Request) (s : Signed) (d : AccountDb) :
    Keeps id d (confirmCode P cfg req s d).state := by
  have hcall : Keeps id d (verifyConfirmCode P req.now s.admin.id (req.field "code") d).2 :=
    keeps_call d ⟨req.now, .verifyConfirmCode s.admin.id (req.field "code")⟩ nofun
  unfold confirmCode
  dsimp only
  generalize verifyConfirmCode P req.now s.admin.id (req.field "code") d = result at hcall ⊢
  split
  · exact hcall.trans (keeps_same rfl rfl)
  · exact hcall
  · exact hcall

theorem keeps_confirmPasskey (req : Request) (s : Signed) (d : AccountDb) :
    Keeps id d (confirmPasskey P cfg req s d).state := by
  have hcall : Keeps id d (verifyPasskeyConfirm P req.now (assertion req s) (relyingParty cfg) d).2 :=
    keeps_call d ⟨req.now, .verifyPasskeyConfirm (assertion req s) (relyingParty cfg)⟩ nofun
  unfold confirmPasskey
  generalize verifyPasskeyConfirm P req.now (assertion req s) (relyingParty cfg) d = result
    at hcall ⊢
  split
  · exact hcall.trans (keeps_same rfl rfl)
  · exact hcall
  · exact hcall

theorem keeps_totpBegin (req : Request) (s : Signed) (d : AccountDb) :
    Keeps id d (totpBegin P cfg req s d).state := by
  unfold totpBegin
  split
  · exact .refl id d
  · rename_i hok
    obtain ⟨a, ha, -, rfl⟩ := beginTotpEnrolment_ok hok
    exact keeps_update (p := fun a => a.id == s.admin.id) (f := fun a => { a with
      totpSecret := some req.random.totpSecret, totpLastStep := none }) (fun _ => ⟨rfl, rfl⟩) rfl rfl

theorem keeps_totpConfirm (req : Request) (s : Signed) (d : AccountDb) :
    Keeps id d (totpConfirm P cfg req s d).state := by
  have hcall : Keeps id d (confirmTotpEnrolment P req.now req.random.recoveryCodes s.admin.id
      (req.field "code") d).2 :=
    keeps_call d ⟨req.now, .confirmTotpEnrolment req.random.recoveryCodes s.admin.id
      (req.field "code")⟩ nofun
  unfold totpConfirm
  dsimp only
  generalize confirmTotpEnrolment P req.now req.random.recoveryCodes s.admin.id
    (req.field "code") d = result at hcall ⊢
  split
  · exact hcall
  · exact hcall.trans (keeps_same rfl rfl)

theorem keeps_totpRecovery (req : Request) (s : Signed) (d : AccountDb) :
    Keeps id d (totpRecovery P cfg req s d).state := by
  have hcall : Keeps id d (regenerateRecoveryCodes P req.now req.random.recoveryCodes s.admin.id
      (req.field "code") d).2 :=
    keeps_call d ⟨req.now, .regenerateRecoveryCodes req.random.recoveryCodes s.admin.id
      (req.field "code")⟩ nofun
  unfold totpRecovery
  dsimp only
  generalize regenerateRecoveryCodes P req.now req.random.recoveryCodes s.admin.id
    (req.field "code") d = result at hcall ⊢
  split
  · exact hcall
  · exact hcall

theorem keeps_recoveryRegenerate (req : Request) (s : Signed) (d : AccountDb) :
    Keeps id d (recoveryRegenerate P cfg req s d).state := by
  have hcall : Keeps id d
      (regenerateRecoveryCodesConfirmed P req.random.recoveryCodes s.admin.id d).2 :=
    keeps_call d ⟨req.now, .regenerateRecoveryCodesConfirmed req.random.recoveryCodes s.admin.id⟩
      nofun
  unfold recoveryRegenerate
  dsimp only
  generalize regenerateRecoveryCodesConfirmed P req.random.recoveryCodes s.admin.id d = result
    at hcall ⊢
  split
  · exact hcall
  · exact hcall

/-- Every route of the settings, one by one. -/
theorem keeps_settings (hcfg : cfg.adminRequireTotp = true) (route : SettingsRoute)
    (req : Request) {s : Signed} (st : AccountState)
    (hcurrent : StillHolds id (.settings route) s st.accounts) :
    Keeps id st.accounts (route.handle P cfg req s st).state.accounts := by
  cases route with
  | confirmPage => exact .refl id _
  | confirmCode => exact keeps_confirmCode req s _
  | confirmPassword =>
      change Keeps id st.accounts (confirmPassword P cfg req s st.accounts).state
      unfold confirmPassword
      split
      · exact .refl id _
      · exact keeps_same rfl rfl
  | confirmPasskeyOptions => exact keeps_ceremonyOptions req s .confirm _
  | confirmPasskey => exact keeps_confirmPasskey req s _
  | security => exact .refl id _
  | password => exact keeps_postPassword req s _
  | totpBegin => exact keeps_totpBegin req s _
  | totpConfirm => exact keeps_totpConfirm req s _
  | totpRecovery => exact keeps_totpRecovery req s _
  | totpDisable => exact keeps_totpDisable hcfg req hcurrent
  | passkeyOptions =>
      change Keeps id st.accounts (passkeyOptions P cfg req s st.accounts).state
      unfold passkeyOptions
      split
      · exact .refl id _
      · dsimp only
        split
        · exact .refl id _
        · exact keeps_same rfl rfl
  | passkeys => exact keeps_postPasskey req s st
  | passkeyRemove x => exact keeps_postPasskeyRemove hcfg x req hcurrent
  | recoveryRegenerate => exact keeps_recoveryRegenerate req s _
  | revokeOthers => exact keeps_same rfl rfl
  | revokeSession x =>
      have hcall : Keeps id st.accounts (revokeSession s.admin.id x st.accounts).2 :=
        keeps_same rfl rfl
      change Keeps id st.accounts (postRevokeSession P cfg x req s st.accounts).state
      unfold postRevokeSession
      dsimp only
      split
      · exact .refl id _
      · generalize revokeSession s.admin.id x st.accounts = result at hcall ⊢
        split
        · exact hcall
        · exact hcall

/-! ## The accounts of others, and the operator -/

theorem keeps_createAdmin {now : Int} {x salt : String} {input : CreateAdminInput} {account : Admin}
    (hok : createAdmin P now x salt input d = .ok (account, d')) : Keeps id d d' := by
  obtain ⟨rfl, hfree⟩ := createAdmin_ok hok
  exact keeps_moves (P := P) (c := ⟨now, .endSessions fun _ => false⟩)
    (.insert (newAdminRow P now x salt input) hfree rfl rfl rfl) (.same rfl) nofun

theorem keeps_users (route : UserRoute) (req : Request) (s : Signed) (db : Tables)
    (hreset : resetRoute (.users route) ≠ some id) :
    Keeps id db.accounts (route.handle P req s db).state.accounts := by
  have h := userEffect P route req s db
  generalize (route.handle P req s db).state = db' at h ⊢
  cases h with
  | idle => exact .refl id _
  | created hok =>
      unfold createUser at hok
      dsimp only at hok
      obtain ⟨-, hok⟩ := Fallible.guard_eq_ok.1 hok
      obtain ⟨-, hok⟩ := Fallible.guard_eq_ok.1 hok
      exact keeps_createAdmin hok
  | @role x role _ _ hok =>
      obtain ⟨_, -, hok⟩ := Fallible.bind_eq_ok.1 hok
      obtain ⟨-, hok⟩ := Fallible.guard_eq_ok.1 hok
      cases hok
      exact keeps_update (p := fun a => a.id == x) (f := fun a => { a with role := role })
        (fun _ => ⟨rfl, rfl⟩) rfl rfl
  | @password x _ _ hok =>
      obtain ⟨_, -, hok⟩ := Fallible.bind_eq_ok.1 hok
      cases hok
      exact keeps_update (p := fun a => a.id == x) (f := fun a => { a with
        passwordHash := hashPassword P req.random.password req.random.salt,
        mustChangePassword := true }) (fun _ => ⟨rfl, rfl⟩) rfl rfl
  | @totp x _ _ hok =>
      obtain ⟨_, -, hok⟩ := Fallible.bind_eq_ok.1 hok
      cases hok
      exact keeps_call db.accounts ⟨req.now, .resetSecondFactors x⟩
        hreset
  | @disabled _ x disabled _ _ hroute hok =>
      obtain ⟨_, -, hok⟩ := Fallible.bind_eq_ok.1 hok
      obtain ⟨-, hok⟩ := Fallible.guard_eq_ok.1 hok
      have hupdate : Keeps id db.accounts (updateAdmin x (fun a => { a with
          disabledAt := if disabled then some req.now else none }) db.accounts) :=
        keeps_update (p := fun a => a.id == x) (f := fun a => { a with
          disabledAt := if disabled then some req.now else none }) (fun _ => ⟨rfl, rfl⟩) rfl rfl
      cases hok
      refine hupdate.trans ?_
      split
      · exact keeps_same rfl rfl
      · exact .refl id _
  | @deleted x _ _ hok =>
      obtain ⟨_, -, hok⟩ := Fallible.bind_eq_ok.1 hok
      obtain ⟨-, hok⟩ := Fallible.guard_eq_ok.1 hok
      cases hok
      exact keeps_call (P := P) db.accounts ⟨req.now, .deleteAdmin x⟩
        hreset

theorem keeps_cli {now : Int} {draw : CliDraw} {command : CliCommand} (d : AccountDb)
    (hreset : ∀ username, command = .disableTotp username →
      (findAdminByUsername username d).map (·.id) ≠ some id) :
    Keeps id d (runCli P now draw command d) := by
  cases command with
  | createAdmin username password =>
      unfold runCli
      dsimp only
      split
      · rename_i hok
        exact keeps_createAdmin hok
      · exact .refl id d
  | resetPassword username password =>
      unfold runCli
      dsimp only
      split
      · rename_i hok
        unfold setAdminPassword at hok
        obtain ⟨-, hok⟩ := Fallible.guard_eq_ok.1 hok
        cases hok
        exact keeps_update (p := fun a => a.username == username) (f := fun a => { a with
          passwordHash := hashPassword P password draw.salt, mustChangePassword := false })
          (fun _ => ⟨rfl, rfl⟩) rfl rfl
      · exact .refl id d
  | disableTotp username =>
      unfold runCli
      dsimp only
      split
      · rename_i a ha
        refine keeps_call (P := P) d ⟨now, .resetSecondFactors a.id⟩ fun hx => hreset username rfl ?_
        rw [ha]
        exact hx
      · exact .refl id d

theorem keeps_handle (hcfg : cfg.adminRequireTotp = true) (route : PanelRoute) (req : Request)
    {s : Signed} (sv : Server) (hreset : resetRoute route ≠ some id)
    (hcurrent : StillHolds id route s sv.accounts) :
    Keeps id sv.accounts (route.handle P cfg req s sv).state.accounts := by
  cases route with
  | pending route => exact keeps_pending route req s _
  | settings route => exact keeps_settings hcfg route req sv.accountState hcurrent
  | work route => exact .refl id _
  | groups route => exact .refl id _
  | users route => exact keeps_users route req s sv.tables hreset
  | audit => exact .refl id _

/-- A request goes on in the session it was made in. -/
theorem requireAdmin_ok {r : PanelRequest} {signed : Option Signed} {s : Signed}
    (h : requireAdmin P cfg r signed = .ok s) : signed = some s := by
  unfold requireAdmin at h
  split at h
  · cases h
  · split at h
    · cases h
    · cases h
      rfl

/-- A request to the panel whose session is read. -/
theorem keeps_resume (hcfg : cfg.adminRequireTotp = true) (r : PanelRequest) {signed : Option Signed}
    {sv : Server} (hreset : resetRoute r.route ≠ some id)
    (hcurrent : ∀ s, signed = some s → StillHolds id r.route s sv.accounts) :
    Keeps id sv.accounts (resume P cfg r signed sv).state.accounts := by
  unfold resume
  cases hs : requireAdmin P cfg r signed with
  | error response => exact .refl id _
  | ok s =>
      dsimp only
      have hrows := @offerMiddleware_rows P cfg r s sv.accounts
      have hcurrent := (hcurrent s (requireAdmin_ok hs)).congr hrows
      generalize offerMiddleware P cfg r s sv.accounts = answer at hrows hcurrent ⊢
      obtain ⟨headers, accounts⟩ := answer
      refine (keeps_same hrows.1 hrows.2).trans ?_
      change Keeps id accounts (servePanel P cfg r s { sv with accounts := accounts }).state.accounts
      unfold servePanel
      split
      · exact .refl id _
      · exact keeps_handle hcfg r.route r.toRequest { sv with accounts := accounts } hreset hcurrent

/-- A session that has just been read says what the account is. -/
theorem sessionMiddleware_admin {req : Request} {s : Signed}
    (h : (sessionMiddleware P req d).1 = some s) {a : AdminRow}
    (ha : adminById s.admin.id d = some a) : s.admin = toAdmin d a := by
  have hsession : ∀ {sid session}, (getSession P req.now sid d).1 = some session →
      ∀ a, adminById session.admin.id d = some a → session.admin = toAdmin d a := by
    intro sid session hsession a ha
    unfold getSession at hsession
    split at hsession
    · cases hsession
    cases hrow : sessionRow P sid d with
    | none =>
        rw [hrow] at hsession
        cases hsession
    | some found =>
        obtain ⟨row, admin⟩ := found
        rw [hrow] at hsession
        dsimp only at hsession
        split at hsession
        · cases hsession
        cases hsession
        obtain ⟨_, -, hrow⟩ := Option.bind_eq_some_iff.1 hrow
        obtain ⟨admin', hadmin, hrow⟩ := Option.bind_eq_some_iff.1 hrow
        cases hrow
        have hid := adminById_id hadmin
        change adminById admin.id d = some a at ha
        rw [hid, hadmin] at ha
        cases ha
        rfl
  unfold sessionMiddleware at h
  split at h
  · cases h
  rename_i sid _
  have hsession := @hsession sid
  generalize getSession P req.now sid d = answer at hsession h
  obtain ⟨session, d₁⟩ := answer
  cases session with
  | none => cases h
  | some session =>
      dsimp only at h
      split at h
      · cases h
      cases h
      exact hsession rfl a ha

theorem keeps_panel (hcfg : cfg.adminRequireTotp = true) (r : PanelRequest) (sv : Server)
    (hreset : resetRoute r.route ≠ some id) : Keeps id sv.accounts (panel P cfg r sv).state.accounts := by
  rw [panel_eq_resume]
  have hrows := @sessionMiddleware_rows P r.toRequest sv.accounts
  refine (keeps_same hrows.1 hrows.2).trans ?_
  have hresume := @keeps_resume P cfg id hcfg r (sessionMiddleware P r.toRequest sv.accounts).1
    { sv with accounts := (sessionMiddleware P r.toRequest sv.accounts).2 } hreset
  refine hresume fun s hs => ?_
  refine StillHolds.congr (d := sv.accounts) ?_ hrows
  rintro rfl a ha hguard
  rwa [← sessionMiddleware_admin hs ha]

theorem keeps_visit (r : OpenRequest) (sv : Server) :
    Keeps id sv.accounts (visit P cfg r sv).state.accounts := by
  unfold visit
  have hrows := sessionMiddleware_rows (P := P) r.toRequest sv.accounts
  generalize sessionMiddleware P r.toRequest sv.accounts = answer at hrows ⊢
  obtain ⟨signed, accounts⟩ := answer
  refine (keeps_same hrows.1 hrows.2).trans ?_
  dsimp only
  split
  · exact .refl id _
  · exact keeps_open r.route r.toRequest signed accounts

/-! ## Runs -/

/-- A step that is no reset, and whose guard looks at what still holds. -/
theorem keeps_step (hcfg : cfg.adminRequireTotp = true) (s : State) (m : Move)
    (hreset : resets (History.fire (step P cfg) s m) ≠ some id)
    (hcurrent : Current id (History.fire (step P cfg) s m)) :
    Keeps id s.server.accounts (step P cfg s m).1.server.accounts := by
  cases m with
  | serve i =>
      cases i with
      | deliver r => exact keeps_sessionMiddleware r.toRequest s.server.accounts
      | visit r => exact keeps_visit r s.server
      | panel r => exact keeps_panel hcfg r s.server hreset
      | cleanup run => exact keeps_same rfl rfl
      | cli now draw command =>
          refine keeps_cli s.server.accounts fun username hcommand => ?_
          subst hcommand
          exact hreset
  | receive now r => exact keeps_sessionMiddleware _ s.server.accounts
  | handle k =>
      change s.waiting[k]?.bind (fun w => resetRoute w.request.route) ≠ some id at hreset
      rw [step]
      split
      · exact .refl id _
      · rename_i w hw
        rw [hw] at hreset
        exact keeps_resume hcfg w.request hreset fun signed => hcurrent w signed hw

/-- The ids of passkeys stay distinct, also where a request takes the last factor: there
is an account the step does not concern. -/
theorem distinct_step (hcfg : cfg.adminRequireTotp = true) (s : State) (m : Move)
    (hn : (s.server.accounts.passkeys.map (·.id)).Nodup) :
    ((step P cfg s m).1.server.accounts.passkeys.map (·.id)).Nodup := by
  let e := History.fire (step P cfg) s m
  obtain ⟨id, hid⟩ := Infinite.exists_notMem_finset ((resets e).toFinset ∪ (asker e).toFinset)
  rw [Finset.mem_union, Option.mem_toFinset, Option.mem_toFinset, not_or] at hid
  refine (keeps_step hcfg s m hid.1 ?_).distinct hn
  cases m with
  | serve i => trivial
  | receive now r => trivial
  | handle k =>
      intro w signed hw hsigned hsame
      refine absurd ?_ hid.2
      change s.waiting[k]?.bind (fun w => w.signed.map (·.admin.id)) = some id
      change s.waiting[k]? = some w at hw
      rw [hw, Option.bind_some, hsigned, Option.map_some, hsame]

/-- Passkeys have their own ids after every run. -/
theorem distinct_passkeys (hcfg : cfg.adminRequireTotp = true) {h : List Event} {s : State}
    (hr : History.Run (step P cfg) env .empty h s) :
    (s.server.accounts.passkeys.map (·.id)).Nodup :=
  hr.invariant (I := fun _ s => (s.server.accounts.passkeys.map (·.id)).Nodup) List.nodup_nil
    fun _ s m _ _ hn => distinct_step hcfg s m hn

end

/-- Once an account has a second factor it keeps one until an administrator or the operator
resets it, where no guard lets a request of the account through that it would refuse on the
account as it is. -/
theorem keeps_a_factor (hcfg : cfg.adminRequireTotp = true) {later earlier : List Event}
    {e : Event} {s : State} (hr : History.Run (step P cfg) env .empty (later ++ e :: earlier) s)
    {id : String} (hfactor : HasFactor id e.post.server.accounts)
    (hreset : ∀ x ∈ later, resets x ≠ some id) (hcurrent : ∀ x ∈ later, Current id x) :
    HasFactor id s.server.accounts := by
  have hdistinct : (e.post.server.accounts.passkeys.map (·.id)).Nodup := by
    obtain ⟨m, hbefore, -, he⟩ := hr.split
    rw [he]
    exact distinct_step hcfg e.pre m (distinct_passkeys hcfg hbefore)
  have hkeeps := hr.keeps (Q := fun s => (s.server.accounts.passkeys.map (·.id)).Nodup ∧
      HasFactor id s.server.accounts) (q := fun x => resets x ≠ some id ∧ Current id x)
    (fun s m hs hx => by
      have hkeeps := keeps_step hcfg s m hx.1 hx.2
      exact ⟨hkeeps.distinct hs.1, hkeeps.factor hs.1 hs.2⟩)
    ⟨hdistinct, hfactor⟩ fun x hx => ⟨hreset x hx, hcurrent x hx⟩
  exact hkeeps.2

/-! ## An account that enrols both factors -/

/-- The host of the ceremonies, with the number of their algorithm. -/
def sampleHost : Platform :=
  { Ceremonies.sampleHost with
    integer := fun s => if s = "-8" then some (-8) else Platform.sample.integer s }

def sampleConfig : Config :=
  { defaultConfig with
    publicOrigin := "https://panel.example", publicHost := "panel.example",
    adminRequireTotp := true }

/-- The account `root`. -/
def sampleAccount : String := newId "a" sampleId

/-- A form of the settings, with the values the account's devices know. -/
def sampleSettings (now : Int) (route : SettingsRoute) (fields : List (String × String)) :
    PanelRequest :=
  let request := samplePanel now "sid" 'T' (.settings route) fields
  { request with
    random := { request.random with totpSecret := Replay.sampleSecret, challenge := "abc" } }

/-- `root` enrols the app, and asks to register a passkey. -/
def enrolScript : List Input :=
  signInScript ++
    [.panel (sampleSettings 2 .totpBegin []),
      .panel (sampleSettings 60000 .totpConfirm [("code", "000000")]),
      .panel (sampleSettings 60001 .passkeyOptions [])]

def passkeyRequest : PanelRequest :=
  sampleSettings 60002 .passkeys
    [("name", "Key"), ("client_data", "-"),
      ("authenticator_data", Ceremonies.sampleRegistration.answer.authenticatorData),
      ("public_key", "key"), ("algorithm", "-8"), ("credential_id", "abc")]

def disableRequest : PanelRequest := sampleSettings 90001 .totpDisable [("code", "000000")]

def removeRequest : PanelRequest :=
  sampleSettings 90000 (.passkeyRemove (newId "pk" sampleId)) []

/-- The history and the state when the passkey can be registered. -/
def enrolled : List Event × State :=
  History.replay (step sampleHost sampleConfig) [] .empty (enrolScript.map .serve)

theorem run_enrolled :
    History.Run (step sampleHost sampleConfig) env .empty enrolled.1 enrolled.2 :=
  History.run_replay .start (History.admits_of_forall (fun _ _ _ => trivial) _ _ _)

theorem hasFactor_iff {id : String} {d : AccountDb} :
    HasFactor id d ↔ (adminById id d).any (fun a => (toAdmin d a).hasSecondFactor) = true := by
  rw [HasFactor, Option.any_eq_true]

/-- What has to be checked for a waiting request to be handled on an account as it was read. -/
theorem Current.check {id : String} {e : Event} {k : Nat} {route : PanelRoute}
    (hinput : e.input = .handle k)
    (hroute : (e.pre.waiting[k]?.map fun w => w.request.route) = some route)
    (hguard : ((adminById id e.pre.server.accounts).all fun a =>
      guard route (toAdmin e.pre.server.accounts a)) = true) : Current id e := by
  unfold Current
  rw [hinput]
  intro w s hw hsigned hid a ha hbefore
  rw [hw, Option.map_some, Option.some.injEq] at hroute
  rw [ha, Option.all_some] at hguard
  rwa [hroute]

/-- The form that disables the app comes long after its headers, and the app goes; then the last
passkey stays. -/
theorem factor_kept_in_turn :
    let s := (History.replay (step sampleHost sampleConfig) [] enrolled.2
      [.serve (.panel passkeyRequest), .receive 60003 disableRequest, .handle 0,
        .serve (.panel { removeRequest with now := 90002 })]).2
    HasFactor sampleAccount s.server.accounts ∧
      ((adminById sampleAccount s.server.accounts).all fun a => a.totpEnabledAt.isNone) = true := by
  have hr := (((run_enrolled.step (.serve (.panel passkeyRequest)) trivial).step
    (.receive 60003 disableRequest) trivial).step (.handle 0) trivial).step
    (.serve (.panel { removeRequest with now := 90002 })) trivial
  refine ⟨@keeps_a_factor sampleHost sampleConfig rfl [_, _, _] _ _ _ hr _ (hasFactor_iff.2 ?_) ?_
    ?_, by decide +kernel⟩
  · decide +kernel
  · rw [List.forall_mem_cons, List.forall_mem_cons, List.forall_mem_singleton]
    exact ⟨by decide +kernel, by decide +kernel, by decide +kernel⟩
  · rw [List.forall_mem_cons, List.forall_mem_cons, List.forall_mem_singleton]
    exact ⟨trivial, .check rfl rfl (by decide +kernel), trivial⟩

/-- While the form that disables the app is on its way, the passkey is removed. -/
theorem factor_lost :
    ¬ ∀ (P : Platform) (cfg : Config), cfg.adminRequireTotp = true →
      ∀ (later earlier : List Event) (e : Event) (s : State),
        History.Run (step P cfg) env .empty (later ++ e :: earlier) s → ∀ id : String,
          HasFactor id e.post.server.accounts → (∀ x ∈ later, resets x ≠ some id) →
          HasFactor id s.server.accounts := by
  intro h
  have hr := (((run_enrolled.step (.serve (.panel passkeyRequest)) trivial).step
    (.receive 89999 disableRequest) trivial).step (.serve (.panel removeRequest)) trivial).step
    (.handle 0) trivial
  have hkept := h sampleHost sampleConfig rfl [_, _, _] _ _ _ hr sampleAccount
    (hasFactor_iff.2 (by decide +kernel)) (by
      rw [List.forall_mem_cons, List.forall_mem_cons, List.forall_mem_singleton]
      exact ⟨by decide +kernel, by decide +kernel, by decide +kernel⟩)
  exact absurd (hasFactor_iff.1 hkept) (by decide +kernel)

end LastFactor

end Outletbox
