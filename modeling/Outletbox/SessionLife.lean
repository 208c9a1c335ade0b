import Outletbox.Changes
import Outletbox.LastFactor

/-!
# Sessions and the changes they outlive

Every step of the server is taken through what the requests say.  A session that
waits for its second factor is never raised, and no session outlives a change of
its account's credentials but the one the change was made from.
-/

namespace Outletbox

namespace Credentials

open Recovery (HasFactor)

variable (P : Platform) (cfg : Config)

/-! ## Steps of the server -/

/-- A request to the panel and the session it is made in. -/
def Asks (r : PanelRequest) (s : Signed) (d : AccountDb) : Prop :=
  (sessionMiddleware P r.toRequest d).1 = some s

/-- The step changed a password, disabled the account, or added, removed or reset a second
factor of it. -/
def Changed (e : ServerEvent) (id : String) : Prop :=
  match e.input with
  | .panel r => ∃ s, Asks P r s e.pre.accounts ∧ Touches s.admin.id r.route e.output.audit id
  | .cli _ _ command => Resets command e.pre.accounts id
  | _ => False

/-- A request to the settings, made in this complete session. -/
def FromSession (k : String) (e : ServerEvent) : Prop :=
  ∃ r s route, e.input = .panel r ∧ r.route = .settings route ∧ Asks P r s e.pre.accounts ∧
    P.sha256Hex s.sessionId = k ∧ s.session.totpVerified = true

/-- A request to a route that enrols a second factor. -/
def Enrols (e : ServerEvent) : Prop := ∃ r, e.input = .panel r ∧ enrolment r.route = true

/-- The step opened a session with this hash. -/
def Opens (k : String) (e : ServerEvent) : Prop :=
  match e.input with
  | .visit r => r.route = .login ∧ P.sha256Hex r.random.sessionId = k ∧
      ("admin.login" ∈ actions e.output.audit ∨ "admin.login_password" ∈ actions e.output.audit)
  | .panel r => (r.route = .pending .totp ∨ r.route = .pending .passkeyLogin) ∧
      P.sha256Hex r.random.sessionId = k ∧ "admin.login" ∈ actions e.output.audit
  | _ => False

/-- A pending session was replaced by this one, after a factor of the account was presented. -/
def Completes (k id : String) (e : ServerEvent) : Prop :=
  ∃ r s, e.input = .panel r ∧ Asks P r s e.pre.accounts ∧ P.sha256Hex r.random.sessionId = k ∧
    Completion P cfg r.toRequest s
      (offerMiddleware P cfg r s (sessionMiddleware P r.toRequest e.pre.accounts).2).2 id

/-- How a session was opened. -/
inductive Opening (e : ServerEvent) (x : Standing) : Prop
  | password : (∃ a, adminById x.adminId e.post.accounts = some a) →
      (x.verified = true ↔ ¬ HasFactor x.adminId e.post.accounts) →
      ("admin.login_password" ∈ actions e.output.audit → x.verified = false) → Opening e x
  | completed : (∃ a, adminById x.adminId e.post.accounts = some a) → x.verified = true →
      Completes P cfg x.idHash x.adminId e → "admin.login_password" ∉ actions e.output.audit →
      Opening e x

/-- All that a step does to credentials and sessions. -/
structure Taken (e : ServerEvent) (kept : Option String) (opened : Option Standing) : Prop where
  effect : Effect (Changed P e) kept (Enrols e) opened e.pre.accounts e.post.accounts
  kept : ∀ k, kept = some k → FromSession P k e
  opening : ∀ x, opened = some x → Opening P cfg e x
  opens : ∀ k, Opens P k e ↔ ∃ x, opened = some x ∧ x.idHash = k

section

variable {P} {cfg} {d d₁ d' : AccountDb} {id own k : String} {e : ServerEvent} {sv : Server}

/-- The row and the account of a session that is accepted. -/
theorem getSession_row {now : Int} {sid : String} {session : Session}
    (h : (getSession P now sid d).1 = some session) :
    ∃ row ∈ d.sessions, ∃ a, row.idHash = P.sha256Hex sid ∧ adminById row.adminId d = some a ∧
      a.disabledAt = none ∧ session = sessionOf d row a := by
  unfold getSession at h
  split at h
  · cases h
  cases hrow : sessionRow P sid d with
  | none =>
      rw [hrow] at h
      cases h
  | some found =>
      obtain ⟨row, admin⟩ := found
      rw [hrow] at h
      dsimp only at h
      split at h
      · cases h
      rename_i hgood
      cases h
      obtain ⟨row', hfind, hrow⟩ := Option.bind_eq_some_iff.1 hrow
      obtain ⟨admin', hadmin, hrow⟩ := Option.bind_eq_some_iff.1 hrow
      cases hrow
      rw [not_or, Bool.not_eq_true, Option.isSome_eq_false_iff, Option.isNone_iff_eq_none] at hgood
      exact ⟨row, List.mem_of_find?_eq_some hfind, admin, by simpa using List.find?_some hfind,
        hadmin, hgood.2, rfl⟩

/-- The row of the session a request is made in. -/
theorem signed_row {req : Request} {s : Signed} (h : (sessionMiddleware P req d).1 = some s) :
    ∃ row ∈ d.sessions, ∃ a, row.idHash = P.sha256Hex s.sessionId ∧
      adminById row.adminId d = some a ∧ a.disabledAt = none ∧ s.session = sessionOf d row a := by
  unfold sessionMiddleware at h
  split at h
  · cases h
  rename_i sid _
  have hsession := @getSession_row P d req.now sid
  generalize getSession P req.now sid d = answer at hsession h
  obtain ⟨session, d₁⟩ := answer
  cases session with
  | none => cases h
  | some session =>
      dsimp only at h
      split at h
      · cases h
      cases h
      exact hsession rfl

/-- A request to the panel is refused before its handler runs, or handled. -/
theorem panel_runs (r : PanelRequest) (sv : Server) :
    (Quiet sv.accounts (panel P cfg r sv).state.accounts ∧ (panel P cfg r sv).audit = []) ∨
      ∃ s accounts, Asks P r s sv.accounts ∧ requireAdmin P cfg r (some s) = .ok s ∧
        accounts = (offerMiddleware P cfg r s (sessionMiddleware P r.toRequest sv.accounts).2).2 ∧
        (panel P cfg r sv).state =
          (r.route.handle P cfg r.toRequest s { sv with accounts := accounts }).state ∧
        (panel P cfg r sv).audit =
          (r.route.handle P cfg r.toRequest s { sv with accounts := accounts }).audit := by
  have hread := quiet_sessionMiddleware (P := P) r.toRequest sv.accounts
  unfold panel Asks
  dsimp only
  cases hsigned : (sessionMiddleware P r.toRequest sv.accounts).1 with
  | none => exact .inl ⟨hread, rfl⟩
  | some s =>
      cases hs : requireAdmin P cfg r (some s) with
      | error response => exact .inl ⟨hread, rfl⟩
      | ok s' =>
          have hsame : s' = s := by
            unfold requireAdmin at hs
            dsimp only at hs
            split at hs
            · cases hs
            · cases hs
              rfl
          subst hsame
          have hoffered := hread.trans (@quiet_offerMiddleware P cfg r s' _)
          dsimp only
          unfold servePanel
          cases refusal P cfg r s' sv.deliveries with
          | some response => exact .inl ⟨hoffered, rfl⟩
          | none => exact .inr ⟨s', _, rfl, hs, rfl, rfl, rfl⟩

/-- Behind the second `requireAdmin` the session is complete. -/
theorem complete_of_requireAdmin {r : PanelRequest} {s : Signed}
    (h : requireAdmin P cfg r (some s) = .ok s) (hroute : r.route.isPending = false) :
    s.session.totpVerified = true := by
  unfold requireAdmin at h
  dsimp only at h
  split at h
  · cases h
  · rename_i hnone
    have hcomplete : completeRefusal r s = none := (Option.or_eq_none_iff.1 hnone).2
    unfold completeRefusal at hcomplete
    rw [hroute, Bool.false_or] at hcomplete
    split at hcomplete
    · assumption
    · cases hcomplete

/-- A step that touches nothing of note. -/
theorem Taken.quiet {e : ServerEvent} (h : Quiet e.pre.accounts e.post.accounts)
    (hchanged : ∀ id, ¬ Changed P e id) (hopens : ∀ k, ¬ Opens P k e) :
    Taken P cfg e none none :=
  ⟨h.effect hchanged, nofun, nofun, fun k => ⟨fun hk => absurd hk (hopens k), nofun⟩⟩

theorem not_touches_nil (route : PanelRoute) : ¬ Touches own route [] id := by
  rintro ⟨action, -, h⟩
  cases h

theorem taken_visit (hd : Distinct sv.accounts) (r : OpenRequest) :
    ∃ kept opened,
      Taken P cfg (History.fire (Server.step P cfg) sv (.visit r)) kept opened := by
  have hread := quiet_sessionMiddleware (P := P) r.toRequest sv.accounts
  have hd₁ := hread.distinct hd
  generalize he : History.fire (Server.step P cfg) sv (.visit r) = e
  have hinput : e.input = .visit r := by rw [← he]; rfl
  have hpre : e.pre = sv := by rw [← he]; rfl
  have hpost : e.post.accounts = (visit P cfg r sv).state.accounts := by rw [← he]; rfl
  have haudit : e.output.audit = (visit P cfg r sv).audit := by rw [← he]; rfl
  have hchanged : ∀ id, ¬ Changed P e id := fun id h => by
    rw [Changed, hinput] at h
    exact h
  have hidle : Quiet sv.accounts e.post.accounts → (r.route = .login →
      "admin.login" ∉ actions e.output.audit ∧ "admin.login_password" ∉ actions e.output.audit) →
      ∃ kept opened, Taken P cfg e kept opened := by
    intro hq hno
    refine ⟨none, none, .quiet (hpre ▸ hq) hchanged fun k hk => ?_⟩
    rw [Opens, hinput] at hk
    obtain ⟨hroute, -, hk⟩ := hk
    exact hk.elim (hno hroute).1 (hno hroute).2
  unfold visit at hpost haudit
  dsimp only at hpost haudit
  split at hpost
  · rename_i hlimited
    rw [if_pos hlimited] at haudit
    refine hidle (hpost ▸ hread) fun _ => ?_
    rw [haudit]
    exact ⟨List.not_mem_nil, List.not_mem_nil⟩
  rename_i hlimited
  rw [if_neg hlimited] at haudit
  cases hroute : r.route with
  | dbscRegister =>
      rw [hroute] at hpost
      exact hidle (hpost ▸ hread.trans (quiet_dbscRegister _ _ _)) fun h => by
        rw [hroute] at h
        cases h
  | dbscRefresh =>
      rw [hroute] at hpost
      exact hidle (hpost ▸ hread.trans (quiet_dbscRefresh _ _)) fun h => by
        rw [hroute] at h
        cases h
  | loginPage =>
      rw [hroute] at hpost
      exact hidle (hpost ▸ hread) fun h => by
        rw [hroute] at h
        cases h
  | login =>
      rw [hroute] at hpost haudit
      change e.post.accounts =
        (postLogin P cfg r.toRequest (sessionMiddleware P r.toRequest sv.accounts).2).state at hpost
      change e.output.audit =
        (postLogin P cfg r.toRequest (sessionMiddleware P r.toRequest sv.accounts).2).audit at haudit
      rcases login_effect (P := P) hd₁ r.toRequest with
        ⟨hstate, hno⟩ | ⟨account, row, hrow, haccount, heffect, hactions⟩
      · rw [hstate] at hpost
        rw [← haudit] at hno
        exact hidle (hpost ▸ hread) fun _ => hno
      · rw [← hpost] at heffect
        rw [← haudit] at hactions
        have hkeeps := heffect.accounts hd₁ account.id fun h => h
        have hfactor : HasFactor account.id e.post.accounts ↔ account.hasSecondFactor = true := by
          rw [hkeeps.hasFactor ⟨row, hrow⟩, haccount]
          constructor
          · rintro ⟨a, ha, hfactor⟩
            rw [← haccount, hrow] at ha
            cases ha
            exact hfactor
          · exact fun hfactor => ⟨row, haccount ▸ hrow, hfactor⟩
        have hopening : Opening P cfg e
            ⟨P.sha256Hex r.random.sessionId, account.id, !account.hasSecondFactor⟩ := by
          refine .password (hkeeps.account ⟨row, hrow⟩) ?_ ?_
          · rw [hfactor, Bool.not_eq_true']
            exact Bool.not_eq_true _ ▸ Iff.rfl
          · rw [hactions, List.mem_singleton, Bool.not_eq_false']
            intro h
            by_contra hnone
            rw [if_neg hnone] at h
            exact absurd h (by decide)
        refine ⟨none, some ⟨P.sha256Hex r.random.sessionId, account.id, !account.hasSecondFactor⟩,
          ?_, nofun, ?_, ?_⟩
        · rw [hpre]
          exact ((heffect.after hread).congr fun id => iff_false_intro (hchanged id)).enrolling
            False.elim
        · rintro x ⟨⟩
          exact hopening
        · intro k
          rw [Opens, hinput]
          constructor
          · exact fun hk => ⟨_, rfl, hk.2.1⟩
          · rintro ⟨x, ⟨⟩, rfl⟩
            refine ⟨hroute, rfl, ?_⟩
            rw [hactions, List.mem_singleton, List.mem_singleton]
            by_cases hsecond : account.hasSecondFactor = true
            · exact .inr (if_pos hsecond).symm
            · exact .inl (if_neg hsecond).symm

theorem taken_panel (hd : Distinct sv.accounts) (r : PanelRequest) :
    ∃ kept opened,
      Taken P cfg (History.fire (Server.step P cfg) sv (.panel r)) kept opened := by
  have hread := quiet_sessionMiddleware (P := P) r.toRequest sv.accounts
  generalize he : History.fire (Server.step P cfg) sv (.panel r) = e
  have hinput : e.input = .panel r := by rw [← he]; rfl
  have hpre : e.pre = sv := by rw [← he]; rfl
  have hpost : e.post.accounts = (panel P cfg r sv).state.accounts := by rw [← he]; rfl
  have haudit : e.output.audit = (panel P cfg r sv).audit := by rw [← he]; rfl
  rcases panel_runs (P := P) r sv with
      ⟨hq, hnone⟩ | ⟨s, accounts, hasks, hs, haccounts, hstate, htold⟩
  · rw [hnone] at haudit
    refine ⟨none, none, .quiet (by rw [hpre, hpost]; exact hq) (fun id h => ?_) fun k hk => ?_⟩
    · rw [Changed, hinput, haudit] at h
      obtain ⟨s, -, h⟩ := h
      exact not_touches_nil _ h
    · rw [Opens, hinput, haudit] at hk
      exact absurd hk.2.2 List.not_mem_nil
  have hoffered : Quiet sv.accounts accounts :=
    haccounts ▸ hread.trans (quiet_offerMiddleware r s _)
  obtain ⟨row, hrow, a, hhash, hadmin, -, hsession⟩ := signed_row hasks
  have hown : ∃ a, adminById s.admin.id accounts = some a := by
    refine hoffered.account.2 ⟨a, ?_⟩
    rw [Signed.admin, hsession]
    show adminById a.id sv.accounts = some a
    rwa [adminById_id hadmin]
  rw [hstate] at hpost
  rw [htold] at haudit
  have hchanged : ∀ id, Changed P e id ↔ Touches s.admin.id r.route e.output.audit id := by
    intro id
    rw [Changed, hinput]
    constructor
    · rintro ⟨s', hs', h⟩
      rw [hpre, Asks, hasks] at hs'
      cases hs'
      exact h
    · exact fun h => ⟨s, by rw [hpre]; exact hasks, h⟩
  -- no session is opened, or the account of the request is touched from its session
  have hsame : ∀ {kept}, Effect (Touches s.admin.id r.route e.output.audit) kept (Enrols e) none
      accounts e.post.accounts → (∀ k, kept = some k → FromSession P k e) → (∀ k, ¬ Opens P k e) →
      ∃ kept opened, Taken P cfg e kept opened := by
    intro kept heffect hkept hopens
    refine ⟨kept, none, ?_, hkept, nofun, fun k => ⟨fun hk => absurd hk (hopens k), nofun⟩⟩
    rw [hpre]
    exact (heffect.after hoffered).congr hchanged
  have hquiet : Quiet accounts e.post.accounts → (∀ own, changes own r.route = none) →
      (∀ k, ¬ Opens P k e) → ∃ kept opened, Taken P cfg e kept opened := by
    intro hq hroute hopens
    refine @hsame none (hq.silent fun id action h => ?_) nofun hopens
    rw [hroute] at h
    cases h
  have hclosed : (∀ route, r.route ≠ .pending route) → ∀ k, ¬ Opens P k e := by
    intro hroute k hk
    rw [Opens, hinput] at hk
    exact hk.1.elim (hroute _) (hroute _)
  -- the two routes that replace a pending session
  have hsignsIn : ∀ {out}, SignsIn P cfg r.toRequest s accounts out →
      e.post.accounts = out.state → e.output.audit = out.audit → (∀ own, changes own r.route = none) →
      r.route = .pending .totp ∨ r.route = .pending .passkeyLogin →
      ∃ kept opened, Taken P cfg e kept opened := by
    rintro out (⟨hq, hno⟩ | ⟨id, hid, hcompletion, hlogin, heffect⟩) hpost haudit hroute hsecond
    · refine hquiet (hpost ▸ hq) hroute fun k hk => ?_
      rw [Opens, hinput, haudit] at hk
      exact hno hk.2.2
    · have hno : ∀ id, ¬ Changed P e id := fun id h => by
        obtain ⟨action, h, -⟩ := (hchanged id).1 h
        rw [hroute] at h
        cases h
      have heffect' := (heffect.after hoffered).congr fun id => iff_false_intro (hno id)
      refine ⟨none, some ⟨P.sha256Hex r.random.sessionId, id, true⟩, ?_, nofun, ?_, ?_⟩
      · rw [hpre, hpost]
        exact heffect'.enrolling False.elim
      · rintro x ⟨⟩
        refine .completed ?_ rfl ⟨r, s, hinput, hpre ▸ hasks, rfl, ?_⟩ ?_
        · rw [hpost]
          exact (heffect.accounts (hoffered.distinct hd) id fun h => h).account hid
        · rw [hpre, ← haccounts]
          exact hcompletion
        · rw [haudit, hlogin]
          decide
      · intro k
        rw [Opens, hinput]
        constructor
        · exact fun hk => ⟨_, rfl, hk.2.1⟩
        · rintro ⟨x, ⟨⟩, rfl⟩
          exact ⟨hsecond, rfl, by rw [haudit, hlogin]; exact List.mem_singleton_self _⟩
  cases hroute : r.route with
  | pending route =>
      rw [hroute] at hpost haudit
      have hnone : ∀ own, changes own r.route = none := fun own => by
        rw [hroute]
        rfl
      have hother : route ≠ .totp → route ≠ .passkeyLogin → ∀ k, ¬ Opens P k e := by
        intro htotp hpasskey k hk
        rw [Opens, hinput] at hk
        rcases hk.1 with h | h
        · exact htotp (PanelRoute.pending.inj (hroute.symm.trans h))
        · exact hpasskey (PanelRoute.pending.inj (hroute.symm.trans h))
      cases route with
      | logout => exact hquiet (hpost ▸ quiet_deleteSessions _ _) hnone (hother nofun nofun)
      | totpPage => exact hquiet (hpost ▸ .refl _) hnone (hother nofun nofun)
      | passkeyLoginOptions =>
          refine hquiet (hpost ▸ ?_) hnone (hother nofun nofun)
          show Quiet accounts (passkeyLoginOptions P cfg r.toRequest s accounts).state
          unfold passkeyLoginOptions
          split
          · exact .refl _
          · exact quiet_ceremonyOptions _ _ _ _
      | passkeyLogin => exact hsignsIn (passkeyLogin_signsIn r.toRequest s hown) hpost haudit hnone (.inr hroute)
      | totp => exact hsignsIn (totp_signsIn r.toRequest s accounts) hpost haudit hnone (.inl hroute)
  | settings route =>
      have heffect := @settings_effect P cfg route r.toRequest s ⟨accounts, sv.flashes⟩ hown
      rw [hroute] at hpost haudit
      refine @hsame (some (P.sha256Hex s.sessionId)) ?_ ?_ (hclosed ?_)
      · rw [hroute, hpost, haudit]
        exact heffect.enrolling fun h => ⟨r, hinput, by rw [hroute]; exact h⟩
      · rintro k ⟨⟩
        exact ⟨r, s, route, hinput, hroute, hpre ▸ hasks, rfl,
          complete_of_requireAdmin hs (by rw [hroute]; rfl)⟩
      · intro route' h
        rw [hroute] at h
        cases h
  | work route =>
      rw [hroute] at hpost
      exact hquiet (hpost ▸ .refl _) (by rw [hroute]; exact fun _ => rfl) (hclosed (by rw [hroute]; nofun))
  | groups route =>
      rw [hroute] at hpost
      exact hquiet (hpost ▸ .refl _) (by rw [hroute]; exact fun _ => rfl) (hclosed (by rw [hroute]; nofun))
  | audit =>
      rw [hroute] at hpost
      exact hquiet (hpost ▸ .refl _) (by rw [hroute]; exact fun _ => rfl) (hclosed (by rw [hroute]; nofun))
  | users route =>
      have heffect := @users_effect P s.admin.id route r.toRequest s ⟨accounts, sv.deliveries, sv.groups⟩
      rw [hroute] at hpost haudit
      refine @hsame none ?_ nofun (hclosed (by rw [hroute]; nofun))
      rw [hroute, hpost, haudit]
      exact heffect.enrolling False.elim

/-- What any step does to credentials and sessions. -/
theorem taken (hd : Distinct sv.accounts) (i : Input) :
    ∃ kept opened, Taken P cfg (History.fire (Server.step P cfg) sv i) kept opened := by
  cases i with
  | deliver r =>
      exact ⟨none, none, .quiet (quiet_sessionMiddleware r.toRequest sv.accounts)
        (fun _ h => h) fun _ h => h⟩
  | visit r => exact taken_visit hd r
  | panel r => exact taken_panel hd r
  | cleanup run =>
      exact ⟨none, none, .quiet (quiet_deleteSessions _ sv.accounts) (fun _ h => h) fun _ h => h⟩
  | cli now draw command =>
      exact ⟨none, none, (cli_effect now draw command sv.accounts).enrolling False.elim, nofun,
        nofun, fun _ => ⟨fun h => h.elim, nofun⟩⟩

end

/-! ## What holds after every run -/

/-- Sessions belong to accounts, and one that waits for a second factor to an account that
has one. -/
structure Sound (d : AccountDb) : Prop where
  distinct : Distinct d
  owners : ∀ s ∈ d.sessions, ∃ a, adminById s.adminId d = some a
  pending : ∀ s ∈ d.sessions, s.totpVerified = false → HasFactor s.adminId d

/-- Anything may come next. -/
def env (_ : List ServerEvent) (_ : Server) (_ : Input) : Prop := True

section

variable {P} {cfg} {d : AccountDb} {k : String} {e : ServerEvent} {kept : Option String}
  {opened : Option Standing} {sv : Server}

theorem sound_empty : Sound Server.empty.accounts where
  distinct := ⟨List.nodup_nil, List.nodup_nil, List.nodup_nil⟩
  owners := fun _ h => absurd h List.not_mem_nil
  pending := fun _ h => absurd h List.not_mem_nil

/-- The row of a session is the one with its hash. -/
theorem signed_verified (hd : Sound d) {req : Request} {s : Signed}
    (h : (sessionMiddleware P req d).1 = some s) (hcomplete : s.session.totpVerified = true)
    {row : SessionRow} (hrow : row ∈ d.sessions) (hhash : row.idHash = P.sha256Hex s.sessionId) :
    row.totpVerified = true := by
  obtain ⟨row', hrow', a, hhash', hadmin, -, hsession⟩ := signed_row h
  have hsame : row' = row := Table.eq_of_key hd.distinct.sessions hrow' hrow (hhash'.trans hhash.symm)
  subst hsame
  by_contra hpending
  rw [Bool.not_eq_true] at hpending
  obtain ⟨a', ha', hfactor⟩ := hd.pending row' hrow hpending
  rw [hadmin] at ha'
  cases ha'
  rw [hsession] at hcomplete
  simp [sessionOf, hfactor, hpending] at hcomplete

/-- A session that is kept by a change of its account is complete. -/
theorem Taken.kept_verified (ht : Taken P cfg e kept opened) (hd : Sound e.pre.accounts)
    {s : SessionRow} (hs : s ∈ e.pre.accounts.sessions) (hkept : kept = some s.idHash) :
    s.totpVerified = true := by
  obtain ⟨r, signed, route, -, -, hasks, hhash, hcomplete⟩ := ht.kept _ hkept
  exact signed_verified hd hasks hcomplete hs hhash.symm

/-- A session that waited before a step, or is worth what it was. -/
theorem Taken.verified_eq (ht : Taken P cfg e kept opened) (hd : Sound e.pre.accounts)
    {s s' : SessionRow} (hs : s ∈ e.pre.accounts.sessions)
    (hfrom : From (Changed P e) kept (Enrols e) e.pre.accounts e.post.accounts s s') :
    s'.totpVerified = s.totpVerified := by
  by_cases hkept : kept = some s.idHash
  · have hverified := ht.kept_verified hd hs hkept
    rw [hverified, hfrom.raised hverified]
  · exact hfrom.same hkept

theorem sound_step (ht : Taken P cfg e kept opened) (hd : Sound e.pre.accounts) :
    Sound e.post.accounts := by
  refine ⟨ht.effect.distinct hd.distinct, fun s' hs' => ?_, fun s' hs' hpending => ?_⟩
  · rcases ht.effect.rows s' hs' with hopened | ⟨-, s, hs, hfrom⟩
    · cases ht.opening _ hopened with
      | password haccount _ _ => exact haccount
      | completed haccount _ _ _ => exact haccount
    · rw [hfrom.adminId]
      by_cases htouched : Changed P e s.adminId
      · exact (hfrom.spared htouched).2.1
      · exact (ht.effect.accounts hd.distinct _ htouched).account (hd.owners s hs)
  · rcases ht.effect.rows s' hs' with hopened | ⟨-, s, hs, hfrom⟩
    · cases ht.opening _ hopened with
      | password _ hfactor _ =>
          by_contra hnone
          have hverified : s'.totpVerified = true := hfactor.2 hnone
          rw [hpending] at hverified
          cases hverified
      | completed _ hverified _ _ =>
          have hverified : s'.totpVerified = true := hverified
          rw [hpending] at hverified
          cases hverified
    · rw [ht.verified_eq hd hs hfrom] at hpending
      have htouched : ¬ Changed P e s.adminId := fun htouched => by
        rw [ht.kept_verified hd hs (hfrom.spared htouched).1] at hpending
        cases hpending
      rw [hfrom.adminId]
      exact ((ht.effect.accounts hd.distinct _ htouched).hasFactor (hd.owners s hs)).2
        (hd.pending s hs hpending)

theorem sound {h : List ServerEvent} (hr : History.Run (Server.step P cfg) env .empty h sv) :
    Sound sv.accounts := by
  refine hr.invariant (I := fun _ sv => Sound sv.accounts) sound_empty ?_
  intro _ sv i _ _ hd
  obtain ⟨kept, opened, ht⟩ := taken (P := P) hd.distinct i
  exact sound_step ht hd

end

/-! ## Sessions that wait for their second factor -/

/-- A right password was answered by asking for the second factor, in this session. -/
def PasswordStep (k : String) (e : ServerEvent) : Prop :=
  Opens P k e ∧ "admin.login_password" ∈ actions e.output.audit

/-- The session goes on through the step. -/
def Lives (k : String) (e : ServerEvent) : Prop :=
  ¬ Opens P k e ∧ ∃ s ∈ e.post.accounts.sessions, s.idHash = k

/-- A second factor of the account was enrolled in this session. -/
def EnrolledIn (k id : String) (e : ServerEvent) : Prop :=
  FromSession P k e ∧ Enrols e ∧ Changed P e id

/-- Where a verified session of an account with a second factor got its standing. -/
def Earned (s : SessionRow) (d : AccountDb) (h : List ServerEvent) : Prop :=
  s.totpVerified = true → HasFactor s.adminId d →
    History.Since
      (fun e => Completes P cfg s.idHash s.adminId e ∨ EnrolledIn P s.idHash s.adminId e)
      (Lives P s.idHash) h

section

variable {P} {cfg} {k : String} {e : ServerEvent} {kept : Option String}
  {opened : Option Standing} {h : List ServerEvent} {sv : Server}

/-- A session that went on through a step was there before. -/
theorem Taken.lived (ht : Taken P cfg e kept opened) {s' : SessionRow}
    (hs' : s' ∈ e.post.accounts.sessions) (hopens : ¬ Opens P s'.idHash e) :
    ∃ s ∈ e.pre.accounts.sessions,
      From (Changed P e) kept (Enrols e) e.pre.accounts e.post.accounts s s' := by
  rcases ht.effect.rows s' hs' with hopened | ⟨-, hfrom⟩
  · exact absurd ((ht.opens _).2 ⟨_, hopened, rfl⟩) hopens
  · exact hfrom

/-- A session that was there before did not come from the step. -/
theorem Taken.lives (ht : Taken P cfg e kept opened) {s' : SessionRow}
    (hs' : s' ∈ e.post.accounts.sessions) (hne : ∀ x, opened = some x → x.idHash ≠ s'.idHash) :
    Lives P s'.idHash e := by
  refine ⟨fun hopens => ?_, s', hs', rfl⟩
  obtain ⟨x, hx, hid⟩ := (ht.opens _).1 hopens
  exact hne x hx hid

/-- After the password step the session waits. -/
theorem waits_after_password (ht : Taken P cfg e kept opened) (hp : PasswordStep P k e)
    {s : SessionRow} (hs : s ∈ e.post.accounts.sessions) (hid : s.idHash = k) :
    s.totpVerified = false := by
  obtain ⟨x, hx, hxid⟩ := (ht.opens k).1 hp.1
  rcases ht.effect.rows s hs with hopened | ⟨hne, -⟩
  · have hpending : (standing s).verified = false := by
      cases ht.opening _ hopened with
      | password _ _ hpending => exact hpending hp.2
      | completed _ _ _ hno => exact absurd hp.2 hno
    exact hpending
  · exact absurd (hxid.trans hid.symm) (hne x hx)

/-- A session that waits goes on waiting. -/
theorem waits_step (ht : Taken P cfg e kept opened) (hd : Sound e.pre.accounts)
    (hwaits : ∀ s ∈ e.pre.accounts.sessions, s.idHash = k → s.totpVerified = false)
    (hlives : Lives P k e) :
    ∀ s ∈ e.post.accounts.sessions, s.idHash = k → s.totpVerified = false := by
  rintro s' hs' rfl
  obtain ⟨s, hs, hfrom⟩ := ht.lived hs' hlives.1
  rw [ht.verified_eq hd hs hfrom]
  exact hwaits s hs hfrom.idHash.symm

theorem earned_step (ht : Taken P cfg e kept opened) (hd : Sound e.pre.accounts)
    (hearned : ∀ s ∈ e.pre.accounts.sessions, Earned P cfg s e.pre.accounts h) :
    ∀ s ∈ e.post.accounts.sessions, Earned P cfg s e.post.accounts (e :: h) := by
  intro s' hs' hverified hfactor
  rcases ht.effect.rows s' hs' with hopened | ⟨hne, s, hs, hfrom⟩
  · cases ht.opening _ hopened with
    | password _ hnone _ => exact absurd hfactor (hnone.1 hverified)
    | completed _ _ hcompletes _ => exact .now (.inl hcompletes)
  · rw [ht.verified_eq hd hs hfrom] at hverified
    have hlater : HasFactor s.adminId e.pre.accounts → History.Since
        (fun e => Completes P cfg s'.idHash s'.adminId e ∨ EnrolledIn P s'.idHash s'.adminId e)
        (Lives P s'.idHash) (e :: h) := by
      intro hbefore
      have hsince := hearned s hs hverified hbefore
      rw [← hfrom.idHash, ← hfrom.adminId] at hsince
      exact .later (ht.lives hs' hne) hsince
    rw [hfrom.adminId] at hfactor
    by_cases htouched : Changed P e s.adminId
    · obtain ⟨hkept, -, hbefore⟩ := hfrom.spared htouched
      rcases hbefore hfactor with henrols | hbefore
      · refine .now (.inr ⟨?_, henrols, ?_⟩)
        · rw [hfrom.idHash]
          exact ht.kept _ hkept
        · rw [hfrom.adminId]
          exact htouched
      · exact hlater hbefore
    · exact hlater (((ht.effect.accounts hd.distinct _ htouched).hasFactor (hd.owners s hs)).1
        hfactor)

theorem earned (hr : History.Run (Server.step P cfg) env .empty h sv) :
    ∀ s ∈ sv.accounts.sessions, Earned P cfg s sv.accounts h := by
  refine hr.invariant (I := fun h sv => ∀ s ∈ sv.accounts.sessions, Earned P cfg s sv.accounts h)
    (fun _ h => absurd h List.not_mem_nil) ?_
  intro h sv i hr _ hearned
  obtain ⟨kept, opened, ht⟩ := taken (P := P) (sound hr).distinct i
  exact earned_step ht (sound hr) hearned

end

/-- A session of the password step is not verified as long as it lives, and a verified session of
an account with a second factor passed one, or enrolled one. -/
theorem never_upgraded {h : List ServerEvent} {sv : Server}
    (hr : History.Run (Server.step P cfg) env .empty h sv) :
    (∀ later e earlier, h = later ++ e :: earlier → ∀ k, PasswordStep P k e →
      (∀ x ∈ later, Lives P k x) → ∀ now sid s, P.sha256Hex sid = k →
        (getSession P now sid sv.accounts).1 = some s → s.totpVerified = false) ∧
    ∀ now sid s, (getSession P now sid sv.accounts).1 = some s → s.totpVerified = true →
      s.admin.hasSecondFactor = true →
        History.Since (fun e => Completes P cfg (P.sha256Hex sid) s.admin.id e ∨
          EnrolledIn P (P.sha256Hex sid) s.admin.id e) (Lives P (P.sha256Hex sid)) h := by
  have hd := sound hr
  refine ⟨?_, fun now sid s hs hverified hfactor => ?_⟩
  · rintro later e earlier rfl k hp hlives now sid s rfl hs
    obtain ⟨i, hbefore, -, he⟩ := hr.split
    have hwaits := hr.keeps (Q := fun sv => Sound sv.accounts ∧ ∀ s ∈ sv.accounts.sessions,
        s.idHash = P.sha256Hex sid → s.totpVerified = false) (q := Lives P (P.sha256Hex sid))
      (fun sv i ⟨hd, hwaits⟩ hlives => by
        obtain ⟨kept, opened, ht⟩ := taken (P := P) hd.distinct i
        exact ⟨sound_step ht hd, waits_step ht hd hwaits hlives⟩)
      (by
        obtain ⟨kept, opened, ht⟩ := taken (P := P) (sound hbefore).distinct i
        rw [← he] at ht
        exact ⟨sound_step ht (he ▸ sound hbefore), fun s hs hid => waits_after_password ht hp hs hid⟩)
      hlives
    obtain ⟨row, hrow, a, hhash, hadmin, -, rfl⟩ := getSession_row hs
    have hpending := hwaits.2 row hrow hhash
    obtain ⟨a', ha', hfactor⟩ := hd.pending row hrow hpending
    rw [hadmin] at ha'
    cases ha'
    simp [sessionOf, hfactor, hpending]
  · obtain ⟨row, hrow, a, hhash, hadmin, -, rfl⟩ := getSession_row hs
    have hid : (sessionOf sv.accounts row a).admin.id = row.adminId := adminById_id hadmin
    have hrowVerified : row.totpVerified = true := by
      rw [sessionOf, Bool.or_eq_true, Bool.not_eq_true'] at hverified
      exact hverified.resolve_left fun hnone => by
        rw [sessionOf] at hfactor
        rw [hfactor] at hnone
        cases hnone
    rw [hid, ← hhash]
    exact earned hr row hrow hrowVerified ⟨a, hadmin, hfactor⟩

/-- The account of the sample enrols the app, and asks to register a passkey. -/
def enrolled : List ServerEvent × Server :=
  History.replay (Server.step LastFactor.sampleHost LastFactor.sampleConfig) [] .empty
    LastFactor.enrolScript

theorem run_enrolled :
    History.Run (Server.step LastFactor.sampleHost LastFactor.sampleConfig) env .empty enrolled.1
      enrolled.2 :=
  History.run_replay .start (History.admits_of_forall (fun _ _ _ => trivial) _ _ _)

theorem exists_of_any {t : List SessionRow} {k : String}
    (h : t.any (fun s => s.idHash == k) = true) : ∃ s ∈ t, s.idHash = k := by
  simpa using h

/-- A second browser, in which the account signs in with its password. -/
def otherLogin : OpenRequest :=
  let request := samplePassword 70000 "other"
  { request with random := { request.random with publicId := "BBBBBBBBBBBBBBBB" } }

/-- A page in the first browser. -/
def lookAround : PanelRequest := samplePanel 70001 "sid" 'T' (.groups .list) []

/-- The history and the state when both browsers have been served. -/
def served : List ServerEvent × Server :=
  History.replay (Server.step LastFactor.sampleHost LastFactor.sampleConfig) enrolled.1 enrolled.2
    [.visit otherLogin, .panel lookAround]

/-- The second browser waits, whatever the first one does, which enrolled the app. -/
theorem second_browser_waits :
    (∃ s, (getSession LastFactor.sampleHost 70002 "other" served.2.accounts).1 = some s ∧
      s.totpVerified = false) ∧
    ∃ s, (getSession LastFactor.sampleHost 70002 "sid" served.2.accounts).1 = some s ∧
      History.Since (fun e => Completes LastFactor.sampleHost LastFactor.sampleConfig
          (LastFactor.sampleHost.sha256Hex "sid") s.admin.id e ∨
          EnrolledIn LastFactor.sampleHost (LastFactor.sampleHost.sha256Hex "sid") s.admin.id e)
        (Lives LastFactor.sampleHost (LastFactor.sampleHost.sha256Hex "sid")) served.1 := by
  have hr : History.Run (Server.step LastFactor.sampleHost LastFactor.sampleConfig) env .empty
      served.1 served.2 :=
    History.run_replay run_enrolled (History.admits_of_forall (fun _ _ _ => trivial) _ _ _)
  have hnever := never_upgraded _ _ hr
  constructor
  · obtain ⟨s, hs⟩ := Option.isSome_iff_exists.1 (show (getSession LastFactor.sampleHost 70002
      "other" served.2.accounts).1.isSome = true by decide +kernel)
    refine ⟨s, hs, hnever.1 [_] _ _ rfl _ ⟨⟨rfl, rfl, .inr ?_⟩, ?_⟩ ?_ 70002 "other" s rfl hs⟩
    · decide +kernel
    · decide +kernel
    · rw [List.forall_mem_singleton]
      refine ⟨fun h => ?_, exists_of_any ?_⟩
      · exact h.1.elim nofun nofun
      · decide +kernel
  · obtain ⟨s, hs, hgood⟩ := (Option.any_eq_true _ _).1 (show (getSession LastFactor.sampleHost 70002
      "sid" served.2.accounts).1.any (fun s => s.totpVerified && s.admin.hasSecondFactor) = true by
        decide +kernel)
    rw [Bool.and_eq_true] at hgood
    exact ⟨s, hs, hnever.2 70002 "sid" s hs hgood.1 hgood.2⟩

/-! ## What no session outlives -/

/-- The step opened the session, for this account. -/
def Created (k id : String) (e : ServerEvent) : Prop :=
  Opens P k e ∧ ∃ s ∈ e.post.accounts.sessions, s.idHash = k ∧ s.adminId = id

/-- The step changed the credentials of the account: by an operation, or in the tables. -/
def CredentialsChange (id : String) (e : ServerEvent) : Prop :=
  Changed P e id ∨ ¬ Keeps id e.pre.accounts e.post.accounts

/-- The session goes on, and only a change made from it itself was made to its account. -/
def Outlives (k id : String) (e : ServerEvent) : Prop :=
  Lives P k e ∧ (CredentialsChange P id e → FromSession P k e)

section

variable {P} {cfg} {k : String} {e : ServerEvent} {kept : Option String}
  {opened : Option Standing} {h : List ServerEvent} {sv : Server}

theorem outlives_step (ht : Taken P cfg e kept opened) (hd : Sound e.pre.accounts)
    (hsince : ∀ s ∈ e.pre.accounts.sessions, History.Since (Created P s.idHash s.adminId)
      (Outlives P s.idHash s.adminId) h) :
    ∀ s ∈ e.post.accounts.sessions, History.Since (Created P s.idHash s.adminId)
      (Outlives P s.idHash s.adminId) (e :: h) := by
  intro s' hs'
  rcases ht.effect.rows s' hs' with hopened | ⟨hne, s, hs, hfrom⟩
  · exact .now ⟨(ht.opens _).2 ⟨_, hopened, rfl⟩, s', hs', rfl, rfl⟩
  · have hchanged : CredentialsChange P s.adminId e → FromSession P s.idHash e := by
      intro hchange
      have htouched : Changed P e s.adminId := by
        by_contra htouched
        exact hchange.elim htouched fun hlost =>
          hlost (ht.effect.accounts hd.distinct _ htouched)
      exact ht.kept _ (hfrom.spared htouched).1
    have hsince := hsince s hs
    have hlives := ht.lives hs' hne
    rw [hfrom.idHash] at hlives
    rw [hfrom.idHash, hfrom.adminId]
    exact .later ⟨hlives, hchanged⟩ hsince

theorem outlives (hr : History.Run (Server.step P cfg) env .empty h sv) :
    ∀ s ∈ sv.accounts.sessions, History.Since (Created P s.idHash s.adminId)
      (Outlives P s.idHash s.adminId) h := by
  refine hr.invariant (I := fun h sv => ∀ s ∈ sv.accounts.sessions, History.Since
    (Created P s.idHash s.adminId) (Outlives P s.idHash s.adminId) h)
    (fun _ h => absurd h List.not_mem_nil) ?_
  intro h sv i hr _ hsince
  obtain ⟨kept, opened, ht⟩ := taken (P := P) (sound hr).distinct i
  exact outlives_step ht (sound hr) hsince

end

/-- Nothing accepts a disabled account. -/
structure Shut (id : String) (d : AccountDb) : Prop where
  authenticate : ∀ username password account,
    authenticate P username password d = some account → account.id ≠ id
  getSession : ∀ now sid s, (getSession P now sid d).1 = some s → s.admin.id ≠ id
  refreshBinding : ∀ now draw bindingId jwt b s,
    d.bindings.find? (·.id == bindingId) = some b →
    d.sessions.find? (·.idHash == b.sessionHash) = some s → s.adminId = id →
    refreshBinding P now draw bindingId jwt d = .ok (.ended, d)

theorem shut_of_disabled {d : AccountDb} {id : String} {a : AdminRow} (hd : Distinct d)
    (ha : adminById id d = some a) (hdisabled : a.disabledAt.isSome = true) : Shut P id d where
  authenticate := by
    rintro username password account haccount rfl
    obtain ⟨row, hrow, -, hnone, rfl⟩ := authenticate_some haccount
    have hsame : some row = some a := (adminById_mem hd hrow).symm.trans ha
    cases hsame
    rw [hnone] at hdisabled
    cases hdisabled
  getSession := by
    rintro now sid s hs rfl
    obtain ⟨row, -, a', -, hadmin, hnone, rfl⟩ := getSession_row hs
    have hid : (sessionOf d row a').admin.id = row.adminId := adminById_id hadmin
    rw [hid, hadmin] at ha
    cases ha
    rw [hnone] at hdisabled
    cases hdisabled
  refreshBinding := by
    rintro now draw bindingId jwt b s hb hs rfl
    have hdead : bindingAlive now b d = false := by
      rw [bindingAlive, hs]
      dsimp only
      rw [ha]
      dsimp only
      obtain ⟨t, ht⟩ := Option.isSome_iff_exists.1 hdisabled
      rw [ht]
      exact Bool.and_false _
    rw [Outletbox.refreshBinding, hb]
    dsimp only
    rw [hdead]
    rfl

/-- A session that is accepted outlived no change of its account's credentials but those made from
it, and nothing accepts a disabled account. -/
theorem old_sessions_end {h : List ServerEvent} {sv : Server}
    (hr : History.Run (Server.step P cfg) env .empty h sv) :
    (∀ now sid s, (getSession P now sid sv.accounts).1 = some s →
      History.Since (Created P (P.sha256Hex sid) s.admin.id)
        (Outlives P (P.sha256Hex sid) s.admin.id) h) ∧
    ∀ id a, adminById id sv.accounts = some a → a.disabledAt.isSome = true →
      Shut P id sv.accounts := by
  refine ⟨fun now sid s hs => ?_, fun id a ha hdisabled =>
    shut_of_disabled P (sound hr).distinct ha hdisabled⟩
  obtain ⟨row, hrow, a, hhash, hadmin, -, rfl⟩ := getSession_row hs
  have hid : (sessionOf sv.accounts row a).admin.id = row.adminId := adminById_id hadmin
  rw [hid, ← hhash]
  exact outlives hr row hrow

/-- The second account of the sample. -/
def secondAccount : String := newId "a" "BBBBBBBBBBBBBBBB"

def disableConfig : Config := { LastFactor.sampleConfig with adminRequireTotp := false }

/-- `root` signs in and disables the second account. -/
def disabled : List ServerEvent × Server :=
  History.replay (Server.step LastFactor.sampleHost disableConfig) [] .empty
    [.cli 0 ⟨sampleId, "salt"⟩ (.createAdmin "root" "correct horse"),
      .cli 0 ⟨"BBBBBBBBBBBBBBBB", "salt"⟩ (.createAdmin "second" "correct horse"),
      .visit (samplePassword 1 "sid"),
      .panel (samplePanel 2 "sid" 'T' (.users (.disable secondAccount)) [])]

/-- The session of `root` goes on, and nothing accepts the other account. -/
theorem disabled_account_is_shut :
    (∃ s, (getSession LastFactor.sampleHost 3 "sid" disabled.2.accounts).1 = some s ∧
      History.Since (Created LastFactor.sampleHost (LastFactor.sampleHost.sha256Hex "sid") s.admin.id)
        (Outlives LastFactor.sampleHost (LastFactor.sampleHost.sha256Hex "sid") s.admin.id)
        disabled.1) ∧
      Shut LastFactor.sampleHost secondAccount disabled.2.accounts := by
  have hr : History.Run (Server.step LastFactor.sampleHost disableConfig) env .empty disabled.1
      disabled.2 :=
    History.run_replay .start (History.admits_of_forall (fun _ _ _ => trivial) _ _ _)
  have hend := old_sessions_end _ _ hr
  obtain ⟨s, hs⟩ := Option.isSome_iff_exists.1 (show (getSession LastFactor.sampleHost 3 "sid"
    disabled.2.accounts).1.isSome = true by decide +kernel)
  obtain ⟨a, ha, hdisabled⟩ := (Option.any_eq_true _ _).1 (show (adminById secondAccount
    disabled.2.accounts).any (fun a => a.disabledAt.isSome) = true by decide +kernel)
  exact ⟨⟨s, hs, hend.1 3 "sid" s hs⟩, hend.2 secondAccount a ha hdisabled⟩

end Credentials

end Outletbox
