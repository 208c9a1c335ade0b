import Outletbox.Freshness

/-!
# Sensitive actions

Every run in which the form of a request may come long after its headers.  The
guards and the handler go by the session that was read with the headers, so a
sensitive action is done in a session that was confirmed until after the clock,
but for the enrolment of the app.  What the session says about its account may be
out of date by then, and one route trusts it: a password confirms the session of
an account that has enrolled a second factor in the meantime.
-/

namespace Outletbox

namespace Confirmations

open Credentials (Asks Distinct)
open Forgery (SameAccounts same_sessionMiddleware same_offerMiddleware)
open Integrity (AccountKeys keys_accountWrite keys_deleteAdmin keys_writes)
open LastFactor (Event Move State Waiting resume step)
open Recovery (HasFactor)
open Statements (Grant Scope ServerWrites Writes granted_all step_writes writes_offerMiddleware
  writes_pending writes_sessionMiddleware writes_settings writes_userEffect)

variable (P : Platform) (cfg : Config)

/-! ## Conditions -/

/-- The identifier of a session that a step may open. -/
def drawn (s : State) : Move → Option String
  | .serve (.visit r) => if r.route = .login then some r.random.sessionId else none
  | .serve (.panel r) => if opensSession r.route = true then some r.random.sessionId else none
  | .handle k => s.waiting[k]?.bind fun w =>
      if opensSession w.request.route = true then some w.request.random.sessionId else none
  | _ => none

/-- No identifier is drawn that the session of a waiting request has. -/
def env (_ : List Event) (s : State) (m : Move) : Prop :=
  ∀ id, drawn s m = some id → ∀ w ∈ s.waiting, ∀ signed, w.signed = some signed →
    P.sha256Hex signed.sessionId ≠ P.sha256Hex id

/-- A session that passes for confirmed is confirmed until after the clock.  The code compares the
ISO strings of the two moments; before the year 10000 they order like the moments. -/
def InOrder (e : Event) : Prop :=
  ∀ now s, InSession P now s e → s.session.isConfirmed now = true → ConfirmedAt now s

/-- The app is enrolled in a session that was confirmed when the request started. -/
def EnrolsConfirmed (e : Event) : Prop :=
  ∀ r s, Resumes P r s e → Enrols P cfg r s e.pre.server → ConfirmedAt r.now s

/-- The handler that confirms a session by a password runs on a session that was read before, and
that says that the account has no second factor. -/
def Late (id : String) (e : Event) : Prop :=
  match e.input with
  | .handle k => ∃ r s, e.pre.waiting[k]? = some ⟨r, some s⟩ ∧ Admitted P cfg r s e.pre.server ∧
      r.route = .settings .confirmPassword ∧
      ByPassword P r.toRequest s e.pre.server.accounts id
  | _ => False

/-- Such an account still has none. -/
def Settled (e : Event) : Prop := ∀ id, Late P cfg id e → ¬ HasFactor id e.pre.server.accounts

/-- What holds of the server, and of the sessions of the requests that wait. -/
structure Sound (s : State) : Prop where
  keys : AccountKeys s.server.accounts
  held : ∀ w ∈ s.waiting, ∀ signed, w.signed = some signed → Held P signed s.server.accounts

section

variable {P} {cfg} {s : State} {m : Move} {sv sv' : Server} {d d' : AccountDb} {r : PanelRequest}
  {signed : Signed} {e : Event}

/-- Before the year 10000 the comparison of the strings is the one of the moments. -/
theorem inOrder_of_clock (h : ∀ now s, InSession P now s e → now < year10000) : InOrder P e := by
  intro now s hs hconfirmed
  obtain ⟨u, hu, hlt⟩ := (Option.any_eq_true _ _).1 hconfirmed
  exact ⟨u, hu, lt_of_isoLt (h now s hs) (by simpa using hlt)⟩

/-! ## Keys -/

theorem keys_serverWrites {G : Grant} (hk : AccountKeys sv.accounts) (h : ServerWrites G sv sv') :
    AccountKeys sv'.accounts := by
  induction h with
  | refl => exact hk
  | tail _ hlast ih =>
      cases hlast with
      | accounts _ hwrite => exact keys_accountWrite ih hwrite
      | deliveries => exact ih
      | groups => exact ih
      | deleteAdmin => exact keys_deleteAdmin ih _
      | memory => exact ih

theorem keys_handle (route : PanelRoute) (req : Request) (signed : Signed)
    (hk : AccountKeys sv.accounts) :
    AccountKeys (route.handle P cfg req signed sv).state.accounts := by
  have hscope : Scope P .all signed sv.accounts :=
    ⟨trivial, fun _ _ _ => trivial, fun _ _ _ _ _ _ => trivial⟩
  cases route with
  | pending route => exact keys_writes hk (writes_pending route req hscope)
  | settings route => exact keys_writes hk (writes_settings route req sv.accountState hscope)
  | work route => exact hk
  | groups route => exact hk
  | users route =>
      rcases writes_userEffect (P := P) (G := .all) (s := signed) trivial (fun _ _ => trivial)
          (userEffect P route req signed sv.tables) with ⟨hwrites, -, -⟩ | ⟨id, -, hdeleted⟩
      · exact keys_writes hk hwrites
      · show AccountKeys (route.handle P req signed sv.tables).state.accounts
        rw [hdeleted]
        exact keys_deleteAdmin hk id
  | audit => exact hk

theorem keys_resume (r : PanelRequest) (found : Option Signed) (hk : AccountKeys sv.accounts) :
    AccountKeys (resume P cfg r found sv).state.accounts := by
  unfold resume
  split
  · exact hk
  · rename_i signed _
    have hoffer := keys_writes hk (@writes_offerMiddleware P cfg .all r signed sv.accounts)
    dsimp only
    unfold servePanel
    split
    · exact hoffer
    · exact keys_handle r.route r.toRequest signed hoffer

theorem Sound.distinct (hs : Sound P s) : Distinct s.server.accounts :=
  ⟨hs.keys.sessions, hs.keys.admins, hs.keys.passkeys⟩

theorem keys_step (hk : AccountKeys s.server.accounts) (m : Move) :
    AccountKeys (step P cfg s m).1.server.accounts := by
  cases m with
  | serve i => exact keys_serverWrites hk (step_writes s.server i (granted_all s.server i))
  | receive now r =>
      exact keys_writes hk (writes_sessionMiddleware (P := P) (G := .all)
          { r.toRequest with now := now } _)
  | handle k =>
      rw [step]
      split
      · exact hk
      · exact keys_resume _ _ hk

/-! ## Sessions -/

/-- Every step confirms sessions of accounts it proves a factor of, or that have none, or by the
password alone where the session is out of date. -/
theorem step_rows (hs : Sound P s) (m : Move) :
    ∀ s' ∈ (step P cfg s m).1.server.accounts.sessions,
      Row ⟨fun id => HasFactor id s.server.accounts →
          Proving P cfg id (History.fire (step P cfg) s m) ∨
            Late P cfg id (History.fire (step P cfg) s m),
        fun hash => ∃ id, drawn s m = some id ∧ P.sha256Hex id = hash⟩ s.server.accounts s' := by
  cases m with
  | serve i =>
      cases i with
      | deliver r =>
          exact row_sessionMiddleware r.toRequest s.server.accounts
      | visit r =>
          refine fun s' hs' => (visit_rows hs.distinct r s' hs').mono ?_ ?_
          · exact fun hnone hfactor => absurd hfactor hnone
          · exact fun ⟨hroute, hhash⟩ => ⟨_, if_pos hroute, hhash⟩
      | panel r =>
          refine fun s' hs' => ((panel_step hs.distinct r).1 s' hs').mono ?_ ?_
          · intro hearns hfactor
            obtain ⟨signed, hasks, hproves⟩ := hearns hfactor
            exact .inl ⟨r, signed, ⟨rfl, hasks⟩, hproves⟩
          · exact fun ⟨hroute, hhash⟩ => ⟨_, if_pos hroute, hhash⟩
      | cleanup run => exact row_delete rfl
      | cli now draw command => exact row_cli now draw command s.server.accounts
  | receive now r =>
      exact row_sessionMiddleware { r.toRequest with now := now } s.server.accounts
  | handle k =>
      cases hw : s.waiting[k]? with
      | none =>
          simp only [step, hw]
          exact row_same rfl
      | some w =>
          obtain ⟨r, found⟩ := w
          simp only [step, hw]
          refine fun s' hs' => ((resume_step r fun signed hsigned =>
            hs.held _ (List.mem_of_getElem? hw) signed hsigned).1 s' hs').mono ?_ ?_
          · intro hearns hfactor
            obtain ⟨signed, rfl, hadmitted, hproves | hpassword⟩ := hearns hfactor
            · exact .inl ⟨r, signed, hw, hproves⟩
            · exact .inr ⟨r, signed, hw, hadmitted, hpassword⟩
          · rintro ⟨hroute, hhash⟩
            refine ⟨r.random.sessionId, ?_, hhash⟩
            simp only [drawn, hw, Option.bind_some, if_pos hroute]

/-- The session of a waiting request stays its account's. -/
theorem held_step (hs : Sound P s) (m : Move) (henv : env P [] s m) :
    ∀ w ∈ s.waiting, ∀ signed, w.signed = some signed →
      Held P signed (step P cfg s m).1.server.accounts := by
  intro w hw signed hsigned row hrow hid
  rcases (step_rows hs m row hrow).owner with ⟨id, hdrawn, hhash⟩ | ⟨x, hx, hxid, hadmin⟩
  · exact absurd (hhash.trans hid).symm (henv id hdrawn w hw signed hsigned)
  · exact hadmin.symm.trans (hs.held w hw signed hsigned x hx (hxid.trans hid))

theorem sound_step (hs : Sound P s) (m : Move) (henv : env P [] s m) :
    Sound P (step P cfg s m).1 := by
  have hheld := @held_step P cfg s hs m henv
  refine ⟨keys_step hs.keys m, fun w hw signed hsigned => ?_⟩
  cases m with
  | serve i => exact hheld w hw signed hsigned
  | receive now r =>
      rcases List.mem_append.1 hw with hw | hw
      · exact hheld w hw signed hsigned
      · rw [List.mem_singleton.1 hw] at hsigned
        exact (held_read hs.keys.sessions hsigned).of_same
          (same_sessionMiddleware hs.keys.sessions _)
  | handle k =>
      refine hheld w ?_ signed hsigned
      rw [step] at hw
      split at hw
      · exact hw
      · exact List.mem_of_mem_eraseIdx hw

theorem sound_run {h : List Event} (hr : History.Run (step P cfg) (env P) .empty h s) :
    Sound P s :=
  hr.invariant (I := fun _ s => Sound P s)
    ⟨Integrity.sound_empty.accounts, fun _ hw => absurd hw List.not_mem_nil⟩
    fun _ _ m _ henv hs => sound_step hs m henv

/-- A session is confirmed by a proof of a factor, or its account has none. -/
theorem moved_step (hs : Sound P s) (m : Move)
    (hsettled : Settled P cfg (History.fire (step P cfg) s m)) :
    Moved P cfg (History.fire (step P cfg) s m) := by
  intro s' hs' hfactor ⟨u', hu', hforward⟩
  rcases (step_rows hs m s' hs').confirmation with hnone | hearns | ⟨x, hx, he⟩
  · rw [hnone] at hu'
    cases hu'
  · rcases hearns hfactor with hproving | hlate
    · exact hproving
    · exact absurd hfactor (hsettled _ hlate)
  · obtain ⟨hid, -, huntil⟩ := stamp_eq he
    exact absurd (hforward x hx hid u' (huntil.trans hu')) (lt_irrefl u')

/-! ## Actions -/

/-- What is modest is not sensitive. -/
theorem not_sensitive {own : String}
    (hanswer : ∀ output response, e.output = some output → output.answer = .panel response →
      streams response.page = false)
    (hmodest : Modest own e.pre.server.accounts e.post.server.accounts)
    (hlinks : SameLinks e.pre.server.deliveries e.post.server.deliveries) : ¬ Sensitive own e := by
  intro h
  cases h with
  | stream houtput h hstreams =>
      rw [hanswer _ _ houtput h] at hstreams
      cases hstreams
  | token hl hnew =>
      obtain ⟨x, hx, hid, htoken⟩ := hlinks.links _ hl
      exact hnew x hx hid htoken
  | recipient hr hnew =>
      obtain ⟨x, hx, hid, hsame⟩ := hlinks.recipients _ hr
      exact hnew x hx hid hsame
  | account hid hchange =>
      rcases hchange with hchange | hchange | hchange
      · exact hchange (hmodest.admins _ hid)
      · exact hchange (hmodest.credentials _ hid)
      · exact hchange (hmodest.codes _ hid)
  | passkey hp hown hnew =>
      obtain ⟨x, hx, hid⟩ := hmodest.passkeys _ hp
      exact hnew x hx hid
  | app ha hnone ha' henabled =>
      obtain ⟨a, hsame, hbefore⟩ := hmodest.app _ ha' henabled
      rw [ha] at hsame
      cases hsame
      rw [hnone] at hbefore
      cases hbefore

/-- A step that answers a request with the outcome of a modest handler. -/
theorem answered_not_sensitive {own : String} {now : Int} {out : Outcome Server PanelPage}
    {waiting : List Waiting} (hpage : streams out.response.page = false)
    (hmodest : Modest own s.server.accounts out.state.accounts)
    (hlinks : SameLinks s.server.deliveries out.state.deliveries) :
    ¬ Sensitive own
      ⟨s, m, some (answerPanel now out).2, ⟨(answerPanel now out).1, waiting⟩⟩ := by
  refine not_sensitive ?_ hmodest hlinks
  rintro output response ⟨⟩ ⟨⟩
  exact hpage

/-- An enrolment the guards let through gives the account the app. -/
theorem resume_enrols (h : Enrols P cfg r signed sv) :
    ∃ a a', adminById signed.admin.id sv.accounts = some a ∧ a.totpEnabledAt = none ∧
      adminById signed.admin.id (resume P cfg r (some signed) sv).state.accounts = some a' ∧
      a'.totpEnabledAt.isSome = true := by
  obtain ⟨hadmitted, hroute, a, secret, last, ha, hsecret, hnone, hstep⟩ := h
  let d := (offerMiddleware P cfg r signed sv.accounts).2
  have hoffer : SameAccounts (fun _ => True) sv.accounts d :=
    same_offerMiddleware r signed sv.accounts
  have hfound : adminById signed.admin.id d = some a := by
    rw [adminById_of_admins hoffer.admins, ha]
  have hconfirm : confirmTotpEnrolment P r.now r.random.recoveryCodes signed.admin.id
      (r.field "code") d = (some r.random.recoveryCodes, replaceRecoveryCodes P signed.admin.id
        r.random.recoveryCodes (enableTotp r.now last signed.admin.id d)) := by
    unfold confirmTotpEnrolment
    simp only [hfound, hsecret, hnone, hstep]
    rfl
  have hpost : (resume P cfg r (some signed) sv).state.accounts.admins =
      (enableTotp r.now last signed.admin.id d).admins := by
    rw [(resume_admitted hadmitted).1, hroute]
    show (totpConfirm P cfg r.toRequest signed d).state.admins = _
    unfold totpConfirm
    dsimp only
    rw [hconfirm]
    rfl
  refine ⟨a, { a with totpEnabledAt := some r.now, totpLastStep := some last }, ha, hnone, ?_, rfl⟩
  refine (adminById_of_admins hpost signed.admin.id).trans ?_
  refine (Credentials.adminById_update_own (by exact fun _ => rfl)).trans ?_
  rw [hfound]
  rfl

theorem enrols_sensitive (h : Resumes P r signed (History.fire (step P cfg) s m))
    (henrols : Enrols P cfg r signed s.server) :
    Sensitive signed.admin.id (History.fire (step P cfg) s m) := by
  cases m with
  | serve i =>
      cases i with
      | panel r =>
          obtain ⟨rfl, hasks⟩ := h
          have hadmins := (@LastFactor.sessionMiddleware_rows P r.toRequest s.server.accounts).1
          obtain ⟨hadmitted, hroute, a, secret, last, ha, henables⟩ := henrols
          obtain ⟨a, a', ha, hnone, ha', henabled⟩ := @resume_enrols P cfg
            { s.server with accounts := (sessionMiddleware P r.toRequest s.server.accounts).2 }
            r signed ⟨hadmitted, hroute, a, secret, last,
              (adminById_of_admins hadmins _).trans ha, henables⟩
          refine .app ((adminById_of_admins hadmins _).symm.trans ha) hnone ?_ henabled
          have hasks : (sessionMiddleware P r.toRequest s.server.accounts).1 = some signed := hasks
          show adminById signed.admin.id (panel P cfg r s.server).state.accounts = some a'
          rw [LastFactor.panel_eq_resume, hasks]
          exact ha'
      | deliver r => exact h.elim
      | visit r => exact h.elim
      | cleanup run => exact h.elim
      | cli now draw command => exact h.elim
  | receive now r => exact h.elim
  | handle k =>
      have hw : s.waiting[k]? = some ⟨r, some signed⟩ := h
      obtain ⟨a, a', ha, hnone, ha', henabled⟩ := resume_enrols henrols
      refine .app ha hnone ?_ henabled
      show adminById signed.admin.id (step P cfg s (.handle k)).1.server.accounts = some a'
      rw [step, hw]
      exact ha'

/-- A handler does nothing sensitive in a session that is not confirmed, but for an enrolment. -/
theorem passed_step (hs : Sound P s) {now : Int}
    (hin : InSession P now signed (History.fire (step P cfg) s m)) :
    signed.session.isConfirmed now = true ∨
      (∃ r, r.now = now ∧ Resumes P r signed (History.fire (step P cfg) s m) ∧
        Enrols P cfg r signed s.server) ∨
      ¬ Sensitive signed.admin.id (History.fire (step P cfg) s m) := by
  cases m with
  | serve i =>
      cases i with
      | deliver r => exact hin.elim
      | visit r =>
          obtain ⟨-, hroute, -⟩ := hin
          obtain ⟨hcalm, hdeliveries, hpage⟩ := visit_step (P := P) r hroute signed.admin.id
              ⟨fun _ => True, fun _ => True⟩
          exact .inr (.inr (answered_not_sensitive hpage (hcalm.modest.resolve_left id)
            (sameLinks_of_eq (congrArg _ hdeliveries) (congrArg _ hdeliveries))))
      | panel r =>
          obtain ⟨rfl, hasks⟩ := hin
          rcases (panel_step hs.distinct r).2 signed hasks with
            (hconfirmed | henrols) | ⟨hmodest, hlinks, hpage⟩
          · exact .inl hconfirmed
          · exact .inr (.inl ⟨r, rfl, ⟨rfl, hasks⟩, henrols⟩)
          · exact .inr (.inr (answered_not_sensitive hpage hmodest hlinks))
      | cleanup run => exact hin.elim
      | cli now draw command => exact hin.elim
  | receive t r =>
      refine .inr (.inr (not_sensitive ?_ ?_ (sameLinks_of_eq rfl rfl)))
      · intro output response houtput
        have hnone : none = some output := houtput
        cases hnone
      · exact modest_sessionMiddleware _ { r.toRequest with now := t } s.server.accounts
  | handle k =>
      obtain ⟨r, hw, rfl⟩ := hin
      have hw : s.waiting[k]? = some ⟨r, some signed⟩ := hw
      have hheld := hs.held _ (List.mem_of_getElem? hw)
      rcases (resume_step r hheld).2 signed rfl with
        (hconfirmed | henrols) | ⟨hmodest, hlinks, hpage⟩
      · exact .inl hconfirmed
      · exact .inr (.inl ⟨r, rfl, hw, henrols⟩)
      · have hstep : step P cfg s (.handle k) =
            (⟨(answerPanel r.now (resume P cfg r (some signed) s.server)).1,
              s.waiting.eraseIdx k⟩,
              some (answerPanel r.now (resume P cfg r (some signed) s.server)).2) := by
          rw [step, hw]
        rw [History.fire, hstep]
        exact .inr (.inr (answered_not_sensitive hpage hmodest hlinks))

/-- A step does what a session must be confirmed for in such a session, exactly when the app is
enrolled in such a session. -/
theorem fresh_step (hs : Sound P s) (m : Move)
    (horder : InOrder P (History.fire (step P cfg) s m)) :
    Fresh P (History.fire (step P cfg) s m) ↔
      EnrolsConfirmed P cfg (History.fire (step P cfg) s m) := by
  constructor
  · intro hfresh r signed hresumes henrols
    refine hfresh r.now signed ?_ (enrols_sensitive hresumes henrols)
    cases m with
    | serve i =>
        cases i with
        | panel r' =>
            obtain ⟨rfl, hasks⟩ := hresumes
            exact ⟨rfl, hasks⟩
        | deliver r => exact hresumes.elim
        | visit r => exact hresumes.elim
        | cleanup run => exact hresumes.elim
        | cli now draw command => exact hresumes.elim
    | receive now r => exact hresumes.elim
    | handle k => exact ⟨r, hresumes, rfl⟩
  · intro henrols now signed hin hsensitive
    rcases passed_step hs hin with hconfirmed | ⟨r, rfl, hresumes, h⟩ | hnot
    · exact horder now signed hin hconfirmed
    · exact henrols r signed hresumes h
    · exact absurd hsensitive hnot

end

/-- In every run the confirmations of an account with a second factor come from proofs of one,
where no password confirms a session that is out of date; and a step does what a session must be
confirmed for in such a session, exactly when it does not enrol the app in another one. -/
theorem sensitive_actions_confirmed {h : List Event} {s : State}
    (hr : History.Run (step P cfg) (env P) .empty h s) :
    ∀ e ∈ h, (Settled P cfg e → Moved P cfg e) ∧
      (InOrder P e → (Fresh P e ↔ EnrolsConfirmed P cfg e)) := by
  intro e he
  obtain ⟨later, earlier, rfl⟩ := List.append_of_mem he
  obtain ⟨m, hbefore, -, hfire⟩ := hr.split
  have hs := sound_run hbefore
  rw [hfire]
  exact ⟨moved_step hs m, fresh_step hs m⟩

/-! ## An account that enrols the app -/

def sampleStep : State → Move → State × Option Output :=
  step LastFactor.sampleHost LastFactor.sampleConfig

/-- A form of the settings that the account of the sample sends. -/
def sampleForm (now : Int) (route : SettingsRoute) (fields : List (String × String)) :
    PanelRequest := LastFactor.sampleSettings now route fields

/-- The account signs in at 1 and begins to enrol the app.  The headers of a request that confirms
its session by the password have come, and the form comes at 60001. -/
def begun : List Event × State :=
  History.replay sampleStep [] .empty
    ((signInScript ++ [Input.panel (sampleForm 2 .totpBegin [])]).map Move.serve ++
      [.receive 3 (sampleForm 60001 .confirmPassword [("password", "correct horse")])])

theorem env_empty {P : Platform} {h : List Event} {s : State} {m : Move} (hs : s.waiting = []) :
    env P h s m := by
  intro _ _ w hw
  rw [hs] at hw
  exact absurd hw List.not_mem_nil

theorem env_undrawn {P : Platform} {h : List Event} {s : State} {m : Move}
    (hm : drawn s m = none) : env P h s m := by
  intro id hid
  rw [hm] at hid
  cases hid

theorem run_begun : History.Run sampleStep (env LastFactor.sampleHost) .empty begun.1 begun.2 :=
  History.run_replay .start ⟨env_empty rfl, env_empty rfl, env_empty rfl, env_empty rfl, trivial⟩

/-- It sends a code of the app at this time. -/
def codeSent (now : Int) : Event :=
  History.fire sampleStep begun.2
    (.serve (.panel (sampleForm now .totpConfirm [("code", "000000")])))

theorem run_codeSent (now : Int) : History.Run sampleStep (env LastFactor.sampleHost) .empty
    (codeSent now :: begun.1) (codeSent now).post :=
  run_begun.step _ (env_undrawn rfl)

/-- With the app enrolled it confirms its session, by a code in a form that comes late. -/
def asked : Event :=
  History.fire sampleStep (codeSent 60000).post
    (.receive 89999 (sampleForm 90001 .confirmCode [("code", "000000")]))

def proved : Event := History.fire sampleStep asked.post (.handle 1)

/-- The form with the password comes. -/
def passwordSent : Event := History.fire sampleStep (codeSent 60000).post (.handle 0)

theorem sensitive_of_rows {own : String} {e : Event}
    (hpre : (adminById own e.pre.server.accounts).any (fun a => a.totpEnabledAt.isNone) = true)
    (hpost : (adminById own e.post.server.accounts).any (fun a => a.totpEnabledAt.isSome) = true) :
    Sensitive own e := by
  obtain ⟨a, ha, hnone⟩ := (Option.any_eq_true _ _).1 hpre
  obtain ⟨a', ha', henabled⟩ := (Option.any_eq_true _ _).1 hpost
  exact .app ha (by simpa using hnone) ha' henabled

/-- A session of the account is confirmed for longer than before. -/
def confirms (e : Event) : Bool :=
  e.post.server.accounts.sessions.any fun s' =>
    (adminById s'.adminId e.pre.server.accounts).any
        (fun a => (toAdmin e.pre.server.accounts a).hasSecondFactor) &&
      s'.confirmedUntil.any fun u' => e.pre.server.accounts.sessions.all fun s =>
        s.idHash != s'.idHash || s.confirmedUntil.all fun u => u < u'

theorem forward_of_confirms {e : Event} (h : confirms e = true) :
    ∃ s' ∈ e.post.server.accounts.sessions, HasFactor s'.adminId e.pre.server.accounts ∧
      Forward e.pre.server.accounts s' := by
  obtain ⟨s', hs', h⟩ := List.any_eq_true.1 h
  obtain ⟨hfactor, huntil⟩ := Bool.and_eq_true_iff.1 h
  obtain ⟨u', hu', hall⟩ := (Option.any_eq_true _ _).1 huntil
  refine ⟨s', hs', LastFactor.hasFactor_iff.2 hfactor, u', hu', fun s hs hid u hu => ?_⟩
  have hless := List.all_eq_true.1 hall s hs
  rw [hid, bne_self_eq_false, Bool.false_or, hu] at hless
  simpa using hless

/-- The request types no code, and no account has a passkey. -/
def provesNothing (P : Platform) (req : Request) (d : AccountDb) : Bool :=
  d.admins.all (fun a => (matchedStep P a (req.field "code") req.now).isNone) &&
    utf16Length (normalizeRecoveryCode P (req.field "code")) != 10 && d.passkeys.isEmpty

theorem not_proves {P : Platform} {cfg : Config} {req : Request} {s : Signed} {id : String}
    {d : AccountDb} (h : provesNothing P req d = true) : ¬ Proves P cfg req s id d := by
  simp only [provesNothing, Bool.and_eq_true, List.all_eq_true, Option.isNone_iff_eq_none,
    bne_iff_ne, List.isEmpty_iff] at h
  obtain ⟨⟨hstep, hlength⟩, hpasskeys⟩ := h
  intro hproves
  cases hproves with
  | app ha hmatched =>
      rw [hstep _ (List.mem_of_find?_eq_some ha)] at hmatched
      cases hmatched
  | code hcode => exact hlength hcode.1
  | passkey _ _ hassert _ =>
      have hmem := hassert.mem
      rw [hpasskeys] at hmem
      exact absurd hmem List.not_mem_nil

/-- The session of the request is the sample's. -/
theorem codeSent_session {now : Int} {s : Signed}
    (h : InSession LastFactor.sampleHost now s (codeSent now)) {p : Signed → Bool}
    (hp : (sessionMiddleware LastFactor.sampleHost
      (sampleForm now .totpConfirm [("code", "000000")]).toRequest
      begun.2.server.accounts).1.all p = true) : p s = true := by
  obtain ⟨-, hasks⟩ := h
  have hasks : (sessionMiddleware LastFactor.sampleHost
      (sampleForm now .totpConfirm [("code", "000000")]).toRequest
      begun.2.server.accounts).1 = some s := hasks
  rw [hasks] at hp
  exact hp

/-- Within the window the session is still confirmed by the sign-in, and a code that comes late
confirms it for longer. -/
theorem enrolled_in_time :
    (Sensitive LastFactor.sampleAccount (codeSent 60000) ∧
        Fresh LastFactor.sampleHost (codeSent 60000)) ∧
      (∃ s' ∈ proved.post.server.accounts.sessions,
        HasFactor s'.adminId proved.pre.server.accounts ∧
          Forward proved.pre.server.accounts s') ∧
      Moved LastFactor.sampleHost LastFactor.sampleConfig proved := by
  have hr := ((run_codeSent 60000).step (.receive 89999
    (sampleForm 90001 .confirmCode [("code", "000000")])) (env_undrawn rfl)).step (.handle 1)
      (env_undrawn (by decide +kernel))
  have hall := sensitive_actions_confirmed LastFactor.sampleHost LastFactor.sampleConfig hr
  have hfresh := (hall (codeSent 60000)
    (List.mem_cons_of_mem _ (List.mem_cons_of_mem _ (List.mem_cons_self ..)))).2
  have hmoved := (hall proved (List.mem_cons_self ..)).1
  refine ⟨⟨sensitive_of_rows (by decide +kernel) (by decide +kernel), (hfresh ?_).2 ?_⟩,
    forward_of_confirms (by decide +kernel), hmoved ?_⟩
  · rintro now s ⟨rfl, hasks⟩
    exact inOrder_of_clock (e := codeSent 60000) (fun now s h => by
      obtain ⟨rfl, -⟩ := h
      decide) _ s ⟨rfl, hasks⟩
  · rintro r s ⟨rfl, hasks⟩ -
    have huntil := codeSent_session (s := s) (p := fun s => s.session.confirmedUntil == some 600001)
        ⟨rfl, hasks⟩ (by decide +kernel)
    exact ⟨600001, by simpa using huntil, by decide⟩
  · rintro id ⟨r, s, hw, -, hroute, -⟩
    have hnone : (asked.post.waiting[1]?).any
        (fun w => w.request.route == .settings .confirmPassword) = false := by decide +kernel
    have hw : asked.post.waiting[1]? = some ⟨r, some s⟩ := hw
    rw [hw, Option.any_some, hroute] at hnone
    exact absurd hnone (by decide)

/-- After the window the same enrolment goes through, and the password confirms the session of an
account that has enrolled the app in the meantime. -/
theorem enrolled_late :
    (¬ ∀ (P : Platform) (cfg : Config) (h : List Event) (s : State),
      History.Run (step P cfg) (env P) .empty h s → ∀ e ∈ h, Fresh P e) ∧
    ¬ ∀ (P : Platform) (cfg : Config) (h : List Event) (s : State),
      History.Run (step P cfg) (env P) .empty h s → ∀ e ∈ h, Moved P cfg e := by
  refine ⟨fun hall => ?_, fun hall => ?_⟩
  · have hfresh := hall _ _ _ _ (run_codeSent 660000) (codeSent 660000) (List.mem_cons_self ..)
    obtain ⟨s, hs, hown⟩ := (Option.any_eq_true _ _).1 (show (sessionMiddleware
      LastFactor.sampleHost (sampleForm 660000 .totpConfirm [("code", "000000")]).toRequest
      begun.2.server.accounts).1.any (fun s => s.admin.id == LastFactor.sampleAccount &&
        s.session.confirmedUntil == some 600001) = true by decide +kernel)
    rw [Bool.and_eq_true, beq_iff_eq, beq_iff_eq] at hown
    obtain ⟨u, hu, hlt⟩ := hfresh 660000 s ⟨rfl, hs⟩ (by
      rw [hown.1]
      exact sensitive_of_rows (by decide +kernel) (by decide +kernel))
    rw [hown.2] at hu
    cases hu
    exact absurd hlt (by decide)
  · have hr := (run_codeSent 60000).step (.handle 0) (env_undrawn (by decide +kernel))
    have hmoved := hall _ _ _ _ hr passwordSent (List.mem_cons_self ..)
    obtain ⟨s', hs', hfactor, hforward⟩ :=
      forward_of_confirms (e := passwordSent) (by decide +kernel)
    obtain ⟨r, s, hw, hproves⟩ := hmoved s' hs' hfactor hforward
    have hnothing : ((codeSent 60000).post.waiting[0]?).all (fun w => provesNothing
        LastFactor.sampleHost w.request.toRequest (codeSent 60000).post.server.accounts) = true := by
      decide +kernel
    have hw : (codeSent 60000).post.waiting[0]? = some ⟨r, some s⟩ := hw
    rw [hw] at hnothing
    exact not_proves hnothing hproves

end Confirmations

end Outletbox
