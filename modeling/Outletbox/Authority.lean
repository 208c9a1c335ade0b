import Outletbox.Freshness
import Outletbox.Integrity

/-!
# Who may change an account

Two things hold over whole runs, in which each request is one step.  An account
nobody acts for stays as it is: its row, its passkeys and its recovery codes, and
no session of it is opened.  And an account that administers the others was made
an administrator by an operator, or by a colleague who was one: every chain of
such appointments ends at the console.
-/

namespace Outletbox

namespace Authority

open Integrity (Sound)
open Statements

variable (P : Platform) (cfg : Config)

/-! ## Accounts nobody acts for -/

/-- What the tables hold of an account. -/
structure Holding where
  row : Option AdminRow
  passkeys : List PasskeyRow
  codes : List RecoveryCode
  deriving DecidableEq

def holding (id : String) (d : AccountDb) : Holding :=
  ⟨adminById id d, d.passkeys.filter fun k => k.adminId == id,
    d.recoveryCodes.filter fun c => c.adminId == id⟩

/-- Every session of the account was there before. -/
def NoneOpened (id : String) (d d' : AccountDb) : Prop :=
  ∀ s' ∈ d'.sessions, s'.adminId = id →
    ∃ s ∈ d.sessions, s.idHash = s'.idHash ∧ s.adminId = id

/-- The step acts for the account: a login with its password, a request from its session to one of
its own settings or to the second step of its login, or a request of an administrator or a command
that names it. -/
def ActsFor (id : String) (sv : Server) : Input → Prop
  | .deliver _ | .cleanup _ => False
  | .visit r => r.route = .login ∧
      ∃ account, loginAdmin P r.toRequest sv.accounts = some account ∧ account.id = id
  | .panel r => ∃ s, Admitted P cfg r s sv ∧
      (r.route.isInside = false ∧ s.admin.id = id ∨
        ∃ route, r.route = .users route ∧ target route = some id)
  | .cli _ _ command => ∃ a ∈ sv.accounts.admins, named command = some a.username ∧ a.id = id

/-! ## Appointments -/

/-- The step was taken by an operator, or by a colleague: in a complete and confirmed session of an
account that administers the others and is not disabled. -/
inductive By (e : ServerEvent) : Option String → Prop
  | operator {now : Int} {draw : CliDraw} {command : CliCommand} :
      e.input = .cli now draw command → By e none
  | colleague {r : PanelRequest} {s : Signed} {a : AdminRow} : e.input = .panel r →
      (sessionMiddleware P r.toRequest e.pre.accounts).1 = some s →
      s.session.totpVerified = true → s.session.isConfirmed r.now = true →
      a ∈ e.pre.accounts.admins → a.id = s.admin.id → a.role = .admin → a.disabledAt = none →
      By e (some a.id)

/-- The account is an administrator's. -/
def Administers (id : String) (sv : Server) : Prop :=
  ∃ a ∈ sv.accounts.admins, a.id = id ∧ a.role = .admin

/-- The step made the account an administrator's. -/
def Appoints (id : String) (e : ServerEvent) : Prop :=
  ¬ Administers id e.pre ∧ Administers id e.post

/-- The account was appointed, by an operator or by one who had been appointed before. -/
inductive Appointed : List ServerEvent → String → Prop
  | operator {h : List ServerEvent} {e : ServerEvent} {id : String} :
      By P e none → Appoints id e → Appointed (e :: h) id
  | colleague {h : List ServerEvent} {e : ServerEvent} {id actor : String} :
      By P e (some actor) → Appointed h actor → Appoints id e → Appointed (e :: h) id
  | earlier {h : List ServerEvent} {e : ServerEvent} {id : String} :
      Appointed h id → Appointed (e :: h) id

section

variable {P} {cfg} {G : Grant} {d d₁ d' : AccountDb} {id : String} {sv sv' : Server}

/-! ## What a statement leaves of an account -/

theorem NoneOpened.refl (id : String) (d : AccountDb) : NoneOpened id d d :=
  fun s hs hid => ⟨s, hs, rfl, hid⟩

theorem NoneOpened.trans (h : NoneOpened id d d₁) (h' : NoneOpened id d₁ d') :
    NoneOpened id d d' := by
  intro s hs hid
  obtain ⟨s₁, hs₁, hhash₁, hid₁⟩ := h' s hs hid
  obtain ⟨s₀, hs₀, hhash₀, hid₀⟩ := h s₁ hs₁ hid₁
  exact ⟨s₀, hs₀, hhash₀.trans hhash₁, hid₀⟩

/-- The tables keep what they hold of the account. -/
def Kept (id : String) (d d' : AccountDb) : Prop :=
  holding id d' = holding id d ∧ NoneOpened id d d'

theorem Kept.refl (id : String) (d : AccountDb) : Kept id d d := ⟨rfl, .refl id d⟩

theorem Kept.trans (h : Kept id d d₁) (h' : Kept id d₁ d') : Kept id d d' :=
  ⟨h'.1.trans h.1, h.2.trans h'.2⟩

/-- A statement that leaves the sessions alone. -/
theorem kept_rows (hrow : adminById id d' = adminById id d)
    (hkeys : d'.passkeys.filter (fun k => k.adminId == id) =
      d.passkeys.filter fun k => k.adminId == id)
    (hcodes : d'.recoveryCodes.filter (fun c => c.adminId == id) =
      d.recoveryCodes.filter fun c => c.adminId == id)
    (hsessions : d'.sessions = d.sessions) : Kept id d d' := by
  refine ⟨?_, fun s hs hid => ⟨s, hsessions ▸ hs, rfl, hid⟩⟩
  rw [holding, holding, hrow, hkeys, hcodes]

/-- An update of the rows of other accounts. -/
theorem filter_update_others {α : Type} {owner : α → String} {p : α → Bool} {f : α → α}
    {t : List α} (hf : ∀ r, owner (f r) = owner r)
    (hp : ∀ r ∈ t, p r = true → owner r ≠ id) :
    (Table.update p f t).filter (fun r => owner r == id) = t.filter fun r => owner r == id := by
  rw [Table.filter_update fun r => by rw [hf]]
  refine Table.update_eq_self fun r hr hhit => ?_
  obtain ⟨hr, howner⟩ := List.mem_filter.1 hr
  exact absurd (beq_iff_eq.1 howner) (hp r hr hhit)

theorem filter_delete_others {α : Type} {owner : α → String} {p : α → Bool} {t : List α}
    (hp : ∀ r ∈ t, p r = true → owner r ≠ id) :
    (Table.delete p t).filter (fun r => owner r == id) = t.filter fun r => owner r == id := by
  refine Table.filter_delete fun r hr howner => ?_
  cases hhit : p r with
  | false => rfl
  | true => exact absurd (beq_iff_eq.1 howner) (hp r hr hhit)

theorem filter_append_others {α : Type} {owner : α → String} {t u : List α}
    (hu : ∀ r ∈ u, owner r ≠ id) :
    (t ++ u).filter (fun r => owner r == id) = t.filter fun r => owner r == id := by
  have hnone : u.filter (fun r => owner r == id) = [] :=
    List.filter_eq_nil_iff.2 fun r hr => by simpa using hu r hr
  rw [List.filter_append, hnone, List.append_nil]

theorem adminById_update_others {p : AdminRow → Bool} {f : AdminRow → AdminRow}
    (hf : ∀ a, (f a).id = a.id) (hp : ∀ a ∈ d.admins, p a = true → a.id ≠ id) :
    adminById id { d with admins := Table.update p f d.admins } = adminById id d := by
  unfold adminById
  rw [Table.find?_update fun a => by rw [hf]]
  cases hrow : d.admins.find? fun a => a.id == id with
  | none => rfl
  | some a =>
      have hid := List.find?_some (p := fun a : AdminRow => a.id == id) hrow
      have hspared : p a = false := by
        by_contra hhit
        exact hp a (List.mem_of_find?_eq_some hrow) (Bool.eq_true_of_not_eq_false hhit)
          (beq_iff_eq.1 hid)
      rw [Option.map_some, hspared]
      rfl

theorem adminById_append_known {a : AdminRow} (hid : ∃ x ∈ d.admins, x.id = id) :
    adminById id { d with admins := d.admins ++ [a] } = adminById id d := by
  obtain ⟨x, hx, hxid⟩ := hid
  have hsome : (d.admins.find? fun x => x.id == id).isSome :=
    List.find?_isSome.2 ⟨x, hx, beq_iff_eq.2 hxid⟩
  unfold adminById
  rw [List.find?_append, Option.or_of_isSome hsome]

theorem kept_deleteSessions (p : SessionRow → Bool) (d : AccountDb) :
    Kept id d (deletePanelSessions p d) :=
  ⟨rfl, fun s hs hid => ⟨s, (Table.mem_delete.1 hs).1, rfl, hid⟩⟩

/-- A statement keeps what the tables hold of an account that is not granted. -/
theorem kept_write (h : AccountWrite G d d') (hg : ¬ G.mine id)
    (hid : ∃ a ∈ d.admins, a.id = id) : Kept id d d' := by
  have hothers : ∀ {x : String}, G.mine x → x ≠ id := fun hx heq => hg (heq ▸ hx)
  cases h with
  | admins d hf hrows =>
      exact kept_rows (adminById_update_others (fun a => (hf a).1)
        fun a ha hp => hothers (hrows a ha hp)) rfl rfl rfl
  | role d _ hf hrows =>
      exact kept_rows (adminById_update_others (fun a => (hf a).1)
        fun a ha hp => hothers (hrows a ha hp)) rfl rfl rfl
  | newAdmin => exact kept_rows (adminById_append_known hid) rfl rfl rfl
  | sessions d hf =>
      refine ⟨rfl, fun s hs hs_id => ?_⟩
      obtain ⟨s₀, hs₀, rfl⟩ := Table.mem_update.1 hs
      refine ⟨s₀, hs₀, ?_⟩
      split at hs_id
      · rename_i hhit
        rw [if_pos hhit, (hf s₀).1]
        exact ⟨rfl, (hf s₀).2.2.symm.trans hs_id⟩
      · rename_i hhit
        rw [if_neg hhit]
        exact ⟨rfl, hs_id⟩
  | newSession h hmine =>
      obtain ⟨rfl, -, -⟩ := insertSession_ok h
      refine ⟨rfl, fun s hs hs_id => ?_⟩
      rcases List.mem_append.1 hs with hs | hs
      · exact ⟨s, hs, rfl, hs_id⟩
      · rw [List.mem_singleton.1 hs] at hs_id
        exact absurd hs_id (hothers hmine)
  | endSessions p d => exact kept_deleteSessions p d
  | codes d hf hrows =>
      exact kept_rows rfl rfl (filter_update_others hf fun c hc hp => hothers (hrows c hc hp)) rfl
  | newCodes d _ hrows =>
      exact kept_rows rfl rfl (filter_append_others fun c hc => hothers (hrows c hc)) rfl
  | dropCodes d hrows =>
      exact kept_rows rfl rfl (filter_delete_others fun c hc hp => hothers (hrows c hc hp)) rfl
  | passkeys d hf hrows =>
      exact kept_rows rfl (filter_update_others (fun k => (hf k).2.2)
        fun k hk hp => hothers (hrows k hk hp)) rfl rfl
  | newPasskey d _ _ hrow =>
      exact kept_rows rfl (filter_append_others
        (List.forall_mem_singleton.2 (hothers hrow))) rfl rfl
  | dropPasskeys d hrows =>
      exact kept_rows rfl (filter_delete_others fun k hk hp => hothers (hrows k hk hp)) rfl rfl
  | bindings => exact .refl id _
  | newBinding => exact .refl id _

theorem kept_deleteAdmin {x : String} (hx : x ≠ id) (d : AccountDb) :
    Kept id d (deleteAdmin x d) := by
  refine ⟨?_, (kept_deleteSessions (fun s => s.adminId == x) d).2⟩
  have hspared : ∀ {y : String}, (y == id) = true → (y == x) = false := by
    intro y hy
    rw [beq_eq_false_iff_ne, beq_iff_eq.1 hy]
    exact hx.symm
  rw [holding, holding, adminById, adminById]
  congr 1
  · exact Table.find?_delete fun a ha => hspared ha
  · exact Table.filter_delete fun k _ hk => hspared hk
  · exact Table.filter_delete fun c _ hc => hspared hc

/-- A sequence of statements keeps what the tables hold of an account that is not granted, and the
account. -/
theorem kept_writes (h : ServerWrites G sv sv') (hg : ¬ G.mine id) (hid : Known sv id) :
    Kept id sv.accounts sv'.accounts ∧ Known sv' id := by
  induction h with
  | refl => exact ⟨.refl id _, hid⟩
  | tail _ hlast ih =>
      obtain ⟨hkept, hknown⟩ := ih
      cases hlast with
      | accounts _ h => exact ⟨hkept.trans (kept_write h hg hknown), known_write h hknown⟩
      | deliveries => exact ⟨hkept, hknown⟩
      | groups => exact ⟨hkept, hknown⟩
      | @deleteAdmin x sv _ hmine =>
          have hx : x ≠ id := fun heq => hg (heq ▸ hmine)
          obtain ⟨a, ha, rfl⟩ := hknown
          exact ⟨hkept.trans (kept_deleteAdmin hx _),
            a, Table.mem_delete.2 ⟨ha, beq_false_of_ne (Ne.symm hx)⟩, rfl⟩
      | memory => exact ⟨hkept, hknown⟩

/-! ## Steps that do not act for an account -/

/-- Everything but the account. -/
def others (id : String) : Grant := ⟨True, fun x => x ≠ id⟩

theorem loginAdmin_congr {req : Request} (hadmins : d'.admins = d.admins)
    (hpasskeys : d'.passkeys = d.passkeys) : loginAdmin P req d' = loginAdmin P req d := by
  unfold loginAdmin authenticate
  simp only [adminByUsername, hadmins, Recovery.toAdmin_congr hpasskeys]

theorem granted_others (hs : Sound sv) {i : Input} (hi : ¬ ActsFor P cfg id sv i) :
    Granted P cfg (others id) sv i := by
  cases i with
  | deliver r => trivial
  | visit r =>
      intro hroute account haccount heq
      obtain ⟨hadmins, hpasskeys⟩ := LastFactor.sessionMiddleware_rows (P := P) r.toRequest
          sv.accounts
      rw [loginAdmin_congr hadmins hpasskeys] at haccount
      exact hi ⟨hroute, account, haccount, heq⟩
  | panel r =>
      intro s hadmitted
      refine ⟨fun hroute => ?_, fun route hroute _ => ⟨trivial, fun x hx heq => ?_⟩⟩
      · have hown : s.admin.id ≠ id := fun heq => hi ⟨s, hadmitted, .inl ⟨hroute, heq⟩⟩
        have hread : Forgery.SameAccounts _ sv.accounts (offerMiddleware P cfg r s _).2 :=
          (Forgery.same_sessionMiddleware (P := P) hs.accounts.sessions r.toRequest).trans
            (Forgery.same_offerMiddleware r s _)
        have hheld := (Confirmations.held_read hs.accounts.sessions
          (LastFactor.requireAdmin_ok hadmitted.1)).of_same hread
        refine ⟨hown, fun row hrow hhash => ?_, fun k hk k' hk' hid hmine => ?_⟩
        · show row.adminId ≠ id
          rw [hheld row hrow hhash]
          exact hown
        · rw [hread.passkeys] at hk hk'
          rwa [← Table.eq_of_key hs.accounts.passkeys hk hk' hid]
      · exact hi ⟨s, hadmitted, .inr ⟨route, hroute, heq ▸ hx⟩⟩
  | cleanup run => trivial
  | cli now draw command => exact ⟨trivial, fun a ha hname heq => hi ⟨a, ha, hname, heq⟩⟩

/-- As long as nobody acts for an account, it stays as it is, and no session of it is opened. -/
theorem left_alone (P : Platform) (cfg : Config) {sv₀ : Server} (hs : Sound sv₀)
    (hid : Known sv₀ id) {h : List ServerEvent}
    (hr : History.Run (Server.step P cfg) (fun _ sv i => ¬ ActsFor P cfg id sv i) sv₀ h sv) :
    holding id sv.accounts = holding id sv₀.accounts ∧
      NoneOpened id sv₀.accounts sv.accounts := by
  have hall : Sound sv ∧ Kept id sv₀.accounts sv.accounts ∧ Known sv id := by
    refine hr.invariant (I := fun _ sv => Sound sv ∧ Kept id sv₀.accounts sv.accounts ∧ Known sv id)
      ⟨hs, .refl id _, hid⟩ fun h s i hr hi ⟨hsound, hkept, hknown⟩ => ?_
    have hwrites := step_writes s i (granted_others hsound hi)
    obtain ⟨hstep, hknown'⟩ := kept_writes hwrites (fun hne => hne rfl) hknown
    exact ⟨Integrity.sound_writes hsound hwrites, hkept.trans hstep, hknown'⟩
  exact hall.2.1

/-! ## Steps that appoint nobody -/

/-- Everything but the accounts of others and their roles. -/
def unranked : Grant := ⟨False, fun _ => True⟩

theorem role_write (h : AccountWrite G d d') (hg : ¬ G.manages) :
    ∀ a' ∈ d'.admins, ∃ a ∈ d.admins, a.id = a'.id ∧ a.role = a'.role := by
  have hsame : ∀ a' ∈ d.admins, ∃ a ∈ d.admins, a.id = a'.id ∧ a.role = a'.role :=
    fun a ha => ⟨a, ha, rfl, rfl⟩
  cases h with
  | admins d hf =>
      intro a' ha'
      obtain ⟨a, ha, rfl⟩ := Table.mem_update.1 ha'
      refine ⟨a, ha, ?_⟩
      split
      · exact ⟨(hf a).1.symm, (hf a).2.2.symm⟩
      · exact ⟨rfl, rfl⟩
  | role _ hmanages => exact absurd hmanages hg
  | newAdmin _ hmanages => exact absurd hmanages hg
  | newSession h =>
      obtain ⟨rfl, -, -⟩ := insertSession_ok h
      exact hsame
  | _ => exact hsame

theorem role_writes (h : ServerWrites G sv sv') (hg : ¬ G.manages) (hid : Administers id sv') :
    Administers id sv := by
  induction h with
  | refl => exact hid
  | tail _ hlast ih =>
      refine ih ?_
      cases hlast with
      | accounts _ h =>
          obtain ⟨a', ha', rfl, hrole⟩ := hid
          obtain ⟨a, ha, hsame, hr⟩ := role_write h hg a' ha'
          exact ⟨a, ha, hsame, hr.trans hrole⟩
      | deliveries => exact hid
      | groups => exact hid
      | deleteAdmin _ hmanages => exact absurd hmanages hg
      | memory => exact hid

/-- A request the guards of the account routes admit is a colleague's. -/
theorem by_users {r : PanelRequest} {s : Signed} {route : UserRoute}
    (hroute : r.route = .users route) (hlist : route ≠ .list) (hadmitted : Admitted P cfg r s sv) :
    ∃ actor, By P (History.fire (Server.step P cfg) sv (.panel r)) (some actor) ∧
      Administers actor sv := by
  have hsigned := LastFactor.requireAdmin_ok hadmitted.1
  obtain ⟨row, -, a, -, hfound, hactive, hsession⟩ := Credentials.signed_row hsigned
  obtain ⟨hmem, hid⟩ := mem_of_adminById hfound
  have hadmin : s.admin = toAdmin sv.accounts a := by rw [Signed.admin, hsession]; rfl
  have hrole : s.admin.role = .admin := by
    have hnone := (Option.or_eq_none_iff.1 (Option.or_eq_none_iff.1
      (Option.or_eq_none_iff.1 hadmitted.2).2).2).1
    by_contra hother
    rw [adminsRefusal, hroute, if_pos (by simpa [PanelRoute.adminsOnly] using hother)] at hnone
    cases hnone
  have hcomplete : s.session.totpVerified = true :=
    Credentials.complete_of_requireAdmin (hsigned ▸ hadmitted.1) (by rw [hroute]; rfl)
  have hconfirmed : s.session.isConfirmed r.now = true := by
    have hagain : Confirmations.Admitted P cfg r s sv := ⟨hsigned ▸ hadmitted.1, hadmitted.2⟩
    refine Confirmations.Admitted.isConfirmed hagain ?_
    rw [hroute]
    show UserRoute.back route ≠ none
    rw [UserRoute.back, if_neg hlist]
    exact Option.some_ne_none _
  have hrow : a.role = .admin := by rw [← hrole, hadmin]; rfl
  exact ⟨a.id, .colleague rfl hsigned hcomplete hconfirmed hmem (by rw [hadmin]; rfl) hrow hactive,
    a, hmem, rfl, hrow⟩

/-- A step that appoints someone is an operator's or a colleague's. -/
theorem step_appoints (sv : Server) (i : Input)
    (happoints : Appoints id (History.fire (Server.step P cfg) sv i)) :
    By P (History.fire (Server.step P cfg) sv i) none ∨
      ∃ actor, By P (History.fire (Server.step P cfg) sv i) (some actor) ∧ Administers actor sv := by
  have hranks : ¬ Granted P cfg unranked sv i := fun hg =>
    happoints.1 (role_writes (step_writes sv i hg) (fun h => h) happoints.2)
  cases i with
  | deliver r => exact absurd trivial hranks
  | visit r => exact absurd (fun _ _ _ => trivial) hranks
  | cleanup run => exact absurd trivial hranks
  | cli now draw command => exact .inl (.operator rfl)
  | panel r =>
      right
      by_contra hnobody
      refine hranks fun s hadmitted => ⟨fun _ => ?_, fun route hroute hlist => ?_⟩
      · exact ⟨trivial, fun _ _ _ => trivial, fun _ _ _ _ _ _ => trivial⟩
      · exact absurd (by_users hroute hlist hadmitted) hnobody

/-- Whoever administers the accounts was appointed: by an operator, or by a colleague in a complete
and confirmed session, who was an administrator then and had been appointed before. -/
theorem administrators_are_appointed (P : Platform) (cfg : Config) {h : List ServerEvent}
    (hr : History.Run (Server.step P cfg) (fun _ _ _ => True) .empty h sv) {a : AdminRow}
    (ha : a ∈ sv.accounts.admins) (hrole : a.role = .admin) : Appointed P h a.id := by
  have hall : ∀ id, Administers id sv → Appointed P h id := by
    refine hr.invariant (I := fun h sv => ∀ id, Administers id sv → Appointed P h id)
      (fun id ⟨a, ha, _⟩ => by cases ha) fun h s i _ _ ih id hid => ?_
    by_cases hbefore : Administers id s
    · exact .earlier (ih id hbefore)
    · have happoints : Appoints id (History.fire (Server.step P cfg) s i) := ⟨hbefore, hid⟩
      rcases step_appoints s i happoints with hby | ⟨actor, hby, hactor⟩
      · exact .operator hby happoints
      · exact .colleague hby (ih actor hactor) happoints
  exact hall a.id ⟨a, ha, rfl, hrole⟩

end

/-! ## A colleague of the sample -/

/-- A form in the session the colleague gets, with values of its own drawn. -/
def colleagueForm (now : Int) (route : PanelRoute) (fields : List (String × String)) :
    PanelRequest :=
  let request := samplePanel now "sid2" 'U' route fields
  { request with
    random :=
      { request.random with
        id := "BBBBBBBBBBBBBBBB", publicId := "BBBBBBBBBBBBBBBB", password := "first password" } }

/-- `root`, whom an operator created, makes `eve` an administrator. -/
def appointScript : List Input :=
  signInScript ++
    [.panel { colleagueForm 2 (.users .create) [("username", "eve"), ("role", "admin")] with
      cookieHeader := some "outletbox_sid=sid" }]

def appointed : List ServerEvent × Server :=
  History.replay (Server.step LastFactor.sampleHost Credentials.disableConfig) [] .empty
    appointScript

theorem run_appointed :
    History.Run (Server.step LastFactor.sampleHost Credentials.disableConfig) (fun _ _ _ => True)
      .empty appointed.1 appointed.2 :=
  History.run_replay .start (History.admits_of_forall (fun _ _ _ => trivial) _ _ _)

/-- `eve` was appointed by `root`, and `root` at the console. -/
theorem eve_was_appointed :
    ∃ a ∈ appointed.2.accounts.admins, a.username = "eve" ∧
      Appointed LastFactor.sampleHost appointed.1 a.id := by
  obtain ⟨a, ha, hname, hrole⟩ : ∃ a ∈ appointed.2.accounts.admins,
      a.username = "eve" ∧ a.role = .admin := by decide +kernel
  exact ⟨a, ha, hname, administrators_are_appointed LastFactor.sampleHost
    Credentials.disableConfig run_appointed ha hrole⟩

/-- `eve` tries a password of `root`, signs in and sets her own. -/
def eveScript : List Input :=
  [.visit { colleagueForm 3 .audit [("username", "root"), ("password", "first password")] with
      route := .login },
    .visit { colleagueForm 4 .audit [("username", "eve"), ("password", "first password")] with
      route := .login },
    .panel (colleagueForm 5 (.settings .password) [("current_password", "first password"),
      ("new_password", "correct horse"), ("new_password_confirm", "correct horse")])]

def settled : List ServerEvent × Server :=
  History.replay (Server.step LastFactor.sampleHost Credentials.disableConfig) [] appointed.2
    eveScript

section

variable {P : Platform} {cfg : Config} {id : String} {sv : Server}

/-- A login with the password of another account, or of none. -/
theorem not_actsFor_visit {r : OpenRequest}
    (h : (loginAdmin P r.toRequest sv.accounts).map (·.id) ≠ some id) :
    ¬ ActsFor P cfg id sv (.visit r) := by
  rintro ⟨-, account, haccount, rfl⟩
  exact h (by rw [haccount]; rfl)

/-- A request in the session of another account. -/
theorem not_actsFor_panel {r : PanelRequest} (hroute : ∀ route, r.route ≠ .users route)
    (h : ((sessionMiddleware P r.toRequest sv.accounts).1.map (·.admin.id)) ≠ some id) :
    ¬ ActsFor P cfg id sv (.panel r) := by
  rintro ⟨s, ⟨hadmin, -⟩, ⟨-, rfl⟩ | ⟨route, hr, -⟩⟩
  · exact h (by rw [LastFactor.requireAdmin_ok hadmin]; rfl)
  · exact hroute route hr

end

theorem admits_eve : History.Admits (Server.step LastFactor.sampleHost Credentials.disableConfig)
    (fun _ sv i => ¬ ActsFor LastFactor.sampleHost Credentials.disableConfig
      LastFactor.sampleAccount sv i) [] appointed.2 eveScript := by
  refine ⟨not_actsFor_visit ?_, not_actsFor_visit ?_, not_actsFor_panel nofun ?_, trivial⟩
  · decide +kernel
  · decide +kernel
  · decide +kernel

/-- While `eve` is at work, the account of `root` stays as it is; hers does not. -/
theorem root_is_left_alone :
    holding LastFactor.sampleAccount settled.2.accounts =
        holding LastFactor.sampleAccount appointed.2.accounts ∧
      settled.2.accounts.admins ≠ appointed.2.accounts.admins ∧
      NoneOpened LastFactor.sampleAccount appointed.2.accounts settled.2.accounts := by
  have hsound : Sound appointed.2 := run_appointed.invariant (I := fun _ sv => Sound sv)
    Integrity.sound_empty fun _ _ i _ _ hs => Integrity.sound_step hs i
  have hknown : Known appointed.2 LastFactor.sampleAccount := by
    unfold Known
    decide +kernel
  obtain ⟨hkept, hnone⟩ := left_alone LastFactor.sampleHost Credentials.disableConfig hsound hknown
    (History.run_replay .start admits_eve)
  exact ⟨hkept, by decide +kernel, hnone⟩

end Authority

end Outletbox
