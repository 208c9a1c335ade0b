import Outletbox.DeliveryStatements
import Outletbox.SessionLife

/-!
# The statements of a step

A step of the server is a sequence of statements on its tables.  What it may do
to the accounts is what its input is granted: a request in a session writes to
the account of the session, a login to the account whose password was right, and
an administrator or an operator to the account they name.
-/

namespace Outletbox

namespace Statements

variable (P : Platform) (cfg : Config)

/-- The account exists. -/
def Known (sv : Server) (id : String) : Prop := ∃ a ∈ sv.accounts.admins, a.id = id

/-- One statement, on any of the tables, or a change of what the server keeps beside the schema. -/
inductive ServerWrite (G : Grant) : Server → Server → Prop
  | accounts {d : AccountDb} (sv : Server) : AccountWrite G sv.accounts d →
      ServerWrite G sv { sv with accounts := d }
  | deliveries {d : DeliveryDb} (sv : Server) : DeliveryWrite (Known sv) sv.deliveries d →
      ServerWrite G sv { sv with deliveries := d }
  | groups {g : GroupDb} (sv : Server) : GroupWrite (Known sv) sv.groups g →
      ServerWrite G sv { sv with groups := g }
  /-- `DELETE FROM admins WHERE id = ?`. -/
  | deleteAdmin {id : String} (sv : Server) : G.manages → G.mine id →
      ServerWrite G sv { sv with
        accounts := deleteAdmin id sv.accounts
        deliveries := sv.deliveries.forgetAdmin id
        groups := sv.groups.forgetAdmin id }
  | memory (log : List AuditRow) (flashes : List Flash) (sv : Server) :
      ServerWrite G sv { sv with auditLog := log, flashes := flashes }

/-- A sequence of statements. -/
def ServerWrites (G : Grant) : Server → Server → Prop := Relation.ReflTransGen (ServerWrite G)

/-- The handler of a request may do what it does. -/
structure Handles (G : Grant) (route : PanelRoute) (s : Signed) (d : AccountDb) : Prop where
  scope : route.isInside = false → Scope P G s d
  users : ∀ r, route = .users r → r ≠ .list →
    G.manages ∧ ∀ id, target r = some id → G.mine id

/-- What a step is granted covers what its input asks for. -/
def Granted (G : Grant) (sv : Server) : Input → Prop
  | .deliver _ | .cleanup _ => True
  | .visit r => r.route = .login →
      ∀ account, loginAdmin P r.toRequest (sessionMiddleware P r.toRequest sv.accounts).2 =
        some account → G.mine account.id
  | .panel r => ∀ s, Admitted P cfg r s sv →
      Handles P G r.route s
        (offerMiddleware P cfg r s (sessionMiddleware P r.toRequest sv.accounts).2).2
  | .cli _ _ command => G.manages ∧
      ∀ a ∈ sv.accounts.admins, named command = some a.username → G.mine a.id

section

variable {P} {cfg} {G : Grant} {d d' : AccountDb} {e : DeliveryDb} {g : GroupDb}
  {sv : Server} {id : String}

theorem granted_all (sv : Server) (i : Input) : Granted P cfg .all sv i := by
  cases i with
  | deliver r => trivial
  | visit r => exact fun _ _ _ => trivial
  | panel r =>
      exact fun s _ => ⟨fun _ => ⟨trivial, fun _ _ _ => trivial, fun _ _ _ _ _ _ => trivial⟩,
        fun _ _ _ => ⟨trivial, fun _ _ => trivial⟩⟩
  | cleanup run => trivial
  | cli now draw command => exact ⟨trivial, fun _ _ _ => trivial⟩

/-! ## Accounts stay -/

/-- No statement of a request loses an account. -/
theorem known_write (h : AccountWrite G d d') (hid : ∃ a ∈ d.admins, a.id = id) :
    ∃ a ∈ d'.admins, a.id = id := by
  obtain ⟨a, ha, rfl⟩ := hid
  cases h with
  | admins d hf => exact mem_updated (by exact fun a => (hf a).1) ha
  | role d _ hf => exact mem_updated (by exact fun a => (hf a).1) ha
  | newAdmin => exact ⟨a, List.mem_append_left _ ha, rfl⟩
  | newSession h =>
      obtain ⟨rfl, -, -⟩ := insertSession_ok h
      exact ⟨a, ha, rfl⟩
  | _ => exact ⟨a, ha, rfl⟩

theorem known_writes (h : Writes G d d') (hid : ∃ a ∈ d.admins, a.id = id) :
    ∃ a ∈ d'.admins, a.id = id := by
  induction h with
  | refl => exact hid
  | tail _ hlast ih => exact known_write hlast ih

/-- The account of a session exists, before its request and after what stands before a handler. -/
theorem known_signed {req : Request} {s : Signed}
    (h : (sessionMiddleware P req d).1 = some s) : ∃ a ∈ d.admins, a.id = s.admin.id := by
  obtain ⟨row, -, a, -, hadmin, -, hsession⟩ := Credentials.signed_row h
  exact ⟨a, (mem_of_adminById hadmin).1, by rw [Signed.admin, hsession]; rfl⟩

/-! ## Steps -/

theorem ServerWrites.ofAccounts (h : Writes G sv.accounts d) :
    ServerWrites G sv { sv with accounts := d } := by
  induction h with
  | refl => exact .refl
  | tail _ hlast ih => exact ih.tail (.accounts { sv with accounts := _ } hlast)

theorem ServerWrites.ofDeliveries (h : DeliveryWrites (Known sv) sv.deliveries e) :
    ServerWrites G sv { sv with deliveries := e } := by
  induction h with
  | refl => exact .refl
  | tail _ hlast ih => exact ih.tail (.deliveries { sv with deliveries := _ } hlast)

theorem ServerWrites.ofGroups (h : GroupWrites (Known sv) sv.groups g) :
    ServerWrites G sv { sv with groups := g } := by
  induction h with
  | refl => exact .refl
  | tail _ hlast ih => exact ih.tail (.groups { sv with groups := _ } hlast)

/-- A handler of the panel, on the accounts its session was read from. -/
theorem handle_writes {route : PanelRoute} {req : Request} {s : Signed}
    (hs : Known sv s.admin.id) (hg : Handles P G route s sv.accounts) :
    ServerWrites G sv (route.handle P cfg req s sv).state := by
  cases route with
  | pending route => exact .ofAccounts (writes_pending route req (hg.scope rfl))
  | settings route =>
      exact (ServerWrites.ofAccounts (writes_settings route req sv.accountState
        (hg.scope rfl))).tail
        (.memory sv.auditLog (route.handle P cfg req s sv.accountState).state.flashes _)
  | work route => exact .ofDeliveries (writes_work hs (fun a ha => ⟨a, ha, rfl⟩) route sv.deliveries)
  | groups route => exact .ofGroups (writes_groups hs route sv.groups)
  | users route =>
      by_cases hlist : route = .list
      · rw [hlist]
        exact .refl
      obtain ⟨hmanages, hmine⟩ := hg.users route rfl hlist
      have hdone := writes_userEffect hmanages hmine (userEffect P route req s sv.tables)
      rw [PanelRoute.handle]
      generalize route.handle P req s sv.tables = out at hdone ⊢
      obtain ⟨⟨accounts, deliveries, groups⟩, response, audit, mail⟩ := out
      rcases hdone with ⟨haccounts, hdeliveries, hgroups⟩ | ⟨id, rfl, hdeleted⟩
      · obtain rfl : deliveries = sv.deliveries := hdeliveries
        obtain rfl : groups = sv.groups := hgroups
        exact .ofAccounts haccounts
      · cases hdeleted
        exact .single (.deleteAdmin sv hmanages (hmine id rfl))
  | audit => exact .refl

/-- A request to the panel reads its session, and may run its handler. -/
theorem panel_writes (r : PanelRequest) (sv : Server) (hg : Granted P cfg G sv (.panel r)) :
    ServerWrites G sv (panel P cfg r sv).state := by
  have hread := @writes_sessionMiddleware P G r.toRequest sv.accounts
  unfold panel
  dsimp only
  split
  · exact .ofAccounts hread
  rename_i s hs
  have hoffer := hread.trans (@writes_offerMiddleware P cfg G r s _)
  have hknown := known_writes hoffer (known_signed (LastFactor.requireAdmin_ok hs))
  refine (ServerWrites.ofAccounts hoffer).trans ?_
  unfold servePanel
  dsimp only
  split
  · exact .refl
  · rename_i hrefusal
    exact handle_writes hknown (hg s ⟨hs, hrefusal⟩)

/-- Every step of the server is a sequence of statements, and does what its input is granted. -/
theorem step_writes (sv : Server) (i : Input) (hg : Granted P cfg G sv i) :
    ServerWrites G sv (Server.step P cfg sv i).1 := by
  cases i with
  | deliver r =>
      refine Relation.ReflTransGen.tail ?_ (.memory _ sv.flashes _)
      refine (ServerWrites.ofAccounts (writes_sessionMiddleware (P := P) (G := G) r.toRequest
          sv.accounts)).trans ?_
      exact ServerWrites.ofDeliveries (writes_deliver r sv.deliveries)
  | visit r =>
      refine Relation.ReflTransGen.tail ?_ (.memory _ _ _)
      have hread := writes_sessionMiddleware (P := P) (G := G) r.toRequest sv.accounts
      unfold visit
      dsimp only
      split
      · exact ServerWrites.ofAccounts hread
      · exact ServerWrites.ofAccounts (hread.trans (writes_open r.route _ _ _ hg))
  | panel r => exact (panel_writes r sv hg).tail (.memory _ _ _)
  | cleanup run =>
      refine Relation.ReflTransGen.tail ?_ (.memory _ sv.flashes _)
      have hpurged : Writes G sv.accounts (purgeExpiredSessions run.now sv.accounts) :=
        writes_endSessions _ _
      refine (ServerWrites.ofAccounts hpurged).trans ?_
      exact ServerWrites.ofDeliveries (writes_cleanup run sv)
  | cli now draw command => exact .ofAccounts (writes_cli now draw command sv.accounts hg.1 hg.2)

end

end Statements

end Outletbox
