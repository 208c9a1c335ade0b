import Outletbox.Http.Cases

/-!
# Address groups, accounts and the audit log

The routes of `http/admin.ts` on the address groups, which anyone in the panel
may use, and on the accounts and the audit log, which are the administrators'
alone.
-/

namespace Outletbox

variable (P : Platform)

/-! ## Address groups -/

def renderGroups (req : Request) (s : Signed) (accounts : AccountDb) (notice : Notice)
    (draft : Option GroupDraft) (status : Nat) (g : GroupDb) : Response PanelPage :=
  { status := status, page := .groups (s.view P req) (listGroups accounts g) notice draft }

/-- What the group form was trying to save, so an error does not throw the typing away. -/
def groupDraft (req : Request) (id : Option String) : GroupDraft :=
  ⟨id, req.field "name", req.field "recipients"⟩

/-- The members the group form names. -/
def groupFormMembers (req : Request) : Except Failure (List RecipientInput) :=
  requireRecipients P (req.field "recipients") (formLang P req) []

/-- An audit event about a group. -/
def Signed.groupEvent (s : Signed) (req : Request) (action : String) (group : Group)
    (members : List (String × AuditValue)) : AuditEvent :=
  s.event req action ([("group", .text group.id), ("name", .text group.name)] ++ members)

/-- The members of an audit event, counted. -/
def memberDetail (group : Group) : List (String × AuditValue) :=
  [("members", .number group.members.length)]

/-- The group behind a path, for an account that may change it. -/
def editableGroup (id : String) (req : Request) (s : Signed) (accounts : AccountDb) (g : GroupDb)
    (f : Group → Outcome GroupDb PanelPage) : Outcome GroupDb PanelPage :=
  let failed (key : MessageKey) (status : Nat) : Outcome GroupDb PanelPage :=
    refuse g (renderGroups P req s accounts { error := some (t (req.lang P) key) } none status g)
  match (validId id).bind fun id => getGroup id accounts g with
  | none => failed .groupsMissing 404
  | some group => if !canEditGroup s.viewer group then failed .groupsNotYours 403 else f group

/-- The groups page with what went wrong and the typing. -/
def groupFailed (req : Request) (s : Signed) (accounts : AccountDb) (id : Option String)
    (e : Failure) (g : GroupDb) : Outcome GroupDb PanelPage :=
  refuse g (renderGroups P req s accounts { error := some (errorText (req.lang P) e) }
    (some (groupDraft req id)) 400 g)

/-- The groups page after a group was saved. -/
def groupSaved (req : Request) (s : Signed) (accounts : AccountDb) (id action : String)
    (key : MessageKey) (g : GroupDb) : Outcome GroupDb PanelPage :=
  match getGroup id accounts g with
  | none => refuse g serverError
  | some group =>
      { state := g
        response := renderGroups P req s accounts
          { ok := some (.message (req.lang P) key [("name", group.name)]) } none 200 g
        audit := [s.groupEvent req action group (memberDetail group)] }

/-- `POST /groups`. -/
def postGroup (req : Request) (s : Signed) (accounts : AccountDb) (g : GroupDb) :
    Outcome GroupDb PanelPage :=
  let created := do
    let members ← groupFormMembers P req
    createGroup req.now req.random.id (req.field "name") members (some s.admin.id) g
  match created with
  | .error e => groupFailed P req s accounts none e g
  | .ok (id, g) => groupSaved P req s accounts id "group.create" .groupsCreated g

/-- `POST /groups/:id`. -/
def postGroupUpdate (id : String) (req : Request) (s : Signed) (accounts : AccountDb)
    (g : GroupDb) : Outcome GroupDb PanelPage :=
  editableGroup P id req s accounts g fun group =>
    let updated := do
      let members ← groupFormMembers P req
      updateGroup req.now group.id (req.field "name") members g
    match updated with
    | .error e => groupFailed P req s accounts (some group.id) e g
    | .ok g => groupSaved P req s accounts group.id "group.update" .groupsSaved g

/-- `POST /groups/:id/delete`. -/
def postGroupDelete (id : String) (req : Request) (s : Signed) (accounts : AccountDb)
    (g : GroupDb) : Outcome GroupDb PanelPage :=
  editableGroup P id req s accounts g fun group =>
    let g := deleteGroup group.id g
    { state := g
      response := renderGroups P req s accounts
        { ok := some (.message (req.lang P) .groupsDeleted [("name", group.name)]) } none 200 g
      audit := [s.groupEvent req "group.delete" group []] }

/-- Routes of a complete session, on the address groups. -/
inductive GroupRoute
  | list | create
  | update (id : String)
  | delete (id : String)
  deriving DecidableEq

def GroupRoute.method (r : GroupRoute) : Method := if r = .list then .get else .post

def GroupRoute.handle (route : GroupRoute) (req : Request) (s : Signed) (accounts : AccountDb)
    (g : GroupDb) : Outcome GroupDb PanelPage :=
  match route with
  | .list => refuse g (renderGroups P req s accounts {} none 200 g)
  | .create => postGroup P req s accounts g
  | .update id => postGroupUpdate P id req s accounts g
  | .delete id => postGroupDelete P id req s accounts g

/-! ## Accounts -/

/-- The tables the account routes of the administrators work on: what they remove
with an account stands in all three parts. -/
structure Tables where
  accounts : AccountDb
  deliveries : DeliveryDb
  groups : GroupDb
  deriving DecidableEq

def renderUsers (req : Request) (s : Signed) (notice : Notice) (issued : Option IssuedPassword)
    (status : Nat) (db : Tables) : Response PanelPage :=
  { status := status
    page := .users (s.view P req) (listUsers db.accounts db.deliveries) notice issued }

/-- `userErrorText`, with the page that shows it; any other error is thrown on. -/
def userFailed (req : Request) (s : Signed) (e : Failure) (db : Tables) :
    Outcome Tables PanelPage :=
  match e with
  | .user key params =>
      refuse db (renderUsers P req s { error := some (.message (req.lang P) key params) } none 400
        db)
  | _ => refuse db serverError

/-- A role as the form and the audit log name it. -/
def Role.text (role : Role) : String :=
  match role with
  | .admin => "admin"
  | .user => "user"

/-- `POST /users`. -/
def postUser (req : Request) (s : Signed) (db : Tables) : Outcome Tables PanelPage :=
  let role := (isRole (req.field "role")).getD .user
  match createUser P req.now req.random.id req.random.salt req.random.password
      (req.field "username") role db.accounts with
  | .error e => userFailed P req s e db
  | .ok (user, accounts) =>
      let db := { db with accounts := accounts }
      { state := db
        -- the password is shown once, in this response, and never stored in clear
        response := renderUsers P req s {} (some ⟨user.username, req.random.password, false⟩) 200 db
        audit := [s.event req "user.create"
          [("user", .text user.id), ("username", .text user.username),
            ("role", .text user.role.text)]] }

/-- What an action on an account did. -/
structure UserDone where
  user : AdminRow
  ok : Text
  details : List (String × AuditValue) := []
  issued : Option IssuedPassword := none

/-- One account action: runs it, audits it, and redraws the list with the outcome. -/
def userAction (action id : String) (req : Request) (s : Signed)
    (f : String → Tables → Except Failure (UserDone × Tables)) (db : Tables) :
    Outcome Tables PanelPage :=
  match validId id with
  | none =>
      refuse db (renderUsers P req s { error := some (t (req.lang P) .usersMissing) } none 404 db)
  | some id =>
      match f id db with
      | .error e => userFailed P req s e db
      | .ok (done, db) =>
          { state := db
            response := renderUsers P req s { ok := some done.ok } done.issued 200 db
            audit := [s.event req action
              ([("user", .text done.user.id), ("username", .text done.user.username)] ++
                done.details)] }

/-- An action on the account tables alone. -/
def onAccounts (done : AdminRow → UserDone) (r : Except Failure (AdminRow × AccountDb))
    (db : Tables) : Except Failure (UserDone × Tables) := do
  let (user, accounts) ← r
  .ok (done user, { db with accounts := accounts })

/-- The message about an account. -/
def userText (req : Request) (key : MessageKey) (user : AdminRow) : Text :=
  .message (req.lang P) key [("username", user.username)]

def roleAction (req : Request) (s : Signed) (id : String) (db : Tables) :
    Except Failure (UserDone × Tables) :=
  match isRole (req.field "role") with
  | none => .error (.user .usersInvalidRole [])
  | some role =>
      let done (user : AdminRow) : UserDone :=
        { user := user
          ok := .message (req.lang P) .usersRoleChanged
            [("username", user.username), ("role", role.text)]
          details := [("role", .text role.text)] }
      onAccounts done (setUserRole s.admin.id id role db.accounts) db

def passwordAction (req : Request) (s : Signed) (id : String) (db : Tables) :
    Except Failure (UserDone × Tables) :=
  let done (user : AdminRow) : UserDone :=
    { user := user, ok := userText P req .usersPasswordReset user
      issued := some ⟨user.username, req.random.password, true⟩ }
  onAccounts done
    (resetUserPassword P s.admin.id id req.random.password req.random.salt db.accounts) db

def totpAction (req : Request) (s : Signed) (id : String) (db : Tables) :
    Except Failure (UserDone × Tables) :=
  onAccounts (fun user => { user := user, ok := userText P req .usersTotpReset user })
    (resetUserTotp P s.admin.id id db.accounts) db

/-- `disable` and `enable`. -/
def disableAction (disabled : Bool) (req : Request) (s : Signed) (id : String) (db : Tables) :
    Except Failure (UserDone × Tables) :=
  let key := if disabled then MessageKey.usersDisabled else .usersEnabled
  onAccounts (fun user => { user := user, ok := userText P req key user })
    (setUserDisabled req.now s.admin.id id disabled db.accounts) db

def deleteAction (req : Request) (s : Signed) (id : String) (db : Tables) :
    Except Failure (UserDone × Tables) := do
  let (user, accounts) ← deleteUser s.admin.id id db.accounts
  .ok ({ user := user, ok := userText P req .usersDeleted user },
    ⟨accounts, db.deliveries.forgetAdmin id, db.groups.forgetAdmin id⟩)

/-- Routes of an administrator, on the accounts. -/
inductive UserRoute
  | list | create
  | role (id : String)
  | password (id : String)
  | totp (id : String)
  | disable (id : String)
  | enable (id : String)
  | delete (id : String)
  deriving DecidableEq

def UserRoute.method (r : UserRoute) : Method := if r = .list then .get else .post

/-- The routes behind `requireConfirmed`, with the place to go back to. -/
def UserRoute.back (r : UserRoute) : Option String := if r = .list then none else some "/admin/users"

def UserRoute.handle (route : UserRoute) (req : Request) (s : Signed) (db : Tables) :
    Outcome Tables PanelPage :=
  match route with
  | .list => refuse db (renderUsers P req s {} none 200 db)
  | .create => postUser P req s db
  | .role id => userAction P "user.role" id req s (roleAction P req s) db
  | .password id => userAction P "user.password_reset" id req s (passwordAction P req s) db
  | .totp id => userAction P "user.totp_reset" id req s (totpAction P req s) db
  | .disable id => userAction P "user.disable" id req s (disableAction P true req s) db
  | .enable id => userAction P "user.enable" id req s (disableAction P false req s) db
  | .delete id => userAction P "user.delete" id req s (deleteAction P req s) db

/-- The effects of a request to an account route on the tables it started with. -/
inductive UserEffect (P : Platform) (req : Request) (s : Signed) (db : Tables) :
    UserRoute → Tables → Prop
  /-- Nothing is written. -/
  | idle (route : UserRoute) : UserEffect P req s db route db
  | created {role : Role} {user : Admin} {accounts : AccountDb} :
      createUser P req.now req.random.id req.random.salt req.random.password
        (req.field "username") role db.accounts = .ok (user, accounts) →
      UserEffect P req s db .create { db with accounts := accounts }
  | role {id : String} {role : Role} {user : AdminRow} {accounts : AccountDb} :
      setUserRole s.admin.id id role db.accounts = .ok (user, accounts) →
      UserEffect P req s db (.role id) { db with accounts := accounts }
  | password {id : String} {user : AdminRow} {accounts : AccountDb} :
      resetUserPassword P s.admin.id id req.random.password req.random.salt db.accounts =
        .ok (user, accounts) →
      UserEffect P req s db (.password id) { db with accounts := accounts }
  | totp {id : String} {user : AdminRow} {accounts : AccountDb} :
      resetUserTotp P s.admin.id id db.accounts = .ok (user, accounts) →
      UserEffect P req s db (.totp id) { db with accounts := accounts }
  | disabled {route : UserRoute} {id : String} {disabled : Bool} {user : AdminRow}
      {accounts : AccountDb} : route = .disable id ∨ route = .enable id →
      setUserDisabled req.now s.admin.id id disabled db.accounts = .ok (user, accounts) →
      UserEffect P req s db route { db with accounts := accounts }
  /-- The account goes, and its name off what it created. -/
  | deleted {id : String} {user : AdminRow} {accounts : AccountDb} :
      deleteUser s.admin.id id db.accounts = .ok (user, accounts) →
      UserEffect P req s db (.delete id)
        ⟨accounts, db.deliveries.forgetAdmin id, db.groups.forgetAdmin id⟩

section

variable {P : Platform} {req : Request} {s : Signed} {db : Tables}

theorem userFailed_state (e : Failure) : (userFailed P req s e db).state = db := by
  unfold userFailed
  split <;> rfl

theorem userFailed_status (e : Failure) : (userFailed P req s e db).response.status ≠ 200 := by
  unfold userFailed
  split
  · exact (by decide : 400 ≠ 200)
  · exact (by decide : 500 ≠ 200)

/-- An action on an account either fails and leaves the tables, or runs, and its answer tells
which. -/
theorem userAction_state {action id : String}
    {f : String → Tables → Except Failure (UserDone × Tables)} :
    (userAction P action id req s f db).state = db ∧
        (userAction P action id req s f db).response.status ≠ 200 ∨
      (∃ done, f id db = .ok (done, (userAction P action id req s f db).state)) ∧
        (userAction P action id req s f db).response.status = 200 := by
  unfold userAction
  cases hv : validId id with
  | none => exact .inl ⟨rfl, (by decide : 404 ≠ 200)⟩
  | some x =>
      have hx : x = id := by
        unfold validId at hv
        split at hv
        · exact (Option.some.inj hv).symm
        · cases hv
      subst hx
      simp only []
      cases hf : f x db with
      | error e => exact .inl ⟨userFailed_state e, userFailed_status e⟩
      | ok done => exact .inr ⟨⟨done.1, rfl⟩, rfl⟩

theorem onAccounts_ok {done : AdminRow → UserDone} {x : Except Failure (AdminRow × AccountDb)}
    {done' : UserDone} {db' : Tables} (h : onAccounts done x db = .ok (done', db')) :
    ∃ user accounts, x = .ok (user, accounts) ∧ db' = { db with accounts := accounts } := by
  obtain ⟨⟨user, accounts⟩, hx, h⟩ := Fallible.bind_eq_ok.1 h
  cases h
  exact ⟨user, accounts, hx, rfl⟩

/-- What any request to an account route does to the tables. -/
theorem userEffect (P : Platform) (route : UserRoute) (req : Request) (s : Signed) (db : Tables) :
    UserEffect P req s db route (route.handle P req s db).state := by
  have hact : ∀ {action id : String} {f : String → Tables → Except Failure (UserDone × Tables)}
      {route : UserRoute},
      (∀ done db', f id db = .ok (done, db') → UserEffect P req s db route db') →
      UserEffect P req s db route (userAction P action id req s f db).state := by
    intro action id f route hf
    rcases userAction_state (P := P) (s := s) (f := f) with ⟨h, -⟩ | ⟨⟨done, h⟩, -⟩
    · rw [h]
      exact .idle route
    · exact hf done _ h
  cases route with
  | list => exact .idle _
  | create =>
      simp only [UserRoute.handle, postUser]
      split
      · rw [userFailed_state]
        exact .idle _
      · rename_i h
        exact .created h
  | role id =>
      refine hact fun done db' h => ?_
      unfold roleAction at h
      split at h
      · cases h
      · obtain ⟨user, accounts, hx, rfl⟩ := onAccounts_ok h
        exact .role hx
  | password id =>
      refine hact fun done db' h => ?_
      unfold passwordAction at h
      obtain ⟨user, accounts, hx, rfl⟩ := onAccounts_ok h
      exact .password hx
  | totp id =>
      refine hact fun done db' h => ?_
      unfold totpAction at h
      obtain ⟨user, accounts, hx, rfl⟩ := onAccounts_ok h
      exact .totp hx
  | disable id =>
      refine hact fun done db' h => ?_
      unfold disableAction at h
      obtain ⟨user, accounts, hx, rfl⟩ := onAccounts_ok h
      exact .disabled (.inl rfl) hx
  | enable id =>
      refine hact fun done db' h => ?_
      unfold disableAction at h
      obtain ⟨user, accounts, hx, rfl⟩ := onAccounts_ok h
      exact .disabled (.inr rfl) hx
  | delete id =>
      refine hact fun done db' h => ?_
      obtain ⟨⟨user, accounts⟩, hx, h⟩ := Fallible.bind_eq_ok.1 h
      cases h
      exact .deleted hx

end

/-! ## The audit log -/

/-- `listAudit(db, 300)`. -/
def listAudit (accounts : AccountDb) (log : List AuditRow) : List AuditEntry :=
  (log.reverse.take 300).map fun row =>
    let actor := if row.event.actorType = .admin then row.event.actorId else none
    ⟨row, (actor.bind fun id => adminById id accounts).map (·.username)⟩

/-- `GET /audit`. -/
def auditPage (req : Request) (s : Signed) (accounts : AccountDb) (log : List AuditRow) :
    Response PanelPage :=
  { status := 200, page := .audit (s.view P req) (listAudit accounts log) }

end Outletbox
