import Outletbox.Services.Auth
import Outletbox.Services.Cases

/-!
# Accounts, as the administrators manage them

The functions of `services/users.ts`.  Removing an account takes its case
assignments with it, and the account's name off what it created: `forgetAdmin`.
-/

namespace Outletbox

variable (P : Platform)

structure UserSummary where
  id : String
  username : String
  role : Role
  createdAt : Int
  lastLoginAt : Option Int
  disabledAt : Option Int
  mustChangePassword : Bool
  /-- Has a second factor: an authenticator app or a passkey. -/
  totpEnabled : Bool
  caseCount : Nat
  deriving DecidableEq

def userSummary (accounts : AccountDb) (deliveries : DeliveryDb) (a : AdminRow) : UserSummary where
  id := a.id
  username := a.username
  role := a.role
  createdAt := a.createdAt
  lastLoginAt := a.lastLoginAt
  disabledAt := a.disabledAt
  mustChangePassword := a.mustChangePassword
  totpEnabled := a.totpEnabledAt.isSome || accounts.passkeys.any (·.adminId == a.id)
  caseCount := deliveries.caseMembers.countP fun m => m.adminId == a.id

/-- `username COLLATE NOCASE`: the ASCII letters of either case are equal. -/
def noCase (s : String) : String := String.ofList (s.toList.map Char.toLower)

/-- `ORDER BY a.disabled_at IS NOT NULL, a.role, a.username COLLATE NOCASE`. -/
def userKey (a : AdminRow) : Nat × Nat × String :=
  (if a.disabledAt.isSome then 1 else 0, match a.role with | .admin => 0 | .user => 1,
    noCase a.username)

def userOrder (a b : AdminRow) : Prop :=
  let (disabled, role, name) := userKey a
  let (disabled', role', name') := userKey b
  disabled < disabled' ∨ disabled = disabled' ∧ (role < role' ∨ role = role' ∧ name ≤ name')

instance : DecidableRel userOrder := fun _ _ => inferInstanceAs (Decidable (_ ∨ _))

def listUsers (accounts : AccountDb) (deliveries : DeliveryDb) : List UserSummary :=
  (accounts.admins.insertionSort userOrder).map (userSummary accounts deliveries)

def getUser (id : String) (accounts : AccountDb) (deliveries : DeliveryDb) : Option UserSummary :=
  (listUsers accounts deliveries).find? (·.id == id)

/-- The role a form names. -/
def isRole : String → Option Role
  | "admin" => some .admin
  | "user" => some .user
  | _ => none

def activeAdminsOtherThan (id : String) (d : AccountDb) : Nat :=
  d.admins.countP fun a => a.role == .admin && a.disabledAt.isNone && a.id != id

/-- The account an action is about: it exists and is not the actor's own. -/
def requireUser (actorId id : String) (d : AccountDb) : Except Failure AdminRow :=
  match adminById id d with
  | none => .error (.user .usersMissing [])
  | some user => if user.id == actorId then .error (.user .usersNotSelf []) else .ok user

/-- A new account with a generated password, returned once. -/
def createUser (now : Int) (id salt password username : String) (role : Role) (d : AccountDb) :
    Except Failure (Admin × AccountDb) :=
  let username := trim username
  if !isValidUsername username then .error (.user .usersInvalidUsername [])
  else if (findAdminByUsername username d).isSome then
    .error (.user .usersExists [("username", username)])
  else createAdmin P now id salt ⟨username, password, role, true⟩ d

def setUserRole (actorId id : String) (role : Role) (d : AccountDb) :
    Except Failure (AdminRow × AccountDb) := do
  let user ← requireUser actorId id d
  if user.role = .admin ∧ role ≠ .admin ∧ activeAdminsOtherThan id d = 0 then
    .error (.user .usersLastAdmin [])
  else .ok (user, updateAdmin id (fun a => { a with role := role }) d)

/-- A disabled account cannot sign in and every session it had ends now. -/
def setUserDisabled (now : Int) (actorId id : String) (disabled : Bool) (d : AccountDb) :
    Except Failure (AdminRow × AccountDb) := do
  let user ← requireUser actorId id d
  if disabled = true ∧ user.role = .admin ∧ activeAdminsOtherThan id d = 0 then
    .error (.user .usersLastAdmin [])
  else
    let d := updateAdmin id (fun a => { a with
      disabledAt := if disabled then some now else none }) d
    .ok (user, if disabled then deletePanelSessions (fun s => s.adminId == id) d else d)

/-- A new temporary password; the old one and every session stop working. -/
def resetUserPassword (actorId id password salt : String) (d : AccountDb) :
    Except Failure (AdminRow × AccountDb) := do
  let user ← requireUser actorId id d
  let d := updateAdmin id (fun a => { a with
    passwordHash := hashPassword P password salt, mustChangePassword := true }) d
  .ok (user, deletePanelSessions (fun s => s.adminId == id) d)

/-- For a lost device: every second factor goes. -/
def resetUserTotp (actorId id : String) (d : AccountDb) : Except Failure (AdminRow × AccountDb) := do
  let user ← requireUser actorId id d
  .ok (user, resetSecondFactors P id d)

/-- `DELETE FROM admins WHERE id = ?`, with the rows of the account that go with it. -/
def deleteAdmin (id : String) (d : AccountDb) : AccountDb :=
  let d := deletePanelSessions (fun s => s.adminId == id) d
  { d with
    admins := Table.delete (fun a => a.id == id) d.admins
    recoveryCodes := Table.delete (fun c => c.adminId == id) d.recoveryCodes
    passkeys := Table.delete (fun p => p.adminId == id) d.passkeys }

/-- Removes the account, its sessions and its second factors. -/
def deleteUser (actorId id : String) (d : AccountDb) : Except Failure (AdminRow × AccountDb) := do
  let user ← requireUser actorId id d
  if user.role = .admin ∧ activeAdminsOtherThan id d = 0 then
    .error (.user .usersLastAdmin [])
  else .ok (user, deleteAdmin id d)

/-- What the removal of an account does to the deliveries: its case assignments
go, and its items keep existing without it. -/
def DeliveryDb.forgetAdmin (id : String) (d : DeliveryDb) : DeliveryDb :=
  { d with
    caseMembers := Table.delete (fun m => m.adminId == id) d.caseMembers
    items :=
      Table.update (fun i => i.createdBy == some id) (fun i => { i with createdBy := none })
        d.items }

/-- What the removal of an account does to the groups. -/
def GroupDb.forgetAdmin (id : String) (d : GroupDb) : GroupDb :=
  { d with
    groups :=
      Table.update (fun g => g.createdBy == some id) (fun g => { g with createdBy := none })
        d.groups }

/-! ## Case assignments -/

/-- A person in the lists of a case. -/
structure MemberSummary where
  id : String
  username : String
  role : Role
  disabledAt : Option Int
  deriving DecidableEq

/-- `ORDER BY a.username COLLATE NOCASE`. -/
def nameOrder (a b : AdminRow) : Prop := noCase a.username ≤ noCase b.username

instance : DecidableRel nameOrder := fun a b =>
  inferInstanceAs (Decidable (noCase a.username ≤ noCase b.username))

def memberSummary (a : AdminRow) : MemberSummary := ⟨a.id, a.username, a.role, a.disabledAt⟩

def caseMembers (caseId : String) (accounts : AccountDb) (deliveries : DeliveryDb) :
    List MemberSummary :=
  ((accounts.admins.filter fun a => isMember caseId a.id deliveries).insertionSort nameOrder).map
    memberSummary

/-- Accounts that could still be assigned to a case: active users not on it yet. -/
def assignableUsers (caseId : String) (accounts : AccountDb) (deliveries : DeliveryDb) :
    List MemberSummary :=
  ((accounts.admins.filter fun a => a.role == .user && a.disabledAt.isNone &&
    !isMember caseId a.id deliveries).insertionSort nameOrder).map memberSummary

end Outletbox
