import Outletbox.Services.Addresses
import Outletbox.Services.Users

/-!
# Address groups

The functions of `services/groups.ts`: named lists of people who usually receive
deliveries together.
-/

namespace Outletbox

structure Group where
  id : String
  name : String
  createdAt : Int
  updatedAt : Int
  members : List RecipientInput
  /-- The account that created it; null for groups kept by the administrators. -/
  createdBy : Option String
  createdByName : Option String
  deriving DecidableEq

/-- Changing or deleting a group is for the account that created it and for administrators. -/
def canEditGroup (viewer : Viewer) (group : Group) : Bool :=
  viewer.role == .admin || group.createdBy == some viewer.id

def validName (raw : String) : Except Failure String :=
  let name := trim raw
  if name == "" || 200 < utf16Length name then .error (.recipientList .groupsNameRequired [])
  else .ok name

def validMembers (members : List RecipientInput) : Except Failure (List RecipientInput) :=
  if members.isEmpty then .error (.recipientList .recipientsNone [])
  else if maxRecipients < members.length then .error tooMany
  else .ok members

def nameTaken (name : String) (exceptId : Option String) (d : GroupDb) : Bool :=
  match d.groups.find? fun g => noCase g.name == noCase name with
  | none => false
  | some row => some row.id != exceptId

/-- `ORDER BY position`. -/
def positionOrder (a b : GroupMember) : Prop := a.position ≤ b.position

instance : DecidableRel positionOrder := fun a b =>
  inferInstanceAs (Decidable (a.position ≤ b.position))

def membersOf (groupId : String) (d : GroupDb) : List RecipientInput :=
  ((d.members.filter fun m => m.groupId == groupId).insertionSort positionOrder).map
    fun m => ⟨m.email, m.lang⟩

/-- The rows `writeMembers` inserts; `none` when an address stands there twice. -/
def memberRows (groupId : String) (members : List RecipientInput) : Option (List GroupMember) :=
  if (members.map (·.email)).Nodup then
    some (members.zipIdx.map fun m => ⟨groupId, m.1.email, m.1.lang, m.2⟩)
  else none

def writeMembers (groupId : String) (members : List RecipientInput) (d : GroupDb) :
    Except Failure GroupDb :=
  match memberRows groupId members with
  | none => .error .constraint
  | some rows => .ok { d with
      members := Table.delete (fun m => m.groupId == groupId) d.members ++ rows }

/-- A row with its members and the name of its creator. -/
def groupOf (accounts : AccountDb) (d : GroupDb) (row : GroupRow) : Group where
  id := row.id
  name := row.name
  createdAt := row.createdAt
  updatedAt := row.updatedAt
  members := membersOf row.id d
  createdBy := row.createdBy
  createdByName := (row.createdBy.bind fun id => adminById id accounts).map (·.username)

def getGroup (id : String) (accounts : AccountDb) (d : GroupDb) : Option Group :=
  (d.groups.find? (·.id == id)).map (groupOf accounts d)

/-- `ORDER BY g.name COLLATE NOCASE`. -/
def groupOrder (a b : GroupRow) : Prop := noCase a.name ≤ noCase b.name

instance : DecidableRel groupOrder := fun a b =>
  inferInstanceAs (Decidable (noCase a.name ≤ noCase b.name))

def listGroups (accounts : AccountDb) (d : GroupDb) : List Group :=
  (d.groups.insertionSort groupOrder).map (groupOf accounts d)

/-- Members of the chosen group, or nothing when no (or an unknown) group was chosen. -/
def groupMembers (id : Option String) (accounts : AccountDb) (d : GroupDb) : List RecipientInput :=
  ((id.bind fun id => getGroup id accounts d).map (·.members)).getD []

def createGroup (now : Int) (id : String) (name : String) (members : List RecipientInput)
    (createdBy : Option String) (d : GroupDb) : Except Failure (String × GroupDb) := do
  let name ← validName name
  let members ← validMembers members
  if nameTaken name none d then .error (.recipientList .groupsNameTaken [])
  else if d.groups.any (·.id == newId "g" id) then .error .constraint
  else
    let row : GroupRow := ⟨newId "g" id, name, now, now, createdBy⟩
    let d ← writeMembers row.id members { d with groups := d.groups ++ [row] }
    .ok (row.id, d)

def updateGroup (now : Int) (id name : String) (members : List RecipientInput) (d : GroupDb) :
    Except Failure GroupDb := do
  let name ← validName name
  let members ← validMembers members
  if nameTaken name (some id) d then .error (.recipientList .groupsNameTaken [])
  else writeMembers id members { d with
    groups :=
      Table.update (fun g => g.id == id) (fun g => { g with name := name, updatedAt := now })
        d.groups }

def deleteGroup (id : String) (d : GroupDb) : GroupDb :=
  { groups := Table.delete (fun g => g.id == id) d.groups
    members := Table.delete (fun m => m.groupId == id) d.members }

end Outletbox
