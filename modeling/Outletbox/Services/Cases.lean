import Outletbox.Crypto
import Outletbox.Db
import Outletbox.Library.Table
import Outletbox.Time

/-!
# Cases and who may work on them

The functions of `services/cases.ts`, and the case assignments of
`services/users.ts`.
-/

namespace Outletbox

/-- Who is asking: enough of a session to decide what it may see. -/
structure Viewer where
  id : String
  role : Role
  deriving DecidableEq

def getCase (id : String) (d : DeliveryDb) : Option Case := d.cases.find? (·.id == id)

def createCase (now : Int) (id name description : String) (d : DeliveryDb) :
    Except Failure (Case × DeliveryDb) :=
  let name := trim name
  if name == "" || 200 < utf16Length name then
    .error (.error "Case name must be 1-200 characters")
  else
    let c : Case := ⟨newId "c" id, name, slice 5000 (trim description), .isOpen, now, now⟩
    if d.cases.any (·.id == c.id) then .error .constraint
    else .ok (c, { d with cases := d.cases ++ [c] })

/-- A case with the counts of the list of cases. -/
structure CaseSummary where
  case : Case
  linkCount : Nat
  itemCount : Nat
  totalBytes : Nat
  deriving DecidableEq

def summary (d : DeliveryDb) (c : Case) : CaseSummary where
  case := c
  linkCount := d.links.countP fun l => l.caseId == c.id && l.revokedAt.isNone
  itemCount := d.items.countP fun i => i.caseId == c.id && i.status == .ready
  totalBytes := ((d.items.filter fun i => i.caseId == c.id && i.status == .ready).map
    fun i => i.size.getD 0).sum

/-- `ORDER BY c.status = 'open' DESC, c.created_at DESC`. -/
def caseOrder (a b : Case) : Prop :=
  (b.status = .isOpen → a.status = .isOpen) ∧
    (a.status = b.status → isoLe b.createdAt a.createdAt)

instance : DecidableRel caseOrder := fun _ _ => inferInstanceAs (Decidable (_ ∧ _))

def isMember (caseId adminId : String) (d : DeliveryDb) : Bool :=
  d.caseMembers.any fun m => m.caseId == caseId && m.adminId == adminId

/-- Every case for an administrator; only the assigned ones for a user. -/
def listCases (viewer : Viewer) (d : DeliveryDb) : List CaseSummary :=
  let seen := d.cases.filter fun c => viewer.role == .admin || isMember c.id viewer.id d
  (seen.insertionSort caseOrder).map (summary d)

/-- What a caller of `updateCase` passes; `none` keeps the column. -/
structure CaseUpdate where
  name : Option String := none
  description : Option String := none
  status : Option CaseStatus := none

def updateCase (now : Int) (id : String) (input : CaseUpdate) (d : DeliveryDb) :
    Except Failure (Option Case × DeliveryDb) :=
  match getCase id d with
  | none => .ok (none, d)
  | some c =>
      let name := (input.name.map trim).getD c.name
      if name == "" || 200 < utf16Length name then
        .error (.error "Case name must be 1-200 characters")
      else
        let description := (input.description.map fun s => slice 5000 (trim s)).getD c.description
        let status := input.status.getD c.status
        let d := { d with
          cases := Table.update (fun x => x.id == id)
            (fun x => { x with
              name := name, description := description, status := status, updatedAt := now })
            d.cases }
        .ok (getCase id d, d)

/-- The one access rule: administrators see every case, users the ones they are assigned to. -/
def canAccessCase (viewer : Viewer) (caseId : String) (d : DeliveryDb) : Bool :=
  viewer.role == .admin || isMember caseId viewer.id d

/-- `INSERT OR IGNORE`: false when the account was already assigned. -/
def addCaseMember (now : Int) (caseId adminId : String) (d : DeliveryDb) : Bool × DeliveryDb :=
  if isMember caseId adminId d then (false, d)
  else (true, { d with caseMembers := d.caseMembers ++ [⟨caseId, adminId, now⟩] })

def removeCaseMember (caseId adminId : String) (d : DeliveryDb) : Bool × DeliveryDb :=
  (isMember caseId adminId d, { d with
    caseMembers := Table.delete (fun m => m.caseId == caseId && m.adminId == adminId)
      d.caseMembers })

/-! ## What the statements leave behind -/

theorem createCase_ok {now : Int} {id name description : String} {d d' : DeliveryDb} {c : Case}
    (h : createCase now id name description d = .ok (c, d')) :
    c.id = newId "c" id ∧ c.status = .isOpen ∧ d' = { d with cases := d.cases ++ [c] } := by
  simp only [createCase] at h
  split at h
  · cases h
  · split at h
    · cases h
    · cases h
      exact ⟨rfl, rfl, rfl⟩

/-- `updateCase` finds no case, or rewrites the columns of one. -/
theorem updateCase_ok {now : Int} {id : String} {input : CaseUpdate} {r : Option Case}
    {d d' : DeliveryDb} (h : updateCase now id input d = .ok (r, d')) :
    (r = none ∧ d' = d) ∨ ∃ c name description, getCase id d = some c ∧ r.isSome = true ∧
      d' = { d with
        cases := Table.update (fun x => x.id == id)
          (fun x => { x with
            name := name, description := description, status := input.status.getD c.status,
            updatedAt := now }) d.cases } := by
  unfold updateCase at h
  cases hc : getCase id d with
  | none =>
      rw [hc] at h
      cases h
      exact .inl ⟨rfl, rfl⟩
  | some c =>
      rw [hc] at h
      simp only [] at h
      split at h
      · cases h
      · obtain ⟨rfl, rfl⟩ := Prod.mk.inj (Except.ok.inj h)
        refine .inr ⟨c, _, _, rfl, ?_, rfl⟩
        obtain ⟨hmem, hid⟩ : c ∈ d.cases ∧ (c.id == id) = true :=
          ⟨List.mem_of_find?_eq_some hc, List.find?_some (p := fun x : Case => x.id == id) hc⟩
        rw [getCase, List.find?_isSome]
        exact ⟨_, Table.mem_update.2 ⟨c, hmem, if_pos hid⟩, hid⟩

end Outletbox
