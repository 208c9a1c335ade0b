import Outletbox.Library.Checks
import Outletbox.ServerStatements

/-!
# What the forms refuse is never stored

Every check a service makes of a name, a text, a limit or an address holds of
all rows of the database at any time: no later statement brings in what an
earlier check kept out.
-/

namespace Outletbox

namespace Validity

open Statements
open Table (Check AtMost)

variable (P : Platform) (cfg : Config)

structure ValidAccounts (d : AccountDb) : Prop where
  usernames : Check (fun a : AdminRow => isValidUsername a.username = true) d.admins
  passkeys : Check PasskeyRow.Valid d.passkeys
  fewPasskeys : AtMost maxPasskeys (fun k : PasskeyRow => k.adminId) d.passkeys

structure ValidDeliveries (d : DeliveryDb) : Prop where
  cases : Check Case.Valid d.cases
  items : Check ItemRow.Valid d.items
  links : Check Link.Valid d.links
  people : Check (fun r : LinkRecipient => isValidEmail r.email = true) d.linkRecipients

structure ValidGroups (g : GroupDb) : Prop where
  names : Check (fun x : GroupRow => IsName x.name) g.groups
  members : Check (fun m : GroupMember => isValidEmail m.email = true) g.members
  fewMembers : AtMost maxRecipients (fun m : GroupMember => m.groupId) g.members

/-- Every row is one the forms would take. -/
structure Valid (sv : Server) : Prop where
  accounts : ValidAccounts sv.accounts
  deliveries : ValidDeliveries sv.deliveries
  groups : ValidGroups sv.groups

section

variable {P} {cfg} {G : Grant} {known : String → Prop} {d d' : AccountDb} {e e' : DeliveryDb}
  {g g' : GroupDb} {sv sv' : Server}

/-- An update of a passkey keeps its columns valid, and a new one was checked. -/
theorem valid_accountWrite (hv : ValidAccounts d) (h : AccountWrite G d d') :
    ValidAccounts d' := by
  cases h with
  | admins d hf =>
      exact { hv with usernames := hv.usernames.update fun a _ ha => by rwa [(hf a).2.1] }
  | role d _ hf =>
      exact { hv with usernames := hv.usernames.update fun a _ ha => by rwa [(hf a).2] }
  | newAdmin d _ _ hname => exact { hv with usernames := hv.usernames.append_row hname }
  | sessions => exact { hv with }
  | newSession h =>
      obtain ⟨rfl, -, -⟩ := insertSession_ok h
      exact { hv with }
  | endSessions => exact { hv with }
  | codes => exact { hv with }
  | newCodes => exact { hv with }
  | dropCodes => exact { hv with }
  | passkeys d hf _ hvalid =>
      exact { hv with
        passkeys := hv.passkeys.update fun k _ hk => hvalid k hk
        fewPasskeys := hv.fewPasskeys.update fun k => (hf k).2.2 }
  | newPasskey d _ _ _ hvalid hroom =>
      exact { hv with
        passkeys := hv.passkeys.append_row hvalid
        fewPasskeys := hv.fewPasskeys.append_row hroom }
  | dropPasskeys d =>
      exact { hv with
        passkeys := hv.passkeys.delete
        fewPasskeys := hv.fewPasskeys.delete }
  | bindings => exact { hv with }
  | newBinding => exact { hv with }

/-- Rows are valid when they go in, and each update keeps them so. -/
theorem valid_deliveryWrite (hv : ValidDeliveries e) (h : DeliveryWrite known e e') :
    ValidDeliveries e' := by
  cases h with
  | cases e _ hvalid =>
      exact { hv with cases := hv.cases.update fun c _ _ => hvalid hv.cases c }
  | newCase e _ hvalid => exact { hv with cases := hv.cases.append_row hvalid }
  | newMember => exact { hv with }
  | dropMembers => exact { hv with }
  | items e _ hvalid => exact { hv with items := hv.items.update hvalid }
  | newItem e _ _ _ hvalid => exact { hv with items := hv.items.append_row hvalid }
  | links e _ hvalid => exact { hv with links := hv.links.update hvalid }
  | newToken e _ _ hvalid => exact { hv with links := hv.links.update fun l _ => hvalid l }
  | newLink e _ _ hvalid => exact { hv with links := hv.links.append_row hvalid }
  | people e hf =>
      exact { hv with people := hv.people.update fun r _ hr => by rwa [(hf r).2.2] }
  | newPerson e _ _ hvalid => exact { hv with people := hv.people.append_row hvalid }
  | deletePerson => exact { hv with people := hv.people.delete }
  | codes => exact { hv with }
  | newCode => exact { hv with }
  | dropCodes => exact { hv with }
  | newAccess => exact { hv with }
  | dropAccess => exact { hv with }

/-- A group's name and people are checked before they are written. -/
theorem valid_groupWrite (hv : ValidGroups g) (h : GroupWrite known g g') : ValidGroups g' := by
  cases h with
  | newGroup g _ _ _ hname => exact { hv with names := hv.names.append_row hname }
  | rename g _ hf hname =>
      exact { hv with names := hv.names.update fun x _ _ => by rwa [(hf x).2.2] }
  | @members id people g g' _ h hvalid hmax =>
      unfold writeMembers memberRows at h
      split at h
      · cases h
      rename_i rows hrows
      cases h
      split at hrows
      · obtain rfl := Option.some.inj hrows
        refine { hv with
          members := hv.members.delete.append fun m hm => ?_
          fewMembers := hv.fewMembers.replace (fun m hm => ?_) ?_ }
        · obtain ⟨⟨r, n⟩, hr, rfl⟩ := List.mem_map.1 hm
          exact hvalid r ((List.mem_zipIdx' hr).2 ▸ List.getElem_mem _)
        · obtain ⟨_, -, rfl⟩ := List.mem_map.1 hm
          rfl
        · rw [List.length_map, List.length_zipIdx]
          exact hmax
      · cases hrows
  | deleteGroup =>
      exact {
        names := hv.names.delete
        members := hv.members.delete
        fewMembers := hv.fewMembers.delete }

theorem valid_write (hv : Valid sv) (h : ServerWrite G sv sv') : Valid sv' := by
  cases h with
  | accounts sv h => exact { hv with accounts := valid_accountWrite hv.accounts h }
  | deliveries sv h => exact { hv with deliveries := valid_deliveryWrite hv.deliveries h }
  | groups sv h => exact { hv with groups := valid_groupWrite hv.groups h }
  | deleteAdmin sv =>
      exact {
        accounts := {
          usernames := hv.accounts.usernames.delete
          passkeys := hv.accounts.passkeys.delete
          fewPasskeys := hv.accounts.fewPasskeys.delete }
        deliveries := { hv.deliveries with
          items := hv.deliveries.items.update fun _ _ hi => { hi with } }
        groups := { hv.groups with
          names := hv.groups.names.update fun _ _ hx => hx } }
  | memory => exact { hv with }

theorem valid_writes (hv : Valid sv) (h : ServerWrites G sv sv') : Valid sv' := by
  induction h with
  | refl => exact hv
  | tail _ hlast ih => exact valid_write ih hlast

theorem valid_empty : Valid .empty where
  accounts := ⟨.nil _, .nil _, .nil _ _⟩
  deliveries := ⟨.nil _, .nil _, .nil _, .nil _⟩
  groups := ⟨.nil _, .nil _, .nil _ _⟩

/-- One step of the server. -/
theorem valid_step (hv : Valid sv) (i : Input) : Valid (Server.step P cfg sv i).1 :=
  valid_writes hv (step_writes sv i (granted_all sv i))

/-- Whatever is sent to the server, every row it stores is one the forms would take. -/
theorem rows_are_valid {env : List ServerEvent → Server → Input → Prop} {sv₀ : Server}
    (h₀ : Valid sv₀) {h : List ServerEvent} (hr : History.Run (Server.step P cfg) env sv₀ h sv) :
    Valid sv :=
  hr.invariant (I := fun _ sv => Valid sv) h₀ fun _ _ i _ _ hv => valid_step hv i

end

/-- `root` sends a delivery with a note and a file, and keeps a group of addresses. -/
def filledScript : List Input :=
  deliveryScript ++
    [.panel (samplePanel 5 "sid" 'T' (.work (.note (newId "c" sampleId)))
        [("title", "Note"), ("body", "Text")]),
      .panel { samplePanel 6 "sid" 'T'
          (.work (.upload (newId "c" sampleId) "..%2fa.txt" none (.stored 3 none))) [] with
        csrfHeader := some "csrf" },
      .panel (samplePanel 7 "sid" 'T' (.groups .create)
        [("name", "Friends"), ("recipients", "a@b.example, c@d.example de")])]

theorem rows_are_valid_filled :
    let run := History.replay (Server.step .sample defaultConfig) [] .empty filledScript
    Valid run.2 ∧ run.2.deliveries.items.length = 2 ∧ run.2.groups.members.length = 2 := by
  have hr : History.Run (Server.step .sample defaultConfig) (fun _ _ _ => True) .empty
      (History.replay (Server.step .sample defaultConfig) [] .empty filledScript).1
      (History.replay (Server.step .sample defaultConfig) [] .empty filledScript).2 :=
    History.run_replay .start (History.admits_of_forall (fun _ _ _ => trivial) _ _ _)
  exact ⟨rows_are_valid valid_empty hr, by decide +kernel, by decide +kernel⟩

end Validity

end Outletbox
