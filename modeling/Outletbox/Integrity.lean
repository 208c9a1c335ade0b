import Outletbox.ServerStatements

/-!
# The constraints of the schema

`PRIMARY KEY`, `UNIQUE` and `REFERENCES`, as the migrations declare them, hold of
every state a server reaches from a fresh database.  A step of the server is a
sequence of statements, and every one of them keeps the constraints.
-/

namespace Outletbox

namespace Integrity

open Statements
open Table (References)

variable (P : Platform) (cfg : Config)

/-! ## The constraints -/

/-- Migrations 001, 005 and 007, on the account tables. -/
structure AccountKeys (d : AccountDb) : Prop where
  admins : (d.admins.map (·.id)).Nodup
  usernames : (d.admins.map (·.username)).Nodup
  sessions : (d.sessions.map (·.idHash)).Nodup
  publicIds : (d.sessions.map (·.publicId)).Nodup
  passkeys : (d.passkeys.map (·.id)).Nodup
  credentials : (d.passkeys.map (·.credentialId)).Nodup
  bindings : (d.bindings.map (·.id)).Nodup
  bound : (d.bindings.map (·.sessionHash)).Nodup
  sessionOwners : References (fun s : SessionRow => some s.adminId) d.sessions
    (fun a : AdminRow => a.id) d.admins
  codeOwners : References (fun c : RecoveryCode => some c.adminId) d.recoveryCodes
    (fun a : AdminRow => a.id) d.admins
  passkeyOwners : References (fun k : PasskeyRow => some k.adminId) d.passkeys
    (fun a : AdminRow => a.id) d.admins
  bindingOwners : References (fun b : BindingRow => some b.sessionHash) d.bindings
    (fun s : SessionRow => s.idHash) d.sessions

/-- Migrations 001, 004 and 005, on the deliveries.  The person of a code or of a session is not
only there, but on its link. -/
structure DeliveryKeys (d : DeliveryDb) : Prop where
  cases : (d.cases.map (·.id)).Nodup
  members : (d.caseMembers.map fun m => (m.caseId, m.adminId)).Nodup
  items : (d.items.map (·.id)).Nodup
  links : (d.links.map (·.id)).Nodup
  tokens : (d.links.map (·.tokenHash)).Nodup
  people : (d.linkRecipients.map (·.id)).Nodup
  addresses : (d.linkRecipients.map fun r => (r.linkId, r.email)).Nodup
  codes : (d.challenges.map (·.id)).Nodup
  access : (d.accessSessions.map (·.idHash)).Nodup
  memberCases : References (fun m : CaseMember => some m.caseId) d.caseMembers
    (fun c : Case => c.id) d.cases
  itemCases : References (fun i : ItemRow => some i.caseId) d.items (fun c : Case => c.id) d.cases
  linkCases : References (fun l : Link => some l.caseId) d.links (fun c : Case => c.id) d.cases
  personLinks : References (fun r : LinkRecipient => some r.linkId) d.linkRecipients
    (fun l : Link => l.id) d.links
  codeLinks : References (fun c : Challenge => some c.linkId) d.challenges
    (fun l : Link => l.id) d.links
  accessLinks : References (fun a : AccessSessionRow => some a.linkId) d.accessSessions
    (fun l : Link => l.id) d.links
  codePeople : References (fun c : Challenge => c.recipientId.map fun k => (k, c.linkId))
    d.challenges (fun r : LinkRecipient => (r.id, r.linkId)) d.linkRecipients
  accessPeople : References (fun a : AccessSessionRow => a.recipientId.map fun k => (k, a.linkId))
    d.accessSessions (fun r : LinkRecipient => (r.id, r.linkId)) d.linkRecipients

/-- Migrations 004 and 006, on the groups. -/
structure GroupKeys (g : GroupDb) : Prop where
  groups : (g.groups.map (·.id)).Nodup
  names : (g.groups.map fun x => noCase x.name).Nodup
  members : (g.members.map fun m => (m.groupId, m.email)).Nodup
  memberGroups : References (fun m : GroupMember => some m.groupId) g.members
    (fun x : GroupRow => x.id) g.groups

/-- Every constraint of the schema. -/
structure Sound (sv : Server) : Prop where
  accounts : AccountKeys sv.accounts
  deliveries : DeliveryKeys sv.deliveries
  groups : GroupKeys sv.groups
  members : References (fun m : CaseMember => some m.adminId) sv.deliveries.caseMembers
    (fun a : AdminRow => a.id) sv.accounts.admins
  itemAuthors : References (fun i : ItemRow => i.createdBy) sv.deliveries.items
    (fun a : AdminRow => a.id) sv.accounts.admins
  groupAuthors : References (fun x : GroupRow => x.createdBy) sv.groups.groups
    (fun a : AdminRow => a.id) sv.accounts.admins

section

variable {P} {cfg} {d d' : AccountDb} {e e' : DeliveryDb} {g g' : GroupDb} {sv sv' : Server}
  {G : Grant} {known : String → Prop} {id : String}

/-! ## The account tables -/

theorem keys_admins {p : AdminRow → Bool} {f : AdminRow → AdminRow} (hk : AccountKeys d)
    (hf : ∀ a, (f a).id = a.id ∧ (f a).username = a.username) :
    AccountKeys { d with admins := Table.update p f d.admins } :=
  { hk with
    admins := Table.nodup_update (fun a => (hf a).1) hk.admins
    usernames := Table.nodup_update (fun a => (hf a).2) hk.usernames
    sessionOwners := hk.sessionOwners.update_target fun a => (hf a).1
    codeOwners := hk.codeOwners.update_target fun a => (hf a).1
    passkeyOwners := hk.passkeyOwners.update_target fun a => (hf a).1 }

theorem keys_accountWrite (hk : AccountKeys d) (h : AccountWrite G d d') : AccountKeys d' := by
  cases h with
  | admins d hf =>
      exact keys_admins hk fun a => ⟨(hf a).1, (hf a).2.1⟩
  | role d _ hf => exact keys_admins hk hf
  | newAdmin d _ hnew =>
      exact { hk with
        admins := Table.nodup_append_row hk.admins fun x hx => (hnew x hx).1
        usernames := Table.nodup_append_row hk.usernames fun x hx => (hnew x hx).2
        sessionOwners := hk.sessionOwners.append_target
        codeOwners := hk.codeOwners.append_target
        passkeyOwners := hk.passkeyOwners.append_target }
  | sessions d hf =>
      exact { hk with
        sessions := Table.nodup_update (fun s => (hf s).1) hk.sessions
        publicIds := Table.nodup_update (fun s => (hf s).2.1) hk.publicIds
        sessionOwners := hk.sessionOwners.update fun s k hs => by rwa [(hf s).2.2] at hs
        bindingOwners := hk.bindingOwners.update_target fun s => (hf s).1 }
  | newSession h =>
      obtain ⟨rfl, hnew, a, ha⟩ := insertSession_ok h
      obtain ⟨hmem, hid⟩ := mem_of_adminById ha
      exact { hk with
        sessions := Table.nodup_append_row hk.sessions fun x hx => (hnew x hx).1
        publicIds := Table.nodup_append_row hk.publicIds fun x hx => (hnew x hx).2
        sessionOwners := hk.sessionOwners.append_row (by rintro k ⟨⟩; exact ⟨a, hmem, hid⟩)
        bindingOwners := hk.bindingOwners.append_target }
  | endSessions p d =>
      exact { hk with
        sessions := Table.nodup_delete hk.sessions
        publicIds := Table.nodup_delete hk.publicIds
        bindings := Table.nodup_delete hk.bindings
        bound := Table.nodup_delete hk.bound
        sessionOwners := hk.sessionOwners.delete
        bindingOwners := hk.bindingOwners.cascade fun b _ s hs hb hp =>
          List.any_eq_true.2 ⟨s, hs, by rw [hp, Option.some.inj hb]; simp⟩ }
  | codes d hf =>
      exact { hk with
        codeOwners := hk.codeOwners.update fun c k hc => by rwa [hf c] at hc }
  | newCodes d howners _ =>
      exact { hk with
        codeOwners := hk.codeOwners.append fun c hc k hk => by
          obtain rfl := Option.some.inj hk
          exact howners c hc }
  | dropCodes d _ => exact { hk with codeOwners := hk.codeOwners.delete }
  | passkeys d hf =>
      exact { hk with
        passkeys := Table.nodup_update (fun k => (hf k).1) hk.passkeys
        credentials := Table.nodup_update (fun k => (hf k).2.1) hk.credentials
        passkeyOwners := hk.passkeyOwners.update fun x k hx => by rwa [(hf x).2.2] at hx }
  | newPasskey d hnew howner _ =>
      exact { hk with
        passkeys := Table.nodup_append_row hk.passkeys fun x hx => (hnew x hx).1
        credentials := Table.nodup_append_row hk.credentials fun x hx => (hnew x hx).2
        passkeyOwners := hk.passkeyOwners.append_row (by rintro k ⟨⟩; exact howner) }
  | dropPasskeys d _ =>
      exact { hk with
        passkeys := Table.nodup_delete hk.passkeys
        credentials := Table.nodup_delete hk.credentials
        passkeyOwners := hk.passkeyOwners.delete }
  | bindings d hf =>
      exact { hk with
        bindings := Table.nodup_update (fun b => (hf b).1) hk.bindings
        bound := Table.nodup_update (fun b => (hf b).2) hk.bound
        bindingOwners := hk.bindingOwners.update fun b k hb => by rwa [(hf b).2] at hb }
  | newBinding d hnew howner =>
      exact { hk with
        bindings := Table.nodup_append_row hk.bindings fun x hx => (hnew x hx).1
        bound := Table.nodup_append_row hk.bound fun x hx => (hnew x hx).2
        bindingOwners := hk.bindingOwners.append_row (by rintro k ⟨⟩; exact howner) }

theorem keys_writes (hk : AccountKeys d) (h : Writes G d d') : AccountKeys d' := by
  induction h with
  | refl => exact hk
  | tail _ hlast ih => exact keys_accountWrite ih hlast

/-- An account goes with its sessions and their bindings, its codes and its passkeys. -/
theorem keys_deleteAdmin (hk : AccountKeys d) (id : String) : AccountKeys (deleteAdmin id d) := by
  have hended := keys_accountWrite (d := d) (G := .all) hk
      (.endSessions (fun s => s.adminId == id) d)
  have hrow : ∀ {x : String} {a : AdminRow}, some x = some a.id → (a.id == id) = true →
      (x == id) = true := by
    intro x a hx ha
    rwa [Option.some.inj hx]
  exact { hended with
    admins := Table.nodup_delete hk.admins
    usernames := Table.nodup_delete hk.usernames
    passkeys := Table.nodup_delete hk.passkeys
    credentials := Table.nodup_delete hk.credentials
    sessionOwners := hk.sessionOwners.cascade fun _ _ _ _ => hrow
    codeOwners := hk.codeOwners.cascade fun _ _ _ _ => hrow
    passkeyOwners := hk.passkeyOwners.cascade fun _ _ _ _ => hrow }

/-! ## The deliveries -/

/-- A person of the link, as the two columns of a code or of a session name it. -/
theorem person_of {k : Option String} {linkId : String} {rs : List LinkRecipient}
    (h : ∀ x, k = some x → ∃ r ∈ rs, r.id = x ∧ r.linkId = linkId) (y : String × String)
    (hy : k.map (fun k => (k, linkId)) = some y) : ∃ r ∈ rs, (r.id, r.linkId) = y := by
  obtain ⟨x, hx, rfl⟩ := Option.map_eq_some_iff.1 hy
  obtain ⟨r, hr, hid, hlink⟩ := h x hx
  exact ⟨r, hr, Prod.ext hid hlink⟩

theorem keys_deliveryWrite (hk : DeliveryKeys e) (h : DeliveryWrite known e e') :
    DeliveryKeys e' := by
  cases h with
  | cases d hf =>
      exact { hk with
        cases := Table.nodup_update hf hk.cases
        memberCases := hk.memberCases.update_target hf
        itemCases := hk.itemCases.update_target hf
        linkCases := hk.linkCases.update_target hf }
  | newCase d hnew =>
      exact { hk with
        cases := Table.nodup_append_row hk.cases hnew
        memberCases := hk.memberCases.append_target
        itemCases := hk.itemCases.append_target
        linkCases := hk.linkCases.append_target }
  | newMember d hnew hcase hadmin =>
      exact { hk with
        members := Table.nodup_append_row hk.members hnew
        memberCases := hk.memberCases.append_row (by rintro k ⟨⟩; exact hcase) }
  | dropMembers p d =>
      exact { hk with
        members := Table.nodup_delete hk.members
        memberCases := hk.memberCases.delete }
  | items d hf =>
      exact { hk with
        items := Table.nodup_update (fun i => (hf i).1) hk.items
        itemCases := hk.itemCases.update fun i k hi => by rwa [(hf i).2.1] at hi }
  | newItem d hnew hcase hauthor =>
      exact { hk with
        items := Table.nodup_append_row hk.items hnew
        itemCases := hk.itemCases.append_row (by rintro k ⟨⟩; exact hcase) }
  | links d hf =>
      exact { hk with
        links := Table.nodup_update (fun l => (hf l).1) hk.links
        tokens := Table.nodup_update (fun l => (hf l).2.2) hk.tokens
        linkCases := hk.linkCases.update fun l k hl => by rwa [(hf l).2.1] at hl
        personLinks := hk.personLinks.update_target fun l => (hf l).1
        codeLinks := hk.codeLinks.update_target fun l => (hf l).1
        accessLinks := hk.accessLinks.update_target fun l => (hf l).1 }
  | newToken d hf hnew =>
      have htokens := Table.nodup_update_one hk.links hk.tokens (fun l => (hf l).2.2) hnew
      exact { hk with
        links := Table.nodup_update (fun l => (hf l).1) hk.links
        tokens := by simpa only [updateLink, Bool.and_true] using htokens
        linkCases := hk.linkCases.update fun l k hl => by rwa [(hf l).2.1] at hl
        personLinks := hk.personLinks.update_target fun l => (hf l).1
        codeLinks := hk.codeLinks.update_target fun l => (hf l).1
        accessLinks := hk.accessLinks.update_target fun l => (hf l).1 }
  | newLink d hnew hcase =>
      exact { hk with
        links := Table.nodup_append_row hk.links fun x hx => (hnew x hx).1
        tokens := Table.nodup_append_row hk.tokens fun x hx => (hnew x hx).2
        linkCases := hk.linkCases.append_row (by rintro k ⟨⟩; exact hcase)
        personLinks := hk.personLinks.append_target
        codeLinks := hk.codeLinks.append_target
        accessLinks := hk.accessLinks.append_target }
  | people d hf =>
      have hboth := fun r => congrArg₂ Prod.mk (hf r).1 (hf r).2.1
      exact { hk with
        people := Table.nodup_update (fun r => (hf r).1) hk.people
        addresses := Table.nodup_update (fun r => Prod.ext (hf r).2.1 (hf r).2.2) hk.addresses
        personLinks := hk.personLinks.update fun r k hr => by rwa [(hf r).2.1] at hr
        codePeople := hk.codePeople.update_target hboth
        accessPeople := hk.accessPeople.update_target hboth }
  | newPerson d hnew hlink =>
      exact { hk with
        people := Table.nodup_append_row hk.people fun x hx => (hnew x hx).1
        addresses := Table.nodup_append_row hk.addresses fun x hx => (hnew x hx).2
        personLinks := hk.personLinks.append_row (by rintro k ⟨⟩; exact hlink)
        codePeople := hk.codePeople.append_target
        accessPeople := hk.accessPeople.append_target }
  | deletePerson id d =>
      have hrow : ∀ {k : Option String} {l : String} {r : LinkRecipient},
          k.map (fun k => (k, l)) = some (r.id, r.linkId) → (r.id == id) = true →
          (k == some id) = true := by
        intro k l r hk hr
        obtain ⟨_, rfl, hsame⟩ := Option.map_eq_some_iff.1 hk
        rw [(Prod.mk.inj hsame).1, beq_iff_eq.1 hr]
        exact beq_self_eq_true _
      exact { hk with
        people := Table.nodup_delete hk.people
        addresses := Table.nodup_delete hk.addresses
        codes := Table.nodup_delete hk.codes
        access := Table.nodup_delete hk.access
        personLinks := hk.personLinks.delete
        codeLinks := hk.codeLinks.delete
        accessLinks := hk.accessLinks.delete
        codePeople := hk.codePeople.cascade fun _ _ _ _ => hrow
        accessPeople := hk.accessPeople.cascade fun _ _ _ _ => hrow }
  | codes d hf =>
      exact { hk with
        codes := Table.nodup_update (fun c => (hf c).1) hk.codes
        codeLinks := hk.codeLinks.update fun c k hc => by rwa [(hf c).2.1] at hc
        codePeople := hk.codePeople.update fun c k hc => by rwa [(hf c).2.1, (hf c).2.2] at hc }
  | newCode d hnew hlink hperson =>
      exact { hk with
        codes := Table.nodup_append_row hk.codes hnew
        codeLinks := hk.codeLinks.append_row (by rintro k ⟨⟩; exact hlink)
        codePeople := hk.codePeople.append_row (person_of hperson) }
  | dropCodes p d =>
      exact { hk with
        codes := Table.nodup_delete hk.codes
        codeLinks := hk.codeLinks.delete
        codePeople := hk.codePeople.delete }
  | newAccess d hnew hlink hperson =>
      exact { hk with
        access := Table.nodup_append_row hk.access hnew
        accessLinks := hk.accessLinks.append_row (by rintro k ⟨⟩; exact hlink)
        accessPeople := hk.accessPeople.append_row (person_of hperson) }
  | dropAccess p d =>
      exact { hk with
        access := Table.nodup_delete hk.access
        accessLinks := hk.accessLinks.delete
        accessPeople := hk.accessPeople.delete }

/-! ## The groups -/

/-- A name that is not taken is no group's, but for the one it may be. -/
theorem name_free {name : String} {except : Option String} (h : nameTaken name except g = false)
    (hn : (g.groups.map fun x => noCase x.name).Nodup) {x : GroupRow} (hx : x ∈ g.groups)
    (hid : some x.id ≠ except) : noCase x.name ≠ noCase name := by
  intro hsame
  unfold nameTaken at h
  split at h
  · rename_i hnone
    exact List.find?_eq_none.1 hnone x hx (beq_iff_eq.2 hsame)
  · rename_i row hrow
    have hrowName : noCase row.name = noCase name :=
      beq_iff_eq.1 (List.find?_some (p := fun g : GroupRow => noCase g.name == noCase name) hrow)
    have hrowX : row = x :=
      Table.eq_of_key hn (List.mem_of_find?_eq_some hrow) hx (hrowName.trans hsame.symm)
    rw [hrowX] at h
    exact hid (by simpa using h)

theorem keys_groupWrite (hk : GroupKeys g) (h : GroupWrite known g g') : GroupKeys g' := by
  cases h with
  | newGroup g hnew hname hauthor =>
      exact { hk with
        groups := Table.nodup_append_row hk.groups hnew
        names := Table.nodup_append_row hk.names fun x hx =>
          name_free hname hk.names hx (Option.some_ne_none _)
        memberGroups := hk.memberGroups.append_target }
  | rename g hname hf =>
      exact { hk with
        groups := Table.nodup_update (fun x => (hf x).1) hk.groups
        names := Table.nodup_update_one hk.groups hk.names (fun x => congrArg noCase (hf x).2.2)
          fun x hx hid => name_free hname hk.names hx fun h => hid (Option.some.inj h)
        memberGroups := hk.memberGroups.update_target fun x => (hf x).1 }
  | @members id people g g' hgroup h =>
      unfold writeMembers memberRows at h
      split at h
      · cases h
      rename_i rows hrows
      cases h
      split at hrows
      · rename_i hdistinct
        obtain rfl := Option.some.inj hrows
        have hkeys : (people.zipIdx.map fun m => GroupMember.mk id m.1.email m.1.lang m.2).map
            (fun m => (m.groupId, m.email)) = (people.map (·.email)).map fun x => (id, x) := by
          rw [List.map_map, List.map_map, ← List.zipIdx_map_fst 0 people, List.map_map,
            List.zipIdx_map_fst]
          rfl
        have hrest : ∀ m ∈ Table.delete (fun m : GroupMember => m.groupId == id) g.members,
            m.groupId ≠ id := fun m hm => by simpa using (Table.mem_delete.1 hm).2
        refine { hk with members := ?_, memberGroups := ?_ }
        · rw [List.map_append, hkeys, List.nodup_append]
          refine ⟨Table.nodup_delete hk.members, hdistinct.map (Prod.mk_right_injective id), ?_⟩
          rintro a ha b hb rfl
          obtain ⟨m, hm, rfl⟩ := List.mem_map.1 ha
          obtain ⟨_, -, hsame⟩ := List.mem_map.1 hb
          exact hrest m hm (Prod.mk.inj hsame).1.symm
        · refine hk.memberGroups.delete.append fun m hm k hk => ?_
          obtain ⟨_, -, rfl⟩ := List.mem_map.1 hm
          obtain rfl := Option.some.inj hk
          exact hgroup
      · cases hrows
  | deleteGroup id g =>
      exact { hk with
        groups := Table.nodup_delete hk.groups
        names := Table.nodup_delete hk.names
        members := Table.nodup_delete hk.members
        memberGroups := hk.memberGroups.cascade fun m _ x _ hm hx => by
          rwa [Option.some.inj hm] }

end

/-! ## The server -/

section

variable {P} {cfg} {G : Grant} {sv sv' : Server}

/-- What a statement on the deliveries writes names accounts there are. -/
theorem authors_deliveryWrite {admins : List AdminRow} {e e' : DeliveryDb}
    (h : DeliveryWrite (fun id => ∃ a ∈ admins, a.id = id) e e')
    (hmembers : References (fun m : CaseMember => some m.adminId) e.caseMembers
      (fun a : AdminRow => a.id) admins)
    (hauthors : References (fun i : ItemRow => i.createdBy) e.items
      (fun a : AdminRow => a.id) admins) :
    References (fun m : CaseMember => some m.adminId) e'.caseMembers
        (fun a : AdminRow => a.id) admins ∧
      References (fun i : ItemRow => i.createdBy) e'.items (fun a : AdminRow => a.id) admins := by
  cases h with
  | newMember d hnew hcase hadmin =>
      exact ⟨hmembers.append_row (by rintro k ⟨⟩; exact hadmin), hauthors⟩
  | dropMembers p d => exact ⟨hmembers.delete, hauthors⟩
  | items d hf => exact ⟨hmembers, hauthors.update fun i k hi => by rwa [(hf i).2.2] at hi⟩
  | newItem d hnew hcase hauthor => exact ⟨hmembers, hauthors.append_row hauthor⟩
  | _ => exact ⟨hmembers, hauthors⟩

theorem authors_groupWrite {admins : List AdminRow} {g g' : GroupDb}
    (h : GroupWrite (fun id => ∃ a ∈ admins, a.id = id) g g')
    (hauthors : References (fun x : GroupRow => x.createdBy) g.groups
      (fun a : AdminRow => a.id) admins) :
    References (fun x : GroupRow => x.createdBy) g'.groups (fun a : AdminRow => a.id) admins := by
  cases h with
  | newGroup g hnew hname hauthor => exact hauthors.append_row hauthor
  | rename g hname hf => exact hauthors.update fun x k hx => by rwa [(hf x).2.1] at hx
  | members hgroup h =>
      unfold writeMembers at h
      split at h
      · cases h
      · cases h
        exact hauthors
  | deleteGroup id g => exact hauthors.delete

/-- Every statement keeps every constraint. -/
theorem sound_write (hs : Sound sv) (h : ServerWrite G sv sv') : Sound sv' := by
  cases h with
  | @accounts d sv h =>
      have hknown : ∀ a ∈ sv.accounts.admins, ∃ x ∈ d.admins, x.id = a.id :=
        fun a ha => known_write h ⟨a, ha, rfl⟩
      exact { hs with
        accounts := keys_accountWrite hs.accounts h
        members := hs.members.mono_target hknown
        itemAuthors := hs.itemAuthors.mono_target hknown
        groupAuthors := hs.groupAuthors.mono_target hknown }
  | deliveries sv h =>
      have hauthors := authors_deliveryWrite h hs.members hs.itemAuthors
      exact { hs with
        deliveries := keys_deliveryWrite hs.deliveries h
        members := hauthors.1
        itemAuthors := hauthors.2 }
  | groups sv h =>
      exact { hs with
        groups := keys_groupWrite hs.groups h
        groupAuthors := authors_groupWrite h hs.groupAuthors }
  | @deleteAdmin id sv _ _ =>
      exact {
        accounts := keys_deleteAdmin hs.accounts id
        deliveries := { hs.deliveries with
          members := Table.nodup_delete hs.deliveries.members
          items := Table.nodup_update (by exact fun _ => rfl) hs.deliveries.items
          memberCases := hs.deliveries.memberCases.delete
          itemCases := hs.deliveries.itemCases.update (by exact fun _ _ h => h) }
        groups := { hs.groups with
          groups := Table.nodup_update (by exact fun _ => rfl) hs.groups.groups
          names := Table.nodup_update (by exact fun _ => rfl) hs.groups.names
          memberGroups := hs.groups.memberGroups.update_target (by exact fun _ => rfl) }
        members := hs.members.cascade fun m _ a _ hm ha => by rwa [Option.some.inj hm]
        itemAuthors := hs.itemAuthors.setNull (by exact fun _ => rfl) fun i _ a _ hi ha => by
          rw [hi, beq_iff_eq.1 ha]
          exact beq_self_eq_true _
        groupAuthors := hs.groupAuthors.setNull (by exact fun _ => rfl) fun x _ a _ hx ha => by
          rw [hx, beq_iff_eq.1 ha]
          exact beq_self_eq_true _ }
  | memory => exact { hs with }

theorem sound_writes (hs : Sound sv) (h : ServerWrites G sv sv') : Sound sv' := by
  induction h with
  | refl => exact hs
  | tail _ hlast ih => exact sound_write ih hlast

theorem sound_empty : Sound .empty where
  accounts := by constructor <;> first | exact List.nodup_nil | exact .nil _ _ _
  deliveries := by constructor <;> first | exact List.nodup_nil | exact .nil _ _ _
  groups := by constructor <;> first | exact List.nodup_nil | exact .nil _ _ _
  members := .nil _ _ _
  itemAuthors := .nil _ _ _
  groupAuthors := .nil _ _ _

theorem sound_step (hs : Sound sv) (i : Input) : Sound (Server.step P cfg sv i).1 :=
  sound_writes hs (step_writes sv i (granted_all sv i))

/-- Every state a server reaches from one that satisfies the schema satisfies it. -/
theorem schema_holds {env : List ServerEvent → Server → Input → Prop} {sv₀ : Server}
    (h₀ : Sound sv₀) {h : List ServerEvent} (hr : History.Run (Server.step P cfg) env sv₀ h sv) :
    Sound sv :=
  hr.invariant (I := fun _ sv => Sound sv) h₀ fun _ _ i _ _ hs => sound_step hs i

end

/-- A delivery is set up on a fresh database and opened. -/
theorem schema_holds_opened :
    let run := History.replay (Server.step .sample defaultConfig) [] .empty deliveryScript
    Sound run.2 ∧ run.2.deliveries.linkRecipients ≠ [] ∧ run.2.accounts.sessions ≠ [] := by
  have hr : History.Run (Server.step .sample defaultConfig) (fun _ _ _ => True) .empty
      (History.replay (Server.step .sample defaultConfig) [] .empty deliveryScript).1
      (History.replay (Server.step .sample defaultConfig) [] .empty deliveryScript).2 :=
    History.run_replay .start (History.admits_of_forall (fun _ _ _ => trivial) _ _ _)
  exact ⟨schema_holds sound_empty hr, by decide +kernel, by decide +kernel⟩

end Integrity

end Outletbox
