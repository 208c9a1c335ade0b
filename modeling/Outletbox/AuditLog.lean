import Outletbox.Access
import Outletbox.Http.Steps
import Outletbox.Integrity
import Outletbox.Library.Lookup

/-!
# What the audit log tells

The log alone says which cases there are and which are closed, how often every
link was opened, which are revoked and who is on them, and what became of
every item.  Reading it, event by event, follows the tables through every run
of the server.

Each request is one step here.  What may happen while the bytes of an upload are
being stored is left out: an upload that is given up then is reported as complete
all the same.
-/

namespace Outletbox

namespace AuditLog

variable (P : Platform) (cfg : Config)

/-! ## Reading the log -/

/-- What an action says of what its event names. -/
inductive News
  | caseIs (status : CaseStatus)
  | newLink | opened | revoked | peopleAdded | personRemoved
  | itemIs (status : ItemStatus)
  deriving DecidableEq

/-- The actions that tell of a delivery.  The others tell of accounts and groups, of what was read
and of what was refused. -/
def newsOf : String → Option News
  | "case.create" | "case.reopen" => some (.caseIs .isOpen)
  | "case.close" => some (.caseIs .isClosed)
  | "link.create" => some .newLink
  | "access.granted" => some .opened
  | "link.revoke" => some .revoked
  | "link.recipients_add" => some .peopleAdded
  | "link.recipient_remove" => some .personRemoved
  | "upload.start" => some (.itemIs .uploading)
  | "note.create" | "upload.complete" => some (.itemIs .ready)
  | "upload.rejected" | "upload.aborted" | "upload.cancel" => some (.itemIs .aborted)
  | "upload.expired" => some (.itemIs .expired)
  | "file.missing" => some (.itemIs .missing)
  | "item.delete" => some (.itemIs .deleted)
  | _ => none

/-- The people an event lists, each with the language. -/
def listedPeople (e : AuditEvent) : List String :=
  match e.details.lookup "recipients" with
  | some (.texts people) => people
  | _ => []

/-- The address an event names. -/
def namedAddress (e : AuditEvent) : String :=
  match e.details.lookup "email" with
  | some (.text email) => email
  | _ => ""

/-- The address in front of the language. -/
def addressOf (person : String) : String :=
  String.ofList ((person.toList.reverse.dropWhile (· != ' ')).tail).reverse

/-- What the log tells about a link. -/
structure LinkRecord where
  opens : Nat
  isRevoked : Bool
  people : List String
  deriving DecidableEq

/-- What the log tells. -/
structure Ledger where
  cases : String → Option CaseStatus
  links : String → Option LinkRecord
  items : String → Option ItemStatus

def Ledger.empty : Ledger := ⟨fun _ => none, fun _ => none, fun _ => none⟩

/-- A change of what is told about a link. -/
def Ledger.onLink (id : String) (f : LinkRecord → LinkRecord) (L : Ledger) : Ledger :=
  { L with links := Function.update L.links id ((L.links id).map f) }

/-- What is told after one more event. -/
def Ledger.read (L : Ledger) (e : AuditEvent) : Ledger :=
  match newsOf e.action, e.caseId, e.linkId, e.itemId with
  | some (.caseIs status), some c, _, _ =>
      { L with cases := Function.update L.cases c (some status) }
  | some .newLink, _, some l, _ =>
      { L with links := Function.update L.links l (some ⟨0, false, listedPeople e⟩) }
  | some .opened, _, some l, _ => L.onLink l fun r => { r with opens := r.opens + 1 }
  | some .revoked, _, some l, _ => L.onLink l fun r => { r with isRevoked := true }
  | some .peopleAdded, _, some l, _ =>
      L.onLink l fun r => { r with people := r.people ++ listedPeople e }
  | some .personRemoved, _, some l, _ =>
      L.onLink l fun r => { r with people := r.people.filter (addressOf · ≠ namedAddress e) }
  | some (.itemIs status), _, _, some i =>
      { L with items := Function.update L.items i (some status) }
  | _, _, _, _ => L

/-- What a log tells. -/
def Ledger.of (log : List AuditEvent) : Ledger := log.foldl Ledger.read .empty

/-! ## What the tables say -/

/-- A person as the log names one. -/
def entryOf (r : LinkRecipient) : String := r.email ++ " " ++ r.lang.code

def peopleOf (id : String) (d : DeliveryDb) : List String :=
  (listRecipients id d).map entryOf

def recordOf (d : DeliveryDb) (l : Link) : LinkRecord :=
  ⟨l.opensUsed, l.revokedAt.isSome, peopleOf l.id d⟩

def caseTable (d : DeliveryDb) : String → Option CaseStatus :=
  Table.lookup Case.id Case.status d.cases

def linkTable (d : DeliveryDb) : String → Option LinkRecord :=
  Table.lookup Link.id (recordOf d) d.links

def itemTable (d : DeliveryDb) : String → Option ItemStatus :=
  Table.lookup ItemRow.id ItemRow.status d.items

/-- What is told of an item, and what is in its row.  Two deletions are not logged: of an upload
that is still running, and of a file whose object the storage would not give up. -/
inductive Told : Option ItemStatus → Option ItemStatus → Prop
  | same (status : Option ItemStatus) : Told status status
  | dropped : Told (some .uploading) (some .aborted)
  | deletedReady : Told (some .ready) (some .deleted)
  | deletedMissing : Told (some .missing) (some .deleted)

/-- The ledger says what the tables say. -/
structure Agrees (L : Ledger) (d : DeliveryDb) : Prop where
  cases : L.cases = caseTable d
  links : L.links = linkTable d
  items : ∀ id, Told (L.items id) (itemTable d id)

/-- Whatever the log told before, with these events it tells of the new tables. -/
def Accounts (d d' : DeliveryDb) (events : List AuditEvent) : Prop :=
  ∀ L, Agrees L d → Agrees (events.foldl Ledger.read L) d'

section

variable {P} {cfg} {d d' d'' : DeliveryDb} {events events' : List AuditEvent} {e : AuditEvent}
  {L : Ledger} {id : String} {now : Int} {sv : Server}

/-! ## Statements and the events that go with them -/

theorem Agrees.of_tables (h : Agrees L d) (hcases : caseTable d' = caseTable d)
    (hlinks : linkTable d' = linkTable d) (hitems : itemTable d' = itemTable d) : Agrees L d' :=
  ⟨h.cases.trans hcases.symm, h.links.trans hlinks.symm, fun id => hitems ▸ h.items id⟩

/-- An event that tells nothing of a delivery. -/
theorem read_quiet (h : newsOf e.action = none) : L.read e = L := by
  unfold Ledger.read
  rw [h]

theorem foldl_quiet (h : ∀ e ∈ events, newsOf e.action = none) : events.foldl Ledger.read L = L := by
  induction events with
  | nil => rfl
  | cons e rest ih =>
      rw [List.foldl_cons, read_quiet (h e (List.mem_cons_self ..)),
        ih fun x hx => h x (List.mem_cons_of_mem _ hx)]

/-- Changes the log does not speak of. -/
theorem Accounts.quiet (hcases : caseTable d' = caseTable d) (hlinks : linkTable d' = linkTable d)
    (hitems : itemTable d' = itemTable d) (h : ∀ e ∈ events, newsOf e.action = none) :
    Accounts d d' events := by
  intro L hL
  rw [foldl_quiet h]
  exact hL.of_tables hcases hlinks hitems

theorem Accounts.refl (d : DeliveryDb) : Accounts d d [] := fun _ hL => hL

theorem Accounts.trans (h : Accounts d d' events) (h' : Accounts d' d'' events') :
    Accounts d d'' (events ++ events') := by
  intro L hL
  rw [List.foldl_append]
  exact h' _ (h L hL)

/-- The columns of a statement that is not told of, before the events of the next. -/
theorem Accounts.after (h : Accounts d d' []) (h' : Accounts d' d'' events) :
    Accounts d d'' events :=
  h.trans h'

/-! ### Cases -/

theorem accounts_newCase {c : Case} {ms : List CaseMember} (hnew : ∀ x ∈ d.cases, x.id ≠ c.id)
    (hnews : newsOf e.action = some (.caseIs c.status)) (hcase : e.caseId = some c.id) :
    Accounts d { d with cases := d.cases ++ [c], caseMembers := ms } [e] := by
  intro L hL
  refine ⟨?_, ?_, ?_⟩
  · simp only [List.foldl_cons, List.foldl_nil, Ledger.read, hnews, hcase]
    rw [hL.cases, caseTable, caseTable, Table.lookup_append_row _ hnew]
  · simp only [List.foldl_cons, List.foldl_nil, Ledger.read, hnews, hcase]
    exact hL.links
  · simp only [List.foldl_cons, List.foldl_nil, Ledger.read, hnews, hcase]
    exact hL.items

theorem accounts_updateCase {input : CaseUpdate} {c : Case} {status : CaseStatus}
    (hu : updateCase now id input d = .ok (some c, d')) (hstatus : input.status = some status)
    (hnews : newsOf e.action = some (.caseIs status)) (hcase : e.caseId = some id) :
    Accounts d d' [e] := by
  rcases updateCase_ok hu with ⟨h, -⟩ | ⟨c₀, name, description, hc₀, -, rfl⟩
  · cases h
  intro L hL
  simp only [List.foldl_cons, List.foldl_nil, Ledger.read, hnews, hcase]
  refine ⟨?_, hL.links, hL.items⟩
  rw [getCase] at hc₀
  rw [hL.cases, caseTable, caseTable, Table.lookup_update_row _ (by exact fun _ => rfl),
    Table.lookup, hc₀, hstatus]
  rfl

/-- Another name or description. -/
theorem accounts_renameCase {input : CaseUpdate} {r : Option Case}
    (hu : updateCase now id input d = .ok (r, d')) (hstatus : input.status = none)
    (h : ∀ e ∈ events, newsOf e.action = none) : Accounts d d' events := by
  rcases updateCase_ok hu with ⟨-, rfl⟩ | ⟨c, name, description, hc, -, rfl⟩
  · exact .quiet rfl rfl rfl h
  refine .quiet ?_ rfl rfl h
  rw [getCase] at hc
  rw [caseTable, caseTable, Table.lookup_update_row _ (by exact fun _ => rfl), Table.lookup, hc,
    hstatus]
  refine Function.update_eq_self_iff.2 ?_
  rw [Table.lookup, hc]
  rfl

/-! ### Links -/

/-- The record of a link whose row an `UPDATE` changes. -/
theorem linkTable_updateLink {p : Link → Bool} {f : Link → Link} (hf : ∀ l, (f l).id = l.id)
    (hkeys : (d.links.map (·.id)).Nodup) (h : changesLink id p d = true) :
    ∃ l, linkTable d id = some (recordOf d l) ∧
      linkTable (updateLink id p f d) = Function.update (linkTable d) id (some (recordOf d (f l))) := by
  rw [changesLink, List.any_eq_true] at h
  obtain ⟨l, hl, h⟩ := h
  rw [Bool.and_eq_true, beq_iff_eq] at h
  obtain ⟨rfl, hp⟩ := h
  refine ⟨l, Table.lookup_of_mem (recordOf d) hkeys hl, ?_⟩
  have hrow := Table.find?_of_mem hkeys hl
  have htable := Table.lookup_update (t := d.links) (recordOf d) (p := p) hf l.id
  rw [hrow, Option.map_some, if_pos hp] at htable
  exact htable

theorem accounts_changeLink {p : Link → Bool} {f : Link → Link} {g : LinkRecord → LinkRecord}
    (hf : ∀ l, (f l).id = l.id) (hg : ∀ l, recordOf d (f l) = g (recordOf d l))
    (hkeys : (d.links.map (·.id)).Nodup) (h : changesLink id p d = true)
    (hread : ∀ L : Ledger, L.read e = L.onLink id g) : Accounts d (updateLink id p f d) [e] := by
  intro L hL
  obtain ⟨l, hrecord, htable⟩ := linkTable_updateLink hf hkeys h
  rw [List.foldl_cons, List.foldl_nil, hread]
  refine ⟨hL.cases, ?_, hL.items⟩
  rw [htable, Ledger.onLink, hL.links, hrecord, Option.map_some, hg]

/-- A statement on columns of a link that are not told of. -/
theorem accounts_touch {p : Link → Bool} {f : Link → Link}
    (hf : ∀ l, (f l).id = l.id) (hg : ∀ l, recordOf d (f l) = recordOf d l)
    (h : ∀ e ∈ events, newsOf e.action = none) : Accounts d (updateLink id p f d) events :=
  .quiet rfl (Table.lookup_update_hidden (recordOf d) hf hg) rfl h

theorem accounts_opened (hkeys : (d.links.map (·.id)).Nodup)
    (h : (registerOpen now id d).1 = true) (hnews : newsOf e.action = some .opened)
    (hlink : e.linkId = some id) : Accounts d (registerOpen now id d).2 [e] := by
  refine accounts_changeLink (g := fun r => { r with opens := r.opens + 1 })
    (by exact fun _ => rfl) (by exact fun _ => rfl) hkeys h fun L => ?_
  simp only [Ledger.read, hnews, hlink]

theorem accounts_revoked (hkeys : (d.links.map (·.id)).Nodup)
    (h : (revokeLink now id d).1 = true) (hnews : newsOf e.action = some .revoked)
    (hlink : e.linkId = some id) : Accounts d (revokeLink now id d).2 [e] := by
  refine accounts_changeLink (g := fun r => { r with isRevoked := true })
    (by exact fun _ => rfl) (by exact fun _ => rfl) hkeys h fun L => ?_
  simp only [Ledger.read, hnews, hlink]

/-! ### People -/

/-- The people of a link after rows were added to one. -/
theorem peopleOf_append {added : List LinkRecipient} (h : ∀ r ∈ added, r.linkId = id)
    (k : String) : peopleOf k { d with linkRecipients := d.linkRecipients ++ added } =
      peopleOf k d ++ if k = id then added.map entryOf else [] := by
  rw [peopleOf, peopleOf, listRecipients, List.filter_append, List.map_append, listRecipients]
  congr 1
  split
  · rename_i hk
    rw [List.filter_eq_self.2 fun r hr => by simp [h r hr, hk]]
  · rename_i hk
    rw [List.filter_eq_nil_iff.2 fun r hr => by simpa [h r hr] using Ne.symm hk, List.map_nil]

/-- The rows of the links, and their people, but for those of one link. -/
theorem linkTable_people (hlinks : d'.links = d.links)
    (hother : ∀ k ≠ id, peopleOf k d' = peopleOf k d) :
    linkTable d' = Function.update (linkTable d) id ((linkTable d id).map fun r =>
      { r with people := peopleOf id d' }) := by
  funext k
  rw [linkTable, hlinks]
  by_cases hk : k = id
  · subst hk
    rw [Function.update_self, linkTable, Table.lookup, Table.lookup, Option.map_map]
    cases hrow : d.links.find? fun r => r.id == k with
    | none => rfl
    | some l =>
        have hid := List.find?_some (p := fun r : Link => r.id == k) hrow
        rw [beq_iff_eq] at hid
        rw [Option.map_some, Option.map_some, Function.comp_apply, recordOf, recordOf, hid]
  · rw [Function.update_of_ne hk, linkTable, Table.lookup, Table.lookup]
    cases hrow : d.links.find? fun r => r.id == k with
    | none => rfl
    | some l =>
        have hid := List.find?_some (p := fun r : Link => r.id == k) hrow
        rw [beq_iff_eq] at hid
        rw [Option.map_some, Option.map_some, recordOf, recordOf, hid, hother k hk]

/-- The people of a link change, and the event says how. -/
theorem accounts_people (id : String) {g : List String → List String} (hlinks : d'.links = d.links)
    (hcases : d'.cases = d.cases) (hitems : d'.items = d.items)
    (hother : ∀ k ≠ id, peopleOf k d' = peopleOf k d) (hat : peopleOf id d' = g (peopleOf id d))
    (hread : ∀ L : Ledger, L.read e = L.onLink id fun r => { r with people := g r.people }) :
    Accounts d d' [e] := by
  intro L hL
  rw [List.foldl_cons, List.foldl_nil, hread]
  refine ⟨?_, ?_, ?_⟩
  · rw [Ledger.onLink, hL.cases, caseTable, caseTable, hcases]
  · rw [Ledger.onLink, hL.links, linkTable_people hlinks hother]
    rw [linkTable, Table.lookup]
    cases hrow : d.links.find? fun r => r.id == id with
    | none => rfl
    | some l =>
        have hid := List.find?_some (p := fun r : Link => r.id == id) hrow
        rw [beq_iff_eq] at hid
        simp only [Option.map_some, recordOf, hid, hat]
  · intro k
    rw [itemTable, hitems]
    exact hL.items k

theorem accounts_addPeople {added : List LinkRecipient} (h : ∀ r ∈ added, r.linkId = id)
    (hnews : newsOf e.action = some .peopleAdded) (hlink : e.linkId = some id)
    (hlisted : listedPeople e = added.map entryOf) :
    Accounts d { d with linkRecipients := d.linkRecipients ++ added } [e] := by
  refine accounts_people id (g := (· ++ added.map entryOf)) rfl rfl rfl
    (fun k hk => ?_) ?_ fun L => ?_
  · rw [peopleOf_append h, if_neg hk, List.append_nil]
  · rw [peopleOf_append h, if_pos rfl]
  · simp only [Ledger.read, hnews, hlink, hlisted]

/-- A new link, with the people on it. -/
theorem accounts_newLink {link : Link} {added : List LinkRecipient}
    (hfree : ∀ l ∈ d.links, l.id ≠ link.id) (hnobody : ∀ r ∈ d.linkRecipients, r.linkId ≠ link.id)
    (h : ∀ r ∈ added, r.linkId = link.id) (hopens : link.opensUsed = 0)
    (hrevoked : link.revokedAt = none) (hnews : newsOf e.action = some .newLink)
    (hlink : e.linkId = some link.id) (hlisted : listedPeople e = added.map entryOf) :
    Accounts d { d with
      links := d.links ++ [link]
      linkRecipients := d.linkRecipients ++ added } [e] := by
  have hpeople : ∀ k, peopleOf k { d with
      links := d.links ++ [link]
      linkRecipients := d.linkRecipients ++ added } =
      peopleOf k d ++ if k = link.id then added.map entryOf else [] :=
    fun k => peopleOf_append (d := d) h k
  have hold : ∀ l ∈ d.links, recordOf { d with
      links := d.links ++ [link]
      linkRecipients := d.linkRecipients ++ added } l = recordOf d l := by
    intro l hl
    rw [recordOf, recordOf, hpeople, if_neg (hfree l hl), List.append_nil]
  have hnew : recordOf { d with
      links := d.links ++ [link]
      linkRecipients := d.linkRecipients ++ added } link =
      ⟨0, false, added.map entryOf⟩ := by
    have hnone : peopleOf link.id d = [] := by
      rw [peopleOf, listRecipients, List.filter_eq_nil_iff.2 fun r hr => by
        simpa using hnobody r hr, List.map_nil]
    rw [recordOf, hpeople, if_pos rfl, hnone, List.nil_append, hopens, hrevoked]
    rfl
  intro L hL
  simp only [List.foldl_cons, List.foldl_nil, Ledger.read, hnews, hlink]
  refine ⟨hL.cases, ?_, hL.items⟩
  dsimp only
  rw [hL.links, hlisted]
  refine .trans ?_ (Table.lookup_append_row _ hfree).symm
  rw [hnew]
  refine congrArg (Function.update · link.id _) (funext fun k => ?_)
  rw [linkTable, Table.lookup, Table.lookup]
  cases hrow : d.links.find? fun r => r.id == k with
  | none => rfl
  | some l => rw [Option.map_some, Option.map_some, hold l (List.mem_of_find?_eq_some hrow)]

/-- The address of an entry is what stands before the language. -/
theorem addressOf_entry (r : LinkRecipient) : addressOf (entryOf r) = r.email := by
  have hcode : ∀ c ∈ r.lang.code.toList.reverse, (c != ' ') = true := by
    have hall : r.lang.code.toList.reverse.all (· != ' ') = true := by
      cases r.lang <;> rfl
    exact List.all_eq_true.1 hall
  have hlist : (entryOf r).toList.reverse =
      r.lang.code.toList.reverse ++ ' ' :: r.email.toList.reverse := by
    simp only [entryOf, String.toList_append, List.reverse_append]
    rfl
  rw [addressOf, hlist, List.dropWhile_append_of_pos hcode,
    List.dropWhile_cons_of_neg (by simp), List.tail_cons, List.reverse_reverse,
    String.ofList_toList]

/-- A person is taken off a link: the address was on it once. -/
theorem accounts_removePerson {row : LinkRecipient}
    (hids : (d.linkRecipients.map (·.id)).Nodup)
    (haddresses : (d.linkRecipients.map fun r => (r.linkId, r.email)).Nodup)
    (hrow : row ∈ d.linkRecipients) (hnews : newsOf e.action = some .personRemoved)
    (hlink : e.linkId = some row.linkId) (hnamed : namedAddress e = row.email) :
    Accounts d (deleteRecipient row.id d) [e] := by
  refine accounts_people row.linkId
    (g := fun people => people.filter (addressOf · ≠ namedAddress e)) rfl rfl rfl
    (fun k hk => ?_) ?_ fun L => ?_
  · have hsame : listRecipients k (deleteRecipient row.id d) = listRecipients k d := by
      refine Table.filter_delete fun r hr hon => ?_
      rw [beq_eq_false_iff_ne]
      intro hid
      rw [Table.eq_of_key hids hr hrow hid, beq_iff_eq] at hon
      exact hk hon.symm
    rw [peopleOf, peopleOf, hsame]
  · rw [peopleOf, peopleOf, List.filter_map, listRecipients, listRecipients, deleteRecipient,
      Table.delete, List.filter_filter, List.filter_filter]
    congr 1
    refine List.filter_congr fun r hr => ?_
    rw [Function.comp_apply, addressOf_entry, hnamed, Bool.eq_iff_iff, Bool.and_eq_true,
      Bool.and_eq_true, beq_iff_eq, Bool.not_eq_true', beq_eq_false_iff_ne, decide_eq_true_iff]
    constructor
    · rintro ⟨hon, hne⟩
      refine ⟨fun hsame => hne ?_, hon⟩
      rw [Table.eq_of_key haddresses hr hrow (Prod.ext hon hsame)]
    · rintro ⟨hne, hon⟩
      exact ⟨hon, fun hid => hne (by rw [Table.eq_of_key hids hr hrow hid])⟩
  · simp only [Ledger.read, hnews, hlink]

/-! ### Items -/

theorem accounts_newItem {item : ItemRow} (hfree : ∀ x ∈ d.items, x.id ≠ item.id)
    (hnews : newsOf e.action = some (.itemIs item.status)) (hitem : e.itemId = some item.id) :
    Accounts d { d with items := d.items ++ [item] } [e] := by
  intro L hL
  simp only [List.foldl_cons, List.foldl_nil, Ledger.read, hnews, hitem]
  refine ⟨hL.cases, hL.links, fun k => ?_⟩
  rw [itemTable, Table.lookup_append_row _ hfree]
  by_cases hk : k = item.id
  · subst hk
    dsimp only
    rw [Function.update_self, Function.update_self]
    exact .same _
  · dsimp only
    rw [Function.update_of_ne hk, Function.update_of_ne hk]
    exact hL.items k

/-- The status of the row an `UPDATE` changes. -/
theorem itemTable_updateItem {p : ItemRow → Bool} {f : ItemRow → ItemRow} {i : ItemRow}
    (hf : ∀ i, (f i).id = i.id) (hi : getItem id d = some i) (hp : p i = true) :
    itemTable (updateItem id p f d).2 = Function.update (itemTable d) id (some (f i).status) := by
  have htable := Table.lookup_update (t := d.items) ItemRow.status (p := p) hf id
  rw [getItem] at hi
  rw [hi, Option.map_some, if_pos hp] at htable
  exact htable

theorem accounts_item {p : ItemRow → Bool} {f : ItemRow → ItemRow} {i : ItemRow}
    {status : ItemStatus} (hf : ∀ i, (f i).id = i.id) (hi : getItem id d = some i)
    (hp : p i = true) (hs : (f i).status = status)
    (hnews : newsOf e.action = some (.itemIs status)) (hitem : e.itemId = some id) :
    Accounts d (updateItem id p f d).2 [e] := by
  intro L hL
  simp only [List.foldl_cons, List.foldl_nil, Ledger.read, hnews, hitem]
  refine ⟨hL.cases, hL.links, fun k => ?_⟩
  rw [itemTable_updateItem hf hi hp, hs]
  by_cases hk : k = id
  · subst hk
    dsimp only
    rw [Function.update_self, Function.update_self]
    exact .same _
  · dsimp only
    rw [Function.update_of_ne hk, Function.update_of_ne hk]
    exact hL.items k

/-- A statement that changes an item without a word. -/
theorem accounts_silent {p : ItemRow → Bool} {f : ItemRow → ItemRow} {i : ItemRow}
    (hf : ∀ i, (f i).id = i.id) (hi : getItem id d = some i) (hp : p i = true)
    (htold : ∀ told, Told told (some i.status) → Told told (some (f i).status)) :
    Accounts d (updateItem id p f d).2 [] := by
  intro L hL
  refine ⟨hL.cases, hL.links, fun k => ?_⟩
  rw [itemTable_updateItem hf hi hp]
  by_cases hk : k = id
  · subst hk
    rw [Function.update_self]
    have hold := hL.items k
    have hrow : itemTable d k = some i.status := by
      rw [getItem] at hi
      rw [itemTable, Table.lookup, hi, Option.map_some]
    rw [hrow] at hold
    exact htold _ hold
  · rw [Function.update_of_ne hk]
    exact hL.items k

/-! ## Requests to the case routes -/

variable {req : Request} {s : Signed} {dir : Directory}

/-- What a handler wrote to the log tells what it did. -/
def Explained {π : Type} (d : DeliveryDb) (out : Outcome DeliveryDb π) : Prop :=
  Accounts d out.state out.audit

theorem explained_refuse (response : Response PanelPage) : Explained d (refuse d response) :=
  .refl d

theorem quiet_one (h : newsOf e.action = none) : ∀ x ∈ [e], newsOf x.action = none :=
  List.forall_mem_singleton.2 h

theorem explained_withCase {f : Case → Outcome DeliveryDb PanelPage}
    (hf : ∀ c, Explained d (f c)) : Explained d (withCase P id req s d f) := by
  unfold withCase
  split
  · exact explained_refuse _
  · exact hf _

theorem explained_withLink {f : Link → Outcome DeliveryDb PanelPage}
    (hf : ∀ link, Explained d (f link)) : Explained d (withLink P id req s d f) := by
  unfold withLink
  dsimp only
  split
  · exact explained_refuse _
  split
  · exact explained_refuse _
  split
  · exact explained_refuse _
  · exact hf _

theorem explained_postCase (d : DeliveryDb) : Explained d (postCase P req s d) := by
  unfold postCase
  split
  · exact explained_refuse _
  · rename_i c d' hcreated
    obtain ⟨-, hopen, rfl⟩ := createCase_ok hcreated
    have hnew : ∀ x ∈ d.cases, x.id ≠ c.id := by
      unfold createCase at hcreated
      dsimp only at hcreated
      obtain ⟨-, hcreated⟩ := Fallible.guard_eq_ok.1 hcreated
      obtain ⟨hfree, hcreated⟩ := Fallible.guard_eq_ok.1 hcreated
      cases hcreated
      simpa only [List.any_eq_true, beq_iff_eq, not_exists, not_and] using hfree
    have hnews : newsOf "case.create" = some (.caseIs c.status) := by
      rw [hopen]
      rfl
    unfold Explained addCaseMember
    dsimp only
    split
    · exact accounts_newCase hnew hnews rfl
    split
    · exact accounts_newCase hnew hnews rfl
    · exact accounts_newCase hnew hnews rfl

theorem explained_postCaseUpdate (d : DeliveryDb) :
    Explained d (postCaseUpdate P id req s dir d) := by
  refine explained_withCase fun c => ?_
  split
  · exact explained_refuse _
  · rename_i h
    exact accounts_renameCase h rfl (List.forall_mem_nil _)
  · rename_i h
    exact accounts_renameCase h rfl (quiet_one rfl)

theorem explained_postCaseStatus (d : DeliveryDb) :
    Explained d (postCaseStatus P id req s d) := by
  refine explained_withCase fun c => ?_
  dsimp only
  split
  · exact explained_refuse _
  · rename_i h
    rcases updateCase_ok h with ⟨-, rfl⟩ | ⟨_, _, _, -, hr, -⟩
    · exact explained_refuse _
    · cases hr
  · rename_i h
    unfold Explained
    dsimp only
    split
    · rename_i hclosed
      have hclose := accounts_updateCase h rfl (e := s.caseEvent req "case.close" c.id [])
        (by rw [hclosed]; rfl) rfl
      exact fun L hL => (hclose L hL).of_tables rfl rfl rfl
    · rename_i hopen
      refine accounts_updateCase h rfl ?_ rfl
      have hstatus : formStatus req = .isOpen := by
        unfold formStatus at hopen ⊢
        split at hopen
        · exact absurd rfl hopen
        · rename_i hfield
          rw [if_neg hfield]
      rw [hstatus]
      rfl

theorem explained_postNote (d : DeliveryDb) : Explained d (postNote P id req s dir d) := by
  refine explained_withCase fun c => ?_
  dsimp only
  split
  · exact explained_refuse _
  · rename_i note d' h
    have hfree := createNote_fresh h
    have hready : note.status = .ready := by
      unfold createNote at h
      dsimp only at h
      obtain ⟨-, h⟩ := Fallible.guard_eq_ok.1 h
      rw [(insertItem_ok h).1]
    obtain ⟨-, -, rfl⟩ := createNote_ok h
    exact accounts_newItem hfree (by rw [hready]; rfl) rfl

/-! ### Links and people -/

theorem listed_linkEvent {action : String} {link : Link} {people : List LinkRecipient}
    {back : List (String × AuditValue)} (front : List (String × AuditValue))
    (hfront : ∀ x ∈ front, x.1 ≠ "recipients") :
    listedPeople (s.linkEvent req action link
      (front ++ ("recipients", recipientDetail people) :: back)) = people.map entryOf := by
  have hlookup : (front ++ ("recipients", recipientDetail people) :: back).lookup "recipients" =
      some (recipientDetail people) := by
    induction front with
    | nil => exact List.lookup_cons_self
    | cons x rest ih =>
        have hx : ("recipients" == x.1) = false := by
          rw [beq_eq_false_iff_ne]
          exact (hfront x (List.mem_cons_self ..)).symm
        obtain ⟨k, v⟩ := x
        rw [List.cons_append, List.lookup_cons, hx]
        exact ih fun y hy => hfront y (List.mem_cons_of_mem _ hy)
  have hdetails : (s.linkEvent req action link
      (front ++ ("recipients", recipientDetail people) :: back)).details =
      front ++ ("recipients", recipientDetail people) :: back := rfl
  rw [listedPeople, hdetails, hlookup]
  rfl

/-- Nobody is on a link that does not exist. -/
theorem nobody_on_new (hk : Integrity.DeliveryKeys d) (hfree : ∀ l ∈ d.links, l.id ≠ id) :
    ∀ r ∈ d.linkRecipients, r.linkId ≠ id := by
  intro r hr hlink
  obtain ⟨l, hl, hid⟩ := hk.personLinks r hr _ rfl
  exact hfree l hl (hid.trans hlink)

theorem explained_postLink (hk : Integrity.DeliveryKeys d) :
    Explained d (postLink P cfg id req s dir d) := by
  refine explained_withCase fun c => ?_
  split
  · exact explained_refuse _
  split
  · exact explained_refuse _
  · rename_i link recipients url d' h
    obtain ⟨input, -, h⟩ := linkFromForm_ok h
    obtain ⟨⟨m, -, hlink⟩, -, hfree, hadded, rfl⟩ := createLink_ok h
    have hids : ∀ l ∈ d.links, l.id ≠ link.id := fun l hl => (hfree l hl).1
    refine accounts_newLink hids (nobody_on_new hk hids) (fun r hr => (hadded r hr).linkId_eq)
      (by rw [hlink]; rfl) (by rw [hlink]; rfl) rfl rfl ?_
    exact listed_linkEvent [_] (List.forall_mem_singleton.2 (by simp))

theorem explained_postReissue (d : DeliveryDb) :
    Explained d (postReissue P cfg id req s dir d) := by
  refine explained_withLink fun link => ?_
  split
  · exact explained_refuse _
  · rename_i h
    rcases rotateLinkToken_ok h with ⟨-, -, rfl⟩ | ⟨hurl, -⟩
    · exact explained_refuse _
    · cases hurl
  · rename_i h
    rcases rotateLinkToken_ok h with ⟨hurl, -⟩ | ⟨-, -, -, rfl⟩
    · cases hurl
    · have htoken : Accounts d (updateLink link.id (fun _ => true) (fun l => { l with
          tokenHash := P.sha256Hex req.random.token, tokenHint := slice 6 req.random.token }) d)
          [s.linkEvent req "link.reissue" link []] :=
        accounts_touch (by exact fun _ => rfl) (by exact fun _ => rfl) (quiet_one rfl)
      exact fun L hL => (htoken L hL).of_tables rfl rfl rfl

theorem explained_postRecipients (d : DeliveryDb) :
    Explained d (postRecipients P id req s dir d) := by
  refine explained_withLink fun link => ?_
  dsimp only
  split
  · exact explained_refuse _
  split
  · exact explained_refuse _
  split
  · exact explained_refuse _
  · rename_i added d' h
    obtain ⟨rfl, hadded⟩ := addRecipients_ok h
    have hlinks : ∀ r ∈ added, r.linkId = link.id := fun r hr => (hadded r hr).linkId_eq
    unfold Explained
    dsimp only
    cases added with
    | nil =>
        rw [List.append_nil]
        exact .refl d
    | cons r rest =>
        exact accounts_addPeople hlinks rfl rfl
          (listed_linkEvent [] (List.forall_mem_nil _))

theorem explained_postRecipientRemove (hk : Integrity.DeliveryKeys d) (rid : String) :
    Explained d (postRecipientRemove P id rid req s dir d) := by
  refine explained_withLink fun link => ?_
  dsimp only
  split
  · exact explained_refuse _
  rename_i rid _
  have hcall := removeRecipient_cases link.id rid d
  split
  · exact explained_refuse _
  · rename_i h
    rw [h] at hcall
    rcases hcall with ⟨-, hsame⟩ | ⟨r, -, -, -, hremoved, -⟩
    · obtain rfl : _ = d := hsame
      exact explained_refuse _
    · cases hremoved
  · rename_i row d' h
    rw [h] at hcall
    rcases hcall with ⟨hkept, -⟩ | ⟨r, hr, hid, hlink, hremoved, hstate⟩
    · exact absurd rfl (hkept row)
    · cases hremoved
      obtain rfl : d' = deleteRecipient rid d := hstate
      subst hid
      have hrow := accounts_removePerson (e := s.linkEvent req "link.recipient_remove" link
        [("email", .text row.email)]) hk.people hk.addresses hr rfl
        (by rw [hlink]; rfl) rfl
      exact hrow

theorem explained_postRevoke (hk : Integrity.DeliveryKeys d) :
    Explained d (postRevoke P id req s d) := by
  refine explained_withLink fun link => ?_
  dsimp only
  split
  · rename_i d' h
    have hchanged : (revokeLink req.now link.id d).1 = true := by rw [h]
    have hrevoke := accounts_revoked (e := s.linkEvent req "link.revoke" link []) hk.links hchanged
      rfl rfl
    rw [h] at hrevoke
    exact fun L hL => (hrevoke L hL).of_tables rfl rfl rfl
  · rename_i d' h
    have hunchanged : changesLink link.id (·.revokedAt.isNone) d = false := congrArg Prod.fst h
    obtain rfl : d' = d := by
      rw [revokeLink, updateLink_eq_self hunchanged] at h
      exact (congrArg Prod.snd h).symm
    exact explained_refuse _

/-! ### Items and uploads -/

/-- The row a statement changed. -/
theorem changed_row {p : ItemRow → Bool} {f : ItemRow → ItemRow}
    (hids : (d.items.map (·.id)).Nodup) (h : (updateItem id p f d).1 = true) :
    ∃ i, getItem id d = some i ∧ p i = true := by
  obtain ⟨i, hi, hrow⟩ := List.any_eq_true.1 h
  rw [Bool.and_eq_true, beq_iff_eq] at hrow
  obtain ⟨rfl, hp⟩ := hrow
  exact ⟨i, Table.find?_of_mem hids hi, hp⟩

theorem updateItem_unchanged {p : ItemRow → Bool} {f : ItemRow → ItemRow}
    (h : (updateItem id p f d).1 = false) : (updateItem id p f d).2 = d := by
  have hrow : ∀ i ∈ d.items, (i.id == id && p i) = true → f i = i := by
    intro i hi hp
    rw [updateItem, List.any_eq_false] at h
    exact absurd hp (h i hi)
  rw [updateItem, Table.update_eq_self hrow]

/-- A statement on an item, logged when it changed a row. -/
theorem accounts_whenChanged {p : ItemRow → Bool} {f : ItemRow → ItemRow} {status : ItemStatus}
    (hids : (d.items.map (·.id)).Nodup) (hf : ∀ i, (f i).id = i.id)
    (hs : ∀ i, (f i).status = status) (hnews : newsOf e.action = some (.itemIs status))
    (hitem : e.itemId = some id) :
    Accounts d (updateItem id p f d).2 (if (updateItem id p f d).1 then [e] else []) := by
  split
  · rename_i h
    obtain ⟨i, hi, hp⟩ := changed_row hids h
    exact accounts_item hf hi hp (hs i) hnews hitem
  · rename_i h
    rw [updateItem_unchanged (by simpa using h)]
    exact .refl d

/-- An upload is given up without a word. -/
theorem accounts_giveUp {i : ItemRow} (hi : getItem id d = some i) (hs : i.status = .uploading) :
    Accounts d (failUpload id .aborted d).2 [] := by
  refine accounts_silent (by exact fun _ => rfl) hi (by rw [hs]; rfl) fun told htold => ?_
  rw [hs] at htold
  cases htold
  exact .dropped

theorem accounts_deleted (hids : (d.items.map (·.id)).Nodup)
    (h : (markDeleted now id d).1 = true) (hnews : newsOf e.action = some (.itemIs .deleted))
    (hitem : e.itemId = some id) : Accounts d (markDeleted now id d).2 [e] := by
  obtain ⟨i, hi, hp⟩ := changed_row hids h
  exact accounts_item (by exact fun _ => rfl) hi hp rfl hnews hitem

/-- A file is deleted without a word. -/
theorem accounts_lose (hids : (d.items.map (·.id)).Nodup)
    (h : (markDeleted now id d).1 = true) : Accounts d (markDeleted now id d).2 [] := by
  obtain ⟨i, hi, hp⟩ := changed_row hids h
  refine accounts_silent (by exact fun _ => rfl) hi hp fun told htold => ?_
  rw [Bool.or_eq_true, beq_iff_eq, beq_iff_eq] at hp
  rcases hp with hs | hs
  · rw [hs] at htold
    cases htold
    exact .deletedReady
  · rw [hs] at htold
    cases htold
    exact .deletedMissing

theorem explained_downloadItem (d : DeliveryDb) : Explained d (downloadItem P id req s d) := by
  unfold downloadItem
  dsimp only
  split
  · exact explained_refuse _
  split
  · exact explained_refuse _
  split
  · exact explained_refuse _
  · exact explained_refuse _
  · exact .quiet rfl rfl rfl (quiet_one rfl)

theorem explained_postItemDelete (hk : Integrity.DeliveryKeys d) :
    Explained d (postItemDelete P id req s d) := by
  unfold postItemDelete
  dsimp only
  split
  · exact explained_refuse _
  rename_i item hitem
  obtain ⟨_, -, hitem⟩ := Option.bind_eq_some_iff.1 hitem
  have hrow : getItem item.id d = some item := getItem_id hitem ▸ hitem
  split
  · exact explained_refuse _
  split
  · rename_i d' h
    have hchanged : (markDeleted req.now item.id d).1 = true := by rw [h]
    have hstate : (markDeleted req.now item.id d).2 = d' := by rw [h]
    split
    · have hlost := accounts_lose hk.items hchanged
      rw [hstate] at hlost
      exact hlost
    · rw [← hstate]
      exact accounts_deleted hk.items hchanged rfl rfl
  · split
    · rename_i hs
      exact accounts_giveUp hrow hs
    · exact explained_refuse _

theorem explained_postMember (d : DeliveryDb) : Explained d (postMember P id req s dir d) := by
  refine explained_withCase fun c => ?_
  dsimp only
  split
  · exact explained_refuse _
  split
  · exact explained_refuse _
  · unfold Explained addCaseMember
    split
    · exact .refl d
    · exact .quiet rfl rfl rfl (quiet_one rfl)

theorem explained_postMemberRemove (uid : String) (d : DeliveryDb) :
    Explained d (postMemberRemove P id uid req s dir d) := by
  refine explained_withCase fun c => ?_
  dsimp only
  split
  · exact explained_refuse _
  rename_i user _
  split
  · exact explained_refuse _
  split
  · exact explained_refuse _
  · rename_i d' h
    obtain rfl : (removeCaseMember c.id user.id d).2 = d' := by rw [h]
    exact .quiet rfl rfl rfl (quiet_one rfl)

/-- An upload starts: its row is there, and is still on its way. -/
theorem accounts_startUpload {input : StartUploadInput} {r : ItemRow × Nat}
    (h : startUpload P cfg now input d = .ok (r, d')) (hnews : newsOf e.action = some (.itemIs .uploading))
    (hitem : e.itemId = some input.id) :
    Accounts d d' [e] ∧ getItem input.id d' = some r.1 ∧ r.1.status = .uploading ∧
      r.1.id = input.id := by
  obtain ⟨hfree, -⟩ := startUpload_row h
  obtain ⟨hid, -, hs, rfl⟩ := startUpload_ok h
  refine ⟨accounts_newItem hfree (by rw [hs]; exact hnews) (by rw [hid]; exact hitem), ?_, hs, hid⟩
  have hnone : d.items.find? (fun i => i.id == input.id) = none := by
    rw [List.find?_eq_none]
    intro i hi
    simpa [← hid] using hfree i hi
  rw [getItem, List.find?_append, hnone, Option.none_or, List.find?_cons_of_pos (by simp [hid])]

theorem explained_directUpload {caseId name : String} {declared : Option Nat} {put : PutAnswer}
    (d : DeliveryDb) : Explained d (directUpload P cfg caseId name declared put req s d) := by
  unfold directUpload
  split
  · exact explained_refuse _
  dsimp only
  split
  · exact explained_refuse _
  split
  · exact explained_refuse _
  · exact explained_refuse _
  · rename_i c _ _ _ item maxBytes d' h
    obtain ⟨hstart, hrow, hs, hid⟩ := accounts_startUpload (e := s.itemEvent req "upload.start" c.id
      (newId "f" req.random.id) [("kind", .text "direct"), ("size", numberDetail declared)]) h rfl rfl
    dsimp only at hs hid hrow
    rw [← hid] at hrow
    split
    · exact hstart.trans (accounts_item (by exact fun _ => rfl) hrow (by rw [hs]; rfl) rfl rfl
        (by rw [hid]; rfl))
    · exact hstart.trans (accounts_item (by exact fun _ => rfl) hrow (by rw [hs]; rfl) rfl rfl
        (by rw [hid]; rfl))
    · exact hstart.trans (accounts_item (by exact fun _ => rfl) hrow (by rw [hs]; rfl) rfl rfl
        (by rw [hid]; rfl))

theorem explained_onUploadFinish (hids : (d.items.map (·.id)).Nodup) (uploadId : String)
    (upload : TusUpload) : Explained d (onUploadFinish uploadId upload req s d) := by
  unfold onUploadFinish
  split
  · exact explained_refuse _
  split
  · exact explained_refuse _
  · exact accounts_whenChanged hids (by exact fun _ => rfl) (by exact fun _ => rfl) rfl rfl

theorem explained_onUploadCreate (hids : (d.items.map (·.id)).Nodup) (upload : TusUpload)
    (finished : Bool) : Explained d (onUploadCreate P cfg upload finished req s d) := by
  unfold onUploadCreate
  dsimp only
  split
  · exact explained_refuse _
  rename_i size _
  split
  · exact explained_refuse _
  split
  · exact explained_refuse _
  rename_i c _
  split
  · exact explained_refuse _
  split
  · exact explained_refuse _
  · exact explained_refuse _
  · rename_i r d' h
    obtain ⟨hstart, -, -, -⟩ := accounts_startUpload (e := s.itemEvent req "upload.start" c.id
      (newId "f" req.random.id) [("kind", .text "tus"), ("size", .number size)]) h rfl rfl
    have hids' : (d'.items.map (·.id)).Nodup := by
      obtain ⟨hfree, -⟩ := startUpload_row h
      obtain ⟨-, -, -, rfl⟩ := startUpload_ok h
      exact Table.nodup_append_row hids hfree
    split
    · exact hstart.trans (explained_onUploadFinish hids' _ _)
    · exact hstart

theorem explained_postTerminate (hids : (d.items.map (·.id)).Nodup) (uploadId : String) :
    Explained d (postTerminate uploadId d) := by
  unfold postTerminate
  split
  · exact explained_refuse _
  · exact accounts_whenChanged hids (by exact fun _ => rfl) (by exact fun _ => rfl) rfl rfl

theorem explained_tus (hids : (d.items.map (·.id)).Nodup) (uploadId : String)
    (request : TusRequest) : Explained d (tusHandler P cfg uploadId request req s d) := by
  unfold tusHandler
  dsimp only
  split
  · exact explained_refuse _
  · exact explained_refuse _
  · split
    · exact explained_refuse _
    · exact explained_refuse _
  · exact explained_refuse _
  · exact explained_onUploadCreate hids _ _
  · split
    · exact explained_refuse _
    · exact explained_refuse _
  · split
    · exact explained_refuse _
    · exact explained_onUploadFinish hids _ _
  · split
    · exact explained_refuse _
    · exact explained_refuse _
  · split
    · exact explained_refuse _
    · exact explained_postTerminate hids _

/-- Every handler of a case route says in the log what it did. -/
theorem explained_work (hk : Integrity.DeliveryKeys d) (route : WorkRoute) :
    Explained d (route.handle P cfg req s dir d) := by
  cases route with
  | cases => exact explained_refuse _
  | createCase => exact explained_postCase d
  | case id => exact explained_refuse _
  | updateCase id => rw [WorkRoute.handle]; exact explained_postCaseUpdate d
  | caseStatus id => rw [WorkRoute.handle]; exact explained_postCaseStatus d
  | note id => rw [WorkRoute.handle]; exact explained_postNote d
  | createLink id => rw [WorkRoute.handle]; exact explained_postLink hk
  | reissue id => rw [WorkRoute.handle]; exact explained_postReissue d
  | addRecipients id => rw [WorkRoute.handle]; exact explained_postRecipients d
  | removeRecipient id rid => rw [WorkRoute.handle]; exact explained_postRecipientRemove hk rid
  | revoke id => rw [WorkRoute.handle]; exact explained_postRevoke hk
  | download id => rw [WorkRoute.handle]; exact explained_downloadItem d
  | deleteItem id => rw [WorkRoute.handle]; exact explained_postItemDelete hk
  | addMember id => rw [WorkRoute.handle]; exact explained_postMember d
  | removeMember id uid => rw [WorkRoute.handle]; exact explained_postMemberRemove uid d
  | upload caseId name declared put => rw [WorkRoute.handle]; exact explained_directUpload d
  | tus uploadId request => rw [WorkRoute.handle]; exact explained_tus hk.items uploadId request

/-! ## Requests to the delivery pages -/

variable {r : DeliverRequest} {v : Visit}

/-- Codes, access sessions and assignments are not told of. -/
theorem Accounts.untold {d₁ : DeliveryDb} (h : Accounts d d₁ events) (hcases : d'.cases = d₁.cases)
    (hlinks : d'.links = d₁.links) (hpeople : d'.linkRecipients = d₁.linkRecipients)
    (hitems : d'.items = d₁.items) : Accounts d d' events := by
  intro L hL
  have hrecord : recordOf d' = recordOf d₁ := by
    funext l
    rw [recordOf, recordOf, peopleOf, peopleOf, listRecipients, listRecipients, hpeople]
  refine (h L hL).of_tables ?_ ?_ ?_
  · rw [caseTable, caseTable, hcases]
  · rw [linkTable, linkTable, hlinks, hrecord]
  · rw [itemTable, itemTable, hitems]

theorem explained_showDelivery (d : DeliveryDb) : Explained d (showDelivery P cfg r v d) := by
  have hknock : Explained d (showDelivery.knock P cfg r v d (v.view r r.originalUrl)) :=
    accounts_touch (by exact fun _ => rfl) (by exact fun _ => rfl) (List.forall_mem_nil _)
  unfold showDelivery
  dsimp only
  split
  · split
    · exact .refl d
    · exact hknock
  · exact hknock

theorem explained_postEmail (d : DeliveryDb) : Explained d (postEmail P cfg r v d) := by
  unfold postEmail
  dsimp only
  split
  · exact .refl d
  split
  · exact .quiet rfl rfl rfl (quiet_one rfl)
  split
  · exact .quiet rfl rfl rfl (quiet_one rfl)
  · exact .refl d
  · rename_i h
    obtain ⟨-, -, -, -, -, rfl⟩ := createChallenge_ok h
    split
    · exact .quiet rfl rfl rfl (quiet_one rfl)
    · exact .quiet rfl rfl rfl (quiet_one rfl)

theorem accounts_recordOpen (now : Int) (id : String) (d : DeliveryDb) :
    Accounts d (recordRecipientOpen now id d) [] := by
  have hpeople : ∀ k, peopleOf k (recordRecipientOpen now id d) = peopleOf k d := by
    intro k
    rw [peopleOf, peopleOf, listRecipients, listRecipients, recordRecipientOpen,
      Table.filter_update (by exact fun _ => rfl), Table.map_update _ (by exact fun _ => rfl)]
  have hrecord : recordOf (recordRecipientOpen now id d) = recordOf d := by
    funext l
    rw [recordOf, recordOf, hpeople]
  refine .quiet rfl ?_ rfl (List.forall_mem_nil _)
  rw [linkTable, linkTable, hrecord]
  rfl

/-- A session is refused only when its row would break a constraint. -/
theorem createAccessSession_of {draw : AccessDraw} {linkId : String}
    {recipientId ip : Option String}
    (hfresh : ∀ a ∈ d.accessSessions, a.idHash ≠ P.sha256Hex draw.sessionId)
    (hlink : ∃ l ∈ d.links, l.id = linkId)
    (hperson : ∀ k, recipientId = some k → ∃ x ∈ d.linkRecipients, x.id = k) :
    ∃ out, createAccessSession P cfg now draw linkId recipientId ip d = .ok out := by
  unfold createAccessSession
  dsimp only
  rw [if_neg]
  · exact ⟨_, rfl⟩
  · simp only [Bool.or_eq_true, Bool.not_eq_true', not_or, Bool.not_eq_false, List.any_eq_true,
      beq_iff_eq, not_exists, not_and]
    refine ⟨⟨hfresh, hlink⟩, ?_⟩
    cases recipientId with
    | none => rfl
    | some k => simpa using hperson k rfl

/-- An opening that is counted is logged: the session is made, too. -/
theorem explained_openSession (hk : (d.links.map (·.id)).Nodup) {recipientId : Option String}
    (hpeople : ∀ x ∈ v.resolved.recipients, x ∈ d.linkRecipients)
    (hfresh : ∀ a ∈ d.accessSessions, a.idHash ≠ P.sha256Hex r.random.sessionId) :
    Explained d (openSession P cfg r v recipientId d) := by
  unfold openSession
  dsimp only
  split
  · rename_i hopened
    have hstate : (registerOpen r.now v.resolved.link.id d).2 = d :=
      by
      rw [Bool.not_eq_true'] at hopened
      exact updateLink_eq_self hopened
    rw [hstate]
    exact .refl d
  rename_i hopened
  rw [Bool.not_eq_true, Bool.not_eq_false'] at hopened
  -- the opening and the person's count leave all that the session refers to
  obtain ⟨d₁, hstate₁⟩ : ∃ d₁, (registerOpen r.now v.resolved.link.id d).2 = d₁ := ⟨_, rfl⟩
  have hopen : ∀ e : AuditEvent, newsOf e.action = some .opened →
      e.linkId = some v.resolved.link.id → Accounts d d₁ [e] :=
    fun e hnews hlink => hstate₁ ▸ accounts_opened hk hopened hnews hlink
  have hids : d₁.links.map (·.id) = d.links.map (·.id) :=
    hstate₁ ▸ updateLink_ids (by exact fun _ => rfl)
  have hlink : ∃ l ∈ d₁.links, l.id = v.resolved.link.id := by
    obtain ⟨l, hl, hrow⟩ := List.any_eq_true.1 hopened
    rw [Bool.and_eq_true, beq_iff_eq] at hrow
    have hmem : v.resolved.link.id ∈ d₁.links.map (·.id) :=
      hids ▸ hrow.1 ▸ List.mem_map_of_mem hl
    exact List.mem_map.1 hmem
  have hrows : d₁.linkRecipients = d.linkRecipients ∧ d₁.accessSessions = d.accessSessions :=
    hstate₁ ▸ ⟨rfl, rfl⟩
  rw [hstate₁]
  cases hfound : v.resolved.recipients.find? fun x => some x.id == recipientId with
  | none =>
      dsimp only
      obtain ⟨⟨⟨sid, session⟩, d₂⟩, hout⟩ := @createAccessSession_of P cfg d₁ r.now
        ⟨r.random.sessionId, r.random.csrfToken⟩ v.resolved.link.id none r.ip
        (hrows.2 ▸ hfresh) hlink (by rintro k ⟨⟩)
      rw [Option.map_none, hout]
      obtain ⟨-, -, rfl⟩ := createAccessSession_ok hout
      exact (hopen _ rfl rfl).untold rfl rfl rfl rfl
  | some x =>
      dsimp only
      have hx : x ∈ d.linkRecipients := hpeople x (List.mem_of_find?_eq_some hfound)
      have hperson : ∃ y ∈ (recordRecipientOpen r.now x.id d₁).linkRecipients, y.id = x.id := by
        have hkeys := @recordRecipientOpen_keys r.now x.id d₁
        have hmem : (x.id, x.linkId) ∈
            (recordRecipientOpen r.now x.id d₁).linkRecipients.map fun r => (r.id, r.linkId) := by
          rw [hkeys, hrows.1]
          exact List.mem_map.2 ⟨x, hx, rfl⟩
        obtain ⟨y, hy, hsame⟩ := List.mem_map.1 hmem
        exact ⟨y, hy, congrArg Prod.fst hsame⟩
      obtain ⟨⟨⟨sid, session⟩, d₂⟩, hout⟩ := @createAccessSession_of P cfg (recordRecipientOpen r.now x.id d₁) r.now
        ⟨r.random.sessionId, r.random.csrfToken⟩ v.resolved.link.id (some x.id) r.ip
        (hrows.2 ▸ hfresh) hlink (by rintro k ⟨⟩; exact hperson)
      rw [Option.map_some, hout]
      obtain ⟨-, -, rfl⟩ := createAccessSession_ok hout
      exact Accounts.untold ((hopen _ rfl rfl).trans (accounts_recordOpen r.now x.id d₁))
        rfl rfl rfl rfl

theorem explained_postCode (hk : (d.links.map (·.id)).Nodup)
    (hpeople : ∀ x ∈ v.resolved.recipients, x ∈ d.linkRecipients)
    (hfresh : ∀ a ∈ d.accessSessions, a.idHash ≠ P.sha256Hex r.random.sessionId) :
    Explained d (postCode P cfg r v d) := by
  have hver := verified P cfg r.now (v.verifyInput r) d
  unfold postCode
  dsimp only
  generalize verifyChallenge P cfg r.now (v.verifyInput r) d = out at hver
  cases hver with
  | nothing => exact .quiet rfl rfl rfl (quiet_one rfl)
  | exhausted => exact .quiet rfl rfl rfl (quiet_one rfl)
  | wrong => exact .quiet rfl rfl rfl (quiet_one rfl)
  | accepted row _ _ =>
      have hopen := @explained_openSession P cfg
        (consumeWhere r.now (fun c => c.id == row.id) d) r v hk row.recipientId hpeople hfresh
      have hconsumed : Accounts d (consumeWhere r.now (fun c => c.id == row.id) d) [] :=
        .quiet rfl rfl rfl (List.forall_mem_nil _)
      exact hconsumed.after hopen

theorem explained_getFile (itemId : String) (d : DeliveryDb) :
    Explained d (getFile itemId r v d) := by
  unfold getFile
  dsimp only
  split
  · exact .refl d
  split
  · exact .refl d
  split
  · exact .refl d
  split
  · exact .refl d
  · exact .refl d
  · exact .quiet rfl rfl rfl (quiet_one rfl)

/-- A request to a delivery page says in the log what it did. -/
theorem explained_deliver (hk : (d.links.map (·.id)).Nodup)
    (hfresh : ∀ a ∈ d.accessSessions, a.idHash ≠ P.sha256Hex r.random.sessionId) :
    Explained d (deliver P cfg r d) := by
  obtain ⟨p, hdrop⟩ := Outletbox.enter_drops (P := P) r d
  unfold deliver
  cases henter : enter P cfg r d with
  | mk result d₁ =>
      rw [henter] at hdrop
      obtain rfl : d₁ = deleteSessionsWhere p d := hdrop
      cases result with
      | error response => exact .quiet rfl rfl rfl (List.forall_mem_nil _)
      | ok v =>
          have hent := enter_ok henter
          have hcut : Accounts d (deleteSessionsWhere p d) [] :=
            .quiet rfl rfl rfl (List.forall_mem_nil _)
          refine hcut.after ?_
          have hpeople : ∀ x ∈ v.resolved.recipients, x ∈ d.linkRecipients := by
            obtain ⟨-, -, -, -, -, hrecipients⟩ := resolveToken_some hent.resolved
            intro x hx
            rw [hrecipients] at hx
            exact (List.mem_filter.1 hx).1
          have hleft : ∀ a ∈ (deleteSessionsWhere p d).accessSessions,
              a.idHash ≠ P.sha256Hex r.random.sessionId :=
            fun a ha => hfresh a (List.mem_filter.1 ha).1
          dsimp only
          cases r.route with
          | page => exact explained_showDelivery _
          | email => exact explained_postEmail _
          | code => exact explained_postCode hk hpeople hleft
          | restart => exact .quiet rfl rfl rfl (List.forall_mem_nil _)
          | close =>
              simp only [DeliverRoute.handle]
              unfold postClose
              dsimp only
              split
              · exact .refl _
              · exact .quiet rfl rfl rfl (quiet_one rfl)
          | file itemId => exact explained_getFile itemId _

/-! ## Housekeeping -/

theorem accounts_expireUploads (items : List ItemRow) (hids : (d.items.map (·.id)).Nodup) :
    Accounts d (expireUploads items d).2 (expireUploads items d).1 := by
  induction items generalizing d with
  | nil => exact .refl d
  | cons item rest ih =>
      have hfirst := accounts_whenChanged (e := cleanupEvent "upload.expired" item)
        (p := fun i => i.status == .uploading) (f := fun i => { i with status := .expired })
        hids (by exact fun _ => rfl) (by exact fun _ => rfl) rfl rfl
      have hids' : ((failUpload item.id .expired d).2.items.map (·.id)).Nodup :=
        Table.nodup_update (by exact fun _ => rfl) hids
      have hall := hfirst.trans (ih hids')
      unfold expireUploads
      dsimp only
      split
      · rename_i h
        rw [failUpload] at h
        rw [if_pos h] at hall
        exact hall
      · rename_i h
        rw [failUpload] at h
        rw [if_neg h] at hall
        exact hall

/-- Another item's row. -/
theorem getItem_updateItem_ne {p : ItemRow → Bool} {f : ItemRow → ItemRow} {k : String}
    (hf : ∀ i, (f i).id = i.id) (hk : k ≠ id) :
    getItem k (updateItem id p f d).2 = getItem k d := by
  rw [getItem, getItem, updateItem, Table.find?_update fun i => by rw [hf]]
  cases hrow : d.items.find? fun i => i.id == k with
  | none => rfl
  | some i =>
      have hid := List.find?_some (p := fun i : ItemRow => i.id == k) hrow
      rw [Option.map_some, if_neg]
      rw [Bool.and_eq_true, beq_iff_eq, beq_iff_eq.1 hid]
      exact fun h => hk h.1

theorem accounts_flagMissing {items : List ItemRow} (hnodup : (items.map (·.id)).Nodup)
    (hready : ∀ i ∈ items, getItem i.id d = some i ∧ i.status = .ready ∧ i.kind = .file) :
    Accounts d (flagMissing items d).2 (flagMissing items d).1 := by
  induction items generalizing d with
  | nil => exact .refl d
  | cons item rest ih =>
      obtain ⟨hnew, hrest⟩ := List.nodup_cons.1 hnodup
      obtain ⟨hrow, hs, hkind⟩ := hready item (List.mem_cons_self ..)
      have hfirst := accounts_item (e := cleanupEvent "file.missing" item)
        (p := fun i => i.status == .ready && i.kind == .file)
        (f := fun i => { i with status := .missing }) (by exact fun _ => rfl) hrow
        (by rw [hs, hkind]; rfl) rfl rfl rfl
      refine hfirst.trans (ih hrest fun i hi => ?_)
      obtain ⟨hi', hstatus⟩ := hready i (List.mem_cons_of_mem _ hi)
      refine ⟨?_, hstatus⟩
      rw [getItem_updateItem_ne (by exact fun _ => rfl)]
      · exact hi'
      · intro hsame
        exact hnew (List.mem_map.2 ⟨i, hi, hsame⟩)

theorem expireUploads_ids (items : List ItemRow) (d : DeliveryDb) :
    (expireUploads items d).2.items.map (·.id) = d.items.map (·.id) := by
  induction items generalizing d with
  | nil => rfl
  | cons item rest ih =>
      exact (ih (failUpload item.id .expired d).2).trans
        (Table.map_update _ (by exact fun _ => rfl) d.items)

theorem accounts_cleanup (hids : (sv.deliveries.items.map (·.id)).Nodup) (run : CleanupRun) :
    Accounts sv.deliveries (runCleanup run sv).1.deliveries (runCleanup run sv).2 := by
  have hexpired := accounts_expireUploads (listStaleUploads run.now run.ttlMs sv.deliveries) hids
  have hkeys := expireUploads_ids (listStaleUploads run.now run.ttlMs sv.deliveries) sv.deliveries
  unfold runCleanup
  dsimp only
  generalize expireUploads (listStaleUploads run.now run.ttlMs sv.deliveries) sv.deliveries = out
    at hexpired hkeys ⊢
  obtain ⟨expired, d⟩ := out
  have hids' : (d.items.map (·.id)).Nodup := hkeys ▸ hids
  have hmissing := @accounts_flagMissing d ((listReadyFiles d).filter fun i => run.isGone i.id)
    (((List.filter_sublist.trans List.filter_sublist).map fun i : ItemRow => i.id).nodup hids') (by
      intro i hi
      obtain ⟨hmem, hready⟩ := List.mem_filter.1 (List.mem_filter.1 hi).1
      rw [Bool.and_eq_true, beq_iff_eq, beq_iff_eq] at hready
      exact ⟨Table.find?_of_mem hids' hmem, hready⟩)
  exact Accounts.untold (hexpired.trans hmissing) rfl rfl rfl rfl

/-! ## Requests that do not reach the deliveries -/

/-- A handler whose events do not tell of a delivery. -/
def Silent {σ : Type} (out : Outcome σ PanelPage) : Prop := ∀ e ∈ out.audit, newsOf e.action = none

theorem silent_none {σ : Type} (st : σ) (response : Response PanelPage) :
    Silent { state := st, response := response } :=
  List.forall_mem_nil _

theorem silent_dbscRegister (signed : Option Signed) (d : AccountDb) :
    Silent (dbscRegister P cfg req signed d) := by
  unfold dbscRegister
  dsimp only
  split
  · split
    · exact silent_none _ _
    split
    · exact quiet_one rfl
    · exact silent_none _ _
    · exact silent_none _ _
  · exact silent_none _ _

theorem silent_dbscRefresh (d : AccountDb) : Silent (dbscRefresh P cfg req d) := by
  unfold dbscRefresh
  dsimp only
  split
  · exact silent_none _ _
  · split <;> exact silent_none _ _

theorem silent_postLogin (d : AccountDb) : Silent (postLogin P cfg req d) := by
  unfold postLogin
  dsimp only
  split
  · exact quiet_one rfl
  split
  · exact silent_none _ _
  split
  · exact quiet_one rfl
  · exact quiet_one rfl

theorem silent_open (route : OpenRoute) (signed : Option Signed) (d : AccountDb) :
    Silent (route.handle P cfg req signed d) := by
  cases route with
  | dbscRegister => exact silent_dbscRegister signed d
  | dbscRefresh => exact silent_dbscRefresh d
  | loginPage => exact silent_none _ _
  | login => exact silent_postLogin d

theorem silent_ceremonyOptions (purpose : CeremonyPurpose) (d : AccountDb) :
    Silent (ceremonyOptions P cfg req s purpose d) := by
  unfold ceremonyOptions
  dsimp only
  split <;> exact silent_none _ _

theorem silent_passkeyLogin (d : AccountDb) : Silent (passkeyLogin P cfg req s d) := by
  unfold passkeyLogin
  split
  · exact silent_none _ _
  split
  · exact quiet_one rfl
  · exact quiet_one rfl
  · exact silent_none _ _

theorem silent_postTotp (d : AccountDb) : Silent (postTotp P cfg req s d) := by
  unfold postTotp
  dsimp only
  split
  · exact silent_none _ _
  split
  · exact silent_none _ _
  · exact quiet_one rfl
  · exact quiet_one rfl
  · exact quiet_one rfl

theorem silent_pending (route : PendingRoute) (d : AccountDb) :
    Silent (route.handle P cfg req s d) := by
  cases route with
  | logout => exact quiet_one rfl
  | totpPage => exact silent_none _ _
  | passkeyLoginOptions =>
      rw [PendingRoute.handle, passkeyLoginOptions]
      split
      · exact silent_none _ _
      · exact silent_ceremonyOptions .login d
  | passkeyLogin => exact silent_passkeyLogin d
  | totp => exact silent_postTotp d

theorem silent_confirmations (d : AccountDb) :
    Silent (confirmCode P cfg req s d) ∧ Silent (confirmPassword P cfg req s d) ∧
      Silent (confirmPasskey P cfg req s d) := by
  refine ⟨?_, ?_, ?_⟩
  · unfold confirmCode
    dsimp only
    split <;> exact quiet_one rfl
  · unfold confirmPassword
    split <;> exact quiet_one rfl
  · unfold confirmPasskey
    split
    · exact quiet_one rfl
    · exact quiet_one rfl
    · exact silent_none _ _

theorem silent_totpSettings (d : AccountDb) :
    Silent (postPassword P cfg req s d) ∧ Silent (totpBegin P cfg req s d) ∧
      Silent (totpConfirm P cfg req s d) ∧ Silent (totpRecovery P cfg req s d) ∧
      Silent (totpDisable P cfg req s d) := by
  refine ⟨?_, ?_, ?_, ?_, ?_⟩
  · unfold postPassword
    dsimp only
    split
    · exact silent_none _ _
    split
    · exact silent_none _ _
    · exact silent_none _ _
    · exact quiet_one rfl
  · unfold totpBegin
    split <;> exact silent_none _ _
  · unfold totpConfirm
    dsimp only
    split
    · exact silent_none _ _
    · exact quiet_one rfl
  · unfold totpRecovery
    dsimp only
    split
    · exact silent_none _ _
    · exact quiet_one rfl
  · unfold totpDisable
    dsimp only
    split
    · exact silent_none _ _
    split
    · exact quiet_one rfl
    · exact quiet_one rfl

theorem silent_passkeyOptions (d : AccountDb) : Silent (passkeyOptions P cfg req s d) := by
  unfold passkeyOptions
  dsimp only
  split
  · exact silent_none _ _
  · split <;> exact silent_none _ _

theorem silent_postPasskey (st : AccountState) : Silent (postPasskey P cfg req s st) := by
  unfold postPasskey
  dsimp only
  split
  · exact quiet_one rfl
  · exact quiet_one rfl
  · exact silent_none _ _

theorem silent_postPasskeyRemove (d : AccountDb) :
    Silent (postPasskeyRemove P cfg id req s d) := by
  unfold postPasskeyRemove
  dsimp only
  split
  · exact silent_none _ _
  split
  · exact silent_none _ _
  split
  · exact silent_none _ _
  · exact quiet_one rfl

theorem silent_recoveryRegenerate (d : AccountDb) :
    Silent (recoveryRegenerate P cfg req s d) := by
  unfold recoveryRegenerate
  dsimp only
  split
  · exact silent_none _ _
  · exact quiet_one rfl

theorem silent_postRevokeSession (d : AccountDb) :
    Silent (postRevokeSession P cfg id req s d) := by
  unfold postRevokeSession
  dsimp only
  split
  · exact silent_none _ _
  split
  · exact silent_none _ _
  · exact quiet_one rfl

theorem silent_settings (route : SettingsRoute) (st : AccountState) :
    Silent (route.handle P cfg req s st) := by
  have hconfirm := @silent_confirmations P cfg req s st.accounts
  have htotp := @silent_totpSettings P cfg req s st.accounts
  cases route with
  | confirmPage => exact silent_none _ _
  | confirmCode => exact hconfirm.1
  | confirmPassword => exact hconfirm.2.1
  | confirmPasskeyOptions => exact silent_ceremonyOptions .confirm st.accounts
  | confirmPasskey => exact hconfirm.2.2
  | security => exact silent_none _ _
  | password => exact htotp.1
  | totpBegin => exact htotp.2.1
  | totpConfirm => exact htotp.2.2.1
  | totpRecovery => exact htotp.2.2.2.1
  | totpDisable => exact htotp.2.2.2.2
  | passkeyOptions => exact silent_passkeyOptions st.accounts
  | passkeys => exact silent_postPasskey st
  | passkeyRemove id => exact silent_postPasskeyRemove st.accounts
  | recoveryRegenerate => exact silent_recoveryRegenerate st.accounts
  | revokeOthers => exact quiet_one rfl
  | revokeSession id => exact silent_postRevokeSession st.accounts

theorem silent_groupSaved {accounts : AccountDb} {action : String} {key : MessageKey}
    (h : newsOf action = none) (g : GroupDb) :
    Silent (groupSaved P req s accounts id action key g) := by
  unfold groupSaved
  split
  · exact silent_none _ _
  · exact quiet_one h

theorem silent_editableGroup {accounts : AccountDb} {g : GroupDb}
    {f : Group → Outcome GroupDb PanelPage} (hf : ∀ group, Silent (f group)) :
    Silent (editableGroup P id req s accounts g f) := by
  unfold editableGroup
  dsimp only
  split
  · exact silent_none _ _
  split
  · exact silent_none _ _
  · exact hf _

theorem silent_groups (route : GroupRoute) (accounts : AccountDb) (g : GroupDb) :
    Silent (route.handle P req s accounts g) := by
  cases route with
  | list => exact silent_none _ _
  | create =>
      rw [GroupRoute.handle, postGroup]
      split
      · exact silent_none _ _
      · exact silent_groupSaved rfl _
  | update id =>
      rw [GroupRoute.handle]
      refine silent_editableGroup fun group => ?_
      dsimp only
      split
      · exact silent_none _ _
      · exact silent_groupSaved rfl _
  | delete id =>
      rw [GroupRoute.handle]
      exact silent_editableGroup fun group => quiet_one rfl

theorem silent_userFailed (e : Failure) (db : Tables) : Silent (userFailed P req s e db) := by
  unfold userFailed
  split <;> exact silent_none _ _

theorem silent_userAction {action : String} {f : String → Tables → Except Failure (UserDone × Tables)}
    (h : newsOf action = none) (db : Tables) : Silent (userAction P action id req s f db) := by
  unfold userAction
  split
  · exact silent_none _ _
  split
  · exact silent_userFailed _ _
  · exact quiet_one h

theorem silent_users (route : UserRoute) (db : Tables) : Silent (route.handle P req s db) := by
  cases route with
  | list => exact silent_none _ _
  | create =>
      rw [UserRoute.handle, postUser]
      split
      · exact silent_userFailed _ _
      · exact quiet_one rfl
  | _ => exact silent_userAction rfl _

/-! ## Steps and runs -/

/-- Removing an account leaves the deliveries to those who are left. -/
theorem accounts_forgetAdmin (id : String) (d : DeliveryDb) :
    Accounts d (d.forgetAdmin id) [] :=
  .quiet rfl rfl (Table.lookup_update_hidden ItemRow.status (by exact fun _ => rfl)
    (by exact fun _ => rfl)) (List.forall_mem_nil _)

theorem explained_servePanel {r : PanelRequest} (hk : Integrity.DeliveryKeys sv.deliveries) :
    Accounts sv.deliveries (servePanel P cfg r s sv).state.deliveries
      (servePanel P cfg r s sv).audit := by
  unfold servePanel
  split
  · exact .refl _
  cases r.route with
  | pending route => exact .quiet rfl rfl rfl (silent_pending route sv.accounts)
  | settings route => exact .quiet rfl rfl rfl (silent_settings route sv.accountState)
  | work route => exact explained_work hk route
  | groups route => exact .quiet rfl rfl rfl (silent_groups route sv.accounts sv.groups)
  | users route =>
      have hquiet := @silent_users P r.toRequest s route sv.tables
      rcases (userEffect P route r.toRequest s sv.tables).deliveries_eq with hd | ⟨id, hd⟩
      · exact .quiet (congrArg caseTable hd) (congrArg linkTable hd) (congrArg itemTable hd) hquiet
      · have hforgotten := accounts_forgetAdmin id sv.deliveries
        rw [← (show sv.tables.deliveries = sv.deliveries from rfl), ← hd] at hforgotten
        intro L hL
        rw [PanelRoute.handle]
        exact (foldl_quiet hquiet).symm ▸ hforgotten L hL
  | audit => exact .refl _

theorem explained_panel (hk : Integrity.DeliveryKeys sv.deliveries) (r : PanelRequest) :
    Accounts sv.deliveries (panel P cfg r sv).state.deliveries (panel P cfg r sv).audit := by
  unfold panel
  dsimp only
  split
  · exact .refl _
  · rename_i s _
    have hserved := @explained_servePanel P cfg { sv with
      accounts :=
        (offerMiddleware P cfg r s (sessionMiddleware P r.toRequest sv.accounts).2).2 } s r hk
    exact hserved

/-- The identifier of a new access session is nobody's. -/
def FreshSession (P : Platform) (sv : Server) : Input → Prop
  | .deliver r => ∀ a ∈ sv.deliveries.accessSessions, a.idHash ≠ P.sha256Hex r.random.sessionId
  | _ => True

instance (sv : Server) (i : Input) : Decidable (FreshSession P sv i) :=
  match i with
  | .deliver _ => inferInstanceAs (Decidable (∀ a ∈ _, _))
  | .visit _ | .panel _ | .cleanup _ | .cli .. => isTrue trivial

/-- Every step says in the log what it did to the deliveries. -/
theorem explained_step (hs : Integrity.Sound sv) {i : Input} (hi : FreshSession P sv i) :
    Accounts sv.deliveries (Server.step P cfg sv i).1.deliveries (Server.step P cfg sv i).2.audit := by
  cases i with
  | deliver r => exact explained_deliver hs.deliveries.links hi
  | visit r =>
      have hvisit : (visit P cfg r sv).state.deliveries = sv.deliveries ∧
          Silent (visit P cfg r sv) := by
        unfold visit
        dsimp only
        split
        · exact ⟨rfl, silent_none _ _⟩
        · exact ⟨rfl, silent_open r.route _ _⟩
      exact .quiet (congrArg caseTable hvisit.1) (congrArg linkTable hvisit.1)
        (congrArg itemTable hvisit.1) hvisit.2
  | panel r => exact explained_panel hs.deliveries r
  | cleanup run => exact accounts_cleanup hs.deliveries.items run
  | cli now draw command => exact .refl _

theorem record_log (now : Int) (events : List AuditEvent) (sv : Server) :
    (sv.record now events).auditLog.map (·.event) = sv.auditLog.map (·.event) ++ events := by
  rw [Server.record, List.map_append, List.map_map]
  exact congrArg _ (List.map_id events)

/-- A step writes its events at the end of the log, and nothing else. -/
theorem step_log (sv : Server) (i : Input) :
    (Server.step P cfg sv i).1.auditLog.map (·.event) =
      sv.auditLog.map (·.event) ++ (Server.step P cfg sv i).2.audit := by
  cases i with
  | deliver r => exact record_log _ _ _
  | visit r =>
      have hvisit : (visit P cfg r sv).state.auditLog = sv.auditLog := by
        unfold visit
        dsimp only
        split <;> rfl
      exact (record_log _ _ _).trans (by rw [hvisit]; rfl)
  | panel r =>
      have hpanel : (panel P cfg r sv).state.auditLog = sv.auditLog := by
        rcases panel_state (P := P) r sv with ⟨accounts, h⟩ | ⟨s, accounts, -, -, h⟩
        · rw [h]
        · rw [h]
          cases r.route <;> rfl
      exact (record_log _ _ _).trans (by rw [hpanel]; rfl)
  | cleanup run => exact record_log _ _ _
  | cli now draw command => exact (List.append_nil _).symm

/-- The log alone tells the cases and their status, the links with their openings and their people,
and what became of the items: after every run, it tells what the tables say. -/
theorem log_tells (P : Platform) (cfg : Config) {h : List ServerEvent}
    (hr : History.Run (Server.step P cfg) (fun _ sv i => FreshSession P sv i) .empty h sv) :
    Agrees (Ledger.of (sv.auditLog.map (·.event))) sv.deliveries := by
  induction hr with
  | start => exact ⟨rfl, rfl, fun id => .same none⟩
  | @step h sv i hr hi ih =>
      have hsound : Integrity.Sound sv := hr.invariant (I := fun _ sv => Integrity.Sound sv)
        Integrity.sound_empty fun _ _ i _ _ hs => Integrity.sound_step hs i
      rw [step_log, Ledger.of, List.foldl_append]
      exact explained_step hsound hi _ ih

end

/-- After a delivery was opened, the log alone tells that it was. -/
theorem log_tells_opened :
    Agrees (Ledger.of (Access.opened.2.auditLog.map (·.event))) Access.opened.2.deliveries ∧
      linkTable Access.opened.2.deliveries (newId "l" sampleId) =
        some ⟨1, false, ["a@b.example en"]⟩ := by
  have hfresh : History.Admits (Server.step .sample defaultConfig)
      (fun _ sv i => FreshSession .sample sv i) [] .empty Access.openedScript := by
    refine ⟨trivial, trivial, trivial, trivial, ?_, ?_, trivial⟩
    · show FreshSession _ _ _
      decide +kernel
    · show FreshSession _ _ _
      decide +kernel
  exact ⟨log_tells .sample defaultConfig (History.run_replay .start hfresh), by decide +kernel⟩

end AuditLog

end Outletbox
