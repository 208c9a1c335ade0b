import Outletbox.Integrity

/-!
# The address groups as a book

What the two tables of the address groups are for: a book that has one entry
under an identifier, which stands there exactly as it was last saved.  A request
asks one thing of the book, and it is done if and only if the request is answered
so, for someone who may have it done: everyone may add an entry of his own, an
entry is changed or removed by its owner or by an administrator, and only an
administrator removes an owner.

The tables hold the whole text of a name.  That `node:sqlite` reads a text back up
to its first U+0000 only is left out.
-/

namespace Outletbox

namespace AddressBook

variable (P : Platform) (cfg : Config)

/-! ## The book -/

structure Entry where
  name : String
  people : List RecipientInput
  owner : Option String
  deriving DecidableEq

abbrev Book := String → Option Entry

/-- What the form takes. -/
structure Entry.Good (e : Entry) : Prop where
  name : IsName e.name
  some : e.people ≠ []
  few : e.people.length ≤ maxRecipients
  distinct : (e.people.map (·.email)).Nodup
  valid : ∀ r ∈ e.people, isValidEmail r.email = true

def Entry.MayEdit (viewer : Viewer) (e : Entry) : Prop :=
  viewer.role = .admin ∨ e.owner = some viewer.id

/-- An entry without its owner. -/
def Entry.orphan (id : String) (e : Entry) : Entry :=
  if e.owner = some id then { e with owner := none } else e

/-- What can be asked of the book. -/
inductive Ask
  /-- A new entry, under an identifier that was drawn for it. -/
  | add (id name : String) (people : List RecipientInput)
  | save (id name : String) (people : List RecipientInput)
  | remove (id : String)
  /-- The account goes, and its name off its entries. -/
  | removeOwner (id : String)

def Ask.May (viewer : Viewer) (b : Book) : Ask → Prop
  | .add id name people => b id = none ∧ (Entry.mk name people (some viewer.id)).Good
  | .save id name people =>
      ∃ old, b id = some old ∧ old.MayEdit viewer ∧ (Entry.mk name people old.owner).Good
  | .remove id => ∃ old, b id = some old ∧ old.MayEdit viewer
  | .removeOwner _ => viewer.role = .admin

/-- The book when it is done. -/
def Ask.result (viewer : Viewer) (b : Book) : Ask → Book
  | .add id name people => Function.update b id (some ⟨name, people, some viewer.id⟩)
  | .save id name people =>
      Function.update b id ((b id).map fun old => ⟨name, people, old.owner⟩)
  | .remove id => Function.update b id none
  | .removeOwner id => fun k => (b k).map (Entry.orphan id)

/-- One step of the book: what is asked is done for someone who may have it done, or is not. -/
inductive Deed (who : Option Viewer) (ask : Option Ask) (b : Book) : Bool → Book → Prop
  | nothing : Deed who ask b false b
  | did {viewer : Viewer} {a : Ask} : who = some viewer → ask = some a → a.May viewer b →
      Deed who ask b true (a.result viewer b)

/-! ## The tables -/

def entryOf (g : GroupDb) (row : GroupRow) : Entry := ⟨row.name, membersOf row.id g, row.createdBy⟩

/-- The book the tables hold. -/
def book (g : GroupDb) : Book := fun id => (g.groups.find? (·.id == id)).map (entryOf g)

/-- The account a request to the panel is made in. -/
def requester (e : ServerEvent) : Option Viewer :=
  match e.input with
  | .panel r =>
      ((requireAdmin P cfg r (sessionMiddleware P r.toRequest e.pre.accounts).1).toOption).map
        (·.viewer)
  | _ => none

/-- What a route asks of the book.  A list of people that cannot be read has nobody in it. -/
def ask (req : Request) : PanelRoute → Option Ask
  | .groups .create =>
      some (.add (newId "g" req.random.id) (trim (req.field "name"))
        ((groupFormMembers P req).toOption.getD []))
  | .groups (.update id) =>
      some (.save id (trim (req.field "name")) ((groupFormMembers P req).toOption.getD []))
  | .groups (.delete id) => some (.remove id)
  | .users (.delete id) => some (.removeOwner id)
  | _ => none

def asked (e : ServerEvent) : Option Ask :=
  match e.input with
  | .panel r => ask P r.toRequest r.route
  | _ => none

/-- What is asked is done: the page comes with the status 200. -/
def answered (ask : Option Ask) (status : Nat) : Bool := ask.isSome && status == 200

def isDone (e : ServerEvent) : Bool :=
  match e.output.answer with
  | .panel response => answered (asked P e) response.status
  | _ => false

/-- The book the requests that were answered so have made, the last one first. -/
def written : List ServerEvent → Book
  | [] => fun _ => none
  | e :: h =>
      if isDone P e then
        match requester P cfg e, asked P e with
        | some viewer, some ask => ask.result viewer (written h)
        | _, _ => written h
      else written h

section

variable {P} {cfg} {g g' : GroupDb} {id name : String} {now : Int} {people : List RecipientInput}
  {req : Request} {s : Signed} {accounts : AccountDb} {sv : Server}

/-- What the pages show of a group is its entry. -/
theorem book_getGroup (id : String) (accounts : AccountDb) (g : GroupDb) :
    (getGroup id accounts g).map (fun x => Entry.mk x.name x.members x.createdBy) = book g id := by
  rw [getGroup, Option.map_map]
  rfl

/-! ## Members -/

/-- The members of a group read back in the order they were written. -/
theorem membersOf_write (h : writeMembers id people g = .ok g') :
    g'.groups = g.groups ∧ (people.map (·.email)).Nodup ∧ membersOf id g' = people ∧
      ∀ k, k ≠ id → membersOf k g' = membersOf k g := by
  unfold writeMembers memberRows at h
  split at h
  · cases h
  rename_i rows hrows
  cases h
  split at hrows
  swap
  · cases hrows
  rename_i hdistinct
  obtain rfl := Option.some.inj hrows
  have hof : ∀ m ∈ people.zipIdx.map fun m => GroupMember.mk id m.1.email m.1.lang m.2,
      m.groupId = id := by
    intro m hm
    obtain ⟨_, -, rfl⟩ := List.mem_map.1 hm
    rfl
  refine ⟨rfl, hdistinct, ?_, fun k hk => ?_⟩
  · have hgone : (Table.delete (fun m : GroupMember => m.groupId == id) g.members).filter
        (fun m => m.groupId == id) = [] := by
      refine List.filter_eq_nil_iff.2 fun m hm => ?_
      rw [(Table.mem_delete.1 hm).2]
      exact Bool.false_ne_true
    have hall : (people.zipIdx.map fun m => GroupMember.mk id m.1.email m.1.lang m.2).filter
        (fun m => m.groupId == id) =
        people.zipIdx.map fun m => GroupMember.mk id m.1.email m.1.lang m.2 :=
      List.filter_eq_self.2 fun m hm => beq_iff_eq.2 (hof m hm)
    have hsorted : List.Pairwise positionOrder
        (people.zipIdx.map fun m => GroupMember.mk id m.1.email m.1.lang m.2) := by
      have hsnd : (people.zipIdx.map Prod.snd).Pairwise (· ≤ ·) := by
        rw [List.zipIdx_map_snd]
        exact List.pairwise_le_range'
      exact List.pairwise_map.2 ((List.pairwise_map.1 hsnd).imp fun h => h)
    rw [membersOf, List.filter_append, hgone, List.nil_append, hall, hsorted.insertionSort_eq,
      List.map_map]
    exact List.zipIdx_map_fst 0 people
  · have hnone : (people.zipIdx.map fun m => GroupMember.mk id m.1.email m.1.lang m.2).filter
        (fun m => m.groupId == k) = [] := by
      refine List.filter_eq_nil_iff.2 fun m hm => ?_
      rw [hof m hm, beq_iff_eq]
      exact Ne.symm hk
    rw [membersOf, List.filter_append, hnone, List.append_nil, membersOf]
    congr 2
    refine Table.filter_delete fun m _ hm => ?_
    rw [beq_iff_eq.1 hm]
    exact beq_false_of_ne hk

/-! ## What the services do to the book -/

theorem good_saved {people' : List RecipientInput} (owner : Option String)
    (hname : IsName name) (hlist : validMembers people = .ok people')
    (hdistinct : (people'.map (·.email)).Nodup)
    (hvalid : ∀ r ∈ people, isValidEmail r.email = true) :
    people' = people ∧ (Entry.mk name people owner).Good := by
  unfold validMembers at hlist
  obtain ⟨hsome, hlist⟩ := Fallible.guard_eq_ok.1 hlist
  obtain ⟨hfew, hlist⟩ := Fallible.guard_eq_ok.1 hlist
  cases hlist
  exact ⟨rfl, hname, fun he => hsome (List.isEmpty_iff.2 he), Nat.not_lt.1 hfew, hdistinct, hvalid⟩

theorem book_create {out : String} {owner : Option String}
    (h : createGroup now id name people owner g = .ok (out, g'))
    (hvalid : ∀ r ∈ people, isValidEmail r.email = true) :
    out = newId "g" id ∧ book g out = none ∧ (Entry.mk (trim name) people owner).Good ∧
      book g' = Function.update (book g) out (some ⟨trim name, people, owner⟩) := by
  unfold createGroup at h
  obtain ⟨name', hname, h⟩ := Fallible.bind_eq_ok.1 h
  obtain ⟨people', hlist, h⟩ := Fallible.bind_eq_ok.1 h
  obtain ⟨-, h⟩ := Fallible.guard_eq_ok.1 h
  obtain ⟨hfree, h⟩ := Fallible.guard_eq_ok.1 h
  dsimp only at h
  obtain ⟨g₁, hwrite, h⟩ := Fallible.bind_eq_ok.1 h
  cases h
  obtain ⟨hgroups, hdistinct, hsaved, hothers⟩ := membersOf_write hwrite
  simp only [List.any_eq_true, beq_iff_eq, not_exists, not_and] at hfree
  have hnone : g.groups.find? (fun x => x.id == newId "g" id) = none := by
    refine List.find?_eq_none.2 fun x hx => ?_
    rw [beq_iff_eq]
    exact hfree x hx
  obtain ⟨rfl, hok⟩ := validName_ok hname
  obtain ⟨rfl, hgood⟩ := good_saved owner hok hlist hdistinct hvalid
  refine ⟨rfl, by rw [book, hnone]; rfl, hgood, ?_⟩
  funext k
  by_cases hk : k = newId "g" id
  · subst hk
    rw [Function.update_self, book, hgroups, List.find?_append, hnone, Option.none_or,
      List.find?_cons_of_pos (by simp), Option.map_some, entryOf, hsaved]
  · rw [Function.update_of_ne hk, book, hgroups, List.find?_append, book]
    rw [List.find?_cons_of_neg (by simpa using Ne.symm hk), List.find?_nil, Option.or_none]
    cases hrow : g.groups.find? (·.id == k) with
    | none => rfl
    | some row =>
        have hid : row.id = k := by simpa using List.find?_some hrow
        rw [Option.map_some, Option.map_some, entryOf, entryOf, hothers row.id (hid ▸ hk)]
        rfl

theorem book_update {old : Entry} (hold : book g id = some old)
    (h : updateGroup now id name people g = .ok g')
    (hvalid : ∀ r ∈ people, isValidEmail r.email = true) :
    (Entry.mk (trim name) people old.owner).Good ∧
      book g' = Function.update (book g) id (some ⟨trim name, people, old.owner⟩) := by
  unfold updateGroup at h
  obtain ⟨name', hname, h⟩ := Fallible.bind_eq_ok.1 h
  obtain ⟨people', hlist, h⟩ := Fallible.bind_eq_ok.1 h
  obtain ⟨-, h⟩ := Fallible.guard_eq_ok.1 h
  obtain ⟨hgroups, hdistinct, hsaved, hothers⟩ := membersOf_write h
  obtain ⟨rfl, hok⟩ := validName_ok hname
  obtain ⟨rfl, hgood⟩ := good_saved old.owner hok hlist hdistinct hvalid
  have hfind : ∀ k, g'.groups.find? (·.id == k) = (g.groups.find? (·.id == k)).map fun x =>
      if x.id == id then { x with name := trim name, updatedAt := now } else x := by
    intro k
    rw [hgroups]
    exact Table.find?_update (by exact fun _ => rfl) g.groups
  refine ⟨hgood, ?_⟩
  funext k
  by_cases hk : k = id
  · subst hk
    obtain ⟨row, hrow, rfl⟩ := Option.map_eq_some_iff.1 hold
    have hid : (row.id == k) = true := List.find?_some (p := fun x : GroupRow => x.id == k) hrow
    rw [Function.update_self, book, hfind, hrow, Option.map_some, if_pos hid, Option.map_some,
      entryOf]
    have hid' : row.id = k := beq_iff_eq.1 hid
    dsimp only
    rw [hid', hsaved]
    rfl
  · rw [Function.update_of_ne hk, book, hfind, book]
    cases hrow : g.groups.find? (·.id == k) with
    | none => rfl
    | some row =>
        have hid : row.id = k := by simpa using List.find?_some hrow
        have hother : ¬ (row.id == id) = true := by
          rw [beq_iff_eq, hid]
          exact hk
        rw [Option.map_some, if_neg hother, Option.map_some, Option.map_some, entryOf, entryOf,
          hothers row.id (hid ▸ hk)]
        rfl

theorem book_delete (id : String) (g : GroupDb) :
    book (deleteGroup id g) = Function.update (book g) id none := by
  funext k
  by_cases hk : k = id
  · subst hk
    have hnone : (deleteGroup k g).groups.find? (·.id == k) = none := by
      refine List.find?_eq_none.2 fun x hx => ?_
      rw [(Table.mem_delete.1 hx).2]
      exact Bool.false_ne_true
    rw [Function.update_self, book, hnone]
    rfl
  · have hspared : ∀ {y : String}, (y == k) = true → (y == id) = false := by
      intro y hy
      rw [beq_iff_eq.1 hy]
      exact beq_false_of_ne hk
    have hfind : (deleteGroup id g).groups.find? (·.id == k) = g.groups.find? (·.id == k) :=
      Table.find?_delete fun x hx => hspared hx
    rw [Function.update_of_ne hk, book, hfind, book]
    cases hrow : g.groups.find? (·.id == k) with
    | none => rfl
    | some row =>
        have hid : row.id = k := by simpa using List.find?_some hrow
        have hmembers : membersOf row.id (deleteGroup id g) = membersOf row.id g := by
          rw [membersOf, membersOf, hid]
          congr 2
          exact Table.filter_delete fun m _ hm => hspared hm
        rw [Option.map_some, Option.map_some, entryOf, entryOf, hmembers]

theorem book_forget (id : String) (g : GroupDb) :
    book (g.forgetAdmin id) = fun k => (book g k).map (Entry.orphan id) := by
  funext k
  have hfind : (g.forgetAdmin id).groups.find? (·.id == k) =
      (g.groups.find? (·.id == k)).map fun x =>
        if x.createdBy == some id then { x with createdBy := none } else x :=
    Table.find?_update (by exact fun _ => rfl) g.groups
  rw [book, hfind, book]
  cases hrow : g.groups.find? (·.id == k) with
  | none => rfl
  | some row =>
      rw [Option.map_some, Option.map_some, Option.map_some, Option.map_some, Entry.orphan]
      by_cases howner : row.createdBy = some id
      · rw [if_pos (beq_iff_eq.2 howner), if_pos (by exact howner)]
        rfl
      · rw [if_neg (by simpa using howner), if_neg (by exact howner)]
        rfl

/-! ## What the requests do to the book -/

theorem Deed.idle {who : Option Viewer} {asked : Option Ask} {b : Book} {status : Nat}
    (h : status ≠ 200) : Deed who asked b (answered asked status) b := by
  have hnot : answered asked status = false := by
    rw [answered, beq_false_of_ne h, Bool.and_false]
  rw [hnot]
  exact .nothing

theorem Deed.granted {who : Option Viewer} {asked : Option Ask} {b b' : Book} {status : Nat}
    {viewer : Viewer} {a : Ask} (hwho : who = some viewer) (hask : asked = some a)
    (hmay : a.May viewer b) (hstatus : status = 200) (hb : b' = a.result viewer b) :
    Deed who asked b (answered asked status) b' := by
  subst hask hstatus hb
  exact .did hwho rfl hmay

/-- A handler of a group refuses, or runs on one the account may change. -/
theorem editableGroup_cases (id : String) (req : Request) (accounts : AccountDb)
    (f : Group → Outcome GroupDb PanelPage) :
    ((editableGroup P id req s accounts g f).state = g ∧
        (editableGroup P id req s accounts g f).response.status ≠ 200) ∨
      ∃ group old, group.id = id ∧ book g id = some old ∧ old.MayEdit s.viewer ∧
        editableGroup P id req s accounts g f = f group := by
  unfold editableGroup
  dsimp only
  split
  · exact .inl ⟨rfl, (by decide : 404 ≠ 200)⟩
  rename_i group hgroup
  split
  · exact .inl ⟨rfl, (by decide : 403 ≠ 200)⟩
  rename_i hmay
  obtain ⟨x, hx, hgroup⟩ := Option.bind_eq_some_iff.1 hgroup
  rw [validId_some hx] at hgroup
  have hentry := book_getGroup id accounts g
  rw [hgroup, Option.map_some] at hentry
  obtain ⟨row, hrow, rfl⟩ := Option.map_eq_some_iff.1 hgroup
  have hid : row.id = id := by simpa using List.find?_some hrow
  refine .inr ⟨_, _, hid, hentry.symm, ?_, rfl⟩
  rw [Bool.not_eq_true, Bool.not_eq_false', canEditGroup, Bool.or_eq_true, beq_iff_eq,
    beq_iff_eq] at hmay
  exact hmay

/-- The page of a saved group says so: the group is in the book. -/
theorem groupSaved_status {action : String} {key : MessageKey} {e : Entry}
    (h : book g id = some e) :
    (groupSaved P req s accounts id action key g).response.status = 200 := by
  rw [← book_getGroup id accounts g] at h
  obtain ⟨group, hgroup, -⟩ := Option.map_eq_some_iff.1 h
  rw [groupSaved, hgroup]
  rfl

theorem deed_groups (route : GroupRoute) (g : GroupDb) :
    Deed (some s.viewer) (ask P req (.groups route)) (book g)
      (answered (ask P req (.groups route)) (route.handle P req s accounts g).response.status)
      (book (route.handle P req s accounts g).state) := by
  cases route with
  | list => exact .nothing
  | create =>
      rw [GroupRoute.handle]
      unfold postGroup
      dsimp only
      split
      · exact .idle (by decide : 400 ≠ 200)
      · rename_i h
        obtain ⟨people, hread, h⟩ := Fallible.bind_eq_ok.1 h
        obtain ⟨rfl, hnone, hgood, hbook⟩ := book_create h (requireRecipients_valid hread).2
        have hsaved : (groupFormMembers P req).toOption.getD [] = people := by rw [hread]; rfl
        refine .granted rfl rfl ?_
          (groupSaved_status (congrFun hbook _ |>.trans (Function.update_self ..))) ?_
        · rw [hsaved]
          exact ⟨hnone, hgood⟩
        · rw [Statements.groupSaved_state, hbook, hsaved]
          rfl
  | update id =>
      rw [GroupRoute.handle]
      unfold postGroupUpdate
      rcases editableGroup_cases (P := P) (s := s) (g := g) id req accounts _ with
        ⟨h, hstatus⟩ | ⟨group, old, rfl, hold, hmay, h⟩
      · rw [h]
        exact .idle hstatus
      rw [h]
      dsimp only
      split
      · exact .idle (by decide : 400 ≠ 200)
      · rename_i h
        obtain ⟨people, hread, h⟩ := Fallible.bind_eq_ok.1 h
        obtain ⟨hgood, hbook⟩ := book_update hold h (requireRecipients_valid hread).2
        have hsaved : (groupFormMembers P req).toOption.getD [] = people := by rw [hread]; rfl
        refine .granted rfl rfl ?_
          (groupSaved_status (congrFun hbook _ |>.trans (Function.update_self ..))) ?_
        · rw [hsaved]
          exact ⟨old, hold, hmay, hgood⟩
        · rw [Statements.groupSaved_state, hbook, hsaved, Ask.result, hold]
          rfl
  | delete id =>
      rw [GroupRoute.handle]
      unfold postGroupDelete
      rcases editableGroup_cases (P := P) (s := s) (g := g) id req accounts _ with
        ⟨h, hstatus⟩ | ⟨group, old, rfl, hold, hmay, h⟩
      · rw [h]
        exact .idle hstatus
      · rw [h]
        exact .granted rfl rfl ⟨old, hold, hmay⟩ rfl (book_delete group.id g)

/-- The routes of the administrators take an account off the book when they delete it. -/
theorem deed_users (route : UserRoute) (db : Tables) (hadmin : s.viewer.role = .admin) :
    Deed (some s.viewer) (ask P req (.users route)) (book db.groups)
      (answered (ask P req (.users route)) (route.handle P req s db).response.status)
      (book (route.handle P req s db).state.groups) := by
  have hkept : (∀ id, route ≠ .delete id) → (route.handle P req s db).state.groups = db.groups := by
    intro hroute
    have heffect := userEffect P route req s db
    generalize (route.handle P req s db).state = out at heffect ⊢
    cases heffect with
    | deleted => exact absurd rfl (hroute _)
    | _ => rfl
  cases route with
  | delete id =>
      rcases userAction_state (P := P) (s := s) (f := deleteAction P req s) with
        ⟨h, hstatus⟩ | ⟨⟨done, h⟩, hstatus⟩
      · rw [UserRoute.handle, h]
        exact .idle hstatus
      · obtain ⟨_, -, h⟩ := Fallible.bind_eq_ok.1 h
        obtain ⟨-, hdb⟩ := Prod.mk.inj (Except.ok.inj h)
        refine .granted rfl rfl hadmin hstatus ?_
        rw [UserRoute.handle, ← hdb]
        exact book_forget id db.groups
  | _ =>
      rw [hkept (by rintro _ ⟨⟩)]
      exact .nothing

/-- A guard that refuses does not answer with the status 200. -/
theorem refusal_status {r : PanelRequest} {d : DeliveryDb} {response : Response PanelPage}
    (h : refusal P cfg r s d = some response) : response.status ≠ 200 := by
  unfold refusal at h
  rcases Option.or_eq_some_iff.1 h with h | ⟨-, h⟩
  · unfold limitRefusal at h
    split at h
    · cases h
      exact (by decide : 429 ≠ 200)
    · cases h
  rcases Option.or_eq_some_iff.1 h with h | ⟨-, h⟩
  · unfold readyRefusal at h
    split at h
    · cases h
    obtain ⟨missing, -, rfl⟩ := Option.map_eq_some_iff.1 h
    split
    · exact (by decide : 302 ≠ 200)
    · exact (by decide : 403 ≠ 200)
  rcases Option.or_eq_some_iff.1 h with h | ⟨-, h⟩
  · unfold adminsRefusal at h
    split at h
    · cases h
      exact (by decide : 403 ≠ 200)
    · cases h
  unfold confirmRefusal at h
  split at h
  · cases h
  split at h
  · cases h
  split at h
  · cases h
    exact (by decide : 500 ≠ 200)
  · cases h
    exact (by decide : 303 ≠ 200)

theorem requireAdmin_status {r : PanelRequest} {signed : Option Signed}
    {response : Response PanelPage} (h : requireAdmin P cfg r signed = .error response) :
    response.status ≠ 200 := by
  have hsign : ∀ {method isApi signed}, (signInFirst method isApi signed).status ≠ 200 := by
    intro method isApi signed
    unfold signInFirst
    split
    · exact (by decide : 302 ≠ 200)
    split
    · exact (by decide : 401 ≠ 200)
    · exact (by decide : 401 ≠ 200)
  unfold requireAdmin at h
  split at h
  · cases h
    exact hsign
  split at h
  · rename_i hrefused
    cases h
    rcases Option.or_eq_some_iff.1 hrefused with h | ⟨-, h⟩
    · unfold csrfRefusal at h
      split at h
      · cases h
      split at h
      · cases h
        exact (by decide : 403 ≠ 200)
      split at h
      · cases h
      · cases h
        exact (by decide : 403 ≠ 200)
    · unfold completeRefusal at h
      split at h
      · cases h
      · cases h
        exact hsign
  · cases h

theorem deed_panel (r : PanelRequest) (sv : Server) :
    Deed (requester P cfg (History.fire (Server.step P cfg) sv (.panel r)))
      (ask P r.toRequest r.route) (book sv.groups)
      (answered (ask P r.toRequest r.route) (panel P cfg r sv).response.status)
      (book (panel P cfg r sv).state.groups) := by
  unfold requester
  dsimp only [History.fire]
  unfold panel
  dsimp only
  cases hs : requireAdmin P cfg r (sessionMiddleware P r.toRequest sv.accounts).1 with
  | error response => exact .idle (requireAdmin_status hs)
  | ok s =>
      dsimp only [Except.toOption, Option.map_some]
      unfold servePanel
      dsimp only
      split
      · rename_i hrefusal
        exact .idle (refusal_status hrefusal)
      rename_i hrefusal
      cases hroute : r.route with
      | pending route => exact .nothing
      | settings route => exact .nothing
      | work route => exact .nothing
      | groups route => exact deed_groups route sv.groups
      | users route =>
          rw [PanelRoute.handle]
          refine deed_users route ⟨_, sv.deliveries, sv.groups⟩ ?_
          have hnone := (Option.or_eq_none_iff.1 (Option.or_eq_none_iff.1
            (Option.or_eq_none_iff.1 hrefusal).2).2).1
          by_contra hother
          have hrole : s.admin.role ≠ .admin := hother
          rw [adminsRefusal, hroute, if_pos (by simpa [PanelRoute.adminsOnly] using hrole)] at hnone
          cases hnone
      | audit => exact .nothing

/-- A step does what it is asked, or nothing. -/
theorem deed_step (P : Platform) (cfg : Config) (sv : Server) (i : Input) :
    Deed (requester P cfg (History.fire (Server.step P cfg) sv i))
      (asked P (History.fire (Server.step P cfg) sv i)) (book sv.groups)
      (isDone P (History.fire (Server.step P cfg) sv i))
      (book (Server.step P cfg sv i).1.groups) := by
  cases i with
  | deliver r => exact .nothing
  | visit r =>
      have hgroups : (visit P cfg r sv).state.groups = sv.groups := by
        unfold visit
        dsimp only
        split
        · rfl
        · rfl
      have hstep : (Server.step P cfg sv (.visit r)).1.groups = (visit P cfg r sv).state.groups := rfl
      rw [hstep, hgroups]
      exact .nothing
  | panel r => exact deed_panel r sv
  | cleanup run => exact .nothing
  | cli now draw command => exact .nothing

theorem Deed.good {who : Option Viewer} {asked : Option Ask} {done : Bool} {b b' : Book}
    (h : Deed who asked b done b') (hb : ∀ id e, b id = some e → e.Good) :
    ∀ id e, b' id = some e → e.Good := by
  intro k e he
  have hupdate : ∀ {id : String} {x : Option Entry}, (∀ y, x = some y → y.Good) →
      Function.update b id x k = some e → e.Good := by
    intro id x hx h
    by_cases hk : k = id
    · subst hk
      rw [Function.update_self] at h
      exact hx e h
    · rw [Function.update_of_ne hk] at h
      exact hb k e h
  cases h with
  | nothing => exact hb k e he
  | @did viewer a _ _ hmay =>
      cases a with
      | add id name people => exact hupdate (fun y hy => Option.some.inj hy ▸ hmay.2) he
      | save id name people =>
          obtain ⟨old, hold, -, hgood⟩ := hmay
          rw [Ask.result, hold] at he
          exact hupdate (fun y hy => Option.some.inj hy ▸ hgood) he
      | remove id => exact hupdate (fun y hy => by cases hy) he
      | removeOwner id =>
          obtain ⟨old, hold, rfl⟩ := Option.map_eq_some_iff.1 he
          unfold Entry.orphan
          split
          · exact { hb k old hold with }
          · exact hb k old hold

/-- No two entries have names that differ in case only. -/
theorem names_differ (hs : Integrity.GroupKeys g) {k k' : String} {e e' : Entry}
    (he : book g k = some e) (he' : book g k' = some e') (hname : noCase e.name = noCase e'.name) :
    k = k' := by
  obtain ⟨row, hrow, rfl⟩ := Option.map_eq_some_iff.1 he
  obtain ⟨row', hrow', rfl⟩ := Option.map_eq_some_iff.1 he'
  have hid : row.id = k := by simpa using List.find?_some hrow
  have hid' : row'.id = k' := by simpa using List.find?_some hrow'
  have hsame : row = row' := Table.eq_of_key hs.names (List.mem_of_find?_eq_some hrow)
    (List.mem_of_find?_eq_some hrow') hname
  rw [← hid, ← hid', hsame]

/-- A deed takes the book the answers tell of to the one they tell of after it. -/
theorem Deed.written {e : ServerEvent} {h : List ServerEvent} {b' : Book}
    (hdeed : Deed (requester P cfg e) (asked P e) (written P cfg h) (isDone P e) b') :
    b' = written P cfg (e :: h) := by
  rw [AddressBook.written]
  generalize isDone P e = done at hdeed ⊢
  cases hdeed with
  | nothing => rfl
  | did hwho hask =>
      rw [hwho, hask]
      rfl

end

/-- `root` saves a group, saves it again, and then tries to take its name away. -/
def bookScript : List Input :=
  signInScript ++
    [.panel (samplePanel 2 "sid" 'T' (.groups .create)
        [("name", "Friends"), ("recipients", "b@b.example, a@b.example")]),
      .panel (samplePanel 3 "sid" 'T' (.groups (.update (newId "g" sampleId)))
        [("name", " FRIENDS "), ("recipients", "c@b.example de, b@b.example, c@b.example")]),
      .panel (samplePanel 4 "sid" 'T' (.groups (.update (newId "g" sampleId)))
        [("name", " "), ("recipients", "b@b.example")])]

end AddressBook

end Outletbox
