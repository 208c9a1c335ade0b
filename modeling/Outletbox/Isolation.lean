import Outletbox.Http.App
import Outletbox.Http.Work

/-!
# Case isolation

A user works on the cases it is assigned to, and every other case answers as one
that does not exist.  `cut` takes a case and all that hangs on it out of the
deliveries.  A service that works on another case does the same on what is left,
and so does every route: it answers the same, and leaves the case alone.
-/

namespace Outletbox

namespace Isolation

variable (P : Platform) (cfg : Config)

/-! ## The deliveries without a case -/

/-- The link belongs to the case. -/
def inCase (c linkId : String) (d : DeliveryDb) : Bool :=
  d.links.any fun l => l.id == linkId && l.caseId == c

/-- The rows of a case go, and those of the links `gone` names. -/
def cut (c : String) (gone : String → Bool) (d : DeliveryDb) : DeliveryDb where
  cases := Table.delete (fun x => x.id == c) d.cases
  caseMembers := Table.delete (fun m => m.caseId == c) d.caseMembers
  items := Table.delete (fun i => i.caseId == c) d.items
  links := Table.delete (fun l => l.caseId == c) d.links
  linkRecipients := Table.delete (fun r => gone r.linkId) d.linkRecipients
  challenges := Table.delete (fun x => gone x.linkId) d.challenges
  accessSessions := Table.delete (fun a => gone a.linkId) d.accessSessions

/-- A user that is not assigned to a case, and the links of it. -/
structure Sealed (c : String) (gone : String → Bool) (s : Signed) (d : DeliveryDb) : Prop where
  role : s.admin.role = .user
  outside : isMember c s.admin.id d = false
  links : ∀ l ∈ d.links, gone l.id = true ↔ l.caseId = c

/-- A service did the same without the case. -/
def cutOk {α : Type} (c : String) (gone : String → Bool) (r : Except Failure (α × DeliveryDb)) :
    Except Failure (α × DeliveryDb) :=
  r.map fun x => (x.1, cut c gone x.2)

section

variable {P} {cfg} {c x : String} {gone : String → Bool} {s : Signed} {dir : Directory}
  {d d' : DeliveryDb}

@[simp] theorem cutOk_ok {α : Type} (a : α) (d : DeliveryDb) :
    cutOk c gone (.ok (a, d)) = .ok (a, cut c gone d) := rfl

@[simp] theorem cutOk_error {α : Type} (e : Failure) :
    cutOk (α := α) c gone (.error e) = .error e := rfl

/-! ## Reading -/

theorem beq_ne {α : Type} [DecidableEq α] {a b c : α} (hne : b ≠ c) (h : (a == b) = true) :
    (a == c) = false := by
  rw [beq_iff_eq] at h
  rw [h]
  simpa using hne

theorem getCase_cut (hx : x ≠ c) : getCase x (cut c gone d) = getCase x d :=
  Table.find?_delete fun _ h => beq_ne hx h

theorem getCase_cut_self : getCase c (cut c gone d) = none := by
  rw [getCase, List.find?_eq_none]
  intro r hr
  simpa using (Table.mem_delete.1 hr).2

theorem isMember_cut (hx : x ≠ c) (id : String) :
    isMember x id (cut c gone d) = isMember x id d := by
  refine Table.any_delete fun m _ hm => ?_
  rw [Bool.and_eq_true] at hm
  exact beq_ne hx hm.1

theorem canAccessCase_cut (hx : x ≠ c) (v : Viewer) :
    canAccessCase v x (cut c gone d) = canAccessCase v x d := by
  rw [canAccessCase, canAccessCase, isMember_cut hx]

/-- The user may not work on the case. -/
theorem Sealed.noAccess (h : Sealed c gone s d) : canAccessCase s.viewer c d = false := by
  have hrole : (s.viewer.role == .admin) = false := by
    rw [Signed.viewer, h.role]
    rfl
  rw [canAccessCase, hrole, Bool.false_or]
  exact h.outside

theorem Sealed.ne_of_access (h : Sealed c gone s d) (hx : canAccessCase s.viewer x d = true) :
    x ≠ c := by
  rintro rfl
  rw [h.noAccess] at hx
  cases hx

/-- The case is one the user does not find, with it or without it. -/
theorem caseFor_cut (h : Sealed c gone s d) (id : String) :
    caseFor s id (cut c gone d) = caseFor s id d := by
  by_cases hid : id = c
  · subst hid
    unfold caseFor
    rw [getCase_cut_self]
    cases hc : getCase id d with
    | none => rfl
    | some found =>
        have hfound : found.id = id := by simpa using List.find?_some hc
        dsimp only
        rw [hfound, h.noAccess]
        rfl
  · unfold caseFor
    rw [getCase_cut hid]
    cases hc : getCase id d with
    | none => rfl
    | some found =>
        have hfound : found.id = id := by simpa using List.find?_some hc
        dsimp only
        rw [hfound, canAccessCase_cut hid]

/-- A case the user finds is another one. -/
theorem Sealed.ne_of_caseFor (h : Sealed c gone s d) {found : Case}
    (hc : caseFor s x d = some found) : x ≠ c :=
  h.ne_of_access (caseFor_some hc).2.2

theorem Sealed.caseFor_none (h : Sealed c gone s d) : caseFor s c d = none := by
  cases hc : caseFor s c d with
  | none => rfl
  | some found => exact absurd rfl (h.ne_of_caseFor hc)

/-- A link of another case is found as before, and one of the case is not. -/
theorem getLink_cut (h : Sealed c gone s d) (id : String) :
    getLink id (cut c gone d) = (getLink id d).filter fun l => l.caseId != c := by
  cases hl : getLink id d with
  | none =>
      rw [getLink, List.find?_eq_none] at hl
      rw [Option.filter_none, getLink, List.find?_eq_none]
      intro l hmem
      exact hl l (Table.mem_delete.1 hmem).1
  | some link =>
      have hmem : link ∈ d.links := List.mem_of_find?_eq_some hl
      have hlink : link.id = id := getLink_id hl
      by_cases hc : link.caseId = c
      · have hgone : gone id = true := hlink ▸ (h.links link hmem).2 hc
        rw [Option.filter_some, if_neg (by simp [hc]), getLink, List.find?_eq_none]
        intro l hl'
        obtain ⟨hl', hother⟩ := Table.mem_delete.1 hl'
        intro hid
        have hid : l.id = id := by simpa using hid
        have hsame := (h.links l hl').1 (hid ▸ hgone)
        simp [hsame] at hother
      · have hgone : gone id = false := by
          rw [← hlink]
          simpa using mt (h.links link hmem).1 hc
        rw [Option.filter_some, if_pos (by simpa using hc), ← hl]
        have hkept : ∀ l ∈ d.links, (l.id == id) = true → (l.caseId == c) = false := by
          intro l hl' hid
          have hid : l.id = id := by simpa using hid
          simpa using mt (h.links l hl').2 (by rw [hid, hgone]; exact Bool.false_ne_true)
        rw [getLink, getLink, ← List.head?_filter, ← List.head?_filter]
        exact congrArg _ (Table.filter_delete hkept)

/-- An item of another case is found as before, and one of the case is not. -/
theorem getItem_cut (hids : (d.items.map (·.id)).Nodup) (id : String) :
    getItem id (cut c gone d) = (getItem id d).filter fun i => i.caseId != c := by
  cases hi : getItem id d with
  | none =>
      rw [getItem, List.find?_eq_none] at hi
      rw [Option.filter_none, getItem, List.find?_eq_none]
      intro i hmem
      exact hi i (Table.mem_delete.1 hmem).1
  | some item =>
      have hmem : item ∈ d.items := List.mem_of_find?_eq_some hi
      have hitem : item.id = id := getItem_id hi
      have hsame : ∀ i ∈ d.items, (i.id == id) = true → i = item := fun i hmem' hid =>
        Table.eq_of_key hids hmem' hmem ((by simpa using hid : i.id = id).trans hitem.symm)
      by_cases hc : item.caseId = c
      · rw [Option.filter_some, if_neg (by simp [hc]), getItem, List.find?_eq_none]
        intro i hi' hid
        obtain ⟨hi', hother⟩ := Table.mem_delete.1 hi'
        rw [hsame i hi' hid, hc] at hother
        simp at hother
      · rw [Option.filter_some, if_pos (by simpa using hc), ← hi]
        have hkept : ∀ i ∈ d.items, (i.id == id) = true → (i.caseId == c) = false := by
          intro i hi' hid
          rw [hsame i hi' hid]
          simpa using hc
        rw [getItem, getItem, ← List.head?_filter, ← List.head?_filter]
        exact congrArg _ (Table.filter_delete hkept)

/-! ## Pages -/

/-- A link of another case stays. -/
theorem Sealed.stays (h : Sealed c gone s d) {k : String} {l : Link} (hl : l ∈ d.links)
    (hid : l.id = k) (hc : l.caseId ≠ c) : gone k = false := by
  rw [← hid]
  simpa using mt (h.links l hl).1 hc

theorem recipientsForCase_cut (h : Sealed c gone s d) (hx : x ≠ c) :
    recipientsForCase x (cut c gone d) = recipientsForCase x d := by
  have hlink : ∀ k, ((cut c gone d).links.any fun l => l.id == k && l.caseId == x) =
      d.links.any fun l => l.id == k && l.caseId == x := by
    intro k
    refine Table.any_delete fun l _ hl => ?_
    rw [Bool.and_eq_true] at hl
    exact beq_ne hx hl.2
  simp only [recipientsForCase, hlink]
  refine Table.filter_delete fun r _ hr => ?_
  obtain ⟨l, hl, hid⟩ := List.any_eq_true.1 hr
  rw [Bool.and_eq_true, beq_iff_eq, beq_iff_eq] at hid
  exact h.stays hl hid.1 (hid.2 ▸ hx)

theorem listLinksForCase_cut (hx : x ≠ c) :
    listLinksForCase x (cut c gone d) = listLinksForCase x d :=
  congrArg (List.insertionSort linkOrder) (Table.filter_delete fun _ _ hl => beq_ne hx hl)

theorem casePageData_cut (h : Sealed c gone s d) {found : Case} (hx : found.id ≠ c)
    (extra : CaseExtra) :
    casePageData dir extra found (cut c gone d) = casePageData dir extra found d := by
  have hitems : listItemsForCase found.id (cut c gone d) = listItemsForCase found.id d := by
    refine congrArg (List.insertionSort itemOrder) (Table.filter_delete fun i _ hi => ?_)
    rw [Bool.and_eq_true, Bool.and_eq_true] at hi
    exact beq_ne hx hi.1.1
  simp only [casePageData, listLinksForCase_cut hx, hitems, recipientsForCase_cut h hx, caseMembers, assignableUsers,
    isMember_cut hx]

theorem renderCase_cut (h : Sealed c gone s d) (req : Request) (id : String) (extra : CaseExtra)
    (status : Nat) :
    renderCase P req s dir id extra status (cut c gone d) =
      renderCase P req s dir id extra status d := by
  unfold renderCase
  rw [caseFor_cut h]
  cases hc : caseFor s id d with
  | none => rfl
  | some found =>
      have hfound : found.id ≠ c := by
        rw [(caseFor_some hc).2.1]
        exact h.ne_of_caseFor hc
      dsimp only
      rw [listLinksForCase_cut hfound, casePageData_cut h hfound]

theorem summary_cut {found : Case} (hx : found.id ≠ c) :
    summary (cut c gone d) found = summary d found := by
  have hlinks : ∀ l ∈ d.links, (l.caseId == found.id && l.revokedAt.isNone) = true →
      (l.caseId == c) = false := by
    intro l _ hl
    rw [Bool.and_eq_true] at hl
    exact beq_ne hx hl.1
  have hitems : ∀ i ∈ d.items, (i.caseId == found.id && i.status == .ready) = true →
      (i.caseId == c) = false := by
    intro i _ hi
    rw [Bool.and_eq_true] at hi
    exact beq_ne hx hi.1
  simp only [summary, cut, Table.countP_delete hlinks, Table.countP_delete hitems,
    Table.filter_delete hitems]

/-- The list of cases of a user is without the case anyway. -/
theorem listCases_cut (h : Sealed c gone s d) :
    listCases s.viewer (cut c gone d) = listCases s.viewer d := by
  have hrole : (s.viewer.role == .admin) = false := by
    rw [Signed.viewer, h.role]
    rfl
  have hseen : (cut c gone d).cases.filter (fun x => isMember x.id s.viewer.id (cut c gone d)) =
      d.cases.filter fun x => isMember x.id s.viewer.id d := by
    have hsame : ∀ x ∈ (cut c gone d).cases,
        isMember x.id s.viewer.id (cut c gone d) = isMember x.id s.viewer.id d := by
      intro x hx
      exact isMember_cut (by simpa using (Table.mem_delete.1 hx).2) _
    rw [List.filter_congr hsame]
    refine Table.filter_delete fun x _ hx => ?_
    by_contra hc
    have hc : x.id = c := by simpa using hc
    rw [hc] at hx
    exact absurd (h.outside ▸ hx : false = true) Bool.false_ne_true
  unfold listCases
  simp only [hrole, Bool.false_or, hseen]
  refine List.map_congr_left fun x hx => summary_cut ?_
  rw [List.mem_insertionSort] at hx
  rintro rfl
  have hmember := (List.mem_filter.1 hx).2
  exact absurd (h.outside ▸ hmember : false = true) Bool.false_ne_true

/-! ## Services on another case -/

theorem createCase_cut {now : Int} {id name description : String} (hid : newId "c" id ≠ c) :
    createCase now id name description (cut c gone d) =
      cutOk c gone (createCase now id name description d) := by
  have htaken : ((cut c gone d).cases.any fun r => r.id == newId "c" id) =
      d.cases.any fun r => r.id == newId "c" id :=
    Table.any_delete fun _ _ h => beq_ne hid h
  simp only [createCase, htaken]
  split
  · rfl
  split
  · rfl
  have hrow : ((newId "c" id) == c) = false := by simpa using hid
  simp only [cutOk_ok, cut]
  rw [Table.delete_append_row (p := fun r : Case => r.id == c) hrow]

theorem addCaseMember_cut {now : Int} (hx : x ≠ c) (id : String) :
    addCaseMember now x id (cut c gone d) =
      ((addCaseMember now x id d).1, cut c gone (addCaseMember now x id d).2) := by
  have hrow : (x == c) = false := by simpa using hx
  unfold addCaseMember
  rw [isMember_cut hx]
  split
  · rfl
  simp only [cut]
  rw [Table.delete_append_row (p := fun m : CaseMember => m.caseId == c) hrow]

theorem removeCaseMember_cut (hx : x ≠ c) (id : String) :
    removeCaseMember x id (cut c gone d) =
      ((removeCaseMember x id d).1, cut c gone (removeCaseMember x id d).2) := by
  unfold removeCaseMember
  rw [isMember_cut hx]
  simp only [cut]
  rw [Table.delete_delete]

theorem updateCase_cut {now : Int} {input : CaseUpdate} (hx : x ≠ c) :
    updateCase now x input (cut c gone d) = cutOk c gone (updateCase now x input d) := by
  unfold updateCase
  rw [getCase_cut hx]
  cases getCase x d with
  | none => rfl
  | some found =>
      dsimp only
      split
      · rfl
      have hcomm : ∀ f : Case → Case, (∀ r, (f r).id = r.id) →
          { cut c gone d with cases := Table.update (fun r => r.id == x) f (cut c gone d).cases } =
            cut c gone { d with cases := Table.update (fun r => r.id == x) f d.cases } := by
        intro f hf
        simp only [cut]
        rw [Table.delete_update (q := fun r : Case => r.id == c) fun r => by rw [hf]]
      rw [cutOk_ok]
      refine congrArg Except.ok (Prod.ext ?_ (hcomm _ ?_))
      · refine (congrArg (getCase x) (hcomm _ ?_)).trans (getCase_cut hx)
        exact fun _ => rfl
      · exact fun _ => rfl

theorem destroyAccessSessionsForCase_cut (hx : x ≠ c) :
    destroyAccessSessionsForCase x (cut c gone d) =
      cut c gone (destroyAccessSessionsForCase x d) := by
  have hlink : ∀ k, ((cut c gone d).links.any fun l => l.id == k && l.caseId == x) =
      d.links.any fun l => l.id == k && l.caseId == x := by
    intro k
    refine Table.any_delete fun l _ hl => ?_
    rw [Bool.and_eq_true] at hl
    exact beq_ne hx hl.2
  simp only [destroyAccessSessionsForCase, deleteSessionsWhere, hlink]
  simp only [cut]
  rw [Table.delete_delete]

theorem destroyAccessSessionsForLink_cut {now : Int} (id : String) :
    destroyAccessSessionsForLink now id (cut c gone d) =
      cut c gone (destroyAccessSessionsForLink now id d) := by
  simp only [destroyAccessSessionsForLink, deleteSessionsWhere, consumeWhere, cut]
  rw [Table.delete_delete]
  congr 1
  exact (Table.delete_update (by exact fun _ => rfl) _).symm

theorem insertItem_cut {item : ItemRow} (hx : item.caseId ≠ c)
    (hid : ∀ i ∈ d.items, i.caseId = c → i.id ≠ item.id) :
    insertItem item (cut c gone d) = cutOk c gone (insertItem item d) := by
  have htaken : ((cut c gone d).items.any fun i => i.id == item.id) =
      d.items.any fun i => i.id == item.id := by
    refine Table.any_delete fun i hi h => ?_
    by_contra hc
    exact hid i hi (by simpa using hc) (by simpa using h)
  have hrow : (item.caseId == c) = false := by simpa using hx
  simp only [insertItem, htaken, getCase_cut hx]
  split
  · rfl
  simp only [cutOk_ok, cut]
  rw [Table.delete_append_row (p := fun i : ItemRow => i.caseId == c) hrow]

theorem createNote_cut {now : Int} {id : String} {input : NoteInput} (hx : input.caseId ≠ c)
    (hid : ∀ i ∈ d.items, i.caseId = c → i.id ≠ newId "n" id) :
    createNote now id input (cut c gone d) = cutOk c gone (createNote now id input d) := by
  simp only [createNote]
  split
  · rfl
  · exact insertItem_cut hx hid

theorem startUpload_cut {now : Int} {input : StartUploadInput} (hx : input.caseId ≠ c)
    (hid : ∀ i ∈ d.items, i.caseId = c → i.id ≠ input.id) :
    startUpload P cfg now input (cut c gone d) = cutOk c gone (startUpload P cfg now input d) := by
  simp only [startUpload]
  split
  · rfl
  split
  · rfl
  rw [insertItem_cut hx hid]
  cases insertItem _ d with
  | error e => rfl
  | ok r => rfl

/-- A statement on an item of another case. -/
theorem updateItem_cut {id : String} {p : ItemRow → Bool} {f : ItemRow → ItemRow}
    (hf : ∀ i, (f i).caseId = i.caseId) (hid : ∀ i ∈ d.items, i.caseId = c → i.id ≠ id) :
    updateItem id p f (cut c gone d) =
      ((updateItem id p f d).1, cut c gone (updateItem id p f d).2) := by
  have hany : ((cut c gone d).items.any fun i => i.id == id && p i) =
      d.items.any fun i => i.id == id && p i := by
    refine Table.any_delete fun i hi h => ?_
    rw [Bool.and_eq_true] at h
    by_contra hc
    exact hid i hi (by simpa using hc) (by simpa using h.1)
  simp only [updateItem, hany]
  simp only [cut]
  rw [Table.delete_update fun i => by rw [hf]]

theorem updateLink_cut {id : String} {p : Link → Bool} {f : Link → Link}
    (hf : ∀ l, (f l).caseId = l.caseId) :
    updateLink id p f (cut c gone d) = cut c gone (updateLink id p f d) := by
  simp only [updateLink, cut]
  rw [Table.delete_update fun l => by rw [hf]]

theorem changesLink_cut {id : String} {p : Link → Bool} (h : Sealed c gone s d)
    (hid : gone id = false) :
    changesLink id p (cut c gone d) = changesLink id p d := by
  refine Table.any_delete fun l hl hp => ?_
  rw [Bool.and_eq_true, beq_iff_eq] at hp
  have hc := mt (h.links l hl).2 (by rw [hp.1, hid]; exact Bool.false_ne_true)
  simpa using hc

theorem revokeLink_cut {now : Int} {id : String} (h : Sealed c gone s d) (hid : gone id = false) :
    revokeLink now id (cut c gone d) =
      ((revokeLink now id d).1, cut c gone (revokeLink now id d).2) := by
  simp only [revokeLink, changesLink_cut h hid]
  exact congrArg (Prod.mk _) (updateLink_cut fun _ => rfl)

/-- A token no link of the case has. -/
theorem rotateLinkToken_cut {token : String} {link : Link} (h : Sealed c gone s d)
    (hl : getLink link.id d = some link) (hx : link.caseId ≠ c)
    (htoken : ∀ l ∈ d.links, l.caseId = c → l.tokenHash ≠ P.sha256Hex token) :
    rotateLinkToken P cfg token link.id (cut c gone d) =
      cutOk c gone (rotateLinkToken P cfg token link.id d) := by
  have hkept : getLink link.id (cut c gone d) = some link := by
    rw [getLink_cut h, hl, Option.filter_some, if_pos (by simpa using hx)]
  have htaken : ((cut c gone d).links.any fun l =>
      l.id != link.id && l.tokenHash == P.sha256Hex token) =
        d.links.any fun l => l.id != link.id && l.tokenHash == P.sha256Hex token := by
    refine Table.any_delete fun l hmem hp => ?_
    rw [Bool.and_eq_true] at hp
    by_contra hc
    exact htoken l hmem (by simpa using hc) (by simpa using hp.2)
  simp only [rotateLinkToken, hkept, hl, htaken]
  split
  · rfl
  exact congrArg (fun d => Except.ok (_, d)) (updateLink_cut fun _ => rfl)

theorem onLink_cut {id : String} (hid : gone id = false) (email : String) :
    onLink id email (cut c gone d) = onLink id email d := by
  refine Table.any_delete fun r _ hr => ?_
  rw [Bool.and_eq_true, beq_iff_eq] at hr
  rw [hr.1, hid]

theorem recipientCount_cut {id : String} (hid : gone id = false) :
    recipientCount id (cut c gone d) = recipientCount id d := by
  refine Table.countP_delete fun r _ hr => ?_
  rw [beq_iff_eq.1 hr, hid]

/-- People are added to a link that stays, under identifiers nobody on the others has. -/
theorem insertRecipients_cut {now : Int} {ids : Nat → String} {id : String} (hid : gone id = false)
    (hlink : ∀ l ∈ d.links, l.id = id → l.caseId ≠ c) (n : Nat) (list : List RecipientInput)
    (hids : ∀ k, ∀ r ∈ d.linkRecipients, gone r.linkId = true → r.id ≠ newId "r" (ids k)) :
    insertRecipients now ids id n list (cut c gone d) =
      cutOk c gone (insertRecipients now ids id n list d) := by
  induction list generalizing n d with
  | nil => rfl
  | cons entry rest ih =>
      have htaken : ((cut c gone d).linkRecipients.any fun r =>
          r.id == (newRecipient now id (ids n) entry).id) =
            d.linkRecipients.any fun r => r.id == (newRecipient now id (ids n) entry).id := by
        refine Table.any_delete fun r hr h => ?_
        by_contra hc
        exact hids n r hr (by simpa using hc) (beq_iff_eq.1 h)
      have hexists : ((cut c gone d).links.any fun l => l.id == id) =
          d.links.any fun l => l.id == id := by
        refine Table.any_delete fun l hl h => ?_
        simpa using hlink l hl (by simpa using h)
      have hrow : { cut c gone d with linkRecipients :=
            (cut c gone d).linkRecipients ++ [newRecipient now id (ids n) entry] } =
          cut c gone { d with linkRecipients :=
            d.linkRecipients ++ [newRecipient now id (ids n) entry] } := by
        simp only [cut]
        rw [Table.delete_append_row (p := fun r : LinkRecipient => gone r.linkId) hid]
      have hrest := @ih { d with linkRecipients :=
        d.linkRecipients ++ [newRecipient now id (ids n) entry] } hlink (n + 1) (by
          intro k r hr hgone
          rcases List.mem_append.1 hr with hr | hr
          · exact hids k r hr hgone
          · rw [List.mem_singleton.1 hr] at hgone
            exact absurd (hid ▸ hgone : false = true) Bool.false_ne_true)
      simp only [insertRecipients, onLink_cut hid, htaken, hexists, hrow, hrest]
      split
      · exact ih hlink (n + 1) hids
      split
      · rfl
      cases insertRecipients now ids id (n + 1) rest _ with
      | error e => rfl
      | ok r => rfl

theorem addRecipients_cut {now : Int} {ids : Nat → String} {id : String} (hid : gone id = false)
    (hlink : ∀ l ∈ d.links, l.id = id → l.caseId ≠ c) (input : List RecipientInput)
    (hids : ∀ k, ∀ r ∈ d.linkRecipients, gone r.linkId = true → r.id ≠ newId "r" (ids k)) :
    addRecipients P now ids id input (cut c gone d) =
      cutOk c gone (addRecipients P now ids id input d) := by
  unfold addRecipients
  cases checkRecipients P input with
  | error e => rfl
  | ok list =>
      have hfresh : (list.filter fun r => !onLink id r.email (cut c gone d)) =
          list.filter fun r => !onLink id r.email d :=
        List.filter_congr fun r _ => by rw [onLink_cut hid]
      rw [Fallible.ok_bind, Fallible.ok_bind, recipientCount_cut hid, hfresh]
      dsimp only
      split
      · rfl
      · exact insertRecipients_cut hid hlink 0 _ hids

end

end Isolation

end Outletbox
