import Outletbox.AccountStatements
import Outletbox.Http.Work

/-!
# The statements on the deliveries and the groups

As on the account tables, a request is a sequence of SQL statements.  A row that
names an account names one that exists, which is what `known` stands for.
-/

namespace Outletbox

namespace Statements

variable (P : Platform) (cfg : Config)

/-! ## The deliveries -/

/-- One statement on the deliveries. -/
inductive DeliveryWrite (known : String → Prop) : DeliveryDb → DeliveryDb → Prop
  | cases {p : Case → Bool} {f : Case → Case} (d : DeliveryDb) : (∀ c, (f c).id = c.id) →
      ((∀ c ∈ d.cases, c.Valid) → ∀ c, (f c).Valid) →
      DeliveryWrite known d { d with cases := Table.update p f d.cases }
  | newCase {c : Case} (d : DeliveryDb) : (∀ x ∈ d.cases, x.id ≠ c.id) → c.Valid →
      DeliveryWrite known d { d with cases := d.cases ++ [c] }
  | newMember {m : CaseMember} (d : DeliveryDb) :
      (∀ x ∈ d.caseMembers, (x.caseId, x.adminId) ≠ (m.caseId, m.adminId)) →
      (∃ c ∈ d.cases, c.id = m.caseId) → known m.adminId →
      DeliveryWrite known d { d with caseMembers := d.caseMembers ++ [m] }
  | dropMembers (p : CaseMember → Bool) (d : DeliveryDb) :
      DeliveryWrite known d { d with caseMembers := Table.delete p d.caseMembers }
  | items {p : ItemRow → Bool} {f : ItemRow → ItemRow} (d : DeliveryDb) :
      (∀ i, (f i).id = i.id ∧ (f i).caseId = i.caseId ∧ (f i).createdBy = i.createdBy) →
      (∀ i, p i = true → i.Valid → (f i).Valid) →
      DeliveryWrite known d { d with items := Table.update p f d.items }
  | newItem {i : ItemRow} (d : DeliveryDb) : (∀ x ∈ d.items, x.id ≠ i.id) →
      (∃ c ∈ d.cases, c.id = i.caseId) → (∀ k, i.createdBy = some k → known k) → i.Valid →
      DeliveryWrite known d { d with items := d.items ++ [i] }
  | links {p : Link → Bool} {f : Link → Link} (d : DeliveryDb) :
      (∀ l, (f l).id = l.id ∧ (f l).caseId = l.caseId ∧ (f l).tokenHash = l.tokenHash) →
      (∀ l, p l = true → l.Valid → (f l).Valid) →
      DeliveryWrite known d { d with links := Table.update p f d.links }
  | newToken {id hash : String} {f : Link → Link} (d : DeliveryDb) :
      (∀ l, (f l).id = l.id ∧ (f l).caseId = l.caseId ∧ (f l).tokenHash = hash) →
      (∀ l ∈ d.links, l.id ≠ id → l.tokenHash ≠ hash) → (∀ l, l.Valid → (f l).Valid) →
      DeliveryWrite known d (updateLink id (fun _ => true) f d)
  | newLink {l : Link} (d : DeliveryDb) :
      (∀ x ∈ d.links, x.id ≠ l.id ∧ x.tokenHash ≠ l.tokenHash) →
      (∃ c ∈ d.cases, c.id = l.caseId) → l.Valid →
      DeliveryWrite known d { d with links := d.links ++ [l] }
  | people {p : LinkRecipient → Bool} {f : LinkRecipient → LinkRecipient} (d : DeliveryDb) :
      (∀ r, (f r).id = r.id ∧ (f r).linkId = r.linkId ∧ (f r).email = r.email) →
      DeliveryWrite known d { d with linkRecipients := Table.update p f d.linkRecipients }
  | newPerson {r : LinkRecipient} (d : DeliveryDb) :
      (∀ x ∈ d.linkRecipients, x.id ≠ r.id ∧ (x.linkId, x.email) ≠ (r.linkId, r.email)) →
      (∃ l ∈ d.links, l.id = r.linkId) → isValidEmail r.email = true →
      DeliveryWrite known d { d with linkRecipients := d.linkRecipients ++ [r] }
  | deletePerson (id : String) (d : DeliveryDb) : DeliveryWrite known d (deleteRecipient id d)
  | codes {p : Challenge → Bool} {f : Challenge → Challenge} (d : DeliveryDb) :
      (∀ c, (f c).id = c.id ∧ (f c).linkId = c.linkId ∧ (f c).recipientId = c.recipientId) →
      DeliveryWrite known d { d with challenges := Table.update p f d.challenges }
  | newCode {c : Challenge} (d : DeliveryDb) : (∀ x ∈ d.challenges, x.id ≠ c.id) →
      (∃ l ∈ d.links, l.id = c.linkId) →
      (∀ k, c.recipientId = some k → ∃ r ∈ d.linkRecipients, r.id = k ∧ r.linkId = c.linkId) →
      DeliveryWrite known d { d with challenges := d.challenges ++ [c] }
  | dropCodes (p : Challenge → Bool) (d : DeliveryDb) :
      DeliveryWrite known d { d with challenges := Table.delete p d.challenges }
  | newAccess {a : AccessSessionRow} (d : DeliveryDb) : (∀ x ∈ d.accessSessions, x.idHash ≠ a.idHash) →
      (∃ l ∈ d.links, l.id = a.linkId) →
      (∀ k, a.recipientId = some k → ∃ r ∈ d.linkRecipients, r.id = k ∧ r.linkId = a.linkId) →
      DeliveryWrite known d { d with accessSessions := d.accessSessions ++ [a] }
  | dropAccess (p : AccessSessionRow → Bool) (d : DeliveryDb) :
      DeliveryWrite known d (deleteSessionsWhere p d)

/-- A sequence of statements on the deliveries. -/
def DeliveryWrites (known : String → Prop) : DeliveryDb → DeliveryDb → Prop :=
  Relation.ReflTransGen (DeliveryWrite known)

section

variable {P} {cfg} {known : String → Prop} {d d₁ d' : DeliveryDb} {id : String} {now : Int}

theorem DeliveryWrites.refl (d : DeliveryDb) : DeliveryWrites known d d :=
  Relation.ReflTransGen.refl

theorem DeliveryWrites.one (h : DeliveryWrite known d d') : DeliveryWrites known d d' :=
  Relation.ReflTransGen.single h

theorem DeliveryWrites.trans (h : DeliveryWrites known d d₁) (h' : DeliveryWrites known d₁ d') :
    DeliveryWrites known d d' := Relation.ReflTransGen.trans h h'

/-- A case that is found is in the table. -/
theorem mem_of_getCase {c : Case} (h : getCase id d = some c) : c ∈ d.cases ∧ c.id = id :=
  ⟨List.mem_of_find?_eq_some h, by simpa using List.find?_some h⟩

theorem exists_of_getCase (h : (getCase id d).isSome = true) : ∃ c ∈ d.cases, c.id = id := by
  obtain ⟨c, hc⟩ := Option.isSome_iff_exists.1 h
  obtain ⟨hmem, hid⟩ := mem_of_getCase hc
  exact ⟨c, hmem, hid⟩

/-! ## Cases and items -/

/-- The name was trimmed and checked, and the case is new. -/
theorem writes_createCase {name description : String} {c : Case}
    (h : createCase now id name description d = .ok (c, d')) : DeliveryWrites known d d' := by
  have hvalid := valid_newCase h
  unfold createCase at h
  dsimp only at h
  obtain ⟨-, h⟩ := Fallible.guard_eq_ok.1 h
  obtain ⟨hfree, h⟩ := Fallible.guard_eq_ok.1 h
  cases h
  simp only [List.any_eq_true, beq_iff_eq, not_exists, not_and] at hfree
  exact .one (.newCase d hfree hvalid)

theorem writes_updateCase {input : CaseUpdate} {r : Option Case}
    (h : updateCase now id input d = .ok (r, d')) : DeliveryWrites known d d' := by
  unfold updateCase at h
  split at h
  · cases h
    exact .refl _
  rename_i c hc
  dsimp only at h
  obtain ⟨hname, h⟩ := Fallible.guard_eq_ok.1 h
  cases h
  refine .one (.cases d (by exact fun _ => rfl) fun hvalid _ =>
    ⟨isName_of_checked ?_ hname, ?_⟩)
  · cases input.name with
    | none => exact (hvalid c (mem_of_getCase hc).1).name.trimmed
    | some name => exact trim_trim name
  dsimp only
  cases input.description with
  | none => exact (hvalid c (mem_of_getCase hc).1).description
  | some description => exact utf16Length_slice 5000 _

/-- A member is inserted once, into a case that is there. -/
theorem writes_addCaseMember {caseId : String} (hc : ∃ c ∈ d.cases, c.id = caseId)
    (hid : known id) : DeliveryWrites known d (addCaseMember now caseId id d).2 := by
  unfold addCaseMember
  split
  · exact .refl d
  · rename_i hnew
    refine .one (.newMember d (fun x hx hsame => hnew ?_) hc hid)
    obtain ⟨hcase, hadmin⟩ := Prod.mk.inj hsame
    rw [isMember, List.any_eq_true]
    exact ⟨x, hx, by simp [hcase, hadmin]⟩

theorem writes_updateItem {p : ItemRow → Bool} {f : ItemRow → ItemRow}
    (hf : ∀ i, (f i).id = i.id ∧ (f i).caseId = i.caseId ∧ (f i).createdBy = i.createdBy)
    (hv : ∀ i, p i = true → i.Valid → (f i).Valid) (id : String) (d : DeliveryDb) :
    DeliveryWrites known d (updateItem id p f d).2 :=
  .one (.items d hf fun i hi => hv i (Bool.and_eq_true_iff.1 hi).2)

/-- What the schema asks for is checked by the insertion itself. -/
theorem writes_insertItem {item r : ItemRow} (h : insertItem item d = .ok (r, d'))
    (hby : ∀ k, item.createdBy = some k → known k) (hvalid : r.Valid) :
    DeliveryWrites known d d' := by
  obtain ⟨rfl, hfree, hc, rfl⟩ := insertItem_ok h
  exact .one (.newItem d hfree (exists_of_getCase hc) hby hvalid)

theorem writes_createNote {input : NoteInput} {r : ItemRow}
    (h : createNote now id input d = .ok (r, d')) (hby : ∀ k, input.adminId = some k → known k) :
    DeliveryWrites known d d' := by
  have hvalid := valid_note h
  unfold createNote at h
  dsimp only at h
  obtain ⟨-, h⟩ := Fallible.guard_eq_ok.1 h
  exact writes_insertItem h hby hvalid

/-- An upload starts as a file under a safe name. -/
theorem writes_startUpload {input : StartUploadInput} {r : ItemRow × Nat}
    (h : startUpload P cfg now input d = .ok (r, d')) (hby : ∀ k, input.adminId = some k → known k) :
    DeliveryWrites known d d' := by
  have hvalid := valid_upload h
  unfold startUpload at h
  obtain ⟨-, h⟩ := Fallible.guard_eq_ok.1 h
  obtain ⟨-, h⟩ := Fallible.guard_eq_ok.1 h
  obtain ⟨⟨item, d₁⟩, hins, h⟩ := Fallible.bind_eq_ok.1 h
  cases h
  exact writes_insertItem hins hby hvalid

/-- Only an upload that still runs becomes ready. -/
theorem writes_completeUpload (now : Int) (id : String) (size : Nat) (sha256 : Option String)
    (d : DeliveryDb) : DeliveryWrites known d (completeUpload now id size sha256 d).2 :=
  writes_updateItem (by exact fun _ => ⟨rfl, rfl, rfl⟩)
    (fun _ hi hvalid => hvalid.complete (beq_iff_eq.1 hi) _ _ _) id d

/-- An upload that ends early was never ready. -/
theorem writes_failUpload (id : String) {status : ItemStatus}
    (hstatus : status = .aborted ∨ status = .expired) (d : DeliveryDb) :
    DeliveryWrites known d (failUpload id status d).2 := by
  refine writes_updateItem (by exact fun _ => ⟨rfl, rfl, rfl⟩) (fun i hi hvalid => ?_) id d
  have hi := beq_iff_eq.1 hi
  refine hvalid.leave (hvalid.isFile hi) (by rw [hi]; decide) ?_ ?_
  · rcases hstatus with rfl | rfl <;> decide
  · rcases hstatus with rfl | rfl <;> decide

/-- A deleted item keeps its row. -/
theorem writes_markDeleted (now : Int) (id : String) (d : DeliveryDb) :
    DeliveryWrites known d (markDeleted now id d).2 :=
  writes_updateItem (by exact fun _ => ⟨rfl, rfl, rfl⟩) (fun _ _ hvalid => hvalid.delete now) id d

/-- Only a file that is ready can be missing. -/
theorem writes_markMissing (id : String) (d : DeliveryDb) :
    DeliveryWrites known d (markMissing id d) := by
  refine writes_updateItem (by exact fun _ => ⟨rfl, rfl, rfl⟩) (fun i hi hvalid => ?_) id d
  obtain ⟨hready, hfile⟩ := Bool.and_eq_true_iff.1 hi
  exact hvalid.leave (beq_iff_eq.1 hfile) (by rw [beq_iff_eq.1 hready]; decide) (by decide)
    (by decide)

/-! ## Links and people -/

/-- People are added one by one, each after the checks of its own. -/
theorem writes_insertRecipients {ids : Nat → String} {linkId : String} {n : Nat}
    {list : List RecipientInput} {added : List LinkRecipient}
    (h : insertRecipients now ids linkId n list d = .ok (added, d'))
    (hlist : ∀ r ∈ list, isValidEmail r.email = true) : DeliveryWrites known d d' := by
  induction list generalizing n d added with
  | nil =>
      cases h
      exact .refl _
  | cons r rs ih =>
      obtain ⟨hr, hrs⟩ := List.forall_mem_cons.1 hlist
      unfold insertRecipients at h
      dsimp only at h
      split at h
      · exact ih h hrs
      rename_i hnew
      obtain ⟨hfree, h⟩ := Fallible.guard_eq_ok.1 h
      obtain ⟨⟨rest, d₁⟩, hrest, h⟩ := Fallible.bind_eq_ok.1 h
      cases h
      simp only [Bool.or_eq_true, List.any_eq_true, beq_iff_eq, Bool.not_eq_true', not_or,
        not_exists, not_and, Bool.not_eq_false] at hfree
      refine (DeliveryWrites.one (.newPerson _ (r := newRecipient now linkId (ids n) r)
        (fun x hx => ⟨hfree.1 x hx, fun hsame => hnew ?_⟩) hfree.2 hr)).trans (ih hrest hrs)
      obtain ⟨hlink, hemail⟩ := Prod.mk.inj hsame
      rw [onLink, List.any_eq_true]
      exact ⟨x, hx, by simp [hlink, hemail, newRecipient]⟩

/-- The link first, then the people on it. -/
theorem writes_createLink {draw : LinkDraw} {input : CreateLinkInput}
    {r : Link × List LinkRecipient × String}
    (h : createLink P cfg now draw input d = .ok (r, d')) : DeliveryWrites known d d' := by
  unfold createLink at h
  obtain ⟨_, hlist, h⟩ := Fallible.bind_eq_ok.1 h
  obtain ⟨m, hm, h⟩ := Fallible.bind_eq_ok.1 h
  obtain ⟨hfuture, h⟩ := Fallible.guard_eq_ok.1 h
  obtain ⟨hcase, h⟩ := Fallible.guard_eq_ok.1 h
  dsimp only at h
  obtain ⟨hfree, h⟩ := Fallible.guard_eq_ok.1 h
  obtain ⟨⟨added, d₁⟩, hadded, h⟩ := Fallible.bind_eq_ok.1 h
  cases h
  simp only [List.any_eq_true, Bool.or_eq_true, beq_iff_eq, not_exists, not_and, not_or] at hfree
  rw [Option.isNone_iff_eq_none, ← ne_eq, ← Option.isSome_iff_ne_none] at hcase
  have hvalid : (newLink P now draw input m).Valid := valid_newLink hm hfuture
  refine (DeliveryWrites.one (.newLink d hfree (exists_of_getCase hcase) hvalid)).trans ?_
  exact (writes_insertRecipients hadded (People.checkRecipients_ok hlist).2.2.2)

/-- Nobody is put on a link twice. -/
theorem writes_addRecipients {ids : Nat → String} {linkId : String} {input : List RecipientInput}
    {added : List LinkRecipient} (h : addRecipients P now ids linkId input d = .ok (added, d')) :
    DeliveryWrites known d d' := by
  unfold addRecipients at h
  obtain ⟨_, hlist, h⟩ := Fallible.bind_eq_ok.1 h
  dsimp only at h
  obtain ⟨-, h⟩ := Fallible.guard_eq_ok.1 h
  have hvalid := (People.checkRecipients_ok hlist).2.2.2
  exact writes_insertRecipients h fun r hr => hvalid r (List.mem_filter.1 hr).1

/-- One link's columns, its keys apart. -/
theorem writes_updateLink {p : Link → Bool} {f : Link → Link}
    (hf : ∀ l, (f l).id = l.id ∧ (f l).caseId = l.caseId ∧ (f l).tokenHash = l.tokenHash)
    (hv : ∀ l, p l = true → l.Valid → (f l).Valid) (id : String) (d : DeliveryDb) :
    DeliveryWrites known d (updateLink id p f d) :=
  .one (.links d hf fun l hl => hv l (Bool.and_eq_true_iff.1 hl).2)

/-- The new token opens no other link. -/
theorem writes_rotateLinkToken {token : String} {url : Option String}
    (h : rotateLinkToken P cfg token id d = .ok (url, d')) : DeliveryWrites known d d' := by
  rcases rotateLinkToken_ok h with ⟨-, -, rfl⟩ | ⟨-, -, hfree, rfl⟩
  · exact .refl _
  · exact .one (.newToken d (by exact fun _ => ⟨rfl, rfl, rfl⟩) hfree
      fun l hl => { hl with hint := utf16Length_slice 6 token })

/-! ## Codes and access sessions -/

theorem writes_consumeWhere (now : Int) (p : Challenge → Bool) (d : DeliveryDb) :
    DeliveryWrites known d (consumeWhere now p d) :=
  .one (.codes d (by exact fun _ => ⟨rfl, rfl, rfl⟩))

theorem writes_endAccessForLink (now : Int) (id : String) (d : DeliveryDb) :
    DeliveryWrites known d (destroyAccessSessionsForLink now id d) :=
  (DeliveryWrites.one (.dropAccess _ d)).trans (writes_consumeWhere _ _ _)

/-- A code is consumed, given up, or its attempts are counted. -/
theorem writes_verifyChallenge (now : Int) (input : VerifyInput) (d : DeliveryDb) :
    DeliveryWrites known d (verifyChallenge P cfg now input d).2 := by
  have hcode := verified P cfg now input d
  generalize verifyChallenge P cfg now input d = out at hcode
  cases hcode with
  | nothing => exact .refl d
  | accepted => exact writes_consumeWhere _ _ d
  | exhausted => exact .one (.codes d (by exact fun _ => ⟨rfl, rfl, rfl⟩))
  | wrong => exact .one (.codes d (by exact fun _ => ⟨rfl, rfl, rfl⟩))

/-- The earlier codes of the person are consumed first. -/
theorem writes_createChallenge {draw : ChallengeDraw} {input : ChallengeInput}
    {r : Challenge × String} (h : createChallenge P cfg now draw input d = .ok (r, d'))
    (hperson : ∃ x ∈ d.linkRecipients, x.id = input.recipientId ∧ x.linkId = input.linkId) :
    DeliveryWrites known d d' := by
  unfold createChallenge at h
  obtain ⟨-, h⟩ := Fallible.guard_eq_ok.1 h
  obtain ⟨d₁, hins, h⟩ := Fallible.bind_eq_ok.1 h
  cases h
  obtain ⟨hfree, hlink, -, rfl⟩ := insertChallenge_ok hins
  refine (writes_consumeWhere _ _ d).trans (.one (.newCode _ hfree hlink ?_))
  rintro k ⟨⟩
  exact hperson

/-- A visit is to a link that is there, by nobody known or by a person on it. -/
theorem writes_createAccessSession {draw : AccessDraw} {linkId : String}
    {recipientId ip : Option String} {r : String × AccessSession}
    (h : createAccessSession P cfg now draw linkId recipientId ip d = .ok (r, d'))
    (hperson : ∀ k, recipientId = some k → ∃ x ∈ d.linkRecipients, x.id = k ∧ x.linkId = linkId) :
    DeliveryWrites known d d' := by
  unfold createAccessSession at h
  dsimp only at h
  obtain ⟨hfree, h⟩ := Fallible.guard_eq_ok.1 h
  cases h
  simp only [Bool.or_eq_true, not_or, Bool.not_eq_true', Bool.not_eq_false, List.any_eq_true,
    beq_iff_eq, not_exists, not_and] at hfree
  exact .one (.newAccess d hfree.1.1 hfree.1.2 hperson)

/-- No other row points at a code or a visit, so they can go. -/
theorem writes_purgeExpiredAccess (now : Int) (d : DeliveryDb) :
    DeliveryWrites known d (purgeExpiredAccess now d) :=
  (DeliveryWrites.one (.dropAccess _ d)).trans (.one (.dropCodes _ _))

/-! ## Requests to the case routes -/

variable {req : Request} {s : Signed} {dir : Directory}

/-- A handler of a case finds one of the cases, or leaves the tables. -/
theorem writes_withCase {f : Case → Outcome DeliveryDb PanelPage}
    (hf : ∀ c ∈ d.cases, DeliveryWrites known d (f c).state) :
    DeliveryWrites known d (withCase P id req s d f).state := by
  unfold withCase
  split
  · exact .refl d
  · rename_i c hc
    obtain ⟨_, -, hc⟩ := Option.bind_eq_some_iff.1 hc
    exact hf c (mem_of_getCase (caseFor_some hc).1).1

theorem writes_withLink {f : Link → Outcome DeliveryDb PanelPage}
    (hf : ∀ link, DeliveryWrites known d (f link).state) :
    DeliveryWrites known d (withLink P id req s d f).state := by
  unfold withLink
  dsimp only
  split
  · exact .refl d
  split
  · exact .refl d
  split
  · exact .refl d
  · exact hf _

/-- A user who opens a case works on it. -/
theorem writes_postCase (hs : known s.admin.id) (d : DeliveryDb) :
    DeliveryWrites known d (postCase P req s d).state := by
  unfold postCase
  split
  · exact .refl d
  · rename_i c d' hcreated
    have hrow : DeliveryWrites known d _ := writes_createCase hcreated
    obtain ⟨-, -, rfl⟩ := createCase_ok hcreated
    dsimp only
    split
    · exact hrow
    · refine hrow.trans (writes_addCaseMember ⟨c, ?_, rfl⟩ hs)
      exact List.mem_append_right _ (List.mem_singleton_self c)

theorem writes_postCaseUpdate (d : DeliveryDb) :
    DeliveryWrites known d (postCaseUpdate P id req s dir d).state := by
  refine writes_withCase fun c _ => ?_
  split
  · exact .refl d
  · rename_i h
    exact writes_updateCase h
  · rename_i h
    exact writes_updateCase h

theorem writes_postCaseStatus (d : DeliveryDb) :
    DeliveryWrites known d (postCaseStatus P id req s d).state := by
  refine writes_withCase fun c _ => ?_
  dsimp only
  split
  · exact .refl d
  · rename_i h
    exact writes_updateCase h
  · rename_i h
    have hrow : DeliveryWrites known d _ := writes_updateCase h
    dsimp only
    split
    · exact hrow.trans (.one (.dropAccess _ _))
    · exact hrow

theorem writes_postNote (hs : known s.admin.id) (d : DeliveryDb) :
    DeliveryWrites known d (postNote P id req s dir d).state := by
  refine writes_withCase fun c _ => ?_
  dsimp only
  split
  · exact .refl d
  · rename_i h
    refine writes_createNote h ?_
    rintro k ⟨⟩
    exact hs

theorem writes_postLink (d : DeliveryDb) :
    DeliveryWrites known d (postLink P cfg id req s dir d).state := by
  refine writes_withCase fun c _ => ?_
  split
  · exact .refl d
  split
  · exact .refl d
  · rename_i h
    obtain ⟨input, -, h⟩ := linkFromForm_ok h
    exact writes_createLink h

theorem writes_postReissue (d : DeliveryDb) :
    DeliveryWrites known d (postReissue P cfg id req s dir d).state := by
  refine writes_withLink fun link => ?_
  split
  · exact .refl d
  · rename_i h
    exact writes_rotateLinkToken h
  · rename_i h
    exact (writes_rotateLinkToken h).trans (writes_endAccessForLink _ _ _)

theorem writes_postRecipients (d : DeliveryDb) :
    DeliveryWrites known d (postRecipients P id req s dir d).state := by
  refine writes_withLink fun link => ?_
  dsimp only
  split
  · exact .refl d
  split
  · exact .refl d
  split
  · exact .refl d
  · rename_i h
    exact writes_addRecipients h

theorem writes_removeRecipient (linkId rid : String) (d : DeliveryDb) :
    DeliveryWrites known d (removeRecipient linkId rid d).2 := by
  rcases removeRecipient_cases linkId rid d with ⟨-, h⟩ | ⟨_, -, -, -, -, h⟩
  · rw [h]
    exact .refl d
  · rw [h]
    exact .one (.deletePerson rid d)

theorem writes_postRecipientRemove (rid : String) (d : DeliveryDb) :
    DeliveryWrites known d (postRecipientRemove P id rid req s dir d).state := by
  refine writes_withLink fun link => ?_
  dsimp only
  split
  · exact .refl d
  rename_i rid _
  have hcall := @writes_removeRecipient known link.id rid d
  split
  · exact .refl d
  · rename_i h
    rwa [h] at hcall
  · rename_i h
    rwa [h] at hcall

theorem writes_postRevoke (d : DeliveryDb) :
    DeliveryWrites known d (postRevoke P id req s d).state := by
  refine writes_withLink fun link => ?_
  have hcall : DeliveryWrites known d (revokeLink req.now link.id d).2 :=
    writes_updateLink (by exact fun _ => ⟨rfl, rfl, rfl⟩) (by exact fun _ _ hl => { hl with }) _ d
  dsimp only
  split
  · rename_i h
    rw [h] at hcall
    exact hcall.trans (writes_endAccessForLink _ _ _)
  · rename_i h
    rwa [h] at hcall

theorem writes_postItemDelete (d : DeliveryDb) :
    DeliveryWrites known d (postItemDelete P id req s d).state := by
  unfold postItemDelete
  dsimp only
  split
  · exact .refl d
  rename_i item _
  have hdelete := @writes_markDeleted known req.now item.id d
  split
  · exact .refl d
  split
  · rename_i h
    rw [h] at hdelete
    split
    · exact hdelete
    · exact hdelete
  · split
    · exact writes_failUpload _ (.inl rfl) d
    · exact .refl d

theorem writes_postMember (hdir : ∀ a ∈ dir.accounts.admins, known a.id) (d : DeliveryDb) :
    DeliveryWrites known d (postMember P id req s dir d).state := by
  refine writes_withCase fun c hc => ?_
  dsimp only
  split
  · exact .refl d
  rename_i user huser
  split
  · exact .refl d
  · obtain ⟨_, -, huser⟩ := Option.bind_eq_some_iff.1 huser
    obtain ⟨a, ha, rfl⟩ := List.mem_map.1 (List.mem_of_find?_eq_some huser)
    exact writes_addCaseMember ⟨c, hc, rfl⟩ (hdir a ((List.mem_insertionSort _).1 ha))

theorem writes_postMemberRemove (uid : String) (d : DeliveryDb) :
    DeliveryWrites known d (postMemberRemove P id uid req s dir d).state := by
  refine writes_withCase fun c _ => ?_
  dsimp only
  split
  · exact .refl d
  rename_i user _
  have hcall : DeliveryWrites known d (removeCaseMember c.id user.id d).2 :=
    .one (.dropMembers _ d)
  split
  · exact .refl d
  split
  · exact .refl d
  · rename_i h
    rwa [h] at hcall

/-- The row goes in before the bytes come. -/
theorem writes_directUpload {caseId name : String} {declared : Option Nat} {put : PutAnswer}
    (hs : known s.admin.id) (d : DeliveryDb) :
    DeliveryWrites known d (directUpload P cfg caseId name declared put req s d).state := by
  unfold directUpload
  split
  · exact .refl d
  dsimp only
  split
  · exact .refl d
  split
  · exact .refl d
  · exact .refl d
  · rename_i h
    have hstart : DeliveryWrites known d _ := writes_startUpload h (by rintro k ⟨⟩; exact hs)
    split
    · exact hstart.trans (writes_failUpload _ (.inl rfl) _)
    · exact hstart.trans (writes_failUpload _ (.inl rfl) _)
    · exact hstart.trans (writes_completeUpload _ _ _ _ _)

theorem writes_onUploadFinish (uploadId : String) (upload : TusUpload) (d : DeliveryDb) :
    DeliveryWrites known d (onUploadFinish uploadId upload req s d).state := by
  unfold onUploadFinish
  split
  · exact .refl d
  split
  · exact .refl d
  · exact writes_completeUpload _ _ _ _ d

/-- The item of an upload carries the account that started it. -/
theorem writes_onUploadCreate (hs : known s.admin.id) (upload : TusUpload) (finished : Bool)
    (d : DeliveryDb) :
    DeliveryWrites known d (onUploadCreate P cfg upload finished req s d).state := by
  unfold onUploadCreate
  dsimp only
  split
  · exact .refl d
  split
  · exact .refl d
  split
  · exact .refl d
  split
  · exact .refl d
  split
  · exact .refl d
  · exact .refl d
  · rename_i h
    have hstart : DeliveryWrites known d _ := writes_startUpload h (by rintro k ⟨⟩; exact hs)
    dsimp only
    split
    · exact hstart.trans (writes_onUploadFinish _ _ _)
    · exact hstart

/-- The calls of the upload library, those of a stranger among them. -/
theorem writes_tus (hs : known s.admin.id) (uploadId : String) (request : TusRequest)
    (d : DeliveryDb) :
    DeliveryWrites known d (tusHandler P cfg uploadId request req s d).state := by
  -- a request for an upload that exists runs after `onIncomingRequest` has let it through
  have hchecked : ∀ d', (∀ response, onIncomingRequest uploadId s d = some response → d' = d) →
      (onIncomingRequest uploadId s d = none → DeliveryWrites known d d') →
      DeliveryWrites known d d' := by
    intro d' hrefused hdone
    cases hin : onIncomingRequest uploadId s d with
    | some response =>
        rw [hrefused response hin]
        exact .refl d
    | none => exact hdone hin
  unfold tusHandler
  dsimp only
  split
  · exact .refl d
  · exact .refl d
  · refine hchecked _ (fun response h => by rw [h]; rfl) fun h => ?_
    rw [h]
    exact .refl d
  · exact .refl d
  · exact writes_onUploadCreate hs _ _ d
  · refine hchecked _ (fun response h => by rw [h]; rfl) fun h => ?_
    rw [h]
    exact .refl d
  · refine hchecked _ (fun response h => by rw [h]; rfl) fun h => ?_
    rw [h]
    exact writes_onUploadFinish _ _ d
  · refine hchecked _ (fun response h => by rw [h]; rfl) fun h => ?_
    rw [h]
    exact .refl d
  · refine hchecked _ (fun response h => by rw [h]; rfl) fun h => ?_
    rw [h]
    unfold postTerminate
    dsimp only
    split
    · exact .refl d
    · exact writes_failUpload _ (.inl rfl) d

/-- What a case route does to the deliveries. -/
theorem writes_work (hs : known s.admin.id) (hdir : ∀ a ∈ dir.accounts.admins, known a.id)
    (route : WorkRoute) (d : DeliveryDb) :
    DeliveryWrites known d (route.handle P cfg req s dir d).state := by
  cases route with
  | cases =>
      rw [WorkRoute.handle]
      exact .refl d
  | createCase => exact writes_postCase hs d
  | case id =>
      rw [WorkRoute.handle]
      exact .refl d
  | updateCase id =>
      rw [WorkRoute.handle]
      exact writes_postCaseUpdate d
  | caseStatus id =>
      rw [WorkRoute.handle]
      exact writes_postCaseStatus d
  | note id =>
      rw [WorkRoute.handle]
      exact writes_postNote hs d
  | createLink id =>
      rw [WorkRoute.handle]
      exact writes_postLink d
  | reissue id =>
      rw [WorkRoute.handle]
      exact writes_postReissue d
  | addRecipients id =>
      rw [WorkRoute.handle]
      exact writes_postRecipients d
  | removeRecipient id rid =>
      rw [WorkRoute.handle]
      exact writes_postRecipientRemove rid d
  | revoke id =>
      rw [WorkRoute.handle]
      exact writes_postRevoke d
  | download id =>
      have h : (WorkRoute.handle P cfg (.download id) req s dir d).state = d := downloadItem_state
      rw [h]
      exact .refl d
  | deleteItem id =>
      rw [WorkRoute.handle]
      exact writes_postItemDelete d
  | addMember id =>
      rw [WorkRoute.handle]
      exact writes_postMember hdir d
  | removeMember id uid =>
      rw [WorkRoute.handle]
      exact writes_postMemberRemove uid d
  | upload caseId name declared put =>
      rw [WorkRoute.handle]
      exact writes_directUpload hs d
  | tus uploadId request =>
      rw [WorkRoute.handle]
      exact writes_tus hs uploadId request d

/-! ## Requests to the delivery pages -/

theorem writes_accessMiddleware (req : Request) (d : DeliveryDb) :
    DeliveryWrites known d (accessMiddleware P req d).2 := by
  rcases accessMiddleware_cases (P := P) req d with ⟨-, h | ⟨_, h, -⟩⟩ | ⟨h, -⟩
  · rw [h]
    exact .refl d
  · rw [h]
    exact .one (.dropAccess _ d)
  · rw [h]
    exact .refl d

/-- The people of a resolved link are on it. -/
theorem person_on_link {r : DeliverRequest} {v : Visit} (hr : Entered P cfg r d₁ v d)
    {x : LinkRecipient} (hx : x ∈ v.resolved.recipients) :
    x ∈ d.linkRecipients ∧ x.linkId = v.resolved.link.id := by
  obtain ⟨-, -, -, -, -, hpeople⟩ := resolveToken_some hr.resolved
  rw [hpeople] at hx
  obtain ⟨hmem, hlink⟩ := List.mem_filter.1 hx
  exact ⟨hmem, by simpa using hlink⟩

/-- A code is sent to a person on the link. -/
theorem writes_postEmail {r : DeliverRequest} {v : Visit} (hr : Entered P cfg r d₁ v d) :
    DeliveryWrites known d (postEmail P cfg r v d).state := by
  unfold postEmail
  dsimp only
  split
  · exact .refl d
  split
  · exact .refl d
  rename_i recipient hfound
  obtain ⟨hmem, hlink⟩ := person_on_link hr (List.mem_of_find?_eq_some hfound)
  split
  · exact .refl d
  · exact .refl d
  · rename_i h
    have hcode : DeliveryWrites known d _ := writes_createChallenge h ⟨recipient, hmem, rfl, hlink⟩
    split
    · exact hcode
    · exact hcode

/-- The visit belongs to the link of the request. -/
theorem writes_openSession {r : DeliverRequest} {v : Visit} (hr : Entered P cfg r d₁ v d)
    (hpeople : d'.linkRecipients = d.linkRecipients) (recipientId : Option String) :
    DeliveryWrites known d' (openSession P cfg r v recipientId d').state := by
  have hcount : DeliveryWrites known d' (registerOpen r.now v.resolved.link.id d').2 :=
    writes_updateLink (by exact fun _ => ⟨rfl, rfl, rfl⟩) (fun _ hmay hl => hl.open hmay r.now) _ d'
  have hrows : (registerOpen r.now v.resolved.link.id d').2.linkRecipients = d.linkRecipients :=
    hpeople
  unfold openSession
  generalize registerOpen r.now v.resolved.link.id d' = out at hcount hrows ⊢
  obtain ⟨opened, d₂⟩ := out
  dsimp only at hcount hrows ⊢
  split
  · exact hcount
  cases hfound : v.resolved.recipients.find? fun x => some x.id == recipientId with
  | none =>
      dsimp only [Option.map_none]
      split
      · exact hcount
      · rename_i h
        exact hcount.trans (writes_createAccessSession h (by rintro k ⟨⟩))
  | some x =>
      obtain ⟨hmem, hlink⟩ := person_on_link hr (List.mem_of_find?_eq_some hfound)
      have hopen := hcount.trans (DeliveryWrites.one (.people d₂ (p := fun r => r.id == x.id)
        (f := fun y => { y with opens := y.opens + 1, lastOpenedAt := some r.now })
        (by exact fun _ => ⟨rfl, rfl, rfl⟩)))
      dsimp only [Option.map_some]
      split
      · exact hopen
      · rename_i h
        refine hopen.trans (writes_createAccessSession h ?_)
        rintro k ⟨⟩
        refine ⟨_, Table.mem_update.2 ⟨x, hrows ▸ hmem, rfl⟩, ?_⟩
        split
        · exact ⟨rfl, hlink⟩
        · exact ⟨rfl, hlink⟩

/-- A right code is consumed before the visit is opened. -/
theorem writes_postCode {r : DeliverRequest} {v : Visit} (hr : Entered P cfg r d₁ v d) :
    DeliveryWrites known d (postCode P cfg r v d).state := by
  have hcall := @writes_verifyChallenge P cfg known r.now (v.verifyInput r) d
  have hpeople : (verifyChallenge P cfg r.now (v.verifyInput r) d).2.linkRecipients =
      d.linkRecipients := by
    have hcode := verified P cfg r.now (v.verifyInput r) d
    generalize verifyChallenge P cfg r.now (v.verifyInput r) d = out at hcode
    cases hcode <;> rfl
  unfold postCode
  dsimp only
  split
  · rename_i h
    rwa [h] at hcall
  · rename_i h
    rwa [h] at hcall
  · rename_i h
    rw [h] at hcall hpeople
    exact hcall.trans (writes_openSession hr hpeople _)

theorem writes_showDelivery {r : DeliverRequest} {v : Visit} (d : DeliveryDb) :
    DeliveryWrites known d (showDelivery P cfg r v d).state := by
  have hknock : ∀ view, DeliveryWrites known d (showDelivery.knock P cfg r v d view).state :=
    fun _ => writes_updateLink (by exact fun _ => ⟨rfl, rfl, rfl⟩)
      (by exact fun _ _ hl => { hl with }) _ d
  unfold showDelivery
  dsimp only
  split
  · split
    · exact .refl d
    · exact hknock _
  · exact hknock _

theorem writes_getFile {r : DeliverRequest} {v : Visit} (itemId : String) (d : DeliveryDb) :
    DeliveryWrites known d (getFile itemId r v d).state := by
  unfold getFile
  dsimp only
  repeat' split
  all_goals exact .refl d

/-- A visitor's request, once the link is found. -/
theorem writes_visited {r : DeliverRequest} {v : Visit} (hr : Entered P cfg r d₁ v d)
    (route : DeliverRoute) : DeliveryWrites known d (route.handle P cfg r v d).state := by
  cases route with
  | page => exact writes_showDelivery d
  | email => exact writes_postEmail hr
  | code => exact writes_postCode hr
  | restart => exact writes_consumeWhere _ _ d
  | close =>
      rw [DeliverRoute.handle]
      unfold postClose
      dsimp only
      split
      · exact .refl d
      · exact .one (.dropAccess _ d)
  | file itemId => exact writes_getFile itemId d

/-- What a request to a delivery page does to the deliveries. -/
theorem writes_deliver (r : DeliverRequest) (d : DeliveryDb) :
    DeliveryWrites known d (deliver P cfg r d).state := by
  have hread := @writes_accessMiddleware P known r.toRequest d
  unfold deliver
  split
  · rename_i response d' h
    have hstate : (enter P cfg r d).2 = d' := congrArg Prod.snd h
    rcases enter_state hstate with rfl | rfl
    · exact .refl _
    · exact hread
  · rename_i v d' h
    have hentered := enter_ok h
    have hstate : (accessMiddleware P r.toRequest d).2 = d' := congrArg Prod.snd hentered.access
    rw [hstate] at hread
    exact hread.trans (writes_visited hentered r.route)

/-! ## Housekeeping -/

theorem writes_expireUploads (items : List ItemRow) (d : DeliveryDb) :
    DeliveryWrites known d (expireUploads items d).2 := by
  induction items generalizing d with
  | nil => exact .refl d
  | cons item items ih => exact (writes_failUpload item.id (.inr rfl) d).trans (ih _)

/-- The nightly check marks files whose objects are gone. -/
theorem writes_flagMissing (items : List ItemRow) (d : DeliveryDb) :
    DeliveryWrites known d (flagMissing items d).2 := by
  induction items generalizing d with
  | nil => exact .refl d
  | cons item items ih => exact (writes_markMissing item.id d).trans (ih _)

theorem writes_cleanup (run : CleanupRun) (sv : Server) :
    DeliveryWrites known sv.deliveries (runCleanup run sv).1.deliveries :=
  (writes_expireUploads _ _).trans <| (writes_flagMissing _ _).trans <|
    writes_purgeExpiredAccess _ _

end

/-! ## The groups -/

/-- One statement on the address groups. -/
inductive GroupWrite (known : String → Prop) : GroupDb → GroupDb → Prop
  | newGroup {row : GroupRow} (g : GroupDb) : (∀ x ∈ g.groups, x.id ≠ row.id) →
      nameTaken row.name none g = false → (∀ k, row.createdBy = some k → known k) →
      IsName row.name → GroupWrite known g { g with groups := g.groups ++ [row] }
  | rename {id name : String} {f : GroupRow → GroupRow} (g : GroupDb) :
      nameTaken name (some id) g = false →
      (∀ x, (f x).id = x.id ∧ (f x).createdBy = x.createdBy ∧ (f x).name = name) → IsName name →
      GroupWrite known g { g with groups := Table.update (fun x => x.id == id) f g.groups }
  | members {id : String} {people : List RecipientInput} {g g' : GroupDb} :
      (∃ x ∈ g.groups, x.id = id) → writeMembers id people g = .ok g' →
      (∀ r ∈ people, isValidEmail r.email = true) → people.length ≤ maxRecipients →
      GroupWrite known g g'
  | deleteGroup (id : String) (g : GroupDb) : GroupWrite known g (deleteGroup id g)

/-- A sequence of statements on the groups. -/
def GroupWrites (known : String → Prop) : GroupDb → GroupDb → Prop :=
  Relation.ReflTransGen (GroupWrite known)

section

variable {P} {known : String → Prop} {g g' : GroupDb} {id name : String} {now : Int}
  {req : Request} {s : Signed} {accounts : AccountDb}

/-- A group is inserted and then filled. -/
theorem writes_createGroup {people : List RecipientInput} {by' : Option String} {out : String}
    (h : createGroup now id name people by' g = .ok (out, g')) (hby : ∀ k, by' = some k → known k)
    (hpeople : ∀ r ∈ people, isValidEmail r.email = true) : GroupWrites known g g' := by
  unfold createGroup at h
  obtain ⟨name', hfits, h⟩ := Fallible.bind_eq_ok.1 h
  obtain ⟨people', hlist, h⟩ := Fallible.bind_eq_ok.1 h
  obtain ⟨rfl, hmax⟩ := validMembers_ok hlist
  obtain ⟨hname, h⟩ := Fallible.guard_eq_ok.1 h
  obtain ⟨hfree, h⟩ := Fallible.guard_eq_ok.1 h
  dsimp only at h
  obtain ⟨g₁, hmembers, h⟩ := Fallible.bind_eq_ok.1 h
  cases h
  simp only [List.any_eq_true, beq_iff_eq, not_exists, not_and] at hfree
  have hrow : GroupWrite known g
      { g with groups := g.groups ++ [⟨newId "g" id, name', now, now, by'⟩] } :=
    .newGroup g hfree (Bool.eq_false_of_not_eq_true hname) hby (validName_ok hfits).2
  exact (Relation.ReflTransGen.single hrow).tail <|
    .members ⟨_, List.mem_append_right _ (List.mem_singleton_self _), rfl⟩ hmembers hpeople hmax

/-- The members of a group are replaced as a whole. -/
theorem writes_updateGroup {people : List RecipientInput} (hid : ∃ x ∈ g.groups, x.id = id)
    (h : updateGroup now id name people g = .ok g')
    (hpeople : ∀ r ∈ people, isValidEmail r.email = true) : GroupWrites known g g' := by
  unfold updateGroup at h
  obtain ⟨name', hfits, h⟩ := Fallible.bind_eq_ok.1 h
  obtain ⟨people', hlist, h⟩ := Fallible.bind_eq_ok.1 h
  obtain ⟨rfl, hmax⟩ := validMembers_ok hlist
  obtain ⟨hname, h⟩ := Fallible.guard_eq_ok.1 h
  have hrow : GroupWrite known g _ :=
    .rename (f := fun x => { x with name := name', updatedAt := now }) g
      (Bool.eq_false_of_not_eq_true hname) (by exact fun _ => ⟨rfl, rfl, rfl⟩)
      (validName_ok hfits).2
  refine (Relation.ReflTransGen.single hrow).tail (.members ?_ h hpeople hmax)
  obtain ⟨x, hx, rfl⟩ := hid
  refine ⟨_, Table.mem_update.2 ⟨x, hx, rfl⟩, ?_⟩
  split
  · rfl
  · rfl

/-- A handler of a group finds one of the groups, or leaves the tables. -/
theorem writes_editableGroup {f : Group → Outcome GroupDb PanelPage}
    (hf : ∀ group, (∃ x ∈ g.groups, x.id = group.id) → GroupWrites known g (f group).state) :
    GroupWrites known g (editableGroup P id req s accounts g f).state := by
  unfold editableGroup
  dsimp only
  split
  · exact .refl
  rename_i group hgroup
  split
  · exact .refl
  · obtain ⟨_, -, hgroup⟩ := Option.bind_eq_some_iff.1 hgroup
    obtain ⟨x, hx, rfl⟩ := Option.map_eq_some_iff.1 hgroup
    exact hf _ ⟨x, List.mem_of_find?_eq_some hx, rfl⟩

theorem groupSaved_state {action : String} {key : MessageKey} :
    (groupSaved P req s accounts id action key g).state = g := by
  unfold groupSaved
  split <;> rfl

/-- What a group route does to the groups. -/
theorem writes_groups (hs : known s.admin.id) (route : GroupRoute) (g : GroupDb) :
    GroupWrites known g (route.handle P req s accounts g).state := by
  cases route with
  | list => exact .refl
  | create =>
      rw [GroupRoute.handle]
      unfold postGroup
      dsimp only
      split
      · exact .refl
      · rename_i h
        obtain ⟨_, hread, h⟩ := Fallible.bind_eq_ok.1 h
        rw [groupSaved_state]
        refine writes_createGroup h ?_ (requireRecipients_valid hread).2
        rintro k ⟨⟩
        exact hs
  | update id =>
      rw [GroupRoute.handle]
      refine writes_editableGroup fun group hgroup => ?_
      dsimp only
      split
      · exact .refl
      · rename_i h
        obtain ⟨_, hread, h⟩ := Fallible.bind_eq_ok.1 h
        rw [groupSaved_state]
        exact writes_updateGroup hgroup h (requireRecipients_valid hread).2
  | delete id =>
      rw [GroupRoute.handle]
      refine writes_editableGroup fun group _ => ?_
      exact .single (.deleteGroup group.id g)

end

end Statements

end Outletbox
