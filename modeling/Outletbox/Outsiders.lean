import Outletbox.Http.Steps
import Outletbox.Integrity
import Outletbox.Isolation

/-!
# What a case is to those outside it

Every route of the panel commutes with taking a case out of the deliveries, when
the session is a user's that is not assigned to it.  So the answer does not
depend on the case, but for the place `requireConfirmed` sends an unconfirmed
session back to, and for a link whose row cannot be read: both are looked up
before the case is.  Each request is one step here.
-/

namespace Outletbox

namespace Isolation

variable (P : Platform) (cfg : Config)

/-- What a request draws meets nothing of the case. -/
structure Drawn (c : String) (gone : String → Bool) (req : Request) (d : DeliveryDb) : Prop where
  case : newId "c" req.random.id ≠ c
  link : gone (newId "l" req.random.id) = false
  links : ∀ l ∈ d.links, l.caseId = c →
    l.id ≠ newId "l" req.random.id ∧ l.tokenHash ≠ P.sha256Hex req.random.token
  items : ∀ i ∈ d.items, i.caseId = c →
    i.id ≠ newId "n" req.random.id ∧ i.id ≠ newId "f" req.random.id
  recipients : ∀ k, ∀ r ∈ d.linkRecipients, gone r.linkId = true →
    r.id ≠ newId "r" (req.random.ids k)

/-- The rows of a case: the case itself, who is assigned to it, its items and its links, and the
people on these. -/
structure CaseRows where
  cases : List Case
  caseMembers : List CaseMember
  items : List ItemRow
  links : List Link
  linkRecipients : List LinkRecipient
  deriving DecidableEq

def rowsOf (c : String) (d : DeliveryDb) : CaseRows where
  cases := d.cases.filter fun x => x.id == c
  caseMembers := d.caseMembers.filter fun m => m.caseId == c
  items := d.items.filter fun i => i.caseId == c
  links := d.links.filter fun l => l.caseId == c
  linkRecipients := d.linkRecipients.filter fun r => inCase c r.linkId d

/-- What is open on the links of a case: the codes that were sent and the visits. -/
structure AccessRows where
  challenges : List Challenge
  accessSessions : List AccessSessionRow
  deriving DecidableEq

def accessOf (c : String) (d : DeliveryDb) : AccessRows where
  challenges := d.challenges.filter fun x => inCase c x.linkId d
  accessSessions := d.accessSessions.filter fun a => inCase c a.linkId d

/-- The primary keys of the tables. -/
structure Keyed (d : DeliveryDb) : Prop where
  items : (d.items.map (·.id)).Nodup
  links : (d.links.map (·.id)).Nodup
  linkRecipients : (d.linkRecipients.map (·.id)).Nodup

/-- The server without a case. -/
def aside (c : String) (gone : String → Bool) (sv : Server) : Server :=
  { sv with deliveries := cut c gone sv.deliveries }

/-- The request is in a complete session of a user that is not assigned to the case. -/
structure Outsider (c : String) (r : PanelRequest) (s : Signed) (sv : Server) : Prop where
  session : (sessionMiddleware P r.toRequest sv.accounts).1 = some s
  complete : s.session.totpVerified = true
  role : s.admin.role = .user
  outside : isMember c s.admin.id sv.deliveries = false

/-- The link the path of a route names.  It is looked up before its case is. -/
def linkPath : PanelRoute → Option String
  | .work (.reissue id) | .work (.addRecipients id) | .work (.removeRecipient id _)
  | .work (.revoke id) => some id
  | _ => none

/-- The path names this link, and it is one of the case. -/
def Names (c : String) (route : PanelRoute) (d : DeliveryDb) (link : Link) : Prop :=
  ∃ id, linkPath route = some id ∧
    ((validId id).bind fun id => getLink id d) = some link ∧ link.caseId = c

/-- Where a path names a link of the case, the row can be read. -/
def Readable (c id : String) (d : DeliveryDb) : Prop :=
  ∀ link, ((validId id).bind fun id => getLink id d) = some link → link.caseId = c →
    link.isReadable = true

/-- `requireConfirmed` sends the request back to the case of its link. -/
def BackToLink (route : PanelRoute) : Prop :=
  ∃ id, route = .work (.reissue id) ∨ route = .work (.addRecipients id)

/-- The request carries the token of a session that has no step to take first, and its path names
a link of the case; the session is sent to confirm itself, and then back to the case, or the row
of the link cannot be read. -/
def Leaks (c : String) (r : PanelRequest) (s : Signed) (d : DeliveryDb) : Prop :=
  csrfRefusal P cfg r.toRequest .post false s = none ∧ missingStep cfg s = none ∧
    ∃ link, Names c r.route d link ∧
      (link.isReadable = false ∨ BackToLink r.route ∧ s.session.isConfirmed r.now = false)

section

variable {P} {cfg} {c x : String} {gone : String → Bool} {s : Signed} {dir : Directory}
  {req : Request} {d d' : DeliveryDb}

/-- The routes to a link are forms behind the gate. -/
theorem linkPath_kind {route : PanelRoute} {id : String} (h : linkPath route = some id) :
    route.method = .post ∧ route.isApi = false ∧ route.limited = false ∧
      route.adminsOnly = false ∧ route.isInside = true := by
  unfold linkPath at h
  split at h
  · exact ⟨rfl, rfl, rfl, rfl, rfl⟩
  · exact ⟨rfl, rfl, rfl, rfl, rfl⟩
  · exact ⟨rfl, rfl, rfl, rfl, rfl⟩
  · exact ⟨rfl, rfl, rfl, rfl, rfl⟩
  · cases h

/-! ## A user stays outside -/

theorem Sealed.of_tables (h : Sealed c gone s d) (hm : d'.caseMembers = d.caseMembers)
    (hl : d'.links = d.links) : Sealed c gone s d' := by
  refine ⟨h.role, ?_, ?_⟩
  · rw [isMember, hm]
    exact h.outside
  · rw [hl]
    exact h.links

theorem Sealed.updateLink (h : Sealed c gone s d) {id : String} {p : Link → Bool}
    {f : Link → Link} (hf : ∀ l, (f l).id = l.id ∧ (f l).caseId = l.caseId) :
    Sealed c gone s (updateLink id p f d) := by
  refine ⟨h.role, h.outside, fun l hl => ?_⟩
  obtain ⟨l₀, hl₀, rfl⟩ := Table.mem_update.1 hl
  split
  · rw [(hf l₀).1, (hf l₀).2]
    exact h.links l₀ hl₀
  · exact h.links l₀ hl₀

theorem Sealed.newLink (h : Sealed c gone s d) {link : Link} (hc : link.caseId ≠ c)
    (hid : gone link.id = false) : Sealed c gone s { d with links := d.links ++ [link] } := by
  refine ⟨h.role, h.outside, fun l hl => ?_⟩
  rcases List.mem_append.1 hl with hl | hl
  · exact h.links l hl
  · rw [List.mem_singleton.1 hl, hid]
    exact ⟨fun hgone => absurd hgone Bool.false_ne_true, fun hcase => absurd hcase hc⟩

theorem Sealed.addCaseMember (h : Sealed c gone s d) {now : Int} (hx : x ≠ c) (id : String) :
    Sealed c gone s (addCaseMember now x id d).2 := by
  unfold Outletbox.addCaseMember
  split
  · exact h
  · refine ⟨h.role, ?_, h.links⟩
    have hrow : (x == c) = false := by simpa using hx
    have hout := h.outside
    rw [isMember] at hout ⊢
    rw [List.any_append, hout, Bool.false_or, List.any_cons, hrow]
    rfl

theorem Sealed.removeCaseMember (h : Sealed c gone s d) (id : String) :
    Sealed c gone s (removeCaseMember x id d).2 := by
  refine ⟨h.role, ?_, h.links⟩
  have hout := h.outside
  rw [isMember, List.any_eq_false] at hout ⊢
  intro m hm
  exact hout m (Table.mem_delete.1 hm).1

theorem Sealed.destroyAccessSessionsForLink (h : Sealed c gone s d) (now : Int) (id : String) :
    Sealed c gone s (destroyAccessSessionsForLink now id d) := h.of_tables rfl rfl

/-! ## The lookups in front of a handler -/

/-- A handler of a case finds another one, or none with or without it. -/
theorem withCase_cut (h : Sealed c gone s d) {id : String}
    {f f' : Case → Outcome DeliveryDb PanelPage}
    (hf : ∀ found, found.id ≠ c → f' found = (f found).into (cut c gone)) :
    withCase P id req s (cut c gone d) f' = (withCase P id req s d f).into (cut c gone) := by
  have hfound : ((validId id).bind fun id => caseFor s id (cut c gone d)) =
      (validId id).bind fun id => caseFor s id d :=
    Option.bind_congr fun a _ => caseFor_cut h a
  unfold withCase
  rw [hfound]
  cases hc : (validId id).bind fun id => caseFor s id d with
  | none => rfl
  | some found =>
      obtain ⟨a, -, hc⟩ := Option.bind_eq_some_iff.1 hc
      refine hf found ?_
      rw [(caseFor_some hc).2.1]
      exact h.ne_of_caseFor hc

/-- A handler of a link finds one of another case, or none with or without the case. -/
theorem withLink_cut (h : Sealed c gone s d) {id : String}
    {f f' : Link → Outcome DeliveryDb PanelPage}
    (hread : Readable c id d)
    (hf : ∀ link, getLink link.id d = some link → link.caseId ≠ c →
      f' link = (f link).into (cut c gone)) :
    withLink P id req s (cut c gone d) f' = (withLink P id req s d f).into (cut c gone) := by
  unfold withLink
  cases hv : validId id with
  | none => rfl
  | some a =>
      dsimp only [Option.bind_some]
      rw [getLink_cut h]
      cases hl : getLink a d with
      | none => rfl
      | some link =>
          by_cases hc : link.caseId = c
          · have hlink := hread link (by rw [hv, Option.bind_some, hl]) hc
            rw [Option.filter_some, if_neg (by simp [hc])]
            dsimp only
            rw [hlink, hc, h.caseFor_none]
            rfl
          · rw [Option.filter_some, if_pos (by simpa using hc)]
            dsimp only
            rw [caseFor_cut h]
            split
            · rfl
            split
            · rfl
            · exact hf link (by rw [getLink_id hl, hl]) hc

/-- The page of a case, on the tables an action left. -/
theorem page_cut (h : Sealed c gone s d) {audit : List AuditEvent} (id : String) (extra : CaseExtra)
    (status : Nat) :
    ({ state := cut c gone d
       response := renderCase P req s dir id extra status (cut c gone d)
       audit := audit } : Outcome DeliveryDb PanelPage) =
      Outcome.into
        { state := d, response := renderCase P req s dir id extra status d, audit := audit }
        (cut c gone) := by
  rw [renderCase_cut h]
  rfl

/-! ## Cases -/

theorem postCase_cut (h : Sealed c gone s d) (hd : Drawn P c gone req d) :
    postCase P req s (cut c gone d) = (postCase P req s d).into (cut c gone) := by
  unfold postCase
  rw [createCase_cut hd.case]
  cases hc : createCase req.now req.random.id (req.field "name") (req.field "description") d with
  | error e =>
      dsimp only [cutOk_error]
      rw [casesPage, listCases_cut h]
      rfl
  | ok r =>
      obtain ⟨found, d'⟩ := r
      obtain ⟨hid, -, rfl⟩ := createCase_ok hc
      dsimp only [cutOk_ok]
      rw [h.role]
      simp only [reduceCtorEq, if_false]
      rw [addCaseMember_cut (hid ▸ hd.case)]
      rfl

theorem postCaseUpdate_cut (h : Sealed c gone s d) (id : String) :
    postCaseUpdate P id req s dir (cut c gone d) =
      (postCaseUpdate P id req s dir d).into (cut c gone) := by
  refine withCase_cut h fun found hx => ?_
  rw [updateCase_cut hx]
  cases hu : updateCase req.now found.id
      { name := some (req.field "name"), description := some (req.field "description") } d with
  | error e => exact page_cut h _ _ _
  | ok r =>
      obtain ⟨r, d'⟩ := r
      have h' : Sealed c gone s d' := by
        rcases updateCase_ok hu with ⟨-, rfl⟩ | ⟨_, _, _, -, -, rfl⟩
        · exact h
        · exact h.of_tables rfl rfl
      cases r with
      | none => rfl
      | some r => exact page_cut h' _ _ _

theorem postCaseStatus_cut (h : Sealed c gone s d) (id : String) :
    postCaseStatus P id req s (cut c gone d) = (postCaseStatus P id req s d).into (cut c gone) := by
  refine withCase_cut h fun found hx => ?_
  dsimp only
  rw [updateCase_cut hx]
  cases updateCase req.now found.id { status := some (formStatus req) } d with
  | error e => rfl
  | ok r =>
      obtain ⟨r, d'⟩ := r
      cases r with
      | none => rfl
      | some r =>
          dsimp only [cutOk_ok]
          split
          · rw [destroyAccessSessionsForCase_cut hx]
            rfl
          · rfl

theorem postNote_cut (h : Sealed c gone s d) (hd : Drawn P c gone req d) (id : String) :
    postNote P id req s dir (cut c gone d) = (postNote P id req s dir d).into (cut c gone) := by
  refine withCase_cut h fun found hx => ?_
  dsimp only
  rw [createNote_cut]
  · cases hn : createNote req.now req.random.id
        ⟨found.id, req.field "title", req.field "body", some s.admin.id⟩ d with
    | error e =>
        rw [cutOk_error]
        exact page_cut h _ _ _
    | ok r =>
        obtain ⟨note, d'⟩ := r
        obtain ⟨-, -, rfl⟩ := createNote_ok hn
        refine page_cut ?_ _ _ _
        exact h.of_tables rfl rfl
  · exact hx
  · exact fun i hi hc => (hd.items i hi hc).1

/-! ## Links -/

theorem createLink_cut {input : CreateLinkInput} (h : Sealed c gone s d)
    (hd : Drawn P c gone req d) (hx : input.caseId ≠ c) :
    createLink P cfg req.now req.linkDraw input (cut c gone d) =
      cutOk c gone (createLink P cfg req.now req.linkDraw input d) := by
  unfold createLink
  cases checkRecipients P input.recipients with
  | error e => rfl
  | ok list =>
      rw [Fallible.ok_bind, Fallible.ok_bind]
      cases positiveOpens input.maxOpens with
      | error e => rfl
      | ok maxOpens =>
          rw [Fallible.ok_bind, Fallible.ok_bind, getCase_cut hx]
          set link := newLink P req.now req.linkDraw input maxOpens
          have hcase : link.caseId ≠ c := hx
          have htaken : ((cut c gone d).links.any fun l =>
              l.id == link.id || l.tokenHash == link.tokenHash) =
                d.links.any fun l => l.id == link.id || l.tokenHash == link.tokenHash := by
            refine Table.any_delete fun l hl hp => ?_
            rw [Bool.or_eq_true, beq_iff_eq, beq_iff_eq] at hp
            by_contra hc
            obtain ⟨hid, htoken⟩ := hd.links l hl (by simpa using hc)
            exact hp.elim hid htoken
          have hrow : { cut c gone d with links := (cut c gone d).links ++ [link] } =
              cut c gone { d with links := d.links ++ [link] } := by
            have hother : (link.caseId == c) = false := by simpa using hcase
            simp only [cut]
            rw [Table.delete_append_row (p := fun l : Link => l.caseId == c) hother]
          have hadded := @insertRecipients_cut c gone { d with links := d.links ++ [link] } req.now
            req.linkDraw.recipientIds link.id hd.link (by
              intro l hl hid hc
              exact absurd (((h.newLink hcase hd.link).links l hl).2 hc) (by
                rw [hid]
                exact (Bool.eq_false_iff.1 hd.link)))
            0 list hd.recipients
          simp only [htaken, hrow, hadded]
          split
          · rfl
          split
          · rfl
          split
          · rfl
          cases insertRecipients req.now req.linkDraw.recipientIds link.id 0 list _ with
          | error e => rfl
          | ok r => rfl

/-- A link a form asks for, on another case. -/
theorem linkFromForm_cut (h : Sealed c gone s d) (hd : Drawn P c gone req d) (hx : x ≠ c) :
    linkFromForm P cfg req dir x (cut c gone d) =
      (linkFromForm P cfg req dir x d).map fun r => (r.1, cut c gone r.2) := by
  unfold linkFromForm
  dsimp only
  cases expiryFromForm P req with
  | none => rfl
  | some expiresAt =>
      dsimp only
      cases recipientsFromForm P req dir with
      | error e => rfl
      | ok recipients =>
          dsimp only
          rw [createLink_cut h hd hx]
          cases createLink P cfg req.now req.linkDraw _ d with
          | error e => rfl
          | ok r => rfl

/-- The tables a link was made on. -/
theorem Sealed.createLink (h : Sealed c gone s d) (hd : Drawn P c gone req d)
    {input : CreateLinkInput} {r : Link × List LinkRecipient × String} (hx : input.caseId ≠ c)
    (hc : createLink P cfg req.now req.linkDraw input d = .ok (r, d')) : Sealed c gone s d' := by
  obtain ⟨⟨m, -, hlink⟩, -, -, -, rfl⟩ := createLink_ok hc
  refine (Sealed.newLink h ?_ ?_).of_tables rfl rfl
  · rw [hlink]
    exact hx
  · rw [hlink]
    exact hd.link

theorem postLink_cut (h : Sealed c gone s d) (hd : Drawn P c gone req d) (id : String) :
    postLink P cfg id req s dir (cut c gone d) =
      (postLink P cfg id req s dir d).into (cut c gone) := by
  refine withCase_cut h fun found hx => ?_
  split
  · exact page_cut h _ _ _
  rw [linkFromForm_cut h hd hx]
  cases hl : linkFromForm P cfg req dir found.id d with
  | error text => exact page_cut h _ _ _
  | ok r =>
      obtain ⟨⟨link, recipients, url⟩, d'⟩ := r
      obtain ⟨input, hin, hc⟩ := linkFromForm_ok hl
      exact page_cut (h.createLink hd (hin ▸ hx) hc) _ _ _

/-- The rotated links keep their cases. -/
theorem Sealed.rotateLinkToken (h : Sealed c gone s d) {token id : String} {url : Option String}
    (hr : rotateLinkToken P cfg token id d = .ok (url, d')) : Sealed c gone s d' := by
  rcases rotateLinkToken_ok hr with ⟨-, -, rfl⟩ | ⟨-, -, -, rfl⟩
  · exact h
  · exact h.updateLink (by exact fun _ => ⟨rfl, rfl⟩)

theorem postReissue_cut (h : Sealed c gone s d) (hd : Drawn P c gone req d) (id : String)
    (hread : Readable c id d) :
    postReissue P cfg id req s dir (cut c gone d) =
      (postReissue P cfg id req s dir d).into (cut c gone) := by
  refine withLink_cut h hread fun link hl hx => ?_
  rw [rotateLinkToken_cut h hl hx fun l hl hc => (hd.links l hl hc).2]
  cases hr : rotateLinkToken P cfg req.random.token link.id d with
  | error e => rfl
  | ok r =>
      obtain ⟨url, d'⟩ := r
      cases url with
      | none => rfl
      | some url =>
          rw [cutOk_ok]
          dsimp only
          rw [destroyAccessSessionsForLink_cut]
          exact page_cut ((h.rotateLinkToken hr).destroyAccessSessionsForLink _ _) _ _ _

/-- A link of another case stays. -/
theorem Sealed.keeps (h : Sealed c gone s d) {link : Link} (hl : getLink link.id d = some link)
    (hx : link.caseId ≠ c) : gone link.id = false :=
  h.stays (List.mem_of_find?_eq_some hl) rfl hx

theorem postRecipients_cut (h : Sealed c gone s d) (hd : Drawn P c gone req d) (id : String)
    (hread : Readable c id d) :
    postRecipients P id req s dir (cut c gone d) =
      (postRecipients P id req s dir d).into (cut c gone) := by
  refine withLink_cut h hread fun link hl hx => ?_
  have hid := h.keeps hl hx
  have hother : ∀ l ∈ d.links, l.id = link.id → l.caseId ≠ c := by
    intro l hmem hsame hc
    have hgone := (h.links l hmem).2 hc
    rw [hsame, hid] at hgone
    cases hgone
  dsimp only
  split
  · exact page_cut h _ _ _
  cases recipientsFromForm P req dir with
  | error e => exact page_cut h _ _ _
  | ok recipients =>
      dsimp only
      rw [addRecipients_cut hid hother recipients hd.recipients]
      cases ha : addRecipients P req.now req.random.ids link.id recipients d with
      | error e => exact page_cut h _ _ _
      | ok r =>
          obtain ⟨added, d'⟩ := r
          obtain ⟨rfl, -⟩ := addRecipients_ok ha
          refine page_cut ?_ _ _ _
          exact h.of_tables rfl rfl

theorem removeRecipient_cut {linkId rid : String} (hid : gone linkId = false) :
    removeRecipient linkId rid (cut c gone d) =
      ((removeRecipient linkId rid d).1, cut c gone (removeRecipient linkId rid d).2) := by
  have hfound : ((cut c gone d).linkRecipients.find? fun r => r.id == rid && r.linkId == linkId) =
      d.linkRecipients.find? fun r => r.id == rid && r.linkId == linkId := by
    refine Table.find?_delete fun r hr => ?_
    rw [Bool.and_eq_true, beq_iff_eq, beq_iff_eq] at hr
    rw [hr.2, hid]
  unfold removeRecipient
  rw [hfound, recipientCount_cut hid]
  cases d.linkRecipients.find? fun r => r.id == rid && r.linkId == linkId with
  | none => rfl
  | some row =>
      dsimp only
      split
      · rfl
      simp only [deleteRecipient, cut, Table.delete_delete (fun r : LinkRecipient => gone r.linkId),
        Table.delete_delete (fun x : Challenge => gone x.linkId),
        Table.delete_delete (fun a : AccessSessionRow => gone a.linkId)]

theorem postRecipientRemove_cut (h : Sealed c gone s d) (id rid : String)
    (hread : Readable c id d) :
    postRecipientRemove P id rid req s dir (cut c gone d) =
      (postRecipientRemove P id rid req s dir d).into (cut c gone) := by
  refine withLink_cut h hread fun link hl hx => ?_
  have hid := h.keeps hl hx
  dsimp only
  cases validId rid with
  | none => exact page_cut h _ _ _
  | some rid =>
      dsimp only
      rw [removeRecipient_cut hid]
      have hcases := removeRecipient_cases link.id rid d
      cases hr : removeRecipient link.id rid d with
      | mk res d' =>
          rw [hr] at hcases
          have h' : Sealed c gone s d' := by
            rcases hcases with ⟨-, hsame⟩ | ⟨row, -, -, -, -, hstate⟩
            · rw [show d' = d from hsame]
              exact h
            · exact h.of_tables (congrArg (·.caseMembers) hstate) (congrArg (·.links) hstate)
          cases res with
          | removed row => exact page_cut h' _ _ _
          | last => exact page_cut h' _ _ _
          | missing => exact page_cut h _ _ _

theorem postRevoke_cut (h : Sealed c gone s d) (id : String)
    (hread : Readable c id d) :
    postRevoke P id req s (cut c gone d) = (postRevoke P id req s d).into (cut c gone) := by
  refine withLink_cut h hread fun link hl hx => ?_
  dsimp only
  rw [revokeLink_cut h (h.keeps hl hx)]
  cases revokeLink req.now link.id d with
  | mk revoked d' =>
      cases revoked with
      | true =>
          dsimp only
          rw [destroyAccessSessionsForLink_cut]
          rfl
      | false => rfl

/-! ## Items -/

/-- The identifier of an item of another case. -/
theorem other_item (hids : (d.items.map (·.id)).Nodup) {item : ItemRow}
    (hi : getItem item.id d = some item) (hx : item.caseId ≠ c) :
    ∀ i ∈ d.items, i.caseId = c → i.id ≠ item.id := by
  intro i hmem hc hid
  exact hx (Table.eq_of_key hids hmem (List.mem_of_find?_eq_some hi) hid ▸ hc)

theorem markDeleted_cut {now : Int} {id : String}
    (hid : ∀ i ∈ d.items, i.caseId = c → i.id ≠ id) :
    markDeleted now id (cut c gone d) =
      ((markDeleted now id d).1, cut c gone (markDeleted now id d).2) := by
  refine updateItem_cut ?_ hid
  exact fun _ => rfl

theorem failUpload_cut {id : String} {status : ItemStatus}
    (hid : ∀ i ∈ d.items, i.caseId = c → i.id ≠ id) :
    failUpload id status (cut c gone d) =
      ((failUpload id status d).1, cut c gone (failUpload id status d).2) := by
  refine updateItem_cut ?_ hid
  exact fun _ => rfl

theorem completeUpload_cut {now : Int} {id : String} {size : Nat} {sha256 : Option String}
    (hid : ∀ i ∈ d.items, i.caseId = c → i.id ≠ id) :
    completeUpload now id size sha256 (cut c gone d) =
      ((completeUpload now id size sha256 d).1,
        cut c gone (completeUpload now id size sha256 d).2) := by
  refine updateItem_cut ?_ hid
  exact fun _ => rfl

/-- The item a path names is one of another case, with and without the case; or one of the case,
which is not found without it; or none. -/
theorem item_cases (c : String) (gone : String → Bool) (hids : (d.items.map (·.id)).Nodup)
    (id : String) :
    (∃ item, ((validId id).bind fun id => getItem id d) = some item ∧
        ((validId id).bind fun id => getItem id (cut c gone d)) = some item ∧
        getItem item.id d = some item ∧ item.caseId ≠ c) ∨
      (((validId id).bind fun id => getItem id (cut c gone d)) = none ∧
        ∀ item, ((validId id).bind fun id => getItem id d) = some item → item.caseId = c) := by
  cases validId id with
  | none => exact .inr ⟨rfl, by rintro item ⟨⟩⟩
  | some a =>
      dsimp only [Option.bind_some]
      rw [getItem_cut hids]
      cases hi : getItem a d with
      | none => exact .inr ⟨rfl, by rintro item ⟨⟩⟩
      | some item =>
          by_cases hc : item.caseId = c
          · refine .inr ⟨?_, fun x hx => Option.some.inj hx ▸ hc⟩
            rw [Option.filter_some, if_neg (by simp [hc])]
          · refine .inl ⟨item, rfl, ?_, by rw [getItem_id hi, hi], hc⟩
            rw [Option.filter_some, if_pos (by simpa using hc)]

theorem downloadItem_cut (h : Sealed c gone s d) (hids : (d.items.map (·.id)).Nodup)
    (id : String) :
    downloadItem P id req s (cut c gone d) = (downloadItem P id req s d).into (cut c gone) := by
  unfold downloadItem
  rcases item_cases c gone hids id with ⟨item, hi, hi', -, -⟩ | ⟨hi', hother⟩
  · rw [hi, hi']
    dsimp only
    rw [caseFor_cut h]
    split
    · rfl
    cases req.stored with
    | found => rfl
    | notFound => rfl
    | failed => rfl
  · rw [hi']
    cases hi : (validId id).bind fun id => getItem id d with
    | none => rfl
    | some item =>
        have hnone : (caseFor s item.caseId d).isNone = true := by
          rw [hother item hi, h.caseFor_none]
          rfl
        dsimp only
        rw [if_pos (.inr (.inr hnone))]
        rfl

theorem postItemDelete_cut (h : Sealed c gone s d) (hids : (d.items.map (·.id)).Nodup)
    (id : String) :
    postItemDelete P id req s (cut c gone d) = (postItemDelete P id req s d).into (cut c gone) := by
  unfold postItemDelete
  rcases item_cases c gone hids id with ⟨item, hi, hi', hget, hx⟩ | ⟨hi', hother⟩
  · rw [hi, hi']
    dsimp only
    rw [caseFor_cut h, markDeleted_cut (other_item hids hget hx),
      failUpload_cut (other_item hids hget hx)]
    split
    · rfl
    cases markDeleted req.now item.id d with
    | mk deleted d' =>
        cases deleted with
        | true =>
            dsimp only
            split <;> rfl
        | false =>
            dsimp only
            split <;> rfl
  · rw [hi']
    cases hi : (validId id).bind fun id => getItem id d with
    | none => rfl
    | some item =>
        have hnone : (caseFor s item.caseId d).isNone = true := by
          rw [hother item hi, h.caseFor_none]
          rfl
        dsimp only
        rw [if_pos hnone]
        rfl

/-! ## Case assignments -/

/-- An account is found with and without the case; only the number of its cases may differ. -/
theorem getUser_eq (id : String) (accounts : AccountDb) (d : DeliveryDb) :
    getUser id accounts d =
      ((accounts.admins.insertionSort userOrder).find? fun a => a.id == id).map
        (userSummary accounts d) := by
  rw [getUser, listUsers, List.find?_map]
  rfl

theorem postMember_cut (h : Sealed c gone s d) (id : String) :
    postMember P id req s dir (cut c gone d) = (postMember P id req s dir d).into (cut c gone) := by
  refine withCase_cut h fun found hx => ?_
  dsimp only
  cases validId (req.field "user_id") with
  | none => exact page_cut h _ _ _
  | some a =>
      dsimp only [Option.bind_some]
      rw [getUser_eq, getUser_eq]
      cases (dir.accounts.admins.insertionSort userOrder).find? fun r => r.id == a with
      | none => exact page_cut h _ _ _
      | some user =>
          dsimp only [Option.map_some, userSummary]
          split
          · exact page_cut h _ _ _
          · rw [addCaseMember_cut hx]
            exact page_cut (h.addCaseMember hx _) _ _ _

theorem postMemberRemove_cut (h : Sealed c gone s d) (id uid : String) :
    postMemberRemove P id uid req s dir (cut c gone d) =
      (postMemberRemove P id uid req s dir d).into (cut c gone) := by
  refine withCase_cut h fun found hx => ?_
  dsimp only
  cases validId uid with
  | none => exact page_cut h _ _ _
  | some a =>
      dsimp only [Option.bind_some]
      rw [getUser_eq, getUser_eq]
      cases (dir.accounts.admins.insertionSort userOrder).find? fun r => r.id == a with
      | none => exact page_cut h _ _ _
      | some user =>
          dsimp only [Option.map_some, userSummary]
          split
          · exact page_cut h _ _ _
          rw [removeCaseMember_cut hx]
          have h' : Sealed c gone s (removeCaseMember found.id user.id d).2 := h.removeCaseMember _
          cases hr : removeCaseMember found.id user.id d with
          | mk removed d' =>
              rw [hr] at h'
              cases removed with
              | false => exact page_cut h _ _ _
              | true => exact page_cut h' _ _ _

/-! ## Uploads -/

/-- The identifier of an item a request has just made. -/
theorem other_new {item : ItemRow} {items : List ItemRow} (hx : item.caseId ≠ c)
    (hfree : ∀ i ∈ items, i.id ≠ item.id) :
    ∀ i ∈ items ++ [item], i.caseId = c → i.id ≠ item.id := by
  intro i hi hc
  rcases List.mem_append.1 hi with hi | hi
  · exact hfree i hi
  · rw [List.mem_singleton.1 hi] at hc
    exact absurd hc hx

theorem directUpload_cut (h : Sealed c gone s d) (hd : Drawn P c gone req d) (caseId name : String)
    (declared : Option Nat) (put : PutAnswer) :
    directUpload P cfg caseId name declared put req s (cut c gone d) =
      (directUpload P cfg caseId name declared put req s d).into (cut c gone) := by
  have hfound : ((validId caseId).bind fun id => caseFor s id (cut c gone d)) =
      (validId caseId).bind fun id => caseFor s id d :=
    Option.bind_congr fun a _ => caseFor_cut h a
  unfold directUpload
  rw [hfound]
  cases hc : (validId caseId).bind fun id => caseFor s id d with
  | none => rfl
  | some found =>
      obtain ⟨a, -, hc⟩ := Option.bind_eq_some_iff.1 hc
      have hx : found.id ≠ c := (caseFor_some hc).2.1 ▸ h.ne_of_caseFor hc
      dsimp only
      split
      · rfl
      rw [startUpload_cut]
      · cases hs : startUpload P cfg req.now ⟨newId "f" req.random.id, found.id,
            sanitizeFilename P (safeDecode P name), .direct, declared, some s.admin.id⟩ d with
        | error e =>
            rw [cutOk_error]
            cases e <;> rfl
        | ok r =>
            obtain ⟨⟨item, maxBytes⟩, d'⟩ := r
            obtain ⟨hid, hcase, -, hd'⟩ := startUpload_ok hs
            obtain ⟨hfree, -⟩ := startUpload_row hs
            have hother : ∀ i ∈ d'.items, i.caseId = c → i.id ≠ item.id := by
              rw [hd']
              exact other_new (by rw [hcase]; exact hx) hfree
            rw [cutOk_ok]
            dsimp only
            rw [failUpload_cut hother]
            cases put.checked declared with
            | stored size sha256 =>
                dsimp only
                rw [completeUpload_cut hother]
                rfl
            | tooLarge => rfl
            | failed reason => rfl
      · exact hx
      · exact fun i hi hic => (hd.items i hi hic).2

/-- An identifier no item of the case has is looked up as before. -/
theorem getItem_other {id : String} (hid : ∀ i ∈ d.items, i.caseId = c → i.id ≠ id) :
    getItem id (cut c gone d) = getItem id d := by
  rw [getItem, getItem, ← List.head?_filter, ← List.head?_filter]
  refine congrArg _ (Table.filter_delete fun i hi hsame => ?_)
  by_contra hc
  exact hid i hi (by simpa using hc) (by simpa using hsame)

/-- An upload of the case is one that does not exist. -/
theorem onIncomingRequest_cut (h : Sealed c gone s d) (hids : (d.items.map (·.id)).Nodup)
    (uploadId : String) :
    onIncomingRequest uploadId s (cut c gone d) = onIncomingRequest uploadId s d := by
  unfold onIncomingRequest
  rw [getItem_cut hids]
  cases hi : getItem uploadId d with
  | none => rfl
  | some item =>
      by_cases hc : item.caseId = c
      · rw [Option.filter_some, if_neg (by simp [hc])]
        dsimp only
        rw [hc, h.noAccess]
        rfl
      · rw [Option.filter_some, if_pos (by simpa using hc)]
        dsimp only
        rw [canAccessCase_cut hc]

/-- An upload the first hook lets through is of another case. -/
theorem other_incoming (h : Sealed c gone s d) (hids : (d.items.map (·.id)).Nodup)
    {uploadId : String} (hin : onIncomingRequest uploadId s d = none) :
    ∀ i ∈ d.items, i.caseId = c → i.id ≠ uploadId := by
  obtain ⟨item, hget, rfl, hacc⟩ := onIncomingRequest_none hin
  exact other_item hids hget (h.ne_of_access hacc)

theorem onUploadFinish_cut {uploadId : String} (upload : TusUpload)
    (hid : ∀ i ∈ d.items, i.caseId = c → i.id ≠ uploadId) :
    onUploadFinish uploadId upload req s (cut c gone d) =
      (onUploadFinish uploadId upload req s d).into (cut c gone) := by
  unfold onUploadFinish
  cases upload.size with
  | none => rfl
  | some size =>
      dsimp only
      split
      · rfl
      · rw [completeUpload_cut hid, getItem_other hid]
        rfl

theorem onUploadCreate_cut (h : Sealed c gone s d) (hd : Drawn P c gone req d) (upload : TusUpload)
    (finished : Bool) :
    onUploadCreate P cfg upload finished req s (cut c gone d) =
      (onUploadCreate P cfg upload finished req s d).into (cut c gone) := by
  unfold onUploadCreate
  cases upload.size with
  | none => rfl
  | some size =>
      dsimp only
      cases validId upload.caseId with
      | none => rfl
      | some caseId =>
          dsimp only
          rw [caseFor_cut h]
          cases hc : caseFor s caseId d with
          | none => rfl
          | some found =>
              have hx : found.id ≠ c := (caseFor_some hc).2.1 ▸ h.ne_of_caseFor hc
              dsimp only
              split
              · rfl
              rw [startUpload_cut]
              · cases hs : startUpload P cfg req.now ⟨newId "f" req.random.id, found.id,
                    upload.filename.getD "unnamed", .tus, some size, some s.admin.id⟩ d with
                | error e =>
                    rw [cutOk_error]
                    cases e <;> rfl
                | ok r =>
                    obtain ⟨⟨item, maxBytes⟩, d'⟩ := r
                    obtain ⟨hid, hcase, -, hd'⟩ := startUpload_ok hs
                    obtain ⟨hfree, -⟩ := startUpload_row hs
                    have hother : ∀ i ∈ d'.items, i.caseId = c →
                        i.id ≠ newId "f" req.random.id := by
                      rw [hd', show newId "f" req.random.id = item.id from hid.symm]
                      exact other_new (by rw [hcase]; exact hx) hfree
                    rw [cutOk_ok]
                    dsimp only
                    split
                    · rw [onUploadFinish_cut upload hother]
                      rfl
                    · rfl
              · exact hx
              · exact fun i hi hic => (hd.items i hi hic).2

theorem postTerminate_cut {uploadId : String}
    (hid : ∀ i ∈ d.items, i.caseId = c → i.id ≠ uploadId) :
    postTerminate uploadId (cut c gone d) = (postTerminate uploadId d).into (cut c gone) := by
  unfold postTerminate
  rw [getItem_other hid]
  cases getItem uploadId d with
  | none => rfl
  | some item =>
      dsimp only
      rw [failUpload_cut hid]
      rfl

theorem tusHandler_cut (h : Sealed c gone s d) (hids : (d.items.map (·.id)).Nodup)
    (hd : Drawn P c gone req d) (uploadId : String) (request : TusRequest) :
    tusHandler P cfg uploadId request req s (cut c gone d) =
      (tusHandler P cfg uploadId request req s d).into (cut c gone) := by
  unfold tusHandler
  rw [onIncomingRequest_cut h hids]
  -- a request for an upload that exists runs once the first hook has let it through
  cases hin : onIncomingRequest uploadId s d with
  | some response =>
      cases request with
      | get => rfl
      | options => rfl
      | head => rfl
      | post upload finished =>
          cases upload with
          | none => rfl
          | some upload => exact onUploadCreate_cut h hd upload finished
      | patch finished => cases finished <;> rfl
      | delete terminated => cases terminated <;> rfl
  | none =>
      have hother := other_incoming h hids hin
      cases request with
      | get => rfl
      | options => rfl
      | head => rfl
      | post upload finished =>
          cases upload with
          | none => rfl
          | some upload => exact onUploadCreate_cut h hd upload finished
      | patch finished =>
          cases finished with
          | none => rfl
          | some upload => exact onUploadFinish_cut upload hother
      | delete terminated =>
          cases terminated with
          | false => rfl
          | true => exact postTerminate_cut hother

/-! ## Every route -/

theorem showCase_cut (h : Sealed c gone s d) (id : String) :
    showCase P id req s dir (cut c gone d) = showCase P id req s dir d := by
  unfold showCase
  cases validId id with
  | none => rfl
  | some id => exact renderCase_cut h req id {} 200

theorem refuse_cut {r r' : Response PanelPage} (hr : r' = r) :
    refuse (cut c gone d) r' = (refuse d r).into (cut c gone) := by
  rw [hr]
  rfl

/-- A route answers the same without the case, and does the same to the rest. -/
theorem handle_cut (route : WorkRoute) (h : Sealed c gone s d) (hids : (d.items.map (·.id)).Nodup)
    (hd : Drawn P c gone req d)
    (hread : ∀ link, Names c (.work route) d link → link.isReadable = true) :
    route.handle P cfg req s dir (cut c gone d) =
      (route.handle P cfg req s dir d).into (cut c gone) := by
  cases route with
  | cases =>
      have hpage : casesPage P req s none 200 (cut c gone d) = casesPage P req s none 200 d := by
        rw [casesPage, casesPage, listCases_cut h]
      simpa only [WorkRoute.handle] using refuse_cut hpage
  | createCase => simpa only [WorkRoute.handle] using postCase_cut h hd
  | case id =>
      simpa only [WorkRoute.handle] using refuse_cut (showCase_cut h id)
  | updateCase id => simpa only [WorkRoute.handle] using postCaseUpdate_cut h id
  | caseStatus id => simpa only [WorkRoute.handle] using postCaseStatus_cut h id
  | note id => simpa only [WorkRoute.handle] using postNote_cut h hd id
  | createLink id => simpa only [WorkRoute.handle] using postLink_cut h hd id
  | reissue id =>
      simpa only [WorkRoute.handle] using
        postReissue_cut h hd id fun link hl hc => hread link ⟨id, rfl, hl, hc⟩
  | addRecipients id =>
      simpa only [WorkRoute.handle] using
        postRecipients_cut h hd id fun link hl hc => hread link ⟨id, rfl, hl, hc⟩
  | removeRecipient id rid =>
      simpa only [WorkRoute.handle] using
        postRecipientRemove_cut h id rid fun link hl hc => hread link ⟨id, rfl, hl, hc⟩
  | revoke id =>
      simpa only [WorkRoute.handle] using
        postRevoke_cut h id fun link hl hc => hread link ⟨id, rfl, hl, hc⟩
  | download id => simpa only [WorkRoute.handle] using downloadItem_cut h hids id
  | deleteItem id => simpa only [WorkRoute.handle] using postItemDelete_cut h hids id
  | addMember id => simpa only [WorkRoute.handle] using postMember_cut h id
  | removeMember id uid =>
      simpa only [WorkRoute.handle] using postMemberRemove_cut h id uid
  | upload caseId name declared put =>
      simpa only [WorkRoute.handle] using directUpload_cut h hd caseId name declared put
  | tus uploadId request =>
      simpa only [WorkRoute.handle] using tusHandler_cut h hids hd uploadId request

/-! ## The rows of the case -/

theorem inCase_congr (hl : d'.links.filter (fun l => l.caseId == c) =
    d.links.filter fun l => l.caseId == c) (k : String) : inCase c k d' = inCase c k d := by
  have hany : ∀ t : List Link, (t.any fun l => l.id == k && l.caseId == c) =
      (t.filter fun l => l.caseId == c).any fun l => l.id == k := by
    intro t
    rw [List.any_filter]
    exact congrArg t.any (funext fun l => Bool.and_comm ..)
  rw [inCase, inCase, hany, hany, hl]

/-- The rows of a case are the same in two databases. -/
theorem rowsOf_eq
    (hcases : d'.cases.filter (fun x => x.id == c) = d.cases.filter fun x => x.id == c)
    (hmembers : d'.caseMembers.filter (fun m => m.caseId == c) =
      d.caseMembers.filter fun m => m.caseId == c)
    (hitems : d'.items.filter (fun i => i.caseId == c) = d.items.filter fun i => i.caseId == c)
    (hlinks : d'.links.filter (fun l => l.caseId == c) = d.links.filter fun l => l.caseId == c)
    (hpeople : d'.linkRecipients.filter (fun r => inCase c r.linkId d) =
      d.linkRecipients.filter fun r => inCase c r.linkId d) :
    rowsOf c d' = rowsOf c d := by
  simp only [rowsOf, hcases, hmembers, hitems, hlinks, inCase_congr hlinks, hpeople]

/-- A row of another case is added. -/
theorem filter_append_other {α : Type} {q : α → Bool} {r : α} (h : q r = false) (t : List α) :
    (t ++ [r]).filter q = t.filter q := by
  rw [List.filter_append, List.filter_cons, if_neg (by simp [h]), List.filter_nil, List.append_nil]

/-- Rows of other cases are changed. -/
theorem filter_update_other {α : Type} {p q : α → Bool} {f : α → α} {t : List α}
    (hf : ∀ r, q (f r) = q r) (h : ∀ r ∈ t, q r = true → p r = false) :
    (Table.update p f t).filter q = t.filter q := by
  rw [Table.filter_update hf]
  refine Table.update_eq_self fun r hr hp => ?_
  rw [List.mem_filter] at hr
  rw [h r hr.1 hr.2] at hp
  cases hp

theorem rowsOf_addCaseMember (now : Int) (hx : x ≠ c) (id : String) :
    rowsOf c (addCaseMember now x id d).2 = rowsOf c d := by
  unfold addCaseMember
  split
  · rfl
  · exact rowsOf_eq rfl (filter_append_other (by simpa using hx) _) rfl rfl rfl

theorem rowsOf_updateCase {input : CaseUpdate} {now : Int} {r : Option Case} (hx : x ≠ c)
    (hu : updateCase now x input d = .ok (r, d')) : rowsOf c d' = rowsOf c d := by
  rcases updateCase_ok hu with ⟨-, rfl⟩ | ⟨_, _, _, -, -, rfl⟩
  · rfl
  · refine rowsOf_eq (filter_update_other ?_ ?_) rfl rfl rfl rfl
    · exact fun _ => rfl
    · intro r _ hr
      rw [beq_iff_eq.1 hr]
      simpa using Ne.symm hx

theorem rowsOf_updateLink {id : String} {p : Link → Bool} {f : Link → Link}
    (hf : ∀ l, (f l).caseId = l.caseId) (hid : ∀ l ∈ d.links, l.caseId = c → l.id ≠ id) :
    rowsOf c (updateLink id p f d) = rowsOf c d := by
  refine rowsOf_eq rfl rfl rfl (filter_update_other (fun l => by rw [hf]) fun l hl hc => ?_) rfl
  have hne := hid l hl (by simpa using hc)
  simp [hne]

theorem rowsOf_itemChange {id : String} (hid : ∀ i ∈ d.items, i.caseId = c → i.id ≠ id)
    (h : ItemChange id d d') : rowsOf c d' = rowsOf c d := by
  obtain ⟨p, f, hf, rfl⟩ := h
  refine rowsOf_eq rfl rfl (filter_update_other (fun i => ?_) fun i hi hc => ?_) rfl rfl
  · rw [(hf i).2]
  · have hne := hid i hi (by simpa using hc)
    simp [hne]

/-- People are added to a link of another case. -/
theorem rowsOf_people {id : String} {added : List LinkRecipient} (hid : inCase c id d = false)
    (h : ∀ r ∈ added, r.linkId = id) :
    rowsOf c { d with linkRecipients := d.linkRecipients ++ added } = rowsOf c d := by
  refine rowsOf_eq rfl rfl rfl rfl ?_
  have hnone : added.filter (fun r => inCase c r.linkId d) = [] := by
    rw [List.filter_eq_nil_iff]
    intro r hr
    simp [h r hr, hid]
  rw [List.filter_append, hnone, List.append_nil]

/-- A link of another case is not one of the case. -/
theorem inCase_false (hkeys : (d.links.map (·.id)).Nodup) {link : Link}
    (hl : getLink link.id d = some link) (hx : link.caseId ≠ c) : inCase c link.id d = false := by
  rw [inCase, List.any_eq_false]
  intro l hmem hl'
  rw [Bool.and_eq_true, beq_iff_eq, beq_iff_eq] at hl'
  exact hx (Table.eq_of_key hkeys hmem (List.mem_of_find?_eq_some hl) hl'.1 ▸ hl'.2)

/-- The links of the case have other identifiers than a link of another one. -/
theorem other_link (hkeys : (d.links.map (·.id)).Nodup) {link : Link}
    (hl : getLink link.id d = some link) (hx : link.caseId ≠ c) :
    ∀ l ∈ d.links, l.caseId = c → l.id ≠ link.id := by
  intro l hmem hc hid
  exact hx (Table.eq_of_key hkeys hmem (List.mem_of_find?_eq_some hl) hid ▸ hc)

/-- A link that is not the case's. -/
theorem ne_of_link (h : Sealed c gone s d) {link : Link}
    (hc : (caseFor s link.caseId d).isSome = true) : link.caseId ≠ c :=
  h.ne_of_access (canAccess_of_caseFor hc)

/-- No route changes a row of the case. -/
theorem work_untouched {route : WorkRoute} (h : Sealed c gone s d) (hk : Keyed d)
    (hd : Drawn P c gone req d) (he : WorkEffect P cfg req s dir d route d') :
    rowsOf c d' = rowsOf c d := by
  cases he with
  | idle => rfl
  | newCase hc =>
      obtain ⟨hid, -, rfl⟩ := createCase_ok hc
      have hx := hid ▸ hd.case
      rw [h.role, if_neg (by simp), rowsOf_addCaseMember _ hx]
      exact rowsOf_eq (filter_append_other (by simpa using hx) _) rfl rfl rfl rfl
  | describe hc hu => exact rowsOf_updateCase (h.ne_of_caseFor hc) hu
  | status hc hu =>
      have hrows := rowsOf_updateCase (h.ne_of_caseFor hc) hu
      split
      · exact hrows
      · exact hrows
  | note hc hn =>
      obtain ⟨hcase, -, rfl⟩ := createNote_ok hn
      have hx := h.ne_of_caseFor hc
      exact rowsOf_eq rfl rfl (filter_append_other (by simpa [hcase] using hx) _) rfl rfl
  | @newLink _ found input r _ hc hin hl =>
      have hx := h.ne_of_caseFor hc
      obtain ⟨⟨m, -, hlink⟩, -, -, hadded, rfl⟩ := createLink_ok hl
      have hlinks : (d.links ++ [r.1]).filter (fun l => l.caseId == c) =
          d.links.filter fun l => l.caseId == c := by
        refine filter_append_other ?_ _
        rw [hlink]
        simpa [newLink, hin] using hx
      refine rowsOf_eq rfl rfl rfl hlinks ?_
      have hnone : r.2.1.filter (fun p => inCase c p.linkId d) = [] := by
        rw [List.filter_eq_nil_iff]
        intro p hp
        have hlinkId : p.linkId = newId "l" req.random.id := by
          rw [(hadded p hp).linkId_eq, hlink]
          rfl
        rw [hlinkId, inCase, List.any_eq_true]
        rintro ⟨l, hl, hsame⟩
        rw [Bool.and_eq_true, beq_iff_eq, beq_iff_eq] at hsame
        exact (hd.links l hl hsame.2).1 hsame.1
      rw [List.filter_append, hnone, List.append_nil]
  | @reissue _ link _ _ hl hc hr =>
      have hother := other_link hk.links hl (ne_of_link h hc)
      rcases rotateLinkToken_ok hr with ⟨-, -, rfl⟩ | ⟨-, -, -, rfl⟩
      · exact rowsOf_eq rfl rfl rfl rfl rfl
      · refine (rowsOf_eq rfl rfl rfl rfl rfl).trans (rowsOf_updateLink ?_ hother)
        exact fun _ => rfl
  | people hl hc ha =>
      obtain ⟨rfl, hadded⟩ := addRecipients_ok ha
      have hid := inCase_false hk.links hl (ne_of_link h hc)
      exact rowsOf_people hid fun r hr => (hadded r hr).linkId_eq
  | @removePerson _ _ link row hl hc hrow hlink =>
      refine rowsOf_eq rfl rfl rfl rfl (Table.filter_delete fun r hr hin => ?_)
      by_contra hid
      have hsame := Table.eq_of_key hk.linkRecipients hr hrow (by simpa using hid)
      rw [hsame, hlink, inCase_false hk.links hl (ne_of_link h hc)] at hin
      cases hin
  | revoke hl hc =>
      refine (rowsOf_eq rfl rfl rfl rfl rfl).trans
        (rowsOf_updateLink ?_ (other_link hk.links hl (ne_of_link h hc)))
      exact fun _ => rfl
  | item hi hacc hchange =>
      exact rowsOf_itemChange (other_item hk.items hi (h.ne_of_access hacc)) hchange
  | assign hc => exact rowsOf_addCaseMember _ (h.ne_of_caseFor hc) _
  | unassign hc =>
      refine rowsOf_eq rfl (Table.filter_delete fun m _ hm => ?_) rfl rfl rfl
      rw [beq_iff_eq.1 hm]
      have hx := h.ne_of_caseFor hc
      simp [hx.symm]
  | upload hc hcase hid hs hchange =>
      have hx := h.ne_of_caseFor hc
      obtain ⟨hrid, hrcase, -, rfl⟩ := startUpload_ok hs
      obtain ⟨hfree, -⟩ := startUpload_row hs
      have hrx := (hrcase.trans hcase) ▸ hx
      have hstart := @rowsOf_eq c d { d with items := d.items ++ [_] } rfl rfl
        (filter_append_other (by simpa using hrx) _) rfl rfl
      rcases hchange with rfl | hchange
      · exact hstart
      · refine (rowsOf_itemChange ?_ hchange).trans hstart
        rw [← hrid]
        exact other_new hrx hfree

/-! ## What is open on its links -/

/-- What is open on the links of a case is the same in two databases. -/
theorem accessOf_eq
    (hlinks : d'.links.filter (fun l => l.caseId == c) = d.links.filter fun l => l.caseId == c)
    (hcodes : d'.challenges.filter (fun x => inCase c x.linkId d) =
      d.challenges.filter fun x => inCase c x.linkId d)
    (hvisits : d'.accessSessions.filter (fun a => inCase c a.linkId d) =
      d.accessSessions.filter fun a => inCase c a.linkId d) :
    accessOf c d' = accessOf c d := by
  simp only [accessOf, hcodes, hvisits, inCase_congr hlinks]

/-- What is open on a link of another case ends. -/
theorem accessOf_ended {now : Int} {id : String} (hid : inCase c id d = false)
    (hlinks : d'.links.filter (fun l => l.caseId == c) = d.links.filter fun l => l.caseId == c)
    (hcodes : d'.challenges = d.challenges) (hvisits : d'.accessSessions = d.accessSessions) :
    accessOf c (destroyAccessSessionsForLink now id d') = accessOf c d := by
  refine accessOf_eq hlinks ?_ ?_
  · refine (filter_update_other (by exact fun _ => rfl) fun x _ hx => ?_).trans (by rw [← hcodes]; rfl)
    have hne : (x.linkId == id) = false := beq_eq_false_iff_ne.2 fun h => by
      rw [h, hid] at hx
      cases hx
    dsimp only
    rw [hne, Bool.false_and]
  · refine (Table.filter_delete fun a _ ha => ?_).trans (by rw [hvisits])
    exact beq_eq_false_iff_ne.2 fun h => by
      rw [h, hid] at ha
      cases ha

/-- No route ends what is open on the links of the case. -/
theorem work_keeps_access {route : WorkRoute} (h : Sealed c gone s d)
    (hk : Integrity.DeliveryKeys d) (hd : Drawn P c gone req d)
    (he : WorkEffect P cfg req s dir d route d') : accessOf c d' = accessOf c d := by
  cases he with
  | idle => rfl
  | newCase hc =>
      obtain ⟨-, -, rfl⟩ := createCase_ok hc
      split
      · rfl
      · unfold addCaseMember
        split <;> rfl
  | describe hc hu => rcases updateCase_ok hu with ⟨-, rfl⟩ | ⟨_, _, _, -, -, rfl⟩ <;> rfl
  | @status found _ _ hc hu =>
      have hx := h.ne_of_caseFor hc
      rcases updateCase_ok hu with ⟨hnone, -⟩ | ⟨_, _, _, -, -, rfl⟩
      · cases hnone
      split
      · refine accessOf_eq rfl rfl (Table.filter_delete fun a _ ha => ?_)
        obtain ⟨l, hl, hin⟩ := List.any_eq_true.1 ha
        rw [Bool.and_eq_true, beq_iff_eq, beq_iff_eq] at hin
        refine List.any_eq_false.2 fun l' hl' hsame => ?_
        rw [Bool.and_eq_true, beq_iff_eq, beq_iff_eq] at hsame
        have heq := Table.eq_of_key hk.links hl hl' (hin.1.trans hsame.1.symm)
        exact hx (hsame.2.symm.trans (heq ▸ hin.2))
      · rfl
  | note hc hn =>
      obtain ⟨-, -, rfl⟩ := createNote_ok hn
      rfl
  | @newLink _ found input r _ hc hin hl =>
      have hx := h.ne_of_caseFor hc
      obtain ⟨⟨m, -, hlink⟩, -, -, -, rfl⟩ := createLink_ok hl
      refine accessOf_eq (filter_append_other ?_ _) rfl rfl
      rw [hlink]
      simpa [newLink, hin] using hx
  | @reissue _ link _ _ hl hc hr =>
      have hx := ne_of_link h hc
      rcases rotateLinkToken_ok hr with ⟨hnone, -, -⟩ | ⟨-, -, -, rfl⟩
      · cases hnone
      refine accessOf_ended (inCase_false hk.links hl hx) ?_ rfl rfl
      refine filter_update_other (by exact fun _ => rfl) fun l hl' hcase => ?_
      have hne := other_link hk.links hl hx l hl' (by simpa using hcase)
      simp [hne]
  | people hl hc ha =>
      obtain ⟨rfl, -⟩ := addRecipients_ok ha
      rfl
  | @removePerson _ _ link row hl hc hrow hlink =>
      have hout : inCase c row.linkId d = false := hlink ▸ inCase_false hk.links hl (ne_of_link h hc)
      -- the person of a code or of a visit is on its link
      have hother : ∀ {k : String} {recipient : Option String}, inCase c k d = true →
          (∀ x, recipient.map (fun i => (i, k)) = some x →
            ∃ p ∈ d.linkRecipients, (p.id, p.linkId) = x) →
          (recipient == some row.id) = false := by
        intro k recipient hk' hperson
        refine beq_eq_false_iff_ne.2 ?_
        rintro rfl
        obtain ⟨p, hp, hsame⟩ := hperson _ rfl
        obtain ⟨hid, hon⟩ := Prod.mk.inj hsame
        rw [← hon, Table.eq_of_key hk.people hp hrow hid, hout] at hk'
        cases hk'
      refine accessOf_eq rfl (Table.filter_delete fun x hx hin => ?_)
        (Table.filter_delete fun a ha hin => ?_)
      · exact hother hin fun y hy => hk.codePeople x hx y hy
      · exact hother hin fun y hy => hk.accessPeople a ha y hy
  | @revoke _ link hl hc =>
      have hx := ne_of_link h hc
      refine accessOf_ended (inCase_false hk.links hl hx) ?_ rfl rfl
      refine filter_update_other (by exact fun _ => rfl) fun l hl' hcase => ?_
      have hne := other_link hk.links hl hx l hl' (by simpa using hcase)
      simp [hne]
  | item hi hacc hchange =>
      obtain ⟨p, f, -, rfl⟩ := hchange
      rfl
  | assign hc =>
      unfold addCaseMember
      split <;> rfl
  | unassign hc => rfl
  | upload hc hcase hid hs hchange =>
      obtain ⟨-, -, -, rfl⟩ := startUpload_ok hs
      rcases hchange with rfl | ⟨p, f, -, rfl⟩ <;> rfl

/-! ## A request of the panel -/

variable {r : PanelRequest} {sv : Server}

/-- The place to go back to is the same without the case, when it is no link of it. -/
theorem back_cut (h : Sealed c gone s d)
    (hn : BackToLink r.route → ∀ link, ¬ Names c r.route d link) :
    r.route.back r.toRequest (cut c gone d) = r.route.back r.toRequest d ∧
      r.route.backThrows (cut c gone d) = r.route.backThrows d := by
  have hlink : ∀ id, (r.route = .work (.reissue id) ∨ r.route = .work (.addRecipients id)) →
      ((validId id).bind fun id => getLink id (cut c gone d)) =
        (validId id).bind fun id => getLink id d := by
    intro id hroute
    cases hv : validId id with
    | none => rfl
    | some a =>
        dsimp only [Option.bind_some]
        rw [getLink_cut h]
        cases hl : getLink a d with
        | none => rfl
        | some link =>
            have hpath : linkPath r.route = some id := by
              rcases hroute with hroute | hroute <;> rw [hroute] <;> rfl
            have hx : link.caseId ≠ c := fun hc =>
              hn ⟨id, hroute⟩ link ⟨id, hpath, by rw [hv, Option.bind_some, hl], hc⟩
            rw [Option.filter_some, if_pos (by simpa using hx)]
  cases hroute : r.route with
  | work route =>
      cases route with
      | reissue id =>
          have hsame := hlink id (.inl hroute)
          simp only [PanelRoute.back, WorkRoute.back, PanelRoute.backThrows, WorkRoute.backThrows,
            backToLinkCase, hsame, and_self]
      | addRecipients id =>
          have hsame := hlink id (.inr hroute)
          simp only [PanelRoute.back, WorkRoute.back, PanelRoute.backThrows, WorkRoute.backThrows,
            backToLinkCase, hsame, and_self]
      | _ => exact ⟨rfl, rfl⟩
  | _ => exact ⟨rfl, rfl⟩

/-- The guards answer the same, when they do not send the request back to the case. -/
theorem refusal_cut (h : Sealed c gone s d)
    (hn : missingStep cfg s = none → ∀ link, Names c r.route d link → BackToLink r.route →
      s.session.isConfirmed r.now = true) :
    refusal P cfg r s (cut c gone d) = refusal P cfg r s d := by
  by_cases hnames : BackToLink r.route ∧ ∃ link, Names c r.route d link
  · obtain ⟨⟨id, hroute⟩, link, hlink⟩ := hnames
    have hinside : r.route.isInside = true := by
      rcases hroute with hroute | hroute <;> rw [hroute] <;> rfl
    cases hmissing : missingStep cfg s with
    | some step =>
        have hready : ∃ response, readyRefusal cfg r s = some response := by
          unfold readyRefusal
          rw [hinside, hmissing]
          exact ⟨_, rfl⟩
        obtain ⟨response, hready⟩ := hready
        simp only [refusal, hready, Option.some_or]
    | none =>
        have hconfirmed := hn hmissing link hlink ⟨id, hroute⟩
        have hconfirm : ∀ d, confirmRefusal r s d = none := by
          intro d
          unfold confirmRefusal
          cases r.route.back r.toRequest d with
          | none => rfl
          | some target => exact if_pos hconfirmed
        simp only [refusal, hconfirm]
  · have hother : BackToLink r.route → ∀ link, ¬ Names c r.route d link :=
      fun hback link hlink => hnames ⟨hback, link, hlink⟩
    simp only [refusal, confirmRefusal, back_cut h hother]

/-- Behind the gate there is no step left to take. -/
theorem ready_of_refusal {d : DeliveryDb} (hr : refusal P cfg r s d = none)
    (hinside : r.route.isInside = true) : missingStep cfg s = none := by
  have hready := (Option.or_eq_none_iff.1 (Option.or_eq_none_iff.1 hr).2).1
  unfold readyRefusal at hready
  rw [hinside] at hready
  exact Option.map_eq_none_iff.1 hready

/-- A route an administrator alone may call refuses a user. -/
theorem not_adminsOnly (hrole : s.admin.role = .user) {d : DeliveryDb}
    (hr : refusal P cfg r s d = none) : r.route.adminsOnly = false := by
  have hadmins : adminsRefusal P r s = none := by
    simp only [refusal, Option.or_eq_none_iff] at hr
    exact hr.2.2.1
  cases honly : r.route.adminsOnly with
  | false => rfl
  | true =>
      unfold adminsRefusal at hadmins
      rw [honly, hrole] at hadmins
      cases hadmins

theorem servePanel_cut (h : Sealed c gone s sv.deliveries)
    (hids : (sv.deliveries.items.map (·.id)).Nodup)
    (hd : Drawn P c gone r.toRequest sv.deliveries)
    (hn : missingStep cfg s = none → ∀ link, Names c r.route sv.deliveries link →
      link.isReadable = true ∧ (BackToLink r.route → s.session.isConfirmed r.now = true)) :
    servePanel P cfg r s (aside c gone sv) = (servePanel P cfg r s sv).into (aside c gone) := by
  unfold servePanel
  rw [aside, refusal_cut h fun hmissing link hlink => (hn hmissing link hlink).2]
  cases hr : refusal P cfg r s sv.deliveries with
  | some response => rfl
  | none =>
      have honly := not_adminsOnly h.role hr
      dsimp only
      cases hroute : r.route with
      | pending route => rfl
      | settings route => rfl
      | groups route => rfl
      | work route =>
          have hmissing := ready_of_refusal hr (by rw [hroute]; rfl)
          simp only [PanelRoute.handle, Server.directory]
          rw [handle_cut route h hids hd fun link hlink =>
            (hn hmissing link (hroute ▸ hlink)).1]
          rfl
      | users route =>
          rw [hroute] at honly
          cases honly
      | audit =>
          rw [hroute] at honly
          cases honly

/-- A request that does not leak the case answers and does the same without it. -/
theorem panel_cut (h : Sealed c gone s sv.deliveries)
    (hs : (sessionMiddleware P r.toRequest sv.accounts).1 = some s)
    (hids : (sv.deliveries.items.map (·.id)).Nodup)
    (hd : Drawn P c gone r.toRequest sv.deliveries)
    (hn : ¬ Leaks P cfg c r s sv.deliveries) :
    panel P cfg r (aside c gone sv) = (panel P cfg r sv).into (aside c gone) := by
  unfold panel
  cases hmid : sessionMiddleware P r.toRequest sv.accounts with
  | mk signed accounts =>
      rw [hmid] at hs
      obtain rfl : signed = some s := hs
      rw [aside, hmid]
      dsimp only
      cases hguard : (csrfRefusal P cfg r.toRequest r.route.method r.route.isApi s).or
          (completeRefusal r s) with
      | some response =>
          simp only [requireAdmin, hguard]
          rfl
      | none =>
          have hsafe : missingStep cfg s = none → ∀ link, Names c r.route sv.deliveries link →
              link.isReadable = true ∧
                (BackToLink r.route → s.session.isConfirmed r.now = true) := by
            intro hmissing link hlink
            have hkind := linkPath_kind hlink.choose_spec.1
            have hcsrf := (Option.or_eq_none_iff.1 hguard).1
            rw [hkind.1, hkind.2.1] at hcsrf
            have hnot : ¬ (link.isReadable = false ∨
                BackToLink r.route ∧ s.session.isConfirmed r.now = false) :=
              fun h => hn ⟨hcsrf, hmissing, link, hlink, h⟩
            rw [not_or, not_and, Bool.not_eq_false, Bool.not_eq_false] at hnot
            exact hnot
          simp only [requireAdmin, hguard]
          have hserve := @servePanel_cut P cfg c gone s r { sv with
            accounts := (offerMiddleware P cfg r s accounts).2 } h hids hd hsafe
          rw [aside] at hserve
          rw [hserve]
          rfl

/-- A request to a link that passes the guards in front is answered by `requireConfirmed` or the
handler. -/
theorem link_panel {id : String} (hpath : linkPath r.route = some id)
    (hs : (sessionMiddleware P r.toRequest sv.accounts).1 = some s)
    (hcomplete : s.session.totpVerified = true)
    (hcsrf : csrfRefusal P cfg r.toRequest .post false s = none) :
    ∃ accounts headers, ∀ d, panel P cfg r { sv with deliveries := d } =
      { servePanel P cfg r s { sv with accounts := accounts, deliveries := d } with
        response :=
          { (servePanel P cfg r s
              { sv with accounts := accounts, deliveries := d }).response with
            headers := headers ++ (servePanel P cfg r s
              { sv with accounts := accounts, deliveries := d }).response.headers } } := by
  have hkind := linkPath_kind hpath
  have hadmit : requireAdmin P cfg r (some s) = .ok s := by
    simp only [requireAdmin, completeRefusal, hkind.1, hkind.2.1, hcsrf, hcomplete, Bool.or_true,
      if_true, Option.or_none]
  refine ⟨(offerMiddleware P cfg r s (sessionMiddleware P r.toRequest sv.accounts).2).2,
    (offerMiddleware P cfg r s (sessionMiddleware P r.toRequest sv.accounts).2).1, fun d => ?_⟩
  unfold panel
  simp only [hs, hadmit]

/-- Of the guards behind these, `requireConfirmed` alone may refuse. -/
theorem link_refusal {id : String} (hpath : linkPath r.route = some id)
    (hstep : missingStep cfg s = none) : refusal P cfg r s d = confirmRefusal r s d := by
  obtain ⟨-, -, hlimited, hadmins, -⟩ := linkPath_kind hpath
  have hready : readyRefusal cfg r s = none := by
    unfold readyRefusal
    rw [hstep]
    split <;> rfl
  simp only [refusal, limitRefusal, adminsRefusal, hready, hlimited, hadmins, Bool.false_and,
    Bool.false_eq_true, if_false, Option.none_or]

/-- `requireConfirmed` lets a request to a link through, or sends it back to the link. -/
theorem link_confirm {id : String} (hpath : linkPath r.route = some id) :
    (confirmRefusal r s d = none ∧
        ¬ (BackToLink r.route ∧ s.session.isConfirmed r.now = false)) ∨
      s.session.isConfirmed r.now = false ∧ BackToLink r.route ∧
        r.route.back r.toRequest d = some (backToLinkCase id d) ∧
        (r.route.backThrows d = !((validId id).bind fun id => getLink id d).all Link.isReadable) := by
  by_cases hback : BackToLink r.route
  · cases hconfirmed : s.session.isConfirmed r.now with
    | true =>
        refine .inl ⟨?_, fun h => Bool.noConfusion h.2⟩
        unfold confirmRefusal
        split
        · rfl
        · exact if_pos hconfirmed
    | false =>
        refine .inr ⟨rfl, hback, ?_⟩
        obtain ⟨x, hroute⟩ := hback
        rcases hroute with hroute | hroute
        · rw [hroute] at hpath ⊢
          cases hpath
          exact ⟨rfl, rfl⟩
        · rw [hroute] at hpath ⊢
          cases hpath
          exact ⟨rfl, rfl⟩
  · refine .inl ⟨?_, fun h => hback h.1⟩
    have hnone : r.route.back r.toRequest d = none := by
      unfold linkPath at hpath
      split at hpath
      · rename_i id hroute
        exact absurd ⟨id, .inl hroute⟩ hback
      · rename_i id hroute
        exact absurd ⟨id, .inr hroute⟩ hback
      · rename_i hroute
        rw [hroute]
        rfl
      · rename_i hroute
        rw [hroute]
        rfl
      · cases hpath
    unfold confirmRefusal
    rw [hnone]

/-- The handler of a link looks the link up. -/
theorem link_handle {id : String} (hpath : linkPath r.route = some id) :
    ∃ f, r.route.handle P cfg r.toRequest s sv =
      (withLink P id r.toRequest s sv.deliveries f).into fun d => { sv with deliveries := d } := by
  unfold linkPath at hpath
  split at hpath
  · rename_i hroute
    cases hpath
    rw [hroute]
    simp only [PanelRoute.handle, WorkRoute.handle]
    exact ⟨_, rfl⟩
  · rename_i hroute
    cases hpath
    rw [hroute]
    simp only [PanelRoute.handle, WorkRoute.handle]
    exact ⟨_, rfl⟩
  · rename_i hroute
    cases hpath
    rw [hroute]
    simp only [PanelRoute.handle, WorkRoute.handle]
    exact ⟨_, rfl⟩
  · rename_i hroute
    cases hpath
    rw [hroute]
    simp only [PanelRoute.handle, WorkRoute.handle]
    exact ⟨_, rfl⟩
  · cases hpath

/-- The row of the link cannot be read: the error handler answers, in the guard or behind it. -/
theorem serve_unreadable {id : String} {link : Link} (hpath : linkPath r.route = some id)
    (hstep : missingStep cfg s = none)
    (hl : ((validId id).bind fun id => getLink id sv.deliveries) = some link)
    (hread : link.isReadable = false) : servePanel P cfg r s sv = refuse sv serverError := by
  unfold servePanel
  rw [link_refusal hpath hstep]
  rcases link_confirm (s := s) (d := sv.deliveries) (r := r) hpath with
      ⟨hnone, -⟩ | ⟨hconfirmed, -, hback, hthrows⟩
  · obtain ⟨f, hf⟩ := link_handle (P := P) (s := s) (r := r) hpath
    rw [hnone]
    dsimp only
    rw [hf, withLink, hl]
    dsimp only
    rw [hread]
    rfl
  · have hthrow : r.route.backThrows sv.deliveries = true := by
      rw [hthrows, hl, Option.all_some, hread]
      rfl
    unfold confirmRefusal
    rw [hback, hconfirmed, hthrow]
    rfl

/-- There is no such link: the panel says so, or the session is sent back to the panel. -/
theorem serve_missing {id : String} (hpath : linkPath r.route = some id)
    (hstep : missingStep cfg s = none)
    (hl : ((validId id).bind fun id => getLink id sv.deliveries) = none) :
    ∃ response, servePanel P cfg r s sv = refuse sv response ∧ response.page ≠ .serverError ∧
      (BackToLink r.route → s.session.isConfirmed r.now = false →
        response.page = .confirmFirst "/admin") := by
  unfold servePanel
  rw [link_refusal hpath hstep]
  rcases link_confirm (s := s) (d := sv.deliveries) (r := r) hpath with
      ⟨hnone, hnot⟩ | ⟨hconfirmed, -, hback, hthrows⟩
  · obtain ⟨f, hf⟩ := link_handle (P := P) (s := s) (r := r) hpath
    rw [hnone]
    dsimp only
    rw [hf, withLink, hl]
    exact ⟨_, rfl, PanelPage.noConfusion, fun hb hc => absurd ⟨hb, hc⟩ hnot⟩
  · have hthrow : r.route.backThrows sv.deliveries = false := by
      rw [hthrows, hl]
      rfl
    have hplace : backToLinkCase id sv.deliveries = "/admin" := by
      rw [backToLinkCase, hl]
    unfold confirmRefusal
    rw [hback, hconfirmed, hthrow, hplace]
    exact ⟨_, rfl, PanelPage.noConfusion, fun _ _ => rfl⟩

/-- The session is sent back to the case of the link. -/
theorem serve_back {id : String} {link : Link} (hpath : linkPath r.route = some id)
    (hstep : missingStep cfg s = none)
    (hl : ((validId id).bind fun id => getLink id sv.deliveries) = some link)
    (hread : link.isReadable = true) (hback : BackToLink r.route)
    (hconfirmed : s.session.isConfirmed r.now = false) :
    servePanel P cfg r s sv = refuse sv
      { status := 303, page := .confirmFirst ("/admin/cases/" ++ link.caseId) } := by
  unfold servePanel
  rw [link_refusal hpath hstep]
  rcases link_confirm (s := s) (d := sv.deliveries) (r := r) hpath with
      ⟨-, hnot⟩ | ⟨-, -, hplace, hthrows⟩
  · exact absurd ⟨hback, hconfirmed⟩ hnot
  · have hthrow : r.route.backThrows sv.deliveries = false := by
      rw [hthrows, hl, Option.all_some, hread]
      rfl
    unfold confirmRefusal
    rw [hplace, hconfirmed, hthrow, backToLinkCase, hl]
    rfl

theorem place_ne (c : String) : "/admin/cases/" ++ c ≠ "/admin" := by
  intro h
  have hlength := congrArg String.length h
  rw [String.length_append] at hlength
  have hprefix : "/admin/cases/".length = 13 := rfl
  have hpanel : "/admin".length = 6 := rfl
  omega

/-- A request that leaks the case does nothing else, and is answered with another page than it
would be without the case. -/
theorem leak_panel (ho : Outsider P c r s sv) (hs : Sealed c gone s sv.deliveries)
    (hl : Leaks P cfg c r s sv.deliveries) :
    ∃ accounts response response',
      panel P cfg r sv = refuse { sv with accounts := accounts } response ∧
      panel P cfg r (aside c gone sv) =
        refuse (aside c gone { sv with accounts := accounts }) response' ∧
      response.page ≠ response'.page := by
  obtain ⟨hcsrf, hstep, link, ⟨id, hpath, hlink, hcase⟩, hleak⟩ := hl
  obtain ⟨accounts, headers, hpanel⟩ := link_panel hpath ho.session ho.complete hcsrf
  have hmissing : ((validId id).bind fun id => getLink id (cut c gone sv.deliveries)) = none := by
    obtain ⟨a, ha, hget⟩ := Option.bind_eq_some_iff.1 hlink
    rw [ha, Option.bind_some, getLink_cut hs, hget, Option.filter_some, if_neg (by simp [hcase])]
  obtain ⟨response', hwithout, herror, hplace⟩ := @serve_missing P cfg s r
    { sv with accounts := accounts, deliveries := cut c gone sv.deliveries } id hpath hstep hmissing
  have hpanel' := hpanel (cut c gone sv.deliveries)
  rw [hwithout] at hpanel'
  cases hread : link.isReadable with
  | false =>
      have hwith := @serve_unreadable P cfg s r { sv with accounts := accounts } id link hpath hstep
        hlink hread
      have hpanel := hpanel sv.deliveries
      rw [hwith] at hpanel
      exact ⟨accounts, _, _, hpanel, hpanel', fun h => herror h.symm⟩
  | true =>
      obtain ⟨hback, hconfirmed⟩ := hleak.resolve_left (by rw [hread]; exact Bool.noConfusion)
      have hwith := @serve_back P cfg s r { sv with accounts := accounts } id link hpath hstep
        hlink hread hback hconfirmed
      have hpanel := hpanel sv.deliveries
      rw [hwith] at hpanel
      refine ⟨accounts, _, _, hpanel, hpanel', fun h => ?_⟩
      have hsame := PanelPage.confirmFirst.inj (h.trans (hplace hback hconfirmed))
      exact place_ne link.caseId hsame

/-- A user outside the case, seen from the rows of the case. -/
theorem Outsider.sealed (ho : Outsider P c r s sv) (hk : Keyed sv.deliveries) :
    Sealed c (fun k => inCase c k sv.deliveries) s sv.deliveries := by
  refine ⟨ho.role, ho.outside, fun l hl => ?_⟩
  rw [inCase, List.any_eq_true]
  constructor
  · rintro ⟨l', hl', hsame⟩
    rw [Bool.and_eq_true, beq_iff_eq, beq_iff_eq] at hsame
    exact Table.eq_of_key hk.links hl' hl hsame.1 ▸ hsame.2
  · intro hc
    exact ⟨l, hl, by simp [hc]⟩

/-- What every route leaves alone, a request of an outsider does. -/
theorem panel_leaves {α : Type} (f : DeliveryDb → α) (ho : Outsider P c r s sv)
    (hf : ∀ {route dir d}, WorkEffect P cfg r.toRequest s dir sv.deliveries route d →
      f d = f sv.deliveries) :
    f (panel P cfg r sv).state.deliveries = f sv.deliveries := by
  rcases panel_state (P := P) r sv with ⟨accounts, h⟩ | ⟨s', accounts, hadm, -, h⟩
  · rw [h]
  obtain rfl : s' = s := by
    have hok := hadm.1
    rw [ho.session] at hok
    unfold requireAdmin at hok
    dsimp only at hok
    split at hok
    · cases hok
    · exact (Except.ok.inj hok).symm
  have honly := not_adminsOnly ho.role hadm.2
  rw [h]
  cases hroute : r.route with
  | pending route => rfl
  | settings route => rfl
  | groups route => rfl
  | work route =>
      exact hf (workEffect P cfg route r.toRequest s' ⟨accounts, sv.groups⟩ sv.deliveries)
  | users route =>
      rw [hroute] at honly
      cases honly
  | audit =>
      rw [hroute] at honly
      cases honly

/-- A request of an outsider leaves the rows of the case. -/
theorem panel_untouched (ho : Outsider P c r s sv) (hk : Keyed sv.deliveries)
    (hd : Drawn P c (fun k => inCase c k sv.deliveries) r.toRequest sv.deliveries) :
    rowsOf c (panel P cfg r sv).state.deliveries = rowsOf c sv.deliveries :=
  panel_leaves (rowsOf c) ho fun he => work_untouched (ho.sealed hk) hk hd he

/-- The server without the case, its items and members, and its links with all that hangs on
them. -/
def alone (c : String) (sv : Server) : Server := aside c (fun k => inCase c k sv.deliveries) sv

/-- A user outside a case is answered as if the case did not exist, but for the requests that leak
it, and does the same without it. -/
theorem panel_alone (ho : Outsider P c r s sv) (hk : Keyed sv.deliveries)
    (hd : Drawn P c (fun k => inCase c k sv.deliveries) r.toRequest sv.deliveries) :
    (panel P cfg r (alone c sv)).state =
        aside c (fun k => inCase c k sv.deliveries) (panel P cfg r sv).state ∧
      (panel P cfg r (alone c sv)).audit = (panel P cfg r sv).audit ∧
      ((panel P cfg r (alone c sv)).response = (panel P cfg r sv).response ↔
        ¬ Leaks P cfg c r s sv.deliveries) := by
  by_cases hl : Leaks P cfg c r s sv.deliveries
  · obtain ⟨accounts, response, response', hwith, hwithout, hpages⟩ :=
      leak_panel ho (ho.sealed hk) hl
    rw [alone, hwithout, hwith]
    refine ⟨rfl, rfl, fun hsame => ?_, fun hn => absurd hl hn⟩
    exact absurd (congrArg (·.page) hsame).symm hpages
  · rw [alone, panel_cut (ho.sealed hk) ho.session hk.items hd hl]
    exact ⟨rfl, rfl, fun _ => hl, fun _ => rfl⟩

/-! ## Runs -/

/-- Anyone may sign in, the operator may use the command line, and what is done in a session an
outsider does. -/
def Outside (P : Platform) (c : String) (sv : Server) : Input → Prop
  | .panel r => ∃ s, Outsider P c r s sv ∧
      Drawn P c (fun k => inCase c k sv.deliveries) r.toRequest sv.deliveries
  | .visit _ | .cli .. => True
  | .deliver _ | .cleanup _ => False

/-- The request of a step leaks the case. -/
def Leaked (P : Platform) (cfg : Config) (c : String) (e : ServerEvent) : Prop :=
  ∃ r s, e.input = .panel r ∧ Outsider P c r s e.pre ∧ Leaks P cfg c r s e.pre.deliveries

/-- The case is taken out of the same links, before and after a step that leaves its rows. -/
theorem alone_of_rows {sv' : Server}
    (hrows : rowsOf c sv'.deliveries = rowsOf c sv.deliveries) :
    alone c sv' = aside c (fun k => inCase c k sv.deliveries) sv' := by
  have hgone : (fun k => inCase c k sv'.deliveries) = fun k => inCase c k sv.deliveries :=
    funext fun k => inCase_congr (congrArg (·.links) hrows) k
  rw [alone, hgone]

theorem keyed_of_sound (hs : Integrity.Sound sv) : Keyed sv.deliveries :=
  ⟨hs.deliveries.items, hs.deliveries.links, hs.deliveries.people⟩

/-- A step outside the case leaves its rows alone, and commutes with taking it out of the server. -/
theorem step_alone (hs : Integrity.Sound sv) {i : Input} (hi : Outside P c sv i) :
    rowsOf c (Server.step P cfg sv i).1.deliveries = rowsOf c sv.deliveries ∧
      accessOf c (Server.step P cfg sv i).1.deliveries = accessOf c sv.deliveries ∧
      (Server.step P cfg (alone c sv) i).1 = alone c (Server.step P cfg sv i).1 ∧
      ((Server.step P cfg (alone c sv) i).2 = (Server.step P cfg sv i).2 ↔
        ¬ Leaked P cfg c (History.fire (Server.step P cfg) sv i)) := by
  have hquiet : (∀ r, i ≠ .panel r) →
      ¬ Leaked P cfg c (History.fire (Server.step P cfg) sv i) :=
    fun hne ⟨r, _, hr, _⟩ => hne r hr
  cases i with
  | deliver r => cases hi
  | cleanup run => cases hi
  | cli now draw command =>
      exact ⟨rfl, rfl, rfl, fun _ => hquiet fun _ => nofun, fun _ => rfl⟩
  | visit r =>
      have hvisit : visit P cfg r (alone c sv) =
          (visit P cfg r sv).into (aside c fun k => inCase c k sv.deliveries) := by
        unfold visit
        dsimp only [alone, aside]
        split <;> rfl
      have hsame : (Server.step P cfg sv (.visit r)).1.deliveries = sv.deliveries := by
        dsimp only [Server.step, answerPanel, Server.record]
        unfold visit
        dsimp only
        split <;> rfl
      have hrows := congrArg (rowsOf c) hsame
      refine ⟨hrows, congrArg (accessOf c) hsame, ?_, fun _ => hquiet fun _ => nofun, fun _ => ?_⟩
      · rw [alone_of_rows hrows, Server.step, Server.step, hvisit]
        rfl
      · rw [Server.step, Server.step, hvisit]
        rfl
  | panel r =>
      obtain ⟨s, ho, hd⟩ := hi
      have hk := keyed_of_sound hs
      obtain ⟨hstate, haudit, hresponse⟩ := @panel_alone P cfg c s r sv ho hk hd
      have hrows : rowsOf c (Server.step P cfg sv (.panel r)).1.deliveries = rowsOf c sv.deliveries :=
        panel_untouched ho hk hd
      refine ⟨hrows, ?_, ?_, ?_⟩
      · exact panel_leaves (accessOf c) ho fun he =>
          work_keeps_access (ho.sealed hk) hs.deliveries hd he
      · rw [alone_of_rows hrows]
        simp only [Server.step, answerPanel, hstate, haudit]
        rfl
      · have hleaked : Leaked P cfg c (History.fire (Server.step P cfg) sv (.panel r)) ↔
            Leaks P cfg c r s sv.deliveries := by
          constructor
          · rintro ⟨r', s', hr, ho', hl⟩
            obtain rfl : r = r' := Input.panel.inj hr
            obtain rfl : s = s' := Option.some.inj (ho.session.symm.trans ho'.session)
            exact hl
          · exact fun hl => ⟨r, s, rfl, ho, hl⟩
        rw [hleaked, ← hresponse]
        simp only [Server.step, answerPanel, haudit, Output.mk.injEq, Answer.panel.injEq, and_true]

/-- Those outside a case leave its rows alone, however many requests they make, and the server
goes on as if the case did not exist: the same inputs take the server without the case to the state
without it.  They are answered the same, too, but for the requests that leak the case. -/
theorem outsiders_see_nothing (P : Platform) (cfg : Config) (c : String) {sv₀ sv : Server}
    (hs : Integrity.Sound sv₀) {h : List ServerEvent}
    (hr : History.Run (Server.step P cfg) (fun _ sv i => Outside P c sv i) sv₀ h sv) :
    rowsOf c sv.deliveries = rowsOf c sv₀.deliveries ∧
      accessOf c sv.deliveries = accessOf c sv₀.deliveries ∧
      ∃ h', History.Run (Server.step P cfg) (fun _ _ _ => True) (alone c sv₀) h' (alone c sv) ∧
        h'.map (·.input) = h.map (·.input) ∧
        (h'.map (·.output) = h.map (·.output) ↔ ∀ e ∈ h, ¬ Leaked P cfg c e) := by
  induction hr with
  | start => exact ⟨rfl, rfl, [], .start, rfl, by simp⟩
  | @step h sv i hr hi ih =>
      obtain ⟨hrows, haccess, h', hr', hinputs, houtputs⟩ := ih
      have hsound : Integrity.Sound sv := hr.invariant (I := fun _ sv => Integrity.Sound sv) hs
        fun _ _ i _ _ hs => Integrity.sound_step hs i
      obtain ⟨hkept, hopen, hstate, houtput⟩ := step_alone (P := P) (c := c) (i := i) hsound hi
      refine ⟨hkept.trans hrows, hopen.trans haccess, History.fire _ (alone c sv) i :: h',
        hstate ▸ hr'.step i trivial, ?_, ?_⟩
      · rw [List.map_cons, List.map_cons, hinputs]
        rfl
      · rw [List.map_cons, List.map_cons, List.cons.injEq, houtputs, List.forall_mem_cons]
        exact and_congr_left fun _ => houtput

end

/-! ## A guest of the sample -/

def sampleCase : String := newId "c" sampleId

/-- The random part of the identifiers the guest's requests draw. -/
def guestId : String := "BBBBBBBBBBBBBBBB"

def guestForm (now : Int) (route : PanelRoute) (fields : List (String × String)) : PanelRequest :=
  let request := samplePanel now "sid2" 'U' route fields
  { request with
    random :=
      { request.random with
        id := guestId, ids := fun _ => guestId, publicId := guestId,
        password := "first password" } }

/-- `root` sends a delivery, and creates the account of the guest. -/
def setupScript : List Input :=
  signInScript ++
    [.panel (samplePanel 2 "sid" 'T' (.work .createCase) [("name", "Case")]),
      .panel (samplePanel 3 "sid" 'T' (.work (.createLink sampleCase))
        [("label", "Link"), ("recipients", "a@b.example")]),
      .panel { guestForm 4 (.users .create) [("username", "guest"), ("role", "user")] with
        cookieHeader := some "outletbox_sid=sid" }]

def hosted : List ServerEvent × Server :=
  History.replay (Server.step LastFactor.sampleHost Credentials.disableConfig) [] .empty setupScript

/-- The guest signs in, sets a password, creates a case and asks for a link of the other one to be
revoked. -/
def guestScript : List Input :=
  [.visit { guestForm 5 .audit [("username", "guest"), ("password", "first password")] with
      route := .login },
    .panel (guestForm 6 (.settings .password) [("current_password", "first password"),
      ("new_password", "correct horse"), ("new_password_confirm", "correct horse")]),
    .panel (guestForm 7 (.work .createCase) [("name", "Mine")]),
    .panel (guestForm 8 (.work (.revoke (newId "l" sampleId))) [])]

def guested : List ServerEvent × Server :=
  History.replay (Server.step LastFactor.sampleHost Credentials.disableConfig) [] hosted.2
    guestScript

/-- What has to be checked for a request to be an outsider's, where all identifiers drawn are the
same. -/
theorem Outside.check {P : Platform} {c : String} {sv : Server} {r : PanelRequest} (id : String)
    (hs : ((sessionMiddleware P r.toRequest sv.accounts).1.any fun s =>
      s.session.totpVerified && (s.admin.role == .user && !isMember c s.admin.id sv.deliveries)) =
        true)
    (hids : ∀ k, r.random.ids k = id)
    (hd : (newId "c" r.random.id ≠ c ∧ inCase c (newId "l" r.random.id) sv.deliveries = false) ∧
      (∀ l ∈ sv.deliveries.links, l.caseId = c →
        l.id ≠ newId "l" r.random.id ∧ l.tokenHash ≠ P.sha256Hex r.random.token) ∧
      (∀ i ∈ sv.deliveries.items, i.caseId = c →
        i.id ≠ newId "n" r.random.id ∧ i.id ≠ newId "f" r.random.id) ∧
      ∀ x ∈ sv.deliveries.linkRecipients, x.id ≠ newId "r" id) :
    Outside P c sv (.panel r) := by
  obtain ⟨s, hs, hc⟩ := (Option.any_eq_true _ _).1 hs
  rw [Bool.and_eq_true, Bool.and_eq_true, beq_iff_eq, Bool.not_eq_true'] at hc
  exact ⟨s, ⟨hs, hc.1, hc.2.1, hc.2.2⟩, ⟨hd.1.1, hd.1.2, hd.2.1, hd.2.2.1,
    fun k x hx _ => hids k ▸ hd.2.2.2 x hx⟩⟩

theorem admits_guest : History.Admits (Server.step LastFactor.sampleHost Credentials.disableConfig)
    (fun _ sv i => Outside LastFactor.sampleHost sampleCase sv i) [] hosted.2 guestScript := by
  refine ⟨trivial, ?_, ?_, ?_, trivial⟩
  · exact .check guestId (by decide +kernel) (fun _ => rfl) (by decide +kernel)
  · exact .check guestId (by decide +kernel) (fun _ => rfl) (by decide +kernel)
  · exact .check guestId (by decide +kernel) (fun _ => rfl) (by decide +kernel)

/-- The guest's four requests are answered as if the case of `root` did not exist. -/
theorem guest_sees_nothing :
    rowsOf sampleCase guested.2.deliveries = rowsOf sampleCase hosted.2.deliveries ∧
      (rowsOf sampleCase hosted.2.deliveries).linkRecipients ≠ [] ∧
      ∃ h', History.Run (Server.step LastFactor.sampleHost Credentials.disableConfig)
          (fun _ _ _ => True) (alone sampleCase hosted.2) h' (alone sampleCase guested.2) ∧
        h'.map (·.input) = guested.1.map (·.input) ∧
        h'.map (·.output) = guested.1.map (·.output) := by
  have hsetup : History.Run (Server.step LastFactor.sampleHost Credentials.disableConfig)
      (fun _ _ _ => True) .empty hosted.1 hosted.2 :=
    History.run_replay .start (History.admits_of_forall (fun _ _ _ => trivial) _ _ _)
  have hhosted : Integrity.Sound hosted.2 :=
    hsetup.invariant (I := fun _ sv => Integrity.Sound sv) Integrity.sound_empty
      fun _ _ i _ _ hs => Integrity.sound_step hs i
  have hr := History.run_replay .start admits_guest
  obtain ⟨hrows, -, h', hr', hinputs, houtputs⟩ := outsiders_see_nothing LastFactor.sampleHost
    Credentials.disableConfig sampleCase hhosted hr
  refine ⟨hrows, by decide +kernel, h', hr', hinputs, houtputs.2 ?_⟩
  have hroutes : ∀ e ∈ guested.1, ∀ r id, e.input = .panel r →
      r.route ≠ .work (.reissue id) ∧ r.route ≠ .work (.addRecipients id) := by
    intro e he r id hr
    have hmem : e.input ∈ guestScript.reverse := by
      have hinputs : guested.1.map (·.input) = guestScript.reverse := rfl
      rw [← hinputs]
      exact List.mem_map_of_mem he
    rw [hr] at hmem
    simp only [guestScript, List.reverse_cons, List.reverse_nil, List.nil_append, List.cons_append,
      List.mem_cons, List.not_mem_nil, or_false, Input.panel.injEq, reduceCtorEq] at hmem
    rcases hmem with rfl | rfl | rfl <;> exact ⟨nofun, nofun⟩
  have hreadable : (guested.1.all fun e => e.pre.deliveries.links.all Link.isReadable) = true := by
    decide +kernel
  rintro e he ⟨r, s, hr, -, -, -, link, ⟨_, -, hlink, -⟩, hunreadable | ⟨⟨id, hroute⟩, -⟩⟩
  · obtain ⟨_, -, hget⟩ := Option.bind_eq_some_iff.1 hlink
    have hread := List.all_eq_true.1 (List.all_eq_true.1 hreadable e he) link
      (List.mem_of_find?_eq_some hget)
    rw [hread] at hunreadable
    cases hunreadable
  · rcases hroute with hroute | hroute
    · exact (hroutes e he r id hr).1 hroute
    · exact (hroutes e he r id hr).2 hroute

/-! ## One request, with the case and without it -/

/-- The request is answered as if the case did not exist, and leaves its rows. -/
structure Isolated (c : String) (r : PanelRequest) (sv : Server) : Prop where
  answer : (panel P cfg r (alone c sv)).response = (panel P cfg r sv).response
  rows : rowsOf c (panel P cfg r sv).state.deliveries = rowsOf c sv.deliveries

/-- A user is isolated from a case he is not assigned to, whatever he sends and whatever it names,
exactly when the request does not leak the case. -/
theorem isolated_iff {c : String} {r : PanelRequest} {s : Signed} {sv : Server}
    (ho : Outsider P c r s sv) (hk : Keyed sv.deliveries)
    (hd : Drawn P c (fun k => inCase c k sv.deliveries) r.toRequest sv.deliveries) :
    Isolated P cfg c r sv ↔ ¬ Leaks P cfg c r s sv.deliveries := by
  have hanswer : (panel P cfg r (alone c sv)).response = (panel P cfg r sv).response ↔
      ¬ Leaks P cfg c r s sv.deliveries := (panel_alone ho hk hd).2.2
  exact ⟨fun h => hanswer.1 h.answer, fun h => ⟨hanswer.2 h, panel_untouched ho hk hd⟩⟩

/-- The guest asks for a new token of the link of the other case when his confirmation has run
out. -/
def lateReissue : PanelRequest := guestForm 700000 (.work (.reissue (newId "l" sampleId))) []

/-- He asks for the same while he is confirmed. -/
def earlyReissue : PanelRequest := guestForm 9 (.work (.reissue (newId "l" sampleId))) []

theorem keyed_guested : Keyed guested.2.deliveries := by
  constructor
  · decide +kernel
  · decide +kernel
  · decide +kernel

/-- The request is let through the guards in front of the confirmation. -/
theorem leaks_lateReissue {s : Signed}
    (ho : Outsider LastFactor.sampleHost sampleCase lateReissue s guested.2) :
    Leaks LastFactor.sampleHost Credentials.disableConfig sampleCase lateReissue s
      guested.2.deliveries := by
  have hguards : ((sessionMiddleware LastFactor.sampleHost lateReissue.toRequest
      guested.2.accounts).1.all fun s =>
        (csrfRefusal LastFactor.sampleHost Credentials.disableConfig lateReissue.toRequest .post
          false s).isNone && (missingStep Credentials.disableConfig s).isNone &&
          !s.session.isConfirmed lateReissue.now) = true := by
    decide +kernel
  rw [ho.session, Option.all_some, Bool.and_eq_true, Bool.and_eq_true, Option.isNone_iff_eq_none,
    Option.isNone_iff_eq_none, Bool.not_eq_true'] at hguards
  have hlink : (((validId (newId "l" sampleId)).bind fun id =>
      getLink id guested.2.deliveries).any fun link => link.caseId == sampleCase) = true := by
    decide +kernel
  obtain ⟨link, hlink, hcase⟩ := (Option.any_eq_true _ _).1 hlink
  exact ⟨hguards.1.1, hguards.1.2, link, ⟨_, rfl, hlink, beq_iff_eq.1 hcase⟩,
    .inr ⟨⟨_, .inl rfl⟩, hguards.2⟩⟩

theorem outside_lateReissue : Outside LastFactor.sampleHost sampleCase guested.2
    (.panel lateReissue) :=
  .check guestId (by decide +kernel) (fun _ => rfl) (by decide +kernel)

theorem outside_earlyReissue : Outside LastFactor.sampleHost sampleCase guested.2
    (.panel earlyReissue) :=
  .check guestId (by decide +kernel) (fun _ => rfl) (by decide +kernel)

/-- The late request is not answered as if the case did not exist. -/
theorem reissue_leaks :
    ¬ ∀ (P : Platform) (cfg : Config) (c : String) (r : PanelRequest) (s : Signed) (sv : Server),
      Outsider P c r s sv → Keyed sv.deliveries →
        Drawn P c (fun k => inCase c k sv.deliveries) r.toRequest sv.deliveries →
        Isolated P cfg c r sv := by
  intro hall
  obtain ⟨s, ho, hd⟩ := outside_lateReissue
  have hsame := (hall _ Credentials.disableConfig _ _ s _ ho keyed_guested hd).answer
  exact (panel_alone ho keyed_guested hd).2.2.1 hsame (leaks_lateReissue ho)

theorem isolated_while_confirmed :
    Isolated LastFactor.sampleHost Credentials.disableConfig sampleCase earlyReissue guested.2 ∧
      ¬ Isolated LastFactor.sampleHost Credentials.disableConfig sampleCase lateReissue
        guested.2 := by
  constructor
  · obtain ⟨s, ho, hd⟩ := outside_earlyReissue
    refine (isolated_iff _ Credentials.disableConfig ho keyed_guested hd).2 ?_
    have hsession : ((sessionMiddleware LastFactor.sampleHost earlyReissue.toRequest
        guested.2.accounts).1.all fun s => s.session.isConfirmed earlyReissue.now) = true := by
      decide +kernel
    have hread : (guested.2.deliveries.links.all Link.isReadable) = true := by decide +kernel
    rw [ho.session, Option.all_some] at hsession
    rintro ⟨-, -, link, ⟨_, -, hlink, -⟩, hunreadable | ⟨-, hconfirmed⟩⟩
    · obtain ⟨_, -, hget⟩ := Option.bind_eq_some_iff.1 hlink
      rw [List.all_eq_true.1 hread link (List.mem_of_find?_eq_some hget)] at hunreadable
      cases hunreadable
    · rw [hsession] at hconfirmed
      cases hconfirmed
  · obtain ⟨s, ho, hd⟩ := outside_lateReissue
    exact fun h => (isolated_iff _ Credentials.disableConfig ho keyed_guested hd).1 h
      (leaks_lateReissue ho)

end Isolation

end Outletbox
