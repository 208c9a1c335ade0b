import Outletbox.Http.App
import Outletbox.Http.Work

/-!
# What a step does to links, codes and sessions

What ends access (a revocation, a new token, the closing of a case, the removal
of a person) is read off the tables before and after a step.  `Tracks` says once
what a step of the server does: every row of a code or of a session it leaves
was there before and was not touched by an ending, or is the one row the step
itself created.
-/

namespace Outletbox

/-! ## What ends access -/

/-- The link is revoked, or its token is replaced. -/
def LinkChanged (linkId : String) (d d' : DeliveryDb) : Prop :=
  ∃ l l', getLink linkId d = some l ∧ getLink linkId d' = some l' ∧
    ((l.revokedAt = none ∧ l'.revokedAt ≠ none) ∨ l'.tokenHash ≠ l.tokenHash)

/-- The case has the status. -/
def CaseIs (status : CaseStatus) (caseId : String) (d : DeliveryDb) : Prop :=
  ∃ c, getCase caseId d = some c ∧ c.status = status

/-- The case of the link is closed. -/
def CaseCloses (linkId : String) (d d' : DeliveryDb) : Prop :=
  ∃ l, getLink linkId d = some l ∧ CaseIs .isOpen l.caseId d ∧ CaseIs .isClosed l.caseId d'

instance (status : CaseStatus) (caseId : String) (d : DeliveryDb) :
    Decidable (CaseIs status caseId d) :=
  decidable_of_iff ((getCase caseId d).any fun c => c.status = status) (by simp [CaseIs, Option.any_eq_true])

instance (linkId : String) (d d' : DeliveryDb) : Decidable (CaseCloses linkId d d') :=
  decidable_of_iff
    ((getLink linkId d).any fun l => CaseIs .isOpen l.caseId d ∧ CaseIs .isClosed l.caseId d')
    (by simp [CaseCloses, Option.any_eq_true])

/-- Access through the link ends. -/
def EndsLink (linkId : String) (d d' : DeliveryDb) : Prop :=
  LinkChanged linkId d d' ∨ CaseCloses linkId d d'

/-- The person is taken off their link. -/
def PersonRemoved (recipientId : String) (d d' : DeliveryDb) : Prop :=
  (∃ x ∈ d.linkRecipients, x.id = recipientId) ∧ ∀ x ∈ d'.linkRecipients, x.id ≠ recipientId

/-- The person is on the link. -/
def OnLink (recipientId : Option String) (linkId : String) (d : DeliveryDb) : Prop :=
  ∃ x ∈ d.linkRecipients, recipientId = some x.id ∧ x.linkId = linkId

/-- A challenge as it was issued, before any attempt. -/
def Challenge.issued (c : Challenge) : Challenge := { c with attempts := 0, consumedAt := none }

/-! ## Where the rows come from -/

/-- The request is answered with a code for a person of its link. -/
structure CodeSent (P : Platform) (cfg : Config) (r : DeliverRequest) (v : Visit) (c : Challenge)
    (d : DeliveryDb) : Prop where
  route : r.route = .email
  entered : ∃ d₁, Entered P cfg r d v d₁
  person : ∃ x ∈ v.resolved.recipients,
    c.issued = newChallenge P cfg r.now r.challengeDraw (v.challengeInput r x)

/-- The request presents the code of a challenge of its link and browser, and a
new session is opened for it. -/
structure CodeAccepted (P : Platform) (cfg : Config) (r : DeliverRequest) (v : Visit)
    (c : Challenge) (a : AccessSessionRow) (d : DeliveryDb) : Prop where
  route : r.route = .code
  entered : ∃ d₁, Entered P cfg r d v d₁ ∧
    pendingRow P r.now v.resolved.link.id v.flowToken d₁ = some c ∧
    changesLink v.resolved.link.id Link.mayOpen d₁ = true ∧
    ∀ x ∈ d₁.accessSessions, x.idHash ≠ a.idHash
  accepts : acceptsCode P (codeFromBody r) c = true
  opened : a = newAccessSession P cfg r.now ⟨r.random.sessionId, r.random.csrfToken⟩
    v.resolved.link.id c.recipientId r.ip

/-- The step sent the code of the challenge. -/
def IssuedBy (P : Platform) (cfg : Config) (c : Challenge) (i : Input) (d : DeliveryDb) : Prop :=
  ∃ r v, i = .deliver r ∧ CodeSent P cfg r v c d

/-- The step accepted the code of the challenge and opened the session. -/
def GrantedBy (P : Platform) (cfg : Config) (c : Challenge) (a : AccessSessionRow) (i : Input)
    (d : DeliveryDb) : Prop :=
  ∃ r v, i = .deliver r ∧ CodeAccepted P cfg r v c a d

/-- The guards of a panel request let it through, in this session. -/
def Admitted (P : Platform) (cfg : Config) (r : PanelRequest) (s : Signed) (sv : Server) : Prop :=
  requireAdmin P cfg r (sessionMiddleware P r.toRequest sv.accounts).1 = .ok s ∧
    refusal P cfg r s sv.deliveries = none

/-- The step is a request that sets the status of a case. -/
def SetsStatus (P : Platform) (cfg : Config) (caseId : String) (status : CaseStatus) (i : Input)
    (sv : Server) : Prop :=
  ∃ r s, i = .panel r ∧ r.route = .work (.caseStatus caseId) ∧ formStatus r.toRequest = status ∧
    Admitted P cfg r s sv ∧ (caseFor s caseId sv.deliveries).isSome = true

/-- The event sent the code of the challenge. -/
def Sent (P : Platform) (cfg : Config) (c : Challenge) (e : ServerEvent) : Prop :=
  (∃ c₀ ∈ e.post.deliveries.challenges, c₀.issued = c.issued) ∧
    IssuedBy P cfg c e.input e.pre.deliveries

/-- The event opened the session, for the code of this challenge. -/
def Opened (P : Platform) (cfg : Config) (c : Challenge) (a : AccessSessionRow)
    (e : ServerEvent) : Prop :=
  a ∈ e.post.deliveries.accessSessions ∧ GrantedBy P cfg c a e.input e.pre.deliveries

/-! ## Quiet steps -/

/-- What no step changes about a link: its case, its end, and that it is used up. -/
structure Link.Kept (l l' : Link) : Prop where
  case : l'.caseId = l.caseId
  expires : l'.expiresAt = l.expiresAt
  exhausted : l.isExhausted = true → l'.isExhausted = true

/-- No link, no case and no person of a link is touched by an ending. -/
structure Quiet (d d' : DeliveryDb) : Prop where
  linkIds : (d.links.map (·.id)).Nodup → (d'.links.map (·.id)).Nodup
  link : ∀ l link, getLink l d = some link → ∃ link', getLink l d' = some link' ∧
    link.Kept link' ∧ link'.tokenHash = link.tokenHash ∧ link'.revokedAt = link.revokedAt
  case : ∀ k c, getCase k d = some c → ∃ c', getCase k d' = some c' ∧ c'.status = c.status
  person : ∀ x ∈ d.linkRecipients, ∃ x' ∈ d'.linkRecipients, x'.id = x.id ∧ x'.linkId = x.linkId

/-- The sessions that are left were there before. -/
def SessionsFrom (d d' : DeliveryDb) : Prop := ∀ a ∈ d'.accessSessions, a ∈ d.accessSessions

/-- The codes that are left were there before, and none became pending again. -/
def CodesFrom (d d' : DeliveryDb) : Prop :=
  ∀ c ∈ d'.challenges, ∃ c₀ ∈ d.challenges, c.issued = c₀.issued ∧
    (c.consumedAt = none → c₀.consumedAt = none)

/-- What a step does to the codes and the sessions: `granted` and `issued` are the
rows it created, `set` is the case whose status it wrote. -/
structure Tracks (d d' : DeliveryDb) (granted : Option AccessSessionRow)
    (issued : Option Challenge) (set : Option (String × CaseStatus)) : Prop where
  session : ∀ a ∈ d'.accessSessions, granted = some a ∨
    a ∈ d.accessSessions ∧ ¬ EndsLink a.linkId d d'
  code : ∀ c ∈ d'.challenges, issued = some c ∨ ∃ c₀ ∈ d.challenges, c.issued = c₀.issued ∧
    (c.consumedAt = none → c₀.consumedAt = none ∧ ¬ LinkChanged c.linkId d d' ∧
      ∀ x, c.recipientId = some x → ¬ PersonRemoved x d d')
  person : ∀ x ∈ d.linkRecipients,
    (∃ x' ∈ d'.linkRecipients, x'.id = x.id ∧ x'.linkId = x.linkId) ∨
      (∀ a ∈ d'.accessSessions, a.recipientId ≠ some x.id) ∧
        ∀ c ∈ d'.challenges, c.recipientId ≠ some x.id
  linkIds : (d.links.map (·.id)).Nodup → (d'.links.map (·.id)).Nodup
  link : ∀ l link, getLink l d = some link → ∃ link', getLink l d' = some link' ∧ link.Kept link'
  case : ∀ k c, getCase k d = some c → ∃ c', getCase k d' = some c' ∧
    (c'.status = c.status ∨ set = some (k, c'.status))

section

variable {P : Platform} {cfg : Config} {d d' d'' : DeliveryDb} {now : Int} {id : String}

/-! ## Lookups after a statement -/

theorem getLink_updateLink {l : String} {p : Link → Bool} {f : Link → Link}
    (hf : ∀ x, (f x).id = x.id) :
    getLink l (updateLink id p f d) =
      (getLink l d).map fun x => if x.id == id && p x then f x else x :=
  Table.find?_update (q := fun x : Link => x.id == l) (fun x => by rw [hf]) d.links

/-- A row at the end of the table hides no other. -/
theorem find?_append_of_some {α : Type} {p : α → Bool} {t u : List α} {x : α}
    (h : t.find? p = some x) : (t ++ u).find? p = some x := by
  rw [List.find?_append, h, Option.some_or]

theorem getCase_id {k : String} {c : Case} (h : getCase k d = some c) : c.id = k := by
  simpa using List.find?_some h

/-- The case `updateCase` leaves behind. -/
theorem getCase_update {k : String} {f : Case → Case} (hf : ∀ x, (f x).id = x.id)
    {cases' : List Case} (hd : cases' = Table.update (fun x => x.id == id) f d.cases) :
    getCase k { d with cases := cases' } =
      (getCase k d).map fun x => if x.id == id then f x else x := by
  subst hd
  exact Table.find?_update (q := fun x : Case => x.id == k) (fun x => by rw [hf]) d.cases

/-! ## Composing quiet statements -/

theorem Link.Kept.refl (l : Link) : l.Kept l := ⟨rfl, rfl, fun h => h⟩

theorem Link.Kept.trans {l l' l'' : Link} (h : l.Kept l') (h' : l'.Kept l'') : l.Kept l'' :=
  ⟨h'.case.trans h.case, h'.expires.trans h.expires, fun hx => h'.exhausted (h.exhausted hx)⟩

theorem Quiet.of_eq (hl : d'.links = d.links) (hc : d'.cases = d.cases)
    (hp : d'.linkRecipients = d.linkRecipients) : Quiet d d' where
  linkIds := by
    rw [hl]
    exact id
  link := by
    intro l link h
    exact ⟨link, by rw [getLink, hl]; exact h, .refl link, rfl, rfl⟩
  case := by
    intro k c h
    exact ⟨c, by rw [getCase, hc]; exact h, rfl⟩
  person := by
    intro x hx
    exact ⟨x, hp ▸ hx, rfl, rfl⟩

theorem Quiet.refl (d : DeliveryDb) : Quiet d d := .of_eq rfl rfl rfl

theorem Quiet.trans (h : Quiet d d') (h' : Quiet d' d'') : Quiet d d'' where
  linkIds := fun hn => h'.linkIds (h.linkIds hn)
  link := by
    intro l link hl
    obtain ⟨x, hx, h1, h2, h3⟩ := h.link l link hl
    obtain ⟨y, hy, h1', h2', h3'⟩ := h'.link l x hx
    exact ⟨y, hy, h1.trans h1', h2'.trans h2, h3'.trans h3⟩
  case := by
    intro k c hk
    obtain ⟨x, hx, h1⟩ := h.case k c hk
    obtain ⟨y, hy, h1'⟩ := h'.case k x hx
    exact ⟨y, hy, h1'.trans h1⟩
  person := by
    intro x hx
    obtain ⟨y, hy, h1, h2⟩ := h.person x hx
    obtain ⟨z, hz, h1', h2'⟩ := h'.person y hy
    exact ⟨z, hz, h1'.trans h1, h2'.trans h2⟩

theorem Quiet.not_linkChanged (h : Quiet d d') (linkId : String) : ¬ LinkChanged linkId d d' := by
  rintro ⟨l, l', hl, hl', hch⟩
  obtain ⟨x, hx, -, h2, h3⟩ := h.link linkId l hl
  rw [hl'] at hx
  cases hx
  rcases hch with ⟨h0, h1⟩ | h1
  · exact h1 (h3.trans h0)
  · exact h1 h2

theorem Quiet.not_caseCloses (h : Quiet d d') (linkId : String) : ¬ CaseCloses linkId d d' := by
  rintro ⟨l, -, ⟨c, hc, hopen⟩, ⟨c', hc', hclosed⟩⟩
  obtain ⟨x, hx, h1⟩ := h.case l.caseId c hc
  rw [hc'] at hx
  cases hx
  rw [hopen, hclosed] at h1
  cases h1

theorem Quiet.not_endsLink (h : Quiet d d') (linkId : String) : ¬ EndsLink linkId d d' :=
  fun he => he.elim (h.not_linkChanged linkId) (h.not_caseCloses linkId)

theorem Quiet.not_personRemoved (h : Quiet d d') (recipientId : String) :
    ¬ PersonRemoved recipientId d d' := by
  rintro ⟨⟨x, hx, rfl⟩, hno⟩
  obtain ⟨y, hy, hid, -⟩ := h.person x hx
  exact hno y hy hid

theorem CodesFrom.of_eq (h : d'.challenges = d.challenges) : CodesFrom d d' := by
  intro c hc
  exact ⟨c, h ▸ hc, rfl, id⟩

theorem CodesFrom.trans (h : CodesFrom d d') (h' : CodesFrom d' d'') : CodesFrom d d'' := by
  intro c hc
  obtain ⟨c₁, hc₁, he₁, hn₁⟩ := h' c hc
  obtain ⟨c₀, hc₀, he₀, hn₀⟩ := h c₁ hc₁
  exact ⟨c₀, hc₀, he₁.trans he₀, fun hn => hn₀ (hn₁ hn)⟩

/-- An update of challenges that keeps what was issued and makes none pending. -/
theorem CodesFrom.of_update {p : Challenge → Bool} {f : Challenge → Challenge}
    (hf : ∀ c, (f c).issued = c.issued ∧ ((f c).consumedAt = none → c.consumedAt = none))
    (h : d'.challenges = Table.update p f d.challenges) : CodesFrom d d' := by
  intro c hc
  rw [h] at hc
  obtain ⟨c₀, hc₀, rfl⟩ := Table.mem_update.1 hc
  refine ⟨c₀, hc₀, ?_⟩
  split
  · exact hf c₀
  · exact ⟨rfl, id⟩

theorem CodesFrom.of_delete {p : Challenge → Bool}
    (h : d'.challenges = Table.delete p d.challenges) : CodesFrom d d' := by
  intro c hc
  rw [h] at hc
  exact ⟨c, (Table.mem_delete.1 hc).1, rfl, id⟩

theorem codesFrom_consumeWhere (p : Challenge → Bool) : CodesFrom d (consumeWhere now p d) := by
  refine .of_update (fun c => ?_) rfl
  exact ⟨rfl, fun h => by cases h⟩

theorem SessionsFrom.of_eq (h : d'.accessSessions = d.accessSessions) : SessionsFrom d d' :=
  fun _ ha => h ▸ ha

theorem SessionsFrom.of_delete {p : AccessSessionRow → Bool}
    (h : d'.accessSessions = Table.delete p d.accessSessions) : SessionsFrom d d' :=
  fun _ ha => (Table.mem_delete.1 (h ▸ ha)).1

/-- A quiet step that creates no row. -/
theorem Quiet.tracks (hq : Quiet d d') (hs : SessionsFrom d d') (hc : CodesFrom d d') :
    Tracks d d' none none none where
  session := fun a ha => .inr ⟨hs a ha, hq.not_endsLink _⟩
  code := by
    intro c hcm
    obtain ⟨c₀, hc₀, he, hn⟩ := hc c hcm
    exact .inr ⟨c₀, hc₀, he, fun h => ⟨hn h, hq.not_linkChanged _,
      fun x _ => hq.not_personRemoved x⟩⟩
  person := fun x hx => .inl (hq.person x hx)
  linkIds := hq.linkIds
  link := by
    intro l link hl
    obtain ⟨x, hx, h1, -⟩ := hq.link l link hl
    exact ⟨x, hx, h1⟩
  case := by
    intro k c hk
    obtain ⟨x, hx, h1⟩ := hq.case k c hk
    exact ⟨x, hx, .inl h1⟩

/-- A step that only touches other tables. -/
theorem Tracks.of_eq (hl : d'.links = d.links) (hc : d'.cases = d.cases)
    (hp : d'.linkRecipients = d.linkRecipients) (hs : d'.accessSessions = d.accessSessions)
    (hch : d'.challenges = d.challenges) : Tracks d d' none none none :=
  (Quiet.of_eq hl hc hp).tracks (.of_eq hs) (.of_eq hch)

/-! ## Statements of the services -/

/-- An update of a link that keeps its case, its token and whether it is revoked. -/
theorem quiet_updateLink {p : Link → Bool} {f : Link → Link}
    (hf : ∀ x, (f x).id = x.id ∧ x.Kept (f x) ∧ (f x).tokenHash = x.tokenHash ∧
      (f x).revokedAt = x.revokedAt) : Quiet d (updateLink id p f d) where
  linkIds := by
    rw [updateLink_ids fun x => (hf x).1]
    exact fun h => h
  link := by
    intro l link hl
    rw [getLink_updateLink fun x => (hf x).1, hl]
    refine ⟨_, rfl, ?_⟩
    simp only []
    split
    · exact (hf link).2
    · exact ⟨.refl link, rfl, rfl⟩
  case := fun k c hk => ⟨c, hk, rfl⟩
  person := fun x hx => ⟨x, hx, rfl, rfl⟩

/-- A link that is used up stays so when an opening is counted. -/
theorem kept_opening (l : Link) :
    l.Kept { l with opensUsed := l.opensUsed + 1, lastUsedAt := some now } where
  case := rfl
  expires := rfl
  exhausted := by
    simp only [Link.isExhausted]
    cases l.maxOpens with
    | none => exact id
    | some m => simpa using fun h => Nat.le_succ_of_le h

theorem quiet_registerOpen : Quiet d (registerOpen now id d).2 :=
  quiet_updateLink fun x => ⟨rfl, kept_opening x, rfl, rfl⟩

theorem quiet_touchLink : Quiet d (touchLink now id d) :=
  quiet_updateLink fun _ => ⟨rfl, ⟨rfl, rfl, fun h => h⟩, rfl, rfl⟩

theorem quiet_recordRecipientOpen : Quiet d (recordRecipientOpen now id d) where
  linkIds := fun h => h
  link := fun l link hl => ⟨link, hl, .refl link, rfl, rfl⟩
  case := fun k c hk => ⟨c, hk, rfl⟩
  person := by
    intro x hx
    refine ⟨_, Table.mem_update.2 ⟨x, hx, rfl⟩, ?_⟩
    split <;> exact ⟨rfl, rfl⟩

/-- Rows at the end of the tables change no row that is there. -/
theorem quiet_append {cs : List Case} {ls : List Link} {rs : List LinkRecipient}
    (hc : d'.cases = d.cases ++ cs) (hl : d'.links = d.links ++ ls)
    (hn : (d.links.map (·.id)).Nodup → (d'.links.map (·.id)).Nodup)
    (hr : d'.linkRecipients = d.linkRecipients ++ rs) : Quiet d d' where
  linkIds := hn
  link := by
    intro l link h
    exact ⟨link, by rw [getLink, hl]; exact find?_append_of_some h, .refl link, rfl, rfl⟩
  case := by
    intro k c h
    exact ⟨c, by rw [getCase, hc]; exact find?_append_of_some h, rfl⟩
  person := by
    intro x hx
    exact ⟨x, by rw [hr]; exact List.mem_append_left _ hx, rfl, rfl⟩

/-- An update of cases that keeps the status of the one it names. -/
theorem quiet_updateCase {f : Case → Case} {c : Case} (hc : getCase id d = some c)
    (hf : ∀ x, (f x).id = x.id ∧ (f x).status = c.status) :
    Quiet d { d with cases := Table.update (fun x => x.id == id) f d.cases } where
  linkIds := fun h => h
  link := fun l link hl => ⟨link, hl, .refl link, rfl, rfl⟩
  case := by
    intro k x hk
    rw [getCase_update (fun x => (hf x).1) rfl, hk]
    refine ⟨_, rfl, ?_⟩
    simp only []
    split
    · rename_i hid
      have hkid : k = id := (getCase_id hk).symm.trans (by simpa using hid)
      subst hkid
      rw [hc] at hk
      cases hk
      exact (hf c).2
    · rfl
  person := fun x hx => ⟨x, hx, rfl, rfl⟩

/-- What is open on a link ends with the change of the link. -/
theorem tracks_changeLink {f : Link → Link}
    {p : Link → Bool} (hf : ∀ x, (f x).id = x.id ∧ x.Kept (f x)) :
    Tracks d (destroyAccessSessionsForLink now id (updateLink id p f d)) none none none := by
  have hlink : ∀ l, getLink l (destroyAccessSessionsForLink now id (updateLink id p f d)) =
      (getLink l d).map fun x => if x.id == id && p x then f x else x :=
    fun l => getLink_updateLink fun x => (hf x).1
  have hother : ∀ l, l ≠ id → ¬ LinkChanged l d
      (destroyAccessSessionsForLink now id (updateLink id p f d)) := by
    rintro l hne ⟨x, x', hx, hx', hch⟩
    rw [hlink, hx, Option.map_some, if_neg (by simp [getLink_id hx, hne])] at hx'
    cases hx'
    rcases hch with ⟨h0, h1⟩ | h1
    · exact h1 h0
    · exact h1 rfl
  have hcases : ∀ l, ¬ CaseCloses l d
      (destroyAccessSessionsForLink now id (updateLink id p f d)) := by
    rintro l ⟨x, -, ⟨c, hc, hopen⟩, ⟨c', hc', hclosed⟩⟩
    have he : some c = some c' := hc.symm.trans hc'
    cases he
    rw [hopen] at hclosed
    cases hclosed
  constructor
  · intro a ha
    obtain ⟨hmem, hne⟩ := Table.mem_delete.1 ha
    exact .inr ⟨hmem, fun he => he.elim (hother _ (by simpa using hne)) (hcases _)⟩
  · intro c hc
    obtain ⟨c₀, hc₀, rfl⟩ := Table.mem_update.1 hc
    refine .inr ⟨c₀, hc₀, by split <;> rfl, ?_⟩
    split
    · rintro ⟨⟩
    · rename_i hp
      intro hn
      refine ⟨hn, ?_, fun x _ => ?_⟩
      · refine hother _ fun hid => hp ?_
        simp [hid, hn]
      · rintro ⟨⟨y, hy, rfl⟩, hno⟩
        exact hno y hy rfl
  · exact fun x hx => .inl ⟨x, hx, rfl, rfl⟩
  · have hids : (updateLink id p f d).links.map (·.id) = d.links.map (·.id) :=
      updateLink_ids fun x => (hf x).1
    exact fun hn => hids ▸ hn
  · intro l link hl
    rw [hlink, hl]
    refine ⟨_, rfl, ?_⟩
    simp only []
    split
    · exact (hf link).2
    · exact .refl link
  · exact fun k c hk => ⟨c, hk, .inl rfl⟩

/-- A person takes their codes and their sessions along. -/
theorem tracks_deleteRecipient : Tracks d (deleteRecipient id d) none none none := by
  have hq : ∀ l, ¬ EndsLink l d (deleteRecipient id d) := by
    intro l
    have h : Quiet d { deleteRecipient id d with linkRecipients := d.linkRecipients } :=
      .of_eq rfl rfl rfl
    exact h.not_endsLink l
  constructor
  · intro a ha
    exact .inr ⟨(Table.mem_delete.1 ha).1, hq _⟩
  · intro c hc
    obtain ⟨hmem, hne⟩ := Table.mem_delete.1 hc
    refine .inr ⟨c, hmem, rfl, fun hn => ⟨hn, fun h => hq _ (.inl h), ?_⟩⟩
    rintro x hx ⟨⟨y, hy, rfl⟩, hno⟩
    refine hno y (Table.mem_delete.2 ⟨hy, ?_⟩) rfl
    have hxid : ¬ some y.id = some id := by simpa [hx] using hne
    simpa using hxid
  · intro x hx
    by_cases hid : x.id = id
    · subst hid
      refine .inr ⟨fun a ha => ?_, fun c hc => ?_⟩
      · simpa using (Table.mem_delete.1 ha).2
      · simpa using (Table.mem_delete.1 hc).2
    · exact .inl ⟨x, Table.mem_delete.2 ⟨hx, by simpa using hid⟩, rfl, rfl⟩
  · exact fun h => h
  · exact fun l link hl => ⟨link, hl, .refl link⟩
  · exact fun k c hk => ⟨c, hk, .inl rfl⟩

/-- The case is closed or opened; a closed case ends its sessions. -/
theorem tracks_status {status : CaseStatus} {f : Case → Case}
    (hf : ∀ x, (f x).id = x.id ∧ (f x).status = status) (hd : d'.cases = d.cases)
    (hcases : d''.cases = Table.update (fun x => x.id == id) f d'.cases)
    (hl : d''.links = d.links) (hp : d''.linkRecipients = d.linkRecipients)
    (hch : d''.challenges = d.challenges)
    (hs : d''.accessSessions = (if status = .isClosed then
      Table.delete (fun r => d.links.any fun l => l.id == r.linkId && l.caseId == id)
        d.accessSessions else d.accessSessions)) :
    Tracks d d'' none none (some (id, status)) := by
  have hlink : ∀ l, getLink l d'' = getLink l d := fun l => by rw [getLink, getLink, hl]
  have hcase : ∀ k, getCase k d'' = (getCase k d).map fun x => if x.id == id then f x else x := by
    intro k
    rw [getCase, hcases, hd]
    exact Table.find?_update (q := fun x : Case => x.id == k) (fun x => by rw [(hf x).1]) d.cases
  have hchanged : ∀ l, ¬ LinkChanged l d d'' := by
    rintro l ⟨x, x', hx, hx', hch⟩
    rw [hlink, hx] at hx'
    cases hx'
    rcases hch with ⟨h0, h1⟩ | h1
    · exact h1 h0
    · exact h1 rfl
  constructor
  · intro a ha
    rw [hs] at ha
    refine .inr ⟨?_, ?_⟩
    · split at ha
      · exact (Table.mem_delete.1 ha).1
      · exact ha
    rintro (h | ⟨l, hl', ⟨c, hc, hopen⟩, ⟨c', hc', hclosed⟩⟩)
    · exact hchanged _ h
    rw [hcase, hc, Option.map_some] at hc'
    obtain rfl := Option.some.inj hc'
    by_cases hid : c.id = id
    · rw [if_pos (by simpa using hid), (hf c).2] at hclosed
      rw [if_pos hclosed] at ha
      have hno := (Table.mem_delete.1 ha).2
      rw [List.any_eq_false] at hno
      refine hno l (List.mem_of_find?_eq_some hl') ?_
      simp [getLink_id hl', ← hid, getCase_id hc]
    · rw [if_neg (by simpa using hid), hopen] at hclosed
      cases hclosed
  · intro c hc
    refine .inr ⟨c, hch ▸ hc, rfl, fun hn => ⟨hn, hchanged _, ?_⟩⟩
    rintro x - ⟨⟨y, hy, rfl⟩, hno⟩
    exact hno y (hp ▸ hy) rfl
  · exact fun x hx => .inl ⟨x, hp ▸ hx, rfl, rfl⟩
  · rw [hl]
    exact fun h => h
  · intro l link h
    exact ⟨link, by rw [hlink]; exact h, .refl link⟩
  · intro k c hk
    rw [hcase, hk, Option.map_some]
    refine ⟨_, rfl, ?_⟩
    split
    · rename_i hid
      rw [show k = id from (getCase_id hk).symm.trans (by simpa using hid), (hf c).2]
      exact .inr rfl
    · exact .inl rfl

/-- Of a session that is gone nothing is left to follow. -/
theorem Tracks.after_drop {p : AccessSessionRow → Bool} {granted : Option AccessSessionRow}
    {issued : Option Challenge} {set : Option (String × CaseStatus)}
    (h : Tracks (deleteSessionsWhere p d) d' granted issued set) :
    Tracks d d' granted issued set where
  session := fun a ha => (h.session a ha).imp id fun ⟨hm, he⟩ => ⟨(Table.mem_delete.1 hm).1, he⟩
  code := h.code
  person := h.person
  linkIds := h.linkIds
  link := h.link
  case := h.case

/-! ## The case routes -/

/-- The statements on items and members touch nothing else. -/
theorem tracks_itemChange (h : ItemChange id d d') : Tracks d d' none none none := by
  obtain ⟨p, f, -, rfl⟩ := h
  exact .of_eq rfl rfl rfl rfl rfl

theorem addCaseMember_rest (now : Int) (caseId adminId : String) (d : DeliveryDb) :
    ∃ ms, (addCaseMember now caseId adminId d).2 = { d with caseMembers := ms } := by
  unfold addCaseMember
  split
  · exact ⟨_, rfl⟩
  · exact ⟨_, rfl⟩

theorem work_tracks {req : Request} {s : Signed} {dir : Directory} {route : WorkRoute}
    (h : WorkEffect P cfg req s dir d route d') :
    Tracks d d' none none none ∨ ∃ caseId, route = .caseStatus caseId ∧
      (caseFor s caseId d).isSome = true ∧
      Tracks d d' none none (some (caseId, formStatus req)) := by
  cases h with
  | idle => exact .inl ((Quiet.refl d).tracks (.of_eq rfl) (.of_eq rfl))
  | @newCase c d₁ hc =>
      obtain ⟨-, -, rfl⟩ := createCase_ok hc
      obtain ⟨ms, hms⟩ : ∃ ms, (if s.admin.role = .admin then { d with cases := d.cases ++ [c] }
          else (addCaseMember req.now c.id s.admin.id { d with cases := d.cases ++ [c] }).2) =
          { d with cases := d.cases ++ [c], caseMembers := ms } := by
        split
        · exact ⟨_, rfl⟩
        · exact addCaseMember_rest req.now c.id s.admin.id { d with cases := d.cases ++ [c] }
      rw [hms]
      refine .inl (Quiet.tracks ?_ (.of_eq rfl) (.of_eq rfl))
      exact quiet_append rfl (List.append_nil _).symm id (List.append_nil _).symm
  | @describe id c r d₁ hc hu =>
      rcases updateCase_ok hu with ⟨-, rfl⟩ | ⟨x, name, description, hx, -, rfl⟩
      · exact .inl ((Quiet.refl _).tracks (.of_eq rfl) (.of_eq rfl))
      · refine .inl (Quiet.tracks ?_ (.of_eq rfl) (.of_eq rfl))
        exact quiet_updateCase hx fun _ => ⟨rfl, rfl⟩
  | @status c c' d₁ hc hu =>
      rcases updateCase_ok hu with ⟨h, -⟩ | ⟨x, name, description, hx, -, rfl⟩
      · cases h
      refine .inr ⟨c.id, rfl, by rw [hc]; rfl, ?_⟩
      by_cases hst : formStatus req = .isClosed
      · rw [if_pos hst]
        refine tracks_status ?_ rfl rfl rfl rfl rfl ?_
        · exact fun _ => ⟨rfl, rfl⟩
        · rw [if_pos hst]
          rfl
      · rw [if_neg hst]
        refine tracks_status ?_ rfl rfl rfl rfl rfl ?_
        · exact fun _ => ⟨rfl, rfl⟩
        · rw [if_neg hst]
  | @note id c r d₁ hc hn =>
      obtain ⟨-, -, rfl⟩ := createNote_ok hn
      exact .inl (.of_eq rfl rfl rfl rfl rfl)
  | @newLink id c input r d₁ hc hin hl =>
      obtain ⟨-, -, hfresh, -, rfl⟩ := createLink_ok hl
      refine .inl (Quiet.tracks ?_ (.of_eq rfl) (.of_eq rfl))
      refine quiet_append (List.append_nil _).symm rfl ?_ rfl
      exact fun hn => Table.nodup_append_row hn fun l hl => (hfresh l hl).1
  | @reissue id link url d₁ hl hc hr =>
      rcases rotateLinkToken_ok hr with ⟨h, -⟩ | ⟨-, -, -, rfl⟩
      · cases h
      · exact .inl (tracks_changeLink fun _ => ⟨rfl, rfl, rfl, fun h => h⟩)
  | @people id link input added d₁ hl hc ha =>
      obtain ⟨rfl, -⟩ := addRecipients_ok ha
      refine .inl (Quiet.tracks ?_ (.of_eq rfl) (.of_eq rfl))
      exact quiet_append (List.append_nil _).symm (List.append_nil _).symm (fun h => h) rfl
  | removePerson => exact .inl tracks_deleteRecipient
  | revoke => exact .inl (tracks_changeLink fun _ => ⟨rfl, rfl, rfl, id⟩)
  | item _ _ hi => exact .inl (tracks_itemChange hi)
  | @assign id userId c hc =>
      obtain ⟨ms, hms⟩ := addCaseMember_rest req.now c.id userId d
      rw [hms]
      exact .inl (.of_eq rfl rfl rfl rfl rfl)
  | unassign => exact .inl (.of_eq rfl rfl rfl rfl rfl)
  | @upload route c input r d₁ d₂ hc hin hid hs hd =>
      obtain ⟨-, -, -, rfl⟩ := startUpload_ok hs
      refine .inl ?_
      rcases hd with rfl | ⟨p, f, -, rfl⟩
      · exact .of_eq rfl rfl rfl rfl rfl
      · exact .of_eq rfl rfl rfl rfl rfl

/-! ## The delivery pages -/

/-- The access middleware drops at most a session. -/
theorem accessMiddleware_drops (req : Request) (d : DeliveryDb) :
    ∃ p, (accessMiddleware P req d).2 = deleteSessionsWhere p d := by
  have hsame : d = deleteSessionsWhere (fun _ => false) d := by
    simp only [deleteSessionsWhere, Table.delete_eq_self fun _ _ => rfl]
  rcases accessMiddleware_cases (P := P) req d with ⟨-, h | ⟨id, h, -⟩⟩ | ⟨h, -⟩
  · exact ⟨_, h.trans hsame⟩
  · exact ⟨_, h⟩
  · exact ⟨_, h.trans hsame⟩

/-- What stands before the handlers drops at most a session. -/
theorem enter_drops (r : DeliverRequest) (d : DeliveryDb) :
    ∃ p, (enter P cfg r d).2 = deleteSessionsWhere p d := by
  rcases enter_state (P := P) (r := r) (d := d) rfl with h | h
  · refine ⟨fun _ => false, h.trans ?_⟩
    simp only [deleteSessionsWhere, Table.delete_eq_self fun _ _ => rfl]
  · obtain ⟨p, hp⟩ := accessMiddleware_drops (P := P) r.toRequest d
    exact ⟨p, h.trans hp⟩

theorem Entered.drops {r : DeliverRequest} {v : Visit} (h : Entered P cfg r d v d') :
    ∃ p, d' = deleteSessionsWhere p d := by
  obtain ⟨p, hp⟩ := accessMiddleware_drops (P := P) r.toRequest d
  rw [h.access] at hp
  exact ⟨p, hp⟩

theorem Quiet.tracks_granted {a : AccessSessionRow} (hq : Quiet d d') (hc : CodesFrom d d')
    (hs : d'.accessSessions = d.accessSessions ++ [a]) : Tracks d d' (some a) none none where
  session := by
    intro x hx
    rw [hs] at hx
    rcases List.mem_append.1 hx with hx | hx
    · exact .inr ⟨hx, hq.not_endsLink _⟩
    · rw [List.mem_singleton.1 hx]
      exact .inl rfl
  code := by
    intro c hcm
    obtain ⟨c₀, hc₀, he, hn⟩ := hc c hcm
    exact .inr ⟨c₀, hc₀, he, fun h => ⟨hn h, hq.not_linkChanged _,
      fun x _ => hq.not_personRemoved x⟩⟩
  person := fun x hx => .inl (hq.person x hx)
  linkIds := hq.linkIds
  link := by
    intro l link hl
    obtain ⟨x, hx, h1, -⟩ := hq.link l link hl
    exact ⟨x, hx, h1⟩
  case := by
    intro k c hk
    obtain ⟨x, hx, h1⟩ := hq.case k c hk
    exact ⟨x, hx, .inl h1⟩

/-- The person a pending code belongs to is among those of its link. -/
theorem recipient_found {recipientId : Option String} {linkId : String}
    (h : OnLink recipientId linkId d) :
    ((listRecipients linkId d).find? fun x => some x.id == recipientId).map (·.id) =
      recipientId := by
  obtain ⟨x, hx, rfl, hl⟩ := h
  have hmem : x ∈ listRecipients linkId d := List.mem_filter.2 ⟨hx, by simpa using hl⟩
  cases hf : (listRecipients linkId d).find? fun y => some y.id == some x.id with
  | none =>
      rw [List.find?_eq_none] at hf
      exact absurd (by simp) (hf x hmem)
  | some y => simpa using List.find?_some hf

/-- The delivery page and its form write at most when a link was last used. -/
theorem showDelivery_tracks {r : DeliverRequest} {v : Visit} :
    Tracks d (showDelivery P cfg r v d).state none none none := by
  have hknock : ∀ view,
      Tracks d (showDelivery.knock P cfg r v d view).state none none none := fun _ =>
    quiet_touchLink.tracks (.of_eq rfl) (.of_eq rfl)
  unfold showDelivery
  simp only []
  split
  · split
    · exact (Quiet.refl d).tracks (.of_eq rfl) (.of_eq rfl)
    · exact hknock _
  · exact hknock _

theorem tracks_createChallenge {draw : ChallengeDraw} {input : ChallengeInput}
    {r : Challenge × String} (h : createChallenge P cfg now draw input d = .ok (r, d')) :
    Tracks d d' none (some (newChallenge P cfg now draw input)) none := by
  obtain ⟨-, -, -, -, -, rfl⟩ := createChallenge_ok h
  have hold : Tracks d (consumeWhere now (fun c => c.recipientId == some input.recipientId) d)
      none none none :=
    Quiet.tracks (.of_eq rfl rfl rfl) (.of_eq rfl) (codesFrom_consumeWhere _)
  constructor
  · exact hold.session
  · intro y hy
    rcases List.mem_append.1 hy with hy | hy
    · exact (hold.code y hy).imp (by rintro ⟨⟩) id
    · rw [List.mem_singleton.1 hy]
      exact .inl rfl
  · exact fun y hy => .inl ⟨y, hy, rfl, rfl⟩
  · exact hold.linkIds
  · exact hold.link
  · exact hold.case

theorem Tracks.refl (d : DeliveryDb) : Tracks d d none none none :=
  (Quiet.refl d).tracks (.of_eq rfl) (.of_eq rfl)

theorem postEmail_tracks {r : DeliverRequest} {v : Visit} :
    Tracks d (postEmail P cfg r v d).state none none none ∨ ∃ x ∈ v.resolved.recipients,
      Tracks d (postEmail P cfg r v d).state none
        (some (newChallenge P cfg r.now r.challengeDraw (v.challengeInput r x))) none := by
  unfold postEmail
  simp only []
  split
  · exact .inl (.refl d)
  split
  · exact .inl (.refl d)
  rename_i x hx
  split
  · exact .inl (.refl d)
  · exact .inl (.refl d)
  rename_i c code d' hc
  refine .inr ⟨x, List.mem_of_find?_eq_some hx, ?_⟩
  split
  · exact tracks_createChallenge hc
  · exact tracks_createChallenge hc

theorem tracks_createAccessSession {d₁ : DeliveryDb} {draw : AccessDraw} {linkId : String}
    {recipientId ip : Option String} {x : String × AccessSession} (hq : Quiet d d₁)
    (hc : CodesFrom d d₁) (hs : d₁.accessSessions = d.accessSessions)
    (h : createAccessSession P cfg now draw linkId recipientId ip d₁ = .ok (x, d')) :
    (∀ a ∈ d.accessSessions, a.idHash ≠ P.sha256Hex draw.sessionId) ∧
      Tracks d d' (some (newAccessSession P cfg now draw linkId recipientId ip)) none none := by
  obtain ⟨hfresh, -, rfl⟩ := createAccessSession_ok h
  refine ⟨hs ▸ hfresh, Quiet.tracks_granted (hq.trans (.of_eq rfl rfl rfl)) ?_ ?_⟩
  · exact hc.trans (.of_eq rfl)
  · exact congrArg (· ++ _) hs

/-- What follows an accepted code: nothing, or one session for its person. -/
theorem openSession_tracks {r : DeliverRequest} {v : Visit} {recipientId : Option String}
    {d₀ : DeliveryDb} (hq : Quiet d₀ d) (hc : CodesFrom d₀ d)
    (hs : d.accessSessions = d₀.accessSessions) (hl : d.links = d₀.links)
    (hfound : (v.resolved.recipients.find? fun x => some x.id == recipientId).map (·.id) =
      recipientId) :
    Tracks d₀ (openSession P cfg r v recipientId d).state none none none ∨
      changesLink v.resolved.link.id Link.mayOpen d₀ = true ∧
      (∀ x ∈ d₀.accessSessions, x.idHash ≠ P.sha256Hex r.random.sessionId) ∧
      Tracks d₀ (openSession P cfg r v recipientId d).state
        (some (newAccessSession P cfg r.now ⟨r.random.sessionId, r.random.csrfToken⟩
          v.resolved.link.id recipientId r.ip)) none none := by
  have hopened : Quiet d₀ (registerOpen r.now v.resolved.link.id d).2 :=
    hq.trans quiet_registerOpen
  unfold openSession
  simp only []
  split
  · exact .inl (hopened.tracks (.of_eq hs) (hc.trans (.of_eq rfl)))
  rename_i hcounted
  have hmay : changesLink v.resolved.link.id Link.mayOpen d₀ = true := by
    simpa [registerOpen, changesLink, hl] using hcounted
  rw [hfound]
  cases v.resolved.recipients.find? fun x => some x.id == recipientId with
  | some x =>
      have hrecorded : Quiet d₀ (recordRecipientOpen r.now x.id
          (registerOpen r.now v.resolved.link.id d).2) := hopened.trans quiet_recordRecipientOpen
      simp only []
      split
      · exact .inl (hrecorded.tracks (.of_eq hs) (hc.trans (.of_eq rfl)))
      · rename_i hcreate
        exact .inr ⟨hmay, tracks_createAccessSession hrecorded (hc.trans (.of_eq rfl)) hs hcreate⟩
  | none =>
      simp only []
      split
      · exact .inl (hopened.tracks (.of_eq hs) (hc.trans (.of_eq rfl)))
      · rename_i hcreate
        exact .inr ⟨hmay, tracks_createAccessSession hopened (hc.trans (.of_eq rfl)) hs hcreate⟩

theorem codesFrom_verify {input : VerifyInput} :
    CodesFrom d (verifyChallenge P cfg now input d).2 := by
  have h := verified P cfg now input d
  generalize verifyChallenge P cfg now input d = out at h
  cases h with
  | nothing => exact .of_eq rfl
  | accepted => exact codesFrom_consumeWhere _
  | exhausted =>
      refine .of_update (fun c => ?_) rfl
      exact ⟨rfl, fun h => by cases h⟩
  | wrong =>
      refine .of_update (fun c => ?_) rfl
      exact ⟨rfl, id⟩

theorem postCode_tracks {r : DeliverRequest} {v : Visit} {token : String}
    (hres : resolveToken P r.now token d = some v.resolved)
    (hfk : ∀ c ∈ d.challenges, OnLink c.recipientId c.linkId d) :
    Tracks d (postCode P cfg r v d).state none none none ∨ ∃ c,
      pendingRow P r.now v.resolved.link.id v.flowToken d = some c ∧
      acceptsCode P (codeFromBody r) c = true ∧
      changesLink v.resolved.link.id Link.mayOpen d = true ∧
      (∀ x ∈ d.accessSessions, x.idHash ≠ P.sha256Hex r.random.sessionId) ∧
      Tracks d (postCode P cfg r v d).state
        (some (newAccessSession P cfg r.now ⟨r.random.sessionId, r.random.csrfToken⟩
          v.resolved.link.id c.recipientId r.ip)) none none := by
  have hcodes : CodesFrom d (verifyChallenge P cfg r.now (v.verifyInput r) d).2 :=
    codesFrom_verify
  have hver := verified P cfg r.now (v.verifyInput r) d
  have hquiet : Quiet d (verifyChallenge P cfg r.now (v.verifyInput r) d).2 ∧
      (verifyChallenge P cfg r.now (v.verifyInput r) d).2.accessSessions = d.accessSessions ∧
      (verifyChallenge P cfg r.now (v.verifyInput r) d).2.links = d.links := by
    generalize verifyChallenge P cfg r.now (v.verifyInput r) d = out at hver
    cases hver <;> exact ⟨.of_eq rfl rfl rfl, rfl, rfl⟩
  unfold postCode
  simp only []
  generalize verifyChallenge P cfg r.now (v.verifyInput r) d = out at hver hcodes hquiet
  cases hver with
  | nothing h => exact .inl (hquiet.1.tracks (.of_eq hquiet.2.1) hcodes)
  | exhausted row h hno hmax => exact .inl (hquiet.1.tracks (.of_eq hquiet.2.1) hcodes)
  | wrong row h hno hlt => exact .inl (hquiet.1.tracks (.of_eq hquiet.2.1) hcodes)
  | accepted row h hok =>
      obtain ⟨hmem, hlink, -⟩ := pendingRow_some h
      obtain ⟨-, -, -, -, -, hrecipients⟩ := resolveToken_some hres
      have hfound := recipient_found (hfk row hmem)
      rw [hlink, show (v.verifyInput r).linkId = v.resolved.link.id from rfl, ← hrecipients]
        at hfound
      rcases openSession_tracks (P := P) (r := r) hquiet.1 hcodes hquiet.2.1 hquiet.2.2 hfound with
        h' | h'
      · exact .inl h'
      · exact .inr ⟨row, h, hok, h'⟩

/-- One request to a delivery page. -/
theorem deliver_tracks (r : DeliverRequest)
    (hfk : ∀ c ∈ d.challenges, OnLink c.recipientId c.linkId d) :
    ∃ granted issued, Tracks d (deliver P cfg r d).state granted issued none ∧
      (∀ a, granted = some a → ∃ c, GrantedBy P cfg c a (.deliver r) d) ∧
      ∀ c, issued = some c → IssuedBy P cfg c (.deliver r) d := by
  obtain ⟨p, hdrop⟩ := enter_drops (P := P) r d
  unfold deliver
  cases henter : enter P cfg r d with
  | mk result d₁ =>
      rw [henter] at hdrop
      simp only at hdrop
      cases result with
      | error response =>
          refine ⟨none, none, ?_, by rintro _ ⟨⟩, by rintro _ ⟨⟩⟩
          rw [hdrop]
          exact Tracks.after_drop (.refl _)
      | ok v =>
          have hent := enter_ok henter
          simp only []
          have hidle : Tracks d₁ (r.route.handle P cfg r v d₁).state none none none →
              ∃ granted issued, Tracks d (r.route.handle P cfg r v d₁).state granted issued none ∧
                (∀ a, granted = some a → ∃ c, GrantedBy P cfg c a (.deliver r) d) ∧
                ∀ c, issued = some c → IssuedBy P cfg c (.deliver r) d := by
            intro h
            refine ⟨none, none, ?_, by rintro _ ⟨⟩, by rintro _ ⟨⟩⟩
            rw [hdrop] at h
            rw [hdrop]
            exact h.after_drop
          have hdropped : ∀ {d₂ : DeliveryDb} {granted : Option AccessSessionRow}
              {issued : Option Challenge}, Tracks d₁ d₂ granted issued none →
              Tracks d d₂ granted issued none := by
            intro d₂ granted issued h
            rw [hdrop] at h
            exact h.after_drop
          have hfk₁ : ∀ c ∈ d₁.challenges, OnLink c.recipientId c.linkId d₁ := by
            rw [hdrop]
            exact hfk
          cases hroute : r.route with
          | page =>
              rw [hroute] at hidle
              exact hidle showDelivery_tracks
          | email =>
              rcases postEmail_tracks (P := P) (d := d₁) (r := r) (v := v) with
                h | ⟨x, hx, h⟩
              · rw [hroute] at hidle
                exact hidle h
              · refine ⟨_, _, hdropped h, by rintro _ ⟨⟩, ?_⟩
                rintro c ⟨⟩
                exact ⟨r, v, rfl, hroute, ⟨d₁, hent⟩, x, hx, rfl⟩
          | code =>
              rcases postCode_tracks (P := P) hent.resolved hfk₁ with
                h | ⟨c, hc, hok, hmay, hfresh, h⟩
              · rw [hroute] at hidle
                exact hidle h
              · refine ⟨_, _, hdropped h, ?_, by rintro _ ⟨⟩⟩
                rintro a ⟨⟩
                exact ⟨c, r, v, rfl, hroute, ⟨d₁, hent, hc, hmay, hfresh⟩, hok, rfl⟩
          | restart =>
              rw [hroute] at hidle
              refine hidle (Quiet.tracks ?_ ?_ ?_)
              · exact .of_eq rfl rfl rfl
              · exact .of_eq rfl
              · exact codesFrom_consumeWhere _
          | close =>
              rw [hroute] at hidle
              refine hidle ?_
              simp only [DeliverRoute.handle, postClose]
              split
              · exact .refl _
              · refine Quiet.tracks ?_ ?_ ?_
                · exact .of_eq rfl rfl rfl
                · exact .of_delete rfl
                · exact .of_eq rfl
          | file itemId =>
              rw [hroute] at hidle
              refine hidle ?_
              have hstate : (getFile itemId r v d₁).state = d₁ := by
                unfold getFile
                simp only []
                split
                · rfl
                split
                · rfl
                split
                · rfl
                split <;> rfl
              simp only [DeliverRoute.handle, hstate]
              exact .refl _

/-- A request for a code touches codes alone, and drops at most a session. -/
theorem quiet_deliver_email {r : DeliverRequest} (hr : r.route = .email) :
    Quiet d (deliver P cfg r d).state := by
  obtain ⟨p, hdrop⟩ := enter_drops (P := P) r d
  unfold deliver
  cases henter : enter P cfg r d with
  | mk result d₁ =>
      rw [henter] at hdrop
      simp only at hdrop
      have hq : Quiet d d₁ := hdrop ▸ .of_eq rfl rfl rfl
      cases result with
      | error response => exact hq
      | ok v =>
          refine hq.trans ?_
          simp only [hr, DeliverRoute.handle, postEmail]
          split
          · exact .refl d₁
          split
          · exact .refl d₁
          split
          · exact .refl d₁
          · exact .refl d₁
          rename_i hc
          obtain ⟨-, -, -, -, -, rfl⟩ := createChallenge_ok hc
          split
          · exact .of_eq rfl rfl rfl
          · exact .of_eq rfl rfl rfl

/-! ## Codes that were sent, codes that were accepted -/

theorem issued_inj {c c₀ : Challenge} (h : c.issued = c₀.issued) :
    c.linkId = c₀.linkId ∧ c.recipientId = c₀.recipientId ∧ c.flowHash = c₀.flowHash := by
  simp only [Challenge.issued, Challenge.mk.injEq] at h
  exact ⟨h.2.1, h.2.2.1, h.2.2.2.2.1⟩

theorem CodeSent.of_issued {r : DeliverRequest} {v : Visit} {c c₀ : Challenge}
    (h : CodeSent P cfg r v c₀ d) (he : c.issued = c₀.issued) : CodeSent P cfg r v c d := by
  obtain ⟨x, hx, hc⟩ := h.person
  exact ⟨h.route, h.entered, x, hx, he.trans hc⟩

/-- Attempts and use do not change where a challenge came from. -/
theorem Sent.of_issued {c c₀ : Challenge} {e : ServerEvent} (h : Sent P cfg c₀ e)
    (he : c.issued = c₀.issued) : Sent P cfg c e := by
  obtain ⟨⟨c₁, hc₁, h₁⟩, r, v, hin, hsent⟩ := h
  exact ⟨⟨c₁, hc₁, h₁.trans he.symm⟩, r, v, hin, hsent.of_issued he⟩

/-- A person a request saw on its link was on it when the request came. -/
theorem onLink_of_entered {r : DeliverRequest} {v : Visit} {d d₁ : DeliveryDb}
    (he : Entered P cfg r d v d₁) {x : LinkRecipient} (hx : x ∈ v.resolved.recipients) :
    x ∈ d.linkRecipients ∧ x.linkId = v.resolved.link.id := by
  obtain ⟨p, rfl⟩ := he.drops
  obtain ⟨-, -, -, -, -, hrec⟩ := resolveToken_some he.resolved
  rw [hrec] at hx
  obtain ⟨hmem, hid⟩ := List.mem_filter.1 hx
  exact ⟨hmem, by simpa using hid⟩

/-- The code a session was opened for. -/
theorem granted_code {r : DeliverRequest} {v : Visit} {c : Challenge} {a : AccessSessionRow}
    {d : DeliveryDb} (hg : CodeAccepted P cfg r v c a d) :
    c ∈ d.challenges ∧ a.recipientId = c.recipientId ∧ a.linkId = c.linkId ∧
      a.linkId = v.resolved.link.id ∧ c.flowHash = P.sha256Hex v.flowToken := by
  obtain ⟨d₁, hent, hrow, -, -⟩ := hg.entered
  obtain ⟨p, rfl⟩ := hent.drops
  obtain ⟨hmem, hlink, hflow, -⟩ := pendingRow_some hrow
  have ho := hg.opened
  subst ho
  exact ⟨hmem, rfl, hlink.symm, rfl, hflow⟩

/-! ## The panel -/

/-- A request to the panel is refused by `requireAdmin`, refused by a later guard,
or handled; what stands before a handler writes to the accounts alone. -/
theorem panel_state (r : PanelRequest) (sv : Server) :
    (∃ accounts, (panel P cfg r sv).state = { sv with accounts := accounts }) ∨
      ∃ s accounts, Admitted P cfg r s sv ∧
        accounts =
          (offerMiddleware P cfg r s (sessionMiddleware P r.toRequest sv.accounts).2).2 ∧
        (panel P cfg r sv).state =
          (r.route.handle P cfg r.toRequest s { sv with accounts := accounts }).state := by
  unfold panel
  simp only []
  cases hs : requireAdmin P cfg r (sessionMiddleware P r.toRequest sv.accounts).1 with
  | error response => exact .inl ⟨_, rfl⟩
  | ok s =>
      simp only [servePanel]
      cases hr : refusal P cfg r s sv.deliveries with
      | some response => exact .inl ⟨_, rfl⟩
      | none => exact .inr ⟨s, _, ⟨hs, hr⟩, rfl, rfl⟩

/-- The account routes of the administrators take an account's name off the
deliveries, or leave them. -/
theorem UserEffect.deliveries_eq {route : UserRoute} {req : Request} {s : Signed}
    {db db' : Tables} (h : UserEffect P req s db route db') :
    db'.deliveries = db.deliveries ∨ ∃ id, db'.deliveries = db.deliveries.forgetAdmin id := by
  cases h with
  | deleted => exact .inr ⟨_, rfl⟩
  | _ => exact .inl rfl

theorem panel_tracks (r : PanelRequest) (sv : Server) :
    ∃ set, Tracks sv.deliveries (panel P cfg r sv).state.deliveries none none set ∧
      ∀ caseId status, set = some (caseId, status) →
        SetsStatus P cfg caseId status (.panel r) sv := by
  have hidle : ∀ {d' : DeliveryDb}, d' = sv.deliveries → ∃ set,
      Tracks sv.deliveries d' none none set ∧ ∀ caseId status, set = some (caseId, status) →
        SetsStatus P cfg caseId status (.panel r) sv := by
    rintro d' rfl
    exact ⟨none, .refl _, by rintro _ _ ⟨⟩⟩
  rcases panel_state (P := P) r sv with ⟨accounts, h⟩ | ⟨s, accounts, hadm, -, h⟩
  · rw [h]
    exact hidle rfl
  rw [h]
  cases hroute : r.route with
  | pending route => exact hidle rfl
  | settings route => exact hidle rfl
  | groups route => exact hidle rfl
  | audit => exact hidle rfl
  | work route =>
      have heff := workEffect P cfg route r.toRequest s ⟨accounts, sv.groups⟩ sv.deliveries
      rcases work_tracks heff with ht | ⟨caseId, rfl, hc, ht⟩
      · exact ⟨none, ht, by rintro _ _ ⟨⟩⟩
      · refine ⟨_, ht, ?_⟩
        rintro k st h
        cases h
        exact ⟨r, s, rfl, hroute, rfl, hadm, hc⟩
  | users route =>
      have heff := userEffect P route r.toRequest s ⟨accounts, sv.deliveries, sv.groups⟩
      rcases heff.deliveries_eq with hd | ⟨id, hd⟩
      · exact hidle hd
      · refine ⟨none, ?_, by rintro _ _ ⟨⟩⟩
        have hd : (PanelRoute.handle P cfg (.users route) r.toRequest s
            { sv with accounts := accounts }).state.deliveries = sv.deliveries.forgetAdmin id := hd
        rw [hd]
        exact .of_eq rfl rfl rfl rfl rfl

/-! ## Housekeeping, and every step -/

theorem expireUploads_rest (items : List ItemRow) (d : DeliveryDb) :
    ∃ is, (expireUploads items d).2 = { d with items := is } := by
  induction items generalizing d with
  | nil => exact ⟨_, rfl⟩
  | cons item items ih =>
      obtain ⟨is, h⟩ := ih (failUpload item.id .expired d).2
      exact ⟨is, h⟩

theorem flagMissing_rest (items : List ItemRow) (d : DeliveryDb) :
    ∃ is, (flagMissing items d).2 = { d with items := is } := by
  induction items generalizing d with
  | nil => exact ⟨_, rfl⟩
  | cons item items ih =>
      obtain ⟨is, h⟩ := ih (markMissing item.id d)
      exact ⟨is, h⟩

theorem cleanup_tracks (run : CleanupRun) (sv : Server) :
    Tracks sv.deliveries (runCleanup run sv).1.deliveries none none none := by
  obtain ⟨is, h⟩ := expireUploads_rest (listStaleUploads run.now run.ttlMs sv.deliveries)
    sv.deliveries
  unfold runCleanup
  simp only [h]
  obtain ⟨is', h'⟩ := flagMissing_rest
    ((listReadyFiles { sv.deliveries with items := is }).filter fun i => run.isGone i.id)
    { sv.deliveries with items := is }
  rw [h']
  refine Quiet.tracks ?_ ?_ ?_
  · exact .of_eq rfl rfl rfl
  · exact .of_delete rfl
  · exact .of_delete rfl

/-- What one step of the server does to the deliveries. -/
theorem step_tracks (sv : Server) (i : Input)
    (hfk : ∀ c ∈ sv.deliveries.challenges, OnLink c.recipientId c.linkId sv.deliveries) :
    ∃ granted issued set,
      Tracks sv.deliveries (sv.step P cfg i).1.deliveries granted issued set ∧
      (∀ a, granted = some a → ∃ c, GrantedBy P cfg c a i sv.deliveries) ∧
      (∀ c, issued = some c → IssuedBy P cfg c i sv.deliveries) ∧
      ∀ caseId status, set = some (caseId, status) → SetsStatus P cfg caseId status i sv := by
  cases i with
  | deliver r =>
      obtain ⟨granted, issued, ht, hg, hi⟩ := deliver_tracks (P := P) r hfk
      exact ⟨granted, issued, none, ht, hg, hi, by rintro _ _ ⟨⟩⟩
  | visit r =>
      refine ⟨none, none, none, ?_, by rintro _ ⟨⟩, by rintro _ ⟨⟩, by rintro _ _ ⟨⟩⟩
      have hsame : (visit P cfg r sv).state.deliveries = sv.deliveries := by
        unfold visit
        simp only []
        split <;> rfl
      have hd : (sv.step P cfg (.visit r)).1.deliveries = sv.deliveries := hsame
      rw [hd]
      exact .refl _
  | panel r =>
      obtain ⟨set, ht, hs⟩ := panel_tracks (P := P) r sv
      exact ⟨none, none, set, ht, by rintro _ ⟨⟩, by rintro _ ⟨⟩, hs⟩
  | cleanup run =>
      exact ⟨none, none, none, cleanup_tracks run sv, by rintro _ ⟨⟩, by rintro _ ⟨⟩,
        by rintro _ _ ⟨⟩⟩
  | cli now draw command =>
      exact ⟨none, none, none, .refl _, by rintro _ ⟨⟩, by rintro _ ⟨⟩, by rintro _ _ ⟨⟩⟩

end

end Outletbox
