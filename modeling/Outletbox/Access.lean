import Outletbox.Http.Steps

/-!
# Who sees a delivery

Over every run of the server, whatever the order of its requests: a delivery is
shown, and a file of it is streamed, only to a browser that presented a code
sent to a person of the link at that browser's request, in a session that no
revocation, new token or closed case has ended.  The invariant says where every
row of a code and of a session came from.
-/

namespace Outletbox

namespace Access

open History (Since)

variable (P : Platform) (cfg : Config)

/-- Steps may come in any order and at any instant. -/
def env (_ : List ServerEvent) (_ : Server) (_ : Input) : Prop := True

/-- The step does not end access to the link. -/
def Spares (linkId : String) (e : ServerEvent) : Prop :=
  ¬ EndsLink linkId e.pre.deliveries e.post.deliveries

structure Inv (h : List ServerEvent) (sv : Server) : Prop where
  codePerson : ∀ c ∈ sv.deliveries.challenges, OnLink c.recipientId c.linkId sv.deliveries
  sessionPerson : ∀ a ∈ sv.deliveries.accessSessions, OnLink a.recipientId a.linkId sv.deliveries
  issued : ∀ c ∈ sv.deliveries.challenges, ∃ e ∈ h, Sent P cfg c e
  granted : ∀ a ∈ sv.deliveries.accessSessions,
    Since (fun e => ∃ c, Opened P cfg c a e) (Spares a.linkId) h

/-! ## The content of a delivery -/

/-- What of a delivery an answer holds: `none` is the page with its list, `some`
is the object of an item. -/
def content : DeliverPage → Option (Option String)
  | .package _ _ => some none
  | .attachment itemId _ _ => some (some itemId)
  | _ => none

/-- The file is ready and belongs to the case. -/
def IsFileOf (caseId itemId : String) (d : DeliveryDb) : Prop :=
  ∃ item ∈ d.items, item.id = itemId ∧ item.caseId = caseId ∧ item.kind = .file ∧
    item.status = .ready

/-- The link is open to whoever holds the token. -/
structure OpenLink (now : Int) (token : String) (link : Link) (d : DeliveryDb) : Prop where
  mem : link ∈ d.links
  token : link.tokenHash = P.sha256Hex token
  notRevoked : link.revokedAt = none
  notExpired : ∀ e, link.expiresAt = some e → isoLt now e
  caseOpen : CaseIs .isOpen link.caseId d

/-- The session a browser is in, for a link. -/
structure InSession (r : DeliverRequest) (linkId : String) (a : AccessSessionRow)
    (d : DeliveryDb) : Prop where
  mem : a ∈ d.accessSessions
  cookie : ∃ id, r.cookie P accessCookieName = some id ∧ a.idHash = P.sha256Hex id
  notExpired : isoLt r.now a.expiresAt
  link : a.linkId = linkId
  person : OnLink a.recipientId linkId d

/-- How a session came about: in the event `grant` a browser presented the code of
a challenge that had been sent, in an earlier event, to a person of the link at
the request of the same browser; and no event after the grant ended access. -/
structure Earned (linkId : String) (a : AccessSessionRow) (h later : List ServerEvent)
    (grant : ServerEvent) (earlier : List ServerEvent) (request : ServerEvent) : Prop where
  split : h = later ++ grant :: earlier
  mem : request ∈ earlier
  spared : ∀ e ∈ later, Spares linkId e
  opened : a ∈ grant.post.deliveries.accessSessions
  code : ∃ c r v r₀ v₀, grant.input = .deliver r ∧
    CodeAccepted P cfg r v c a grant.pre.deliveries ∧ v.resolved.link.id = linkId ∧
    request.input = .deliver r₀ ∧ CodeSent P cfg r₀ v₀ c request.pre.deliveries ∧
    (∃ c₀ ∈ request.post.deliveries.challenges, c₀.issued = c.issued) ∧
    v₀.resolved.link.id = linkId ∧
    (flowMiddleware P cfg r₀.toRequest).1 = (flowMiddleware P cfg r.toRequest).1

section

variable {P cfg} {h : List ServerEvent} {sv : Server}

/-! ## The invariant -/

/-- Persons stay on their links as long as a code or a session of theirs is left. -/
theorem onLink_step {d d' : DeliveryDb} {granted : Option AccessSessionRow}
    {issued : Option Challenge} {set : Option (String × CaseStatus)}
    (ht : Tracks d d' granted issued set) {recipientId : Option String} {linkId : String}
    (hon : OnLink recipientId linkId d)
    (hleft : (∃ a ∈ d'.accessSessions, a.recipientId = recipientId) ∨
      ∃ c ∈ d'.challenges, c.recipientId = recipientId) : OnLink recipientId linkId d' := by
  obtain ⟨x, hx, rfl, hl⟩ := hon
  rcases ht.person x hx with ⟨y, hy, hid, hlink⟩ | ⟨hno, hno'⟩
  · exact ⟨y, hy, by rw [hid], hlink.trans hl⟩
  · rcases hleft with ⟨a, ha, hr⟩ | ⟨c, hc, hr⟩
    · exact absurd hr (hno a ha)
    · exact absurd hr (hno' c hc)

theorem inv_step (hi : Inv P cfg h sv) (i : Input) :
    Inv P cfg (History.fire (Server.step P cfg) sv i :: h) (sv.step P cfg i).1 := by
  obtain ⟨granted, issued, set, ht, hg, hs, -⟩ := step_tracks (P := P) sv i hi.codePerson
  constructor
  · intro c hc
    refine onLink_step ht ?_ (.inr ⟨c, hc, rfl⟩)
    rcases ht.code c hc with h | ⟨c₀, hc₀, he, -⟩
    · obtain ⟨r, v, -, hsent⟩ := hs c h
      obtain ⟨d₁, hent⟩ := hsent.entered
      obtain ⟨x, hx, he⟩ := hsent.person
      obtain ⟨hmem, hlink⟩ := onLink_of_entered hent hx
      obtain ⟨h1, h2, -⟩ := @issued_inj c (newChallenge P cfg r.now r.challengeDraw
        (v.challengeInput r x)) (he.trans rfl)
      exact ⟨x, hmem, h2, hlink.trans h1.symm⟩
    · obtain ⟨h1, h2, -⟩ := issued_inj he
      rw [h1, h2]
      exact hi.codePerson c₀ hc₀
  · intro a ha
    refine onLink_step ht ?_ (.inl ⟨a, ha, rfl⟩)
    rcases ht.session a ha with h | ⟨hmem, -⟩
    · obtain ⟨c, r, v, -, hacc⟩ := hg a h
      obtain ⟨hc, h1, h2, -⟩ := granted_code hacc
      rw [h1, h2]
      exact hi.codePerson c hc
    · exact hi.sessionPerson a hmem
  · intro c hc
    rcases ht.code c hc with h | ⟨c₀, hc₀, he, -⟩
    · exact ⟨_, List.mem_cons_self .., ⟨c, hc, rfl⟩, hs c h⟩
    · obtain ⟨e, hmem, hsent⟩ := hi.issued c₀ hc₀
      exact ⟨e, List.mem_cons_of_mem _ hmem, hsent.of_issued he⟩
  · intro a ha
    rcases ht.session a ha with h | ⟨hmem, hends⟩
    · obtain ⟨c, hc⟩ := hg a h
      exact .now ⟨c, ha, hc⟩
    · exact (hi.granted a hmem).later hends

theorem inv_of_run (hr : History.Run (Server.step P cfg) env .empty h sv) : Inv P cfg h sv := by
  have hstart : Inv P cfg [] .empty := by
    constructor
    · exact fun _ hx => absurd hx List.not_mem_nil
    · exact fun _ hx => absurd hx List.not_mem_nil
    · exact fun _ hx => absurd hx List.not_mem_nil
    · exact fun _ hx => absurd hx List.not_mem_nil
  exact hr.invariant hstart fun _ _ i _ _ hi => inv_step hi i

/-! ## An answer with content -/

/-- The states of a link a visitor inside it gets past. -/
theorem openLink_of_resolved {now : Int} {token : String} {lang : Lang}
    {access : Option (String × AccessSession)} {resolved : ResolvedLink} {d : DeliveryDb}
    (hres : resolveToken P now token d = some resolved)
    (hav : unavailable lang access resolved = none) :
    OpenLink P now token resolved.link d ∧ getCase resolved.link.caseId d = some resolved.case := by
  obtain ⟨-, hmem, htoken, hcase, hstate, -⟩ := resolveToken_some hres
  have hgood : resolved.state = .active ∨ resolved.state = .exhausted := by
    unfold unavailable at hav
    cases hs : resolved.state with
    | active => exact .inl rfl
    | exhausted => exact .inr rfl
    | expired => simp [hs, LinkState.message] at hav
    | revoked => simp [hs, LinkState.message] at hav
    | caseClosed => simp [hs, LinkState.message] at hav
  rw [hstate] at hgood
  unfold linkState at hgood
  split at hgood
  · simp at hgood
  rename_i hrev
  split at hgood
  · simp at hgood
  rename_i hexp
  split at hgood
  · simp at hgood
  rename_i hopen
  refine ⟨⟨hmem, htoken, by simpa using hrev, ?_, ⟨_, hcase, not_not.1 hopen⟩⟩, hcase⟩
  intro e he
  simpa [he] using hexp

theorem content_admission {r : DeliverRequest} {response : Response DeliverPage}
    (h : admission P cfg r = some response) : content response.page = none := by
  unfold admission at h
  split at h
  · cases h
    rfl
  split at h
  · unfold publicFormGuard at h
    split at h
    · cases h
      rfl
    split at h
    · split at h
      · cases h
      · cases h
        rfl
    · cases h
      rfl
  · cases h

theorem content_load {r : DeliverRequest} {flowToken : String}
    {access : Option (String × AccessSession)} {d : DeliveryDb} {response : Response DeliverPage}
    (h : load P r flowToken access d = .error response) : content response.page = none := by
  unfold load at h
  split at h
  · cases h
    rfl
  simp only [] at h
  split at h
  · cases h
    rfl
  split at h
  · rename_i x hu
    cases h
    unfold unavailable at hu
    split at hu
    · cases hu
    split at hu
    · cases hu
    · cases hu
      rfl
  · cases h

/-- What stands before the handlers never answers with content. -/
theorem content_enter {r : DeliverRequest} {d d₁ : DeliveryDb} {response : Response DeliverPage}
    (h : enter P cfg r d = (.error response, d₁)) : content response.page = none := by
  unfold enter at h
  split at h
  · cases h
    rfl
  simp only [] at h
  split at h
  · rename_i hx
    cases h
    have hnone := content_admission hx
    exact hnone
  split at h
  · rename_i hx
    cases h
    have hnone := content_load hx
    exact hnone
  · cases h

/-- The answers to the forms hold no content. -/
theorem content_forms {r : DeliverRequest} {v : Visit} {d : DeliveryDb} :
    content (postEmail P cfg r v d).response.page = none ∧
      content (postCode P cfg r v d).response.page = none ∧
      content (postClose P r v d).response.page = none := by
  refine ⟨?_, ?_, ?_⟩
  · unfold postEmail
    simp only []
    split
    · rfl
    split
    · rfl
    split
    · rfl
    · rfl
    split <;> rfl
  · unfold postCode
    simp only []
    split
    · rfl
    · rfl
    unfold openSession
    simp only []
    split
    · rfl
    split <;> rfl
  · unfold postClose
    simp only []
    split <;> rfl

/-- The page of a delivery is shown in a session of its link. -/
theorem content_page {r : DeliverRequest} {v : Visit} {d : DeliveryDb} {item : Option String}
    (hc : content (showDelivery P cfg r v d).response.page = some item) :
    v.isOpen = true ∧ item = none := by
  have hknock : ∀ view, content (showDelivery.knock P cfg r v d view).response.page = none := by
    intro view
    unfold showDelivery.knock
    simp only []
    split <;> rfl
  unfold showDelivery at hc
  simp only [] at hc
  split at hc
  · rename_i id session ha
    split at hc
    · rename_i hl
      cases hc
      refine ⟨?_, rfl⟩
      simpa [Visit.isOpen, isFor, ha] using hl
    · rw [hknock] at hc
      cases hc
  · rw [hknock] at hc
    cases hc

/-- A file is streamed in a session of the link, when it is ready and belongs to
the case of the link. -/
theorem content_file {r : DeliverRequest} {v : Visit} {d : DeliveryDb} {item : Option String}
    {itemId : String} (hc : content (getFile itemId r v d).response.page = some item) :
    v.isOpen = true ∧ ∀ i, item = some i → IsFileOf v.resolved.case.id i d := by
  unfold getFile at hc
  simp only [] at hc
  split at hc
  · cases hc
  rename_i hopen
  split at hc
  · cases hc
  rename_i row hrow
  split at hc
  · cases hc
  rename_i hgood
  simp only [not_or, not_not] at hgood
  split at hc
  · cases hc
  · cases hc
  cases hc
  refine ⟨by simpa using hopen, ?_⟩
  rintro i ⟨⟩
  obtain ⟨id, -, hget⟩ := Option.bind_eq_some_iff.1 hrow
  exact ⟨row, List.mem_of_find?_eq_some hget, rfl, hgood.1, hgood.2.1, hgood.2.2⟩

theorem content_handle {r : DeliverRequest} {v : Visit} {d : DeliveryDb} {item : Option String}
    (hc : content (r.route.handle P cfg r v d).response.page = some item) :
    v.isOpen = true ∧ ∀ i, item = some i → IsFileOf v.resolved.case.id i d := by
  obtain ⟨hemail, hcode, hclose⟩ := content_forms (P := P) (r := r) (v := v) (d := d)
  cases hroute : r.route with
  | page =>
      rw [hroute] at hc
      obtain ⟨hopen, rfl⟩ := content_page hc
      exact ⟨hopen, by rintro i ⟨⟩⟩
  | email =>
      rw [hroute] at hc
      exact absurd (hc.symm.trans hemail) (by simp)
  | code =>
      rw [hroute] at hc
      exact absurd (hc.symm.trans hcode) (by simp)
  | restart =>
      rw [hroute] at hc
      cases hc
  | close =>
      rw [hroute] at hc
      exact absurd (hc.symm.trans hclose) (by simp)
  | file itemId =>
      rw [hroute] at hc
      exact content_file hc

/-- Content is shown only by a page or a download in a session of the link. -/
theorem content_some {r : DeliverRequest} {d : DeliveryDb} {item : Option String}
    (hc : content (deliver P cfg r d).response.page = some item) :
    ∃ v d₁, Entered P cfg r d v d₁ ∧ v.isOpen = true ∧
      ∀ i, item = some i → IsFileOf v.resolved.case.id i d₁ := by
  unfold deliver at hc
  cases hent : enter P cfg r d with
  | mk result d₁ =>
      rw [hent] at hc
      cases result with
      | error response => exact absurd (hc.symm.trans (content_enter hent)) (by simp)
      | ok v => exact ⟨v, d₁, enter_ok hent, content_handle hc⟩

/-- The session a request is in when its handler runs in one. -/
theorem inSession_of_entered {r : DeliverRequest} {v : Visit} {d d₁ : DeliveryDb}
    (hi : ∀ a ∈ d.accessSessions, OnLink a.recipientId a.linkId d) (he : Entered P cfg r d v d₁)
    (ho : v.isOpen = true) : d₁ = d ∧ ∃ a, InSession P r v.resolved.link.id a d := by
  have hacc := he.access
  rcases accessMiddleware_cases (P := P) r.toRequest d with ⟨h, -⟩ | ⟨h, id, hid, row, hmem, hhash,
    hexp, hrow⟩
  · rw [hacc] at h
    simp only at h
    simp [Visit.isOpen, isFor, h] at ho
  · rw [hacc] at h hrow
    simp only at h hrow
    have hlink : row.linkId = v.resolved.link.id := by
      simpa [Visit.isOpen, isFor, hrow, AccessSessionRow.session] using ho
    exact ⟨h, row, hmem, ⟨id, hid, hhash⟩, hexp, hlink, hlink ▸ hi row hmem⟩

/-- Every session goes back to a code that was sent to its browser. -/
theorem earned_of_mem (hsha : Function.Injective P.sha256Hex)
    (hr : History.Run (Server.step P cfg) env .empty h sv) {a : AccessSessionRow}
    (ha : a ∈ sv.deliveries.accessSessions) :
    ∃ later grant earlier request, Earned P cfg a.linkId a h later grant earlier request := by
  obtain ⟨later, grant, earlier, rfl, ⟨c, hopened, r, v, hin, hacc⟩, hspared⟩ :=
    ((inv_of_run hr).granted a ha).split
  obtain ⟨-, hrun, -, -⟩ := hr.split
  obtain ⟨hc, -, hlc, hla, hflow⟩ := granted_code hacc
  obtain ⟨request, hmem, hrow, r₀, v₀, hin₀, hsent⟩ := (inv_of_run hrun).issued c hc
  obtain ⟨d₁, hent⟩ := hacc.entered
  obtain ⟨d₀, hent₀⟩ := hsent.entered
  obtain ⟨x, -, hx⟩ := hsent.person
  obtain ⟨hlink, -, hflow₀⟩ := @issued_inj c (newChallenge P cfg r₀.now r₀.challengeDraw
    (v₀.challengeInput r₀ x)) hx
  refine ⟨later, grant, earlier, request, rfl, hmem, hspared, hopened, c, r, v, r₀, v₀, hin, hacc,
    hla.symm, hin₀, hsent, hrow, ?_, ?_⟩
  · exact hlink.symm.trans (hlc.symm)
  · have htokens : v₀.flowToken = v.flowToken := hsha (hflow₀.symm.trans hflow)
    rw [← hent₀.flow, ← hent.1.flow, htokens]

/-! ## Access safety -/

/-- In every state a run can reach, an answer with content of a delivery goes to a
browser with the current token of an open link and a session of that very link
that it earned; a file is a ready one of the link's own case. -/
theorem content_only_for_recipients (hsha : Function.Injective P.sha256Hex)
    (hr : History.Run (Server.step P cfg) env .empty h sv) (r : DeliverRequest)
    (response : Response DeliverPage) (item : Option String)
    (ha : (sv.step P cfg (.deliver r)).2.answer = .deliver response)
    (hc : content response.page = some item) :
    ∃ link a later grant earlier request, OpenLink P r.now r.token link sv.deliveries ∧
      InSession P r link.id a sv.deliveries ∧
      Earned P cfg link.id a h later grant earlier request ∧
      ∀ i, item = some i → IsFileOf link.caseId i sv.deliveries := by
  cases ha
  obtain ⟨v, d₁, hent, hopen, hfile⟩ := content_some hc
  obtain ⟨rfl, a, hin⟩ := inSession_of_entered (inv_of_run hr).sessionPerson hent hopen
  obtain ⟨hlink, hcase⟩ := openLink_of_resolved hent.resolved hent.available
  obtain ⟨later, grant, earlier, request, hearned⟩ := earned_of_mem hsha hr hin.mem
  rw [hin.link] at hearned
  rw [getCase_id hcase] at hfile
  exact ⟨v.resolved.link, a, later, grant, earlier, request, hlink, hin, hearned, hfile⟩

end

/-- `root` sends a delivery, and its recipient types the code. -/
def openedScript : List Input :=
  deliveryScript ++ [.deliver (sampleDeliver 5 'T' .code [("code", "123456")])]

/-- The server after these steps. -/
def opened : List ServerEvent × Server :=
  History.replay (Server.step .sample defaultConfig) [] .empty openedScript

theorem content_only_for_recipients_firstPage :
    ∃ link a later grant earlier request,
      OpenLink .sample 6 (tokenOf 'T') link opened.2.deliveries ∧
      InSession .sample (sampleDeliver 6 'T' .page []) link.id a opened.2.deliveries ∧
      Earned .sample defaultConfig link.id a opened.1 later grant earlier request ∧
      ∀ i, (none : Option String) = some i → IsFileOf link.caseId i opened.2.deliveries := by
  have hsha : Function.Injective Platform.sample.sha256Hex :=
    fun _ _ h => (String.append_right_inj _).1 h
  have hrun : History.Run (Server.step .sample defaultConfig) env .empty opened.1 opened.2 :=
    History.run_replay .start (History.admits_of_forall (fun _ _ _ => trivial) _ _ openedScript)
  exact content_only_for_recipients hsha hrun (sampleDeliver 6 'T' .page []) _ none rfl
    (by decide +kernel)

/-- A host that reads the date of one form. -/
def datedHost : Platform :=
  { Platform.sample with
    parseDate := fun s => if s = "1970-01-02T00:00Z" then some 86400000 else none }

/-- The same delivery, with a link that expires after a day. -/
def expiring : List ServerEvent × Server :=
  History.replay (Server.step datedHost defaultConfig) [] .empty
    (signInScript ++
      [.panel (samplePanel 2 "sid" 'T' (.work .createCase) [("name", "Case")]),
        .panel (samplePanel 3 "sid" 'T' (.work (.createLink (newId "c" sampleId)))
          [("label", "Link"), ("recipients", "a@b.example"), ("expires_at", "1970-01-02T00:00")]),
        .deliver (sampleDeliver 4 'T' .email [("email", "a@b.example")]),
        .deliver (sampleDeliver 5 'T' .code [("code", "123456")])])

/-- In the year 10000 the package is shown, though the link and the session expired long ago: the
time stamps of that year sort before theirs. -/
theorem content_after_expiry :
    ¬ ∀ (P : Platform) (cfg : Config) (h : List ServerEvent) (sv : Server),
      Function.Injective P.sha256Hex → History.Run (Server.step P cfg) env .empty h sv →
      ∀ (r : DeliverRequest) (response : Response DeliverPage) (item : Option String),
        (sv.step P cfg (.deliver r)).2.answer = .deliver response →
        content response.page = some item →
        ∃ link ∈ sv.deliveries.links, link.tokenHash = P.sha256Hex r.token ∧
          (∀ e, link.expiresAt = some e → r.now < e) ∧
          ∃ a ∈ sv.deliveries.accessSessions, a.linkId = link.id ∧ r.now < a.expiresAt := by
  intro hall
  have hsha : Function.Injective datedHost.sha256Hex :=
    fun _ _ h => (String.append_right_inj _).1 h
  have hrun : History.Run (Server.step datedHost defaultConfig) env .empty expiring.1 expiring.2 :=
    History.run_replay .start (History.admits_of_forall (fun _ _ _ => trivial) _ _ _)
  obtain ⟨link, hlink, -, hexpires, -⟩ := hall datedHost defaultConfig _ _ hsha
    hrun (sampleDeliver year10000 'T' .page []) _ none rfl (by decide +kernel)
  have hlinks : expiring.2.deliveries.links.all (·.expiresAt == some 86400000) = true := by
    decide +kernel
  have hlate : year10000 < 86400000 := hexpires 86400000 (by
    simpa using List.all_eq_true.1 hlinks link hlink)
  exact absurd hlate (by decide)

end Access

end Outletbox
