import Outletbox.Http.Deliver
import Outletbox.Library.History

/-!
# What the delivery pages give away about an address

Two visitors send the same requests, but where one types an address that is on
the link the other types one that is not.  The answers to `POST /email` are the
same, but the challenge it leaves behind is read again.  `responses_agree_iff`
says exactly when no answer tells the two visitors apart.

The argument is a simulation: the tables of the two runs stay equal but for the
challenges, and each handler's answer depends on the challenges only through
what `Agree` compares.
-/

namespace Outletbox

namespace Disclosure

open History

variable (P : Platform) (cfg : Config)

/-! ## Two runs -/

/-- One request as a step on the delivery tables. -/
def step (d : DeliveryDb) (r : DeliverRequest) : DeliveryDb × Response DeliverPage :=
  ((deliver P cfg r d).state, (deliver P cfg r d).response)

/-- The same request with another address in its form. -/
def withAddress (address : List String) (r : DeliverRequest) : DeliverRequest :=
  { r with body := fun name => if name = "email" then address else r.body name }

/-- Two requests that are identical, or differ in the address alone, and then
both addresses are valid. -/
def Paired (r r' : DeliverRequest) : Prop :=
  (∃ address, r' = withAddress address r) ∧
    (r' = r ∨ isValidEmail (typedAddress P r) = true ∧ isValidEmail (typedAddress P r') = true)

/-- The tables of two runs are equal but for the challenges. -/
def Alike (d d' : DeliveryDb) : Prop := ∃ cs, d' = { d with challenges := cs }

/-- What is assumed of a position of the two runs: the requests are paired, the
e-mail is sent, the identifier drawn for a challenge is new, and a typed code is
none that was mailed for this browser. -/
structure Admissible (d d' : DeliveryDb) (r r' : DeliverRequest) : Prop where
  paired : Paired P r r'
  mailSent : r.mailSent = true
  fresh : ∀ c ∈ d.challenges ++ d'.challenges, c.id ≠ newId "ch" r.random.id
  unknown : r.route = .code → ∀ c ∈ d.challenges ++ d'.challenges,
    c.flowHash = P.sha256Hex (flowMiddleware P cfg r.toRequest).1 →
      acceptsCode P (codeFromBody r) c = false

/-- The hourly limit refuses the person whose address was typed. -/
def refused (r : DeliverRequest) (v : Visit) (d : DeliveryDb) : Prop :=
  ∃ recipient, findRecipient P v.resolved.recipients (typedAddress P r) = some recipient ∧
    limitReached cfg r.now recipient.id d

/-- The wrong codes counted against the newest pending challenge, unless the
next one destroys it. -/
def wrongCodes (now : Int) (linkId flowToken : String) (d : DeliveryDb) : Option Nat :=
  (pendingRow P now linkId flowToken d).bind fun row =>
    if cfg.maxCodeAttempts ≤ (row.attempts + 1 : Nat) then none else some row.attempts

/-- The challenges of the two runs agree in what a visit reads of them: a page,
on whether a code is pending; an address, on whether the hourly limit refuses
it; a code, on the wrong codes counted. -/
def AgreeAt (v : Visit) (d d' : DeliveryDb) (r r' : DeliverRequest) : Prop :=
  match r.route with
  | .page => v.isOpen = true ∨
      pendingChallenge P r.now v.resolved.link.id v.flowToken d =
        pendingChallenge P r.now v.resolved.link.id v.flowToken d'
  | .email => isValidEmail (typedAddress P r) = true →
      (refused P cfg r v d ↔ refused P cfg r' v d')
  | .code => wrongCodes P cfg r.now v.resolved.link.id v.flowToken d =
      wrongCodes P cfg r.now v.resolved.link.id v.flowToken d'
  | .restart | .close | .file _ => True

/-- The same, of the visit a request makes, if its link can be opened. -/
def Agree (d d' : DeliveryDb) (r r' : DeliverRequest) : Prop :=
  ∀ v, (enter P cfg r d).1 = .ok v → AgreeAt P cfg v d d' r r'

section

variable {P cfg} {r r' : DeliverRequest} {d d₁ d' : DeliveryDb} {v : Visit}
  {address : List String} {cs : List Challenge}

/-! ## Alike tables -/

theorem Alike.trans {d₁ d₂ d₃ : DeliveryDb} (h : Alike d₁ d₂) (h' : Alike d₂ d₃) : Alike d₁ d₃ := by
  obtain ⟨cs, rfl⟩ := h
  obtain ⟨cs', rfl⟩ := h'
  exact ⟨cs', rfl⟩

theorem Alike.symm {d₁ d₂ : DeliveryDb} (h : Alike d₁ d₂) : Alike d₂ d₁ := by
  obtain ⟨cs, rfl⟩ := h
  exact ⟨d₁.challenges, rfl⟩

/-! ## Before the handler -/

/-- The middleware does not read the challenges. -/
theorem accessMiddleware_challenges (req : Request) (d : DeliveryDb) (cs : List Challenge) :
    accessMiddleware P req { d with challenges := cs } =
      ((accessMiddleware P req d).1, { (accessMiddleware P req d).2 with challenges := cs }) := by
  unfold accessMiddleware
  cases req.cookie P accessCookieName with
  | none => rfl
  | some id =>
      unfold getAccessSession
      simp only []
      cases d.accessSessions.find? fun r => r.idHash == P.sha256Hex id with
      | none => rfl
      | some row =>
          by_cases hexp : isoLe row.expiresAt req.now
          · simp only [if_pos hexp]; rfl
          · simp only [if_neg hexp]

theorem accessMiddleware_keeps (req : Request) (d : DeliveryDb) :
    (accessMiddleware P req d).2.challenges = d.challenges := by
  rcases accessMiddleware_cases (P := P) req d with ⟨-, h | ⟨id, h, -⟩⟩ | ⟨h, -⟩ <;> rw [h]
  rfl

/-- What stands before a handler reads neither the challenges nor the address. -/
theorem enter_challenges :
    enter P cfg (withAddress address r) { d with challenges := cs } =
      ((enter P cfg r d).1, { (enter P cfg r d).2 with challenges := cs }) := by
  have hadm : admission P cfg (withAddress address r) = admission P cfg r := rfl
  have hflow : flowMiddleware P cfg (withAddress address r).toRequest =
      flowMiddleware P cfg r.toRequest := rfl
  have haccess := accessMiddleware_challenges (P := P) r.toRequest d cs
  have hload : ∀ flowToken access (d : DeliveryDb),
      load P (withAddress address r) flowToken access { d with challenges := cs } =
        load P r flowToken access d := fun _ _ _ => rfl
  unfold enter
  change (if r.publicThrottled = true then _ else _) = _
  by_cases ht : r.publicThrottled = true
  · simp only [if_pos ht]
  · simp only [if_neg ht, hadm, hflow]
    rw [show accessMiddleware P (withAddress address r).toRequest { d with challenges := cs } =
      accessMiddleware P r.toRequest { d with challenges := cs } from rfl, haccess]
    cases admission P cfg r with
    | some response => rfl
    | none =>
        simp only [hload]
        cases load P r (flowMiddleware P cfg r.toRequest).1 (accessMiddleware P r.toRequest d).1
          (accessMiddleware P r.toRequest d).2 with
        | error response => rfl
        | ok visit => rfl

theorem enter_keeps : (enter P cfg r d).2.challenges = d.challenges := by
  rcases enter_state (P := P) (r := r) (d := d) rfl with h | h
  · rw [h]
  · rw [h, accessMiddleware_keeps]

/-! ## The handlers -/

/-- `GET` reads the challenges for one bit. -/
theorem showDelivery_alike :
    Alike (showDelivery P cfg r v d).state
        (showDelivery P cfg r v { d with challenges := cs }).state ∧
      ((showDelivery P cfg r v d).response =
          (showDelivery P cfg r v { d with challenges := cs }).response ↔
        v.isOpen = true ∨ pendingChallenge P r.now v.resolved.link.id v.flowToken d =
          pendingChallenge P r.now v.resolved.link.id v.flowToken { d with challenges := cs }) := by
  have hknock : ∀ view, Alike (showDelivery.knock P cfg r v d view).state
      (showDelivery.knock P cfg r v { d with challenges := cs } view).state ∧
      ((showDelivery.knock P cfg r v d view).response =
          (showDelivery.knock P cfg r v { d with challenges := cs } view).response ↔
        pendingChallenge P r.now v.resolved.link.id v.flowToken d =
          pendingChallenge P r.now v.resolved.link.id v.flowToken { d with challenges := cs }) := by
    intro view
    refine ⟨⟨cs, rfl⟩, ?_⟩
    unfold showDelivery.knock
    have h1 : ∀ d : DeliveryDb, pendingChallenge P r.now v.resolved.link.id v.flowToken
        (touchLink r.now v.resolved.link.id d) =
          pendingChallenge P r.now v.resolved.link.id v.flowToken d := fun _ => rfl
    simp only [h1]
    cases pendingChallenge P r.now v.resolved.link.id v.flowToken d <;>
      cases pendingChallenge P r.now v.resolved.link.id v.flowToken { d with challenges := cs } <;>
        simp
  unfold showDelivery Visit.isOpen isFor
  cases hacc : v.access with
  | none => simpa using hknock _
  | some a =>
      obtain ⟨id, session⟩ := a
      by_cases hl : session.linkId = v.resolved.link.id
      · simp only [hl, beq_self_eq_true, if_true, Option.any_some, true_or, iff_true]
        exact ⟨⟨cs, rfl⟩, rfl⟩
      · simpa [hl] using hknock _

/-- A code for a person of the link is created unless the hourly limit refuses it. -/
theorem createChallenge_visit {recipient : LinkRecipient}
    (hlink : v.resolved.link ∈ d.links) (hrec : recipient ∈ d.linkRecipients)
    (hfresh : ∀ c ∈ d.challenges, c.id ≠ newId "ch" r.random.id) :
    createChallenge P cfg r.now r.challengeDraw (v.challengeInput r recipient) d =
      if limitReached cfg r.now recipient.id d then
        .error (.challengeRate cfg.challengeLimitPerLinkPerHour)
      else
        .ok ((newChallenge P cfg r.now r.challengeDraw (v.challengeInput r recipient), r.random.code),
          { consumeWhere r.now (fun c => c.recipientId == some recipient.id) d with
            challenges := (consumeWhere r.now (fun c => c.recipientId == some recipient.id)
              d).challenges ++
                [newChallenge P cfg r.now r.challengeDraw (v.challengeInput r recipient)] }) := by
  have hfree : challengeConflict
      (newChallenge P cfg r.now r.challengeDraw (v.challengeInput r recipient)) d = false := by
    simp only [challengeConflict, newChallenge, Bool.or_eq_false_iff, List.any_eq_false, beq_iff_eq,
      Bool.not_eq_false', List.any_eq_true, Option.all_some]
    exact ⟨⟨hfresh, v.resolved.link, hlink, rfl⟩, recipient, hrec, rfl⟩
  rw [createChallenge_eq, hfree]
  simp only [Bool.false_eq_true, if_false]
  rfl

/-- A valid address gets the code page, unless the hourly limit refuses it. -/
theorem postEmail_eq (hv : isValidEmail (typedAddress P r) = true) (hm : r.mailSent = true)
    (hlink : v.resolved.link ∈ d.links)
    (hrec : ∀ x ∈ v.resolved.recipients, x ∈ d.linkRecipients)
    (hfresh : ∀ c ∈ d.challenges, c.id ≠ newId "ch" r.random.id) :
    Alike d (postEmail P cfg r v d).state ∧
      (refused P cfg r v d → (postEmail P cfg r v d).response =
        { status := 429,
          page := .email (v.view r (base r)) (some (t v.lang .deliverTooMany)) none }) ∧
      (¬ refused P cfg r v d → (postEmail P cfg r v d).response =
        { status := 200, page := .code (v.view r (base r)) (codeMinutes cfg) none none }) := by
  unfold postEmail refused
  simp only [hv, Bool.not_true, Bool.false_eq_true, if_false]
  cases hf : findRecipient P v.resolved.recipients (typedAddress P r) with
  | none => exact ⟨⟨d.challenges, rfl⟩, by simp, by simp⟩
  | some recipient =>
      have hmem := hrec recipient (List.mem_of_find?_eq_some hf)
      simp only [createChallenge_visit hlink hmem hfresh]
      by_cases hl : limitReached cfg r.now recipient.id d
      · simp only [if_pos hl]
        refine ⟨⟨d.challenges, rfl⟩, fun _ => trivial, ?_⟩
        intro h
        exact absurd ⟨recipient, rfl, hl⟩ h
      · simp only [if_neg hl, hm, if_true]
        refine ⟨⟨_, rfl⟩, ?_, fun _ => trivial⟩
        rintro ⟨x, hx, hlx⟩
        cases hx
        exact absurd hlx hl

/-- A code that is not the right one is answered by the wrong codes counted so far. -/
theorem postCode_eq (hno : ∀ row, pendingRow P r.now v.resolved.link.id v.flowToken d = some row →
      acceptsCode P (codeFromBody r) row = false) :
    Alike d (postCode P cfg r v d).state ∧
      (postCode P cfg r v d).response =
        match wrongCodes P cfg r.now v.resolved.link.id v.flowToken d with
        | some n =>
            { status := 401
              page := .code (v.view r (base r)) (codeMinutes cfg)
                (some (t v.lang .deliverCodeInvalid)) (some (cfg.maxCodeAttempts - (n + 1 : Nat))) }
        | none =>
            { status := 401
              page := .email (v.view r (base r)) (some (t v.lang .deliverCodeExpired)) none } := by
  have hv := verified P cfg r.now (v.verifyInput r) d
  unfold postCode wrongCodes
  generalize verifyChallenge P cfg r.now (v.verifyInput r) d = out at hv ⊢
  cases hv with
  | nothing hrow =>
      have hrow' : pendingRow P r.now v.resolved.link.id v.flowToken d = none := hrow
      simp only [hrow', Option.bind_none]
      exact ⟨⟨d.challenges, rfl⟩, trivial⟩
  | accepted row hrow hcode => exact absurd hcode (by simp [Visit.verifyInput, hno row hrow])
  | exhausted row hrow hcode hmax =>
      have hrow' : pendingRow P r.now v.resolved.link.id v.flowToken d = some row := hrow
      simp only [hrow', Option.bind_some, if_pos hmax]
      exact ⟨⟨_, rfl⟩, trivial⟩
  | wrong row hrow hcode hmax =>
      have hrow' : pendingRow P r.now v.resolved.link.id v.flowToken d = some row := hrow
      simp only [hrow', Option.bind_some, if_neg (not_le.2 hmax)]
      exact ⟨⟨_, rfl⟩, trivial⟩

/-- Two valid addresses are answered the same exactly when the limit refuses both or neither. -/
theorem postEmail_alike
    (hvalid : isValidEmail (typedAddress P (withAddress address r)) =
      isValidEmail (typedAddress P r))
    (hm : r.mailSent = true) (hlink : v.resolved.link ∈ d.links)
    (hrec : ∀ x ∈ v.resolved.recipients, x ∈ d.linkRecipients)
    (hfresh : ∀ c ∈ d.challenges, c.id ≠ newId "ch" r.random.id)
    (hfresh' : ∀ c ∈ cs, c.id ≠ newId "ch" r.random.id) :
    Alike (postEmail P cfg r v d).state
        (postEmail P cfg (withAddress address r) v { d with challenges := cs }).state ∧
      ((postEmail P cfg r v d).response =
          (postEmail P cfg (withAddress address r) v { d with challenges := cs }).response ↔
        (isValidEmail (typedAddress P r) = true → (refused P cfg r v d ↔
          refused P cfg (withAddress address r) v { d with challenges := cs }))) := by
  cases hv : isValidEmail (typedAddress P r) with
  | false =>
      rw [hv] at hvalid
      unfold postEmail
      simp only [hv, hvalid, Bool.not_false, if_true, Bool.false_eq_true, false_implies, iff_true]
      exact ⟨⟨cs, rfl⟩, rfl⟩
  | true =>
      rw [hv] at hvalid
      obtain ⟨hs₁, hr₁, hn₁⟩ := postEmail_eq (P := P) (r := r) (d := d) (v := v) hv hm hlink hrec
          hfresh
      obtain ⟨hs₂, hr₂, hn₂⟩ := postEmail_eq (P := P) (r := withAddress address r)
          (d := { d with challenges := cs }) (v := v) hvalid hm hlink hrec hfresh'
      refine ⟨hs₁.symm.trans (Alike.trans ⟨cs, rfl⟩ hs₂), ?_⟩
      by_cases h₁ : refused P cfg r v d
      · by_cases h₂ : refused P cfg (withAddress address r) v { d with challenges := cs }
        · rw [hr₁ h₁, hr₂ h₂]
          simp only [h₁, h₂, true_implies, iff_true]
          rfl
        · rw [hr₁ h₁, hn₂ h₂]
          simp [h₁, h₂]
      · by_cases h₂ : refused P cfg (withAddress address r) v { d with challenges := cs }
        · rw [hn₁ h₁, hr₂ h₂]
          simp [h₁, h₂]
        · rw [hn₁ h₁, hn₂ h₂]
          simp only [h₁, h₂, true_implies, iff_true]
          rfl

/-- Two wrong codes are answered the same exactly when as many were counted before. -/
theorem postCode_alike
    (hno : ∀ row, pendingRow P r.now v.resolved.link.id v.flowToken d = some row →
      acceptsCode P (codeFromBody r) row = false)
    (hno' : ∀ row, pendingRow P r.now v.resolved.link.id v.flowToken { d with challenges := cs } =
      some row → acceptsCode P (codeFromBody r) row = false) :
    Alike (postCode P cfg r v d).state
        (postCode P cfg r v { d with challenges := cs }).state ∧
      ((postCode P cfg r v d).response =
          (postCode P cfg r v { d with challenges := cs }).response ↔
        wrongCodes P cfg r.now v.resolved.link.id v.flowToken d =
          wrongCodes P cfg r.now v.resolved.link.id v.flowToken { d with challenges := cs }) := by
  obtain ⟨hs₁, hr₁⟩ := postCode_eq (P := P) (r := r) (v := v) hno
  obtain ⟨hs₂, hr₂⟩ := postCode_eq (P := P) (r := r) (v := v) hno'
  refine ⟨hs₁.symm.trans (Alike.trans ⟨cs, rfl⟩ hs₂), ?_⟩
  rw [hr₁, hr₂]
  cases wrongCodes P cfg r.now v.resolved.link.id v.flowToken d with
  | none =>
      cases wrongCodes P cfg r.now v.resolved.link.id v.flowToken { d with challenges := cs } with
      | none => simp
      | some m => simp
  | some n =>
      cases wrongCodes P cfg r.now v.resolved.link.id v.flowToken { d with challenges := cs } with
      | none => simp
      | some m => simp

/-- Closing a session does not read the challenges. -/
theorem postClose_alike :
    Alike (postClose P r v d).state (postClose P r v { d with challenges := cs }).state ∧
      (postClose P r v d).response = (postClose P r v { d with challenges := cs }).response := by
  unfold postClose
  cases v.access with
  | none => exact ⟨⟨cs, rfl⟩, rfl⟩
  | some a => exact ⟨⟨cs, rfl⟩, rfl⟩

/-- A download changes no table, and does not read the challenges. -/
theorem getFile_alike (itemId : String) :
    Alike (getFile itemId r v d).state (getFile itemId r v { d with challenges := cs }).state ∧
      (getFile itemId r v d).response =
        (getFile itemId r v { d with challenges := cs }).response := by
  have hstate : ∀ d : DeliveryDb, (getFile itemId r v d).state = d := by
    intro d
    unfold getFile
    split
    · rfl
    · split
      · rfl
      · split
        · rfl
        · split <;> rfl
  refine ⟨by rw [hstate, hstate]; exact ⟨cs, rfl⟩, ?_⟩
  unfold getFile
  rw [show (fun id => getItem id { d with challenges := cs }) = fun id => getItem id d from rfl]
  split
  · rfl
  · split
    · rfl
    · split
      · rfl
      · split <;> rfl

/-! ## One position -/

/-- What `deliver` makes of a visit. -/
theorem deliver_visit {out : DeliveryDb} (h : enter P cfg r d = (.ok v, out)) :
    step P cfg d r = ((r.route.handle P cfg r v out).state,
      { (r.route.handle P cfg r v out).response with
        cookies := v.cookies ++ (r.route.handle P cfg r v out).response.cookies }) := by
  simp only [step, deliver, h]

/-- Adding the same cookies to two responses does not make them equal. -/
theorem withCookies_inj {a b : Response DeliverPage} {cookies : List SetCookie} :
    ({ a with cookies := cookies ++ a.cookies } : Response DeliverPage) =
      { b with cookies := cookies ++ b.cookies } ↔ a = b := by
  obtain ⟨status, page, set, headers⟩ := a
  obtain ⟨status', page', set', headers'⟩ := b
  simp

/-- Only the challenges matter. -/
theorem agreeAt_congr (h : d₁.challenges = d.challenges) :
    AgreeAt P cfg v d₁ { d₁ with challenges := cs } r r' ↔
      AgreeAt P cfg v d { d with challenges := cs } r r' := by
  unfold AgreeAt
  cases r.route <;>
    simp only [pendingChallenge, wrongCodes, pendingRow, refused, limitReached, recentChallenges, h]

/-- A handler keeps the tables alike, and answers the same exactly when the
challenges agree in what it reads of them. -/
theorem handle_alike {r' : DeliverRequest}
    (hadm : Admissible P cfg d { d with challenges := cs } r r')
    (hent : enter P cfg r d = (.ok v, d₁)) :
    Alike (r.route.handle P cfg r v d₁).state
        (r'.route.handle P cfg r' v { d₁ with challenges := cs }).state ∧
      ((r.route.handle P cfg r v d₁).response =
          (r'.route.handle P cfg r' v { d₁ with challenges := cs }).response ↔
        AgreeAt P cfg v d₁ { d₁ with challenges := cs } r r') := by
  obtain ⟨⟨⟨address, rfl⟩, hvalid⟩, hmail, hfresh, hunknown⟩ := hadm
  have hcs : d₁.challenges = d.challenges := by
    have h := @enter_keeps P cfg r d
    rwa [hent] at h
  have he := enter_ok hent
  obtain ⟨-, hlink, -, -, -, hrecs⟩ := resolveToken_some he.resolved
  have hrec : ∀ x ∈ v.resolved.recipients, x ∈ d₁.linkRecipients := by
    intro x hx
    rw [hrecs] at hx
    exact (List.mem_filter.1 hx).1
  have hfresh₁ : ∀ c ∈ d₁.challenges, c.id ≠ newId "ch" r.random.id := fun c hc =>
    hfresh c (List.mem_append_left _ (hcs ▸ hc))
  have hfresh₂ : ∀ c ∈ cs, c.id ≠ newId "ch" r.random.id := fun c hc =>
    hfresh c (List.mem_append_right _ hc)
  have htyped : isValidEmail (typedAddress P (withAddress address r)) =
      isValidEmail (typedAddress P r) := by
    rcases hvalid with heq | ⟨h1, h2⟩
    · rw [heq]
    · rw [h1, h2]
  have hno : r.route = .code → ∀ cs', (∀ c ∈ cs', c ∈ d.challenges ++ cs) →
      ∀ row, pendingRow P r.now v.resolved.link.id v.flowToken { d₁ with challenges := cs' } =
        some row → acceptsCode P (codeFromBody r) row = false := by
    intro hroute cs' hsub row hrow
    obtain ⟨hmem, -, hflow, -, -⟩ := pendingRow_some hrow
    exact hunknown hroute row (hsub row hmem) (by rw [hflow, he.flow])
  change Alike _ (r.route.handle P cfg (withAddress address r) v _).state ∧
    (_ = (r.route.handle P cfg (withAddress address r) v _).response ↔ _)
  unfold AgreeAt
  cases hroute : r.route with
  | page => exact showDelivery_alike
  | email => exact postEmail_alike htyped hmail hlink hrec hfresh₁ hfresh₂
  | code =>
      refine postCode_alike ?_ ?_
      · exact hno hroute d₁.challenges fun c hc => List.mem_append_left _ (hcs ▸ hc)
      · exact hno hroute cs fun c hc => List.mem_append_right _ hc
  | restart => exact ⟨⟨_, rfl⟩, iff_of_true rfl trivial⟩
  | close =>
      obtain ⟨hs, hr⟩ := postClose_alike (P := P) (r := r) (d := d₁) (v := v)
      exact ⟨hs, iff_of_true hr trivial⟩
  | file itemId =>
      obtain ⟨hs, hr⟩ := getFile_alike (r := r) (d := d₁) (v := v) itemId
      exact ⟨hs, iff_of_true hr trivial⟩

/-- One position of the two runs. -/
theorem step_alike {r' : DeliverRequest}
    (hadm : Admissible P cfg d { d with challenges := cs } r r') :
    Alike (step P cfg d r).1 (step P cfg { d with challenges := cs } r').1 ∧
      ((step P cfg d r).2 = (step P cfg { d with challenges := cs } r').2 ↔
        Agree P cfg d { d with challenges := cs } r r') := by
  obtain ⟨address, haddress⟩ := hadm.paired.1
  have hent' : enter P cfg r' { d with challenges := cs } =
      ((enter P cfg r d).1, { (enter P cfg r d).2 with challenges := cs }) := by
    rw [haddress]
    exact enter_challenges
  have hkeeps : (enter P cfg r d).2.challenges = d.challenges := enter_keeps
  unfold Agree
  rcases hent : enter P cfg r d with ⟨entered, d₁⟩
  rw [hent] at hent' hkeeps
  cases entered with
  | error response =>
      refine ⟨?_, ?_⟩
      · simp only [step, deliver, hent, hent']
        exact ⟨cs, rfl⟩
      · simp [step, deliver, hent, hent']
  | ok v =>
      obtain ⟨hstate, hresponse⟩ := handle_alike hadm hent
      rw [deliver_visit hent, deliver_visit hent']
      refine ⟨hstate, ?_⟩
      simp only [Except.ok.injEq, forall_eq']
      rw [withCookies_inj, hresponse]
      exact agreeAt_congr hkeeps

end

/-! ## The runs -/

/-- No answer tells two visitors apart who type different valid addresses,
exactly when at every position the challenges agree in what is read of them. -/
theorem responses_agree_iff (P : Platform) (cfg : Config) (d : DeliveryDb)
    (requests : List (DeliverRequest × DeliverRequest))
    (h : Lockstep (step P cfg) (Admissible P cfg) d d requests) :
    outputs (step P cfg) d (requests.map Prod.fst) =
        outputs (step P cfg) d (requests.map Prod.snd) ↔
      Lockstep (step P cfg) (Agree P cfg) d d requests := by
  refine lockstep_outputs (R := Alike) ?_ ?_ ⟨d.challenges, rfl⟩ h
  · rintro s s' r r' ⟨cs, rfl⟩ hadm
    exact (step_alike hadm).1
  · rintro s s' r r' ⟨cs, rfl⟩ hadm
    exact (step_alike hadm).2

/-! ## A visitor who looks at the page again -/

/-- A token of the right form. -/
def sampleToken : String := "0123456789012345678901234567890123456789012"

/-- An open link for one person. -/
def oneLink : DeliveryDb :=
  { DeliveryDb.empty with
    cases := [⟨"c_1", "Case", "", .isOpen, 0, 0⟩]
    links := [⟨"l_1", "c_1", "A", "sha256:" ++ sampleToken, "012345", none, none, none, 0, 0, none⟩]
    linkRecipients := [⟨"r_1", "l_1", "a@b.c", .en, 0, none, 0⟩] }

/-- The browser `flow` sends the form with an address. -/
def typeAddress (now : Int) (address : String) : DeliverRequest :=
  withAddress [address]
    { Request.sample now "outletbox_flow=flow" fun name =>
        if name = "_flow" then ["flow"] else [] with
      token := sampleToken, route := .email }

/-- A later request draws other identifiers. -/
def later (r : DeliverRequest) : DeliverRequest :=
  { r with random := { r.random with id := "2" } }

/-- The browser `flow` opens the page of the link. -/
def lookAgain (now : Int) : DeliverRequest :=
  later { Request.sample now "outletbox_flow=flow" fun _ => [] with
    token := sampleToken, route := .page }

/-- Only the last address put into a form counts. -/
theorem withAddress_withAddress (a b : List String) (r : DeliverRequest) :
    withAddress b (withAddress a r) = withAddress b r := by
  have hbody : (fun name => if name = "email" then b else if name = "email" then a else r.body name)
      = fun name => if name = "email" then b else r.body name := by
    funext name
    by_cases h : name = "email" <;> simp [h]
  simp only [withAddress, hbody]

/-- It types a code. -/
def typeCode (now : Int) (code : String) : DeliverRequest :=
  later { Request.sample now "outletbox_flow=flow" fun name =>
      if name = "_flow" then ["flow"] else if name = "code" then [code] else [] with
    token := sampleToken, route := .code }

/-- A request without an address is paired with itself. -/
theorem paired_self {P : Platform} {r : DeliverRequest} (h : r.body "email" = []) :
    Paired P r r := by
  refine ⟨⟨[], ?_⟩, .inl rfl⟩
  have hbody : (fun name => if name = "email" then [] else r.body name) = r.body := by
    funext name
    by_cases hname : name = "email" <;> simp [hname, h]
  rw [withAddress, hbody]

/-- One visitor types the person's address, the other an address that is not on the link. -/
theorem admissible_typeAddress : Admissible .sample defaultConfig oneLink oneLink
    (typeAddress 0 "a@b.c") (typeAddress 0 "x@y.z") :=
  ⟨⟨⟨["x@y.z"], (withAddress_withAddress _ _ _).symm⟩, .inr ⟨by decide +kernel, by decide +kernel⟩⟩,
    rfl, by decide, by intro h; cases h⟩

/-- They type an address, look at the page again, and type a wrong code. -/
def twoVisitors : List (DeliverRequest × DeliverRequest) :=
  [(typeAddress 0 "a@b.c", typeAddress 0 "x@y.z"), (lookAgain 1, lookAgain 1),
    (typeCode 2 "000000", typeCode 2 "000000")]

theorem admissible_twoVisitors : Lockstep (step .sample defaultConfig)
    (Admissible .sample defaultConfig) oneLink oneLink twoVisitors := by
  refine ⟨admissible_typeAddress, ⟨paired_self rfl, rfl, ?_, ?_⟩,
    ⟨paired_self rfl, rfl, ?_, fun _ => ?_⟩, trivial⟩
  · decide +kernel
  · intro h
    cases h
  · decide +kernel
  · decide +kernel

theorem responses_agree_iff_oneAddress :
    outputs (step .sample defaultConfig) oneLink (twoVisitors.map Prod.fst) =
        outputs (step .sample defaultConfig) oneLink (twoVisitors.map Prod.snd) ↔
      Lockstep (step .sample defaultConfig) (Agree .sample defaultConfig) oneLink oneLink
        twoVisitors :=
  responses_agree_iff .sample defaultConfig oneLink twoVisitors admissible_twoVisitors

/-- After the same answer to the address, the page asks the one for a code and
the other for an address again. -/
theorem page_tells_address :
    Admissible .sample defaultConfig oneLink oneLink
        (typeAddress 0 "a@b.c") (typeAddress 0 "x@y.z") ∧
      outputs (step .sample defaultConfig) oneLink [typeAddress 0 "a@b.c", lookAgain 1] ≠
        outputs (step .sample defaultConfig) oneLink [typeAddress 0 "x@y.z", lookAgain 1] :=
  ⟨admissible_typeAddress, by decide +kernel⟩

end Disclosure

end Outletbox
