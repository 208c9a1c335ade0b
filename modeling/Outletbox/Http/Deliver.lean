import Outletbox.Http.Request
import Outletbox.Services.Items
import Outletbox.Services.Links

/-!
# The delivery pages

The routes of `http/deliver.ts`: the address form, the code form, the delivery
itself and its downloads.  A handler is one step on the delivery tables.
-/

namespace Outletbox

variable (P : Platform) (cfg : Config)

/-! ## Pages -/

/-- What every form of the delivery pages is built from. -/
structure DeliverView where
  lang : Lang
  path : String
  flowToken : String
  base : String
  deriving DecidableEq

/-- What the page of a delivery shows. -/
structure PackageData where
  case : Case
  link : Link
  /-- The address this session was opened with. -/
  recipientEmail : Option String
  items : List RecipientItem
  /-- Openings still available after this one, or null when unlimited. -/
  opensLeft : Option Nat
  sessionExpiresAt : Int
  deriving DecidableEq

inductive DeliverPage
  /-- A text/plain answer. -/
  | plain (text : Text)
  | redirect (target : String)
  /-- `linkUnavailablePage`. -/
  | unavailable (lang : Lang) (title message : Text)
  /-- `deliverEmailPage`. -/
  | email (view : DeliverView) (error notice : Option Text)
  /-- `deliverCodePage`; without an error of its own it says that a code was sent. -/
  | code (view : DeliverView) (minutes : Nat) (error : Option Text) (attemptsLeft : Option ℚ)
  /-- `deliverPackagePage`. -/
  | package (view : DeliverView) (data : PackageData)
  /-- The bytes of a stored object, as an attachment. -/
  | attachment (itemId filename : String) (size : Option Nat)
  /-- The error page of an exception nobody caught. -/
  | serverError
  deriving DecidableEq

/-! ## Requests -/

inductive DeliverRoute
  /-- `GET /d/:token`. -/
  | page
  /-- `POST /d/:token/email`. -/
  | email
  /-- `POST /d/:token/code`. -/
  | code
  /-- `POST /d/:token/restart`. -/
  | restart
  /-- `POST /d/:token/close`. -/
  | close
  /-- `GET /d/:token/files/:itemId`. -/
  | file (itemId : String)
  deriving DecidableEq

/-- A request for a delivery page. -/
structure DeliverRequest extends Request where
  token : String
  route : DeliverRoute

/-- The route has a limiter of its own. -/
def DeliverRoute.limited : DeliverRoute → Bool
  | .page | .email | .code => true
  | .restart | .close | .file _ => false

/-- The route takes a form, with the flow token in it. -/
def DeliverRoute.guarded : DeliverRoute → Bool
  | .email | .code | .restart | .close => true
  | .page | .file _ => false

/-- The answer of the route's limiter. -/
def DeliverRoute.limitMessage : DeliverRoute → String
  | .page => "Too many failed attempts. Try again later."
  | _ => "Too many attempts. Try again later."

/-- Gives every visitor of a delivery page a random flow token. -/
def flowMiddleware (req : Request) : String × List SetCookie :=
  match req.cookie P flowCookieName with
  | some existing => (existing, [])
  | none => (req.random.flowToken, [setCookie cfg flowCookieName req.random.flowToken 3600])

/-- The recipient session a visitor is in, with its identifier. -/
def accessMiddleware (req : Request) (d : DeliveryDb) :
    Option (String × AccessSession) × DeliveryDb :=
  match req.cookie P accessCookieName with
  | none => (none, d)
  | some id =>
      let (session, d) := getAccessSession P req.now id d
      (session.map fun s => (id, s), d)

/-- Same checks as the CSRF guard of the panel, but the shared secret is the flow cookie. -/
def publicFormGuard (req : Request) : Option (Response DeliverPage) :=
  if !checkOrigin cfg req then
    some { status := 403, page := .plain (t (req.lang P) .errorCrossSite) }
  else
    match req.cookie P flowCookieName with
    | some v => if req.body "_flow" = [v] then none
        else some { status := 403, page := .plain (t (req.lang P) .errorCsrf) }
    | none => some { status := 403, page := .plain (t (req.lang P) .errorCsrf) }

/-! ## The link -/

/-- `linkUnavailablePage` with a title and a message of the dictionary. -/
def unavailablePage (status : Nat) (lang : Lang) (title message : MessageKey) :
    Response DeliverPage :=
  { status := status, page := .unavailable lang (t lang title) (t lang message) }

/-- `LINK_STATE_MESSAGES`. -/
def LinkState.message : LinkState → Option MessageKey
  | .active => none
  | .expired => some .linkExpired
  | .revoked => some .linkRevoked
  | .caseClosed => some .linkCaseClosed
  | .exhausted => some .linkExhausted

/-- The session belongs to the link. -/
def isFor (link : Link) (access : Option (String × AccessSession)) : Bool :=
  access.any fun a => a.2.linkId == link.id

/-- The answer when the link cannot be used.  An exhausted link still lets a
session that is already open finish its downloads. -/
def unavailable (lang : Lang) (access : Option (String × AccessSession)) (resolved : ResolvedLink) :
    Option (Response DeliverPage) :=
  match resolved.state.message with
  | none => none
  | some message =>
      if resolved.state = .exhausted ∧ isFor resolved.link access = true then none
      else some (unavailablePage 403 lang .linkUnavailableTitle message)

/-- The person a session belongs to. -/
def sessionRecipient (resolved : ResolvedLink) (access : Option (String × AccessSession)) :
    Option LinkRecipient :=
  access.bind fun a => resolved.recipients.find? fun r => some r.id == a.2.recipientId

/-- The language of the pages of a link: the one the visitor chose, else the
recipient's, else the one all recipients share. -/
def deliveryLang (req : Request) (access : Option (String × AccessSession))
    (resolved : ResolvedLink) : Lang :=
  if (req.chosenLang P).isSome then req.lang P
  else
    let me := if isFor resolved.link access then sessionRecipient resolved access else none
    ((me.map (·.lang)).or (sharedLang resolved.recipients)).getD (req.lang P)

/-- What a handler knows once its link is loaded. -/
structure Visit where
  lang : Lang
  flowToken : String
  access : Option (String × AccessSession)
  resolved : ResolvedLink
  /-- The cookies to set with any answer. -/
  cookies : List SetCookie

/-- Resolves the token, or answers with the right "nothing to see here" page. -/
def load (r : DeliverRequest) (flowToken : String) (access : Option (String × AccessSession))
    (d : DeliveryDb) : Except (Response DeliverPage) Visit :=
  match resolveToken P r.now r.token d with
  | none => .error (unavailablePage 404 (r.lang P) .linkInvalidTitle .linkInvalid)
  | some resolved =>
      if !resolved.link.isReadable then .error { status := 500, page := .serverError }
      else
        let lang := deliveryLang P r.toRequest access resolved
        match unavailable lang access resolved with
        | some response => .error response
        | none => .ok ⟨lang, flowToken, access, resolved, []⟩

def base (r : DeliverRequest) : String := "/d/" ++ r.token

def Visit.view (v : Visit) (r : DeliverRequest) (path : String) : DeliverView :=
  ⟨v.lang, path, v.flowToken, base r⟩

/-- `Math.round(cfg.accessCodeTtlMs / 60_000)`. -/
def codeMinutes : Nat := (cfg.accessCodeTtlMs + 30000) / 60000

/-- The visitor is in a session of this link. -/
def Visit.isOpen (v : Visit) : Bool := isFor v.resolved.link v.access

def Visit.me (v : Visit) : Option LinkRecipient := sessionRecipient v.resolved v.access

/-! ## Handlers -/

/-- A code was sent to this browser and can still be typed. -/
def pendingChallenge (now : Int) (linkId flowToken : String) (d : DeliveryDb) : Bool :=
  d.challenges.any fun c =>
    c.linkId == linkId && c.flowHash == P.sha256Hex flowToken && c.isPending now

/-- `GET /d/:token`. -/
def showDelivery (r : DeliverRequest) (v : Visit) (d : DeliveryDb) :
    Outcome DeliveryDb DeliverPage :=
  let view := v.view r r.originalUrl
  match v.access with
  | some (_, session) =>
      if session.linkId == v.resolved.link.id then
        { state := d
          response :=
            { status := 200
              page := .package view
                { case := v.resolved.case, link := v.resolved.link,
                  recipientEmail := v.me.map (·.email),
                  items := listItemsForRecipient v.resolved.case.id d,
                  opensLeft := openingsLeft v.resolved.link,
                  sessionExpiresAt := session.expiresAt } } }
      else knock view
  | none => knock view
where
  /-- The form for a visitor without a session of the link. -/
  knock (view : DeliverView) : Outcome DeliveryDb DeliverPage :=
    let d := touchLink r.now v.resolved.link.id d
    let page := if pendingChallenge P r.now v.resolved.link.id v.flowToken d then
        DeliverPage.code view (codeMinutes cfg) none none
      else .email view none none
    { state := d, response := { status := 200, page := page } }

/-- An audit event of a recipient, at a link. -/
def Visit.event (v : Visit) (r : DeliverRequest) (actorId : Option String) (action : String)
    (details : List (String × AuditValue)) : AuditEvent :=
  { actorType := .recipient, actorId := actorId, action := action,
    caseId := some v.resolved.case.id, linkId := some v.resolved.link.id, ip := r.ip,
    details := details }

/-- The address typed into the form. -/
def typedAddress (r : DeliverRequest) : String :=
  normalizeEmail P (String.intercalate "," (r.body "email"))

/-- What `POST /email` asks `createChallenge` for. -/
def Visit.challengeInput (v : Visit) (r : DeliverRequest) (recipient : LinkRecipient) :
    ChallengeInput :=
  ⟨v.resolved.link.id, recipient.id, v.flowToken, r.ip⟩

/-- What `POST /email` draws for `createChallenge`. -/
def DeliverRequest.challengeDraw (r : DeliverRequest) : ChallengeDraw :=
  ⟨r.random.id, r.random.code, r.random.salt⟩

/-- `POST /d/:token/email`. -/
def postEmail (r : DeliverRequest) (v : Visit) (d : DeliveryDb) : Outcome DeliveryDb DeliverPage :=
  let view := v.view r (base r)
  let failed (status : Nat) (key : MessageKey) : Response DeliverPage :=
    { status := status, page := .email view (some (t v.lang key)) none }
  let codePage : Response DeliverPage :=
    { status := 200, page := .code view (codeMinutes cfg) none none }
  if !isValidEmail (typedAddress P r) then
    { state := d, response := failed 400 .deliverEmailInvalid }
  else
    match findRecipient P v.resolved.recipients (typedAddress P r) with
    | none =>
        { state := d, response := codePage,
          audit := [v.event r none "access.email_mismatch" []] }
    | some recipient =>
        let event := fun action => v.event r (some recipient.id) action
          [("email", .text recipient.email)]
        match createChallenge P cfg r.now r.challengeDraw (v.challengeInput r recipient) d with
        | .error (.challengeRate _) =>
            { state := d, response := failed 429 .deliverTooMany,
              audit := [event "access.rate_limited"] }
        | .error _ => { state := d, response := { status := 500, page := .serverError } }
        | .ok ((_, code), d) =>
            let mail : CodeMail := ⟨recipient.lang, recipient.email, v.resolved.case.name, code,
              codeMinutes cfg⟩
            if r.mailSent then
              { state := d, response := codePage, audit := [event "access.code_sent"],
                mail := [mail] }
            else
              { state := d, response := failed 502 .deliverMailFailed,
                audit := [event "access.code_send_failed"], mail := [mail] }

/-- The digits of the code form, joined. -/
def codeFromBody (r : DeliverRequest) : String := slice 64 (String.join (r.body "code"))

/-- What `POST /code` asks `verifyChallenge` for. -/
def Visit.verifyInput (v : Visit) (r : DeliverRequest) : VerifyInput :=
  ⟨v.resolved.link.id, v.flowToken, codeFromBody r⟩

/-- The address of a person who may be unknown. -/
def emailDetail (recipient : Option LinkRecipient) : List (String × AuditValue) :=
  recipient.toList.map fun x => ("email", .text x.email)

/-- What follows an accepted code: the opening is counted and a session is created. -/
def openSession (r : DeliverRequest) (v : Visit) (recipientId : Option String) (d : DeliveryDb) :
    Outcome DeliveryDb DeliverPage :=
  let (opened, d) := registerOpen r.now v.resolved.link.id d
  if !opened then
    { state := d, response := unavailablePage 403 v.lang .linkUnavailableTitle .linkExhausted }
  else
    let recipient := v.resolved.recipients.find? fun x => some x.id == recipientId
    let d := match recipient with
      | some x => recordRecipientOpen r.now x.id d
      | none => d
    match createAccessSession P cfg r.now ⟨r.random.sessionId, r.random.csrfToken⟩
        v.resolved.link.id (recipient.map (·.id)) r.ip d with
    | .error _ => { state := d, response := { status := 500, page := .serverError } }
    | .ok ((sessionId, session), d) =>
        let cookie := setCookie cfg accessCookieName sessionId (cfg.accessSessionTtlMs / 1000)
        { state := d,
          response := { status := 303, page := .redirect (base r), cookies := [cookie] },
          audit := [v.event r (some ((recipient.map (·.id)).getD v.resolved.link.id))
            "access.granted" (emailDetail recipient ++ [("expires_at", .date session.expiresAt)])] }

/-- `POST /d/:token/code`. -/
def postCode (r : DeliverRequest) (v : Visit) (d : DeliveryDb) : Outcome DeliveryDb DeliverPage :=
  let view := v.view r (base r)
  match verifyChallenge P cfg r.now (v.verifyInput r) d with
  | (.invalid attemptsLeft, d) =>
      { state := d
        response :=
          { status := 401
            page := .code view (codeMinutes cfg) (some (t v.lang .deliverCodeInvalid))
              (some attemptsLeft) }
        audit := [v.event r none "access.code_failed" [("attempts_left", .number attemptsLeft)]] }
  | (.gone, d) =>
      { state := d
        response :=
          { status := 401
            page := .email view (some (t v.lang .deliverCodeExpired)) none }
        audit := [v.event r none "access.code_expired" []] }
  | (.ok recipientId, d) => openSession P cfg r v recipientId d

/-- `POST /d/:token/restart`. -/
def postRestart (r : DeliverRequest) (v : Visit) (d : DeliveryDb) :
    Outcome DeliveryDb DeliverPage :=
  { state := restartChallenges P r.now v.resolved.link.id v.flowToken d
    response := { status := 303, page := .redirect (base r) } }

/-- `POST /d/:token/close`. -/
def postClose (r : DeliverRequest) (v : Visit) (d : DeliveryDb) :
    Outcome DeliveryDb DeliverPage :=
  let response : Response DeliverPage :=
    { status := 200
      page := .email (v.view r (base r)) none (some (t v.lang .deliverSessionOver))
      cookies := [clearCookie accessCookieName] }
  match v.access with
  | none => { state := d, response := response }
  | some (id, session) =>
      { state := destroyAccessSession P id d
        response := response
        audit := [v.event r (some (session.recipientId.getD v.resolved.link.id)) "access.closed" []] }

/-- `GET /d/:token/files/:itemId`. -/
def getFile (itemId : String) (r : DeliverRequest) (v : Visit) (d : DeliveryDb) :
    Outcome DeliveryDb DeliverPage :=
  let answer (response : Response DeliverPage) : Outcome DeliveryDb DeliverPage :=
    { state := d, response := response }
  if !v.isOpen then answer { status := 303, page := .redirect (base r) }
  else
    match (validId itemId).bind fun id => getItem id d with
    | none => answer (unavailablePage 404 v.lang .errorNotFoundTitle .errorItemMissing)
    | some item =>
        if item.caseId ≠ v.resolved.case.id ∨ item.kind ≠ .file ∨ item.status ≠ .ready then
          answer (unavailablePage 404 v.lang .errorNotFoundTitle .errorItemMissing)
        else
          match r.stored with
          | .notFound =>
              answer (unavailablePage 410 v.lang .errorStorageMissingTitle .errorItemMissing)
          | .failed => answer { status := 500, page := .serverError }
          | .found =>
              let event := v.event r (some ((v.me.map (·.id)).getD v.resolved.link.id))
                "item.download" (("name", .text item.title) :: emailDetail v.me)
              { state := d
                response := { status := 200, page := .attachment item.id item.title item.size }
                audit := [{ event with itemId := some item.id }] }

/-- The handler of a route. -/
def DeliverRoute.handle (route : DeliverRoute) (r : DeliverRequest) (v : Visit) (d : DeliveryDb) :
    Outcome DeliveryDb DeliverPage :=
  match route with
  | .page => showDelivery P cfg r v d
  | .email => postEmail P cfg r v d
  | .code => postCode P cfg r v d
  | .restart => postRestart P r v d
  | .close => postClose P r v d
  | .file itemId => getFile itemId r v d

/-- The limiter and the guard in front of a route. -/
def admission (r : DeliverRequest) : Option (Response DeliverPage) :=
  if r.route.limited && r.throttled then
    some { status := 429, page := .plain (.plain r.route.limitMessage) }
  else if r.route.guarded then publicFormGuard P cfg r.toRequest
  else none

/-- What stands before a handler: the limiters, the middleware, the guard and the
link.  The visit, or the answer of the first of them that refuses. -/
def enter (r : DeliverRequest) (d : DeliveryDb) :
    Except (Response DeliverPage) Visit × DeliveryDb :=
  if r.publicThrottled then
    (.error { status := 429, page := .plain (.plain "Too many requests. Slow down.") }, d)
  else
    let (flowToken, cookies) := flowMiddleware P cfg r.toRequest
    let (access, d) := accessMiddleware P r.toRequest d
    match admission P cfg r with
    | some response => (.error { response with cookies := cookies }, d)
    | none =>
        match load P r flowToken access d with
        | .error response => (.error { response with cookies := cookies }, d)
        | .ok visit => (.ok { visit with cookies := cookies }, d)

/-- One request to the delivery pages. -/
def deliver (r : DeliverRequest) (d : DeliveryDb) : Outcome DeliveryDb DeliverPage :=
  match enter P cfg r d with
  | (.error response, d) => { state := d, response := response }
  | (.ok v, d) =>
      let out := r.route.handle P cfg r v d
      { out with response := { out.response with cookies := v.cookies ++ out.response.cookies } }

/-! ## What stands before a handler -/

section

variable {P : Platform} {cfg : Config} {r : DeliverRequest} {d d' : DeliveryDb} {v : Visit}

/-- A session a visitor is in, and the tables that are left. -/
theorem accessMiddleware_cases (req : Request) (d : DeliveryDb) :
    (accessMiddleware P req d).1 = none ∧
        ((accessMiddleware P req d).2 = d ∨ ∃ id,
          (accessMiddleware P req d).2 = destroyAccessSession P id d ∧
            ∃ row ∈ d.accessSessions, row.idHash = P.sha256Hex id ∧ isoLe row.expiresAt req.now) ∨
      (accessMiddleware P req d).2 = d ∧ ∃ id, req.cookie P accessCookieName = some id ∧
        ∃ row ∈ d.accessSessions, row.idHash = P.sha256Hex id ∧ isoLt req.now row.expiresAt ∧
          (accessMiddleware P req d).1 = some (id, row.session) := by
  unfold accessMiddleware
  cases hc : req.cookie P accessCookieName with
  | none => exact .inl ⟨rfl, .inl rfl⟩
  | some id =>
      simp only []
      rcases getAccessSession_cases (P := P) req.now id d with
        ⟨h1, h2⟩ | ⟨h2, row, hmem, hid, hexp, h1⟩
      · rw [h1]
        refine .inl ⟨rfl, ?_⟩
        rcases h2 with h2 | ⟨h2, hrow⟩
        · exact .inl h2
        · exact .inr ⟨id, h2, hrow⟩
      · rw [h1]
        exact .inr ⟨h2, id, rfl, row, hmem, hid, hexp, rfl⟩

/-- What a request has passed when its handler runs. -/
structure Entered (P : Platform) (cfg : Config) (r : DeliverRequest) (d : DeliveryDb) (v : Visit)
    (d' : DeliveryDb) : Prop where
  admitted : admission P cfg r = none
  access : accessMiddleware P r.toRequest d = (v.access, d')
  flow : v.flowToken = (flowMiddleware P cfg r.toRequest).1
  resolved : resolveToken P r.now r.token d' = some v.resolved
  available : unavailable v.lang v.access v.resolved = none

theorem load_ok {flowToken : String} {access : Option (String × AccessSession)}
    (h : load P r flowToken access d = .ok v) :
    v.access = access ∧ v.flowToken = flowToken ∧
      resolveToken P r.now r.token d = some v.resolved ∧
      unavailable v.lang v.access v.resolved = none := by
  unfold load at h
  cases hr : resolveToken P r.now r.token d with
  | none => rw [hr] at h; cases h
  | some resolved =>
      rw [hr] at h
      simp only [] at h
      split at h
      · cases h
      split at h
      · cases h
      · rename_i hu
        cases h
        exact ⟨rfl, rfl, rfl, hu⟩

theorem enter_ok (h : enter P cfg r d = (.ok v, d')) : Entered P cfg r d v d' := by
  unfold enter at h
  split at h
  · cases h
  simp only [] at h
  split at h
  · cases h
  rename_i hadm
  split at h
  · cases h
  rename_i visit hload
  cases h
  obtain ⟨ha, hf, hr, hu⟩ := load_ok hload
  exact ⟨hadm, by rw [ha], hf, hr, hu⟩

/-- A refused request leaves the tables as the access middleware does. -/
theorem enter_state (h : (enter P cfg r d).2 = d') :
    d' = d ∨ d' = (accessMiddleware P r.toRequest d).2 := by
  unfold enter at h
  split at h
  · exact .inl h.symm
  simp only [] at h
  split at h
  · exact .inr h.symm
  · split at h
    · exact .inr h.symm
    · exact .inr h.symm

end

end Outletbox
