import Outletbox.Http.Panel

/-!
# Cases, links and items

The routes of `http/admin.ts` that work on the deliveries, and the upload
protocol of `http/tus.ts`.  They read the accounts and the address groups and
change neither.
-/

namespace Outletbox

variable (P : Platform) (cfg : Config)

/-! ## Shared parts -/

/-- What the case routes only read. -/
structure Directory where
  accounts : AccountDb
  groups : GroupDb

/-- `caseFor`: the case, if this account may work on it.  A case someone is not
assigned to answers exactly like one that does not exist. -/
def caseFor (s : Signed) (id : String) (d : DeliveryDb) : Option Case :=
  match getCase id d with
  | none => none
  | some c => if canAccessCase s.viewer c.id d then some c else none

/-- What a case page says about the outcome of an action. -/
structure CaseExtra where
  error : Option Text := none
  ok : Option Text := none
  newLink : Option NewLink := none

/-- The page of a case. -/
def casePageData (dir : Directory) (extra : CaseExtra) (c : Case) (d : DeliveryDb) :
    CasePageData where
  case := c
  links := listLinksForCase c.id d
  recipients := recipientsForCase c.id d
  groups := listGroups dir.accounts dir.groups
  items := listItemsForCase c.id d
  members := caseMembers c.id dir.accounts d
  assignable := assignableUsers c.id dir.accounts d
  error := extra.error
  ok := extra.ok
  newLink := extra.newLink

/-- `renderCase(req, res, '')`. -/
def caseMissing (req : Request) : Response PanelPage :=
  errorResponse P req .errorNotFoundTitle .errorCaseMissing 404

def renderCase (req : Request) (s : Signed) (dir : Directory) (caseId : String)
    (extra : CaseExtra) (status : Nat) (d : DeliveryDb) : Response PanelPage :=
  match caseFor s caseId d with
  | none => caseMissing P req
  | some c =>
      if !(listLinksForCase c.id d).all Link.isReadable then serverError
      else { status := status, page := .case (s.view P req) (casePageData dir extra c d) }

/-- A refused request, with its answer. -/
def refuse {σ : Type} (d : σ) (response : Response PanelPage) : Outcome σ PanelPage :=
  { state := d, response := response }

/-- An audit event about a case. -/
def Signed.caseEvent (s : Signed) (req : Request) (action caseId : String)
    (details : List (String × AuditValue)) : AuditEvent :=
  { s.event req action details with caseId := some caseId }

/-- An audit event about a link. -/
def Signed.linkEvent (s : Signed) (req : Request) (action : String) (link : Link)
    (details : List (String × AuditValue)) : AuditEvent :=
  { s.caseEvent req action link.caseId details with linkId := some link.id }

/-- An audit event about an item. -/
def Signed.itemEvent (s : Signed) (req : Request) (action caseId itemId : String)
    (details : List (String × AuditValue)) : AuditEvent :=
  { s.caseEvent req action caseId details with itemId := some itemId }

def numberDetail (n : Option Nat) : AuditValue := (n.map fun n => AuditValue.number n).getD .null

/-- The page of a case a path names, for a session that may work on it. -/
def withCase (id : String) (req : Request) (s : Signed) (d : DeliveryDb)
    (f : Case → Outcome DeliveryDb PanelPage) : Outcome DeliveryDb PanelPage :=
  match (validId id).bind fun id => caseFor s id d with
  | none => refuse d (caseMissing P req)
  | some c => f c

/-- The link a path names, for a session that may work on its case. -/
def withLink (id : String) (req : Request) (s : Signed) (d : DeliveryDb)
    (f : Link → Outcome DeliveryDb PanelPage) : Outcome DeliveryDb PanelPage :=
  let missing := errorResponse P req .errorNotFoundTitle .errorLinkMissing 404
  match (validId id).bind fun id => getLink id d with
  | none => refuse d missing
  | some link =>
      if !link.isReadable then refuse d serverError
      else if (caseFor s link.caseId d).isNone then refuse d missing
      else f link

/-! ## Cases -/

def casesPage (req : Request) (s : Signed) (error : Option Text) (status : Nat) (d : DeliveryDb) :
    Response PanelPage :=
  { status := status, page := .cases (s.view P req) (listCases s.viewer d) error }

/-- `POST /cases`. -/
def postCase (req : Request) (s : Signed) (d : DeliveryDb) : Outcome DeliveryDb PanelPage :=
  match createCase req.now req.random.id (req.field "name") (req.field "description") d with
  | .error e => refuse d (casesPage P req s (some (errorText (req.lang P) e)) 400 d)
  | .ok (c, d) =>
      -- a user who opens a case works on it; an administrator sees it anyway
      let d := if s.admin.role = .admin then d else (addCaseMember req.now c.id s.admin.id d).2
      { state := d
        response := { status := 303, page := .redirect ("/admin/cases/" ++ c.id) }
        audit := [s.caseEvent req "case.create" c.id [("name", .text c.name)]] }

/-- `GET /cases/:id`. -/
def showCase (id : String) (req : Request) (s : Signed) (dir : Directory) (d : DeliveryDb) :
    Response PanelPage :=
  match validId id with
  | none => caseMissing P req
  | some id => renderCase P req s dir id {} 200 d

/-- `POST /cases/:id`. -/
def postCaseUpdate (id : String) (req : Request) (s : Signed) (dir : Directory) (d : DeliveryDb) :
    Outcome DeliveryDb PanelPage :=
  withCase P id req s d fun c =>
    match updateCase req.now c.id
        { name := some (req.field "name"), description := some (req.field "description") } d with
    | .error e =>
        refuse d (renderCase P req s dir c.id { error := some (errorText (req.lang P) e) } 400 d)
    | .ok (none, d) => refuse d (caseMissing P req)
    | .ok (some _, d) =>
        { state := d
          response := renderCase P req s dir c.id { ok := some (t (req.lang P) .caseSaved) } 200 d
          audit := [s.caseEvent req "case.update" c.id []] }

/-- The status a form asks for. -/
def formStatus (req : Request) : CaseStatus :=
  if req.field "status" == "closed" then .isClosed else .isOpen

/-- `POST /cases/:id/status`. -/
def postCaseStatus (id : String) (req : Request) (s : Signed) (d : DeliveryDb) :
    Outcome DeliveryDb PanelPage :=
  withCase P id req s d fun c =>
    let status := formStatus req
    match updateCase req.now c.id { status := some status } d with
    | .error _ => refuse d serverError
    | .ok (none, d) => refuse d (caseMissing P req)
    | .ok (some _, d) =>
        -- a closed case must stop serving downloads to whoever is already inside
        { state := if status = .isClosed then destroyAccessSessionsForCase c.id d else d
          response := { status := 303, page := .redirect ("/admin/cases/" ++ c.id) }
          audit := [s.caseEvent req
            (if status = .isClosed then "case.close" else "case.reopen") c.id []] }

/-- `POST /cases/:id/notes`. -/
def postNote (id : String) (req : Request) (s : Signed) (dir : Directory) (d : DeliveryDb) :
    Outcome DeliveryDb PanelPage :=
  withCase P id req s d fun c =>
    let lang := req.lang P
    match createNote req.now req.random.id
        ⟨c.id, req.field "title", req.field "body", some s.admin.id⟩ d with
    | .error _ =>
        refuse d (renderCase P req s dir c.id { error := some (t lang .itemsNoteEmpty) } 400 d)
    | .ok (note, d) =>
        { state := d
          response := renderCase P req s dir c.id { ok := some (t lang .itemsNoteAdded) } 200 d
          audit := [s.itemEvent req "note.create" c.id note.id [("title", .text note.title)]] }

/-! ## Links -/

/-- The language picked in the form for addresses that do not name one. -/
def formLang (req : Request) : Lang := (isLang (req.field "lang")).getD (req.lang P)

/-- The addresses a form asked for: the typed list plus the members of a group. -/
def recipientsFromForm (req : Request) (dir : Directory) : Except Failure (List RecipientInput) :=
  requireRecipients P (req.field "recipients") (formLang P req)
    (groupMembers (validId (req.field "group")) dir.accounts dir.groups)

/-- The expiry a form asks for; `none` when it is not a date. -/
def expiryFromForm (req : Request) : Option (Option Int) :=
  let raw := trim (req.field "expires_at")
  if raw == "" then some none
  else (P.parseDate (if raw.toList.getLast? = some 'Z' then raw else raw ++ "Z")).map some

/-- The opening limit a form asks for. -/
def maxOpensFromForm (req : Request) : Option (Option Int) :=
  let raw := trim (req.field "max_opens")
  if raw == "" then none else some (P.integer raw)

/-- What a request draws for `createLink`. -/
def Request.linkDraw (req : Request) : LinkDraw := ⟨req.random.id, req.random.token, req.random.ids⟩

/-- The link a form asks for, or the text of the error. -/
def linkFromForm (req : Request) (dir : Directory) (caseId : String) (d : DeliveryDb) :
    Except Text ((Link × List LinkRecipient × String) × DeliveryDb) :=
  let lang := req.lang P
  match expiryFromForm P req with
  | none => .error (t lang .errorInvalidExpiry)
  | some expiresAt =>
      match recipientsFromForm P req dir with
      | .error e => .error (errorText lang e)
      | .ok recipients =>
          match createLink P cfg req.now req.linkDraw
              ⟨caseId, req.field "label", recipients, expiresAt, maxOpensFromForm P req⟩ d with
          | .error e => .error (errorText lang e)
          | .ok created => .ok created

/-- The addresses of an audit event, each with its language. -/
def recipientDetail (recipients : List LinkRecipient) : AuditValue :=
  .texts (recipients.map fun r => r.email ++ " " ++ r.lang.code)

/-- `POST /cases/:id/links`. -/
def postLink (id : String) (req : Request) (s : Signed) (dir : Directory) (d : DeliveryDb) :
    Outcome DeliveryDb PanelPage :=
  withCase P id req s d fun c =>
    if c.status ≠ .isOpen then
      refuse d (renderCase P req s dir c.id
        { error := some (t (req.lang P) .caseClosedNoLinks) } 400 d)
    else
      match linkFromForm P cfg req dir c.id d with
      | .error text => refuse d (renderCase P req s dir c.id { error := some text } 400 d)
      | .ok ((link, recipients, url), d) =>
          { state := d
            -- the full URL is shown exactly once, in this response
            response := renderCase P req s dir c.id { newLink := some ⟨link.label, url⟩ } 200 d
            audit := [s.linkEvent req "link.create" link
              [("label", .text link.label), ("recipients", recipientDetail recipients),
                ("expires_at", (link.expiresAt.map AuditValue.date).getD .null),
                ("max_opens", numberDetail link.maxOpens)]] }

/-- `POST /links/:id/reissue`. -/
def postReissue (id : String) (req : Request) (s : Signed) (dir : Directory) (d : DeliveryDb) :
    Outcome DeliveryDb PanelPage :=
  withLink P id req s d fun link =>
    match rotateLinkToken P cfg req.random.token link.id d with
    | .error _ => refuse d serverError
    | .ok (none, d) =>
        refuse d (errorResponse P req .errorNotFoundTitle .errorLinkMissing 404)
    | .ok (some url, d) =>
        -- the previous URL is dead from now on, so any session opened with it goes too
        let d := destroyAccessSessionsForLink req.now link.id d
        { state := d
          response := renderCase P req s dir link.caseId { newLink := some ⟨link.label, url⟩ } 200 d
          audit := [s.linkEvent req "link.reissue" link []] }

/-- `POST /links/:id/recipients`. -/
def postRecipients (id : String) (req : Request) (s : Signed) (dir : Directory) (d : DeliveryDb) :
    Outcome DeliveryDb PanelPage :=
  withLink P id req s d fun link =>
    let lang := req.lang P
    let failed (text : Text) : Outcome DeliveryDb PanelPage :=
      refuse d (renderCase P req s dir link.caseId { error := some text } 400 d)
    if link.revokedAt.isSome then failed (t lang .linksRevokedNoChanges)
    else
      match recipientsFromForm P req dir with
      | .error e => failed (errorText lang e)
      | .ok recipients =>
          match addRecipients P req.now req.random.ids link.id recipients d with
          | .error e => failed (errorText lang e)
          | .ok (added, d) =>
              { state := d
                response := renderCase P req s dir link.caseId
                  { ok := some (.message lang .linksRecipientsAdded
                      [("n", toString added.length), ("label", link.label)]) } 200 d
                audit := if added.isEmpty then [] else
                  [s.linkEvent req "link.recipients_add" link
                    [("recipients", recipientDetail added)]] }

/-- `POST /links/:id/recipients/:rid/remove`. -/
def postRecipientRemove (id rid : String) (req : Request) (s : Signed) (dir : Directory)
    (d : DeliveryDb) : Outcome DeliveryDb PanelPage :=
  withLink P id req s d fun link =>
    let lang := req.lang P
    let page (extra : CaseExtra) (status : Nat) (d : DeliveryDb) : Response PanelPage :=
      renderCase P req s dir link.caseId extra status d
    let missing := refuse d (page { error := some (t lang .errorRecipientMissing) } 404 d)
    match validId rid with
    | none => missing
    | some rid =>
        match removeRecipient link.id rid d with
        | (.missing, _) => missing
        | (.last, d) => refuse d (page { error := some (t lang .linksLastRecipient) } 400 d)
        | (.removed row, d) =>
            { state := d
              response := page
                { ok := some (.message lang .linksRecipientRemoved
                    [("email", row.email), ("label", link.label)]) } 200 d
              audit := [s.linkEvent req "link.recipient_remove" link [("email", .text row.email)]] }

/-- `POST /links/:id/revoke`. -/
def postRevoke (id : String) (req : Request) (s : Signed) (d : DeliveryDb) :
    Outcome DeliveryDb PanelPage :=
  withLink P id req s d fun link =>
    let answer : Response PanelPage :=
      { status := 303, page := .redirect ("/admin/cases/" ++ link.caseId) }
    match revokeLink req.now link.id d with
    | (true, d) =>
        -- whoever is inside right now is thrown out immediately
        { state := destroyAccessSessionsForLink req.now link.id d, response := answer
          audit := [s.linkEvent req "link.revoke" link []] }
    | (false, d) => refuse d answer

/-! ## Items -/

/-- `GET /items/:id/download`. -/
def downloadItem (id : String) (req : Request) (s : Signed) (d : DeliveryDb) :
    Outcome DeliveryDb PanelPage :=
  let missing := refuse d (errorResponse P req .errorNotFoundTitle .errorItemMissing 404)
  match (validId id).bind fun id => getItem id d with
  | none => missing
  | some item =>
      if item.kind ≠ .file ∨ item.status ≠ .ready ∨ (caseFor s item.caseId d).isNone = true then
        missing
      else
        match req.stored with
        | .notFound =>
            refuse d (errorResponse P req .errorStorageMissingTitle .errorStorageMissing 410)
        | .failed => refuse d serverError
        | .found =>
            { state := d
              response := { status := 200, page := .attachment item.id item.title item.size }
              audit := [s.itemEvent req "item.download" item.caseId item.id []] }

/-- `POST /items/:id/delete`. -/
def postItemDelete (id : String) (req : Request) (s : Signed) (d : DeliveryDb) :
    Outcome DeliveryDb PanelPage :=
  let missing := refuse d (errorResponse P req .errorNotFoundTitle .errorItemNotExist 404)
  match (validId id).bind fun id => getItem id d with
  | none => missing
  | some item =>
      let answer : Response PanelPage :=
        { status := 303, page := .redirect ("/admin/cases/" ++ item.caseId) }
      if (caseFor s item.caseId d).isNone then missing
      else
        match markDeleted req.now item.id d with
        | (true, d) =>
            if item.kind = .file ∧ req.stored = .failed then refuse d serverError
            else
              { state := d, response := answer
                audit := [s.itemEvent req "item.delete" item.caseId item.id
                  [("title", .text item.title), ("size", numberDetail item.size)]] }
        | (false, _) =>
            if item.status = .uploading then refuse (failUpload item.id .aborted d).2 answer
            else refuse d answer

/-! ## Case assignments -/

/-- `POST /cases/:id/members`. -/
def postMember (id : String) (req : Request) (s : Signed) (dir : Directory) (d : DeliveryDb) :
    Outcome DeliveryDb PanelPage :=
  withCase P id req s d fun c =>
    let lang := req.lang P
    let unknown := refuse d
      (renderCase P req s dir c.id { error := some (t lang .usersMissing) } 400 d)
    match (validId (req.field "user_id")).bind fun id => getUser id dir.accounts d with
    | none => unknown
    | some user =>
        if user.role ≠ .user ∨ user.disabledAt.isSome = true then unknown
        else
          let (added, d) := addCaseMember req.now c.id user.id d
          { state := d
            response := renderCase P req s dir c.id
              { ok := some (.message lang .membersAdded [("username", user.username)]) } 200 d
            audit := if added then
                [s.caseEvent req "case.member_add" c.id
                  [("user", .text user.id), ("username", .text user.username)]]
              else [] }

/-- `POST /cases/:id/members/:uid/remove`. -/
def postMemberRemove (id uid : String) (req : Request) (s : Signed) (dir : Directory)
    (d : DeliveryDb) : Outcome DeliveryDb PanelPage :=
  withCase P id req s d fun c =>
    let lang := req.lang P
    let unknown := refuse d
      (renderCase P req s dir c.id { error := some (t lang .usersMissing) } 404 d)
    match (validId uid).bind fun id => getUser id dir.accounts d with
    | none => unknown
    | some user =>
        -- taking yourself off would lock you out of the page you are on
        if user.id = s.admin.id then
          refuse d (renderCase P req s dir c.id { error := some (t lang .membersNotSelf) } 400 d)
        else
          match removeCaseMember c.id user.id d with
          | (false, _) => unknown
          | (true, d) =>
              { state := d
                response := renderCase P req s dir c.id
                  { ok := some (.message lang .membersRemoved [("username", user.username)]) } 200 d
                audit := [s.caseEvent req "case.member_remove" c.id
                  [("user", .text user.id), ("username", .text user.username)]] }

/-! ## Uploads -/

/-- What the storage makes of the body of an upload. -/
inductive PutAnswer
  | stored (size : Nat) (sha256 : Option String)
  /-- `StorageLimitError`. -/
  | tooLarge
  /-- Any other error, or a body that ended early. -/
  | failed (reason : String)
  deriving DecidableEq

/-- What the body was stored as, when its size is the announced one. -/
def PutAnswer.checked (declared : Option Nat) : PutAnswer → PutAnswer
  | .stored size sha256 =>
      if declared.any (· ≠ size) then
        .failed ("received " ++ toString size ++ " bytes, Content-Length was " ++
          toString (declared.getD 0))
      else .stored size sha256
  | answer => answer

/-- `safeDecode`. -/
def safeDecode (v : String) : String := (P.decodeURIComponent v).getD v

/-- A refused upload. -/
def uploadRefused (status : Nat) (code : String) (limit : Option Nat) : Response PanelPage :=
  { status := status, page := .json (.uploadRefused code limit) }

/-- `directUpload`. -/
def directUpload (caseId name : String) (declared : Option Nat) (put : PutAnswer) (req : Request)
    (s : Signed) (d : DeliveryDb) : Outcome DeliveryDb PanelPage :=
  match (validId caseId).bind fun id => caseFor s id d with
  | none => refuse d (uploadRefused 404 "case_not_found" none)
  | some c =>
      let originalName := sanitizeFilename P (safeDecode P name)
      let id := newId "f" req.random.id
      let event := fun action details => s.itemEvent req action c.id id details
      if c.status ≠ .isOpen then refuse d (uploadRefused 403 "case_closed" none)
      else
        match startUpload P cfg req.now
            ⟨id, c.id, originalName, .direct, declared, some s.admin.id⟩ d with
        | .error (.fileTooLarge limit) => refuse d (uploadRefused 413 "file_too_large" limit)
        | .error _ => refuse d serverError
        | .ok ((item, maxBytes), d) =>
            let start := event "upload.start"
              [("kind", .text "direct"), ("size", numberDetail declared)]
            match put.checked declared with
            | .tooLarge =>
                { state := (failUpload item.id .aborted d).2
                  response := uploadRefused 413 "file_too_large" maxBytes
                  audit := [start, event "upload.rejected"
                    [("reason", .text "limit"), ("maxBytes", .number maxBytes)]] }
            | .failed reason =>
                { state := (failUpload item.id .aborted d).2
                  response := uploadRefused 400 "upload_incomplete" none
                  audit := [start, event "upload.aborted" [("reason", .text reason)]] }
            | .stored size sha256 =>
                { state := (completeUpload req.now item.id size sha256 d).2
                  response :=
                    { status := 201, page := .json (.uploaded item.id originalName size sha256) }
                  audit := [start, event "upload.complete"
                    [("kind", .text "direct"), ("size", .number size),
                      ("name", .text originalName)]] }

/-- An upload as the tus library hands it to our hooks. -/
structure TusUpload where
  /-- Absent when the length is deferred. -/
  size : Option Nat
  offset : Nat
  caseId : String
  filename : Option String
  deriving DecidableEq

/-- A request of the upload protocol, with what the library makes of it once our
first hook has let it through. -/
inductive TusRequest
  | get | options | head
  /-- A new upload, unless the library refuses it; it may be complete at once. -/
  | post (upload : Option TusUpload) (finished : Bool)
  /-- The upload, when its last byte has arrived. -/
  | patch (finished : Option TusUpload)
  /-- A termination the library carried out. -/
  | delete (terminated : Bool)
  deriving DecidableEq

def TusRequest.method : TusRequest → Method
  | .get => .get
  | .options => .options
  | .head => .head
  | .post _ _ => .post
  | .patch _ => .patch
  | .delete _ => .delete

/-- `onIncomingRequest` for a request that names an upload. -/
def onIncomingRequest (uploadId : String) (s : Signed) (d : DeliveryDb) :
    Option (Response PanelPage) :=
  match getItem uploadId d with
  | none => some (uploadRefused 404 "upload_not_found" none)
  | some item =>
      if !canAccessCase s.viewer item.caseId d then
        some (uploadRefused 404 "upload_not_found" none)
      else if item.status ≠ .uploading then some (uploadRefused 410 "upload_finished" none)
      else none

/-- An answer the library writes itself. -/
def tusAnswer : Response PanelPage := { status := 204, page := .tus }

/-- `onUploadFinish`. -/
def onUploadFinish (uploadId : String) (upload : TusUpload) (req : Request) (s : Signed)
    (d : DeliveryDb) : Outcome DeliveryDb PanelPage :=
  match upload.size with
  | none => refuse d (uploadRefused 500 "incomplete" none)
  | some size =>
      if upload.offset ≠ size then refuse d (uploadRefused 500 "incomplete" none)
      else
        let (changed, d') := completeUpload req.now uploadId size none d
        { state := d', response := tusAnswer
          audit := if changed then
              [{ s.event req "upload.complete"
                  [("kind", .text "tus"), ("size", .number size),
                    ("name", (upload.filename.map AuditValue.text).getD .null)] with
                caseId := (getItem uploadId d).map (·.caseId), itemId := some uploadId }]
            else [] }

/-- `onUploadCreate`. -/
def onUploadCreate (upload : TusUpload) (finished : Bool) (req : Request) (s : Signed)
    (d : DeliveryDb) : Outcome DeliveryDb PanelPage :=
  let id := newId "f" req.random.id
  match upload.size with
  | none => refuse d (uploadRefused 400 "length_required" none)
  | some size =>
      match validId upload.caseId with
      | none => refuse d (uploadRefused 400 "case_required" none)
      | some caseId =>
          match caseFor s caseId d with
          | none => refuse d (uploadRefused 404 "case_not_found" none)
          | some c =>
              if c.status ≠ .isOpen then refuse d (uploadRefused 403 "case_closed" none)
              else
                match startUpload P cfg req.now
                    ⟨id, c.id, upload.filename.getD "unnamed", .tus, some size, some s.admin.id⟩
                    d with
                | .error (.fileTooLarge limit) =>
                    refuse d (uploadRefused 413 "file_too_large" limit)
                | .error _ => refuse d (uploadRefused 500 "internal" none)
                | .ok (_, d) =>
                    let start := s.itemEvent req "upload.start" c.id id
                      [("kind", .text "tus"), ("size", .number size)]
                    let rest := if finished then onUploadFinish id upload req s d
                      else refuse d tusAnswer
                    { rest with audit := start :: rest.audit }

/-- The bookkeeping of `POST_TERMINATE`. -/
def postTerminate (uploadId : String) (d : DeliveryDb) : Outcome DeliveryDb PanelPage :=
  match getItem uploadId d with
  | none => refuse d tusAnswer
  | some item =>
      let (failed, d) := failUpload uploadId .aborted d
      { state := d, response := tusAnswer
        audit := if failed then
            [{ actorType := .admin, action := "upload.cancel", caseId := some item.caseId,
               itemId := some uploadId }]
          else [] }

/-- A request of the upload protocol. -/
def tusHandler (uploadId : String) (request : TusRequest) (req : Request) (s : Signed)
    (d : DeliveryDb) : Outcome DeliveryDb PanelPage :=
  let checked (f : Outcome DeliveryDb PanelPage) : Outcome DeliveryDb PanelPage :=
    match onIncomingRequest uploadId s d with
    | some response => refuse d response
    | none => f
  match request with
  | .get => refuse d (uploadRefused 405 "method_not_allowed" none)
  | .options => refuse d tusAnswer
  | .head => checked (refuse d tusAnswer)
  | .post none _ => refuse d tusAnswer
  | .post (some upload) finished => onUploadCreate P cfg upload finished req s d
  | .patch none => checked (refuse d tusAnswer)
  | .patch (some upload) => checked (onUploadFinish uploadId upload req s d)
  | .delete false => checked (refuse d tusAnswer)
  | .delete true => checked (postTerminate uploadId d)

/-! ## Routes -/

/-- Routes of a complete session, on the deliveries. -/
inductive WorkRoute
  | cases
  | createCase
  | case (id : String)
  | updateCase (id : String)
  | caseStatus (id : String)
  | note (id : String)
  | createLink (id : String)
  | reissue (id : String)
  | addRecipients (id : String)
  | removeRecipient (id rid : String)
  | revoke (id : String)
  | download (id : String)
  | deleteItem (id : String)
  | addMember (id : String)
  | removeMember (id uid : String)
  | upload (caseId name : String) (declared : Option Nat) (put : PutAnswer)
  | tus (uploadId : String) (request : TusRequest)
  deriving DecidableEq

def WorkRoute.method : WorkRoute → Method
  | .cases | .case _ | .download _ => .get
  | .upload _ _ _ _ => .put
  | .tus _ request => request.method
  | _ => .post

/-- Paths under `/api/`. -/
def WorkRoute.isApi : WorkRoute → Bool
  | .upload _ _ _ _ | .tus _ _ => true
  | _ => false

/-- `backToLinkCase`. -/
def backToLinkCase (id : String) (d : DeliveryDb) : String :=
  match (validId id).bind fun id => getLink id d with
  | some link => "/admin/cases/" ++ link.caseId
  | none => "/admin"

/-- The place to go back to is that of a link whose row cannot be read. -/
def WorkRoute.backThrows (d : DeliveryDb) : WorkRoute → Bool
  | .reissue id | .addRecipients id =>
      !((validId id).bind fun id => getLink id d).all Link.isReadable
  | _ => false

/-- The routes behind `requireConfirmed`, with the place to go back to. -/
def WorkRoute.back (req : Request) (d : DeliveryDb) : WorkRoute → Option String
  | .createLink id => some ("/admin/cases/" ++ (validId id).getD "")
  | .reissue id | .addRecipients id => some (backToLinkCase id d)
  | .download _ => some req.originalUrl
  | _ => none

def WorkRoute.handle (route : WorkRoute) (req : Request) (s : Signed) (dir : Directory)
    (d : DeliveryDb) : Outcome DeliveryDb PanelPage :=
  match route with
  | .cases => refuse d (casesPage P req s none 200 d)
  | .createCase => postCase P req s d
  | .case id => refuse d (showCase P id req s dir d)
  | .updateCase id => postCaseUpdate P id req s dir d
  | .caseStatus id => postCaseStatus P id req s d
  | .note id => postNote P id req s dir d
  | .createLink id => postLink P cfg id req s dir d
  | .reissue id => postReissue P cfg id req s dir d
  | .addRecipients id => postRecipients P id req s dir d
  | .removeRecipient id rid => postRecipientRemove P id rid req s dir d
  | .revoke id => postRevoke P id req s d
  | .download id => downloadItem P id req s d
  | .deleteItem id => postItemDelete P id req s d
  | .addMember id => postMember P id req s dir d
  | .removeMember id uid => postMemberRemove P id uid req s dir d
  | .upload caseId name declared put => directUpload P cfg caseId name declared put req s d
  | .tus uploadId request => tusHandler P cfg uploadId request req s d

end Outletbox
