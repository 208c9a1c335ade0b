import Outletbox.Http.Request
import Outletbox.Services.Groups
import Outletbox.Services.Items
import Outletbox.Services.Links
import Outletbox.Services.Passkeys
import Outletbox.Services.Sessions
import Outletbox.Services.Users

/-!
# The panel: pages and guards

What the handlers of `http/admin.ts` share: the pages with the data their views
read, the session of a request, and the guards in front of a route.
-/

namespace Outletbox

variable (P : Platform) (cfg : Config)

/-! ## Pages -/

/-- `viewCtx`: what every page of the panel is built from. -/
structure PanelView where
  lang : Lang
  csrfToken : String
  username : String
  path : String
  role : Role
  userId : String
  deriving DecidableEq

/-- What the second step of a login offers an account. -/
structure SecondStep where
  passkey : Bool
  totp : Bool
  codes : Bool
  deriving DecidableEq

structure TotpLoginData where
  csrfToken : String
  step : SecondStep
  lockedUntil : Option Int := none
  error : Option Text := none
  attemptsLeft : Option Int := none
  deriving DecidableEq

structure ConfirmPageData where
  next : String
  minutes : Nat
  passkey : Bool
  codes : Bool
  /-- The account has no second factor and confirms with its password. -/
  password : Bool
  error : Option Text
  deriving DecidableEq

/-- The pending secret, as the page shows it to an authenticator app. -/
structure Enrolment where
  secret : Bytes
  account : String
  issuer : String
  deriving DecidableEq

/-- What a page says about the outcome of an action. -/
structure Notice where
  error : Option Text := none
  ok : Option Text := none
  recoveryCodes : Option (List String) := none
  deriving DecidableEq

structure SecurityPageData where
  totpEnabled : Bool
  totpRequired : Bool
  issuer : String
  recoveryLeft : Nat
  passkeys : List Passkey
  sessions : List SessionSummary
  mustChangePassword : Bool
  enrol : Option Enrolment
  notice : Notice
  deriving DecidableEq

structure NewLink where
  label : String
  url : String
  deriving DecidableEq

structure CasePageData where
  case : Case
  links : List Link
  recipients : List LinkRecipient
  groups : List Group
  items : List ItemRow
  members : List MemberSummary
  assignable : List MemberSummary
  error : Option Text
  ok : Option Text
  newLink : Option NewLink
  deriving DecidableEq

/-- What the group form was trying to save. -/
structure GroupDraft where
  id : Option String
  name : String
  members : String
  deriving DecidableEq

/-- A password shown once. -/
structure IssuedPassword where
  username : String
  password : String
  reset : Bool
  deriving DecidableEq

/-- A row of the audit log with the current name of its actor. -/
structure AuditEntry where
  row : AuditRow
  actorName : Option String
  deriving DecidableEq

/-- A JSON answer. -/
inductive JsonAnswer
  | redirect (target : String)
  | error (text : Text)
  /-- The options of a login or a confirmation with a passkey. -/
  | assertOptions (challenge rpId : String) (allow : List String)
  /-- The options of a passkey registration. -/
  | createOptions (challenge rpId rpName userId userName : String) (exclude : List String)
  /-- The session config the browser keeps for a bound session. -/
  | bindingConfig (bindingId origin : String)
  /-- `{ continue: false }`. -/
  | ended
  | uploaded (id name : String) (size : Nat) (sha256 : Option String)
  | uploadRefused (code : String) (limit : Option Nat)
  deriving DecidableEq

inductive PanelPage
  | plain (text : Text)
  | redirect (target : String)
  /-- To `/admin/confirm`, with the place to go back to. -/
  | confirmFirst (next : String)
  | json (answer : JsonAnswer)
  | error (lang : Lang) (title message : Text) (path : String)
  | login (lang : Lang) (error : Option Text)
  | totpLogin (lang : Lang) (data : TotpLoginData)
  | confirm (view : PanelView) (data : ConfirmPageData)
  | security (view : PanelView) (data : SecurityPageData)
  | cases (view : PanelView) (cases : List CaseSummary) (error : Option Text)
  | case (view : PanelView) (data : CasePageData)
  | groups (view : PanelView) (groups : List Group) (notice : Notice) (draft : Option GroupDraft)
  | users (view : PanelView) (users : List UserSummary) (notice : Notice)
      (issued : Option IssuedPassword)
  | audit (view : PanelView) (entries : List AuditEntry)
  /-- The bytes of a stored object, as an attachment. -/
  | attachment (itemId filename : String) (size : Option Nat)
  /-- What the tus protocol answers without a body of ours. -/
  | tus
  /-- The error page of an exception nobody caught. -/
  | serverError
  deriving DecidableEq

/-! ## The session of a request -/

/-- The session a request was made in. -/
structure Signed where
  sessionId : String
  session : Session

/-- A device-bound session counts only together with its current bound cookie. -/
def sessionMiddleware (req : Request) (d : AccountDb) : Option Signed × AccountDb :=
  match req.cookie P sessionCookieName with
  | none => (none, d)
  | some sid =>
      match getSession P req.now sid d with
      | (none, d) => (none, d)
      | (some session, d) =>
          if checkBoundCookie P req.now sid (req.cookie P boundCookieName) d = .rejected then
            (none, d)
          else (some ⟨sid, session⟩, d)

def Signed.admin (s : Signed) : Admin := s.session.admin

/-- `Pick<Admin, 'id' | 'role'>`. -/
def Signed.viewer (s : Signed) : Viewer := ⟨s.admin.id, s.admin.role⟩

def Signed.view (s : Signed) (req : Request) : PanelView :=
  ⟨req.lang P, s.session.csrfToken, s.admin.username, req.originalUrl, s.admin.role, s.admin.id⟩

/-- The session has been confirmed, and the confirmation still holds. -/
def Session.isConfirmed (now : Int) (s : Session) : Bool := s.confirmedUntil.any fun u => isoLt now u

/-- An audit event of an account. -/
def Signed.event (s : Signed) (req : Request) (action : String)
    (details : List (String × AuditValue)) : AuditEvent :=
  { actorType := .admin, actorId := some s.admin.id, action := action, ip := req.ip,
    details := details }

/-! ## Guards -/

/-- The method of a request.  A `HEAD` request for a page is handled as the `GET` it
stands for; the upload protocol has one of its own. -/
inductive Method
  | get | head | options | post | put | patch | delete
  deriving DecidableEq

/-- `['GET', 'HEAD', 'OPTIONS'].includes(method)`. -/
def Method.isSafe (m : Method) : Bool := m == .get || m == .head || m == .options

/-- The token `csrfProtect` compares: the header, else the field of the form.  The
body of an upload is not read as a form. -/
def sentToken (req : Request) (isApi : Bool) : List String :=
  let form := if isApi then [] else req.body "_csrf"
  match req.csrfHeader with
  | some header => if header == "" then form else [header]
  | none => form

/-- `csrfProtect`, inside a session. -/
def csrfRefusal (req : Request) (method : Method) (isApi : Bool) (s : Signed) :
    Option (Response PanelPage) :=
  if method.isSafe then none
  else if !checkOrigin cfg req then
    some { status := 403, page := .plain (t (req.lang P) .errorCrossSite) }
  else if sentToken req isApi = [s.session.csrfToken] then none
  else some { status := 403, page := .plain (t (req.lang P) .errorCsrf) }

/-- The answer of `requireAdmin` to a request it refuses. -/
def signInFirst (method : Method) (isApi : Bool) (signed : Option Signed) :
    Response PanelPage :=
  if method = .get ∨ method = .head then
    { status := 302,
      page := .redirect (if signed.isSome then "/admin/totp" else "/admin/login") }
  else if isApi then { status := 401, page := .json (.error (.plain "unauthorized")) }
  else { status := 401, page := .plain (.plain "Unauthorized") }

/-- `sendError`. -/
def errorResponse (req : Request) (title message : MessageKey) (status : Nat) :
    Response PanelPage :=
  let lang := req.lang P
  { status := status, page := .error lang (t lang title) (t lang message) req.originalUrl }

def serverError : Response PanelPage := { status := 500, page := .serverError }

/-- The answer of a limiter in front of a sign-in or a confirmation. -/
def tooManyLogins : Response PanelPage :=
  { status := 429, page := .plain (.plain "Too many login attempts. Try again later.") }

/-- A service error in the reader's language when it carries a message key, as it is otherwise. -/
def errorText (lang : Lang) : Failure → Text
  | .recipientList key params => .message lang key params
  | .error message => .plain message
  | _ => .plain "constraint failed"

/-- Only a path inside the panel is a place to go back to. -/
def safeNext (raw : Option String) : String :=
  match raw with
  | none => "/admin"
  | some s =>
      if "/admin".toList.isPrefixOf s.toList && s.toList.all fun c =>
        c != '\\' && c != '\r' && c != '\n' then s
      else "/admin"

end Outletbox
