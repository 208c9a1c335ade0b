import Outletbox.Config
import Outletbox.Crypto
import Outletbox.Db
import Outletbox.Services.Access

/-!
# Requests and responses

A request as the handlers see it: its cookies, its form, the instant it is
handled at and the random values drawn for it.  What other services answer
while it is handled (a rate limiter, the mail server, the storage) is part of
it, so that a handler is a function.
-/

namespace Outletbox

variable (P : Platform) (cfg : Config)

/-! ## Requests -/

/-- The random values of a request, each already in the text form its drawing
function returns. -/
structure Random where
  /-- The identifier of the row the request creates. -/
  id : String
  /-- The identifiers of the rows of a list, in order. -/
  ids : Nat → String
  /-- `newToken()`. -/
  token : String
  /-- `newSessionId()`. -/
  sessionId : String
  /-- `newCsrfToken()`. -/
  csrfToken : String
  /-- `newFlowToken()`. -/
  flowToken : String
  /-- `newAccessCode()`. -/
  code : String
  /-- The salt of `hashPassword`. -/
  salt : String
  /-- `newTempPassword()`. -/
  password : String
  /-- The public identifier of a session. -/
  publicId : String
  /-- `generateTotpSecret()`, decoded. -/
  totpSecret : Bytes
  /-- `generateRecoveryCodes()`. -/
  recoveryCodes : List String
  /-- A challenge of a passkey ceremony or of a device binding. -/
  challenge : String
  /-- A bound cookie. -/
  cookie : String

/-- What the storage answers when an object is read. -/
inductive StorageAnswer
  | found
  /-- `StorageNotFoundError`. -/
  | notFound
  /-- Any other error. -/
  | failed
  deriving DecidableEq

structure Request where
  /-- The instant the request is handled at. -/
  now : Int
  ip : Option String
  originalUrl : String
  /-- The `Cookie` header. -/
  cookieHeader : Option String
  /-- What `negotiateLang` makes of the `Accept-Language` header. -/
  negotiatedLang : Lang
  /-- The values a field of the form has, in order. -/
  body : String → List String
  /-- The values a parameter of the query string has, in order. -/
  query : String → List String
  userAgent : Option String
  /-- `Sec-Fetch-Site`. -/
  fetchSite : Option String
  /-- `Sec-Fetch-Dest`. -/
  fetchDest : Option String
  /-- `Origin`. -/
  origin : Option String
  /-- The origin the request was sent to. -/
  hostOrigin : String
  /-- `X-CSRF-Token`. -/
  csrfHeader : Option String
  /-- `Secure-Session-Response`. -/
  sessionResponse : Option String
  /-- `Sec-Secure-Session-Id`. -/
  secureSessionId : Option String
  /-- The limiter in front of every delivery page refuses the address. -/
  publicThrottled : Bool
  /-- The limiter of the route refuses the address. -/
  throttled : Bool
  random : Random
  /-- The mail server takes the message. -/
  mailSent : Bool
  stored : StorageAnswer

/-- A request to evaluate the model on: a form sent from the site itself. -/
def Request.sample (now : Int) (cookieHeader : String) (body : String → List String) : Request where
  now := now
  ip := none
  originalUrl := "/"
  cookieHeader := some cookieHeader
  negotiatedLang := .en
  body := body
  query := fun _ => []
  userAgent := none
  fetchSite := some "same-origin"
  fetchDest := none
  origin := none
  hostOrigin := "http://localhost:3000"
  csrfHeader := none
  sessionResponse := none
  secureSessionId := none
  publicThrottled := false
  throttled := false
  random :=
    { id := "1", ids := fun _ => "1", token := "1", sessionId := "1", csrfToken := "1",
      flowToken := "1", code := "123456", salt := "salt", password := "1", publicId := "1",
      totpSecret := [], recoveryCodes := [], challenge := "1", cookie := "1" }
  mailSent := true
  stored := .found

/-- A form field that was sent once, or nothing. -/
def Request.field (req : Request) (name : String) : String :=
  match req.body name with
  | [v] => v
  | _ => ""

/-- A parameter of the query string, when it was given once. -/
def Request.queryParam (req : Request) (name : String) : Option String :=
  match req.query name with
  | [v] => some v
  | _ => none

/-- An identifier of the right form. -/
def validId (id : String) : Option String := if isId id then some id else none

/-! ## Cookies -/

/-- `parseCookies`, part by part: the names and values that could be read. -/
def cookiePart (part : List Char) : Option (String × String) :=
  match part.span (· != '=') with
  | (name, '=' :: value) =>
      let name := trim (String.ofList name)
      if name == "" then none
      else (P.decodeURIComponent (trim (String.ofList value))).map fun v => (name, v)
  | _ => none

def parseCookies (header : Option String) : List (String × String) :=
  match header with
  | none => []
  | some h => (h.toList.splitOn ';').filterMap (cookiePart P)

/-- A cookie that is present and not empty.  Of several of one name the last counts. -/
def Request.cookie (req : Request) (name : String) : Option String :=
  match (parseCookies P req.cookieHeader).reverse.find? (·.1 == name) with
  | some (_, "") => none
  | some (_, v) => some v
  | none => none

def sessionCookieName : String := "outletbox_sid"

def boundCookieName : String := "outletbox_bound"

def accessCookieName : String := "outletbox_access"

def flowCookieName : String := "outletbox_flow"

def langCookieName : String := "outletbox_lang"

/-- A `Set-Cookie` header. -/
structure SetCookie where
  name : String
  value : String
  path : String
  maxAgeSec : Nat
  secure : Bool
  deriving DecidableEq, Repr

/-- `cookie(ctx, name, value, maxAgeSec)`: `HttpOnly; SameSite=Lax; Path=/`. -/
def setCookie (name value : String) (maxAgeSec : Nat) : SetCookie :=
  ⟨name, value, "/", maxAgeSec, cfg.cookieSecure⟩

def clearCookie (name : String) : SetCookie := ⟨name, "", "/", 0, false⟩

/-! ## Language -/

/-- The language the visitor picked in the footer. -/
def Request.chosenLang (req : Request) : Option Lang :=
  ((parseCookies P req.cookieHeader).reverse.find? (·.1 == langCookieName)).bind fun c =>
    isLang c.2

/-- The language cookie beats `Accept-Language`. -/
def Request.lang (req : Request) : Lang := (req.chosenLang P).getD req.negotiatedLang

/-! ## Guards -/

/-- The request does not come from another site. -/
def checkOrigin (req : Request) : Bool :=
  (req.fetchSite.all fun s => s == "" || s == "same-origin" || s == "none") &&
    req.origin.all fun o => o == "null" || o == cfg.publicOrigin || o == req.hostOrigin

/-! ## Responses -/

structure Response (π : Type) where
  status : Nat
  page : π
  cookies : List SetCookie := []
  /-- Headers of the device binding. -/
  headers : List (String × String) := []
  deriving DecidableEq

/-- An e-mail with a one-time code. -/
structure CodeMail where
  lang : Lang
  address : String
  caseName : String
  code : String
  ttlMinutes : Nat
  deriving DecidableEq

/-- What a handler leaves: the database, the response, what it wrote to the
audit log and what it handed to the mail server. -/
structure Outcome (σ π : Type) where
  state : σ
  response : Response π
  audit : List AuditEvent := []
  mail : List CodeMail := []

end Outletbox
