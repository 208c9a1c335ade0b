import Outletbox.Http.Account
import Outletbox.Http.Deliver
import Outletbox.Http.Directory
import Outletbox.Library.History

/-!
# The server

The whole state of the server, and what happens to it: a request to the panel
with the guards it passes, a request to a delivery page, a run of the
housekeeping job, a command of the operator.  Each is one step.
-/

namespace Outletbox

variable (P : Platform) (cfg : Config)

/-- The database, and what the server keeps in memory. -/
structure Server where
  accounts : AccountDb
  deliveries : DeliveryDb
  groups : GroupDb
  auditLog : List AuditRow
  flashes : List Flash
  deriving DecidableEq

/-- The server on a fresh database. -/
def Server.empty : Server := ⟨.empty, .empty, .empty, [], []⟩

/-! ## Routes -/

/-- The routes behind `requireAdmin`. -/
inductive PanelRoute
  | pending (route : PendingRoute)
  | settings (route : SettingsRoute)
  | work (route : WorkRoute)
  | groups (route : GroupRoute)
  | users (route : UserRoute)
  | audit
  deriving DecidableEq

/-- A request to a route behind `requireAdmin`. -/
structure PanelRequest extends Request where
  route : PanelRoute

/-- A request to a route anyone may call. -/
structure OpenRequest extends Request where
  route : OpenRoute

def PanelRoute.method : PanelRoute → Method
  | .pending route => route.method
  | .settings route => route.method
  | .work route => route.method
  | .groups route => route.method
  | .users route => route.method
  | .audit => .get

def PanelRoute.isApi : PanelRoute → Bool
  | .work route => route.isApi
  | _ => false

/-- The route stands before the second `requireAdmin`. -/
def PanelRoute.isPending : PanelRoute → Bool
  | .pending _ => true
  | _ => false

/-- The route is behind `loginFailures`. -/
def PanelRoute.limited : PanelRoute → Bool
  | .pending route => route.limited
  | .settings route => route.limited
  | _ => false

/-- The route stands behind the gate of accounts that have a step to take first. -/
def PanelRoute.isInside : PanelRoute → Bool
  | .pending _ | .settings _ => false
  | _ => true

/-- The route is the administrators' alone. -/
def PanelRoute.adminsOnly : PanelRoute → Bool
  | .users _ | .audit => true
  | _ => false

/-- The place to go back to of a route behind `requireConfirmed`. -/
def PanelRoute.back (req : Request) (d : DeliveryDb) : PanelRoute → Option String
  | .settings route => route.back
  | .work route => route.back req d
  | .users route => route.back
  | _ => none

/-- The place to go back to cannot be looked up. -/
def PanelRoute.backThrows (d : DeliveryDb) : PanelRoute → Bool
  | .work route => route.backThrows d
  | _ => false

/-! ## Guards -/

/-- `requireAdmin({ verified: true })`, for a session that exists. -/
def completeRefusal (r : PanelRequest) (s : Signed) : Option (Response PanelPage) :=
  if r.route.isPending || s.session.totpVerified then none
  else some (signInFirst r.route.method r.route.isApi (some s))

/-- The session a request may go on in: `requireAdmin`, `csrfProtect` and the
second `requireAdmin`. -/
def requireAdmin (r : PanelRequest) (signed : Option Signed) : Except (Response PanelPage) Signed :=
  match signed with
  | none => .error (signInFirst r.route.method r.route.isApi none)
  | some s =>
      match (csrfRefusal P cfg r.toRequest r.route.method r.route.isApi s).or
          (completeRefusal r s) with
      | some response => .error response
      | none => .ok s

/-- A complete session is offered device binding once, on the first page it loads. -/
def offerMiddleware (r : PanelRequest) (s : Signed) (d : AccountDb) :
    List (String × String) × AccountDb :=
  if cfg.deviceBoundSessions && cfg.cookieSecure && !r.route.isPending &&
      r.route.method == .get && r.fetchDest == some "document" then
    match offerBinding P r.now r.random.challenge s.sessionId d with
    | (some challenge, d) =>
        ([("Secure-Session-Registration",
          "(ES256 RS256);path=\"/admin/dbsc/register\";challenge=\"" ++ challenge ++ "\"")], d)
    | (none, d) => ([], d)
  else ([], d)

def limitRefusal (r : PanelRequest) : Option (Response PanelPage) :=
  if r.route.limited && r.throttled then some tooManyLogins else none

/-- The step an account has to take before it may use the panel. -/
def missingStep (s : Signed) : Option String :=
  if s.admin.mustChangePassword then some "Password change required"
  else if cfg.adminRequireTotp && !s.admin.hasSecondFactor then some "Second factor required"
  else none

def readyRefusal (r : PanelRequest) (s : Signed) : Option (Response PanelPage) :=
  if !r.route.isInside then none
  else
    (missingStep cfg s).map fun missing =>
      if r.route.method = .get then { status := 302, page := .redirect "/admin/security" }
      else { status := 403, page := .plain (.plain missing) }

/-- `adminsOnly`. -/
def adminsRefusal (r : PanelRequest) (s : Signed) : Option (Response PanelPage) :=
  if r.route.adminsOnly && s.admin.role != .admin then
    some (errorResponse P r.toRequest .errorForbiddenTitle .errorForbidden 403)
  else none

/-- `requireConfirmed`. -/
def confirmRefusal (r : PanelRequest) (s : Signed) (d : DeliveryDb) :
    Option (Response PanelPage) :=
  match r.route.back r.toRequest d with
  | none => none
  | some target =>
      if s.session.isConfirmed r.now then none
      else if r.route.backThrows d then some serverError
      else some { status := 303, page := .confirmFirst target }

/-- The first guard of a route that refuses. -/
def refusal (r : PanelRequest) (s : Signed) (d : DeliveryDb) : Option (Response PanelPage) :=
  (limitRefusal r).or <| (readyRefusal cfg r s).or <| (adminsRefusal P r s).or <|
    confirmRefusal r s d

/-! ## Handlers -/

def Server.tables (sv : Server) : Tables := ⟨sv.accounts, sv.deliveries, sv.groups⟩

def Server.directory (sv : Server) : Directory := ⟨sv.accounts, sv.groups⟩

def Server.accountState (sv : Server) : AccountState := ⟨sv.accounts, sv.flashes⟩

/-- An outcome on a part of the state as one on the whole. -/
def Outcome.into {σ τ π : Type} (out : Outcome σ π) (f : σ → τ) : Outcome τ π :=
  ⟨f out.state, out.response, out.audit, out.mail⟩

def PanelRoute.handle (route : PanelRoute) (req : Request) (s : Signed) (sv : Server) :
    Outcome Server PanelPage :=
  match route with
  | .pending route =>
      (route.handle P cfg req s sv.accounts).into fun d => { sv with accounts := d }
  | .settings route =>
      (route.handle P cfg req s sv.accountState).into fun st =>
        { sv with accounts := st.accounts, flashes := st.flashes }
  | .work route =>
      (route.handle P cfg req s sv.directory sv.deliveries).into fun d =>
        { sv with deliveries := d }
  | .groups route =>
      (route.handle P req s sv.accounts sv.groups).into fun g => { sv with groups := g }
  | .users route =>
      (route.handle P req s sv.tables).into fun db =>
        { sv with accounts := db.accounts, deliveries := db.deliveries, groups := db.groups }
  | .audit => refuse sv (auditPage P req s sv.accounts sv.auditLog)

/-- A request that has passed `requireAdmin`. -/
def servePanel (r : PanelRequest) (s : Signed) (sv : Server) : Outcome Server PanelPage :=
  match refusal P cfg r s sv.deliveries with
  | some response => refuse sv response
  | none => r.route.handle P cfg r.toRequest s sv

/-- One request to a route behind `requireAdmin`. -/
def panel (r : PanelRequest) (sv : Server) : Outcome Server PanelPage :=
  let (signed, accounts) := sessionMiddleware P r.toRequest sv.accounts
  match requireAdmin P cfg r signed with
  | .error response => refuse { sv with accounts := accounts } response
  | .ok s =>
      let (headers, accounts) := offerMiddleware P cfg r s accounts
      let out := servePanel P cfg r s { sv with accounts := accounts }
      { out with response := { out.response with headers := headers ++ out.response.headers } }

/-- One request to a route anyone may call. -/
def visit (r : OpenRequest) (sv : Server) : Outcome Server PanelPage :=
  let (signed, accounts) := sessionMiddleware P r.toRequest sv.accounts
  let sv := { sv with accounts := accounts }
  if r.route.limited && r.throttled then refuse sv tooManyLogins
  else (r.route.handle P cfg r.toRequest signed accounts).into fun d => { sv with accounts := d }

/-! ## Housekeeping and the command line -/

/-- What a run of the housekeeping job finds outside the database. -/
structure CleanupRun where
  now : Int
  /-- The age at which an unfinished upload is given up. -/
  ttlMs : Int
  /-- The storage answers that the object of an item is gone. -/
  isGone : String → Bool

/-- An audit event of the housekeeping job. -/
def cleanupEvent (action : String) (item : ItemRow) : AuditEvent :=
  { actorType := .system, action := action, caseId := some item.caseId, itemId := some item.id }

/-- The unfinished uploads that are too old. -/
def expireUploads : List ItemRow → DeliveryDb → List AuditEvent × DeliveryDb
  | [], d => ([], d)
  | item :: items, d =>
      let (failed, d) := failUpload item.id .expired d
      let (events, d) := expireUploads items d
      (if failed then cleanupEvent "upload.expired" item :: events else events, d)

/-- The ready files whose object is gone. -/
def flagMissing : List ItemRow → DeliveryDb → List AuditEvent × DeliveryDb
  | [], d => ([], d)
  | item :: items, d =>
      let (events, d) := flagMissing items (markMissing item.id d)
      (cleanupEvent "file.missing" item :: events, d)

/-- What `runCleanup` does to the database. -/
def runCleanup (run : CleanupRun) (sv : Server) : Server × List AuditEvent :=
  let (expired, d) :=
    expireUploads (listStaleUploads run.now run.ttlMs sv.deliveries) sv.deliveries
  let (missing, d) := flagMissing ((listReadyFiles d).filter fun i => run.isGone i.id) d
  ({ sv with
      accounts := purgeExpiredSessions run.now sv.accounts
      deliveries := purgeExpiredAccess run.now d },
    expired ++ missing)

/-- The commands of `cli.ts` that change the database. -/
inductive CliCommand
  | createAdmin (username password : String)
  | resetPassword (username password : String)
  | disableTotp (username : String)

/-- What a command draws. -/
structure CliDraw where
  id : String
  salt : String

def runCli (now : Int) (draw : CliDraw) (command : CliCommand) (d : AccountDb) : AccountDb :=
  match command with
  | .createAdmin username password =>
      match createAdmin P now draw.id draw.salt ⟨username, password, .admin, false⟩ d with
      | .ok (_, d) => d
      | .error _ => d
  | .resetPassword username password =>
      match setAdminPassword P username password draw.salt d with
      | .ok (_, d) => d
      | .error _ => d
  | .disableTotp username =>
      match findAdminByUsername username d with
      | some admin => resetSecondFactors P admin.id d
      | none => d

/-! ## The system -/

inductive Input
  /-- A request to a delivery page. -/
  | deliver (r : DeliverRequest)
  /-- A request to a route of the panel anyone may call. -/
  | visit (r : OpenRequest)
  /-- A request to any other route of the panel. -/
  | panel (r : PanelRequest)
  | cleanup (run : CleanupRun)
  | cli (now : Int) (draw : CliDraw) (command : CliCommand)

/-- The clock at a step. -/
def Input.now : Input → Int
  | .deliver r => r.now
  | .visit r => r.now
  | .panel r => r.now
  | .cleanup run => run.now
  | .cli now _ _ => now

inductive Answer
  | deliver (response : Response DeliverPage)
  | panel (response : Response PanelPage)
  | done
  deriving DecidableEq

structure Output where
  answer : Answer
  audit : List AuditEvent := []
  mail : List CodeMail := []
  deriving DecidableEq

/-- `audit`: the events of a step are written to the log. -/
def Server.record (now : Int) (events : List AuditEvent) (sv : Server) : Server :=
  { sv with auditLog := sv.auditLog ++ events.map (AuditRow.mk now) }

/-- The state and the output of a request to the panel. -/
def answerPanel (now : Int) (out : Outcome Server PanelPage) : Server × Output :=
  (out.state.record now out.audit, { answer := .panel out.response, audit := out.audit })

/-- A request to a delivery page passes the session middleware of the panel, too. -/
def stepDeliver (r : DeliverRequest) (sv : Server) : Server × Output :=
  let out := deliver P cfg r sv.deliveries
  ({ sv with
      accounts := (sessionMiddleware P r.toRequest sv.accounts).2
      deliveries := out.state : Server }.record r.now out.audit,
    { answer := .deliver out.response, audit := out.audit, mail := out.mail })

/-- One step of the server. -/
def Server.step (sv : Server) : Input → Server × Output
  | .deliver r => stepDeliver P cfg r sv
  | .visit r => answerPanel r.now (Outletbox.visit P cfg r sv)
  | .panel r => answerPanel r.now (Outletbox.panel P cfg r sv)
  | .cleanup run =>
      let (sv, events) := runCleanup run sv
      (sv.record run.now events, { answer := .done, audit := events })
  | .cli now draw command =>
      ({ sv with accounts := runCli P now draw command sv.accounts }, { answer := .done })

/-- A step of the server as it was taken. -/
abbrev ServerEvent := History.Event Server Input Output

/-! ## A server to evaluate the model on -/

/-- The fields of a form. -/
def formOf (fields : List (String × String)) (name : String) : List String :=
  (fields.filter fun f => f.1 == name).map (·.2)

/-- The random part of the identifiers a sample request draws. -/
def sampleId : String := "AAAAAAAAAAAAAAAA"

/-- A token of the right form. -/
def tokenOf (c : Char) : String := String.ofList (List.replicate 43 c)

/-- A request whose random values have the forms the routes expect. -/
def Request.drawing (now : Int) (sessionId : String) (token : Char) (cookies : String)
    (fields : List (String × String)) : Request :=
  let base := Request.sample now cookies (formOf fields)
  { base with
    random :=
      { base.random with
        id := sampleId, ids := fun _ => sampleId, token := tokenOf token, sessionId := sessionId,
        csrfToken := "csrf", flowToken := "flow", publicId := sampleId } }

/-- Signing in with a password, in a browser that gets this session. -/
def samplePassword (now : Int) (sessionId : String) : OpenRequest :=
  { Request.drawing now sessionId 'T' ""
      [("username", "root"), ("password", "correct horse")] with
    route := .login }

/-- A form of the panel, sent in a session. -/
def samplePanel (now : Int) (sessionId : String) (token : Char) (route : PanelRoute)
    (fields : List (String × String)) : PanelRequest :=
  { Request.drawing now sessionId token ("outletbox_sid=" ++ sessionId)
      (("_csrf", "csrf") :: fields) with
    route := route }

/-- A request of the browser `flow` to the delivery page of a token. -/
def sampleDeliver (now : Int) (token : Char) (route : DeliverRoute)
    (fields : List (String × String)) : DeliverRequest :=
  { Request.drawing now "access" token "outletbox_flow=flow; outletbox_access=access"
      (("_flow", "flow") :: fields) with
    token := tokenOf token, route := route }

/-- An operator creates the account `root`, which signs in. -/
def signInScript : List Input :=
  [.cli 0 ⟨sampleId, "salt"⟩ (.createAdmin "root" "correct horse"), .visit (samplePassword 1 "sid")]

/-- `root` sends a delivery to one address, which asks for a code. -/
def deliveryScript : List Input :=
  signInScript ++
    [.panel (samplePanel 2 "sid" 'T' (.work .createCase) [("name", "Case")]),
      .panel (samplePanel 3 "sid" 'T' (.work (.createLink (newId "c" sampleId)))
        [("label", "Link"), ("recipients", "a@b.example")]),
      .deliver (sampleDeliver 4 'T' .email [("email", "a@b.example")])]

end Outletbox
