import Outletbox.Http.Panel

/-!
# Signing in, and the account's own settings

The routes of `http/admin.ts` that work on the accounts: the login and its
second step, the device binding, the confirmation of sensitive actions and the
security page.  A handler is one step on the account tables.
-/

namespace Outletbox

variable (P : Platform) (cfg : Config)

/-! ## Shared parts -/

/-- `sendJson`. -/
def sendJson (status : Nat) (answer : JsonAnswer) : Response PanelPage :=
  { status := status, page := .json answer }

/-- A JSON error with a text of the dictionary. -/
def jsonError (req : Request) (status : Nat) (key : MessageKey) : Response PanelPage :=
  sendJson status (.error (t (req.lang P) key))

/-- What every passkey ceremony must be bound to. -/
def relyingParty : RelyingParty := ⟨cfg.publicOrigin, cfg.publicHost⟩

def boundCookie (c : IssuedCookie) : SetCookie :=
  ⟨boundCookieName, c.cookie, "/admin", c.maxAgeSec, cfg.cookieSecure⟩

/-- Ends the session cookie and, for a device-bound session, the bound one too. -/
def clearSessionCookie : List SetCookie :=
  [clearCookie sessionCookieName, ⟨boundCookieName, "", "/admin", 0, false⟩]

/-- `sessionCookie`. -/
def sessionCookie (sessionId : String) : SetCookie :=
  setCookie cfg sessionCookieName sessionId (cfg.sessionTtlMs / 1000)

/-- What a request draws for `createSession`. -/
def Request.sessionDraw (req : Request) : SessionDraw :=
  ⟨req.random.sessionId, req.random.csrfToken, req.random.publicId⟩

/-- What a request draws for a device binding. -/
def Request.bindingDraw (req : Request) : BindingDraw :=
  ⟨req.random.id, req.random.cookie, req.random.challenge⟩

/-- Recorded with the session and shown in the account's session list. -/
def sessionMeta (req : Request) : SessionMeta := ⟨req.ip, req.userAgent⟩

/-- The assertion a browser posted. -/
def assertion (req : Request) (s : Signed) : AssertPasskeyInput :=
  ⟨s.sessionId, s.admin.id, req.field "credential_id",
    ⟨req.field "client_data", req.field "authenticator_data", req.field "signature"⟩⟩

/-- The registration a browser posted. -/
def registration (req : Request) (s : Signed) : RegisterPasskeyInput :=
  ⟨s.sessionId, s.admin.id, req.field "name",
    ⟨req.field "client_data", req.field "authenticator_data", req.field "public_key",
      P.integer (req.field "algorithm"), req.field "credential_id"⟩⟩

/-- A `{ reason }` or a `{ method }` of an audit event. -/
def detail (name value : String) : List (String × AuditValue) := [(name, .text value)]

/-! ## Device-bound sessions -/

/-- `POST /dbsc/register`. -/
def dbscRegister (req : Request) (signed : Option Signed) (d : AccountDb) :
    Outcome AccountDb PanelPage :=
  let refused := sendJson 400 (.error (.plain "registration refused"))
  match signed, proofFromHeader req.sessionResponse with
  | some s, some jwt =>
      if !s.session.totpVerified then { state := d, response := refused }
      else
        match registerBinding P req.now req.bindingDraw s.sessionId jwt d with
        | .ok (issued, d) =>
            { state := d
              response :=
                { sendJson 200 (.bindingConfig issued.bindingId cfg.publicOrigin) with
                  cookies := [boundCookie cfg issued] }
              audit := [s.event req "admin.session_bound" []] }
        | .error (.dbsc _) => { state := d, response := refused }
        | .error _ => { state := d, response := serverError }
  | _, _ => { state := d, response := refused }

/-- `String(value ?? '').replace(/^"|"$/g, '')`. -/
def unquote (value : Option String) : String :=
  let cs := (value.getD "").toList
  let cs := match cs with
    | '"' :: rest => rest
    | _ => cs
  String.ofList (if cs.getLast? = some '"' then cs.dropLast else cs)

/-- The header with the challenge of a binding. -/
def challengeHeader (challenge bindingId : String) : String × String :=
  ("Secure-Session-Challenge", "\"" ++ challenge ++ "\";id=\"" ++ bindingId ++ "\"")

/-- `POST /dbsc/refresh`. -/
def dbscRefresh (req : Request) (d : AccountDb) : Outcome AccountDb PanelPage :=
  let bindingId := unquote req.secureSessionId
  if !isId bindingId then
    { state := d, response := sendJson 400 (.error (.plain "unknown session")) }
  else
    match refreshBinding P req.now req.bindingDraw bindingId
        (proofFromHeader req.sessionResponse) d with
    | .error (.dbsc _) => { state := d, response := sendJson 401 (.error (.plain "refresh refused")) }
    | .error _ => { state := d, response := serverError }
    | .ok (.ended, d) => { state := d, response := sendJson 401 .ended }
    | .ok (.challenge id challenge, d) =>
        { state := d
          response :=
            { sendJson 403 (.error (.plain "challenge required")) with
              headers := [challengeHeader challenge id] } }
    | .ok (.ok issued, d) =>
        { state := d
          response :=
            { sendJson 200 (.bindingConfig issued.bindingId cfg.publicOrigin) with
              cookies := [boundCookie cfg issued]
              headers := [challengeHeader (issued.nextChallenge.getD "undefined")
                issued.bindingId] } }

/-! ## Login -/

/-- `GET /login`. -/
def loginPage (req : Request) (signed : Option Signed) : Response PanelPage :=
  match signed with
  | some s =>
      { status := 302
        page := .redirect (if s.session.totpVerified then "/admin" else "/admin/totp") }
  | none => { status := 200, page := .login (req.lang P) none }

/-- The account the login form names, when the password is right. -/
def loginAdmin (req : Request) (d : AccountDb) : Option Admin :=
  let username := trim (req.field "username")
  let password := req.field "password"
  if username == "" || password == "" then none else authenticate P username password d

/-- `POST /login`. -/
def postLogin (req : Request) (d : AccountDb) : Outcome AccountDb PanelPage :=
  match loginAdmin P req d with
  | none =>
      let lang := req.lang P
      { state := d
        response := { status := 401, page := .login lang (some (t lang .loginFailed)) }
        audit := [{ actorType := .system, action := "admin.login_failed", ip := req.ip }] }
  | some admin =>
      let event (action : String) : AuditEvent :=
        { actorType := .admin, actorId := some admin.id, action := action, ip := req.ip }
      let answer (target : String) : Response PanelPage :=
        { status := 303, page := .redirect target
          cookies := [sessionCookie cfg req.random.sessionId] }
      match createSession P req.now req.sessionDraw admin cfg.sessionTtlMs (sessionMeta req) d with
      | .error _ => { state := d, response := serverError }
      | .ok d =>
          if admin.hasSecondFactor then
            { state := d, response := answer "/admin/totp"
              audit := [event "admin.login_password"] }
          else
            -- signing in is itself a confirmation
            let d := markConfirmed P req.now req.random.sessionId cfg.reauthWindowMs d
            { state := recordLogin req.now admin.id d
              response := answer (if cfg.adminRequireTotp || admin.mustChangePassword then
                "/admin/security" else "/admin")
              audit := [event "admin.login"] }

/-- `POST /logout`. -/
def postLogout (req : Request) (s : Signed) (d : AccountDb) : Outcome AccountDb PanelPage :=
  { state := destroySession P s.sessionId d
    response := { status := 303, page := .redirect "/admin/login", cookies := clearSessionCookie }
    audit := [s.event req "admin.logout" []] }

/-! ## The second step of a login -/

/-- What the second step offers this account: a passkey button, the code form, or both. -/
def secondStep (admin : Admin) (d : AccountDb) : SecondStep where
  passkey := 0 < admin.passkeys
  totp := admin.totpEnabled
  codes := admin.totpEnabled || 0 < remainingRecoveryCodes admin.id d

/-- A complete sign-in: the new privileged cookie, a fresh confirmation, the
login on record. -/
def signedIn (req : Request) (s : Signed) (factor : String)
    (answer : String → Response PanelPage) (d : AccountDb) : Outcome AccountDb PanelPage :=
  let sessionId := req.random.sessionId
  { state := recordLogin req.now s.admin.id (markConfirmed P req.now sessionId cfg.reauthWindowMs d)
    response :=
      { answer (if s.admin.mustChangePassword then "/admin/security" else "/admin") with
        cookies := [sessionCookie cfg sessionId] }
    audit := [s.event req "admin.login" (detail "second_factor" factor)] }

/-- `GET /totp`. -/
def totpPage (req : Request) (s : Signed) (d : AccountDb) : Response PanelPage :=
  if s.session.totpVerified then { status := 302, page := .redirect "/admin" }
  else
    { status := 200
      page := .totpLogin (req.lang P)
        { csrfToken := s.session.csrfToken, step := secondStep s.admin d,
          lockedUntil := totpLockedUntil req.now s.admin.id d } }

/-- The answer of a login route to a session that is already complete. -/
def alreadyIn : Response PanelPage := sendJson 200 (.redirect "/admin")

/-- The challenge of a passkey ceremony, for the passkeys of the account. -/
def ceremonyOptions (req : Request) (s : Signed) (purpose : CeremonyPurpose) (d : AccountDb) :
    Outcome AccountDb PanelPage :=
  let allow := credentialIds s.admin.id d
  if allow.isEmpty then { state := d, response := jsonError P req 400 .passkeyFailed }
  else
    { state := beginCeremony P req.now req.random.challenge s.sessionId purpose d
      response := sendJson 200 (.assertOptions req.random.challenge cfg.publicHost allow) }

/-- `POST /webauthn/login/options`. -/
def passkeyLoginOptions (req : Request) (s : Signed) (d : AccountDb) :
    Outcome AccountDb PanelPage :=
  if s.session.totpVerified then { state := d, response := alreadyIn }
  else ceremonyOptions P cfg req s .login d

/-- `POST /webauthn/login`. -/
def passkeyLogin (req : Request) (s : Signed) (d : AccountDb) : Outcome AccountDb PanelPage :=
  if s.session.totpVerified then { state := d, response := alreadyIn }
  else
    match verifyPasskeyLogin P req.now req.sessionDraw (assertion req s) (relyingParty cfg) s.admin
        cfg.sessionTtlMs d with
    | (.ok (), d) =>
        signedIn P cfg req s "passkey" (fun target => sendJson 200 (.redirect target)) d
    | (.error (.webAuthn reason), d) =>
        { state := d, response := jsonError P req 401 .passkeyFailed
          audit := [s.event req "admin.passkey_failed" (detail "reason" reason)] }
    | (.error _, d) => { state := d, response := serverError }

def SecondFactor.name : SecondFactor → String
  | .totp => "totp"
  | .recovery => "recovery"
  | .passkey => "passkey"

/-- `POST /totp`. -/
def postTotp (req : Request) (s : Signed) (d : AccountDb) : Outcome AccountDb PanelPage :=
  let lang := req.lang P
  if s.session.totpVerified then
    { state := d, response := { status := 303, page := .redirect "/admin" } }
  else
    match verifySessionTotp P req.now req.sessionDraw s.sessionId (req.field "code")
        cfg.sessionTtlMs d with
    | .error _ => { state := d, response := serverError }
    | .ok (.ok _ _ factor, d) =>
        signedIn P cfg req s factor.name
          (fun target => { status := 303, page := .redirect target }) d
    | .ok (.locked accountLockedUntil, d) =>
        let key := if accountLockedUntil.isSome then MessageKey.loginAccountLocked
          else .loginTooManyCodes
        { state := d
          response :=
            { status := 401, page := .login lang (some (t lang key))
              cookies := clearSessionCookie }
          audit := [s.event req "admin.totp_locked"
            [("account_locked_until", (accountLockedUntil.map AuditValue.date).getD .null)]] }
    | .ok (.invalid, d) =>
        { state := d
          response :=
            { status := 401
              page := .totpLogin lang
                { csrfToken := s.session.csrfToken, step := secondStep s.admin d,
                  error := some (t lang .totpInvalid),
                  attemptsLeft := some (maxTotpAttempts - s.session.totpAttempts - 1) } }
          audit := [s.event req "admin.totp_failed" []] }

/-! ## Confirmation of sensitive actions -/

/-- Where the confirmation page leads back to. -/
def confirmNext (req : Request) : String :=
  match req.query "next" with
  | [] => safeNext (some (req.field "next"))
  | [v] => safeNext (some v)
  | _ => safeNext none

def renderConfirm (req : Request) (s : Signed) (error : Option Text) (status : Nat)
    (d : AccountDb) : Response PanelPage :=
  let step := secondStep s.admin d
  { status := status
    page := .confirm (s.view P req)
      { next := confirmNext req, minutes := (cfg.reauthWindowMs + 30000) / 60000,
        passkey := step.passkey, codes := step.codes, password := !s.admin.hasSecondFactor,
        error := error } }

/-- A confirmation that succeeded. -/
def confirmed (req : Request) (s : Signed) (method : String) (answer : Response PanelPage)
    (d : AccountDb) : Outcome AccountDb PanelPage :=
  { state := markConfirmed P req.now s.sessionId cfg.reauthWindowMs d
    response := answer
    audit := [s.event req "admin.confirmed" (detail "method" method)] }

/-- Back to where the confirmation was asked for. -/
def backFromConfirm (req : Request) : Response PanelPage :=
  { status := 303, page := .redirect (safeNext (some (req.field "next"))) }

/-- `POST /confirm/code`. -/
def confirmCode (req : Request) (s : Signed) (d : AccountDb) : Outcome AccountDb PanelPage :=
  let failed (key : MessageKey) (d : AccountDb) : Outcome AccountDb PanelPage :=
    { state := d, response := renderConfirm P cfg req s (some (t (req.lang P) key)) 401 d
      audit := [s.event req "admin.confirm_failed" (detail "method" "code")] }
  match verifyConfirmCode P req.now s.admin.id (req.field "code") d with
  | (.ok, d) => confirmed P cfg req s "code" (backFromConfirm req) d
  | (.locked, d) => failed .confirmLocked d
  | (.invalid, d) => failed .confirmInvalid d

/-- `POST /confirm/password`: only an account without a second factor. -/
def confirmPassword (req : Request) (s : Signed) (d : AccountDb) : Outcome AccountDb PanelPage :=
  if s.admin.hasSecondFactor ||
      (authenticate P s.admin.username (req.field "password") d).isNone then
    { state := d
      response := renderConfirm P cfg req s (some (t (req.lang P) .confirmInvalid)) 401 d
      audit := [s.event req "admin.confirm_failed" (detail "method" "password")] }
  else confirmed P cfg req s "password" (backFromConfirm req) d

/-- `POST /confirm/passkey`. -/
def confirmPasskey (req : Request) (s : Signed) (d : AccountDb) : Outcome AccountDb PanelPage :=
  match verifyPasskeyConfirm P req.now (assertion req s) (relyingParty cfg) d with
  | (.ok (), d) =>
      confirmed P cfg req s "passkey" (sendJson 200 (.redirect (safeNext (req.queryParam "next")))) d
  | (.error (.webAuthn reason), d) =>
      { state := d, response := jsonError P req 401 .passkeyFailed
        audit := [s.event req "admin.confirm_failed"
          (detail "method" "passkey" ++ detail "reason" reason)] }
  | (.error _, d) => { state := d, response := serverError }

/-! ## Security settings -/

/-- The outcome of adding a passkey, waiting for the one page view after it. -/
structure Flash where
  sessionId : String
  ok : Text
  recoveryCodes : Option (List String)
  setAt : Int
  deriving DecidableEq

/-- What the account routes work on: the tables, and the outcomes in memory. -/
structure AccountState where
  accounts : AccountDb
  flashes : List Flash
  deriving DecidableEq

/-- A flash is gone after a minute. -/
def Flash.isFresh (now : Int) (f : Flash) : Bool := now - f.setAt < 60000

def takeFlash (now : Int) (sessionId : String) (flashes : List Flash) : Notice × List Flash :=
  let notice := match flashes.find? fun f => f.sessionId == sessionId && f.isFresh now with
    | some f => { ok := some f.ok, recoveryCodes := f.recoveryCodes }
    | none => {}
  (notice, Table.delete (fun f => f.sessionId == sessionId) flashes)

/-- `flashes.set`, after the old ones are dropped. -/
def setFlash (f : Flash) (flashes : List Flash) : List Flash :=
  Table.delete (fun x => !x.isFresh f.setAt || x.sessionId == f.sessionId) flashes ++ [f]

def renderSecurity (req : Request) (s : Signed) (notice : Notice) (status : Nat) (d : AccountDb) :
    Response PanelPage :=
  let pending := if s.admin.totpEnabled then none else pendingTotpSecret s.admin.id d
  { status := status
    page := .security (s.view P req)
      { totpEnabled := s.admin.totpEnabled
        totpRequired := cfg.adminRequireTotp
        issuer := cfg.brandName
        recoveryLeft :=
          if s.admin.hasSecondFactor then remainingRecoveryCodes s.admin.id d else 0
        passkeys := listPasskeys s.admin.id d
        sessions := listSessions P req.now s.admin.id s.sessionId d
        mustChangePassword := s.admin.mustChangePassword
        enrol := pending.map fun secret => ⟨secret, s.admin.username, cfg.brandName⟩
        notice := notice } }

/-- The security page with an error. -/
def securityError (req : Request) (s : Signed) (error : Text) (d : AccountDb) :
    Outcome AccountDb PanelPage :=
  { state := d, response := renderSecurity P cfg req s { error := some error } 400 d }

/-- The security page after a change. -/
def securityDone (req : Request) (s : Signed) (event : AuditEvent) (notice : Notice)
    (d : AccountDb) : Outcome AccountDb PanelPage :=
  { state := d, response := renderSecurity P cfg req s notice 200 d, audit := [event] }

/-- The session with its account as a handler changed it. -/
def Signed.withAdmin (s : Signed) (f : Admin → Admin) : Signed :=
  { s with session := { s.session with admin := f s.session.admin } }

/-- `POST /security/password`. -/
def postPassword (req : Request) (s : Signed) (d : AccountDb) : Outcome AccountDb PanelPage :=
  let lang := req.lang P
  let newPassword := req.field "new_password"
  if newPassword ≠ req.field "new_password_confirm" then
    securityError P cfg req s (t lang .securityPasswordMismatch) d
  else
    match changeAdminPassword P s.admin.id (req.field "current_password") newPassword
        req.random.salt d with
    | .error e => securityError P cfg req s (errorText lang e) d
    | .ok (false, d) => securityError P cfg req s (t lang .securityPasswordInvalidCurrent) d
    | .ok (true, d) =>
        securityDone P cfg req (s.withAdmin fun a => { a with mustChangePassword := false })
          (s.event req "admin.password_changed" [])
          { ok := some (t lang .securityPasswordChanged) }
          (destroyOtherSessions P s.admin.id s.sessionId d)

/-- `POST /security/totp/begin`. -/
def totpBegin (req : Request) (s : Signed) (d : AccountDb) : Outcome AccountDb PanelPage :=
  match beginTotpEnrolment req.random.totpSecret s.admin.id d with
  | .error e => securityError P cfg req s (errorText (req.lang P) e) d
  | .ok d => { state := d, response := renderSecurity P cfg req s {} 200 d }

/-- `POST /security/totp/confirm`. -/
def totpConfirm (req : Request) (s : Signed) (d : AccountDb) : Outcome AccountDb PanelPage :=
  let lang := req.lang P
  match confirmTotpEnrolment P req.now req.random.recoveryCodes s.admin.id (req.field "code") d with
  | (none, d) => securityError P cfg req s (t lang .securityMsgCodeMismatch) d
  | (some codes, d) =>
      -- other sessions of this admin did not prove the second factor
      securityDone P cfg req (s.withAdmin fun a => { a with totpEnabled := true })
        (s.event req "admin.totp_enabled" [])
        { ok := some (t lang .securityMsgEnabled), recoveryCodes := some codes }
        (destroyOtherSessions P s.admin.id s.sessionId d)

/-- `POST /security/totp/recovery`. -/
def totpRecovery (req : Request) (s : Signed) (d : AccountDb) : Outcome AccountDb PanelPage :=
  let lang := req.lang P
  match regenerateRecoveryCodes P req.now req.random.recoveryCodes s.admin.id (req.field "code")
      d with
  | (none, d) => securityError P cfg req s (t lang .securityMsgInvalidCode) d
  | (some codes, d) =>
      securityDone P cfg req s (s.event req "admin.recovery_codes_regenerated" [])
        { ok := some (t lang .securityMsgRegenerated), recoveryCodes := some codes } d

/-- `POST /security/totp/disable`. -/
def totpDisable (req : Request) (s : Signed) (d : AccountDb) : Outcome AccountDb PanelPage :=
  let lang := req.lang P
  if cfg.adminRequireTotp && s.admin.passkeys == 0 then
    securityError P cfg req s (t lang .securityMsgRequired) d
  else
    match disableTotp P req.now s.admin.id (req.field "code") s.sessionId d with
    | (false, d) =>
        { securityError P cfg req s (t lang .securityMsgInvalidCode) d with
          audit := [s.event req "admin.totp_failed" (detail "context" "disable")] }
    | (true, d) =>
        securityDone P cfg req (s.withAdmin fun a => { a with totpEnabled := false })
          (s.event req "admin.totp_disabled" []) { ok := some (t lang .securityMsgDisabled) } d

/-- The message about the number of passkeys an account may have. -/
def passkeyLimit (lang : Lang) (key : MessageKey) : Text :=
  .message lang key [("n", toString maxPasskeys)]

/-- `POST /security/passkeys/options`. -/
def passkeyOptions (req : Request) (s : Signed) (d : AccountDb) : Outcome AccountDb PanelPage :=
  if !s.session.isConfirmed req.now then
    { state := d
      response := sendJson 200 (.redirect "/admin/confirm?next=%2Fadmin%2Fsecurity") }
  else
    let exclude := credentialIds s.admin.id d
    if maxPasskeys ≤ exclude.length then
      { state := d
        response := sendJson 400 (.error (passkeyLimit (req.lang P) .passkeysLimit)) }
    else
      let challenge := req.random.challenge
      let userId := P.base64urlEncode s.admin.id.toUTF8.toList
      { state := beginCeremony P req.now challenge s.sessionId .register d
        response := sendJson 200 (.createOptions challenge cfg.publicHost cfg.brandName userId
          s.admin.username exclude) }

/-- The message for a registration that failed. -/
def registrationError (reason : String) : MessageKey :=
  if reason == "too many passkeys" then .passkeysLimit
  else if reason == "passkey already registered" then .passkeysDuplicate
  else .passkeyFailed

/-- `POST /security/passkeys`. -/
def postPasskey (req : Request) (s : Signed) (st : AccountState) :
    Outcome AccountState PanelPage :=
  let lang := req.lang P
  let wasFirst := !s.admin.hasSecondFactor
  match registerPasskey P req.now req.random.id (registration P req s) (relyingParty cfg)
      st.accounts with
  | .ok (pk, d) =>
      -- other sessions did not prove this factor
      let d := destroyOtherSessions P s.admin.id s.sessionId d
      -- the first factor of the account comes with recovery codes, shown once
      let (codes, d) := if wasFirst then
          regenerateRecoveryCodesConfirmed P req.random.recoveryCodes s.admin.id d
        else (none, d)
      let ok : Text := .message lang .passkeysAdded [("name", pk.name)]
      { state := ⟨d, setFlash ⟨s.sessionId, ok, codes, req.now⟩ st.flashes⟩
        response := sendJson 200 (.redirect "/admin/security")
        audit := [s.event req "admin.passkey_added"
          [("passkey", .text pk.id), ("name", .text pk.name)]] }
  | .error (.webAuthn reason) =>
      { state := st
        response := sendJson 400 (.error (passkeyLimit lang (registrationError reason)))
        audit := [s.event req "admin.passkey_failed"
          (detail "context" "register" ++ detail "reason" reason)] }
  | .error _ => { state := st, response := serverError }

/-- `POST /security/passkeys/:id/remove`. -/
def postPasskeyRemove (id : String) (req : Request) (s : Signed) (d : AccountDb) :
    Outcome AccountDb PanelPage :=
  let lang := req.lang P
  if cfg.adminRequireTotp && !s.admin.totpEnabled && s.admin.passkeys ≤ 1 then
    securityError P cfg req s (t lang .passkeysLastRequired) d
  else
    match validId id with
    | none =>
        { state := d, response := errorResponse P req .errorNotFoundTitle .errorNotFoundTitle 404 }
    | some id =>
        match removePasskey P s.admin.id id s.sessionId d with
        | (none, d) =>
            { state := d
              response := errorResponse P req .errorNotFoundTitle .errorNotFoundTitle 404 }
        | (some pk, d) =>
            securityDone P cfg req (s.withAdmin fun a => { a with passkeys := a.passkeys - 1 })
              (s.event req "admin.passkey_removed"
                [("passkey", .text pk.id), ("name", .text pk.name)])
              { ok := some (.message lang .passkeysRemoved [("name", pk.name)]) } d

/-- `POST /security/recovery/regenerate`. -/
def recoveryRegenerate (req : Request) (s : Signed) (d : AccountDb) :
    Outcome AccountDb PanelPage :=
  let lang := req.lang P
  match regenerateRecoveryCodesConfirmed P req.random.recoveryCodes s.admin.id d with
  | (none, d) => securityError P cfg req s (t lang .securityMsgInvalidCode) d
  | (some codes, d) =>
      securityDone P cfg req s (s.event req "admin.recovery_codes_regenerated" [])
        { ok := some (t lang .securityMsgRegenerated), recoveryCodes := some codes } d

/-- `POST /security/sessions/revoke-others`. -/
def postRevokeOthers (req : Request) (s : Signed) (d : AccountDb) : Outcome AccountDb PanelPage :=
  securityDone P cfg req s (s.event req "admin.sessions_revoked" (detail "scope" "others"))
    { ok := some (t (req.lang P) .sessionsRevokedOthers) }
    (destroyOtherSessions P s.admin.id s.sessionId d)

/-- `/^s_[0-9a-zA-Z_-]{16,32}$/.test`. -/
def isPublicId (id : String) : Bool :=
  match id.toList with
  | 's' :: '_' :: cs => 16 ≤ cs.length && cs.length ≤ 32 && cs.all isBase64url
  | _ => false

/-- `POST /security/sessions/:id/revoke`. -/
def postRevokeSession (id : String) (req : Request) (s : Signed) (d : AccountDb) :
    Outcome AccountDb PanelPage :=
  let missing := errorResponse P req .errorNotFoundTitle .errorNotFoundTitle 404
  if !isPublicId id || id == s.session.publicId then { state := d, response := missing }
  else
    match revokeSession s.admin.id id d with
    | (false, d) => { state := d, response := missing }
    | (true, d) =>
        securityDone P cfg req s (s.event req "admin.sessions_revoked" (detail "session" id))
          { ok := some (t (req.lang P) .sessionsRevoked) } d

/-! ## Routes -/

/-- Routes anyone may call. -/
inductive OpenRoute
  | dbscRegister | dbscRefresh | loginPage | login
  deriving DecidableEq

/-- Routes of a session that may still wait for its second factor. -/
inductive PendingRoute
  | logout | totpPage | passkeyLoginOptions | passkeyLogin | totp
  deriving DecidableEq

/-- Routes of a complete session, on its own account. -/
inductive SettingsRoute
  | confirmPage | confirmCode | confirmPassword | confirmPasskeyOptions | confirmPasskey
  | security | password | totpBegin | totpConfirm | totpRecovery | totpDisable
  | passkeyOptions | passkeys
  | passkeyRemove (id : String)
  | recoveryRegenerate | revokeOthers
  | revokeSession (id : String)
  deriving DecidableEq

def PendingRoute.method (r : PendingRoute) : Method := if r = .totpPage then .get else .post

def SettingsRoute.method : SettingsRoute → Method
  | .confirmPage | .security => .get
  | _ => .post

/-- Routes behind `loginFailures`. -/
def OpenRoute.limited (r : OpenRoute) : Bool := r == .login

def PendingRoute.limited (r : PendingRoute) : Bool := r == .passkeyLogin || r == .totp

def SettingsRoute.limited (r : SettingsRoute) : Bool :=
  r == .confirmCode || r == .confirmPassword || r == .confirmPasskey

/-- The routes behind `requireConfirmed`, with the place to go back to. -/
def SettingsRoute.back : SettingsRoute → Option String
  | .totpBegin | .passkeys | .passkeyRemove _ | .recoveryRegenerate => some "/admin/security"
  | _ => none

def OpenRoute.handle (route : OpenRoute) (req : Request) (signed : Option Signed)
    (d : AccountDb) : Outcome AccountDb PanelPage :=
  match route with
  | .dbscRegister => Outletbox.dbscRegister P cfg req signed d
  | .dbscRefresh => Outletbox.dbscRefresh P cfg req d
  | .loginPage => { state := d, response := Outletbox.loginPage P req signed }
  | .login => postLogin P cfg req d

def PendingRoute.handle (route : PendingRoute) (req : Request) (s : Signed) (d : AccountDb) :
    Outcome AccountDb PanelPage :=
  match route with
  | .logout => postLogout P req s d
  | .totpPage => { state := d, response := Outletbox.totpPage P req s d }
  | .passkeyLoginOptions => Outletbox.passkeyLoginOptions P cfg req s d
  | .passkeyLogin => Outletbox.passkeyLogin P cfg req s d
  | .totp => postTotp P cfg req s d

/-- A handler that leaves the outcomes in memory alone. -/
def keepFlashes (flashes : List Flash) (out : Outcome AccountDb PanelPage) :
    Outcome AccountState PanelPage :=
  { state := ⟨out.state, flashes⟩, response := out.response, audit := out.audit }

/-- `GET /security`. -/
def securityPage (req : Request) (s : Signed) (st : AccountState) :
    Outcome AccountState PanelPage :=
  let (notice, flashes) := takeFlash req.now s.sessionId st.flashes
  { state := ⟨st.accounts, flashes⟩
    response := renderSecurity P cfg req s notice 200 st.accounts }

def SettingsRoute.handle (route : SettingsRoute) (req : Request) (s : Signed)
    (st : AccountState) : Outcome AccountState PanelPage :=
  let d := st.accounts
  let on := keepFlashes st.flashes
  match route with
  | .confirmPage => on { state := d, response := renderConfirm P cfg req s none 200 d }
  | .confirmCode => on (Outletbox.confirmCode P cfg req s d)
  | .confirmPassword => on (Outletbox.confirmPassword P cfg req s d)
  | .confirmPasskeyOptions => on (ceremonyOptions P cfg req s .confirm d)
  | .confirmPasskey => on (Outletbox.confirmPasskey P cfg req s d)
  | .security => securityPage P cfg req s st
  | .password => on (postPassword P cfg req s d)
  | .totpBegin => on (Outletbox.totpBegin P cfg req s d)
  | .totpConfirm => on (Outletbox.totpConfirm P cfg req s d)
  | .totpRecovery => on (Outletbox.totpRecovery P cfg req s d)
  | .totpDisable => on (Outletbox.totpDisable P cfg req s d)
  | .passkeyOptions => on (Outletbox.passkeyOptions P cfg req s d)
  | .passkeys => postPasskey P cfg req s st
  | .passkeyRemove id => on (postPasskeyRemove P cfg id req s d)
  | .recoveryRegenerate => on (Outletbox.recoveryRegenerate P cfg req s d)
  | .revokeOthers => on (postRevokeOthers P cfg req s d)
  | .revokeSession id => on (postRevokeSession P cfg id req s d)

end Outletbox
