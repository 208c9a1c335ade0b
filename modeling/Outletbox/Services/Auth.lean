import Outletbox.Crypto
import Outletbox.Db
import Outletbox.Library.Fallible
import Outletbox.Library.Table
import Outletbox.Time
import Outletbox.Totp

/-!
# Accounts and their sessions

The functions of `services/auth.ts`: passwords, panel sessions, and the second
factor with its replay guard and its lockout.  Each function takes the instant
it runs at and the random values it draws.
-/

namespace Outletbox

variable (P : Platform)

/-! ## Accounts -/

/-- An account as the panel sees it. -/
structure Admin where
  id : String
  username : String
  createdAt : Int
  totpEnabled : Bool
  role : Role
  mustChangePassword : Bool
  /-- Registered passkeys; each one is a second factor on its own. -/
  passkeys : Nat
  deriving DecidableEq

/-- True when the account has a second factor of any kind. -/
def Admin.hasSecondFactor (a : Admin) : Bool := a.totpEnabled || 0 < a.passkeys

/-- `MIN_PASSWORD_LENGTH`. -/
def minPasswordLength : Nat := 12

/-- `MAX_TOTP_ATTEMPTS`: wrong codes per session before the session is destroyed. -/
def maxTotpAttempts : Nat := 5

/-- `TOTP_ACCOUNT_LOCK_THRESHOLD`: wrong codes per account before a temporary lockout. -/
def totpAccountLockThreshold : Nat := 10

/-- `TOTP_ACCOUNT_LOCK_MS`. -/
def totpAccountLockMs : Int := 15 * 60000

/-- `(SELECT COUNT(*) FROM admin_passkeys WHERE admin_id = ..)`. -/
def passkeyCount (adminId : String) (d : AccountDb) : Nat :=
  d.passkeys.countP fun p => p.adminId == adminId

def toAdmin (d : AccountDb) (r : AdminRow) : Admin where
  id := r.id
  username := r.username
  createdAt := r.createdAt
  totpEnabled := r.totpEnabledAt.isSome
  role := r.role
  mustChangePassword := r.mustChangePassword
  passkeys := passkeyCount r.id d

/-- `adminRow(db, 'id', id)`. -/
def adminById (id : String) (d : AccountDb) : Option AdminRow := d.admins.find? (·.id == id)

/-- `adminRow(db, 'username', username)`. -/
def adminByUsername (username : String) (d : AccountDb) : Option AdminRow :=
  d.admins.find? (·.username == username)

def findAdminByUsername (username : String) (d : AccountDb) : Option Admin :=
  (adminByUsername username d).map (toAdmin d)

/-- `USERNAME_RE.test`. -/
def isValidUsername (username : String) : Bool :=
  let cs := username.toList
  2 ≤ cs.length && cs.length ≤ 64 &&
    cs.all fun c => isBase64url c || c == '.' || c == '@'

/-- `UPDATE admins SET .. WHERE id = ?`. -/
def updateAdmin (id : String) (f : AdminRow → AdminRow) (d : AccountDb) : AccountDb :=
  { d with admins := Table.update (fun a => a.id == id) f d.admins }

/-- `UPDATE sessions SET .. WHERE id_hash = ?`. -/
def updateSession (idHash : String) (f : SessionRow → SessionRow) (d : AccountDb) : AccountDb :=
  { d with sessions := Table.update (fun s => s.idHash == idHash) f d.sessions }

/-- `DELETE FROM sessions WHERE ..`: the bindings of the sessions go with them. -/
def deletePanelSessions (p : SessionRow → Bool) (d : AccountDb) : AccountDb :=
  { d with
    sessions := Table.delete p d.sessions
    bindings :=
      Table.delete (fun b => d.sessions.any fun s => p s && s.idHash == b.sessionHash) d.bindings }

/-- What a caller of `createAdmin` passes. -/
structure CreateAdminInput where
  username : String
  password : String
  role : Role
  mustChangePassword : Bool

/-- The row `createAdmin` inserts. -/
def newAdminRow (now : Int) (id salt : String) (input : CreateAdminInput) : AdminRow where
  id := newId "a" id
  username := input.username
  passwordHash := hashPassword P input.password salt
  createdAt := now
  totpSecret := none
  totpEnabledAt := none
  totpLastStep := none
  totpFailedCount := 0
  totpLockedUntil := none
  role := input.role
  disabledAt := none
  mustChangePassword := input.mustChangePassword
  lastLoginAt := none

/-- Creates an account. -/
def createAdmin (now : Int) (id salt : String) (input : CreateAdminInput) (d : AccountDb) :
    Except Failure (Admin × AccountDb) :=
  if !isValidUsername input.username then
    .error (.error "Username must be 2-64 chars: letters, digits, . _ @ -")
  else if utf16Length input.password < minPasswordLength then
    .error (.error "Password must be at least 12 characters")
  else
    let row := newAdminRow P now id salt input
    if d.admins.any fun a => a.id == row.id || a.username == row.username then .error .constraint
    else .ok ({ toAdmin d row with passkeys := 0 }, { d with admins := d.admins ++ [row] })

/-- Sets a password an operator typed; every session of the account ends. -/
def setAdminPassword (username password salt : String) (d : AccountDb) :
    Except Failure (Bool × AccountDb) :=
  if utf16Length password < minPasswordLength then
    .error (.error "Password must be at least 12 characters")
  else
    let changed := d.admins.any (·.username == username)
    let d := { d with
      admins :=
        Table.update (fun a => a.username == username)
          (fun a => { a with
            passwordHash := hashPassword P password salt, mustChangePassword := false }) d.admins }
    .ok (changed, deletePanelSessions
      (fun s => d.admins.any fun a => a.username == username && a.id == s.adminId) d)

/-- Self-service change: requires the current password. -/
def changeAdminPassword (adminId currentPassword newPassword salt : String) (d : AccountDb) :
    Except Failure (Bool × AccountDb) :=
  if utf16Length newPassword < minPasswordLength then
    .error (.error "Password must be at least 12 characters")
  else
    match adminById adminId d with
    | none => .ok (false, d)
    | some admin =>
        if !verifyPassword P currentPassword admin.passwordHash then .ok (false, d)
        else if newPassword == currentPassword then
          .error (.error "The new password must differ from the current one")
        else .ok (true, updateAdmin adminId (fun a => { a with
          passwordHash := hashPassword P newPassword salt, mustChangePassword := false }) d)

/-- The account a name and a password sign in to. A disabled account fails like
a wrong password. -/
def authenticate (username password : String) (d : AccountDb) : Option Admin :=
  match adminByUsername username d with
  | none => none
  | some row =>
      if !verifyPassword P password row.passwordHash || row.disabledAt.isSome then none
      else some (toAdmin d row)

/-- Stamps a completed sign-in. -/
def recordLogin (now : Int) (adminId : String) (d : AccountDb) : AccountDb :=
  updateAdmin adminId (fun a => { a with lastLoginAt := some now }) d

/-! ## Sessions -/

structure SessionMeta where
  ip : Option String
  userAgent : Option String

/-- What `createSession` draws. -/
structure SessionDraw where
  sessionId : String
  csrfToken : String
  publicId : String

/-- The row `createSession` inserts. -/
def newSession (now : Int) (draw : SessionDraw) (admin : Admin) (ttlMs : Nat)
    (info : SessionMeta) : SessionRow where
  idHash := P.sha256Hex draw.sessionId
  adminId := admin.id
  csrfToken := draw.csrfToken
  createdAt := now
  lastSeenAt := now
  expiresAt := now + ttlMs
  totpVerified := !admin.hasSecondFactor
  totpAttempts := 0
  publicId := newId "s" draw.publicId
  userAgent := info.userAgent.map (slice 300)
  ip := info.ip.map (slice 64)
  secondFactor := none
  confirmedUntil := none
  webauthnChallenge := none
  webauthnPurpose := none
  webauthnExpiresAt := none
  dbscChallenge := none
  dbscOfferedAt := none

/-- `INSERT INTO sessions`. -/
def insertSession (row : SessionRow) (d : AccountDb) : Except Failure AccountDb :=
  if d.sessions.any (fun s => s.idHash == row.idHash || s.publicId == row.publicId) ||
      (adminById row.adminId d).isNone then .error .constraint
  else .ok { d with sessions := d.sessions ++ [row] }

/-- A new session after the password check. Without a second factor it is
complete at once; otherwise it stays pending until the factor passes. -/
def createSession (now : Int) (draw : SessionDraw) (admin : Admin) (ttlMs : Nat)
    (info : SessionMeta) (d : AccountDb) : Except Failure AccountDb :=
  insertSession (newSession P now draw admin ttlMs info) d

/-- Sensitive actions need no further confirmation for `ms` from now. -/
def markConfirmed (now : Int) (sessionId : String) (ms : Nat) (d : AccountDb) : AccountDb :=
  updateSession (P.sha256Hex sessionId) (fun s => { s with confirmedUntil := some (now + ms) }) d

/-- The second factor of a pending session passed: the pending session is
replaced by a fresh one. -/
def completeSecondFactor (now : Int) (draw : SessionDraw) (pendingIdHash : String) (admin : Admin)
    (ttlMs : Nat) (factor : SecondFactor) (d : AccountDb) : Except Failure AccountDb := do
  let old := d.sessions.find? (·.idHash == pendingIdHash)
  let d := updateAdmin admin.id (fun a => { a with
    totpFailedCount := 0, totpLockedUntil := none }) d
  let d := deletePanelSessions (fun s => s.idHash == pendingIdHash) d
  let d ← createSession P now draw admin ttlMs ⟨old.bind (·.ip), old.bind (·.userAgent)⟩ d
  .ok (updateSession (P.sha256Hex draw.sessionId)
    (fun s => { s with totpVerified := true, secondFactor := some factor }) d)

structure Session where
  admin : Admin
  csrfToken : String
  expiresAt : Int
  /-- True once the second factor was verified (or none is required). -/
  totpVerified : Bool
  totpAttempts : Nat
  /-- Names the session in the panel. -/
  publicId : String
  secondFactor : Option SecondFactor
  /-- Sensitive actions are allowed until then. -/
  confirmedUntil : Option Int
  deriving DecidableEq

/-- What `getSession` returns for a row and its account. -/
def sessionOf (d : AccountDb) (row : SessionRow) (admin : AdminRow) : Session where
  admin := toAdmin d admin
  csrfToken := row.csrfToken
  expiresAt := row.expiresAt
  totpVerified := !(toAdmin d admin).hasSecondFactor || row.totpVerified
  totpAttempts := row.totpAttempts
  publicId := row.publicId
  secondFactor := row.secondFactor
  confirmedUntil := row.confirmedUntil

/-- The row of a session and its account. -/
def sessionRow (sessionId : String) (d : AccountDb) : Option (SessionRow × AdminRow) := do
  let row ← d.sessions.find? (·.idHash == P.sha256Hex sessionId)
  let admin ← adminById row.adminId d
  some (row, admin)

def destroySession (sessionId : String) (d : AccountDb) : AccountDb :=
  deletePanelSessions (fun s => s.idHash == P.sha256Hex sessionId) d

def getSession (now : Int) (sessionId : String) (d : AccountDb) : Option Session × AccountDb :=
  if sessionId == "" || 128 < utf16Length sessionId then (none, d)
  else
    match sessionRow P sessionId d with
    | none => (none, d)
    | some (row, admin) =>
        if isoLe row.expiresAt now ∨ admin.disabledAt.isSome = true then
          (none, destroySession P sessionId d)
        else (some (sessionOf d row admin),
          updateSession (P.sha256Hex sessionId) (fun s => { s with lastSeenAt := now }) d)

/-- Ends every session of the account but one. -/
def destroyOtherSessions (adminId keepSessionId : String) (d : AccountDb) : AccountDb :=
  deletePanelSessions (fun s => s.adminId == adminId && s.idHash != P.sha256Hex keepSessionId) d

def purgeExpiredSessions (now : Int) (d : AccountDb) : AccountDb :=
  deletePanelSessions (fun s => isoLe s.expiresAt now) d

/-- Ends every session of the account, or every one but `keepSessionId`. -/
def endSessions (adminId : String) (keepSessionId : Option String) (d : AccountDb) : AccountDb :=
  match keepSessionId with
  | some keep => destroyOtherSessions P adminId keep d
  | none => deletePanelSessions (fun s => s.adminId == adminId) d

/-! ## The second factor -/

inductive TotpLoginResult
  | ok (sessionId csrfToken : String) (factor : SecondFactor)
  | invalid
  /-- The pending session was destroyed or the account is temporarily locked. -/
  | locked (accountLockedUntil : Option Int)
  deriving DecidableEq

/-- Records a wrong code against the account; locks it after the threshold. -/
def recordTotpFailure (admin : AdminRow) (nowMs : Int) (d : AccountDb) : Option Int × AccountDb :=
  if totpAccountLockThreshold ≤ admin.totpFailedCount + 1 then
    let d := updateAdmin admin.id (fun a => { a with
      totpFailedCount := 0, totpLockedUntil := some (nowMs + totpAccountLockMs) }) d
    -- pending sessions are worthless during a lockout
    (some (nowMs + totpAccountLockMs),
      deletePanelSessions (fun s => s.adminId == admin.id && !s.totpVerified) d)
  else (none, updateAdmin admin.id (fun a => { a with
    totpFailedCount := admin.totpFailedCount + 1 }) d)

def isTotpLocked (admin : AdminRow) (nowMs : Int) : Bool := admin.totpLockedUntil.any (nowMs < ·)

/-- The end of the lockout the account is in. -/
def totpLockedUntil (nowMs : Int) (adminId : String) (d : AccountDb) : Option Int :=
  (adminById adminId d).bind fun admin =>
    if isTotpLocked admin nowMs then admin.totpLockedUntil else none

/-- The step of the enabled authenticator app a code is for, later than the last one. -/
def matchedStep (admin : AdminRow) (code : String) (nowMs : Int) : Option Int :=
  match admin.totpSecret, admin.totpEnabledAt with
  | some secret, some _ => verifyTotp P secret code nowMs admin.totpLastStep
  | _, _ => none

/-- An unused recovery code of the account, as it was typed. -/
def isUnusedCode (adminId code : String) (c : RecoveryCode) : Bool :=
  c.adminId == adminId && c.codeHash == P.sha256Hex (normalizeRecoveryCode P code) &&
    c.usedAt.isNone

def consumeRecoveryCode (now : Int) (adminId code : String) (d : AccountDb) : Bool × AccountDb :=
  if utf16Length (normalizeRecoveryCode P code) ≠ 10 then (false, d)
  else (d.recoveryCodes.any (isUnusedCode P adminId code), { d with
    recoveryCodes :=
      Table.update (isUnusedCode P adminId code) (fun c => { c with usedAt := some now })
        d.recoveryCodes })

/-- The factor a code proves, with what its use records: a step is not accepted
again, a recovery code is used up. -/
def checkFactor (now : Int) (admin : AdminRow) (code : String) (d : AccountDb) :
    Option SecondFactor × AccountDb :=
  match matchedStep P admin code now with
  | some step => (some .totp, updateAdmin admin.id (fun a => { a with totpLastStep := some step }) d)
  | none =>
      let (used, d) := consumeRecoveryCode P now admin.id code d
      (if used then some .recovery else none, d)

/-- Verifies the second factor for a pending session. Wrong attempts are counted
per session and per account; on success the session id is rotated. -/
def verifySessionTotp (now : Int) (draw : SessionDraw) (sessionId code : String) (ttlMs : Nat)
    (d : AccountDb) : Except Failure (TotpLoginResult × AccountDb) :=
  let idHash := P.sha256Hex sessionId
  match d.sessions.find? (·.idHash == idHash) with
  | none => .ok (.locked none, d)
  | some s =>
      match adminById s.adminId d with
      | none => .ok (.invalid, d)
      | some admin =>
          let account := toAdmin d admin
          if !account.hasSecondFactor then .ok (.invalid, d)
          else if isTotpLocked admin now then .ok (.locked admin.totpLockedUntil, d)
          else
            match checkFactor P now admin code d with
            | (some factor, d) => do
                let d ← completeSecondFactor P now draw idHash account ttlMs factor d
                .ok (.ok draw.sessionId draw.csrfToken factor, d)
            | (none, d) =>
                match recordTotpFailure admin now d with
                | (some lockedUntil, d) => .ok (.locked (some lockedUntil), d)
                | (none, d) =>
                    if maxTotpAttempts ≤ s.totpAttempts + 1 then
                      .ok (.locked none, deletePanelSessions (fun s => s.idHash == idHash) d)
                    else .ok (.invalid, updateSession idHash (fun x => { x with
                      totpAttempts := s.totpAttempts + 1 }) d)

inductive ConfirmResult
  | ok | invalid | locked
  deriving DecidableEq, Repr

/-- Confirms a sensitive action with a code, inside a complete session. -/
def verifyConfirmCode (now : Int) (adminId code : String) (d : AccountDb) :
    ConfirmResult × AccountDb :=
  match adminById adminId d with
  | none => (.invalid, d)
  | some admin =>
      if isTotpLocked admin now then (.locked, d)
      else
        match matchedStep P admin code now with
        | some step => (.ok, updateAdmin adminId (fun a => { a with
            totpLastStep := some step, totpFailedCount := 0 }) d)
        | none =>
            match consumeRecoveryCode P now adminId code d with
            | (true, d) => (.ok, d)
            | (false, d) =>
                match recordTotpFailure admin now d with
                | (some _, d) => (.locked, d)
                | (none, d) => (.invalid, d)

/-- Step 1 of enrolment: a new pending secret (not yet enabled). -/
def beginTotpEnrolment (secret : Bytes) (adminId : String) (d : AccountDb) :
    Except Failure AccountDb :=
  match adminById adminId d with
  | none => .error (.error "admin not found")
  | some admin =>
      if admin.totpEnabledAt.isSome then .error (.error "TOTP is already enabled")
      else .ok (updateAdmin adminId (fun a => { a with
        totpSecret := some secret, totpLastStep := none }) d)

def pendingTotpSecret (adminId : String) (d : AccountDb) : Option Bytes :=
  (adminById adminId d).bind fun admin =>
    if admin.totpEnabledAt.isSome then none else admin.totpSecret

/-- The set of recovery codes of the account is replaced by a new one. -/
def replaceRecoveryCodes (adminId : String) (codes : List String) (d : AccountDb) : AccountDb :=
  { d with
    recoveryCodes :=
      Table.delete (fun c => c.adminId == adminId) d.recoveryCodes ++
        codes.map fun c => ⟨adminId, P.sha256Hex (normalizeRecoveryCode P c), none⟩ }

/-- Step 2: the admin proves they hold the secret by entering a current code.
Returns recovery codes (shown once). -/
def confirmTotpEnrolment (now : Int) (codes : List String) (adminId code : String)
    (d : AccountDb) : Option (List String) × AccountDb :=
  match adminById adminId d with
  | none => (none, d)
  | some admin =>
      match admin.totpSecret, admin.totpEnabledAt with
      | some secret, none =>
          match verifyTotp P secret code now none with
          | none => (none, d)
          | some step =>
              let d := updateAdmin adminId (fun a => { a with
                totpEnabledAt := some now, totpLastStep := some step }) d
              let d := { d with
                sessions :=
                  Table.update (fun s => s.adminId == adminId)
                    (fun s => { s with totpVerified := true }) d.sessions }
              (some codes, replaceRecoveryCodes P adminId codes d)
      | _, _ => (none, d)

def regenerateRecoveryCodes (now : Int) (codes : List String) (adminId code : String)
    (d : AccountDb) : Option (List String) × AccountDb :=
  match adminById adminId d with
  | none => (none, d)
  | some admin =>
      match matchedStep P admin code now with
      | none => (none, d)
      | some step =>
          let d := updateAdmin adminId (fun a => { a with totpLastStep := some step }) d
          (some codes, replaceRecoveryCodes P adminId codes d)

/-- Fresh recovery codes for an account that confirmed itself some other way. -/
def regenerateRecoveryCodesConfirmed (codes : List String) (adminId : String) (d : AccountDb) :
    Option (List String) × AccountDb :=
  match adminById adminId d with
  | none => (none, d)
  | some admin =>
      if !(toAdmin d admin).hasSecondFactor then (none, d)
      else (some codes, replaceRecoveryCodes P adminId codes d)

def remainingRecoveryCodes (adminId : String) (d : AccountDb) : Nat :=
  d.recoveryCodes.countP fun c => c.adminId == adminId && c.usedAt.isNone

/-- Without any factor left recovery codes mean nothing. -/
def dropRecoveryCodesIfUnused (adminId : String) (d : AccountDb) : AccountDb :=
  match adminById adminId d with
  | none => d
  | some admin =>
      if (toAdmin d admin).hasSecondFactor then d
      else { d with
        recoveryCodes := Table.delete (fun c => c.adminId == adminId) d.recoveryCodes }

/-- Removes TOTP without a code and ends all sessions (except `keepSessionId`). -/
def forceDisableTotp (adminId : String) (keepSessionId : Option String) (d : AccountDb) :
    AccountDb :=
  let d := updateAdmin adminId (fun a => { a with
    totpSecret := none, totpEnabledAt := none, totpLastStep := none, totpFailedCount := 0,
    totpLockedUntil := none }) d
  endSessions P adminId keepSessionId (dropRecoveryCodesIfUnused adminId d)

/-- Disabling requires a current code; every other session of the admin ends. -/
def disableTotp (now : Int) (adminId code keepSessionId : String) (d : AccountDb) :
    Bool × AccountDb :=
  match adminById adminId d with
  | none => (false, d)
  | some admin =>
      match admin.totpSecret, admin.totpEnabledAt with
      | some _, some _ =>
          match matchedStep P admin code now with
          | some _ => (true, forceDisableTotp P adminId (some keepSessionId) d)
          | none =>
              match consumeRecoveryCode P now adminId code d with
              | (true, d) => (true, forceDisableTotp P adminId (some keepSessionId) d)
              | (false, d) => (false, d)
      | _, _ => (false, d)

/-- Every second factor goes, and every session ends. -/
def resetSecondFactors (adminId : String) (d : AccountDb) : AccountDb :=
  forceDisableTotp P adminId none
    { d with passkeys := Table.delete (fun p => p.adminId == adminId) d.passkeys }

/-! ## What the second-factor operations do -/

/-- The typed text is an unused recovery code of the account. -/
def hasUnusedCode (adminId code : String) (d : AccountDb) : Prop :=
  utf16Length (normalizeRecoveryCode P code) = 10 ∧
    ∃ c ∈ d.recoveryCodes, isUnusedCode P adminId code c = true

/-- The tables once the typed recovery code is used up. -/
def useCode (now : Int) (adminId code : String) (d : AccountDb) : AccountDb :=
  { d with
    recoveryCodes :=
      Table.update (isUnusedCode P adminId code) (fun c => { c with usedAt := some now })
        d.recoveryCodes }

/-- The last accepted time step of an account is set. -/
def acceptStep (step : Int) (adminId : String) (d : AccountDb) : AccountDb :=
  updateAdmin adminId (fun a => { a with totpLastStep := some step }) d

/-- What `checkFactor` answers. -/
inductive Checked (now : Int) (admin : AdminRow) (code : String) (d : AccountDb) :
    Option SecondFactor × AccountDb → Prop
  | totp (step : Int) : matchedStep P admin code now = some step →
      Checked now admin code d (some .totp, acceptStep step admin.id d)
  | recovery : matchedStep P admin code now = none → hasUnusedCode P admin.id code d →
      Checked now admin code d (some .recovery, useCode P now admin.id code d)
  | wrong : matchedStep P admin code now = none → ¬ hasUnusedCode P admin.id code d →
      Checked now admin code d (none, d)

/-- A wrong code is counted against the account, without a lockout. -/
def countFailure (admin : AdminRow) (d : AccountDb) : AccountDb :=
  updateAdmin admin.id (fun a => { a with totpFailedCount := admin.totpFailedCount + 1 }) d

/-- The account is locked, and its pending sessions end. -/
def lockAccount (now : Int) (admin : AdminRow) (d : AccountDb) : AccountDb :=
  deletePanelSessions (fun s => s.adminId == admin.id && !s.totpVerified)
    (updateAdmin admin.id (fun a => { a with
      totpFailedCount := 0, totpLockedUntil := some (now + totpAccountLockMs) }) d)

/-- The authenticator app of the account is enabled, and every session of the account has proved
it. -/
def enableTotp (now step : Int) (adminId : String) (d : AccountDb) : AccountDb :=
  let d := updateAdmin adminId (fun a => { a with
    totpEnabledAt := some now, totpLastStep := some step }) d
  { d with
    sessions :=
      Table.update (fun s => s.adminId == adminId) (fun s => { s with totpVerified := true })
        d.sessions }

/-- The wrong codes of an account are forgotten, and its lockout ends. -/
def forgetFailures (adminId : String) (d : AccountDb) : AccountDb :=
  updateAdmin adminId (fun a => { a with totpFailedCount := 0, totpLockedUntil := none }) d

/-- Where the browser of a session came from. -/
def metaOf (idHash : String) (d : AccountDb) : SessionMeta :=
  let old := d.sessions.find? (·.idHash == idHash)
  ⟨old.bind (·.ip), old.bind (·.userAgent)⟩

/-- Every trace of the authenticator app leaves the account. -/
def clearTotp (adminId : String) (d : AccountDb) : AccountDb :=
  updateAdmin adminId (fun a => { a with
    totpSecret := none, totpEnabledAt := none, totpLastStep := none, totpFailedCount := 0,
    totpLockedUntil := none }) d

/-- The row of a session that passed its second factor. -/
def completedSession (now : Int) (draw : SessionDraw) (admin : Admin) (ttlMs : Nat)
    (info : SessionMeta) (factor : SecondFactor) : SessionRow :=
  { newSession P now draw admin ttlMs info with totpVerified := true, secondFactor := some factor }

/-- A code was compared with the factors of an account that is not locked, and fits none. -/
structure WrongCode (now : Int) (admin : AdminRow) (code : String) (d : AccountDb) : Prop where
  unlocked : isTotpLocked admin now = false
  noStep : matchedStep P admin code now = none
  noCode : ¬ hasUnusedCode P admin.id code d

/-- What `verifySessionTotp` does when it does not throw. -/
inductive SessionTotp (now : Int) (draw : SessionDraw) (sessionId code : String) (ttlMs : Nat)
    (d : AccountDb) : TotpLoginResult × AccountDb → Prop
  /-- There is no such session, its account has no second factor, or it is locked. -/
  | nothing (result : TotpLoginResult) : (∀ a b c, result ≠ .ok a b c) →
      SessionTotp now draw sessionId code ttlMs d (result, d)
  | passed {s : SessionRow} {admin : AdminRow} {factor : SecondFactor} {d₁ d₂ : AccountDb} :
      d.sessions.find? (·.idHash == P.sha256Hex sessionId) = some s →
      adminById s.adminId d = some admin → (toAdmin d admin).hasSecondFactor = true →
      isTotpLocked admin now = false → Checked P now admin code d (some factor, d₁) →
      completeSecondFactor P now draw (P.sha256Hex sessionId) (toAdmin d admin) ttlMs factor d₁ =
        .ok d₂ →
      SessionTotp now draw sessionId code ttlMs d (.ok draw.sessionId draw.csrfToken factor, d₂)
  /-- The tenth wrong code of the account. -/
  | lockout {s : SessionRow} {admin : AdminRow} :
      d.sessions.find? (·.idHash == P.sha256Hex sessionId) = some s →
      adminById s.adminId d = some admin → (toAdmin d admin).hasSecondFactor = true →
      WrongCode P now admin code d → totpAccountLockThreshold ≤ admin.totpFailedCount + 1 →
      SessionTotp now draw sessionId code ttlMs d
        (.locked (some (now + totpAccountLockMs)), lockAccount now admin d)
  /-- The fifth wrong code of the session. -/
  | sessionOver {s : SessionRow} {admin : AdminRow} :
      d.sessions.find? (·.idHash == P.sha256Hex sessionId) = some s →
      adminById s.adminId d = some admin → (toAdmin d admin).hasSecondFactor = true →
      WrongCode P now admin code d → admin.totpFailedCount + 1 < totpAccountLockThreshold →
      maxTotpAttempts ≤ s.totpAttempts + 1 →
      SessionTotp now draw sessionId code ttlMs d (.locked none,
        deletePanelSessions (fun x => x.idHash == P.sha256Hex sessionId) (countFailure admin d))
  | wrong {s : SessionRow} {admin : AdminRow} :
      d.sessions.find? (·.idHash == P.sha256Hex sessionId) = some s →
      adminById s.adminId d = some admin → (toAdmin d admin).hasSecondFactor = true →
      WrongCode P now admin code d → admin.totpFailedCount + 1 < totpAccountLockThreshold →
      s.totpAttempts + 1 < maxTotpAttempts →
      SessionTotp now draw sessionId code ttlMs d (.invalid,
        updateSession (P.sha256Hex sessionId) (fun x => { x with
          totpAttempts := s.totpAttempts + 1 }) (countFailure admin d))

/-- What `verifyConfirmCode` does. -/
inductive ConfirmCode (now : Int) (adminId code : String) (d : AccountDb) :
    ConfirmResult × AccountDb → Prop
  | missing : adminById adminId d = none → ConfirmCode now adminId code d (.invalid, d)
  | locked {admin : AdminRow} : adminById adminId d = some admin →
      isTotpLocked admin now = true → ConfirmCode now adminId code d (.locked, d)
  | totp {admin : AdminRow} {step : Int} : adminById adminId d = some admin →
      isTotpLocked admin now = false → matchedStep P admin code now = some step →
      ConfirmCode now adminId code d (.ok, updateAdmin adminId (fun a => { a with
        totpLastStep := some step, totpFailedCount := 0 }) d)
  | recovery {admin : AdminRow} : adminById adminId d = some admin →
      isTotpLocked admin now = false → matchedStep P admin code now = none →
      hasUnusedCode P adminId code d →
      ConfirmCode now adminId code d (.ok, useCode P now adminId code d)
  | lockout {admin : AdminRow} : adminById adminId d = some admin →
      WrongCode P now admin code d → totpAccountLockThreshold ≤ admin.totpFailedCount + 1 →
      ConfirmCode now adminId code d (.locked, lockAccount now admin d)
  | wrong {admin : AdminRow} : adminById adminId d = some admin →
      WrongCode P now admin code d → admin.totpFailedCount + 1 < totpAccountLockThreshold →
      ConfirmCode now adminId code d (.invalid, countFailure admin d)

section

variable {P} {now : Int} {adminId id code : String} {admin : AdminRow} {d d' : AccountDb}

theorem adminById_id (h : adminById id d = some admin) : admin.id = id := by
  simpa using List.find?_some h

/-- The account after an `UPDATE` that keeps the identifiers. -/
theorem adminById_updateAdmin {f : AdminRow → AdminRow} (hf : ∀ a, (f a).id = a.id)
    (adminId : String) :
    adminById adminId (updateAdmin id f d) =
      (adminById adminId d).map fun a => if a.id == id then f a else a :=
  Table.find?_update (q := fun a : AdminRow => a.id == adminId) (fun a => by rw [hf]) d.admins

/-- Two updates of one account in a row. -/
theorem updateAdmin_updateAdmin {f : AdminRow → AdminRow} (hf : ∀ a, (f a).id = a.id)
    (g : AdminRow → AdminRow) :
    updateAdmin id g (updateAdmin id f d) = updateAdmin id (fun a => g (f a)) d := by
  simp only [updateAdmin, Table.update, List.map_map]
  congr 1
  refine List.map_congr_left fun a _ => ?_
  by_cases ha : a.id = id <;> simp [ha, hf]

/-- What leaves the accounts alone finds them as they were. -/
theorem adminById_of_admins (h : d'.admins = d.admins) (id : String) :
    adminById id d' = adminById id d := by
  rw [adminById, adminById, h]

/-- An account that was inserted last is found when no earlier one is. -/
theorem adminById_of_append {row : AdminRow} (h : d'.admins = d.admins ++ [row]) (id : String) :
    adminById id d' = (adminById id d).or (if row.id == id then some row else none) := by
  rw [adminById, h, List.find?_append, adminById, List.find?_singleton]

theorem useCode_eq_self (h : ∀ c ∈ d.recoveryCodes, isUnusedCode P adminId code c = false) :
    useCode P now adminId code d = d := by
  have hsame : Table.update (isUnusedCode P adminId code)
      (fun c => { c with usedAt := some now }) d.recoveryCodes = d.recoveryCodes :=
    Table.update_eq_self fun c hc hp => absurd hp (by simp [h c hc])
  rw [useCode, hsame]

/-- A recovery code is used up, or nothing is written. -/
theorem consumeRecoveryCode_cases (now : Int) (adminId code : String) (d : AccountDb) :
    (hasUnusedCode P adminId code d ∧
        consumeRecoveryCode P now adminId code d = (true, useCode P now adminId code d)) ∨
      (¬ hasUnusedCode P adminId code d ∧
        consumeRecoveryCode P now adminId code d = (false, d)) := by
  unfold consumeRecoveryCode
  split
  · rename_i hlen
    exact .inr ⟨fun h => hlen h.1, rfl⟩
  · rename_i hlen
    cases hany : d.recoveryCodes.any (isUnusedCode P adminId code) with
    | true =>
        obtain ⟨c, hc, hp⟩ := List.any_eq_true.1 hany
        exact .inl ⟨⟨not_not.1 hlen, c, hc, hp⟩, rfl⟩
    | false =>
        have hno := List.any_eq_false.1 hany
        refine .inr ⟨fun ⟨_, c, hc, hp⟩ => hno c hc hp, ?_⟩
        have hsame : useCode P now adminId code d = d :=
          useCode_eq_self fun c hc => by simpa using hno c hc
        rw [← useCode, hsame]

theorem checked (now : Int) (admin : AdminRow) (code : String) (d : AccountDb) :
    Checked P now admin code d (checkFactor P now admin code d) := by
  unfold checkFactor
  cases hstep : matchedStep P admin code now with
  | some step => exact .totp step hstep
  | none =>
      rcases consumeRecoveryCode_cases (P := P) now admin.id code d with ⟨hcode, h⟩ | ⟨hcode, h⟩
      · simp only [h, if_true]
        exact .recovery hstep hcode
      · simp only [h, Bool.false_eq_true, if_false]
        exact .wrong hstep hcode

/-- A failure is counted, or locks the account. -/
theorem recordTotpFailure_cases (admin : AdminRow) (now : Int) (d : AccountDb) :
    (totpAccountLockThreshold ≤ admin.totpFailedCount + 1 ∧
        recordTotpFailure admin now d = (some (now + totpAccountLockMs), lockAccount now admin d)) ∨
      (admin.totpFailedCount + 1 < totpAccountLockThreshold ∧
        recordTotpFailure admin now d = (none, countFailure admin d)) := by
  unfold recordTotpFailure
  split
  · rename_i hle
    exact .inl ⟨hle, rfl⟩
  · rename_i hlt
    exact .inr ⟨not_le.1 hlt, rfl⟩

theorem sessionTotp {draw : SessionDraw} {sessionId : String} {ttlMs : Nat}
    {out : TotpLoginResult × AccountDb}
    (h : verifySessionTotp P now draw sessionId code ttlMs d = .ok out) :
    SessionTotp P now draw sessionId code ttlMs d out := by
  unfold verifySessionTotp at h
  simp only [] at h
  split at h
  · cases h
    exact .nothing _ fun _ _ _ => TotpLoginResult.noConfusion
  rename_i s hs
  split at h
  · cases h
    exact .nothing _ fun _ _ _ => TotpLoginResult.noConfusion
  rename_i admin hadmin
  split at h
  · cases h
    exact .nothing _ fun _ _ _ => TotpLoginResult.noConfusion
  rename_i hfactor
  split at h
  · cases h
    exact .nothing _ fun _ _ _ => TotpLoginResult.noConfusion
  rename_i hlocked
  have hfactor' : (toAdmin d admin).hasSecondFactor = true := by simpa using hfactor
  have hlocked' : isTotpLocked admin now = false := by simpa using hlocked
  have hcheck := checked (P := P) now admin code d
  generalize checkFactor P now admin code d = answer at h hcheck
  obtain ⟨factor, d₁⟩ := answer
  cases factor with
  | some factor =>
      obtain ⟨d₂, hd₂, h⟩ := Fallible.bind_eq_ok.1 h
      cases h
      exact .passed hs hadmin hfactor' hlocked' hcheck hd₂
  | none =>
      cases hcheck with
      | wrong hstep hcode =>
          have hwrong : WrongCode P now admin code d := ⟨hlocked', hstep, hcode⟩
          simp only [] at h
          rcases recordTotpFailure_cases admin now d with ⟨hmax, hr⟩ | ⟨hmax, hr⟩
          · simp only [hr] at h
            cases h
            exact .lockout hs hadmin hfactor' hwrong hmax
          · simp only [hr] at h
            split at h
            · rename_i hover
              cases h
              exact .sessionOver hs hadmin hfactor' hwrong hmax hover
            · rename_i hover
              cases h
              exact .wrong hs hadmin hfactor' hwrong hmax (not_le.1 hover)

theorem confirmCode_spec (now : Int) (adminId code : String) (d : AccountDb) :
    ConfirmCode P now adminId code d (verifyConfirmCode P now adminId code d) := by
  unfold verifyConfirmCode
  cases hadmin : adminById adminId d with
  | none => exact .missing hadmin
  | some admin =>
      have hid := adminById_id hadmin
      simp only []
      split
      · rename_i hlocked
        exact .locked hadmin hlocked
      rename_i hlocked
      have hlocked' : isTotpLocked admin now = false := by simpa using hlocked
      cases hstep : matchedStep P admin code now with
      | some step => exact .totp hadmin hlocked' hstep
      | none =>
          rcases consumeRecoveryCode_cases (P := P) now adminId code d with ⟨hcode, h⟩ | ⟨hcode, h⟩
          · simp only [h]
            exact .recovery hadmin hlocked' hstep hcode
          · have hwrong : WrongCode P now admin code d := ⟨hlocked', hstep, by rwa [hid]⟩
            simp only [h]
            rcases recordTotpFailure_cases admin now d with ⟨hmax, hr⟩ | ⟨hmax, hr⟩
            · simp only [hr]
              exact .lockout hadmin hwrong hmax
            · simp only [hr]
              exact .wrong hadmin hwrong hmax

@[simp] theorem dropRecoveryCodesIfUnused_admins (id : String) (d : AccountDb) :
    (dropRecoveryCodesIfUnused id d).admins = d.admins := by
  unfold dropRecoveryCodesIfUnused
  split
  · rfl
  · split <;> rfl

@[simp] theorem dropRecoveryCodesIfUnused_passkeys (id : String) (d : AccountDb) :
    (dropRecoveryCodesIfUnused id d).passkeys = d.passkeys := by
  unfold dropRecoveryCodesIfUnused
  split
  · rfl
  · split <;> rfl

@[simp] theorem dropRecoveryCodesIfUnused_sessions (id : String) (d : AccountDb) :
    (dropRecoveryCodesIfUnused id d).sessions = d.sessions := by
  unfold dropRecoveryCodesIfUnused
  split
  · rfl
  · split <;> rfl

@[simp] theorem dropRecoveryCodesIfUnused_bindings (id : String) (d : AccountDb) :
    (dropRecoveryCodesIfUnused id d).bindings = d.bindings := by
  unfold dropRecoveryCodesIfUnused
  split
  · rfl
  · split <;> rfl

@[simp] theorem endSessions_admins (id : String) (keep : Option String) (d : AccountDb) :
    (endSessions P id keep d).admins = d.admins := by
  cases keep <;> rfl

@[simp] theorem endSessions_recoveryCodes (id : String) (keep : Option String) (d : AccountDb) :
    (endSessions P id keep d).recoveryCodes = d.recoveryCodes := by
  cases keep <;> rfl

@[simp] theorem endSessions_passkeys (id : String) (keep : Option String) (d : AccountDb) :
    (endSessions P id keep d).passkeys = d.passkeys := by
  cases keep <;> rfl

@[simp] theorem forceDisableTotp_admins (id : String) (keep : Option String) (d : AccountDb) :
    (forceDisableTotp P id keep d).admins = (clearTotp id d).admins := by
  simp [forceDisableTotp, clearTotp]

@[simp] theorem forceDisableTotp_passkeys (id : String) (keep : Option String) (d : AccountDb) :
    (forceDisableTotp P id keep d).passkeys = d.passkeys := by
  simp [forceDisableTotp, updateAdmin]

/-- Enrolment is refused, or the pending secret is proved and enabled. -/
theorem confirmTotpEnrolment_cases (now : Int) (codes : List String) (adminId code : String)
    (d : AccountDb) :
    confirmTotpEnrolment P now codes adminId code d = (none, d) ∨
      ∃ admin secret step, adminById adminId d = some admin ∧ admin.totpSecret = some secret ∧
        admin.totpEnabledAt = none ∧ verifyTotp P secret code now none = some step ∧
        confirmTotpEnrolment P now codes adminId code d =
          (some codes, replaceRecoveryCodes P adminId codes (enableTotp now step adminId d)) := by
  unfold confirmTotpEnrolment
  cases hadmin : adminById adminId d with
  | none => exact .inl rfl
  | some admin =>
      simp only []
      split
      · rename_i secret hsecret henabled
        cases hstep : verifyTotp P secret code now none with
        | none => exact .inl rfl
        | some step => exact .inr ⟨admin, secret, step, rfl, hsecret, henabled, hstep, rfl⟩
      · exact .inl rfl

/-- New recovery codes are refused, or a code of the app is accepted for them. -/
theorem regenerateRecoveryCodes_cases (now : Int) (codes : List String) (adminId code : String)
    (d : AccountDb) :
    regenerateRecoveryCodes P now codes adminId code d = (none, d) ∨
      ∃ admin step, adminById adminId d = some admin ∧
        matchedStep P admin code now = some step ∧
        regenerateRecoveryCodes P now codes adminId code d =
          (some codes, replaceRecoveryCodes P adminId codes (acceptStep step adminId d)) := by
  unfold regenerateRecoveryCodes
  cases hadmin : adminById adminId d with
  | none => exact .inl rfl
  | some admin =>
      simp only []
      cases hstep : matchedStep P admin code now with
      | none => exact .inl rfl
      | some step => exact .inr ⟨admin, step, rfl, hstep, rfl⟩

theorem regenerateRecoveryCodesConfirmed_cases (codes : List String) (adminId : String)
    (d : AccountDb) :
    regenerateRecoveryCodesConfirmed P codes adminId d = (none, d) ∨
      ∃ admin, adminById adminId d = some admin ∧ (toAdmin d admin).hasSecondFactor = true ∧
        regenerateRecoveryCodesConfirmed P codes adminId d =
          (some codes, replaceRecoveryCodes P adminId codes d) := by
  unfold regenerateRecoveryCodesConfirmed
  cases hadmin : adminById adminId d with
  | none => exact .inl rfl
  | some admin =>
      simp only []
      split
      · exact .inl rfl
      · rename_i hfactor
        exact .inr ⟨admin, rfl, by simpa using hfactor, rfl⟩

/-- The app stays, or it is disabled with a code of its own or with a recovery code. -/
theorem disableTotp_cases (now : Int) (adminId code keepSessionId : String) (d : AccountDb) :
    disableTotp P now adminId code keepSessionId d = (false, d) ∨
      ∃ admin, adminById adminId d = some admin ∧ admin.totpEnabledAt.isSome = true ∧
        ((∃ step, matchedStep P admin code now = some step ∧
            disableTotp P now adminId code keepSessionId d =
              (true, forceDisableTotp P adminId (some keepSessionId) d)) ∨
          (matchedStep P admin code now = none ∧ hasUnusedCode P adminId code d ∧
            disableTotp P now adminId code keepSessionId d =
              (true, forceDisableTotp P adminId (some keepSessionId)
                (useCode P now adminId code d)))) := by
  unfold disableTotp
  cases hadmin : adminById adminId d with
  | none => exact .inl rfl
  | some admin =>
      simp only []
      split
      · rename_i henabled
        cases hstep : matchedStep P admin code now with
        | some step =>
            exact .inr ⟨admin, rfl, by simp [henabled], .inl ⟨step, hstep, rfl⟩⟩
        | none =>
            rcases consumeRecoveryCode_cases (P := P) now adminId code d with
                ⟨hcode, h⟩ | ⟨hcode, h⟩
            · simp only [h]
              exact .inr ⟨admin, rfl, by simp [henabled], .inr ⟨hstep, hcode, trivial⟩⟩
            · simp only [h]
              exact .inl trivial
      · exact .inl rfl

theorem beginTotpEnrolment_ok {secret : Bytes} (h : beginTotpEnrolment secret adminId d = .ok d') :
    ∃ admin, adminById adminId d = some admin ∧ admin.totpEnabledAt = none ∧
      d' = updateAdmin adminId (fun a => { a with
        totpSecret := some secret, totpLastStep := none }) d := by
  unfold beginTotpEnrolment at h
  split at h
  · cases h
  rename_i admin hadmin
  split at h
  · cases h
  rename_i henabled
  cases h
  exact ⟨admin, hadmin, by simpa using henabled, rfl⟩

theorem createAdmin_ok {salt : String} {input : CreateAdminInput} {account : Admin}
    (h : createAdmin P now id salt input d = .ok (account, d')) :
    d' = { d with admins := d.admins ++ [newAdminRow P now id salt input] } ∧
      ∀ a ∈ d.admins, a.id ≠ newId "a" id := by
  unfold createAdmin at h
  split at h
  · cases h
  split at h
  · cases h
  simp only [] at h
  split at h
  · cases h
  rename_i hfree
  cases h
  simp only [List.any_eq_true, Bool.or_eq_true, beq_iff_eq, not_exists, not_and, not_or] at hfree
  exact ⟨rfl, fun a ha => (hfree a ha).1⟩

theorem insertSession_ok {row : SessionRow} (h : insertSession row d = .ok d') :
    d' = { d with sessions := d.sessions ++ [row] } ∧
      (∀ s ∈ d.sessions, s.idHash ≠ row.idHash ∧ s.publicId ≠ row.publicId) ∧
      ∃ a, adminById row.adminId d = some a := by
  unfold insertSession at h
  split at h
  · cases h
  rename_i hfree
  cases h
  simp only [Bool.or_eq_true, List.any_eq_true, beq_iff_eq, not_or, not_exists, not_and,
    Option.isNone_iff_eq_none] at hfree
  exact ⟨rfl, fun s hs => hfree.1 s hs, Option.ne_none_iff_exists'.1 hfree.2⟩

/-- The pending session is replaced, and the failures of the account are forgotten. -/
theorem completeSecondFactor_ok {draw : SessionDraw} {pending : String} {account : Admin}
    {ttlMs : Nat} {factor : SecondFactor}
    (h : completeSecondFactor P now draw pending account ttlMs factor d = .ok d') :
    d' = { deletePanelSessions (fun s => s.idHash == pending) (forgetFailures account.id d) with
      sessions := Table.delete (fun s => s.idHash == pending) d.sessions ++
        [completedSession P now draw account ttlMs (metaOf pending d) factor] } ∧
      (∀ s ∈ d.sessions, s.idHash ≠ pending →
        s.idHash ≠ P.sha256Hex draw.sessionId ∧ s.publicId ≠ newId "s" draw.publicId) := by
  unfold completeSecondFactor at h
  obtain ⟨d₂, hd₂, h⟩ := Fallible.bind_eq_ok.1 h
  obtain ⟨hrows, hfree, -⟩ := insertSession_ok hd₂
  have hnew : ∀ s ∈ Table.delete (fun s : SessionRow => s.idHash == pending) d.sessions,
      s.idHash ≠ P.sha256Hex draw.sessionId ∧ s.publicId ≠ newId "s" draw.publicId := hfree
  have hkeep : Table.update (fun s : SessionRow => s.idHash == P.sha256Hex draw.sessionId)
      (fun s => { s with totpVerified := true, secondFactor := some factor })
      (Table.delete (fun s : SessionRow => s.idHash == pending) d.sessions) =
        Table.delete (fun s : SessionRow => s.idHash == pending) d.sessions :=
    Table.update_eq_self fun s hs hp => absurd (by simpa using hp) (hnew s hs).1
  refine ⟨?_, fun s hs hne => hnew s (Table.mem_delete.2 ⟨hs, by simpa using hne⟩)⟩
  subst hrows
  cases h
  simp only [updateSession, Table.update_append]
  congr 1
  refine congrArg₂ _ hkeep ?_
  simp [Table.update, newSession, completedSession, metaOf]

/-- With a fresh draw an existing account's pending session is replaced. -/
theorem completeSecondFactor_succeeds {draw : SessionDraw} {pending : String} {account : Admin}
    {ttlMs : Nat} {factor : SecondFactor} (hadmin : adminById account.id d = some admin)
    (hfresh : ∀ s ∈ d.sessions,
      s.idHash ≠ P.sha256Hex draw.sessionId ∧ s.publicId ≠ newId "s" draw.publicId) :
    ∃ d', completeSecondFactor P now draw pending account ttlMs factor d = .ok d' := by
  have hrow := @adminById_updateAdmin account.id d
    (fun a => { a with totpFailedCount := 0, totpLockedUntil := none }) (fun _ => rfl) account.id
  rw [hadmin, Option.map_some] at hrow
  have hfree : (Table.delete (fun s : SessionRow => s.idHash == pending) d.sessions).any
      (fun s => s.idHash == P.sha256Hex draw.sessionId || s.publicId == newId "s" draw.publicId) =
        false := by
    rw [List.any_eq_false]
    intro s hs
    have hs := hfresh s (Table.mem_delete.1 hs).1
    simp [hs.1, hs.2]
  have hinsert : ∀ info, ∃ d₂, createSession P now draw account ttlMs info
      (deletePanelSessions (fun s => s.idHash == pending) (forgetFailures account.id d)) =
        .ok d₂ := by
    intro info
    refine ⟨_, if_neg ?_⟩
    simp only [Bool.or_eq_true, not_or, Bool.not_eq_true, Option.isNone_eq_false_iff]
    exact ⟨hfree, by rw [Option.isSome_iff_exists]; exact ⟨_, hrow⟩⟩
  obtain ⟨d₂, hd₂⟩ := hinsert (metaOf pending d)
  exact ⟨_, Fallible.bind_eq_ok.2 ⟨d₂, hd₂, rfl⟩⟩

end

end Outletbox
