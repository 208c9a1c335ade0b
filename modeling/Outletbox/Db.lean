import Outletbox.Crypto
import Outletbox.I18n

/-!
# The database

One structure for each table, with the columns the program reads or writes.
The tables are grouped into the parts the services work on: the deliveries, the
accounts, the address groups.  A service takes only the part it touches, so
that what it cannot change is visible in its type.

A statement that violates a `PRIMARY KEY`, a `UNIQUE` or a foreign key
constraint makes the service fail, and the transaction it stands in is rolled
back.
-/

namespace Outletbox

/-- What a service throws. -/
inductive Failure
  /-- `RecipientListError`. -/
  | recipientList (key : MessageKey) (params : List (String × String))
  /-- `UserError`. -/
  | user (key : MessageKey) (params : List (String × String))
  /-- `ChallengeRateError`. -/
  | challengeRate (perHour : ℚ)
  /-- `LimitError`. -/
  | fileTooLarge (limit : Nat)
  /-- `WebAuthnError`. -/
  | webAuthn (reason : String)
  /-- `DbscError`. -/
  | dbsc (reason : String)
  /-- Any other `Error`. -/
  | error (message : String)
  /-- A violated constraint of the schema. -/
  | constraint
  deriving DecidableEq

/-- `Number.MAX_SAFE_INTEGER`. -/
def maxSafeInteger : Nat := 2 ^ 53 - 1

/-- `node:sqlite` reads the number back.  It throws `ERR_OUT_OF_RANGE` on an INTEGER that
no double holds for sure; from `2 ^ 63` on the column keeps a REAL. -/
def readable (n : Nat) : Bool := n ≤ maxSafeInteger || 2 ^ 63 ≤ n

/-! ## Deliveries -/

inductive CaseStatus
  | isOpen | isClosed
  deriving DecidableEq, Repr

/-- `cases`. -/
structure Case where
  id : String
  name : String
  description : String
  status : CaseStatus
  createdAt : Int
  updatedAt : Int
  deriving DecidableEq

/-- `case_members`: who may work on which case. -/
structure CaseMember where
  caseId : String
  adminId : String
  createdAt : Int
  deriving DecidableEq

inductive ItemKind
  | file | note
  deriving DecidableEq, Repr

inductive UploadKind
  | tus | direct
  deriving DecidableEq, Repr

inductive ItemStatus
  | uploading | ready | aborted | expired | missing | deleted
  deriving DecidableEq, Repr

/-- `items`. -/
structure ItemRow where
  id : String
  caseId : String
  kind : ItemKind
  title : String
  body : Option String
  uploadKind : Option UploadKind
  status : ItemStatus
  declaredSize : Option Nat
  size : Option Nat
  sha256 : Option String
  createdBy : Option String
  createdAt : Int
  readyAt : Option Int
  deletedAt : Option Int
  deriving DecidableEq

/-- `links`. -/
structure Link where
  id : String
  caseId : String
  label : String
  tokenHash : String
  tokenHint : String
  expiresAt : Option Int
  revokedAt : Option Int
  /-- Openings of the link as a whole, whichever of its recipients opened it. -/
  maxOpens : Option Nat
  opensUsed : Nat
  createdAt : Int
  lastUsedAt : Option Int
  deriving DecidableEq

/-- `link_recipients`: one person who may open a link. -/
structure LinkRecipient where
  id : String
  linkId : String
  email : String
  lang : Lang
  opens : Nat
  lastOpenedAt : Option Int
  createdAt : Int
  deriving DecidableEq

/-- `challenges`: one-time codes. -/
structure Challenge where
  id : String
  linkId : String
  /-- Null only for rows older than the table of recipients. -/
  recipientId : Option String
  codeHash : PasswordHash
  flowHash : String
  attempts : Nat
  createdAt : Int
  expiresAt : Int
  consumedAt : Option Int
  ip : Option String
  deriving DecidableEq

/-- `access_sessions`. -/
structure AccessSessionRow where
  idHash : String
  linkId : String
  recipientId : Option String
  csrfToken : String
  createdAt : Int
  expiresAt : Int
  ip : Option String
  deriving DecidableEq

/-- The tables of the deliveries. -/
structure DeliveryDb where
  cases : List Case
  caseMembers : List CaseMember
  items : List ItemRow
  links : List Link
  linkRecipients : List LinkRecipient
  challenges : List Challenge
  accessSessions : List AccessSessionRow
  deriving DecidableEq

/-- The deliveries of a fresh database. -/
def DeliveryDb.empty : DeliveryDb := ⟨[], [], [], [], [], [], []⟩

/-! ## Accounts -/

inductive Role
  | admin | user
  deriving DecidableEq, Repr

/-- How a session passed its second factor. -/
inductive SecondFactor
  | totp | recovery | passkey
  deriving DecidableEq, Repr

inductive CeremonyPurpose
  | register | login | confirm
  deriving DecidableEq, Repr

/-- `admins`. -/
structure AdminRow where
  id : String
  username : String
  passwordHash : PasswordHash
  createdAt : Int
  /-- The decoded secret. Set while pending, kept once enabled. -/
  totpSecret : Option Bytes
  /-- Null while no authenticator app is enabled. -/
  totpEnabledAt : Option Int
  /-- The last accepted time step. -/
  totpLastStep : Option Int
  totpFailedCount : Nat
  totpLockedUntil : Option Int
  role : Role
  disabledAt : Option Int
  mustChangePassword : Bool
  lastLoginAt : Option Int
  deriving DecidableEq

/-- `admin_recovery_codes`. -/
structure RecoveryCode where
  adminId : String
  codeHash : String
  usedAt : Option Int
  deriving DecidableEq

/-- `sessions`. -/
structure SessionRow where
  idHash : String
  adminId : String
  csrfToken : String
  createdAt : Int
  lastSeenAt : Int
  expiresAt : Int
  totpVerified : Bool
  totpAttempts : Nat
  publicId : String
  userAgent : Option String
  ip : Option String
  secondFactor : Option SecondFactor
  /-- Sensitive actions are allowed until this moment. -/
  confirmedUntil : Option Int
  webauthnChallenge : Option String
  webauthnPurpose : Option CeremonyPurpose
  webauthnExpiresAt : Option Int
  dbscChallenge : Option String
  dbscOfferedAt : Option Int
  deriving DecidableEq

/-- `admin_passkeys`. -/
structure PasskeyRow where
  id : String
  adminId : String
  credentialId : String
  publicKey : String
  algorithm : Int
  signCount : Nat
  name : String
  createdAt : Int
  lastUsedAt : Option Int
  deriving DecidableEq

inductive DbscAlg
  | es256 | rs256
  deriving DecidableEq, Repr

/-- `session_bindings`: a session bound to a device key. -/
structure BindingRow where
  id : String
  sessionHash : String
  alg : DbscAlg
  jwk : JsonWebKey
  cookieHash : String
  cookieExpiresAt : Int
  prevCookieHash : Option String
  prevCookieExpiresAt : Option Int
  challenge : Option String
  challengeExpiresAt : Option Int
  createdAt : Int
  refreshedAt : Int
  deriving DecidableEq

/-- The tables of the accounts. -/
structure AccountDb where
  admins : List AdminRow
  recoveryCodes : List RecoveryCode
  sessions : List SessionRow
  passkeys : List PasskeyRow
  bindings : List BindingRow
  deriving DecidableEq

/-- The accounts of a fresh database. -/
def AccountDb.empty : AccountDb := ⟨[], [], [], [], []⟩

/-! ## Address groups and the audit log -/

/-- `recipient_groups`. -/
structure GroupRow where
  id : String
  name : String
  createdAt : Int
  updatedAt : Int
  createdBy : Option String
  deriving DecidableEq

/-- `recipient_group_members`. -/
structure GroupMember where
  groupId : String
  email : String
  lang : Lang
  position : Nat
  deriving DecidableEq

structure GroupDb where
  groups : List GroupRow
  members : List GroupMember
  deriving DecidableEq

def GroupDb.empty : GroupDb := ⟨[], []⟩

inductive ActorType
  | admin | recipient | system
  deriving DecidableEq, Repr

/-- A value of the JSON column of the audit log. -/
inductive AuditValue
  | null
  | text (value : String)
  | number (value : ℚ)
  | date (value : Int)
  | texts (values : List String)
  deriving DecidableEq

/-- What `audit` is called with. -/
structure AuditEvent where
  actorType : ActorType
  actorId : Option String := none
  action : String
  caseId : Option String := none
  linkId : Option String := none
  itemId : Option String := none
  ip : Option String := none
  /-- The keys and values of the JSON column. -/
  details : List (String × AuditValue) := []
  deriving DecidableEq

/-- `audit_log`. -/
structure AuditRow where
  ts : Int
  event : AuditEvent
  deriving DecidableEq

end Outletbox
