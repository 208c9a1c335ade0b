import Outletbox.Crypto
import Outletbox.Db

/-!
# Passkey ceremonies

The functions of `webauthn.ts`: what is checked of a browser's answer when a
passkey is registered, and when one signs a challenge.
-/

namespace Outletbox

variable (P : Platform)

/-- `COSE_ALGS`: EdDSA, ES256, RS256. -/
def coseAlgs : List Int := [-8, -7, -257]

/-- Strict base64url: anything else is a malformed request, not a key. -/
def fromB64url (s what : String) : Except Failure Bytes :=
  if !s.toList.all isBase64url || s == "" || 16384 < utf16Length s then
    .error (.webAuthn ("malformed " ++ what))
  else .ok (P.base64urlDecode s)

/-- What a ceremony must be bound to. -/
structure Expected where
  challenge : String
  origin : String
  rpId : String

structure AuthData where
  rpIdHash : Bytes
  flags : Nat
  signCount : Nat
  credentialId : Option Bytes

/-- A number of several bytes, most significant first. -/
def bigEndian (data : Bytes) : Nat := data.foldl (fun n b => n * 256 + b.toNat) 0

/-- A bit of the flags is set. -/
def hasFlag (flags bit : Nat) : Bool := flags / bit % 2 == 1

def parseAuthData (data : Bytes) : Except Failure AuthData :=
  if data.length < 37 then .error (.webAuthn "authenticator data too short")
  else
    let flags := (data.getD 32 0).toNat
    let out : AuthData := ⟨data.take 32, flags, bigEndian ((data.drop 33).take 4), none⟩
    if hasFlag flags 0x40 then
      let length := bigEndian ((data.drop 53).take 2)
      if data.length < 55 then .error (.webAuthn "attested credential data too short")
      else if data.length < 55 + length then .error (.webAuthn "credential id truncated")
      else .ok { out with credentialId := some ((data.drop 55).take length) }
    else .ok out

/-- `value.name`. -/
def Json.member (name : String) : Json → Except Failure (Option Json)
  | .null => .error (.error "Cannot read properties of null")
  | .obj members => .ok ((members.reverse.find? (·.1 == name)).map (·.2))
  | _ => .ok none

/-- The string a member holds. -/
def Json.text? : Option Json → Option String
  | some (.str s) => some s
  | _ => none

def checkClientData (clientData : Bytes) (type : String) (exp : Expected) : Except Failure Unit :=
  match P.parseJson clientData with
  | none => .error (.webAuthn "client data is not JSON")
  | some cd => do
      if Json.text? (← cd.member "type") ≠ some type then
        .error (.webAuthn "wrong ceremony type")
      match Json.text? (← cd.member "challenge") with
      | none => .error (.webAuthn "challenge mismatch")
      | some challenge =>
          if (← fromB64url P challenge "challenge") ≠ (← fromB64url P exp.challenge "challenge") then
            .error (.webAuthn "challenge mismatch")
      if Json.text? (← cd.member "origin") ≠ some exp.origin then
        .error (.webAuthn "origin mismatch")
      match ← cd.member "crossOrigin" with
      | some (.bool true) => .error (.webAuthn "cross-origin ceremony")
      | _ => .ok ()

def checkAuthData (ad : AuthData) (exp : Expected) : Except Failure Unit :=
  if ad.rpIdHash ≠ P.sha256 exp.rpId.toUTF8.toList then .error (.webAuthn "RP id mismatch")
  else if !hasFlag ad.flags 0x01 then .error (.webAuthn "user not present")
  else .ok ()

/-- Imports a credential key and checks it matches the algorithm it claims. -/
def importCredentialKey (spki : Bytes) (alg : Int) : Except Failure KeyObject :=
  match P.spkiKey spki with
  | none => .error (.webAuthn "unreadable public key")
  | some key =>
      if (alg == -8 && key.asymmetricKeyType == "ed25519") ||
          (alg == -7 && key.asymmetricKeyType == "ec" && key.namedCurve == some "prime256v1") ||
          (alg == -257 && key.asymmetricKeyType == "rsa" && 2048 ≤ key.modulusLength.getD 0) then
        .ok key
      else .error (.webAuthn "unsupported key type")

structure RegistrationInput where
  clientDataJSON : String
  authenticatorData : String
  publicKey : String
  /-- `Number(field)`, when that is an integer. -/
  algorithm : Option Int
  credentialId : String

structure VerifiedRegistration where
  credentialId : String
  publicKey : String
  algorithm : Int
  signCount : Nat

def verifyRegistration (input : RegistrationInput) (exp : Expected) :
    Except Failure VerifiedRegistration := do
  checkClientData P (← fromB64url P input.clientDataJSON "client data") "webauthn.create" exp
  let ad ← parseAuthData (← fromB64url P input.authenticatorData "authenticator data")
  checkAuthData P ad exp
  match ad.credentialId with
  | none => .error (.webAuthn "no credential in authenticator data")
  | some attested =>
      let credId ← fromB64url P input.credentialId "credential id"
      if credId ≠ attested ∨ 1023 < credId.length then
        .error (.webAuthn "credential id mismatch")
      else
        match input.algorithm with
        | none => .error (.webAuthn "unsupported algorithm")
        | some algorithm =>
            if algorithm ∉ coseAlgs then .error (.webAuthn "unsupported algorithm")
            else do
              let spki ← fromB64url P input.publicKey "public key"
              let _ ← importCredentialKey P spki algorithm
              .ok ⟨P.base64urlEncode credId, P.base64urlEncode spki, algorithm, ad.signCount⟩

structure AssertionInput where
  clientDataJSON : String
  authenticatorData : String
  signature : String

structure StoredCredential where
  publicKey : String
  algorithm : Int
  signCount : Nat

/-- Verifies a sign-in assertion against a stored credential; returns the new
signature counter. -/
def verifyAssertion (input : AssertionInput) (cred : StoredCredential) (exp : Expected) :
    Except Failure Nat := do
  let clientData ← fromB64url P input.clientDataJSON "client data"
  let authData ← fromB64url P input.authenticatorData "authenticator data"
  let signature ← fromB64url P input.signature "signature"
  checkClientData P clientData "webauthn.get" exp
  let ad ← parseAuthData authData
  checkAuthData P ad exp
  let key ← importCredentialKey P (P.base64urlDecode cred.publicKey) cred.algorithm
  let signed := authData ++ P.sha256 clientData
  if !P.verifyDer (if cred.algorithm == -8 then none else some "sha256") signed key signature then
    .error (.webAuthn "bad signature")
  else if (ad.signCount ≠ 0 ∨ cred.signCount ≠ 0) ∧ ad.signCount ≤ cred.signCount then
    .error (.webAuthn "signature counter went backwards")
  else .ok ad.signCount

end Outletbox
