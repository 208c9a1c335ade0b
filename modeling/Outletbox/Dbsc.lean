import Outletbox.Crypto
import Outletbox.Db
import Outletbox.Library.Fallible
import Outletbox.Webauthn

/-!
# Proofs of a device key

The functions of `dbsc.ts`: reading and checking the proof a browser sends that
it holds the key its session is bound to.
-/

namespace Outletbox

variable (P : Platform)

structure DbscProof where
  alg : DbscAlg
  /-- The key from the header of the proof (registration only). -/
  jwk : Option JsonWebKey
  /-- The challenge the proof answers. -/
  jti : String

/-- A character of a JWT. -/
def isJwtChar (c : Char) : Bool := isBase64url c || c == '.'

/-- The JWT of the `Secure-Session-Response` header, with or without its quotes. -/
def proofFromHeader (raw : Option String) : Option String :=
  match raw.map fun v => (trim v).toList with
  | none => none
  | some s =>
      let bare := match s with
        | '"' :: rest => if rest.getLast? = some '"' then rest.dropLast else s
        | _ => s
      if bare.isEmpty || !bare.all isJwtChar || 8192 < bare.length then none
      else some (String.ofList bare)

/-- A part of a JWT: a JSON object. -/
def jwtPart (s : String) : Except Failure Json :=
  match P.parseJson (P.base64urlDecode s) with
  | some (.obj members) => .ok (.obj members)
  | _ => .error (.dbsc "malformed JWT")

/-- The string member of an object. -/
def Json.string? (v : Json) (name : String) : Option String :=
  match v.member name with
  | .ok m => Json.text? m
  | .error _ => none

/-- The object has no such member. -/
def Json.lacks (v : Json) (name : String) : Bool :=
  match v.member name with
  | .ok none => true
  | _ => false

/-- Only the public members of a key we can use: anything else in the JWK is dropped. -/
def publicJwk (jwk : Option Json) : Except Failure JsonWebKey :=
  match jwk with
  | some (.obj members) =>
      let k := Json.obj members
      if k.string? "kty" = some "EC" ∧ k.string? "crv" = some "P-256" ∧ k.lacks "d" = true then
        match k.string? "x", k.string? "y" with
        | some x, some y => .ok (.ec x y)
        | _, _ => .error (.dbsc "unsupported key")
      else if k.string? "kty" = some "RSA" ∧ k.lacks "d" = true then
        match k.string? "n", k.string? "e" with
        | some n, some e => .ok (.rsa n e)
        | _, _ => .error (.dbsc "unsupported key")
      else .error (.dbsc "unsupported key")
  | some (.arr _) => .error (.dbsc "unsupported key")
  | _ => .error (.dbsc "missing key")

def keyFor (alg : DbscAlg) (jwk : JsonWebKey) : Except Failure KeyObject :=
  match P.jwkKey jwk with
  | none => .error (.dbsc "unreadable key")
  | some key =>
      match alg with
      | .es256 =>
          if key.asymmetricKeyType = "ec" ∧ key.namedCurve = some "prime256v1" then .ok key
          else .error (.dbsc "key does not match ES256")
      | .rs256 =>
          if key.asymmetricKeyType = "rsa" ∧ 2048 ≤ key.modulusLength.getD 0 then .ok key
          else .error (.dbsc "key does not match RS256")

/-- `header.alg`, when it is one of `DBSC_ALGS`. -/
def dbscAlg : Option String → Except Failure DbscAlg
  | some "ES256" => .ok .es256
  | some "RS256" => .ok .rs256
  | _ => .error (.dbsc "unsupported alg")

/-- Verifies a proof. At registration the key comes from the JWT itself; at
refresh it must be the key stored at registration, passed as `knownKey`. -/
def verifyProof (jwt : String) (knownKey : Option (DbscAlg × JsonWebKey)) :
    Except Failure DbscProof :=
  match jwt.toList.splitOn '.' with
  | [h, p, sig] => do
      let header ← jwtPart P (String.ofList h)
      let payload ← jwtPart P (String.ofList p)
      if header.string? "typ" ≠ some "dbsc+jwt" then .error (.dbsc "wrong typ")
      let alg ← dbscAlg (header.string? "alg")
      let jwk ← match knownKey with
        | some (knownAlg, jwk) =>
            if alg ≠ knownAlg then .error (.dbsc "alg differs from the registered key")
            else .ok jwk
        | none => do publicJwk (← header.member "jwk")
      let key ← keyFor P alg jwk
      let signed := (String.ofList (h ++ '.' :: p)).toUTF8.toList
      let signature := P.base64urlDecode (String.ofList sig)
      let ok := match alg with
        | .es256 => P.verifyP1363 signed key signature
        | .rs256 => P.verifyDer (some "sha256") signed key signature
      if !ok then .error (.dbsc "bad signature")
      match payload.string? "jti" with
      | some jti =>
          if jti == "" then .error (.dbsc "missing jti")
          else .ok ⟨alg, if knownKey.isSome then none else some jwk, jti⟩
      | none => .error (.dbsc "missing jti")
  | _ => .error (.dbsc "malformed JWT")

/-- The JWT carries the challenge `jti` and is signed with the key. -/
def SignedWith (alg : DbscAlg) (jwk : JsonWebKey) (jti jwt : String) : Prop :=
  ∃ h p sig key payload, jwt.toList.splitOn '.' = [h, p, sig] ∧ keyFor P alg jwk = .ok key ∧
    (match alg with
      | .es256 => P.verifyP1363 (String.ofList (h ++ '.' :: p)).toUTF8.toList key
          (P.base64urlDecode (String.ofList sig))
      | .rs256 => P.verifyDer (some "sha256") (String.ofList (h ++ '.' :: p)).toUTF8.toList key
          (P.base64urlDecode (String.ofList sig))) = true ∧
    jwtPart P (String.ofList p) = .ok payload ∧ payload.string? "jti" = some jti

section

variable {P} {alg alg' : DbscAlg} {jwk jwk' : JsonWebKey} {jti jti' jwt : String}

/-- A JWT carries one challenge. -/
theorem SignedWith.jti_unique (h : SignedWith P alg jwk jti jwt)
    (h' : SignedWith P alg' jwk' jti' jwt) : jti = jti' := by
  obtain ⟨_, p, _, _, payload, hsplit, -, -, hpayload, hjti⟩ := h
  obtain ⟨_, p', _, _, payload', hsplit', -, -, hpayload', hjti'⟩ := h'
  rw [hsplit] at hsplit'
  cases hsplit'
  rw [hpayload] at hpayload'
  cases hpayload'
  rw [hjti] at hjti'
  cases hjti'
  rfl

/-- An accepted proof is signed with the registered key, or with the key it names itself. -/
theorem verifyProof_ok {knownKey : Option (DbscAlg × JsonWebKey)} {proof : DbscProof}
    (h : verifyProof P jwt knownKey = .ok proof) :
    ∃ jwk, SignedWith P proof.alg jwk proof.jti jwt ∧
      (knownKey = some (proof.alg, jwk) ∨ knownKey = none ∧ proof.jwk = some jwk) := by
  unfold verifyProof at h
  split at h
  · rename_i hd p sig hsplit
    obtain ⟨header, -, h⟩ := Fallible.bind_eq_ok.1 h
    obtain ⟨payload, hpayload, h⟩ := Fallible.bind_eq_ok.1 h
    simp only [Fallible.ok_bind, Fallible.error_bind] at h
    obtain ⟨-, h⟩ := Fallible.guard_eq_ok.1 h
    obtain ⟨alg, -, h⟩ := Fallible.bind_eq_ok.1 h
    cases knownKey with
    | some known =>
        obtain ⟨knownAlg, jwk⟩ := known
        obtain ⟨halg, h⟩ := Fallible.guard_eq_ok.1 h
        obtain ⟨key, hkey, h⟩ := Fallible.bind_eq_ok.1 h
        obtain ⟨hgood, h⟩ := Fallible.guard_eq_ok.1 h
        split at h
        · rename_i jti hjti
          obtain ⟨-, h⟩ := Fallible.guard_eq_ok.1 h
          cases h
          exact ⟨jwk, ⟨hd, p, sig, key, payload, hsplit, hkey, by simpa using hgood, hpayload, hjti⟩,
            .inl (by rw [not_not.1 halg])⟩
        · cases h
    | none =>
        obtain ⟨member, -, h⟩ := Fallible.bind_eq_ok.1 h
        obtain ⟨jwk, -, h⟩ := Fallible.bind_eq_ok.1 h
        obtain ⟨key, hkey, h⟩ := Fallible.bind_eq_ok.1 h
        obtain ⟨hgood, h⟩ := Fallible.guard_eq_ok.1 h
        split at h
        · rename_i jti hjti
          obtain ⟨-, h⟩ := Fallible.guard_eq_ok.1 h
          cases h
          exact ⟨jwk, ⟨hd, p, sig, key, payload, hsplit, hkey, by simpa using hgood, hpayload, hjti⟩,
            .inr ⟨rfl, rfl⟩⟩
        · cases h
  · cases h
end

end Outletbox
