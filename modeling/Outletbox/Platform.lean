import Mathlib

/-!
# What the program takes from its host

`Platform` collects the functions of node:crypto and of JavaScript's Unicode
tables that the services call.  Nothing is assumed of them here; the theorems
that rest on one of their documented properties say so in a hypothesis.

The few string functions whose behaviour is a plain recursion are defined
below: the white space of `\s` and `trim()`, and slicing by UTF-16 units.
-/

namespace Outletbox

/-- A `Buffer`. -/
abbrev Bytes := List UInt8

/-- What `JSON.parse` returns. -/
inductive Json
  | null
  | bool (value : Bool)
  | num (value : ℚ)
  | str (value : String)
  | arr (items : List Json)
  | obj (members : List (String × Json))

/-- The public half of a device key, as the browser sends it. -/
inductive JsonWebKey
  | ec (x y : String)
  | rsa (n e : String)
  deriving DecidableEq

/-- A `KeyObject` of node:crypto: what the code reads of its details, and the key itself. -/
structure KeyObject where
  asymmetricKeyType : String
  namedCurve : Option String
  modulusLength : Option Nat
  material : Bytes
  deriving DecidableEq

/-- Host functions the services call. -/
structure Platform where
  /-- `createHash('sha256').update(value, 'utf8').digest('hex')`. -/
  sha256Hex : String → String
  /-- `scryptSync(password, salt, ..)` at the work factor of `hashPassword`. -/
  scryptSync : String → String → String
  /-- `s.normalize('NFKC')`. -/
  nfkc : String → String
  /-- `s.normalize('NFC')`. -/
  nfc : String → String
  /-- `s.toLowerCase()`. -/
  toLowerCase : String → String
  /-- `Number(s)`, when that is an integer. -/
  integer : String → Option Int
  /-- `new Date(s).getTime()`, unless that is `NaN`. -/
  parseDate : String → Option Int
  /-- `decodeURIComponent(s)`, unless it throws. -/
  decodeURIComponent : String → Option String
  /-- `createHash('sha256').update(data).digest()`. -/
  sha256 : Bytes → Bytes
  /-- `createHmac('sha1', key).update(data).digest()`. -/
  hmacSha1 : Bytes → Bytes → Bytes
  /-- `Buffer.from(s, 'base64url')`. -/
  base64urlDecode : String → Bytes
  /-- `buf.toString('base64url')`. -/
  base64urlEncode : Bytes → String
  /-- `JSON.parse(buf.toString('utf8'))`, unless it throws. -/
  parseJson : Bytes → Option Json
  /-- `createPublicKey({ key, format: 'der', type: 'spki' })`, unless it throws. -/
  spkiKey : Bytes → Option KeyObject
  /-- `createPublicKey({ key, format: 'jwk' })`, unless it throws. -/
  jwkKey : JsonWebKey → Option KeyObject
  /-- `verify(algorithm, data, key, signature)` with the signature in DER form. -/
  verifyDer : Option String → Bytes → KeyObject → Bytes → Bool
  /-- `verify('sha256', data, { key, dsaEncoding: 'ieee-p1363' }, signature)`. -/
  verifyP1363 : Bytes → KeyObject → Bytes → Bool

/-- A host to evaluate the model on.  Its hashes keep their input, and its
Unicode tables know the ASCII letters and the full-width digits. -/
def Platform.sample : Platform where
  sha256Hex s := "sha256:" ++ s
  scryptSync password salt := "scrypt:" ++ salt ++ ":" ++ password
  nfkc s := String.ofList (s.toList.map fun c =>
    if 0xff10 ≤ c.toNat ∧ c.toNat ≤ 0xff19 then Char.ofNat (c.toNat - 0xfee0) else c)
  nfc s := s
  toLowerCase s := String.ofList (s.toList.map Char.toLower)
  integer s := s.toNat?.map Int.ofNat
  parseDate _ := none
  decodeURIComponent s := some s
  sha256 data := data
  hmacSha1 key data := key ++ data
  base64urlDecode s := s.toList.map fun c => UInt8.ofNat c.toNat
  base64urlEncode data := String.ofList (data.map fun b => Char.ofNat b.toNat)
  parseJson _ := none
  spkiKey _ := none
  jwkKey _ := none
  verifyDer _ _ _ _ := false
  verifyP1363 _ _ _ := false

/-- The white space of JavaScript's `\s` and `trim()`. -/
def isSpace (c : Char) : Bool :=
  let n := c.toNat
  (9 ≤ n && n ≤ 13) || n == 0x20 || n == 0xa0 || n == 0x1680 || (0x2000 ≤ n && n ≤ 0x200a) ||
    n == 0x2028 || n == 0x2029 || n == 0x202f || n == 0x205f || n == 0x3000 || n == 0xfeff

/-- `s.trim()`. -/
def trim (s : String) : String :=
  String.ofList ((s.toList.dropWhile isSpace).reverse.dropWhile isSpace).reverse

/-- The number of UTF-16 units of a character. -/
def units (c : Char) : Nat := if c.toNat < 0x10000 then 1 else 2

/-- `s.length`. -/
def utf16Length (s : String) : Nat := (s.toList.map units).sum

/-- The characters of the first `n` units.  A pair cut in half leaves a lone
surrogate, which is written out as U+FFFD. -/
def takeUnits : Nat → List Char → List Char
  | _, [] => []
  | 0, _ => []
  | n + 1, c :: cs =>
      if units c = 1 then c :: takeUnits n cs
      else if n = 0 then ['\uFFFD']
      else c :: takeUnits (n - 1) cs

/-- `s.split(/\s+/).filter(Boolean)`. -/
def words (s : List Char) : List (List Char) := (s.splitOnP isSpace).filter (!·.isEmpty)

/-- `s.slice(0, n)`. -/
def slice (n : Nat) (s : String) : String := String.ofList (takeUnits n s.toList)

end Outletbox
