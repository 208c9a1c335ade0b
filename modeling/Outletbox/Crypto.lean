import Outletbox.Platform

/-!
# Identifiers, codes and addresses

The functions of `crypto.ts`.  What they draw from `randomBytes` is a parameter
here, so that a request carries its random values.  A stored password or code
hash is the pair of its salt and its key: the text form `scrypt$N$r$p$salt$key`
is only ever written by `hashPassword` and read by `verifyPassword`.
-/

namespace Outletbox

/-- `newId(prefix)`: the prefix, an underscore and 16 random base64url characters. -/
def newId (kind random : String) : String := kind ++ "_" ++ random

/-- A character of base64url. -/
def isBase64url (c : Char) : Bool :=
  ('A' ≤ c && c ≤ 'Z') || ('a' ≤ c && c ≤ 'z') || ('0' ≤ c && c ≤ '9') || c == '_' || c == '-'

/-- `TOKEN_RE.test`: 43 characters of base64url. -/
def isToken (s : String) : Bool := s.toList.length == 43 && s.toList.all isBase64url

/-- `ID_RE.test`: lower-case letters, an underscore, 16 characters of base64url. -/
def isId (s : String) : Bool :=
  let kind := s.toList.takeWhile fun c => 'a' ≤ c && c ≤ 'z'
  match s.toList.dropWhile fun c => 'a' ≤ c && c ≤ 'z' with
  | '_' :: rest => !kind.isEmpty && rest.length == 16 && rest.all isBase64url
  | _ => false

/-- What `hashPassword` stores: a random salt and the derived key. -/
structure PasswordHash where
  salt : String
  key : String
  deriving DecidableEq, Repr

variable (P : Platform)

def hashPassword (password salt : String) : PasswordHash :=
  ⟨salt, P.scryptSync (P.nfkc password) salt⟩

def verifyPassword (password : String) (stored : PasswordHash) : Bool :=
  P.scryptSync (P.nfkc password) stored.salt == stored.key

/-- Codes are compared after stripping the spaces/dashes people paste in from an e-mail. -/
def normalizeCode (raw : String) : String :=
  String.ofList (raw.toList.filter fun c => !(isSpace c || c == '-'))

/-- Lower-cased, NFKC-normalised address. Comparison and storage both use this form. -/
def normalizeEmail (raw : String) : String := P.toLowerCase (trim (P.nfkc raw))

/-- A character of the part of an address before the `@`. -/
def isLocalChar (c : Char) : Bool :=
  !(isSpace c || c == '@' || c == ',' || c == ';' || c == '<' || c == '>' || c == '"' || c == '\'')

/-- A character of a label of the domain of an address. -/
def isLabelChar (c : Char) : Bool := isLocalChar c && c != '.'

/-- At least two labels, none of them empty. -/
def isDomain (cs : List Char) : Bool :=
  let labels := cs.splitOn '.'
  2 ≤ labels.length && labels.all fun l => !l.isEmpty && l.all isLabelChar

/-- `EMAIL_RE.test`. -/
def matchesEmail (cs : List Char) : Bool :=
  let name := cs.takeWhile isLocalChar
  match cs.dropWhile isLocalChar with
  | '@' :: domain => !name.isEmpty && isDomain domain
  | _ => false

def isValidEmail (value : String) : Bool :=
  utf16Length value ≤ 254 && matchesEmail value.toList

/-! ## What the hashes decide -/

section

variable {P}

/-- The code that was hashed is accepted. -/
@[simp] theorem verifyPassword_hashPassword (code salt : String) :
    verifyPassword P code (hashPassword P code salt) = true := by
  simp [verifyPassword, hashPassword]

/-- What is accepted has the key of what was hashed. -/
theorem verifyPassword_hashPassword_iff {typed code salt : String} :
    verifyPassword P typed (hashPassword P code salt) = true ↔
      P.scryptSync (P.nfkc typed) salt = P.scryptSync (P.nfkc code) salt := by
  simp [verifyPassword, hashPassword]

end

end Outletbox
