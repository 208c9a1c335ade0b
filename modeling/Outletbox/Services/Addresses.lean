import Outletbox.Crypto
import Outletbox.Db

/-!
# Address lists

The functions of `services/addresses.ts`: reading the free-form list of
addresses an administrator types.
-/

namespace Outletbox

variable (P : Platform)

/-- One person a link (or a group) is meant for. -/
structure RecipientInput where
  email : String
  lang : Lang
  deriving DecidableEq

/-- `MAX_RECIPIENTS`. -/
def maxRecipients : Nat := 100

/-- `text.replace(/"[^"\n]*"/g, ' ')` in one pass.  The first argument holds,
in reverse, what was read since a quotation mark that may still be closed. -/
def dropQuoted : Option (List Char) → List Char → List Char
  | none, [] => []
  | some acc, [] => '"' :: acc.reverse
  | none, c :: cs => if c = '"' then dropQuoted (some []) cs else c :: dropQuoted none cs
  | some acc, c :: cs =>
      if c = '"' then ' ' :: dropQuoted none cs
      else if c = '\n' then '"' :: acc.reverse ++ '\n' :: dropQuoted none cs
      else dropQuoted (some (c :: acc)) cs

/-- A character that ends an entry. -/
def isSeparator (c : Char) : Bool := c == '\n' || c == '\r' || c == ',' || c == ';'

/-- `/<([^<>]*)>/.exec`: what stands in the first pair of angle brackets, and what follows it. -/
def findAngle : List Char → Option (List Char × List Char)
  | [] => none
  | c :: cs =>
      if c = '<' then
        match cs.span fun x => x != '<' && x != '>' with
        | (inside, '>' :: rest) => some (inside, rest)
        | _ => findAngle cs
      else findAngle cs

/-- The word of an entry that holds an `@`, and the words after it. -/
def addressWord : List (List Char) → Option (List Char × List (List Char))
  | [] => none
  | w :: ws => if w.contains '@' then some (w, ws) else addressWord ws

def parseEntry (entry : List Char) (fallback : Lang) : Option RecipientInput :=
  let parts := match findAngle entry with
    | some (inside, rest) => some (inside, words rest)
    | none => addressWord (words entry)
  match parts with
  | none => none
  | some (address, tail) =>
      let email := normalizeEmail P (String.ofList address)
      if !isValidEmail email then none
      else match tail with
        | [] => some ⟨email, fallback⟩
        | [code] => (isLang (P.toLowerCase (String.ofList code))).map fun lang => ⟨email, lang⟩
        | _ => none

/-- The loop of `parseRecipients` over the entries: the people read so far and
the entries that could not be read. -/
def parseEntries (fallback : Lang) :
    List (List Char) → List RecipientInput × List String → List RecipientInput × List String
  | [], out => out
  | raw :: rest, (recipients, invalid) =>
      let entry := (trim (String.ofList raw)).toList
      if entry.isEmpty then parseEntries fallback rest (recipients, invalid)
      else match parseEntry P entry fallback with
        | none => parseEntries fallback rest
            (recipients, invalid ++ [slice 80 (String.ofList entry)])
        | some parsed =>
            if recipients.any (·.email == parsed.email) then
              parseEntries fallback rest (recipients, invalid)
            else parseEntries fallback rest (recipients ++ [parsed], invalid)

/-- Reads the free-form address list from the panel.  Entries are separated by
new lines, commas or semicolons. -/
def parseRecipients (text : String) (fallback : Lang) : List RecipientInput × List String :=
  parseEntries P fallback ((dropQuoted none text.toList).splitOnP isSeparator) ([], [])

/-- Union by address; the first occurrence (and its language) wins. -/
def mergeRecipients (list : List RecipientInput) : List RecipientInput :=
  list.foldl (fun out r => if out.any (·.email == r.email) then out else out ++ [r]) []

/-- One address and its language per line. -/
def formatRecipients (list : List RecipientInput) : String :=
  String.intercalate "\n" (list.map fun r => r.email ++ " " ++ r.lang.code)

/-- The error for a list of more than `MAX_RECIPIENTS` people. -/
def tooMany : Failure := .recipientList .recipientsTooMany [("max", toString maxRecipients)]

/-- Parses and validates in one go: the list must hold at least one address, no
unreadable entries and no more than `MAX_RECIPIENTS` people. -/
def requireRecipients (text : String) (fallback : Lang) (extra : List RecipientInput) :
    Except Failure (List RecipientInput) :=
  let (recipients, invalid) := parseRecipients P text fallback
  let merged := mergeRecipients (recipients ++ extra)
  if !invalid.isEmpty then
    .error (.recipientList .recipientsInvalid [("list", String.intercalate " · " invalid)])
  else if merged.isEmpty then .error (.recipientList .recipientsNone [])
  else if maxRecipients < merged.length then .error tooMany
  else .ok merged

end Outletbox
