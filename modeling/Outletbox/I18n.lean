import Mathlib

/-!
# Languages and messages

The dictionaries themselves are not modelled.  A text of a page is the key it
is looked up under, with its language and its parameters, so that two texts
are equal when the program asks for the same message.
-/

namespace Outletbox

/-- The languages with a dictionary. -/
inductive Lang
  | bg | cs | da | de | el | en | es | et | fi | fr | ga | hr
  | hu | it | lt | lv | mt | nl | pl | pt | ro | sk | sl | sv
  deriving DecidableEq, Repr, Inhabited

/-- The language a code names: `isLang`, with the language it narrows to. -/
def isLang : String → Option Lang
  | "bg" => some .bg | "cs" => some .cs | "da" => some .da | "de" => some .de
  | "el" => some .el | "en" => some .en | "es" => some .es | "et" => some .et
  | "fi" => some .fi | "fr" => some .fr | "ga" => some .ga | "hr" => some .hr
  | "hu" => some .hu | "it" => some .it | "lt" => some .lt | "lv" => some .lv
  | "mt" => some .mt | "nl" => some .nl | "pl" => some .pl | "pt" => some .pt
  | "ro" => some .ro | "sk" => some .sk | "sl" => some .sl | "sv" => some .sv
  | _ => none

/-- The code of a language. -/
def Lang.code : Lang → String
  | .bg => "bg" | .cs => "cs" | .da => "da" | .de => "de" | .el => "el" | .en => "en"
  | .es => "es" | .et => "et" | .fi => "fi" | .fr => "fr" | .ga => "ga" | .hr => "hr"
  | .hu => "hu" | .it => "it" | .lt => "lt" | .lv => "lv" | .mt => "mt" | .nl => "nl"
  | .pl => "pl" | .pt => "pt" | .ro => "ro" | .sk => "sk" | .sl => "sl" | .sv => "sv"

/-- The message keys the modelled code uses, named as in `locales/en.ts`. -/
inductive MessageKey
  | caseClosedNoLinks | caseSaved
  | confirmInvalid | confirmLocked
  | deliverCodeExpired | deliverCodeInvalid | deliverEmailInvalid | deliverMailFailed
  | deliverSessionOver | deliverTooMany
  | errorCaseMissing | errorCrossSite | errorCsrf | errorForbidden | errorForbiddenTitle
  | errorInvalidExpiry | errorItemMissing | errorItemNotExist | errorLinkMissing
  | errorNotFoundTitle | errorRecipientMissing | errorStorageMissing | errorStorageMissingTitle
  | errorServer | errorServerTitle
  | groupsCreated | groupsDeleted | groupsMissing | groupsNameRequired | groupsNameTaken
  | groupsNotYours | groupsSaved
  | itemsNoteAdded | itemsNoteEmpty
  | linkCaseClosed | linkExhausted | linkExpired | linkInvalid | linkInvalidTitle | linkRevoked
  | linkUnavailableTitle
  | linksLastRecipient | linksRecipientRemoved | linksRecipientsAdded | linksRevokedNoChanges
  | loginAccountLocked | loginFailed | loginTooManyCodes
  | membersAdded | membersNotSelf | membersRemoved
  | passkeyFailed | passkeysAdded | passkeysDuplicate | passkeysLastRequired | passkeysLimit
  | passkeysRemoved
  | recipientsInvalid | recipientsNone | recipientsTooMany
  | securityMsgCodeMismatch | securityMsgDisabled | securityMsgEnabled | securityMsgInvalidCode
  | securityMsgRegenerated | securityMsgRequired
  | securityPasswordChanged | securityPasswordInvalidCurrent | securityPasswordMismatch
  | sessionsRevoked | sessionsRevokedOthers
  | totpInvalid
  | usersDeleted | usersDisabled | usersEnabled | usersExists | usersInvalidRole
  | usersInvalidUsername | usersLastAdmin | usersMissing | usersNotSelf | usersPasswordReset
  | usersRoleChanged | usersTotpReset
  deriving DecidableEq, Repr

/-- A text as a page shows it. -/
inductive Text
  /-- `t(lang, key, params)`. -/
  | message (lang : Lang) (key : MessageKey) (params : List (String × String))
  /-- Text that is not in a dictionary. -/
  | plain (text : String)
  deriving DecidableEq, Repr

/-- `t(lang, key)`. -/
def t (lang : Lang) (key : MessageKey) : Text := .message lang key []

end Outletbox
