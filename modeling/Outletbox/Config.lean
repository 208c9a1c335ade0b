import Mathlib

/-!
# Configuration

The settings of `loadConfig` that the modelled code reads.  Durations are whole
milliseconds: a fraction of one is cut off when a `Date` is made of it.  The
two limits a visitor runs into are numbers, and `loadConfig` also takes
fractions there.
-/

namespace Outletbox

structure Config where
  /-- `PUBLIC_URL` without its trailing slashes. -/
  publicUrl : String
  /-- The origin of `PUBLIC_URL`. -/
  publicOrigin : String
  /-- The host name of `PUBLIC_URL`. -/
  publicHost : String
  /-- `brand.name`: the issuer of an authenticator entry. -/
  brandName : String
  maxFileBytes : Nat
  sessionTtlMs : Nat
  /-- How long a one-time code stays valid. -/
  accessCodeTtlMs : Nat
  /-- How long a recipient stays unlocked after entering a valid code. -/
  accessSessionTtlMs : Nat
  /-- Wrong codes for one challenge before it is destroyed. -/
  maxCodeAttempts : ℚ
  /-- Codes that may be requested for one recipient per hour. -/
  challengeLimitPerLinkPerHour : ℚ
  /-- When true, accounts without a second factor must enrol before using the panel. -/
  adminRequireTotp : Bool
  /-- How long a confirmation (or the login itself) covers sensitive actions. -/
  reauthWindowMs : Nat
  deviceBoundSessions : Bool
  cookieSecure : Bool

/-- What `loadConfig` returns for an empty environment. -/
def defaultConfig : Config where
  publicUrl := "http://localhost:3000"
  publicOrigin := "http://localhost:3000"
  publicHost := "localhost"
  brandName := "outletbox"
  maxFileBytes := 10 * 1024 ^ 3
  sessionTtlMs := 12 * 3600000
  accessCodeTtlMs := 15 * 60000
  accessSessionTtlMs := 60 * 60000
  maxCodeAttempts := 5
  challengeLimitPerLinkPerHour := 5
  adminRequireTotp := false
  reauthWindowMs := 10 * 60000
  deviceBoundSessions := true
  cookieSecure := false

end Outletbox
