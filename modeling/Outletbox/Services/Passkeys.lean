import Outletbox.Services.Auth
import Outletbox.Webauthn

/-!
# Passkeys

The functions of `services/passkeys.ts`.  The challenge of a ceremony lives on
the session row that asked for it, with its purpose and a deadline, and is used
once.
-/

namespace Outletbox

variable (P : Platform)

/-- `CEREMONY_TTL_MS`. -/
def ceremonyTtlMs : Int := 5 * 60000

/-- `MAX_PASSKEYS`. -/
def maxPasskeys : Nat := 10

structure Passkey where
  id : String
  name : String
  createdAt : Int
  lastUsedAt : Option Int
  deriving DecidableEq

def PasskeyRow.passkey (r : PasskeyRow) : Passkey := ⟨r.id, r.name, r.createdAt, r.lastUsedAt⟩

/-- `ORDER BY created_at`. -/
def passkeyOrder (a b : PasskeyRow) : Prop := isoLe a.createdAt b.createdAt

instance : DecidableRel passkeyOrder := fun _ _ => inferInstanceAs (Decidable (_ ≤ _))

def listPasskeys (adminId : String) (d : AccountDb) : List Passkey :=
  ((d.passkeys.filter fun p => p.adminId == adminId).insertionSort passkeyOrder).map (·.passkey)

/-- Starts a ceremony for this session: a fresh challenge, replacing any pending one. -/
def beginCeremony (now : Int) (challenge sessionId : String) (purpose : CeremonyPurpose)
    (d : AccountDb) : AccountDb :=
  updateSession (P.sha256Hex sessionId) (fun s => { s with
    webauthnChallenge := some challenge, webauthnPurpose := some purpose,
    webauthnExpiresAt := some (now + ceremonyTtlMs) }) d

/-- `UPDATE sessions SET webauthn_challenge = NULL, ..`. -/
def dropChallenge (idHash : String) (d : AccountDb) : AccountDb :=
  updateSession idHash (fun s => { s with
    webauthnChallenge := none, webauthnPurpose := none, webauthnExpiresAt := none }) d

/-- The challenge a session has pending for a purpose. -/
def pendingCeremony (now : Int) (idHash : String) (purpose : CeremonyPurpose) (d : AccountDb) :
    Except Failure String :=
  match d.sessions.find? (·.idHash == idHash) with
  | none => .error (.webAuthn "no pending challenge")
  | some row =>
      match row.webauthnChallenge, row.webauthnExpiresAt with
      | some challenge, some expiresAt =>
          if row.webauthnPurpose = some purpose ∧ isoLt now expiresAt then .ok challenge
          else .error (.webAuthn "no pending challenge")
      | _, _ => .error (.webAuthn "no pending challenge")

/-- Takes the pending challenge off the session (whatever the outcome, it is not reusable). -/
def takeChallenge (now : Int) (idHash : String) (purpose : CeremonyPurpose) (d : AccountDb) :
    Except Failure String × AccountDb :=
  (pendingCeremony now idHash purpose d, dropChallenge idHash d)

/-- Credential ids of the account. -/
def credentialIds (adminId : String) (d : AccountDb) : List String :=
  (d.passkeys.filter fun p => p.adminId == adminId).map (·.credentialId)

/-- What a ceremony is bound to besides its challenge. -/
structure RelyingParty where
  origin : String
  rpId : String

/-- What a caller of `registerPasskey` passes. -/
structure RegisterPasskeyInput where
  sessionId : String
  adminId : String
  name : String
  answer : RegistrationInput

/-- The row `registerPasskey` inserts. -/
def newPasskey (now : Int) (id : String) (input : RegisterPasskeyInput)
    (reg : VerifiedRegistration) : PasskeyRow where
  id := newId "pk" id
  adminId := input.adminId
  credentialId := reg.credentialId
  publicKey := reg.publicKey
  algorithm := reg.algorithm
  signCount := reg.signCount
  name := let name := slice 64 (trim input.name); if name == "" then "Passkey" else name
  createdAt := now
  lastUsedAt := none

/-- Saves a new passkey after checking the browser's answer to our challenge.  A
failure rolls the transaction back. -/
def registerPasskey (now : Int) (id : String) (input : RegisterPasskeyInput) (rp : RelyingParty)
    (d : AccountDb) : Except Failure (Passkey × AccountDb) := do
  let (challenge, d) := takeChallenge now (P.sha256Hex input.sessionId) .register d
  let reg ← verifyRegistration P input.answer ⟨← challenge, rp.origin, rp.rpId⟩
  if maxPasskeys ≤ passkeyCount input.adminId d then .error (.webAuthn "too many passkeys")
  else if d.passkeys.any (·.credentialId == reg.credentialId) then
    .error (.webAuthn "passkey already registered")
  else
    let row := newPasskey now id input reg
    if d.passkeys.any (·.id == row.id) || (adminById input.adminId d).isNone then
      .error .constraint
    else
      let d := { d with passkeys := d.passkeys ++ [row] }
      -- this session just proved the new factor
      .ok (row.passkey, updateSession (P.sha256Hex input.sessionId)
        (fun s => { s with totpVerified := true }) d)

/-- What a caller of `checkAssertion` passes. -/
structure AssertPasskeyInput where
  sessionId : String
  adminId : String
  credentialId : String
  answer : AssertionInput

/-- Checks an assertion made by one of the account's passkeys and records its
use.  The challenge is taken whatever the outcome. -/
def checkAssertion (now : Int) (purpose : CeremonyPurpose) (input : AssertPasskeyInput)
    (rp : RelyingParty) (d : AccountDb) : Except Failure Unit × AccountDb :=
  let (challenge, d) := takeChallenge now (P.sha256Hex input.sessionId) purpose d
  match challenge with
  | .error e => (.error e, d)
  | .ok challenge =>
      match d.passkeys.find? fun p =>
        p.credentialId == input.credentialId && p.adminId == input.adminId with
      | none => (.error (.webAuthn "unknown passkey"), d)
      | some cred =>
          match verifyAssertion P input.answer ⟨cred.publicKey, cred.algorithm, cred.signCount⟩
              ⟨challenge, rp.origin, rp.rpId⟩ with
          | .error e => (.error e, d)
          | .ok signCount => (.ok (), { d with
              passkeys :=
                Table.update (fun p => p.id == cred.id)
                  (fun p => { p with signCount := signCount, lastUsedAt := some now }) d.passkeys })

/-- Second step of the login with a passkey: replaces the pending session with a
full one.  A failed check still consumes the challenge. -/
def verifyPasskeyLogin (now : Int) (draw : SessionDraw) (input : AssertPasskeyInput)
    (rp : RelyingParty) (admin : Admin) (ttlMs : Nat) (d : AccountDb) :
    Except Failure Unit × AccountDb :=
  match checkAssertion P now .login input rp d with
  | (.error e, d) => (.error e, d)
  | (.ok (), d') =>
      match completeSecondFactor P now draw (P.sha256Hex input.sessionId) admin ttlMs .passkey d' with
      | .error e => (.error e, d)
      | .ok d => (.ok (), d)

/-- A passkey confirms a sensitive action for this (already complete) session. -/
def verifyPasskeyConfirm (now : Int) (input : AssertPasskeyInput) (rp : RelyingParty)
    (d : AccountDb) : Except Failure Unit × AccountDb :=
  checkAssertion P now .confirm input rp d

/-- Removes a passkey. Every other session of the account ends. -/
def removePasskey (adminId passkeyId keepSessionId : String) (d : AccountDb) :
    Option Passkey × AccountDb :=
  match d.passkeys.find? fun p => p.id == passkeyId && p.adminId == adminId with
  | none => (none, d)
  | some pk =>
      let d := { d with passkeys := Table.delete (fun p => p.id == pk.id) d.passkeys }
      (some pk.passkey, destroyOtherSessions P adminId keepSessionId
        (dropRecoveryCodesIfUnused adminId d))

/-! ## What the ceremonies do -/

/-- A session waits for the answer to a challenge. -/
structure Awaits (now : Int) (idHash : String) (purpose : CeremonyPurpose) (challenge : String)
    (d : AccountDb) : Prop where
  pending : ∃ s ∈ d.sessions, s.idHash = idHash ∧ s.webauthnChallenge = some challenge ∧
    s.webauthnPurpose = some purpose ∧ ∃ t, s.webauthnExpiresAt = some t ∧ isoLt now t

/-- The assertion of a passkey of the account, checked against a challenge. -/
structure Asserted (input : AssertPasskeyInput) (rp : RelyingParty) (challenge : String)
    (cred : PasskeyRow) (signCount : Nat) (d : AccountDb) : Prop where
  mem : cred ∈ d.passkeys
  credential : cred.credentialId = input.credentialId
  owner : cred.adminId = input.adminId
  verified : verifyAssertion P input.answer ⟨cred.publicKey, cred.algorithm, cred.signCount⟩
    ⟨challenge, rp.origin, rp.rpId⟩ = .ok signCount

/-- The use of a passkey is recorded. -/
def recordUse (now : Int) (id : String) (signCount : Nat) (d : AccountDb) : AccountDb :=
  { d with
    passkeys :=
      Table.update (fun p => p.id == id)
        (fun p => { p with signCount := signCount, lastUsedAt := some now }) d.passkeys }

section

variable {P} {now : Int} {idHash : String} {purpose : CeremonyPurpose} {d d' : AccountDb}
  {input : AssertPasskeyInput} {rp : RelyingParty}

theorem pendingCeremony_ok {challenge : String}
    (h : pendingCeremony now idHash purpose d = .ok challenge) :
    Awaits now idHash purpose challenge d := by
  unfold pendingCeremony at h
  split at h
  · cases h
  rename_i row hrow
  split at h
  · rename_i challenge' expiresAt hchallenge hexpires
    split at h
    · rename_i hguard
      cases h
      have hid : row.idHash = idHash := by simpa using List.find?_some hrow
      exact ⟨row, List.mem_of_find?_eq_some hrow, hid, hchallenge, hguard.1, expiresAt, hexpires,
        hguard.2⟩
    · cases h
  · cases h

/-- An assertion is refused, or one of the account's passkeys answered the pending
challenge.  Either way the challenge is gone. -/
theorem checkAssertion_cases (now : Int) (purpose : CeremonyPurpose) (input : AssertPasskeyInput)
    (rp : RelyingParty) (d : AccountDb) :
    (∃ e, checkAssertion P now purpose input rp d =
        (.error e, dropChallenge (P.sha256Hex input.sessionId) d)) ∨
      ∃ challenge cred signCount,
        Awaits now (P.sha256Hex input.sessionId) purpose challenge d ∧
          Asserted P input rp challenge cred signCount d ∧
          checkAssertion P now purpose input rp d =
            (.ok (), recordUse now cred.id signCount
              (dropChallenge (P.sha256Hex input.sessionId) d)) := by
  unfold checkAssertion takeChallenge
  cases hpending : pendingCeremony now (P.sha256Hex input.sessionId) purpose d with
  | error e => exact .inl ⟨e, rfl⟩
  | ok challenge =>
      simp only []
      split
      · exact .inl ⟨_, rfl⟩
      rename_i cred hcred
      have hfound := List.find?_some hcred
      simp only [Bool.and_eq_true, beq_iff_eq] at hfound
      have hmem : cred ∈ d.passkeys := List.mem_of_find?_eq_some hcred
      cases hverify : verifyAssertion P input.answer
          ⟨cred.publicKey, cred.algorithm, cred.signCount⟩ ⟨challenge, rp.origin, rp.rpId⟩ with
      | error e => exact .inl ⟨e, rfl⟩
      | ok signCount =>
          exact .inr ⟨challenge, cred, signCount, pendingCeremony_ok hpending,
            ⟨hmem, hfound.1, hfound.2, hverify⟩, rfl⟩

/-- A login with a passkey is refused with its challenge used up, fails as a whole, or
replaces the pending session. -/
theorem verifyPasskeyLogin_cases (now : Int) (draw : SessionDraw) (input : AssertPasskeyInput)
    (rp : RelyingParty) (account : Admin) (ttlMs : Nat) (d : AccountDb) :
    (∃ e, verifyPasskeyLogin P now draw input rp account ttlMs d =
        (.error e, dropChallenge (P.sha256Hex input.sessionId) d)) ∨
      (∃ e, verifyPasskeyLogin P now draw input rp account ttlMs d = (.error e, d)) ∨
      ∃ challenge cred signCount d',
        Awaits now (P.sha256Hex input.sessionId) .login challenge d ∧
          Asserted P input rp challenge cred signCount d ∧
          completeSecondFactor P now draw (P.sha256Hex input.sessionId) account ttlMs .passkey
            (recordUse now cred.id signCount
              (dropChallenge (P.sha256Hex input.sessionId) d)) = .ok d' ∧
          verifyPasskeyLogin P now draw input rp account ttlMs d = (.ok (), d') := by
  unfold verifyPasskeyLogin
  rcases checkAssertion_cases (P := P) now .login input rp d with
      ⟨e, h⟩ | ⟨ch, cred, count, ha, hc, h⟩
  · simp only [h]
    exact .inl ⟨e, rfl⟩
  · simp only [h]
    cases hdone : completeSecondFactor P now draw (P.sha256Hex input.sessionId) account ttlMs
        .passkey (recordUse now cred.id count
          (dropChallenge (P.sha256Hex input.sessionId) d)) with
    | error e => exact .inr (.inl ⟨e, rfl⟩)
    | ok d' => exact .inr (.inr ⟨ch, cred, count, d', ha, hc, hdone, rfl⟩)

/-- A registered passkey answered the pending challenge of its session. -/
theorem registerPasskey_ok {id : String} {input : RegisterPasskeyInput} {passkey : Passkey}
    (h : registerPasskey P now id input rp d = .ok (passkey, d')) :
    ∃ challenge reg, Awaits now (P.sha256Hex input.sessionId) .register challenge d ∧
      verifyRegistration P input.answer ⟨challenge, rp.origin, rp.rpId⟩ = .ok reg ∧
      (∀ p ∈ d.passkeys, p.id ≠ newId "pk" id ∧ p.credentialId ≠ reg.credentialId) ∧
      (∃ admin, adminById input.adminId d = some admin) ∧
      d' = updateSession (P.sha256Hex input.sessionId) (fun s => { s with totpVerified := true })
        { dropChallenge (P.sha256Hex input.sessionId) d with
          passkeys := d.passkeys ++ [newPasskey now id input reg] } := by
  unfold registerPasskey takeChallenge at h
  simp only [] at h
  obtain ⟨challenge, hpending, h⟩ := Fallible.bind_eq_ok.1 h
  obtain ⟨reg, hreg, h⟩ := Fallible.bind_eq_ok.1 h
  split at h
  · cases h
  split at h
  · cases h
  rename_i hcredential
  split at h
  · cases h
  rename_i hfree
  cases h
  simp only [List.any_eq_true, beq_iff_eq, not_exists, not_and] at hcredential
  simp only [Bool.or_eq_true, List.any_eq_true, beq_iff_eq, not_or, not_exists, not_and,
    Option.isNone_iff_eq_none] at hfree
  exact ⟨challenge, reg, pendingCeremony_ok hpending, hreg,
    fun p hp => ⟨hfree.1 p hp, hcredential p hp⟩, Option.ne_none_iff_exists'.1 hfree.2, rfl⟩

/-- A passkey that is not the account's stays; one that is goes, with every other session. -/
theorem removePasskey_cases (adminId passkeyId keepSessionId : String) (d : AccountDb) :
    removePasskey P adminId passkeyId keepSessionId d = (none, d) ∨
      ∃ pk ∈ d.passkeys, pk.id = passkeyId ∧ pk.adminId = adminId ∧
        removePasskey P adminId passkeyId keepSessionId d =
          (some pk.passkey, destroyOtherSessions P adminId keepSessionId
            (dropRecoveryCodesIfUnused adminId
              { d with passkeys := Table.delete (fun p => p.id == passkeyId) d.passkeys })) := by
  unfold removePasskey
  cases hpk : d.passkeys.find? fun p => p.id == passkeyId && p.adminId == adminId with
  | none => exact .inl rfl
  | some pk =>
      have hfound := List.find?_some hpk
      simp only [Bool.and_eq_true, beq_iff_eq] at hfound
      obtain ⟨rfl, rfl⟩ := hfound
      exact .inr ⟨pk, List.mem_of_find?_eq_some hpk, rfl, rfl, rfl⟩

end

end Outletbox
