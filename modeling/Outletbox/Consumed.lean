import Outletbox.Ceremonies

/-!
# Whether an attempt uses its challenge up

What the session that attempts a ceremony has pending once the attempt has
returned or thrown, over every state of the accounts.  The two assertions take
the challenge and keep it taken when a check fails.  A registration runs its
checks inside the transaction that takes the challenge, so a check that fails
puts the challenge back.
-/

namespace Outletbox

namespace Consumed

variable (P : Platform)

/-! ## Attempts -/

inductive Attempt
  | registerPasskey (id : String) (input : RegisterPasskeyInput) (rp : RelyingParty)
  | verifyPasskeyLogin (draw : SessionDraw) (input : AssertPasskeyInput) (rp : RelyingParty)
      (admin : Admin) (ttlMs : Nat)
  | verifyPasskeyConfirm (input : AssertPasskeyInput) (rp : RelyingParty)

/-- The session that attempts it. -/
def Attempt.idHash : Attempt → String
  | .registerPasskey _ input _ => P.sha256Hex input.sessionId
  | .verifyPasskeyLogin _ input _ _ _ => P.sha256Hex input.sessionId
  | .verifyPasskeyConfirm input _ => P.sha256Hex input.sessionId

/-- What is committed when the attempt has returned or thrown. -/
def Attempt.after (now : Int) (d : AccountDb) : Attempt → AccountDb
  | .registerPasskey id input rp =>
      match Outletbox.registerPasskey P now id input rp d with
      | .ok (_, d) => d
      | .error _ => d
  | .verifyPasskeyLogin draw input rp admin ttlMs =>
      (Outletbox.verifyPasskeyLogin P now draw input rp admin ttlMs d).2
  | .verifyPasskeyConfirm input rp => (Outletbox.verifyPasskeyConfirm P now input rp d).2

/-- The columns of the ceremony are null, or the session is gone. -/
def NoPending (idHash : String) (d : AccountDb) : Prop :=
  ∀ s ∈ d.sessions, s.idHash = idHash →
    s.webauthnChallenge = none ∧ s.webauthnPurpose = none ∧ s.webauthnExpiresAt = none

/-! ## When an attempt is rolled back -/

/-- Every check of a registration passes. -/
structure Registrable (now : Int) (id : String) (input : RegisterPasskeyInput) (rp : RelyingParty)
    (d : AccountDb) : Prop where
  verified : ∃ challenge reg,
    pendingCeremony now (P.sha256Hex input.sessionId) .register d = .ok challenge ∧
      verifyRegistration P input.answer ⟨challenge, rp.origin, rp.rpId⟩ = .ok reg ∧
      ∀ p ∈ d.passkeys, p.credentialId ≠ reg.credentialId
  room : passkeyCount input.adminId d < maxPasskeys
  fresh : ∀ p ∈ d.passkeys, p.id ≠ newId "pk" id
  account : adminById input.adminId d ≠ none

/-- The assertion is one of a passkey of the account for the pending challenge. -/
def Assertable (now : Int) (input : AssertPasskeyInput) (rp : RelyingParty) (d : AccountDb) : Prop :=
  ∃ challenge cred signCount,
    pendingCeremony now (P.sha256Hex input.sessionId) .login d = .ok challenge ∧
      (d.passkeys.find? fun p =>
        p.credentialId == input.credentialId && p.adminId == input.adminId) = some cred ∧
      verifyAssertion P input.answer ⟨cred.publicKey, cred.algorithm, cred.signCount⟩
        ⟨challenge, rp.origin, rp.rpId⟩ = .ok signCount

/-- The new session violates a constraint: one of its identifiers is taken, or its account is
gone. -/
def Blocked (draw : SessionDraw) (idHash : String) (account : Admin) (d : AccountDb) : Prop :=
  (∃ s ∈ d.sessions, s.idHash ≠ idHash ∧
    (s.idHash = P.sha256Hex draw.sessionId ∨ s.publicId = newId "s" draw.publicId)) ∨
    adminById account.id d = none

/-- The transaction of the attempt is rolled back. -/
def RolledBack (now : Int) (d : AccountDb) : Attempt → Prop
  | .registerPasskey id input rp => ¬ Registrable P now id input rp d
  | .verifyPasskeyLogin draw input rp admin _ =>
      Assertable P now input rp d ∧ Blocked P draw (P.sha256Hex input.sessionId) admin d
  | .verifyPasskeyConfirm _ _ => False

section

variable {P} {now : Int} {idHash : String} {d d' : AccountDb}

theorem noPending_dropChallenge (idHash : String) (d : AccountDb) :
    NoPending idHash (dropChallenge idHash d) := by
  intro s hs hid
  obtain ⟨s₀, -, rfl⟩ := Table.mem_update.1 hs
  split
  · exact ⟨rfl, rfl, rfl⟩
  · rename_i hp
    rw [if_neg hp] at hid
    exact absurd (beq_iff_eq.2 hid) hp

/-- A registration goes through exactly when all its checks pass. -/
theorem registerPasskey_iff {id : String} {input : RegisterPasskeyInput} {rp : RelyingParty} :
    (∃ r, registerPasskey P now id input rp d = .ok r) ↔ Registrable P now id input rp d := by
  constructor
  · rintro ⟨r, h⟩
    unfold registerPasskey takeChallenge at h
    simp only [] at h
    obtain ⟨challenge, hpending, h⟩ := Fallible.bind_eq_ok.1 h
    obtain ⟨reg, hreg, h⟩ := Fallible.bind_eq_ok.1 h
    obtain ⟨hroom, h⟩ := Fallible.guard_eq_ok.1 h
    obtain ⟨hcredential, h⟩ := Fallible.guard_eq_ok.1 h
    obtain ⟨hfree, -⟩ := Fallible.guard_eq_ok.1 h
    simp only [List.any_eq_true, beq_iff_eq, not_exists, not_and] at hcredential
    simp only [Bool.or_eq_true, List.any_eq_true, beq_iff_eq, not_or, not_exists, not_and,
      Option.isNone_iff_eq_none] at hfree
    exact ⟨⟨challenge, reg, hpending, hreg, hcredential⟩, not_le.1 hroom, hfree.1, hfree.2⟩
  · rintro ⟨⟨challenge, reg, hpending, hreg, hcredential⟩, hroom, hfresh, haccount⟩
    refine ⟨((newPasskey now id input reg).passkey,
      updateSession (P.sha256Hex input.sessionId) (fun s => { s with totpVerified := true })
        { dropChallenge (P.sha256Hex input.sessionId) d with
          passkeys := d.passkeys ++ [newPasskey now id input reg] }), ?_⟩
    unfold registerPasskey takeChallenge
    simp only []
    refine Fallible.bind_eq_ok.2 ⟨challenge, hpending, ?_⟩
    refine Fallible.bind_eq_ok.2 ⟨reg, hreg, ?_⟩
    refine Fallible.guard_eq_ok.2 ⟨not_le.2 hroom, Fallible.guard_eq_ok.2 ⟨?_,
      Fallible.guard_eq_ok.2 ⟨?_, rfl⟩⟩⟩
    · simp only [List.any_eq_true, beq_iff_eq, not_exists, not_and]
      exact hcredential
    · simp only [Bool.or_eq_true, List.any_eq_true, beq_iff_eq, not_or, not_exists, not_and,
        Option.isNone_iff_eq_none]
      exact ⟨hfresh, haccount⟩

/-- A registration that goes through has taken its challenge. -/
theorem noPending_registered {id : String} {input : RegisterPasskeyInput} {rp : RelyingParty}
    {passkey : Passkey} (h : registerPasskey P now id input rp d = .ok (passkey, d')) :
    NoPending (P.sha256Hex input.sessionId) d' := by
  obtain ⟨_, _, -, -, -, -, rfl⟩ := registerPasskey_ok h
  intro s hs hid
  obtain ⟨s₀, hs₀, rfl⟩ := Table.mem_update.1 hs
  have hdropped := noPending_dropChallenge (P.sha256Hex input.sessionId) d s₀ hs₀
  split
  · rename_i hp
    exact hdropped (beq_iff_eq.1 hp)
  · rename_i hp
    rw [if_neg hp] at hid
    exact hdropped hid

/-! ## The assertions -/

theorem checkAssertion_ok {input : AssertPasskeyInput} {rp : RelyingParty}
    {purpose : CeremonyPurpose} {challenge : String} {cred : PasskeyRow} {signCount : Nat}
    (hpending : pendingCeremony now (P.sha256Hex input.sessionId) purpose d = .ok challenge)
    (hcred : (d.passkeys.find? fun p =>
      p.credentialId == input.credentialId && p.adminId == input.adminId) = some cred)
    (hverify : verifyAssertion P input.answer ⟨cred.publicKey, cred.algorithm, cred.signCount⟩
      ⟨challenge, rp.origin, rp.rpId⟩ = .ok signCount) :
    checkAssertion P now purpose input rp d =
      (.ok (), recordUse now cred.id signCount
        (dropChallenge (P.sha256Hex input.sessionId) d)) := by
  unfold checkAssertion takeChallenge
  have hrows : (dropChallenge (P.sha256Hex input.sessionId) d).passkeys = d.passkeys := rfl
  simp only [hpending, hrows, hcred, hverify]
  rfl

/-- An assertion is accepted exactly when it is assertable; otherwise only the challenge goes. -/
theorem checkAssertion_login (now : Int) (input : AssertPasskeyInput) (rp : RelyingParty)
    (d : AccountDb) :
    (¬ Assertable P now input rp d ∧ ∃ e, checkAssertion P now .login input rp d =
        (.error e, dropChallenge (P.sha256Hex input.sessionId) d)) ∨
      (Assertable P now input rp d ∧ ∃ id count, checkAssertion P now .login input rp d =
        (.ok (), recordUse now id count (dropChallenge (P.sha256Hex input.sessionId) d))) := by
  by_cases ha : Assertable P now input rp d
  · obtain ⟨challenge, cred, count, hpending, hcred, hverify⟩ := ha
    exact .inr ⟨⟨challenge, cred, count, hpending, hcred, hverify⟩, cred.id, count,
      checkAssertion_ok hpending hcred hverify⟩
  · refine .inl ⟨ha, ?_⟩
    unfold checkAssertion takeChallenge
    have hrows : (dropChallenge (P.sha256Hex input.sessionId) d).passkeys = d.passkeys := rfl
    simp only [hrows]
    cases hpending : pendingCeremony now (P.sha256Hex input.sessionId) .login d with
    | error e => exact ⟨e, rfl⟩
    | ok challenge =>
        cases hcred : d.passkeys.find? fun p =>
            p.credentialId == input.credentialId && p.adminId == input.adminId with
        | none => exact ⟨_, rfl⟩
        | some cred =>
            cases hverify : verifyAssertion P input.answer
                ⟨cred.publicKey, cred.algorithm, cred.signCount⟩
                ⟨challenge, rp.origin, rp.rpId⟩ with
            | error e => exact ⟨e, by simp only [hverify]⟩
            | ok count => exact absurd ⟨challenge, cred, count, hpending, hcred, hverify⟩ ha

/-- The pending session is replaced unless a constraint blocks the new one. -/
theorem completeSecondFactor_blocked {draw : SessionDraw} {account : Admin} {ttlMs : Nat}
    {factor : SecondFactor} :
    (∃ e, completeSecondFactor P now draw idHash account ttlMs factor d = .error e) ↔
      Blocked P draw idHash account d := by
  have hrow := @adminById_updateAdmin account.id d
    (fun a => { a with totpFailedCount := 0, totpLockedUntil := none }) (fun _ => rfl) account.id
  have hconflict : ∀ info, (∃ e, createSession P now draw account ttlMs info
      (deletePanelSessions (fun s => s.idHash == idHash) (forgetFailures account.id d)) =
        .error e) ↔ Blocked P draw idHash account d := by
    intro info
    unfold createSession insertSession
    have hany : (Table.delete (fun s : SessionRow => s.idHash == idHash) d.sessions).any
        (fun s => s.idHash == P.sha256Hex draw.sessionId || s.publicId == newId "s" draw.publicId) =
          true ↔ ∃ s ∈ d.sessions, s.idHash ≠ idHash ∧
            (s.idHash = P.sha256Hex draw.sessionId ∨ s.publicId = newId "s" draw.publicId) := by
      simp only [List.any_eq_true, Table.mem_delete, Bool.or_eq_true, beq_iff_eq,
        beq_eq_false_iff_ne, and_assoc]
    have hnone : (adminById account.id (forgetFailures account.id d)).isNone = true ↔
        adminById account.id d = none := by
      rw [Option.isNone_iff_eq_none]
      unfold forgetFailures
      rw [hrow, Option.map_eq_none_iff]
    split
    · rename_i hguard
      refine iff_of_true ⟨_, rfl⟩ ?_
      rw [Bool.or_eq_true] at hguard
      exact hguard.imp hany.1 hnone.1
    · rename_i hguard
      refine iff_of_false ?_ fun hblocked => hguard ?_
      · rintro ⟨e, he⟩
        cases he
      · rw [Bool.or_eq_true]
        exact hblocked.imp hany.2 hnone.2
  rw [← hconflict (metaOf idHash d)]
  unfold completeSecondFactor
  constructor
  · rintro ⟨e, he⟩
    cases hc : createSession P now draw account ttlMs (metaOf idHash d)
        (deletePanelSessions (fun s => s.idHash == idHash) (forgetFailures account.id d)) with
    | error e' => exact ⟨e', rfl⟩
    | ok d' =>
        have hc' : createSession P now draw account ttlMs
          ⟨(d.sessions.find? (·.idHash == idHash)).bind (·.ip),
            (d.sessions.find? (·.idHash == idHash)).bind (·.userAgent)⟩
          (deletePanelSessions (fun s => s.idHash == idHash) (updateAdmin account.id
            (fun a => { a with totpFailedCount := 0, totpLockedUntil := none }) d)) = .ok d' := hc
        simp only [hc'] at he
        cases he
  · rintro ⟨e, he⟩
    have he' : createSession P now draw account ttlMs
      ⟨(d.sessions.find? (·.idHash == idHash)).bind (·.ip),
        (d.sessions.find? (·.idHash == idHash)).bind (·.userAgent)⟩
      (deletePanelSessions (fun s => s.idHash == idHash) (updateAdmin account.id
        (fun a => { a with totpFailedCount := 0, totpLockedUntil := none }) d)) = .error e := he
    exact ⟨e, by simp only [he']; rfl⟩

/-- The session that replaces a pending one has nothing pending. -/
theorem noPending_completed {draw : SessionDraw} {account : Admin} {ttlMs : Nat}
    {factor : SecondFactor}
    (h : completeSecondFactor P now draw idHash account ttlMs factor d = .ok d') :
    NoPending idHash d' := by
  obtain ⟨rfl, -⟩ := completeSecondFactor_ok h
  intro s hs hid
  rcases List.mem_append.1 hs with hs | hs
  · have hne := (Table.mem_delete.1 hs).2
    exact absurd hid (beq_eq_false_iff_ne.1 hne)
  · rw [List.mem_singleton.1 hs]
    exact ⟨rfl, rfl, rfl⟩

theorem blocked_recordUse {draw : SessionDraw} {account : Admin} {id : String} {count : Nat} :
    Blocked P draw idHash account (recordUse now id count (dropChallenge idHash d)) ↔
      Blocked P draw idHash account d := by
  unfold Blocked
  refine or_congr ⟨?_, ?_⟩ Iff.rfl
  · rintro ⟨s, hs, hne, htaken⟩
    obtain ⟨s₀, hs₀, rfl⟩ := Table.mem_update.1 hs
    split at hne
    · rename_i hp
      exact absurd (beq_iff_eq.1 hp) hne
    · rename_i hp
      rw [if_neg hp] at htaken
      exact ⟨s₀, hs₀, hne, htaken⟩
  · rintro ⟨s, hs, hne, htaken⟩
    exact ⟨s, Table.mem_update_of_not hs (beq_eq_false_iff_ne.2 hne), hne, htaken⟩

end

/-- After an attempt the session has nothing pending, exactly when the attempt was not rolled back
or there was nothing pending before. -/
theorem attempt_consumes (now : Int) (d : AccountDb) (a : Attempt) :
    NoPending (a.idHash P) (a.after P now d) ↔
      NoPending (a.idHash P) d ∨ ¬ RolledBack P now d a := by
  cases a with
  | registerPasskey id input rp =>
      have hiff : (∃ r, registerPasskey P now id input rp d = .ok r) ↔
          Registrable P now id input rp d := registerPasskey_iff
      show NoPending (P.sha256Hex input.sessionId) _ ↔ NoPending (P.sha256Hex input.sessionId) d ∨
        ¬ ¬ Registrable P now id input rp d
      rw [not_not, ← hiff]
      cases h : registerPasskey P now id input rp d with
      | ok r =>
          have hafter : (Attempt.registerPasskey id input rp).after P now d = r.2 := by
            simp only [Attempt.after, h]
          rw [hafter]
          exact iff_of_true (noPending_registered h) (.inr ⟨r, rfl⟩)
      | error e =>
          have hafter : (Attempt.registerPasskey id input rp).after P now d = d := by
            simp only [Attempt.after, h]
          rw [hafter]
          refine ⟨.inl, fun hor => hor.resolve_right ?_⟩
          rintro ⟨r, hr⟩
          cases hr
  | verifyPasskeyConfirm input rp =>
      refine iff_of_true ?_ (.inr id)
      show NoPending (P.sha256Hex input.sessionId) (checkAssertion P now .confirm input rp d).2
      rcases checkAssertion_cases (P := P) now .confirm input rp d with ⟨e, h⟩ | ⟨_, _, _, -, -, h⟩
      · rw [h]
        exact noPending_dropChallenge _ _
      · rw [h]
        exact noPending_dropChallenge _ _
  | verifyPasskeyLogin draw input rp account ttlMs =>
      show NoPending (P.sha256Hex input.sessionId)
        (verifyPasskeyLogin P now draw input rp account ttlMs d).2 ↔
          NoPending (P.sha256Hex input.sessionId) d ∨
            ¬ (Assertable P now input rp d ∧ Blocked P draw (P.sha256Hex input.sessionId) account d)
      unfold verifyPasskeyLogin
      rcases checkAssertion_login (P := P) now input rp d with ⟨hno, e, h⟩ | ⟨ha, id, count, h⟩
      · rw [h]
        exact iff_of_true (noPending_dropChallenge _ _) (.inr fun hr => hno hr.1)
      · rw [h]
        have hblocked : (∃ e, completeSecondFactor P now draw (P.sha256Hex input.sessionId) account
            ttlMs .passkey (recordUse now id count
              (dropChallenge (P.sha256Hex input.sessionId) d)) = .error e) ↔
            Blocked P draw (P.sha256Hex input.sessionId) account
              (recordUse now id count (dropChallenge (P.sha256Hex input.sessionId) d)) :=
          completeSecondFactor_blocked
        rw [blocked_recordUse] at hblocked
        rw [← hblocked]
        simp only []
        cases hdone : completeSecondFactor P now draw (P.sha256Hex input.sessionId) account ttlMs
            .passkey (recordUse now id count
              (dropChallenge (P.sha256Hex input.sessionId) d)) with
        | ok d' =>
            refine iff_of_true (noPending_completed hdone) (.inr ?_)
            rintro ⟨-, e, he⟩
            cases he
        | error e => exact ⟨.inl, fun hor => hor.resolve_right fun hno => hno ⟨ha, e, rfl⟩⟩

/-! ## A registration that failed -/

/-- A session that waits for the answer to a registration. -/
def waiting : AccountDb :=
  (History.replay (Factors.step Ceremonies.sampleHost) [] .empty
    ((Ceremonies.passkeyCalls 4).take 3)).2

/-- The answer of the authenticator to something else. -/
def wrongAnswer : RegisterPasskeyInput :=
  { Ceremonies.sampleRegistration with
    answer := { Ceremonies.sampleRegistration.answer with algorithm := some 0 } }

instance (idHash : String) (d : AccountDb) : Decidable (NoPending idHash d) :=
  inferInstanceAs (Decidable (∀ s ∈ d.sessions, _ → _))

/-- A registration whose answer is refused leaves its challenge pending, and a second attempt with
the same challenge goes through. -/
theorem challenge_survives_registration :
    let a : Attempt := .registerPasskey "1" wrongAnswer Ceremonies.sampleParty
    let d := a.after Ceremonies.sampleHost 3 waiting
    ¬ NoPending (a.idHash Ceremonies.sampleHost) d ∧
      (registerPasskey Ceremonies.sampleHost 4 "1" Ceremonies.sampleRegistration
        Ceremonies.sampleParty d).toBool = true := by
  refine ⟨by decide +kernel, by decide +kernel⟩

end Consumed

end Outletbox
