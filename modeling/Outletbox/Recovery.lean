import Outletbox.Replay

/-!
# Recovery codes

A set of codes is issued when the authenticator app is enrolled or on request,
a code of the latest set stands in for a second factor once, and without any
second factor left there are no codes.  The operations change the stored codes
in three ways: a set replaces the codes of an account, one code is marked as
used, or rows of accounts without a second factor go.
-/

namespace Outletbox

namespace Recovery

open Factors Replay

variable (P : Platform)

/-! ## Issue and use -/

/-- The codes a call draws. -/
def drawnCodes (c : Call) : Option (List String) :=
  match c.op with
  | .confirmTotpEnrolment codes _ _ => some codes
  | .regenerateRecoveryCodes codes _ _ => some codes
  | .regenerateRecoveryCodesConfirmed codes _ => some codes
  | _ => none

/-- The account a call asks new codes for. -/
def issuee (c : Call) : Option String :=
  match c.op with
  | .confirmTotpEnrolment _ adminId _ => some adminId
  | .regenerateRecoveryCodes _ adminId _ => some adminId
  | .regenerateRecoveryCodesConfirmed _ adminId => some adminId
  | _ => none

/-- The codes of a set come from `generateRecoveryCodes`. -/
def env (_ : List Event) (_ : AccountDb) (c : Call) : Prop :=
  ∀ codes ∈ drawnCodes c,
    ∃ draws : List Bytes, draws.length = 8 ∧ (∀ random ∈ draws, random.length = 7) ∧
      codes = generateRecoveryCodes P draws

/-- A set of codes was issued to the account. -/
structure Issues (adminId : String) (codes : List String) (e : Event) : Prop where
  account : issuee e.input = some adminId
  shown : e.output = .codes (some codes)

def IssuesTo (adminId : String) (e : Event) : Prop := ∃ codes, Issues adminId codes e

/-- The code was issued to the account, in some spelling. -/
def HandsOut (adminId code : String) (e : Event) : Prop :=
  ∃ codes, Issues adminId codes e ∧
    ∃ c ∈ codes, normalizeRecoveryCode P c = normalizeRecoveryCode P code

/-- The code was accepted in some spelling, and not as one of the authenticator app. -/
def Spends (adminId code : String) (e : Event) : Prop :=
  ∃ typed, normalizeRecoveryCode P typed = normalizeRecoveryCode P code ∧
    presents P e.pre e.input = some (adminId, typed) ∧ isAccepted e.output = true ∧
      ∀ admin, adminById adminId e.pre = some admin → stepOf P e.input admin typed = none

/-- The account has a second factor. -/
def HasFactor (adminId : String) (d : AccountDb) : Prop :=
  ∃ admin, adminById adminId d = some admin ∧ (toAdmin d admin).hasSecondFactor = true

/-- The calls that try a code as a recovery code. -/
def tries (adminId typed : String) (d : AccountDb) (op : Op) : Prop :=
  op = .verifyConfirmCode adminId typed ∨
    (∃ keep, op = .disableTotp adminId typed keep ∧
      ∃ admin, adminById adminId d = some admin ∧ admin.totpEnabledAt.isSome = true) ∨
    ∃ draw sessionId ttlMs, op = .verifySessionTotp draw sessionId typed ttlMs ∧
      (∃ s, d.sessions.find? (·.idHash == P.sha256Hex sessionId) = some s ∧
        s.adminId = adminId) ∧
      ∀ s ∈ d.sessions, s.idHash ≠ P.sha256Hex draw.sessionId ∧
        s.publicId ≠ newId "s" draw.publicId

/-- The life of the recovery codes: between two uses of a code it was handed out again; a
code that is used belongs to the latest set of its account; a code that was handed out and
neither used nor replaced since, to an account that had a second factor all the time, is
accepted in every spelling, as long as the account is not locked; and an account without a
second factor has no codes. -/
structure Lifecycle (h : List Event) (d : AccountDb) : Prop where
  once : ∀ later e between e' earlier, h = later ++ e :: (between ++ e' :: earlier) →
    ∀ adminId code, Spends P adminId code e → Spends P adminId code e' →
      ∃ x ∈ between, HandsOut P adminId code x
  latest : ∀ later e earlier, h = later ++ e :: earlier →
    ∀ adminId code, Spends P adminId code e →
      History.Since (HandsOut P adminId code) (fun x => ¬ IssuesTo adminId x) earlier
  usable : ∀ adminId code typed, Spells P code.toList typed.toList →
    History.Since (HandsOut P adminId code)
      (fun x => ¬ IssuesTo adminId x ∧ ¬ Spends P adminId code x ∧ HasFactor adminId x.post) h →
    ∀ c : Call, tries P adminId typed d c.op →
      (∀ admin, adminById adminId d = some admin → isTotpLocked admin c.now = false) →
      isAccepted (step P d c).2 = true
  none : ∀ admin ∈ d.admins, (toAdmin d admin).hasSecondFactor = false →
    ∀ c ∈ d.recoveryCodes, c.adminId ≠ admin.id

/-! ## What a step does to the stored codes -/

/-- Some rows are left, and of the accounts that still have a second factor all. -/
structure Thinned (codes : List RecoveryCode) (d' : AccountDb) : Prop where
  sub : ∀ c ∈ d'.recoveryCodes, c ∈ codes
  keep : ∀ c ∈ codes, HasFactor c.adminId d' → c ∈ d'.recoveryCodes

inductive CodesMove (d : AccountDb) (c : Call) : Prop
  | kept : (∀ adminId, ¬ IssuesTo adminId (History.fire (step P) d c)) →
      (∀ adminId code, ¬ Spends P adminId code (History.fire (step P) d c)) →
      Thinned d.recoveryCodes (step P d c).1 → CodesMove d c
  | spent (adminId typed : String) :
      (∀ adminId, ¬ IssuesTo adminId (History.fire (step P) d c)) →
      presents P d c = some (adminId, typed) →
      Spends P adminId typed (History.fire (step P) d c) →
      hasUnusedCode P adminId typed d →
      Thinned (useCode P c.now adminId typed d).recoveryCodes (step P d c).1 → CodesMove d c
  | issued (adminId : String) (codes : List String) :
      Issues adminId codes (History.fire (step P) d c) → drawnCodes c = some codes →
      (∀ adminId code, ¬ Spends P adminId code (History.fire (step P) d c)) →
      HasFactor adminId (step P d c).1 →
      (step P d c).1.recoveryCodes = (replaceRecoveryCodes P adminId codes d).recoveryCodes →
      CodesMove d c

/-! ## The invariant -/

/-- Codes are stored only for accounts with a second factor, and an enabled app has its
secret. -/
structure Inv (d : AccountDb) : Prop where
  adminIds : (d.admins.map (·.id)).Nodup
  passkeyIds : (d.passkeys.map (·.id)).Nodup
  app : ∀ a ∈ d.admins, a.totpEnabledAt.isSome = true → a.totpSecret.isSome = true
  holders : ∀ c ∈ d.recoveryCodes, HasFactor c.adminId d

section

variable {P} {adminId id code typed : String} {d d' : AccountDb} {c : Call} {admin : AdminRow}
  {now n : Int}

/-! ## Who has a second factor -/

theorem toAdmin_congr (h : d'.passkeys = d.passkeys) (admin : AdminRow) :
    toAdmin d' admin = toAdmin d admin := by
  simp only [toAdmin, passkeyCount, h]

theorem hasFactor_congr (hadmins : d'.admins = d.admins) (hpasskeys : d'.passkeys = d.passkeys) :
    HasFactor adminId d' ↔ HasFactor adminId d := by
  simp only [HasFactor, adminById_of_admins hadmins, toAdmin_congr hpasskeys]

theorem thinned_of_eq (h : d'.recoveryCodes = d.recoveryCodes) : Thinned d.recoveryCodes d' :=
  ⟨fun _ hc => h ▸ hc, fun _ hc _ => h ▸ hc⟩

/-- Recovery codes go only with the last factor. -/
theorem thinned_drop (hadmins : d'.admins = (dropRecoveryCodesIfUnused id d).admins)
    (hpasskeys : d'.passkeys = d.passkeys)
    (hcodes : d'.recoveryCodes = (dropRecoveryCodesIfUnused id d).recoveryCodes) :
    Thinned d.recoveryCodes d' := by
  rw [dropRecoveryCodesIfUnused_admins] at hadmins
  unfold dropRecoveryCodesIfUnused at hcodes
  split at hcodes
  · exact thinned_of_eq hcodes
  rename_i admin hadmin
  split at hcodes
  · exact thinned_of_eq hcodes
  rename_i hfactor
  have hnone : ¬ HasFactor id d' := by
    rw [hasFactor_congr hadmins hpasskeys]
    rintro ⟨a, ha, hyes⟩
    rw [hadmin] at ha
    cases ha
    exact hfactor hyes
  refine ⟨fun c hc => ?_, fun c hc hc' => ?_⟩
  · rw [hcodes] at hc
    exact (Table.mem_delete.1 hc).1
  · rw [hcodes]
    refine Table.mem_delete.2 ⟨hc, ?_⟩
    have hne : c.adminId ≠ id := fun he => hnone (he ▸ hc')
    simpa using hne

theorem thinned_forceDisableTotp {keep : Option String} :
    Thinned d.recoveryCodes (forceDisableTotp P id keep d) :=
  @thinned_drop id (clearTotp id d) (forceDisableTotp P id keep d)
    (by simp [forceDisableTotp, clearTotp]) (by simp [forceDisableTotp, clearTotp])
    (by simp [forceDisableTotp, clearTotp])

theorem thinned_deleteAdmin : Thinned d.recoveryCodes (deleteAdmin id d) := by
  refine ⟨fun c hc => (Table.mem_delete.1 hc).1, fun c hc hfactor => ?_⟩
  refine Table.mem_delete.2 ⟨hc, ?_⟩
  obtain ⟨a, ha, -⟩ := hfactor
  have hmem : a ∈ Table.delete (fun a : AdminRow => a.id == id) d.admins :=
    List.mem_of_find?_eq_some ha
  have hne : a.id ≠ id := by simpa using (Table.mem_delete.1 hmem).2
  have hid := adminById_id ha
  rw [hid] at hne
  simpa using hne

/-! ## What spends no code -/

theorem not_spends_of_presents (h : presents P d c = none) :
    ∀ adminId code, ¬ Spends P adminId code (History.fire (step P) d c) := by
  rintro adminId code ⟨typed, -, hpresents, -⟩
  rw [History.fire_pre, History.fire_input, h] at hpresents
  cases hpresents

theorem not_spends_of_refused (h : isAccepted (step P d c).2 = false) :
    ∀ adminId code, ¬ Spends P adminId code (History.fire (step P) d c) := by
  rintro adminId code ⟨typed, -, -, haccepted, -⟩
  rw [History.fire_output, h] at haccepted
  cases haccepted

/-- A code of the authenticator app. -/
theorem not_spends_of_stepOf (hp : presents P d c = some (id, typed))
    (hadmin : adminById id d = some admin) (hstep : stepOf P c admin typed = some n) :
    ∀ adminId code, ¬ Spends P adminId code (History.fire (step P) d c) := by
  rintro adminId code ⟨typed', -, hpresents, -, hno⟩
  rw [History.fire_pre, History.fire_input, hp] at hpresents
  cases hpresents
  have := hno admin hadmin
  rw [History.fire_input, hstep] at this
  cases this

theorem not_issues_of_issuee (h : issuee c = none) :
    ∀ adminId, ¬ IssuesTo adminId (History.fire (step P) d c) := by
  rintro adminId ⟨codes, haccount, -⟩
  rw [History.fire_input, h] at haccount
  cases haccount

theorem not_issues_of_output (h : ∀ codes, (step P d c).2 ≠ .codes (some codes)) :
    ∀ adminId, ¬ IssuesTo adminId (History.fire (step P) d c) := by
  rintro adminId ⟨codes, -, hshown⟩
  exact h codes hshown

/-! ## Each operation -/

/-- An operation that takes no code and issues none. -/
theorem move_plain (hp : presents P d c = none) (hi : issuee c = none)
    (ht : Thinned d.recoveryCodes (step P d c).1) : CodesMove P d c :=
  .kept (not_issues_of_issuee hi) (not_spends_of_presents hp) ht

theorem thinned_orFailed {α : Type} {x : Except Failure (α × AccountDb)} {f : α → Output}
    (h : ∀ a d', x = .ok (a, d') → d'.recoveryCodes = d.recoveryCodes) :
    Thinned d.recoveryCodes (orFailed d x f).1 :=
  orFailed_keeps (Q := Thinned d.recoveryCodes) (thinned_of_eq rfl)
    fun a d' hx => thinned_of_eq (h a d' hx)

/-- An accepted code that is not one of the app is spent. -/
theorem spends_of_accepted (hp : presents P d c = some (id, typed))
    (hok : isAccepted (step P d c).2 = true) (hadmin : adminById id d = some admin)
    (hstep : stepOf P c admin typed = none) :
    Spends P id typed (History.fire (step P) d c) := by
  refine ⟨typed, rfl, hp, hok, fun a ha => ?_⟩
  rw [History.fire_pre, hadmin] at ha
  cases ha
  exact hstep

theorem move_verifySessionTotp (draw : SessionDraw) (sessionId typed : String) (ttlMs : Nat)
    (now : Int) : CodesMove P d ⟨now, .verifySessionTotp draw sessionId typed ttlMs⟩ := by
  have hissue : ∀ adminId, ¬ IssuesTo adminId
      (History.fire (step P) d ⟨now, .verifySessionTotp draw sessionId typed ttlMs⟩) :=
    not_issues_of_issuee rfl
  cases hx : verifySessionTotp P now draw sessionId typed ttlMs d with
  | error e =>
      have hstep : step P d ⟨now, .verifySessionTotp draw sessionId typed ttlMs⟩ =
          (d, .failed e) := by simp only [step, hx, orFailed]
      exact .kept hissue (not_spends_of_refused (by rw [hstep]; rfl))
        (thinned_of_eq (by rw [hstep]))
  | ok r =>
      obtain ⟨result, d'⟩ := r
      have hstep : step P d ⟨now, .verifySessionTotp draw sessionId typed ttlMs⟩ =
          (d', .login result) := by simp only [step, hx, orFailed]
      cases sessionTotp hx with
      | nothing result hresult =>
          refine .kept hissue (not_spends_of_refused ?_) (thinned_of_eq (by rw [hstep]))
          rw [hstep]
          cases result with
          | ok a b c => exact absurd rfl (hresult a b c)
          | invalid => rfl
          | locked _ => rfl
      | @passed s admin factor d₁ d₂ hs hadmin hfactor hlocked hcheck hdone =>
          have hp : presents P d ⟨now, .verifySessionTotp draw sessionId typed ttlMs⟩ =
              some (s.adminId, typed) := by simp only [presents, hs, Option.map_some]
          have hcodes : (step P d ⟨now, .verifySessionTotp draw sessionId typed ttlMs⟩).1.recoveryCodes
              = d₁.recoveryCodes := by
            rw [hstep]
            obtain ⟨hd', -⟩ := completeSecondFactor_ok hdone
            rw [hd']
            rfl
          cases hcheck with
          | totp n hn =>
              exact .kept hissue (not_spends_of_stepOf hp hadmin hn) (thinned_of_eq hcodes)
          | recovery hn hcode =>
              have hid := adminById_id hadmin
              rw [hid] at hcode hcodes
              refine .spent s.adminId typed hissue hp ?_ hcode (thinned_of_eq hcodes)
              exact spends_of_accepted hp (by rw [hstep]; rfl) hadmin hn
      | lockout =>
          exact .kept hissue (not_spends_of_refused (by rw [hstep]; rfl))
            (thinned_of_eq (by rw [hstep]; rfl))
      | sessionOver =>
          exact .kept hissue (not_spends_of_refused (by rw [hstep]; rfl))
            (thinned_of_eq (by rw [hstep]; rfl))
      | wrong =>
          exact .kept hissue (not_spends_of_refused (by rw [hstep]; rfl))
            (thinned_of_eq (by rw [hstep]; rfl))

theorem move_verifyConfirmCode (adminId typed : String) (now : Int) :
    CodesMove P d ⟨now, .verifyConfirmCode adminId typed⟩ := by
  have hissue : ∀ id, ¬ IssuesTo id
      (History.fire (step P) d ⟨now, .verifyConfirmCode adminId typed⟩) := not_issues_of_issuee rfl
  have hspec := confirmCode_spec (P := P) now adminId typed d
  have hstep : step P d ⟨now, .verifyConfirmCode adminId typed⟩ =
      answered (verifyConfirmCode P now adminId typed d) .confirm := rfl
  generalize verifyConfirmCode P now adminId typed d = answer at hspec hstep
  cases hspec with
  | missing hadmin =>
      exact .kept hissue (not_spends_of_refused (by rw [hstep]; rfl))
        (thinned_of_eq (by rw [hstep]; rfl))
  | locked hadmin hlocked =>
      exact .kept hissue (not_spends_of_refused (by rw [hstep]; rfl))
        (thinned_of_eq (by rw [hstep]; rfl))
  | totp hadmin hlocked hn =>
      exact .kept hissue (not_spends_of_stepOf rfl hadmin hn) (thinned_of_eq (by rw [hstep]; rfl))
  | recovery hadmin hlocked hn hcode =>
      exact .spent adminId typed hissue rfl
        (spends_of_accepted rfl (by rw [hstep]; rfl) hadmin hn) hcode
        (thinned_of_eq (by rw [hstep]; rfl))
  | lockout hadmin hwrong hmax =>
      exact .kept hissue (not_spends_of_refused (by rw [hstep]; rfl))
        (thinned_of_eq (by rw [hstep]; rfl))
  | wrong hadmin hwrong hmax =>
      exact .kept hissue (not_spends_of_refused (by rw [hstep]; rfl))
        (thinned_of_eq (by rw [hstep]; rfl))

theorem move_disableTotp (adminId typed keep : String) (now : Int) :
    CodesMove P d ⟨now, .disableTotp adminId typed keep⟩ := by
  have hissue : ∀ id, ¬ IssuesTo id
      (History.fire (step P) d ⟨now, .disableTotp adminId typed keep⟩) := not_issues_of_issuee rfl
  have hstep : step P d ⟨now, .disableTotp adminId typed keep⟩ =
      answered (disableTotp P now adminId typed keep d) .disabled := rfl
  rcases disableTotp_cases (P := P) now adminId typed keep d with
    hx | ⟨admin, hadmin, -, ⟨n, hn, hx⟩ | ⟨hn, hcode, hx⟩⟩
  · rw [hx] at hstep
    exact .kept hissue (not_spends_of_refused (by rw [hstep]; rfl))
      (thinned_of_eq (by rw [hstep]; rfl))
  · rw [hx] at hstep
    refine .kept hissue (not_spends_of_stepOf rfl hadmin hn) ?_
    rw [hstep]
    show Thinned d.recoveryCodes (forceDisableTotp P adminId (some keep) d)
    exact thinned_forceDisableTotp
  · rw [hx] at hstep
    refine .spent adminId typed hissue rfl
      (spends_of_accepted rfl (by rw [hstep]; rfl) hadmin hn) hcode ?_
    rw [hstep]
    show Thinned (useCode P now adminId typed d).recoveryCodes
      (forceDisableTotp P adminId (some keep) (useCode P now adminId typed d))
    exact thinned_forceDisableTotp

/-- Enrolment enables the app, so that the account has a second factor for its codes. -/
theorem move_confirmTotpEnrolment (codes : List String) (adminId typed : String) (now : Int) :
    CodesMove P d ⟨now, .confirmTotpEnrolment codes adminId typed⟩ := by
  have hstep : step P d ⟨now, .confirmTotpEnrolment codes adminId typed⟩ =
      answered (confirmTotpEnrolment P now codes adminId typed d) .codes := rfl
  rcases confirmTotpEnrolment_cases (P := P) now codes adminId typed d with
    hx | ⟨admin, secret, n, hadmin, hsecret, henabled, hverify, hx⟩
  · rw [hx] at hstep
    refine .kept (not_issues_of_output ?_) (not_spends_of_refused (by rw [hstep]; rfl))
      (thinned_of_eq (by rw [hstep]; rfl))
    intro codes' hcontra
    rw [hstep] at hcontra
    cases hcontra
  · rw [hx] at hstep
    have hstepOf : stepOf P ⟨now, .confirmTotpEnrolment codes adminId typed⟩ admin typed =
        some n := by simp [stepOf, henabled, hsecret, hverify]
    refine .issued adminId codes ⟨rfl, by rw [History.fire_output, hstep]; rfl⟩ rfl
      (not_spends_of_stepOf rfl hadmin hstepOf) ?_ (by rw [hstep]; rfl)
    rw [hstep]
    refine ⟨{ admin with totpEnabledAt := some now, totpLastStep := some n }, ?_, rfl⟩
    have hrow := @adminById_updateAdmin adminId d
      (fun a => { a with totpEnabledAt := some now, totpLastStep := some n }) (fun _ => rfl) adminId
    rw [hadmin, Option.map_some, if_pos (by simpa using adminById_id hadmin)] at hrow
    exact hrow

/-- An enabled app is a second factor. -/
theorem hasSecondFactor_of_enabled (h : admin.totpEnabledAt.isSome = true) :
    (toAdmin d admin).hasSecondFactor = true := by
  simp [Admin.hasSecondFactor, toAdmin, h]

theorem move_regenerateRecoveryCodes (codes : List String) (adminId typed : String) (now : Int) :
    CodesMove P d ⟨now, .regenerateRecoveryCodes codes adminId typed⟩ := by
  have hstep : step P d ⟨now, .regenerateRecoveryCodes codes adminId typed⟩ =
      answered (regenerateRecoveryCodes P now codes adminId typed d) .codes := rfl
  rcases regenerateRecoveryCodes_cases (P := P) now codes adminId typed d with
    hx | ⟨admin, n, hadmin, hn, hx⟩
  · rw [hx] at hstep
    refine .kept (not_issues_of_output ?_) (not_spends_of_refused (by rw [hstep]; rfl))
      (thinned_of_eq (by rw [hstep]; rfl))
    intro codes' hcontra
    rw [hstep] at hcontra
    cases hcontra
  · rw [hx] at hstep
    refine .issued adminId codes ⟨rfl, by rw [History.fire_output, hstep]; rfl⟩ rfl
      (not_spends_of_stepOf rfl hadmin hn) ?_ (by rw [hstep]; rfl)
    rw [hstep]
    refine ⟨{ admin with totpLastStep := some n }, ?_,
      hasSecondFactor_of_enabled (matchedStep_some hn).1⟩
    have hrow := @adminById_updateAdmin adminId d
      (fun a => { a with totpLastStep := some n }) (fun _ => rfl) adminId
    rw [hadmin, Option.map_some, if_pos (by simpa using adminById_id hadmin)] at hrow
    exact hrow

theorem move_regenerateRecoveryCodesConfirmed (codes : List String) (adminId : String)
    (now : Int) : CodesMove P d ⟨now, .regenerateRecoveryCodesConfirmed codes adminId⟩ := by
  have hstep : step P d ⟨now, .regenerateRecoveryCodesConfirmed codes adminId⟩ =
      answered (regenerateRecoveryCodesConfirmed P codes adminId d) .codes := rfl
  have hspends : ∀ id code, ¬ Spends P id code
      (History.fire (step P) d ⟨now, .regenerateRecoveryCodesConfirmed codes adminId⟩) :=
    not_spends_of_presents rfl
  rcases regenerateRecoveryCodesConfirmed_cases (P := P) codes adminId d with
    hx | ⟨admin, hadmin, hfactor, hx⟩
  · rw [hx] at hstep
    refine .kept (not_issues_of_output ?_) hspends (thinned_of_eq (by rw [hstep]; rfl))
    intro codes' hcontra
    rw [hstep] at hcontra
    cases hcontra
  · rw [hx] at hstep
    refine .issued adminId codes ⟨rfl, by rw [History.fire_output, hstep]; rfl⟩ rfl hspends ?_
      (by rw [hstep]; rfl)
    rw [hstep]
    exact ⟨admin, hadmin, hfactor⟩

theorem thinned_removePasskey {passkeyId keep : String} :
    Thinned d.recoveryCodes (removePasskey P id passkeyId keep d).2 := by
  rcases removePasskey_cases (P := P) id passkeyId keep d with h | ⟨pk, -, -, -, h⟩
  · rw [h]
    exact thinned_of_eq rfl
  · rw [h]
    exact thinned_drop
        (d := { d with passkeys := Table.delete (fun p => p.id == passkeyId) d.passkeys }) rfl
        (dropRecoveryCodesIfUnused_passkeys _ _) rfl

theorem thinned_checkAssertion {purpose : CeremonyPurpose} {input : AssertPasskeyInput}
    {rp : RelyingParty} :
    Thinned d.recoveryCodes (checkAssertion P now purpose input rp d).2 := by
  rcases checkAssertion_cases (P := P) now purpose input rp d with ⟨e, h⟩ | ⟨_, _, _, -, -, h⟩
  · rw [h]
    exact thinned_of_eq rfl
  · rw [h]
    exact thinned_of_eq rfl

theorem thinned_verifyPasskeyLogin {draw : SessionDraw} {input : AssertPasskeyInput}
    {rp : RelyingParty} {account : Admin} {ttlMs : Nat} :
    Thinned d.recoveryCodes (verifyPasskeyLogin P now draw input rp account ttlMs d).2 := by
  rcases verifyPasskeyLogin_cases (P := P) now draw input rp account ttlMs d with
    ⟨e, h⟩ | ⟨e, h⟩ | ⟨_, _, _, d', -, -, hdone, h⟩
  · rw [h]
    exact thinned_of_eq rfl
  · rw [h]
    exact thinned_of_eq rfl
  · rw [h]
    obtain ⟨hd', -⟩ := completeSecondFactor_ok hdone
    exact thinned_of_eq (by rw [hd']; rfl)

theorem codesMove (d : AccountDb) (c : Call) : CodesMove P d c := by
  obtain ⟨now, op⟩ := c
  cases op with
  | createAdmin id salt input =>
      refine move_plain rfl rfl (thinned_orFailed fun _ _ h => ?_)
      obtain ⟨rfl, -⟩ := createAdmin_ok h
      rfl
  | deleteAdmin id => exact move_plain rfl rfl thinned_deleteAdmin
  | resetSecondFactors id =>
      exact move_plain rfl rfl (@thinned_forceDisableTotp P id
        { d with passkeys := Table.delete (fun p => p.adminId == id) d.passkeys } none)
  | signIn draw username password ttlMs info =>
      refine move_plain rfl rfl (thinned_orFailed fun _ _ h => ?_)
      obtain ⟨_, -, hd'⟩ := signIn_ok h
      obtain ⟨rfl, -⟩ := insertSession_ok hd'
      rfl
  | endSessions p => exact move_plain rfl rfl (thinned_of_eq rfl)
  | verifySessionTotp draw sessionId typed ttlMs => exact move_verifySessionTotp ..
  | verifyConfirmCode adminId typed => exact move_verifyConfirmCode ..
  | beginTotpEnrolment secret adminId =>
      refine move_plain rfl rfl (thinned_orFailed fun _ _ h => ?_)
      obtain ⟨d₂, hd₂, he⟩ := Fallible.map_eq_ok.1 h
      cases he
      obtain ⟨_, -, -, rfl⟩ := beginTotpEnrolment_ok hd₂
      rfl
  | confirmTotpEnrolment codes adminId typed => exact move_confirmTotpEnrolment ..
  | regenerateRecoveryCodes codes adminId typed => exact move_regenerateRecoveryCodes ..
  | regenerateRecoveryCodesConfirmed codes adminId =>
      exact move_regenerateRecoveryCodesConfirmed ..
  | disableTotp adminId typed keep => exact move_disableTotp ..
  | beginCeremony => exact move_plain rfl rfl (thinned_of_eq rfl)
  | registerPasskey =>
      refine move_plain rfl rfl (thinned_orFailed fun _ _ h => ?_)
      obtain ⟨_, _, -, -, -, -, rfl⟩ := registerPasskey_ok h
      rfl
  | verifyPasskeyLogin => exact move_plain rfl rfl thinned_verifyPasskeyLogin
  | verifyPasskeyConfirm => exact move_plain rfl rfl thinned_checkAssertion
  | removePasskey => exact move_plain rfl rfl thinned_removePasskey

/-! ## The invariant is kept -/

theorem mem_admins_of_move (hm : AdminsMove P d c d') (hi : Inv d) :
    (d'.admins.map (·.id)).Nodup ∧
      ∀ a ∈ d'.admins, a.totpEnabledAt.isSome = true → a.totpSecret.isSome = true := by
  have hupdate : ∀ (id : String) (f : AdminRow → AdminRow),
      d'.admins = (updateAdmin id f d).admins → (∀ a, (f a).id = a.id) →
      (∀ a ∈ d.admins, a.id = id → (f a).totpEnabledAt.isSome = true →
        (f a).totpSecret.isSome = true) →
      (d'.admins.map (·.id)).Nodup ∧
        ∀ a ∈ d'.admins, a.totpEnabledAt.isSome = true → a.totpSecret.isSome = true := by
    intro id f hrows hid hf
    rw [hrows]
    refine ⟨Table.nodup_update hid hi.adminIds, ?_⟩
    intro a ha
    obtain ⟨a₀, ha₀, rfl⟩ := Table.mem_update.1 ha
    split
    · rename_i hsame
      exact hf a₀ ha₀ (by simpa using hsame)
    · exact hi.app a₀ ha₀
  cases hm with
  | frame id f hrows hf =>
      refine hupdate id f hrows (fun a => (hf a).id) ?_
      intro a ha _
      rw [(hf a).enabledAt, (hf a).secret]
      exact hi.app a ha
  | accept id typed admin n f hadmin hn hrows hf =>
      refine hupdate id f hrows (fun a => (hf a).id) ?_
      intro a ha _
      rw [(hf a).enabledAt, (hf a).secret]
      exact hi.app a ha
  | clear id hc hrows => exact hupdate id _ hrows (fun _ => rfl) fun _ _ _ h => by cases h
  | draw secret id admin hop hadmin henabled hrows =>
      exact hupdate id _ hrows (fun _ => rfl) fun _ _ _ _ => rfl
  | enrol id typed admin secret n hadmin hsecret henabled hverify hrows =>
      refine hupdate id _ hrows (fun _ => rfl) ?_
      intro a ha hid _
      have hsame : a = admin := Table.eq_of_key hi.adminIds ha (List.mem_of_find?_eq_some hadmin)
        (hid.trans (adminById_id hadmin).symm)
      rw [hsame, hsecret]
      rfl
  | insert row hfree hsecret henabled hrows =>
      rw [hrows]
      refine ⟨Table.nodup_append_row hi.adminIds hfree, ?_⟩
      intro a ha hon
      rcases List.mem_append.1 ha with ha | ha
      · exact hi.app a ha hon
      · rw [List.mem_singleton.1 ha, henabled] at hon
        cases hon
  | delete id hc hrows =>
      rw [hrows]
      exact ⟨Table.nodup_delete hi.adminIds, fun a ha => hi.app a (Table.mem_delete.1 ha).1⟩

/-- An account whose factors nobody takes away stays, and its app stays enabled. -/
theorem enabled_of_move (hm : AdminsMove P d c d') (hc : removes c ≠ some id)
    (hadmin : adminById id d = some admin) :
    ∃ admin', adminById id d' = some admin' ∧
      (admin.totpEnabledAt.isSome = true → admin'.totpEnabledAt.isSome = true) := by
  have hupdate : ∀ (id' : String) (f : AdminRow → AdminRow),
      d'.admins = (updateAdmin id' f d).admins → (∀ a, (f a).id = a.id) →
      (∀ a, id' = id → a.totpEnabledAt.isSome = true → (f a).totpEnabledAt.isSome = true) →
      ∃ admin', adminById id d' = some admin' ∧
        (admin.totpEnabledAt.isSome = true → admin'.totpEnabledAt.isSome = true) := by
    intro id' f hrows hid hf
    refine ⟨if admin.id == id' then f admin else admin, ?_, ?_⟩
    · rw [adminById_of_admins hrows, adminById_updateAdmin hid, hadmin]
      rfl
    · split
      · rename_i hsame
        have hsame : admin.id = id' := by simpa using hsame
        exact hf admin (hsame.symm.trans (adminById_id hadmin))
      · exact fun h => h
  cases hm with
  | frame id' f hrows hf =>
      exact hupdate id' f hrows (fun a => (hf a).id) fun a _ h => by rwa [(hf a).enabledAt]
  | accept id' typed admin' n f hadmin' hn hrows hf =>
      exact hupdate id' f hrows (fun a => (hf a).id) fun a _ h => by rwa [(hf a).enabledAt]
  | clear id' hc' hrows =>
      exact hupdate id' _ hrows (fun _ => rfl) fun _ he => absurd (he ▸ hc') hc
  | draw secret id' admin' hop hadmin' henabled hrows =>
      exact hupdate id' _ hrows (fun _ => rfl) fun _ _ h => h
  | enrol id' typed admin' secret n hadmin' hsecret henabled hverify hrows =>
      exact hupdate id' _ hrows (fun _ => rfl) fun _ _ _ => rfl
  | insert row hfree hsecret henabled hrows =>
      refine ⟨admin, ?_, fun h => h⟩
      rw [adminById_of_append hrows, hadmin, Option.some_or]
  | delete id' hc' hrows =>
      refine ⟨admin, ?_, fun h => h⟩
      rw [adminById, hrows, ← hadmin, adminById]
      refine Table.find?_delete fun a ha => ?_
      have hid : a.id = id := by simpa using ha
      have hne : id ≠ id' := fun he => hc (he ▸ hc')
      simpa [hid] using hne

/-- Its passkeys stay as well. -/
theorem passkeyCount_of_move (hm : PasskeysMove P d c d') (hc : removes c ≠ some id)
    (hn : (d.passkeys.map (·.id)).Nodup) : passkeyCount id d ≤ passkeyCount id d' := by
  cases hm with
  | same hrows => rw [passkeyCount, passkeyCount, hrows]
  | register id' challenge input rp reg hop hawaits hreg hfree hrows =>
      rw [passkeyCount, passkeyCount, hrows, List.countP_append]
      exact Nat.le_add_right _ _
  | use challenge purpose input rp cred signCount hawaits hasserted hrows =>
      rw [passkeyCount, passkeyCount, hrows]
      refine le_of_eq (Table.countP_update ?_ d.passkeys).symm
      exact fun _ => rfl
  | drop id' p hc' hp hrows =>
      rw [passkeyCount, passkeyCount, hrows, Table.delete, List.countP_filter]
      refine List.countP_mono_left fun x hx hid => ?_
      rw [hid, Bool.true_and]
      cases hpx : p x with
      | false => rfl
      | true =>
          obtain ⟨y, hy, howner, hsame⟩ := hp x hx hpx
          have hxy : y = x := Table.eq_of_key hn hy hx hsame
          have hid : x.adminId = id := by simpa using hid
          rw [hxy, hid] at howner
          exact absurd (howner ▸ hc') hc

/-- An account keeps a second factor unless the call takes its factors away. -/
theorem hasFactor_step (hi : Inv d) (hc : removes c ≠ some id) (h : HasFactor id d) :
    HasFactor id (step P d c).1 := by
  obtain ⟨admin, hadmin, hfactor⟩ := h
  obtain ⟨admin', hadmin', henabled⟩ := enabled_of_move (adminsMove (P := P) d c) hc hadmin
  have hcount := passkeyCount_of_move (passkeysMove (P := P) d c) hc hi.passkeyIds
  refine ⟨admin', hadmin', ?_⟩
  have hid := adminById_id hadmin
  have hid' := adminById_id hadmin'
  simp only [Admin.hasSecondFactor, toAdmin, Bool.or_eq_true, decide_eq_true_eq, hid] at hfactor
  simp only [Admin.hasSecondFactor, toAdmin, Bool.or_eq_true, decide_eq_true_eq, hid']
  exact hfactor.imp henabled fun hpos => lt_of_lt_of_le hpos hcount

/-- Codes that are left after a factor went are those of an account with another one. -/
theorem hasFactor_of_dropped {c : RecoveryCode}
    (hadmins : d'.admins = d.admins) (hpasskeys : d'.passkeys = d.passkeys)
    (hcodes : d'.recoveryCodes = (dropRecoveryCodesIfUnused id d).recoveryCodes)
    (hadmin : adminById id d = some admin) (hc : c ∈ d'.recoveryCodes) (hid : c.adminId = id) :
    HasFactor id d' := by
  rw [hasFactor_congr hadmins hpasskeys]
  refine ⟨admin, hadmin, ?_⟩
  by_contra hfactor
  unfold dropRecoveryCodesIfUnused at hcodes
  rw [hadmin] at hcodes
  simp only [if_neg hfactor] at hcodes
  rw [hcodes] at hc
  exact absurd hid (by simpa using (Table.mem_delete.1 hc).2)

theorem adminById_clearTotp (hadmin : adminById id d = some admin) :
    ∃ admin', adminById id (clearTotp id d) = some admin' := by
  have hrow := @adminById_updateAdmin id d (fun a => { a with
    totpSecret := none, totpEnabledAt := none, totpLastStep := none, totpFailedCount := 0,
    totpLockedUntil := none }) (fun _ => rfl) id
  rw [hadmin] at hrow
  exact ⟨_, hrow⟩

theorem hasFactor_forceDisableTotp {keep : Option String} {c : RecoveryCode}
    (hadmin : adminById id d = some admin)
    (hc : c ∈ (forceDisableTotp P id keep d).recoveryCodes) (hid : c.adminId = id) :
    HasFactor id (forceDisableTotp P id keep d) := by
  obtain ⟨admin', hadmin'⟩ := adminById_clearTotp hadmin
  exact hasFactor_of_dropped (forceDisableTotp_admins ..) (forceDisableTotp_passkeys ..)
    (endSessions_recoveryCodes ..) hadmin' hc hid

theorem hasFactor_removed {x : RecoveryCode} (hc : removes c = some id)
    (hx : x ∈ (step P d c).1.recoveryCodes) (hid : x.adminId = id) (h : HasFactor id d) :
    HasFactor id (step P d c).1 := by
  obtain ⟨now, op⟩ := c
  obtain ⟨admin, hadmin, hfactor⟩ := h
  cases op with
  | deleteAdmin id' =>
      cases hc
      exact absurd hid (by simpa using (Table.mem_delete.1 hx).2)
  | resetSecondFactors id' =>
      cases hc
      have hadmin' : adminById id
          { d with passkeys := Table.delete (fun p => p.adminId == id) d.passkeys } =
            some admin := hadmin
      exact hasFactor_forceDisableTotp hadmin' hx hid
  | disableTotp id' typed keep =>
      cases hc
      have hstep : step P d ⟨now, .disableTotp id typed keep⟩ =
          answered (disableTotp P now id typed keep d) .disabled := rfl
      rw [hstep] at hx ⊢
      rcases disableTotp_cases (P := P) now id typed keep d with
        h | ⟨_, -, -, ⟨_, -, h⟩ | ⟨-, -, h⟩⟩
      · rw [h]
        exact ⟨admin, hadmin, hfactor⟩
      · rw [h] at hx ⊢
        exact hasFactor_forceDisableTotp hadmin hx hid
      · rw [h] at hx ⊢
        have hadmin' : adminById id (useCode P now id typed d) = some admin := hadmin
        exact hasFactor_forceDisableTotp hadmin' hx hid
  | removePasskey id' passkeyId keep =>
      cases hc
      have hstep : step P d ⟨now, .removePasskey id passkeyId keep⟩ =
          answered (removePasskey P id passkeyId keep d) .removed := rfl
      rw [hstep] at hx ⊢
      rcases removePasskey_cases (P := P) id passkeyId keep d with h | ⟨pk, -, -, -, h⟩
      · rw [h]
        exact ⟨admin, hadmin, hfactor⟩
      · rw [h] at hx ⊢
        exact hasFactor_of_dropped
          (d := { d with passkeys := Table.delete (fun p => p.id == passkeyId) d.passkeys })
          (dropRecoveryCodesIfUnused_admins _ _) (dropRecoveryCodesIfUnused_passkeys _ _) rfl
          hadmin hx hid
  | _ => cases hc

/-- A stored code stays with an account that has a second factor. -/
theorem holder_step {x : RecoveryCode} (hi : Inv d) (hx : x ∈ (step P d c).1.recoveryCodes)
    (h : HasFactor x.adminId d) : HasFactor x.adminId (step P d c).1 := by
  by_cases hc : removes c = some x.adminId
  · exact hasFactor_removed hc hx rfl h
  · exact hasFactor_step hi hc h

theorem inv_step (c : Call) (hi : Inv d) : Inv (step P d c).1 := by
  obtain ⟨hids, happ⟩ := mem_admins_of_move (adminsMove (P := P) d c) hi
  refine ⟨hids, nodup_passkeys_of_move (passkeysMove (P := P) d c) hi.passkeyIds, happ, ?_⟩
  intro x hx
  cases codesMove (P := P) d c with
  | kept hissue hspend hthin => exact holder_step hi hx (hi.holders x (hthin.sub x hx))
  | spent adminId typed hissue hp hspend hcode hthin =>
      obtain ⟨x₀, hx₀, hsame⟩ := Table.mem_update.1 (hthin.sub x hx)
      have howner : x.adminId = x₀.adminId := by
        rw [← hsame]
        split <;> rfl
      exact holder_step hi hx (howner ▸ hi.holders x₀ hx₀)
  | issued adminId codes hissue hdrawn hspend hfactor hrows =>
      rw [hrows] at hx
      rcases List.mem_append.1 hx with hold | hnew
      · rw [← hrows] at hx
        exact holder_step hi hx (hi.holders x (Table.mem_delete.1 hold).1)
      · obtain ⟨code, -, rfl⟩ := List.mem_map.1 hnew
        exact hfactor

/-! ## Where an unused code comes from -/

/-- The events that leave a code of an account alone. -/
def LeavesCode (P : Platform) (adminId code : String) (e : Event) : Prop :=
  ¬ IssuesTo adminId e ∧ ¬ Spends P adminId code e

/-- Every unused code was handed out, and neither replaced nor used since. -/
def HandedOut (P : Platform) (h : List Event) (d : AccountDb) : Prop :=
  ∀ x ∈ d.recoveryCodes, x.usedAt = none →
    ∀ code, P.sha256Hex (normalizeRecoveryCode P code) = x.codeHash →
      History.Since (HandsOut P x.adminId code) (LeavesCode P x.adminId code) h

theorem handedOut_step (hsha : Function.Injective P.sha256Hex) {h : List Event} (c : Call)
    (hh : HandedOut P h d) : HandedOut P (History.fire (step P) d c :: h) (step P d c).1 := by
  intro x hx hunused code hcode
  cases codesMove (P := P) d c with
  | kept hissue hspend hthin =>
      exact .later ⟨hissue _, hspend _ _⟩ (hh x (hthin.sub x hx) hunused code hcode)
  | spent adminId typed hissue hp hspend _ hthin =>
      obtain ⟨x₀, hx₀, hsame⟩ := Table.mem_update.1 (hthin.sub x hx)
      by_cases htyped : isUnusedCode P adminId typed x₀ = true
      · rw [if_pos htyped] at hsame
        rw [← hsame] at hunused
        cases hunused
      · rw [if_neg htyped] at hsame
        subst hsame
        refine .later ⟨hissue _, ?_⟩ (hh x₀ hx₀ hunused code hcode)
        -- the code that was used has another normal form or another account
        rintro ⟨typed', hform, hp', -⟩
        rw [History.fire_pre, History.fire_input, hp] at hp'
        cases hp'
        refine htyped ?_
        simp only [isUnusedCode, beq_self_eq_true, Bool.true_and, Bool.and_eq_true, beq_iff_eq,
          Option.isNone_iff_eq_none]
        exact ⟨by rw [hform, hcode], hunused⟩
  | issued adminId codes hissue hdrawn hspend hfactor hrows =>
      rw [hrows] at hx
      rcases List.mem_append.1 hx with hold | hnew
      · obtain ⟨hmem, hother⟩ := Table.mem_delete.1 hold
        refine .later ⟨?_, hspend _ _⟩ (hh x hmem hunused code hcode)
        rintro ⟨codes', hissue', -⟩
        rw [hissue.account] at hissue'
        cases hissue'
        simp at hother
      · obtain ⟨c₀, hc₀, rfl⟩ := List.mem_map.1 hnew
        exact .now ⟨codes, hissue, c₀, hc₀, (hsha hcode).symm⟩

/-! ## How long a code can be used -/

/-- A call that issues codes draws ones of ten characters. -/
theorem length_of_env (hl : LowerCase P) {h : List Event} {codes : List String} {code c₀ : String}
    (henv : env P h d c) (hdrawn : drawnCodes c = some codes) (hc₀ : c₀ ∈ codes)
    (hsame : normalizeRecoveryCode P c₀ = normalizeRecoveryCode P code) :
    utf16Length (normalizeRecoveryCode P code) = 10 := by
  obtain ⟨draws, -, hdraws, rfl⟩ := henv codes (by simp [hdrawn])
  rw [← hsame]
  exact normalizeRecoveryCode_generated hl hdraws hc₀

theorem hasUnusedCode_of_handsOut (hl : LowerCase P) {h : List Event} (henv : env P h d c)
    (hout : HandsOut P adminId code (History.fire (step P) d c)) :
    hasUnusedCode P adminId code (step P d c).1 := by
  obtain ⟨codes', hissue', c₀, hc₀, hsame⟩ := hout
  cases codesMove (P := P) d c with
  | kept hissue hspend hthin => exact absurd ⟨codes', hissue'⟩ (hissue adminId)
  | spent id typed hissue hp hspend hcode hthin => exact absurd ⟨codes', hissue'⟩ (hissue adminId)
  | issued id codes hissue hdrawn hspend hfactor hrows =>
      have hid : id = adminId := Option.some.inj (hissue.account.symm.trans hissue'.account)
      have hcodes : codes' = codes := by
        have hshown := hissue'.shown.symm.trans hissue.shown
        cases hshown
        rfl
      subst hid hcodes
      refine ⟨length_of_env hl henv hdrawn hc₀ hsame,
        ⟨id, P.sha256Hex (normalizeRecoveryCode P c₀), none⟩, ?_, ?_⟩
      · rw [hrows]
        exact List.mem_append_right _ (List.mem_map.2 ⟨c₀, hc₀, rfl⟩)
      · simp [isUnusedCode, hsame]

theorem Spends.congr {e : Event} {code' : String} (h : Spends P adminId code e)
    (hsame : normalizeRecoveryCode P code = normalizeRecoveryCode P code') :
    Spends P adminId code' e := by
  obtain ⟨typed, hform, hrest⟩ := h
  exact ⟨typed, hform.trans hsame, hrest⟩

theorem isUnusedCode_iff {x : RecoveryCode} : isUnusedCode P adminId code x = true ↔
    x.adminId = adminId ∧ x.codeHash = P.sha256Hex (normalizeRecoveryCode P code) ∧
      x.usedAt = none := by
  simp [isUnusedCode, and_assoc]

theorem hasUnusedCode_step (hsha : Function.Injective P.sha256Hex) (c : Call)
    (hleaves : LeavesCode P adminId code (History.fire (step P) d c))
    (hfactor : HasFactor adminId (step P d c).1) (h : hasUnusedCode P adminId code d) :
    hasUnusedCode P adminId code (step P d c).1 := by
  obtain ⟨hlength, x, hx, hcode⟩ := h
  obtain ⟨rfl, hhash, -⟩ := isUnusedCode_iff.1 hcode
  refine ⟨hlength, x, ?_, hcode⟩
  cases codesMove (P := P) d c with
  | kept hissue hspend hthin => exact hthin.keep x hx hfactor
  | spent id typed hissue hp hspend husable hthin =>
      refine hthin.keep x (Table.mem_update_of_not hx ?_) hfactor
      by_contra htyped
      obtain ⟨rfl, hhash', -⟩ := isUnusedCode_iff.1 (Bool.not_eq_false _ ▸ htyped)
      exact hleaves.2 (hspend.congr (hsha (hhash'.symm.trans hhash)))
  | issued id codes hissue hdrawn hspend hfactor' hrows =>
      rw [hrows]
      refine List.mem_append_left _ (Table.mem_delete.2 ⟨hx, ?_⟩)
      have hne : x.adminId ≠ id := fun he => hleaves.1 ⟨codes, he ▸ hissue⟩
      simpa using hne

/-! ## An unused code is accepted -/

theorem hasUnusedCode_of_spells (hl : LowerCase P) (hspells : Spells P code.toList typed.toList)
    (h : hasUnusedCode P adminId code d) : hasUnusedCode P adminId typed d := by
  have hsame := normalizeRecoveryCode_of_spells hl hspells
  unfold hasUnusedCode isUnusedCode at *
  rwa [hsame]

theorem accepted_verifyConfirmCode (hadmin : adminById adminId d = some admin)
    (hunlocked : isTotpLocked admin now = false) (h : hasUnusedCode P adminId typed d) :
    isAccepted (step P d ⟨now, .verifyConfirmCode adminId typed⟩).2 = true := by
  show isAccepted (.confirm (verifyConfirmCode P now adminId typed d).1) = true
  have hid := adminById_id hadmin
  have hspec := confirmCode_spec (P := P) now adminId typed d
  generalize verifyConfirmCode P now adminId typed d = answer at hspec ⊢
  cases hspec with
  | missing hnone => rw [hadmin] at hnone; cases hnone
  | locked hadmin' hlocked =>
      rw [hadmin] at hadmin'
      cases hadmin'
      rw [hunlocked] at hlocked
      cases hlocked
  | totp => rfl
  | recovery => rfl
  | lockout hadmin' hwrong hmax =>
      rw [hadmin] at hadmin'
      cases hadmin'
      exact absurd (hid.symm ▸ h) hwrong.noCode
  | wrong hadmin' hwrong hmax =>
      rw [hadmin] at hadmin'
      cases hadmin'
      exact absurd (hid.symm ▸ h) hwrong.noCode

theorem accepted_disableTotp {keep : String} (hadmin : adminById adminId d = some admin)
    (hsecret : admin.totpSecret.isSome = true) (henabled : admin.totpEnabledAt.isSome = true)
    (h : hasUnusedCode P adminId typed d) :
    isAccepted (step P d ⟨now, .disableTotp adminId typed keep⟩).2 = true := by
  show isAccepted (.disabled (disableTotp P now adminId typed keep d).1) = true
  obtain ⟨secret, hs⟩ := Option.isSome_iff_exists.1 hsecret
  obtain ⟨t, ht⟩ := Option.isSome_iff_exists.1 henabled
  unfold disableTotp
  simp only [hadmin, hs, ht]
  cases hstep : matchedStep P admin typed now with
  | some n => rfl
  | none =>
      rcases consumeRecoveryCode_cases (P := P) now adminId typed d with ⟨-, hused⟩ | ⟨hno, -⟩
      · simp only [hused]
        rfl
      · exact absurd h hno

theorem accepted_verifySessionTotp {draw : SessionDraw} {sessionId : String} {ttlMs : Nat}
    {s : SessionRow} (hs : d.sessions.find? (·.idHash == P.sha256Hex sessionId) = some s)
    (hadmin : adminById s.adminId d = some admin)
    (hfactor : (toAdmin d admin).hasSecondFactor = true)
    (hunlocked : isTotpLocked admin now = false)
    (hfresh : ∀ x ∈ d.sessions,
      x.idHash ≠ P.sha256Hex draw.sessionId ∧ x.publicId ≠ newId "s" draw.publicId)
    (h : hasUnusedCode P s.adminId typed d) :
    isAccepted (step P d ⟨now, .verifySessionTotp draw sessionId typed ttlMs⟩).2 = true := by
  have hid := adminById_id hadmin
  have hcheck := checked (P := P) now admin typed d
  have hdone : ∀ factor d₁, Checked P now admin typed d (some factor, d₁) →
      ∃ d', completeSecondFactor P now draw (P.sha256Hex sessionId) (toAdmin d admin) ttlMs factor
        d₁ = .ok d' := by
    intro factor d₁ hc
    cases hc with
    | totp n hn =>
        have hrow := @adminById_updateAdmin admin.id d
          (fun a => { a with totpLastStep := some n }) (fun _ => rfl) admin.id
        rw [hid, hadmin, Option.map_some, ← hid] at hrow
        exact completeSecondFactor_succeeds hrow hfresh
    | recovery hn hcode =>
        exact completeSecondFactor_succeeds (d := useCode P now admin.id typed d)
          (hid.symm ▸ hadmin) hfresh
  suffices hsome : ∃ a b factor d', verifySessionTotp P now draw sessionId typed ttlMs d =
      .ok (.ok a b factor, d') by
    obtain ⟨a, b, factor, d', hx⟩ := hsome
    simp only [step, hx, orFailed, isAccepted]
  unfold verifySessionTotp
  simp only [hs, hadmin, hfactor, hunlocked, Bool.not_true, Bool.false_eq_true, if_false]
  generalize checkFactor P now admin typed d = answer at hcheck ⊢
  obtain ⟨used, d₁⟩ := answer
  cases used with
  | some factor =>
      obtain ⟨d', hd'⟩ := hdone factor d₁ hcheck
      simp only [hd', Fallible.ok_bind]
      exact ⟨_, _, factor, d', rfl⟩
  | none =>
      cases hcheck with
      | wrong hn hcode => exact absurd (hid.symm ▸ h) hcode

/-! ## Every run -/

/-- No code spent by a step was issued by it. -/
theorem not_handsOut_of_spends {c : Call}
    (h : Spends P adminId code (History.fire (step P) d c)) :
    ¬ HandsOut P adminId code (History.fire (step P) d c) := by
  rintro ⟨codes, hissue, -⟩
  cases codesMove (P := P) d c with
  | kept hissue' hspend hthin => exact hspend _ _ h
  | spent id typed hissue' hp hspend hcode hthin => exact hissue' _ ⟨codes, hissue⟩
  | issued id codes' hissue' hdrawn hspend hfactor hrows => exact hspend _ _ h

/-- A code that is spent is stored and unused. -/
theorem hasUnusedCode_of_spends {c : Call}
    (h : Spends P adminId code (History.fire (step P) d c)) : hasUnusedCode P adminId code d := by
  obtain ⟨typed, hform, hp, hok, hno⟩ := h
  rcases accepts_or_recovery hp hok with ⟨secret, n, haccepts⟩ | hcode
  · obtain ⟨-, -, admin, hadmin, -, hstep⟩ := haccepts
    exact absurd (hstep.symm.trans (hno admin hadmin)) (by simp)
  · unfold hasUnusedCode isUnusedCode at *
    rwa [hform] at hcode

theorem inv_empty : Inv .empty :=
  ⟨List.nodup_nil, List.nodup_nil, by simp [AccountDb.empty], by simp [AccountDb.empty]⟩

theorem recovery_codes (hsha : Function.Injective P.sha256Hex) (hl : LowerCase P)
    {h : List Event} (hr : History.Run (step P) (env P) .empty h d) : Lifecycle P h d := by
  have hinv : ∀ {h d}, History.Run (step P) (env P) .empty h d → Inv d := fun hr =>
    History.Run.invariant (I := fun _ d => Inv d) inv_empty (fun _ _ c _ _ hi => inv_step c hi) hr
  have hout : ∀ {h d}, History.Run (step P) (env P) .empty h d → HandedOut P h d := fun hr =>
    History.Run.invariant (I := HandedOut P) (by intro x hx; cases hx)
      (fun _ _ c _ _ hh => handedOut_step hsha c hh) hr
  have hspent : ∀ {later earlier : List Event} {e : Event} {d : AccountDb} {adminId code : String},
      History.Run (step P) (env P) .empty (later ++ e :: earlier) d → Spends P adminId code e →
      History.Since (HandsOut P adminId code) (LeavesCode P adminId code) earlier := by
    intro later earlier e d adminId code hr hspend
    obtain ⟨c, hearlier, -, he⟩ := hr.split
    rw [he] at hspend
    obtain ⟨-, x, hx, hcode⟩ := hasUnusedCode_of_spends hspend
    obtain ⟨rfl, hhash, hunused⟩ := isUnusedCode_iff.1 hcode
    exact hout hearlier x hx hunused code hhash.symm
  refine ⟨?_, ?_, ?_, ?_⟩
  · rintro later e between e' earlier rfl adminId code hspend hspend'
    have hsince := hspent hr hspend
    have he' : ¬ HandsOut P adminId code e' := by
      obtain ⟨c, hbetween, -, -⟩ := hr.split
      obtain ⟨c', -, -, heq⟩ := hbetween.split
      rw [heq] at hspend' ⊢
      exact not_handsOut_of_spends hspend'
    exact hsince.not_after (fun hleaves => hleaves.2 hspend') he'
  · rintro later e earlier rfl adminId code hspend
    exact (hspent hr hspend).mono (fun _ hx => hx) fun _ hx => hx.1
  · intro adminId code typed hspells hsince c htries hunlocked
    have hcode : hasUnusedCode P adminId code d := by
      refine History.Run.invariant (I := fun h d =>
        History.Since (HandsOut P adminId code)
          (fun x => ¬ IssuesTo adminId x ∧ ¬ Spends P adminId code x ∧ HasFactor adminId x.post) h →
        hasUnusedCode P adminId code d) (fun h => absurd h id) ?_ hr hsince
      rintro h d c hrun henv ih (hout | ⟨⟨hissue, hspend, hfactor⟩, hsince⟩)
      · exact hasUnusedCode_of_handsOut hl henv hout
      · exact hasUnusedCode_step hsha c ⟨hissue, hspend⟩ hfactor (ih hsince)
    have htyped := hasUnusedCode_of_spells hl hspells hcode
    obtain ⟨-, x, hx, hxcode⟩ := hcode
    have hfactor := (hinv hr).holders x hx
    rw [(isUnusedCode_iff.1 hxcode).1] at hfactor
    obtain ⟨admin, hadmin, hfactor⟩ := hfactor
    have hopen := hunlocked admin hadmin
    obtain ⟨now, op⟩ := c
    rcases htries with rfl | ⟨keep, rfl, a, ha, henabled⟩ | ⟨draw, sid, ttl, rfl, ⟨s, hs, rfl⟩, hnew⟩
    · exact accepted_verifyConfirmCode hadmin hopen htyped
    · rw [hadmin] at ha
      cases ha
      exact accepted_disableTotp hadmin
        ((hinv hr).app admin (List.mem_of_find?_eq_some hadmin) henabled) henabled htyped
    · exact accepted_verifySessionTotp hs hadmin hfactor hopen hnew htyped
  · intro admin hadmin hnone c hc he
    obtain ⟨a, ha, hfactor⟩ := (hinv hr).holders c hc
    have hsame : a = admin := Table.eq_of_key (hinv hr).adminIds (List.mem_of_find?_eq_some ha)
      hadmin ((adminById_id ha).trans he)
    rw [hsame, hnone] at hfactor
    cases hfactor

end

/-! ## An account that enrols and uses a code -/

theorem lowerCase_sample : LowerCase .sample := by
  refine ⟨fun _ _ => rfl, fun s => ?_⟩
  simp only [Platform.sample, String.toList_ofList, String.toList_singleton, List.map_cons,
    List.map_nil]
  generalize s.toList = cs
  induction cs with
  | nil => rfl
  | cons c cs ih =>
      rw [List.map_cons, List.flatMap_cons, ← ih, ← List.filter_append, List.singleton_append]

/-- The random bytes of a set of codes. -/
def sampleDraws : List Bytes :=
  (List.range 8).map fun i => [UInt8.ofNat (37 * i + 1), 2, 3, 4, 5, 6, 7]

def sampleCodes : List String := generateRecoveryCodes .sample sampleDraws

/-- An account enrols; the first of its codes is `aebag-bafay`. -/
def enrolCalls : List Call :=
  [⟨0, .createAdmin "1" "salt" ⟨"ada", "correct horse", .user, false⟩⟩,
    ⟨1, .beginTotpEnrolment sampleSecret "a_1"⟩,
    ⟨60000, .confirmTotpEnrolment sampleCodes "a_1" "000000"⟩]

theorem admits_enrolCalls (calls : List Call)
    (h : ∀ c ∈ calls, drawnCodes c = none) :
    History.Admits (step .sample) (env .sample) [] .empty (enrolCalls ++ calls) := by
  have hplain : ∀ (calls : List Call) (hist : List Event) (d : AccountDb),
      (∀ c ∈ calls, drawnCodes c = none) →
        History.Admits (step .sample) (env .sample) hist d calls := by
    intro calls
    induction calls with
    | nil => intros; trivial
    | cons c calls ih =>
        intro hist d hc
        refine ⟨?_, ih _ _ fun x hx => hc x (List.mem_cons_of_mem _ hx)⟩
        intro codes hcodes
        rw [hc c (List.mem_cons_self ..)] at hcodes
        cases hcodes
  refine ⟨by simp [env, drawnCodes], by simp [env, drawnCodes], ?_, hplain calls _ _ h⟩
  intro codes hcodes
  cases hcodes
  exact ⟨sampleDraws, rfl, by decide +kernel, rfl⟩

theorem recovery_codes_enrolled :
    let r := History.replay (step .sample) [] .empty
      (enrolCalls ++ [⟨90000, .verifyConfirmCode "a_1" "AEBAG bafay"⟩])
    Lifecycle .sample r.1 r.2 :=
  recovery_codes (fun _ _ h => (String.append_right_inj _).1 h) lowerCase_sample
    (History.run_replay .start (admits_enrolCalls _ (by simp [drawnCodes])))

/-- A code that was just handed out is refused with a capital letter inserted. -/
theorem inserted_capital_refused :
    let r := History.replay (step .sample) [] .empty enrolCalls
    History.Run (step .sample) (env .sample) .empty r.1 r.2 ∧
      HasFactor "a_1" r.2 ∧ (totpLockedUntil 90000 "a_1" r.2).isNone = true ∧
      (∃ e earlier, r.1 = e :: earlier ∧ HandsOut .sample "a_1" "aebag-bafay" e) ∧
      isRecoveryChar 'A' = false ∧
      isAccepted (step .sample r.2 ⟨90000, .verifyConfirmCode "a_1" "Aaebag-bafay"⟩).2 = false := by
  refine ⟨?_, ?_, by decide +kernel, ?_, by decide, by decide +kernel⟩
  · have hadmits := admits_enrolCalls [] (by simp)
    rw [List.append_nil] at hadmits
    exact History.run_replay .start hadmits
  · exact ⟨_, rfl, by decide +kernel⟩
  · exact ⟨_, _, rfl, sampleCodes, ⟨rfl, rfl⟩, "aebag-bafay", by decide +kernel, rfl⟩

end Recovery

end Outletbox
