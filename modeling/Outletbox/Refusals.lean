import Outletbox.Library.Fallible
import Outletbox.Webauthn

/-!
# What a passkey check throws

The routes turn a `WebAuthnError` into an audited refusal and let every other
error through.  A check *refuses* when that is the only error it throws.  Each
step of `verifyRegistration` and `verifyAssertion` refuses, with one exception:
client data that is the JSON text `null` has no members to read.
-/

namespace Outletbox

/-- The only error thrown is a `WebAuthnError`. -/
def Refuses {α : Type} (r : Except Failure α) : Prop :=
  ∀ e, r = .error e → ∃ reason, e = .webAuthn reason

namespace Refuses

variable {α β : Type}

theorem ok (a : α) : Refuses (.ok a : Except Failure α) := by
  intro e h
  cases h

theorem error (reason : String) : Refuses (.error (.webAuthn reason) : Except Failure α) := by
  intro e h
  cases h
  exact ⟨reason, rfl⟩

/-- A sequence refuses when each of its parts does. -/
theorem bind {x : Except Failure α} {f : α → Except Failure β} (hx : Refuses x)
    (hf : ∀ a, x = .ok a → Refuses (f a)) : Refuses (x >>= f) := by
  cases x with
  | error e =>
      obtain ⟨reason, rfl⟩ := hx e rfl
      exact error reason
  | ok a => exact hf a rfl

theorem guard {c : Prop} [Decidable c] {reason : String} {x : Except Failure α}
    (hx : ¬ c → Refuses x) : Refuses (if c then .error (.webAuthn reason) else x) := by
  by_cases hc : c
  · rw [if_pos hc]
    exact error reason
  · rw [if_neg hc]
    exact hx hc

/-- A check in the middle of a sequence. -/
theorem check {c : Prop} [Decidable c] {reason : String} {f : α → Except Failure β}
    {x : Except Failure β} (hx : Refuses x) :
    Refuses (if c then .error (.webAuthn reason) >>= f else x) :=
  guard fun _ => hx

end Refuses

variable (P : Platform)

/-- A text `fromB64url` decodes. -/
def isB64urlText (s : String) : Bool :=
  s.toList.all isBase64url && s != "" && decide (utf16Length s ≤ 16384)

theorem fromB64url_ok {s : String} (h : isB64urlText s = true) (what : String) :
    fromB64url P s what = .ok (P.base64urlDecode s) := by
  simp only [isB64urlText, Bool.and_eq_true, bne_iff_ne, ne_eq, decide_eq_true_eq] at h
  obtain ⟨⟨hall, hne⟩, hlength⟩ := h
  rw [fromB64url, if_neg]
  simp only [hall, Bool.not_true, Bool.false_or, Bool.or_eq_true, beq_iff_eq, decide_eq_true_eq,
    hne, false_or, not_lt]
  exact hlength

theorem fromB64url_error {s : String} (h : isB64urlText s = false) (what : String) :
    fromB64url P s what = .error (.webAuthn ("malformed " ++ what)) := by
  rw [fromB64url, if_pos]
  simp only [isB64urlText, Bool.and_eq_false_iff, bne_eq_false_iff_eq, decide_eq_false_iff_not,
    not_le] at h
  simpa only [Bool.or_eq_true, Bool.not_eq_true', beq_iff_eq, decide_eq_true_eq] using h

theorem fromB64url_refuses (s what : String) : Refuses (fromB64url P s what) := by
  cases h : isB64urlText s with
  | true => rw [fromB64url_ok P h]; exact .ok _
  | false => rw [fromB64url_error P h]; exact .error _

theorem parseAuthData_refuses (data : Bytes) : Refuses (parseAuthData data) := by
  refine .guard fun _ => ?_
  simp only []
  split
  · exact .guard fun _ => .guard fun _ => .ok _
  · exact .ok _

theorem checkAuthData_refuses (ad : AuthData) (exp : Expected) :
    Refuses (checkAuthData P ad exp) :=
  .guard fun _ => .guard fun _ => .ok _

theorem importCredentialKey_refuses (spki : Bytes) (alg : Int) :
    Refuses (importCredentialKey P spki alg) := by
  rw [importCredentialKey]
  cases P.spkiKey spki with
  | none => exact .error _
  | some key =>
      simp only []
      split
      · exact .ok _
      · exact .error _

/-! ## Client data -/

/-- A value that is not `null` has members, some of them undefined. -/
theorem member_eq_ok {cd : Json} (h : cd ≠ .null) (name : String) : ∃ v, cd.member name = .ok v := by
  cases cd with
  | null => exact absurd rfl h
  | bool b => exact ⟨none, rfl⟩
  | num n => exact ⟨none, rfl⟩
  | str s => exact ⟨none, rfl⟩
  | arr items => exact ⟨none, rfl⟩
  | obj members => exact ⟨_, rfl⟩

theorem member_refuses {cd : Json} (h : cd ≠ .null) (name : String) : Refuses (cd.member name) := by
  obtain ⟨v, hv⟩ := member_eq_ok h name
  rw [hv]
  exact .ok v

theorem checkClientData_refuses {data : Bytes} (h : P.parseJson data ≠ some .null)
    (type : String) (exp : Expected) : Refuses (checkClientData P data type exp) := by
  rw [checkClientData]
  cases hparse : P.parseJson data with
  | none => exact .error _
  | some cd =>
      have hcd : cd ≠ .null := by
        rintro rfl
        exact h hparse
      refine .bind (member_refuses hcd _) fun type' _ => .check ?_
      refine .bind (member_refuses hcd _) fun challenge _ => ?_
      -- what follows each check that may end the function
      extract_lets last rest
      have hlast : Refuses (last ()) := by
        refine .bind (member_refuses hcd _) fun crossOrigin _ => ?_
        split
        · exact .error _
        · exact .ok ()
      have hrest : Refuses (rest ()) := .bind (member_refuses hcd _) fun origin _ => .check hlast
      cases Json.text? challenge with
      | none => exact .error _
      | some challenge =>
          exact .bind (fromB64url_refuses P _ _) fun given _ =>
            .bind (fromB64url_refuses P _ _) fun issued _ => .check hrest

/-- Reading a member of `null` is a `TypeError`. -/
theorem checkClientData_null {data : Bytes} (h : P.parseJson data = some .null) (type : String)
    (exp : Expected) :
    checkClientData P data type exp = .error (.error "Cannot read properties of null") := by
  rw [checkClientData, h]
  rfl

theorem checkClientData_refuses_iff (data : Bytes) (type : String) (exp : Expected) :
    Refuses (checkClientData P data type exp) ↔ P.parseJson data ≠ some .null := by
  constructor
  · intro h hnull
    obtain ⟨reason, hreason⟩ := h _ (checkClientData_null P hnull type exp)
    cases hreason
  · intro h
    exact checkClientData_refuses P h type exp

/-! ## The two ceremonies -/

/-- The text decodes to the JSON text `null`. -/
def IsNullText (s : String) : Prop :=
  isB64urlText s = true ∧ P.parseJson (P.base64urlDecode s) = some .null

/-- What runs after a step that throws another error is never reached. -/
theorem not_refuses_bind {α β : Type} {x : Except Failure α} {f : α → Except Failure β}
    (hx : ¬ Refuses x) : ¬ Refuses (x >>= f) := by
  intro h
  refine hx fun e he => h e ?_
  rw [he]
  rfl

theorem verifyRegistration_refuses_iff (input : RegistrationInput) (exp : Expected) :
    Refuses (verifyRegistration P input exp) ↔ ¬ IsNullText P input.clientDataJSON := by
  constructor
  · rintro h ⟨htext, hnull⟩
    refine absurd h ?_
    rw [verifyRegistration, fromB64url_ok P htext, Fallible.ok_bind]
    exact not_refuses_bind (mt (checkClientData_refuses_iff P ..).1 (not_not.2 hnull))
  · intro h
    refine .bind (fromB64url_refuses P _ _) fun data hdata => ?_
    have hnull : P.parseJson data ≠ some .null := by
      intro hnull
      cases htext : isB64urlText input.clientDataJSON with
      | true =>
          rw [fromB64url_ok P htext] at hdata
          cases hdata
          exact h ⟨htext, hnull⟩
      | false =>
          rw [fromB64url_error P htext] at hdata
          cases hdata
    refine .bind (checkClientData_refuses P hnull _ exp) fun _ _ =>
      .bind (fromB64url_refuses P _ _) fun auth _ => .bind (parseAuthData_refuses auth) fun ad _ =>
        .bind (checkAuthData_refuses P ad exp) fun _ _ => ?_
    cases ad.credentialId with
    | none => exact .error _
    | some attested =>
        refine .bind (fromB64url_refuses P _ _) fun credId _ => .guard fun _ => ?_
        cases input.algorithm with
        | none => exact .error _
        | some algorithm =>
            exact .guard fun _ => .bind (fromB64url_refuses P _ _) fun spki _ =>
              .bind (importCredentialKey_refuses P spki algorithm) fun _ _ => .ok _

theorem verifyAssertion_refuses_iff (input : AssertionInput) (cred : StoredCredential)
    (exp : Expected) :
    Refuses (verifyAssertion P input cred exp) ↔
      ¬ (IsNullText P input.clientDataJSON ∧ isB64urlText input.authenticatorData = true ∧
        isB64urlText input.signature = true) := by
  constructor
  · rintro h ⟨⟨htext, hnull⟩, hauth, hsignature⟩
    refine absurd h ?_
    rw [verifyAssertion, fromB64url_ok P htext, Fallible.ok_bind, fromB64url_ok P hauth,
      Fallible.ok_bind, fromB64url_ok P hsignature, Fallible.ok_bind]
    exact not_refuses_bind (mt (checkClientData_refuses_iff P ..).1 (not_not.2 hnull))
  · intro h
    cases htext : isB64urlText input.clientDataJSON with
    | false =>
        rw [verifyAssertion, fromB64url_error P htext]
        exact .error _
    | true =>
    cases hauth : isB64urlText input.authenticatorData with
    | false =>
        rw [verifyAssertion, fromB64url_ok P htext, Fallible.ok_bind, fromB64url_error P hauth]
        exact .error _
    | true =>
    cases hsignature : isB64urlText input.signature with
    | false =>
        rw [verifyAssertion, fromB64url_ok P htext, Fallible.ok_bind, fromB64url_ok P hauth,
          Fallible.ok_bind, fromB64url_error P hsignature]
        exact .error _
    | true =>
        have hnull : P.parseJson (P.base64urlDecode input.clientDataJSON) ≠ some .null :=
          fun hnull => h ⟨⟨htext, hnull⟩, hauth, hsignature⟩
        rw [verifyAssertion, fromB64url_ok P htext, Fallible.ok_bind, fromB64url_ok P hauth,
          Fallible.ok_bind, fromB64url_ok P hsignature, Fallible.ok_bind]
        exact .bind (checkClientData_refuses P hnull _ exp) fun _ _ =>
          .bind (parseAuthData_refuses _) fun ad _ => .bind (checkAuthData_refuses P ad exp) fun _ _ =>
            .bind (importCredentialKey_refuses P _ _) fun key _ =>
              .guard fun _ => .guard fun _ => .ok _

/-- A malformed answer is refused, whatever is wrong with it, unless the client
data is the JSON text `null` and the function gets as far as to read it. -/
theorem malformed_refused_iff (exp : Expected) :
    (∀ input : RegistrationInput, Refuses (verifyRegistration P input exp) ↔
      ¬ IsNullText P input.clientDataJSON) ∧
    ∀ (input : AssertionInput) (cred : StoredCredential), Refuses (verifyAssertion P input cred exp) ↔
      ¬ (IsNullText P input.clientDataJSON ∧ isB64urlText input.authenticatorData = true ∧
        isB64urlText input.signature = true) :=
  ⟨fun input => verifyRegistration_refuses_iff P input exp,
    fun input cred => verifyAssertion_refuses_iff P input cred exp⟩

/-- A host that reads the base64url text `bnVsbA` and the JSON text it decodes to. -/
def nullHost : Platform :=
  { Platform.sample with
    base64urlDecode := fun s =>
      if s = "bnVsbA" then [0x6e, 0x75, 0x6c, 0x6c] else Platform.sample.base64urlDecode s
    parseJson := fun data => if data = [0x6e, 0x75, 0x6c, 0x6c] then some .null else none }

/-- An answer whose client data is `null` throws a `TypeError`. -/
theorem null_client_data :
    (let input : RegistrationInput := ⟨"bnVsbA", "AA", "AA", some (-7), "AA"⟩
     ¬ Refuses (verifyRegistration nullHost input
       ⟨"AA", "https://drop.example.com", "drop.example.com"⟩)) ∧
    ¬ Refuses (verifyAssertion nullHost ⟨"bnVsbA", "AA", "AA"⟩ ⟨"AA", -7, 0⟩
      ⟨"AA", "https://drop.example.com", "drop.example.com"⟩) := by
  have htext : IsNullText nullHost "bnVsbA" := ⟨by decide, rfl⟩
  constructor
  · exact mt (verifyRegistration_refuses_iff _ _ _).1 (not_not.2 htext)
  · exact mt (verifyAssertion_refuses_iff _ _ _ _).1 (not_not.2 ⟨htext, by decide, by decide⟩)

end Outletbox
