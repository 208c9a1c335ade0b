import Outletbox.AddressBook
import Outletbox.Forgery
import Outletbox.Library.Throws
import Outletbox.Refusals
import Outletbox.Validity

/-!
# The error handler

An exception no handler catches ends as the answer 500.  Every check a handler makes
has an answer of its own, the rows it reads stand in the tables the schema keeps, and
what it writes back was valid when it was stored.  What is left to go wrong is a random
value that was drawn before, a storage that fails, a library that breaks its contract,
one text a browser may send, and an opening limit from 2^53 up, which the form takes and
the database does not give back.  A request is one step here, so the account it acts for
is still there when its handler runs.
-/

namespace Outletbox

namespace Faults

open Fallible (Throws)
open Statements

variable (P : Platform) (cfg : Config)

/-! ## What may go wrong -/

/-- A session has the identifier or the public name drawn for a new one. -/
def SessionTaken (req : Request) (d : AccountDb) : Prop :=
  ∃ s ∈ d.sessions, s.idHash = P.sha256Hex req.random.sessionId ∨
    s.publicId = newId "s" req.random.publicId

/-- A device binding has the identifier drawn for a new one. -/
def BindingTaken (req : Request) (d : AccountDb) : Prop :=
  ∃ b ∈ d.bindings, b.id = newId "b" req.random.id

/-- A passkey has the identifier drawn for a new one. -/
def PasskeyTaken (req : Request) (d : AccountDb) : Prop :=
  ∃ p ∈ d.passkeys, p.id = newId "pk" req.random.id

/-- An account has the identifier drawn for a new one. -/
def AccountTaken (req : Request) (d : AccountDb) : Prop :=
  ∃ a ∈ d.admins, a.id = newId "a" req.random.id

/-- An item has the identifier drawn for a new upload. -/
def ItemTaken (req : Request) (d : DeliveryDb) : Prop :=
  ∃ i ∈ d.items, i.id = newId "f" req.random.id

/-- A link has the token drawn for a new URL. -/
def TokenTaken (req : Request) (d : DeliveryDb) : Prop :=
  ∃ l ∈ d.links, l.tokenHash = P.sha256Hex req.random.token

/-- A code has the identifier drawn for a new one. -/
def CodeTaken (req : Request) (d : DeliveryDb) : Prop :=
  ∃ c ∈ d.challenges, c.id = newId "ch" req.random.id

/-- A visit has the identifier drawn for a new one. -/
def AccessTaken (req : Request) (d : DeliveryDb) : Prop :=
  ∃ a ∈ d.accessSessions, a.idHash = P.sha256Hex req.random.sessionId

/-- The row of a link cannot be read. -/
def RowUnreadable (id : String) (d : DeliveryDb) : Prop :=
  ∃ l ∈ d.links, l.id = id ∧ l.isReadable = false

/-- A link of a case cannot be read, and the page of the case lists it. -/
def CaseUnreadable (id : String) (d : DeliveryDb) : Prop :=
  ∃ l ∈ d.links, l.caseId = id ∧ l.isReadable = false

/-- The page of the case of a link cannot be shown. -/
def LinkUnreadable (id : String) (d : DeliveryDb) : Prop :=
  ∃ l ∈ d.links, l.id = id ∧ CaseUnreadable l.caseId d

/-- The link a URL opens cannot be read. -/
def TokenUnreadable (token : String) (d : DeliveryDb) : Prop :=
  ∃ l ∈ d.links, l.tokenHash = P.sha256Hex token ∧ l.isReadable = false

/-- The form sets an opening limit that cannot be read back. -/
def LimitUnreadable (req : Request) : Prop :=
  ∃ m : Nat, maxOpensFromForm P req = some (some (m : Int)) ∧ readable m = false

/-- The client data a browser sends with a passkey is the JSON text `null`. -/
def NullClientData (req : Request) : Prop := IsNullText P (req.field "client_data")

/-- The announced size is not an integer a double can hold. -/
def UnsafeSize (size : Option Nat) : Prop := size.any (maxSafeInteger < ·) = true

/-- The library reports the end of an upload whose bytes are not all there. -/
def CutShort (upload : TusUpload) : Prop := upload.size ≠ some upload.offset

/-- What `startUpload` throws besides the limit. -/
def startCause (req : Request) (size : Option Nat) (d : DeliveryDb) : Prop :=
  UnsafeSize size ∨ ItemTaken req d

def openCause (route : OpenRoute) (req : Request) (d : AccountDb) : Prop :=
  match route with
  | .dbscRegister => BindingTaken req d
  | .login => SessionTaken P req d
  | .dbscRefresh | .loginPage => False

def pendingCause (route : PendingRoute) (req : Request) (d : AccountDb) : Prop :=
  match route with
  | .passkeyLogin => NullClientData P req ∨ SessionTaken P req d
  | .totp => SessionTaken P req d
  | .logout | .totpPage | .passkeyLoginOptions => False

def settingsCause (route : SettingsRoute) (req : Request) (d : AccountDb) : Prop :=
  match route with
  | .confirmPasskey => NullClientData P req
  | .passkeys => NullClientData P req ∨ PasskeyTaken req d
  | _ => False

def tusCause (request : TusRequest) (req : Request) (d : DeliveryDb) : Prop :=
  match request with
  | .post (some upload) finished =>
      startCause req upload.size d ∨ finished = true ∧ CutShort upload
  | .patch (some upload) => CutShort upload
  | _ => False

def workCause (route : WorkRoute) (req : Request) (d : DeliveryDb) : Prop :=
  match route with
  | .case id | .updateCase id | .note id | .addMember id | .removeMember id _ =>
      CaseUnreadable id d
  | .createLink id => CaseUnreadable id d ∨ LimitUnreadable P req
  | .reissue id => TokenTaken P req d ∨ LinkUnreadable id d
  | .addRecipients id | .removeRecipient id _ => LinkUnreadable id d
  | .revoke id => RowUnreadable id d
  | .download _ | .deleteItem _ => req.stored = .failed
  | .upload _ _ declared _ => startCause req declared d
  | .tus _ request => tusCause request req d
  | _ => False

/-- The password of a new account is drawn like its identifier, and checked like one that is
typed. -/
def userCause (route : UserRoute) (req : Request) (d : AccountDb) : Prop :=
  match route with
  | .create => utf16Length req.random.password < minPasswordLength ∨ AccountTaken req d
  | _ => False

def deliverCause (route : DeliverRoute) (req : Request) (d : DeliveryDb) : Prop :=
  match route with
  | .email => CodeTaken req d
  | .code => AccessTaken P req d
  | .file _ => req.stored = .failed
  | .page | .restart | .close => False

def panelCause (route : PanelRoute) (req : Request) (accounts : AccountDb) (d : DeliveryDb) :
    Prop :=
  match route with
  | .pending route => pendingCause P route req accounts
  | .settings route => settingsCause P route req accounts
  | .work route => workCause P route req d
  | .users route => userCause route req accounts
  | .groups _ | .audit => False

/-- What has to go wrong before a step of the server ends in the error handler. -/
def Cause (sv : Server) : Input → Prop
  | .deliver r =>
      deliverCause P r.route r.toRequest sv.deliveries ∨ TokenUnreadable P r.token sv.deliveries
  | .visit r => openCause P r.route r.toRequest sv.accounts
  | .panel r => panelCause P r.route r.toRequest sv.accounts sv.deliveries
  | .cleanup _ | .cli _ _ _ => False

/-- The answer 500. -/
def isFault : Answer → Bool
  | .deliver response => response.status == 500
  | .panel response => response.status == 500
  | .done => false

/-- An outcome that ends in the error handler has a cause. -/
def FailsFor {σ π : Type} (Q : Prop) (out : Outcome σ π) : Prop :=
  out.response.status = 500 → Q

/-- The error of a proof of a device key. -/
def IsDbsc (e : Failure) : Prop := ∃ reason, e = .dbsc reason

/-- The error of a passkey check, or the text it cannot read. -/
def IsWebAuthn (text : String) (e : Failure) : Prop :=
  (∃ reason, e = .webAuthn reason) ∨ IsNullText P text

section

variable {P} {cfg} {σ π : Type} {Q Q' : Prop} {out : Outcome σ π}

/-- An answer with another status. -/
theorem FailsFor.of (n : Nat) (h : out.response.status = n) (hn : n ≠ 500) : FailsFor Q out :=
  fun hfault => absurd (h.symm.trans hfault) hn

theorem FailsFor.ne (h : out.response.status ≠ 500) : FailsFor Q out :=
  fun hfault => absurd hfault h

theorem FailsFor.mono (h : FailsFor Q out) (hq : Q → Q') : FailsFor Q' out :=
  fun hfault => hq (h hfault)

/-! ## Proofs of a device key -/

theorem isDbsc (reason : String) : IsDbsc (.dbsc reason) := ⟨reason, rfl⟩

theorem throws_jwtPart (s : String) :
    Throws IsDbsc (jwtPart P s) := by
  unfold jwtPart
  split
  · exact .ok _
  · exact .error (isDbsc _)

/-- A part of a JWT is an object, so its members can be read. -/
theorem member_of_jwtPart {s : String} {part : Json} (h : jwtPart P s = .ok part) (name : String) :
    Throws IsDbsc (part.member name) := by
  unfold jwtPart at h
  split at h
  · cases h
    obtain ⟨v, hv⟩ := member_eq_ok (Json.noConfusion : Json.obj _ ≠ .null) name
    rw [hv]
    exact .ok v
  · cases h

/-- A key of the wrong kind is refused like any other bad proof. -/
theorem throws_publicJwk (jwk : Option Json) : Throws IsDbsc (publicJwk jwk) := by
  unfold publicJwk
  split
  · dsimp only
    split
    · split
      · exact .ok _
      · exact .error (isDbsc _)
    split
    · split
      · exact .ok _
      · exact .error (isDbsc _)
    · exact .error (isDbsc _)
  · exact .error (isDbsc _)
  · exact .error (isDbsc _)

theorem throws_keyFor (alg : DbscAlg) (jwk : JsonWebKey) : Throws IsDbsc (keyFor P alg jwk) := by
  unfold keyFor
  split
  · exact .error (isDbsc _)
  split
  · split
    · exact .ok _
    · exact .error (isDbsc _)
  · split
    · exact .ok _
    · exact .error (isDbsc _)

theorem throws_dbscAlg (alg : Option String) : Throws IsDbsc (dbscAlg alg) := by
  unfold dbscAlg
  split
  · exact .ok _
  · exact .ok _
  · exact .error (isDbsc _)

/-- A malformed proof is refused, whatever is wrong with it. -/
theorem throws_verifyProof (jwt : String) (known : Option (DbscAlg × JsonWebKey)) :
    Throws IsDbsc (verifyProof P jwt known) := by
  unfold verifyProof
  split
  · refine .bind (throws_jwtPart _) fun header hheader =>
      .bind (throws_jwtPart _) fun payload _ => ?_
    simp only [Fallible.ok_bind, Fallible.error_bind]
    refine .guard (fun _ => isDbsc _) fun _ => .bind (throws_dbscAlg _) fun alg _ => ?_
    -- what follows once the key is known
    cases known with
    | some known =>
        obtain ⟨knownAlg, jwk⟩ := known
        refine .guard (fun _ => isDbsc _) fun _ => .bind (throws_keyFor alg jwk) fun key _ =>
          .guard (fun _ => isDbsc _) fun _ => ?_
        split
        · exact .guard (fun _ => isDbsc _) fun _ => .ok _
        · exact .error (isDbsc _)
    | none =>
        refine .bind (member_of_jwtPart hheader _) fun member _ =>
          .bind (throws_publicJwk member) fun jwk _ => .bind (throws_keyFor alg jwk) fun key _ =>
            .guard (fun _ => isDbsc _) fun _ => ?_
        split
        · exact .guard (fun _ => isDbsc _) fun _ => .ok _
        · exact .error (isDbsc _)
  · exact .error (isDbsc _)

/-! ## Device-bound sessions -/

variable {now : Int} {d : AccountDb} {req : Request}

/-- A binding is refused, or its identifier was drawn before. -/
theorem throws_registerBinding (sessionId jwt : String) :
    Throws (fun e => IsDbsc e ∨ BindingTaken req d)
      (registerBinding P now req.bindingDraw sessionId jwt d) := by
  unfold registerBinding
  refine .bind ((throws_verifyProof jwt none).mono fun e he => .inl he) fun proof _ => ?_
  split
  · refine .guard (fun _ => .inl (isDbsc _)) fun _ => .guard (fun _ => .inl (isDbsc _)) fun _ =>
      .guard (fun _ => .inl (isDbsc _)) fun _ => .guard (fun htaken => .inr ?_) fun _ => .ok _
    obtain ⟨b, hb, hid⟩ := List.any_eq_true.1 htaken
    exact ⟨b, hb, beq_iff_eq.1 hid⟩
  · exact .error (.inl (isDbsc _))

/-- A refresh throws only where the proof it is shown is bad. -/
theorem throws_refreshBinding (draw : BindingDraw) (id : String) (jwt : Option String) :
    Throws IsDbsc (refreshBinding P now draw id jwt d) := by
  unfold refreshBinding
  split
  · exact .ok _
  split
  · exact .ok _
  split
  · exact .ok _
  refine .bind (throws_verifyProof _ _) fun proof _ => ?_
  split
  · split
    · exact .ok _
    · exact .ok _
  · exact .ok _

theorem fails_dbscRegister (signed : Option Signed) :
    FailsFor (BindingTaken req d) (dbscRegister P cfg req signed d) := by
  unfold dbscRegister
  dsimp only
  split
  · rename_i s jwt hjwt
    split
    · exact .of 400 rfl (by decide)
    split
    · exact .of 200 rfl (by decide)
    · exact .of 400 rfl (by decide)
    · rename_i e hother herror
      intro _
      rcases throws_registerBinding _ _ e herror with ⟨reason, rfl⟩ | htaken
      · exact absurd rfl (hother reason)
      · exact htaken
  · exact .of 400 rfl (by decide)

/-- The refresh of a binding draws nothing that has to be new. -/
theorem fails_dbscRefresh : FailsFor False (dbscRefresh P cfg req d) := by
  unfold dbscRefresh
  dsimp only
  split
  · exact .of 400 rfl (by decide)
  split
  · exact .of 401 rfl (by decide)
  · rename_i e hother herror
    obtain ⟨reason, rfl⟩ := throws_refreshBinding _ _ _ e herror
    exact absurd rfl (hother reason)
  · exact .of 401 rfl (by decide)
  · exact .of 403 rfl (by decide)
  · exact .of 200 rfl (by decide)

/-! ## Signing in -/

/-- The account is there, so only a key of the new row can be in the way. -/
theorem throws_insertSession {row : SessionRow} (hadmin : (adminById row.adminId d).isSome = true) :
    Throws (fun _ => ∃ s ∈ d.sessions, s.idHash = row.idHash ∨ s.publicId = row.publicId)
      (insertSession row d) := by
  refine .guard (fun htaken => ?_) fun _ => .ok _
  rcases Bool.or_eq_true_iff.1 htaken with htaken | hnone
  · obtain ⟨s, hs, hsame⟩ := List.any_eq_true.1 htaken
    exact ⟨s, hs, by simpa using hsame⟩
  · rw [Option.isNone_iff_eq_none.1 hnone] at hadmin
    cases hadmin

/-- Who may sign in has a row. -/
theorem loginAdmin_row {admin : Admin} (h : loginAdmin P req d = some admin) :
    (adminById admin.id d).isSome = true := by
  unfold loginAdmin at h
  dsimp only at h
  split at h
  · cases h
  unfold authenticate at h
  split at h
  · cases h
  rename_i row hrow
  split at h
  · cases h
  cases h
  rw [adminById, List.find?_isSome]
  exact ⟨row, List.mem_of_find?_eq_some hrow, beq_self_eq_true row.id⟩

theorem fails_postLogin : FailsFor (SessionTaken P req d) (postLogin P cfg req d) := by
  unfold postLogin
  split
  · exact .of 401 rfl (by decide)
  rename_i admin hadmin
  dsimp only
  split
  · rename_i e herror
    exact fun _ => throws_insertSession (loginAdmin_row hadmin) e herror
  split
  · exact .of 303 rfl (by decide)
  · exact .of 303 rfl (by decide)

/-- Of the open routes, those that draw an identifier may fail. -/
theorem fails_open (route : OpenRoute) (signed : Option Signed) :
    FailsFor (openCause P route req d) (route.handle P cfg req signed d) := by
  cases route with
  | dbscRegister => exact fails_dbscRegister signed
  | dbscRefresh => exact fails_dbscRefresh
  | loginPage =>
      cases signed with
      | none => exact .of 200 rfl (by decide)
      | some s => exact .of 302 rfl (by decide)
  | login => exact fails_postLogin

/-! ## The second step -/

/-- The pending session is replaced unless the identifiers of the new one are taken. -/
theorem throws_completeSecondFactor {pending : String} {account : Admin} {ttlMs : Nat}
    {factor : SecondFactor} (hadmin : (adminById account.id d).isSome = true) :
    Throws (fun _ => SessionTaken P req d)
      (completeSecondFactor P now req.sessionDraw pending account ttlMs factor d) := by
  intro e herror
  obtain ⟨a, ha⟩ := Option.isSome_iff_exists.1 hadmin
  by_contra hfree
  obtain ⟨d', hdone⟩ : ∃ d', completeSecondFactor P now req.sessionDraw pending account ttlMs factor
      d = .ok d' :=
    completeSecondFactor_succeeds ha fun s hs =>
      ⟨fun h => hfree ⟨s, hs, .inl h⟩, fun h => hfree ⟨s, hs, .inr h⟩⟩
  rw [hdone] at herror
  cases herror

/-- A right code opens a session; a wrong one is only counted. -/
theorem throws_verifySessionTotp {sessionId code : String} {ttlMs : Nat} :
    Throws (fun _ => SessionTaken P req d)
      (verifySessionTotp P now req.sessionDraw sessionId code ttlMs d) := by
  unfold verifySessionTotp
  dsimp only
  split
  · exact .ok _
  split
  · exact .ok _
  rename_i admin hadmin
  split
  · exact .ok _
  split
  · exact .ok _
  have hcheck := checked (P := P) now admin code d
  generalize checkFactor P now admin code d = answer at hcheck
  obtain ⟨factor, d₁⟩ := answer
  have hid := adminById_id hadmin
  cases hcheck with
  | totp step _ =>
      have haccount : (adminById admin.id (acceptStep step admin.id d)).isSome = true := by
        rw [acceptStep, adminById_updateAdmin (by exact fun _ => rfl), hid, hadmin]
        rfl
      exact .bind (throws_completeSecondFactor haccount) fun _ _ => .ok _
  | recovery =>
      have haccount : (adminById admin.id (useCode P now admin.id code d)).isSome = true := by
        have hsame : adminById admin.id (useCode P now admin.id code d) = adminById admin.id d :=
          adminById_of_admins rfl _
        rw [hsame, hid, hadmin]
        rfl
      exact .bind (throws_completeSecondFactor haccount) fun _ _ => .ok _
  | wrong =>
      dsimp only
      split
      · exact .ok _
      split
      · exact .ok _
      · exact .ok _

theorem fails_postTotp (s : Signed) :
    FailsFor (SessionTaken P req d) (postTotp P cfg req s d) := by
  unfold postTotp
  dsimp only
  split
  · exact .of 303 rfl (by decide)
  split
  · rename_i e herror
    exact fun _ => throws_verifySessionTotp e herror
  · exact .of 303 rfl (by decide)
  · exact .of 401 rfl (by decide)
  · exact .of 401 rfl (by decide)

/-! ## Passkeys -/

theorem throws_pendingCeremony (now : Int) (idHash : String) (purpose : CeremonyPurpose) :
    Refuses (pendingCeremony now idHash purpose d) := by
  unfold pendingCeremony
  split
  · exact .error _
  split
  · split
    · exact .ok _
    · exact .error _
  · exact .error _

/-- A failed assertion is refused, save for the text `null`. -/
theorem throws_checkAssertion (now : Int) (purpose : CeremonyPurpose) (input : AssertPasskeyInput)
    (rp : RelyingParty) :
    Throws (IsWebAuthn P input.answer.clientDataJSON)
      (checkAssertion P now purpose input rp d).1 := by
  unfold checkAssertion takeChallenge
  dsimp only
  split
  · rename_i e herror
    exact .error (.inl (throws_pendingCeremony _ _ _ e herror))
  split
  · exact .error (.inl ⟨_, rfl⟩)
  split
  · rename_i e herror
    by_cases hnull : IsNullText P input.answer.clientDataJSON
    · exact .error (.inr hnull)
    · exact .error (.inl ((verifyAssertion_refuses_iff P _ _ _).2 (fun h => hnull h.1) e herror))
  · exact .ok ()

/-- A good assertion opens a session as a right code does. -/
theorem throws_verifyPasskeyLogin (now : Int) (req : Request) (input : AssertPasskeyInput)
    (rp : RelyingParty) {account : Admin} (ttlMs : Nat)
    (hadmin : (adminById account.id d).isSome = true) :
    Throws (fun e => IsWebAuthn P input.answer.clientDataJSON e ∨ SessionTaken P req d)
      (verifyPasskeyLogin P now req.sessionDraw input rp account ttlMs d).1 := by
  have hthrows := throws_checkAssertion (P := P) (d := d) now .login input rp
  unfold verifyPasskeyLogin
  rcases checkAssertion_cases (P := P) now .login input rp d with
    ⟨e, h⟩ | ⟨_, cred, count, _, _, h⟩
  · rw [h] at hthrows ⊢
    exact hthrows.mono fun e he => .inl he
  · rw [h]
    dsimp only
    split
    · rename_i e herror
      refine .error (.inr ?_)
      obtain ⟨x, hx, htaken⟩ := throws_completeSecondFactor (d := recordUse now cred.id count
        (dropChallenge (P.sha256Hex input.sessionId) d)) hadmin e herror
      obtain ⟨x₀, hx₀, rfl⟩ := Table.mem_update.1 hx
      refine ⟨x₀, hx₀, ?_⟩
      split at htaken
      · exact htaken
      · exact htaken
    · exact .ok ()

theorem fails_passkeyLogin {s : Signed} (hadmin : (adminById s.admin.id d).isSome = true) :
    FailsFor (NullClientData P req ∨ SessionTaken P req d) (passkeyLogin P cfg req s d) := by
  unfold passkeyLogin
  split
  · exact .of 200 rfl (by decide)
  have hthrows := throws_verifyPasskeyLogin (P := P) req.now req (assertion req s)
    (relyingParty cfg) cfg.sessionTtlMs hadmin
  split
  · exact .of 200 rfl (by decide)
  · exact .of 401 rfl (by decide)
  · rename_i e _ hother herror
    rw [herror] at hthrows
    intro _
    rcases hthrows e rfl with (⟨reason, rfl⟩ | hnull) | htaken
    · exact absurd rfl (hother reason)
    · exact .inl hnull
    · exact .inr htaken

theorem fails_confirmPasskey (s : Signed) :
    FailsFor (NullClientData P req) (confirmPasskey P cfg req s d) := by
  have hthrows := throws_checkAssertion (P := P) (d := d) req.now .confirm (assertion req s)
    (relyingParty cfg)
  unfold confirmPasskey verifyPasskeyConfirm
  split
  · exact .of 200 rfl (by decide)
  · exact .of 401 rfl (by decide)
  · rename_i e _ hother herror
    rw [herror] at hthrows
    intro _
    rcases hthrows e rfl with ⟨reason, rfl⟩ | hnull
    · exact absurd rfl (hother reason)
    · exact hnull

/-- A registration is refused, save for the text `null` and a key drawn before. -/
theorem throws_registerPasskey {input : RegisterPasskeyInput} {rp : RelyingParty}
    (hadmin : (adminById input.adminId d).isSome = true) :
    Throws (fun e => IsWebAuthn P input.answer.clientDataJSON e ∨ PasskeyTaken req d)
      (registerPasskey P now req.random.id input rp d) := by
  unfold registerPasskey takeChallenge
  dsimp only
  have hpending := throws_pendingCeremony (d := d) now (P.sha256Hex input.sessionId) .register
  refine .bind (fun e he => .inl (.inl (hpending e he))) fun challenge _ => ?_
  refine .bind (fun e herror => .inl ?_) fun reg _ => ?_
  · by_cases hnull : IsNullText P input.answer.clientDataJSON
    · exact .inr hnull
    · exact .inl ((verifyRegistration_refuses_iff P _ _).2 hnull e herror)
  refine .guard (fun _ => .inl (.inl ⟨_, rfl⟩)) fun _ =>
    .guard (fun _ => .inl (.inl ⟨_, rfl⟩)) fun _ =>
      .guard (fun htaken => .inr ?_) fun _ => .ok _
  rcases Bool.or_eq_true_iff.1 htaken with htaken | hnone
  · obtain ⟨p, hp, hid⟩ := List.any_eq_true.1 htaken
    exact ⟨p, hp, beq_iff_eq.1 hid⟩
  · change (adminById input.adminId d).isNone = true at hnone
    rw [Option.isNone_iff_eq_none.1 hnone] at hadmin
    cases hadmin

theorem fails_postPasskey {s : Signed} {st : AccountState}
    (hadmin : (adminById s.admin.id st.accounts).isSome = true) :
    FailsFor (NullClientData P req ∨ PasskeyTaken req st.accounts)
      (postPasskey P cfg req s st) := by
  unfold postPasskey
  dsimp only
  split
  · split
    · exact .of 200 rfl (by decide)
    · exact .of 200 rfl (by decide)
  · exact .of 400 rfl (by decide)
  · rename_i e hother herror
    intro _
    rcases throws_registerPasskey hadmin e herror with (⟨reason, rfl⟩ | hnull) | htaken
    · exact absurd rfl (hother reason)
    · exact .inl hnull
    · exact .inr htaken

/-! ## The account routes -/

theorem FailsFor.keep {out : Outcome AccountDb PanelPage} (h : FailsFor Q out)
    (flashes : List Flash) : FailsFor Q (keepFlashes flashes out) :=
  h

theorem FailsFor.into {out : Outcome σ π} {τ : Type} (h : FailsFor Q out) (f : σ → τ) :
    FailsFor Q (out.into f) :=
  h

variable {s : Signed}

theorem answers_ceremonyOptions (purpose : CeremonyPurpose) :
    FailsFor Q (ceremonyOptions P cfg req s purpose d) := by
  unfold ceremonyOptions
  dsimp only
  split
  · exact .of 400 rfl (by decide)
  · exact .of 200 rfl (by decide)

theorem answers_totpPage : FailsFor Q (PendingRoute.totpPage.handle P cfg req s d) := by
  rw [PendingRoute.handle, totpPage]
  split
  · exact .of 302 rfl (by decide)
  · exact .of 200 rfl (by decide)

/-- The second step of a login, route by route. -/
theorem fails_pending (route : PendingRoute) (hadmin : (adminById s.admin.id d).isSome = true) :
    FailsFor (pendingCause P route req d) (route.handle P cfg req s d) := by
  cases route with
  | logout => exact .of 303 rfl (by decide)
  | totpPage => exact answers_totpPage
  | passkeyLoginOptions =>
      rw [PendingRoute.handle, Outletbox.passkeyLoginOptions]
      split
      · exact .of 200 rfl (by decide)
      · exact answers_ceremonyOptions _
  | passkeyLogin => exact fails_passkeyLogin hadmin
  | totp => exact fails_postTotp s

theorem answers_confirmCode : FailsFor Q (confirmCode P cfg req s d) := by
  unfold confirmCode
  dsimp only
  split
  · exact .of 303 rfl (by decide)
  · exact .of 401 rfl (by decide)
  · exact .of 401 rfl (by decide)

theorem answers_confirmPassword : FailsFor Q (confirmPassword P cfg req s d) := by
  unfold confirmPassword
  split
  · exact .of 401 rfl (by decide)
  · exact .of 303 rfl (by decide)

theorem answers_postPassword : FailsFor Q (postPassword P cfg req s d) := by
  unfold postPassword
  dsimp only
  split
  · exact .of 400 rfl (by decide)
  split
  · exact .of 400 rfl (by decide)
  · exact .of 400 rfl (by decide)
  · exact .of 200 rfl (by decide)

theorem answers_totpBegin : FailsFor Q (totpBegin P cfg req s d) := by
  unfold totpBegin
  split
  · exact .of 400 rfl (by decide)
  · exact .of 200 rfl (by decide)

theorem answers_totpConfirm : FailsFor Q (totpConfirm P cfg req s d) := by
  unfold totpConfirm
  dsimp only
  split
  · exact .of 400 rfl (by decide)
  · exact .of 200 rfl (by decide)

theorem answers_totpRecovery : FailsFor Q (totpRecovery P cfg req s d) := by
  unfold totpRecovery
  dsimp only
  split
  · exact .of 400 rfl (by decide)
  · exact .of 200 rfl (by decide)

theorem answers_totpDisable : FailsFor Q (totpDisable P cfg req s d) := by
  unfold totpDisable
  dsimp only
  split
  · exact .of 400 rfl (by decide)
  split
  · exact .of 400 rfl (by decide)
  · exact .of 200 rfl (by decide)

theorem answers_passkeyOptions : FailsFor Q (passkeyOptions P cfg req s d) := by
  unfold passkeyOptions
  dsimp only
  split
  · exact .of 200 rfl (by decide)
  split
  · exact .of 400 rfl (by decide)
  · exact .of 200 rfl (by decide)

theorem answers_passkeyRemove (id : String) : FailsFor Q (postPasskeyRemove P cfg id req s d) := by
  unfold postPasskeyRemove
  dsimp only
  split
  · exact .of 400 rfl (by decide)
  split
  · exact .of 404 rfl (by decide)
  split
  · exact .of 404 rfl (by decide)
  · exact .of 200 rfl (by decide)

theorem answers_recoveryRegenerate : FailsFor Q (recoveryRegenerate P cfg req s d) := by
  unfold recoveryRegenerate
  dsimp only
  split
  · exact .of 400 rfl (by decide)
  · exact .of 200 rfl (by decide)

theorem answers_revokeSession (id : String) : FailsFor Q (postRevokeSession P cfg id req s d) := by
  unfold postRevokeSession
  dsimp only
  split
  · exact .of 404 rfl (by decide)
  split
  · exact .of 404 rfl (by decide)
  · exact .of 200 rfl (by decide)

/-- In the settings only the passkey routes may fail. -/
theorem fails_settings (route : SettingsRoute) {st : AccountState}
    (hadmin : (adminById s.admin.id st.accounts).isSome = true) :
    FailsFor (settingsCause P route req st.accounts) (route.handle P cfg req s st) := by
  cases route with
  | confirmPage => exact .of 200 rfl (by decide)
  | confirmCode => exact answers_confirmCode.keep _
  | confirmPassword => exact answers_confirmPassword.keep _
  | confirmPasskeyOptions => exact (answers_ceremonyOptions _).keep _
  | confirmPasskey => exact (fails_confirmPasskey s).keep _
  | security => exact .of 200 rfl (by decide)
  | password => exact answers_postPassword.keep _
  | totpBegin => exact answers_totpBegin.keep _
  | totpConfirm => exact answers_totpConfirm.keep _
  | totpRecovery => exact answers_totpRecovery.keep _
  | totpDisable => exact answers_totpDisable.keep _
  | passkeyOptions => exact answers_passkeyOptions.keep _
  | passkeys => exact fails_postPasskey hadmin
  | passkeyRemove id => exact (answers_passkeyRemove id).keep _
  | recoveryRegenerate => exact answers_recoveryRegenerate.keep _
  | revokeOthers => exact .of 200 rfl (by decide)
  | revokeSession id => exact (answers_revokeSession id).keep _

/-! ## Cases and links -/

variable {e : DeliveryDb} {id : String} {dir : Directory} {extra : CaseExtra}

theorem getCase_of_caseFor {c : Case} (h : caseFor s id e = some c) : getCase c.id e = some c := by
  obtain ⟨hcase, rfl, -⟩ := caseFor_some h
  exact hcase

/-- A link reads like one that was there before. -/
theorem CaseUnreadable.of_links
    (hlinks : ∀ l ∈ e'.links, ∃ x ∈ e.links, x.caseId = l.caseId ∧ x.maxOpens = l.maxOpens)
    (h : CaseUnreadable id e') : CaseUnreadable id e := by
  obtain ⟨l, hl, hcase, hunread⟩ := h
  obtain ⟨x, hx, hsame, hopens⟩ := hlinks l hl
  refine ⟨x, hx, hsame.trans hcase, ?_⟩
  rwa [Link.isReadable, hopens]

theorem CaseUnreadable.of_eq (hlinks : e'.links = e.links) (h : CaseUnreadable id e') :
    CaseUnreadable id e :=
  h.of_links fun l hl => ⟨l, hlinks ▸ hl, rfl, rfl⟩

/-- A new token leaves the case and the opening limit of a link. -/
theorem CaseUnreadable.of_rotate {token lid : String} {url : Option String}
    (hok : rotateLinkToken P cfg token lid e = .ok (url, e')) (h : CaseUnreadable id e') :
    CaseUnreadable id e := by
  rcases rotateLinkToken_ok hok with ⟨-, -, rfl⟩ | ⟨-, -, -, rfl⟩
  · exact h
  · refine h.of_links fun l hl => ?_
    obtain ⟨x, hx, rfl⟩ := Table.mem_update.1 hl
    refine ⟨x, hx, ?_⟩
    split <;> exact ⟨rfl, rfl⟩

/-- The stored limit is the number the form gave. -/
theorem positiveOpens_some {x : Option (Option Int)} {m : Nat} (h : positiveOpens x = .ok (some m)) :
    x = some (some (m : Int)) := by
  unfold positiveOpens at h
  split at h
  · cases h
  · cases h
    rfl
  · cases h

/-- A new link adds its own limit, and the others stay. -/
theorem CaseUnreadable.of_create {input : CreateLinkInput}
    {out : Link × List LinkRecipient × String}
    (hok : createLink P cfg now draw input e = .ok (out, e')) (h : CaseUnreadable id e') :
    CaseUnreadable id e ∨
      ∃ m : Nat, input.maxOpens = some (some (m : Int)) ∧ readable m = false := by
  obtain ⟨⟨m, hm, hlink⟩, -, -, -, rfl⟩ := createLink_ok hok
  obtain ⟨l, hl, hcase, hunread⟩ := h
  rcases List.mem_append.1 hl with hold | hnew
  · exact .inl ⟨l, hold, hcase, hunread⟩
  · rw [List.mem_singleton.1 hnew, hlink] at hunread
    cases m with
    | none => cases hunread
    | some m => exact .inr ⟨m, positiveOpens_some hm, hunread⟩

/-- The page of a case is shown with the status it is asked for, or the case is missing, or one
of its links cannot be read. -/
theorem fails_renderCase {out : Outcome DeliveryDb PanelPage} (n : Nat) (hn : n ≠ 500)
    (h : out.response = renderCase P req s dir id extra n e) (hq : CaseUnreadable id e → Q) :
    FailsFor Q out := by
  intro hfault
  rw [h, renderCase] at hfault
  split at hfault
  · cases hfault
  rename_i c hc
  obtain ⟨-, rfl, -⟩ := caseFor_some hc
  split at hfault
  · rename_i hunread
    rw [Bool.not_eq_true', List.all_eq_false] at hunread
    obtain ⟨l, hl, hl'⟩ := hunread
    obtain ⟨hstored, hcase⟩ := List.mem_filter.1 ((List.mem_insertionSort _).1 hl)
    exact hq ⟨l, hstored, beq_iff_eq.1 hcase, Bool.eq_false_iff.2 hl'⟩
  · exact absurd hfault hn

/-- A case that is not shown is answered with 404. -/
theorem fails_withCase {f : Case → Outcome DeliveryDb PanelPage}
    (hf : ∀ c, c.id = id → getCase c.id e = some c → FailsFor Q (f c)) :
    FailsFor Q (withCase P id req s e f) := by
  unfold withCase
  split
  · exact .of 404 rfl (by decide)
  rename_i c hc
  obtain ⟨k, hk, hc⟩ := Option.bind_eq_some_iff.1 hc
  obtain ⟨-, hid, -⟩ := caseFor_some hc
  exact hf c (hid.trans (validId_some hk)) (getCase_of_caseFor hc)

theorem RowUnreadable.toLink (h : RowUnreadable id e) : LinkUnreadable id e := by
  obtain ⟨l, hl, hid, hunread⟩ := h
  exact ⟨l, hl, hid, l, hl, rfl, hunread⟩

/-- The row of the link is read before anything else is checked. -/
theorem fails_withLink {f : Link → Outcome DeliveryDb PanelPage}
    (hq : RowUnreadable id e → Q) (hf : ∀ l ∈ e.links, l.id = id → FailsFor Q (f l)) :
    FailsFor Q (withLink P id req s e f) := by
  unfold withLink
  dsimp only
  split
  · exact .of 404 rfl (by decide)
  rename_i l hl
  obtain ⟨k, hk, hl⟩ := Option.bind_eq_some_iff.1 hl
  have hmem := List.mem_of_find?_eq_some hl
  have hid : l.id = id := (getLink_id hl).trans (validId_some hk)
  split
  · rename_i hunread
    exact fun _ => hq ⟨l, hmem, hid, by simpa using hunread⟩
  split
  · exact .of 404 rfl (by decide)
  · exact hf l hmem hid

theorem answers_postCase : FailsFor Q (postCase P req s e) := by
  unfold postCase
  split
  · exact .of 400 rfl (by decide)
  · exact .of 303 rfl (by decide)

theorem fails_showCase :
    FailsFor (CaseUnreadable id e) ((WorkRoute.case id).handle P cfg req s dir e) := by
  rw [WorkRoute.handle, showCase]
  split
  · exact .of 404 rfl (by decide)
  · rename_i k hk
    rw [← validId_some hk]
    exact fails_renderCase 200 (by decide) rfl fun h => h

theorem fails_postCaseUpdate : FailsFor (CaseUnreadable id e) (postCaseUpdate P id req s dir e) := by
  refine fails_withCase fun c hid _ => ?_
  subst hid
  split
  · exact fails_renderCase 400 (by decide) rfl fun h => h
  · exact .of 404 rfl (by decide)
  · rename_i hok
    refine fails_renderCase 200 (by decide) rfl fun h => ?_
    obtain ⟨-, rfl⟩ | ⟨_, _, _, -, -, rfl⟩ := updateCase_ok hok
    · exact h
    · exact h.of_eq rfl

/-- A stored name passes the check a new name has to pass. -/
theorem answers_postCaseStatus (hvalid : ∀ c ∈ e.cases, c.Valid) :
    FailsFor Q (postCaseStatus P id req s e) := by
  refine fails_withCase fun c _ hc => ?_
  dsimp only
  split
  · rename_i err herror
    have hname := (hvalid c (List.mem_of_find?_eq_some hc)).name
    unfold updateCase at herror
    rw [hc] at herror
    refine absurd herror ?_
    dsimp only [Option.map_none, Option.getD_none]
    rw [if_neg hname.checked]
    exact fun h => by cases h
  · exact .of 404 rfl (by decide)
  · exact .of 303 rfl (by decide)

theorem fails_postNote : FailsFor (CaseUnreadable id e) (postNote P id req s dir e) := by
  refine fails_withCase fun c hid _ => ?_
  subst hid
  dsimp only
  split
  · exact fails_renderCase 400 (by decide) rfl fun h => h
  · rename_i hok
    obtain ⟨-, -, rfl⟩ := createNote_ok hok
    exact fails_renderCase 200 (by decide) rfl fun h => h.of_eq rfl

/-- The link of a form is one `createLink` made with the form's own limit. -/
theorem linkFromForm_ok {caseId : String} {out : Link × List LinkRecipient × String}
    (h : linkFromForm P cfg req dir caseId e = .ok (out, e')) :
    ∃ recipients expiresAt, createLink P cfg req.now req.linkDraw
      ⟨caseId, req.field "label", recipients, expiresAt, maxOpensFromForm P req⟩ e =
        .ok (out, e') := by
  unfold linkFromForm at h
  dsimp only at h
  split at h
  · cases h
  split at h
  · cases h
  split at h
  · cases h
  · rename_i hok
    cases h
    exact ⟨_, _, hok⟩

/-- A link is made and its case shown; both read the limits. -/
theorem fails_postLink :
    FailsFor (CaseUnreadable id e ∨ LimitUnreadable P req) (postLink P cfg id req s dir e) := by
  refine fails_withCase fun c hid _ => ?_
  subst hid
  split
  · exact fails_renderCase 400 (by decide) rfl .inl
  split
  · exact fails_renderCase 400 (by decide) rfl .inl
  · rename_i hok
    obtain ⟨_, _, hok⟩ := linkFromForm_ok hok
    exact fails_renderCase 200 (by decide) rfl fun h => h.of_create hok

/-- A new token may be taken, and the page of the case is shown after it. -/
theorem fails_postReissue :
    FailsFor (TokenTaken P req e ∨ LinkUnreadable id e) (postReissue P cfg id req s dir e) := by
  refine fails_withLink (fun h => .inr h.toLink) fun l hl hid => ?_
  split
  · rename_i err herror
    intro _
    unfold rotateLinkToken at herror
    split at herror
    · cases herror
    split at herror
    · rename_i htaken
      obtain ⟨x, hx, hsame⟩ := List.any_eq_true.1 htaken
      exact .inl ⟨x, hx, beq_iff_eq.1 (Bool.and_eq_true_iff.1 hsame).2⟩
    · cases herror
  · exact .of 404 rfl (by decide)
  · rename_i hok
    exact fails_renderCase 200 (by decide) rfl fun h =>
      .inr ⟨l, hl, hid, (h.of_eq rfl).of_rotate hok⟩

theorem fails_postRecipients : FailsFor (LinkUnreadable id e) (postRecipients P id req s dir e) := by
  refine fails_withLink RowUnreadable.toLink fun l hl hid => ?_
  have hcase : CaseUnreadable l.caseId e → LinkUnreadable id e := fun h => ⟨l, hl, hid, h⟩
  dsimp only
  split
  · exact fails_renderCase 400 (by decide) rfl hcase
  split
  · exact fails_renderCase 400 (by decide) rfl hcase
  split
  · exact fails_renderCase 400 (by decide) rfl hcase
  · rename_i hok
    obtain ⟨rfl, -⟩ := addRecipients_ok hok
    exact fails_renderCase 200 (by decide) rfl fun h => hcase (h.of_eq rfl)

theorem fails_recipientRemove (rid : String) :
    FailsFor (LinkUnreadable id e) (postRecipientRemove P id rid req s dir e) := by
  refine fails_withLink RowUnreadable.toLink fun l hl hid => ?_
  have hcase : CaseUnreadable l.caseId e → LinkUnreadable id e := fun h => ⟨l, hl, hid, h⟩
  dsimp only
  split
  · exact fails_renderCase 404 (by decide) rfl hcase
  rename_i k hk
  have hrest : (removeRecipient l.id k e).2.links = e.links := by
    rcases removeRecipient_cases l.id k e with ⟨-, hsame⟩ | ⟨r, -, -, -, -, hsame⟩
    · rw [hsame]
    · rw [hsame]
      rfl
  generalize removeRecipient l.id k e = out at hrest
  split
  · exact fails_renderCase 404 (by decide) rfl hcase
  · exact fails_renderCase 400 (by decide) rfl fun h => hcase (h.of_eq hrest)
  · exact fails_renderCase 200 (by decide) rfl fun h => hcase (h.of_eq hrest)

/-- Revoking reads the row and answers with a redirect. -/
theorem fails_postRevoke : FailsFor (RowUnreadable id e) (postRevoke P id req s e) := by
  refine fails_withLink (fun h => h) fun l _ _ => ?_
  dsimp only
  split
  · exact .of 303 rfl (by decide)
  · exact .of 303 rfl (by decide)

theorem fails_postMember : FailsFor (CaseUnreadable id e) (postMember P id req s dir e) := by
  refine fails_withCase fun c hid _ => ?_
  subst hid
  dsimp only
  split
  · exact fails_renderCase 400 (by decide) rfl fun h => h
  rename_i user _
  split
  · exact fails_renderCase 400 (by decide) rfl fun h => h
  · refine fails_renderCase 200 (by decide) rfl fun h => ?_
    obtain ⟨ms, hms⟩ := addCaseMember_rest req.now c.id user.id e
    rw [hms] at h
    exact h.of_eq rfl

theorem fails_memberRemove (uid : String) :
    FailsFor (CaseUnreadable id e) (postMemberRemove P id uid req s dir e) := by
  refine fails_withCase fun c hid _ => ?_
  subst hid
  dsimp only
  split
  · exact fails_renderCase 404 (by decide) rfl fun h => h
  split
  · exact fails_renderCase 400 (by decide) rfl fun h => h
  split
  · exact fails_renderCase 404 (by decide) rfl fun h => h
  · rename_i hremoved
    obtain ⟨-, rfl⟩ := Prod.mk.inj hremoved
    exact fails_renderCase 200 (by decide) rfl fun h => h.of_eq rfl

/-! ## Items -/

/-- A missing object has an answer of its own; any other trouble of the storage has none. -/
theorem fails_downloadItem : FailsFor (req.stored = .failed) (downloadItem P id req s e) := by
  unfold downloadItem
  dsimp only
  split
  · exact .of 404 rfl (by decide)
  split
  · exact .of 404 rfl (by decide)
  split
  · exact .of 410 rfl (by decide)
  · rename_i hstored
    exact fun _ => hstored
  · exact .of 200 rfl (by decide)

theorem fails_postItemDelete : FailsFor (req.stored = .failed) (postItemDelete P id req s e) := by
  unfold postItemDelete
  dsimp only
  split
  · exact .of 404 rfl (by decide)
  split
  · exact .of 404 rfl (by decide)
  split
  · split
    · rename_i hstored
      exact fun _ => hstored.2
    · exact .of 303 rfl (by decide)
  · split
    · exact .of 303 rfl (by decide)
    · exact .of 303 rfl (by decide)

/-! ## Uploads -/

/-- The limit has an answer of its own. -/
theorem throws_startUpload {now : Int} {input : StartUploadInput}
    (hid : input.id = newId "f" req.random.id)
    (hcase : (getCase input.caseId e).isSome = true) :
    Throws (fun err => (∃ limit, err = .fileTooLarge limit) ∨
        startCause req input.declaredSize e)
      (startUpload P cfg now input e) := by
  unfold startUpload
  refine .guard (fun hsize => .inr (.inl hsize)) fun _ =>
    .guard (fun _ => .inl ⟨_, rfl⟩) fun _ =>
    .bind (.guard (fun htaken => .inr (.inr ?_)) fun _ => .ok _) fun _ _ => .ok _
  rcases Bool.or_eq_true_iff.1 htaken with htaken | hnone
  · obtain ⟨i, hi, hsame⟩ := List.any_eq_true.1 htaken
    exact ⟨i, hi, (beq_iff_eq.1 hsame).trans hid⟩
  · rw [Option.isNone_iff_eq_none.1 hnone] at hcase
    cases hcase

theorem fails_directUpload {caseId name : String} {declared : Option Nat} {put : PutAnswer} :
    FailsFor (startCause req declared e) (directUpload P cfg caseId name declared put req s e) := by
  unfold directUpload
  split
  · exact .of 404 rfl (by decide)
  rename_i c hc
  obtain ⟨k, -, hc⟩ := Option.bind_eq_some_iff.1 hc
  have hcase := getCase_of_caseFor hc
  dsimp only
  split
  · exact .of 403 rfl (by decide)
  split
  · exact .of 413 rfl (by decide)
  · rename_i err hother herror
    intro _
    rcases throws_startUpload rfl (by rw [hcase]; rfl) err herror with ⟨limit, rfl⟩ | hcause
    · exact absurd rfl (hother limit)
    · exact hcause
  split
  · exact .of 413 rfl (by decide)
  · exact .of 400 rfl (by decide)
  · exact .of 201 rfl (by decide)

/-- A finished upload has all its bytes, unless the library says so too soon. -/
theorem fails_onUploadFinish {uploadId : String} {upload : TusUpload} :
    FailsFor (CutShort upload) (onUploadFinish uploadId upload req s e) := by
  unfold onUploadFinish
  split
  · rename_i hsize
    intro _ hfull
    rw [hsize] at hfull
    cases hfull
  · rename_i size hsize
    split
    · rename_i hne
      intro _ hfull
      rw [hsize] at hfull
      exact hne (Option.some.inj hfull).symm
    · exact .of 204 rfl (by decide)

theorem fails_onUploadCreate {upload : TusUpload} {finished : Bool} :
    FailsFor (startCause req upload.size e ∨ finished = true ∧ CutShort upload)
      (onUploadCreate P cfg upload finished req s e) := by
  unfold onUploadCreate
  dsimp only
  split
  · exact .of 400 rfl (by decide)
  rename_i size hsize
  split
  · exact .of 400 rfl (by decide)
  split
  · exact .of 404 rfl (by decide)
  rename_i c hc
  have hcase := getCase_of_caseFor hc
  split
  · exact .of 403 rfl (by decide)
  split
  · exact .of 413 rfl (by decide)
  · rename_i err hother herror
    intro _
    rcases throws_startUpload rfl (by rw [hcase]; rfl) err herror with ⟨limit, rfl⟩ | hcause
    · exact absurd rfl (hother limit)
    · rw [hsize]
      exact .inl hcause
  · split
    · rename_i hfinished
      exact fun hfault => .inr ⟨hfinished, fails_onUploadFinish hfault⟩
    · exact .of 204 rfl (by decide)

theorem answers_onIncomingRequest {uploadId : String} {response : Response PanelPage}
    (h : onIncomingRequest uploadId s e = some response) : response.status ≠ 500 := by
  unfold onIncomingRequest at h
  split at h
  · cases h
    exact (by decide : 404 ≠ 500)
  split at h
  · cases h
    exact (by decide : 404 ≠ 500)
  split at h
  · cases h
    exact (by decide : 410 ≠ 500)
  · cases h

theorem answers_postTerminate {uploadId : String} : FailsFor Q (postTerminate uploadId e) := by
  unfold postTerminate
  split
  · exact .of 204 rfl (by decide)
  · exact .of 204 rfl (by decide)

/-- The upload library's calls, one by one. -/
theorem fails_tus {uploadId : String} (request : TusRequest) :
    FailsFor (tusCause request req e) (tusHandler P cfg uploadId request req s e) := by
  unfold tusHandler
  cases request with
  | get => exact .of 405 rfl (by decide)
  | options => exact .of 204 rfl (by decide)
  | head =>
      dsimp only
      split
      · rename_i hrefused
        exact .ne (answers_onIncomingRequest hrefused)
      · exact .of 204 rfl (by decide)
  | post upload finished =>
      cases upload with
      | none => exact .of 204 rfl (by decide)
      | some upload => exact fails_onUploadCreate
  | patch finished =>
      cases finished with
      | none =>
          dsimp only
          split
          · rename_i hrefused
            exact .ne (answers_onIncomingRequest hrefused)
          · exact .of 204 rfl (by decide)
      | some upload =>
          dsimp only
          split
          · rename_i hrefused
            exact .ne (answers_onIncomingRequest hrefused)
          · exact fails_onUploadFinish
  | delete terminated =>
      cases terminated with
      | false =>
          dsimp only
          split
          · rename_i hrefused
            exact .ne (answers_onIncomingRequest hrefused)
          · exact .of 204 rfl (by decide)
      | true =>
          dsimp only
          split
          · rename_i hrefused
            exact .ne (answers_onIncomingRequest hrefused)
          · exact answers_postTerminate

/-! ## The work routes -/

/-- The routes of the daily work, each with its own cause. -/
theorem fails_work (hvalid : ∀ c ∈ e.cases, c.Valid) (route : WorkRoute) :
    FailsFor (workCause P route req e) (route.handle P cfg req s dir e) := by
  cases route with
  | cases => exact .of 200 rfl (by decide)
  | createCase =>
      rw [WorkRoute.handle]
      exact answers_postCase
  | case id => exact fails_showCase
  | updateCase id =>
      rw [WorkRoute.handle]
      exact fails_postCaseUpdate
  | caseStatus id =>
      rw [WorkRoute.handle]
      exact answers_postCaseStatus hvalid
  | note id =>
      rw [WorkRoute.handle]
      exact fails_postNote
  | createLink id =>
      rw [WorkRoute.handle]
      exact fails_postLink
  | reissue id =>
      rw [WorkRoute.handle]
      exact fails_postReissue
  | addRecipients id =>
      rw [WorkRoute.handle]
      exact fails_postRecipients
  | removeRecipient id rid =>
      rw [WorkRoute.handle]
      exact fails_recipientRemove rid
  | revoke id =>
      rw [WorkRoute.handle]
      exact fails_postRevoke
  | download id =>
      rw [WorkRoute.handle]
      exact fails_downloadItem
  | deleteItem id =>
      rw [WorkRoute.handle]
      exact fails_postItemDelete
  | addMember id =>
      rw [WorkRoute.handle]
      exact fails_postMember
  | removeMember id uid =>
      rw [WorkRoute.handle]
      exact fails_memberRemove uid
  | upload caseId name declared put =>
      rw [WorkRoute.handle]
      exact fails_directUpload
  | tus uploadId request =>
      rw [WorkRoute.handle]
      exact fails_tus request

/-! ## Groups and accounts -/

variable {g : GroupDb} {accounts : AccountDb} {db : Tables}

/-- A group that was saved is found again. -/
theorem answers_groupSaved {action : String} {key : MessageKey}
    (hid : ∃ x ∈ g.groups, x.id = id) :
    FailsFor Q (groupSaved P req s accounts id action key g) := by
  unfold groupSaved
  split
  · rename_i hnone
    obtain ⟨x, hx, hsame⟩ := hid
    rw [getGroup, Option.map_eq_none_iff, List.find?_eq_none] at hnone
    exact absurd (beq_iff_eq.2 hsame) (hnone x hx)
  · exact .of 200 rfl (by decide)

/-- Members are written beside the groups, not into them. -/
theorem groups_write {people : List RecipientInput} {g' : GroupDb}
    (h : writeMembers id people g = .ok g') : g'.groups = g.groups :=
  (AddressBook.membersOf_write h).1

theorem answers_postGroup : FailsFor Q (postGroup P req s accounts g) := by
  unfold postGroup
  dsimp only
  split
  · exact .of 400 rfl (by decide)
  · rename_i out g' h
    obtain ⟨people, -, h⟩ := Fallible.bind_eq_ok.1 h
    unfold createGroup at h
    obtain ⟨name, -, h⟩ := Fallible.bind_eq_ok.1 h
    obtain ⟨members, -, h⟩ := Fallible.bind_eq_ok.1 h
    obtain ⟨-, h⟩ := Fallible.guard_eq_ok.1 h
    obtain ⟨-, h⟩ := Fallible.guard_eq_ok.1 h
    dsimp only at h
    obtain ⟨g₁, hmembers, h⟩ := Fallible.bind_eq_ok.1 h
    cases h
    refine answers_groupSaved ?_
    rw [groups_write hmembers]
    exact ⟨_, List.mem_append_right _ (List.mem_singleton_self _), rfl⟩

theorem fails_editableGroup {f : Group → Outcome GroupDb PanelPage}
    (hf : ∀ group, (∃ x ∈ g.groups, x.id = group.id) → FailsFor Q (f group)) :
    FailsFor Q (editableGroup P id req s accounts g f) := by
  unfold editableGroup
  dsimp only
  split
  · exact .of 404 rfl (by decide)
  rename_i group hgroup
  split
  · exact .of 403 rfl (by decide)
  · obtain ⟨_, -, hgroup⟩ := Option.bind_eq_some_iff.1 hgroup
    obtain ⟨x, hx, rfl⟩ := Option.map_eq_some_iff.1 hgroup
    exact hf _ ⟨x, List.mem_of_find?_eq_some hx, rfl⟩

theorem answers_postGroupUpdate : FailsFor Q (postGroupUpdate P id req s accounts g) := by
  refine fails_editableGroup fun group hgroup => ?_
  dsimp only
  split
  · exact .of 400 rfl (by decide)
  · rename_i g' h
    obtain ⟨people, -, h⟩ := Fallible.bind_eq_ok.1 h
    unfold updateGroup at h
    obtain ⟨name, -, h⟩ := Fallible.bind_eq_ok.1 h
    obtain ⟨members, -, h⟩ := Fallible.bind_eq_ok.1 h
    obtain ⟨-, h⟩ := Fallible.guard_eq_ok.1 h
    refine answers_groupSaved ?_
    rw [groups_write h]
    obtain ⟨x, hx, hid⟩ := hgroup
    refine ⟨_, Table.mem_update.2 ⟨x, hx, rfl⟩, ?_⟩
    split
    · exact hid
    · exact hid

theorem answers_groups (route : GroupRoute) :
    FailsFor Q (route.handle P req s accounts g) := by
  cases route with
  | list => exact .of 200 rfl (by decide)
  | create => exact answers_postGroup
  | update id => exact answers_postGroupUpdate
  | delete id => exact fails_editableGroup fun group _ => .of 200 rfl (by decide)

/-- The error of an account action. -/
def IsUser (err : Failure) : Prop := ∃ key params, err = .user key params

/-- An error about an account is shown on the page. -/
theorem fails_userFailed {err : Failure} (h : IsUser err ∨ Q) :
    FailsFor Q (userFailed P req s err db) := by
  unfold userFailed
  split
  · exact .of 400 rfl (by decide)
  · rename_i hother
    intro _
    rcases h with ⟨key, params, rfl⟩ | hq
    · exact absurd rfl (hother key params)
    · exact hq

/-- An account that is not there, or is one's own, is refused. -/
theorem throws_requireUser (actorId : String) : Throws IsUser (requireUser actorId id d) := by
  unfold requireUser
  split
  · exact .error ⟨_, _, rfl⟩
  · split
    · exact .error ⟨_, _, rfl⟩
    · exact .ok _

/-- The name is checked by the service, the password is drawn. -/
theorem throws_createUser {username : String} {role : Role} :
    Throws (fun err => IsUser err ∨ userCause .create req d)
      (createUser P req.now req.random.id req.random.salt req.random.password username role
        d) := by
  unfold createUser
  dsimp only
  -- the name is checked once more where the row is written, and the password only there
  refine .guard (fun _ => .inl ⟨_, _, rfl⟩) fun hname => .guard (fun _ => .inl ⟨_, _, rfl⟩)
    fun hfree => .guard (fun hbad => absurd hbad hname) fun _ =>
      .guard (fun hshort => .inr (.inl hshort)) fun _ => ?_
  refine .guard (fun htaken => ?_) fun _ => .ok _
  obtain ⟨a, ha, hsame⟩ := List.any_eq_true.1 htaken
  rcases Bool.or_eq_true_iff.1 hsame with hid | husername
  · exact .inr (.inr ⟨a, ha, beq_iff_eq.1 hid⟩)
  · refine absurd ?_ hfree
    rw [findAdminByUsername, Option.isSome_map, adminByUsername, List.find?_isSome]
    exact ⟨a, ha, husername⟩

theorem fails_postUser :
    FailsFor (userCause .create req db.accounts) (postUser P req s db) := by
  unfold postUser
  dsimp only
  split
  · rename_i err herror
    exact fails_userFailed (throws_createUser err herror)
  · exact .of 200 rfl (by decide)

theorem fails_userAction {action : String}
    {f : String → Tables → Except Failure (UserDone × Tables)} (hf : Throws IsUser (f id db)) :
    FailsFor Q (userAction P action id req s f db) := by
  unfold userAction
  split
  · exact .of 404 rfl (by decide)
  rename_i k hk
  rw [validId_some hk]
  split
  · rename_i err herror
    exact fails_userFailed (.inl (hf err herror))
  · exact .of 200 rfl (by decide)

theorem throws_onAccounts {done : AdminRow → UserDone}
    {x : Except Failure (AdminRow × AccountDb)} (hx : Throws IsUser x) :
    Throws IsUser (onAccounts done x db) :=
  .bind hx fun _ _ => .ok _

/-- The last administrator cannot be disabled, and is told so. -/
theorem throws_setUserDisabled {now : Int} {disabled : Bool} {actorId : String} {d : AccountDb} :
    Throws IsUser (setUserDisabled now actorId id disabled d) :=
  .bind (throws_requireUser _) fun _ _ => .guard (fun _ => ⟨_, _, rfl⟩) fun _ => .ok _

theorem throws_disableAction {disabled : Bool} :
    Throws IsUser (disableAction P disabled req s id db) := by
  unfold disableAction
  exact throws_onAccounts throws_setUserDisabled

theorem throws_passwordAction : Throws IsUser (passwordAction P req s id db) := by
  unfold passwordAction
  exact throws_onAccounts (.bind (throws_requireUser _) fun _ _ => .ok _)

theorem throws_roleAction : Throws IsUser (roleAction P req s id db) := by
  unfold roleAction
  split
  · exact .error ⟨_, _, rfl⟩
  · exact throws_onAccounts (.bind (throws_requireUser _) fun _ _ =>
      .guard (fun _ => ⟨_, _, rfl⟩) fun _ => .ok _)

theorem throws_totpAction : Throws IsUser (totpAction P req s id db) := by
  unfold totpAction
  exact throws_onAccounts (.bind (throws_requireUser _) fun _ _ => .ok _)

theorem throws_deleteAction : Throws IsUser (deleteAction P req s id db) := by
  unfold deleteAction
  exact .bind (.bind (throws_requireUser _) fun _ _ =>
    .guard (fun _ => ⟨_, _, rfl⟩) fun _ => .ok _) fun _ _ => .ok _

/-- Of the account routes only creating one may fail. -/
theorem fails_users (route : UserRoute) :
    FailsFor (userCause route req db.accounts) (route.handle P req s db) := by
  cases route with
  | list => exact .of 200 rfl (by decide)
  | create =>
      rw [UserRoute.handle]
      exact fails_postUser
  | role id =>
      rw [UserRoute.handle]
      exact fails_userAction throws_roleAction
  | password id =>
      rw [UserRoute.handle]
      exact fails_userAction throws_passwordAction
  | totp id =>
      rw [UserRoute.handle]
      exact fails_userAction throws_totpAction
  | disable id =>
      rw [UserRoute.handle]
      exact fails_userAction throws_disableAction
  | enable id =>
      rw [UserRoute.handle]
      exact fails_userAction throws_disableAction
  | delete id =>
      rw [UserRoute.handle]
      exact fails_userAction throws_deleteAction

/-! ## Requests to the panel -/

variable {sv : Server}

theorem answers_signInFirst {method : Method} {isApi : Bool} {signed : Option Signed} :
    (signInFirst method isApi signed).status ≠ 500 := by
  unfold signInFirst
  split
  · exact (by decide : 302 ≠ 500)
  split
  · exact (by decide : 401 ≠ 500)
  · exact (by decide : 401 ≠ 500)

/-- The way back from a refusal shows a case, which reads its links. -/
theorem backThrows_cause {route : PanelRoute} (h : route.backThrows e = true) :
    panelCause P route req d e := by
  have hrow : ∀ id, (!((validId id).bind fun id => getLink id e).all Link.isReadable) = true →
      LinkUnreadable id e := by
    intro id hunread
    rw [Bool.not_eq_true', Option.all_eq_false] at hunread
    obtain ⟨l, hl, hl'⟩ := hunread
    obtain ⟨k, hk, hl⟩ := Option.bind_eq_some_iff.1 hl
    exact RowUnreadable.toLink
      ⟨l, List.mem_of_find?_eq_some hl, (getLink_id hl).trans (validId_some hk), hl'⟩
  cases route with
  | work route =>
      cases route with
      | reissue id => exact .inr (hrow id h)
      | addRecipients id => exact hrow id h
      | _ => cases h
  | _ => cases h

theorem answers_csrfRefusal {method : Method} {isApi : Bool} {response : Response PanelPage}
    (h : csrfRefusal P cfg req method isApi s = some response) : response.status ≠ 500 := by
  unfold csrfRefusal at h
  split at h
  · cases h
  split at h
  · cases h
    exact (by decide : 403 ≠ 500)
  split at h
  · cases h
  · cases h
    exact (by decide : 403 ≠ 500)

theorem answers_requireAdmin {r : PanelRequest} {signed : Option Signed}
    {response : Response PanelPage} (h : requireAdmin P cfg r signed = .error response) :
    response.status ≠ 500 := by
  unfold requireAdmin at h
  split at h
  · cases h
    exact answers_signInFirst
  split at h
  · rename_i hrefused
    cases h
    rcases Option.or_eq_some_iff.1 hrefused with hcsrf | ⟨-, hpending⟩
    · exact answers_csrfRefusal hcsrf
    · unfold completeRefusal at hpending
      split at hpending
      · cases hpending
      · cases hpending
        exact answers_signInFirst
  · cases h

/-- A guard that throws looked for the place to go back to. -/
theorem fails_refusal {r : PanelRequest} {response : Response PanelPage}
    (h : refusal P cfg r s e = some response) (hfault : response.status = 500) :
    panelCause P r.route r.toRequest d e := by
  have hother : ∀ {n : Nat}, n ≠ 500 → n = 500 → panelCause P r.route r.toRequest d e :=
    fun hn hfault => absurd hfault hn
  unfold refusal at h
  rcases Option.or_eq_some_iff.1 h with h | ⟨-, h⟩
  · unfold limitRefusal at h
    split at h
    · cases h
      exact hother (by decide : 429 ≠ 500) hfault
    · cases h
  rcases Option.or_eq_some_iff.1 h with h | ⟨-, h⟩
  · unfold readyRefusal at h
    split at h
    · cases h
    obtain ⟨missing, -, rfl⟩ := Option.map_eq_some_iff.1 h
    split at hfault
    · exact hother (by decide : 302 ≠ 500) hfault
    · exact hother (by decide : 403 ≠ 500) hfault
  rcases Option.or_eq_some_iff.1 h with h | ⟨-, h⟩
  · unfold adminsRefusal at h
    split at h
    · cases h
      exact hother (by decide : 403 ≠ 500) hfault
    · cases h
  · unfold confirmRefusal at h
    split at h
    · cases h
    split at h
    · cases h
    split at h
    · rename_i hthrows
      exact backThrows_cause hthrows
    · cases h
      exact hother (by decide : 303 ≠ 500) hfault

/-- Every route of the panel. -/
theorem fails_handle (sv : Server) {route : PanelRoute}
    (hadmin : (adminById s.admin.id sv.accounts).isSome = true)
    (hvalid : ∀ c ∈ sv.deliveries.cases, c.Valid) :
    FailsFor (panelCause P route req sv.accounts sv.deliveries)
      (route.handle P cfg req s sv) := by
  cases route with
  | pending route => exact (fails_pending route hadmin).into _
  | settings route =>
      have hst : FailsFor _ (route.handle P cfg req s sv.accountState) :=
        fails_settings route hadmin
      exact hst.into _
  | work route => exact (fails_work hvalid route).into _
  | groups route => exact (answers_groups route).into _
  | users route =>
      have hdb : FailsFor _ (route.handle P req s sv.tables) := fails_users route
      exact hdb.into _
  | audit => exact .of 200 rfl (by decide)

/-! ## Requests to the delivery pages -/

variable {r : DeliverRequest} {v : Visit} {e₀ e' : DeliveryDb}

/-- The link is read first, by its token. -/
theorem fails_load {flowToken : String} {access : Option (String × AccessSession)}
    {response : Response DeliverPage} (h : load P r flowToken access e = .error response)
    (hfault : response.status = 500) : TokenUnreadable P r.token e := by
  unfold load at h
  split at h
  · cases h
    exact absurd hfault (by decide : 404 ≠ 500)
  rename_i resolved hresolved
  split at h
  · rename_i hunread
    obtain ⟨-, hstored, hhash, -⟩ := resolveToken_some hresolved
    exact ⟨resolved.link, hstored, hhash, by simpa using hunread⟩
  dsimp only at h
  split at h
  · rename_i hrefused
    cases h
    unfold unavailable at hrefused
    split at hrefused
    · cases hrefused
    split at hrefused
    · cases hrefused
    · cases hrefused
      exact absurd hfault (by decide : 403 ≠ 500)
  · cases h

theorem answers_admission {response : Response DeliverPage}
    (h : admission P cfg r = some response) : response.status ≠ 500 := by
  unfold admission at h
  split at h
  · cases h
    exact (by decide : 429 ≠ 500)
  split at h
  · unfold publicFormGuard at h
    split at h
    · cases h
      exact (by decide : 403 ≠ 500)
    split at h
    · split at h
      · cases h
      · cases h
        exact (by decide : 403 ≠ 500)
    · cases h
      exact (by decide : 403 ≠ 500)
  · cases h

theorem fails_enter {response : Response DeliverPage}
    (h : enter P cfg r e = (.error response, e')) (hfault : response.status = 500) :
    TokenUnreadable P r.token e := by
  obtain ⟨p, hdrops⟩ := accessMiddleware_drops (P := P) r.toRequest e
  unfold enter at h
  split at h
  · cases h
    exact absurd hfault (by decide : 429 ≠ 500)
  dsimp only at h
  split at h
  · rename_i hrefused
    cases h
    have hstatus := answers_admission hrefused
    exact absurd hfault hstatus
  split at h
  · rename_i hrefused
    cases h
    obtain ⟨l, hl, hhash, hunread⟩ := fails_load hrefused hfault
    rw [hdrops] at hl
    exact ⟨l, hl, hhash, hunread⟩
  · cases h

/-- The link of a visit is in the table. -/
theorem link_stored (hr : Entered P cfg r e₀ v e) :
    e.links.any (·.id == v.resolved.link.id) = true :=
  List.any_eq_true.2 ⟨_, (resolveToken_some hr.resolved).2.1, beq_self_eq_true _⟩

theorem fails_postEmail (hr : Entered P cfg r e₀ v e) :
    FailsFor (CodeTaken r.toRequest e) (postEmail P cfg r v e) := by
  unfold postEmail
  dsimp only
  split
  · exact .of 400 rfl (by decide)
  split
  · exact .of 200 rfl (by decide)
  rename_i recipient hfound
  obtain ⟨hmem, -⟩ := person_on_link hr (List.mem_of_find?_eq_some hfound)
  split
  · exact .of 429 rfl (by decide)
  · rename_i err hother herror
    intro _
    rw [createChallenge_eq] at herror
    split at herror
    · cases herror
      exact absurd rfl (hother _)
    split at herror
    · rename_i htaken
      rcases Bool.or_eq_true_iff.1 htaken with htaken | hperson
      · rcases Bool.or_eq_true_iff.1 htaken with htaken | hlink
        · obtain ⟨c, hc, hid⟩ := List.any_eq_true.1 htaken
          exact ⟨c, hc, beq_iff_eq.1 hid⟩
        · change (!e.links.any (·.id == v.resolved.link.id)) = true at hlink
          rw [link_stored hr] at hlink
          cases hlink
      · change (!e.linkRecipients.any (·.id == recipient.id)) = true at hperson
        have hstored : e.linkRecipients.any (·.id == recipient.id) = true :=
          List.any_eq_true.2 ⟨recipient, hmem, beq_self_eq_true recipient.id⟩
        rw [hstored] at hperson
        cases hperson
    · cases herror
  · split
    · exact .of 200 rfl (by decide)
    · exact .of 502 rfl (by decide)

theorem throws_createAccessSession {draw : AccessDraw} {linkId : String}
    {recipientId ip : Option String} (hlink : e.links.any (·.id == linkId) = true)
    (hperson : recipientId.all (fun k => e.linkRecipients.any (·.id == k)) = true) :
    Throws (fun _ => ∃ a ∈ e.accessSessions, a.idHash = P.sha256Hex draw.sessionId)
      (createAccessSession P cfg now draw linkId recipientId ip e) := by
  unfold createAccessSession
  refine .guard (fun htaken => ?_) fun _ => .ok _
  rw [hlink, hperson, Bool.not_true, Bool.or_false, Bool.or_false] at htaken
  obtain ⟨a, ha, hsame⟩ := List.any_eq_true.1 htaken
  exact ⟨a, ha, beq_iff_eq.1 hsame⟩

theorem any_updateLink {p : Link → Bool} {f : Link → Link} (hf : ∀ l, (f l).id = l.id)
    (k : String) : (updateLink id p f e).links.any (·.id == k) = e.links.any (·.id == k) := by
  have hids : (updateLink id p f e).links.map (·.id) = e.links.map (·.id) := updateLink_ids hf
  replace hids := congrArg (List.any · (· == k)) hids
  simpa only [List.any_map, Function.comp_def] using hids

/-- A visit is inserted for a link and a person that are there. -/
theorem fails_openSession (hr : Entered P cfg r e₀ v e) (hlinks : e'.links = e.links)
    (hpeople : e'.linkRecipients = e.linkRecipients)
    (haccess : e'.accessSessions = e.accessSessions) (recipientId : Option String) :
    FailsFor (AccessTaken P r.toRequest e) (openSession P cfg r v recipientId e') := by
  have hlink := link_stored hr
  rw [← hlinks] at hlink
  have hlink' : (registerOpen r.now v.resolved.link.id e').2.links.any
      (·.id == v.resolved.link.id) = true := by
    rw [← hlink]
    exact any_updateLink (by exact fun _ => rfl) _
  have hrows : (registerOpen r.now v.resolved.link.id e').2.linkRecipients = e.linkRecipients :=
    hpeople
  have hvisits : (registerOpen r.now v.resolved.link.id e').2.accessSessions = e.accessSessions :=
    haccess
  unfold openSession
  generalize registerOpen r.now v.resolved.link.id e' = out at hlink' hrows hvisits ⊢
  obtain ⟨opened, e₂⟩ := out
  dsimp only at hlink' hrows hvisits ⊢
  split
  · exact .of 403 rfl (by decide)
  cases hfound : v.resolved.recipients.find? fun x => some x.id == recipientId with
  | none =>
      dsimp only [Option.map_none]
      split
      · rename_i err herror
        intro _
        have htaken := throws_createAccessSession hlink' rfl err herror
        rwa [hvisits] at htaken
      · exact .of 303 rfl (by decide)
  | some x =>
      obtain ⟨hmem, -⟩ := person_on_link hr (List.mem_of_find?_eq_some hfound)
      dsimp only [Option.map_some]
      split
      · rename_i err herror
        intro _
        have hperson : (some x.id).all (fun k =>
            (recordRecipientOpen r.now x.id e₂).linkRecipients.any (·.id == k)) = true := by
          refine List.any_eq_true.2 ⟨_, Table.mem_update.2 ⟨x, hrows ▸ hmem, rfl⟩, ?_⟩
          split
          · exact beq_self_eq_true _
          · exact beq_self_eq_true _
        have htaken := throws_createAccessSession (e := recordRecipientOpen r.now x.id e₂)
          hlink' hperson err herror
        change ∃ a ∈ e₂.accessSessions, _ at htaken
        rwa [hvisits] at htaken
      · exact .of 303 rfl (by decide)

/-- A right code opens a visit. -/
theorem fails_postCode (hr : Entered P cfg r e₀ v e) :
    FailsFor (AccessTaken P r.toRequest e) (postCode P cfg r v e) := by
  have hcode := verified P cfg r.now (v.verifyInput r) e
  have hrows : (verifyChallenge P cfg r.now (v.verifyInput r) e).2.links = e.links ∧
      (verifyChallenge P cfg r.now (v.verifyInput r) e).2.linkRecipients = e.linkRecipients ∧
      (verifyChallenge P cfg r.now (v.verifyInput r) e).2.accessSessions = e.accessSessions := by
    generalize verifyChallenge P cfg r.now (v.verifyInput r) e = out at hcode
    cases hcode <;> exact ⟨rfl, rfl, rfl⟩
  unfold postCode
  dsimp only
  split
  · exact .of 401 rfl (by decide)
  · exact .of 401 rfl (by decide)
  · rename_i h
    rw [h] at hrows
    exact fails_openSession hr hrows.1 hrows.2.1 hrows.2.2 _

theorem answers_showDelivery : FailsFor Q (showDelivery P cfg r v e) := by
  have hknock : ∀ view, FailsFor Q (showDelivery.knock P cfg r v e view) :=
    fun _ => .of 200 rfl (by decide)
  unfold showDelivery
  dsimp only
  split
  · split
    · exact .of 200 rfl (by decide)
    · exact hknock _
  · exact hknock _

theorem answers_postClose : FailsFor Q (postClose P r v e) := by
  unfold postClose
  dsimp only
  split
  · exact .of 200 rfl (by decide)
  · exact .of 200 rfl (by decide)

theorem fails_getFile (itemId : String) :
    FailsFor (r.stored = .failed) (getFile itemId r v e) := by
  unfold getFile
  dsimp only
  split
  · exact .of 303 rfl (by decide)
  split
  · exact .of 404 rfl (by decide)
  split
  · exact .of 404 rfl (by decide)
  split
  · exact .of 410 rfl (by decide)
  · rename_i hstored
    exact fun _ => hstored
  · exact .of 200 rfl (by decide)

/-- Every route of a visit. -/
theorem fails_visited (hr : Entered P cfg r e₀ v e) (route : DeliverRoute) :
    FailsFor (deliverCause P route r.toRequest e) (route.handle P cfg r v e) := by
  cases route with
  | page => exact answers_showDelivery
  | email => exact fails_postEmail hr
  | code => exact fails_postCode hr
  | restart => exact .of 303 rfl (by decide)
  | close => exact answers_postClose
  | file itemId => exact fails_getFile itemId

/-- The visit that is read may end, and nothing else happens before the handler. -/
theorem deliverCause_read (hkeys : (e.accessSessions.map (·.idHash)).Nodup) {route : DeliverRoute}
    (h : deliverCause P route r.toRequest (accessMiddleware P r.toRequest e).2) :
    deliverCause P route r.toRequest e := by
  have hsame := Forgery.same_accessMiddleware (P := P) (e := e) hkeys r.toRequest
  cases route with
  | page => exact h
  | email =>
      obtain ⟨c, hc, hid⟩ := h
      exact ⟨c, hsame.codes ▸ hc, hid⟩
  | code =>
      obtain ⟨a, ha, hid⟩ := h
      exact ⟨a, hsame.visits a ha, hid⟩
  | restart => exact h
  | close => exact h
  | file itemId => exact h

/-- The row of the link is read before the route is served. -/
theorem fails_deliver (hkeys : (e.accessSessions.map (·.idHash)).Nodup) :
    FailsFor (deliverCause P r.route r.toRequest e ∨ TokenUnreadable P r.token e)
      (deliver P cfg r e) := by
  unfold deliver
  split
  · rename_i response e' h
    exact fun hfault => .inr (fails_enter h hfault)
  · rename_i v e' h
    have hr := enter_ok h
    intro hfault
    refine .inl (deliverCause_read hkeys ?_)
    rw [hr.access]
    exact fails_visited hr r.route hfault

/-! ## Steps -/

/-- Reading a session draws no identifiers. -/
theorem SessionTaken.read {d' : AccountDb} {times : Int → Prop}
    (hsame : Forgery.SameAccounts times d d') (h : SessionTaken P req d') :
    SessionTaken P req d := by
  obtain ⟨x, hx, htaken⟩ := h
  obtain ⟨x₀, hx₀, hcore⟩ := hsame.sessions x hx
  have hhash := congrArg (fun s : SessionRow => s.idHash) hcore
  have hpublic := congrArg (fun s : SessionRow => s.publicId) hcore
  change x₀.idHash = x.idHash at hhash
  change x₀.publicId = x.publicId at hpublic
  exact ⟨x₀, hx₀, by rwa [hhash, hpublic]⟩

theorem openCause_read {d' : AccountDb} {times : Int → Prop}
    (hsame : Forgery.SameAccounts times d d') {route : OpenRoute} (h : openCause P route req d') :
    openCause P route req d := by
  cases route with
  | dbscRegister =>
      obtain ⟨b, hb, hid⟩ := h
      exact ⟨b, hsame.bindings b hb, hid⟩
  | dbscRefresh => exact h
  | loginPage => exact h
  | login => exact SessionTaken.read hsame h

theorem panelCause_read {d' : AccountDb} {times : Int → Prop}
    (hsame : Forgery.SameAccounts times d d') {route : PanelRoute}
    (h : panelCause P route req d' e) : panelCause P route req d e := by
  cases route with
  | pending route =>
      cases route with
      | passkeyLogin => exact h.imp_right (SessionTaken.read hsame)
      | totp => exact SessionTaken.read hsame h
      | logout => exact h
      | totpPage => exact h
      | passkeyLoginOptions => exact h
  | settings route =>
      unfold panelCause settingsCause PasskeyTaken at h ⊢
      rwa [hsame.passkeys] at h
  | work route => exact h
  | groups route => exact h
  | users route =>
      unfold panelCause userCause AccountTaken at h ⊢
      rwa [hsame.admins] at h
  | audit => exact h

/-- The session middleware does not bring a cause with it. -/
theorem fails_visit (hs : Integrity.Sound sv) (r : OpenRequest) :
    FailsFor (openCause P r.route r.toRequest sv.accounts) (visit P cfg r sv) := by
  have hread := Forgery.same_sessionMiddleware (P := P) (d := sv.accounts) hs.accounts.sessions
      r.toRequest
  unfold visit
  dsimp only
  split
  · exact .of 429 rfl (by decide)
  · exact ((fails_open r.route _).mono (openCause_read hread)).into _

/-- Nor do the guards in front of a panel route. -/
theorem fails_panel (hs : Integrity.Sound sv) (hv : Validity.Valid sv) (r : PanelRequest) :
    FailsFor (panelCause P r.route r.toRequest sv.accounts sv.deliveries) (panel P cfg r sv) := by
  have hread := Forgery.same_sessionMiddleware (P := P) hs.accounts.sessions r.toRequest
  unfold panel
  dsimp only
  split
  · rename_i response hrefused
    exact .ne (answers_requireAdmin hrefused)
  rename_i s hsigned
  obtain ⟨a, ha, hid⟩ := known_signed (LastFactor.requireAdmin_ok hsigned)
  have hoffer : Forgery.SameAccounts _ sv.accounts (offerMiddleware P cfg r s _).2 :=
    hread.trans (Forgery.same_offerMiddleware r s _)
  generalize (offerMiddleware P cfg r s (sessionMiddleware P r.toRequest sv.accounts).2) = offer
    at hoffer ⊢
  have hadmin : (adminById s.admin.id offer.2).isSome = true := by
    rw [adminById, List.find?_isSome, hoffer.admins]
    exact ⟨a, ha, beq_iff_eq.2 hid⟩
  intro hfault
  refine panelCause_read hoffer ?_
  unfold servePanel at hfault
  split at hfault
  · rename_i response hrefused
    exact fails_refusal hrefused hfault
  · exact fails_handle { sv with accounts := offer.2 } hadmin hv.deliveries.cases hfault

/-- A step that ends in the error handler has a cause. -/
theorem step_cause (hs : Integrity.Sound sv) (hv : Validity.Valid sv) (i : Input)
    (hfault : isFault (Server.step P cfg sv i).2.answer = true) : Cause P sv i := by
  cases i with
  | deliver r => exact fails_deliver hs.deliveries.access (beq_iff_eq.1 hfault)
  | visit r => exact fails_visit hs r (beq_iff_eq.1 hfault)
  | panel r => exact fails_panel hs hv r (beq_iff_eq.1 hfault)
  | cleanup run => exact absurd hfault Bool.false_ne_true
  | cli now draw command => exact absurd hfault Bool.false_ne_true

end

/-- `root` downloads a file its storage cannot read. -/
def brokenScript : List Input :=
  Validity.filledScript ++
    [.panel
      { samplePanel 20 "sid" 'T' (.work (.download (newId "f" sampleId))) [] with
        stored := .failed }]

def broken : List ServerEvent × Server :=
  History.replay (Server.step .sample defaultConfig) [] .empty brokenScript

end Faults

end Outletbox
