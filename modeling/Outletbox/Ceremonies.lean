import Outletbox.Factors

/-!
# Passkey ceremonies

A challenge, its purpose and its deadline live on a session row.  Whatever
happens in between, a ceremony succeeds only with the challenge that was drawn
last for its own session and purpose, and after a success the session has no
challenge until the next one is drawn.
-/

namespace Outletbox

namespace Ceremonies

open Factors

variable (P : Platform)

/-! ## Ceremonies and their success -/

/-- The session a call ends a ceremony of, and the purpose. -/
def ceremony (c : Call) : Option (String × CeremonyPurpose) :=
  match c.op with
  | .registerPasskey _ input _ => some (P.sha256Hex input.sessionId, .register)
  | .verifyPasskeyLogin input _ _ => some (P.sha256Hex input.sessionId, .login)
  | .verifyPasskeyConfirm input _ => some (P.sha256Hex input.sessionId, .confirm)
  | _ => none

/-- The assertion a call checks, with the account it is for. -/
def assertionOf (c : Call) : Option (AssertPasskeyInput × RelyingParty) :=
  match c.op with
  | .verifyPasskeyLogin input rp login => some (login.assertion input, rp)
  | .verifyPasskeyConfirm input rp => some (input, rp)
  | _ => none

def isSuccess : Output → Bool
  | .registered _ => true
  | .asserted (.ok _) => true
  | _ => false

structure Succeeds (idHash : String) (purpose : CeremonyPurpose) (e : Event) : Prop where
  called : ceremony P e.input = some (idHash, purpose)
  done : isSuccess e.output = true

/-- A challenge was drawn for a session and a purpose. -/
def Begins (idHash : String) (purpose : CeremonyPurpose) (challenge : String) (t : Int)
    (e : Event) : Prop :=
  ∃ sessionId, e.input = ⟨t, .beginCeremony challenge sessionId purpose⟩ ∧
    P.sha256Hex sessionId = idHash

/-- The answer a call was given was checked against a challenge. -/
inductive Answers (challenge : String) (e : Event) : Prop
  | registration (id : String) (input : RegisterPasskeyInput) (rp : RelyingParty)
      (reg : VerifiedRegistration) : e.input.op = .registerPasskey id input rp →
      verifyRegistration P input.answer ⟨challenge, rp.origin, rp.rpId⟩ = .ok reg →
      Answers challenge e
  | assertion (input : AssertPasskeyInput) (rp : RelyingParty) (cred : PasskeyRow)
      (signCount : Nat) : assertionOf e.input = some (input, rp) →
      Asserted P input rp challenge cred signCount e.pre →
      e.post.passkeys = (recordUse e.input.now cred.id signCount e.pre).passkeys →
      Answers challenge e

/-! ## Pending challenges -/

/-- Every pending challenge was pending before. -/
def Pend (d d' : AccountDb) : Prop :=
  ∀ s' ∈ d'.sessions, s'.webauthnChallenge = none ∨ ∃ s ∈ d.sessions, SameCeremony s s'

/-- The session has no pending challenge. -/
def Idle (idHash : String) (d : AccountDb) : Prop :=
  ∀ s ∈ d.sessions, s.idHash = idHash → s.webauthnChallenge = none

/-- The law of the ceremonies.  A success uses the challenge drawn last for its session and
purpose, before its deadline; between two successes of a session another challenge is drawn;
an asserted passkey is one of the account, and its counter grows unless it is zero; and no
counter decreases as long as its passkey is there. -/
structure Law (h : List Event) (d : AccountDb) : Prop where
  issued : ∀ later e earlier, h = later ++ e :: earlier → ∀ idHash purpose,
    Succeeds P idHash purpose e → ∃ challenge t, Answers P challenge e ∧
      (isoLt e.input.now (t + ceremonyTtlMs) ∧
        (e.input.now < year10000 → e.input.now < t + ceremonyTtlMs)) ∧
      History.Since (Begins P idHash purpose challenge t)
        (fun x => ∀ purpose', ¬ Succeeds P idHash purpose' x) earlier
  single : ∀ later e between e' earlier, h = later ++ e :: (between ++ e' :: earlier) →
    ∀ idHash purpose purpose', Succeeds P idHash purpose e → Succeeds P idHash purpose' e' →
      ∃ x ∈ between, ∃ challenge t, Begins P idHash purpose challenge t x
  owner : ∀ e ∈ h, ∀ input rp, assertionOf e.input = some (input, rp) →
    isSuccess e.output = true → ∃ cred ∈ e.pre.passkeys,
      cred.credentialId = input.credentialId ∧ cred.adminId = input.adminId ∧
        ∀ q ∈ e.post.passkeys, q.id = cred.id → cred.signCount ≠ 0 → cred.signCount < q.signCount
  counter : ∀ later e earlier, h = later ++ e :: earlier → ∀ p ∈ e.post.passkeys,
    (∀ x ∈ later, ∃ q ∈ x.post.passkeys, q.id = p.id) →
      ∀ q ∈ d.passkeys, q.id = p.id → p.signCount ≤ q.signCount

section

variable {P} {d d₁ d' : AccountDb} {c : Call} {now : Int} {idHash challenge : String}
  {purpose : CeremonyPurpose} {input : AssertPasskeyInput} {rp : RelyingParty}

theorem Pend.of_sessions (h : d'.sessions = d.sessions) : Pend d d' := by
  intro s hs
  rw [h] at hs
  exact .inr ⟨s, hs, .refl s⟩

theorem Pend.trans (h₁ : Pend d d₁) (h₂ : Pend d₁ d') : Pend d d' := by
  intro s' hs'
  rcases h₂ s' hs' with hnone | ⟨s, hs, hsame⟩
  · exact .inl hnone
  · rcases h₁ s hs with hnone | ⟨s₀, hs₀, hsame₀⟩
    · exact .inl (hsame.challenge.trans hnone)
    · exact .inr ⟨s₀, hs₀, hsame.idHash.trans hsame₀.idHash,
        hsame.challenge.trans hsame₀.challenge, hsame.purpose.trans hsame₀.purpose,
        hsame.expiresAt.trans hsame₀.expiresAt⟩

theorem Pend.of_update {p : SessionRow → Bool} {f : SessionRow → SessionRow}
    (h : d'.sessions = Table.update p f d.sessions)
    (hf : ∀ s, (f s).webauthnChallenge = none ∨ SameCeremony s (f s)) : Pend d d' := by
  intro s' hs'
  rw [h] at hs'
  obtain ⟨s, hs, rfl⟩ := Table.mem_update.1 hs'
  split
  · exact (hf s).imp id fun hsame => ⟨s, hs, hsame⟩
  · exact .inr ⟨s, hs, .refl s⟩

/-- What the calls do to the sessions makes no challenge pending. -/
theorem Pend.of_move {drawn : Option String} (h : SessionsMove drawn d d') : Pend d d' := by
  induction h with
  | same hrows hbindings => exact .of_sessions hrows
  | update p f hrows hbindings hf => exact .of_update hrows fun s => (hf s).ceremony
  | delete p hrows hbindings =>
      intro s hs
      rw [hrows] at hs
      exact .inr ⟨s, (Table.mem_delete.1 hs).1, .refl s⟩
  | append row hfresh hdrawn hrow hrows hbindings =>
      intro s hs
      rw [hrows] at hs
      rcases List.mem_append.1 hs with hs | hs
      · exact .inr ⟨s, hs, .refl s⟩
      · exact .inl (List.mem_singleton.1 hs ▸ hrow.ceremony)
  | trans _ _ ih₁ ih₂ => exact ih₁.trans ih₂

/-- An idle session stays idle until a challenge is drawn for it. -/
theorem Idle.pend (hi : Idle idHash d) (h : Pend d d') : Idle idHash d' := by
  intro s' hs' hid
  rcases h s' hs' with hnone | ⟨s, hs, hsame⟩
  · exact hnone
  · exact hsame.challenge.trans (hi s hs (hsame.idHash.symm.trans hid))

theorem idle_dropChallenge : Idle idHash (dropChallenge idHash d) := by
  intro s' hs' hid
  obtain ⟨s, hs, rfl⟩ := Table.mem_update.1 hs'
  split
  · rfl
  · rename_i hne
    rw [if_neg hne] at hid
    exact absurd hid (by simpa using hne)

/-! ## Successes -/

/-- The counter rule of `verifyAssertion`. -/
theorem verifyAssertion_counter {answer : AssertionInput} {cred : StoredCredential}
    {exp : Expected} {n : Nat} (h : verifyAssertion P answer cred exp = .ok n) :
    cred.signCount < n ∨ (n = 0 ∧ cred.signCount = 0) := by
  unfold verifyAssertion at h
  obtain ⟨clientData, -, h⟩ := Fallible.bind_eq_ok.1 h
  obtain ⟨authData, -, h⟩ := Fallible.bind_eq_ok.1 h
  obtain ⟨signature, -, h⟩ := Fallible.bind_eq_ok.1 h
  obtain ⟨_, -, h⟩ := Fallible.bind_eq_ok.1 h
  obtain ⟨ad, -, h⟩ := Fallible.bind_eq_ok.1 h
  obtain ⟨_, -, h⟩ := Fallible.bind_eq_ok.1 h
  obtain ⟨key, -, h⟩ := Fallible.bind_eq_ok.1 h
  simp only [] at h
  generalize P.verifyDer _ _ key signature = good at h
  cases good with
  | false => cases h
  | true =>
      simp only [Bool.not_true, Bool.false_eq_true, if_false] at h
      split at h
      · cases h
      · rename_i hback
        cases h
        omega

theorem asserted_counter {cred : PasskeyRow} {n : Nat}
    (h : Asserted P input rp challenge cred n d) :
    cred.signCount < n ∨ (n = 0 ∧ cred.signCount = 0) :=
  verifyAssertion_counter h.verified

theorem success_orFailed {α : Type} {x : Except Failure (α × AccountDb)} {f : α → Output}
    (h : isSuccess (orFailed d x f).2 = true) :
    ∃ a d', x = .ok (a, d') ∧ (orFailed d x f).1 = d' := by
  cases x with
  | error e => cases h
  | ok r => exact ⟨r.1, r.2, rfl, rfl⟩

/-- A success answers the pending challenge of its session, which is gone afterwards. -/
theorem succeeds_cases (h : Succeeds P idHash purpose (History.fire (step P) d c)) :
    ∃ challenge, Awaits c.now idHash purpose challenge d ∧
      Answers P challenge (History.fire (step P) d c) ∧ Idle idHash (step P d c).1 := by
  obtain ⟨now, op⟩ := c
  obtain ⟨hcalled, hdone⟩ := h
  rw [History.fire_input] at hcalled
  rw [History.fire_output] at hdone
  cases op with
  | registerPasskey id input rp =>
      cases hcalled
      obtain ⟨passkey, d', hx, hd'⟩ := success_orFailed hdone
      obtain ⟨challenge, reg, hawaits, hreg, -, -, hrows⟩ := registerPasskey_ok hx
      refine ⟨challenge, hawaits, .registration id input rp reg rfl hreg, ?_⟩
      rw [step, hd', hrows]
      exact idle_dropChallenge.pend (.of_update rfl fun s => .inr ⟨rfl, rfl, rfl, rfl⟩)
  | verifyPasskeyLogin input rp login =>
      cases hcalled
      have hstep : step P d ⟨now, .verifyPasskeyLogin input rp login⟩ =
          answered (verifyPasskeyLogin P now login.draw (login.assertion input) rp login.admin
            login.ttlMs d) .asserted := rfl
      rcases verifyPasskeyLogin_cases (P := P) now login.draw (login.assertion input) rp login.admin
          login.ttlMs d with
        ⟨e, hx⟩ | ⟨e, hx⟩ | ⟨challenge, cred, n, d', hawaits, hasserted, hcomplete, hx⟩
      · rw [hstep, hx] at hdone
        cases hdone
      · rw [hstep, hx] at hdone
        cases hdone
      · rw [hx] at hstep
        have hrows := passkeysMove_completed hcomplete
        refine ⟨challenge, hawaits, .assertion (login.assertion input) rp cred n rfl hasserted ?_, ?_⟩
        · rw [History.fire_post, hstep]
          exact hrows
        · rw [hstep]
          refine Idle.pend ?_ (.of_move (sessionsMove_completed hcomplete))
          exact idle_dropChallenge.pend (.of_sessions rfl)
  | verifyPasskeyConfirm input rp =>
      cases hcalled
      have hstep : step P d ⟨now, .verifyPasskeyConfirm input rp⟩ =
          answered (checkAssertion P now .confirm input rp d) .asserted := rfl
      rcases checkAssertion_cases (P := P) now .confirm input rp d with
        ⟨e, hx⟩ | ⟨challenge, cred, n, hawaits, hasserted, hx⟩
      · rw [hstep, hx] at hdone
        cases hdone
      · rw [hx] at hstep
        refine ⟨challenge, hawaits, .assertion input rp cred n rfl hasserted ?_, ?_⟩
        · rw [History.fire_post, hstep]
          rfl
        · rw [hstep]
          exact idle_dropChallenge.pend (.of_sessions rfl)
  | _ => cases hcalled

/-! ## Where a pending challenge comes from -/

/-- Every pending challenge was drawn for its session and purpose, and no ceremony of the
session succeeded since. -/
def Traced (P : Platform) (h : List Event) (d : AccountDb) : Prop :=
  ∀ s ∈ d.sessions, ∀ challenge purpose expiresAt, s.webauthnChallenge = some challenge →
    s.webauthnPurpose = some purpose → s.webauthnExpiresAt = some expiresAt →
      ∃ t, expiresAt = t + ceremonyTtlMs ∧
        History.Since (Begins P s.idHash purpose challenge t)
          (fun x => ∀ purpose', ¬ Succeeds P s.idHash purpose' x) h

/-- A challenge that was pending before is still traced unless its session succeeds. -/
theorem Traced.later {h : List Event} (ht : Traced P h d)
    (hpend : Pend d (step P d c).1) :
    Traced P (History.fire (step P) d c :: h) (step P d c).1 := by
  intro s' hs' challenge purpose expiresAt hchallenge hpurpose hexpires
  rcases hpend s' hs' with hnone | ⟨s, hs, hsame⟩
  · rw [hnone] at hchallenge
    cases hchallenge
  · obtain ⟨t, hexp, hsince⟩ := ht s hs challenge purpose expiresAt
      (hsame.challenge.symm.trans hchallenge) (hsame.purpose.symm.trans hpurpose)
      (hsame.expiresAt.symm.trans hexpires)
    rw [hsame.idHash]
    refine ⟨t, hexp, .later ?_ hsince⟩
    intro purpose' hsucceeds
    obtain ⟨-, -, -, hidle⟩ := succeeds_cases hsucceeds
    have hnone := hidle s' hs' hsame.idHash
    rw [hnone] at hchallenge
    cases hchallenge

theorem traced_step {h : List Event} (c : Call) (ht : Traced P h d) :
    Traced P (History.fire (step P) d c :: h) (step P d c).1 := by
  by_cases hop : ∃ challenge sessionId purpose, c.op = .beginCeremony challenge sessionId purpose
  · obtain ⟨challenge, sessionId, purpose, hop⟩ := hop
    obtain ⟨now, op⟩ := c
    cases hop
    intro s' hs' challenge' purpose' expiresAt hchallenge hpurpose hexpires
    obtain ⟨s, hs, hsame⟩ := Table.mem_update.1 hs'
    by_cases hid : (s.idHash == P.sha256Hex sessionId) = true
    · rw [if_pos hid] at hsame
      subst hsame
      cases hchallenge
      cases hpurpose
      cases hexpires
      refine ⟨now, rfl, .now ⟨sessionId, rfl, ?_⟩⟩
      simpa using (beq_iff_eq.1 hid).symm
    · rw [if_neg hid] at hsame
      subst hsame
      obtain ⟨t, hexp, hsince⟩ := ht s hs challenge' purpose' expiresAt hchallenge hpurpose hexpires
      refine ⟨t, hexp, .later ?_ hsince⟩
      rintro _ ⟨hcalled, -⟩
      cases hcalled
  · exact ht.later (.of_move (sessionsMove c fun challenge sessionId purpose he => hop ⟨_, _, _, he⟩))

/-! ## Counters -/

/-- The passkey is there, and its counter has reached a value. -/
structure Reached (id : String) (n : Nat) (d : AccountDb) : Prop where
  distinct : (d.passkeys.map (·.id)).Nodup
  present : ∃ p ∈ d.passkeys, p.id = id
  counter : ∀ p ∈ d.passkeys, p.id = id → n ≤ p.signCount

theorem reached_step {id : String} {n : Nat} (hr : Reached id n d)
    (hpresent : ∃ q ∈ (step P d c).1.passkeys, q.id = id) : Reached id n (step P d c).1 := by
  have hm := passkeysMove (P := P) d c
  refine ⟨nodup_passkeys_of_move hm hr.distinct, hpresent, ?_⟩
  intro q hq hid
  cases hm with
  | same hrows => exact hr.counter q (hrows ▸ hq) hid
  | register id' challenge input rp reg hop hawaits hreg hfree hrows =>
      rw [hrows] at hq
      rcases List.mem_append.1 hq with hq | hq
      · exact hr.counter q hq hid
      · obtain ⟨p, hp, hpid⟩ := hr.present
        rw [List.mem_singleton.1 hq] at hid
        exact absurd (hpid.trans hid.symm) (hfree p hp)
  | use challenge purpose input rp cred m hawaits hasserted hrows =>
      rw [hrows] at hq
      obtain ⟨p, hp, rfl⟩ := Table.mem_update.1 hq
      split
      · rename_i hcred
        have hpid : p.id = id := by
          rw [if_pos hcred] at hid
          exact hid
        have hsame : p = cred :=
          Table.eq_of_key hr.distinct hp hasserted.mem (by simpa using hcred)
        have hle := hr.counter p hp hpid
        have hgrow := asserted_counter hasserted
        rw [hsame] at hle
        show n ≤ m
        omega
      · rename_i hcred
        rw [if_neg hcred] at hid
        exact hr.counter p hp hid
  | drop id' p hc hp hrows =>
      rw [hrows] at hq
      exact hr.counter q (Table.mem_delete.1 hq).1 hid

/-! ## Every run -/

theorem owner_of_success {input : AssertPasskeyInput} {rp : RelyingParty} {e : Event}
    (he : e = History.fire (step P) d c) (hinput : assertionOf e.input = some (input, rp))
    (hdone : isSuccess e.output = true) : ∃ cred ∈ e.pre.passkeys,
      cred.credentialId = input.credentialId ∧ cred.adminId = input.adminId ∧
        ∀ q ∈ e.post.passkeys, q.id = cred.id → cred.signCount ≠ 0 →
          cred.signCount < q.signCount := by
  have hcalled : ∃ idHash purpose, ceremony P e.input = some (idHash, purpose) := by
    unfold assertionOf at hinput
    unfold ceremony
    split at hinput
    · rename_i hop
      rw [hop]
      exact ⟨_, _, rfl⟩
    · rename_i hop
      rw [hop]
      exact ⟨_, _, rfl⟩
    · cases hinput
  obtain ⟨idHash, purpose, hcalled⟩ := hcalled
  subst he
  obtain ⟨challenge, -, hanswers, -⟩ := succeeds_cases ⟨hcalled, hdone⟩
  cases hanswers with
  | registration id input' rp' reg hop hreg =>
      rw [assertionOf, hop] at hinput
      cases hinput
  | assertion input' rp' cred n hinput' hasserted hrows =>
      rw [hinput] at hinput'
      cases hinput'
      refine ⟨cred, hasserted.mem, hasserted.credential, hasserted.owner, ?_⟩
      intro q hq hid hzero
      rw [hrows] at hq
      obtain ⟨p, hp, rfl⟩ := Table.mem_update.1 hq
      have hgrow := asserted_counter hasserted
      split
      · show cred.signCount < n
        omega
      · rename_i hne
        rw [if_neg hne] at hid
        exact absurd hid (by simpa using hne)

theorem ceremonies {h : List Event} (hr : History.Run (step P) env .empty h d) : Law P h d := by
  have htraced : ∀ {h d}, History.Run (step P) env .empty h d → Traced P h d := fun hr =>
    History.Run.invariant (I := Traced P) (by intro s hs; cases hs)
      (fun _ _ c _ _ ht => traced_step c ht) hr
  have hissued : ∀ {later earlier : List Event} {e : Event} {d : AccountDb} {idHash : String}
      {purpose : CeremonyPurpose}, History.Run (step P) env .empty (later ++ e :: earlier) d →
      Succeeds P idHash purpose e → ∃ challenge t, Answers P challenge e ∧
        isoLt e.input.now (t + ceremonyTtlMs) ∧
        History.Since (Begins P idHash purpose challenge t)
          (fun x => ∀ purpose', ¬ Succeeds P idHash purpose' x) earlier := by
    intro later earlier e d idHash purpose hr hsucceeds
    obtain ⟨c, hearlier, -, he⟩ := hr.split
    rw [he] at hsucceeds ⊢
    obtain ⟨challenge, ⟨s, hs, rfl, hchallenge, hpurpose, expiresAt, hexpires, hlt⟩, hanswers, -⟩ :=
      succeeds_cases hsucceeds
    obtain ⟨t, rfl, hsince⟩ :=
      htraced hearlier s hs challenge purpose expiresAt hchallenge hpurpose hexpires
    exact ⟨challenge, t, hanswers, hlt, hsince⟩
  refine ⟨?_, ?_, ?_, ?_⟩
  · rintro later e earlier rfl idHash purpose hsucceeds
    obtain ⟨challenge, t, hanswers, hlt, hsince⟩ := hissued hr hsucceeds
    exact ⟨challenge, t, hanswers, ⟨hlt, fun hnow => lt_of_isoLt hnow hlt⟩, hsince⟩
  · rintro later e between e' earlier rfl idHash purpose purpose' hsucceeds hsucceeds'
    obtain ⟨challenge, t, -, -, hsince⟩ := hissued hr hsucceeds
    have hnot : ¬ Begins P idHash purpose challenge t e' := by
      rintro ⟨sessionId, hinput, -⟩
      have hcalled := hsucceeds'.called
      rw [hinput] at hcalled
      cases hcalled
    obtain ⟨x, hx, hbegins⟩ := hsince.not_after (fun hno => hno purpose' hsucceeds') hnot
    exact ⟨x, hx, challenge, t, hbegins⟩
  · intro e he input rp hinput hdone
    obtain ⟨c, heq⟩ := hr.of_mem he
    exact owner_of_success heq hinput hdone
  · rintro later e earlier rfl p hp hpresent q hq hid
    have hdistinct : ∀ {h d}, History.Run (step P) env .empty h d →
        (d.passkeys.map (·.id)).Nodup := fun hr =>
      History.Run.invariant (I := fun _ d => (d.passkeys.map (·.id)).Nodup) List.nodup_nil
        (fun _ d c _ _ hn => nodup_passkeys_of_move (passkeysMove d c) hn) hr
    obtain ⟨c, hearlier, -, he⟩ := hr.split
    have hpost : (e.post.passkeys.map (·.id)).Nodup := by
      rw [he]
      exact hdistinct (hearlier.step c trivial)
    have hstart : Reached p.id p.signCount e.post :=
      ⟨hpost, ⟨p, hp, rfl⟩, fun x hx hid => by rw [Table.eq_of_key hpost hx hp hid]⟩
    exact (hr.keeps (fun _ _ hs hq => reached_step hs hq) hstart hpresent).counter q hq hid

end

/-! ## An account that registers a passkey and confirms with it -/

/-- A host whose browser answers every challenge `abc`, and whose signatures are right. -/
def sampleHost : Platform :=
  { Platform.sample with
    sha256 := fun _ => List.replicate 32 0
    base64urlDecode := fun s => s.toList.map fun c => UInt8.ofNat (c.toNat - 45)
    base64urlEncode := fun data => String.ofList (data.map fun b => Char.ofNat (b.toNat + 45))
    parseJson := fun data => some (.obj [
      ("type", .str (if data = [0] then "webauthn.create" else "webauthn.get")),
      ("challenge", .str "abc"), ("origin", .str "https://panel.example")])
    spkiKey := fun _ => some ⟨"ed25519", none, none, []⟩
    verifyDer := fun _ _ _ _ => true }

def sampleParty : RelyingParty := ⟨"https://panel.example", "panel.example"⟩

/-- The authenticator reports the counter 3 with its attested credential `abc`. -/
def sampleRegistration : RegisterPasskeyInput where
  sessionId := "s"
  adminId := "a_1"
  name := "Key"
  answer := {
    clientDataJSON := "-"
    authenticatorData := String.ofList (List.replicate 32 '-') ++ "n---0" ++
      String.ofList (List.replicate 16 '-') ++ "-0abc"
    publicKey := "key"
    algorithm := some (-8)
    credentialId := "abc" }

/-- The authenticator signs with the counter 4. -/
def sampleAssertion : AssertPasskeyInput where
  sessionId := "s"
  adminId := "a_1"
  credentialId := "abc"
  answer := {
    clientDataJSON := "0"
    authenticatorData := String.ofList (List.replicate 32 '-') ++ "0---1"
    signature := "sig" }

/-- An account registers a passkey, and a challenge to confirm is drawn at `t`. -/
def passkeyCalls (t : Int) : List Call :=
  [⟨0, .createAdmin "1" "salt" ⟨"ada", "correct horse", .user, false⟩⟩,
    ⟨1, .signIn ⟨"s", "csrf", "1"⟩ "ada" "correct horse" 1000000 ⟨none, none⟩⟩,
    ⟨2, .beginCeremony "abc" "s" .register⟩,
    ⟨3, .registerPasskey "1" sampleRegistration sampleParty⟩,
    ⟨t, .beginCeremony "abc" "s" .confirm⟩]

theorem run_passkeyCalls (t : Int) (calls : List Call) :
    let r := History.replay (step sampleHost) [] .empty (passkeyCalls t ++ calls)
    History.Run (step sampleHost) env .empty r.1 r.2 :=
  History.run_replay .start (History.admits_of_forall (fun _ _ _ => trivial) _ _ _)

theorem ceremonies_confirmed :
    let r := History.replay (step sampleHost) [] .empty
      (passkeyCalls 4 ++ [⟨5, .verifyPasskeyConfirm sampleAssertion sampleParty⟩])
    Law sampleHost r.1 r.2 :=
  ceremonies (run_passkeyCalls 4 _)

/-- A challenge of the last minutes of the year 9999 is accepted in a later year, whose
time stamps sort before its deadline. -/
theorem old_challenge_accepted :
    let t := year10000 - 2 * ceremonyTtlMs
    let c : Call := ⟨year10000 + 10 ^ 10, .verifyPasskeyConfirm sampleAssertion sampleParty⟩
    let r := History.replay (step sampleHost) [] .empty (passkeyCalls t)
    History.Run (step sampleHost) env .empty r.1 r.2 ∧
      isSuccess (step sampleHost r.2 c).2 = true ∧ t + ceremonyTtlMs < c.now := by
  refine ⟨?_, by decide +kernel, by decide⟩
  have hr := run_passkeyCalls (year10000 - 2 * ceremonyTtlMs) []
  rwa [List.append_nil] at hr

end Ceremonies

end Outletbox
