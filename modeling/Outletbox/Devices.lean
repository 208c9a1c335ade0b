import Outletbox.Factors
import Outletbox.Services.Sessions

/-!
# Sessions bound to a device

A complete session is offered a challenge once.  A browser that answers it with
a signed proof binds the session to its key, and from then on the session needs
a cookie that only further proofs of that key renew.  The requests come from
anyone and in any order, between the operations that open and end sessions.
-/

namespace Outletbox

namespace Devices

open Factors (SessionsMove SameCeremony Touched Blank)

variable (P : Platform)

/-! ## The system -/

inductive Op
  /-- An operation on accounts, their sessions and their second factors. -/
  | account (op : Factors.Op)
  | setUserDisabled (actorId id : String) (disabled : Bool)
  | offerBinding (challenge sessionId : String)
  | registerBinding (draw : BindingDraw) (sessionId jwt : String)
  | refreshBinding (draw : BindingDraw) (bindingId : String) (jwt : Option String)
  | checkBoundCookie (sessionId : String) (boundCookie : Option String)

/-- An operation and the instant it runs at. -/
structure Call where
  now : Int
  op : Op

inductive Output
  | account (out : Factors.Output)
  | disabled
  | offered (challenge : Option String)
  | issued (cookie : IssuedCookie)
  | refreshed (result : RefreshResult)
  | checked (answer : BoundCookieCheck)
  | failed (why : Failure)

def step (d : AccountDb) (c : Call) : AccountDb × Output :=
  match c.op with
  | .account op => ((Factors.step P d ⟨c.now, op⟩).1, .account (Factors.step P d ⟨c.now, op⟩).2)
  | .setUserDisabled actorId id disabled =>
      match Outletbox.setUserDisabled c.now actorId id disabled d with
      | .ok (_, d') => (d', .disabled)
      | .error e => (d, .failed e)
  | .offerBinding challenge sessionId =>
      ((Outletbox.offerBinding P c.now challenge sessionId d).2,
        .offered (Outletbox.offerBinding P c.now challenge sessionId d).1)
  | .registerBinding draw sessionId jwt =>
      match Outletbox.registerBinding P c.now draw sessionId jwt d with
      | .ok (issued, d') => (d', .issued issued)
      | .error e => (d, .failed e)
  | .refreshBinding draw bindingId jwt =>
      match Outletbox.refreshBinding P c.now draw bindingId jwt d with
      | .ok (result, d') => (d', .refreshed result)
      | .error e => (d, .failed e)
  | .checkBoundCookie sessionId boundCookie =>
      (d, .checked (Outletbox.checkBoundCookie P c.now sessionId boundCookie d))

/-- A call as it was made. -/
abbrev Event := History.Event AccountDb Call Output

/-- The hash of the session a call draws. -/
def drawnSession (c : Call) : Option String :=
  match c.op with
  | .account op => Factors.drawnSession P ⟨c.now, op⟩
  | _ => none

/-- The challenge a call draws. -/
def drawnChallenge (c : Call) : Option String :=
  match c.op with
  | .offerBinding challenge _ => some challenge
  | .refreshBinding draw _ _ => some draw.challenge
  | _ => none

/-- A call draws nothing an earlier one drew. -/
def Apart (earlier c : Call) : Prop :=
  (∀ x ∈ drawnSession P c, drawnSession P earlier ≠ some x) ∧
    ∀ x ∈ drawnChallenge c, drawnChallenge earlier ≠ some x

instance : DecidableRel (Apart P) := fun _ _ => inferInstanceAs (Decidable (_ ∧ _))

/-- Calls come in any order and at any instant.  What is drawn at random never repeats. -/
def env (h : List Event) (_ : AccountDb) (c : Call) : Prop := ∀ e ∈ h, Apart P e.input c

/-! ## What was offered and issued -/

/-- The challenge a call offers a session. -/
def offerOf (idHash : String) (e : Event) : Option String :=
  match e.input.op, e.output with
  | .offerBinding _ sessionId, .offered (some challenge) =>
      if P.sha256Hex sessionId = idHash then some challenge else none
  | _, _ => none

/-- The challenges a session was offered, newest first. -/
def offers (idHash : String) (h : List Event) : List String := h.filterMap (offerOf P idHash)

/-- The challenge a call gives a binding, and when. -/
def challengeOf (bindingId : String) (e : Event) : Option (String × Int) :=
  match e.input.op, e.output with
  | .refreshBinding _ id _, .refreshed (.challenge _ challenge) =>
      if id = bindingId then some (challenge, e.input.now) else none
  | .refreshBinding _ id _, .refreshed (.ok issued) =>
      if id = bindingId then issued.nextChallenge.map fun c => (c, e.input.now) else none
  | _, _ => none

/-- The challenges issued by a binding, newest first. -/
def challenges (bindingId : String) (h : List Event) : List (String × Int) :=
  h.filterMap (challengeOf bindingId)

/-- The bound cookie a call issues for a session, and when. -/
def cookieOf (idHash : String) (e : Event) : Option (String × Int) :=
  match e.input.op, e.output with
  | .registerBinding _ sessionId _, .issued issued =>
      if P.sha256Hex sessionId = idHash then some (issued.cookie, e.input.now) else none
  | .refreshBinding _ id _, .refreshed (.ok issued) =>
      if e.pre.bindings.any fun b => b.id == id && b.sessionHash == idHash then
        some (issued.cookie, e.input.now)
      else none
  | _, _ => none

/-- The bound cookies issued for a session, newest first. -/
def cookies (idHash : String) (h : List Event) : List (String × Int) :=
  h.filterMap (cookieOf P idHash)

/-- The call answers a proof with a bound cookie. -/
inductive Yields (jwt : String) (e : Event) : Prop
  | registration (now : Int) (draw : BindingDraw) (sessionId : String) (issued : IssuedCookie) :
      e.input = ⟨now, .registerBinding draw sessionId jwt⟩ → e.output = .issued issued →
      Yields jwt e
  | refresh (now : Int) (draw : BindingDraw) (bindingId : String) (issued : IssuedCookie) :
      e.input = ⟨now, .refreshBinding draw bindingId (some jwt)⟩ →
      e.output = .refreshed (.ok issued) → Yields jwt e

def HasSession (idHash : String) (d : AccountDb) : Prop := ∃ s ∈ d.sessions, s.idHash = idHash

/-- The law of the device bindings. -/
structure Law (h : List Event) (d : AccountDb) : Prop where
  /-- Only a verified session is offered a challenge. -/
  verified : ∀ e ∈ h, ∀ idHash challenge, offerOf P idHash e = some challenge →
    ∃ s ∈ e.pre.sessions, s.idHash = idHash ∧ s.totpVerified = true
  once : ∀ idHash, (offers P idHash h).length ≤ 1
  /-- A binding is created by a signed proof over the challenge its session was offered. -/
  created : ∀ later e earlier, h = later ++ e :: earlier → ∀ b ∈ e.post.bindings,
    (∀ b₀ ∈ e.pre.bindings, b₀.id ≠ b.id) → ∃ now draw sessionId jwt jti,
      e.input = ⟨now, .registerBinding draw sessionId jwt⟩ ∧
      P.sha256Hex sessionId = b.sessionHash ∧ SignedWith P b.alg b.jwk jti jwt ∧
      offers P b.sessionHash earlier = [jti]
  /-- As long as its session is there, so is the binding, with the same key. -/
  bound : ∀ later e earlier, h = later ++ e :: earlier → ∀ b ∈ e.post.bindings,
    HasSession b.sessionHash d →
      (∃ b', bindingOf b.sessionHash d = some b' ∧ b'.id = b.id ∧ b'.alg = b.alg ∧ b'.jwk = b.jwk) ∧
      ∀ now sessionId cookie, P.sha256Hex sessionId = b.sessionHash →
        checkBoundCookie P now sessionId cookie d ≠ .unbound
  /-- Only the latest bound cookie and the one before it are good, and not for long. -/
  cookie : ∀ now sessionId cookie, checkBoundCookie P now sessionId cookie d = .ok →
    ∃ c t, cookie = some c ∧
      ((cookies P (P.sha256Hex sessionId) h)[0]? = some (c, t) ∨
        (cookies P (P.sha256Hex sessionId) h)[1]? = some (c, t)) ∧
      isoLt (now - graceMs) (t + boundCookieTtlMs) ∧
      (now < year10000 → now < t + boundCookieTtlMs + graceMs)
  /-- A refresh uses the challenge its binding issued last, before its deadline. -/
  refreshed : ∀ later e earlier, h = later ++ e :: earlier → ∀ now draw bindingId proof issued,
    e.input = ⟨now, .refreshBinding draw bindingId proof⟩ → e.output = .refreshed (.ok issued) →
      ∃ b ∈ e.pre.bindings, ∃ jwt jti t, b.id = bindingId ∧ proof = some jwt ∧
        SignedWith P b.alg b.jwk jti jwt ∧
        (challenges bindingId earlier).head? = some (jti, t) ∧
        isoLt now (t + dbscChallengeTtlMs) ∧ (now < year10000 → now < t + dbscChallengeTtlMs)
  /-- No proof yields two cookies. -/
  single : ∀ later e between e' earlier, h = later ++ e :: (between ++ e' :: earlier) →
    ∀ jwt, Yields jwt e → ¬ Yields jwt e'

/-! ## What the account operations leave alone -/

/-- What an operation that is none of the four does to the sessions and the bindings. -/
structure Frame (drawn : Option String) (d d' : AccountDb) : Prop where
  distinct : (d'.sessions.map (·.idHash)).Nodup
  sessions : ∀ s' ∈ d'.sessions,
    (∃ s ∈ d.sessions, s.idHash = s'.idHash ∧ s'.dbscChallenge = s.dbscChallenge ∧
      s'.dbscOfferedAt = s.dbscOfferedAt) ∨
    (drawn = some s'.idHash ∧ s'.dbscChallenge = none ∧ s'.dbscOfferedAt = none)
  bindings : d'.bindings.Sublist d.bindings
  kept : ∀ b ∈ d.bindings, drawn ≠ some b.sessionHash → HasSession b.sessionHash d' →
    b ∈ d'.bindings

section

variable {P} {d d₁ d' : AccountDb} {drawn : Option String} {c : Call} {h : List Event}
  {idHash : String} {out : Output}

theorem Frame.of_rows (hn : (d.sessions.map (·.idHash)).Nodup) (hrows : d'.sessions = d.sessions)
    (hbindings : d'.bindings = d.bindings) : Frame drawn d d' := by
  refine ⟨by rwa [hrows], ?_, hbindings ▸ .refl _, fun b hb _ _ => hbindings ▸ hb⟩
  intro s hs
  exact .inl ⟨s, hrows ▸ hs, rfl, rfl, rfl⟩

theorem Frame.of_update {p : SessionRow → Bool} {f : SessionRow → SessionRow}
    (hn : (d.sessions.map (·.idHash)).Nodup) (hrows : d'.sessions = Table.update p f d.sessions)
    (hbindings : d'.bindings = d.bindings) (hid : ∀ s, (f s).idHash = s.idHash)
    (hchallenge : ∀ s, (f s).dbscChallenge = s.dbscChallenge)
    (hoffered : ∀ s, (f s).dbscOfferedAt = s.dbscOfferedAt) : Frame drawn d d' := by
  refine ⟨?_, ?_, hbindings ▸ .refl _, fun b hb _ _ => hbindings ▸ hb⟩
  · rw [hrows]
    exact Table.nodup_update hid hn
  · intro s' hs'
    rw [hrows] at hs'
    obtain ⟨s, hs, rfl⟩ := Table.mem_update.1 hs'
    refine .inl ⟨s, hs, ?_⟩
    split
    · exact ⟨(hid s).symm, hchallenge s, hoffered s⟩
    · exact ⟨rfl, rfl, rfl⟩

/-- A session that is still there keeps its binding. -/
theorem Frame.of_delete {p : SessionRow → Bool} (hn : (d.sessions.map (·.idHash)).Nodup)
    (hrows : d'.sessions = (deletePanelSessions p d).sessions)
    (hbindings : d'.bindings = (deletePanelSessions p d).bindings) : Frame drawn d d' := by
  refine ⟨?_, ?_, ?_, ?_⟩
  · rw [hrows]
    exact Table.nodup_delete hn
  · intro s hs
    rw [hrows] at hs
    exact .inl ⟨s, (Table.mem_delete.1 hs).1, rfl, rfl, rfl⟩
  · rw [hbindings]
    exact List.filter_sublist
  · rintro b hb - ⟨s, hs, hid⟩
    rw [hrows] at hs
    obtain ⟨hs, hstays⟩ := Table.mem_delete.1 hs
    rw [hbindings]
    refine Table.mem_delete.2 ⟨hb, List.any_eq_false.2 fun x hx hgone => ?_⟩
    rw [Bool.and_eq_true, beq_iff_eq] at hgone
    have hsame : x = s := Table.eq_of_key hn hx hs (hgone.2.trans hid.symm)
    rw [hsame, hstays] at hgone
    exact Bool.false_ne_true hgone.1

theorem Frame.trans (h₁ : Frame drawn d d₁) (h₂ : Frame drawn d₁ d') : Frame drawn d d' := by
  refine ⟨h₂.distinct, ?_, h₂.bindings.trans h₁.bindings, ?_⟩
  · intro s' hs'
    rcases h₂.sessions s' hs' with ⟨s₁, hs₁, hid, hchallenge, hoffered⟩ | hnew
    · rw [← hid, hchallenge, hoffered]
      exact h₁.sessions s₁ hs₁
    · exact .inr hnew
  · rintro b hb hdrawn ⟨s', hs', hid⟩
    have hbetween : HasSession b.sessionHash d₁ := by
      rcases h₂.sessions s' hs' with ⟨s₁, hs₁, hid₁, -, -⟩ | ⟨hnew, -, -⟩
      · exact ⟨s₁, hs₁, hid₁.trans hid⟩
      · exact absurd (hid ▸ hnew) hdrawn
    exact h₂.kept b (h₁.kept b hb hdrawn hbetween) hdrawn ⟨s', hs', hid⟩

theorem frame_of_move (hm : SessionsMove drawn d d') (hn : (d.sessions.map (·.idHash)).Nodup) :
    Frame drawn d d' := by
  induction hm with
  | same hrows hbindings => exact .of_rows hn hrows hbindings
  | update p f hrows hbindings hf =>
      exact .of_update hn hrows hbindings (fun s => (hf s).idHash) (fun s => (hf s).dbscChallenge)
        fun s => (hf s).dbscOfferedAt
  | delete p hrows hbindings => exact .of_delete hn hrows hbindings
  | append row hfresh hdrawn hrow hrows hbindings =>
      refine ⟨?_, ?_, hbindings ▸ .refl _, fun b hb _ _ => hbindings ▸ hb⟩
      · rw [hrows]
        exact Table.nodup_append_row hn hfresh
      · intro s hs
        rw [hrows] at hs
        rcases List.mem_append.1 hs with hs | hs
        · exact .inl ⟨s, hs, rfl, rfl, rfl⟩
        · rw [List.mem_singleton.1 hs]
          exact .inr ⟨hdrawn, hrow.dbscChallenge, hrow.dbscOfferedAt⟩
  | trans _ _ ih₁ ih₂ =>
      have h₁ := ih₁ hn
      exact h₁.trans (ih₂ h₁.distinct)

theorem frame_account (hn : (d.sessions.map (·.idHash)).Nodup) (c : Factors.Call) :
    Frame (Factors.drawnSession P c) d (Factors.step P d c).1 := by
  by_cases hop : ∃ challenge sessionId purpose, c.op = .beginCeremony challenge sessionId purpose
  · obtain ⟨challenge, sessionId, purpose, hop⟩ := hop
    obtain ⟨now, op⟩ := c
    cases hop
    refine .of_update hn rfl rfl ?_ ?_ ?_
    · exact fun _ => rfl
    · exact fun _ => rfl
    · exact fun _ => rfl
  · exact frame_of_move
      (Factors.sessionsMove c fun challenge sessionId purpose he => hop ⟨_, _, _, he⟩) hn

theorem frame_setUserDisabled {now : Int} {actorId id : String} {disabled : Bool} {a : AdminRow}
    (hn : (d.sessions.map (·.idHash)).Nodup)
    (h : setUserDisabled now actorId id disabled d = .ok (a, d')) : Frame drawn d d' := by
  unfold setUserDisabled at h
  obtain ⟨user, -, h⟩ := Fallible.bind_eq_ok.1 h
  obtain ⟨-, h⟩ := Fallible.guard_eq_ok.1 h
  cases h
  cases disabled with
  | false => exact .of_rows hn rfl rfl
  | true => exact .of_delete (p := fun s => s.adminId == id) hn rfl rfl

/-! ## What a call does -/

/-- Nothing is offered or issued. -/
def Silent : Output → Prop
  | .offered (some _) => False
  | .issued _ => False
  | .refreshed (.challenge _ _) => False
  | .refreshed (.ok _) => False
  | _ => True

/-- All that a call does. -/
inductive Moves (P : Platform) (d : AccountDb) (c : Call) : AccountDb × Output → Prop
  | other {d' : AccountDb} {out : Output} : Frame (drawnSession P c) d d' → Silent out →
      Moves P d c (d', out)
  | offered {challenge sessionId : String} {s : SessionRow} :
      c.op = .offerBinding challenge sessionId → s ∈ d.sessions →
      s.idHash = P.sha256Hex sessionId → s.dbscOfferedAt = none → s.totpVerified = true →
      Moves P d c (storeOffer c.now challenge (P.sha256Hex sessionId) d, .offered (some challenge))
  | registered {draw : BindingDraw} {sessionId jwt jti : String} {s : SessionRow} {alg : DbscAlg}
      {jwk : JsonWebKey} {issued : IssuedCookie} :
      c.op = .registerBinding draw sessionId jwt → s ∈ d.sessions →
      s.idHash = P.sha256Hex sessionId → s.dbscChallenge = some jti →
      SignedWith P alg jwk jti jwt → bindingOf (P.sha256Hex sessionId) d = none →
      (∀ b ∈ d.bindings, b.id ≠ newId "b" draw.id) → issued.cookie = draw.cookie →
      Moves P d c (updateSession (P.sha256Hex sessionId) (fun s => { s with dbscChallenge := none })
        { d with bindings :=
            d.bindings ++ [newBinding P c.now draw (P.sha256Hex sessionId) alg jwk] },
        .issued issued)
  | challenged {draw : BindingDraw} {proof : Option String} {b : BindingRow} :
      c.op = .refreshBinding draw b.id proof → b ∈ d.bindings →
      Moves P d c ((freshChallenge c.now draw.challenge b d).2,
        .refreshed (.challenge b.id draw.challenge))
  | rotated {draw : BindingDraw} {jwt jti : String} {b : BindingRow} {expiresAt : Int} :
      c.op = .refreshBinding draw b.id (some jwt) → b ∈ d.bindings →
      SignedWith P b.alg b.jwk jti jwt → b.challenge = some jti →
      b.challengeExpiresAt = some expiresAt → isoLt c.now expiresAt →
      Moves P d c (updateBinding b.id (rotate P c.now draw) d,
        .refreshed (.ok ⟨b.id, draw.cookie, 600, some draw.challenge⟩))

theorem moves (hn : (d.sessions.map (·.idHash)).Nodup) (c : Call) : Moves P d c (step P d c) := by
  obtain ⟨now, op⟩ := c
  cases op with
  | account op => exact .other (frame_account hn ⟨now, op⟩) trivial
  | setUserDisabled actorId id disabled =>
      unfold step
      simp only []
      cases hx : setUserDisabled now actorId id disabled d with
      | error e => exact .other (.of_rows hn rfl rfl) trivial
      | ok r => exact .other (frame_setUserDisabled hn hx) trivial
  | offerBinding challenge sessionId =>
      have hstep : step P d ⟨now, .offerBinding challenge sessionId⟩ =
          ((offerBinding P now challenge sessionId d).2,
            .offered (offerBinding P now challenge sessionId d).1) := rfl
      rcases offerBinding_cases now challenge sessionId d with
        hx | ⟨s, hs, hid, hopen, hverified, hx⟩
      · rw [hstep, hx]
        exact .other (.of_rows hn rfl rfl) trivial
      · rw [hstep, hx]
        exact .offered rfl hs hid hopen hverified
  | registerBinding draw sessionId jwt =>
      unfold step
      simp only []
      cases hx : registerBinding P now draw sessionId jwt d with
      | error e => exact .other (.of_rows hn rfl rfl) trivial
      | ok r =>
          obtain ⟨issued, d'⟩ := r
          obtain ⟨s, hs, alg, jwk, jti, hid, hchallenge, hsigned, hbound, hfree, hcookie, rfl⟩ :=
            registerBinding_ok hx
          exact .registered rfl hs hid hchallenge hsigned hbound hfree hcookie
  | refreshBinding draw bindingId proof =>
      unfold step
      simp only []
      cases hx : refreshBinding P now draw bindingId proof d with
      | error e => exact .other (.of_rows hn rfl rfl) trivial
      | ok r =>
          obtain ⟨result, d'⟩ := r
          rcases refreshBinding_cases hx with ⟨rfl, rfl⟩ | ⟨b, hb, rfl, hfresh |
            ⟨jwt, jti, expiresAt, rfl, hsigned, hchallenge, hexpires, hlive, rfl, rfl⟩⟩
          · exact .other (.of_rows hn rfl rfl) trivial
          · cases hfresh
            exact .challenged rfl hb
          · exact .rotated rfl hb hsigned hchallenge hexpires hlive
  | checkBoundCookie sessionId boundCookie => exact .other (.of_rows hn rfl rfl) trivial

/-! ## What an event adds to the lists -/

variable {e : Event} {r : AccountDb × Output}

theorem offerOf_silent (hs : Silent e.output) : offerOf P idHash e = none := by
  unfold offerOf
  split
  · rename_i hout
    rw [hout] at hs
    exact hs.elim
  · rfl

theorem cookieOf_silent (hs : Silent e.output) : cookieOf P idHash e = none := by
  unfold cookieOf
  split
  · rename_i hout
    rw [hout] at hs
    exact hs.elim
  · rename_i hout
    rw [hout] at hs
    exact hs.elim
  · rfl

theorem challengeOf_silent {id : String} (hs : Silent e.output) : challengeOf id e = none := by
  unfold challengeOf
  split
  · rename_i hout
    rw [hout] at hs
    exact hs.elim
  · rename_i hout
    rw [hout] at hs
    exact hs.elim
  · rfl

theorem offers_cons (h : offerOf P idHash e = none) (es : List Event) :
    offers P idHash (e :: es) = offers P idHash es :=
  List.filterMap_cons_none h

theorem cookies_cons (h : cookieOf P idHash e = none) (es : List Event) :
    cookies P idHash (e :: es) = cookies P idHash es :=
  List.filterMap_cons_none h

theorem challenges_cons {id : String} (h : challengeOf id e = none) (es : List Event) :
    challenges id (e :: es) = challenges id es :=
  List.filterMap_cons_none h

theorem bindingOf_eq_none : bindingOf idHash d = none ↔ ∀ b ∈ d.bindings, b.sessionHash ≠ idHash := by
  simp [bindingOf]

/-! ## Keys of the tables -/

structure Tables (d : AccountDb) : Prop where
  sessions : (d.sessions.map (·.idHash)).Nodup
  bindings : (d.bindings.map (·.id)).Nodup
  owners : (d.bindings.map (·.sessionHash)).Nodup

/-- An update of a binding that keeps its key columns. -/
theorem Tables.updateBinding {id : String} {f : BindingRow → BindingRow} (ht : Tables d)
    (hid : ∀ b, (f b).id = b.id) (hhash : ∀ b, (f b).sessionHash = b.sessionHash) :
    Tables (updateBinding id f d) :=
  ⟨ht.sessions, Table.nodup_update hid ht.bindings, Table.nodup_update hhash ht.owners⟩

theorem tables_step (hm : Moves P d c r) (ht : Tables d) : Tables r.1 := by
  cases hm with
  | other hframe hsilent =>
      exact ⟨hframe.distinct, (hframe.bindings.map _).nodup ht.bindings,
        (hframe.bindings.map _).nodup ht.owners⟩
  | offered hop hs hid hopen hverified =>
      refine ⟨Table.nodup_update ?_ ht.sessions, ht.bindings, ht.owners⟩
      exact fun _ => rfl
  | registered hop hs hid hchallenge hsigned hbound hfree hcookie =>
      refine ⟨Table.nodup_update ?_ ht.sessions, Table.nodup_append_row ht.bindings hfree,
        Table.nodup_append_row ht.owners (bindingOf_eq_none.1 hbound)⟩
      exact fun _ => rfl
  | challenged hop hb =>
      refine ht.updateBinding ?_ ?_
      · exact fun _ => rfl
      · exact fun _ => rfl
  | rotated hop hb hsigned hchallenge hexpires hlive =>
      refine ht.updateBinding ?_ ?_
      · exact fun _ => rfl
      · exact fun _ => rfl

/-! ## Session hashes that were drawn -/

def Known (P : Platform) (h : List Event) (idHash : String) : Prop :=
  ∃ e ∈ h, drawnSession P e.input = some idHash

theorem Known.later (hk : Known P h idHash) : Known P (e :: h) idHash := by
  obtain ⟨x, hx, hdrawn⟩ := hk
  exact ⟨x, List.mem_cons_of_mem _ hx, hdrawn⟩

/-- Every session hash in the tables or in an offer was drawn. -/
structure Drawn (P : Platform) (h : List Event) (d : AccountDb) : Prop where
  sessions : ∀ s ∈ d.sessions, Known P h s.idHash
  bindings : ∀ b ∈ d.bindings, Known P h b.sessionHash
  offers : ∀ idHash, offers P idHash h ≠ [] → Known P h idHash

/-- A session was there before or is new, and its hash was drawn now. -/
theorem session_origin (hm : Moves P d c r) :
    ∀ s' ∈ r.1.sessions, HasSession s'.idHash d ∨ drawnSession P c = some s'.idHash := by
  intro s' hs'
  cases hm with
  | other hframe hsilent =>
      rcases hframe.sessions s' hs' with ⟨s, hs, hid, -, -⟩ | ⟨hnew, -, -⟩
      · exact .inl ⟨s, hs, hid⟩
      · exact .inr hnew
  | offered hop hs hid hopen hverified =>
      obtain ⟨s, hs, rfl⟩ := Table.mem_update.1 hs'
      split
      · exact .inl ⟨s, hs, rfl⟩
      · exact .inl ⟨s, hs, rfl⟩
  | registered hop hs hid hchallenge hsigned hbound hfree hcookie =>
      obtain ⟨s, hs, rfl⟩ := Table.mem_update.1 hs'
      split
      · exact .inl ⟨s, hs, rfl⟩
      · exact .inl ⟨s, hs, rfl⟩
  | challenged hop hb => exact .inl ⟨s', hs', rfl⟩
  | rotated hop hb hsigned hchallenge hexpires hlive => exact .inl ⟨s', hs', rfl⟩

/-- The columns of a binding no refresh touches. -/
structure SameKey (b b' : BindingRow) : Prop where
  id : b'.id = b.id
  sessionHash : b'.sessionHash = b.sessionHash
  alg : b'.alg = b.alg
  jwk : b'.jwk = b.jwk

/-- A registration that is accepted answers the pending challenge of its session. -/
structure Registers (P : Platform) (d : AccountDb) (c : Call) (b : BindingRow)
    (sessionId jwt jti : String) : Prop where
  called : ∃ draw, c.op = .registerBinding draw sessionId jwt
  session : P.sha256Hex sessionId = b.sessionHash
  signed : SignedWith P b.alg b.jwk jti jwt
  pending : ∃ s ∈ d.sessions, s.idHash = b.sessionHash ∧ s.dbscChallenge = some jti
  unbound : bindingOf b.sessionHash d = none

/-- A binding was there before or is registered now. -/
theorem binding_origin (hm : Moves P d c r) :
    ∀ b' ∈ r.1.bindings, (∃ b ∈ d.bindings, SameKey b b') ∨
      ∃ sessionId jwt jti, Registers P d c b' sessionId jwt jti := by
  intro b' hb'
  cases hm with
  | other hframe hsilent => exact .inl ⟨b', hframe.bindings.subset hb', ⟨rfl, rfl, rfl, rfl⟩⟩
  | offered hop hs hid hopen hverified => exact .inl ⟨b', hb', ⟨rfl, rfl, rfl, rfl⟩⟩
  | registered hop hs hid hchallenge hsigned hbound hfree hcookie =>
      rcases List.mem_append.1 hb' with hb' | hb'
      · exact .inl ⟨b', hb', ⟨rfl, rfl, rfl, rfl⟩⟩
      · rw [List.mem_singleton.1 hb']
        exact .inr ⟨_, _, _, ⟨_, hop⟩, rfl, hsigned, ⟨_, hs, hid, hchallenge⟩, hbound⟩
  | challenged hop hb =>
      obtain ⟨b, hb, rfl⟩ := Table.mem_update.1 hb'
      split
      · exact .inl ⟨b, hb, ⟨rfl, rfl, rfl, rfl⟩⟩
      · exact .inl ⟨b, hb, ⟨rfl, rfl, rfl, rfl⟩⟩
  | rotated hop hb hsigned hchallenge hexpires hlive =>
      obtain ⟨b, hb, rfl⟩ := Table.mem_update.1 hb'
      split
      · exact .inl ⟨b, hb, ⟨rfl, rfl, rfl, rfl⟩⟩
      · exact .inl ⟨b, hb, ⟨rfl, rfl, rfl, rfl⟩⟩

/-- Only an offer to the session adds to its offers. -/
theorem offerOf_eq_some (hm : Moves P d c r) {challenge : String}
    (h : offerOf P idHash ⟨d, c, r.2, r.1⟩ = some challenge) :
    ∃ sessionId, c.op = .offerBinding challenge sessionId ∧ P.sha256Hex sessionId = idHash ∧
      ∃ s ∈ d.sessions, s.idHash = idHash ∧ s.dbscOfferedAt = none ∧ s.totpVerified = true ∧
        r.1 = storeOffer c.now challenge idHash d := by
  cases hm with
  | other hframe hsilent =>
      rw [offerOf_silent hsilent] at h
      cases h
  | offered hop hs hid hopen hverified =>
      rw [offerOf, hop] at h
      simp only [Option.ite_none_right_eq_some, Option.some.injEq] at h
      obtain ⟨rfl, rfl⟩ := h
      exact ⟨_, hop, rfl, _, hs, hid, hopen, hverified, rfl⟩
  | registered hop hs hid hchallenge hsigned hbound hfree hcookie =>
      rw [offerOf, hop] at h
      cases h
  | challenged hop hb =>
      rw [offerOf, hop] at h
      cases h
  | rotated hop hb hsigned hchallenge hexpires hlive =>
      rw [offerOf, hop] at h
      cases h

theorem drawn_step (hm : Moves P d c r) (hd : Drawn P h d) :
    Drawn P (⟨d, c, r.2, r.1⟩ :: h) r.1 := by
  refine ⟨?_, ?_, ?_⟩
  · intro s' hs'
    rcases session_origin hm s' hs' with ⟨s, hs, hid⟩ | hnew
    · exact hid ▸ (hd.sessions s hs).later
    · exact ⟨_, List.mem_cons_self .., hnew⟩
  · intro b' hb'
    rcases binding_origin hm b' hb' with ⟨b, hb, hsame⟩ | ⟨_, _, _, hreg⟩
    · exact hsame.sessionHash ▸ (hd.bindings b hb).later
    · obtain ⟨s, hs, hid, -⟩ := hreg.pending
      exact hid ▸ (hd.sessions s hs).later
  · intro idHash hoffers
    cases hoffer : offerOf P idHash ⟨d, c, r.2, r.1⟩ with
    | none =>
        rw [offers_cons hoffer] at hoffers
        exact (hd.offers idHash hoffers).later
    | some challenge =>
        obtain ⟨-, -, -, s, hs, hid, -⟩ := offerOf_eq_some hm hoffer
        exact hid ▸ (hd.sessions s hs).later

/-! ## Offers -/

/-- A session is offered a challenge at most once, and its pending challenge is that one. -/
structure Offered (P : Platform) (h : List Event) (d : AccountDb) : Prop where
  once : ∀ idHash, (offers P idHash h).length ≤ 1
  fresh : ∀ s ∈ d.sessions, s.dbscOfferedAt = none → offers P s.idHash h = []
  pending : ∀ s ∈ d.sessions, ∀ challenge, s.dbscChallenge = some challenge →
    offers P s.idHash h = [challenge]

/-- A session nothing is offered now: its columns are as before, or it is new. -/
theorem session_columns (hm : Moves P d c r) {s' : SessionRow} (hs' : s' ∈ r.1.sessions)
    (hoffer : offerOf P s'.idHash ⟨d, c, r.2, r.1⟩ = none) :
    (∃ s ∈ d.sessions, s.idHash = s'.idHash ∧ s'.dbscOfferedAt = s.dbscOfferedAt ∧
      (s'.dbscChallenge = none ∨ s'.dbscChallenge = s.dbscChallenge)) ∨
    (drawnSession P c = some s'.idHash ∧ s'.dbscChallenge = none) := by
  cases hm with
  | other hframe hsilent =>
      rcases hframe.sessions s' hs' with ⟨s, hs, hid, hchallenge, hoffered⟩ | ⟨hnew, hnone, -⟩
      · exact .inl ⟨s, hs, hid, hoffered, .inr hchallenge⟩
      · exact .inr ⟨hnew, hnone⟩
  | @offered challenge sessionId s hop hs hid hopen hverified =>
      obtain ⟨s, hs, rfl⟩ := Table.mem_update.1 hs'
      split
      · rename_i heq
        rw [if_pos heq, offerOf, hop] at hoffer
        rw [beq_iff_eq] at heq
        have hnone : (if P.sha256Hex sessionId = s.idHash then some challenge else none) = none :=
          hoffer
        rw [if_pos heq.symm] at hnone
        cases hnone
      · exact .inl ⟨s, hs, rfl, rfl, .inr rfl⟩
  | registered hop hs hid hchallenge hsigned hbound hfree hcookie =>
      obtain ⟨s, hs, rfl⟩ := Table.mem_update.1 hs'
      split
      · exact .inl ⟨s, hs, rfl, rfl, .inl rfl⟩
      · exact .inl ⟨s, hs, rfl, rfl, .inr rfl⟩
  | challenged hop hb => exact .inl ⟨s', hs', rfl, rfl, .inr rfl⟩
  | rotated hop hb hsigned hchallenge hexpires hlive => exact .inl ⟨s', hs', rfl, rfl, .inr rfl⟩

theorem offered_step (hm : Moves P d c r) (henv : env P h d c) (hd : Drawn P h d)
    (ho : Offered P h d) : Offered P (⟨d, c, r.2, r.1⟩ :: h) r.1 := by
  have hnow : ∀ {idHash challenge}, offerOf P idHash ⟨d, c, r.2, r.1⟩ = some challenge →
      offers P idHash (⟨d, c, r.2, r.1⟩ :: h) = [challenge] := by
    intro idHash challenge hoffer
    obtain ⟨-, -, -, s, hs, hid, hopen, -⟩ := offerOf_eq_some hm hoffer
    rw [offers, List.filterMap_cons_some hoffer]
    exact congrArg _ (hid ▸ ho.fresh s hs hopen)
  refine ⟨?_, ?_, ?_⟩
  · intro idHash
    cases hoffer : offerOf P idHash ⟨d, c, r.2, r.1⟩ with
    | none =>
        rw [offers_cons hoffer]
        exact ho.once idHash
    | some challenge =>
        rw [hnow hoffer]
        exact le_rfl
  · intro s' hs' hopen
    cases hoffer : offerOf P s'.idHash ⟨d, c, r.2, r.1⟩ with
    | none =>
        rw [offers_cons hoffer]
        rcases session_columns hm hs' hoffer with ⟨s, hs, hid, hoffered, -⟩ | ⟨hnew, -⟩
        · rw [← hid]
          exact ho.fresh s hs (hoffered.symm.trans hopen)
        · -- The hash of a new session was never drawn before, so nothing was offered to it.
          by_contra hne
          obtain ⟨x, hx, hdrawn⟩ := hd.offers s'.idHash hne
          exact (henv x hx).1 s'.idHash hnew hdrawn
    | some challenge =>
        obtain ⟨-, -, -, -, -, -, -, -, hrows⟩ := offerOf_eq_some hm hoffer
        rw [hrows] at hs'
        obtain ⟨s, hs, hsame⟩ := Table.mem_update.1 hs'
        split at hsame
        · rw [← hsame] at hopen
          cases hopen
        · rename_i hne
          rw [hsame] at hne
          exact absurd (beq_self_eq_true _) hne
  · intro s' hs' challenge' hpending
    cases hoffer : offerOf P s'.idHash ⟨d, c, r.2, r.1⟩ with
    | none =>
        rw [offers_cons hoffer]
        rcases session_columns hm hs' hoffer with ⟨s, hs, hid, -, hnone | hsame⟩ | ⟨-, hnone⟩
        · rw [hnone] at hpending
          cases hpending
        · rw [← hid]
          exact ho.pending s hs challenge' (hsame.symm.trans hpending)
        · rw [hnone] at hpending
          cases hpending
    | some challenge =>
        rw [hnow hoffer]
        obtain ⟨-, -, -, -, -, -, -, -, hrows⟩ := offerOf_eq_some hm hoffer
        rw [hrows] at hs'
        obtain ⟨s, hs, hsame⟩ := Table.mem_update.1 hs'
        split at hsame
        · rw [← hsame] at hpending
          cases hpending
          rfl
        · rename_i hne
          rw [hsame] at hne
          exact absurd (beq_self_eq_true _) hne

/-! ## Cookies and challenges of a binding -/

/-- The cookies of a binding are the latest one issued for its session and the one before. -/
structure Current (P : Platform) (issued : List (String × Int)) (b : BindingRow) : Prop where
  latest : ∃ c t, issued[0]? = some (c, t) ∧ P.sha256Hex c = b.cookieHash ∧
    b.cookieExpiresAt = t + boundCookieTtlMs
  previous : ∀ x, b.prevCookieHash = some x → ∃ c t, issued[1]? = some (c, t) ∧
    P.sha256Hex c = x ∧ b.prevCookieExpiresAt = some (t + boundCookieTtlMs)

def Cookies (P : Platform) (h : List Event) (d : AccountDb) : Prop :=
  ∀ b ∈ d.bindings, Current P (cookies P b.sessionHash h) b

theorem cookies_step (hm : Moves P d c r) (ht : Tables d) (hc : Cookies P h d) :
    Cookies P (⟨d, c, r.2, r.1⟩ :: h) r.1 := by
  intro b' hb'
  cases hm with
  | other hframe hsilent =>
      rw [cookies_cons (cookieOf_silent hsilent)]
      exact hc b' (hframe.bindings.subset hb')
  | offered hop hs hid hopen hverified =>
      rw [cookies_cons (by rw [cookieOf, hop])]
      exact hc b' hb'
  | @registered draw sessionId jwt jti s alg jwk issued hop hs hid hchallenge hsigned hbound hfree
      hcookie =>
      rcases List.mem_append.1 hb' with hb' | hb'
      · have hne : P.sha256Hex sessionId ≠ b'.sessionHash :=
          fun he => bindingOf_eq_none.1 hbound b' hb' he.symm
        rw [cookies_cons (by rw [cookieOf, hop]; exact if_neg hne)]
        exact hc b' hb'
      · rw [List.mem_singleton.1 hb', cookies, List.filterMap_cons_some (b := (issued.cookie, c.now))
          (by rw [cookieOf, hop]; exact if_pos rfl)]
        exact ⟨⟨_, _, rfl, congrArg _ hcookie, rfl⟩, nofun⟩
  | challenged hop hb =>
      obtain ⟨b, hb, rfl⟩ := Table.mem_update.1 hb'
      rw [cookies_cons (by rw [cookieOf, hop])]
      split
      · exact ⟨(hc b hb).latest, (hc b hb).previous⟩
      · exact hc b hb
  | @rotated draw jwt jti b expiresAt hop hb hsigned hchallenge hexpires hlive =>
      obtain ⟨b₀, hb₀, rfl⟩ := Table.mem_update.1 hb'
      split
      · rename_i heq
        have hsame : b₀ = b := Table.eq_of_key ht.bindings hb₀ hb (by simpa using heq)
        subst hsame
        obtain ⟨c₁, t₁, hlatest, hhash, hexpire⟩ := (hc b₀ hb₀).latest
        have hany : (d.bindings.any fun x => x.id == b₀.id && x.sessionHash == b₀.sessionHash) = true :=
          List.any_eq_true.2 ⟨b₀, hb₀, by simp⟩
        rw [cookies, List.filterMap_cons_some (b := (draw.cookie, c.now))
          (by rw [cookieOf, hop]; exact if_pos hany)]
        refine ⟨⟨draw.cookie, c.now, rfl, rfl, rfl⟩, ?_⟩
        rintro x ⟨⟩
        exact ⟨c₁, t₁, hlatest, hhash, congrArg some hexpire⟩
      · rename_i hne
        have hany : (d.bindings.any fun x => x.id == b.id && x.sessionHash == b₀.sessionHash) ≠ true := by
          intro hany
          obtain ⟨x, hx, hsame⟩ := List.any_eq_true.1 hany
          rw [Bool.and_eq_true, beq_iff_eq, beq_iff_eq] at hsame
          rw [Table.eq_of_key ht.owners hx hb₀ hsame.2] at hsame
          exact hne (by simp [hsame.1])
        rw [cookies_cons (by rw [cookieOf, hop]; exact if_neg hany)]
        exact hc b₀ hb₀

/-- The challenge of a binding is the latest one it issued. -/
def Pending (h : List Event) (d : AccountDb) : Prop :=
  ∀ b ∈ d.bindings, ∀ c x, b.challenge = some c → b.challengeExpiresAt = some x →
    ∃ t, (challenges b.id h).head? = some (c, t) ∧ x = t + dbscChallengeTtlMs

theorem pending_step (hm : Moves P d c r) (hp : Pending h d) :
    Pending (⟨d, c, r.2, r.1⟩ :: h) r.1 := by
  intro b' hb' challenge x hchallenge' hexpires'
  cases hm with
  | other hframe hsilent =>
      rw [challenges_cons (challengeOf_silent hsilent)]
      exact hp b' (hframe.bindings.subset hb') challenge x hchallenge' hexpires'
  | offered hop hs hid hopen hverified =>
      rw [challenges_cons (by rw [challengeOf, hop])]
      exact hp b' hb' challenge x hchallenge' hexpires'
  | registered hop hs hid hchallenge hsigned hbound hfree hcookie =>
      rw [challenges_cons (by rw [challengeOf, hop])]
      rcases List.mem_append.1 hb' with hb' | hb'
      · exact hp b' hb' challenge x hchallenge' hexpires'
      · rw [List.mem_singleton.1 hb'] at hchallenge'
        cases hchallenge'
  | @challenged draw proof b hop hb =>
      obtain ⟨b₀, hb₀, rfl⟩ := Table.mem_update.1 hb'
      by_cases heq : (b₀.id == b.id) = true
      · rw [if_pos heq] at hchallenge' hexpires' ⊢
        cases hchallenge'
        cases hexpires'
        refine ⟨c.now, ?_, rfl⟩
        rw [challenges, List.filterMap_cons_some (b := (draw.challenge, c.now))]
        · rfl
        · rw [challengeOf, hop]
          exact if_pos (beq_iff_eq.1 heq).symm
      · rw [if_neg heq] at hchallenge' hexpires' ⊢
        rw [challenges_cons]
        · exact hp b₀ hb₀ challenge x hchallenge' hexpires'
        · rw [challengeOf, hop]
          exact if_neg fun he => heq (by simp [he])
  | @rotated draw jwt jti b expiresAt hop hb hsigned hchallenge hexpires hlive =>
      obtain ⟨b₀, hb₀, rfl⟩ := Table.mem_update.1 hb'
      by_cases heq : (b₀.id == b.id) = true
      · rw [if_pos heq] at hchallenge' hexpires' ⊢
        cases hchallenge'
        cases hexpires'
        refine ⟨c.now, ?_, rfl⟩
        rw [challenges, List.filterMap_cons_some (b := (draw.challenge, c.now))]
        · rfl
        · rw [challengeOf, hop]
          exact if_pos (beq_iff_eq.1 heq).symm
      · rw [if_neg heq] at hchallenge' hexpires' ⊢
        rw [challenges_cons]
        · exact hp b₀ hb₀ challenge x hchallenge' hexpires'
        · rw [challengeOf, hop]
          exact if_neg fun he => heq (by simp [he])

/-! ## The invariant -/

structure Inv (P : Platform) (h : List Event) (d : AccountDb) : Prop where
  tables : Tables d
  drawn : Drawn P h d
  offered : Offered P h d
  cookies : Cookies P h d
  pending : Pending h d

theorem inv_start : Inv P [] .empty where
  tables := ⟨List.nodup_nil, List.nodup_nil, List.nodup_nil⟩
  drawn := ⟨fun _ hs => absurd hs List.not_mem_nil, fun _ hb => absurd hb List.not_mem_nil,
    fun _ h => absurd rfl h⟩
  offered := ⟨fun _ => Nat.zero_le _, fun _ hs => absurd hs List.not_mem_nil,
    fun _ hs => absurd hs List.not_mem_nil⟩
  cookies _ hb := absurd hb List.not_mem_nil
  pending _ hb := absurd hb List.not_mem_nil

theorem inv_step (c : Call) (henv : env P h d c) (hi : Inv P h d) :
    Inv P (History.fire (step P) d c :: h) (step P d c).1 :=
  have hm := moves hi.tables.sessions c
  ⟨tables_step hm hi.tables, drawn_step hm hi.drawn, offered_step hm henv hi.drawn hi.offered,
    cookies_step hm hi.tables hi.cookies, pending_step hm hi.pending⟩

theorem inv_run (hr : History.Run (step P) (env P) .empty h d) : Inv P h d :=
  hr.invariant inv_start fun _ _ c _ henv hi => inv_step c henv hi

/-- An event of a run, with the invariant before it. -/
theorem event_moves {later earlier : List Event}
    (hr : History.Run (step P) (env P) .empty (later ++ e :: earlier) d) :
    ∃ c r, e = ⟨e.pre, c, r.2, r.1⟩ ∧ Moves P e.pre c r ∧ env P earlier e.pre c ∧
      History.Run (step P) (env P) .empty earlier e.pre ∧ Inv P earlier e.pre := by
  obtain ⟨c, hearlier, henv, he⟩ := hr.split
  have hi := inv_run hearlier
  exact ⟨c, step P e.pre c, he, moves hi.tables.sessions c, henv, hearlier, hi⟩

/-! ## The binding of a session that is still there -/

theorem binding_stays (hm : Moves P d c r) (hdrawn : drawnSession P c ≠ some idHash)
    (hs : HasSession idHash r.1) : HasSession idHash d ∧
      ∀ b ∈ d.bindings, b.sessionHash = idHash → ∃ b' ∈ r.1.bindings, SameKey b b' := by
  obtain ⟨s', hs', hid'⟩ := hs
  have hbefore : HasSession idHash d := by
    rcases session_origin hm s' hs' with hold | hnew
    · exact hid' ▸ hold
    · exact absurd (hid' ▸ hnew) hdrawn
  refine ⟨hbefore, ?_⟩
  rintro b hb rfl
  cases hm with
  | other hframe hsilent =>
      exact ⟨b, hframe.kept b hb hdrawn ⟨s', hs', hid'⟩, ⟨rfl, rfl, rfl, rfl⟩⟩
  | offered => exact ⟨b, hb, ⟨rfl, rfl, rfl, rfl⟩⟩
  | registered => exact ⟨b, List.mem_append_left _ hb, ⟨rfl, rfl, rfl, rfl⟩⟩
  | challenged hop hb₀ =>
      refine ⟨_, Table.mem_update.2 ⟨b, hb, rfl⟩, ?_⟩
      split
      · exact ⟨rfl, rfl, rfl, rfl⟩
      · exact ⟨rfl, rfl, rfl, rfl⟩
  | rotated hop hb₀ hsigned hchallenge hexpires hlive =>
      refine ⟨_, Table.mem_update.2 ⟨b, hb, rfl⟩, ?_⟩
      split
      · exact ⟨rfl, rfl, rfl, rfl⟩
      · exact ⟨rfl, rfl, rfl, rfl⟩

/-- A session hash that was drawn is not drawn again. -/
theorem not_drawn_again {later earlier : List Event} (hk : Known P earlier idHash)
    (hr : History.Run (step P) (env P) .empty (later ++ earlier) d) :
    ∀ x ∈ later, drawnSession P x.input ≠ some idHash := by
  intro x hx hdrawn
  obtain ⟨l₁, l₂, rfl⟩ := List.append_of_mem hx
  rw [List.append_assoc, List.cons_append] at hr
  obtain ⟨c, -, henv, he⟩ := hr.split
  obtain ⟨y, hy, hknown⟩ := hk
  rw [he] at hdrawn
  exact (henv y (List.mem_append_right _ hy)).1 idHash hdrawn hknown

theorem binding_remains {later earlier : List Event}
    (hr : History.Run (step P) (env P) .empty (later ++ e :: earlier) d) {b : BindingRow}
    (hb : b ∈ e.post.bindings) (hs : HasSession b.sessionHash d) :
    ∃ b' ∈ d.bindings, SameKey b b' := by
  obtain ⟨c, r, he, hm, -, -, hi⟩ := event_moves hr
  have hpost : e.post = r.1 := by rw [he]
  have hdrawn : Drawn P (e :: earlier) e.post := by
    rw [he]
    exact drawn_step hm hi.drawn
  have htables : Tables e.post := by
    rw [hpost]
    exact tables_step hm hi.tables
  have hkeeps : Tables d ∧
      (HasSession b.sessionHash d → ∃ b' ∈ d.bindings, SameKey b b') := by
    refine hr.keeps (Q := fun d => Tables d ∧
        (HasSession b.sessionHash d → ∃ b' ∈ d.bindings, SameKey b b'))
      (q := fun x => drawnSession P x.input ≠ some b.sessionHash) ?_ ?_ ?_
    · rintro d c ⟨ht, hkept⟩ hnot
      have hm := moves ht.sessions c (P := P)
      refine ⟨tables_step hm ht, fun hs => ?_⟩
      obtain ⟨hbefore, hstays⟩ := binding_stays hm hnot hs
      obtain ⟨b₁, hb₁, hsame⟩ := hkept hbefore
      obtain ⟨b', hb', hsame'⟩ := hstays b₁ hb₁ hsame.sessionHash
      exact ⟨b', hb', hsame'.id.trans hsame.id, hsame'.sessionHash.trans hsame.sessionHash,
        hsame'.alg.trans hsame.alg, hsame'.jwk.trans hsame.jwk⟩
    · exact ⟨htables, fun _ => ⟨b, hb, rfl, rfl, rfl, rfl⟩⟩
    · exact not_drawn_again (hdrawn.bindings b hb) hr
  exact hkeeps.2 hs

theorem bindingOf_of_mem (ht : Tables d) {b : BindingRow} (hb : b ∈ d.bindings) :
    bindingOf b.sessionHash d = some b :=
  Table.find?_of_mem ht.owners hb

/-! ## A challenge is used once -/

/-- What a challenge is drawn for. -/
inductive Holder
  | session (idHash : String)
  | binding (id : String)

/-- The challenge a call draws, and for what. -/
def drawnFor (P : Platform) (c : Call) : Option (Holder × String) :=
  match c.op with
  | .offerBinding challenge sessionId => some (.session (P.sha256Hex sessionId), challenge)
  | .refreshBinding draw bindingId _ => some (.binding bindingId, draw.challenge)
  | _ => none

theorem drawnChallenge_of_drawnFor {holder : Holder} {challenge : String}
    (h : drawnFor P c = some (holder, challenge)) : drawnChallenge c = some challenge := by
  unfold drawnFor at h
  unfold drawnChallenge
  split at h
  · cases h
    rfl
  · cases h
    rfl
  · cases h

/-- No challenge is drawn twice. -/
theorem drawn_once {later earlier : List Event} {challenge : String}
    (hr : History.Run (step P) (env P) .empty (later ++ e :: earlier) d)
    (he : drawnChallenge e.input = some challenge) :
    ∀ x ∈ earlier, drawnChallenge x.input ≠ some challenge := by
  intro x hx
  obtain ⟨c, -, henv, heq⟩ := hr.split
  rw [heq] at he
  exact (henv x hx).2 challenge he

theorem drawn_by_one {x y : Event} {challenge : String}
    (hr : History.Run (step P) (env P) .empty h d) (hx : x ∈ h) (hy : y ∈ h)
    (hxd : drawnChallenge x.input = some challenge)
    (hyd : drawnChallenge y.input = some challenge) : x = y := by
  obtain ⟨later, earlier, rfl⟩ := List.append_of_mem hx
  rcases List.mem_append.1 hy with hy | hy
  · obtain ⟨l₁, l₂, rfl⟩ := List.append_of_mem hy
    rw [List.append_assoc, List.cons_append] at hr
    exact absurd hxd (drawn_once hr hyd x (by simp))
  · rcases List.mem_cons.1 hy with rfl | hy
    · rfl
    · exact absurd hyd (drawn_once hr hxd y hy)

theorem challengeOf_eq_some (hm : Moves P d c r) {id challenge : String} {t : Int}
    (h : challengeOf id ⟨d, c, r.2, r.1⟩ = some (challenge, t)) :
    drawnFor P c = some (.binding id, challenge) := by
  cases hm with
  | other hframe hsilent =>
      rw [challengeOf_silent hsilent] at h
      cases h
  | offered hop hs hid hopen hverified =>
      rw [challengeOf, hop] at h
      cases h
  | registered hop hs hid hchallenge hsigned hbound hfree hcookie =>
      rw [challengeOf, hop] at h
      cases h
  | challenged hop hb =>
      rw [challengeOf, hop] at h
      simp only [Option.ite_none_right_eq_some, Option.some.injEq, Prod.mk.injEq] at h
      obtain ⟨rfl, rfl, -⟩ := h
      rw [drawnFor, hop]
  | rotated hop hb hsigned hchallenge hexpires hlive =>
      rw [challengeOf, hop] at h
      simp only [Option.map_some, Option.ite_none_right_eq_some, Option.some.injEq,
        Prod.mk.injEq] at h
      obtain ⟨rfl, rfl, -⟩ := h
      rw [drawnFor, hop]

theorem offered_by (hr : History.Run (step P) (env P) .empty h d) {challenge : String}
    (hmem : challenge ∈ offers P idHash h) :
    ∃ x ∈ h, drawnFor P x.input = some (.session idHash, challenge) := by
  obtain ⟨x, hx, hoffer⟩ := List.mem_filterMap.1 hmem
  obtain ⟨later, earlier, rfl⟩ := List.append_of_mem hx
  obtain ⟨c, r, he, hm, -⟩ := event_moves hr
  rw [he] at hoffer
  obtain ⟨sessionId, hop, hid, -⟩ := offerOf_eq_some hm hoffer
  refine ⟨x, hx, ?_⟩
  rw [he, drawnFor, hop, ← hid]

theorem challenged_by (hr : History.Run (step P) (env P) .empty h d) {id challenge : String}
    {t : Int} (hmem : (challenge, t) ∈ challenges id h) :
    ∃ x ∈ h, drawnFor P x.input = some (.binding id, challenge) := by
  obtain ⟨x, hx, hchallenge⟩ := List.mem_filterMap.1 hmem
  obtain ⟨later, earlier, rfl⟩ := List.append_of_mem hx
  obtain ⟨c, r, he, hm, -⟩ := event_moves hr
  rw [he] at hchallenge
  refine ⟨x, hx, ?_⟩
  rw [he]
  exact challengeOf_eq_some hm hchallenge

/-- How a call that yields a cookie used up the challenge of a session or of a binding. -/
inductive Uses (e : Event) (earlier : List Event) (jti : String) : Holder → Prop
  | session (idHash : String) : HasSession idHash e.pre → bindingOf idHash e.pre = none →
      (∃ b ∈ e.post.bindings, b.sessionHash = idHash) → Uses e earlier jti (.session idHash)
  | binding (id : String) (t : Int) (next : String × Int) :
      (challenges id earlier).head? = some (jti, t) → challengeOf id e = some next →
      Uses e earlier jti (.binding id)

theorem yields_uses {later earlier : List Event} {jwt : String}
    (hr : History.Run (step P) (env P) .empty (later ++ e :: earlier) d) (hy : Yields jwt e) :
    ∃ alg jwk jti holder x, SignedWith P alg jwk jti jwt ∧ Uses e earlier jti holder ∧
      x ∈ earlier ∧ drawnFor P x.input = some (holder, jti) := by
  obtain ⟨c, r, he, hm, -, hearlier, hi⟩ := event_moves hr
  have hinput : e.input = c := by rw [he]
  have houtput : e.output = r.2 := by rw [he]
  have hpost : e.post = r.1 := by rw [he]
  cases hy with
  | registration now draw sessionId issued hcall hout =>
      rw [hinput] at hcall
      rw [houtput] at hout
      cases hm with
      | other hframe hsilent =>
          simp only [] at hout
          rw [hout] at hsilent
          exact hsilent.elim
      | offered => cases hout
      | challenged => cases hout
      | rotated => cases hout
      | @registered _ _ _ jti s alg jwk _ hop hs hid hchallenge hsigned hbound hfree hcookie =>
          rw [hcall] at hop
          cases hop
          have hoffered := hi.offered.pending s hs jti hchallenge
          obtain ⟨x, hx, hdrawn⟩ := offered_by hearlier (hoffered ▸ List.mem_singleton.2 rfl)
          refine ⟨alg, jwk, jti, _, x, hsigned, .session s.idHash ⟨s, hs, rfl⟩ ?_ ?_, hx, hdrawn⟩
          · rw [hid]
            exact hbound
          · rw [hpost, hid]
            exact ⟨_, List.mem_append_right _ (List.mem_singleton.2 rfl), rfl⟩
  | refresh now draw bindingId issued hcall hout =>
      rw [hinput] at hcall
      rw [houtput] at hout
      cases hm with
      | other hframe hsilent =>
          simp only [] at hout
          rw [hout] at hsilent
          exact hsilent.elim
      | offered => cases hout
      | registered => cases hout
      | challenged => cases hout
      | @rotated _ _ jti b expiresAt hop hb hsigned hchallenge hexpires hlive =>
          rw [hcall] at hop
          cases hop
          obtain ⟨t, hhead, -⟩ := hi.pending b hb jti expiresAt hchallenge hexpires
          obtain ⟨x, hx, hdrawn⟩ := challenged_by hearlier (List.mem_of_mem_head? hhead)
          refine ⟨b.alg, b.jwk, jti, _, x, hsigned, .binding b.id t (draw.challenge, c.now) hhead ?_,
            hx, hdrawn⟩
          rw [he, hcall, challengeOf]
          exact if_pos rfl

/-- A proof yields one cookie. -/
theorem yields_once {later between earlier : List Event} {e' : Event} {jwt : String}
    (hr : History.Run (step P) (env P) .empty (later ++ e :: (between ++ e' :: earlier)) d)
    (hy : Yields jwt e) : ¬ Yields jwt e' := by
  intro hy'
  obtain ⟨c, r, he, -, -, hmid, -⟩ := event_moves hr
  obtain ⟨_, _, jti, holder, x, hsigned, huses, hx, hdrawn⟩ := yields_uses hr hy
  obtain ⟨_, _, jti', holder', x', hsigned', huses', hx', hdrawn'⟩ := yields_uses hmid hy'
  have hjti := hsigned.jti_unique hsigned'
  subst hjti
  -- The two cookies answer the same challenge, so it was drawn for the same holder.
  have hsame : x = x' := drawn_by_one hmid hx
    (List.mem_append_right _ (List.mem_cons_of_mem _ hx')) (drawnChallenge_of_drawnFor hdrawn)
    (drawnChallenge_of_drawnFor hdrawn')
  rw [hsame, hdrawn'] at hdrawn
  have hholder : holder' = holder := congrArg Prod.fst (Option.some.inj hdrawn)
  subst hholder
  cases huses with
  | session idHash hs hunbound hbound =>
      cases huses' with
      | session _ hs' hunbound' hbound' =>
          obtain ⟨b, hb, rfl⟩ := hbound'
          obtain ⟨b', hb', hkey⟩ := binding_remains hmid hb hs
          exact bindingOf_eq_none.1 hunbound b' hb' hkey.sessionHash
  | binding id t next hhead hnext =>
      cases huses' with
      | binding _ t' next' hhead' hnext' =>
          -- The latest challenge of the binding is one drawn with the earlier cookie or later.
          have hsplit : challenges id (between ++ e' :: earlier) =
              challenges id (between ++ [e']) ++ challenges id earlier := by
            rw [challenges, challenges, challenges, ← List.filterMap_append, List.append_assoc,
              List.singleton_append]
          have hmem : (jti, t) ∈ challenges id (between ++ [e']) := by
            have hne : challenges id (between ++ [e']) ≠ [] := by
              intro hnil
              have hlast : next' ∈ challenges id (between ++ [e']) :=
                List.mem_filterMap.2 ⟨e', by simp, hnext'⟩
              rw [hnil] at hlast
              cases hlast
            rw [hsplit, List.head?_append_of_ne_nil _ hne] at hhead
            exact List.mem_of_mem_head? hhead
          obtain ⟨z, hz, hchallenge⟩ := List.mem_filterMap.1 hmem
          obtain ⟨l₁, l₂, hl⟩ := List.append_of_mem hz
          have hmid' : History.Run (step P) (env P) .empty (l₁ ++ z :: (l₂ ++ earlier)) e.pre := by
            rw [← List.cons_append, ← List.append_assoc, ← hl, List.append_assoc,
              List.singleton_append]
            exact hmid
          obtain ⟨cz, rz, hez, hmz, -⟩ := event_moves hmid'
          rw [hez] at hchallenge
          have hz' : drawnChallenge z.input = some jti := by
            rw [hez]
            exact drawnChallenge_of_drawnFor (challengeOf_eq_some hmz hchallenge)
          exact drawn_once hmid' hz' x' (List.mem_append_right _ hx')
            (drawnChallenge_of_drawnFor hdrawn')

/-! ## Every run -/

/-- The laws of the device bindings hold in every run. -/
theorem devices (hsha : Function.Injective P.sha256Hex)
    (hr : History.Run (step P) (env P) .empty h d) : Law P h d := by
  have hi := inv_run hr
  refine ⟨?_, hi.offered.once, ?_, ?_, ?_, ?_, ?_⟩
  · intro e he idHash challenge hoffer
    obtain ⟨later, earlier, rfl⟩ := List.append_of_mem he
    obtain ⟨c, r, heq, hm, -⟩ := event_moves hr
    rw [heq] at hoffer
    obtain ⟨-, -, -, s, hs, hid, -, hverified, -⟩ := offerOf_eq_some hm hoffer
    exact ⟨s, hs, hid, hverified⟩
  · rintro later e earlier rfl b hb hnew
    obtain ⟨c, r, heq, hm, -, -, hbefore⟩ := event_moves hr
    rw [heq] at hb
    rcases binding_origin hm b hb with ⟨b₀, hb₀, hsame⟩ | ⟨sessionId, jwt, jti, hreg⟩
    · exact absurd hsame.id.symm (hnew b₀ hb₀)
    · obtain ⟨draw, hop⟩ := hreg.called
      obtain ⟨s, hs, hid, hpending⟩ := hreg.pending
      refine ⟨c.now, draw, sessionId, jwt, jti, ?_, hreg.session, hreg.signed, ?_⟩
      · rw [heq, ← hop]
      · rw [← hid]
        exact hbefore.offered.pending s hs jti hpending
  · rintro later e earlier rfl b hb hs
    obtain ⟨b', hb', hsame⟩ := binding_remains hr hb hs
    have hbinding : bindingOf b.sessionHash d = some b' :=
      hsame.sessionHash ▸ bindingOf_of_mem hi.tables hb'
    refine ⟨⟨b', hbinding, hsame.id, hsame.alg, hsame.jwk⟩, ?_⟩
    intro now sessionId cookie hid hunbound
    rw [checkBoundCookie_unbound, hid, hbinding] at hunbound
    cases hunbound
  · intro now sessionId cookie hok
    obtain ⟨b, c, hb, rfl, hgood⟩ := checkBoundCookie_ok hok
    have hmem : b ∈ d.bindings := List.mem_of_find?_eq_some hb
    have hhash : b.sessionHash = P.sha256Hex sessionId := by simpa using List.find?_some hb
    have hcurrent := hi.cookies b hmem
    rw [hhash] at hcurrent
    have hdeadline : ∀ t, isoLt (now - graceMs) (t + boundCookieTtlMs) →
        isoLt (now - graceMs) (t + boundCookieTtlMs) ∧
          (now < year10000 → now < t + boundCookieTtlMs + graceMs) := by
      refine fun t hlt => ⟨hlt, fun hnow => ?_⟩
      have hbefore : now - graceMs < year10000 := by
        simp only [graceMs]
        omega
      have := lt_of_isoLt hbefore hlt
      omega
    rcases hgood with ⟨hsame, hlt⟩ | ⟨expiresAt, hsame, hexpires, hlt⟩
    · obtain ⟨c', t, hlatest, hc', hexp⟩ := hcurrent.latest
      cases hsha (hsame.trans hc'.symm)
      exact ⟨c, t, rfl, .inl hlatest, hdeadline t (hexp ▸ hlt)⟩
    · obtain ⟨c', t, hprevious, hc', hexp⟩ := hcurrent.previous _ hsame
      cases hsha hc'
      rw [hexpires] at hexp
      cases hexp
      exact ⟨c, t, rfl, .inr hprevious, hdeadline t hlt⟩
  · rintro later e earlier rfl now draw bindingId proof issued hcall hout
    obtain ⟨c, r, heq, hm, -, -, hbefore⟩ := event_moves hr
    have hinput : e.input = c := by rw [heq]
    have houtput : e.output = r.2 := by rw [heq]
    rw [hinput] at hcall
    rw [houtput] at hout
    cases hm with
    | other hframe hsilent =>
        simp only [] at hout
        rw [hout] at hsilent
        exact hsilent.elim
    | offered => cases hout
    | registered => cases hout
    | challenged => cases hout
    | @rotated _ jwt jti b expiresAt hop hb hsigned hchallenge hexpires hlive =>
        rw [hcall] at hop hlive
        cases hop
        obtain ⟨t, hhead, rfl⟩ := hbefore.pending b hb jti expiresAt hchallenge hexpires
        exact ⟨b, hb, jwt, jti, t, rfl, rfl, hsigned, hhead, hlive,
          fun hnow => lt_of_isoLt hnow hlive⟩
  · rintro later e between e' earlier rfl jwt hy
    exact yields_once hr hy

end

/-! ## A session that is bound and refreshed -/

/-- A host whose JWTs carry their second part as the challenge, all rightly signed. -/
def sampleHost : Platform :=
  { Platform.sample with
    parseJson := fun data =>
      if data = [104] then some (.obj [("typ", .str "dbsc+jwt"), ("alg", .str "ES256"),
        ("jwk", .obj [("kty", .str "EC"), ("crv", .str "P-256"), ("x", .str "x"), ("y", .str "y")])])
      else some (.obj [("jti", .str (String.ofList (data.map fun b => Char.ofNat b.toNat)))])
    jwkKey := fun _ => some ⟨"ec", some "prime256v1", none, []⟩
    verifyP1363 := fun _ _ _ => true }

/-- An account signs in and its session is bound to a key at `t`. -/
def bindingCalls (t : Int) : List Call :=
  [⟨0, .account (.createAdmin "1" "salt" ⟨"ada", "correct horse", .user, false⟩)⟩,
    ⟨1, .account (.signIn ⟨"s", "csrf", "1"⟩ "ada" "correct horse" 1000000 ⟨none, none⟩)⟩,
    ⟨2, .offerBinding "abc" "s"⟩,
    ⟨t, .registerBinding ⟨"1", "cookie1", "-"⟩ "s" "h.abc.sig"⟩]

/-- The key is asked for a proof and gives it. -/
def refreshCalls : List Call :=
  [⟨4, .refreshBinding ⟨"-", "-", "def"⟩ "b_1" none⟩,
    ⟨5, .refreshBinding ⟨"-", "cookie2", "ghi"⟩ "b_1" (some "h.def.sig")⟩]

theorem run_calls {calls : List Call} (h : calls.Pairwise (Apart sampleHost)) :
    let r := History.replay (step sampleHost) [] .empty calls
    History.Run (step sampleHost) (env sampleHost) .empty r.1 r.2 :=
  History.run_replay .start (History.admits_of_pairwise (fun _ _ _ h => h) h
    (fun _ he => absurd he List.not_mem_nil) _)

theorem devices_refreshed :
    let r := History.replay (step sampleHost) [] .empty (bindingCalls 3 ++ refreshCalls)
    cookies sampleHost (sampleHost.sha256Hex "s") r.1 = [("cookie2", 5), ("cookie1", 3)] ∧
      Law sampleHost r.1 r.2 := by
  have hsha : Function.Injective sampleHost.sha256Hex :=
    fun _ _ h => (String.append_right_inj _).1 h
  exact ⟨by decide +kernel, devices hsha (run_calls (by decide +kernel))⟩

/-- A bound cookie of the last minutes of the year 9999 is good in a later year, whose time
stamps sort before its deadline. -/
theorem old_cookie_accepted :
    let t := year10000 - 2 * boundCookieTtlMs
    let now := year10000 + 10 ^ 10
    let r := History.replay (step sampleHost) [] .empty (bindingCalls t)
    History.Run (step sampleHost) (env sampleHost) .empty r.1 r.2 ∧
      cookies sampleHost (sampleHost.sha256Hex "s") r.1 = [("cookie1", t)] ∧
      checkBoundCookie sampleHost now "s" (some "cookie1") r.2 = .ok ∧
      t + boundCookieTtlMs + graceMs < now :=
  ⟨run_calls (by decide +kernel), by decide +kernel, by decide +kernel, by decide⟩

end Devices

end Outletbox
