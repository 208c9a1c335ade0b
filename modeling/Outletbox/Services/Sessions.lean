import Outletbox.Dbsc
import Outletbox.Services.Auth

/-!
# The account's own sessions, and sessions bound to a device

The functions of `services/sessions.ts`.
-/

namespace Outletbox

variable (P : Platform)

/-! ## The list of sessions -/

structure SessionSummary where
  publicId : String
  createdAt : Int
  lastSeenAt : Int
  expiresAt : Int
  ip : Option String
  userAgent : Option String
  secondFactor : Option SecondFactor
  /-- Still waiting for the second factor. -/
  pending : Bool
  /-- Bound to a key held by the device. -/
  bound : Bool
  current : Bool
  deriving DecidableEq

/-- `ORDER BY s.last_seen_at DESC`. -/
def sessionOrder (a b : SessionRow) : Prop := isoLe b.lastSeenAt a.lastSeenAt

instance : DecidableRel sessionOrder := fun _ _ => inferInstanceAs (Decidable (_ ≤ _))

def bindingOf (idHash : String) (d : AccountDb) : Option BindingRow :=
  d.bindings.find? (·.sessionHash == idHash)

def listSessions (now : Int) (adminId currentSessionId : String) (d : AccountDb) :
    List SessionSummary :=
  ((d.sessions.filter fun s => s.adminId == adminId && isoLt now s.expiresAt).insertionSort
    sessionOrder).map fun s =>
      ⟨s.publicId, s.createdAt, s.lastSeenAt, s.expiresAt, s.ip, s.userAgent, s.secondFactor,
        !s.totpVerified, (bindingOf s.idHash d).isSome, s.idHash == P.sha256Hex currentSessionId⟩

/-- Ends one of the account's own sessions by its public id. -/
def revokeSession (adminId publicId : String) (d : AccountDb) : Bool × AccountDb :=
  let named := fun s : SessionRow => s.adminId == adminId && s.publicId == publicId
  (d.sessions.any named, deletePanelSessions named d)

/-! ## Device-bound sessions -/

/-- `BOUND_COOKIE_TTL_MS`. -/
def boundCookieTtlMs : Int := 10 * 60000

/-- `DBSC_CHALLENGE_TTL_MS`. -/
def dbscChallengeTtlMs : Int := 30 * 60000

/-- `GRACE_MS`. -/
def graceMs : Int := 60000

/-- The registration offer for a complete session, made once. -/
def offerBinding (now : Int) (challenge sessionId : String) (d : AccountDb) :
    Option String × AccountDb :=
  let idHash := P.sha256Hex sessionId
  match d.sessions.find? (·.idHash == idHash) with
  | none => (none, d)
  | some row =>
      if row.dbscOfferedAt.isSome || (bindingOf idHash d).isSome || !row.totpVerified then (none, d)
      else (some challenge, updateSession idHash (fun s => { s with
        dbscChallenge := some challenge, dbscOfferedAt := some now }) d)

structure IssuedCookie where
  bindingId : String
  cookie : String
  maxAgeSec : Nat
  nextChallenge : Option String
  deriving DecidableEq

/-- What the device binding draws. -/
structure BindingDraw where
  id : String
  cookie : String
  challenge : String

/-- Registration: the browser answered our challenge with a proof signed by a
fresh device key. -/
def registerBinding (now : Int) (draw : BindingDraw) (sessionId jwt : String) (d : AccountDb) :
    Except Failure (IssuedCookie × AccountDb) := do
  let idHash := P.sha256Hex sessionId
  let proof ← verifyProof P jwt none
  match d.sessions.find? (·.idHash == idHash), proof.jwk with
  | some row, some jwk =>
      if !row.totpVerified then .error (.dbsc "no session")
      else if (bindingOf idHash d).isSome then .error (.dbsc "session already bound")
      else if row.dbscChallenge ≠ some proof.jti then .error (.dbsc "challenge mismatch")
      else if d.bindings.any (·.id == newId "b" draw.id) then .error .constraint
      else
        let binding : BindingRow :=
          { id := newId "b" draw.id, sessionHash := idHash, alg := proof.alg, jwk := jwk,
            cookieHash := P.sha256Hex draw.cookie, cookieExpiresAt := now + boundCookieTtlMs,
            prevCookieHash := none, prevCookieExpiresAt := none, challenge := none,
            challengeExpiresAt := none, createdAt := now, refreshedAt := now }
        let d := { d with bindings := d.bindings ++ [binding] }
        .ok (⟨binding.id, draw.cookie, 600, none⟩,
          updateSession idHash (fun s => { s with dbscChallenge := none }) d)
  | _, _ => .error (.dbsc "no session")

inductive RefreshResult
  /-- The session is over. -/
  | ended
  /-- No proof, or a proof for a stale challenge: here is a fresh one. -/
  | challenge (bindingId challenge : String)
  | ok (issued : IssuedCookie)
  deriving DecidableEq

/-- `UPDATE session_bindings SET .. WHERE id = ?`. -/
def updateBinding (id : String) (f : BindingRow → BindingRow) (d : AccountDb) : AccountDb :=
  { d with bindings := Table.update (fun b => b.id == id) f d.bindings }

/-- The session of a binding is still good. -/
def bindingAlive (now : Int) (b : BindingRow) (d : AccountDb) : Bool :=
  match d.sessions.find? (·.idHash == b.sessionHash) with
  | none => false
  | some s =>
      match adminById s.adminId d with
      | none => false
      | some a => !isoLe s.expiresAt now && a.disabledAt.isNone

/-- A new challenge for a binding. -/
def freshChallenge (now : Int) (challenge : String) (b : BindingRow) (d : AccountDb) :
    RefreshResult × AccountDb :=
  (.challenge b.id challenge, updateBinding b.id (fun x => { x with
    challenge := some challenge, challengeExpiresAt := some (now + dbscChallengeTtlMs) }) d)

/-- Refresh: the bound cookie expired, the browser proves it still holds the key. -/
def refreshBinding (now : Int) (draw : BindingDraw) (bindingId : String) (jwt : Option String)
    (d : AccountDb) : Except Failure (RefreshResult × AccountDb) :=
  match d.bindings.find? (·.id == bindingId) with
  | none => .ok (.ended, d)
  | some b =>
      if !bindingAlive now b d then .ok (.ended, d)
      else
        match jwt.filter (· != "") with
        | none => .ok (freshChallenge now draw.challenge b d)
        | some jwt => do
            let proof ← verifyProof P jwt (some (b.alg, b.jwk))
            match b.challenge, b.challengeExpiresAt with
            | some challenge, some expiresAt =>
                if isoLe expiresAt now ∨ proof.jti ≠ challenge then
                  .ok (freshChallenge now draw.challenge b d)
                else
                  .ok (.ok ⟨b.id, draw.cookie, 600, some draw.challenge⟩,
                    updateBinding b.id (fun x => { x with
                      prevCookieHash := some x.cookieHash,
                      prevCookieExpiresAt := some x.cookieExpiresAt,
                      cookieHash := P.sha256Hex draw.cookie,
                      cookieExpiresAt := now + boundCookieTtlMs,
                      challenge := some draw.challenge,
                      challengeExpiresAt := some (now + dbscChallengeTtlMs),
                      refreshedAt := now }) d)
            | _, _ => .ok (freshChallenge now draw.challenge b d)

inductive BoundCookieCheck
  | unbound | ok | rejected
  deriving DecidableEq, Repr

/-- An unbound session needs nothing more; a bound one only counts together with
a current bound cookie. -/
def checkBoundCookie (now : Int) (sessionId : String) (boundCookie : Option String)
    (d : AccountDb) : BoundCookieCheck :=
  match bindingOf (P.sha256Hex sessionId) d with
  | none => .unbound
  | some b =>
      match boundCookie with
      | none => .rejected
      | some cookie =>
          let current := cookie != "" && utf16Length cookie ≤ 128 &&
            (P.sha256Hex cookie == b.cookieHash && isoLt (now - graceMs) b.cookieExpiresAt ||
              some (P.sha256Hex cookie) == b.prevCookieHash &&
                b.prevCookieExpiresAt.any fun e => isoLt (now - graceMs) e)
          if current then .ok else .rejected

/-! ## What the four operations do -/

/-- The offer is stored in the session. -/
def storeOffer (now : Int) (challenge idHash : String) (d : AccountDb) : AccountDb :=
  updateSession idHash (fun s => { s with
    dbscChallenge := some challenge, dbscOfferedAt := some now }) d

/-- The row `registerBinding` inserts. -/
def newBinding (now : Int) (draw : BindingDraw) (idHash : String) (alg : DbscAlg)
    (jwk : JsonWebKey) : BindingRow where
  id := newId "b" draw.id
  sessionHash := idHash
  alg := alg
  jwk := jwk
  cookieHash := P.sha256Hex draw.cookie
  cookieExpiresAt := now + boundCookieTtlMs
  prevCookieHash := none
  prevCookieExpiresAt := none
  challenge := none
  challengeExpiresAt := none
  createdAt := now
  refreshedAt := now

/-- A refresh issues a new cookie and keeps the one before. -/
def rotate (now : Int) (draw : BindingDraw) (b : BindingRow) : BindingRow :=
  { b with
    prevCookieHash := some b.cookieHash
    prevCookieExpiresAt := some b.cookieExpiresAt
    cookieHash := P.sha256Hex draw.cookie
    cookieExpiresAt := now + boundCookieTtlMs
    challenge := some draw.challenge
    challengeExpiresAt := some (now + dbscChallengeTtlMs)
    refreshedAt := now }

section

variable {P} {d d' : AccountDb} {now : Int} {sessionId jwt : String} {draw : BindingDraw}
  {issued : IssuedCookie}

/-- An offer is made once, to a session past its second step, and its challenge is stored. -/
theorem offerBinding_cases (now : Int) (challenge sessionId : String) (d : AccountDb) :
    offerBinding P now challenge sessionId d = (none, d) ∨
      ∃ s ∈ d.sessions, s.idHash = P.sha256Hex sessionId ∧ s.dbscOfferedAt = none ∧
        s.totpVerified = true ∧ offerBinding P now challenge sessionId d =
          (some challenge, storeOffer now challenge (P.sha256Hex sessionId) d) := by
  unfold offerBinding
  cases hrow : d.sessions.find? (·.idHash == P.sha256Hex sessionId) with
  | none => exact .inl (by simp only [hrow])
  | some s =>
      simp only [hrow]
      split
      · exact .inl rfl
      · rename_i hopen
        simp only [Bool.or_eq_true, Bool.not_eq_true', not_or, Bool.not_eq_true,
          Option.isSome_eq_false_iff, Option.isNone_iff_eq_none, Bool.not_eq_false] at hopen
        have hid : s.idHash = P.sha256Hex sessionId := by simpa using List.find?_some hrow
        exact .inr ⟨s, List.mem_of_find?_eq_some hrow, hid, hopen.1.1, hopen.2, rfl⟩

/-- A browser is bound with a proof over the challenge of its session, and the challenge is used
up. -/
theorem registerBinding_ok (h : registerBinding P now draw sessionId jwt d = .ok (issued, d')) :
    ∃ s ∈ d.sessions, ∃ alg jwk jti, s.idHash = P.sha256Hex sessionId ∧
      s.dbscChallenge = some jti ∧ SignedWith P alg jwk jti jwt ∧
      bindingOf (P.sha256Hex sessionId) d = none ∧
      (∀ b ∈ d.bindings, b.id ≠ newId "b" draw.id) ∧ issued.cookie = draw.cookie ∧
      d' = updateSession (P.sha256Hex sessionId) (fun s => { s with dbscChallenge := none })
        { d with bindings :=
            d.bindings ++ [newBinding P now draw (P.sha256Hex sessionId) alg jwk] } := by
  unfold registerBinding at h
  obtain ⟨proof, hproof, h⟩ := Fallible.bind_eq_ok.1 h
  obtain ⟨jwk, hsigned, hkey⟩ := verifyProof_ok hproof
  split at h
  · rename_i s jwk' hrow hjwk
    obtain ⟨-, h⟩ := Fallible.guard_eq_ok.1 h
    obtain ⟨hbound, h⟩ := Fallible.guard_eq_ok.1 h
    obtain ⟨hchallenge, h⟩ := Fallible.guard_eq_ok.1 h
    obtain ⟨hfree, h⟩ := Fallible.guard_eq_ok.1 h
    have hsame : jwk' = jwk := by
      rcases hkey with hkey | ⟨-, hkey⟩
      · cases hkey
      · exact Option.some.inj (hjwk.symm.trans hkey)
    subst hsame
    cases h
    refine ⟨s, List.mem_of_find?_eq_some hrow, proof.alg, jwk', proof.jti, ?_,
      not_not.1 hchallenge, hsigned, by simpa using hbound, ?_, rfl, rfl⟩
    · simpa using List.find?_some hrow
    · intro b hb hid
      exact hfree (List.any_eq_true.2 ⟨b, hb, by simpa using hid⟩)
  · cases h

/-- A call to refresh finds no binding, asks for a proof, or was given one in time. -/
theorem refreshBinding_cases {bindingId : String} {proof : Option String} {result : RefreshResult}
    (h : refreshBinding P now draw bindingId proof d = .ok (result, d')) :
    (result = .ended ∧ d' = d) ∨ ∃ b ∈ d.bindings, b.id = bindingId ∧
      ((result, d') = freshChallenge now draw.challenge b d ∨
        ∃ jwt jti expiresAt, proof = some jwt ∧ SignedWith P b.alg b.jwk jti jwt ∧
          b.challenge = some jti ∧ b.challengeExpiresAt = some expiresAt ∧ isoLt now expiresAt ∧
          result = .ok ⟨b.id, draw.cookie, 600, some draw.challenge⟩ ∧
          d' = updateBinding b.id (rotate P now draw) d) := by
  unfold refreshBinding at h
  cases hrow : d.bindings.find? (·.id == bindingId) with
  | none =>
      rw [hrow] at h
      cases h
      exact .inl ⟨rfl, rfl⟩
  | some b =>
      rw [hrow] at h
      simp only [] at h
      split at h
      · cases h
        exact .inl ⟨rfl, rfl⟩
      · refine .inr ⟨b, List.mem_of_find?_eq_some hrow, by simpa using List.find?_some hrow, ?_⟩
        cases hjwt : proof.filter (· != "") with
        | none =>
            rw [hjwt] at h
            exact .inl (Except.ok.inj h).symm
        | some jwt =>
            rw [hjwt] at h
            obtain ⟨checked, hchecked, h⟩ := Fallible.bind_eq_ok.1 h
            obtain ⟨jwk, hsigned, hkey⟩ := verifyProof_ok hchecked
            split at h
            · rename_i challenge expiresAt hchallenge hexpires
              split at h
              · exact .inl (Except.ok.inj h).symm
              · rename_i hgood
                rw [not_or, not_not] at hgood
                obtain ⟨hlive, hjti⟩ := hgood
                rcases hkey with hkey | ⟨hkey, -⟩
                · obtain ⟨halg, hjwk⟩ := Prod.mk.inj (Option.some.inj hkey)
                  rw [← halg, ← hjwk] at hsigned
                  cases h
                  refine .inr ⟨jwt, checked.jti, expiresAt, ?_, hsigned, ?_, hexpires, ?_, rfl, rfl⟩
                  · exact (Option.filter_eq_some_iff.1 hjwt).1
                  · rw [hjti]
                    exact hchallenge
                  · exact not_le.1 hlive
                · cases hkey
            · exact .inl (Except.ok.inj h).symm

/-- A session is unbound when no binding is stored for it, whatever cookie comes. -/
theorem checkBoundCookie_unbound {cookie : Option String} :
    checkBoundCookie P now sessionId cookie d = .unbound ↔
      bindingOf (P.sha256Hex sessionId) d = none := by
  unfold checkBoundCookie
  cases bindingOf (P.sha256Hex sessionId) d with
  | none => simp
  | some b =>
      cases cookie with
      | none => simp
      | some c =>
          simp only [reduceCtorEq, iff_false]
          split
          · exact nofun
          · exact nofun

/-- The cookie of a bound session is the one in force or the one before it. -/
theorem checkBoundCookie_ok {cookie : Option String}
    (h : checkBoundCookie P now sessionId cookie d = .ok) :
    ∃ b c, bindingOf (P.sha256Hex sessionId) d = some b ∧ cookie = some c ∧
      ((P.sha256Hex c = b.cookieHash ∧ isoLt (now - graceMs) b.cookieExpiresAt) ∨
        ∃ e, b.prevCookieHash = some (P.sha256Hex c) ∧ b.prevCookieExpiresAt = some e ∧
          isoLt (now - graceMs) e) := by
  unfold checkBoundCookie at h
  split at h
  · cases h
  · rename_i b hb
    split at h
    · cases h
    · rename_i c
      simp only [] at h
      split at h
      · rename_i hcurrent
        simp only [Bool.and_eq_true, Bool.or_eq_true, beq_iff_eq, decide_eq_true_eq,
          Option.any_eq_true] at hcurrent
        refine ⟨b, c, hb, rfl, ?_⟩
        rcases hcurrent.2 with hlatest | ⟨hprev, e, he, hlt⟩
        · exact .inl hlatest
        · exact .inr ⟨e, hprev.symm, he, hlt⟩
      · cases h

end

end Outletbox
