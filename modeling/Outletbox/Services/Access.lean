import Outletbox.Config
import Outletbox.Crypto
import Outletbox.Db
import Outletbox.Library.Fallible
import Outletbox.Library.Table
import Outletbox.Time

/-!
# The recipient side of the unlock flow

The functions of `services/access.ts`: one-time codes and the short-lived
sessions they open.  Each function takes the instant it runs at and the random
values it draws.
-/

namespace Outletbox

variable (P : Platform) (cfg : Config)

/-! ## Challenges -/

/-- What a caller of `createChallenge` passes. -/
structure ChallengeInput where
  linkId : String
  recipientId : String
  flowToken : String
  ip : Option String
  deriving DecidableEq

/-- What `createChallenge` draws: the row's identifier, the code and its salt. -/
structure ChallengeDraw where
  id : String
  code : String
  salt : String
  deriving DecidableEq

/-- The row `createChallenge` inserts. -/
def newChallenge (now : Int) (draw : ChallengeDraw) (input : ChallengeInput) : Challenge where
  id := newId "ch" draw.id
  linkId := input.linkId
  recipientId := some input.recipientId
  codeHash := hashPassword P draw.code draw.salt
  flowHash := P.sha256Hex input.flowToken
  attempts := 0
  createdAt := now
  expiresAt := now + cfg.accessCodeTtlMs
  consumedAt := none
  ip := input.ip

/-- The challenges of a recipient in the last hour. -/
def recentChallenges (now : Int) (recipientId : String) (d : DeliveryDb) : Nat :=
  d.challenges.countP fun c =>
    c.recipientId == some recipientId && isoLt (now - hourMs) c.createdAt

/-- The hourly limit refuses another code for a person. -/
def limitReached (now : Int) (recipientId : String) (d : DeliveryDb) : Prop :=
  cfg.challengeLimitPerLinkPerHour ≤ recentChallenges now recipientId d

instance (now : Int) (recipientId : String) (d : DeliveryDb) :
    Decidable (limitReached cfg now recipientId d) :=
  inferInstanceAs (Decidable (_ ≤ _))

/-- `UPDATE challenges SET consumed_at = ? WHERE .. AND consumed_at IS NULL`. -/
def consumeWhere (now : Int) (p : Challenge → Bool) (d : DeliveryDb) : DeliveryDb :=
  { d with
    challenges :=
      Table.update (fun c => p c && c.consumedAt.isNone)
        (fun c => { c with consumedAt := some now }) d.challenges }

/-- The row violates a constraint of the table: its identifier is taken, or its
link or its recipient is missing. -/
def challengeConflict (c : Challenge) (d : DeliveryDb) : Bool :=
  d.challenges.any (·.id == c.id) || !d.links.any (·.id == c.linkId) ||
    !c.recipientId.all fun r => d.linkRecipients.any (·.id == r)

/-- `INSERT INTO challenges`. -/
def insertChallenge (c : Challenge) (d : DeliveryDb) : Except Failure DeliveryDb :=
  if challengeConflict c d then .error .constraint
  else .ok { d with challenges := d.challenges ++ [c] }

/-- Creates a challenge and returns the clear-text code exactly once. Any earlier
pending challenge of the same person on the link is consumed, and the hourly
limit is per person. -/
def createChallenge (now : Int) (draw : ChallengeDraw) (input : ChallengeInput)
    (d : DeliveryDb) : Except Failure ((Challenge × String) × DeliveryDb) :=
  let challenge := newChallenge P cfg now draw input
  if cfg.challengeLimitPerLinkPerHour ≤ recentChallenges now input.recipientId d then
    .error (.challengeRate cfg.challengeLimitPerLinkPerHour)
  else do
    let d ← insertChallenge challenge
      (consumeWhere now (fun c => c.recipientId == some input.recipientId) d)
    .ok ((challenge, draw.code), d)

inductive VerifyResult
  | ok (recipientId : Option String)
  | invalid (attemptsLeft : ℚ)
  | gone
  deriving DecidableEq

/-- What a caller of `verifyChallenge` passes. -/
structure VerifyInput where
  linkId : String
  flowToken : String
  code : String
  deriving DecidableEq

/-- A challenge that still waits for its code. -/
def Challenge.isPending (now : Int) (c : Challenge) : Bool :=
  c.consumedAt.isNone && isoLt now c.expiresAt

/-- The newest pending challenge of a link and a browser. -/
def pendingRow (now : Int) (linkId flowToken : String) (d : DeliveryDb) : Option Challenge :=
  Table.latest (fun c => isoKey c.createdAt)
    (d.challenges.filter fun c =>
      c.linkId == linkId && c.flowHash == P.sha256Hex flowToken && c.isPending now)

/-- The test `verifyChallenge` puts a typed code to. -/
def acceptsCode (typed : String) (c : Challenge) : Bool :=
  normalizeCode typed != "" && verifyPassword P (normalizeCode typed) c.codeHash

/-- `UPDATE challenges SET attempts = ? WHERE id = ?`. -/
def setAttempts (n : Nat) (id : String) (d : DeliveryDb) : DeliveryDb :=
  { d with
    challenges :=
      Table.update (fun c => c.id == id) (fun c => { c with attempts := n }) d.challenges }

/-- `UPDATE challenges SET attempts = ?, consumed_at = ? WHERE id = ?`. -/
def exhaustAttempts (now : Int) (n : Nat) (id : String) (d : DeliveryDb) : DeliveryDb :=
  { d with
    challenges :=
      Table.update (fun c => c.id == id)
        (fun c => { c with attempts := n, consumedAt := some now }) d.challenges }

/-- Checks a typed code against the newest pending challenge of this link *and*
this browser. -/
def verifyChallenge (now : Int) (input : VerifyInput) (d : DeliveryDb) :
    VerifyResult × DeliveryDb :=
  match pendingRow P now input.linkId input.flowToken d with
  | none => (.gone, d)
  | some row =>
      if acceptsCode P input.code row then
        (.ok row.recipientId, consumeWhere now (fun c => c.id == row.id) d)
      else if cfg.maxCodeAttempts ≤ (row.attempts + 1 : Nat) then
        (.gone, exhaustAttempts now (row.attempts + 1) row.id d)
      else
        (.invalid (cfg.maxCodeAttempts - (row.attempts + 1 : Nat)),
          setAttempts (row.attempts + 1) row.id d)

/-- The statement of `POST /d/:token/restart`. -/
def restartChallenges (now : Int) (linkId flowToken : String) (d : DeliveryDb) : DeliveryDb :=
  consumeWhere now (fun c => c.linkId == linkId && c.flowHash == P.sha256Hex flowToken) d

/-! ## Access sessions -/

structure AccessSession where
  linkId : String
  recipientId : Option String
  csrfToken : String
  expiresAt : Int
  deriving DecidableEq

/-- What `createAccessSession` draws. -/
structure AccessDraw where
  sessionId : String
  csrfToken : String
  deriving DecidableEq

/-- The row `createAccessSession` inserts. -/
def newAccessSession (now : Int) (draw : AccessDraw) (linkId : String)
    (recipientId ip : Option String) : AccessSessionRow where
  idHash := P.sha256Hex draw.sessionId
  linkId := linkId
  recipientId := recipientId
  csrfToken := draw.csrfToken
  createdAt := now
  expiresAt := now + cfg.accessSessionTtlMs
  ip := ip

def AccessSessionRow.session (r : AccessSessionRow) : AccessSession :=
  ⟨r.linkId, r.recipientId, r.csrfToken, r.expiresAt⟩

def createAccessSession (now : Int) (draw : AccessDraw) (linkId : String)
    (recipientId ip : Option String) (d : DeliveryDb) :
    Except Failure ((String × AccessSession) × DeliveryDb) :=
  let row := newAccessSession P cfg now draw linkId recipientId ip
  if d.accessSessions.any (·.idHash == row.idHash) || !d.links.any (·.id == linkId) ||
      !recipientId.all fun r => d.linkRecipients.any (·.id == r) then
    .error .constraint
  else
    .ok ((draw.sessionId, row.session), { d with accessSessions := d.accessSessions ++ [row] })

/-- `DELETE FROM access_sessions WHERE ..`. -/
def deleteSessionsWhere (p : AccessSessionRow → Bool) (d : DeliveryDb) : DeliveryDb :=
  { d with accessSessions := Table.delete p d.accessSessions }

def destroyAccessSession (sessionId : String) (d : DeliveryDb) : DeliveryDb :=
  deleteSessionsWhere (fun r => r.idHash == P.sha256Hex sessionId) d

def getAccessSession (now : Int) (sessionId : String) (d : DeliveryDb) :
    Option AccessSession × DeliveryDb :=
  match d.accessSessions.find? fun r => r.idHash == P.sha256Hex sessionId with
  | none => (none, d)
  | some row =>
      if isoLe row.expiresAt now then (none, destroyAccessSession P sessionId d)
      else (some row.session, d)

/-- Revoking a link must also end whatever is already open. -/
def destroyAccessSessionsForLink (now : Int) (linkId : String) (d : DeliveryDb) : DeliveryDb :=
  consumeWhere now (fun c => c.linkId == linkId)
    (deleteSessionsWhere (fun r => r.linkId == linkId) d)

def destroyAccessSessionsForCase (caseId : String) (d : DeliveryDb) : DeliveryDb :=
  deleteSessionsWhere (fun r => d.links.any fun l => l.id == r.linkId && l.caseId == caseId) d

/-- Consumed and expired challenges are kept for an hour so the rate limit still sees them. -/
def purgeExpiredAccess (now : Int) (d : DeliveryDb) : DeliveryDb :=
  let d := deleteSessionsWhere (fun r => isoLe r.expiresAt now) d
  { d with challenges := Table.delete (fun c => isoLe c.createdAt (now - hourMs)) d.challenges }

/-! ## What the statements leave behind -/

section

variable {P : Platform} {cfg : Config} {now : Int} {d d' : DeliveryDb}

theorem insertChallenge_ok {c : Challenge} (h : insertChallenge c d = .ok d') :
    (∀ x ∈ d.challenges, x.id ≠ c.id) ∧ (∃ l ∈ d.links, l.id = c.linkId) ∧
      (∀ r, c.recipientId = some r → ∃ x ∈ d.linkRecipients, x.id = r) ∧
      d' = { d with challenges := d.challenges ++ [c] } := by
  simp only [insertChallenge] at h
  split at h
  · cases h
  · rename_i hfree
    cases h
    simp only [challengeConflict, Bool.or_eq_true, not_or, Bool.not_eq_true', Bool.not_eq_false,
      List.any_eq_true, beq_iff_eq, not_exists, not_and] at hfree
    refine ⟨hfree.1.1, hfree.1.2, ?_, rfl⟩
    intro r hr
    simpa [hr] using hfree.2

/-- Consuming other people's codes does not change which conflicts a new row has. -/
theorem challengeConflict_consumeWhere (c : Challenge) (p : Challenge → Bool) :
    challengeConflict c (consumeWhere now p d) = challengeConflict c d := by
  have hany : (consumeWhere now p d).challenges.any (·.id == c.id) =
      d.challenges.any (·.id == c.id) := by
    simp only [consumeWhere, Table.update, List.any_map]
    congr 1
    funext x
    simp only [Function.comp_apply]
    split <;> rfl
  simp only [challengeConflict, hany]
  rfl

/-- `createChallenge` as two tests and an insertion. -/
theorem createChallenge_eq {draw : ChallengeDraw} {input : ChallengeInput} :
    createChallenge P cfg now draw input d =
      if limitReached cfg now input.recipientId d then
        .error (.challengeRate cfg.challengeLimitPerLinkPerHour)
      else if challengeConflict (newChallenge P cfg now draw input) d = true then
        .error .constraint
      else .ok ((newChallenge P cfg now draw input, draw.code),
        { consumeWhere now (fun c => c.recipientId == some input.recipientId) d with
          challenges := (consumeWhere now (fun c => c.recipientId == some input.recipientId)
            d).challenges ++ [newChallenge P cfg now draw input] }) := by
  unfold createChallenge limitReached
  by_cases hl : cfg.challengeLimitPerLinkPerHour ≤ recentChallenges now input.recipientId d
  · simp only [if_pos hl]
  · by_cases hc : challengeConflict (newChallenge P cfg now draw input) d = true
    · simp [hl, hc, insertChallenge, challengeConflict_consumeWhere]
    · simp [hl, hc, insertChallenge, challengeConflict_consumeWhere]

/-- A created challenge: the limit was not reached, the pending codes of the same
person are consumed, and the new row stands at the end. -/
theorem createChallenge_ok {draw : ChallengeDraw} {input : ChallengeInput}
    {r : Challenge × String} (h : createChallenge P cfg now draw input d = .ok (r, d')) :
    recentChallenges now input.recipientId d < cfg.challengeLimitPerLinkPerHour ∧
      r = (newChallenge P cfg now draw input, draw.code) ∧
      (∀ x ∈ d.challenges, x.id ≠ newId "ch" draw.id) ∧
      (∃ l ∈ d.links, l.id = input.linkId) ∧
      (∃ x ∈ d.linkRecipients, x.id = input.recipientId) ∧
      d' = { consumeWhere now (fun c => c.recipientId == some input.recipientId) d with
        challenges := (consumeWhere now (fun c => c.recipientId == some input.recipientId)
          d).challenges ++ [newChallenge P cfg now draw input] } := by
  simp only [createChallenge] at h
  split at h
  · cases h
  · rename_i hlimit
    obtain ⟨d₁, hins, h⟩ := Fallible.bind_eq_ok.1 h
    cases h
    obtain ⟨hfree, hlink, hrec, rfl⟩ := insertChallenge_ok hins
    refine ⟨not_le.1 hlimit, rfl, ?_, hlink, hrec _ rfl, rfl⟩
    intro x hx hid
    obtain hmem : _ ∈ (consumeWhere now _ d).challenges := Table.mem_update.2 ⟨x, hx, rfl⟩
    refine hfree _ hmem ?_
    split <;> exact hid

/-- What a challenge has to be to be looked at. -/
theorem pendingRow_some {linkId flowToken : String} {row : Challenge}
    (h : pendingRow P now linkId flowToken d = some row) :
    row ∈ d.challenges ∧ row.linkId = linkId ∧ row.flowHash = P.sha256Hex flowToken ∧
      row.consumedAt = none ∧ isoLt now row.expiresAt := by
  obtain ⟨hmem, hrow⟩ := List.mem_filter.1 (Table.latest_mem h)
  simp only [Challenge.isPending, Bool.and_eq_true, beq_iff_eq, Option.isNone_iff_eq_none,
    decide_eq_true_eq] at hrow
  exact ⟨hmem, hrow.1.1, hrow.1.2, hrow.2.1, hrow.2.2⟩

/-- The outcomes of a verification. -/
inductive Verified (P : Platform) (cfg : Config) (now : Int) (input : VerifyInput)
    (d : DeliveryDb) : VerifyResult × DeliveryDb → Prop
  /-- Nothing is pending for this link and browser. -/
  | nothing : pendingRow P now input.linkId input.flowToken d = none →
      Verified P cfg now input d (.gone, d)
  /-- The code was accepted. -/
  | accepted (row : Challenge) : pendingRow P now input.linkId input.flowToken d = some row →
      acceptsCode P input.code row = true →
      Verified P cfg now input d
        (.ok row.recipientId, consumeWhere now (fun c => c.id == row.id) d)
  /-- One wrong code too many. -/
  | exhausted (row : Challenge) : pendingRow P now input.linkId input.flowToken d = some row →
      acceptsCode P input.code row = false → cfg.maxCodeAttempts ≤ (row.attempts + 1 : Nat) →
      Verified P cfg now input d (.gone, exhaustAttempts now (row.attempts + 1) row.id d)
  /-- A wrong code. -/
  | wrong (row : Challenge) : pendingRow P now input.linkId input.flowToken d = some row →
      acceptsCode P input.code row = false → ((row.attempts + 1 : Nat) : ℚ) < cfg.maxCodeAttempts →
      Verified P cfg now input d (.invalid (cfg.maxCodeAttempts - (row.attempts + 1 : Nat)),
        setAttempts (row.attempts + 1) row.id d)

theorem verified (P : Platform) (cfg : Config) (now : Int) (input : VerifyInput)
    (d : DeliveryDb) : Verified P cfg now input d (verifyChallenge P cfg now input d) := by
  unfold verifyChallenge
  cases hrow : pendingRow P now input.linkId input.flowToken d with
  | none => exact .nothing hrow
  | some row =>
      simp only []
      cases hcode : acceptsCode P input.code row with
      | true => exact .accepted row hrow hcode
      | false =>
          by_cases hmax : cfg.maxCodeAttempts ≤ (row.attempts + 1 : Nat)
          · simp only [Bool.false_eq_true, if_false, if_pos hmax]
            exact .exhausted row hrow hcode hmax
          · simp only [Bool.false_eq_true, if_false, if_neg hmax]
            exact .wrong row hrow hcode (not_le.1 hmax)

/-- What a consuming statement leaves pending was pending and not meant by it. -/
theorem pending_consumeWhere {p : Challenge → Bool} {c : Challenge}
    (hc : c ∈ (consumeWhere now p d).challenges) (hn : c.consumedAt = none) :
    c ∈ d.challenges ∧ p c = false := by
  obtain ⟨c₀, hc₀, rfl⟩ := Table.mem_update.1 hc
  split at hn
  · cases hn
  · rename_i hp
    rw [if_neg hp]
    refine ⟨hc₀, ?_⟩
    simpa [hn] using hp

/-- What is left pending after the last attempt are the other challenges. -/
theorem pending_exhaustAttempts {n : Nat} {id : String} {c : Challenge}
    (hc : c ∈ (exhaustAttempts now n id d).challenges) (hn : c.consumedAt = none) :
    c ∈ d.challenges ∧ c.id ≠ id := by
  obtain ⟨c₀, hc₀, rfl⟩ := Table.mem_update.1 hc
  split at hn
  · cases hn
  · rename_i hp
    rw [if_neg hp]
    exact ⟨hc₀, by simpa using hp⟩

theorem mem_setAttempts {n : Nat} {id : String} {c : Challenge}
    (hc : c ∈ (setAttempts n id d).challenges) :
    (c ∈ d.challenges ∧ c.id ≠ id) ∨
      ∃ c₀ ∈ d.challenges, c₀.id = id ∧ c = { c₀ with attempts := n } := by
  obtain ⟨c₀, hc₀, rfl⟩ := Table.mem_update.1 hc
  by_cases hp : (c₀.id == id) = true
  · rw [if_pos hp]
    exact .inr ⟨c₀, hc₀, by simpa using hp, rfl⟩
  · rw [if_neg hp]
    exact .inl ⟨hc₀, by simpa using hp⟩

/-- A session that is still good, or none; an expired one is deleted on the way. -/
theorem getAccessSession_cases (now : Int) (sessionId : String) (d : DeliveryDb) :
    (getAccessSession P now sessionId d).1 = none ∧
        ((getAccessSession P now sessionId d).2 = d ∨
          (getAccessSession P now sessionId d).2 = destroyAccessSession P sessionId d ∧
            ∃ row ∈ d.accessSessions, row.idHash = P.sha256Hex sessionId ∧
              isoLe row.expiresAt now) ∨
      (getAccessSession P now sessionId d).2 = d ∧ ∃ row ∈ d.accessSessions,
        row.idHash = P.sha256Hex sessionId ∧ isoLt now row.expiresAt ∧
          (getAccessSession P now sessionId d).1 = some row.session := by
  unfold getAccessSession
  cases h : d.accessSessions.find? fun r => r.idHash == P.sha256Hex sessionId with
  | none => exact .inl ⟨rfl, .inl rfl⟩
  | some row =>
      have hmem := List.mem_of_find?_eq_some h
      have hid : row.idHash = P.sha256Hex sessionId := by simpa using List.find?_some h
      by_cases hexp : isoLe row.expiresAt now
      · simp only [if_pos hexp]
        exact .inl ⟨trivial, .inr ⟨trivial, row, hmem, hid, hexp⟩⟩
      · simp only [if_neg hexp]
        exact .inr ⟨trivial, row, hmem, hid, not_le.1 hexp, rfl⟩

/-- A created session, and what had to hold for it. -/
theorem createAccessSession_ok {draw : AccessDraw} {linkId : String}
    {recipientId ip : Option String} {r : String × AccessSession}
    (h : createAccessSession P cfg now draw linkId recipientId ip d = .ok (r, d')) :
    (∀ x ∈ d.accessSessions, x.idHash ≠ P.sha256Hex draw.sessionId) ∧
      (∀ id, recipientId = some id → ∃ x ∈ d.linkRecipients, x.id = id) ∧
      d' = { d with accessSessions :=
        d.accessSessions ++ [newAccessSession P cfg now draw linkId recipientId ip] } := by
  simp only [createAccessSession] at h
  split at h
  · cases h
  · rename_i hfree
    cases h
    simp only [Bool.or_eq_true, not_or, Bool.not_eq_true', Bool.not_eq_false, List.any_eq_true,
      beq_iff_eq, not_exists, not_and] at hfree
    refine ⟨fun x hx => hfree.1.1 x hx, ?_, rfl⟩
    intro id hid
    simpa [hid] using hfree.2

end

end Outletbox
