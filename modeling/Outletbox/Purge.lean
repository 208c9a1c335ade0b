import Outletbox.Codes
import Outletbox.Library.Thinned
import Outletbox.Services.Auth

/-!
# What a purge takes away

The cleanup deletes expired sessions and the challenges of more than an hour ago.
Two runs are compared: one in which the purge ran, and one in which it did not.
They go on with the same calls, and they answer alike as long as every deleted
challenge was consumed or expired.  A challenge that is an hour old is expired
when codes are valid for an hour at most; nothing in the configuration says that
they are.
-/

namespace Outletbox

namespace Purge

variable (P : Platform) (cfg : Config)

/-! ## The system -/

structure World where
  deliveries : DeliveryDb
  accounts : AccountDb

/-- `purgeExpiredSessions` and `purgeExpiredAccess`, as the cleanup runs them. -/
def purge (now : Int) (w : World) : World :=
  ⟨purgeExpiredAccess now w.deliveries, purgeExpiredSessions now w.accounts⟩

/-- The calls on challenges and sessions, and the statements with which everything else goes on. -/
inductive Op
  /-- The calls on challenges. -/
  | codes (op : Codes.Op)
  | createAccessSession (draw : AccessDraw) (linkId : String) (recipientId ip : Option String)
  | getAccessSession (sessionId : String)
  | destroyAccessSession (sessionId : String)
  | destroyAccessSessionsForCase (caseId : String)
  | createSession (draw : SessionDraw) (admin : Admin) (ttlMs : Nat) (info : SessionMeta)
  | getSession (sessionId : String)
  | destroySession (sessionId : String)
  | destroyOtherSessions (adminId keepSessionId : String)
  | markConfirmed (sessionId : String) (ms : Nat)
  | purgeExpiredSessions
  /-- Rows are deleted with what they belong to. -/
  | cascade (challenges : Challenge → Bool) (accessSessions : AccessSessionRow → Bool)
      (sessions : SessionRow → Bool)
  /-- A session gets new values in all columns but its key and its end. -/
  | updateSession (idHash : String) (row : SessionRow)
  /-- The other tables get new contents. -/
  | others (deliveries : DeliveryDb) (accounts : AccountDb)

/-- An operation and the instant it runs at. -/
structure Call where
  now : Int
  op : Op

inductive Output
  | codes (output : Codes.Output)
  | created (result : Except Failure (String × AccessSession))
  | access (session : Option AccessSession)
  | signedIn (result : Except Failure Unit)
  | session (session : Option Session)
  | done

def step (w : World) (c : Call) : World × Output :=
  match c.op with
  | .codes op =>
      let r := Codes.step P cfg w.deliveries ⟨c.now, op⟩
      (⟨r.1, w.accounts⟩, .codes r.2)
  | .createAccessSession draw linkId recipientId ip =>
      match Outletbox.createAccessSession P cfg c.now draw linkId recipientId ip w.deliveries with
      | .ok (r, d) => (⟨d, w.accounts⟩, .created (.ok r))
      | .error e => (w, .created (.error e))
  | .getAccessSession sessionId =>
      let r := Outletbox.getAccessSession P c.now sessionId w.deliveries
      (⟨r.2, w.accounts⟩, .access r.1)
  | .destroyAccessSession sessionId =>
      (⟨Outletbox.destroyAccessSession P sessionId w.deliveries, w.accounts⟩, .done)
  | .destroyAccessSessionsForCase caseId =>
      (⟨Outletbox.destroyAccessSessionsForCase caseId w.deliveries, w.accounts⟩, .done)
  | .createSession draw admin ttlMs info =>
      match Outletbox.createSession P c.now draw admin ttlMs info w.accounts with
      | .ok a => (⟨w.deliveries, a⟩, .signedIn (.ok ()))
      | .error e => (w, .signedIn (.error e))
  | .getSession sessionId =>
      let r := Outletbox.getSession P c.now sessionId w.accounts
      (⟨w.deliveries, r.2⟩, .session r.1)
  | .destroySession sessionId =>
      (⟨w.deliveries, Outletbox.destroySession P sessionId w.accounts⟩, .done)
  | .destroyOtherSessions adminId keepSessionId =>
      (⟨w.deliveries, Outletbox.destroyOtherSessions P adminId keepSessionId w.accounts⟩, .done)
  | .markConfirmed sessionId ms =>
      (⟨w.deliveries, Outletbox.markConfirmed P c.now sessionId ms w.accounts⟩, .done)
  | .purgeExpiredSessions =>
      (⟨w.deliveries, Outletbox.purgeExpiredSessions c.now w.accounts⟩, .done)
  | .cascade challenges accessSessions sessions =>
      (⟨{ w.deliveries with
          challenges := Table.delete challenges w.deliveries.challenges
          accessSessions := Table.delete accessSessions w.deliveries.accessSessions },
        deletePanelSessions sessions w.accounts⟩, .done)
  | .updateSession idHash row =>
      (⟨w.deliveries, Outletbox.updateSession idHash (fun s => { row with
        idHash := s.idHash, expiresAt := s.expiresAt }) w.accounts⟩, .done)
  | .others deliveries accounts =>
      (⟨{ deliveries with
          challenges := w.deliveries.challenges
          accessSessions := w.deliveries.accessSessions },
        { accounts with sessions := w.accounts.sessions, bindings := w.accounts.bindings }⟩, .done)

/-- An event of a run. -/
abbrev Event := History.Event World Call Output

/-- Before the purge, calls may come in any order and at any instant. -/
def env (_ : List Event) (_ : World) (_ : Call) : Prop := True

/-- A database without codes and sessions. -/
structure Start (w : World) : Prop where
  challenges : w.deliveries.challenges = []
  accessSessions : w.deliveries.accessSessions = []
  sessions : w.accounts.sessions = []

/-! ## Later calls -/

/-- An instant from `T` on.  The time stamps of the two, and those of an hour before, order like the
instants. -/
def Later (T now : Int) : Prop := T ≤ now ∧ (now < year10000 ∨ year10000 + hourMs ≤ T)

/-- What the call draws is not in the database. -/
def Fresh (w : World) : Op → Prop
  | .codes (.createChallenge draw _) =>
      w.deliveries.challenges.any (·.id == newId "ch" draw.id) = false
  | .createAccessSession draw _ _ _ =>
      w.deliveries.accessSessions.any (·.idHash == P.sha256Hex draw.sessionId) = false
  | .createSession draw _ _ _ =>
      w.accounts.sessions.any (fun s =>
        s.idHash == P.sha256Hex draw.sessionId || s.publicId == newId "s" draw.publicId) = false
  | _ => True

/-- The calls after a purge at `T`. -/
def laterEnv (T : Int) (_ : List Event) (w : World) (c : Call) : Prop :=
  Later T c.now ∧ Fresh P w c.op

/-- A challenge of an hour before `T` that is consumed or expired. -/
def Settled (T : Int) (c : Challenge) : Prop :=
  isoLe c.createdAt (T - hourMs) ∧ (c.consumedAt ≠ none ∨ isoLe c.expiresAt T)

/-- The second database is the first one without some challenges and sessions that are settled or
expired at `T`. -/
inductive Purged (T : Int) : World → World → Prop
  | intro {d : DeliveryDb} {a : AccountDb} {challenges : List Challenge}
      {accessSessions : List AccessSessionRow} {sessions : List SessionRow}
      {bindings : List BindingRow} :
      Table.Thinned (Settled T) d.challenges challenges →
      Table.Thinned (fun r => isoLe r.expiresAt T) d.accessSessions accessSessions →
      Table.Thinned (fun s => isoLe s.expiresAt T) a.sessions sessions →
      Purged T ⟨d, a⟩
        ⟨{ d with challenges := challenges, accessSessions := accessSessions },
          { a with sessions := sessions, bindings := bindings }⟩

/-- The keys of the sessions are distinct. -/
structure Keys (w : World) : Prop where
  accessSessions : (w.deliveries.accessSessions.map (·.idHash)).Nodup
  sessions : (w.accounts.sessions.map (·.idHash)).Nodup

section

variable {P cfg} {T now : Int} {d : DeliveryDb} {a : AccountDb} {challenges : List Challenge}
  {accessSessions : List AccessSessionRow} {sessions : List SessionRow} {bindings : List BindingRow}

theorem Later.isoLe (h : Later T now) : isoLe T now := by
  obtain ⟨hle, h | h⟩ := h
  · exact (isoLe_iff (by omega) h).2 hle
  · have hhour : (0 : Int) ≤ hourMs := by decide
    simp only [Outletbox.isoLe, isoKey, if_neg (show ¬ T < year10000 by omega),
      if_neg (show ¬ now < year10000 by omega)]
    omega

theorem Later.isoLe_hour (h : Later T now) : Outletbox.isoLe (T - hourMs) (now - hourMs) := by
  have hhour : (0 : Int) ≤ hourMs := by decide
  obtain ⟨hle, h | h⟩ := h
  · exact (isoLe_iff (by omega) (by omega)).2 (by omega)
  · simp only [Outletbox.isoLe, isoKey, if_neg (show ¬ T - hourMs < year10000 by omega),
      if_neg (show ¬ now - hourMs < year10000 by omega)]
    omega

/-! ## What the purge leaves alike -/

/-- No verification looks at a settled challenge. -/
theorem Settled.not_pending {c : Challenge} (h : Settled T c) (hlater : Later T now) :
    c.isPending now = false := by
  have hle := hlater.isoLe
  rw [Challenge.isPending, Bool.and_eq_false_iff]
  rcases h.2 with hc | hexp
  · exact .inl (by rwa [Option.isNone_eq_false_iff, Option.isSome_iff_ne_none])
  · exact .inr (by simpa using hexp.trans hle)

/-- The hourly limit does not count a settled challenge. -/
theorem Settled.not_recent {c : Challenge} (h : Settled T c) (hlater : Later T now) :
    ¬ isoLt (now - hourMs) c.createdAt :=
  not_lt.2 (h.1.trans hlater.isoLe_hour)

theorem pendingRow_purged (h : Table.Thinned (Settled T) d.challenges challenges)
    (hlater : Later T now) (linkId flowToken : String) :
    pendingRow P now linkId flowToken
        { d with challenges := challenges, accessSessions := accessSessions } =
      pendingRow P now linkId flowToken d := by
  refine congrArg (Table.latest fun c => isoKey c.createdAt) (h.filter_eq fun c hc => ?_)
  rw [hc.not_pending hlater, Bool.and_false]

theorem recentChallenges_purged (h : Table.Thinned (Settled T) d.challenges challenges)
    (hlater : Later T now) (recipientId : String) :
    recentChallenges now recipientId
        { d with challenges := challenges, accessSessions := accessSessions } =
      recentChallenges now recipientId d := by
  refine h.countP_eq fun c hc => ?_
  rw [decide_eq_false (hc.not_recent hlater), Bool.and_false]

/-- A settled challenge stays settled. -/
theorem Settled.consume {c : Challenge} (h : Settled T c) (n : Nat) (t : Int) :
    Settled T { c with attempts := n, consumedAt := some t } :=
  ⟨h.1, .inl (Option.some_ne_none t)⟩

theorem thinned_consumeWhere (h : Table.Thinned (Settled T) d.challenges challenges)
    (q : Challenge → Bool) :
    Table.Thinned (Settled T) (consumeWhere now q d).challenges
      (consumeWhere now q { d with
        challenges := challenges, accessSessions := accessSessions }).challenges :=
  h.update _ fun c hc => hc.consume c.attempts now

/-- A typed code meets the same challenge, with or without the purge. -/
theorem verifyChallenge_purged (hc : Table.Thinned (Settled T) d.challenges challenges)
    (hs : Table.Thinned (fun r => isoLe r.expiresAt T) d.accessSessions accessSessions)
    (ha : Table.Thinned (fun s => isoLe s.expiresAt T) a.sessions sessions)
    (hlater : Later T now) (input : VerifyInput) :
    (verifyChallenge P cfg now input { d with
        challenges := challenges, accessSessions := accessSessions }).1 =
        (verifyChallenge P cfg now input d).1 ∧
      Purged T ⟨(verifyChallenge P cfg now input d).2, a⟩
        ⟨(verifyChallenge P cfg now input { d with
          challenges := challenges, accessSessions := accessSessions }).2,
          { a with sessions := sessions, bindings := bindings }⟩ := by
  unfold verifyChallenge
  rw [pendingRow_purged hc hlater]
  cases pendingRow P now input.linkId input.flowToken d with
  | none => exact ⟨rfl, .intro hc hs ha⟩
  | some row =>
      simp only []
      split
      · exact ⟨rfl, .intro (thinned_consumeWhere hc _) hs ha⟩
      · split
        · exact ⟨rfl, .intro (hc.update _ fun c h => h.consume _ now) hs ha⟩
        · exact ⟨rfl, .intro (hc.update _ fun c h => h) hs ha⟩

/-- A code is mailed or refused, with or without the purge. -/
theorem createChallenge_purged (hc : Table.Thinned (Settled T) d.challenges challenges)
    (hs : Table.Thinned (fun r => isoLe r.expiresAt T) d.accessSessions accessSessions)
    (ha : Table.Thinned (fun s => isoLe s.expiresAt T) a.sessions sessions)
    (hlater : Later T now) {draw : ChallengeDraw} (input : ChallengeInput)
    (hfresh : d.challenges.any (·.id == newId "ch" draw.id) = false) :
    (Codes.step P cfg { d with challenges := challenges, accessSessions := accessSessions }
        ⟨now, .createChallenge draw input⟩).2 =
        (Codes.step P cfg d ⟨now, .createChallenge draw input⟩).2 ∧
      Purged T ⟨(Codes.step P cfg d ⟨now, .createChallenge draw input⟩).1, a⟩
        ⟨(Codes.step P cfg { d with challenges := challenges, accessSessions := accessSessions }
          ⟨now, .createChallenge draw input⟩).1,
          { a with sessions := sessions, bindings := bindings }⟩ := by
  have hlimit : limitReached cfg now input.recipientId
      { d with challenges := challenges, accessSessions := accessSessions } ↔
        limitReached cfg now input.recipientId d := by
    rw [limitReached, limitReached, recentChallenges_purged hc hlater]
  have hconflict : challengeConflict (newChallenge P cfg now draw input)
      { d with challenges := challenges, accessSessions := accessSessions } =
        challengeConflict (newChallenge P cfg now draw input) d := by
    have hany : challenges.any (·.id == (newChallenge P cfg now draw input).id) =
        d.challenges.any (·.id == (newChallenge P cfg now draw input).id) :=
      (hc.any_eq_false hfresh).trans hfresh.symm
    rw [challengeConflict, challengeConflict, hany]
  simp only [Codes.step, createChallenge_eq, hlimit, hconflict]
  by_cases hl : limitReached cfg now input.recipientId d
  · simp only [if_pos hl]
    exact ⟨trivial, .intro hc hs ha⟩
  · simp only [if_neg hl]
    by_cases hk : challengeConflict (newChallenge P cfg now draw input) d = true
    · simp only [if_pos hk]
      exact ⟨trivial, .intro hc hs ha⟩
    · simp only [if_neg hk]
      exact ⟨trivial, .intro ((thinned_consumeWhere hc _).append _) hs ha⟩

theorem removeRecipient_purged (hc : Table.Thinned (Settled T) d.challenges challenges)
    (hs : Table.Thinned (fun r => isoLe r.expiresAt T) d.accessSessions accessSessions)
    (ha : Table.Thinned (fun s => isoLe s.expiresAt T) a.sessions sessions)
    (linkId recipientId : String) :
    (removeRecipient linkId recipientId { d with
        challenges := challenges, accessSessions := accessSessions }).1 =
        (removeRecipient linkId recipientId d).1 ∧
      Purged T ⟨(removeRecipient linkId recipientId d).2, a⟩
        ⟨(removeRecipient linkId recipientId { d with
          challenges := challenges, accessSessions := accessSessions }).2,
          { a with sessions := sessions, bindings := bindings }⟩ := by
  unfold removeRecipient
  simp only []
  cases d.linkRecipients.find? fun r => r.id == recipientId && r.linkId == linkId with
  | none => exact ⟨rfl, .intro hc hs ha⟩
  | some row =>
      have hcount : recipientCount linkId { d with
          challenges := challenges, accessSessions := accessSessions } = recipientCount linkId d := rfl
      simp only [hcount]
      by_cases hlast : recipientCount linkId d ≤ 1
      · simp only [if_pos hlast]
        exact ⟨trivial, .intro hc hs ha⟩
      · simp only [if_neg hlast]
        exact ⟨trivial, .intro (hc.delete _) (hs.delete _) ha⟩

/-- The calls on challenges. -/
theorem codes_purged (hc : Table.Thinned (Settled T) d.challenges challenges)
    (hs : Table.Thinned (fun r => isoLe r.expiresAt T) d.accessSessions accessSessions)
    (ha : Table.Thinned (fun s => isoLe s.expiresAt T) a.sessions sessions)
    (hlater : Later T now) {op : Codes.Op} (hfresh : Fresh P ⟨d, a⟩ (.codes op)) :
    (Codes.step P cfg { d with challenges := challenges, accessSessions := accessSessions }
        ⟨now, op⟩).2 = (Codes.step P cfg d ⟨now, op⟩).2 ∧
      Purged T ⟨(Codes.step P cfg d ⟨now, op⟩).1, a⟩
        ⟨(Codes.step P cfg { d with challenges := challenges, accessSessions := accessSessions }
          ⟨now, op⟩).1, { a with sessions := sessions, bindings := bindings }⟩ := by
  cases op with
  | createChallenge draw input => exact createChallenge_purged hc hs ha hlater input hfresh
  | verifyChallenge input =>
      have h := @verifyChallenge_purged P cfg _ _ _ _ _ _ _ bindings hc hs ha hlater input
      exact ⟨congrArg Codes.Output.verified h.1, h.2⟩
  | restart linkId flowToken => exact ⟨rfl, .intro (thinned_consumeWhere hc _) hs ha⟩
  | destroyAccessSessionsForLink linkId =>
      exact ⟨rfl, .intro (hc.update _ fun c h => h.consume c.attempts now) (hs.delete _) ha⟩
  | removeRecipient linkId recipientId =>
      have h := @removeRecipient_purged _ _ _ _ _ _ bindings hc hs ha linkId recipientId
      exact ⟨congrArg Codes.Output.removed h.1, h.2⟩
  | purgeExpiredAccess => exact ⟨rfl, .intro (hc.delete _) (hs.delete _) ha⟩

/-- Deleting what is not there. -/
theorem delete_of_find?_eq_none {α : Type} {q : α → Bool} {t : List α} (h : t.find? q = none) :
    Table.delete q t = t :=
  Table.delete_eq_self fun r hr => by simpa using List.find?_eq_none.1 h r hr

/-- A recipient's session is good or not, with or without the purge. -/
theorem getAccessSession_purged (hc : Table.Thinned (Settled T) d.challenges challenges)
    (hs : Table.Thinned (fun r => isoLe r.expiresAt T) d.accessSessions accessSessions)
    (ha : Table.Thinned (fun s => isoLe s.expiresAt T) a.sessions sessions)
    (hn : (d.accessSessions.map (·.idHash)).Nodup) (hlater : Later T now) (sessionId : String) :
    (getAccessSession P now sessionId { d with
        challenges := challenges, accessSessions := accessSessions }).1 =
        (getAccessSession P now sessionId d).1 ∧
      Purged T ⟨(getAccessSession P now sessionId d).2, a⟩
        ⟨(getAccessSession P now sessionId { d with
          challenges := challenges, accessSessions := accessSessions }).2,
          { a with sessions := sessions, bindings := bindings }⟩ := by
  unfold getAccessSession
  simp only []
  rcases hs.find?_key hn (P.sha256Hex sessionId) with hfind | ⟨row, hrow, hexp, hnone⟩
  · rw [hfind]
    cases d.accessSessions.find? fun r => r.idHash == P.sha256Hex sessionId with
    | none => exact ⟨rfl, .intro hc hs ha⟩
    | some row =>
        simp only []
        split
        · exact ⟨rfl, .intro hc (hs.delete _) ha⟩
        · exact ⟨rfl, .intro hc hs ha⟩
  · -- The row is gone; it is expired, so it would have been deleted now.
    have hgone : isoLe row.expiresAt now := hexp.trans hlater.isoLe
    rw [hnone, hrow]
    simp only [if_pos hgone]
    refine ⟨trivial, .intro hc ?_ ha⟩
    have hdelete := hs.delete fun r => r.idHash == P.sha256Hex sessionId
    rwa [delete_of_find?_eq_none hnone] at hdelete

/-- A panel session is good or not, with or without the purge. -/
theorem getSession_purged (hc : Table.Thinned (Settled T) d.challenges challenges)
    (hs : Table.Thinned (fun r => isoLe r.expiresAt T) d.accessSessions accessSessions)
    (ha : Table.Thinned (fun s => isoLe s.expiresAt T) a.sessions sessions)
    (hn : (a.sessions.map (·.idHash)).Nodup) (hlater : Later T now) (sessionId : String) :
    (getSession P now sessionId { a with sessions := sessions, bindings := bindings }).1 =
        (getSession P now sessionId a).1 ∧
      Purged T ⟨d, (getSession P now sessionId a).2⟩
        ⟨{ d with challenges := challenges, accessSessions := accessSessions },
          (getSession P now sessionId { a with sessions := sessions, bindings := bindings }).2⟩ := by
  unfold getSession
  split
  · exact ⟨rfl, .intro hc hs ha⟩
  · rcases ha.find?_key hn (P.sha256Hex sessionId) with hfind | ⟨row, hrow, hexp, hnone⟩
    · have hsame : sessionRow P sessionId { a with sessions := sessions, bindings := bindings } =
          sessionRow P sessionId a := by
        rw [sessionRow, sessionRow, hfind]
        rfl
      rw [hsame]
      cases sessionRow P sessionId a with
      | none => exact ⟨rfl, .intro hc hs ha⟩
      | some r =>
          simp only []
          split
          · exact ⟨rfl, .intro hc hs (ha.delete _)⟩
          · exact ⟨rfl, .intro hc hs (ha.update _ fun s h => h)⟩
    · -- The row is gone; it is expired, so it would have been deleted now.
      have hgone : isoLe row.expiresAt now := hexp.trans hlater.isoLe
      have hthinned : sessionRow P sessionId { a with sessions := sessions, bindings := bindings } =
          none := by
        rw [sessionRow, hnone]
        rfl
      rw [hthinned]
      have hfull : sessionRow P sessionId a = (adminById row.adminId a).map fun admin =>
          (row, admin) := by
        rw [sessionRow, hrow, Option.bind_eq_bind, Option.bind_some]
        cases adminById row.adminId a <;> simp
      rw [hfull]
      cases adminById row.adminId a with
      | none => exact ⟨rfl, .intro hc hs ha⟩
      | some admin =>
          simp only [Option.map_some, if_pos (Or.inl hgone)]
          refine ⟨trivial, .intro hc hs ?_⟩
          have hdelete := ha.delete fun s => s.idHash == P.sha256Hex sessionId
          rwa [delete_of_find?_eq_none hnone] at hdelete

theorem createAccessSession_purged
    (hs : Table.Thinned (fun r => isoLe r.expiresAt T) d.accessSessions accessSessions)
    {draw : AccessDraw} (linkId : String) (recipientId ip : Option String)
    (hfresh : d.accessSessions.any (·.idHash == P.sha256Hex draw.sessionId) = false) :
    (∃ e, createAccessSession P cfg now draw linkId recipientId ip { d with
          challenges := challenges, accessSessions := accessSessions } = .error e ∧
        createAccessSession P cfg now draw linkId recipientId ip d = .error e) ∨
      ∃ r row, createAccessSession P cfg now draw linkId recipientId ip { d with
          challenges := challenges, accessSessions := accessSessions } = .ok (r, { d with
            challenges := challenges, accessSessions := accessSessions ++ [row] }) ∧
        createAccessSession P cfg now draw linkId recipientId ip d = .ok (r, { d with
          accessSessions := d.accessSessions ++ [row] }) := by
  have hany : accessSessions.any (·.idHash == P.sha256Hex draw.sessionId) =
      d.accessSessions.any (·.idHash == P.sha256Hex draw.sessionId) :=
    (hs.any_eq_false hfresh).trans hfresh.symm
  simp only [createAccessSession, newAccessSession, hany]
  split
  · next hconflict => exact .inl ⟨_, rfl, if_pos hconflict⟩
  · next hconflict => exact .inr ⟨_, _, rfl, if_neg hconflict⟩

theorem createSession_purged
    (ha : Table.Thinned (fun s => isoLe s.expiresAt T) a.sessions sessions) {draw : SessionDraw}
    (admin : Admin) (ttlMs : Nat) (info : SessionMeta)
    (hfresh : a.sessions.any (fun s =>
      s.idHash == P.sha256Hex draw.sessionId || s.publicId == newId "s" draw.publicId) = false) :
    (∃ e, createSession P now draw admin ttlMs info { a with
          sessions := sessions, bindings := bindings } = .error e ∧
        createSession P now draw admin ttlMs info a = .error e) ∨
      ∃ row, createSession P now draw admin ttlMs info { a with
          sessions := sessions, bindings := bindings } = .ok { a with
            sessions := sessions ++ [row], bindings := bindings } ∧
        createSession P now draw admin ttlMs info a = .ok { a with
          sessions := a.sessions ++ [row] } := by
  have hany : sessions.any (fun s =>
      s.idHash == P.sha256Hex draw.sessionId || s.publicId == newId "s" draw.publicId) =
      a.sessions.any fun s =>
        s.idHash == P.sha256Hex draw.sessionId || s.publicId == newId "s" draw.publicId :=
    (ha.any_eq_false hfresh).trans hfresh.symm
  have hadmin : adminById admin.id { a with sessions := sessions, bindings := bindings } =
      adminById admin.id a := rfl
  simp only [createSession, insertSession, newSession, hany, hadmin]
  split
  · next hconflict => exact .inl ⟨_, rfl, if_pos hconflict⟩
  · next hconflict => exact .inr ⟨_, rfl, if_neg hconflict⟩

variable {h : List Event} {w w' : World} {c : Call}

/-- One call answers alike with and without the purge. -/
theorem step_purged (hp : Purged T w w') (hk : Keys w) (henv : laterEnv P T h w c) :
    (step P cfg w' c).2 = (step P cfg w c).2 ∧
      Purged T (step P cfg w c).1 (step P cfg w' c).1 := by
  obtain ⟨now, op⟩ := c
  obtain ⟨hlater, hfresh⟩ := henv
  obtain @⟨d, a, challenges, accessSessions, sessions, bindings, hc, hs, ha⟩ := hp
  cases op with
  | codes op =>
      have hcodes := @codes_purged P cfg T now d a challenges accessSessions sessions bindings hc hs ha hlater op
        hfresh
      exact ⟨congrArg Output.codes hcodes.1, hcodes.2⟩
  | createAccessSession draw linkId recipientId ip =>
      rcases @createAccessSession_purged P cfg T now d challenges accessSessions hs draw linkId recipientId
        ip hfresh with
        ⟨e, hthinned, hfull⟩ | ⟨r, row, hthinned, hfull⟩
      · simp only [step, hthinned, hfull]
        exact ⟨trivial, .intro hc hs ha⟩
      · simp only [step, hthinned, hfull]
        exact ⟨trivial, .intro hc (hs.append _) ha⟩
  | getAccessSession sessionId =>
      have hget := @getAccessSession_purged P T now d a challenges accessSessions sessions bindings hc hs ha
        hk.accessSessions hlater sessionId
      exact ⟨congrArg Output.access hget.1, hget.2⟩
  | destroyAccessSession sessionId => exact ⟨rfl, .intro hc (hs.delete _) ha⟩
  | destroyAccessSessionsForCase caseId => exact ⟨rfl, .intro hc (hs.delete _) ha⟩
  | createSession draw admin ttlMs info =>
      rcases @createSession_purged P T now a sessions bindings ha draw admin ttlMs info hfresh with
        ⟨e, hthinned, hfull⟩ | ⟨row, hthinned, hfull⟩
      · simp only [step, hthinned, hfull]
        exact ⟨trivial, .intro hc hs ha⟩
      · simp only [step, hthinned, hfull]
        exact ⟨trivial, .intro hc hs (ha.append _)⟩
  | getSession sessionId =>
      have hget := @getSession_purged P T now d a challenges accessSessions sessions bindings hc hs ha hk.sessions
        hlater sessionId
      exact ⟨congrArg Output.session hget.1, hget.2⟩
  | destroySession sessionId => exact ⟨rfl, .intro hc hs (ha.delete _)⟩
  | destroyOtherSessions adminId keepSessionId => exact ⟨rfl, .intro hc hs (ha.delete _)⟩
  | markConfirmed sessionId ms => exact ⟨rfl, .intro hc hs (ha.update _ fun s h => h)⟩
  | purgeExpiredSessions => exact ⟨rfl, .intro hc hs (ha.delete _)⟩
  | cascade challenges accessSessions sessions =>
      exact ⟨rfl, .intro (hc.delete _) (hs.delete _) (ha.delete _)⟩
  | updateSession idHash row => exact ⟨rfl, .intro hc hs (ha.update _ fun s h => h)⟩
  | others deliveries accounts => exact ⟨rfl, .intro hc hs ha⟩

/-! ## Runs -/

/-- A code is only created under a limit, and is valid as long as the configuration says. -/
def Dated (cfg : Config) (c : Challenge) : Prop :=
  0 < cfg.challengeLimitPerLinkPerHour ∧ c.expiresAt = c.createdAt + cfg.accessCodeTtlMs

/-- The invariant of the calls before the purge. -/
structure Inv (cfg : Config) (w : World) : Prop where
  keys : Keys w
  challenges : ∀ c ∈ w.deliveries.challenges, Dated cfg c

/-- The columns of a challenge that say how long it is valid. -/
theorem times_update {q : Challenge → Bool} {f : Challenge → Challenge} {x : Challenge}
    (hx : x ∈ Table.update q f d.challenges)
    (hf : ∀ c, (f c).createdAt = c.createdAt ∧ (f c).expiresAt = c.expiresAt) :
    ∃ c ∈ d.challenges, x.createdAt = c.createdAt ∧ x.expiresAt = c.expiresAt := by
  obtain ⟨c, hc, rfl⟩ := Table.mem_update.1 hx
  refine ⟨c, hc, ?_⟩
  split
  · exact hf c
  · exact ⟨rfl, rfl⟩

/-- A call on challenges keeps what the invariant says of them. -/
theorem codes_challenges (op : Codes.Op) {x : Challenge}
    (hx : x ∈ (Codes.step P cfg d ⟨now, op⟩).1.challenges) :
    (∃ c ∈ d.challenges, x.createdAt = c.createdAt ∧ x.expiresAt = c.expiresAt) ∨
      Dated cfg x := by
  cases op with
  | createChallenge draw input =>
      simp only [Codes.step] at hx
      split at hx
      · next challenge code d' hcreate =>
          obtain ⟨hlimit, -, -, -, -, rfl⟩ := createChallenge_ok hcreate
          rcases List.mem_append.1 hx with hx | hx
          · exact .inl (times_update hx fun c => ⟨rfl, rfl⟩)
          · rw [List.mem_singleton.1 hx]
            exact .inr ⟨lt_of_le_of_lt (Nat.cast_nonneg _) hlimit, rfl⟩
      · exact .inl ⟨x, hx, rfl, rfl⟩
  | verifyChallenge input =>
      have hx : x ∈ (verifyChallenge P cfg now input d).2.challenges := hx
      have hverified := verified P cfg now input d
      generalize verifyChallenge P cfg now input d = r at hx hverified
      cases hverified with
      | nothing hrow => exact .inl ⟨x, hx, rfl, rfl⟩
      | accepted row hrow hcode => exact .inl (times_update hx fun c => ⟨rfl, rfl⟩)
      | exhausted row hrow hcode hmax => exact .inl (times_update hx fun c => ⟨rfl, rfl⟩)
      | wrong row hrow hcode hmax => exact .inl (times_update hx fun c => ⟨rfl, rfl⟩)
  | restart linkId flowToken => exact .inl (times_update hx fun c => ⟨rfl, rfl⟩)
  | destroyAccessSessionsForLink linkId => exact .inl (times_update hx fun c => ⟨rfl, rfl⟩)
  | removeRecipient linkId recipientId =>
      have hx : x ∈ (removeRecipient linkId recipientId d).2.challenges := hx
      rcases removeRecipient_cases linkId recipientId d with ⟨-, hd⟩ | ⟨-, -, -, -, -, hd⟩
      · rw [hd] at hx
        exact .inl ⟨x, hx, rfl, rfl⟩
      · rw [hd] at hx
        exact .inl ⟨x, (Table.mem_delete.1 hx).1, rfl, rfl⟩
  | purgeExpiredAccess => exact .inl ⟨x, (Table.mem_delete.1 hx).1, rfl, rfl⟩

/-- A call on challenges makes no sessions. -/
theorem codes_accessSessions (op : Codes.Op) :
    (Codes.step P cfg d ⟨now, op⟩).1.accessSessions.Sublist d.accessSessions := by
  cases op with
  | createChallenge draw input =>
      simp only [Codes.step]
      split
      · next challenge code d' hcreate =>
          obtain ⟨-, -, -, -, -, rfl⟩ := createChallenge_ok hcreate
          exact List.Sublist.refl _
      · exact List.Sublist.refl _
  | verifyChallenge input =>
      show (verifyChallenge P cfg now input d).2.accessSessions.Sublist d.accessSessions
      have hverified := verified P cfg now input d
      generalize verifyChallenge P cfg now input d = r at hverified
      cases hverified with
      | nothing hrow => exact List.Sublist.refl _
      | accepted row hrow hcode => exact List.Sublist.refl _
      | exhausted row hrow hcode hmax => exact List.Sublist.refl _
      | wrong row hrow hcode hmax => exact List.Sublist.refl _
  | restart linkId flowToken => exact List.Sublist.refl _
  | destroyAccessSessionsForLink linkId => exact List.filter_sublist
  | removeRecipient linkId recipientId =>
      show (removeRecipient linkId recipientId d).2.accessSessions.Sublist d.accessSessions
      rcases removeRecipient_cases linkId recipientId d with ⟨-, hd⟩ | ⟨-, -, -, -, -, hd⟩
      · rw [hd]
      · rw [hd]
        exact List.filter_sublist
  | purgeExpiredAccess => exact List.filter_sublist

theorem nodup_sublist {α : Type} {t t' : List α} {key : α → String} (hn : (t.map key).Nodup)
    (h : t'.Sublist t) : (t'.map key).Nodup := (h.map key).nodup hn

/-- A created session has a new key. -/
theorem nodup_createAccessSession (hn : (d.accessSessions.map (·.idHash)).Nodup) {draw : AccessDraw}
    {linkId : String} {recipientId ip : Option String} {r : String × AccessSession} {d' : DeliveryDb}
    (h : createAccessSession P cfg now draw linkId recipientId ip d = .ok (r, d')) :
    (d'.accessSessions.map (·.idHash)).Nodup := by
  obtain ⟨hfree, -, rfl⟩ := createAccessSession_ok h
  exact Table.nodup_append_row hn fun x hx => hfree x hx

theorem nodup_createSession (hn : (a.sessions.map (·.idHash)).Nodup) {draw : SessionDraw}
    {admin : Admin} {ttlMs : Nat} {info : SessionMeta} {a' : AccountDb}
    (h : createSession P now draw admin ttlMs info a = .ok a') :
    (a'.sessions.map (·.idHash)).Nodup := by
  simp only [createSession, insertSession] at h
  split at h
  · cases h
  · next hfree =>
      cases h
      simp only [Bool.or_eq_true, not_or, List.any_eq_true, not_exists, not_and] at hfree
      exact Table.nodup_append_row hn fun x hx hid => (hfree.1 x hx).1 (beq_iff_eq.2 hid)

/-- The key of a session stays as it is. -/
theorem nodup_updateSession (hn : (a.sessions.map (·.idHash)).Nodup) {f : SessionRow → SessionRow}
    (hf : ∀ s, (f s).idHash = s.idHash) (idHash : String) :
    ((updateSession idHash f a).sessions.map (·.idHash)).Nodup := Table.nodup_update hf hn

theorem nodup_getSession (hn : (a.sessions.map (·.idHash)).Nodup) (sessionId : String) :
    ((getSession P now sessionId a).2.sessions.map (·.idHash)).Nodup := by
  unfold getSession
  split
  · exact hn
  · split
    · exact hn
    · split
      · exact Table.nodup_delete hn
      · exact nodup_updateSession hn (fun _ => by rfl) _

theorem nodup_getAccessSession (hn : (d.accessSessions.map (·.idHash)).Nodup) (sessionId : String) :
    ((getAccessSession P now sessionId d).2.accessSessions.map (·.idHash)).Nodup := by
  rcases getAccessSession_cases (P := P) now sessionId d with ⟨-, hd | ⟨hd, -⟩⟩ | ⟨hd, -⟩
  · rwa [hd]
  · rw [hd]
    exact Table.nodup_delete hn
  · rwa [hd]

theorem keys_step (hk : Keys w) (c : Call) : Keys (step P cfg w c).1 := by
  obtain ⟨hd, ha⟩ := hk
  obtain ⟨now, op⟩ := c
  cases op with
  | codes op => exact ⟨nodup_sublist hd (codes_accessSessions op), ha⟩
  | createAccessSession draw linkId recipientId ip =>
      simp only [step]
      split
      · next hcreate => exact ⟨nodup_createAccessSession hd hcreate, ha⟩
      · exact ⟨hd, ha⟩
  | getAccessSession sessionId => exact ⟨nodup_getAccessSession hd sessionId, ha⟩
  | destroyAccessSession sessionId => exact ⟨Table.nodup_delete hd, ha⟩
  | destroyAccessSessionsForCase caseId => exact ⟨Table.nodup_delete hd, ha⟩
  | createSession draw admin ttlMs info =>
      simp only [step]
      split
      · next hcreate => exact ⟨hd, nodup_createSession ha hcreate⟩
      · exact ⟨hd, ha⟩
  | getSession sessionId => exact ⟨hd, nodup_getSession ha sessionId⟩
  | destroySession sessionId => exact ⟨hd, Table.nodup_delete ha⟩
  | destroyOtherSessions adminId keepSessionId => exact ⟨hd, Table.nodup_delete ha⟩
  | markConfirmed sessionId ms => exact ⟨hd, nodup_updateSession ha (fun _ => by rfl) _⟩
  | purgeExpiredSessions => exact ⟨hd, Table.nodup_delete ha⟩
  | cascade challenges accessSessions sessions => exact ⟨Table.nodup_delete hd, Table.nodup_delete ha⟩
  | updateSession idHash row => exact ⟨hd, nodup_updateSession ha (fun _ => by rfl) _⟩
  | others deliveries accounts => exact ⟨hd, ha⟩

theorem dated_step (hd : ∀ x ∈ w.deliveries.challenges, Dated cfg x) (c : Call) :
    ∀ x ∈ (step P cfg w c).1.deliveries.challenges, Dated cfg x := by
  obtain ⟨now, op⟩ := c
  cases op with
  | codes op =>
      intro x hx
      rcases codes_challenges op hx with ⟨x₀, hx₀, hcreated, hexpires⟩ | hx
      · obtain ⟨hlimit, hdated⟩ := hd x₀ hx₀
        exact ⟨hlimit, by rw [hexpires, hdated, hcreated]⟩
      · exact hx
  | createAccessSession draw linkId recipientId ip =>
      simp only [step]
      split
      · next hcreate =>
          obtain ⟨-, -, rfl⟩ := createAccessSession_ok hcreate
          exact hd
      · exact hd
  | getAccessSession sessionId =>
      show ∀ x ∈ (getAccessSession P now sessionId w.deliveries).2.challenges, Dated cfg x
      rcases getAccessSession_cases (P := P) now sessionId w.deliveries with
          ⟨-, h | ⟨h, -⟩⟩ | ⟨h, -⟩
      · rwa [h]
      · rw [h]
        exact hd
      · rwa [h]
  | createSession draw admin ttlMs info =>
      simp only [step]
      split
      · exact hd
      · exact hd
  | cascade challenges accessSessions sessions =>
      exact fun x hx => hd x (Table.mem_delete.1 hx).1
  | destroyAccessSession | destroyAccessSessionsForCase | getSession | destroySession
  | destroyOtherSessions | markConfirmed | purgeExpiredSessions | updateSession | others => exact hd

theorem inv_start (hstart : Start w) : Inv cfg w := by
  refine ⟨⟨?_, ?_⟩, ?_⟩
  · rw [hstart.accessSessions]
    exact List.nodup_nil
  · rw [hstart.sessions]
    exact List.nodup_nil
  · rw [hstart.challenges]
    exact fun x hx => absurd hx List.not_mem_nil

theorem inv_run {w₀ : World} (hstart : Start w₀)
    (hr : History.Run (step P cfg) env w₀ h w) : Inv cfg w :=
  hr.invariant (I := fun _ w => Inv cfg w) (inv_start hstart) fun _ _ c _ _ hinv =>
    ⟨keys_step hinv.keys c, dated_step hinv.challenges c⟩

/-- When codes are valid for an hour at most, a challenge of an hour ago is expired. -/
theorem expired_of_dated (httl : (cfg.accessCodeTtlMs : Int) ≤ hourMs) (hT : Later T T)
    {x : Challenge} (hx : Dated cfg x) (hold : isoLe x.createdAt (T - hourMs)) :
    isoLe x.expiresAt T := by
  have hnonneg : (0 : Int) ≤ cfg.accessCodeTtlMs := Int.natCast_nonneg _
  have hhour : (0 : Int) ≤ hourMs := by decide
  have hexpires := hx.2
  obtain ⟨-, hera⟩ := hT
  simp only [isoLe, isoKey] at hold ⊢
  rw [hexpires]
  split_ifs at hold ⊢ <;> omega

/-- The purge takes away what is settled or expired. -/
theorem purged_purge (hsettled : ∀ x ∈ w.deliveries.challenges,
    isoLe x.createdAt (T - hourMs) → x.consumedAt ≠ none ∨ isoLe x.expiresAt T) :
    Purged T w (purge T w) := by
  refine .intro (Table.Thinned.of_delete fun x hx hold => ?_)
    (Table.Thinned.of_delete fun r _ hr => of_decide_eq_true hr)
    (Table.Thinned.of_delete fun s _ hs => of_decide_eq_true hs)
  exact ⟨of_decide_eq_true hold, hsettled x hx (of_decide_eq_true hold)⟩

/-- Where every deleted challenge is consumed or expired, all later calls answer alike. -/
theorem outputs_purged {later : List Call} (hp : Purged T w w') (hk : Keys w)
    (ha : History.Admits (step P cfg) (laterEnv P T) h w later) :
    History.outputs (step P cfg) w' later = History.outputs (step P cfg) w later := by
  induction later generalizing h w w' with
  | nil => rfl
  | cons c later ih =>
      obtain ⟨hsame, hnext⟩ := step_purged (P := P) (h := h) (c := c) hp hk ha.1
      rw [History.outputs, History.outputs, hsame, ih hnext (keys_step hk c) ha.2]

/-- Where codes are valid for an hour at most, or none are mailed, a purge takes no code away. -/
theorem outputs_eq {w₀ : World} (hstart : Start w₀) (hr : History.Run (step P cfg) env w₀ h w)
    (hcfg : (cfg.accessCodeTtlMs : Int) ≤ hourMs ∨ cfg.challengeLimitPerLinkPerHour ≤ 0)
    {later : List Call} (ha : History.Admits (step P cfg) (laterEnv P T) [] w later) :
    History.outputs (step P cfg) w later = History.outputs (step P cfg) (purge T w) later := by
  have hinv := inv_run hstart hr
  cases later with
  | nil => rfl
  | cons c later =>
      have hT : Later T T := by
        obtain ⟨⟨hle, hera⟩, -⟩ := ha.1
        exact ⟨le_rfl, hera.imp (fun h => lt_of_le_of_lt hle h) fun h => h⟩
      have hsettled : ∀ x ∈ w.deliveries.challenges, isoLe x.createdAt (T - hourMs) →
          x.consumedAt ≠ none ∨ isoLe x.expiresAt T := by
        intro x hx hold
        have hdated := hinv.challenges x hx
        rcases hcfg with httl | hlimit
        · exact .inr (expired_of_dated httl hT hdated hold)
        · exact absurd hdated.1 (not_lt.2 hlimit)
      exact (outputs_purged (purged_purge hsettled) hinv.keys ha).symm

/-! ## A code that is valid for longer -/

/-- A link for one person. -/
def sampleWorld : World where
  deliveries := { DeliveryDb.empty with
    links := [⟨"l", "c", "", "", "", none, none, none, 0, 0, none⟩]
    linkRecipients := [⟨"r", "l", "a@example.org", .en, 0, none, 0⟩] }
  accounts := AccountDb.empty

theorem start_sampleWorld : Start sampleWorld := ⟨rfl, rfl, rfl⟩

/-- The person asks for a code. -/
def asks (t : Int) : Call :=
  ⟨t, .codes (.createChallenge ⟨"1", "123456", "salt"⟩ ⟨"l", "r", "flow", none⟩)⟩

/-- The person types it an hour later. -/
def types (t : Int) : Call := ⟨t + hourMs, .codes (.verifyChallenge ⟨"l", "flow", "123456"⟩)⟩

/-- The row of the code. -/
def mailed (P : Platform) (cfg : Config) (t : Int) : Challenge :=
  newChallenge P cfg t ⟨"1", "123456", "salt"⟩ ⟨"l", "r", "flow", none⟩

theorem asks_step (hlimit : 0 < cfg.challengeLimitPerLinkPerHour) (t : Int) :
    (step P cfg sampleWorld (asks t)).1 =
      { sampleWorld with deliveries := { sampleWorld.deliveries with
        challenges := [mailed P cfg t] } } := by
  have hrecent : ¬ limitReached cfg t "r" sampleWorld.deliveries :=
    not_le.2 (by simpa [recentChallenges, sampleWorld, DeliveryDb.empty] using hlimit)
  have hconflict : ¬ challengeConflict (mailed P cfg t) sampleWorld.deliveries = true := by
    rw [show challengeConflict (mailed P cfg t) sampleWorld.deliveries = false from rfl]
    exact Bool.false_ne_true
  rw [mailed] at hconflict
  simp only [step, asks, Codes.step, createChallenge_eq, if_neg hrecent, if_neg hconflict]
  rfl

/-- Without the purge the code is accepted. -/
theorem types_kept {t : Int} (hpending : isoLt (t + hourMs) (t + cfg.accessCodeTtlMs)) :
    (verifyChallenge P cfg (t + hourMs) ⟨"l", "flow", "123456"⟩ { sampleWorld.deliveries with
      challenges := [mailed P cfg t] }).1 = .ok (some "r") := by
  have hrow : pendingRow P (t + hourMs) "l" "flow" { sampleWorld.deliveries with
      challenges := [mailed P cfg t] } = some (mailed P cfg t) := by
    have hmailed : (mailed P cfg t).isPending (t + hourMs) = true := by
      rw [Challenge.isPending, Bool.and_eq_true]
      exact ⟨rfl, decide_eq_true hpending⟩
    rw [pendingRow, List.filter_cons_of_pos]
    · rfl
    · rw [hmailed, Bool.and_true, Bool.and_eq_true]
      exact ⟨rfl, beq_self_eq_true _⟩
  have hcode : acceptsCode P "123456" (mailed P cfg t) = true := by
    have hnormal : normalizeCode "123456" = "123456" := by decide
    rw [acceptsCode, hnormal, Bool.and_eq_true]
    exact ⟨by decide, beq_self_eq_true _⟩
  unfold verifyChallenge
  rw [hrow]
  simp only [if_pos hcode]
  rfl

/-- With the purge it is unknown. -/
theorem types_purged (t : Int) :
    (verifyChallenge P cfg (t + hourMs) ⟨"l", "flow", "123456"⟩
      (purgeExpiredAccess (t + hourMs) { sampleWorld.deliveries with
        challenges := [mailed P cfg t] })).1 = .gone := by
  have hgone : (purgeExpiredAccess (t + hourMs) { sampleWorld.deliveries with
      challenges := [mailed P cfg t] }).challenges = [] := by
    have hold : isoLe (mailed P cfg t).createdAt (t + hourMs - hourMs) := by
      rw [Int.add_sub_cancel]
      exact le_rfl
    show Table.delete (fun c => isoLe c.createdAt (t + hourMs - hourMs)) [mailed P cfg t] = []
    rw [Table.delete, List.filter_cons_of_neg, List.filter_nil]
    rw [decide_eq_true hold]
    decide
  have hrow : pendingRow P (t + hourMs) "l" "flow" (purgeExpiredAccess (t + hourMs)
      { sampleWorld.deliveries with challenges := [mailed P cfg t] }) = none := by
    rw [pendingRow, hgone]
    rfl
  unfold verifyChallenge
  rw [hrow]

/-- A code that is still valid after an hour is lost to the purge. -/
theorem code_lost (hlimit : 0 < cfg.challengeLimitPerLinkPerHour) {t : Int}
    (hpending : isoLt (t + hourMs) (t + cfg.accessCodeTtlMs)) :
    ∃ w, History.Run (step P cfg) env sampleWorld
        [History.fire (step P cfg) sampleWorld (asks t)] w ∧
      History.outputs (step P cfg) w [types t] ≠
        History.outputs (step P cfg) (purge (t + hourMs) w) [types t] := by
  refine ⟨_, .step (asks t) .start trivial, ?_⟩
  rw [asks_step hlimit]
  intro h
  have hout := (List.cons.inj h).1
  have hverified : (Output.codes (.verified (verifyChallenge P cfg (t + hourMs)
      ⟨"l", "flow", "123456"⟩ { sampleWorld.deliveries with challenges := [mailed P cfg t] }).1)) =
      .codes (.verified (verifyChallenge P cfg (t + hourMs) ⟨"l", "flow", "123456"⟩
        (purgeExpiredAccess (t + hourMs) { sampleWorld.deliveries with
          challenges := [mailed P cfg t] })).1) := hout
  rw [types_kept hpending, types_purged] at hverified
  cases hverified

end

/-- The purge changes no later answer, in any database that can be reached and at any time, exactly
when codes are valid for an hour at most or none are ever mailed. -/
theorem purge_invisible_iff :
    (∀ (w₀ w : World) (h : List Event) (T : Int) (later : List Call), Start w₀ →
      History.Run (step P cfg) env w₀ h w →
      History.Admits (step P cfg) (laterEnv P T) [] w later →
      History.outputs (step P cfg) w later = History.outputs (step P cfg) (purge T w) later) ↔
      (cfg.accessCodeTtlMs : Int) ≤ hourMs ∨ cfg.challengeLimitPerLinkPerHour ≤ 0 := by
  constructor
  · intro hall
    by_contra hcfg
    rw [not_or, not_le, not_le] at hcfg
    obtain ⟨httl, hlimit⟩ := hcfg
    -- Up to the year 10000 or after its first instant, a valid code has a later time stamp.
    obtain ⟨t, hpending, hera⟩ : ∃ t : Int, isoLt (t + hourMs) (t + cfg.accessCodeTtlMs) ∧
        (t + hourMs < year10000 ∨ year10000 ≤ t) := by
      have hhour : (0 : Int) ≤ hourMs := by decide
      rcases lt_or_ge (cfg.accessCodeTtlMs : Int) year10000 with hbefore | hafter
      · refine ⟨0, (isoLt_iff (by omega) (by omega)).2 (by omega), .inl (by omega)⟩
      · refine ⟨year10000, ?_, .inr le_rfl⟩
        simp only [isoLt, isoKey]
        split_ifs <;> omega
    obtain ⟨w, hr, hne⟩ := code_lost (P := P) (t := t) hlimit hpending
    refine hne (hall sampleWorld w _ (t + hourMs) [types t] start_sampleWorld hr ⟨⟨⟨?_, ?_⟩, ?_⟩, ?_⟩)
    · exact le_rfl
    · exact hera.imp (fun h => h) fun h => by simpa using h
    · trivial
    · trivial
  · intro hcfg w₀ w h T later hstart hr ha
    exact outputs_eq hstart hr hcfg ha

/-- With a lifetime of two hours, a purge after one hour takes away a code that is still valid. -/
theorem purge_takes_valid_code :
    ¬ ∀ (w₀ w : World) (h : List Event) (T : Int) (later : List Call), Start w₀ →
      History.Run (step Platform.sample { defaultConfig with accessCodeTtlMs := 7200000 }) env w₀ h w →
      History.Admits (step Platform.sample { defaultConfig with accessCodeTtlMs := 7200000 })
        (laterEnv Platform.sample T) [] w later →
      History.outputs (step Platform.sample { defaultConfig with accessCodeTtlMs := 7200000 }) w later =
        History.outputs (step Platform.sample { defaultConfig with accessCodeTtlMs := 7200000 })
          (purge T w) later := by
  intro hall
  have hlimit : (0 : ℚ) <
      ({ defaultConfig with accessCodeTtlMs := 7200000 } : Config).challengeLimitPerLinkPerHour := by
    rw [defaultConfig]
    norm_num
  obtain ⟨w, hr, hne⟩ := code_lost (P := Platform.sample) (t := 0) hlimit (by decide)
  exact hne (hall sampleWorld w _ (0 + hourMs) [types 0] start_sampleWorld hr
    ⟨⟨⟨le_rfl, .inl (by decide)⟩, trivial⟩, trivial⟩)

end Purge

end Outletbox
