import Outletbox.Library.History
import Outletbox.Services.Access
import Outletbox.Services.Links

/-!
# The life of a one-time code

The operations on challenges as one system: `createChallenge`,
`verifyChallenge`, `POST /restart`, `destroyAccessSessionsForLink`,
`removeRecipient` and `purgeExpiredAccess`, each one step at any instant.  The
invariant ties every pending row to the call that created it: nothing since has
ended the code, and the wrong codes since then are the row's attempts.
-/

namespace Outletbox

namespace Codes

variable (P : Platform) (cfg : Config)

/-! ## The system -/

inductive Op
  | createChallenge (draw : ChallengeDraw) (input : ChallengeInput)
  | verifyChallenge (input : VerifyInput)
  /-- `POST /d/:token/restart`. -/
  | restart (linkId flowToken : String)
  | destroyAccessSessionsForLink (linkId : String)
  | removeRecipient (linkId recipientId : String)
  | purgeExpiredAccess

/-- An operation and the instant it runs at. -/
structure Call where
  now : Int
  op : Op

inductive Output
  | created (challenge : Challenge) (code : String)
  | refused (why : Failure)
  | verified (result : VerifyResult)
  | removed (result : RemoveResult)
  | done
  deriving DecidableEq

def step (d : DeliveryDb) (c : Call) : DeliveryDb × Output :=
  match c.op with
  | .createChallenge draw input =>
      match Outletbox.createChallenge P cfg c.now draw input d with
      | .ok ((challenge, code), d') => (d', .created challenge code)
      | .error e => (d, .refused e)
  | .verifyChallenge input =>
      let r := Outletbox.verifyChallenge P cfg c.now input d
      (r.2, .verified r.1)
  | .restart linkId flowToken => (restartChallenges P c.now linkId flowToken d, .done)
  | .destroyAccessSessionsForLink linkId =>
      (Outletbox.destroyAccessSessionsForLink c.now linkId d, .done)
  | .removeRecipient linkId recipientId =>
      let r := Outletbox.removeRecipient linkId recipientId d
      (r.2, .removed r.1)
  | .purgeExpiredAccess => (Outletbox.purgeExpiredAccess c.now d, .done)

/-- Calls may come in any order and at any instant. -/
def env (_ : List (History.Event DeliveryDb Call Output)) (_ : DeliveryDb) (_ : Call) : Prop :=
  True

/-! ## What happens to a code -/

/-- An event of a run. -/
abbrev Event := History.Event DeliveryDb Call Output

/-- The call created this challenge. -/
structure Creates (e : Event) (draw : ChallengeDraw) (input : ChallengeInput) (c : Challenge) :
    Prop where
  op_eq : e.input.op = .createChallenge draw input
  row_eq : c = newChallenge P cfg e.input.now draw input
  output_eq : e.output = .created c draw.code

/-- The challenge a verification looks at. -/
def lookedAt (e : Event) : Option Challenge :=
  match e.input.op with
  | .verifyChallenge v => pendingRow P e.input.now v.linkId v.flowToken e.pre
  | _ => none

/-- A verification that looked at this challenge and did not accept. -/
def countsAgainst (id : String) (e : Event) : Bool :=
  (lookedAt P e).any fun c => c.id == id && !acceptsTyped e c
where
  /-- The typed code was the code of the challenge. -/
  acceptsTyped (e : Event) (c : Challenge) : Bool :=
    match e.input.op with
    | .verifyChallenge v => acceptsCode P v.code c
    | _ => false

/-- The calls after which a code is worth nothing any more. -/
inductive Ends (c : Challenge) (e : Event) : Prop
  /-- A newer code was issued to the same person. -/
  | newer (c' : Challenge) (code : String) : e.output = .created c' code →
      c'.recipientId = c.recipientId → Ends c e
  /-- The browser started over on the link. -/
  | restarted (flowToken : String) : e.input.op = .restart c.linkId flowToken →
      P.sha256Hex flowToken = c.flowHash → Ends c e
  /-- Whatever was open on the link was ended. -/
  | invalidated : e.input.op = .destroyAccessSessionsForLink c.linkId → Ends c e
  /-- The person was taken off the link. -/
  | removed (r : LinkRecipient) : e.output = .removed (.removed r) →
      c.recipientId = some r.id → Ends c e
  /-- The code was accepted. -/
  | used (row : Challenge) (recipientId : Option String) : lookedAt P e = some row →
      row.id = c.id → e.output = .verified (.ok recipientId) → Ends c e

/-- The code of a challenge is alive: it was created, nothing has ended it since,
and this many wrong codes were counted against it. -/
inductive Alive (c : Challenge) : Nat → List Event → Prop
  | created {e : Event} {h : List Event} {draw : ChallengeDraw} {input : ChallengeInput} :
      Creates P cfg e draw input c → Alive c 0 (e :: h)
  | wrong {e : Event} {h : List Event} {n : Nat} : Alive c n h → ¬ Ends P c e →
      countsAgainst P c.id e = true → Alive c (n + 1) (e :: h)
  | skip {e : Event} {h : List Event} {n : Nat} : Alive c n h → ¬ Ends P c e →
      countsAgainst P c.id e = false → Alive c n (e :: h)

/-- A row as it was inserted. -/
def fresh (c : Challenge) : Challenge := { c with attempts := 0 }

structure Inv (h : List Event) (d : DeliveryDb) : Prop where
  ids : (d.challenges.map (·.id)).Nodup
  single : ∀ recipientId, d.challenges.countP
    (fun c => c.recipientId == some recipientId && c.consumedAt.isNone) ≤ 1
  alive : ∀ c ∈ d.challenges, c.consumedAt = none →
    Alive P cfg (fresh c) c.attempts h ∧ (c.attempts : ℚ) < cfg.maxCodeAttempts

section

variable {P cfg} {h : List Event} {d : DeliveryDb}

/-! ## Living codes -/

/-- The call that created a living code, and what came after it. -/
theorem Alive.split {c : Challenge} {n : Nat} (ha : Alive P cfg c n h) :
    ∃ later creation earlier draw input, h = later ++ creation :: earlier ∧
      Creates P cfg creation draw input c ∧ (∀ e ∈ later, ¬ Ends P c e) ∧
      later.countP (countsAgainst P c.id) = n := by
  induction ha with
  | @created e h draw input hc => exact ⟨[], e, h, draw, input, rfl, hc, by simp, rfl⟩
  | @wrong e h n ha he hc ih =>
      obtain ⟨later, creation, earlier, draw, input, rfl, hcr, hends, hn⟩ := ih
      refine ⟨e :: later, creation, earlier, draw, input, rfl, hcr, ?_, ?_⟩
      · exact List.forall_mem_cons.2 ⟨he, hends⟩
      · rw [List.countP_cons_of_pos hc, hn]
  | @skip e h n ha he hc ih =>
      obtain ⟨later, creation, earlier, draw, input, rfl, hcr, hends, hn⟩ := ih
      refine ⟨e :: later, creation, earlier, draw, input, rfl, hcr, ?_, ?_⟩
      · exact List.forall_mem_cons.2 ⟨he, hends⟩
      · rw [List.countP_cons_of_neg (by simp [hc]), hn]

/-- Wrong codes do not change what ends a code. -/
theorem ends_fresh {c : Challenge} {e : Event} : Ends P (fresh c) e ↔ Ends P c e := by
  constructor <;> intro he <;> cases he with
  | newer c' code h1 h2 => exact .newer c' code h1 h2
  | restarted flowToken h1 h2 => exact .restarted flowToken h1 h2
  | invalidated h1 => exact .invalidated h1
  | removed r h1 h2 => exact .removed r h1 h2
  | used row recipientId h1 h2 h3 => exact .used row recipientId h1 h2 h3

/-- Calls other than verifications look at nothing. -/
theorem countsAgainst_of_not_verify {e : Event} {id : String}
    (he : ∀ v, e.input.op ≠ .verifyChallenge v) : countsAgainst P id e = false := by
  have hl : lookedAt P e = none := by
    unfold lookedAt
    split
    · rename_i v hv
      exact absurd hv (he v)
    · rfl
  simp [countsAgainst, hl]

theorem not_used {e : Event} (he : ∀ v, e.input.op ≠ .verifyChallenge v) (row : Challenge) :
    lookedAt P e ≠ some row := by
  unfold lookedAt
  split
  · rename_i v hv
    exact absurd hv (he v)
  · simp

/-! ## Statements that only end codes -/

/-- What is left to show for a step that adds no row and edits no pending one:
which rows it kept pending, and that it did not end those. -/
theorem Inv.shrink (hi : Inv P cfg h d) {d' : DeliveryDb} {e : Event}
    (hids : (d'.challenges.map (·.id)).Nodup)
    (hsingle : ∀ recipientId,
      d'.challenges.countP (fun c => c.recipientId == some recipientId && c.consumedAt.isNone) ≤
        d.challenges.countP (fun c => c.recipientId == some recipientId && c.consumedAt.isNone))
    (hkept : ∀ c ∈ d'.challenges, c.consumedAt = none →
      c ∈ d.challenges ∧ ¬ Ends P c e ∧ countsAgainst P c.id e = false) :
    Inv P cfg (e :: h) d' where
  ids := hids
  single := fun recipientId => (hsingle recipientId).trans (hi.single recipientId)
  alive := by
    intro c hc hn
    obtain ⟨hmem, hends, hcounts⟩ := hkept c hc hn
    obtain ⟨ha, hlt⟩ := hi.alive c hmem hn
    exact ⟨ha.skip (mt ends_fresh.1 hends) hcounts, hlt⟩

/-- Consuming makes no more rows pending. -/
theorem countP_consumeWhere_le (now : Int) (p q : Challenge → Bool) (d : DeliveryDb)
    (hq : ∀ c, q { c with consumedAt := some now } = true → q c = true) :
    (consumeWhere now p d).challenges.countP q ≤ d.challenges.countP q := by
  simp only [consumeWhere, Table.update, List.countP_map]
  refine List.countP_mono_left fun c _ hc => ?_
  simp only [Function.comp_apply] at hc
  split at hc
  · exact hq c hc
  · exact hc

/-- What a consuming statement keeps. -/
theorem Inv.consume (hi : Inv P cfg h d) (now : Int) (p : Challenge → Bool) {d' : DeliveryDb}
    (hd : d'.challenges = (consumeWhere now p d).challenges) {e : Event}
    (he : ∀ c ∈ d.challenges, c.consumedAt = none → p c = false →
      ¬ Ends P c e ∧ countsAgainst P c.id e = false) :
    Inv P cfg (e :: h) d' := by
  refine hi.shrink ?_ ?_ ?_
  · rw [hd]
    exact Table.nodup_update (fun _ => by rfl) hi.ids
  · intro recipientId
    rw [hd]
    exact countP_consumeWhere_le now p _ d (by simp)
  · intro c hc hn
    rw [hd] at hc
    obtain ⟨hmem, hp⟩ := pending_consumeWhere hc hn
    exact ⟨hmem, he c hmem hn hp⟩

/-- What a statement that deletes rows keeps. -/
theorem Inv.delete (hi : Inv P cfg h d) (p : Challenge → Bool) {d' : DeliveryDb}
    (hd : d'.challenges = Table.delete p d.challenges) {e : Event}
    (he : ∀ c ∈ d.challenges, c.consumedAt = none → p c = false →
      ¬ Ends P c e ∧ countsAgainst P c.id e = false) :
    Inv P cfg (e :: h) d' := by
  refine hi.shrink ?_ ?_ ?_
  · rw [hd]
    exact Table.nodup_delete hi.ids
  · intro recipientId
    rw [hd]
    exact List.filter_sublist.countP_le
  · intro c hc hn
    rw [hd] at hc
    obtain ⟨hmem, hp⟩ := Table.mem_delete.1 hc
    exact ⟨hmem, he c hmem hn hp⟩

/-- What a step that changes no challenge keeps. -/
theorem Inv.same (hi : Inv P cfg h d) {d' : DeliveryDb} (hd : d'.challenges = d.challenges)
    {e : Event} (he : ∀ c ∈ d.challenges, c.consumedAt = none →
      ¬ Ends P c e ∧ countsAgainst P c.id e = false) :
    Inv P cfg (e :: h) d' := by
  refine hi.shrink (hd ▸ hi.ids) (fun _ => by rw [hd]) ?_
  intro c hc hn
  rw [hd] at hc
  exact ⟨hc, he c hc hn⟩

/-! ## Every call -/

theorem step_create {c : Call} {draw : ChallengeDraw} {input : ChallengeInput}
    (hop : c.op = .createChallenge draw input) :
    (∃ d', step P cfg d c = (d', .created (newChallenge P cfg c.now draw input) draw.code) ∧
      (∀ x ∈ d.challenges, x.id ≠ newId "ch" draw.id) ∧
      d'.challenges = (consumeWhere c.now (fun x => x.recipientId == some input.recipientId)
        d).challenges ++ [newChallenge P cfg c.now draw input]) ∨
      ∃ why, step P cfg d c = (d, .refused why) := by
  cases hc : Outletbox.createChallenge P cfg c.now draw input d with
  | error why => exact .inr ⟨why, by simp [step, hop, hc]⟩
  | ok r =>
      obtain ⟨r, d'⟩ := r
      obtain ⟨-, rfl, hfree, -, -, hd⟩ := createChallenge_ok hc
      exact .inl ⟨d', by simp [step, hop, hc], hfree, by rw [hd]⟩

/-- A created challenge ends the older codes of the same person and no others. -/
theorem inv_create (hmax : 0 < cfg.maxCodeAttempts) (hi : Inv P cfg h d) {c : Call}
    {draw : ChallengeDraw} {input : ChallengeInput} (hop : c.op = .createChallenge draw input) :
    Inv P cfg (History.fire (step P cfg) d c :: h) (step P cfg d c).1 := by
  have hverify : ∀ v, (History.fire (step P cfg) d c).input.op ≠ .verifyChallenge v := by
    simp [hop]
  rcases @step_create P cfg d _ _ _ hop with ⟨d', hs, hfree, hd⟩ | ⟨why, hs⟩
  · have hout : (History.fire (step P cfg) d c).output =
        .created (newChallenge P cfg c.now draw input) draw.code := by simp [hs]
    rw [hs]
    have hold : ∀ x ∈ (consumeWhere c.now (fun x => x.recipientId == some input.recipientId)
        d).challenges, x.consumedAt = none → x ∈ d.challenges ∧
          x.recipientId ≠ some input.recipientId := by
      intro x hx hn
      obtain ⟨hmem, hp⟩ := pending_consumeWhere hx hn
      exact ⟨hmem, by simpa using hp⟩
    refine ⟨?_, ?_, ?_⟩
    · simp only [hd]
      refine Table.nodup_append_row (Table.nodup_update (fun _ => by rfl) hi.ids) ?_
      intro x hx
      obtain ⟨x₀, hx₀, rfl⟩ := Table.mem_update.1 hx
      split <;> exact hfree x₀ hx₀
    · intro recipientId
      simp only [hd, List.countP_append, List.countP_singleton]
      by_cases hr : input.recipientId = recipientId
      · have hzero : (consumeWhere c.now (fun x => x.recipientId == some input.recipientId)
            d).challenges.countP
              (fun x => x.recipientId == some recipientId && x.consumedAt.isNone) = 0 := by
          refine List.countP_eq_zero.2 fun x hx hp => ?_
          simp only [Bool.and_eq_true, beq_iff_eq, Option.isNone_iff_eq_none] at hp
          exact (hold x hx hp.2).2 (hr ▸ hp.1)
        rw [hzero]
        split <;> omega
      · have hnew : ((newChallenge P cfg c.now draw input).recipientId == some recipientId &&
            (newChallenge P cfg c.now draw input).consumedAt.isNone) = false := by
          simp [newChallenge, hr]
        have hle := countP_consumeWhere_le c.now (fun x => x.recipientId == some input.recipientId)
          (fun x => x.recipientId == some recipientId && x.consumedAt.isNone) d (by simp)
        rw [hnew]
        have := hi.single recipientId
        simp only [Bool.false_eq_true, if_false]
        omega
    · intro x hx hn
      simp only [hd] at hx
      rcases List.mem_append.1 hx with hx | hx
      · obtain ⟨hmem, hne⟩ := hold x hx hn
        obtain ⟨ha, hlt⟩ := hi.alive x hmem hn
        refine ⟨ha.skip (mt ends_fresh.1 ?_) (countsAgainst_of_not_verify hverify), hlt⟩
        intro he
        cases he with
        | newer c' code h1 h2 =>
            rw [hout] at h1
            cases h1
            exact hne h2.symm
        | restarted flowToken h1 h2 => simp [hop] at h1
        | invalidated h1 => simp [hop] at h1
        | removed r h1 h2 => rw [hout] at h1; cases h1
        | used row recipientId h1 h2 h3 => exact not_used hverify row h1
      · rw [List.mem_singleton] at hx
        subst hx
        exact ⟨.created ⟨by simpa using hop, rfl, hout⟩, by simpa [newChallenge] using hmax⟩
  · have hout : (History.fire (step P cfg) d c).output = .refused why := by simp [hs]
    rw [hs]
    refine hi.same rfl fun x _ _ => ⟨?_, countsAgainst_of_not_verify hverify⟩
    intro he
    cases he with
    | newer c' code h1 h2 => rw [hout] at h1; cases h1
    | restarted flowToken h1 h2 => simp [hop] at h1
    | invalidated h1 => simp [hop] at h1
    | removed r h1 h2 => rw [hout] at h1; cases h1
    | used row recipientId h1 h2 h3 => exact not_used hverify row h1

/-- A verification can end a code only by accepting it. -/
theorem ends_verify {c : Call} {v : VerifyInput} (hop : c.op = .verifyChallenge v)
    {x : Challenge} (he : Ends P x (History.fire (step P cfg) d c)) :
    ∃ row recipientId, pendingRow P c.now v.linkId v.flowToken d = some row ∧ row.id = x.id ∧
      (verifyChallenge P cfg c.now v d).1 = .ok recipientId := by
  have hout : (History.fire (step P cfg) d c).output =
      .verified (verifyChallenge P cfg c.now v d).1 := by simp [step, hop]
  cases he with
  | newer c' code h1 h2 => rw [hout] at h1; cases h1
  | restarted flowToken h1 h2 => simp [hop] at h1
  | invalidated h1 => simp [hop] at h1
  | removed r h1 h2 => rw [hout] at h1; cases h1
  | used row recipientId h1 h2 h3 =>
      refine ⟨row, recipientId, by simpa [lookedAt, hop] using h1, h2, ?_⟩
      rw [hout] at h3
      exact Output.verified.inj h3

theorem countsAgainst_verify {c : Call} {v : VerifyInput} (hop : c.op = .verifyChallenge v)
    (id : String) : countsAgainst P id (History.fire (step P cfg) d c) =
      (pendingRow P c.now v.linkId v.flowToken d).any
        fun x => x.id == id && !acceptsCode P v.code x := by
  simp [countsAgainst, lookedAt, countsAgainst.acceptsTyped, hop]

/-- A verification consumes the code it accepts and counts the one it refuses. -/
theorem inv_verify (hi : Inv P cfg h d) {c : Call} {v : VerifyInput}
    (hop : c.op = .verifyChallenge v) :
    Inv P cfg (History.fire (step P cfg) d c :: h) (step P cfg d c).1 := by
  have hstep : (step P cfg d c).1 = (verifyChallenge P cfg c.now v d).2 := by simp [step, hop]
  rw [hstep]
  have hends := fun x => @ends_verify P cfg d c v hop x
  have hcount := @countsAgainst_verify P cfg d c v hop
  generalize hr : verifyChallenge P cfg c.now v d = r at hends ⊢
  have hv := verified P cfg c.now v d
  rw [hr] at hv
  cases hv with
  | nothing hrow =>
      refine hi.same rfl fun x _ _ => ⟨?_, by rw [hcount, hrow]; rfl⟩
      intro he
      obtain ⟨row, recipientId, h1, -⟩ := hends x he
      rw [hrow] at h1
      cases h1
  | accepted row hrow hcode =>
      refine hi.consume c.now _ rfl fun x _ _ hp => ⟨?_, ?_⟩
      · intro he
        obtain ⟨row', recipientId, h1, h2, -⟩ := hends x he
        rw [hrow] at h1
        cases h1
        simp [h2] at hp
      · rw [hcount, hrow]
        simp [hcode]
  | exhausted row hrow hcode hmax =>
      refine hi.shrink (Table.nodup_update (fun _ => by rfl) hi.ids) ?_ ?_
      · intro recipientId
        simp only [exhaustAttempts, Table.update, List.countP_map]
        refine List.countP_mono_left fun x _ hx => ?_
        simp only [Function.comp_apply] at hx
        split at hx
        · simp at hx
        · exact hx
      · intro x hx hn
        obtain ⟨hmem, hne⟩ := pending_exhaustAttempts hx hn
        refine ⟨hmem, ?_, ?_⟩
        · intro he
          obtain ⟨row', recipientId, h1, h2, h3⟩ := hends x he
          cases h3
        · rw [hcount, hrow]
          simp [Ne.symm hne]
  | wrong row hrow hcode hmax =>
      have hno : ∀ x, ¬ Ends P x (History.fire (step P cfg) d c) := by
        intro x he
        obtain ⟨row', recipientId, h1, h2, h3⟩ := hends x he
        cases h3
      refine ⟨Table.nodup_update (fun _ => by rfl) hi.ids, ?_, ?_⟩
      · intro recipientId
        refine le_trans (Nat.le_of_eq ?_) (hi.single recipientId)
        exact Table.countP_update (fun _ => by rfl) _
      · intro x hx hn
        rcases mem_setAttempts hx with ⟨hmem, hne⟩ | ⟨x₀, hmem, hid, rfl⟩
        · obtain ⟨ha, hlt⟩ := hi.alive x hmem hn
          refine ⟨ha.skip (hno _) ?_, hlt⟩
          rw [hcount, hrow]
          simp [fresh, Ne.symm hne]
        · have hrow' : x₀ = row :=
            Table.eq_of_key hi.ids hmem (pendingRow_some hrow).1 hid
          subst hrow'
          obtain ⟨ha, -⟩ := hi.alive x₀ hmem hn
          refine ⟨ha.wrong (hno _) ?_, hmax⟩
          rw [hcount, hrow]
          simp [fresh, hcode]

theorem inv_step (hmax : 0 < cfg.maxCodeAttempts) (hi : Inv P cfg h d) (c : Call) :
    Inv P cfg (History.fire (step P cfg) d c :: h) (step P cfg d c).1 := by
  cases hop : c.op with
  | createChallenge draw input => exact inv_create hmax hi hop
  | verifyChallenge v => exact inv_verify hi hop
  | restart linkId flowToken =>
      have hs : step P cfg d c = (restartChallenges P c.now linkId flowToken d, .done) := by
        simp [step, hop]
      rw [hs]
      refine hi.consume c.now _ rfl fun x _ _ hp =>
        ⟨?_, countsAgainst_of_not_verify (by simp [hop])⟩
      intro he
      cases he with
      | newer c' code h1 h2 => simp [hs] at h1
      | restarted flowToken' h1 h2 =>
          simp only [History.fire_input, hop, Op.restart.injEq] at h1
          obtain ⟨rfl, rfl⟩ := h1
          simp [h2] at hp
      | invalidated h1 => simp [hop] at h1
      | removed r h1 h2 => simp [hs] at h1
      | used row recipientId h1 h2 h3 => simp [hs] at h3
  | destroyAccessSessionsForLink linkId =>
      have hs : step P cfg d c = (Outletbox.destroyAccessSessionsForLink c.now linkId d, .done) := by
        simp [step, hop]
      rw [hs]
      have hd : (Outletbox.destroyAccessSessionsForLink c.now linkId d).challenges =
          (consumeWhere c.now (fun x => x.linkId == linkId) d).challenges := rfl
      refine hi.consume c.now (fun x => x.linkId == linkId) hd fun x _ _ hp =>
        ⟨?_, countsAgainst_of_not_verify (by simp [hop])⟩
      intro he
      cases he with
      | newer c' code h1 h2 => simp [hs] at h1
      | restarted flowToken h1 h2 => simp [hop] at h1
      | invalidated h1 =>
          simp only [History.fire_input, hop, Op.destroyAccessSessionsForLink.injEq] at h1
          simp [h1] at hp
      | removed r h1 h2 => simp [hs] at h1
      | used row recipientId h1 h2 h3 => simp [hs] at h3
  | removeRecipient linkId recipientId =>
      have hs : step P cfg d c = ((Outletbox.removeRecipient linkId recipientId d).2,
          .removed (Outletbox.removeRecipient linkId recipientId d).1) := by
        simp [step, hop]
      rw [hs]
      have hno : ∀ x : Challenge,
          ((∃ r, (Outletbox.removeRecipient linkId recipientId d).1 = .removed r ∧
            x.recipientId = some r.id) → False) →
          ¬ Ends P x (History.fire (step P cfg) d c) := by
        intro x hx he
        cases he with
        | newer c' code h1 h2 => simp [hs] at h1
        | restarted flowToken h1 h2 => simp [hop] at h1
        | invalidated h1 => simp [hop] at h1
        | removed r h1 h2 =>
            simp only [History.fire_output, hs] at h1
            exact hx ⟨r, Output.removed.inj h1, h2⟩
        | used row recipientId h1 h2 h3 => simp [hs] at h3
      rcases removeRecipient_cases linkId recipientId d with ⟨hr, hd⟩ | ⟨r, -, hid, -, hr, hd⟩
      · refine hi.same (by rw [hd]) fun x _ _ =>
          ⟨hno x ?_, countsAgainst_of_not_verify (by simp [hop])⟩
        rintro ⟨r, h1, -⟩
        exact hr r h1
      · refine hi.delete (fun x => x.recipientId == some recipientId) (by rw [hd]; rfl)
          fun x _ _ hp => ⟨hno x ?_, countsAgainst_of_not_verify (by simp [hop])⟩
        rintro ⟨r', h1, h2⟩
        rw [hr] at h1
        cases h1
        rw [h2, hid] at hp
        simp at hp
  | purgeExpiredAccess =>
      have hs : step P cfg d c = (Outletbox.purgeExpiredAccess c.now d, .done) := by
        simp [step, hop]
      rw [hs]
      refine hi.delete (fun x => isoLe x.createdAt (c.now - hourMs)) rfl fun x _ _ _ =>
        ⟨?_, countsAgainst_of_not_verify (by simp [hop])⟩
      intro he
      cases he with
      | newer c' code h1 h2 => simp [hs] at h1
      | restarted flowToken h1 h2 => simp [hop] at h1
      | invalidated h1 => simp [hop] at h1
      | removed r h1 h2 => simp [hs] at h1
      | used row recipientId h1 h2 h3 => simp [hs] at h3

/-! ## Every run -/

theorem inv_start (h0 : d.challenges = []) : Inv P cfg [] d := by
  constructor <;> simp [h0]

theorem inv_of_run {d₀ : DeliveryDb} (hmax : 0 < cfg.maxCodeAttempts) (h0 : d₀.challenges = [])
    (hr : History.Run (step P cfg) env d₀ h d) : Inv P cfg h d :=
  hr.invariant (inv_start h0) fun _ _ c _ _ hi => inv_step hmax hi c

/-- A verification that accepted, with the call that had created its challenge. -/
structure Accepted (P : Platform) (cfg : Config) (e : Event) (v : VerifyInput)
    (recipientId : Option String) (between : List Event) (creation : Event)
    (draw : ChallengeDraw) (input : ChallengeInput) (c : Challenge) : Prop where
  creates : Creates P cfg creation draw input c
  looked : ∃ row, lookedAt P e = some row ∧ row.id = c.id
  /-- It came from the link the code was created for. -/
  link : v.linkId = input.linkId
  /-- It came from the browser the code was created for. -/
  browser : P.sha256Hex v.flowToken = P.sha256Hex input.flowToken
  /-- The typed code derives the key of the mailed one. -/
  code : normalizeCode v.code ≠ "" ∧
    P.scryptSync (P.nfkc (normalizeCode v.code)) draw.salt =
      P.scryptSync (P.nfkc draw.code) draw.salt
  /-- It came before the code expired. -/
  unexpired : isoLt e.input.now c.expiresAt
  /-- Fewer wrong codes than allowed were counted against it. -/
  budget : ((between.countP (countsAgainst P c.id) : Nat) : ℚ) < cfg.maxCodeAttempts
  /-- Nothing had ended the code: no acceptance, no newer code of the person, no
  restart, no invalidation of the link, no removal of the person. -/
  notEnded : ∀ x ∈ between, ¬ Ends P c x
  /-- The answer names the person the code was created for. -/
  recipient : recipientId = some input.recipientId

/-- What a history shows about its codes. -/
structure Safe (P : Platform) (cfg : Config) (h : List Event) (d : DeliveryDb) : Prop where
  /-- Each person has at most one unconsumed challenge. -/
  single : ∀ recipientId, d.challenges.countP
    (fun c => c.recipientId == some recipientId && c.consumedAt.isNone) ≤ 1
  /-- What was accepted had been created and was alive. -/
  accepted : ∀ later e earlier v recipientId, h = later ++ e :: earlier →
    e.input.op = .verifyChallenge v → e.output = .verified (.ok recipientId) →
    ∃ between creation before draw input c, earlier = between ++ creation :: before ∧
      Accepted P cfg e v recipientId between creation draw input c
  /-- Two acceptances of one identifier have a creation between them. -/
  once : ∀ later e between e' earlier row row' a b,
    h = later ++ e :: (between ++ e' :: earlier) →
    lookedAt P e = some row → e.output = .verified (.ok a) →
    lookedAt P e' = some row' → e'.output = .verified (.ok b) → row.id = row'.id →
    ∃ x ∈ between, ∃ draw input c, Creates P cfg x draw input c ∧ c.id = row.id

/-- An accepted verification, read off the state it ran in. -/
theorem accepted_of_inv (hi : Inv P cfg h d) {c : Call} {v : VerifyInput}
    {recipientId : Option String} (hop : c.op = .verifyChallenge v)
    (hout : (step P cfg d c).2 = .verified (.ok recipientId)) :
    ∃ between creation before draw input x, h = between ++ creation :: before ∧
      Accepted P cfg (History.fire (step P cfg) d c) v recipientId between creation draw input
        x := by
  have hres : (verifyChallenge P cfg c.now v d).1 = .ok recipientId := by
    simpa [step, hop] using hout
  have hv := verified P cfg c.now v d
  generalize hr : verifyChallenge P cfg c.now v d = r at hres hv
  cases hv with
  | nothing hrow => cases hres
  | exhausted row hrow hcode hmax => cases hres
  | wrong row hrow hcode hmax => cases hres
  | accepted row hrow hcode =>
      cases hres
      obtain ⟨hmem, hlink, hflow, hn, hexp⟩ := pendingRow_some hrow
      obtain ⟨ha, hlt⟩ := hi.alive row hmem hn
      obtain ⟨later, creation, earlier, draw, input, rfl, hcr, hends, hcount⟩ := ha.split
      have hnew := hcr.row_eq
      refine ⟨later, creation, earlier, draw, input, _, rfl, hcr,
        ⟨row, by simpa [lookedAt, hop] using hrow, rfl⟩, ?_, ?_, ?_, hexp, ?_, hends, ?_⟩
      · exact hlink.symm.trans (congrArg Challenge.linkId hnew)
      · exact hflow.symm.trans (congrArg Challenge.flowHash hnew)
      · simp only [acceptsCode, Bool.and_eq_true, bne_iff_ne, ne_eq] at hcode
        have hhash : row.codeHash = hashPassword P draw.code draw.salt :=
          congrArg Challenge.codeHash hnew
        rw [hhash] at hcode
        exact ⟨hcode.1, verifyPassword_hashPassword_iff.1 hcode.2⟩
      · rw [hcount]
        exact hlt
      · exact congrArg Challenge.recipientId hnew

/-- Over every run from a database without challenges, at any instants: a code is
accepted only while it is alive, at most once, and only by its link, its browser
and its key; and nobody has two codes at a time. -/
theorem codes_safe (P : Platform) (cfg : Config) (hcfg : 1 ≤ cfg.maxCodeAttempts)
    {d₀ : DeliveryDb} (h0 : d₀.challenges = []) {h : List Event} {d : DeliveryDb}
    (hr : History.Run (step P cfg) env d₀ h d) : Safe P cfg h d := by
  have hmax : 0 < cfg.maxCodeAttempts := lt_of_lt_of_le (by decide) hcfg
  have hacc : ∀ later e earlier v recipientId, h = later ++ e :: earlier →
      e.input.op = .verifyChallenge v → e.output = .verified (.ok recipientId) →
      ∃ between creation before draw input c, earlier = between ++ creation :: before ∧
        Accepted P cfg e v recipientId between creation draw input c := by
    rintro later e earlier v recipientId rfl hop hout
    obtain ⟨c, hearlier, -, he⟩ := hr.split
    have hi := inv_of_run hmax h0 hearlier
    rw [he] at hop hout ⊢
    exact accepted_of_inv hi hop hout
  refine ⟨(inv_of_run hmax h0 hr).single, hacc, ?_⟩
  intro later e between e' earlier row row' a b hh hl ho hl' ho' hid
  have hop : ∀ (e : Event) row, lookedAt P e = some row → ∃ v, e.input.op = .verifyChallenge v := by
    intro e row hl
    unfold lookedAt at hl
    split at hl
    · rename_i v hv
      exact ⟨v, hv⟩
    · cases hl
  obtain ⟨v, hv⟩ := hop e row hl
  obtain ⟨mid, creation, before, draw, input, c, hsplit, hacc⟩ :=
    hacc later e _ v a hh hv ho
  obtain ⟨r, hr1, hr2⟩ := hacc.looked
  rw [hl] at hr1
  cases hr1
  -- the creation stands before the first acceptance, or the first acceptance ended the code
  rcases List.append_eq_append_iff.1 hsplit with ⟨xs, rfl, hrest⟩ | ⟨xs, rfl, hrest⟩
  · cases xs with
    | nil =>
        simp only [List.nil_append, List.cons.injEq] at hrest
        obtain ⟨v', hv'⟩ := hop e' row' hl'
        have := hacc.creates.op_eq
        rw [← hrest.1, hv'] at this
        cases this
    | cons x xs =>
        simp only [List.cons_append, List.cons.injEq] at hrest
        obtain ⟨rfl, -⟩ := hrest
        exact absurd (Ends.used row' b hl' (hid.symm.trans hr2) ho')
          (hacc.notEnded e' (by simp))
  · cases xs with
    | nil =>
        simp only [List.nil_append, List.cons.injEq] at hrest
        obtain ⟨v', hv'⟩ := hop e' row' hl'
        have := hacc.creates.op_eq
        rw [hrest.1, hv'] at this
        cases this
    | cons x xs =>
        simp only [List.cons_append, List.cons.injEq] at hrest
        obtain ⟨rfl, -⟩ := hrest
        exact ⟨creation, by simp, draw, input, c, hacc.creates, hr2.symm⟩

end

/-! ## Runs on a database with two links -/

/-- Two open links; the first has one person on it. -/
def twoLinks : DeliveryDb :=
  let link : Link := ⟨"l_1", "c_1", "A", "h1", "h1", none, none, none, 0, 0, none⟩
  { DeliveryDb.empty with
    cases := [⟨"c_1", "Case", "", .isOpen, 0, 0⟩]
    links := [link, { link with id := "l_2", tokenHash := "h2" }]
    linkRecipients := [⟨"r_1", "l_1", "a@b.c", .en, 0, none, 0⟩] }

/-- A code `123456` for the person, asked for by the browser `flow`. -/
def mail (now : Int) (id : String) : Call :=
  ⟨now, .createChallenge ⟨id, "123456", "salt"⟩ ⟨"l_1", "r_1", "flow", none⟩⟩

/-- The browser types a code. -/
def type (now : Int) (code : String) : Call := ⟨now, .verifyChallenge ⟨"l_1", "flow", code⟩⟩

theorem codes_safe_twoLinks :
    let r := History.replay (step .sample defaultConfig) [] twoLinks
      [mail 0 "1", type 1 "000000", type 2 "123 456"]
    Safe .sample defaultConfig r.1 r.2 :=
  codes_safe .sample defaultConfig (by decide) rfl
    (History.run_replay .start (by simp [History.Admits, env]))

/-- A code that differs from the mailed one in more than spaces and dashes is
accepted; a code is accepted after its browser started over on another link; and
it is accepted after a call that asked for a newer one and was refused. -/
theorem code_accepted_otherwise :
    (History.outputs (step .sample defaultConfig) twoLinks [mail 0 "1", type 1 "１２３４５６"])[1]? =
        some (.verified (.ok (some "r_1"))) ∧
      normalizeCode "１２３４５６" ≠ "123456" ∧
      (History.outputs (step .sample defaultConfig) twoLinks
        [mail 0 "1", ⟨1, .restart "l_2" "flow"⟩, type 2 "123456"])[2]? =
        some (.verified (.ok (some "r_1"))) ∧
      (History.outputs (step .sample { defaultConfig with challengeLimitPerLinkPerHour := 1 })
        twoLinks [mail 0 "1", mail 1 "2", type 2 "123456"])[2]? =
        some (.verified (.ok (some "r_1"))) := by
  decide

end Codes

end Outletbox
