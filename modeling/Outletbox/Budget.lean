import Outletbox.Codes

/-!
# Codes mailed and guessed in an hour

Over the runs of the one-time codes whose clock does not go back: how many codes
one person can be mailed in an hour, and how many typed codes can be compared
with them.  The stored time stamps are compared as strings, which is the order of
the instants except around the turn to the year 10000.
-/

namespace Outletbox

namespace Budget

open Codes (Call Event Output step)

variable (P : Platform) (cfg : Config)

/-- The clock does not go back. -/
def env (h : List Event) (_ : DeliveryDb) (c : Call) : Prop := ∀ e ∈ h, e.input.now ≤ c.now

/-- The call creates a challenge for a person. -/
def creates (recipientId : String) (e : Event) : Bool :=
  match e.output with
  | .created c _ => c.recipientId == some recipientId
  | _ => false

/-- The call looks at a challenge of a person. -/
def compares (recipientId : String) (e : Event) : Bool :=
  (Codes.lookedAt P e).any fun c => c.recipientId == some recipientId

/-- The call falls into the hour from `w`. -/
def within (w : Int) (e : Event) : Bool := w ≤ e.input.now && e.input.now < w + hourMs

/-- The challenges created for a person in the hour from `w`. -/
def created (w : Int) (recipientId : String) (h : List Event) : Nat :=
  h.countP fun e => within w e && creates recipientId e

/-- The typed codes that were compared with a code of a person in the hour from `w`. -/
def compared (w : Int) (recipientId : String) (h : List Event) : Nat :=
  h.countP fun e => within w e && compares P recipientId e

/-- The hour is over before the year 10000, or begins an hour after its first instant. -/
def Regular (w : Int) : Prop := w + hourMs ≤ year10000 ∨ year10000 + hourMs ≤ w

/-- In a regular hour the time stamps order like the instants. -/
theorem isoLt_of_regular {w now t : Int} (hw : Regular w) (hwt : w ≤ t) (ht : t ≤ now)
    (hnow : now < w + hourMs) : isoLt (now - hourMs) t := by
  rcases hw with hw | hw
  · exact (isoLt_iff (by omega) (by omega)).2 (by omega)
  · have hcut : ¬ now - hourMs < year10000 := by omega
    have hlate : ¬ t < year10000 := by
      have : (0 : Int) ≤ hourMs := by decide
      omega
    simp only [isoLt, isoKey, if_neg hcut, if_neg hlate]
    omega

/-! ## What a call does to the challenges -/

/-- The statements keep the columns that say whose code it is and when it was created. -/
structure SameRow (c c' : Challenge) : Prop where
  recipientId : c'.recipientId = c.recipientId
  createdAt : c'.createdAt = c.createdAt

/-- The guesses a pending challenge still allows. -/
def credit (M : Nat) (recipientId : String) (c : Challenge) : Nat :=
  if c.recipientId = some recipientId ∧ c.consumedAt = none then M - c.attempts else 0

/-- All that a call does to the challenges. -/
inductive Moves (P : Platform) (cfg : Config) (d : DeliveryDb) (c : Call) :
    DeliveryDb × Output → Prop
  /-- The rows are kept, some of them consumed. -/
  | kept {d' : DeliveryDb} {out : Output} (p : Challenge → Bool) :
      (∀ v, c.op ≠ .verifyChallenge v) → (∀ x code, out ≠ .created x code) →
      d'.challenges = (consumeWhere c.now p d).challenges →
      d'.linkRecipients = d.linkRecipients → Moves P cfg d c (d', out)
  | created {d' : DeliveryDb} {draw : ChallengeDraw} {input : ChallengeInput} :
      (∀ v, c.op ≠ .verifyChallenge v) →
      recentChallenges c.now input.recipientId d < cfg.challengeLimitPerLinkPerHour →
      (∃ x ∈ d.linkRecipients, x.id = input.recipientId) →
      d'.challenges = (consumeWhere c.now (fun x => x.recipientId == some input.recipientId)
        d).challenges ++ [newChallenge P cfg c.now draw input] →
      d'.linkRecipients = d.linkRecipients →
      Moves P cfg d c (d', .created (newChallenge P cfg c.now draw input) draw.code)
  /-- A typed code is compared with the code of a row, which is consumed or loses a guess. -/
  | looked {d' : DeliveryDb} {v : VerifyInput} {result : VerifyResult} {row : Challenge}
      (p : Challenge → Bool) (f : Challenge → Challenge) : c.op = .verifyChallenge v →
      pendingRow P c.now v.linkId v.flowToken d = some row →
      d'.challenges = Table.update p f d.challenges → d'.linkRecipients = d.linkRecipients →
      p row = true → (∀ x ∈ d.challenges, p x = true → x = row) → (∀ x, SameRow x (f x)) →
      ((f row).consumedAt = none → (f row).attempts = row.attempts + 1) →
      Moves P cfg d c (d', .verified result)
  | unseen {v : VerifyInput} {result : VerifyResult} : c.op = .verifyChallenge v →
      pendingRow P c.now v.linkId v.flowToken d = none → Moves P cfg d c (d, .verified result)
  | removed {recipientId : String} {out : Output} : (∀ v, c.op ≠ .verifyChallenge v) →
      (∀ x code, out ≠ .created x code) → Moves P cfg d c (deleteRecipient recipientId d, out)
  | purged : (∀ v, c.op ≠ .verifyChallenge v) →
      Moves P cfg d c (purgeExpiredAccess c.now d, .done)

section

variable {P cfg} {d : DeliveryDb} {h : List Event} {w now : Int} {person : String} {M : Nat}
  {c : Call} {r : DeliveryDb × Output}

theorem consumeWhere_none (now : Int) (d : DeliveryDb) :
    d.challenges = (consumeWhere now (fun _ => false) d).challenges :=
  (Table.update_eq_self fun _ _ hp => by simp at hp).symm

theorem moves_verify (hn : (d.challenges.map (·.id)).Nodup) {v : VerifyInput}
    (hop : c.op = .verifyChallenge v) : Moves P cfg d c (step P cfg d c) := by
  have hstep : step P cfg d c =
      ((verifyChallenge P cfg c.now v d).2, .verified (verifyChallenge P cfg c.now v d).1) := by
    rw [step, hop]
  rw [hstep]
  have hv := verified P cfg c.now v d
  generalize verifyChallenge P cfg c.now v d = answer at hv ⊢
  have hone : ∀ {row}, pendingRow P c.now v.linkId v.flowToken d = some row →
      ∀ x ∈ d.challenges, (x.id == row.id) = true → x = row :=
    fun hrow x hx hid => Table.eq_of_key hn hx (pendingRow_some hrow).1 (by simpa using hid)
  cases hv with
  | nothing hrow => exact .unseen hop hrow
  | accepted row hrow hcode =>
      have hpending := (pendingRow_some hrow).2.2.2.1
      refine .looked (fun x => x.id == row.id && x.consumedAt.isNone) _ hop hrow rfl rfl ?_ ?_
        (fun _ => ⟨rfl, rfl⟩) (fun hnone => by cases hnone)
      · simp [hpending]
      · intro x hx hp
        exact hone hrow x hx (Bool.and_eq_true_iff.1 hp).1
  | exhausted row hrow hcode hmax =>
      exact .looked (fun x => x.id == row.id) _ hop hrow rfl rfl (by simp) (hone hrow)
        (fun _ => ⟨rfl, rfl⟩) fun hnone => by cases hnone
  | wrong row hrow hcode hmax =>
      exact .looked (fun x => x.id == row.id) _ hop hrow rfl rfl (by simp) (hone hrow)
        (fun _ => ⟨rfl, rfl⟩) fun _ => rfl

theorem moves (hn : (d.challenges.map (·.id)).Nodup) (c : Call) :
    Moves P cfg d c (step P cfg d c) := by
  by_cases hverify : ∃ v, c.op = .verifyChallenge v
  · obtain ⟨v, hop⟩ := hverify
    exact moves_verify hn hop
  · have hno : ∀ v, c.op ≠ .verifyChallenge v := fun v hv => hverify ⟨v, hv⟩
    obtain ⟨now, op⟩ := c
    cases op with
    | createChallenge draw input =>
        unfold step
        simp only []
        cases hx : createChallenge P cfg now draw input d with
        | error e => exact .kept _ hno nofun (consumeWhere_none now d) rfl
        | ok answer =>
            obtain ⟨a, d'⟩ := answer
            obtain ⟨hlimit, rfl, -, -, hrecipient, rfl⟩ := createChallenge_ok hx
            exact .created hno hlimit hrecipient rfl rfl
    | verifyChallenge v => exact absurd rfl (hno v)
    | restart linkId flowToken => exact .kept _ hno nofun rfl rfl
    | destroyAccessSessionsForLink linkId =>
        exact .kept (fun x => x.linkId == linkId) hno nofun rfl rfl
    | removeRecipient linkId recipientId =>
        have hstep : step P cfg d ⟨now, .removeRecipient linkId recipientId⟩ =
            ((removeRecipient linkId recipientId d).2,
              .removed (removeRecipient linkId recipientId d).1) := rfl
        rw [hstep]
        rcases removeRecipient_cases linkId recipientId d with ⟨-, hd⟩ | ⟨-, -, -, -, -, hd⟩
        · rw [hd]
          exact .kept _ hno nofun (consumeWhere_none now d) rfl
        · rw [hd]
          exact .removed hno nofun
    | purgeExpiredAccess => exact .purged hno

/-! ## What an event adds to the counts -/

theorem creates_other {out : Output} {d' : DeliveryDb} (hout : ∀ x code, out ≠ .created x code) :
    creates person ⟨d, c, out, d'⟩ = false := by
  unfold creates
  split
  · rename_i x code hx
    exact absurd hx (hout x code)
  · rfl

theorem compares_other {out : Output} {d' : DeliveryDb} (hop : ∀ v, c.op ≠ .verifyChallenge v) :
    compares P person ⟨d, c, out, d'⟩ = false := by
  have hnone : Codes.lookedAt P ⟨d, c, out, d'⟩ = none := by
    unfold Codes.lookedAt
    split
    · rename_i v hv
      exact absurd hv (hop v)
    · rfl
  rw [compares, hnone]
  rfl

theorem compares_verify {out : Output} {d' : DeliveryDb} {v : VerifyInput}
    (hop : c.op = .verifyChallenge v) : compares P person ⟨d, c, out, d'⟩ =
      (pendingRow P c.now v.linkId v.flowToken d).any fun x => x.recipientId == some person := by
  rw [compares, Codes.lookedAt, hop]

/-! ## The invariant of an hour -/

/-- The rows of a person created in the hour from `w` or later. -/
def rows (w : Int) (person : String) (d : DeliveryDb) : Nat :=
  d.challenges.countP fun x => x.recipientId == some person && decide (w ≤ x.createdAt)

/-- The guesses the pending challenges of a person still allow. -/
def credits (M : Nat) (person : String) (d : DeliveryDb) : Nat := (d.challenges.map (credit M person)).sum

/-- Every challenge was created in the past. -/
def Dated (h : List Event) (d : DeliveryDb) : Prop :=
  ∀ x ∈ d.challenges, ∃ e ∈ h, e.input.now = x.createdAt

/-- As long as the hour is not over, what was created in it is still in the table, and every
comparison was paid for by a challenge created in it or pending at its start. -/
structure Inv (P : Platform) (L M : Nat) (w : Int) (person : String) (h : List Event)
    (d : DeliveryDb) : Prop where
  created : created w person h ≤ L
  compared : compared P w person h ≤ M * (Budget.created w person h + 1)
  kept : (∀ e ∈ h, e.input.now < w + hourMs) →
    (∀ x ∈ d.linkRecipients, x.id ≠ person) ∨ Budget.created w person h ≤ rows w person d
  paid : (∀ e ∈ h, e.input.now < w + hourMs) →
    Budget.compared P w person h + credits M person d ≤ M * (Budget.created w person h + 1)

theorem credit_le {x : Challenge} : credit M person x ≤ M := by
  unfold credit
  split
  · exact Nat.sub_le _ _
  · exact Nat.zero_le _

theorem credit_consumed {x : Challenge} (hx : x.consumedAt ≠ none) : credit M person x = 0 :=
  if_neg fun h => hx h.2

theorem dated_step (hm : Moves P cfg d c r) (hd : Dated h d) :
    Dated (⟨d, c, r.2, r.1⟩ :: h) r.1 := by
  have hold : ∀ {x : Challenge} {y : Challenge}, x ∈ d.challenges → SameRow x y →
      ∃ e ∈ (⟨d, c, r.2, r.1⟩ :: h : List Event), e.input.now = y.createdAt := by
    intro x y hx hsame
    obtain ⟨e, he, hnow⟩ := hd x hx
    exact ⟨e, List.mem_cons_of_mem _ he, hnow.trans hsame.createdAt.symm⟩
  intro y hy
  cases hm with
  | kept p hop hout hrows hpeople =>
      rw [hrows] at hy
      obtain ⟨x, hx, rfl⟩ := Table.mem_update.1 hy
      refine hold hx ?_
      split
      · exact ⟨rfl, rfl⟩
      · exact ⟨rfl, rfl⟩
  | created hop hlimit hrecipient hrows hpeople =>
      simp only [] at hy
      rw [hrows] at hy
      rcases List.mem_append.1 hy with hy | hy
      · obtain ⟨x, hx, rfl⟩ := Table.mem_update.1 hy
        refine hold hx ?_
        split
        · exact ⟨rfl, rfl⟩
        · exact ⟨rfl, rfl⟩
      · rw [List.mem_singleton.1 hy]
        exact ⟨_, List.mem_cons_self .., rfl⟩
  | looked p f hop hrow hrows hpeople hp hone hsame hattempts =>
      simp only [] at hy
      rw [hrows] at hy
      obtain ⟨x, hx, rfl⟩ := Table.mem_update.1 hy
      refine hold hx ?_
      split
      · exact hsame x
      · exact ⟨rfl, rfl⟩
  | unseen hop hrow => exact hold hy ⟨rfl, rfl⟩
  | removed hop hout => exact hold (Table.mem_delete.1 hy).1 ⟨rfl, rfl⟩
  | purged hop => exact hold (Table.mem_delete.1 hy).1 ⟨rfl, rfl⟩

/-- The hourly limit counts every row of the hour. -/
theorem rows_le_recentChallenges (hw : Regular w) (hnow : c.now < w + hourMs)
    (hdated : ∀ x ∈ d.challenges, x.createdAt ≤ c.now) :
    rows w person d ≤ recentChallenges c.now person d := by
  refine List.countP_mono_left fun x hx hrow => ?_
  rw [Bool.and_eq_true, decide_eq_true_eq] at hrow ⊢
  exact ⟨hrow.1, isoLt_of_regular hw hrow.2 (hdated x hx) hnow⟩

/-- Statements that keep the columns keep the count. -/
theorem rows_update {d' : DeliveryDb} {p : Challenge → Bool} {f : Challenge → Challenge}
    (hrows : d'.challenges = Table.update p f d.challenges) (hsame : ∀ x, SameRow x (f x)) :
    rows w person d' = rows w person d := by
  rw [rows, hrows]
  refine Table.countP_update ?_ _
  intro x
  rw [(hsame x).recipientId, (hsame x).createdAt]

theorem created_other {out : Output} {d' : DeliveryDb} (hout : ∀ x code, out ≠ .created x code) :
    created w person (⟨d, c, out, d'⟩ :: h) = created w person h := by
  rw [created, List.countP_cons_of_neg]
  · rfl
  · rw [creates_other hout, Bool.and_false]
    exact Bool.false_ne_true

theorem created_verified {result : VerifyResult} {d' : DeliveryDb} :
    created w person (⟨d, c, .verified result, d'⟩ :: h) = created w person h :=
  created_other fun _ _ => Output.noConfusion

theorem created_done {d' : DeliveryDb} :
    created w person (⟨d, c, .done, d'⟩ :: h) = created w person h :=
  created_other fun _ _ => Output.noConfusion

theorem compared_other {out : Output} {d' : DeliveryDb}
    (hnone : compares P person ⟨d, c, out, d'⟩ = false) :
    compared P w person (⟨d, c, out, d'⟩ :: h) = compared P w person h := by
  rw [compared, List.countP_cons_of_neg]
  · rfl
  · rw [hnone, Bool.and_false]
    exact Bool.false_ne_true

theorem kept_step (hm : Moves P cfg d c r) (hw : Regular w) (hnow : c.now < w + hourMs)
    (hdated : ∀ x ∈ d.challenges, x.createdAt ≤ c.now)
    (hk : (∀ x ∈ d.linkRecipients, x.id ≠ person) ∨ created w person h ≤ rows w person d) :
    (∀ x ∈ r.1.linkRecipients, x.id ≠ person) ∨
      created w person (⟨d, c, r.2, r.1⟩ :: h) ≤ rows w person r.1 := by
  cases hm with
  | kept p hop hout hrows hpeople =>
      rw [created_other hout, rows_update (d := d) hrows fun _ => ⟨rfl, rfl⟩, hpeople]
      exact hk
  | @created d' draw input hop hlimit hrecipient hrows hpeople =>
      rw [hpeople]
      refine hk.imp id fun hle => ?_
      have hcount : rows w person d' = rows w person d +
          if (some input.recipientId == some person && decide (w ≤ c.now)) = true then 1 else 0 := by
        rw [rows, hrows, List.countP_append, List.countP_singleton]
        congr 1
        exact rows_update (d := d) rfl fun _ => ⟨rfl, rfl⟩
      rw [created, List.countP_cons, hcount]
      refine Nat.add_le_add hle ?_
      by_cases hcounts : (within w ⟨d, c, .created (newChallenge P cfg c.now draw input) draw.code,
          d'⟩ && creates person ⟨d, c, .created (newChallenge P cfg c.now draw input) draw.code,
          d'⟩) = true
      · rw [if_pos hcounts, if_pos]
        rw [Bool.and_eq_true] at hcounts ⊢
        obtain ⟨hwithin, hcreates⟩ := hcounts
        exact ⟨hcreates, (Bool.and_eq_true_iff.1 hwithin).1⟩
      · rw [if_neg hcounts]
        exact Nat.zero_le _
  | looked p f hop hrow hrows hpeople hp hone hsame hattempts =>
      rw [created_verified, rows_update hrows hsame, hpeople]
      exact hk
  | unseen hop hrow =>
      rw [created_verified]
      exact hk
  | @removed recipientId out hop hout =>
      rw [created_other hout]
      by_cases hid : recipientId = person
      · refine .inl fun x hx hsame => ?_
        have hgone := (Table.mem_delete.1 hx).2
        rw [hid, hsame, beq_self_eq_true] at hgone
        cases hgone
      · refine hk.imp (fun hmissing x hx => hmissing x (Table.mem_delete.1 hx).1) fun hle => ?_
        rw [rows, deleteRecipient, Table.countP_delete]
        · exact hle
        · intro x hx hrow
          rw [Bool.and_eq_true, beq_iff_eq] at hrow
          rw [hrow.1]
          simpa using Ne.symm hid
  | purged hop =>
      rw [created_done]
      refine hk.imp id fun hle => ?_
      rw [rows, purgeExpiredAccess, Table.countP_delete]
      · exact hle
      · intro x hx hrow
        rw [Bool.and_eq_true, decide_eq_true_eq] at hrow
        rw [decide_eq_false_iff_not, not_le]
        exact isoLt_of_regular hw hrow.2 (hdated x hx) hnow

/-- Before the hour nothing counts. -/
theorem count_eq_zero {p : Event → Bool} (hbefore : ∀ e ∈ h, e.input.now < w) :
    h.countP (fun e => within w e && p e) = 0 := by
  refine List.countP_eq_zero.2 fun e he hcounts => ?_
  have hwithin := (Bool.and_eq_true_iff.1 (Bool.and_eq_true_iff.1 hcounts).1).1
  exact absurd (hbefore e he) (not_lt.2 (of_decide_eq_true hwithin))

theorem credits_consumeWhere_le (now : Int) (p : Challenge → Bool) (d : DeliveryDb) :
    credits M person (consumeWhere now p d) ≤ credits M person d := by
  refine Table.sum_map_update_mono fun x _ _ => ?_
  rw [credit_consumed (Option.some_ne_none _)]
  exact Nat.zero_le _

/-- A new code takes away what the older ones of the person still allowed. -/
theorem credits_consumed (now : Int) (d : DeliveryDb) :
    credits M person (consumeWhere now (fun x => x.recipientId == some person) d) = 0 := by
  refine List.sum_eq_zero fun n hn => ?_
  obtain ⟨y, hy, rfl⟩ := List.mem_map.1 hn
  obtain ⟨x, hx, rfl⟩ := Table.mem_update.1 hy
  split
  · exact credit_consumed (Option.some_ne_none _)
  · rename_i hp
    refine if_neg fun hcredit => hp ?_
    simp [hcredit.1, hcredit.2]

theorem paid_step (hm : Moves P cfg d c r) (henv : env h d c) (hnow : c.now < w + hourMs)
    (hlive : ∀ x ∈ d.challenges, x.consumedAt = none → x.attempts < M)
    (hp : compared P w person h + credits M person d ≤ M * (created w person h + 1)) :
    compared P w person (⟨d, c, r.2, r.1⟩ :: h) + credits M person r.1 ≤
      M * (created w person (⟨d, c, r.2, r.1⟩ :: h) + 1) := by
  cases hm with
  | kept p hop hout hrows hpeople =>
      rw [created_other hout, compared_other (compares_other hop), credits, hrows]
      have hle : credits M person (consumeWhere c.now p d) ≤ credits M person d :=
        credits_consumeWhere_le c.now p d
      exact (Nat.add_le_add_left hle _).trans hp
  | @created d' draw input hop hlimit hrecipient hrows hpeople =>
      rw [compared_other (compares_other hop), credits, hrows, List.map_append, List.sum_append,
        List.map_singleton, List.sum_singleton]
      by_cases hperson : input.recipientId = person
      · have hzero : ((consumeWhere c.now (fun x => x.recipientId == some input.recipientId)
            d).challenges.map (credit M person)).sum = 0 := by
          rw [hperson]
          exact credits_consumed c.now d
        have hcredit := @credit_le person M (newChallenge P cfg c.now draw input)
        rw [hzero, Nat.zero_add]
        by_cases hwithin : within w ⟨d, c, .created (newChallenge P cfg c.now draw input)
            draw.code, d'⟩ = true
        · -- One more code in the hour pays for the guesses it allows.
          have hcreated : created w person (⟨d, c, .created (newChallenge P cfg c.now draw input)
              draw.code, d'⟩ :: h) = created w person h + 1 := by
            rw [created, List.countP_cons_of_pos]
            · rfl
            · rw [hwithin, Bool.true_and, ← hperson]
              exact beq_self_eq_true _
          rw [hcreated, Nat.mul_succ]
          exact Nat.add_le_add ((Nat.le_add_right _ _).trans hp) hcredit
        · -- Before the hour there is one credit, that of the pending code.
          have hbefore : ∀ e ∈ h, e.input.now < w := by
            intro e he
            have hle := henv e he
            simp only [within, Bool.and_eq_true, decide_eq_true_eq] at hwithin
            omega
          rw [compared, count_eq_zero hbefore, Nat.zero_add]
          exact hcredit.trans (Nat.le_mul_of_pos_right _ (Nat.succ_pos _))
      · have hnone : credit M person (newChallenge P cfg c.now draw input) = 0 :=
          if_neg fun hcredit => hperson (Option.some.inj hcredit.1)
        have hle := @credits_consumeWhere_le person M c.now
          (fun x => x.recipientId == some input.recipientId) d
        rw [hnone, Nat.add_zero]
        refine (Nat.add_le_add_left hle _).trans (hp.trans (Nat.mul_le_mul_left _ ?_))
        rw [created, created, List.countP_cons]
        exact Nat.succ_le_succ (Nat.le_add_right _ _)
  | @looked d' v result row p f hop hrow hrows hpeople hmatch hone hsame hattempts =>
      rw [created_verified]
      obtain ⟨hmem, -, -, hpending, -⟩ := pendingRow_some hrow
      by_cases hperson : row.recipientId = some person
      · -- The guess is paid for by the credit of the row.
        have hcredit : credit M person row = M - row.attempts := if_pos ⟨hperson, hpending⟩
        have hless : credit M person (f row) < credit M person row := by
          have hlt := hlive row hmem hpending
          by_cases hconsumed : (f row).consumedAt = none
          · rw [hcredit, credit, if_pos ⟨(hsame row).recipientId.trans hperson, hconsumed⟩,
              hattempts hconsumed]
            omega
          · rw [hcredit, credit_consumed hconsumed]
            omega
        have hsum : credits M person d' < credits M person d := by
          rw [credits, hrows]
          refine Table.sum_map_update_lt (fun x hx hx' => ?_) hmem hmatch hless
          rw [hone x hx hx']
          exact hless.le
        have hcount : compared P w person (⟨d, c, .verified result, d'⟩ :: h) ≤
            compared P w person h + 1 := by
          rw [compared, compared, List.countP_cons]
          refine Nat.add_le_add_left ?_ _
          split
          · exact le_rfl
          · exact Nat.zero_le _
        show compared P w person (⟨d, c, .verified result, d'⟩ :: h) + credits M person d' ≤ _
        omega
      · rw [compared_other]
        · refine (Nat.add_le_add_left ?_ _).trans hp
          rw [credits, hrows]
          refine Table.sum_map_update_mono fun x hx hx' => ?_
          rw [hone x hx hx', credit, if_neg]
          · exact Nat.zero_le _
          · rw [(hsame row).recipientId]
            exact fun hcredit => hperson hcredit.1
        · rw [compares_verify hop, hrow]
          simpa using hperson
  | unseen hop hrow =>
      rw [created_verified, compared_other]
      · exact hp
      · rw [compares_verify hop, hrow]
        rfl
  | removed hop hout =>
      rw [created_other hout, compared_other (compares_other hop)]
      exact (Nat.add_le_add_left (Table.sum_map_delete_le _) _).trans hp
  | purged hop =>
      rw [created_done, compared_other (compares_other hop)]
      exact (Nat.add_le_add_left (Table.sum_map_delete_le _) _).trans hp

/-! ## Every run -/

theorem created_over (hover : w + hourMs ≤ c.now) {out : Output} {d' : DeliveryDb} :
    created w person (⟨d, c, out, d'⟩ :: h) = created w person h := by
  rw [created, List.countP_cons_of_neg]
  · rfl
  · have hno : within w ⟨d, c, out, d'⟩ = false := by
      simp [within, hover]
    rw [hno]
    exact Bool.false_ne_true

theorem compared_over (hover : w + hourMs ≤ c.now) {out : Output} {d' : DeliveryDb} :
    compared P w person (⟨d, c, out, d'⟩ :: h) = compared P w person h := by
  rw [compared, List.countP_cons_of_neg]
  · rfl
  · have hno : within w ⟨d, c, out, d'⟩ = false := by
      simp [within, hover]
    rw [hno]
    exact Bool.false_ne_true

/-- A challenge is created in the hour only while fewer than `L` are in the table. -/
theorem created_step {L : Nat} (hL : cfg.challengeLimitPerLinkPerHour = L) (hm : Moves P cfg d c r)
    (hw : Regular w) (hnow : c.now < w + hourMs) (hdated : ∀ x ∈ d.challenges, x.createdAt ≤ c.now)
    (hk : (∀ x ∈ d.linkRecipients, x.id ≠ person) ∨ created w person h ≤ rows w person d)
    (hle : created w person h ≤ L) : created w person (⟨d, c, r.2, r.1⟩ :: h) ≤ L := by
  cases hm with
  | kept p hop hout hrows hpeople => rwa [created_other hout]
  | @created d' draw input hop hlimit hrecipient hrows hpeople =>
      by_cases hperson : input.recipientId = person
      · subst hperson
        rcases hk with hmissing | hkept
        · obtain ⟨x, hx, hid⟩ := hrecipient
          exact absurd hid (hmissing x hx)
        · have hlt : recentChallenges c.now input.recipientId d < L := by
            rw [hL] at hlimit
            exact_mod_cast hlimit
          have hrecent : rows w input.recipientId d ≤ recentChallenges c.now input.recipientId d :=
            rows_le_recentChallenges hw hnow hdated
          rw [created, List.countP_cons]
          have hcount : created w input.recipientId h + 1 ≤ L :=
            lt_of_le_of_lt (hkept.trans hrecent) hlt
          refine (Nat.add_le_add_left ?_ _).trans hcount
          split
          · exact le_rfl
          · exact Nat.zero_le _
      · rw [created, List.countP_cons_of_neg]
        · exact hle
        · intro hcounts
          rw [Bool.and_eq_true] at hcounts
          have hsame : (some input.recipientId == some person) = true := hcounts.2
          exact hperson (Option.some.inj (beq_iff_eq.1 hsame))
  | looked p f hop hrow hrows hpeople hp hone hsame hattempts => rwa [created_verified]
  | unseen hop hrow => rwa [created_verified]
  | removed hop hout => rwa [created_other hout]
  | purged hop => rwa [created_done]

theorem inv_step {L : Nat} (hL : cfg.challengeLimitPerLinkPerHour = L)
    (hM : cfg.maxCodeAttempts = M) (hw : Regular w) (henv : env h d c) (hcodes : Codes.Inv P cfg h d)
    (hdated : Dated h d) (hi : Inv P L M w person h d) :
    Inv P L M w person (History.fire (step P cfg) d c :: h) (step P cfg d c).1 := by
  have hm : Moves P cfg d c (step P cfg d c) := moves hcodes.ids c
  have hpast : ∀ x ∈ d.challenges, x.createdAt ≤ c.now := by
    intro x hx
    obtain ⟨e, he, hnow⟩ := hdated x hx
    exact hnow ▸ henv e he
  have hlive : ∀ x ∈ d.challenges, x.consumedAt = none → x.attempts < M := by
    intro x hx hnone
    have hlt := (hcodes.alive x hx hnone).2
    rw [hM] at hlt
    exact_mod_cast hlt
  by_cases hnow : c.now < w + hourMs
  · have hopen : ∀ e ∈ h, e.input.now < w + hourMs :=
      fun e he => lt_of_le_of_lt (henv e he) hnow
    have hpaid := paid_step hm henv hnow hlive (hi.paid hopen)
    exact ⟨created_step hL hm hw hnow hpast (hi.kept hopen) hi.created,
      (Nat.le_add_right _ _).trans hpaid, fun _ => kept_step hm hw hnow hpast (hi.kept hopen),
      fun _ => hpaid⟩
  · have hover := not_lt.1 hnow
    have hclosed : ¬ ∀ e ∈ History.fire (step P cfg) d c :: h, e.input.now < w + hourMs :=
      fun hall => hnow (hall _ (List.mem_cons_self ..))
    refine ⟨?_, ?_, fun hall => absurd hall hclosed, fun hall => absurd hall hclosed⟩
    · rw [History.fire, created_over hover]
      exact hi.created
    · rw [History.fire, created_over hover, compared_over hover]
      exact hi.compared

theorem inv_run {L : Nat} (hL : cfg.challengeLimitPerLinkPerHour = L) (hM : cfg.maxCodeAttempts = M)
    (hpos : 1 ≤ M) (hw : Regular w) {d₀ : DeliveryDb} (h0 : d₀.challenges = [])
    (hr : History.Run (step P cfg) env d₀ h d) : Dated h d ∧ Inv P L M w person h d := by
  have hmax : 0 < cfg.maxCodeAttempts := by
    rw [hM]
    exact_mod_cast hpos
  refine hr.invariant (I := fun h d => Dated h d ∧ Inv P L M w person h d) ?_ ?_
  · refine ⟨?_, Nat.zero_le _, Nat.zero_le _, fun _ => .inr (Nat.zero_le _), fun _ => ?_⟩
    · intro x hx
      rw [h0] at hx
      cases hx
    · rw [credits, h0]
      exact Nat.zero_le _
  · rintro h d c hrun henv ⟨hdated, hi⟩
    have hcodes := Codes.inv_of_run hmax h0 (hrun.mono fun _ _ _ _ => trivial)
    exact ⟨dated_step (moves hcodes.ids c) hdated, inv_step hL hM hw henv hcodes hdated hi⟩

end

/-- In every hour away from the turn to the year 10000, a person is mailed at most `L` codes
and at most `(L + 1) * M` typed codes are compared with codes of that person. -/
theorem codes_per_hour {L M : Nat} (hL : cfg.challengeLimitPerLinkPerHour = L)
    (hM : cfg.maxCodeAttempts = M) (hpos : 1 ≤ M) {d₀ d : DeliveryDb} (h0 : d₀.challenges = [])
    {h : List Event} (hr : History.Run (step P cfg) env d₀ h d) (person : String) {w : Int}
    (hw : Regular w) : created w person h ≤ L ∧ compared P w person h ≤ (L + 1) * M := by
  have hi : Inv P L M w person h d := (inv_run hL hM hpos hw h0 hr).2
  refine ⟨hi.created, hi.compared.trans ?_⟩
  rw [Nat.mul_comm]
  exact Nat.mul_le_mul_right _ (Nat.succ_le_succ hi.created)

/-! ## Runs on the database with two links -/

theorem run_calls {cfg : Config} {calls : List Call}
    (h : calls.Pairwise fun earlier c => earlier.now ≤ c.now) :
    let r := History.replay (step .sample cfg) [] Codes.twoLinks calls
    History.Run (step .sample cfg) env Codes.twoLinks r.1 r.2 :=
  History.run_replay .start (History.admits_of_pairwise (fun _ _ _ h => h) h
    (fun _ he => absurd he List.not_mem_nil) _)

theorem codes_per_hour_twoLinks :
    let r := History.replay (step .sample defaultConfig) [] Codes.twoLinks
      [Codes.mail 0 "1", Codes.type 1 "000000", Codes.mail 2 "2", Codes.type 3 "123456"]
    created 0 "r_1" r.1 = 2 ∧ compared .sample 0 "r_1" r.1 = 2 ∧
      created 0 "r_1" r.1 ≤ 5 ∧ compared .sample 0 "r_1" r.1 ≤ (5 + 1) * 5 := by
  refine ⟨by decide +kernel, by decide +kernel, ?_⟩
  exact codes_per_hour .sample defaultConfig (by decide) (by decide) (by decide) rfl
    (run_calls (by decide)) "r_1" (.inl (by decide))

/-- With one code an hour, two codes are mailed in the first minutes of the year 10000: the
time stamp of the first one sorts before that of an hour ago. -/
theorem two_codes_mailed :
    let cfg := { defaultConfig with challengeLimitPerLinkPerHour := 1 }
    let r := History.replay (step .sample cfg) [] Codes.twoLinks
      [Codes.mail (year10000 + 60000) "1", Codes.mail (year10000 + 120000) "2"]
    History.Run (step .sample cfg) env Codes.twoLinks r.1 r.2 ∧
      created year10000 "r_1" r.1 = 2 :=
  ⟨run_calls (by decide), by decide +kernel⟩

end Budget

end Outletbox
