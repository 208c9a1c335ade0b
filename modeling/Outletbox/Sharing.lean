import Outletbox.Codes

/-!
# Codes of two people on one link

A code is issued for a person, but it is looked up by link and browser.  A code
issued to another person of the link from the same browser is therefore found
first.  `accepts_iff` says exactly when an accepted code stays accepted after a
code was issued to somebody else.
-/

namespace Outletbox

namespace Sharing

variable (P : Platform) (cfg : Config)

/-- The database after `createChallenge`, whether it was refused or not. -/
def afterCreate (now : Int) (draw : ChallengeDraw) (input : ChallengeInput) (d : DeliveryDb) :
    DeliveryDb :=
  match createChallenge P cfg now draw input d with
  | .ok (_, d') => d'
  | .error _ => d

/-- A person's code, typed by a browser, opens the link. -/
def accepts (t : Int) (linkId flowToken code recipientId : String) (d : DeliveryDb) : Prop :=
  (verifyChallenge P cfg t ⟨linkId, flowToken, code⟩ d).1 = .ok (some recipientId)

/-- Conditions under which a code issued to somebody else leaves a person's code
alone: none is issued, it is for another browser, it is no longer pending at the
time of the test, or the person's own challenge bears a later time stamp. -/
def Undisturbed (now t : Int) (draw : ChallengeDraw) (input : ChallengeInput)
    (flowToken recipientId : String) (d : DeliveryDb) : Prop :=
  limitReached cfg now input.recipientId d ∨
    challengeConflict (newChallenge P cfg now draw input) d = true ∨
    P.sha256Hex input.flowToken ≠ P.sha256Hex flowToken ∨
    ¬ isoLt t (now + cfg.accessCodeTtlMs) ∨
    ∃ c ∈ d.challenges, c.linkId = input.linkId ∧ c.flowHash = P.sha256Hex flowToken ∧
      c.isPending t = true ∧ c.recipientId = some recipientId ∧ isoLt now c.createdAt

section

variable {P cfg} {now t : Int} {draw : ChallengeDraw} {input : ChallengeInput}
  {linkId flowToken code recipientId : String} {d : DeliveryDb}

/-- A code is accepted for a person when the newest pending row is theirs and takes it. -/
theorem accepts_iff_row : accepts P cfg t linkId flowToken code recipientId d ↔
    ∃ row, pendingRow P t linkId flowToken d = some row ∧ acceptsCode P code row = true ∧
      row.recipientId = some recipientId := by
  unfold accepts
  have hv := verified P cfg t ⟨linkId, flowToken, code⟩ d
  generalize verifyChallenge P cfg t ⟨linkId, flowToken, code⟩ d = r at hv ⊢
  cases hv with
  | nothing hrow => simp only [] at hrow; simp [hrow]
  | accepted row hrow hcode => simp only [] at hrow hcode; simp [hrow, hcode]
  | exhausted row hrow hcode hmax => simp only [] at hrow hcode; simp [hrow, hcode]
  | wrong row hrow hcode hmax => simp only [] at hrow hcode; simp [hrow, hcode]

/-- What `createChallenge` leaves when it is refused, and when it is not. -/
theorem afterCreate_eq (now : Int) (draw : ChallengeDraw) (input : ChallengeInput)
    (d : DeliveryDb) : afterCreate P cfg now draw input d =
      if limitReached cfg now input.recipientId d ∨
          challengeConflict (newChallenge P cfg now draw input) d = true then d
      else { consumeWhere now (fun c => c.recipientId == some input.recipientId) d with
        challenges := (consumeWhere now (fun c => c.recipientId == some input.recipientId)
          d).challenges ++ [newChallenge P cfg now draw input] } := by
  rw [afterCreate, createChallenge_eq]
  by_cases hl : limitReached cfg now input.recipientId d
  · simp [hl]
  · by_cases hc : challengeConflict (newChallenge P cfg now draw input) d = true
    · simp [hl, hc]
    · simp [hl, hc]

/-- Issuing a code does not change how many codes somebody else was issued. -/
theorem recentChallenges_afterCreate (hne : input.recipientId ≠ recipientId) :
    recentChallenges t recipientId (afterCreate P cfg now draw input d) =
      recentChallenges t recipientId d := by
  rw [afterCreate_eq]
  split
  · rfl
  · have hnew : ((newChallenge P cfg now draw input).recipientId == some recipientId &&
        decide (isoLt (t - hourMs) (newChallenge P cfg now draw input).createdAt)) = false := by
      simp [newChallenge, hne]
    simp only [recentChallenges, List.countP_append, List.countP_singleton, hnew,
      Bool.false_eq_true, if_false, Nat.add_zero]
    exact Table.countP_update (fun _ => by rfl) _

/-- A row is found by a link and a browser. -/
def isFoundBy (P : Platform) (t : Int) (linkId flowToken : String) (c : Challenge) : Bool :=
  c.linkId == linkId && c.flowHash == P.sha256Hex flowToken && c.isPending t

/-- After the codes of another person were consumed, a row found before is found again. -/
theorem latest_consumeWhere {row : Challenge}
    (hrow : pendingRow P t linkId flowToken d = some row) {p : Challenge → Bool}
    (hp : p row = false) :
    pendingRow P t linkId flowToken (consumeWhere now p d) = some row := by
  have hpend := (pendingRow_some hrow).2.2.2.1
  have hlist : (consumeWhere now p d).challenges.filter (isFoundBy P t linkId flowToken) =
      (d.challenges.filter (isFoundBy P t linkId flowToken)).filter fun c => !p c := by
    rw [List.filter_filter]
    simp only [consumeWhere, Table.update]
    induction d.challenges with
    | nil => rfl
    | cons c cs ih =>
        rw [List.map_cons, List.filter_cons, List.filter_cons, ih]
        cases hpc : p c with
        | false => simp
        | true =>
            cases hn : c.consumedAt with
            | none => simp [isFoundBy, Challenge.isPending]
            | some x => simp [isFoundBy, Challenge.isPending, hn]
  unfold pendingRow at hrow ⊢
  rw [show (fun c : Challenge => c.linkId == linkId && c.flowHash == P.sha256Hex flowToken &&
    c.isPending t) = isFoundBy P t linkId flowToken from rfl] at hrow ⊢
  rw [hlist]
  exact Table.latest_filter hrow (by simp [hp])

end

/-- An accepted code stays accepted after a code was issued to another person of
the link exactly when that code leaves it alone; and whether the hourly limit
refuses the first person never changes. -/
theorem accepts_iff (P : Platform) (cfg : Config) (now t : Int) (draw : ChallengeDraw)
    (input : ChallengeInput) (flowToken code recipientId : String) (d : DeliveryDb)
    (hne : input.recipientId ≠ recipientId)
    (hok : accepts P cfg t input.linkId flowToken code recipientId d) :
    (accepts P cfg t input.linkId flowToken code recipientId (afterCreate P cfg now draw input d) ↔
        Undisturbed P cfg now t draw input flowToken recipientId d) ∧
      ∀ t', limitReached cfg t' recipientId (afterCreate P cfg now draw input d) ↔
        limitReached cfg t' recipientId d := by
  refine ⟨?_, fun t' => by rw [limitReached, limitReached, recentChallenges_afterCreate hne]⟩
  obtain ⟨row, hrow, hcode, hrec⟩ := accepts_iff_row.1 hok
  obtain ⟨hmem, hlink, hflow, hn, hexp⟩ := pendingRow_some hrow
  have hother : (row.recipientId == some input.recipientId) = false := by
    simp [hrec, Ne.symm hne]
  rw [afterCreate_eq]
  by_cases hrefused : limitReached cfg now input.recipientId d ∨
      challengeConflict (newChallenge P cfg now draw input) d = true
  · rw [if_pos hrefused]
    refine ⟨fun _ => ?_, fun _ => hok⟩
    rcases hrefused with hl | hc
    · exact .inl hl
    · exact .inr (.inl hc)
  rw [if_neg hrefused]
  -- the rows found now are those found before, less the other person's, and perhaps the new one
  have hconsumed : pendingRow P t input.linkId flowToken
      (consumeWhere now (fun c => c.recipientId == some input.recipientId) d) = some row :=
    latest_consumeWhere hrow hother
  have hfound : ∀ x, pendingRow P t input.linkId flowToken
      { consumeWhere now (fun c => c.recipientId == some input.recipientId) d with
        challenges := (consumeWhere now (fun c => c.recipientId == some input.recipientId)
          d).challenges ++ [x] } =
      if isFoundBy P t input.linkId flowToken x then
        if isoKey x.createdAt < isoKey row.createdAt then some row else some x
      else some row := by
    intro x
    unfold pendingRow at hconsumed ⊢
    rw [show (fun c : Challenge => c.linkId == input.linkId &&
      c.flowHash == P.sha256Hex flowToken && c.isPending t) =
        isFoundBy P t input.linkId flowToken from rfl] at hconsumed ⊢
    rw [List.filter_append]
    by_cases hx : isFoundBy P t input.linkId flowToken x = true
    · rw [if_pos hx, List.filter_cons_of_pos hx, List.filter_nil, Table.latest_append_row,
        hconsumed]
    · rw [if_neg hx, List.filter_cons_of_neg hx, List.filter_nil, List.append_nil, hconsumed]
  have hnew : isFoundBy P t input.linkId flowToken (newChallenge P cfg now draw input) = true ↔
      P.sha256Hex input.flowToken = P.sha256Hex flowToken ∧
        isoLt t (now + cfg.accessCodeTtlMs) := by
    simp [isFoundBy, newChallenge, Challenge.isPending]
  have hlater : isoLt now row.createdAt ↔ ∃ c ∈ d.challenges, c.linkId = input.linkId ∧
      c.flowHash = P.sha256Hex flowToken ∧ c.isPending t = true ∧
        c.recipientId = some recipientId ∧ isoLt now c.createdAt := by
    constructor
    · intro h
      refine ⟨row, hmem, hlink, hflow, ?_, hrec, h⟩
      simp [Challenge.isPending, hn, hexp]
    · rintro ⟨c, hc, h1, h2, h3, -, h5⟩
      have hle := Table.latest_le hrow (List.mem_filter.2 ⟨hc, by simp [h1, h2, h3]⟩)
      exact lt_of_lt_of_le h5 hle
  rw [accepts_iff_row, hfound]
  unfold Undisturbed
  rw [← hlater]
  simp only [not_or] at hrefused
  by_cases hx : isFoundBy P t input.linkId flowToken (newChallenge P cfg now draw input) = true
  · obtain ⟨hf, ht⟩ := hnew.1 hx
    rw [if_pos hx]
    by_cases hlt : isoLt now row.createdAt
    · have hlt' : isoKey (newChallenge P cfg now draw input).createdAt < isoKey row.createdAt := hlt
      rw [if_pos hlt']
      exact ⟨fun _ => by simp [hlt], fun _ => ⟨row, rfl, hcode, hrec⟩⟩
    · have hlt' : ¬ isoKey (newChallenge P cfg now draw input).createdAt < isoKey row.createdAt :=
        hlt
      rw [if_neg hlt']
      constructor
      · rintro ⟨x, hx, -, hxr⟩
        cases hx
        exact absurd (Option.some.inj hxr) hne
      · intro h
        rcases h with h | h | h | h | h
        · exact absurd h hrefused.1
        · exact absurd h hrefused.2
        · exact absurd hf h
        · exact absurd ht h
        · exact absurd h hlt
  · rw [if_neg hx]
    refine ⟨fun _ => ?_, fun _ => ⟨row, rfl, hcode, hrec⟩⟩
    by_cases hf : P.sha256Hex input.flowToken = P.sha256Hex flowToken
    · exact .inr (.inr (.inr (.inl fun ht => hx (hnew.2 ⟨hf, ht⟩))))
    · exact .inr (.inr (.inl hf))

/-! ## One browser, two people -/

/-- An open link with two people on it. -/
def twoPeople : DeliveryDb :=
  { Codes.twoLinks with
    linkRecipients := [⟨"r_1", "l_1", "a@b.c", .en, 0, none, 0⟩,
      ⟨"r_2", "l_1", "d@e.f", .en, 0, none, 0⟩] }

/-- The database after the first person asked for a code in the browser `flow`. -/
def oneCode : DeliveryDb :=
  afterCreate .sample defaultConfig 0 ⟨"1", "123456", "salt"⟩ ⟨"l_1", "r_1", "flow", none⟩ twoPeople

/-- A code for the second person ends the one the first person is typing in the same browser, or
not, as the condition says; in another browser it does not. -/
theorem accepts_iff_oneCode :
    (accepts .sample defaultConfig 2 "l_1" "flow" "123456" "r_1"
        (afterCreate .sample defaultConfig 1 ⟨"2", "654321", "salt"⟩ ⟨"l_1", "r_2", "flow", none⟩
          oneCode) ↔
        Undisturbed .sample defaultConfig 1 2 ⟨"2", "654321", "salt"⟩
          ⟨"l_1", "r_2", "flow", none⟩ "flow" "r_1" oneCode) ∧
      (∀ t', limitReached defaultConfig t' "r_1" (afterCreate .sample defaultConfig 1
          ⟨"2", "654321", "salt"⟩ ⟨"l_1", "r_2", "flow", none⟩ oneCode) ↔
        limitReached defaultConfig t' "r_1" oneCode) ∧
      accepts .sample defaultConfig 2 "l_1" "flow" "123456" "r_1"
        (afterCreate .sample defaultConfig 1 ⟨"2", "654321", "salt"⟩
          ⟨"l_1", "r_2", "other", none⟩ oneCode) := by
  have hok : accepts .sample defaultConfig 2 "l_1" "flow" "123456" "r_1" oneCode := by
    unfold accepts
    decide
  have hsame := accepts_iff .sample defaultConfig 1 2 ⟨"2", "654321", "salt"⟩
    ⟨"l_1", "r_2", "flow", none⟩ "flow" "123456" "r_1" oneCode (by decide) hok
  have hother := accepts_iff .sample defaultConfig 1 2 ⟨"2", "654321", "salt"⟩
    ⟨"l_1", "r_2", "other", none⟩ "flow" "123456" "r_1" oneCode (by decide) hok
  exact ⟨hsame.1, hsame.2, hother.1.2 (.inr (.inr (.inl (by decide))))⟩

/-- The second person of the link asks for a code in the same browser, and the
code the first person is typing stops working. -/
theorem code_cancelled_by_other :
    accepts .sample defaultConfig 2 "l_1" "flow" "123456" "r_1" oneCode ∧
      ¬ accepts .sample defaultConfig 2 "l_1" "flow" "123456" "r_1"
        (afterCreate .sample defaultConfig 1 ⟨"2", "654321", "salt"⟩ ⟨"l_1", "r_2", "flow", none⟩
          oneCode) := by
  unfold accepts
  decide

end Sharing

end Outletbox
