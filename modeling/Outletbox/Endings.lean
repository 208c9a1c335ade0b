import Outletbox.Access

/-!
# Codes after the end of access

A revocation, a new token, the closing of a case and the removal of a person end
the codes that are on their way, too.  Closing a case deletes sessions but leaves
its codes, so this holds of the runs in which no case is reopened while one of
its codes can still be typed.  The invariant says of every code that was not used
that nothing has ended it, or that its case is closed, or that it is dead anyway.
-/

namespace Outletbox

namespace Endings

open History (Since)

variable (P : Platform) (cfg : Config)

/-! ## What ends a code -/

/-- The event ends access for the link, the case or the person of a code. -/
def EndsCode (c : Challenge) (e : ServerEvent) : Prop :=
  EndsLink c.linkId e.pre.deliveries e.post.deliveries ∨
    ∃ x, c.recipientId = some x ∧ PersonRemoved x e.pre.deliveries e.post.deliveries

/-- Whoever gets in after access has ended presents a code that was sent after it. -/
def CodesEnd (h : List ServerEvent) : Prop :=
  ∀ later grant between ending earlier c a,
    h = later ++ grant :: (between ++ ending :: earlier) → Opened P cfg c a grant →
      EndsCode c ending → ∃ request ∈ between, Sent P cfg c request

/-- From this instant on the code opens nothing, whatever happens to its case. -/
def Dead (now : Int) (c : Challenge) (d : DeliveryDb) : Prop :=
  isoLe c.expiresAt now ∨ ∃ link, getLink c.linkId d = some link ∧
    ((∃ e, link.expiresAt = some e ∧ isoLe e now) ∨ link.isExhausted = true)

/-- The step opens a closed case again. -/
def Reopens (caseId : String) (i : Input) (sv : Server) : Prop :=
  SetsStatus P cfg caseId .isOpen i sv ∧ CaseIs .isClosed caseId sv.deliveries

/-- The clock does not go back, and a case is not opened again while one of its
codes waits to be typed.  The clock and what expires are compared as ISO strings,
as the code does; before the year 10000 these order like the moments. -/
structure env (h : List ServerEvent) (sv : Server) (i : Input) : Prop where
  clock : ∀ e ∈ h, isoLe e.input.now i.now
  reopen : ∀ caseId, Reopens P cfg caseId i sv → ∀ c ∈ sv.deliveries.challenges,
    c.consumedAt = none → ∀ link, getLink c.linkId sv.deliveries = some link →
      link.caseId = caseId → Dead i.now c sv.deliveries

/-! ## The invariant -/

/-- What has become of a code that was not used. -/
inductive Fate (h : List ServerEvent) (d : DeliveryDb) (c : Challenge) : Prop
  /-- It was sent, and nothing has ended it. -/
  | live : Since (Sent P cfg c) (fun e => ¬ EndsCode c e) h → Fate h d c
  | closed (link : Link) : getLink c.linkId d = some link → CaseIs .isClosed link.caseId d →
      Fate h d c
  | dead : (∀ t, (∀ e ∈ h, isoLe e.input.now t) → Dead t c d) → Fate h d c

structure Inv (h : List ServerEvent) (sv : Server) : Prop where
  linkIds : (sv.deliveries.links.map (·.id)).Nodup
  unused : ∀ c ∈ sv.deliveries.challenges, c.consumedAt = none → Fate P cfg h sv.deliveries c

section

variable {P cfg} {h : List ServerEvent} {sv : Server}

theorem Dead.later {now now' : Int} {c : Challenge} {d d' : DeliveryDb}
    {granted : Option AccessSessionRow} {issued : Option Challenge}
    {set : Option (String × CaseStatus)} (hd : Dead now c d) (hn : isoLe now now')
    (ht : Tracks d d' granted issued set) : Dead now' c d' := by
  rcases hd with hexp | ⟨link, hl, hlink⟩
  · exact .inl (le_trans hexp hn)
  · obtain ⟨link', hl', hkept⟩ := ht.link _ link hl
    refine .inr ⟨link', hl', ?_⟩
    rcases hlink with ⟨e, he, hle⟩ | hfull
    · exact .inl ⟨e, hkept.expires.trans he, le_trans hle hn⟩
    · exact .inr (hkept.exhausted hfull)

theorem fate_of_issued {d : DeliveryDb} {c c₀ : Challenge} (hf : Fate P cfg h d c₀)
    (he : c.issued = c₀.issued) : Fate P cfg h d c := by
  obtain ⟨hlink, hperson, -⟩ := issued_inj he
  have hexp : c.expiresAt = c₀.expiresAt := by
    simp only [Challenge.issued, Challenge.mk.injEq] at he
    exact he.2.2.2.2.2.2.2.1
  cases hf with
  | live hs =>
      refine .live (hs.mono (fun e hsent => hsent.of_issued he) fun e hno => ?_)
      unfold EndsCode
      rw [hlink, hperson]
      exact hno
  | closed link hl hc => exact .closed link (hlink ▸ hl) hc
  | dead hd =>
      refine .dead fun t ht => ?_
      unfold Dead
      rw [hlink, hexp]
      exact hd t ht

/-- What a step does to a code it leaves unused. -/
theorem fate_step {c : Challenge} {i : Input} {granted : Option AccessSessionRow}
    {issued : Option Challenge} {set : Option (String × CaseStatus)}
    (he : env P cfg h sv i) (hc : c ∈ sv.deliveries.challenges) (hnone : c.consumedAt = none)
    (hf : Fate P cfg h sv.deliveries c)
    (ht : Tracks sv.deliveries (sv.step P cfg i).1.deliveries granted issued set)
    (hset : ∀ caseId status, set = some (caseId, status) → SetsStatus P cfg caseId status i sv)
    (hlink : ¬ LinkChanged c.linkId sv.deliveries (sv.step P cfg i).1.deliveries)
    (hperson : ∀ x, c.recipientId = some x →
      ¬ PersonRemoved x sv.deliveries (sv.step P cfg i).1.deliveries) :
    Fate P cfg (History.fire (Server.step P cfg) sv i :: h)
      (sv.step P cfg i).1.deliveries c := by
  have hlast : ∀ t, (∀ e ∈ History.fire (Server.step P cfg) sv i :: h, isoLe e.input.now t) →
      isoLe i.now t := fun t hle => hle _ (List.mem_cons_self ..)
  cases hf with
  | live hs =>
      by_cases hends : CaseCloses c.linkId sv.deliveries (sv.step P cfg i).1.deliveries
      · obtain ⟨link, hl, -, hclosed⟩ := hends
        obtain ⟨link', hl', hkept⟩ := ht.link _ link hl
        exact .closed link' hl' (hkept.case ▸ hclosed)
      · refine .live (hs.later ?_)
        rintro ((h | h) | ⟨x, hx, h⟩)
        · exact hlink h
        · exact hends h
        · exact hperson x hx h
  | closed link hl hclosed =>
      obtain ⟨k, hk, hstatus⟩ := hclosed
      obtain ⟨link', hl', hkept⟩ := ht.link _ link hl
      obtain ⟨k', hk', hsame⟩ := ht.case _ k hk
      cases hst : k'.status with
      | isClosed => exact .closed link' hl' ⟨k', hkept.case.symm ▸ hk', hst⟩
      | isOpen =>
          -- Only a request that opens the case again leads here.
          rcases hsame with hsame | hsame
          · rw [hstatus, hst] at hsame
            cases hsame
          · rw [hst] at hsame
            have hdead := he.reopen _ ⟨hset _ _ hsame, k, hk, hstatus⟩ c hc hnone link hl rfl
            exact .dead fun t hle => hdead.later (hlast t hle) ht
  | dead hd =>
      refine .dead fun t hle => (hd t ?_).later (le_refl _) ht
      exact fun e hmem => hle e (List.mem_cons_of_mem _ hmem)

theorem inv_step (hfk : ∀ c ∈ sv.deliveries.challenges, OnLink c.recipientId c.linkId sv.deliveries)
    {i : Input} (he : env P cfg h sv i) (hi : Inv P cfg h sv) :
    Inv P cfg (History.fire (Server.step P cfg) sv i :: h) (sv.step P cfg i).1 := by
  obtain ⟨granted, issued, set, ht, -, hs, hset⟩ := step_tracks (P := P) sv i hfk
  refine ⟨ht.linkIds hi.linkIds, ?_⟩
  intro c hc hnone
  rcases ht.code c hc with hnew | ⟨c₀, hc₀, hissued, hkept⟩
  · exact .live (.now ⟨⟨c, hc, rfl⟩, hs c hnew⟩)
  · obtain ⟨hnone₀, hlink, hperson⟩ := hkept hnone
    obtain ⟨h1, h2, -⟩ := issued_inj hissued
    rw [h1] at hlink
    rw [h2] at hperson
    exact fate_of_issued
      (fate_step he hc₀ hnone₀ (hi.unused c₀ hc₀ hnone₀) ht hset hlink hperson) hissued

theorem inv_of_run (hr : History.Run (Server.step P cfg) (env P cfg) .empty h sv) :
    Inv P cfg h sv := by
  have hstart : Inv P cfg [] .empty :=
    ⟨List.nodup_nil, fun _ hx => absurd hx List.not_mem_nil⟩
  refine hr.invariant hstart ?_
  intro h s i hr he hi
  have hrun : History.Run (Server.step P cfg) Access.env .empty h s :=
    hr.mono fun _ _ _ _ => trivial
  exact inv_step (Access.inv_of_run hrun).codePerson he hi

/-! ## Codes end -/

/-- To send a code ends none. -/
theorem Sent.not_ends {c c' : Challenge} {e : ServerEvent} {i : Input} (hs : Sent P cfg c e)
    (he : e = History.fire (Server.step P cfg) e.pre i) : ¬ EndsCode c' e := by
  obtain ⟨-, r, v, hin, hsent⟩ := hs
  have hi : i = .deliver r := (congrArg History.Event.input he).symm.trans hin
  have hpost : e.post.deliveries = (deliver P cfg r e.pre.deliveries).state := by
    rw [he, hi]
    rfl
  have hquiet : Quiet e.pre.deliveries e.post.deliveries := hpost ▸ quiet_deliver_email hsent.route
  rintro (h | ⟨x, -, h⟩)
  · exact hquiet.not_endsLink _ h
  · exact hquiet.not_personRemoved _ h

/-- An accepted code was not used before, and nothing had ended it. -/
theorem live_of_opened {c : Challenge} {a : AccessSessionRow} {e : ServerEvent}
    (hi : Inv P cfg h e.pre) (he : env P cfg h e.pre e.input) (ho : Opened P cfg c a e) :
    Since (Sent P cfg c) (fun e => ¬ EndsCode c e) h := by
  obtain ⟨-, r, v, hin, hacc⟩ := ho
  obtain ⟨hmem, -, hac, hlink, -⟩ := granted_code hacc
  obtain ⟨d₁, hent, hrow, hcounted, -⟩ := hacc.entered
  obtain ⟨-, -, -, hnone, hexp⟩ := pendingRow_some hrow
  obtain ⟨hopen, -⟩ := Access.openLink_of_resolved hent.resolved hent.available
  obtain ⟨p, rfl⟩ := hent.drops
  have hid : v.resolved.link.id = c.linkId := hlink.symm.trans hac
  have hget : getLink c.linkId e.pre.deliveries = some v.resolved.link := by
    rw [← hid]
    exact Table.find?_of_mem hi.linkIds hopen.mem
  have hclock : ∀ x ∈ h, isoLe x.input.now r.now := by
    have hle := he.clock
    rwa [hin] at hle
  cases hi.unused c hmem hnone with
  | live hs => exact hs
  | closed link hl hclosed =>
      rw [hget] at hl
      cases hl
      obtain ⟨k, hk, hst⟩ := hclosed
      obtain ⟨k', hk', hst'⟩ := hopen.caseOpen
      have hsame : some k = some k' := hk.symm.trans hk'
      cases hsame
      rw [hst] at hst'
      cases hst'
  | dead hd =>
      exfalso
      rcases hd r.now hclock with hle | ⟨link, hl, hlink'⟩
      · exact absurd hexp (not_lt.2 hle)
      rw [hget] at hl
      cases hl
      rcases hlink' with ⟨x, hx, hle⟩ | hfull
      · exact absurd (hopen.notExpired x hx) (not_lt.2 hle)
      · obtain ⟨l, hl, hmay⟩ := List.any_eq_true.1 hcounted
        simp only [Bool.and_eq_true, beq_iff_eq] at hmay
        obtain rfl := Table.eq_of_key hi.linkIds hl hopen.mem hmay.1
        simp [Link.mayOpen, hfull] at hmay

/-- In every run in which no case is opened again while one of its codes waits to
be typed, no code that was sent before access ended leads to a session. -/
theorem codes_end (hr : History.Run (Server.step P cfg) (env P cfg) .empty h sv) :
    CodesEnd P cfg h := by
  rintro later grant between ending earlier c a rfl ho hends
  obtain ⟨i, hrun, he, hfire⟩ := hr.split
  have hin : grant.input = i := congrArg History.Event.input hfire
  have hlive := live_of_opened (inv_of_run hrun) (hin ▸ he) ho
  obtain ⟨i', -, -, hfire'⟩ := hrun.split
  exact hlive.not_after (fun hno => hno hends) fun hsent => Sent.not_ends hsent hfire' hends

end

/-! ## A case that is opened again -/

/-- `root` closes the sample case, or opens it again. -/
def sampleStatus (now : Int) (status : String) : Input :=
  .panel (samplePanel now "sid" 'T' (.work (.caseStatus (newId "c" sampleId)))
    [("status", status)])

/-- The recipient types the code that was sent at 4. -/
def sampleCode (now : Int) : Input :=
  .deliver (sampleDeliver now 'T' .code [("code", "123456")])

/-- A code is sent and typed, the case is closed and opened again. -/
def usedScript : List Input :=
  deliveryScript ++ [sampleCode 5, sampleStatus 6 "closed", sampleStatus 7 "open"]

/-- The history of a list of inputs. -/
def ran (is : List Input) : List ServerEvent × Server :=
  History.replay (Server.step .sample defaultConfig) [] .empty is

theorem env_of_calm {P : Platform} {cfg : Config} {h : List ServerEvent} {sv : Server} {i : Input} (hclock : ∀ e ∈ h, isoLe e.input.now i.now)
    (hcalm : (∀ k ∈ sv.deliveries.cases, k.status = .isOpen) ∨
      ∀ c ∈ sv.deliveries.challenges, c.consumedAt ≠ none) : env P cfg h sv i := by
  refine ⟨hclock, ?_⟩
  rintro caseId ⟨-, k, hk, hst⟩ c hc hnone
  rcases hcalm with hopen | hused
  · rw [hopen k (List.mem_of_find?_eq_some hk)] at hst
    cases hst
  · exact absurd hnone (hused c hc)

theorem codes_end_usedCode :
    CodesEnd .sample defaultConfig (ran usedScript).1 := by
  have hadmits : History.Admits (Server.step .sample defaultConfig) (env .sample defaultConfig)
      [] .empty usedScript := by
    refine ⟨?_, ?_, ?_, ?_, ?_, ?_, ?_, ?_, trivial⟩
    all_goals exact env_of_calm (by decide +kernel) (by decide +kernel)
  exact codes_end (History.run_replay .start hadmits)

/-- A code is on its way when the case is closed. -/
def closing : ServerEvent :=
  History.fire (Server.step .sample defaultConfig) (ran deliveryScript).2 (sampleStatus 5 "closed")

def reopening : ServerEvent :=
  History.fire (Server.step .sample defaultConfig) closing.post (sampleStatus 6 "open")

/-- The code is typed after all. -/
def typing : ServerEvent :=
  History.fire (Server.step .sample defaultConfig) reopening.post (sampleCode 7)

theorem code_survives_closing :
    ∃ h sv, History.Run (Server.step .sample defaultConfig) Access.env .empty h sv ∧
      ¬ CodesEnd .sample defaultConfig h := by
  have hsent : History.Run (Server.step .sample defaultConfig) Access.env .empty
      (ran deliveryScript).1 (ran deliveryScript).2 :=
    History.run_replay .start (History.admits_of_forall (fun _ _ _ => trivial) _ _ deliveryScript)
  have hopen := (hsent.step (sampleStatus 5 "closed") trivial).step (sampleStatus 6 "open") trivial
  refine ⟨_, _, hopen.step (sampleCode 7) trivial, fun hends => ?_⟩
  obtain ⟨a, ha⟩ : ∃ a, a ∈ typing.post.deliveries.accessSessions :=
    List.exists_mem_of_ne_nil _ (by decide +kernel)
  have hbefore : reopening.post.deliveries.accessSessions = [] := by decide +kernel
  have hclosed : ∀ c ∈ reopening.post.deliveries.challenges,
      CaseCloses c.linkId closing.pre.deliveries closing.post.deliveries := by decide +kernel
  obtain ⟨granted, issued, set, ht, hg, -, -⟩ :=
    step_tracks reopening.post (sampleCode 7) (Access.inv_of_run hopen).codePerson
  rcases ht.session a ha with hgr | ⟨hold, -⟩
  · obtain ⟨c, hc⟩ := hg a hgr
    obtain ⟨r, v, hin, hacc⟩ := hc
    have hends' := hends [] typing [reopening] closing (ran deliveryScript).1 c a rfl
      ⟨ha, r, v, hin, hacc⟩ (.inl (.inr (hclosed c (granted_code hacc).1)))
    obtain ⟨request, hmem, -, r', -, hpanel, -⟩ := hends'
    rw [List.mem_singleton.1 hmem] at hpanel
    cases hpanel
  · rw [hbefore] at hold
    cases hold

end Endings

end Outletbox
