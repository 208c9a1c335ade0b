import Outletbox.Library.History
import Outletbox.Services.Access
import Outletbox.Services.Links

/-!
# The opening limit under concurrency

The statements of `POST /d/:token/code` after the code was accepted, of the
operations that manage a link, and of nothing else, one SQL statement (or one
transaction) at a time and in any order.  A redemption keeps its place in a
list of requests in flight: it loads the link, counts the opening, counts it
against the person, and creates the session.  The statements of the management
operations have no place to keep, because none of them tests what an earlier
one did; they may come at any time.
-/

namespace Outletbox

namespace Openings

variable (P : Platform) (cfg : Config)

/-! ## The interleaved system -/

/-- The next statement of a redemption. -/
inductive Stage
  | counting | recording | entering | ended
  deriving DecidableEq

/-- A request that redeems a code: the link it resolved, and the person it found
on the link. -/
structure Flight where
  linkId : String
  recipientId : Option String
  stage : Stage
  deriving DecidableEq

structure State where
  db : DeliveryDb
  flights : List Flight

inductive Statement
  /-- `createCase`. -/
  | createCase (now : Int) (id name description : String)
  /-- `createLink`. -/
  | createLink (now : Int) (draw : LinkDraw) (input : CreateLinkInput)
  /-- `addRecipients`. -/
  | addRecipients (now : Int) (ids : Nat → String) (linkId : String)
      (input : List RecipientInput)
  /-- `removeRecipient`. -/
  | removeRecipient (linkId recipientId : String)
  /-- `revokeLink`. -/
  | revokeLink (now : Int) (id : String)
  /-- The `UPDATE` of `rotateLinkToken`. -/
  | rotateLinkToken (token id : String)
  /-- The `DELETE` of `destroyAccessSessionsForLink`. -/
  | deleteSessions (linkId : String)
  /-- The `UPDATE` of `destroyAccessSessionsForLink`. -/
  | consumeChallenges (now : Int) (linkId : String)
  /-- A redemption resolves its link and its recipient. -/
  | load (linkId : String) (recipientId : Option String)
  /-- `registerOpen` of the redemption at this place. -/
  | registerOpen (now : Int) (place : Nat)
  /-- `recordRecipientOpen` of the redemption at this place. -/
  | recordRecipientOpen (now : Int) (place : Nat)
  /-- The `INSERT` of `createAccessSession` of the redemption at this place. -/
  | createAccessSession (now : Int) (place : Nat) (draw : AccessDraw) (ip : Option String)

/-- What a statement reports. -/
inductive Outcome
  | done
  /-- `registerOpen` on a link: whether the opening was counted. -/
  | opened (linkId : String) (counted : Bool)
  /-- An access session of a link was created. -/
  | entered (linkId : String)
  deriving DecidableEq

/-- A redemption that counted its opening goes on with the person, if it has one. -/
def Flight.counted (f : Flight) : Flight :=
  { f with stage := if f.recipientId.isSome then .recording else .entering }

/-- The database after a call that may fail. -/
def commit {α : Type} (d : DeliveryDb) : Except Failure (α × DeliveryDb) → DeliveryDb
  | .ok (_, d') => d'
  | .error _ => d

/-- Some recipient of the link, or nobody. -/
def isOnLink (d : DeliveryDb) (linkId : String) (recipientId : Option String) : Bool :=
  recipientId.all fun id => (listRecipients linkId d).any (·.id == id)

def step (s : State) : Statement → State × Outcome
  | .createCase now id name description =>
      ({ s with db := commit s.db (Outletbox.createCase now id name description s.db) }, .done)
  | .createLink now draw input =>
      ({ s with db := commit s.db (Outletbox.createLink P cfg now draw input s.db) }, .done)
  | .addRecipients now ids linkId input =>
      ({ s with db := commit s.db (Outletbox.addRecipients P now ids linkId input s.db) }, .done)
  | .removeRecipient linkId recipientId =>
      ({ s with db := (Outletbox.removeRecipient linkId recipientId s.db).2 }, .done)
  | .revokeLink now id => ({ s with db := (Outletbox.revokeLink now id s.db).2 }, .done)
  | .rotateLinkToken token id =>
      ({ s with db := commit s.db (Outletbox.rotateLinkToken P cfg token id s.db) }, .done)
  | .deleteSessions linkId =>
      ({ s with db := deleteSessionsWhere (fun r => r.linkId == linkId) s.db }, .done)
  | .consumeChallenges now linkId =>
      ({ s with db := consumeWhere now (fun c => c.linkId == linkId) s.db }, .done)
  | .load linkId recipientId =>
      if (getLink linkId s.db).isSome && isOnLink s.db linkId recipientId then
        ({ s with flights := s.flights ++ [⟨linkId, recipientId, .counting⟩] }, .done)
      else (s, .done)
  | .registerOpen now place =>
      match s.flights[place]? with
      | some f =>
          if f.stage = .counting then
            let (counted, db) := Outletbox.registerOpen now f.linkId s.db
            (⟨db, s.flights.set place (if counted then f.counted else { f with stage := .ended })⟩,
              .opened f.linkId counted)
          else (s, .done)
      | none => (s, .done)
  | .recordRecipientOpen now place =>
      match s.flights[place]? with
      | some ⟨linkId, some recipientId, .recording⟩ =>
          (⟨Outletbox.recordRecipientOpen now recipientId s.db,
            s.flights.set place ⟨linkId, some recipientId, .entering⟩⟩, .done)
      | _ => (s, .done)
  | .createAccessSession now place draw ip =>
      match s.flights[place]? with
      | some f =>
          if f.stage = .entering then
            match Outletbox.createAccessSession P cfg now draw f.linkId f.recipientId ip s.db with
            | .ok (_, db) =>
                (⟨db, s.flights.set place { f with stage := .ended }⟩, .entered f.linkId)
            | .error _ => ({ s with flights := s.flights.set place { f with stage := .ended } }, .done)
          else (s, .done)
      | none => (s, .done)

/-- The random identifiers a statement gives to new recipients. -/
def Statement.drawn : Statement → Option (Nat → String)
  | .createLink _ draw _ => some draw.recipientIds
  | .addRecipients _ ids _ _ => some ids
  | _ => none

/-- An identifier drawn for a new recipient is not one that a redemption still
in flight holds. -/
def env (_ : List (History.Event State Statement Outcome)) (s : State) (i : Statement) : Prop :=
  ∀ ids, i.drawn = some ids → ∀ f ∈ s.flights, ∀ k, f.recipientId ≠ some (newId "r" (ids k))

/-- A statement that draws no identifier may always come. -/
theorem env_of_undrawn {h : List (History.Event State Statement Outcome)} {s : State}
    {i : Statement} (hi : i.drawn = none) : env h s i := by
  intro ids hids
  rw [hi] at hids
  cases hids

/-- No link, nobody on the way. -/
def start : State := ⟨.empty, []⟩

/-! ## What is counted -/

/-- The openings recorded against the people on a link. -/
def recorded (linkId : String) (d : DeliveryDb) : Nat :=
  ((listRecipients linkId d).map (·.opens)).sum

/-- The access sessions of a link that were ever created. -/
def created (linkId : String) (h : List (History.Event State Statement Outcome)) : Nat :=
  h.countP fun e => e.output == .entered linkId

/-- A redemption of the link that still has to count its opening against a person. -/
def Flight.mayRecord (linkId : String) (f : Flight) : Bool :=
  f.linkId == linkId && f.stage == .recording

/-- A redemption of the link that still has to create its session. -/
def Flight.mayEnter (linkId : String) (f : Flight) : Bool :=
  f.linkId == linkId && (f.stage == .recording || f.stage == .entering)

/-- The openings of a link pay for the sessions and the records made so far and
for those that redemptions in flight have yet to make. -/
structure Inv (h : List (History.Event State Statement Outcome)) (s : State) : Prop where
  linkIds : (s.db.links.map (·.id)).Nodup
  recipientIds : (s.db.linkRecipients.map (·.id)).Nodup
  recipientLink : ∀ r ∈ s.db.linkRecipients, ∃ l ∈ s.db.links, l.id = r.linkId
  flightLink : ∀ f ∈ s.flights, ∃ l ∈ s.db.links, l.id = f.linkId
  enteredLink : ∀ e ∈ h, ∀ linkId, e.output = .entered linkId → ∃ l ∈ s.db.links, l.id = linkId
  flightRecipient : ∀ f ∈ s.flights, ∀ r ∈ s.db.linkRecipients,
    f.recipientId = some r.id → r.linkId = f.linkId
  capped : ∀ l ∈ s.db.links, ∀ m, l.maxOpens = some m → l.opensUsed ≤ m
  paidSessions : ∀ l ∈ s.db.links,
    created l.id h + s.flights.countP (Flight.mayEnter l.id) ≤ l.opensUsed
  paidRecords : ∀ l ∈ s.db.links,
    recorded l.id s.db + s.flights.countP (Flight.mayRecord l.id) ≤ l.opensUsed

theorem inv_start : Inv [] start := by
  constructor <;> simp [start, DeliveryDb.empty]

section

variable {P cfg} {h : List (History.Event State Statement Outcome)} {s : State}

theorem created_cons_of_ne {linkId : String} {e : History.Event State Statement Outcome}
    (he : e.output ≠ .entered linkId) : created linkId (e :: h) = created linkId h := by
  simp [created, he]

theorem created_cons_of_eq {linkId : String} {e : History.Event State Statement Outcome}
    (he : e.output = .entered linkId) : created linkId (e :: h) = created linkId h + 1 := by
  simp [created, he]

theorem created_eq_zero (hi : Inv h s) {linkId : String}
    (hl : ∀ l ∈ s.db.links, l.id ≠ linkId) : created linkId h = 0 := by
  refine List.countP_eq_zero.2 fun e he => ?_
  simp only [beq_iff_eq]
  intro ho
  obtain ⟨l, hmem, hid⟩ := hi.enteredLink e he linkId ho
  exact hl l hmem hid

theorem countP_flights_eq_zero (hi : Inv h s) {linkId : String} {p : Flight → Bool}
    (hl : ∀ l ∈ s.db.links, l.id ≠ linkId) (hp : ∀ f, p f = true → f.linkId = linkId) :
    s.flights.countP p = 0 := by
  refine List.countP_eq_zero.2 fun f hf hpf => ?_
  obtain ⟨l, hmem, hid⟩ := hi.flightLink f hf
  exact hl l hmem (hid.trans (hp f hpf))

theorem recorded_eq_zero (hi : Inv h s) {linkId : String}
    (hl : ∀ l ∈ s.db.links, l.id ≠ linkId) : recorded linkId s.db = 0 := by
  have hnil : listRecipients linkId s.db = [] := by
    refine List.filter_eq_nil_iff.2 fun r hr => ?_
    obtain ⟨l, hmem, hid⟩ := hi.recipientLink r hr
    simp only [beq_iff_eq]
    exact fun he => hl l hmem (hid.trans he)
  simp [recorded, hnil]

/-! ## Statements that count nothing -/

/-- A database in which every link kept its counter or is new, no records were
added, and no person moved to another link. -/
structure Quiet (s : State) (d : DeliveryDb) : Prop where
  linkIds : (d.links.map (·.id)).Nodup
  recipientIds : (d.linkRecipients.map (·.id)).Nodup
  links : ∀ l ∈ d.links,
    (∃ l₀ ∈ s.db.links, l₀.id = l.id ∧ l₀.maxOpens = l.maxOpens ∧ l₀.opensUsed = l.opensUsed) ∨
      (l.opensUsed = 0 ∧ ∀ l₀ ∈ s.db.links, l₀.id ≠ l.id)
  kept : ∀ l ∈ s.db.links, ∃ l' ∈ d.links, l'.id = l.id
  recipients : ∀ r ∈ d.linkRecipients,
    (∃ r₀ ∈ s.db.linkRecipients, r₀.id = r.id ∧ r₀.linkId = r.linkId) ∨
      ((∃ l ∈ d.links, l.id = r.linkId) ∧ ∀ f ∈ s.flights, f.recipientId ≠ some r.id)
  records : ∀ linkId, recorded linkId d ≤ recorded linkId s.db

/-- A database with the same links and people. -/
theorem Quiet.of_eq (hi : Inv h s) {d : DeliveryDb} (hl : d.links = s.db.links)
    (hr : d.linkRecipients = s.db.linkRecipients) : Quiet s d where
  linkIds := hl ▸ hi.linkIds
  recipientIds := hr ▸ hi.recipientIds
  links := fun l hmem => .inl ⟨l, hl ▸ hmem, rfl, rfl, rfl⟩
  kept := fun l hmem => ⟨l, hl ▸ hmem, rfl⟩
  recipients := fun r hmem => .inl ⟨r, hr ▸ hmem, rfl, rfl⟩
  records := fun linkId => by simp [recorded, listRecipients, hr]

/-- An update of columns other than the counters. -/
theorem Quiet.of_update (hi : Inv h s) (id : String) (p : Link → Bool) {f : Link → Link}
    (hid : ∀ l, (f l).id = l.id) (hm : ∀ l, (f l).maxOpens = l.maxOpens)
    (ho : ∀ l, (f l).opensUsed = l.opensUsed) : Quiet s (updateLink id p f s.db) where
  linkIds := Table.nodup_update hid hi.linkIds
  recipientIds := hi.recipientIds
  links := by
    intro l hl
    obtain ⟨l₀, hl₀, rfl⟩ := Table.mem_update.1 hl
    refine .inl ⟨l₀, hl₀, ?_⟩
    split
    · exact ⟨(hid l₀).symm, (hm l₀).symm, (ho l₀).symm⟩
    · exact ⟨rfl, rfl, rfl⟩
  kept := by
    intro l hl
    refine ⟨_, Table.mem_update.2 ⟨l, hl, rfl⟩, ?_⟩
    split
    · exact hid l
    · rfl
  recipients := fun r hr => .inl ⟨r, hr, rfl, rfl⟩
  records := fun _ => Nat.le_refl _

/-- Rows added through `insertRecipients` record no opening. -/
theorem recorded_append {d : DeliveryDb} {added : List LinkRecipient} {ids : Nat → String}
    {id : String} (ha : ∀ r ∈ added, AddedTo ids id r) (linkId : String) :
    recorded linkId { d with linkRecipients := d.linkRecipients ++ added } =
      recorded linkId d := by
  have hzero : ((added.filter fun r => r.linkId == linkId).map (·.opens)).sum = 0 := by
    refine List.sum_eq_zero_iff_forall_eq_nat.2 ?_
    intro n hn
    obtain ⟨r, hr, rfl⟩ := List.mem_map.1 hn
    exact (ha r (List.mem_filter.1 hr).1).opens_eq
  simp [recorded, listRecipients, hzero]

/-- What a statement that counts nothing keeps. -/
theorem Inv.quiet (hi : Inv h s) {d : DeliveryDb} (hq : Quiet s d)
    {e : History.Event State Statement Outcome} (he : ∀ linkId, e.output ≠ .entered linkId) :
    Inv (e :: h) { s with db := d } where
  linkIds := hq.linkIds
  recipientIds := hq.recipientIds
  recipientLink := by
    intro r hr
    rcases hq.recipients r hr with ⟨r₀, hr₀, -, hlink⟩ | ⟨hl, -⟩
    · obtain ⟨l, hl, hid⟩ := hi.recipientLink r₀ hr₀
      obtain ⟨l', hl', hid'⟩ := hq.kept l hl
      exact ⟨l', hl', hid'.trans (hid.trans hlink)⟩
    · exact hl
  flightLink := by
    intro f hf
    obtain ⟨l, hl, hid⟩ := hi.flightLink f hf
    obtain ⟨l', hl', hid'⟩ := hq.kept l hl
    exact ⟨l', hl', hid'.trans hid⟩
  enteredLink := by
    intro x hx linkId ho
    rcases List.mem_cons.1 hx with rfl | hx
    · exact absurd ho (he linkId)
    · obtain ⟨l, hl, hid⟩ := hi.enteredLink x hx linkId ho
      obtain ⟨l', hl', hid'⟩ := hq.kept l hl
      exact ⟨l', hl', hid'.trans hid⟩
  flightRecipient := by
    intro f hf r hr hid
    rcases hq.recipients r hr with ⟨r₀, hr₀, hid₀, hlink⟩ | ⟨-, hfresh⟩
    · exact hlink ▸ hi.flightRecipient f hf r₀ hr₀ (hid₀ ▸ hid)
    · exact absurd hid (hfresh f hf)
  capped := by
    intro l hl m hm
    rcases hq.links l hl with ⟨l₀, hl₀, -, hmax, hused⟩ | ⟨hzero, -⟩
    · exact hused ▸ hi.capped l₀ hl₀ m (hmax.trans hm)
    · omega
  paidSessions := by
    intro l hl
    rw [created_cons_of_ne (he l.id)]
    rcases hq.links l hl with ⟨l₀, hl₀, hid, -, hused⟩ | ⟨-, hfresh⟩
    · have hpaid := hi.paidSessions l₀ hl₀
      rw [hid, hused] at hpaid
      exact hpaid
    · have h1 := created_eq_zero hi hfresh
      have h2 := countP_flights_eq_zero hi (p := Flight.mayEnter l.id) hfresh
        (fun f hf => by simp only [Flight.mayEnter, Bool.and_eq_true, beq_iff_eq] at hf; exact hf.1)
      simp only [h1, h2]
      omega
  paidRecords := by
    intro l hl
    have hle := hq.records l.id
    rcases hq.links l hl with ⟨l₀, hl₀, hid, -, hused⟩ | ⟨-, hfresh⟩
    · have hpaid := hi.paidRecords l₀ hl₀
      rw [hid, hused] at hpaid
      simp only []
      omega
    · have h1 := recorded_eq_zero hi hfresh
      have h2 := countP_flights_eq_zero hi (p := Flight.mayRecord l.id) hfresh
        (fun f hf => by simp only [Flight.mayRecord, Bool.and_eq_true, beq_iff_eq] at hf; exact hf.1)
      simp only [h2]
      omega

/-! ## Statements of a redemption -/

/-- What is left to show when a redemption moved to its next stage and no row
was added, deleted or renamed: that the three counts still fit. -/
theorem Inv.advance (hi : Inv h s) {i : Nat} {f : Flight} (hf : s.flights[i]? = some f)
    (f' : Flight) (d : DeliveryDb) (hlink : f'.linkId = f.linkId)
    (hrec : f'.recipientId = f.recipientId)
    (hl : d.links.map (·.id) = s.db.links.map (·.id))
    (hr : d.linkRecipients.map (fun r => (r.id, r.linkId)) =
      s.db.linkRecipients.map (fun r => (r.id, r.linkId)))
    {e : History.Event State Statement Outcome}
    (he : ∀ linkId, e.output = .entered linkId → linkId = f.linkId)
    (hcap : ∀ l ∈ d.links, ∀ m, l.maxOpens = some m → l.opensUsed ≤ m)
    (hses : ∀ l ∈ d.links, created l.id (e :: h) +
      (s.flights.set i f').countP (Flight.mayEnter l.id) ≤ l.opensUsed)
    (hrcd : ∀ l ∈ d.links, recorded l.id d +
      (s.flights.set i f').countP (Flight.mayRecord l.id) ≤ l.opensUsed) :
    Inv (e :: h) ⟨d, s.flights.set i f'⟩ := by
  have hmem : f ∈ s.flights := List.mem_of_getElem? hf
  have hexists : ∀ linkId, (∃ l ∈ s.db.links, l.id = linkId) → ∃ l ∈ d.links, l.id = linkId := by
    intro linkId hex
    have hx : linkId ∈ d.links.map (·.id) := by rw [hl]; exact List.mem_map.2 hex
    exact List.mem_map.1 hx
  have hrow : ∀ r ∈ d.linkRecipients,
      ∃ r₀ ∈ s.db.linkRecipients, r₀.id = r.id ∧ r₀.linkId = r.linkId := by
    intro r hmr
    have hx : (r.id, r.linkId) ∈ d.linkRecipients.map (fun r => (r.id, r.linkId)) :=
      List.mem_map.2 ⟨r, hmr, rfl⟩
    rw [hr] at hx
    obtain ⟨r₀, hr₀, heq⟩ := List.mem_map.1 hx
    exact ⟨r₀, hr₀, (Prod.mk.injEq .. ▸ heq).1, (Prod.mk.injEq .. ▸ heq).2⟩
  have hset : ∀ g ∈ s.flights.set i f',
      ∃ g₀ ∈ s.flights, g₀.linkId = g.linkId ∧ g₀.recipientId = g.recipientId := by
    intro g hg
    rcases List.mem_or_eq_of_mem_set hg with hg | rfl
    · exact ⟨g, hg, rfl, rfl⟩
    · exact ⟨f, hmem, hlink.symm, hrec.symm⟩
  refine ⟨hl ▸ hi.linkIds, ?_, ?_, ?_, ?_, ?_, hcap, hses, hrcd⟩
  · have hids : d.linkRecipients.map (·.id) = s.db.linkRecipients.map (·.id) := by
      have := congrArg (List.map Prod.fst) hr
      simpa only [List.map_map, Function.comp_def] using this
    exact hids ▸ hi.recipientIds
  · intro r hmr
    obtain ⟨r₀, hr₀, -, hid⟩ := hrow r hmr
    exact hid ▸ hexists _ (hi.recipientLink r₀ hr₀)
  · intro g hg
    obtain ⟨g₀, hg₀, hid, -⟩ := hset g hg
    exact hid ▸ hexists _ (hi.flightLink g₀ hg₀)
  · intro x hx linkId ho
    rcases List.mem_cons.1 hx with rfl | hx
    · exact he linkId ho ▸ hexists _ (hi.flightLink f hmem)
    · exact hexists _ (hi.enteredLink x hx linkId ho)
  · intro g hg r hmr hid
    obtain ⟨g₀, hg₀, hgl, hgr⟩ := hset g hg
    obtain ⟨r₀, hr₀, hrid, hrl⟩ := hrow r hmr
    have := hi.flightRecipient g₀ hg₀ r₀ hr₀ (by rw [hgr, hrid, hid])
    rw [← hrl, this, hgl]

/-- A statement that leaves the counters alone and no count of redemptions larger. -/
theorem Inv.settle (hi : Inv h s) {i : Nat} {f : Flight} (hf : s.flights[i]? = some f)
    (f' : Flight) (hlink : f'.linkId = f.linkId) (hrec : f'.recipientId = f.recipientId)
    (hent : ∀ linkId, f'.mayEnter linkId = true → f.mayEnter linkId = true)
    (hrcd : ∀ linkId, f'.mayRecord linkId = true → f.mayRecord linkId = true)
    {e : History.Event State Statement Outcome} (he : ∀ linkId, e.output ≠ .entered linkId) :
    Inv (e :: h) { s with flights := s.flights.set i f' } := by
  refine hi.advance hf f' s.db hlink hrec rfl rfl (fun linkId ho => absurd ho (he linkId)) hi.capped ?_ ?_
  · intro l hl
    have hcount := Table.countP_set_add (p := Flight.mayEnter l.id) f' hf
    have hpaid := hi.paidSessions l hl
    have := hent l.id
    rw [created_cons_of_ne (he l.id)]
    split at hcount <;> split at hcount <;> first | omega | simp_all
  · intro l hl
    have hcount := Table.countP_set_add (p := Flight.mayRecord l.id) f' hf
    have hpaid := hi.paidRecords l hl
    have := hrcd l.id
    split at hcount <;> split at hcount <;> first | omega | simp_all

theorem mayEnter_counted (f : Flight) (linkId : String) :
    f.counted.mayEnter linkId = (f.linkId == linkId) := by
  simp only [Flight.counted, Flight.mayEnter]
  split <;> simp

/-- The statement that counts an opening: the link pays for what is to come. -/
theorem inv_registerOpen (hi : Inv h s) {i : Nat} {f : Flight} (hf : s.flights[i]? = some f)
    (hstage : f.stage = .counting) (now : Int)
    (hok : (Outletbox.registerOpen now f.linkId s.db).1 = true)
    {e : History.Event State Statement Outcome} (he : ∀ linkId, e.output ≠ .entered linkId) :
    Inv (e :: h) ⟨(Outletbox.registerOpen now f.linkId s.db).2, s.flights.set i f.counted⟩ := by
  obtain ⟨l₀, hl₀, hopen⟩ := List.any_eq_true.1 hok
  simp only [Bool.and_eq_true, beq_iff_eq] at hopen
  -- the row that was incremented is the only one of its identifier
  have hrow : ∀ l ∈ (Outletbox.registerOpen now f.linkId s.db).2.links,
      ∃ l' ∈ s.db.links, l'.id = l.id ∧ l'.maxOpens = l.maxOpens ∧
        l.opensUsed = l'.opensUsed + (if l.id = f.linkId then 1 else 0) ∧
        (l.id = f.linkId → l' = l₀) := by
    intro l hl
    obtain ⟨l', hl', rfl⟩ := Table.mem_update.1 hl
    have huniq : l'.id = f.linkId → l' = l₀ := fun hid =>
      Table.eq_of_key hi.linkIds hl' hl₀ (hid.trans hopen.1.symm)
    refine ⟨l', hl', ?_⟩
    by_cases hid : l'.id = f.linkId
    · obtain rfl := huniq hid
      have hp : (l'.id == f.linkId && l'.mayOpen) = true := by simp [hid, hopen.2]
      rw [if_pos hp]
      exact ⟨rfl, rfl, by rw [if_pos hid], fun _ => rfl⟩
    · have hp : ¬ (l'.id == f.linkId && l'.mayOpen) = true := by simp [hid]
      rw [if_neg hp]
      exact ⟨rfl, rfl, by rw [if_neg hid]; rfl, fun hx => absurd hx hid⟩
  refine hi.advance hf f.counted (Outletbox.registerOpen now f.linkId s.db).2 rfl rfl
    (updateLink_ids fun _ => rfl) rfl
    (fun linkId ho => absurd ho (he linkId)) ?_ ?_ ?_
  · intro l hl m hm
    obtain ⟨l', hl', -, hmax, hused, hl0⟩ := hrow l hl
    have hcap := hi.capped l' hl' m (hmax.trans hm)
    by_cases hid : l.id = f.linkId
    · have hlt : l'.isExhausted = false := by
        have hmay := hl0 hid ▸ hopen.2
        simp only [Link.mayOpen, Bool.and_eq_true, Bool.not_eq_true'] at hmay
        exact hmay.2
      simp only [Link.isExhausted, hmax.trans hm, Option.any_some, decide_eq_false_iff_not,
        not_le] at hlt
      rw [if_pos hid] at hused
      omega
    · rw [if_neg hid] at hused
      omega
  · intro l hl
    obtain ⟨l', hl', hid', -, hused, -⟩ := hrow l hl
    have hpaid := hi.paidSessions l' hl'
    have hcount := Table.countP_set_add (p := Flight.mayEnter l.id) f.counted hf
    rw [hid'] at hpaid
    rw [created_cons_of_ne (he l.id)]
    have hf0 : f.mayEnter l.id = false := by simp [Flight.mayEnter, hstage]
    rw [hf0, mayEnter_counted] at hcount
    simp only [Bool.false_eq_true, if_false, beq_iff_eq, eq_comm (a := f.linkId)] at hcount
    omega
  · intro l hl
    obtain ⟨l', hl', hid', -, hused, -⟩ := hrow l hl
    have hpaid := hi.paidRecords l' hl'
    have hcount := Table.countP_set_add (p := Flight.mayRecord l.id) f.counted hf
    rw [hid'] at hpaid
    have hf0 : f.mayRecord l.id = false := by simp [Flight.mayRecord, hstage]
    have hf1 : f.counted.mayRecord l.id = true → l.id = f.linkId := by
      simp only [Flight.mayRecord, Flight.counted, Bool.and_eq_true, beq_iff_eq]
      exact fun hx => hx.1.symm
    rw [hf0] at hcount
    have hsame : recorded l.id (Outletbox.registerOpen now f.linkId s.db).2 =
      recorded l.id s.db := rfl
    rw [hsame]
    by_cases hc : f.counted.mayRecord l.id = true
    · rw [if_pos hc] at hcount
      rw [if_pos (hf1 hc)] at hused
      simp only [Bool.false_eq_true, if_false] at hcount
      omega
    · rw [if_neg hc] at hcount
      simp only [Bool.false_eq_true, if_false] at hcount
      omega

/-- One more opening of a person counts for that person's link alone. -/
theorem recorded_recordRecipientOpen (hi : Inv h s) {f : Flight} (hf : f ∈ s.flights)
    {recipientId : String} (hrec : f.recipientId = some recipientId) (now : Int)
    (linkId : String) :
    recorded linkId (Outletbox.recordRecipientOpen now recipientId s.db) ≤
      recorded linkId s.db + (if f.linkId = linkId then 1 else 0) := by
  have hfilter : listRecipients linkId (Outletbox.recordRecipientOpen now recipientId s.db) =
      Table.update (fun r => r.id == recipientId)
        (fun r => { r with opens := r.opens + 1, lastOpenedAt := some now })
        (listRecipients linkId s.db) :=
    Table.filter_update (q := fun r : LinkRecipient => r.linkId == linkId)
      (f := fun r => { r with opens := r.opens + 1, lastOpenedAt := some now }) (fun _ => rfl) _
  have hsum := Table.sum_map_update_le (p := fun r : LinkRecipient => r.id == recipientId)
    (f := fun r => { r with opens := r.opens + 1, lastOpenedAt := some now })
    (g := fun r => r.opens) (t := listRecipients linkId s.db) (fun _ => Nat.le_refl _)
  unfold recorded
  rw [hfilter]
  by_cases hid : f.linkId = linkId
  · rw [if_pos hid]
    have hone : (listRecipients linkId s.db).countP (fun r => r.id == recipientId) ≤ 1 :=
      Table.countP_key_le_one
        ((List.Sublist.map _ List.filter_sublist).nodup hi.recipientIds) recipientId
    omega
  · rw [if_neg hid]
    have hnone : (listRecipients linkId s.db).countP (fun r => r.id == recipientId) = 0 := by
      refine List.countP_eq_zero.2 fun r hr hrid => ?_
      obtain ⟨hmem, hlink⟩ := List.mem_filter.1 hr
      simp only [beq_iff_eq] at hlink hrid
      exact hid ((hi.flightRecipient f hf r hmem (hrid ▸ hrec)).symm.trans hlink)
    omega

theorem inv_recordRecipientOpen (hi : Inv h s) {i : Nat} {linkId recipientId : String}
    (hf : s.flights[i]? = some ⟨linkId, some recipientId, .recording⟩) (now : Int)
    {e : History.Event State Statement Outcome} (he : ∀ linkId, e.output ≠ .entered linkId) :
    Inv (e :: h) ⟨Outletbox.recordRecipientOpen now recipientId s.db,
      s.flights.set i ⟨linkId, some recipientId, .entering⟩⟩ := by
  refine hi.advance hf ⟨linkId, some recipientId, .entering⟩
    (Outletbox.recordRecipientOpen now recipientId s.db) rfl rfl rfl
    recordRecipientOpen_keys (fun linkId ho => absurd ho (he linkId)) hi.capped ?_ ?_
  · intro l hl
    have hpaid := hi.paidSessions l hl
    have hcount := Table.countP_set_add (p := Flight.mayEnter l.id)
      ⟨linkId, some recipientId, .entering⟩ hf
    rw [created_cons_of_ne (he l.id)]
    simp only [Flight.mayEnter, beq_self_eq_true, Bool.true_or, Bool.or_true] at hcount hpaid ⊢
    omega
  · intro l hl
    have hpaid := hi.paidRecords l hl
    have hcount := Table.countP_set_add (p := Flight.mayRecord l.id)
      ⟨linkId, some recipientId, .entering⟩ hf
    have hrec := recorded_recordRecipientOpen hi (List.mem_of_getElem? hf) rfl now l.id
    have h1 : Flight.mayRecord l.id ⟨linkId, some recipientId, .entering⟩ = false := by
      simp [Flight.mayRecord]
    have h2 : Flight.mayRecord l.id ⟨linkId, some recipientId, .recording⟩ = (linkId == l.id) := by
      simp [Flight.mayRecord]
    rw [h1, h2] at hcount
    simp only [beq_iff_eq, Bool.false_eq_true, if_false] at hcount
    simp only [] at hrec
    omega

/-- A created session is paid for by the redemption that ends with it. -/
theorem inv_createAccessSession (hi : Inv h s) {i : Nat} {f : Flight}
    (hf : s.flights[i]? = some f) (hstage : f.stage = .entering) {d : DeliveryDb}
    (hl : d.links = s.db.links) (hr : d.linkRecipients = s.db.linkRecipients)
    {e : History.Event State Statement Outcome} (he : e.output = .entered f.linkId) :
    Inv (e :: h) ⟨d, s.flights.set i { f with stage := .ended }⟩ := by
  refine hi.advance hf { f with stage := .ended } d rfl rfl (by rw [hl]) (by rw [hr]) ?_ (hl ▸ hi.capped) ?_ ?_
  · intro linkId ho
    rw [he] at ho
    exact (Outcome.entered.inj ho).symm
  · intro l hmem
    have hpaid := hi.paidSessions l (hl ▸ hmem)
    have hcount := Table.countP_set_add (p := Flight.mayEnter l.id) { f with stage := .ended } hf
    have h1 : Flight.mayEnter l.id { f with stage := .ended } = false := by simp [Flight.mayEnter]
    have h2 : f.mayEnter l.id = (f.linkId == l.id) := by simp [Flight.mayEnter, hstage]
    rw [h1, h2] at hcount
    simp only [beq_iff_eq, Bool.false_eq_true, if_false] at hcount
    by_cases hid : f.linkId = l.id
    · rw [created_cons_of_eq (hid ▸ he)]
      rw [if_pos hid] at hcount
      omega
    · rw [created_cons_of_ne (fun ho => hid (Outcome.entered.inj (he.symm.trans ho)))]
      rw [if_neg hid] at hcount
      omega
  · intro l hmem
    have hpaid := hi.paidRecords l (hl ▸ hmem)
    have hcount := Table.countP_set_add (p := Flight.mayRecord l.id) { f with stage := .ended } hf
    have h1 : Flight.mayRecord l.id { f with stage := .ended } = false := by
      simp [Flight.mayRecord]
    have h2 : f.mayRecord l.id = false := by simp [Flight.mayRecord, hstage]
    rw [h1, h2] at hcount
    have hsame : recorded l.id d = recorded l.id s.db := by simp [recorded, listRecipients, hr]
    simp only [hsame]
    simp only [Bool.false_eq_true, if_false] at hcount
    omega

end

/-! ## Every statement, and every run -/

section

variable {P cfg} {h : List (History.Event State Statement Outcome)} {s : State}

/-- People added with new identifiers count nothing. -/
theorem Quiet.of_append {d : DeliveryDb} {ids : Nat → String} {linkId : String}
    {added : List LinkRecipient} (ha : ∀ r ∈ added, AddedTo ids linkId r)
    (hids : ∀ f ∈ s.flights, ∀ k, f.recipientId ≠ some (newId "r" (ids k)))
    (hr : d.linkRecipients = s.db.linkRecipients ++ added)
    (hn : (d.linkRecipients.map (·.id)).Nodup) (hl : (d.links.map (·.id)).Nodup)
    (hex : ∃ l ∈ d.links, l.id = linkId)
    (hnew : ∀ l ∈ d.links, l ∈ s.db.links ∨
      (l.opensUsed = 0 ∧ ∀ l₀ ∈ s.db.links, l₀.id ≠ l.id))
    (hkept : ∀ l ∈ s.db.links, l ∈ d.links) : Quiet s d where
  linkIds := hl
  recipientIds := hn
  links := fun l hmem => (hnew l hmem).imp (fun hm => ⟨l, hm, rfl, rfl, rfl⟩) id
  kept := fun l hmem => ⟨l, hkept l hmem, rfl⟩
  recipients := by
    intro r hmem
    rw [hr] at hmem
    rcases List.mem_append.1 hmem with hmem | hmem
    · exact .inl ⟨r, hmem, rfl, rfl⟩
    · obtain ⟨hlink, -, k, hid⟩ := ha r hmem
      refine .inr ⟨hlink ▸ hex, fun f hf => ?_⟩
      exact hid ▸ hids f hf k
  records := by
    intro id
    have := recorded_append (d := s.db) ha id
    simp only [recorded, listRecipients, hr] at this ⊢
    omega

theorem quiet_createCase (hi : Inv h s) (now : Int) (id name description : String) :
    Quiet s (commit s.db (Outletbox.createCase now id name description s.db)) := by
  cases hc : Outletbox.createCase now id name description s.db with
  | error e => exact .of_eq hi rfl rfl
  | ok r =>
      obtain ⟨c, d⟩ := r
      obtain ⟨-, -, rfl⟩ := createCase_ok hc
      exact .of_eq hi rfl rfl

theorem quiet_createLink (hi : Inv h s) {now : Int} {draw : LinkDraw} {input : CreateLinkInput}
    (henv : env h s (.createLink now draw input)) :
    Quiet s (commit s.db (Outletbox.createLink P cfg now draw input s.db)) := by
  cases hc : Outletbox.createLink P cfg now draw input s.db with
  | error e => exact .of_eq hi rfl rfl
  | ok r =>
      obtain ⟨⟨link, recipients, url⟩, d⟩ := r
      have hn := createLink_nodup hi.recipientIds hc
      obtain ⟨⟨m, -, hlink⟩, -, hfree, hadded, rfl⟩ := createLink_ok hc
      refine .of_append hadded (henv _ rfl) rfl hn ?_
        ⟨link, List.mem_append_right _ (List.mem_singleton.2 rfl), rfl⟩ ?_ ?_
      · exact Table.nodup_append_row hi.linkIds fun l hl => (hfree l hl).1
      · intro l hl
        rcases List.mem_append.1 hl with hl | hl
        · exact .inl hl
        · rw [List.mem_singleton] at hl
          refine .inr ⟨by rw [hl, hlink]; rfl, fun l₀ hl₀ => ?_⟩
          rw [hl]
          exact (hfree l₀ hl₀).1
      · exact fun l hl => List.mem_append_left _ hl

theorem quiet_addRecipients (hi : Inv h s) {now : Int} {ids : Nat → String} {linkId : String}
    {input : List RecipientInput} (henv : env h s (.addRecipients now ids linkId input)) :
    Quiet s (commit s.db (Outletbox.addRecipients P now ids linkId input s.db)) := by
  cases hc : Outletbox.addRecipients P now ids linkId input s.db with
  | error e => exact .of_eq hi rfl rfl
  | ok r =>
      obtain ⟨added, d⟩ := r
      have hn := addRecipients_nodup hi.recipientIds hc
      have hlink := addRecipients_link hc
      obtain ⟨rfl, hadded⟩ := addRecipients_ok hc
      cases hadd : added with
      | nil => exact .of_eq hi rfl (by simp [commit])
      | cons r rs =>
          subst hadd
          exact .of_append hadded (henv _ rfl) rfl hn hi.linkIds
            (hlink (List.cons_ne_nil _ _)) (fun l hl => .inl hl) (fun l hl => hl)

theorem quiet_removeRecipient (hi : Inv h s) (linkId recipientId : String) :
    Quiet s (Outletbox.removeRecipient linkId recipientId s.db).2 := by
  rcases removeRecipient_cases linkId recipientId s.db with ⟨-, he⟩ | ⟨r, -, -, -, -, he⟩
  · rw [he]
    exact .of_eq hi rfl rfl
  · rw [he]
    refine ⟨hi.linkIds, Table.nodup_delete hi.recipientIds, fun l hl => .inl ⟨l, hl, rfl, rfl, rfl⟩,
      fun l hl => ⟨l, hl, rfl⟩, ?_, ?_⟩
    · exact fun r hr => .inl ⟨r, (Table.mem_delete.1 hr).1, rfl, rfl⟩
    · intro id
      have hcomm : listRecipients id (deleteRecipient recipientId s.db) =
          Table.delete (fun r => r.id == recipientId) (listRecipients id s.db) := by
        simp only [listRecipients, deleteRecipient, Table.delete, List.filter_filter]
        exact List.filter_congr fun r _ => Bool.and_comm ..
      simp only [recorded, hcomm]
      exact Table.sum_map_delete_le _

theorem quiet_rotateLinkToken (hi : Inv h s) (token id : String) :
    Quiet s (commit s.db (Outletbox.rotateLinkToken P cfg token id s.db)) := by
  cases hc : Outletbox.rotateLinkToken P cfg token id s.db with
  | error e => exact .of_eq hi rfl rfl
  | ok r =>
      obtain ⟨url, d⟩ := r
      rcases rotateLinkToken_ok hc with ⟨-, -, rfl⟩ | ⟨-, -, -, rfl⟩
      · exact .of_eq hi rfl rfl
      · exact .of_update hi id _ (fun _ => rfl) (fun _ => rfl) (fun _ => rfl)

/-- The redemption at a place that has none, or whose turn it is not, does nothing. -/
theorem Inv.idle (hi : Inv h s) {e : History.Event State Statement Outcome}
    (he : ∀ linkId, e.output ≠ .entered linkId) : Inv (e :: h) s :=
  hi.quiet (.of_eq hi rfl rfl) he

theorem inv_load (hi : Inv h s) {linkId : String} {recipientId : Option String}
    (hl : (getLink linkId s.db).isSome = true) (hr : isOnLink s.db linkId recipientId = true)
    {e : History.Event State Statement Outcome} (he : ∀ linkId, e.output ≠ .entered linkId) :
    Inv (e :: h) { s with flights := s.flights ++ [⟨linkId, recipientId, .counting⟩] } := by
  have hidle := hi.idle he
  obtain ⟨link, hlink⟩ := Option.isSome_iff_exists.1 hl
  have hid : link.id = linkId := by simpa using List.find?_some hlink
  have hmem := List.mem_of_find?_eq_some hlink
  refine ⟨hidle.linkIds, hidle.recipientIds, hidle.recipientLink, ?_, hidle.enteredLink, ?_,
    hidle.capped, ?_, ?_⟩
  · intro f hf
    rcases List.mem_append.1 hf with hf | hf
    · exact hi.flightLink f hf
    · rw [List.mem_singleton] at hf
      exact ⟨link, hmem, by rw [hf]; exact hid⟩
  · intro f hf r hmr hfr
    rcases List.mem_append.1 hf with hf | hf
    · exact hi.flightRecipient f hf r hmr hfr
    · rw [List.mem_singleton] at hf
      subst hf
      simp only [] at hfr
      simp only [isOnLink, hfr, Option.all_some, List.any_eq_true, beq_iff_eq] at hr
      obtain ⟨x, hx, hxid⟩ := hr
      obtain ⟨hxm, hxl⟩ := List.mem_filter.1 hx
      rw [Table.eq_of_key hi.recipientIds hmr hxm hxid.symm]
      simpa using hxl
  · intro l hmemL
    have := hidle.paidSessions l hmemL
    simpa [Flight.mayEnter] using this
  · intro l hmemL
    have := hidle.paidRecords l hmemL
    simpa [Flight.mayRecord] using this

theorem inv_quiet (hi : Inv h s) {i : Statement} (hq : Quiet s (step P cfg s i).1.db)
    (hf : (step P cfg s i).1.flights = s.flights) (hd : (step P cfg s i).2 = .done) :
    Inv (History.fire (step P cfg) s i :: h) (step P cfg s i).1 := by
  have hs : (step P cfg s i).1 = { s with db := (step P cfg s i).1.db } := by rw [← hf]
  rw [hs]
  exact hi.quiet hq (by simp [hd])

/-- One statement keeps the invariant. -/
theorem inv_step (hi : Inv h s) (i : Statement) (henv : env h s i) :
    Inv (History.fire (step P cfg) s i :: h) (step P cfg s i).1 := by
  cases i with
  | createCase now id name description =>
      exact inv_quiet hi (quiet_createCase hi now id name description) rfl rfl
  | createLink now draw input =>
      exact inv_quiet hi (quiet_createLink hi henv) rfl rfl
  | addRecipients now ids linkId input =>
      exact inv_quiet hi (quiet_addRecipients hi henv) rfl rfl
  | removeRecipient linkId recipientId =>
      exact inv_quiet hi (quiet_removeRecipient hi linkId recipientId) rfl rfl
  | revokeLink now id =>
      exact inv_quiet hi (.of_update hi id _ (fun _ => rfl) (fun _ => rfl) (fun _ => rfl)) rfl rfl
  | rotateLinkToken token id =>
      exact inv_quiet hi (quiet_rotateLinkToken hi token id) rfl rfl
  | deleteSessions linkId =>
      exact inv_quiet hi (.of_eq hi rfl rfl) rfl rfl
  | consumeChallenges now linkId =>
      exact inv_quiet hi (.of_eq hi rfl rfl) rfl rfl
  | load linkId recipientId =>
      by_cases hc : ((getLink linkId s.db).isSome && isOnLink s.db linkId recipientId) = true
      · have hstep : step P cfg s (.load linkId recipientId) =
            ({ s with flights := s.flights ++ [⟨linkId, recipientId, .counting⟩] }, .done) := by
          simp only [step, if_pos hc]
        obtain ⟨hl, hr⟩ := (Bool.and_eq_true _ _).mp hc
        rw [hstep]
        exact inv_load hi hl hr (by simp [hstep])
      · have hstep : step P cfg s (.load linkId recipientId) = (s, .done) := by
          simp only [step, if_neg hc]
        rw [hstep]
        exact hi.idle (by simp [hstep])
  | registerOpen now place =>
      cases hf : s.flights[place]? with
      | none =>
          have hstep : step P cfg s (.registerOpen now place) = (s, .done) := by
            simp only [step, hf]
          rw [hstep]
          exact hi.idle (by simp [hstep])
      | some f =>
          by_cases hstage : f.stage = .counting
          · cases hok : (Outletbox.registerOpen now f.linkId s.db).1 with
            | true =>
                have hstep : step P cfg s (.registerOpen now place) =
                    (⟨(Outletbox.registerOpen now f.linkId s.db).2, s.flights.set place f.counted⟩,
                      .opened f.linkId true) := by
                  simp only [step, hf, if_pos hstage, hok, if_true]
                rw [hstep]
                exact inv_registerOpen hi hf hstage now hok (by simp [hstep])
            | false =>
                have hsame : (Outletbox.registerOpen now f.linkId s.db).2 = s.db :=
                  updateLink_eq_self hok
                have hstep : step P cfg s (.registerOpen now place) =
                    ({ s with flights := s.flights.set place { f with stage := .ended } },
                      .opened f.linkId false) := by
                  simp only [step, hf, if_pos hstage, hok, hsame, Bool.false_eq_true, if_false]
                rw [hstep]
                exact hi.settle hf { f with stage := .ended } rfl rfl (by simp [Flight.mayEnter])
                  (by simp [Flight.mayRecord]) (by simp [hstep])
          · have hstep : step P cfg s (.registerOpen now place) = (s, .done) := by
              simp only [step, hf, if_neg hstage]
            rw [hstep]
            exact hi.idle (by simp [hstep])
  | recordRecipientOpen now place =>
      by_cases hf : ∃ linkId recipientId,
          s.flights[place]? = some ⟨linkId, some recipientId, .recording⟩
      · obtain ⟨linkId, recipientId, hf⟩ := hf
        have hstep : step P cfg s (.recordRecipientOpen now place) =
            (⟨Outletbox.recordRecipientOpen now recipientId s.db,
              s.flights.set place ⟨linkId, some recipientId, .entering⟩⟩, .done) := by
          simp only [step, hf]
        rw [hstep]
        exact inv_recordRecipientOpen hi hf now (by simp [hstep])
      · have hstep : step P cfg s (.recordRecipientOpen now place) = (s, .done) := by
          simp only [step]
          split
          · rename_i linkId recipientId heq
            exact absurd ⟨linkId, recipientId, heq⟩ hf
          · rfl
        rw [hstep]
        exact hi.idle (by simp [hstep])
  | createAccessSession now place draw ip =>
      cases hf : s.flights[place]? with
      | none =>
          have hstep : step P cfg s (.createAccessSession now place draw ip) = (s, .done) := by
            simp only [step, hf]
          rw [hstep]
          exact hi.idle (by simp [hstep])
      | some f =>
          by_cases hstage : f.stage = .entering
          · cases hc : Outletbox.createAccessSession P cfg now draw f.linkId f.recipientId ip s.db with
            | ok r =>
                obtain ⟨session, d⟩ := r
                have hstep : step P cfg s (.createAccessSession now place draw ip) =
                    (⟨d, s.flights.set place { f with stage := .ended }⟩, .entered f.linkId) := by
                  simp only [step, hf, if_pos hstage, hc]
                obtain ⟨-, -, hd⟩ := createAccessSession_ok hc
                rw [hstep]
                exact inv_createAccessSession hi hf hstage (by rw [hd]) (by rw [hd])
                  (by simp [hstep])
            | error err =>
                have hstep : step P cfg s (.createAccessSession now place draw ip) =
                    ({ s with flights := s.flights.set place { f with stage := .ended } },
                      .done) := by
                  simp only [step, hf, if_pos hstage, hc]
                rw [hstep]
                exact hi.settle hf { f with stage := .ended } rfl rfl (by simp [Flight.mayEnter])
                  (by simp [Flight.mayRecord]) (by simp [hstep])
          · have hstep : step P cfg s (.createAccessSession now place draw ip) = (s, .done) := by
              simp only [step, hf, if_neg hstage]
            rw [hstep]
            exact hi.idle (by simp [hstep])

/-- The invariant holds after every run. -/
theorem inv_of_run (hr : History.Run (step P cfg) env start h s) : Inv h s :=
  hr.invariant inv_start fun _ _ i _ henv hi => inv_step hi i henv

end

/-! ## How many openings are left -/

/-- What a statement may do to the table of links. -/
inductive LinkEffect (s : State) (i : Statement) : List Link → Outcome → Prop
  /-- No link changed; an opening was refused because no row could be counted up. -/
  | same (o : Outcome) :
      (∀ id b, o = .opened id b → b = false ∧ changesLink id Link.mayOpen s.db = false) →
      LinkEffect s i s.db.links o
  | added (link : Link) : (∀ l ∈ s.db.links, l.id ≠ link.id) →
      LinkEffect s i (s.db.links ++ [link]) .done
  /-- Columns other than the counters changed, and the revocation only by `revokeLink`. -/
  | changed (id : String) (p : Link → Bool) (f : Link → Link) :
      (∀ l, (f l).id = l.id ∧ (f l).maxOpens = l.maxOpens ∧ (f l).opensUsed = l.opensUsed) →
      ((∃ now, i = .revokeLink now id) ∨ ∀ l, (f l).revokedAt = l.revokedAt) →
      LinkEffect s i (updateLink id p f s.db).links .done
  /-- An opening was counted. -/
  | counted (now : Int) (id : String) : changesLink id Link.mayOpen s.db = true →
      LinkEffect s i (Outletbox.registerOpen now id s.db).2.links (.opened id true)

section

variable {P cfg} {s : State}

/-- A statement that leaves the links alone and is no `registerOpen`. -/
theorem LinkEffect.idle {i : Statement} {o : Outcome} {ls : List Link} (hl : ls = s.db.links)
    (ho : ∀ id b, o ≠ .opened id b) : LinkEffect s i ls o :=
  hl ▸ .same o fun id b hob => absurd hob (ho id b)

theorem linkEffect (s : State) (i : Statement) :
    LinkEffect s i (step P cfg s i).1.db.links (step P cfg s i).2 := by
  cases i with
  | createCase now id name description =>
      refine .idle ?_ fun _ _ => Outcome.noConfusion
      simp only [step]
      cases hc : Outletbox.createCase now id name description s.db with
      | error e => rfl
      | ok r =>
          obtain ⟨c, d⟩ := r
          obtain ⟨-, -, rfl⟩ := createCase_ok hc
          rfl
  | createLink now draw input =>
      simp only [step]
      cases hc : Outletbox.createLink P cfg now draw input s.db with
      | error e => exact .idle rfl fun _ _ => Outcome.noConfusion
      | ok r =>
          obtain ⟨⟨link, recipients, url⟩, d⟩ := r
          obtain ⟨-, -, hfree, -, rfl⟩ := createLink_ok hc
          exact .added link fun l hl => (hfree l hl).1
  | addRecipients now ids linkId input =>
      refine .idle ?_ fun _ _ => Outcome.noConfusion
      simp only [step]
      cases hc : Outletbox.addRecipients P now ids linkId input s.db with
      | error e => rfl
      | ok r =>
          obtain ⟨added, d⟩ := r
          obtain ⟨rfl, -⟩ := addRecipients_ok hc
          rfl
  | removeRecipient linkId recipientId =>
      refine .idle ?_ fun _ _ => Outcome.noConfusion
      simp only [step]
      rcases removeRecipient_cases linkId recipientId s.db with ⟨-, he⟩ | ⟨r, -, -, -, -, he⟩ <;>
        rw [he]
      rfl
  | revokeLink now id =>
      exact .changed id _ _ (fun _ => ⟨rfl, rfl, rfl⟩) (.inl ⟨now, rfl⟩)
  | rotateLinkToken token id =>
      simp only [step]
      cases hc : Outletbox.rotateLinkToken P cfg token id s.db with
      | error e => exact .idle rfl fun _ _ => Outcome.noConfusion
      | ok r =>
          obtain ⟨url, d⟩ := r
          rcases rotateLinkToken_ok hc with ⟨-, -, rfl⟩ | ⟨-, -, -, rfl⟩
          · exact .idle rfl fun _ _ => Outcome.noConfusion
          · exact .changed id _ _ (fun _ => ⟨rfl, rfl, rfl⟩) (.inr fun _ => rfl)
  | deleteSessions linkId => exact .idle rfl fun _ _ => Outcome.noConfusion
  | consumeChallenges now linkId => exact .idle rfl fun _ _ => Outcome.noConfusion
  | load linkId recipientId =>
      refine .idle ?_ ?_ <;> (simp only [step]; split) <;> simp
  | registerOpen now place =>
      cases hf : s.flights[place]? with
      | none =>
          simp only [step, hf]
          exact .idle rfl fun _ _ => Outcome.noConfusion
      | some f =>
          by_cases hstage : f.stage = .counting
          · simp only [step, hf, if_pos hstage]
            cases hok : (Outletbox.registerOpen now f.linkId s.db).1 with
            | true => exact .counted now f.linkId hok
            | false =>
                have hsame : (Outletbox.registerOpen now f.linkId s.db).2 = s.db :=
                  updateLink_eq_self hok
                rw [hsame]
                refine .same _ fun id b hob => ?_
                cases hob
                exact ⟨rfl, hok⟩
          · simp only [step, hf, if_neg hstage]
            exact .idle rfl fun _ _ => Outcome.noConfusion
  | recordRecipientOpen now place =>
      refine .idle ?_ ?_ <;> (simp only [step]; split) <;> simp [Outletbox.recordRecipientOpen]
  | createAccessSession now place draw ip =>
      cases hf : s.flights[place]? with
      | none =>
          simp only [step, hf]
          exact .idle rfl fun _ _ => Outcome.noConfusion
      | some f =>
          by_cases hstage : f.stage = .entering
          · simp only [step, hf, if_pos hstage]
            cases hc : Outletbox.createAccessSession P cfg now draw f.linkId f.recipientId ip s.db with
            | error err => exact .idle rfl fun _ _ => Outcome.noConfusion
            | ok r =>
                obtain ⟨session, d⟩ := r
                obtain ⟨-, -, rfl⟩ := createAccessSession_ok hc
                exact .idle rfl fun _ _ => Outcome.noConfusion
          · simp only [step, hf, if_neg hstage]
            exact .idle rfl fun _ _ => Outcome.noConfusion

/-- The identifiers of the links stay distinct. -/
theorem LinkEffect.nodup {i : Statement} {ls : List Link} {o : Outcome}
    (he : LinkEffect s i ls o) (hn : (s.db.links.map (·.id)).Nodup) : (ls.map (·.id)).Nodup := by
  cases he with
  | same o h => exact hn
  | added link hfree => exact Table.nodup_append_row hn hfree
  | changed id p f hf hrev => exact Table.nodup_update (fun l => (hf l).1) hn
  | counted now id h => exact Table.nodup_update (fun _ => by rfl) hn

/-- The answer of a `registerOpen` on the link. -/
def answer (linkId : String) : Outcome → Option Bool
  | .opened id counted => if id = linkId then some counted else none
  | _ => none

/-- What one statement does to a link that is not being revoked: its counter goes
up by one exactly when a `registerOpen` on it succeeds, and one fails exactly
when no opening is left. -/
theorem LinkEffect.link {i : Statement} {ls : List Link} {o : Outcome}
    (he : LinkEffect s i ls o) (hn : (s.db.links.map (·.id)).Nodup) {l : Link}
    (hl : l ∈ s.db.links) (hrev : l.revokedAt = none) (hi : ∀ now, i ≠ .revokeLink now l.id) :
    ∃ l' ∈ ls, l'.id = l.id ∧ l'.revokedAt = none ∧ l'.maxOpens = l.maxOpens ∧
      l'.opensUsed = l.opensUsed + (if answer l.id o = some true then 1 else 0) ∧
      (∀ b, answer l.id o = some b → b = !l.isExhausted) := by
  have hmay : changesLink l.id Link.mayOpen s.db = !l.isExhausted := by
    have hl' : l.mayOpen = !l.isExhausted := by simp [Link.mayOpen, hrev]
    rw [← hl', Bool.eq_iff_iff, changesLink, List.any_eq_true]
    constructor
    · rintro ⟨x, hx, hxp⟩
      simp only [Bool.and_eq_true, beq_iff_eq] at hxp
      rw [← Table.eq_of_key hn hx hl hxp.1]
      exact hxp.2
    · exact fun h => ⟨l, hl, by simp [h]⟩
  cases he with
  | same o ho =>
      refine ⟨l, hl, rfl, hrev, rfl, ?_, ?_⟩ <;> cases o <;>
        simp only [answer, reduceCtorEq, if_false, Nat.add_zero, false_implies, implies_true]
      · rename_i id b
        have := ho id b rfl
        by_cases hid : id = l.id <;> simp [hid, this.1]
      · rename_i id b
        obtain ⟨rfl, hno⟩ := ho id b rfl
        intro b hb
        split at hb
        · rename_i hid
          cases hb
          rw [← hmay, ← hid, hno]
        · cases hb
  | added link hfree =>
      exact ⟨l, List.mem_append_left _ hl, rfl, hrev, rfl, rfl, fun b hb => by cases hb⟩
  | changed id p f hf hrv =>
      refine ⟨_, Table.mem_update.2 ⟨l, hl, rfl⟩, ?_⟩
      by_cases hp : (l.id == id && p l) = true
      · obtain ⟨h1, h2, h3⟩ := hf l
        simp only [Bool.and_eq_true, beq_iff_eq] at hp
        have hkeep : (f l).revokedAt = none := by
          rcases hrv with ⟨now, rfl⟩ | hrv
          · exact absurd (hp.1 ▸ rfl) (hi now)
          · rw [hrv, hrev]
        simp [hp, h1, h2, h3, hkeep, answer]
      · simp [hp, hrev, answer]
  | counted now id hok =>
      refine ⟨_, Table.mem_update.2 ⟨l, hl, rfl⟩, ?_⟩
      by_cases hid : id = l.id
      · subst hid
        have hex : l.isExhausted = false := by
          rw [hok] at hmay
          simpa using hmay.symm
        simp [Link.mayOpen, hrev, hex, answer]
      · have hp : ¬ (l.id == id && l.mayOpen) = true := by simp [Ne.symm hid]
        simp [hp, hrev, answer, hid]

/-- The answers of the `registerOpen` calls on a link, in order. -/
def answers (P : Platform) (cfg : Config) (linkId : String) (s : State) (is : List Statement) :
    List Bool :=
  (History.outputs (step P cfg) s is).filterMap (answer linkId)

/-- As long as a link is not revoked, the openings that are left succeed, and
none after them. -/
theorem answers_eq {is : List Statement} (hn : (s.db.links.map (·.id)).Nodup) {l : Link}
    (hl : l ∈ s.db.links) (hrev : l.revokedAt = none)
    (hi : ∀ i ∈ is, ∀ now, i ≠ .revokeLink now l.id) :
    answers P cfg l.id s is = (List.range (answers P cfg l.id s is).length).map
      fun k => (openingsLeft l).all (k < ·) := by
  induction is generalizing s l with
  | nil => rfl
  | cons i is ih =>
      have he := @linkEffect P cfg s i
      obtain ⟨l', hl', hid, hrev', hmax, hused, hans⟩ :=
        he.link hn hl hrev (hi i (List.mem_cons_self ..))
      have hrest := ih (he.nodup hn) hl' hrev'
        (fun j hj now => hid ▸ hi j (List.mem_cons_of_mem _ hj) now)
      rw [hid] at hrest
      simp only [answers, History.outputs] at hrest ⊢
      cases ha : answer l.id (step P cfg s i).2 with
      | none =>
          have hleft : openingsLeft l' = openingsLeft l := by
            simp [openingsLeft, hmax, hused, ha]
          rw [List.filterMap_cons_none ha]
          rw [hleft] at hrest
          exact hrest
      | some b =>
          rw [List.filterMap_cons_some ha, List.length_cons, List.range_succ_eq_map,
            List.map_cons, List.map_map]
          have hb := hans b ha
          have hhead : b = (openingsLeft l).all (0 < ·) := by
            rw [hb]
            cases hm : l.maxOpens with
            | none => simp [Link.isExhausted, openingsLeft, hm]
            | some m =>
                simp only [Link.isExhausted, openingsLeft, hm, Option.any_some, Option.map_some,
                  Option.all_some, ← decide_not, decide_eq_decide]
                omega
          have htail : ∀ k, (openingsLeft l').all (k < ·) = (openingsLeft l).all (k + 1 < ·) := by
            intro k
            cases hm : l.maxOpens with
            | none => simp [openingsLeft, hmax, hm]
            | some m =>
                simp only [openingsLeft, hmax, hm, Option.map_some, Option.all_some,
                  decide_eq_decide, hused, ha, Option.some.injEq]
                simp only [Link.isExhausted, hm, Option.any_some] at hb
                cases b with
                | true => simp only [if_true]; omega
                | false =>
                    have hle : m ≤ l.opensUsed := by simpa using hb.symm
                    simp only [Bool.false_eq_true, if_false]
                    omega
          rw [← hhead]
          congr 1
          rw [hrest]
          simp only [List.length_map, List.length_range]
          exact List.map_congr_left fun k _ => htail k

end

/-! ## The opening limit -/

/-- The openings of a link never exceed its limit, the sessions ever created for
it and the openings recorded against the people on it never exceed its openings,
and while it is not revoked exactly the openings that are left succeed. -/
theorem opening_cap (P : Platform) (cfg : Config)
    {h : List (History.Event State Statement Outcome)} {s : State}
    (hr : History.Run (step P cfg) env start h s) (l : Link) (hl : l ∈ s.db.links) :
    (∀ m, l.maxOpens = some m → l.opensUsed ≤ m) ∧
      created l.id h ≤ l.opensUsed ∧
      recorded l.id s.db ≤ l.opensUsed ∧
      (l.revokedAt = none → ∀ is : List Statement, (∀ i ∈ is, ∀ now, i ≠ .revokeLink now l.id) →
        answers P cfg l.id s is = (List.range (answers P cfg l.id s is).length).map
          fun k => (openingsLeft l).all (k < ·)) := by
  have hi := inv_of_run hr
  refine ⟨hi.capped l hl, ?_, ?_, fun hrev is his => answers_eq hi.linkIds hl hrev his⟩
  · exact (Nat.le_add_right ..).trans (hi.paidSessions l hl)
  · exact (Nat.le_add_right ..).trans (hi.paidRecords l hl)

/-- Two people redeem their codes for a link with one opening; the second is too late. -/
def lastOpening : List Statement :=
  [.createCase 0 "case000000000000" "Case" "",
    .createLink 1 ⟨"link000000000000", "token", fun n => toString n⟩
      ⟨"c_case000000000000", "", [⟨"a@b.c", .en⟩, ⟨"d@e.f", .de⟩], none, some (some 1)⟩,
    .load "l_link000000000000" (some "r_0"), .load "l_link000000000000" (some "r_1"),
    .registerOpen 2 0, .registerOpen 3 1, .recordRecipientOpen 4 0,
    .createAccessSession 5 0 ⟨"session", "csrf"⟩ none]

/-- The link after that run. -/
def lastOpeningLink : Link :=
  ⟨"l_link000000000000", "c_case000000000000", "Recipient", "sha256:token", "token", none, none,
    some 1, 1, 1, some 2⟩

theorem opening_cap_lastOpening :
    let r := History.replay (step .sample defaultConfig) [] start lastOpening
    (∀ m, lastOpeningLink.maxOpens = some m → lastOpeningLink.opensUsed ≤ m) ∧
      created lastOpeningLink.id r.1 ≤ lastOpeningLink.opensUsed ∧
      recorded lastOpeningLink.id r.2.db ≤ lastOpeningLink.opensUsed ∧
      (lastOpeningLink.revokedAt = none → ∀ is : List Statement,
        (∀ i ∈ is, ∀ now, i ≠ .revokeLink now lastOpeningLink.id) →
        answers .sample defaultConfig lastOpeningLink.id r.2 is =
          (List.range (answers .sample defaultConfig lastOpeningLink.id r.2 is).length).map
            fun k => (openingsLeft lastOpeningLink).all (k < ·)) := by
  have henv : History.Admits (step .sample defaultConfig) env [] start lastOpening :=
    ⟨env_of_undrawn rfl, fun _ _ _ hf => (List.not_mem_nil hf).elim, env_of_undrawn rfl,
      env_of_undrawn rfl, env_of_undrawn rfl, env_of_undrawn rfl, env_of_undrawn rfl,
      env_of_undrawn rfl, trivial⟩
  exact opening_cap .sample defaultConfig (History.run_replay .start henv) lastOpeningLink
    (by decide)

end Openings

end Outletbox
