import Outletbox.Services.Access
import Outletbox.Services.Links

/-!
# The migration to shared links

`004_shared_links.sql`, statement by statement.  Before it a link had one address
and one language of its own, and a code or a session belonged to the link.  What
the program read of the old tables is stated with the present program's reading
of the new ones, without the column that the migration adds.
-/

namespace Outletbox

namespace Migration

/-! ## The old tables -/

/-- `links` before the migration. -/
structure OldLink extends Link where
  recipientEmail : String
  lang : Lang

/-- `challenges` before the migration. -/
structure OldChallenge where
  id : String
  linkId : String
  codeHash : PasswordHash
  flowHash : String
  attempts : Nat
  createdAt : Int
  expiresAt : Int
  consumedAt : Option Int
  ip : Option String
  deriving DecidableEq

/-- `access_sessions` before the migration. -/
structure OldSession where
  idHash : String
  linkId : String
  csrfToken : String
  createdAt : Int
  expiresAt : Int
  ip : Option String
  deriving DecidableEq

/-- The tables of the deliveries before the migration. -/
structure OldDb where
  cases : List Case
  items : List ItemRow
  links : List OldLink
  challenges : List OldChallenge
  accessSessions : List OldSession

/-- The constraints of the schema. -/
structure OldDb.Valid (d : OldDb) : Prop where
  linkIds : (d.links.map (·.id)).Nodup
  tokens : (d.links.map (·.tokenHash)).Nodup
  challengeIds : (d.challenges.map (·.id)).Nodup
  sessionIds : (d.accessSessions.map (·.idHash)).Nodup
  linkCases : ∀ l ∈ d.links, ∃ c ∈ d.cases, c.id = l.caseId
  challengeLinks : ∀ c ∈ d.challenges, ∃ l ∈ d.links, l.id = c.linkId
  sessionLinks : ∀ s ∈ d.accessSessions, ∃ l ∈ d.links, l.id = s.linkId

/-! ## The statements -/

/-- `'r_' || lower(hex(randomblob(8)))`, the other columns from the link. -/
def recipientOf (random : String) (l : OldLink) : LinkRecipient where
  id := "r_" ++ random
  linkId := l.id
  email := l.recipientEmail
  lang := l.lang
  opens := l.opensUsed
  lastOpenedAt := if 0 < l.opensUsed then l.lastUsedAt else none
  createdAt := l.createdAt

/-- `INSERT INTO link_recipients .. SELECT .. FROM links`; the `n`-th row takes the `n`-th drawn
value. -/
def insertRecipientRows (random : Nat → String) :
    Nat → List OldLink → List LinkRecipient → Except Failure (List LinkRecipient)
  | _, [], rows => .ok rows
  | n, l :: ls, rows =>
      let row := recipientOf (random n) l
      if rows.any fun r => r.id == row.id || r.linkId == row.linkId && r.email == row.email then
        .error .constraint
      else insertRecipientRows random (n + 1) ls (rows ++ [row])

/-- `ALTER TABLE challenges ADD COLUMN recipient_id`. -/
def OldChallenge.withRecipient (c : OldChallenge) (recipientId : Option String) : Challenge :=
  ⟨c.id, c.linkId, recipientId, c.codeHash, c.flowHash, c.attempts, c.createdAt, c.expiresAt,
    c.consumedAt, c.ip⟩

/-- `ALTER TABLE access_sessions ADD COLUMN recipient_id`. -/
def OldSession.withRecipient (s : OldSession) (recipientId : Option String) : AccessSessionRow :=
  ⟨s.idHash, s.linkId, recipientId, s.csrfToken, s.createdAt, s.expiresAt, s.ip⟩

/-- `(SELECT r.id FROM link_recipients r WHERE r.link_id = ..)`. -/
def recipientOfLink (rows : List LinkRecipient) (linkId : String) : Option String :=
  (rows.find? fun r => r.linkId == linkId).map (·.id)

/-- `004_shared_links.sql`, in its transaction.  The tables it leaves out are those of the groups,
which it creates empty. -/
def sharedLinks (random : Nat → String) (d : OldDb) : Except Failure DeliveryDb := do
  let linkRecipients ← insertRecipientRows random 0 d.links []
  let challenges := d.challenges.map fun c => c.withRecipient none
  let accessSessions := d.accessSessions.map fun s => s.withRecipient none
  let challenges := challenges.map fun c =>
    { c with recipientId := recipientOfLink linkRecipients c.linkId }
  let accessSessions := accessSessions.map fun s =>
    { s with recipientId := recipientOfLink linkRecipients s.linkId }
  let links := d.links.map OldLink.toLink
  .ok ⟨d.cases, [], d.items, links, linkRecipients, challenges, accessSessions⟩

/-! ## What was read of the old tables -/

/-- The columns of a challenge that were there before. -/
def oldChallenge (c : Challenge) : OldChallenge :=
  ⟨c.id, c.linkId, c.codeHash, c.flowHash, c.attempts, c.createdAt, c.expiresAt, c.consumedAt, c.ip⟩

/-- The columns of a session that were there before. -/
def oldSession (s : AccessSessionRow) : OldSession :=
  ⟨s.idHash, s.linkId, s.csrfToken, s.createdAt, s.expiresAt, s.ip⟩

variable (P : Platform) (cfg : Config)

/-- Each link has its one recipient, each code and session belongs to the recipient of its link,
and nothing else has changed. -/
structure Preserved (d : OldDb) (d' : DeliveryDb) : Prop where
  recipients : ∀ l ∈ d.links, ∃ r, listRecipients l.id d' = [r] ∧ r.email = l.recipientEmail ∧
    r.lang = l.lang ∧ r.opens = l.opensUsed ∧
    r.lastOpenedAt = (if 0 < l.opensUsed then l.lastUsedAt else none) ∧ r.createdAt = l.createdAt
  challengeRecipients : ∀ c ∈ d'.challenges, ∃ r ∈ d'.linkRecipients,
    c.recipientId = some r.id ∧ r.linkId = c.linkId
  sessionRecipients : ∀ s ∈ d'.accessSessions, ∃ r ∈ d'.linkRecipients,
    s.recipientId = some r.id ∧ r.linkId = s.linkId
  links : d'.links = d.links.map OldLink.toLink
  challenges : d'.challenges.map oldChallenge = d.challenges
  accessSessions : d'.accessSessions.map oldSession = d.accessSessions
  cases : d'.cases = d.cases
  items : d'.items = d.items

/-- The address that was typed is the one of the link. -/
def OldDb.mayRequest (d : OldDb) (linkId typed : String) : Bool :=
  d.links.any fun l => l.id == linkId && l.recipientEmail == normalizeEmail P typed

/-- The newest pending challenge of a link and a browser. -/
def OldDb.pendingRow (d : OldDb) (now : Int) (linkId flowToken : String) : Option OldChallenge :=
  Table.latest (fun c => isoKey c.createdAt)
    (d.challenges.filter fun c =>
      c.linkId == linkId && c.flowHash == P.sha256Hex flowToken &&
        (c.consumedAt.isNone && isoLt now c.expiresAt))

/-- A typed code is accepted. -/
def OldDb.redeems (d : OldDb) (now : Int) (input : VerifyInput) : Bool :=
  (d.pendingRow P now input.linkId input.flowToken).any fun c =>
    normalizeCode input.code != "" && verifyPassword P (normalizeCode input.code) c.codeHash

/-- The session of a cookie, unless it has expired. -/
def OldDb.liveSession (d : OldDb) (now : Int) (sessionId : String) : Option OldSession :=
  (d.accessSessions.find? fun s => s.idHash == P.sha256Hex sessionId).filter
    fun s => !isoLe s.expiresAt now

/-- The same addresses may ask for a code, the same codes are pending and accepted, and the same
sessions are live. -/
structure SameAccess (d : OldDb) (d' : DeliveryDb) : Prop where
  mayRequest : ∀ linkId typed,
    (findRecipient P (listRecipients linkId d') typed).isSome = d.mayRequest P linkId typed
  pending : ∀ now linkId flowToken,
    (pendingRow P now linkId flowToken d').map oldChallenge = d.pendingRow P now linkId flowToken
  redeems : ∀ now input,
    (∃ r, (verifyChallenge P cfg now input d').1 = .ok r) ↔ d.redeems P now input = true
  live : ∀ now sessionId, ((getAccessSession P now sessionId d').1.map fun s =>
      (s.linkId, s.csrfToken, s.expiresAt)) =
    (d.liveSession P now sessionId).map fun s => (s.linkId, s.csrfToken, s.expiresAt)

/-! ## The recipients -/

section

variable {P cfg} {random : Nat → String} {d : OldDb} {d' : DeliveryDb}

/-- The rows that are inserted. -/
def recipientRows (random : Nat → String) : Nat → List OldLink → List LinkRecipient
  | _, [] => []
  | n, l :: ls => recipientOf (random n) l :: recipientRows random (n + 1) ls

theorem recipientRows_links (n : Nat) (ls : List OldLink) :
    (recipientRows random n ls).map (·.linkId) = ls.map (·.id) := by
  induction ls generalizing n with
  | nil => rfl
  | cons l ls ih => exact congrArg (l.id :: ·) (ih (n + 1))

theorem mem_recipientRows {n : Nat} {ls : List OldLink} {l : OldLink} (hl : l ∈ ls) :
    ∃ k, recipientOf (random k) l ∈ recipientRows random n ls := by
  induction ls generalizing n with
  | nil => cases hl
  | cons x ls ih =>
      rcases List.mem_cons.1 hl with rfl | hl
      · exact ⟨n, List.mem_cons_self ..⟩
      · obtain ⟨k, hk⟩ := ih (n := n + 1) hl
        exact ⟨k, List.mem_cons_of_mem _ hk⟩

/-- With distinct links and distinct random values no row is refused. -/
theorem insertRecipientRows_ok (n : Nat) (ls : List OldLink) (rows : List LinkRecipient)
    (hlinks : (ls.map (·.id)).Nodup) (hnew : ∀ r ∈ rows, ∀ l ∈ ls, r.linkId ≠ l.id)
    (hdrawn : ∀ r ∈ rows, ∀ k, n ≤ k → k < n + ls.length → r.id ≠ "r_" ++ random k)
    (hrandom : ∀ j k, n ≤ j → j < k → k < n + ls.length → random j ≠ random k) :
    insertRecipientRows random n ls rows = .ok (rows ++ recipientRows random n ls) := by
  induction ls generalizing n rows with
  | nil => exact congrArg Except.ok (List.append_nil rows).symm
  | cons l ls ih =>
      rw [List.length_cons] at hdrawn hrandom
      rw [List.map_cons, List.nodup_cons] at hlinks
      have hfree : (rows.any fun r => r.id == (recipientOf (random n) l).id ||
          r.linkId == (recipientOf (random n) l).linkId &&
            r.email == (recipientOf (random n) l).email) = false := by
        refine List.any_eq_false.2 fun r hr => ?_
        rw [Bool.or_eq_true, Bool.and_eq_true, beq_iff_eq, beq_iff_eq, not_or]
        exact ⟨hdrawn r hr n le_rfl (by omega),
          fun h => hnew r hr l (List.mem_cons_self ..) h.1⟩
      have hnext := ih (n + 1) (rows ++ [recipientOf (random n) l]) hlinks.2 ?_ ?_
        fun j k hj hjk hk => hrandom j k (by omega) hjk (by omega)
      · simp only [insertRecipientRows, hfree, Bool.false_eq_true, if_false, hnext, recipientRows,
          List.append_assoc, List.singleton_append]
      · intro r hr x hx
        rcases List.mem_append.1 hr with hr | hr
        · exact hnew r hr x (List.mem_cons_of_mem _ hx)
        · rw [List.mem_singleton.1 hr]
          intro he
          have hid : l.id = x.id := he
          have hmem : x.id ∈ ls.map (·.id) := List.mem_map_of_mem (f := fun l => l.id) hx
          exact hlinks.1 (hid ▸ hmem)
      · intro r hr k hk hlt
        rcases List.mem_append.1 hr with hr | hr
        · exact hdrawn r hr k (by omega) (by omega)
        · rw [List.mem_singleton.1 hr]
          intro he
          have hsame : random n = random k := by
            have hlist := congrArg String.toList he
            rw [recipientOf, String.toList_append, String.toList_append] at hlist
            exact String.toList_injective (List.append_cancel_left hlist)
          exact hrandom n k le_rfl (by omega) (by omega) hsame

/-- The only row of a unique key. -/
theorem filter_of_mem {α κ : Type} [DecidableEq κ] {key : α → κ} {t : List α}
    (hn : (t.map key).Nodup) {r : α} (hr : r ∈ t) : (t.filter fun x => key x == key r) = [r] := by
  induction t with
  | nil => cases hr
  | cons x t ih =>
      rw [List.map_cons, List.nodup_cons] at hn
      rcases List.mem_cons.1 hr with rfl | hr
      · rw [List.filter_cons_of_pos (by simp), List.filter_eq_nil_iff.2]
        intro y hy
        rw [beq_iff_eq]
        exact fun he => hn.1 (he ▸ List.mem_map_of_mem (f := key) hy)
      · have hne : key x ≠ key r := fun he => hn.1 (he ▸ List.mem_map_of_mem (f := key) hr)
        rw [List.filter_cons_of_neg (by simpa using hne), ih hn.2 hr]

/-- The latest row of a table whose rows were mapped with their key. -/
theorem latest_map {α β κ : Type} [LinearOrder κ] {f : α → β} {key : β → κ} (t : List α) :
    Table.latest key (t.map f) = (Table.latest (fun x => key (f x)) t).map f := by
  induction t using List.reverseRecOn with
  | nil => rfl
  | append_singleton t x ih =>
      rw [List.map_append, List.map_singleton, Table.latest_append_row, Table.latest_append_row, ih]
      cases Table.latest (fun x => key (f x)) t with
      | none => rfl
      | some y =>
          simp only [Option.map_some]
          split
          · rfl
          · rfl

/-! ## The tables after the migration -/

/-- What the migration writes. -/
theorem sharedLinks_ok (hv : d.Valid)
    (hrandom : ∀ j k, j < k → k < d.links.length → random j ≠ random k) :
    sharedLinks random d = .ok {
      cases := d.cases
      caseMembers := []
      items := d.items
      links := d.links.map OldLink.toLink
      linkRecipients := recipientRows random 0 d.links
      challenges := d.challenges.map fun c =>
        c.withRecipient (recipientOfLink (recipientRows random 0 d.links) c.linkId)
      accessSessions := d.accessSessions.map fun s =>
        s.withRecipient (recipientOfLink (recipientRows random 0 d.links) s.linkId) } := by
  have hrows : insertRecipientRows random 0 d.links [] = .ok ([] ++ recipientRows random 0 d.links) :=
    insertRecipientRows_ok 0 d.links [] hv.linkIds (fun _ h => nomatch h) (fun _ h => nomatch h)
      fun j k _ hjk hk => hrandom j k hjk (by omega)
  rw [sharedLinks, hrows, Fallible.ok_bind, List.nil_append]
  simp only [List.map_map]
  rfl

/-- A link has the recipient that was made of it, and no other. -/
theorem listRecipients_rows (hv : d.Valid) {l : OldLink} (hl : l ∈ d.links) :
    ∃ k, (recipientRows random 0 d.links).filter (fun r => r.linkId == l.id) =
      [recipientOf (random k) l] := by
  obtain ⟨k, hk⟩ := mem_recipientRows (n := 0) (l := l) hl
  have hn : ((recipientRows random 0 d.links).map (·.linkId)).Nodup := by
    rw [recipientRows_links]
    exact hv.linkIds
  exact ⟨k, filter_of_mem hn hk⟩

theorem recipientOfLink_rows (hv : d.Valid) {l : OldLink} (hl : l ∈ d.links) :
    ∃ k, recipientOf (random k) l ∈ recipientRows random 0 d.links ∧
      recipientOfLink (recipientRows random 0 d.links) l.id = some (recipientOf (random k) l).id := by
  obtain ⟨k, hk⟩ := mem_recipientRows (n := 0) (l := l) hl
  have hn : ((recipientRows random 0 d.links).map (·.linkId)).Nodup := by
    rw [recipientRows_links]
    exact hv.linkIds
  have hfind := Table.find?_of_mem hn hk
  refine ⟨k, hk, ?_⟩
  rw [recipientOfLink]
  exact congrArg (Option.map (·.id)) hfind

theorem of_mem_recipientRows {n : Nat} {ls : List OldLink} {r : LinkRecipient}
    (hr : r ∈ recipientRows random n ls) : ∃ l ∈ ls, ∃ k, r = recipientOf (random k) l := by
  induction ls generalizing n with
  | nil => cases hr
  | cons l ls ih =>
      rcases List.mem_cons.1 hr with rfl | hr
      · exact ⟨l, List.mem_cons_self .., n, rfl⟩
      · obtain ⟨x, hx, k, hk⟩ := ih hr
        exact ⟨x, List.mem_cons_of_mem _ hx, k, hk⟩

theorem preserved_ok (hv : d.Valid)
    (hrandom : ∀ j k, j < k → k < d.links.length → random j ≠ random k)
    (h : sharedLinks random d = .ok d') : Preserved d d' := by
  rw [sharedLinks_ok hv hrandom, Except.ok.injEq] at h
  subst h
  exact {
    recipients := by
      intro l hl
      obtain ⟨k, hk⟩ := listRecipients_rows (d := d) (l := l) hv hl
      exact ⟨recipientOf (random k) l, hk, rfl, rfl, rfl, rfl, rfl⟩
    challengeRecipients := by
      intro c hc
      obtain ⟨old, hold, rfl⟩ := List.mem_map.1 hc
      obtain ⟨l, hl, hid⟩ := hv.challengeLinks old hold
      obtain ⟨k, hk, hlink⟩ := recipientOfLink_rows (d := d) (l := l) hv hl
      refine ⟨_, hk, ?_, hid⟩
      rw [← hid]
      exact hlink
    sessionRecipients := by
      intro s hs
      obtain ⟨old, hold, rfl⟩ := List.mem_map.1 hs
      obtain ⟨l, hl, hid⟩ := hv.sessionLinks old hold
      obtain ⟨k, hk, hlink⟩ := recipientOfLink_rows (d := d) (l := l) hv hl
      refine ⟨_, hk, ?_, hid⟩
      rw [← hid]
      exact hlink
    links := rfl
    challenges := by
      rw [List.map_map]
      exact List.map_id d.challenges
    accessSessions := by
      rw [List.map_map]
      exact List.map_id d.accessSessions
    cases := rfl
    items := rfl }

/-! ## What is read after the migration -/

theorem mayRequest_ok (hv : d.Valid)
    (hrandom : ∀ j k, j < k → k < d.links.length → random j ≠ random k)
    (h : sharedLinks random d = .ok d') (linkId typed : String) :
    (findRecipient P (listRecipients linkId d') typed).isSome = d.mayRequest P linkId typed := by
  rw [sharedLinks_ok hv hrandom, Except.ok.injEq] at h
  subst h
  rw [Bool.eq_iff_iff, findRecipient, List.find?_isSome, OldDb.mayRequest, List.any_eq_true]
  simp only [listRecipients, List.mem_filter, beq_iff_eq, Bool.and_eq_true]
  constructor
  · rintro ⟨r, ⟨hr, hlink⟩, hemail⟩
    obtain ⟨l, hl, k, rfl⟩ := of_mem_recipientRows hr
    exact ⟨l, hl, hlink, hemail⟩
  · rintro ⟨l, hl, hlink, hemail⟩
    obtain ⟨k, hk⟩ := mem_recipientRows (n := 0) (l := l) hl
    exact ⟨recipientOf (random k) l, ⟨hk, hlink⟩, hemail⟩

theorem pending_ok (hp : Preserved d d') (now : Int) (linkId flowToken : String) :
    (pendingRow P now linkId flowToken d').map oldChallenge =
      d.pendingRow P now linkId flowToken := by
  rw [OldDb.pendingRow, ← hp.challenges, List.filter_map, latest_map]
  rfl

theorem redeems_ok (hp : Preserved d d') (now : Int) (input : VerifyInput) :
    (∃ r, (verifyChallenge P cfg now input d').1 = .ok r) ↔ d.redeems P now input = true := by
  rw [OldDb.redeems, ← pending_ok hp, Option.any_map]
  have hv := verified P cfg now input d'
  generalize verifyChallenge P cfg now input d' = answer at hv
  cases hv with
  | nothing hrow => simp [hrow]
  | accepted row hrow hcode =>
      rw [hrow]
      exact iff_of_true ⟨_, rfl⟩ hcode
  | exhausted row hrow hcode hmax =>
      rw [hrow]
      refine iff_of_false (fun ⟨r, hr⟩ => nomatch hr) fun hany => ?_
      exact Bool.false_ne_true (hcode.symm.trans hany)
  | wrong row hrow hcode hmax =>
      rw [hrow]
      refine iff_of_false (fun ⟨r, hr⟩ => nomatch hr) fun hany => ?_
      exact Bool.false_ne_true (hcode.symm.trans hany)

theorem live_ok (hp : Preserved d d') (now : Int) (sessionId : String) :
    ((getAccessSession P now sessionId d').1.map fun s => (s.linkId, s.csrfToken, s.expiresAt)) =
      (d.liveSession P now sessionId).map fun s => (s.linkId, s.csrfToken, s.expiresAt) := by
  rw [OldDb.liveSession, ← hp.accessSessions, List.find?_map]
  have hsame : ((fun s : OldSession => s.idHash == P.sha256Hex sessionId) ∘ oldSession) =
      fun s : AccessSessionRow => s.idHash == P.sha256Hex sessionId := rfl
  rw [hsame, getAccessSession]
  cases d'.accessSessions.find? fun s => s.idHash == P.sha256Hex sessionId with
  | none => rfl
  | some row =>
      simp only []
      by_cases hexpired : isoLe row.expiresAt now
      · rw [if_pos hexpired]
        simp [oldSession, hexpired]
      · rw [if_neg hexpired]
        simpa [oldSession, AccessSessionRow.session] using hexpired

end

/-- The migration to shared links succeeds.  Every link becomes a link with its one recipient, and
who may open what stays the same. -/
theorem sharedLinks_preserves {random : Nat → String} {d : OldDb} (hv : d.Valid)
    (hrandom : ∀ j k, j < k → k < d.links.length → random j ≠ random k) :
    ∃ d', sharedLinks random d = .ok d' ∧ Preserved d d' ∧ SameAccess P cfg d d' := by
  have h := sharedLinks_ok hv hrandom
  have hp := preserved_ok hv hrandom h
  exact ⟨_, h, hp, mayRequest_ok hv hrandom h, pending_ok hp, redeems_ok hp, live_ok hp⟩

/-! ## A database with two links -/

/-- Two links of a case, each with a pending code and an open session. -/
def twoLinks : OldDb where
  cases := [⟨"c_1", "Old", "", .isOpen, 0, 0⟩]
  items := []
  links :=
    [⟨⟨"l_1", "c_1", "Jan", "h", "hint", none, none, none, 2, 0, some 1⟩, "jan@x.test", .pl⟩,
      ⟨⟨"l_2", "c_1", "Eva", "i", "hint", some 90, none, some 3, 1, 0, none⟩, "eva@x.test", .de⟩]
  challenges :=
    [⟨"ch_1", "l_1", ⟨"salt", "key"⟩, "f", 0, 0, 100, none, none⟩,
      ⟨"ch_2", "l_2", ⟨"salt2", "key2"⟩, "f", 1, 5, 105, none, none⟩]
  accessSessions := [⟨"s", "l_1", "x", 0, 100, none⟩, ⟨"t", "l_2", "y", 3, 103, none⟩]

theorem sharedLinks_preserves_twoLinks :
    ∃ d', sharedLinks toString twoLinks = .ok d' ∧ Preserved twoLinks d' ∧
      SameAccess .sample defaultConfig twoLinks d' := by
  refine sharedLinks_preserves .sample defaultConfig
    ⟨by decide, by decide, by decide, by decide, by decide, by decide, by decide⟩ ?_
  intro j k hjk hk
  have hk : k < 2 := hk
  obtain rfl : k = 1 := by omega
  obtain rfl : j = 0 := by omega
  decide

end Migration

end Outletbox
