import Outletbox.Library.History
import Outletbox.Services.Links

/-!
# The people on a link

Links are created and people are added and removed by three functions only.
Whatever lists these are called with, a link has at least one person and at most
`MAX_RECIPIENTS`, each of them under an address of their own.
-/

namespace Outletbox

namespace People

/-! ## The system -/

inductive Op
  | createLink (now : Int) (draw : LinkDraw) (input : CreateLinkInput)
  | addRecipients (now : Int) (ids : Nat → String) (linkId : String) (input : List RecipientInput)
  | removeRecipient (linkId recipientId : String)

inductive Outcome
  | created (link : Link) (recipients : List LinkRecipient)
  | added (rows : List LinkRecipient)
  | removed (result : RemoveResult)
  | threw (e : Failure)

variable (P : Platform) (cfg : Config)

/-- One call.  A call that throws was rolled back: a service returns its tables only with a result,
which is what `transaction` comes to. -/
def step (d : DeliveryDb) : Op → DeliveryDb × Outcome
  | .createLink now draw input =>
      match createLink P cfg now draw input d with
      | .ok ((link, recipients, _), d') => (d', .created link recipients)
      | .error e => (d, .threw e)
  | .addRecipients now ids linkId input =>
      match addRecipients P now ids linkId input d with
      | .ok (rows, d') => (d', .added rows)
      | .error e => (d, .threw e)
  | .removeRecipient linkId recipientId =>
      let (result, d') := removeRecipient linkId recipientId d
      (d', .removed result)

abbrev Event := History.Event DeliveryDb Op Outcome

/-- Any call may come at any time. -/
def env : List Event → DeliveryDb → Op → Prop := fun _ _ _ => True

/-! ## What holds of the tables -/

/-- Every link has its people, under addresses of their own. -/
structure Peopled (d : DeliveryDb) : Prop where
  ids : (d.linkRecipients.map (·.id)).Nodup
  owned : ∀ r ∈ d.linkRecipients, ∃ l ∈ d.links, l.id = r.linkId
  addresses : ∀ linkId, ((listRecipients linkId d).map (·.email)).Nodup
  valid : ∀ r ∈ d.linkRecipients, isValidEmail r.email = true
  atLeastOne : ∀ l ∈ d.links, 1 ≤ recipientCount l.id d
  atMost : ∀ l ∈ d.links, recipientCount l.id d ≤ maxRecipients

/-- A list as `checkRecipients` returns it. -/
def normalized (input : List RecipientInput) : List RecipientInput :=
  input.map fun r => ⟨normalizeEmail P r.email, r.lang⟩

/-- The entries whose address is not on the link. -/
def newcomers (linkId : String) (input : List RecipientInput) (d : DeliveryDb) :
    List RecipientInput :=
  (normalized P input).filter fun r => !onLink linkId r.email d

/-- The first identifiers that were drawn are distinct and not taken. -/
structure FreshIds (ids : Nat → String) (count : Nat) (d : DeliveryDb) : Prop where
  free : ∀ k < count, ∀ r ∈ d.linkRecipients, r.id ≠ newId "r" (ids k)
  distinct : ∀ j < count, ∀ k < count, newId "r" (ids j) = newId "r" (ids k) → j = k

/-- Why people cannot be added to a link. -/
inductive Refusal (ids : Nat → String) (linkId : String) (input : List RecipientInput)
    (d : DeliveryDb) : Prop
  /-- `recipients.none`. -/
  | empty : input = [] → Refusal ids linkId input d
  /-- `recipients.invalid`. -/
  | invalid {r : RecipientInput} : r ∈ input → isValidEmail (normalizeEmail P r.email) = false →
      Refusal ids linkId input d
  /-- `recipients.too_many`: the union would exceed `MAX_RECIPIENTS`. -/
  | tooMany : maxRecipients < recipientCount linkId d + (newcomers P linkId input d).length →
      Refusal ids linkId input d
  /-- There is no such link. -/
  | missing : (∀ l ∈ d.links, l.id ≠ linkId) → Refusal ids linkId input d
  /-- A primary key was drawn twice. -/
  | collision : ¬ FreshIds ids (newcomers P linkId input d).length d → Refusal ids linkId input d

/-- The call made the list of people the union with the input, and changed nothing else; or it was
refused for one of the reasons. -/
def AddsUnion (e : Event) : Prop :=
  ∀ now ids linkId input, e.input = .addRecipients now ids linkId input →
    ((normalized P input).map (·.email)).Nodup →
      (∃ rows, e.output = .added rows ∧
          e.post = { e.pre with linkRecipients := e.pre.linkRecipients ++ rows } ∧
          (rows.map fun r => RecipientInput.mk r.email r.lang) =
            newcomers P linkId input e.pre ∧
          ∀ r ∈ rows, r.linkId = linkId ∧ r.opens = 0 ∧ r.lastOpenedAt = none) ∨
        ∃ failure, e.output = .threw failure ∧ Refusal P ids linkId input e.pre

/-- The call removed one row with what belongs to it, or nothing. -/
def RemovesOne (e : Event) : Prop :=
  ∀ linkId recipientId, e.input = .removeRecipient linkId recipientId →
    (∃ row ∈ e.pre.linkRecipients, row.id = recipientId ∧ row.linkId = linkId ∧
        e.output = .removed (.removed row) ∧
        e.post = { e.pre with
          linkRecipients := e.pre.linkRecipients.filter (· ≠ row)
          challenges := e.pre.challenges.filter (·.recipientId ≠ some row.id)
          accessSessions := e.pre.accessSessions.filter (·.recipientId ≠ some row.id) }) ∨
      ((e.output = .removed .last ∨ e.output = .removed .missing) ∧ e.post = e.pre)

section

variable {P cfg} {now : Int} {ids : Nat → String} {linkId : String} {d d' : DeliveryDb}

/-! ## Checking a list -/

theorem normalizeRecipients_ok {input list : List RecipientInput}
    (h : normalizeRecipients P input = .ok list) :
    list = normalized P input ∧ ∀ r ∈ list, isValidEmail r.email = true := by
  induction input generalizing list with
  | nil =>
      cases h
      exact ⟨rfl, fun _ hr => nomatch hr⟩
  | cons r rs ih =>
      obtain ⟨hvalid, h⟩ := Fallible.guard_eq_ok.1 h
      obtain ⟨rest, hrest, h⟩ := Fallible.bind_eq_ok.1 h
      cases h
      obtain ⟨rfl, hall⟩ := ih hrest
      refine ⟨rfl, fun x hx => ?_⟩
      rcases List.mem_cons.1 hx with rfl | hx
      · simpa using hvalid
      · exact hall x hx

/-- A list of valid addresses passes. -/
theorem normalizeRecipients_valid {input : List RecipientInput}
    (h : ∀ r ∈ input, isValidEmail (normalizeEmail P r.email) = true) :
    normalizeRecipients P input = .ok (normalized P input) := by
  induction input with
  | nil => rfl
  | cons r rs ih =>
      have hr := h r (List.mem_cons_self ..)
      have hrs := ih fun x hx => h x (List.mem_cons_of_mem _ hx)
      simp [normalizeRecipients, hr, hrs, normalized]

theorem checkRecipients_ok {input list : List RecipientInput}
    (h : checkRecipients P input = .ok list) :
    list = normalized P input ∧ list ≠ [] ∧ list.length ≤ maxRecipients ∧
      ∀ r ∈ list, isValidEmail r.email = true := by
  obtain ⟨hne, h⟩ := Fallible.guard_eq_ok.1 h
  obtain ⟨hmax, h⟩ := Fallible.guard_eq_ok.1 h
  obtain ⟨rfl, hvalid⟩ := normalizeRecipients_ok h
  refine ⟨rfl, ?_, ?_, hvalid⟩
  · simpa [normalized] using hne
  · simpa [normalized] using hmax

/-! ## Inserting rows -/

theorem recipientCount_eq (linkId : String) (d : DeliveryDb) :
    recipientCount linkId d = (listRecipients linkId d).length :=
  List.countP_eq_length_filter

theorem onLink_iff {email : String} :
    onLink linkId email d = true ↔ ∃ r ∈ listRecipients linkId d, r.email = email := by
  simp [onLink, listRecipients, and_assoc]

theorem listRecipients_insert {r : LinkRecipient} (linkId : String) (d : DeliveryDb) :
    listRecipients linkId { d with linkRecipients := d.linkRecipients ++ [r] } =
      listRecipients linkId d ++ if r.linkId = linkId then [r] else [] := by
  simp only [listRecipients, List.filter_append]
  congr 1
  by_cases h : r.linkId = linkId
  · simp [h]
  · simp [h]

/-- The rows that were added, and what the table then holds. -/
structure Inserted (linkId : String) (list : List RecipientInput) (added : List LinkRecipient)
    (d d' : DeliveryDb) : Prop where
  addresses : (∀ k, ((listRecipients k d).map (·.email)).Nodup) →
    ∀ k, ((listRecipients k d').map (·.email)).Nodup
  listed : ∀ r ∈ added, ∃ x ∈ list, x.email = r.email
  length_le : added.length ≤ list.length
  onLink : ∀ x ∈ list, onLink linkId x.email d' = true

theorem insertRecipients_inserted {n : Nat} {list : List RecipientInput}
    {added : List LinkRecipient}
    (h : insertRecipients now ids linkId n list d = .ok (added, d')) :
    Inserted linkId list added d d' := by
  induction list generalizing n d added with
  | nil =>
      cases h
      exact ⟨fun h => h, fun _ hr => (nomatch hr), le_rfl, fun _ hx => nomatch hx⟩
  | cons r rs ih =>
      simp only [insertRecipients] at h
      split at h
      · rename_i hon
        have hi := ih h
        refine ⟨hi.addresses, fun x hx => ?_, hi.length_le.trans (Nat.le_succ _), fun x hx => ?_⟩
        · obtain ⟨y, hy, hemail⟩ := hi.listed x hx
          exact ⟨y, List.mem_cons_of_mem _ hy, hemail⟩
        · rcases List.mem_cons.1 hx with rfl | hx
          · obtain ⟨rfl, -⟩ := insertRecipients_ok h
            simp only [onLink, List.any_append] at hon ⊢
            rw [hon, Bool.true_or]
          · exact hi.onLink x hx
      · rename_i hon
        obtain ⟨hfree, h⟩ := Fallible.guard_eq_ok.1 h
        obtain ⟨⟨rest, d₁⟩, hrest, h⟩ := Fallible.bind_eq_ok.1 h
        cases h
        have hi := ih hrest
        refine ⟨fun hall => hi.addresses fun k => ?_, fun x hx => ?_, ?_, fun x hx => ?_⟩
        · rw [listRecipients_insert]
          split
          · rename_i hk
            subst hk
            refine Table.nodup_append_row (hall _) fun x hx hemail => hon ?_
            exact onLink_iff.2 ⟨x, hx, hemail⟩
          · rw [List.append_nil]
            exact hall k
        · rcases List.mem_cons.1 hx with rfl | hx
          · exact ⟨r, List.mem_cons_self .., rfl⟩
          · obtain ⟨y, hy, hemail⟩ := hi.listed x hx
            exact ⟨y, List.mem_cons_of_mem _ hy, hemail⟩
        · exact Nat.succ_le_succ hi.length_le
        · rcases List.mem_cons.1 hx with rfl | hx
          · obtain ⟨hd', -⟩ := insertRecipients_ok hrest
            simp [hd', onLink, newRecipient]
          · exact hi.onLink x hx

/-- Entries that are not on the link yet are all inserted. -/
theorem insertRecipients_all {n : Nat} {list : List RecipientInput} {added : List LinkRecipient}
    (hdistinct : (list.map (·.email)).Nodup)
    (hnew : ∀ x ∈ list, onLink linkId x.email d = false)
    (h : insertRecipients now ids linkId n list d = .ok (added, d')) :
    (added.map fun r => RecipientInput.mk r.email r.lang) = list ∧
      ∀ r ∈ added, r.linkId = linkId ∧ r.opens = 0 ∧ r.lastOpenedAt = none := by
  induction list generalizing n d added with
  | nil =>
      cases h
      exact ⟨rfl, fun _ hr => nomatch hr⟩
  | cons r rs ih =>
      rw [List.map_cons, List.nodup_cons] at hdistinct
      simp only [insertRecipients] at h
      rw [if_neg (by rw [hnew r (List.mem_cons_self ..)]; exact Bool.false_ne_true)] at h
      obtain ⟨-, h⟩ := Fallible.guard_eq_ok.1 h
      obtain ⟨⟨rest, d₁⟩, hrest, h⟩ := Fallible.bind_eq_ok.1 h
      cases h
      have hstill : ∀ x ∈ rs, onLink linkId x.email { d with
          linkRecipients := d.linkRecipients ++ [newRecipient now linkId (ids n) r] } = false := by
        intro x hx
        have hold := hnew x (List.mem_cons_of_mem _ hx)
        have hne : r.email ≠ x.email := fun he =>
          hdistinct.1 (he ▸ List.mem_map_of_mem (f := (·.email)) hx)
        simp only [onLink, List.any_append] at hold ⊢
        simp [hold, newRecipient, hne]
      obtain ⟨hrows, hall⟩ := ih hdistinct.2 hstill hrest
      refine ⟨?_, fun x hx => ?_⟩
      · rw [List.map_cons, hrows]
        rfl
      · rcases List.mem_cons.1 hx with rfl | hx
        · exact ⟨rfl, rfl, rfl⟩
        · exact hall x hx

/-- On a link that exists, rows with fresh identifiers are inserted. -/
theorem insertRecipients_succeeds {n : Nat} {list : List RecipientInput}
    (hlink : ∃ l ∈ d.links, l.id = linkId)
    (hfree : ∀ k, n ≤ k → k < n + list.length → ∀ r ∈ d.linkRecipients, r.id ≠ newId "r" (ids k))
    (hdistinct : ∀ j k, n ≤ j → j < k → k < n + list.length →
      newId "r" (ids j) ≠ newId "r" (ids k)) :
    ∃ r, insertRecipients now ids linkId n list d = .ok r := by
  induction list generalizing n d with
  | nil => exact ⟨_, rfl⟩
  | cons r rs ih =>
      rw [List.length_cons] at hfree hdistinct
      simp only [insertRecipients]
      split
      · exact ih hlink (fun k hk hlt => hfree k (by omega) (by omega))
          fun j k hj hjk hlt => hdistinct j k (by omega) hjk (by omega)
      · have hrow : ¬ ((d.linkRecipients.any fun x => x.id == (newRecipient now linkId (ids n) r).id) ||
            !d.links.any fun l => l.id == linkId) = true := by
          obtain ⟨l, hl, hid⟩ := hlink
          have hexists : (d.links.any fun l => l.id == linkId) = true :=
            List.any_eq_true.2 ⟨l, hl, beq_iff_eq.2 hid⟩
          have hno : (d.linkRecipients.any
              fun x => x.id == (newRecipient now linkId (ids n) r).id) = false := by
            refine List.any_eq_false.2 fun x hx => ?_
            rw [beq_iff_eq]
            exact hfree n le_rfl (by omega) x hx
          rw [hexists, hno]
          exact Bool.false_ne_true
        rw [if_neg hrow]
        have hstill : ∀ k, n + 1 ≤ k → k < n + 1 + rs.length →
            ∀ x ∈ d.linkRecipients ++ [newRecipient now linkId (ids n) r],
              x.id ≠ newId "r" (ids k) := by
          intro k hk hlt x hx
          rcases List.mem_append.1 hx with hx | hx
          · exact hfree k (by omega) (by omega) x hx
          · rw [List.mem_singleton.1 hx]
            exact hdistinct n k le_rfl (by omega) (by omega)
        obtain ⟨result, hresult⟩ := @ih { d with
            linkRecipients := d.linkRecipients ++ [newRecipient now linkId (ids n) r] } (n + 1) hlink
          hstill fun j k hj hjk hlt => hdistinct j k (by omega) hjk (by omega)
        exact ⟨(newRecipient now linkId (ids n) r :: result.1, result.2), by rw [hresult]; rfl⟩

/-! ## Counting people -/

/-- Rows of one link count for that link only. -/
theorem recipientCount_append {rows : List LinkRecipient} (hrows : ∀ r ∈ rows, r.linkId = linkId)
    (k : String) : recipientCount k { d with linkRecipients := d.linkRecipients ++ rows } =
      recipientCount k d + if k = linkId then rows.length else 0 := by
  rw [recipientCount, List.countP_append, ← recipientCount]
  congr 1
  split
  · rename_i hk
    refine List.countP_eq_length.2 fun r hr => ?_
    rw [hk, beq_iff_eq]
    exact hrows r hr
  · rename_i hk
    refine List.countP_eq_zero.2 fun r hr => ?_
    rw [hrows r hr, beq_iff_eq]
    exact Ne.symm hk

/-- Distinct addresses are on the link, or they are new to it. -/
theorem length_le_union {input : List RecipientInput}
    (hdistinct : ((normalized P input).map (·.email)).Nodup) :
    input.length ≤ recipientCount linkId d + (newcomers P linkId input d).length := by
  have hsplit : (normalized P input).length =
      ((normalized P input).filter fun r => onLink linkId r.email d).length +
        (newcomers P linkId input d).length :=
    List.length_eq_length_filter_add _
  have hknown : (((normalized P input).filter fun r => onLink linkId r.email d).map
      (·.email)).length ≤ ((listRecipients linkId d).map (·.email)).length := by
    refine ((hdistinct.sublist (List.filter_sublist.map _)).subperm ?_).length_le
    intro email hemail
    obtain ⟨r, hr, rfl⟩ := List.mem_map.1 hemail
    obtain ⟨x, hx, he⟩ := onLink_iff.1 (List.mem_filter.1 hr).2
    exact he ▸ List.mem_map_of_mem hx
  rw [List.length_map, List.length_map, ← recipientCount_eq] at hknown
  have hlength : (normalized P input).length = input.length := List.length_map _
  omega

theorem recipientCount_pos {email : String} (h : onLink linkId email d = true) :
    1 ≤ recipientCount linkId d := by
  obtain ⟨r, hr, -⟩ := onLink_iff.1 h
  rw [recipientCount_eq]
  exact List.length_pos_of_mem hr

/-! ## What a call keeps -/

/-- Rows that were checked and inserted keep the tables in order, if the link has room. -/
theorem peopled_inserted {list : List RecipientInput} {added : List LinkRecipient}
    {links : List Link} (hp : Peopled d)
    (hlinks : ∀ l ∈ links, l ∈ d.links ∨ l.id = linkId ∧ list ≠ [])
    (hkept : ∀ l ∈ d.links, l ∈ links) (hlink : added ≠ [] → ∃ l ∈ links, l.id = linkId)
    (hids : ((d.linkRecipients ++ added).map (·.id)).Nodup)
    (hrows : ∀ r ∈ added, r.linkId = linkId) (hvalid : ∀ r ∈ list, isValidEmail r.email = true)
    (hi : Inserted linkId list added { d with links }
      { d with links, linkRecipients := d.linkRecipients ++ added })
    (hroom : recipientCount linkId d + added.length ≤ maxRecipients) :
    Peopled { d with links, linkRecipients := d.linkRecipients ++ added } where
  ids := hids
  owned r hr := by
    rcases List.mem_append.1 hr with hr | hr
    · obtain ⟨l, hl, hid⟩ := hp.owned r hr
      exact ⟨l, hkept l hl, hid⟩
    · rw [hrows r hr]
      exact hlink (List.ne_nil_of_mem hr)
  addresses := hi.addresses hp.addresses
  valid r hr := by
    rcases List.mem_append.1 hr with hr | hr
    · exact hp.valid r hr
    · obtain ⟨x, hx, hemail⟩ := hi.listed r hr
      exact hemail ▸ hvalid x hx
  atLeastOne l hl := by
    rcases hlinks l hl with hold | ⟨rfl, hne⟩
    · have hcount := hp.atLeastOne l hold
      have happend : recipientCount l.id { d with links, linkRecipients := d.linkRecipients ++ added } =
          recipientCount l.id d + if l.id = linkId then added.length else 0 :=
        recipientCount_append hrows l.id
      omega
    · obtain ⟨x, rest, rfl⟩ := List.exists_cons_of_ne_nil hne
      exact recipientCount_pos (hi.onLink x (List.mem_cons_self ..))
  atMost l hl := by
    have happend : recipientCount l.id { d with links, linkRecipients := d.linkRecipients ++ added } =
        recipientCount l.id d + if l.id = linkId then added.length else 0 :=
      recipientCount_append hrows l.id
    rw [happend]
    split
    · rename_i hid
      rwa [hid]
    · rename_i hid
      rcases hlinks l hl with hold | ⟨hnew, -⟩
      · exact hp.atMost l hold
      · exact absurd hnew hid

theorem peopled_createLink {draw : LinkDraw} {input : CreateLinkInput}
    {r : Link × List LinkRecipient × String} (hp : Peopled d)
    (h : createLink P cfg now draw input d = .ok (r, d')) : Peopled d' := by
  have hids := createLink_nodup hp.ids h
  obtain ⟨link, recipients, url⟩ := r
  obtain ⟨-, -, hfree, hadded, hd'⟩ := createLink_ok h
  obtain ⟨list, hlist, h⟩ := Fallible.bind_eq_ok.1 h
  obtain ⟨m, -, h⟩ := Fallible.bind_eq_ok.1 h
  obtain ⟨-, h⟩ := Fallible.guard_eq_ok.1 h
  obtain ⟨-, h⟩ := Fallible.guard_eq_ok.1 h
  obtain ⟨-, h⟩ := Fallible.guard_eq_ok.1 h
  obtain ⟨⟨added, d₁⟩, hins, h⟩ := Fallible.bind_eq_ok.1 h
  cases h
  obtain ⟨-, hne, hmax, hvalid⟩ := checkRecipients_ok hlist
  have hi := insertRecipients_inserted hins
  subst hd'
  -- nobody is on a link before it is created
  have hnone : recipientCount (newLink P now draw input m).id d = 0 := by
    refine List.countP_eq_zero.2 fun r hr => ?_
    rw [beq_iff_eq]
    intro hid
    obtain ⟨l, hl, howner⟩ := hp.owned r hr
    exact (hfree l hl).1 (howner.trans hid)
  refine peopled_inserted hp ?_ (fun l hl => List.mem_append_left _ hl) (fun _ => ?_) hids
    (fun r hr => (hadded r hr).linkId_eq) hvalid hi ?_
  · intro l hl
    rcases List.mem_append.1 hl with hl | hl
    · exact .inl hl
    · exact .inr ⟨by rw [List.mem_singleton.1 hl], hne⟩
  · exact ⟨_, List.mem_append_right _ (List.mem_singleton_self _), rfl⟩
  · rw [hnone, Nat.zero_add]
    exact hi.length_le.trans hmax

theorem peopled_addRecipients {input : List RecipientInput} {added : List LinkRecipient}
    (hp : Peopled d) (h : addRecipients P now ids linkId input d = .ok (added, d')) :
    Peopled d' := by
  have hids := addRecipients_nodup hp.ids h
  have hlink := addRecipients_link h
  obtain ⟨rfl, hadded⟩ := addRecipients_ok h
  obtain ⟨list, hlist, h⟩ := Fallible.bind_eq_ok.1 h
  obtain ⟨hroom, hins⟩ := Fallible.guard_eq_ok.1 h
  obtain ⟨-, -, -, hvalid⟩ := checkRecipients_ok hlist
  have hi := insertRecipients_inserted hins
  refine peopled_inserted hp (fun l hl => .inl hl) (fun l hl => hl) hlink hids
    (fun r hr => (hadded r hr).linkId_eq) (fun r hr => hvalid r (List.mem_filter.1 hr).1) hi ?_
  have hlength := hi.length_le
  omega

theorem removed_count {recipientId : String} {row : LinkRecipient}
    (h : (removeRecipient linkId recipientId d).1 = .removed row) :
    1 < recipientCount linkId d := by
  unfold removeRecipient at h
  split at h
  · cases h
  · split at h
    · cases h
    · rename_i hcount
      exact not_le.1 hcount

/-- Deleting a row of a link leaves the other links alone. -/
theorem recipientCount_delete (hids : (d.linkRecipients.map (·.id)).Nodup) {row : LinkRecipient}
    (hrow : row ∈ d.linkRecipients) (k : String) :
    recipientCount k d ≤
      recipientCount k (deleteRecipient row.id d) + if k = row.linkId then 1 else 0 := by
  have hsplit := List.countP_eq_countP_filter_add d.linkRecipients (fun r => r.linkId == k)
    fun r => !(r.id == row.id)
  have hdeleted : (d.linkRecipients.filter fun r => !!(r.id == row.id)).countP
      (fun r => r.linkId == k) ≤ if k = row.linkId then 1 else 0 := by
    split
    · refine (List.countP_le_length).trans ?_
      rw [← List.countP_eq_length_filter]
      simp only [Bool.not_not]
      exact Table.countP_key_le_one hids row.id
    · rename_i hk
      refine le_of_eq (List.countP_eq_zero.2 fun r hr => ?_)
      obtain ⟨hmem, hid⟩ := List.mem_filter.1 hr
      rw [Bool.not_not, beq_iff_eq] at hid
      rw [Table.eq_of_key hids hmem hrow hid, beq_iff_eq]
      exact Ne.symm hk
  show d.linkRecipients.countP _ ≤ (d.linkRecipients.filter _).countP _ + _
  rw [hsplit]
  exact Nat.add_le_add_left hdeleted _

theorem peopled_removeRecipient (hp : Peopled d) (linkId recipientId : String) :
    Peopled (removeRecipient linkId recipientId d).2 := by
  rcases removeRecipient_cases linkId recipientId d with ⟨-, hsame⟩ | ⟨row, hrow, rfl, rfl, hout, hpost⟩
  · rwa [hsame]
  rw [hpost]
  have hcount := removed_count hout
  have hle : ∀ k, recipientCount k (deleteRecipient row.id d) ≤ recipientCount k d := fun k =>
    List.Sublist.countP_le List.filter_sublist
  exact {
    ids := Table.nodup_delete hp.ids
    owned := fun r hr => hp.owned r (List.mem_filter.1 hr).1
    addresses := fun k => (hp.addresses k).sublist ((List.filter_sublist.filter _).map _)
    valid := fun r hr => hp.valid r (List.mem_filter.1 hr).1
    atLeastOne := by
      intro l hl
      have hdelete := recipientCount_delete hp.ids hrow l.id
      have hbefore := hp.atLeastOne l hl
      by_cases hid : l.id = row.linkId
      · rw [if_pos hid] at hdelete
        rw [hid] at hdelete ⊢
        omega
      · rw [if_neg hid] at hdelete
        omega
    atMost := fun l hl => (hle l.id).trans (hp.atMost l hl) }

theorem peopled_step (hp : Peopled d) (op : Op) : Peopled (step P cfg d op).1 := by
  cases op with
  | createLink now draw input =>
      cases h : createLink P cfg now draw input d with
      | error e =>
          have hstep : step P cfg d (.createLink now draw input) = (d, .threw e) := by
            simp only [step, h]
          rwa [hstep]
      | ok r =>
          have hstep : step P cfg d (.createLink now draw input) = (r.2, .created r.1.1 r.1.2.1) := by
            simp only [step, h]
          rw [hstep]
          exact peopled_createLink hp h
  | addRecipients now ids linkId input =>
      cases h : addRecipients P now ids linkId input d with
      | error e =>
          have hstep : step P cfg d (.addRecipients now ids linkId input) = (d, .threw e) := by
            simp only [step, h]
          rwa [hstep]
      | ok r =>
          have hstep : step P cfg d (.addRecipients now ids linkId input) = (r.2, .added r.1) := by
            simp only [step, h]
          rw [hstep]
          exact peopled_addRecipients hp h
  | removeRecipient linkId recipientId => exact peopled_removeRecipient hp linkId recipientId

theorem peopled_run {d₀ : DeliveryDb} {h : List Event} (h0 : Peopled d₀)
    (hr : History.Run (step P cfg) env d₀ h d) : Peopled d :=
  hr.invariant (I := fun _ d => Peopled d) h0 fun _ _ op _ _ hp => peopled_step hp op

/-! ## What a call does -/

theorem threw_unchanged {op : Op} {failure : Failure}
    (h : (step P cfg d op).2 = .threw failure) : (step P cfg d op).1 = d := by
  cases op with
  | createLink now draw input =>
      cases hr : createLink P cfg now draw input d with
      | error e => simp only [step, hr]
      | ok r =>
          simp only [step, hr] at h
          cases h
  | addRecipients now ids linkId input =>
      cases hr : addRecipients P now ids linkId input d with
      | error e => simp only [step, hr]
      | ok r =>
          simp only [step, hr] at h
          cases h
  | removeRecipient linkId recipientId => cases h

theorem addRecipients_union {input : List RecipientInput} {added : List LinkRecipient}
    (hdistinct : ((normalized P input).map (·.email)).Nodup)
    (h : addRecipients P now ids linkId input d = .ok (added, d')) :
    (added.map fun r => RecipientInput.mk r.email r.lang) = newcomers P linkId input d ∧
      ∀ r ∈ added, r.linkId = linkId ∧ r.opens = 0 ∧ r.lastOpenedAt = none := by
  obtain ⟨list, hlist, h⟩ := Fallible.bind_eq_ok.1 h
  obtain ⟨-, hins⟩ := Fallible.guard_eq_ok.1 h
  obtain ⟨rfl, -⟩ := checkRecipients_ok hlist
  refine insertRecipients_all (hdistinct.sublist (List.filter_sublist.map _)) ?_ hins
  intro x hx
  simpa using (List.mem_filter.1 hx).2

/-- A refused call had a reason. -/
theorem addRecipients_refused {input : List RecipientInput} {failure : Failure}
    (hdistinct : ((normalized P input).map (·.email)).Nodup)
    (h : addRecipients P now ids linkId input d = .error failure) :
    Refusal P ids linkId input d := by
  by_contra hno
  have hne : input ≠ [] := fun hempty => hno (.empty hempty)
  have hvalid : ∀ r ∈ input, isValidEmail (normalizeEmail P r.email) = true := by
    intro r hr
    cases hemail : isValidEmail (normalizeEmail P r.email) with
    | true => rfl
    | false => exact (hno (.invalid hr hemail)).elim
  have hroom : recipientCount linkId d + (newcomers P linkId input d).length ≤ maxRecipients :=
    not_lt.1 fun hlt => hno (.tooMany hlt)
  have hmax : input.length ≤ maxRecipients := (length_le_union hdistinct).trans hroom
  have hcheck : checkRecipients P input = .ok (normalized P input) := by
    simp only [checkRecipients, List.isEmpty_iff, hne, if_false, not_lt.2 hmax,
      normalizeRecipients_valid hvalid]
  have hlink : ∃ l ∈ d.links, l.id = linkId := by
    by_contra hmissing
    exact hno (.missing fun l hl hid => hmissing ⟨l, hl, hid⟩)
  have hfresh : FreshIds ids (newcomers P linkId input d).length d := by
    by_contra hcollision
    exact hno (.collision hcollision)
  obtain ⟨r, hr⟩ := @insertRecipients_succeeds now ids linkId d 0 (newcomers P linkId input d) hlink
    (fun k _ hk => hfresh.free k (by omega))
    fun j k _ hjk hk he => absurd (hfresh.distinct j (by omega) k (by omega) he) hjk.ne
  have hok : addRecipients P now ids linkId input d = .ok r := by
    simp only [addRecipients, hcheck, Fallible.ok_bind]
    exact (if_neg (not_lt.2 hroom)).trans hr
  rw [hok] at h
  cases h

theorem addsUnion_fire (d : DeliveryDb) (op : Op) :
    AddsUnion P (History.fire (step P cfg) d op) := by
  rintro now ids linkId input rfl hdistinct
  cases h : addRecipients P now ids linkId input d with
  | error e => exact .inr ⟨e, by simp only [History.fire, step, h], addRecipients_refused hdistinct h⟩
  | ok r =>
      obtain ⟨hrows, hall⟩ := addRecipients_union hdistinct h
      refine .inl ⟨r.1, by simp only [History.fire, step, h], ?_, hrows, hall⟩
      simp only [History.fire, step, h]
      exact (addRecipients_ok h).1

theorem removesOne_fire (hp : Peopled d) (op : Op) :
    RemovesOne (History.fire (step P cfg) d op) := by
  rintro linkId recipientId rfl
  rcases removeRecipient_cases linkId recipientId d with
    ⟨hout, hsame⟩ | ⟨row, hrow, rfl, hlink, hout, hpost⟩
  · refine .inr ⟨?_, hsame⟩
    cases hresult : (removeRecipient linkId recipientId d).1 with
    | removed row => exact absurd hresult (hout row)
    | last => exact .inl (congrArg Outcome.removed hresult)
    | missing => exact .inr (congrArg Outcome.removed hresult)
  · refine .inl ⟨row, hrow, rfl, hlink, congrArg Outcome.removed hout, ?_⟩
    refine hpost.trans ?_
    have hrows : Table.delete (fun r => r.id == row.id) d.linkRecipients =
        d.linkRecipients.filter (· ≠ row) := by
      refine List.filter_congr fun r hr => ?_
      rw [Bool.eq_iff_iff, Bool.not_eq_true', beq_eq_false_iff_ne, decide_eq_true_eq]
      exact ⟨fun hid he => hid (he ▸ rfl), fun hne hid => hne (Table.eq_of_key hp.ids hr hrow hid)⟩
    have hchallenges : Table.delete (fun c => c.recipientId == some row.id) d.challenges =
        d.challenges.filter (·.recipientId ≠ some row.id) :=
      List.filter_congr fun c _ => by
        rw [Bool.eq_iff_iff, Bool.not_eq_true', beq_eq_false_iff_ne, decide_eq_true_eq]
    have hsessions : Table.delete (fun s => s.recipientId == some row.id) d.accessSessions =
        d.accessSessions.filter (·.recipientId ≠ some row.id) :=
      List.filter_congr fun s _ => by
        rw [Bool.eq_iff_iff, Bool.not_eq_true', beq_eq_false_iff_ne, decide_eq_true_eq]
    rw [deleteRecipient, hrows, hchallenges, hsessions]
    rfl

end

/-- In every run each link has at least one person and at most `MAX_RECIPIENTS`, under valid
addresses of their own.  A call that threw changed nothing; adding people makes the union, unless
it is refused for a reason; and removing a person takes away their row and what belongs to it. -/
theorem people_on_links {d₀ d : DeliveryDb} {h : List Event} (h0 : Peopled d₀)
    (hr : History.Run (step P cfg) env d₀ h d) :
    (∀ l ∈ d.links, 1 ≤ recipientCount l.id d ∧ recipientCount l.id d ≤ maxRecipients) ∧
      (∀ linkId, ((listRecipients linkId d).map (·.email)).Nodup) ∧
      (∀ r ∈ d.linkRecipients, isValidEmail r.email = true) ∧
      ∀ e ∈ h, ((∃ failure, e.output = .threw failure) → e.post = e.pre) ∧
        AddsUnion P e ∧ RemovesOne e := by
  have hp : Peopled d := peopled_run h0 hr
  refine ⟨fun l hl => ⟨hp.atLeastOne l hl, hp.atMost l hl⟩, hp.addresses, hp.valid, fun e he => ?_⟩
  obtain ⟨later, earlier, rfl⟩ := List.append_of_mem he
  obtain ⟨op, hpre, -, hfire⟩ := hr.split
  rw [hfire]
  refine ⟨fun ⟨failure, hthrew⟩ => threw_unchanged hthrew, addsUnion_fire e.pre op, ?_⟩
  exact removesOne_fire (peopled_run h0 hpre) op

/-! ## A link for one person -/

/-- A database with one case and no link. -/
def oneCase : DeliveryDb :=
  { DeliveryDb.empty with cases := [⟨"c_1", "Case", "", .isOpen, 0, 0⟩] }

/-- A link is created for one person, and another one is added. -/
def twoCalls : List Op :=
  [.createLink 0 ⟨"1", "token", fun k => toString k⟩ ⟨"c_1", "A", [⟨"a@b.c", .en⟩], none, none⟩,
    .addRecipients 1 (fun k => "x" ++ toString k) "l_1" [⟨"A@b.c", .de⟩, ⟨"d@e.f", .de⟩]]

theorem peopled_oneCase : Peopled oneCase where
  ids := List.nodup_nil
  owned := fun _ h => nomatch h
  addresses := fun _ => List.nodup_nil
  valid := fun _ h => nomatch h
  atLeastOne := fun _ h => nomatch h
  atMost := fun _ h => nomatch h

theorem run_oneCase (ops : List Op) :
    let r := History.replay (step .sample defaultConfig) [] oneCase ops
    History.Run (step .sample defaultConfig) env oneCase r.1 r.2 :=
  History.run_replay .start (History.admits_of_forall (fun _ _ _ => trivial) _ _ _)

theorem people_on_links_twoCalls :
    let d := (History.replay (step .sample defaultConfig) [] oneCase twoCalls).2
    (listRecipients "l_1" d).map (·.email) = ["a@b.c", "d@e.f"] ∧
      ((listRecipients "l_1" d).map (·.email)).Nodup := by
  refine ⟨by decide +kernel, ?_⟩
  exact (people_on_links .sample defaultConfig peopled_oneCase (run_oneCase twoCalls)).2.1 "l_1"

/-- An empty list and an unreadable address are refused, although the link has room. -/
theorem refused_with_room :
    let d := (History.replay (step .sample defaultConfig) [] oneCase twoCalls).2
    (addRecipients .sample 2 (fun k => "y" ++ toString k) "l_1" [] d).isOk = false ∧
      (addRecipients .sample 2 (fun k => "y" ++ toString k) "l_1" [⟨"nobody", .en⟩] d).isOk =
        false ∧
      recipientCount "l_1" d + (newcomers .sample "l_1" [] d).length ≤ maxRecipients ∧
      recipientCount "l_1" d + (newcomers .sample "l_1" [⟨"nobody", .en⟩] d).length ≤
        maxRecipients := by
  decide +kernel

end People

end Outletbox
