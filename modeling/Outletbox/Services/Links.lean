import Outletbox.Config
import Outletbox.Library.Fallible
import Outletbox.Services.Addresses
import Outletbox.Services.Cases

/-!
# Delivery links

The functions of `services/links.ts`: links, the people on them, and the
opening limit.
-/

namespace Outletbox

variable (P : Platform) (cfg : Config)

/-! ## Creating links and adding people -/

/-- `checkRecipients`, entry by entry. -/
def normalizeRecipients : List RecipientInput → Except Failure (List RecipientInput)
  | [] => .ok []
  | r :: rs =>
      let email := normalizeEmail P r.email
      if !isValidEmail email then
        .error (.recipientList .recipientsInvalid [("list", slice 80 r.email)])
      else do
        let rest ← normalizeRecipients rs
        .ok (⟨email, r.lang⟩ :: rest)

def checkRecipients (list : List RecipientInput) : Except Failure (List RecipientInput) :=
  if list.isEmpty then .error (.recipientList .recipientsNone [])
  else if maxRecipients < list.length then .error tooMany
  else normalizeRecipients P list

/-- The row `insertRecipients` makes for an entry. -/
def newRecipient (now : Int) (linkId id : String) (r : RecipientInput) : LinkRecipient where
  id := newId "r" id
  linkId := linkId
  email := r.email
  lang := r.lang
  opens := 0
  lastOpenedAt := none
  createdAt := now

def onLink (linkId email : String) (d : DeliveryDb) : Bool :=
  d.linkRecipients.any fun x => x.linkId == linkId && x.email == email

/-- `INSERT .. ON CONFLICT (link_id, email) DO NOTHING` for each entry; the `n`-th
entry's row takes the `n`-th of the drawn identifiers.  Returns the rows that
were added. -/
def insertRecipients (now : Int) (ids : Nat → String) (linkId : String) :
    Nat → List RecipientInput → DeliveryDb → Except Failure (List LinkRecipient × DeliveryDb)
  | _, [], d => .ok ([], d)
  | n, r :: rs, d =>
      let row := newRecipient now linkId (ids n) r
      if onLink linkId r.email d then insertRecipients now ids linkId (n + 1) rs d
      else if d.linkRecipients.any (·.id == row.id) || !d.links.any (·.id == linkId) then
        .error .constraint
      else do
        let (added, d) ← insertRecipients now ids linkId (n + 1) rs
          { d with linkRecipients := d.linkRecipients ++ [row] }
        .ok (row :: added, d)

/-- What a caller of `createLink` passes.  `maxOpens` is a number that may fail
to be a positive integer, which is then `some none`. -/
structure CreateLinkInput where
  caseId : String
  label : String
  recipients : List RecipientInput
  expiresAt : Option Int
  maxOpens : Option (Option Int)

/-- What `createLink` draws. -/
structure LinkDraw where
  id : String
  token : String
  recipientIds : Nat → String

def linkUrl (token : String) : String := cfg.publicUrl ++ "/d/" ++ token

/-- `!Number.isInteger(maxOpens) || maxOpens < 1` fails: the limit as it is stored. -/
def positiveOpens : Option (Option Int) → Except Failure (Option Nat)
  | none => .ok none
  | some (some (Int.ofNat (n + 1))) => .ok (some (n + 1))
  | some _ => .error (.error "max opens must be a positive integer")

/-- The row `createLink` inserts. -/
def newLink (now : Int) (draw : LinkDraw) (input : CreateLinkInput) (maxOpens : Option Nat) :
    Link where
  id := newId "l" draw.id
  caseId := input.caseId
  label := let label := slice 200 (trim input.label); if label == "" then "Recipient" else label
  tokenHash := P.sha256Hex draw.token
  tokenHint := slice 6 draw.token
  expiresAt := input.expiresAt
  revokedAt := none
  maxOpens := maxOpens
  opensUsed := 0
  createdAt := now
  lastUsedAt := none

def createLink (now : Int) (draw : LinkDraw) (input : CreateLinkInput) (d : DeliveryDb) :
    Except Failure ((Link × List LinkRecipient × String) × DeliveryDb) := do
  let list ← checkRecipients P input.recipients
  let maxOpens ← positiveOpens input.maxOpens
  if input.expiresAt.any (· ≤ now) then .error (.error "Expiry must be in the future")
  else if (getCase input.caseId d).isNone then .error (.error "Case not found")
  else
    let link := newLink P now draw input maxOpens
    if d.links.any (fun l => l.id == link.id || l.tokenHash == link.tokenHash) then
      .error .constraint
    else
      let (recipients, d) ← insertRecipients now draw.recipientIds link.id 0 list
        { d with links := d.links ++ [link] }
      .ok ((link, recipients, linkUrl cfg draw.token), d)

def recipientCount (linkId : String) (d : DeliveryDb) : Nat :=
  d.linkRecipients.countP fun r => r.linkId == linkId

/-- Adds people to an existing link. Addresses already on it are skipped, not duplicated. -/
def addRecipients (now : Int) (ids : Nat → String) (linkId : String)
    (input : List RecipientInput) (d : DeliveryDb) :
    Except Failure (List LinkRecipient × DeliveryDb) := do
  let list ← checkRecipients P input
  let fresh := list.filter fun r => !onLink linkId r.email d
  if maxRecipients < recipientCount linkId d + fresh.length then .error tooMany
  else insertRecipients now ids linkId 0 fresh d

/-! ## The people on a link -/

inductive RemoveResult
  | removed (row : LinkRecipient)
  | last
  | missing
  deriving DecidableEq

/-- `DELETE FROM link_recipients WHERE id = ?`: pending codes and open sessions of
the person go with the row. -/
def deleteRecipient (id : String) (d : DeliveryDb) : DeliveryDb :=
  { d with
    linkRecipients := Table.delete (fun r => r.id == id) d.linkRecipients
    challenges := Table.delete (fun c => c.recipientId == some id) d.challenges
    accessSessions := Table.delete (fun r => r.recipientId == some id) d.accessSessions }

/-- Takes one person off a link. The last person cannot be removed. -/
def removeRecipient (linkId recipientId : String) (d : DeliveryDb) :
    RemoveResult × DeliveryDb :=
  match d.linkRecipients.find? fun r => r.id == recipientId && r.linkId == linkId with
  | none => (.missing, d)
  | some row =>
      if recipientCount linkId d ≤ 1 then (.last, d)
      else (.removed row, deleteRecipient recipientId d)

def listRecipients (linkId : String) (d : DeliveryDb) : List LinkRecipient :=
  d.linkRecipients.filter fun r => r.linkId == linkId

/-- Every recipient of every link of a case. -/
def recipientsForCase (caseId : String) (d : DeliveryDb) : List LinkRecipient :=
  d.linkRecipients.filter fun r => d.links.any fun l => l.id == r.linkId && l.caseId == caseId

/-- The recipients' language when they all share one. -/
def sharedLang (recipients : List LinkRecipient) : Option Lang :=
  match recipients with
  | [] => none
  | first :: _ => if recipients.all (·.lang == first.lang) then some first.lang else none

/-- `UPDATE link_recipients SET opens = opens + 1, last_opened_at = ? WHERE id = ?`. -/
def recordRecipientOpen (now : Int) (recipientId : String) (d : DeliveryDb) : DeliveryDb :=
  { d with
    linkRecipients :=
      Table.update (fun r => r.id == recipientId)
        (fun r => { r with opens := r.opens + 1, lastOpenedAt := some now }) d.linkRecipients }

/-- The person whose address was typed, or null when it is not on this link. -/
def findRecipient (recipients : List LinkRecipient) (typed : String) : Option LinkRecipient :=
  recipients.find? fun r => r.email == normalizeEmail P typed

/-! ## The link itself -/

/-- A `SELECT` of the row returns.  Its opening limit is the one number a form sets. -/
def Link.isReadable (link : Link) : Bool := link.maxOpens.all readable

/-- The row that is selected; where it is not readable, the caller throws. -/
def getLink (id : String) (d : DeliveryDb) : Option Link := d.links.find? (·.id == id)

/-- `ORDER BY created_at DESC`. -/
def linkOrder (a b : Link) : Prop := isoLe b.createdAt a.createdAt

instance : DecidableRel linkOrder := fun _ _ => inferInstanceAs (Decidable (_ ≤ _))

def listLinksForCase (caseId : String) (d : DeliveryDb) : List Link :=
  (d.links.filter fun l => l.caseId == caseId).insertionSort linkOrder

/-- `UPDATE links SET .. WHERE id = ? AND ..`. -/
def updateLink (id : String) (p : Link → Bool) (f : Link → Link) (d : DeliveryDb) : DeliveryDb :=
  { d with links := Table.update (fun l => l.id == id && p l) f d.links }

/-- Whether such a statement changed a row. -/
def changesLink (id : String) (p : Link → Bool) (d : DeliveryDb) : Bool :=
  d.links.any fun l => l.id == id && p l

def revokeLink (now : Int) (id : String) (d : DeliveryDb) : Bool × DeliveryDb :=
  (changesLink id (·.revokedAt.isNone) d,
    updateLink id (·.revokedAt.isNone) (fun l => { l with revokedAt := some now }) d)

inductive LinkState
  | active | expired | revoked | caseClosed | exhausted
  deriving DecidableEq, Repr

/-- The opening limit has been reached. -/
def Link.isExhausted (link : Link) : Bool := link.maxOpens.any (· ≤ link.opensUsed)

def linkState (now : Int) (link : Link) (c : Case) : LinkState :=
  if link.revokedAt.isSome then .revoked
  else if link.expiresAt.any fun e => isoLe e now then .expired
  else if c.status ≠ .isOpen then .caseClosed
  else if link.isExhausted then .exhausted
  else .active

structure ResolvedLink where
  link : Link
  case : Case
  state : LinkState
  recipients : List LinkRecipient
  deriving DecidableEq

/-- Looks a link up by its clear-text token. -/
def resolveToken (now : Int) (token : String) (d : DeliveryDb) : Option ResolvedLink :=
  if !isToken token then none
  else do
    let link ← d.links.find? fun l => l.tokenHash == P.sha256Hex token
    let c ← getCase link.caseId d
    some ⟨link, c, linkState now link c, listRecipients link.id d⟩

def touchLink (now : Int) (id : String) (d : DeliveryDb) : DeliveryDb :=
  updateLink id (fun _ => true) (fun l => { l with lastUsedAt := some now }) d

/-- `revoked_at IS NULL AND (max_opens IS NULL OR opens_used < max_opens)`. -/
def Link.mayOpen (link : Link) : Bool := link.revokedAt.isNone && !link.isExhausted

/-- Counts one opening, as a conditional UPDATE. -/
def registerOpen (now : Int) (id : String) (d : DeliveryDb) : Bool × DeliveryDb :=
  (changesLink id Link.mayOpen d,
    updateLink id Link.mayOpen
      (fun l => { l with opensUsed := l.opensUsed + 1, lastUsedAt := some now }) d)

/-- Issues a fresh token for an existing link, keeping the recipients, the limits
and the opening count. -/
def rotateLinkToken (token id : String) (d : DeliveryDb) :
    Except Failure (Option String × DeliveryDb) :=
  match getLink id d with
  | none => .ok (none, d)
  | some _ =>
      if d.links.any fun l => l.id != id && l.tokenHash == P.sha256Hex token then
        .error .constraint
      else
        .ok (some (linkUrl cfg token), updateLink id (fun _ => true)
          (fun l => { l with tokenHash := P.sha256Hex token, tokenHint := slice 6 token }) d)

def openingsLeft (link : Link) : Option Nat := link.maxOpens.map (· - link.opensUsed)

/-! ## What the statements leave behind -/

section

variable {P : Platform} {cfg : Config} {now : Int} {ids : Nat → String} {linkId id : String}
  {d d' : DeliveryDb}

/-- An `UPDATE` of links keeps their identifiers. -/
theorem updateLink_ids {p : Link → Bool} {f : Link → Link} (hf : ∀ l, (f l).id = l.id) :
    (updateLink id p f d).links.map (·.id) = d.links.map (·.id) :=
  Table.map_update (·.id) hf d.links

/-- An `UPDATE` that matches no link changes nothing. -/
theorem updateLink_eq_self {p : Link → Bool} {f : Link → Link} (h : changesLink id p d = false) :
    updateLink id p f d = d := by
  have hrow : ∀ l ∈ d.links, (l.id == id && p l) = true → f l = l := by
    intro l hl hp
    rw [changesLink, List.any_eq_false] at h
    exact absurd hp (h l hl)
  simp only [updateLink, Table.update_eq_self hrow]

/-- Counting an opening against a person moves nobody to another link. -/
theorem recordRecipientOpen_keys :
    (recordRecipientOpen now id d).linkRecipients.map (fun r => (r.id, r.linkId)) =
      d.linkRecipients.map (fun r => (r.id, r.linkId)) :=
  Table.map_update (fun r => (r.id, r.linkId)) (fun _ => by rfl) d.linkRecipients

/-- Rows `insertRecipients` may add to a link: nobody has opened it through them yet. -/
structure AddedTo (ids : Nat → String) (linkId : String) (r : LinkRecipient) : Prop where
  linkId_eq : r.linkId = linkId
  opens_eq : r.opens = 0
  drawn : ∃ k, r.id = newId "r" (ids k)

/-- `insertRecipients` appends rows of its own to one table. -/
theorem insertRecipients_ok {n : Nat} {list : List RecipientInput} {added : List LinkRecipient}
    (h : insertRecipients now ids linkId n list d = .ok (added, d')) :
    d' = { d with linkRecipients := d.linkRecipients ++ added } ∧
      ∀ r ∈ added, AddedTo ids linkId r := by
  induction list generalizing n d added with
  | nil =>
      cases h
      exact ⟨by simp, by simp⟩
  | cons r rs ih =>
      simp only [insertRecipients] at h
      split at h
      · exact ih h
      · split at h
        · cases h
        · obtain ⟨⟨rest, d₁⟩, hrest, hr⟩ := Fallible.bind_eq_ok.1 h
          cases hr
          obtain ⟨rfl, hadded⟩ := ih hrest
          refine ⟨by simp, ?_⟩
          intro x hx
          rcases List.mem_cons.1 hx with rfl | hx
          · exact ⟨rfl, rfl, n, rfl⟩
          · exact hadded x hx

/-- The identifiers on the table stay distinct. -/
theorem insertRecipients_nodup {n : Nat} {list : List RecipientInput} {added : List LinkRecipient}
    (hd : (d.linkRecipients.map (·.id)).Nodup)
    (h : insertRecipients now ids linkId n list d = .ok (added, d')) :
    (d'.linkRecipients.map (·.id)).Nodup := by
  induction list generalizing n d added with
  | nil => cases h; exact hd
  | cons r rs ih =>
      simp only [insertRecipients] at h
      split at h
      · exact ih hd h
      · split at h
        · cases h
        · rename_i hfree
          obtain ⟨⟨rest, d₁⟩, hrest, hr⟩ := Fallible.bind_eq_ok.1 h
          cases hr
          refine ih (Table.nodup_append_row hd ?_) hrest
          intro x hx he
          simp only [Bool.or_eq_true, not_or, List.any_eq_true, not_exists, not_and,
            beq_iff_eq] at hfree
          exact hfree.1 x hx he

/-- Rows are only added to a link that exists. -/
theorem insertRecipients_link {n : Nat} {list : List RecipientInput} {added : List LinkRecipient}
    (h : insertRecipients now ids linkId n list d = .ok (added, d')) (ha : added ≠ []) :
    ∃ l ∈ d.links, l.id = linkId := by
  induction list generalizing n d added with
  | nil => cases h; exact absurd rfl ha
  | cons r rs ih =>
      simp only [insertRecipients] at h
      split at h
      · exact ih h ha
      · split at h
        · cases h
        · rename_i hfree
          simp only [Bool.or_eq_true, Bool.not_eq_true', not_or, Bool.not_eq_false] at hfree
          simpa using hfree.2

/-- A link that `createLink` made, and what else it did. -/
theorem createLink_ok {draw : LinkDraw} {input : CreateLinkInput} {link : Link}
    {recipients : List LinkRecipient} {url : String}
    (h : createLink P cfg now draw input d = .ok ((link, recipients, url), d')) :
    (∃ m, positiveOpens input.maxOpens = .ok m ∧ link = newLink P now draw input m) ∧
      (getCase input.caseId d).isSome ∧
      (∀ l ∈ d.links, l.id ≠ link.id ∧ l.tokenHash ≠ link.tokenHash) ∧
      (∀ r ∈ recipients, AddedTo draw.recipientIds link.id r) ∧
      d' = { d with
        links := d.links ++ [link], linkRecipients := d.linkRecipients ++ recipients } := by
  obtain ⟨list, -, h⟩ := Fallible.bind_eq_ok.1 h
  obtain ⟨m, hm, h⟩ := Fallible.bind_eq_ok.1 h
  split at h
  · cases h
  split at h
  · cases h
  rename_i hcase
  simp only [] at h
  split at h
  · cases h
  rename_i hfree
  obtain ⟨⟨added, d₁⟩, hins, h⟩ := Fallible.bind_eq_ok.1 h
  cases h
  obtain ⟨rfl, hadded⟩ := insertRecipients_ok hins
  refine ⟨⟨m, hm, rfl⟩, ?_, ?_, hadded, rfl⟩
  · simpa [Option.isSome_iff_ne_none] using hcase
  · intro l hl
    simp only [List.any_eq_true, Bool.or_eq_true, beq_iff_eq, not_exists, not_and, not_or] at hfree
    exact hfree l hl

theorem createLink_nodup {draw : LinkDraw} {input : CreateLinkInput}
    {r : Link × List LinkRecipient × String} (hd : (d.linkRecipients.map (·.id)).Nodup)
    (h : createLink P cfg now draw input d = .ok (r, d')) :
    (d'.linkRecipients.map (·.id)).Nodup := by
  obtain ⟨list, -, h⟩ := Fallible.bind_eq_ok.1 h
  obtain ⟨m, -, h⟩ := Fallible.bind_eq_ok.1 h
  split at h
  · cases h
  split at h
  · cases h
  simp only [] at h
  split at h
  · cases h
  obtain ⟨⟨added, d₁⟩, hins, h⟩ := Fallible.bind_eq_ok.1 h
  cases h
  refine insertRecipients_nodup ?_ hins
  exact hd

/-- `addRecipients` appends rows to one table. -/
theorem addRecipients_ok {input : List RecipientInput} {added : List LinkRecipient}
    (h : addRecipients P now ids linkId input d = .ok (added, d')) :
    d' = { d with linkRecipients := d.linkRecipients ++ added } ∧
      ∀ r ∈ added, AddedTo ids linkId r := by
  obtain ⟨list, -, h⟩ := Fallible.bind_eq_ok.1 h
  simp only [] at h
  split at h
  · cases h
  · exact insertRecipients_ok h

theorem addRecipients_nodup {input : List RecipientInput} {added : List LinkRecipient}
    (hd : (d.linkRecipients.map (·.id)).Nodup)
    (h : addRecipients P now ids linkId input d = .ok (added, d')) :
    (d'.linkRecipients.map (·.id)).Nodup := by
  obtain ⟨list, -, h⟩ := Fallible.bind_eq_ok.1 h
  simp only [] at h
  split at h
  · cases h
  · exact insertRecipients_nodup hd h

theorem addRecipients_link {input : List RecipientInput} {added : List LinkRecipient}
    (h : addRecipients P now ids linkId input d = .ok (added, d')) (ha : added ≠ []) :
    ∃ l ∈ d.links, l.id = linkId := by
  obtain ⟨list, -, h⟩ := Fallible.bind_eq_ok.1 h
  simp only [] at h
  split at h
  · cases h
  · exact insertRecipients_link h ha

/-- `removeRecipient` deletes one person of the link and returns the row, or does nothing. -/
theorem removeRecipient_cases (linkId recipientId : String) (d : DeliveryDb) :
    ((∀ r, (removeRecipient linkId recipientId d).1 ≠ .removed r) ∧
        (removeRecipient linkId recipientId d).2 = d) ∨
      ∃ r ∈ d.linkRecipients, r.id = recipientId ∧ r.linkId = linkId ∧
        (removeRecipient linkId recipientId d).1 = .removed r ∧
        (removeRecipient linkId recipientId d).2 = deleteRecipient recipientId d := by
  unfold removeRecipient
  cases h : d.linkRecipients.find? fun r => r.id == recipientId && r.linkId == linkId with
  | none => exact .inl ⟨fun _ => RemoveResult.noConfusion, rfl⟩
  | some row =>
      by_cases hn : recipientCount linkId d ≤ 1
      · simp only [if_pos hn]
        exact .inl ⟨fun _ => RemoveResult.noConfusion, trivial⟩
      · have hrow := List.find?_some h
        simp only [Bool.and_eq_true, beq_iff_eq] at hrow
        simp only [if_neg hn]
        exact .inr ⟨row, List.mem_of_find?_eq_some h, hrow.1, hrow.2, rfl, trivial⟩

/-- What a token resolves to. -/
theorem resolveToken_some {token : String} {r : ResolvedLink}
    (h : resolveToken P now token d = some r) :
    isToken token = true ∧ r.link ∈ d.links ∧ r.link.tokenHash = P.sha256Hex token ∧
      getCase r.link.caseId d = some r.case ∧ r.state = linkState now r.link r.case ∧
      r.recipients = listRecipients r.link.id d := by
  unfold resolveToken at h
  split at h
  · cases h
  · rename_i htoken
    obtain ⟨link, hlink, h⟩ := Option.bind_eq_some_iff.1 h
    obtain ⟨c, hc, h⟩ := Option.bind_eq_some_iff.1 h
    cases h
    have hhash := List.find?_some hlink
    refine ⟨by simpa using htoken, List.mem_of_find?_eq_some hlink, by simpa using hhash, hc, rfl,
      rfl⟩

/-- `rotateLinkToken` gives one link another token, or does nothing. -/
theorem rotateLinkToken_ok {token : String} {url : Option String}
    (h : rotateLinkToken P cfg token id d = .ok (url, d')) :
    (url = none ∧ getLink id d = none ∧ d' = d) ∨
      url = some (linkUrl cfg token) ∧ (getLink id d).isSome ∧
        (∀ l ∈ d.links, l.id ≠ id → l.tokenHash ≠ P.sha256Hex token) ∧
        d' = updateLink id (fun _ => true)
          (fun l => { l with tokenHash := P.sha256Hex token, tokenHint := slice 6 token }) d := by
  unfold rotateLinkToken at h
  cases hl : getLink id d with
  | none =>
      rw [hl] at h
      cases h
      exact .inl ⟨rfl, rfl, rfl⟩
  | some link =>
      rw [hl] at h
      simp only [] at h
      split at h
      · cases h
      · rename_i hfree
        cases h
        refine .inr ⟨rfl, rfl, ?_, rfl⟩
        simpa only [List.any_eq_true, Bool.and_eq_true, bne_iff_ne, beq_iff_eq, not_exists,
          not_and] using hfree

end

end Outletbox
