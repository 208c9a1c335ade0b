import Outletbox.Config
import Outletbox.Crypto
import Outletbox.Db
import Outletbox.Library.Fallible
import Outletbox.Library.Table
import Outletbox.Services.Cases
import Outletbox.Time

/-!
# What a case publishes

The functions of `services/items.ts`: files and notes, and the life of an
upload.
-/

namespace Outletbox

variable (P : Platform) (cfg : Config)

/-! ## File names -/

/-- `CONTROL_CHARS`. -/
def isControl (c : Char) : Bool := c.toNat < 0x20 || c.toNat == 0x7f

/-- The length in UTF-16 units. -/
def unitLength (cs : List Char) : Nat := (cs.map units).sum

/-- A name split before its last dot, with `lastIndexOf('.')` after the start. -/
def splitExtension (name : List Char) : Option (List Char × List Char) :=
  match name.reverse.span (· != '.') with
  | (suffix, '.' :: base) =>
      if base.isEmpty then none else some (base.reverse, '.' :: suffix.reverse)
  | _ => none

/-- Cuts a name to 255 units and keeps a suffix of at most 16. -/
def cutFilename (name : List Char) : List Char :=
  if unitLength name ≤ 255 then name
  else
    let ext := match splitExtension name with
      | some (_, ext) => if unitLength ext ≤ 16 then ext else []
      | none => []
    takeUnits (255 - unitLength ext) name ++ ext

/-- Normalises an uploaded file name so it is safe to store, display and send back. -/
def sanitizeFilename (raw : String) : String :=
  let base := ((P.nfc raw).toList.splitOnP fun c => c == '\\' || c == '/').getLastD []
  let shown := (trim (String.ofList (base.filter fun c => !isControl c))).toList
  let named := if shown.all (· == '.') then [] else shown
  let cut := cutFilename named
  if cut.isEmpty then "unnamed" else String.ofList cut

/-! ## Rows -/

/-- `INSERT INTO items`. -/
def insertItem (item : ItemRow) (d : DeliveryDb) : Except Failure (ItemRow × DeliveryDb) :=
  if d.items.any (·.id == item.id) || (getCase item.caseId d).isNone then .error .constraint
  else .ok (item, { d with items := d.items ++ [item] })

/-- What a caller of `createNote` passes. -/
structure NoteInput where
  caseId : String
  title : String
  body : String
  adminId : Option String

def createNote (now : Int) (id : String) (input : NoteInput) (d : DeliveryDb) :
    Except Failure (ItemRow × DeliveryDb) :=
  let title := slice 200 (trim input.title)
  let body := slice 20000 (trim input.body)
  if title == "" || body == "" then .error (.error "A note needs a title and a body")
  else insertItem
    { id := newId "n" id, caseId := input.caseId, kind := .note, title := title, body := some body,
      uploadKind := none, status := .ready, declaredSize := none, size := none, sha256 := none,
      createdBy := input.adminId, createdAt := now, readyAt := some now, deletedAt := none } d

/-- What a caller of `startUpload` passes, with the identifier of the new row. -/
structure StartUploadInput where
  id : String
  caseId : String
  originalName : String
  uploadKind : UploadKind
  /-- Size announced by the client, or null when unknown. -/
  declaredSize : Option Nat
  adminId : Option String

/-- Registers a new file upload. Only the global per-file cap applies here. -/
def startUpload (now : Int) (input : StartUploadInput) (d : DeliveryDb) :
    Except Failure ((ItemRow × Nat) × DeliveryDb) :=
  if input.declaredSize.any (maxSafeInteger < ·) then .error (.error "invalid declared size")
  else if input.declaredSize.any (cfg.maxFileBytes < ·) then
    .error (.fileTooLarge cfg.maxFileBytes)
  else do
    let (item, d) ← insertItem
      { id := input.id, caseId := input.caseId, kind := .file,
        title := sanitizeFilename P input.originalName, body := none,
        uploadKind := some input.uploadKind, status := .uploading,
        declaredSize := input.declaredSize, size := none, sha256 := none,
        createdBy := input.adminId, createdAt := now, readyAt := none, deletedAt := none } d
    .ok ((item, input.declaredSize.getD cfg.maxFileBytes), d)

/-- `UPDATE items SET .. WHERE id = ? AND ..`, and whether it changed a row. -/
def updateItem (id : String) (p : ItemRow → Bool) (f : ItemRow → ItemRow) (d : DeliveryDb) :
    Bool × DeliveryDb :=
  (d.items.any fun i => i.id == id && p i,
    { d with items := Table.update (fun i => i.id == id && p i) f d.items })

/-- Only an 'uploading' row transitions to 'ready'. Returns false if it already did. -/
def completeUpload (now : Int) (itemId : String) (size : Nat) (sha256 : Option String)
    (d : DeliveryDb) : Bool × DeliveryDb :=
  updateItem itemId (fun i => i.status == .uploading)
    (fun i => { i with
      status := .ready, size := some size, sha256 := sha256.or i.sha256, readyAt := some now }) d

def failUpload (itemId : String) (status : ItemStatus) (d : DeliveryDb) : Bool × DeliveryDb :=
  updateItem itemId (fun i => i.status == .uploading) (fun i => { i with status := status }) d

def markMissing (itemId : String) (d : DeliveryDb) : DeliveryDb :=
  (updateItem itemId (fun i => i.status == .ready && i.kind == .file)
    (fun i => { i with status := .missing }) d).2

def markDeleted (now : Int) (itemId : String) (d : DeliveryDb) : Bool × DeliveryDb :=
  updateItem itemId (fun i => i.status == .ready || i.status == .missing)
    (fun i => { i with status := .deleted, deletedAt := some now }) d

def getItem (id : String) (d : DeliveryDb) : Option ItemRow := d.items.find? (·.id == id)

/-- `ORDER BY created_at DESC`. -/
def itemOrder (a b : ItemRow) : Prop := isoLe b.createdAt a.createdAt

instance : DecidableRel itemOrder := fun _ _ => inferInstanceAs (Decidable (_ ≤ _))

/-- Everything an administrator sees for a case, including failed uploads. -/
def listItemsForCase (caseId : String) (d : DeliveryDb) : List ItemRow :=
  (d.items.filter fun i =>
    i.caseId == caseId && i.status != .aborted && i.status != .expired).insertionSort itemOrder

/-- What a recipient sees: only finished content, no storage or uploader details. -/
structure RecipientItem where
  id : String
  kind : ItemKind
  title : String
  body : Option String
  size : Option Nat
  readyAt : Option Int
  deriving DecidableEq

/-- `ORDER BY kind = 'note' DESC, created_at ASC`. -/
def publishedOrder (a b : ItemRow) : Prop :=
  (b.kind = .note → a.kind = .note) ∧ (a.kind = b.kind → isoLe a.createdAt b.createdAt)

instance : DecidableRel publishedOrder := fun _ _ => inferInstanceAs (Decidable (_ ∧ _))

def listItemsForRecipient (caseId : String) (d : DeliveryDb) : List RecipientItem :=
  ((d.items.filter fun i => i.caseId == caseId && i.status == .ready).insertionSort
    publishedOrder).map fun i => ⟨i.id, i.kind, i.title, i.body, i.size, i.readyAt⟩

/-- Unfinished uploads that started before a cut-off. -/
def listStaleUploads (now : Int) (olderThanMs : Int) (d : DeliveryDb) : List ItemRow :=
  d.items.filter fun i => i.status == .uploading && isoLt i.createdAt (now - olderThanMs)

def listReadyFiles (d : DeliveryDb) : List ItemRow :=
  d.items.filter fun i => i.status == .ready && i.kind == .file

/-- The keys of the objects the database still cares about. -/
def liveStorageKeys (d : DeliveryDb) : List String :=
  (d.items.filter fun i =>
    i.kind == .file && (i.status == .uploading || i.status == .ready)).map (·.id)

/-! ## What the statements leave behind -/

section

variable {P : Platform} {cfg : Config} {now : Int} {id : String} {d d' : DeliveryDb}

theorem mem_liveStorageKeys {key : String} : key ∈ liveStorageKeys d ↔
    ∃ i ∈ d.items, i.id = key ∧ i.kind = .file ∧ (i.status = .uploading ∨ i.status = .ready) := by
  simp only [liveStorageKeys, List.mem_map, List.mem_filter, Bool.and_eq_true, Bool.or_eq_true,
    beq_iff_eq]
  constructor
  · rintro ⟨i, ⟨hi, hlive⟩, hid⟩
    exact ⟨i, hi, hid, hlive⟩
  · rintro ⟨i, hi, hid, hlive⟩
    exact ⟨i, ⟨hi, hlive⟩, hid⟩

theorem insertItem_ok {item r : ItemRow} (h : insertItem item d = .ok (r, d')) :
    r = item ∧ (∀ x ∈ d.items, x.id ≠ item.id) ∧ (getCase item.caseId d).isSome ∧
      d' = { d with items := d.items ++ [item] } := by
  simp only [insertItem] at h
  split at h
  · cases h
  · rename_i hfree
    cases h
    simp only [Bool.or_eq_true, List.any_eq_true, beq_iff_eq, not_or, not_exists, not_and] at hfree
    exact ⟨rfl, hfree.1, by simpa [Option.isSome_iff_ne_none] using hfree.2, rfl⟩

/-- A note takes an identifier no row has. -/
theorem createNote_fresh {input : NoteInput} {r : ItemRow}
    (h : createNote now id input d = .ok (r, d')) : ∀ x ∈ d.items, x.id ≠ r.id := by
  simp only [createNote] at h
  split at h
  · cases h
  · obtain ⟨rfl, hfree, -, -⟩ := insertItem_ok h
    exact hfree

/-- A note is one new row of its case. -/
theorem createNote_ok {input : NoteInput} {r : ItemRow}
    (h : createNote now id input d = .ok (r, d')) :
    r.caseId = input.caseId ∧ r.kind = .note ∧ d' = { d with items := d.items ++ [r] } := by
  simp only [createNote] at h
  split at h
  · cases h
  · obtain ⟨rfl, -, -, rfl⟩ := insertItem_ok h
    exact ⟨rfl, rfl, rfl⟩

/-- An upload starts as one new row of its case. -/
theorem startUpload_ok {input : StartUploadInput} {r : ItemRow × Nat}
    (h : startUpload P cfg now input d = .ok (r, d')) :
    r.1.id = input.id ∧ r.1.caseId = input.caseId ∧ r.1.status = .uploading ∧
      d' = { d with items := d.items ++ [r.1] } := by
  simp only [startUpload] at h
  split at h
  · cases h
  split at h
  · cases h
  obtain ⟨⟨item, d₁⟩, hins, h⟩ := Fallible.bind_eq_ok.1 h
  cases h
  obtain ⟨rfl, -, -, rfl⟩ := insertItem_ok hins
  exact ⟨rfl, rfl, rfl, rfl⟩

/-- The row of a new upload. -/
theorem startUpload_row {input : StartUploadInput} {r : ItemRow × Nat}
    (h : startUpload P cfg now input d = .ok (r, d')) :
    (∀ x ∈ d.items, x.id ≠ r.1.id) ∧ r.1.kind = .file ∧ r.1.uploadKind = some input.uploadKind ∧
      r.1.declaredSize = input.declaredSize ∧ r.1.createdAt = now := by
  simp only [startUpload] at h
  split at h
  · cases h
  split at h
  · cases h
  obtain ⟨⟨item, d₁⟩, hins, h⟩ := Fallible.bind_eq_ok.1 h
  cases h
  obtain ⟨rfl, hfree, -, -⟩ := insertItem_ok hins
  exact ⟨hfree, rfl, rfl, rfl, rfl⟩

end

end Outletbox
