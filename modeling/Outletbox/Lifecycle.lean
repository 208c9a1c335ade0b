import Outletbox.Library.History
import Outletbox.LocalStorage
import Outletbox.Services.Items

/-!
# The life of an item

The upload paths, the delete route and the cleanup job change items by six
statements, and they wait for the storage in between.  So here each statement may
come at any time and for any item; only what an upload path has checked by then
is remembered.
-/

namespace Outletbox

namespace Lifecycle

open LocalStorage (LimitHashStream StorageError)

/-! ## The system -/

/-- A direct upload whose body is being read. -/
structure DirectUpload where
  itemId : String
  declared : Option Nat
  maxBytes : Nat

/-- An upload the tus server knows, with its size. -/
structure TusUpload where
  id : String
  size : Nat

/-- The tables, and the uploads that were started. -/
structure World where
  db : DeliveryDb
  direct : List DirectUpload
  tus : List TusUpload

/-- How the body of a direct upload ended. -/
inductive Transfer
  /-- The source ended; `req.complete` says whether it was the end of the body. -/
  | received (chunks : List Bytes) (complete : Bool)
  /-- The source or the storage failed. -/
  | failed

inductive Op
  | startDirect (now : Int) (input : StartUploadInput)
  | endDirect (now : Int) (itemId : String) (transfer : Transfer)
  /-- `onUploadCreate`, with `upload.size`. -/
  | createTus (now : Int) (input : StartUploadInput) (size : Option Nat)
  /-- `onUploadFinish`, with `upload.offset`. -/
  | finishTus (now : Int) (id : String) (offset : Nat)
  | createNote (now : Int) (id : String) (input : NoteInput)
  /-- A termination, or the delete route on an item that is uploading. -/
  | abort (itemId : String)
  /-- The cleanup job, on a stale upload. -/
  | expire (itemId : String)
  /-- The cleanup job, on a file without an object. -/
  | markMissing (itemId : String)
  | markDeleted (now : Int) (itemId : String)
  /-- Whatever the program does to its other tables. -/
  | elsewhere (d : DeliveryDb)

/-- The chunks of a body, through the stream that counts them. -/
def receive : List Bytes → LimitHashStream → Except StorageError LimitHashStream
  | [], limiter => .ok limiter
  | chunk :: rest, limiter =>
      match limiter.transform chunk with
      | .error e => .error e
      | .ok limiter' => receive rest limiter'

variable (P : Platform) (cfg : Config)

/-- What `directUpload` completes the upload with, unless it throws. -/
def DirectUpload.result (u : DirectUpload) : Transfer → Option LimitHashStream
  | .failed => none
  | .received chunks complete =>
      match receive chunks { maxBytes := u.maxBytes } with
      | .error _ => none
      | .ok limiter =>
          if !complete then none
          else if u.declared.any (· != limiter.size) then none
          else some limiter

/-- The rest of `directUpload`, after the body. -/
def endDirect (now : Int) (u : DirectUpload) (transfer : Transfer) (d : DeliveryDb) : DeliveryDb :=
  match u.result transfer with
  | some limiter =>
      (completeUpload now u.itemId limiter.size (some (limiter.digestHex P)) d).2
  | none => (failUpload u.itemId .aborted d).2

def step (w : World) : Op → World × Unit
  | .startDirect now input =>
      match startUpload P cfg now { input with uploadKind := .direct } w.db with
      | .ok ((item, maxBytes), db) =>
          ({ w with db, direct := w.direct ++ [⟨item.id, input.declaredSize, maxBytes⟩] }, ())
      | .error _ => (w, ())
  | .endDirect now itemId transfer =>
      match w.direct.find? (·.itemId == itemId) with
      | some u =>
          ({ w with
            db := endDirect P now u transfer w.db
            direct := w.direct.filter fun x => !(x.itemId == itemId) }, ())
      | none => (w, ())
  | .createTus _ _ none => (w, ())
  | .createTus now input (some size) =>
      match startUpload P cfg now
          { input with uploadKind := .tus, declaredSize := some size } w.db with
      | .ok (_, db) => ({ w with db, tus := w.tus ++ [⟨input.id, size⟩] }, ())
      | .error _ => (w, ())
  | .finishTus now id offset =>
      match w.tus.find? (·.id == id) with
      | some u =>
          if offset ≠ u.size then (w, ())
          else ({ w with db := (completeUpload now id u.size none w.db).2 }, ())
      | none => (w, ())
  | .createNote now id input =>
      match createNote now id input w.db with
      | .ok (_, db) => ({ w with db }, ())
      | .error _ => (w, ())
  | .abort itemId => ({ w with db := (failUpload itemId .aborted w.db).2 }, ())
  | .expire itemId => ({ w with db := (failUpload itemId .expired w.db).2 }, ())
  | .markMissing itemId => ({ w with db := markMissing itemId w.db }, ())
  | .markDeleted now itemId => ({ w with db := (markDeleted now itemId w.db).2 }, ())
  | .elsewhere d => ({ w with db := { d with items := w.db.items } }, ())

abbrev Event := History.Event World Op Unit

/-- Any call may come at any time. -/
def env : List Event → World → Op → Prop := fun _ _ _ => True

/-- Nothing has been uploaded yet. -/
structure World.Fresh (w : World) : Prop where
  items : w.db.items = []
  direct : w.direct = []
  tus : w.tus = []

/-! ## What a step may do to an item -/

/-- The moves of the status. -/
inductive Moves : ItemStatus → ItemStatus → Prop
  | completed : Moves .uploading .ready
  | aborted : Moves .uploading .aborted
  | expired : Moves .uploading .expired
  | missing : Moves .ready .missing
  | deleted : Moves .ready .deleted
  | missingDeleted : Moves .missing .deleted

/-- A row before and after a step. -/
structure RowStep (i i' : ItemRow) : Prop where
  id : i'.id = i.id
  caseId : i'.caseId = i.caseId
  kind : i'.kind = i.kind
  title : i'.title = i.title
  declaredSize : i'.declaredSize = i.declaredSize
  status : i'.status = i.status ∨ Moves i.status i'.status
  size : i.status ≠ .uploading → i'.size = i.size
  sha256 : i.status ≠ .uploading → i'.sha256 = i.sha256

/-- The rows before and after a step: each of them made a step, and new ones are uploads that
start, or notes. -/
def Evolves (items items' : List ItemRow) : Prop :=
  ∃ old new, items' = old ++ new ∧ List.Forall₂ RowStep items old ∧
    ∀ i ∈ new, i.status = .uploading ∨ i.kind = .note ∧ i.status = .ready

/-- Some state of the run had the item ready. -/
def WasReady (h : List Event) (id : String) : Prop :=
  ∃ e ∈ h, ∃ i ∈ e.post.db.items, i.id = id ∧ i.status = .ready

/-- What a recipient sees of a row. -/
def published (i : ItemRow) : RecipientItem := ⟨i.id, i.kind, i.title, i.body, i.size, i.readyAt⟩

/-! ## What holds of the tables -/

/-- A size the item may be completed with. -/
def Fits (i : ItemRow) (size : Nat) : Prop :=
  size ≤ cfg.maxFileBytes ∧ ∀ n, i.declaredSize = some n → size = n

/-- The row was ready, by its status. -/
def Past (i : ItemRow) : Prop := i.status = .ready ∨ i.status = .missing ∨ i.status = .deleted

/-- A row by itself. -/
structure Sound (i : ItemRow) : Prop where
  size : Past i → i.kind = .file → ∃ size, i.size = some size ∧ Fits cfg i size
  readyAt : i.readyAt.isSome = true ↔ Past i

structure Inv (w : World) : Prop where
  ids : (w.db.items.map (·.id)).Nodup
  sound : ∀ i ∈ w.db.items, Sound cfg i
  direct : ∀ u ∈ w.direct, u.maxBytes = u.declared.getD cfg.maxFileBytes ∧
    u.maxBytes ≤ cfg.maxFileBytes ∧
    ∀ i ∈ w.db.items, i.id = u.itemId → i.declaredSize = u.declared
  directIds : ∀ u ∈ w.direct, ∃ i ∈ w.db.items, i.id = u.itemId
  tus : ∀ u ∈ w.tus, u.size ≤ cfg.maxFileBytes ∧
    ∀ i ∈ w.db.items, i.id = u.id → i.declaredSize = some u.size
  tusIds : ∀ u ∈ w.tus, ∃ i ∈ w.db.items, i.id = u.id

section

variable {P cfg} {w : World} {i : ItemRow} {items items' : List ItemRow}

/-! ## Rows -/

theorem RowStep.refl (i : ItemRow) : RowStep i i :=
  ⟨rfl, rfl, rfl, rfl, rfl, .inl rfl, fun _ => rfl, fun _ => rfl⟩

/-- A row that was ready stays one that was. -/
theorem RowStep.past {i i' : ItemRow} (h : RowStep i i') (hp : Past i) : Past i' := by
  rcases h.status with hsame | hmoves
  · rwa [Past, hsame]
  · unfold Past at hp ⊢
    generalize i.status = s at hp hmoves
    generalize i'.status = s' at hmoves ⊢
    cases hmoves with
    | completed => exact .inl rfl
    | aborted => simp at hp
    | expired => simp at hp
    | missing => exact .inr (.inl rfl)
    | deleted => exact .inr (.inr rfl)
    | missingDeleted => exact .inr (.inr rfl)

/-- A row that was ready is so from the step on that completed it. -/
theorem RowStep.past_origin {i i' : ItemRow} (h : RowStep i i') (hp : Past i') :
    Past i ∨ i'.status = .ready := by
  rcases h.status with hsame | hmoves
  · exact .inl (by rwa [Past, ← hsame])
  · unfold Past at hp ⊢
    generalize i.status = s at hmoves ⊢
    generalize i'.status = s' at hp hmoves ⊢
    cases hmoves with
    | completed => exact .inr rfl
    | aborted => simp at hp
    | expired => simp at hp
    | missing => exact .inl (.inl rfl)
    | deleted => exact .inl (.inl rfl)
    | missingDeleted => exact .inl (.inr (.inl rfl))

/-- The rows of a statement that inserts nothing, and each row stays sound. -/
def Rows (cfg : Config) : List ItemRow → List ItemRow → Prop :=
  List.Forall₂ fun i i' => RowStep i i' ∧ (Sound cfg i → Sound cfg i')

theorem rows_refl (items : List ItemRow) : Rows cfg items items :=
  List.forall₂_same.2 fun i _ => ⟨.refl i, id⟩

/-- A statement that takes each row it changes one step further. -/
theorem rows_update {p : ItemRow → Bool} {f : ItemRow → ItemRow}
    (hf : ∀ i ∈ items, p i = true → RowStep i (f i) ∧ (Sound cfg i → Sound cfg (f i))) :
    Rows cfg items (Table.update p f items) := by
  rw [Rows, Table.update, List.forall₂_map_right_iff, List.forall₂_same]
  intro i hi
  split
  · rename_i hp
    exact hf i hi hp
  · exact ⟨.refl i, id⟩

theorem Rows.ids (h : Rows cfg items items') : items'.map (·.id) = items.map (·.id) := by
  induction h with
  | nil => rfl
  | cons hrow _ ih => rw [List.map_cons, List.map_cons, hrow.1.id, ih]

theorem Rows.origin (h : Rows cfg items items') {i' : ItemRow} (hi' : i' ∈ items') :
    ∃ i ∈ items, RowStep i i' ∧ (Sound cfg i → Sound cfg i') := by
  induction h with
  | nil => cases hi'
  | cons hrow _ ih =>
      rcases List.mem_cons.1 hi' with rfl | hi'
      · exact ⟨_, List.mem_cons_self .., hrow⟩
      · obtain ⟨i, hi, hstep⟩ := ih hi'
        exact ⟨i, List.mem_cons_of_mem _ hi, hstep⟩

/-! ## What the statements leave behind -/

theorem startUpload_limits {now : Int} {input : StartUploadInput} {d d' : DeliveryDb}
    {r : ItemRow × Nat} (h : startUpload P cfg now input d = .ok (r, d')) :
    r.1.readyAt = none ∧ r.2 = input.declaredSize.getD cfg.maxFileBytes ∧
      ∀ n, input.declaredSize = some n → n ≤ cfg.maxFileBytes := by
  obtain ⟨-, h⟩ := Fallible.guard_eq_ok.1 h
  obtain ⟨hlimit, h⟩ := Fallible.guard_eq_ok.1 h
  obtain ⟨⟨item, d₁⟩, hins, h⟩ := Fallible.bind_eq_ok.1 h
  cases h
  obtain ⟨rfl, -⟩ := insertItem_ok hins
  refine ⟨rfl, rfl, fun n hn => ?_⟩
  rw [hn] at hlimit
  simpa using hlimit

theorem createNote_row {now : Int} {id : String} {input : NoteInput} {d d' : DeliveryDb}
    {r : ItemRow} (h : createNote now id input d = .ok (r, d')) :
    r.status = .ready ∧ r.readyAt = some now := by
  simp only [createNote] at h
  split at h
  · cases h
  · obtain ⟨rfl, -⟩ := insertItem_ok h
    exact ⟨rfl, rfl⟩

theorem completeUpload_rows {now : Int} {id : String} {size : Nat} {sha256 : Option String}
    {d : DeliveryDb} (hfits : ∀ i ∈ d.items, i.id = id → Fits cfg i size) :
    Rows cfg d.items (completeUpload now id size sha256 d).2.items := by
  refine rows_update fun i hi hp => ?_
  rw [Bool.and_eq_true, beq_iff_eq, beq_iff_eq] at hp
  refine ⟨⟨rfl, rfl, rfl, rfl, rfl, .inr ?_, fun h => absurd hp.2 h, fun h => absurd hp.2 h⟩,
    fun _ => ⟨fun _ _ => ⟨size, rfl, hfits i hi hp.1⟩, iff_of_true rfl (.inl rfl)⟩⟩
  rw [hp.2]
  exact .completed

/-- An upload is given up. -/
theorem failUpload_rows {id : String} {status : ItemStatus} {d : DeliveryDb}
    (hmoves : Moves .uploading status) (hnot : status = .aborted ∨ status = .expired) :
    Rows cfg d.items (failUpload id status d).2.items := by
  refine rows_update fun i hi hp => ?_
  rw [Bool.and_eq_true, beq_iff_eq, beq_iff_eq] at hp
  have hpast : ∀ j : ItemRow, j.status = status → ¬ Past j := by
    intro j hj h
    unfold Past at h
    rw [hj] at h
    rcases hnot with rfl | rfl
    · simp at h
    · simp at h
  refine ⟨⟨rfl, rfl, rfl, rfl, rfl, .inr ?_, fun _ => rfl, fun _ => rfl⟩, fun hs => ⟨fun h => ?_, ?_⟩⟩
  · rw [hp.2]
    exact hmoves
  · exact absurd h (hpast _ rfl)
  · refine iff_of_false (fun hready => ?_) (hpast _ rfl)
    have hbefore : Past i := hs.readyAt.1 hready
    unfold Past at hbefore
    rw [hp.2] at hbefore
    simp at hbefore

theorem markMissing_rows {id : String} {d : DeliveryDb} :
    Rows cfg d.items (markMissing id d).items := by
  refine rows_update fun i hi hp => ?_
  rw [Bool.and_eq_true, Bool.and_eq_true, beq_iff_eq, beq_iff_eq, beq_iff_eq] at hp
  obtain ⟨-, hready, -⟩ := hp
  have hpast : Past i := .inl hready
  refine ⟨⟨rfl, rfl, rfl, rfl, rfl, .inr ?_, fun _ => rfl, fun _ => rfl⟩, fun hs =>
    ⟨fun _ => hs.size hpast, iff_of_true (hs.readyAt.2 hpast) (.inr (.inl rfl))⟩⟩
  rw [hready]
  exact .missing

theorem markDeleted_rows {now : Int} {id : String} {d : DeliveryDb} :
    Rows cfg d.items (markDeleted now id d).2.items := by
  refine rows_update fun i hi hp => ?_
  rw [Bool.and_eq_true, Bool.or_eq_true, beq_iff_eq, beq_iff_eq, beq_iff_eq] at hp
  obtain ⟨-, hstatus⟩ := hp
  have hpast : Past i := hstatus.imp (fun h => h) .inl
  refine ⟨⟨rfl, rfl, rfl, rfl, rfl, .inr ?_, fun _ => rfl, fun _ => rfl⟩, fun hs =>
    ⟨fun _ => hs.size hpast, iff_of_true (hs.readyAt.2 hpast) (.inr (.inr rfl))⟩⟩
  rcases hstatus with h | h
  · rw [h]
    exact .deleted
  · rw [h]
    exact .missingDeleted

/-! ## The size of a direct upload -/

theorem receive_ok {chunks : List Bytes} {limiter limiter' : LimitHashStream}
    (hlimit : limiter.size ≤ limiter.maxBytes) (h : receive chunks limiter = .ok limiter') :
    limiter'.size ≤ limiter.maxBytes := by
  induction chunks generalizing limiter with
  | nil =>
      cases h
      exact hlimit
  | cons chunk rest ih =>
      unfold receive at h
      split at h
      · cases h
      · rename_i next hnext
        obtain ⟨hle, rfl⟩ := LocalStorage.transform_ok hnext
        exact @ih ⟨limiter.maxBytes, limiter.size + chunk.length, limiter.hashed ++ chunk⟩ hle h

/-- A direct upload is completed within its limit, and with the size it had announced. -/
theorem DirectUpload.result_some {u : DirectUpload} {transfer : Transfer}
    {limiter : LimitHashStream} (h : u.result transfer = some limiter) :
    limiter.size ≤ u.maxBytes ∧ ∀ n, u.declared = some n → limiter.size = n := by
  cases transfer with
  | failed => cases h
  | received chunks complete =>
      cases hreceive : receive chunks { maxBytes := u.maxBytes } with
      | error e =>
          simp only [DirectUpload.result, hreceive] at h
          cases h
      | ok limiter' =>
          simp only [DirectUpload.result, hreceive, Option.ite_none_left_eq_some] at h
          obtain ⟨-, hdeclared, hsome⟩ := h
          cases hsome
          have hsize : limiter.size ≤ u.maxBytes := receive_ok (Nat.zero_le _) hreceive
          refine ⟨hsize, fun n hn => ?_⟩
          rw [hn, Option.any_some, bne_iff_ne, not_not] at hdeclared
          exact hdeclared.symm

/-! ## The steps -/

/-- What a step does to the items and to the uploads that were started. -/
inductive Effect (cfg : Config) (w w' : World) : Prop
  /-- A row is inserted: an upload that starts, or a note. -/
  | insert {r : ItemRow} (fresh : ∀ x ∈ w.db.items, x.id ≠ r.id)
      (items : w'.db.items = w.db.items ++ [r])
      (row : r.status = .uploading ∧ r.readyAt = none ∨
        r.kind = .note ∧ r.status = .ready ∧ r.readyAt ≠ none)
      (direct : ∀ u ∈ w'.direct, u ∈ w.direct ∨ u.itemId = r.id ∧ u.declared = r.declaredSize ∧
        u.maxBytes = u.declared.getD cfg.maxFileBytes ∧ u.maxBytes ≤ cfg.maxFileBytes)
      (tus : ∀ u ∈ w'.tus, u ∈ w.tus ∨ u.id = r.id ∧ r.declaredSize = some u.size ∧
        u.size ≤ cfg.maxFileBytes)
  /-- Rows are taken one step further, or left alone. -/
  | rows (items : Rows cfg w.db.items w'.db.items) (direct : ∀ u ∈ w'.direct, u ∈ w.direct)
      (tus : ∀ u ∈ w'.tus, u ∈ w.tus)

theorem Effect.nothing {w w' : World} (hitems : w'.db.items = w.db.items)
    (hdirect : w'.direct = w.direct) (htus : w'.tus = w.tus) : Effect cfg w w' := by
  refine .rows ?_ (fun u hu => hdirect ▸ hu) fun u hu => htus ▸ hu
  rw [hitems]
  exact rows_refl _

theorem effect_startDirect (now : Int) (input : StartUploadInput) :
    Effect cfg w (step P cfg w (.startDirect now input)).1 := by
  cases h : startUpload P cfg now { input with uploadKind := .direct } w.db with
  | error e =>
      have hstep : (step P cfg w (.startDirect now input)).1 = w := by simp only [step, h]
      rw [hstep]
      exact .nothing rfl rfl rfl
  | ok r =>
      obtain ⟨⟨item, maxBytes⟩, d'⟩ := r
      obtain ⟨-, -, hstatus, rfl⟩ := startUpload_ok h
      obtain ⟨hfresh, -, -, hdeclared, -⟩ := startUpload_row h
      obtain ⟨hready, hmax, hlimit⟩ := startUpload_limits h
      simp only [] at hdeclared hmax hlimit hstatus hready hfresh
      have hstep : (step P cfg w (.startDirect now input)).1 =
          ⟨{ w.db with items := w.db.items ++ [item] },
            w.direct ++ [⟨item.id, input.declaredSize, maxBytes⟩], w.tus⟩ := by
        simp only [step, h]
      rw [hstep]
      refine .insert hfresh rfl (.inl ⟨hstatus, hready⟩) (fun u hu => ?_) fun u hu => .inl hu
      refine (List.mem_append.1 hu).imp (fun h => h) fun hu => ?_
      rw [List.mem_singleton.1 hu]
      refine ⟨rfl, hdeclared.symm, hmax, ?_⟩
      simp only [hmax]
      cases hsize : input.declaredSize with
      | none => exact le_rfl
      | some n => exact hlimit n hsize

theorem effect_createTus (now : Int) (input : StartUploadInput) (size : Option Nat) :
    Effect cfg w (step P cfg w (.createTus now input size)).1 := by
  cases size with
  | none => exact .nothing rfl rfl rfl
  | some size =>
      cases h : startUpload P cfg now
          { input with uploadKind := .tus, declaredSize := some size } w.db with
      | error e =>
          have hstep : (step P cfg w (.createTus now input (some size))).1 = w := by
            simp only [step, h]
          rw [hstep]
          exact .nothing rfl rfl rfl
      | ok r =>
          obtain ⟨⟨item, maxBytes⟩, d'⟩ := r
          obtain ⟨hid, -, hstatus, rfl⟩ := startUpload_ok h
          obtain ⟨hfresh, -, -, hdeclared, -⟩ := startUpload_row h
          obtain ⟨hready, -, hlimit⟩ := startUpload_limits h
          simp only [] at hid hdeclared hlimit hstatus hready hfresh
          have hstep : (step P cfg w (.createTus now input (some size))).1 =
              ⟨{ w.db with items := w.db.items ++ [item] }, w.direct,
                w.tus ++ [⟨input.id, size⟩]⟩ := by
            simp only [step, h]
          rw [hstep]
          refine .insert hfresh rfl (.inl ⟨hstatus, hready⟩) (fun u hu => .inl hu) fun u hu => ?_
          refine (List.mem_append.1 hu).imp (fun h => h) fun hu => ?_
          rw [List.mem_singleton.1 hu]
          exact ⟨hid.symm, hdeclared, hlimit size rfl⟩

theorem effect_createNote (now : Int) (id : String) (input : NoteInput) :
    Effect cfg w (step P cfg w (.createNote now id input)).1 := by
  cases h : createNote now id input w.db with
  | error e =>
      have hstep : (step P cfg w (.createNote now id input)).1 = w := by simp only [step, h]
      rw [hstep]
      exact .nothing rfl rfl rfl
  | ok r =>
      obtain ⟨item, d'⟩ := r
      obtain ⟨-, hkind, rfl⟩ := createNote_ok h
      obtain ⟨hstatus, hready⟩ := createNote_row h
      have hstep : (step P cfg w (.createNote now id input)).1 =
          ⟨{ w.db with items := w.db.items ++ [item] }, w.direct, w.tus⟩ := by
        simp only [step, h]
      rw [hstep]
      refine .insert (createNote_fresh h) rfl (.inr ⟨hkind, hstatus, ?_⟩) (fun u hu => .inl hu)
        fun u hu => .inl hu
      rw [hready]
      exact Option.some_ne_none _

/-- However its body ended, a direct upload takes its own row one step further. -/
theorem effect_endDirect (hi : Inv cfg w) (now : Int) (itemId : String) (transfer : Transfer) :
    Effect cfg w (step P cfg w (.endDirect now itemId transfer)).1 := by
  cases hfind : w.direct.find? (·.itemId == itemId) with
  | none =>
      have hstep : (step P cfg w (.endDirect now itemId transfer)).1 = w := by
        simp only [step, hfind]
      rw [hstep]
      exact .nothing rfl rfl rfl
  | some u =>
      have hstep : (step P cfg w (.endDirect now itemId transfer)).1 =
          ⟨endDirect P now u transfer w.db,
            w.direct.filter fun x => !(x.itemId == itemId), w.tus⟩ := by
        simp only [step, hfind]
      obtain ⟨-, hmax, hdeclared⟩ := hi.direct u (List.mem_of_find?_eq_some hfind)
      rw [hstep]
      refine .rows ?_ (fun x hx => (List.mem_filter.1 hx).1) fun x hx => hx
      show Rows cfg w.db.items (endDirect P now u transfer w.db).items
      unfold endDirect
      cases hresult : u.result transfer with
      | none => exact failUpload_rows .aborted (.inl rfl)
      | some limiter =>
          obtain ⟨hle, hsize⟩ := DirectUpload.result_some hresult
          refine completeUpload_rows fun i hi hid => ⟨hle.trans hmax, fun n hn => ?_⟩
          exact hsize n ((hdeclared i hi hid).symm.trans hn)

theorem effect_finishTus (hi : Inv cfg w) (now : Int) (id : String) (offset : Nat) :
    Effect cfg w (step P cfg w (.finishTus now id offset)).1 := by
  cases hfind : w.tus.find? (·.id == id) with
  | none =>
      have hstep : (step P cfg w (.finishTus now id offset)).1 = w := by simp only [step, hfind]
      rw [hstep]
      exact .nothing rfl rfl rfl
  | some u =>
      by_cases hoffset : offset = u.size
      · have hstep : (step P cfg w (.finishTus now id offset)).1 =
            ⟨(completeUpload now id u.size none w.db).2, w.direct, w.tus⟩ := by
          simp only [step, hfind, hoffset, ne_eq, not_true_eq_false, if_false]
        obtain ⟨hmax, hdeclared⟩ := hi.tus u (List.mem_of_find?_eq_some hfind)
        have hu : u.id = id :=
          beq_iff_eq.1 (List.find?_some (p := fun x : TusUpload => x.id == id) hfind)
        rw [hstep]
        refine .rows ?_ (fun x hx => hx) fun x hx => hx
        refine completeUpload_rows fun i hi hid => ⟨hmax, fun n hn => ?_⟩
        exact Option.some.inj ((hdeclared i hi (hid.trans hu.symm)).symm.trans hn)
      · have hstep : (step P cfg w (.finishTus now id offset)).1 = w := by
          simp only [step, hfind, ne_eq, hoffset, not_false_eq_true, if_true]
        rw [hstep]
        exact .nothing rfl rfl rfl

theorem step_effect (hi : Inv cfg w) (op : Op) : Effect cfg w (step P cfg w op).1 := by
  cases op with
  | startDirect now input => exact effect_startDirect now input
  | endDirect now itemId transfer => exact effect_endDirect hi now itemId transfer
  | createTus now input size => exact effect_createTus now input size
  | finishTus now id offset => exact effect_finishTus hi now id offset
  | createNote now id input => exact effect_createNote now id input
  | abort itemId => exact .rows (failUpload_rows .aborted (.inl rfl)) (fun _ h => h) fun _ h => h
  | expire itemId => exact .rows (failUpload_rows .expired (.inr rfl)) (fun _ h => h) fun _ h => h
  | markMissing itemId => exact .rows markMissing_rows (fun _ h => h) fun _ h => h
  | markDeleted now itemId => exact .rows markDeleted_rows (fun _ h => h) fun _ h => h
  | elsewhere d => exact .nothing rfl rfl rfl

theorem Effect.evolves {w' : World} (h : Effect cfg w w') :
    Evolves w.db.items w'.db.items := by
  cases h with
  | insert fresh items row direct tus =>
      refine ⟨w.db.items, _, items, List.forall₂_same.2 fun i _ => .refl i, fun i hi => ?_⟩
      rw [List.mem_singleton.1 hi]
      exact row.imp And.left fun h => ⟨h.1, h.2.1⟩
  | rows items direct tus =>
      exact ⟨_, [], (List.append_nil _).symm, items.imp fun _ _ h => h.1, fun _ h => nomatch h⟩

/-- A row of a new upload or of a new note is sound. -/
theorem sound_inserted {r : ItemRow} (h : r.status = .uploading ∧ r.readyAt = none ∨
    r.kind = .note ∧ r.status = .ready ∧ r.readyAt ≠ none) : Sound cfg r := by
  rcases h with ⟨hstatus, hready⟩ | ⟨hkind, hstatus, hready⟩
  · have hnot : ¬ Past r := by
      unfold Past
      rw [hstatus]
      simp
    refine ⟨fun h => absurd h hnot, iff_of_false ?_ hnot⟩
    rw [hready]
    exact Bool.false_ne_true
  · refine ⟨fun _ hfile => ?_, iff_of_true (Option.isSome_iff_ne_none.2 hready) (.inl hstatus)⟩
    rw [hkind] at hfile
    cases hfile

theorem inv_step (hi : Inv cfg w) (op : Op) : Inv cfg (step P cfg w op).1 := by
  have he : Effect cfg w (step P cfg w op).1 := step_effect hi op
  generalize (step P cfg w op).1 = w' at he
  cases he with
  | @insert r fresh items row direct tus =>
      exact {
        ids := by
          rw [items]
          exact Table.nodup_append_row hi.ids fresh
        sound := by
          intro i hmem
          rw [items] at hmem
          rcases List.mem_append.1 hmem with hmem | hmem
          · exact hi.sound i hmem
          · rw [List.mem_singleton.1 hmem]
            exact sound_inserted row
        direct := by
          intro u hu
          rcases direct u hu with hold | ⟨hid, hdeclared, hmax, hle⟩
          · obtain ⟨hmax, hle, hall⟩ := hi.direct u hold
            refine ⟨hmax, hle, fun i hmem hid => ?_⟩
            rw [items] at hmem
            rcases List.mem_append.1 hmem with hmem | hmem
            · exact hall i hmem hid
            · obtain ⟨x, hx, hxid⟩ := hi.directIds u hold
              rw [List.mem_singleton.1 hmem] at hid
              exact absurd (hxid.trans hid.symm) (fresh x hx)
          · refine ⟨hmax, hle, fun i hmem hsame => ?_⟩
            rw [items] at hmem
            rcases List.mem_append.1 hmem with hmem | hmem
            · exact absurd (hsame.trans hid) (fresh i hmem)
            · rw [List.mem_singleton.1 hmem]
              exact hdeclared.symm
        directIds := by
          intro u hu
          rw [items]
          rcases direct u hu with hold | ⟨hid, -⟩
          · obtain ⟨i, hmem, hid⟩ := hi.directIds u hold
            exact ⟨i, List.mem_append_left _ hmem, hid⟩
          · exact ⟨r, List.mem_append_right _ (List.mem_singleton_self r), hid.symm⟩
        tus := by
          intro u hu
          rcases tus u hu with hold | ⟨hid, hdeclared, hle⟩
          · obtain ⟨hle, hall⟩ := hi.tus u hold
            refine ⟨hle, fun i hmem hid => ?_⟩
            rw [items] at hmem
            rcases List.mem_append.1 hmem with hmem | hmem
            · exact hall i hmem hid
            · obtain ⟨x, hx, hxid⟩ := hi.tusIds u hold
              rw [List.mem_singleton.1 hmem] at hid
              exact absurd (hxid.trans hid.symm) (fresh x hx)
          · refine ⟨hle, fun i hmem hsame => ?_⟩
            rw [items] at hmem
            rcases List.mem_append.1 hmem with hmem | hmem
            · exact absurd (hsame.trans hid) (fresh i hmem)
            · rw [List.mem_singleton.1 hmem]
              exact hdeclared
        tusIds := by
          intro u hu
          rw [items]
          rcases tus u hu with hold | ⟨hid, -⟩
          · obtain ⟨i, hmem, hid⟩ := hi.tusIds u hold
            exact ⟨i, List.mem_append_left _ hmem, hid⟩
          · exact ⟨r, List.mem_append_right _ (List.mem_singleton_self r), hid.symm⟩ }
  | rows items direct tus =>
      have hsame : ∀ {id : String}, (∃ i ∈ w.db.items, i.id = id) → ∃ i ∈ w'.db.items, i.id = id := by
        intro id h
        rw [← List.mem_map (f := fun i : ItemRow => i.id)] at h ⊢
        rwa [items.ids]
      exact {
        ids := by
          rw [items.ids]
          exact hi.ids
        sound := by
          intro i hmem
          obtain ⟨i₀, hmem₀, -, hsound⟩ := items.origin hmem
          exact hsound (hi.sound i₀ hmem₀)
        direct := by
          intro u hu
          obtain ⟨hmax, hle, hall⟩ := hi.direct u (direct u hu)
          refine ⟨hmax, hle, fun i hmem hid => ?_⟩
          obtain ⟨i₀, hmem₀, hrow, -⟩ := items.origin hmem
          exact hrow.declaredSize.trans (hall i₀ hmem₀ (hrow.id.symm.trans hid))
        directIds := fun u hu => hsame (hi.directIds u (direct u hu))
        tus := by
          intro u hu
          obtain ⟨hle, hall⟩ := hi.tus u (tus u hu)
          refine ⟨hle, fun i hmem hid => ?_⟩
          obtain ⟨i₀, hmem₀, hrow, -⟩ := items.origin hmem
          exact hrow.declaredSize.trans (hall i₀ hmem₀ (hrow.id.symm.trans hid))
        tusIds := fun u hu => hsame (hi.tusIds u (tus u hu)) }

/-! ## Runs -/

/-- What a run remembers of the items. -/
structure Remembers (cfg : Config) (h : List Event) (w : World) : Prop where
  inv : Inv cfg w
  kept : ∀ e ∈ h, ∀ i ∈ e.post.db.items, ∃ i' ∈ w.db.items, i'.id = i.id
  past : ∀ i ∈ w.db.items, Past i ↔ WasReady h i.id

theorem wasReady_cons {e : Event} {h : List Event} {id : String} :
    WasReady (e :: h) id ↔
      (∃ i ∈ e.post.db.items, i.id = id ∧ i.status = .ready) ∨ WasReady h id := by
  simp only [WasReady, List.mem_cons, exists_eq_or_imp]

theorem remembers_step {h : List Event} (hm : Remembers cfg h w) (op : Op) :
    Remembers cfg (History.fire (step P cfg) w op :: h) (step P cfg w op).1 := by
  have hi' : Inv cfg (step P cfg w op).1 := inv_step hm.inv op
  have he : Effect cfg w (step P cfg w op).1 := step_effect hm.inv op
  have hpost : (History.fire (step P cfg) w op).post = (step P cfg w op).1 := rfl
  generalize History.fire (step P cfg) w op = e at hpost
  generalize (step P cfg w op).1 = w' at hi' he hpost
  subst hpost
  have hids : ∀ i ∈ w.db.items, ∃ i' ∈ e.post.db.items, i'.id = i.id := by
    intro i hmem
    cases he with
    | insert fresh items => exact ⟨i, by rw [items]; exact List.mem_append_left _ hmem, rfl⟩
    | rows items =>
        have hin : i.id ∈ e.post.db.items.map (·.id) := by
          rw [items.ids]
          exact List.mem_map_of_mem hmem
        exact List.mem_map.1 hin
  refine ⟨hi', ?_, ?_⟩
  · intro x hx i hmem
    rcases List.mem_cons.1 hx with rfl | hx
    · exact ⟨i, hmem, rfl⟩
    · obtain ⟨i₀, hmem₀, hid⟩ := hm.kept x hx i hmem
      obtain ⟨i', hmem', hid'⟩ := hids i₀ hmem₀
      exact ⟨i', hmem', hid'.trans hid⟩
  · intro i hmem
    rw [wasReady_cons]
    -- only the row itself has its identifier
    have hnow : (∃ j ∈ e.post.db.items, j.id = i.id ∧ j.status = .ready) ↔ i.status = .ready := by
      constructor
      · rintro ⟨j, hj, hid, hready⟩
        rwa [← Table.eq_of_key hi'.ids hj hmem hid]
      · exact fun hready => ⟨i, hmem, rfl, hready⟩
    rw [hnow]
    cases he with
    | @insert r fresh items row =>
        have hold : ∀ j, j ∈ w.db.items → (Past j ↔ j.status = .ready ∨ WasReady h j.id) := by
          intro j hj
          rw [← hm.past j hj]
          exact ⟨.inr, fun hor => hor.elim .inl fun hp => hp⟩
        rw [items] at hmem
        rcases List.mem_append.1 hmem with hmem | hmem
        · exact hold i hmem
        · rw [List.mem_singleton.1 hmem]
          have hnever : ¬ WasReady h r.id := by
            rintro ⟨x, hx, j, hj, hid, -⟩
            obtain ⟨i₀, hmem₀, hid₀⟩ := hm.kept x hx j hj
            exact fresh i₀ hmem₀ (hid₀.trans hid)
          rw [or_iff_left hnever]
          refine ⟨fun hp => ?_, .inl⟩
          rcases row with ⟨hstatus, -⟩ | ⟨-, hstatus, -⟩
          · unfold Past at hp
            rw [hstatus] at hp
            simp at hp
          · exact hstatus
    | rows items =>
        obtain ⟨i₀, hmem₀, hrow, -⟩ := items.origin hmem
        rw [hrow.id, ← hm.past i₀ hmem₀]
        constructor
        · intro hp
          exact (hrow.past_origin hp).symm
        · rintro (hready | hp)
          · exact .inl hready
          · exact hrow.past hp

theorem remembers_run {w₀ : World} {h : List Event} (h0 : w₀.Fresh)
    (hr : History.Run (step P cfg) env w₀ h w) : Remembers cfg h w := by
  refine hr.invariant (I := fun h w => Remembers cfg h w) ?_
    fun _ _ op _ _ hm => remembers_step hm op
  have hitems : ∀ i, i ∉ w₀.db.items := by
    intro i hmem
    rw [h0.items] at hmem
    cases hmem
  have hdirect : ∀ u, u ∉ w₀.direct := by
    intro u hu
    rw [h0.direct] at hu
    cases hu
  have htus : ∀ u, u ∉ w₀.tus := by
    intro u hu
    rw [h0.tus] at hu
    cases hu
  exact {
    inv := {
      ids := by
        rw [h0.items]
        exact List.nodup_nil
      sound := fun i hi => absurd hi (hitems i)
      direct := fun u hu => absurd hu (hdirect u)
      directIds := fun u hu => absurd hu (hdirect u)
      tus := fun u hu => absurd hu (htus u)
      tusIds := fun u hu => absurd hu (htus u) }
    kept := fun _ he => nomatch he
    past := fun i hi => absurd hi (hitems i) }

theorem listItemsForRecipient_perm (caseId : String) (d : DeliveryDb) :
    (listItemsForRecipient caseId d).Perm
      ((d.items.filter fun i => i.caseId == caseId && i.status == .ready).map published) :=
  (List.perm_insertionSort _ _).map published

end

/-- In every run each step takes items along the moves of their status and keeps what does not
change.  A file that is or was ready has the size that was announced, within the limit; the time
it became ready is known exactly then; and the recipients of a case see exactly what is ready. -/
theorem item_lifecycle {w₀ w : World} {h : List Event} (h0 : w₀.Fresh)
    (hr : History.Run (step P cfg) env w₀ h w) :
    (∀ e ∈ h, Evolves e.pre.db.items e.post.db.items) ∧
      (∀ i ∈ w.db.items, WasReady h i.id → i.kind = .file →
        ∃ size, i.size = some size ∧ Fits cfg i size) ∧
      (∀ i ∈ w.db.items, i.readyAt.isSome = true ↔ WasReady h i.id) ∧
      ∀ caseId, (listItemsForRecipient caseId w.db).Perm
        ((w.db.items.filter fun i => i.caseId == caseId && i.status == .ready).map published) := by
  have hm : Remembers cfg h w := remembers_run h0 hr
  refine ⟨fun e he => ?_, fun i hi hready => ?_, fun i hi => ?_, fun caseId => ?_⟩
  · obtain ⟨later, earlier, rfl⟩ := List.append_of_mem he
    obtain ⟨op, hpre, -, hfire⟩ := hr.split
    rw [hfire]
    exact (step_effect (remembers_run h0 hpre).inv op).evolves
  · exact (hm.inv.sound i hi).size ((hm.past i hi).2 hready)
  · rw [(hm.inv.sound i hi).readyAt]
    exact hm.past i hi
  · exact listItemsForRecipient_perm caseId w.db

/-! ## A run -/

/-- A database with one case and no item. -/
def oneCase : World :=
  ⟨{ DeliveryDb.empty with cases := [⟨"c_1", "Case", "", .isOpen, 0, 0⟩] }, [], []⟩

/-- An upload of three bytes in two chunks, and a note; the file is lost in the end. -/
def oneUpload : List Op :=
  [.startDirect 0 ⟨"f_1", "c_1", "a.txt", .direct, some 3, none⟩,
    .createNote 1 "1" ⟨"c_1", "Hello", "World", none⟩,
    .endDirect 2 "f_1" (.received [[1, 2], [3]] true),
    .expire "f_1", .markMissing "f_1"]

theorem item_lifecycle_oneUpload :
    let r := History.replay (step .sample defaultConfig) [] oneCase oneUpload
    (r.2.db.items.map fun i => (i.id, i.status, i.size)) =
        [("f_1", .missing, some 3), ("n_1", .ready, none)] ∧
      ∀ i ∈ r.2.db.items, i.readyAt.isSome = true ↔ WasReady r.1 i.id := by
  refine ⟨by decide +kernel, ?_⟩
  exact (item_lifecycle .sample defaultConfig ⟨rfl, rfl, rfl⟩
    (History.run_replay .start (History.admits_of_forall (fun _ _ _ => trivial) _ _ _))).2.2.1

end Lifecycle

end Outletbox
