import Outletbox.Http.App
import Outletbox.Library.History
import Outletbox.Storage

/-!
# What the housekeeping job takes away

The runs of the operations on items and of the housekeeping job, each one step.
The job finds any listing of the storage and any answer to `stat`.  It takes
away the data of the unfinished uploads that are too old, and what the sweep
removes.

A row whose object was once reported gone is 'missing' for good, and
`liveStorageKeys` does not count it.  An object that was out of reach for a while
is therefore an orphan when it is listed again: `spares_iff` says exactly when a
sweep leaves alone what the database still records.
-/

namespace Outletbox

namespace Sweep

/-! ## The system -/

/-- A run of the housekeeping job, with what the storage answers. -/
structure Job where
  run : CleanupRun
  /-- The instant the sweep starts. -/
  sweptAt : Int
  listing : Listing

/-- The operations on items. -/
inductive Op
  | startUpload (now : Int) (input : StartUploadInput)
  | completeUpload (now : Int) (itemId : String) (size : Nat) (sha256 : Option String)
  | abortUpload (itemId : String)
  | markDeleted (now : Int) (itemId : String)
  | createNote (now : Int) (id : String) (input : NoteInput)
  | runCleanup (job : Job)

/-- What a step takes away from the storage. -/
structure Report where
  /-- The items whose unfinished data was discarded. -/
  discarded : List String := []
  /-- What the sweep removed. -/
  removed : List Orphan := []
  deriving DecidableEq

abbrev Event := History.Event DeliveryDb Op Report

/-- The items after the first two phases of the job. -/
def tidy (run : CleanupRun) (d : DeliveryDb) : DeliveryDb :=
  let d := (expireUploads (listStaleUploads run.now run.ttlMs d) d).2
  (flagMissing ((listReadyFiles d).filter fun i => run.isGone i.id) d).2

/-- The cutoff of the sweep. -/
def Job.cutoff (job : Job) : Int := job.sweptAt - job.run.ttlMs

/-- `runCleanup`. -/
def clean (job : Job) (d : DeliveryDb) : DeliveryDb × Report :=
  let live := liveStorageKeys (tidy job.run d)
  (purgeExpiredAccess job.run.now (tidy job.run d),
    { discarded := ((listStaleUploads job.run.now job.run.ttlMs d).filter (·.kind == .file)).map
        (·.id)
      removed := cleanupOrphans job.cutoff (fun key => live.contains key) job.listing })

variable (P : Platform) (cfg : Config)

def step (d : DeliveryDb) : Op → DeliveryDb × Report
  | .startUpload now input =>
      match startUpload P cfg now input d with
      | .ok (_, d) => (d, {})
      | .error _ => (d, {})
  | .completeUpload now itemId size sha256 => ((completeUpload now itemId size sha256 d).2, {})
  | .abortUpload itemId => ((failUpload itemId .aborted d).2, {})
  | .markDeleted now itemId => ((markDeleted now itemId d).2, {})
  | .createNote now id input =>
      match createNote now id input d with
      | .ok (_, d) => (d, {})
      | .error _ => (d, {})
  | .runCleanup job => clean job d

/-- Anything may happen at any time. -/
def env (_ : List Event) (_ : DeliveryDb) (_ : Op) : Prop := True

/-- The job does to the deliveries what it does on the whole server. -/
theorem runCleanup_deliveries (job : Job) (sv : Server) :
    (runCleanup job.run sv).1.deliveries = (clean job sv.deliveries).1 := rfl

/-! ## What is promised -/

/-- The row is out of use: nobody reads its object any more. -/
def Dropped (i : ItemRow) : Prop := i.status = .aborted ∨ i.status = .expired ∨ i.status = .deleted

/-- What the sweep of a step removed belongs to no row, or to rows out of use. -/
def Spares (e : Event) : Prop :=
  ∀ x ∈ e.output.removed, ∀ i ∈ e.post.items, i.id = x.key → Dropped i

/-- The job will not count the object of the row as wanted, although the row is in use. -/
def Exposed (run : CleanupRun) (i : ItemRow) : Prop :=
  i.status = .missing ∨
    (i.status = .ready ∧ (i.kind = .note ∨ run.isGone i.id = true)) ∨
    (i.status = .uploading ∧ i.kind = .note ∧ ¬ isoLt i.createdAt (run.now - run.ttlMs))

/-- No old artefact in sight belongs to a row that is exposed. -/
def Undisturbed (e : Event) : Prop :=
  match e.input with
  | .runCleanup job =>
      ∀ x ∈ oldArtefacts job.cutoff job.listing, ∀ i ∈ e.pre.items, i.id = x.key →
        ¬ Exposed job.run i
  | _ => True

/-- Somebody deletes an item. -/
def Deletes (itemId : String) (e : Event) : Prop := ∃ now, e.input = .markDeleted now itemId

/-- The step takes the object of an item away. -/
def Loses (itemId : String) (e : Event) : Prop :=
  itemId ∈ e.output.discarded ∨ ∃ x ∈ e.output.removed, x.key = itemId

/-- The file was published, and nobody deleted it. -/
def Published (itemId : String) (d : DeliveryDb) : Prop :=
  ∃ i ∈ d.items, i.id = itemId ∧ i.kind = .file ∧ (i.status = .ready ∨ i.status = .missing)

/-- `items.id` is a primary key. -/
def Keyed (d : DeliveryDb) : Prop := (d.items.map (·.id)).Nodup

/-! ## What the first two phases do to a row -/

/-- What becomes of a row. -/
def tidied (run : CleanupRun) (i : ItemRow) : ItemRow :=
  if i.status = .uploading ∧ isoLt i.createdAt (run.now - run.ttlMs) then
    { i with status := .expired }
  else if i.status = .ready ∧ i.kind = .file ∧ run.isGone i.id = true then
    { i with status := .missing }
  else i

section

variable {P cfg} {run : CleanupRun} {job : Job} {d d' : DeliveryDb} {i : ItemRow}

theorem failUpload_items (itemId : String) (status : ItemStatus) (d : DeliveryDb) :
    (failUpload itemId status d).2.items = d.items.map fun i =>
      if i.id = itemId ∧ i.status = .uploading then { i with status := status } else i := by
  refine List.map_congr_left fun i _ => ?_
  simp only [Bool.and_eq_true, beq_iff_eq]

theorem markMissing_items (itemId : String) (d : DeliveryDb) :
    (markMissing itemId d).items = d.items.map fun i =>
      if i.id = itemId ∧ i.status = .ready ∧ i.kind = .file then { i with status := .missing }
      else i := by
  refine List.map_congr_left fun i _ => ?_
  simp only [Bool.and_eq_true, beq_iff_eq]

theorem expireUploads_items (items : List ItemRow) (d : DeliveryDb) :
    (expireUploads items d).2.items = d.items.map fun i =>
      if i.status = .uploading ∧ ∃ j ∈ items, j.id = i.id then { i with status := .expired }
      else i := by
  induction items generalizing d with
  | nil => simp [expireUploads]
  | cons j items ih =>
      have hstep : (expireUploads (j :: items) d).2 =
          (expireUploads items (failUpload j.id .expired d).2).2 := rfl
      rw [hstep, ih, failUpload_items, List.map_map]
      refine List.map_congr_left fun i _ => ?_
      simp only [Function.comp_apply, List.mem_cons, exists_eq_or_imp]
      by_cases hup : i.status = .uploading
      · by_cases hid : i.id = j.id
        · simp [hup, hid]
        · simp [hup, hid, Ne.symm hid]
      · simp [hup]

theorem flagMissing_items (items : List ItemRow) (d : DeliveryDb) :
    (flagMissing items d).2.items = d.items.map fun i =>
      if i.status = .ready ∧ i.kind = .file ∧ ∃ j ∈ items, j.id = i.id then
        { i with status := .missing }
      else i := by
  induction items generalizing d with
  | nil => simp [flagMissing]
  | cons j items ih =>
      have hstep : (flagMissing (j :: items) d).2 =
          (flagMissing items (markMissing j.id d)).2 := rfl
      rw [hstep, ih, markMissing_items, List.map_map]
      refine List.map_congr_left fun i _ => ?_
      simp only [Function.comp_apply, List.mem_cons, exists_eq_or_imp]
      by_cases hready : i.status = .ready ∧ i.kind = .file
      · obtain ⟨hready, hfile⟩ := hready
        by_cases hid : i.id = j.id
        · simp [hready, hfile, hid]
        · simp [hready, hfile, hid, Ne.symm hid]
      · have hno : ¬ (i.id = j.id ∧ i.status = .ready ∧ i.kind = .file) := fun h => hready h.2
        rw [if_neg hno]
        simp only [← and_assoc, hready, false_and]

theorem tidied_id (run : CleanupRun) (i : ItemRow) : (tidied run i).id = i.id := by
  unfold tidied
  split
  · rfl
  · split
    · rfl
    · rfl

theorem tidied_kind (run : CleanupRun) (i : ItemRow) : (tidied run i).kind = i.kind := by
  unfold tidied
  split
  · rfl
  · split
    · rfl
    · rfl

theorem tidy_items (hk : Keyed d) (run : CleanupRun) :
    (tidy run d).items = d.items.map (tidied run) := by
  have hstale : ∀ i ∈ d.items, i.status = .uploading →
      ((∃ j ∈ listStaleUploads run.now run.ttlMs d, j.id = i.id) ↔
        isoLt i.createdAt (run.now - run.ttlMs)) := by
    intro i hi hup
    constructor
    · rintro ⟨j, hj, hid⟩
      obtain ⟨hmem, hold⟩ := List.mem_filter.1 hj
      rw [Bool.and_eq_true, decide_eq_true_eq] at hold
      rw [← Table.eq_of_key hk hmem hi hid]
      exact hold.2
    · intro hold
      exact ⟨i, List.mem_filter.2 ⟨hi, by simp [hup, hold]⟩, rfl⟩
  have hexpired : (expireUploads (listStaleUploads run.now run.ttlMs d) d).2.items =
      d.items.map fun i => if i.status = .uploading ∧ isoLt i.createdAt (run.now - run.ttlMs) then
        { i with status := .expired } else i := by
    rw [expireUploads_items]
    refine List.map_congr_left fun i hi => ?_
    by_cases hup : i.status = .uploading
    · simp only [hup, true_and, hstale i hi hup]
    · simp only [hup, false_and]
  show (flagMissing _ _).2.items = _
  rw [flagMissing_items]
  have hgone : ∀ d : DeliveryDb, (d.items.map fun i =>
      if i.status = .ready ∧ i.kind = .file ∧
          ∃ j ∈ (listReadyFiles d).filter fun i => run.isGone i.id, j.id = i.id then
        { i with status := .missing } else i) =
      d.items.map fun i => if i.status = .ready ∧ i.kind = .file ∧ run.isGone i.id = true then
        { i with status := .missing } else i := by
    intro d
    refine List.map_congr_left fun i hi => ?_
    by_cases hready : i.status = .ready ∧ i.kind = .file
    · obtain ⟨hready, hfile⟩ := hready
      simp only [hready, hfile, true_and]
      congr 1
      refine propext ⟨?_, fun hg => ⟨i, ?_, rfl⟩⟩
      · rintro ⟨j, hj, hid⟩
        rw [← hid]
        exact (List.mem_filter.1 hj).2
      · exact List.mem_filter.2 ⟨List.mem_filter.2 ⟨hi, by simp [hready, hfile]⟩, hg⟩
    · simp only [← and_assoc, hready, false_and]
  rw [hgone, hexpired, List.map_map]
  refine List.map_congr_left fun i _ => ?_
  simp only [Function.comp_apply, tidied]
  by_cases hold : i.status = .uploading ∧ isoLt i.createdAt (run.now - run.ttlMs)
  · simp [hold]
  · simp [hold]

/-! ## What the sweep leaves alone -/

/-- The sweep counts the object of the row as wanted. -/
def Wanted (i : ItemRow) : Prop := i.kind = .file ∧ (i.status = .uploading ∨ i.status = .ready)

/-- A row is neither wanted nor out of use exactly when the job exposes it. -/
theorem wanted_or_dropped_iff :
    Wanted (tidied run i) ∨ Dropped (tidied run i) ↔ ¬ Exposed run i := by
  unfold tidied Wanted Dropped Exposed
  by_cases hold : i.status = .uploading ∧ isoLt i.createdAt (run.now - run.ttlMs)
  · simp [hold.1, hold.2]
  · rw [if_neg hold]
    by_cases hgone : i.status = .ready ∧ i.kind = .file ∧ run.isGone i.id = true
    · simp [hgone]
    · rw [if_neg hgone]
      cases hstatus : i.status with
      | uploading =>
          have hnew : ¬ isoLt i.createdAt (run.now - run.ttlMs) := fun h => hold ⟨hstatus, h⟩
          cases hkind : i.kind with
          | file => simp
          | note => simpa using hnew
      | ready =>
          cases hkind : i.kind with
          | file =>
              have hthere : run.isGone i.id = false := by
                simpa [hstatus, hkind] using hgone
              simp [hthere]
          | note => simp
      | aborted => simp
      | expired => simp
      | missing => simp
      | deleted => simp

theorem wanted_iff_live (hk : Keyed d) (hi : i ∈ d.items) :
    (liveStorageKeys (tidy run d)).contains i.id = true ↔ Wanted (tidied run i) := by
  rw [List.contains_iff_mem, mem_liveStorageKeys, tidy_items hk]
  constructor
  · rintro ⟨t, ht, hid, hwanted⟩
    obtain ⟨j, hj, rfl⟩ := List.mem_map.1 ht
    rw [tidied_id] at hid
    rw [← Table.eq_of_key hk hj hi hid]
    exact hwanted
  · intro hwanted
    exact ⟨tidied run i, List.mem_map_of_mem hi, tidied_id run i, hwanted⟩

/-- A step of the job leaves alone what the database still records exactly when no row in sight
is exposed. -/
theorem spares_clean_iff (hk : Keyed d) : Spares ⟨d, .runCleanup job, (clean job d).2,
    (clean job d).1⟩ ↔ Undisturbed ⟨d, .runCleanup job, (clean job d).2, (clean job d).1⟩ := by
  have hrows : (clean job d).1.items = d.items.map (tidied job.run) := tidy_items hk job.run
  constructor
  · intro hs x hx i hi hid
    refine wanted_or_dropped_iff.1 ?_
    by_cases hlive : (liveStorageKeys (tidy job.run d)).contains x.key = true
    · rw [← hid] at hlive
      exact .inl ((wanted_iff_live hk hi).1 hlive)
    · have hremoved : x ∈ (clean job d).2.removed :=
        mem_cleanupOrphans.2 ⟨hx, by simpa using hlive⟩
      refine .inr (hs x hremoved (tidied job.run i) ?_ ((tidied_id job.run i).trans hid))
      show tidied job.run i ∈ (clean job d).1.items
      rw [hrows]
      exact List.mem_map_of_mem hi
  · intro hu x hx t ht hid
    obtain ⟨hold, hlive⟩ := mem_cleanupOrphans.1 hx
    simp only [] at ht
    rw [hrows] at ht
    obtain ⟨i, hi, rfl⟩ := List.mem_map.1 ht
    rw [tidied_id] at hid
    rcases wanted_or_dropped_iff.2 (hu x hold i hi hid) with hwanted | hdropped
    · rw [← hid, (wanted_iff_live hk hi).2 hwanted] at hlive
      cases hlive
    · exact hdropped

/-! ## What a step does -/

/-- All that a step does. -/
inductive Effect (d : DeliveryDb) : Op → DeliveryDb × Report → Prop
  | nothing (op : Op) : Effect d op (d, {})
  | insert (op : Op) {r : ItemRow} : (∀ x ∈ d.items, x.id ≠ r.id) →
      Effect d op ({ d with items := d.items ++ [r] }, {})
  /-- One row changes, which is uploading unless somebody deletes the item. -/
  | update (op : Op) {itemId : String} {p : ItemRow → Bool} {f : ItemRow → ItemRow} :
      (∀ i, (f i).id = i.id) →
      (∀ i, p i = true → i.status = .uploading ∨ ∃ now, op = .markDeleted now itemId) →
      Effect d op ((updateItem itemId p f d).2, {})
  | clean (job : Job) : Effect d (.runCleanup job) (clean job d)

theorem step_effect (d : DeliveryDb) (op : Op) : Effect d op (step P cfg d op) := by
  cases op with
  | startUpload now input =>
      cases h : startUpload P cfg now input d with
      | error e =>
          have hstep : step P cfg d (.startUpload now input) = (d, {}) := by
            simp only [step, h]
          rw [hstep]
          exact .nothing _
      | ok r =>
          have hstep : step P cfg d (.startUpload now input) = (r.2, {}) := by
            simp only [step, h]
          obtain ⟨r, d'⟩ := r
          obtain ⟨-, -, -, rfl⟩ := startUpload_ok h
          rw [hstep]
          exact .insert _ (startUpload_row h).1
  | completeUpload now itemId size sha256 =>
      exact .update _ (fun _ => rfl) fun i hi => .inl (beq_iff_eq.1 hi)
  | abortUpload itemId => exact .update _ (fun _ => rfl) fun i hi => .inl (beq_iff_eq.1 hi)
  | markDeleted now itemId => exact .update _ (fun _ => rfl) fun i _ => .inr ⟨now, rfl⟩
  | createNote now id input =>
      cases h : createNote now id input d with
      | error e =>
          have hstep : step P cfg d (.createNote now id input) = (d, {}) := by
            simp only [step, h]
          rw [hstep]
          exact .nothing _
      | ok r =>
          have hstep : step P cfg d (.createNote now id input) = (r.2, {}) := by
            simp only [step, h]
          obtain ⟨r, d'⟩ := r
          obtain ⟨-, -, rfl⟩ := createNote_ok h
          rw [hstep]
          exact .insert _ (createNote_fresh h)
  | runCleanup job => exact .clean job

/-- Only the job takes anything away. -/
theorem effect_report {op : Op} {r : DeliveryDb × Report} (he : Effect d op r) :
    r.2 = {} ∨ ∃ job, op = .runCleanup job ∧ r = clean job d := by
  cases he with
  | nothing => exact .inl rfl
  | insert _ hfree => exact .inl rfl
  | update _ hf hp => exact .inl rfl
  | clean job => exact .inr ⟨job, rfl, rfl⟩

theorem spares_iff (hk : Keyed d) (op : Op) : Spares (History.fire (step P cfg) d op) ↔
    Undisturbed (History.fire (step P cfg) d op) := by
  by_cases hjob : ∃ job, op = .runCleanup job
  · obtain ⟨job, rfl⟩ := hjob
    exact spares_clean_iff hk
  · have hundisturbed : Undisturbed (History.fire (step P cfg) d op) := by
      unfold Undisturbed
      split
      · rename_i job hop
        exact absurd ⟨job, hop⟩ hjob
      · trivial
    refine iff_of_true ?_ hundisturbed
    intro x hx
    rcases effect_report (step_effect d op) with hnone | ⟨job, hop, -⟩
    · rw [History.fire_output, hnone] at hx
      cases hx
    · exact absurd ⟨job, hop⟩ hjob

/-! ## What a step keeps -/

theorem keyed_append {r : ItemRow} (hk : Keyed d) (hfree : ∀ x ∈ d.items, x.id ≠ r.id) :
    Keyed { d with items := d.items ++ [r] } :=
  Table.nodup_append_row hk hfree

theorem keyed_update {itemId : String} {p : ItemRow → Bool} {f : ItemRow → ItemRow} (hk : Keyed d)
    (hf : ∀ i, (f i).id = i.id) : Keyed (updateItem itemId p f d).2 := by
  show ((Table.update _ f d.items).map (·.id)).Nodup
  rwa [Table.map_update _ hf]

theorem keyed_step (hk : Keyed d) (op : Op) : Keyed (step P cfg d op).1 := by
  have he : Effect d op (step P cfg d op) := step_effect d op
  generalize step P cfg d op = r at he
  cases he with
  | nothing => exact hk
  | insert _ hfree => exact keyed_append hk hfree
  | update _ hf hp => exact keyed_update hk hf
  | clean job =>
      show ((tidy job.run d).items.map (·.id)).Nodup
      rw [tidy_items hk, List.map_map]
      have hids : (fun i : ItemRow => i.id) ∘ tidied job.run = fun i => i.id :=
        funext (tidied_id job.run)
      rwa [hids]

theorem published_append {k : String} {r : ItemRow} (hp : Published k d) :
    Published k { d with items := d.items ++ [r] } := by
  obtain ⟨i, hi, hrest⟩ := hp
  exact ⟨i, List.mem_append_left _ hi, hrest⟩

/-- An update that does not touch published rows of the item. -/
theorem published_update {k itemId : String} {p : ItemRow → Bool} {f : ItemRow → ItemRow}
    (hp : Published k d) (hno : ∀ i, i.id = k → i.status = .ready ∨ i.status = .missing →
      (i.id == itemId && p i) = false) : Published k (updateItem itemId p f d).2 := by
  obtain ⟨i, hi, hid, hkind, hstatus⟩ := hp
  exact ⟨i, Table.mem_update_of_not hi (hno i hid hstatus), hid, hkind, hstatus⟩

theorem not_uploading_of_published (hstatus : i.status = .ready ∨ i.status = .missing) :
    i.status ≠ .uploading := by
  rcases hstatus with h | h
  · rw [h]
    exact ItemStatus.noConfusion
  · rw [h]
    exact ItemStatus.noConfusion

/-- The job reports a published file missing at most. -/
theorem published_tidied {run : CleanupRun} (hkind : i.kind = .file)
    (hstatus : i.status = .ready ∨ i.status = .missing) :
    (tidied run i).kind = .file ∧
      ((tidied run i).status = .ready ∨ (tidied run i).status = .missing) := by
  refine ⟨(tidied_kind run i).trans hkind, ?_⟩
  unfold tidied
  rw [if_neg fun h => not_uploading_of_published hstatus h.1]
  split
  · exact .inr rfl
  · exact hstatus

theorem published_step {k : String} (hk : Keyed d) (hp : Published k d) {op : Op}
    (hop : ∀ now, op ≠ .markDeleted now k) : Published k (step P cfg d op).1 := by
  have he : Effect d op (step P cfg d op) := step_effect d op
  generalize step P cfg d op = r at he
  cases he with
  | nothing => exact hp
  | insert _ hfree => exact published_append hp
  | @update _ itemId p f hf hrows =>
      refine published_update hp fun i hid hstatus => ?_
      by_cases hrow : (i.id == itemId && p i) = true
      · rw [Bool.and_eq_true, beq_iff_eq] at hrow
        rcases hrows i hrow.2 with hup | ⟨now, hdelete⟩
        · exact absurd hup (not_uploading_of_published hstatus)
        · exact absurd (hid ▸ hrow.1 ▸ hdelete) (hop now)
      · exact Bool.eq_false_iff.2 hrow
  | clean job =>
      obtain ⟨i, hi, hid, hkind, hstatus⟩ := hp
      have hrows : (clean job d).1.items = d.items.map (tidied job.run) := tidy_items hk job.run
      refine ⟨tidied job.run i, ?_, (tidied_id job.run i).trans hid,
        published_tidied hkind hstatus⟩
      rw [hrows]
      exact List.mem_map_of_mem hi

/-- What the job discards was uploading. -/
theorem not_discarded {k : String} (hk : Keyed d) (hp : Published k d) :
    k ∉ (clean job d).2.discarded := by
  intro hdiscarded
  obtain ⟨i, hi, hid, hkind, hstatus⟩ := hp
  obtain ⟨j, hj, hjid⟩ := List.mem_map.1 hdiscarded
  obtain ⟨hmem, hold⟩ := List.mem_filter.1 (List.mem_filter.1 hj).1
  rw [Bool.and_eq_true, beq_iff_eq] at hold
  rw [Table.eq_of_key hk hmem hi (hjid.trans hid.symm)] at hold
  exact not_uploading_of_published hstatus hold.1

/-- A published file is not out of use. -/
theorem not_dropped (hstatus : i.status = .ready ∨ i.status = .missing) : ¬ Dropped i := by
  unfold Dropped
  rcases hstatus with h | h
  · simp [h]
  · simp [h]

/-- A step that disturbs nothing does not take the object of a published file away. -/
theorem not_loses {k : String} (hk : Keyed d) (hp : Published k d) {op : Op}
    (hop : ∀ now, op ≠ .markDeleted now k)
    (hu : Undisturbed (History.fire (step P cfg) d op)) :
    ¬ Loses k (History.fire (step P cfg) d op) := by
  rintro (hdiscarded | ⟨x, hx, hkey⟩)
  · rcases effect_report (step_effect d op) with hnone | ⟨job, -, hjob⟩
    · rw [History.fire_output, hnone] at hdiscarded
      cases hdiscarded
    · rw [History.fire_output, hjob] at hdiscarded
      exact not_discarded hk hp hdiscarded
  · obtain ⟨i, hi, hid, hkind, hstatus⟩ := published_step (P := P) (d := d) (k := k) hk hp hop
    exact not_dropped hstatus ((spares_iff hk op).2 hu x hx i hi (hid.trans hkey.symm))

/-! ## Every run -/

theorem keyed_run {d₀ : DeliveryDb} (hk : Keyed d₀) {h : List Event}
    (hr : History.Run (step P cfg) env d₀ h d) : Keyed d :=
  hr.invariant (I := fun _ d => Keyed d) hk fun _ _ op _ _ hk => keyed_step hk op

theorem published_run {d₀ : DeliveryDb} (hk : Keyed d₀) {k : String} {e : Event}
    {later earlier : List Event} (hr : History.Run (step P cfg) env d₀ (later ++ e :: earlier) d)
    (hp : Published k e.pre) (hq : ∀ x ∈ later ++ [e], Undisturbed x ∧ ¬ Deletes k x) :
    Published k d ∧ ∀ x ∈ later ++ [e], ¬ Loses k x := by
  have hone : ∀ (d : DeliveryDb) (op : Op), Keyed d → Published k d →
      Undisturbed (History.fire (step P cfg) d op) ∧
        ¬ Deletes k (History.fire (step P cfg) d op) →
      Published k (step P cfg d op).1 ∧ ¬ Loses k (History.fire (step P cfg) d op) := by
    rintro d op hkd hpd ⟨hu, hdel⟩
    have hop : ∀ now, op ≠ .markDeleted now k := fun now h => hdel ⟨now, h⟩
    exact ⟨published_step hkd hpd hop, not_loses hkd hpd hop hu⟩
  induction later generalizing d with
  | nil =>
      cases hr with
      | step op hr _ =>
          obtain ⟨hpost, hkept⟩ := hone _ op (keyed_run hk hr) hp (hq _ (List.mem_singleton_self _))
          refine ⟨hpost, fun x hx => ?_⟩
          rw [List.mem_singleton.1 hx]
          exact hkept
  | cons y ys ih =>
      cases hr with
      | step op hr _ =>
          obtain ⟨hpre, hrest⟩ := ih hr fun x hx => hq x (List.mem_cons_of_mem _ hx)
          obtain ⟨hpost, hkept⟩ := hone _ op (keyed_run hk hr) hpre (hq _ (List.mem_cons_self ..))
          refine ⟨hpost, fun x hx => ?_⟩
          rcases List.mem_cons.1 hx with rfl | hx
          · exact hkept
          · exact hrest x hx

end

/-- The object of a file that was published at some point of the run is not taken away later,
unless somebody deletes the file. -/
def Survive (h : List Event) : Prop :=
  ∀ later e earlier, h = later ++ e :: earlier → ∀ itemId, Published itemId e.pre →
    (∀ x ∈ later ++ [e], ¬ Deletes itemId x) → ∀ x ∈ later ++ [e], ¬ Loses itemId x

instance (i : ItemRow) : Decidable (Dropped i) := inferInstanceAs (Decidable (_ ∨ _))

instance (e : Event) : Decidable (Spares e) :=
  inferInstanceAs (Decidable (∀ x ∈ _, ∀ i ∈ _, _ → _))

instance (itemId : String) (d : DeliveryDb) : Decidable (Published itemId d) :=
  inferInstanceAs (Decidable (∃ i ∈ _, _))

/-- A database with an open case. -/
def oneCase : DeliveryDb := { DeliveryDb.empty with cases := [⟨"c_1", "case", "", .isOpen, 0, 0⟩] }

def fileId : String := "f_AAAAAAAAAAAAAAAA"

/-- A file is uploaded. -/
def published : List Op :=
  [.startUpload 1 ⟨fileId, "c_1", "a.pdf", .direct, none, none⟩, .completeUpload 2 fileId 5 none]

/-- The job an hour later: the object is listed, and `stat` finds it or does not. -/
def job (now : Int) (isGone : Bool) : Op :=
  .runCleanup
    { run := { now := now, ttlMs := hourMs, isGone := fun _ => isGone }
      sweptAt := now
      listing := .disk (if isGone then [] else [⟨fileId, true, some 2⟩]) }

theorem run_published (ops : List Op) :
    let r := History.replay (step .sample defaultConfig) [] oneCase ops
    History.Run (step .sample defaultConfig) env oneCase r.1 r.2 :=
  History.run_replay .start (History.admits_of_forall (fun _ _ _ => trivial) _ _ _)

theorem keyed_oneCase : Keyed oneCase := List.nodup_nil

end Sweep

end Outletbox
