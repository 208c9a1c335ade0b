import Outletbox.Reported

/-!
# No ready file without its data

The object of an item is what the storage holds under its key after all that was
done there.  While an upload runs, its task promises a size: what has arrived so
far, or the whole.  `Sound` says for every waiting task what it promises and what
it may still remove, `Inv` adds the rows, and every turn keeps it as long as no
upload ends while another handler gives it up.

An upload is given up by the delete route or by the cleanup.  Both read its row as
'uploading', remove the data, and change the row after that, so an upload that ends
in between is ready without its object.
-/

namespace Outletbox

namespace Uploads

open Interleaving (Move Pool Slice)

variable (P : Platform) (cfg : Config)

/-! ## The object under a key -/

/-- Nothing was taken away since the target was opened. -/
def intact : List Effect → Bool
  | [] | .opened :: _ => true
  | e :: es => !e.removes && intact es

/-- How many bytes the object has, if there is one.  `put` writes into the target it opened:
where that was removed in between, the bytes are lost with it. -/
def objectSize : List Effect → Option Nat
  | [] => none
  | .opened :: _ | .created _ :: _ => some 0
  | .finished size :: es => if intact es then some size else none
  | .wrote bytes :: es => (objectSize es).map (· + bytes)
  | .sidecarDeleted :: es => objectSize es
  | _ :: _ => none

/-- Nothing was ever taken away. -/
def Kept (es : List Effect) : Prop := ∀ e ∈ es, e.removes = false

/-- The object has so many bytes, and nothing was taken away. -/
structure Whole (es : List Effect) (size : Nat) : Prop where
  size : objectSize es = some size
  kept : Kept es

section

variable {es : List Effect} {e : Effect} {size : Nat}

theorem kept_cons : Kept (e :: es) ↔ e.removes = false ∧ Kept es := List.forall_mem_cons

theorem intact_of_kept (h : Kept es) : intact es = true := by
  induction es with
  | nil => rfl
  | cons e es ih =>
      obtain ⟨he, hes⟩ := kept_cons.1 h
      cases e with
      | opened => rfl
      | _ => simp [intact, he, ih hes]

/-- A body that is written whole into a target nobody touched is there. -/
theorem whole_finished (h : Kept es) : Whole (.finished size :: es) size :=
  ⟨by rw [objectSize, if_pos (intact_of_kept h)], kept_cons.2 ⟨rfl, h⟩⟩

theorem whole_created (h : Kept es) (upload : TusUpload) : Whole (.created upload :: es) 0 :=
  ⟨rfl, kept_cons.2 ⟨rfl, h⟩⟩

theorem Whole.wrote (h : Whole es size) (bytes : Nat) :
    Whole (.wrote bytes :: es) (size + bytes) :=
  ⟨by rw [objectSize, h.size, Option.map_some], kept_cons.2 ⟨rfl, h.kept⟩⟩

theorem Whole.unique {size' : Nat} (h : Whole es size) (h' : Whole es size') : size = size' :=
  Option.some.inj (h.size.symm.trans h'.size)

/-- Of an upload of the upload protocol, nothing came from `put`. -/
def Effect.isPut : Effect → Bool
  | .opened | .finished _ => true
  | _ => false

/-- What the upload store counts is what the object has. -/
theorem getUpload_size (hes : ∀ e ∈ es, e.isPut = false) {upload : TusUpload}
    (h : getUpload es = some upload) : objectSize es = some upload.offset := by
  induction es generalizing upload with
  | nil => cases h
  | cons e es ih =>
      obtain ⟨he, hrest⟩ := List.forall_mem_cons.1 hes
      cases e with
      | opened => cases he
      | finished n => cases he
      | created u =>
          cases h
          rfl
      | wrote n =>
          obtain ⟨u, hu, rfl⟩ := Option.map_eq_some_iff.1 h
          rw [objectSize, ih hrest hu, Option.map_some]
      | sidecarDeleted => cases h
      | _ => cases h

/-- The announced size of an upload is the one it was created with. -/
theorem getUpload_created {upload : TusUpload} (h : getUpload es = some upload) :
    ∃ created, Effect.created created ∈ es ∧ created.size = upload.size := by
  induction es generalizing upload with
  | nil => cases h
  | cons e es ih =>
      have hlater : getUpload es = some upload →
          ∃ created, Effect.created created ∈ e :: es ∧ created.size = upload.size := fun h => by
        obtain ⟨u, hu, hsize⟩ := ih h
        exact ⟨u, List.mem_cons_of_mem _ hu, hsize⟩
      cases e with
      | opened => exact hlater h
      | finished n => exact hlater h
      | created u =>
          cases h
          exact ⟨u, List.mem_cons_self .., rfl⟩
      | wrote n =>
          obtain ⟨u, hu, rfl⟩ := Option.map_eq_some_iff.1 h
          obtain ⟨u', hu', hsize⟩ := ih hu
          exact ⟨u', List.mem_cons_of_mem _ hu', hsize⟩
      | _ => cases h

end

section

variable {log : List Entry} {key : String} {x : Entry}

theorem effectsOn_cons : effectsOn key (x :: log) =
    if x.key = key then x.effect :: effectsOn key log else effectsOn key log := by
  unfold effectsOn
  rw [List.filter_cons]
  by_cases h : x.key = key
  · rw [if_pos (beq_iff_eq.2 h), if_pos h, List.map_cons]
  · rw [if_neg (by simpa using h), if_neg h]

theorem mem_effectsOn {e : Effect} :
    e ∈ effectsOn key log ↔ ∃ x ∈ log, x.key = key ∧ x.effect = e := by
  simp [effectsOn, and_assoc]

end

/-! ## Rows and tasks -/

/-- A row of an item. -/
def Known (d : DeliveryDb) (id : String) : Prop := ∃ i ∈ d.items, i.id = id

/-- A file is ready. -/
def Ready (d : DeliveryDb) (id : String) : Prop :=
  ∃ i ∈ d.items, i.id = id ∧ i.kind = .file ∧ i.status = .ready

/-- An upload that came in one request. -/
def IsDirect (d : DeliveryDb) (id : String) : Prop :=
  ∃ i ∈ d.items, i.id = id ∧ i.uploadKind = some .direct

/-- An upload of the upload protocol, with the announced size. -/
def IsTus (d : DeliveryDb) (id : String) (size : Option Nat) : Prop :=
  ∃ i ∈ d.items, i.id = id ∧ i.uploadKind = some .tus ∧ i.declaredSize = size

/-- What a handler goes on with takes an item for an unfinished upload, and gives it up. -/
def Next.givesUp : Next → String → Prop
  | .discarded item, id => item.id = id
  | .expired item rest _, id => ∃ i ∈ item :: rest, i.id = id
  | _, _ => False

/-- A waiting handler gives an item up. -/
def Task.givesUp : Task → String → Prop
  | .removing _ _ next, id => next.givesUp id
  | _, _ => False

/-- A file that is ready, or an unfinished upload that nobody gives up. -/
def Live (d : DeliveryDb) (ts : List Task) (id : String) : Prop :=
  ∃ i ∈ d.items, i.id = id ∧ i.kind = .file ∧
    (i.status = .ready ∨ i.status = .uploading ∧ ∀ t ∈ ts, ¬ t.givesUp id)

/-- The upload whose lock a task has. -/
def Task.holds : Task → Option String
  | .creating _ _ id _ | .writing _ _ id _ => some id
  | _ => none

/-- The item of a direct upload. -/
def Task.puts : Task → Option String
  | .putting u | .stored u _ => some u.itemId
  | _ => none

/-- What was done under a key fits the row of the item. -/
def Entry.fits (x : Entry) (d : DeliveryDb) : Prop :=
  match x.effect with
  | .opened | .finished _ => IsDirect d x.key
  | .created upload => IsTus d x.key upload.size
  | .wrote _ => ∃ size, IsTus d x.key size
  | _ => Known d x.key

/-- What holds for a waiting task. -/
def Task.Sound (sh : Shared) (ts : List Task) : Task → Prop
  | .putting u => IsDirect sh.db u.itemId ∧ ¬ Ready sh.db u.itemId ∧
      (Live sh.db ts u.itemId → Kept (effectsOn u.itemId sh.log))
  | .stored u a => IsDirect sh.db u.itemId ∧ ¬ Ready sh.db u.itemId ∧
      ∀ size sha256, a.checked u.declared = .stored size sha256 →
        Live sh.db ts u.itemId → Whole (effectsOn u.itemId sh.log) size
  | .creating _ _ id upload => IsTus sh.db id upload.size ∧ objectSize (effectsOn id sh.log) = none ∧
      (Live sh.db ts id → Kept (effectsOn id sh.log))
  | .writing _ _ id upload => IsTus sh.db id upload.size ∧
      (Live sh.db ts id → Whole (effectsOn id sh.log) upload.offset)
  | .finishing _ _ id upload => IsTus sh.db id upload.size ∧ (upload.size = some upload.offset →
      Live sh.db ts id → Whole (effectsOn id sh.log) upload.offset)
  | .removing key todo next => Known sh.db key ∧
      ((∃ r ∈ todo, r.effect.removes = true) → ¬ Live sh.db ts key) ∧
      ∀ id, next.givesUp id → Known sh.db id ∧ ¬ Ready sh.db id
  | .sweeping cutoff live => ∀ id, Live sh.db ts id →
      id ∈ live ∨ ∀ x ∈ sh.log, x.key = id → cutoff < x.at_
  | _ => True

/-- What holds for a row. -/
def RowSound (sh : Shared) (i : ItemRow) : Prop :=
  i.kind = .file → i.status = .ready → ∃ size, i.size = some size ∧
    Whole (effectsOn i.id sh.log) size ∧ (i.uploadKind = some .tus → i.declaredSize = some size)

/-- What every turn keeps. -/
structure Inv (sh : Shared) (ts : List Task) : Prop where
  ids : (sh.db.items.map (·.id)).Nodup
  entries : ∀ x ∈ sh.log, x.fits sh.db
  locks : (ts.filterMap Task.holds).Perm sh.locked
  exclusive : (ts.filterMap Task.holds).Nodup
  single : (ts.filterMap Task.puts).Nodup
  rows : ∀ i ∈ sh.db.items, RowSound sh i
  /-- What the upload store still has was never taken away. -/
  traced : ∀ id upload, Live sh.db ts id → getUpload (effectsOn id sh.log) = some upload →
    Kept (effectsOn id sh.log)
  tasks : ∀ t ∈ ts, t.Sound sh ts

section

variable {d : DeliveryDb} {ts : List Task} {id : String} {size size' : Option Nat}

theorem IsDirect.known (h : IsDirect d id) : Known d id := by
  obtain ⟨i, hi, hid, -⟩ := h
  exact ⟨i, hi, hid⟩

theorem IsTus.known (h : IsTus d id size) : Known d id := by
  obtain ⟨i, hi, hid, -⟩ := h
  exact ⟨i, hi, hid⟩

theorem Entry.fits.known {x : Entry} (h : x.fits d) : Known d x.key := by
  unfold Entry.fits at h
  split at h
  · exact h.known
  · exact h.known
  · exact h.known
  · obtain ⟨_, h⟩ := h
    exact h.known
  · exact h

theorem IsDirect.not_tus (hids : (d.items.map (·.id)).Nodup) (h : IsDirect d id) :
    ¬ IsTus d id size := by
  rintro ⟨j, hj, hjid, hjkind, -⟩
  obtain ⟨i, hi, hid, hkind⟩ := h
  cases Table.eq_of_key hids hi hj (hid.trans hjid.symm)
  rw [hkind] at hjkind
  cases hjkind

theorem IsTus.size_unique (hids : (d.items.map (·.id)).Nodup) (h : IsTus d id size)
    (h' : IsTus d id size') : size = size' := by
  obtain ⟨i, hi, hid, -, rfl⟩ := h
  obtain ⟨j, hj, hjid, -, rfl⟩ := h'
  cases Table.eq_of_key hids hi hj (hid.trans hjid.symm)
  rfl

theorem Ready.live (h : Ready d id) : Live d ts id := by
  obtain ⟨i, hi, hid, hkind, hready⟩ := h
  exact ⟨i, hi, hid, hkind, .inl hready⟩

/-- An unfinished upload that is given up, and is not ready, is not live. -/
theorem not_live_of_givesUp {t : Task} (ht : t ∈ ts) (hgives : t.givesUp id)
    (hready : ¬ Ready d id) : ¬ Live d ts id := by
  rintro ⟨i, hi, hid, hkind, hstatus | ⟨-, hnobody⟩⟩
  · exact hready ⟨i, hi, hid, hkind, hstatus⟩
  · exact hnobody t ht hgives

/-- What is neither ready nor 'uploading' is not live. -/
theorem not_live_of_settled
    (h : ∀ i ∈ d.items, i.id = id → i.status ≠ .ready ∧ i.status ≠ .uploading) :
    ¬ Live d ts id := by
  rintro ⟨i, hi, hid, -, hstatus | ⟨hstatus, -⟩⟩
  · exact (h i hi hid).1 hstatus
  · exact (h i hi hid).2 hstatus

end

/-! ## Turns that leave the storage alone -/

/-- The items change without becoming 'ready', and what changes is not 'uploading' any more. -/
inductive Grows (items : List ItemRow) : List ItemRow → Prop
  | same : Grows items items
  | insert {r : ItemRow} : (∀ x ∈ items, x.id ≠ r.id) → (r.kind = .file → r.status ≠ .ready) →
      Grows items (items ++ [r])
  | set (p : ItemRow → Bool) {f : ItemRow → ItemRow} :
      (∀ i, (f i).id = i.id ∧ (f i).uploadKind = i.uploadKind ∧
        (f i).declaredSize = i.declaredSize ∧ (f i).status ≠ .ready ∧ (f i).status ≠ .uploading) →
      Grows items (Table.update p f items)

section

variable {d d' : DeliveryDb} {ts ts' : List Task} {id : String}

theorem Grows.nodup (h : Grows d.items d'.items) (hids : (d.items.map (·.id)).Nodup) :
    (d'.items.map (·.id)).Nodup := by
  generalize d'.items = items' at h ⊢
  cases h with
  | same => exact hids
  | insert hfresh _ => exact Table.nodup_append_row hids hfresh
  | set p hf => exact Table.nodup_update (fun i => (hf i).1) hids

/-- A row keeps its identifier, and how and with what size it was announced. -/
theorem Grows.row (h : Grows d.items d'.items) {i : ItemRow} (hi : i ∈ d.items) :
    ∃ j ∈ d'.items, j.id = i.id ∧ j.uploadKind = i.uploadKind ∧ j.declaredSize = i.declaredSize := by
  generalize d'.items = items' at h ⊢
  cases h with
  | same => exact ⟨i, hi, rfl, rfl, rfl⟩
  | insert _ _ => exact ⟨i, List.mem_append_left _ hi, rfl, rfl, rfl⟩
  | @set p f hf =>
      refine ⟨_, Table.mem_update.2 ⟨i, hi, rfl⟩, ?_⟩
      split
      · exact ⟨(hf i).1, (hf i).2.1, (hf i).2.2.1⟩
      · exact ⟨rfl, rfl, rfl⟩

theorem Grows.known (h : Grows d.items d'.items) (hk : Known d id) : Known d' id := by
  obtain ⟨i, hi, rfl⟩ := hk
  obtain ⟨j, hj, hid, -⟩ := h.row hi
  exact ⟨j, hj, hid⟩

theorem Grows.direct (h : Grows d.items d'.items) (hd : IsDirect d id) : IsDirect d' id := by
  obtain ⟨i, hi, rfl, hkind⟩ := hd
  obtain ⟨j, hj, hid, hkind', -⟩ := h.row hi
  exact ⟨j, hj, hid, hkind'.trans hkind⟩

theorem Grows.tus (h : Grows d.items d'.items) {size : Option Nat} (ht : IsTus d id size) :
    IsTus d' id size := by
  obtain ⟨i, hi, rfl, hkind, hsize⟩ := ht
  obtain ⟨j, hj, hid, hkind', hsize'⟩ := h.row hi
  exact ⟨j, hj, hid, hkind'.trans hkind, hsize'.trans hsize⟩

theorem Grows.fits (h : Grows d.items d'.items) {x : Entry} (hx : x.fits d) : x.fits d' := by
  unfold Entry.fits at *
  split at hx
  · exact h.direct hx
  · exact h.direct hx
  · exact h.tus hx
  · obtain ⟨size, hx⟩ := hx
    exact ⟨size, h.tus hx⟩
  · exact h.known hx

/-- A file that is ready or 'uploading' was there as it is, or is a new upload. -/
theorem Grows.origin (h : Grows d.items d'.items) {j : ItemRow} (hj : j ∈ d'.items)
    (hstatus : j.status = .ready ∨ j.status = .uploading) :
    j ∈ d.items ∨ ¬ Known d j.id ∧ (j.kind = .file → j.status ≠ .ready) := by
  generalize d'.items = items' at h hj
  cases h with
  | same => exact .inl hj
  | @insert r hfresh hready =>
      rcases List.mem_append.1 hj with hj | hj
      · exact .inl hj
      · rw [List.mem_singleton] at hj
        subst hj
        exact .inr ⟨fun ⟨i, hi, hid⟩ => hfresh i hi hid, hready⟩
  | @set p f hf =>
      obtain ⟨i, hi, rfl⟩ := Table.mem_update.1 hj
      split at hstatus
      · rcases hstatus with hstatus | hstatus
        · exact absurd hstatus (hf i).2.2.2.1
        · exact absurd hstatus (hf i).2.2.2.2
      · rename_i hno
        rw [if_neg hno]
        exact .inl hi

theorem Grows.ready (h : Grows d.items d'.items) (hready : Ready d' id) : Ready d id := by
  obtain ⟨j, hj, rfl, hkind, hstatus⟩ := hready
  rcases h.origin hj (.inl hstatus) with hold | ⟨-, hno⟩
  · exact ⟨j, hold, rfl, hkind, hstatus⟩
  · exact absurd hstatus (hno hkind)

/-- What is live was live, or is a new upload: nobody stops giving up what is 'uploading'. -/
theorem Grows.live (h : Grows d.items d'.items)
    (hgives : ∀ t ∈ ts, t.givesUp id → (∃ t' ∈ ts', t'.givesUp id) ∨
      ∀ i ∈ d'.items, i.id = id → i.status ≠ .uploading)
    (hlive : Live d' ts' id) : Live d ts id ∨ ¬ Known d id := by
  obtain ⟨j, hj, rfl, hkind, hstatus⟩ := hlive
  rcases h.origin hj (hstatus.imp_right And.left) with hold | ⟨hnew, -⟩
  · refine .inl ⟨j, hold, rfl, hkind, hstatus.imp_right fun ⟨huploading, hnobody⟩ =>
      ⟨huploading, fun t ht hgive => ?_⟩⟩
    rcases hgives t ht hgive with ⟨t', ht', hgive'⟩ | hsettled
    · exact hnobody t' ht' hgive'
    · exact hsettled j hj rfl huploading
  · exact .inr hnew

end

section

variable {sh sh' : Shared} {ts rest new : List Task}

theorem Inv.unknown (h : Inv sh ts) {id : String} (hid : ¬ Known sh.db id) :
    effectsOn id sh.log = [] := by
  refine List.eq_nil_iff_forall_not_mem.2 fun e he => ?_
  obtain ⟨x, hx, rfl, -⟩ := mem_effectsOn.1 he
  exact hid (h.entries x hx).known

/-- A task stays sound when what is live was live. -/
theorem Task.Sound.grows {t : Task} (h : t.Sound sh ts) (hi : Inv sh ts) (hlog : sh'.log = sh.log)
    (hgrow : Grows sh.db.items sh'.db.items)
    (hlive : ∀ id, Live sh'.db rest id → Live sh.db ts id ∨ ¬ Known sh.db id) :
    t.Sound sh' rest := by
  have hold : ∀ {id}, Known sh.db id → Live sh'.db rest id → Live sh.db ts id := fun hk hl =>
    (hlive _ hl).resolve_right (not_not_intro hk)
  cases t with
  | putting u =>
      obtain ⟨hdirect, hready, hkept⟩ := h
      refine ⟨hgrow.direct hdirect, fun hr => hready (hgrow.ready hr), fun hl => ?_⟩
      rw [hlog]
      exact hkept (hold hdirect.known hl)
  | stored u a =>
      obtain ⟨hdirect, hready, hwhole⟩ := h
      refine ⟨hgrow.direct hdirect, fun hr => hready (hgrow.ready hr),
        fun size sha256 hstored hl => ?_⟩
      rw [hlog]
      exact hwhole size sha256 hstored (hold hdirect.known hl)
  | creating req s id upload =>
      obtain ⟨htus, hnone, hkept⟩ := h
      refine ⟨hgrow.tus htus, ?_, fun hl => ?_⟩
      · rw [hlog]
        exact hnone
      · rw [hlog]
        exact hkept (hold htus.known hl)
  | writing req s id upload =>
      obtain ⟨htus, hwhole⟩ := h
      refine ⟨hgrow.tus htus, fun hl => ?_⟩
      rw [hlog]
      exact hwhole (hold htus.known hl)
  | finishing req s id upload =>
      obtain ⟨htus, hwhole⟩ := h
      refine ⟨hgrow.tus htus, fun hfull hl => ?_⟩
      rw [hlog]
      exact hwhole hfull (hold htus.known hl)
  | removing key todo next =>
      obtain ⟨hknown, hdead, hgives⟩ := h
      exact ⟨hgrow.known hknown, fun hr hl => hdead hr (hold hknown hl), fun id hg =>
        ⟨hgrow.known (hgives id hg).1, fun hr => (hgives id hg).2 (hgrow.ready hr)⟩⟩
  | sweeping cutoff live =>
      intro id hl
      rw [hlog]
      rcases hlive id hl with hl | hnew
      · exact h id hl
      · exact .inr fun x hx hid => absurd (hid ▸ (hi.entries x hx).known) hnew
  | _ => trivial

/-- A turn that leaves the storage alone and completes nothing. -/
theorem Inv.grows (new rest : List Task) (h : Inv sh ts) (hrest : ∀ t ∈ rest, t ∈ ts)
    (hlog : sh'.log = sh.log) (hgrow : Grows sh.db.items sh'.db.items)
    (hgives : ∀ t ∈ ts, ∀ id, t.givesUp id → (∃ t' ∈ new ++ rest, t'.givesUp id) ∨
      ∀ i ∈ sh'.db.items, i.id = id → i.status ≠ .uploading)
    (hlocks : ((new ++ rest).filterMap Task.holds).Perm sh'.locked)
    (hexclusive : ((new ++ rest).filterMap Task.holds).Nodup)
    (hsingle : ((new ++ rest).filterMap Task.puts).Nodup)
    (hnew : ∀ t ∈ new, t.Sound sh' (new ++ rest)) : Inv sh' (new ++ rest) := by
  have hlive : ∀ id, Live sh'.db (new ++ rest) id → Live sh.db ts id ∨ ¬ Known sh.db id :=
    fun id => hgrow.live fun t ht hg => hgives t ht id hg
  refine ⟨hgrow.nodup h.ids, ?_, hlocks, hexclusive, hsingle, ?_, ?_, ?_⟩
  · intro x hx
    rw [hlog] at hx
    exact hgrow.fits (h.entries x hx)
  · intro j hj hkind hready
    rw [hlog]
    rcases hgrow.origin hj (.inl hready) with hold | ⟨-, hno⟩
    · exact h.rows j hold hkind hready
    · exact absurd hready (hno hkind)
  · intro id upload hl hupload
    rw [hlog] at hupload ⊢
    rcases hlive id hl with hl | hnew
    · exact h.traced id upload hl hupload
    · rw [h.unknown hnew] at hupload
      cases hupload
  · intro t ht
    rcases List.mem_append.1 ht with ht | ht
    · exact hnew t ht
    · exact (h.tasks t (hrest t ht)).grows h hlog hgrow hlive

end

/-! ## Turns that change what is stored -/

/-- The item whose object a task writes. -/
def Task.about : Task → Option String
  | .putting u | .stored u _ => some u.itemId
  | .creating _ _ id _ | .writing _ _ id _ | .finishing _ _ id _ => some id
  | _ => none

section

variable {sh : Shared} {ts rest new : List Task} {now : Int} {key : String} {e : Effect}

theorem effectsOn_record_same :
    effectsOn key (sh.record now key e).log = e :: effectsOn key sh.log := by
  rw [Shared.record, effectsOn_cons, if_pos rfl]

theorem effectsOn_record_other {id : String} (h : id ≠ key) :
    effectsOn id (sh.record now key e).log = effectsOn id sh.log := by
  rw [Shared.record, effectsOn_cons, if_neg (Ne.symm h)]

/-- Nobody stops giving up, and no row changes. -/
theorem live_mono {d : DeliveryDb} {id : String}
    (hgives : ∀ t ∈ ts, t.givesUp id → ∃ t' ∈ rest, t'.givesUp id) (hlive : Live d rest id) :
    Live d ts id := by
  obtain ⟨i, hi, hid, hkind, hstatus⟩ := hlive
  refine ⟨i, hi, hid, hkind, hstatus.imp_right fun ⟨huploading, hnobody⟩ =>
    ⟨huploading, fun t ht hg => ?_⟩⟩
  obtain ⟨t', ht', hg'⟩ := hgives t ht hg
  exact hnobody t' ht' hg'

/-- A task that writes another object is not disturbed. -/
theorem Task.Sound.record {t : Task} (h : t.Sound sh ts)
    (hlive : ∀ id, Live sh.db rest id → Live sh.db ts id)
    (htime : ∀ cutoff live, t = .sweeping cutoff live → cutoff < now)
    (habout : t.about ≠ some key) : t.Sound (sh.record now key e) rest := by
  cases t with
  | putting u =>
      obtain ⟨hdirect, hready, hkept⟩ := h
      refine ⟨hdirect, hready, fun hl => ?_⟩
      rw [effectsOn_record_other fun heq => habout (congrArg some heq)]
      exact hkept (hlive _ hl)
  | stored u a =>
      obtain ⟨hdirect, hready, hwhole⟩ := h
      refine ⟨hdirect, hready, fun size sha256 hstored hl => ?_⟩
      rw [effectsOn_record_other fun heq => habout (congrArg some heq)]
      exact hwhole size sha256 hstored (hlive _ hl)
  | creating req s id upload =>
      obtain ⟨htus, hnone, hkept⟩ := h
      refine ⟨htus, ?_, fun hl => ?_⟩
      · rw [effectsOn_record_other fun heq => habout (congrArg some heq)]
        exact hnone
      · rw [effectsOn_record_other fun heq => habout (congrArg some heq)]
        exact hkept (hlive _ hl)
  | writing req s id upload =>
      obtain ⟨htus, hwhole⟩ := h
      refine ⟨htus, fun hl => ?_⟩
      rw [effectsOn_record_other fun heq => habout (congrArg some heq)]
      exact hwhole (hlive _ hl)
  | finishing req s id upload =>
      obtain ⟨htus, hwhole⟩ := h
      refine ⟨htus, fun hfull hl => ?_⟩
      rw [effectsOn_record_other fun heq => habout (congrArg some heq)]
      exact hwhole hfull (hlive _ hl)
  | removing k todo next =>
      obtain ⟨hknown, hdead, hgives⟩ := h
      exact ⟨hknown, fun hr hl => hdead hr (hlive _ hl), hgives⟩
  | sweeping cutoff live =>
      intro id hl
      refine (h id (hlive id hl)).imp_right fun hold x hx hid => ?_
      rcases List.mem_cons.1 hx with rfl | hx
      · exact htime cutoff live rfl
      · exact hold x hx hid
  | _ => trivial

/-- A turn that does something under a key. -/
theorem Inv.record (h : Inv sh ts) (hrest : ∀ t ∈ rest, t ∈ ts)
    (hfits : Entry.fits ⟨key, e, now⟩ sh.db)
    (hgives : ∀ t ∈ ts, ∀ id, t.givesUp id → ∃ t' ∈ new ++ rest, t'.givesUp id)
    (hlocks : ((new ++ rest).filterMap Task.holds).Perm sh.locked)
    (hsingle : ((new ++ rest).filterMap Task.puts).Nodup)
    (htime : ∀ cutoff live, Task.sweeping cutoff live ∈ rest → cutoff < now)
    (hrow : ∀ i ∈ sh.db.items, i.id = key → i.kind = .file → i.status = .ready → ∀ size,
      Whole (effectsOn key sh.log) size → Whole (e :: effectsOn key sh.log) size)
    (htraced : ∀ upload, Live sh.db ts key → getUpload (e :: effectsOn key sh.log) = some upload →
      Kept (e :: effectsOn key sh.log))
    (habout : ∀ t ∈ rest, t.about = some key → t.Sound (sh.record now key e) (new ++ rest))
    (hnew : ∀ t ∈ new, t.Sound (sh.record now key e) (new ++ rest)) :
    Inv (sh.record now key e) (new ++ rest) := by
  have hlive : ∀ id, Live sh.db (new ++ rest) id → Live sh.db ts id :=
    fun id => live_mono fun t ht => hgives t ht id
  refine ⟨h.ids, ?_, hlocks, hlocks.nodup_iff.2 (h.locks.nodup_iff.1 h.exclusive), hsingle,
    ?_, ?_, ?_⟩
  · intro x hx
    rcases List.mem_cons.1 hx with rfl | hx
    · exact hfits
    · exact h.entries x hx
  · intro i hi hkind hready
    obtain ⟨size, hsize, hwhole, htus⟩ := h.rows i hi hkind hready
    refine ⟨size, hsize, ?_, htus⟩
    by_cases hid : i.id = key
    · rw [hid] at hwhole ⊢
      rw [effectsOn_record_same]
      exact hrow i hi hid hkind hready size hwhole
    · rw [effectsOn_record_other hid]
      exact hwhole
  · intro id upload hl hupload
    by_cases hid : id = key
    · subst hid
      rw [effectsOn_record_same] at hupload ⊢
      exact htraced upload (hlive _ hl) hupload
    · rw [effectsOn_record_other hid] at hupload ⊢
      exact h.traced id upload (hlive id hl) hupload
  · intro t ht
    rcases List.mem_append.1 ht with ht | ht
    · exact hnew t ht
    by_cases hkey : t.about = some key
    · exact habout t ht hkey
    · refine (h.tasks t (hrest t ht)).record hlive (fun cutoff live heq => ?_) hkey
      exact htime cutoff live (heq ▸ ht)

/-- An effect that neither adds to an object nor takes from it. -/
structure Idle (e : Effect) : Prop where
  removes : e.removes = false
  size : ∀ es, objectSize (e :: es) = objectSize es
  upload : ∀ {es upload}, getUpload (e :: es) = some upload → ∃ u, getUpload es = some u

theorem idle_sidecar : Idle .sidecarDeleted := ⟨rfl, fun _ => rfl, nofun⟩

theorem idle_wrote : Idle (.wrote 0) := by
  refine ⟨rfl, fun es => ?_, fun h => ?_⟩
  · exact Option.map_id'
  · obtain ⟨u, hu, -⟩ := Option.map_eq_some_iff.1 h
    exact ⟨u, hu⟩

theorem Idle.kept (he : Idle e) {es : List Effect} (h : Kept es) : Kept (e :: es) :=
  kept_cons.2 ⟨he.removes, h⟩

theorem Idle.whole (he : Idle e) {es : List Effect} {size : Nat} (h : Whole es size) :
    Whole (e :: es) size :=
  ⟨(he.size es).trans h.size, he.kept h.kept⟩

/-- A task whose object keeps what the task says of it. -/
theorem Task.Sound.touched {t : Task} (h : t.Sound sh ts) (habout : t.about = some key)
    (hlive : Live sh.db rest key → Live sh.db ts key)
    (hwhole : ∀ size, Live sh.db ts key → Whole (effectsOn key sh.log) size →
      Whole (e :: effectsOn key sh.log) size)
    (hkept : Live sh.db ts key → Kept (effectsOn key sh.log) → Kept (e :: effectsOn key sh.log))
    (hnone : objectSize (effectsOn key sh.log) = none →
      objectSize (e :: effectsOn key sh.log) = none) : t.Sound (sh.record now key e) rest := by
  cases t with
  | putting u =>
      cases habout
      obtain ⟨hdirect, hready, hk⟩ := h
      refine ⟨hdirect, hready, fun hl => ?_⟩
      rw [effectsOn_record_same]
      exact hkept (hlive hl) (hk (hlive hl))
  | stored u a =>
      cases habout
      obtain ⟨hdirect, hready, hw⟩ := h
      refine ⟨hdirect, hready, fun size sha256 hstored hl => ?_⟩
      rw [effectsOn_record_same]
      exact hwhole size (hlive hl) (hw size sha256 hstored (hlive hl))
  | creating req s id upload =>
      cases habout
      obtain ⟨htus, hn, hk⟩ := h
      refine ⟨htus, ?_, fun hl => ?_⟩
      · rw [effectsOn_record_same]
        exact hnone hn
      · rw [effectsOn_record_same]
        exact hkept (hlive hl) (hk (hlive hl))
  | writing req s id upload =>
      cases habout
      obtain ⟨htus, hw⟩ := h
      refine ⟨htus, fun hl => ?_⟩
      rw [effectsOn_record_same]
      exact hwhole _ (hlive hl) (hw (hlive hl))
  | finishing req s id upload =>
      cases habout
      obtain ⟨htus, hw⟩ := h
      refine ⟨htus, fun hfull hl => ?_⟩
      rw [effectsOn_record_same]
      exact hwhole _ (hlive hl) (hw hfull (hlive hl))
  | _ => cases habout

/-- A turn that only touches the sidecar, or writes nothing. -/
theorem Inv.idle (h : Inv sh ts) (hrest : ∀ t ∈ rest, t ∈ ts) (he : Idle e)
    (hfits : Entry.fits ⟨key, e, now⟩ sh.db)
    (hgives : ∀ t ∈ ts, ∀ id, t.givesUp id → ∃ t' ∈ new ++ rest, t'.givesUp id)
    (hlocks : ((new ++ rest).filterMap Task.holds).Perm sh.locked)
    (hsingle : ((new ++ rest).filterMap Task.puts).Nodup)
    (htime : ∀ cutoff live, Task.sweeping cutoff live ∈ rest → cutoff < now)
    (hnew : ∀ t ∈ new, t.Sound (sh.record now key e) (new ++ rest)) :
    Inv (sh.record now key e) (new ++ rest) := by
  refine h.record hrest hfits hgives hlocks hsingle htime ?_ ?_ ?_ hnew
  · exact fun _ _ _ _ _ _ => he.whole
  · intro upload hl hupload
    obtain ⟨u, hu⟩ := he.upload hupload
    exact he.kept (h.traced key u hl hu)
  · intro t ht habout
    exact (h.tasks t (hrest t ht)).touched habout (live_mono fun t ht => hgives t ht key)
      (fun _ _ => he.whole) (fun _ => he.kept) ((he.size _).trans ·)

/-- A turn that takes away what no row that is live stands for. -/
theorem Inv.dead (h : Inv sh ts) (hrest : ∀ t ∈ rest, t ∈ ts) (hdead : ¬ Live sh.db ts key)
    (hnone : objectSize (effectsOn key sh.log) = none →
      objectSize (e :: effectsOn key sh.log) = none)
    (hfits : Entry.fits ⟨key, e, now⟩ sh.db)
    (hgives : ∀ t ∈ ts, ∀ id, t.givesUp id → ∃ t' ∈ new ++ rest, t'.givesUp id)
    (hlocks : ((new ++ rest).filterMap Task.holds).Perm sh.locked)
    (hsingle : ((new ++ rest).filterMap Task.puts).Nodup)
    (htime : ∀ cutoff live, Task.sweeping cutoff live ∈ rest → cutoff < now)
    (hnew : ∀ t ∈ new, t.Sound (sh.record now key e) (new ++ rest)) :
    Inv (sh.record now key e) (new ++ rest) := by
  refine h.record hrest hfits hgives hlocks hsingle htime ?_ ?_ ?_ hnew
  · intro i hi hid hkind hready
    exact absurd (Ready.live ⟨i, hi, hid, hkind, hready⟩) hdead
  · exact fun _ hl => absurd hl hdead
  · intro t ht habout
    exact (h.tasks t (hrest t ht)).touched habout (live_mono fun t ht => hgives t ht key)
      (fun _ hl => absurd hl hdead) (fun hl => absurd hl hdead) hnone

/-! ## Who writes an object -/

/-- Nobody else writes the object of a direct upload. -/
theorem Inv.direct_alone (h : Inv sh ts) (hrest : ∀ t ∈ rest, t ∈ ts)
    (hdirect : IsDirect sh.db key) (hnobody : key ∉ rest.filterMap Task.puts) {t : Task}
    (ht : t ∈ rest) : t.about ≠ some key := by
  intro habout
  have hsound := h.tasks t (hrest t ht)
  cases t with
  | putting u => exact hnobody (List.mem_filterMap.2 ⟨_, ht, habout⟩)
  | stored u a => exact hnobody (List.mem_filterMap.2 ⟨_, ht, habout⟩)
  | creating req s id upload =>
      cases habout
      exact hdirect.not_tus h.ids hsound.1
  | writing req s id upload =>
      cases habout
      exact hdirect.not_tus h.ids hsound.1
  | finishing req s id upload =>
      cases habout
      exact hdirect.not_tus h.ids hsound.1
  | _ => cases habout

/-- Without the lock of an upload, a task can only have finished it. -/
theorem Inv.tus_alone (h : Inv sh ts) (hrest : ∀ t ∈ rest, t ∈ ts) {size : Option Nat}
    (htus : IsTus sh.db key size) (hnobody : key ∉ rest.filterMap Task.holds) {t : Task}
    (ht : t ∈ rest) (habout : t.about = some key) :
    ∃ req s upload, t = .finishing req s key upload ∧ upload.size = size := by
  have hsound := h.tasks t (hrest t ht)
  cases t with
  | putting u =>
      cases habout
      exact absurd htus (hsound.1.not_tus h.ids)
  | stored u a =>
      cases habout
      exact absurd htus (hsound.1.not_tus h.ids)
  | creating req s id upload =>
      exact absurd (List.mem_filterMap.2 ⟨.creating req s id upload, ht, habout⟩) hnobody
  | writing req s id upload =>
      exact absurd (List.mem_filterMap.2 ⟨.writing req s id upload, ht, habout⟩) hnobody
  | finishing req s id upload =>
      cases habout
      exact ⟨req, s, upload, rfl, hsound.1.size_unique h.ids htus⟩
  | _ => cases habout

/-- What is stored under the key of an upload of the upload protocol was not `put` there. -/
theorem Inv.tus_entries (h : Inv sh ts) {size : Option Nat} (htus : IsTus sh.db key size) :
    ∀ e ∈ effectsOn key sh.log, e.isPut = false := by
  intro e he
  obtain ⟨x, hx, rfl, rfl⟩ := mem_effectsOn.1 he
  have hfits := h.entries x hx
  cases heffect : x.effect with
  | opened =>
      rw [Entry.fits, heffect] at hfits
      exact absurd htus (hfits.not_tus h.ids)
  | finished size =>
      rw [Entry.fits, heffect] at hfits
      exact absurd htus (hfits.not_tus h.ids)
  | _ => rfl

/-- What the upload store has under a key belongs to a row of the upload protocol. -/
theorem Inv.upload_row (h : Inv sh ts) {upload : TusUpload}
    (hupload : getUpload (effectsOn key sh.log) = some upload) :
    IsTus sh.db key upload.size := by
  obtain ⟨created, hcreated, hsize⟩ := getUpload_created hupload
  obtain ⟨x, hx, rfl, heffect⟩ := mem_effectsOn.1 hcreated
  have hfits := h.entries x hx
  simp only [Entry.fits, heffect, hsize] at hfits
  exact hfits

theorem Inv.upload_size (h : Inv sh ts) {upload : TusUpload}
    (hupload : getUpload (effectsOn key sh.log) = some upload) :
    objectSize (effectsOn key sh.log) = some upload.offset :=
  getUpload_size (h.tus_entries (h.upload_row hupload)) hupload

/-- A row that is ready has the announced size. -/
theorem Inv.ready_size (h : Inv sh ts) {size : Option Nat} (htus : IsTus sh.db key size)
    {i : ItemRow} (hi : i ∈ sh.db.items) (hid : i.id = key) (hkind : i.kind = .file)
    (hready : i.status = .ready) {n : Nat} (hn : objectSize (effectsOn key sh.log) = some n) :
    size = some n := by
  obtain ⟨m, hm, hwhole, hdeclared⟩ := h.rows i hi hkind hready
  obtain ⟨j, hj, hjid, hjkind, rfl⟩ := htus
  cases Table.eq_of_key h.ids hi hj (hid.trans hjid.symm)
  rw [hid] at hwhole
  rw [hdeclared hjkind, ← hn, hwhole.size]

/-! ## The turns of a direct upload -/

variable {t : Task}

/-- Nobody stops giving up when a task goes on that gives nothing up. -/
theorem gives_rest (t : Task) (new rest : List Task) (ht : ∀ id, ¬ t.givesUp id) :
    ∀ t' ∈ t :: rest, ∀ id, t'.givesUp id → ∃ t'' ∈ new ++ rest, t''.givesUp id := by
  intro t' ht' id hg
  rcases List.mem_cons.1 ht' with rfl | ht'
  · exact absurd hg (ht id)
  · exact ⟨t', List.mem_append_right _ ht', hg⟩

/-- What `put` does under its key, while nothing else is done there. -/
theorem Inv.put {u : Direct} (h : Inv sh (.putting u :: rest))
    (htime : ∀ cutoff live, Task.sweeping cutoff live ∈ rest → cutoff < now)
    (hputs : t.puts = some u.itemId) (hholds : t.holds = none)
    (he : e = .opened ∨ ∃ a, e = putEffect a)
    (hnew : t.Sound (sh.record now u.itemId e) (t :: rest)) :
    Inv (sh.record now u.itemId e) (t :: rest) := by
  obtain ⟨hdirect, hready, -⟩ := h.tasks _ (List.mem_cons_self ..)
  have hrest : ∀ t' ∈ rest, t' ∈ Task.putting u :: rest := fun _ => List.mem_cons_of_mem _
  have hsingle : (u.itemId :: rest.filterMap Task.puts).Nodup := h.single
  show Inv _ ([t] ++ rest)
  refine h.record hrest ?_ (gives_rest _ _ _ fun _ => id) ?_ ?_ htime ?_ ?_ ?_ ?_
  · rcases he with rfl | ⟨a, rfl⟩
    · exact hdirect
    · cases a with
      | stored size sha256 => exact hdirect
      | _ => exact hdirect.known
  · rw [List.singleton_append, List.filterMap_cons_none hholds]
    exact h.locks
  · rw [List.singleton_append, List.filterMap_cons_some hputs]
    exact hsingle
  · intro i hi hid hkind hstatus
    exact absurd ⟨i, hi, hid, hkind, hstatus⟩ hready
  · intro upload _ hupload
    have hold : getUpload (effectsOn u.itemId sh.log) = some upload := by
      rcases he with rfl | ⟨a, rfl⟩
      · exact hupload
      · cases a with
        | stored size sha256 => exact hupload
        | _ => cases hupload
    exact absurd (h.upload_row hold) (hdirect.not_tus h.ids)
  · intro t' ht' habout
    exact absurd habout (h.direct_alone hrest hdirect (List.nodup_cons.1 hsingle).1 ht')
  · intro t' ht'
    rw [List.mem_singleton] at ht'
    subst ht'
    exact hnew

/-- `put` opens its target. -/
theorem Inv.opened {u : Direct} (h : Inv sh (.putting u :: rest))
    (htime : ∀ cutoff live, Task.sweeping cutoff live ∈ rest → cutoff < now) :
    Inv (sh.record now u.itemId .opened) (.putting u :: rest) := by
  obtain ⟨hdirect, hready, hkept⟩ := h.tasks _ (List.mem_cons_self ..)
  refine h.put htime rfl rfl (.inl rfl) ⟨hdirect, hready, fun hl => ?_⟩
  rw [effectsOn_record_same]
  exact kept_cons.2 ⟨rfl, hkept hl⟩

/-- `put` returns or throws. -/
theorem Inv.stored {u : Direct} (a : PutAnswer) (h : Inv sh (.putting u :: rest))
    (htime : ∀ cutoff live, Task.sweeping cutoff live ∈ rest → cutoff < now) :
    Inv (sh.record now u.itemId (putEffect a)) (.stored u a :: rest) := by
  obtain ⟨hdirect, hready, hkept⟩ := h.tasks _ (List.mem_cons_self ..)
  refine h.put htime rfl rfl (.inr ⟨a, rfl⟩) ⟨hdirect, hready, fun size sha256 hstored hl => ?_⟩
  have ha : a = .stored size sha256 := by
    cases a with
    | stored n sum =>
        simp only [PutAnswer.checked] at hstored
        split at hstored
        · cases hstored
        · exact hstored
    | _ => cases hstored
  subst ha
  rw [effectsOn_record_same]
  refine whole_finished (hkept (live_mono (fun t' ht' hg => ?_) hl))
  rcases List.mem_cons.1 ht' with rfl | ht'
  · exact hg.elim
  · exact ⟨t', List.mem_cons_of_mem _ ht', hg⟩

/-! ## The turns of removals -/

/-- One thing is removed. -/
theorem Inv.removed {r : Removal} {todo : List Removal} {next : Next}
    (h : Inv sh (.removing key (r :: todo) next :: rest))
    (htime : ∀ cutoff live, Task.sweeping cutoff live ∈ rest → cutoff < now) :
    Inv (sh.record now key r.effect) (.removing key todo next :: rest) := by
  obtain ⟨hknown, hdead, hgives⟩ := h.tasks _ (List.mem_cons_self ..)
  have hrest : ∀ t' ∈ rest, t' ∈ Task.removing key (r :: todo) next :: rest :=
    fun _ => List.mem_cons_of_mem _
  have hkeeps : ∀ t' ∈ Task.removing key (r :: todo) next :: rest, ∀ id, t'.givesUp id →
      ∃ t'' ∈ [Task.removing key todo next] ++ rest, t''.givesUp id := by
    intro t' ht' id hg
    rcases List.mem_cons.1 ht' with rfl | ht'
    · exact ⟨_, List.mem_cons_self .., hg⟩
    · exact ⟨t', List.mem_cons_of_mem _ ht', hg⟩
  have hnew : ∀ t' ∈ [Task.removing key todo next],
      t'.Sound (sh.record now key r.effect) ([Task.removing key todo next] ++ rest) := by
    intro t' ht'
    rw [List.mem_singleton] at ht'
    subst ht'
    refine ⟨hknown, fun ⟨r', hr', hremoves⟩ hl => ?_, hgives⟩
    exact hdead ⟨r', List.mem_cons_of_mem _ hr', hremoves⟩
      (live_mono (fun t' ht' => hkeeps t' ht' key) hl)
  cases r with
  | sidecar =>
      exact h.idle hrest idle_sidecar hknown hkeeps h.locks h.single htime hnew
  | tusRemove =>
      exact Inv.dead (e := .tusRemoved) h hrest (hdead ⟨_, List.mem_cons_self .., rfl⟩)
          (fun _ => rfl) hknown hkeeps h.locks h.single htime hnew
  | data =>
      exact Inv.dead (e := .dataDeleted) h hrest (hdead ⟨_, List.mem_cons_self .., rfl⟩)
          (fun _ => rfl) hknown hkeeps h.locks h.single htime hnew

variable {sh' : Shared} {old : List Task}

/-- Tasks that neither have a lock nor put an object. -/
def Idlers (ts : List Task) : Prop := ∀ t ∈ ts, t.holds = none ∧ t.puts = none

theorem Idlers.holds (h : Idlers old) :
    (old ++ rest).filterMap Task.holds = rest.filterMap Task.holds := by
  rw [List.filterMap_append, List.filterMap_eq_nil_iff.2 fun t ht => (h t ht).1, List.nil_append]

theorem Idlers.puts (h : Idlers old) :
    (old ++ rest).filterMap Task.puts = rest.filterMap Task.puts := by
  rw [List.filterMap_append, List.filterMap_eq_nil_iff.2 fun t ht => (h t ht).2, List.nil_append]

theorem idlers_nil : Idlers [] := List.forall_mem_nil _

theorem idlers_singleton (hholds : t.holds = none) (hputs : t.puts = none) : Idlers [t] := by
  intro t' ht'
  rw [List.mem_singleton] at ht'
  subst ht'
  exact ⟨hholds, hputs⟩

/-- A turn of tasks that hold nothing, which leaves the storage alone and completes nothing. -/
theorem Inv.plain (old new : List Task) (h : Inv sh (old ++ rest)) (hold : Idlers old)
    (hnew : Idlers new) (hlog : sh'.log = sh.log) (hlocked : sh'.locked = sh.locked)
    (hgrow : Grows sh.db.items sh'.db.items)
    (hgives : ∀ t ∈ old, ∀ id, t.givesUp id → (∃ t' ∈ new, t'.givesUp id) ∨
      ∀ i ∈ sh'.db.items, i.id = id → i.status ≠ .uploading)
    (hsound : ∀ t ∈ new, t.Sound sh' (new ++ rest)) : Inv sh' (new ++ rest) := by
  have hlocks := h.locks
  have hexclusive := h.exclusive
  have hsingle := h.single
  rw [hold.holds] at hlocks hexclusive
  rw [hold.puts] at hsingle
  refine h.grows new rest (fun t ht => List.mem_append_right _ ht) hlog hgrow ?_ ?_ ?_ ?_ hsound
  · intro t ht id hg
    rcases List.mem_append.1 ht with ht | ht
    · refine (hgives t ht id hg).imp_left ?_
      rintro ⟨t', ht', hg'⟩
      exact ⟨t', List.mem_append_left _ ht', hg'⟩
    · exact .inl ⟨t, List.mem_append_right _ ht, hg⟩
  · rw [hnew.holds, hlocked]
    exact hlocks
  · rw [hnew.holds]
    exact hexclusive
  · rw [hnew.puts]
    exact hsingle

/-- The items grow, and nobody's turn is over. -/
theorem Inv.grown {d : DeliveryDb} (h : Inv sh ts) (hgrow : Grows sh.db.items d.items) :
    Inv { sh with db := d } ts :=
  Inv.plain [] [] h idlers_nil idlers_nil rfl rfl hgrow (List.forall_mem_nil _)
    (List.forall_mem_nil _)

/-- A handler is through. -/
theorem Inv.done (h : Inv sh (t :: rest)) (hholds : t.holds = none)
    (hgives : ∀ id, ¬ t.givesUp id) : Inv sh rest := by
  have hlocks := h.locks
  have hexclusive := h.exclusive
  rw [List.filterMap_cons_none hholds] at hlocks hexclusive
  refine Inv.grows [] rest h (fun _ => List.mem_cons_of_mem _) rfl .same ?_ hlocks hexclusive
    (h.single.sublist ((List.sublist_cons_self ..).filterMap _)) (List.forall_mem_nil _)
  exact fun t' ht' id hg => .inl (gives_rest t [] rest hgives t' ht' id hg)

/-- A removal failed, or is not over. -/
theorem Inv.removing {todo todo' : List Removal} {next : Next}
    (h : Inv sh (.removing key todo next :: rest)) (htodo : ∀ r ∈ todo', r ∈ todo) :
    Inv sh (.removing key todo' next :: rest) := by
  obtain ⟨hknown, hdead, hgives⟩ := h.tasks _ (List.mem_cons_self ..)
  have hkeeps : ∀ t' ∈ [Task.removing key todo next], ∀ id, t'.givesUp id →
      ∃ t'' ∈ [Task.removing key todo' next], t''.givesUp id := by
    intro t' ht' id hg
    rw [List.mem_singleton] at ht'
    subst ht'
    exact ⟨_, List.mem_singleton_self _, hg⟩
  refine Inv.plain [_] [_] h (idlers_singleton rfl rfl) (idlers_singleton rfl rfl) rfl rfl .same
    (fun t ht id hg => .inl (hkeeps t ht id hg)) ?_
  intro t' ht'
  rw [List.mem_singleton] at ht'
  subst ht'
  refine ⟨hknown, fun ⟨r, hr, hremoves⟩ hl => ?_, hgives⟩
  refine hdead ⟨r, htodo r hr, hremoves⟩ (live_mono (fun t' ht' hg => ?_) hl)
  rcases List.mem_cons.1 ht' with rfl | ht'
  · exact ⟨_, List.mem_cons_self .., hg⟩
  · exact ⟨t', List.mem_cons_of_mem _ ht', hg⟩

theorem failUpload_grows (id : String) (status : ItemStatus) (hready : status ≠ .ready)
    (huploading : status ≠ .uploading) (d : DeliveryDb) :
    Grows d.items (failUpload id status d).2.items :=
  .set _ fun _ => ⟨rfl, rfl, rfl, hready, huploading⟩

/-- An upload that failed is not 'uploading' any more. -/
theorem failUpload_settled (id : String) (status : ItemStatus)
    (huploading : status ≠ .uploading) (d : DeliveryDb) :
    ∀ i ∈ (failUpload id status d).2.items, i.id = id → i.status ≠ .uploading := by
  intro j hj hid hstatus
  obtain ⟨i, hi, rfl⟩ := Table.mem_update.1 hj
  split at hstatus
  · exact huploading hstatus
  · rename_i hno
    rw [if_neg hno] at hid
    exact hno (by simp [hid, hstatus])

/-- What the cleanup waits for after its stale uploads. -/
theorem nextFile_sound (opts : CleanupOptions) (audit : List AuditEvent) (files : List ItemRow) :
    Idlers (nextFile now opts audit files sh).tasks ∧
      (∀ t ∈ (nextFile now opts audit files sh).tasks, t.Sound sh rest) := by
  cases files with
  | cons item others =>
      refine ⟨idlers_singleton rfl rfl, fun t ht => ?_⟩
      rw [nextFile, List.mem_singleton] at ht
      subst ht
      trivial
  | nil =>
      refine ⟨idlers_singleton rfl rfl, fun t ht => ?_⟩
      rw [nextFile, startSweep, List.mem_singleton] at ht
      subst ht
      rintro id ⟨i, hi, hid, hkind, hstatus⟩
      exact .inl (mem_liveStorageKeys.2 ⟨i, hi, hid, hkind, hstatus.symm.imp_left And.left⟩)

/-- The cleanup goes on with uploads that are known and not ready. -/
theorem nextStale_sound (opts : CleanupOptions) (audit : List AuditEvent) {stale : List ItemRow}
    (hstale : ∀ i ∈ stale, Known sh.db i.id ∧ ¬ Ready sh.db i.id) :
    Idlers (nextStale now opts audit stale sh).tasks ∧
      (∀ i ∈ stale, ∃ t ∈ (nextStale now opts audit stale sh).tasks, t.givesUp i.id) ∧
      (∀ t ∈ (nextStale now opts audit stale sh).tasks,
        t.Sound sh ((nextStale now opts audit stale sh).tasks ++ rest)) := by
  cases stale with
  | cons item others =>
      refine ⟨idlers_singleton rfl rfl,
        fun i hi => ⟨_, List.mem_singleton_self _, i, hi, rfl⟩, fun t ht => ?_⟩
      rw [nextStale, List.mem_singleton] at ht
      subst ht
      obtain ⟨hknown, hready⟩ := hstale item (List.mem_cons_self ..)
      refine ⟨hknown, fun _ => ?_, ?_⟩
      · exact not_live_of_givesUp (List.mem_cons_self ..) ⟨item, List.mem_cons_self .., rfl⟩ hready
      · rintro id ⟨i, hi, rfl⟩
        exact hstale i hi
  | nil =>
      obtain ⟨hidle, hsound⟩ := nextFile_sound opts audit
          (if opts.verifyFiles then listReadyFiles sh.db else [])
      exact ⟨hidle, List.forall_mem_nil _, hsound⟩

/-- A handler goes on after its removals. -/
theorem Inv.next {next : Next} (h : Inv sh (.removing key [] next :: rest)) :
    Inv (next.resume now sh).shared ((next.resume now sh).tasks ++ rest) := by
  obtain ⟨-, -, hgives⟩ := h.tasks _ (List.mem_cons_self ..)
  cases next with
  | refused out => exact h.done rfl fun _ hg => hg
  | itemDeleted item req s => exact h.done rfl fun _ hg => hg
  | nothing => exact h.done rfl fun _ hg => hg
  | discarded item =>
      refine Inv.plain [.removing key [] (.discarded item)] [] h (idlers_singleton rfl rfl)
        idlers_nil rfl rfl (failUpload_grows item.id .aborted nofun nofun sh.db) ?_
        (List.forall_mem_nil _)
      intro t ht id hg
      rw [List.mem_singleton] at ht
      subst ht
      cases hg
      exact .inr (failUpload_settled item.id .aborted nofun sh.db)
  | expired item others opts =>
      have hgrow := failUpload_grows item.id .expired nofun nofun sh.db
      obtain ⟨hidle, hcovers, hsound⟩ := @nextStale_sound
        { sh with db := (failUpload item.id .expired sh.db).2 } rest now opts
        (if (failUpload item.id .expired sh.db).1 then [cleanupEvent "upload.expired" item] else [])
        others fun i hi => by
          obtain ⟨hknown, hready⟩ := hgives i.id ⟨i, List.mem_cons_of_mem _ hi, rfl⟩
          exact ⟨hgrow.known hknown, fun hr => hready (hgrow.ready hr)⟩
      simp only [Next.resume]
      rw [nextStale_shared]
      refine Inv.plain [.removing key [] (.expired item others opts)] _ h
        (idlers_singleton rfl rfl) hidle rfl rfl hgrow ?_ hsound
      intro t ht id hg
      rw [List.mem_singleton] at ht
      subst ht
      obtain ⟨i, hi, rfl⟩ := hg
      rcases List.mem_cons.1 hi with rfl | hi
      · exact .inr (failUpload_settled i.id .expired nofun sh.db)
      · exact .inl (hcovers i hi)

/-! ## The turns of the upload protocol -/

/-- A task gives its lock back. -/
theorem Inv.unlock (new : List Task) (h : Inv sh (t :: rest)) (hholds : t.holds = some key)
    (hgives : ∀ id, ¬ t.givesUp id) (hnew : Idlers new)
    (hsound : ∀ t' ∈ new, t'.Sound { sh with locked := sh.locked.erase key } (new ++ rest)) :
    Inv { sh with locked := sh.locked.erase key } (new ++ rest) := by
  have hlocks := h.locks
  have hexclusive := h.exclusive
  rw [List.filterMap_cons_some hholds] at hlocks hexclusive
  refine Inv.grows new rest h (fun _ => List.mem_cons_of_mem _) rfl .same ?_ ?_ ?_ ?_ hsound
  · exact fun t' ht' id hg => .inl (gives_rest t new rest hgives t' ht' id hg)
  · rw [hnew.holds]
    have herase := hlocks.erase key
    rwa [List.erase_cons_head] at herase
  · rw [hnew.holds]
    exact (List.nodup_cons.1 hexclusive).2
  · rw [hnew.puts]
    exact h.single.sublist ((List.sublist_cons_self ..).filterMap _)

/-- The body of an upload is written. -/
theorem Inv.written {req : Request} {s : Signed} {upload : TusUpload}
    (h : Inv sh (.writing req s key upload :: rest)) :
    Inv { sh with locked := sh.locked.erase key } (.finishing req s key upload :: rest) := by
  obtain ⟨htus, hwhole⟩ := h.tasks _ (List.mem_cons_self ..)
  have hgives := gives_rest (.writing req s key upload) [.finishing req s key upload] rest
    fun _ hg => hg
  refine Inv.unlock [.finishing req s key upload] h rfl (fun _ hg => hg)
    (idlers_singleton rfl rfl) fun t' ht' => ?_
  rw [List.mem_singleton] at ht'
  subst ht'
  exact ⟨htus, fun _ hl => hwhole (live_mono (fun t' ht' => hgives t' ht' key) hl)⟩

/-- A request of the upload protocol gets the lock. -/
theorem Inv.lock {req : Request} {s : Signed} {upload : TusUpload}
    (h : Inv sh (.patching req s key :: rest)) (hfree : key ∉ sh.locked)
    (hupload : getUpload (effectsOn key sh.log) = some upload) :
    Inv { sh with locked := key :: sh.locked } (.writing req s key upload :: rest) := by
  have hlocks : (rest.filterMap Task.holds).Perm sh.locked := h.locks
  have hgives := gives_rest (.patching req s key) [.writing req s key upload] rest fun _ hg => hg
  refine Inv.grows [.writing req s key upload] rest h (fun _ => List.mem_cons_of_mem _) rfl .same
    ?_ (hlocks.cons key) ?_ h.single fun t' ht' => ?_
  · exact fun t' ht' id hg => .inl (hgives t' ht' id hg)
  · exact List.nodup_cons.2 ⟨fun hmem => hfree (hlocks.mem_iff.1 hmem), h.exclusive⟩
  · rw [List.mem_singleton] at ht'
    subst ht'
    refine ⟨h.upload_row hupload, fun hl => ⟨h.upload_size hupload, ?_⟩⟩
    exact h.traced key upload (live_mono (fun t' ht' => hgives t' ht' key) hl) hupload

theorem Inv.free (h : Inv sh (t :: rest)) (hholds : t.holds = some key) :
    key ∉ rest.filterMap Task.holds := by
  have hexclusive := h.exclusive
  rw [List.filterMap_cons_some hholds] at hexclusive
  exact (List.nodup_cons.1 hexclusive).1

/-- The upload store creates an upload. -/
theorem Inv.created {req : Request} {s : Signed} {upload : TusUpload}
    (h : Inv sh (.creating req s key upload :: rest))
    (htime : ∀ cutoff live, Task.sweeping cutoff live ∈ rest → cutoff < now) :
    Inv (sh.record now key (.created upload))
      (.writing req s key { upload with offset := 0 } :: rest) := by
  obtain ⟨htus, hnone, hkept⟩ := h.tasks _ (List.mem_cons_self ..)
  have hrest : ∀ t' ∈ rest, t' ∈ Task.creating req s key upload :: rest :=
    fun _ => List.mem_cons_of_mem _
  have hgives := gives_rest (.creating req s key upload)
    [.writing req s key { upload with offset := 0 }] rest fun _ hg => hg
  have habsurd : ∀ {n}, ¬ Whole (effectsOn key sh.log) n := fun hw => by
    have hsome := hw.size
    rw [hnone] at hsome
    cases hsome
  show Inv _ ([.writing req s key { upload with offset := 0 }] ++ rest)
  refine h.record hrest htus hgives h.locks h.single htime ?_ ?_ ?_ ?_
  · exact fun _ _ _ _ _ _ hw => absurd hw habsurd
  · exact fun _ hl _ => kept_cons.2 ⟨rfl, hkept hl⟩
  · intro t' ht' habout
    obtain ⟨req', s', upload', rfl, hsize⟩ := h.tus_alone hrest htus (h.free rfl) ht' habout
    have hsound := h.tasks _ (hrest _ ht')
    refine ⟨hsound.1, fun hfull hl => absurd (hsound.2 hfull ?_) habsurd⟩
    exact live_mono (fun t' ht' => hgives t' ht' key) hl
  · intro t' ht'
    rw [List.mem_singleton] at ht'
    subst ht'
    refine ⟨htus, fun hl => ?_⟩
    rw [effectsOn_record_same]
    exact whole_created (hkept (live_mono (fun t' ht' => hgives t' ht' key) hl)) upload

/-- The upload store takes bytes.  Who finished the upload before has seen all of them. -/
theorem Inv.wrote {req : Request} {s : Signed} {upload : TusUpload} {n size : Nat}
    (h : Inv sh (.writing req s key upload :: rest)) (hsize : upload.size = some size)
    (hfit : upload.offset + n ≤ size)
    (htime : ∀ cutoff live, Task.sweeping cutoff live ∈ rest → cutoff < now) :
    Inv (sh.record now key (.wrote n))
      (.writing req s key { upload with offset := upload.offset + n } :: rest) := by
  obtain ⟨htus, hwhole⟩ := h.tasks _ (List.mem_cons_self ..)
  have hrest : ∀ t' ∈ rest, t' ∈ Task.writing req s key upload :: rest :=
    fun _ => List.mem_cons_of_mem _
  have hgives := gives_rest (.writing req s key upload)
    [.writing req s key { upload with offset := upload.offset + n }] rest fun _ hg => hg
  have hfull : ∀ {m}, size = m → upload.offset = m → n = 0 := by
    intro m _ _
    omega
  show Inv _ ([.writing req s key { upload with offset := upload.offset + n }] ++ rest)
  refine h.record hrest ⟨_, htus⟩ hgives h.locks h.single htime ?_ ?_ ?_ ?_
  · intro i hi hid hkind hready m hm
    have hannounced := h.ready_size htus hi hid hkind hready hm.size
    rw [hsize, Option.some.injEq] at hannounced
    have hoffset := hwhole (Ready.live ⟨i, hi, hid, hkind, hready⟩)
    cases hfull hannounced (hoffset.unique hm)
    exact idle_wrote.whole hm
  · exact fun _ hl _ => kept_cons.2 ⟨rfl, (hwhole hl).kept⟩
  · intro t' ht' habout
    obtain ⟨req', s', upload', rfl, hsize'⟩ := h.tus_alone hrest htus (h.free rfl) ht' habout
    have hsound := h.tasks _ (hrest _ ht')
    refine ⟨hsound.1, fun hdone hl => ?_⟩
    have hl' := live_mono (fun t' ht' => hgives t' ht' key) hl
    have hm := hsound.2 hdone hl'
    rw [hsize', hsize, Option.some.injEq] at hdone
    cases hfull hdone ((hwhole hl').unique hm)
    rw [effectsOn_record_same]
    exact idle_wrote.whole hm
  · intro t' ht'
    rw [List.mem_singleton] at ht'
    subst ht'
    refine ⟨htus, fun hl => ?_⟩
    rw [effectsOn_record_same]
    exact (hwhole (live_mono (fun t' ht' => hgives t' ht' key) hl)).wrote n

/-- The upload store removes an unfinished upload: nobody has finished it. -/
theorem Inv.terminated {upload : TusUpload} (h : Inv sh (.terminating key :: rest))
    (hfree : key ∉ sh.locked) (hupload : getUpload (effectsOn key sh.log) = some upload)
    (hopen : upload.size ≠ some upload.offset)
    (htime : ∀ cutoff live, Task.sweeping cutoff live ∈ rest → cutoff < now) :
    Inv (sh.record now key .tusRemoved) (.terminated key :: rest) := by
  have htus := h.upload_row hupload
  have hsize := h.upload_size hupload
  have hrest : ∀ t' ∈ rest, t' ∈ Task.terminating key :: rest := fun _ => List.mem_cons_of_mem _
  have hgives := gives_rest (.terminating key) [.terminated key] rest fun _ hg => hg
  have hlocks : (rest.filterMap Task.holds).Perm sh.locked := h.locks
  show Inv _ ([.terminated key] ++ rest)
  refine h.record hrest htus.known hgives h.locks h.single htime ?_ ?_ ?_ ?_
  · intro i hi hid hkind hready m hm
    exact absurd (h.ready_size htus hi hid hkind hready hsize) hopen
  · exact fun _ _ hremoved => by cases hremoved
  · intro t' ht' habout
    obtain ⟨req, s, upload', rfl, hsize'⟩ :=
      h.tus_alone hrest htus (fun hmem => hfree (hlocks.mem_iff.1 hmem)) ht' habout
    have hsound := h.tasks _ (hrest _ ht')
    refine ⟨hsound.1, fun hdone hl => ?_⟩
    have hm := hsound.2 hdone (live_mono (fun t' ht' => hgives t' ht' key) hl)
    have hoffset := hm.size
    rw [hsize, Option.some.injEq] at hoffset
    rw [hsize', ← hoffset] at hdone
    exact absurd hdone hopen
  · intro t' ht'
    rw [List.mem_singleton] at ht'
    subst ht'
    trivial

/-- The sweep removes an artefact: it is older than the sweep, and no live row stands for it. -/
theorem Inv.swept {cutoff : Int} {live : List String} (h : Inv sh (.sweeping cutoff live :: rest))
    (hwanted : key ∉ live) (hold : sh.hasOld key cutoff = true) (hnow : cutoff < now)
    (htime : ∀ cutoff live, Task.sweeping cutoff live ∈ rest → cutoff < now) :
    Inv (sh.record now key .swept) (.sweeping cutoff live :: rest) := by
  have hsound := h.tasks _ (List.mem_cons_self ..)
  obtain ⟨x, hx, hmatch⟩ := List.any_eq_true.1 hold
  rw [Bool.and_eq_true, beq_iff_eq, decide_eq_true_eq] at hmatch
  obtain ⟨rfl, hat⟩ := hmatch
  have hgives := gives_rest (.sweeping cutoff live) [.sweeping cutoff live] rest fun _ hg => hg
  show Inv _ ([.sweeping cutoff live] ++ rest)
  refine h.dead (fun _ => List.mem_cons_of_mem _) ?_ (fun _ => rfl) (h.entries x hx).known hgives h.locks h.single htime fun t' ht' => ?_
  · intro hl
    rcases hsound x.key hl with hmem | hnewer
    · exact hwanted hmem
    · have hlt := hnewer x hx rfl
      omega
  · rw [List.mem_singleton] at ht'
    subst ht'
    refine Task.Sound.record hsound (fun id => live_mono fun t' ht' => hgives t' ht' id) ?_ nofun
    intro cutoff' live' heq
    cases heq
    exact hnow

/-! ## The end of an upload -/

variable {id : String} {size : Nat} {sha256 : Option String}

/-- Where nothing is 'uploading', nothing is completed. -/
theorem completeUpload_nothing (now : Int) {d : DeliveryDb} (h : ¬ Pending d id) :
    (completeUpload now id size sha256 d).2 = d := by
  have hitems : Table.update (fun i : ItemRow => i.id == id && i.status == .uploading)
      (fun i => { i with
        status := .ready, size := some size, sha256 := sha256.or i.sha256, readyAt := some now })
      d.items = d.items := by
    refine Table.update_eq_self fun i hi hmatch => ?_
    rw [Bool.and_eq_true, beq_iff_eq, beq_iff_eq] at hmatch
    exact absurd ⟨i, hi, hmatch⟩ h
  show { d with items := _ } = d
  rw [hitems]

/-- A completed row says of itself what it said, and has the size. -/
theorem completeUpload_origin {d : DeliveryDb} {j : ItemRow}
    (hj : j ∈ (completeUpload now id size sha256 d).2.items) :
    j ∈ d.items ∨ j.id = id ∧ j.size = some size ∧ ∃ i ∈ d.items, i.id = id ∧
      i.status = .uploading ∧ i.kind = j.kind ∧ i.uploadKind = j.uploadKind ∧
        i.declaredSize = j.declaredSize := by
  obtain ⟨i, hi, rfl⟩ := Table.mem_update.1 hj
  split
  · rename_i hmatch
    rw [Bool.and_eq_true, beq_iff_eq, beq_iff_eq] at hmatch
    exact .inr ⟨hmatch.1, rfl, i, hi, hmatch.1, hmatch.2, rfl, rfl, rfl⟩
  · exact .inl hi

/-- A row keeps how and with what size it was announced. -/
theorem completeUpload_row (now : Int) (id : String) (size : Nat) (sha256 : Option String)
    {d : DeliveryDb} {i : ItemRow} (hi : i ∈ d.items) :
    ∃ j ∈ (completeUpload now id size sha256 d).2.items, j.id = i.id ∧
      j.uploadKind = i.uploadKind ∧ j.declaredSize = i.declaredSize := by
  refine ⟨_, Table.mem_update.2 ⟨i, hi, rfl⟩, ?_⟩
  split <;> exact ⟨rfl, rfl, rfl⟩

theorem completeUpload_known {d : DeliveryDb} {k : String} (h : Known d k) :
    Known (completeUpload now id size sha256 d).2 k := by
  obtain ⟨i, hi, rfl⟩ := h
  obtain ⟨j, hj, hid, -⟩ := completeUpload_row now id size sha256 hi
  exact ⟨j, hj, hid⟩

theorem completeUpload_direct {d : DeliveryDb} {k : String} (h : IsDirect d k) :
    IsDirect (completeUpload now id size sha256 d).2 k := by
  obtain ⟨i, hi, rfl, hkind⟩ := h
  obtain ⟨j, hj, hid, hkind', -⟩ := completeUpload_row now id size sha256 hi
  exact ⟨j, hj, hid, hkind'.trans hkind⟩

theorem completeUpload_tus {d : DeliveryDb} {k : String} {declared : Option Nat}
    (h : IsTus d k declared) : IsTus (completeUpload now id size sha256 d).2 k declared := by
  obtain ⟨i, hi, rfl, hkind, hsize⟩ := h
  obtain ⟨j, hj, hid, hkind', hsize'⟩ := completeUpload_row now id size sha256 hi
  exact ⟨j, hj, hid, hkind'.trans hkind, hsize'.trans hsize⟩

theorem completeUpload_ready_file {d : DeliveryDb} {k : String}
    (h : Ready (completeUpload now id size sha256 d).2 k) : Ready d k ∨ k = id := by
  obtain ⟨j, hj, rfl, hkind, hstatus⟩ := h
  rcases completeUpload_origin hj with hold | ⟨hid, -⟩
  · exact .inl ⟨j, hold, rfl, hkind, hstatus⟩
  · exact .inr hid

/-- An upload that nobody gives up is completed: its object is there. -/
theorem Inv.complete (now : Int) (sha256 : Option String) (h : Inv sh ts)
    (hwhole : Live sh.db ts id → Whole (effectsOn id sh.log) size)
    (htus : ∀ declared, IsTus sh.db id declared → declared = some size)
    (hnobody : Pending sh.db id → ∀ t ∈ ts, ¬ t.givesUp id)
    (hputs : ∀ {k}, ∀ t ∈ ts, t.puts = some k → k ≠ id) :
    Inv { sh with db := (completeUpload now id size sha256 sh.db).2 } ts := by
  by_cases hpending : Pending sh.db id
  case neg =>
    rw [completeUpload_nothing now hpending]
    exact h
  have hlive : ∀ k, Live (completeUpload now id size sha256 sh.db).2 ts k → Live sh.db ts k := by
    rintro k ⟨j, hj, rfl, hkind, hstatus⟩
    rcases completeUpload_origin hj with hold | ⟨hid, -, i, hi, hiid, huploading, hikind, -⟩
    · exact ⟨j, hold, rfl, hkind, hstatus⟩
    · exact ⟨i, hi, hiid.trans hid.symm, hikind.trans hkind,
        .inr ⟨huploading, hid ▸ hnobody hpending⟩⟩
  refine ⟨?_, ?_, h.locks, h.exclusive, h.single, ?_, ?_, ?_⟩
  · exact Table.nodup_update (by exact fun _ => rfl) h.ids
  · intro x hx
    have hfits := h.entries x hx
    unfold Entry.fits at *
    split at hfits
    · exact completeUpload_direct hfits
    · exact completeUpload_direct hfits
    · exact completeUpload_tus hfits
    · obtain ⟨declared, hfits⟩ := hfits
      exact ⟨declared, completeUpload_tus hfits⟩
    · exact completeUpload_known hfits
  · intro j hj hkind hready
    rcases completeUpload_origin hj with hold | ⟨hid, hsize, i, hi, hiid, huploading, hrow⟩
    · exact h.rows j hold hkind hready
    · obtain ⟨hikind, hiupload, hideclared⟩ := hrow
      refine ⟨size, hsize, ?_, fun htuskind => ?_⟩
      · rw [hid]
        exact hwhole ⟨i, hi, hiid, hikind.trans hkind, .inr ⟨huploading, hnobody hpending⟩⟩
      · rw [← hideclared]
        exact htus _ ⟨i, hi, hiid, hiupload.trans htuskind, rfl⟩
  · exact fun k upload hl => h.traced k upload (hlive k hl)
  · intro t ht
    have hsound := h.tasks t ht
    cases t with
    | putting u =>
        refine ⟨completeUpload_direct hsound.1, fun hr => ?_, fun hl => hsound.2.2 (hlive _ hl)⟩
        exact (completeUpload_ready_file hr).elim hsound.2.1 (hputs _ ht rfl)
    | stored u a =>
        refine ⟨completeUpload_direct hsound.1, fun hr => ?_,
          fun size sha256 hstored hl => hsound.2.2 size sha256 hstored (hlive _ hl)⟩
        exact (completeUpload_ready_file hr).elim hsound.2.1 (hputs _ ht rfl)
    | creating req s k upload =>
        exact ⟨completeUpload_tus hsound.1, hsound.2.1, fun hl => hsound.2.2 (hlive _ hl)⟩
    | writing req s k upload =>
        exact ⟨completeUpload_tus hsound.1, fun hl => hsound.2 (hlive _ hl)⟩
    | finishing req s k upload =>
        exact ⟨completeUpload_tus hsound.1, fun hfull hl => hsound.2 hfull (hlive _ hl)⟩
    | removing k todo next =>
        obtain ⟨hknown, hdead, hgives⟩ := hsound
        refine ⟨completeUpload_known hknown, fun hr hl => hdead hr (hlive _ hl), fun k' hg => ?_⟩
        refine ⟨completeUpload_known (hgives k' hg).1, fun hr => ?_⟩
        rcases completeUpload_ready_file hr with hr | rfl
        · exact (hgives k' hg).2 hr
        · exact hnobody hpending _ ht hg
    | sweeping cutoff live => exact fun k hl => hsound k (hlive k hl)
    | _ => trivial

/-! ## One turn -/

/-- A direct upload that failed is given up before its data goes. -/
theorem Inv.refused {u : Direct} {a : PutAnswer} {todo : List Removal} {out : Out}
    (h : Inv sh (.stored u a :: rest)) :
    Inv { sh with db := (failUpload u.itemId .aborted sh.db).2 }
      (.removing u.itemId todo (.refused out) :: rest) := by
  obtain ⟨hdirect, hready, -⟩ := h.tasks _ (List.mem_cons_self ..)
  have hgrow := failUpload_grows u.itemId .aborted nofun nofun sh.db
  have hi := h.done rfl fun _ hg => hg
  refine Inv.plain [] [.removing u.itemId todo (.refused out)] hi idlers_nil
    (idlers_singleton rfl rfl) rfl rfl hgrow (List.forall_mem_nil _) fun t' ht' => ?_
  rw [List.mem_singleton] at ht'
  subst ht'
  refine ⟨hgrow.known hdirect.known, fun _ => ?_, nofun⟩
  rintro ⟨i, hi, hid, hkind, hstatus | ⟨hstatus, -⟩⟩
  · exact hready (hgrow.ready ⟨i, hi, hid, hkind, hstatus⟩)
  · exact failUpload_settled u.itemId .aborted nofun sh.db i hi hid hstatus

/-- The end of a direct upload. -/
theorem Inv.ended {u : Direct} {a : PutAnswer} (h : Inv sh (.stored u a :: rest))
    (hnobody : ∀ id, (Task.stored u a).completing = some id → Pending sh.db id →
      ∀ t ∈ rest, ¬ t.givesUp id) :
    Inv (endDirect now u a sh).shared ((endDirect now u a sh).tasks ++ rest) := by
  obtain ⟨hdirect, -, hwhole⟩ := h.tasks _ (List.mem_cons_self ..)
  have hgives := gives_rest (.stored u a) [] rest fun _ hg => hg
  have hsingle : (u.itemId :: rest.filterMap Task.puts).Nodup := h.single
  unfold endDirect
  split
  · rename_i size sha256 hstored
    refine (h.done rfl fun _ hg => hg).complete now sha256 ?_ ?_ ?_ ?_
    · exact fun hl => hwhole size sha256 hstored (live_mono (fun t' ht' => hgives t' ht' _) hl)
    · exact fun declared htus => absurd htus (hdirect.not_tus h.ids)
    · exact hnobody u.itemId (by rw [Task.completing, hstored])
    · intro k t' ht' hputs hk
      subst hk
      exact (List.nodup_cons.1 hsingle).1 (List.mem_filterMap.2 ⟨t', ht', hputs⟩)
  · exact h.refused

/-- The end of an upload of the upload protocol. -/
theorem Inv.finished {req : Request} {s : Signed} {upload : TusUpload}
    (h : Inv sh (.finishing req s id upload :: rest))
    (hnobody : ∀ k, (Task.finishing req s id upload).completing = some k → Pending sh.db k →
      ∀ t ∈ rest, ¬ t.givesUp k) :
    Inv (finish now req s id upload sh).shared ((finish now req s id upload sh).tasks ++ rest) := by
  obtain ⟨htus, hwhole⟩ := h.tasks _ (List.mem_cons_self ..)
  have hgives := gives_rest (.finishing req s id upload) [] rest fun _ hg => hg
  have hi : Inv (finish now req s id upload sh).shared rest := by
    by_cases hfull : upload.size = some upload.offset
    · have hshared : (finish now req s id upload sh).shared =
          { sh with db := (completeUpload now id upload.offset none sh.db).2 } :=
        congrArg (fun db => { sh with db }) (finish_complete now req s id hfull).1
      rw [hshared]
      refine (h.done rfl fun _ hg => hg).complete now none ?_ ?_ ?_ ?_
      · exact fun hl => hwhole hfull (live_mono (fun t' ht' => hgives t' ht' _) hl)
      · exact fun declared hdeclared => (hdeclared.size_unique h.ids htus).trans hfull
      · exact hnobody id (by rw [Task.completing, if_pos hfull])
      · intro k t' ht' hputs hk
        subst hk
        have hsound := h.tasks t' (List.mem_cons_of_mem _ ht')
        cases t' with
        | putting u =>
            cases hputs
            exact hsound.1.not_tus h.ids htus
        | stored u a =>
            cases hputs
            exact hsound.1.not_tus h.ids htus
        | _ => cases hputs
    · have hshared : (finish now req s id upload sh).shared = sh :=
        congrArg (fun db => { sh with db }) (finish_incomplete now req s id hfull).1
      rw [hshared]
      exact h.done rfl fun _ hg => hg
  have hknown : Known (finish now req s id upload sh).shared.db id := by
    by_cases hfull : upload.size = some upload.offset
    · rw [(finish_complete now req s id hfull).1]
      exact completeUpload_known htus.known
    · rw [(finish_incomplete now req s id hfull).1]
      exact htus.known
  refine Inv.plain [] (finish now req s id upload sh).tasks hi idlers_nil ?_ rfl rfl .same
    (List.forall_mem_nil _) ?_
  · intro t' ht'
    simp only [finish] at ht'
    split at ht'
    · cases ht'
    · rw [List.mem_singleton] at ht'
      subst ht'
      exact ⟨rfl, rfl⟩
  · intro t' ht'
    simp only [finish] at ht'
    split at ht'
    · cases ht'
    · rw [List.mem_singleton] at ht'
      subst ht'
      refine ⟨hknown, ?_, fun _ hg => False.elim hg⟩
      rintro ⟨r, hr, hremoves⟩
      rw [List.mem_singleton] at hr
      subst hr
      cases hremoves

/-- The turns of a list of removals. -/
theorem Inv.remove {r : Removal} {todo : List Removal} {next : Next} (a : Answer)
    (h : Inv sh (.removing key (r :: todo) next :: rest))
    (htime : ∀ cutoff live, Task.sweeping cutoff live ∈ rest → cutoff < now) :
    Inv (remove now key r todo next sh a).shared
      ((remove now key r todo next sh a).tasks ++ rest) := by
  unfold Uploads.remove
  split
  · exact h.removed htime
  · split
    · exact h.done rfl fun _ hg => hg
    · exact h.removing fun r' hr' => List.mem_cons_of_mem _ hr'
  · exact h

/-- The turns of a body that is written. -/
theorem Inv.write {req : Request} {s : Signed} {upload : TusUpload} (a : Answer)
    (h : Inv sh (.writing req s key upload :: rest))
    (htime : ∀ cutoff live, Task.sweeping cutoff live ∈ rest → cutoff < now) :
    Inv (write now req s key upload sh a).shared
      ((write now req s key upload sh a).tasks ++ rest) := by
  have hfree := Inv.unlock [] h rfl (fun _ hg => hg) idlers_nil (List.forall_mem_nil _)
  unfold Uploads.write
  split
  · split
    · rename_i hfit
      obtain ⟨size, hsize, hle⟩ := (Option.any_eq_true ..).1 hfit
      exact h.wrote hsize (of_decide_eq_true hle) htime
    · exact h
  · simp only []
    split
    · exact h.written
    · exact hfree
  · exact hfree
  · exact h

theorem markMissing_grows (id : String) (d : DeliveryDb) :
    Grows d.items (markMissing id d).items :=
  .set _ fun _ => ⟨rfl, rfl, rfl, nofun, nofun⟩

theorem markDeleted_grows (now : Int) (id : String) (d : DeliveryDb) :
    Grows d.items (markDeleted now id d).2.items :=
  .set _ fun _ => ⟨rfl, rfl, rfl, nofun, nofun⟩

/-- The cleanup goes on with the next ready file, or with the sweep. -/
theorem Inv.nextFile (opts : CleanupOptions) (audit : List AuditEvent) (files : List ItemRow)
    (h : Inv sh rest) : Inv (nextFile now opts audit files sh).shared
      ((nextFile now opts audit files sh).tasks ++ rest) := by
  obtain ⟨hidle, hsound⟩ := nextFile_sound opts audit files
  rw [nextFile_shared]
  exact Inv.plain [] _ h idlers_nil hidle rfl rfl .same (List.forall_mem_nil _) hsound

/-- One turn of a waiting handler. -/
theorem Inv.resume (a : Int × Answer) (h : Inv sh (t :: rest))
    (hnobody : ∀ id, t.completing = some id → Pending sh.db id → ∀ t' ∈ rest, ¬ t'.givesUp id)
    (htime : ∀ cutoff live, Task.sweeping cutoff live ∈ t :: rest → cutoff < a.1) :
    Inv (resume sh t a).shared ((resume sh t a).tasks ++ rest) := by
  have htime' : ∀ cutoff live, Task.sweeping cutoff live ∈ rest → cutoff < a.1 :=
    fun cutoff live hmem => htime cutoff live (List.mem_cons_of_mem _ hmem)
  unfold Uploads.resume
  split
  · exact h.opened htime'
  · exact h.stored _ htime'
  · exact h.ended hnobody
  · exact h.remove _ htime'
  · exact h.next
  · exact h.created htime'
  · exact Inv.unlock [] h rfl (fun _ hg => hg) idlers_nil (List.forall_mem_nil _)
  · split
    · exact h
    · rename_i hfree
      split
      · exact h.done rfl fun _ hg => hg
      · rename_i hupload
        exact h.lock (by simpa using hfree) hupload
  · exact h.write _ htime'
  · exact h.finished hnobody
  · split
    · exact h
    · rename_i hfree
      split
      · exact h.done rfl fun _ hg => hg
      · rename_i hupload
        split
        · exact h.done rfl fun _ hg => hg
        · rename_i hopen
          exact h.terminated (by simpa using hfree) hupload hopen htime'
  · rename_i id
    refine Inv.plain [.terminated id] [] h (idlers_singleton rfl rfl) idlers_nil rfl rfl ?_ ?_
      (List.forall_mem_nil _)
    · show Grows _ (postTerminate id sh.db).state.items
      unfold postTerminate
      split
      · exact .same
      · exact failUpload_grows id .aborted nofun nofun sh.db
    · intro t' ht' _ hg
      rw [List.mem_singleton] at ht'
      subst ht'
      exact hg.elim
  · rename_i item others opts now gone
    have hdone := h.done rfl fun _ hg => hg
    split
    · refine Inv.nextFile opts _ others ?_
      exact hdone.grown (markMissing_grows item.id sh.db)
    · exact hdone.nextFile opts _ others
  · split
    · rename_i hmatch
      rw [Bool.and_eq_true, Bool.not_eq_true'] at hmatch
      exact h.swept (by simpa using hmatch.1) hmatch.2 (htime _ _ (List.mem_cons_self ..)) htime'
    · exact h
  · rename_i cutoff live now
    exact (h.done rfl fun _ hg => hg).grown .same
  · exact h

/-! ## What starts -/

variable {P} {cfg}

/-- An answer that leaves everything as it was. -/
theorem Inv.answered (h : Inv sh ts) (response : Response PanelPage) :
    Inv (answer sh (refuse sh.db response)).shared
      ((answer sh (refuse sh.db response)).tasks ++ ts) := h

/-- The row of an upload that starts. -/
theorem startUpload_grows {input : StartUploadInput} {r : ItemRow × Nat} {d d' : DeliveryDb}
    (hs : startUpload P cfg now input d = .ok (r, d')) :
    Grows d.items d'.items ∧ ¬ Known d input.id ∧ ¬ Ready d' input.id ∧
      ∃ i ∈ d'.items, i.id = input.id ∧ i.uploadKind = some input.uploadKind ∧
        i.declaredSize = input.declaredSize := by
  obtain ⟨hid, -, hstatus, rfl⟩ := startUpload_ok hs
  obtain ⟨hfresh, -, hkind, hdeclared, -⟩ := startUpload_row hs
  have hready : r.1.status ≠ .ready := by simp [hstatus]
  rw [hid] at hfresh
  refine ⟨.insert (by rwa [hid]) fun _ => hready, fun ⟨i, hi, hiid⟩ => hfresh i hi hiid, ?_,
    r.1, List.mem_append_right _ (List.mem_singleton_self _), hid, hkind, hdeclared⟩
  rintro ⟨i, hi, hiid, -, histatus⟩
  rcases List.mem_append.1 hi with hi | hi
  · exact hfresh i hi hiid
  · rw [List.mem_singleton] at hi
    subst hi
    exact hready histatus

/-- A direct upload starts. -/
theorem Inv.startDirect (h : Inv sh ts) (req : Request) (s : Signed) (caseId name : String)
    (declared : Option Nat) :
    Inv (startDirect P cfg req s caseId name declared sh).shared
      ((startDirect P cfg req s caseId name declared sh).tasks ++ ts) := by
  unfold Uploads.startDirect
  split
  · exact h
  simp only []
  split
  · exact h
  split
  · exact h
  · exact h
  rename_i item maxBytes d hs
  obtain ⟨hgrow, hnew, hready, hrow⟩ := startUpload_grows hs
  have hid : item.id = newId "f" req.random.id := (startUpload_ok hs).1
  obtain ⟨i, hi, hiid, hkind, -⟩ := hrow
  have hfresh : item.id ∉ ts.filterMap Task.puts := by
    intro hmem
    obtain ⟨t, ht, hputs⟩ := List.mem_filterMap.1 hmem
    have hsound := h.tasks t ht
    rw [hid] at hputs
    cases t with
    | putting u =>
        rw [Task.puts, Option.some.injEq] at hputs
        exact hnew (hputs ▸ hsound.1.known)
    | stored u a =>
        rw [Task.puts, Option.some.injEq] at hputs
        exact hnew (hputs ▸ hsound.1.known)
    | _ => cases hputs
  refine Inv.grows _ _ h (fun _ ht => ht) rfl hgrow ?_ h.locks h.exclusive
    (List.nodup_cons.2 ⟨hfresh, h.single⟩) fun t ht => ?_
  · exact fun t ht id hg => .inl ⟨t, List.mem_cons_of_mem _ ht, hg⟩
  · rw [List.mem_singleton] at ht
    subst ht
    refine ⟨⟨i, hi, hiid.trans hid.symm, hkind⟩, by rwa [hid], fun _ => ?_⟩
    show Kept (effectsOn item.id sh.log)
    rw [hid, h.unknown hnew]
    exact List.forall_mem_nil _

/-- `onUploadCreate` starts an upload when it says so. -/
theorem onUploadCreate_starts {upload : TusUpload} {req : Request} {s : Signed} {d : DeliveryDb}
    (haudit : (onUploadCreate P cfg upload false req s d).audit.isEmpty = false) :
    ∃ caseId size item d', upload.size = some size ∧
      startUpload P cfg req.now ⟨newId "f" req.random.id, caseId, upload.filename.getD "unnamed",
        .tus, some size, some s.admin.id⟩ d = .ok (item, d') ∧
      (onUploadCreate P cfg upload false req s d).state = d' := by
  unfold onUploadCreate at *
  simp only [] at haudit ⊢
  split at haudit
  · cases haudit
  rename_i size hsize
  split at haudit
  · cases haudit
  split at haudit
  · cases haudit
  split at haudit
  · cases haudit
  rename_i hclosed
  split at haudit
  · cases haudit
  · cases haudit
  · rename_i hs
    refine ⟨_, size, _, _, hsize, hs, ?_⟩
    rw [if_neg hclosed]
    rfl

/-- `onUploadCreate` leaves the tables alone when it does not. -/
theorem onUploadCreate_refused {upload : TusUpload} {req : Request} {s : Signed} {d : DeliveryDb}
    (haudit : (onUploadCreate P cfg upload false req s d).audit.isEmpty = true) :
    (onUploadCreate P cfg upload false req s d).state = d := by
  unfold onUploadCreate at *
  simp only [] at haudit ⊢
  split at haudit
  · rfl
  split at haudit
  · rfl
  split at haudit
  · rfl
  split at haudit
  · rename_i hclosed
    rw [if_pos hclosed]
    rfl
  rename_i hclosed
  split at haudit
  · rw [if_neg hclosed]
    rfl
  · rw [if_neg hclosed]
    rfl
  · cases haudit

/-- An upload of the upload protocol starts, and has the lock. -/
theorem Inv.startPost (h : Inv sh ts) (req : Request) (s : Signed) (upload : TusUpload) :
    Inv (startPost P cfg req s upload sh).shared
      ((startPost P cfg req s upload sh).tasks ++ ts) := by
  unfold Uploads.startPost
  simp only []
  split
  · rename_i haudit
    have hstate := onUploadCreate_refused haudit
    show Inv { sh with db := (onUploadCreate P cfg upload false req s sh.db).state } ts
    rw [hstate]
    exact h
  rename_i haudit
  obtain ⟨caseId, size, item, d, hsize, hs, hstate⟩ :=
    onUploadCreate_starts (Bool.eq_false_iff.2 haudit)
  obtain ⟨hgrow, hnew, -, i, hi, hiid, hkind, hdeclared⟩ := startUpload_grows hs
  rw [hstate]
  have hfresh : newId "f" req.random.id ∉ ts.filterMap Task.holds := by
    intro hmem
    obtain ⟨t, ht, hholds⟩ := List.mem_filterMap.1 hmem
    have hsound := h.tasks t ht
    cases t with
    | creating req' s' id upload' =>
        cases hholds
        exact hnew hsound.1.known
    | writing req' s' id upload' =>
        cases hholds
        exact hnew hsound.1.known
    | _ => cases hholds
  refine Inv.grows _ _ h (fun _ ht => ht) rfl hgrow ?_
    (h.locks.cons _) (List.nodup_cons.2 ⟨hfresh, h.exclusive⟩) h.single fun t ht => ?_
  · exact fun t ht id hg => .inl ⟨t, List.mem_cons_of_mem _ ht, hg⟩
  · rw [List.mem_singleton] at ht
    subst ht
    have hnothing : effectsOn (newId "f" req.random.id) sh.log = [] := h.unknown hnew
    refine ⟨⟨i, hi, hiid, hkind, hdeclared.trans hsize.symm⟩, ?_, fun _ => ?_⟩
    · rw [hnothing]
      rfl
    · rw [hnothing]
      exact List.forall_mem_nil _

/-- A request that waits for the lock of an upload. -/
theorem Inv.startTus (h : Inv sh ts) (s : Signed) (hidle : Idlers [t])
    (hsound : ∀ sh ts, t.Sound sh ts) :
    Inv (startTus id s t sh).shared ((startTus id s t sh).tasks ++ ts) := by
  unfold Uploads.startTus
  split
  · exact h
  · refine Inv.plain [] [t] h idlers_nil hidle rfl rfl .same (List.forall_mem_nil _) ?_
    intro t' ht'
    rw [List.mem_singleton] at ht'
    subst ht'
    exact hsound _ _

/-- A row that was marked as deleted is neither ready nor 'uploading'. -/
theorem markDeleted_settled {d d' : DeliveryDb} (hids : (d.items.map (·.id)).Nodup)
    (h : markDeleted now id d = (true, d')) :
    ∀ i ∈ d'.items, i.id = id → i.status ≠ .ready ∧ i.status ≠ .uploading := by
  rw [markDeleted, updateItem, Prod.mk.injEq] at h
  obtain ⟨hany, rfl⟩ := h
  obtain ⟨r, hr, hmatch⟩ := List.any_eq_true.1 hany
  intro j hj hid
  obtain ⟨i, hi, rfl⟩ := Table.mem_update.1 hj
  split
  · exact ⟨nofun, nofun⟩
  · rename_i hno
    rw [if_neg hno] at hid
    have hrid : r.id = id := by
      rw [Bool.and_eq_true, beq_iff_eq] at hmatch
      exact hmatch.1
    cases Table.eq_of_key hids hr hi (hrid.trans hid.symm)
    exact absurd hmatch hno

theorem not_ready_of_uploading {d : DeliveryDb} (hids : (d.items.map (·.id)).Nodup) {i : ItemRow}
    (hi : i ∈ d.items) (hstatus : i.status = .uploading) : ¬ Ready d i.id := by
  rintro ⟨j, hj, hid, -, hready⟩
  exact not_pending_of_ready hids hj hready ⟨i, hi, hid.symm, hstatus⟩

/-- The delete route marks the item before its data goes, or gives an unfinished upload up. -/
theorem Inv.startDelete (h : Inv sh ts) (id : String) (req : Request) (s : Signed) :
    Inv (startDelete P id req s sh).shared ((startDelete P id req s sh).tasks ++ ts) := by
  unfold Uploads.startDelete
  simp only []
  split
  · exact h
  rename_i item hitem
  obtain ⟨k, -, hget⟩ := Option.bind_eq_some_iff.1 hitem
  have hmem : item ∈ sh.db.items := List.mem_of_find?_eq_some hget
  split
  · exact h
  split
  · rename_i d hdeleted
    have hgrow : Grows sh.db.items d.items := by
      have hrows := markDeleted_grows req.now item.id sh.db
      rwa [hdeleted] at hrows
    have hknown : Known d item.id := hgrow.known ⟨item, hmem, rfl⟩
    split
    · refine Inv.plain [] [.removing item.id [.data, .sidecar] (.itemDeleted item req s)] h
        idlers_nil (idlers_singleton rfl rfl) rfl rfl hgrow (List.forall_mem_nil _) fun t ht => ?_
      rw [List.mem_singleton] at ht
      subst ht
      exact ⟨hknown, fun _ => not_live_of_settled (markDeleted_settled h.ids hdeleted), nofun⟩
    · exact h.grown hgrow
  · split
    · rename_i huploading
      have hready := not_ready_of_uploading h.ids hmem huploading
      refine Inv.plain [] [.removing item.id (discards item) (.discarded item)] h idlers_nil
        (idlers_singleton rfl rfl) rfl rfl .same (List.forall_mem_nil _) fun t ht => ?_
      rw [List.mem_singleton] at ht
      subst ht
      refine ⟨⟨item, hmem, rfl⟩, fun _ => ?_, ?_⟩
      · exact not_live_of_givesUp (List.mem_cons_self ..) rfl hready
      · rintro _ rfl
        exact ⟨⟨item, hmem, rfl⟩, hready⟩
    · exact h

/-- The cleanup gives up what was 'uploading' for too long. -/
theorem Inv.startCleanup (h : Inv sh ts) (opts : CleanupOptions) :
    Inv (startCleanup now opts sh).shared ((startCleanup now opts sh).tasks ++ ts) := by
  have hstale : ∀ i ∈ listStaleUploads now opts.ttlMs sh.db,
      Known sh.db i.id ∧ ¬ Ready sh.db i.id := by
    intro i hi
    obtain ⟨hi, hmatch⟩ := List.mem_filter.1 hi
    rw [Bool.and_eq_true, beq_iff_eq] at hmatch
    exact ⟨⟨i, hi, rfl⟩, not_ready_of_uploading h.ids hi hmatch.1⟩
  obtain ⟨hidle, -, hsound⟩ := nextStale_sound opts [] hstale
  rw [Uploads.startCleanup, nextStale_shared]
  exact Inv.plain [] _ h idlers_nil hidle rfl rfl .same (List.forall_mem_nil _) hsound

/-- What starts keeps the invariant. -/
theorem Inv.start (h : Inv sh ts) (i : Start) :
    Inv (start P cfg sh i).shared ((start P cfg sh i).tasks ++ ts) := by
  cases i with
  | direct req s caseId name declared => exact h.startDirect req s caseId name declared
  | post req s upload => exact h.startPost req s upload
  | patch req s id => exact h.startTus s (idlers_singleton rfl rfl) fun _ _ => trivial
  | terminate req s id => exact h.startTus s (idlers_singleton rfl rfl) fun _ _ => trivial
  | deleteItem req s id => exact h.startDelete id req s
  | cleanup now opts => exact h.startCleanup opts
  | createNote now id input =>
      rw [Uploads.start]
      split
      · rename_i r d hnote
        have hgrow : Grows sh.db.items d.items := by
          have hfresh := createNote_fresh hnote
          obtain ⟨-, hkind, rfl⟩ := createNote_ok hnote
          refine .insert hfresh fun hfile => ?_
          rw [hkind] at hfile
          cases hfile
        exact h.grown hgrow
      · exact h
  | elsewhere now d =>
      exact h.grown .same

end

/-! ## Runs -/

/-- No upload is completed while another handler gives it up. -/
def Event.uncontested (e : Event) : Prop :=
  ∀ n a t id, e.input = .resume n a → e.pre.tasks[n]? = some t → t.completing = some id →
    Pending e.pre.shared.db id → ∀ t' ∈ e.pre.tasks, ¬ t'.givesUp id

/-- The clock is past the cut-off of every sweep that is under way. -/
def Event.timely (e : Event) : Prop :=
  ∀ n now a cutoff live, e.input = .resume n (now, a) →
    Task.sweeping cutoff live ∈ e.pre.tasks → cutoff < now

/-- A turn takes away data of an item. -/
def Event.deletes (e : Event) (id : String) : Prop :=
  ∃ x, e.post.shared.log = x :: e.pre.shared.log ∧ x.key = id ∧ x.effect.removes = true

/-- No item, and nothing stored. -/
structure Fresh (p : Pool Shared Task) : Prop where
  tasks : p.tasks = []
  items : p.shared.db.items = []
  log : p.shared.log = []
  locked : p.shared.locked = []

theorem Fresh.inv {p : Pool Shared Task} (h : Fresh p) : Inv p.shared p.tasks := by
  refine ⟨?_, ?_, ?_, ?_, ?_, ?_, ?_, ?_⟩
  · simp [h.items]
  · simp [h.log]
  · simp [h.tasks, h.locked]
  · simp [h.tasks]
  · simp [h.tasks]
  · simp [h.items]
  · rintro id upload ⟨i, hi, -⟩
    rw [h.items] at hi
    cases hi
  · rw [h.tasks]
    exact List.forall_mem_nil _

section

variable {P : Platform} {cfg : Config} {p₀ p : Pool Shared Task} {h : List Event}

/-- The order of the waiting tasks does not matter. -/
theorem Inv.perm {sh : Shared} {ts ts' : List Task} (hperm : ts.Perm ts') (hi : Inv sh ts) :
    Inv sh ts' := by
  have hlive : ∀ id, Live sh.db ts' id → Live sh.db ts id := fun id => live_mono fun t ht hg =>
    ⟨t, hperm.mem_iff.1 ht, hg⟩
  refine ⟨hi.ids, hi.entries, (hperm.symm.filterMap _).trans hi.locks,
    (hperm.filterMap _).nodup_iff.1 hi.exclusive, (hperm.filterMap _).nodup_iff.1 hi.single,
    hi.rows, fun id upload hl => hi.traced id upload (hlive id hl), fun t ht => ?_⟩
  exact (hi.tasks t (hperm.mem_iff.2 ht)).grows hi rfl .same fun id hl => .inl (hlive id hl)

/-- One turn of the pool. -/
theorem Inv.step (hi : Inv p.shared p.tasks) (m : Move Start (Int × Answer))
    (hok : Event.uncontested (History.fire (step P cfg) p m))
    (htime : Event.timely (History.fire (step P cfg) p m)) :
    Inv (step P cfg p m).1.shared (step P cfg p m).1.tasks := by
  refine @Interleaving.Pool.invariant _ _ _ _ _ (Uploads.start P cfg)
    Uploads.resume Inv (fun sh ts t a => (∀ id, t.completing = some id → Pending sh.db id →
      ∀ t' ∈ ts, ¬ t'.givesUp id) ∧ ∀ cutoff live, Task.sweeping cutoff live ∈ ts → cutoff < a.1)
    (fun _ _ => True) p m (fun _ _ _ hperm => Inv.perm hperm) ?_ ?_ ?_ hi (fun _ _ => trivial) ?_
  · rintro sh ts ts' t a hperm ⟨hnobody, hpast⟩
    exact ⟨fun id hc hp t' ht' => hnobody id hc hp t' (hperm.mem_iff.2 ht'),
      fun cutoff live hmem => hpast cutoff live (hperm.mem_iff.2 hmem)⟩
  · exact fun i _ hi _ => hi.start i
  · rintro n a t rest - hi ⟨hnobody, hpast⟩
    exact hi.resume a (fun id hc hp t' ht' => hnobody id hc hp t' (List.mem_cons_of_mem _ ht')) hpast
  · rintro n a t rfl ht
    exact ⟨fun id hc hp => hok n a t id rfl ht hc hp,
      fun cutoff live hmem => htime n a.1 a.2 cutoff live rfl hmem⟩

/-- In every run. -/
theorem inv_of_run (h0 : Fresh p₀) (hr : History.Run (step P cfg) (fun _ _ _ => True) p₀ h p)
    (hok : ∀ e ∈ h, e.uncontested ∧ e.timely) : Inv p.shared p.tasks := by
  induction hr with
  | start => exact h0.inv
  | step m hr _ ih =>
      obtain ⟨hcontest, htime⟩ := hok _ (List.mem_cons_self ..)
      exact (ih fun e he => hok e (List.mem_cons_of_mem _ he)).step m hcontest htime

/-! ## What takes data away -/

theorem start_log {sh : Shared} (i : Start) : (start P cfg sh i).shared.log = sh.log := by
  cases i with
  | direct req s caseId name declared =>
      rw [start, startDirect]
      split
      · rfl
      simp only []
      split
      · rfl
      split <;> rfl
  | post req s upload =>
      simp only [start, startPost]
      split <;> rfl
  | patch req s id =>
      rw [start, startTus]
      split <;> rfl
  | terminate req s id =>
      rw [start, startTus]
      split <;> rfl
  | deleteItem req s id =>
      simp only [start, startDelete]
      split
      · rfl
      split
      · rfl
      split <;> split <;> rfl
  | cleanup now opts =>
      rw [start, startCleanup, nextStale_shared]
  | createNote now id input =>
      rw [start]
      split <;> rfl
  | elsewhere now d => rfl

/-- A turn that does something to the storage does one thing, and leaves the tables alone. -/
theorem resume_log {sh : Shared} (t : Task) (a : Int × Answer) :
    (resume sh t a).shared.log = sh.log ∨
      (resume sh t a).shared.db = sh.db ∧ ∃ x, (resume sh t a).shared.log = x :: sh.log := by
  unfold resume
  split
  · exact .inr ⟨rfl, _, rfl⟩
  · exact .inr ⟨rfl, _, rfl⟩
  · left
    unfold endDirect
    split <;> rfl
  · unfold remove
    split
    · exact .inr ⟨rfl, _, rfl⟩
    · left
      split <;> rfl
    · exact .inl rfl
  · rename_i next _ _
    left
    cases next with
    | expired item rest opts =>
        simp only [Next.resume]
        rw [nextStale_shared]
    | _ => rfl
  · exact .inr ⟨rfl, _, rfl⟩
  · exact .inl rfl
  · left
    split
    · rfl
    · split <;> rfl
  · unfold write
    split
    · split
      · exact .inr ⟨rfl, _, rfl⟩
      · exact .inl rfl
    · left
      simp only []
      split <;> rfl
    · exact .inl rfl
    · exact .inl rfl
  · exact .inl rfl
  · split
    · exact .inl rfl
    · split
      · exact .inl rfl
      · split
        · exact .inl rfl
        · exact .inr ⟨rfl, _, rfl⟩
  · exact .inl rfl
  · left
    split <;> rw [nextFile_shared]
  · split
    · exact .inr ⟨rfl, _, rfl⟩
    · exact .inl rfl
  · exact .inl rfl
  · exact .inl rfl

theorem step_log (p : Pool Shared Task) (m : Move Start (Int × Answer)) :
    (step P cfg p m).1.shared.log = p.shared.log ∨
      (step P cfg p m).1.shared.db = p.shared.db ∧
        ∃ x, (step P cfg p m).1.shared.log = x :: p.shared.log := by
  have hturn := Interleaving.step_turn (start P cfg) resume p m
  rw [step]
  generalize Interleaving.step (start P cfg) resume p m = r at hturn ⊢
  cases hturn with
  | started i => exact .inl (start_log i)
  | @resumed n answer t rest hn hrest => exact resume_log t answer
  | nobody hn => exact .inl rfl

/-- What was done to the storage stays in the log. -/
theorem log_kept (m : Move Start (Int × Answer)) {x : Entry} (hx : x ∈ p.shared.log) :
    x ∈ (step P cfg p m).1.shared.log := by
  rcases step_log p m with hsame | ⟨-, y, hlog⟩
  · rwa [hsame]
  · rw [hlog]
    exact List.mem_cons_of_mem _ hx

/-- A turn that takes data away leaves the tables alone. -/
theorem deletes_db {e : Event} {id : String} (hfire : ∃ m, e = History.fire (step P cfg) e.pre m)
    (hd : e.deletes id) : e.post.shared.db = e.pre.shared.db := by
  obtain ⟨m, hfire⟩ := hfire
  obtain ⟨x, hlog, -⟩ := hd
  rw [hfire] at hlog ⊢
  rcases step_log (P := P) e.pre m with hsame | ⟨hdb, -⟩
  · have hlength := congrArg List.length (hlog.symm.trans hsame)
    simp at hlength
  · exact hdb

/-- Data that was taken away belongs to no row that is ready. -/
theorem Inv.not_ready {sh : Shared} {ts : List Task} (hi : Inv sh ts) {x : Entry}
    (hx : x ∈ sh.log) (hremoves : x.effect.removes = true) : ¬ Ready sh.db x.key := by
  rintro ⟨i, hmem, hid, hkind, hready⟩
  obtain ⟨size, -, hwhole, -⟩ := hi.rows i hmem hkind hready
  have hno := hwhole.kept x.effect (mem_effectsOn.2 ⟨x, hx, hid.symm, rfl⟩)
  rw [hremoves] at hno
  cases hno

end

/-- In every interleaving in which no upload is completed while another handler gives it up, every
file that is ready has its whole object, and nothing takes away the data of an item that is ready
or becomes it. -/
theorem ready_has_object {p₀ p : Pool Shared Task} {h : List Event} (h0 : Fresh p₀)
    (hr : History.Run (step P cfg) (fun _ _ _ => True) p₀ h p)
    (hok : ∀ e ∈ h, e.uncontested ∧ e.timely) :
    (∀ i ∈ p.shared.db.items, i.kind = .file → i.status = .ready →
      ∃ size, i.size = some size ∧ objectSize (effectsOn i.id p.shared.log) = some size) ∧
    ∀ e ∈ h, ∀ id, e.deletes id → ¬ Ready e.pre.shared.db id ∧ ¬ Ready p.shared.db id := by
  have hi := inv_of_run h0 hr hok
  refine ⟨fun i hmem hkind hready => ?_, fun e he id hd => ?_⟩
  · obtain ⟨size, hsize, hwhole, -⟩ := hi.rows i hmem hkind hready
    exact ⟨size, hsize, hwhole.size⟩
  · obtain ⟨later, earlier, rfl⟩ := List.append_of_mem he
    obtain ⟨m, hbefore, -, hfire⟩ := hr.split
    have hdb := deletes_db ⟨m, hfire⟩ hd
    obtain ⟨x, hlog, rfl, hremoves⟩ := hd
    have hx : x ∈ e.post.shared.log := by
      rw [hlog]
      exact List.mem_cons_self ..
    constructor
    · have hbeforeOk : ∀ e' ∈ earlier, e'.uncontested ∧ e'.timely := fun e' he' =>
        hok e' (List.mem_append_right _ (List.mem_cons_of_mem _ he'))
      obtain ⟨hcontest, htime⟩ := hok e he
      rw [hfire] at hcontest htime hx
      rw [← hdb, hfire]
      exact ((inv_of_run h0 hbefore hbeforeOk).step m hcontest htime).not_ready hx hremoves
    · have hstays : x ∈ p.shared.log :=
        History.Run.keeps (Q := fun q => x ∈ q.shared.log) (q := fun _ => True)
            (fun _ m hx _ => log_kept m hx) hr hx fun _ _ => trivial
      exact hi.not_ready hstays hremoves

/-! ## An upload that is completed while it is given up -/

/-- Where an upload is completed although its data is still to be removed, the next turn of the
handler that gives it up leaves a ready file without an object. -/
theorem contested_loses {p : Pool Shared Task} {n : Nat} {a : Int × Answer} {t : Task}
    {id : String} {todo : List Removal} {next : Next} {i : ItemRow} (ht : p.tasks[n]? = some t)
    (hc : t.completing = some id) (hi : i ∈ p.shared.db.items) (hid : i.id = id)
    (hkind : i.kind = .file) (hstatus : i.status = .uploading)
    (hgives : Task.removing id (.data :: todo) next ∈ p.tasks) (now : Int) :
    ∃ k q, q = (step P cfg (step P cfg p (.resume n a)).1 (.resume k (now, .ok))).1 ∧
      Ready q.shared.db id ∧ objectSize (effectsOn id q.shared.log) = none := by
  have hturn := Interleaving.step_turn (start P cfg) resume p (.resume n a)
  have hstep : ∀ p m, step P cfg p m = Interleaving.step (start P cfg) resume p m := fun _ _ => rfl
  rw [hstep p]
  generalize Interleaving.step (start P cfg) resume p (.resume n a) = r at hturn ⊢
  cases hturn with
  | nobody hn =>
      rw [hn] at ht
      cases ht
  | @resumed _ _ t' rest hn hrest =>
      cases Option.some.inj (hn.symm.trans ht)
      obtain ⟨size, sha256, hdb, -⟩ := resume_completing p.shared hc a.1 a.2
      have hready : Ready (resume p.shared t a).shared.db id := by
        rw [show (resume p.shared t a).shared.db = _ from hdb]
        refine ⟨_, Table.mem_update.2 ⟨i, hi, rfl⟩, ?_⟩
        rw [if_pos (by simp [hid, hstatus])]
        exact ⟨hid, hkind, rfl⟩
      have hwaits : Task.removing id (.data :: todo) next ∈ rest := by
        rcases List.mem_cons.1 (hrest.mem_iff.1 hgives) with heq | hmem
        · rw [← heq] at hc
          cases hc
        · exact hmem
      obtain ⟨k, hk⟩ := List.mem_iff_getElem?.1
        (List.mem_append_right (resume p.shared t a).tasks hwaits)
      refine ⟨k, _, rfl, ?_⟩
      rw [hstep]
      simp only [Interleaving.step, hk]
      refine ⟨hready, ?_⟩
      show objectSize (effectsOn id (Shared.record _ now id .dataDeleted).log) = none
      rw [effectsOn_record_same]
      rfl

/-- The file is stored while the delete route waits for the removal of its data. -/
def contested : List (Move Start (Int × Answer)) :=
  [sampleDirect 1, .resume 0 (2, .opened), .resume 0 (3, .put (.stored 3 none)), sampleDelete 4,
    .resume 1 (5, .ok), .resume 0 (6, .ok)]

/-- When the data has been removed. -/
def contestedEnd : List Event × Pool Shared Task :=
  History.replay (step .sample defaultConfig) [] samplePool contested

theorem fresh_samplePool : Fresh samplePool := ⟨rfl, rfl, rfl, rfl⟩

/-- The item is ready, and its object is gone. -/
theorem ready_without_object :
    ¬ ∀ (p₀ p : Pool Shared Task) (h : List Event), Fresh p₀ →
      History.Run (step .sample defaultConfig) (fun _ _ _ => True) p₀ h p →
      ∀ i ∈ p.shared.db.items, i.kind = .file → i.status = .ready →
        ∃ size, i.size = some size ∧ objectSize (effectsOn i.id p.shared.log) = some size := by
  intro hall
  have hlost : (contestedEnd.2.shared.db.items.any fun i => i.kind == .file && i.status == .ready &&
      (objectSize (effectsOn i.id contestedEnd.2.shared.log)).isNone) = true := by decide +kernel
  obtain ⟨i, hi, hmatch⟩ := List.any_eq_true.1 hlost
  rw [Bool.and_eq_true, Bool.and_eq_true, beq_iff_eq, beq_iff_eq] at hmatch
  obtain ⟨⟨hkind, hready⟩, hnone⟩ := hmatch
  have hrun : History.Run (step .sample defaultConfig) (fun _ _ _ => True) samplePool
      contestedEnd.1 contestedEnd.2 :=
    History.run_replay .start (History.admits_of_forall (fun _ _ _ => trivial) _ _ _)
  obtain ⟨size, -, hsome⟩ := hall _ _ _ fresh_samplePool hrun i hi hkind hready
  rw [hsome] at hnone
  cases hnone

/-- A task that neither gives up nor sweeps. -/
def Task.calm : Task → Bool
  | .removing _ _ _ | .sweeping _ _ => false
  | _ => true

/-- Where nobody gives up or sweeps, nothing goes wrong. -/
theorem ok_of_calm {e : Event} (h : e.pre.tasks.all Task.calm = true) :
    e.uncontested ∧ e.timely := by
  rw [List.all_eq_true] at h
  constructor
  · intro _ _ _ id _ _ _ _ t ht hg
    have hcalm := h t ht
    cases t with
    | removing key todo next => cases hcalm
    | _ => exact hg
  · intro _ _ _ cutoff live _ ht
    cases h _ ht

/-- The same upload, undisturbed. -/
def undisputed : List Event × Pool Shared Task :=
  History.replay (step .sample defaultConfig) [] samplePool
    [sampleDirect 1, .resume 0 (2, .opened), .resume 0 (3, .put (.stored 3 none)),
      .resume 0 (4, .ok)]

theorem undisputed_has_object :
    (undisputed.2.shared.db.items.any fun i => i.kind == .file && i.status == .ready) = true ∧
    ∀ i ∈ undisputed.2.shared.db.items, i.kind = .file → i.status = .ready →
      ∃ size, i.size = some size ∧
        objectSize (effectsOn i.id undisputed.2.shared.log) = some size := by
  refine ⟨by decide +kernel, (ready_has_object (p := undisputed.2) (h := undisputed.1) .sample
      defaultConfig fresh_samplePool ?_ ?_).1⟩
  · exact History.run_replay .start (History.admits_of_forall (fun _ _ _ => trivial) _ _ _)
  · have hcalm : undisputed.1.all (fun e => e.pre.tasks.all Task.calm) = true := by decide +kernel
    exact fun e he => ok_of_calm (List.all_eq_true.1 hcalm e he)

end Uploads

end Outletbox
