import Outletbox.Http.Work
import Outletbox.Uploads

/-!
# What uploaders are told

A turn reports an upload as ready when it answers a direct upload with 201 and
the entry of the audit log, or the last request of the upload protocol with the
204 of `onUploadFinish`.  A turn completes an upload when its row goes from
'uploading' to 'ready'.  `Reports` and `Completes` are compared for every turn of
every run: nothing completes unreported, and what is reported was completed by the
same turn exactly when the row still was 'uploading'.
-/

namespace Outletbox

namespace Uploads

open Interleaving (Move Pool Slice Turn)

variable (P : Platform) (cfg : Config)

/-- One turn as it was taken. -/
abbrev Event := History.Event (Pool Shared Task) (Move Start (Int × Answer)) (Option Out)

/-- A task tells its uploader that an item is ready, with a size. -/
def Reports (t : Task) (o : Out) (id : String) (size : Nat) : Prop :=
  match t with
  | .stored u _ =>
      u.itemId = id ∧ (∃ sha256, o.answer = some
        { status := 201, page := .json (.uploaded id u.originalName size sha256) }) ∧
        ∃ a ∈ o.audit, a.action = "upload.complete" ∧ a.itemId = some id ∧
          ("size", AuditValue.number size) ∈ a.details
  | .finishing _ _ item upload => item = id ∧ upload.size = some size ∧ o.answer = some tusAnswer
  | _ => False

/-- A turn resumes a task that reports an item as ready. -/
def Event.reports (e : Event) (id : String) (size : Nat) : Prop :=
  ∃ n a t o, e.input = .resume n a ∧ e.pre.tasks[n]? = some t ∧ e.output = some o ∧
    Reports t o id size

/-- The row of an item is 'uploading'. -/
def Pending (d : DeliveryDb) (id : String) : Prop :=
  ∃ i ∈ d.items, i.id = id ∧ i.status = .uploading

/-- A turn moves an item from 'uploading' to 'ready', with a size. -/
def Event.completes (e : Event) (id : String) (size : Nat) : Prop :=
  Pending e.pre.shared.db id ∧
    ∃ i ∈ e.post.shared.db.items, i.id = id ∧ i.status = .ready ∧ i.size = some size

/-- A turn reports what it completes, and nothing else. -/
def Event.truthful (e : Event) : Prop :=
  ∀ id size, e.reports id size ↔ e.completes id size

/-- The item a task is about to complete. -/
def Task.completing : Task → Option String
  | .stored u a =>
      match a.checked u.declared with
      | .stored _ _ => some u.itemId
      | _ => none
  | .finishing _ _ id upload => if upload.size = some upload.offset then some id else none
  | _ => none

/-- The item of an upload that is about to be completed is still 'uploading'. -/
def Event.undisturbed (e : Event) : Prop :=
  ∀ n a t id, e.input = .resume n a → e.pre.tasks[n]? = some t → t.completing = some id →
    Pending e.pre.shared.db id

/-- Before the first request. -/
structure Begin (p : Pool Shared Task) : Prop where
  tasks : p.tasks = []
  ids : (p.shared.db.items.map (·.id)).Nodup

/-! ## What a turn does to the items -/

/-- The items change without becoming 'ready'. -/
inductive Quiet (items : List ItemRow) : List ItemRow → Prop
  | same : Quiet items items
  | insert {r : ItemRow} : (∀ x ∈ items, x.id ≠ r.id) → Quiet items (items ++ [r])
  | set (id : String) (p : ItemRow → Bool) {f : ItemRow → ItemRow} :
      (∀ i, (f i).id = i.id ∧ (f i).status ≠ .ready) →
      Quiet items (Table.update (fun i => i.id == id && p i) f items)

section

variable {P : Platform} {cfg : Config} {sh : Shared} {items items' : List ItemRow}

theorem Quiet.nodup (h : Quiet items items') (hids : (items.map (·.id)).Nodup) :
    (items'.map (·.id)).Nodup := by
  cases h with
  | same => exact hids
  | insert hfresh => exact Table.nodup_append_row hids hfresh
  | set id p hf => exact Table.nodup_update (fun i => (hf i).1) hids

/-- A row that is 'ready' was there, or is new. -/
theorem Quiet.ready (h : Quiet items items') {j : ItemRow} (hj : j ∈ items')
    (hready : j.status = .ready) : j ∈ items ∨ ∀ i ∈ items, i.id ≠ j.id := by
  cases h with
  | same => exact .inl hj
  | insert hfresh =>
      rcases List.mem_append.1 hj with hj | hj
      · exact .inl hj
      · rw [List.mem_singleton] at hj
        subst hj
        exact .inr hfresh
  | set id p hf =>
      obtain ⟨i, hi, rfl⟩ := Table.mem_update.1 hj
      split at hready
      · exact absurd hready (hf i).2
      · rename_i hno
        rw [if_neg hno]
        exact .inl hi

theorem failUpload_quiet (id : String) (status : ItemStatus) (h : status ≠ .ready)
    (d : DeliveryDb) : Quiet d.items (failUpload id status d).2.items :=
  .set id _ fun _ => ⟨rfl, h⟩

theorem markMissing_quiet (id : String) (d : DeliveryDb) :
    Quiet d.items (markMissing id d).items :=
  .set id _ fun _ => ⟨rfl, nofun⟩

theorem markDeleted_quiet (now : Int) (id : String) (d : DeliveryDb) :
    Quiet d.items (markDeleted now id d).2.items :=
  .set id _ fun _ => ⟨rfl, nofun⟩

theorem startUpload_quiet {now : Int} {input : StartUploadInput} {r : ItemRow × Nat}
    {d d' : DeliveryDb} (h : startUpload P cfg now input d = .ok (r, d')) :
    Quiet d.items d'.items := by
  rw [(startUpload_ok h).2.2.2]
  exact .insert (startUpload_row h).1

theorem onUploadCreate_quiet (upload : TusUpload) (req : Request) (s : Signed) (d : DeliveryDb) :
    Quiet d.items (onUploadCreate P cfg upload false req s d).state.items := by
  unfold onUploadCreate
  simp only []
  split
  · exact .same
  split
  · exact .same
  split
  · exact .same
  split
  · exact .same
  split
  · exact .same
  · exact .same
  · rename_i hs
    exact startUpload_quiet hs

theorem nextFile_shared (now : Int) (opts : CleanupOptions) (audit : List AuditEvent)
    (files : List ItemRow) : (nextFile now opts audit files sh).shared = sh := by
  cases files <;> rfl

theorem nextStale_shared (now : Int) (opts : CleanupOptions) (audit : List AuditEvent)
    (stale : List ItemRow) : (nextStale now opts audit stale sh).shared = sh := by
  cases stale with
  | cons item rest => rfl
  | nil => exact nextFile_shared now opts audit _

theorem startDirect_quiet (req : Request) (s : Signed) (caseId name : String)
    (declared : Option Nat) :
    Quiet sh.db.items (startDirect P cfg req s caseId name declared sh).shared.db.items := by
  unfold startDirect
  split
  · exact .same
  simp only []
  split
  · exact .same
  split
  · exact .same
  · exact .same
  · rename_i hs
    exact startUpload_quiet hs

theorem startPost_quiet (req : Request) (s : Signed) (upload : TusUpload) :
    Quiet sh.db.items (startPost P cfg req s upload sh).shared.db.items := by
  unfold startPost
  simp only []
  split
  · exact onUploadCreate_quiet upload req s sh.db
  · exact onUploadCreate_quiet upload req s sh.db

theorem startTus_db (id : String) (s : Signed) (task : Task) :
    (startTus id s task sh).shared.db = sh.db := by
  unfold startTus
  split <;> rfl

theorem startDelete_quiet (id : String) (req : Request) (s : Signed) :
    Quiet sh.db.items (startDelete P id req s sh).shared.db.items := by
  unfold startDelete
  simp only []
  split
  · exact .same
  rename_i item _
  have hdeleted := markDeleted_quiet req.now item.id sh.db
  split
  · exact .same
  split
  · rename_i d hm
    rw [hm] at hdeleted
    split <;> exact hdeleted
  · split <;> exact .same

theorem createNote_quiet {now : Int} {id : String} {input : NoteInput} {r : ItemRow}
    {d d' : DeliveryDb} (h : createNote now id input d = .ok (r, d')) :
    Quiet d.items d'.items := by
  have hfresh := createNote_fresh h
  rw [(createNote_ok h).2.2]
  exact .insert hfresh

/-- What starts makes nothing 'ready' that was there. -/
theorem start_quiet (i : Start) : Quiet sh.db.items (start P cfg sh i).shared.db.items := by
  cases i with
  | direct req s caseId name declared => exact startDirect_quiet req s caseId name declared
  | post req s upload => exact startPost_quiet req s upload
  | patch req s id =>
      rw [start, startTus_db]
      exact .same
  | terminate req s id =>
      rw [start, startTus_db]
      exact .same
  | deleteItem req s id => exact startDelete_quiet id req s
  | cleanup now opts =>
      rw [start, startCleanup, nextStale_shared]
      exact .same
  | createNote now id input =>
      rw [start]
      split
      · rename_i hn
        exact createNote_quiet hn
      · exact .same
  | elsewhere now d => exact .same

/-! ## The turns of waiting handlers -/

theorem remove_db (now : Int) (key : String) (r : Removal) (todo : List Removal) (next : Next)
    (a : Answer) : (remove now key r todo next sh a).shared.db = sh.db := by
  unfold remove
  split
  · rfl
  · split <;> rfl
  · rfl

theorem next_quiet (now : Int) (next : Next) :
    Quiet sh.db.items (next.resume now sh).shared.db.items := by
  cases next with
  | refused out => exact .same
  | itemDeleted item req s => exact .same
  | discarded item => exact failUpload_quiet item.id .aborted nofun sh.db
  | expired item rest opts =>
      simp only [Next.resume, nextStale_shared]
      exact failUpload_quiet item.id .expired nofun sh.db
  | nothing => exact .same

theorem write_db (now : Int) (req : Request) (s : Signed) (id : String) (upload : TusUpload)
    (a : Answer) : (write now req s id upload sh a).shared.db = sh.db := by
  unfold write
  split
  · split <;> rfl
  · simp only []
    split <;> rfl
  · rfl
  · rfl

/-- The end of a direct upload completes it, or gives it up. -/
theorem endDirect_cases (now : Int) (u : Direct) (a : PutAnswer) :
    (∃ size sha256, a.checked u.declared = .stored size sha256 ∧
      (endDirect now u a sh).shared.db = (completeUpload now u.itemId size sha256 sh.db).2 ∧
      (endDirect now u a sh).output =
        ⟨some { status := 201, page := .json (.uploaded u.itemId u.originalName size sha256) },
          [u.event "upload.complete" [("kind", .text "direct"), ("size", .number size),
            ("name", .text u.originalName)]]⟩) ∨
      ((∀ size sha256, a.checked u.declared ≠ .stored size sha256) ∧
        (endDirect now u a sh).shared.db = (failUpload u.itemId .aborted sh.db).2 ∧
        (endDirect now u a sh).output = {}) := by
  unfold endDirect
  split
  · rename_i size sha256 hstored
    exact .inl ⟨size, sha256, hstored, rfl, rfl⟩
  · rename_i hfailed
    exact .inr ⟨fun size sha256 h => hfailed size sha256 h, rfl, rfl⟩

/-- `onUploadFinish` completes the upload when all of its bytes have arrived. -/
theorem finish_complete (now : Int) (req : Request) (s : Signed) (id : String)
    {upload : TusUpload} (h : upload.size = some upload.offset) :
    (finish now req s id upload sh).shared.db =
        (completeUpload now id upload.offset none sh.db).2 ∧
      (finish now req s id upload sh).output.answer = some tusAnswer := by
  have ho : (onUploadFinish id upload { req with now } s sh.db).state =
        (completeUpload now id upload.offset none sh.db).2 ∧
      (onUploadFinish id upload { req with now } s sh.db).response = tusAnswer := by
    unfold onUploadFinish
    rw [h]
    simp only []
    rw [if_neg (not_not.2 rfl)]
    exact ⟨rfl, rfl⟩
  exact ⟨ho.1, congrArg some ho.2⟩

theorem finish_incomplete (now : Int) (req : Request) (s : Signed) (id : String)
    {upload : TusUpload} (h : upload.size ≠ some upload.offset) :
    (finish now req s id upload sh).shared.db = sh.db ∧
      (finish now req s id upload sh).output.answer ≠ some tusAnswer := by
  have ho : (onUploadFinish id upload { req with now } s sh.db).state = sh.db ∧
      (onUploadFinish id upload { req with now } s sh.db).response =
        uploadRefused 500 "incomplete" none := by
    unfold onUploadFinish
    split
    · exact ⟨rfl, rfl⟩
    · rename_i size hsize
      rw [if_pos fun hoffset => h (by rw [hsize, hoffset])]
      exact ⟨rfl, rfl⟩
  refine ⟨ho.1, fun hanswer => ?_⟩
  have hresponse := (Option.some.inj hanswer).symm.trans ho.2
  cases congrArg Response.status hresponse

/-- A turn that is about to complete nothing makes nothing 'ready' that was there. -/
theorem resume_quiet (t : Task) (now : Int) (a : Answer) (h : t.completing = none) :
    Quiet sh.db.items (resume sh t (now, a)).shared.db.items := by
  unfold resume
  split
  · exact .same
  · exact .same
  · rename_i u put _ _ heq
    cases heq
    rcases endDirect_cases now u put with ⟨size, sha256, hstored, -⟩ | ⟨-, hdb, -⟩
    · simp only [Task.completing, hstored] at h
      cases h
    · rw [hdb]
      exact failUpload_quiet u.itemId .aborted nofun sh.db
  · rw [remove_db]
    exact .same
  · exact next_quiet _ _
  · exact .same
  · exact .same
  · split
    · exact .same
    · split <;> exact .same
  · rw [write_db]
    exact .same
  · rename_i req s id upload _ _ heq
    cases heq
    rw [(finish_incomplete now req s id _).1]
    · exact .same
    · intro hfull
      simp only [Task.completing, hfull, if_true] at h
      cases h
  · split
    · exact .same
    · split
      · exact .same
      · split <;> exact .same
  · show Quiet _ (postTerminate _ sh.db).state.items
    unfold postTerminate
    split
    · exact .same
    · exact failUpload_quiet _ .aborted nofun sh.db
  · split
    · rw [nextFile_shared]
      exact markMissing_quiet _ _
    · rw [nextFile_shared]
      exact .same
  · split <;> exact .same
  · exact .same
  · exact .same

/-! ## Reports and completions -/

theorem completeUpload_ready {now : Int} {id : String} {size : Nat} {sha256 : Option String}
    {d : DeliveryDb} {j : ItemRow} (hj : j ∈ (completeUpload now id size sha256 d).2.items)
    (hready : j.status = .ready) : j ∈ d.items ∨ j.id = id ∧ j.size = some size := by
  obtain ⟨i, hi, rfl⟩ := Table.mem_update.1 hj
  split
  · rename_i hmatch
    rw [Bool.and_eq_true, beq_iff_eq] at hmatch
    exact .inr ⟨hmatch.1, rfl⟩
  · exact .inl hi

/-- A pending upload is completed. -/
theorem completeUpload_pending (now : Int) {id : String} (size : Nat) (sha256 : Option String)
    {d : DeliveryDb} (h : Pending d id) :
    ∃ j ∈ (completeUpload now id size sha256 d).2.items,
      j.id = id ∧ j.status = .ready ∧ j.size = some size := by
  obtain ⟨i, hi, rfl, hstatus⟩ := h
  refine ⟨_, Table.mem_update.2 ⟨i, hi, rfl⟩, ?_⟩
  rw [if_pos (by simp [hstatus])]
  exact ⟨rfl, rfl, rfl⟩

/-- Two rows of one item are one. -/
theorem not_pending_of_ready {d : DeliveryDb} (hids : (d.items.map (·.id)).Nodup) {j : ItemRow}
    (hj : j ∈ d.items) (hready : j.status = .ready) : ¬ Pending d j.id := by
  rintro ⟨i, hi, hid, hstatus⟩
  cases Table.eq_of_key hids hi hj hid
  rw [hready] at hstatus
  cases hstatus

theorem Quiet.not_completed {d d' : DeliveryDb} (h : Quiet d.items d'.items)
    (hids : (d.items.map (·.id)).Nodup) {id : String} (hp : Pending d id) {j : ItemRow}
    (hj : j ∈ d'.items) (hid : j.id = id) : j.status ≠ .ready := by
  intro hready
  subst hid
  rcases h.ready hj hready with hold | hnew
  · exact not_pending_of_ready hids hold hready hp
  · obtain ⟨i, hi, hid, -⟩ := hp
    exact hnew i hi hid

/-- Only the end of an upload reports it. -/
theorem reports_completing {t : Task} {now : Int} {a : Answer} {id : String} {size : Nat}
    (h : Reports t (resume sh t (now, a)).output id size) : t.completing = some id := by
  cases t with
  | stored u put =>
      obtain ⟨rfl, ⟨sha256, hanswer⟩, -⟩ := h
      rcases endDirect_cases now u put with ⟨size, sha256, hstored, -⟩ | ⟨-, -, hout⟩
      · simp only [Task.completing, hstored]
      · have hnone : (resume sh (.stored u put) (now, a)).output.answer = none :=
          congrArg Out.answer hout
        rw [hnone] at hanswer
        cases hanswer
  | finishing req s item upload =>
      obtain ⟨rfl, -, hanswer⟩ := h
      by_cases hfull : upload.size = some upload.offset
      · simp only [Task.completing, hfull, if_true]
      · exact absurd hanswer (finish_incomplete now req s item hfull).2
  | _ => exact h.elim

/-- The end of an upload completes it and reports one size. -/
theorem resume_completing (sh : Shared) {t : Task} {id : String} (h : t.completing = some id)
    (now : Int) (a : Answer) : ∃ size sha256,
      (resume sh t (now, a)).shared.db = (completeUpload now id size sha256 sh.db).2 ∧
        ∀ id' size', Reports t (resume sh t (now, a)).output id' size' ↔
          id' = id ∧ size' = size := by
  cases t with
  | stored u put =>
      rcases endDirect_cases now u put with ⟨size, sha256, hstored, hdb, hout⟩ | ⟨hfailed, -⟩
      · simp only [Task.completing, hstored] at h
        cases h
        refine ⟨size, sha256, hdb, fun id' size' => ?_⟩
        show Reports (.stored u put) (endDirect now u put sh).output id' size' ↔ _
        rw [hout]
        constructor
        · rintro ⟨rfl, ⟨_, hanswer⟩, -⟩
          cases hanswer
          exact ⟨rfl, rfl⟩
        · rintro ⟨rfl, rfl⟩
          exact ⟨rfl, ⟨sha256, rfl⟩, _, List.mem_singleton_self _, rfl, rfl,
            List.mem_cons_of_mem _ (List.mem_cons_self ..)⟩
      · rw [Task.completing] at h
        split at h
        · rename_i hstored
          exact absurd hstored (hfailed _ _)
        · cases h
  | finishing req s item upload =>
      by_cases hfull : upload.size = some upload.offset
      · simp only [Task.completing, hfull, if_true] at h
        cases h
        obtain ⟨hdb, hanswer⟩ := finish_complete now req s id hfull
        refine ⟨upload.offset, none, hdb, fun id' size' => ?_⟩
        show id = id' ∧ upload.size = some size' ∧
          (finish now req s id upload sh).output.answer = some tusAnswer ↔ _
        rw [hfull, Option.some.injEq]
        exact ⟨fun hr => ⟨hr.1.symm, hr.2.1.symm⟩, fun hr => ⟨hr.1.symm, hr.2.symm, hanswer⟩⟩
      · simp only [Task.completing, if_neg hfull] at h
        cases h
  | _ => cases h

/-- Where nothing becomes 'ready' and nothing is reported, nobody is told anything wrong. -/
theorem truthful_of_quiet {e : Event} (hids : (e.pre.shared.db.items.map (·.id)).Nodup)
    (hno : ∀ id size, ¬ e.reports id size)
    (hq : Quiet e.pre.shared.db.items e.post.shared.db.items) : e.truthful := by
  intro id size
  refine ⟨fun h => absurd h (hno id size), ?_⟩
  rintro ⟨hp, j, hj, hid, hready, -⟩
  exact absurd hready (hq.not_completed hids hp hj hid)

/-- The end of a pending upload completes what it reports. -/
theorem truthful_of_completed {e : Event} (hids : (e.pre.shared.db.items.map (·.id)).Nodup)
    {now : Int} {id : String} {size : Nat} {sha256 : Option String}
    (hp : Pending e.pre.shared.db id)
    (hdb : e.post.shared.db = (completeUpload now id size sha256 e.pre.shared.db).2)
    (hr : ∀ id' size', e.reports id' size' ↔ id' = id ∧ size' = size) : e.truthful := by
  intro id' size'
  rw [hr]
  constructor
  · rintro ⟨rfl, rfl⟩
    have hcompleted := completeUpload_pending now size' sha256 hp
    rw [← hdb] at hcompleted
    exact ⟨hp, hcompleted⟩
  · rintro ⟨hp', j, hj, rfl, hready, hsize⟩
    rw [hdb] at hj
    rcases completeUpload_ready hj hready with hold | ⟨hid, hsize'⟩
    · exact absurd hp' (not_pending_of_ready hids hold hready)
    · rw [hsize] at hsize'
      exact ⟨hid, Option.some.inj hsize'⟩

/-- What a turn that resumes a task reports. -/
theorem reports_resume {p p' : Pool Shared Task} {n : Nat} {a : Int × Answer} {t : Task} {o : Out}
    (hn : p.tasks[n]? = some t) (id : String) (size : Nat) :
    Event.reports ⟨p, .resume n a, some o, p'⟩ id size ↔ Reports t o id size := by
  constructor
  · rintro ⟨_, _, t', o', hinput, ht', hout, hr⟩
    cases hinput
    cases Option.some.inj (hn.symm.trans ht')
    cases hout
    exact hr
  · exact fun hr => ⟨n, a, t, o, rfl, hn, rfl, hr⟩

/-- A turn tells the truth exactly when the upload it ends, if any, is still pending. -/
theorem fire_truthful_iff {p : Pool Shared Task} (hids : (p.shared.db.items.map (·.id)).Nodup)
    (m : Move Start (Int × Answer)) :
    Event.truthful (History.fire (step P cfg) p m) ↔
      Event.undisturbed (History.fire (step P cfg) p m) := by
  have hturn := Interleaving.step_turn (start P cfg) resume p m
  have hfire : History.fire (step P cfg) p m = ⟨p, m, (Interleaving.step (start P cfg) resume p m).2,
    (Interleaving.step (start P cfg) resume p m).1⟩ := rfl
  rw [hfire]
  generalize Interleaving.step (start P cfg) resume p m = r at hturn ⊢
  cases hturn with
  | started i =>
      refine iff_of_true (truthful_of_quiet hids ?_ (start_quiet i)) ?_
      · rintro id size ⟨_, _, _, _, hinput, -⟩
        cases hinput
      · intro n a t id hinput
        cases hinput
  | @resumed n answer t rest hn hrest =>
      cases hc : t.completing with
      | none =>
          refine iff_of_true (truthful_of_quiet hids ?_ (resume_quiet t _ _ hc)) ?_
          · intro id size hr
            rw [reports_resume hn] at hr
            rw [reports_completing hr] at hc
            cases hc
          · intro n' a t' id hinput ht' hc'
            cases hinput
            cases Option.some.inj (hn.symm.trans ht')
            rw [hc] at hc'
            cases hc'
      | some id =>
          obtain ⟨size, sha256, hdb, hreports⟩ :=
            resume_completing p.shared hc answer.1 answer.2
          constructor
          · -- What is reported was completed, so the row was pending.
            intro htrue n' a t' id' hinput ht' hc'
            cases hinput
            cases Option.some.inj (hn.symm.trans ht')
            cases Option.some.inj (hc.symm.trans hc')
            refine ((htrue id size).1 ?_).1
            rw [reports_resume hn]
            exact (hreports id size).2 ⟨rfl, rfl⟩
          · intro hundisturbed
            refine truthful_of_completed hids (hundisturbed n answer t id rfl hn hc) hdb ?_
            intro id' size'
            rw [reports_resume hn]
            exact hreports id' size'
  | nobody hn =>
      refine iff_of_true (truthful_of_quiet hids ?_ .same) ?_
      · rintro id size ⟨_, _, _, _, -, -, hout, -⟩
        cases hout
      · intro n' a t id hinput ht
        cases hinput
        rw [hn] at ht
        cases ht

/-- The identifiers of the items stay distinct. -/
theorem step_ids {p : Pool Shared Task} (hids : (p.shared.db.items.map (·.id)).Nodup)
    (m : Move Start (Int × Answer)) :
    ((step P cfg p m).1.shared.db.items.map (·.id)).Nodup := by
  have hturn := Interleaving.step_turn (start P cfg) resume p m
  rw [step]
  generalize Interleaving.step (start P cfg) resume p m = r at hturn ⊢
  cases hturn with
  | started i => exact (start_quiet i).nodup hids
  | @resumed n answer t rest hn hrest =>
      cases hc : t.completing with
      | none => exact (resume_quiet t answer.1 answer.2 hc).nodup hids
      | some id =>
          obtain ⟨size, sha256, hdb, -⟩ := resume_completing p.shared hc answer.1 answer.2
          show ((resume p.shared t (answer.1, answer.2)).shared.db.items.map (·.id)).Nodup
          obtain ⟨_, _, hkeeps, hrows⟩ := completeUpload_change answer.1 id size sha256 p.shared.db
          rw [hdb, hrows]
          exact Table.nodup_update (fun i => (hkeeps i).1) hids
  | nobody hn => exact hids

end

/-- In every interleaving, every uploader is told the truth exactly when every upload is still
'uploading' when it ends. -/
theorem truthful_iff {p₀ p : Pool Shared Task} {h : List Event} (h0 : Begin p₀)
    (hr : History.Run (step P cfg) (fun _ _ _ => True) p₀ h p) :
    (∀ e ∈ h, e.truthful) ↔ ∀ e ∈ h, e.undisturbed := by
  refine forall₂_congr fun e he => ?_
  obtain ⟨later, earlier, rfl⟩ := List.append_of_mem he
  obtain ⟨m, hbefore, -, hfire⟩ := hr.split
  have hids : (e.pre.shared.db.items.map (·.id)).Nodup :=
    hbefore.invariant (I := fun _ q => (q.shared.db.items.map (·.id)).Nodup) h0.ids
      fun _ _ m _ _ hids => step_ids hids m
  rw [hfire]
  exact fire_truthful_iff hids m

/-! ## An upload that is deleted while it is sent -/

/-- The file is deleted before its last bytes have arrived. -/
def deletedEarly : List (Move Start (Int × Answer)) :=
  [sampleDirect 1, .resume 0 (2, .opened), sampleDelete 3, .resume 0 (4, .ok), .resume 0 (5, .ok),
    .resume 0 (6, .ok), .resume 0 (7, .put (.stored 3 none))]

/-- When the upload has been stored. -/
def storedLate : List Event × Pool Shared Task :=
  History.replay (step .sample defaultConfig) [] samplePool deletedEarly

/-- The answer of the upload. -/
def lateAnswer : Event :=
  History.fire (step .sample defaultConfig) storedLate.2 (.resume 0 (8, .ok))

theorem run_storedLate :
    History.Run (step .sample defaultConfig) (fun _ _ _ => True) samplePool
      (lateAnswer :: storedLate.1) (step .sample defaultConfig storedLate.2 (.resume 0 (8, .ok))).1 :=
  .step _ (History.run_replay .start (History.admits_of_forall (fun _ _ _ => trivial) _ _ _)) trivial

theorem begin_samplePool : Begin samplePool := ⟨rfl, by decide⟩

theorem lateAnswer_disturbed : ¬ lateAnswer.undisturbed := by
  have hcompleting : (storedLate.2.tasks[0]?.bind Task.completing) = some (newId "f" sampleId) := by
    decide +kernel
  have haborted : (storedLate.2.shared.db.items.all fun i => i.status == .aborted) = true := by
    decide +kernel
  intro h
  obtain ⟨t, ht, hc⟩ := Option.bind_eq_some_iff.1 hcompleting
  obtain ⟨i, hi, -, hstatus⟩ := h 0 _ t _ rfl ht hc
  have hno := List.all_eq_true.1 haborted i hi
  rw [hstatus] at hno
  cases hno

/-- The uploader is told that the file is ready, while its item was aborted. -/
theorem ready_reported_after_abort :
    ¬ ∀ (p₀ p : Pool Shared Task) (h : List Event), Begin p₀ →
      History.Run (step .sample defaultConfig) (fun _ _ _ => True) p₀ h p →
      ∀ e ∈ h, e.truthful := by
  intro hall
  have htrue := hall _ _ _ begin_samplePool run_storedLate _ (List.mem_cons_self ..)
  have hids : (storedLate.2.shared.db.items.map (·.id)).Nodup := by decide +kernel
  exact lateAnswer_disturbed ((fire_truthful_iff hids _).1 htrue)

theorem truthful_iff_sample :
    Begin samplePool ∧ (∃ p, History.Run (step .sample defaultConfig) (fun _ _ _ => True) samplePool
        (lateAnswer :: storedLate.1) p) ∧
      ((∀ e ∈ lateAnswer :: storedLate.1, e.truthful) ↔
        ∀ e ∈ lateAnswer :: storedLate.1, e.undisturbed) :=
  ⟨begin_samplePool, ⟨_, run_storedLate⟩, truthful_iff _ _ begin_samplePool run_storedLate⟩

end Uploads

end Outletbox
