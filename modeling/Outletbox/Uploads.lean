import Outletbox.Http.App
import Outletbox.Library.History
import Outletbox.Library.Interleaving

/-!
# Uploads between their awaits

The handlers that change items wait for the storage while they run: a direct
upload, the requests of the upload protocol, the delete route and the cleanup
job.  Each is cut into slices at its awaits, and the slices of different
handlers come in any order.  What a storage call does to the data under a key
is a step of its own, so it may fall anywhere between the slices.

The calls of the upload protocol on one upload exclude each other by the lock of
the library.  Nothing locks out the delete route and the cleanup job.
-/

namespace Outletbox

namespace Uploads

open Interleaving (Move Pool Slice)

variable (P : Platform) (cfg : Config)

/-! ## The storage -/

/-- What is done to the data under a key. -/
inductive Effect
  /-- `put` has opened its target. -/
  | opened
  /-- `put` has written the whole body. -/
  | finished (size : Nat)
  /-- `put` removes what a failed body left. -/
  | aborted
  /-- `create` of the upload store. -/
  | created (upload : TusUpload)
  /-- `write` of the upload store took bytes. -/
  | wrote (bytes : Nat)
  /-- `remove` of the upload store. -/
  | tusRemoved
  /-- The first half of `delete`. -/
  | dataDeleted
  /-- The second half of `delete`, and `removeTusSidecar`. -/
  | sidecarDeleted
  /-- The sweep removed an artefact. -/
  | swept
  deriving DecidableEq

/-- Data is taken away. -/
def Effect.removes : Effect → Bool
  | .aborted | .tusRemoved | .dataDeleted | .swept => true
  | _ => false

/-- What was done to the storage, and when. -/
structure Entry where
  key : String
  effect : Effect
  at_ : Int

/-- What was done under a key, the last first. -/
def effectsOn (key : String) (log : List Entry) : List Effect :=
  (log.filter fun e => e.key == key).map (·.effect)

/-- `getUpload` of the upload store: the sidecar, and how many bytes have arrived. -/
def getUpload : List Effect → Option TusUpload
  | [] => none
  | .created upload :: _ => some { upload with offset := 0 }
  | .wrote bytes :: log => (getUpload log).map fun u => { u with offset := u.offset + bytes }
  | .sidecarDeleted :: _ => none
  | e :: log => if e.removes then none else getUpload log

/-! ## Tasks -/

/-- A call that takes something from the storage. -/
inductive Removal
  | tusRemove | data | sidecar
  deriving DecidableEq

def Removal.effect : Removal → Effect
  | .tusRemove => .tusRemoved
  | .data => .dataDeleted
  | .sidecar => .sidecarDeleted

/-- What a slice puts out. -/
structure Out where
  answer : Option (Response PanelPage) := none
  audit : List AuditEvent := []

/-- A direct upload that has started. -/
structure Direct where
  req : Request
  s : Signed
  caseId : String
  itemId : String
  originalName : String
  declared : Option Nat
  maxBytes : Nat

/-- The options of `runCleanup`. -/
structure CleanupOptions where
  ttlMs : Int
  verifyFiles : Bool

/-- What comes after the removals a handler waits for. -/
inductive Next
  /-- A failed direct upload answers. -/
  | refused (out : Out)
  /-- The delete route answers, after it marked the item. -/
  | itemDeleted (item : ItemRow) (req : Request) (s : Signed)
  /-- The delete route gives an unfinished upload up. -/
  | discarded (item : ItemRow)
  /-- The cleanup gives a stale upload up, and goes on with the others. -/
  | expired (item : ItemRow) (rest : List ItemRow) (opts : CleanupOptions)
  | nothing

/-- A handler that waits. -/
inductive Task
  /-- `directUpload`, while `put` reads the body. -/
  | putting (u : Direct)
  /-- `directUpload`, when `put` has returned or thrown. -/
  | stored (u : Direct) (answer : PutAnswer)
  /-- The rest of a list of removals. -/
  | removing (key : String) (todo : List Removal) (next : Next)
  /-- A new upload of the upload protocol, before `create`.  It has the lock. -/
  | creating (req : Request) (s : Signed) (id : String) (upload : TusUpload)
  /-- A `PATCH` that waits for the lock. -/
  | patching (req : Request) (s : Signed) (id : String)
  /-- The body of a request of the upload protocol is written.  It has the lock. -/
  | writing (req : Request) (s : Signed) (id : String) (upload : TusUpload)
  /-- `onUploadFinish` is next. -/
  | finishing (req : Request) (s : Signed) (id : String) (upload : TusUpload)
  /-- A termination that waits for the lock. -/
  | terminating (id : String)
  /-- `POST_TERMINATE` is next. -/
  | terminated (id : String)
  /-- The cleanup asks whether the object of an item is there. -/
  | verifying (item : ItemRow) (rest : List ItemRow) (opts : CleanupOptions)
  /-- The sweep, with the keys that are wanted. -/
  | sweeping (cutoff : Int) (live : List String)

/-- What a waiting handler gets. -/
inductive Answer
  /-- What it waited for is done. -/
  | ok
  | error
  /-- The target of a `put` is open. -/
  | opened
  /-- The `put` is over. -/
  | put (answer : PutAnswer)
  /-- Bytes have arrived. -/
  | bytes (n : Nat)
  /-- `stat` has answered, or failed. -/
  | stat (gone : Option Bool)
  /-- The sweep meets an artefact of a key. -/
  | sweep (key : String)

structure Shared where
  db : DeliveryDb
  /-- What was done to the storage, the last first. -/
  log : List Entry
  /-- The uploads whose lock is held. -/
  locked : List String

def Shared.record (sh : Shared) (now : Int) (key : String) (e : Effect) : Shared :=
  { sh with log := ⟨key, e, now⟩ :: sh.log }

/-- A slice that only answers. -/
def answer (sh : Shared) (o : Outcome DeliveryDb PanelPage) : Slice Shared Task Out :=
  ⟨{ sh with db := o.state }, [], ⟨some o.response, o.audit⟩⟩

/-- A slice that says nothing yet. -/
def wait (sh : Shared) (tasks : List Task) : Slice Shared Task Out := ⟨sh, tasks, {}⟩

/-! ## The slices of a direct upload -/

def Direct.event (u : Direct) (action : String) (details : List (String × AuditValue)) :
    AuditEvent := u.s.itemEvent u.req action u.caseId u.itemId details

/-- `directUpload`, up to the call of `put`. -/
def startDirect (req : Request) (s : Signed) (caseId name : String) (declared : Option Nat)
    (sh : Shared) : Slice Shared Task Out :=
  match (validId caseId).bind fun id => caseFor s id sh.db with
  | none => answer sh (refuse sh.db (uploadRefused 404 "case_not_found" none))
  | some c =>
      let originalName := sanitizeFilename P (safeDecode P name)
      if c.status ≠ .isOpen then answer sh (refuse sh.db (uploadRefused 403 "case_closed" none))
      else
        match startUpload P cfg req.now
            ⟨newId "f" req.random.id, c.id, originalName, .direct, declared, some s.admin.id⟩
            sh.db with
        | .error (.fileTooLarge limit) =>
            answer sh (refuse sh.db (uploadRefused 413 "file_too_large" limit))
        | .error _ => answer sh (refuse sh.db serverError)
        | .ok ((item, maxBytes), db) =>
            let u : Direct := ⟨req, s, c.id, item.id, originalName, declared, maxBytes⟩
            ⟨{ sh with db }, [.putting u],
              { audit := [u.event "upload.start"
                  [("kind", .text "direct"), ("size", numberDetail declared)]] }⟩

/-- What a failed direct upload says, once its data is gone. -/
def Direct.refusal (u : Direct) : PutAnswer → Out
  | .tooLarge =>
      ⟨some (uploadRefused 413 "file_too_large" u.maxBytes), [u.event "upload.rejected"
        [("reason", .text "limit"), ("maxBytes", .number u.maxBytes)]]⟩
  | .failed reason =>
      ⟨some (uploadRefused 400 "upload_incomplete" none),
        [u.event "upload.aborted" [("reason", .text reason)]]⟩
  | .stored _ _ => {}

/-- `directUpload`, after `put`. -/
def endDirect (now : Int) (u : Direct) (put : PutAnswer) (sh : Shared) : Slice Shared Task Out :=
  match put.checked u.declared with
  | .stored size sha256 =>
      ⟨{ sh with db := (completeUpload now u.itemId size sha256 sh.db).2 }, [],
        ⟨some { status := 201, page := .json (.uploaded u.itemId u.originalName size sha256) },
          [u.event "upload.complete" [("kind", .text "direct"), ("size", .number size),
            ("name", .text u.originalName)]]⟩⟩
  | failure =>
      wait { sh with db := (failUpload u.itemId .aborted sh.db).2 }
        [.removing u.itemId [.data, .sidecar] (.refused (u.refusal failure))]

/-- What `put` does to the storage before it returns or throws. -/
def putEffect : PutAnswer → Effect
  | .stored size _ => .finished size
  | _ => .aborted

/-! ## The slices of the upload protocol -/

/-- A request that names an upload, up to the lock. -/
def startTus (id : String) (s : Signed) (task : Task) (sh : Shared) : Slice Shared Task Out :=
  match onIncomingRequest id s sh.db with
  | some response => answer sh (refuse sh.db response)
  | none => wait sh [task]

/-- `onUploadCreate`. -/
def startPost (req : Request) (s : Signed) (upload : TusUpload) (sh : Shared) :
    Slice Shared Task Out :=
  let o := onUploadCreate P cfg upload false req s sh.db
  if o.audit.isEmpty then answer sh o
  else
    let id := newId "f" req.random.id
    ⟨{ sh with db := o.state, locked := id :: sh.locked }, [.creating req s id upload],
      { audit := o.audit }⟩

/-- The answer of a request that leaves an upload unfinished. -/
def partial_ (sh : Shared) : Slice Shared Task Out := answer sh (refuse sh.db tusAnswer)

/-- An answer the library writes itself. -/
def tusFailed (sh : Shared) : Slice Shared Task Out :=
  answer sh (refuse sh.db (uploadRefused 500 "internal" none))

/-- The body of a request is written: some bytes arrive, or it is over. -/
def write (now : Int) (req : Request) (s : Signed) (id : String) (upload : TusUpload)
    (sh : Shared) : Answer → Slice Shared Task Out
  | .bytes n =>
      if upload.size.any (upload.offset + n ≤ ·) then
        wait (sh.record now id (.wrote n))
          [.writing req s id { upload with offset := upload.offset + n }]
      else wait sh [.writing req s id upload]
  | .ok =>
      let sh := { sh with locked := sh.locked.erase id }
      if upload.size = some upload.offset then wait sh [.finishing req s id upload]
      else partial_ sh
  | .error => tusFailed { sh with locked := sh.locked.erase id }
  | _ => wait sh [.writing req s id upload]

/-- `onUploadFinish`, and the removal of the sidecar nobody waits for. -/
def finish (now : Int) (req : Request) (s : Signed) (id : String) (upload : TusUpload)
    (sh : Shared) : Slice Shared Task Out :=
  let o := onUploadFinish id upload { req with now } s sh.db
  { answer sh o with
    tasks := if o.audit.isEmpty then [] else [.removing id [.sidecar] .nothing] }

/-! ## The slices of the delete route -/

/-- What `discardUploadData` removes. -/
def discards (item : ItemRow) : List Removal :=
  if item.kind ≠ .file then []
  else (if item.uploadKind = some .tus then [.tusRemove] else []) ++ [.data, .sidecar]

/-- The answer of the delete route. -/
def backToCase (item : ItemRow) : Response PanelPage :=
  { status := 303, page := .redirect ("/admin/cases/" ++ item.caseId) }

def deletedEvent (item : ItemRow) (req : Request) (s : Signed) : AuditEvent :=
  s.itemEvent req "item.delete" item.caseId item.id
    [("title", .text item.title), ("size", numberDetail item.size)]

/-- `POST /items/:id/delete`, up to its first await. -/
def startDelete (id : String) (req : Request) (s : Signed) (sh : Shared) :
    Slice Shared Task Out :=
  let missing := answer sh
    (refuse sh.db (errorResponse P req .errorNotFoundTitle .errorItemNotExist 404))
  match (validId id).bind fun id => getItem id sh.db with
  | none => missing
  | some item =>
      if (caseFor s item.caseId sh.db).isNone then missing
      else
        match markDeleted req.now item.id sh.db with
        | (true, db) =>
            if item.kind = .file then
              wait { sh with db } [.removing item.id [.data, .sidecar] (.itemDeleted item req s)]
            else ⟨{ sh with db }, [], ⟨some (backToCase item), [deletedEvent item req s]⟩⟩
        | (false, _) =>
            if item.status = .uploading then
              wait sh [.removing item.id (discards item) (.discarded item)]
            else ⟨sh, [], ⟨some (backToCase item), []⟩⟩

/-! ## The slices of the cleanup -/

/-- The sweep begins: what is wanted is read once. -/
def startSweep (now : Int) (opts : CleanupOptions) (audit : List AuditEvent) (sh : Shared) :
    Slice Shared Task Out :=
  ⟨sh, [.sweeping (now - opts.ttlMs) (liveStorageKeys sh.db)], { audit }⟩

/-- The next ready file, or the sweep. -/
def nextFile (now : Int) (opts : CleanupOptions) (audit : List AuditEvent) :
    List ItemRow → Shared → Slice Shared Task Out
  | item :: rest, sh => ⟨sh, [.verifying item rest opts], { audit }⟩
  | [], sh => startSweep now opts audit sh

/-- The next stale upload, or the ready files. -/
def nextStale (now : Int) (opts : CleanupOptions) (audit : List AuditEvent) :
    List ItemRow → Shared → Slice Shared Task Out
  | item :: rest, sh =>
      ⟨sh, [.removing item.id (discards item) (.expired item rest opts)], { audit }⟩
  | [], sh =>
      nextFile now opts audit (if opts.verifyFiles then listReadyFiles sh.db else []) sh

/-- `runCleanup`, up to its first await. -/
def startCleanup (now : Int) (opts : CleanupOptions) (sh : Shared) : Slice Shared Task Out :=
  nextStale now opts [] (listStaleUploads now opts.ttlMs sh.db) sh

/-- An artefact of the key was there by then. -/
def Shared.hasOld (sh : Shared) (key : String) (cutoff : Int) : Bool :=
  sh.log.any fun e => e.key == key && decide (e.at_ ≤ cutoff)

/-! ## Turns -/

/-- After the removals. -/
def Next.resume (now : Int) (sh : Shared) : Next → Slice Shared Task Out
  | .refused out => ⟨sh, [], out⟩
  | .itemDeleted item req s => ⟨sh, [], ⟨some (backToCase item), [deletedEvent item req s]⟩⟩
  | .discarded item =>
      ⟨{ sh with db := (failUpload item.id .aborted sh.db).2 }, [], ⟨some (backToCase item), []⟩⟩
  | .expired item rest opts =>
      let (failed, db) := failUpload item.id .expired sh.db
      nextStale now opts (if failed then [cleanupEvent "upload.expired" item] else []) rest
        { sh with db }
  | .nothing => ⟨sh, [], {}⟩

/-- One removal.  Only the delete route lets an error of the storage through. -/
def remove (now : Int) (key : String) (r : Removal) (todo : List Removal) (next : Next)
    (sh : Shared) : Answer → Slice Shared Task Out
  | .ok => wait (sh.record now key r.effect) [.removing key todo next]
  | .error =>
      match next with
      | .itemDeleted _ _ _ => answer sh (refuse sh.db serverError)
      | _ => wait sh [.removing key todo next]
  | _ => wait sh [.removing key (r :: todo) next]

inductive Start
  | direct (req : Request) (s : Signed) (caseId name : String) (declared : Option Nat)
  /-- `POST` of the upload protocol. -/
  | post (req : Request) (s : Signed) (upload : TusUpload)
  | patch (req : Request) (s : Signed) (id : String)
  /-- `DELETE` of the upload protocol. -/
  | terminate (req : Request) (s : Signed) (id : String)
  | deleteItem (req : Request) (s : Signed) (id : String)
  | cleanup (now : Int) (opts : CleanupOptions)
  | createNote (now : Int) (id : String) (input : NoteInput)
  /-- Whatever the program does to its other tables. -/
  | elsewhere (now : Int) (d : DeliveryDb)

def start (sh : Shared) : Start → Slice Shared Task Out
  | .direct req s caseId name declared => startDirect P cfg req s caseId name declared sh
  | .post req s upload => startPost P cfg req s upload sh
  | .patch req s id => startTus id s (.patching req s id) sh
  | .terminate _ s id => startTus id s (.terminating id) sh
  | .deleteItem req s id => startDelete P id req s sh
  | .cleanup now opts => startCleanup now opts sh
  | .createNote now id input =>
      match createNote now id input sh.db with
      | .ok (_, db) => wait { sh with db } []
      | .error _ => wait sh []
  | .elsewhere _ d => wait { sh with db := { d with items := sh.db.items } } []

/-- One turn of a waiting handler, at an instant. -/
def resume (sh : Shared) : Task → Int × Answer → Slice Shared Task Out
  | .putting u, (now, .opened) => wait (sh.record now u.itemId .opened) [.putting u]
  | .putting u, (now, .put a) =>
      wait (sh.record now u.itemId (putEffect a)) [.stored u a]
  | .stored u a, (now, _) => endDirect now u a sh
  | .removing key (r :: todo) next, (now, a) => remove now key r todo next sh a
  | .removing _ [] next, (now, _) => next.resume now sh
  | .creating req s id upload, (now, .ok) =>
      wait (sh.record now id (.created upload)) [.writing req s id { upload with offset := 0 }]
  | .creating _ _ id _, (_, .error) => tusFailed { sh with locked := sh.locked.erase id }
  | .patching req s id, (_, .ok) =>
      if sh.locked.contains id then wait sh [.patching req s id]
      else
        match getUpload (effectsOn id sh.log) with
        | none => answer sh (refuse sh.db (uploadRefused 404 "tus_error" none))
        | some upload => wait { sh with locked := id :: sh.locked } [.writing req s id upload]
  | .writing req s id upload, (now, a) => write now req s id upload sh a
  | .finishing req s id upload, (now, _) => finish now req s id upload sh
  | .terminating id, (now, .ok) =>
      if sh.locked.contains id then wait sh [.terminating id]
      else
        match getUpload (effectsOn id sh.log) with
        | none => answer sh (refuse sh.db (uploadRefused 404 "tus_error" none))
        | some upload =>
            if upload.size = some upload.offset then
              answer sh (refuse sh.db (uploadRefused 400 "tus_error" none))
            else wait (sh.record now id .tusRemoved) [.terminated id]
  | .terminated id, _ => answer sh (postTerminate id sh.db)
  | .verifying item rest opts, (now, .stat gone) =>
      if gone = some true then
        nextFile now opts [cleanupEvent "file.missing" item] rest
          { sh with db := markMissing item.id sh.db }
      else nextFile now opts [] rest sh
  | .sweeping cutoff live, (now, .sweep key) =>
      if !live.contains key && sh.hasOld key cutoff then
        wait (sh.record now key .swept) [.sweeping cutoff live]
      else wait sh [.sweeping cutoff live]
  | .sweeping _ _, (now, .ok) => wait { sh with db := purgeExpiredAccess now sh.db } []
  | t, _ => wait sh [t]

/-- One turn. -/
def step : Pool Shared Task → Move Start (Int × Answer) → Pool Shared Task × Option Out :=
  Interleaving.step (start P cfg) resume

/-! ## Without interruption -/

section

variable {P : Platform} {cfg : Config} {req : Request} {s : Signed} {sh : Shared}

/-- The slices of a direct upload that nobody interrupts are `directUpload`. -/
theorem directUpload_slices {caseId name : String} {declared : Option Nat} {u : Direct}
    (h : (startDirect P cfg req s caseId name declared sh).tasks = [.putting u]) (put : PutAnswer) :
    ∃ out, let started := startDirect P cfg req s caseId name declared sh
      let ended := endDirect req.now u put started.shared
      let o := directUpload P cfg caseId name declared put req s sh.db
      (ended.tasks = [] ∧ ended.output = out ∨
        ended.tasks = [.removing u.itemId [.data, .sidecar] (.refused out)] ∧ ended.output = {}) ∧
      o.state = ended.shared.db ∧ out.answer = some o.response ∧
        o.audit = started.output.audit ++ out.audit := by
  unfold startDirect directUpload at *
  cases hc : (validId caseId).bind fun id => caseFor s id sh.db with
  | none =>
      simp only [hc] at h
      cases h
  | some c =>
      simp only [hc] at h ⊢
      split at h
      · cases h
      rename_i hopen
      rw [if_neg hopen, if_neg hopen]
      cases hs : startUpload P cfg req.now
          ⟨newId "f" req.random.id, c.id, sanitizeFilename P (safeDecode P name), .direct, declared,
            some s.admin.id⟩ sh.db with
      | error e =>
          simp only [hs] at h
          cases e <;> cases h
      | ok started =>
      obtain ⟨⟨item, maxBytes⟩, d⟩ := started
      have hid : item.id = newId "f" req.random.id := (startUpload_ok hs).1
      simp only [hs] at h
      cases h
      simp only [← hid]
      unfold endDirect
      cases hput : put.checked declared with
      | stored size sha256 =>
          simp only []
          exact ⟨_, .inl ⟨trivial, rfl⟩, trivial, rfl, rfl⟩
      | tooLarge =>
          simp only []
          exact ⟨_, .inr ⟨rfl, rfl⟩, rfl, rfl, rfl⟩
      | failed reason =>
          simp only []
          exact ⟨_, .inr ⟨rfl, rfl⟩, rfl, rfl, rfl⟩

/-- The slices of the delete route that nobody interrupts are `postItemDelete`. -/
theorem postItemDelete_slices {id : String} (hstored : req.stored ≠ .failed) :
    ∃ out, let started := startDelete P id req s sh
      let o := postItemDelete P id req s sh.db
      (started.tasks = [] ∧ started.output = out ∧ o.state = started.shared.db ∨
        ∃ key todo next, started.tasks = [.removing key todo next] ∧
          (next.resume req.now started.shared).output = out ∧
          o.state = (next.resume req.now started.shared).shared.db) ∧
      out.answer = some o.response ∧ out.audit = o.audit := by
  unfold startDelete postItemDelete
  cases hi : (validId id).bind fun id => getItem id sh.db with
  | none => exact ⟨_, .inl ⟨rfl, rfl, rfl⟩, rfl, rfl⟩
  | some item =>
      simp only []
      split
      · exact ⟨_, .inl ⟨rfl, rfl, rfl⟩, rfl, rfl⟩
      rcases hm : markDeleted req.now item.id sh.db with ⟨deleted, d⟩
      cases deleted with
      | true =>
          by_cases hfile : item.kind = .file
          · simp only [hfile, hstored, and_false, if_true, if_false]
            exact ⟨_, .inr ⟨_, _, _, rfl, rfl, rfl⟩, rfl, rfl⟩
          · simp only [hfile, false_and, if_false]
            exact ⟨_, .inl ⟨trivial, rfl, trivial⟩, rfl, rfl⟩
      | false =>
          by_cases huploading : item.status = .uploading
          · simp only [huploading, if_true]
            exact ⟨_, .inr ⟨_, _, _, rfl, rfl, rfl⟩, rfl, rfl⟩
          · simp only [huploading, if_false]
            exact ⟨_, .inl ⟨trivial, rfl, rfl⟩, rfl, rfl⟩

end

/-! ## A pool to evaluate the model on -/

/-- An administrator who has signed in. -/
def sampleSigned : Signed where
  sessionId := "sid"
  session :=
    { admin :=
        { id := "a", username := "root", createdAt := 0, totpEnabled := false, role := .admin,
          mustChangePassword := false, passkeys := 0 }
      csrfToken := "csrf", expiresAt := 10 ^ 9, totpVerified := true, totpAttempts := 0,
      publicId := "p", secondFactor := none, confirmedUntil := none }

/-- One open case, without items. -/
def samplePool : Pool Shared Task :=
  ⟨⟨{ DeliveryDb.empty with cases := [⟨newId "c" sampleId, "Case", "", .isOpen, 0, 0⟩] }, [], []⟩, []⟩

/-- A file is sent to the case, and has the identifier `newId "f" sampleId`. -/
def sampleDirect (now : Int) : Move Start (Int × Answer) :=
  .start (.direct (Request.drawing now "sid" 'T' "" []) sampleSigned (newId "c" sampleId) "a.txt"
    (some 3))

/-- The file is deleted. -/
def sampleDelete (now : Int) : Move Start (Int × Answer) :=
  .start (.deleteItem (Request.drawing now "sid" 'T' "" []) sampleSigned (newId "f" sampleId))

end Uploads

end Outletbox
