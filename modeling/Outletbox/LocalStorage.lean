import Outletbox.Crypto
import Outletbox.Library.Fallible

/-!
# Writing a file to the storage directory

`LocalStorage.put`.  The stream that counts and hashes is a value with one step
for each chunk, and a chunk that has passed it is in the file before the next one
is read.  The storage directory is an absolute path, so a valid key names an
entry of it.
-/

namespace Outletbox

namespace LocalStorage

/-- An entry of the storage directory. -/
inductive Entry
  | file (content : Bytes)
  | directory
  deriving DecidableEq

/-- The storage directory, by the names in it. -/
abbrev Directory := String → Option Entry

inductive StorageError
  /-- `invalid storage key`. -/
  | invalidKey
  /-- `EEXIST`: the exclusive open found something under the name. -/
  | taken
  /-- `upload exceeds ${maxBytes} bytes`. -/
  | limit (maxBytes : Nat)
  /-- What the source failed with. -/
  | source (message : String)
  /-- `ERR_FS_EISDIR`: `rm` was asked to remove a directory. -/
  | isDirectory
  deriving DecidableEq

/-- How a stream ends. -/
inductive Ending
  | ended
  | failed (message : String)
  deriving DecidableEq

/-- What a `Readable` delivers. -/
structure Source where
  chunks : List Bytes
  ending : Ending

def Source.bytes (source : Source) : Bytes := source.chunks.flatten

structure PutResult where
  size : Nat
  sha256 : String
  deriving DecidableEq

/-- `KEY_RE`: 1 to 128 characters of base64url. -/
def isValidKey (key : String) : Bool :=
  decide (1 ≤ key.toList.length) && decide (key.toList.length ≤ 128) && key.toList.all isBase64url

/-- The name of the object in the directory. -/
def resolve (key : String) : Except StorageError String :=
  if isValidKey key then .ok key else .error .invalidKey

/-! ## The stream -/

/-- A `LimitHashStream`, with the bytes that went into the hash. -/
structure LimitHashStream where
  maxBytes : Nat
  size : Nat := 0
  hashed : Bytes := []

/-- `_transform`: a chunk is passed on as it is, or refused. -/
def LimitHashStream.transform (s : LimitHashStream) (chunk : Bytes) :
    Except StorageError LimitHashStream :=
  let size := s.size + chunk.length
  if s.maxBytes < size then .error (.limit s.maxBytes)
  else .ok { s with size, hashed := s.hashed ++ chunk }

/-- The two digits of a byte. -/
def hexByte (b : UInt8) : List Char :=
  [Nat.digitChar (b.toNat / 16), Nat.digitChar (b.toNat % 16)]

def LimitHashStream.digestHex (P : Platform) (s : LimitHashStream) : String :=
  String.ofList ((P.sha256 s.hashed).flatMap hexByte)

/-! ## The directory -/

/-- The flags `wx`. -/
def openExclusive (name : String) (dir : Directory) : Except StorageError Directory :=
  if (dir name).isSome then .error .taken
  else .ok (Function.update dir name (some (.file [])))

def append (name : String) (chunk : Bytes) (dir : Directory) : Directory :=
  match dir name with
  | some (.file content) => Function.update dir name (some (.file (content ++ chunk)))
  | _ => dir

/-- `fsp.rm(full, { force: true })`. -/
def rm (name : String) (dir : Directory) : Except StorageError Directory :=
  match dir name with
  | some .directory => .error .isDirectory
  | _ => .ok (Function.update dir name none)

/-- The chunks, one after the other. -/
def pump (name : String) (ending : Ending) :
    List Bytes → LimitHashStream → Directory → Except StorageError LimitHashStream × Directory
  | [], limiter, dir =>
      match ending with
      | .ended => (.ok limiter, dir)
      | .failed message => (.error (.source message), dir)
  | chunk :: rest, limiter, dir =>
      match limiter.transform chunk with
      | .error e => (.error e, dir)
      | .ok limiter' => pump name ending rest limiter' (append name chunk dir)

/-- `pipeline(source, limiter, out)`. -/
def pipeline (name : String) (source : Source) (limiter : LimitHashStream) (dir : Directory) :
    Except StorageError LimitHashStream × Directory :=
  match openExclusive name dir with
  | .error e => (.error e, dir)
  | .ok dir' => pump name source.ending source.chunks limiter dir'

variable (P : Platform)

def put (key : String) (source : Source) (maxBytes : Nat) (dir : Directory) :
    Except StorageError PutResult × Directory :=
  match resolve key with
  | .error e => (.error e, dir)
  | .ok full =>
      match pipeline full source { maxBytes } dir with
      | (.error e, dir') =>
          match rm full dir' with
          | .error e' => (.error e', dir')
          | .ok dir'' => (.error e, dir'')
      | (.ok limiter, dir') => (.ok ⟨limiter.size, limiter.digestHex P⟩, dir')

/-! ## What a call writes -/

/-- Either the call returned and wrote the source under the key, or it threw and wrote
nothing. -/
def AllOrNothing (key : String) (source : Source) (maxBytes : Nat) (dir : Directory) : Prop :=
  (∃ result, (put P key source maxBytes dir).1 = .ok result ∧ dir key = none ∧
      source.ending = .ended ∧
      (put P key source maxBytes dir).2 = Function.update dir key (some (.file source.bytes)) ∧
      result.size = source.bytes.length ∧ result.size ≤ maxBytes) ∨
    ∃ e, (put P key source maxBytes dir).1 = .error e ∧ (put P key source maxBytes dir).2 = dir

section

variable {P} {name key : String} {ending : Ending} {source : Source} {maxBytes : Nat}
  {dir : Directory} {content : Bytes}

theorem append_file (chunk : Bytes) :
    append name chunk (Function.update dir name (some (.file content))) =
      Function.update dir name (some (.file (content ++ chunk))) := by
  simp only [append, Function.update_self, Function.update_idem]

theorem transform_ok {s s' : LimitHashStream} {chunk : Bytes} (h : s.transform chunk = .ok s') :
    s.size + chunk.length ≤ s.maxBytes ∧
      s' = { s with size := s.size + chunk.length, hashed := s.hashed ++ chunk } := by
  obtain ⟨hle, h⟩ := Fallible.guard_eq_ok.1 h
  cases h
  exact ⟨not_lt.1 hle, rfl⟩

/-- While the chunks go through, the file holds what has gone through.  If all of them did, the
stream has counted them within its limit. -/
theorem pump_spec (name : String) (ending : Ending) (dir : Directory) (chunks : List Bytes)
    (content : Bytes) (limiter : LimitHashStream)
    (hlimit : limiter.size ≤ limiter.maxBytes) :
    ∃ written,
      (pump name ending chunks limiter (Function.update dir name (some (.file content)))).2 =
          Function.update dir name (some (.file written)) ∧
        ∀ limiter', (pump name ending chunks limiter
            (Function.update dir name (some (.file content)))).1 = .ok limiter' →
          ending = .ended ∧ written = content ++ chunks.flatten ∧
            limiter'.size = limiter.size + chunks.flatten.length ∧
            limiter'.size ≤ limiter.maxBytes := by
  induction chunks generalizing limiter content with
  | nil =>
      refine ⟨content, ?_⟩
      cases ending with
      | failed message =>
          refine ⟨rfl, fun limiter' h => ?_⟩
          cases h
      | ended =>
          refine ⟨rfl, fun limiter' h => ?_⟩
          cases h
          exact ⟨rfl, (List.append_nil _).symm, rfl, hlimit⟩
  | cons chunk rest ih =>
      cases h : limiter.transform chunk with
      | error e =>
          refine ⟨content, by simp only [pump, h], fun limiter' hok => ?_⟩
          simp only [pump, h] at hok
          cases hok
      | ok next =>
          obtain ⟨hle, rfl⟩ := transform_ok h
          obtain ⟨written, hdir, hall⟩ := ih (content ++ chunk)
            ⟨limiter.maxBytes, limiter.size + chunk.length, limiter.hashed ++ chunk⟩ hle
          refine ⟨written, ?_, fun limiter' hok => ?_⟩
          · simp only [pump, h, append_file]
            exact hdir
          · simp only [pump, h, append_file] at hok
            obtain ⟨hended, hwritten, hsize, hmax⟩ := hall limiter' hok
            refine ⟨hended, ?_, ?_, hmax⟩
            · rw [hwritten, List.flatten_cons, List.append_assoc]
            · rw [hsize, List.flatten_cons, List.length_append, Nat.add_assoc]

theorem rm_file : rm name (Function.update dir name (some (.file content))) =
    .ok (Function.update dir name none) := by
  simp only [rm, Function.update_self, Function.update_idem]

theorem put_invalid (hkey : isValidKey key = false) :
    put P key source maxBytes dir = (.error .invalidKey, dir) := by
  simp [put, resolve, hkey]

/-- Under a free key the call is all or nothing. -/
theorem put_free (hfree : dir key = none) : AllOrNothing P key source maxBytes dir := by
  have hnone : Function.update dir key none = dir := by
    rw [← hfree]
    exact Function.update_eq_self key dir
  cases hkey : isValidKey key with
  | false =>
      exact .inr ⟨.invalidKey, by rw [put_invalid hkey], by rw [put_invalid hkey]⟩
  | true =>
      obtain ⟨written, hdir, hall⟩ :=
        pump_spec key source.ending dir source.chunks [] { maxBytes } (Nat.zero_le _)
      have hpipe : pipeline key source { maxBytes } dir =
          pump key source.ending source.chunks { maxBytes }
            (Function.update dir key (some (.file []))) := by
        simp [pipeline, openExclusive, hfree]
      generalize hrun : pump key source.ending source.chunks { maxBytes }
        (Function.update dir key (some (.file []))) = run at hdir hall hpipe
      obtain ⟨outcome, dir'⟩ := run
      simp only [] at hdir hall
      subst hdir
      cases outcome with
      | error e =>
          have hput : put P key source maxBytes dir = (.error e, dir) := by
            simp only [put, resolve, hkey, if_true, hpipe, rm_file, hnone]
          exact .inr ⟨e, by rw [hput], by rw [hput]⟩
      | ok limiter =>
          obtain ⟨hended, hwritten, hsize, hmax⟩ := hall limiter rfl
          have hput : put P key source maxBytes dir = (.ok ⟨limiter.size, limiter.digestHex P⟩,
              Function.update dir key (some (.file written))) := by
            simp only [put, resolve, hkey, if_true, hpipe]
          refine .inl ⟨⟨limiter.size, limiter.digestHex P⟩, by rw [hput], hfree, hended, ?_, ?_, hmax⟩
          · rw [hput, hwritten, List.nil_append, Source.bytes]
          · rw [hsize, Nat.zero_add, Source.bytes]

theorem pipeline_taken {e : Entry} {limiter : LimitHashStream} (htaken : dir name = some e) :
    pipeline name source limiter dir = (.error .taken, dir) := by
  simp [pipeline, openExclusive, htaken]

/-- The error path of a call whose key is taken removes the file of the earlier call. -/
theorem put_file (hkey : isValidKey key = true) (hfile : dir key = some (.file content)) :
    put P key source maxBytes dir = (.error .taken, Function.update dir key none) := by
  simp only [put, resolve, hkey, if_true, pipeline_taken hfile, rm, hfile]

theorem put_directory (hkey : isValidKey key = true) (hdirectory : dir key = some .directory) :
    put P key source maxBytes dir = (.error .isDirectory, dir) := by
  simp only [put, resolve, hkey, if_true, pipeline_taken hdirectory, rm, hdirectory]

end

/-- A call is all or nothing exactly when no file is stored under its key. -/
theorem put_all_or_nothing (key : String) (source : Source) (maxBytes : Nat) (dir : Directory) :
    AllOrNothing P key source maxBytes dir ↔
      (isValidKey key = true → ∀ content, dir key ≠ some (.file content)) := by
  cases hentry : dir key with
  | none => exact iff_of_true (put_free hentry) fun _ _ h => nomatch h
  | some entry =>
      cases hkey : isValidKey key with
      | false =>
          exact iff_of_true (.inr ⟨.invalidKey, by rw [put_invalid hkey], by rw [put_invalid hkey]⟩)
            fun h => nomatch h
      | true =>
          cases entry with
          | directory =>
              have hput : put P key source maxBytes dir = (.error .isDirectory, dir) :=
                put_directory hkey hentry
              exact iff_of_true (.inr ⟨.isDirectory, by rw [hput], by rw [hput]⟩) fun _ _ h => nomatch h
          | file content =>
              have hput : put P key source maxBytes dir =
                  (.error .taken, Function.update dir key none) := put_file hkey hentry
              refine iff_of_false ?_ fun h => h rfl content rfl
              rintro (⟨result, hok, -⟩ | ⟨e, -, hdir⟩)
              · rw [hput] at hok
                cases hok
              · -- the object that was stored is gone
                rw [hput] at hdir
                have hgone : Function.update dir key none key = dir key := congrFun hdir key
                rw [Function.update_self, hentry] at hgone
                cases hgone

/-! ## A second call with the same key -/

/-- The directory after a first object was stored. -/
def storedOnce : Directory := Function.update (fun _ => none) "f_two" (some (.file [1, 2, 3]))

/-- The second call with a key throws, and the object of the first call is gone. -/
theorem second_put_removes_first :
    (put .sample "f_two" ⟨[[4]], .ended⟩ 1024 storedOnce).1 = .error .taken ∧
      storedOnce "f_two" = some (.file [1, 2, 3]) ∧
      (put .sample "f_two" ⟨[[4]], .ended⟩ 1024 storedOnce).2 "f_two" = none ∧
      ¬ AllOrNothing .sample "f_two" ⟨[[4]], .ended⟩ 1024 storedOnce := by
  refine ⟨by decide +kernel, by decide +kernel, by decide +kernel, ?_⟩
  rintro (⟨result, hok, -⟩ | ⟨e, -, hdir⟩)
  · have hthrows : (put .sample "f_two" ⟨[[4]], .ended⟩ 1024 storedOnce).1 = .error .taken := by
      decide +kernel
    rw [hthrows] at hok
    cases hok
  · have hgone : (put .sample "f_two" ⟨[[4]], .ended⟩ 1024 storedOnce).2 "f_two" = none := by
      decide +kernel
    have hkept : storedOnce "f_two" = some (.file [1, 2, 3]) := by decide +kernel
    rw [hdir, hkept] at hgone
    cases hgone

end LocalStorage

end Outletbox
