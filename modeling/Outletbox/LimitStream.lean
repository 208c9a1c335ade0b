import Outletbox.LocalStorage

/-!
# The limit of an upload

`LimitHashStream` of `limit.ts` between a source and what it is piped to.  A
chunk is counted before the test and hashed after it, and is passed on last; a
stream whose callback got an error is destroyed, and takes no further chunk.
-/

namespace Outletbox

namespace LimitStream

open LocalStorage

/-- `_transform(chunk, _enc, cb)`: the stream afterwards, and what `cb` is called with. -/
def transform (s : LimitHashStream) (chunk : Bytes) :
    LimitHashStream × Except StorageError Bytes :=
  let s := { s with size := s.size + chunk.length }
  if s.maxBytes < s.size then (s, .error (.limit s.maxBytes))
  else ({ s with hashed := s.hashed ++ chunk }, .ok chunk)

/-- The stream in a pipe, with the chunks it has passed on and its error. -/
structure Pipe where
  stream : LimitHashStream
  forwarded : List Bytes := []
  error : Option StorageError := none

/-- The next chunk of the source. -/
def Pipe.write (p : Pipe) (chunk : Bytes) : Pipe :=
  match p.error with
  | some _ => p
  | none =>
      match transform p.stream chunk with
      | (stream, .error e) => { p with stream, error := some e }
      | (stream, .ok data) => { p with stream, forwarded := p.forwarded ++ [data] }

/-- `new LimitHashStream(maxBytes)`, after the chunks. -/
def pipe (maxBytes : Nat) (chunks : List Bytes) : Pipe :=
  chunks.foldl Pipe.write { stream := { maxBytes } }

/-- The bytes of the first `k` chunks. -/
def total (chunks : List Bytes) (k : Nat) : Nat := (chunks.take k).flatten.length

/-- What has happened to the chunks: the first `k` went through, and the next one, if there
is one, did not. -/
structure Through (maxBytes : Nat) (chunks : List Bytes) (p : Pipe) (k : Nat) : Prop where
  cap : p.stream.maxBytes = maxBytes
  prefix_le : k ≤ chunks.length
  forwarded : p.forwarded = chunks.take k
  hashed : p.stream.hashed = p.forwarded.flatten
  within : total chunks k ≤ maxBytes
  open_all : p.error = none → k = chunks.length ∧ p.stream.size = total chunks k
  stopped : ∀ e, p.error = some e →
    e = .limit maxBytes ∧ k < chunks.length ∧ maxBytes < total chunks (k + 1)

section

variable {maxBytes k : Nat} {chunks : List Bytes} {p : Pipe}

theorem total_mono (chunks : List Bytes) {j k : Nat} (h : j ≤ k) : total chunks j ≤ total chunks k := by
  have hprefix : chunks.take j <+: chunks.take k := List.take_prefix_take_left h
  exact (List.IsPrefix.flatten hprefix).length_le

theorem total_append (chunks : List Bytes) (chunk : Bytes) {k : Nat} (h : k ≤ chunks.length) :
    total (chunks ++ [chunk]) k = total chunks k := by
  rw [total, List.take_append_of_le_length h, total]

theorem total_length (chunks : List Bytes) : total chunks chunks.length = chunks.flatten.length := by
  rw [total, List.take_length]

/-- A further chunk is passed on while it fits, and stops the stream when it does not. -/
theorem Through.write (h : Through maxBytes chunks p k) (chunk : Bytes) :
    ∃ k', Through maxBytes (chunks ++ [chunk]) (p.write chunk) k' := by
  obtain ⟨hcap, hle, hforwarded, hhashed, hwithin, hopen, hstopped⟩ := h
  have hlonger : (chunks ++ [chunk]).length = chunks.length + 1 := List.length_append
  unfold Pipe.write
  split
  · -- the stream is destroyed
    rename_i e herror
    obtain ⟨he, hlt, hover⟩ := hstopped e herror
    refine ⟨k, hcap, by omega, ?_, hhashed, ?_, ?_, ?_⟩
    · rw [hforwarded, List.take_append_of_le_length hle]
    · rwa [total_append chunks chunk hle]
    · intro hnone
      rw [herror] at hnone
      cases hnone
    · intro e' he'
      rw [herror] at he'
      cases he'
      exact ⟨he, by omega, by rwa [total_append chunks chunk (by omega)]⟩
  · rename_i herror
    obtain ⟨rfl, hsize⟩ := hopen herror
    have hnext : total (chunks ++ [chunk]) (chunks.length + 1) = p.stream.size + chunk.length := by
      rw [← hlonger, total_length, List.flatten_append, List.length_append, hsize, total_length,
        List.flatten_singleton]
    by_cases hover : p.stream.maxBytes < p.stream.size + chunk.length
    · rw [show transform p.stream chunk = _ from if_pos hover]
      refine ⟨chunks.length, hcap, by omega, ?_, hhashed, ?_, (nomatch ·), ?_⟩
      · rw [hforwarded, List.take_append_of_le_length (Nat.le_refl _)]
      · rwa [total_append chunks chunk (Nat.le_refl _)]
      · intro e he
        cases he
        refine ⟨congrArg StorageError.limit hcap, by omega, ?_⟩
        rwa [hnext, ← hcap]
    · rw [show transform p.stream chunk = _ from if_neg hover]
      refine ⟨chunks.length + 1, hcap, by omega, ?_, ?_, ?_, fun _ => ⟨hlonger.symm, hnext.symm⟩, ?_⟩
      · rw [hforwarded, List.take_length, ← hlonger, List.take_length]
      · rw [List.flatten_append, List.flatten_singleton, hhashed]
      · rw [hnext, ← hcap]
        exact Nat.le_of_not_lt hover
      · intro e he
        rw [herror] at he
        cases he

/-- After every sequence of chunks. -/
theorem exists_through (maxBytes : Nat) (chunks : List Bytes) :
    ∃ k, Through maxBytes chunks (pipe maxBytes chunks) k := by
  induction chunks using List.reverseRecOn with
  | nil => exact ⟨0, rfl, Nat.le_refl _, rfl, rfl, Nat.zero_le _, fun _ => ⟨rfl, rfl⟩, nofun⟩
  | append_singleton chunks chunk ih =>
      obtain ⟨k, hk⟩ := ih
      rw [pipe, List.foldl_append, ← pipe]
      exact hk.write chunk

/-- A chunk that did not go through stopped the stream. -/
theorem Through.failed (h : Through maxBytes chunks p k) (hlt : k < chunks.length) :
    p.error = some (.limit maxBytes) ∧ maxBytes < total chunks (k + 1) := by
  cases herror : p.error with
  | none => exact absurd (h.open_all herror).1 (Nat.ne_of_lt hlt)
  | some e =>
      obtain ⟨rfl, -, hover⟩ := h.stopped e herror
      exact ⟨rfl, hover⟩

/-- The stream fails as soon as the chunks are longer than the limit. -/
theorem Through.error_iff (h : Through maxBytes chunks p k) :
    p.error.isSome = true ↔ ∃ j ≤ chunks.length, maxBytes < total chunks j := by
  cases herror : p.error with
  | none =>
      refine iff_of_false Bool.false_ne_true ?_
      rintro ⟨j, hj, hover⟩
      have hle := total_mono chunks (hj.trans_eq (h.open_all herror).1.symm)
      exact absurd h.within (by omega)
  | some e =>
      obtain ⟨-, hlt, hover⟩ := h.stopped e herror
      exact iff_of_true rfl ⟨k + 1, hlt, hover⟩

end

/-- The stream passes on the longest row of first chunks within the limit, and fails when there
is another chunk; where it does not fail, its size and its digest are those of the whole input. -/
theorem limit_stream (P : Platform) (maxBytes : Nat) (chunks : List Bytes) :
    let p := pipe maxBytes chunks
    (∃ k ≤ chunks.length, p.forwarded = chunks.take k ∧ total chunks k ≤ maxBytes ∧
      (p.error = some (.limit maxBytes) ↔ k < chunks.length) ∧
      (k < chunks.length → maxBytes < total chunks (k + 1))) ∧
    (p.error.isSome = true ↔ ∃ j ≤ chunks.length, maxBytes < total chunks j) ∧
    (p.error = none →
      p.forwarded = chunks ∧ p.stream.size = p.forwarded.flatten.length ∧
        p.stream.digestHex P = String.ofList ((P.sha256 p.forwarded.flatten).flatMap hexByte)) := by
  intro p
  obtain ⟨k, h⟩ := exists_through maxBytes chunks
  refine ⟨⟨k, h.prefix_le, h.forwarded, h.within, ?_, fun hlt => (h.failed hlt).2⟩, h.error_iff, ?_⟩
  · exact ⟨fun he => (h.stopped _ he).2.1, fun hlt => (h.failed hlt).1⟩
  · intro hnone
    obtain ⟨rfl, hsize⟩ := h.open_all hnone
    have hall := h.forwarded
    rw [List.take_length] at hall
    refine ⟨hall, ?_, ?_⟩
    · rw [hsize, total_length, hall]
    · rw [LimitHashStream.digestHex, h.hashed]

/-! ## Storing -/

theorem foldl_write_stopped {p : Pipe} {e : StorageError} (h : p.error = some e)
    (chunks : List Bytes) : chunks.foldl Pipe.write p = p := by
  have hstop : ∀ chunk, p.write chunk = p := fun chunk => by rw [Pipe.write, h]
  induction chunks with
  | nil => rfl
  | cons chunk chunks ih => rw [List.foldl_cons, hstop, ih]

/-- `put` writes the chunks that the stream passes on, and throws its error. -/
theorem pump_pipe (name : String) (dir : Directory) (chunks : List Bytes) (p : Pipe)
    (h : p.error = none) :
    let q := chunks.foldl Pipe.write p
    pump name .ended chunks p.stream
        (Function.update dir name (some (.file p.forwarded.flatten))) =
      (q.error.elim (.ok q.stream) .error,
        Function.update dir name (some (.file q.forwarded.flatten))) := by
  induction chunks generalizing p with
  | nil =>
      dsimp only [List.foldl_nil]
      rw [h]
      rfl
  | cons chunk chunks ih =>
      dsimp only [List.foldl_cons]
      by_cases hover : p.stream.maxBytes < p.stream.size + chunk.length
      · have hwrite : p.write chunk = { p with
            stream := { p.stream with size := p.stream.size + chunk.length },
            error := some (.limit p.stream.maxBytes) } := by
          rw [Pipe.write, h, show transform p.stream chunk = _ from if_pos hover]
        rw [hwrite, foldl_write_stopped rfl, pump,
          show p.stream.transform chunk = _ from if_pos hover]
        rfl
      · have hwrite : p.write chunk = { p with
            stream := { p.stream with
              size := p.stream.size + chunk.length, hashed := p.stream.hashed ++ chunk },
            forwarded := p.forwarded ++ [chunk] } := by
          rw [Pipe.write, h, show transform p.stream chunk = _ from if_neg hover]
        have hnext := ih (p.write chunk) (by rw [hwrite]; exact h)
        rw [pump, show p.stream.transform chunk = _ from if_neg hover, append_file, ← hnext, hwrite]
        simp only [List.flatten_append, List.flatten_singleton]

/-- The file of an upload holds the chunks within the limit. -/
theorem pump_within (name : String) (dir : Directory) (maxBytes : Nat) (chunks : List Bytes) :
    ∃ k ≤ chunks.length, total chunks k ≤ maxBytes ∧
      (pump name .ended chunks { maxBytes } (Function.update dir name (some (.file [])))).2 =
        Function.update dir name (some (.file (chunks.take k).flatten)) := by
  obtain ⟨k, h⟩ := exists_through maxBytes chunks
  refine ⟨k, h.prefix_le, h.within, ?_⟩
  rw [← h.forwarded]
  exact congrArg Prod.snd (pump_pipe name dir chunks { stream := { maxBytes } } rfl)

end LimitStream

end Outletbox
