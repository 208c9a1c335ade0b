import Outletbox.Crypto

/-!
# What the storage holds beside the files

`cleanupOrphans` of the two storage backends: which entries of the directory or
of the bucket a sweep removes, given the keys that are still wanted.  What the
backend answers (a directory listing, the pages of a bucket) is a value here.  A
sweep that fails in between has removed what a shorter listing lets it remove.
-/

namespace Outletbox

/-- An entry of the storage directory. -/
structure DirEntry where
  name : String
  isFile : Bool
  /-- `mtimeMs`, null when `stat` fails. -/
  modifiedAt : Option Int
  deriving DecidableEq

/-- An unfinished multipart upload of the bucket. -/
structure MultipartUpload where
  key : String
  initiated : Option Int
  deriving DecidableEq

/-- An object of the bucket. -/
structure BucketObject where
  key : String
  lastModified : Option Int
  deriving DecidableEq

/-- What the storage answers to a sweep, by the kind of the backend. -/
inductive Listing
  | disk (entries : List DirEntry)
  | s3 (uploads : List MultipartUpload) (objects : List BucketObject)
  deriving DecidableEq

/-- An artefact a sweep removed, with the key it belongs to. -/
structure Orphan where
  name : String
  key : String
  deriving DecidableEq

/-- The key of an entry of the directory: `/^f_[A-Za-z0-9_-]{16}(\.json)?$/`, without the suffix
of the sidecar.  Anything else is left alone. -/
def diskKey (name : String) : Option String :=
  match name.toList with
  | 'f' :: '_' :: rest =>
      let random := rest.take 16
      let suffix := rest.drop 16
      if random.length == 16 && random.all isBase64url &&
          (suffix == [] || suffix == ".json".toList) then
        some (String.ofList ('f' :: '_' :: random))
      else none
  | _ => none

/-- The characters before a suffix. -/
def beforeSuffix (suffix cs : List Char) : Option (List Char) :=
  if suffix.isSuffixOf cs then some (cs.take (cs.length - suffix.length)) else none

/-- The key of an object of the bucket: `.replace(/\.(info|part)$/, '')`. -/
def bucketKey (name : String) : String :=
  match beforeSuffix ".info".toList name.toList, beforeSuffix ".part".toList name.toList with
  | some base, _ | none, some base => String.ofList base
  | none, none => name

/-- `LocalStorage.cleanupOrphans` for one entry. -/
def sweepEntry (cutoff : Int) (isLive : String → Bool) (e : DirEntry) : Option Orphan :=
  if !e.isFile then none
  else
    match diskKey e.name with
    | none => none
    | some key =>
        if isLive key then none
        else
          match e.modifiedAt with
          | none => none
          | some t => if cutoff < t then none else some ⟨e.name, key⟩

/-- `S3Storage.cleanupOrphans` for one multipart upload. -/
def sweepUpload (cutoff : Int) (isLive : String → Bool) (u : MultipartUpload) : Option Orphan :=
  if cutoff < u.initiated.getD 0 || isLive u.key then none else some ⟨u.key, u.key⟩

/-- `S3Storage.cleanupOrphans` for one object. -/
def sweepObject (cutoff : Int) (isLive : String → Bool) (o : BucketObject) : Option Orphan :=
  if isLive (bucketKey o.key) then none
  else if cutoff < o.lastModified.getD 0 then none
  else some ⟨o.key, bucketKey o.key⟩

/-- `cleanupOrphans`: what a sweep removes. -/
def cleanupOrphans (cutoff : Int) (isLive : String → Bool) : Listing → List Orphan
  | .disk entries => entries.filterMap (sweepEntry cutoff isLive)
  | .s3 uploads objects =>
      uploads.filterMap (sweepUpload cutoff isLive) ++
        objects.filterMap (sweepObject cutoff isLive)

/-- The artefacts old enough to be swept, wanted or not. -/
def oldArtefacts (cutoff : Int) (listing : Listing) : List Orphan :=
  cleanupOrphans cutoff (fun _ => false) listing

/-! ## What is swept -/

section

variable {cutoff : Int} {isLive : String → Bool} {x : Orphan}

theorem sweepEntry_some {e : DirEntry} : sweepEntry cutoff isLive e = some x ↔
    sweepEntry cutoff (fun _ => false) e = some x ∧ isLive x.key = false := by
  unfold sweepEntry
  cases e.isFile with
  | false => simp
  | true =>
      cases diskKey e.name with
      | none => simp
      | some key =>
          cases e.modifiedAt with
          | none => simp
          | some t =>
              by_cases ht : cutoff < t
              · simp [ht]
              · cases hlive : isLive key with
                | true => simp [ht, hlive]; rintro rfl; exact hlive
                | false => simp [ht, hlive]; rintro rfl; exact hlive

theorem sweepUpload_some {u : MultipartUpload} : sweepUpload cutoff isLive u = some x ↔
    sweepUpload cutoff (fun _ => false) u = some x ∧ isLive x.key = false := by
  unfold sweepUpload
  by_cases ht : cutoff < u.initiated.getD 0
  · simp [ht]
  · cases hlive : isLive u.key with
    | true => simp [ht]; rintro rfl; exact hlive
    | false => simp [ht]; rintro rfl; exact hlive

theorem sweepObject_some {o : BucketObject} : sweepObject cutoff isLive o = some x ↔
    sweepObject cutoff (fun _ => false) o = some x ∧ isLive x.key = false := by
  unfold sweepObject
  by_cases ht : cutoff < o.lastModified.getD 0
  · simp [ht]
  · cases hlive : isLive (bucketKey o.key) with
    | true => simp [ht]; rintro rfl; exact hlive
    | false => simp [ht]; rintro rfl; exact hlive

/-- A sweep removes exactly the old artefacts whose key is not wanted any more. -/
theorem mem_cleanupOrphans {listing : Listing} : x ∈ cleanupOrphans cutoff isLive listing ↔
    x ∈ oldArtefacts cutoff listing ∧ isLive x.key = false := by
  cases listing with
  | disk entries =>
      simp only [oldArtefacts, cleanupOrphans, List.mem_filterMap]
      constructor
      · rintro ⟨e, he, hx⟩
        exact ⟨⟨e, he, (sweepEntry_some.1 hx).1⟩, (sweepEntry_some.1 hx).2⟩
      · rintro ⟨⟨e, he, hx⟩, hlive⟩
        exact ⟨e, he, sweepEntry_some.2 ⟨hx, hlive⟩⟩
  | s3 uploads objects =>
      simp only [oldArtefacts, cleanupOrphans, List.mem_append, List.mem_filterMap]
      constructor
      · rintro (⟨u, hu, hx⟩ | ⟨o, ho, hx⟩)
        · exact ⟨.inl ⟨u, hu, (sweepUpload_some.1 hx).1⟩, (sweepUpload_some.1 hx).2⟩
        · exact ⟨.inr ⟨o, ho, (sweepObject_some.1 hx).1⟩, (sweepObject_some.1 hx).2⟩
      · rintro ⟨⟨u, hu, hx⟩ | ⟨o, ho, hx⟩, hlive⟩
        · exact .inl ⟨u, hu, sweepUpload_some.2 ⟨hx, hlive⟩⟩
        · exact .inr ⟨o, ho, sweepObject_some.2 ⟨hx, hlive⟩⟩

end

/-! ## The keys of what the program stores -/

/-- A file of the directory is swept under its own key. -/
example : diskKey "f_AAAAAAAAAAAAAAAA" = some "f_AAAAAAAAAAAAAAAA" := by decide +kernel

/-- Its sidecar is swept under the key of the file. -/
example : diskKey "f_AAAAAAAAAAAAAAAA.json" = some "f_AAAAAAAAAAAAAAAA" := by decide +kernel

/-- Anything else is left alone. -/
example : diskKey "not-ours.txt" = none := by decide +kernel

end Outletbox
