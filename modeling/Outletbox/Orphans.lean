import Outletbox.Storage

/-!
# What the two backends sweep

The sweep of the bucket reads its listings page by page.  What is left of a
directory and of a bucket after a sweep is compared with one specification: of
the artefacts whose name is a key of the application, possibly with a suffix of
the backend, those that are neither wanted nor too young are removed, and nothing
else.
-/

namespace Outletbox

namespace Orphans

/-! ## Pages -/

/-- One answer to a request for a listing. -/
structure Page (α : Type) where
  contents : List α
  isTruncated : Bool
  /-- `NextContinuationToken`, or either of the two markers. -/
  next : Option String
  deriving DecidableEq

/-- `token = res.IsTruncated ? res.NextContinuationToken : undefined`, as the condition of the
loop reads it. -/
def Page.continues {α : Type} (page : Page α) : Bool :=
  page.isTruncated && page.next.any (· != "")

/-- What the loop over the pages goes through, given the answers in order. -/
def walk {α : Type} : List (Page α) → List α
  | [] => []
  | page :: rest => page.contents ++ if page.continues then walk rest else []

/-- The pages list each of the entries once, and only the last one says that it is the last. -/
structure Lists {α : Type} (pages : List (Page α)) (entries : List α) : Prop where
  each : (pages.flatMap (·.contents)).Perm entries
  nonempty : pages ≠ []
  continues : ∀ page ∈ pages.dropLast, page.continues = true

/-! ## What is left -/

variable (cutoff : Int) (isLive : String → Bool)

/-- The directory after `LocalStorage.cleanupOrphans`. -/
def diskLeft (entries : List DirEntry) : List DirEntry :=
  entries.filter fun e => (sweepEntry cutoff isLive e).isNone

/-- The multipart uploads that `S3Storage.cleanupOrphans` aborts. -/
def abortedUploads (pages : List (Page MultipartUpload)) : List MultipartUpload :=
  (walk pages).filter fun u => (sweepUpload cutoff isLive u).isSome

/-- The objects that `S3Storage.cleanupOrphans` deletes. -/
def deletedObjects (pages : List (Page BucketObject)) : List BucketObject :=
  (walk pages).filter fun o => (sweepObject cutoff isLive o).isSome

/-- The unfinished uploads and the objects of a bucket. -/
structure Bucket where
  uploads : List MultipartUpload
  objects : List BucketObject
  deriving DecidableEq

/-- The bucket after `S3Storage.cleanupOrphans`. -/
def bucketLeft (uploadPages : List (Page MultipartUpload)) (objectPages : List (Page BucketObject))
    (b : Bucket) : Bucket where
  uploads := b.uploads.filter (· ∉ abortedUploads cutoff isLive uploadPages)
  objects := b.objects.filter (· ∉ deletedObjects cutoff isLive objectPages)

/-! ## What should be left -/

/-- `f_` and 16 characters of base64url. -/
def isAppKey : List Char → Bool
  | 'f' :: '_' :: rest => rest.length == 16 && rest.all isBase64url
  | _ => false

/-- The key of the application that a name is, apart from one of the suffixes. -/
def appKey (suffixes : List String) (name : String) : Option String :=
  suffixes.findSome? fun suffix =>
    (beforeSuffix suffix.toList name.toList).bind fun cs =>
      if isAppKey cs then some (String.ofList cs) else none

/-- An artefact of the application that is neither wanted nor too young. -/
def isOrphan (suffixes : List String) (name : String) (modifiedAt : Int) : Bool :=
  (appKey suffixes name).any fun key => !isLive key && decide (modifiedAt ≤ cutoff)

/-- What should be left of a directory. -/
def diskSpared (entries : List DirEntry) : List DirEntry :=
  entries.filter fun e =>
    !(e.isFile && e.modifiedAt.any fun t => isOrphan cutoff isLive ["", ".json"] e.name t)

/-- What should be left of a bucket. -/
def bucketSpared (b : Bucket) : Bucket where
  uploads := b.uploads.filter fun u => !isOrphan cutoff isLive [""] u.key (u.initiated.getD 0)
  objects := b.objects.filter fun o =>
    !isOrphan cutoff isLive ["", ".info", ".part"] o.key (o.lastModified.getD 0)

/-- Whatever is old enough and not wanted in the bucket carries a name of the application. -/
structure NoForeign (b : Bucket) : Prop where
  uploads : ∀ u ∈ b.uploads, u.initiated.getD 0 ≤ cutoff → isLive u.key = false →
    appKey [""] u.key ≠ none
  objects : ∀ o ∈ b.objects, o.lastModified.getD 0 ≤ cutoff → isLive (bucketKey o.key) = false →
    appKey ["", ".info", ".part"] o.key ≠ none

/-! ## Names of the application -/

section

variable {cutoff isLive}

theorem beforeSuffix_some {suffix cs pre : List Char} :
    beforeSuffix suffix cs = some pre ↔ cs = pre ++ suffix := by
  unfold beforeSuffix
  rw [Option.ite_none_right_eq_some, List.isSuffixOf_iff_suffix]
  constructor
  · rintro ⟨⟨t, rfl⟩, h⟩
    have hlen : (t ++ suffix).length - suffix.length = t.length := by simp
    rw [hlen, List.take_left, Option.some.injEq] at h
    rw [h]
  · rintro rfl
    have hlen : (pre ++ suffix).length - suffix.length = pre.length := by simp
    exact ⟨⟨pre, rfl⟩, by rw [hlen, List.take_left]⟩

/-- A key of the application holds no dot. -/
theorem not_mem_of_isAppKey {cs : List Char} (h : isAppKey cs = true) : '.' ∉ cs := by
  unfold isAppKey at h
  split at h
  · rename_i rest
    rw [Bool.and_eq_true, List.all_eq_true] at h
    intro hdot
    rcases List.mem_cons.1 hdot with hf | hdot
    · exact absurd hf (by decide)
    rcases List.mem_cons.1 hdot with hf | hdot
    · exact absurd hf (by decide)
    · exact absurd (h.2 '.' hdot) (by decide)
  · cases h

/-- Two ways to write a name with a key of the application and a suffix that is empty or starts
with a dot are the same. -/
theorem appKey_unique {k k' s s' : List Char} (hk : isAppKey k = true) (hk' : isAppKey k' = true)
    (hs : s = [] ∨ s.head? = some '.') (hs' : s' = [] ∨ s'.head? = some '.')
    (h : k ++ s = k' ++ s') : k = k' := by
  have htake : ∀ {k s : List Char}, isAppKey k = true → (s = [] ∨ s.head? = some '.') →
      (k ++ s).takeWhile (· != '.') = k := by
    intro k s hk hs
    have hall : ∀ c ∈ k, (c != '.') = true := by
      intro c hc
      rw [bne_iff_ne]
      rintro rfl
      exact not_mem_of_isAppKey hk hc
    rw [List.takeWhile_append_of_pos hall]
    rcases hs with rfl | hs
    · simp
    · cases s with
      | nil => cases hs
      | cons c cs =>
          rw [List.head?_cons, Option.some.injEq] at hs
          subst hs
          simp
  rw [← htake hk hs, h, htake hk' hs']

/-- The suffixes are empty or start with a dot. -/
def Dotted (suffixes : List String) : Prop :=
  ∀ s ∈ suffixes, s.toList = [] ∨ s.toList.head? = some '.'

instance (suffixes : List String) : Decidable (Dotted suffixes) :=
  inferInstanceAs (Decidable (∀ s ∈ suffixes, s.toList = [] ∨ s.toList.head? = some '.'))

theorem appKey_some {suffixes : List String} (hs : Dotted suffixes) {name key : String} :
    appKey suffixes name = some key ↔
      isAppKey key.toList = true ∧ ∃ s ∈ suffixes, name.toList = key.toList ++ s.toList := by
  unfold appKey
  constructor
  · intro h
    obtain ⟨s, hmem, hs⟩ := List.exists_of_findSome?_eq_some h
    obtain ⟨cs, hcs, hkey⟩ := Option.bind_eq_some_iff.1 hs
    rw [Option.ite_none_right_eq_some, Option.some.injEq] at hkey
    obtain ⟨happ, rfl⟩ := hkey
    rw [String.toList_ofList]
    exact ⟨happ, s, hmem, beforeSuffix_some.1 hcs⟩
  · rintro ⟨happ, s, hmem, hname⟩
    have hsome : (suffixes.findSome? fun suffix =>
        (beforeSuffix suffix.toList name.toList).bind fun cs =>
          if isAppKey cs then some (String.ofList cs) else none).isSome = true := by
      rw [List.findSome?_isSome_iff]
      refine ⟨s, hmem, ?_⟩
      rw [beforeSuffix_some.2 hname, Option.bind_some, if_pos happ]
      rfl
    obtain ⟨key', h⟩ := Option.isSome_iff_exists.1 hsome
    rw [h, Option.some.injEq]
    obtain ⟨s', hmem', hs'⟩ := List.exists_of_findSome?_eq_some h
    obtain ⟨cs, hcs, hkey⟩ := Option.bind_eq_some_iff.1 hs'
    rw [Option.ite_none_right_eq_some, Option.some.injEq] at hkey
    obtain ⟨happ', rfl⟩ := hkey
    rw [appKey_unique happ' happ (hs s' hmem') (hs s hmem)
      ((beforeSuffix_some.1 hcs).symm.trans hname), String.ofList_toList]

/-! ## The directory -/

theorem dotted_plain : Dotted [""] := by decide

theorem dotted_disk : Dotted ["", ".json"] := by decide

theorem dotted_bucket : Dotted ["", ".info", ".part"] := by decide

/-- The pattern of the directory finds the key of the application. -/
theorem diskKey_eq_appKey (name : String) : diskKey name = appKey ["", ".json"] name := by
  refine Option.ext fun key => ?_
  rw [appKey_some dotted_disk]
  constructor
  · intro h
    unfold diskKey at h
    split at h
    · rename_i rest hname
      simp only [] at h
      rw [Option.ite_none_right_eq_some, Bool.and_eq_true, Bool.or_eq_true, beq_iff_eq, beq_iff_eq,
        Option.some.injEq] at h
      obtain ⟨⟨hrandom, hsuffix⟩, rfl⟩ := h
      rw [String.toList_ofList]
      refine ⟨hrandom, ?_⟩
      have hsplit : name.toList = 'f' :: '_' :: rest.take 16 ++ rest.drop 16 := by
        rw [hname, List.cons_append, List.cons_append, List.take_append_drop]
      rcases hsuffix with hsuffix | hsuffix
      · exact ⟨"", List.mem_cons_self .., by rw [hsplit, hsuffix]; rfl⟩
      · exact ⟨".json", List.mem_cons_of_mem _ (List.mem_cons_self ..), by rw [hsplit, hsuffix]⟩
    · cases h
  · rintro ⟨happ, s, hmem, hname⟩
    unfold isAppKey at happ
    split at happ
    · rename_i random hkey
      have hlen : random.length = 16 := beq_iff_eq.1 (Bool.and_eq_true_iff.1 happ).1
      rw [hkey, List.cons_append, List.cons_append] at hname
      have htake : (random ++ s.toList).take 16 = random := by
        rw [← hlen, List.take_left]
      have hdrop : (random ++ s.toList).drop 16 = s.toList := by
        rw [← hlen, List.drop_left]
      have hsuffix : (s.toList == [] || s.toList == ".json".toList) = true := by
        simp only [List.mem_cons, List.not_mem_nil, or_false] at hmem
        rcases hmem with rfl | rfl
        · rfl
        · rfl
      unfold diskKey
      rw [hname]
      simp only [htake, hdrop, hsuffix, happ, Bool.and_true, if_true]
      rw [← hkey, String.ofList_toList]
    · cases happ

theorem sweepEntry_isSome (e : DirEntry) : (sweepEntry cutoff isLive e).isSome =
    (e.isFile && e.modifiedAt.any fun t => isOrphan cutoff isLive ["", ".json"] e.name t) := by
  unfold sweepEntry isOrphan
  rw [diskKey_eq_appKey]
  cases e.isFile with
  | false => rfl
  | true =>
      cases appKey ["", ".json"] e.name with
      | none => cases e.modifiedAt with
        | none => rfl
        | some t => rfl
      | some key =>
          cases e.modifiedAt with
          | none => cases hlive : isLive key with
            | true => simp [hlive]
            | false => simp [hlive]
          | some t =>
              cases hlive : isLive key with
              | true => simp [hlive]
              | false =>
                  by_cases ht : cutoff < t
                  · simp [hlive, ht, not_le.2 ht]
                  · simp [hlive, ht, not_lt.1 ht]

/-- The sweep of the directory leaves exactly what should be left. -/
theorem diskLeft_eq (entries : List DirEntry) :
    diskLeft cutoff isLive entries = diskSpared cutoff isLive entries := by
  refine List.filter_congr fun e _ => ?_
  rw [← Option.not_isSome, sweepEntry_isSome]

/-! ## The bucket -/

/-- What the loop goes through is what the pages list. -/
theorem mem_walk {α : Type} {pages : List (Page α)} {entries : List α} (h : Lists pages entries)
    (x : α) : x ∈ walk pages ↔ x ∈ entries := by
  have hall : ∀ pages : List (Page α), (∀ page ∈ pages.dropLast, page.continues = true) →
      walk pages = pages.flatMap (·.contents) := by
    intro pages hpages
    induction pages with
    | nil => rfl
    | cons page rest ih =>
        cases rest with
        | nil =>
            simp only [walk, List.flatMap_cons, List.flatMap_nil]
            split
            · rfl
            · rfl
        | cons next rest =>
            rw [List.dropLast_cons_cons] at hpages
            rw [walk, if_pos (hpages page (List.mem_cons_self ..)), List.flatMap_cons,
              ih fun p hp => hpages p (List.mem_cons_of_mem _ hp)]
  rw [hall pages h.continues]
  exact h.each.mem_iff

/-- The suffix that the sweep of the bucket strips leaves the key of the application. -/
theorem bucketKey_of_appKey {name key : String}
    (h : appKey ["", ".info", ".part"] name = some key) : bucketKey name = key := by
  obtain ⟨happ, s, hmem, hname⟩ := (appKey_some dotted_bucket).1 h
  have hnot : ∀ {pre : List Char}, key.toList = pre ++ ".info".toList ∨
      key.toList = pre ++ ".part".toList → False := by
    intro pre hor
    refine not_mem_of_isAppKey happ ?_
    rcases hor with hor | hor
    · rw [hor]
      exact List.mem_append_right _ (by decide)
    · rw [hor]
      exact List.mem_append_right _ (by decide)
  unfold bucketKey
  simp only [List.mem_cons, List.not_mem_nil, or_false] at hmem
  rcases hmem with rfl | rfl | rfl
  · have hsame : name.toList = key.toList := by rw [hname]; exact List.append_nil _
    cases hinfo : beforeSuffix ".info".toList name.toList with
    | some pre => exact (hnot (.inl (hsame.symm.trans (beforeSuffix_some.1 hinfo)))).elim
    | none =>
        cases hpart : beforeSuffix ".part".toList name.toList with
        | some pre => exact (hnot (.inr (hsame.symm.trans (beforeSuffix_some.1 hpart)))).elim
        | none => exact String.toList_injective hsame
  · rw [beforeSuffix_some.2 hname]
    exact String.ofList_toList
  · rw [beforeSuffix_some.2 hname]
    cases hinfo : beforeSuffix ".info".toList name.toList with
    | none => exact String.ofList_toList
    | some pre =>
        -- a name does not end in both suffixes
        have hinfo := beforeSuffix_some.1 hinfo
        rw [hname] at hinfo
        have hlast := congrArg List.getLast? hinfo
        rw [List.getLast?_append_of_ne_nil _ (by decide),
          List.getLast?_append_of_ne_nil _ (by decide)] at hlast
        exact absurd hlast (by decide)

theorem appKey_plain {name key : String} (h : appKey [""] name = some key) : name = key := by
  obtain ⟨-, s, hmem, hname⟩ := (appKey_some dotted_plain).1 h
  rw [List.mem_singleton.1 hmem] at hname
  exact String.toList_injective (hname.trans (List.append_nil _))

/-- The sweep aborts an upload as it should, unless the upload is foreign. -/
theorem sweepUpload_iff (u : MultipartUpload) :
    ((sweepUpload cutoff isLive u).isSome = isOrphan cutoff isLive [""] u.key (u.initiated.getD 0)) ↔
      (u.initiated.getD 0 ≤ cutoff → isLive u.key = false → appKey [""] u.key ≠ none) := by
  unfold sweepUpload isOrphan
  cases hkey : appKey [""] u.key with
  | none =>
      by_cases ht : cutoff < u.initiated.getD 0
      · simp [ht, not_le.2 ht]
      · cases hlive : isLive u.key with
        | true => simp
        | false => simp [ht, not_lt.1 ht]
  | some key =>
      rw [appKey_plain hkey]
      by_cases ht : cutoff < u.initiated.getD 0
      · simp [ht, not_le.2 ht]
      · cases hlive : isLive key with
        | true => simp [hlive]
        | false => simp [hlive, ht, not_lt.1 ht]

/-- The sweep deletes an object as it should, unless the object is foreign. -/
theorem sweepObject_iff (o : BucketObject) :
    ((sweepObject cutoff isLive o).isSome =
        isOrphan cutoff isLive ["", ".info", ".part"] o.key (o.lastModified.getD 0)) ↔
      (o.lastModified.getD 0 ≤ cutoff → isLive (bucketKey o.key) = false →
        appKey ["", ".info", ".part"] o.key ≠ none) := by
  unfold sweepObject isOrphan
  cases hkey : appKey ["", ".info", ".part"] o.key with
  | none =>
      by_cases ht : cutoff < o.lastModified.getD 0
      · simp [ht, not_le.2 ht]
      · cases hlive : isLive (bucketKey o.key) with
        | true => simp
        | false => simp [ht, not_lt.1 ht]
  | some key =>
      rw [bucketKey_of_appKey hkey]
      by_cases ht : cutoff < o.lastModified.getD 0
      · simp [ht, not_le.2 ht]
      · cases hlive : isLive key with
        | true => simp [hlive]
        | false => simp [hlive, ht, not_lt.1 ht]

/-- Two filters of a list agree exactly when their conditions agree on it. -/
theorem filter_eq_iff {α : Type} {p q : α → Bool} {t : List α} :
    t.filter p = t.filter q ↔ ∀ x ∈ t, p x = q x := by
  constructor
  · intro h x hx
    have hmem := congrArg (x ∈ ·) h
    simp only [List.mem_filter, hx, true_and, eq_iff_iff] at hmem
    exact Bool.eq_iff_iff.2 hmem
  · exact List.filter_congr

variable {b : Bucket} {uploadPages : List (Page MultipartUpload)}
  {objectPages : List (Page BucketObject)}

/-- The sweep of the bucket leaves exactly what should be left, when nothing foreign in it is old
and not wanted. -/
theorem bucketLeft_iff (hu : Lists uploadPages b.uploads) (ho : Lists objectPages b.objects) :
    bucketLeft cutoff isLive uploadPages objectPages b = bucketSpared cutoff isLive b ↔
      NoForeign cutoff isLive b := by
  have huploads : ∀ u ∈ b.uploads, decide (u ∉ abortedUploads cutoff isLive uploadPages) =
      !(sweepUpload cutoff isLive u).isSome := by
    intro u hmem
    rw [Bool.eq_iff_iff]
    simp [abortedUploads, (mem_walk hu u).2 hmem]
  have hobjects : ∀ o ∈ b.objects, decide (o ∉ deletedObjects cutoff isLive objectPages) =
      !(sweepObject cutoff isLive o).isSome := by
    intro o hmem
    rw [Bool.eq_iff_iff]
    simp [deletedObjects, (mem_walk ho o).2 hmem]
  simp only [bucketLeft, bucketSpared, Bucket.mk.injEq, filter_eq_iff]
  constructor
  · rintro ⟨hleft, hright⟩
    refine ⟨fun u hmem => (sweepUpload_iff u).1 ?_, fun o hmem => (sweepObject_iff o).1 ?_⟩
    · have h := hleft u hmem
      rw [huploads u hmem] at h
      exact Bool.not_inj h
    · have h := hright o hmem
      rw [hobjects o hmem] at h
      exact Bool.not_inj h
  · intro hforeign
    refine ⟨fun u hmem => ?_, fun o hmem => ?_⟩
    · rw [huploads u hmem, (sweepUpload_iff u).2 (hforeign.uploads u hmem)]
    · rw [hobjects o hmem, (sweepObject_iff o).2 (hforeign.objects o hmem)]

end

/-- The sweep of the directory removes exactly the orphans of the application.  The sweep of a
bucket does so exactly when nothing foreign in it is old and not wanted. -/
theorem sweeps_own_artefacts (cutoff : Int) (isLive : String → Bool) :
    (∀ entries, diskLeft cutoff isLive entries = diskSpared cutoff isLive entries) ∧
      ∀ b uploadPages objectPages, Lists uploadPages b.uploads → Lists objectPages b.objects →
        (bucketLeft cutoff isLive uploadPages objectPages b = bucketSpared cutoff isLive b ↔
          NoForeign cutoff isLive b) :=
  ⟨diskLeft_eq, fun _ _ _ hu ho => bucketLeft_iff hu ho⟩

/-! ## A bucket that holds something else -/

/-- A bucket with an old report of somebody else. -/
def sharedBucket : Bucket := ⟨[], [⟨"report.pdf", some 0⟩]⟩

/-- A bucket with a file that is wanted, what is left of one that is not, an upload of each, and
a report of somebody else that is too young to be swept. -/
def busyBucket : Bucket where
  uploads := [⟨"f_AAAAAAAAAAAAAAAA", some 0⟩, ⟨"f_BBBBBBBBBBBBBBBB", some 0⟩]
  objects := [⟨"f_AAAAAAAAAAAAAAAA", some 0⟩, ⟨"f_BBBBBBBBBBBBBBBB.info", some 5⟩,
    ⟨"report.pdf", some 20⟩]

/-- The application wants one file. -/
def wantsOne (key : String) : Bool := key == "f_AAAAAAAAAAAAAAAA"

/-- A listing that comes in two pages. -/
def twoPages {α : Type} (first second : List α) : List (Page α) :=
  [⟨first, true, some "next"⟩, ⟨second, false, none⟩]

theorem lists_twoPages {α : Type} (first second : List α) :
    Lists (twoPages first second) (first ++ second) where
  each := by simp [twoPages]
  nonempty := List.cons_ne_nil _ _
  continues := List.forall_mem_singleton.2 rfl

/-- The sweep goes on to the second page, and leaves the busy bucket as it should; it leaves the
shared one so exactly when there is nothing foreign in it. -/
theorem sweeps_own_artefacts_twoPages :
    bucketLeft 10 wantsOne (twoPages [⟨"f_AAAAAAAAAAAAAAAA", some 0⟩]
          [⟨"f_BBBBBBBBBBBBBBBB", some 0⟩])
        (twoPages [⟨"f_AAAAAAAAAAAAAAAA", some 0⟩]
          [⟨"f_BBBBBBBBBBBBBBBB.info", some 5⟩, ⟨"report.pdf", some 20⟩]) busyBucket =
        ⟨[⟨"f_AAAAAAAAAAAAAAAA", some 0⟩],
          [⟨"f_AAAAAAAAAAAAAAAA", some 0⟩, ⟨"report.pdf", some 20⟩]⟩ ∧
      (bucketLeft 10 wantsOne (twoPages [] []) (twoPages [] sharedBucket.objects) sharedBucket =
          bucketSpared 10 wantsOne sharedBucket ↔ NoForeign 10 wantsOne sharedBucket) := by
  have hsweeps := (sweeps_own_artefacts 10 wantsOne).2
  constructor
  · refine ((hsweeps busyBucket _ _ (lists_twoPages _ _) (lists_twoPages _ _)).2 ?_).trans
      (by decide +kernel)
    exact ⟨by decide +kernel, by decide +kernel⟩
  · exact hsweeps _ _ _ (lists_twoPages _ _) (lists_twoPages _ _)

/-- The sweep of the bucket deletes an object whose name is not one of the application. -/
theorem foreign_object_deleted :
    deletedObjects 10 wantsOne (twoPages [] sharedBucket.objects) = [⟨"report.pdf", some 0⟩] ∧
      bucketLeft 10 wantsOne (twoPages [] []) (twoPages [] sharedBucket.objects) sharedBucket ≠
        bucketSpared 10 wantsOne sharedBucket :=
  ⟨by decide +kernel, by decide +kernel⟩

end Orphans

end Outletbox
