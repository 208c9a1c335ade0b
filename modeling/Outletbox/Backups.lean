import Outletbox.Library.Ranking
import Outletbox.Schema

/-!
# Pruning the backup directory

A copy is made before an upgrade, and the oldest copies beyond five are removed.
Which are the oldest is read off their names.  A copy whose stamp is not among the
five latest is therefore removed by the very call that made it.
-/

namespace Outletbox

namespace Schema

open Utf16 Crash

/-! ## The directory -/

namespace Directory

variable {γ : Type} {d d' : Directory γ} {name target : Units} {place : Nat} {content : γ}

/-- The listing after a copy is made: a new name stands at some place in it. -/
def listing (place : Nat) (target : Units) (names : List Units) : List Units :=
  if target ∈ names then names else names.take place ++ target :: names.drop place

theorem mem_listing {names : List Units} : name ∈ listing place target names ↔
    name = target ∨ name ∈ names := by
  rw [listing]
  by_cases h : target ∈ names
  · rw [if_pos h]
    exact ⟨.inr, fun h' => h'.elim (fun heq => heq ▸ h) id⟩
  · rw [if_neg h, List.mem_append, List.mem_cons, or_left_comm, ← List.mem_append,
      List.take_append_drop]

theorem names_write (node : Node γ) : (d.write name node).names = d.names := by
  rw [names, names, write, List.map_map]
  refine List.map_congr_left fun e _ => ?_
  by_cases he : e.1 = name
  · simp only [Function.comp_apply, if_pos he]
  · simp only [Function.comp_apply, if_neg he]

theorem lookup_write (h : name ∈ d.names) (node : Node γ) :
    (d.write name node).lookup name = some node := by
  obtain ⟨e, he, rfl⟩ := List.mem_map.1 h
  cases hfind : (d.write e.1 node).entries.find? (·.1 == e.1) with
  | none =>
      have hnone := List.find?_eq_none.1 hfind (e.1, node)
        (List.mem_map.2 ⟨e, he, if_pos rfl⟩)
      exact absurd (beq_self_eq_true e.1) hnone
  | some e' =>
      obtain ⟨x, -, hx⟩ := List.mem_map.1 (List.mem_of_find?_eq_some hfind)
      have hname : e'.1 = e.1 := by simpa using List.find?_some hfind
      rw [lookup, hfind, ← hx]
      by_cases hxe : x.1 = e.1
      · rw [if_pos hxe]
        rfl
      · rw [if_neg hxe] at hx
        exact absurd (hx ▸ hname) hxe

theorem lookup_insert (h : name ∉ d.names) (node : Node γ) :
    (d.insert place name node h).lookup name = some node := by
  have hnone : (d.entries.take place).find? (·.1 == name) = none := by
    refine List.find?_eq_none.2 fun e he hname => h ?_
    exact List.mem_map.2 ⟨e, List.mem_of_mem_take he, beq_iff_eq.1 hname⟩
  rw [lookup, insert, List.find?_append, hnone, Option.none_or, List.find?_cons, beq_self_eq_true]
  rfl

/-- What `VACUUM INTO` leaves in the directory. -/
theorem vacuumInto_ok (h : d.vacuumInto place target content = .ok d') :
    d'.names = listing place target d.names ∧ d'.lookup target = some (.copy content) := by
  rw [vacuumInto] at h
  split at h
  · rename_i hmem
    split at h
    · cases h
      rw [names_write, listing, if_pos hmem]
      exact ⟨rfl, lookup_write hmem _⟩
    · cases h
  · rename_i hmem
    cases h
    rw [listing, if_neg hmem]
    refine ⟨?_, lookup_insert hmem _⟩
    simp only [names, insert, List.map_append, List.map_cons, List.map_take, List.map_drop]

theorem rmSync_ok (h : d.rmSync name = .ok d') : d'.names = d.names.filter (· ≠ name) := by
  have hdelete : d' = d.delete name := by
    rw [rmSync] at h
    split at h
    · cases h
    · exact (Except.ok.inj h).symm
  rw [hdelete, names, names, delete, List.filter_map]
  rfl

end Directory

/-! ## The commands -/

section

variable {σ : Type} {run : CopyRun} {firstPending : Units}

theorem triple_touch {P E C : World σ → Prop} (hE : ∀ w, P w → E w) (hC : ∀ w, P w → C w) :
    Triple P touch (fun _ => P) E C := by
  refine .op (fun w a w' hw h => ?_) hE hC
  cases h
  exact hw

/-- What removing files leaves. -/
structure Removed (w₀ : World σ) (names : List Units) (w : World σ) : Prop where
  db : w.db = w₀.db
  working : w.working = w₀.working
  log : w.log = w₀.log
  names : w.backups.names = names

theorem triple_rmAll (w₀ : World σ) (fs : List Units) (names : List Units) :
    Triple (Removed w₀ names) (rmAll fs) (fun _ => Removed w₀ (names.filter (· ∉ fs)))
      (fun w => w.db = w₀.db ∧ w.working = w₀.working ∧ w.log = w₀.log)
      (fun w => w.db = w₀.db ∧ w.working = w₀.working ∧ w.log = w₀.log) := by
  have hkeep : ∀ names' w, Removed w₀ names' w →
      w.db = w₀.db ∧ w.working = w₀.working ∧ w.log = w₀.log :=
    fun _ _ hw => ⟨hw.db, hw.working, hw.log⟩
  induction fs generalizing names with
  | nil =>
      refine .pure fun w hw => ?_
      simpa using hw
  | cons f fs ih =>
      refine .bind (.op (Q := fun _ => Removed w₀ (names.filter (· ≠ f))) (fun w a w' hw h => ?_)
        (hkeep _) (hkeep _)) fun _ => ?_
      · obtain ⟨d, hd, hw'⟩ := Fallible.map_eq_ok.1 h
        cases hw'
        refine ⟨hw.db, hw.working, hw.log, ?_⟩
        rw [Directory.rmSync_ok hd, hw.names]
      · have hnames : (names.filter (· ≠ f)).filter (· ∉ fs) = names.filter (· ∉ f :: fs) := by
          rw [List.filter_filter]
          refine List.filter_congr fun n _ => ?_
          simp only [List.mem_cons, not_or, ne_eq, Bool.decide_and, Bool.and_comm]
        have hrest := ih (names.filter (· ≠ f))
        rwa [hnames] at hrest

/-- What a run of `backupBeforeMigrating` leaves of everything but the directory, wherever
it stops. -/
structure Untouched (w₀ w : World σ) : Prop where
  db : w.db = w₀.db
  working : w.working = w₀.working
  log : w.log = w₀.log ∨ w.log = w₀.log ++ [.verified w₀.db]

/-- The names that are removed after a copy. -/
def pruned (names : List Units) : List Units :=
  ((names.filter isBackup).insertionSort newerFirst).drop keepMigrationBackups

/-- A copy is in the directory, and nothing else has changed. -/
structure Copied (w₀ : World σ) (target : Units) (place : Nat) (w : World σ) : Prop where
  db : w.db = w₀.db
  working : w.working = w₀.working
  names : w.backups.names = Directory.listing place target w₀.backups.names
  content : w.backups.lookup target = some (.copy w₀.db)

theorem triple_backup (w₀ : World σ) :
    Triple (· = w₀) (backupBeforeMigrating run firstPending)
      (fun target w => target = copyName firstPending run.now ∧
        w.log = w₀.log ++ [.verified w₀.db] ∧ Untouched w₀ w ∧
        w.backups.names = (Directory.listing run.place target w₀.backups.names).filter
          (· ∉ pruned (Directory.listing run.place target w₀.backups.names)))
      (Untouched w₀) (Untouched w₀) := by
  set target := copyName firstPending run.now with htarget
  have hstart : ∀ w, w = w₀ → Untouched w₀ w := by
    rintro w rfl
    exact ⟨rfl, rfl, .inl rfl⟩
  have hcopied : ∀ w, Copied w₀ target run.place w ∧ w.log = w₀.log → Untouched w₀ w :=
    fun w hw => ⟨hw.1.db, hw.1.working, .inl hw.2⟩
  have hverified : ∀ w, Copied w₀ target run.place w ∧ w.log = w₀.log ++ [.verified w₀.db] →
      Untouched w₀ w :=
    fun w hw => ⟨hw.1.db, hw.1.working, .inr hw.2⟩
  refine .bind (triple_touch hstart hstart) fun _ => ?_
  refine .bind (.op (Q := fun _ w => Copied w₀ target run.place w ∧ w.log = w₀.log)
    (fun w a w' hw h => ?_) hstart hstart) fun _ => ?_
  · obtain ⟨d, hd, hw'⟩ := Fallible.map_eq_ok.1 h
    cases hw'
    obtain rfl : w = w₀ := hw
    obtain ⟨hnames, hcontent⟩ := Directory.vacuumInto_ok hd
    exact ⟨⟨rfl, rfl, hnames, hcontent⟩, rfl⟩
  refine .bind (triple_touch hcopied hcopied) fun _ => ?_
  refine .bind (triple_touch hcopied hcopied) fun _ => ?_
  refine .bind (.op
    (Q := fun _ w => Copied w₀ target run.place w ∧ w.log = w₀.log ++ [.verified w₀.db])
    (fun w a w' hw h => ?_) hcopied hcopied) fun _ => ?_
  · obtain ⟨hw, hlog⟩ := hw
    split at h
    · rename_i content hrows hcontent
      cases h
      have heq := hcontent.symm.trans hw.content
      simp only [Option.some.injEq, Node.copy.injEq] at heq
      exact ⟨⟨hw.db, hw.working, hw.names, hw.content⟩, by rw [heq, hlog]⟩
    · cases h
  refine .bind (triple_touch hverified hverified) fun _ => ?_
  refine .bind (.op (Q := fun old w => old = (w.backups.names.filter isBackup).insertionSort newerFirst ∧
      Copied w₀ target run.place w ∧ w.log = w₀.log ++ [.verified w₀.db])
    (fun w a w' hw h => ?_) hverified hverified) fun old => ?_
  · cases h
    exact ⟨rfl, hw⟩
  refine .of_forall fun w₁ ⟨hold, hw₁, hlog⟩ => ?_
  have hstopped : ∀ w : World σ, w.db = w₁.db ∧ w.working = w₁.working ∧ w.log = w₁.log →
      Untouched w₀ w := fun w ⟨hdb, hworking, hlog'⟩ =>
    ⟨hdb.trans hw₁.db, hworking.trans hw₁.working, .inr (hlog'.trans hlog)⟩
  refine .bind (.mono (triple_rmAll w₁ (old.drop keepMigrationBackups) w₁.backups.names)
    (fun w hw => ?_) (fun _ _ hw => hw) hstopped hstopped) fun _ => .pure fun w hw => ?_
  · obtain rfl : w = w₁ := hw
    exact ⟨rfl, rfl, rfl, rfl⟩
  · refine ⟨rfl, hw.log.trans hlog, hstopped w ⟨hw.db, hw.working, hw.log⟩, ?_⟩
    rw [hw.names, hold, ← hw₁.names]
    rfl

end

/-! ## Which copies stay -/

instance : Std.Total newerFirst := ⟨fun a b => Std.Total.total (r := (· ≤ ·)) (stampOf b) (stampOf a)⟩

instance : IsTrans Units newerFirst := ⟨fun _ _ _ hab hbc => List.le_trans hbc hab⟩

/-- The copies that come before one in the order of pruning: with a later stamp, or with the
same stamp and listed before it. -/
def copiesAhead (target : Units) (names : List Units) : List Units :=
  Ranking.ahead newerFirst target ((names.takeWhile (· ≠ target)).filter isBackup)
    ((names.dropWhile (· ≠ target)).tail.filter isBackup)

theorem split_at {target : Units} {names : List Units} (h : target ∈ names) :
    names = names.takeWhile (· ≠ target) ++ target :: (names.dropWhile (· ≠ target)).tail := by
  induction names with
  | nil => cases h
  | cons n names ih =>
      by_cases hn : n = target
      · rw [List.takeWhile_cons_of_neg (by simpa using hn), List.dropWhile_cons_of_neg (by simpa using hn),
          hn]
        rfl
      · have hmem := (List.mem_cons.1 h).resolve_left (Ne.symm hn)
        rw [List.takeWhile_cons_of_pos (by simpa using hn), List.dropWhile_cons_of_pos (by simpa using hn),
          List.cons_append, ← ih hmem]

section

variable {names : List Units} {target : Units}

theorem mem_sorted {name : Units} :
    name ∈ (names.filter isBackup).insertionSort newerFirst ↔ name ∈ names ∧ isBackup name = true :=
  (List.mem_insertionSort newerFirst).trans List.mem_filter

theorem isBackup_of_mem_pruned {name : Units} (h : name ∈ pruned names) : isBackup name = true :=
  (mem_sorted.1 (List.mem_of_mem_drop h)).2

theorem nodup_sorted (h : names.Nodup) : ((names.filter isBackup).insertionSort newerFirst).Nodup :=
  (List.perm_insertionSort newerFirst _).nodup_iff.2 (h.filter _)

theorem mem_take_sorted {pre post : List Units} (hbackup : isBackup target = true)
    (hnames : (pre ++ target :: post).Nodup) (k : Nat) :
    target ∈ (((pre ++ target :: post).filter isBackup).insertionSort newerFirst).take k ↔
      (Ranking.ahead newerFirst target (pre.filter isBackup) (post.filter isBackup)).length < k := by
  have hnot := (List.nodup_cons.1 (List.nodup_middle.1 hnames)).1
  rw [List.mem_append, not_or] at hnot
  have hfree : ∀ l : List Units, target ∉ l → target ∉ l.filter isBackup :=
    fun l hl h => hl (List.mem_filter.1 h).1
  rw [List.filter_append, List.filter_cons_of_pos hbackup]
  exact Ranking.mem_take_insertionSort newerFirst (hfree pre hnot.1) (hfree post hnot.2) k

/-- A copy is pruned when five others come before it. -/
theorem mem_pruned_iff (hnames : names.Nodup) (hmem : target ∈ names) :
    target ∈ pruned names ↔
      isBackup target = true ∧ keepMigrationBackups ≤ (copiesAhead target names).length := by
  by_cases hbackup : isBackup target = true
  swap
  · exact ⟨fun h => absurd (isBackup_of_mem_pruned h) hbackup, fun h => absurd h.1 hbackup⟩
  have htake : target ∈ ((names.filter isBackup).insertionSort newerFirst).take keepMigrationBackups ↔
      (copiesAhead target names).length < keepMigrationBackups := by
    have hsplit := split_at hmem
    have hmem' := mem_take_sorted hbackup (hsplit ▸ hnames) keepMigrationBackups
    rwa [← hsplit] at hmem'
  have hsorted : target ∈ (names.filter isBackup).insertionSort newerFirst :=
    mem_sorted.2 ⟨hmem, hbackup⟩
  have hnodup := nodup_sorted hnames
  rw [← List.take_append_drop keepMigrationBackups
    ((names.filter isBackup).insertionSort newerFirst)] at hsorted hnodup
  rw [← not_lt, ← htake, and_iff_right hbackup]
  constructor
  · intro hdrop hfirst
    exact (List.nodup_append.1 hnodup).2.2 target hfirst target hdrop rfl
  · exact (List.mem_append.1 hsorted).resolve_left

/-- At most five copies are left. -/
theorem length_kept_le (hnames : names.Nodup) :
    ((names.filter (· ∉ pruned names)).filter isBackup).length ≤ keepMigrationBackups := by
  have hperm : ((names.filter (· ∉ pruned names)).filter isBackup).Perm
      (((names.filter isBackup).insertionSort newerFirst).filter (· ∉ pruned names)) := by
    rw [List.filter_comm]
    exact (List.perm_insertionSort newerFirst _).symm.filter _
  have hnodup := nodup_sorted hnames
  rw [hperm.length_eq]
  conv_lhs => rw [← List.take_append_drop keepMigrationBackups
    ((names.filter isBackup).insertionSort newerFirst)]
  have hdrop : (((names.filter isBackup).insertionSort newerFirst).drop keepMigrationBackups).filter
      (· ∉ pruned names) = [] := by
    refine List.filter_eq_nil_iff.2 fun n hn => ?_
    have hpruned : n ∈ pruned names := hn
    simpa only [decide_not, Bool.not_eq_true', decide_eq_false_iff_not, not_not] using hpruned
  rw [List.filter_append, hdrop, List.append_nil]
  exact (List.length_filter_le _ _).trans (List.length_take_le _ _)

theorem nodup_listing {place : Nat} (hnames : names.Nodup) :
    (Directory.listing place target names).Nodup := by
  rw [Directory.listing]
  split
  · exact hnames
  · rename_i h
    refine List.nodup_middle.2 (List.nodup_cons.2 ⟨?_, ?_⟩)
    · rwa [List.take_append_drop]
    · rwa [List.take_append_drop]

end

/-- A call keeps the copy it makes exactly when fewer than five others come before it.
Always at most five copies stay, and no other file is removed. -/
theorem copy_survives_iff {σ : Type} {run : CopyRun} {firstPending target : Units} {w w' : World σ}
    {fs fs' : List Fault}
    (h : backupBeforeMigrating run firstPending w fs = (.done target, w', fs')) :
    (target ∈ w'.backups.names ∧
      (w'.backups.names.filter isBackup).length ≤ keepMigrationBackups ∧
      ∀ name ∈ w.backups.names, isBackup name = false → name ∈ w'.backups.names) ↔
    (isBackup (copyName firstPending run.now) = true →
      (copiesAhead (copyName firstPending run.now) (Directory.listing run.place
        (copyName firstPending run.now) w.backups.names)).length < keepMigrationBackups) := by
  obtain ⟨rfl, -, -, hnames⟩ := (triple_backup w).of_done rfl h
  set target := copyName firstPending run.now
  set listed := Directory.listing run.place target w.backups.names with hlisted
  have hnodup : listed.Nodup := nodup_listing w.backups.nodup
  have hmem : target ∈ listed := Directory.mem_listing.2 (.inl rfl)
  have hkept : ∀ name, name ∈ w'.backups.names ↔ name ∈ listed ∧ name ∉ pruned listed := by
    intro name
    rw [hnames, List.mem_filter, decide_eq_true_eq]
  have hothers : ∀ name ∈ w.backups.names, isBackup name = false → name ∈ w'.backups.names := by
    intro name hname hforeign
    refine (hkept name).2 ⟨Directory.mem_listing.2 (.inr hname), fun hpruned => ?_⟩
    rw [isBackup_of_mem_pruned hpruned] at hforeign
    cases hforeign
  have hcount : (w'.backups.names.filter isBackup).length ≤ keepMigrationBackups := by
    rw [hnames]
    exact length_kept_le hnodup
  rw [hkept, mem_pruned_iff hnodup hmem]
  constructor
  · rintro ⟨⟨-, hpruned⟩, -, -⟩ hbackup
    by_contra hahead
    exact hpruned ⟨hbackup, not_lt.1 hahead⟩
  · intro hsurvives
    exact ⟨⟨hmem, fun ⟨hbackup, hahead⟩ => not_lt.2 hahead (hsurvives hbackup)⟩, hcount, hothers⟩

/-- Five copies of the year 2099 and a file of the operator's. -/
def futureBackups : Directory (Database Unit) where
  entries := [(text "before-001_x-20990101T000000Z.sqlite", .foreign),
    (text "before-002_x-20990102T000000Z.sqlite", .foreign),
    (text "before-003_x-20990103T000000Z.sqlite", .foreign),
    (text "before-004_x-20990104T000000Z.sqlite", .foreign),
    (text "before-005_x-20990105T000000Z.sqlite", .foreign),
    (text "operator-notes.txt", .foreign)]
  nodup := by decide +kernel

def sampleWorld (backups : Directory (Database Unit)) : World Unit where
  db := ⟨some [text "001_init.sql"], ()⟩
  working := none
  backups := backups
  log := []

def sampleRun : CopyRun := ⟨0, 2, ["ok"]⟩

/-- The call that made the copy removes it. -/
theorem fresh_copy_removed :
    let target := copyName (text "002_x.sql") 0
    let r := backupBeforeMigrating sampleRun (text "002_x.sql") (sampleWorld futureBackups) []
    r.1 = .done target ∧ target = text "before-002_x-19700101T000000Z.sqlite" ∧
      target ∉ r.2.1.backups.names := by
  decide +kernel

/-- In a directory without copies the new one stays. -/
theorem copy_survives_sample :
    let w := sampleWorld ⟨[], List.nodup_nil⟩
    let r := backupBeforeMigrating sampleRun (text "002_x.sql") w []
    copyName (text "002_x.sql") 0 ∈ r.2.1.backups.names := by
  have hdone : (backupBeforeMigrating sampleRun (text "002_x.sql")
      (sampleWorld ⟨[], List.nodup_nil⟩) []).1 = .done (copyName (text "002_x.sql") 0) := by
    decide +kernel
  exact ((copy_survives_iff (Prod.ext hdone rfl)).2 fun _ => by decide +kernel).1

end Schema

end Outletbox
