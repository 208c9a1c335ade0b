import Outletbox.Backups

/-!
# Upgrades

`migrate` on every database, with every set of scripts, whatever fails and
wherever the process ends.  A script and its row in `schema_migrations` are
committed together, so what is committed is always the result of the first
scripts that were pending, and the next start goes on with the others.

This rests on the scripts leaving `schema_migrations` alone.
-/

namespace Outletbox

namespace Schema

open Utf16 Crash

variable {σ : Type}

/-! ## What scripts do to a database -/

/-- The statements of a script, one after the other. -/
def runStatements (ss : List (Statement σ)) (d : Database σ) : Except String (Database σ) :=
  ss.foldlM (fun d s => s d) d

/-- A script and its row. -/
def runScript (f : Script σ) (d : Database σ) : Except String (Database σ) :=
  runStatements f.statements d >>= insertMigration f.name

/-- Scripts, one after the other. -/
def applyAll : List (Script σ) → Database σ → Except String (Database σ)
  | [], d => .ok d
  | f :: fs, d => runScript f d >>= applyAll fs

theorem applyAll_append (fs gs : List (Script σ)) (d : Database σ) :
    applyAll (fs ++ gs) d = applyAll fs d >>= applyAll gs := by
  induction fs generalizing d with
  | nil => rfl
  | cons f fs ih =>
      rw [List.cons_append, applyAll, applyAll]
      cases runScript f d with
      | error e => rfl
      | ok d' => exact ih d'

/-- A database with its table of migrations. -/
def created (d : Database σ) : Database σ := { d with migrations := some (d.migrations.getD []) }

theorem created_eq_self {d : Database σ} (h : d.migrations.isSome = true) : created d = d := by
  obtain ⟨names, hnames⟩ := Option.isSome_iff_exists.1 h
  rw [created, hnames, Option.getD_some, ← hnames]

/-- No statement of a script touches `schema_migrations`. -/
def KeepsBookkeeping (f : Script σ) : Prop :=
  ∀ s ∈ f.statements, ∀ d d', s d = .ok d' → d'.migrations = d.migrations

section

variable {d d' : Database σ} {f : Script σ} {fs : List (Script σ)}

theorem runStatements_migrations {ss : List (Statement σ)}
    (hss : ∀ s ∈ ss, ∀ d d' : Database σ, s d = .ok d' → d'.migrations = d.migrations)
    (h : runStatements ss d = .ok d') : d'.migrations = d.migrations := by
  induction ss generalizing d with
  | nil =>
      cases h
      rfl
  | cons s ss ih =>
      obtain ⟨hs, hss⟩ := List.forall_mem_cons.1 hss
      rw [runStatements, List.foldlM_cons] at h
      obtain ⟨d₁, hd₁, hrest⟩ := Fallible.bind_eq_ok.1 h
      rw [ih hss hrest, hs d d₁ hd₁]

theorem insertMigration_ok {name : Units} (h : insertMigration name d = .ok d') :
    ∃ names, d.migrations = some names ∧ name ∉ names ∧ d'.migrations = some (names ++ [name]) := by
  rw [insertMigration] at h
  cases hnames : d.migrations with
  | none =>
      rw [hnames] at h
      cases h
  | some names =>
      rw [hnames] at h
      obtain ⟨hfresh, hd'⟩ := Fallible.guard_eq_ok.1 h
      cases hd'
      exact ⟨names, rfl, hfresh, rfl⟩

/-- The rows record exactly the scripts that were applied. -/
theorem applyAll_migrations (hfs : ∀ f ∈ fs, KeepsBookkeeping f) (h : applyAll fs d = .ok d') :
    d'.migrations.getD [] = d.migrations.getD [] ++ fs.map Script.name ∧
      (d.migrations.isSome = true → d'.migrations.isSome = true) := by
  induction fs generalizing d with
  | nil =>
      cases h
      exact ⟨(List.append_nil _).symm, id⟩
  | cons f fs ih =>
      obtain ⟨hf, hfs⟩ := List.forall_mem_cons.1 hfs
      obtain ⟨d₁, hd₁, hrest⟩ := Fallible.bind_eq_ok.1 h
      obtain ⟨d₂, hd₂, hinsert⟩ := Fallible.bind_eq_ok.1 hd₁
      obtain ⟨names, hnames, -, hnames'⟩ := insertMigration_ok hinsert
      rw [runStatements_migrations hf hd₂] at hnames
      obtain ⟨hrows, hsome⟩ := ih hfs hrest
      rw [hrows, hnames, hnames', List.map_cons]
      refine ⟨?_, fun _ => hsome (by rw [hnames']; rfl)⟩
      rw [Option.getD_some, Option.getD_some, List.append_assoc, List.singleton_append]

end

/-! ## The loop -/

section

variable {G : List (Event σ) → Prop} {base d : Database σ} {f : Script σ}

/-- No transaction is open. -/
structure Idle (G : List (Event σ) → Prop) (d : Database σ) (w : World σ) : Prop where
  db : w.db = d
  working : w.working = none
  log : G w.log

/-- A transaction has come as far as `d`. -/
structure InTransaction (G : List (Event σ) → Prop) (base d : Database σ) (w : World σ) : Prop where
  db : w.db = base
  working : w.working = some d
  log : G w.log

/-- What is committed, whether or not a transaction is open. -/
structure Committed (G : List (Event σ) → Prop) (base : Database σ) (w : World σ) : Prop where
  db : w.db = base
  log : G w.log

theorem InTransaction.committed {w : World σ} (h : InTransaction G base d w) : Committed G base w :=
  ⟨h.db, h.log⟩

theorem Idle.committed {w : World σ} (h : Idle G base w) : Committed G base w := ⟨h.db, h.log⟩

theorem triple_exec {s : Statement σ} :
    Triple (InTransaction G base d) (exec s) (fun _ w => ∃ d', s d = .ok d' ∧
      InTransaction G base d' w) (Committed G base) (Committed G base) := by
  refine .op (fun w a w' hw h => ?_) (fun _ => InTransaction.committed) fun _ =>
    InTransaction.committed
  obtain ⟨d', hd', hw'⟩ := Fallible.map_eq_ok.1 h
  rw [World.current, hw.working, Option.getD_some] at hd'
  rw [hw.working, Option.isSome_some, if_pos rfl] at hw'
  cases hw'
  exact ⟨d', hd', hw.db, rfl, hw.log⟩

theorem triple_note {name : Units} (hG : ∀ log, G log → G (log ++ [.executed name])) :
    Triple (InTransaction G base d) (note name) (fun _ => InTransaction G base d) (Committed G base)
      (Committed G base) := by
  refine .op (fun w a w' hw h => ?_) (fun _ => InTransaction.committed) fun _ =>
    InTransaction.committed
  cases h
  exact ⟨hw.db, hw.working, hG _ hw.log⟩

theorem triple_execAll {name : Units} (hG : ∀ log, G log → G (log ++ [.executed name]))
    (ss : List (Statement σ)) (d : Database σ) :
    Triple (InTransaction G base d) (execAll name ss) (fun _ w => ∃ d', runStatements ss d = .ok d' ∧
      InTransaction G base d' w) (Committed G base) (Committed G base) := by
  induction ss generalizing d with
  | nil => exact .pure fun w hw => ⟨d, rfl, hw⟩
  | cons s ss ih =>
      refine .bind (triple_note hG) fun _ => .bind triple_exec fun _ => .of_forall fun w₁ ⟨d₁, hd₁, hw₁⟩ => ?_
      refine .mono (ih d₁) (fun w hw => hw ▸ hw₁) (fun _ w ⟨d', hd', hw⟩ => ⟨d', ?_, hw⟩)
        (fun _ hw => hw) fun _ hw => hw
      rw [runStatements, List.foldlM_cons]
      exact Fallible.bind_eq_ok.2 ⟨d₁, hd₁, hd'⟩

/-- A transaction commits what its body has made of the database, or nothing. -/
theorem triple_transaction {α : Type} {fn : Cmd (World σ) α} {R : Database σ → Prop}
    (hfn : Triple (InTransaction G base base) fn (fun _ w => ∃ d', R d' ∧ InTransaction G base d' w)
      (Committed G base) (Committed G base)) :
    Triple (Idle G base) (transaction fn) (fun _ w => ∃ d', R d' ∧ Idle G d' w)
      (Committed G base) (Committed G base) := by
  refine .bind (.op (Q := fun _ => InTransaction G base base) (fun w a w' hw h => ?_)
    (fun _ => Idle.committed) fun _ => Idle.committed) fun _ => ?_
  · rw [hw.working, Option.isSome_none, if_neg Bool.false_ne_true] at h
    cases h
    exact ⟨hw.db, congrArg some hw.db, hw.log⟩
  refine .tryCatch (.bind hfn fun a => ?_) fun e => ?_
  · refine .bind (.op (Q := fun _ w => ∃ d', R d' ∧ Idle G d' w) (fun w a w' hw h => ?_)
      (fun w ⟨_, _, hw⟩ => hw.committed) fun w ⟨_, _, hw⟩ => hw.committed) fun _ => .pure fun _ hw => hw
    obtain ⟨d', hd', hw⟩ := hw
    simp only [hw.working] at h
    cases h
    exact ⟨d', hd', rfl, rfl, hw.log⟩
  · -- a failed rollback is ignored: nothing is committed either way
    have hrollback : Triple (Committed G base) rollback (fun _ => Committed G base) (Committed G base)
        (Committed G base) := by
      refine .op (fun w a w' hw h => ?_) (fun _ hw => hw) fun _ hw => hw
      split at h
      · cases h
        exact ⟨hw.db, hw.log⟩
      · cases h
    refine .bind (.tryCatch hrollback fun _ => .pure fun _ hw => hw) fun _ => .throw fun _ hw => hw

/-- A script and its row are committed together. -/
theorem triple_script (hG : ∀ log, G log → G (log ++ [.executed f.name])) :
    Triple (Idle G base)
      (transaction do
        execAll f.name f.statements
        note f.name
        exec (insertMigration f.name))
      (fun _ w => ∃ d', runScript f base = .ok d' ∧ Idle G d' w) (Committed G base)
      (Committed G base) := by
  refine triple_transaction (.bind (triple_execAll hG f.statements base) fun _ => ?_)
  refine .of_forall fun w₁ ⟨d₁, hd₁, hw₁⟩ => ?_
  refine .mono (.bind (triple_note hG) fun _ => triple_exec) (fun w hw => hw ▸ hw₁)
    (fun _ w ⟨d', hd', hw⟩ => ⟨d', ?_, hw⟩) (fun _ hw => hw) fun _ hw => hw
  exact Fallible.bind_eq_ok.2 ⟨d₁, hd₁, hd'⟩

/-- The first of some scripts were applied to a database. -/
def Applied (G : List (Event σ) → Prop) (todo : List (Script σ)) (d : Database σ) (w : World σ) :
    Prop :=
  (∃ k ≤ todo.length, applyAll (todo.take k) d = .ok w.db) ∧ G w.log

theorem triple_runPending (applied : List Units) (fs : List (Script σ)) (d : Database σ)
    (hG : ∀ f ∈ fs.filter fun f => f.name ∉ applied, ∀ log, G log → G (log ++ [.executed f.name])) :
    let todo := fs.filter fun f => f.name ∉ applied
    Triple (Idle G d) (runPending applied fs)
      (fun ran w => ran = todo.map Script.name ∧ applyAll todo d = .ok w.db ∧ G w.log)
      (Applied G todo d) (Applied G todo d) := by
  induction fs generalizing d with
  | nil => exact .pure fun w hw => ⟨rfl, by rw [hw.db]; rfl, hw.log⟩
  | cons f fs ih =>
      by_cases hf : f.name ∈ applied
      · rw [List.filter_cons_of_neg (by simpa using hf)] at hG ⊢
        rw [runPending, if_pos hf]
        exact ih d hG
      rw [List.filter_cons_of_pos (by simpa using hf)] at hG ⊢
      rw [runPending, if_neg hf]
      obtain ⟨hGf, hG⟩ := List.forall_mem_cons.1 hG
      set todo := fs.filter fun f => f.name ∉ applied
      have hnone : ∀ w, Committed G d w → Applied G (f :: todo) d w :=
        fun w hw => ⟨⟨0, Nat.zero_le _, by rw [hw.db]; rfl⟩, hw.log⟩
      refine .bind (triple_touch (fun w hw => hnone w hw.committed) fun w hw => hnone w hw.committed)
        fun _ => ?_
      refine .bind (.mono (triple_script hGf) (fun _ hw => hw) (fun _ _ hw => hw) hnone hnone)
        fun _ => .of_forall fun w₁ ⟨d₁, hd₁, hw₁⟩ => ?_
      have happlied : ∀ w, Applied G todo d₁ w → Applied G (f :: todo) d w := by
        rintro w ⟨⟨k, hk, hdb⟩, hlog⟩
        exact ⟨⟨k + 1, Nat.succ_le_succ hk, Fallible.bind_eq_ok.2 ⟨d₁, hd₁, hdb⟩⟩, hlog⟩
      refine .bind (.mono (ih d₁ hG) (fun w hw => hw ▸ hw₁) (fun _ _ hw => hw) happlied happlied)
        fun ran => .pure fun w ⟨hran, hdb, hlog⟩ => ?_
      exact ⟨by rw [hran, List.map_cons], Fallible.bind_eq_ok.2 ⟨d₁, hd₁, hdb⟩, hlog⟩

end

/-! ## A run -/

/-- The scripts a database has no row of, in the order they run. -/
def pendingOf (dir : MigrationsDir σ) (d : Database σ) : List (Script σ) :=
  (sortedScripts dir).filter fun f => f.name ∉ d.migrations.getD []

/-- No script ran before a copy of a database was made and checked. -/
def CopiedFirst (d : Database σ) (log : List (Event σ)) : Prop :=
  ∀ pre name post, log = pre ++ .executed name :: post → .verified d ∈ pre

theorem copiedFirst_append {d : Database σ} {log : List (Event σ)} (name : Units)
    (hmem : .verified d ∈ log) (h : CopiedFirst d log) :
    CopiedFirst d (log ++ [.executed name]) := by
  intro pre name' post heq
  rcases List.append_eq_append_iff.1 heq with ⟨mid, hpre, -⟩ | ⟨mid, hlog, hmid⟩
  · rw [hpre]
    exact List.mem_append_left _ hmem
  · cases mid with
    | nil =>
        rw [List.append_nil] at hlog
        rwa [← hlog]
    | cons e mid =>
        rw [List.cons_append, List.cons.injEq] at hmid
        exact h pre name' mid (by rw [hlog, hmid.1])

section

variable {run : CopyRun} {dir : MigrationsDir σ} {backupDir : Bool} {w₀ : World σ}

/-- Where a copy is needed, it has been made when the scripts start. -/
def Copies (dir : MigrationsDir σ) (backupDir : Bool) (d : Database σ) (log : List (Event σ)) : Prop :=
  backupDir = true → d.migrations.getD [] ≠ [] →
    CopiedFirst d log ∧ (pendingOf dir d ≠ [] → .verified d ∈ log)

/-- What a run may leave, wherever it stops. -/
structure Stopped (dir : MigrationsDir σ) (backupDir : Bool) (w₀ w : World σ) : Prop where
  db : w.db = w₀.db ∨ ∃ k ≤ (pendingOf dir w₀.db).length,
    applyAll ((pendingOf dir w₀.db).take k) (created w₀.db) = .ok w.db
  copied : backupDir = true → w₀.db.migrations.getD [] ≠ [] → CopiedFirst w₀.db w.log

theorem stopped_of_created {w : World σ} (hdb : w.db = created w₀.db)
    (hlog : CopiedFirst w₀.db w.log) : Stopped dir backupDir w₀ w :=
  ⟨.inr ⟨0, Nat.zero_le _, by rw [hdb]; rfl⟩, fun _ _ => hlog⟩

theorem copiedFirst_nil (d : Database σ) : CopiedFirst d [] := by
  intro pre name post h
  exact absurd h (List.append_ne_nil_of_right_ne_nil _ (List.cons_ne_nil _ _)).symm

theorem copiedFirst_verified (d d' : Database σ) : CopiedFirst d [.verified d'] := by
  intro pre name post h
  cases pre with
  | nil => cases h
  | cons e pre =>
      rw [List.cons_append, List.cons.injEq] at h
      exact absurd h.2 (List.append_ne_nil_of_right_ne_nil _ (List.cons_ne_nil _ _)).symm

/-- The copy is taken of the database the run started from. -/
theorem triple_copyFirst :
    Triple (Idle (· = []) (created w₀.db))
      (copyFirst run backupDir (w₀.db.migrations.getD []) (pendingOf dir w₀.db))
      (fun _ => Idle (Copies dir backupDir w₀.db) (created w₀.db))
      (Stopped dir backupDir w₀) (Stopped dir backupDir w₀) := by
  cases hpending : pendingOf dir w₀.db with
  | nil =>
      refine .pure fun w hw => ⟨hw.db, hw.working, fun _ _ => ⟨hw.log ▸ copiedFirst_nil _, ?_⟩⟩
      exact fun h => absurd hpending h
  | cons first rest =>
      rw [copyFirst]
      by_cases hneeded : (!(w₀.db.migrations.getD []).isEmpty && backupDir) = true
      · rw [if_pos hneeded]
        simp only [Bool.and_eq_true, Bool.not_eq_true', List.isEmpty_eq_false_iff] at hneeded
        have hcreated : created w₀.db = w₀.db := by
          refine created_eq_self (Option.isSome_iff_ne_none.2 fun hnone => hneeded.1 ?_)
          rw [hnone, Option.getD_none]
        rw [hcreated]
        refine .of_forall fun w₁ hw₁ => ?_
        have hstopped : ∀ w, Untouched w₁ w → Stopped dir backupDir w₀ w := by
          intro w hw
          refine stopped_of_created (by rw [hw.db, hw₁.db, hcreated]) ?_
          rcases hw.log with hlog' | hlog'
          · rw [hlog', hw₁.log]
            exact copiedFirst_nil _
          · rw [hlog', hw₁.log]
            exact copiedFirst_verified _ _
        refine .bind (.mono (triple_backup w₁) (fun _ hw => hw) (fun _ _ hw => hw) hstopped hstopped)
          fun target => .pure fun w ⟨_, hlog', hw, _⟩ => ?_
        rw [hw₁.log, hw₁.db, List.nil_append] at hlog'
        refine ⟨hw.db.trans hw₁.db, hw.working.trans hw₁.working, fun _ _ => ?_⟩
        rw [hlog']
        exact ⟨copiedFirst_verified _ _, fun _ => List.mem_singleton.2 rfl⟩
      · rw [if_neg hneeded]
        refine .pure fun w hw => ⟨hw.db, hw.working, fun hdir hrows => absurd ?_ hneeded⟩
        rw [hdir, Bool.and_true, Bool.not_eq_true', List.isEmpty_eq_false_iff]
        exact hrows

theorem triple_migrate (hworking : w₀.working = none) (hlog : w₀.log = []) :
    Triple (· = w₀) (migrate run dir backupDir)
      (fun ran w => ran = (pendingOf dir w₀.db).map Script.name ∧
        applyAll (pendingOf dir w₀.db) (created w₀.db) = .ok w.db ∧ Stopped dir backupDir w₀ w)
      (Stopped dir backupDir w₀) (Stopped dir backupDir w₀) := by
  have hstart : ∀ w, w = w₀ → Stopped dir backupDir w₀ w := by
    rintro w rfl
    exact ⟨.inl rfl, fun _ _ => hlog ▸ copiedFirst_nil _⟩
  have hcreated : ∀ w, Idle (· = []) (created w₀.db) w → Stopped dir backupDir w₀ w :=
    fun w hw => stopped_of_created hw.db (hw.log ▸ copiedFirst_nil _)
  refine .bind (.op (Q := fun _ => Idle (· = []) (created w₀.db)) (fun w a w' hw h => ?_)
    hstart hstart) fun _ => ?_
  · obtain rfl : w = w₀ := hw
    obtain ⟨d', hd', hw'⟩ := Fallible.map_eq_ok.1 h
    rw [World.current, hworking, Option.getD_none] at hd'
    cases hd'
    rw [hworking, Option.isSome_none, if_neg Bool.false_ne_true] at hw'
    cases hw'
    exact ⟨rfl, rfl, hlog⟩
  refine .bind (.op (Q := fun applied w => applied = w₀.db.migrations.getD [] ∧
      Idle (· = []) (created w₀.db) w) (fun w a w' hw h => ?_) hcreated hcreated) fun applied => ?_
  · rw [World.current, hw.working, Option.getD_none, hw.db] at h
    cases h
    exact ⟨rfl, hw⟩
  refine .of_forall fun w₁ ⟨happlied, hw₁⟩ => ?_
  subst happlied
  have hw₁' : ∀ w, w = w₁ → Stopped dir backupDir w₀ w := fun w hw => hcreated w (hw ▸ hw₁)
  refine .bind (triple_touch hw₁' hw₁') fun _ => ?_
  refine .bind (.mono triple_copyFirst (fun w hw => hw ▸ hw₁) (fun _ _ hw => hw)
    (fun _ hw => hw) fun _ hw => hw) fun _ => ?_
  have hG : ∀ f ∈ pendingOf dir w₀.db, ∀ log, Copies dir backupDir w₀.db log →
      Copies dir backupDir w₀.db (log ++ [.executed f.name]) := by
    intro f hf log hcopies hdir hrows
    obtain ⟨hfirst, hmem⟩ := hcopies hdir hrows
    have hverified := hmem (List.ne_nil_of_mem hf)
    exact ⟨copiedFirst_append f.name hverified hfirst, fun _ => List.mem_append_left _ hverified⟩
  have hstopped : ∀ w, Applied (Copies dir backupDir w₀.db) (pendingOf dir w₀.db) (created w₀.db) w →
      Stopped dir backupDir w₀ w :=
    fun w ⟨hdb, hcopies⟩ => ⟨.inr hdb, fun hdir hrows => (hcopies hdir hrows).1⟩
  refine .mono (triple_runPending _ (sortedScripts dir) (created w₀.db) hG) (fun _ hw => hw)
    (fun ran w ⟨hran, hdb, hcopies⟩ => ⟨hran, hdb, hstopped w ⟨⟨_, le_refl _, ?_⟩, hcopies⟩⟩)
    hstopped hstopped
  rwa [List.take_length]

theorem runPending_nil {applied : List Units} {fs : List (Script σ)}
    (h : (fs.filter fun f => f.name ∉ applied) = []) : runPending applied fs = pure [] := by
  induction fs with
  | nil => rfl
  | cons f fs ih =>
      by_cases hf : f.name ∈ applied
      · rw [List.filter_cons_of_neg (by simpa using hf)] at h
        rw [runPending, if_pos hf, ih h]
      · rw [List.filter_cons_of_pos (by simpa using hf)] at h
        cases h

/-- A database that has every row is left as it is, and nothing is copied. -/
theorem triple_upToDate (hworking : w₀.working = none) (hrows : w₀.db.migrations.isSome = true)
    (hpending : pendingOf dir w₀.db = []) :
    Triple (· = w₀) (migrate run dir backupDir) (fun _ => (· = w₀)) (· = w₀) (· = w₀) := by
  refine .bind (.op (Q := fun _ => (· = w₀)) (fun w a w' hw h => ?_) (fun _ hw => hw) fun _ hw => hw)
    fun _ => ?_
  · obtain rfl : w = w₀ := hw
    obtain ⟨d', hd', hw'⟩ := Fallible.map_eq_ok.1 h
    rw [World.current, hworking, Option.getD_none] at hd'
    have hd : d' = w.db := (Except.ok.inj hd').symm.trans (created_eq_self hrows)
    rw [hworking, Option.isSome_none, if_neg Bool.false_ne_true, hd] at hw'
    cases hw'
    rw [← hworking]
  refine .bind (.op (Q := fun applied w => applied = w₀.db.migrations.getD [] ∧ w = w₀)
    (fun w a w' hw h => ?_) (fun _ hw => hw) fun _ hw => hw) fun applied => ?_
  · obtain rfl : w = w₀ := hw
    rw [World.current, hworking, Option.getD_none] at h
    obtain ⟨names, hnames⟩ := Option.isSome_iff_exists.1 hrows
    rw [hnames] at h ⊢
    cases h
    exact ⟨rfl, rfl⟩
  refine .of_forall fun w₁ ⟨happlied, hw₁⟩ => ?_
  subst happlied hw₁
  refine .bind (triple_touch (fun _ hw => hw) fun _ hw => hw) fun _ => ?_
  have hnone : (sortedScripts dir).filter (fun f => f.name ∉ w₁.db.migrations.getD []) = [] := hpending
  simp only [hnone, copyFirst, runPending_nil hnone]
  exact .bind (.pure fun _ hw => hw) fun _ => .pure fun _ hw => hw

end

/-! ## Every run -/

section

variable {dir : MigrationsDir σ} {d d' : Database σ}

theorem nodup_pendingOf (dir : MigrationsDir σ) (d : Database σ) :
    ((pendingOf dir d).map Script.name).Nodup := by
  have hsorted : ((sortedScripts dir).map Script.name).Nodup := by
    rw [sortedScripts, ((List.perm_insertionSort _ _).map Script.name).nodup_iff]
    exact dir.nodup.sublist (List.filter_sublist.map _)
  exact hsorted.sublist (List.filter_sublist.map _)

/-- The scripts run in the order of their names. -/
theorem sorted_pendingOf (dir : MigrationsDir σ) (d : Database σ) :
    (pendingOf dir d).Pairwise fun f g => f.name ≤ g.name := by
  have htotal : Std.Total fun f g : Script σ => f.name ≤ g.name :=
    ⟨fun f g => Std.Total.total (r := (· ≤ ·)) f.name g.name⟩
  have htrans : IsTrans (Script σ) fun f g => f.name ≤ g.name := ⟨fun _ _ _ => List.le_trans⟩
  exact (List.pairwise_insertionSort _ _).filter _

theorem keepsBookkeeping_of_mem (hkeep : ∀ f ∈ dir.files, KeepsBookkeeping f) :
    ∀ f ∈ pendingOf dir d, KeepsBookkeeping f := by
  intro f hf
  have hsorted := (List.mem_insertionSort _).1 (List.mem_filter.1 hf).1
  exact hkeep f (List.mem_filter.1 hsorted).1

theorem pendingOf_append {taken : List Units}
    (hrows : d'.migrations.getD [] = d.migrations.getD [] ++ taken) :
    pendingOf dir d' = (pendingOf dir d).filter fun f => f.name ∉ taken := by
  rw [pendingOf, pendingOf, List.filter_filter, hrows]
  refine List.filter_congr fun f _ => ?_
  simp only [List.mem_append, not_or, Bool.decide_and, Bool.and_comm]

/-- What is pending after the first scripts that were. -/
theorem pendingOf_eq_drop {k : Nat} (hrows : d'.migrations.getD [] =
    d.migrations.getD [] ++ ((pendingOf dir d).take k).map Script.name) :
    pendingOf dir d' = (pendingOf dir d).drop k := by
  have hnodup := nodup_pendingOf dir d
  rw [pendingOf_append hrows]
  conv_lhs => rw [← List.take_append_drop k (pendingOf dir d)]
  rw [← List.take_append_drop k (pendingOf dir d), List.map_append] at hnodup
  have htake : ((pendingOf dir d).take k).filter
      (fun f => f.name ∉ ((pendingOf dir d).take k).map Script.name) = [] := by
    refine List.filter_eq_nil_iff.2 fun f hf => ?_
    simp only [List.mem_map_of_mem hf, not_true_eq_false, decide_false, Bool.false_eq_true,
      not_false_eq_true]
  have hdrop : ((pendingOf dir d).drop k).filter
      (fun f => f.name ∉ ((pendingOf dir d).take k).map Script.name) = (pendingOf dir d).drop k := by
    refine List.filter_eq_self.2 fun f hf => decide_eq_true fun hmem => ?_
    exact (List.nodup_append.1 hnodup).2.2 _ hmem _ (List.mem_map_of_mem hf) rfl
  rw [List.filter_append, List.take_append_drop, htake, hdrop, List.nil_append]

/-- The world a start of the program finds. -/
def fresh (d : Database σ) (backups : Directory (Database σ)) : World σ := ⟨d, none, backups, []⟩

/-- Wherever a run stops, the first of the pending scripts were applied, and the rows say
which; the next run applies the others. -/
theorem stopped_prefix (hkeep : ∀ f ∈ dir.files, KeepsBookkeeping f)
    (h : d' = d ∨ ∃ k ≤ (pendingOf dir d).length,
      applyAll ((pendingOf dir d).take k) (created d) = .ok d') :
    ∃ k ≤ (pendingOf dir d).length,
      (k = 0 ∧ d' = d ∨ applyAll ((pendingOf dir d).take k) (created d) = .ok d') ∧
      d'.migrations.getD [] = d.migrations.getD [] ++ ((pendingOf dir d).take k).map Script.name ∧
      (created d' = d' ∨ k = 0 ∧ d' = d) := by
  rcases h with rfl | ⟨k, hk, happly⟩
  · exact ⟨0, Nat.zero_le _, .inl ⟨rfl, rfl⟩, (List.append_nil _).symm, .inr ⟨rfl, rfl⟩⟩
  · have hkeep' : ∀ f ∈ (pendingOf dir d).take k, KeepsBookkeeping f :=
      fun f hf => keepsBookkeeping_of_mem hkeep f (List.mem_of_mem_take hf)
    obtain ⟨hrows, hsome⟩ := applyAll_migrations hkeep' happly
    exact ⟨k, hk, .inr happly, hrows, .inl (created_eq_self (hsome rfl))⟩

/-- Migrations are atomic and resumable, when the scripts leave `schema_migrations` alone. -/
theorem migrations_atomic_and_resumable (dir : MigrationsDir σ)
    (hkeep : ∀ f ∈ dir.files, KeepsBookkeeping f) (run : CopyRun) (backupDir : Bool)
    (d : Database σ) (backups : Directory (Database σ)) (fs : List Fault) :
    let r := migrate run dir backupDir (fresh d backups) fs
    let pending := pendingOf dir d
    (pending.Pairwise fun f g => f.name ≤ g.name) ∧
    (∃ k ≤ pending.length,
      (k = 0 ∧ r.2.1.db = d ∨ applyAll (pending.take k) (created d) = .ok r.2.1.db) ∧
      r.2.1.db.migrations.getD [] = d.migrations.getD [] ++ (pending.take k).map Script.name ∧
      ∀ run' backupDir' backups' fs' ran w fs'',
        migrate run' dir backupDir' (fresh r.2.1.db backups') fs' = (.done ran, w, fs'') →
          ran = (pending.drop k).map Script.name ∧ applyAll pending (created d) = .ok w.db) ∧
    (∀ ran, r.1 = .done ran → ran = pending.map Script.name ∧
      applyAll pending (created d) = .ok r.2.1.db) ∧
    (pending = [] → d.migrations.isSome = true → r.2.1.db = d ∧ r.2.1.backups = backups) ∧
    (backupDir = true → d.migrations.getD [] ≠ [] → CopiedFirst d r.2.1.log) := by
  have hmigrate : ∀ run backupDir d backups, Triple (· = fresh d backups) (migrate run dir backupDir)
      (fun ran w => ran = (pendingOf dir d).map Script.name ∧
        applyAll (pendingOf dir d) (created d) = .ok w.db ∧ Stopped dir backupDir (fresh d backups) w)
      (Stopped dir backupDir (fresh d backups)) (Stopped dir backupDir (fresh d backups)) :=
    fun run backupDir d backups => triple_migrate rfl rfl
  intro r pending
  have hstopped : Stopped dir backupDir (fresh d backups) r.2.1 :=
    (hmigrate run backupDir d backups).mono (fun _ hw => hw) (fun _ _ hw => hw.2.2)
      (fun _ hw => hw) (fun _ hw => hw) |>.ends _ fs rfl
  obtain ⟨k, hk, hdb, hrows, hcreated⟩ := stopped_prefix hkeep hstopped.db
  refine ⟨sorted_pendingOf dir d, ⟨k, hk, hdb, hrows, ?_⟩, ?_, ?_, hstopped.copied⟩
  · intro run' backupDir' backups' fs' ran w fs'' hdone
    obtain ⟨hran, happly, -⟩ := (hmigrate run' backupDir' r.2.1.db backups').of_done rfl hdone
    rw [pendingOf_eq_drop hrows] at hran happly
    refine ⟨hran, ?_⟩
    rcases hcreated with hcreated | ⟨rfl, hsame⟩
    · rcases hdb with ⟨rfl, hsame⟩ | hprefix
      · rwa [hsame] at happly
      · rw [hcreated] at happly
        have hall : applyAll (pending.take k ++ pending.drop k) (created d) = .ok w.db := by
          rw [applyAll_append]
          exact Fallible.bind_eq_ok.2 ⟨_, hprefix, happly⟩
        rwa [List.take_append_drop] at hall
    · rwa [hsame] at happly
  · intro ran hran
    obtain ⟨hran, happly, -⟩ := (hmigrate run backupDir d backups).of_done rfl (Prod.ext hran rfl)
    exact ⟨hran, happly⟩
  · intro hpending hsome
    have htriple := @triple_upToDate _ run dir backupDir (fresh d backups) rfl hsome hpending
    have hsame : r.2.1 = fresh d backups := htriple.ends _ fs rfl
    rw [hsame]
    exact ⟨rfl, rfl⟩

end

/-- Two scripts that count, and one that forgets what was recorded. -/
def counting : MigrationsDir Nat where
  files := [⟨text "002_twice.sql", [fun d => .ok { d with tables := d.tables + 1 },
      fun d => .ok { d with tables := d.tables + 1 }]⟩,
    ⟨text "001_once.sql", [fun d => .ok { d with tables := d.tables + 1 }]⟩]
  nodup := by decide +kernel

def forgetting : MigrationsDir Nat where
  files := [⟨text "001_once.sql", [fun d => .ok { d with tables := d.tables + 1 }]⟩,
    ⟨text "002_forget.sql", [fun d => .ok { d with migrations := some [] }]⟩]
  nodup := by decide +kernel

theorem counting_keeps : ∀ f ∈ counting.files, KeepsBookkeeping f := by
  intro f hf
  have hstatement : ∀ s ∈ f.statements, s = fun d => .ok { d with tables := d.tables + 1 } := by
    rcases List.mem_cons.1 hf with rfl | hf
    · intro s hs
      rcases List.mem_cons.1 hs with rfl | hs
      · rfl
      · exact List.mem_singleton.1 hs
    · rw [List.mem_singleton.1 hf]
      exact fun s hs => List.mem_singleton.1 hs
  intro s hs d d' h
  rw [hstatement s hs] at h
  cases h
  rfl

/-- A crash in the middle of the second script leaves the first. -/
theorem migrations_atomic_and_resumable_crash :
    let r := migrate sampleRun counting true (fresh ⟨none, 0⟩ ⟨[], List.nodup_nil⟩)
      (List.replicate 15 .carriedOut ++ [.crash])
    r.1 = .crashed ∧ r.2.1.db.tables = 1 ∧
      ∃ k ≤ 2, r.2.1.db.migrations.getD [] =
        ((pendingOf counting ⟨none, 0⟩).take k).map Script.name := by
  refine ⟨by decide +kernel, by decide +kernel, ?_⟩
  obtain ⟨k, hk, -, hrows, -⟩ := (migrations_atomic_and_resumable counting counting_keeps sampleRun
    true ⟨none, 0⟩ ⟨[], List.nodup_nil⟩ (List.replicate 15 .carriedOut ++ [.crash])).2.1
  exact ⟨k, hk, hrows⟩

/-- A script that empties `schema_migrations`: the first script was applied and is not
recorded, and the next run applies it again. -/
theorem forgotten_migration :
    let r := migrate sampleRun forgetting false (fresh ⟨none, 0⟩ ⟨[], List.nodup_nil⟩) []
    r.1 = .done [text "001_once.sql", text "002_forget.sql"] ∧
      r.2.1.db.migrations = some [text "002_forget.sql"] ∧
      (migrate sampleRun forgetting false (fresh r.2.1.db r.2.1.backups) []).1 =
        .done [text "001_once.sql"] := by
  decide +kernel

end Schema

end Outletbox
