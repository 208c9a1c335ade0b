import Outletbox.Expiry
import Outletbox.Library.Crash
import Outletbox.Library.Utf16

/-!
# Migrations

The functions of `db.ts` that bring a database up to date: `migrate`, the copy it
takes first, and `transaction`.  Each operation on the database or on a file may
fail, and the process may end before it.  What is committed and what the backup
directory holds is what the next start finds.

A script is a list of statements, each of which changes the database or fails.
-/

namespace Outletbox

namespace Schema

open Utf16 Crash

/-- A database: the names in `schema_migrations`, once there is that table, and
everything else. -/
structure Database (σ : Type) where
  migrations : Option (List Units)
  tables : σ
  deriving DecidableEq

/-- A statement of SQL. -/
abbrev Statement (σ : Type) : Type := Database σ → Except String (Database σ)

/-- A file of the migrations directory. -/
structure Script (σ : Type) where
  name : Units
  statements : List (Statement σ)

/-- The migrations directory, in the order `readdir` lists it. -/
structure MigrationsDir (σ : Type) where
  files : List (Script σ)
  nodup : (files.map Script.name).Nodup

/-! ## The backup directory -/

/-- What a name of a directory stands for. -/
inductive Node (γ : Type)
  | directory
  | empty
  | foreign
  | copy (content : γ)
  deriving DecidableEq

/-- The entries of a directory, in the order `readdir` lists them. -/
structure Directory (γ : Type) where
  entries : List (Units × Node γ)
  nodup : (entries.map Prod.fst).Nodup

namespace Directory

variable {γ : Type}

def names (d : Directory γ) : List Units := d.entries.map Prod.fst

def lookup (name : Units) (d : Directory γ) : Option (Node γ) :=
  (d.entries.find? (·.1 == name)).map Prod.snd

/-- A new entry at a place of the listing. -/
def insert (place : Nat) (name : Units) (node : Node γ) (d : Directory γ) (h : name ∉ d.names) :
    Directory γ where
  entries := d.entries.take place ++ (name, node) :: d.entries.drop place
  nodup := by
    have hd := d.nodup
    rw [← List.take_append_drop place d.entries, List.map_append] at hd
    rw [List.map_append, List.map_cons]
    refine List.nodup_middle.2 (List.nodup_cons.2 ⟨?_, hd⟩)
    rw [← List.map_append, List.take_append_drop]
    exact h

/-- What an entry that exists stands for now. -/
def write (name : Units) (node : Node γ) (d : Directory γ) : Directory γ where
  entries := d.entries.map fun e => if e.1 = name then (e.1, node) else e
  nodup := by
    have hfst : (Prod.fst ∘ fun e : Units × Node γ => if e.1 = name then (e.1, node) else e) =
        Prod.fst := by
      funext e
      by_cases he : e.1 = name
      · simp only [Function.comp_apply, if_pos he]
      · simp only [Function.comp_apply, if_neg he]
    rw [List.map_map, hfst]
    exact d.nodup

def delete (name : Units) (d : Directory γ) : Directory γ where
  entries := d.entries.filter (·.1 ≠ name)
  nodup := d.nodup.sublist (List.filter_sublist.map _)

/-- `VACUUM INTO`: the target must not exist, or be an empty file. -/
def vacuumInto (place : Nat) (target : Units) (content : γ) (d : Directory γ) :
    Except String (Directory γ) :=
  if h : target ∈ d.names then
    match d.lookup target with
    | some .empty => .ok (d.write target (.copy content))
    | _ => .error "output file already exists"
  else .ok (d.insert place target (.copy content) h)

/-- `fs.rmSync(path, { force: true })`. -/
def rmSync (name : Units) (d : Directory γ) : Except String (Directory γ) :=
  match d.lookup name with
  | some .directory => .error "EISDIR"
  | _ => .ok (d.delete name)

end Directory

/-! ## Names of copies -/

/-- Pre-migration copies kept per database. -/
def keepMigrationBackups : Nat := 5

def isDigit (u : UInt16) : Bool := 0x30 ≤ u && u ≤ 0x39

/-- `/^before-.*\.sqlite$/`. -/
def isBackup (name : Units) : Bool :=
  let inner := (name.drop 7).take (name.length - 14)
  name == text "before-" ++ inner ++ text ".sqlite" &&
    inner.all fun u => u != 0x0a && u != 0x0d && u != 0x2028 && u != 0x2029

/-- `/\d{8}T\d{6}Z/`, for a text of its length. -/
def isStamp (s : Units) : Bool :=
  s.length == 16 && (s.take 8).all isDigit && s[8]? == some 0x54 &&
    ((s.drop 9).take 6).all isDigit && s[15]? == some 0x5a

/-- The timestamp at the end of a backup's name, which is what orders them. -/
def stampOf (file : Units) : Units :=
  let tail := file.drop (file.length - 24)
  let stamp := (tail.drop 1).take 16
  if tail == 0x2d :: stamp ++ text ".sqlite" && isStamp stamp then stamp else []

/-- `.sort((a, b) => stampOf(b).localeCompare(stampOf(a)))` puts `a` before `b`.  Stamps
have one form, in which they compare digit by digit. -/
def newerFirst (a b : Units) : Prop := ¬ stampOf a < stampOf b

instance : DecidableRel newerFirst := fun _ _ => inferInstanceAs (Decidable (¬ _))

/-- `iso.replace(/\.\d+Z$/, 'Z')`. -/
def dropFraction (iso : Units) : Units :=
  match iso.reverse with
  | 0x5a :: rest =>
      let digits := rest.takeWhile isDigit
      match rest.dropWhile isDigit with
      | 0x2e :: front => if digits.isEmpty then iso else (0x5a :: front).reverse
      | _ => iso
  | _ => iso

/-- `new Date().toISOString().replace(/[-:]/g, '').replace(/\.\d+Z$/, 'Z')`. -/
def stamp (now : Int) : Units :=
  dropFraction ((text (toISOString now)).filter fun u => u != 0x2d && u != 0x3a)

/-- `s.endsWith(ending)`. -/
def endsWith (ending s : Units) : Bool := s.drop (s.length - ending.length) == ending

/-- `file.replace(/\.sql$/, '')`. -/
def dropSql (file : Units) : Units :=
  if endsWith (text ".sql") file then file.take (file.length - 4) else file

def copyName (firstPending : Units) (now : Int) : Units :=
  text "before-" ++ dropSql firstPending ++ text "-" ++ stamp now ++ text ".sqlite"

/-! ## Commands -/

/-- What is written down of a run, besides what it leaves. -/
inductive Event (σ : Type)
  | verified (content : Database σ)
  | executed (script : Units)
  deriving DecidableEq

/-- What is committed, what an open transaction has made of it, the backup directory,
and what happened. -/
structure World (σ : Type) where
  db : Database σ
  working : Option (Database σ)
  backups : Directory (Database σ)
  log : List (Event σ)

variable {σ : Type}

/-- The database as its connection sees it. -/
def World.current (w : World σ) : Database σ := w.working.getD w.db

/-- An operation that changes nothing the model speaks of. -/
def touch : Cmd (World σ) Unit := .op fun w => .ok ((), w)

/-- `db.exec` of one statement. -/
def exec (statement : Statement σ) : Cmd (World σ) Unit :=
  .op fun w => (statement w.current).map fun d =>
    ((), if w.working.isSome then { w with working := some d } else { w with db := d })

/-- `db.exec('BEGIN IMMEDIATE')`. -/
def begin : Cmd (World σ) Unit :=
  .op fun w =>
    if w.working.isSome then .error "cannot start a transaction within a transaction"
    else .ok ((), { w with working := some w.db })

/-- `db.exec('COMMIT')`. -/
def commit : Cmd (World σ) Unit :=
  .op fun w =>
    match w.working with
    | some d => .ok ((), { w with db := d, working := none })
    | none => .error "cannot commit - no transaction is active"

/-- `db.exec('ROLLBACK')`. -/
def rollback : Cmd (World σ) Unit :=
  .op fun w =>
    if w.working.isSome then .ok ((), { w with working := none })
    else .error "cannot rollback - no transaction is active"

/-- Runs `fn` inside `BEGIN IMMEDIATE .. COMMIT`. -/
def transaction {α : Type} (fn : Cmd (World σ) α) : Cmd (World σ) α := do
  begin
  .tryCatch (do
      let result ← fn
      commit
      return result)
    fun err => do
      .tryCatch rollback fun _ => pure ()
      .throw err

/-- What a copy meets with: the clock, its place in the listing, and the rows of
`PRAGMA integrity_check`. -/
structure CopyRun where
  now : Int
  place : Nat
  integrity : List String

/-- Removes files, one after the other. -/
def rmAll : List Units → Cmd (World σ) Unit
  | [] => pure ()
  | f :: fs => do
      .op fun w => (w.backups.rmSync f).map fun d => ((), { w with backups := d })
      rmAll fs

/-- Copies the database before a migration changes it. -/
def backupBeforeMigrating (run : CopyRun) (firstPending : Units) : Cmd (World σ) Units := do
  touch -- mkdir
  let target := copyName firstPending run.now
  .op fun w => (w.backups.vacuumInto run.place target w.db).map fun d => ((), { w with backups := d })
  touch -- chmod
  touch -- open the copy
  .op fun w =>
    match run.integrity, w.backups.lookup target with
    | ["ok"], some (.copy content) => .ok ((), { w with log := w.log ++ [.verified content] })
    | _, _ => .error "backup failed its integrity check"
  touch -- close it
  let old ← .op fun w => .ok ((w.backups.names.filter isBackup).insertionSort newerFirst, w)
  rmAll (old.drop keepMigrationBackups)
  return target

/-- `CREATE TABLE IF NOT EXISTS schema_migrations`. -/
def createMigrations : Statement σ := fun d => .ok { d with migrations := some (d.migrations.getD []) }

/-- `INSERT INTO schema_migrations`. -/
def insertMigration (name : Units) : Statement σ := fun d =>
  match d.migrations with
  | none => .error "no such table: schema_migrations"
  | some names =>
      if name ∈ names then .error "UNIQUE constraint failed: schema_migrations.name"
      else .ok { d with migrations := some (names ++ [name]) }

/-- Writes down that a script is about to change something. -/
def note (script : Units) : Cmd (World σ) Unit :=
  .op fun w => .ok ((), { w with log := w.log ++ [.executed script] })

/-- `db.exec(sql)`: the statements of a script, in their order. -/
def execAll (script : Units) : List (Statement σ) → Cmd (World σ) Unit
  | [] => pure ()
  | s :: ss => do
      note script
      exec s
      execAll script ss

/-- The loop of `migrate`. -/
def runPending (applied : List Units) : List (Script σ) → Cmd (World σ) (List Units)
  | [] => pure []
  | f :: fs =>
      if f.name ∈ applied then runPending applied fs
      else do
        touch -- read the file
        transaction do
          execAll f.name f.statements
          note f.name
          exec (insertMigration f.name)
        let ran ← runPending applied fs
        return f.name :: ran

/-- The scripts of the migrations directory, in the order they run. -/
def sortedScripts (dir : MigrationsDir σ) : List (Script σ) :=
  (dir.files.filter fun f => endsWith (text ".sql") f.name).insertionSort fun a b => a.name ≤ b.name

/-- A copy, when an existing database is about to change and there is a place for it. -/
def copyFirst (run : CopyRun) (backupDir : Bool) (applied : List Units) :
    List (Script σ) → Cmd (World σ) Unit
  | [] => pure ()
  | first :: _ =>
      if !applied.isEmpty && backupDir then do
        let _ ← backupBeforeMigrating run first.name
      else pure ()

/-- Applies pending migrations, each in its own transaction.  With a backup directory, an
existing database is copied before it changes. -/
def migrate (run : CopyRun) (dir : MigrationsDir σ) (backupDir : Bool) :
    Cmd (World σ) (List Units) := do
  exec createMigrations
  let applied ← .op fun w =>
    match w.current.migrations with
    | none => .error "no such table: schema_migrations"
    | some names => .ok (names, w)
  touch -- list the migrations directory
  let files := sortedScripts dir
  let pending := files.filter fun f => f.name ∉ applied
  copyFirst run backupDir applied pending
  runPending applied files

end Schema

end Outletbox
