import Mathlib.Data.List.Sort
import SafeerApi.Lib.Reach
import SafeerApi.Lib.Table

/-!
# The migration runner (`scripts/migrate.mjs`)

A run reads its files first, takes the named lock, reads what is recorded, verifies the checksums of
the recorded files and applies the others one by one. Any number of runs go on at once, each with the
directory as it found it, and each may stop anywhere.
-/

namespace SafeerApi.Migrations.Runner

open Lib

/-! ### Files -/

/-- What the runner takes from elsewhere: the hash, the order of `localeCompare`, and what the
primary key of `schema_migrations` compares a version by. -/
structure MigrateEnv where
  sha256 : String → String
  le : String → String → Bool
  le_total : ∀ a b, (le a b || le b a) = true
  le_trans : ∀ a b c, le a b = true → le b c = true → le a c = true
  collationKey : String → String

/-- `sql.replace(/\r\n/g, '\n')` -/
def crlfToLf : List Char → List Char
  | '\r' :: '\n' :: rest => '\n' :: crlfToLf rest
  | c :: rest => c :: crlfToLf rest
  | [] => []

def checksumOf (env : MigrateEnv) (sql : String) : String :=
  env.sha256 (String.ofList (crlfToLf sql.toList))

structure MigrationFile where
  version : String
  sql : String
  checksum : String
  deriving DecidableEq

/-- An entry of a directory, with the content of a file. -/
structure DirEntry where
  name : String
  isFile : Bool
  content : String

/-- `a.version.localeCompare(b.version) <= 0` -/
def Before (env : MigrateEnv) (a b : MigrationFile) : Prop := env.le a.version b.version = true

instance (env : MigrateEnv) : DecidableRel (Before env) := fun a b =>
  inferInstanceAs (Decidable (env.le a.version b.version = true))

instance (env : MigrateEnv) : Std.Total (Before env) where
  total a b := (Bool.or_eq_true _ _).mp (env.le_total a.version b.version)

instance (env : MigrateEnv) : IsTrans MigrationFile (Before env) where
  trans a b c := env.le_trans a.version b.version c.version

/-- Files in the order of their versions, no two with the same one, each with the checksum of its
text. -/
structure MigrationFiles (env : MigrateEnv) where
  files : List MigrationFile
  sorted : files.Pairwise (Before env)
  nodup : (files.map MigrationFile.version).Nodup
  checksums : ∀ file ∈ files, file.checksum = checksumOf env file.sql

def endsWith (name suffix : String) : Bool := suffix.toList.isSuffixOf name.toList

/-- A duplicate name fails the run before it touches the database. -/
def resolveMigrationFiles (env : MigrateEnv) (includeDev : Bool) (root dev : List DirEntry) :
    Option (MigrationFiles env) :=
  let rootFiles := root.filter fun d => d.isFile && (endsWith d.name ".sql" || endsWith d.name ".mjs")
  let devFiles := if includeDev then dev.filter fun d => endsWith d.name ".sql" else []
  let files := ((rootFiles ++ devFiles).map fun d =>
    (⟨d.name, d.content, checksumOf env d.content⟩ : MigrationFile)).insertionSort (Before env)
  if h : (files.map MigrationFile.version).Nodup then
    some ⟨files, List.pairwise_insertionSort _ _, h, by
      intro file hfile
      obtain ⟨d, -, rfl⟩ := List.mem_map.mp ((List.mem_insertionSort _).mp hfile)
      rfl⟩
  else none

/-! ### The database and the runs -/

structure SchemaMigration where
  version : String
  checksum : Option String
  deriving DecidableEq

/-- `schema_migrations`. A database without the table has no rows, and one from before the `checksum`
column no checksums. -/
abbrev SchemaMigrations (env : MigrateEnv) :=
  Table fun row : SchemaMigration => env.collationKey row.version

/-- Where a run is: with its files resolved, with the lock held, verifying what it read as applied,
applying, executing a file, or over. -/
inductive Stage where
  | resolved
  | locked
  | verifying (applied : List SchemaMigration) (todo changed : List MigrationFile)
  | applying (applied : List SchemaMigration) (todo : List MigrationFile)
  | executing (applied : List SchemaMigration) (file : MigrationFile) (rest : List MigrationFile)
  | ended

structure Run (env : MigrateEnv) where
  files : MigrationFiles env
  stage : Stage

/-- What a run read, what it began to execute, what failed, and what it recorded. -/
inductive Event where
  | found (run : ℕ) (files : List MigrationFile) (applied : List SchemaMigration)
  | executed (run : ℕ) (version : String)
  | failed (run : ℕ) (version : String)
  | recorded (run : ℕ) (version : String)
  deriving DecidableEq

def Event.run : Event → ℕ
  | .found run _ _ | .executed run _ | .failed run _ | .recorded run _ => run

structure State (env : MigrateEnv) where
  migrations : SchemaMigrations env
  lock : Option ℕ
  runs : List (Run env)
  history : List Event

def State.init {env : MigrateEnv} (migrations : SchemaMigrations env) : State env :=
  ⟨migrations, none, [], []⟩

/-- `fileFails` is an error of a file in execution; `stop` is any other end of a run: no lock in time,
another key, an error of the database, or the process. -/
inductive Action where
  | start (includeDev : Bool) (root dev : List DirEntry)
  | proceed (i : ℕ)
  | fileFails (i : ℕ)
  | stop (i : ℕ)

/-! ### Statements -/

/-- `applied.has(version)` -/
def has (applied : List SchemaMigration) (version : String) : Bool :=
  applied.any fun row => row.version = version

/-- `applied.get(version)` -/
def storedOf (applied : List SchemaMigration) (version : String) : Option (Option String) :=
  (applied.find? fun row => row.version = version).map SchemaMigration.checksum

/-- A recorded file whose checksum is stored and is another one. -/
def isChanged (applied : List SchemaMigration) (file : MigrationFile) : Bool :=
  (storedOf applied file.version).any fun stored => stored.any (· ≠ file.checksum)

variable {env : MigrateEnv}

def SchemaMigration.setChecksum (checksum : String) (row : SchemaMigration) : SchemaMigration :=
  { row with checksum := some checksum }

/-- `UPDATE schema_migrations SET checksum = ? WHERE version = ? AND checksum IS NULL` -/
def backfill (migrations : SchemaMigrations env) (file : MigrationFile) : SchemaMigrations env :=
  migrations.updateWhere
    (fun row => env.collationKey row.version = env.collationKey file.version && row.checksum.isNone)
    (SchemaMigration.setChecksum file.checksum) fun _ => rfl

/-- `INSERT INTO schema_migrations (version, checksum) VALUES (?, ?)` -/
def record (migrations : SchemaMigrations env) (file : MigrationFile) :
    Option (SchemaMigrations env) :=
  if h : migrations.find (env.collationKey file.version) = none then
    some (migrations.insert ⟨file.version, some file.checksum⟩ h)
  else none

/-- A run that is over no longer holds the lock. -/
def State.stop (s : State env) (i : ℕ) (run : Run env) : State env :=
  { s with
    lock := if s.lock = some i then none else s.lock
    runs := s.runs.set i { run with stage := .ended } }

def State.setStage (s : State env) (i : ℕ) (run : Run env) (stage : Stage) : State env :=
  { s with runs := s.runs.set i { run with stage := stage } }

def State.log (s : State env) (e : Event) : State env := { s with history := e :: s.history }

/-- One file of `verifyChecksums`. -/
def State.verify (s : State env) (i : ℕ) (run : Run env) (applied : List SchemaMigration)
    (file : MigrationFile) (rest changed : List MigrationFile) : State env :=
  match storedOf applied file.version with
  | none => s.setStage i run (.verifying applied rest changed)
  | some none =>
    { s.setStage i run (.verifying applied rest changed) with
      migrations := backfill s.migrations file }
  | some (some _) =>
    s.setStage i run
      (.verifying applied rest (if isChanged applied file then changed ++ [file] else changed))

/-- The insert and commit behind a file that was executed; a refused insert fails the file. -/
def State.recordFile (s : State env) (i : ℕ) (run : Run env) (applied : List SchemaMigration)
    (file : MigrationFile) (rest : List MigrationFile) : State env :=
  match record s.migrations file with
  | some migrations =>
    ({ s with migrations := migrations }.setStage i run (.applying applied rest)).log
      (.recorded i file.version)
  | none => (s.stop i run).log (.failed i file.version)

/-- The next statement of a run. -/
def proceed (s : State env) (i : ℕ) (run : Run env) : Option (State env) :=
  match run.stage with
  | .resolved =>
    if s.lock = none then some { s.setStage i run .locked with lock := some i } else none
  | .locked =>
    some ((s.setStage i run (.verifying s.migrations.rows run.files.files [])).log
      (.found i run.files.files s.migrations.rows))
  | .verifying applied (file :: rest) changed => some (s.verify i run applied file rest changed)
  | .verifying applied [] changed =>
    if changed ≠ [] then some (s.stop i run)
    else some (s.setStage i run (.applying applied run.files.files))
  | .applying applied (file :: rest) =>
    if has applied file.version then some (s.setStage i run (.applying applied rest))
    else
      some ((s.setStage i run (.executing applied file rest)).log (.executed i file.version))
  | .applying _ [] => some (s.stop i run)
  | .executing applied file rest => some (s.recordFile i run applied file rest)
  | .ended => none

def step (s : State env) : Action → Option (State env)
  | .start includeDev root dev =>
    match resolveMigrationFiles env includeDev root dev with
    | some files => some { s with runs := s.runs ++ [⟨files, .resolved⟩] }
    | none => some s
  | .proceed i => (s.runs[i]?).bind (proceed s i)
  | .fileFails i => (s.runs[i]?).bind fun run =>
    match run.stage with
    | .executing _ file _ => some ((s.stop i run).log (.failed i file.version))
    | _ => none
  | .stop i => (s.runs[i]?).map (s.stop i)

/-! ### What a step leaves alone -/

section LeftAlone

variable {s s' : State env} {a : Action} {row : SchemaMigration}

lemma migrations_verify (s : State env) (i : ℕ) (run : Run env) (applied : List SchemaMigration)
    (file : MigrationFile) (rest changed : List MigrationFile) :
    (s.verify i run applied file rest changed).migrations = s.migrations ∨
      (s.verify i run applied file rest changed).migrations = backfill s.migrations file := by
  simp only [State.verify]
  split
  · exact Or.inl rfl
  · exact Or.inr rfl
  · exact Or.inl rfl

lemma migrations_recordFile (s : State env) (i : ℕ) (run : Run env)
    (applied : List SchemaMigration) (file : MigrationFile) (rest : List MigrationFile) :
    (s.recordFile i run applied file rest).migrations = s.migrations ∨
      record s.migrations file = some (s.recordFile i run applied file rest).migrations := by
  simp only [State.recordFile]
  split
  · next hrecord => exact Or.inr hrecord
  · exact Or.inl rfl

/-- What a statement of a run writes. -/
lemma migrations_of_proceed {i : ℕ} {run : Run env} (hs : proceed s i run = some s') :
    s'.migrations = s.migrations ∨ (∃ file, s'.migrations = backfill s.migrations file) ∨
      ∃ file, record s.migrations file = some s'.migrations := by
  simp only [proceed] at hs
  split at hs
  · split_ifs at hs
    cases hs
    exact Or.inl rfl
  · cases hs
    exact Or.inl rfl
  · next applied file rest changed _ =>
    cases hs
    exact (migrations_verify s i run applied file rest changed).imp_right fun h =>
      Or.inl ⟨file, h⟩
  · split_ifs at hs <;> cases hs <;> exact Or.inl rfl
  · split_ifs at hs <;> cases hs <;> exact Or.inl rfl
  · cases hs
    exact Or.inl rfl
  · next applied file rest _ =>
    cases hs
    exact (migrations_recordFile s i run applied file rest).imp_right fun h => Or.inr ⟨file, h⟩
  · cases hs

lemma migrations_of_step (hs : step s a = some s') :
    s'.migrations = s.migrations ∨ (∃ file, s'.migrations = backfill s.migrations file) ∨
      ∃ file, record s.migrations file = some s'.migrations := by
  cases a with
  | start includeDev root dev =>
    simp only [step] at hs
    split at hs <;> cases hs <;> exact Or.inl rfl
  | proceed i =>
    obtain ⟨run, -, hs⟩ := Option.bind_eq_some_iff.mp hs
    exact migrations_of_proceed hs
  | fileFails i =>
    obtain ⟨run, -, hs⟩ := Option.bind_eq_some_iff.mp hs
    split at hs <;> cases hs
    exact Or.inl rfl
  | stop i =>
    obtain ⟨run, -, rfl⟩ := Option.map_eq_some_iff.mp hs
    exact Or.inl rfl

lemma mem_backfill {migrations : SchemaMigrations env} {file : MigrationFile} :
    row ∈ (backfill migrations file).rows ↔ ∃ old ∈ migrations.rows,
      (if env.collationKey old.version = env.collationKey file.version && old.checksum.isNone then
        old.setChecksum file.checksum else old) = row :=
  List.mem_map

lemma mem_record {migrations migrations' : SchemaMigrations env} {file : MigrationFile}
    (h : record migrations file = some migrations') :
    row ∈ migrations'.rows ↔ row ∈ migrations.rows ∨ row = ⟨file.version, some file.checksum⟩ := by
  rw [record] at h
  split_ifs at h
  rw [← Option.some.inj h, Table.mem_insert]

/-- A row with a checksum stays as it is. -/
lemma mem_migrations_of_step (hs : step s a = some s') (hrow : row ∈ s.migrations.rows)
    (hchecksum : row.checksum.isSome) : row ∈ s'.migrations.rows := by
  rcases migrations_of_step hs with heq | ⟨file, heq⟩ | ⟨file, hrecord⟩
  · rwa [heq]
  · rw [heq, mem_backfill]
    refine ⟨row, hrow, if_neg ?_⟩
    simp [Option.isNone_eq_false_iff.mpr hchecksum]
  · exact (mem_record hrecord).mpr (Or.inl hrow)

/-- And each new row has one. -/
lemma checksums_of_step (hs : step s a = some s')
    (h : ∀ row ∈ s.migrations.rows, row.checksum.isSome) :
    ∀ row ∈ s'.migrations.rows, row.checksum.isSome := by
  intro row hrow
  rcases migrations_of_step hs with heq | ⟨file, heq⟩ | ⟨file, hrecord⟩
  · rw [heq] at hrow
    exact h row hrow
  · rw [heq, mem_backfill] at hrow
    obtain ⟨old, hold, rfl⟩ := hrow
    split_ifs
    · rfl
    · exact h old hold
  · rcases (mem_record hrecord).mp hrow with hrow | rfl
    · exact h row hrow
    · rfl

end LeftAlone

/-! ### Status -/

/-- A line of `printStatus`. -/
def statusLine (applied : List SchemaMigration) (file : MigrationFile) : String :=
  match storedOf applied file.version with
  | none => "[pending] " ++ file.version
  | some none =>
    "[applied] " ++ file.version ++ " (no checksum yet — backfilled on the next migrate)"
  | some (some stored) =>
    if stored ≠ file.checksum then
      "[CHANGED] " ++ file.version ++ " (file differs from what was applied)"
    else "[applied] " ++ file.version

/-- `--status` -/
def printStatus (files : List MigrationFile) (applied : List SchemaMigration) : List String :=
  files.map (statusLine applied)

end SafeerApi.Migrations.Runner
