import SafeerApi.Lib.Reach

/-!
# One encryption key for a database (`encryption-key-check.ts`, `lib/encryption-key-check.mjs`)

A boot of the app and a run of `migrate` each compare their key with the check value the database
holds, or, while it holds none, with a secret that is already encrypted, and then store the check
value unless one was stored meanwhile. Whoever finds one stored then does not look at it.
-/

namespace SafeerApi.Migrations

open Lib

/-- `HMAC-SHA256(key, label)`, taken as injective. -/
structure KeyCheck (K : Type*) where
  value : K → String
  injective : Function.Injective value

section

variable {K : Type*} [DecidableEq K]

/-! ### The system -/

inductive ProcessKind where
  | boot
  | migrate
  deriving DecidableEq, Repr

/-- Where a process is: before its check, with the migration lock held, after it read no check value,
applying migrations, about to record its key, running as the app, or over. -/
inductive Stage where
  | starting
  | locked
  | probing
  | applying
  | recording
  | running
  | ended
  deriving DecidableEq, Repr

structure Process (K : Type*) where
  kind : ProcessKind
  key : K
  stage : Stage
  deriving DecidableEq

/-- The columns the check reads: whether `site_settings` has its row and `encryption_key_check`, what
is stored there, and the key the mail password is encrypted with. `completed` are the keys of the
boots and runs that came to their end without an error. -/
structure State (K : Type*) where
  hasRow : Bool
  hasColumn : Bool
  stored : Option String
  secret : Option K
  processes : List (Process K)
  lock : Option ℕ
  completed : List K

/-- A database in which no secret and no check value is stored. -/
def State.init (hasRow hasColumn : Bool) : State K :=
  ⟨hasRow, hasColumn, none, none, [], none, []⟩

/-- A pending migration inserts the row of `site_settings` (002) or adds its column (018); the running
app stores a mail password. -/
inductive Action (K : Type*) where
  | start (kind : ProcessKind) (key : K)
  | proceed (i : ℕ)
  | seed (i : ℕ)
  | addColumn (i : ℕ)
  | savePassword (i : ℕ)
  | crash (i : ℕ)

/-- `SELECT encryption_key_check AS kcv FROM site_settings WHERE id = 1`; an empty value counts as
none. -/
def State.kcv (s : State K) : Option String :=
  if s.hasRow && s.hasColumn then s.stored.filter (· ≠ "") else none

/-- `UPDATE site_settings SET encryption_key_check = ? WHERE id = 1 AND encryption_key_check IS NULL` -/
def State.record (s : State K) (expected : String) : State K :=
  if s.hasRow && s.hasColumn && s.stored.isNone then { s with stored := some expected } else s

/-- AES-GCM decryption succeeds under the key that encrypted the value. -/
def decrypts (encryptedWith key : K) : Bool := encryptedWith = key

def State.setStage (s : State K) (i : ℕ) (p : Process K) (stage : Stage) : State K :=
  { s with processes := s.processes.set i { p with stage := stage } }

/-- A process that is over no longer holds the lock. -/
def State.stop (s : State K) (i : ℕ) (p : Process K) : State K :=
  { s.setStage i p .ended with lock := if s.lock = some i then none else s.lock }

def State.complete (s : State K) (i : ℕ) (p : Process K) : State K :=
  match p.kind with
  | .boot => { s.setStage i p .running with completed := p.key :: s.completed }
  | .migrate => { s.stop i p with completed := p.key :: s.completed }

/-- One statement of `assertAndRecordEncryptionKey`. -/
def bootStep (check : KeyCheck K) (s : State K) (i : ℕ) (p : Process K) : Option (State K) :=
  match p.stage with
  | .starting =>
    -- the query fails on a database from before the column
    if s.hasColumn then
      match s.kcv with
      | some stored =>
        if stored ≠ check.value p.key then some (s.stop i p) else some (s.complete i p)
      | none => some (s.setStage i p .probing)
    else some (s.stop i p)
  | .probing =>
    if s.secret.all fun encryptedWith => decrypts encryptedWith p.key then
      some (s.setStage i p .recording)
    else some (s.stop i p)
  | .recording => some ((s.record (check.value p.key)).complete i p)
  | _ => none

/-- One statement of `assertEncryptionKey` and `recordEncryptionKey`, under the lock; in between the
pending migrations are applied. -/
def migrateStep (check : KeyCheck K) (s : State K) (i : ℕ) (p : Process K) : Option (State K) :=
  match p.stage with
  | .starting =>
    if s.lock = none then some { s.setStage i p .locked with lock := some i } else none
  | .locked =>
    match s.kcv with
    | some stored =>
      if stored ≠ check.value p.key then some (s.stop i p) else some (s.setStage i p .applying)
    | none => some (s.setStage i p .probing)
  | .probing =>
    if s.secret.all fun encryptedWith => decrypts encryptedWith p.key then
      some (s.setStage i p .applying)
    else some (s.stop i p)
  | .applying => some (s.setStage i p .recording)
  | .recording => some ((s.record (check.value p.key)).complete i p)
  | _ => none

def isApplying (p : Process K) : Bool := p.kind = .migrate && p.stage = .applying

def step (check : KeyCheck K) (s : State K) : Action K → Option (State K)
  | .start kind key => some { s with processes := s.processes ++ [⟨kind, key, .starting⟩] }
  | .proceed i => (s.processes[i]?).bind fun p =>
    match p.kind with
    | .boot => bootStep check s i p
    | .migrate => migrateStep check s i p
  | .seed i => (s.processes[i]?).bind fun p =>
    if isApplying p then some { s with hasRow := true } else none
  | .addColumn i => (s.processes[i]?).bind fun p =>
    if isApplying p then some { s with hasColumn := true } else none
  | .savePassword i => (s.processes[i]?).bind fun p =>
    if p.stage = .running then some { s with secret := some p.key } else none
  | .crash i => (s.processes[i]?).map (s.stop i)

/-! ### Keys that were recorded -/

/-- A process that records its key finds its row and its column, and no other key's check value. -/
def recordsOwnKey (check : KeyCheck K) (s : State K) : Action K → Bool
  | .proceed i => (s.processes[i]?).all fun p =>
    p.stage ≠ .recording || (s.hasRow && s.hasColumn && s.stored.all (· = check.value p.key))
  | _ => true

/-- The check value of every completed process is the one stored. -/
def Recorded (check : KeyCheck K) (s : State K) : Prop :=
  ∀ key ∈ s.completed, s.hasRow = true ∧ s.hasColumn = true ∧ s.stored = some (check.value key)

variable {check : KeyCheck K} {s s' : State K} {i : ℕ} {p : Process K}

omit [DecidableEq K] in
lemma Recorded.complete (h : Recorded check s) (hrow : s.hasRow = true)
    (hcolumn : s.hasColumn = true) (hstored : s.stored = some (check.value p.key)) :
    Recorded check (s.complete i p) := by
  have hkeys : ∀ key ∈ p.key :: s.completed,
      s.hasRow = true ∧ s.hasColumn = true ∧ s.stored = some (check.value key) := by
    intro key hkey
    rcases List.mem_cons.mp hkey with rfl | hkey
    · exact ⟨hrow, hcolumn, hstored⟩
    · exact h key hkey
  simp only [State.complete]
  split
  · exact hkeys
  · exact hkeys

omit [DecidableEq K] in
/-- What is stored is not overwritten. -/
lemma Recorded.store (h : Recorded check s) (hnone : s.stored = none) (value : String) :
    Recorded check { s with stored := some value } := by
  intro key hkey
  have hstored := (h key hkey).2.2
  rw [hnone] at hstored
  cases hstored

omit [DecidableEq K] in
/-- The last statement of a boot or a run. -/
lemma Recorded.record (h : Recorded check s) (hp : s.processes[i]? = some p)
    (hstage : p.stage = .recording) (hok : recordsOwnKey check s (.proceed i) = true) :
    Recorded check ((s.record (check.value p.key)).complete i p) := by
  simp only [recordsOwnKey, hp, Option.all_some, hstage, ne_eq, not_true_eq_false, decide_false,
    Bool.false_or, Bool.and_eq_true] at hok
  obtain ⟨⟨hrow, hcolumn⟩, hfree⟩ := hok
  cases hstored : s.stored with
  | none =>
    have hrecord : s.record (check.value p.key) = { s with stored := some (check.value p.key) } := by
      simp [State.record, hrow, hcolumn, hstored]
    rw [hrecord]
    exact (h.store hstored _).complete hrow hcolumn rfl
  | some stored =>
    have hrecord : s.record (check.value p.key) = s := by simp [State.record, hstored]
    rw [hrecord]
    rw [hstored, Option.all_some, decide_eq_true_eq] at hfree
    exact h.complete hrow hcolumn (hstored.trans (congrArg some hfree))

lemma recorded_bootStep (h : Recorded check s) (hp : s.processes[i]? = some p)
    (hok : recordsOwnKey check s (.proceed i) = true) (hs : bootStep check s i p = some s') :
    Recorded check s' := by
  simp only [bootStep] at hs
  split at hs
  · split_ifs at hs with hcolumn
    · split at hs
      · next stored hkcv =>
        split_ifs at hs with hkey
        · cases hs; exact h
        · cases hs
          simp only [State.kcv] at hkcv
          split_ifs at hkcv with hexists
          have hstored := (Option.filter_eq_some_iff.mp hkcv).1
          rw [not_not.mp hkey] at hstored
          exact h.complete ((Bool.and_eq_true _ _).mp hexists).1 hcolumn hstored
      · cases hs; exact h
    · cases hs; exact h
  · split_ifs at hs <;> cases hs <;> exact h
  · next hstage =>
    cases hs
    exact h.record hp hstage hok
  · cases hs

lemma recorded_migrateStep (h : Recorded check s) (hp : s.processes[i]? = some p)
    (hok : recordsOwnKey check s (.proceed i) = true) (hs : migrateStep check s i p = some s') :
    Recorded check s' := by
  simp only [migrateStep] at hs
  split at hs
  · split_ifs at hs
    cases hs
    exact h
  · split at hs
    · split_ifs at hs <;> cases hs <;> exact h
    · cases hs; exact h
  · split_ifs at hs <;> cases hs <;> exact h
  · cases hs; exact h
  · next hstage =>
    cases hs
    exact h.record hp hstage hok
  · cases hs

lemma recorded_step {a : Action K} (h : Recorded check s) (hok : recordsOwnKey check s a = true)
    (hs : step check s a = some s') : Recorded check s' := by
  cases a with
  | start kind key => cases hs; exact h
  | proceed i =>
    obtain ⟨p, hp, hs⟩ := Option.bind_eq_some_iff.mp hs
    split at hs
    · exact recorded_bootStep h hp hok hs
    · exact recorded_migrateStep h hp hok hs
  | seed i =>
    obtain ⟨p, -, hs⟩ := Option.bind_eq_some_iff.mp hs
    split_ifs at hs
    cases hs
    exact fun key hkey => ⟨rfl, (h key hkey).2⟩
  | addColumn i =>
    obtain ⟨p, -, hs⟩ := Option.bind_eq_some_iff.mp hs
    split_ifs at hs
    cases hs
    exact fun key hkey => ⟨(h key hkey).1, rfl, (h key hkey).2.2⟩
  | savePassword i =>
    obtain ⟨p, -, hs⟩ := Option.bind_eq_some_iff.mp hs
    split_ifs at hs
    cases hs
    exact h
  | crash i =>
    obtain ⟨p, -, rfl⟩ := Option.map_eq_some_iff.mp hs
    exact h

/-- In every interleaving in which whoever records its key finds its column and no other key's check
value there, all boots and runs that complete used one key. -/
theorem one_key {hasRow hasColumn : Bool}
    (h : Reach (step check) (fun s a => recordsOwnKey check s a = true)
      (State.init hasRow hasColumn) s) {key key' : K} (hkey : key ∈ s.completed)
    (hkey' : key' ∈ s.completed) : key = key' := by
  have hinit : Recorded check (State.init hasRow hasColumn) := fun key hkey =>
    absurd hkey List.not_mem_nil
  have hrecorded : Recorded check s := h.invariant hinit fun _ _ _ hi hok hs =>
    recorded_step hi hok hs
  have hvalue := (hrecorded key hkey).2.2.symm.trans (hrecorded key' hkey').2.2
  exact check.injective (Option.some.inj hvalue)

end

/-! ### Two keys -/

/-- A check value that shows its key. -/
def plainCheck : KeyCheck String where
  value key := key ++ ":check"
  injective key key' h := by
    have hlists := congrArg String.toList h
    simp only [String.toList_append] at hlists
    exact String.toList_inj.mp (List.append_cancel_right hlists)

/-- A run of `migrate` on an empty database, then a boot. -/
def migrateAndBoot : List (Action String) :=
  [.start .migrate "k", .proceed 0, .proceed 0, .proceed 0, .seed 0, .addColumn 0, .proceed 0,
    .proceed 0, .start .boot "k", .proceed 1]

theorem one_key_migrated : ∃ s : State String, s.completed.length = 2 ∧
    ∀ key ∈ s.completed, ∀ key' ∈ s.completed, key = key' := by
  obtain ⟨s, hrun, hlength⟩ := exists_of_run
    (guarded (step plainCheck) (recordsOwnKey plainCheck)) (State.init false false) migrateAndBoot
    (P := fun s => s.completed.length = 2) (by decide +kernel)
  exact ⟨s, hlength, fun key hkey key' hkey' => one_key (Reach.of_guarded hrun) hkey hkey'⟩

/-- Both boots read no check value before either records its own. -/
def twoBoots : List (Action String) :=
  [.start .boot "k", .start .boot "l", .proceed 0, .proceed 1, .proceed 0, .proceed 1, .proceed 0,
    .proceed 1]

theorem two_keys : ∃ s : State String,
    run (step plainCheck) (State.init true true) twoBoots = some s ∧ s.completed = ["l", "k"] := by
  obtain ⟨s, hrun, hkeys⟩ := exists_of_run (step plainCheck) (State.init true true) twoBoots
    (P := fun s => s.completed = ["l", "k"]) (by decide +kernel)
  exact ⟨s, hrun, hkeys⟩

end SafeerApi.Migrations
