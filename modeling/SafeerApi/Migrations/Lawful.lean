import Mathlib.Data.String.Basic
import SafeerApi.Lib.History
import SafeerApi.Migrations.Runner

/-!
# Histories of migration runs

Whatever the directory holds when each run reads it and wherever the runs stop: a recorded version is
not recorded or executed again, a run executes its files in order, nothing after a failure, and
nothing at all once it has found a recorded file changed.
-/

namespace SafeerApi.Migrations.Runner

open Lib

variable {env : MigrateEnv}

/-! ### The law -/

def versionsOf (migrations : SchemaMigrations env) : List String :=
  migrations.rows.map SchemaMigration.version

/-- The version is not recorded after the events so far. -/
def Unrecorded (initial : List String) (past : List Event) (version : String) : Prop :=
  version ∉ initial ∧ ∀ i, .recorded i version ∉ past

/-- What may have happened before an event, with the versions recorded at the start. -/
def Lawful (env : MigrateEnv) (initial : List String) (past : List Event) : Event → Prop
  | .found _ files _ => ∀ file ∈ files, file.checksum = checksumOf env file.sql
  | .executed i version =>
    Unrecorded initial past version ∧ (∀ v, .failed i v ∉ past) ∧
      (∀ v, .executed i v ∈ past → env.le v version = true) ∧
      (∃ files applied, .found i files applied ∈ past ∧ ∃ file ∈ files, file.version = version) ∧
      ∀ files applied, .found i files applied ∈ past →
        ∀ file ∈ files, isChanged applied file = false
  | .failed i version => Unrecorded initial past version ∧ .executed i version ∈ past
  | .recorded i version =>
    Unrecorded initial past version ∧ .executed i version ∈ past ∧ ∀ v, .failed i v ∉ past

/-! ### The invariant -/

/-- Nothing of the run has happened yet. -/
def Silent (history : List Event) (i : ℕ) : Prop := ∀ e ∈ history, e.run ≠ i

/-- A run has read `applied` and executed nothing. -/
structure Reading (versions : List String) (history : List Event) (i : ℕ)
    (files : List MigrationFile) (applied : List SchemaMigration) : Prop where
  read : .found i files applied ∈ history
  found : ∀ files' applied', .found i files' applied' ∈ history → files' = files ∧ applied' = applied
  unexecuted : ∀ v, .executed i v ∉ history
  unfailed : ∀ v, .failed i v ∉ history
  has : ∀ v ∈ versions, has applied v = true

/-- A run has `todo` still to apply. -/
structure Applying (env : MigrateEnv) (versions : List String) (history : List Event) (i : ℕ)
    (applied : List SchemaMigration) (todo : List MigrationFile) : Prop where
  listed : ∃ files applied', .found i files applied' ∈ history ∧ ∀ file ∈ todo, file ∈ files
  unchanged : ∀ files' applied', .found i files' applied' ∈ history →
    ∀ file ∈ files', isChanged applied' file = false
  unfailed : ∀ v, .failed i v ∉ history
  after : ∀ v, .executed i v ∈ history → ∀ file ∈ todo, env.le v file.version = true
  sorted : todo.Pairwise (Before env)
  nodup : (todo.map MigrationFile.version).Nodup
  has : ∀ file ∈ todo, file.version ∈ versions → has applied file.version = true

/-- What a run knows in the stage it is in, from the lock on because no other run goes on. -/
def Run.Inv (run : Run env) (lock : Option ℕ) (versions : List String) (history : List Event)
    (i : ℕ) : Prop :=
  match run.stage with
  | .resolved => Silent history i
  | .locked => lock = some i ∧ Silent history i
  | .verifying applied todo changed =>
    lock = some i ∧ Reading versions history i run.files.files applied ∧
      ∀ file ∈ run.files.files, isChanged applied file = true → file ∈ todo ∨ changed ≠ []
  | .applying applied todo => lock = some i ∧ Applying env versions history i applied todo
  | .executing applied file rest =>
    lock = some i ∧ Applying env versions history i applied (file :: rest) ∧
      file.version ∉ versions ∧ .executed i file.version ∈ history
  | .ended => True

structure Inv (initial : List String) (s : State env) : Prop where
  lawful : Obeys (Lawful env initial) s.history
  recorded : ∀ v, v ∈ versionsOf s.migrations ↔ v ∈ initial ∨ ∃ i, .recorded i v ∈ s.history
  known : ∀ e ∈ s.history, e.run < s.runs.length
  runs : ∀ (i : ℕ) (run : Run env), s.runs[i]? = some run →
    run.Inv s.lock (versionsOf s.migrations) s.history i

variable {initial : List String} {s s' : State env} {i : ℕ} {run run' : Run env}

lemma Inv.init (migrations : SchemaMigrations env) :
    Inv (versionsOf migrations) (State.init migrations) where
  lawful := trivial
  recorded v := by
    constructor
    · exact Or.inl
    · rintro (hv | ⟨i, hi⟩)
      · exact hv
      · exact absurd hi List.not_mem_nil
  known e he := absurd he List.not_mem_nil
  runs i run h := by cases h

/-- A version is recorded in the table if it is in the history. -/
lemma Inv.unrecorded (h : Inv initial s) {version : String}
    (hversion : version ∉ versionsOf s.migrations) : Unrecorded initial s.history version :=
  ⟨fun hv => hversion ((h.recorded version).mpr (Or.inl hv)),
    fun i hi => hversion ((h.recorded version).mpr (Or.inr ⟨i, hi⟩))⟩

/-- A run that does not hold the lock is not concerned by what the holder does. -/
lemma Run.Inv.other {lock lock' : Option ℕ} {versions versions' : List String}
    {history new : List Event} {j : ℕ} (h : run.Inv lock versions history j)
    (hlock : lock ≠ some j) (hnew : ∀ e ∈ new, e.run ≠ j) :
    run.Inv lock' versions' (new ++ history) j := by
  simp only [Run.Inv] at h ⊢
  split at h
  · intro e he
    rcases List.mem_append.mp he with he | he
    · exact hnew e he
    · exact h e he
  · exact absurd h.1 hlock
  · exact absurd h.1 hlock
  · exact absurd h.1 hlock
  · exact absurd h.1 hlock
  · exact trivial

/-- A run goes on: it holds the lock, takes it, or changes nothing but itself. -/
lemma Inv.move {migrations : SchemaMigrations env} {lock : Option ℕ} (new : List Event)
    (h : Inv initial s) (hr : s.runs[i]? = some run) (hnew : ∀ e ∈ new, e.run = i)
    (hlock : s.lock = none ∨ s.lock = some i ∨
      (lock = s.lock ∧ migrations = s.migrations ∧ new = []))
    (hlawful : Obeys (Lawful env initial) (new ++ s.history))
    (hrecorded : ∀ v, v ∈ versionsOf migrations ↔
      v ∈ initial ∨ ∃ j, .recorded j v ∈ new ++ s.history)
    (hself : run'.Inv lock (versionsOf migrations) (new ++ s.history) i) :
    Inv initial ⟨migrations, lock, s.runs.set i run', new ++ s.history⟩ where
  lawful := hlawful
  recorded := hrecorded
  known := by
    intro e he
    change e.run < (s.runs.set i run').length
    rw [List.length_set]
    rcases List.mem_append.mp he with he | he
    · rw [hnew e he]
      exact (List.getElem?_eq_some_iff.mp hr).1
    · exact h.known e he
  runs := by
    intro j run₀ hj
    rcases getElem?_set_some hj with ⟨rfl, rfl⟩ | ⟨hji, hj⟩
    · exact hself
    · have hbefore := h.runs j run₀ hj
      have hothers : ∀ e ∈ new, e.run ≠ j := fun e he heq => hji (heq.symm.trans (hnew e he))
      rcases hlock with hfree | hheld | ⟨rfl, rfl, rfl⟩
      · exact hbefore.other (by rw [hfree]; exact fun hj => by cases hj) hothers
      · exact hbefore.other (by rw [hheld]; exact fun hj => hji (Option.some.inj hj).symm) hothers
      · exact hbefore

/-! ### Statements -/

lemma has_eq_true {applied : List SchemaMigration} {version : String} :
    has applied version = true ↔ version ∈ applied.map SchemaMigration.version := by
  simp [has]

lemma versionsOf_backfill (migrations : SchemaMigrations env) (file : MigrationFile) :
    versionsOf (backfill migrations file) = versionsOf migrations := by
  simp only [versionsOf, backfill, Table.updateWhere, List.map_map]
  apply List.map_congr_left
  intro row _
  simp only [Function.comp_apply]
  split_ifs <;> rfl

lemma versionsOf_record {migrations migrations' : SchemaMigrations env} {file : MigrationFile}
    (h : record migrations file = some migrations') :
    versionsOf migrations' = versionsOf migrations ++ [file.version] := by
  simp only [record] at h
  split_ifs at h
  cases h
  simp [versionsOf, Table.insert]

/-- Only a recording adds to what the history records. -/
lemma exists_recorded_cons {e : Event} {history : List Event} {version : String}
    (he : ∀ i, e ≠ .recorded i version) :
    (∃ i, Event.recorded i version ∈ e :: history) ↔ ∃ i, .recorded i version ∈ history := by
  constructor
  · rintro ⟨i, hi⟩
    rcases List.mem_cons.mp hi with heq | hi
    · exact absurd heq.symm (he i)
    · exact ⟨i, hi⟩
  · rintro ⟨i, hi⟩
    exact ⟨i, List.mem_cons_of_mem _ hi⟩

lemma Inv.stop (h : Inv initial s) (hr : s.runs[i]? = some run) : Inv initial (s.stop i run) := by
  apply h.move [] hr
  · exact fun e he => absurd he List.not_mem_nil
  · by_cases hheld : s.lock = some i
    · exact Or.inr (Or.inl hheld)
    · exact Or.inr (Or.inr ⟨if_neg hheld, rfl, rfl⟩)
  · exact h.lawful
  · exact h.recorded
  · exact trivial

/-- A file fails in execution, or its insert is refused. -/
lemma Inv.fails {applied : List SchemaMigration} {file : MigrationFile}
    {rest : List MigrationFile} (h : Inv initial s) (hr : s.runs[i]? = some run)
    (hstage : run.stage = .executing applied file rest) :
    Inv initial ((s.stop i run).log (.failed i file.version)) := by
  have hinv := h.runs i run hr
  simp only [Run.Inv, hstage] at hinv
  obtain ⟨hlock, -, hversion, hexecuted⟩ := hinv
  apply h.move [.failed i file.version] hr
  · intro e he
    rw [List.mem_singleton.mp he]
    rfl
  · exact Or.inr (Or.inl hlock)
  · exact ⟨⟨h.unrecorded hversion, hexecuted⟩, h.lawful⟩
  · intro v
    rw [List.singleton_append, exists_recorded_cons (fun j hj => by cases hj)]
    exact h.recorded v
  · exact trivial

lemma Inv.takeLock (h : Inv initial s) (hr : s.runs[i]? = some run)
    (hstage : run.stage = .resolved) (hfree : s.lock = none) :
    Inv initial { s.setStage i run .locked with lock := some i } := by
  have hinv := h.runs i run hr
  simp only [Run.Inv, hstage] at hinv
  apply h.move [] hr
  · exact fun e he => absurd he List.not_mem_nil
  · exact Or.inl hfree
  · exact h.lawful
  · exact h.recorded
  · exact ⟨rfl, hinv⟩

lemma Inv.read (h : Inv initial s) (hr : s.runs[i]? = some run) (hstage : run.stage = .locked) :
    Inv initial ((s.setStage i run (.verifying s.migrations.rows run.files.files [])).log
      (.found i run.files.files s.migrations.rows)) := by
  have hinv := h.runs i run hr
  simp only [Run.Inv, hstage] at hinv
  obtain ⟨hlock, hsilent⟩ := hinv
  apply h.move [.found i run.files.files s.migrations.rows] hr
  · intro e he
    rw [List.mem_singleton.mp he]
    rfl
  · exact Or.inr (Or.inl hlock)
  · exact ⟨run.files.checksums, h.lawful⟩
  · intro v
    rw [List.singleton_append, exists_recorded_cons (fun j hj => by cases hj)]
    exact h.recorded v
  · refine ⟨hlock, ⟨List.mem_cons_self, ?_, ?_, ?_, ?_⟩, fun file hfile _ => Or.inl hfile⟩
    · intro files' applied' hfound
      rcases List.mem_cons.mp hfound with heq | hfound
      · cases heq
        exact ⟨rfl, rfl⟩
      · exact absurd rfl (hsilent _ hfound)
    · exact fun v hv => absurd rfl (hsilent _ (List.mem_of_ne_of_mem (by simp) hv))
    · exact fun v hv => absurd rfl (hsilent _ (List.mem_of_ne_of_mem (by simp) hv))
    · exact fun v hv => has_eq_true.mpr hv

/-- The check goes on. A changed file that it leaves behind is in `changed`. -/
lemma Inv.verify {applied : List SchemaMigration} {file : MigrationFile}
    {rest changed : List MigrationFile} (h : Inv initial s) (hr : s.runs[i]? = some run)
    (hstage : run.stage = .verifying applied (file :: rest) changed) :
    Inv initial (s.verify i run applied file rest changed) := by
  have hinv := h.runs i run hr
  simp only [Run.Inv, hstage] at hinv
  obtain ⟨hlock, hreading, hchanged⟩ := hinv
  have hmove : ∀ migrations changed', versionsOf migrations = versionsOf s.migrations →
      (isChanged applied file = true → changed' ≠ []) → (changed ≠ [] → changed' ≠ []) →
      Inv initial { s.setStage i run (.verifying applied rest changed') with
        migrations := migrations } := by
    intro migrations changed' hversions hfile hkept
    apply h.move [] hr
    · exact fun e he => absurd he List.not_mem_nil
    · exact Or.inr (Or.inl hlock)
    · exact h.lawful
    · rw [hversions]
      exact h.recorded
    · rw [hversions]
      refine ⟨hlock, hreading, fun file' hfile' his => ?_⟩
      rcases hchanged file' hfile' his with htodo | hne
      · rcases List.mem_cons.mp htodo with rfl | htodo
        · exact Or.inr (hfile his)
        · exact Or.inl htodo
      · exact Or.inr (hkept hne)
  simp only [State.verify]
  split
  · next hstored => exact hmove s.migrations changed rfl (by simp [isChanged, hstored]) id
  · next hstored =>
    exact hmove _ changed (versionsOf_backfill _ _) (by simp [isChanged, hstored]) id
  · apply hmove s.migrations _ rfl
    · intro his
      rw [if_pos his]
      simp
    · intro hne
      split_ifs
      · simp
      · exact hne

/-- The check has found no changed file. -/
lemma Inv.verified {applied : List SchemaMigration} (h : Inv initial s)
    (hr : s.runs[i]? = some run) (hstage : run.stage = .verifying applied [] []) :
    Inv initial (s.setStage i run (.applying applied run.files.files)) := by
  have hinv := h.runs i run hr
  simp only [Run.Inv, hstage] at hinv
  obtain ⟨hlock, hreading, hchanged⟩ := hinv
  apply h.move [] hr
  · exact fun e he => absurd he List.not_mem_nil
  · exact Or.inr (Or.inl hlock)
  · exact h.lawful
  · exact h.recorded
  · refine ⟨hlock, ⟨⟨_, _, hreading.read, fun _ => id⟩, ?_, hreading.unfailed, ?_,
      run.files.sorted, run.files.nodup, ?_⟩⟩
    · intro files' applied' hfound file hfile
      obtain ⟨rfl, rfl⟩ := hreading.found files' applied' hfound
      rw [Bool.eq_false_iff]
      intro his
      rcases hchanged file hfile his with htodo | hne
      · exact absurd htodo List.not_mem_nil
      · exact hne rfl
    · exact fun v hv => absurd hv (hreading.unexecuted v)
    · exact fun file _ hversion => hreading.has _ hversion

lemma Applying.exists_listed {versions : List String} {history : List Event}
    {applied : List SchemaMigration} {file : MigrationFile} {rest : List MigrationFile}
    (h : Applying env versions history i applied (file :: rest)) :
    ∃ files applied', .found i files applied' ∈ history ∧ ∀ file' ∈ rest, file' ∈ files := by
  obtain ⟨files, applied', hread, hmem⟩ := h.listed
  exact ⟨files, applied', hread, fun file' hfile' => hmem file' (List.mem_cons_of_mem _ hfile')⟩

/-- A file that is recorded is passed over. -/
lemma Inv.skip {applied : List SchemaMigration} {file : MigrationFile} {rest : List MigrationFile}
    (h : Inv initial s) (hr : s.runs[i]? = some run)
    (hstage : run.stage = .applying applied (file :: rest)) :
    Inv initial (s.setStage i run (.applying applied rest)) := by
  have hinv := h.runs i run hr
  simp only [Run.Inv, hstage] at hinv
  obtain ⟨hlock, happlying⟩ := hinv
  apply h.move [] hr
  · exact fun e he => absurd he List.not_mem_nil
  · exact Or.inr (Or.inl hlock)
  · exact h.lawful
  · exact h.recorded
  · exact ⟨hlock, ⟨happlying.exists_listed, happlying.unchanged, happlying.unfailed,
      fun v hv file' hfile' => happlying.after v hv file' (List.mem_cons_of_mem _ hfile'),
      happlying.sorted.of_cons, (List.nodup_cons.mp happlying.nodup).2,
      fun file' hfile' => happlying.has file' (List.mem_cons_of_mem _ hfile')⟩⟩

/-- An event of a run that applies its files, and no failure. -/
lemma Applying.cons {versions : List String} {history : List Event}
    {applied : List SchemaMigration} {todo : List MigrationFile} {e : Event}
    (h : Applying env versions history i applied todo)
    (hfound : ∀ files' applied', .found i files' applied' ≠ e) (hfailed : ∀ v, .failed i v ≠ e)
    (hafter : ∀ v, .executed i v = e → ∀ file ∈ todo, env.le v file.version = true) :
    Applying env versions (e :: history) i applied todo where
  listed := by
    obtain ⟨files, applied', hread, hmem⟩ := h.listed
    exact ⟨files, applied', List.mem_cons_of_mem _ hread, hmem⟩
  unchanged files' applied' he :=
    h.unchanged files' applied' (List.mem_of_ne_of_mem (hfound files' applied') he)
  unfailed v he := h.unfailed v (List.mem_of_ne_of_mem (hfailed v) he)
  after := by
    intro v hv
    rcases List.mem_cons.mp hv with heq | hv
    · exact hafter v heq
    · exact h.after v hv
  sorted := h.sorted
  nodup := h.nodup
  has := h.has

/-- A file that is not recorded is executed, after those before it and no failure. -/
lemma Inv.execute {applied : List SchemaMigration} {file : MigrationFile}
    {rest : List MigrationFile} (h : Inv initial s) (hr : s.runs[i]? = some run)
    (hstage : run.stage = .applying applied (file :: rest))
    (hpending : ¬has applied file.version = true) :
    Inv initial ((s.setStage i run (.executing applied file rest)).log
      (.executed i file.version)) := by
  have hinv := h.runs i run hr
  simp only [Run.Inv, hstage] at hinv
  obtain ⟨hlock, happlying⟩ := hinv
  have hversion : file.version ∉ versionsOf s.migrations := fun hv =>
    hpending (happlying.has file List.mem_cons_self hv)
  obtain ⟨files, applied', hread, hmem⟩ := happlying.listed
  apply h.move [.executed i file.version] hr
  · intro e he
    rw [List.mem_singleton.mp he]
    rfl
  · exact Or.inr (Or.inl hlock)
  · exact ⟨⟨h.unrecorded hversion, happlying.unfailed,
      fun v hv => happlying.after v hv file List.mem_cons_self,
      ⟨files, applied', hread, file, hmem file List.mem_cons_self, rfl⟩, happlying.unchanged⟩,
      h.lawful⟩
  · intro v
    rw [List.singleton_append, exists_recorded_cons (fun j hj => by cases hj)]
    exact h.recorded v
  · refine ⟨hlock, happlying.cons (by simp) (by simp) ?_, hversion, List.mem_cons_self⟩
    intro v heq file' hfile'
    cases heq
    rcases List.mem_cons.mp hfile' with rfl | hfile'
    · exact (total_of (Before env) file' file').elim id id
    · exact List.rel_of_pairwise_cons happlying.sorted hfile'

/-- A file that was executed is recorded. The others have other versions. -/
lemma Inv.recordFile {applied : List SchemaMigration} {file : MigrationFile}
    {rest : List MigrationFile} (h : Inv initial s) (hr : s.runs[i]? = some run)
    (hstage : run.stage = .executing applied file rest) :
    Inv initial (s.recordFile i run applied file rest) := by
  simp only [State.recordFile]
  split
  · next migrations hrecord =>
    have hinv := h.runs i run hr
    simp only [Run.Inv, hstage] at hinv
    obtain ⟨hlock, happlying, hversion, hexecuted⟩ := hinv
    have hversions := versionsOf_record hrecord
    apply h.move [.recorded i file.version] hr
    · intro e he
      rw [List.mem_singleton.mp he]
      rfl
    · exact Or.inr (Or.inl hlock)
    · exact ⟨⟨h.unrecorded hversion, hexecuted, happlying.unfailed⟩, h.lawful⟩
    · intro v
      change v ∈ versionsOf migrations ↔ _
      rw [hversions, List.mem_append, List.mem_singleton, h.recorded v, List.singleton_append]
      constructor
      · rintro ((hv | ⟨j, hj⟩) | rfl)
        · exact Or.inl hv
        · exact Or.inr ⟨j, List.mem_cons_of_mem _ hj⟩
        · exact Or.inr ⟨i, List.mem_cons_self⟩
      · rintro (hv | ⟨j, hj⟩)
        · exact Or.inl (Or.inl hv)
        · rcases List.mem_cons.mp hj with heq | hj
          · cases heq
            exact Or.inr rfl
          · exact Or.inl (Or.inr ⟨j, hj⟩)
    · obtain ⟨hother, hnodup⟩ := List.nodup_cons.mp happlying.nodup
      have hcons := happlying.cons (e := .recorded i file.version) (by simp) (by simp) (by simp)
      refine ⟨hlock, ⟨hcons.exists_listed, hcons.unchanged, hcons.unfailed, ?_,
        hcons.sorted.of_cons, hnodup, ?_⟩⟩
      · exact fun v hv file' hfile' => hcons.after v hv file' (List.mem_cons_of_mem _ hfile')
      · intro file' hfile' hrecorded
        change file'.version ∈ versionsOf migrations at hrecorded
        rw [hversions, List.mem_append, List.mem_singleton] at hrecorded
        rcases hrecorded with hrecorded | heq
        · exact happlying.has file' (List.mem_cons_of_mem _ hfile') hrecorded
        · exact absurd (heq ▸ List.mem_map_of_mem hfile') hother
  · exact h.fails hr hstage

/-- A run begins with nothing in the history. -/
lemma Inv.start (h : Inv initial s) (files : MigrationFiles env) :
    Inv initial { s with runs := s.runs ++ [⟨files, .resolved⟩] } where
  lawful := h.lawful
  recorded := h.recorded
  known := by
    intro e he
    change e.run < (s.runs ++ [_]).length
    rw [List.length_append]
    exact Nat.lt_add_right _ (h.known e he)
  runs := by
    intro i run hi
    rw [List.getElem?_append] at hi
    split_ifs at hi with hlt
    · exact h.runs i run hi
    · rw [List.mem_singleton.mp (List.mem_of_getElem? hi)]
      exact fun e he heq => hlt (heq ▸ h.known e he)

/-! ### Runs -/

lemma inv_proceed (h : Inv initial s) (hr : s.runs[i]? = some run)
    (hs : proceed s i run = some s') : Inv initial s' := by
  simp only [proceed] at hs
  split at hs
  · next hstage =>
    split_ifs at hs with hfree
    cases hs
    exact h.takeLock hr hstage hfree
  · next hstage => cases hs; exact h.read hr hstage
  · next hstage => cases hs; exact h.verify hr hstage
  · next applied changed hstage =>
    split_ifs at hs with hchanged
    · cases hs; exact h.stop hr
    · cases hs
      rw [not_not.mp hchanged] at hstage
      exact h.verified hr hstage
  · next hstage =>
    split_ifs at hs with hpending
    · cases hs; exact h.skip hr hstage
    · cases hs; exact h.execute hr hstage hpending
  · cases hs; exact h.stop hr
  · next hstage => cases hs; exact h.recordFile hr hstage
  · cases hs

lemma inv_step {a : Action} (h : Inv initial s) (hs : step s a = some s') : Inv initial s' := by
  cases a with
  | start includeDev root dev =>
    simp only [step] at hs
    split at hs
    · cases hs; exact h.start _
    · cases hs; exact h
  | proceed i =>
    obtain ⟨run, hr, hs⟩ := Option.bind_eq_some_iff.mp hs
    exact inv_proceed h hr hs
  | fileFails i =>
    obtain ⟨run, hr, hs⟩ := Option.bind_eq_some_iff.mp hs
    split at hs
    · next hstage => cases hs; exact h.fails hr hstage
    · cases hs
  | stop i =>
    obtain ⟨run, hr, rfl⟩ := Option.map_eq_some_iff.mp hs
    exact h.stop hr

/-- Versions that the table tells apart are different. -/
lemma nodup_versionsOf (migrations : SchemaMigrations env) : (versionsOf migrations).Nodup := by
  have hkeys := migrations.nodup
  have hmap : migrations.rows.map (fun row => env.collationKey row.version)
      = (versionsOf migrations).map env.collationKey := by
    simp [versionsOf]
  rw [hmap] at hkeys
  exact hkeys.of_map _

/-- Over every sequence of runs, concurrent or not: no version is recorded twice; what is recorded
was so at the start or is recorded in the history; and each event of the history is lawful: a run
reads its files with their checksums, and executes only what it read. -/
theorem runs_lawful {migrations : SchemaMigrations env}
    (h : Reach step always (State.init migrations) s) :
    (versionsOf s.migrations).Nodup ∧
    (∀ v, v ∈ versionsOf s.migrations ↔
      v ∈ versionsOf migrations ∨ ∃ i, .recorded i v ∈ s.history) ∧
    ∀ later e past, s.history = later ++ e :: past →
      Lawful env (versionsOf migrations) past e := by
  have hinv : Inv (versionsOf migrations) s := h.invariant (Inv.init migrations)
    fun _ _ _ hi _ hs => inv_step hi hs
  exact ⟨nodup_versionsOf s.migrations, hinv.recorded, obeys_iff.mp hinv.lawful⟩

/-- The hash shows its text, and names are ordered and compared as they are. -/
def plainEnv : MigrateEnv where
  sha256 := id
  le a b := decide (a ≤ b)
  le_total a b := by simp [le_total]
  le_trans a b c hab hbc :=
    decide_eq_true (le_trans (of_decide_eq_true hab) (of_decide_eq_true hbc))
  collationKey := id

/-- The second run reads an edited `001.sql` and waits for the lock; the first applies `001.sql` and
fails in `002.sql`. -/
def editedMeanwhile : List Action :=
  [.start false [⟨"002.sql", true, "b"⟩, ⟨"001.sql", true, "a"⟩, ⟨"notes.txt", true, "n"⟩] [],
    .start false [⟨"001.sql", true, "a2"⟩, ⟨"003.sql", true, "c"⟩] [], .proceed 0, .proceed 0,
    .proceed 0, .proceed 0, .proceed 0, .proceed 0, .proceed 0, .proceed 0, .fileFails 0,
    .proceed 1, .proceed 1, .proceed 1, .proceed 1, .proceed 1]

theorem runs_lawful_edited : ∃ s : State plainEnv,
    versionsOf s.migrations = ["001.sql"] ∧ s.lock = none ∧
      s.history.drop 1 = [.failed 0 "002.sql", .executed 0 "002.sql", .recorded 0 "001.sql",
        .executed 0 "001.sql",
        .found 0 [⟨"001.sql", "a", "a"⟩, ⟨"002.sql", "b", "b"⟩] []] ∧
      ∀ later e past, s.history = later ++ e :: past → Lawful plainEnv [] past e := by
  obtain ⟨s, hrun, hversions, hlock, hhistory⟩ := exists_of_run step (State.init .empty)
    editedMeanwhile
    (P := fun s : State plainEnv => versionsOf s.migrations = ["001.sql"] ∧ s.lock = none ∧
      s.history.drop 1 = [.failed 0 "002.sql", .executed 0 "002.sql", .recorded 0 "001.sql",
        .executed 0 "001.sql",
        .found 0 [⟨"001.sql", "a", "a"⟩, ⟨"002.sql", "b", "b"⟩] []]) (by decide +kernel)
  exact ⟨s, hversions, hlock, hhistory, (runs_lawful (Reach.of_run hrun)).2.2⟩

end SafeerApi.Migrations.Runner
