import SafeerApi.Crud.Kernel
import SafeerApi.Lib.RowLocks

/-!
# Reorders in flight (`crud.factory.ts`)

A reorder writes one `sort_order` after another in one transaction, while other reorders, saves and
removals of the same rows go on. Whatever overlaps, and whichever of them the database rolls back,
each reorder that commits is there as a whole.
-/

namespace SafeerApi.Crud.Reorder

open Common Lib RowLocks

variable {R : Type*} {key : R → ℕ}

/-- What a request's transaction does to the rows of a collection: `reorder`, the `UPDATE` of a
save, or the `DELETE` of `remove`. -/
inductive Work (key : R → ℕ) where
  | reorder (items : List ReorderItem)
  | save (id : ℕ) (columns : R → R) (hkey : ∀ r, key (columns r) = key r)
  | remove (id : ℕ)

variable (sql : SqlNumeric) (setSortOrder : ℤ → R → R)
  (hset : ∀ n r, key (setSortOrder n r) = key r)

/-- `UPDATE .. SET sort_order = ? WHERE id = ?`, where the text is an id. -/
def updateStatement (item : ReorderItem) : Option (Statement ℕ R) :=
  (sql.rowId item.id).map fun id => (id, fun r => some (setSortOrder item.sortOrder r))

def Work.statements : Work key → List (Statement ℕ R)
  | .reorder items => items.filterMap (updateStatement sql setSortOrder)
  | .save id columns _ => [(id, fun r => some (columns r))]
  | .remove id => [(id, fun _ => none)]

/-- The same on a table that nobody else writes. -/
def Work.run (t : Table key) : Work key → Table key
  | .reorder items => Crud.reorder sql setSortOrder hset t items
  | .save id columns hkey => t.updateWhere (fun r => key r = id) columns hkey
  | .remove id => t.delete id

variable {sql setSortOrder hset}

lemma find_updateWhere_key (t : Table key) {f : R → R} (hf : ∀ r, key (f r) = key r)
    {p : R → Bool} {id : ℕ} (hp : ∀ r, p r = true ↔ key r = id) :
    (t.updateWhere p f hf).find = execute t.find (id, fun r => some (f r)) := by
  funext i
  rw [Table.find_updateWhere]
  by_cases hi : i = id
  · subst hi
    rw [execute, Function.update_self]
    cases hfind : t.find i with
    | none => rfl
    | some r => simp [(hp r).mpr (Table.key_of_find hfind)]
  · rw [execute, Function.update_of_ne hi]
    cases hfind : t.find i with
    | none => rfl
    | some r =>
      have hkey : key r ≠ id := fun heq => hi ((Table.key_of_find hfind).symm.trans heq)
      have hpr : ¬p r = true := fun h => hkey ((hp r).mp h)
      simp [hpr]

variable (sql setSortOrder hset) in
/-- The statements of a request do what the request does to the table. -/
lemma find_run (t : Table key) (work : Work key) :
    (work.run sql setSortOrder hset t).find
      = executeAll t.find (work.statements sql setSortOrder) := by
  cases work with
  | reorder items =>
    simp only [Work.run, Work.statements, Crud.reorder]
    induction items generalizing t with
    | nil => rfl
    | cons item items ih =>
      rw [List.foldl_cons, ih]
      cases hid : sql.rowId item.id with
      | none =>
        rw [List.filterMap_cons_none (by simp [updateStatement, hid])]
        congr 1
        funext i
        rw [Table.find_updateWhere]
        cases t.find i <;> rfl
      | some id =>
        rw [List.filterMap_cons_some (by simp [updateStatement, hid]; rfl), executeAll,
          executeAll, List.foldl_cons]
        congr 1
        exact find_updateWhere_key t (hset item.sortOrder) fun r => by simp [eq_comm]
  | save id columns hkey => exact find_updateWhere_key t hkey fun r => by simp
  | remove id =>
    funext i
    rw [Work.run, Table.find_delete]
    by_cases hi : i = id
    · subst hi
      simp [Work.statements, executeAll, execute]
    · simp [Work.statements, executeAll, execute, hi]

/-- The rows that a reorder names. -/
def namedRows (sql : SqlNumeric) (items : List ReorderItem) : List ℕ :=
  items.filterMap fun item => sql.rowId item.id

lemma map_fst_statements (items : List ReorderItem) :
    ((Work.reorder items : Work key).statements sql setSortOrder).map Prod.fst
      = namedRows sql items := by
  simp only [Work.statements, namedRows, List.map_filterMap]
  apply List.filterMap_congr
  intro item _
  simp [updateStatement, Function.comp_def]

/-- A row of a sortable collection. -/
structure SortedRow where
  id : ℕ
  sortOrder : ℤ
  deriving DecidableEq

def setOrder (n : ℤ) (row : SortedRow) : SortedRow := { row with sortOrder := n }

def threeRows : Table SortedRow.id := ⟨[⟨1, 0⟩, ⟨2, 1⟩, ⟨3, 2⟩], by decide⟩

/-- Each waits for a row of the other; the database rolls the second one back. -/
def crossing : List (Action (Work SortedRow.id)) :=
  [.begin 1 (.reorder [⟨"1", 10⟩, ⟨"2", 20⟩]), .begin 2 (.reorder [⟨"2", 5⟩, ⟨"1", 6⟩]), .execute 1,
    .execute 2, .rollback 2, .execute 1, .commit 1]

end SafeerApi.Crud.Reorder
