import Mathlib.Data.List.Sort
import SafeerApi.Lib.Joined
import SafeerApi.Lib.Table
import SafeerApi.Common.Problem
import SafeerApi.Common.Schema
import SafeerApi.Common.SqlNumeric
import SafeerApi.Crud.Kernel
import SafeerApi.OrgChart.TreeGuard

/-!
# Org positions (`admin-org-positions.controller.ts`, `org-position.entity.ts`)

What each request decides is a function of the table it reads: `create` and `update` check the
parent pointer they are about to write with the tree guard, on the ids as texts, and `remove` looks
for what still points at the row. `publish` and `reorder` are the kernel's.
-/

namespace SafeerApi.OrgChart

open Common Crud Lib

/-! ### Rows -/

inductive OrgTone where
  | auto
  | neutral
  | sky
  | green
  | brand
  deriving DecidableEq, Repr

structure OrgPosition where
  id : ℕ
  nameAr : String
  nameEn : Option String := none
  parentId : Option ℕ := none
  tone : OrgTone := .auto
  showHolders : Bool := true
  isPublished : Bool := true
  sortOrder : ℤ := 0
  deriving DecidableEq, Repr

abbrev Positions := Table OrgPosition.id

/-- The columns of `board_members` that `remove` reads. -/
structure BoardMember where
  id : ℕ
  nameAr : String
  orgPositionId : Option ℕ
  deriving DecidableEq, Repr

/-! ### Bodies -/

/-- In every body `none` is an absent field; a nullable one may also be present as null. -/
structure CreateOrgPositionDto where
  nameAr : String
  nameEn : Option (Option String) := none
  parentId : Option (Option String) := none
  tone : Option OrgTone := none
  showHolders : Option Bool := none
  isPublished : Option Bool := none
  sortOrder : Option ℤ := none

structure UpdateOrgPositionDto where
  nameAr : Option String := none
  nameEn : Option (Option String) := none
  parentId : Option (Option String) := none
  tone : Option OrgTone := none
  showHolders : Option Bool := none
  isPublished : Option Bool := none
  sortOrder : Option ℤ := none

def nameArSchema : String → Option String := trimmed 1 190

def nameEnSchema : Option (Option String) → Option (Option (Option String)) :=
  optional (optional (trimmed 0 190))

def parentIdSchema : Option (Option String) → Option (Option (Option String)) :=
  optional (optional digits)

def createOrgPositionSchema (body : CreateOrgPositionDto) : Option CreateOrgPositionDto := do
  let nameAr ← nameArSchema body.nameAr
  let nameEn ← nameEnSchema body.nameEn
  let parentId ← parentIdSchema body.parentId
  return { body with nameAr := nameAr, nameEn := nameEn, parentId := parentId }

def updateOrgPositionSchema (body : UpdateOrgPositionDto) : Option UpdateOrgPositionDto := do
  let nameAr ← optional nameArSchema body.nameAr
  let nameEn ← nameEnSchema body.nameEn
  let parentId ← parentIdSchema body.parentId
  return { body with nameAr := nameAr, nameEn := nameEn, parentId := parentId }

/-! ### The rows as the guard gets them -/

/-- `lockTree`: `SELECT id, parent_id FROM org_positions ORDER BY id FOR UPDATE`, as texts. -/
def lockTree (positions : Positions) : List TreeRow :=
  (positions.rows.insertionSort fun p q => p.id ≤ q.id).map fun p =>
    ⟨toString p.id, p.parentId.map toString⟩

def guardMessages : TreeGuardError → String
  | .selfParent => "A position cannot report to itself"
  | .parentNotFound => "The parent position does not exist"
  | .cycle => "A position cannot report to one of its own sub-positions"
  | .tooDeep => s!"The chart is limited to {orgMaxDepth} levels"

def TreeGuardError.reason : TreeGuardError → String
  | .selfParent => "SELF_PARENT"
  | .parentNotFound => "PARENT_NOT_FOUND"
  | .cycle => "CYCLE"
  | .tooDeep => "TOO_DEEP"

def assertParent (rows : List TreeRow) (id parentId : Option String) : Except Problem Unit :=
  match checkParent rows id parentId with
  | some error =>
    .error ⟨400, .validationFailed, guardMessages error,
      [("field", "parentId"), ("reason", error.reason)], []⟩
  | none => .ok ()

/-- `COALESCE(MAX(sort_order), -1) + 1` over the rows with that parent. -/
def nextSortOrder (sql : SqlNumeric) (positions : Positions) (parentId : Option String) : ℤ :=
  let siblings := positions.rows.filter fun p =>
    match parentId with
    | none => p.parentId = none
    | some text => p.parentId.any fun n => sql.rowId text = some n
  ((siblings.map OrgPosition.sortOrder).max?.getD (-1)) + 1

/-! ### Deciding -/

/-- `findOne({ where: { id } })`, with a string id. -/
def findPosition (sql : SqlNumeric) (positions : Positions) (id : String) :
    Except Problem OrgPosition :=
  match (sql.rowId id).bind positions.find with
  | some p => .ok p
  | none => .error notFound

/-- The draft `create` inserts. -/
def prepareCreate (sql : SqlNumeric) (positions : Positions) (dto : CreateOrgPositionDto) :
    Except Problem OrgPosition := do
  let parentId := dto.parentId.join
  assertParent (lockTree positions) none parentId
  return {
    -- set by the insertion
    id := 0
    nameAr := dto.nameAr
    nameEn := dto.nameEn.join
    -- the column takes the text as a number
    parentId := parentId.bind sql.rowId
    tone := dto.tone.getD .auto
    showHolders := dto.showHolders.getD true
    isPublished := dto.isPublished.getD true
    sortOrder := dto.sortOrder.getD (nextSortOrder sql positions parentId) }

/-- `Object.assign(current, dto)`, but for the parent. -/
def OrgPosition.assign (p : OrgPosition) (dto : UpdateOrgPositionDto) : OrgPosition :=
  { p with
    nameAr := dto.nameAr.getD p.nameAr
    nameEn := dto.nameEn.getD p.nameEn
    tone := dto.tone.getD p.tone
    showHolders := dto.showHolders.getD p.showHolders
    isPublished := dto.isPublished.getD p.isPublished
    sortOrder := dto.sortOrder.getD p.sortOrder }

/-- The parent an update moves a row to: the ids are compared as texts. -/
def movesTo (current : OrgPosition) (dto : UpdateOrgPositionDto) : Option (Option String) :=
  dto.parentId.filter fun parentId => parentId ≠ current.parentId.map toString

/-- The row `update` saves. -/
def prepareUpdate (sql : SqlNumeric) (positions : Positions) (id : String)
    (dto : UpdateOrgPositionDto) : Except Problem OrgPosition := do
  let current ← findPosition sql positions id
  match movesTo current dto with
  | none => return current.assign dto
  | some parentId =>
    assertParent (lockTree positions) (some id) parentId
    return { current.assign dto with
      parentId := parentId.bind sql.rowId
      sortOrder := dto.sortOrder.getD (nextSortOrder sql positions parentId) }

/-- What still points at a row: sub-positions, then members. -/
def usagesOf (sql : SqlNumeric) (positions : Positions) (members : List BoardMember)
    (id : String) : List Usage :=
  (positions.rows.filter fun p => p.parentId.any fun n => sql.rowId id = some n).map
      (fun p => ⟨"org_positions", toString p.id, p.nameAr⟩) ++
    (members.filter fun m => m.orgPositionId.any fun n => sql.rowId id = some n).map
      (fun m => ⟨"board_members", toString m.id, m.nameAr⟩)

/-- The row `remove` deletes. -/
def prepareRemove (sql : SqlNumeric) (positions : Positions) (members : List BoardMember)
    (id : String) : Except Problem OrgPosition := do
  let current ← findPosition sql positions id
  let usages := usagesOf sql positions members id
  if usages ≠ [] then
    .error ⟨409, .resourceInUse, s!"\"{current.nameAr}\" still has sub-positions or members",
      [], usages⟩
  else return current

/-- The kernel's `publish`: the loaded row with the flag set. -/
def OrgPosition.publish (p : OrgPosition) (dto : PublishDto) : OrgPosition :=
  { p with isPublished := dto.isPublished.getD true }

def OrgPosition.setSortOrder (n : ℤ) (p : OrgPosition) : OrgPosition := { p with sortOrder := n }

/-- The kernel's `reorder`. -/
def reorderPositions (sql : SqlNumeric) (positions : Positions) (items : List ReorderItem) :
    Positions :=
  reorder sql OrgPosition.setSortOrder (fun _ _ => rfl) positions items

/-! ### The chart as a forest -/

/-- The parent pointers of the table. -/
def pointers (positions : Positions) (n : ℕ) : Option (Option ℕ) :=
  (positions.find n).map OrgPosition.parentId

/-- The chart is a forest of at most five levels. -/
def ChartOk (positions : Positions) : Prop := IsForest (pointers positions) orgMaxDepth

variable {sql : SqlNumeric} {positions : Positions} {n : ℕ}

lemma mem_lockTree {r : TreeRow} : r ∈ lockTree positions ↔
    ∃ p ∈ positions.rows, ⟨toString p.id, p.parentId.map toString⟩ = r := by
  simp [lockTree]

lemma nodup_lockTree : ((lockTree positions).map TreeRow.id).Nodup := by
  have hids : (lockTree positions).map TreeRow.id
      = ((positions.rows.insertionSort fun p q => p.id ≤ q.id).map OrgPosition.id).map toString := by
    simp [lockTree]
  rw [hids]
  apply List.Nodup.map (fun _ _ => toString_inj)
  exact ((List.perm_insertionSort ..).map _).nodup_iff.mpr positions.nodup

/-- The guard sees the table's pointers, as texts. -/
lemma up_lockTree (n : ℕ) :
    up (lockTree positions) (toString n) = (pointers positions n).map (Option.map toString) := by
  cases hfind : positions.find n with
  | some p =>
    obtain ⟨hp, rfl⟩ := Table.find_eq_some.mp hfind
    have hrow := (byId_eq_some nodup_lockTree).mpr
      ⟨mem_lockTree.mpr ⟨p, hp, rfl⟩, rfl⟩
    rw [up, hrow, pointers, hfind]
    rfl
  | none =>
    rw [up, pointers, hfind]
    cases hrow : byId (lockTree positions) (toString n) with
    | none => rfl
    | some r =>
      obtain ⟨hr, hid⟩ := (byId_eq_some nodup_lockTree).mp hrow
      obtain ⟨p, hp, rfl⟩ := mem_lockTree.mp hr
      exact absurd (toString_inj hid) (Table.find_eq_none.mp hfind p hp)

/-- A text the guard knows is the id of a row. -/
lemma exists_of_up {s : String} (h : (up (lockTree positions) s).isSome) :
    ∃ n, toString n = s ∧ (pointers positions n).isSome := by
  obtain ⟨r, hr, rfl⟩ := List.mem_map.mp (mem_ids_of_up h)
  obtain ⟨p, hp, rfl⟩ := mem_lockTree.mp hr
  refine ⟨p.id, rfl, ?_⟩
  rw [pointers, Table.mem_iff_find.mp hp]
  rfl

lemma isForest_lockTree : IsForest (up (lockTree positions)) orgMaxDepth ↔ ChartOk positions :=
  isForest_rename (f := toString) up_lockTree fun s hs => by
    obtain ⟨n, hn, -⟩ := exists_of_up hs
    exact ⟨n, hn⟩

/-- A change of one pointer is the same change to the guard. -/
lemma isForest_update_lockTree (parent : Option ℕ) :
    IsForest (Function.update (up (lockTree positions)) (toString n) (some (parent.map toString)))
        orgMaxDepth ↔
      IsForest (Function.update (pointers positions) n (some parent)) orgMaxDepth := by
  refine isForest_rename (f := toString) (fun m => ?_) fun s hs => ?_
  · by_cases hm : m = n
    · subst hm
      simp
    · have hne : toString m ≠ toString n := fun h => hm (toString_inj h)
      rw [Function.update_of_ne hne, Function.update_of_ne hm, up_lockTree]
  · by_cases hs' : s = toString n
    · exact ⟨n, hs'.symm⟩
    · rw [Function.update_of_ne hs'] at hs
      obtain ⟨m, hm, -⟩ := exists_of_up hs
      exact ⟨m, hm⟩

/-- A parent the guard accepts is null or the id of a row, spelled as the database spells it. -/
lemma parent_of_checkParent (sql : SqlNumeric) {id parentId : Option String}
    (h : checkParent (lockTree positions) id parentId = none) :
    ∃ parent : Option ℕ, parentId = parent.map toString ∧ parentId.bind sql.rowId = parent := by
  cases parentId with
  | none => exact ⟨none, rfl, rfl⟩
  | some text =>
    rw [checkParent] at h
    split_ifs at h with hself hrow hcycle hdeep
    have hup : (up (lockTree positions) text).isSome := by
      rw [up, Option.isSome_map]
      simpa [Option.isSome_iff_ne_none] using hrow
    obtain ⟨n, rfl, -⟩ := exists_of_up hup
    exact ⟨some n, rfl, sql.canonical n⟩

lemma assertParent_ok {rows : List TreeRow} {id parentId : Option String} {u : Unit}
    (h : assertParent rows id parentId = .ok u) : checkParent rows id parentId = none := by
  simp only [assertParent] at h
  split at h
  · cases h
  · assumption

/-- The guard, asked under a row's own id, accepts exactly the moves that keep the chart a forest. -/
theorem checkParent_own_iff (h : ChartOk positions) (parent : Option ℕ) :
    checkParent (lockTree positions) (some (toString n)) (parent.map toString) = none ↔
      IsForest (Function.update (pointers positions) n (some parent)) orgMaxDepth := by
  have hguard := checkParent_eq_none_iff nodup_lockTree (isForest_lockTree.mpr h) (by decide)
    (toString n) (parent.map toString)
  exact hguard.trans (isForest_update_lockTree parent)

/-- The guard accepts exactly the new rows that keep the chart a forest. -/
theorem checkParent_new_iff (h : ChartOk positions) (hnew : positions.find n = none)
    (parent : Option ℕ) :
    checkParent (lockTree positions) none (parent.map toString) = none ↔
      IsForest (Function.update (pointers positions) n (some parent)) orgMaxDepth := by
  have hup : up (lockTree positions) (toString n) = none := by
    rw [up_lockTree, pointers, hnew]
    rfl
  have hguard := checkParent_new_eq_none_iff (isForest_lockTree.mpr h) (by decide) hup
    (parent.map toString)
  exact hguard.trans (isForest_update_lockTree parent)

/-! ### What the writes do to the pointers -/

lemma pointers_replace {p : OrgPosition} (h : (positions.find p.id).isSome) :
    pointers (positions.replace p) = Function.update (pointers positions) p.id (some p.parentId) := by
  obtain ⟨q, hq⟩ := Option.isSome_iff_exists.mp h
  funext m
  by_cases hm : m = p.id
  · subst hm
    simp [pointers, Table.find_replace, hq]
  · simp [pointers, Table.find_replace, hm]

lemma pointers_insert {p : OrgPosition} (h : positions.find p.id = none) :
    pointers (positions.insert p h)
      = Function.update (pointers positions) p.id (some p.parentId) := by
  funext m
  by_cases hm : m = p.id
  · subst hm
    simp [pointers, Table.find_insert]
  · simp [pointers, Table.find_insert, hm]

lemma pointers_delete (n : ℕ) :
    pointers (positions.delete n) = Function.update (pointers positions) n none := by
  funext m
  by_cases hm : m = n
  · subst hm
    simp [pointers, Table.find_delete]
  · simp [pointers, Table.find_delete, hm]

/-- A row written with the parent it has leaves every pointer. -/
lemma pointers_replace_eq {p q : OrgPosition} (h : positions.find p.id = some q)
    (hparent : p.parentId = q.parentId) : pointers (positions.replace p) = pointers positions := by
  rw [pointers_replace (by rw [h]; rfl), hparent]
  apply Function.update_eq_self_iff.mpr
  rw [pointers, h]
  rfl

/-- Pointers are read off the rows' ids and parents. -/
lemma pointers_congr {positions' : Positions}
    (h : positions'.rows.map (fun p => (p.id, p.parentId))
      = positions.rows.map fun p => (p.id, p.parentId)) :
    pointers positions' = pointers positions := by
  have hfind : ∀ (t : Positions) n, pointers t n
      = ((t.rows.map fun p => (p.id, p.parentId)).find? fun x => x.1 = n).map Prod.snd := by
    intro t n
    rw [pointers, Table.find, List.find?_map, Option.map_map]
    rfl
  funext n
  rw [hfind, hfind, h]

lemma pointers_reorder (items : List ReorderItem) :
    pointers (reorderPositions sql positions items) = pointers positions := by
  refine pointers_congr (map_reorder ?_ positions items)
  exact fun _ _ => rfl

/-- A row with nothing under it can go. -/
lemma ChartOk.delete (h : ChartOk positions)
    (hleaf : ∀ p ∈ positions.rows, p.parentId ≠ some n) : ChartOk (positions.delete n) := by
  rw [ChartOk, pointers_delete]
  apply IsForest.delete h
  intro m hm
  obtain ⟨p, hp, hparent⟩ := Option.map_eq_some_iff.mp hm
  exact hleaf p (Table.find_eq_some.mp hp).1 hparent

/-! ### What the decisions allow -/

lemma findPosition_ok {id : String} {p : OrgPosition}
    (h : findPosition sql positions id = .ok p) :
    sql.rowId id = some p.id ∧ positions.find p.id = some p := by
  simp only [findPosition] at h
  split at h
  · next q hq =>
    cases h
    obtain ⟨m, hm, hfind⟩ := Option.bind_eq_some_iff.mp hq
    obtain rfl := Table.key_of_find hfind
    exact ⟨hm, hfind⟩
  · cases h

/-- A created row keeps the chart a forest, whatever id it gets. -/
lemma prepareCreate_ok (h : ChartOk positions) {dto : CreateOrgPositionDto} {draft : OrgPosition}
    (hdraft : prepareCreate sql positions dto = .ok draft) (hnew : positions.find n = none) :
    IsForest (Function.update (pointers positions) n (some draft.parentId)) orgMaxDepth := by
  obtain ⟨_, hguard, hdraft⟩ := bind_eq_ok hdraft
  have hcheck := assertParent_ok hguard
  obtain ⟨parent, htext, hparent⟩ := parent_of_checkParent sql hcheck
  cases hdraft
  rw [htext] at hcheck
  simpa only [hparent] using (checkParent_new_iff h hnew parent).mp hcheck

/-- What an accepted update writes: the row's own parent, or one the guard accepted for the id as
it was spelled. -/
lemma prepareUpdate_ok {id : String} {dto : UpdateOrgPositionDto} {p : OrgPosition}
    (hp : prepareUpdate sql positions id dto = .ok p) :
    ∃ current, findPosition sql positions id = .ok current ∧ p.id = current.id ∧
      ((movesTo current dto = none ∧ p.parentId = current.parentId) ∨
        ∃ parent : Option ℕ, movesTo current dto = some (parent.map toString) ∧
          p.parentId = parent ∧
          checkParent (lockTree positions) (some id) (parent.map toString) = none) := by
  obtain ⟨current, hcurrent, hp⟩ := bind_eq_ok hp
  refine ⟨current, hcurrent, ?_⟩
  cases hmoves : movesTo current dto with
  | none =>
    rw [hmoves] at hp
    cases hp
    exact ⟨rfl, Or.inl ⟨rfl, rfl⟩⟩
  | some parentId =>
    rw [hmoves] at hp
    obtain ⟨_, hguard, hp⟩ := bind_eq_ok hp
    have hcheck := assertParent_ok hguard
    obtain ⟨parent, rfl, hparent⟩ := parent_of_checkParent sql hcheck
    cases hp
    exact ⟨rfl, Or.inr ⟨parent, rfl, hparent, hcheck⟩⟩

/-- A removed row has no sub-positions. -/
lemma prepareRemove_ok {members : List BoardMember} {id : String} {p : OrgPosition}
    (hp : prepareRemove sql positions members id = .ok p) :
    findPosition sql positions id = .ok p ∧ ∀ q ∈ positions.rows, q.parentId ≠ some p.id := by
  obtain ⟨current, hcurrent, hp⟩ := bind_eq_ok hp
  dsimp only at hp
  split_ifs at hp with husages
  cases hp
  refine ⟨hcurrent, fun q hq hparent => husages ?_⟩
  have hmem : (⟨"org_positions", toString q.id, q.nameAr⟩ : Usage)
      ∈ usagesOf sql positions members id := by
    refine List.mem_append_left _ (List.mem_map.mpr ⟨q, List.mem_filter.mpr ⟨hq, ?_⟩, rfl⟩)
    simp [hparent, (findPosition_ok hcurrent).1]
  exact List.ne_nil_of_mem hmem

end SafeerApi.OrgChart
