import SafeerApi.Lib.DirtyWrite
import SafeerApi.Lib.Reach
import SafeerApi.OrgChart.Positions

/-!
# The org chart under concurrency

The database steps of any number of requests, in any order. `create` and `update` lock every row,
and the gaps between them, before they check; `remove` locks its row. A write waits for the locks of
others. The kernel's `publish` holds no lock between its load and its save, and a save writes every
column in which the loaded entity differs from the row it re-reads: the parent pointer too, when the
row has been moved since.
-/

namespace SafeerApi.OrgChart.Concurrent

open Common Crud Lib

/-! ### Requests under way -/

/-- Where a request is. -/
inductive Tx where
  /-- `lockTree` has returned these rows. -/
  | scanned (rows : Positions)
  /-- `create` is about to insert the draft. -/
  | inserting (draft : OrgPosition)
  /-- `update` is about to save the row. -/
  | saving (p : OrgPosition)
  /-- `remove` has found and locked the row. -/
  | removing (p : OrgPosition)
  /-- `remove` has found nothing that points at the row. -/
  | unused (p : OrgPosition)
  /-- `publish` has loaded the row and set the flag. -/
  | loaded (entity : OrgPosition)
  /-- The save of `publish` has re-read the row. -/
  | reread (entity : OrgPosition) (row : Option OrgPosition)

/-- The transaction holds every row, and the gaps. -/
def Tx.scans : Tx → Bool
  | .scanned _ | .inserting _ | .saving _ => true
  | _ => false

/-- The transaction holds row `n`. -/
def Tx.locks (n : ℕ) : Tx → Bool
  | .removing p | .unused p => p.id = n
  | tx => tx.scans

abbrev Txs := Table (Prod.fst : ℕ × Tx → ℕ)

/-- The committed table, and the requests under way. -/
structure State where
  positions : Positions
  members : List BoardMember
  txs : Txs

def State.init (positions : Positions) (members : List BoardMember) : State :=
  ⟨positions, members, .empty⟩

/-- No other request holds row `n`. -/
def State.rowFree (s : State) (t n : ℕ) : Bool :=
  s.txs.rows.all fun x => x.1 = t || !x.2.locks n

/-- No other request holds the gaps. -/
def State.gapFree (s : State) (t : ℕ) : Bool :=
  s.txs.rows.all fun x => x.1 = t || !x.2.scans

def State.begin (s : State) (t : ℕ) (tx : Tx) : Option State :=
  if h : s.txs.find t = none then some { s with txs := s.txs.insert (t, tx) h } else none

def State.continue (s : State) (t : ℕ) (tx : Tx) : State :=
  { s with txs := s.txs.replace (t, tx) }

/-- The request is over, committed or not. -/
def State.finish (s : State) (t : ℕ) : State := { s with txs := s.txs.delete t }

/-! ### Writes -/

/-- `fk_org_positions_parent` -/
def fkParent (positions : Positions) (p : OrgPosition) : Bool :=
  p.parentId.all fun n => (positions.find n).isSome

/-- `fk_org_positions_parent` and `fk_board_org_position`, both `RESTRICT`. -/
def referenced (positions : Positions) (members : List BoardMember) (n : ℕ) : Bool :=
  positions.rows.any (fun p => p.parentId = some n) ||
    members.any fun m => m.orgPositionId = some n

/-- The row after the `UPDATE` of a save. -/
def savedRow (entity reread row : OrgPosition) : OrgPosition where
  id := row.id
  nameAr := saved entity.nameAr reread.nameAr row.nameAr
  nameEn := saved entity.nameEn reread.nameEn row.nameEn
  parentId := saved entity.parentId reread.parentId row.parentId
  tone := saved entity.tone reread.tone row.tone
  showHolders := saved entity.showHolders reread.showHolders row.showHolders
  isPublished := saved entity.isPublished reread.isPublished row.isPublished
  sortOrder := saved entity.sortOrder reread.sortOrder row.sortOrder

/-- The save of `publish` writes the parent pointer: the column differs, or the row was gone when it
was re-read and is inserted again. -/
def writesParent (positions : Positions) (entity : OrgPosition) : Option OrgPosition → Bool
  | some reread => entity.parentId ≠ reread.parentId && (positions.find entity.id).isSome
  | none => (positions.find entity.id).isNone

/-- The write of `publish`, refused by the foreign key or by the primary key. -/
def publishWrite (positions : Positions) (entity : OrgPosition) (reread : Option OrgPosition) :
    Positions :=
  if writesParent positions entity reread && !fkParent positions entity then positions
  else
    match reread with
    | some reread =>
      match positions.find entity.id with
      | some row => positions.replace (savedRow entity reread row)
      | none => positions
    | none => if h : positions.find entity.id = none then positions.insert entity h else positions

/-- The rows the write of `publish` needs. -/
def State.publishFree (s : State) (t : ℕ) (entity : OrgPosition) (reread : Option OrgPosition) :
    Bool :=
  s.rowFree t entity.id && (reread.isSome || s.gapFree t) &&
    (!writesParent s.positions entity reread || entity.parentId.all (s.rowFree t))

/-! ### Steps -/

inductive Action where
  | lockTree (t : ℕ)
  | prepareCreate (t : ℕ) (dto : CreateOrgPositionDto)
  | insert (t id : ℕ)
  | prepareUpdate (t id : ℕ) (dto : UpdateOrgPositionDto)
  | save (t : ℕ)
  | findLocked (t id : ℕ)
  | findUsages (t : ℕ)
  | delete (t : ℕ)
  | find (t id : ℕ) (dto : PublishDto)
  | reread (t : ℕ)
  | write (t : ℕ)
  | reorder (t : ℕ) (items : List ReorderItem)
  | abort (t : ℕ)
  | setMembers (members : List BoardMember)

/-- One statement of a request; a step that waits for a lock is not enabled. -/
def step (sql : SqlNumeric) (s : State) : Action → Option State
  | .lockTree t =>
    if s.positions.rows.all fun p => s.rowFree t p.id then s.begin t (.scanned s.positions)
    else none
  | .prepareCreate t dto =>
    match s.txs.find t with
    | some (_, .scanned rows) =>
      match OrgChart.prepareCreate sql rows dto with
      | .ok draft => some (s.continue t (.inserting draft))
      | .error _ => some (s.finish t)
    | _ => none
  | .insert t id =>
    match s.txs.find t with
    | some (_, .inserting draft) =>
      if h : s.positions.find id = none then
        if s.gapFree t then
          if fkParent s.positions draft then
            some ({ s with
              positions := s.positions.insert { draft with id := id } h }.finish t)
          else some (s.finish t)
        else none
      else none
    | _ => none
  | .prepareUpdate t id dto =>
    match s.txs.find t with
    | some (_, .scanned rows) =>
      match OrgChart.prepareUpdate sql rows (toString id) dto with
      | .ok p => some (s.continue t (.saving p))
      | .error _ => some (s.finish t)
    | _ => none
  | .save t =>
    match s.txs.find t with
    | some (_, .saving p) =>
      if s.rowFree t p.id then
        if fkParent s.positions p then
          some ({ s with positions := s.positions.replace p }.finish t)
        else some (s.finish t)
      else none
    | _ => none
  | .findLocked t id =>
    match findPosition sql s.positions (toString id) with
    | .ok p => if s.rowFree t p.id then s.begin t (.removing p) else none
    | .error _ => some s
  | .findUsages t =>
    match s.txs.find t with
    | some (_, .removing p) =>
      if usagesOf sql s.positions s.members (toString p.id) ≠ [] then some (s.finish t)
      else some (s.continue t (.unused p))
    | _ => none
  | .delete t =>
    match s.txs.find t with
    | some (_, .unused p) =>
      if s.rowFree t p.id then
        if referenced s.positions s.members p.id then some (s.finish t)
        else some ({ s with positions := s.positions.delete p.id }.finish t)
      else none
    | _ => none
  | .find t id dto =>
    match findPosition sql s.positions (toString id) with
    | .ok p => s.begin t (.loaded (p.publish dto))
    | .error _ => some s
  | .reread t =>
    match s.txs.find t with
    | some (_, .loaded entity) =>
      some (s.continue t (.reread entity (s.positions.find entity.id)))
    | _ => none
  | .write t =>
    match s.txs.find t with
    | some (_, .reread entity row) =>
      if s.publishFree t entity row then
        some ({ s with positions := publishWrite s.positions entity row }.finish t)
      else none
    | _ => none
  | .reorder t items =>
    if items.all fun item => (sql.rowId item.id).all (s.rowFree t) then
      some { s with positions := reorderPositions sql s.positions items }
    else none
  | .abort t => some (s.finish t)
  | .setMembers members => some { s with members := members }

/-- A parent pointer that the save of a `publish` writes is one the guard accepts at that moment. -/
def guardsRestored (s : State) : Action → Bool
  | .write t =>
    match s.txs.find t with
    | some (_, .reread entity row) =>
      !writesParent s.positions entity row || !fkParent s.positions entity ||
        (checkParent (lockTree s.positions) (some (toString entity.id))
          (entity.parentId.map toString)).isNone
    | _ => true
  | _ => true

/-- A `publish` whose save finds the row, with the parent it was loaded with, meets the
condition. -/
lemma guardsRestored_of_reread {s : State} {t : ℕ} {entity row : OrgPosition}
    (ht : s.txs.find t = some (t, .reread entity (some row)))
    (h : row.parentId = entity.parentId) : guardsRestored s (.write t) = true := by
  simp [guardsRestored, ht, writesParent, h]

/-! ### The invariant -/

/-- What a request that holds every row relies on: the pointers are those it has checked. -/
def TxOk (positions : Positions) : Tx → Prop
  | .scanned rows => pointers rows = pointers positions
  | .inserting draft => ∀ n, pointers positions n = none →
      IsForest (Function.update (pointers positions) n (some draft.parentId)) orgMaxDepth
  | .saving p => (pointers positions p.id).isSome ∧
      IsForest (Function.update (pointers positions) p.id (some p.parentId)) orgMaxDepth
  | _ => True

/-- The chart is a forest, and each request's check is still true. -/
structure State.Inv (s : State) : Prop where
  chart : ChartOk s.positions
  txs : ∀ x ∈ s.txs.rows, TxOk s.positions x.2

/-- A request that holds no scan relies on nothing. -/
lemma txOk_of_not_scans {positions : Positions} {tx : Tx} (h : tx.scans = false) :
    TxOk positions tx := by
  cases tx with
  | scanned _ | inserting _ | saving _ => cases h
  | removing _ | unused _ | loaded _ | reread _ _ => trivial

/-- A request relies on nothing but the pointers. -/
lemma TxOk.congr {positions positions' : Positions} {tx : Tx} (h : TxOk positions tx)
    (heq : pointers positions' = pointers positions) : TxOk positions' tx := by
  cases tx <;> simp only [TxOk, heq] at h ⊢ <;> exact h

lemma pointers_eq_none {positions : Positions} {n : ℕ} :
    pointers positions n = none ↔ positions.find n = none := by
  simp [pointers]

section Frame

variable {s s' : State} {t n : ℕ} {tx : Tx}

lemma State.Inv.of_find (h : s.Inv) {k : ℕ} (ht : s.txs.find t = some (k, tx)) :
    TxOk s.positions tx :=
  h.txs _ (Table.find_eq_some.mp ht).1

lemma State.Inv.begin (h : s.Inv) (htx : TxOk s.positions tx) (hs : s.begin t tx = some s') :
    s'.Inv := by
  simp only [State.begin] at hs
  split_ifs at hs with hnew
  cases hs
  refine ⟨h.chart, fun x hx => ?_⟩
  rcases (Table.mem_insert (h := hnew)).mp hx with hx | rfl
  · exact h.txs x hx
  · exact htx

lemma State.Inv.continue (h : s.Inv) (htx : TxOk s.positions tx) : (s.continue t tx).Inv := by
  refine ⟨h.chart, fun x hx => ?_⟩
  rcases Table.mem_replace.mp hx with ⟨rfl, -⟩ | ⟨hx, -⟩
  · exact htx
  · exact h.txs x hx

lemma State.Inv.finish (h : s.Inv) : (s.finish t).Inv :=
  ⟨h.chart, fun x hx => h.txs x (Table.mem_delete.mp hx).1⟩

/-- A write that leaves the pointers disturbs no request. -/
lemma State.Inv.write_of_eq (h : s.Inv) {positions : Positions}
    (heq : pointers positions = pointers s.positions) :
    ({ s with positions := positions } : State).Inv := by
  refine ⟨?_, fun x hx => (h.txs x hx).congr heq⟩
  rw [ChartOk, heq]
  exact h.chart

/-- A write made while no other request holds a scan disturbs no request. -/
lemma inv_commit (hfree : s.gapFree t = true) {positions : Positions}
    (hchart : ChartOk positions) : ({ s with positions := positions }.finish t).Inv := by
  refine ⟨hchart, fun x hx => ?_⟩
  obtain ⟨hx, hne⟩ := Table.mem_delete.mp hx
  have hscans := List.all_eq_true.mp hfree x hx
  exact txOk_of_not_scans (by simpa [hne] using hscans)

/-- Who holds the gaps holds every row. -/
lemma State.gapFree_of_rowFree (hfree : s.rowFree t n = true) : s.gapFree t = true := by
  apply List.all_eq_true.mpr
  intro x hx
  have hx := List.all_eq_true.mp hfree x hx
  rw [Bool.or_eq_true] at hx ⊢
  apply hx.imp id
  intro hlocks
  cases htx : x.2 <;> simp_all [Tx.locks, Tx.scans]

end Frame

/-! ### What each write does to the forest -/

section Write

variable {sql : SqlNumeric} {positions : Positions}

/-- The write of a `publish` touches the pointers only where it writes the column. -/
lemma pointers_publishWrite (entity : OrgPosition) (row : Option OrgPosition) :
    pointers (publishWrite positions entity row) =
      if writesParent positions entity row && fkParent positions entity then
        Function.update (pointers positions) entity.id (some entity.parentId)
      else pointers positions := by
  cases row with
  | none =>
    by_cases hfind : positions.find entity.id = none
    · cases hfk : fkParent positions entity <;>
        simp [publishWrite, writesParent, hfind, hfk, pointers_insert]
    · simp [publishWrite, writesParent, hfind]
  | some reread =>
    cases hfind : positions.find entity.id with
    | none => simp [publishWrite, writesParent, hfind]
    | some row =>
      have hid : row.id = entity.id := Table.key_of_find hfind
      by_cases hparent : entity.parentId = reread.parentId
      · have hfound : positions.find (savedRow entity reread row).id = some row := by
          rw [← hfind, ← hid]
          rfl
        have hsame := pointers_replace_eq hfound (by simp [savedRow, hparent])
        simp [publishWrite, writesParent, hfind, hparent, hsame]
      · have hfound : (positions.find (savedRow entity reread row).id).isSome := by
          rw [show (savedRow entity reread row).id = entity.id from hid, hfind]
          rfl
        have hreplace := pointers_replace hfound
        have hsaved : (savedRow entity reread row).parentId = entity.parentId := saved_of_ne hparent
        rw [show (savedRow entity reread row).id = entity.id from hid, hsaved] at hreplace
        cases hfk : fkParent positions entity <;>
          simp [publishWrite, writesParent, hfind, hparent, hfk, hreplace]

/-- The write of a `publish` keeps the chart a forest exactly when it meets the condition. -/
lemma chartOk_publishWrite_iff (h : ChartOk positions) {entity : OrgPosition}
    {row : Option OrgPosition} :
    ChartOk (publishWrite positions entity row) ↔
      (!writesParent positions entity row || !fkParent positions entity ||
        (checkParent (lockTree positions) (some (toString entity.id))
          (entity.parentId.map toString)).isNone) = true := by
  rw [ChartOk, pointers_publishWrite]
  cases writesParent positions entity row with
  | false => exact iff_of_true h rfl
  | true =>
    cases fkParent positions entity with
    | false => exact iff_of_true h rfl
    | true =>
      simpa [Option.isNone_iff_eq_none] using (checkParent_own_iff h entity.parentId).symm

/-- What `create` has checked is what its insertion needs. -/
lemma txOk_inserting (h : ChartOk positions) {rows : Positions}
    (heq : pointers rows = pointers positions) {dto : CreateOrgPositionDto} {draft : OrgPosition}
    (hdraft : prepareCreate sql rows dto = .ok draft) : TxOk positions (.inserting draft) := by
  intro n hn
  rw [← heq] at hn ⊢
  have hok : ChartOk rows := by rwa [ChartOk, heq]
  exact prepareCreate_ok hok hdraft (pointers_eq_none.mp hn)

/-- What `update` has checked is what its save needs. -/
lemma txOk_saving (h : ChartOk positions) {rows : Positions}
    (heq : pointers rows = pointers positions) {id : ℕ} {dto : UpdateOrgPositionDto}
    {p : OrgPosition} (hp : prepareUpdate sql rows (toString id) dto = .ok p) :
    TxOk positions (.saving p) := by
  have hok : ChartOk rows := by rwa [ChartOk, heq]
  obtain ⟨current, hcurrent, hid, hparent⟩ := prepareUpdate_ok hp
  obtain ⟨hrow, hfind⟩ := findPosition_ok hcurrent
  obtain rfl : id = current.id := Option.some.inj ((sql.canonical id).symm.trans hrow)
  have hpointer : pointers rows current.id = some current.parentId := by
    rw [pointers, hfind]
    rfl
  rw [TxOk, ← heq, hid]
  refine ⟨by rw [hpointer]; rfl, ?_⟩
  rcases hparent with ⟨-, hsame⟩ | ⟨parent, -, hnew, hcheck⟩
  · rw [hsame, ← hpointer, Function.update_eq_self]
    exact hok
  · rw [hnew]
    exact (checkParent_own_iff hok parent).mp hcheck

end Write

/-! ### One step -/

lemma inv_step {sql : SqlNumeric} {s s' : State} {a : Action} (h : s.Inv)
    (hok : guardsRestored s a = true) (hs : step sql s a = some s') : s'.Inv := by
  cases a with
  | lockTree t =>
    simp only [step] at hs
    split_ifs at hs with hfree
    have htx : TxOk s.positions (.scanned s.positions) := rfl
    exact h.begin htx hs
  | prepareCreate t dto =>
    simp only [step] at hs
    split at hs
    · next k rows ht =>
      split at hs <;> cases hs
      · next draft hdraft => exact h.continue (txOk_inserting h.chart (h.of_find ht) hdraft)
      · exact h.finish
    · cases hs
  | insert t id =>
    simp only [step] at hs
    split at hs
    · next k draft ht =>
      split_ifs at hs with hnew hfree hfk <;> cases hs
      · apply inv_commit hfree
        rw [ChartOk, pointers_insert]
        exact h.of_find ht id (pointers_eq_none.mpr hnew)
      · exact h.finish
    · cases hs
  | prepareUpdate t id dto =>
    simp only [step] at hs
    split at hs
    · next k rows ht =>
      split at hs <;> cases hs
      · next p hp => exact h.continue (txOk_saving h.chart (h.of_find ht) hp)
      · exact h.finish
    · cases hs
  | save t =>
    simp only [step] at hs
    split at hs
    · next k p ht =>
      split_ifs at hs with hfree hfk <;> cases hs
      · obtain ⟨hrow, hforest⟩ := h.of_find ht
        apply inv_commit (s.gapFree_of_rowFree hfree)
        rw [ChartOk, pointers_replace (by simpa [pointers] using hrow)]
        exact hforest
      · exact h.finish
    · cases hs
  | findLocked t id =>
    simp only [step] at hs
    split at hs
    · next p hp =>
      split_ifs at hs with hfree
      have htx : TxOk s.positions (.removing p) := trivial
      exact h.begin htx hs
    · cases hs; exact h
  | findUsages t =>
    simp only [step] at hs
    split at hs
    · split_ifs at hs <;> cases hs
      · exact h.finish
      · exact h.continue trivial
    · cases hs
  | delete t =>
    simp only [step] at hs
    split at hs
    · next k p ht =>
      split_ifs at hs with hfree hreferenced <;> cases hs
      · exact h.finish
      · refine inv_commit (s.gapFree_of_rowFree hfree) (h.chart.delete fun q hq hparent => ?_)
        refine hreferenced (Bool.or_eq_true _ _ ▸ Or.inl (List.any_eq_true.mpr ⟨q, hq, ?_⟩))
        simpa using hparent
    · cases hs
  | find t id dto =>
    simp only [step] at hs
    split at hs
    · next p hp =>
      have htx : TxOk s.positions (.loaded (p.publish dto)) := trivial
      exact h.begin htx hs
    · cases hs; exact h
  | reread t =>
    simp only [step] at hs
    split at hs <;> cases hs
    exact h.continue trivial
  | write t =>
    simp only [step] at hs
    split at hs
    · next k entity row ht =>
      split_ifs at hs with hfree
      cases hs
      simp only [guardsRestored, ht] at hok
      simp only [State.publishFree, Bool.and_eq_true] at hfree
      exact inv_commit (s.gapFree_of_rowFree hfree.1.1) ((chartOk_publishWrite_iff h.chart).mpr hok)
    · cases hs
  | reorder t items =>
    simp only [step] at hs
    split_ifs at hs with hfree
    cases hs
    exact h.write_of_eq (pointers_reorder items)
  | abort t => cases hs; exact h.finish
  | setMembers members => cases hs; exact ⟨h.chart, h.txs⟩

/-! ### Every interleaving -/

/-- In every interleaving in which a save of `publish` writes a parent pointer only where the guard
would, the committed table is a forest. -/
theorem forest_reach_interleaved {sql : SqlNumeric} {positions : Positions} {members : List BoardMember}
    (h₀ : ChartOk positions) {s : State}
    (h : Reach (step sql) (fun s a => guardsRestored s a = true) (.init positions members) s) :
    Forest (pointers s.positions) orgMaxDepth := by
  have hinv : s.Inv := h.invariant (P := State.Inv) ⟨h₀, fun x hx => by cases hx⟩
    fun _ _ _ hi hok hs => inv_step hi hok hs
  exact hinv.chart.forest

/-- A root with one sub-position. -/
def pair : Positions := ⟨[{ id := 1, nameAr := "a" }, { id := 2, nameAr := "b", parentId := some 1 }],
  by decide⟩

lemma chartOk_pair : ChartOk pair := by
  intro n hn
  by_cases h1 : n = 1
  · subst h1; exact ⟨1, by decide, .root rfl⟩
  by_cases h2 : n = 2
  · subst h2; exact ⟨2, by decide, .child (p := 1) rfl (.root rfl)⟩
  · have hnone : pointers pair n = none := by
      simp [pointers, Table.find, pair, Ne.symm h1, Ne.symm h2]
    rw [hnone] at hn
    cases hn

/-- A `publish` of row 2 that loads the row before it moves to the top, and re-reads it after. -/
def publishAroundMove : List Action :=
  [.find 1 2 { isPublished := some false }, .lockTree 2,
    .prepareUpdate 2 2 { parentId := some none }, .save 2, .reread 1, .write 1]

/-- The save puts row 2 back under row 1, where the guard would let it be moved. -/
theorem forest_reach_interleaved_publish : ∃ s : State,
    pointers s.positions 2 = some (some 1) ∧ Forest (pointers s.positions) orgMaxDepth := by
  obtain ⟨s, hrun, hparent⟩ := exists_of_run (guarded (step .decimal) guardsRestored)
    (State.init pair []) publishAroundMove
    (P := fun s => pointers s.positions 2 = some (some 1)) (by decide +kernel)
  exact ⟨s, hparent, forest_reach_interleaved chartOk_pair (Reach.of_guarded hrun)⟩

/-- Between the load and the save of `publish`, row 2 moves to the top and row 1 under row 2. -/
def publishAroundSwap : List Action :=
  [.find 1 2 {}, .lockTree 2, .prepareUpdate 2 2 { parentId := some none }, .save 2,
    .lockTree 3, .prepareUpdate 3 1 { parentId := some (some "2") }, .save 3, .reread 1, .write 1]

/-- The save writes the parent that `publish` has loaded, and the two rows report to each other. -/
theorem not_forest_of_stale_publish : ∃ s : State,
    Reach (step .decimal) always (State.init pair []) s ∧ ChartOk pair ∧
      ¬Forest (pointers s.positions) orgMaxDepth := by
  obtain ⟨s, hrun, h1, h2⟩ := exists_of_run (step .decimal) (State.init pair []) publishAroundSwap
    (P := fun s => pointers s.positions 1 = some (some 2) ∧
      pointers s.positions 2 = some (some 1)) (by decide +kernel)
  refine ⟨s, Reach.of_run hrun, chartOk_pair, fun hforest => ?_⟩
  exact hforest.acyclic 1 (.tail (.single h1) h2)

end SafeerApi.OrgChart.Concurrent
