import SafeerApi.OrgChart.TreeGuard

/-!
# The tree guard stops, and says what a change does (`tree-guard.ts`)

The loops of the guard stop because of the ids they have seen, not because of the table: the runs
below have no bound, and each of the functions that were given one is the result of a run, on any
list of rows. On a forest `checkParent` then accepts exactly the changes after which the table is a
forest.
-/

namespace SafeerApi.OrgChart

open Lib

/-! ### Runs -/

/-- The `while` loop of `isDescendant`, round by round. -/
inductive IsDescendantRun (rows : List TreeRow) (ancestor : String) :
    List String → Option String → Bool → Prop where
  | root (seen : List String) : IsDescendantRun rows ancestor seen none false
  | seen {seen : List String} {current : String} (h : current ∈ seen) :
      IsDescendantRun rows ancestor seen (some current) false
  | found {seen : List String} (h : ancestor ∉ seen) :
      IsDescendantRun rows ancestor seen (some ancestor) true
  | up {seen : List String} {current : String} {found : Bool} (h : current ∉ seen)
      (hne : current ≠ ancestor)
      (hrun : IsDescendantRun rows ancestor (current :: seen) (parentOf rows current) found) :
      IsDescendantRun rows ancestor seen (some current) found

/-- The `while` loop of `depthOf`. -/
inductive DepthOfRun (rows : List TreeRow) : List String → Option String → ℕ → ℕ → Prop where
  | root (seen : List String) (depth : ℕ) : DepthOfRun rows seen none depth depth
  | seen {seen : List String} {current : String} (h : current ∈ seen) (depth : ℕ) :
      DepthOfRun rows seen (some current) depth depth
  | up {seen : List String} {current : String} {depth result : ℕ} (h : current ∉ seen)
      (hrun : DepthOfRun rows (current :: seen) (parentOf rows current) (depth + 1) result) :
      DepthOfRun rows seen (some current) depth result

mutual

/-- The recursion of `walk`. -/
inductive WalkRun (rows : List TreeRow) : String → List String → ℕ × List String → Prop where
  | seen {node : String} {seen : List String} (h : node ∈ seen) : WalkRun rows node seen (0, seen)
  | unseen {node : String} {seen : List String} {walked : ℕ × List String} (h : node ∉ seen)
      (hrun : WalkChildrenRun rows (children rows node) (0, node :: seen) walked) :
      WalkRun rows node seen (1 + walked.1, walked.2)

/-- The `for` loop of `walk`, over the children of a node. -/
inductive WalkChildrenRun (rows : List TreeRow) :
    List String → ℕ × List String → ℕ × List String → Prop where
  | nil (acc : ℕ × List String) : WalkChildrenRun rows [] acc acc
  | cons {child : String} {nodes : List String} {acc below walked : ℕ × List String}
      (hchild : WalkRun rows child acc.2 below)
      (hrun : WalkChildrenRun rows nodes (max acc.1 below.1, below.2) walked) :
      WalkChildrenRun rows (child :: nodes) acc walked

end

inductive SubtreeDepthRun (rows : List TreeRow) : Option String → ℕ → Prop where
  | new : SubtreeDepthRun rows none 1
  | row {id : String} {walked : ℕ × List String} (h : WalkRun rows id [] walked) :
      SubtreeDepthRun rows (some id) walked.1

/-- A call of `checkParent`: each of its tests, in their order, up to the first that fails. -/
inductive CheckParentRun (rows : List TreeRow) (maxDepth : ℕ) :
    Option String → Option String → Option TreeGuardError → Prop where
  | root {id : Option String} {levels : ℕ} (h : SubtreeDepthRun rows id levels) :
      CheckParentRun rows maxDepth id none (if levels > maxDepth then some .tooDeep else none)
  | selfParent (id : String) : CheckParentRun rows maxDepth (some id) (some id) (some .selfParent)
  | parentNotFound {id : Option String} {parent : String} (hne : id ≠ some parent)
      (h : byId rows parent = none) :
      CheckParentRun rows maxDepth id (some parent) (some .parentNotFound)
  | cycle {id parent : String} (hne : id ≠ parent) (hrow : byId rows parent ≠ none)
      (h : IsDescendantRun rows id [] (parentOf rows parent) true) :
      CheckParentRun rows maxDepth (some id) (some parent) (some .cycle)
  | under {id : Option String} {parent : String} {depth levels : ℕ} (hne : id ≠ some parent)
      (hrow : byId rows parent ≠ none)
      (hcycle : ∀ x ∈ id, IsDescendantRun rows x [] (parentOf rows parent) false)
      (hdepth : DepthOfRun rows [] (some parent) 0 depth)
      (hlevels : SubtreeDepthRun rows id levels) :
      CheckParentRun rows maxDepth id (some parent)
        (if depth + levels > maxDepth then some .tooDeep else none)

/-! ### Every run ends -/

/-- How many rows have an id that was not seen yet. -/
def unseen (rows : List TreeRow) (seen : List String) : ℕ :=
  (rows.filter fun r => r.id ∉ seen).length

variable {rows : List TreeRow}

lemma unseen_le_length (seen : List String) : unseen rows seen ≤ rows.length :=
  List.length_filter_le _ _

lemma unseen_anti {seen seen' : List String} (h : ∀ x ∈ seen, x ∈ seen') :
    unseen rows seen' ≤ unseen rows seen := by
  apply List.Sublist.length_le
  apply List.monotone_filter_right
  intro r hr
  simp only [decide_eq_true_eq] at hr ⊢
  exact fun hmem => hr (h _ hmem)

/-- Each row is seen once. -/
lemma unseen_cons_lt {seen : List String} {id : String} (hid : id ∈ rows.map TreeRow.id)
    (h : id ∉ seen) : unseen rows (id :: seen) < unseen rows seen := by
  obtain ⟨r, hr, rfl⟩ := List.mem_map.mp hid
  have hfilter : rows.filter (fun x => x.id ∉ r.id :: seen)
      = (rows.filter fun x => x.id ∉ seen).filter (fun x => x.id ≠ r.id) := by
    rw [List.filter_filter]
    apply List.filter_congr
    intro x _
    simp [not_or]
  rw [unseen, hfilter, unseen]
  apply List.length_filter_lt_length_iff_exists.mpr
  exact ⟨r, List.mem_filter.mpr ⟨hr, by simpa using h⟩, by simp⟩

lemma parentOf_eq_none {id : String} (h : id ∉ rows.map TreeRow.id) : parentOf rows id = none := by
  cases hfind : parentOf rows id with
  | none => rfl
  | some parent =>
    rw [parentOf_eq_join] at hfind
    have hup : (up rows id).isSome := by
      cases hrow : up rows id with
      | none => rw [hrow] at hfind; cases hfind
      | some o => rfl
    exact absurd (mem_ids_of_up hup) h

/-- The bound of the loop is never reached. -/
lemma isDescendantLoop_run {ancestor : String} {fuel : ℕ} {seen : List String}
    {current : Option String} (hfuel : unseen rows seen < fuel) :
    IsDescendantRun rows ancestor seen current
      (isDescendantLoop rows ancestor fuel seen current) := by
  induction fuel generalizing seen current with
  | zero => omega
  | succ fuel ih =>
    cases current with
    | none => exact .root seen
    | some current =>
      rw [isDescendantLoop]
      split_ifs with hseen heq
      · exact .seen hseen
      · subst heq
        exact .found hseen
      · refine .up hseen heq ?_
        by_cases hid : current ∈ rows.map TreeRow.id
        · have hlt := unseen_cons_lt hid hseen
          exact ih (by omega)
        · -- an id that is no row's has no parent
          rw [parentOf_eq_none hid]
          cases fuel <;> exact .root _

lemma depthOfLoop_run {fuel : ℕ} {seen : List String} {current : Option String}
    (hfuel : unseen rows seen < fuel) (depth : ℕ) :
    DepthOfRun rows seen current depth (depthOfLoop rows fuel seen current depth) := by
  induction fuel generalizing seen current depth with
  | zero => omega
  | succ fuel ih =>
    cases current with
    | none => exact .root seen depth
    | some current =>
      rw [depthOfLoop]
      split_ifs with hseen
      · exact .seen hseen depth
      · refine .up hseen ?_
        by_cases hid : current ∈ rows.map TreeRow.id
        · have hlt := unseen_cons_lt hid hseen
          exact ih (by omega) (depth + 1)
        · rw [parentOf_eq_none hid]
          cases fuel <;> exact .root _ _

/-- The children one after another, each of them with what the ones before it have seen. -/
lemma walkChildren_run {fuel : ℕ} (nodes : List String)
    (hwalk : ∀ child ∈ nodes, ∀ seen, unseen rows seen ≤ fuel →
      WalkRun rows child seen (walk rows fuel child seen) ∧
        ∀ x ∈ seen, x ∈ (walk rows fuel child seen).2)
    (acc : ℕ × List String) (hacc : unseen rows acc.2 ≤ fuel) :
    let walked := nodes.foldl (fun acc child =>
      let below := walk rows fuel child acc.2
      (max acc.1 below.1, below.2)) acc
    WalkChildrenRun rows nodes acc walked ∧ ∀ x ∈ acc.2, x ∈ walked.2 := by
  induction nodes generalizing acc with
  | nil => exact ⟨.nil acc, fun x hx => hx⟩
  | cons child nodes ih =>
    obtain ⟨hchild, hmono⟩ := hwalk child List.mem_cons_self acc.2 hacc
    obtain ⟨hrun, hrest⟩ := ih (fun c hc => hwalk c (List.mem_cons_of_mem _ hc))
      (max acc.1 (walk rows fuel child acc.2).1, (walk rows fuel child acc.2).2)
      (Nat.le_trans (unseen_anti hmono) hacc)
    exact ⟨.cons hchild hrun, fun x hx => hrest x (hmono x hx)⟩

lemma mem_ids_of_mem_children {child node : String} (h : child ∈ children rows node) :
    child ∈ rows.map TreeRow.id := by
  obtain ⟨r, hr, rfl⟩ := List.mem_map.mp h
  exact List.mem_map_of_mem (List.mem_filter.mp hr).1

lemma walk_run {fuel : ℕ} {node : String} {seen : List String}
    (hfuel : unseen rows seen < fuel ∨ node ∈ rows.map TreeRow.id ∧ unseen rows seen ≤ fuel) :
    WalkRun rows node seen (walk rows fuel node seen) ∧
      ∀ x ∈ seen, x ∈ (walk rows fuel node seen).2 := by
  induction fuel generalizing node seen with
  | zero =>
    obtain ⟨hid, hzero⟩ := hfuel.resolve_left (Nat.not_lt_zero _)
    have hseen : node ∈ seen := by
      by_contra hseen
      have hlt := unseen_cons_lt hid hseen
      omega
    exact ⟨.seen hseen, fun x hx => hx⟩
  | succ fuel ih =>
    rw [walk]
    split_ifs with hseen
    · exact ⟨.seen hseen, fun x hx => hx⟩
    · have hle : unseen rows (node :: seen) ≤ fuel := by
        have hanti : unseen rows (node :: seen) ≤ unseen rows seen :=
          unseen_anti fun x hx => List.mem_cons_of_mem _ hx
        rcases hfuel with hlt | ⟨hid, hle⟩
        · omega
        · have hlt := unseen_cons_lt hid hseen
          omega
      obtain ⟨hrun, hmono⟩ := walkChildren_run (children rows node)
        (fun child hchild seen hseen => ih (Or.inr ⟨mem_ids_of_mem_children hchild, hseen⟩))
        (0, node :: seen) hle
      exact ⟨.unseen hseen hrun, fun x hx => hmono x (List.mem_cons_of_mem _ hx)⟩

lemma unseen_lt_rounds (seen : List String) : unseen rows seen < rounds rows :=
  Nat.lt_succ_of_le (unseen_le_length seen)

lemma subtreeDepth_run (id : Option String) :
    SubtreeDepthRun rows id (subtreeDepth rows id) := by
  cases id with
  | none => exact .new
  | some id => exact .row (walk_run (Or.inl (unseen_lt_rounds []))).1

/-- On any list of rows the guard comes to an end, with the result it has here. -/
theorem checkParent_run (rows : List TreeRow) (maxDepth : ℕ) (id parentId : Option String) :
    CheckParentRun rows maxDepth id parentId (checkParent rows id parentId maxDepth) := by
  cases parentId with
  | none => exact .root (subtreeDepth_run id)
  | some parent =>
    rw [checkParent]
    by_cases hself : id = some parent
    · subst hself
      simpa using CheckParentRun.selfParent parent
    cases hrow : byId rows parent with
    | none => simpa [hself] using CheckParentRun.parentNotFound hself hrow
    | some r =>
      have hne : byId rows parent ≠ none := by simp [hrow]
      have hloop : ∀ x, IsDescendantRun rows x [] (parentOf rows parent)
          (isDescendant rows parent x) := fun x => isDescendantLoop_run (unseen_lt_rounds [])
      have hdepth : DepthOfRun rows [] (some parent) 0 (depthOf rows parent) :=
        depthOfLoop_run (unseen_lt_rounds []) 0
      simp only [hself, if_false, Option.isNone_some, Bool.false_eq_true]
      by_cases hcycle : id.any (isDescendant rows parent)
      · obtain ⟨x, rfl, hx⟩ := (Option.any_eq_true _ _).mp hcycle
        rw [if_pos hcycle]
        refine .cycle (fun heq => hself (congrArg some heq)) hne ?_
        rw [← hx]
        exact hloop x
      · rw [if_neg hcycle]
        refine .under hself hne (fun x hx => ?_) hdepth (subtreeDepth_run id)
        have hfalse : isDescendant rows parent x = false := by
          cases hx
          simpa using hcycle
        rw [← hfalse]
        exact hloop x

/-! ### What a change does to a forest -/

/-- The table after a change: a row with another parent, or one more row. -/
def applyChange (rows : List TreeRow) (id : Option String) (newId : String)
    (parentId : Option String) : List TreeRow :=
  match id with
  | none => rows ++ [⟨newId, parentId⟩]
  | some id => rows.map fun r => if r.id = id then { r with parentId } else r

lemma up_append_new {newId : String} (hnew : newId ∉ rows.map TreeRow.id)
    (parentId : Option String) :
    up (rows ++ [⟨newId, parentId⟩]) = Function.update (up rows) newId (some parentId) := by
  funext c
  by_cases hc : c = newId
  · subst hc
    simp [up, byId]
  · rw [Function.update_of_ne hc]
    simp [up, byId, Ne.symm hc]

lemma up_setParent {id : String} (hid : id ∈ rows.map TreeRow.id) (parentId : Option String) :
    up (rows.map fun r => if r.id = id then { r with parentId } else r)
      = Function.update (up rows) id (some parentId) := by
  have hbyId : ∀ c, byId (rows.map fun r => if r.id = id then { r with parentId } else r) c
      = (byId rows c).map fun r => if r.id = id then { r with parentId } else r := by
    intro c
    rw [byId, ← List.map_reverse, List.find?_map, byId]
    apply congrArg (Option.map _)
    apply congrArg (List.find? · _)
    funext r
    simp only [Function.comp_apply]
    split_ifs <;> rfl
  funext c
  rw [up, hbyId]
  cases hrow : byId rows c with
  | none =>
    have hne : c ≠ id := by
      rintro rfl
      obtain ⟨r, hr, hrid⟩ := List.mem_map.mp hid
      exact absurd (List.find?_eq_none.mp hrow r (List.mem_reverse.mpr hr)) (by simp [hrid])
    rw [Function.update_of_ne hne, up, hrow]
    rfl
  | some r =>
    obtain rfl : r.id = c := by simpa using List.find?_some hrow
    by_cases hr : r.id = id
    · subst hr
      simp
    · rw [Function.update_of_ne hr, up, hrow]
      simp [hr]

/-- Nothing fits in a forest of no level. -/
lemma rows_eq_nil (h : IsForest (up rows) 0) : rows = [] := by
  cases hrows : rows with
  | nil => rfl
  | cons r rest =>
    have hup : (up rows r.id).isSome := by
      rw [up, Option.isSome_map, byId, List.find?_isSome]
      exact ⟨r, by simp [hrows], by simp⟩
    obtain ⟨d, hle, hd⟩ := h r.id hup
    have hpos := hd.pos
    omega

/-- The guard accepts exactly the changes after which the table is a forest of at most `maxDepth`
levels, the whole moved subtree counted; and it comes to an end on any list of rows. -/
theorem checkParent_sound_complete :
    (∀ (rows : List TreeRow) (maxDepth : ℕ), (rows.map TreeRow.id).Nodup →
      IsForest (up rows) maxDepth → ∀ (id parentId : Option String) (newId : String),
      (∀ x ∈ id, x ∈ rows.map TreeRow.id) → newId ∉ rows.map TreeRow.id →
      (checkParent rows id parentId maxDepth = none ↔
        IsForest (up (applyChange rows id newId parentId)) maxDepth)) ∧
    ∀ (rows : List TreeRow) (maxDepth : ℕ) (id parentId : Option String),
      CheckParentRun rows maxDepth id parentId (checkParent rows id parentId maxDepth) := by
  refine ⟨fun rows maxDepth hids hforest id parentId newId hid hnew => ?_, checkParent_run⟩
  rcases Nat.eq_zero_or_pos maxDepth with rfl | hmax
  · -- a table of no level has no row, and takes none
    obtain rfl := rows_eq_nil hforest
    cases id with
    | some id => cases hid id rfl
    | none =>
      have hguard : checkParent [] none parentId 0 ≠ none := by
        cases parentId <;> simp [checkParent, subtreeDepth, byId]
      refine ⟨fun h => absurd h hguard, fun h => ?_⟩
      cases rows_eq_nil h
  · cases id with
    | none =>
      have hup : up rows newId = none := by
        cases hrow : up rows newId with
        | none => rfl
        | some o => exact absurd (mem_ids_of_up (by rw [hrow]; rfl)) hnew
      rw [checkParent_new_eq_none_iff hforest hmax hup, applyChange, up_append_new hnew]
    | some id =>
      rw [checkParent_eq_none_iff hids hforest hmax, applyChange, up_setParent (hid id rfl)]

/-- A subtree of two levels moved under the third level of a chart of five, and a cycle of three
positions. -/
theorem checkParent_sound_complete_move :
    IsForest (up (applyChange [⟨"1", none⟩, ⟨"2", some "1"⟩, ⟨"3", some "2"⟩, ⟨"4", none⟩,
      ⟨"5", some "4"⟩] (some "4") "6" (some "3"))) 5 ∧
    CheckParentRun [⟨"1", some "3"⟩, ⟨"2", some "1"⟩, ⟨"3", some "2"⟩] 5 (some "1") (some "2")
      (some .cycle) := by
  have hforest : IsForest (up [⟨"1", none⟩, ⟨"2", some "1"⟩, ⟨"3", some "2"⟩, ⟨"4", none⟩,
      ⟨"5", some "4"⟩]) 5 := by
    have h1 : Depth (up [⟨"1", none⟩, ⟨"2", some "1"⟩, ⟨"3", some "2"⟩, ⟨"4", none⟩,
      ⟨"5", some "4"⟩]) "1" 1 := .root (by decide)
    have h2 := Depth.child (i := "2") (by decide) h1
    have h3 := Depth.child (i := "3") (by decide) h2
    have h4 : Depth (up [⟨"1", none⟩, ⟨"2", some "1"⟩, ⟨"3", some "2"⟩, ⟨"4", none⟩,
      ⟨"5", some "4"⟩]) "4" 1 := .root (by decide)
    have h5 := Depth.child (i := "5") (by decide) h4
    intro c hc
    have hmem := mem_ids_of_up hc
    simp only [List.map_cons, List.map_nil, List.mem_cons, List.not_mem_nil, or_false] at hmem
    rcases hmem with rfl | rfl | rfl | rfl | rfl
    · exact ⟨1, by decide, h1⟩
    · exact ⟨2, by decide, h2⟩
    · exact ⟨3, by decide, h3⟩
    · exact ⟨1, by decide, h4⟩
    · exact ⟨2, by decide, h5⟩
  exact ⟨(checkParent_sound_complete.1 _ 5 (by decide) hforest (some "4") (some "3") "6"
    (by decide) (by decide)).mp (by decide), checkParent_sound_complete.2 _ 5 (some "1") (some "2")⟩

end SafeerApi.OrgChart
