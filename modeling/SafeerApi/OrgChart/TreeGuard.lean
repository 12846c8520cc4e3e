import Mathlib.Data.List.Nodup
import SafeerApi.Lib.Forest

/-!
# The tree guard (`tree-guard.ts`)

`checkParent` says whether a position may be given a parent. It works on the whole table, as texts,
and its loops carry the ids they have seen, so that they stop on any table. On a forest it accepts
exactly the changes that leave a forest.
-/

namespace SafeerApi.OrgChart

open Lib

def orgMaxDepth : ℕ := 5

structure TreeRow where
  id : String
  parentId : Option String
  deriving DecidableEq, Repr

inductive TreeGuardError where
  | selfParent
  | parentNotFound
  | cycle
  | tooDeep
  deriving DecidableEq, Repr

/-- `new Map(rows.map((r) => [r.id, r]))`: of the rows with one id the last is found. -/
def byId (rows : List TreeRow) (id : String) : Option TreeRow :=
  rows.reverse.find? fun r => r.id = id

/-- `byId.get(id)?.parentId ?? null` -/
def parentOf (rows : List TreeRow) (id : String) : Option String :=
  (byId rows id).bind TreeRow.parentId

/-- Each round of a loop sees another id, and all of them but the last are ids of rows. -/
def rounds (rows : List TreeRow) : ℕ := rows.length + 1

def isDescendantLoop (rows : List TreeRow) (ancestor : String) :
    ℕ → List String → Option String → Bool
  | fuel + 1, seen, some current =>
    if current ∈ seen then false
    else if current = ancestor then true
    else isDescendantLoop rows ancestor fuel (current :: seen) (parentOf rows current)
  | _, _, _ => false

/-- `candidate` sits somewhere under `ancestor`. -/
def isDescendant (rows : List TreeRow) (candidate ancestor : String) : Bool :=
  isDescendantLoop rows ancestor (rounds rows) [] (parentOf rows candidate)

def depthOfLoop (rows : List TreeRow) : ℕ → List String → Option String → ℕ → ℕ
  | fuel + 1, seen, some current, depth =>
    if current ∈ seen then depth
    else depthOfLoop rows fuel (current :: seen) (parentOf rows current) (depth + 1)
  | _, _, _, depth => depth

/-- One for a root, two for its child. -/
def depthOf (rows : List TreeRow) (id : String) : ℕ :=
  depthOfLoop rows (rounds rows) [] (some id) 0

/-- The list the `children` map holds for a node. -/
def children (rows : List TreeRow) (node : String) : List String :=
  (rows.filter fun r => r.parentId = some node).map TreeRow.id

/-- The levels under `node`, and what has been seen once they are counted. -/
def walk (rows : List TreeRow) : ℕ → String → List String → ℕ × List String
  | 0, _, seen => (0, seen)
  | fuel + 1, node, seen =>
    if node ∈ seen then (0, seen)
    else
      let walked := (children rows node).foldl (fun acc child =>
        let below := walk rows fuel child acc.2
        (max acc.1 below.1, below.2)) (0, node :: seen)
      (1 + walked.1, walked.2)

/-- One for a leaf, and one for a new row. -/
def subtreeDepth (rows : List TreeRow) : Option String → ℕ
  | none => 1
  | some id => (walk rows (rounds rows) id []).1

/-- Why `parentId` cannot be the parent of `id`; `id` is `none` for a new row. -/
def checkParent (rows : List TreeRow) (id parentId : Option String) (maxDepth : ℕ := orgMaxDepth) :
    Option TreeGuardError :=
  match parentId with
  | none => if subtreeDepth rows id > maxDepth then some .tooDeep else none
  | some parent =>
    if id = some parent then some .selfParent
    else if (byId rows parent).isNone then some .parentNotFound
    else if id.any (isDescendant rows parent) then some .cycle
    else if depthOf rows parent + subtreeDepth rows id > maxDepth then some .tooDeep
    else none

/-- A five-level chart takes no sixth level, and no move of a subtree below the fifth. -/
example :
    let rows : List TreeRow :=
      [⟨"1", none⟩, ⟨"2", some "1"⟩, ⟨"3", some "2"⟩, ⟨"4", some "3"⟩, ⟨"5", some "1"⟩,
        ⟨"6", some "4"⟩]
    checkParent rows none (some "6") = some .tooDeep ∧
      checkParent rows (some "2") (some "5") = some .tooDeep ∧
      checkParent rows (some "2") (some "4") = some .cycle := by
  decide

/-! ### The table as a forest -/

/-- The parent pointers of a table. -/
def up (rows : List TreeRow) (id : String) : Option (Option String) :=
  (byId rows id).map TreeRow.parentId

variable {rows : List TreeRow} {node parent c : String} {d e fuel maxDepth : ℕ}

lemma parentOf_eq_join (id : String) : parentOf rows id = (up rows id).join := by
  rw [parentOf, up]
  cases byId rows id <;> rfl

/-- Every id with pointers is the id of a row. -/
lemma mem_ids_of_up (h : (up rows c).isSome) : c ∈ rows.map TreeRow.id := by
  rw [up, Option.isSome_map] at h
  obtain ⟨r, hr⟩ := Option.isSome_iff_exists.mp h
  have hmem := List.mem_reverse.mp (List.mem_of_find?_eq_some hr)
  obtain rfl : r.id = c := by simpa using List.find?_some hr
  exact List.mem_map_of_mem hmem

lemma depth_le_length (h : Depth (up rows) c d) : d ≤ rows.length := by
  simpa using h.le_length (rows.map TreeRow.id) fun _ => mem_ids_of_up

/-- What is under a node is not more levels below it than there are rows. -/
lemma under_lt_rounds (h : IsForest (up rows) maxDepth) {x : String} {k : ℕ}
    (hu : Under (up rows) node x k) : k < rounds rows := by
  simp only [rounds]
  cases hu with
  | self => omega
  | down hp hu =>
    obtain ⟨e, he, -, -⟩ := h.depth hp
    obtain ⟨d, hd, rfl⟩ := hu.depth_top he
    have := depth_le_length he
    have := hd.pos
    omega

section Unique

variable (hids : (rows.map TreeRow.id).Nodup)

include hids

lemma byId_eq_some {r : TreeRow} : byId rows c = some r ↔ r ∈ rows ∧ r.id = c := by
  constructor
  · intro h
    exact ⟨List.mem_reverse.mp (List.mem_of_find?_eq_some h), by simpa using List.find?_some h⟩
  · rintro ⟨hr, rfl⟩
    cases hfind : byId rows r.id with
    | none =>
      exact absurd (List.find?_eq_none.mp hfind r (List.mem_reverse.mpr hr)) (by simp)
    | some r' =>
      have hr' := List.mem_reverse.mp (List.mem_of_find?_eq_some hfind)
      have hid : r'.id = r.id := by simpa using List.find?_some hfind
      rw [List.inj_on_of_nodup_map hids hr' hr hid]

lemma mem_children : c ∈ children rows node ↔ up rows c = some (some node) := by
  simp only [children, List.mem_map, List.mem_filter, decide_eq_true_eq, up,
    Option.map_eq_some_iff, byId_eq_some hids]
  constructor
  · rintro ⟨r, ⟨hr, hp⟩, hid⟩
    exact ⟨r, ⟨hr, hid⟩, hp⟩
  · rintro ⟨r, ⟨hr, hid⟩, hp⟩
    exact ⟨r, ⟨hr, hp⟩, hid⟩

lemma nodup_children : (children rows node).Nodup :=
  hids.sublist (List.filter_sublist.map TreeRow.id)

end Unique

/-! ### What the loops compute on a forest -/

/-- The ids seen so far are all deeper than what is still to come. -/
def Deeper (rows : List TreeRow) (seen : List String) (d : ℕ) : Prop :=
  ∀ x ∈ seen, ∀ e, Depth (up rows) x e → d < e

lemma Deeper.not_mem {seen : List String} (h : Deeper rows seen d) (hc : Depth (up rows) c d) :
    c ∉ seen :=
  fun hmem => absurd (h c hmem d hc) (by omega)

lemma Deeper.cons {seen : List String} (h : Deeper rows seen (d + 1))
    (hc : Depth (up rows) c (d + 1)) : Deeper rows (c :: seen) d := by
  intro x hx e he
  rcases List.mem_cons.mp hx with rfl | hx
  · rw [he.unique hc]
    omega
  · have := h x hx e he
    omega

lemma isDescendantLoop_iff {ancestor : String} (hc : Depth (up rows) c d) {seen : List String}
    (hfuel : d ≤ fuel) (hseen : Deeper rows seen d) :
    isDescendantLoop rows ancestor fuel seen (some c) = true ↔
      ∃ k, Under (up rows) ancestor c k := by
  induction hc generalizing fuel seen with
  | @root c h =>
    obtain ⟨fuel, rfl⟩ := Nat.exists_eq_add_of_le' hfuel
    rw [isDescendantLoop, if_neg (hseen.not_mem (.root h)), exists_under_iff]
    by_cases heq : c = ancestor
    · simp [heq]
    · rw [if_neg heq, parentOf_eq_join, h]
      simp [isDescendantLoop, heq]
  | @child c p d h hp ih =>
    obtain ⟨fuel, rfl⟩ : ∃ f, fuel = f + 1 := ⟨fuel - 1, by omega⟩
    rw [isDescendantLoop, if_neg (hseen.not_mem (.child h hp)), exists_under_iff]
    by_cases heq : c = ancestor
    · simp [heq]
    · rw [if_neg heq, parentOf_eq_join, h]
      have hloop : isDescendantLoop rows ancestor fuel (c :: seen) (some p) = true ↔
          ∃ k, Under (up rows) ancestor p k := ih (by omega) (hseen.cons (.child h hp))
      simpa [heq] using hloop

/-- The guard's walk up finds the ancestor exactly when the candidate is under it. -/
lemma isDescendant_iff {candidate ancestor : String} (hc : Depth (up rows) candidate d)
    (hne : candidate ≠ ancestor) :
    isDescendant rows candidate ancestor = true ↔ ∃ k, Under (up rows) ancestor candidate k := by
  rw [isDescendant, exists_under_iff, parentOf_eq_join]
  cases hc with
  | root h => simp [h, hne, rounds, isDescendantLoop]
  | @child _ p d h hp =>
    have hfuel : d ≤ rounds rows := Nat.le_succ_of_le (depth_le_length hp)
    have hseen : Deeper rows [] d := fun x hx => by cases hx
    rw [h]
    simpa [hne] using isDescendantLoop_iff hp hfuel hseen

lemma depthOfLoop_eq (hc : Depth (up rows) c d) {seen : List String} (hfuel : d ≤ fuel)
    (hseen : Deeper rows seen d) (depth : ℕ) :
    depthOfLoop rows fuel seen (some c) depth = depth + d := by
  induction hc generalizing fuel seen depth with
  | @root c h =>
    obtain ⟨fuel, rfl⟩ := Nat.exists_eq_add_of_le' hfuel
    rw [depthOfLoop, if_neg (hseen.not_mem (.root h)), parentOf_eq_join, h]
    simp [depthOfLoop]
  | @child c p d h hp ih =>
    obtain ⟨fuel, rfl⟩ : ∃ f, fuel = f + 1 := ⟨fuel - 1, by omega⟩
    rw [depthOfLoop, if_neg (hseen.not_mem (.child h hp)), parentOf_eq_join, h]
    simp only [Option.join_some]
    rw [ih (by omega) (hseen.cons (.child h hp))]
    omega

lemma depthOf_eq (hc : Depth (up rows) c d) : depthOf rows c = d := by
  have hle := depth_le_length hc
  rw [depthOf, depthOfLoop_eq hc (by unfold rounds; omega) (by intro x hx; cases hx)]
  omega

/-- A walk has counted the levels under its node, and has seen exactly what is under it. -/
structure Walked (rows : List TreeRow) (node : String) (seen : List String)
    (walked : ℕ × List String) : Prop where
  height : Height (up rows) node walked.1
  seen : ∀ x, x ∈ walked.2 ↔ x ∈ seen ∨ ∃ k, Under (up rows) node x k

/-- Walks over nodes that share nothing add up: no walk meets what another has seen. -/
lemma foldl_walk {nodes : List String} (hnodup : nodes.Nodup)
    (hwalk : ∀ c ∈ nodes, ∀ seen, (∀ x k, Under (up rows) c x k → x ∉ seen) →
      Walked rows c seen (walk rows fuel c seen))
    (hdisjoint : ∀ c ∈ nodes, ∀ c' ∈ nodes, c ≠ c' → ∀ x k k', Under (up rows) c x k →
      ¬Under (up rows) c' x k')
    (acc : ℕ × List String) (hacc : ∀ c ∈ nodes, ∀ x k, Under (up rows) c x k → x ∉ acc.2) :
    let walked := nodes.foldl (fun acc child =>
      let below := walk rows fuel child acc.2
      (max acc.1 below.1, below.2)) acc
    (∀ m, walked.1 ≤ m ↔ acc.1 ≤ m ∧ ∀ c ∈ nodes, ∀ x k, Under (up rows) c x k → k < m) ∧
      ∀ x, x ∈ walked.2 ↔ x ∈ acc.2 ∨ ∃ c ∈ nodes, ∃ k, Under (up rows) c x k := by
  induction nodes generalizing acc with
  | nil => simp
  | cons c nodes ih =>
    obtain ⟨hnotin, hnodup⟩ := List.nodup_cons.mp hnodup
    have hc := hwalk c (by simp) acc.2 (hacc c (by simp))
    obtain ⟨hmax, hseen⟩ := ih hnodup (fun c' hc' => hwalk c' (by simp [hc']))
      (fun a ha b hb => hdisjoint a (by simp [ha]) b (by simp [hb]))
      (max acc.1 (walk rows fuel c acc.2).1, (walk rows fuel c acc.2).2) (by
        intro c' hc' x k hu hmem
        rcases (hc.seen x).mp hmem with hmem | ⟨k', hu'⟩
        · exact hacc c' (by simp [hc']) x k hu hmem
        · refine hdisjoint c (by simp) c' (by simp [hc']) ?_ x k' k hu' hu
          rintro rfl
          exact hnotin hc')
    constructor
    · intro m
      rw [List.foldl_cons, hmax, Nat.max_le, hc.height m]
      simp [and_assoc]
    · intro x
      rw [List.foldl_cons, hseen, hc.seen]
      simp [or_assoc]

/-- Two children of a node have nothing under both. -/
lemma disjoint_children (h : IsForest (up rows) maxDepth) {c' x : String} {k k' : ℕ}
    (hc : up rows c = some (some node)) (hc' : up rows c' = some (some node)) (hne : c ≠ c')
    (hu : Under (up rows) c x k) : ¬Under (up rows) c' x k' := by
  intro hu'
  obtain ⟨e, -, he, -⟩ := h.depth hc
  have hlevel := (under_succ_iff.mpr ⟨c, hc, hu⟩).level_unique
    (under_succ_iff.mpr ⟨c', hc', hu'⟩) (hu.depth he)
  obtain rfl : k = k' := by omega
  exact hne (hu.eq_of_level hu')

theorem walk_walked (hids : (rows.map TreeRow.id).Nodup) (h : IsForest (up rows) maxDepth)
    {seen : List String} (hfuel : ∀ x k, Under (up rows) node x k → k < fuel)
    (hseen : ∀ x k, Under (up rows) node x k → x ∉ seen) :
    Walked rows node seen (walk rows fuel node seen) := by
  induction fuel generalizing node seen with
  | zero => exact absurd (hfuel node 0 .self) (by omega)
  | succ fuel ih =>
    rw [walk, if_neg (hseen node 0 .self)]
    have hchild : ∀ c ∈ children rows node, up rows c = some (some node) :=
      fun c hc => (mem_children hids).mp hc
    have hwalk : ∀ c ∈ children rows node, ∀ seen, (∀ x k, Under (up rows) c x k → x ∉ seen) →
        Walked rows c seen (walk rows fuel c seen) := by
      intro c hc seen hseen
      refine ih (fun x k hu => ?_) hseen
      have := hfuel x (k + 1) (under_succ_iff.mpr ⟨c, hchild c hc, hu⟩)
      omega
    obtain ⟨hmax, hmem⟩ := foldl_walk (nodup_children hids) hwalk
      (fun c hc c' hc' hne x k k' hu =>
        disjoint_children h (hchild c hc) (hchild c' hc') hne hu)
      (0, node :: seen) (by
        intro c hc x k hu hx
        have hunder := under_succ_iff.mpr ⟨c, hchild c hc, hu⟩
        rcases List.mem_cons.mp hx with rfl | hx
        · obtain ⟨e, hnode, -, -⟩ := h.depth (hchild c hc)
          exact hnode.not_under hunder
        · exact hseen x (k + 1) hunder hx)
    generalize (children rows node).foldl _ _ = walked at hmax hmem
    constructor
    · intro m
      show 1 + walked.1 ≤ m ↔ _
      constructor
      · intro hle x k hu
        cases k with
        | zero => omega
        | succ k =>
          obtain ⟨c, hc, hu⟩ := under_succ_iff.mp hu
          have := ((hmax (m - 1)).mp (by omega)).2 c ((mem_children hids).mpr hc) x k hu
          omega
      · intro hall
        have hm := hall node 0 .self
        have := (hmax (m - 1)).mpr ⟨by simp, fun c hc x k hu => by
          have := hall x (k + 1) (under_succ_iff.mpr ⟨c, hchild c hc, hu⟩)
          omega⟩
        omega
    · intro x
      rw [hmem, List.mem_cons]
      constructor
      · rintro ((rfl | hx) | ⟨c, hc, k, hu⟩)
        · exact Or.inr ⟨0, .self⟩
        · exact Or.inl hx
        · exact Or.inr ⟨k + 1, under_succ_iff.mpr ⟨c, hchild c hc, hu⟩⟩
      · rintro (hx | ⟨k, hu⟩)
        · exact Or.inl (Or.inr hx)
        · cases k with
          | zero => cases hu; exact Or.inl (Or.inl rfl)
          | succ k =>
            obtain ⟨c, hc, hu⟩ := under_succ_iff.mp hu
            exact Or.inr ⟨c, (mem_children hids).mpr hc, k, hu⟩

lemma subtreeDepth_height (hids : (rows.map TreeRow.id).Nodup) (h : IsForest (up rows) maxDepth)
    (id : String) : Height (up rows) id (subtreeDepth rows (some id)) :=
  (walk_walked hids h (fun _ _ => under_lt_rounds h) fun _ _ _ => List.not_mem_nil).height

/-! ### What the guard accepts -/

/-- On a forest the guard accepts a parent for `id`, whether or not there is such a row, exactly
when the table with that pointer is a forest again. -/
theorem checkParent_eq_none_iff (hids : (rows.map TreeRow.id).Nodup)
    (h : IsForest (up rows) maxDepth) (hmax : 0 < maxDepth) (id : String)
    (parentId : Option String) :
    checkParent rows (some id) parentId maxDepth = none ↔
      IsForest (Function.update (up rows) id (some parentId)) maxDepth := by
  have hheight := subtreeDepth_height hids h id
  cases parentId with
  | none =>
    have hle := hheight.le h hmax
    simpa [checkParent, hle] using h.update_root hmax
  | some parent =>
    by_cases hself : id = parent
    · subst hself
      simpa [checkParent] using not_isForest_update (Or.inr rfl)
    cases hrow : byId rows parent with
    | none =>
      have hup : up rows parent = none := by rw [up, hrow]; rfl
      simpa [checkParent, hself, hrow] using not_isForest_update (Or.inl hup)
    | some r =>
      obtain ⟨d, -, hd⟩ := h parent (by rw [up, hrow]; rfl)
      rw [h.update_iff hd, ← not_exists, ← isDescendant_iff hd (Ne.symm hself),
        ← hheight.add_le_iff, ← depthOf_eq hd]
      simp only [checkParent, Option.some_inj, hself, if_false, hrow, Option.isNone_some,
        Option.any_some]
      split_ifs with hcycle hdeep <;> simp_all

/-- The same for a new row, whatever id it gets. -/
theorem checkParent_new_eq_none_iff (h : IsForest (up rows) maxDepth) (hmax : 0 < maxDepth)
    {id : String} (hnew : up rows id = none) (parentId : Option String) :
    checkParent rows none parentId maxDepth = none ↔
      IsForest (Function.update (up rows) id (some parentId)) maxDepth := by
  have honly : ∀ x k, Under (up rows) id x k → x = id ∧ k = 0 := by
    intro x k hu
    cases k with
    | zero => cases hu; exact ⟨rfl, rfl⟩
    | succ k =>
      obtain ⟨c, hc, -⟩ := under_succ_iff.mp hu
      obtain ⟨e, he, -⟩ := h.depth hc
      have := he.isSome
      rw [hnew] at this
      cases this
  cases parentId with
  | none =>
    have hone : ¬1 > maxDepth := by omega
    simpa [checkParent, subtreeDepth, hone] using h.update_root hmax
  | some parent =>
    cases hrow : byId rows parent with
    | none =>
      have hup : up rows parent = none := by rw [up, hrow]; rfl
      simpa [checkParent, hrow] using not_isForest_update (Or.inl hup)
    | some r =>
      obtain ⟨d, -, hd⟩ := h parent (by rw [up, hrow]; rfl)
      have hne : parent ≠ id := by
        rintro rfl
        have := hd.isSome
        rw [hnew] at this
        cases this
      rw [h.update_iff hd]
      simp only [checkParent, hrow, reduceCtorEq, if_false, Option.isNone_some, Option.any_none,
        depthOf_eq hd, subtreeDepth]
      constructor
      · intro hdepth
        refine ⟨fun k hu => hne (honly parent k hu).1, fun x k hu => ?_⟩
        obtain ⟨-, rfl⟩ := honly x k hu
        simpa using hdepth
      · rintro ⟨-, hlevels⟩
        simpa using hlevels id 0 .self

end SafeerApi.OrgChart
