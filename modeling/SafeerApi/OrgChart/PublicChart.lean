import SafeerApi.OrgChart.Positions

/-!
# The public chart (`public-org-chart.ts`)

The forest is built from the rows as they are, without a check that their parents make one: a node
is reached from a root or not at all, and nothing is below the fifth level.
-/

namespace SafeerApi.OrgChart

open Lib

/-! ### Nodes -/

inductive ResolvedTone where
  | neutral
  | sky
  | green
  | brand
  deriving DecidableEq, Repr

structure PublicOrgHolder where
  id : ℕ
  nameAr : String
  nameEn : Option String
  deriving DecidableEq, Repr

structure PublicOrgNode where
  id : ℕ
  nameAr : String
  nameEn : Option String
  tone : ResolvedTone
  holders : List PublicOrgHolder
  children : List PublicOrgNode

/-- The columns of `board_members` that the chart reads. -/
structure ChartMember extends BoardMember where
  nameEn : Option String := none

/-! ### Building -/

def autoTones : List ResolvedTone := [.neutral, .sky, .green, .brand]

def resolveTone (tone : OrgTone) (depth : ℕ) : ResolvedTone :=
  match tone with
  | .neutral => .neutral
  | .sky => .sky
  | .green => .green
  | .brand => .brand
  | .auto => autoTones.get ⟨min depth (autoTones.length - 1), by simp [autoTones]⟩

/-- The list the `children` map holds for a parent. A parent that is not in the list hides its
branch. -/
def childrenOf (positions : List OrgPosition) (parent : Option ℕ) : List OrgPosition :=
  positions.filter fun p =>
    p.parentId = parent && p.parentId.all fun q => q ∈ positions.map OrgPosition.id

/-- The list the `holders` map holds for a position. -/
def holdersOf (members : List ChartMember) (position : ℕ) : List PublicOrgHolder :=
  (members.filter fun m => m.orgPositionId = some position).map fun m =>
    ⟨m.id, m.nameAr, m.nameEn⟩

/-- `build(parent, depth)`, with `levels` for `ORG_MAX_DEPTH - depth`. -/
def build (positions : List OrgPosition) (members : List ChartMember) :
    ℕ → Option ℕ → List PublicOrgNode
  | 0, _ => []
  | levels + 1, parent =>
    let depth := orgMaxDepth - (levels + 1)
    (childrenOf positions parent).map fun p =>
      { id := p.id
        nameAr := p.nameAr
        nameEn := p.nameEn
        tone := resolveTone p.tone depth
        holders := if p.showHolders then holdersOf members p.id else []
        children := build positions members levels (some p.id) }

def buildOrgForest (positions : List OrgPosition) (members : List ChartMember) :
    List PublicOrgNode :=
  build positions members orgMaxDepth none

/-- Whether the parents of a position are all there, up to a root, within so many levels. -/
def leadsToRoot (positions : List OrgPosition) : ℕ → OrgPosition → Bool
  | 0, _ => false
  | levels + 1, p => p.parentId.all fun q =>
    positions.any fun parent => parent.id = q && leadsToRoot positions levels parent

/-- The positions of the chart: those that lead to a root within its levels. -/
def chartPositions (positions : List OrgPosition) : List OrgPosition :=
  positions.filter (leadsToRoot positions orgMaxDepth)

/-! ### Where the nodes are -/

mutual

/-- The nodes of a tree with their depths, from top to bottom. -/
def nodesOf (depth : ℕ) : PublicOrgNode → List (ℕ × PublicOrgNode)
  | ⟨id, nameAr, nameEn, tone, holders, children⟩ =>
    (depth, ⟨id, nameAr, nameEn, tone, holders, children⟩) :: nodesOfForest (depth + 1) children

def nodesOfForest (depth : ℕ) : List PublicOrgNode → List (ℕ × PublicOrgNode)
  | [] => []
  | node :: forest => nodesOf depth node ++ nodesOfForest depth forest

end

/-- The ids in a forest, once for each node. -/
def idsIn (forest : List PublicOrgNode) : List ℕ := (nodesOfForest 0 forest).map fun x => x.2.id

/-- The parent pointers of a list of positions. -/
def chartUp (positions : List OrgPosition) (id : ℕ) : Option (Option ℕ) :=
  (positions.find? fun p => p.id = id).map OrgPosition.parentId

variable {positions : List OrgPosition} {members : List ChartMember}

/-- The node of a position, with `levels` levels below it. -/
def nodeAt (positions : List OrgPosition) (members : List ChartMember) (levels : ℕ)
    (p : OrgPosition) : PublicOrgNode where
  id := p.id
  nameAr := p.nameAr
  nameEn := p.nameEn
  tone := resolveTone p.tone (orgMaxDepth - (levels + 1))
  holders := if p.showHolders then holdersOf members p.id else []
  children := build positions members levels (some p.id)

lemma build_succ (levels : ℕ) (parent : Option ℕ) :
    build positions members (levels + 1) parent
      = (childrenOf positions parent).map (nodeAt positions members levels) := rfl

lemma leadsToRoot_mono {levels levels' : ℕ} (hle : levels ≤ levels') {p : OrgPosition}
    (h : leadsToRoot positions levels p = true) : leadsToRoot positions levels' p = true := by
  induction levels generalizing levels' p with
  | zero => cases h
  | succ levels ih =>
    obtain ⟨levels', rfl⟩ : ∃ n, levels' = n + 1 := ⟨levels' - 1, by omega⟩
    simp only [leadsToRoot, Option.all_eq_true] at h ⊢
    intro q hq
    obtain ⟨parent, hparent, hid⟩ := List.any_eq_true.mp (h q hq)
    rw [Bool.and_eq_true] at hid
    exact List.any_eq_true.mpr
      ⟨parent, hparent, by rw [Bool.and_eq_true]; exact ⟨hid.1, ih (by omega) hid.2⟩⟩

/-- Below a parent that leads to a root, the positions of the chart are all there. -/
lemma childrenOf_chartPositions {levels : ℕ} (hle : levels < orgMaxDepth) {parent : Option ℕ}
    (hparent : ∀ q ∈ parent, ∃ p ∈ positions, p.id = q ∧ leadsToRoot positions levels p = true) :
    childrenOf (chartPositions positions) parent = childrenOf positions parent := by
  have hids : ∀ q ∈ parent, q ∈ (chartPositions positions).map OrgPosition.id ∧
      q ∈ positions.map OrgPosition.id := by
    intro q hq
    obtain ⟨p, hp, rfl, hleads⟩ := hparent q hq
    exact ⟨List.mem_map_of_mem (List.mem_filter.mpr ⟨hp, leadsToRoot_mono hle.le hleads⟩),
      List.mem_map_of_mem hp⟩
  simp only [childrenOf]
  rw [chartPositions, List.filter_filter, ← chartPositions]
  apply List.filter_congr
  intro p _
  by_cases hp : p.parentId = parent
  · have hleads : leadsToRoot positions orgMaxDepth p = true := by
      refine leadsToRoot_mono (Nat.succ_le_of_lt hle) ?_
      simp only [leadsToRoot, hp, Option.all_eq_true]
      intro q hq
      obtain ⟨above, habove, hid, hleads⟩ := hparent q hq
      exact List.any_eq_true.mpr ⟨above, habove, by simp [hid, hleads]⟩
    have hall : ∀ {ids : List ℕ}, (∀ q ∈ parent, q ∈ ids) →
        p.parentId.all (fun q => decide (q ∈ ids)) = true := by
      intro ids h
      rw [hp, Option.all_eq_true]
      exact fun q hq => decide_eq_true (h q hq)
    simp only [hleads, hall fun q hq => (hids q hq).1, hall fun q hq => (hids q hq).2, Bool.and_true]
  · simp [hp]

lemma build_chartPositions (levels : ℕ) (hle : levels ≤ orgMaxDepth) {parent : Option ℕ}
    (hparent : ∀ q ∈ parent,
      ∃ p ∈ positions, p.id = q ∧ leadsToRoot positions (orgMaxDepth - levels) p = true) :
    build (chartPositions positions) members levels parent
      = build positions members levels parent := by
  induction levels generalizing parent with
  | zero => rfl
  | succ levels ih =>
    rw [build_succ, build_succ, childrenOf_chartPositions (by omega) hparent]
    apply List.map_congr_left
    intro p hp
    have hbelow : build (chartPositions positions) members levels (some p.id)
        = build positions members levels (some p.id) := by
      apply ih (by omega)
      intro q hq
      obtain rfl := Option.some.inj hq
      obtain ⟨hmem, hp⟩ := List.mem_filter.mp hp
      rw [Bool.and_eq_true, decide_eq_true_eq] at hp
      refine ⟨p, hmem, rfl, ?_⟩
      rw [show orgMaxDepth - levels = orgMaxDepth - (levels + 1) + 1 by omega]
      simp only [leadsToRoot, hp.1, Option.all_eq_true]
      intro q hq
      obtain ⟨above, habove, hid, hleads⟩ := hparent q hq
      exact List.any_eq_true.mpr ⟨above, habove, by simp [hid, hleads]⟩
    simp only [nodeAt, hbelow]

/-- The forest shows the positions of the chart and no others. -/
lemma buildOrgForest_chartPositions (positions : List OrgPosition) (members : List ChartMember) :
    buildOrgForest (chartPositions positions) members = buildOrgForest positions members :=
  build_chartPositions orgMaxDepth (Nat.le_refl _) fun q hq => by cases hq

lemma nodesOfForest_map (depth : ℕ) (f : OrgPosition → PublicOrgNode) (l : List OrgPosition) :
    nodesOfForest depth (l.map f) =
      l.flatMap fun p => (depth, f p) :: nodesOfForest (depth + 1) (f p).children := by
  induction l with
  | nil => rw [List.map_nil, nodesOfForest, List.flatMap_nil]
  | cons p l ih =>
    rw [List.map_cons, nodesOfForest, ih, List.flatMap_cons]
    apply congrArg (· ++ _)
    rcases f p with ⟨id, nameAr, nameEn, tone, holders, children⟩
    rw [nodesOf]

/-- The nodes of what is built, level by level. -/
lemma nodesOfForest_build (depth levels : ℕ) (parent : Option ℕ) :
    nodesOfForest depth (build positions members (levels + 1) parent) =
      (childrenOf positions parent).flatMap fun p =>
        (depth, nodeAt positions members levels p) ::
          nodesOfForest (depth + 1) (build positions members levels (some p.id)) := by
  rw [build_succ, nodesOfForest_map]
  rfl

/-- A node is that of a position, at its depth. -/
lemma exists_of_mem_nodesOfForest {depth levels e : ℕ} {parent : Option ℕ} {node : PublicOrgNode}
    (h : (e, node) ∈ nodesOfForest depth (build positions members levels parent)) :
    ∃ p ∈ positions, ∃ below, e + (below + 1) = depth + levels ∧
      node = nodeAt positions members below p := by
  induction levels generalizing depth parent with
  | zero => cases h
  | succ levels ih =>
    rw [nodesOfForest_build] at h
    obtain ⟨p, hp, hmem⟩ := List.mem_flatMap.mp h
    rcases List.mem_cons.mp hmem with heq | hmem
    · obtain ⟨rfl, rfl⟩ := Prod.mk.inj heq
      exact ⟨p, (List.mem_filter.mp hp).1, levels, rfl, rfl⟩
    · obtain ⟨q, hq, below, heq, hnode⟩ := ih hmem
      exact ⟨q, hq, below, by omega, hnode⟩

/-- What is below a position, with the position itself. -/
lemma mem_cons_below_iff {levels i : ℕ} {below : List ℕ}
    (hbelow : ∀ x, x ∈ below ↔ ∃ k < levels, ∃ c, chartUp positions c = some (some i) ∧
      Under (chartUp positions) c x k) (x : ℕ) :
    x ∈ i :: below ↔ ∃ k < levels + 1, Under (chartUp positions) i x k := by
  rw [List.mem_cons, hbelow x]
  constructor
  · rintro (rfl | ⟨k, hk, hunder⟩)
    · exact ⟨0, Nat.succ_pos _, .self⟩
    · exact ⟨k + 1, Nat.succ_lt_succ hk, under_succ_iff.mpr hunder⟩
  · rintro ⟨k, hk, hunder⟩
    cases k with
    | zero => cases hunder; exact Or.inl rfl
    | succ k => exact Or.inr ⟨k, Nat.lt_of_succ_lt_succ hk, under_succ_iff.mp hunder⟩

lemma mem_ids_of_mem_childrenOf {p : OrgPosition} {parent : Option ℕ}
    (hp : p ∈ childrenOf positions parent) :
    ∀ q ∈ some p.id, q ∈ positions.map OrgPosition.id := by
  intro q hq
  obtain rfl := Option.some.inj hq
  exact List.mem_map_of_mem (List.mem_filter.mp hp).1

section Unique

variable (hids : (positions.map OrgPosition.id).Nodup)

include hids

lemma chartUp_of_mem {p : OrgPosition} (hp : p ∈ positions) :
    chartUp positions p.id = some p.parentId := by
  cases hfind : positions.find? fun q => q.id = p.id with
  | none => exact absurd (List.find?_eq_none.mp hfind p hp) (by simp)
  | some q =>
    have hq := List.mem_of_find?_eq_some hfind
    have hid : q.id = p.id := by simpa using List.find?_some hfind
    rw [chartUp, hfind, List.inj_on_of_nodup_map hids hq hp hid]
    rfl

/-- The children of a parent that is in the list, or of the top, are the rows that point at it. -/
lemma exists_childrenOf_iff {parent : Option ℕ}
    (hparent : ∀ q ∈ parent, q ∈ positions.map OrgPosition.id) {x : ℕ} :
    (∃ p ∈ childrenOf positions parent, p.id = x) ↔ chartUp positions x = some parent := by
  constructor
  · rintro ⟨p, hp, rfl⟩
    obtain ⟨hmem, hp⟩ := List.mem_filter.mp hp
    rw [Bool.and_eq_true, decide_eq_true_eq] at hp
    rw [chartUp_of_mem hids hmem, hp.1]
  · intro hx
    obtain ⟨p, hfind, hp⟩ := Option.map_eq_some_iff.mp hx
    have hid : p.id = x := by simpa using List.find?_some hfind
    refine ⟨p, List.mem_filter.mpr ⟨List.mem_of_find?_eq_some hfind, ?_⟩, hid⟩
    rw [Bool.and_eq_true, decide_eq_true_eq, hp]
    refine ⟨rfl, ?_⟩
    cases parent with
    | none => rfl
    | some q => simpa using hparent q rfl

lemma nodup_childrenOf (parent : Option ℕ) :
    (childrenOf positions parent).Pairwise fun p q => p.id ≠ q.id := by
  have hnodup : ((childrenOf positions parent).map OrgPosition.id).Nodup :=
    hids.sublist (List.filter_sublist.map OrgPosition.id)
  exact List.pairwise_map.mp hnodup

variable (members) in
/-- Below a parent each position is that leads to it within the levels that are left, and no
other. -/
lemma mem_nodesOfForest_build (levels e : ℕ) (parent : Option ℕ)
    (hparent : ∀ q ∈ parent, q ∈ positions.map OrgPosition.id) (x : ℕ) :
    x ∈ (nodesOfForest e (build positions members levels parent)).map (fun x => x.2.id) ↔
      ∃ k < levels, ∃ c, chartUp positions c = some parent ∧ Under (chartUp positions) c x k := by
  induction levels generalizing e parent x with
  | zero => simp [build, nodesOfForest]
  | succ levels ih =>
    rw [nodesOfForest_build, List.map_flatMap, List.mem_flatMap]
    simp only [List.map_cons]
    constructor
    · rintro ⟨p, hp, hx⟩
      obtain ⟨k, hk, hunder⟩ :=
        (mem_cons_below_iff (ih (e + 1) (some p.id) (mem_ids_of_mem_childrenOf hp)) x).mp hx
      exact ⟨k, hk, p.id, (exists_childrenOf_iff hids hparent).mp ⟨p, hp, rfl⟩, hunder⟩
    · rintro ⟨k, hk, c, hc, hunder⟩
      obtain ⟨p, hp, rfl⟩ := (exists_childrenOf_iff hids hparent).mpr hc
      exact ⟨p, hp, (mem_cons_below_iff
        (ih (e + 1) (some p.id) (mem_ids_of_mem_childrenOf hp)) x).mpr ⟨k, hk, hunder⟩⟩

variable (members) in
/-- Below a parent whose children have a depth, each position is there once: what is below two of
them would lead to both, from the same depth. -/
lemma nodup_nodesOfForest_build (levels e depth : ℕ) (parent : Option ℕ)
    (hparent : ∀ q ∈ parent, q ∈ positions.map OrgPosition.id)
    (hdepth : ∀ c, chartUp positions c = some parent → Depth (chartUp positions) c depth) :
    ((nodesOfForest e (build positions members levels parent)).map fun x => x.2.id).Nodup := by
  induction levels generalizing e depth parent with
  | zero => simp [build, nodesOfForest]
  | succ levels ih =>
    have hchild : ∀ p ∈ childrenOf positions parent, chartUp positions p.id = some parent :=
      fun p hp => (exists_childrenOf_iff hids hparent).mp ⟨p, hp, rfl⟩
    have hbelow : ∀ p ∈ childrenOf positions parent, ∀ x, _ := fun p hp =>
      mem_nodesOfForest_build members hids levels (e + 1) (some p.id) (mem_ids_of_mem_childrenOf hp)
    rw [nodesOfForest_build, List.map_flatMap]
    simp only [List.map_cons]
    refine List.nodup_flatMap.mpr ⟨fun p hp => ?_, ?_⟩
    · refine List.nodup_cons.mpr ⟨fun hself => ?_, ?_⟩
      · obtain ⟨k, -, hunder⟩ := (hbelow p hp p.id).mp hself
        exact (hdepth p.id (hchild p hp)).not_under (under_succ_iff.mpr hunder)
      · exact ih (e + 1) (depth + 1) (some p.id) (mem_ids_of_mem_childrenOf hp)
          fun c hc => .child hc (hdepth p.id (hchild p hp))
    · refine (nodup_childrenOf hids parent).imp_of_mem fun {p q} hp hq hne x hxp hxq => ?_
      obtain ⟨k, -, hpx⟩ := (mem_cons_below_iff (hbelow p hp) x).mp hxp
      obtain ⟨l, -, hqx⟩ := (mem_cons_below_iff (hbelow q hq) x).mp hxq
      have hpd := hpx.depth (hdepth p.id (hchild p hp))
      have hqd := hqx.depth (hdepth q.id (hchild q hq))
      have hlevel := hpd.unique hqd
      obtain rfl : k = l := by omega
      exact hne (hpx.eq_of_level hqx)

variable (members) in
/-- A position is in the forest once when its parents lead to a root within five levels. -/
lemma idsIn_buildOrgForest :
    (idsIn (buildOrgForest positions members)).Nodup ∧
      ∀ x, x ∈ idsIn (buildOrgForest positions members) ↔
        ∃ d ≤ orgMaxDepth, Depth (chartUp positions) x d := by
  refine ⟨nodup_nodesOfForest_build members hids orgMaxDepth 0 1 none (by simp)
    fun c hc => .root hc, fun x => ?_⟩
  refine (mem_nodesOfForest_build members hids orgMaxDepth 0 none (by simp) x).trans ⟨?_, ?_⟩
  · rintro ⟨k, hk, c, hc, hunder⟩
    exact ⟨1 + k, by omega, hunder.depth (.root hc)⟩
  · rintro ⟨d, hd, hdepth⟩
    obtain ⟨r, hr, hunder⟩ := hdepth.exists_root
    have hpos := hdepth.pos
    exact ⟨d - 1, by omega, r, hr, hunder⟩

end Unique

/-! ### The forest -/

/-- The tone of a level for `auto`. -/
def toneOfDepth : ℕ → ResolvedTone
  | 0 => .neutral
  | 1 => .sky
  | 2 => .green
  | _ => .brand

lemma resolveTone_auto (depth : ℕ) : resolveTone .auto depth = toneOfDepth depth := by
  match depth with
  | 0 => rfl
  | 1 => rfl
  | 2 => rfl
  | depth + 3 =>
    have hmin : min (depth + 3) (autoTones.length - 1) = 3 :=
      Nat.min_eq_right (Nat.le_add_left 3 depth)
    simp only [resolveTone, hmin]
    rfl

/-- The node is that of a position, `depth` levels below the roots. -/
structure IsNodeOf (positions : List OrgPosition) (members : List ChartMember) (depth : ℕ)
    (p : OrgPosition) (node : PublicOrgNode) : Prop where
  same : node.id = p.id ∧ node.nameAr = p.nameAr ∧ node.nameEn = p.nameEn
  children : depth + 1 < orgMaxDepth → node.children.map PublicOrgNode.id
    = (positions.filter fun q => q.parentId = some p.id).map OrgPosition.id
  holders : node.holders = if p.showHolders then
      (members.filter fun m => m.orgPositionId = some p.id).map fun m => ⟨m.id, m.nameAr, m.nameEn⟩
    else []
  tone : p.tone = .auto → node.tone = toneOfDepth depth

lemma isNodeOf_nodeAt {p : OrgPosition} (hp : p ∈ positions) {depth below : ℕ}
    (hdepth : depth + (below + 1) = orgMaxDepth) :
    IsNodeOf positions members depth p (nodeAt positions members below p) where
  same := ⟨rfl, rfl, rfl⟩
  children hlt := by
    obtain ⟨below, rfl⟩ : ∃ b, below = b + 1 := ⟨below - 1, by omega⟩
    have hsame : childrenOf positions (some p.id)
        = positions.filter fun q => q.parentId = some p.id := by
      apply List.filter_congr
      intro q _
      by_cases hq : q.parentId = some p.id
      · have hid : p.id ∈ positions.map OrgPosition.id := List.mem_map_of_mem hp
        simpa [hq] using hid
      · simp [hq]
    show (build positions members (below + 1) (some p.id)).map PublicOrgNode.id = _
    rw [build_succ, List.map_map, hsame]
    rfl
  holders := rfl
  tone hauto := by
    have heq : orgMaxDepth - (below + 1) = depth := by omega
    show resolveTone p.tone (orgMaxDepth - (below + 1)) = _
    rw [hauto, heq, resolveTone_auto]

/-- The forest of any list of positions has one node for each position whose parents lead to a root
within five levels, and no other. -/
theorem buildOrgForest_places (positions : List OrgPosition) (members : List ChartMember)
    (hids : (positions.map OrgPosition.id).Nodup) :
    (∀ p ∈ positions,
      ((∃ d ≤ 5, Depth (chartUp positions) p.id d) →
        (idsIn (buildOrgForest positions members)).count p.id = 1) ∧
      ((¬∃ d ≤ 5, Depth (chartUp positions) p.id d) →
        (idsIn (buildOrgForest positions members)).count p.id = 0)) ∧
    ∀ depth node, (depth, node) ∈ nodesOfForest 0 (buildOrgForest positions members) →
      ∃ p ∈ positions, IsNodeOf positions members depth p node := by
  obtain ⟨hnodup, hmem⟩ := idsIn_buildOrgForest members hids
  refine ⟨fun p _ => ⟨fun hchain => ?_, fun hchain => ?_⟩, fun depth node hnode => ?_⟩
  · exact List.count_eq_one_of_mem hnodup ((hmem p.id).mpr hchain)
  · exact List.count_eq_zero.mpr (mt (hmem p.id).mp hchain)
  · obtain ⟨p, hp, below, hdepth, rfl⟩ := exists_of_mem_nodesOfForest hnode
    exact ⟨p, hp, isNodeOf_nodeAt hp (by omega)⟩

/-- A root, its child, a position that is its own parent and one whose parent is missing. -/
theorem buildOrgForest_places_orphans :
    (idsIn (buildOrgForest [⟨1, "a", none, none, .auto, true, true, 0⟩,
      ⟨2, "b", none, some 1, .auto, true, true, 0⟩, ⟨3, "c", none, some 3, .auto, true, true, 0⟩,
      ⟨4, "d", none, some 9, .auto, true, true, 0⟩] [])).count 2 = 1 :=
  ((buildOrgForest_places [⟨1, "a", none, none, .auto, true, true, 0⟩,
      ⟨2, "b", none, some 1, .auto, true, true, 0⟩, ⟨3, "c", none, some 3, .auto, true, true, 0⟩,
      ⟨4, "d", none, some 9, .auto, true, true, 0⟩] [] (by decide)).1
    ⟨2, "b", none, some 1, .auto, true, true, 0⟩ (by decide)).1
    ⟨2, by decide, .child (by decide) (.root (i := 1) (by decide))⟩

end SafeerApi.OrgChart
