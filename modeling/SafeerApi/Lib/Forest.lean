import Mathlib.Data.List.Perm.Subperm
import Mathlib.Logic.Function.Basic
import Mathlib.Logic.Relation
import Mathlib.Tactic.Common

/-!
# Forests given by parent pointers

`up i` is `none` when `i` is no node, `some none` when it is a root, and `some (some p)` when its
parent is `p`. A node has a depth exactly when its parents lead to a root, so a forest of depth at
most `max` is a `up` in which every node has a depth, at most `max`. What a change of one pointer
does to a forest is settled by the nodes under the one that moves.
-/

namespace SafeerApi.Lib

variable {ι κ : Type*} {up : ι → Option (Option ι)} {i j p q : ι} {d e k max : ℕ}

/-! ### Depth -/

/-- The parents of `i` lead to a root, which is `d - 1` steps above it. -/
inductive Depth (up : ι → Option (Option ι)) : ι → ℕ → Prop where
  | root {i : ι} (h : up i = some none) : Depth up i 1
  | child {i p : ι} {d : ℕ} (h : up i = some (some p)) (hp : Depth up p d) : Depth up i (d + 1)

/-- Every node has a depth, at most `max`. -/
def IsForest (up : ι → Option (Option ι)) (max : ℕ) : Prop :=
  ∀ i, (up i).isSome → ∃ d ≤ max, Depth up i d

lemma Depth.unique (h : Depth up i d) (h' : Depth up i e) : d = e := by
  induction h generalizing e with
  | root h =>
    cases h' with
    | root => rfl
    | child h' => rw [h] at h'; cases h'
  | child h _ ih =>
    cases h' with
    | root h' => rw [h] at h'; cases h'
    | child h' hp' =>
      rw [h] at h'
      cases h'
      rw [ih hp']

lemma Depth.pos (h : Depth up i d) : 0 < d := by
  cases h <;> omega

lemma Depth.isSome (h : Depth up i d) : (up i).isSome := by
  cases h with
  | root h => rw [h]; rfl
  | child h => rw [h]; rfl

/-- In a forest a parent is a node one level up. -/
lemma Depth.parent (h : Depth up i d) (hp : up i = some (some p)) :
    ∃ e, Depth up p e ∧ d = e + 1 := by
  cases h with
  | root h => rw [h] at hp; cases hp
  | child h hq =>
    rw [h] at hp
    cases hp
    exact ⟨_, hq, rfl⟩

/-- `p` is the parent of `i`. -/
def IsParent (up : ι → Option (Option ι)) (i p : ι) : Prop := up i = some (some p)

lemma Depth.transGen (h : Depth up i d) (hij : Relation.TransGen (IsParent up) i j) :
    ∃ e < d, Depth up j e := by
  induction hij with
  | single hp =>
    obtain ⟨e, he, rfl⟩ := h.parent hp
    exact ⟨e, by omega, he⟩
  | tail _ hp ih =>
    obtain ⟨e, hlt, he⟩ := ih
    obtain ⟨e', he', rfl⟩ := he.parent hp
    exact ⟨e', by omega, he'⟩

/-- Parents exist, no node is its own ancestor, and no node is deeper than `max`. -/
structure Forest (up : ι → Option (Option ι)) (max : ℕ) : Prop where
  parent_exists : ∀ i p, up i = some (some p) → (up p).isSome
  acyclic : ∀ i, ¬Relation.TransGen (IsParent up) i i
  shallow : ∀ i d, Depth up i d → d ≤ max

lemma IsForest.depth (h : IsForest up max) (hp : up i = some (some p)) :
    ∃ e, Depth up p e ∧ Depth up i (e + 1) ∧ e + 1 ≤ max := by
  obtain ⟨d, hle, hd⟩ := h i (by rw [hp]; rfl)
  obtain ⟨e, he, rfl⟩ := hd.parent hp
  exact ⟨e, he, hd, hle⟩

lemma IsForest.forest (h : IsForest up max) : Forest up max where
  parent_exists i p hp := by
    obtain ⟨e, he, -⟩ := h.depth hp
    exact he.isSome
  acyclic i hcycle := by
    have hnode : (up i).isSome := by
      obtain ⟨p, hp, -⟩ := Relation.TransGen.head'_iff.mp hcycle
      rw [show up i = some (some p) from hp]
      rfl
    obtain ⟨d, -, hd⟩ := h i hnode
    obtain ⟨e, hlt, he⟩ := hd.transGen hcycle
    exact absurd (hd.unique he) (by omega)
  shallow i d hd := by
    obtain ⟨e, hle, he⟩ := h i hd.isSome
    rwa [hd.unique he]

/-! ### Subtrees -/

/-- `j` is `k` levels under `i`; `i` itself is no level under `i`. -/
inductive Under (up : ι → Option (Option ι)) (i : ι) : ι → ℕ → Prop where
  | self : Under up i i 0
  | down {j p : ι} {k : ℕ} (h : up j = some (some p)) (hp : Under up i p k) : Under up i j (k + 1)

lemma Under.depth (h : Under up i j k) (hi : Depth up i d) : Depth up j (d + k) := by
  induction h with
  | self => exact hi
  | down h _ ih => exact .child h ih

lemma Under.depth_top (h : Under up i j k) (hj : Depth up j e) : ∃ d, Depth up i d ∧ e = d + k := by
  induction h generalizing e with
  | self => exact ⟨e, hj, rfl⟩
  | down h _ ih =>
    obtain ⟨e', he', rfl⟩ := hj.parent h
    obtain ⟨d, hd, rfl⟩ := ih he'
    exact ⟨d, hd, by omega⟩

/-- No node of a forest is under itself. -/
lemma Depth.not_under (h : Depth up i d) : ¬Under up i i (k + 1) := by
  intro hu
  exact absurd (h.unique (hu.depth h)) (by omega)

/-- Nothing is under a node at two levels. -/
lemma Under.level_unique {k' : ℕ} (h : Under up i j k) (h' : Under up i j k') (hj : Depth up j e) :
    k = k' := by
  obtain ⟨d, hd, rfl⟩ := h.depth_top hj
  obtain ⟨d', hd', heq⟩ := h'.depth_top hj
  have := hd.unique hd'
  omega

/-- A node has one ancestor at each level. -/
lemma Under.eq_of_level {i' : ι} (h : Under up i j k) (h' : Under up i' j k) : i = i' := by
  induction h with
  | self => cases h'; rfl
  | down h _ ih =>
    cases h' with
    | down h' hp' =>
      rw [h] at h'
      cases h'
      exact ih hp'

/-- What is under a node, other than the node, is under one of its children. -/
lemma under_succ_iff : Under up i j (k + 1) ↔ ∃ c, up c = some (some i) ∧ Under up c j k := by
  constructor
  · intro h
    induction k generalizing j with
    | zero =>
      cases h with
      | down h hp => cases hp; exact ⟨j, h, .self⟩
    | succ k ih =>
      cases h with
      | down h hp =>
        obtain ⟨c, hc, hu⟩ := ih hp
        exact ⟨c, hc, .down h hu⟩
  · rintro ⟨c, hc, hu⟩
    induction hu with
    | self => exact .down hc .self
    | down h _ ih => exact .down h ih

/-- What is under a node is the node and what its parent is under. -/
lemma exists_under_iff :
    (∃ k, Under up i j k) ↔ j = i ∨ ∃ p, up j = some (some p) ∧ ∃ k, Under up i p k := by
  constructor
  · rintro ⟨k, hu⟩
    cases hu with
    | self => exact Or.inl rfl
    | down h hp => exact Or.inr ⟨_, h, _, hp⟩
  · rintro (rfl | ⟨p, h, k, hp⟩)
    · exact ⟨0, .self⟩
    · exact ⟨k + 1, .down h hp⟩

/-- What has a depth is that many levels under a root, less one. -/
lemma Depth.exists_root (h : Depth up i d) : ∃ r, up r = some none ∧ Under up r i (d - 1) := by
  induction h with
  | root h => exact ⟨_, h, .self⟩
  | child h hp ih =>
    obtain ⟨r, hr, hu⟩ := ih
    have hpos := hp.pos
    obtain ⟨e, rfl⟩ := Nat.exists_eq_add_of_lt hpos
    exact ⟨r, hr, by simpa using Under.down h hu⟩

/-- `h` levels hang from `i`, its own included. -/
def Height (up : ι → Option (Option ι)) (i : ι) (h : ℕ) : Prop :=
  ∀ m, h ≤ m ↔ ∀ j k, Under up i j k → k < m

/-- A bound on the lowest level is a bound on every level. -/
lemma Height.add_le_iff {h : ℕ} (hh : Height up i h) :
    d + h ≤ max ↔ ∀ j k, Under up i j k → d + 1 + k ≤ max := by
  constructor
  · intro hle j k hu
    have := (hh (max - d)).mp (by omega) j k hu
    omega
  · intro hall
    have hd := hall i 0 .self
    have := (hh (max - d)).mpr fun j k hu => by
      have := hall j k hu
      omega
    omega

/-- A forest hangs no more levels from a node than it has. -/
lemma Height.le {h : ℕ} (hh : Height up i h) (hforest : IsForest up max) (hmax : 0 < max) :
    h ≤ max := by
  apply (hh max).mpr
  intro j k hu
  cases hu with
  | self => exact hmax
  | down hp hu =>
    obtain ⟨e, he, -, hle⟩ := hforest.depth hp
    obtain ⟨d, hd, rfl⟩ := hu.depth_top he
    have := hd.pos
    omega

/-! ### Chains are as long as the nodes allow -/

/-- A node of depth `d` stands on `d` different nodes. -/
lemma Depth.exists_chain (h : Depth up i d) :
    ∃ l : List ι, l.Nodup ∧ l.length = d ∧ ∀ x ∈ l, ∃ e ≤ d, Depth up x e := by
  induction h with
  | root h => exact ⟨[_], by simp, rfl, by simpa using ⟨1, by omega, .root h⟩⟩
  | @child i p d h hp ih =>
    obtain ⟨l, hnodup, hlen, hl⟩ := ih
    refine ⟨i :: l, List.nodup_cons.mpr ⟨fun hmem => ?_, hnodup⟩, by simp [hlen], ?_⟩
    · obtain ⟨e, hle, he⟩ := hl i hmem
      exact absurd ((Depth.child h hp).unique he) (by omega)
    · intro x hx
      rcases List.mem_cons.mp hx with rfl | hx
      · exact ⟨d + 1, by omega, .child h hp⟩
      · obtain ⟨e, hle, he⟩ := hl x hx
        exact ⟨e, by omega, he⟩

lemma Depth.le_length (h : Depth up i d) (nodes : List ι)
    (hnodes : ∀ j, (up j).isSome → j ∈ nodes) : d ≤ nodes.length := by
  obtain ⟨l, hnodup, rfl, hl⟩ := h.exists_chain
  refine (hnodup.subperm fun x hx => ?_).length_le
  obtain ⟨e, -, he⟩ := hl x hx
  exact hnodes x he.isSome

/-! ### Changing one pointer -/

section Update

variable [DecidableEq ι] {x : Option ι}

/-- What is not under the changed node keeps its depth. -/
lemma Depth.update (h : Depth up j d) (hout : ∀ k, ¬Under up i j k) (o : Option (Option ι)) :
    Depth (Function.update up i o) j d := by
  have hne : ∀ {j}, (∀ k, ¬Under up i j k) → j ≠ i := by
    rintro j hout rfl
    exact hout 0 .self
  induction h with
  | root h => exact .root (by rw [Function.update_of_ne (hne hout), h])
  | child h _ ih =>
    refine .child (by rw [Function.update_of_ne (hne hout), h]) (ih fun k hu => ?_)
    exact hout (k + 1) (.down h hu)

/-- What is under the changed node follows it. -/
lemma Under.depth_update (h : Under up i j k) (hforest : IsForest up max)
    {o : Option (Option ι)} (hi : Depth (Function.update up i o) i e) :
    Depth (Function.update up i o) j (e + k) := by
  induction h with
  | self => exact hi
  | @down j p k h hp ih =>
    refine .child ?_ ih
    have hne : j ≠ i := by
      rintro rfl
      obtain ⟨d, -, hd, -⟩ := hforest.depth h
      exact hd.not_under (.down h hp)
    rw [Function.update_of_ne hne, h]

/-- A node made a root brings its subtree up with it. -/
lemma IsForest.update_root (h : IsForest up max) (hmax : 0 < max) :
    IsForest (Function.update up i (some none)) max := by
  have hi : Depth (Function.update up i (some none)) i 1 := .root (by simp)
  intro j hj
  by_cases hu : ∃ k, Under up i j k
  · obtain ⟨k, hu⟩ := hu
    refine ⟨1 + k, ?_, hu.depth_update h hi⟩
    cases hu with
    | self => omega
    | down hp hu =>
      obtain ⟨e, he, -, hle⟩ := h.depth hp
      obtain ⟨d, hd, rfl⟩ := hu.depth_top he
      have := hd.pos
      omega
  · have hout : ∀ k, ¬Under up i j k := fun k hk => hu ⟨k, hk⟩
    have hne : j ≠ i := by
      rintro rfl
      exact hout 0 .self
    rw [Function.update_of_ne hne] at hj
    obtain ⟨d, hle, hd⟩ := h j hj
    exact ⟨d, hle, hd.update hout _⟩

/-- A node, new or not, can be given a parent of depth `d` exactly when the parent is not under it
and none of what is under it ends up below level `max`. -/
theorem IsForest.update_iff (h : IsForest up max) (hp : Depth up p d) :
    IsForest (Function.update up i (some (some p))) max ↔
      (∀ k, ¬Under up i p k) ∧ ∀ j k, Under up i j k → d + 1 + k ≤ max := by
  have hi : Function.update up i (some (some p)) i = some (some p) := Function.update_self ..
  constructor
  · intro h'
    obtain ⟨e, hpe, hie, -⟩ := h'.depth hi
    have hout : ∀ k, ¬Under up i p k := by
      intro k hu
      -- `p` would be both one level above `i` and `k` levels under it
      exact absurd (hpe.unique (hu.depth_update h hie)) (by omega)
    refine ⟨hout, fun j k hu => ?_⟩
    obtain rfl := hpe.unique (hp.update hout _)
    have hj := hu.depth_update h hie
    obtain ⟨e', hle, he'⟩ := h' j hj.isSome
    rwa [hj.unique he']
  · rintro ⟨hout, hlevels⟩ j hj
    have hi : Depth (Function.update up i (some (some p))) i (d + 1) :=
      .child hi (hp.update hout _)
    by_cases hu : ∃ k, Under up i j k
    · obtain ⟨k, hu⟩ := hu
      exact ⟨d + 1 + k, hlevels j k hu, hu.depth_update h hi⟩
    · have hout : ∀ k, ¬Under up i j k := fun k hk => hu ⟨k, hk⟩
      have hne : j ≠ i := by
        rintro rfl
        exact hout 0 .self
      rw [Function.update_of_ne hne] at hj
      obtain ⟨d, hle, hd⟩ := h j hj
      exact ⟨d, hle, hd.update hout _⟩

/-- A node cannot be given a parent that is no node, itself included. -/
lemma not_isForest_update (hp : up p = none ∨ p = i) :
    ¬IsForest (Function.update up i (some (some p))) max := by
  intro h
  obtain ⟨e, hpe, hie, -⟩ := h.depth (Function.update_self i (some (some p)) up)
  by_cases hne : p = i
  · subst hne
    exact absurd (hpe.unique hie) (by omega)
  · have := hpe.isSome
    rw [Function.update_of_ne hne, hp.resolve_right hne] at this
    cases this

/-- A node that is no one's parent can go. -/
lemma IsForest.delete (h : IsForest up max) (hleaf : ∀ j, up j ≠ some (some i)) :
    IsForest (Function.update up i none) max := by
  intro j hj
  have hne : j ≠ i := by
    rintro rfl
    rw [Function.update_self] at hj
    cases hj
  rw [Function.update_of_ne hne] at hj
  obtain ⟨d, hle, hd⟩ := h j hj
  refine ⟨d, hle, hd.update (fun k hu => ?_) _⟩
  cases k with
  | zero => cases hu; exact hne rfl
  | succ k =>
    obtain ⟨c, hc, -⟩ := under_succ_iff.mp hu
    exact hleaf c hc

end Update

/-! ### Renaming nodes -/

/-- A forest whose nodes are renamed is a forest of the same depth. -/
lemma isForest_rename {up' : κ → Option (Option κ)} {f : ι → κ}
    (hup : ∀ i, up' (f i) = (up i).map (Option.map f))
    (hrange : ∀ s, (up' s).isSome → ∃ i, f i = s) : IsForest up' max ↔ IsForest up max := by
  have hto : ∀ {i d}, Depth up i d → Depth up' (f i) d := by
    intro i d h
    induction h with
    | root h => exact .root (by rw [hup, h]; rfl)
    | child h _ ih => exact .child (by rw [hup, h]; rfl) ih
  have hfrom : ∀ {s d}, Depth up' s d → ∀ i, f i = s → Depth up i d := by
    intro s d h
    induction h with
    | root h =>
      rintro i rfl
      rw [hup] at h
      obtain ⟨o, ho, hnone⟩ := Option.map_eq_some_iff.mp h
      obtain rfl : o = none := by simpa using hnone
      exact .root ho
    | @child s q d h hq ih =>
      rintro i rfl
      rw [hup] at h
      obtain ⟨o, ho, hsome⟩ := Option.map_eq_some_iff.mp h
      obtain ⟨p, rfl, rfl⟩ := Option.map_eq_some_iff.mp hsome
      exact .child ho (ih p rfl)
  constructor
  · intro h i hi
    obtain ⟨d, hle, hd⟩ := h (f i) (by rw [hup]; simpa using hi)
    exact ⟨d, hle, hfrom hd i rfl⟩
  · intro h s hs
    obtain ⟨i, rfl⟩ := hrange s hs
    obtain ⟨d, hle, hd⟩ := h i (by rw [hup] at hs; simpa using hs)
    exact ⟨d, hle, hto hd⟩

end SafeerApi.Lib
