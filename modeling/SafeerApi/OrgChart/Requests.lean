import SafeerApi.Lib.Reach
import SafeerApi.OrgChart.Positions

/-!
# The org chart, one request after another

A request is one transaction. The row an `:id` finds is the database's choice, which compares the
text as a number, while the guard compares it as a text: an `:id` that is not the row's own text
hides the row, and what is under it, from the guard.
-/

namespace SafeerApi.OrgChart

open Common Crud Lib

/-- The chart and the members that point into it. -/
structure Chart where
  positions : Positions
  members : List BoardMember

def Chart.empty : Chart := ⟨.empty, []⟩

/-- `create` carries the id the database gives the row; `setMembers` is what the board's own
requests do. -/
inductive Request where
  | create (id : ℕ) (body : CreateOrgPositionDto)
  | update (id : String) (body : UpdateOrgPositionDto)
  | remove (id : String)
  | publish (id : String) (dto : PublishDto)
  | reorder (items : List ReorderItem)
  | setMembers (members : List BoardMember)

/-- A refused request leaves the chart as it is. -/
def step (sql : SqlNumeric) (s : Chart) : Request → Option Chart
  | .create id body =>
    match createOrgPositionSchema body with
    | none => some s
    | some dto =>
      match prepareCreate sql s.positions dto with
      | .error _ => some s
      | .ok draft =>
        if h : s.positions.find id = none then
          some { s with positions := s.positions.insert { draft with id := id } h }
        else none
  | .update id body =>
    match updateOrgPositionSchema body with
    | none => some s
    | some dto =>
      match prepareUpdate sql s.positions id dto with
      | .error _ => some s
      | .ok p => some { s with positions := s.positions.replace p }
  | .remove id =>
    match prepareRemove sql s.positions s.members id with
    | .error _ => some s
    | .ok p => some { s with positions := s.positions.delete p.id }
  | .publish id dto =>
    match findPosition sql s.positions id with
    | .error _ => some s
    | .ok p => some { s with positions := s.positions.replace (p.publish dto) }
  | .reorder items =>
    match reorderBodySchema items with
    | none => some s
    | some items => some { s with positions := reorderPositions sql s.positions items }
  | .setMembers members => some { s with members := members }

/-- A move the guard accepts for the `:id` as it is spelled, it also accepts for the row's own id. -/
def acceptedForRow (sql : SqlNumeric) (s : Chart) : Request → Bool
  | .update id body =>
    match updateOrgPositionSchema body with
    | none => true
    | some dto =>
      match findPosition sql s.positions id with
      | .error _ => true
      | .ok current =>
        match movesTo current dto with
        | none => true
        | some parentId =>
          (checkParent (lockTree s.positions) (some id) parentId).isSome ||
            (checkParent (lockTree s.positions) (some (toString current.id)) parentId).isNone
  | _ => true

/-- An update under the row's own id meets the condition. -/
lemma acceptedForRow_canonical {sql : SqlNumeric} {s : Chart} {n : ℕ} {body : UpdateOrgPositionDto} :
    acceptedForRow sql s (.update (toString n) body) = true := by
  simp only [acceptedForRow]
  split
  · rfl
  · split
    · rfl
    · next current hcurrent =>
      obtain ⟨hrow, -⟩ := findPosition_ok hcurrent
      obtain rfl : n = current.id := Option.some.inj ((sql.canonical n).symm.trans hrow)
      split
      · rfl
      · cases checkParent (lockTree s.positions) (some (toString current.id)) _ <;> rfl

/-! ### One request -/

section Step

variable {sql : SqlNumeric} {s s' : Chart}

/-- A written pointer is the row's own, or the update that wrote it meets the condition exactly when
the chart is still a forest. -/
lemma chartOk_update_iff (h : ChartOk s.positions) {id : String} {body dto : UpdateOrgPositionDto}
    (hdto : updateOrgPositionSchema body = some dto) {p : OrgPosition}
    (hp : prepareUpdate sql s.positions id dto = .ok p) :
    ChartOk (s.positions.replace p) ↔ acceptedForRow sql s (.update id body) = true := by
  obtain ⟨current, hcurrent, hid, hparent⟩ := prepareUpdate_ok hp
  obtain ⟨-, hfind⟩ := findPosition_ok hcurrent
  rw [← hid] at hfind
  rcases hparent with ⟨hmoves, hsame⟩ | ⟨parent, hmoves, hnew, hcheck⟩
  · simp only [acceptedForRow, hdto, hcurrent, hmoves, iff_true]
    rw [ChartOk, pointers_replace_eq hfind hsame]
    exact h
  · simp only [acceptedForRow, hdto, hcurrent, hmoves, hcheck, Option.isSome_none, Bool.false_or,
      Option.isNone_iff_eq_none]
    rw [checkParent_own_iff h, ChartOk, pointers_replace (by rw [hfind]; rfl), hnew, hid]

/-- A request keeps the chart a forest exactly when it meets the condition. -/
lemma chartOk_step_iff {a : Request} (h : ChartOk s.positions) (hs : step sql s a = some s') :
    ChartOk s'.positions ↔ acceptedForRow sql s a = true := by
  cases a with
  | create id body =>
    refine iff_of_true ?_ rfl
    simp only [step] at hs
    split at hs
    · cases hs; exact h
    · split at hs
      · cases hs; exact h
      · next draft hdraft =>
        split_ifs at hs with hnew
        cases hs
        have hforest := prepareCreate_ok h hdraft hnew
        rwa [ChartOk, pointers_insert]
  | update id body =>
    simp only [step] at hs
    split at hs
    · next hdto =>
      cases hs
      simp [h, acceptedForRow, hdto]
    · next dto hdto =>
      split at hs
      · next e he =>
        cases hs
        apply iff_of_true h
        simp only [acceptedForRow, hdto]
        split
        · rfl
        · next current hcurrent =>
          split
          · rfl
          · next parentId hmoves =>
            -- the only other error is the guard's
            simp only [prepareUpdate, hcurrent, hmoves, assertParent, bind, Except.bind] at he
            split at he
            · next e' hguard =>
              split at hguard
              · next error hcheck => rw [hcheck]; rfl
              · cases hguard
            · cases he
      · next p hp =>
        cases hs
        exact chartOk_update_iff h hdto hp
  | remove id =>
    refine iff_of_true ?_ rfl
    simp only [step] at hs
    split at hs
    · cases hs; exact h
    · next p hp =>
      cases hs
      exact h.delete (prepareRemove_ok hp).2
  | publish id dto =>
    refine iff_of_true ?_ rfl
    simp only [step] at hs
    split at hs
    · cases hs; exact h
    · next p hp =>
      cases hs
      have hsame := pointers_replace_eq (p := p.publish dto) (findPosition_ok hp).2 rfl
      rwa [ChartOk, hsame]
  | reorder items =>
    refine iff_of_true ?_ rfl
    simp only [step] at hs
    split at hs
    · cases hs; exact h
    · cases hs
      rwa [ChartOk, pointers_reorder]
  | setMembers members =>
    cases hs
    exact iff_of_true h rfl

end Step

/-! ### Every run -/

/-- In every run in which each accepted move is one the guard accepts for the row's own id, the
chart is a forest: parents exist, nothing is its own ancestor, and no chain is longer than five. -/
theorem forest_reach {sql : SqlNumeric} {s : Chart}
    (h : Reach (step sql) (fun s a => acceptedForRow sql s a = true) Chart.empty s) :
    Forest (pointers s.positions) orgMaxDepth := by
  have hok : ChartOk s.positions := by
    apply h.invariant (P := fun s => ChartOk s.positions)
    · intro n hn
      cases hn
    · intro s a s' hinv hok hs
      exact (chartOk_step_iff hinv hs).mpr hok
  exact hok.forest

/-- A branch of three levels, moved under a root by a padded id and published again. -/
def movedBranch : List Request :=
  [.create 1 { nameAr := "a" }, .create 2 { nameAr := "b" },
    .create 3 { nameAr := "c", parentId := some (some "2") },
    .create 4 { nameAr := "d", parentId := some (some "3") },
    .update "02" { parentId := some (some "1") }, .publish "4" {}, .remove "2"]

theorem forest_reach_moved_branch : ∃ s : Chart,
    pointers s.positions 2 = some (some 1) ∧ pointers s.positions 4 = some (some 3) ∧
      Forest (pointers s.positions) orgMaxDepth := by
  obtain ⟨s, hrun, h2, h4⟩ := exists_of_run (guarded (step .decimal) (acceptedForRow .decimal))
    Chart.empty movedBranch
    (P := fun s => pointers s.positions 2 = some (some 1) ∧
      pointers s.positions 4 = some (some 3)) (by decide +kernel)
  exact ⟨s, h2, h4, forest_reach (Reach.of_guarded hrun)⟩

/-- `PATCH /01` with `parentId: "1"` makes the position report to itself: the guard compares `"1"`
with `"01"`, and the database finds row 1. -/
theorem not_forest_of_padded_id : ∃ s : Chart,
    Reach (step .decimal) always Chart.empty s ∧ ¬Forest (pointers s.positions) orgMaxDepth := by
  obtain ⟨s, hrun, hself⟩ := exists_of_run (step .decimal) Chart.empty
    [.create 1 { nameAr := "a" }, .update "01" { parentId := some (some "1") }]
    (P := fun s => pointers s.positions 1 = some (some 1)) (by decide +kernel)
  exact ⟨s, Reach.of_run hrun, fun hforest => hforest.acyclic 1 (.single hself)⟩

end SafeerApi.OrgChart
