import Mathlib.Data.Fintype.OfMap
import Mathlib.Data.List.Permutation
import Mathlib.Data.List.Range
import SafeerApi.Common.Schema
import SafeerApi.Crud.Kernel
import SafeerApi.Lib.DirtyWrite
import SafeerApi.Lib.Reach

/-!
# Updates of one row, in any order (`crud.factory.ts`)

The kernel's `update` and `publish` load the row, change the loaded entity and save it whole: no
lock, no version. When every save re-reads what was loaded, each request comes out as if it had run
alone at its write, and the run has the outcome of the requests one after another.
-/

namespace SafeerApi.Crud.LostUpdates

open Common Lib

/-! ### The kernel on one row -/

/-- The columns of an entity. -/
abbrev Row (Col : Type) := Col → FieldValue

/-- What a collection tells the kernel, as far as `update` and `publish` go. -/
structure CrudOptions (Col : Type) where
  isPublished : Col
  /-- The names of the fields, as a body spells them. -/
  field : Col → String
  onPublish : Option (Row Col → Row Col) := none
  publishRules : Option (Row Col → Except Problem Unit) := none

/-- The fields a body mentions, each once. -/
abbrev UpdateDto (Col : Type) := List (Col × FieldValue)

/-- The requests that save a row. -/
inductive Request (Col : Type) where
  | update (dto : UpdateDto Col)
  | publish (dto : PublishDto)

section Kernel

variable {Col : Type} [DecidableEq Col]

def UpdateDto.get (dto : UpdateDto Col) (c : Col) : Option FieldValue :=
  (dto.find? fun x => x.1 = c).map Prod.snd

/-- `Object.assign(entity, dto)` -/
def assign (entity : Row Col) (dto : UpdateDto Col) : Row Col :=
  fun c => (UpdateDto.get dto c).getD (entity c)

/-- `String(value)` of an asset field, unless it is null. -/
def FieldValue.toText : FieldValue → Option String
  | .null => none
  | .text s => some s
  | .number n => some (toString n)
  | .flag b => some (toString b)

def isPublishedRow (opts : CrudOptions Col) (entity : Row Col) : Bool :=
  entity opts.isPublished = .flag true

/-- What a save of a row that is published after it goes through: `onPublish` when it was not
published before, then the rules. -/
def checkPublished (opts : CrudOptions Col) (before entity : Row Col) : Except Problem (Row Col) :=
  if isPublishedRow opts entity then do
    let entity := if isPublishedRow opts before then entity else (opts.onPublish.getD id) entity
    (opts.publishRules.getD fun _ => .ok ()) entity
    return entity
  else .ok entity

/-- What a request sets. -/
def Request.changes (opts : CrudOptions Col) : Request Col → UpdateDto Col
  | .update dto => dto
  | .publish dto => [(opts.isPublished, .flag (dto.isPublished.getD true))]

/-- The entity a request saves, from the row it has loaded. -/
def Request.prepare (sql : SqlNumeric) (assets : List MediaAsset) (opts : CrudOptions Col)
    (r : Request Col) (row : Row Col) : Except Problem (Row Col) := do
  match r with
  | .update dto =>
    assertAltTextReady sql assets (dto.map fun x => (opts.field x.1, FieldValue.toText x.2))
  | .publish _ => pure ()
  checkPublished opts row (assign row (r.changes opts))

/-- The request mentions a field. -/
def Request.mentions (opts : CrudOptions Col) (r : Request Col) (c : Col) : Bool :=
  (UpdateDto.get (r.changes opts) c).isSome

/-- The row after a save. -/
def savedRow (entity reread row : Row Col) : Row Col := fun c => saved (entity c) (reread c) (row c)

/-- The row after a request that runs with nothing beside it. -/
def Request.alone (sql : SqlNumeric) (assets : List MediaAsset) (opts : CrudOptions Col)
    (r : Request Col) (row : Row Col) : Row Col :=
  match r.prepare sql assets opts row with
  | .ok entity => savedRow entity row row
  | .error _ => row

/-! ### Requests side by side -/

/-- Where a request is. A refused one is done. -/
inductive Stage (Col : Type) where
  | waiting
  | loaded (before entity : Row Col)
  | reread (before entity reread : Row Col)
  | done

def Stage.isDone : Stage Col → Bool
  | .done => true
  | _ => false

/-- The row, the requests, and in which order they were done. -/
structure State (Col : Type) where
  row : Row Col
  stage : ℕ → Stage Col
  finished : List ℕ

def State.init (row : Row Col) : State Col := ⟨row, fun _ => .waiting, []⟩

inductive Action where
  | find (i : ℕ)
  | reread (i : ℕ)
  | write (i : ℕ)

def State.setStage (s : State Col) (i : ℕ) (x : Stage Col) : State Col :=
  { s with stage := Function.update s.stage i x }

def State.finish (s : State Col) (i : ℕ) (row : Row Col) : State Col where
  row := row
  stage := Function.update s.stage i .done
  finished := s.finished ++ [i]

section System

variable (sql : SqlNumeric) (assets : List MediaAsset) (opts : CrudOptions Col)
  (reqs : List (Request Col))

/-- One database step of a request. -/
def step (s : State Col) : Action → Option (State Col)
  | .find i =>
    match s.stage i, reqs[i]? with
    | .waiting, some r =>
      match r.prepare sql assets opts s.row with
      | .ok entity => some (s.setStage i (.loaded s.row entity))
      | .error _ => some (s.finish i s.row)
    | _, _ => none
  | .reread i =>
    match s.stage i with
    | .loaded before entity => some (s.setStage i (.reread before entity s.row))
    | _ => none
  | .write i =>
    match s.stage i with
    | .reread _ entity reread => some (s.finish i (savedRow entity reread s.row))
    | _ => none

/-- The collection has neither hook nor rules. -/
def CrudOptions.hookless (opts : CrudOptions Col) : Bool :=
  opts.onPublish.isNone && opts.publishRules.isNone

/-- The rules accept the request on `row` too, and `onPublish` changes in it what it changed in
`before`. -/
def hooksAgree [Fintype Col] (r : Request Col) (before entity row : Row Col) : Bool :=
  match r.prepare sql assets opts row with
  | .ok entity' => ∀ c, entity' c = if entity c = before c then row c else entity c
  | .error _ => false

/-- A save re-reads the row as it was loaded, and no hook or rule would come out otherwise on the
row as it is at the write. -/
def undisturbed [Fintype Col] (s : State Col) : Action → Bool
  | .find _ => true
  | .reread i =>
    match s.stage i with
    | .loaded before _ => ∀ c, s.row c = before c
    | _ => true
  | .write i =>
    match s.stage i, reqs[i]? with
    | .reread before entity _, some r =>
      opts.hookless || hooksAgree sql assets opts r before entity s.row
    | _, _ => true

/-- Every request is done. -/
def State.complete (s : State Col) : Bool :=
  (List.range reqs.length).all fun i => (s.stage i).isDone

/-- The outcome of the requests one after another. -/
def sequential (row : Row Col) (order : List ℕ) : Row Col :=
  order.foldl (fun row i => (reqs[i]?).elim row fun r => r.alone sql assets opts row) row

end System

/-! ### A request alone -/

section Alone

variable {sql : SqlNumeric} {assets : List MediaAsset} {opts : CrudOptions Col} {r : Request Col}
  {row before entity : Row Col}

/-- Alone, a request stores the entity it has prepared. -/
lemma alone_of_ok (h : r.prepare sql assets opts row = .ok entity) :
    r.alone sql assets opts row = entity := by
  simp only [Request.alone, h]
  funext c
  exact saved_unchanged ..

lemma alone_of_error {e : Problem} (h : r.prepare sql assets opts row = .error e) :
    r.alone sql assets opts row = row := by
  simp only [Request.alone, h]

/-- Only the checks and hooks read more of the row than the request changes. -/
lemma prepare_ok (h : r.prepare sql assets opts row = .ok entity) :
    checkPublished opts row (assign row (r.changes opts)) = .ok entity := by
  cases r with
  | update dto =>
    obtain ⟨_, -, h⟩ := bind_eq_ok h
    exact h
  | publish dto => exact h

/-- Without hooks the saved entity is the loaded one with the changes. -/
lemma entity_of_hookless (hhooks : opts.hookless = true)
    (h : r.prepare sql assets opts row = .ok entity) : entity = assign row (r.changes opts) := by
  simp only [CrudOptions.hookless, Bool.and_eq_true, Option.isNone_iff_eq_none] at hhooks
  have hcheck := prepare_ok h
  simp only [checkPublished, hhooks.1, hhooks.2] at hcheck
  split at hcheck
  · obtain ⟨_, -, hcheck⟩ := bind_eq_ok hcheck
    cases hcheck
    split <;> rfl
  · cases hcheck; rfl

/-- Without hooks a request that is accepted on one row is accepted on any. -/
lemma prepare_of_hookless (hhooks : opts.hookless = true)
    (h : r.prepare sql assets opts before = .ok entity) (row : Row Col) :
    r.prepare sql assets opts row = .ok (assign row (r.changes opts)) := by
  simp only [CrudOptions.hookless, Bool.and_eq_true, Option.isNone_iff_eq_none] at hhooks
  have hcheck : checkPublished opts row (assign row (r.changes opts))
      = .ok (assign row (r.changes opts)) := by
    simp only [checkPublished, hhooks.1, hhooks.2]
    split
    · split <;> rfl
    · rfl
  cases r with
  | update dto =>
    obtain ⟨u, halt, -⟩ := bind_eq_ok h
    simp only [Request.prepare, halt]
    exact hcheck
  | publish dto => exact hcheck

lemma assign_of_not_mentions {c : Col} (h : r.mentions opts c = false) :
    assign row (r.changes opts) c = row c := by
  rw [Request.mentions, Option.isSome_eq_false_iff, Option.isNone_iff_eq_none] at h
  simp [assign, h]

lemma assign_of_mentions {c : Col} (h : r.mentions opts c = true) (row row' : Row Col) :
    assign row (r.changes opts) c = assign row' (r.changes opts) c := by
  obtain ⟨v, hv⟩ := Option.isSome_iff_exists.mp h
  simp [assign, hv]

/-- A request that does not mention the flag leaves it: nothing becomes published. -/
lemma alone_isPublished (h : r.mentions opts opts.isPublished = false) :
    r.alone sql assets opts row opts.isPublished = row opts.isPublished := by
  have hassign : assign row (r.changes opts) opts.isPublished = row opts.isPublished :=
    assign_of_not_mentions h
  cases hprepare : r.prepare sql assets opts row with
  | error e => rw [alone_of_error hprepare]
  | ok entity =>
    rw [alone_of_ok hprepare]
    have hcheck := prepare_ok hprepare
    rw [checkPublished] at hcheck
    split at hcheck
    · next hnow =>
      obtain ⟨_, -, hcheck⟩ := bind_eq_ok hcheck
      have hbefore : isPublishedRow opts row = true := by rwa [isPublishedRow, ← hassign]
      rw [if_pos hbefore] at hcheck
      cases hcheck
      exact hassign
    · cases hcheck
      exact hassign

end Alone

/-! ### The invariant -/

section Run

variable {sql : SqlNumeric} {assets : List MediaAsset} {opts : CrudOptions Col}
  {reqs : List (Request Col)} {row₀ : Row Col} {s s' : State Col} {i : ℕ}

/-- No two requests mention one field. -/
def DisjointFields (opts : CrudOptions Col) (reqs : List (Request Col)) : Prop :=
  ∀ (i j : ℕ) (r r' : Request Col), i ≠ j → reqs[i]? = some r → reqs[j]? = some r' →
    ∀ c, r.mentions opts c = true → r'.mentions opts c = false

/-- A request under way saves what it has prepared from what it loaded, and the fields it mentions
are as it loaded them. -/
structure UnderWay (sql : SqlNumeric) (assets : List MediaAsset) (opts : CrudOptions Col)
    (reqs : List (Request Col)) (s : State Col) (i : ℕ) (before entity : Row Col) : Prop where
  prepared : ∃ r, reqs[i]? = some r ∧ r.prepare sql assets opts before = .ok entity ∧
    (opts.hookless = true → ∀ c, r.mentions opts c = true → s.row c = before c)

/-- The row is the outcome of the requests that are done, in the order they were done. -/
structure State.Inv (sql : SqlNumeric) (assets : List MediaAsset) (opts : CrudOptions Col)
    (reqs : List (Request Col)) (row₀ : Row Col) (s : State Col) : Prop where
  loaded : ∀ i before entity, s.stage i = .loaded before entity →
    UnderWay sql assets opts reqs s i before entity
  reread : ∀ i before entity reread, s.stage i = .reread before entity reread →
    reread = before ∧ UnderWay sql assets opts reqs s i before entity
  serial : s.row = sequential sql assets opts reqs row₀ s.finished
  done : ∀ i, i ∈ s.finished ↔ (s.stage i).isDone = true
  nodup : s.finished.Nodup
  bound : ∀ i ∈ s.finished, i < reqs.length

/-- A save of what was re-read as loaded is the request alone, at the moment of the write. -/
lemma savedRow_eq_alone [Fintype Col] {r : Request Col} {before entity : Row Col}
    (hprepare : r.prepare sql assets opts before = .ok entity)
    (hfields : opts.hookless = true → ∀ c, r.mentions opts c = true → s.row c = before c)
    (hok : (opts.hookless || hooksAgree sql assets opts r before entity s.row) = true) :
    savedRow entity before s.row = r.alone sql assets opts s.row := by
  cases hhooks : opts.hookless with
  | true =>
    rw [alone_of_ok (prepare_of_hookless hhooks hprepare s.row), entity_of_hookless hhooks hprepare]
    funext c
    cases hc : r.mentions opts c with
    | true => rw [savedRow, hfields hhooks c hc, saved_unchanged, assign_of_mentions hc]
    | false => rw [savedRow, assign_of_not_mentions hc, saved_self, assign_of_not_mentions hc]
  | false =>
    rw [hhooks, Bool.false_or, hooksAgree] at hok
    split at hok
    · next entity' hprepare' =>
      rw [alone_of_ok hprepare']
      funext c
      exact (of_decide_eq_true hok c).symm
    · cases hok

/-- A request that is done is the next in the order. -/
lemma State.Inv.finish (h : s.Inv sql assets opts reqs row₀) {r : Request Col} {row : Row Col}
    (hr : reqs[i]? = some r) (hrow : row = r.alone sql assets opts s.row)
    (hstage : (s.stage i).isDone = false)
    (hkept : opts.hookless = true → ∀ c, r.mentions opts c = false → row c = s.row c)
    (hdisjoint : DisjointFields opts reqs) : (s.finish i row).Inv sql assets opts reqs row₀ := by
  have hunder : ∀ j before entity, j ≠ i → UnderWay sql assets opts reqs s j before entity →
      UnderWay sql assets opts reqs (s.finish i row) j before entity := by
    rintro j before entity hji ⟨r', hr', hprepare, hfields⟩
    refine ⟨r', hr', hprepare, fun hhooks c hc => ?_⟩
    have hfree := hdisjoint j i r' r hji hr' hr c hc
    exact (hkept hhooks c hfree).trans (hfields hhooks c hc)
  have hne : ∀ j x, (s.finish i row).stage j = x → x.isDone = false → j ≠ i ∧ s.stage j = x := by
    intro j x hj hx
    by_cases hji : j = i
    · subst hji
      subst hj
      simp [State.finish, Stage.isDone] at hx
    · exact ⟨hji, by simpa [State.finish, hji] using hj⟩
  have hi : i ∉ s.finished := by rw [h.done i, hstage]; simp
  constructor
  · intro j before entity hj
    obtain ⟨hji, hj⟩ := hne j _ hj rfl
    exact hunder j before entity hji (h.loaded j before entity hj)
  · intro j before entity reread hj
    obtain ⟨hji, hj⟩ := hne j _ hj rfl
    obtain ⟨heq, hj⟩ := h.reread j before entity reread hj
    exact ⟨heq, hunder j before entity hji hj⟩
  · simp only [State.finish, sequential, List.foldl_append, List.foldl_cons, List.foldl_nil, hr,
      Option.elim_some]
    rw [hrow, h.serial, sequential]
  · intro j
    by_cases hji : j = i
    · subst hji
      simp [State.finish, Stage.isDone]
    · simp [State.finish, hji, h.done j]
  · have hfresh : ∀ j ∈ s.finished, j ≠ i := fun j hj hji => hi (hji ▸ hj)
    simpa [State.finish, List.nodup_append, h.nodup] using hfresh
  · intro j hj
    rcases List.mem_append.mp hj with hj | hj
    · exact h.bound j hj
    · obtain rfl := List.mem_singleton.mp hj
      exact (List.getElem?_eq_some_iff.mp hr).1

lemma State.Inv.setStage (h : s.Inv sql assets opts reqs row₀) {x : Stage Col}
    (hdone : (s.stage i).isDone = false) (hx : x.isDone = false)
    (hloaded : ∀ before entity, x = .loaded before entity →
      UnderWay sql assets opts reqs s i before entity)
    (hreread : ∀ before entity reread, x = .reread before entity reread →
      reread = before ∧ UnderWay sql assets opts reqs s i before entity) :
    (s.setStage i x).Inv sql assets opts reqs row₀ := by
  have hstage : ∀ j, (s.setStage i x).stage j = if j = i then x else s.stage j := by
    intro j
    simp [State.setStage, Function.update_apply]
  constructor
  · intro j before entity hj
    rw [hstage] at hj
    split_ifs at hj with hji
    · subst hji
      exact ⟨(hloaded before entity hj).prepared⟩
    · exact ⟨(h.loaded j before entity hj).prepared⟩
  · intro j before entity reread hj
    rw [hstage] at hj
    split_ifs at hj with hji
    · subst hji
      exact ⟨(hreread before entity reread hj).1, ⟨(hreread before entity reread hj).2.prepared⟩⟩
    · exact ⟨(h.reread j before entity reread hj).1, ⟨(h.reread j before entity reread hj).2.prepared⟩⟩
  · exact h.serial
  · intro j
    rw [hstage]
    split_ifs with hji
    · subst hji
      rw [hx, ← hdone]
      exact h.done j
    · exact h.done j
  · exact h.nodup
  · exact h.bound

/-- A write changes no field that its request does not mention, when there are no hooks. -/
lemma savedRow_of_not_mentions (hhooks : opts.hookless = true) {r : Request Col}
    {before entity : Row Col} (hprepare : r.prepare sql assets opts before = .ok entity) {c : Col}
    (hc : r.mentions opts c = false) (row : Row Col) : savedRow entity before row c = row c := by
  rw [entity_of_hookless hhooks hprepare, savedRow, assign_of_not_mentions hc, saved_self]

/-- Under the condition a write is the request alone. -/
lemma State.Inv.write [Fintype Col] (h : s.Inv sql assets opts reqs row₀)
    {before entity reread : Row Col} (hstage : s.stage i = .reread before entity reread)
    (hok : undisturbed sql assets opts reqs s (.write i) = true) :
    ∃ r, reqs[i]? = some r ∧ r.prepare sql assets opts before = .ok entity ∧ reread = before ∧
      savedRow entity reread s.row = r.alone sql assets opts s.row := by
  obtain ⟨rfl, r, hr, hprepare, hfields⟩ := h.reread i before entity reread hstage
  simp only [undisturbed, hstage, hr] at hok
  exact ⟨r, hr, hprepare, rfl, savedRow_eq_alone hprepare hfields hok⟩

lemma inv_step [Fintype Col] (hdisjoint : DisjointFields opts reqs) {a : Action}
    (h : s.Inv sql assets opts reqs row₀) (hok : undisturbed sql assets opts reqs s a = true)
    (hs : step sql assets opts reqs s a = some s') : s'.Inv sql assets opts reqs row₀ := by
  cases a with
  | find i =>
    simp only [step] at hs
    split at hs
    · next r hstage hr =>
      split at hs <;> cases hs
      · next entity hprepare =>
        apply h.setStage (by rw [hstage]; rfl) rfl
        · intro before entity' heq
          cases heq
          exact ⟨r, hr, hprepare, fun _ _ _ => rfl⟩
        · intro before entity' reread heq
          cases heq
      · next e hprepare =>
        exact h.finish hr (alone_of_error hprepare).symm (by rw [hstage]; rfl)
          (fun _ _ _ => rfl)
          hdisjoint
    · cases hs
  | reread i =>
    simp only [step] at hs
    split at hs <;> cases hs
    next before entity hstage =>
      simp only [undisturbed, hstage] at hok
      have hsame : s.row = before := funext (of_decide_eq_true hok)
      apply h.setStage (by rw [hstage]; rfl) rfl
      · intro before' entity' heq
        cases heq
      · intro before' entity' reread heq
        cases heq
        exact ⟨hsame, h.loaded i before entity hstage⟩
  | write i =>
    simp only [step] at hs
    split at hs <;> cases hs
    next before entity reread hstage =>
      obtain ⟨r, hr, hprepare, rfl, halone⟩ := h.write hstage hok
      exact h.finish hr halone (by rw [hstage]; rfl)
        (fun hhooks c hc => savedRow_of_not_mentions hhooks hprepare hc s.row) hdisjoint

/-- In every run whose saves are undisturbed, the requests come out as in some order one after
another, and no write of a request that does not mention the flag changes whether the row is
published. -/
theorem serial_reach [Fintype Col] (hdisjoint : DisjointFields opts reqs)
    (h : Reach (step sql assets opts reqs)
      (fun s a => undisturbed sql assets opts reqs s a = true) (.init row₀) s) :
    (s.complete reqs = true →
      ∃ order, order.Perm (List.range reqs.length) ∧
        s.row = sequential sql assets opts reqs row₀ order) ∧
    ∀ i r s', reqs[i]? = some r → r.mentions opts opts.isPublished = false →
      undisturbed sql assets opts reqs s (.write i) = true →
      step sql assets opts reqs s (.write i) = some s' →
      s'.row opts.isPublished = s.row opts.isPublished := by
  have hinv : s.Inv sql assets opts reqs row₀ := by
    refine h.invariant (P := State.Inv sql assets opts reqs row₀) ?_
      fun _ _ _ hi hok hs => inv_step hdisjoint hi hok hs
    exact ⟨fun _ _ _ hj => (by cases hj), fun _ _ _ _ hj => (by cases hj), rfl,
      fun _ => ⟨fun hj => (by cases hj), fun hj => (by cases hj)⟩, List.nodup_nil,
      fun _ hj => (by cases hj)⟩
  constructor
  · intro hall
    refine ⟨s.finished, ?_, hinv.serial⟩
    apply (List.perm_ext_iff_of_nodup hinv.nodup List.nodup_range).mpr
    intro i
    rw [List.mem_range]
    exact ⟨hinv.bound i, fun hi =>
      (hinv.done i).mpr (List.all_eq_true.mp hall i (List.mem_range.mpr hi))⟩
  · intro i r s' hr hmentions hok hs
    simp only [step] at hs
    split at hs <;> cases hs
    next before entity reread hstage =>
      obtain ⟨r', hr', -, -, halone⟩ := hinv.write hstage hok
      obtain rfl : r = r' := Option.some.inj (hr.symm.trans hr')
      exact (congrFun halone _).trans (alone_isPublished hmentions)

end Run

end Kernel

/-! ### A title and an unpublish -/

inductive Column where
  | title
  | isPublished
  | publishedOn
  deriving DecidableEq, Repr

instance : Fintype Column :=
  Fintype.ofList [.title, .isPublished, .publishedOn] fun c => by cases c <;> decide

def Column.field : Column → String
  | .title => "titleAr"
  | .isPublished => "isPublished"
  | .publishedOn => "publishedOn"

/-- A collection that dates what becomes published. -/
def dated : CrudOptions Column where
  isPublished := .isPublished
  field := Column.field
  onPublish := some fun e =>
    if e .publishedOn = .null then Function.update e .publishedOn (.text "2026-01-01") else e

/-- A row with the title `a`. -/
def titled (published : Bool) : Row Column
  | .title => .text "a"
  | .isPublished => .flag published
  | .publishedOn => .null

/-- A new title, and another publication flag. -/
def retitleAnd (published : Bool) : List (Request Column) :=
  [.update [(.title, .text "b")], .publish ⟨some published⟩]

lemma disjoint_retitleAnd (published : Bool) :
    DisjointFields dated (retitleAnd published) := by
  intro i j r r' hij hr hr' c hc
  match i, j with
  | 0, 0 => exact absurd rfl hij
  | 1, 1 => exact absurd rfl hij
  | 0, 1 => cases hr; cases hr'; cases c <;> first | rfl | cases hc
  | 1, 0 => cases hr; cases hr'; cases c <;> first | rfl | cases hc
  | _ + 2, _ => cases hr
  | _, _ + 2 => cases hr'

/-- Both requests load the row and re-read it; then it is published and dated, and gets its title. -/
def bothReread : List Action := [.find 0, .find 1, .reread 0, .reread 1, .write 1, .write 0]


theorem serial_reach_publish : ∃ s : State Column,
    s.row .title = .text "b" ∧ s.row .publishedOn = .text "2026-01-01" ∧
      ∃ order, order.Perm (List.range 2) ∧
        s.row = sequential .decimal [] dated (retitleAnd true) (titled false) order := by
  obtain ⟨s, hrun, htitle, hdate, hdone⟩ := exists_of_run
    (guarded (step .decimal [] dated (retitleAnd true))
      (undisturbed .decimal [] dated (retitleAnd true)))
    (State.init (titled false)) bothReread
    (P := fun s => s.row .title = .text "b" ∧ s.row .publishedOn = .text "2026-01-01" ∧
      s.complete (retitleAnd true) = true) (by decide +kernel)
  have hserial := serial_reach (disjoint_retitleAnd true) (Reach.of_guarded hrun)
  exact ⟨s, htitle, hdate, hserial.1 hdone⟩

/-- The title is loaded before an unpublish that completes, and saved after it. -/
def unpublishBetween : List Action := [.find 0, .find 1, .reread 1, .write 1, .reread 0, .write 0]

/-- The save of the title publishes the row again, which no order of the two requests does. -/
theorem not_serial_unpublish : ∃ s : State Column,
    Reach (step .decimal [] dated (retitleAnd false)) always (.init (titled true)) s ∧
      s.complete (retitleAnd false) = true ∧ s.row .isPublished = .flag true ∧
      ∀ order, order.Perm (List.range 2) →
        s.row ≠ sequential .decimal [] dated (retitleAnd false) (titled true) order := by
  obtain ⟨s, hrun, hdone, hpublished⟩ := exists_of_run
    (step .decimal [] dated (retitleAnd false)) (State.init (titled true)) unpublishBetween
    (P := fun s => s.complete (retitleAnd false) = true ∧ s.row .isPublished = .flag true)
    (by decide +kernel)
  have horders : ∀ order ∈ (List.range 2).permutations',
      sequential .decimal [] dated (retitleAnd false) (titled true) order .isPublished
        = .flag false := by decide +kernel
  refine ⟨s, Reach.of_run hrun, hdone, hpublished, fun order hperm heq => ?_⟩
  have hrow := congrFun heq .isPublished
  rw [hpublished, horders order (List.mem_permutations'.mpr hperm)] at hrow
  cases hrow

end SafeerApi.Crud.LostUpdates
