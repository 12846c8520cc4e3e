import SafeerApi.Lib.Table
import SafeerApi.Common.ListParams
import SafeerApi.Common.Problem
import SafeerApi.Common.SqlNumeric

/-!
# What every kernel controller shares (`crud.factory.ts`)
-/

namespace SafeerApi.Crud

open Common Lib

structure PublishDto where
  isPublished : Option Bool := none

structure ReorderItem where
  id : String
  sortOrder : ℤ

def reorderBodySchema (items : List ReorderItem) : Option (List ReorderItem) :=
  if items ≠ [] ∧ items.all (fun item => item.id ≠ "") then some items else none

/-- `findOrNotFound` when there is no row. -/
def notFound : Problem := ⟨404, .notFound, "Not found", [], []⟩

/-- What ends a request: a problem, or a statement the database refuses. -/
inductive Refusal where
  | problem (p : Problem)
  | queryFailed
  deriving DecidableEq, Repr

/-- A body that its schema refuses. -/
def validated {α : Type*} : Option α → Except Refusal α
  | some dto => .ok dto
  | none => .error (.problem ⟨400, .validationFailed, "Request validation failed", [], []⟩)

/-- A check of a request. -/
def checked {α : Type*} : Except Problem α → Except Refusal α
  | .ok a => .ok a
  | .error p => .error (.problem p)

/-- A statement of a request. -/
def executed {α : Type*} : Option α → Except Refusal α
  | some a => .ok a
  | none => .error .queryFailed

lemma validated_ok {α : Type*} {x : Option α} {a : α} (h : validated x = .ok a) : x = some a := by
  cases x with
  | none => cases h
  | some a => cases h; rfl

lemma checked_ok {α : Type*} {x : Except Problem α} {a : α} (h : checked x = .ok a) :
    x = .ok a := by
  cases x with
  | error p => cases h
  | ok a => cases h; rfl

lemma executed_ok {α : Type*} {x : Option α} {a : α} (h : executed x = .ok a) : x = some a := by
  cases x with
  | none => cases h
  | some a => cases h; rfl

/-! ### Alt text -/

inductive MediaAssetKind where
  | image
  | pdf
  deriving DecidableEq, Repr

/-- The columns of `media_assets` that a write looks at. -/
structure MediaAsset where
  id : ℕ
  kind : MediaAssetKind
  altAr : Option String
  deriving DecidableEq, Repr

/-- `/AssetId$/i` -/
def isAssetIdField (name : String) : Bool :=
  "assetid".toList.isSuffixOf (name.toList.map Char.toLower)

/-- FR-F-03: an image named by an asset field must have Arabic alt text. -/
def assertAltTextReady (sql : SqlNumeric) (assets : List MediaAsset)
    (dto : List (String × Option String)) : Except Problem Unit :=
  let assetIds := dto.filterMap fun field => if isAssetIdField field.1 then field.2 else none
  let rows := assets.filter fun a => assetIds.any fun id => sql.rowId id = some a.id
  match rows.find? fun a => a.kind = .image && (truthy a.altAr).isNone with
  | some blocked =>
    .error ⟨409, .altTextRequired, "This image needs Arabic alt text before it can be attached",
      [("assetId", toString blocked.id)], []⟩
  | none => .ok ()

/-! ### Reordering -/

section Reorder

variable {R β : Type*} {key : R → ℕ} (sql : SqlNumeric) (setSortOrder : ℤ → R → R)
  (hset : ∀ n r, key (setSortOrder n r) = key r)

/-- One `UPDATE` for each item, in one transaction. -/
def reorder (t : Table key) (items : List ReorderItem) : Table key :=
  items.foldl (fun t item => t.updateWhere (fun r => sql.rowId item.id = some (key r))
    (setSortOrder item.sortOrder) (hset item.sortOrder)) t

variable {sql setSortOrder hset}

/-- A reorder shows nothing of itself to who does not look at the sort order. -/
lemma map_reorder {g : R → β} (hg : ∀ n r, g (setSortOrder n r) = g r) (t : Table key)
    (items : List ReorderItem) :
    (reorder sql setSortOrder hset t items).rows.map g = t.rows.map g := by
  simp only [reorder]
  induction items generalizing t with
  | nil => rfl
  | cons item items ih =>
    rw [List.foldl_cons, ih, Table.updateWhere, List.map_map]
    apply List.map_congr_left
    intro r _
    simp only [Function.comp_apply]
    split
    · exact hg _ r
    · rfl

end Reorder

end SafeerApi.Crud
