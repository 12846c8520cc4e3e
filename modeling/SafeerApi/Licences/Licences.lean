import Mathlib.Data.List.Sort
import SafeerApi.Crud.Kernel
import SafeerApi.SiteSettings.Settings

/-!
# Licences (`admin-licences.controller.ts`, `licence.entity.ts`)

What a licence request checks before its transaction, what it decides once it has loaded its row,
and the statements it makes: each is a function of what it reads.
-/

namespace SafeerApi.Licences

open Common Crud Lib SiteSettings

/-! ### Rows and bodies -/

structure Licence where
  id : ℕ
  titleAr : String
  titleEn : Option String := none
  number : Option String := none
  issuerAr : Option String := none
  issuerEn : Option String := none
  issuedOn : Option String := none
  expiresOn : Option String := none
  assetId : Option ℕ := none
  isPrimary : Bool := false
  isPublished : Bool := false
  sortOrder : ℤ := 0
  deriving DecidableEq, Repr

abbrev LicenceTable := Table Licence.id

/-- In every body `none` is an absent field; a nullable one may also be present as null. -/
structure CreateLicenceDto where
  titleAr : String
  titleEn : Option (Option String) := none
  number : Option (Option String) := none
  issuerAr : Option (Option String) := none
  issuerEn : Option (Option String) := none
  issuedOn : Option (Option String) := none
  expiresOn : Option (Option String) := none
  assetId : Option (Option String) := none
  isPrimary : Option Bool := none
  isPublished : Option Bool := none
  sortOrder : Option ℤ := none

structure UpdateLicenceDto where
  titleAr : Option String := none
  titleEn : Option (Option String) := none
  number : Option (Option String) := none
  issuerAr : Option (Option String) := none
  issuerEn : Option (Option String) := none
  issuedOn : Option (Option String) := none
  expiresOn : Option (Option String) := none
  assetId : Option (Option String) := none
  isPrimary : Option Bool := none
  isPublished : Option Bool := none
  sortOrder : Option ℤ := none

/-! ### Checks -/

/-- A document reference that names no asset is refused. -/
def validateAsset (sql : SqlNumeric) (assets : List MediaAsset) (assetId : Option (Option String)) :
    Except Problem Unit :=
  match truthy assetId.join with
  | none => .ok ()
  | some id =>
    if assets.any fun a => sql.rowId id = some a.id then .ok ()
    else .error ⟨400, .validationFailed, "The licence document does not exist",
      [("field", "assetId")], []⟩

/-- Dates are `YYYY-MM-DD`, and compare as texts. -/
def assertDates (licence : Licence) : Except Problem Unit :=
  match truthy licence.issuedOn, truthy licence.expiresOn with
  | some issuedOn, some expiresOn =>
    if expiresOn < issuedOn then
      .error ⟨400, .validationFailed, "expiresOn must not be before issuedOn",
        [("field", "expiresOn")], []⟩
    else .ok ()
  | _, _ => .ok ()

/-- `repo.create(dto)`, with the columns' defaults. -/
def draftOf (sql : SqlNumeric) (dto : CreateLicenceDto) : Licence where
  -- set by the insertion
  id := 0
  titleAr := dto.titleAr
  titleEn := dto.titleEn.join
  number := dto.number.join
  issuerAr := dto.issuerAr.join
  issuerEn := dto.issuerEn.join
  issuedOn := dto.issuedOn.join
  expiresOn := dto.expiresOn.join
  assetId := dto.assetId.join.bind sql.rowId
  isPrimary := dto.isPrimary.getD false
  isPublished := dto.isPublished.getD false
  sortOrder := dto.sortOrder.getD 0

/-- `Object.assign(current, dto)` -/
def Licence.assign (sql : SqlNumeric) (p : Licence) (dto : UpdateLicenceDto) : Licence :=
  { p with
    titleAr := dto.titleAr.getD p.titleAr
    titleEn := dto.titleEn.getD p.titleEn
    number := dto.number.getD p.number
    issuerAr := dto.issuerAr.getD p.issuerAr
    issuerEn := dto.issuerEn.getD p.issuerEn
    issuedOn := dto.issuedOn.getD p.issuedOn
    expiresOn := dto.expiresOn.getD p.expiresOn
    assetId := (dto.assetId.map fun id => id.bind sql.rowId).getD p.assetId
    isPrimary := dto.isPrimary.getD p.isPrimary
    isPublished := dto.isPublished.getD p.isPublished
    sortOrder := dto.sortOrder.getD p.sortOrder }

/-! ### Statements -/

/-- A statement that changes the licences. The row that is saved or removed was locked when it was
loaded, so a save writes over what it has re-read. -/
inductive Write where
  | clearPrimary
  | insert (draft : Licence)
  | save (licence : Licence)
  | remove (id : ℕ)

def clearPrimary (licences : LicenceTable) : LicenceTable :=
  licences.updateWhere (fun p => p.isPrimary) (fun p => { p with isPrimary := false }) fun _ => rfl

/-- `id` is the one the database gives a row it inserts. -/
def Write.run (licences : LicenceTable) (id : ℕ) : Write → Option LicenceTable
  | .clearPrimary => some (Licences.clearPrimary licences)
  | .insert draft =>
    if licences.find id = none then some (licences.put { draft with id := id }) else none
  | .save licence => some (licences.put licence)
  | .remove id => some (licences.delete id)

/-- The number and issuers of a licence, an empty text counting as null. -/
def Licence.columns (p : Licence) : LicenceColumns :=
  ⟨truthy p.number, truthy p.issuerAr, truthy p.issuerEn⟩

/-- The `SELECT` of `syncSiteSettings`, and the values its `UPDATE` writes. -/
def primaryColumns (licences : LicenceTable) : LicenceColumns :=
  match ((licences.rows.filter fun p => p.isPrimary && p.isPublished).insertionSort
      fun p q => p.id ≤ q.id).head? with
  | some primary => primary.columns
  | none => .cleared

def Licence.setSortOrder (n : ℤ) (p : Licence) : Licence := { p with sortOrder := n }

/-- The kernel's `reorder`. -/
def reorderLicences (sql : SqlNumeric) (licences : LicenceTable) (items : List ReorderItem) :
    LicenceTable :=
  reorder sql Licence.setSortOrder (fun _ _ => rfl) licences items

/-! ### Requests -/

/-- The requests on a row. -/
inductive RowRequest where
  | update (id : String) (dto : UpdateLicenceDto)
  | publish (id : String) (dto : PublishDto)
  | makePrimary (id : String)
  | remove (id : String)

inductive Request where
  | create (dto : CreateLicenceDto)
  | row (r : RowRequest)

/-- `findLocked` -/
def findLocked (sql : SqlNumeric) (licences : LicenceTable) (id : String) :
    Except Problem Licence :=
  match (sql.rowId id).bind licences.find with
  | some p => .ok p
  | none => .error notFound

/-- What `create` checks before its transaction. -/
def prepareCreate (sql : SqlNumeric) (assets : List MediaAsset) (dto : CreateLicenceDto) :
    Except Problem (List Write) := do
  validateAsset sql assets dto.assetId
  assertAltTextReady sql assets [("assetId", dto.assetId.join)]
  let draft := draftOf sql dto
  assertDates draft
  return if draft.isPrimary then [.clearPrimary, .insert draft] else [.insert draft]

/-- What a request on a row checks before its transaction. -/
def RowRequest.admit (sql : SqlNumeric) (assets : List MediaAsset) :
    RowRequest → Except Problem Unit
  | .update _ dto => do
    validateAsset sql assets dto.assetId
    assertAltTextReady sql assets [("assetId", dto.assetId.join)]
  | _ => .ok ()

/-- What a request on a row does once it has loaded the row. -/
def RowRequest.prepare (sql : SqlNumeric) (licences : LicenceTable) :
    RowRequest → Except Problem (List Write)
  | .update id dto => do
    let before ← findLocked sql licences id
    let current := before.assign sql dto
    assertDates current
    return if current.isPrimary && !before.isPrimary then [.clearPrimary, .save current]
      else [.save current]
  | .publish id dto => do
    let current ← findLocked sql licences id
    return [.save { current with isPublished := dto.isPublished.getD true }]
  | .makePrimary id => do
    let current ← findLocked sql licences id
    return [.clearPrimary, .save { current with isPrimary := true }]
  | .remove id => do
    let current ← findLocked sql licences id
    return [.remove current.id]

/-! ### The law -/

/-- At most one licence is primary, and the settings row shows its number and issuers when it is
published, an empty text as null. -/
structure Mirrors (licences : LicenceTable) (columns : LicenceColumns) : Prop where
  unique : ∀ p ∈ licences.rows, ∀ q ∈ licences.rows, p.isPrimary = true → q.isPrimary = true → p = q
  copied : ∀ p ∈ licences.rows, p.isPrimary = true → p.isPublished = true → ∀ text,
    (columns.licenceNo = some text ↔ p.number = some text ∧ text ≠ "") ∧
    (columns.licenceIssuerAr = some text ↔ p.issuerAr = some text ∧ text ≠ "") ∧
    (columns.licenceIssuerEn = some text ↔ p.issuerEn = some text ∧ text ≠ "")
  cleared : (∀ p ∈ licences.rows, p.isPrimary = true → p.isPublished = false) →
    columns = .cleared

/-- Whether row `n` is primary. -/
def primaryFlag (licences : LicenceTable) (n : ℕ) : Bool := (licences.find n).any Licence.isPrimary

/-- At most one flag is set. -/
def Unique (flags : ℕ → Bool) : Prop := ∀ m n, flags m = true → flags n = true → m = n

/-- The writes still to come leave at most one flag set. -/
def Ready : List Write → (ℕ → Bool) → Prop
  | [], flags => Unique flags
  | .clearPrimary :: rest, _ => Ready rest fun _ => false
  | .insert draft :: rest, flags =>
    ∀ n, flags n = false → Ready rest (Function.update flags n draft.isPrimary)
  | .save p :: rest, flags => Ready rest (Function.update flags p.id p.isPrimary)
  | .remove n :: rest, flags => Ready rest (Function.update flags n false)

section Law

variable {sql : SqlNumeric} {licences : LicenceTable} {columns : LicenceColumns} {flags : ℕ → Bool}

/-- A flag that stays, or goes, leaves at most one. -/
lemma Unique.update (h : Unique flags) {n : ℕ} {b : Bool} (hb : b = true → flags n = true) :
    Unique (Function.update flags n b) := by
  have hflags : ∀ m, Function.update flags n b m = true → flags m = true := by
    intro m hm
    by_cases hmn : m = n
    · subst hmn
      exact hb (by simpa using hm)
    · rwa [Function.update_of_ne hmn] at hm
  exact fun i j hi hj => h i j (hflags i hi) (hflags j hj)

/-- The first flag set is the only one. -/
lemma unique_single (n : ℕ) (b : Bool) : Unique (Function.update (fun _ => false) n b) := by
  have hflags : ∀ m, Function.update (fun _ => false) n b m = true → m = n := by
    intro m hm
    by_contra hne
    rw [Function.update_of_ne hne] at hm
    cases hm
  exact fun i j hi hj => (hflags i hi).trans (hflags j hj).symm

lemma primaryFlag_of_mem {p : Licence} (hp : p ∈ licences.rows) :
    primaryFlag licences p.id = p.isPrimary := by
  simp [primaryFlag, Table.mem_iff_find.mp hp]

/-- The flags are unique exactly when no two rows are primary. -/
lemma unique_primaryFlag_iff : Unique (primaryFlag licences) ↔
    ∀ p ∈ licences.rows, ∀ q ∈ licences.rows, p.isPrimary = true → q.isPrimary = true → p = q := by
  constructor
  · intro h p hp q hq hpp hqq
    refine Table.eq_of_key hp hq (h p.id q.id ?_ ?_)
    · rwa [primaryFlag_of_mem hp]
    · rwa [primaryFlag_of_mem hq]
  · intro h m n hm hn
    obtain ⟨p, hfind, hpp⟩ := (Option.any_eq_true _ _).mp hm
    obtain ⟨q, hfind', hqq⟩ := (Option.any_eq_true _ _).mp hn
    obtain ⟨hp, rfl⟩ := Table.find_eq_some.mp hfind
    obtain ⟨hq, rfl⟩ := Table.find_eq_some.mp hfind'
    rw [h p hp q hq hpp hqq]

/-- The columns of a licence are its three texts. -/
lemma eq_columns_iff {p : Licence} : columns = p.columns ↔ ∀ text,
    (columns.licenceNo = some text ↔ p.number = some text ∧ text ≠ "") ∧
    (columns.licenceIssuerAr = some text ↔ p.issuerAr = some text ∧ text ≠ "") ∧
    (columns.licenceIssuerEn = some text ↔ p.issuerEn = some text ∧ text ≠ "") := by
  obtain ⟨licenceNo, licenceIssuerAr, licenceIssuerEn⟩ := columns
  simp only [Licence.columns, LicenceColumns.mk.injEq, eq_truthy_iff, forall_and]

/-- What `syncSiteSettings` reads is what the settings row must show. -/
lemma mirrors_primaryColumns (h : Unique (primaryFlag licences)) :
    Mirrors licences (primaryColumns licences) := by
  have hunique := unique_primaryFlag_iff.mp h
  have hmem : ∀ p, p ∈ (licences.rows.filter fun p => p.isPrimary && p.isPublished).insertionSort
      (fun p q => p.id ≤ q.id) ↔ p ∈ licences.rows ∧ p.isPrimary = true ∧ p.isPublished = true := by
    simp
  simp only [primaryColumns]
  cases hhead : ((licences.rows.filter fun p => p.isPrimary && p.isPublished).insertionSort
      fun p q => p.id ≤ q.id).head? with
  | none =>
    rw [List.head?_eq_none_iff] at hhead
    rw [hhead] at hmem
    refine ⟨hunique, fun p hp hpp hpub => ?_, fun _ => rfl⟩
    exact absurd ((hmem p).mpr ⟨hp, hpp, hpub⟩) List.not_mem_nil
  | some q =>
    obtain ⟨hq, hqq, hqpub⟩ := (hmem q).mp (List.mem_of_mem_head? hhead)
    refine ⟨hunique, fun p hp hpp _ => ?_, fun hall => ?_⟩
    · rw [hunique p hp q hq hpp hqq]
      exact eq_columns_iff.mp rfl
    · rw [hall q hq hqq] at hqpub
      cases hqpub

/-- The law reads the flags, the number and the issuers, and no other column. -/
def lawColumns (p : Licence) : ℕ × Bool × Bool × LicenceColumns :=
  (p.id, p.isPrimary, p.isPublished, p.columns)

lemma map_lawColumns_reorder (items : List ReorderItem) :
    (reorderLicences sql licences items).rows.map lawColumns = licences.rows.map lawColumns := by
  refine map_reorder ?_ licences items
  exact fun _ _ => rfl

lemma primaryFlag_congr {licences' : LicenceTable}
    (h : licences'.rows.map lawColumns = licences.rows.map lawColumns) :
    primaryFlag licences' = primaryFlag licences := by
  have hflag : ∀ (t : LicenceTable) n, primaryFlag t n
      = ((t.rows.map lawColumns).find? fun x => x.1 = n).any fun x => x.2.1 := by
    intro t n
    rw [primaryFlag, Table.find, List.find?_map, Option.any_map]
    rfl
  funext n
  rw [hflag, hflag, h]

lemma Mirrors.congr {licences' : LicenceTable} (h : Mirrors licences columns)
    (heq : licences'.rows.map lawColumns = licences.rows.map lawColumns) :
    Mirrors licences' columns := by
  have hto : ∀ p ∈ licences.rows, ∃ p' ∈ licences'.rows, lawColumns p' = lawColumns p := by
    intro p hp
    exact List.mem_map.mp (heq ▸ List.mem_map_of_mem hp)
  have hfrom : ∀ p' ∈ licences'.rows, ∃ p ∈ licences.rows, lawColumns p = lawColumns p' := by
    intro p' hp'
    exact List.mem_map.mp (heq ▸ List.mem_map_of_mem hp')
  refine ⟨?_, fun p' hp' hpp hpub => ?_, fun hall => h.cleared fun p hp hpp => ?_⟩
  · rw [← unique_primaryFlag_iff, primaryFlag_congr heq, unique_primaryFlag_iff]
    exact h.unique
  · obtain ⟨p, hp, hcolumns⟩ := hfrom p' hp'
    simp only [lawColumns, Prod.mk.injEq] at hcolumns
    obtain ⟨-, hprimary, hpublished, hcolumns⟩ := hcolumns
    rw [← eq_columns_iff, ← hcolumns, eq_columns_iff]
    exact h.copied p hp (hprimary.trans hpp) (hpublished.trans hpub)
  · obtain ⟨p', hp', hcolumns⟩ := hto p hp
    simp only [lawColumns, Prod.mk.injEq] at hcolumns
    obtain ⟨-, hprimary, hpublished, -⟩ := hcolumns
    exact hpublished.symm.trans (hall p' hp' (hprimary.trans hpp))

/-! ### What each statement does to the flags -/

lemma primaryFlag_clearPrimary : primaryFlag (clearPrimary licences) = fun _ => false := by
  funext n
  rw [primaryFlag, clearPrimary, Table.find_updateWhere, Option.any_map]
  cases licences.find n with
  | none => rfl
  | some p => cases hp : p.isPrimary <;> simp [hp]

lemma primaryFlag_put (p : Licence) :
    primaryFlag (licences.put p) = Function.update (primaryFlag licences) p.id p.isPrimary := by
  funext n
  by_cases hn : n = p.id
  · subst hn
    simp [primaryFlag, Table.find_put]
  · simp [primaryFlag, Table.find_put, hn]

lemma primaryFlag_delete (m : ℕ) :
    primaryFlag (licences.delete m) = Function.update (primaryFlag licences) m false := by
  funext n
  by_cases hn : n = m
  · subst hn
    simp [primaryFlag, Table.find_delete]
  · simp [primaryFlag, Table.find_delete, hn]

/-- One statement done leaves the others to do. -/
lemma Ready.run {w : Write} {rest : List Write} {id : ℕ} {licences' : LicenceTable}
    (h : Ready (w :: rest) (primaryFlag licences)) (hw : w.run licences id = some licences') :
    Ready rest (primaryFlag licences') := by
  cases w with
  | clearPrimary =>
    cases hw
    rwa [primaryFlag_clearPrimary]
  | insert draft =>
    simp only [Write.run] at hw
    split_ifs at hw with hnew
    cases hw
    rw [primaryFlag_put]
    exact h id (by simp [primaryFlag, hnew])
  | save p =>
    cases hw
    rwa [primaryFlag_put]
  | remove n =>
    cases hw
    rwa [primaryFlag_delete]

/-- What `create` will do leaves at most one primary licence. -/
lemma ready_prepareCreate (h : Unique (primaryFlag licences)) {assets : List MediaAsset}
    {dto : CreateLicenceDto} {todo : List Write}
    (htodo : prepareCreate sql assets dto = .ok todo) : Ready todo (primaryFlag licences) := by
  obtain ⟨_, -, htodo⟩ := bind_eq_ok htodo
  obtain ⟨_, -, htodo⟩ := bind_eq_ok htodo
  obtain ⟨_, -, htodo⟩ := bind_eq_ok htodo
  cases htodo
  split
  · exact fun n _ => unique_single n _
  · next hprimary => exact fun n _ => h.update fun hp => absurd hp hprimary

lemma findLocked_ok {id : String} {p : Licence} (h : findLocked sql licences id = .ok p) :
    p ∈ licences.rows := by
  simp only [findLocked] at h
  split at h
  · next q hq =>
    cases h
    obtain ⟨n, -, hfind⟩ := Option.bind_eq_some_iff.mp hq
    exact (Table.find_eq_some.mp hfind).1
  · cases h

/-- What a request on a row will do leaves at most one primary licence. -/
lemma ready_prepare (h : Unique (primaryFlag licences)) {r : RowRequest} {todo : List Write}
    (htodo : r.prepare sql licences = .ok todo) : Ready todo (primaryFlag licences) := by
  cases r with
  | update id dto =>
    obtain ⟨before, hbefore, htodo⟩ := bind_eq_ok htodo
    obtain ⟨_, -, htodo⟩ := bind_eq_ok htodo
    cases htodo
    split
    · exact unique_single _ _
    · next hprimary =>
      -- the row is not newly primary, so its flag stays or goes
      apply h.update
      intro hp
      rw [Bool.and_eq_true, Bool.not_eq_true', not_and, Bool.not_eq_false] at hprimary
      exact (primaryFlag_of_mem (findLocked_ok hbefore)).trans (hprimary hp)
  | publish id dto =>
    obtain ⟨current, hcurrent, htodo⟩ := bind_eq_ok htodo
    cases htodo
    exact h.update fun hp => (primaryFlag_of_mem (findLocked_ok hcurrent)).trans hp
  | makePrimary id =>
    obtain ⟨current, -, htodo⟩ := bind_eq_ok htodo
    cases htodo
    exact unique_single _ _
  | remove id =>
    obtain ⟨current, -, htodo⟩ := bind_eq_ok htodo
    cases htodo
    exact h.update fun hp => by cases hp

end Law

end SafeerApi.Licences
