import SafeerApi.Lib.Table

/-!
# Tables with a second unique column

Beside its primary key a table has a unique index on `u`. A statement that would leave two rows with
one value of `u` is refused.
-/

namespace SafeerApi.Lib

variable {ι κ R : Type*} {key : R → ι} {u : R → κ}

/-- Rows in storage order, no two with the same key, and no two with the same value of `u`. -/
structure UniqueTable (key : R → ι) (u : R → κ) extends Table key where
  unique : (rows.map u).Nodup

namespace UniqueTable

/-- The table without rows. -/
def empty : UniqueTable key u := ⟨.empty, List.nodup_nil⟩

lemma eq_of_unique {t : UniqueTable key u} {r r' : R} (h : r ∈ t.rows) (h' : r' ∈ t.rows)
    (heq : u r = u r') : r = r' :=
  List.inj_on_of_nodup_map t.unique h h' heq

/-- Remove the rows that meet `p`. -/
def deleteWhere (t : UniqueTable key u) (p : R → Bool) : UniqueTable key u where
  toTable := t.toTable.deleteWhere p
  unique := t.unique.sublist (List.filter_sublist.map u)

/-- Change other columns of the rows that meet `p`. -/
def updateWhere (t : UniqueTable key u) (p : R → Bool) (f : R → R) (hf : ∀ r, key (f r) = key r)
    (hu : ∀ r, u (f r) = u r) : UniqueTable key u where
  toTable := t.toTable.updateWhere p f hf
  unique := by
    have hvalues : (t.rows.map fun r => if p r then f r else r).map u = t.rows.map u := by
      rw [List.map_map]
      apply List.map_congr_left
      intro r _
      simp only [Function.comp_apply]
      split
      · exact hu r
      · rfl
    show ((t.rows.map fun r => if p r then f r else r).map u).Nodup
    rw [hvalues]
    exact t.unique

@[simp] lemma mem_deleteWhere {t : UniqueTable key u} {p : R → Bool} {r : R} :
    r ∈ (t.deleteWhere p).rows ↔ r ∈ t.rows ∧ p r = false :=
  Table.mem_deleteWhere

lemma mem_updateWhere {t : UniqueTable key u} {p : R → Bool} {f : R → R}
    {hf : ∀ r, key (f r) = key r} {hu : ∀ r, u (f r) = u r} {r : R} :
    r ∈ (t.updateWhere p f hf hu).rows ↔ ∃ r₀ ∈ t.rows, (if p r₀ then f r₀ else r₀) = r :=
  List.mem_map

section Lookup

variable [DecidableEq κ]

/-- The row with a value of the unique column. -/
def lookup (t : UniqueTable key u) (x : κ) : Option R := t.rows.find? fun r => decide (u r = x)

variable {t : UniqueTable key u} {r : R}

lemma lookup_eq_some {x : κ} : t.lookup x = some r ↔ r ∈ t.rows ∧ u r = x := by
  constructor
  · intro h
    exact ⟨List.mem_of_find?_eq_some h, by simpa using List.find?_some h⟩
  · rintro ⟨hr, rfl⟩
    cases hfind : t.lookup (u r) with
    | none => exact absurd (List.find?_eq_none.mp hfind r hr) (by simp)
    | some r' =>
      have hr' := List.mem_of_find?_eq_some hfind
      have hvalue : u r' = u r := by simpa using List.find?_some hfind
      rw [eq_of_unique hr' hr hvalue]

lemma lookup_eq_none {x : κ} : t.lookup x = none ↔ ∀ r ∈ t.rows, u r ≠ x := by
  simp [lookup]

lemma lookup_of_mem (h : r ∈ t.rows) : t.lookup (u r) = some r := lookup_eq_some.mpr ⟨h, rfl⟩

lemma lookup_updateWhere {p : R → Bool} {f : R → R} {hf : ∀ r, key (f r) = key r}
    {hu : ∀ r, u (f r) = u r} (x : κ) :
    (t.updateWhere p f hf hu).lookup x = (t.lookup x).map fun r => if p r then f r else r := by
  have hvalue : ∀ r, u (if p r then f r else r) = u r := by
    intro r
    split
    · exact hu r
    · rfl
  rw [Option.ext_iff]
  intro y
  rw [lookup_eq_some, Option.map_eq_some_iff]
  constructor
  · rintro ⟨hy, rfl⟩
    obtain ⟨r, hr, rfl⟩ := mem_updateWhere.mp hy
    exact ⟨r, lookup_eq_some.mpr ⟨hr, (hvalue r).symm⟩, rfl⟩
  · rintro ⟨r, hfind, rfl⟩
    obtain ⟨hr, rfl⟩ := lookup_eq_some.mp hfind
    exact ⟨mem_updateWhere.mpr ⟨r, hr, rfl⟩, hvalue r⟩

end Lookup

/-! ### Statements -/

section Statements

variable [DecidableEq ι] [DecidableEq κ]

/-- `INSERT` -/
def insert (t : UniqueTable key u) (r : R) : Option (UniqueTable key u) :=
  if h : t.find (key r) = none ∧ ∀ x ∈ t.rows, u x ≠ u r then
    some {
      toTable := t.toTable.insert r h.1
      unique := by
        show ((t.rows ++ [r]).map u).Nodup
        rw [List.map_append, List.map_singleton, List.nodup_append]
        refine ⟨t.unique, List.nodup_singleton _, ?_⟩
        intro i hi j hj
        obtain ⟨x, hx, rfl⟩ := List.mem_map.mp hi
        rw [List.mem_singleton.mp hj]
        exact h.2 x hx }
  else none

/-- `UPDATE` of the row with the key of `r`, which becomes `r`. -/
def replace (t : UniqueTable key u) (r : R) : Option (UniqueTable key u) :=
  if h : ∀ x ∈ t.rows, u x = u r → key x = key r then
    some {
      toTable := t.toTable.replace r
      unique := by
        rw [List.nodup_map_iff_inj_on (List.Nodup.of_map _ (t.toTable.replace r).nodup)]
        intro x hx y hy hxy
        have hkey : key x = key y := by
          rcases Table.mem_replace.mp hx with ⟨hxr, -⟩ | ⟨hx₀, -⟩ <;>
            rcases Table.mem_replace.mp hy with ⟨hyr, -⟩ | ⟨hy₀, -⟩
          · rw [hxr, hyr]
          · subst hxr
            exact (h y hy₀ hxy.symm).symm
          · subst hyr
            exact h x hx₀ hxy
          · rw [eq_of_unique hx₀ hy₀ hxy]
        exact Table.eq_of_key hx hy hkey }
  else none

variable {t t' : UniqueTable key u} {r r₀ : R}

lemma insert_toTable (h : t.insert r = some t') :
    ∃ hnew : t.find (key r) = none, t'.toTable = t.toTable.insert r hnew := by
  simp only [insert] at h
  split_ifs at h with hnew
  cases h
  exact ⟨hnew.1, rfl⟩

/-- A row with a new key and a new value is inserted. -/
lemma exists_insert (hkey : t.find (key r) = none) (hvalue : t.lookup (u r) = none) :
    ∃ t', t.insert r = some t' := by
  simp only [insert]
  exact ⟨_, dif_pos ⟨hkey, lookup_eq_none.mp hvalue⟩⟩

lemma mem_insert (h : t.insert r = some t') {x : R} : x ∈ t'.rows ↔ x ∈ t.rows ∨ x = r := by
  obtain ⟨hnew, ht'⟩ := insert_toTable h
  rw [ht']
  exact Table.mem_insert

lemma lookup_insert (h : t.insert r = some t') (x : κ) :
    t'.lookup x = if x = u r then some r else t.lookup x := by
  split_ifs with hx
  · exact lookup_eq_some.mpr ⟨(mem_insert h).mpr (Or.inr rfl), hx.symm⟩
  · rw [Option.ext_iff]
    intro y
    rw [lookup_eq_some, lookup_eq_some, mem_insert h]
    constructor
    · rintro ⟨hy | rfl, rfl⟩
      · exact ⟨hy, rfl⟩
      · exact absurd rfl hx
    · rintro ⟨hy, rfl⟩
      exact ⟨Or.inl hy, rfl⟩

lemma replace_toTable (h : t.replace r = some t') : t'.toTable = t.toTable.replace r := by
  simp only [replace] at h
  split_ifs at h
  cases h
  rfl

lemma mem_replace (h : t.replace r = some t') {x : R} :
    x ∈ t'.rows ↔ (x = r ∧ ∃ r₀ ∈ t.rows, key r₀ = key r) ∨ (x ∈ t.rows ∧ key x ≠ key r) := by
  rw [replace_toTable h]
  exact Table.mem_replace

lemma lookup_replace (h : t.replace r = some t') (hr₀ : r₀ ∈ t.rows) (hkey : key r₀ = key r)
    (x : κ) : t'.lookup x = if x = u r then some r else if x = u r₀ then none else t.lookup x := by
  have hr : r ∈ t'.rows := (mem_replace h).mpr (Or.inl ⟨rfl, r₀, hr₀, hkey⟩)
  split_ifs with hx hx₀
  · exact lookup_eq_some.mpr ⟨hr, hx.symm⟩
  · rw [lookup_eq_none]
    rintro y hy rfl
    rcases (mem_replace h).mp hy with ⟨rfl, -⟩ | ⟨hy, hne⟩
    · exact hx rfl
    · exact hne (by rw [eq_of_unique hy hr₀ hx₀, hkey])
  · rw [Option.ext_iff]
    intro y
    rw [lookup_eq_some, lookup_eq_some, mem_replace h]
    constructor
    · rintro ⟨⟨rfl, -⟩ | ⟨hy, -⟩, rfl⟩
      · exact absurd rfl hx
      · exact ⟨hy, rfl⟩
    · rintro ⟨hy, rfl⟩
      refine ⟨Or.inr ⟨hy, ?_⟩, rfl⟩
      intro heq
      exact hx₀ (by rw [Table.eq_of_key hy hr₀ (heq.trans hkey.symm)])

end Statements

end UniqueTable

end SafeerApi.Lib
