import Mathlib.Data.List.Nodup
import Mathlib.Tactic.Common

/-!
# Tables with a primary key

A table is a list of rows with distinct keys. Its operations keep the keys distinct, and each is
described by what `find` sees afterwards.
-/

namespace SafeerApi.Lib

variable {ι R : Type*} {key : R → ι}

/-- Rows in storage order, no two with the same key. -/
structure Table (key : R → ι) where
  rows : List R
  nodup : (rows.map key).Nodup

namespace Table

@[ext] lemma ext {t t' : Table key} (h : t.rows = t'.rows) : t = t' := by
  cases t; cases t'; cases h; rfl

instance [DecidableEq R] : DecidableEq (Table key) := fun t t' =>
  decidable_of_iff (t.rows = t'.rows) ⟨ext, fun h => h ▸ rfl⟩

/-- The table without rows. -/
def empty : Table key := ⟨[], by simp⟩

/-- Rows are told apart by their keys. -/
lemma eq_of_key {t : Table key} {r r' : R} (h : r ∈ t.rows) (h' : r' ∈ t.rows)
    (heq : key r = key r') : r = r' :=
  List.inj_on_of_nodup_map t.nodup h h' heq

/-- Remove the rows that meet `p`. -/
def deleteWhere (t : Table key) (p : R → Bool) : Table key where
  rows := t.rows.filter fun r => !p r
  nodup := t.nodup.sublist (List.filter_sublist.map key)

/-- Change the rows that meet `p` by a function that keeps their keys. -/
def updateWhere (t : Table key) (p : R → Bool) (f : R → R) (hf : ∀ r, key (f r) = key r) :
    Table key where
  rows := t.rows.map fun r => if p r then f r else r
  nodup := by
    have hkeys : (t.rows.map fun r => if p r then f r else r).map key = t.rows.map key := by
      rw [List.map_map]
      apply List.map_congr_left
      intro r _
      simp only [Function.comp_apply]
      split
      · exact hf r
      · rfl
    rw [hkeys]
    exact t.nodup

variable {p : R → Bool} {f : R → R} {hf : ∀ r, key (f r) = key r}

@[simp] lemma mem_deleteWhere {t : Table key} {r : R} :
    r ∈ (t.deleteWhere p).rows ↔ r ∈ t.rows ∧ p r = false := by
  simp [deleteWhere]

lemma mem_updateWhere {t : Table key} {r : R} :
    r ∈ (t.updateWhere p f hf).rows ↔ ∃ r₀ ∈ t.rows, (if p r₀ then f r₀ else r₀) = r :=
  List.mem_map

/-- The columns of the rows that `f` keeps, the key among them. -/
def project {R' : Type*} {key' : R' → ι} (t : Table key) (f : R → R')
    (hf : ∀ r, key' (f r) = key r) : Table key' where
  rows := t.rows.map f
  nodup := by
    have hkeys : (t.rows.map f).map key' = t.rows.map key := by
      rw [List.map_map]
      exact List.map_congr_left fun r _ => hf r
    rw [hkeys]
    exact t.nodup

section Find

variable [DecidableEq ι]

/-- The row with a key. -/
def find (t : Table key) (i : ι) : Option R := t.rows.find? fun r => decide (key r = i)

lemma find_eq_some {t : Table key} {i : ι} {r : R} :
    t.find i = some r ↔ r ∈ t.rows ∧ key r = i := by
  constructor
  · intro h
    exact ⟨List.mem_of_find?_eq_some h, by simpa using List.find?_some h⟩
  · rintro ⟨hr, rfl⟩
    cases hfind : t.find (key r) with
    | none => exact absurd (List.find?_eq_none.mp hfind r hr) (by simp)
    | some r' =>
      have hr' := List.mem_of_find?_eq_some hfind
      have hkey : key r' = key r := by simpa using List.find?_some hfind
      rw [eq_of_key hr' hr hkey]

lemma find_eq_none {t : Table key} {i : ι} : t.find i = none ↔ ∀ r ∈ t.rows, key r ≠ i := by
  simp [find]

lemma mem_iff_find {t : Table key} {r : R} : r ∈ t.rows ↔ t.find (key r) = some r := by
  simp [find_eq_some]

lemma key_of_find {t : Table key} {i : ι} {r : R} (h : t.find i = some r) : key r = i :=
  (find_eq_some.mp h).2

/-- Put a row in the place of the one with its key. -/
def replace (t : Table key) (r : R) : Table key where
  rows := t.rows.map fun r' => if key r' = key r then r else r'
  nodup := by
    have hkeys : (t.rows.map fun r' => if key r' = key r then r else r').map key
        = t.rows.map key := by
      rw [List.map_map]
      apply List.map_congr_left
      intro r' _
      simp only [Function.comp_apply]
      split
      · next h => exact h.symm
      · rfl
    rw [hkeys]
    exact t.nodup

/-- Add a row with a new key. -/
def insert (t : Table key) (r : R) (h : t.find (key r) = none) : Table key where
  rows := t.rows ++ [r]
  nodup := by
    rw [List.map_append, List.map_singleton, List.nodup_append]
    refine ⟨t.nodup, List.nodup_singleton _, ?_⟩
    intro i hi j hj
    obtain ⟨r', hr', rfl⟩ := List.mem_map.mp hi
    rw [List.mem_singleton.mp hj]
    exact find_eq_none.mp h r' hr'

/-- Put a row in the place of the one with its key, or add it. -/
def put (t : Table key) (r : R) : Table key :=
  if h : t.find (key r) = none then t.insert r h else t.replace r

/-- Remove the row with a key. -/
def delete (t : Table key) (i : ι) : Table key := t.deleteWhere fun r => decide (key r = i)

lemma mem_replace {t : Table key} {r x : R} :
    x ∈ (t.replace r).rows ↔
      (x = r ∧ ∃ r₀ ∈ t.rows, key r₀ = key r) ∨ (x ∈ t.rows ∧ key x ≠ key r) := by
  simp only [replace, List.mem_map]
  constructor
  · rintro ⟨r₀, hr₀, rfl⟩
    split_ifs with h
    · exact Or.inl ⟨rfl, r₀, hr₀, h⟩
    · exact Or.inr ⟨hr₀, h⟩
  · rintro (⟨rfl, r₀, hr₀, h⟩ | ⟨hx, h⟩)
    · exact ⟨r₀, hr₀, if_pos h⟩
    · exact ⟨x, hx, if_neg h⟩

@[simp] lemma mem_insert {t : Table key} {r x : R} {h : t.find (key r) = none} :
    x ∈ (t.insert r h).rows ↔ x ∈ t.rows ∨ x = r := by
  simp [insert]

@[simp] lemma mem_delete {t : Table key} {i : ι} {r : R} :
    r ∈ (t.delete i).rows ↔ r ∈ t.rows ∧ key r ≠ i := by
  simp [delete]

lemma find_replace {t : Table key} {r : R} (i : ι) :
    (t.replace r).find i = if i = key r then (t.find i).map fun _ => r else t.find i := by
  split_ifs with h
  · subst h
    cases hfind : t.find (key r) with
    | none =>
      rw [Option.map_none, find_eq_none]
      intro x hx
      rcases mem_replace.mp hx with ⟨-, r₀, hr₀, hkey⟩ | ⟨-, hne⟩
      · exact absurd hkey (find_eq_none.mp hfind r₀ hr₀)
      · exact hne
    | some r₀ =>
      obtain ⟨hr₀, hkey⟩ := find_eq_some.mp hfind
      exact find_eq_some.mpr ⟨mem_replace.mpr (Or.inl ⟨rfl, r₀, hr₀, hkey⟩), rfl⟩
  · rw [Option.ext_iff]
    intro x
    rw [find_eq_some, find_eq_some, mem_replace]
    constructor
    · rintro ⟨⟨rfl, -⟩ | ⟨hx, -⟩, rfl⟩
      · exact absurd rfl h
      · exact ⟨hx, rfl⟩
    · rintro ⟨hx, rfl⟩
      exact ⟨Or.inr ⟨hx, h⟩, rfl⟩

lemma find_insert {t : Table key} {r : R} {h : t.find (key r) = none} (i : ι) :
    (t.insert r h).find i = if i = key r then some r else t.find i := by
  split_ifs with heq
  · exact find_eq_some.mpr ⟨by simp, heq.symm⟩
  · rw [Option.ext_iff]
    intro x
    rw [find_eq_some, find_eq_some, mem_insert]
    constructor
    · rintro ⟨hx | rfl, rfl⟩
      · exact ⟨hx, rfl⟩
      · exact absurd rfl heq
    · rintro ⟨hx, rfl⟩
      exact ⟨Or.inl hx, rfl⟩

lemma find_put {t : Table key} {r : R} (i : ι) :
    (t.put r).find i = if i = key r then some r else t.find i := by
  simp only [put]
  split_ifs with hnew heq heq
  · rw [find_insert, if_pos heq]
  · rw [find_insert, if_neg heq]
  · subst heq
    obtain ⟨r₀, hr₀⟩ := Option.ne_none_iff_exists'.mp hnew
    rw [find_replace, if_pos rfl, hr₀, Option.map_some]
  · rw [find_replace, if_neg heq]

lemma mem_put {t : Table key} {r x : R} (h : x ∈ (t.put r).rows) : x = r ∨ x ∈ t.rows := by
  rw [mem_iff_find, find_put] at h
  split_ifs at h
  · exact Or.inl (Option.some.inj h).symm
  · exact Or.inr (mem_iff_find.mpr h)

lemma find_delete {t : Table key} (i j : ι) :
    (t.delete i).find j = if j = i then none else t.find j := by
  rw [Option.ext_iff]
  intro x
  rw [find_eq_some, mem_delete]
  split_ifs with h
  · subst h
    simp
  · rw [find_eq_some]
    constructor
    · rintro ⟨⟨hx, -⟩, rfl⟩
      exact ⟨hx, rfl⟩
    · rintro ⟨hx, rfl⟩
      exact ⟨⟨hx, h⟩, rfl⟩

lemma find_deleteWhere {t : Table key} (i : ι) :
    (t.deleteWhere p).find i = (t.find i).filter fun r => !p r := by
  rw [Option.ext_iff]
  intro x
  rw [find_eq_some, mem_deleteWhere, Option.filter_eq_some_iff, find_eq_some, Bool.not_eq_true']
  exact ⟨fun ⟨⟨hx, hp⟩, hkey⟩ => ⟨⟨hx, hkey⟩, hp⟩, fun ⟨⟨hx, hkey⟩, hp⟩ => ⟨⟨hx, hp⟩, hkey⟩⟩

lemma find_updateWhere {t : Table key} (i : ι) :
    (t.updateWhere p f hf).find i = (t.find i).map fun r => if p r then f r else r := by
  cases hfind : t.find i with
  | none =>
    rw [Option.map_none, find_eq_none]
    intro x hx
    obtain ⟨r₀, hr₀, rfl⟩ := mem_updateWhere.mp hx
    have hne := find_eq_none.mp hfind r₀ hr₀
    split
    · rwa [hf]
    · exact hne
  | some r₀ =>
    obtain ⟨hr₀, rfl⟩ := find_eq_some.mp hfind
    rw [Option.map_some, find_eq_some, mem_updateWhere]
    refine ⟨⟨r₀, hr₀, rfl⟩, ?_⟩
    split
    · exact hf r₀
    · rfl

section Project

variable {R' : Type*} {key' : R' → ι} {f : R → R'} {hf : ∀ r, key' (f r) = key r}

lemma find_project {t : Table key} (i : ι) : (t.project f hf).find i = (t.find i).map f := by
  rw [find, project, List.find?_map, find]
  congr 2
  funext r
  simp only [Function.comp_apply, hf]

lemma project_replace {t : Table key} {r : R} :
    (t.replace r).project f hf = (t.project f hf).replace (f r) := by
  apply ext
  simp only [project, replace, List.map_map]
  apply List.map_congr_left
  intro r' _
  simp only [Function.comp_apply, hf]
  split_ifs <;> rfl

lemma project_delete {t : Table key} {i : ι} :
    (t.delete i).project f hf = (t.project f hf).delete i := by
  apply ext
  simp only [project, delete, deleteWhere, List.filter_map]
  congr 2
  funext r
  simp only [Function.comp_apply, hf]

end Project

end Find

end Table

end SafeerApi.Lib
