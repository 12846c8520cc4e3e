import Mathlib.Data.List.Infix
import Mathlib.Tactic.Common

/-!
# File trees

A tree of directories and files, as the nodes at its paths; above every node are directories. Making a
directory makes those above it, and a file is written only into a directory that is there.
-/

namespace SafeerApi.Lib

variable {σ β : Type*}

inductive Node (β : Type*) where
  | dir
  | file (content : β)
  deriving DecidableEq

structure FileTree (σ β : Type*) where
  node : List σ → Option (Node β)
  root : node [] = some .dir
  parents : ∀ p q, q <+: p → q ≠ p → node p ≠ none → node q = some .dir

inductive FsError where
  | notFound
  | notDirectory
  | isDirectory
  | exists
  | denied
  deriving DecidableEq, Repr

def Node.isFile : Node β → Bool
  | .file _ => true
  | .dir => false

lemma prefix_dropLast {path q : List σ} (h : q <+: path) (hne : q ≠ path) :
    q <+: path.dropLast := by
  obtain ⟨rest, rfl⟩ := h
  have hrest : rest ≠ [] := by
    rintro rfl
    exact hne (by simp)
  rw [List.dropLast_append_of_ne_nil hrest]
  exact List.prefix_append q _

lemma not_prefix_dropLast {path : List σ} (hne : path ≠ []) : ¬ path <+: path.dropLast := by
  intro h
  have hlength := h.length_le
  have hpos := List.length_pos_of_ne_nil hne
  rw [List.length_dropLast] at hlength
  omega

namespace FileTree

@[ext] lemma ext {t t' : FileTree σ β} (h : t.node = t'.node) : t = t' := by
  cases t; cases t'; cases h; rfl

def isDir (t : FileTree σ β) (path : List σ) : Bool := (t.node path).any fun x => !x.isFile

@[simp] lemma isDir_iff {t : FileTree σ β} {path : List σ} :
    t.isDir path = true ↔ t.node path = some .dir := by
  cases h : t.node path with
  | none => simp [isDir, h]
  | some x => cases x <;> simp [isDir, h, Node.isFile]

/-- A file stands in the way of a path. -/
def blocked (t : FileTree σ β) (path : List σ) : Bool :=
  path.inits.any fun q => (t.node q).any Node.isFile

lemma blocked_eq_false {t : FileTree σ β} {path : List σ} :
    t.blocked path = false ↔ ∀ q, q <+: path → t.node q = none ∨ t.node q = some .dir := by
  simp only [blocked, List.any_eq_false, List.mem_inits]
  refine forall_congr' fun q => imp_congr_right fun _ => ?_
  cases hq : t.node q with
  | none => simp
  | some x => cases x <;> simp [Node.isFile]

/-- What is wrong with a path at which there is nothing. -/
def missing (t : FileTree σ β) (path : List σ) : FsError :=
  if t.blocked path then .notDirectory else .notFound

section

variable [DecidableEq σ]

/-- Make a directory and all above it that are not there. -/
def mkdirAll (t : FileTree σ β) (path : List σ) : Except FsError (FileTree σ β) :=
  if h : t.blocked path = false then
    .ok {
      node := fun q => if q <+: path ∧ t.node q = none then some .dir else t.node q
      root := by simp [t.root]
      parents := by
        intro p q hqp hne hp
        have hclear := blocked_eq_false.mp h
        by_cases hnew : q <+: path ∧ t.node q = none
        · rw [if_pos hnew]
        · rw [if_neg hnew]
          by_cases hp' : p <+: path ∧ t.node p = none
          · have hq : q <+: path := hqp.trans hp'.1
            exact (hclear q hq).resolve_left fun hnone => hnew ⟨hq, hnone⟩
          · rw [if_neg hp'] at hp
            exact t.parents p q hqp hne hp }
  else .error (if (t.node path).any Node.isFile then .exists else .notDirectory)

/-- Write a file. -/
def writeFile (t : FileTree σ β) (path : List σ) (content : β) : Except FsError (FileTree σ β) :=
  if hdir : t.isDir path then .error .isDirectory
  else if hparent : t.isDir path.dropLast then
    .ok {
      node := Function.update t.node path (some (.file content))
      root := by
        have hne : [] ≠ path := by
          rintro rfl
          exact hdir (isDir_iff.mpr t.root)
        rw [Function.update_of_ne hne, t.root]
      parents := by
        intro p q hqp hne hp
        have hbelow : ∀ p', path <+: p' → path ≠ p' → t.node p' = none := by
          intro p' hprefix hne'
          by_contra hsome
          exact hdir (isDir_iff.mpr (t.parents p' path hprefix hne' hsome))
        by_cases hpath : p = path
        · subst hpath
          rw [Function.update_of_ne hne]
          rw [isDir_iff] at hparent
          by_cases hlast : q = p.dropLast
          · rw [hlast, hparent]
          · exact t.parents _ q (prefix_dropLast hqp hne) hlast (by rw [hparent]; simp)
        · rw [Function.update_of_ne hpath] at hp
          have hq : q ≠ path := by
            rintro rfl
            exact hp (hbelow p hqp hne)
          rw [Function.update_of_ne hq]
          exact t.parents p q hqp hne hp }
  else .error (t.missing path)

/-- Remove a file. -/
def unlink (t : FileTree σ β) (path : List σ) : Except FsError (FileTree σ β) :=
  match h : t.node path with
  | some (.file _) =>
    .ok {
      node := Function.update t.node path none
      root := by
        have hne : [] ≠ path := by
          rintro rfl
          rw [t.root] at h
          cases h
        rw [Function.update_of_ne hne, t.root]
      parents := by
        intro p q hqp hne hp
        have hpath : p ≠ path := by
          rintro rfl
          simp at hp
        rw [Function.update_of_ne hpath] at hp
        have hq := t.parents p q hqp hne hp
        have hqpath : q ≠ path := by
          rintro rfl
          rw [h] at hq
          cases hq
        rwa [Function.update_of_ne hqpath] }
  | some .dir => .error .isDirectory
  | none => .error (t.missing path)

end

/-- Open a path. -/
def openAt (t : FileTree σ β) (path : List σ) : Except FsError (Node β) :=
  match t.node path with
  | some x => .ok x
  | none => .error (t.missing path)

/-! ### What the operations change -/

section

variable [DecidableEq σ] {t t' : FileTree σ β} {path q : List σ} {content : β}

lemma node_mkdirAll (h : t.mkdirAll path = .ok t') (q : List σ) :
    t'.node q = if q <+: path ∧ t.node q = none then some .dir else t.node q := by
  simp only [mkdirAll] at h
  split_ifs at h
  cases h
  rfl

lemma dir_mkdirAll (h : t.mkdirAll path = .ok t') (hq : q <+: path) : t'.node q = some .dir := by
  rw [node_mkdirAll h]
  simp only [mkdirAll] at h
  split_ifs at h with hclear
  rcases blocked_eq_false.mp hclear q hq with hnone | hdir
  · rw [if_pos ⟨hq, hnone⟩]
  · simp [hdir]

lemma exists_mkdirAll (h : ∀ q, q <+: path → t.node q = none ∨ t.node q = some .dir) :
    ∃ t', t.mkdirAll path = .ok t' := by
  refine ⟨_, dif_pos (blocked_eq_false.mpr h)⟩

lemma node_writeFile (h : t.writeFile path content = .ok t') (q : List σ) :
    t'.node q = if q = path then some (.file content) else t.node q := by
  simp only [writeFile] at h
  split_ifs at h
  cases h
  simp [Function.update_apply]

lemma exists_writeFile (content : β) (hpath : t.node path ≠ some .dir)
    (hparent : t.node path.dropLast = some .dir) : ∃ t', t.writeFile path content = .ok t' := by
  rw [writeFile, dif_neg fun h => hpath (isDir_iff.mp h), dif_pos (isDir_iff.mpr hparent)]
  exact ⟨_, rfl⟩

lemma node_unlink (h : t.unlink path = .ok t') (q : List σ) :
    t'.node q = if q = path then none else t.node q := by
  simp only [unlink] at h
  split at h <;> cases h
  simp [Function.update_apply]

lemma unlink_file (h : t.node path = some (.file content)) : ∃ t', t.unlink path = .ok t' := by
  simp only [unlink]
  split
  · exact ⟨_, rfl⟩
  · next hdir => rw [h] at hdir; cases hdir
  · next hnone => rw [h] at hnone; cases hnone

lemma unlink_dir (h : t.node path = some .dir) : t.unlink path = .error .isDirectory := by
  simp only [unlink]
  split
  · next hfile => rw [h] at hfile; cases hfile
  · rfl
  · next hnone => rw [h] at hnone; cases hnone

lemma unlink_none (h : t.node path = none) : t.unlink path = .error (t.missing path) := by
  simp only [unlink]
  split
  · next hfile => rw [h] at hfile; cases hfile
  · next hdir => rw [h] at hdir; cases hdir
  · rfl

end

/-! ### What the operations look at -/

section Local

variable {t t' : FileTree σ β} {path : List σ} {S : List σ → Prop}

lemma blocked_congr (h : ∀ q, q <+: path → t.node q = t'.node q) :
    t.blocked path = t'.blocked path := by
  rw [Bool.eq_iff_iff, ← not_iff_not, Bool.not_eq_true, Bool.not_eq_true, blocked_eq_false,
    blocked_eq_false]
  exact forall_congr' fun q => imp_congr_right fun hq => by rw [h q hq]

lemma missing_congr (h : ∀ q, q <+: path → t.node q = t'.node q) :
    t.missing path = t'.missing path := by
  rw [missing, missing, blocked_congr h]

lemma openAt_congr (h : ∀ q, q <+: path → t.node q = t'.node q) :
    t.openAt path = t'.openAt path := by
  rw [openAt, openAt, h path (List.prefix_refl path), missing_congr h]

variable [DecidableEq σ]

/-- Trees that agree on what lies above a path agree after the directory is made, or fail alike. -/
lemma mkdirAll_congr (h : ∀ q, S q → t.node q = t'.node q) (hpath : ∀ q, q <+: path → S q) :
    (∃ e, t.mkdirAll path = .error e ∧ t'.mkdirAll path = .error e) ∨
      ∃ u u', t.mkdirAll path = .ok u ∧ t'.mkdirAll path = .ok u' ∧
        ∀ q, S q → u.node q = u'.node q := by
  have hblocked : t.blocked path = t'.blocked path := blocked_congr fun q hq => h q (hpath q hq)
  by_cases hclear : t.blocked path = false
  · obtain ⟨u, hu⟩ := exists_mkdirAll (blocked_eq_false.mp hclear)
    obtain ⟨u', hu'⟩ := exists_mkdirAll (blocked_eq_false.mp (hblocked ▸ hclear))
    refine .inr ⟨u, u', hu, hu', fun q hq => ?_⟩
    rw [node_mkdirAll hu, node_mkdirAll hu', h q hq]
  · refine .inl ⟨_, dif_neg hclear, ?_⟩
    rw [mkdirAll, dif_neg (hblocked ▸ hclear), h path (hpath path (List.prefix_refl path))]

lemma writeFile_congr (h : ∀ q, S q → t.node q = t'.node q) (hpath : ∀ q, q <+: path → S q)
    (content : β) :
    (∃ e, t.writeFile path content = .error e ∧ t'.writeFile path content = .error e) ∨
      ∃ u u', t.writeFile path content = .ok u ∧ t'.writeFile path content = .ok u' ∧
        ∀ q, S q → u.node q = u'.node q := by
  have hnode := h path (hpath path (List.prefix_refl path))
  have hparent := h path.dropLast (hpath _ (List.dropLast_prefix path))
  by_cases hdir : t.node path = some .dir
  · exact .inl ⟨.isDirectory, dif_pos (isDir_iff.mpr hdir), dif_pos (isDir_iff.mpr (hnode ▸ hdir))⟩
  · by_cases hup : t.node path.dropLast = some .dir
    · obtain ⟨u, hu⟩ := exists_writeFile content hdir hup
      obtain ⟨u', hu'⟩ := exists_writeFile content (hnode ▸ hdir) (hparent ▸ hup)
      refine .inr ⟨u, u', hu, hu', fun q hq => ?_⟩
      rw [node_writeFile hu, node_writeFile hu', h q hq]
    · refine .inl ⟨t.missing path, ?_, ?_⟩
      · rw [writeFile, dif_neg (by simpa using hdir), dif_neg (by simpa using hup)]
      · rw [writeFile, dif_neg (by simpa [← hnode] using hdir),
          dif_neg (by simpa [← hparent] using hup), missing_congr fun q hq => h q (hpath q hq)]

lemma unlink_congr (h : ∀ q, S q → t.node q = t'.node q) (hpath : ∀ q, q <+: path → S q) :
    (∃ e, t.unlink path = .error e ∧ t'.unlink path = .error e) ∨
      ∃ u u', t.unlink path = .ok u ∧ t'.unlink path = .ok u' ∧
        ∀ q, S q → u.node q = u'.node q := by
  have hnode := h path (hpath path (List.prefix_refl path))
  cases hx : t.node path with
  | none =>
    refine .inl ⟨_, unlink_none hx, ?_⟩
    rw [unlink_none (hnode ▸ hx), missing_congr fun q hq => h q (hpath q hq)]
  | some x =>
    cases x with
    | dir => exact .inl ⟨_, unlink_dir hx, unlink_dir (hnode ▸ hx)⟩
    | file content =>
      obtain ⟨u, hu⟩ := unlink_file hx
      obtain ⟨u', hu'⟩ := unlink_file (hnode ▸ hx)
      refine .inr ⟨u, u', hu, hu', fun q hq => ?_⟩
      rw [node_unlink hu, node_unlink hu', h q hq]

end Local

end FileTree

end SafeerApi.Lib
