import Mathlib.Data.List.Basic
import Mathlib.Tactic.Common

/-!
# Texts joined by separators

A join of parts can be read back when no part contains the separator. The decimal numeral of a
natural number contains digits only, so a join of numerals determines the numbers. A text that is
changed between its separators is split as before.
-/

namespace SafeerApi.Lib

variable {α : Type*}

/-- Cutting at the first occurrence of `c` is unambiguous. -/
lemma append_sep_inj {c : α} {a a' b b' : List α} (ha : c ∉ a) (ha' : c ∉ a')
    (h : a ++ c :: b = a' ++ c :: b') : a = a' ∧ b = b' := by
  induction a generalizing a' with
  | nil =>
    cases a' with
    | nil => exact ⟨rfl, (List.cons.inj h).2⟩
    | cons x a' => exact absurd ((List.cons.inj h).1 ▸ List.mem_cons_self) ha'
  | cons x a ih =>
    cases a' with
    | nil => exact absurd ((List.cons.inj h).1 ▸ List.mem_cons_self) ha
    | cons y a' =>
      simp only [List.cons_append, List.cons.injEq] at h
      obtain ⟨rfl, h⟩ := h
      rw [List.mem_cons, not_or] at ha ha'
      obtain ⟨rfl, rfl⟩ := ih ha.2 ha'.2 h
      exact ⟨rfl, rfl⟩

/-- Two joins of separator-free parts agree only part by part. -/
lemma intercalate_inj [DecidableEq α] {c : α} {l l' : List (List α)} (hnil : l = [] ↔ l' = [])
    (hl : ∀ p ∈ l, c ∉ p) (hl' : ∀ p ∈ l', c ∉ p)
    (h : [c].intercalate l = [c].intercalate l') : l = l' := by
  by_cases hempty : l = []
  · rw [hempty, hnil.mp hempty]
  · have hempty' : l' ≠ [] := fun h => hempty (hnil.mpr h)
    have hs := congrArg (List.splitOn c) h
    rwa [List.splitOn_intercalate _ hl hempty, List.splitOn_intercalate _ hl' hempty'] at hs

/-- A join of parts that are not empty is empty only when there are none. -/
lemma intercalate_eq_nil {c : α} {l : List (List α)} (hl : ∀ p ∈ l, p ≠ []) :
    [c].intercalate l = [] ↔ l = [] := by
  cases l with
  | nil => simp
  | cons p l =>
    have hp := hl p List.mem_cons_self
    cases l <;> simp [List.intercalate, hp]

/-- A join holds what its parts hold, and separators. -/
lemma notMem_intercalate {c x : α} (hx : x ≠ c) {l : List (List α)} (hl : ∀ p ∈ l, x ∉ p) :
    x ∉ [c].intercalate l := by
  induction l with
  | nil => simp [List.intercalate]
  | cons p l ih =>
    have hp : x ∉ p := hl p List.mem_cons_self
    have hjoin : x ∉ [c].intercalate l := ih fun q hq => hl q (List.mem_cons_of_mem p hq)
    cases l with
    | nil => simpa [List.intercalate] using hp
    | cons q l =>
      have hcons : [c].intercalate (p :: q :: l) = p ++ c :: [c].intercalate (q :: l) := by
        simp [List.intercalate]
      rw [hcons, List.mem_append, List.mem_cons, not_or, not_or]
      exact ⟨hp, hx, hjoin⟩

/-- A decimal numeral contains no character that is not a digit. -/
lemma notMem_repr {c : Char} (hc : c.isDigit = false) (n : ℕ) : c ∉ n.repr.toList := by
  intro hmem
  rw [Nat.toList_repr] at hmem
  exact absurd (Nat.isDigit_of_mem_toDigits (by decide) (by decide) hmem) (by simp [hc])

/-- A decimal numeral can be read back. -/
lemma repr_toList_inj {m n : ℕ} (h : m.repr.toList = n.repr.toList) : m = n := by
  rw [Nat.toList_repr, Nat.toList_repr] at h
  have h := congrArg (Nat.ofDigitChars 10 · 0) h
  rwa [Nat.ofDigitChars_toDigits (by decide) (by decide),
    Nat.ofDigitChars_toDigits (by decide) (by decide)] at h

lemma toString_inj {m n : ℕ} (h : toString m = toString n) : m = n :=
  repr_toList_inj (congrArg String.toList h)

/-- A join of numerals, one for each item of a list, determines the numbers. -/
lemma intercalate_repr_inj {β : Type*} {c : Char} (hc : c.isDigit = false) {f g : β → ℕ}
    {l : List β} (h : [c].intercalate (l.map fun b => (f b).repr.toList)
      = [c].intercalate (l.map fun b => (g b).repr.toList)) : ∀ b ∈ l, f b = g b := by
  have hfree : ∀ f : β → ℕ, ∀ p ∈ l.map fun b => (f b).repr.toList, c ∉ p := by
    intro f p hp
    obtain ⟨b, -, rfl⟩ := List.mem_map.mp hp
    exact notMem_repr hc (f b)
  intro b hb
  exact repr_toList_inj
    (List.map_inj_left.mp (intercalate_inj (by simp) (hfree f) (hfree g) h) b hb)

/-! ### Splitting -/

lemma mem_splitOnP_of_mem {p : α → Bool} {x : α} {l : List α} (hx : x ∈ l)
    (hp : p x = false) : ∃ part ∈ l.splitOnP p, x ∈ part := by
  induction l with
  | nil => cases hx
  | cons y l ih =>
    rw [List.splitOnP_cons_eq_if_modifyHead]
    obtain ⟨part, parts, hparts⟩ := List.exists_cons_of_ne_nil (List.splitOnP_ne_nil p l)
    rcases List.mem_cons.mp hx with rfl | hx
    · rw [hp, if_neg Bool.false_ne_true, hparts]
      exact ⟨x :: part, List.mem_cons_self, List.mem_cons_self⟩
    · obtain ⟨word, hword, hmem⟩ := ih hx
      split_ifs
      · exact ⟨word, List.mem_cons_of_mem _ hword, hmem⟩
      · rw [hparts] at hword ⊢
        rcases List.mem_cons.mp hword with rfl | hword
        · exact ⟨y :: word, List.mem_cons_self, List.mem_cons_of_mem _ hmem⟩
        · exact ⟨word, List.mem_cons_of_mem _ hword, hmem⟩

lemma splitOnP_append {p : α → Bool} {a : List α} (h : ∀ x ∈ a, p x = false)
    (l : List α) : (a ++ l).splitOnP p = (l.splitOnP p).modifyHead (a ++ ·) := by
  induction a with
  | nil =>
    obtain ⟨part, parts, hparts⟩ := List.exists_cons_of_ne_nil (List.splitOnP_ne_nil p l)
    simp [hparts]
  | cons x a ih =>
    obtain ⟨hx, ha⟩ := List.forall_mem_cons.mp h
    obtain ⟨part, parts, hparts⟩ := List.exists_cons_of_ne_nil (List.splitOnP_ne_nil p l)
    rw [List.cons_append, List.splitOnP_cons_eq_if_modifyHead, hx, ih ha, hparts]
    rfl

/-- Each separator stays, and what another character is replaced by contains none: the parts
between the separators are replaced one by one. -/
lemma splitOnP_flatMap {p : α → Bool} {f : α → List α}
    (hsep : ∀ x, p x → f x = [x]) (hother : ∀ x, p x = false → ∀ y ∈ f x, p y = false)
    (l : List α) : (l.flatMap f).splitOnP p = (l.splitOnP p).map (List.flatMap f) := by
  induction l with
  | nil => rfl
  | cons x l ih =>
    rw [List.flatMap_cons, List.splitOnP_cons_eq_if_modifyHead]
    cases hx : p x with
    | true =>
      rw [hsep x hx, List.cons_append, List.nil_append, List.splitOnP_cons_eq_if_modifyHead, hx, ih]
      rfl
    | false =>
      obtain ⟨part, parts, hparts⟩ := List.exists_cons_of_ne_nil (List.splitOnP_ne_nil p l)
      rw [splitOnP_append (hother x hx), ih, hparts]
      simp

end SafeerApi.Lib
