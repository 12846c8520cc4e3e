import Mathlib.Data.List.Basic
import Mathlib.Tactic.Common

/-!
# Replacing matches from left to right

A matcher is asked at a place of a list, with the element before it. It says how many elements it
matches there and what they are replaced with, or that there is no match. The next match is looked for
behind the last one.
-/

namespace SafeerApi.Lib

variable {α : Type*}

/-- The element that is before what follows `l`. -/
def lastOf (prev : Option α) (l : List α) : Option α := l.getLast?.or prev

@[simp] lemma lastOf_nil (prev : Option α) : lastOf prev [] = prev := rfl

@[simp] lemma lastOf_cons (prev : Option α) (a : α) (l : List α) :
    lastOf prev (a :: l) = lastOf (some a) l := by
  cases l with
  | nil => rfl
  | cons b l => simp [lastOf, List.getLast?_cons]

lemma lastOf_append (prev : Option α) (l l' : List α) :
    lastOf prev (l ++ l') = lastOf (lastOf prev l) l' := by
  simp only [lastOf, List.getLast?_append, Option.or_assoc]

/-- The next `skip` elements are part of a match that has been replaced. -/
def replaceFrom (find : Option α → List α → Option (List α × ℕ)) : ℕ → Option α → List α → List α
  | _, _, [] => []
  | skip + 1, _, a :: l => replaceFrom find skip (some a) l
  | 0, prev, a :: l =>
    match find prev (a :: l) with
    | some (replacement, length) => replacement ++ replaceFrom find (length - 1) (some a) l
    | none => a :: replaceFrom find 0 (some a) l

section Replace

variable {find : Option α → List α → Option (List α × ℕ)} {prev : Option α}

lemma replaceFrom_skip (m l : List α) :
    replaceFrom find m.length prev (m ++ l) = replaceFrom find 0 (lastOf prev m) l := by
  induction m generalizing prev with
  | nil => rfl
  | cons a m ih => rw [List.length_cons, List.cons_append, replaceFrom, ih, lastOf_cons]

/-- A match is replaced. -/
lemma replaceFrom_match {m l replacement : List α} (hm : m ≠ [])
    (h : find prev (m ++ l) = some (replacement, m.length)) :
    replaceFrom find 0 prev (m ++ l) = replacement ++ replaceFrom find 0 (lastOf prev m) l := by
  cases m with
  | nil => exact absurd rfl hm
  | cons a m =>
    rw [List.cons_append] at h ⊢
    simp only [replaceFrom, h, List.length_cons, Nat.add_sub_cancel]
    rw [replaceFrom_skip, lastOf_cons]

/-- Where no match begins, nothing is replaced. -/
lemma replaceFrom_of_none {x l : List α}
    (h : ∀ u v, x = u ++ v → v ≠ [] → find (lastOf prev u) (v ++ l) = none) :
    replaceFrom find 0 prev (x ++ l) = x ++ replaceFrom find 0 (lastOf prev x) l := by
  induction x generalizing prev with
  | nil => rfl
  | cons a x ih =>
    have hhead : find prev (a :: x ++ l) = none := h [] (a :: x) rfl (List.cons_ne_nil a x)
    rw [List.cons_append] at hhead ⊢
    simp only [replaceFrom, hhead]
    rw [ih, lastOf_cons, List.cons_append]
    intro u v hsplit hv
    rw [← lastOf_cons prev a u]
    exact h (a :: u) v (by rw [hsplit, List.cons_append]) hv

end Replace

end SafeerApi.Lib
