import Mathlib.Logic.Function.Basic
import Mathlib.Tactic.Common

/-!
# Forwarding addresses

A forwarding sends some addresses on to others. When no target is itself forwarded, each address is
resolved in one hop. Who moves from `a` to `b` leaves a forward from `a`, takes the forwards to `a`
along, and ends what led away from `b`.
-/

namespace SafeerApi.Lib

variable {α : Type*}

/-- No target is forwarded again. -/
def OneHop (f : α → Option α) : Prop := ∀ x y, f x = some y → f y = none

/-- `x` is `y`, or is forwarded there. -/
def Leads (f : α → Option α) (x y : α) : Prop := x = y ∨ f x = some y

namespace OneHop

variable {f g : α → Option α}

lemma ne (h : OneHop f) {x y : α} (hxy : f x = some y) : x ≠ y := by
  rintro rfl
  rw [h x x hxy] at hxy
  cases hxy

/-- Forwards may be dropped. -/
lemma mono (h : OneHop f) (hsub : ∀ x y, g x = some y → f x = some y) : OneHop g := by
  intro x y hxy
  cases hgy : g y with
  | none => rfl
  | some z =>
    have hfy := h x y (hsub x y hxy)
    rw [hsub y z hgy] at hfy
    cases hfy

/-- A forward is added, to an address that is not forwarded from one that nothing leads to. -/
lemma link [DecidableEq α] (h : OneHop f) {a b : α} (hne : a ≠ b) (hb : f b = none)
    (ha : ∀ x, f x ≠ some a) : OneHop (Function.update f a (some b)) := by
  intro x y hxy
  by_cases hx : x = a
  · subst hx
    rw [Function.update_self, Option.some.injEq] at hxy
    rw [← hxy, Function.update_of_ne hne.symm]
    exact hb
  · rw [Function.update_of_ne hx] at hxy
    have hy : y ≠ a := by
      rintro rfl
      exact ha x hxy
    rw [Function.update_of_ne hy]
    exact h x y hxy

end OneHop

/-! ### Moving -/

section Move

variable [DecidableEq α]

/-- Nothing leads away from `b`, and nothing to itself. -/
def settled (f : α → Option α) (b : α) : α → Option α :=
  fun x => if x = b then none else (f x).filter fun y => y ≠ x

/-- The forwards after a move from `a` to `b`. -/
def moved (f : α → Option α) (a b : α) : α → Option α :=
  settled (Function.update (fun x => (f x).map fun y => if y = a then b else y) a (some b)) b

variable {f : α → Option α} {a b x y : α}

lemma settled_eq_some : settled f b x = some y ↔ x ≠ b ∧ f x = some y ∧ y ≠ x := by
  simp only [settled]
  split_ifs with hx
  · simp [hx]
  · simp [hx, Option.filter_eq_some_iff]

lemma OneHop.settled (h : OneHop f) (b : α) : OneHop (Lib.settled f b) :=
  h.mono fun _ _ hxy => (settled_eq_some.mp hxy).2.1

lemma OneHop.moved (h : OneHop f) (a b : α) : OneHop (Lib.moved f a b) := by
  intro x y hxy
  obtain ⟨-, hxy, -⟩ := settled_eq_some.mp hxy
  by_cases hyb : y = b
  · simp [Lib.moved, Lib.settled, hyb]
  -- the forward was there before, and `y` is where it led
  have hx : x ≠ a := by
    rintro rfl
    rw [Function.update_self, Option.some.injEq] at hxy
    exact hyb hxy.symm
  rw [Function.update_of_ne hx] at hxy
  obtain ⟨y₀, hy₀, hy⟩ := Option.map_eq_some_iff.mp hxy
  split_ifs at hy with hya
  · exact absurd hy.symm hyb
  · subst hy
    simp [Lib.moved, Lib.settled, hya, h x y₀ hy₀]

/-- What leads to `a` leads to `b` after the move. -/
lemma Leads.moved (h : Leads f x a) (b : α) : Leads (Lib.moved f a b) x b := by
  by_cases hxb : x = b
  · exact Or.inl hxb
  · apply Or.inr
    rw [Lib.moved, settled_eq_some]
    refine ⟨hxb, ?_, fun h => hxb h.symm⟩
    by_cases hxa : x = a
    · rw [hxa, Function.update_self]
    · rw [Function.update_of_ne hxa]
      simp [h.resolve_left hxa]

/-- What leads elsewhere still does, from an address that is not taken. -/
lemma Leads.settled (h : Leads f x y) (hxb : x ≠ b) : Leads (Lib.settled f b) x y := by
  by_cases hxy : x = y
  · exact Or.inl hxy
  · exact Or.inr (settled_eq_some.mpr ⟨hxb, h.resolve_left hxy, fun h => hxy h.symm⟩)

/-- What leads elsewhere still does, from an address that is neither left nor taken. -/
lemma Leads.moved_of_ne (h : Leads f x y) (hxa : x ≠ a) (hxb : x ≠ b) (hya : y ≠ a) :
    Leads (Lib.moved f a b) x y := by
  apply Leads.settled _ hxb
  rcases h with h | h
  · exact Or.inl h
  · apply Or.inr
    rw [Function.update_of_ne hxa]
    simp [h, hya]

end Move

end SafeerApi.Lib
