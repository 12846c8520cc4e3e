import Mathlib.Tactic.Common

/-!
# Histories

A history lists what happened, the latest first. A law says of an event what may have happened
before it.
-/

namespace SafeerApi.Lib

variable {E : Type*}

/-- Every event of the history obeys the law. -/
def Obeys (law : List E → E → Prop) : List E → Prop
  | [] => True
  | e :: past => law past e ∧ Obeys law past

variable {law : List E → E → Prop}

/-- Each event obeys the law in view of those before it. -/
lemma obeys_iff {history : List E} :
    Obeys law history ↔ ∀ later e past, history = later ++ e :: past → law past e := by
  induction history with
  | nil =>
    constructor
    · intro _ later e past h
      cases later <;> cases h
    · exact fun _ => trivial
  | cons e₀ history ih =>
    simp only [Obeys]
    rw [ih]
    constructor
    · rintro ⟨hfirst, hrest⟩ later e past h
      cases later with
      | nil => cases h; exact hfirst
      | cons e₁ later => cases h; exact hrest later e past rfl
    · intro h
      refine ⟨h [] e₀ history rfl, ?_⟩
      rintro later e past rfl
      exact h (e₀ :: later) e past rfl

end SafeerApi.Lib
