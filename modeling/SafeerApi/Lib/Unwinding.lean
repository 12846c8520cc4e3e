import SafeerApi.Lib.Reach

/-!
# Runs that look alike

A view of the states says what is seen of them. When steps that look alike lead from states of one
view to states of one view, so do runs: what is seen does not depend on what tells such steps apart.
The view may be the state itself with the unseen parts erased.
-/

namespace SafeerApi.Lib

variable {σ α ν : Type*} {step : σ → α → Option σ} {s t : σ} {as bs : List α}

/-- Lists of actions that look alike are both refused, or lead to states of one view. -/
lemma run_view_eq {view : σ → ν} {Alike : α → α → Prop}
    (hstep : ∀ s t a b, view s = view t → Alike a b → (step s a).map view = (step t b).map view)
    (has : List.Forall₂ Alike as bs) (h : view s = view t) :
    (run step s as).map view = (run step t bs).map view := by
  induction has generalizing s t with
  | nil => exact congrArg some h
  | @cons a b as bs hab _ ih =>
    have hnext := hstep s t a b h hab
    simp only [run, List.foldlM_cons] at ih ⊢
    cases hs : step s a with
    | none =>
      rw [hs, Option.map_none, eq_comm, Option.map_eq_none_iff] at hnext
      rw [hnext]
      rfl
    | some s' =>
      rw [hs, Option.map_some, eq_comm, Option.map_eq_some_iff] at hnext
      obtain ⟨t', ht', hview⟩ := hnext
      rw [ht']
      exact ih hview.symm

/-- It is enough that a step does the same, up to what is erased, where it is erased before. -/
lemma step_view_eq_of_erase {erase : σ → σ} {eraseAction : α → α}
    (hcomm : ∀ s a, (step s a).map erase = (step (erase s) (eraseAction a)).map erase) {a b : α}
    (h : erase s = erase t) (hab : eraseAction a = eraseAction b) :
    (step s a).map erase = (step t b).map erase := by
  rw [hcomm s a, hcomm t b, h, hab]

end SafeerApi.Lib
