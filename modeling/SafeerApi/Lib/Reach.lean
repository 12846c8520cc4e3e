import Mathlib.Data.List.Basic
import Mathlib.Logic.Function.Basic
import Mathlib.Tactic.Common

/-!
# Runs of an action system

A system is a partial step function `step : σ → α → Option σ`: an action that is not enabled in
a state has no successor. `Reach step ok s₀` is the set of states a run from `s₀` can reach when
every step of the run meets the side condition `ok`, which reads the state the step is taken in
and the action. With `ok` always true these are the reachable states.
-/

namespace SafeerApi.Lib

variable {σ α : Type*} {step : σ → α → Option σ} {ok : σ → α → Prop} {s₀ s s' : σ}

/-- States reached from `s₀` by steps that each meet `ok`. -/
inductive Reach (step : σ → α → Option σ) (ok : σ → α → Prop) (s₀ : σ) : σ → Prop where
  | init : Reach step ok s₀ s₀
  | snoc {s s' : σ} (a : α) (h : Reach step ok s₀ s) (hok : ok s a) (hs : step s a = some s') :
      Reach step ok s₀ s'

/-- The side condition of an unrestricted run. -/
def always : σ → α → Prop := fun _ _ => True

/-- What holds initially and is preserved by every permitted step holds in every state reached. -/
lemma Reach.invariant {P : σ → Prop} (h : Reach step ok s₀ s) (h₀ : P s₀)
    (hstep : ∀ s a s', P s → ok s a → step s a = some s' → P s') : P s := by
  induction h with
  | init => exact h₀
  | snoc a _ hok hs ih => exact hstep _ a _ ih hok hs

lemma Reach.trans {t : σ} (h : Reach step ok s₀ s) (h' : Reach step ok s t) :
    Reach step ok s₀ t := by
  induction h' with
  | init => exact h
  | snoc a _ ha hs ih => exact .snoc a ih ha hs

/-- The state a list of actions leads to, when each is enabled in turn. -/
def run (step : σ → α → Option σ) (s : σ) (as : List α) : Option σ :=
  as.foldlM step s

/-- An executed list of actions that each meet a condition is a run that meets it. -/
lemma Reach.of_forall {permitted : α → Prop} {as : List α} (h : run step s as = some s')
    (has : ∀ a ∈ as, permitted a) : Reach step (fun _ a => permitted a) s s' := by
  induction as generalizing s with
  | nil => cases h; exact .init
  | cons a as ih =>
    obtain ⟨t, ht, h⟩ := Option.bind_eq_some_iff.mp h
    have hfirst : Reach step (fun _ a => permitted a) s t :=
      Reach.init.snoc a (has a List.mem_cons_self) ht
    exact hfirst.trans (ih h fun b hb => has b (List.mem_cons_of_mem _ hb))

/-- An executed list of actions is a run. -/
lemma Reach.of_run {as : List α} (h : run step s as = some s') : Reach step always s s' :=
  Reach.of_forall h fun _ _ => trivial

/-- The step function that refuses what `ok` does not permit. -/
def guarded (step : σ → α → Option σ) (ok : σ → α → Bool) (s : σ) (a : α) : Option σ :=
  if ok s a then step s a else none

/-- An executed list of permitted actions is a run that meets the side condition. -/
lemma Reach.of_guarded {ok : σ → α → Bool} {as : List α}
    (h : run (guarded step ok) s as = some s') : Reach step (fun s a => ok s a = true) s s' := by
  induction as generalizing s with
  | nil => cases h; exact .init
  | cons a as ih =>
    obtain ⟨t, ht, h⟩ := Option.bind_eq_some_iff.mp h
    simp only [guarded] at ht
    split_ifs at ht with hok
    exact (Reach.init.snoc a hok ht).trans (ih h)

/-- What a slot holds after one slot was filled. -/
lemma update_eq_some {ι β : Type*} [DecidableEq ι] {f : ι → Option β} {i j : ι} {a b : β}
    (h : Function.update f i (some a) j = some b) : (j = i ∧ b = a) ∨ (j ≠ i ∧ f j = some b) := by
  by_cases hji : j = i
  · subst hji
    rw [Function.update_self, Option.some.injEq] at h
    exact Or.inl ⟨rfl, h.symm⟩
  · rw [Function.update_of_ne hji] at h
    exact Or.inr ⟨hji, h⟩

/-- What a slot holds after one slot was emptied. -/
lemma update_none_eq_some {ι β : Type*} [DecidableEq ι] {f : ι → Option β} {i j : ι} {b : β}
    (h : Function.update f i none j = some b) : j ≠ i ∧ f j = some b := by
  have hji : j ≠ i := by
    rintro rfl
    rw [Function.update_self] at h
    cases h
  rw [Function.update_of_ne hji] at h
  exact ⟨hji, h⟩

/-- What holds of every request holds of them after one of them moved on. -/
lemma forall_mem_set {β : Type*} {P : β → Prop} {l : List β} {i : ℕ} {b : β} (h : ∀ a ∈ l, P a)
    (hb : P b) : ∀ a ∈ l.set i b, P a := by
  intro a ha
  rcases List.mem_or_eq_of_mem_set ha with ha | rfl
  · exact h a ha
  · exact hb

/-- What holds of every request holds of them after another one arrived. -/
lemma forall_mem_concat {β : Type*} {P : β → Prop} {l : List β} {b : β} (h : ∀ a ∈ l, P a)
    (hb : P b) : ∀ a ∈ l ++ [b], P a := by
  intro a ha
  rcases List.mem_append.mp ha with ha | ha
  · exact h a ha
  · rw [List.mem_singleton.mp ha]
    exact hb

/-- The requests after one of them moved on. -/
lemma getElem?_set_some {β : Type*} {l : List β} {i j : ℕ} {b c : β}
    (h : (l.set i b)[j]? = some c) : (j = i ∧ c = b) ∨ (j ≠ i ∧ l[j]? = some c) := by
  rw [List.getElem?_set] at h
  split_ifs at h with hij hlt
  · exact Or.inl ⟨hij.symm, (Option.some.inj h).symm⟩
  · exact Or.inr ⟨Ne.symm hij, h⟩

/-- A request that moved on is still there. -/
lemma mem_set_of_getElem? {β : Type*} {l : List β} {i : ℕ} {a b : β} (h : l[i]? = some a) :
    b ∈ l.set i b :=
  List.mem_set (List.getElem?_eq_some_iff.mp h).1 b

/-- The requests after another one arrived. -/
lemma getElem?_concat_some {β : Type*} {l : List β} {j : ℕ} {b c : β}
    (h : (l ++ [b])[j]? = some c) : l[j]? = some c ∨ c = b := by
  rw [List.getElem?_append] at h
  split_ifs at h
  · exact Or.inl h
  · exact Or.inr (List.mem_singleton.mp (List.mem_of_getElem? h))

/-- A decidable property of a run on fixed inputs can be evaluated. -/
lemma exists_of_run (step : σ → α → Option σ) (s : σ) (as : List α) {P : σ → Prop} [DecidablePred P]
    (h : ((run step s as).any fun t => decide (P t)) = true) :
    ∃ t, run step s as = some t ∧ P t := by
  obtain ⟨t, ht, hP⟩ := (Option.any_eq_true _ _).mp h
  exact ⟨t, ht, of_decide_eq_true hP⟩

end SafeerApi.Lib
