import Mathlib.Tactic.Common

/-!
# Machines that answer

A machine performs one operation after another and answers each. Two machines that answer alike in
related states, and stay related, answer every list of operations alike.
-/

namespace SafeerApi.Lib

variable {σ τ ι ω : Type*}

def answers (perform : σ → ι → ω × σ) (s : σ) : List ι → List ω
  | [] => []
  | op :: ops => (perform s op).1 :: answers perform (perform s op).2 ops

/-- The state after a list of operations. -/
def final (perform : σ → ι → ω × σ) (s : σ) : List ι → σ
  | [] => s
  | op :: ops => final perform (perform s op).2 ops

/-- What relates a state to every next one relates it to every later one. -/
lemma final_rel {perform : σ → ι → ω × σ} {R : σ → σ → Prop} (hrefl : ∀ s, R s s)
    (htrans : ∀ s₁ s₂ s₃, R s₁ s₂ → R s₂ s₃ → R s₁ s₃) (hstep : ∀ s op, R s (perform s op).2)
    (s : σ) (ops : List ι) : R s (final perform s ops) := by
  induction ops generalizing s with
  | nil => exact hrefl s
  | cons op ops ih => exact htrans _ _ _ (hstep s op) (ih _)

/-- Machines in lockstep answer alike. -/
lemma answers_eq {perform : σ → ι → ω × σ} {perform' : τ → ι → ω × τ} {R : σ → τ → Prop}
    {P : ι → Prop} (hstep : ∀ s t op, R s t → P op →
      (perform s op).1 = (perform' t op).1 ∧ R (perform s op).2 (perform' t op).2)
    {s : σ} {t : τ} (h : R s t) {ops : List ι} (hops : ∀ op ∈ ops, P op) :
    answers perform s ops = answers perform' t ops := by
  induction ops generalizing s t with
  | nil => rfl
  | cons op ops ih =>
    obtain ⟨heq, hnext⟩ := hstep s t op h (hops op List.mem_cons_self)
    rw [answers, answers, heq, ih hnext fun o ho => hops o (List.mem_cons_of_mem op ho)]

end SafeerApi.Lib
