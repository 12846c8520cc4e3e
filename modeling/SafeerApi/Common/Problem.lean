/-!
# Refusals (`problem.exception.ts`, `error-codes.ts`)

What the problem+json filter needs of a refused request.
-/

namespace SafeerApi.Common

/-- The machine codes of `error-codes.ts` that the modelled code throws. -/
inductive ErrorCode where
  | validationFailed
  | unauthenticated
  | forbidden
  | notFound
  | assetInUse
  | resourceInUse
  | altTextRequired
  | lastAdmin
  | slugTaken
  | publishBlocked
  | rateLimited
  | redirectChain
  deriving DecidableEq, Repr

/-- A row that still uses the resource a request wants to remove. -/
structure Usage where
  entity : String
  id : String
  label : String
  deriving DecidableEq, Repr

/-- `ProblemException`: the `extra` fields that name the offending input are texts; `usages` is the
one that is a list of rows. -/
structure Problem where
  status : Nat
  code : ErrorCode
  title : String
  extra : List (String × String) := []
  usages : List Usage := []
  deriving DecidableEq, Repr

/-- A check that passes lets the rest of a function run on its result. -/
theorem bind_eq_ok {ε α β : Type _} {x : Except ε α} {f : α → Except ε β} {b : β}
    (h : (x >>= f) = .ok b) : ∃ a, x = .ok a ∧ f a = .ok b := by
  cases x with
  | error e => cases h
  | ok a => exact ⟨a, rfl, h⟩

end SafeerApi.Common
