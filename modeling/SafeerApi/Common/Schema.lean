import SafeerApi.Common.ListParams

/-!
# Body fields (`zod`)

The field schemas the modelled DTOs are made of. A body arrives with the right JSON types; what is
left to check is what the schema says of the values. `none` is a refusal.
-/

namespace SafeerApi.Common

/-- What a field of a body, and the column it is written to, can hold. -/
inductive FieldValue where
  | null
  | text (s : String)
  | number (n : ℤ)
  | flag (b : Bool)
  deriving DecidableEq, Repr

/-- `text.length`: UTF-16 code units. -/
def utf16Length (s : String) : ℕ :=
  s.toList.foldl (fun n c => n + if c.toNat < 0x10000 then 1 else 2) 0

/-- `z.string().min(min).max(max)` -/
def bounded (min max : ℕ) (s : String) : Option String :=
  if min ≤ utf16Length s ∧ utf16Length s ≤ max then some s else none

/-- `z.string().trim().min(min).max(max)` -/
def trimmed (min max : ℕ) (s : String) : Option String :=
  let s := trim s
  if min ≤ utf16Length s ∧ utf16Length s ≤ max then some s else none

/-- `z.string().regex(/^\d+$/)` -/
def digits (s : String) : Option String :=
  if s.toList ≠ [] ∧ s.toList.all Char.isDigit then some s else none

/-- `.optional()`, and `.nullable()`: what is absent, or null, stays so. -/
def optional {α β : Type*} (parse : α → Option β) : Option α → Option (Option β)
  | none => some none
  | some a => (parse a).map some

lemma parse_of_optional {α β : Type*} {parse : α → Option β} {x : Option α} {b : β}
    (h : optional parse x = some (some b)) : ∃ a, parse a = some b := by
  cases x with
  | none => cases h
  | some a =>
    obtain ⟨b', hb', heq⟩ := Option.map_eq_some_iff.mp h
    exact ⟨a, by rw [hb', Option.some.inj heq]⟩

end SafeerApi.Common
