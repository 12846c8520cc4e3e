import Mathlib.Tactic.Common

/-!
# Saving a loaded entity

A save re-reads the row and writes the columns in which the entity differs from what it re-read.
The other columns keep what the row holds when the write arrives.
-/

namespace SafeerApi.Lib

variable {α : Type*} [DecidableEq α]

/-- What a column holds after a save: `entity` is the value loaded and changed, `reread` the value
the save compared it with, `row` the value at the write. -/
def saved (entity reread row : α) : α := if entity = reread then row else entity

@[simp] lemma saved_self (x row : α) : saved x x row = row := if_pos rfl

/-- With nothing between the re-read and the write the entity is what is stored. -/
@[simp] lemma saved_unchanged (entity reread : α) : saved entity reread reread = entity := by
  simp only [saved]
  split
  · next h => exact h.symm
  · rfl

/-- What holds of the value saved and of the row's holds after the save. -/
lemma saved_of {P : α → Prop} {entity reread row : α} (he : P entity) (hr : P row) :
    P (saved entity reread row) := by
  simp only [saved]
  split_ifs
  · exact hr
  · exact he

lemma saved_of_ne {entity reread row : α} (h : entity ≠ reread) :
    saved entity reread row = entity :=
  if_neg h

end SafeerApi.Lib
