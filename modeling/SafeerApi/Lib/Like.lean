import Mathlib.Data.List.Infix
import Mathlib.Tactic.Common

/-!
# `LIKE` patterns

`LIKE` matches character by character: `%` stands for any run of characters, `_` for any one
character, and the escape character `\` takes the character after it literally. Two characters
match when `fold`, the weight a collation gives them, agrees. A pattern built as `%`, an escaped
text, `%` matches exactly the texts that contain the text.
-/

namespace SafeerApi.Lib

variable {W : Type*} [DecidableEq W]

/-- `text LIKE pattern ESCAPE '\'`. -/
def like (fold : Char → W) : List Char → List Char → Bool
  | [], text => text.isEmpty
  | '%' :: pattern, text => text.tails.any (like fold pattern)
  | '_' :: pattern, text =>
    match text with
    | [] => false
    | _ :: text => like fold pattern text
  | '\\' :: c :: pattern, text =>
    match text with
    | [] => false
    | d :: text => decide (fold c = fold d) && like fold pattern text
  | c :: pattern, text =>
    match text with
    | [] => false
    | d :: text => decide (fold c = fold d) && like fold pattern text

/-- The characters `LIKE` does not take literally. -/
def isLikeMeta (c : Char) : Bool := c = '\\' || c = '%' || c = '_'

/-- Put the escape character before every character that `LIKE` does not take literally. -/
def escapeLike (text : List Char) : List Char :=
  text.flatMap fun c => if isLikeMeta c then ['\\', c] else [c]

variable {fold : Char → W}

@[simp] lemma like_nil (text : List Char) : like fold [] text = text.isEmpty := by
  rw [like]

lemma like_percent (pattern text : List Char) :
    like fold ('%' :: pattern) text = text.tails.any (like fold pattern) := by
  rw [like]

/-- A character that is no metacharacter matches itself, up to its weight. -/
lemma like_literal {c : Char} (hc : ¬isLikeMeta c) (pattern text : List Char) :
    like fold (c :: pattern) text = true ↔
      ∃ d rest, text = d :: rest ∧ fold c = fold d ∧ like fold pattern rest := by
  have hmeta : c ≠ '\\' ∧ c ≠ '%' ∧ c ≠ '_' := by simpa [isLikeMeta, and_assoc] using hc
  obtain ⟨hescape, hpercent, hany⟩ := hmeta
  rw [like.eq_def]
  split
  · next heq => cases heq
  · next heq => exact absurd (List.cons.inj heq).1 hpercent
  · next heq => exact absurd (List.cons.inj heq).1 hany
  · next heq => exact absurd (List.cons.inj heq).1 hescape
  · next heq =>
    obtain ⟨rfl, rfl⟩ := List.cons.inj heq
    split <;> simp

@[simp] lemma escapeLike_nil : escapeLike [] = [] := rfl

lemma escapeLike_cons (c : Char) (text : List Char) :
    escapeLike (c :: text) = (if isLikeMeta c then ['\\', c] else [c]) ++ escapeLike text := rfl

/-- An escaped character matches itself, up to its weight. -/
lemma like_escapeLike_cons (c : Char) (q pattern text : List Char) :
    like fold (escapeLike (c :: q) ++ pattern) text = true ↔
      ∃ d rest, text = d :: rest ∧ fold c = fold d ∧ like fold (escapeLike q ++ pattern) rest := by
  rw [escapeLike_cons]
  by_cases hc : isLikeMeta c
  · simp only [hc, if_true, List.cons_append, List.nil_append]
    cases text <;> simp [like]
  · simp only [hc, Bool.false_eq_true, if_false, List.cons_append, List.nil_append]
    exact like_literal hc _ _

/-- An escaped text, then `%`, matches the texts that begin with it. -/
lemma like_escapeLike_percent (q text : List Char) :
    like fold (escapeLike q ++ ['%']) text = true ↔ q.map fold <+: text.map fold := by
  induction q generalizing text with
  | nil =>
    simp only [escapeLike_nil, List.nil_append, like_percent, List.any_eq_true, List.mem_tails,
      like_nil, List.isEmpty_iff, List.map_nil, List.nil_prefix, iff_true]
    exact ⟨[], List.nil_suffix, rfl⟩
  | cons c q ih =>
    rw [like_escapeLike_cons]
    constructor
    · rintro ⟨d, rest, rfl, hcd, hrest⟩
      rw [List.map_cons, List.map_cons, hcd, List.prefix_cons_inj]
      exact (ih rest).mp hrest
    · intro h
      cases text with
      | nil => simp at h
      | cons d rest =>
        rw [List.map_cons, List.map_cons, List.cons_prefix_cons] at h
        exact ⟨d, rest, rfl, h.1, (ih rest).mpr h.2⟩

/-- The pattern `%text%`, with the text escaped, matches the texts that contain the text. -/
theorem like_contains (q text : List Char) :
    like fold ('%' :: (escapeLike q ++ ['%'])) text = true ↔ q.map fold <:+: text.map fold := by
  rw [like_percent, List.any_eq_true, List.infix_iff_prefix_suffix]
  constructor
  · rintro ⟨t, ht, hlike⟩
    exact ⟨t.map fold, (like_escapeLike_percent q t).mp hlike,
      ((List.mem_tails t text).mp ht).map fold⟩
  · rintro ⟨u, hprefix, hsuffix⟩
    obtain ⟨t, ht, rfl⟩ := List.suffix_map_iff.mp hsuffix
    exact ⟨t, (List.mem_tails t text).mpr ht, (like_escapeLike_percent q t).mpr hprefix⟩

/-- Two searches that find the same texts are equal up to the weights of their characters. -/
lemma map_fold_eq_of_like {q q' : List Char}
    (h : ∀ text, like fold ('%' :: (escapeLike q ++ ['%'])) text
      = like fold ('%' :: (escapeLike q' ++ ['%'])) text) : q.map fold = q'.map fold := by
  have hle : q.map fold <:+: q'.map fold := by
    rw [← like_contains, h, like_contains]
  have hge : q'.map fold <:+: q.map fold := by
    rw [← like_contains, ← h, like_contains]
  exact hle.eq_of_length_le hge.length_le

end SafeerApi.Lib
