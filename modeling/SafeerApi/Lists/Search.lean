import SafeerApi.Lists.Routes

/-!
# Searching (`escapeLikeValue` and the two searches that use it)

A search puts its term, escaped, between two `%` and asks the database for the rows of which a
column is `LIKE` that. It finds the rows of which a column contains the term as it was typed,
whatever metacharacters the term and the column hold.
-/

namespace SafeerApi.Lists

open Common Lib Public

/-! ### One column -/

lemma toList_searchPattern (q : String) :
    ("%" ++ escapeLikeValue q ++ "%").toList = '%' :: (escapeLike q.toList ++ ['%']) := by
  simp only [String.toList_append, toList_escapeLikeValue]
  rfl

/-- Equal weights, character by character, of a part of the text and of the whole term. -/
lemma map_infix_iff {W : Type*} {fold : Char → W} {q text : List Char} :
    q.map fold <:+: text.map fold ↔
      ∃ before found after, text = before ++ found ++ after ∧ found.map fold = q.map fold := by
  constructor
  · rintro ⟨u, v, huv⟩
    obtain ⟨before', after, rfl, hbefore', -⟩ := List.map_eq_append_iff.mp huv.symm
    obtain ⟨before, found, rfl, -, hfound⟩ := List.map_eq_append_iff.mp hbefore'
    exact ⟨before, found, after, rfl, hfound⟩
  · rintro ⟨before, found, after, rfl, hfound⟩
    exact ⟨before.map fold, after.map fold, by rw [List.map_append, List.map_append, hfound]⟩

/-- `text LIKE '%' + escapeLikeValue(term) + '%' ESCAPE '\'` holds exactly when the text contains
the term. -/
theorem like_searchPattern {W : Type*} [DecidableEq W] (fold : Char → W) (term text : String) :
    like fold ("%" ++ escapeLikeValue term ++ "%").toList text.toList = true ↔
      ∃ before found after, text.toList = before ++ found ++ after ∧
        found.map fold = term.toList.map fold := by
  rw [toList_searchPattern, like_contains]
  exact map_infix_iff

-- a backslash before the closing `%` does not swallow it, and an underscore is no wildcard
example : like Char.toNat ("%" ++ escapeLikeValue "_\\" ++ "%").toList "a_\\b".toList = true := by
  decide

example : like Char.toNat ("%" ++ escapeLikeValue "_\\" ++ "%").toList "ab\\b".toList = false := by
  decide

/-! ### The two searches -/

/-- A column contains the term, up to the weights of the collation. -/
def Contains (coll : Collation) (term column : String) : Prop :=
  term.toList.map coll.weight <:+: column.toList.map coll.weight

lemma contains_iff (coll : Collation) (term column : String) :
    contains coll term column = true ↔ Contains coll term column := by
  rw [contains, toList_searchPattern, like_contains, Contains]

/-- The search of the public news finds the posts of which a title or an excerpt contains the
term. -/
lemma matches_iff {A : Type*} (coll : Collation) (post : Post A) (term : String) :
    post.matches coll term = true ↔ ∃ column,
      some column ∈ [some post.titleAr, post.titleEn, post.excerptAr, post.excerptEn] ∧
        Contains coll term column := by
  have hcolumn : ∀ column : Option String, column.any (contains coll term) = true ↔
      ∃ text, some text = column ∧ Contains coll term text := by
    intro column
    simp only [Option.any_eq_true, contains_iff, eq_comm (a := some _)]
  have htitleAr : contains coll term post.titleAr
      = (some post.titleAr).any (contains coll term) := rfl
  simp only [Post.matches, htitleAr, Bool.or_eq_true, hcolumn, List.mem_cons, List.not_mem_nil,
    or_false, or_and_right, exists_or, or_assoc]

/-- The search of a kernel collection that has columns to search finds the rows of which one of
them contains the term. -/
lemma kernelSearch_iff {E V : Type*} (coll : Collation) (opts : CrudListOptions E V) (term : String)
    (e : E) (hsearchable : opts.searchable ≠ []) :
    (opts.searchable.isEmpty ||
        opts.searchable.any fun field => (field e).any (contains coll term)) = true ↔
      ∃ field ∈ opts.searchable, ∃ column, field e = some column ∧ Contains coll term column := by
  simp only [Bool.or_eq_true, List.isEmpty_iff, hsearchable, false_or, List.any_eq_true,
    Option.any_eq_true, contains_iff]

end SafeerApi.Lists
