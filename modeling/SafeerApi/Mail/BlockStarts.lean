import SafeerApi.Lib.Joined
import SafeerApi.Lib.MarkdownLines
import SafeerApi.Mail.RenderTemplate

/-!
# Values at the start of a line

`escapeMarkdown` escapes what is syntax within a line. What a line begins with is another matter:
each character of a filled template is given the place it comes from, so that the lines can be told
apart whose first character, blanks aside, comes from a value that is no trusted link.
-/

namespace SafeerApi.Mail.RenderTemplate

open Common Lib Lib.MarkdownLines

/-- Where a character of a filled template comes from. -/
inductive Origin where
  | template
  | link
  | value
  deriving DecidableEq, Repr

abbrev Marked := List (Char × Origin)

def originOf (name : String) : Origin := if name ∈ trustedLinkVars then .link else .value

def Piece.fillMarked (f : String → List Char) : Piece → Marked
  | .text c => [(c, .template)]
  | .var name => (f name).map (·, originOf name)

/-- The template with its values as they are. -/
def markedPlain (template : String) (vars : Vars) : Marked :=
  (pieces template.toList).flatMap (Piece.fillMarked fun name => (valueOf vars name).toList)

/-- What `substituteMarkdown` gives. A backslash comes from where the character after it does. -/
def markedMarkdown (template : String) (vars : Vars) : Marked :=
  (pieces template.toList).flatMap
    (Piece.fillMarked fun name => escapeValue name (valueOf vars name).toList)

/-- A line ends with LF, CR or both; between the two there is an empty line here. -/
def lines (text : Marked) : List Marked := text.splitOnP fun x => x.1 = '\n' || x.1 = '\r'

/-- The first character of the line that is no blank comes from a value. -/
def FromValue (line : Marked) : Prop :=
  ∃ x ∈ (line.dropWhile (isBlank ·.1)).head?, x.2 = .value

instance (line : Marked) : Decidable (FromValue line) :=
  inferInstanceAs (Decidable (∃ x ∈ (line.dropWhile (isBlank ·.1)).head?, x.2 = .value))

/-- No line of the Markdown source that begins with a character of a value starts a block. -/
structure BlocksFree (template : String) (vars : Vars) (markdown : String) : Prop where
  text : (markedMarkdown template vars).map Prod.fst = markdown.toList
  safe : ∀ line ∈ lines (markedMarkdown template vars),
    FromValue line → ¬startsBlock (line.map Prod.fst)

/-! ### Escapes -/

/-- What `escapeValue` does with a character. -/
def isEscapedAt (x : Char × Origin) : Bool :=
  match x.2 with
  | .template => false
  | .link => isMarkdownMeta x.1
  | .value => isMarkdownMeta x.1 || isAutolinkChar x.1

def escapeMarked (x : Char × Origin) : Marked := if isEscapedAt x then [('\\', x.2), x] else [x]

/-- The line with a flag on the characters that are escaped. -/
def flagged (line : Marked) : List (Char × Bool) := line.map fun x => (x.1, isEscapedAt x)

lemma isEscapedAt_originOf (name : String) (c : Char) :
    isEscapedAt (c, originOf name) = isEscaped name c := by
  by_cases hname : name = "link"
  · simp [isEscapedAt, originOf, isEscaped, trustedLinkVars, isMarkdownMeta, hname]
  · simp [isEscapedAt, originOf, isEscaped, trustedLinkVars, isMarkdownMeta, isAutolinkChar, hname]

lemma markedMarkdown_eq (template : String) (vars : Vars) :
    markedMarkdown template vars = (markedPlain template vars).flatMap escapeMarked := by
  rw [markedMarkdown, markedPlain, List.flatMap_assoc]
  apply List.flatMap_congr
  intro piece _
  cases piece with
  | text c => rfl
  | var name =>
    rw [Piece.fillMarked, Piece.fillMarked, escapeValue_eq]
    induction (valueOf vars name).toList with
    | nil => rfl
    | cons c value ih =>
      rw [escapeChars_cons, List.map_append, ih, List.map_cons, List.flatMap_cons]
      apply congrArg (· ++ _)
      rw [escapeMarked, isEscapedAt_originOf, escapeChar]
      split_ifs <;> rfl

lemma markedMarkdown_text {template markdown : String} {vars : Vars}
    (h : substituteMarkdown template vars = some markdown) :
    (markedMarkdown template vars).map Prod.fst = markdown.toList := by
  rw [substituteMarkdown] at h
  split_ifs at h
  obtain rfl := Option.some.inj h
  rw [String.toList_ofList, markedMarkdown, replaceVars, List.map_flatMap]
  apply List.flatMap_congr
  intro piece _
  cases piece with
  | text c => rfl
  | var name => simp [Piece.fillMarked, Piece.fill, Function.comp_def]

lemma map_fst_escapeMarked (line : Marked) :
    (line.flatMap escapeMarked).map Prod.fst = render (flagged line) := by
  induction line with
  | nil => rfl
  | cons x line ih =>
    have hcons : flagged (x :: line) = (x.1, isEscapedAt x) :: flagged line := rfl
    rw [List.flatMap_cons, List.map_append, ih, hcons, render_cons]
    apply congrArg (· ++ _)
    rw [escapeMarked]
    split_ifs <;> rfl

lemma isPlain_of_isEscapedAt {x : Char × Origin} (h : isEscapedAt x) : isPlain x.1 = false := by
  have hchar : isMarkdownMeta x.1 ∨ isAutolinkChar x.1 := by
    obtain ⟨c, origin⟩ := x
    cases origin with
    | template => cases h
    | link => exact Or.inl h
    | value => exact Bool.or_eq_true_iff.mp h
  simp only [isMarkdownMeta, isAutolinkChar, List.mem_cons, List.not_mem_nil, or_false,
    decide_eq_true_eq] at hchar
  rcases hchar with (hc | hc | hc | hc | hc | hc | hc | hc | hc | hc | hc | hc | hc) | hc | hc | hc
    <;> rw [hc] <;> decide

lemma flagsNoPlain_flagged (line : Marked) : FlagsNoPlain (flagged line) := by
  intro x hx hflag
  obtain ⟨y, -, rfl⟩ := List.mem_map.mp hx
  exact isPlain_of_isEscapedAt hflag

/-! ### Lines -/

lemma lines_markedMarkdown (template : String) (vars : Vars) :
    lines (markedMarkdown template vars)
      = (lines (markedPlain template vars)).map (List.flatMap escapeMarked) := by
  rw [markedMarkdown_eq, lines, lines]
  apply splitOnP_flatMap
  · rintro ⟨c, origin⟩ hc
    have hplain : isEscapedAt (c, origin) = false := by
      rcases Bool.or_eq_true_iff.mp hc with hc | hc <;>
        obtain rfl : c = _ := of_decide_eq_true hc <;> cases origin <;> decide
    rw [escapeMarked, hplain]
    rfl
  · intro x hx y hy
    rw [escapeMarked] at hy
    split_ifs at hy
    · rcases List.mem_cons.mp hy with rfl | hy
      · rfl
      · rwa [List.mem_singleton.mp hy]
    · rwa [List.mem_singleton.mp hy]

/-- The first character of a line comes from a value with its escape as without. -/
lemma dropWhile_escapeMarked (line : Marked) :
    (line.flatMap escapeMarked).dropWhile (isBlank ·.1)
      = (line.dropWhile (isBlank ·.1)).flatMap escapeMarked := by
  induction line with
  | nil => rfl
  | cons x line ih =>
    rw [List.flatMap_cons, List.dropWhile_cons]
    by_cases hblank : isBlank x.1
    · have hplain : isEscapedAt x = false := by
        by_contra hescaped
        have hchar := isPlain_of_isEscapedAt (by simpa using hescaped)
        simp [isPlain, hblank] at hchar
      rw [if_pos hblank, ← ih, escapeMarked, hplain]
      simp [hblank]
    · rw [if_neg hblank, List.flatMap_cons, escapeMarked]
      split_ifs with hescaped
      · simp [show isBlank '\\' = false by decide]
      · simp [hblank]

lemma fromValue_escapeMarked (line : Marked) :
    FromValue (line.flatMap escapeMarked) ↔ FromValue line := by
  rw [FromValue, FromValue, dropWhile_escapeMarked]
  cases line.dropWhile (isBlank ·.1) with
  | nil => rfl
  | cons x line =>
    rw [List.flatMap_cons, escapeMarked]
    split_ifs <;> simp

/-- A line that begins with a character of a value starts a block, its escapes put in, exactly when
it does so with what the escapes leave alone. -/
lemma startsBlock_escapeMarked {line : Marked} (h : FromValue line) :
    startsBlock ((line.flatMap escapeMarked).map Prod.fst)
      = startsBlockUnescaped (flagged line) := by
  rw [map_fst_escapeMarked]
  apply startsBlock_render (flagsNoPlain_flagged line)
  obtain ⟨x, hx, hvalue⟩ := h
  have hhead : ((flagged line).dropWhile (isBlank ·.1)).head? = some (x.1, isEscapedAt x) := by
    rw [flagged, List.dropWhile_map, List.head?_map]
    exact congrArg (Option.map fun x => (x.1, isEscapedAt x)) hx
  rw [hhead]
  rintro _ ⟨⟩
  by_cases hmarker : x.1 ∈ ['*', '_', '>', '`']
  · left
    rw [isEscapedAt, hvalue]
    simp only [List.mem_cons, List.not_mem_nil, or_false] at hmarker
    rcases hmarker with hc | hc | hc | hc <;> rw [hc] <;> decide
  · exact Or.inr hmarker

/-- A line that begins with a character of a value starts no block, whatever follows in it, exactly
when no such line of the template with the values as they are begins with what is left unescaped. -/
theorem blocksFree_iff (template : String) (vars : Vars) (markdown : String)
    (h : substituteMarkdown template vars = some markdown) :
    BlocksFree template vars markdown ↔ ∀ line ∈ lines (markedPlain template vars),
      FromValue line → ¬startsBlockUnescaped (flagged line) := by
  constructor
  · rintro ⟨-, hsafe⟩ line hline hvalue
    rw [← startsBlock_escapeMarked hvalue]
    apply hsafe
    · rw [lines_markedMarkdown]
      exact List.mem_map_of_mem hline
    · exact (fromValue_escapeMarked line).mpr hvalue
  · intro hplain
    refine ⟨markedMarkdown_text h, fun escaped hescaped hvalue => ?_⟩
    rw [lines_markedMarkdown] at hescaped
    obtain ⟨line, hline, rfl⟩ := List.mem_map.mp hescaped
    rw [fromValue_escapeMarked] at hvalue
    rw [startsBlock_escapeMarked hvalue]
    exact hplain line hline hvalue

/-- A message of two lines in a line of its own. -/
theorem blocksFree_message : BlocksFree "**Message:**\n\x7b\x7bmessage\x7d\x7d"
    [("message", "> 1. Hello\n1) _there_")]
    "**Message:**\n\\> 1\\. Hello\n1\\) \\_there\\_" :=
  (blocksFree_iff _ _ _ (by decide)).mpr (by decide)

/-- A visitor's message becomes a heading. -/
theorem blocksFree_fails : substituteMarkdown "\x7b\x7bmessage\x7d\x7d" [("message", "# Hello")]
      = some "# Hello" ∧
    ¬BlocksFree "\x7b\x7bmessage\x7d\x7d" [("message", "# Hello")] "# Hello" := by
  refine ⟨by decide, ?_⟩
  rintro ⟨-, hsafe⟩
  exact absurd hsafe (by decide)

end SafeerApi.Mail.RenderTemplate
