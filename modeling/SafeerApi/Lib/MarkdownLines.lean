import Mathlib.Data.List.Basic
import Mathlib.Data.List.TakeWhile
import Mathlib.Tactic.Common

/-!
# The lines that start a block in CommonMark

A line that is not indented by four columns or more starts a block when it begins with a marker: a
heading, the underline of one, a quote, the item of a list, a thematic break or a code fence.
Whether a line of that form does start a block where it stands also depends on the lines before it;
this is the form alone.

A backslash before a character of the marker keeps a line from having the form. A text whose
characters are to be escaped or not is a list of characters with a flag.
-/

namespace SafeerApi.Lib.MarkdownLines

/-! ### Markers -/

/-- The characters of an indentation. -/
def isBlank (c : Char) : Bool := c = ' ' || c = '\t'

/-- The columns a line is indented by. A tab goes on to the next multiple of four. -/
def indentation (line : List Char) : ℕ :=
  (line.takeWhile isBlank).foldl
    (fun column c => if c = '\t' then column + (4 - column % 4) else column + 1) 0

/-- A marker ends before a blank, and at the end of the line. -/
def endsMarker (rest : List Char) : Bool := rest.head?.all isBlank

def isAtxHeading (body : List Char) : Bool :=
  let hashes := (body.takeWhile (· = '#')).length
  1 ≤ hashes && hashes ≤ 6 && endsMarker (body.dropWhile (· = '#'))

/-- The underline of a setext heading is made of `=` or of `-`. -/
def isUnderlineOf (c : Char) (body : List Char) : Bool :=
  body.head? = some c && (body.dropWhile (· = c)).all isBlank

/-- A thematic break is made of three `*`, `-` or `_`, or more. -/
def isBreakOf (c : Char) (body : List Char) : Bool :=
  body.all (fun d => d = c || isBlank d) && 3 ≤ body.count c

def isBulletOf (c : Char) : List Char → Bool
  | [] => false
  | d :: rest => d = c && endsMarker rest

def isOrderedItem (body : List Char) : Bool :=
  let digits := (body.takeWhile Char.isDigit).length
  1 ≤ digits && digits ≤ 9 &&
    match body.dropWhile Char.isDigit with
    | [] => false
    | d :: rest => (d = '.' || d = ')') && endsMarker rest

def isTildeFence (body : List Char) : Bool := 3 ≤ (body.takeWhile (· = '~')).length

/-- The info string after a fence of backticks contains no backtick. -/
def isBacktickFence (body : List Char) : Bool :=
  3 ≤ (body.takeWhile (· = '`')).length && (body.dropWhile (· = '`')).all (· ≠ '`')

/-- A line that has the form of a block's first line, or of the underline of a heading. -/
def startsBlock (line : List Char) : Bool :=
  let body := line.dropWhile isBlank
  body ≠ [] && (4 ≤ indentation line || isAtxHeading body ||
    ['=', '-'].any (isUnderlineOf · body) || body.head? = some '>' ||
    ['-', '+', '*'].any (isBulletOf · body) || isOrderedItem body ||
    ['*', '-', '_'].any (isBreakOf · body) || isBacktickFence body || isTildeFence body)

/-! ### Escaped characters -/

/-- A text, its flagged characters with a backslash before them. -/
def render (line : List (Char × Bool)) : List Char :=
  line.flatMap fun x => if x.2 then ['\\', x.1] else [x.1]

/-- The characters that no flag is put on here. -/
def isPlain (c : Char) : Bool :=
  isBlank c || c.isDigit || c = '#' || c = '=' || c = '-' || c = '+' || c = '~'

/-- The item of an ordered list, whose delimiter is not escaped. -/
def isOrderedItemUnescaped (body : List (Char × Bool)) : Bool :=
  let digits := (body.takeWhile (·.1.isDigit)).length
  1 ≤ digits && digits ≤ 9 &&
    match body.dropWhile (·.1.isDigit) with
    | [] => false
    | d :: rest => !d.2 && (d.1 = '.' || d.1 = ')') && endsMarker (rest.map Prod.fst)

/-- A line that starts a block although none of `*`, `_`, `>` and the backtick begins it unescaped:
it is indented, or it begins with a marker that is made of plain characters. -/
def startsBlockUnescaped (line : List (Char × Bool)) : Bool :=
  let body := line.dropWhile (isBlank ·.1)
  let text := body.map Prod.fst
  body ≠ [] && (4 ≤ indentation (line.map Prod.fst) || isAtxHeading text ||
    ['=', '-'].any (isUnderlineOf · text) || ['-', '+'].any (isBulletOf · text) ||
    isOrderedItemUnescaped body || isBreakOf '-' text || isTildeFence text)

variable {line : List (Char × Bool)}

/-- No plain character is flagged. -/
def FlagsNoPlain (line : List (Char × Bool)) : Prop := ∀ x ∈ line, x.2 → isPlain x.1 = false

@[simp] lemma render_nil : render [] = [] := rfl

lemma render_cons (x : Char × Bool) (line : List (Char × Bool)) :
    render (x :: line) = (if x.2 then ['\\', x.1] else [x.1]) ++ render line := rfl

lemma FlagsNoPlain.tail {x : Char × Bool} (h : FlagsNoPlain (x :: line)) : FlagsNoPlain line :=
  fun y hy => h y (List.mem_cons_of_mem _ hy)

lemma FlagsNoPlain.dropWhile (h : FlagsNoPlain line) (p : Char × Bool → Bool) :
    FlagsNoPlain (line.dropWhile p) :=
  fun x hx => h x ((List.dropWhile_sublist p).subset hx)

section Runs

variable {p : Char → Bool} (hslash : p '\\' = false) (hplain : ∀ c, p c → isPlain c)

include hslash hplain

/-- The first character decides the same for a flagged text and for what it is written as. -/
lemma render_head (h : FlagsNoPlain line) :
    (render line).head?.any p = (line.map Prod.fst).head?.any p := by
  cases line with
  | nil => rfl
  | cons x line =>
    rw [render_cons]
    split_ifs with hx
    · have hp : p x.1 = false := by
        by_contra hp
        have hflag := h x List.mem_cons_self hx
        rw [hplain x.1 (by simpa using hp)] at hflag
        cases hflag
      simp [hslash, hp]
    · simp

lemma takeWhile_render (h : FlagsNoPlain line) :
    (render line).takeWhile p = (line.map Prod.fst).takeWhile p := by
  induction line with
  | nil => rfl
  | cons x line ih =>
    have hhead := render_head hslash hplain h
    rw [render_cons] at hhead ⊢
    split_ifs at hhead ⊢ with hx
    · have hp : p x.1 = false := by simpa [hslash] using hhead.symm
      simp [hslash, hp]
    · simp [List.takeWhile_cons, ih h.tail]

lemma dropWhile_render (h : FlagsNoPlain line) :
    (render line).dropWhile p = render (line.dropWhile (p ·.1)) := by
  induction line with
  | nil => rfl
  | cons x line ih =>
    have hhead := render_head hslash hplain h
    rw [render_cons] at hhead
    rw [List.dropWhile_cons]
    split_ifs at hhead with hx
    · have hp : p x.1 = false := by simpa [hslash] using hhead.symm
      rw [hp, if_neg Bool.false_ne_true, render_cons, if_pos hx]
      simp [hslash]
    · by_cases hp : p x.1
      · rw [if_pos hp, ← ih h.tail, render_cons, if_neg hx]
        simp [hp]
      · rw [if_neg hp, render_cons, if_neg hx]
        simp [hp]

lemma all_render (h : FlagsNoPlain line) : (render line).all p = (line.map Prod.fst).all p := by
  induction line with
  | nil => rfl
  | cons x line ih =>
    have hhead := render_head hslash hplain h
    rw [render_cons] at hhead ⊢
    split_ifs at hhead ⊢ with hx
    · have hp : p x.1 = false := by simpa [hslash] using hhead.symm
      simp [hslash, hp]
    · simpa using congrArg (p x.1 && ·) (ih h.tail)

end Runs

/-! ### Escaped markers -/

/-- The markers that are written with plain characters are those of the text without its flags. -/
lemma endsMarker_render (h : FlagsNoPlain line) :
    endsMarker (render line) = endsMarker (line.map Prod.fst) := by
  have hhead := render_head (p := isBlank) (by decide) (fun c hc => by simp [isPlain, hc]) h
  cases line with
  | nil => rfl
  | cons x line =>
    rw [render_cons] at hhead ⊢
    split_ifs at hhead ⊢ with hx
    · have hblank : isBlank x.1 = false := by simpa [isBlank] using hhead.symm
      simpa [endsMarker, hblank] using (by decide : isBlank '\\' = false)
    · simp [endsMarker]

lemma isAtxHeading_render (h : FlagsNoPlain line) :
    isAtxHeading (render line) = isAtxHeading (line.map Prod.fst) := by
  have hplain : ∀ c : Char, decide (c = '#') = true → isPlain c = true := by
    rintro c hc
    simp [isPlain, of_decide_eq_true hc]
  rw [isAtxHeading, takeWhile_render (by decide) hplain h, dropWhile_render (by decide) hplain h,
    endsMarker_render (h.dropWhile _), isAtxHeading, List.dropWhile_map]
  rfl

lemma isUnderlineOf_render {c : Char} (hc : isPlain c) (h : FlagsNoPlain line) :
    isUnderlineOf c (render line) = isUnderlineOf c (line.map Prod.fst) := by
  have hslash : decide ('\\' = c) = false := by
    rw [decide_eq_false_iff_not]
    rintro rfl
    exact absurd hc (by decide)
  have hplain : ∀ d : Char, decide (d = c) = true → isPlain d = true := by
    rintro d hd
    rw [of_decide_eq_true hd, hc]
  have hhead : ∀ text : List Char, decide (text.head? = some c) = text.head?.any (· = c) := by
    intro text
    cases text <;> simp
  rw [isUnderlineOf, hhead, render_head hslash hplain h, dropWhile_render hslash hplain h,
    all_render (p := isBlank) (by decide) (fun d hd => by simp [isPlain, hd]) (h.dropWhile _),
    isUnderlineOf, hhead, List.dropWhile_map]
  rfl

lemma isBulletOf_render {c : Char} (hc : isPlain c) (h : FlagsNoPlain line) :
    isBulletOf c (render line) = isBulletOf c (line.map Prod.fst) := by
  cases line with
  | nil => rfl
  | cons x line =>
    by_cases hx : x.2
    · have hne : x.1 ≠ c := by
        rintro rfl
        rw [h x List.mem_cons_self hx] at hc
        cases hc
      have hslash : '\\' ≠ c := by
        rintro rfl
        exact absurd hc (by decide)
      simp [render_cons, hx, isBulletOf, hne, hslash]
    · simp [render_cons, hx, isBulletOf, endsMarker_render h.tail]

lemma isOrderedItem_render (h : FlagsNoPlain line) :
    isOrderedItem (render line) = isOrderedItemUnescaped line := by
  have hplain : ∀ c : Char, c.isDigit = true → isPlain c = true := by
    intro c hc
    simp [isPlain, hc]
  rw [isOrderedItem, takeWhile_render (by decide) hplain h, dropWhile_render (by decide) hplain h,
    isOrderedItemUnescaped, List.takeWhile_map, List.length_map]
  simp only [Function.comp_def]
  have hrest := h.dropWhile (·.1.isDigit)
  cases hdrop : line.dropWhile (·.1.isDigit) with
  | nil => rfl
  | cons d rest =>
    rw [hdrop] at hrest
    by_cases hd : d.2
    · simp [render_cons, hd]
    · simp [render_cons, hd, endsMarker_render hrest.tail]

/-- A line of dashes and blanks has no flags. -/
lemma isBreakOf_dash_render (h : FlagsNoPlain line) :
    isBreakOf '-' (render line) = isBreakOf '-' (line.map Prod.fst) := by
  have hplain : ∀ c : Char, (decide (c = '-') || isBlank c) = true → isPlain c = true := by
    intro c hc
    rcases Bool.or_eq_true_iff.mp hc with hc | hc
    · simp [isPlain, of_decide_eq_true hc]
    · simp [isPlain, hc]
  have hall := all_render (by decide) hplain h
  have hcount : (render line).count '-' = (line.map Prod.fst).count '-' := by
    clear hall
    induction line with
    | nil => rfl
    | cons x line ih =>
      by_cases hx : x.2
      · have hne : x.1 ≠ '-' := by
          intro heq
          have hflag := h x List.mem_cons_self hx
          rw [heq] at hflag
          exact absurd hflag (by decide)
        simp [render_cons, hx, hne, ih h.tail]
      · simp [render_cons, hx, List.count_cons, ih h.tail]
  rw [isBreakOf, hall, hcount, isBreakOf]

lemma isTildeFence_render (h : FlagsNoPlain line) :
    isTildeFence (render line) = isTildeFence (line.map Prod.fst) := by
  have hplain : ∀ c : Char, decide (c = '~') = true → isPlain c = true := by
    rintro c hc
    simp [isPlain, of_decide_eq_true hc]
  rw [isTildeFence, takeWhile_render (by decide) hplain h, isTildeFence]

/-- A marker that the line does not begin with. -/
lemma isBulletOf_of_head {c : Char} {body : List Char} (h : body.head? ≠ some c) :
    isBulletOf c body = false := by
  cases body with
  | nil => rfl
  | cons d rest =>
    have hne : d ≠ c := by simpa using h
    simp [isBulletOf, hne]

lemma isBreakOf_of_head {c d : Char} {rest : List Char} (hc : d ≠ c) (hblank : isBlank d = false) :
    isBreakOf c (d :: rest) = false := by
  simp [isBreakOf, hc, hblank]

lemma isBacktickFence_of_head {body : List Char} (h : body.head? ≠ some '`') :
    isBacktickFence body = false := by
  cases body with
  | nil => rfl
  | cons d rest =>
    have hne : d ≠ '`' := by simpa using h
    simp [isBacktickFence, hne]

/-- Where every `*`, `_`, `>` and backtick that begins a line is escaped, the line starts a block
only with what the escapes leave alone. -/
theorem startsBlock_render (h : FlagsNoPlain line)
    (hfirst : ∀ x ∈ (line.dropWhile (isBlank ·.1)).head?, x.2 ∨ x.1 ∉ ['*', '_', '>', '`']) :
    startsBlock (render line) = startsBlockUnescaped line := by
  have hblankPlain : ∀ c : Char, isBlank c = true → isPlain c = true := by
    intro c hc
    simp [isPlain, hc]
  have hindent : indentation (render line) = indentation (line.map Prod.fst) := by
    rw [indentation, takeWhile_render (by decide) hblankPlain h, indentation]
  have hbody := h.dropWhile (isBlank ·.1)
  rw [startsBlock, dropWhile_render (by decide) hblankPlain h, hindent, startsBlockUnescaped]
  have hnonblank : ∀ x ∈ (line.dropWhile (isBlank ·.1)).head?, isBlank x.1 = false := by
    intro x hx
    have hhead := List.head?_dropWhile_not (isBlank ·.1) line
    rw [hx] at hhead
    simpa using hhead
  cases hdrop : line.dropWhile (isBlank ·.1) with
  | nil => rfl
  | cons x body =>
    rw [hdrop] at hbody hfirst hnonblank
    have hblank : isBlank x.1 = false := hnonblank x rfl
    -- the first character of what is written
    obtain ⟨d, rest, hrender, hd⟩ : ∃ d rest, render (x :: body) = d :: rest ∧
        isBlank d = false ∧ d ∉ ['*', '_', '>', '`'] := by
      by_cases hx : x.2
      · exact ⟨'\\', x.1 :: render body, by simp [render_cons, hx], by decide, by decide⟩
      · exact ⟨x.1, render body, by simp [render_cons, hx], hblank,
          (hfirst x rfl).resolve_left hx⟩
    obtain ⟨hdblank, hdmarker⟩ := hd
    simp only [List.mem_cons, List.not_mem_nil, or_false, not_or] at hdmarker
    obtain ⟨hstar, hunderscore, hquote, hbacktick⟩ := hdmarker
    have hhead : (render (x :: body)).head? = some d := by rw [hrender]; rfl
    have hne : render (x :: body) ≠ [] := by simp [hrender]
    simp only [List.any_cons, List.any_nil, Bool.or_false, isAtxHeading_render hbody,
      isUnderlineOf_render (c := '=') (by decide) hbody,
      isUnderlineOf_render (c := '-') (by decide) hbody,
      isBulletOf_render (c := '-') (by decide) hbody,
      isBulletOf_render (c := '+') (by decide) hbody, isOrderedItem_render hbody,
      isBreakOf_dash_render hbody, isTildeFence_render hbody]
    rw [isBulletOf_of_head (c := '*') (by rw [hhead]; simpa using hstar),
      isBacktickFence_of_head (by rw [hhead]; simpa using hbacktick), hrender,
      isBreakOf_of_head hstar hdblank, isBreakOf_of_head hunderscore hdblank]
    simp [hquote]

end SafeerApi.Lib.MarkdownLines
