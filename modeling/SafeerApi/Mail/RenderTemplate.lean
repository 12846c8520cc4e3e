import Mathlib.Data.List.TakeWhile
import SafeerApi.Common.ListParams
import SafeerApi.Lib.Backslash

/-!
# Mail templates (`mail/render-template.ts`)

A template is Markdown with placeholders in it. The HTML part of a mail is made from the template
with the values escaped, the plain-text part from the template with the values as they are.
-/

namespace SafeerApi.Mail.RenderTemplate

open Common Lib

/-! ### Placeholders -/

/-- `\w` -/
def isWordChar (c : Char) : Bool :=
  ('a' ≤ c && c ≤ 'z') || ('A' ≤ c && c ≤ 'Z') || c.isDigit || c = '_'

/-- `VAR_PATTERN` at the start of a text: the name, and the text after the match. -/
def matchVarPattern : List Char → Option (String × List Char)
  | '{' :: '{' :: text =>
    let text := text.dropWhile isWhiteSpace
    let name := text.takeWhile isWordChar
    let text := (text.dropWhile isWordChar).dropWhile isWhiteSpace
    match text with
    | '}' :: '}' :: after => if name = [] then none else some (String.ofList name, after)
    | _ => none
  | _ => none

/-- A text that `VAR_PATTERN` matches as a whole. -/
structure IsPlaceholder (placeholder : List Char) (name : String) : Prop where
  word : name.toList ≠ [] ∧ ∀ c ∈ name.toList, isWordChar c
  shape : ∃ before after, (∀ c ∈ before ++ after, isWhiteSpace c) ∧
    placeholder = '{' :: '{' :: (before ++ name.toList ++ after ++ ['}', '}'])

lemma IsPlaceholder.ne_nil {placeholder : List Char} {name : String}
    (h : IsPlaceholder placeholder name) : placeholder ≠ [] := by
  obtain ⟨-, before, after, -, rfl⟩ := h
  exact List.cons_ne_nil _ _

/-- What is matched is a placeholder. -/
lemma isPlaceholder_of_matchVarPattern {text after : List Char} {name : String}
    (h : matchVarPattern text = some (name, after)) :
    ∃ placeholder, IsPlaceholder placeholder name ∧ text = placeholder ++ after := by
  unfold matchVarPattern at h
  split at h
  · next text =>
    simp only at h
    split at h
    · next rest heq =>
      split_ifs at h with hname
      obtain ⟨rfl, rfl⟩ := Prod.mk.inj (Option.some.inj h)
      have hbefore := List.takeWhile_append_dropWhile (p := isWhiteSpace) (l := text)
      have hword := List.takeWhile_append_dropWhile (p := isWordChar)
        (l := text.dropWhile isWhiteSpace)
      have hafter := List.takeWhile_append_dropWhile (p := isWhiteSpace)
        (l := (text.dropWhile isWhiteSpace).dropWhile isWordChar)
      rw [heq] at hafter
      refine ⟨_, ⟨⟨by simpa using hname, ?_⟩, text.takeWhile isWhiteSpace,
        ((text.dropWhile isWhiteSpace).dropWhile isWordChar).takeWhile isWhiteSpace, ?_, rfl⟩, ?_⟩
      · intro c hc
        rw [String.toList_ofList] at hc
        exact List.mem_takeWhile_imp hc
      · intro c hc
        rcases List.mem_append.mp hc with hc | hc <;> exact List.mem_takeWhile_imp hc
      · conv_lhs => rw [← hbefore, ← hword, ← hafter]
        simp
    · cases h
  · cases h

lemma matchVarPattern_length {text after : List Char} {name : String}
    (h : matchVarPattern text = some (name, after)) : after.length < text.length := by
  obtain ⟨placeholder, hplaceholder, rfl⟩ := isPlaceholder_of_matchVarPattern h
  have hpos := List.length_pos_of_ne_nil hplaceholder.ne_nil
  rw [List.length_append]
  omega

/-- What a template is made of. -/
inductive Piece where
  | text (c : Char)
  | var (name : String)
  deriving DecidableEq, Repr

/-- Where the matches of `VAR_PATTERN` are, from left to right. The first `skip` characters belong to
a match that was found before. -/
def piecesFrom (skip : ℕ) : List Char → List Piece
  | [] => []
  | c :: rest =>
    match skip with
    | skip + 1 => piecesFrom skip rest
    | 0 =>
      match matchVarPattern (c :: rest) with
      | some (name, after) => .var name :: piecesFrom (rest.length - after.length) rest
      | none => .text c :: piecesFrom 0 rest

def pieces (text : List Char) : List Piece := piecesFrom 0 text

def Piece.name? : Piece → Option String
  | .text _ => none
  | .var name => some name

def extractVariables (text : String) : List String := (pieces text.toList).filterMap Piece.name?

def Piece.fill (f : String → List Char) : Piece → List Char
  | .text c => [c]
  | .var name => f name

/-- `text.replace(VAR_PATTERN, ..)`: each match is replaced by what `f` gives for its name, and what
is put in is not searched again. -/
def replaceVars (f : String → List Char) (text : List Char) : List Char :=
  (pieces text).flatMap (Piece.fill f)

/-! ### Values -/

/-- What every object inherits. -/
def objectPrototype : List String :=
  ["constructor", "hasOwnProperty", "isPrototypeOf", "propertyIsEnumerable", "toLocaleString",
    "toString", "valueOf", "__proto__", "__defineGetter__", "__defineSetter__", "__lookupGetter__",
    "__lookupSetter__"]

abbrev Vars := List (String × String)

/-- `vars[name]` is neither a string nor `undefined`. -/
def isInherited (vars : Vars) (name : String) : Bool :=
  vars.lookup name = none && name ∈ objectPrototype

/-- `vars[name] ?? ''` -/
def valueOf (vars : Vars) (name : String) : String := (vars.lookup name).getD ""

/-- `MARKDOWN_METACHARS` -/
def isMarkdownMeta (c : Char) : Bool :=
  c ∈ ['\\', '[', ']', '(', ')', '`', '*', '_', '<', '>', '!', '{', '}']

def escapeMarkdown (value : List Char) : List Char := escapeChars isMarkdownMeta value

/-- `AUTOLINK_CHARS` -/
def isAutolinkChar (c : Char) : Bool := c ∈ [':', '.', '@']

def trustedLinkVars : List String := ["link"]

def escapeValue (name : String) (value : List Char) : List Char :=
  let escaped := escapeMarkdown value
  if name ∈ trustedLinkVars then escaped else escapeChars isAutolinkChar escaped

/-- `none` is the error of calling `replace` on what is not a string. -/
def substituteMarkdown (markdown : String) (vars : Vars) : Option String :=
  if (extractVariables markdown).any (isInherited vars) then none
  else some (String.ofList
    (replaceVars (fun name => escapeValue name (valueOf vars name).toList) markdown.toList))

/-- What is inherited is put in as a text, `inheritedText`. -/
def substitutePlain (inheritedText : String → String) (markdown : String) (vars : Vars) : String :=
  String.ofList (replaceVars
    (fun name =>
      if isInherited vars name then (inheritedText name).toList else (valueOf vars name).toList)
    markdown.toList)

/-! ### Where the placeholders are -/

lemma isWhiteSpace_of_isWordChar {c : Char} (h : isWordChar c) : isWhiteSpace c = false := by
  simp only [isWordChar, Char.isDigit, Bool.or_eq_true, Bool.and_eq_true, decide_eq_true_eq,
    Char.le_def, UInt32.le_iff_toNat_le] at h
  rcases h with ((⟨h₁, h₂⟩ | ⟨h₁, h₂⟩) | ⟨h₁, h₂⟩) | rfl
  · exact isWhiteSpace_of_visible ((by decide : 0x21 ≤ 'a'.toNat).trans h₁)
      (lt_of_le_of_lt h₂ (by decide))
  · exact isWhiteSpace_of_visible ((by decide : 0x21 ≤ 'A'.toNat).trans h₁)
      (lt_of_le_of_lt h₂ (by decide))
  · exact isWhiteSpace_of_visible ((by decide : 0x21 ≤ '0'.toNat).trans h₁)
      (lt_of_le_of_lt h₂ (by decide))
  · decide

lemma takeWhile_append_of_head {p : Char → Bool} {text : List Char} (htext : ∀ c ∈ text, p c)
    (rest : List Char) (hrest : rest.head?.all (!p ·)) :
    (text ++ rest).takeWhile p = text ∧ (text ++ rest).dropWhile p = rest := by
  have hhead : rest.takeWhile p = [] ∧ rest.dropWhile p = rest := by
    cases rest with
    | nil => exact ⟨rfl, rfl⟩
    | cons c rest =>
      have hc : p c = false := by simpa using hrest
      simp [hc]
  rw [List.takeWhile_append_of_pos htext, List.dropWhile_append_of_pos htext, hhead.1, hhead.2,
    List.append_nil]
  exact ⟨rfl, rfl⟩

/-- A placeholder at the start of a text is matched. -/
lemma matchVarPattern_placeholder {placeholder : List Char} {name : String}
    (h : IsPlaceholder placeholder name) (rest : List Char) :
    matchVarPattern (placeholder ++ rest) = some (name, rest) := by
  obtain ⟨⟨hne, hword⟩, before, after, hwhite, rfl⟩ := h
  obtain ⟨hbefore, hafter⟩ := List.forall_mem_append.mp hwhite
  obtain ⟨c, cs, hname⟩ := List.exists_cons_of_ne_nil hne
  have hshape : '{' :: '{' :: (before ++ name.toList ++ after ++ ['}', '}']) ++ rest
      = '{' :: '{' :: (before ++ (name.toList ++ (after ++ '}' :: '}' :: rest))) := by simp
  -- the first character that is not taken, in each of the three steps
  have hstart := (takeWhile_append_of_head hbefore
    (name.toList ++ (after ++ '}' :: '}' :: rest)) (by
      rw [hname] at hword ⊢
      simpa using isWhiteSpace_of_isWordChar (hword c List.mem_cons_self))).2
  have hmid := takeWhile_append_of_head hword (after ++ '}' :: '}' :: rest) (by
      cases after with
      | nil => rfl
      | cons d after =>
        have hd := hafter d List.mem_cons_self
        by_contra hw
        have hw' : isWordChar d = true := by simpa using hw
        rw [isWhiteSpace_of_isWordChar hw'] at hd
        cases hd)
  have hend := (takeWhile_append_of_head hafter ('}' :: '}' :: rest) rfl).2
  rw [hshape, matchVarPattern]
  simp only [hstart, hmid.1, hmid.2, hend, if_neg hne, String.ofList_toList]

/-- A brace opens a placeholder only as one of its first two characters. -/
lemma IsPlaceholder.eq_of_append {placeholder pre post : List Char} {name : String}
    (h : IsPlaceholder placeholder name) (hsplit : placeholder = pre ++ '{' :: post)
    (hpre : pre ≠ []) : pre = ['{'] ∧ '{' ∉ post ∧ post ≠ [] := by
  obtain ⟨⟨-, hword⟩, before, after, hwhite, rfl⟩ := h
  have hnone : '{' ∉ before ++ name.toList ++ after ++ ['}', '}'] := by
    obtain ⟨hbefore, hafter⟩ := List.forall_mem_append.mp hwhite
    simp only [List.mem_append, not_or]
    refine ⟨⟨⟨fun hmem => ?_, fun hmem => ?_⟩, fun hmem => ?_⟩, by decide⟩
    · exact absurd (hbefore _ hmem) (by decide)
    · exact absurd (hword _ hmem) (by decide)
    · exact absurd (hafter _ hmem) (by decide)
  match pre, hpre with
  | [c], _ =>
    simp only [List.cons_append, List.nil_append, List.cons.injEq, true_and] at hsplit
    obtain ⟨rfl, rfl⟩ := hsplit
    exact ⟨rfl, hnone, by simp⟩
  | c :: d :: pre, _ =>
    simp only [List.cons_append, List.cons.injEq] at hsplit
    rw [hsplit.2.2] at hnone
    simp at hnone

/-- A match does not reach into a placeholder that comes later. -/
lemma matchVarPattern_append {pre placeholder : List Char} {name : String}
    (h : IsPlaceholder placeholder name) (hpre : pre ≠ []) (rest : List Char) :
    matchVarPattern (pre ++ (placeholder ++ rest))
      = (matchVarPattern pre).map fun x => (x.1, x.2 ++ (placeholder ++ rest)) := by
  cases hmatch : matchVarPattern pre with
  | some x =>
    obtain ⟨found, hfound, rfl⟩ := isPlaceholder_of_matchVarPattern hmatch
    rw [List.append_assoc, matchVarPattern_placeholder hfound]
    rfl
  | none =>
    cases hwhole : matchVarPattern (pre ++ (placeholder ++ rest)) with
    | none => rfl
    | some x =>
      exfalso
      obtain ⟨found, hfound, heq⟩ := isPlaceholder_of_matchVarPattern hwhole
      rcases List.append_eq_append_iff.mp heq with ⟨tail, rfl, htail⟩ | ⟨tail, rfl, -⟩
      · -- the match would end in the later placeholder
        obtain ⟨-, before, after, -, rfl⟩ := h
        cases tail with
        | nil =>
          rw [List.append_nil] at hfound
          rw [← List.append_nil pre, matchVarPattern_placeholder hfound] at hmatch
          cases hmatch
        | cons c tail =>
          simp only [List.cons_append, List.cons.injEq] at htail
          obtain ⟨rfl, htail⟩ := htail
          obtain ⟨-, hnone, hne⟩ := hfound.eq_of_append rfl hpre
          cases tail with
          | nil => exact hne rfl
          | cons d tail =>
            simp only [List.cons_append, List.cons.injEq] at htail
            obtain ⟨rfl, -⟩ := htail
            exact hnone List.mem_cons_self
      · rw [matchVarPattern_placeholder hfound] at hmatch
        cases hmatch

@[simp] lemma pieces_nil : pieces [] = [] := rfl

lemma piecesFrom_eq (skip : ℕ) (text : List Char) :
    piecesFrom skip text = pieces (text.drop skip) := by
  induction text generalizing skip with
  | nil => rw [List.drop_nil, piecesFrom, pieces_nil]
  | cons c rest ih =>
    cases skip with
    | zero => rfl
    | succ skip => rw [piecesFrom, ih, List.drop_succ_cons]

lemma pieces_of_match {text after : List Char} {name : String}
    (h : matchVarPattern text = some (name, after)) : pieces text = .var name :: pieces after := by
  obtain ⟨placeholder, hplaceholder, rfl⟩ := isPlaceholder_of_matchVarPattern h
  obtain ⟨c, placeholder, rfl⟩ := List.exists_cons_of_ne_nil hplaceholder.ne_nil
  rw [List.cons_append] at h ⊢
  simp only [pieces, piecesFrom, h]
  rw [piecesFrom_eq, List.length_append, Nat.add_sub_cancel, List.drop_left]
  rfl

lemma pieces_of_no_match {c : Char} {rest : List Char} (h : matchVarPattern (c :: rest) = none) :
    pieces (c :: rest) = .text c :: pieces rest := by
  simp only [pieces, piecesFrom, h]

/-- A text is taken apart match by match. -/
lemma pieces_induction {P : List Char → Prop} (nil : P [])
    (matched : ∀ text name after, matchVarPattern text = some (name, after) → P after → P text)
    (literal : ∀ c rest, matchVarPattern (c :: rest) = none → P rest → P (c :: rest))
    (text : List Char) : P text := by
  induction hn : text.length using Nat.strong_induction_on generalizing text with
  | _ n ih =>
    subst hn
    cases hmatch : matchVarPattern text with
    | some x => exact matched text x.1 x.2 hmatch (ih _ (matchVarPattern_length hmatch) _ rfl)
    | none =>
      cases text with
      | nil => exact nil
      | cons c rest => exact literal c rest hmatch (ih _ (by simp) _ rfl)

/-- A placeholder is found wherever it stands. -/
lemma pieces_append_placeholder {placeholder : List Char} {name : String}
    (h : IsPlaceholder placeholder name) (pre post : List Char) :
    pieces (pre ++ (placeholder ++ post)) = pieces pre ++ .var name :: pieces post := by
  induction pre using pieces_induction with
  | nil =>
    rw [List.nil_append, pieces_of_match (matchVarPattern_placeholder h post), pieces_nil,
      List.nil_append]
  | matched pre found after hmatch ih =>
    have hne : pre ≠ [] := by
      rintro rfl
      cases hmatch
    have hwhole := matchVarPattern_append h hne post
    rw [hmatch, Option.map_some] at hwhole
    rw [pieces_of_match hwhole, pieces_of_match hmatch, ih, List.cons_append]
  | literal c rest hmatch ih =>
    have hwhole := matchVarPattern_append h (List.cons_ne_nil c rest) post
    rw [hmatch, Option.map_none, List.cons_append] at hwhole
    rw [List.cons_append, pieces_of_no_match hwhole, pieces_of_no_match hmatch, ih,
      List.cons_append]

lemma replaceVars_append_placeholder (f : String → List Char) {placeholder : List Char}
    {name : String} (h : IsPlaceholder placeholder name) (pre post : List Char) :
    replaceVars f (pre ++ (placeholder ++ post))
      = replaceVars f pre ++ (f name ++ replaceVars f post) := by
  rw [replaceVars, pieces_append_placeholder h, List.flatMap_append, List.flatMap_cons]
  rfl

/-- The text between the placeholders is the template's. -/
lemma mem_of_text_mem_pieces {c : Char} {text : List Char} (h : .text c ∈ pieces text) :
    c ∈ text := by
  induction text using pieces_induction with
  | nil => simp at h
  | matched text name after hmatch ih =>
    rw [pieces_of_match hmatch, List.mem_cons] at h
    obtain ⟨placeholder, -, rfl⟩ := isPlaceholder_of_matchVarPattern hmatch
    exact List.mem_append_right _ (ih (h.resolve_left (by simp)))
  | literal d rest hmatch ih =>
    rw [pieces_of_no_match hmatch, List.mem_cons] at h
    rcases h with heq | h
    · rw [Piece.text.inj heq]
      exact List.mem_cons_self
    · exact List.mem_cons_of_mem _ (ih h)

/-! ### The two parts of a mail -/

/-- The characters CommonMark takes a backslash escape for. -/
def isAsciiPunctuation (c : Char) : Bool :=
  (0x21 ≤ c.toNat && c.toNat ≤ 0x2F) || (0x3A ≤ c.toNat && c.toNat ≤ 0x40) ||
    (0x5B ≤ c.toNat && c.toNat ≤ 0x60) || (0x7B ≤ c.toNat && c.toNat ≤ 0x7E)

/-- The text a Markdown source stands for when its backslash escapes are undone. -/
def undoEscapes (markdown : String) : String :=
  String.ofList (unescape isAsciiPunctuation markdown.toList)

/-- Which characters of a value are to be escaped: the metacharacters, and in what is no trusted
link also those that GFM makes links of. -/
def isEscaped (name : String) (c : Char) : Bool :=
  c ∈ ['\\', '[', ']', '(', ')', '`', '*', '_', '<', '>', '!', '{', '}'] ||
    (name ≠ "link" && c ∈ [':', '.', '@'])

/-- The two passes over a value escape each character once. -/
lemma escapeValue_eq (name : String) (value : List Char) :
    escapeValue name value = escapeChars (isEscaped name) value := by
  have htrusted : name ∈ trustedLinkVars ↔ name = "link" := by simp [trustedLinkVars]
  by_cases hname : name = "link"
  · have hp : isEscaped name = isMarkdownMeta := by
      funext c
      simp [isEscaped, isMarkdownMeta, hname]
    rw [escapeValue, if_pos (htrusted.mpr hname), hp, escapeMarkdown]
  · have hp : isEscaped name = fun c => isMarkdownMeta c || isAutolinkChar c := by
      funext c
      simp [isEscaped, isMarkdownMeta, isAutolinkChar, hname]
    have hdisjoint : ∀ c, isMarkdownMeta c → isAutolinkChar c = false := by
      intro c hc
      simp only [isMarkdownMeta, List.mem_cons, List.not_mem_nil, or_false,
        decide_eq_true_eq] at hc
      rcases hc with rfl | rfl | rfl | rfl | rfl | rfl | rfl | rfl | rfl | rfl | rfl | rfl | rfl
        <;> decide
    rw [escapeValue, if_neg (mt htrusted.mp hname), hp, escapeMarkdown,
      escapeChars_escapeChars (by decide) hdisjoint]

lemma isAsciiPunctuation_of_isEscaped {name : String} {c : Char} (h : isEscaped name c) :
    isAsciiPunctuation c := by
  simp only [isEscaped, List.mem_cons, List.not_mem_nil, or_false, Bool.or_eq_true,
    Bool.and_eq_true, decide_eq_true_eq] at h
  rcases h with (rfl | rfl | rfl | rfl | rfl | rfl | rfl | rfl | rfl | rfl | rfl | rfl | rfl)
    | ⟨-, rfl | rfl | rfl⟩ <;> decide

/-- Undoing the escapes of the values gives the values back. -/
lemma unescape_replaceVars {template : List Char} (h : '\\' ∉ template)
    (value : String → List Char) :
    unescape isAsciiPunctuation (replaceVars (fun name => escapeValue name (value name)) template)
      = replaceVars value template := by
  have htext : ∀ c, .text c ∈ pieces template → c ≠ '\\' := by
    rintro c hc rfl
    exact h (mem_of_text_mem_pieces hc)
  rw [replaceVars, replaceVars]
  generalize pieces template = found at htext
  induction found with
  | nil => rfl
  | cons piece rest ih =>
    have hrest := ih fun c hc => htext c (List.mem_cons_of_mem _ hc)
    rw [List.flatMap_cons, List.flatMap_cons]
    cases piece with
    | text c =>
      rw [Piece.fill, Piece.fill, List.cons_append, List.nil_append,
        unescape_cons (htext c List.mem_cons_self), hrest]
      rfl
    | var name =>
      rw [Piece.fill, Piece.fill, escapeValue_eq, unescape_escapeChars_append (by simp [isEscaped])
        (fun c => isAsciiPunctuation_of_isEscaped), hrest]

lemma extractVariables_append_placeholder {placeholder : List Char} {name : String}
    (h : IsPlaceholder placeholder name) (pre post : List Char) :
    extractVariables (String.ofList (pre ++ (placeholder ++ post))) =
      extractVariables (String.ofList pre) ++ name :: extractVariables (String.ofList post) := by
  simp only [extractVariables, String.toList_ofList]
  rw [pieces_append_placeholder h, List.filterMap_append, List.filterMap_cons]
  rfl

lemma isInherited_eq_false_iff (vars : Vars) (name : String) :
    isInherited vars name = false ↔ name ∈ vars.map Prod.fst ∨ name ∉ objectPrototype := by
  have hlookup : vars.lookup name = none ↔ name ∉ vars.map Prod.fst := by
    rw [List.lookup_eq_none_iff]
    simp only [bne_iff_ne, List.mem_map, not_exists, not_and]
    exact forall₂_congr fun x _ => ne_comm
  simp only [isInherited, hlookup, Bool.and_eq_false_iff, decide_eq_false_iff_not, not_not]

lemma substituteMarkdown_eq_some {template : String} {vars : Vars}
    (h : ∀ name ∈ extractVariables template, isInherited vars name = false) :
    substituteMarkdown template vars = some (String.ofList
      (replaceVars (fun name => escapeValue name (valueOf vars name).toList) template.toList)) := by
  rw [substituteMarkdown, if_neg]
  rw [List.any_eq_true]
  rintro ⟨name, hname, hinherited⟩
  rw [h name hname] at hinherited
  cases hinherited

lemma substitutePlain_eq (inheritedText : String → String) {template : String} {vars : Vars}
    (h : ∀ name ∈ extractVariables template, isInherited vars name = false) :
    substitutePlain inheritedText template vars
      = String.ofList (replaceVars (fun name => (valueOf vars name).toList) template.toList) := by
  rw [substitutePlain]
  apply congrArg String.ofList
  apply List.flatMap_congr
  intro piece hpiece
  cases piece with
  | text c => rfl
  | var name =>
    have hname : name ∈ extractVariables template := List.mem_filterMap.mpr ⟨_, hpiece, rfl⟩
    rw [Piece.fill, Piece.fill, h name hname]
    rfl

/-- The two parts of a mail say the same: without its escapes the Markdown source is the plain
text. A value stands where its placeholder stood, as it is or escaped, whatever it contains. -/
theorem parts_agree (inheritedText : String → String) (template : String) (vars : Vars)
    (hslash : '\\' ∉ template.toList)
    (hvars : ∀ name ∈ extractVariables template,
      name ∈ vars.map Prod.fst ∨ name ∉ objectPrototype) :
    ∃ markdown, substituteMarkdown template vars = some markdown ∧
      undoEscapes markdown = substitutePlain inheritedText template vars ∧
      ∀ pre placeholder name post, IsPlaceholder placeholder name →
        template = String.ofList (pre ++ (placeholder ++ post)) →
        (∃ before after, substituteMarkdown (String.ofList pre) vars = some before ∧
          substituteMarkdown (String.ofList post) vars = some after ∧
          markdown = before
            ++ String.ofList (escapeChars (isEscaped name) (valueOf vars name).toList) ++ after) ∧
        substitutePlain inheritedText template vars
          = substitutePlain inheritedText (String.ofList pre) vars ++ valueOf vars name
            ++ substitutePlain inheritedText (String.ofList post) vars := by
  have hown : ∀ name ∈ extractVariables template, isInherited vars name = false :=
    fun name hname => (isInherited_eq_false_iff vars name).mpr (hvars name hname)
  refine ⟨_, substituteMarkdown_eq_some hown, ?_, ?_⟩
  · rw [substitutePlain_eq inheritedText hown, undoEscapes, String.toList_ofList,
      unescape_replaceVars hslash]
  · rintro pre placeholder name post hplaceholder rfl
    rw [extractVariables_append_placeholder hplaceholder] at hown
    have hpre := fun x hx => hown x (List.mem_append_left _ hx)
    have hpost := fun x hx => hown x (List.mem_append_right _ (List.mem_cons_of_mem _ hx))
    rw [← extractVariables_append_placeholder hplaceholder] at hown
    refine ⟨⟨_, _, substituteMarkdown_eq_some hpre, substituteMarkdown_eq_some hpost, ?_⟩, ?_⟩
    · simp only [String.toList_ofList]
      rw [replaceVars_append_placeholder _ hplaceholder, String.ofList_append,
        String.ofList_append, escapeValue_eq, String.append_assoc]
    · rw [substitutePlain_eq _ hown, substitutePlain_eq _ hpre, substitutePlain_eq _ hpost]
      simp only [String.toList_ofList]
      rw [replaceVars_append_placeholder _ hplaceholder, String.ofList_append,
        String.ofList_append, String.ofList_toList, String.append_assoc]

/-- A value that holds a placeholder, a backslash and a link. -/
theorem parts_agree_hostile : ∃ markdown,
    substituteMarkdown "Hi \x7b\x7b name \x7d\x7d" [("name", "\x7b\x7blink\x7d\x7d \\ a.b")]
      = some markdown ∧
    undoEscapes markdown = substitutePlain (fun name => name) "Hi \x7b\x7b name \x7d\x7d"
      [("name", "\x7b\x7blink\x7d\x7d \\ a.b")] := by
  obtain ⟨markdown, hmarkdown, hundo, -⟩ := parts_agree (fun name => name)
    "Hi \x7b\x7b name \x7d\x7d" [("name", "\x7b\x7blink\x7d\x7d \\ a.b")] (by decide) (by decide)
  exact ⟨markdown, hmarkdown, hundo⟩

end SafeerApi.Mail.RenderTemplate
