import SafeerApi.Logging.HeaderTexts

/-!
# What a pattern does where a header text begins

The pattern of that header replaces it up to the end of its credential. The patterns of the other
headers find nothing in its name, unless theirs is in it.
-/

namespace SafeerApi.Logging

open Common Lib
open Mail.RenderTemplate (isWordChar)

/-! ### Separations -/

/-- `"?`, as it is written. -/
def quoteIf (quoted : Bool) : List Char := if quoted then ['"'] else []

/-- What stands between a header name and its value. -/
structure Separation where
  nameQuote : Bool
  before : List Char
  separator : Char
  after : List Char
  valueQuote : Bool
  before_spaces : before.all isWhiteSpace = true
  separates : separator = ':' ∨ separator = '='
  after_spaces : after.all isWhiteSpace = true
  deriving DecidableEq

def Separation.text (s : Separation) : List Char :=
  quoteIf s.nameQuote ++ (s.before ++ s.separator :: (s.after ++ quoteIf s.valueQuote))

/-- The separation that a redacted header text has. -/
def Separation.plain : Separation where
  nameQuote := false
  before := []
  separator := ':'
  after := [' ']
  valueQuote := false
  before_spaces := rfl
  separates := Or.inl rfl
  after_spaces := by decide

/-- The separation of a header name in JSON. -/
def Separation.json : Separation where
  nameQuote := true
  before := []
  separator := ':'
  after := []
  valueQuote := true
  before_spaces := rfl
  separates := Or.inl rfl
  after_spaces := rfl

lemma exists_of_readRun {value : List Char} (h : (readRun value).isSome = true) :
    ∃ c s, value = c :: s ∧ isRun c = true := by
  cases value with
  | nil => cases h
  | cons c s =>
    refine ⟨c, s, rfl, ?_⟩
    by_contra hc
    rw [readRun, if_neg hc] at h
    cases h

lemma ne_quote_of_isRun {c : Char} (h : isRun c = true) : c ≠ '"' := by
  rintro rfl
  exact absurd h (by decide)

lemma not_isWhiteSpace_of_isRun {c : Char} (h : isRun c = true) : isWhiteSpace c = false := by
  simp only [isRun, Bool.not_eq_true', Bool.or_eq_false_iff] at h
  exact h.1.1.2

lemma skipQuote_of_ne {c : Char} (h : c ≠ '"') (s : List Char) : skipQuote (c :: s) = c :: s := by
  rw [skipQuote]
  intro s' heq
  exact h (List.cons.inj heq).1

lemma skipQuote_quoteIf {c : Char} (h : c ≠ '"') (quoted : Bool) (s : List Char) :
    skipQuote (quoteIf quoted ++ c :: s) = c :: s := by
  cases quoted with
  | false => exact skipQuote_of_ne h s
  | true => rfl

lemma skipSpaces_append {spaces : List Char} (h : spaces.all isWhiteSpace = true) {c : Char}
    (hc : isWhiteSpace c = false) (s : List Char) : skipSpaces (spaces ++ c :: s) = c :: s := by
  rw [skipSpaces, List.dropWhile_append_of_pos (List.all_eq_true.mp h),
    List.dropWhile_cons_of_neg (by simp [hc])]

lemma Separation.separator_ne (s : Separation) :
    s.separator ≠ '"' ∧ isWhiteSpace s.separator = false ∧ isNameChar s.separator = false := by
  rcases s.separates with h | h <;> rw [h] <;> decide

lemma ne_quote_of_isWhiteSpace {c : Char} (h : isWhiteSpace c = true) : c ≠ '"' := by
  rintro rfl
  exact absurd h (by decide)

/-- The value is found behind its separation. -/
lemma readStart_append {name spelling value : List Char} (h : spelling.map Char.toLower = name)
    (s : Separation) (hvalue : (readRun value).isSome = true) :
    readStart name (spelling ++ (s.text ++ value)) = some value := by
  obtain ⟨c, v, rfl, hc⟩ := exists_of_readRun hvalue
  obtain ⟨hquote, hspace, -⟩ := s.separator_ne
  have hname : dropName name (spelling ++ (s.text ++ c :: v)) = some (s.text ++ c :: v) :=
    dropName_eq_some.mpr ⟨spelling, h, rfl⟩
  have hbefore : skipSpaces (skipQuote (s.text ++ c :: v))
      = s.separator :: (s.after ++ (quoteIf s.valueQuote ++ c :: v)) := by
    have hskip : skipQuote (s.text ++ c :: v)
        = s.before ++ s.separator :: (s.after ++ (quoteIf s.valueQuote ++ c :: v)) := by
      simp only [Separation.text, List.append_assoc, List.cons_append]
      cases hspaces : s.before with
      | nil => exact skipQuote_quoteIf hquote _ _
      | cons d w =>
        have hd : isWhiteSpace d = true :=
          List.all_eq_true.mp s.before_spaces d (by rw [hspaces]; exact List.mem_cons_self)
        exact skipQuote_quoteIf (ne_quote_of_isWhiteSpace hd) _ _
    rw [hskip, skipSpaces_append s.before_spaces hspace]
  have hafter : skipQuote (skipSpaces (s.after ++ (quoteIf s.valueQuote ++ c :: v))) = c :: v := by
    cases s.valueQuote with
    | false =>
      rw [quoteIf, if_neg (by decide), List.nil_append,
        skipSpaces_append s.after_spaces (not_isWhiteSpace_of_isRun hc),
        skipQuote_of_ne (ne_quote_of_isRun hc)]
    | true =>
      rw [quoteIf, if_pos rfl, List.singleton_append,
        skipSpaces_append s.after_spaces (by decide)]
      rfl
  rw [readStart, hname, Option.bind_some, hbefore, readSeparator, if_pos s.separates,
    Option.map_some, hafter]

/-! ### A match -/

lemma exists_skipQuote (s : List Char) : ∃ quoted, s = quoteIf quoted ++ skipQuote s := by
  cases s with
  | nil => exact ⟨false, rfl⟩
  | cons c s =>
    by_cases hc : c = '"'
    · exact ⟨true, by rw [hc]; rfl⟩
    · exact ⟨false, (skipQuote_of_ne hc s).symm⟩

lemma closed_append {u v : List Char} (hv : closed v = true) : closed (u ++ v) = true := by
  have hne : v ≠ [] := by
    rintro rfl
    cases hv
  rwa [closed, List.getLast?_append_of_ne_nil _ hne]

lemma closed_skipQuote {s : List Char} (h : closed s = true) : closed (skipQuote s) = true := by
  obtain ⟨quoted, hs⟩ := exists_skipQuote s
  have hne : skipQuote s ≠ [] := by
    intro hnil
    rw [hs, hnil, List.append_nil] at h
    revert h
    cases quoted <;> decide
  rw [hs] at h
  exact closed_of_append hne h

lemma follows_skipQuote {s x : List Char} (h : Follows s x) : Follows (skipQuote s) x :=
  h.imp id fun h => ⟨closed_skipQuote h.1, h.2⟩

lemma skipQuote_append_of_follows {s x : List Char} (h : Follows s x) :
    skipQuote (s ++ x) = skipQuote s ++ x := by
  by_cases hs : s = []
  · subst hs
    rcases h with rfl | ⟨hclosed, -⟩
    · rfl
    · cases hclosed
  · exact skipQuote_append hs

section Match

variable {n : HeaderName} {prev : Option Char} {spelling value rest : List Char}

lemma matchNamed_append (hspelling : spelling.map Char.toLower = n.text) (sep : Separation)
    (hvalue : (readRun value).isSome = true) (hread : readValue n.hasScheme value = some rest) :
    matchNamed n (spelling ++ (sep.text ++ value)) = some (spelling, skipQuote rest) := by
  have hlength : n.text.length = spelling.length := by rw [← hspelling, List.length_map]
  rw [matchNamed, readStart_append hspelling sep hvalue, Option.bind_some, hread, Option.map_some,
    hlength, List.take_left']
  rfl

lemma exists_of_spelling (hspelling : spelling.map Char.toLower = n.text) :
    ∃ c w, spelling = c :: w ∧ isNameChar c = true := by
  cases spelling with
  | nil => cases n <;> cases hspelling
  | cons c w =>
    refine ⟨c, w, rfl, isNameChar_of_toLower (isNameChar_of_mem_text (n := n)) ?_⟩
    exact hspelling ▸ List.mem_map_of_mem List.mem_cons_self

lemma ne_quote_of_isNameChar {c : Char} (h : isNameChar c = true) : c ≠ '"' := by
  rintro rfl
  exact absurd h (by decide)

lemma headerStringPattern_append {lead : Bool} (hlead : lead = true ∨ boundary prev = true)
    (hspelling : spelling.map Char.toLower = n.text) (sep : Separation)
    (hvalue : (readRun value).isSome = true) (hread : readValue n.hasScheme value = some rest) :
    headerStringPattern n prev (quoteIf lead ++ (spelling ++ (sep.text ++ value)))
      = some (spelling ++ redacted, (quoteIf lead ++ (spelling ++ (sep.text ++ value))).length
          - (skipQuote rest).length) := by
  have hmatch := matchNamed_append hspelling sep hvalue hread
  cases lead with
  | true =>
    simp only [quoteIf, if_true, List.singleton_append, headerStringPattern, hmatch,
      Option.map_some]
  | false =>
    obtain ⟨c, w, rfl, hc⟩ := exists_of_spelling hspelling
    have hprev : boundary prev = true := hlead.resolve_left (by decide)
    simp only [quoteIf, Bool.false_eq_true, if_false, List.nil_append]
    rw [List.cons_append] at hmatch ⊢
    rw [headerStringPattern_cons (ne_quote_of_isNameChar hc), if_pos hprev, hmatch, Option.map_some]

/-- A header text is replaced up to the end of its credential. -/
lemma replaceFrom_start (lead : Bool) (hlead : lead = true ∨ boundary prev = true)
    (hspelling : spelling.map Char.toLower = n.text) (sep : Separation) {read x : List Char}
    (hvalue : (readRun (read ++ (rest ++ x))).isSome = true)
    (hread : readValue n.hasScheme (read ++ (rest ++ x)) = some (rest ++ x))
    (hquiet : quiet n none (skipQuote rest) = true) (hx : Follows rest x) :
    replaceFrom (headerStringPattern n) 0 prev
        (quoteIf lead ++ (spelling ++ (sep.text ++ (read ++ (rest ++ x)))))
      = spelling ++ (redacted ++ (skipQuote rest ++ replaceFrom (headerStringPattern n) 0
          (lastOf prev (quoteIf lead ++ (spelling ++ (sep.text ++ (read ++ rest))))) x)) := by
  obtain ⟨quoted, hrest⟩ := exists_skipQuote rest
  have hfind := headerStringPattern_append hlead hspelling sep hvalue hread
  rw [skipQuote_append_of_follows hx] at hfind
  generalize hkept : skipQuote rest = kept at *
  have hmatch : quoteIf lead ++ (spelling ++ (sep.text ++ (read ++ (rest ++ x))))
      = (quoteIf lead ++ (spelling ++ (sep.text ++ (read ++ quoteIf quoted)))) ++ (kept ++ x) := by
    rw [hrest]
    simp only [List.append_assoc]
  have hne : quoteIf lead ++ (spelling ++ (sep.text ++ (read ++ quoteIf quoted))) ≠ [] := by
    obtain ⟨c, w, rfl, -⟩ := exists_of_spelling hspelling
    simp
  rw [hmatch] at hfind ⊢
  rw [List.length_append, Nat.add_sub_cancel] at hfind
  rw [replaceFrom_match hne hfind, replaceFrom_of_quiet (quiet_of_none hquiet)
    (hkept ▸ follows_skipQuote hx), ← lastOf_append, hrest]
  simp only [List.append_assoc]

end Match

/-! ### Quiet header texts -/

section Quiet

variable {n : HeaderName} {prev : Option Char}

lemma not_opens_of_word {w s : List Char} (hw : ¬ n.text <+: w.map Char.toLower)
    (hs : ∀ c ∈ s.head?, isNameChar c = false) : opens n (w ++ s) = false := by
  have hname : dropName n.text (w ++ s) = none := by
    rw [Option.eq_none_iff_forall_ne_some]
    intro rest hrest
    rcases dropName_append hrest with ⟨rest', hrest', -⟩ | ⟨c, hc, hmem, -⟩
    · obtain ⟨spelling, hspelling, rfl⟩ := dropName_eq_some.mp hrest'
      refine hw ⟨rest'.map Char.toLower, ?_⟩
      rw [List.map_append, hspelling]
    · have hnamechar := isNameChar_of_toLower isNameChar_of_mem_text hmem
      rw [hs c hc] at hnamechar
      cases hnamechar
  rw [opens, readStart, hname, Option.bind_none]
  rfl

lemma not_opens_of_head {c : Char} (h : isNameChar c = false) (s : List Char) :
    opens n (c :: s) = false := by
  refine not_opens_of_word (w := []) (s := c :: s) ?_ ?_
  · cases n <;> decide
  · intro d hd
    rwa [Option.some.inj (Option.mem_def.mp hd)] at h

lemma quiet_cons_of_head {c : Char} (h : isNameChar c = false) (s : List Char) :
    quiet n prev (c :: s) = quiet n (some c) s := by
  rw [quiet, not_opens_of_head h, Bool.and_false, Bool.not_false, Bool.true_and]

lemma quiet_append_of_silent {u : List Char} (h : u.any isNameChar = false) (s : List Char) :
    quiet n prev (u ++ s) = quiet n (lastOf prev u) s := by
  induction u generalizing prev with
  | nil => rfl
  | cons c u ih =>
    rw [List.any_cons, Bool.or_eq_false_iff] at h
    rw [List.cons_append, quiet_cons_of_head h.1, lastOf_cons]
    exact ih h.2

/-- A word is quiet if the name is not in it. -/
lemma quiet_append_of_word {w s : List Char} (hw : ¬ n.text <:+: w.map Char.toLower)
    (hs : ∀ c ∈ s.head?, isNameChar c = false) :
    quiet n prev (w ++ s) = quiet n (lastOf prev w) s := by
  induction w generalizing prev with
  | nil => rfl
  | cons c w ih =>
    have hopens : opens n (c :: w ++ s) = false :=
      not_opens_of_word (fun h => hw h.isInfix) hs
    rw [List.cons_append] at hopens ⊢
    rw [quiet, hopens, Bool.and_false, Bool.not_false, Bool.true_and, lastOf_cons]
    exact ih fun h => hw (h.trans (List.suffix_cons _ _).isInfix)

lemma quiet_none {s : List Char} (h : quiet n prev s = true) (hprev : boundary prev = true) :
    quiet n none s = true := by
  cases s with
  | nil => rfl
  | cons c s =>
    rw [quiet, hprev] at h
    exact h

lemma isNameChar_of_stops {c : Char} {s : List Char} (h : stops (c :: s) = true) :
    isNameChar c = false := by
  cases hc : isNameChar c with
  | false => rfl
  | true =>
    have hrun : isRun c = true := isRun_of_isNameChar hc
    simp [stops, hrun] at h

/-- What a value leaves of a quiet text is quiet. -/
lemma quiet_skipQuote {u s : List Char} (h : quiet n prev (u ++ s) = true) (hs : stops s = true) :
    quiet n none (skipQuote s) = true := by
  have hquiet := quiet_of_append h
  cases s with
  | nil => rfl
  | cons c s =>
    rw [quiet_cons_of_head (isNameChar_of_stops hs)] at hquiet
    by_cases hc : c = '"'
    · subst hc
      exact quiet_none hquiet (by decide)
    · rwa [skipQuote_of_ne hc, quiet_cons_of_head (isNameChar_of_stops hs)]

lemma quiet_redacted {s : List Char} (h : quiet n none s = true) :
    quiet n prev (redacted ++ s) = true := by
  have hword : ¬ n.text <:+: ['R', 'E', 'D', 'A', 'C', 'T', 'E', 'D'].map Char.toLower := by
    cases n <;> decide
  have hsplit : redacted ++ s
      = [':', ' ', '['] ++ (['R', 'E', 'D', 'A', 'C', 'T', 'E', 'D'] ++ ([']'] ++ s)) := rfl
  rw [hsplit, quiet_append_of_silent (by decide), quiet_append_of_word hword,
    quiet_append_of_silent (by decide)]
  · exact quiet_of_none h
  · intro c hc
    rw [← Option.some.inj hc]
    decide

lemma quoteIf_silent (quoted : Bool) : (quoteIf quoted).any isNameChar = false := by
  cases quoted <;> decide

lemma silent_of_spaces {s : List Char} (h : s.all isWhiteSpace = true) :
    s.any isNameChar = false := by
  rw [List.any_eq_false]
  intro c hc hname
  have hspace := List.all_eq_true.mp h c hc
  rw [not_isWhiteSpace_of_isNameChar hname] at hspace
  cases hspace

lemma Separation.silent (sep : Separation) : sep.text.any isNameChar = false := by
  simp only [Separation.text, List.any_append, List.any_cons, quoteIf_silent,
    silent_of_spaces sep.before_spaces, silent_of_spaces sep.after_spaces, sep.separator_ne.2.2,
    Bool.or_self]

lemma Separation.text_ne_nil (sep : Separation) : sep.text ≠ [] := by
  simp [Separation.text]

end Quiet

end SafeerApi.Logging
