import SafeerApi.Logging.Redaction

/-!
# Where a pattern matches

A pattern matches where its header name begins, a separator behind it and a value behind that.
Nothing of this reaches from a text into the header text behind it, where that begins like one.
-/

namespace SafeerApi.Logging

open Common Lib
open Mail.RenderTemplate (isWordChar)

/-! ### Names -/

lemma dropName_eq_some {name s rest : List Char} :
    dropName name s = some rest ↔
      ∃ spelling, spelling.map Char.toLower = name ∧ s = spelling ++ rest := by
  induction name generalizing s with
  | nil => simp [dropName, eq_comm]
  | cons n name ih =>
    constructor
    · intro h
      cases s with
      | nil => cases h
      | cons c s =>
        simp only [dropName] at h
        split_ifs at h with hc
        obtain ⟨spelling, rfl, rfl⟩ := ih.mp h
        exact ⟨c :: spelling, by rw [List.map_cons, hc], rfl⟩
    · rintro ⟨spelling, hspelling, rfl⟩
      cases spelling with
      | nil => cases hspelling
      | cons c spelling =>
        obtain ⟨hc, hname⟩ := List.cons.inj hspelling
        rw [List.cons_append, dropName, if_pos hc]
        exact ih.mpr ⟨spelling, hname, rfl⟩

/-- A name that is not read to its end is read in what follows. -/
lemma dropName_append {name s x rest : List Char} (h : dropName name (s ++ x) = some rest) :
    (∃ rest', dropName name s = some rest' ∧ rest = rest' ++ x) ∨
      ∃ c, c ∈ x.head? ∧ c.toLower ∈ name ∧ ∀ d ∈ s, d.toLower ∈ name := by
  obtain ⟨spelling, rfl, hs⟩ := dropName_eq_some.mp h
  rcases List.append_eq_append_iff.mp hs with ⟨w, hspelling, hx⟩ | ⟨w, hs, hrest⟩
  · cases w with
    | nil =>
      refine Or.inl ⟨[], dropName_eq_some.mpr ⟨spelling, rfl, ?_⟩, by rw [hx]; rfl⟩
      rw [hspelling, List.append_nil, List.append_nil]
    | cons c w =>
      refine Or.inr ⟨c, by rw [hx]; rfl, ?_, ?_⟩
      · exact List.mem_map_of_mem (by rw [hspelling]; simp)
      · exact fun d hd => List.mem_map_of_mem (by rw [hspelling]; simp [hd])
  · exact Or.inl ⟨w, dropName_eq_some.mpr ⟨spelling, rfl, hs⟩, hrest⟩

/-- A character that a name has, or that joins it to what is before it. -/
def isNameChar (c : Char) : Bool := isWordChar c || c = '-'

lemma isNameChar_of_toLower {name : List Char} {c : Char} (hname : ∀ d ∈ name, isNameChar d = true)
    (h : c.toLower ∈ name) : isNameChar c = true := by
  by_cases hupper : c.val ≥ 'A'.val ∧ c.val ≤ 'Z'.val
  · have hword : isWordChar c = true := by
      simp only [isWordChar, Bool.or_eq_true, Bool.and_eq_true, decide_eq_true_eq]
      exact Or.inl (Or.inl (Or.inr hupper))
    rw [isNameChar, hword, Bool.true_or]
  · have hlower : c.toLower = c := dif_neg hupper
    rw [hlower] at h
    exact hname c h

lemma isNameChar_of_mem_text {n : HeaderName} : ∀ d ∈ n.text, isNameChar d = true := by
  have hall : n.text.all isNameChar = true := by cases n <;> decide
  exact List.all_eq_true.mp hall

lemma isNameChar_of_mem_scheme {scheme : List Char} (h : scheme ∈ schemes) :
    ∀ d ∈ scheme, isNameChar d = true := by
  have hall : schemes.all (fun scheme => scheme.all isNameChar) = true := by decide
  exact List.all_eq_true.mp (List.all_eq_true.mp hall scheme h)

/-! ### Where a pattern can match -/

/-- A name begins, with a separator behind it. -/
def opens (n : HeaderName) (s : List Char) : Bool := (readStart n.text s).isSome

/-- Behind such a character a header text does not begin. -/
def joins (c : Char) : Bool := isNameChar c || c = '"'

/-- A text that a header text can begin behind. -/
def closed (s : List Char) : Bool := s.getLast?.any fun c => !joins c

def fresh (prev : Option Char) : Bool := !prev.any joins

/-- A text begins like a header text. -/
def Begins (x : List Char) : Prop := ∃ c, (skipQuote x).head? = some c ∧ isNameChar c = true

lemma exists_of_closed {s : List Char} (h : closed s = true) :
    ∃ c, s.getLast? = some c ∧ isNameChar c = false ∧ c ≠ '"' := by
  obtain ⟨c, hc, hjoins⟩ := (Option.any_eq_true _ _).mp h
  simp only [joins, Bool.not_eq_true', Bool.or_eq_false_iff, decide_eq_false_iff_not] at hjoins
  exact ⟨c, hc, hjoins⟩

lemma not_isWhiteSpace_of_isNameChar {c : Char} (h : isNameChar c = true) :
    isWhiteSpace c = false := by
  rcases Bool.or_eq_true _ _ ▸ h with hword | hdash
  · exact Mail.RenderTemplate.isWhiteSpace_of_isWordChar hword
  · rw [of_decide_eq_true hdash]
    decide

/-- A header text does not begin with a separator. -/
lemma readSeparator_of_begins {x : List Char} (h : Begins x) :
    readSeparator (skipSpaces x) = none := by
  obtain ⟨c, hc, hname⟩ := h
  have hfirst : ∃ d y, x = d :: y ∧ isWhiteSpace d = false ∧ ¬ (d = ':' ∨ d = '=') := by
    cases x with
    | nil => cases hc
    | cons d y =>
      by_cases hd : d = '"'
      · exact ⟨d, y, rfl, by rw [hd]; decide, by rw [hd]; decide⟩
      · have hdc : d = c := by
          rw [skipQuote] at hc
          · exact Option.some.inj hc
          · simp [hd]
        subst hdc
        refine ⟨d, y, rfl, not_isWhiteSpace_of_isNameChar hname, ?_⟩
        rintro (rfl | rfl) <;> exact absurd hname (by decide)
  obtain ⟨d, y, rfl, hspace, hseparator⟩ := hfirst
  rw [skipSpaces, List.dropWhile_cons_of_neg (by simp [hspace]), readSeparator, if_neg hseparator]

lemma skipQuote_append {s x : List Char} (h : s ≠ []) :
    skipQuote (s ++ x) = skipQuote s ++ x := by
  cases s with
  | nil => exact absurd rfl h
  | cons c s =>
    by_cases hc : c = '"'
    · subst hc
      rfl
    · rw [List.cons_append, skipQuote, skipQuote] <;> simp_all

/-- What opens in a closed text opens without what follows. -/
lemma opens_append {n : HeaderName} {s x : List Char} (hclosed : closed s = true) (hx : Begins x)
    (h : opens n (s ++ x) = true) : opens n s = true := by
  obtain ⟨c, hlast, hname, hquote⟩ := exists_of_closed hclosed
  have hc : c ∈ s := List.mem_of_getLast? hlast
  have hnot : c.toLower ∉ n.text := fun hmem => by
    rw [isNameChar_of_toLower isNameChar_of_mem_text hmem] at hname
    cases hname
  obtain ⟨value, hstart⟩ := Option.isSome_iff_exists.mp h
  obtain ⟨rest, hrest, hseparator⟩ := Option.bind_eq_some_iff.mp hstart
  rcases dropName_append hrest with ⟨rest', hrest', rfl⟩ | ⟨-, -, -, hall⟩
  · obtain ⟨spelling, hspelling, rfl⟩ := dropName_eq_some.mp hrest'
    -- the name ends before the text does, and the separator is in between
    have hne : rest' ≠ [] := by
      rintro rfl
      rw [List.append_nil] at hc
      exact hnot (hspelling ▸ List.mem_map_of_mem hc)
    rw [skipQuote_append hne, skipSpaces, List.dropWhile_append] at hseparator
    split_ifs at hseparator with hspaces
    · rw [← skipSpaces, readSeparator_of_begins hx] at hseparator
      cases hseparator
    · cases hw : skipSpaces (skipQuote rest') with
      | nil => exact absurd (by rw [← skipSpaces, hw]; rfl) hspaces
      | cons d w =>
        rw [← skipSpaces, hw, List.cons_append, readSeparator] at hseparator
        split_ifs at hseparator with hd
        · rw [opens, readStart, hrest', Option.bind_some, hw, readSeparator, if_pos hd]
          rfl
        · cases hseparator
  · exact absurd (hall c hc) hnot

/-- No pattern matches anywhere in a text, whatever comes before it if `prev` is `none`. -/
def quiet (n : HeaderName) : Option Char → List Char → Bool
  | _, [] => true
  | prev, c :: s => !(boundary prev && opens n (c :: s)) && quiet n (some c) s

section Quiet

variable {n : HeaderName} {prev : Option Char}

lemma quiet_of_none {s : List Char} (h : quiet n none s = true) : quiet n prev s = true := by
  cases s with
  | nil => rfl
  | cons c s =>
    simp only [quiet, boundary, Option.any_none, Bool.not_false, Bool.true_and, Bool.and_eq_true,
      Bool.not_eq_true'] at h ⊢
    rw [h.1, Bool.and_false]
    exact ⟨rfl, h.2⟩

lemma quiet_of_append {u v : List Char} (h : quiet n prev (u ++ v) = true) :
    quiet n (lastOf prev u) v = true := by
  induction u generalizing prev with
  | nil => exact h
  | cons c u ih =>
    rw [List.cons_append, quiet, Bool.and_eq_true] at h
    rw [lastOf_cons]
    exact ih h.2

lemma not_opens_of_quiet {s : List Char} (h : quiet n prev s = true)
    (hprev : boundary prev = true) :
    opens n s = false := by
  cases s with
  | nil => cases n <;> rfl
  | cons c s =>
    rw [quiet, Bool.and_eq_true, hprev, Bool.true_and, Bool.not_eq_true'] at h
    exact h.1

lemma matchNamed_of_not_opens {s : List Char} (h : opens n s = false) : matchNamed n s = none := by
  rw [opens, Option.isSome_eq_false_iff, Option.isNone_iff_eq_none] at h
  rw [matchNamed, h, Option.bind_none]

/-- What can come behind a text: nothing, or behind a closed one a header text. -/
def Follows (s x : List Char) : Prop := x = [] ∨ (closed s = true ∧ Begins x)

lemma closed_of_append {u v : List Char} (hv : v ≠ []) (h : closed (u ++ v) = true) :
    closed v = true := by
  rwa [closed, List.getLast?_append_of_ne_nil _ hv] at h

lemma Follows.of_append {u v x : List Char} (hv : v ≠ []) (h : Follows (u ++ v) x) : Follows v x :=
  h.imp id fun h => ⟨closed_of_append hv h.1, h.2⟩

lemma not_opens_append {s x : List Char} (h : opens n s = false) (hx : Follows s x) :
    opens n (s ++ x) = false := by
  rcases hx with rfl | ⟨hclosed, hx⟩
  · rwa [List.append_nil]
  · cases hopens : opens n (s ++ x) with
    | false => rfl
    | true =>
      rw [opens_append hclosed hx hopens] at h
      cases h

lemma headerStringPattern_cons {c : Char} (hc : c ≠ '"') (s : List Char) :
    headerStringPattern n prev (c :: s) =
      (if boundary prev then matchNamed n (c :: s) else none).map fun (name, rest) =>
        (name ++ redacted, (c :: s).length - rest.length) := by
  rw [headerStringPattern]
  intro s' heq
  exact hc (List.cons.inj heq).1

/-- No match begins in a quiet text. -/
lemma headerStringPattern_of_quiet {s x : List Char} (h : quiet n prev s = true) (hne : s ≠ [])
    (hx : Follows s x) : headerStringPattern n prev (s ++ x) = none := by
  cases s with
  | nil => exact absurd rfl hne
  | cons c s =>
    by_cases hc : c = '"'
    · subst hc
      rw [quiet, Bool.and_eq_true] at h
      have hopens : opens n (s ++ x) = false := by
        have hs : opens n s = false := not_opens_of_quiet h.2 rfl
        by_cases hnil : s = []
        · subst hnil
          rcases hx with rfl | ⟨hclosed, -⟩
          · exact hs
          · exact absurd hclosed (by decide)
        · exact not_opens_append hs (hx.of_append (u := ['"']) hnil)
      simp only [List.cons_append, headerStringPattern, matchNamed_of_not_opens hopens,
        Option.map_none]
    · rw [List.cons_append, headerStringPattern_cons hc]
      split_ifs with hprev
      · rw [← List.cons_append,
          matchNamed_of_not_opens (not_opens_append (not_opens_of_quiet h hprev) hx)]
        rfl
      · rfl

/-- A quiet text stays as it is. -/
lemma replaceFrom_of_quiet {s x : List Char} (h : quiet n prev s = true) (hx : Follows s x) :
    replaceFrom (headerStringPattern n) 0 prev (s ++ x)
      = s ++ replaceFrom (headerStringPattern n) 0 (lastOf prev s) x := by
  apply replaceFrom_of_none
  rintro u v rfl hv
  exact headerStringPattern_of_quiet (quiet_of_append h) hv (hx.of_append hv)

end Quiet

/-! ### Values -/

lemma isRun_of_isNameChar {c : Char} (h : isNameChar c = true) : isRun c = true := by
  have hstops : c ≠ '"' ∧ c ≠ ',' ∧ c ≠ '\x7d' := by
    refine ⟨?_, ?_, ?_⟩ <;> rintro rfl <;> exact absurd h (by decide)
  simp [isRun, not_isWhiteSpace_of_isNameChar h, hstops]

/-- A value ends in front of such a text. -/
def stops (y : List Char) : Bool := y.head?.all fun c => !isRun c

/-- A scheme, with no credential behind it. -/
def bareScheme (value : List Char) : Bool :=
  schemes.any fun scheme => (dropName scheme value).any fun rest => rest.all isWhiteSpace

section Values

variable {y : List Char}

lemma readRun_append (hy : stops y = true) (s : List Char) :
    readRun (s ++ y) = (readRun s).map (· ++ y) := by
  have hend : y.dropWhile isRun = y := by
    cases y with
    | nil => rfl
    | cons c y =>
      have hc : isRun c = false := by simpa [stops] using hy
      rw [List.dropWhile_cons_of_neg (by simp [hc])]
  cases s with
  | nil =>
    cases y with
    | nil => rfl
    | cons c y =>
      have hc : isRun c = false := by simpa [stops] using hy
      simp [readRun, hc]
  | cons c s =>
    simp only [List.cons_append, readRun]
    split_ifs
    · rw [List.dropWhile_append, Option.map_some]
      split_ifs with hempty
      · rw [List.isEmpty_iff.mp hempty, List.nil_append, hend]
      · rfl
    · rfl

lemma dropName_scheme_append (hy : stops y = true) {scheme : List Char} (h : scheme ∈ schemes)
    (s : List Char) : dropName scheme (s ++ y) = (dropName scheme s).map (· ++ y) := by
  cases hs : dropName scheme s with
  | some rest =>
    obtain ⟨spelling, hspelling, rfl⟩ := dropName_eq_some.mp hs
    exact dropName_eq_some.mpr ⟨spelling, hspelling, List.append_assoc _ _ _⟩
  | none =>
    rw [Option.map_none, Option.eq_none_iff_forall_ne_some]
    intro rest hrest
    rcases dropName_append hrest with ⟨rest', hrest', -⟩ | ⟨c, hc, hmem, -⟩
    · rw [hs] at hrest'
      cases hrest'
    · have hrun : isRun c = true :=
        isRun_of_isNameChar (isNameChar_of_toLower (isNameChar_of_mem_scheme h) hmem)
      simp [stops, Option.mem_def.mp hc, hrun] at hy

lemma readSpaces_append {s : List Char} (h : s.all isWhiteSpace = false) (y : List Char) :
    readSpaces (s ++ y) = (readSpaces s).map (· ++ y) := by
  cases s with
  | nil => cases h
  | cons c s =>
    simp only [List.cons_append, readSpaces]
    split_ifs with hc
    · rw [skipSpaces, List.dropWhile_append, Option.map_some]
      split_ifs with hempty
      · rw [List.isEmpty_iff, List.dropWhile_eq_nil_iff] at hempty
        rw [List.all_cons, hc, Bool.true_and, List.all_eq_false] at h
        obtain ⟨d, hd, hspace⟩ := h
        exact absurd (hempty d hd) hspace
      · rfl
    · rfl

lemma readScheme_append (hy : stops y = true) {s : List Char} (h : bareScheme s = false) :
    readScheme (s ++ y) = (readScheme s).map (· ++ y) := by
  have hscheme : ∀ scheme ∈ schemes, (dropName scheme (s ++ y)).bind readSpaces
      = ((dropName scheme s).bind readSpaces).map (· ++ y) := by
    intro scheme hmem
    rw [dropName_scheme_append hy hmem]
    cases hname : dropName scheme s with
    | none => rfl
    | some rest =>
      have hrest : rest.all isWhiteSpace = false := by
        simpa [hname] using (List.any_eq_false.mp h) scheme hmem
      exact readSpaces_append hrest y
  simp only [schemes, List.mem_cons, forall_eq_or_imp] at hscheme
  simp only [readScheme, schemes, List.findSome?, hscheme.1, hscheme.2.1]
  cases (dropName ['b', 'e', 'a', 'r', 'e', 'r'] s).bind readSpaces with
  | none => cases (dropName ['b', 'a', 's', 'i', 'c'] s).bind readSpaces <;> rfl
  | some rest => rfl

/-- A value is read to its end, whatever comes behind the text that ends it. -/
lemma readValue_append (hy : stops y = true) {hasScheme : Bool} {s : List Char}
    (h : (hasScheme && bareScheme s) = false) :
    readValue hasScheme (s ++ y) = (readValue hasScheme s).map (· ++ y) := by
  cases hasScheme with
  | false => exact readRun_append hy s
  | true =>
    rw [Bool.true_and] at h
    simp only [readValue, if_true, readScheme_append hy h, readRun_append hy, Option.map_or]
    congr 1
    cases readScheme s with
    | none => rfl
    | some rest => exact readRun_append hy rest

end Values

end SafeerApi.Logging
