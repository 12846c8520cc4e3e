import SafeerApi.Logging.HeaderStarts

/-!
# What is left of a log

A log is a text with header texts in it. A pattern replaces the header texts of its name, one after
another, and leaves the others as they are. Only the pattern of `cookie` matches in two: a
`set-cookie` is redacted by it first and then once more by its own.
-/

namespace SafeerApi.Logging

open Common Lib

/-! ### Header texts -/

/-- A header name as it is written, up to the value. -/
structure HeaderStart where
  name : HeaderName
  lead : Bool
  spelling : List Char
  separation : Separation
  spelled : spelling.map Char.toLower = name.text
  deriving DecidableEq

/-- A header text, with what follows it up to the next one. -/
structure HeaderText where
  start : HeaderStart
  value : List Char
  text : List Char

namespace HeaderText

def hasScheme (h : HeaderText) : Bool := h.start.name.hasScheme

def body (h : HeaderText) : List Char := h.value ++ h.text

/-- The header name, with or without a quote before it. -/
def opening (h : HeaderText) : List Char := quoteIf h.start.lead ++ h.start.spelling

def chars (h : HeaderText) : List Char := h.opening ++ (h.start.separation.text ++ h.body)

/-- What a pattern leaves behind the credential. -/
def remains (h : HeaderText) : List Char := skipQuote ((readValue h.hasScheme h.body).getD [])

/-- What is left of the value and of what follows it: of a `set-cookie` the run behind the
credential is taken for a credential once more. -/
def kept (h : HeaderText) : List Char :=
  if h.start.name = .setCookie then skipQuote (h.remains.dropWhile isRun) else h.remains

/-- Nothing but the names is a header name, and the value ends where its text begins. -/
structure WellFormed (h : HeaderText) : Prop where
  reads : (readRun h.value).isSome = true
  credential : (h.hasScheme && bareScheme h.value) = false
  stops : stops h.text = true
  quiet : ∀ n, quiet n none h.body = true

/-- Another header text can follow: the text is closed, and it is not taken for a credential. -/
structure Ends (h : HeaderText) : Prop where
  closed : closed h.text = true
  stops : h.start.name = .setCookie → (skipQuote h.text).all isRun = false

def FollowedBy (h : HeaderText) (x : List Char) : Prop := x = [] ∨ (h.Ends ∧ Begins x)

instance (s : List Char) : Decidable (∀ n, Logging.quiet n none s = true) :=
  decidable_of_iff (∀ n ∈ stringRedactPatterns, Logging.quiet n none s = true)
    ⟨fun h n => h n (by cases n <;> decide), fun h n _ => h n⟩

instance (h : HeaderText) : Decidable h.WellFormed :=
  decidable_of_iff ((readRun h.value).isSome = true ∧ (h.hasScheme && bareScheme h.value) = false ∧
      Logging.stops h.text = true ∧ ∀ n, Logging.quiet n none h.body = true)
    ⟨fun h => ⟨h.1, h.2.1, h.2.2.1, h.2.2.2⟩, fun h => ⟨h.reads, h.credential, h.stops, h.quiet⟩⟩

instance (h : HeaderText) : Decidable h.Ends :=
  decidable_of_iff (Logging.closed h.text = true ∧
      (h.start.name = .setCookie → (skipQuote h.text).all isRun = false))
    ⟨fun h => ⟨h.1, h.2⟩, fun h => ⟨h.closed, h.stops⟩⟩

end HeaderText

/-! ### Credentials -/

lemma stops_dropWhile (s : List Char) : stops (s.dropWhile isRun) = true := by
  rw [stops, Option.all_eq_true]
  intro c hc
  have hne : s.dropWhile isRun ≠ [] := by
    intro hnil
    rw [hnil] at hc
    cases hc
  have hhead := List.head_dropWhile_not isRun hne
  rw [List.head?_eq_some_head hne] at hc
  rw [← Option.some.inj hc, hhead]
  rfl

lemma stops_append {s y : List Char} (hs : stops s = true) (hy : s = [] → stops y = true) :
    stops (s ++ y) = true := by
  cases s with
  | nil => exact hy rfl
  | cons c s => exact hs

/-- What is read, and what it leaves. -/
lemma exists_of_readRun_eq {s rest : List Char} (h : readRun s = some rest) :
    ∃ read, s = read ++ rest ∧ stops rest = true := by
  cases s with
  | nil => cases h
  | cons c s =>
    rw [readRun] at h
    split_ifs at h
    rw [← Option.some.inj h]
    exact ⟨c :: s.takeWhile isRun, by rw [List.cons_append, List.takeWhile_append_dropWhile],
      stops_dropWhile s⟩

lemma exists_of_readScheme_eq {s rest : List Char} (h : readScheme s = some rest) :
    ∃ read, s = read ++ rest := by
  obtain ⟨scheme, -, hscheme⟩ := List.exists_of_findSome?_eq_some h
  obtain ⟨spaces, hspelling, hspaces⟩ := Option.bind_eq_some_iff.mp hscheme
  obtain ⟨spelling, -, rfl⟩ := dropName_eq_some.mp hspelling
  cases spaces with
  | nil => cases hspaces
  | cons c spaces =>
    rw [readSpaces] at hspaces
    split_ifs at hspaces
    refine ⟨spelling ++ c :: spaces.takeWhile isWhiteSpace, ?_⟩
    rw [← Option.some.inj hspaces, skipSpaces, List.append_assoc, List.cons_append,
      List.takeWhile_append_dropWhile]

lemma exists_of_readValue_eq {hasScheme : Bool} {s rest : List Char}
    (h : readValue hasScheme s = some rest) : ∃ read, s = read ++ rest ∧ stops rest = true := by
  cases hasScheme with
  | false => exact exists_of_readRun_eq h
  | true =>
    rcases Option.or_eq_some_iff.mp h with hscheme | ⟨-, hrun⟩
    · obtain ⟨credential, hcredential, hrun⟩ := Option.bind_eq_some_iff.mp hscheme
      obtain ⟨scheme, rfl⟩ := exists_of_readScheme_eq hcredential
      obtain ⟨read, rfl, hrest⟩ := exists_of_readRun_eq hrun
      exact ⟨scheme ++ read, by rw [List.append_assoc], hrest⟩
    · exact exists_of_readRun_eq hrun

lemma isSome_readRun_append {s : List Char} (h : (readRun s).isSome = true) (y : List Char) :
    (readRun (s ++ y)).isSome = true := by
  obtain ⟨c, s, rfl, hc⟩ := exists_of_readRun h
  rw [List.cons_append, readRun, if_pos hc]
  rfl

/-- A value has a credential. -/
lemma isSome_readValue {hasScheme : Bool} {s : List Char} (h : (readRun s).isSome = true) :
    (readValue hasScheme s).isSome = true := by
  cases hasScheme with
  | false => exact h
  | true => simp [readValue, h]

lemma readRun_append_of_all {c : Char} {read s : List Char} (hc : isRun c = true)
    (hread : read.all isRun = true) (hs : stops s = true) :
    readRun (c :: read ++ s) = some s := by
  have hone : readRun (c :: read) = some [] := by
    rw [readRun, if_pos hc, List.dropWhile_eq_nil_iff.mpr (List.all_eq_true.mp hread)]
  rw [readRun_append hs, hone, Option.map_some, List.nil_append]

namespace HeaderText

variable {h : HeaderText} {x : List Char}

lemma Ends.text_ne_nil (hends : h.Ends) : h.text ≠ [] := by
  intro hnil
  have hclosed := hends.closed
  rw [hnil] at hclosed
  cases hclosed

lemma FollowedBy.stops (hx : h.FollowedBy x) (hwf : h.WellFormed) :
    Logging.stops (h.text ++ x) = true := by
  apply stops_append hwf.stops
  intro hnil
  rcases hx with rfl | ⟨hends, -⟩
  · rfl
  · exact absurd hnil hends.text_ne_nil

/-- What is read of a header text, whatever follows it. -/
lemma WellFormed.exists_read (hwf : h.WellFormed) :
    ∃ read rest left, h.body = read ++ rest ∧ rest = left ++ h.text ∧ Logging.stops rest = true ∧
      h.remains = skipQuote rest ∧
      ∀ x, h.FollowedBy x → readValue h.hasScheme (read ++ (rest ++ x)) = some (rest ++ x) := by
  obtain ⟨left, hleft⟩ := Option.isSome_iff_exists.mp (isSome_readValue hwf.reads)
  obtain ⟨read, hvalue, hstops⟩ := exists_of_readValue_eq hleft
  have hbody : readValue h.hasScheme h.body = some (left ++ h.text) := by
    rw [body, readValue_append hwf.stops hwf.credential, hasScheme, hleft, Option.map_some]
  refine ⟨read, left ++ h.text, left, ?_, rfl, stops_append hstops fun _ => hwf.stops, ?_, ?_⟩
  · rw [body, hvalue, List.append_assoc]
  · rw [remains, hbody, Option.getD_some]
  · intro x hx
    have hsplit : read ++ (left ++ h.text ++ x) = h.value ++ (h.text ++ x) := by
      rw [hvalue]
      simp only [List.append_assoc]
    rw [hsplit, readValue_append (hx.stops hwf) hwf.credential, hasScheme, hleft, Option.map_some,
      List.append_assoc]

lemma all_skipQuote_append {left text : List Char} (hstops : Logging.stops text = true)
    (hne : text ≠ []) (htext : (skipQuote text).all isRun = false) :
    (skipQuote (left ++ text)).all isRun = false := by
  by_cases hleft : left = []
  · rwa [hleft, List.nil_append]
  · cases text with
    | nil => exact absurd rfl hne
    | cons c text =>
      have hc : isRun c = false := by simpa [Logging.stops] using hstops
      rw [skipQuote_append hleft, List.all_append, List.all_cons, hc, Bool.false_and,
        Bool.and_false]

lemma Ends.all_remains (hends : h.Ends) (hwf : h.WellFormed) (hname : h.start.name = .setCookie) :
    h.remains.all isRun = false := by
  obtain ⟨read, rest, left, -, rfl, -, hremains, -⟩ := hwf.exists_read
  rw [hremains]
  exact all_skipQuote_append hwf.stops hends.text_ne_nil (hends.stops hname)

lemma Ends.closed_remains (hends : h.Ends) (hwf : h.WellFormed) :
    Logging.closed h.remains = true := by
  obtain ⟨read, rest, left, -, rfl, -, hremains, -⟩ := hwf.exists_read
  rw [hremains]
  exact closed_skipQuote (closed_append hends.closed)

lemma closed_dropWhile {s : List Char} (hclosed : Logging.closed s = true)
    (hall : s.all isRun = false) : Logging.closed (s.dropWhile isRun) = true := by
  have hne : s.dropWhile isRun ≠ [] := by
    intro hnil
    rw [List.all_eq_true.mpr (List.dropWhile_eq_nil_iff.mp hnil)] at hall
    cases hall
  rw [← List.takeWhile_append_dropWhile (p := isRun) (l := s)] at hclosed
  exact closed_of_append hne hclosed

lemma Ends.closed_kept (hends : h.Ends) (hwf : h.WellFormed) : Logging.closed h.kept = true := by
  rw [kept]
  split_ifs with hname
  · exact closed_skipQuote
      (closed_dropWhile (hends.closed_remains hwf) (hends.all_remains hwf hname))
  · exact hends.closed_remains hwf

lemma WellFormed.quiet_remains (hwf : h.WellFormed) (n : HeaderName) :
    Logging.quiet n none h.remains = true := by
  obtain ⟨read, rest, left, hbody, -, hstops, hremains, -⟩ := hwf.exists_read
  rw [hremains]
  exact quiet_skipQuote (hbody ▸ hwf.quiet n) hstops

lemma WellFormed.quiet_kept (hwf : h.WellFormed) (n : HeaderName) :
    Logging.quiet n none h.kept = true := by
  rw [kept]
  split_ifs
  · have hquiet := hwf.quiet_remains n
    rw [← List.takeWhile_append_dropWhile (p := isRun) (l := h.remains)] at hquiet
    exact quiet_skipQuote hquiet (stops_dropWhile h.remains)
  · exact hwf.quiet_remains n

end HeaderText

/-! ### One header text -/

lemma boundary_of_fresh {prev : Option Char} (h : fresh prev = true) : boundary prev = true := by
  cases prev with
  | none => rfl
  | some c =>
    simp only [fresh, joins, isNameChar, Option.any_some, Bool.not_eq_true', Bool.or_eq_false_iff]
      at h
    rw [boundary, Option.any_some, h.1.1, Bool.not_false]

lemma eq_dash_of_toLower {c : Char} (h : c.toLower = '-') : c = '-' := by
  by_cases hupper : c.val ≥ 'A'.val ∧ c.val ≤ 'Z'.val
  · have hval : c.val + ('a'.val - 'A'.val) = '-'.val :=
      congrArg Char.val ((dif_pos hupper).symm.trans h)
    -- a letter in lower case is behind the dash
    simp only [ge_iff_le, UInt32.le_iff_toNat_le, ← UInt32.toNat_inj, UInt32.toNat_add]
      at hupper hval
    have hA : 'A'.val.toNat = 65 := rfl
    have hZ : 'Z'.val.toNat = 90 := rfl
    have hshift : ('a'.val - 'A'.val).toNat = 32 := rfl
    have hdash : '-'.val.toNat = 45 := rfl
    omega
  · exact (dif_neg hupper).symm.trans h

lemma matchNamed_of_head {n : HeaderName} {c : Char} (h : n.text.head? ≠ some c.toLower)
    (s : List Char) : matchNamed n (c :: s) = none := by
  have hname : dropName n.text (c :: s) = none := by
    cases hn : n.text with
    | nil => cases n <;> cases hn
    | cons d name =>
      rw [dropName, if_neg]
      rintro rfl
      exact h (by rw [hn, List.head?_cons])
  rw [matchNamed, readStart, hname, Option.bind_none, Option.bind_none]

/-- Nothing begins in what no name begins with. -/
lemma replaceFrom_of_head {n : HeaderName} (prev : Option Char) {w : List Char}
    (h : ∀ c ∈ w, c ≠ '"' ∧ n.text.head? ≠ some c.toLower) (hw : w ≠ []) (lead : Bool)
    (x : List Char) :
    replaceFrom (headerStringPattern n) 0 prev (quoteIf lead ++ w ++ x)
      = quoteIf lead ++ w ++ replaceFrom (headerStringPattern n) 0 (lastOf prev (quoteIf lead ++ w))
          x := by
  have hnone : ∀ {prev u v}, w = u ++ v → v ≠ [] →
      headerStringPattern n prev (v ++ x) = none := by
    rintro prev u v rfl hv
    cases v with
    | nil => exact absurd rfl hv
    | cons c v =>
      obtain ⟨hquote, hhead⟩ := h c (by simp)
      rw [List.cons_append, headerStringPattern_cons hquote, matchNamed_of_head hhead, ite_self,
        Option.map_none]
  apply replaceFrom_of_none
  intro u v hsplit hv
  cases lead with
  | false => exact hnone hsplit hv
  | true =>
    cases u with
    | nil =>
      have hv : v = quoteIf true ++ w := hsplit.symm
      rw [hv]
      cases w with
      | nil => exact absurd rfl hw
      | cons c w =>
        simp only [quoteIf, if_true, List.cons_append, List.nil_append, headerStringPattern,
          matchNamed_of_head (h c List.mem_cons_self).2, Option.map_none]
    | cons d u => exact hnone (List.cons.inj hsplit).2 hv

namespace HeaderText

variable {h : HeaderText} {n : HeaderName}

/-- A `set-cookie` between the two passes. -/
def half (h : HeaderText) : List Char := h.opening ++ (redacted ++ h.remains)

def done (h : HeaderText) : List Char := h.start.spelling ++ (redacted ++ h.kept)

/-- A pattern turns one way to write a header text into another one. -/
def Rewrites (n : HeaderName) (h : HeaderText) (s t : List Char) : Prop :=
  ∀ prev x, fresh prev = true → h.FollowedBy x →
    replaceFrom (headerStringPattern n) 0 prev (s ++ x)
      = t ++ replaceFrom (headerStringPattern n) 0 (lastOf prev s) x

/-- A way to write a header text: it begins like one, and is closed where another one can follow. -/
structure Written (h : HeaderText) (s : List Char) : Prop where
  begins : ∀ x, Begins (s ++ x)
  closed : h.Ends → Logging.closed s = true

lemma written_opening {s : List Char} (hs : h.Ends → Logging.closed s = true) :
    Written h (h.opening ++ s) := by
  obtain ⟨c, w, hspelling, hc⟩ := exists_of_spelling h.start.spelled
  refine ⟨fun x => ⟨c, ?_, hc⟩, fun hends => closed_append (hs hends)⟩
  rw [opening, hspelling, List.append_assoc, List.append_assoc, List.cons_append,
    skipQuote_quoteIf (ne_quote_of_isNameChar hc), List.head?_cons]

lemma written_chars : Written h h.chars :=
  written_opening fun hends => closed_append (closed_append hends.closed)

lemma written_half (hwf : h.WellFormed) : Written h h.half :=
  written_opening fun hends => closed_append (hends.closed_remains hwf)

lemma written_done (hwf : h.WellFormed) : Written h h.done := by
  obtain ⟨c, w, hspelling, hc⟩ := exists_of_spelling h.start.spelled
  refine ⟨fun x => ⟨c, ?_, hc⟩, fun hends => closed_append (closed_append (hends.closed_kept hwf))⟩
  rw [done, hspelling, List.append_assoc, List.cons_append,
    skipQuote_of_ne (ne_quote_of_isNameChar hc), List.head?_cons]

lemma Written.rewrites {s : List Char} (hs : Written h s)
    (hquiet : ∀ prev, Logging.quiet n prev s = true) : Rewrites n h s s := fun prev _ _ hx =>
  replaceFrom_of_quiet (hquiet prev) (hx.imp id fun hx => ⟨hs.closed hx.1, hx.2⟩)

/-- The pattern of another header finds nothing. -/
lemma rewrites_chars_of_ne (hwf : h.WellFormed) (hn : ¬ n.text <:+: h.start.name.text) :
    Rewrites n h h.chars h.chars := by
  refine written_chars.rewrites fun prev => ?_
  have hhead : ∀ c ∈ (h.start.separation.text ++ h.body).head?, isNameChar c = false := by
    intro c hc
    rw [List.head?_append_of_ne_nil _ h.start.separation.text_ne_nil] at hc
    have hsilent := List.any_eq_false.mp h.start.separation.silent c (List.mem_of_mem_head? hc)
    exact Bool.eq_false_iff.mpr hsilent
  rw [chars, opening, List.append_assoc, quiet_append_of_silent (quoteIf_silent _),
    quiet_append_of_word (by rwa [h.start.spelled]) hhead,
    quiet_append_of_silent h.start.separation.silent]
  exact quiet_of_none (hwf.quiet n)

lemma rewrites_done (hwf : h.WellFormed) (hn : ¬ n.text <:+: h.start.name.text) :
    Rewrites n h h.done h.done := by
  refine (written_done hwf).rewrites fun prev => ?_
  have hhead : ∀ c ∈ (redacted ++ h.kept).head?, isNameChar c = false := by
    intro c hc
    rw [← Option.some.inj hc]
    decide
  rw [done, quiet_append_of_word (by rwa [h.start.spelled]) hhead]
  exact quiet_redacted (hwf.quiet_kept n)

/-- Behind a header name, what is in front of its credential and the credential are replaced. -/
lemma WellFormed.replaceFrom_body (hwf : h.WellFormed) {x : List Char} (hx : h.FollowedBy x)
    {prev : Option Char} (lead : Bool) (hlead : lead = true ∨ boundary prev = true)
    {spelling : List Char} (hspelling : spelling.map Char.toLower = n.text)
    (hscheme : n.hasScheme = h.hasScheme) :
    replaceFrom (headerStringPattern n) 0 prev
        (quoteIf lead ++ (spelling ++ (h.start.separation.text ++ (h.body ++ x))))
      = spelling ++ (redacted ++ (h.remains ++ replaceFrom (headerStringPattern n) 0
          (lastOf prev (quoteIf lead ++ (spelling ++ (h.start.separation.text ++ h.body))))
          x)) := by
  obtain ⟨read, rest, left, hbody, hrest, hstops, hremains, hread⟩ := hwf.exists_read
  have hvalue : (readRun (read ++ (rest ++ x))).isSome = true := by
    rw [← List.append_assoc, ← hbody, body, List.append_assoc]
    exact isSome_readRun_append hwf.reads _
  have hfollows : Follows rest x :=
    hx.imp id fun hx => ⟨by rw [hrest]; exact closed_append hx.1.closed, hx.2⟩
  rw [hbody, List.append_assoc, hremains]
  exact replaceFrom_start lead hlead hspelling h.start.separation hvalue (hscheme ▸ hread x hx)
    (quiet_skipQuote (hbody ▸ hwf.quiet n) hstops) hfollows

/-- The pattern of the header redacts it. -/
lemma rewrites_chars (hwf : h.WellFormed) (hn : h.start.name = n) (hne : n ≠ .setCookie) :
    Rewrites n h h.chars h.done := by
  intro prev x hprev hx
  have hkept : h.kept = h.remains := by rw [kept, if_neg (hn ▸ hne)]
  have hbody := hwf.replaceFrom_body hx h.start.lead
    (Or.inr (boundary_of_fresh hprev)) (h.start.spelled.trans (by rw [hn]))
    (by rw [hasScheme, hn])
  rw [chars, opening, done, hkept]
  simpa only [List.append_assoc] using hbody

/-- The pattern of `cookie` matches behind the dash of a `set-cookie`. -/
lemma rewrites_chars_setCookie (hwf : h.WellFormed) (hn : h.start.name = .setCookie) :
    Rewrites .cookie h h.chars h.half := by
  intro prev x _ hx
  have hspelled : h.start.spelling.map Char.toLower
      = ['s', 'e', 't', '-'] ++ HeaderName.cookie.text := by
    rw [h.start.spelled, hn]
    rfl
  obtain ⟨first, second, hspelling, hfirst, hsecond⟩ := List.map_eq_append_iff.mp hspelled
  have hne : first ≠ [] := by
    rintro rfl
    cases hfirst
  have hhead : ∀ c ∈ first, c ≠ '"' ∧ HeaderName.cookie.text.head? ≠ some c.toLower := by
    intro c hc
    have hlower : c.toLower ∈ ['s', 'e', 't', '-'] := hfirst ▸ List.mem_map_of_mem hc
    constructor
    · rintro rfl
      exact absurd hlower (by decide)
    · intro heq
      rw [← Option.some.inj heq] at hlower
      exact absurd hlower (by decide)
  have hdash : lastOf prev (quoteIf h.start.lead ++ first) = some '-' := by
    have hlast : (first.map Char.toLower).getLast? = some '-' := by rw [hfirst]; rfl
    rw [List.getLast?_map, Option.map_eq_some_iff] at hlast
    obtain ⟨c, hc, hlower⟩ := hlast
    rw [lastOf, List.getLast?_append_of_ne_nil _ hne, hc, eq_dash_of_toLower hlower]
    rfl
  have hboundary : boundary (lastOf prev (quoteIf h.start.lead ++ first)) = true := by
    rw [hdash]
    decide
  have hbody := hwf.replaceFrom_body hx false (Or.inr hboundary) hsecond
    (by rw [hasScheme, hn]; rfl)
  have hskip := replaceFrom_of_head prev hhead hne h.start.lead
    (second ++ (h.start.separation.text ++ (h.body ++ x)))
  have hlead : quoteIf false = [] := rfl
  rw [hlead, List.nil_append, List.nil_append, ← lastOf_append] at hbody
  rw [hbody] at hskip
  rw [chars, half, opening, hspelling]
  simpa only [List.append_assoc] using hskip

/-- The pattern of `set-cookie` takes what the pattern of `cookie` has written for a value. -/
lemma rewrites_half (hwf : h.WellFormed) (hn : h.start.name = .setCookie) :
    Rewrites .setCookie h h.half h.done := by
  intro prev x hprev hx
  have hstops : Logging.stops (h.remains.dropWhile isRun ++ x) = true := by
    apply stops_append (stops_dropWhile _)
    intro hnil
    rcases hx with rfl | ⟨hends, -⟩
    · rfl
    · have hall := hends.all_remains hwf hn
      rw [List.all_eq_true.mpr (List.dropWhile_eq_nil_iff.mp hnil)] at hall
      cases hall
  have hread : readRun (('[' :: (['R', 'E', 'D', 'A', 'C', 'T', 'E', 'D', ']']
        ++ h.remains.takeWhile isRun)) ++ (h.remains.dropWhile isRun ++ x))
      = some (h.remains.dropWhile isRun ++ x) := by
    refine readRun_append_of_all (by decide) ?_ hstops
    rw [List.all_append, List.all_takeWhile, Bool.and_true]
    decide
  have hquiet : Logging.quiet .setCookie none (skipQuote (h.remains.dropWhile isRun)) = true := by
    have hkept := hwf.quiet_kept .setCookie
    rwa [kept, if_pos hn] at hkept
  have hfollows : Follows (h.remains.dropWhile isRun) x := hx.imp id fun hx =>
    ⟨closed_dropWhile (hx.1.closed_remains hwf) (hx.1.all_remains hwf hn), hx.2⟩
  have hstart := replaceFrom_start (n := .setCookie) h.start.lead
    (Or.inr (boundary_of_fresh hprev)) (h.start.spelled.trans (by rw [hn])) .plain
    (Option.isSome_iff_exists.mpr ⟨_, hread⟩) hread hquiet hfollows
  have hplain : ∀ s, redacted ++ s
      = Separation.plain.text ++ ('[' :: (['R', 'E', 'D', 'A', 'C', 'T', 'E', 'D', ']'] ++ s)) :=
    fun _ => rfl
  have hhalf : h.half = quoteIf h.start.lead ++ (h.start.spelling ++ (Separation.plain.text
      ++ ('[' :: (['R', 'E', 'D', 'A', 'C', 'T', 'E', 'D', ']'] ++ h.remains.takeWhile isRun)
        ++ h.remains.dropWhile isRun))) := by
    simp only [half, opening, hplain, List.append_assoc, List.cons_append, List.nil_append,
      List.takeWhile_append_dropWhile]
  rw [hhalf, done, kept, if_pos hn]
  simpa only [List.append_assoc] using hstart

def afterCookie (h : HeaderText) : List Char :=
  match h.start.name with
  | .cookie => h.done
  | .setCookie => h.half
  | .authorization | .csrfToken => h.chars

def afterSetCookie (h : HeaderText) : List Char :=
  match h.start.name with
  | .cookie | .setCookie => h.done
  | .authorization | .csrfToken => h.chars

def afterAuthorization (h : HeaderText) : List Char :=
  match h.start.name with
  | .cookie | .setCookie | .authorization => h.done
  | .csrfToken => h.chars

/-- A pattern turns header texts that are written in one way into another one. -/
structure Pass (n : HeaderName) (f g : HeaderText → List Char) : Prop where
  written : ∀ h, h.WellFormed → Written h (f h)
  rewrites : ∀ h, h.WellFormed → Rewrites n h (f h) (g h)

lemma pass_cookie : Pass .cookie chars afterCookie where
  written _ _ := written_chars
  rewrites h hwf := by
    rw [afterCookie]
    cases hn : h.start.name with
    | cookie => exact rewrites_chars hwf hn (by decide)
    | setCookie => exact rewrites_chars_setCookie hwf hn
    | authorization => exact rewrites_chars_of_ne hwf (by rw [hn]; decide)
    | csrfToken => exact rewrites_chars_of_ne hwf (by rw [hn]; decide)

lemma pass_setCookie : Pass .setCookie afterCookie afterSetCookie where
  written h hwf := by
    rw [afterCookie]
    cases h.start.name with
    | cookie => exact written_done hwf
    | setCookie => exact written_half hwf
    | authorization | csrfToken => exact written_chars
  rewrites h hwf := by
    rw [afterCookie, afterSetCookie]
    cases hn : h.start.name with
    | cookie => exact rewrites_done hwf (by rw [hn]; decide)
    | setCookie => exact rewrites_half hwf hn
    | authorization => exact rewrites_chars_of_ne hwf (by rw [hn]; decide)
    | csrfToken => exact rewrites_chars_of_ne hwf (by rw [hn]; decide)

lemma pass_authorization : Pass .authorization afterSetCookie afterAuthorization where
  written h hwf := by
    rw [afterSetCookie]
    cases h.start.name with
    | cookie | setCookie => exact written_done hwf
    | authorization | csrfToken => exact written_chars
  rewrites h hwf := by
    rw [afterSetCookie, afterAuthorization]
    cases hn : h.start.name with
    | cookie => exact rewrites_done hwf (by rw [hn]; decide)
    | setCookie => exact rewrites_done hwf (by rw [hn]; decide)
    | authorization => exact rewrites_chars hwf hn (by decide)
    | csrfToken => exact rewrites_chars_of_ne hwf (by rw [hn]; decide)

lemma pass_csrfToken : Pass .csrfToken afterAuthorization done where
  written h hwf := by
    rw [afterAuthorization]
    cases h.start.name with
    | cookie | setCookie | authorization => exact written_done hwf
    | csrfToken => exact written_chars
  rewrites h hwf := by
    rw [afterAuthorization]
    cases hn : h.start.name with
    | cookie => exact rewrites_done hwf (by rw [hn]; decide)
    | setCookie => exact rewrites_done hwf (by rw [hn]; decide)
    | authorization => exact rewrites_done hwf (by rw [hn]; decide)
    | csrfToken => exact rewrites_chars hwf hn (by decide)

end HeaderText

/-! ### Logs -/

open HeaderText

lemma fresh_lastOf {s : List Char} (h : closed s = true) (prev : Option Char) :
    fresh (lastOf prev s) = true := by
  obtain ⟨c, hc, hjoins⟩ := (Option.any_eq_true _ _).mp h
  rw [lastOf, hc, Option.some_or, fresh, Option.any_some]
  exact hjoins

lemma HeaderText.Pass.replaceFrom_flatMap {n : HeaderName} {f g : HeaderText → List Char}
    (hpass : Pass n f g) {headers : List HeaderText} (hwf : ∀ h ∈ headers, h.WellFormed)
    (hends : headers.IsChain fun h _ => h.Ends) {prev : Option Char} (hprev : fresh prev = true) :
    replaceFrom (headerStringPattern n) 0 prev (headers.flatMap f) = headers.flatMap g := by
  induction headers generalizing prev with
  | nil => rfl
  | cons h headers ih =>
    have hhead : h.WellFormed := hwf h List.mem_cons_self
    have hrewrites := hpass.rewrites h hhead prev
    rw [List.flatMap_cons, List.flatMap_cons]
    cases headers with
    | nil => exact hrewrites [] hprev (Or.inl rfl)
    | cons h' headers =>
      obtain ⟨hend, hrest⟩ := List.isChain_cons_cons.mp hends
      have hnext : h'.WellFormed := hwf h' (List.mem_cons_of_mem h List.mem_cons_self)
      have hbegins : Begins ((h' :: headers).flatMap f) := (hpass.written h' hnext).begins _
      have hfresh := fresh_lastOf ((hpass.written h hhead).closed hend) prev
      rw [hrewrites _ hprev (Or.inr ⟨hend, hbegins⟩),
        ih (fun k hk => hwf k (List.mem_cons_of_mem h hk)) hrest hfresh]

/-- A log: what stands before its header texts, and these. -/
structure Log where
  text : List Char
  headers : List HeaderText

namespace Log

variable {l : Log}

def string (l : Log) : String := String.ofList (l.text ++ l.headers.flatMap HeaderText.chars)

structure WellFormed (l : Log) : Prop where
  quiet : ∀ n, quiet n none l.text = true
  closed : l.headers = [] ∨ l.text = [] ∨ closed l.text = true
  headers : ∀ h ∈ l.headers, h.WellFormed
  ends : l.headers.IsChain fun h _ => h.Ends

instance (l : Log) : Decidable l.WellFormed :=
  decidable_of_iff ((∀ n, Logging.quiet n none l.text = true) ∧
      (l.headers = [] ∨ l.text = [] ∨ Logging.closed l.text = true) ∧
      (∀ h ∈ l.headers, h.WellFormed) ∧ l.headers.IsChain fun h _ => h.Ends)
    ⟨fun h => ⟨h.1, h.2.1, h.2.2.1, h.2.2.2⟩, fun h => ⟨h.quiet, h.closed, h.headers, h.ends⟩⟩

lemma WellFormed.replacePattern (hwf : l.WellFormed) {n : HeaderName}
    {f g : HeaderText → List Char} (hpass : Pass n f g) :
    Logging.replacePattern n (l.text ++ l.headers.flatMap f) = l.text ++ l.headers.flatMap g := by
  have hheaders : ∀ prev, fresh prev = true →
      replaceFrom (headerStringPattern n) 0 prev (l.headers.flatMap f) = l.headers.flatMap g :=
    fun _ hprev => hpass.replaceFrom_flatMap hwf.headers hwf.ends hprev
  rw [Logging.replacePattern]
  rcases hwf.closed with hnil | hnil | hclosed
  · rw [hnil, List.flatMap_nil, List.flatMap_nil, replaceFrom_of_quiet (hwf.quiet n) (Or.inl rfl)]
    rfl
  · rw [hnil, List.nil_append, List.nil_append, hheaders none rfl]
  · have hfollows : Follows l.text (l.headers.flatMap f) := by
      cases hh : l.headers with
      | nil => exact Or.inl rfl
      | cons h headers =>
        have hhead : h.WellFormed := hwf.headers h (by rw [hh]; exact List.mem_cons_self)
        exact Or.inr ⟨hclosed, (hpass.written h hhead).begins _⟩
    rw [replaceFrom_of_quiet (hwf.quiet n) hfollows, hheaders _ (fresh_lastOf hclosed none)]

/-- What is logged of a log. -/
lemma WellFormed.redactString (hwf : l.WellFormed) :
    Logging.redactString l.string
      = String.ofList (l.text ++ l.headers.flatMap HeaderText.done) := by
  have hpasses : stringRedactPatterns.foldl (fun out n => Logging.replacePattern n out)
      (l.text ++ l.headers.flatMap HeaderText.chars)
      = l.text ++ l.headers.flatMap HeaderText.done := by
    simp only [stringRedactPatterns, List.foldl_cons, List.foldl_nil]
    rw [hwf.replacePattern pass_cookie, hwf.replacePattern pass_setCookie,
      hwf.replacePattern pass_authorization, hwf.replacePattern pass_csrfToken]
  rw [Logging.redactString, string, String.toList_ofList, hpasses]

end Log

end SafeerApi.Logging
