import Mathlib.Data.List.Chain
import SafeerApi.Logging.RedactedLogs

/-!
# Two logs that differ in their values

What is logged of two such logs is the same exactly if the same is left of their values. The names
in a redacted log are where a pattern still finds them, so that what is left between two of them can
be told from the log.
-/

namespace SafeerApi.Logging

open Common Lib

/-! ### What is left, told from a redacted log -/

lemma HeaderText.opens_done (h : HeaderText) (x : List Char) :
    opens h.start.name (h.done ++ x) = true := by
  have hvalue : (readRun ('[' :: (['R', 'E', 'D', 'A', 'C', 'T', 'E', 'D', ']']
      ++ (h.kept ++ x)))).isSome = true := by
    rw [readRun, if_pos (by decide)]
    rfl
  have hstart := readStart_append h.start.spelled .plain hvalue
  have hsplit : h.done ++ x = h.start.spelling ++ (Separation.plain.text
      ++ ('[' :: (['R', 'E', 'D', 'A', 'C', 'T', 'E', 'D', ']'] ++ (h.kept ++ x)))) := by
    rw [HeaderText.done, List.append_assoc, List.append_assoc]
    rfl
  rw [opens, hsplit, hstart]
  rfl

/-- A quiet text ends where a header text begins. -/
lemma append_left_cancel_of_opens {n : HeaderName} {s w y y' : List Char}
    (hquiet : quiet n none (s ++ w) = true) (hs : closed s = true) (hw : w ≠ [] → closed w = true)
    (hy : opens n y = true) (hy' : Begins y') (heq : y = w ++ y') : w = [] := by
  by_contra hne
  have hopens : opens n w = true := opens_append (hw hne) hy' (heq ▸ hy)
  have hsilent : opens n w = false :=
    not_opens_of_quiet (quiet_of_append hquiet) (boundary_of_fresh (fresh_lastOf hs none))
  rw [hopens] at hsilent
  cases hsilent

lemma eq_of_append_eq {n : HeaderName} {s s' y y' : List Char} (hquiet : quiet n none s = true)
    (hquiet' : quiet n none s' = true) (hs : closed s = true) (hs' : closed s' = true)
    (hy : opens n y = true ∧ Begins y) (hy' : opens n y' = true ∧ Begins y')
    (heq : s ++ y = s' ++ y') : s = s' := by
  rcases List.append_eq_append_iff.mp heq with ⟨w, rfl, hw⟩ | ⟨w, rfl, hw⟩
  · have hnil : w = [] := append_left_cancel_of_opens hquiet' hs
      (fun hne => closed_of_append hne hs') hy.1 hy'.2 hw
    rw [hnil, List.append_nil]
  · have hnil : w = [] := append_left_cancel_of_opens hquiet hs'
      (fun hne => closed_of_append hne hs) hy'.1 hy.2 hw
    rw [hnil, List.append_nil]

/-! ### Two logs -/

/-- `cookie: ` -/
def HeaderStart.raw (name : HeaderName) : HeaderStart where
  name := name
  lead := false
  spelling := name.text
  separation := .plain
  spelled := by cases name <;> decide

/-- `"cookie":"` -/
def HeaderStart.json (name : HeaderName) : HeaderStart where
  name := name
  lead := true
  spelling := name.text
  separation := .json
  spelled := by cases name <;> decide

namespace Log

/-- A log that is a `cookie`. -/
def cookieLog (value : String) : Log where
  text := []
  headers := [⟨.raw .cookie, value.toList, []⟩]

/-- Two logs are the same up to the values of their header texts. -/
structure SameButValues (l l' : Log) : Prop where
  text : l.text = l'.text
  headers : List.Forall₂ (fun h h' => h.start = h'.start ∧ h.text = h'.text) l.headers l'.headers

variable {l l' : Log} {hs hs' : List HeaderText}

lemma map_kept_of_flatMap_done
    (hsame : List.Forall₂ (fun h h' : HeaderText => h.start = h'.start ∧ h.text = h'.text) hs hs')
    (hwf : ∀ h ∈ hs, h.WellFormed) (hwf' : ∀ h ∈ hs', h.WellFormed)
    (hends : hs.IsChain fun h _ => h.Ends) (hends' : hs'.IsChain fun h _ => h.Ends)
    (heq : hs.flatMap HeaderText.done = hs'.flatMap HeaderText.done) :
    hs.map HeaderText.kept = hs'.map HeaderText.kept := by
  induction hsame with
  | nil => rfl
  | @cons h h' hs hs' hhead hsame ih =>
    have hrest : h.kept ++ hs.flatMap HeaderText.done
        = h'.kept ++ hs'.flatMap HeaderText.done := by
      simp only [List.flatMap_cons, HeaderText.done, hhead.1, List.append_assoc,
        List.append_cancel_left_eq] at heq
      exact heq
    have hkept : h.kept = h'.kept := by
      cases hsame with
      | nil => simpa using hrest
      | @cons k k' hs hs' hnext hsame =>
        have hk : k.WellFormed := hwf k (List.mem_cons_of_mem h List.mem_cons_self)
        have hk' : k'.WellFormed := hwf' k' (List.mem_cons_of_mem h' List.mem_cons_self)
        have hopens : opens k.start.name ((k' :: hs').flatMap HeaderText.done) = true := by
          rw [hnext.1]
          exact k'.opens_done _
        exact eq_of_append_eq ((hwf h List.mem_cons_self).quiet_kept k.start.name)
          ((hwf' h' List.mem_cons_self).quiet_kept k.start.name)
          ((List.isChain_cons_cons.mp hends).1.closed_kept (hwf h List.mem_cons_self))
          ((List.isChain_cons_cons.mp hends').1.closed_kept (hwf' h' List.mem_cons_self))
          ⟨k.opens_done _, (HeaderText.written_done hk).begins _⟩
          ⟨hopens, (HeaderText.written_done hk').begins _⟩ hrest
    rw [hkept, List.append_cancel_left_eq] at hrest
    rw [List.map_cons, List.map_cons, hkept, ih (fun k hk => hwf k (List.mem_cons_of_mem h hk))
      (fun k hk => hwf' k (List.mem_cons_of_mem h' hk)) hends.tail hends'.tail hrest]

lemma flatMap_done_of_map_kept
    (hsame : List.Forall₂ (fun h h' : HeaderText => h.start = h'.start ∧ h.text = h'.text) hs hs')
    (hkept : hs.map HeaderText.kept = hs'.map HeaderText.kept) :
    hs.flatMap HeaderText.done = hs'.flatMap HeaderText.done := by
  induction hsame with
  | nil => rfl
  | cons hhead hsame ih =>
    obtain ⟨hfirst, hrest⟩ := List.cons.inj hkept
    rw [List.flatMap_cons, List.flatMap_cons, ih hrest, HeaderText.done, HeaderText.done, hfirst,
      hhead.1]

/-- Nothing but the text is left of a value that is one credential. -/
lemma remains_of_read {h : HeaderText} (hwf : h.WellFormed)
    (hread : readValue h.hasScheme h.value = some []) : h.remains = skipQuote h.text := by
  rw [HeaderText.remains, HeaderText.body, readValue_append hwf.stops hwf.credential, hread,
    Option.map_some, Option.getD_some, List.nil_append]

/-- Values that are one credential each are redacted alike. -/
theorem redactString_eq_of_read (hwf : l.WellFormed) (hwf' : l'.WellFormed)
    (hsame : l.SameButValues l')
    (hread : ∀ h ∈ l.headers, readValue h.hasScheme h.value = some [])
    (hread' : ∀ h ∈ l'.headers, readValue h.hasScheme h.value = some []) :
    redactString l.string = redactString l'.string := by
  have hkept : ∀ {hs hs'}, List.Forall₂ (fun h h' : HeaderText => h.start = h'.start ∧
      h.text = h'.text) hs hs' → (∀ h ∈ hs, h.remains = skipQuote h.text) →
      (∀ h ∈ hs', h.remains = skipQuote h.text) →
      hs.map HeaderText.kept = hs'.map HeaderText.kept := by
    intro hs hs' hsame hrest hrest'
    induction hsame with
    | nil => rfl
    | @cons h h' hs hs' hhead hsame ih =>
      obtain ⟨hfirst, hrest⟩ := List.forall_mem_cons.mp hrest
      obtain ⟨hfirst', hrest'⟩ := List.forall_mem_cons.mp hrest'
      rw [List.map_cons, List.map_cons, ih hrest hrest', HeaderText.kept, HeaderText.kept, hfirst,
        hfirst', hhead.1, hhead.2]
  have hdone := flatMap_done_of_map_kept hsame.headers (hkept hsame.headers
    (fun h hh => remains_of_read (hwf.headers h hh) (hread h hh))
    fun h hh => remains_of_read (hwf'.headers h hh) (hread' h hh))
  rw [hwf.redactString, hwf'.redactString, hsame.text, hdone]

/-- Of two logs that differ in their values the same is logged exactly if the same is left of the
values, each with the text behind it. -/
theorem redactString_eq_iff (hwf : l.WellFormed) (hwf' : l'.WellFormed)
    (hsame : l.SameButValues l') :
    redactString l.string = redactString l'.string ↔
      l.headers.map HeaderText.kept = l'.headers.map HeaderText.kept := by
  rw [hwf.redactString, hwf'.redactString, String.ofList_inj, hsame.text,
    List.append_cancel_left_eq]
  exact ⟨map_kept_of_flatMap_done hsame.headers hwf.headers hwf'.headers hwf.ends hwf'.ends,
    flatMap_done_of_map_kept hsame.headers⟩

/-- A cookie, a new one and a token, raw and as JSON. -/
def exchange (cookie setCookie token : String) : Log where
  text := "in ".toList
  headers := [⟨.raw .cookie, cookie.toList, ", ".toList⟩,
    ⟨.raw .setCookie, setCookie.toList, ", ".toList⟩,
    ⟨.json .authorization, token.toList, "\" ok".toList⟩]

theorem redactString_eq_exchange :
    redactString (exchange "a=1" "a=2; Path=/" "Bearer x").string
      = redactString (exchange "b=31" "a=44; Path=/" "Basic yz").string := by
  have hwf : (exchange "a=1" "a=2; Path=/" "Bearer x").WellFormed := by decide +kernel
  have hwf' : (exchange "b=31" "a=44; Path=/" "Basic yz").WellFormed := by decide +kernel
  have hsame : (exchange "a=1" "a=2; Path=/" "Bearer x").SameButValues
      (exchange "b=31" "a=44; Path=/" "Basic yz") :=
    ⟨rfl, .cons ⟨rfl, rfl⟩ (.cons ⟨rfl, rfl⟩ (.cons ⟨rfl, rfl⟩ .nil))⟩
  exact (redactString_eq_iff hwf hwf' hsame).mpr (by decide)

/-- Only the first of two cookies is redacted. -/
theorem redactString_shows_cookie :
    ¬ ∀ l l' : Log, l.WellFormed → l'.WellFormed → l.SameButValues l' →
      redactString l.string = redactString l'.string := by
  have hwf : ∀ value ∈ ["a=1; b=x", "a=1; b=y"], (cookieLog value).WellFormed := by decide
  intro h
  have heq := h (cookieLog "a=1; b=x") (cookieLog "a=1; b=y") (hwf _ (by decide))
    (hwf _ (by decide)) ⟨rfl, .cons ⟨rfl, rfl⟩ .nil⟩
  rw [(hwf _ (by decide)).redactString, (hwf _ (by decide)).redactString, String.ofList_inj] at heq
  exact absurd heq (by decide)

end Log

end SafeerApi.Logging
