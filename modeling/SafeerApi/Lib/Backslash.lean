import Mathlib.Data.List.Basic
import Mathlib.Tactic.Common

/-!
# Backslash escapes

A writer puts a backslash before the characters it does not want to be taken for syntax; a reader
drops a backslash in front of the characters that can be escaped, and takes any other backslash for
itself. What a writer escapes is read back, whatever follows it, when it escapes the backslash and
only what the reader can take back.
-/

namespace SafeerApi.Lib

/-- A character, with a backslash before it when it meets `p`. -/
def escapeChar (p : Char → Bool) (c : Char) : List Char := if p c then ['\\', c] else [c]

def escapeChars (p : Char → Bool) (text : List Char) : List Char := text.flatMap (escapeChar p)

/-- Drop the backslashes before characters that meet `escapable`. -/
def unescape (escapable : Char → Bool) : List Char → List Char
  | '\\' :: c :: rest =>
    if escapable c then c :: unescape escapable rest else '\\' :: unescape escapable (c :: rest)
  | c :: rest => c :: unescape escapable rest
  | [] => []

variable {p q escapable : Char → Bool}

@[simp] lemma escapeChars_nil : escapeChars p [] = [] := rfl

@[simp] lemma escapeChars_cons (c : Char) (text : List Char) :
    escapeChars p (c :: text) = escapeChar p c ++ escapeChars p text := rfl

@[simp] lemma escapeChars_append (a b : List Char) :
    escapeChars p (a ++ b) = escapeChars p a ++ escapeChars p b := List.flatMap_append

/-- Two passes escape what one of them would, when the second one leaves alone what the first one
has escaped, and its backslashes. -/
lemma escapeChars_escapeChars (hq : q '\\' = false) (hpq : ∀ c, p c → q c = false)
    (text : List Char) :
    escapeChars q (escapeChars p text) = escapeChars (fun c => p c || q c) text := by
  induction text with
  | nil => rfl
  | cons c text ih =>
    rw [escapeChars_cons, escapeChars_append, ih, escapeChars_cons]
    apply congrArg (· ++ _)
    by_cases hc : p c
    · simp [escapeChar, hc, hq, hpq c hc]
    · simp [escapeChar, hc]

lemma unescape_cons {c : Char} (hc : c ≠ '\\') (rest : List Char) :
    unescape escapable (c :: rest) = c :: unescape escapable rest := by
  rw [unescape.eq_def]
  split
  · next heq => exact absurd (List.cons.inj heq).1 hc
  · next heq =>
    obtain ⟨rfl, rfl⟩ := List.cons.inj heq
    rfl
  · next heq => cases heq

lemma unescape_escaped {c : Char} (hc : escapable c) (rest : List Char) :
    unescape escapable ('\\' :: c :: rest) = c :: unescape escapable rest := by
  rw [unescape, if_pos hc]

/-- What was escaped is read back. -/
lemma unescape_escapeChars_append (hslash : p '\\') (hp : ∀ c, p c → escapable c)
    (text rest : List Char) :
    unescape escapable (escapeChars p text ++ rest) = text ++ unescape escapable rest := by
  induction text with
  | nil => rfl
  | cons c text ih =>
    rw [escapeChars_cons, List.append_assoc]
    by_cases hc : p c
    · rw [escapeChar, if_pos hc, List.cons_append, List.cons_append, List.nil_append,
        unescape_escaped (hp c hc), ih, List.cons_append]
    · have hne : c ≠ '\\' := by
        rintro rfl
        exact hc hslash
      rw [escapeChar, if_neg hc, List.cons_append, List.nil_append, unescape_cons hne, ih,
        List.cons_append]

end SafeerApi.Lib
