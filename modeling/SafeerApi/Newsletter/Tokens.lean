import Mathlib
import SafeerApi.Common.SqlNumeric
import SafeerApi.Accounts.PreviewToken

/-!
# Newsletter links (`contact/newsletter-token.util.ts`)

No table: the signature is the proof. A confirmation link expires, an unsubscribe link does not.
-/

namespace SafeerApi.Newsletter

/-! ### Addresses -/

def trimmed (cs : List Char) : List Char :=
  (cs.dropWhile Char.isWhitespace).rdropWhile Char.isWhitespace

/-- `email.trim().toLowerCase()`, of an address the DTO accepts. -/
def normalized (email : String) : String := String.ofList ((trimmed email.toList).map Char.toLower)

lemma isWhitespace_toLower (c : Char) : c.toLower.isWhitespace = c.isWhitespace := by
  have hblank : ∀ d : Char, d.isWhitespace = true → d.isAlpha = false := by
    intro d hd
    simp only [Char.isWhitespace, Bool.or_eq_true, decide_eq_true_eq] at hd
    rcases hd with ((rfl | rfl) | rfl) | rfl <;> decide
  cases hupper : c.isUpper with
  | true =>
    have halpha : c.isAlpha = true := by simp [Char.isAlpha, hupper]
    have hlower : c.toLower.isAlpha = true := by rw [Char.isAlpha_toLower_eq_isAlpha, halpha]
    have hc : c.isWhitespace = false := by
      rw [Bool.eq_false_iff]
      exact fun h => by simp [hblank c h] at halpha
    rw [hc, Bool.eq_false_iff]
    exact fun h => by simp [hblank _ h] at hlower
  | false => rw [Char.toLower_eq_of_not_isUpper (by simp [hupper])]

lemma trimmed_map_toLower (cs : List Char) :
    trimmed (cs.map Char.toLower) = (trimmed cs).map Char.toLower := by
  have hcomp : (Char.isWhitespace ∘ Char.toLower) = Char.isWhitespace :=
    funext isWhitespace_toLower
  simp only [trimmed, List.rdropWhile, List.dropWhile_map, ← List.map_reverse, hcomp]

lemma trimmed_trimmed (cs : List Char) : trimmed (trimmed cs) = trimmed cs := by
  have hhead : (trimmed cs).dropWhile Char.isWhitespace = trimmed cs := by
    rw [List.dropWhile_eq_self_iff]
    intro hpos
    have hfirst : trimmed cs <+: cs.dropWhile Char.isWhitespace :=
      List.rdropWhile_prefix Char.isWhitespace _
    rw [hfirst.getElem hpos]
    exact List.dropWhile_get_zero_not Char.isWhitespace cs (Nat.lt_of_lt_of_le hpos hfirst.length_le)
  conv_lhs => rw [trimmed, hhead]
  exact List.rdropWhile_idempotent _ _

/-- A normalized address is its own. -/
lemma normalized_normalized (email : String) : normalized (normalized email) = normalized email := by
  have hlower : Char.toLower ∘ Char.toLower = Char.toLower :=
    funext Char.toLower_toLower_eq_toLower
  simp only [normalized, String.toList_ofList, trimmed_map_toLower, trimmed_trimmed, List.map_map,
    hlower]

/-! ### Tokens -/

/-- The runtime and the keyed hash, of which the links rely on this: a time in a template is digits
that `Number` reads back. -/
structure TokenEnv extends Accounts.PreviewEnv where
  number_print : ∀ ms : ℕ, number (print ms) = some (ms : ℚ)
  print_ne_nil : ∀ ms : ℕ, (print ms).toList ≠ []
  print_no_dot : ∀ ms : ℕ, '.' ∉ (print ms).toList

inductive NewsletterAction where
  | confirm
  | unsubscribe
  deriving DecidableEq, Repr

def NewsletterAction.text : NewsletterAction → String
  | .confirm => "confirm"
  | .unsubscribe => "unsubscribe"

def confirmTtlMs : ℕ := 7 * 24 * 60 * 60 * 1000

def sign (env : TokenEnv) (action : NewsletterAction) (email : String) (expiresAtMs : Option ℚ) :
    String :=
  env.hmac (action.text ++ "|" ++ normalized email ++ "|" ++ (expiresAtMs.map env.print).getD "")

def issueNewsletterToken (env : TokenEnv) (action : NewsletterAction) (email : String) (now : ℕ) :
    String :=
  match action with
  | .unsubscribe => sign env action email none
  | .confirm =>
    let expiresAtMs : ℚ := (now + confirmTtlMs : ℕ)
    env.print expiresAtMs ++ "." ++ sign env action email (some expiresAtMs)

def verifyNewsletterToken (env : TokenEnv) (action : NewsletterAction) (email token : String)
    (now : ℕ) : Bool :=
  match action with
  | .unsubscribe => sign env action email none = token
  | .confirm =>
    match token.toList.span (· ≠ '.') with
    | (_, []) | ([], _) => false
    | (expiresAtRaw, _ :: sig) =>
      match env.number (String.ofList expiresAtRaw) with
      | none => false
      | some expiresAtMs =>
        if (now : ℚ) > expiresAtMs then false
        else sign env action email (some expiresAtMs) = String.ofList sig

/-- A confirmation link is accepted for seven days. -/
lemma verify_issue (env : TokenEnv) (email : String) {issuedAt now : ℕ}
    (h : now ≤ issuedAt + confirmTtlMs) :
    verifyNewsletterToken env .confirm email (issueNewsletterToken env .confirm email issuedAt) now =
      true := by
  have hdot := env.print_no_dot (issuedAt + confirmTtlMs)
  have hnil := env.print_ne_nil (issuedAt + confirmTtlMs)
  have hnumber := env.number_print (issuedAt + confirmTtlMs)
  simp only [issueNewsletterToken]
  generalize hsig : sign env .confirm email (some ((issuedAt + confirmTtlMs : ℕ) : ℚ)) = sig
  generalize hprint : env.print ((issuedAt + confirmTtlMs : ℕ) : ℚ) = printed at *
  have hspan : (printed ++ "." ++ sig).toList.span (· ≠ '.') =
      (printed.toList, '.' :: sig.toList) := by
    have htext : (printed ++ "." ++ sig).toList = printed.toList ++ '.' :: sig.toList := by simp
    have hdigits : ∀ c ∈ printed.toList, decide (c ≠ '.') = true := by
      intro c hc
      exact decide_eq_true fun heq => hdot (heq ▸ hc)
    rw [htext, List.span_eq_takeWhile_dropWhile, List.takeWhile_append_of_pos hdigits,
      List.dropWhile_append_of_pos hdigits]
    simp
  have hcons : ∃ c cs, printed.toList = c :: cs := List.exists_cons_of_ne_nil hnil
  obtain ⟨c, cs, hcs⟩ := hcons
  have hlate : ¬ (now : ℚ) > ((issuedAt + confirmTtlMs : ℕ) : ℚ) := by
    rw [gt_iff_lt, not_lt]
    exact_mod_cast h
  have htext : String.ofList (c :: cs) = printed := by rw [← hcs, String.ofList_toList]
  simp only [verifyNewsletterToken, hspan, hcs, htext, hnumber, if_neg hlate, hsig,
    String.ofList_toList, decide_true]

/-- Decimal numerals, and a keyed hash that shows what it was given. -/
def TokenEnv.decimal (key : String) : TokenEnv where
  number text := (Common.SqlNumeric.decimal.rowId text).map (Nat.cast : ℕ → ℚ)
  print ms := toString ms.num.toNat
  hmac text := key ++ text
  number_print ms := by
    have hnum : (ms : ℚ).num.toNat = ms := by simp
    rw [hnum, Common.SqlNumeric.decimal.canonical, Option.map_some]
  print_ne_nil ms := by
    have hnum : (ms : ℚ).num.toNat = ms := by simp
    have htext : (toString ms).toList = Nat.toDigits 10 ms := Nat.toList_repr
    rw [hnum, htext]
    exact Nat.toDigits_ne_nil
  print_no_dot ms := by
    have hnum : (ms : ℚ).num.toNat = ms := by simp
    have htext : (toString ms).toList = Nat.toDigits 10 ms := Nat.toList_repr
    rw [hnum, htext]
    intro hdot
    exact absurd (Nat.isDigit_of_mem_toDigits (by decide) (by decide) hdot) (by decide)

end SafeerApi.Newsletter
