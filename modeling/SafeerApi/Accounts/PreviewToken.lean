import Mathlib.Algebra.Order.Ring.Unbundled.Rat
import Mathlib.Tactic.Common

/-!
# Preview tokens (`auth/preview-token.util.ts`)

A token lets its bearer see one unpublished row for a while: its expiry and a keyed hash of what it
is for.
-/

namespace SafeerApi.Accounts

/-- What the runtime does with numbers, and the hash under the key derived from the
application's. -/
structure PreviewEnv where
  /-- `Number(text)`, when it is finite. -/
  number : String → Option ℚ
  /-- A number in a template. -/
  print : ℚ → String
  /-- `createHmac('sha256', key).update(text).digest('base64url')` -/
  hmac : String → String

def previewTokenTtlSeconds : ℕ := 15 * 60

def sign (env : PreviewEnv) (collection id : String) (expiresAtMs : ℚ) : String :=
  env.hmac (collection ++ "|" ++ id ++ "|" ++ env.print expiresAtMs)

def issuePreviewToken (env : PreviewEnv) (now : ℕ) (collection id : String) : String :=
  let expiresAtMs : ℚ := (now + previewTokenTtlSeconds * 1000 : ℕ)
  env.print expiresAtMs ++ "." ++ sign env collection id expiresAtMs

/-- `token` authorises exactly this row of the collection, and has not expired. -/
def verifyPreviewToken (env : PreviewEnv) (now : ℕ) (collection id token : String) : Bool :=
  match token.toList.span (· ≠ '.') with
  | (_, []) | ([], _) => false
  | (expiresAtRaw, _ :: signature) =>
    match env.number (String.ofList expiresAtRaw) with
    | none => false
    | some expiresAtMs =>
      if (now : ℚ) > expiresAtMs then false
      else sign env collection id expiresAtMs = String.ofList signature

/-- A token that is valid was valid at every earlier time. -/
lemma verifyPreviewToken_earlier {env : PreviewEnv} {now later : ℕ} (hle : now ≤ later)
    {collection id token : String}
    (h : verifyPreviewToken env later collection id token = true) :
    verifyPreviewToken env now collection id token = true := by
  have hle : (now : ℚ) ≤ later := by exact_mod_cast hle
  unfold verifyPreviewToken at h ⊢
  generalize token.toList.span (· ≠ '.') = parts at h ⊢
  split at h
  · cases h
  · cases h
  · next expiresAtRaw c signature _ =>
    cases hnumber : env.number (String.ofList expiresAtRaw) with
    | none => rw [hnumber] at h; cases h
    | some expiresAtMs =>
      simp only [hnumber] at h ⊢
      split_ifs at h with hlate
      have hearly : ¬(now : ℚ) > expiresAtMs := fun hlt => hlate (hlt.trans_le hle)
      rw [if_neg hearly]
      exact h

end SafeerApi.Accounts
