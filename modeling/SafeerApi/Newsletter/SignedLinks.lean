import SafeerApi.Common.ListParams
import SafeerApi.Lib.Joined
import SafeerApi.Newsletter.Tokens

/-!
# What a signed link is for (`newsletter-token.util.ts`, `preview-token.util.ts`)

The signed text joins three fields with bars. The first and the last hold no bar, so that the
second may be any text: an address or an id with bars in it is still told apart from every other.
Addresses are any texts here, trimmed and lower-cased as the runtime does it.
-/

namespace SafeerApi.Accounts

/-! ### The runtime and the hash -/

/-- The value of a finite number: some text is read as it. -/
def PreviewEnv.IsNumber (env : PreviewEnv) (x : ℚ) : Prop := ∃ text, env.number text = some x

/-- A clock reading is at most this many milliseconds. -/
def maxTime : ℕ := 8640000000000000

/-- What `Date.now()` may return. -/
structure Time where
  ms : ℕ
  ms_le : ms ≤ maxTime

/-- What the signatures rely on. The hash tells all texts apart and is written without a dot. The
natural numbers below `2 ^ 53` are numbers; a number in a template is read back as that number, has
no bar in it, and no dot if it is one of these. -/
structure SigningEnv extends PreviewEnv where
  hmac_injective : Function.Injective hmac
  hmac_no_dot : ∀ text, '.' ∉ (hmac text).toList
  isNumber_nat : ∀ n : ℕ, n < 2 ^ 53 → toPreviewEnv.IsNumber n
  number_print : ∀ x, toPreviewEnv.IsNumber x → number (print x) = some x
  print_ne_empty : ∀ x, toPreviewEnv.IsNumber x → print x ≠ ""
  print_no_bar : ∀ x, toPreviewEnv.IsNumber x → '|' ∉ (print x).toList
  print_no_dot : ∀ n : ℕ, n < 2 ^ 53 → '.' ∉ (print (n : ℚ)).toList

/-- `token` is a number, a dot and `signature`, and the number is `x`. -/
def PreviewEnv.Dated (env : PreviewEnv) (token signature : String) (x : ℚ) : Prop :=
  ∃ raw, token = raw ++ "." ++ signature ∧ raw ≠ "" ∧ '.' ∉ raw.toList ∧ env.number raw = some x

lemma PreviewEnv.Dated.isNumber {env : PreviewEnv} {token signature : String} {x : ℚ}
    (h : env.Dated token signature x) : env.IsNumber x := by
  obtain ⟨raw, -, -, -, hnumber⟩ := h
  exact ⟨raw, hnumber⟩

/-- A token is read as a number and a signature in one way. -/
lemma PreviewEnv.Dated.unique {env : PreviewEnv} {token signature signature' : String} {x x' : ℚ}
    (h : env.Dated token signature x) (h' : env.Dated token signature' x') :
    signature = signature' ∧ x = x' := by
  obtain ⟨raw, rfl, -, hdot, hnumber⟩ := h
  obtain ⟨raw', heq, -, hdot', hnumber'⟩ := h'
  have hlists : raw.toList ++ '.' :: signature.toList
      = raw'.toList ++ '.' :: signature'.toList := by
    simpa using congrArg String.toList heq
  obtain ⟨hraw, hsignature⟩ := Lib.append_sep_inj hdot hdot' hlists
  rw [String.toList_inj.mp hraw, hnumber', Option.some.injEq] at hnumber
  exact ⟨String.toList_inj.mp hsignature, hnumber.symm⟩

/-- The check of a dated token: what is before its first dot is a number that has not passed, and
what is after it is the signature for that number. -/
def checkDated (env : PreviewEnv) (now : ℕ) (token : String) (sign : ℚ → String) : Bool :=
  match token.toList.span (· ≠ '.') with
  | (_, []) | ([], _) => false
  | (expiresAtRaw, _ :: signature) =>
    match env.number (String.ofList expiresAtRaw) with
    | none => false
    | some expiresAtMs =>
      if (now : ℚ) > expiresAtMs then false
      else sign expiresAtMs = String.ofList signature

lemma verifyPreviewToken_eq (env : PreviewEnv) (now : ℕ) (collection id token : String) :
    verifyPreviewToken env now collection id token
      = checkDated env now token (sign env collection id) := rfl

lemma span_dot {raw signature : List Char} (hdot : '.' ∉ raw) :
    (raw ++ '.' :: signature).span (· ≠ '.') = (raw, '.' :: signature) := by
  have hraw : ∀ c ∈ raw, decide (c ≠ '.') = true := by
    intro c hc
    exact decide_eq_true fun heq => hdot (heq ▸ hc)
  rw [List.span_eq_takeWhile_dropWhile, List.takeWhile_append_of_pos hraw,
    List.dropWhile_append_of_pos hraw]
  simp

/-- The parts of a dated token are what is before its first dot and what is after it. -/
lemma PreviewEnv.dated_iff {env : PreviewEnv} {token signature : String} {x : ℚ}
    {before after : List Char} (htoken : token.toList = before ++ '.' :: after)
    (hdot : '.' ∉ before) : env.Dated token signature x ↔
      before ≠ [] ∧ env.number (String.ofList before) = some x ∧ signature = String.ofList after := by
  constructor
  · rintro ⟨raw, rfl, hraw, hdot', hnumber⟩
    have hlists : raw.toList ++ '.' :: signature.toList = before ++ '.' :: after := by
      simpa using htoken
    obtain ⟨rfl, rfl⟩ := Lib.append_sep_inj hdot' hdot hlists
    rw [String.ofList_toList, String.ofList_toList]
    exact ⟨fun h => hraw (String.toList_inj.mp h), hnumber, rfl⟩
  · rintro ⟨hbefore, hnumber, rfl⟩
    refine ⟨String.ofList before, ?_, ?_, ?_, hnumber⟩
    · apply String.toList_inj.mp
      simpa using htoken
    · intro h
      exact hbefore (by simpa using congrArg String.toList h)
    · simpa using hdot

/-- A token without a dot is not dated. -/
lemma PreviewEnv.Dated.dot_mem {env : PreviewEnv} {token signature : String} {x : ℚ}
    (h : env.Dated token signature x) : '.' ∈ token.toList := by
  obtain ⟨raw, rfl, -, -, -⟩ := h
  simp

lemma checkDated_iff {env : PreviewEnv} {now : ℕ} {token : String} {sign : ℚ → String} :
    checkDated env now token sign = true ↔
      ∃ signature x, env.Dated token signature x ∧ (now : ℚ) ≤ x ∧ signature = sign x := by
  by_cases hmem : '.' ∈ token.toList
  · obtain ⟨before, after, htoken, hdot⟩ := List.eq_append_cons_of_mem hmem
    simp only [PreviewEnv.dated_iff htoken hdot]
    rw [checkDated, htoken, span_dot hdot]
    cases before with
    | nil => simp
    | cons c before =>
      dsimp only
      cases hnumber : env.number (String.ofList (c :: before)) with
      | none => simp only [reduceCtorEq, false_and, and_false, exists_false, Bool.false_eq_true]
      | some x =>
        dsimp only
        by_cases hlate : (now : ℚ) > x
        · rw [if_pos hlate]
          simp only [Bool.false_eq_true, Option.some.injEq, false_iff]
          rintro ⟨signature, x', ⟨-, rfl, -⟩, hle, -⟩
          exact absurd hle (not_le.mpr hlate)
        · rw [if_neg hlate, decide_eq_true_iff]
          constructor
          · intro hsign
            exact ⟨_, x, ⟨List.cons_ne_nil c before, rfl, rfl⟩, not_lt.mp hlate, hsign.symm⟩
          · rintro ⟨signature, x', ⟨-, hx, rfl⟩, -, hsign⟩
            rw [hsign, Option.some.inj hx]
  · have hspan : token.toList.span (· ≠ '.') = (token.toList, []) := by
      have hall : ∀ c ∈ token.toList, decide (c ≠ '.') = true := by
        intro c hc
        exact decide_eq_true fun heq => hmem (heq ▸ hc)
      rw [List.span_eq_takeWhile_dropWhile, List.takeWhile_eq_self_iff.mpr hall,
        List.dropWhile_eq_nil_iff.mpr hall]
    rw [checkDated, hspan]
    constructor
    · intro h
      cases h
    · rintro ⟨signature, x, hdated, -, -⟩
      exact absurd hdated.dot_mem hmem

/-- The text that is signed tells its fields apart, when the first and the last hold no bar. -/
lemma fields_inj {a b c a' b' c' : String} (ha : '|' ∉ a.toList) (ha' : '|' ∉ a'.toList)
    (hc : '|' ∉ c.toList) (hc' : '|' ∉ c'.toList)
    (h : a ++ "|" ++ b ++ "|" ++ c = a' ++ "|" ++ b' ++ "|" ++ c') : a = a' ∧ b = b' ∧ c = c' := by
  have hlists : a.toList ++ '|' :: (b.toList ++ '|' :: c.toList)
      = a'.toList ++ '|' :: (b'.toList ++ '|' :: c'.toList) := by
    simpa using congrArg String.toList h
  obtain ⟨hfirst, hrest⟩ := Lib.append_sep_inj ha ha' hlists
  -- from the other end the last field comes first
  have hreversed : c.toList.reverse ++ '|' :: b.toList.reverse
      = c'.toList.reverse ++ '|' :: b'.toList.reverse := by
    simpa using congrArg List.reverse hrest
  obtain ⟨hlast, hmiddle⟩ := Lib.append_sep_inj (by simpa using hc) (by simpa using hc') hreversed
  exact ⟨String.toList_inj.mp hfirst, String.toList_inj.mp (List.reverse_inj.mp hmiddle),
    String.toList_inj.mp (List.reverse_inj.mp hlast)⟩

namespace SigningEnv

variable (env : SigningEnv)

lemma print_inj {x x' : ℚ} (hx : env.IsNumber x) (hx' : env.IsNumber x')
    (h : env.print x = env.print x') : x = x' := by
  have hread : some x = some x' := by rw [← env.number_print x hx, h, env.number_print x' hx']
  exact Option.some.inj hread

lemma isNumber_expiry (now : Time) {ttl : ℕ} (httl : ttl ≤ 10 ^ 12) :
    now.ms + ttl < 2 ^ 53 := by
  have hle := now.ms_le
  unfold maxTime at hle
  omega

/-- A printed time in front of a signature is read as that time. -/
lemma dated_print {n : ℕ} (hn : n < 2 ^ 53) (signature : String) :
    env.Dated (env.print (n : ℚ) ++ "." ++ signature) signature n :=
  ⟨env.print n, rfl, env.print_ne_empty n (env.isNumber_nat n hn), env.print_no_dot n hn,
    env.number_print n (env.isNumber_nat n hn)⟩

end SigningEnv

/-! ### Previews -/

/-- Preview links are exact: a token is accepted if and only if its signature is the one for this
collection, this id and the expiry it names, which has not passed; signatures for different rows or
expiries differ, so that a signature behind another expiry is refused; and an issued token is
accepted for its own row, until it expires, and for no other. No name of a collection has a bar in
it. -/
structure PreviewsExact (env : SigningEnv) : Prop where
  verify_iff : ∀ (now : Time) collection id token,
    verifyPreviewToken env.toPreviewEnv now.ms collection id token = true ↔
      ∃ signature expiry, env.Dated token signature expiry ∧ (now.ms : ℚ) ≤ expiry ∧
        signature = sign env.toPreviewEnv collection id expiry
  sign_iff : ∀ {collection collection' id id' expiry expiry'}, '|' ∉ collection.toList →
    '|' ∉ collection'.toList → env.IsNumber expiry → env.IsNumber expiry' →
    (sign env.toPreviewEnv collection id expiry = sign env.toPreviewEnv collection' id' expiry' ↔
      collection = collection' ∧ id = id' ∧ expiry = expiry')
  behind_iff : ∀ {collection collection' id id' token expiry expiry'} (now : Time),
    '|' ∉ collection.toList → '|' ∉ collection'.toList → env.IsNumber expiry →
    env.Dated token (sign env.toPreviewEnv collection id expiry) expiry' →
    (verifyPreviewToken env.toPreviewEnv now.ms collection' id' token = true ↔
      collection = collection' ∧ id = id' ∧ expiry = expiry' ∧ (now.ms : ℚ) ≤ expiry)
  issued_iff : ∀ {collection collection' id id'} (issuedAt now : Time), '|' ∉ collection.toList →
    '|' ∉ collection'.toList →
    (verifyPreviewToken env.toPreviewEnv now.ms collection' id'
        (issuePreviewToken env.toPreviewEnv issuedAt.ms collection id) = true ↔
      collection = collection' ∧ id = id' ∧
        now.ms ≤ issuedAt.ms + previewTokenTtlSeconds * 1000)

lemma sign_iff (env : SigningEnv) {collection collection' id id' : String} {expiry expiry' : ℚ}
    (hcollection : '|' ∉ collection.toList) (hcollection' : '|' ∉ collection'.toList)
    (hexpiry : env.IsNumber expiry) (hexpiry' : env.IsNumber expiry') :
    sign env.toPreviewEnv collection id expiry = sign env.toPreviewEnv collection' id' expiry' ↔
      collection = collection' ∧ id = id' ∧ expiry = expiry' := by
  constructor
  · intro h
    obtain ⟨hcol, hid, hprint⟩ := fields_inj hcollection hcollection' (env.print_no_bar _ hexpiry)
      (env.print_no_bar _ hexpiry') (env.hmac_injective h)
    exact ⟨hcol, hid, env.print_inj hexpiry hexpiry' hprint⟩
  · rintro ⟨rfl, rfl, rfl⟩
    rfl

lemma behind_iff (env : SigningEnv) {collection collection' id id' token : String}
    {expiry expiry' : ℚ} (now : Time) (hcollection : '|' ∉ collection.toList)
    (hcollection' : '|' ∉ collection'.toList) (hexpiry : env.IsNumber expiry)
    (hdated : env.Dated token (sign env.toPreviewEnv collection id expiry) expiry') :
    verifyPreviewToken env.toPreviewEnv now.ms collection' id' token = true ↔
      collection = collection' ∧ id = id' ∧ expiry = expiry' ∧ (now.ms : ℚ) ≤ expiry := by
  rw [verifyPreviewToken_eq, checkDated_iff]
  constructor
  · rintro ⟨signature, x, hdated', hle, hsign⟩
    obtain ⟨rfl, rfl⟩ := hdated.unique hdated'
    obtain ⟨hcol, hid, rfl⟩ :=
      (sign_iff env hcollection hcollection' hexpiry hdated.isNumber).mp hsign
    exact ⟨hcol, hid, rfl, hle⟩
  · rintro ⟨rfl, rfl, rfl, hle⟩
    exact ⟨_, _, hdated, hle, rfl⟩

lemma previewsExact (env : SigningEnv) : PreviewsExact env where
  verify_iff now collection id token := by
    rw [verifyPreviewToken_eq]
    exact checkDated_iff
  sign_iff := sign_iff env
  behind_iff := behind_iff env
  issued_iff {collection collection' id id'} issuedAt now hcollection hcollection' := by
    have hexpiry : issuedAt.ms + previewTokenTtlSeconds * 1000 < 2 ^ 53 :=
      SigningEnv.isNumber_expiry issuedAt (by decide)
    have hdated := env.dated_print hexpiry
      (sign env.toPreviewEnv collection id (issuedAt.ms + previewTokenTtlSeconds * 1000 : ℕ))
    rw [issuePreviewToken, behind_iff env now hcollection hcollection'
      (env.isNumber_nat _ hexpiry) hdated, Nat.cast_le]
    simp only [true_and]

end SafeerApi.Accounts

namespace SafeerApi.Newsletter

open Accounts

/-! ### Links of any address -/

/-- The lower case of a text is the runtime's. -/
structure LinkEnv extends SigningEnv where
  toLowerCase : String → String

namespace LinkEnv

variable (env : LinkEnv)

/-- `email.trim().toLowerCase()` -/
def normalize (email : String) : String := env.toLowerCase (Common.trim email)

def sign (action : NewsletterAction) (email : String) (expiresAtMs : Option ℚ) : String :=
  env.hmac (action.text ++ "|" ++ env.normalize email ++ "|" ++ (expiresAtMs.map env.print).getD "")

def issueNewsletterToken (action : NewsletterAction) (email : String) (now : ℕ) : String :=
  match action with
  | .unsubscribe => env.sign action email none
  | .confirm =>
    let expiresAtMs : ℚ := (now + confirmTtlMs : ℕ)
    env.print expiresAtMs ++ "." ++ env.sign action email (some expiresAtMs)

def verifyNewsletterToken (action : NewsletterAction) (email token : String) (now : ℕ) : Bool :=
  match action with
  | .unsubscribe => env.sign action email none = token
  | .confirm => checkDated env.toPreviewEnv now token fun x => env.sign action email (some x)

/-- On the addresses of `Newsletter.normalized` the links are the same. -/
lemma verifyNewsletterToken_eq {tokens : TokenEnv} (henv : env.toPreviewEnv = tokens.toPreviewEnv)
    {email : String} (hemail : env.normalize email = normalized email) (action : NewsletterAction)
    (token : String) (now : ℕ) :
    env.verifyNewsletterToken action email token now
      = Newsletter.verifyNewsletterToken tokens action email token now := by
  have hsign : ∀ action expiry, env.sign action email expiry
      = Newsletter.sign tokens action email expiry := by
    intro action expiry
    rw [sign, Newsletter.sign, hemail, henv]
  cases action with
  | unsubscribe =>
    rw [verifyNewsletterToken, hsign]
    rfl
  | confirm =>
    simp only [verifyNewsletterToken, hsign, henv]
    rfl

lemma dropWhile_congr {p q : Char → Bool} {l : List Char} (h : ∀ c ∈ l, p c = q c) :
    l.dropWhile p = l.dropWhile q := by
  induction l with
  | nil => rfl
  | cons c l ih =>
    rw [List.dropWhile_cons, List.dropWhile_cons, h c List.mem_cons_self,
      ih fun d hd => h d (List.mem_cons_of_mem c hd)]

/-- These are the addresses in which the only white space is that of ASCII, when their lower case is
that of their characters. -/
lemma normalize_eq {email : String}
    (hspace : ∀ c ∈ email.toList, Common.isWhiteSpace c = c.isWhitespace)
    (hlower : env.toLowerCase (Common.trim email)
      = String.ofList ((Common.trim email).toList.map Char.toLower)) :
    env.normalize email = normalized email := by
  have hstart : email.toList.dropWhile Common.isWhiteSpace
      = email.toList.dropWhile Char.isWhitespace := dropWhile_congr hspace
  have hmem : ∀ c ∈ (email.toList.dropWhile Char.isWhitespace).reverse,
      Common.isWhiteSpace c = c.isWhitespace := by
    intro c hc
    exact hspace c ((List.dropWhile_sublist _).subset (List.mem_reverse.mp hc))
  have htrim : Common.trim email = String.ofList (trimmed email.toList) := by
    rw [Common.trim, hstart, dropWhile_congr hmem]
    rfl
  rw [normalize, hlower, htrim, normalized, String.toList_ofList]

/-! ### The links are exact -/

/-- Newsletter links are exact: a token is accepted if and only if its signature is the one for this
action, this address up to white space and case and, of a confirmation link, the expiry it names,
which has not passed; signatures for different links differ, so that a signature behind another
expiry is refused; and an issued token is accepted for its own action and address, until it expires
if it does, and for no other. -/
structure Exact : Prop where
  unsubscribe_iff : ∀ email token (now : Time),
    env.verifyNewsletterToken .unsubscribe email token now.ms = true ↔
      token = env.sign .unsubscribe email none
  confirm_iff : ∀ email token (now : Time),
    env.verifyNewsletterToken .confirm email token now.ms = true ↔
      ∃ signature expiry, env.Dated token signature expiry ∧ (now.ms : ℚ) ≤ expiry ∧
        signature = env.sign .confirm email (some expiry)
  sign_iff : ∀ {action action' email email' expiry expiry'}, (∀ x ∈ expiry, env.IsNumber x) →
    (∀ x ∈ expiry', env.IsNumber x) →
    (env.sign action email expiry = env.sign action' email' expiry' ↔
      action = action' ∧ env.normalize email = env.normalize email' ∧ expiry = expiry')
  behind_iff : ∀ {action email email' token expiry expiry'} (now : Time),
    (∀ x ∈ expiry, env.IsNumber x) → env.Dated token (env.sign action email expiry) expiry' →
    (env.verifyNewsletterToken .confirm email' token now.ms = true ↔
      action = .confirm ∧ env.normalize email = env.normalize email' ∧ expiry = some expiry' ∧
        (now.ms : ℚ) ≤ expiry')
  issued_iff : ∀ action action' email email' (issuedAt now : Time),
    env.verifyNewsletterToken action' email' (env.issueNewsletterToken action email issuedAt.ms)
        now.ms = true ↔
      action = action' ∧ env.normalize email = env.normalize email' ∧
        (action = .confirm → now.ms ≤ issuedAt.ms + confirmTtlMs)

lemma text_no_bar (action : NewsletterAction) : '|' ∉ action.text.toList := by
  cases action <;> decide

lemma text_inj {action action' : NewsletterAction} (h : action.text = action'.text) :
    action = action' := by
  cases action <;> cases action' <;> first | rfl | exact absurd h (by decide)

lemma expiry_no_bar {expiry : Option ℚ} (h : ∀ x ∈ expiry, env.IsNumber x) :
    '|' ∉ ((expiry.map env.print).getD "").toList := by
  cases expiry with
  | none => simp
  | some x => exact env.print_no_bar x (h x rfl)

lemma expiry_inj {expiry expiry' : Option ℚ} (h : ∀ x ∈ expiry, env.IsNumber x)
    (h' : ∀ x ∈ expiry', env.IsNumber x)
    (heq : (expiry.map env.print).getD "" = (expiry'.map env.print).getD "") :
    expiry = expiry' := by
  cases expiry with
  | none =>
    cases expiry' with
    | none => rfl
    | some x' => exact absurd heq.symm (env.print_ne_empty x' (h' x' rfl))
  | some x =>
    cases expiry' with
    | none => exact absurd heq (env.print_ne_empty x (h x rfl))
    | some x' => exact congrArg some (env.print_inj (h x rfl) (h' x' rfl) heq)

lemma sign_iff {action action' : NewsletterAction} {email email' : String}
    {expiry expiry' : Option ℚ} (h : ∀ x ∈ expiry, env.IsNumber x)
    (h' : ∀ x ∈ expiry', env.IsNumber x) :
    env.sign action email expiry = env.sign action' email' expiry' ↔
      action = action' ∧ env.normalize email = env.normalize email' ∧ expiry = expiry' := by
  constructor
  · intro heq
    obtain ⟨haction, hemail, hexpiry⟩ := Accounts.fields_inj (text_no_bar action)
      (text_no_bar action') (env.expiry_no_bar h) (env.expiry_no_bar h') (env.hmac_injective heq)
    exact ⟨text_inj haction, hemail, env.expiry_inj h h' hexpiry⟩
  · rintro ⟨rfl, hemail, rfl⟩
    rw [sign, sign, hemail]

/-- An unsubscribe link is not dated. -/
lemma not_dated_sign {action : NewsletterAction} {email signature : String} {expiry : Option ℚ}
    {x : ℚ} : ¬env.Dated (env.sign action email expiry) signature x :=
  fun h => env.hmac_no_dot _ h.dot_mem

lemma behind_iff {action : NewsletterAction} {email email' token : String} {expiry : Option ℚ}
    {expiry' : ℚ} (now : Time) (hexpiry : ∀ x ∈ expiry, env.IsNumber x)
    (hdated : env.Dated token (env.sign action email expiry) expiry') :
    env.verifyNewsletterToken .confirm email' token now.ms = true ↔
      action = .confirm ∧ env.normalize email = env.normalize email' ∧ expiry = some expiry' ∧
        (now.ms : ℚ) ≤ expiry' := by
  have hexpiry' : ∀ x ∈ some expiry', env.IsNumber x := by
    rintro x ⟨⟩
    exact hdated.isNumber
  rw [verifyNewsletterToken, checkDated_iff]
  constructor
  · rintro ⟨signature, x, hdated', hle, hsign⟩
    obtain ⟨rfl, rfl⟩ := hdated.unique hdated'
    obtain ⟨haction, hemail, hexp⟩ := (env.sign_iff hexpiry hexpiry').mp hsign
    exact ⟨haction, hemail, hexp, hle⟩
  · rintro ⟨haction, hemail, hexp, hle⟩
    exact ⟨_, _, hdated, hle, (env.sign_iff hexpiry hexpiry').mpr ⟨haction, hemail, hexp⟩⟩

lemma exact : env.Exact where
  unsubscribe_iff email token now := by
    rw [verifyNewsletterToken, decide_eq_true_iff]
    exact eq_comm
  confirm_iff email token now := checkDated_iff
  sign_iff := env.sign_iff
  behind_iff := env.behind_iff
  issued_iff action action' email email' issuedAt now := by
    have hexpiry : issuedAt.ms + confirmTtlMs < 2 ^ 53 :=
      SigningEnv.isNumber_expiry issuedAt (by decide)
    have hnumber : ∀ x ∈ some ((issuedAt.ms + confirmTtlMs : ℕ) : ℚ), env.IsNumber x := by
      rintro x ⟨⟩
      exact env.isNumber_nat _ hexpiry
    have hdated := env.dated_print hexpiry
      (env.sign .confirm email (some (issuedAt.ms + confirmTtlMs : ℕ)))
    cases action with
    | unsubscribe =>
      cases action' with
      | unsubscribe =>
        rw [verifyNewsletterToken, decide_eq_true_iff, issueNewsletterToken, eq_comm,
          env.sign_iff (by simp) (by simp)]
        simp
      | confirm =>
        rw [verifyNewsletterToken, checkDated_iff, issueNewsletterToken]
        constructor
        · rintro ⟨signature, x, hdated', -, -⟩
          exact absurd hdated' env.not_dated_sign
        · rintro ⟨h, -, -⟩
          cases h
    | confirm =>
      cases action' with
      | unsubscribe =>
        rw [verifyNewsletterToken, decide_eq_true_iff, issueNewsletterToken]
        constructor
        · intro h
          rw [← h] at hdated
          exact absurd hdated env.not_dated_sign
        · rintro ⟨h, -, -⟩
          cases h
      | confirm =>
        rw [issueNewsletterToken, env.behind_iff now hnumber hdated, Nat.cast_le]
        simp only [true_and, forall_const]

end LinkEnv

/-! ### An environment -/

/-- A hash that spells out the characters it was given, and the numbers below `2 ^ 53`. -/
def spelled : PreviewEnv where
  number text := ((Common.SqlNumeric.decimal.rowId text).filter (· < 2 ^ 53)).map (Nat.cast : ℕ → ℚ)
  print x := toString x.num.toNat
  hmac text := String.ofList ([','].intercalate (text.toList.map fun c => c.toNat.repr.toList))

lemma spelled_print (n : ℕ) : spelled.print (n : ℚ) = toString n := by
  simp [spelled]

lemma spelled_number {n : ℕ} (hn : n < 2 ^ 53) : spelled.number (toString n) = some (n : ℚ) := by
  simp only [spelled, Common.SqlNumeric.decimal.canonical, Option.filter_some, decide_eq_true hn]
  rfl

lemma spelled_isNumber {x : ℚ} (hx : spelled.IsNumber x) : ∃ n : ℕ, n < 2 ^ 53 ∧ x = n := by
  obtain ⟨text, htext⟩ := hx
  obtain ⟨n, hn, rfl⟩ := Option.map_eq_some_iff.mp htext
  exact ⟨n, by simpa using (Option.filter_eq_some_iff.mp hn).2, rfl⟩

lemma spelled_parts (text : String) :
    ∀ part ∈ text.toList.map fun c => c.toNat.repr.toList, ',' ∉ part ∧ part ≠ [] := by
  intro part hpart
  obtain ⟨c, -, rfl⟩ := List.mem_map.mp hpart
  refine ⟨Lib.notMem_repr (by decide) _, ?_⟩
  rw [Nat.toList_repr]
  exact Nat.toDigits_ne_nil

lemma spelled_injective : Function.Injective spelled.hmac := by
  intro text text' h
  have hnil : ∀ text : String, [','].intercalate (text.toList.map fun c => c.toNat.repr.toList) = []
      ↔ (text.toList.map fun c => c.toNat.repr.toList) = [] :=
    fun text => Lib.intercalate_eq_nil fun part hpart => (spelled_parts text part hpart).2
  have hjoined := String.ofList_injective h
  have hparts := Lib.intercalate_inj
    (by rw [← hnil, ← hnil, hjoined]) (fun part hpart => (spelled_parts text part hpart).1)
    (fun part hpart => (spelled_parts text' part hpart).1) hjoined
  have hchars : text.toList = text'.toList := by
    refine List.map_injective_iff.mpr ?_ hparts
    intro c d hcd
    exact Char.toNat_inj.mp (Lib.repr_toList_inj hcd)
  exact String.toList_inj.mp hchars

lemma spelled_no_dot (text : String) : '.' ∉ (spelled.hmac text).toList := by
  have hdigits : ∀ part ∈ text.toList.map fun c => c.toNat.repr.toList, '.' ∉ part := by
    intro part hpart
    obtain ⟨c, -, rfl⟩ := List.mem_map.mp hpart
    exact Lib.notMem_repr (by decide) _
  rw [spelled, String.toList_ofList]
  exact Lib.notMem_intercalate (by decide) hdigits

def numerals : SigningEnv where
  toPreviewEnv := spelled
  hmac_injective := spelled_injective
  hmac_no_dot := spelled_no_dot
  isNumber_nat n hn := ⟨toString n, spelled_number hn⟩
  number_print x hx := by
    obtain ⟨n, hn, rfl⟩ := spelled_isNumber hx
    rw [spelled_print, spelled_number hn]
  print_ne_empty x hx := by
    obtain ⟨n, -, rfl⟩ := spelled_isNumber hx
    rw [spelled_print]
    intro h
    have hdigits : (toString n).toList = [] := by rw [h]; rfl
    rw [Nat.toString_eq_repr, Nat.toList_repr] at hdigits
    exact Nat.toDigits_ne_nil hdigits
  print_no_bar x hx := by
    obtain ⟨n, -, rfl⟩ := spelled_isNumber hx
    rw [spelled_print]
    exact Lib.notMem_repr (by decide) n
  print_no_dot n _ := by
    rw [spelled_print]
    exact Lib.notMem_repr (by decide) n

def numeralLinks : LinkEnv where
  toSigningEnv := numerals
  toLowerCase text := String.ofList (text.toList.map Char.toLower)

lemma numeralLinks_normalize :
    numeralLinks.normalize " A|b@Safeer.org" = numeralLinks.normalize "a|b@safeer.org" := by
  decide

def earlier : Time := ⟨0, by decide⟩
def later : Time := ⟨5, by decide⟩

/-- No signed link can be moved to another address, action, row or expiry. -/
theorem signedLinks_exact :
    (∀ env : LinkEnv, env.Exact) ∧ ∀ env : SigningEnv, PreviewsExact env :=
  ⟨LinkEnv.exact, previewsExact⟩

/-- An address with bars in it keeps its link. -/
theorem signedLinks_exact_bars :
    numeralLinks.verifyNewsletterToken .confirm "a|b@safeer.org"
      (numeralLinks.issueNewsletterToken .confirm " A|b@Safeer.org" earlier.ms) later.ms = true :=
  ((signedLinks_exact.1 numeralLinks).issued_iff .confirm .confirm _ _ earlier later).mpr
    ⟨rfl, numeralLinks_normalize, fun _ => by decide⟩

end SafeerApi.Newsletter
