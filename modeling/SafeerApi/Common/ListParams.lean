import Mathlib.Algebra.Group.Nat.Defs
import Mathlib.Data.List.Basic
import Mathlib.Tactic.Common
import SafeerApi.Lib.Like

/-!
# Reading query parameters (`list-params.ts`)

Express parses a query string with Node's `querystring`: a key that occurs once is a string, one
that occurs several times is an array. The texts are decoded, so they hold any character.
-/

namespace SafeerApi.Common

/-! ### Query values -/

/-- A value of `req.query`. An array has at least two elements. -/
inductive QueryValue where
  | text (s : String)
  | array (s₁ s₂ : String) (rest : List String)
  deriving DecidableEq, Repr

abbrev Query := String → Option QueryValue

/-- `String(value)`. -/
def QueryValue.toText : QueryValue → String
  | .text s => s
  | .array s₁ s₂ rest => ",".intercalate (s₁ :: s₂ :: rest)

@[simp] lemma QueryValue.toText_text (s : String) : (QueryValue.text s).toText = s := rfl

def asString : Option QueryValue → Option String
  | some (.text s) => some s
  | _ => none

def readString (query : Query) (key : String) : Option String := asString (query key)

/-- `if (value)`: an absent and an empty text are both falsy. -/
def truthy : Option String → Option String
  | some s => if s.isEmpty then none else some s
  | none => none

@[simp] lemma truthy_none : truthy none = none := rfl

lemma truthy_some {s : String} (h : s ≠ "") : truthy (some s) = some s := by
  simp [truthy, h]

lemma truthy_eq_some {value : Option String} {s : String} (h : truthy value = some s) :
    s ≠ "" := by
  simp only [truthy] at h
  split at h
  · split_ifs at h with hs
    obtain rfl := Option.some.inj h
    simpa using hs
  · cases h

lemma eq_some_of_truthy {value : Option String} {s : String} (h : truthy value = some s) :
    value = some s := by
  simp only [truthy] at h
  split at h
  · split_ifs at h
    exact h
  · cases h

lemma eq_truthy_iff {column value : Option String} :
    column = truthy value ↔ ∀ s, column = some s ↔ value = some s ∧ s ≠ "" := by
  have htruthy : ∀ s, truthy value = some s ↔ value = some s ∧ s ≠ "" := by
    intro s
    constructor
    · exact fun h => ⟨eq_some_of_truthy h, truthy_eq_some h⟩
    · rintro ⟨rfl, hs⟩
      exact truthy_some hs
  rw [Option.ext_iff]
  exact forall_congr' fun s => by rw [htruthy]

/-! ### Texts and numbers -/

/-- What `trim` and `parseInt` skip: white space and line terminators. -/
def isWhiteSpace (c : Char) : Bool :=
  c.toNat ∈ [0x9, 0xA, 0xB, 0xC, 0xD, 0x20, 0xA0, 0x1680, 0x2028, 0x2029, 0x202F, 0x205F, 0x3000,
    0xFEFF] || (0x2000 ≤ c.toNat && c.toNat ≤ 0x200A)

/-- No visible ASCII character is skipped. -/
lemma isWhiteSpace_of_visible {c : Char} (h : 0x21 ≤ c.toNat) (h' : c.toNat < 0x80) :
    isWhiteSpace c = false := by
  simp [isWhiteSpace]
  omega

/-- `text.trim()`. -/
def trim (s : String) : String :=
  String.ofList (((s.toList.dropWhile isWhiteSpace).reverse.dropWhile isWhiteSpace).reverse)

/-- `text.split(',')`. -/
def splitComma (s : String) : List String := (s.toList.splitOn ',').map String.ofList

/-- `Number.parseInt(text, 10)`, before it is rounded to a double; `none` is `NaN`. -/
def parseInt (s : String) : Option ℤ :=
  let text := s.toList.dropWhile isWhiteSpace
  let (negative, text) := match text with
    | '-' :: text => (true, text)
    | '+' :: text => (false, text)
    | text => (false, text)
  match text.takeWhile Char.isDigit with
  | [] => none
  | digits =>
    let n := Nat.ofDigitChars 10 digits 0
    some (if negative then -n else n)

/-- The double nearest to `n`, ties to even; `none` is `Infinity`. -/
def toDouble (n : ℕ) : Option ℕ :=
  if n < 2 ^ 53 then some n
  else
    let unit := 2 ^ (n.log2 - 52)
    let q := n / unit
    let r := n % unit
    let q := if 2 * r < unit ∨ (2 * r = unit ∧ q % 2 = 0) then q else q + 1
    if q * unit < 2 ^ 1024 then some (q * unit) else none

/-! ### Paging -/

def maxOffset : ℕ := 20000

structure PageLimitOptions where
  defaultLimit : ℕ
  maxLimit : ℕ

/-- `page` is `none` when it is `Infinity`. -/
structure PageLimitResult where
  page : Option ℕ
  limit : ℕ
  offset : ℕ
  beyondMaxOffset : Bool
  deriving DecidableEq, Repr

/-- `Math.max(1, Number.parseInt(text, 10) || fallback)`. -/
def readCount (raw : String) (fallback : ℕ) : Option ℕ :=
  match parseInt raw with
  | none => some (max 1 fallback)
  | some n => if n = 0 then some (max 1 fallback) else (toDouble n.toNat).map (max 1)

def readPage (query : Query) : Option ℕ := readCount ((readString query "page").getD "1") 1

def readLimit (query : Query) (opts : PageLimitOptions) : ℕ :=
  match readCount ((readString query "limit").getD (toString opts.defaultLimit))
    opts.defaultLimit with
  | none => opts.maxLimit
  | some n => min opts.maxLimit n

/-- Doubles above `2 ^ 53` are rounded, which no comparison with `MAX_OFFSET` notices. -/
def clampOffset (page : Option ℕ) (limit : ℕ) : PageLimitResult :=
  match page.map fun page => (page - 1) * limit with
  | none => ⟨page, limit, maxOffset, true⟩
  | some rawOffset => ⟨page, limit, min rawOffset maxOffset, decide (rawOffset > maxOffset)⟩

def readPageLimit (query : Query) (opts : PageLimitOptions) : PageLimitResult :=
  clampOffset (readPage query) (readLimit query opts)

@[simp] lemma readPageLimit_page (query : Query) (opts : PageLimitOptions) :
    (readPageLimit query opts).page = readPage query := by
  simp only [readPageLimit, clampOffset]
  split <;> rfl

@[simp] lemma readPageLimit_limit (query : Query) (opts : PageLimitOptions) :
    (readPageLimit query opts).limit = readLimit query opts := by
  simp only [readPageLimit, clampOffset]
  split <;> rfl

/-! ### Searching -/

def escapeLikeValue (value : String) : String := String.ofList (Lib.escapeLike value.toList)

@[simp] lemma toList_escapeLikeValue (value : String) :
    (escapeLikeValue value).toList = Lib.escapeLike value.toList := by
  simp [escapeLikeValue]

/-! ### What the readers see -/

@[simp] lemma readString_absent {query : Query} {key : String} (h : query key = none) :
    readString query key = none := by
  simp [readString, asString, h]

end SafeerApi.Common
