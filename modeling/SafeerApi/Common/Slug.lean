import Mathlib.Data.List.Nodup
import Mathlib.Data.List.Range
import Mathlib.Data.List.Perm.Subperm
import SafeerApi.Common.Schema
import SafeerApi.Common.SqlNumeric

/-!
# URL slugs (`validation/slug.ts`, `text/slugify.ts`, `text/normalize-ar.ts`)

Slugs are ASCII, so that their characters are their UTF-16 code units.
-/

namespace SafeerApi.Common

/-! ### Slugs set by hand -/

def slugMax : ℕ := 180

def reservedPostSlugs : List String :=
  ["featured", "new", "edit", "preview", "admin", "api", "sitemap", "search", "feed", "rss",
    "categories", "category"]

/-- `[a-z0-9]` -/
def isSlugChar (c : Char) : Bool := ('a' ≤ c && c ≤ 'z') || c.isDigit

/-- `SLUG_RE`: words with single hyphens between them. -/
def isSlugText (s : String) : Bool :=
  (s.toList.splitOn '-').all fun word => word ≠ [] && word.all isSlugChar

def slugSchema (reserved : List String) (s : String) : Option String :=
  (trimmed 1 slugMax s).filter fun s => isSlugText s && s ∉ reserved

def isValidSlug (value : String) (reserved : List String) : Bool :=
  utf16Length value ≤ slugMax && isSlugText value && value ∉ reserved

lemma isSlugText_empty : isSlugText "" = false := by decide

lemma slugSchema_ne_empty {reserved : List String} {s slug : String}
    (h : slugSchema reserved s = some slug) : slug ≠ "" := by
  rintro rfl
  have htext := (Option.filter_eq_some_iff.mp h).2
  simp [isSlugText_empty] at htext

/-! ### Slugs made from a title -/

/-- What the runtime's Unicode tables say. -/
structure UnicodeTables where
  toLowerCase : String → String
  normalizeNFKD : String → String

/-- The words of a text, runs of characters that meet `p`, with `sep` between them: each run of
other characters is replaced by `sep`, and those at the ends are removed. -/
def joinWords (p : Char → Bool) (sep : Char) (text : List Char) : List Char :=
  [sep].intercalate ((text.splitOnP fun c => !p c).filter (· ≠ []))

def slugifyEn (tables : UnicodeTables) (text : String) : String :=
  let letters := (tables.normalizeNFKD (tables.toLowerCase text)).toList.filter fun c =>
    -- combining marks
    !(0x300 ≤ c.toNat && c.toNat ≤ 0x36F)
  String.ofList (joinWords isSlugChar '-' letters)

/-- One letter for its variants. -/
def normalizeArLetter (c : Char) : Char :=
  if c = 'أ' ∨ c = 'إ' ∨ c = 'آ' then 'ا'
  else if c = 'ة' then 'ه'
  else if c = 'ى' then 'ي'
  else if c = 'ؤ' then 'و'
  else if c = 'ئ' then 'ي'
  else c

def normalizeAr (tables : UnicodeTables) (s : String) : String :=
  let letters := (tables.toLowerCase s).toList.filter fun c =>
    -- tashkeel and tatweel
    !((0x64B ≤ c.toNat && c.toNat ≤ 0x652) || c.toNat = 0x640)
  String.ofList (joinWords (!isWhiteSpace ·) ' ' (letters.map normalizeArLetter))

def slugBase (tables : UnicodeTables) (titleEn titleAr : Option String) : String :=
  match truthy (titleEn.map trim), truthy (titleAr.map trim) with
  | some _, _ => slugifyEn tables (titleEn.getD "")
  | none, some _ => slugifyEn tables (normalizeAr tables (titleAr.getD ""))
  | none, none => ""

/-- The last hyphen and what follows it are removed, if there is one. -/
def dropLastWord (text : List Char) : List Char :=
  if '-' ∈ text then ((text.reverse.dropWhile (· ≠ '-')).drop 1).reverse else text

/-- Room for a suffix is made at a word boundary. -/
def cutSlug (full : List Char) : String :=
  let cut := if full.length > slugMax - 6 then dropLastWord (full.take (slugMax - 6)) else full
  String.ofList (cut.reverse.dropWhile (· = '-')).reverse

/-- The slug before a suffix is added. -/
def slugStem (tables : UnicodeTables) (titleEn titleAr : Option String) (fallback : String)
    (reserved : List String) : String :=
  let base := cutSlug (slugBase tables titleEn titleAr).toList
  if isValidSlug base reserved then base else fallback

/-- The slugs that are tried one after another: `base`, `base-2`, `base-3` and so on. -/
def slugCandidate (base : String) : ℕ → String
  | 0 => base
  | i + 1 => base ++ "-" ++ toString (i + 2)

/-- The first candidate that is not used. One more of them than there are used slugs is enough. -/
def firstFreeSlug (used : List String) (base : String) : String :=
  (((List.range (used.length + 1)).map (slugCandidate base)).find? (· ∉ used)).getD base

def generateUniqueSlug (tables : UnicodeTables) (used : List String)
    (titleEn titleAr : Option String) (fallback : String) (reserved : List String) : String :=
  firstFreeSlug used (slugStem tables titleEn titleAr fallback reserved)

lemma slugCandidate_injective (base : String) : Function.Injective (slugCandidate base) := by
  have hsuffix : ∀ i, slugCandidate base (i + 1) ≠ base := by
    intro i heq
    have hlen := congrArg String.length heq
    simp only [slugCandidate, String.length_append] at hlen
    have hhyphen : "-".length = 1 := rfl
    omega
  intro i j h
  cases i with
  | zero =>
    cases j with
    | zero => rfl
    | succ j => exact absurd h.symm (hsuffix j)
  | succ i =>
    cases j with
    | zero => exact absurd h (hsuffix i)
    | succ j =>
      have htext : toString (i + 2) = toString (j + 2) := by
        simpa [slugCandidate, String.ext_iff] using h
      have hnumber : some (i + 2) = some (j + 2) := by
        rw [← SqlNumeric.decimal.canonical, htext, SqlNumeric.decimal.canonical]
      simpa using hnumber

/-- The search for a free slug ends. -/
lemma firstFreeSlug_notMem (used : List String) (base : String) :
    firstFreeSlug used base ∉ used := by
  simp only [firstFreeSlug]
  cases hfind : ((List.range (used.length + 1)).map (slugCandidate base)).find? (· ∉ used) with
  | some slug => simpa using List.find?_some hfind
  | none =>
    -- there are more candidates than used slugs
    have hsub : (List.range (used.length + 1)).map (slugCandidate base) ⊆ used := by
      intro slug hslug
      simpa using List.find?_eq_none.mp hfind slug hslug
    have hnodup : ((List.range (used.length + 1)).map (slugCandidate base)).Nodup :=
      List.Nodup.map (slugCandidate_injective base) List.nodup_range
    have hlen := (hnodup.subperm hsub).length_le
    rw [List.length_map, List.length_range] at hlen
    exact absurd hlen (Nat.not_succ_le_self _)

lemma slugStem_ne_empty {tables : UnicodeTables} {titleEn titleAr : Option String}
    {fallback : String} {reserved : List String} (h : fallback ≠ "") :
    slugStem tables titleEn titleAr fallback reserved ≠ "" := by
  simp only [slugStem]
  split_ifs with hvalid
  · intro hempty
    rw [hempty] at hvalid
    simp [isValidSlug, isSlugText_empty] at hvalid
  · exact h

lemma slugCandidate_ne_empty {base : String} (h : base ≠ "") (i : ℕ) : slugCandidate base i ≠ "" := by
  cases i with
  | zero => exact h
  | succ i =>
    intro hempty
    have hlen := congrArg String.length hempty
    simp only [slugCandidate, String.length_append] at hlen
    have hhyphen : "-".length = 1 := rfl
    have hnil : "".length = 0 := rfl
    omega

lemma firstFreeSlug_ne_empty {used : List String} {base : String} (h : base ≠ "") :
    firstFreeSlug used base ≠ "" := by
  simp only [firstFreeSlug]
  cases hfind : ((List.range (used.length + 1)).map (slugCandidate base)).find? (· ∉ used) with
  | none => exact h
  | some slug =>
    obtain ⟨i, -, hi⟩ := List.mem_map.mp (List.mem_of_find?_eq_some hfind)
    rw [Option.getD_some, ← hi]
    exact slugCandidate_ne_empty h i

lemma generateUniqueSlug_ne_empty {tables : UnicodeTables} {used : List String}
    {titleEn titleAr : Option String} {fallback : String} {reserved : List String}
    (h : fallback ≠ "") :
    generateUniqueSlug tables used titleEn titleAr fallback reserved ≠ "" :=
  firstFreeSlug_ne_empty (slugStem_ne_empty h)

end SafeerApi.Common
