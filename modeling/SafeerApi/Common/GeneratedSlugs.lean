import Mathlib.Data.Set.Card
import SafeerApi.Common.Slug
import SafeerApi.Lib.Joined

/-!
# Generated slugs are slugs (`text/slugify.ts`, `validation/slug.ts`)

The search of `generateUniqueSlug` ends at the first candidate that is not used. Its stem leaves six
characters for a hyphen and a number, so that what is found passes the check of a slug set by hand.
-/

namespace SafeerApi.Common

/-! ### The loop -/

/-- The `while` loop, for at most `passes` of its tests. -/
def searchSlug (used : List String) (base : String) : ℕ → String → ℕ → Option String
  | 0, _, _ => none
  | passes + 1, candidate, i =>
    if candidate ∈ used then searchSlug used base passes (base ++ "-" ++ toString i) (i + 1)
    else some candidate

/-- How many of the candidates for a base are used. -/
noncomputable def collisions (used : List String) (base : String) : ℕ :=
  {i | slugCandidate base i ∈ used}.ncard

lemma collisions_finite (used : List String) (base : String) :
    {i | slugCandidate base i ∈ used}.Finite :=
  (List.finite_toSet used).preimage (slugCandidate_injective base).injOn

/-- What is found is the first candidate that is not used. -/
lemma firstFreeSlug_spec (used : List String) (base : String) :
    ∃ i, firstFreeSlug used base = slugCandidate base i ∧
      ∀ j < i, slugCandidate base j ∈ used := by
  simp only [firstFreeSlug]
  cases hfind : ((List.range (used.length + 1)).map (slugCandidate base)).find? (· ∉ used) with
  | none => exact ⟨0, rfl, fun j hj => absurd hj (Nat.not_lt_zero j)⟩
  | some slug =>
    obtain ⟨-, i, hi, heq, hbefore⟩ := List.find?_eq_some_iff_getElem.mp hfind
    refine ⟨i, ?_, fun j hj => ?_⟩
    · simpa using heq.symm
    · simpa using hbefore j hj

/-- The candidates before the first free one are collisions. -/
lemma le_collisions {used : List String} {base : String} {i : ℕ}
    (h : ∀ j < i, slugCandidate base j ∈ used) : i ≤ collisions used base := by
  have hsub : ↑(Finset.range i) ⊆ {i | slugCandidate base i ∈ used} :=
    fun j hj => h j (Finset.mem_range.mp hj)
  have hcard := Set.ncard_le_ncard hsub (collisions_finite used base)
  rwa [Set.ncard_coe_finset, Finset.card_range] at hcard

/-- Each collision is a used slug of its own. -/
lemma collisions_le_length (used : List String) (base : String) :
    collisions used base ≤ used.length := by
  have hmaps : ∀ i ∈ {i | slugCandidate base i ∈ used},
      slugCandidate base i ∈ (used.toFinset : Set String) := by
    intro i hi
    simpa using hi
  have hle := Set.ncard_le_ncard_of_injOn (slugCandidate base) hmaps
    (slugCandidate_injective base).injOn used.toFinset.finite_toSet
  rw [Set.ncard_coe_finset] at hle
  exact hle.trans (List.toFinset_card_le used)

/-- The loop stops at the first free candidate. -/
lemma searchSlug_eq {used : List String} {base : String} {n : ℕ} (k : ℕ)
    (hused : ∀ j < n, slugCandidate base j ∈ used) (hfree : slugCandidate base n ∉ used)
    (hk : k ≤ n) :
    searchSlug used base (n - k + 1) (slugCandidate base k) (k + 2) =
      some (slugCandidate base n) := by
  induction hd : n - k generalizing k with
  | zero =>
    obtain rfl : k = n := by omega
    rw [searchSlug, if_neg hfree]
  | succ d ih =>
    have hlt : k < n := by omega
    rw [searchSlug, if_pos (hused k hlt)]
    exact ih (k + 1) hlt (by omega)

/-! ### What the stem is -/

lemma dropLastWord_length_le (text : List Char) : (dropLastWord text).length ≤ text.length := by
  rw [dropLastWord]
  split_ifs
  · have hle := (List.dropWhile_sublist (· ≠ '-') (l := text.reverse)).length_le
    simp only [List.length_reverse, List.length_drop] at hle ⊢
    omega
  · exact le_rfl

/-- A cut leaves room for a hyphen and five digits. -/
lemma cutSlug_length_le (full : List Char) : (cutSlug full).toList.length ≤ slugMax - 6 := by
  have hcut : (if full.length > slugMax - 6 then dropLastWord (full.take (slugMax - 6))
      else full).length ≤ slugMax - 6 := by
    split_ifs with hlong
    · exact (dropLastWord_length_le _).trans (List.length_take_le _ _)
    · omega
  rw [cutSlug, String.toList_ofList, List.length_reverse]
  exact (List.dropWhile_sublist _).length_le.trans (by rwa [List.length_reverse])

/-- A slug character is a visible ASCII character. -/
lemma isSlugChar_toNat {c : Char} (h : isSlugChar c) : 0x21 ≤ c.toNat ∧ c.toNat < 0x80 := by
  simp only [isSlugChar, Char.isDigit, Bool.or_eq_true, Bool.and_eq_true, decide_eq_true_eq,
    Char.le_def, UInt32.le_iff_toNat_le] at h
  rcases h with ⟨h₁, h₂⟩ | ⟨h₁, h₂⟩
  · exact ⟨(by decide : 0x21 ≤ 'a'.toNat).trans h₁, lt_of_le_of_lt h₂ (by decide)⟩
  · exact ⟨(by decide : 0x21 ≤ '0'.toNat).trans h₁, lt_of_le_of_lt h₂ (by decide)⟩

/-! ### The texts of slugs -/

/-- A slug is made of slug characters and hyphens. -/
lemma isSlugChar_of_isSlugText {s : String} (h : isSlugText s) {c : Char} (hc : c ∈ s.toList) :
    c = '-' ∨ isSlugChar c := by
  by_cases hhyphen : c = '-'
  · exact Or.inl hhyphen
  · right
    obtain ⟨word, hword, hmem⟩ :=
      Lib.mem_splitOnP_of_mem (p := (· == '-')) hc (by simpa using hhyphen)
    rw [isSlugText, List.all_eq_true] at h
    have hall := h word hword
    simp only [Bool.and_eq_true, List.all_eq_true] at hall
    exact hall.2 c hmem

lemma isSlugText_append {s d : String} (hs : isSlugText s) (hne : d.toList ≠ [])
    (hd : ∀ c ∈ d.toList, isSlugChar c) : isSlugText (s ++ "-" ++ d) := by
  have hyphen : ∀ c ∈ d.toList, (c == '-') = false := by
    intro c hc
    have hchar := hd c hc
    by_contra heq
    obtain rfl : c = '-' := by simpa using heq
    exact absurd hchar (by decide)
  have htext : (s ++ "-" ++ d).toList = s.toList ++ '-' :: d.toList := by simp
  rw [isSlugText] at hs ⊢
  rw [htext, List.splitOn_eq_splitOnP, List.splitOnP_append_cons _ _ (by simp),
    List.splitOnP_eq_singleton hyphen, List.all_append, Bool.and_eq_true]
  refine ⟨by rwa [List.splitOn_eq_splitOnP] at hs, ?_⟩
  simpa [hne] using hd

lemma utf16Length_eq_length {s : String} (h : ∀ c ∈ s.toList, c.toNat < 0x10000) :
    utf16Length s = s.toList.length := by
  have hfold : ∀ (text : List Char) (n : ℕ), (∀ c ∈ text, c.toNat < 0x10000) →
      text.foldl (fun n c => n + if c.toNat < 0x10000 then 1 else 2) n = n + text.length := by
    intro text
    induction text with
    | nil => intro n _; rfl
    | cons c text ih =>
      intro n htext
      obtain ⟨hc, htext⟩ := List.forall_mem_cons.mp htext
      rw [List.foldl_cons, if_pos hc, ih _ htext, List.length_cons]
      omega
  rw [utf16Length, hfold _ _ h, Nat.zero_add]

lemma utf16Length_of_isSlugText {s : String} (h : isSlugText s) :
    utf16Length s = s.toList.length := by
  apply utf16Length_eq_length
  intro c hc
  rcases isSlugChar_of_isSlugText h hc with rfl | hchar
  · decide
  · exact (isSlugChar_toNat hchar).2.trans (by decide)

lemma isWhiteSpace_of_isSlugText {s : String} (h : isSlugText s) :
    ∀ c ∈ s.toList, isWhiteSpace c = false := by
  intro c hc
  rcases isSlugChar_of_isSlugText h hc with rfl | hchar
  · decide
  · exact isWhiteSpace_of_visible (isSlugChar_toNat hchar).1 (isSlugChar_toNat hchar).2

lemma dropWhile_eq_self_of_forall {α : Type*} {p : α → Bool} {l : List α}
    (h : ∀ x ∈ l, p x = false) : l.dropWhile p = l := by
  cases l with
  | nil => rfl
  | cons x l => simp [h x List.mem_cons_self]

lemma trim_of_isSlugText {s : String} (h : isSlugText s) : trim s = s := by
  have hwhite := isWhiteSpace_of_isSlugText h
  rw [trim, dropWhile_eq_self_of_forall hwhite, dropWhile_eq_self_of_forall, List.reverse_reverse,
    String.ofList_toList]
  intro c hc
  exact hwhite c (List.mem_reverse.mp hc)

/-- A slug that is valid is accepted when it is set by hand. -/
lemma slugSchema_of_isValidSlug {s : String} {reserved : List String}
    (h : isValidSlug s reserved) : slugSchema reserved s = some s := by
  simp only [isValidSlug, Bool.and_eq_true, decide_eq_true_eq] at h
  obtain ⟨⟨hlen, htext⟩, hreserved⟩ := h
  have hpos : 1 ≤ utf16Length s := by
    rw [utf16Length_of_isSlugText htext]
    apply List.length_pos_of_ne_nil
    intro hnil
    rw [String.toList_eq_nil_iff.mp hnil, isSlugText_empty] at htext
    cases htext
  rw [slugSchema, trimmed, trim_of_isSlugText htext, if_pos ⟨hpos, hlen⟩]
  simp [htext, hreserved]

/-! ### The slug that is found -/

/-- A hyphen and a number of at most five digits after a slug that leaves room for them. -/
lemma isValidSlug_slugCandidate {base : String} {i : ℕ}
    (h : isValidSlug base reservedPostSlugs) (hlen : utf16Length base ≤ slugMax - 6)
    (hi : i < 99998) : isValidSlug (slugCandidate base i) reservedPostSlugs := by
  cases i with
  | zero => exact h
  | succ i =>
    simp only [isValidSlug, Bool.and_eq_true, decide_eq_true_eq] at h ⊢
    obtain ⟨⟨-, htext⟩, -⟩ := h
    have hdigits : ∀ c ∈ (toString (i + 2)).toList, isSlugChar c := by
      intro c hc
      have hdigit : c.isDigit := by
        by_contra hdigit
        exact Lib.notMem_repr (by simpa using hdigit) (i + 2) hc
      simp [isSlugChar, hdigit]
    have hnumber : (toString (i + 2)).toList.length ≤ 5 := by
      have hle := (Nat.length_toDigits_le_iff (n := i + 2) (k := 5) (by decide : 1 < 10)
        (by decide)).mpr (by omega)
      rwa [← Nat.toList_repr] at hle
    have hne : (toString (i + 2)).toList ≠ [] := by
      have hdig := Nat.toDigits_ne_nil (n := i + 2) (b := 10)
      rwa [← Nat.toList_repr] at hdig
    have hslug : isSlugText (slugCandidate base (i + 1)) := isSlugText_append htext hne hdigits
    rw [utf16Length_of_isSlugText htext] at hlen
    refine ⟨⟨?_, hslug⟩, ?_⟩
    · rw [utf16Length_of_isSlugText hslug, slugCandidate]
      simp only [String.toList_append, List.length_append]
      have hhyphen : "-".toList.length = 1 := rfl
      have hmax : slugMax = 180 := rfl
      omega
    · -- no reserved word has a hyphen
      intro hmem
      have hreserved : ∀ word ∈ reservedPostSlugs, '-' ∉ word.toList := by decide
      exact hreserved _ hmem (by simp [slugCandidate])

lemma slugStem_valid (tables : UnicodeTables) (titleEn titleAr : Option String)
    {fallback : String} {reserved : List String} (h : isValidSlug fallback reserved)
    (hlen : utf16Length fallback ≤ slugMax - 6) :
    isValidSlug (slugStem tables titleEn titleAr fallback reserved) reserved ∧
      utf16Length (slugStem tables titleEn titleAr fallback reserved) ≤ slugMax - 6 := by
  simp only [slugStem]
  split_ifs with hvalid
  · refine ⟨hvalid, ?_⟩
    simp only [isValidSlug, Bool.and_eq_true] at hvalid
    rw [utf16Length_of_isSlugText hvalid.1.2]
    exact cutSlug_length_le _
  · exact ⟨h, hlen⟩

/-- The search ends, after no more tests than there are collisions and one, at a slug that is not
used and that would be accepted if it was set by hand. -/
theorem generateUniqueSlug_accepted (tables : UnicodeTables) (used : List String)
    (titleEn titleAr : Option String) (fallback : String)
    (hfallback : isValidSlug fallback reservedPostSlugs) (hlen : utf16Length fallback ≤ 174)
    (hused : collisions used (slugStem tables titleEn titleAr fallback reservedPostSlugs) < 99998) :
    ∃ slug passes,
      passes ≤ collisions used (slugStem tables titleEn titleAr fallback reservedPostSlugs) + 1 ∧
      searchSlug used (slugStem tables titleEn titleAr fallback reservedPostSlugs) passes
        (slugStem tables titleEn titleAr fallback reservedPostSlugs) 2 = some slug ∧
      slug = generateUniqueSlug tables used titleEn titleAr fallback reservedPostSlugs ∧
      slug ∉ used ∧ slug ∉ reservedPostSlugs ∧ isSlugText slug ∧ utf16Length slug ≤ 180 ∧
      slugSchema reservedPostSlugs slug = some slug := by
  obtain ⟨hvalid, hroom⟩ := slugStem_valid tables titleEn titleAr hfallback hlen
  have hfree : generateUniqueSlug tables used titleEn titleAr fallback reservedPostSlugs ∉ used :=
    firstFreeSlug_notMem _ _
  obtain ⟨n, hn, hbefore⟩ := firstFreeSlug_spec used
    (slugStem tables titleEn titleAr fallback reservedPostSlugs)
  have hslug := isValidSlug_slugCandidate hvalid hroom
    (lt_of_le_of_lt (le_collisions hbefore) hused)
  rw [← hn] at hslug
  have haccepted := slugSchema_of_isValidSlug hslug
  refine ⟨_, n + 1, Nat.succ_le_succ (le_collisions hbefore), ?_, rfl, hfree, ?_⟩
  · rw [generateUniqueSlug, hn]
    refine searchSlug_eq 0 hbefore ?_ (Nat.zero_le n)
    rwa [← hn]
  · simp only [isValidSlug, Bool.and_eq_true, decide_eq_true_eq] at hslug
    exact ⟨hslug.2, hslug.1.2, hslug.1.1, haccepted⟩

/-- The second post of a title, in a runtime whose tables change nothing. -/
theorem generateUniqueSlug_accepted_second :
    slugSchema reservedPostSlugs (generateUniqueSlug ⟨id, id⟩ ["hello-world"]
      (some "hello, world!") none "post-1" reservedPostSlugs) =
      some (generateUniqueSlug ⟨id, id⟩ ["hello-world"]
        (some "hello, world!") none "post-1" reservedPostSlugs) := by
  obtain ⟨slug, -, -, -, heq, -, -, -, -, haccepted⟩ := generateUniqueSlug_accepted ⟨id, id⟩
    ["hello-world"] (some "hello, world!") none "post-1" (by decide) (by decide)
    (lt_of_le_of_lt (collisions_le_length _ _) (by decide))
  rwa [heq] at haccepted

example : generateUniqueSlug ⟨id, id⟩ ["hello-world"] (some "hello, world!") none "post-1"
    reservedPostSlugs = "hello-world-2" := by decide

end SafeerApi.Common
