import Mathlib.Data.List.Nodup
import Mathlib.Data.List.Pairwise
import Mathlib.Data.List.Perm.Basic
import Mathlib.Tactic.Common

/-!
# Paging through an order

A list is read page by page, each page cut from an order of the same rows. An order says of some
rows which comes first, and leaves the others to who arranges them, anew for each page. What is read
is each row once exactly where the rows that an order leaves open never lie on different pages.
-/

namespace SafeerApi.Lib

variable {R : Type*}

/-- Any two rows are compared, and comparisons chain. -/
structure TotalPreorder (le : R → R → Bool) : Prop where
  total : ∀ a b, le a b || le b a
  trans : ∀ a b c, le a b → le b c → le a c

lemma TotalPreorder.refl {le : R → R → Bool} (hle : TotalPreorder le) (r : R) : le r r = true := by
  simpa using hle.total r r

/-- A sorted list falls into what does not come after a row and what does in one way. -/
lemma TotalPreorder.split_unique {le : R → R → Bool} {a : R} {l₁ l₂ m₁ m₂ : List R}
    (hl₁ : ∀ b ∈ l₁, le a b = false) (hl₂ : ∀ b ∈ l₂, le a b = true)
    (hm₁ : ∀ b ∈ m₁, le a b = false) (hm₂ : ∀ b ∈ m₂, le a b = true)
    (h : l₁ ++ l₂ = m₁ ++ m₂) : l₁ = m₁ ∧ l₂ = m₂ := by
  have hfirst : ∀ {x y : List R}, (∀ b ∈ x, le a b = false) → (∀ b ∈ y, le a b = true) →
      (x ++ y).filter (fun b => !le a b) = x := by
    intro x y hx hy
    rw [List.filter_append, List.filter_eq_self.mpr, List.filter_eq_nil_iff.mpr, List.append_nil]
    · exact fun b hb => by simp [hy b hb]
    · exact fun b hb => by simp [hx b hb]
  have heq : l₁ = m₁ := by rw [← hfirst hl₁ hl₂, h, hfirst hm₁ hm₂]
  exact ⟨heq, List.append_cancel_left (heq ▸ h)⟩

/-- Rows may be left out before or after a list is sorted. -/
lemma TotalPreorder.filter_mergeSort {le : R → R → Bool} (hle : TotalPreorder le) (p : R → Bool)
    (rows : List R) : (rows.mergeSort le).filter p = (rows.filter p).mergeSort le := by
  induction rows with
  | nil => simp
  | cons a rows ih =>
    have hsplit : ∀ rows : List R, ∃ l₁ l₂, (a :: rows).mergeSort le = l₁ ++ a :: l₂ ∧
        rows.mergeSort le = l₁ ++ l₂ ∧ (∀ b ∈ l₁, le a b = false) ∧ ∀ b ∈ l₂, le a b = true := by
      intro rows
      obtain ⟨l₁, l₂, hcons, hrows, hbefore⟩ := List.mergeSort_cons hle.trans hle.total a rows
      refine ⟨l₁, l₂, hcons, hrows, fun b hb => by simpa using hbefore b hb, fun b hb => ?_⟩
      have hsorted := List.pairwise_mergeSort hle.trans hle.total (a :: rows)
      rw [hcons] at hsorted
      exact (List.pairwise_cons.mp (List.pairwise_append.mp hsorted).2.1).1 b hb
    obtain ⟨l₁, l₂, hcons, hrows, hl₁, hl₂⟩ := hsplit rows
    cases hp : p a with
    | false =>
      rw [hcons, List.filter_cons_of_neg (by simp [hp]), ← ih, hrows]
      simp [hp]
    | true =>
      obtain ⟨m₁, m₂, hcons', hrows', hm₁, hm₂⟩ := hsplit (rows.filter p)
      have hsame : l₁.filter p ++ l₂.filter p = m₁ ++ m₂ := by
        rw [← hrows', ← ih, hrows, List.filter_append]
      obtain ⟨rfl, rfl⟩ := split_unique (fun b hb => hl₁ b (List.mem_of_mem_filter hb))
        (fun b hb => hl₂ b (List.mem_of_mem_filter hb)) hm₁ hm₂ hsame
      rw [hcons, List.filter_cons_of_pos hp, hcons', List.filter_append,
        List.filter_cons_of_pos hp]

/-- The ways to arrange `rows` by `le`: rows that are `le` one another may come either way. -/
structure Arranges (le : R → R → Bool) (rows arranged : List R) : Prop where
  perm : arranged.Perm rows
  sorted : arranged.Pairwise fun a b => le a b = true

/-- Page `i`, counted from zero. -/
def pageAt (arranged : List R) (limit i : ℕ) : List R := (arranged.drop (i * limit)).take limit

/-- The first `count` pages, each cut from an arrangement of its own. -/
def pages (arranged : ℕ → List R) (limit count : ℕ) : List R :=
  (List.range count).flatMap fun i => pageAt (arranged i) limit i

/-- The rows that come before `r` in every arrangement. -/
def before (le : R → R → Bool) (rows : List R) (r : R) : ℕ := rows.countP fun x => !le r x

/-- The rows that may come no later than `r`, `r` among them. -/
def upTo (le : R → R → Bool) (rows : List R) (r : R) : ℕ := rows.countP fun x => le x r

/-- Rows that are left open lie on one page: the first and the last place a row may take do. -/
def OnOnePage (le : R → R → Bool) (limit : ℕ) (rows : List R) : Prop :=
  ∀ r ∈ rows, before le rows r / limit = (upTo le rows r - 1) / limit

instance (le : R → R → Bool) (limit : ℕ) (rows : List R) : Decidable (OnOnePage le limit rows) :=
  inferInstanceAs (Decidable (∀ r ∈ rows, _))

/-! ### Places -/

section Places

variable {le : R → R → Bool} {rows arranged : List R} {limit : ℕ} {r : R}

lemma mem_pageAt (hlimit : 0 < limit) {i : ℕ} :
    r ∈ pageAt arranged limit i ↔ ∃ p, arranged[p]? = some r ∧ p / limit = i := by
  simp only [pageAt, List.mem_iff_getElem?, List.getElem?_take, List.getElem?_drop]
  constructor
  · rintro ⟨q, hq⟩
    split_ifs at hq with hlt
    refine ⟨i * limit + q, hq, ?_⟩
    rw [Nat.mul_comm, Nat.mul_add_div hlimit, Nat.div_eq_of_lt hlt, Nat.add_zero]
  · rintro ⟨p, hp, rfl⟩
    refine ⟨p % limit, ?_⟩
    rw [if_pos (Nat.mod_lt p hlimit), Nat.div_add_mod']
    exact hp

lemma exists_append_of_place {p : ℕ} (h : arranged[p]? = some r) :
    ∃ as bs, arranged = as ++ r :: bs ∧ as.length = p := by
  obtain ⟨hlt, hr⟩ := List.getElem?_eq_some_iff.mp h
  refine ⟨arranged.take p, arranged.drop (p + 1), ?_, List.length_take_of_le (Nat.le_of_lt hlt)⟩
  rw [← hr, ← List.drop_eq_getElem_cons, List.take_append_drop]

/-- The places that a row can take. -/
lemma Arranges.place (h : Arranges le rows arranged) (hle : TotalPreorder le)
    {p : ℕ} (hp : arranged[p]? = some r) : before le rows r ≤ p ∧ p < upTo le rows r := by
  obtain ⟨as, bs, rfl, rfl⟩ := exists_append_of_place hp
  have hself := hle.refl r
  have hsorted := h.sorted
  rw [List.pairwise_append, List.pairwise_cons] at hsorted
  obtain ⟨-, ⟨hlater, -⟩, hearlier⟩ := hsorted
  rw [before, upTo, ← h.perm.countP_eq, ← h.perm.countP_eq, List.countP_append, List.countP_append]
  constructor
  · have hnone : (r :: bs).countP (fun x => !le r x) = 0 := by
      rw [List.countP_eq_zero]
      intro x hx
      rcases List.mem_cons.mp hx with rfl | hx
      · simp [hself]
      · simp [hlater x hx]
    rw [hnone, Nat.add_zero]
    exact List.countP_le_length
  · have hall : as.countP (fun x => le x r) = as.length := by
      rw [List.countP_eq_length]
      exact fun x hx => hearlier x hx r List.mem_cons_self
    have hpos : 0 < (r :: bs).countP fun x => le x r := by
      rw [List.countP_pos_iff]
      exact ⟨r, List.mem_cons_self, hself⟩
    omega

/-- A row can take the place behind any rows that may come before it, in front of the others. -/
lemma exists_arranges (hle : TotalPreorder le) {as bs : List R}
    (hperm : (as ++ r :: bs).Perm rows) (has : ∀ a ∈ as, le a r = true)
    (hbs : ∀ b ∈ bs, le r b = true) :
    ∃ arranged, Arranges le rows arranged ∧ arranged[as.length]? = some r := by
  refine ⟨as.mergeSort le ++ r :: bs.mergeSort le, ⟨?_, ?_⟩, ?_⟩
  · refine List.Perm.trans ?_ hperm
    exact (List.mergeSort_perm as le).append ((List.mergeSort_perm bs le).cons r)
  · rw [List.pairwise_append, List.pairwise_cons]
    have has' : ∀ a ∈ as.mergeSort le, le a r = true :=
      fun a ha => has a (List.mem_mergeSort.mp ha)
    have hbs' : ∀ b ∈ bs.mergeSort le, le r b = true :=
      fun b hb => hbs b (List.mem_mergeSort.mp hb)
    refine ⟨List.pairwise_mergeSort hle.trans hle.total as, ⟨hbs', ?_⟩, ?_⟩
    · exact List.pairwise_mergeSort hle.trans hle.total bs
    · intro a ha b hb
      rcases List.mem_cons.mp hb with rfl | hb
      · exact has' a ha
      · exact hle.trans a r b (has' a ha) (hbs' b hb)
  · have hlength : as.length = (as.mergeSort le).length := (List.length_mergeSort as).symm
    rw [hlength]
    simp

/-- A row can come behind no others than those that come before it in every arrangement. -/
lemma exists_arranges_first (hle : TotalPreorder le) (hr : r ∈ rows) :
    ∃ arranged, Arranges le rows arranged ∧ arranged[before le rows r]? = some r := by
  classical
  have hmem : r ∈ rows.filter fun x => le r x :=
    List.mem_filter.mpr ⟨hr, hle.refl r⟩
  have hsplit : ((rows.filter fun x => !le r x) ++ rows.filter fun x => le r x).Perm rows :=
    List.perm_append_comm.trans (List.filter_append_perm _ rows)
  have hperm : ((rows.filter fun x => !le r x)
      ++ r :: (rows.filter fun x => le r x).erase r).Perm rows :=
    ((List.perm_cons_erase hmem).symm.append_left _).trans hsplit
  rw [before, List.countP_eq_length_filter]
  apply exists_arranges hle hperm
  · intro a ha
    have hlate : le r a = false := by simpa using (List.mem_filter.mp ha).2
    simpa [hlate] using hle.total r a
  · exact fun b hb => (List.mem_filter.mp (List.mem_of_mem_erase hb)).2

/-- A row can come behind all others that may come no later. -/
lemma exists_arranges_last (hle : TotalPreorder le) (hr : r ∈ rows) :
    ∃ arranged, Arranges le rows arranged ∧ arranged[upTo le rows r - 1]? = some r := by
  classical
  have hmem : r ∈ rows.filter fun x => le x r :=
    List.mem_filter.mpr ⟨hr, hle.refl r⟩
  have hsplit : ((rows.filter fun x => le x r) ++ rows.filter fun x => !le x r).Perm rows :=
    List.filter_append_perm _ rows
  have hperm : ((rows.filter fun x => le x r).erase r
      ++ r :: rows.filter fun x => !le x r).Perm rows :=
    (List.perm_middle.trans ((List.perm_cons_erase hmem).symm.append_right _)).trans hsplit
  rw [upTo, List.countP_eq_length_filter, ← List.length_erase_of_mem hmem]
  apply exists_arranges hle hperm
  · exact fun a ha => (List.mem_filter.mp (List.mem_of_mem_erase ha)).2
  · intro b hb
    have hlate : le b r = false := by simpa using (List.mem_filter.mp hb).2
    simpa [hlate] using hle.total b r

end Places

/-- An order that leaves nothing open puts each row in one place. -/
lemma onOnePage_of_antisymm {le : R → R → Bool} {rows : List R} {limit : ℕ}
    (hle : TotalPreorder le) (hnodup : rows.Nodup)
    (hantisymm : ∀ a ∈ rows, ∀ b ∈ rows, le a b = true → le b a = true → a = b) :
    OnOnePage le limit rows := by
  classical
  intro r hr
  have hself := hle.refl r
  have hties : (rows.countP fun x => le x r && le r x) = 1 := by
    rw [← List.count_eq_one_of_mem hnodup hr]
    apply List.countP_congr
    intro x hx
    simp only [Bool.and_eq_true, beq_iff_eq]
    constructor
    · rintro ⟨hxr, hrx⟩
      exact hantisymm x hx r hr hxr hrx
    · rintro rfl
      exact ⟨hself, hself⟩
  have hearlier : (rows.countP fun x => le x r && !le r x) = before le rows r := by
    apply List.countP_congr
    intro x _
    have hx := hle.total x r
    cases hrx : le r x <;> simp_all
  have hupTo : upTo le rows r = 1 + before le rows r := by
    rw [upTo, List.countP_eq_countP_filter_add rows _ fun x => le r x, List.countP_filter,
      List.countP_filter, hties, hearlier]
  rw [hupTo, Nat.add_sub_cancel_left]

/-! ### What is read -/

section Pages

variable {le : R → R → Bool} {rows : List R} {arranged : ℕ → List R} {limit count : ℕ}

/-- A row lies on the page of the first place it can take, wherever it is put. -/
lemma page_eq_of_onOnePage (hle : TotalPreorder le) (hpage : OnOnePage le limit rows)
    {l : List R} (hl : Arranges le rows l) {r : R} {p : ℕ} (hp : l[p]? = some r) :
    p / limit = before le rows r / limit := by
  obtain ⟨hbefore, hupTo⟩ := hl.place hle hp
  have hr : r ∈ rows := hl.perm.mem_iff.mp (List.mem_of_getElem? hp)
  have hfirst : before le rows r / limit ≤ p / limit := Nat.div_le_div_right hbefore
  have hlast : p / limit ≤ (upTo le rows r - 1) / limit := Nat.div_le_div_right (by omega)
  rw [← hpage r hr] at hlast
  exact Nat.le_antisymm hlast hfirst

/-- The pages reach as far as the rows. -/
lemma Arranges.page_lt {l : List R} (hl : Arranges le rows l) (hcount : rows.length ≤ count * limit)
    {r : R} {p : ℕ} (hp : l[p]? = some r) : p / limit < count := by
  apply Nat.div_lt_of_lt_mul
  calc p < l.length := (List.getElem?_eq_some_iff.mp hp).1
    _ = rows.length := hl.perm.length_eq
    _ ≤ limit * count := by rwa [Nat.mul_comm]

/-- Each row is read once, where rows that are left open lie on one page. -/
theorem pages_perm (hle : TotalPreorder le) (hnodup : rows.Nodup) (hlimit : 0 < limit)
    (hcount : rows.length ≤ count * limit) (hpage : OnOnePage le limit rows)
    (h : ∀ i, Arranges le rows (arranged i)) : (pages arranged limit count).Perm rows := by
  have honce : ∀ i r, r ∈ pageAt (arranged i) limit i →
      r ∈ rows ∧ i = before le rows r / limit := by
    intro i r hr
    obtain ⟨p, hp, rfl⟩ := (mem_pageAt hlimit).mp hr
    exact ⟨(h _).perm.mem_iff.mp (List.mem_of_getElem? hp),
      page_eq_of_onOnePage hle hpage (h _) hp⟩
  rw [List.perm_ext_iff_of_nodup _ hnodup]
  · intro r
    simp only [pages, List.mem_flatMap, List.mem_range]
    constructor
    · rintro ⟨i, -, hr⟩
      exact (honce i r hr).1
    · intro hr
      -- the page the row is read on, and the place it has there
      let i := before le rows r / limit
      obtain ⟨p, hp⟩ := List.mem_iff_getElem?.mp ((h i).perm.mem_iff.mpr hr)
      have hi : p / limit = i := page_eq_of_onOnePage hle hpage (h i) hp
      refine ⟨i, ?_, (mem_pageAt hlimit).mpr ⟨p, hp, hi⟩⟩
      rw [← hi]
      exact (h i).page_lt hcount hp
  · rw [pages, List.nodup_flatMap]
    constructor
    · intro i _
      have hsub : (pageAt (arranged i) limit i).Sublist (arranged i) :=
        (List.take_sublist _ _).trans (List.drop_sublist _ _)
      exact ((h i).perm.nodup_iff.mpr hnodup).sublist hsub
    · refine List.Pairwise.imp ?_ List.nodup_range
      intro i j hij r hri hrj
      exact hij ((honce i r hri).2.trans (honce j r hrj).2.symm)

/-- Where rows that are left open lie on two pages, one of them can be read twice. -/
theorem exists_pages_not_nodup (hle : TotalPreorder le) (hlimit : 0 < limit)
    (hcount : rows.length ≤ count * limit) (hpage : ¬ OnOnePage le limit rows) :
    ∃ arranged, (∀ i, Arranges le rows (arranged i)) ∧ ¬ (pages arranged limit count).Nodup := by
  simp only [OnOnePage, not_forall] at hpage
  obtain ⟨r, hr, hpage⟩ := hpage
  obtain ⟨first, hfirst, hplace⟩ := exists_arranges_first hle hr
  obtain ⟨last, hlast, hplace'⟩ := exists_arranges_last hle hr
  -- the row is the last thing on one page and the first thing on a later one
  refine ⟨fun j => if j = before le rows r / limit then first else last, ?_, ?_⟩
  · intro j
    dsimp only
    split_ifs
    · exact hfirst
    · exact hlast
  · intro hnodup
    rw [pages, List.nodup_flatMap] at hnodup
    have hsymm (f : ℕ → List R) : Std.Symm (Function.onFun List.Disjoint f) :=
      ⟨fun _ _ h _ hi hj => h hj hi⟩
    have hdisjoint := hnodup.2.forall
      (List.mem_range.mpr (hfirst.page_lt hcount hplace))
      (List.mem_range.mpr (hlast.page_lt hcount hplace')) hpage
    have hread : ∀ l p, l[p]? = some r → r ∈ pageAt l limit (p / limit) :=
      fun l p hp => (mem_pageAt hlimit).mpr ⟨p, hp, rfl⟩
    refine hdisjoint (a := r) ?_ ?_
    · simp only [if_true]
      exact hread first _ hplace
    · simp only [if_neg (Ne.symm hpage)]
      exact hread last _ hplace'

end Pages

end SafeerApi.Lib
