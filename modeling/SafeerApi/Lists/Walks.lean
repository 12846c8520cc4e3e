import Mathlib.Data.List.TakeWhile
import Mathlib.Data.String.Basic
import SafeerApi.Lib.Paging
import SafeerApi.Lists.Routes

/-!
# Walking the pages of a list (`list-params.ts`)

A client walks the pages of one query from the first on. What the order of a list leaves open, the
database arranges anew for each page.
-/

namespace SafeerApi.Lists

open Common Lib Public

/-- The query for a page, by its number. -/
def atPage (query : Query) (page : ℕ) : Query :=
  Function.update query "page" (some (.text (toString page)))

section Walk

variable {R V : Type*}

/-- How many pages cover a total. -/
def pageCount (total limit : ℕ) : ℕ := (total + limit - 1) / limit

/-- What is shown on pages 1, 2, … until the total that is reported is covered. -/
def walk (ask : ℕ → PagedResult V) : List V :=
  (List.range (pageCount (ask 1).total (ask 1).limit)).flatMap fun i => (ask (i + 1)).data

/-- The rows a query matches. -/
def ListRoute.matching (route : ListRoute R V) (rows : List R) (query : Query) : List R :=
  rows.filter (route.wheres query)

/-- Whatever the database leaves each page's statement to find, the walk shows each matching row
once. -/
def VisitsOnce (route : ListRoute R V) (rows : List R) (query : Query) : Prop :=
  ∀ answers : ℕ → List R,
    (∀ page, Arranges route.orderBy (route.matching rows (atPage query page)) (answers page)) →
    (walk fun page => route.list (atPage query page) (answers page)).Perm
      ((route.matching rows query).map route.view)

/-- No page ends between rows that tie. -/
def TiesOnOnePage (route : ListRoute R V) (rows : List R) (query : Query) : Prop :=
  OnOnePage route.orderBy (readLimit query route.paging) (route.matching rows query)

instance (route : ListRoute R V) (rows : List R) (query : Query) :
    Decidable (TiesOnOnePage route rows query) :=
  inferInstanceAs (Decidable (OnOnePage _ _ _))

end Walk

/-! ### Reading the page -/

/-- A numeral is read as the number it spells. -/
lemma parseInt_toString (n : ℕ) : parseInt (toString n) = some (n : ℤ) := by
  have htext : (toString n).toList = Nat.toDigits 10 n := Nat.toList_repr
  have hdigits : ∀ c ∈ Nat.toDigits 10 n, c.isDigit = true :=
    fun c hc => Nat.isDigit_of_mem_toDigits (by decide) (by decide) hc
  have hvalue : Nat.ofDigitChars 10 (Nat.toDigits 10 n) 0 = n :=
    Nat.ofDigitChars_toDigits (by decide) (by decide)
  have hall : (Nat.toDigits 10 n).takeWhile Char.isDigit = Nat.toDigits 10 n :=
    List.takeWhile_eq_self_iff.mpr hdigits
  rw [parseInt, htext]
  cases hnil : Nat.toDigits 10 n with
  | nil => exact absurd hnil Nat.toDigits_ne_nil
  | cons c rest =>
    rw [hnil] at hdigits hall hvalue
    have hc : c.isDigit = true := hdigits c List.mem_cons_self
    have hrange : 0x30 ≤ c.toNat ∧ c.toNat ≤ 0x39 := Char.isDigit_iff_toNat.mp hc
    have hspace : isWhiteSpace c = false := isWhiteSpace_of_visible (by omega) (by omega)
    have hminus : c ≠ '-' := by
      rintro rfl
      exact absurd hc (by decide)
    have hplus : c ≠ '+' := by
      rintro rfl
      exact absurd hc (by decide)
    simp [hspace, hminus, hplus, hall, hvalue]

lemma toDouble_of_lt {n : ℕ} (h : n < 2 ^ 53) : toDouble n = some n := by
  rw [toDouble, if_pos h]

lemma readPage_atPage (query : Query) {page : ℕ} (hpos : 0 < page) (hlt : page < 2 ^ 53) :
    readPage (atPage query page) = some page := by
  have hread : readString (atPage query page) "page" = some (toString page) := by
    simp [readString, atPage, asString]
  have hne : (page : ℤ) ≠ 0 := by omega
  rw [readPage, hread, Option.getD_some, readCount, parseInt_toString]
  simp only [hne, if_false, Int.toNat_natCast, toDouble_of_lt hlt, Option.map_some]
  rw [Nat.max_eq_right hpos]

/-- The other parameters are those of every page. -/
lemma readString_atPage {query : Query} {page : ℕ} {key : String} (h : key ≠ "page") :
    readString (atPage query page) key = readString query key := by
  rw [readString, atPage, Function.update_of_ne h, readString]

lemma readLimit_atPage (query : Query) (page : ℕ) (opts : PageLimitOptions) :
    readLimit (atPage query page) opts = readLimit query opts := by
  rw [readLimit, readString_atPage (by decide), readLimit]

lemma readCount_pos {raw : String} {fallback n : ℕ} (h : readCount raw fallback = some n) :
    0 < n := by
  simp only [readCount] at h
  split at h
  · cases h
    omega
  · split_ifs at h
    · cases h
      omega
    · obtain ⟨m, -, rfl⟩ := Option.map_eq_some_iff.mp h
      omega

lemma readLimit_pos (query : Query) {opts : PageLimitOptions} (h : 0 < opts.maxLimit) :
    0 < readLimit query opts := by
  simp only [readLimit]
  split
  · exact h
  · next n hn => exact Nat.lt_min.mpr ⟨h, readCount_pos hn⟩

/-! ### One walk -/

section Walk

variable {R V : Type*} {route : ListRoute R V} {rows : List R} {query : Query}

@[simp] lemma list_total (answer : List R) : (route.list query answer).total = answer.length := by
  simp only [ListRoute.list]
  split <;> rfl

@[simp] lemma list_limit (answer : List R) :
    (route.list query answer).limit = readLimit query route.paging := by
  simp only [ListRoute.list, readPageLimit_limit]
  split <;> rfl

/-- A page that starts within the cap shows its share of what the database has arranged. -/
lemma list_data (hlimit : 0 < route.paging.maxLimit) {i : ℕ}
    (hwithin : i * readLimit query route.paging ≤ maxOffset) (answer : List R) :
    (route.list (atPage query (i + 1)) answer).data
      = (pageAt answer (readLimit query route.paging) i).map route.view := by
  have hi : i ≤ maxOffset :=
    (Nat.le_mul_of_pos_right i (readLimit_pos query hlimit)).trans hwithin
  have hpage : readPage (atPage query (i + 1)) = some (i + 1) := by
    apply readPage_atPage query (Nat.succ_pos i)
    simp only [maxOffset] at hi
    omega
  have hpaging : readPageLimit (atPage query (i + 1)) route.paging
      = ⟨some (i + 1), readLimit query route.paging, i * readLimit query route.paging, false⟩ := by
    rw [readPageLimit, hpage, readLimit_atPage, clampOffset]
    simp [hwithin]
  simp only [ListRoute.list, hpaging, Bool.false_eq_true, if_false, pageAt]

/-- The pages cover the total, and each of them starts before its end. -/
lemma pageCount_bounds (total : ℕ) {limit : ℕ} (hlimit : 0 < limit) :
    total ≤ pageCount total limit * limit ∧ ∀ i < pageCount total limit, i * limit < total := by
  have hdiv := Nat.div_add_mod (total + limit - 1) limit
  have hmod := Nat.mod_lt (total + limit - 1) hlimit
  rw [Nat.mul_comm] at hdiv
  constructor
  · rw [pageCount]
    omega
  · intro i hi
    have hle : (i + 1) * limit ≤ pageCount total limit * limit := Nat.mul_le_mul_right _ hi
    rw [Nat.add_mul, pageCount] at hle
    omega

/-- A walk over no more rows than the cap reads pages of the arrangements, one after another. -/
lemma walk_eq (hlimit : 0 < route.paging.maxLimit)
    (hwithin : (route.matching rows query).length ≤ maxOffset) {answers : ℕ → List R}
    (h : ∀ page, Arranges route.orderBy (route.matching rows query) (answers page)) :
    walk (fun page => route.list (atPage query page) (answers page))
      = (pages (fun i => answers (i + 1)) (readLimit query route.paging)
          (pageCount (route.matching rows query).length (readLimit query route.paging))).map
        route.view := by
  obtain ⟨-, hstart⟩ := pageCount_bounds (route.matching rows query).length
    (readLimit_pos query hlimit)
  simp only [walk, pages, list_total, list_limit, readLimit_atPage, (h 1).perm.length_eq,
    List.map_flatMap]
  apply List.flatMap_congr
  intro i hi
  apply list_data hlimit
  exact (hstart i (List.mem_range.mp hi)).le.trans hwithin

/-- What a list needs of its parts, over rows that `key` tells apart. -/
structure ListRoute.Lawful (route : ListRoute R V) (key : R → ℕ) : Prop where
  maxLimit_pos : 0 < route.paging.maxLimit
  orderBy_total : TotalPreorder route.orderBy
  wheres_atPage : ∀ query page, route.wheres (atPage query page) = route.wheres query
  view_key : ∀ r r', route.view r = route.view r' → key r = key r'

variable {key : R → ℕ}

lemma matching_atPage (hroute : route.Lawful key) (page : ℕ) :
    route.matching rows (atPage query page) = route.matching rows query := by
  rw [ListRoute.matching, hroute.wheres_atPage, ListRoute.matching]

/-- A list visits each row once exactly where the rows that tie lie on one page. -/
theorem visitsOnce_iff (hroute : route.Lawful key) (table : Table key)
    (hwithin : (route.matching table.rows query).length ≤ maxOffset) :
    VisitsOnce route table.rows query ↔ TiesOnOnePage route table.rows query := by
  have hlimit := readLimit_pos query hroute.maxLimit_pos
  have hnodup : (route.matching table.rows query).Nodup :=
    (List.Nodup.of_map key table.nodup).filter _
  obtain ⟨hcount, -⟩ := pageCount_bounds (route.matching table.rows query).length hlimit
  simp only [VisitsOnce, matching_atPage hroute]
  constructor
  · intro hvisits
    by_contra hties
    obtain ⟨arranged, harranged, htwice⟩ :=
      exists_pages_not_nodup hroute.orderBy_total hlimit hcount hties
    have hperm := hvisits (fun page => arranged (page - 1)) fun page => harranged (page - 1)
    rw [walk_eq hroute.maxLimit_pos hwithin fun page => harranged (page - 1)] at hperm
    have hviews : ((route.matching table.rows query).map route.view).Nodup := by
      apply List.Nodup.map_on _ hnodup
      intro r hr r' hr' hview
      exact Table.eq_of_key (List.mem_of_mem_filter hr) (List.mem_of_mem_filter hr')
        (hroute.view_key r r' hview)
    exact htwice (List.Nodup.of_map route.view (hperm.nodup_iff.mpr hviews))
  · intro hties answers h
    rw [walk_eq hroute.maxLimit_pos hwithin h]
    apply List.Perm.map
    exact pages_perm hroute.orderBy_total hnodup hlimit hcount hties fun i => h (i + 1)

/-- A list whose order tells all rows apart visits each of them once. -/
theorem visitsOnce_of_antisymm (hroute : route.Lawful key) (table : Table key)
    (hwithin : (route.matching table.rows query).length ≤ maxOffset)
    (hkey : ∀ a b, route.orderBy a b = true → route.orderBy b a = true → key a = key b) :
    VisitsOnce route table.rows query := by
  rw [visitsOnce_iff hroute table hwithin]
  apply onOnePage_of_antisymm hroute.orderBy_total
  · exact (List.Nodup.of_map key table.nodup).filter _
  · intro a ha b hb hab hba
    exact Table.eq_of_key (List.mem_of_mem_filter ha) (List.mem_of_mem_filter hb) (hkey a b hab hba)

end Walk

/-! ### The orders of the lists -/

section Orders

variable {E V A : Type*} {coll : Collation}

lemma kernel_orderBy_total (opts : CrudListOptions E V) : TotalPreorder opts.orderBy where
  total a b := by
    simp only [CrudListOptions.orderBy]
    split <;> simp only [Bool.or_eq_true, Bool.and_eq_true, decide_eq_true_eq] <;> omega
  trans a b c := by
    simp only [CrudListOptions.orderBy]
    split <;> simp only [Bool.or_eq_true, Bool.and_eq_true, decide_eq_true_eq] <;> omega

lemma kernel_wheres_atPage (opts : CrudListOptions E V) (query : Query) (page : ℕ) :
    opts.wheres coll (atPage query page) = opts.wheres coll query := by
  have hcolumn (key : String) (eq : String → Bool) :
      (decide (key ∈ reservedQueryKeys) || (readString (atPage query page) key).all eq)
        = (decide (key ∈ reservedQueryKeys) || (readString query key).all eq) := by
    by_cases hkey : key = "page"
    · simp [hkey, reservedQueryKeys]
    · rw [readString_atPage hkey]
  funext e
  simp only [CrudListOptions.wheres, readString_atPage (by decide : "q" ≠ "page"),
    readString_atPage (by decide : "published" ≠ "page"), hcolumn]

lemma kernel_lawful (opts : CrudListOptions E V) : (kernelList coll opts).Lawful opts.id where
  maxLimit_pos := Nat.succ_pos _
  orderBy_total := kernel_orderBy_total opts
  wheres_atPage query page := kernel_wheres_atPage opts query page
  view_key := opts.listEnrich_id

lemma news_orderBy_total : TotalPreorder (Post.notAfter : Post A → Post A → Bool) where
  total a b := by
    simp only [Post.notAfter]
    grind
  trans a b c := by
    simp only [Post.notAfter]
    grind

lemma news_lawful (db : Database A) : (newsRoute coll db).Lawful Post.id where
  maxLimit_pos := Nat.succ_pos _
  orderBy_total := news_orderBy_total
  wheres_atPage query page := by
    funext p
    simp only [newsRoute, readString_atPage (by decide : "category" ≠ "page"),
      readString_atPage (by decide : "q" ≠ "page")]
  view_key p p' h := congrArg PublicPostSummary.id h

lemma messages_lawful : messagesRoute.Lawful (fun m => m.id) where
  maxLimit_pos := Nat.succ_pos _
  orderBy_total := by
    constructor <;>
      simp only [messagesRoute, Bool.or_eq_true, Bool.and_eq_true, decide_eq_true_eq] <;> omega
  wheres_atPage query page := by
    funext m
    simp only [messagesRoute, readStatus, readString_atPage (by decide : "status" ≠ "page")]
  view_key m m' h := congrArg MessageListItem.id h

lemma media_lawful : mediaRoute.Lawful (fun asset => asset.id) where
  maxLimit_pos := Nat.succ_pos _
  orderBy_total := by
    constructor <;> simp only [mediaRoute, Bool.or_eq_true, decide_eq_true_eq] <;> omega
  wheres_atPage _ _ := rfl
  view_key a a' h := congrArg (fun asset : LibraryAsset => asset.id) h

lemma mailLog_lawful : (mailLogRoute coll).Lawful (fun m => m.id) where
  maxLimit_pos := Nat.succ_pos _
  orderBy_total := by
    constructor <;> simp only [mailLogRoute, Bool.or_eq_true, decide_eq_true_eq] <;> omega
  wheres_atPage query page := by
    funext m
    simp only [mailLogRoute, readString_atPage (by decide : "status" ≠ "page"),
      readString_atPage (by decide : "template" ≠ "page")]
  view_key m m' h := congrArg PublicMailLog.id h

/-! ### Orders that leave nothing open -/

lemma kernel_orderBy_antisymm (opts : CrudListOptions E V) (a b : E)
    (hab : opts.orderBy a b = true) (hba : opts.orderBy b a = true) : opts.id a = opts.id b := by
  simp only [CrudListOptions.orderBy] at hab hba
  split at hab <;> simp_all <;> omega

lemma news_orderBy_antisymm (a b : Post A) (hab : a.notAfter b = true)
    (hba : b.notAfter a = true) : a.id = b.id := by
  simp only [Post.notAfter] at hab hba
  grind

lemma messages_orderBy_antisymm (a b : InboxMessage) (hab : messagesRoute.orderBy a b = true)
    (hba : messagesRoute.orderBy b a = true) : a.id = b.id := by
  simp only [messagesRoute, Bool.or_eq_true, Bool.and_eq_true, decide_eq_true_eq] at hab hba
  omega

end Orders

/-! ### Every list -/

/-- A known category, or none, is served on every page. -/
lemma newsList_atPage {A : Type*} {coll : Collation} {db : Database A} {query : Query}
    (hknown : unknownCategory coll db query = none) (page : ℕ) (answer : List (Post A)) :
    newsList coll db (atPage query page) answer
      = .ok ((newsRoute coll db).list (atPage query page) answer) := by
  have hknown' : unknownCategory coll db (atPage query page) = none := by
    rw [unknownCategory, readString_atPage (by decide)]
    exact hknown
  rw [newsList, hknown']

universe u v w

/-- The kernel's lists, the public news and the messages visit each row once; the media library and
the mail log do so exactly where no page ends between rows of one time. -/
theorem lists_visit_once (coll : Collation) (query : Query) :
    (∀ {E : Type u} {V : Type v} (opts : CrudListOptions E V) (table : Table opts.id),
      ((kernelList coll opts).matching table.rows query).length ≤ maxOffset →
      VisitsOnce (kernelList coll opts) table.rows query) ∧
    (∀ {A : Type w} (db : Database A), (db.posts.map Post.id).Nodup →
      ((newsRoute coll db).matching db.posts query).length ≤ maxOffset →
      unknownCategory coll db query = none →
      (∀ page answer, newsList coll db (atPage query page) answer
        = .ok ((newsRoute coll db).list (atPage query page) answer)) ∧
      VisitsOnce (newsRoute coll db) db.posts query) ∧
    (∀ table : Table fun m : InboxMessage => m.id,
      (messagesRoute.matching table.rows query).length ≤ maxOffset →
      VisitsOnce messagesRoute table.rows query) ∧
    (∀ table : Table fun asset : LibraryAsset => asset.id,
      (mediaRoute.matching table.rows query).length ≤ maxOffset →
      (VisitsOnce mediaRoute table.rows query ↔ TiesOnOnePage mediaRoute table.rows query)) ∧
    ∀ table : Table fun m : LoggedMail => m.id,
      ((mailLogRoute coll).matching table.rows query).length ≤ maxOffset →
      (VisitsOnce (mailLogRoute coll) table.rows query ↔
        TiesOnOnePage (mailLogRoute coll) table.rows query) := by
  refine ⟨?_, ?_, ?_, ?_, ?_⟩
  · intro E V opts table hwithin
    exact visitsOnce_of_antisymm (kernel_lawful opts) table hwithin (kernel_orderBy_antisymm opts)
  · intro A db hids hwithin hknown
    refine ⟨newsList_atPage hknown, ?_⟩
    exact visitsOnce_of_antisymm (news_lawful db) ⟨db.posts, hids⟩ hwithin news_orderBy_antisymm
  · intro table hwithin
    exact visitsOnce_of_antisymm messages_lawful table hwithin messages_orderBy_antisymm
  · exact fun table hwithin => visitsOnce_iff media_lawful table hwithin
  · exact fun table hwithin => visitsOnce_iff mailLog_lawful table hwithin

def limited (limit : ℕ) : Query :=
  fun key => if key = "limit" then some (.text (toString limit)) else none

def newsPost (id : ℕ) (publishedOn : String) : Post Unit where
  id := id
  slug := toString id
  titleAr := "a"
  titleEn := none
  excerptAr := none
  excerptEn := none
  categoryId := 1
  coverAsset := none
  publishedOn := some publishedOn
  isFeatured := false
  isPublished := true

def inboxMessage (id createdAt : ℕ) : InboxMessage where
  id := id
  name := "a"
  email := "a"
  status := .unread
  locale := .en
  createdAt := createdAt
  subject := .other
  body := "a"

def libraryAsset (id createdAt : ℕ) : LibraryAsset where
  id := id
  kind := .pdf
  altAr := none
  publicId := toString id
  mimeType := "application/pdf"
  sizeBytes := 1
  originalName := "a.pdf"
  storageKey := toString id
  checksumSha256 := toString id
  createdAt := createdAt

def loggedMail (id createdAt : ℕ) : LoggedMail where
  id := id
  templateKey := "a"
  locale := .en
  toEmail := "a"
  subject := "a"
  status := .sent
  createdAt := createdAt

/-- Two rows of one time, and an older one. -/
def tied {R : Type} (row : ℕ → ℕ → R) : List R := [row 1 5, row 2 5, row 3 4]

/-- The rows of one time fill one page, or are told apart by their ids. -/
theorem lists_visit_once_tied :
    VisitsOnce (kernelList .binary
      { id := fun n : ℕ => n, columns := [], listEnrich := fun n => n, listEnrich_id := by simp })
      [1, 2, 3] (limited 2) ∧
    VisitsOnce (newsRoute .binary { posts := [newsPost 1 "2024-01-01", newsPost 2 "2024-01-01"] })
      [newsPost 1 "2024-01-01", newsPost 2 "2024-01-01"] (limited 1) ∧
    VisitsOnce messagesRoute (tied inboxMessage) (limited 1) ∧
    VisitsOnce mediaRoute (tied libraryAsset) (limited 2) ∧
    VisitsOnce (mailLogRoute .binary) (tied loggedMail) (limited 2) := by
  refine ⟨?_, ?_, ?_, ?_, ?_⟩
  · exact (lists_visit_once.{0, 0, 0} .binary (limited 2)).1 _ ⟨[1, 2, 3], by decide⟩
      (by decide +kernel)
  · exact ((lists_visit_once.{0, 0, 0} .binary (limited 1)).2.1 _ (by decide) (by decide +kernel)
      (by decide +kernel)).2
  · exact (lists_visit_once.{0, 0, 0} .binary (limited 1)).2.2.1 ⟨tied inboxMessage, by decide⟩
      (by decide +kernel)
  · exact ((lists_visit_once.{0, 0, 0} .binary (limited 2)).2.2.2.1 ⟨tied libraryAsset, by decide⟩
      (by decide +kernel)).mpr (by decide +kernel)
  · exact ((lists_visit_once.{0, 0, 0} .binary (limited 2)).2.2.2.2 ⟨tied loggedMail, by decide⟩
      (by decide +kernel)).mpr (by decide +kernel)

/-- Two files of one time, one page each: the second page may show the file of the first again. -/
theorem media_visits_twice :
    ¬ VisitsOnce mediaRoute [libraryAsset 1 5, libraryAsset 2 5] (limited 1) := by
  rw [visitsOnce_iff media_lawful ⟨[libraryAsset 1 5, libraryAsset 2 5], by decide⟩
    (by decide +kernel)]
  decide +kernel

end SafeerApi.Lists
