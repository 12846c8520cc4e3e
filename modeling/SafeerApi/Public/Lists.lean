import Mathlib.Data.List.Basic
import Mathlib.Data.List.Sort
import Mathlib.Tactic.Common
import SafeerApi.Common.Problem
import SafeerApi.Common.ListParams

/-!
# The public lists that read query parameters

`news.controller.ts`, `about-items.controller.ts`, `redirects-public.controller.ts` and
`partners.controller.ts`: the four cached public GET handlers that declare key parameters, over the
tables they read. A joined media asset appears in its public form only.
-/

namespace SafeerApi.Public

open Common

/-! ### Tables -/

/-- How the column collation compares texts: `=` on whole texts, and `LIKE` by character weight. -/
structure Collation where
  eq : String → String → Bool
  weight : Char → ℕ
  eq_refl : ∀ s, eq s s = true

/-- A collation that tells all texts apart. -/
def Collation.binary : Collation where
  eq a b := decide (a = b)
  weight := Char.toNat
  eq_refl s := by simp

/-- `news_categories`; `slug` is a `varchar(191)`. -/
structure NewsCategory where
  id : ℕ
  slug : String
  slug_length : slug.length ≤ 191
  nameAr : String
  nameEn : Option String
  sortOrder : ℤ
  deriving DecidableEq

/-- The columns of `posts` the list reads; `publishedOn` is an ISO date. -/
structure Post (A : Type*) where
  id : ℕ
  slug : String
  titleAr : String
  titleEn : Option String
  excerptAr : Option String
  excerptEn : Option String
  categoryId : ℕ
  coverAsset : Option A
  publishedOn : Option String
  isFeatured : Bool
  isPublished : Bool

inductive AboutItemKind where
  | vision
  | mission
  | goal
  | carePillar
  deriving DecidableEq, Repr

structure AboutItem where
  id : ℕ
  kind : AboutItemKind
  icon : Option String
  titleAr : String
  titleEn : Option String
  bodyAr : Option String
  bodyEn : Option String
  isPublished : Bool
  sortOrder : ℤ

structure Redirect where
  id : ℕ
  fromPath : String
  toPath : String
  statusCode : ℕ

inductive PartnerCategory where
  | government
  | university
  | association
  | supporter
  deriving DecidableEq, Repr

structure Partner (A : Type*) where
  id : ℕ
  nameAr : String
  nameEn : Option String
  category : PartnerCategory
  url : Option String
  logoAsset : Option A
  isPublished : Bool
  sortOrder : ℤ

/-- The tables behind the four routes. -/
structure Database (A : Type*) where
  categories : List NewsCategory := []
  posts : List (Post A) := []
  aboutItems : List AboutItem := []
  redirects : List Redirect := []
  partners : List (Partner A) := []

/-! ### About items -/

def AboutItemKind.name : AboutItemKind → String
  | .vision => "vision"
  | .mission => "mission"
  | .goal => "goal"
  | .carePillar => "care_pillar"

def aboutItemKinds : List AboutItemKind := [.vision, .mission, .goal, .carePillar]

def AboutItemKind.ofName (s : String) : Option AboutItemKind := aboutItemKinds.find? (·.name = s)

def parseKinds : Option String → Except Problem (List AboutItemKind)
  | none => .ok aboutItemKinds
  | some raw =>
    if (trim raw).isEmpty then .ok aboutItemKinds
    else
      let kinds := ((splitComma raw).map trim).eraseDups
      let unknown := kinds.filter fun k => (AboutItemKind.ofName k).isNone
      if unknown.isEmpty then .ok (kinds.filterMap AboutItemKind.ofName)
      else .error ⟨400, .validationFailed,
        "Unknown about-item kind: " ++ ", ".intercalate unknown, [], []⟩

structure PublicAboutItem where
  id : ℕ
  icon : Option String
  titleAr : String
  titleEn : Option String
  bodyAr : Option String
  bodyEn : Option String
  sortOrder : ℤ
  deriving DecidableEq

def toPublicAboutItem (render : String → String) (item : AboutItem) : PublicAboutItem where
  id := item.id
  icon := item.icon
  titleAr := item.titleAr
  titleEn := item.titleEn
  bodyAr := (truthy item.bodyAr).map render
  bodyEn := (truthy item.bodyEn).map render
  sortOrder := item.sortOrder

/-- The body's keys come in the order of the kinds asked for. -/
abbrev GroupedItems := List (AboutItemKind × List PublicAboutItem)

variable {A : Type*}

/-- `AboutItemsController.list`. -/
def aboutItemsList (render : String → String) (db : Database A) (query : Query) :
    Except Problem GroupedItems := do
  let kinds ← parseKinds (readString query "kind")
  let rows := (db.aboutItems.filter fun row => row.isPublished && row.kind ∈ kinds).mergeSort
    fun a b => a.sortOrder < b.sortOrder || (a.sortOrder = b.sortOrder && a.id ≤ b.id)
  .ok (kinds.map fun kind =>
    (kind, (rows.filter fun row => row.kind = kind).map (toPublicAboutItem render)))

/-! ### Redirects -/

structure Resolved where
  toPath : String
  statusCode : ℕ
  deriving DecidableEq

/-- `RedirectsPublicController.resolve`. -/
def resolve (coll : Collation) (db : Database A) (query : Query) : Except Problem Resolved :=
  match truthy (readString query "path") with
  | none => .error ⟨400, .validationFailed, "A \"path\" query parameter is required", [], []⟩
  | some path =>
    match db.redirects.find? fun row => coll.eq row.fromPath path with
    | none => .error ⟨404, .notFound, "No redirect is registered for this path", [], []⟩
    | some row => .ok ⟨row.toPath, row.statusCode⟩

/-! ### Partners -/

def PartnerCategory.name : PartnerCategory → String
  | .government => "government"
  | .university => "university"
  | .association => "association"
  | .supporter => "supporter"

def partnerCategories : List PartnerCategory := [.government, .university, .association, .supporter]

structure PublicPartner (A : Type*) where
  id : ℕ
  nameAr : String
  nameEn : Option String
  category : PartnerCategory
  url : Option String
  logoAsset : Option A
  sortOrder : ℤ

def toPublicPartner (partner : Partner A) : PublicPartner A where
  id := partner.id
  nameAr := partner.nameAr
  nameEn := partner.nameEn
  category := partner.category
  url := partner.url
  logoAsset := partner.logoAsset
  sortOrder := partner.sortOrder

/-- `PartnersController.list`. -/
def partnersList (db : Database A) (query : Query) : Except Problem (List (PublicPartner A)) :=
  let find (category : Option PartnerCategory) :=
    ((db.partners.filter fun p => p.isPublished && category.all (p.category = ·)).mergeSort
      fun a b => a.sortOrder ≤ b.sortOrder).map toPublicPartner
  match readString query "category" with
  | none => .ok (find none)
  | some s =>
    match partnerCategories.find? (·.name = s) with
    | none => .error ⟨400, .validationFailed, "Unknown partner category: " ++ s, [], []⟩
    | some category => .ok (find (some category))

/-! ### News -/

structure PublicNewsCategory where
  id : ℕ
  slug : String
  nameAr : String
  nameEn : Option String
  sortOrder : ℤ
  deriving DecidableEq

def toPublicNewsCategory (category : NewsCategory) : PublicNewsCategory where
  id := category.id
  slug := category.slug
  nameAr := category.nameAr
  nameEn := category.nameEn
  sortOrder := category.sortOrder

structure PublicPostSummary (A : Type*) where
  id : ℕ
  slug : String
  titleAr : String
  titleEn : Option String
  excerptAr : Option String
  excerptEn : Option String
  publishedOn : Option String
  isFeatured : Bool
  coverAsset : Option A
  category : Option PublicNewsCategory

structure PagedResult (T : Type*) where
  data : List T
  total : ℕ
  page : Option ℕ
  limit : ℕ

/-- The left join on `p.category`. -/
def Database.categoryOf (db : Database A) (post : Post A) : Option NewsCategory :=
  db.categories.find? fun c => c.id = post.categoryId

def toPublicPostSummary (db : Database A) (post : Post A) : PublicPostSummary A where
  id := post.id
  slug := post.slug
  titleAr := post.titleAr
  titleEn := post.titleEn
  excerptAr := post.excerptAr
  excerptEn := post.excerptEn
  publishedOn := post.publishedOn
  isFeatured := post.isFeatured
  coverAsset := post.coverAsset
  category := (db.categoryOf post).map toPublicNewsCategory

def newsPaging : PageLimitOptions where
  defaultLimit := 12
  maxLimit := 48

/-- `column LIKE '%' + escapeLikeValue(q) + '%'`. -/
def contains (coll : Collation) (q column : String) : Bool :=
  Lib.like coll.weight ("%" ++ escapeLikeValue q ++ "%").toList column.toList

/-- The search condition; a null column matches nothing. -/
def Post.matches (coll : Collation) (post : Post A) (q : String) : Bool :=
  contains coll q post.titleAr || post.titleEn.any (contains coll q) ||
    post.excerptAr.any (contains coll q) || post.excerptEn.any (contains coll q)

/-- `ORDER BY published_on DESC, id DESC`, where a null date comes last. -/
def Post.notAfter (a b : Post A) : Bool :=
  match a.publishedOn, b.publishedOn with
  | some d, some d' => d' < d || (d = d' && b.id ≤ a.id)
  | some _, none => true
  | none, some _ => false
  | none, none => b.id ≤ a.id

/-- The posts the list counts and pages through. -/
def newsRows (coll : Collation) (db : Database A) (category q : Option String) : List (Post A) :=
  (db.posts.filter fun p => p.isPublished &&
    category.all (fun slug => (db.categoryOf p).any fun c => coll.eq c.slug slug) &&
    q.all (p.matches coll)).mergeSort Post.notAfter

/-- `NewsController.list`, with what it leaves in `req.skipCacheWrite`. -/
def newsList (coll : Collation) (db : Database A) (query : Query) :
    Except Problem (PagedResult (PublicPostSummary A)) × Bool :=
  let paging := readPageLimit query newsPaging
  let category := truthy (readString query "category")
  let q := truthy (readString query "q")
  match category.filter fun slug => !db.categories.any fun c => coll.eq c.slug slug with
  | some slug => (.error ⟨400, .validationFailed, "Unknown news category: " ++ slug, [], []⟩, false)
  | none =>
    let rows := newsRows coll db category q
    if paging.beyondMaxOffset then (.ok ⟨[], rows.length, paging.page, paging.limit⟩, true)
    else
      (.ok ⟨((rows.drop paging.offset).take paging.limit).map (toPublicPostSummary db), rows.length,
        paging.page, paging.limit⟩, q.isSome)

/-! ### Routes -/

/-- The cached public GET routes that declare key parameters. -/
inductive Route where
  | news
  | aboutItems
  | redirectsResolve
  | partners
  deriving DecidableEq, Repr

def Route.path : Route → String
  | .news => "/api/v1/news"
  | .aboutItems => "/api/v1/about-items"
  | .redirectsResolve => "/api/v1/redirects/resolve"
  | .partners => "/api/v1/partners"

/-- `@CacheKeyParams(...)`. -/
def Route.keyParams : Route → List String
  | .news => ["page", "limit", "category", "q"]
  | .aboutItems => ["kind"]
  | .redirectsResolve => ["path"]
  | .partners => ["category"]

/-- `@CacheTags(...)`. -/
def Route.tags : Route → List String
  | .news => ["news"]
  | .aboutItems => ["about_items"]
  | .redirectsResolve => ["redirects"]
  | .partners => ["partners"]

inductive Body (A : Type*) where
  | news (page : PagedResult (PublicPostSummary A))
  | aboutItems (items : GroupedItems)
  | resolved (redirect : Resolved)
  | partners (list : List (PublicPartner A))

/-- A route's handler: its outcome, and whether the response is not to be stored. -/
def Route.handle (coll : Collation) (render : String → String) (db : Database A) (query : Query) :
    Route → Except Problem (Body A) × Bool
  | .news => ((newsList coll db query).1.map .news, (newsList coll db query).2)
  | .aboutItems => ((aboutItemsList render db query).map .aboutItems, false)
  | .redirectsResolve => ((resolve coll db query).map .resolved, false)
  | .partners => ((partnersList db query).map .partners, false)

end SafeerApi.Public
