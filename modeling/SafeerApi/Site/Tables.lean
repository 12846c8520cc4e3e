import SafeerApi.Licences.Licences
import SafeerApi.Media.Assets
import SafeerApi.OrgChart.PublicChart
import SafeerApi.Public.NewsDetail
import SafeerApi.Redirects.Redirects

/-!
# The tables behind the public site (`database/entities`)

Every public route reads some of these tables. The columns are those a route shows, compares or
sorts by, and those a foreign key is on. A row that refers to a media asset is read together with
the public form of the asset.
-/

namespace SafeerApi.Site

open Lib
open Licences (Licence LicenceTable)
open Media (MediaAsset MediaAssets)
open News (Posts)
open OrgChart (OrgPosition Positions)
open Public (AboutItem PartnerCategory Redirect)
open Redirects (RedirectTable)
open SiteSettings (Settings)

/-! ### Rows -/

structure Page where
  id : ℕ
  slug : String
  titleAr : String
  titleEn : Option String := none
  metaTitleAr : Option String := none
  metaTitleEn : Option String := none
  metaDescriptionAr : Option String := none
  metaDescriptionEn : Option String := none
  isPublished : Bool := true
  updatedAt : ℕ := 0
  deriving DecidableEq, Repr

structure PageSection where
  id : ℕ
  pageId : ℕ
  sectionKey : String
  labelAr : Option String := none
  labelEn : Option String := none
  headingAr : Option String := none
  headingEn : Option String := none
  bodyAr : Option String := none
  bodyEn : Option String := none
  primaryButtonLabelAr : Option String := none
  primaryButtonLabelEn : Option String := none
  primaryButtonUrl : Option String := none
  secondaryButtonLabelAr : Option String := none
  secondaryButtonLabelEn : Option String := none
  secondaryButtonUrl : Option String := none
  imageAssetId : Option ℕ := none
  isPublished : Bool := true
  sortOrder : ℤ := 0
  deriving DecidableEq, Repr

inductive BoardMemberGroup where
  | board
  | executive
  deriving DecidableEq, Repr

structure BoardMember where
  id : ℕ
  nameAr : String
  nameEn : Option String := none
  roleAr : String
  roleEn : Option String := none
  grp : BoardMemberGroup
  orgPositionId : Option ℕ := none
  isLead : Bool := false
  bioAr : Option String := none
  bioEn : Option String := none
  photoAssetId : Option ℕ := none
  isPublished : Bool := true
  sortOrder : ℤ := 0
  deriving DecidableEq, Repr

/-- A category, with the column only the sitemap reads. -/
structure NewsCategory extends Public.NewsCategory where
  updatedAt : ℕ := 0
  deriving DecidableEq

structure Partner where
  id : ℕ
  nameAr : String
  nameEn : Option String := none
  category : PartnerCategory
  url : Option String := none
  logoAssetId : Option ℕ := none
  isPublished : Bool := true
  sortOrder : ℤ := 0
  deriving DecidableEq, Repr

inductive DocSectionGroup where
  | governance
  | other
  deriving DecidableEq, Repr

structure DocCategory where
  id : ℕ
  slug : String
  nameAr : String
  nameEn : Option String := none
  sectionGroup : DocSectionGroup := .governance
  isPublished : Bool := true
  sortOrder : ℤ := 0
  deriving DecidableEq, Repr

structure SafeerDocument where
  id : ℕ
  categoryId : ℕ
  titleAr : String
  titleEn : Option String := none
  metaAr : Option String := none
  metaEn : Option String := none
  assetId : Option ℕ := none
  docDate : Option String := none
  isPublished : Bool := false
  sortOrder : ℤ := 0
  deriving DecidableEq, Repr

structure Stat where
  id : ℕ
  value : Option String := none
  labelAr : String
  labelEn : Option String := none
  subAr : Option String := none
  subEn : Option String := none
  isPublished : Bool := true
  sortOrder : ℤ := 0
  deriving DecidableEq, Repr

structure WorkArea where
  id : ℕ
  icon : Option String := none
  titleAr : String
  titleEn : Option String := none
  isPublished : Bool := true
  sortOrder : ℤ := 0
  deriving DecidableEq, Repr

structure WorkAreaItem where
  id : ℕ
  workAreaId : ℕ
  textAr : String
  textEn : Option String := none
  sortOrder : ℤ := 0
  isPublished : Bool := true
  deriving DecidableEq, Repr

inductive TestimonialStatus where
  | pending
  | published
  | hidden
  deriving DecidableEq, Repr

structure Testimonial where
  id : ℕ
  quoteAr : String
  quoteEn : Option String := none
  authorName : String
  authorDescAr : Option String := none
  authorDescEn : Option String := none
  status : TestimonialStatus := .pending
  isFeatured : Bool := false
  sortOrder : ℤ := 0
  deriving DecidableEq, Repr

structure TestimonialTheme where
  id : ℕ
  titleAr : String
  titleEn : Option String := none
  descriptionAr : Option String := none
  descriptionEn : Option String := none
  isImprovement : Bool := false
  sortOrder : ℤ := 0
  deriving DecidableEq, Repr

/-! ### Tables -/

/-- `settings` is the row with id 1, which the seed inserts. -/
structure Tables where
  pages : UniqueTable Page.id Page.slug
  pageSections : UniqueTable PageSection.id fun s => (s.pageId, s.sectionKey)
  boardMembers : Table BoardMember.id
  orgPositions : Positions
  newsCategories : UniqueTable (fun c : NewsCategory => c.id) fun c => c.slug
  posts : Posts
  redirects : RedirectTable
  partners : Table Partner.id
  docCategories : UniqueTable DocCategory.id DocCategory.slug
  documents : Table SafeerDocument.id
  licences : LicenceTable
  settings : Option Settings
  stats : Table Stat.id
  aboutItems : Table AboutItem.id
  workAreas : Table WorkArea.id
  workAreaItems : Table WorkAreaItem.id
  testimonials : Table Testimonial.id
  testimonialThemes : Table TestimonialTheme.id
  mediaAssets : MediaAssets

def Tables.empty : Tables where
  pages := .empty
  pageSections := .empty
  boardMembers := .empty
  orgPositions := .empty
  newsCategories := .empty
  posts := .empty
  redirects := .empty
  partners := .empty
  docCategories := .empty
  documents := .empty
  licences := .empty
  settings := none
  stats := .empty
  aboutItems := .empty
  workAreas := .empty
  workAreaItems := .empty
  testimonials := .empty
  testimonialThemes := .empty
  mediaAssets := .empty

/-- A nullable reference to a row there is. -/
def hasRow {ι R : Type*} [DecidableEq ι] {key : R → ι} (t : Table key) (id : Option ι) : Bool :=
  id.all fun id => (t.find id).isSome

/-- The foreign keys: every reference is to a row there is. -/
def Tables.intact (t : Tables) : Bool :=
  (t.pageSections.rows.all fun s =>
    hasRow t.pages.toTable (some s.pageId) && hasRow t.mediaAssets.toTable s.imageAssetId) &&
  (t.boardMembers.rows.all fun m =>
    hasRow t.orgPositions m.orgPositionId && hasRow t.mediaAssets.toTable m.photoAssetId) &&
  (t.orgPositions.rows.all fun p => hasRow t.orgPositions p.parentId) &&
  (t.posts.rows.all fun p => hasRow t.newsCategories.toTable (some p.categoryId) &&
    hasRow t.mediaAssets.toTable p.coverAssetId) &&
  (t.partners.rows.all fun p => hasRow t.mediaAssets.toTable p.logoAssetId) &&
  (t.documents.rows.all fun d => hasRow t.docCategories.toTable (some d.categoryId) &&
    hasRow t.mediaAssets.toTable d.assetId) &&
  (t.licences.rows.all fun l => hasRow t.mediaAssets.toTable l.assetId) &&
  (t.workAreaItems.rows.all fun i => hasRow t.workAreas (some i.workAreaId))

/-- The tables as a transaction leaves them. -/
structure Database extends Tables where
  intact : toTables.intact = true

def Database.empty : Database := ⟨.empty, rfl⟩

/-! ### Rows with their assets -/

/-- The part of an asset anyone may see. -/
structure PublicMediaAsset where
  id : ℕ
  publicId : String
  kind : Crud.MediaAssetKind
  mimeType : String
  sizeBytes : ℕ
  widthPx : Option ℕ
  heightPx : Option ℕ
  altAr : Option String
  altEn : Option String
  deriving DecidableEq, Repr

def toPublicAsset (asset : MediaAsset) : PublicMediaAsset where
  id := asset.id
  publicId := asset.publicId
  kind := asset.kind
  mimeType := asset.mimeType
  sizeBytes := asset.sizeBytes
  widthPx := asset.widthPx
  heightPx := asset.heightPx
  altAr := asset.altAr
  altEn := asset.altEn

/-- The asset a row refers to. -/
def Tables.asset (t : Tables) (id : Option ℕ) : Option PublicMediaAsset :=
  (id.bind t.mediaAssets.find).map toPublicAsset

/-- A row and the asset it refers to. -/
structure WithAsset (R : Type*) where
  row : R
  asset : Option PublicMediaAsset

/-- A post as the news routes read it, with the column only the sitemap reads. -/
structure JoinedPost extends Public.DetailPost PublicMediaAsset where
  updatedAt : ℕ := 0

def Tables.joinPost (t : Tables) (p : News.Post) : JoinedPost where
  id := p.id
  slug := p.slug
  titleAr := p.titleAr
  titleEn := p.titleEn
  excerptAr := p.excerptAr
  excerptEn := p.excerptEn
  categoryId := p.categoryId
  coverAsset := t.asset p.coverAssetId
  publishedOn := p.publishedOn
  isFeatured := p.isFeatured
  isPublished := p.isPublished
  bodyAr := p.bodyAr
  bodyEn := p.bodyEn
  updatedAt := p.updatedAt

/-- The partner as the partners route reads it. -/
def Tables.joinPartner (t : Tables) (p : Partner) : Public.Partner PublicMediaAsset where
  id := p.id
  nameAr := p.nameAr
  nameEn := p.nameEn
  category := p.category
  url := p.url
  logoAsset := t.asset p.logoAssetId
  isPublished := p.isPublished
  sortOrder := p.sortOrder

/-- What the routes can read: the rows of each table, joined with their assets. -/
structure Rows where
  pages : List Page
  pageSections : List (WithAsset PageSection)
  boardMembers : List (WithAsset BoardMember)
  orgPositions : List OrgPosition
  newsCategories : List NewsCategory
  posts : List JoinedPost
  redirects : List Redirect
  partners : List (Public.Partner PublicMediaAsset)
  docCategories : List DocCategory
  documents : List (WithAsset SafeerDocument)
  licences : List (WithAsset Licence)
  settings : Option Settings
  stats : List Stat
  aboutItems : List AboutItem
  workAreas : List WorkArea
  workAreaItems : List WorkAreaItem
  testimonials : List Testimonial
  testimonialThemes : List TestimonialTheme

def Tables.rows (t : Tables) : Rows where
  pages := t.pages.rows
  pageSections := t.pageSections.rows.map fun s => ⟨s, t.asset s.imageAssetId⟩
  boardMembers := t.boardMembers.rows.map fun m => ⟨m, t.asset m.photoAssetId⟩
  orgPositions := t.orgPositions.rows
  newsCategories := t.newsCategories.rows
  posts := t.posts.rows.map t.joinPost
  redirects := t.redirects.rows
  partners := t.partners.rows.map t.joinPartner
  docCategories := t.docCategories.rows
  documents := t.documents.rows.map fun d => ⟨d, t.asset d.assetId⟩
  licences := t.licences.rows.map fun l => ⟨l, t.asset l.assetId⟩
  settings := t.settings
  stats := t.stats.rows
  aboutItems := t.aboutItems.rows
  workAreas := t.workAreas.rows
  workAreaItems := t.workAreaItems.rows
  testimonials := t.testimonials.rows
  testimonialThemes := t.testimonialThemes.rows

/-! ### Agreement -/

/-- What a find reads: a table, with the assets of its rows. The chart reads the board's members
without their photos. -/
inductive TableName where
  | pages
  | pageSections
  | boardMembers
  | boardPhotos
  | orgPositions
  | newsCategories
  | posts
  | redirects
  | partners
  | docCategories
  | documents
  | licences
  | settings
  | stats
  | aboutItems
  | workAreas
  | workAreaItems
  | testimonials
  | testimonialThemes
  deriving DecidableEq, Repr

/-- A table has the same rows, with the same assets. -/
def Rows.Same (r r' : Rows) : TableName → Prop
  | .pages => r.pages = r'.pages
  | .pageSections => r.pageSections = r'.pageSections
  | .boardMembers => r.boardMembers.map WithAsset.row = r'.boardMembers.map WithAsset.row
  | .boardPhotos => r.boardMembers = r'.boardMembers
  | .orgPositions => r.orgPositions = r'.orgPositions
  | .newsCategories => r.newsCategories = r'.newsCategories
  | .posts => r.posts = r'.posts
  | .redirects => r.redirects = r'.redirects
  | .partners => r.partners = r'.partners
  | .docCategories => r.docCategories = r'.docCategories
  | .documents => r.documents = r'.documents
  | .licences => r.licences = r'.licences
  | .settings => r.settings = r'.settings
  | .stats => r.stats = r'.stats
  | .aboutItems => r.aboutItems = r'.aboutItems
  | .workAreas => r.workAreas = r'.workAreas
  | .workAreaItems => r.workAreaItems = r'.workAreaItems
  | .testimonials => r.testimonials = r'.testimonials
  | .testimonialThemes => r.testimonialThemes = r'.testimonialThemes

lemma Rows.Same.refl (r : Rows) (name : TableName) : r.Same r name := by
  cases name <;> rfl

lemma Rows.Same.symm {r r' : Rows} {name : TableName} (h : r.Same r' name) : r'.Same r name := by
  cases name <;> exact Eq.symm h

lemma Rows.Same.trans {r r' r'' : Rows} {name : TableName} (h : r.Same r' name)
    (h' : r'.Same r'' name) : r.Same r'' name := by
  cases name <;> exact Eq.trans h h'

end SafeerApi.Site
