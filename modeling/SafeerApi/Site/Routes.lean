import SafeerApi.Site.Tables

/-!
# The public routes

`home.service.ts`, `site.controller.ts`, `pages.controller.ts`, `work-areas.controller.ts`,
`board.controller.ts`, `news.controller.ts`, `testimonials.controller.ts`, `partners.controller.ts`,
`documents.controller.ts`, `licences.controller.ts`, `org-chart.controller.ts`,
`about-items.controller.ts`, `sitemap.controller.ts` and `redirects-public.controller.ts`: what each
cached route shows of the tables, and under which tags it is stored.
-/

namespace SafeerApi.Site

open Common
open Licences (Licence)
open OrgChart (ChartMember PublicOrgNode buildOrgForest)
open Public (AboutItem AboutItemKind GroupedItems NewsBody NewsDatabase NewsRoute PublicAboutItem
  PublicEnv PublicNewsCategory PublicPartner PublicPostSummary Resolved toPublicAboutItem
  toPublicNewsCategory toPublicPartner toPublicPostSummary)
open SiteSettings (FormColumn LicenceColumns Settings)

/-! ### Orders -/

/-- `ORDER BY sort_order ASC`. Equal rows keep the order of the table; the database promises no order
for them. -/
def bySortOrder {R : Type*} (sortOrder : R → ℤ) (rows : List R) : List R :=
  rows.mergeSort fun a b => sortOrder a ≤ sortOrder b

/-- `ORDER BY sort_order ASC, id ASC` -/
def bySortOrderId {R : Type*} (sortOrder : R → ℤ) (id : R → ℕ) (rows : List R) : List R :=
  rows.mergeSort fun a b =>
    sortOrder a < sortOrder b || (sortOrder a = sortOrder b && id a ≤ id b)

@[simp] lemma mem_bySortOrder {R : Type*} {sortOrder : R → ℤ} {rows : List R} {r : R} :
    r ∈ bySortOrder sortOrder rows ↔ r ∈ rows := List.mem_mergeSort

@[simp] lemma mem_bySortOrderId {R : Type*} {sortOrder : R → ℤ} {id : R → ℕ} {rows : List R}
    {r : R} : r ∈ bySortOrderId sortOrder id rows ↔ r ∈ rows := List.mem_mergeSort

/-! ### Pages -/

structure PublicPageSection where
  id : ℕ
  sectionKey : String
  labelAr : Option String
  labelEn : Option String
  headingAr : Option String
  headingEn : Option String
  bodyAr : Option String
  bodyEn : Option String
  primaryButtonLabelAr : Option String
  primaryButtonLabelEn : Option String
  primaryButtonUrl : Option String
  secondaryButtonLabelAr : Option String
  secondaryButtonLabelEn : Option String
  secondaryButtonUrl : Option String
  imageAsset : Option PublicMediaAsset
  sortOrder : ℤ

def toPublicPageSection (render : String → String) (s : WithAsset PageSection) :
    PublicPageSection where
  id := s.row.id
  sectionKey := s.row.sectionKey
  labelAr := s.row.labelAr
  labelEn := s.row.labelEn
  headingAr := s.row.headingAr
  headingEn := s.row.headingEn
  bodyAr := (truthy s.row.bodyAr).map render
  bodyEn := (truthy s.row.bodyEn).map render
  primaryButtonLabelAr := s.row.primaryButtonLabelAr
  primaryButtonLabelEn := s.row.primaryButtonLabelEn
  primaryButtonUrl := s.row.primaryButtonUrl
  secondaryButtonLabelAr := s.row.secondaryButtonLabelAr
  secondaryButtonLabelEn := s.row.secondaryButtonLabelEn
  secondaryButtonUrl := s.row.secondaryButtonUrl
  imageAsset := s.asset
  sortOrder := s.row.sortOrder

structure PublicPage where
  id : ℕ
  slug : String
  titleAr : String
  titleEn : Option String
  metaTitleAr : Option String
  metaTitleEn : Option String
  metaDescriptionAr : Option String
  metaDescriptionEn : Option String
  sections : List PublicPageSection

def toPublicPage (render : String → String) (page : Page)
    (sections : List (WithAsset PageSection)) : PublicPage where
  id := page.id
  slug := page.slug
  titleAr := page.titleAr
  titleEn := page.titleEn
  metaTitleAr := page.metaTitleAr
  metaTitleEn := page.metaTitleEn
  metaDescriptionAr := page.metaDescriptionAr
  metaDescriptionEn := page.metaDescriptionEn
  sections := sections.map (toPublicPageSection render)

def Rows.publishedPages (r : Rows) : List Page := r.pages.filter (·.isPublished)

/-- The published sections of the pages that meet `p`. -/
def Rows.sectionsOf (r : Rows) (p : ℕ → Bool) : List (WithAsset PageSection) :=
  bySortOrder (·.row.sortOrder) (r.pageSections.filter fun s => p s.row.pageId && s.row.isPublished)

/-- `PagesController.bySlug` -/
def pageBySlug (env : PublicEnv) (r : Rows) (slug : String) : Except Problem PublicPage :=
  match r.publishedPages.find? fun p => env.coll.eq p.slug slug with
  | none => .error Crud.notFound
  | some page => .ok (toPublicPage env.render page (r.sectionsOf fun id => id = page.id))

/-! ### The site's frame -/

/-- Everything but who changed the row. -/
structure PublicSiteSettings where
  form : FormColumn → FieldValue
  licence : LicenceColumns

def toPublicSiteSettings (settings : Settings) : PublicSiteSettings :=
  ⟨settings.form, settings.licence⟩

structure PublicNavItem where
  slug : String
  labelAr : String
  labelEn : Option String
  deriving DecidableEq, Repr

/-- `NAV_SLUGS` -/
def navSlugs : List String :=
  ["home", "about", "board", "work", "news", "testimonials", "partners", "governance", "contact"]

structure PublicContact where
  phone : FieldValue
  email : FieldValue
  addressAr : FieldValue
  addressEn : FieldValue

structure PublicSite where
  settings : Option PublicSiteSettings
  nav : List PublicNavItem
  contact : PublicContact

/-- The slugs are compared as they are here, and no two pages have one slug. -/
def navOf (pages : List Page) : List PublicNavItem :=
  navSlugs.filterMap fun slug =>
    (pages.find? fun p => p.slug = slug).map fun p => ⟨p.slug, p.titleAr, p.titleEn⟩

/-- `SiteController.get` -/
def getSite (r : Rows) : PublicSite where
  settings := r.settings.map toPublicSiteSettings
  nav := navOf r.publishedPages
  contact := match r.settings with
    | some settings => ⟨settings.form .phone, settings.form .email, settings.form .addressAr,
        settings.form .addressEn⟩
    | none => ⟨.null, .null, .null, .null⟩

/-! ### Work areas -/

structure PublicWorkAreaItem where
  id : ℕ
  textAr : String
  textEn : Option String
  sortOrder : ℤ
  deriving DecidableEq, Repr

def toPublicWorkAreaItem (item : WorkAreaItem) : PublicWorkAreaItem :=
  ⟨item.id, item.textAr, item.textEn, item.sortOrder⟩

structure PublicWorkArea where
  id : ℕ
  icon : Option String
  titleAr : String
  titleEn : Option String
  sortOrder : ℤ
  items : List PublicWorkAreaItem
  deriving DecidableEq, Repr

def toPublicWorkArea (area : WorkArea) (items : List WorkAreaItem) : PublicWorkArea where
  id := area.id
  icon := area.icon
  titleAr := area.titleAr
  titleEn := area.titleEn
  sortOrder := area.sortOrder
  items := items.map toPublicWorkAreaItem

/-- `WorkAreasController.list`, and the work areas of the home page. -/
def workAreasList (r : Rows) : List PublicWorkArea :=
  let areas := bySortOrder WorkArea.sortOrder (r.workAreas.filter (·.isPublished))
  let items := bySortOrder WorkAreaItem.sortOrder (r.workAreaItems.filter fun item =>
    (areas.any fun area => area.id = item.workAreaId) && item.isPublished)
  areas.map fun area => toPublicWorkArea area (items.filter fun item => item.workAreaId = area.id)

/-! ### The board -/

structure PublicBoardMember where
  id : ℕ
  nameAr : String
  nameEn : Option String
  roleAr : String
  roleEn : Option String
  grp : BoardMemberGroup
  isLead : Bool
  bioAr : Option String
  bioEn : Option String
  photoAsset : Option PublicMediaAsset
  sortOrder : ℤ

def toPublicBoardMember (m : WithAsset BoardMember) : PublicBoardMember where
  id := m.row.id
  nameAr := m.row.nameAr
  nameEn := m.row.nameEn
  roleAr := m.row.roleAr
  roleEn := m.row.roleEn
  grp := m.row.grp
  isLead := m.row.isLead
  bioAr := m.row.bioAr
  bioEn := m.row.bioEn
  photoAsset := m.asset
  sortOrder := m.row.sortOrder

def boardMemberGroups : List BoardMemberGroup := [.board, .executive]

/-- `BoardController.list` -/
def boardList (r : Rows) : List (BoardMemberGroup × List PublicBoardMember) :=
  let members := bySortOrder (·.row.sortOrder) (r.boardMembers.filter (·.row.isPublished))
  boardMemberGroups.map fun grp =>
    (grp, (members.filter fun m => m.row.grp = grp).map toPublicBoardMember)

/-! ### Testimonials -/

structure PublicTestimonial where
  id : ℕ
  quoteAr : String
  quoteEn : Option String
  authorName : String
  authorDescAr : Option String
  authorDescEn : Option String
  isFeatured : Bool
  sortOrder : ℤ
  deriving DecidableEq, Repr

def toPublicTestimonial (t : Testimonial) : PublicTestimonial where
  id := t.id
  quoteAr := t.quoteAr
  quoteEn := t.quoteEn
  authorName := t.authorName
  authorDescAr := t.authorDescAr
  authorDescEn := t.authorDescEn
  isFeatured := t.isFeatured
  sortOrder := t.sortOrder

structure PublicTestimonials where
  featured : List PublicTestimonial
  list : List PublicTestimonial
  -- nothing of a theme is kept from the public
  themes : List TestimonialTheme

def Rows.publishedTestimonials (r : Rows) : List Testimonial :=
  r.testimonials.filter fun t => t.status = .published

/-- `TestimonialsController.list` -/
def testimonialsList (r : Rows) : PublicTestimonials :=
  let published := bySortOrder Testimonial.sortOrder r.publishedTestimonials
  { featured := (published.filter (·.isFeatured)).map toPublicTestimonial
    list := published.map toPublicTestimonial
    themes := bySortOrder TestimonialTheme.sortOrder r.testimonialThemes }

/-! ### Documents -/

structure PublicDocCategory where
  id : ℕ
  slug : String
  nameAr : String
  nameEn : Option String
  sectionGroup : DocSectionGroup
  deriving DecidableEq, Repr

def toPublicDocCategory (category : DocCategory) : PublicDocCategory where
  id := category.id
  slug := category.slug
  nameAr := category.nameAr
  nameEn := category.nameEn
  sectionGroup := category.sectionGroup

structure PublicDocument where
  id : ℕ
  titleAr : String
  titleEn : Option String
  metaAr : Option String
  metaEn : Option String
  docDate : Option String
  asset : Option PublicMediaAsset
  sortOrder : ℤ

def toPublicDocument (doc : WithAsset SafeerDocument) : PublicDocument where
  id := doc.row.id
  titleAr := doc.row.titleAr
  titleEn := doc.row.titleEn
  metaAr := doc.row.metaAr
  metaEn := doc.row.metaEn
  docDate := doc.row.docDate
  asset := doc.asset
  sortOrder := doc.row.sortOrder

structure PublicDocumentGroup where
  category : PublicDocCategory
  documents : List PublicDocument

/-- A governance section and the number of its published documents. -/
structure PublicDocSection extends PublicDocCategory where
  count : ℕ
  deriving DecidableEq, Repr

def Rows.publishedDocCategories (r : Rows) : List DocCategory :=
  bySortOrderId DocCategory.sortOrder DocCategory.id (r.docCategories.filter (·.isPublished))

/-- The published documents of the categories that meet `p`. -/
def Rows.documentsOf (r : Rows) (p : ℕ → Bool) : List (WithAsset SafeerDocument) :=
  bySortOrderId (·.row.sortOrder) (·.row.id)
    (r.documents.filter fun d => p d.row.categoryId && d.row.isPublished)

/-- `DocumentsController.list` -/
def documentsList (r : Rows) : List PublicDocumentGroup :=
  let categories := r.publishedDocCategories
  let documents := r.documentsOf fun id => categories.any fun category => category.id = id
  categories.map fun category =>
    ⟨toPublicDocCategory category,
      (documents.filter fun d => d.row.categoryId = category.id).map toPublicDocument⟩

/-- `DocumentsController.sections` -/
def documentSections (r : Rows) : List PublicDocSection :=
  (r.publishedDocCategories.filter fun category => category.sectionGroup = .governance).map
    fun category => { toPublicDocCategory category with
      count := (r.documents.filter fun d =>
        d.row.isPublished && d.row.categoryId = category.id).length }

/-- `DocumentsController.section` -/
def documentSection (env : PublicEnv) (r : Rows) (slug : String) :
    Except Problem PublicDocumentGroup :=
  match (r.docCategories.filter (·.isPublished)).find? fun c => env.coll.eq c.slug slug with
  | none => .error Crud.notFound
  | some category => .ok ⟨toPublicDocCategory category,
      (r.documentsOf fun id => id = category.id).map toPublicDocument⟩

/-! ### Licences -/

structure PublicLicence where
  id : ℕ
  titleAr : String
  titleEn : Option String
  number : Option String
  issuerAr : Option String
  issuerEn : Option String
  issuedOn : Option String
  expiresOn : Option String
  isPrimary : Bool
  asset : Option PublicMediaAsset

def toPublicLicence (l : WithAsset Licence) : PublicLicence where
  id := l.row.id
  titleAr := l.row.titleAr
  titleEn := l.row.titleEn
  number := l.row.number
  issuerAr := l.row.issuerAr
  issuerEn := l.row.issuerEn
  issuedOn := l.row.issuedOn
  expiresOn := l.row.expiresOn
  isPrimary := l.row.isPrimary
  asset := l.asset

/-- `LicencesController.list`: the primary first, then in the editor's order. -/
def licencesList (r : Rows) : List PublicLicence :=
  ((r.licences.filter (·.row.isPublished)).mergeSort fun a b =>
    (a.row.isPrimary && !b.row.isPrimary) || (a.row.isPrimary = b.row.isPrimary &&
      (a.row.sortOrder < b.row.sortOrder ||
        (a.row.sortOrder = b.row.sortOrder && a.row.id ≤ b.row.id)))).map toPublicLicence

/-! ### The organisation chart -/

def toChartMember (m : BoardMember) : ChartMember where
  id := m.id
  nameAr := m.nameAr
  orgPositionId := m.orgPositionId
  nameEn := m.nameEn

/-- `OrgChartController.chart` -/
def orgChart (r : Rows) : List PublicOrgNode :=
  buildOrgForest
    (bySortOrderId OrgChart.OrgPosition.sortOrder OrgChart.OrgPosition.id
      (r.orgPositions.filter (·.isPublished)))
    ((bySortOrderId BoardMember.sortOrder BoardMember.id
      ((r.boardMembers.map WithAsset.row).filter fun m =>
        m.isPublished && m.orgPositionId.isSome)).map toChartMember)

/-! ### The sitemap -/

structure SitemapEntry where
  slug : String
  updatedAt : ℕ
  deriving DecidableEq, Repr

/-- The slugs that have a page, and when their rows last changed. -/
structure SitemapIndex where
  pages : List SitemapEntry
  posts : List SitemapEntry
  categories : List SitemapEntry
  deriving DecidableEq, Repr

/-- `SitemapController.get`; every category is public. -/
def sitemapIndex (r : Rows) : SitemapIndex where
  pages := r.publishedPages.map fun p => ⟨p.slug, p.updatedAt⟩
  posts := (r.posts.filter (·.isPublished)).map fun p => ⟨p.slug, p.updatedAt⟩
  categories := r.newsCategories.map fun c => ⟨c.slug, c.updatedAt⟩

/-! ### The home page -/

/-- Everything a visitor may see of a stat. -/
structure PublicStat where
  id : ℕ
  value : Option String
  labelAr : String
  labelEn : Option String
  subAr : Option String
  subEn : Option String
  sortOrder : ℤ
  deriving DecidableEq, Repr

def toPublicStat (stat : Stat) : PublicStat where
  id := stat.id
  value := stat.value
  labelAr := stat.labelAr
  labelEn := stat.labelEn
  subAr := stat.subAr
  subEn := stat.subEn
  sortOrder := stat.sortOrder

structure PublicHome where
  settings : Option PublicSiteSettings
  sections : List PublicPageSection
  goals : List PublicAboutItem
  carePillars : List PublicAboutItem
  stats : List PublicStat
  workAreas : List PublicWorkArea
  news : List (PublicPostSummary PublicMediaAsset)
  testimonials : List PublicTestimonial
  partners : List (PublicPartner PublicMediaAsset)

def homePageSlug : String := "home"

def newsLatest : ℕ := 3

def testimonialsLatest : ℕ := 2

/-- The tables as the news routes read them. -/
def Rows.newsDatabase (r : Rows) : NewsDatabase PublicMediaAsset where
  categories := r.newsCategories.map (·.toNewsCategory)
  posts := r.posts.map (·.toDetailPost)

lemma find_newsPosts (r : Rows) (p : Public.DetailPost PublicMediaAsset → Bool) :
    r.newsDatabase.posts.find? p
      = (r.posts.find? fun q => p q.toDetailPost).map (·.toDetailPost) := List.find?_map

/-- The tables as the other lists with parameters read them. -/
def Rows.listDatabase (r : Rows) : Public.Database PublicMediaAsset where
  aboutItems := r.aboutItems
  redirects := r.redirects
  partners := r.partners

def Rows.aboutItemsOf (r : Rows) (kind : AboutItemKind) : List AboutItem :=
  bySortOrder AboutItem.sortOrder
    (r.aboutItems.filter fun item => item.kind = kind && item.isPublished)

/-- `HomeService.getHome` -/
def getHome (env : PublicEnv) (r : Rows) : PublicHome where
  settings := r.settings.map toPublicSiteSettings
  sections := (r.sectionsOf fun id => r.pages.any fun p =>
    p.id = id && env.coll.eq p.slug homePageSlug && p.isPublished).map
      (toPublicPageSection env.render)
  goals := (r.aboutItemsOf .goal).map (toPublicAboutItem env.render)
  carePillars := (r.aboutItemsOf .carePillar).map (toPublicAboutItem env.render)
  stats := (bySortOrder Stat.sortOrder (r.stats.filter (·.isPublished))).map toPublicStat
  workAreas := workAreasList r
  news := (((r.posts.filter (·.isPublished)).mergeSort fun a b =>
    a.toPost.datedNotAfter b.toPost).take newsLatest).map fun p =>
      toPublicPostSummary r.newsDatabase.toDatabase p.toPost
  testimonials := ((r.publishedTestimonials.mergeSort fun a b =>
    (a.isFeatured && !b.isFeatured) ||
      (a.isFeatured = b.isFeatured && a.sortOrder ≤ b.sortOrder)).take
        testimonialsLatest).map toPublicTestimonial
  partners := (bySortOrder Public.Partner.sortOrder (r.partners.filter (·.isPublished))).map
    toPublicPartner

/-! ### Routes -/

/-- The cached public GET routes. -/
inductive Route where
  | home
  | site
  | page (slug : String)
  | workAreas
  | board
  | news (r : NewsRoute)
  | newsCategories
  | testimonials
  | partners
  | documents
  | documentSections
  | documentSection (slug : String)
  | licences
  | orgChart
  | aboutItems
  | sitemapIndex
  | redirectsResolve
  deriving DecidableEq, Repr

/-- `@CacheTags(...)` -/
def Route.tags : Route → List Cache.Tag
  | .home => ["home"]
  | .site => ["site_settings", "pages"]
  | .page _ => ["pages"]
  | .workAreas => ["work_areas"]
  | .board => ["board_members"]
  | .news _ | .newsCategories => ["news"]
  | .testimonials => ["testimonials"]
  | .partners => ["partners"]
  | .documents | .documentSections | .documentSection _ => ["documents"]
  | .licences => ["licences"]
  | .orgChart => ["org_chart"]
  | .aboutItems => ["about_items"]
  | .sitemapIndex => ["pages", "news"]
  | .redirectsResolve => ["redirects"]

/-- `@CacheKeyParams(...)` -/
def Route.keyParams : Route → List String
  | .news r => r.keyParams
  | .partners => Public.Route.keyParams .partners
  | .aboutItems => Public.Route.keyParams .aboutItems
  | .redirectsResolve => Public.Route.keyParams .redirectsResolve
  | _ => []

/-- `@PreviewAware()` -/
def Route.previewAware : Route → Bool
  | .news r => r.previewAware
  | _ => false

inductive Body where
  | home (home : PublicHome)
  | site (site : PublicSite)
  | page (page : PublicPage)
  | workAreas (list : List PublicWorkArea)
  | board (groups : List (BoardMemberGroup × List PublicBoardMember))
  | news (body : NewsBody PublicMediaAsset)
  | newsCategories (list : List PublicNewsCategory)
  | testimonials (lists : PublicTestimonials)
  | partners (list : List (PublicPartner PublicMediaAsset))
  | documents (groups : List PublicDocumentGroup)
  | documentSections (sections : List PublicDocSection)
  | documentSection (group : PublicDocumentGroup)
  | licences (list : List PublicLicence)
  | orgChart (forest : List PublicOrgNode)
  | aboutItems (items : GroupedItems)
  | sitemapIndex (index : SitemapIndex)
  | resolved (redirect : Resolved)

/-- A route's handler; `now` is the time in milliseconds. -/
def Route.handle (env : PublicEnv) (r : Rows) (query : Query) (now : ℕ) : Route → Cache.Handled Body
  | .home => { outcome := .ok (.home (getHome env r)) }
  | .site => { outcome := .ok (.site (getSite r)) }
  | .page slug => { outcome := (pageBySlug env r slug).map .page }
  | .workAreas => { outcome := .ok (.workAreas (workAreasList r)) }
  | .board => { outcome := .ok (.board (boardList r)) }
  | .news route =>
    let handled := route.handle env r.newsDatabase query now
    { outcome := handled.outcome.map .news
      skipCacheWrite := handled.skipCacheWrite
      previewVerified := handled.previewVerified }
  | .newsCategories => { outcome := .ok (.newsCategories
      ((bySortOrder (·.sortOrder) r.newsCategories).map fun c =>
        toPublicNewsCategory c.toNewsCategory)) }
  | .testimonials => { outcome := .ok (.testimonials (testimonialsList r)) }
  | .partners => { outcome := (Public.partnersList r.listDatabase query).map .partners }
  | .documents => { outcome := .ok (.documents (documentsList r)) }
  | .documentSections => { outcome := .ok (.documentSections (Site.documentSections r)) }
  | .documentSection slug => { outcome := (Site.documentSection env r slug).map .documentSection }
  | .licences => { outcome := .ok (.licences (licencesList r)) }
  | .orgChart => { outcome := .ok (.orgChart (Site.orgChart r)) }
  | .aboutItems =>
    { outcome := (Public.aboutItemsList env.render r.listDatabase query).map .aboutItems }
  | .sitemapIndex => { outcome := .ok (.sitemapIndex (Site.sitemapIndex r)) }
  | .redirectsResolve => { outcome := (Public.resolve env.coll r.listDatabase query).map .resolved }

/-- Texts are compared as they are, and there are no previews. -/
def bareEnv : PublicEnv where
  coll := .binary
  render := id
  preview := { number := fun _ => none, print := fun _ => "", hmac := id }

/-! ### What a route reads -/

def Route.reads : Route → List TableName
  | .home => [.settings, .pages, .pageSections, .aboutItems, .stats, .workAreas, .workAreaItems,
      .posts, .newsCategories, .testimonials, .partners]
  | .site => [.settings, .pages]
  | .page _ => [.pages, .pageSections]
  | .workAreas => [.workAreas, .workAreaItems]
  | .board => [.boardPhotos]
  | .news _ => [.posts, .newsCategories]
  | .newsCategories => [.newsCategories]
  | .testimonials => [.testimonials, .testimonialThemes]
  | .partners => [.partners]
  | .documents | .documentSections | .documentSection _ => [.docCategories, .documents]
  | .licences => [.licences]
  | .orgChart => [.orgPositions, .boardMembers]
  | .aboutItems => [.aboutItems]
  | .sitemapIndex => [.pages, .posts, .newsCategories]
  | .redirectsResolve => [.redirects]

/-- The tables a route reads have the same rows. -/
def Rows.SameFor (r r' : Rows) (route : Route) : Prop := ∀ name ∈ route.reads, r.Same r' name

lemma Rows.SameFor.refl (r : Rows) (route : Route) : r.SameFor r route :=
  fun name _ => .refl r name

lemma Rows.SameFor.symm {r r' : Rows} {route : Route} (h : r.SameFor r' route) :
    r'.SameFor r route := fun name hname => (h name hname).symm

lemma Rows.SameFor.trans {r r' r'' : Rows} {route : Route} (h : r.SameFor r' route)
    (h' : r'.SameFor r'' route) : r.SameFor r'' route :=
  fun name hname => (h name hname).trans (h' name hname)

/-- A handler depends on the tables its route reads only. -/
lemma Route.handle_congr {env : PublicEnv} {r r' : Rows} {route : Route} (h : r.SameFor r' route)
    (query : Query) (now : ℕ) :
    route.handle env r query now = route.handle env r' query now := by
  simp only [Rows.SameFor] at h
  cases route <;>
    simp only [reads, List.forall_mem_cons, List.not_mem_nil, false_imp_iff, implies_true,
      and_true, Rows.Same] at h
  case home =>
    obtain ⟨h₁, h₂, h₃, h₄, h₅, h₆, h₇, h₈, h₉, h₁₀, h₁₁⟩ := h
    simp only [handle, getHome, workAreasList, Rows.sectionsOf, Rows.aboutItemsOf,
      Rows.publishedTestimonials, Rows.newsDatabase, h₁, h₂, h₃, h₄, h₅, h₆, h₇, h₈, h₉, h₁₀, h₁₁]
  case site => simp only [handle, getSite, Rows.publishedPages, h]
  case page slug => simp only [handle, pageBySlug, Rows.publishedPages, Rows.sectionsOf, h]
  case workAreas => simp only [handle, workAreasList, h]
  case board => simp only [handle, boardList, h]
  case news route => simp only [handle, Rows.newsDatabase, h]
  case newsCategories => simp only [handle, h]
  case testimonials => simp only [handle, testimonialsList, Rows.publishedTestimonials, h]
  case partners => simp only [handle, Public.partnersList, Rows.listDatabase, h]
  case documents => simp only [handle, documentsList, Rows.publishedDocCategories,
    Rows.documentsOf, h]
  case documentSections => simp only [handle, Site.documentSections, Rows.publishedDocCategories, h]
  case documentSection slug => simp only [handle, Site.documentSection, Rows.documentsOf, h]
  case licences => simp only [handle, licencesList, h]
  case orgChart => simp only [handle, Site.orgChart, h]
  case aboutItems => simp only [handle, Public.aboutItemsList, Rows.listDatabase, h]
  case sitemapIndex => simp only [handle, Site.sitemapIndex, Rows.publishedPages, h]
  case redirectsResolve => simp only [handle, Public.resolve, Rows.listDatabase, h]

end SafeerApi.Site
