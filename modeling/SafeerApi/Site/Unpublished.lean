import SafeerApi.Lib.Paging
import SafeerApi.Public.Drafts
import SafeerApi.Site.Routes

/-!
# What is not published is not seen

No public route tells anything of a row that is not published, nor of a published row below one that
is not: two databases with the same published content get the same response to every request that
holds no token for a draft.
-/

namespace SafeerApi.Site

open Common
open Lib (TotalPreorder)
open OrgChart (OrgPosition chartPositions leadsToRoot)
open Public (Collation PublicEnv)
open Public.Drafts (filter_published publicTables)

/-- A unique index compares by the collation: no two rows match one text. -/
def SlugsApart {R : Type*} (coll : Collation) (slug : R → String) (rows : List R) : Prop :=
  ∀ a ∈ rows, ∀ b ∈ rows, ∀ s, coll.eq (slug a) s = true → coll.eq (slug b) s = true → a = b

/-- The one row that matches a text is the one that is found. -/
lemma find_of_apart {R : Type*} {coll : Collation} {f : R → String} {rows : List R} {s : String}
    {a : R} (h : SlugsApart coll f rows) (ha : a ∈ rows) (hs : coll.eq (f a) s = true) :
    (rows.find? fun b => coll.eq (f b) s) = some a := by
  cases hfind : rows.find? fun b => coll.eq (f b) s with
  | none => exact absurd hs (List.find?_eq_none.mp hfind a ha)
  | some b =>
    have hb := List.mem_of_find?_eq_some hfind
    have hbs : coll.eq (f b) s = true := by simpa using List.find?_some hfind
    rw [h b hb a ha s hbs hs]

/-! ### Published content -/

/-- The tables without the rows that are not published, or that belong to one that is not. A position
is kept with the positions above it, if the chart's levels hold them all. -/
def Rows.published (r : Rows) : Rows where
  pages := r.publishedPages
  pageSections := r.pageSections.filter fun s =>
    s.row.isPublished && r.publishedPages.any fun p => p.id = s.row.pageId
  boardMembers := r.boardMembers.filter (·.row.isPublished)
  orgPositions := chartPositions (r.orgPositions.filter (·.isPublished))
  newsCategories := r.newsCategories
  posts := r.posts.filter (·.isPublished)
  redirects := r.redirects
  partners := r.partners.filter (·.isPublished)
  docCategories := r.docCategories.filter (·.isPublished)
  documents := r.documents.filter fun d =>
    d.row.isPublished && (r.docCategories.filter (·.isPublished)).any fun c =>
      c.id = d.row.categoryId
  licences := r.licences.filter (·.row.isPublished)
  settings := r.settings
  stats := r.stats.filter (·.isPublished)
  aboutItems := r.aboutItems.filter (·.isPublished)
  workAreas := r.workAreas.filter (·.isPublished)
  workAreaItems := r.workAreaItems.filter fun item =>
    item.isPublished && (r.workAreas.filter (·.isPublished)).any fun area =>
      area.id = item.workAreaId
  testimonials := r.publishedTestimonials
  testimonialThemes := r.testimonialThemes

section Published

variable {env : PublicEnv} {r : Rows}

lemma publishedPages_published : r.published.publishedPages = r.publishedPages :=
  filter_published (fun _ h => h) r.pages

/-- The sections of published pages are all there. -/
lemma sectionsOf_published {p : ℕ → Bool}
    (hp : ∀ id, p id = true → (r.publishedPages.any fun page => page.id = id) = true) :
    r.published.sectionsOf p = r.sectionsOf p := by
  simp only [Rows.sectionsOf, Rows.published]
  rw [filter_published]
  intro s hs
  rw [Bool.and_eq_true] at hs ⊢
  exact ⟨hs.2, hp _ hs.1⟩

lemma pageBySlug_published (slug : String) :
    pageBySlug env r.published slug = pageBySlug env r slug := by
  simp only [pageBySlug, publishedPages_published]
  cases hfind : r.publishedPages.find? fun p => env.coll.eq p.slug slug with
  | none => rfl
  | some page =>
    have hpage := List.mem_of_find?_eq_some hfind
    simp only
    rw [sectionsOf_published]
    intro id hid
    exact List.any_eq_true.mpr ⟨page, hpage, by simpa [eq_comm] using hid⟩

lemma getSite_published : getSite r.published = getSite r := by
  simp only [getSite, publishedPages_published]
  rfl

lemma workAreasList_published : workAreasList r.published = workAreasList r := by
  have hareas : r.published.workAreas.filter (·.isPublished) = r.workAreas.filter (·.isPublished) :=
    filter_published (fun _ h => h) r.workAreas
  have hitems : ∀ p : ℕ → Bool, (∀ id, p id = true →
      ((r.workAreas.filter (·.isPublished)).any fun area => area.id = id) = true) →
      (r.published.workAreaItems.filter fun item => p item.workAreaId && item.isPublished)
        = r.workAreaItems.filter fun item => p item.workAreaId && item.isPublished := by
    intro p hp
    apply filter_published
    intro item hitem
    rw [Bool.and_eq_true] at hitem ⊢
    exact ⟨hitem.2, hp _ hitem.1⟩
  simp only [workAreasList, hareas]
  rw [hitems fun id => (bySortOrder WorkArea.sortOrder (r.workAreas.filter (·.isPublished))).any
    fun area => area.id = id]
  intro id hid
  obtain ⟨area, harea, hareaId⟩ := List.any_eq_true.mp hid
  exact List.any_eq_true.mpr ⟨area, mem_bySortOrder.mp harea, hareaId⟩

lemma boardList_published : boardList r.published = boardList r := by
  simp only [boardList, Rows.published]
  rw [filter_published fun _ h => h]

lemma publishedTestimonials_published :
    r.published.publishedTestimonials = r.publishedTestimonials :=
  filter_published (fun _ h => h) r.testimonials

lemma publishedDocCategories_published :
    r.published.publishedDocCategories = r.publishedDocCategories := by
  simp only [Rows.publishedDocCategories, Rows.published]
  rw [filter_published fun _ h => h]

/-- The documents of published categories are all there. -/
lemma documentsOf_published {p : ℕ → Bool} (hp : ∀ id, p id = true →
    ((r.docCategories.filter (·.isPublished)).any fun c => c.id = id) = true) :
    r.published.documentsOf p = r.documentsOf p := by
  simp only [Rows.documentsOf, Rows.published]
  rw [filter_published]
  intro d hd
  rw [Bool.and_eq_true] at hd ⊢
  exact ⟨hd.2, hp _ hd.1⟩

lemma any_of_published {category : DocCategory} (h : category ∈ r.publishedDocCategories) :
    ((r.docCategories.filter (·.isPublished)).any fun c => c.id = category.id) = true :=
  List.any_eq_true.mpr ⟨category, mem_bySortOrderId.mp h, by simp⟩

lemma documentsList_published : documentsList r.published = documentsList r := by
  simp only [documentsList, publishedDocCategories_published]
  rw [documentsOf_published]
  intro id hid
  obtain ⟨category, hcategory, hid⟩ := List.any_eq_true.mp hid
  rw [← of_decide_eq_true hid]
  exact any_of_published hcategory

lemma documentSections_published : documentSections r.published = documentSections r := by
  simp only [documentSections, publishedDocCategories_published]
  apply List.map_congr_left
  intro category hcategory
  have hcount : (r.published.documents.filter fun d =>
      d.row.isPublished && d.row.categoryId = category.id)
        = r.documents.filter fun d => d.row.isPublished && d.row.categoryId = category.id := by
    apply filter_published
    intro d hd
    rw [Bool.and_eq_true] at hd ⊢
    rw [of_decide_eq_true hd.2]
    exact ⟨hd.1, any_of_published (List.mem_of_mem_filter hcategory)⟩
  rw [hcount]

lemma documentSection_published (slug : String) :
    documentSection env r.published slug = documentSection env r slug := by
  have hcategories : r.published.docCategories.filter (·.isPublished)
      = r.docCategories.filter (·.isPublished) := filter_published (fun _ h => h) r.docCategories
  simp only [documentSection, hcategories]
  cases hfind : (r.docCategories.filter (·.isPublished)).find? fun c => env.coll.eq c.slug slug with
  | none => rfl
  | some category =>
    have hcategory := List.mem_of_find?_eq_some hfind
    simp only
    rw [documentsOf_published]
    intro id hid
    exact List.any_eq_true.mpr ⟨category, hcategory, by simpa [eq_comm] using hid⟩

lemma licencesList_published : licencesList r.published = licencesList r := by
  simp only [licencesList, Rows.published]
  rw [filter_published fun _ h => h]

/-- `ORDER BY sort_order ASC, id ASC`, after some rows are left out. -/
lemma filter_bySortOrderId {R : Type*} {sortOrder : R → ℤ} {id : R → ℕ} (p : R → Bool)
    (rows : List R) :
    (bySortOrderId sortOrder id rows).filter p = bySortOrderId sortOrder id (rows.filter p) := by
  have hle : TotalPreorder fun a b : R =>
      (sortOrder a < sortOrder b || (sortOrder a = sortOrder b && id a ≤ id b) : Bool) :=
    ⟨fun a b => by simp only [Bool.or_eq_true, Bool.and_eq_true, decide_eq_true_eq]; omega,
      fun a b c => by simp only [Bool.or_eq_true, Bool.and_eq_true, decide_eq_true_eq]; omega⟩
  exact hle.filter_mergeSort p rows

/-- Which positions the chart holds does not depend on their order. -/
lemma leadsToRoot_bySortOrderId {positions : List OrgPosition} (levels : ℕ) (p : OrgPosition) :
    leadsToRoot (bySortOrderId OrgPosition.sortOrder OrgPosition.id positions) levels p
      = leadsToRoot positions levels p := by
  induction levels generalizing p with
  | zero => rfl
  | succ levels ih =>
    simp only [leadsToRoot, ih]
    congr 1
    funext q
    exact (List.mergeSort_perm _ _).any_eq

lemma orgChart_published : orgChart r.published = orgChart r := by
  have hmembers : (r.published.boardMembers.map WithAsset.row).filter
      (fun m => m.isPublished && m.orgPositionId.isSome)
        = (r.boardMembers.map WithAsset.row).filter
          fun m => m.isPublished && m.orgPositionId.isSome := by
    simp only [Rows.published, List.filter_map]
    rw [filter_published]
    intro m hm
    exact (Bool.and_eq_true_iff.mp hm).1
  have hpositions : bySortOrderId OrgPosition.sortOrder OrgPosition.id
      (r.published.orgPositions.filter (·.isPublished))
        = chartPositions (bySortOrderId OrgPosition.sortOrder OrgPosition.id
          (r.orgPositions.filter (·.isPublished))) := by
    have hall : r.published.orgPositions.filter (·.isPublished) = r.published.orgPositions :=
      List.filter_eq_self.mpr fun p hp =>
        (List.mem_filter.mp (List.mem_of_mem_filter hp)).2
    rw [hall, chartPositions, funext (leadsToRoot_bySortOrderId _), filter_bySortOrderId]
    rfl
  simp only [orgChart, hmembers, hpositions, OrgChart.buildOrgForest_chartPositions]

lemma sitemapIndex_published : sitemapIndex r.published = sitemapIndex r := by
  simp only [sitemapIndex, publishedPages_published]
  simp only [Rows.published]
  rw [filter_published fun _ h => h]

lemma newsDatabase_published : r.published.newsDatabase = publicTables r.newsDatabase := by
  simp only [Rows.newsDatabase, Rows.published, publicTables, List.filter_map]
  rfl

lemma getHome_published : getHome env r.published = getHome env r := by
  have hsections : (r.published.sectionsOf fun id => r.published.pages.any fun p =>
      p.id = id && env.coll.eq p.slug homePageSlug && p.isPublished)
        = r.sectionsOf fun id => r.pages.any fun p =>
          p.id = id && env.coll.eq p.slug homePageSlug && p.isPublished := by
    have hpages : ∀ id, (r.published.pages.any fun p =>
        p.id = id && env.coll.eq p.slug homePageSlug && p.isPublished)
          = r.pages.any fun p =>
            p.id = id && env.coll.eq p.slug homePageSlug && p.isPublished := by
      intro id
      simp only [Rows.published, Rows.publishedPages, List.any_filter]
      congr 1
      funext p
      cases p.isPublished <;> simp
    simp only [hpages]
    apply sectionsOf_published
    intro id hid
    obtain ⟨page, hpage, hid⟩ := List.any_eq_true.mp hid
    simp only [Bool.and_eq_true] at hid
    exact List.any_eq_true.mpr ⟨page, List.mem_filter.mpr ⟨hpage, hid.2⟩, hid.1.1⟩
  have hitems : ∀ kind, r.published.aboutItemsOf kind = r.aboutItemsOf kind := by
    intro kind
    simp only [Rows.aboutItemsOf, Rows.published]
    rw [filter_published]
    intro item hitem
    exact (Bool.and_eq_true_iff.mp hitem).2
  have hposts : r.published.posts.filter (·.isPublished) = r.posts.filter (·.isPublished) :=
    filter_published (fun _ h => h) r.posts
  have hstats : r.published.stats.filter (·.isPublished) = r.stats.filter (·.isPublished) :=
    filter_published (fun _ h => h) r.stats
  have hpartners :
      r.published.partners.filter (·.isPublished) = r.partners.filter (·.isPublished) :=
    filter_published (fun _ h => h) r.partners
  simp only [getHome, hsections, hitems, hposts, hstats, hpartners, workAreasList_published,
    publishedTestimonials_published]
  rfl

/-- A post that is not published is answered like one that is not there. -/
lemma bySlug_published (h : SlugsApart env.coll (·.slug) r.posts) {query : Query} {now : ℕ}
    (htoken : ∀ p ∈ r.posts, p.isPublished = false → Public.verifies env now query p.id = false)
    (slug : String) :
    (Public.bySlug env r.published.newsDatabase slug query now).outcome
      = (Public.bySlug env r.newsDatabase slug query now).outcome := by
  have hdetail : ∀ post fileQuery,
      Public.toPublicPostDetail env r.published.newsDatabase post fileQuery
        = Public.toPublicPostDetail env r.newsDatabase post fileQuery := by
    rw [newsDatabase_published]
    exact Public.Drafts.toPublicPostDetail_publicTables r.newsDatabase
  simp only [Public.bySlug, hdetail, find_newsPosts]
  cases hfind : r.posts.find? fun p => env.coll.eq p.slug slug with
  | none =>
    have hnone : r.published.posts.find? (fun p => env.coll.eq p.slug slug) = none := by
      rw [List.find?_eq_none] at hfind ⊢
      exact fun p hp => hfind p (List.mem_of_mem_filter hp)
    rw [hnone]
  | some post =>
    have hpost := List.mem_of_find?_eq_some hfind
    have hslug : env.coll.eq post.slug slug = true := by simpa using List.find?_some hfind
    cases hpublished : post.isPublished with
    | true =>
      have hfound : r.published.posts.find? (fun p => env.coll.eq p.slug slug) = some post := by
        apply find_of_apart (f := fun p : JoinedPost => p.slug)
        · exact fun a ha b hb =>
            h a (List.mem_of_mem_filter ha) b (List.mem_of_mem_filter hb)
        · exact List.mem_filter.mpr ⟨hpost, hpublished⟩
        · exact hslug
      rw [hfound]
    | false =>
      have hnone : r.published.posts.find? (fun p => env.coll.eq p.slug slug) = none := by
        rw [List.find?_eq_none]
        intro p hp hp'
        obtain ⟨hmem, hpub⟩ := List.mem_filter.mp hp
        rw [h p hmem post hpost slug hp' hslug, hpublished] at hpub
        cases hpub
      rw [hnone]
      simp [hpublished, htoken post hpost hpublished]

/-- A response shows published content only. -/
lemma handle_published (h : SlugsApart env.coll (·.slug) r.posts) {query : Query} {now : ℕ}
    (htoken : ∀ p ∈ r.posts, p.isPublished = false → Public.verifies env now query p.id = false)
    (route : Route) :
    (route.handle env r.published query now).outcome = (route.handle env r query now).outcome := by
  cases route
  case home => simp only [Route.handle, getHome_published]
  case site => simp only [Route.handle, getSite_published]
  case page slug => simp only [Route.handle, pageBySlug_published]
  case workAreas => simp only [Route.handle, workAreasList_published]
  case board => simp only [Route.handle, boardList_published]
  case news route =>
    cases route with
    | list =>
      simp only [Route.handle, Public.NewsRoute.handle, newsDatabase_published,
        Public.Drafts.newsList_publicTables]
    | featured =>
      simp only [Route.handle, Public.NewsRoute.handle, newsDatabase_published,
        Public.Drafts.featured_publicTables]
    | detail slug =>
      simp only [Route.handle, Public.NewsRoute.handle, bySlug_published h htoken]
  case newsCategories => rfl
  case testimonials =>
    simp only [Route.handle, testimonialsList, publishedTestimonials_published]
    rfl
  case partners =>
    have hpartners : ∀ category : Option Public.PartnerCategory,
        (r.published.listDatabase.partners.filter fun p =>
          p.isPublished && category.all (p.category = ·))
            = r.listDatabase.partners.filter fun p =>
              p.isPublished && category.all (p.category = ·) := by
      intro category
      apply filter_published
      exact fun p hp => (Bool.and_eq_true_iff.mp hp).1
    simp only [Route.handle, Public.partnersList, hpartners]
  case documents => simp only [Route.handle, documentsList_published]
  case documentSections => simp only [Route.handle, documentSections_published]
  case documentSection slug => simp only [Route.handle, documentSection_published]
  case licences => simp only [Route.handle, licencesList_published]
  case orgChart => simp only [Route.handle, orgChart_published]
  case aboutItems =>
    have hitems : ∀ kinds : List Public.AboutItemKind,
        (r.published.listDatabase.aboutItems.filter fun row =>
          row.isPublished && row.kind ∈ kinds)
            = r.listDatabase.aboutItems.filter fun row => row.isPublished && row.kind ∈ kinds := by
      intro kinds
      apply filter_published
      exact fun item hitem => (Bool.and_eq_true_iff.mp hitem).1
    simp only [Route.handle, Public.aboutItemsList, hitems]
  case sitemapIndex => simp only [Route.handle, sitemapIndex_published]
  case redirectsResolve => rfl

end Published

/-- Two databases with the same published content get the same response to every request that holds
no token for a draft of either. -/
theorem unpublished_unseen {env : PublicEnv} {r r' : Rows} (hpublic : r.published = r'.published)
    (hslugs : SlugsApart env.coll (·.slug) r.posts)
    (hslugs' : SlugsApart env.coll (·.slug) r'.posts)
    {query : Query} {now : ℕ}
    (htoken : ∀ p ∈ r.posts ++ r'.posts, p.isPublished = false →
      Public.verifies env now query p.id = false) (route : Route) :
    (route.handle env r query now).outcome = (route.handle env r' query now).outcome := by
  rw [← handle_published hslugs fun p hp => htoken p (List.mem_append_left _ hp),
    ← handle_published hslugs' fun p hp => htoken p (List.mem_append_right _ hp), hpublic]

/-- Nothing but one draft. -/
def withDraft (titleAr : String) : Rows :=
  { Tables.empty.rows with
    posts := [{
      id := 1, slug := "d", titleAr := titleAr, titleEn := none, excerptAr := none
      excerptEn := none, categoryId := 1, coverAsset := none, publishedOn := none
      isFeatured := true, isPublished := false, bodyAr := none, bodyEn := none }] }

theorem unpublished_unseen_draft :
    ((Route.news (.detail "d")).handle bareEnv (withDraft "a") (fun _ => none) 0).outcome
      = ((Route.news (.detail "d")).handle bareEnv (withDraft "b") (fun _ => none) 0).outcome := by
  apply unpublished_unseen
  · rfl
  · simp [SlugsApart, withDraft]
  · simp [SlugsApart, withDraft]
  · simp [Public.verifies, readString, asString, truthy]

end SafeerApi.Site
