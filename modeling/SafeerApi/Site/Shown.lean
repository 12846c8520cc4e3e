import SafeerApi.Files.Content
import SafeerApi.Site.Unpublished
import SafeerApi.Site.Writes

/-!
# Files and pages

A file can be read by everyone exactly when some public route shows it, and the sitemap lists
exactly the slugs that have a page.
-/

namespace SafeerApi.Site

open Common Lib
open Licences (Licence)
open Public (NewsBody PublicEnv PublicPartner PublicPostSummary)

/-! ### The assets of a response -/

/-- The posts a response of the news routes tells of. -/
def summaries : NewsBody PublicMediaAsset → List (PublicPostSummary PublicMediaAsset)
  | .list page => page.data
  | .featured post => post.toList
  | .detail post => post.toPublicPostSummary :: post.related

def PublicDocumentGroup.assets (group : PublicDocumentGroup) : List PublicMediaAsset :=
  group.documents.filterMap PublicDocument.asset

/-- The assets a visitor is told of. -/
def Body.assets : Body → List PublicMediaAsset
  | .home h => h.sections.filterMap PublicPageSection.imageAsset ++
      h.news.filterMap PublicPostSummary.coverAsset ++
      h.partners.filterMap PublicPartner.logoAsset
  | .page p => p.sections.filterMap PublicPageSection.imageAsset
  | .board groups => groups.flatMap fun group => group.2.filterMap PublicBoardMember.photoAsset
  | .news body => (summaries body).filterMap PublicPostSummary.coverAsset
  | .partners list => list.filterMap PublicPartner.logoAsset
  | .documents groups => groups.flatMap PublicDocumentGroup.assets
  | .documentSection group => group.assets
  | .licences list => list.filterMap PublicLicence.asset
  | _ => []

/-- The asset of a published row, below published rows only. -/
inductive Rows.PublicAsset (r : Rows) (a : PublicMediaAsset) : Prop where
  | pageSection {s : WithAsset PageSection} {p : Page} (hs : s ∈ r.pageSections)
      (hp : p ∈ r.publishedPages) (hpage : p.id = s.row.pageId) (h : s.row.isPublished = true)
      (ha : s.asset = some a)
  | member {m : WithAsset BoardMember} (hm : m ∈ r.boardMembers) (h : m.row.isPublished = true)
      (ha : m.asset = some a)
  | post {p : JoinedPost} (hp : p ∈ r.posts) (h : p.isPublished = true)
      (ha : p.coverAsset = some a)
  | partner {p : Public.Partner PublicMediaAsset} (hp : p ∈ r.partners) (h : p.isPublished = true)
      (ha : p.logoAsset = some a)
  | document {d : WithAsset SafeerDocument} {c : DocCategory} (hd : d ∈ r.documents)
      (hc : c ∈ r.docCategories) (hcategory : c.id = d.row.categoryId)
      (h : d.row.isPublished = true) (h' : c.isPublished = true) (ha : d.asset = some a)
  | licence {l : WithAsset Licence} (hl : l ∈ r.licences) (h : l.row.isPublished = true)
      (ha : l.asset = some a)

lemma map_eq_ok {ε α β : Type*} {f : α → β} {x : Except ε α} {b : β} (h : x.map f = .ok b) :
    ∃ a, x = .ok a ∧ f a = b := by
  cases x with
  | error e => cases h
  | ok a => exact ⟨a, rfl, Except.ok.inj h⟩

section Shown

variable {env : PublicEnv} {r : Rows} {a : PublicMediaAsset} {query : Query} {now : ℕ}

lemma mem_publishedPages {p : Page} :
    p ∈ r.publishedPages ↔ p ∈ r.pages ∧ p.isPublished = true := List.mem_filter

lemma mem_sectionsOf {p : ℕ → Bool} {s : WithAsset PageSection} :
    s ∈ r.sectionsOf p ↔ s ∈ r.pageSections ∧ p s.row.pageId = true ∧ s.row.isPublished = true := by
  simp [Rows.sectionsOf]

lemma mem_documentsOf {p : ℕ → Bool} {d : WithAsset SafeerDocument} : d ∈ r.documentsOf p ↔
    d ∈ r.documents ∧ p d.row.categoryId = true ∧ d.row.isPublished = true := by
  simp [Rows.documentsOf]

lemma mem_publishedDocCategories {c : DocCategory} :
    c ∈ r.publishedDocCategories ↔ c ∈ r.docCategories ∧ c.isPublished = true := by
  simp [Rows.publishedDocCategories]

/-- What is told of a published post. -/
def Rows.Told (r : Rows) (summary : PublicPostSummary PublicMediaAsset) : Prop :=
  ∃ p ∈ r.posts, p.isPublished = true ∧
    summary = Public.toPublicPostSummary r.newsDatabase.toDatabase p.toPost

lemma told_of_mem {p : Public.DetailPost PublicMediaAsset} (hp : p ∈ r.newsDatabase.posts)
    (h : p.isPublished = true) :
    r.Told (Public.toPublicPostSummary r.newsDatabase.toDatabase p.toPost) := by
  obtain ⟨q, hq, rfl⟩ := List.mem_map.mp hp
  exact ⟨q, hq, h, rfl⟩

lemma publicAsset_told {summary : PublicPostSummary PublicMediaAsset} (h : r.Told summary)
    (ha : summary.coverAsset = some a) : r.PublicAsset a := by
  obtain ⟨p, hp, hpublished, rfl⟩ := h
  exact .post hp hpublished ha

lemma publicAsset_sections {p : ℕ → Bool}
    (hp : ∀ id, p id = true → ∃ page ∈ r.publishedPages, page.id = id)
    (ha : a ∈ ((r.sectionsOf p).map (toPublicPageSection env.render)).filterMap
      PublicPageSection.imageAsset) : r.PublicAsset a := by
  obtain ⟨section', hsection, ha⟩ := List.mem_filterMap.mp ha
  obtain ⟨s, hs, rfl⟩ := List.mem_map.mp hsection
  obtain ⟨hmem, hpage, hpublished⟩ := mem_sectionsOf.mp hs
  obtain ⟨page, hpage, hid⟩ := hp _ hpage
  exact .pageSection hmem hpage hid hpublished ha

lemma publicAsset_documents {documents : List (WithAsset SafeerDocument)}
    (h : ∀ d ∈ documents, d ∈ r.documents ∧ d.row.isPublished = true ∧
      ∃ c ∈ r.docCategories, c.id = d.row.categoryId ∧ c.isPublished = true)
    (ha : a ∈ (documents.map toPublicDocument).filterMap PublicDocument.asset) :
    r.PublicAsset a := by
  obtain ⟨doc, hdoc, ha⟩ := List.mem_filterMap.mp ha
  obtain ⟨d, hd, rfl⟩ := List.mem_map.mp hdoc
  obtain ⟨hmem, hpublished, c, hc, hcategory, hcpublished⟩ := h d hd
  exact .document hmem hc hcategory hpublished hcpublished ha

lemma publicAsset_partners {p : Public.Partner PublicMediaAsset → Bool}
    {le : Public.Partner PublicMediaAsset → Public.Partner PublicMediaAsset → Bool}
    (hp : ∀ partner, p partner = true → partner.isPublished = true)
    (ha : a ∈ (((r.partners.filter p).mergeSort le).map Public.toPublicPartner).filterMap
      PublicPartner.logoAsset) : r.PublicAsset a := by
  obtain ⟨partner, hpartner, ha⟩ := List.mem_filterMap.mp ha
  obtain ⟨q, hq, rfl⟩ := List.mem_map.mp hpartner
  obtain ⟨hmem, hfilter⟩ := List.mem_filter.mp (List.mem_mergeSort.mp hq)
  exact .partner hmem (hp q hfilter) ha

lemma exists_page_of_home {id : ℕ} (h : (r.pages.any fun p =>
    p.id = id && env.coll.eq p.slug homePageSlug && p.isPublished) = true) :
    ∃ page ∈ r.publishedPages, page.id = id := by
  obtain ⟨page, hpage, h⟩ := List.any_eq_true.mp h
  simp only [Bool.and_eq_true] at h
  exact ⟨page, mem_publishedPages.mpr ⟨hpage, h.2⟩, of_decide_eq_true h.1.1⟩

/-- Without a token a post that is not published is not found. -/
lemma bySlug_ok {slug : String} {body : NewsBody PublicMediaAsset}
    (hquery : query "preview" = none)
    (h : (Public.bySlug env r.newsDatabase slug query now).outcome = .ok body) :
    ∃ post, r.posts.find? (fun p => env.coll.eq p.slug slug) = some post ∧ post.isPublished = true ∧
      body = .detail (Public.toPublicPostDetail env r.newsDatabase post.toDetailPost none) := by
  have hverifies : ∀ id, Public.verifies env now query id = false := by
    simp [Public.verifies, readString, hquery, asString, truthy]
  simp only [Public.bySlug, find_newsPosts] at h
  split at h
  · cases h
  · next found hfound =>
    obtain ⟨post, hpost, rfl⟩ := Option.map_eq_some_iff.mp hfound
    cases hpublished : post.isPublished with
    | true =>
      simp only [hpublished, if_true] at h
      cases h
      exact ⟨post, hpost, hpublished, rfl⟩
    | false => simp [hpublished, hverifies] at h

lemma told_of_news {route : Public.NewsRoute} {body : NewsBody PublicMediaAsset}
    {summary : PublicPostSummary PublicMediaAsset} (hquery : query "preview" = none)
    (h : (route.handle env r.newsDatabase query now).outcome = .ok body)
    (hsummary : summary ∈ summaries body) : r.Told summary := by
  cases route with
  | list =>
    simp only [Public.NewsRoute.handle, Public.newsList] at h
    split at h
    · cases h
    · split_ifs at h
      · cases h
        simp [summaries] at hsummary
      · cases h
        obtain ⟨p, hp, rfl⟩ := List.mem_map.mp hsummary
        have hrow := List.mem_of_mem_drop (List.mem_of_mem_take hp)
        obtain ⟨hmem, hfilter⟩ := List.mem_filter.mp (List.mem_mergeSort.mp hrow)
        obtain ⟨q, hq, rfl⟩ := List.mem_map.mp hmem
        simp only [Bool.and_eq_true] at hfilter
        exact told_of_mem hq hfilter.1.1
  | featured =>
    cases h
    obtain ⟨post, hpost, rfl⟩ := Option.map_eq_some_iff.mp (Option.mem_toList.mp hsummary)
    obtain ⟨hmem, hfilter⟩ :=
      List.mem_filter.mp (List.mem_mergeSort.mp (List.mem_of_mem_head? hpost))
    exact told_of_mem hmem (Bool.and_eq_true_iff.mp hfilter).1
  | detail slug =>
    obtain ⟨post, hfind, hpublished, rfl⟩ := bySlug_ok hquery h
    have hpost := List.mem_of_find?_eq_some hfind
    rcases List.mem_cons.mp hsummary with rfl | hrelated
    · exact ⟨post, hpost, hpublished, rfl⟩
    · obtain ⟨q, hq, rfl⟩ := List.mem_map.mp hrelated
      have hq := List.mem_mergeSort.mp
        (List.mem_of_mem_take (List.mem_of_mem_filter (List.mem_of_mem_take hq)))
      obtain ⟨hq, hfilter⟩ := List.mem_filter.mp hq
      exact told_of_mem hq (Bool.and_eq_true_iff.mp hfilter).2

lemma told_of_home {summary : PublicPostSummary PublicMediaAsset}
    (h : summary ∈ (getHome env r).news) : r.Told summary := by
  obtain ⟨q, hq, rfl⟩ := List.mem_map.mp h
  obtain ⟨hq, hpublished⟩ := List.mem_filter.mp (List.mem_mergeSort.mp (List.mem_of_mem_take hq))
  exact ⟨q, hq, hpublished, rfl⟩

/-- A response shows assets of published rows only. -/
lemma publicAsset_of_shown {route : Route} {body : Body} (hquery : query "preview" = none)
    (h : (route.handle env r query now).outcome = .ok body) (ha : a ∈ body.assets) :
    r.PublicAsset a := by
  cases route
  case home =>
    cases h
    simp only [Body.assets, List.mem_append] at ha
    rcases ha with (ha | ha) | ha
    · exact publicAsset_sections (fun id hid => exists_page_of_home hid) ha
    · obtain ⟨summary, hsummary, ha⟩ := List.mem_filterMap.mp ha
      exact publicAsset_told (told_of_home hsummary) ha
    · exact publicAsset_partners (fun _ hp => hp) ha
  case page slug =>
    simp only [Route.handle, pageBySlug] at h
    split at h
    · cases h
    · next page hpage =>
      cases h
      refine publicAsset_sections (fun id hid => ?_) ha
      exact ⟨page, List.mem_of_find?_eq_some hpage, (of_decide_eq_true hid).symm⟩
  case board =>
    cases h
    simp only [Body.assets, boardList, List.flatMap_map, List.mem_flatMap] at ha
    obtain ⟨grp, -, ha⟩ := ha
    obtain ⟨member, hmember, ha⟩ := List.mem_filterMap.mp ha
    obtain ⟨m, hm, rfl⟩ := List.mem_map.mp hmember
    obtain ⟨hm, hpublished⟩ := List.mem_filter.mp (mem_bySortOrder.mp (List.mem_of_mem_filter hm))
    exact .member hm hpublished ha
  case news route =>
    simp only [Route.handle] at h
    obtain ⟨newsBody, hnews, rfl⟩ := map_eq_ok h
    obtain ⟨summary, hsummary, ha⟩ := List.mem_filterMap.mp ha
    exact publicAsset_told (told_of_news hquery hnews hsummary) ha
  case partners =>
    obtain ⟨partners, hpartners, rfl⟩ := map_eq_ok h
    simp only [Public.partnersList] at hpartners
    have hpublished : ∀ (category : Option Public.PartnerCategory)
        (p : Public.Partner PublicMediaAsset),
        (p.isPublished && category.all (p.category = ·)) = true → p.isPublished = true :=
      fun _ _ hp => (Bool.and_eq_true_iff.mp hp).1
    split at hpartners
    · cases hpartners
      exact publicAsset_partners (hpublished none) ha
    · split at hpartners
      · cases hpartners
      · next category _ =>
        cases hpartners
        exact publicAsset_partners (hpublished (some category)) ha
  case documents =>
    cases h
    simp only [Body.assets, documentsList, List.flatMap_map, List.mem_flatMap] at ha
    obtain ⟨category, hcategory, ha⟩ := ha
    refine publicAsset_documents (fun d hd => ?_) ha
    obtain ⟨hd, hof⟩ := List.mem_filter.mp hd
    obtain ⟨hd, -, hpublished⟩ := mem_documentsOf.mp hd
    obtain ⟨hmem, hcpublished⟩ := mem_publishedDocCategories.mp hcategory
    exact ⟨hd, hpublished, category, hmem, (of_decide_eq_true hof).symm, hcpublished⟩
  case documentSection slug =>
    obtain ⟨group', hgroup, rfl⟩ := map_eq_ok h
    simp only [documentSection] at hgroup
    split at hgroup
    · cases hgroup
    · next category hcategory =>
      cases hgroup
      obtain ⟨hmem, hcpublished⟩ := List.mem_filter.mp (List.mem_of_find?_eq_some hcategory)
      refine publicAsset_documents (fun d hd => ?_) ha
      obtain ⟨hd, hof, hpublished⟩ := mem_documentsOf.mp hd
      exact ⟨hd, hpublished, category, hmem, (of_decide_eq_true hof).symm, hcpublished⟩
  case licences =>
    cases h
    obtain ⟨licence, hlicence, ha⟩ := List.mem_filterMap.mp ha
    obtain ⟨l, hl, rfl⟩ := List.mem_map.mp hlicence
    obtain ⟨hl, hpublished⟩ := List.mem_filter.mp (List.mem_mergeSort.mp hl)
    exact .licence hl hpublished ha
  case aboutItems =>
    obtain ⟨items, -, rfl⟩ := map_eq_ok h
    simp [Body.assets] at ha
  case redirectsResolve =>
    obtain ⟨redirect, -, rfl⟩ := map_eq_ok h
    simp [Body.assets] at ha
  all_goals
    cases h
    simp [Body.assets] at ha

/-- The asset of a published row is shown by the route of its table. -/
lemma shown_of_publicAsset (hslugs : SlugsApart env.coll (·.slug) r.pages)
    (hslugs' : SlugsApart env.coll (·.slug) r.posts) (query : Query)
    (hquery : ∀ name, query name = none) (h : r.PublicAsset a) : ∃ (route : Route) (body : Body),
      (route.handle env r query now).outcome = .ok body ∧ a ∈ body.assets := by
  cases h with
  | @pageSection s p hs hp hpage h ha =>
    have hfind : r.publishedPages.find? (fun q => env.coll.eq q.slug p.slug) = some p :=
      find_of_apart (fun a ha b hb => hslugs a (List.mem_of_mem_filter ha) b
        (List.mem_of_mem_filter hb)) hp (env.coll.eq_refl _)
    refine ⟨.page p.slug, .page (toPublicPage env.render p (r.sectionsOf fun id => id = p.id)), ?_,
      List.mem_filterMap.mpr ⟨toPublicPageSection env.render s, List.mem_map.mpr ⟨s, ?_, rfl⟩, ha⟩⟩
    · simp only [Route.handle, pageBySlug, hfind]
      rfl
    · exact mem_sectionsOf.mpr ⟨hs, by simp [hpage], h⟩
  | @member m hm h ha =>
    refine ⟨.board, .board (boardList r), rfl, ?_⟩
    simp only [Body.assets, boardList, List.flatMap_map, List.mem_flatMap]
    refine ⟨m.row.grp, by cases m.row.grp <;> simp [boardMemberGroups],
      List.mem_filterMap.mpr ⟨toPublicBoardMember m, List.mem_map.mpr ⟨m, ?_, rfl⟩, ha⟩⟩
    exact List.mem_filter.mpr ⟨mem_bySortOrder.mpr (List.mem_filter.mpr ⟨hm, h⟩), by simp⟩
  | @post p hp h ha =>
    have hfind : r.posts.find? (fun q => env.coll.eq q.slug p.slug) = some p :=
      find_of_apart (f := fun q : JoinedPost => q.slug) hslugs' hp (env.coll.eq_refl _)
    refine ⟨.news (.detail p.slug),
      .news (.detail (Public.toPublicPostDetail env r.newsDatabase p.toDetailPost none)), ?_, ?_⟩
    · simp only [Route.handle, Public.NewsRoute.handle, Public.bySlug, find_newsPosts, hfind,
        Option.map_some, h]
      rfl
    · exact List.mem_filterMap.mpr ⟨_, List.mem_cons_self, ha⟩
  | @partner p hp h ha =>
    have hcategory : readString query "category" = none := by simp [readString, hquery, asString]
    refine ⟨.partners, .partners (((r.partners.filter fun p => p.isPublished && true).mergeSort
      fun a b => a.sortOrder ≤ b.sortOrder).map Public.toPublicPartner), ?_, ?_⟩
    · simp only [Route.handle, Public.partnersList, hcategory]
      rfl
    · refine List.mem_filterMap.mpr ⟨Public.toPublicPartner p, List.mem_map.mpr ⟨p, ?_, rfl⟩, ha⟩
      exact List.mem_mergeSort.mpr (List.mem_filter.mpr ⟨hp, by simpa using h⟩)
  | @document d c hd hc hcategory h h' ha =>
    have hcategories : c ∈ r.publishedDocCategories := mem_publishedDocCategories.mpr ⟨hc, h'⟩
    refine ⟨.documents, .documents (documentsList r), rfl, ?_⟩
    simp only [Body.assets, documentsList, List.flatMap_map, List.mem_flatMap]
    refine ⟨c, hcategories,
      List.mem_filterMap.mpr ⟨toPublicDocument d, List.mem_map.mpr ⟨d, ?_, rfl⟩, ha⟩⟩
    refine List.mem_filter.mpr ⟨mem_documentsOf.mpr ⟨hd, ?_, h⟩, by simp [hcategory]⟩
    exact List.any_eq_true.mpr ⟨c, hcategories, by simp [hcategory]⟩
  | @licence l hl h ha =>
    refine ⟨.licences, .licences (licencesList r), rfl, ?_⟩
    refine List.mem_filterMap.mpr ⟨toPublicLicence l, List.mem_map.mpr ⟨l, ?_, rfl⟩, ha⟩
    exact List.mem_mergeSort.mpr (List.mem_filter.mpr ⟨hl, h⟩)

end Shown

/-! ### What the gate of the files reads -/

def Page.columns (p : Page) : Files.Page := ⟨p.id, p.isPublished⟩

def PageSection.columns (s : PageSection) : Files.PageSection :=
  ⟨s.id, s.pageId, s.imageAssetId, s.isPublished⟩

def BoardMember.columns (m : BoardMember) : Files.BoardMember :=
  ⟨m.id, m.photoAssetId, m.isPublished⟩

def postColumns (p : News.Post) : Files.Post := ⟨p.id, p.coverAssetId, p.isPublished⟩

def Partner.columns (p : Partner) : Files.Partner := ⟨p.id, p.logoAssetId, p.isPublished⟩

def DocCategory.columns (c : DocCategory) : Files.DocCategory := ⟨c.id, c.isPublished⟩

def SafeerDocument.columns (d : SafeerDocument) : Files.Document :=
  ⟨d.id, d.categoryId, d.assetId, d.isPublished⟩

def licenceColumns (l : Licence) : Files.Licence := ⟨l.id, l.assetId, l.isPublished⟩

/-- The columns `MediaService.queryIsPubliclyReadable` selects by. -/
def Tables.content (t : Tables) : Files.Content where
  pages := t.pages.toTable.project Page.columns fun _ => rfl
  pageSections := t.pageSections.toTable.project PageSection.columns fun _ => rfl
  boardMembers := t.boardMembers.project BoardMember.columns fun _ => rfl
  posts := t.posts.toTable.project postColumns fun _ => rfl
  partners := t.partners.project Partner.columns fun _ => rfl
  docCategories := t.docCategories.toTable.project DocCategory.columns fun _ => rfl
  documents := t.documents.project SafeerDocument.columns fun _ => rfl
  licences := t.licences.project licenceColumns fun _ => rfl

lemma id_of_asset {t : Tables} {ref : Option ℕ} {a : PublicMediaAsset} (h : t.asset ref = some a) :
    ref = some a.id := by
  obtain ⟨asset, hasset, rfl⟩ := Option.map_eq_some_iff.mp h
  obtain ⟨id, rfl, hfind⟩ := Option.bind_eq_some_iff.mp hasset
  rw [toPublicAsset, Table.key_of_find hfind]

/-- A reference to an asset there is. -/
lemma Database.asset_of_id (db : Database) {id : ℕ} {ref : Option ℕ} (href : some id = ref)
    (h : id ∈ db.assetIds) : ∃ a, db.asset ref = some a ∧ a.id = id := by
  obtain ⟨asset, hfind⟩ := db.find_asset h
  have hid := Table.key_of_find hfind
  exact ⟨toPublicAsset asset, by simp [← href, Tables.asset, hfind], hid⟩

lemma isPublic_of_publicAsset {t : Tables} {a : PublicMediaAsset} (h : t.rows.PublicAsset a) :
    Files.IsPublic t.content a.id := by
  rw [Files.IsPublic]
  cases h with
  | @pageSection s p hs hp hpage h ha =>
    obtain ⟨s, hrow, rfl⟩ := List.mem_map.mp hs
    obtain ⟨hp, h'⟩ := mem_publishedPages.mp hp
    have hs' : s.columns ∈ t.content.pageSections.rows := List.mem_map_of_mem hrow
    have hp' : p.columns ∈ t.content.pages.rows := List.mem_map_of_mem hp
    rw [← id_of_asset ha]
    exact .pageSection hs' hp' hpage h h'
  | member hm h ha =>
    obtain ⟨m, hrow, rfl⟩ := List.mem_map.mp hm
    have hm' : m.columns ∈ t.content.boardMembers.rows := List.mem_map_of_mem hrow
    rw [← id_of_asset ha]
    exact .boardMember hm' h
  | post hp h ha =>
    obtain ⟨p, hrow, rfl⟩ := List.mem_map.mp hp
    have hp' : postColumns p ∈ t.content.posts.rows := List.mem_map_of_mem hrow
    rw [← id_of_asset ha]
    exact .post hp' h
  | partner hp h ha =>
    obtain ⟨p, hrow, rfl⟩ := List.mem_map.mp hp
    have hp' : p.columns ∈ t.content.partners.rows := List.mem_map_of_mem hrow
    rw [← id_of_asset ha]
    exact .partner hp' h
  | @document d c hd hc hcategory h h' ha =>
    obtain ⟨d, hrow, rfl⟩ := List.mem_map.mp hd
    have hd' : d.columns ∈ t.content.documents.rows := List.mem_map_of_mem hrow
    have hc' : c.columns ∈ t.content.docCategories.rows := List.mem_map_of_mem hc
    rw [← id_of_asset ha]
    exact .document hd' hc' hcategory h h'
  | licence hl h ha =>
    obtain ⟨l, hrow, rfl⟩ := List.mem_map.mp hl
    have hl' : licenceColumns l ∈ t.content.licences.rows := List.mem_map_of_mem hrow
    rw [← id_of_asset ha]
    exact .licence hl' h

lemma mem_assetIds {t : Tables} {id : ℕ} : id ∈ t.assetIds ↔
    (((((∃ s ∈ t.pageSections.rows, s.imageAssetId = some id) ∨
      (∃ m ∈ t.boardMembers.rows, m.photoAssetId = some id)) ∨
      (∃ p ∈ t.posts.rows, p.coverAssetId = some id)) ∨
      (∃ p ∈ t.partners.rows, p.logoAssetId = some id)) ∨
      (∃ d ∈ t.documents.rows, d.assetId = some id)) ∨
      (∃ l ∈ t.licences.rows, l.assetId = some id) := by
  simp only [Tables.assetIds, List.mem_append, List.mem_filterMap]

lemma publicAsset_of_isPublic (db : Database) {id : ℕ} (h : Files.IsPublic db.content id) :
    ∃ a, db.rows.PublicAsset a ∧ a.id = id := by
  rw [Files.IsPublic] at h
  generalize href : some id = ref at h
  cases h with
  | pageSection hs hp hpage h h' =>
    obtain ⟨s, hrow, rfl⟩ := List.mem_map.mp hs
    obtain ⟨p, hpage', rfl⟩ := List.mem_map.mp hp
    obtain ⟨a, ha, hid⟩ := db.asset_of_id href
      (mem_assetIds.mpr (.inl (.inl (.inl (.inl (.inl ⟨s, hrow, href.symm⟩))))))
    have hs' : (⟨s, db.asset s.imageAssetId⟩ : WithAsset PageSection) ∈ db.rows.pageSections :=
      List.mem_map_of_mem hrow
    exact ⟨a, .pageSection hs' (mem_publishedPages.mpr ⟨hpage', h'⟩) hpage h ha, hid⟩
  | boardMember hm h =>
    obtain ⟨m, hrow, rfl⟩ := List.mem_map.mp hm
    obtain ⟨a, ha, hid⟩ := db.asset_of_id href
      (mem_assetIds.mpr (.inl (.inl (.inl (.inl (.inr ⟨m, hrow, href.symm⟩))))))
    have hm' : (⟨m, db.asset m.photoAssetId⟩ : WithAsset BoardMember) ∈ db.rows.boardMembers :=
      List.mem_map_of_mem hrow
    exact ⟨a, .member hm' h ha, hid⟩
  | post hp h =>
    obtain ⟨p, hrow, rfl⟩ := List.mem_map.mp hp
    obtain ⟨a, ha, hid⟩ := db.asset_of_id href
      (mem_assetIds.mpr (.inl (.inl (.inl (.inr ⟨p, hrow, href.symm⟩)))))
    have hp' : db.joinPost p ∈ db.rows.posts := List.mem_map_of_mem hrow
    exact ⟨a, .post hp' h ha, hid⟩
  | partner hp h =>
    obtain ⟨p, hrow, rfl⟩ := List.mem_map.mp hp
    obtain ⟨a, ha, hid⟩ := db.asset_of_id href
      (mem_assetIds.mpr (.inl (.inl (.inr ⟨p, hrow, href.symm⟩))))
    have hp' : db.joinPartner p ∈ db.rows.partners := List.mem_map_of_mem hrow
    exact ⟨a, .partner hp' h ha, hid⟩
  | document hd hc hcategory h h' =>
    obtain ⟨d, hrow, rfl⟩ := List.mem_map.mp hd
    obtain ⟨c, hcat, rfl⟩ := List.mem_map.mp hc
    obtain ⟨a, ha, hid⟩ := db.asset_of_id href
      (mem_assetIds.mpr (.inl (.inr ⟨d, hrow, href.symm⟩)))
    have hd' : (⟨d, db.asset d.assetId⟩ : WithAsset SafeerDocument) ∈ db.rows.documents :=
      List.mem_map_of_mem hrow
    exact ⟨a, .document hd' hcat hcategory h h' ha, hid⟩
  | licence hl h =>
    obtain ⟨l, hrow, rfl⟩ := List.mem_map.mp hl
    obtain ⟨a, ha, hid⟩ := db.asset_of_id href
      (mem_assetIds.mpr (.inr ⟨l, hrow, href.symm⟩))
    have hl' : (⟨l, db.asset l.assetId⟩ : WithAsset Licence) ∈ db.rows.licences :=
      List.mem_map_of_mem hrow
    exact ⟨a, .licence hl' h ha, hid⟩

/-- A file can be read by everyone exactly when a public route shows it to a visitor without a
token. -/
theorem public_iff_shown (db : Database) {env : PublicEnv}
    (hpages : SlugsApart env.coll (·.slug) db.rows.pages)
    (hposts : SlugsApart env.coll (·.slug) db.rows.posts) (id now : ℕ) :
    Files.queryIsPubliclyReadable db.content id = true ↔
      ∃ (route : Route) (query : Query) (body : Body), query "preview" = none ∧
        (route.handle env db.rows query now).outcome = .ok body ∧ ∃ a ∈ body.assets, a.id = id := by
  rw [Files.isPublic_iff]
  constructor
  · intro h
    obtain ⟨a, ha, hid⟩ := publicAsset_of_isPublic db h
    obtain ⟨route, body, hbody, hmem⟩ :=
      shown_of_publicAsset hpages hposts (fun _ => none) (fun _ => rfl) ha
    exact ⟨route, fun _ => none, body, rfl, hbody, a, hmem, hid⟩
  · rintro ⟨route, query, body, hquery, hbody, a, ha, rfl⟩
    exact isPublic_of_publicAsset (publicAsset_of_shown hquery hbody ha)

def fileOf (id : ℕ) (checksum : String) : Media.MediaAsset where
  id := id
  kind := .pdf
  altAr := none
  publicId := checksum
  mimeType := "application/pdf"
  sizeBytes := 1
  originalName := checksum
  storageKey := checksum
  checksumSha256 := checksum

/-- A published licence with a file, and a file of nothing. -/
def licensed : Database where
  toTables := { Tables.empty with
    licences :=
      Table.empty.insert { id := 1, titleAr := "l", assetId := some 1, isPublished := true } rfl
    mediaAssets := ⟨⟨[fileOf 1 "a", fileOf 2 "b"], by simp [fileOf]⟩, by simp [fileOf]⟩ }
  intact := by decide

theorem public_iff_shown_licensed : Files.queryIsPubliclyReadable licensed.content 1 = true ↔
    ∃ (route : Route) (query : Query) (body : Body), query "preview" = none ∧
      (route.handle bareEnv licensed.rows query 0).outcome = .ok body ∧
        ∃ a ∈ body.assets, a.id = 1 := by
  apply public_iff_shown
  · simp [SlugsApart, licensed, Tables.rows, Tables.empty, UniqueTable.empty, Table.empty]
  · simp [SlugsApart, licensed, Tables.rows, Tables.empty, UniqueTable.empty, Table.empty]

/-! ### Links -/

/-- A page of the site another one names. -/
inductive Link where
  | page (slug : String)
  | post (slug : String)
  | category (slug : String)
  | docSection (slug : String)
  deriving DecidableEq, Repr

def Link.route : Link → Route
  | .page slug => .page slug
  | .post slug => .news (.detail slug)
  | .category _ => .news .list
  | .docSection slug => .documentSection slug

/-- A category is asked for by a parameter of the list. -/
def Link.Asks (query : Query) : Link → Prop
  | .category slug => readString query "category" = some slug
  | _ => True

/-- A post, and the category it is filed under. -/
def postLinks (post : PublicPostSummary PublicMediaAsset) : List Link :=
  .post post.slug :: post.category.toList.map fun c => .category c.slug

/-- The pages a response names by their slugs. The address of a section's button and the target of a
redirect are texts that may name anything. -/
def Body.links : Body → List Link
  | .home h => h.news.flatMap postLinks
  | .site s => s.nav.map fun item => .page item.slug
  | .news body => (summaries body).flatMap postLinks
  | .newsCategories list => list.map fun c => .category c.slug
  | .documents groups => groups.map fun group => .docSection group.category.slug
  | .documentSections list => list.map fun s => .docSection s.slug
  | .documentSection group => [.docSection group.category.slug]
  | .sitemapIndex index =>
    (index.pages.map fun e => .page e.slug) ++ (index.posts.map fun e => .post e.slug) ++
      index.categories.map fun e => .category e.slug
  | _ => []

/-- A link to a row the public may see. -/
inductive Rows.Linked (r : Rows) : Link → Prop where
  | page {p : Page} (hp : p ∈ r.publishedPages) : r.Linked (.page p.slug)
  | post {p : JoinedPost} (hp : p ∈ r.posts) (h : p.isPublished = true) :
      r.Linked (.post p.slug)
  | category {c : NewsCategory} (hc : c ∈ r.newsCategories) : r.Linked (.category c.slug)
  | docSection {c : DocCategory} (hc : c ∈ r.docCategories) (h : c.isPublished = true) :
      r.Linked (.docSection c.slug)

section Links

variable {env : PublicEnv} {r : Rows} {query : Query} {now : ℕ} {link : Link}

lemma answered_of_linked (hslugs : SlugsApart env.coll (·.slug) r.posts) (h : r.Linked link)
    (hasks : link.Asks query) :
    ∃ body, (link.route.handle env r query now).outcome = .ok body := by
  cases h with
  | @page p hp =>
    obtain ⟨page, hpage⟩ := Option.isSome_iff_exists.mp (List.find?_isSome
      (p := fun q : Page => env.coll.eq q.slug p.slug).mpr ⟨p, hp, env.coll.eq_refl p.slug⟩)
    refine ⟨.page (toPublicPage env.render page (r.sectionsOf fun id => id = page.id)), ?_⟩
    simp only [Link.route, Route.handle, pageBySlug, hpage]
    rfl
  | @post p hp h =>
    have hfind : r.posts.find? (fun q => env.coll.eq q.slug p.slug) = some p :=
      find_of_apart (f := fun q : JoinedPost => q.slug) hslugs hp (env.coll.eq_refl _)
    refine ⟨.news (.detail (Public.toPublicPostDetail env r.newsDatabase p.toDetailPost none)), ?_⟩
    simp only [Link.route, Route.handle, Public.NewsRoute.handle, Public.bySlug, find_newsPosts,
      hfind, Option.map_some, h]
    rfl
  | @category c hc =>
    have hknown : (truthy (readString query "category")).filter
        (fun slug => !r.newsDatabase.toDatabase.categories.any fun c => env.coll.eq c.slug slug)
          = none := by
      rw [hasks]
      cases htruthy : truthy (some c.slug) with
      | none => rfl
      | some slug =>
        obtain rfl := Option.some.inj (eq_some_of_truthy htruthy)
        simp only [Option.filter_eq_none_iff, Option.some.injEq]
        rintro _ rfl
        have hlisted : c.toNewsCategory ∈ r.newsDatabase.toDatabase.categories :=
          List.mem_map_of_mem hc
        simpa using ⟨c.toNewsCategory, hlisted, env.coll.eq_refl _⟩
    simp only [Link.route, Route.handle, Public.NewsRoute.handle, Public.newsList, hknown]
    split_ifs <;> exact ⟨_, rfl⟩
  | @docSection c hc h =>
    obtain ⟨category, hcategory⟩ := Option.isSome_iff_exists.mp (List.find?_isSome
      (p := fun d : DocCategory => env.coll.eq d.slug c.slug).mpr
        ⟨c, List.mem_filter.mpr ⟨hc, h⟩, env.coll.eq_refl c.slug⟩)
    refine ⟨.documentSection ⟨toPublicDocCategory category,
      (r.documentsOf fun id => id = category.id).map toPublicDocument⟩, ?_⟩
    simp only [Link.route, Route.handle, documentSection, hcategory]
    rfl

lemma linked_told {summary : PublicPostSummary PublicMediaAsset} (h : r.Told summary)
    (hlink : link ∈ postLinks summary) : r.Linked link := by
  obtain ⟨p, hp, hpublished, rfl⟩ := h
  rcases List.mem_cons.mp hlink with rfl | hlink
  · exact .post hp hpublished
  · obtain ⟨category, hcategory, rfl⟩ := List.mem_map.mp hlink
    obtain ⟨found, hfound, rfl⟩ := Option.map_eq_some_iff.mp (Option.mem_toList.mp hcategory)
    obtain ⟨c, hc, rfl⟩ := List.mem_map.mp (List.mem_of_find?_eq_some hfound)
    exact .category hc

/-- A response names rows the public may see only. -/
lemma linked_of_shown {route : Route} {body : Body} (hquery : query "preview" = none)
    (h : (route.handle env r query now).outcome = .ok body) (hlink : link ∈ body.links) :
    r.Linked link := by
  cases route
  case home =>
    cases h
    obtain ⟨summary, hsummary, hlink⟩ := List.mem_flatMap.mp hlink
    exact linked_told (told_of_home hsummary) hlink
  case site =>
    cases h
    obtain ⟨item, hitem, rfl⟩ := List.mem_map.mp hlink
    obtain ⟨slug, -, hitem⟩ := List.mem_filterMap.mp hitem
    obtain ⟨p, hp, rfl⟩ := Option.map_eq_some_iff.mp hitem
    exact .page (List.mem_of_find?_eq_some hp)
  case news route =>
    simp only [Route.handle] at h
    obtain ⟨newsBody, hnews, rfl⟩ := map_eq_ok h
    obtain ⟨summary, hsummary, hlink⟩ := List.mem_flatMap.mp hlink
    exact linked_told (told_of_news hquery hnews hsummary) hlink
  case newsCategories =>
    cases h
    obtain ⟨category, hcategory, rfl⟩ := List.mem_map.mp hlink
    obtain ⟨c, hc, rfl⟩ := List.mem_map.mp hcategory
    exact .category (mem_bySortOrder.mp hc)
  case documents =>
    cases h
    obtain ⟨group', hgroup, rfl⟩ := List.mem_map.mp hlink
    obtain ⟨category, hcategory, rfl⟩ := List.mem_map.mp hgroup
    obtain ⟨hmem, hpublished⟩ := mem_publishedDocCategories.mp hcategory
    exact .docSection hmem hpublished
  case documentSections =>
    cases h
    obtain ⟨section', hsection, rfl⟩ := List.mem_map.mp hlink
    obtain ⟨category, hcategory, rfl⟩ := List.mem_map.mp hsection
    obtain ⟨hmem, hpublished⟩ :=
      mem_publishedDocCategories.mp (List.mem_of_mem_filter hcategory)
    exact .docSection hmem hpublished
  case documentSection slug =>
    obtain ⟨group', hgroup, rfl⟩ := map_eq_ok h
    simp only [documentSection] at hgroup
    split at hgroup
    · cases hgroup
    · next category hcategory =>
      cases hgroup
      obtain ⟨hmem, hpublished⟩ := List.mem_filter.mp (List.mem_of_find?_eq_some hcategory)
      rw [List.mem_singleton.mp hlink]
      exact .docSection hmem hpublished
  case sitemapIndex =>
    cases h
    simp only [Body.links, List.mem_append, List.mem_map] at hlink
    rcases hlink with (⟨entry, hentry, rfl⟩ | ⟨entry, hentry, rfl⟩) | ⟨entry, hentry, rfl⟩
    · obtain ⟨p, hp, rfl⟩ := List.mem_map.mp hentry
      exact .page hp
    · obtain ⟨p, hp, rfl⟩ := List.mem_map.mp hentry
      obtain ⟨hp, hpublished⟩ := List.mem_filter.mp hp
      exact .post hp hpublished
    · obtain ⟨c, hc, rfl⟩ := List.mem_map.mp hentry
      exact .category hc
  case page slug =>
    obtain ⟨page, -, rfl⟩ := map_eq_ok h
    simp [Body.links] at hlink
  case partners =>
    obtain ⟨partners, -, rfl⟩ := map_eq_ok h
    simp [Body.links] at hlink
  case aboutItems =>
    obtain ⟨items, -, rfl⟩ := map_eq_ok h
    simp [Body.links] at hlink
  case redirectsResolve =>
    obtain ⟨redirect, -, rfl⟩ := map_eq_ok h
    simp [Body.links] at hlink
  all_goals
    cases h
    simp [Body.links] at hlink

/-- A page that is answered is the published one that matches the slug. -/
lemma page_listed {slug : String} {body : Body}
    (h : ((Route.page slug).handle env r query now).outcome = .ok body) :
    ∃ page, body = .page page ∧ env.coll.eq page.slug slug = true ∧
      page.slug ∈ (sitemapIndex r).pages.map SitemapEntry.slug := by
  obtain ⟨page, hpage, rfl⟩ := map_eq_ok h
  simp only [pageBySlug] at hpage
  split at hpage
  · cases hpage
  · next p hp =>
    cases hpage
    have hslug : env.coll.eq p.slug slug = true := by simpa using List.find?_some hp
    refine ⟨_, rfl, hslug, ?_⟩
    exact List.mem_map.mpr ⟨⟨p.slug, p.updatedAt⟩,
      List.mem_map_of_mem (List.mem_of_find?_eq_some hp), rfl⟩

lemma post_listed {slug : String} {body : Body} (hquery : query "preview" = none)
    (h : ((Route.news (.detail slug)).handle env r query now).outcome = .ok body) :
    ∃ post, body = .news (.detail post) ∧ env.coll.eq post.slug slug = true ∧
      post.slug ∈ (sitemapIndex r).posts.map SitemapEntry.slug := by
  simp only [Route.handle] at h
  obtain ⟨newsBody, hnews, rfl⟩ := map_eq_ok h
  obtain ⟨post, hfind, hpublished, rfl⟩ := bySlug_ok hquery hnews
  have hslug : env.coll.eq post.slug slug = true := by simpa using List.find?_some hfind
  refine ⟨_, rfl, hslug, ?_⟩
  exact List.mem_map.mpr ⟨⟨post.slug, post.updatedAt⟩,
    List.mem_map_of_mem (List.mem_filter.mpr ⟨List.mem_of_find?_eq_some hfind, hpublished⟩), rfl⟩

end Links

/-- Whatever page a response to a visitor names is answered, and every page and post a visitor gets
is the one the path names and is itself named in the sitemap. -/
theorem links_answered {env : PublicEnv} {r : Rows}
    (hposts : SlugsApart env.coll (·.slug) r.posts) (query : Query)
    (hquery : query "preview" = none) (now : ℕ) :
    (∀ (route : Route) (body : Body), (route.handle env r query now).outcome = .ok body →
      ∀ link ∈ body.links, ∀ (query' : Query) (now' : ℕ), link.Asks query' →
        ∃ body', (link.route.handle env r query' now').outcome = .ok body') ∧
      ∀ slug body,
        (((Route.page slug).handle env r query now).outcome = .ok body →
          ∃ page, body = .page page ∧ env.coll.eq page.slug slug = true ∧
            page.slug ∈ (sitemapIndex r).pages.map SitemapEntry.slug) ∧
        (((Route.news (.detail slug)).handle env r query now).outcome = .ok body →
          ∃ post, body = .news (.detail post) ∧ env.coll.eq post.slug slug = true ∧
            post.slug ∈ (sitemapIndex r).posts.map SitemapEntry.slug) :=
  ⟨fun _ _ h _ hlink _ _ => answered_of_linked hposts (linked_of_shown hquery h hlink),
    fun _ _ => ⟨page_listed, post_listed hquery⟩⟩

/-- A published page and a published post. -/
def smallSite : Rows :=
  { Tables.empty.rows with
    pages := [{ id := 1, slug := "about", titleAr := "a" }]
    posts := [{
      id := 1, slug := "p", titleAr := "p", titleEn := none, excerptAr := none
      excerptEn := none, categoryId := 1, coverAsset := none, publishedOn := none
      isFeatured := true, isPublished := true, bodyAr := none, bodyEn := none }] }

theorem links_answered_smallSite : ∃ body,
    (Route.sitemapIndex.handle bareEnv smallSite (fun _ => none) 0).outcome = .ok body ∧
      Link.post "p" ∈ body.links ∧
        ∃ body', ((Route.news (.detail "p")).handle bareEnv smallSite (fun _ => none) 0).outcome =
          .ok body' := by
  refine ⟨_, rfl, by simp [Body.links, sitemapIndex, smallSite], ?_⟩
  refine (links_answered ?_ (fun _ => none) rfl 0).1 .sitemapIndex _ rfl (.post "p") ?_
    (fun _ => none) 0 trivial
  · simp [SlugsApart, smallSite]
  · simp [Body.links, sitemapIndex, smallSite]

end SafeerApi.Site
