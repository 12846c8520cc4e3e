import SafeerApi.Files.Content
import SafeerApi.Site.Routes

/-!
# What the writers change and purge (`crud.factory.ts` and the admin controllers)

A request that writes commits a transaction and purges the tags of its collection. The rows it
saves are those it loaded, with whatever it set: here they may be any rows. The database refuses a
transaction that would leave a reference without its row, deletes the sections of a deleted page and
the items of a deleted work area.
-/

namespace SafeerApi.Site

open Common Lib
open Crud (ReorderItem)
open Licences (Licence LicenceTable primaryColumns)
open Media (MediaAsset MediaAssets)
open OrgChart (OrgPosition)
open Public (AboutItem Redirect)
open SiteSettings (Settings)

/-! ### Writes to one table -/

inductive RowWrite (R : Type*) where
  | create (row : R)
  /-- An update, a publication, or any other route that saves the row it has loaded. A row that was
  deleted meanwhile is inserted again. -/
  | save (row : R)
  | remove (id : ℕ)

def RowWrite.apply {R : Type*} {key : R → ℕ} (t : Table key) : RowWrite R → Option (Table key)
  | .create row => if t.find (key row) = none then some (t.put row) else none
  | .save row => some (t.put row)
  | .remove id => some (t.delete id)

/-- A write to a table with a second unique column. -/
def RowWrite.applyUnique {R κ : Type*} [DecidableEq κ] {key : R → ℕ} {u : R → κ}
    (t : UniqueTable key u) : RowWrite R → Option (UniqueTable key u)
  | .create row => t.insert row
  | .save row => if t.find (key row) = none then t.insert row else t.replace row
  | .remove id => some (t.deleteWhere fun r => key r = id)

/-- The kernel's `reorder` of a table with a second unique column. -/
def reorderUnique {R κ : Type*} {key : R → ℕ} {u : R → κ} (sql : SqlNumeric)
    (setSortOrder : ℤ → R → R) (hkey : ∀ r n, key (setSortOrder n r) = key r)
    (hu : ∀ r n, u (setSortOrder n r) = u r) (t : UniqueTable key u) (items : List ReorderItem) :
    UniqueTable key u :=
  items.foldl (fun t item => t.updateWhere (fun r => sql.rowId item.id = some (key r))
    (setSortOrder item.sortOrder) (fun r => hkey r item.sortOrder)
    (fun r => hu r item.sortOrder)) t

/-! ### Transactions -/

/-- A committed transaction of some request. A new post is inserted and the redirects away from its
path are deleted in two of them. `updatedAt` is the time of a reorder's last statement on a row. -/
inductive Write where
  | pages (w : RowWrite Page)
  | pageSections (w : RowWrite PageSection)
  | boardMembers (w : RowWrite BoardMember)
  | orgPositions (w : RowWrite OrgPosition)
  | newsCategories (w : RowWrite NewsCategory)
  | posts (w : RowWrite News.Post)
  | renamePost (before entity : News.Post)
  | deleteLegacyPosts (ids : List ℕ)
  | clearRedirectsInto (path : String)
  | redirects (w : RowWrite Redirect)
  | partners (w : RowWrite Partner)
  | docCategories (w : RowWrite DocCategory)
  | documents (w : RowWrite SafeerDocument)
  | licences (statements : List (Licences.Write × ℕ))
  | settings (row : Settings)
  | stats (w : RowWrite Stat)
  | aboutItems (w : RowWrite AboutItem)
  | workAreas (w : RowWrite WorkArea)
  | workAreaItems (w : RowWrite WorkAreaItem)
  | testimonials (w : RowWrite Testimonial)
  | convertToTestimonial (row : Testimonial)
  | testimonialThemes (w : RowWrite TestimonialTheme)
  | reorder (name : TableName) (items : List ReorderItem) (updatedAt : ℕ → ℕ)
  | upload (asset : MediaAsset)
  | setAltText (id : ℕ) (altAr : String) (altEn : Option String)
  | removeAsset (id : ℕ)

/-- `ON DELETE CASCADE` on `fk_sections_page`. -/
def cascadeSections (t : Tables) : RowWrite Page → Tables
  | .remove id => { t with pageSections := t.pageSections.deleteWhere fun s => s.pageId = id }
  | _ => t

/-- `ON DELETE CASCADE` on `fk_workitem_area`. -/
def cascadeItems (t : Tables) : RowWrite WorkArea → Tables
  | .remove id => { t with workAreaItems := t.workAreaItems.deleteWhere fun i => i.workAreaId = id }
  | _ => t

/-- The tables as the redirects' transactions see them. -/
def Tables.redirectSite (t : Tables) (nextRedirectId : ℕ) : Redirects.Site where
  posts := t.posts
  redirects := t.redirects
  nextPostId := 0
  nextRedirectId := nextRedirectId
  categories := t.newsCategories.rows.map fun c => c.id
  assets := t.mediaAssets.rows.map (·.toMediaAsset)

/-- The id a redirect is inserted with. -/
def Tables.nextRedirectId (t : Tables) : ℕ := (t.redirects.rows.map Redirect.id).foldl max 0 + 1

/-- `saveWithRedirect`, where the slug has changed. -/
def Tables.renamePost (t : Tables) (before entity : News.Post) : Option Tables :=
  match Redirects.saveWithRedirect (t.redirectSite t.nextRedirectId) before entity with
  | .ok db => some { t with posts := db.posts, redirects := db.redirects }
  | .error _ => none

/-- The statements of a licence request, and then `syncSiteSettings`. -/
def Tables.licenceWrites (t : Tables) (statements : List (Licences.Write × ℕ)) : Option Tables :=
  (statements.foldlM (fun licences (s : Licences.Write × ℕ) => s.1.run licences s.2)
    t.licences).map fun licences =>
      { t with
        licences := licences
        settings := t.settings.map fun s => { s with licence := primaryColumns licences } }

/-- The kernel's `reorder`, of the collections that have it. -/
def Tables.reorder (sql : SqlNumeric) (t : Tables) (items : List ReorderItem) (updatedAt : ℕ → ℕ) :
    TableName → Option Tables
  | .pageSections =>
    let rows := reorderUnique sql (fun n s => { s with sortOrder := n }) (fun _ _ => rfl)
      (fun _ _ => rfl) t.pageSections items
    some { t with pageSections := rows }
  | .boardMembers =>
    let rows := Crud.reorder sql (fun n m => { m with sortOrder := n }) (fun _ _ => rfl)
      t.boardMembers items
    some { t with boardMembers := rows }
  | .orgPositions =>
    some { t with orgPositions := OrgChart.reorderPositions sql t.orgPositions items }
  | .newsCategories =>
    let rows := reorderUnique sql (fun n c => { c with sortOrder := n, updatedAt := updatedAt c.id })
      (fun _ _ => rfl) (fun _ _ => rfl) t.newsCategories items
    some { t with newsCategories := rows }
  | .partners =>
    let rows := Crud.reorder sql (fun n p => { p with sortOrder := n }) (fun _ _ => rfl)
      t.partners items
    some { t with partners := rows }
  | .docCategories =>
    let rows := reorderUnique sql (fun n c => { c with sortOrder := n }) (fun _ _ => rfl)
      (fun _ _ => rfl) t.docCategories items
    some { t with docCategories := rows }
  | .licences => some { t with licences := Licences.reorderLicences sql t.licences items }
  | .stats =>
    let rows := Crud.reorder sql (fun n s => { s with sortOrder := n }) (fun _ _ => rfl)
      t.stats items
    some { t with stats := rows }
  | .aboutItems =>
    let rows := Crud.reorder sql (fun n i => { i with sortOrder := n }) (fun _ _ => rfl)
      t.aboutItems items
    some { t with aboutItems := rows }
  | .workAreas =>
    let rows := Crud.reorder sql (fun n a => { a with sortOrder := n }) (fun _ _ => rfl)
      t.workAreas items
    some { t with workAreas := rows }
  | .workAreaItems =>
    let rows := Crud.reorder sql (fun n i => { i with sortOrder := n }) (fun _ _ => rfl)
      t.workAreaItems items
    some { t with workAreaItems := rows }
  | .testimonials =>
    let rows := Crud.reorder sql (fun n s => { s with sortOrder := n }) (fun _ _ => rfl)
      t.testimonials items
    some { t with testimonials := rows }
  | .testimonialThemes =>
    let rows := Crud.reorder sql (fun n s => { s with sortOrder := n }) (fun _ _ => rfl)
      t.testimonialThemes items
    some { t with testimonialThemes := rows }
  | _ => none

/-- The tables after the statements of a transaction. -/
def Write.run (sql : SqlNumeric) (t : Tables) : Write → Option Tables
  | .pages w => (w.applyUnique t.pages).map fun x => cascadeSections { t with pages := x } w
  | .pageSections w => (w.applyUnique t.pageSections).map fun x => { t with pageSections := x }
  | .boardMembers w => (w.apply t.boardMembers).map fun x => { t with boardMembers := x }
  | .orgPositions w => (w.apply t.orgPositions).map fun x => { t with orgPositions := x }
  | .newsCategories w =>
    (w.applyUnique t.newsCategories).map fun x => { t with newsCategories := x }
  | .posts w => (w.applyUnique t.posts).map fun x => { t with posts := x }
  | .renamePost before entity => t.renamePost before entity
  | .deleteLegacyPosts ids => some { t with posts := t.posts.deleteWhere fun p => p.id ∈ ids }
  | .clearRedirectsInto path =>
    some { t with redirects := Redirects.clearRedirectsInto t.redirects path }
  | .redirects w => (w.applyUnique t.redirects).map fun x => { t with redirects := x }
  | .partners w => (w.apply t.partners).map fun x => { t with partners := x }
  | .docCategories w => (w.applyUnique t.docCategories).map fun x => { t with docCategories := x }
  | .documents w => (w.apply t.documents).map fun x => { t with documents := x }
  | .licences statements => t.licenceWrites statements
  -- the form only ever updates the row
  | .settings row => t.settings.map fun _ => { t with settings := some row }
  | .stats w => (w.apply t.stats).map fun x => { t with stats := x }
  | .aboutItems w => (w.apply t.aboutItems).map fun x => { t with aboutItems := x }
  | .workAreas w => (w.apply t.workAreas).map fun x => cascadeItems { t with workAreas := x } w
  | .workAreaItems w => (w.apply t.workAreaItems).map fun x => { t with workAreaItems := x }
  | .testimonials w => (w.apply t.testimonials).map fun x => { t with testimonials := x }
  | .convertToTestimonial row =>
    ((RowWrite.create row).apply t.testimonials).map fun x => { t with testimonials := x }
  | .testimonialThemes w =>
    (w.apply t.testimonialThemes).map fun x => { t with testimonialThemes := x }
  | .reorder name items updatedAt => t.reorder sql items updatedAt name
  | .upload asset => (t.mediaAssets.insert asset).map fun x => { t with mediaAssets := x }
  | .setAltText id altAr altEn => (t.mediaAssets.find id).map fun _ => { t with
      mediaAssets := t.mediaAssets.updateWhere (fun asset => asset.id = id)
        (fun asset => { asset with altAr := some altAr, altEn := altEn }) (fun _ => rfl)
        fun _ => rfl }
  | .removeAsset id => some { t with
      mediaAssets := t.mediaAssets.deleteWhere fun asset => asset.id = id }

/-- The tables after a transaction that the foreign keys let commit. -/
def Write.apply (sql : SqlNumeric) (db : Database) (w : Write) : Option Database :=
  match w.run sql db.toTables with
  | some t => if h : t.intact = true then some ⟨t, h⟩ else none
  | none => none

/-! ### Purges -/

/-- `purge()` of the collection of a table: its own tag, then its `extraPurgeTags`. -/
def TableName.purgeTags : TableName → List Cache.Tag
  | .pages => ["pages", "pages", "home"]
  | .pageSections => ["page_sections", "pages", "home"]
  | .boardMembers | .boardPhotos => ["board_members", "board_members", "home", "org_chart"]
  | .orgPositions => ["org_positions", "org_chart"]
  | .newsCategories => ["news_categories", "news", "home"]
  | .posts => ["posts", "home", "news"]
  | .redirects => ["redirects", "redirects"]
  | .partners => ["partners", "partners", "home"]
  | .docCategories => ["doc_categories", "documents", "home"]
  | .documents => ["documents", "documents", "home"]
  | .licences => ["licences", "site_settings", "home"]
  -- the form's own two purges
  | .settings => ["site_settings", "home"]
  | .stats => ["stats", "home"]
  | .aboutItems => ["about_items", "home"]
  | .workAreas => ["work_areas", "work_areas", "home"]
  | .workAreaItems => ["work_area_items", "work_areas", "home"]
  | .testimonials => ["testimonials", "testimonials", "home"]
  | .testimonialThemes => ["testimonial_themes", "testimonials", "home"]

/-- The tags a writer purges once it has committed. -/
def Write.purgeTags : Write → List Cache.Tag
  | .pages _ => TableName.purgeTags .pages
  | .pageSections _ => TableName.purgeTags .pageSections
  | .boardMembers _ => TableName.purgeTags .boardMembers
  | .orgPositions _ => TableName.purgeTags .orgPositions
  | .newsCategories _ => TableName.purgeTags .newsCategories
  | .posts _ | .deleteLegacyPosts _ => TableName.purgeTags .posts
  | .renamePost _ _ => "redirects" :: TableName.purgeTags .posts
  | .clearRedirectsInto _ => ["redirects"]
  | .redirects _ => TableName.purgeTags .redirects
  | .partners _ => TableName.purgeTags .partners
  | .docCategories _ => TableName.purgeTags .docCategories
  | .documents _ => TableName.purgeTags .documents
  | .licences _ => TableName.purgeTags .licences
  | .settings _ => TableName.purgeTags .settings
  | .stats _ => TableName.purgeTags .stats
  | .aboutItems _ => TableName.purgeTags .aboutItems
  | .workAreas _ => TableName.purgeTags .workAreas
  | .workAreaItems _ => TableName.purgeTags .workAreaItems
  | .testimonials _ => TableName.purgeTags .testimonials
  | .convertToTestimonial _ => ["testimonials", "home"]
  | .testimonialThemes _ => TableName.purgeTags .testimonialThemes
  | .reorder name _ _ => name.purgeTags
  | .setAltText _ _ _ => Files.assetPublicMemoTags
  | .upload _ | .removeAsset _ => []

/-! ### What a write changes -/

def Write.changes : Write → List TableName
  | .pages _ => [.pages, .pageSections]
  | .pageSections _ => [.pageSections]
  | .boardMembers _ => [.boardMembers, .boardPhotos]
  | .orgPositions _ => [.orgPositions]
  | .newsCategories _ => [.newsCategories]
  | .posts _ | .deleteLegacyPosts _ => [.posts]
  | .renamePost _ _ => [.posts, .redirects]
  | .clearRedirectsInto _ | .redirects _ => [.redirects]
  | .partners _ => [.partners]
  | .docCategories _ => [.docCategories]
  | .documents _ => [.documents]
  | .licences _ => [.licences, .settings]
  | .settings _ => [.settings]
  | .stats _ => [.stats]
  | .aboutItems _ => [.aboutItems]
  | .workAreas _ => [.workAreas, .workAreaItems]
  | .workAreaItems _ => [.workAreaItems]
  | .testimonials _ | .convertToTestimonial _ => [.testimonials]
  | .testimonialThemes _ => [.testimonialThemes]
  | .reorder .boardMembers _ _ => [.boardMembers, .boardPhotos]
  | .reorder name _ _ => [name]
  | .setAltText _ _ _ => [.pageSections, .boardPhotos, .posts, .partners, .documents, .licences]
  | .upload _ | .removeAsset _ => []

section Frame

variable {sql : SqlNumeric} {t t' : Tables} {db db' : Database} {w : Write}

/-- The ids the rows of the six tables refer to. -/
def Tables.assetIds (t : Tables) : List ℕ :=
  t.pageSections.rows.filterMap PageSection.imageAssetId ++
    t.boardMembers.rows.filterMap BoardMember.photoAssetId ++
    t.posts.rows.filterMap News.Post.coverAssetId ++
    t.partners.rows.filterMap Partner.logoAssetId ++
    t.documents.rows.filterMap SafeerDocument.assetId ++
    t.licences.rows.filterMap Licence.assetId

/-- Every asset a row refers to is there. -/
lemma Database.find_asset (db : Database) {id : ℕ} (h : id ∈ db.assetIds) :
    ∃ asset, db.mediaAssets.find id = some asset := by
  have hintact := db.intact
  simp only [Tables.intact, Bool.and_eq_true, List.all_eq_true] at hintact
  obtain ⟨⟨⟨⟨⟨⟨⟨hsections, hmembers⟩, -⟩, hposts⟩, hpartners⟩, hdocuments⟩, hlicences⟩, -⟩ :=
    hintact
  have hrow : ∀ ref : Option ℕ, hasRow db.mediaAssets.toTable ref = true → ref = some id →
      ∃ asset, db.mediaAssets.find id = some asset := by
    rintro _ h rfl
    exact Option.isSome_iff_exists.mp h
  simp only [Tables.assetIds, List.mem_append, List.mem_filterMap] at h
  rcases h with ((((⟨s, hs, href⟩ | ⟨m, hm, href⟩) | ⟨p, hp, href⟩) | ⟨p, hp, href⟩) |
    ⟨d, hd, href⟩) | ⟨l, hl, href⟩
  · exact hrow _ (hsections s hs).2 href
  · exact hrow _ (hmembers m hm).2 href
  · exact hrow _ (hposts p hp).2 href
  · exact hrow _ (hpartners p hp) href
  · exact hrow _ (hdocuments d hd).2 href
  · exact hrow _ (hlicences l hl) href

/-- Assets no row refers to are not seen. -/
lemma rows_assets {assets : MediaAssets}
    (h : ∀ id ∈ t.assetIds, t.mediaAssets.find id = assets.find id) :
    ({ t with mediaAssets := assets } : Tables).rows = t.rows := by
  have hasset : ∀ ref : Option ℕ, (∀ id, ref = some id → id ∈ t.assetIds) →
      ({ t with mediaAssets := assets } : Tables).asset ref = t.asset ref := by
    intro ref href
    cases ref with
    | none => rfl
    | some id => simp only [Tables.asset, Option.bind_some, h id (href id rfl)]
  have hrows : ∀ {R : Type} (rows : List R) (f : R → Option ℕ),
      (∀ id ∈ rows.filterMap f, id ∈ t.assetIds) →
      ∀ r ∈ rows, ({ t with mediaAssets := assets } : Tables).asset (f r) = t.asset (f r) := by
    intro R rows f hsub r hr
    exact hasset _ fun id hid => hsub id (List.mem_filterMap.mpr ⟨r, hr, hid⟩)
  simp only [Tables.assetIds, List.mem_append] at hrows
  have hsections := hrows t.pageSections.rows PageSection.imageAssetId
    fun id hid => by simp only [hid, true_or]
  have hmembers := hrows t.boardMembers.rows BoardMember.photoAssetId
    fun id hid => by simp only [hid, true_or, or_true]
  have hposts := hrows t.posts.rows News.Post.coverAssetId
    fun id hid => by simp only [hid, true_or, or_true]
  have hpartners := hrows t.partners.rows Partner.logoAssetId
    fun id hid => by simp only [hid, true_or, or_true]
  have hdocuments := hrows t.documents.rows SafeerDocument.assetId
    fun id hid => by simp only [hid, true_or, or_true]
  have hlicences := hrows t.licences.rows Licence.assetId
    fun id hid => by simp only [hid, or_true]
  simp only [Tables.rows, Rows.mk.injEq, true_and, and_true]
  refine ⟨List.map_congr_left ?_, List.map_congr_left ?_, List.map_congr_left ?_,
    List.map_congr_left ?_, List.map_congr_left ?_, List.map_congr_left ?_⟩
  · intro s hs
    rw [hsections s hs]
  · intro m hm
    rw [hmembers m hm]
  · intro p hp
    simp only [Tables.joinPost, hposts p hp]
  · intro p hp
    simp only [Tables.joinPartner, hpartners p hp]
  · intro d hd
    rw [hdocuments d hd]
  · intro l hl
    rw [hlicences l hl]

@[simp] lemma rows_boardMembers (t : Tables) :
    t.rows.boardMembers.map WithAsset.row = t.boardMembers.rows := by
  simp [Tables.rows, Function.comp_def]

lemma apply_eq_some (h : w.apply sql db = some db') :
    w.run sql db.toTables = some db'.toTables := by
  simp only [Write.apply] at h
  split at h
  · next t hrun =>
    split_ifs at h
    cases h
    exact hrun
  · cases h

/-- A transaction that writes rows changes its own tables only. -/
lemma run_same {name : TableName} (h : w.run sql t = some t') (hrows : w.changes ≠ [])
    (hname : name ∉ w.changes) : t.rows.Same t'.rows name := by
  cases w
  case upload asset => exact absurd rfl hrows
  case removeAsset id => exact absurd rfl hrows
  case renamePost before entity =>
    simp only [Write.run, Tables.renamePost] at h
    split at h <;> cases h
    cases name <;> first | rfl | exact absurd (by simp [Write.changes]) hname
  case licences statements =>
    obtain ⟨x, -, rfl⟩ := Option.map_eq_some_iff.mp h
    cases name <;> first | rfl | exact absurd (by simp [Write.changes]) hname
  case pages w =>
    obtain ⟨x, -, rfl⟩ := Option.map_eq_some_iff.mp h
    cases w <;> cases name <;> first | rfl | exact absurd (by simp [Write.changes]) hname
  case workAreas w =>
    obtain ⟨x, -, rfl⟩ := Option.map_eq_some_iff.mp h
    cases w <;> cases name <;> first | rfl | exact absurd (by simp [Write.changes]) hname
  case deleteLegacyPosts ids =>
    cases h
    cases name <;> first | rfl | exact absurd (by simp [Write.changes]) hname
  case clearRedirectsInto path =>
    cases h
    cases name <;> first | rfl | exact absurd (by simp [Write.changes]) hname
  case setAltText id altAr altEn =>
    obtain ⟨x, -, rfl⟩ := Option.map_eq_some_iff.mp h
    cases name
    case boardMembers => simp [Rows.Same]
    all_goals first | rfl | exact absurd (by simp [Write.changes]) hname
  case reorder table items updatedAt =>
    cases table <;> try cases h
    all_goals cases name <;> first | rfl | exact absurd (by simp [Write.changes]) hname
  all_goals
    obtain ⟨x, -, rfl⟩ := Option.map_eq_some_iff.mp h
    cases name <;> first | rfl | exact absurd (by simp [Write.changes]) hname

/-- What no tag announces is not seen. -/
lemma rows_upload {asset : MediaAsset} (h : Write.apply sql db (.upload asset) = some db') :
    db'.rows = db.rows := by
  obtain ⟨assets, hinsert, ht⟩ := Option.map_eq_some_iff.mp (apply_eq_some h)
  obtain ⟨hnew, htable⟩ := UniqueTable.insert_toTable hinsert
  rw [← ht]
  apply rows_assets
  intro id hid
  obtain ⟨old, hold⟩ := db.find_asset hid
  have hne : id ≠ asset.id := by
    rintro rfl
    rw [hnew] at hold
    cases hold
  rw [htable, Table.find_insert, if_neg hne]

/-- An asset that is deleted was referred to by no row. -/
lemma rows_removeAsset {id : ℕ} (h : Write.apply sql db (.removeAsset id) = some db') :
    db'.rows = db.rows := by
  have ht := Option.some.inj (apply_eq_some h)
  rw [← ht]
  apply rows_assets
  intro id' hid
  have hid' : id' ∈ db'.assetIds := by
    rw [← ht]
    exact hid
  obtain ⟨asset, hasset⟩ := db'.find_asset hid'
  have hdelete : db'.mediaAssets.find id' =
      (db.mediaAssets.find id').filter fun asset => !decide (asset.id = id) := by
    rw [← ht]
    exact Table.find_deleteWhere id'
  have hold : db.mediaAssets.find id' = some asset :=
    (Option.filter_eq_some_iff.mp (hdelete.symm.trans hasset)).1
  rw [hold, ← hasset, ← ht]

/-- The tags of the routes that read a table. -/
def TableName.readers : TableName → List (List Cache.Tag)
  | .pages => [["home"], ["site_settings", "pages"], ["pages"], ["pages", "news"]]
  | .pageSections => [["home"], ["pages"]]
  | .boardMembers => [["org_chart"]]
  | .boardPhotos => [["board_members"]]
  | .orgPositions => [["org_chart"]]
  | .newsCategories => [["home"], ["news"], ["pages", "news"]]
  | .posts => [["home"], ["news"], ["pages", "news"]]
  | .redirects => [["redirects"]]
  | .partners => [["home"], ["partners"]]
  | .docCategories | .documents => [["documents"]]
  | .licences => [["licences"]]
  | .settings => [["home"], ["site_settings", "pages"]]
  | .stats => [["home"]]
  | .aboutItems => [["home"], ["about_items"]]
  | .workAreas | .workAreaItems => [["home"], ["work_areas"]]
  | .testimonials => [["home"], ["testimonials"]]
  | .testimonialThemes => [["testimonials"]]

lemma mem_readers (route : Route) : ∀ name ∈ route.reads, route.tags ∈ name.readers := by
  cases route <;> simp [Route.reads, TableName.readers, Route.tags]

/-- What a write changes is read by routes under the tags it purges only. -/
lemma covered (w : Write) : ∀ name ∈ w.changes, ∀ tags ∈ name.readers,
    ∃ tag ∈ w.purgeTags, tag ∈ tags := by
  cases w
  case reorder name items updatedAt =>
    cases name <;> simp only [Write.changes, Write.purgeTags] <;> decide
  all_goals
    simp only [Write.changes, Write.purgeTags]
    decide

/-- A write that purges no tag of a route is not seen through it. -/
lemma apply_sameFor {route : Route} (h : w.apply sql db = some db')
    (htags : ∀ tag ∈ w.purgeTags, tag ∉ route.tags) : db.rows.SameFor db'.rows route := by
  cases hw : w.changes with
  | nil =>
    have heq : db'.rows = db.rows := by
      cases w with
      | upload asset => exact rows_upload h
      | removeAsset id => exact rows_removeAsset h
      | reorder name items updatedAt => cases name <;> cases hw
      | _ => cases hw
    rw [heq]
    exact .refl _ _
  | cons first rest =>
    intro name hread
    apply run_same (apply_eq_some h) (by simp [hw])
    intro hname
    obtain ⟨tag, htag, hroute⟩ := covered w name hname _ (mem_readers route name hread)
    exact htags tag htag hroute

end Frame

end SafeerApi.Site
