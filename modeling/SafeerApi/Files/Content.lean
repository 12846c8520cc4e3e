import SafeerApi.Cache.Service
import SafeerApi.Common.SqlNumeric
import SafeerApi.Lib.Table

/-!
# What makes a file public (`media.service.ts`, `crud.factory.ts`)

Eight tables decide whether a file is public: six name files, and two more hold the switches of the
pages and of the categories. A write to any of them commits and then purges the tags of its
collection.
-/

namespace SafeerApi.Files

open Lib

/-! ### Tables -/

structure Page where
  id : ℕ
  isPublished : Bool
  deriving DecidableEq, Repr

structure PageSection where
  id : ℕ
  pageId : ℕ
  imageAssetId : Option ℕ
  isPublished : Bool
  deriving DecidableEq, Repr

structure BoardMember where
  id : ℕ
  photoAssetId : Option ℕ
  isPublished : Bool
  deriving DecidableEq, Repr

structure Post where
  id : ℕ
  coverAssetId : Option ℕ
  isPublished : Bool
  deriving DecidableEq, Repr

structure Partner where
  id : ℕ
  logoAssetId : Option ℕ
  isPublished : Bool
  deriving DecidableEq, Repr

structure DocCategory where
  id : ℕ
  isPublished : Bool
  deriving DecidableEq, Repr

structure Document where
  id : ℕ
  categoryId : ℕ
  assetId : Option ℕ
  isPublished : Bool
  deriving DecidableEq, Repr

structure Licence where
  id : ℕ
  assetId : Option ℕ
  isPublished : Bool
  deriving DecidableEq, Repr

structure Content where
  pages : Table Page.id
  pageSections : Table PageSection.id
  boardMembers : Table BoardMember.id
  posts : Table Post.id
  partners : Table Partner.id
  docCategories : Table DocCategory.id
  documents : Table Document.id
  licences : Table Licence.id

def Content.empty : Content :=
  ⟨.empty, .empty, .empty, .empty, .empty, .empty, .empty, .empty⟩

/-! ### The check -/

/-- `MediaService.queryIsPubliclyReadable`: the union of its six selects is not empty. -/
def queryIsPubliclyReadable (c : Content) (assetId : ℕ) : Bool :=
  (c.pageSections.rows.any fun ps => c.pages.rows.any fun p =>
    p.id = ps.pageId && ps.imageAssetId = some assetId && ps.isPublished && p.isPublished) ||
  (c.boardMembers.rows.any fun b => b.photoAssetId = some assetId && b.isPublished) ||
  (c.posts.rows.any fun p => p.coverAssetId = some assetId && p.isPublished) ||
  (c.partners.rows.any fun p => p.logoAssetId = some assetId && p.isPublished) ||
  (c.documents.rows.any fun d => c.docCategories.rows.any fun dc =>
    dc.id = d.categoryId && d.assetId = some assetId && d.isPublished && dc.isPublished) ||
  (c.licences.rows.any fun l => l.assetId = some assetId && l.isPublished)

/-- `MediaService.isUsedByPost` -/
def isUsedByPost (sql : Common.SqlNumeric) (c : Content) (assetId : ℕ) (postId : String) : Bool :=
  c.posts.rows.any fun p => sql.rowId postId = some p.id && p.coverAssetId = some assetId

/-- Content the site shows to everyone. -/
inductive PublicItem (c : Content) : Option ℕ → Prop where
  | pageSection {ps : PageSection} {p : Page} (hps : ps ∈ c.pageSections.rows) (hp : p ∈ c.pages.rows)
      (hpage : p.id = ps.pageId) (h : ps.isPublished = true) (h' : p.isPublished = true) :
      PublicItem c ps.imageAssetId
  | boardMember {b : BoardMember} (hb : b ∈ c.boardMembers.rows) (h : b.isPublished = true) :
      PublicItem c b.photoAssetId
  | post {p : Post} (hp : p ∈ c.posts.rows) (h : p.isPublished = true) : PublicItem c p.coverAssetId
  | partner {p : Partner} (hp : p ∈ c.partners.rows) (h : p.isPublished = true) :
      PublicItem c p.logoAssetId
  | document {d : Document} {dc : DocCategory} (hd : d ∈ c.documents.rows)
      (hdc : dc ∈ c.docCategories.rows) (hcat : dc.id = d.categoryId) (h : d.isPublished = true)
      (h' : dc.isPublished = true) : PublicItem c d.assetId
  | licence {l : Licence} (hl : l ∈ c.licences.rows) (h : l.isPublished = true) :
      PublicItem c l.assetId

/-- Some public content refers to the file. -/
def IsPublic (c : Content) (assetId : ℕ) : Prop := PublicItem c (some assetId)

/-- The post shows the file. -/
def ShownBy (c : Content) (assetId postId : ℕ) : Prop :=
  ∃ p ∈ c.posts.rows, p.id = postId ∧ p.coverAssetId = some assetId

/-- The check finds exactly what public content refers to. -/
lemma isPublic_iff {c : Content} {assetId : ℕ} :
    queryIsPubliclyReadable c assetId = true ↔ IsPublic c assetId := by
  simp only [queryIsPubliclyReadable, Bool.or_eq_true, List.any_eq_true, Bool.and_eq_true,
    decide_eq_true_eq]
  constructor
  · rintro (((((⟨ps, hps, p, hp, ⟨⟨hpage, ha⟩, h⟩, h'⟩ | ⟨b, hb, ha, h⟩) | ⟨p, hp, ha, h⟩) |
      ⟨p, hp, ha, h⟩) | ⟨d, hd, dc, hdc, ⟨⟨hcat, ha⟩, h⟩, h'⟩) | ⟨l, hl, ha, h⟩) <;>
      rw [IsPublic, ← ha]
    · exact .pageSection hps hp hpage h h'
    · exact .boardMember hb h
    · exact .post hp h
    · exact .partner hp h
    · exact .document hd hdc hcat h h'
    · exact .licence hl h
  · intro hpublic
    rw [IsPublic] at hpublic
    generalize some assetId = a at hpublic ⊢
    cases hpublic with
    | pageSection hps hp hpage h h' =>
      exact .inl (.inl (.inl (.inl (.inl ⟨_, hps, _, hp, ⟨⟨hpage, rfl⟩, h⟩, h'⟩))))
    | boardMember hb h => exact .inl (.inl (.inl (.inl (.inr ⟨_, hb, rfl, h⟩))))
    | post hp h => exact .inl (.inl (.inl (.inr ⟨_, hp, rfl, h⟩)))
    | partner hp h => exact .inl (.inl (.inr ⟨_, hp, rfl, h⟩))
    | document hd hdc hcat h h' => exact .inl (.inr ⟨_, hd, _, hdc, ⟨⟨hcat, rfl⟩, h⟩, h'⟩)
    | licence hl h => exact .inr ⟨_, hl, rfl, h⟩

lemma shownBy_of_isUsedByPost {sql : Common.SqlNumeric} {c : Content} {assetId : ℕ}
    {postId : String} (h : isUsedByPost sql c assetId postId = true) :
    ∃ id, sql.rowId postId = some id ∧ ShownBy c assetId id := by
  simp only [isUsedByPost, List.any_eq_true, Bool.and_eq_true, decide_eq_true_eq] at h
  obtain ⟨p, hp, hid, hcover⟩ := h
  exact ⟨p.id, hid, p, hp, rfl, hcover⟩

/-! ### Writes -/

/-- A write to one table. -/
inductive RowWrite (R : Type*) where
  | create (row : R)
  | update (row : R)
  | publish (id : ℕ)
  | unpublish (id : ℕ)
  | remove (id : ℕ)

/-- What a write leaves of its table, when it finds its row. -/
def RowWrite.apply {R : Type*} {key : R → ℕ} (setPublished : Bool → R → R) (t : Table key) :
    RowWrite R → Option (Table key)
  | .create row => if h : t.find (key row) = none then some (t.insert row h) else none
  | .update row => (t.find (key row)).map fun _ => t.replace row
  | .publish id => (t.find id).map fun row => t.replace (setPublished true row)
  | .unpublish id => (t.find id).map fun row => t.replace (setPublished false row)
  | .remove id => (t.find id).map fun _ => t.delete id

/-- A write to one of the collections. -/
inductive ContentWrite where
  | pages (w : RowWrite Page)
  | pageSections (w : RowWrite PageSection)
  | boardMembers (w : RowWrite BoardMember)
  | posts (w : RowWrite Post)
  | partners (w : RowWrite Partner)
  | docCategories (w : RowWrite DocCategory)
  | documents (w : RowWrite Document)
  | licences (w : RowWrite Licence)

/-- `ON DELETE CASCADE` on `fk_sections_page`. -/
def cascadeSections (sections : Table PageSection.id) : RowWrite Page → Table PageSection.id
  | .remove id => sections.deleteWhere fun ps => ps.pageId = id
  | _ => sections

/-- The tables after a write has committed. -/
def ContentWrite.apply (c : Content) : ContentWrite → Option Content
  | .pages w => do
    let pages ← w.apply (fun b p => { p with isPublished := b }) c.pages
    return { c with pages, pageSections := cascadeSections c.pageSections w }
  | .pageSections w => do
    let pageSections ← w.apply (fun b ps => { ps with isPublished := b }) c.pageSections
    return { c with pageSections }
  | .boardMembers w => do
    let boardMembers ← w.apply (fun b m => { m with isPublished := b }) c.boardMembers
    return { c with boardMembers }
  | .posts w => do
    let posts ← w.apply (fun b p => { p with isPublished := b }) c.posts
    return { c with posts }
  | .partners w => do
    let partners ← w.apply (fun b p => { p with isPublished := b }) c.partners
    return { c with partners }
  | .docCategories w => do
    let docCategories ← w.apply (fun b dc => { dc with isPublished := b }) c.docCategories
    return { c with docCategories }
  | .documents w => do
    let documents ← w.apply (fun b d => { d with isPublished := b }) c.documents
    return { c with documents }
  | .licences w => do
    let licences ← w.apply (fun b l => { l with isPublished := b }) c.licences
    return { c with licences }

/-- What the writers of a collection purge: its own tag, then its `extraPurgeTags`. -/
def ContentWrite.purgeTags : ContentWrite → List Cache.Tag
  | .pages _ => ["pages", "pages", "home"]
  | .pageSections _ => ["page_sections", "pages", "home"]
  | .boardMembers _ => ["board_members", "board_members", "home", "org_chart"]
  | .posts _ => ["posts", "home", "news"]
  | .partners _ => ["partners", "partners", "home"]
  | .docCategories _ => ["doc_categories", "documents", "home"]
  | .documents _ => ["documents", "documents", "home"]
  | .licences _ => ["licences", "site_settings", "home"]

/-- `ASSET_PUBLIC_MEMO_TAGS` -/
def assetPublicMemoTags : List Cache.Tag :=
  ["home", "pages", "board_members", "news", "partners", "documents", "doc_categories", "licences"]

/-- Every writer purges a tag the answers of the check are stored under. -/
lemma purgeTags_meet (w : ContentWrite) : ∃ tag ∈ w.purgeTags, tag ∈ assetPublicMemoTags := by
  refine ⟨"home", ?_, by decide⟩
  cases w <;> simp [ContentWrite.purgeTags]

end SafeerApi.Files
