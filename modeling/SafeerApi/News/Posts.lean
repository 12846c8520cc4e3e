import SafeerApi.Common.Slug
import SafeerApi.Crud.Kernel
import SafeerApi.Lib.UniqueTable

/-!
# Posts (`post.entity.ts`, `post.dto.ts`, `admin-news.controller.ts`)

What a request about a post checks before it writes, and the entity it is about to save.
-/

namespace SafeerApi.News

open Common Crud Lib

/-! ### Rows and bodies -/

structure Post where
  id : ℕ
  slug : String
  titleAr : String
  titleEn : Option String := none
  excerptAr : Option String := none
  excerptEn : Option String := none
  bodyAr : Option String := none
  bodyEn : Option String := none
  categoryId : ℕ
  coverAssetId : Option ℕ := none
  publishedOn : Option String := none
  isFeatured : Bool := false
  isLegacy : Bool := false
  isPublished : Bool := false
  updatedAt : ℕ := 0
  deriving DecidableEq, Repr

/-- `uq_posts_slug` -/
abbrev Posts := UniqueTable Post.id Post.slug

/-- In every body `none` is an absent field; a nullable one may also be present as null. -/
structure CreatePostDto where
  titleAr : String
  titleEn : Option (Option String) := none
  excerptAr : Option (Option String) := none
  excerptEn : Option (Option String) := none
  bodyAr : Option (Option String) := none
  bodyEn : Option (Option String) := none
  categoryId : String
  coverAssetId : Option (Option String) := none
  publishedOn : Option (Option String) := none
  isFeatured : Option Bool := none
  isLegacy : Option Bool := none
  isPublished : Option Bool := none

structure UpdatePostDto where
  titleAr : Option String := none
  titleEn : Option (Option String) := none
  excerptAr : Option (Option String) := none
  excerptEn : Option (Option String) := none
  bodyAr : Option (Option String) := none
  bodyEn : Option (Option String) := none
  categoryId : Option String := none
  coverAssetId : Option (Option String) := none
  publishedOn : Option (Option String) := none
  isFeatured : Option Bool := none
  isLegacy : Option Bool := none
  isPublished : Option Bool := none
  slug : Option String := none

/-! ### Schemas -/

/-- `/^\d{4}-\d{2}-\d{2}$/` -/
def isoDate (s : String) : Option String :=
  match s.toList with
  | [y₁, y₂, y₃, y₄, '-', m₁, m₂, '-', d₁, d₂] =>
    if [y₁, y₂, y₃, y₄, m₁, m₂, d₁, d₂].all Char.isDigit then some s else none
  | _ => none

def titleArSchema : String → Option String := bounded 1 191

def titleEnSchema : Option (Option String) → Option (Option (Option String)) :=
  optional (optional (trimmed 0 191))

/-- `z.string().trim().nullable().optional()` -/
def trimmedTextSchema : Option (Option String) → Option (Option (Option String)) :=
  optional (optional fun s => some (trim s))

def categoryIdSchema (s : String) : Option String := if s ≠ "" then some s else none

def createPostSchema (body : CreatePostDto) : Option CreatePostDto := do
  let titleAr ← titleArSchema body.titleAr
  let titleEn ← titleEnSchema body.titleEn
  let excerptEn ← trimmedTextSchema body.excerptEn
  let bodyEn ← trimmedTextSchema body.bodyEn
  let categoryId ← categoryIdSchema body.categoryId
  let publishedOn ← optional (optional isoDate) body.publishedOn
  return { body with titleAr, titleEn, excerptEn, bodyEn, categoryId, publishedOn }

def updatePostSchema (body : UpdatePostDto) : Option UpdatePostDto := do
  let titleAr ← optional titleArSchema body.titleAr
  let titleEn ← titleEnSchema body.titleEn
  let excerptEn ← trimmedTextSchema body.excerptEn
  let bodyEn ← trimmedTextSchema body.bodyEn
  let categoryId ← optional categoryIdSchema body.categoryId
  let publishedOn ← optional (optional isoDate) body.publishedOn
  let slug ← optional (slugSchema reservedPostSlugs) body.slug
  return { body with titleAr, titleEn, excerptEn, bodyEn, categoryId, publishedOn, slug }

/-! ### Entities -/

/-- What the database and the runtime do with texts. `storedId` is the number a text is stored as in
a `BIGINT` column; a text that is none is refused. -/
structure NewsEnv where
  sql : SqlNumeric
  storedId : String → Option ℕ
  tables : UnicodeTables

/-- `redirectFrom`: the public path of a post. -/
def redirectFrom (p : Post) : Option String := if p.slug = "" then none else some ("/news/" ++ p.slug)

/-- `onPublish`: a post that is published without a date is dated today. -/
def onPublish (today : String) (p : Post) : Post :=
  if (truthy p.publishedOn).isNone then { p with publishedOn := some today } else p

/-- `publishWarnings`, for the rows that are published. -/
def warnings (p : Post) : List String :=
  if p.isPublished && p.coverAssetId.isNone then ["COVER_MISSING"] else []

/-- A nullable reference, as it is stored. -/
def storedRef (env : NewsEnv) : Option String → Except Refusal (Option ℕ)
  | none => .ok none
  | some id => do return some (← executed (env.storedId id))

/-- `repo.create(dto)`, with the columns' defaults. -/
def draftOf (env : NewsEnv) (dto : CreatePostDto) (slug : String) : Except Refusal Post := do
  let categoryId ← executed (env.storedId dto.categoryId)
  let coverAssetId ← storedRef env dto.coverAssetId.join
  return {
    -- set by the insertion
    id := 0
    slug := slug
    titleAr := dto.titleAr
    titleEn := dto.titleEn.join
    excerptAr := dto.excerptAr.join
    excerptEn := dto.excerptEn.join
    bodyAr := dto.bodyAr.join
    bodyEn := dto.bodyEn.join
    categoryId := categoryId
    coverAssetId := coverAssetId
    publishedOn := dto.publishedOn.join
    isFeatured := dto.isFeatured.getD false
    isLegacy := dto.isLegacy.getD false
    isPublished := dto.isPublished.getD false }

/-- The references of a row that a body may set. -/
def assignedCategory (env : NewsEnv) (p : Post) : Option String → Except Refusal ℕ
  | none => .ok p.categoryId
  | some id => executed (env.storedId id)

def assignedCover (env : NewsEnv) (p : Post) : Option (Option String) → Except Refusal (Option ℕ)
  | none => .ok p.coverAssetId
  | some id => storedRef env id

/-- `Object.assign(entity, dto)`, with the references as they are stored. -/
def Post.assign (env : NewsEnv) (p : Post) (dto : UpdatePostDto) : Except Refusal Post := do
  let categoryId ← assignedCategory env p dto.categoryId
  let coverAssetId ← assignedCover env p dto.coverAssetId
  return { p with
    slug := dto.slug.getD p.slug
    titleAr := dto.titleAr.getD p.titleAr
    titleEn := dto.titleEn.getD p.titleEn
    excerptAr := dto.excerptAr.getD p.excerptAr
    excerptEn := dto.excerptEn.getD p.excerptEn
    bodyAr := dto.bodyAr.getD p.bodyAr
    bodyEn := dto.bodyEn.getD p.bodyEn
    categoryId := categoryId
    coverAssetId := coverAssetId
    publishedOn := dto.publishedOn.getD p.publishedOn
    isFeatured := dto.isFeatured.getD p.isFeatured
    isLegacy := dto.isLegacy.getD p.isLegacy
    isPublished := dto.isPublished.getD p.isPublished }

/-! ### What a request is about to save -/

/-- `findOrNotFound` -/
def findPost (env : NewsEnv) (posts : Posts) (id : String) : Except Refusal Post :=
  match (env.sql.rowId id).bind posts.find with
  | some p => .ok p
  | none => .error (.problem notFound)

/-- The slug a body sets is not another post's. -/
def assertSlugFree (posts : Posts) (id : String) (slug : Option String) : Except Refusal Unit :=
  match (truthy slug).bind posts.lookup with
  | some existing =>
    if toString existing.id ≠ id then
      .error (.problem ⟨409, .slugTaken, "That slug is already in use", [], []⟩)
    else .ok ()
  | none => .ok ()

/-- What `create` is about to insert; `now` is the time in milliseconds. -/
def prepareCreate (env : NewsEnv) (posts : Posts) (assets : List MediaAsset) (now : ℕ)
    (today : String) (body : CreatePostDto) : Except Refusal Post := do
  let dto ← validated (createPostSchema body)
  let slug := generateUniqueSlug env.tables (posts.rows.map (·.slug)) dto.titleEn.join
    (some dto.titleAr) ("post-" ++ toString now) reservedPostSlugs
  checked (assertAltTextReady env.sql assets [("coverAssetId", dto.coverAssetId.join)])
  let draft ← draftOf env dto slug
  return if draft.isPublished then onPublish today draft else draft

/-- The row as it is and as `update` is about to save it. -/
def prepareUpdate (env : NewsEnv) (posts : Posts) (assets : List MediaAsset) (today id : String)
    (body : UpdatePostDto) : Except Refusal (Post × Post) := do
  let dto ← validated (updatePostSchema body)
  assertSlugFree posts id dto.slug
  checked (assertAltTextReady env.sql assets [("coverAssetId", dto.coverAssetId.join)])
  let before ← findPost env posts id
  let entity ← before.assign env dto
  return (before,
    if entity.isPublished && !before.isPublished then onPublish today entity else entity)

/-- The row as it is and as `publish` is about to save it. -/
def preparePublish (env : NewsEnv) (posts : Posts) (today id : String) (dto : PublishDto) :
    Except Refusal (Post × Post) := do
  let before ← findPost env posts id
  let entity := { before with isPublished := dto.isPublished.getD true }
  return (before,
    if entity.isPublished && !before.isPublished then onPublish today entity else entity)

/-! ### What the checks leave -/

section Prepare

variable {env : NewsEnv} {posts : Posts} {assets : List MediaAsset}

lemma findPost_ok {id : String} {p : Post} (h : findPost env posts id = .ok p) :
    p ∈ posts.rows := by
  simp only [findPost] at h
  split at h
  · next hfind =>
    cases h
    obtain ⟨n, -, hp⟩ := Option.bind_eq_some_iff.mp hfind
    exact (Table.find_eq_some.mp hp).1
  · cases h

@[simp] lemma onPublish_id (today : String) (p : Post) : (onPublish today p).id = p.id := by
  simp only [onPublish]
  split <;> rfl

@[simp] lemma onPublish_slug (today : String) (p : Post) : (onPublish today p).slug = p.slug := by
  simp only [onPublish]
  split <;> rfl

lemma assign_ok {p entity : Post} {dto : UpdatePostDto} (h : p.assign env dto = .ok entity) :
    entity.id = p.id ∧ entity.slug = dto.slug.getD p.slug := by
  obtain ⟨categoryId, -, h⟩ := bind_eq_ok h
  obtain ⟨coverAssetId, -, h⟩ := bind_eq_ok h
  cases h
  exact ⟨rfl, rfl⟩

lemma updatePostSchema_slug {body dto : UpdatePostDto} (h : updatePostSchema body = some dto) :
    dto.slug ≠ some "" := by
  simp only [updatePostSchema, Option.bind_eq_bind, Option.bind_eq_some_iff] at h
  obtain ⟨_, -, _, -, _, -, _, -, _, -, _, -, slug, hslug, h⟩ := h
  obtain rfl := Option.some.inj h
  rintro rfl
  obtain ⟨s, hs⟩ := parse_of_optional hslug
  exact slugSchema_ne_empty hs rfl

lemma prepareUpdate_ok {today id : String} {body : UpdatePostDto} {before entity : Post}
    (h : prepareUpdate env posts assets today id body = .ok (before, entity)) :
    before ∈ posts.rows ∧ entity.id = before.id ∧ (before.slug ≠ "" → entity.slug ≠ "") := by
  obtain ⟨dto, hdto, h⟩ := bind_eq_ok h
  obtain ⟨-, -, h⟩ := bind_eq_ok h
  obtain ⟨-, -, h⟩ := bind_eq_ok h
  obtain ⟨before', hbefore, h⟩ := bind_eq_ok h
  obtain ⟨entity', hentity, h⟩ := bind_eq_ok h
  obtain ⟨hid, hslug⟩ := assign_ok hentity
  cases h
  refine ⟨findPost_ok hbefore, ?_, ?_⟩
  · split
    · rw [onPublish_id, hid]
    · exact hid
  · intro hne
    have hentity : entity'.slug ≠ "" := by
      rw [hslug]
      cases hset : dto.slug with
      | none => exact hne
      | some slug =>
        rintro rfl
        exact updatePostSchema_slug (validated_ok hdto) hset
    split
    · rw [onPublish_slug]
      exact hentity
    · exact hentity

lemma preparePublish_ok {today id : String} {dto : PublishDto} {before entity : Post}
    (h : preparePublish env posts today id dto = .ok (before, entity)) :
    before ∈ posts.rows ∧ entity.id = before.id ∧ entity.slug = before.slug := by
  obtain ⟨before', hbefore, h⟩ := bind_eq_ok h
  cases h
  refine ⟨findPost_ok hbefore, ?_, ?_⟩
  · split
    · rw [onPublish_id]
    · rfl
  · split
    · rw [onPublish_slug]
    · rfl

lemma prepareCreate_ok {now : ℕ} {today : String} {body : CreatePostDto} {draft : Post}
    (h : prepareCreate env posts assets now today body = .ok draft) : draft.slug ≠ "" := by
  obtain ⟨dto, -, h⟩ := bind_eq_ok h
  obtain ⟨-, -, h⟩ := bind_eq_ok h
  obtain ⟨draft', hdraft, h⟩ := bind_eq_ok h
  obtain ⟨categoryId, -, hdraft⟩ := bind_eq_ok hdraft
  obtain ⟨coverAssetId, -, hdraft⟩ := bind_eq_ok hdraft
  cases hdraft
  cases h
  have hslug : generateUniqueSlug env.tables (posts.rows.map (·.slug)) dto.titleEn.join
      (some dto.titleAr) ("post-" ++ toString now) reservedPostSlugs ≠ "" :=
    generateUniqueSlug_ne_empty (by simp)
  split
  · rw [onPublish_slug]
    exact hslug
  · exact hslug

end Prepare

end SafeerApi.News
