import SafeerApi.Accounts.PreviewToken
import SafeerApi.Cache.Interceptor
import SafeerApi.Crud.Kernel
import SafeerApi.Public.Lists

/-!
# The public news routes (`news.controller.ts`, `public-post.ts`)

The list, the featured post and the detail of one post. A post that is not published is shown only
to who holds a preview token for it.
-/

namespace SafeerApi.Public

open Accounts Common

variable {A : Type*}

/-! ### Tables -/

/-- The columns of `posts` the detail reads. -/
structure DetailPost (A : Type*) extends Post A where
  bodyAr : Option String
  bodyEn : Option String

structure NewsDatabase (A : Type*) where
  categories : List NewsCategory
  posts : List (DetailPost A)

/-- The tables as the list reads them. -/
def NewsDatabase.toDatabase (db : NewsDatabase A) : Database A where
  categories := db.categories
  posts := db.posts.map (·.toPost)

/-- What the handlers are given: the database's collation, the markdown renderer and the keys. -/
structure PublicEnv where
  coll : Collation
  render : String → String
  preview : PreviewEnv

/-! ### Lists -/

/-- `ORDER BY published_on DESC`, where a null date comes last. -/
def Post.datedNotAfter (a b : Post A) : Bool :=
  match a.publishedOn, b.publishedOn with
  | some d, some d' => !(d < d')
  | none, some _ => false
  | _, none => true

/-- `NewsController.featured` -/
def featured (db : NewsDatabase A) : Option (PublicPostSummary A) :=
  (((db.posts.filter fun p => p.isPublished && p.isFeatured).mergeSort fun a b =>
    a.toPost.datedNotAfter b.toPost).head?).map fun p => toPublicPostSummary db.toDatabase p.toPost

/-! ### The detail -/

def wordsPerMinute : ℕ := 200

/-- `Math.round` rounds halves up. -/
def estimateReadMinutes (text : Option String) : ℕ :=
  match truthy text with
  | none => 1
  | some text =>
    let wordCount := ((text.toList.splitOnP isWhiteSpace).filter (· ≠ [])).length
    max 1 ((wordCount + wordsPerMinute / 2) / wordsPerMinute)

structure PublicPostDetail (A : Type*) extends PublicPostSummary A where
  bodyAr : String
  bodyEn : Option String
  readMinutesAr : ℕ
  readMinutesEn : Option ℕ
  related : List (PublicPostSummary A)
  previewFileQuery : Option String

/-- `[A-Za-z0-9\-_.!~*'()]` -/
def isUnreserved (c : Char) : Bool := c.isAlphanum || c ∈ "-_.!~*'()".toList

def hexByte (b : UInt8) : String :=
  let digit (n : ℕ) : Char := if n < 10 then Char.ofNat (48 + n) else Char.ofNat (55 + n)
  String.ofList ['%', digit (b.toNat / 16), digit (b.toNat % 16)]

def encodeURIComponent (s : String) : String :=
  String.join (s.toList.map fun c =>
    if isUnreserved c then c.toString else String.join ((String.utf8EncodeChar c).map hexByte))

def relatedLimit : ℕ := 3

/-- The newest published posts of the post's category, without the post. -/
def relatedPosts (db : NewsDatabase A) (post : DetailPost A) : List (DetailPost A) :=
  let related := ((db.posts.filter fun p => p.categoryId = post.categoryId && p.isPublished).mergeSort
    fun a b => a.toPost.datedNotAfter b.toPost).take (relatedLimit + 1)
  (related.filter fun r => r.id ≠ post.id).take relatedLimit

def toPublicPostDetail (env : PublicEnv) (db : NewsDatabase A) (post : DetailPost A)
    (previewFileQuery : Option String) : PublicPostDetail A :=
  let bodyAr := ((truthy post.bodyAr).map env.render).getD ""
  let bodyEn := (truthy post.bodyEn).map env.render
  { toPublicPostSummary db.toDatabase post.toPost with
    bodyAr := bodyAr
    bodyEn := bodyEn
    readMinutesAr := estimateReadMinutes (some bodyAr)
    readMinutesEn := (truthy (bodyEn.map trim)).map fun _ => estimateReadMinutes bodyEn
    related := (relatedPosts db post).map fun p => toPublicPostSummary db.toDatabase p.toPost
    previewFileQuery := previewFileQuery }

/-- The query holds a token for the post; `now` is the time in milliseconds. -/
def verifies (env : PublicEnv) (now : ℕ) (query : Query) (id : ℕ) : Bool :=
  match truthy (readString query "preview") with
  | none => false
  | some token => verifyPreviewToken env.preview now "posts" (toString id) token

/-- What the files of a preview are asked for with. -/
def fileQuery (query : Query) (id : ℕ) : String :=
  "preview=" ++ encodeURIComponent ((readString query "preview").getD "") ++ "&post=" ++
    encodeURIComponent (toString id)

/-! ### Routes -/

inductive NewsRoute where
  | list
  | featured
  | detail (slug : String)
  deriving DecidableEq, Repr

def NewsRoute.keyParams : NewsRoute → List String
  | .list => Route.news.keyParams
  | .featured | .detail _ => []

/-- `@PreviewAware()` -/
def NewsRoute.previewAware : NewsRoute → Bool
  | .detail _ => true
  | .list | .featured => false

inductive NewsBody (A : Type*) where
  | list (page : PagedResult (PublicPostSummary A))
  | featured (post : Option (PublicPostSummary A))
  | detail (post : PublicPostDetail A)

/-- `NewsController.bySlug` -/
def bySlug (env : PublicEnv) (db : NewsDatabase A) (slug : String) (query : Query) (now : ℕ) :
    Cache.Handled (NewsBody A) :=
  match db.posts.find? fun p => env.coll.eq p.slug slug with
  | none => { outcome := .error Crud.notFound }
  | some post =>
    if post.isPublished then { outcome := .ok (.detail (toPublicPostDetail env db post none)) }
    else if verifies env now query post.id then
      { outcome := .ok (.detail (toPublicPostDetail env db post (some (fileQuery query post.id))))
        previewVerified := true }
    else { outcome := .error Crud.notFound }

/-- A route's handler. -/
def NewsRoute.handle (env : PublicEnv) (db : NewsDatabase A) (query : Query) (now : ℕ) :
    NewsRoute → Cache.Handled (NewsBody A)
  | .list =>
    { outcome := (newsList env.coll db.toDatabase query).1.map .list
      skipCacheWrite := (newsList env.coll db.toDatabase query).2 }
  | .featured => { outcome := .ok (.featured (Public.featured db)) }
  | .detail slug => bySlug env db slug query now

end SafeerApi.Public
