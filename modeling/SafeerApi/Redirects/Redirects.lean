import SafeerApi.Lib.Forwarding
import SafeerApi.Lib.Reach
import SafeerApi.News.Posts
import SafeerApi.Public.Lists

/-!
# Redirects (`crud.factory.ts`, `admin-news.controller.ts`, `redirects.controller.ts`)

The requests that write posts, and those that write redirects by hand. Each is one transaction: what
it has checked is what it writes on. The database compares the texts of both tables as they are.
-/

namespace SafeerApi.Redirects

open Common Crud Lib News Public

/-! ### Tables -/

/-- `uq_redirect_from` -/
abbrev RedirectTable := UniqueTable Redirect.id Redirect.fromPath

/-- The tables, the ids they give out next, and what the posts refer to. -/
structure Site where
  posts : Posts
  redirects : RedirectTable
  nextPostId : ℕ
  nextRedirectId : ℕ
  categories : List ℕ
  assets : List MediaAsset

def clearRedirectsInto (redirects : RedirectTable) (path : String) : RedirectTable :=
  redirects.deleteWhere fun r => r.fromPath = path || r.fromPath = r.toPath

/-- `UPDATE redirects SET to_path = ? WHERE to_path = ?` -/
def repoint (redirects : RedirectTable) (toPath fromPath : String) : RedirectTable :=
  redirects.updateWhere (fun r => r.toPath = fromPath) (fun r => { r with toPath := toPath })
    (fun _ => rfl) fun _ => rfl

/-- `DELETE FROM redirects WHERE from_path = ?` -/
def deleteFrom (redirects : RedirectTable) (fromPath : String) : RedirectTable :=
  redirects.deleteWhere fun r => r.fromPath = fromPath

def insertRedirect (db : Site) (fromPath toPath : String) (statusCode : ℕ) :
    Except Refusal (Redirect × Site) := do
  let row : Redirect := ⟨db.nextRedirectId, fromPath, toPath, statusCode⟩
  let redirects ← executed (db.redirects.insert row)
  return (row, { db with redirects := redirects, nextRedirectId := db.nextRedirectId + 1 })

/-- The foreign keys of a post, where a statement sets them. -/
def refersToRows (db : Site) (before : Option Post) (p : Post) : Bool :=
  (before.any (·.categoryId = p.categoryId) || p.categoryId ∈ db.categories) &&
    (before.any (·.coverAssetId = p.coverAssetId) ||
      p.coverAssetId.all fun id => db.assets.any (·.id = id))

def insertPost (db : Site) (draft : Post) : Except Refusal (Post × Site) := do
  let p := { draft with id := db.nextPostId }
  let posts ← executed (if refersToRows db none p then db.posts.insert p else none)
  return (p, { db with posts := posts, nextPostId := db.nextPostId + 1 })

def savePost (db : Site) (before entity : Post) : Except Refusal Site := do
  let posts ← executed
    (if refersToRows db (some before) entity then db.posts.replace entity else none)
  return { db with posts := posts }

/-! ### Posts -/

structure SavedPost where
  post : Post
  warnings : List String

def withWarnings (p : Post) : SavedPost := ⟨p, warnings p⟩

def createPost (env : NewsEnv) (db : Site) (now : ℕ) (today : String) (body : CreatePostDto) :
    Except Refusal (SavedPost × Site) := do
  let draft ← prepareCreate env db.posts db.assets now today body
  let (saved, db) ← insertPost db draft
  let redirects := match redirectFrom saved with
    | some livePath => clearRedirectsInto db.redirects livePath
    | none => db.redirects
  return (withWarnings saved, { db with redirects := redirects })

/-- A redirect from a path its row has left. -/
def recordRedirect (db : Site) (fromPath toPath : String) : Except Refusal Site := do
  let redirects := deleteFrom (repoint db.redirects toPath fromPath) fromPath
  let (_, db) ← insertRedirect { db with redirects := redirects } fromPath toPath 301
  return db

/-- Only a row that was published leaves a redirect. -/
def leaveRedirect (db : Site) (before : Post) (toPath : String) : Except Refusal Site :=
  match redirectFrom before with
  | some fromPath =>
    if before.isPublished ∧ fromPath ≠ toPath then recordRedirect db fromPath toPath else .ok db
  | none => .ok db

def saveWithRedirect (db : Site) (before entity : Post) : Except Refusal Site :=
  if before.slug = "" ∨ entity.slug = "" ∨ before.slug = entity.slug then savePost db before entity
  else
    match redirectFrom entity with
    | none => savePost db before entity
    | some toPath => do
      let db ← savePost db before entity
      let db ← leaveRedirect db before toPath
      return { db with redirects := clearRedirectsInto db.redirects toPath }

def updatePost (env : NewsEnv) (db : Site) (today id : String) (body : UpdatePostDto) :
    Except Refusal (SavedPost × Site) := do
  let (before, entity) ← prepareUpdate env db.posts db.assets today id body
  let db ← saveWithRedirect db before entity
  return (withWarnings entity, db)

def publishPost (env : NewsEnv) (db : Site) (today id : String) (dto : PublishDto) :
    Except Refusal (SavedPost × Site) := do
  let (before, entity) ← preparePublish env db.posts today id dto
  let db ← savePost db before entity
  return (withWarnings entity, db)

/-- No table refers to a post, so that its row can always be deleted. -/
def removePost (env : NewsEnv) (db : Site) (id : String) : Except Refusal Site := do
  let entity ← findPost env db.posts id
  return { db with posts := db.posts.deleteWhere (·.id = entity.id) }

/-- The number of rows and the tables. -/
def deleteLegacy (db : Site) : ℕ × Site :=
  ((db.posts.rows.filter (·.isLegacy)).length,
    { db with posts := db.posts.deleteWhere (·.isLegacy) })

/-! ### Redirects by hand -/

structure CreateRedirectDto where
  fromPath : String
  toPath : String
  statusCode : Option ℕ := none

structure UpdateRedirectDto where
  fromPath : Option String := none
  toPath : Option String := none
  statusCode : Option ℕ := none

/-- `SITE_PATH_RE`: one slash, not two, and no white space or backslash. -/
def isSitePath (s : String) : Bool :=
  match s.toList with
  | '/' :: rest => rest.head? ≠ some '/' && rest.all fun c => !isWhiteSpace c && c ≠ '\\'
  | _ => false

def sitePath (s : String) : Option String := (trimmed 2 255 s).filter isSitePath

def statusCodeSchema (n : ℕ) : Option ℕ := if n = 301 ∨ n = 302 then some n else none

def createRedirectSchema (body : CreateRedirectDto) : Option CreateRedirectDto := do
  let fromPath ← sitePath body.fromPath
  let toPath ← sitePath body.toPath
  let statusCode ← optional statusCodeSchema body.statusCode
  if fromPath ≠ toPath then return ⟨fromPath, toPath, statusCode⟩ else none

def updateRedirectSchema (body : UpdateRedirectDto) : Option UpdateRedirectDto := do
  let fromPath ← optional sitePath body.fromPath
  let toPath ← optional sitePath body.toPath
  let statusCode ← optional statusCodeSchema body.statusCode
  return ⟨fromPath, toPath, statusCode⟩

/-- A redirect must land on a real page in one hop. -/
def assertNoChain (redirects : RedirectTable) (selfId : Option String) (fromPath toPath : String) :
    Except Problem Unit :=
  let others := (redirects.rows.filter fun r =>
    r.fromPath = toPath || r.toPath = fromPath || r.fromPath = fromPath).filter fun r =>
      some (toString r.id) ≠ selfId
  if others.any fun r => r.fromPath = fromPath then
    .error ⟨409, .redirectChain, "A redirect from " ++ fromPath ++ " already exists", [], []⟩
  else if others ≠ [] then
    .error ⟨409, .redirectChain, "Redirects must not chain — point the redirect at the final page",
      [], []⟩
  else .ok ()

def findRedirect (env : NewsEnv) (redirects : RedirectTable) (id : String) : Option Redirect :=
  (env.sql.rowId id).bind redirects.find

def createRedirect (db : Site) (body : CreateRedirectDto) : Except Refusal (Redirect × Site) := do
  let dto ← validated (createRedirectSchema body)
  checked (assertNoChain db.redirects none dto.fromPath dto.toPath)
  insertRedirect db dto.fromPath dto.toPath (dto.statusCode.getD 301)

/-- The check of a redirect that is there, before the kernel looks for it. -/
def assertUpdate (redirects : RedirectTable) (current : Option Redirect) (id : String)
    (dto : UpdateRedirectDto) : Except Problem Unit :=
  match current with
  | none => .ok ()
  | some current =>
    let fromPath := dto.fromPath.getD current.fromPath
    let toPath := dto.toPath.getD current.toPath
    if fromPath = toPath then
      .error ⟨400, .validationFailed, "fromPath and toPath must differ", [], []⟩
    else assertNoChain redirects (some id) fromPath toPath

def updateRedirect (env : NewsEnv) (db : Site) (id : String) (body : UpdateRedirectDto) :
    Except Refusal (Redirect × Site) := do
  let dto ← validated (updateRedirectSchema body)
  checked (assertUpdate db.redirects (findRedirect env db.redirects id) id dto)
  match findRedirect env db.redirects id with
  | none => .error (.problem notFound)
  | some current =>
    let entity : Redirect := { current with
      fromPath := dto.fromPath.getD current.fromPath
      toPath := dto.toPath.getD current.toPath
      statusCode := dto.statusCode.getD current.statusCode }
    let redirects ← executed (db.redirects.replace entity)
    return (entity, { db with redirects := redirects })

def removeRedirect (env : NewsEnv) (db : Site) (id : String) : Except Refusal Site :=
  match findRedirect env db.redirects id with
  | none => .error (.problem notFound)
  | some current => .ok { db with redirects := db.redirects.deleteWhere (·.id = current.id) }

/-! ### One request after another -/

/-- `elsewhere` is what other requests do to the rows that posts refer to. -/
inductive PostRequest where
  | create (now : ℕ) (today : String) (body : CreatePostDto)
  | update (today id : String) (body : UpdatePostDto)
  | publish (today id : String) (dto : PublishDto)
  | remove (id : String)
  | removeLegacy
  | elsewhere (categories : List ℕ) (assets : List MediaAsset)

inductive RedirectRequest where
  | create (body : CreateRedirectDto)
  | update (id : String) (body : UpdateRedirectDto)
  | remove (id : String)

def PostRequest.handle (env : NewsEnv) (db : Site) : PostRequest → Except Refusal Site
  | .create now today body => (createPost env db now today body).map Prod.snd
  | .update today id body => (updatePost env db today id body).map Prod.snd
  | .publish today id dto => (publishPost env db today id dto).map Prod.snd
  | .remove id => removePost env db id
  | .removeLegacy => .ok (deleteLegacy db).2
  | .elsewhere categories assets => .ok { db with categories := categories, assets := assets }

def RedirectRequest.handle (env : NewsEnv) (db : Site) : RedirectRequest → Except Refusal Site
  | .create body => (createRedirect db body).map Prod.snd
  | .update id body => (updateRedirect env db id body).map Prod.snd
  | .remove id => removeRedirect env db id

/-- A refused request leaves the tables as they are. -/
def settle (db : Site) : Except Refusal Site → Site
  | .ok db' => db'
  | .error _ => db

end SafeerApi.Redirects
