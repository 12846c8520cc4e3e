import SafeerApi.Files.Content
import SafeerApi.Media.Assets
import SafeerApi.Public.NewsDetail

/-!
# The file routes (`files.controller.ts`)

`GET /files/:publicId` streams an original, `GET /files/:publicId/:variant` a smaller image. Both
ask the gate first. What the gate does between two queries is a function here; which answers it gets
is up to the run it is part of.
-/

namespace SafeerApi.Files

open Common Media Public

/-- What the handlers are given: the database's readings of texts, and the keys. -/
structure FilesEnv where
  coll : Collation
  sql : SqlNumeric
  preview : Accounts.PreviewEnv

/-- `variant` is absent when the original is asked for. -/
structure FileRequest where
  publicId : String
  variant : Option String
  query : Query
  signedIn : Bool

/-! ### The gate -/

inductive Gate where
  | allowPublic
  | allowPrivate
  | deny
  deriving DecidableEq, Repr

/-- `/^\d+$/` -/
def isDigits (s : String) : Bool := !s.isEmpty && s.toList.all Char.isDigit

/-- The post whose preview the query asks for, with a token that is valid for it. -/
def previewedPost (env : FilesEnv) (now : ℕ) (query : Query) : Option String := do
  let token ← truthy (readString query "preview")
  let postId ← truthy (readString query "post")
  if isDigits postId && Accounts.verifyPreviewToken env.preview now "posts" postId token then
    some postId
  else none

/-- Where the gate is once it knows whether the file is public: it has decided, or it asks whether
the post shows the file. -/
inductive Gating where
  | decided (gate : Gate)
  | asks (postId : String)
  deriving DecidableEq, Repr

/-- `gatePublication`, after `isPubliclyReadable`. -/
def gatePublication (env : FilesEnv) (now : ℕ) (x : FileRequest) (isPublic : Bool) : Gating :=
  if isPublic then .decided .allowPublic
  else if x.signedIn then .decided .allowPrivate
  else
    match previewedPost env now x.query with
    | none => .decided .deny
    | some postId => .asks postId

/-- `gatePublication`, after `isUsedByPost`. -/
def gatePreview (isUsed : Bool) : Gate := if isUsed then .allowPrivate else .deny

/-- Every way through the gate, but for a public file, is marked private. -/
lemma gatePublication_allowPublic {env : FilesEnv} {now : ℕ} {x : FileRequest} {isPublic : Bool}
    (h : gatePublication env now x isPublic = .decided .allowPublic) : isPublic = true := by
  simp only [gatePublication] at h
  split_ifs at h with hpublic hsigned
  · exact hpublic
  · cases h
  · split at h <;> cases h

/-- Without a session a file that is not public needs a token. -/
lemma gatePublication_anonymous {env : FilesEnv} {now : ℕ} {x : FileRequest} {gate : Gate}
    (hanonymous : x.signedIn = false) (h : gatePublication env now x false = .decided gate) :
    gate = .deny := by
  simp only [gatePublication, hanonymous, Bool.false_eq_true, if_false] at h
  split at h
  · cases h
    rfl
  · cases h

lemma gatePublication_asks {env : FilesEnv} {now : ℕ} {x : FileRequest} {isPublic : Bool}
    {postId : String} (h : gatePublication env now x isPublic = .asks postId) :
    previewedPost env now x.query = some postId := by
  simp only [gatePublication] at h
  split_ifs at h
  split at h
  · cases h
  · next id hpost =>
    cases h
    exact hpost

/-- A token is not valid at a later time than it was not valid at. -/
lemma previewedPost_earlier {env : FilesEnv} {now later : ℕ} (hle : now ≤ later) {query : Query}
    {postId : String} (h : previewedPost env later query = some postId) :
    previewedPost env now query = some postId := by
  simp only [previewedPost, Option.bind_eq_bind, Option.bind_eq_some_iff] at h ⊢
  obtain ⟨token, htoken, id, hid, h⟩ := h
  refine ⟨token, htoken, id, hid, ?_⟩
  split_ifs at h with hvalid
  rw [Bool.and_eq_true] at hvalid
  rw [if_pos, h]
  rw [Bool.and_eq_true]
  exact ⟨hvalid.1, Accounts.verifyPreviewToken_earlier hle hvalid.2⟩

/-! ### Responses -/

/-- `contentDisposition`. A character outside the basic plane is two code units, each replaced. -/
def contentDisposition (type filename : String) : String :=
  let kept := trim (String.ofList (filename.toList.filter fun c => c ∉ "\r\n\"\\".toList))
  let clean := (truthy (some kept)).getD "file"
  let ascii := String.join (clean.toList.map fun c =>
    if 0x20 ≤ c.toNat ∧ c.toNat ≤ 0x7e then c.toString
    else if c.toNat < 0x10000 then "_" else "__")
  let encoded := String.join ((encodeURIComponent clean).toList.map fun c =>
    if c ∈ "'()*".toList then hexByte (UInt8.ofNat c.toNat) else c.toString)
  type ++ "; filename=\"" ++ ascii ++ "\"; filename*=UTF-8''" ++ encoded

def originalCacheControl : String := "public, max-age=300, stale-while-revalidate=60"

def variantCacheControl : String := "public, max-age=31536000, immutable"

/-- What is streamed and under which headers. -/
structure SentFile where
  storageKey : String
  headers : List (String × String)
  deriving DecidableEq, Repr

/-- `sendFile`, up to the stream. -/
def sendFile (storageKey mimeType : String) (attachmentName : Option String) (isPrivate : Bool)
    (cacheControl : String) : SentFile where
  storageKey := storageKey
  headers := [("Content-Type", mimeType),
    ("Cache-Control", if isPrivate then "private, no-store" else cacheControl),
    ("X-Content-Type-Options", "nosniff")] ++
    (attachmentName.map fun name =>
      ("Content-Disposition", contentDisposition "attachment" name)).toList

/-- What a request that passed the gate is sent, when the variant it asks for exists. -/
def respond (env : FilesEnv) (media : MediaTables) (x : FileRequest) (asset : MediaAsset)
    (gate : Gate) : Option SentFile :=
  let isPrivate := gate = .allowPrivate
  match x.variant with
  | none =>
    some (sendFile asset.storageKey asset.mimeType
      (if asset.kind = .pdf then some asset.originalName else none) isPrivate originalCacheControl)
  | some variant =>
    (media.findVariant env.coll asset.id variant).map fun found =>
      sendFile found.storageKey "image/webp" none isPrivate variantCacheControl

lemma respond_private {env : FilesEnv} {media : MediaTables} {x : FileRequest} {asset : MediaAsset}
    {file : SentFile} (h : respond env media x asset .allowPrivate = some file) :
    ("Cache-Control", "private, no-store") ∈ file.headers := by
  simp only [respond] at h
  split at h
  · obtain rfl := Option.some.inj h
    simp [sendFile]
  · obtain ⟨found, -, rfl⟩ := Option.map_eq_some_iff.mp h
    simp [sendFile]

/-- A file that is not public is sent, if at all, with a header that lets nobody keep it. -/
lemma respond_not_public {env : FilesEnv} {now : ℕ} {media : MediaTables} {x : FileRequest}
    {asset : MediaAsset} {gate : Gate} {file : SentFile}
    (hgate : gatePublication env now x false = .decided gate ∨ ∃ isUsed, gate = gatePreview isUsed)
    (hallow : gate ≠ .deny) (h : respond env media x asset gate = some file) :
    ("Cache-Control", "private, no-store") ∈ file.headers := by
  cases gate with
  | allowPrivate => exact respond_private h
  | deny => exact absurd rfl hallow
  | allowPublic =>
    rcases hgate with hgate | ⟨isUsed, hgate⟩
    · cases gatePublication_allowPublic hgate
    · cases isUsed <;> cases hgate

end SafeerApi.Files
