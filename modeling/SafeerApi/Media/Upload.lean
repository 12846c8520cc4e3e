import SafeerApi.Common.Problem
import SafeerApi.Common.SqlNumeric
import SafeerApi.Media.Assets

/-!
# Uploads (`media.service.ts`, `image-pipeline.ts`)

What an upload makes of its bytes before it stores anything: the checks, the images, the rows it will
insert and the files they name. The files of an upload are told from those of every other one by its
public id.
-/

namespace SafeerApi.Media

open Common
open Crud (MediaAssetKind)

abbrev Buffer := List UInt8

/-! ### Images -/

inductive ImageFormat where
  | png
  | webp (quality : ℕ)
  | avif (quality : ℕ)
  | jpeg (quality : ℕ)
  deriving DecidableEq, Repr

structure Encoded where
  data : Buffer
  width : ℕ
  height : ℕ

inductive SharpError where
  | inputExceedsPixelLimit
  | other
  deriving DecidableEq, Repr

/-- What the image library makes of the first page of a file, turned upright, when it is given a
limit on the pixels. -/
structure Sharp where
  /-- In its own format. -/
  keep : ℕ → Buffer → Except SharpError Encoded
  encode : ℕ → ImageFormat → Buffer → Except SharpError Encoded
  /-- Scaled down to a width, as WebP. -/
  resize : ℕ → ℕ → Buffer → Except SharpError Encoded

structure ImageVariant where
  label : VariantLabel
  width : ℕ
  buffer : Buffer

structure ImagePipelineResult where
  width : ℕ
  height : ℕ
  variants : List ImageVariant

def variantSpecs : List (VariantLabel × ℕ) := [(.thumb, 400), (.card, 800), (.full, 1600)]

def maxInputPixels : ℕ := 50000000

def webpVariant (sharp : Sharp) (original : Buffer) (spec : VariantLabel × ℕ) :
    Except SharpError ImageVariant := do
  let out ← sharp.resize maxInputPixels spec.2 original
  return ⟨spec.1, out.width, out.data⟩

def generateWebpVariants (sharp : Sharp) (original : Buffer) :
    Except SharpError ImagePipelineResult := do
  let info ← sharp.keep maxInputPixels original
  let variants ← variantSpecs.mapM (webpVariant sharp original)
  return ⟨info.width, info.height, variants⟩

def formatOf (mime : String) : ImageFormat :=
  if mime = "image/png" then .png
  else if mime = "image/webp" then .webp 90
  else if mime = "image/avif" then .avif 70
  else .jpeg 90

def normalizeOriginal (sharp : Sharp) (original : Buffer) (mime : String) :
    Except SharpError Encoded :=
  sharp.encode maxInputPixels (formatOf mime) original

/-! ### Checks -/

structure FileType where
  ext : String
  mime : String
  deriving DecidableEq, Repr

/-- The libraries, and how the database reads an id. A file's extension is no path. -/
structure MediaEnv where
  sql : SqlNumeric
  fileTypeFromBuffer : Buffer → Option FileType
  sharp : Sharp
  sha256 : Buffer → String
  ext_plain : ∀ buffer detected, fileTypeFromBuffer buffer = some detected →
    '/' ∉ detected.ext.toList

structure Upload where
  buffer : Buffer
  originalName : String
  uploadedBy : Option ℕ
  altAr : Option String := none
  deriving DecidableEq, Repr

def allowedImageMime : List String := ["image/jpeg", "image/png", "image/webp", "image/avif"]

def classify (mime : String) : Option MediaAssetKind :=
  if mime ∈ allowedImageMime then some .image
  else if mime = "application/pdf" then some .pdf
  else none

def maxBytes : MediaAssetKind → ℕ
  | .image => 5 * 1024 * 1024
  | .pdf => 10 * 1024 * 1024

def tooLarge (kind : MediaAssetKind) : Problem :=
  ⟨400, .validationFailed, "File exceeds the " ++ toString (maxBytes kind / (1024 * 1024)) ++
    " MB limit for " ++ (if kind = .image then "images" else "PDFs"), [], []⟩

/-- The sniff, the allow-list and the size. -/
def check (env : MediaEnv) (buffer : Buffer) : Except Problem (FileType × MediaAssetKind) :=
  match env.fileTypeFromBuffer buffer with
  | none => .error ⟨400, .validationFailed, "Unsupported file type", [], []⟩
  | some detected =>
    match classify detected.mime with
    | none => .error ⟨400, .validationFailed, "Unsupported file type", [], []⟩
    | some kind =>
      if buffer.length > maxBytes kind then .error (tooLarge kind) else .ok (detected, kind)

def maxDimensionPx : ℕ := 65535

/-- What `sharp` throws, as the file's fault. -/
def imageProblem : SharpError → Problem
  | .inputExceedsPixelLimit => ⟨422, .validationFailed, "Image is too large to process " ++
      "(over the 50-megapixel limit) — please downscale it and try again.", [], []⟩
  | .other => ⟨422, .validationFailed,
      "The image could not be decoded — it may be corrupt or truncated", [], []⟩

structure Processed where
  body : Buffer
  widthPx : Option ℕ
  heightPx : Option ℕ
  variants : List ImageVariant

/-- The original as it is stored, and the smaller images of a picture. -/
def process (env : MediaEnv) (buffer : Buffer) (detected : FileType) :
    MediaAssetKind → Except Problem Processed
  | .pdf => .ok ⟨buffer, none, none, []⟩
  | .image =>
    match normalizeOriginal env.sharp buffer detected.mime with
    | .error e => .error (imageProblem e)
    | .ok normalized =>
      if normalized.width > maxDimensionPx ∨ normalized.height > maxDimensionPx then
        .error ⟨422, .validationFailed, "Image dimensions exceed the " ++ toString maxDimensionPx ++
          "px limit per side", [], []⟩
      else
        match generateWebpVariants env.sharp normalized.data with
        | .error e => .error (imageProblem e)
        | .ok result => .ok {
            body := normalized.data
            widthPx := if normalized.width = 0 then none else some normalized.width
            heightPx := if normalized.height = 0 then none else some normalized.height
            variants := result.variants }

/-! ### Rows and files -/

/-- `randomUUID()` -/
def isUuid (s : String) : Bool :=
  s.length = 36 && s.toList.all fun c => c.isDigit || ('a' ≤ c && c ≤ 'f') || c = '-'

def dirOf (year month : ℕ) : String :=
  "assets/" ++ toString year ++ "/" ++ (if month < 10 then "0" else "") ++ toString month

def originalKey (dir publicId ext : String) : String := dir ++ "/" ++ publicId ++ "." ++ ext

def variantKey (dir publicId : String) (label : VariantLabel) : String :=
  dir ++ "/" ++ publicId ++ "-" ++ label.name ++ ".webp"

/-- The rows an upload will insert, each with its file. The insertions set the ids. -/
structure Draft where
  asset : MediaAsset
  body : Buffer
  images : List (MediaVariant × Buffer)

def draftOf (env : MediaEnv) (x : Upload) (detected : FileType) (kind : MediaAssetKind)
    (p : Processed) (dir publicId : String) : Draft where
  asset :=
    { id := 0
      kind := kind
      altAr := x.altAr
      publicId := publicId
      mimeType := detected.mime
      sizeBytes := p.body.length
      originalName := x.originalName
      storageKey := originalKey dir publicId detected.ext
      checksumSha256 := env.sha256 x.buffer
      widthPx := p.widthPx
      heightPx := p.heightPx
      altEn := none
      uploadedBy := x.uploadedBy }
  body := p.body
  images := p.variants.map fun v =>
    (⟨0, v.label, variantKey dir publicId v.label, v.width, v.buffer.length⟩, v.buffer)

/-- What is put, in order. -/
def Draft.puts (d : Draft) : List (String × Buffer) :=
  (d.asset.storageKey, d.body) :: d.images.map fun image => (image.1.storageKey, image.2)

/-- The row of the original with the id its insertion gave it. -/
def Draft.row (d : Draft) (id : ℕ) : MediaAsset := { d.asset with id := id }

/-- The rows of the smaller images. -/
def Draft.variantRows (d : Draft) (assetId : ℕ) : List MediaVariant :=
  d.images.map fun image => { image.1 with assetId := assetId }

/-- The upload that makes a file is the one of this public id. -/
def keyOwner (key : String) : String :=
  String.ofList ((key.toList.reverse.takeWhile (· ≠ '/')).reverse.take 36)

/-- The draft of some bytes that passed every check: a row that says what was sent and what it was
found to be, the bytes that came out of the processing, and of each smaller image that came with them
a row and its bytes. -/
structure DraftOf (env : MediaEnv) (x : Upload) (d : Draft) : Prop where
  made : ∃ detected kind p year month publicId, check env x.buffer = .ok (detected, kind) ∧
    process env x.buffer detected kind = .ok p ∧ isUuid publicId = true ∧
    d.asset = {
      id := 0, kind := kind, altAr := x.altAr, publicId := publicId, mimeType := detected.mime
      sizeBytes := p.body.length, originalName := x.originalName
      storageKey := dirOf year month ++ "/" ++ publicId ++ "." ++ detected.ext
      checksumSha256 := env.sha256 x.buffer, widthPx := p.widthPx, heightPx := p.heightPx
      altEn := none, uploadedBy := x.uploadedBy } ∧
    d.body = p.body ∧
    d.images.map Prod.snd = p.variants.map (·.buffer) ∧
    d.images.map Prod.fst = p.variants.map fun v => {
      assetId := 0, label := v.label
      storageKey := dirOf year month ++ "/" ++ publicId ++ "-" ++ v.label.name ++ ".webp"
      widthPx := v.width, sizeBytes := v.buffer.length }

/-! ### The files of a draft -/

lemma takeWhile_segment {dir id rest : List Char} (hid : '/' ∉ id) (hrest : '/' ∉ rest) :
    ((dir ++ '/' :: (id ++ rest)).reverse.takeWhile (· ≠ '/')).reverse = id ++ rest := by
  have hfree : ∀ c ∈ (id ++ rest).reverse, (decide (c ≠ '/')) = true := by
    intro c hc
    rw [List.mem_reverse, List.mem_append] at hc
    rw [decide_eq_true_eq]
    rintro rfl
    exact hc.elim hid hrest
  rw [List.reverse_append, List.reverse_cons, List.append_assoc, List.takeWhile_append_of_pos hfree]
  simp

/-- A key says whose file it is. -/
lemma keyOwner_segment {dir id rest : String} (hid : isUuid id = true)
    (hrest : '/' ∉ rest.toList) : keyOwner (dir ++ "/" ++ id ++ rest) = id := by
  simp only [isUuid, Bool.and_eq_true, decide_eq_true_eq, List.all_eq_true, Bool.or_eq_true] at hid
  obtain ⟨hlength, hchars⟩ := hid
  have hslash : '/' ∉ id.toList := by
    intro hmem
    have := hchars '/' hmem
    revert this
    decide
  have hkey : (dir ++ "/" ++ id ++ rest).toList
      = dir.toList ++ '/' :: (id.toList ++ rest.toList) := by
    simp [String.toList_append]
  have hlist : id.toList.length = 36 := by rw [String.length_toList, hlength]
  rw [keyOwner, hkey, takeWhile_segment hslash hrest, List.take_append_of_le_length hlist.ge,
    List.take_of_length_le hlist.le, String.ofList_toList]

lemma mapM_webpVariant {sharp : Sharp} {original : Buffer} {specs : List (VariantLabel × ℕ)}
    {variants : List ImageVariant} (h : specs.mapM (webpVariant sharp original) = .ok variants) :
    variants.map (·.label) = specs.map Prod.fst := by
  induction specs generalizing variants with
  | nil =>
    cases h
    rfl
  | cons spec specs ih =>
    rw [List.mapM_cons] at h
    obtain ⟨v, hv, h⟩ := bind_eq_ok h
    obtain ⟨vs, hvs, h⟩ := bind_eq_ok h
    obtain ⟨out, -, hv⟩ := bind_eq_ok hv
    cases hv
    cases h
    simp only [List.map_cons, ih hvs]

lemma generateWebpVariants_labels {sharp : Sharp} {original : Buffer} {result : ImagePipelineResult}
    (h : generateWebpVariants sharp original = .ok result) :
    result.variants.map (·.label) = variantSpecs.map Prod.fst := by
  obtain ⟨info, -, h⟩ := bind_eq_ok h
  obtain ⟨variants, hvariants, h⟩ := bind_eq_ok h
  cases h
  exact mapM_webpVariant hvariants

/-- The images of an upload have labels of their own. -/
lemma process_labels {env : MediaEnv} {buffer : Buffer} {detected : FileType}
    {kind : MediaAssetKind} {p : Processed} (h : process env buffer detected kind = .ok p) :
    (p.variants.map (·.label)).Nodup := by
  cases kind with
  | pdf =>
    cases h
    exact List.nodup_nil
  | image =>
    simp only [process] at h
    split at h
    · cases h
    · split at h
      · cases h
      · split at h
        · cases h
        · next hresult =>
          cases h
          rw [generateWebpVariants_labels hresult]
          decide

lemma variantKey_inj {dir publicId : String} {label label' : VariantLabel}
    (h : variantKey dir publicId label = variantKey dir publicId label') : label = label' := by
  have h := congrArg String.toList h
  simp only [variantKey, String.toList_append, List.append_assoc, List.append_cancel_left_eq] at h
  revert h
  cases label <;> cases label' <;> decide

lemma originalKey_ne_variantKey {dir publicId ext : String} {label : VariantLabel} :
    originalKey dir publicId ext ≠ variantKey dir publicId label := by
  intro h
  have h := congrArg String.toList h
  simp only [originalKey, variantKey, String.toList_append, List.append_assoc,
    List.append_cancel_left_eq] at h
  -- one goes on with a dot, the other with a hyphen
  exact absurd (congrArg List.head? h) (by simp)

section Draft

variable {env : MediaEnv} {x : Upload} {d : Draft}

lemma Draft.keys_eq (d : Draft) :
    d.puts.map Prod.fst = d.asset.storageKey :: d.images.map fun image => image.1.storageKey := by
  simp [Draft.puts, Function.comp_def]

/-- The draft is what the upload builds. -/
lemma DraftOf.exists_eq (h : DraftOf env x d) :
    ∃ detected kind p year month publicId, check env x.buffer = .ok (detected, kind) ∧
      process env x.buffer detected kind = .ok p ∧ isUuid publicId = true ∧
      d = draftOf env x detected kind p (dirOf year month) publicId := by
  obtain ⟨detected, kind, p, year, month, publicId, hcheck, hprocess, hid, hasset, hbody, hbuffers,
    hrows⟩ := h.made
  refine ⟨detected, kind, p, year, month, publicId, hcheck, hprocess, hid, ?_⟩
  have himages := List.zip_of_prod hrows hbuffers
  obtain ⟨asset, body, images⟩ := d
  cases hasset
  cases hbody
  cases himages
  simp [draftOf, originalKey, variantKey]

lemma draftOf_drafted {detected : FileType} {kind : MediaAssetKind} {p : Processed}
    {publicId : String} (hcheck : check env x.buffer = .ok (detected, kind))
    (hprocess : process env x.buffer detected kind = .ok p) (hid : isUuid publicId = true)
    (year month : ℕ) : DraftOf env x (draftOf env x detected kind p (dirOf year month) publicId) :=
  ⟨detected, kind, p, year, month, publicId, hcheck, hprocess, hid, rfl, rfl,
    by simp [draftOf, Function.comp_def],
    by simp [draftOf, variantKey, Function.comp_def]⟩

/-- All files of a draft are its own. -/
lemma DraftOf.owner (h : DraftOf env x d) {key : String} (hkey : key ∈ d.puts.map Prod.fst) :
    keyOwner key = d.asset.publicId := by
  obtain ⟨detected, kind, p, year, month, publicId, hcheck, -, hid, rfl⟩ := h.exists_eq
  have hext : '/' ∉ detected.ext.toList := by
    simp only [check] at hcheck
    split at hcheck
    · cases hcheck
    · next hdetected =>
      split at hcheck
      · cases hcheck
      · split_ifs at hcheck
        cases hcheck
        exact env.ext_plain _ _ hdetected
  rw [Draft.keys_eq] at hkey
  rcases List.mem_cons.mp hkey with rfl | hkey
  · show keyOwner (originalKey _ publicId detected.ext) = publicId
    rw [originalKey, String.append_assoc]
    apply keyOwner_segment hid
    rw [String.toList_append, List.mem_append]
    exact fun hmem => hmem.elim (by decide) hext
  · simp only [draftOf, List.map_map, List.mem_map, Function.comp_apply] at hkey
    obtain ⟨v, -, rfl⟩ := hkey
    show keyOwner (variantKey _ publicId v.label) = publicId
    rw [variantKey, String.append_assoc, String.append_assoc]
    apply keyOwner_segment hid
    cases v.label <;> decide

/-- No file of a draft overwrites another. -/
lemma DraftOf.keys_nodup (h : DraftOf env x d) : (d.puts.map Prod.fst).Nodup := by
  obtain ⟨detected, kind, p, year, month, publicId, -, hprocess, -, rfl⟩ := h.exists_eq
  rw [Draft.keys_eq, List.nodup_cons]
  simp only [draftOf, List.map_map, Function.comp_def]
  constructor
  · intro hmem
    obtain ⟨v, -, hv⟩ := List.mem_map.mp hmem
    exact originalKey_ne_variantKey hv.symm
  · have hlabels := process_labels hprocess
    have hkeys : (p.variants.map fun v => variantKey (dirOf year month) publicId v.label)
        = (p.variants.map (·.label)).map (variantKey (dirOf year month) publicId) := by
      rw [List.map_map]
      rfl
    rw [hkeys]
    exact hlabels.map fun _ _ => variantKey_inj

end Draft

end SafeerApi.Media
