import SafeerApi.Crud.Kernel
import SafeerApi.Lib.UniqueTable
import SafeerApi.Public.Lists

/-!
# Media rows (`media-asset.entity.ts`, `media-variant.entity.ts`)

A row names the stored file of an original, or of one of the smaller images made from it.
-/

namespace SafeerApi.Media

open Lib

inductive VariantLabel where
  | thumb
  | card
  | full
  deriving DecidableEq, Repr

def VariantLabel.name : VariantLabel → String
  | .thumb => "thumb"
  | .card => "card"
  | .full => "full"

/-- The columns the kernel reads, and the others. -/
structure MediaAsset extends Crud.MediaAsset where
  publicId : String
  mimeType : String
  sizeBytes : ℕ
  originalName : String
  storageKey : String
  checksumSha256 : String
  widthPx : Option ℕ := none
  heightPx : Option ℕ := none
  altEn : Option String := none
  uploadedBy : Option ℕ := none
  deriving DecidableEq, Repr

structure MediaVariant where
  assetId : ℕ
  label : VariantLabel
  storageKey : String
  widthPx : ℕ
  sizeBytes : ℕ
  deriving DecidableEq, Repr

/-- `uq_assets_checksum` -/
abbrev MediaAssets := UniqueTable (fun asset : MediaAsset => asset.id) MediaAsset.checksumSha256

structure MediaTables where
  assets : MediaAssets
  variants : List MediaVariant

def MediaTables.empty : MediaTables := ⟨.empty, []⟩

/-- `MediaService.findByPublicId` -/
def MediaTables.findByPublicId (coll : Public.Collation) (media : MediaTables)
    (publicId : String) : Option MediaAsset :=
  media.assets.rows.find? fun asset => coll.eq asset.publicId publicId

/-- `MediaService.findVariant` -/
def MediaTables.findVariant (coll : Public.Collation) (media : MediaTables) (assetId : ℕ)
    (label : String) : Option MediaVariant :=
  media.variants.find? fun v => v.assetId = assetId && coll.eq v.label.name label

end SafeerApi.Media
