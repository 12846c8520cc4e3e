import SafeerApi.Common.Schema
import SafeerApi.Lib.DirtyWrite

/-!
# The settings row (`site-settings.entity.ts`, `site-settings.controller.ts`)

A single row. The settings form writes its own columns; the three licence columns are written
through by the licences.
-/

namespace SafeerApi.SiteSettings

open Common Lib

/-- The columns the DTO accepts. The coordinates of the map are numbers, in millionths. -/
inductive FormColumn where
  | orgNameAr | orgNameEn | taglineAr | taglineEn | footerBlurbAr | footerBlurbEn
  | rightsLineAr | rightsLineEn | phone | email | addressAr | addressEn
  | facebookUrl | instagramUrl | xUrl | youtubeUrl | linkedinUrl | whatsappUrl | tiktokUrl
  | mapEmbedUrl | mapLat | mapLng | enEnabled
  | seoTitleAr | seoTitleEn | seoDescriptionAr | seoDescriptionEn
  deriving DecidableEq, Repr

/-- The licence columns. -/
structure LicenceColumns where
  licenceNo : Option String
  licenceIssuerAr : Option String
  licenceIssuerEn : Option String
  deriving DecidableEq, Repr

/-- No licence is shown. -/
def LicenceColumns.cleared : LicenceColumns := ⟨none, none, none⟩

structure Settings where
  form : FormColumn → FieldValue
  licence : LicenceColumns
  updatedBy : Option ℕ

/-- A body of `PUT`: the form's columns that are present. -/
abbrev UpdateSiteSettingsDto := FormColumn → Option FieldValue

/-- `Object.assign(entity, dto)`, and who did it. -/
def Settings.assign (s : Settings) (dto : UpdateSiteSettingsDto) (userId : ℕ) : Settings where
  form c := (dto c).getD (s.form c)
  licence := s.licence
  updatedBy := some userId

def savedColumns (entity reread row : LicenceColumns) : LicenceColumns where
  licenceNo := saved entity.licenceNo reread.licenceNo row.licenceNo
  licenceIssuerAr := saved entity.licenceIssuerAr reread.licenceIssuerAr row.licenceIssuerAr
  licenceIssuerEn := saved entity.licenceIssuerEn reread.licenceIssuerEn row.licenceIssuerEn

/-- The row after the `UPDATE` of a save. -/
def savedSettings (entity reread row : Settings) : Settings where
  form c := saved (entity.form c) (reread.form c) (row.form c)
  licence := savedColumns entity.licence reread.licence row.licence
  updatedBy := saved entity.updatedBy reread.updatedBy row.updatedBy

/-- A save that re-reads the licence columns it loaded writes none of them. -/
lemma savedColumns_self (columns row : LicenceColumns) : savedColumns columns columns row = row := by
  simp [savedColumns]

end SafeerApi.SiteSettings
