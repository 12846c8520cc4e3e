import SafeerApi.Lib.Reach
import SafeerApi.Media.Upload

/-!
# The media library (`media.service.ts`, `local-storage.driver.ts`)

Uploads and removals take their steps in any order: storage calls, statements and commits. Files and
rows cannot be written together, so an upload stores its files before it inserts their rows, and a
removal deletes its row before the files. Any step may fail, and the process may end at any point.
-/

namespace SafeerApi.Media

open Common Lib
open Crud (MediaAssetKind)

/-! ### Requests -/

inductive UploadOutcome where
  | returned (asset : MediaAsset) (wasExisting : Bool)
  | refused (problem : Problem)
  | failed

/-- Where an upload is. `left` is what it has still to do, `written` what it has stored. -/
inductive UploadStage where
  | received
  | checked (detected : FileType) (kind : MediaAssetKind)
  | absent (detected : FileType) (kind : MediaAssetKind)
  | storing (d : Draft) (left : List (String × Buffer)) (written : List String)
  -- in the transaction, with the asset's row inserted
  | saving (d : Draft) (id : ℕ) (left : List MediaVariant) (written : List String)
  | cleaning (d : Draft) (left : List String) (duplicate : Bool)
  | ended (outcome : UploadOutcome)

inductive RemoveOutcome where
  | removed (asset : MediaAsset)
  | refused (problem : Problem)
  | failed

/-- Where a removal is. -/
inductive RemoveStage where
  | received
  | found (asset : MediaAsset)
  | unused (asset : MediaAsset)
  | loaded (asset : MediaAsset) (variants : List MediaVariant)
  | deleting (asset : MediaAsset) (left : List String)
  | ended (outcome : RemoveOutcome)

inductive Job where
  | upload (x : Upload) (stage : UploadStage)
  | remove (id : String) (stage : RemoveStage)

def Job.ended : Job → Bool
  | .upload _ (.ended _) | .remove _ (.ended _) => true
  | _ => false

/-- The rows, the stored files, and where every request is. `locked` says which transaction has
inserted a row with a checksum and not yet ended: a second insertion of the checksum waits for it.
Row ids and public ids are given out once. -/
structure World where
  media : MediaTables
  nextId : ℕ
  locked : String → Option ℕ
  files : String → Option Buffer
  usedIds : List String
  jobs : ℕ → Option Job

def World.init : World where
  media := .empty
  nextId := 1
  locked := fun _ => none
  files := fun _ => none
  usedIds := []
  jobs := fun _ => none

def World.setJob (w : World) (r : ℕ) (job : Job) : World :=
  { w with jobs := Function.update w.jobs r (some job) }

/-! ### Storage -/

/-- `StorageDriver.put` -/
def put (files : String → Option Buffer) (key : String) (buffer : Buffer) : String → Option Buffer :=
  Function.update files key (some buffer)

/-- `StorageDriver.remove`, which does not say whether it could. -/
def remove (files : String → Option Buffer) (key : String) (removed : Bool) :
    String → Option Buffer :=
  if removed then Function.update files key none else files

/-- The file a request is putting. -/
def putting : Option Job → Option String
  | some (.upload _ (.storing _ ((key, _) :: _) _)) => some key
  | _ => none

/-- What a crash leaves of the files that were being put. -/
def tear (jobs : ℕ → Option Job) (files : String → Option Buffer) :
    List (ℕ × Buffer) → String → Option Buffer
  | [] => files
  | (r, buffer) :: torn =>
    match putting (jobs r) with
    | some key => tear jobs (put files key buffer) torn
    | none => tear jobs files torn

/-! ### Steps -/

inductive Action where
  | arriveUpload (r : ℕ) (x : Upload)
  | check (r : ℕ)
  | findExisting (r : ℕ)
  | process (r : ℕ) (publicId : String) (year month : ℕ)
  | put (r : ℕ)
  | saveAsset (r : ℕ)
  | saveVariant (r : ℕ)
  | commit (r : ℕ)
  | clean (r : ℕ) (key : String) (removed : Bool)
  | settle (r : ℕ)
  | arriveRemove (r : ℕ) (id : String)
  | findById (r : ℕ)
  | findUsages (r : ℕ) (usages : List Usage)
  | findVariants (r : ℕ)
  | removeRow (r : ℕ)
  | delete (r : ℕ) (removed : Bool)
  | fail (r : ℕ)
  | crash (torn : List (ℕ × Buffer))

/-- One step of an upload, but for those that fail. -/
def uploadStep (env : MediaEnv) (w : World) (r : ℕ) (x : Upload) :
    UploadStage → Action → Option World
  | .received, .check _ =>
    match Media.check env x.buffer with
    | .error p => some (w.setJob r (.upload x (.ended (.refused p))))
    | .ok (detected, kind) => some (w.setJob r (.upload x (.checked detected kind)))
  | .checked detected kind, .findExisting _ =>
    match w.media.assets.lookup (env.sha256 x.buffer) with
    | some existing => some (w.setJob r (.upload x (.ended (.returned existing true))))
    | none => some (w.setJob r (.upload x (.absent detected kind)))
  | .absent detected kind, .process _ publicId year month =>
    match Media.process env x.buffer detected kind with
    | .error p => some (w.setJob r (.upload x (.ended (.refused p))))
    | .ok p =>
      if isUuid publicId ∧ publicId ∉ w.usedIds then
        let d := draftOf env x detected kind p (dirOf year month) publicId
        some ({ w with usedIds := publicId :: w.usedIds }.setJob r (.upload x (.storing d d.puts [])))
      else none
  | .storing d ((key, buffer) :: left) written, .put _ =>
    some ({ w with files := Media.put w.files key buffer }.setJob r
      (.upload x (.storing d left (written ++ [key]))))
  | .storing d [] written, .saveAsset _ =>
    match w.media.assets.lookup d.asset.checksumSha256, w.locked d.asset.checksumSha256 with
    | some _, _ => some (w.setJob r (.upload x (.cleaning d written true)))
    | none, some _ => none
    | none, none => some ({ w with
        nextId := w.nextId + 1
        locked := Function.update w.locked d.asset.checksumSha256 (some r) }.setJob r
          (.upload x (.saving d w.nextId (d.variantRows w.nextId) written)))
  | .saving d id (_ :: left) written, .saveVariant _ =>
    some (w.setJob r (.upload x (.saving d id left written)))
  | .saving d id [] _, .commit _ =>
    match w.media.assets.insert (d.row id) with
    | none => none
    | some assets => some ({ w with
        media := ⟨assets, w.media.variants ++ d.variantRows id⟩
        locked := Function.update w.locked d.asset.checksumSha256 none }.setJob r
          (.upload x (.ended (.returned (d.row id) false))))
  -- the files are deleted side by side
  | .cleaning d left duplicate, .clean _ key removed =>
    if key ∈ left then
      some ({ w with files := Media.remove w.files key removed }.setJob r
        (.upload x (.cleaning d (left.erase key) duplicate)))
    else none
  | .cleaning _ [] false, .settle _ => some (w.setJob r (.upload x (.ended .failed)))
  | .cleaning _ [] true, .settle _ =>
    match w.media.assets.lookup (env.sha256 x.buffer) with
    | some winner => some (w.setJob r (.upload x (.ended (.returned winner true))))
    | none => some (w.setJob r (.upload x (.ended .failed)))
  | _, _ => none

/-- The step an upload is about to take fails. A transaction that fails is rolled back. -/
def uploadFail (w : World) (r : ℕ) (x : Upload) : UploadStage → Option World
  | .received | .checked _ _ | .cleaning _ [] _ => some (w.setJob r (.upload x (.ended .failed)))
  | .absent _ _ => some (w.setJob r (.upload x (.ended (.refused (imageProblem .other)))))
  | .storing d _ written => some (w.setJob r (.upload x (.cleaning d written false)))
  | .saving d _ _ written =>
    some ({ w with locked := Function.update w.locked d.asset.checksumSha256 none }.setJob r
      (.upload x (.cleaning d written false)))
  | _ => none

def inUse (usages : List Usage) : Problem := ⟨409, .assetInUse, "File is in use", [], usages⟩

/-- One step of a removal, but for those that fail. -/
def removeStep (env : MediaEnv) (w : World) (r : ℕ) (id : String) :
    RemoveStage → Action → Option World
  | .received, .findById _ =>
    match (env.sql.rowId id).bind w.media.assets.find with
    | none => some (w.setJob r (.remove id
        (.ended (.refused ⟨404, .notFound, "File not found", [], []⟩))))
    | some asset => some (w.setJob r (.remove id (.found asset)))
  | .found asset, .findUsages _ [] => some (w.setJob r (.remove id (.unused asset)))
  | .found _, .findUsages _ usages =>
    some (w.setJob r (.remove id (.ended (.refused (inUse usages)))))
  | .unused asset, .findVariants _ =>
    some (w.setJob r (.remove id
      (.loaded asset (w.media.variants.filter fun v => v.assetId = asset.id))))
  -- `ON DELETE CASCADE` on `fk_variant_asset`
  | .loaded asset variants, .removeRow _ =>
    some ({ w with media := ⟨w.media.assets.deleteWhere fun a => a.id = asset.id,
        w.media.variants.filter fun v => v.assetId ≠ asset.id⟩ }.setJob r
      (.remove id (.deleting asset (asset.storageKey :: variants.map MediaVariant.storageKey))))
  | .deleting asset [key], .delete _ removed =>
    some ({ w with files := Media.remove w.files key removed }.setJob r
      (.remove id (.ended (.removed asset))))
  | .deleting asset (key :: left), .delete _ removed =>
    some ({ w with files := Media.remove w.files key removed }.setJob r
      (.remove id (.deleting asset left)))
  | _, _ => none

def removeFail (w : World) (r : ℕ) (id : String) : RemoveStage → Option World
  | .received | .found _ | .unused _ | .loaded _ _ => some (w.setJob r (.remove id (.ended .failed)))
  | _ => none

/-- Whose step it is. -/
def Action.job : Action → Option ℕ
  | .arriveUpload r _ | .check r | .findExisting r | .process r _ _ _ | .put r | .saveAsset r
  | .saveVariant r | .commit r | .clean r _ _ | .settle r | .arriveRemove r _ | .findById r
  | .findUsages r _ | .findVariants r | .removeRow r | .delete r _ | .fail r => some r
  | .crash _ => none

def jobStep (env : MediaEnv) (w : World) (r : ℕ) (a : Action) : Option World :=
  match w.jobs r, a with
  | none, .arriveUpload _ x => some (w.setJob r (.upload x .received))
  | none, .arriveRemove _ id => some (w.setJob r (.remove id .received))
  | some (.upload x stage), .fail _ => uploadFail w r x stage
  | some (.remove id stage), .fail _ => removeFail w r id stage
  | some (.upload x stage), a => uploadStep env w r x stage a
  | some (.remove id stage), a => removeStep env w r id stage a
  | none, _ => none

def step (env : MediaEnv) (w : World) (a : Action) : Option World :=
  match a, a.job with
  | .crash torn, _ => some { w with
      locked := fun _ => none
      files := tear w.jobs w.files torn
      jobs := fun _ => none }
  | _, none => none
  | _, some r => jobStep env w r a

end SafeerApi.Media
