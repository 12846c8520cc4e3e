import SafeerApi.Lib.Reach
import SafeerApi.Licences.Licences

/-!
# Licence transactions

Every licence write locks the settings row before anything else, so one of them is under way at a
time. It works on its own view of the licences and of the licence columns, statement by statement,
and nothing of it is seen before it commits. A reorder takes no part in the lock: it may commit
between any two statements.
-/

namespace SafeerApi.Licences

open Common Crud Lib SiteSettings

/-- Where the transaction under way is, once it holds the settings row. -/
inductive Stage where
  /-- It has not loaded its row. -/
  | locked (r : RowRequest)
  /-- It has these statements to make, and then to sync the settings. -/
  | writing (todo : List Write)
  /-- `syncSiteSettings` has read the values it will write. -/
  | syncing (columns : LicenceColumns)
  /-- It has only to commit. -/
  | synced

/-- The transaction under way, and what it sees. -/
structure Tx where
  licences : LicenceTable
  columns : LicenceColumns
  stage : Stage

/-- The committed tables. -/
structure State where
  licences : LicenceTable
  settings : Settings
  tx : Option Tx

inductive Action where
  /-- A request passes its checks, against the assets of that moment, and locks the settings. -/
  | lockSettings (assets : List MediaAsset) (r : Request)
  /-- The next statement; `id` is the one an inserted row gets. -/
  | next (id : ℕ)
  | commit
  | abort
  | reorder (items : List ReorderItem)

/-- The checks a request makes before its transaction, and where the transaction starts. -/
def Request.admit (sql : SqlNumeric) (assets : List MediaAsset) : Request → Except Problem Stage
  | .create dto => do
    let todo ← prepareCreate sql assets dto
    return .writing todo
  | .row r => do
    r.admit sql assets
    return .locked r

/-- One statement of the transaction under way. -/
def Tx.next (sql : SqlNumeric) (id : ℕ) (tx : Tx) : Option (Option Tx) :=
  match tx.stage with
  | .locked r =>
    match r.prepare sql tx.licences with
    | .ok todo => some (some { tx with stage := .writing todo })
    -- the request is refused and the transaction rolled back
    | .error _ => some none
  | .writing (w :: rest) =>
    match w.run tx.licences id with
    | some licences => some (some { tx with licences := licences, stage := .writing rest })
    | none => none
  | .writing [] => some (some { tx with stage := .syncing (primaryColumns tx.licences) })
  | .syncing columns => some (some { tx with columns := columns, stage := .synced })
  | .synced => none

def Tx.reorder (sql : SqlNumeric) (items : List ReorderItem) (tx : Tx) : Tx :=
  { tx with licences := reorderLicences sql tx.licences items }

def step (sql : SqlNumeric) (s : State) : Action → Option State
  | .lockSettings assets r =>
    match r.admit sql assets with
    | .error _ => some s
    | .ok stage =>
      match s.tx with
      | none => some { s with tx := some ⟨s.licences, s.settings.licence, stage⟩ }
      | some _ => none
  | .next id =>
    match s.tx with
    | none => none
    | some tx => (tx.next sql id).map fun tx' => { s with tx := tx' }
  | .commit =>
    match s.tx with
    | some ⟨licences, columns, .synced⟩ =>
      some ⟨licences, { s.settings with licence := columns }, none⟩
    | _ => none
  | .abort => some { s with tx := none }
  | .reorder items =>
    some { s with
      licences := reorderLicences sql s.licences items
      tx := s.tx.map (Tx.reorder sql items) }

/-! ### The invariant -/

/-- What the transaction under way still has to do ends in the law. -/
def Tx.Ok (tx : Tx) : Prop :=
  match tx.stage with
  | .locked _ => Unique (primaryFlag tx.licences)
  | .writing todo => Ready todo (primaryFlag tx.licences)
  | .syncing columns => Mirrors tx.licences columns
  | .synced => Mirrors tx.licences tx.columns

/-- The law holds of what is committed, and will hold of what is under way. -/
structure State.Inv (s : State) : Prop where
  law : Mirrors s.licences s.settings.licence
  tx : ∀ tx ∈ s.tx, tx.Ok

section Step

variable {sql : SqlNumeric} {s s' : State} {tx : Tx}

lemma Mirrors.unique_primaryFlag {licences : LicenceTable} {columns : LicenceColumns}
    (h : Mirrors licences columns) : Unique (primaryFlag licences) :=
  unique_primaryFlag_iff.mpr h.unique

/-- A transaction starts with its law to keep. -/
lemma ok_admit (h : Mirrors s.licences s.settings.licence) {assets : List MediaAsset} {r : Request}
    {stage : Stage} (hstage : r.admit sql assets = .ok stage) :
    Tx.Ok ⟨s.licences, s.settings.licence, stage⟩ := by
  cases r with
  | create dto =>
    obtain ⟨todo, htodo, hstage⟩ := bind_eq_ok hstage
    cases hstage
    exact ready_prepareCreate h.unique_primaryFlag htodo
  | row r =>
    obtain ⟨_, -, hstage⟩ := bind_eq_ok hstage
    cases hstage
    exact h.unique_primaryFlag

/-- Each statement brings it closer. -/
lemma Tx.Ok.next (h : tx.Ok) {id : ℕ} {tx' : Tx} (hnext : tx.next sql id = some (some tx')) :
    tx'.Ok := by
  obtain ⟨licences, columns, stage⟩ := tx
  rw [Tx.next] at hnext
  split at hnext
  · next r heq =>
    cases heq
    split at hnext <;> cases hnext
    next todo htodo => exact ready_prepare h htodo
  · next w rest heq =>
    cases heq
    split at hnext <;> cases hnext
    next licences' hrun => exact Ready.run h hrun
  · next heq =>
    cases heq
    cases hnext
    exact mirrors_primaryColumns h
  · next columns' heq =>
    cases heq
    cases hnext
    exact h
  · cases hnext

/-- A reorder is no matter to the law. -/
lemma Tx.Ok.reorder (h : tx.Ok) (items : List ReorderItem) : (tx.reorder sql items).Ok := by
  obtain ⟨licences, columns, stage⟩ := tx
  have hmap : (reorderLicences sql licences items).rows.map lawColumns =
      licences.rows.map lawColumns := map_lawColumns_reorder items
  have hflags := primaryFlag_congr hmap
  cases stage with
  | locked r =>
    simp only [Tx.Ok, Tx.reorder, hflags]
    exact h
  | writing todo =>
    simp only [Tx.Ok, Tx.reorder, hflags]
    exact h
  | syncing columns' => exact Mirrors.congr h hmap
  | synced => exact Mirrors.congr h hmap

lemma inv_step {a : Action} (h : s.Inv) (hs : step sql s a = some s') : s'.Inv := by
  cases a with
  | lockSettings assets r =>
    simp only [step] at hs
    split at hs
    · cases hs; exact h
    · next stage hstage =>
      split at hs <;> cases hs
      refine ⟨h.law, fun tx htx => ?_⟩
      obtain rfl := Option.some.inj htx
      exact ok_admit h.law hstage
  | next id =>
    simp only [step] at hs
    split at hs
    · cases hs
    · next tx htx =>
      obtain ⟨tx', hnext, rfl⟩ := Option.map_eq_some_iff.mp hs
      refine ⟨h.law, fun tx'' htx'' => ?_⟩
      obtain rfl : tx' = some tx'' := htx''
      exact (h.tx tx htx).next hnext
  | commit =>
    simp only [step] at hs
    split at hs <;> cases hs
    next licences columns htx => exact ⟨h.tx _ htx, fun tx htx => by cases htx⟩
  | abort =>
    cases hs
    exact ⟨h.law, fun tx htx => by cases htx⟩
  | reorder items =>
    cases hs
    refine ⟨h.law.congr (map_lawColumns_reorder items), fun tx' htx' => ?_⟩
    obtain ⟨tx, htx, rfl⟩ := Option.map_eq_some_iff.mp htx'
    exact (h.tx tx htx).reorder items

end Step

/-! ### Every interleaving -/

/-- In every interleaving, at most one committed licence is primary, and the settings row shows its
number and issuers exactly when it is published. -/
theorem mirrors_reach {sql : SqlNumeric} {licences : LicenceTable} {settings : Settings}
    (h₀ : Mirrors licences settings.licence) {s : State}
    (h : Reach (step sql) always ⟨licences, settings, none⟩ s) :
    Mirrors s.licences s.settings.licence := by
  have hinv : s.Inv := h.invariant (P := State.Inv) ⟨h₀, fun tx htx => by cases htx⟩
    fun _ _ _ hi _ hs => inv_step hi hs
  exact hinv.law

/-- Settings that show no licence. -/
def blankSettings : Settings := ⟨fun _ => .null, .cleared, none⟩

/-- A published primary licence is created; then another is made primary, published and edited,
around a reorder. -/
def replacePrimary : List Action :=
  [.lockSettings [] (.create
      { titleAr := "a", number := some (some "NC-1"), isPrimary := some true,
        isPublished := some true }),
    .next 0, .next 1, .next 0, .next 0, .commit,
    .lockSettings [] (.create { titleAr := "b", issuerAr := some (some "") }),
    .next 2, .reorder [⟨"2", 5⟩, ⟨"1", 7⟩], .next 0, .next 0, .commit,
    .lockSettings [] (.row (.makePrimary "2")), .next 0, .next 0, .reorder [⟨"2", 1⟩], .next 0,
    .next 0, .next 0, .commit,
    .lockSettings [] (.row (.publish "2" {})), .next 0, .next 0, .next 0, .next 0, .commit,
    .lockSettings [] (.row (.update "2" { number := some (some "REG-10") })), .next 0, .next 0,
    .next 0, .next 0, .commit]

theorem mirrors_reach_replacePrimary : ∃ s : State,
    s.settings.licence = ⟨some "REG-10", none, none⟩ ∧ s.licences.rows.length = 2 ∧
      Mirrors s.licences s.settings.licence := by
  obtain ⟨s, hrun, hcolumns, hlength⟩ := exists_of_run (step .decimal)
    ⟨.empty, blankSettings, none⟩ replacePrimary
    (P := fun s => s.settings.licence = ⟨some "REG-10", none, none⟩ ∧
      s.licences.rows.length = 2) (by decide +kernel)
  have hempty : Mirrors .empty blankSettings.licence :=
    ⟨fun _ h => (by cases h), fun _ h => (by cases h), fun _ => rfl⟩
  exact ⟨s, hcolumns, hlength, mirrors_reach hempty (Reach.of_run hrun)⟩

end SafeerApi.Licences
