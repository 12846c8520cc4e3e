import SafeerApi.Licences.Transactions

/-!
# The settings form beside licence transactions

`PUT` loads the settings row, assigns the form's columns and saves the whole entity. The save
re-reads the row without a lock and writes what differs, which includes a licence column when a
licence transaction has committed another value since the load.
-/

namespace SafeerApi.SiteSettings

open Lib Licences

/-- Where a `PUT` is. -/
inductive Put where
  | loaded (entity : Settings)
  | reread (entity reread : Settings)

/-- The licence system, the `PUT`s under way, and the licence columns that the last committed
licence transaction wrote. -/
structure State where
  base : Licences.State
  puts : ℕ → Option Put
  lastWritten : LicenceColumns

def State.init (base : Licences.State) : State := ⟨base, fun _ => none, base.settings.licence⟩

inductive Action where
  | licence (a : Licences.Action)
  | load (p : ℕ) (dto : UpdateSiteSettingsDto) (userId : ℕ)
  | reread (p : ℕ)
  | write (p : ℕ)
  | abort (p : ℕ)

def State.setPut (s : State) (p : ℕ) (put : Option Put) : State :=
  { s with puts := Function.update s.puts p put }

/-- The columns a commit writes. -/
def committed (s : Licences.State) : Licences.Action → Option LicenceColumns
  | .commit => s.tx.map Tx.columns
  | _ => none

/-- One statement. The `UPDATE` of a `PUT` waits for the licence transaction that holds the row. -/
def step (sql : Common.SqlNumeric) (s : State) : Action → Option State
  | .licence a =>
    (Licences.step sql s.base a).map fun base =>
      { s with base := base, lastWritten := (committed s.base a).getD s.lastWritten }
  | .load p dto userId =>
    match s.puts p with
    | none => some (s.setPut p (some (.loaded (s.base.settings.assign dto userId))))
    | some _ => none
  | .reread p =>
    match s.puts p with
    | some (.loaded entity) => some (s.setPut p (some (.reread entity s.base.settings)))
    | _ => none
  | .write p =>
    match s.puts p, s.base.tx with
    | some (.reread entity reread), none =>
      some ({ s with base := { s.base with
        settings := savedSettings entity reread s.base.settings } }.setPut p none)
    | _, _ => none
  | .abort p => some (s.setPut p none)

/-- The save of a `PUT` re-reads the licence columns it loaded. -/
def rereadsLoaded (s : State) : Action → Bool
  | .reread p =>
    match s.puts p with
    | some (.loaded entity) => entity.licence = s.base.settings.licence
    | _ => true
  | _ => true

/-- Every `PUT` under way has re-read what it loaded, and the licence columns are those last written
by a licence transaction. -/
structure State.Inv (s : State) : Prop where
  puts : ∀ p entity reread, s.puts p = some (.reread entity reread) →
    entity.licence = reread.licence
  columns : s.base.settings.licence = s.lastWritten

section Step

variable {sql : Common.SqlNumeric} {s s' : State}

/-- A licence step changes the licence columns by its commit, and nothing else of the settings. -/
lemma settings_of_licence_step {base : Licences.State} {a : Licences.Action}
    (h : Licences.step sql s.base a = some base) :
    base.settings = { s.base.settings with
      licence := (committed s.base a).getD s.base.settings.licence } := by
  cases a with
  | lockSettings assets r =>
    simp only [Licences.step] at h
    split at h
    · cases h; rfl
    · split at h <;> cases h
      rfl
  | next id =>
    simp only [Licences.step] at h
    split at h
    · cases h
    · obtain ⟨tx', -, rfl⟩ := Option.map_eq_some_iff.mp h
      rfl
  | commit =>
    simp only [Licences.step] at h
    split at h <;> cases h
    next licences columns htx => simp [committed, htx]
  | abort => cases h; rfl
  | reorder items => cases h; rfl

lemma State.Inv.setPut (h : s.Inv) {p : ℕ} {put : Option Put}
    (hput : ∀ entity reread, put = some (.reread entity reread) →
      entity.licence = reread.licence) : (s.setPut p put).Inv := by
  refine ⟨fun q entity reread hq => ?_, h.columns⟩
  by_cases hqp : q = p
  · subst hqp
    exact hput entity reread (by simpa [State.setPut] using hq)
  · exact h.puts q entity reread (by simpa [State.setPut, hqp] using hq)

/-- The write of a `PUT` leaves a licence column as it is exactly when the entity agrees with what
was re-read, or with what is there. -/
lemma savedColumns_eq_iff (entity reread row : LicenceColumns) :
    savedColumns entity reread row = row ↔
      (entity.licenceNo = reread.licenceNo ∨ entity.licenceNo = row.licenceNo) ∧
      (entity.licenceIssuerAr = reread.licenceIssuerAr ∨
        entity.licenceIssuerAr = row.licenceIssuerAr) ∧
      (entity.licenceIssuerEn = reread.licenceIssuerEn ∨
        entity.licenceIssuerEn = row.licenceIssuerEn) := by
  have hsaved : ∀ x y z : Option String, saved x y z = z ↔ x = y ∨ x = z := by
    intro x y z
    simp only [saved]
    split_ifs with h <;> simp [h]
  obtain ⟨row₁, row₂, row₃⟩ := row
  simp [savedColumns, hsaved]

/-- A `PUT` that has re-read what it loaded writes no licence column. -/
lemma State.Inv.write (h : s.Inv) {p : ℕ} (hs : step sql s (.write p) = some s') :
    s'.base.settings.licence = s.base.settings.licence := by
  simp only [step] at hs
  split at hs <;> cases hs
  next entity reread hput htx =>
    have hsame := h.puts p entity reread hput
    simp only [State.setPut, savedSettings, hsame]
    exact savedColumns_self _ _

lemma inv_step {a : Action} (h : s.Inv) (hok : rereadsLoaded s a = true)
    (hs : step sql s a = some s') : s'.Inv := by
  cases a with
  | licence a =>
    obtain ⟨base, hbase, rfl⟩ := Option.map_eq_some_iff.mp hs
    refine ⟨h.puts, ?_⟩
    rw [settings_of_licence_step hbase, h.columns]
  | load p dto userId =>
    simp only [step] at hs
    split at hs <;> cases hs
    exact h.setPut fun _ _ heq => by cases heq
  | reread p =>
    simp only [step] at hs
    split at hs
    · next entity hput =>
      cases hs
      apply h.setPut
      intro entity' reread heq
      cases heq
      simpa [rereadsLoaded, hput] using hok
    · cases hs
  | write p =>
    have hcolumns := h.write hs
    simp only [step] at hs
    split at hs <;> cases hs
    next entity reread hput htx =>
      have hbase : State.Inv { s with base := { s.base with
          settings := savedSettings entity reread s.base.settings } } :=
        ⟨h.puts, hcolumns.trans h.columns⟩
      exact hbase.setPut fun _ _ heq => by cases heq
  | abort p =>
    cases hs
    exact h.setPut fun _ _ heq => by cases heq

end Step

/-! ### Every interleaving -/

/-- In every interleaving in which each `PUT` re-reads the licence columns it has loaded, no `PUT`
changes them: they are those that the last committed licence transaction wrote. -/
theorem licence_columns_reach {sql : Common.SqlNumeric} {base : Licences.State} {s : State}
    (h : Reach (step sql) (fun s a => rereadsLoaded s a = true) (.init base) s) :
    s.base.settings.licence = s.lastWritten ∧
      ∀ p s', step sql s (.write p) = some s' →
        s'.base.settings.licence = s.base.settings.licence := by
  have hinv : s.Inv := h.invariant (P := State.Inv) ⟨fun _ _ _ hp => (by cases hp), rfl⟩
    fun _ _ _ hi hok hs => inv_step hi hok hs
  exact ⟨hinv.columns, fun p s' hs => hinv.write hs⟩

/-- No licences, and settings that show none. -/
def blank : Licences.State := ⟨.empty, blankSettings, none⟩

/-- A primary licence is created and published. -/
def createPrimary : List Licences.Action :=
  [.lockSettings [] (.create
      { titleAr := "a", number := some (some "NC-1"), isPrimary := some true,
        isPublished := some true }),
    .next 0, .next 1, .next 0, .next 0, .commit]

/-- The form's phone number. -/
def phone : UpdateSiteSettingsDto := fun c => if c = .phone then some (.text "0500") else none

/-- A `PUT` whose save has re-read the row before the licence is created, and writes it after. -/
def putAcrossWrite : List Action :=
  [.load 1 phone 3, .reread 1] ++ createPrimary.map .licence ++ [.write 1]

theorem licence_columns_reach_put : ∃ s : State,
    s.base.settings.form .phone = .text "0500" ∧ s.lastWritten.licenceNo = some "NC-1" ∧
      s.base.settings.licence = s.lastWritten := by
  obtain ⟨s, hrun, hphone, hno⟩ := exists_of_run (guarded (step .decimal) rereadsLoaded)
    (State.init blank) putAcrossWrite
    (P := fun s => s.base.settings.form .phone = .text "0500" ∧
      s.lastWritten.licenceNo = some "NC-1") (by decide +kernel)
  exact ⟨s, hphone, hno, (licence_columns_reach (Reach.of_guarded hrun)).1⟩

/-- A `PUT` that loads the row before the licence is created, and re-reads it after. -/
def putAcrossLicence : List Action :=
  [.load 1 phone 3] ++ createPrimary.map .licence ++ [.reread 1, .write 1]

/-- The save clears the number that the licence transaction has written. -/
theorem licence_columns_overwritten : ∃ s : State,
    Reach (step .decimal) always (State.init blank) s ∧
      s.lastWritten = ⟨some "NC-1", none, none⟩ ∧ s.base.settings.licence = .cleared := by
  obtain ⟨s, hrun, hlast, hcleared⟩ := exists_of_run (step .decimal) (State.init blank)
    putAcrossLicence
    (P := fun s => s.lastWritten = ⟨some "NC-1", none, none⟩ ∧
      s.base.settings.licence = .cleared) (by decide +kernel)
  exact ⟨s, Reach.of_run hrun, hlast, hcleared⟩

end SafeerApi.SiteSettings
