import SafeerApi.Media.Library

/-!
# Rows and files agree

Public ids and row ids are given out once, so at any time a row or one running upload goes by one,
and a file belongs to whoever goes by the public id in its key. That is what keeps a clean-up or a
removal off the files of others.
-/

namespace SafeerApi.Media

open Common Lib
open Crud (MediaAssetKind)

/-! ### Names -/

/-- What rows and running uploads go by. -/
inductive Name where
  | publicId (s : String)
  | rowId (n : ℕ)
  deriving DecidableEq, Repr

def MediaAsset.names (a : MediaAsset) : List Name := [.publicId a.publicId, .rowId a.id]

def Job.names : Job → List Name
  | .upload _ (.storing d _ _) | .upload _ (.cleaning d _ _) => [.publicId d.asset.publicId]
  | .upload _ (.saving d id _ _) => (d.row id).names
  | _ => []

/-- The name has been given out. -/
def World.Issued (w : World) : Name → Prop
  | .publicId s => s ∈ w.usedIds
  | .rowId n => n < w.nextId

/-- A running request goes by the name. -/
def World.Runs (w : World) (n : Name) : Prop := ∃ r job, w.jobs r = some job ∧ n ∈ job.names

structure World.Named (w : World) : Prop where
  rowsIssued : ∀ a ∈ w.media.assets.rows, ∀ n ∈ a.names, w.Issued n
  jobsIssued : ∀ r job, w.jobs r = some job → ∀ n ∈ job.names, w.Issued n
  rows : ∀ a ∈ w.media.assets.rows, ∀ b ∈ w.media.assets.rows, ∀ n ∈ a.names, n ∈ b.names → a = b
  rowsIdle : ∀ a ∈ w.media.assets.rows, ∀ n ∈ a.names, ¬w.Runs n
  jobs : ∀ r r' job job' n, w.jobs r = some job → w.jobs r' = some job' → n ∈ job.names →
    n ∈ job'.names → r = r'

/-- Nobody but this row goes by the name, now or later. -/
structure World.Only (w : World) (n : Name) (asset : MediaAsset) : Prop where
  issued : w.Issued n
  idle : ¬w.Runs n
  row : ∀ a ∈ w.media.assets.rows, n ∈ a.names → a = asset

/-- Nobody goes by the name, now or later. -/
structure World.Gone (w : World) (n : Name) : Prop where
  issued : w.Issued n
  idle : ¬w.Runs n
  row : ∀ a ∈ w.media.assets.rows, n ∉ a.names

/-- Names that were given out before change hands only from an upload to its row. -/
structure World.Advances (w w' : World) : Prop where
  issued : ∀ n, w.Issued n → w'.Issued n
  runs : ∀ n, w.Issued n → w'.Runs n → w.Runs n
  rows : ∀ a ∈ w'.media.assets.rows, a ∈ w.media.assets.rows ∨ ∀ n ∈ a.names, w.Runs n
  variants : ∀ v ∈ w'.media.variants, v ∈ w.media.variants ∨ w.Runs (.rowId v.assetId)

section Names

variable {w w' : World} {n : Name} {asset : MediaAsset}

lemma World.Only.mono (h : w.Only n asset) (hw : w.Advances w') : w'.Only n asset where
  issued := hw.issued n h.issued
  idle hruns := h.idle (hw.runs n h.issued hruns)
  row a ha hn := by
    rcases hw.rows a ha with ha | hruns
    · exact h.row a ha hn
    · exact absurd (hruns n hn) h.idle

lemma World.Gone.mono (h : w.Gone n) (hw : w.Advances w') : w'.Gone n where
  issued := hw.issued n h.issued
  idle hruns := h.idle (hw.runs n h.issued hruns)
  row a ha hn := by
    rcases hw.rows a ha with ha | hruns
    · exact h.row a ha hn
    · exact h.idle (hruns n hn)

end Names

/-! ### What is known of a request -/

/-- The files hold what was put. -/
def Stored (files : String → Option Buffer) (puts : List (String × Buffer)) : Prop :=
  ∀ p ∈ puts, files p.1 = some p.2

/-- The row is the draft of an upload, whose files hold the draft's bytes. -/
def RowStored (env : MediaEnv) (media : MediaTables) (files : String → Option Buffer)
    (a : MediaAsset) : Prop :=
  ∃ x d, DraftOf env x d ∧ a = d.row a.id ∧ Stored files d.puts ∧
    ∀ v, v ∈ media.variants ∧ v.assetId = a.id ↔ v ∈ d.variantRows a.id

/-- A removal that found this row takes no other's place. -/
structure World.Held (w : World) (asset : MediaAsset) : Prop where
  only : ∀ n ∈ asset.names, w.Only n asset
  owner : keyOwner asset.storageKey = asset.publicId

def Job.Sound (env : MediaEnv) (w : World) : Job → Prop
  | .upload x (.checked detected kind) | .upload x (.absent detected kind) =>
    check env x.buffer = .ok (detected, kind)
  | .upload x (.storing d left written) => DraftOf env x d ∧ ∃ done,
      d.puts = done ++ left ∧ written = done.map Prod.fst ∧ Stored w.files done
  | .upload x (.saving d _ _ written) =>
    DraftOf env x d ∧ written = d.puts.map Prod.fst ∧ Stored w.files d.puts
  | .upload x (.cleaning d left _) =>
    DraftOf env x d ∧ ∀ key ∈ left, keyOwner key = d.asset.publicId
  | .remove _ (.found asset) | .remove _ (.unused asset) => w.Held asset
  | .remove _ (.loaded asset variants) => w.Held asset ∧
      (∀ v ∈ variants, keyOwner v.storageKey = asset.publicId) ∧
      (asset ∈ w.media.assets.rows → ∀ v ∈ w.media.variants, v.assetId = asset.id → v ∈ variants)
  | .remove _ (.deleting asset left) => w.Gone (.publicId asset.publicId) ∧
      ∀ key ∈ left, keyOwner key = asset.publicId
  | _ => True

/-- The files the request will still delete, or name in a row. -/
def Job.keys : Job → List String
  | .upload _ (.storing _ _ written) | .upload _ (.saving _ _ _ written) => written
  | .upload _ (.cleaning _ left _) | .remove _ (.deleting _ left) => left
  | _ => []

/-- Why bytes are not accepted. -/
def refusal (env : MediaEnv) (buffer : Buffer) : Option Problem :=
  match check env buffer with
  | .error p => some p
  | .ok (detected, kind) =>
    match process env buffer detected kind with
    | .error p => some p
    | .ok _ => none

/-- Where requests are when nothing fails and nothing is removed. -/
def Job.Settled (env : MediaEnv) (media : MediaTables) : Job → Prop
  | .upload x (.ended (.returned a _)) => media.assets.lookup (env.sha256 x.buffer) = some a
  | .upload x (.ended (.refused p)) => refusal env x.buffer = some p
  | .upload _ (.ended .failed) | .upload _ (.cleaning _ _ false) | .remove _ _ => False
  | .upload x (.cleaning _ _ true) => ∃ a, media.assets.lookup (env.sha256 x.buffer) = some a
  | _ => True

/-- A row of the asset, or of one of its images, names the file. -/
def MediaTables.Names (media : MediaTables) (a : MediaAsset) (key : String) : Prop :=
  key = a.storageKey ∨ ∃ v ∈ media.variants, v.assetId = a.id ∧ v.storageKey = key

/-- The invariant of a run. `tidy` stands for a run without crashes and without failed deletions,
`smooth` for one in which no step fails and nothing is removed. -/
structure World.Inv (env : MediaEnv) (tidy smooth : Prop) (w : World) : Prop where
  named : w.Named
  rows : ∀ a ∈ w.media.assets.rows, RowStored env w.media w.files a
  variants : ∀ v ∈ w.media.variants, ∃ a ∈ w.media.assets.rows, a.id = v.assetId
  jobs : ∀ r job, w.jobs r = some job → job.Sound env w
  accounted : tidy → ∀ key, w.files key ≠ none →
    (∃ a ∈ w.media.assets.rows, w.media.Names a key) ∨
      ∃ r job, w.jobs r = some job ∧ key ∈ job.keys
  settled : smooth → ∀ r job, w.jobs r = some job → job.Settled env w.media

/-! ### What others cannot change -/

section Frame

variable {env : MediaEnv} {w w' : World} {x : Upload} {d : Draft} {a : MediaAsset}
  {media media' : MediaTables} {files files' : String → Option Buffer}

lemma DraftOf.checksum (h : DraftOf env x d) : d.asset.checksumSha256 = env.sha256 x.buffer := by
  obtain ⟨detected, kind, p, year, month, publicId, -, -, -, rfl⟩ := h.exists_eq
  rfl

lemma DraftOf.owner_put (h : DraftOf env x d) {p : String × Buffer} (hp : p ∈ d.puts) :
    keyOwner p.1 = d.asset.publicId :=
  h.owner (List.mem_map_of_mem hp)

lemma Stored.congr {puts : List (String × Buffer)} (h : Stored files puts)
    (hfiles : ∀ p ∈ puts, files' p.1 = files p.1) : Stored files' puts := by
  intro p hp
  rw [hfiles p hp]
  exact h p hp

/-- The keys a row's images are named by are keys of its draft. -/
lemma names_iff_mem_puts (hrow : a = d.row a.id)
    (hvariants : ∀ v, v ∈ media.variants ∧ v.assetId = a.id ↔ v ∈ d.variantRows a.id)
    {key : String} : media.Names a key ↔ key ∈ d.puts.map Prod.fst := by
  have hkey : a.storageKey = d.asset.storageKey := by
    rw [hrow]
    rfl
  rw [Draft.keys_eq, List.mem_cons, MediaTables.Names, hkey]
  apply or_congr_right
  constructor
  · rintro ⟨v, hv, hid, rfl⟩
    obtain ⟨image, himage, rfl⟩ := List.mem_map.mp ((hvariants v).mp ⟨hv, hid⟩)
    exact List.mem_map.mpr ⟨image, himage, rfl⟩
  · intro hmem
    obtain ⟨image, himage, rfl⟩ := List.mem_map.mp hmem
    obtain ⟨hv, hid⟩ := (hvariants { image.1 with assetId := a.id }).mpr
      (List.mem_map.mpr ⟨image, himage, rfl⟩)
    exact ⟨_, hv, hid, rfl⟩

/-- The files of a row are its own. -/
lemma RowStored.owner (h : RowStored env media files a) {key : String} (hkey : media.Names a key) :
    keyOwner key = a.publicId := by
  obtain ⟨x, d, hd, hrow, -, hvariants⟩ := h
  rw [hd.owner ((names_iff_mem_puts hrow hvariants).mp hkey), hrow]
  rfl

lemma RowStored.mono (h : RowStored env media files a)
    (hfiles : ∀ key, keyOwner key = a.publicId → files' key = files key)
    (hvariants : ∀ v, v.assetId = a.id → (v ∈ media'.variants ↔ v ∈ media.variants)) :
    RowStored env media' files' a := by
  obtain ⟨x, d, hd, hrow, hstored, hmem⟩ := h
  have howner : d.asset.publicId = a.publicId := by
    rw [hrow]
    rfl
  refine ⟨x, d, hd, hrow, ?_, ?_⟩
  · apply hstored.congr
    intro p hp
    exact hfiles p.1 ((hd.owner_put hp).trans howner)
  · intro v
    rw [← hmem v]
    exact and_congr_left fun hid => hvariants v hid

lemma World.Held.mono (h : w.Held a) (hw : w.Advances w') : w'.Held a :=
  ⟨fun n hn => (h.only n hn).mono hw, h.owner⟩

/-- Steps of others keep what is known of a request. -/
lemma Job.Sound.mono {job : Job} (h : job.Sound env w) (hw : w.Advances w')
    (hfiles : ∀ key, Name.publicId (keyOwner key) ∈ job.names → w'.files key = w.files key) :
    job.Sound env w' := by
  cases job with
  | upload x stage =>
    cases stage with
    | received => trivial
    | checked detected kind => exact h
    | absent detected kind => exact h
    | storing d left written =>
      obtain ⟨hd, done, hputs, hwritten, hstored⟩ := h
      refine ⟨hd, done, hputs, hwritten, hstored.congr fun p hp => hfiles p.1 ?_⟩
      rw [hd.owner_put (hputs ▸ List.mem_append_left _ hp)]
      exact List.mem_singleton_self _
    | saving d id left written =>
      obtain ⟨hd, hwritten, hstored⟩ := h
      refine ⟨hd, hwritten, hstored.congr fun p hp => hfiles p.1 ?_⟩
      rw [hd.owner_put hp]
      exact List.mem_cons_self
    | cleaning d left duplicate => exact h
    | ended outcome => trivial
  | remove id stage =>
    cases stage with
    | received => trivial
    | found asset => exact World.Held.mono h hw
    | unused asset => exact World.Held.mono h hw
    | loaded asset variants =>
      obtain ⟨hheld, howner, hall⟩ := h
      refine ⟨hheld.mono hw, howner, fun hrow v hv hid => ?_⟩
      have hidle : ¬w.Runs (.rowId asset.id) :=
        (hheld.only _ (List.mem_cons_of_mem _ (List.mem_singleton_self _))).idle
      rcases hw.rows asset hrow with hrow | hruns
      · rcases hw.variants v hv with hv | hruns
        · exact hall hrow v hv hid
        · exact absurd (hid ▸ hruns) hidle
      · exact absurd (hruns _ (List.mem_cons_of_mem _ (List.mem_singleton_self _))) hidle
    | deleting asset left => exact ⟨h.1.mono hw, h.2⟩
    | ended outcome => trivial

end Frame

/-! ### Steps that leave the rows alone -/

/-- Nobody but request `r` goes by the public id in the key. -/
def World.MayWrite (w : World) (r : ℕ) (key : String) : Prop :=
  (∃ job, w.jobs r = some job ∧ Name.publicId (keyOwner key) ∈ job.names) ∨
    w.Gone (.publicId (keyOwner key))

/-- Request `r` goes on to `job`. It takes new names and writes files of its own at most; the rows
stay. -/
structure World.Moves (w : World) (r : ℕ) (w₁ : World) (job : Job) : Prop where
  media : w₁.media = w.media
  jobs : w₁.jobs = w.jobs
  issued : ∀ n, w.Issued n → w₁.Issued n
  names : ∀ n ∈ job.names, (∃ job₀, w.jobs r = some job₀ ∧ n ∈ job₀.names) ∨
    ¬w.Issued n ∧ w₁.Issued n
  files : ∀ key, w₁.files key ≠ w.files key → w.MayWrite r key

section Moves

variable {env : MediaEnv} {tidy smooth : Prop} {w w₁ : World} {r : ℕ} {job : Job}

lemma mem_names_publicId {a : MediaAsset} : Name.publicId a.publicId ∈ a.names :=
  List.mem_cons_self

lemma mem_names_rowId {a : MediaAsset} : Name.rowId a.id ∈ a.names :=
  List.mem_cons_of_mem _ (List.mem_singleton_self _)

lemma World.MayWrite.row (h : w.Named) {key : String} (hkey : w.MayWrite r key) {a : MediaAsset}
    (ha : a ∈ w.media.assets.rows) : keyOwner key ≠ a.publicId := by
  intro heq
  rcases hkey with ⟨job, hjob, hn⟩ | hgone
  · rw [heq] at hn
    exact h.rowsIdle a ha _ mem_names_publicId ⟨r, job, hjob, hn⟩
  · rw [heq] at hgone
    exact hgone.row a ha mem_names_publicId

lemma World.MayWrite.other (h : w.Named) {key : String} (hkey : w.MayWrite r key) {r' : ℕ}
    (hne : r' ≠ r) {job' : Job} (hjob' : w.jobs r' = some job') :
    Name.publicId (keyOwner key) ∉ job'.names := by
  intro hn'
  rcases hkey with ⟨job, hjob, hn⟩ | hgone
  · exact hne (h.jobs r' r job' job _ hjob' hjob hn' hn)
  · exact hgone.idle ⟨r', job', hjob', hn'⟩

lemma jobs_setJob {r' : ℕ} {job' : Job} (hjob : (w.setJob r job).jobs r' = some job') :
    (r' = r ∧ job' = job) ∨ (r' ≠ r ∧ w.jobs r' = some job') :=
  update_eq_some hjob

lemma World.Moves.advances (hm : w.Moves r w₁ job) : w.Advances (w₁.setJob r job) where
  issued n hn := hm.issued n hn
  runs n hn := by
    rintro ⟨r', job', hjob', hn'⟩
    rcases jobs_setJob hjob' with ⟨rfl, rfl⟩ | ⟨-, hjob'⟩
    · rcases hm.names n hn' with ⟨job₀, hjob₀, hn₀⟩ | ⟨hfresh, -⟩
      · exact ⟨r', job₀, hjob₀, hn₀⟩
      · exact absurd hn hfresh
    · exact ⟨r', job', hm.jobs ▸ hjob', hn'⟩
  rows a ha := Or.inl (hm.media ▸ ha)
  variants v hv := Or.inl (hm.media ▸ hv)

lemma World.Moves.named (h : w.Named) (hm : w.Moves r w₁ job) : (w₁.setJob r job).Named where
  rowsIssued a ha n hn := hm.issued n (h.rowsIssued a (hm.media ▸ ha) n hn)
  jobsIssued r' job' hjob' n hn := by
    rcases jobs_setJob hjob' with ⟨rfl, rfl⟩ | ⟨-, hjob'⟩
    · rcases hm.names n hn with ⟨job₀, hjob₀, hn₀⟩ | ⟨-, hissued⟩
      · exact hm.issued n (h.jobsIssued r' job₀ hjob₀ n hn₀)
      · exact hissued
    · exact hm.issued n (h.jobsIssued r' job' (hm.jobs ▸ hjob') n hn)
  rows a ha b hb := h.rows a (hm.media ▸ ha) b (hm.media ▸ hb)
  rowsIdle a ha n hn hruns := by
    have ha : a ∈ w.media.assets.rows := hm.media ▸ ha
    exact h.rowsIdle a ha n hn (hm.advances.runs n (h.rowsIssued a ha n hn) hruns)
  jobs r₁ r₂ job₁ job₂ n h₁ h₂ hn₁ hn₂ := by
    -- a name of the request that moves is its own already, or new
    have hown : ∀ r' job', r' ≠ r → w₁.jobs r' = some job' → n ∈ job.names → n ∉ job'.names := by
      intro r' job' hne hjob' hn hn'
      rw [hm.jobs] at hjob'
      rcases hm.names n hn with ⟨job₀, hjob₀, hn₀⟩ | ⟨hfresh, -⟩
      · exact hne (h.jobs r' r job' job₀ n hjob' hjob₀ hn' hn₀)
      · exact hfresh (h.jobsIssued r' job' hjob' n hn')
    rcases jobs_setJob h₁ with ⟨rfl, rfl⟩ | ⟨hne₁, hjob₁⟩ <;>
      rcases jobs_setJob h₂ with ⟨rfl, rfl⟩ | ⟨hne₂, hjob₂⟩
    · rfl
    · exact absurd hn₂ (hown r₂ job₂ hne₂ hjob₂ hn₁)
    · exact absurd hn₁ (hown r₁ job₁ hne₁ hjob₁ hn₂)
    · exact h.jobs r₁ r₂ job₁ job₂ n (hm.jobs ▸ hjob₁) (hm.jobs ▸ hjob₂) hn₁ hn₂

/-- A step that leaves the rows alone keeps the invariant, if what is known of its own request is
kept. -/
lemma World.Inv.move (h : w.Inv env tidy smooth) (hm : w.Moves r w₁ job)
    (hsound : job.Sound env (w₁.setJob r job))
    (hkeys : tidy → ∀ key, w₁.files key ≠ none → key ∈ job.keys ∨
      w.files key ≠ none ∧ ∀ job₀, w.jobs r = some job₀ → key ∉ job₀.keys)
    (hsettled : smooth → job.Settled env w.media) : (w₁.setJob r job).Inv env tidy smooth where
  named := hm.named h.named
  rows a ha := by
    have ha : a ∈ w.media.assets.rows := hm.media ▸ ha
    refine (h.rows a ha).mono (fun key hkey => ?_) fun v _ => by rw [← hm.media]; rfl
    by_contra hne
    exact (hm.files key hne).row h.named ha hkey
  variants v hv := by
    obtain ⟨a, ha, hid⟩ := h.variants v (hm.media ▸ hv)
    exact ⟨a, hm.media.symm ▸ ha, hid⟩
  jobs r' job' hjob' := by
    rcases jobs_setJob hjob' with ⟨rfl, rfl⟩ | ⟨hne, hjob'⟩
    · exact hsound
    · rw [hm.jobs] at hjob'
      refine (h.jobs r' job' hjob').mono hm.advances fun key hn => ?_
      by_contra hchanged
      exact (hm.files key hchanged).other h.named hne hjob' hn
  accounted htidy key hkey := by
    show (∃ a ∈ w₁.media.assets.rows, w₁.media.Names a key) ∨ _
    rw [hm.media]
    rcases hkeys htidy key hkey with hown | ⟨hold, hnot⟩
    · exact Or.inr ⟨r, job, Function.update_self .., hown⟩
    · rcases h.accounted htidy key hold with hrow | ⟨r', job', hjob', hk⟩
      · exact Or.inl hrow
      · refine Or.inr ⟨r', job', ?_, hk⟩
        rw [← hm.jobs] at hjob'
        refine (Function.update_of_ne ?_ _ _).trans hjob'
        rintro rfl
        exact hnot job' (hm.jobs ▸ hjob') hk
  settled hsmooth r' job' hjob' := by
    show job'.Settled env w₁.media
    rw [hm.media]
    rcases jobs_setJob hjob' with ⟨rfl, rfl⟩ | ⟨-, hjob'⟩
    · exact hsettled hsmooth
    · exact h.settled hsmooth r' job' (hm.jobs ▸ hjob')

/-- The request goes on, and nothing else changes. -/
lemma World.Inv.quiet (h : w.Inv env tidy smooth)
    (hnames : ∀ n ∈ job.names, ∃ job₀, w.jobs r = some job₀ ∧ n ∈ job₀.names)
    (hsound : job.Sound env w)
    (hkeys : tidy → ∀ job₀, w.jobs r = some job₀ → ∀ key ∈ job₀.keys, key ∈ job.keys)
    (hsettled : smooth → job.Settled env w.media) : (w.setJob r job).Inv env tidy smooth := by
  have hm : w.Moves r w job :=
    ⟨rfl, rfl, fun _ hn => hn, fun n hn => Or.inl (hnames n hn), fun _ hne => absurd rfl hne⟩
  refine h.move hm (hsound.mono hm.advances fun _ _ => rfl) (fun htidy key hkey => ?_) hsettled
  by_cases hmem : key ∈ job.keys
  · exact Or.inl hmem
  · exact Or.inr ⟨hkey, fun job₀ hjob₀ hk => hmem (hkeys htidy job₀ hjob₀ key hk)⟩

end Moves

/-! ### Steps on the rows -/

section Rows

variable {env : MediaEnv} {tidy smooth : Prop} {w : World} {r : ℕ}

/-- Without removals a checksum keeps its row. -/
lemma lookup_insert_mono {assets assets' : MediaAssets} {row a : MediaAsset} {c : String}
    (h : assets.insert row = some assets') (ha : assets.lookup c = some a) :
    assets'.lookup c = some a := by
  obtain ⟨hmem, hc⟩ := UniqueTable.lookup_eq_some.mp ha
  exact UniqueTable.lookup_eq_some.mpr ⟨(UniqueTable.mem_insert h).mpr (Or.inl hmem), hc⟩

lemma Job.Settled.mono {job : Job} {media media' : MediaTables} (h : job.Settled env media)
    (hlookup : ∀ c a, media.assets.lookup c = some a → media'.assets.lookup c = some a) :
    job.Settled env media' := by
  cases job with
  | upload x stage =>
    cases stage with
    | received => trivial
    | checked detected kind => trivial
    | absent detected kind => trivial
    | storing d left written => trivial
    | saving d id left written => trivial
    | cleaning d left duplicate =>
      cases duplicate with
      | false => exact h
      | true =>
        obtain ⟨a, ha⟩ := h
        exact ⟨a, hlookup _ _ ha⟩
    | ended outcome =>
      cases outcome with
      | returned a wasExisting => exact hlookup _ _ h
      | refused p => exact h
      | failed => exact h
  | remove id stage => exact h

/-- What the commit of an upload leaves. -/
def World.committed (w : World) (r : ℕ) (x : Upload) (d : Draft) (id : ℕ) (assets : MediaAssets) :
    World :=
  { w with
    media := ⟨assets, w.media.variants ++ d.variantRows id⟩
    locked := Function.update w.locked d.asset.checksumSha256 none }.setJob r
      (.upload x (.ended (.returned (d.row id) false)))

variable {x : Upload} {d : Draft} {id : ℕ} {left : List MediaVariant} {written : List String}
  {assets : MediaAssets}

lemma assetId_of_mem_variantRows {v : MediaVariant} (hv : v ∈ d.variantRows id) :
    v.assetId = id := by
  obtain ⟨image, -, rfl⟩ := List.mem_map.mp hv
  rfl

lemma jobs_committed {r' : ℕ} {job : Job}
    (hjob : (w.committed r x d id assets).jobs r' = some job) :
    (r' = r ∧ job = .upload x (.ended (.returned (d.row id) false))) ∨
      (r' ≠ r ∧ w.jobs r' = some job) :=
  update_eq_some hjob

/-- The names of the upload pass to its row. -/
lemma World.advances_committed (hjob : w.jobs r = some (.upload x (.saving d id left written)))
    (hinsert : w.media.assets.insert (d.row id) = some assets) :
    w.Advances (w.committed r x d id assets) where
  issued _ hn := hn
  runs n _ := by
    rintro ⟨r', job', hjob', hn⟩
    rcases jobs_committed hjob' with ⟨-, rfl⟩ | ⟨-, hjob'⟩
    · cases hn
    · exact ⟨r', job', hjob', hn⟩
  rows a ha := by
    rcases (UniqueTable.mem_insert hinsert).mp ha with ha | rfl
    · exact Or.inl ha
    · exact Or.inr fun n hn => ⟨r, _, hjob, hn⟩
  variants v hv := by
    rcases List.mem_append.mp hv with hv | hv
    · exact Or.inl hv
    · rw [assetId_of_mem_variantRows hv]
      exact Or.inr ⟨r, _, hjob, mem_names_rowId (a := d.row id)⟩

lemma World.named_committed (h : w.Named)
    (hjob : w.jobs r = some (.upload x (.saving d id left written)))
    (hinsert : w.media.assets.insert (d.row id) = some assets) :
    (w.committed r x d id assets).Named where
  rowsIssued a ha n hn := by
    rcases (UniqueTable.mem_insert hinsert).mp ha with ha | rfl
    · exact h.rowsIssued a ha n hn
    · exact h.jobsIssued r _ hjob n hn
  jobsIssued r' job' hjob' n hn := by
    rcases jobs_committed hjob' with ⟨-, rfl⟩ | ⟨-, hjob'⟩
    · cases hn
    · exact h.jobsIssued r' job' hjob' n hn
  rows a ha b hb n hna hnb := by
    rcases (UniqueTable.mem_insert hinsert).mp ha with ha | rfl <;>
      rcases (UniqueTable.mem_insert hinsert).mp hb with hb | rfl
    · exact h.rows a ha b hb n hna hnb
    · exact absurd ⟨r, _, hjob, hnb⟩ (h.rowsIdle a ha n hna)
    · exact absurd ⟨r, _, hjob, hna⟩ (h.rowsIdle b hb n hnb)
    · rfl
  rowsIdle a ha n hn := by
    rintro ⟨r', job', hjob', hn'⟩
    rcases jobs_committed hjob' with ⟨-, rfl⟩ | ⟨hne, hjob'⟩
    · cases hn'
    · rcases (UniqueTable.mem_insert hinsert).mp ha with ha | rfl
      · exact h.rowsIdle a ha n hn ⟨r', job', hjob', hn'⟩
      · exact hne (h.jobs r' r job' _ n hjob' hjob hn' hn)
  jobs r₁ r₂ job₁ job₂ n h₁ h₂ hn₁ hn₂ := by
    rcases jobs_committed h₁ with ⟨-, rfl⟩ | ⟨-, hjob₁⟩
    · cases hn₁
    · rcases jobs_committed h₂ with ⟨-, rfl⟩ | ⟨-, hjob₂⟩
      · cases hn₂
      · exact h.jobs r₁ r₂ job₁ job₂ n hjob₁ hjob₂ hn₁ hn₂

/-- The committed row is the draft's, and so are its images. -/
lemma World.Inv.row_committed (h : w.Inv env tidy smooth)
    (hjob : w.jobs r = some (.upload x (.saving d id left written))) (v : MediaVariant) :
    v ∈ w.media.variants ++ d.variantRows id ∧ v.assetId = id ↔ v ∈ d.variantRows id := by
  constructor
  · rintro ⟨hv, hid⟩
    rcases List.mem_append.mp hv with hv | hv
    · obtain ⟨a, ha, hida⟩ := h.variants v hv
      have hname : Name.rowId a.id ∈ (d.row id).names := by
        rw [hida, hid]
        exact mem_names_rowId (a := d.row id)
      exact absurd ⟨r, _, hjob, hname⟩ (h.named.rowsIdle a ha _ mem_names_rowId)
    · exact hv
  · exact fun hv => ⟨List.mem_append_right _ hv, assetId_of_mem_variantRows hv⟩

lemma World.Inv.committed (h : w.Inv env tidy smooth)
    (hjob : w.jobs r = some (.upload x (.saving d id left written)))
    (hinsert : w.media.assets.insert (d.row id) = some assets) :
    (w.committed r x d id assets).Inv env tidy smooth := by
  obtain ⟨hd, hwritten, hstored⟩ := h.jobs r _ hjob
  have hnew : d.row id ∈ assets.rows := (UniqueTable.mem_insert hinsert).mpr (Or.inr rfl)
  refine ⟨World.named_committed h.named hjob hinsert, ?_, ?_, ?_, ?_, ?_⟩
  · intro a ha
    rcases (UniqueTable.mem_insert hinsert).mp ha with ha | rfl
    · refine (h.rows a ha).mono (fun _ _ => rfl) fun v hid => ⟨fun hv => ?_, fun hv => ?_⟩
      · rcases List.mem_append.mp hv with hv | hv
        · exact hv
        · have hname : Name.rowId a.id ∈ (d.row id).names := by
            rw [← hid, assetId_of_mem_variantRows hv]
            exact mem_names_rowId (a := d.row id)
          exact absurd ⟨r, _, hjob, hname⟩ (h.named.rowsIdle a ha _ mem_names_rowId)
      · exact List.mem_append_left _ hv
    · exact ⟨x, d, hd, rfl, hstored, h.row_committed hjob⟩
  · intro v hv
    rcases List.mem_append.mp hv with hv | hv
    · obtain ⟨a, ha, hid⟩ := h.variants v hv
      exact ⟨a, (UniqueTable.mem_insert hinsert).mpr (Or.inl ha), hid⟩
    · exact ⟨d.row id, hnew, (assetId_of_mem_variantRows hv).symm⟩
  · intro r' job' hjob'
    rcases jobs_committed hjob' with ⟨-, rfl⟩ | ⟨-, hjob'⟩
    · trivial
    · exact (h.jobs r' job' hjob').mono (World.advances_committed hjob hinsert) fun _ _ => rfl
  · intro htidy key hkey
    rcases h.accounted htidy key hkey with ⟨a, ha, hnames⟩ | ⟨r', job', hjob', hk⟩
    · refine Or.inl ⟨a, (UniqueTable.mem_insert hinsert).mpr (Or.inl ha), ?_⟩
      exact hnames.imp_right fun ⟨v, hv, hid, hkey⟩ => ⟨v, List.mem_append_left _ hv, hid, hkey⟩
    · by_cases hr : r' = r
      · subst hr
        obtain rfl := Option.some.inj (hjob.symm.trans hjob')
        refine Or.inl ⟨d.row id, hnew, (names_iff_mem_puts rfl (h.row_committed hjob)).mpr ?_⟩
        rw [← hwritten]
        exact hk
      · exact Or.inr ⟨r', job', (Function.update_of_ne hr _ _).trans hjob', hk⟩
  · intro hsmooth r' job' hjob'
    rcases jobs_committed hjob' with ⟨-, rfl⟩ | ⟨-, hjob'⟩
    · show assets.lookup (env.sha256 x.buffer) = _
      rw [← hd.checksum]
      exact UniqueTable.lookup_eq_some.mpr ⟨hnew, rfl⟩
    · exact (h.settled hsmooth r' job' hjob').mono fun c a => lookup_insert_mono hinsert

/-- What the deletion of a row leaves. -/
def World.rowRemoved (w : World) (r : ℕ) (path : String) (asset : MediaAsset)
    (variants : List MediaVariant) : World :=
  { w with media := ⟨w.media.assets.deleteWhere fun a => a.id = asset.id,
      w.media.variants.filter fun v => v.assetId ≠ asset.id⟩ }.setJob r
    (.remove path (.deleting asset (asset.storageKey :: variants.map MediaVariant.storageKey)))

variable {path : String} {asset : MediaAsset} {variants : List MediaVariant}

lemma mem_rows_rowRemoved {a : MediaAsset} :
    a ∈ (w.rowRemoved r path asset variants).media.assets.rows ↔
      a ∈ w.media.assets.rows ∧ a.id ≠ asset.id := by
  show a ∈ (w.media.assets.deleteWhere _).rows ↔ _
  rw [UniqueTable.mem_deleteWhere, decide_eq_false_iff_not]

lemma mem_variants_rowRemoved {v : MediaVariant} :
    v ∈ (w.rowRemoved r path asset variants).media.variants ↔
      v ∈ w.media.variants ∧ v.assetId ≠ asset.id := by
  show v ∈ w.media.variants.filter _ ↔ _
  rw [List.mem_filter, decide_eq_true_eq]

lemma jobs_rowRemoved {r' : ℕ} {job : Job}
    (hjob : (w.rowRemoved r path asset variants).jobs r' = some job) :
    (r' = r ∧ job = .remove path
      (.deleting asset (asset.storageKey :: variants.map MediaVariant.storageKey))) ∨
      (r' ≠ r ∧ w.jobs r' = some job) :=
  update_eq_some hjob

lemma World.runs_rowRemoved {n : Name} (h : (w.rowRemoved r path asset variants).Runs n) :
    w.Runs n := by
  obtain ⟨r', job', hjob', hn⟩ := h
  rcases jobs_rowRemoved hjob' with ⟨-, rfl⟩ | ⟨-, hjob'⟩
  · cases hn
  · exact ⟨r', job', hjob', hn⟩

lemma World.advances_rowRemoved : w.Advances (w.rowRemoved r path asset variants) where
  issued _ hn := hn
  runs _ _ := World.runs_rowRemoved
  rows _ ha := Or.inl (mem_rows_rowRemoved.mp ha).1
  variants _ hv := Or.inl (mem_variants_rowRemoved.mp hv).1

lemma World.named_rowRemoved (h : w.Named) : (w.rowRemoved r path asset variants).Named where
  rowsIssued a ha := h.rowsIssued a (mem_rows_rowRemoved.mp ha).1
  jobsIssued r' job' hjob' n hn := by
    rcases jobs_rowRemoved hjob' with ⟨-, rfl⟩ | ⟨-, hjob'⟩
    · cases hn
    · exact h.jobsIssued r' job' hjob' n hn
  rows a ha b hb := h.rows a (mem_rows_rowRemoved.mp ha).1 b (mem_rows_rowRemoved.mp hb).1
  rowsIdle a ha n hn hruns := h.rowsIdle a (mem_rows_rowRemoved.mp ha).1 n hn
    (World.runs_rowRemoved hruns)
  jobs r₁ r₂ job₁ job₂ n h₁ h₂ hn₁ hn₂ := by
    rcases jobs_rowRemoved h₁ with ⟨-, rfl⟩ | ⟨-, hjob₁⟩
    · cases hn₁
    · rcases jobs_rowRemoved h₂ with ⟨-, rfl⟩ | ⟨-, hjob₂⟩
      · cases hn₂
      · exact h.jobs r₁ r₂ job₁ job₂ n hjob₁ hjob₂ hn₁ hn₂

/-- The files of the deleted row become the removal's to delete. -/
lemma World.Inv.rowRemoved (h : w.Inv env tidy smooth)
    (hjob : w.jobs r = some (.remove path (.loaded asset variants))) :
    (w.rowRemoved r path asset variants).Inv env tidy smooth := by
  obtain ⟨hheld, howner, hall⟩ := h.jobs r _ hjob
  refine ⟨World.named_rowRemoved h.named, ?_, ?_, ?_, ?_, ?_⟩
  · intro a ha
    obtain ⟨ha, hne⟩ := mem_rows_rowRemoved.mp ha
    refine (h.rows a ha).mono (fun _ _ => rfl) fun v hid => ?_
    rw [mem_variants_rowRemoved, hid]
    exact and_iff_left hne
  · intro v hv
    obtain ⟨hv, hne⟩ := mem_variants_rowRemoved.mp hv
    obtain ⟨a, ha, hid⟩ := h.variants v hv
    exact ⟨a, mem_rows_rowRemoved.mpr ⟨ha, hid ▸ hne⟩, hid⟩
  · intro r' job' hjob'
    rcases jobs_rowRemoved hjob' with ⟨-, rfl⟩ | ⟨-, hjob'⟩
    · have honly := hheld.only _ mem_names_publicId
      refine ⟨⟨honly.issued, fun hruns => honly.idle (World.runs_rowRemoved hruns), ?_⟩, ?_⟩
      · intro a ha hn
        obtain ⟨ha, hne⟩ := mem_rows_rowRemoved.mp ha
        exact hne (by rw [honly.row a ha hn])
      · intro key hkey
        rcases List.mem_cons.mp hkey with rfl | hkey
        · exact hheld.owner
        · obtain ⟨v, hv, rfl⟩ := List.mem_map.mp hkey
          exact howner v hv
    · exact (h.jobs r' job' hjob').mono World.advances_rowRemoved fun _ _ => rfl
  · intro htidy key hkey
    rcases h.accounted htidy key hkey with ⟨a, ha, hnames⟩ | ⟨r', job', hjob', hk⟩
    · by_cases hid : a.id = asset.id
      · have hname : Name.rowId asset.id ∈ a.names := by
          rw [← hid]
          exact mem_names_rowId
        obtain rfl := (hheld.only _ mem_names_rowId).row a ha hname
        refine Or.inr ⟨r, _, Function.update_self .., ?_⟩
        rcases hnames with rfl | ⟨v, hv, hvid, rfl⟩
        · exact List.mem_cons_self
        · exact List.mem_cons_of_mem _ (List.mem_map_of_mem (hall ha v hv hvid))
      · refine Or.inl ⟨a, mem_rows_rowRemoved.mpr ⟨ha, hid⟩, hnames.imp_right ?_⟩
        rintro ⟨v, hv, hvid, hkey⟩
        exact ⟨v, mem_variants_rowRemoved.mpr ⟨hv, hvid ▸ hid⟩, hvid, hkey⟩
    · refine Or.inr ⟨r', job', (Function.update_of_ne ?_ _ _).trans hjob', hk⟩
      rintro rfl
      obtain rfl := Option.some.inj (hjob.symm.trans hjob')
      cases hk
  · exact fun hsmooth => (h.settled hsmooth r _ hjob).elim

/-! ### Crashes -/

lemma putting_eq_some {job : Option Job} {key : String} (h : putting job = some key) :
    ∃ x d buffer left written,
      job = some (.upload x (.storing d ((key, buffer) :: left) written)) := by
  unfold putting at h
  split at h
  · cases h
    exact ⟨_, _, _, _, _, rfl⟩
  · cases h

/-- A file that is not what it was belongs to an upload that was putting it. -/
lemma tear_ne {jobs : ℕ → Option Job} {files : String → Option Buffer} {torn : List (ℕ × Buffer)}
    {key : String} (h : tear jobs files torn key ≠ files key) : ∃ r x d buffer left written,
      jobs r = some (.upload x (.storing d ((key, buffer) :: left) written)) := by
  induction torn generalizing files with
  | nil => exact absurd rfl h
  | cons entry torn ih =>
    obtain ⟨r, bytes⟩ := entry
    cases hputting : putting (jobs r) with
    | none =>
      simp only [tear, hputting] at h
      exact ih h
    | some key' =>
      simp only [tear, hputting] at h
      by_cases hkey : key = key'
      · subst hkey
        exact ⟨r, putting_eq_some hputting⟩
      · refine ih (?_ : tear jobs (put files key' bytes) torn key ≠ put files key' bytes key)
        rwa [show put files key' bytes key = files key from Function.update_of_ne hkey _ _]

lemma World.Inv.crash (h : w.Inv env tidy smooth) (htidy : ¬tidy) (torn : List (ℕ × Buffer)) :
    ({ w with
      locked := fun _ => none
      files := tear w.jobs w.files torn
      jobs := fun _ => none } : World).Inv env tidy smooth where
  named :=
    { rowsIssued := h.named.rowsIssued
      jobsIssued := by simp
      rows := h.named.rows
      rowsIdle := by simp [World.Runs]
      jobs := by simp }
  rows a ha := by
    refine (h.rows a ha).mono (fun key hkey => ?_) fun _ _ => Iff.rfl
    by_contra hne
    obtain ⟨r, x, d, buffer, left, written, hjob⟩ := tear_ne hne
    obtain ⟨hd, done, hputs, -, -⟩ := h.jobs r _ hjob
    have howner : keyOwner key = d.asset.publicId :=
      hd.owner_put (p := (key, buffer)) (by rw [hputs]; simp)
    refine h.named.rowsIdle a ha _ mem_names_publicId ⟨r, _, hjob, ?_⟩
    rw [← hkey, howner]
    exact List.mem_singleton_self _
  variants := h.variants
  jobs := by simp
  accounted ht := absurd ht htidy
  settled _ := by simp

end Rows

/-! ### Every step -/

/-- The step is no crash and no failed deletion. -/
def Action.Tidy : Action → Prop
  | .crash _ => False
  | .clean _ _ removed | .delete _ removed => removed = true
  | _ => True

/-- The step does not fail, is no crash and starts no removal. -/
def Action.Smooth : Action → Prop
  | .fail _ | .crash _ | .arriveRemove _ _ => False
  | _ => True

section Steps

variable {env : MediaEnv} {tidy smooth : Prop} {w w' : World} {r : ℕ} {job job₀ : Job}

/-- A running request goes on with the names and files it has. -/
lemma World.Inv.goOn (h : w.Inv env tidy smooth) (hjob : w.jobs r = some job₀)
    (hnames : job.names ⊆ job₀.names) (hsound : job.Sound env w)
    (hkeys : job₀.keys ⊆ job.keys) (hsettled : smooth → job.Settled env w.media) :
    (w.setJob r job).Inv env tidy smooth := by
  refine h.quiet (fun n hn => ⟨job₀, hjob, hnames hn⟩) hsound (fun _ job₁ hjob₁ key hk => ?_) hsettled
  obtain rfl := Option.some.inj (hjob.symm.trans hjob₁)
  exact hkeys hk

/-- A file is still the request's, or was none of its. -/
lemma kept_or_other {key : String} (hjob : w.jobs r = some job₀) (hkey : w.files key ≠ none)
    (hkeys : key ∈ job₀.keys → key ∈ job.keys) :
    key ∈ job.keys ∨ (w.files key ≠ none ∧ ∀ job₁, w.jobs r = some job₁ → key ∉ job₁.keys) := by
  by_cases hmem : key ∈ job.keys
  · exact Or.inl hmem
  · refine Or.inr ⟨hkey, fun job₁ hjob₁ hk => ?_⟩
    obtain rfl := Option.some.inj (hjob.symm.trans hjob₁)
    exact hmem (hkeys hk)

variable {x : Upload} {d : Draft}

lemma sound_storing_owner {left : List (String × Buffer)} {written : List String}
    (h : (Job.upload x (.storing d left written)).Sound env w) :
    ∀ key ∈ written, keyOwner key = d.asset.publicId := by
  obtain ⟨hd, done, hputs, rfl, -⟩ := h
  intro key hkey
  obtain ⟨p, hp, rfl⟩ := List.mem_map.mp hkey
  exact hd.owner_put (hputs ▸ List.mem_append_left _ hp)

/-- A draft gets a public id that was not given out. -/
lemma World.Inv.draw (h : w.Inv env tidy smooth) {detected : FileType} {kind : Crud.MediaAssetKind}
    (hjob : w.jobs r = some (.upload x (.absent detected kind))) {p : Processed}
    (hprocess : process env x.buffer detected kind = .ok p) {publicId : String} {year month : ℕ}
    (hid : isUuid publicId = true) (hnew : publicId ∉ w.usedIds)
    (hd : d = draftOf env x detected kind p (dirOf year month) publicId) :
    ({ w with usedIds := publicId :: w.usedIds }.setJob r (.upload x (.storing d d.puts []))).Inv
      env tidy smooth := by
  have hdraft : DraftOf env x d := by
    rw [hd]
    exact draftOf_drafted (h.jobs r _ hjob) hprocess hid year month
  have howner : d.asset.publicId = publicId := by
    rw [hd]
    rfl
  refine h.move ⟨rfl, rfl, ?_, ?_, fun _ hne => absurd rfl hne⟩
    ⟨hdraft, [], rfl, rfl, by simp [Stored]⟩
    (fun _ key hkey => Or.inr ⟨hkey, ?_⟩) fun _ => trivial
  · intro n hn
    cases n with
    | publicId s => exact List.mem_cons_of_mem _ hn
    | rowId n => exact hn
  · intro n hn
    obtain rfl := List.mem_singleton.mp hn
    rw [howner]
    exact Or.inr ⟨hnew, List.mem_cons_self⟩
  · intro job₀ hjob₀
    obtain rfl := Option.some.inj (hjob.symm.trans hjob₀)
    exact List.not_mem_nil

/-- A put writes the next file of the draft and no other. -/
lemma World.Inv.put (h : w.Inv env tidy smooth) {key : String} {buffer : Buffer}
    {left : List (String × Buffer)} {written : List String}
    (hjob : w.jobs r = some (.upload x (.storing d ((key, buffer) :: left) written))) :
    ({ w with files := Media.put w.files key buffer }.setJob r
      (.upload x (.storing d left (written ++ [key])))).Inv env tidy smooth := by
  obtain ⟨hd, done, hputs, hwritten, hstored⟩ := h.jobs r _ hjob
  have howner : keyOwner key = d.asset.publicId :=
    hd.owner_put (p := (key, buffer)) (by rw [hputs]; simp)
  have hput : ∀ k, k ≠ key → Media.put w.files key buffer k = w.files k :=
    fun k hk => Function.update_of_ne hk _ _
  refine h.move ⟨rfl, rfl, fun _ hn => hn, fun n hn => Or.inl ⟨_, hjob, hn⟩, ?_⟩ ?_ ?_
    fun _ => trivial
  · intro k hne
    have hk : k = key := by
      by_contra hk
      exact hne (hput k hk)
    rw [hk]
    refine Or.inl ⟨_, hjob, ?_⟩
    rw [howner]
    exact List.mem_singleton_self _
  · refine ⟨hd, done ++ [(key, buffer)], by rw [hputs, List.append_assoc]; rfl,
      by simp [hwritten], ?_⟩
    intro p hp
    rcases List.mem_append.mp hp with hp | hp
    · show Media.put w.files key buffer p.1 = some p.2
      rw [hput p.1, hstored p hp]
      -- the keys of a draft are distinct
      intro hk
      have hnodup := hd.keys_nodup
      rw [hputs, List.map_append, List.nodup_append] at hnodup
      exact hnodup.2.2 p.1 (List.mem_map_of_mem hp) key List.mem_cons_self hk
    · obtain rfl := List.mem_singleton.mp hp
      exact Function.update_self ..
  · intro _ k hk
    by_cases hne : k = key
    · exact Or.inl (List.mem_append_right _ (List.mem_singleton.mpr hne))
    · exact kept_or_other hjob (by rwa [← hput k hne]) fun hk => List.mem_append_left _ hk

/-- A request deletes a file of its own. -/
lemma World.Inv.remove (h : w.Inv env tidy smooth) {key : String} {removed : Bool}
    (hjob : w.jobs r = some job₀) (hnames : job.names ⊆ job₀.names) (hmay : w.MayWrite r key)
    (hsound : ∀ w₁ : World, w.Advances w₁ → job.Sound env w₁) (hremoved : tidy → removed = true)
    (hkeys : ∀ k ∈ job₀.keys, k = key ∨ k ∈ job.keys)
    (hsettled : smooth → job.Settled env w.media) :
    ({ w with files := Media.remove w.files key removed }.setJob r job).Inv env tidy smooth := by
  have hm : w.Moves r { w with files := Media.remove w.files key removed } job := by
    refine ⟨rfl, rfl, fun _ hn => hn, fun n hn => Or.inl ⟨job₀, hjob, hnames hn⟩, ?_⟩
    intro k hne
    have hk : k = key := by
      by_contra hk
      apply hne
      show Media.remove w.files key removed k = w.files k
      simp only [Media.remove]
      split
      · exact Function.update_of_ne hk _ _
      · rfl
    rw [hk]
    exact hmay
  refine h.move hm (hsound _ hm.advances) (fun htidy k hk => ?_) hsettled
  have hk : Function.update w.files key none k ≠ none := by
    have hk : Media.remove w.files key removed k ≠ none := hk
    rwa [Media.remove, if_pos (hremoved htidy)] at hk
  have hne : k ≠ key := by
    rintro rfl
    exact hk (Function.update_self ..)
  rw [Function.update_of_ne hne] at hk
  exact kept_or_other hjob hk fun hk₁ => (hkeys k hk₁).resolve_left hne

/-- The insertion of a row takes an id that was not given out. -/
lemma World.Inv.insertRow (h : w.Inv env tidy smooth) {written : List String}
    (hjob : w.jobs r = some (.upload x (.storing d [] written))) (locked : String → Option ℕ) :
    ({ w with nextId := w.nextId + 1, locked := locked }.setJob r
      (.upload x (.saving d w.nextId (d.variantRows w.nextId) written))).Inv env tidy smooth := by
  obtain ⟨hd, done, hputs, hwritten, hstored⟩ := h.jobs r _ hjob
  rw [List.append_nil] at hputs
  refine h.move ⟨rfl, rfl, ?_, ?_, fun _ hne => absurd rfl hne⟩
    ⟨hd, by rw [hputs, hwritten], hputs ▸ hstored⟩
    (fun _ key hkey => kept_or_other hjob hkey fun hk => hk) fun _ => trivial
  · intro n hn
    cases n with
    | publicId s => exact hn
    | rowId n => exact Nat.lt_succ_of_lt hn
  · intro n hn
    rcases List.mem_cons.mp hn with rfl | hn
    · exact Or.inl ⟨_, hjob, List.mem_singleton_self _⟩
    · obtain rfl := List.mem_singleton.mp hn
      exact Or.inr ⟨Nat.lt_irrefl _, Nat.lt_succ_self _⟩

/-- A transaction is rolled back, and its files are to be deleted. -/
lemma World.Inv.rollback (h : w.Inv env tidy smooth) (hsmooth : ¬smooth) {id : ℕ}
    {left : List MediaVariant} {written : List String}
    (hjob : w.jobs r = some (.upload x (.saving d id left written))) (locked : String → Option ℕ) :
    ({ w with locked := locked }.setJob r (.upload x (.cleaning d written false))).Inv
      env tidy smooth := by
  obtain ⟨hd, hwritten, -⟩ := h.jobs r _ hjob
  refine h.move ⟨rfl, rfl, fun _ hn => hn, ?_, fun _ hne => absurd rfl hne⟩ ⟨hd, ?_⟩
    (fun _ key hkey => kept_or_other hjob hkey fun hk => hk) fun hs => absurd hs hsmooth
  · intro n hn
    obtain rfl := List.mem_singleton.mp hn
    exact Or.inl ⟨_, hjob, mem_names_publicId (a := d.row id)⟩
  · intro key hkey
    exact hd.owner (hwritten ▸ hkey)

/-- An upload deletes one of the files it has stored. -/
lemma World.Inv.clean (h : w.Inv env tidy smooth) {left : List String} {duplicate : Bool}
    (hjob : w.jobs r = some (.upload x (.cleaning d left duplicate))) {key : String}
    (hmem : key ∈ left) {removed : Bool} (hremoved : tidy → removed = true) :
    ({ w with files := Media.remove w.files key removed }.setJob r
      (.upload x (.cleaning d (left.erase key) duplicate))).Inv env tidy smooth := by
  obtain ⟨hd, howner⟩ := h.jobs r _ hjob
  have hmay : w.MayWrite r key := by
    refine Or.inl ⟨_, hjob, ?_⟩
    rw [howner key hmem]
    exact List.mem_singleton_self _
  refine h.remove hjob (List.Subset.refl _) hmay
    (fun _ _ => ⟨hd, fun k hk => howner k (List.mem_of_mem_erase hk)⟩) hremoved ?_ ?_
  · intro k hk
    by_cases hkey : k = key
    · exact Or.inl hkey
    · exact Or.inr ((List.mem_erase_of_ne hkey).mpr hk)
  · intro hsmooth
    have hsettled := h.settled hsmooth r _ hjob
    cases duplicate with
    | false => exact hsettled
    | true => exact hsettled

lemma World.Inv.uploadStep {a : Action} {stage : UploadStage} (h : w.Inv env tidy smooth)
    (htidy : tidy → a.Tidy) (hjob : w.jobs r = some (.upload x stage))
    (hs : Media.uploadStep env w r x stage a = some w') : w'.Inv env tidy smooth := by
  have hsound := h.jobs r _ hjob
  unfold Media.uploadStep at hs
  split at hs
  · -- `check`
    split at hs
    · next p hcheck =>
      cases hs
      exact h.goOn hjob (List.nil_subset _) trivial (List.nil_subset _)
        fun _ => by simp [Job.Settled, refusal, hcheck]
    · next hcheck =>
      cases hs
      exact h.goOn hjob (List.nil_subset _) hcheck (List.nil_subset _) fun _ => trivial
  · -- `findExisting`
    split at hs
    · next hexisting =>
      cases hs
      exact h.goOn hjob (List.nil_subset _) trivial (List.nil_subset _) fun _ => hexisting
    · cases hs
      exact h.goOn hjob (List.nil_subset _) hsound (List.nil_subset _) fun _ => trivial
  · -- `process`
    split at hs
    · next p hprocess =>
      cases hs
      have hcheck : check env x.buffer = .ok _ := hsound
      exact h.goOn hjob (List.nil_subset _) trivial (List.nil_subset _)
        fun _ => by simp [Job.Settled, refusal, hcheck, hprocess]
    · next p hprocess =>
      split at hs
      · next hid =>
        cases hs
        exact h.draw hjob hprocess hid.1 hid.2 rfl
      · cases hs
  · -- `put`
    cases hs
    exact h.put hjob
  · -- `saveAsset`
    split at hs
    · next a hduplicate =>
      cases hs
      refine h.goOn hjob (List.Subset.refl _) ⟨hsound.1, sound_storing_owner hsound⟩
        (List.Subset.refl _) fun _ => ⟨a, ?_⟩
      rw [← hsound.1.checksum]
      exact hduplicate
    · cases hs
    · cases hs
      exact h.insertRow hjob _
  · -- `saveVariant`
    cases hs
    exact h.goOn hjob (List.Subset.refl _) hsound (List.Subset.refl _) fun _ => trivial
  · -- `commit`
    split at hs
    · cases hs
    · next assets hinsert =>
      cases hs
      exact h.committed hjob hinsert
  · -- `clean`
    split at hs
    · next hmem =>
      cases hs
      exact h.clean hjob hmem htidy
    · cases hs
  · -- `settle`, with another error than a duplicate
    cases hs
    exact h.goOn hjob (List.nil_subset _) trivial (List.nil_subset _)
      fun hsmooth => (h.settled hsmooth r _ hjob).elim
  · -- `settle`
    split at hs
    · next hwinner =>
      cases hs
      exact h.goOn hjob (List.nil_subset _) trivial (List.nil_subset _) fun _ => hwinner
    · next hnone =>
      cases hs
      refine h.goOn hjob (List.nil_subset _) trivial (List.nil_subset _) fun hsmooth => ?_
      obtain ⟨a, ha⟩ := h.settled hsmooth r _ hjob
      rw [hnone] at ha
      cases ha
  · cases hs

lemma World.Inv.uploadFail {stage : UploadStage} (h : w.Inv env tidy smooth) (hsmooth : ¬smooth)
    (hjob : w.jobs r = some (.upload x stage))
    (hs : Media.uploadFail w r x stage = some w') : w'.Inv env tidy smooth := by
  have hsound := h.jobs r _ hjob
  unfold Media.uploadFail at hs
  split at hs
  · cases hs
    exact h.goOn hjob (List.nil_subset _) trivial (List.nil_subset _) fun hs => absurd hs hsmooth
  · cases hs
    exact h.goOn hjob (List.nil_subset _) trivial (List.nil_subset _) fun hs => absurd hs hsmooth
  · cases hs
    exact h.goOn hjob (List.nil_subset _) trivial (List.nil_subset _) fun hs => absurd hs hsmooth
  · cases hs
    exact h.goOn hjob (List.nil_subset _) trivial (List.nil_subset _) fun hs => absurd hs hsmooth
  · cases hs
    exact h.goOn hjob (List.Subset.refl _) ⟨hsound.1, sound_storing_owner hsound⟩
      (List.Subset.refl _) fun hs => absurd hs hsmooth
  · cases hs
    exact h.rollback hsmooth hjob _
  · cases hs

/-- A row found in the table is nobody else's. -/
lemma World.Inv.held_of_mem (h : w.Inv env tidy smooth) {asset : MediaAsset}
    (hasset : asset ∈ w.media.assets.rows) : w.Held asset where
  only n hn :=
    { issued := h.named.rowsIssued asset hasset n hn
      idle := h.named.rowsIdle asset hasset n hn
      row := fun a ha hna => h.named.rows a ha asset hasset n hna hn }
  owner := (h.rows asset hasset).owner (Or.inl rfl)

lemma World.Inv.removeStep {a : Action} {path : String} {stage : RemoveStage}
    (h : w.Inv env tidy smooth) (htidy : tidy → a.Tidy)
    (hjob : w.jobs r = some (.remove path stage))
    (hs : Media.removeStep env w r path stage a = some w') : w'.Inv env tidy smooth := by
  have hsound := h.jobs r _ hjob
  have hsmooth : ¬smooth := fun hsmooth => (h.settled hsmooth r _ hjob).elim
  unfold Media.removeStep at hs
  split at hs
  · -- `findById`
    split at hs
    · cases hs
      exact h.goOn hjob (List.nil_subset _) trivial (List.nil_subset _) fun hs => absurd hs hsmooth
    · next asset hfind =>
      cases hs
      obtain ⟨id, -, hfind⟩ := Option.bind_eq_some_iff.mp hfind
      exact h.goOn hjob (List.nil_subset _) (h.held_of_mem (Table.find_eq_some.mp hfind).1)
        (List.nil_subset _) fun hs => absurd hs hsmooth
  · cases hs
    exact h.goOn hjob (List.nil_subset _) hsound (List.nil_subset _) fun hs => absurd hs hsmooth
  · cases hs
    exact h.goOn hjob (List.nil_subset _) trivial (List.nil_subset _) fun hs => absurd hs hsmooth
  · -- `findVariants`
    next asset _ =>
    cases hs
    refine h.goOn hjob (List.nil_subset _) ⟨hsound, ?_, ?_⟩ (List.nil_subset _)
      fun hs => absurd hs hsmooth
    · intro v hv
      rw [List.mem_filter, decide_eq_true_eq] at hv
      obtain ⟨a, ha, hid⟩ := h.variants v hv.1
      have hname : Name.rowId asset.id ∈ a.names := by
        rw [← hv.2, ← hid]
        exact mem_names_rowId
      obtain rfl := (hsound.only _ mem_names_rowId).row a ha hname
      exact (h.rows a ha).owner (Or.inr ⟨v, hv.1, hv.2, rfl⟩)
    · intro _ v hv hid
      exact List.mem_filter.mpr ⟨hv, decide_eq_true hid⟩
  · cases hs
    exact h.rowRemoved hjob
  · -- `delete`, the last file
    next asset key _ removed =>
    cases hs
    obtain ⟨hgone, howner⟩ := hsound
    have hkey : keyOwner key = asset.publicId := howner key (List.mem_singleton_self _)
    refine h.remove hjob (List.nil_subset _) (Or.inr (hkey ▸ hgone)) (fun _ _ => trivial) htidy ?_
      fun hs => absurd hs hsmooth
    exact fun k hk => Or.inl (List.mem_singleton.mp hk)
  · -- `delete`
    next asset key left _ _ removed =>
    cases hs
    obtain ⟨hgone, howner⟩ := hsound
    have hkey : keyOwner key = asset.publicId := howner key List.mem_cons_self
    refine h.remove hjob (List.nil_subset _) (Or.inr (hkey ▸ hgone)) (fun _ hw => ⟨hgone.mono hw, ?_⟩)
      htidy ?_ fun hs => absurd hs hsmooth
    · exact fun k hk => howner k (List.mem_cons_of_mem _ hk)
    · exact fun k hk => List.mem_cons.mp hk
  · cases hs

lemma World.Inv.removeFail {path : String} {stage : RemoveStage} (h : w.Inv env tidy smooth)
    (hsmooth : ¬smooth) (hjob : w.jobs r = some (.remove path stage))
    (hs : Media.removeFail w r path stage = some w') : w'.Inv env tidy smooth := by
  unfold Media.removeFail at hs
  split at hs <;> cases hs <;>
    exact h.goOn hjob (List.nil_subset _) trivial (List.nil_subset _) fun hs => absurd hs hsmooth

lemma World.Inv.jobStep {a : Action} (h : w.Inv env tidy smooth) (htidy : tidy → a.Tidy)
    (hsmooth : smooth → a.Smooth) (hs : Media.jobStep env w r a = some w') :
    w'.Inv env tidy smooth := by
  unfold Media.jobStep at hs
  split at hs
  · next hnone =>
    cases hs
    exact h.quiet (fun _ hn => (List.not_mem_nil hn).elim) trivial
      (fun _ job₀ hjob₀ => by rw [hnone] at hjob₀; cases hjob₀) fun _ => trivial
  · next hnone =>
    cases hs
    exact h.quiet (fun _ hn => (List.not_mem_nil hn).elim) trivial
      (fun _ job₀ hjob₀ => by rw [hnone] at hjob₀; cases hjob₀) hsmooth
  · next hjob => exact h.uploadFail hsmooth hjob hs
  · next hjob => exact h.removeFail hsmooth hjob hs
  · next hjob _ => exact h.uploadStep htidy hjob hs
  · next hjob _ => exact h.removeStep htidy hjob hs
  · cases hs

/-- The invariant holds after every step of every party. -/
lemma World.Inv.step {a : Action} (h : w.Inv env tidy smooth) (htidy : tidy → a.Tidy)
    (hsmooth : smooth → a.Smooth) (hs : Media.step env w a = some w') : w'.Inv env tidy smooth := by
  unfold Media.step at hs
  split at hs
  · cases hs
    exact h.crash htidy _
  · cases hs
  · exact h.jobStep htidy hsmooth hs

lemma inv_init (env : MediaEnv) (tidy smooth : Prop) : World.init.Inv env tidy smooth where
  named :=
    { rowsIssued := fun _ ha => (List.not_mem_nil ha).elim
      jobsIssued := by simp [World.init]
      rows := fun _ ha => (List.not_mem_nil ha).elim
      rowsIdle := fun _ ha => (List.not_mem_nil ha).elim
      jobs := by simp [World.init] }
  rows _ ha := (List.not_mem_nil ha).elim
  variants _ hv := (List.not_mem_nil hv).elim
  jobs := by simp [World.init]
  accounted _ _ hkey := absurd rfl hkey
  settled := by simp [World.init]

lemma inv_reach {ok : World → Action → Prop} (htidy : ∀ w a, ok w a → tidy → a.Tidy)
    (hsmooth : ∀ w a, ok w a → smooth → a.Smooth) (h : Reach (Media.step env) ok World.init w) :
    w.Inv env tidy smooth :=
  h.invariant (inv_init env tidy smooth)
    fun w a _ hi hok hs => hi.step (htidy w a hok) (hsmooth w a hok) hs

end Steps

end SafeerApi.Media
