import SafeerApi.Media.Agreement

/-!
# Uploads come to an end

When nothing fails and nothing is removed, an upload waits for nothing but the transaction of another
upload of the same checksum, which itself waits for nothing. So each upload can be run to its end, and
all uploads of the same bytes end with the same row.
-/

namespace SafeerApi.Media

open Lib

/-! ### Locks -/

/-- The checksum a transaction has inserted. -/
def Job.lock : Job → Option String
  | .upload _ (.saving d _ _ _) => some d.asset.checksumSha256
  | _ => none

lemma saving_of_lock {job : Job} {c : String} (h : job.lock = some c) :
    ∃ x d id left written, job = .upload x (.saving d id left written) ∧
      d.asset.checksumSha256 = c := by
  unfold Job.lock at h
  split at h
  · cases h
    exact ⟨_, _, _, _, _, rfl, rfl⟩
  · cases h

/-- A checksum is locked exactly while a transaction has inserted it, and no row has it then. -/
structure World.Locks (w : World) : Prop where
  held : ∀ r job c, w.jobs r = some job → job.lock = some c →
    w.locked c = some r ∧ w.media.assets.lookup c = none
  holder : ∀ c r, w.locked c = some r → ∃ job, w.jobs r = some job ∧ job.lock = some c

section Locks

variable {env : MediaEnv} {w w₁ w' : World} {r : ℕ} {job : Job} {x : Upload} {d : Draft}

lemma locks_init : World.init.Locks where
  held := by simp [World.init]
  holder := by simp [World.init]

/-- A request goes on with the locks it has. -/
lemma World.Locks.goOn (h : w.Locks) (hjobs : w₁.jobs = w.jobs) (hlocked : w₁.locked = w.locked)
    (hmedia : w₁.media = w.media)
    (hlock : ∀ c, job.lock = some c ↔ ∃ job₀, w.jobs r = some job₀ ∧ job₀.lock = some c) :
    (w₁.setJob r job).Locks where
  held r' job' c hjob' hc := by
    show w₁.locked c = _ ∧ w₁.media.assets.lookup c = _
    rw [hlocked, hmedia]
    rcases jobs_setJob hjob' with ⟨rfl, rfl⟩ | ⟨-, hjob'⟩
    · obtain ⟨job₀, hjob₀, hc⟩ := (hlock c).mp hc
      exact h.held r' job₀ c hjob₀ hc
    · exact h.held r' job' c (hjobs ▸ hjob') hc
  holder c r' hr' := by
    obtain ⟨job', hjob', hc⟩ := h.holder c r' (hlocked ▸ hr')
    by_cases hr : r' = r
    · subst hr
      exact ⟨job, Function.update_self .., (hlock c).mpr ⟨job', hjob', hc⟩⟩
    · exact ⟨job', (Function.update_of_ne hr _ _).trans (hjobs ▸ hjob'), hc⟩

lemma World.Locks.stay (h : w.Locks) {job₀ : Job} (hjob : w.jobs r = some job₀)
    (hjobs : w₁.jobs = w.jobs) (hlocked : w₁.locked = w.locked) (hmedia : w₁.media = w.media)
    (hlock : job.lock = job₀.lock) : (w₁.setJob r job).Locks := by
  apply h.goOn hjobs hlocked hmedia
  intro c
  rw [hlock]
  constructor
  · exact fun hc => ⟨job₀, hjob, hc⟩
  · rintro ⟨job₁, hjob₁, hc⟩
    obtain rfl := Option.some.inj (hjob.symm.trans hjob₁)
    exact hc

lemma World.Locks.insert (h : w.Locks) {job₀ : Job} (hjob : w.jobs r = some job₀)
    (hlock₀ : job₀.lock = none) {c : String} (hlock : job.lock = some c)
    (hlocked : w.locked c = none) (hlookup : w.media.assets.lookup c = none) (n : ℕ) :
    ({ w with nextId := n, locked := Function.update w.locked c (some r) }.setJob r job).Locks where
  held r' job' c' hjob' hc' := by
    rcases jobs_setJob hjob' with ⟨rfl, rfl⟩ | ⟨-, hjob'⟩
    · obtain rfl := Option.some.inj (hlock.symm.trans hc')
      exact ⟨Function.update_self .., hlookup⟩
    · obtain ⟨hheld, hnone⟩ := h.held r' job' c' hjob' hc'
      refine ⟨(Function.update_of_ne ?_ _ _).trans hheld, hnone⟩
      rintro rfl
      rw [hlocked] at hheld
      cases hheld
  holder c' r' hr' := by
    rcases update_eq_some hr' with ⟨rfl, rfl⟩ | ⟨-, hr'⟩
    · exact ⟨job, Function.update_self .., hlock⟩
    · obtain ⟨job', hjob', hc'⟩ := h.holder c' r' hr'
      refine ⟨job', (Function.update_of_ne ?_ _ _).trans hjob', hc'⟩
      rintro rfl
      obtain rfl := Option.some.inj (hjob.symm.trans hjob')
      rw [hlock₀] at hc'
      cases hc'

lemma World.Locks.committed (h : w.Locks) {id : ℕ} {left : List MediaVariant}
    {written : List String} {assets : MediaAssets}
    (hjob : w.jobs r = some (.upload x (.saving d id left written)))
    (hinsert : w.media.assets.insert (d.row id) = some assets) :
    (w.committed r x d id assets).Locks where
  held r' job' c hjob' hc := by
    rcases jobs_committed hjob' with ⟨-, rfl⟩ | ⟨hne, hjob'⟩
    · cases hc
    · obtain ⟨hheld, hnone⟩ := h.held r' job' c hjob' hc
      have hother : c ≠ d.asset.checksumSha256 := by
        rintro rfl
        rw [(h.held r _ _ hjob rfl).1] at hheld
        exact hne (Option.some.inj hheld).symm
      refine ⟨(Function.update_of_ne hother _ _).trans hheld, ?_⟩
      show assets.lookup c = none
      rw [UniqueTable.lookup_insert hinsert, if_neg (show c ≠ (d.row id).checksumSha256 from hother)]
      exact hnone
  holder c r' hr' := by
    obtain ⟨hother, hr'⟩ := update_none_eq_some hr'
    obtain ⟨job', hjob', hc⟩ := h.holder c r' hr'
    refine ⟨job', (Function.update_of_ne ?_ _ _).trans hjob', hc⟩
    rintro rfl
    obtain rfl := Option.some.inj (hjob.symm.trans hjob')
    exact hother (Option.some.inj hc).symm

lemma World.Locks.uploadStep {stage : UploadStage} {a : Action} (h : w.Locks)
    (hjob : w.jobs r = some (.upload x stage))
    (hs : Media.uploadStep env w r x stage a = some w') : w'.Locks := by
  unfold Media.uploadStep at hs
  split at hs
  · split at hs <;> cases hs <;> exact h.stay hjob rfl rfl rfl rfl
  · split at hs <;> cases hs <;> exact h.stay hjob rfl rfl rfl rfl
  · split at hs
    · cases hs
      exact h.stay hjob rfl rfl rfl rfl
    · split at hs
      · cases hs
        exact h.stay hjob rfl rfl rfl rfl
      · cases hs
  · cases hs
    exact h.stay hjob rfl rfl rfl rfl
  · split at hs
    · cases hs
      exact h.stay hjob rfl rfl rfl rfl
    · cases hs
    · next hlookup hlocked =>
      cases hs
      exact h.insert hjob rfl rfl hlocked hlookup _
  · cases hs
    exact h.stay hjob rfl rfl rfl rfl
  · split at hs
    · cases hs
    · next hinsert =>
      cases hs
      exact h.committed hjob hinsert
  · split at hs
    · cases hs
      exact h.stay hjob rfl rfl rfl rfl
    · cases hs
  · cases hs
    exact h.stay hjob rfl rfl rfl rfl
  · split at hs <;> cases hs <;> exact h.stay hjob rfl rfl rfl rfl
  · cases hs

end Locks

/-! ### Runs without failures and removals -/

/-- What holds in every state of a run without failures and removals. -/
structure World.Fine (env : MediaEnv) (w : World) : Prop where
  inv : w.Inv env False True
  locks : w.Locks

section Fine

variable {env : MediaEnv} {w w' : World} {r : ℕ} {x : Upload} {d : Draft}

lemma World.Fine.locks_jobStep {a : Action} (h : w.Fine env) (hsmooth : a.Smooth)
    (hs : jobStep env w r a = some w') : w'.Locks := by
  unfold jobStep at hs
  split at hs
  · next hnone =>
    cases hs
    apply h.locks.goOn rfl rfl rfl
    intro c
    simp [Job.lock, hnone]
  · exact hsmooth.elim
  · exact hsmooth.elim
  · exact hsmooth.elim
  · next hjob _ => exact h.locks.uploadStep hjob hs
  · next hjob _ => exact (h.inv.settled trivial _ _ hjob).elim
  · cases hs

lemma World.Fine.step {a : Action} (h : w.Fine env) (hsmooth : a.Smooth)
    (hs : Media.step env w a = some w') : w'.Fine env := by
  refine ⟨h.inv.step False.elim (fun _ => hsmooth) hs, ?_⟩
  unfold Media.step at hs
  split at hs
  · exact hsmooth.elim
  · cases hs
  · exact h.locks_jobStep hsmooth hs

lemma fine_init (env : MediaEnv) : World.init.Fine env := ⟨inv_init env False True, locks_init⟩

lemma World.Fine.reach (h : w.Fine env)
    (hreach : Reach (Media.step env) (fun _ a => a.Smooth) w w') : w'.Fine env :=
  hreach.invariant h fun _ _ _ hi hok hs => hi.step hok hs

/-- A run goes on with one more step. -/
lemma reach_step {a : Action} (hsmooth : a.Smooth) (hs : Media.step env w a = some w') :
    Reach (Media.step env) (fun _ a => a.Smooth) w w' :=
  Reach.init.snoc a hsmooth hs

/-- The step of an upload is the system's. -/
lemma step_of_uploadStep {stage : UploadStage} {a : Action} (ha : a.job = some r)
    (hsmooth : a.Smooth) (hjob : w.jobs r = some (.upload x stage))
    (hs : uploadStep env w r x stage a = some w') : Media.step env w a = some w' := by
  cases a <;> cases ha <;> first
    | exact hsmooth.elim
    | (simp only [Media.step, Action.job, jobStep, hjob]; exact hs)

/-! ### Running an upload to its end -/

/-- The upload can be run to its end without a failure and a removal. -/
def World.CanEnd (env : MediaEnv) (w : World) (r : ℕ) (x : Upload) : Prop :=
  ∃ w' outcome, Reach (Media.step env) (fun _ a => a.Smooth) w w' ∧
    w'.jobs r = some (.upload x (.ended outcome))

@[simp] lemma setJob_jobs_self (w : World) (r : ℕ) (job : Job) :
    (w.setJob r job).jobs r = some job :=
  Function.update_self ..

lemma canEnd_setJob_ended {outcome : UploadOutcome} :
    (w.setJob r (.upload x (.ended outcome))).CanEnd env r x :=
  ⟨_, outcome, .init, setJob_jobs_self ..⟩

lemma World.CanEnd.of_reach (h : w'.CanEnd env r x)
    (hreach : Reach (Media.step env) (fun _ a => a.Smooth) w w') : w.CanEnd env r x := by
  obtain ⟨w'', outcome, hreach', hjob⟩ := h
  exact ⟨w'', outcome, hreach.trans hreach', hjob⟩

lemma World.CanEnd.of_step {stage : UploadStage} {a : Action} (h : w'.CanEnd env r x)
    (ha : a.job = some r) (hjob : w.jobs r = some (.upload x stage))
    (hs : uploadStep env w r x stage a = some w') (hsmooth : a.Smooth) : w.CanEnd env r x :=
  h.of_reach (reach_step hsmooth (step_of_uploadStep ha hsmooth hjob hs))

lemma canEnd_cleaning {left : List String} {duplicate : Bool}
    (hjob : w.jobs r = some (.upload x (.cleaning d left duplicate))) : w.CanEnd env r x := by
  induction left generalizing w with
  | nil =>
    cases duplicate with
    | false => exact canEnd_setJob_ended.of_step (a := .settle r) rfl hjob rfl trivial
    | true =>
      cases hlookup : w.media.assets.lookup (env.sha256 x.buffer) with
      | none =>
        have hs : uploadStep env w r x (.cleaning d [] true) (.settle r)
            = some (w.setJob r (.upload x (.ended .failed))) := by
          simp only [uploadStep, hlookup]
        exact canEnd_setJob_ended.of_step rfl hjob hs trivial
      | some winner =>
        have hs : uploadStep env w r x (.cleaning d [] true) (.settle r)
            = some (w.setJob r (.upload x (.ended (.returned winner true)))) := by
          simp only [uploadStep, hlookup]
        exact canEnd_setJob_ended.of_step rfl hjob hs trivial
  | cons key left ih =>
    have hs : uploadStep env w r x (.cleaning d (key :: left) duplicate) (.clean r key true)
        = some ({ w with files := Media.remove w.files key true }.setJob r
          (.upload x (.cleaning d left duplicate))) := by
      simp only [uploadStep, List.mem_cons_self, if_true, List.erase_cons_head]
    exact (ih (setJob_jobs_self ..)).of_step rfl hjob hs trivial

/-- A transaction waits for nothing, and gives its checksum free. -/
lemma World.Fine.run_saving (h : w.Fine env) {id : ℕ} {left : List MediaVariant}
    {written : List String} (hjob : w.jobs r = some (.upload x (.saving d id left written))) :
    ∃ w' outcome, Reach (Media.step env) (fun _ a => a.Smooth) w w' ∧
      w'.jobs r = some (.upload x (.ended outcome)) ∧
      (∀ r', r' ≠ r → w'.jobs r' = w.jobs r') ∧ w'.locked d.asset.checksumSha256 = none := by
  induction left generalizing w with
  | nil =>
    obtain ⟨-, hlookup⟩ := h.locks.held r _ _ hjob rfl
    have hfind : w.media.assets.find (d.row id).id = none := by
      rw [Table.find_eq_none]
      intro a ha hid
      refine h.inv.named.rowsIdle a ha _ mem_names_rowId ⟨r, _, hjob, ?_⟩
      rw [show a.id = (d.row id).id from hid]
      exact mem_names_rowId
    obtain ⟨assets, hinsert⟩ := UniqueTable.exists_insert hfind hlookup
    have hs : Media.step env w (.commit r) = some (w.committed r x d id assets) := by
      refine step_of_uploadStep rfl trivial hjob ?_
      simp only [uploadStep, hinsert]
      rfl
    exact ⟨_, _, reach_step (a := .commit r) trivial hs, setJob_jobs_self ..,
      fun r' hr => Function.update_of_ne hr _ _, Function.update_self ..⟩
  | cons v left ih =>
    have hs : Media.step env w (.saveVariant r) = some (w.setJob r (.upload x
        (.saving d id left written))) := step_of_uploadStep rfl trivial hjob rfl
    obtain ⟨w', outcome, hreach, hended, hothers, hlocked⟩ :=
      ih (h.step (a := .saveVariant r) trivial hs) (setJob_jobs_self ..)
    refine ⟨w', outcome, (reach_step (a := .saveVariant r) trivial hs).trans hreach, hended,
      fun r' hr => ?_, hlocked⟩
    rw [hothers r' hr]
    exact Function.update_of_ne hr _ _

lemma World.Fine.canEnd_unlocked (h : w.Fine env) {written : List String}
    (hjob : w.jobs r = some (.upload x (.storing d [] written)))
    (hlocked : w.locked d.asset.checksumSha256 = none) : w.CanEnd env r x := by
  cases hlookup : w.media.assets.lookup d.asset.checksumSha256 with
  | some a =>
    have hs : uploadStep env w r x (.storing d [] written) (.saveAsset r)
        = some (w.setJob r (.upload x (.cleaning d written true))) := by
      simp only [uploadStep, hlookup]
    exact (canEnd_cleaning (setJob_jobs_self ..)).of_step rfl hjob hs trivial
  | none =>
    have hs : Media.step env w (.saveAsset r) = some ({ w with
        nextId := w.nextId + 1
        locked := Function.update w.locked d.asset.checksumSha256 (some r) }.setJob r
          (.upload x (.saving d w.nextId (d.variantRows w.nextId) written))) := by
      refine step_of_uploadStep rfl trivial hjob ?_
      simp only [uploadStep, hlookup, hlocked]
    obtain ⟨w', outcome, hreach, hended, -⟩ :=
      (h.step (a := .saveAsset r) trivial hs).run_saving (setJob_jobs_self ..)
    exact ⟨w', outcome, (reach_step (a := .saveAsset r) trivial hs).trans hreach, hended⟩

/-- Behind another upload of the checksum, an upload goes on when that one has ended. -/
lemma World.Fine.canEnd_stored (h : w.Fine env) {written : List String}
    (hjob : w.jobs r = some (.upload x (.storing d [] written))) : w.CanEnd env r x := by
  cases hlocked : w.locked d.asset.checksumSha256 with
  | none => exact h.canEnd_unlocked hjob hlocked
  | some r' =>
    obtain ⟨job', hjob', hlock⟩ := h.locks.holder _ r' hlocked
    have hne : r ≠ r' := by
      rintro rfl
      obtain rfl := Option.some.inj (hjob.symm.trans hjob')
      cases hlock
    obtain ⟨x', d', id, left, written', rfl, hchecksum⟩ := saving_of_lock hlock
    obtain ⟨w', outcome, hreach, -, hothers, hfree⟩ := h.run_saving hjob'
    refine World.CanEnd.of_reach ?_ hreach
    apply (h.reach hreach).canEnd_unlocked ((hothers r hne).trans hjob)
    rw [← hchecksum]
    exact hfree

lemma World.Fine.canEnd_storing (h : w.Fine env) {left : List (String × Buffer)}
    {written : List String} (hjob : w.jobs r = some (.upload x (.storing d left written))) :
    w.CanEnd env r x := by
  induction left generalizing w written with
  | nil => exact h.canEnd_stored hjob
  | cons p left ih =>
    obtain ⟨key, buffer⟩ := p
    have hs : Media.step env w (.put r) = some ({ w with
        files := Media.put w.files key buffer }.setJob r
          (.upload x (.storing d left (written ++ [key])))) :=
      step_of_uploadStep rfl trivial hjob rfl
    exact (ih (h.step (a := .put r) trivial hs) (setJob_jobs_self ..)).of_reach
      (reach_step (a := .put r) trivial hs)

lemma World.Fine.canEnd_absent (h : w.Fine env) {id : String}
    (hid : isUuid id = true ∧ id ∉ w.usedIds) {detected : FileType} {kind : Crud.MediaAssetKind}
    (hjob : w.jobs r = some (.upload x (.absent detected kind))) : w.CanEnd env r x := by
  cases hprocess : process env x.buffer detected kind with
  | error p =>
    have hs : uploadStep env w r x (.absent detected kind) (.process r id 0 0)
        = some (w.setJob r (.upload x (.ended (.refused p)))) := by
      simp only [uploadStep, hprocess]
    exact canEnd_setJob_ended.of_step rfl hjob hs trivial
  | ok p =>
    have hs : Media.step env w (.process r id 0 0) = some ({ w with
        usedIds := id :: w.usedIds }.setJob r (.upload x (.storing
          (draftOf env x detected kind p (dirOf 0 0) id)
          (draftOf env x detected kind p (dirOf 0 0) id).puts []))) := by
      refine step_of_uploadStep rfl trivial hjob ?_
      simp only [uploadStep, hprocess]
      exact if_pos hid
    exact ((h.step (a := .process r id 0 0) trivial hs).canEnd_storing
      (setJob_jobs_self ..)).of_reach (reach_step (a := .process r id 0 0) trivial hs)

lemma World.Fine.canEnd_checked (h : w.Fine env) {id : String}
    (hid : isUuid id = true ∧ id ∉ w.usedIds) {detected : FileType} {kind : Crud.MediaAssetKind}
    (hjob : w.jobs r = some (.upload x (.checked detected kind))) : w.CanEnd env r x := by
  cases hlookup : w.media.assets.lookup (env.sha256 x.buffer) with
  | some existing =>
    have hs : uploadStep env w r x (.checked detected kind) (.findExisting r)
        = some (w.setJob r (.upload x (.ended (.returned existing true)))) := by
      simp only [uploadStep, hlookup]
    exact canEnd_setJob_ended.of_step rfl hjob hs trivial
  | none =>
    have hs : Media.step env w (.findExisting r)
        = some (w.setJob r (.upload x (.absent detected kind))) := by
      refine step_of_uploadStep rfl trivial hjob ?_
      simp only [uploadStep, hlookup]
    exact ((h.step (a := .findExisting r) trivial hs).canEnd_absent hid
      (setJob_jobs_self ..)).of_reach (reach_step (a := .findExisting r) trivial hs)

/-- Every upload can be run to its end, while there is a public id left to give out. -/
lemma World.Fine.canEnd (h : w.Fine env) {id : String} (hid : isUuid id = true ∧ id ∉ w.usedIds)
    {stage : UploadStage} (hjob : w.jobs r = some (.upload x stage)) : w.CanEnd env r x := by
  cases stage with
  | received =>
    cases hcheck : check env x.buffer with
    | error p =>
      have hs : uploadStep env w r x .received (.check r)
          = some (w.setJob r (.upload x (.ended (.refused p)))) := by
        simp only [uploadStep, hcheck]
      exact canEnd_setJob_ended.of_step rfl hjob hs trivial
    | ok checked =>
      obtain ⟨detected, kind⟩ := checked
      have hs : Media.step env w (.check r)
          = some (w.setJob r (.upload x (.checked detected kind))) := by
        refine step_of_uploadStep rfl trivial hjob ?_
        simp only [uploadStep, hcheck]
      exact ((h.step (a := .check r) trivial hs).canEnd_checked hid
        (setJob_jobs_self ..)).of_reach (reach_step (a := .check r) trivial hs)
  | checked detected kind => exact h.canEnd_checked hid hjob
  | absent detected kind => exact h.canEnd_absent hid hjob
  | storing d left written => exact h.canEnd_storing hjob
  | saving d id left written =>
    obtain ⟨w', outcome, hreach, hended, -⟩ := h.run_saving hjob
    exact ⟨w', outcome, hreach, hended⟩
  | cleaning d left duplicate => exact canEnd_cleaning hjob
  | ended outcome => exact ⟨w, outcome, .init, hjob⟩

end Fine

/-! ### Whose step it is -/

section Frame

variable {env : MediaEnv} {w w' : World} {r r' : ℕ} {x : Upload} {id : String} {a : Action}

lemma jobs_uploadStep {stage : UploadStage} (hs : uploadStep env w r x stage a = some w')
    (hr : r' ≠ r) : w'.jobs r' = w.jobs r' := by
  unfold uploadStep at hs
  split at hs <;> (try split at hs) <;> (try split at hs) <;> cases hs <;>
    exact Function.update_of_ne hr _ _

lemma jobs_uploadFail {stage : UploadStage} (hs : uploadFail w r x stage = some w')
    (hr : r' ≠ r) : w'.jobs r' = w.jobs r' := by
  unfold uploadFail at hs
  split at hs <;> cases hs <;> exact Function.update_of_ne hr _ _

lemma jobs_removeStep {stage : RemoveStage} (hs : removeStep env w r id stage a = some w')
    (hr : r' ≠ r) : w'.jobs r' = w.jobs r' := by
  unfold removeStep at hs
  split at hs <;> (try split at hs) <;> cases hs <;> exact Function.update_of_ne hr _ _

lemma jobs_removeFail {stage : RemoveStage} (hs : removeFail w r id stage = some w')
    (hr : r' ≠ r) : w'.jobs r' = w.jobs r' := by
  unfold removeFail at hs
  split at hs <;> cases hs <;> exact Function.update_of_ne hr _ _

lemma jobs_jobStep (hs : jobStep env w r a = some w') (hr : r' ≠ r) : w'.jobs r' = w.jobs r' := by
  unfold jobStep at hs
  split at hs
  · cases hs
    exact Function.update_of_ne hr _ _
  · cases hs
    exact Function.update_of_ne hr _ _
  · exact jobs_uploadFail hs hr
  · exact jobs_removeFail hs hr
  · exact jobs_uploadStep hs hr
  · exact jobs_removeStep hs hr
  · cases hs

/-- A request that a step does not belong to goes on as it was, or ends with the process. -/
lemma jobs_step (hs : step env w a = some w') (hr : a.job ≠ some r) :
    w'.jobs r = w.jobs r ∨ w'.jobs r = none := by
  unfold step at hs
  split at hs
  · cases hs
    exact Or.inr rfl
  · cases hs
  · next hjob =>
    apply Or.inl
    apply jobs_jobStep hs
    rintro rfl
    exact hr hjob

/-- A run knows no request but those that take steps. -/
lemma jobs_run {as : List Action} (hrun : run (step env) w as = some w')
    (has : ∀ a ∈ as, a.job ≠ some r) (hnone : w.jobs r = none) : w'.jobs r = none := by
  induction as generalizing w with
  | nil =>
    cases hrun
    exact hnone
  | cons a as ih =>
    obtain ⟨w₁, hs, hrun⟩ := Option.bind_eq_some_iff.mp hrun
    apply ih hrun fun b hb => has b (List.mem_cons_of_mem _ hb)
    rcases jobs_step hs (has a List.mem_cons_self) with hsame | hended
    · rw [hsame]
      exact hnone
    · exact hended

end Frame

/-! ### Rows and files -/

lemma keys_of_ended {job : Job} (h : job.ended = true) : job.keys = [] := by
  unfold Job.ended at h
  split at h
  · rfl
  · rfl
  · cases h

/-- The files of a row and of its images hold what the upload of its bytes made of them. -/
lemma RowStored.holds {env : MediaEnv} {media : MediaTables} {files : String → Option Buffer}
    {a : MediaAsset} (h : RowStored env media files a) : ∃ x d, DraftOf env x d ∧ a = d.row a.id ∧
      files a.storageKey = some d.body ∧ ∀ v ∈ media.variants, v.assetId = a.id →
        ∃ image ∈ d.images, v = { image.1 with assetId := a.id } ∧
          files v.storageKey = some image.2 := by
  obtain ⟨x, d, hd, hrow, hstored, hvariants⟩ := h
  refine ⟨x, d, hd, hrow, ?_, fun v hv hid => ?_⟩
  · rw [hrow]
    exact hstored (d.asset.storageKey, d.body) List.mem_cons_self
  · obtain ⟨image, himage, rfl⟩ := List.mem_map.mp ((hvariants v).mp ⟨hv, hid⟩)
    exact ⟨image, himage, rfl,
      hstored (image.1.storageKey, image.2) (List.mem_cons_of_mem _ (List.mem_map_of_mem himage))⟩

/-- In every state of every run the files of a row, and of its images, hold what belongs there, and
no checksum has two rows. When no crash happened and no deletion failed, and all requests have ended,
every file belongs to a row. When no step failed and nothing was removed, every upload of bytes that
are accepted ends with the one row of their checksum, and can be run to its end. -/
theorem rows_and_files_agree (env : MediaEnv) :
    (∀ w, Reach (step env) always World.init w →
      (∀ a ∈ w.media.assets.rows, ∃ x d, DraftOf env x d ∧ a = d.row a.id ∧
        w.files a.storageKey = some d.body ∧ ∀ v ∈ w.media.variants, v.assetId = a.id →
          ∃ image ∈ d.images, v = { image.1 with assetId := a.id } ∧
            w.files v.storageKey = some image.2) ∧
      (∀ v ∈ w.media.variants, ∃ a ∈ w.media.assets.rows, a.id = v.assetId) ∧
      ∀ a ∈ w.media.assets.rows, ∀ b ∈ w.media.assets.rows,
        a.checksumSha256 = b.checksumSha256 → a = b) ∧
    (∀ w, Reach (step env) (fun _ a => a.Tidy) World.init w →
      (∀ r job, w.jobs r = some job → job.ended = true) →
      ∀ key, w.files key ≠ none → ∃ a ∈ w.media.assets.rows, w.media.Names a key) ∧
    ∀ w, Reach (step env) (fun _ a => a.Smooth) World.init w → ∀ r x,
      (∀ outcome, w.jobs r = some (.upload x (.ended outcome)) → refusal env x.buffer = none →
        ∃ a wasExisting, outcome = .returned a wasExisting ∧
          w.media.assets.lookup (env.sha256 x.buffer) = some a) ∧
      ∀ stage id, w.jobs r = some (.upload x stage) → isUuid id = true → id ∉ w.usedIds →
        ∃ w' outcome, Reach (step env) (fun _ a => a.Smooth) w w' ∧
          w'.jobs r = some (.upload x (.ended outcome)) := by
  refine ⟨fun w h => ?_, fun w h hended key hkey => ?_,
    fun w h r x => ⟨fun outcome hjob hok => ?_, ?_⟩⟩
  · have hinv : w.Inv env False False :=
      inv_reach (fun _ _ _ => False.elim) (fun _ _ _ => False.elim) h
    exact ⟨fun a ha => (hinv.rows a ha).holds, hinv.variants,
      fun a ha b hb heq => UniqueTable.eq_of_unique ha hb heq⟩
  · have hinv : w.Inv env True False :=
      inv_reach (fun _ _ htidy _ => htidy) (fun _ _ _ => False.elim) h
    rcases hinv.accounted trivial key hkey with hrow | ⟨r, job, hjob, hk⟩
    · exact hrow
    · have hnone : job.keys = [] := keys_of_ended (hended r job hjob)
      rw [hnone] at hk
      exact (List.not_mem_nil hk).elim
  · have hsettled := ((fine_init env).reach h).inv.settled trivial r _ hjob
    cases outcome with
    | returned a wasExisting => exact ⟨a, wasExisting, rfl, hsettled⟩
    | refused p =>
      have hrefused : refusal env x.buffer = some p := hsettled
      rw [hok] at hrefused
      cases hrefused
    | failed => exact hsettled.elim
  · intro stage id hjob huuid hnew
    exact ((fine_init env).reach h).canEnd ⟨huuid, hnew⟩ hjob

/-! ### A run -/

/-- Pictures and documents by their first bytes; the images are the bytes themselves, and the hash of
bytes is the bytes. -/
def plainEnv : MediaEnv where
  sql := .decimal
  fileTypeFromBuffer
    | 0x89 :: 0x50 :: 0x4e :: 0x47 :: _ => some ⟨"png", "image/png"⟩
    | 0x25 :: 0x50 :: 0x44 :: 0x46 :: _ => some ⟨"pdf", "application/pdf"⟩
    | _ => none
  sharp :=
    { keep := fun _ buffer => .ok ⟨buffer, 1, 1⟩
      encode := fun _ _ buffer => .ok ⟨buffer, 1, 1⟩
      resize := fun _ _ buffer => .ok ⟨buffer, 1, 1⟩ }
  sha256 buffer := String.ofList (buffer.map fun b => Char.ofNat b.toNat)
  ext_plain buffer detected h := by
    split at h
    · cases h
      decide
    · cases h
      decide
    · cases h

def png : Upload := ⟨[0x89, 0x50, 0x4e, 0x47], "a.png", some 1, none⟩

def pdf : Upload := ⟨[0x25, 0x50, 0x44, 0x46], "b.pdf", some 1, none⟩

def uuid (c : Char) : String := "00000000-0000-4000-8000-00000000000" ++ c.toString

/-- The files of a picture. -/
def filesOf (publicId : String) : List String :=
  ["assets/2026/09/" ++ publicId ++ ".png", "assets/2026/09/" ++ publicId ++ "-thumb.webp",
    "assets/2026/09/" ++ publicId ++ "-card.webp", "assets/2026/09/" ++ publicId ++ "-full.webp"]

/-- The same picture is uploaded twice at once. -/
def raced : List Action :=
  [.arriveUpload 0 png, .arriveUpload 1 png, .check 0, .check 1, .findExisting 0, .findExisting 1,
    .process 0 (uuid 'a') 2026 9, .put 0, .process 1 (uuid 'b') 2026 9, .put 1, .put 0, .put 0,
    .put 0, .put 1, .put 1, .put 1, .saveAsset 0, .saveVariant 0, .saveVariant 0, .saveVariant 0,
    .commit 0, .saveAsset 1] ++ (filesOf (uuid 'b')).map (fun key => .clean 1 key true) ++ [.settle 1]

/-- The picture is deleted while a document is uploaded. -/
def cleared : List Action :=
  raced ++ [.arriveRemove 2 "1", .findById 2, .arriveUpload 3 pdf, .check 3, .findUsages 2 [],
    .findVariants 2, .findExisting 3, .removeRow 2, .process 3 (uuid 'c') 2026 9, .delete 2 true,
    .delete 2 true, .put 3, .saveAsset 3, .delete 2 true, .commit 3, .delete 2 true]

lemma smooth_raced : ∀ a ∈ raced, a.Smooth := by
  simp [raced, filesOf, Action.Smooth]

lemma tidy_cleared : ∀ a ∈ cleared, a.Tidy := by
  simp [cleared, raced, filesOf, Action.Tidy]

lemma job_cleared : ∀ a ∈ cleared, ∃ r < 4, a.job = some r := by
  decide

/-- Whose bytes an ended upload was given. -/
def Job.uploaded : Job → Option Upload
  | .upload x (.ended _) => some x
  | _ => none

lemma ended_of_uploaded {job : Option Job} {x : Upload} (h : job.bind Job.uploaded = some x) :
    ∃ outcome, job = some (.upload x (.ended outcome)) := by
  obtain ⟨job, rfl, hjob⟩ := Option.bind_eq_some_iff.mp h
  unfold Job.uploaded at hjob
  split at hjob
  · next outcome =>
    cases hjob
    exact ⟨outcome, rfl⟩
  · cases hjob

/-- Both uploads return the first one's row, and after the deletion the document's file is left. -/
theorem rows_and_files_agree_raced :
    (∃ w a e₀ e₁, run (step plainEnv) World.init raced = some w ∧
      w.jobs 0 = some (.upload png (.ended (.returned a e₀))) ∧
      w.jobs 1 = some (.upload png (.ended (.returned a e₁)))) ∧
    ∃ w, run (step plainEnv) World.init cleared = some w ∧
      (∃ a ∈ w.media.assets.rows, w.media.Names a ("assets/2026/09/" ++ uuid 'c' ++ ".pdf")) ∧
      ∀ a ∈ w.media.assets.rows, ∃ d, w.files a.storageKey = some d := by
  constructor
  · obtain ⟨w, hrun, h₀, h₁⟩ := exists_of_run (step plainEnv) World.init raced
      (P := fun w => (w.jobs 0).bind Job.uploaded = some png ∧
        (w.jobs 1).bind Job.uploaded = some png) (by decide +kernel)
    have hreach := Reach.of_forall hrun smooth_raced
    have hok : refusal plainEnv png.buffer = none := rfl
    obtain ⟨o₀, h₀⟩ := ended_of_uploaded h₀
    obtain ⟨o₁, h₁⟩ := ended_of_uploaded h₁
    obtain ⟨a, e₀, rfl, ha⟩ := ((rows_and_files_agree plainEnv).2.2 w hreach 0 png).1 o₀ h₀ hok
    obtain ⟨b, e₁, rfl, hb⟩ := ((rows_and_files_agree plainEnv).2.2 w hreach 1 png).1 o₁ h₁ hok
    obtain rfl := Option.some.inj (ha.symm.trans hb)
    exact ⟨w, a, e₀, e₁, hrun, h₀, h₁⟩
  · obtain ⟨w, hrun, hended, hfile⟩ := exists_of_run (step plainEnv) World.init cleared
      (P := fun w => ((List.range 4).all fun r => (w.jobs r).all Job.ended) = true ∧
        w.files ("assets/2026/09/" ++ uuid 'c' ++ ".pdf") ≠ none) (by decide +kernel)
    refine ⟨w, hrun, ?_, fun a ha => ?_⟩
    · apply (rows_and_files_agree plainEnv).2.1 w (Reach.of_forall hrun tidy_cleared) ?_ _ hfile
      intro r job hjob
      by_cases hr : r < 4
      · have hall := List.all_eq_true.mp hended r (List.mem_range.mpr hr)
        rwa [hjob] at hall
      · have hnone : w.jobs r = none := by
          refine jobs_run hrun (fun a ha => ?_) rfl
          obtain ⟨r', hr', hjob'⟩ := job_cleared a ha
          rw [hjob']
          rintro ⟨⟩
          exact hr hr'
        rw [hnone] at hjob
        cases hjob
    · obtain ⟨x, d, -, -, hstored, -⟩ :=
        ((rows_and_files_agree plainEnv).1 w (Reach.of_run hrun)).1 a ha
      exact ⟨_, hstored⟩

end SafeerApi.Media
