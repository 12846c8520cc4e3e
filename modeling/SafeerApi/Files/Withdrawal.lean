import SafeerApi.Cache.Coherence
import SafeerApi.Files.Gate

/-!
# Withdrawn files

Requests for files, writes to the content and their purges take steps in any order, and answers of
the check are kept in the memo store meanwhile. The tables are known by the number of commits they
have seen; a query is one statement and reads the tables as one commit left them. Once a write has
purged, no later request is answered from what the tables were before it.
-/

namespace SafeerApi.Files

open Cache (CacheService LruChoice Store)
open Common Lib Media

/-! ### Requests -/

inductive Outcome where
  | notFound
  | failed
  | sent (asset : MediaAsset) (file : SentFile)
  deriving DecidableEq, Repr

/-- Where a request is. -/
inductive Stage where
  | arrived
  | found (asset : MediaAsset)
  -- the memo had no answer; the versions of its tags are noted
  | reading (asset : MediaAsset)
  | queried (asset : MediaAsset) (isPublic : Bool)
  | asking (asset : MediaAsset) (postId : String)
  | allowed (asset : MediaAsset) (gate : Gate)
  | ended (outcome : Outcome)
  deriving DecidableEq, Repr

/-- A request, with the commits whose writers had finished when it arrived, the time and the number
of commits then, and the number of commits at its last step. -/
structure Visit where
  request : FileRequest
  since : List ℕ
  arrivedAt : ℕ
  started : ℕ
  latest : ℕ
  stage : Stage

/-- `contents n` is what the tables hold after `n` commits. A writer that has committed holds the
number of its commit and the tags it has yet to purge. -/
structure World where
  cache : Cache.World Bool
  contents : ℕ → Content
  media : MediaTables
  now : ℕ
  writers : ℕ → Option (ℕ × List Cache.Tag)
  finished : List ℕ
  visits : ℕ → Option Visit

def World.init (content : Content) (media : MediaTables) : World where
  cache := .init Bool
  contents := fun _ => content
  media := media
  now := 0
  writers := fun _ => none
  finished := []
  visits := fun _ => none

/-- What the tables hold now. -/
def World.content (w : World) : Content := w.contents w.cache.commits

inductive VisitAction where
  | findByPublicId
  | isPubliclyReadable (c : LruChoice)
  | queryIsPubliclyReadable
  | setMemo (c : LruChoice)
  | isUsedByPost
  | send (stored : Bool)
  | fail

/-- The key of a file's answer, without the prefix. -/
def memoKey (assetId : ℕ) : String := toString assetId

/-- The start of `isPubliclyReadable`: the memo's answer, or the versions it would be kept under. -/
def getMemo (cache : Cache.World Bool) (r assetId : ℕ) (c : LruChoice) :
    Option (Cache.World Bool × Option Bool) :=
  let hit := (cache.service.getFrom .memo c (Store.memo.keyPrefix ++ memoKey assetId)).1
  match hit, Cache.step cache (.lookup r .memo (memoKey assetId) assetPublicMemoTags c) with
  | some answer, some cache => some (cache, some answer.body)
  | none, some cache => (Cache.step cache (.snapshot r)).map fun cache => (cache, none)
  | _, none => none

/-- Where a request is after the gate. -/
def afterGate (asset : MediaAsset) : Gating → Stage
  | .decided .deny => .ended .notFound
  | .decided gate => .allowed asset gate
  | .asks postId => .asking asset postId

/-- The stage after the request knows whether the file is public. -/
def World.gated (env : FilesEnv) (w : World) (v : Visit) (asset : MediaAsset) (isPublic : Bool) :
    Stage :=
  afterGate asset (gatePublication env w.now v.request isPublic)

/-- One step of a request: the cache it leaves, and where it is then. -/
def visitStep (env : FilesEnv) (w : World) (r : ℕ) (v : Visit) :
    VisitAction → Option (Cache.World Bool × Stage)
  | .findByPublicId =>
    match v.stage with
    | .arrived =>
      match w.media.findByPublicId env.coll v.request.publicId with
      | none => some (w.cache, .ended .notFound)
      | some asset => some (w.cache, .found asset)
    | _ => none
  | .isPubliclyReadable c =>
    match v.stage with
    | .found asset =>
      match getMemo w.cache r asset.id c with
      | none => none
      | some (cache, none) => some (cache, .reading asset)
      | some (cache, some isPublic) => some (cache, w.gated env v asset isPublic)
    | _ => none
  | .queryIsPubliclyReadable =>
    match v.stage with
    | .reading asset => (Cache.step w.cache (.read r)).map fun cache =>
        (cache, .queried asset (queryIsPubliclyReadable w.content asset.id))
    | _ => none
  | .setMemo c =>
    match v.stage with
    | .queried asset isPublic => (Cache.step w.cache (.store r isPublic c)).map fun cache =>
        (cache, w.gated env v asset isPublic)
    | _ => none
  | .isUsedByPost =>
    match v.stage with
    | .asking asset postId =>
      some (w.cache, afterGate asset
        (.decided (gatePreview (isUsedByPost env.sql w.content asset.id postId))))
    | _ => none
  -- a row whose file is not stored is answered like a missing row
  | .send stored =>
    match v.stage with
    | .allowed asset gate =>
      match respond env w.media v.request asset gate with
      | none => some (w.cache, .ended .notFound)
      | some file => some (w.cache, .ended (if stored then .sent asset file else .notFound))
    | _ => none
  | .fail =>
    match v.stage with
    | .ended _ => none
    | _ => (Cache.step w.cache (.drop r)).map fun cache => (cache, .ended .failed)

/-! ### Runs -/

inductive Action where
  | arrive (r : ℕ) (request : FileRequest)
  | visit (r : ℕ) (a : VisitAction)
  | commit (x : ℕ) (write : ContentWrite)
  | purge (x : ℕ)
  | finish (x : ℕ)
  | purgeTag (x : ℕ) (tag : Cache.Tag)
  | clear
  | evict (st : Store) (key : Cache.Key)
  | media (media : MediaTables)
  | tick

def World.setVisit (w : World) (r : ℕ) (v : Visit) : World :=
  { w with visits := Function.update w.visits r (some v) }

/-- One step of one party. A write commits, purges its tags one after the other and is finished. -/
def step (env : FilesEnv) (w : World) : Action → Option World
  | .arrive r request =>
    match w.visits r with
    | some _ => none
    | none => some (w.setVisit r
        ⟨request, w.finished, w.now, w.cache.commits, w.cache.commits, .arrived⟩)
  | .visit r a =>
    match w.visits r with
    | none => none
    | some v => (visitStep env w r v a).map fun (cache, stage) =>
        { w with cache := cache }.setVisit r { v with latest := w.cache.commits, stage := stage }
  | .commit x write =>
    match w.writers x, write.apply w.content, Cache.step w.cache (.commit x) with
    | none, some content, some cache => some { w with
        cache := cache
        contents := Function.update w.contents cache.commits content
        writers := Function.update w.writers x (some (cache.commits, write.purgeTags)) }
    | _, _, _ => none
  | .purge x =>
    match w.writers x with
    | some (n, tag :: tags) => (Cache.step w.cache (.purge x tag)).map fun cache =>
        { w with cache := cache, writers := Function.update w.writers x (some (n, tags)) }
    | _ => none
  | .finish x =>
    match w.writers x with
    | some (n, []) => some { w with
        writers := Function.update w.writers x none
        finished := n :: w.finished }
    | _ => none
  -- the cache screen, an edit of an alt text, a write to some other collection
  | .purgeTag x tag =>
    (Cache.step w.cache (.purge x tag)).map fun cache => { w with cache := cache }
  | .clear => (Cache.step w.cache .clear).map fun cache => { w with cache := cache }
  | .evict st key => (Cache.step w.cache (.evict st key)).map fun cache => { w with cache := cache }
  | .media media => some { w with media := media }
  | .tick => some { w with now := w.now + 1 }

/-! ### What a request has seen -/

/-- The tables have, at some time no finished writer's commit is newer than, made the file public. -/
def Visit.SawPublic (v : Visit) (contents : ℕ → Content) (assetId : ℕ) : Prop :=
  ∃ m, (∀ n ∈ v.since, n ≤ m) ∧ m ≤ v.latest ∧ IsPublic (contents m) assetId

/-- The request has a token for a post that has, during the request, shown the file. -/
def Visit.SawPreview (env : FilesEnv) (v : Visit) (contents : ℕ → Content) (assetId : ℕ) : Prop :=
  ∃ postId id m, previewedPost env v.arrivedAt v.request.query = some postId ∧
    env.sql.rowId postId = some id ∧ v.started ≤ m ∧ m ≤ v.latest ∧ ShownBy (contents m) assetId id

/-- What lets a request through the gate. -/
def Visit.Entitled (env : FilesEnv) (v : Visit) (contents : ℕ → Content) (assetId : ℕ) : Prop :=
  v.request.signedIn = true ∨ v.SawPublic contents assetId ∨ v.SawPreview env contents assetId

/-- The answer of a check that read the tables once. -/
structure Answered (contents : ℕ → Content) (commits m assetId : ℕ) (isPublic : Bool) : Prop where
  le : m ≤ commits
  eq : isPublic = queryIsPubliclyReadable (contents m) assetId

/-- What is known of a request at each stage, and of the reader it is to the cache. -/
def Visit.StageSound (env : FilesEnv) (v : Visit) (contents : ℕ → Content)
    (reader : Cache.Reader) : Stage → Prop
  | .arrived | .found _ | .ended .notFound | .ended .failed => True
  | .reading asset => ∃ version, reader = .reading .memo
      (Store.memo.keyPrefix ++ memoKey asset.id) assetPublicMemoTags version []
  | .queried asset isPublic => ∃ version m, reader = .reading .memo
      (Store.memo.keyPrefix ++ memoKey asset.id) assetPublicMemoTags version [m] ∧
        (∀ n ∈ v.since, n ≤ m) ∧ Answered contents v.latest m asset.id isPublic
  | .asking _ postId => previewedPost env v.arrivedAt v.request.query = some postId
  | .allowed asset _ | .ended (.sent asset _) => v.Entitled env contents asset.id

structure Visit.Sound (env : FilesEnv) (w : World) (r : ℕ) (v : Visit) : Prop where
  since : ∀ n ∈ v.since, ∃ tag ∈ assetPublicMemoTags, (n, tag) ∈ w.cache.purged
  started : v.started ≤ w.cache.commits
  latest : v.latest ≤ w.cache.commits
  arrivedAt : v.arrivedAt ≤ w.now
  stage : v.StageSound env w.contents (w.cache.readers r) v.stage

/-- Every stored answer is what the check finds in the tables at one commit. -/
def Faithful (cache : Cache.World Bool) (contents : ℕ → Content) : Prop :=
  ∀ key e, cache.service.entries .memo key = some e → e.tags = assetPublicMemoTags ∧
    ∃ m, e.value.reads = [m] ∧ ∀ assetId, key = Store.memo.keyPrefix ++ memoKey assetId →
      Answered contents cache.commits m assetId e.value.body

structure World.Inv (env : FilesEnv) (w : World) : Prop where
  cache : w.cache.Inv
  faithful : Faithful w.cache w.contents
  writers : ∀ x n tags, w.writers x = some (n, tags) → w.cache.writers x = some n ∧
    ∃ tag ∈ assetPublicMemoTags, tag ∈ tags ∨ (n, tag) ∈ w.cache.purged
  finished : ∀ n ∈ w.finished, ∃ tag ∈ assetPublicMemoTags, (n, tag) ∈ w.cache.purged
  visits : ∀ r v, w.visits r = some v → v.Sound env w r

section Invariant

variable {env : FilesEnv} {w w' : World} {contents contents' : ℕ → Content} {v : Visit}

/-- Two files' answers are kept under different keys. -/
lemma memoKey_inj {a b : ℕ}
    (h : Store.memo.keyPrefix ++ memoKey a = Store.memo.keyPrefix ++ memoKey b) : a = b := by
  have h := congrArg String.toList h
  rw [String.toList_append, String.toList_append] at h
  exact repr_toList_inj (List.append_cancel_left h)

lemma inv_init (env : FilesEnv) (content : Content) (media : MediaTables) :
    (World.init content media).Inv env where
  cache := Cache.World.inv_init
  faithful key e he := by
    simp [World.init, Cache.World.init, CacheService.init, CacheService.entries] at he
  writers := by simp [World.init]
  finished := by simp [World.init]
  visits := by simp [World.init]

/-! ### Later states -/

/-- What a request has seen it has seen later too. -/
lemma Visit.Entitled.mono {assetId latest : ℕ} {stage : Stage} (h : v.Entitled env contents assetId)
    (hlatest : v.latest ≤ latest) (hcontents : ∀ m ≤ v.latest, contents' m = contents m) :
    ({ v with latest := latest, stage := stage } : Visit).Entitled env contents' assetId := by
  rcases h with h | ⟨m, hsince, hm, hpublic⟩ | ⟨postId, id, m, htoken, hid, hstarted, hm, hshown⟩
  · exact Or.inl h
  · refine Or.inr (Or.inl ⟨m, hsince, hm.trans hlatest, ?_⟩)
    rwa [hcontents m hm]
  · refine Or.inr (Or.inr ⟨postId, id, m, htoken, hid, hstarted, hm.trans hlatest, ?_⟩)
    rwa [hcontents m hm]

lemma Answered.mono {commits commits' m assetId : ℕ} {isPublic : Bool}
    (h : Answered contents commits m assetId isPublic) (hle : commits ≤ commits')
    (hcontents : ∀ m ≤ commits, contents' m = contents m) :
    Answered contents' commits' m assetId isPublic :=
  ⟨h.le.trans hle, by rw [hcontents m h.le]; exact h.eq⟩

lemma Visit.StageSound.mono {reader : Cache.Reader} {stage : Stage}
    (h : v.StageSound env contents reader stage)
    (hcontents : ∀ m ≤ v.latest, contents' m = contents m) :
    v.StageSound env contents' reader stage := by
  cases stage with
  | arrived => trivial
  | found asset => trivial
  | reading asset => exact h
  | queried asset isPublic =>
    obtain ⟨version, m, hreader, hsince, hanswer⟩ := h
    exact ⟨version, m, hreader, hsince, hanswer.mono (Nat.le_refl _) hcontents⟩
  | asking asset postId => exact h
  | allowed asset gate => exact Entitled.mono h (Nat.le_refl _) hcontents
  | ended outcome =>
    cases outcome with
    | notFound => trivial
    | failed => trivial
    | sent asset file => exact Entitled.mono h (Nat.le_refl _) hcontents

/-- A step that is not the request's own keeps what is known of it. -/
lemma Visit.Sound.mono {r : ℕ} (h : v.Sound env w r) (hcommits : w.cache.commits ≤ w'.cache.commits)
    (hpurged : ∀ p ∈ w.cache.purged, p ∈ w'.cache.purged) (hnow : w.now ≤ w'.now)
    (hcontents : ∀ m ≤ w.cache.commits, w'.contents m = w.contents m)
    (hreader : w'.cache.readers r = w.cache.readers r) : v.Sound env w' r where
  since n hn := by
    obtain ⟨tag, htag, hp⟩ := h.since n hn
    exact ⟨tag, htag, hpurged _ hp⟩
  started := h.started.trans hcommits
  latest := h.latest.trans hcommits
  arrivedAt := h.arrivedAt.trans hnow
  stage := by
    rw [hreader]
    exact h.stage.mono fun m hm => hcontents m (hm.trans h.latest)

/-- No new answer appears, and none has become wrong. -/
lemma Faithful.mono {cache cache' : Cache.World Bool} (h : Faithful cache contents)
    (hentries : cache.NoNewEntries cache') (hcommits : cache.commits ≤ cache'.commits)
    (hcontents : ∀ m ≤ cache.commits, contents' m = contents m) : Faithful cache' contents' := by
  intro key e he
  obtain ⟨htags, m, hreads, hanswer⟩ := h key e (hentries he)
  exact ⟨htags, m, hreads, fun assetId hkey => (hanswer assetId hkey).mono hcommits hcontents⟩

/-- A reader that goes on leaves the answers as they are. -/
lemma Faithful.reader {cache cache' : Cache.World Bool} {r : ℕ} (h : Faithful cache contents)
    (hothers : cache.OnlyReader r cache') (hservice : cache'.service = cache.service) :
    Faithful cache' contents := by
  apply h.mono
  · intro st k e he
    rwa [hservice] at he
  · exact hothers.commits.ge
  · exact fun _ _ => rfl

/-- What happens beside the cache and the tables keeps what is known of a request. -/
lemma Visit.Sound.aside {r : ℕ} (h : v.Sound env w r) (hcache : w'.cache = w.cache)
    (hcontents : w'.contents = w.contents) (hnow : w.now ≤ w'.now) : v.Sound env w' r := by
  apply h.mono
  · rw [hcache]
  · rw [hcache]
    exact fun _ hp => hp
  · exact hnow
  · rw [hcontents]
    exact fun _ _ => rfl
  · rw [hcache]

/-! ### The gate -/

/-- An answer as new as every finished write is grounds for what the gate makes of it. -/
lemma Visit.stageSound_gated {asset : MediaAsset} {isPublic : Bool} {m : ℕ} {stage : Stage}
    {reader : Cache.Reader} (harrived : v.arrivedAt ≤ w.now) (hsince : ∀ n ∈ v.since, n ≤ m)
    (hanswer : Answered w.contents w.cache.commits m asset.id isPublic)
    (hstage : w.gated env v asset isPublic = stage) :
    ({ v with latest := w.cache.commits, stage := stage } : Visit).StageSound env w.contents reader
      stage := by
  subst hstage
  simp only [World.gated]
  cases hgate : gatePublication env w.now v.request isPublic with
  | asks postId => exact previewedPost_earlier harrived (gatePublication_asks hgate)
  | decided gate =>
    cases hpublic : isPublic with
    | true =>
      have hseen : ({ v with latest := w.cache.commits } : Visit).SawPublic w.contents asset.id :=
        ⟨m, hsince, hanswer.le, isPublic_iff.mp (by rw [← hanswer.eq, hpublic])⟩
      cases gate with
      | deny => trivial
      | allowPublic => exact Or.inr (Or.inl hseen)
      | allowPrivate => exact Or.inr (Or.inl hseen)
    | false =>
      rw [hpublic] at hgate
      cases hsigned : v.request.signedIn with
      | false =>
        rw [gatePublication_anonymous hsigned hgate]
        trivial
      | true =>
        cases gate with
        | deny => trivial
        | allowPublic => exact Or.inl hsigned
        | allowPrivate => exact Or.inl hsigned

/-- What the memo returns is as new as every finished write. -/
lemma World.Inv.hit (h : w.Inv env) {r : ℕ} (hv : v.Sound env w r) {assetId : ℕ} {c : LruChoice}
    {answer : Cache.Computed Bool} (hget : (w.cache.service.getFrom .memo c
      (Store.memo.keyPrefix ++ memoKey assetId)).1 = some answer) :
    ∃ m, (∀ n ∈ v.since, n ≤ m) ∧ Answered w.contents w.cache.commits m assetId answer.body := by
  obtain ⟨e, he, rfl⟩ := CacheService.getFrom_eq_some hget
  obtain ⟨htags, m, hreads, hanswer⟩ := h.faithful _ e he
  refine ⟨m, fun n hn => ?_, hanswer assetId rfl⟩
  obtain ⟨tag, htag, hpurged⟩ := hv.since n hn
  exact h.cache.entries .memo _ e he (n, tag) hpurged (htags ▸ htag) m (by simp [hreads])

/-! ### Steps -/

/-- What a request's own step leaves. -/
structure Stepped (env : FilesEnv) (w : World) (r : ℕ) (v : Visit) (cache : Cache.World Bool)
    (stage : Stage) : Prop where
  inv : cache.Inv
  others : w.cache.OnlyReader r cache
  faithful : Faithful cache w.contents
  stage : ({ v with latest := w.cache.commits, stage := stage } : Visit).StageSound env w.contents
    (cache.readers r) stage

/-- Steps of the request that leave the cache alone. -/
lemma Stepped.of_stage (h : w.Inv env) {r : ℕ} {stage : Stage}
    (hstage : ({ v with latest := w.cache.commits, stage := stage } : Visit).StageSound env
      w.contents (w.cache.readers r) stage) : Stepped env w r v w.cache stage :=
  ⟨h.cache, ⟨rfl, rfl, rfl, fun _ _ => rfl⟩, h.faithful, hstage⟩

lemma stepped_getMemo (h : w.Inv env) {r : ℕ} (hv : v.Sound env w r) {asset : MediaAsset}
    {c : LruChoice} {cache : Cache.World Bool} {answer : Option Bool}
    (hs : getMemo w.cache r asset.id c = some (cache, answer)) :
    Stepped env w r v cache
      (match answer with | none => .reading asset | some b => w.gated env v asset b) := by
  simp only [getMemo] at hs
  split at hs
  · next hit cache₁ hget hlookup =>
    cases hs
    obtain ⟨hothers, hentries, -⟩ := Cache.step_lookup h.cache hlookup
    obtain ⟨m, hsince, hanswer⟩ := h.hit hv hget
    exact ⟨Cache.inv_step h.cache hlookup, hothers,
      h.faithful.mono hentries hothers.commits.ge (fun _ _ => rfl),
      v.stageSound_gated hv.arrivedAt hsince hanswer rfl⟩
  · next cache₁ hget hlookup =>
    obtain ⟨cache₂, hsnapshot, heq⟩ := Option.map_eq_some_iff.mp hs
    cases heq
    have hinv := Cache.inv_step h.cache hlookup
    obtain ⟨hothers, hentries, hmissed⟩ := Cache.step_lookup h.cache hlookup
    obtain ⟨hothers', hservice, hreading⟩ := Cache.step_snapshot (hmissed hget) hsnapshot
    have hfaithful : Faithful cache₁ w.contents :=
      h.faithful.mono hentries hothers.commits.ge fun _ _ => rfl
    exact ⟨Cache.inv_step hinv hsnapshot, hothers.trans hothers',
      hfaithful.reader hothers' hservice, _, hreading⟩
  · cases hs

/-- The check reads the tables as the last commit left them. -/
lemma stepped_query (h : w.Inv env) {r : ℕ} (hv : v.Sound env w r) {cache : Cache.World Bool}
    {stage : Stage} (hs : visitStep env w r v .queryIsPubliclyReadable = some (cache, stage)) :
    Stepped env w r v cache stage := by
  have hstage := hv.stage
  simp only [visitStep] at hs
  split at hs
  · next asset heq =>
    rw [heq] at hstage
    obtain ⟨version, hreader⟩ := hstage
    obtain ⟨cache', hread, heq⟩ := Option.map_eq_some_iff.mp hs
    cases heq
    obtain ⟨hothers, hservice, hreader'⟩ := Cache.step_read hreader hread
    refine ⟨Cache.inv_step h.cache hread, hothers, h.faithful.reader hothers hservice, version, _,
      hreader', ?_, Nat.le_refl _, rfl⟩
    intro n hn
    obtain ⟨tag, -, hpurged⟩ := hv.since n hn
    exact h.cache.announced _ hpurged
  · cases hs

/-- An answer is kept as what the check found. -/
lemma stepped_setMemo (h : w.Inv env) {r : ℕ} (hv : v.Sound env w r) {c : LruChoice}
    {cache : Cache.World Bool} {stage : Stage}
    (hs : visitStep env w r v (.setMemo c) = some (cache, stage)) :
    Stepped env w r v cache stage := by
  have hstage := hv.stage
  simp only [visitStep] at hs
  split at hs
  · next asset isPublic heq =>
    rw [heq] at hstage
    obtain ⟨version, m, hreader, hsince, hanswer⟩ := hstage
    have hanswer := hanswer.mono hv.latest fun _ _ => rfl
    obtain ⟨cache', hstore, heq⟩ := Option.map_eq_some_iff.mp hs
    cases heq
    obtain ⟨hothers, hentries⟩ := Cache.step_store hreader hstore
    refine ⟨Cache.inv_step h.cache hstore, hothers, ?_,
      v.stageSound_gated hv.arrivedAt hsince hanswer rfl⟩
    intro key e he
    rw [hothers.commits]
    rcases hentries he with he | ⟨hkey, rfl⟩
    · exact h.faithful key e he
    · refine ⟨rfl, m, rfl, fun assetId hassetId => ?_⟩
      rw [← memoKey_inj (hkey.symm.trans hassetId)]
      exact hanswer
  · cases hs

lemma stepped_isUsedByPost (h : w.Inv env) {r : ℕ} (hv : v.Sound env w r)
    {cache : Cache.World Bool} {stage : Stage}
    (hs : visitStep env w r v .isUsedByPost = some (cache, stage)) :
    Stepped env w r v cache stage := by
  have hstage := hv.stage
  simp only [visitStep] at hs
  split at hs
  · next asset postId heq =>
    rw [heq] at hstage
    cases hs
    cases hused : isUsedByPost env.sql w.content asset.id postId with
    | false => exact Stepped.of_stage h trivial
    | true =>
      obtain ⟨id, hid, hshown⟩ := shownBy_of_isUsedByPost hused
      exact Stepped.of_stage h (Or.inr (Or.inr
        ⟨postId, id, w.cache.commits, hstage, hid, hv.started, Nat.le_refl _, hshown⟩))
  · cases hs

/-- A request is let on only with what entitles it. -/
lemma stepped_visitStep (h : w.Inv env) {r : ℕ} (hv : v.Sound env w r) {a : VisitAction}
    {cache : Cache.World Bool} {stage : Stage}
    (hs : visitStep env w r v a = some (cache, stage)) : Stepped env w r v cache stage := by
  have hstage := hv.stage
  cases a with
  | findByPublicId =>
    simp only [visitStep] at hs
    split at hs
    · split at hs <;> cases hs <;> exact Stepped.of_stage h trivial
    · cases hs
  | isPubliclyReadable c =>
    simp only [visitStep] at hs
    split at hs
    · split at hs
      · cases hs
      · next hget =>
        cases hs
        exact stepped_getMemo h hv hget
      · next hget =>
        cases hs
        exact stepped_getMemo h hv hget
    · cases hs
  | queryIsPubliclyReadable => exact stepped_query h hv hs
  | setMemo c => exact stepped_setMemo h hv hs
  | isUsedByPost => exact stepped_isUsedByPost h hv hs
  | send stored =>
    simp only [visitStep] at hs
    split at hs
    · next asset gate heq =>
      rw [heq] at hstage
      split at hs
      · cases hs
        exact Stepped.of_stage h trivial
      · cases hs
        cases stored with
        | false => exact Stepped.of_stage h trivial
        | true => exact Stepped.of_stage h (Visit.Entitled.mono hstage hv.latest fun _ _ => rfl)
    · cases hs
  | fail =>
    simp only [visitStep] at hs
    split at hs
    · cases hs
    · obtain ⟨cache', hdrop, heq⟩ := Option.map_eq_some_iff.mp hs
      cases heq
      obtain ⟨hothers, hservice⟩ := Cache.step_drop hdrop
      exact ⟨Cache.inv_step h.cache hdrop, hothers, h.faithful.reader hothers hservice, trivial⟩

/-- The cache loses entries, and nothing else but more purges happens to it. -/
lemma World.Inv.lose (h : w.Inv env) {cache : Cache.World Bool} (hinv : cache.Inv)
    (hentries : w.cache.NoNewEntries cache) (hcommits : cache.commits = w.cache.commits)
    (hwriters : cache.writers = w.cache.writers) (hreaders : cache.readers = w.cache.readers)
    (hpurged : ∀ p ∈ w.cache.purged, p ∈ cache.purged) :
    ({ w with cache := cache } : World).Inv env where
  cache := hinv
  faithful := h.faithful.mono hentries hcommits.ge fun _ _ => rfl
  writers x n tags hx := by
    obtain ⟨hn, tag, htag, hleft⟩ := h.writers x n tags hx
    exact ⟨by rw [hwriters]; exact hn, tag, htag, hleft.imp_right (hpurged _)⟩
  finished n hn := by
    obtain ⟨tag, htag, hp⟩ := h.finished n hn
    exact ⟨tag, htag, hpurged _ hp⟩
  visits r v hr := (h.visits r v hr).mono hcommits.ge hpurged (Nat.le_refl _) (fun _ _ => rfl)
    (congrFun hreaders r)

lemma World.Inv.purge (h : w.Inv env) {x : ℕ} {tag : Cache.Tag} {cache : Cache.World Bool}
    (hs : Cache.step w.cache (.purge x tag) = some cache) :
    ({ w with cache := cache } : World).Inv env := by
  obtain ⟨hcommits, hwriters, hreaders, hentries, hpurged⟩ := Cache.step_purge h.cache hs
  apply h.lose (Cache.inv_step h.cache hs) hentries hcommits hwriters hreaders
  intro p hp
  rw [hpurged]
  exact List.mem_append_right _ hp

lemma World.Inv.arrive (h : w.Inv env) (r : ℕ) (request : FileRequest) :
    (w.setVisit r ⟨request, w.finished, w.now, w.cache.commits, w.cache.commits, .arrived⟩).Inv
      env where
  cache := h.cache
  faithful := h.faithful
  writers := h.writers
  finished := h.finished
  visits r' v hv := by
    rcases update_eq_some hv with ⟨rfl, rfl⟩ | ⟨-, hv⟩
    · exact ⟨h.finished, Nat.le_refl _, Nat.le_refl _, Nat.le_refl _, trivial⟩
    · exact (h.visits r' v hv).aside rfl rfl (Nat.le_refl _)

/-- A request's own step changes nothing of the others. -/
lemma World.Inv.visit (h : w.Inv env) {r : ℕ} (hv : w.visits r = some v) {a : VisitAction}
    {cache : Cache.World Bool} {stage : Stage}
    (hs : visitStep env w r v a = some (cache, stage)) :
    ({ w with cache := cache }.setVisit r
      { v with latest := w.cache.commits, stage := stage }).Inv env := by
  have hsound := h.visits r v hv
  obtain ⟨hinv, hothers, hfaithful, hstage⟩ := stepped_visitStep h hsound hs
  have hpurged : ∀ p ∈ w.cache.purged, p ∈ cache.purged := by
    rw [hothers.purged]
    exact fun _ hp => hp
  refine ⟨hinv, hfaithful, fun x n tags hx => ?_, fun n hn => ?_, fun r' v' hv' => ?_⟩
  · obtain ⟨hn, tag, htag, hleft⟩ := h.writers x n tags hx
    exact ⟨(congrFun hothers.writers x).trans hn, tag, htag, hleft.imp_right (hpurged _)⟩
  · obtain ⟨tag, htag, hp⟩ := h.finished n hn
    exact ⟨tag, htag, hpurged _ hp⟩
  · rcases update_eq_some hv' with ⟨rfl, rfl⟩ | ⟨hr, hv'⟩
    · refine ⟨fun n hn => ?_, hsound.started.trans hothers.commits.ge, hothers.commits.ge,
        hsound.arrivedAt, hstage⟩
      obtain ⟨tag, htag, hp⟩ := hsound.since n hn
      exact ⟨tag, htag, hpurged _ hp⟩
    · exact (h.visits r' v' hv').mono hothers.commits.ge hpurged (Nat.le_refl _) (fun _ _ => rfl)
        (hothers.readers r' hr)

/-- A commit leaves what the tables were before it, and its writer has a tag of the memo to purge. -/
lemma World.Inv.commit (h : w.Inv env) {x : ℕ} {write : ContentWrite} {content : Content}
    {cache : Cache.World Bool} (hs : Cache.step w.cache (.commit x) = some cache) :
    ({ w with
      cache := cache
      contents := Function.update w.contents cache.commits content
      writers := Function.update w.writers x
        (some (cache.commits, write.purgeTags)) } : World).Inv env := by
  have hinv := Cache.inv_step h.cache hs
  cases hs
  have hcontents : ∀ m ≤ w.cache.commits,
      Function.update w.contents (w.cache.commits + 1) content m = w.contents m := by
    intro m hm
    exact Function.update_of_ne (by omega) _ _
  refine ⟨hinv, h.faithful.mono (fun he => he) (Nat.le_succ _) hcontents, ?_, h.finished, ?_⟩
  · intro y n tags hy
    rcases update_eq_some hy with ⟨rfl, heq⟩ | ⟨hyx, hy⟩
    · cases heq
      obtain ⟨tag, htag, hmemo⟩ := purgeTags_meet write
      exact ⟨Function.update_self .., tag, hmemo, Or.inl htag⟩
    · obtain ⟨hn, htag⟩ := h.writers y n tags hy
      exact ⟨(Function.update_of_ne hyx _ _).trans hn, htag⟩
  · intro r v hv
    exact (h.visits r v hv).mono (Nat.le_succ _) (fun _ hp => hp) (Nat.le_refl _) hcontents rfl

/-- A purge of the writer's own next tag. -/
lemma World.Inv.purgeOwn (h : w.Inv env) {x n : ℕ} {tag : Cache.Tag} {tags : List Cache.Tag}
    (hx : w.writers x = some (n, tag :: tags)) {cache : Cache.World Bool}
    (hs : Cache.step w.cache (.purge x tag) = some cache) :
    ({ w with
      cache := cache
      writers := Function.update w.writers x (some (n, tags)) } : World).Inv env := by
  obtain ⟨-, -, -, -, hpurged⟩ := Cache.step_purge h.cache hs
  have hafter := h.purge hs
  refine ⟨hafter.cache, hafter.faithful, ?_, hafter.finished,
    fun r v hv => (hafter.visits r v hv).aside rfl rfl (Nat.le_refl _)⟩
  intro y n' tags' hy
  rcases update_eq_some hy with ⟨rfl, heq⟩ | ⟨-, hy⟩
  · cases heq
    obtain ⟨hn, tag', htag', hleft⟩ := hafter.writers y n (tag :: tags) hx
    refine ⟨hn, tag', htag', ?_⟩
    rcases hleft with hleft | hdone
    · rcases List.mem_cons.mp hleft with rfl | hleft
      · right
        show _ ∈ cache.purged
        rw [hpurged, (h.writers y n _ hx).1]
        exact List.mem_cons_self
      · exact Or.inl hleft
    · exact Or.inr hdone
  · exact hafter.writers y n' tags' hy

/-- A writer is finished once it has purged all its tags. -/
lemma World.Inv.finish (h : w.Inv env) {x n : ℕ} (hx : w.writers x = some (n, [])) :
    ({ w with
      writers := Function.update w.writers x none
      finished := n :: w.finished } : World).Inv env where
  cache := h.cache
  faithful := h.faithful
  writers y n' tags hy := h.writers y n' tags (update_none_eq_some hy).2
  finished n' hn' := by
    rcases List.mem_cons.mp hn' with rfl | hn'
    · obtain ⟨-, tag, htag, hleft⟩ := h.writers x n' [] hx
      exact ⟨tag, htag, hleft.resolve_left List.not_mem_nil⟩
    · exact h.finished n' hn'
  visits r v hv := (h.visits r v hv).aside rfl rfl (Nat.le_refl _)

/-- The invariant holds after every step of every party. -/
lemma inv_step {a : Action} (h : w.Inv env) (hs : step env w a = some w') : w'.Inv env := by
  cases a with
  | arrive r request =>
    simp only [step] at hs
    split at hs
    · cases hs
    · cases hs
      exact h.arrive r request
  | visit r a =>
    simp only [step] at hs
    split at hs
    · cases hs
    · next v hv =>
      obtain ⟨⟨cache, stage⟩, hvisit, rfl⟩ := Option.map_eq_some_iff.mp hs
      exact h.visit hv hvisit
  | commit x write =>
    simp only [step] at hs
    split at hs
    · next hcommit =>
      cases hs
      exact h.commit hcommit
    · cases hs
  | purge x =>
    simp only [step] at hs
    split at hs
    · next hx =>
      obtain ⟨cache, hpurge, rfl⟩ := Option.map_eq_some_iff.mp hs
      exact h.purgeOwn hx hpurge
    · cases hs
  | finish x =>
    simp only [step] at hs
    split at hs
    · next hx =>
      cases hs
      exact h.finish hx
    · cases hs
  | purgeTag x tag =>
    simp only [step] at hs
    obtain ⟨cache, hpurge, rfl⟩ := Option.map_eq_some_iff.mp hs
    exact h.purge hpurge
  | clear =>
    cases hs
    refine h.lose (Cache.inv_step (a := .clear) h.cache rfl) ?_ rfl rfl rfl fun _ hp => hp
    intro st key e he
    simp [CacheService.entries_clear] at he
  | evict st key =>
    cases hs
    exact h.lose (Cache.inv_step (a := .evict st key) h.cache rfl)
      (CacheService.shrinks_lruDelete h.cache.indexed st key).entries rfl rfl rfl fun _ hp => hp
  | media media =>
    cases hs
    exact ⟨h.cache, h.faithful, h.writers, h.finished,
      fun r v hv => (h.visits r v hv).aside rfl rfl (Nat.le_refl _)⟩
  | tick =>
    cases hs
    exact ⟨h.cache, h.faithful, h.writers, h.finished,
      fun r v hv => (h.visits r v hv).aside rfl rfl (Nat.le_succ _)⟩

lemma inv_reach {content : Content} {media : MediaTables}
    (h : Reach (step env) always (World.init content media) w) : w.Inv env :=
  h.invariant (inv_init env content media) fun _ _ _ hi _ hs => inv_step hi hs

end Invariant

/-! ### Files follow publication -/

/-- The request was sent the file, or an image made from it. -/
def Visit.Sent (v : Visit) (assetId : ℕ) : Prop :=
  ∃ asset file, asset.id = assetId ∧ v.stage = .ended (.sent asset file)

lemma entitled_of_sent {env : FilesEnv} {w : World} (h : w.Inv env) {r : ℕ} {v : Visit}
    (hr : w.visits r = some v) {assetId : ℕ} (hsent : v.Sent assetId) :
    v.Entitled env w.contents assetId := by
  obtain ⟨asset, file, rfl, hstage⟩ := hsent
  have hsound := (h.visits r v hr).stage
  rw [hstage] at hsound
  exact hsound

/-- Whoever has neither a session nor a token that is valid when the request arrives is not sent a
file that a finished write has left without public content, unless a later write made it public
again. With a token for a post, whoever has no session is sent what that post shows and what is
public. -/
theorem files_follow_publication {env : FilesEnv} {content : Content} {media : MediaTables}
    {w : World} (h : Reach (step env) always (World.init content media) w) {r : ℕ} {v : Visit}
    (hr : w.visits r = some v) (hanonymous : v.request.signedIn = false) :
    (∀ n ∈ v.since, ∀ assetId, previewedPost env v.arrivedAt v.request.query = none →
      (∀ m, n ≤ m → m ≤ v.latest → ¬IsPublic (w.contents m) assetId) → ¬v.Sent assetId) ∧
    ∀ assetId, v.Sent assetId →
      v.SawPublic w.contents assetId ∨ v.SawPreview env w.contents assetId := by
  have hentitled : ∀ assetId, v.Sent assetId →
      v.SawPublic w.contents assetId ∨ v.SawPreview env w.contents assetId := by
    intro assetId hsent
    rcases entitled_of_sent (inv_reach h) hr hsent with hsigned | hseen
    · rw [hanonymous] at hsigned
      cases hsigned
    · exact hseen
  refine ⟨?_, hentitled⟩
  intro n hn assetId hnone hwithdrawn hsent
  rcases hentitled assetId hsent with ⟨m, hsince, hm, hpublic⟩ | ⟨postId, id, m, htoken, -⟩
  · exact hwithdrawn m (hsince n hn) hm hpublic
  · rw [hnone] at htoken
    cases htoken

/-- Numerals are numbers, and the hash of a text is the text. -/
def plainEnv : FilesEnv where
  coll := .binary
  sql := .decimal
  preview :=
    { number := fun s => (SqlNumeric.decimal.rowId s).map fun n => (n : ℚ)
      print := fun q => toString q.num
      hmac := id }

def photo : MediaAsset where
  id := 7
  kind := .image
  altAr := none
  publicId := "u"
  mimeType := "image/png"
  sizeBytes := 1
  originalName := "p.png"
  storageKey := "k"
  checksumSha256 := "c"

def photos : MediaTables := ⟨⟨⟨[photo], by decide⟩, by decide⟩, []⟩

/-- The photograph is a board member's, and the cover of a draft. -/
def shownOnBoard : Content :=
  { Content.empty with
    boardMembers := ⟨[⟨1, some 7, true⟩], by decide⟩
    posts := ⟨[⟨3, some 7, false⟩], by decide⟩ }

/-- A request for the photograph, with a token for the draft or without one. -/
def askFor (token : Option String) : FileRequest where
  publicId := "u"
  variant := none
  query := fun key => token.bind fun t =>
    if key = "preview" then some (.text t) else if key = "post" then some (.text "3") else none
  signedIn := false

/-- The board member is unpublished while a request is under way, whose answer is not kept. -/
def unpublished : List Action :=
  [.arrive 0 (askFor none), .visit 0 .findByPublicId, .visit 0 (.isPubliclyReadable {}),
    .visit 0 .queryIsPubliclyReadable, .commit 9 (.boardMembers (.unpublish 1)), .purge 9, .purge 9,
    .purge 9, .purge 9, .finish 9, .visit 0 (.setMemo {}), .visit 0 (.send true),
    .arrive 1 (askFor none), .visit 1 .findByPublicId, .visit 1 (.isPubliclyReadable {}),
    .visit 1 .queryIsPubliclyReadable, .visit 1 (.setMemo {}),
    .arrive 2 (askFor (some "10.posts|3|10")), .visit 2 .findByPublicId,
    .visit 2 (.isPubliclyReadable {}), .visit 2 .isUsedByPost, .visit 2 (.send true)]

theorem files_follow_publication_unpublished : ∃ w v v',
    run (step plainEnv) (World.init shownOnBoard photos) unpublished = some w ∧
      w.visits 1 = some v ∧ ¬v.Sent 7 ∧ w.visits 2 = some v' ∧
      (v'.SawPublic w.contents 7 ∨ v'.SawPreview plainEnv w.contents 7) := by
  obtain ⟨w, hrun, h₁, h₂, hprivate⟩ := exists_of_run (step plainEnv)
    (World.init shownOnBoard photos) unpublished
    (P := fun w =>
      ((w.visits 1).any fun v => v.request.signedIn = false && v.since = [1] && v.latest = 1 &&
        previewedPost plainEnv v.arrivedAt v.request.query = none) = true ∧
      ((w.visits 2).any fun v => v.request.signedIn = false &&
        v.stage = .ended (.sent photo (sendFile "k" "image/png" none true ""))) = true ∧
      queryIsPubliclyReadable (w.contents 1) 7 = false) (by decide +kernel)
  obtain ⟨v, hv, h₁⟩ := (Option.any_eq_true _ _).mp h₁
  obtain ⟨v', hv', h₂⟩ := (Option.any_eq_true _ _).mp h₂
  simp only [Bool.and_eq_true, decide_eq_true_eq] at h₁ h₂
  obtain ⟨⟨⟨hsigned, hsince⟩, hlatest⟩, hnone⟩ := h₁
  have hreach := Reach.of_run hrun
  refine ⟨w, v, v', hrun, hv, ?_, hv', ?_⟩
  · apply (files_follow_publication hreach hv hsigned).1 1 (by simp [hsince]) 7 hnone
    intro m hle hm
    obtain rfl : m = 1 := by omega
    rw [← isPublic_iff, hprivate]
    exact Bool.false_ne_true
  · exact (files_follow_publication hreach hv' h₂.1).2 7 ⟨_, _, rfl, h₂.2⟩

end SafeerApi.Files
