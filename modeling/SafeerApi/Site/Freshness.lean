import SafeerApi.Cache.Coherence
import SafeerApi.Cache.KeySoundness
import SafeerApi.Site.Writes

/-!
# Public responses follow the tables

Visits to the public routes, the transactions of the admin requests and their purges take steps in
any order, and responses are kept in the cache meanwhile. Every response is what a handler computes
of tables that show every write that had finished when the visit began, and once all writes have
finished it is what the handler computes of the tables as they are.
-/

namespace SafeerApi.Site

open Cache (CacheService LruChoice Store)
open Common Lib
open Public (PublicEnv)

/-! ### Requests -/

/-- A GET request; `now` is the time in milliseconds at which its handler looks at a token. -/
structure Request where
  path : String
  route : Route
  query : Query
  now : ℕ

def Request.key (x : Request) : Cache.Key :=
  Cache.buildCacheKey x.path x.route.keyParams x.query

/-- The key, without the prefix. -/
def Request.keyText (x : Request) : String :=
  x.path ++ ":" ++ "&".intercalate (Cache.keyParts x.route.keyParams x.query)

def Request.previewRequested (x : Request) : Bool :=
  x.route.previewAware && (x.query "preview").isSome

/-! ### Handlers -/

/-- The handlers as they run: `handle route rows` is what a handler makes of statements the `i`-th
of which reads `rows i`. How many statements a find takes is up to the ORM. -/
structure Handlers (env : PublicEnv) where
  handle : Route → (ℕ → Rows) → Query → ℕ → Cache.Handled Body
  undisturbed : ∀ route r query now,
    handle route (fun _ => r) query now = route.handle env r query now
  reads : ∀ route rows rows' query now, (∀ i, (rows i).SameFor (rows' i) route) →
    handle route rows query now = handle route rows' query now

/-- Handlers that read everything in one statement. -/
def Handlers.atomic (env : PublicEnv) : Handlers env where
  handle route rows query now := route.handle env (rows 0) query now
  undisturbed _ _ _ _ := rfl
  reads _ _ _ query now h := Route.handle_congr (h 0) query now

/-- What statements read that came after `reads` commits, one number a statement. -/
def rowsRead (contents : ℕ → Database) (reads : List ℕ) (i : ℕ) : Rows :=
  (contents (reads.getD i (reads.headD 0))).rows

def Handlers.answer {env : PublicEnv} (handlers : Handlers env) (contents : ℕ → Database)
    (x : Request) (reads : List ℕ) : Cache.Handled Body :=
  handlers.handle x.route (rowsRead contents reads) x.query x.now

/-! ### Visits and writers -/

inductive Stage where
  | arrived
  -- the cache had no answer, or was not asked; the versions of the tags are noted
  | reading
  | ended (outcome : Except Problem Body)
  | failed

/-- A request, with the commits whose writers had finished when it arrived. -/
structure Visit where
  request : Request
  since : List ℕ
  stage : Stage

/-- `contents n` is what the tables hold after `n` commits. A writer that has committed holds the
number of its commit and the tags it has yet to purge. -/
structure World where
  cache : Cache.World Body
  contents : ℕ → Database
  writers : ℕ → Option (ℕ × List Cache.Tag)
  finished : List ℕ
  visits : ℕ → Option Visit

def World.init (db : Database) : World where
  cache := .init Body
  contents := fun _ => db
  writers := fun _ => none
  finished := []
  visits := fun _ => none

/-- What the tables hold now. -/
def World.db (w : World) : Database := w.contents w.cache.commits

/-- Some visit made this request. -/
def World.Asked (w : World) (x : Request) : Prop :=
  ∃ r v, w.visits r = some v ∧ v.request = x

inductive VisitAction where
  | lookup (c : LruChoice)
  | bypass
  | read
  | answer (c : LruChoice)
  | fail

/-- The start of `intercept`: the cached response, or the versions a response would be kept
under. -/
def getCached (cache : Cache.World Body) (r : ℕ) (x : Request) (c : LruChoice) :
    Option (Cache.World Body × Stage) :=
  let hit := (cache.service.getFrom .response c x.key).1
  match hit, Cache.step cache (.lookup r .response x.keyText x.route.tags c) with
  | some cached, some cache => some (cache, .ended (.ok cached.body))
  | none, some cache => (Cache.step cache (.snapshot r)).map fun cache => (cache, .reading)
  | _, none => none

/-- The end of `intercept`, once the handler has returned. -/
def setCached (cache : Cache.World Body) (r : ℕ) (handled : Cache.Handled Body) (c : LruChoice) :
    Option (Cache.World Body) :=
  match handled.outcome with
  | .error _ => Cache.step cache (.drop r)
  | .ok body =>
    if handled.previewVerified || handled.skipCacheWrite then Cache.step cache (.drop r)
    else Cache.step cache (.store r body c)

/-- One step of a visit: the cache it leaves, and where the visit is then. -/
def visitStep {env : PublicEnv} (handlers : Handlers env) (w : World) (r : ℕ) (v : Visit) :
    VisitAction → Option (Cache.World Body × Stage)
  | .lookup c =>
    match v.stage, v.request.previewRequested with
    | .arrived, false => getCached w.cache r v.request c
    | _, _ => none
  | .bypass =>
    match v.stage, v.request.previewRequested with
    | .arrived, true =>
      (Cache.step w.cache (.bypass r v.request.keyText v.request.route.tags)).bind fun cache =>
        (Cache.step cache (.snapshot r)).map fun cache => (cache, .reading)
    | _, _ => none
  | .read =>
    match v.stage with
    | .reading => (Cache.step w.cache (.read r)).map fun cache => (cache, .reading)
    | _ => none
  | .answer c =>
    match v.stage, w.cache.readers r with
    | .reading, .reading _ _ _ _ (m :: ms) =>
      let handled := handlers.answer w.contents v.request (m :: ms)
      (setCached w.cache r handled c).map fun cache => (cache, .ended handled.outcome)
    | _, _ => none
  | .fail =>
    match v.stage with
    | .reading => (Cache.step w.cache (.drop r)).map fun cache => (cache, .failed)
    | _ => none

inductive Action where
  | arrive (r : ℕ) (x : Request)
  | visit (r : ℕ) (a : VisitAction)
  | commit (x : ℕ) (write : Write)
  | purge (x : ℕ)
  | finish (x : ℕ)
  | purgeTag (x : ℕ) (tag : Cache.Tag)
  | clear
  | evict (st : Store) (key : Cache.Key)

def World.setVisit (w : World) (r : ℕ) (v : Visit) : World :=
  { w with visits := Function.update w.visits r (some v) }

/-- One step of one party. A write commits, purges its tags one after the other and is finished. -/
def step (sql : SqlNumeric) {env : PublicEnv} (handlers : Handlers env) (w : World) :
    Action → Option World
  | .arrive r x =>
    match w.visits r with
    | some _ => none
    | none => some (w.setVisit r ⟨x, w.finished, .arrived⟩)
  | .visit r a =>
    match w.visits r with
    | none => none
    | some v => (visitStep handlers w r v a).map fun (cache, stage) =>
        { w with cache := cache }.setVisit r { v with stage := stage }
  | .commit x write =>
    match w.writers x, write.apply sql w.db, Cache.step w.cache (.commit x) with
    | none, some db, some cache => some { w with
        cache := cache
        contents := Function.update w.contents cache.commits db
        writers := Function.update w.writers x (some (cache.commits, write.purgeTags)) }
    | _, _, _ => none
  | .purge x =>
    match w.writers x with
    | some (n, tag :: tags) => (Cache.step w.cache (.purge x tag)).map fun cache =>
        { w with cache := cache, writers := Function.update w.writers x (some (n, tags)) }
    | _ => none
  | .finish x =>
    match w.writers x with
    | some (n, []) => some { w with
        writers := Function.update w.writers x none
        finished := n :: w.finished }
    | _ => none
  -- the cache screen
  | .purgeTag x tag =>
    (Cache.step w.cache (.purge x tag)).map fun cache => { w with cache := cache }
  | .clear => (Cache.step w.cache .clear).map fun cache => { w with cache := cache }
  | .evict st key => (Cache.step w.cache (.evict st key)).map fun cache => { w with cache := cache }

/-! ### What a response shows -/

/-- The route shows nothing of the `n`-th commit. -/
def Unseen (contents : ℕ → Database) (route : Route) (n : ℕ) : Prop :=
  (contents (n - 1)).rows.SameFor (contents n).rows route

/-- The handler of `x` gave the outcome of the visit, out of what its statements read. Every write
that had finished when the visit began was read, unless the route shows nothing of it. -/
structure Answer {env : PublicEnv} (handlers : Handlers env) (w : World) (v : Visit)
    (outcome : Except Problem Body) (x : Request) (reads : List ℕ) : Prop where
  asked : w.Asked x
  key : x.key = v.request.key
  own : x = v.request ∨ v.request.previewRequested = false ∧
    (handlers.answer w.contents x reads).previewVerified = false
  nonempty : reads ≠ []
  past : ∀ m ∈ reads, m ≤ w.cache.commits
  since : ∀ n ∈ v.since, (∀ m ∈ reads, n ≤ m) ∨ Unseen w.contents x.route n
  outcome : outcome = (handlers.answer w.contents x reads).outcome

/-! ### The invariant -/

/-- Every route either shows nothing of the commit or has a tag it was announced under. -/
structure Announced (w : World) (n : ℕ) : Prop where
  pos : 1 ≤ n
  past : n ≤ w.cache.commits
  seen : ∀ route : Route, (∃ tag ∈ route.tags, (n, tag) ∈ w.cache.purged) ∨
    Unseen w.contents route n

/-- What a stored response was computed from. -/
structure StoredBy {env : PublicEnv} (handlers : Handlers env) (w : World) (key : Cache.Key)
    (e : Cache.CacheEntry (Cache.Computed Body)) (x : Request) : Prop where
  asked : w.Asked x
  key : x.key = key
  tags : e.tags = x.route.tags
  nonempty : e.value.reads ≠ []
  past : ∀ m ∈ e.value.reads, m ≤ w.cache.commits
  notPreview : (handlers.answer w.contents x e.value.reads).previewVerified = false
  outcome : (handlers.answer w.contents x e.value.reads).outcome = .ok e.value.body

/-- What is known of a visit at each stage, and of the reader it is to the cache. -/
def Visit.StageSound {env : PublicEnv} (handlers : Handlers env) (w : World) (r : ℕ) (v : Visit) :
    Stage → Prop
  | .arrived | .failed => True
  | .reading => ∃ version reads, w.cache.readers r = .reading .response v.request.key
      v.request.route.tags version reads ∧
        ∀ m ∈ reads, m ≤ w.cache.commits ∧ ∀ n ∈ v.since, n ≤ m
  | .ended outcome => ∃ x reads, Answer handlers w v outcome x reads

structure World.Inv {env : PublicEnv} (handlers : Handlers env) (w : World) : Prop where
  cache : w.cache.Inv
  stored : ∀ key e, w.cache.service.entries .response key = some e →
    ∃ x, StoredBy handlers w key e x
  writers : ∀ x n tags, w.writers x = some (n, tags) → w.cache.writers x = some n ∧
    1 ≤ n ∧ n ≤ w.cache.commits ∧ ∀ route : Route,
      (∃ tag ∈ route.tags, tag ∈ tags ∨ (n, tag) ∈ w.cache.purged) ∨ Unseen w.contents route n
  finished : ∀ n ∈ w.finished, Announced w n
  since : ∀ r v, w.visits r = some v → ∀ n ∈ v.since, Announced w n
  visits : ∀ r v, w.visits r = some v → v.StageSound handlers w r v.stage

section Invariant

variable {sql : SqlNumeric} {env : PublicEnv} {handlers : Handlers env} {w w' : World} {v : Visit}
  {contents contents' : ℕ → Database} {x : Request}

/-- Handlers are given what some statement has read. -/
lemma answer_congr {reads : List ℕ} (hne : reads ≠ [])
    (h : ∀ m ∈ reads, (contents' m).rows.SameFor (contents m).rows x.route) :
    handlers.answer contents' x reads = handlers.answer contents x reads := by
  apply handlers.reads
  intro i
  have hmem : reads.getD i (reads.headD 0) ∈ reads := by
    rw [List.getD_eq_getElem?_getD]
    cases hi : reads[i]? with
    | some m => exact List.mem_of_getElem? hi
    | none =>
      obtain ⟨m, ms, rfl⟩ := List.exists_cons_of_ne_nil hne
      simp
  exact h _ hmem

lemma inv_init (db : Database) : (World.init db).Inv handlers where
  cache := Cache.World.inv_init
  stored key e he := by
    simp [World.init, Cache.World.init, CacheService.init, CacheService.entries] at he
  writers := by simp [World.init]
  finished := by simp [World.init]
  since := by simp [World.init]
  visits := by simp [World.init]

/-! ### Later states -/

/-- The tables go on from where they were, and so do the purges and the requests. -/
structure World.Later (w w' : World) : Prop where
  commits : w.cache.commits ≤ w'.cache.commits
  purged : ∀ p ∈ w.cache.purged, p ∈ w'.cache.purged
  contents : ∀ m ≤ w.cache.commits, w'.contents m = w.contents m
  asked : ∀ x, w.Asked x → w'.Asked x

lemma World.Later.trans {w'' : World} (h : w.Later w') (h' : w'.Later w'') : w.Later w'' where
  commits := h.commits.trans h'.commits
  purged p hp := h'.purged p (h.purged p hp)
  contents m hm := (h'.contents m (hm.trans h.commits)).trans (h.contents m hm)
  asked x hx := h'.asked x (h.asked x hx)

lemma Unseen.congr {route : Route} {n : ℕ} (h : Unseen contents route n)
    (h₁ : contents' (n - 1) = contents (n - 1)) (h₂ : contents' n = contents n) :
    Unseen contents' route n := by
  rw [Unseen, h₁, h₂]
  exact h

lemma World.Later.unseen (h : w.Later w') {route : Route} {n : ℕ} (hn : n ≤ w.cache.commits)
    (hunseen : Unseen w.contents route n) : Unseen w'.contents route n :=
  hunseen.congr (h.contents _ ((Nat.sub_le n 1).trans hn)) (h.contents n hn)

lemma World.Later.answer (h : w.Later w') {reads : List ℕ} (hne : reads ≠ [])
    (hpast : ∀ m ∈ reads, m ≤ w.cache.commits) :
    handlers.answer w'.contents x reads = handlers.answer w.contents x reads := by
  apply answer_congr hne
  intro m hm
  rw [h.contents m (hpast m hm)]
  exact .refl _ _

lemma Announced.later {n : ℕ} (hn : Announced w n) (h : w.Later w') : Announced w' n where
  pos := hn.pos
  past := hn.past.trans h.commits
  seen route := by
    rcases hn.seen route with ⟨tag, htag, hp⟩ | hunseen
    · exact Or.inl ⟨tag, htag, h.purged _ hp⟩
    · exact Or.inr (h.unseen hn.past hunseen)

lemma StoredBy.later {key : Cache.Key} {e : Cache.CacheEntry (Cache.Computed Body)}
    (hx : StoredBy handlers w key e x) (h : w.Later w') : StoredBy handlers w' key e x where
  asked := h.asked x hx.asked
  key := hx.key
  tags := hx.tags
  nonempty := hx.nonempty
  past m hm := (hx.past m hm).trans h.commits
  notPreview := by rw [h.answer hx.nonempty hx.past]; exact hx.notPreview
  outcome := by rw [h.answer hx.nonempty hx.past]; exact hx.outcome

lemma Answer.later {outcome : Except Problem Body} {reads : List ℕ}
    (hx : Answer handlers w v outcome x reads) (h : w.Later w')
    (hsince : ∀ n ∈ v.since, Announced w n) : Answer handlers w' v outcome x reads where
  asked := h.asked x hx.asked
  key := hx.key
  own := by rw [h.answer hx.nonempty hx.past]; exact hx.own
  nonempty := hx.nonempty
  past m hm := (hx.past m hm).trans h.commits
  since n hn := (hx.since n hn).imp_right (h.unseen (hsince n hn).past)
  outcome := by rw [h.answer hx.nonempty hx.past]; exact hx.outcome

/-- A step that is not the visit's own keeps what is known of it. -/
lemma Visit.StageSound.later {r : ℕ} {stage : Stage} (hstage : v.StageSound handlers w r stage)
    (h : w.Later w') (hsince : ∀ n ∈ v.since, Announced w n)
    (hreader : w'.cache.readers r = w.cache.readers r) : v.StageSound handlers w' r stage := by
  cases stage with
  | arrived => trivial
  | failed => trivial
  | reading =>
    obtain ⟨version, reads, hreading, hreads⟩ := hstage
    exact ⟨version, reads, hreader.trans hreading,
      fun m hm => ⟨(hreads m hm).1.trans h.commits, (hreads m hm).2⟩⟩
  | ended outcome =>
    obtain ⟨x, reads, hx⟩ := hstage
    exact ⟨x, reads, hx.later h hsince⟩

/-! ### Steps of a visit -/

/-- What a visit's own step leaves. -/
structure Stepped (handlers : Handlers env) (w : World) (r : ℕ) (v : Visit)
    (cache : Cache.World Body) (stage : Stage) : Prop where
  inv : cache.Inv
  others : w.cache.OnlyReader r cache
  stored : ∀ key e, cache.service.entries .response key = some e →
    ∃ x, StoredBy handlers w key e x
  stage : v.StageSound handlers { w with cache := cache } r stage

/-- A step of a reader leaves the tables, the purges and the requests as they are. -/
lemma World.Later.of_onlyReader {r : ℕ} {cache : Cache.World Body}
    (h : w.cache.OnlyReader r cache) : w.Later { w with cache := cache } where
  commits := h.commits.ge
  purged := by
    rw [h.purged]
    exact fun _ hp => hp
  contents _ _ := rfl
  asked _ hx := hx

/-- A stored response shows every finished write. -/
lemma World.Inv.hit (h : w.Inv handlers) {r : ℕ} (hv : w.visits r = some v)
    (hpreview : v.request.previewRequested = false) {c : LruChoice} {cached : Cache.Computed Body}
    (hget : (w.cache.service.getFrom .response c v.request.key).1 = some cached) :
    ∃ x reads, Answer handlers w v (.ok cached.body) x reads := by
  obtain ⟨e, he, rfl⟩ := CacheService.getFrom_eq_some hget
  obtain ⟨x, hx⟩ := h.stored _ e he
  refine ⟨x, e.value.reads, hx.asked, hx.key, Or.inr ⟨hpreview, hx.notPreview⟩, hx.nonempty,
    hx.past, fun n hn => ?_, hx.outcome.symm⟩
  rcases (h.since r v hv n hn).seen x.route with ⟨tag, htag, hpurged⟩ | hunseen
  · exact Or.inl (h.cache.entries .response _ e he (n, tag) hpurged (hx.tags ▸ htag))
  · exact Or.inr hunseen

lemma stepped_getCached (h : w.Inv handlers) {r : ℕ} (hv : w.visits r = some v)
    (hpreview : v.request.previewRequested = false) {c : LruChoice} {cache : Cache.World Body}
    {stage : Stage} (hs : getCached w.cache r v.request c = some (cache, stage)) :
    Stepped handlers w r v cache stage := by
  simp only [getCached] at hs
  split at hs
  · next cached cache₁ hget hlookup =>
    cases hs
    obtain ⟨hothers, hentries, -⟩ := Cache.step_lookup h.cache hlookup
    obtain ⟨x, reads, hx⟩ := h.hit hv hpreview hget
    exact ⟨Cache.inv_step h.cache hlookup, hothers, fun key e he => h.stored key e (hentries he),
      x, reads, hx.later (.of_onlyReader hothers) (h.since r v hv)⟩
  · next cache₁ hget hlookup =>
    obtain ⟨cache₂, hsnapshot, heq⟩ := Option.map_eq_some_iff.mp hs
    cases heq
    have hinv := Cache.inv_step h.cache hlookup
    obtain ⟨hothers, hentries, hmissed⟩ := Cache.step_lookup h.cache hlookup
    obtain ⟨hothers', hservice, hreading⟩ := Cache.step_snapshot (hmissed hget) hsnapshot
    refine ⟨Cache.inv_step hinv hsnapshot, hothers.trans hothers', fun key e he => ?_, _, [],
      hreading, by simp⟩
    rw [hservice] at he
    exact h.stored key e (hentries he)
  · cases hs

/-- A requested preview starts without a look at the cache. -/
lemma stepped_bypass (h : w.Inv handlers) {r : ℕ} {cache cache' : Cache.World Body}
    (hbypass : Cache.step w.cache (.bypass r v.request.keyText v.request.route.tags) = some cache)
    (hsnapshot : Cache.step cache (.snapshot r) = some cache') :
    Stepped handlers w r v cache' .reading := by
  have hinv := Cache.inv_step h.cache hbypass
  simp only [Cache.step] at hbypass
  split at hbypass
  · cases hbypass
    obtain ⟨hothers, hservice, hreading⟩ := Cache.step_snapshot (Function.update_self ..) hsnapshot
    refine ⟨Cache.inv_step hinv hsnapshot,
      (w.cache.onlyReader_setReader w.cache.service r _).trans hothers, fun key e he => ?_, _, [],
      hreading, by simp⟩
    rw [hservice] at he
    exact h.stored key e he
  · cases hbypass

/-- A statement reads the tables as the last commit left them. -/
lemma stepped_read (h : w.Inv handlers) {r : ℕ} (hv : w.visits r = some v)
    (hstage : v.StageSound handlers w r .reading) {cache : Cache.World Body}
    (hs : Cache.step w.cache (.read r) = some cache) : Stepped handlers w r v cache .reading := by
  obtain ⟨version, reads, hreading, hreads⟩ := hstage
  obtain ⟨hothers, hservice, hreading'⟩ := Cache.step_read hreading hs
  refine ⟨Cache.inv_step h.cache hs, hothers, fun key e he => ?_, version, _, hreading', ?_⟩
  · rw [hservice] at he
    exact h.stored key e he
  · intro m hm
    rcases List.mem_append.mp hm with hm | hm
    · exact ⟨(hreads m hm).1.trans hothers.commits.ge, (hreads m hm).2⟩
    · rw [List.mem_singleton.mp hm]
      exact ⟨hothers.commits.ge, fun n hn => (h.since r v hv n hn).past⟩

/-- A response is kept as what its handler gave, unless it is not to be kept. -/
lemma stepped_answer (h : w.Inv handlers) {r : ℕ} (hv : w.visits r = some v)
    {version : String} {reads : List ℕ} (hne : reads ≠ [])
    (hreading : w.cache.readers r = .reading .response v.request.key v.request.route.tags version
      reads)
    (hreads : ∀ m ∈ reads, m ≤ w.cache.commits ∧ ∀ n ∈ v.since, n ≤ m) {c : LruChoice}
    {cache : Cache.World Body}
    (hs : setCached w.cache r (handlers.answer w.contents v.request reads) c = some cache) :
    Stepped handlers w r v cache
      (.ended (handlers.answer w.contents v.request reads).outcome) := by
  have hasked : w.Asked v.request := ⟨r, v, hv, rfl⟩
  have hanswer : Answer handlers w v (handlers.answer w.contents v.request reads).outcome v.request
      reads :=
    ⟨hasked, rfl, Or.inl rfl, hne, fun m hm => (hreads m hm).1,
      fun n hn => Or.inl fun m hm => (hreads m hm).2 n hn, rfl⟩
  have hdrop : ∀ {cache}, Cache.step w.cache (.drop r) = some cache → Stepped handlers w r v cache
      (.ended (handlers.answer w.contents v.request reads).outcome) := by
    intro cache hs
    obtain ⟨hothers, hservice⟩ := Cache.step_drop hs
    refine ⟨Cache.inv_step h.cache hs, hothers, fun key e he => ?_, _, _,
      hanswer.later (.of_onlyReader hothers) (h.since r v hv)⟩
    rw [hservice] at he
    exact h.stored key e he
  simp only [setCached] at hs
  split at hs
  · exact hdrop hs
  · next body hbody =>
    split_ifs at hs with hskip
    · exact hdrop hs
    · obtain ⟨hothers, hentries⟩ := Cache.step_store hreading hs
      refine ⟨Cache.inv_step h.cache hs, hothers, fun key e he => ?_, _, _,
        hanswer.later (.of_onlyReader hothers) (h.since r v hv)⟩
      rcases hentries he with he | ⟨rfl, rfl⟩
      · exact h.stored key e he
      · exact ⟨v.request, hasked, rfl, rfl, hne, fun m hm => (hreads m hm).1,
          (Bool.or_eq_false_iff.mp (Bool.eq_false_iff.mpr hskip)).1, hbody⟩

lemma stepped_visitStep (h : w.Inv handlers) {r : ℕ} (hv : w.visits r = some v) {a : VisitAction}
    {cache : Cache.World Body} {stage : Stage}
    (hs : visitStep handlers w r v a = some (cache, stage)) :
    Stepped handlers w r v cache stage := by
  have hstage := h.visits r v hv
  cases a with
  | lookup c =>
    simp only [visitStep] at hs
    split at hs
    · next hpreview => exact stepped_getCached h hv hpreview hs
    · cases hs
  | bypass =>
    simp only [visitStep] at hs
    split at hs
    · obtain ⟨cache₁, hbypass, hs⟩ := Option.bind_eq_some_iff.mp hs
      obtain ⟨cache₂, hsnapshot, heq⟩ := Option.map_eq_some_iff.mp hs
      cases heq
      exact stepped_bypass h hbypass hsnapshot
    · cases hs
  | read =>
    simp only [visitStep] at hs
    split at hs
    · next hreading =>
      rw [hreading] at hstage
      obtain ⟨cache₁, hread, heq⟩ := Option.map_eq_some_iff.mp hs
      cases heq
      exact stepped_read h hv hstage hread
    · cases hs
  | answer c =>
    simp only [visitStep] at hs
    split at hs
    · next hreading hreader =>
      rw [hreading] at hstage
      obtain ⟨cache₁, hset, heq⟩ := Option.map_eq_some_iff.mp hs
      cases heq
      obtain ⟨version, reads, hreader', hreads⟩ := hstage
      obtain ⟨-, -, -, -, rfl⟩ := Cache.Reader.reading.inj (hreader.symm.trans hreader')
      exact stepped_answer h hv (List.cons_ne_nil _ _) hreader' hreads hset
    · cases hs
  | fail =>
    simp only [visitStep] at hs
    split at hs
    · obtain ⟨cache₁, hdrop, heq⟩ := Option.map_eq_some_iff.mp hs
      cases heq
      obtain ⟨hothers, hservice⟩ := Cache.step_drop hdrop
      refine ⟨Cache.inv_step h.cache hdrop, hothers, fun key e he => ?_, trivial⟩
      rw [hservice] at he
      exact h.stored key e he
    · cases hs

/-! ### Steps of the others -/

/-- The cache loses entries, and nothing else but more purges happens to it. -/
lemma World.Inv.lose (h : w.Inv handlers) {cache : Cache.World Body} (hinv : cache.Inv)
    (hentries : w.cache.NoNewEntries cache) (hcommits : cache.commits = w.cache.commits)
    (hwriters : cache.writers = w.cache.writers) (hreaders : cache.readers = w.cache.readers)
    (hpurged : ∀ p ∈ w.cache.purged, p ∈ cache.purged) :
    ({ w with cache := cache } : World).Inv handlers := by
  have hlater : w.Later { w with cache := cache } :=
    ⟨hcommits.ge, hpurged, fun _ _ => rfl, fun _ hx => hx⟩
  refine ⟨hinv, fun key e he => ?_, fun x n tags hx => ?_,
    fun n hn => (h.finished n hn).later hlater,
    fun r v hv n hn => (h.since r v hv n hn).later hlater, fun r v hv => ?_⟩
  · obtain ⟨x, hx⟩ := h.stored key e (hentries he)
    exact ⟨x, hx.later hlater⟩
  · obtain ⟨hn, hpos, hpast, hseen⟩ := h.writers x n tags hx
    refine ⟨by rw [hwriters]; exact hn, hpos, hpast.trans hcommits.ge, fun route => ?_⟩
    rcases hseen route with ⟨tag, htag, hleft⟩ | hunseen
    · exact Or.inl ⟨tag, htag, hleft.imp_right (hpurged _)⟩
    · exact Or.inr hunseen
  · exact (h.visits r v hv).later hlater (h.since r v hv) (congrFun hreaders r)

lemma World.Inv.purge (h : w.Inv handlers) {x : ℕ} {tag : Cache.Tag} {cache : Cache.World Body}
    (hs : Cache.step w.cache (.purge x tag) = some cache) :
    ({ w with cache := cache } : World).Inv handlers := by
  obtain ⟨hcommits, hwriters, hreaders, hentries, hpurged⟩ := Cache.step_purge h.cache hs
  apply h.lose (Cache.inv_step h.cache hs) hentries hcommits hwriters hreaders
  intro p hp
  rw [hpurged]
  exact List.mem_append_right _ hp

/-- Another visit changes nothing of the ones there are. -/
lemma World.Later.setVisit {r : ℕ} (hv : ∀ v', w.visits r = some v' → v'.request = v.request) :
    w.Later (w.setVisit r v) where
  commits := Nat.le_refl _
  purged _ hp := hp
  contents _ _ := rfl
  asked x := by
    rintro ⟨r', v', hv', rfl⟩
    by_cases hr : r' = r
    · subst hr
      exact ⟨r', v, Function.update_self .., (hv v' hv').symm⟩
    · exact ⟨r', v', (Function.update_of_ne hr _ _).trans hv', rfl⟩

lemma World.Inv.setVisit (h : w.Inv handlers) {r : ℕ}
    (hv : ∀ v', w.visits r = some v' → v'.request = v.request)
    (hsince : ∀ n ∈ v.since, Announced w n) (hstage : v.StageSound handlers w r v.stage) :
    (w.setVisit r v).Inv handlers := by
  have hlater := World.Later.setVisit hv
  refine ⟨h.cache, fun key e he => ?_, h.writers, fun n hn => (h.finished n hn).later hlater,
    fun r' v' hv' n hn => ?_, fun r' v' hv' => ?_⟩
  · obtain ⟨x, hx⟩ := h.stored key e he
    exact ⟨x, hx.later hlater⟩
  · rcases update_eq_some hv' with ⟨-, rfl⟩ | ⟨-, hv'⟩
    · exact (hsince n hn).later hlater
    · exact (h.since r' v' hv' n hn).later hlater
  · rcases update_eq_some hv' with ⟨rfl, rfl⟩ | ⟨-, hv'⟩
    · exact hstage.later hlater hsince rfl
    · exact (h.visits r' v' hv').later hlater (h.since r' v' hv') rfl

/-- What is known of a visit does not depend on where the visit is noted to be. -/
lemma Visit.StageSound.restage {r : ℕ} {stage stage' : Stage}
    (h : v.StageSound handlers w r stage) :
    ({ v with stage := stage' } : Visit).StageSound handlers w r stage := by
  cases stage with
  | arrived => trivial
  | failed => trivial
  | reading => exact h
  | ended outcome =>
    obtain ⟨x, reads, hx⟩ := h
    exact ⟨x, reads, hx.asked, hx.key, hx.own, hx.nonempty, hx.past, hx.since, hx.outcome⟩

/-- A visit's own step changes nothing of the others. -/
lemma World.Inv.visit (h : w.Inv handlers) {r : ℕ} (hv : w.visits r = some v) {a : VisitAction}
    {cache : Cache.World Body} {stage : Stage}
    (hs : visitStep handlers w r v a = some (cache, stage)) :
    ({ w with cache := cache }.setVisit r { v with stage := stage }).Inv handlers := by
  obtain ⟨hinv, hothers, hstored, hstage⟩ := stepped_visitStep h hv hs
  have hvisit : World.Later { w with cache := cache }
      ({ w with cache := cache }.setVisit r { v with stage := stage }) := by
    apply World.Later.setVisit
    intro v' hv'
    rw [Option.some.inj (hv'.symm.trans hv)]
  have hreader := World.Later.of_onlyReader hothers
  have hlater := hreader.trans hvisit
  refine ⟨hinv, fun key e he => ?_, fun x n tags hx => ?_,
    fun n hn => (h.finished n hn).later hlater, fun r' v' hv' n hn => ?_, fun r' v' hv' => ?_⟩
  · obtain ⟨x, hx⟩ := hstored key e he
    exact ⟨x, hx.later hlater⟩
  · obtain ⟨hn, hpos, hpast, hseen⟩ := h.writers x n tags hx
    refine ⟨(congrFun hothers.writers x).trans hn, hpos, hpast.trans hlater.commits,
      fun route => ?_⟩
    rcases hseen route with ⟨tag, htag, hleft⟩ | hunseen
    · exact Or.inl ⟨tag, htag, hleft.imp_right (hlater.purged _)⟩
    · exact Or.inr (hlater.unseen hpast hunseen)
  · rcases update_eq_some hv' with ⟨-, rfl⟩ | ⟨-, hv'⟩
    · exact (h.since r v hv n hn).later hlater
    · exact (h.since r' v' hv' n hn).later hlater
  · rcases update_eq_some hv' with ⟨rfl, rfl⟩ | ⟨hr, hv'⟩
    · exact hstage.restage.later hvisit (fun n hn => (h.since _ v hv n hn).later hreader) rfl
    · exact (h.visits r' v' hv').later hlater (h.since r' v' hv') (hothers.readers r' hr)

/-- A commit leaves what the tables were before it, and its writer has a tag of every route that
shows something of it to purge. -/
lemma World.Inv.commit (h : w.Inv handlers) {x : ℕ} {write : Write} {db : Database}
    (happly : write.apply sql w.db = some db) {cache : Cache.World Body}
    (hs : Cache.step w.cache (.commit x) = some cache) :
    ({ w with
      cache := cache
      contents := Function.update w.contents cache.commits db
      writers := Function.update w.writers x
        (some (cache.commits, write.purgeTags)) } : World).Inv handlers := by
  have hinv := Cache.inv_step h.cache hs
  cases hs
  have hcontents : ∀ m ≤ w.cache.commits,
      Function.update w.contents (w.cache.commits + 1) db m = w.contents m := by
    intro m hm
    exact Function.update_of_ne (by omega) _ _
  have hlater : w.Later { w with
      cache := { w.cache with
        commits := w.cache.commits + 1
        writers := Function.update w.cache.writers x (some (w.cache.commits + 1)) }
      contents := Function.update w.contents (w.cache.commits + 1) db
      writers := Function.update w.writers x (some (w.cache.commits + 1, write.purgeTags)) } :=
    ⟨Nat.le_succ _, fun _ hp => hp, hcontents, fun _ hx => hx⟩
  refine ⟨hinv, fun key e he => ?_, fun y n tags hy => ?_,
    fun n hn => (h.finished n hn).later hlater, fun r v hv n hn => (h.since r v hv n hn).later hlater,
    fun r v hv => (h.visits r v hv).later hlater (h.since r v hv) rfl⟩
  · obtain ⟨x, hx⟩ := h.stored key e he
    exact ⟨x, hx.later hlater⟩
  · rcases update_eq_some hy with ⟨rfl, heq⟩ | ⟨hyx, hy⟩
    · cases heq
      refine ⟨Function.update_self .., Nat.le_add_left 1 _, Nat.le_refl _, fun route => ?_⟩
      by_cases htags : ∃ tag ∈ route.tags, tag ∈ write.purgeTags
      · obtain ⟨tag, hroute, htag⟩ := htags
        exact Or.inl ⟨tag, hroute, Or.inl htag⟩
      · right
        show (Function.update w.contents (w.cache.commits + 1) db w.cache.commits).rows.SameFor
          (Function.update w.contents (w.cache.commits + 1) db (w.cache.commits + 1)).rows route
        rw [hcontents _ (Nat.le_refl _), Function.update_self]
        exact apply_sameFor happly fun tag htag hroute => htags ⟨tag, hroute, htag⟩
    · obtain ⟨hn, hpos, hpast, hseen⟩ := h.writers y n tags hy
      refine ⟨(Function.update_of_ne hyx _ _).trans hn, hpos, Nat.le_succ_of_le hpast,
        fun route => ?_⟩
      exact (hseen route).imp_right (hlater.unseen hpast)

/-- A purge of the writer's own next tag. -/
lemma World.Inv.purgeOwn (h : w.Inv handlers) {x n : ℕ} {tag : Cache.Tag} {tags : List Cache.Tag}
    (hx : w.writers x = some (n, tag :: tags)) {cache : Cache.World Body}
    (hs : Cache.step w.cache (.purge x tag) = some cache) :
    ({ w with
      cache := cache
      writers := Function.update w.writers x (some (n, tags)) } : World).Inv handlers := by
  obtain ⟨-, -, -, -, hpurged⟩ := Cache.step_purge h.cache hs
  have hafter := h.purge hs
  have hlater : World.Later { w with cache := cache } { w with
      cache := cache
      writers := Function.update w.writers x (some (n, tags)) } :=
    ⟨Nat.le_refl _, fun _ hp => hp, fun _ _ => rfl, fun _ hx => hx⟩
  refine ⟨hafter.cache, fun key e he => ?_, fun y n' tags' hy => ?_,
    fun n hn => (hafter.finished n hn).later hlater,
    fun r v hv n hn => (hafter.since r v hv n hn).later hlater,
    fun r v hv => (hafter.visits r v hv).later hlater (hafter.since r v hv) rfl⟩
  · obtain ⟨x, hx⟩ := hafter.stored key e he
    exact ⟨x, hx.later hlater⟩
  · rcases update_eq_some hy with ⟨rfl, heq⟩ | ⟨-, hy⟩
    · cases heq
      obtain ⟨hn, hpos, hpast, hseen⟩ := hafter.writers y n (tag :: tags) hx
      refine ⟨hn, hpos, hpast, fun route => (hseen route).imp_left ?_⟩
      rintro ⟨tag', hroute, hleft | hdone⟩
      · rcases List.mem_cons.mp hleft with rfl | hleft
        · refine ⟨tag', hroute, Or.inr ?_⟩
          show _ ∈ cache.purged
          rw [hpurged, (h.writers y n _ hx).1]
          exact List.mem_cons_self
        · exact ⟨tag', hroute, Or.inl hleft⟩
      · exact ⟨tag', hroute, Or.inr hdone⟩
    · exact hafter.writers y n' tags' hy

/-- A writer is finished once it has purged all its tags. -/
lemma World.Inv.finish (h : w.Inv handlers) {x n : ℕ} (hx : w.writers x = some (n, [])) :
    ({ w with
      writers := Function.update w.writers x none
      finished := n :: w.finished } : World).Inv handlers := by
  have hlater : w.Later { w with
      writers := Function.update w.writers x none
      finished := n :: w.finished } :=
    ⟨Nat.le_refl _, fun _ hp => hp, fun _ _ => rfl, fun _ hx => hx⟩
  refine ⟨h.cache, fun key e he => ?_, fun y n' tags hy => ?_, fun n' hn' => ?_,
    fun r v hv n hn => (h.since r v hv n hn).later hlater,
    fun r v hv => (h.visits r v hv).later hlater (h.since r v hv) rfl⟩
  · obtain ⟨x, hx⟩ := h.stored key e he
    exact ⟨x, hx.later hlater⟩
  · exact h.writers y n' tags (update_none_eq_some hy).2
  · rcases List.mem_cons.mp hn' with rfl | hn'
    · obtain ⟨-, hpos, hpast, hseen⟩ := h.writers x n' [] hx
      refine ⟨hpos, hpast, fun route => (hseen route).imp_left ?_⟩
      rintro ⟨tag, hroute, hleft⟩
      exact ⟨tag, hroute, hleft.resolve_left List.not_mem_nil⟩
    · exact (h.finished n' hn').later hlater

/-- The invariant holds after every step of every party. -/
lemma inv_step {a : Action} (h : w.Inv handlers) (hs : step sql handlers w a = some w') :
    w'.Inv handlers := by
  cases a with
  | arrive r x =>
    simp only [step] at hs
    split at hs
    · cases hs
    · next hr =>
      cases hs
      refine h.setVisit (v := ⟨x, w.finished, .arrived⟩) ?_ h.finished trivial
      intro v' hv'
      rw [hr] at hv'
      cases hv'
  | visit r a =>
    simp only [step] at hs
    split at hs
    · cases hs
    · next v hv =>
      obtain ⟨⟨cache, stage⟩, hvisit, rfl⟩ := Option.map_eq_some_iff.mp hs
      exact h.visit hv hvisit
  | commit x write =>
    simp only [step] at hs
    split at hs
    · next happly hcommit =>
      cases hs
      exact h.commit happly hcommit
    · cases hs
  | purge x =>
    simp only [step] at hs
    split at hs
    · next hx =>
      obtain ⟨cache, hpurge, rfl⟩ := Option.map_eq_some_iff.mp hs
      exact h.purgeOwn hx hpurge
    · cases hs
  | finish x =>
    simp only [step] at hs
    split at hs
    · next hx =>
      cases hs
      exact h.finish hx
    · cases hs
  | purgeTag x tag =>
    simp only [step] at hs
    obtain ⟨cache, hpurge, rfl⟩ := Option.map_eq_some_iff.mp hs
    exact h.purge hpurge
  | clear =>
    cases hs
    refine h.lose (Cache.inv_step (a := .clear) h.cache rfl) ?_ rfl rfl rfl fun _ hp => hp
    intro st key e he
    simp [CacheService.entries_clear] at he
  | evict st key =>
    cases hs
    exact h.lose (Cache.inv_step (a := .evict st key) h.cache rfl)
      (CacheService.shrinks_lruDelete h.cache.indexed st key).entries rfl rfl rfl fun _ hp => hp

lemma inv_reach {db : Database} (h : Reach (step sql handlers) always (World.init db) w) :
    w.Inv handlers :=
  h.invariant (inv_init db) fun _ _ _ hi _ hs => inv_step hi hs

/-! ### Once all writes have finished -/

/-- Commits a route shows nothing of can be skipped. -/
lemma sameFor_of_unseen {route : Route} {m n : ℕ} (hle : m ≤ n)
    (h : ∀ k, m < k → k ≤ n → Unseen contents route k) :
    (contents m).rows.SameFor (contents n).rows route := by
  induction n, hle using Nat.le_induction with
  | base => exact .refl _ _
  | succ n hle ih =>
    have hlast : Unseen contents route (n + 1) := h (n + 1) (Nat.lt_succ_of_le hle) (Nat.le_refl _)
    exact (ih fun k hk hkn => h k hk (Nat.le_succ_of_le hkn)).trans hlast

/-- When every write has finished before a visit, its response is a handler's for the tables as they
are. -/
lemma Answer.quiet {outcome : Except Problem Body} {reads : List ℕ}
    (hx : Answer handlers w v outcome x reads)
    (hquiet : ∀ n, 1 ≤ n → n ≤ w.cache.commits → n ∈ v.since) :
    handlers.answer w.contents x reads = x.route.handle env w.db.rows x.query x.now := by
  have hreads : ∀ m ∈ reads, (w.contents m).rows.SameFor w.db.rows x.route := by
    intro m hm
    apply sameFor_of_unseen (hx.past m hm)
    intro n hmn hn
    rcases hx.since n (hquiet n (Nat.one_le_of_lt hmn) hn) with hle | hunseen
    · exact absurd (hle m hm) (Nat.not_le_of_lt hmn)
    · exact hunseen
  have hnow : handlers.answer w.contents x reads = handlers.answer (fun _ => w.db) x reads :=
    answer_congr hx.nonempty fun m hm => hreads m hm
  rw [hnow]
  exact handlers.undisturbed _ _ _ _

/-- A response that is not a preview is the same for every query that reads like its own and asks
for no preview. -/
lemma handle_query {route : Route} {r : Rows} {query query₂ : Query} {now now₂ : ℕ}
    (h : ∀ key ∈ route.keyParams, query key = query₂ key)
    (hnotPreview : (route.handle env r query now).previewVerified = false)
    (hpreview : (route.previewAware && (query₂ "preview").isSome) = false) :
    (route.handle env r query now).outcome = (route.handle env r query₂ now₂).outcome := by
  cases route
  case news route =>
    cases route with
    | list =>
      simp only [Route.keyParams, Public.NewsRoute.keyParams, Public.Route.keyParams,
        List.forall_mem_cons, List.not_mem_nil, false_imp_iff, implies_true, and_true] at h
      obtain ⟨hpage, hlimit, hcategory, hq⟩ := h
      have hpaging : readPageLimit query Public.newsPaging
          = readPageLimit query₂ Public.newsPaging := by
        simp only [readPageLimit, readPage, readLimit, readString, hpage, hlimit]
      have hfilters : readString query "category" = readString query₂ "category" ∧
          readString query "q" = readString query₂ "q" := by
        simp only [readString, hcategory, hq, and_self]
      simp only [Route.handle, Public.NewsRoute.handle, Public.newsList, hpaging, hfilters.1,
        hfilters.2]
    | featured => rfl
    | detail slug =>
      have hnone : query₂ "preview" = none := by
        simpa [Route.previewAware, Public.NewsRoute.previewAware] using hpreview
      have hverifies : ∀ id, Public.verifies env now₂ query₂ id = false := by
        simp [Public.verifies, readString, hnone, asString, truthy]
      simp only [Route.handle, Public.NewsRoute.handle, Public.bySlug] at hnotPreview ⊢
      cases hpost : r.newsDatabase.posts.find? fun p => env.coll.eq p.slug slug with
      | none => rfl
      | some post =>
        cases hpublished : post.isPublished with
        | true => simp [hpublished]
        | false =>
          simp only [hpost, hpublished, Bool.false_eq_true, if_false] at hnotPreview
          cases hown : Public.verifies env now query post.id with
          | true => simp [hown] at hnotPreview
          | false => simp [hpublished, hown, hverifies]
  case partners =>
    simp only [Route.handle, Public.partnersList, readString, h "category" (by
      simp [Route.keyParams, Public.Route.keyParams])]
  case aboutItems =>
    simp only [Route.handle, Public.aboutItemsList, readString, h "kind" (by
      simp [Route.keyParams, Public.Route.keyParams])]
  case redirectsResolve =>
    simp only [Route.handle, Public.resolve, readString, h "path" (by
      simp [Route.keyParams, Public.Route.keyParams])]
  all_goals rfl

end Invariant

/-! ### The property -/

/-- Every response is what the handler of a request with its key computes out of statements each of
which has read every write that had finished when the visit began, or a write its route shows
nothing of. If all writes had, it is what the handler computes of the tables as they are now; and
where the requests with the visitor's key are for one route and read alike, it is what the handler
computes for the visitor's own request. -/
theorem responses_fresh {sql : SqlNumeric} {env : PublicEnv} (handlers : Handlers env)
    {db : Database} {w : World} (h : Reach (step sql handlers) always (World.init db) w) {r : ℕ}
    {v : Visit} {outcome : Except Problem Body} (hv : w.visits r = some v)
    (hended : v.stage = .ended outcome) :
    (∃ x reads, Answer handlers w v outcome x reads) ∧
    ((∀ n, 1 ≤ n → n ≤ w.cache.commits → n ∈ v.since) →
      (∃ x, w.Asked x ∧ x.key = v.request.key ∧
        outcome = (x.route.handle env w.db.rows x.query x.now).outcome) ∧
      ((∀ x, w.Asked x → x.key = v.request.key → x.route = v.request.route ∧
          ∀ key ∈ x.route.keyParams, x.query key = v.request.query key) →
        outcome
          = (v.request.route.handle env w.db.rows v.request.query v.request.now).outcome)) := by
  have hstage := (inv_reach h).visits r v hv
  rw [hended] at hstage
  obtain ⟨x, reads, hx⟩ := hstage
  refine ⟨⟨x, reads, hx⟩, fun hquiet => ?_⟩
  have hnow := hx.quiet hquiet
  have houtcome := hx.outcome
  rw [hnow] at houtcome
  refine ⟨⟨x, hx.asked, hx.key, houtcome⟩, fun halike => ?_⟩
  rcases hx.own with rfl | ⟨hpreview, hnotPreview⟩
  · exact houtcome
  · obtain ⟨hroute, hquery⟩ := halike x hx.asked hx.key
    rw [hnow] at hnotPreview
    rw [houtcome, ← hroute]
    exact handle_query hquery hnotPreview (hroute ▸ hpreview)

def askSitemap : Request := ⟨"/api/v1/sitemap-index", .sitemapIndex, fun _ => none, 0⟩

/-- The sitemap is stored, a page is created meanwhile, and the sitemap is asked for twice more. -/
def createdPage : List Action :=
  [.arrive 0 askSitemap, .visit 0 (.lookup {}), .visit 0 .read,
    .commit 1 (.pages (.create { id := 1, slug := "about", titleAr := "a", updatedAt := 5 })),
    .visit 0 (.answer {}), .purge 1, .purge 1, .purge 1, .finish 1,
    .arrive 2 askSitemap, .visit 2 (.lookup {}), .visit 2 .read, .visit 2 (.answer {}),
    .arrive 3 askSitemap, .visit 3 (.lookup {})]

/-- The pages a response lists. -/
def pagesListed : Stage → Option (List SitemapEntry)
  | .ended (.ok (.sitemapIndex index)) => some index.pages
  | _ => none

theorem responses_fresh_createdPage :
    ∃ w, run (step .decimal (.atomic bareEnv)) (World.init .empty) createdPage = some w ∧
      ∃ v outcome, w.visits 3 = some v ∧ v.stage = .ended outcome ∧
        pagesListed v.stage = some [⟨"about", 5⟩] ∧ ∃ x, w.Asked x ∧ x.key = v.request.key ∧
          outcome = (x.route.handle bareEnv w.db.rows x.query x.now).outcome := by
  obtain ⟨w, hrun, hvisit⟩ := exists_of_run (step .decimal (.atomic bareEnv))
    (World.init .empty) createdPage
    (P := fun w => (w.visits 3).map (fun v => (pagesListed v.stage, v.since, w.cache.commits))
      = some (some [⟨"about", 5⟩], [1], 1)) (by decide)
  obtain ⟨v, hv, heq⟩ := Option.map_eq_some_iff.mp hvisit
  simp only [Prod.mk.injEq] at heq
  obtain ⟨hlisted, hsince, hcommits⟩ := heq
  have hended : ∃ outcome, v.stage = .ended outcome := by
    cases hstage : v.stage with
    | ended outcome => exact ⟨outcome, rfl⟩
    | arrived => simp [hstage, pagesListed] at hlisted
    | reading => simp [hstage, pagesListed] at hlisted
    | failed => simp [hstage, pagesListed] at hlisted
  obtain ⟨outcome, hended⟩ := hended
  refine ⟨w, hrun, v, outcome, hv, hended, hlisted, ?_⟩
  refine ((responses_fresh (.atomic bareEnv) (Reach.of_run hrun) hv hended).2 fun n hn hle => ?_).1
  rw [hsince, show n = 1 by omega]
  exact List.mem_singleton_self 1

end SafeerApi.Site
