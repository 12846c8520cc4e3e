import Mathlib.Data.List.Forall2
import SafeerApi.Cache.Index
import SafeerApi.Lib.Reach
import SafeerApi.Public.NewsDetail

/-!
# Drafts and the cache

Previews and public responses share the routes, the keys and the interceptor. Whatever requests and
writes come one after another, a preview is not stored, and who holds no token for a draft is told
nothing of it but that its slug is not public.
-/

namespace SafeerApi.Public.Drafts

open Common Lib

variable {A : Type*}

/-! ### Requests and writes -/

/-- `now` is the time in milliseconds. -/
structure NewsRequest where
  route : NewsRoute
  path : String
  query : Query
  now : ℕ

def NewsRequest.key (x : NewsRequest) : Cache.Key :=
  Cache.buildCacheKey x.path x.route.keyParams x.query

def NewsRequest.previewRequested (x : NewsRequest) : Bool :=
  x.route.previewAware && (x.query "preview").isSome

def NewsRequest.handled (env : PublicEnv) (db : NewsDatabase A) (x : NewsRequest) :
    Cache.Handled (NewsBody A) :=
  x.route.handle env db x.query x.now

/-- The request holds a token for post `id`. -/
def NewsRequest.verifies (env : PublicEnv) (x : NewsRequest) (id : ℕ) : Bool :=
  Public.verifies env x.now x.query id

/-- The same request without a token. -/
def NewsRequest.withoutPreview (x : NewsRequest) : NewsRequest :=
  { x with query := fun key => if key = "preview" then none else x.query key }

/-- A response, and whether it was computed under a verified token. -/
structure Served (A : Type*) where
  request : NewsRequest
  response : Cache.Response (NewsBody A)
  verified : Bool

/-- The cache, the tables, and every response so far. -/
structure World (A : Type*) where
  service : Cache.CacheService (NewsBody A)
  db : NewsDatabase A
  served : List (Served A)

def World.init (db : NewsDatabase A) : World A := ⟨.init _, db, []⟩

/-- `write` is what any transaction leaves of the tables. -/
inductive Visit (A : Type*) where
  | request (x : NewsRequest) (onGet onSet : Cache.LruChoice)
  | write (db : NewsDatabase A)
  | purge (tag : Cache.Tag)
  | clear
  | evict (key : Cache.Key)

/-- The response to a request, and the cache it leaves. -/
def World.answer (env : PublicEnv) (w : World A) (x : NewsRequest) (onGet onSet : Cache.LruChoice) :
    Cache.Response (NewsBody A) × Cache.CacheService (NewsBody A) :=
  Cache.intercept w.service x.previewRequested x.key ["news"] (x.handled env w.db) onGet onSet

def visit (env : PublicEnv) (w : World A) : Visit A → Option (World A)
  | .request x onGet onSet =>
    let (response, s) := w.answer env x onGet onSet
    some { w with
      service := s
      served := ⟨x, response, (x.handled env w.db).previewVerified⟩ :: w.served }
  | .write db => some { w with db := db }
  | .purge tag => some { w with service := (w.service.purgeTag tag).2 }
  | .clear => some { w with service := w.service.clear }
  | .evict key => some { w with service := w.service.evict .response key }

/-! ### Previews are not stored -/

section Stored

variable {env : PublicEnv}

/-- A token is verified only for a preview, of a row that is not published. -/
lemma previewRequested_of_verified {db : NewsDatabase A} {x : NewsRequest}
    (h : (x.handled env db).previewVerified = true) : x.previewRequested = true := by
  simp only [NewsRequest.handled] at h
  cases hroute : x.route with
  | list => simp [hroute, NewsRoute.handle] at h
  | featured => simp [hroute, NewsRoute.handle] at h
  | detail slug =>
    simp only [NewsRequest.previewRequested, hroute, NewsRoute.previewAware, Bool.true_and]
    cases hquery : x.query "preview" with
    | some value => rfl
    | none =>
      simp only [hroute, NewsRoute.handle, bySlug, verifies, readString, hquery, asString, truthy,
        Bool.false_eq_true, if_false] at h
      split at h
      · cases h
      · split_ifs at h

/-- A response under a verified token leaves the cache as it was. -/
lemma answer_of_verified {w : World A} {x : NewsRequest} (onGet onSet : Cache.LruChoice)
    (h : (x.handled env w.db).previewVerified = true) :
    w.answer env x onGet onSet = ((x.handled env w.db).respond, w.service) := by
  simp only [World.answer, Cache.intercept, previewRequested_of_verified h, if_true]
  cases houtcome : (x.handled env w.db).outcome with
  | error p => rfl
  | ok body => simp [h]

/-- Every entry is the body of a response that was computed without a verified token. -/
structure World.Inv (w : World A) : Prop where
  indexed : w.service.WellIndexed
  stored : ∀ st key e, w.service.entries st key = some e → ∃ y ∈ w.served,
    y.request.key = key ∧ y.response.outcome = .ok e.value ∧ y.verified = false

lemma World.inv_init (db : NewsDatabase A) : (World.init db).Inv where
  indexed := Cache.CacheService.wellIndexed_init
  stored st key e he := by
    cases st <;> simp [World.init, Cache.CacheService.init, Cache.CacheService.entries] at he

/-- Losing entries keeps what is known of the others. -/
lemma World.Inv.shrink {w : World A} (h : w.Inv) {s : Cache.CacheService (NewsBody A)}
    (hindexed : s.WellIndexed)
    (hentries : ∀ {st key e}, s.entries st key = some e → w.service.entries st key = some e) :
    ({ w with service := s } : World A).Inv :=
  ⟨hindexed, fun st key e he => h.stored st key e (hentries he)⟩

lemma World.inv_visit {w w' : World A} {a : Visit A} (h : w.Inv) (hs : visit env w a = some w') :
    w'.Inv := by
  cases a with
  | request x onGet onSet =>
    cases hs
    have howns : Cache.Store.response.Owns x.key := Cache.buildCacheKey_owned _ _ _
    obtain ⟨hindexed, hentries⟩ := Cache.intercept_entries h.indexed howns x.previewRequested
      ["news"] (x.handled env w.db) onGet onSet
    refine ⟨hindexed, fun st key e he => ?_⟩
    rcases hentries st key e he with he | ⟨rfl, houtcome, hverified, hresponse⟩
    · obtain ⟨y, hy, hstored⟩ := h.stored st key e he
      exact ⟨y, List.mem_cons_of_mem _ hy, hstored⟩
    · refine ⟨_, List.mem_cons_self, rfl, ?_, hverified⟩
      show (w.answer env x onGet onSet).1.outcome = _
      rw [World.answer, hresponse, Cache.Handled.respond_outcome, houtcome]
  | write db =>
    cases hs
    exact ⟨h.indexed, h.stored⟩
  | purge tag =>
    cases hs
    exact h.shrink (h.indexed.purgeTag tag)
      fun he => (Cache.CacheService.entries_purgeTag h.indexed he).1
  | clear =>
    cases hs
    exact h.shrink (Cache.CacheService.wellIndexed_clear _)
      fun he => by simp [Cache.CacheService.entries_clear] at he
  | evict key =>
    cases hs
    have hshrink := Cache.CacheService.shrinks_lruDelete h.indexed .response key
    exact h.shrink hshrink.indexed hshrink.entries

end Stored

/-! ### What is seen of a draft -/

/-- Equal rows, or two contents of one hidden draft. -/
def SameRow (hidden : ℕ → Prop) (p p' : DetailPost A) : Prop :=
  p = p' ∨ (hidden p.id ∧ p'.id = p.id ∧ p'.slug = p.slug ∧ p.isPublished = false ∧
    p'.isPublished = false)

/-- Tables that differ only in the contents of hidden drafts. -/
structure SameTables (hidden : ℕ → Prop) (db db' : NewsDatabase A) : Prop where
  categories : db'.categories = db.categories
  posts : List.Forall₂ (SameRow hidden) db.posts db'.posts

/-- The tables without the posts that are not published. -/
def publicTables (db : NewsDatabase A) : NewsDatabase A :=
  { db with posts := db.posts.filter (·.isPublished) }

section TwoRuns

variable {hidden : ℕ → Prop} {env : PublicEnv} {db db' : NewsDatabase A}

lemma published_eq {posts posts' : List (DetailPost A)}
    (h : List.Forall₂ (SameRow hidden) posts posts') :
    posts'.filter (·.isPublished) = posts.filter (·.isPublished) := by
  induction h with
  | nil => rfl
  | cons hrow _ ih =>
    rcases hrow with rfl | ⟨-, -, -, hp, hp'⟩
    · simp only [List.filter_cons, ih]
    · simp only [List.filter_cons, hp, hp', ih, Bool.false_eq_true, if_false]

lemma publicTables_eq (h : SameTables hidden db db') : publicTables db' = publicTables db := by
  simp only [publicTables, h.categories, published_eq h.posts]

/-- What is chosen among the published posts is chosen among all. -/
lemma filter_published {P : Type*} {isPublished q : P → Bool}
    (h : ∀ p, q p = true → isPublished p = true)
    (posts : List P) : (posts.filter isPublished).filter q = posts.filter q := by
  rw [List.filter_filter]
  apply List.filter_congr
  intro p _
  cases hq : q p with
  | false => rfl
  | true => rw [h p hq]; rfl

lemma newsRows_publicTables (coll : Collation) (category q : Option String) :
    newsRows coll (publicTables db).toDatabase category q
      = newsRows coll db.toDatabase category q := by
  have hposts : (publicTables db).toDatabase.posts = db.toDatabase.posts.filter (·.isPublished) := by
    simp only [publicTables, NewsDatabase.toDatabase, List.filter_map]
    rfl
  simp only [newsRows, hposts]
  rw [filter_published]
  · rfl
  · intro p hp
    simp only [Bool.and_eq_true] at hp
    exact hp.1.1

/-- The list reads published posts only. -/
lemma newsList_publicTables (db : NewsDatabase A) (coll : Collation) (query : Query) :
    newsList coll (publicTables db).toDatabase query = newsList coll db.toDatabase query := by
  simp only [newsList, newsRows_publicTables]
  rfl

lemma featured_publicTables (db : NewsDatabase A) : featured (publicTables db) = featured db := by
  simp only [featured, publicTables]
  rw [filter_published]
  · rfl
  · intro p hp
    exact (Bool.and_eq_true_iff.mp hp).1

/-- The detail of a post reads nothing of other posts that are not published. -/
lemma toPublicPostDetail_publicTables (db : NewsDatabase A) (post : DetailPost A)
    (fileQuery : Option String) :
    toPublicPostDetail env (publicTables db) post fileQuery
      = toPublicPostDetail env db post fileQuery := by
  have hrelated : relatedPosts (publicTables db) post = relatedPosts db post := by
    simp only [relatedPosts, publicTables]
    rw [filter_published]
    intro p hp
    exact (Bool.and_eq_true_iff.mp hp).2
  simp only [toPublicPostDetail, hrelated]
  rfl

lemma find_sameRow {posts posts' : List (DetailPost A)}
    (h : List.Forall₂ (SameRow hidden) posts posts') (p : String → Bool) :
    Option.Rel (SameRow hidden) (posts.find? fun post => p post.slug)
      (posts'.find? fun post => p post.slug) := by
  induction h with
  | nil => exact .none
  | @cons post post' _ _ hrow _ ih =>
    have hslug : post'.slug = post.slug := by
      rcases hrow with rfl | ⟨-, -, hslug, -⟩
      · rfl
      · exact hslug
    simp only [List.find?_cons, hslug]
    cases p post.slug with
    | true => exact .some hrow
    | false => exact ih

/-- Two runs of one handler have the same outcome, or both show a hidden draft to who holds a token
for it. -/
lemma handled_eq_or_verified (env : PublicEnv) (h : SameTables hidden db db') (x : NewsRequest) :
    x.handled env db' = x.handled env db ∨
      ((∃ id, hidden id ∧ x.verifies env id = true) ∧
        (x.handled env db).previewVerified = true ∧ (x.handled env db').previewVerified = true) := by
  have hpublic := publicTables_eq h
  simp only [NewsRequest.handled]
  cases x.route with
  | list =>
    left
    simp only [NewsRoute.handle]
    rw [← newsList_publicTables db', hpublic, newsList_publicTables]
  | featured =>
    left
    simp only [NewsRoute.handle]
    rw [← featured_publicTables db', hpublic, featured_publicTables]
  | detail slug =>
    have hdetail : ∀ (post : DetailPost A) fileQuery, toPublicPostDetail env db' post fileQuery
        = toPublicPostDetail env db post fileQuery := by
      intro post fileQuery
      rw [← toPublicPostDetail_publicTables db', hpublic, toPublicPostDetail_publicTables]
    have hfind := find_sameRow h.posts fun s => env.coll.eq s slug
    simp only [NewsRoute.handle, bySlug]
    cases hpost : db.posts.find? fun post => env.coll.eq post.slug slug with
    | none =>
      rw [hpost] at hfind
      cases hpost' : db'.posts.find? fun post => env.coll.eq post.slug slug with
      | none => exact Or.inl rfl
      | some post' =>
        rw [hpost'] at hfind
        cases hfind
    | some post =>
      rw [hpost] at hfind
      cases hpost' : db'.posts.find? fun post => env.coll.eq post.slug slug with
      | none =>
        rw [hpost'] at hfind
        cases hfind
      | some post' =>
        rw [hpost'] at hfind
        cases hfind with
        | some hrow =>
          rcases hrow with rfl | ⟨hhidden, hid, -, hp, hp'⟩
          · left
            simp only [hdetail]
          · -- one hidden draft, with two contents
            simp only [hp, hp', hid, Bool.false_eq_true, if_false]
            cases hverifies : Public.verifies env x.now x.query post.id with
            | true => exact Or.inr ⟨⟨post.id, hhidden, hverifies⟩, by simp, by simp⟩
            | false => exact Or.inl (by simp)

end TwoRuns

/-! ### Two runs -/

/-- The same request or purge, or writes that leave the same tables but for the contents of hidden
drafts. -/
inductive SameVisit (hidden : ℕ → Prop) : Visit A → Visit A → Prop where
  | request (x : NewsRequest) (onGet onSet : Cache.LruChoice) :
      SameVisit hidden (.request x onGet onSet) (.request x onGet onSet)
  | write {db db' : NewsDatabase A} (h : SameTables hidden db db') :
      SameVisit hidden (.write db) (.write db')
  | purge (tag : Cache.Tag) : SameVisit hidden (.purge tag) (.purge tag)
  | clear : SameVisit hidden .clear .clear
  | evict (key : Cache.Key) : SameVisit hidden (.evict key) (.evict key)

/-- The same response, unless the request holds a token for a hidden draft. -/
def SameServed (env : PublicEnv) (hidden : ℕ → Prop) (y y' : Served A) : Prop :=
  y'.request = y.request ∧
    ((∀ id, hidden id → y.request.verifies env id = false) → y'.response = y.response)

/-- Two runs that only their hidden drafts tell apart. -/
structure SameWorld (env : PublicEnv) (hidden : ℕ → Prop) (w w' : World A) : Prop where
  service : w'.service = w.service
  tables : SameTables hidden w.db w'.db
  served : List.Forall₂ (SameServed env hidden) w.served w'.served

section TwoRuns

variable {hidden : ℕ → Prop} {env : PublicEnv} {w w' v v' : World A}

lemma SameWorld.visit {a a' : Visit A} (h : SameWorld env hidden w w')
    (ha : SameVisit hidden a a') (hs : Drafts.visit env w a = some v)
    (hs' : Drafts.visit env w' a' = some v') : SameWorld env hidden v v' := by
  cases ha with
  | request x onGet onSet =>
    cases hs
    cases hs'
    rcases handled_eq_or_verified env h.tables x with heq | ⟨htoken, hverified, hverified'⟩
    · have hanswer : w'.answer env x onGet onSet = w.answer env x onGet onSet := by
        simp only [World.answer, h.service, heq]
      refine ⟨congrArg Prod.snd hanswer, h.tables, .cons ⟨rfl, ?_⟩ h.served⟩
      exact fun _ => congrArg Prod.fst hanswer
    · have hanswer := answer_of_verified onGet onSet hverified
      have hanswer' := answer_of_verified onGet onSet hverified'
      refine ⟨?_, h.tables, .cons ⟨rfl, ?_⟩ h.served⟩
      · exact (congrArg Prod.snd hanswer').trans (h.service.trans (congrArg Prod.snd hanswer).symm)
      · intro hnone
        obtain ⟨id, hid, htoken⟩ := htoken
        rw [hnone id hid] at htoken
        cases htoken
  | write hdb =>
    cases hs
    cases hs'
    exact ⟨h.service, hdb, h.served⟩
  | purge tag =>
    cases hs
    cases hs'
    exact ⟨by rw [h.service], h.tables, h.served⟩
  | clear =>
    cases hs
    cases hs'
    exact ⟨by rw [h.service], h.tables, h.served⟩
  | evict key =>
    cases hs
    cases hs'
    exact ⟨by rw [h.service], h.tables, h.served⟩

lemma SameWorld.run {as as' : List (Visit A)} (has : List.Forall₂ (SameVisit hidden) as as')
    (h : SameWorld env hidden w w') (hs : Lib.run (Drafts.visit env) w as = some v)
    (hs' : Lib.run (Drafts.visit env) w' as' = some v') : SameWorld env hidden v v' := by
  induction has generalizing w w' with
  | nil =>
    cases hs
    cases hs'
    exact h
  | cons ha _ ih =>
    obtain ⟨u, hu, hs⟩ := Option.bind_eq_some_iff.mp hs
    obtain ⟨u', hu', hs'⟩ := Option.bind_eq_some_iff.mp hs'
    exact ih (h.visit ha hu hu') hs hs'

end TwoRuns

/-! ### Tokens that are not valid -/

/-- A preview is answered by the handler. -/
lemma answer_of_previewRequested {env : PublicEnv} {w : World A} {x : NewsRequest}
    (onGet onSet : Cache.LruChoice) (h : x.previewRequested = true) :
    (w.answer env x onGet onSet).1 = (x.handled env w.db).respond := by
  simp only [World.answer, Cache.intercept, h, if_true]
  split
  · rfl
  · split <;> rfl

/-- A token that is not one for the post is as good as none. -/
lemma handled_withoutPreview {env : PublicEnv} {db : NewsDatabase A} {x : NewsRequest}
    {slug : String} (hroute : x.route = .detail slug)
    (hinvalid : ∀ post, db.posts.find? (fun p => env.coll.eq p.slug slug) = some post →
      x.verifies env post.id = false) : x.handled env db = x.withoutPreview.handled env db := by
  simp only [NewsRequest.handled, NewsRequest.withoutPreview, hroute, NewsRoute.handle, bySlug]
  cases hpost : db.posts.find? fun p => env.coll.eq p.slug slug with
  | none => rfl
  | some post =>
    have hverifies : verifies env x.now x.query post.id = false := hinvalid post hpost
    have hnone : verifies env x.now (fun key => if key = "preview" then none else x.query key)
        post.id = false := by
      simp [verifies, readString, asString]
    simp only [hverifies, hnone, Bool.false_eq_true, if_false]

/-! ### The three properties -/

/-- Drafts do not leak through the cache. A response computed under a verified token is the
handler's own and leaves the cache as it was, so that every entry is the body of another response.
Two runs that differ only in the contents of hidden drafts give the same responses to every request
without a token for one of these. A detail request whose token is not one for its post gets what the
handler computes without a token. -/
theorem drafts_do_not_leak (env : PublicEnv) (A : Type*) :
    (∀ (db : NewsDatabase A) (w : World A), Reach (visit env) always (World.init db) w →
      (∀ st key e, w.service.entries st key = some e → ∃ y ∈ w.served,
        y.request.key = key ∧ y.response.outcome = .ok e.value ∧ y.verified = false) ∧
      ∀ x onGet onSet, (x.handled env w.db).previewVerified = true →
        w.answer env x onGet onSet = ((x.handled env w.db).respond, w.service)) ∧
    (∀ (hidden : ℕ → Prop) (db db' : NewsDatabase A) (as as' : List (Visit A)) (w w' : World A),
      SameTables hidden db db' → List.Forall₂ (SameVisit hidden) as as' →
      run (visit env) (World.init db) as = some w → run (visit env) (World.init db') as' = some w' →
      List.Forall₂ (SameServed env hidden) w.served w'.served) ∧
    ∀ (w : World A) x onGet onSet slug, x.route = .detail slug → (x.query "preview").isSome = true →
      (∀ post, w.db.posts.find? (fun p => env.coll.eq p.slug slug) = some post →
        x.verifies env post.id = false) →
      (w.answer env x onGet onSet).1 = (x.withoutPreview.handled env w.db).respond := by
  refine ⟨?_, ?_, ?_⟩
  · intro db w h
    have hinv : w.Inv :=
      h.invariant (P := World.Inv) (World.inv_init db) fun _ _ _ hi _ hs => World.inv_visit hi hs
    exact ⟨hinv.stored, fun x onGet onSet hverified => answer_of_verified onGet onSet hverified⟩
  · intro hidden db db' as as' w w' hdb has hs hs'
    have hinit : SameWorld env hidden (World.init db) (World.init db') := ⟨rfl, hdb, .nil⟩
    exact (hinit.run has hs hs').served
  · intro w x onGet onSet slug hroute hpreview hinvalid
    have hrequested : x.previewRequested = true := by
      simp only [NewsRequest.previewRequested, hroute, NewsRoute.previewAware, hpreview,
        Bool.true_and]
    rw [answer_of_previewRequested onGet onSet hrequested, handled_withoutPreview hroute hinvalid]

/-- Numerals are numbers, and the hash of a text is the text. -/
def plainEnv : PublicEnv where
  coll := .binary
  render := id
  preview :=
    { number := fun s => (SqlNumeric.decimal.rowId s).map fun n => (n : ℚ)
      print := fun q => toString q.num
      hmac := id }

def draft (titleAr : String) : NewsDatabase Empty where
  categories := []
  posts := [{
    id := 1, slug := "d", titleAr := titleAr, titleEn := none, excerptAr := none, excerptEn := none
    categoryId := 1, coverAsset := none, publishedOn := none, isFeatured := false
    isPublished := false, bodyAr := none, bodyEn := none }]

/-- A request for the draft at time 5. -/
def askFor (token : Option String) : Visit Empty :=
  .request ⟨.detail "d", "/api/v1/news/d",
    fun key => if key = "preview" then token.map .text else none, 5⟩ {} {}

/-- Without a token, and with one that is valid until 10. -/
def asked : List (Visit Empty) := [askFor none, askFor (some "10.posts|1|10")]

theorem drafts_do_not_leak_asked : ∃ w w' : World Empty,
    run (visit plainEnv) (World.init (draft "a")) asked = some w ∧
      w.served.map (·.verified) = [true, false] ∧
      List.Forall₂ (SameServed plainEnv (· = 1)) w.served w'.served := by
  obtain ⟨w, hrun, hverified⟩ := exists_of_run (visit plainEnv) (World.init (draft "a")) asked
    (P := fun w => w.served.map (·.verified) = [true, false]) (by decide +kernel)
  obtain ⟨w', hrun', -⟩ := exists_of_run (visit plainEnv) (World.init (draft "b")) asked
    (P := fun _ => True) (by decide +kernel)
  have hdb : SameTables (· = 1) (draft "a") (draft "b") :=
    ⟨rfl, .cons (Or.inr ⟨rfl, rfl, rfl, rfl, rfl⟩) .nil⟩
  have hasked : List.Forall₂ (SameVisit (· = 1)) asked asked :=
    .cons (.request _ _ _) (.cons (.request _ _ _) .nil)
  exact ⟨w, w', hrun, hverified,
    (drafts_do_not_leak plainEnv Empty).2.1 _ _ _ _ _ w w' hdb hasked hrun hrun'⟩

end SafeerApi.Public.Drafts
