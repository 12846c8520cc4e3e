import SafeerApi.Lib.Reach
import SafeerApi.Cache.KeySoundness

/-!
# Histories of cached requests

Any number of requests to the routes that declare key parameters, one after the other, against a
database that does not change, while entries may leave the cache at any time. As long as each
request is read like the earlier ones with its key, a hit is what the handler would have answered.
-/

namespace SafeerApi.Public

open Common

variable {A : Type*} {coll : Collation} {render : String → String}

/-! ### Requests -/

/-- Express matches a route's path in any letter case and with or without a final slash. -/
def Route.Matches (r : Route) (path : String) : Prop :=
  path.toList.map Char.toLower = r.path.toList ∨ path.toList.map Char.toLower = r.path.toList ++ ['/']

structure Request where
  route : Route
  path : String
  query : Query
  matched : route.Matches path

def Request.key (x : Request) : Cache.Key :=
  Cache.buildCacheKey x.path x.route.keyParams x.query

/-- What the handler makes of the request's own query. -/
def Request.handled (coll : Collation) (render : String → String) (db : Database A) (x : Request) :
    Cache.Handled (Body A) where
  outcome := (x.route.handle coll render db x.query).1
  skipCacheWrite := (x.route.handle coll render db x.query).2

lemma Route.Matches.no_colon {r : Route} {path : String} (h : r.Matches path) :
    ':' ∉ path.toList := by
  intro hmem
  have hmem : ':' ∈ path.toList.map Char.toLower := List.mem_map.mpr ⟨':', hmem, by decide⟩
  rcases h with h | h <;> rw [h] at hmem <;> revert hmem <;> cases r <;> decide

lemma Route.Matches.unique {r r' : Route} {path : String} (h : r.Matches path)
    (h' : r'.Matches path) : r = r' := by
  rcases h with h | h <;> rcases h' with h' | h' <;>
    (have heq := h.symm.trans h'; revert heq; cases r <;> cases r' <;> decide)

/-- Requests with one key are for one route and have one query text. -/
lemma Request.of_key_eq {x y : Request} (h : x.key = y.key) : x.route = y.route ∧
    "&".intercalate (Cache.keyParts x.route.keyParams x.query)
      = "&".intercalate (Cache.keyParts y.route.keyParams y.query) := by
  obtain ⟨hpath, hquery⟩ := Cache.buildCacheKey_inj x.matched.no_colon y.matched.no_colon h
  exact ⟨x.matched.unique (hpath ▸ y.matched), hquery⟩

/-! ### Histories -/

/-- The cache, and every request so far with the response it got. -/
structure History (A : Type*) where
  service : Cache.CacheService (Body A)
  served : List (Request × Cache.Response (Body A))

def History.init (A : Type*) : History A := ⟨.init _, []⟩

inductive Visit where
  | request (x : Request) (onGet onSet : Cache.LruChoice)
  | evict (key : Cache.Key)
  | purge (tag : Cache.Tag)
  | clear

/-- One request, or one loss of entries, against a database that does not change. -/
def visit (coll : Collation) (render : String → String) (db : Database A) (w : History A) :
    Visit → Option (History A)
  | .request x onGet onSet =>
    let (response, s) := Cache.intercept w.service false x.key x.route.tags
      (x.handled coll render db) onGet onSet
    some ⟨s, (x, response) :: w.served⟩
  | .evict key => some { w with service := w.service.evict .response key }
  | .purge tag => some { w with service := (w.service.purgeTag tag).2 }
  | .clear => some { w with service := w.service.clear }

/-- The request is read like every earlier request with its key. -/
def ReadAlike (coll : Collation) (w : History A) : Visit → Prop
  | .request x _ _ => ∀ y ∈ w.served, y.1.key = x.key → Alike coll y.1.query x.query x.route
  | _ => True

structure History.Inv (coll : Collation) (render : String → String) (db : Database A)
    (w : History A) : Prop where
  indexed : w.service.WellIndexed
  stored : ∀ st k e, w.service.entries st k = some e → ∃ y ∈ w.served, y.1.key = k ∧
    y.1.route.outcome coll render db y.1.query = .ok e.value
  faithful : ∀ y ∈ w.served, y.2 = (y.1.handled coll render db).respond

lemma inv_init (db : Database A) : (History.init A).Inv coll render db where
  indexed := Cache.CacheService.wellIndexed_init
  stored st k e he := by
    cases st <;> simp [History.init, Cache.CacheService.init, Cache.CacheService.entries] at he
  faithful := by simp [History.init]

/-- A hit under the request's key is the body its own handler returns. -/
lemma outcome_of_hit {db : Database A} {w : History A} (h : w.Inv coll render db) {x : Request}
    (halike : ∀ y ∈ w.served, y.1.key = x.key → Alike coll y.1.query x.query x.route)
    {e : Cache.CacheEntry (Body A)} (he : w.service.entries .response x.key = some e) :
    x.route.outcome coll render db x.query = .ok e.value := by
  obtain ⟨y, hy, hkey, hstored⟩ := h.stored .response x.key e he
  obtain ⟨hroute, htext⟩ := Request.of_key_eq hkey
  rw [hroute] at htext hstored
  rw [← (alike_iff htext).mpr (halike y hy hkey) db, hstored]

/-- Losing entries keeps what is known of the others. -/
lemma History.Inv.shrink {db : Database A} {w : History A} (h : w.Inv coll render db)
    {s : Cache.CacheService (Body A)} (hindexed : s.WellIndexed)
    (hentries : ∀ {st k e}, s.entries st k = some e → w.service.entries st k = some e) :
    ({ w with service := s } : History A).Inv coll render db :=
  ⟨hindexed, fun st k e he => h.stored st k e (hentries he), h.faithful⟩

/-- A response is what the handler itself returns. -/
lemma answer_faithful {db : Database A} {w : History A} (h : w.Inv coll render db) {x : Request}
    (halike : ∀ y ∈ w.served, y.1.key = x.key → Alike coll y.1.query x.query x.route)
    (onGet onSet : Cache.LruChoice) :
    (Cache.intercept w.service false x.key x.route.tags (x.handled coll render db) onGet onSet).1
      = (x.handled coll render db).respond := by
  rcases Cache.intercept_answer w.service false x.key x.route.tags (x.handled coll render db) onGet
    onSet with hown | ⟨e, he, hhit⟩
  · exact hown
  · have houtcome : (x.handled coll render db).outcome = .ok e.value := outcome_of_hit h halike he
    rw [hhit]
    simp only [Cache.Handled.respond, houtcome]
    rfl

lemma inv_visit {db : Database A} {w w' : History A} {a : Visit} (h : w.Inv coll render db)
    (hok : ReadAlike coll w a) (hs : visit coll render db w a = some w') :
    w'.Inv coll render db := by
  cases a with
  | request x onGet onSet =>
    cases hs
    have howns : Cache.Store.response.Owns x.key := Cache.buildCacheKey_owned _ _ _
    obtain ⟨hindexed, hentries⟩ := Cache.intercept_entries h.indexed howns false x.route.tags
      (x.handled coll render db) onGet onSet
    refine ⟨hindexed, fun st k e he => ?_, fun y hy => ?_⟩
    · rcases hentries st k e he with he | ⟨rfl, houtcome, -, -⟩
      · obtain ⟨y, hy, hstored⟩ := h.stored st k e he
        exact ⟨y, List.mem_cons_of_mem _ hy, hstored⟩
      · exact ⟨_, List.mem_cons_self, rfl, houtcome⟩
    · rcases List.mem_cons.mp hy with rfl | hy
      · exact answer_faithful h hok onGet onSet
      · exact h.faithful y hy
  | evict key =>
    cases hs
    have hshrink := Cache.CacheService.shrinks_lruDelete h.indexed .response key
    exact h.shrink hshrink.indexed hshrink.entries
  | purge tag =>
    cases hs
    exact h.shrink (h.indexed.purgeTag tag)
      fun he => (Cache.CacheService.entries_purgeTag h.indexed he).1
  | clear =>
    cases hs
    exact h.shrink (Cache.CacheService.wellIndexed_clear _)
      fun he => by simp [Cache.CacheService.entries_clear] at he

lemma inv_history {db : Database A} {w : History A}
    (h : Lib.Reach (visit coll render db) (ReadAlike coll) (History.init A) w) :
    w.Inv coll render db :=
  h.invariant (inv_init db) fun _ _ _ hi hok hs => inv_visit hi hok hs

/-- One key stands for one outcome exactly when the handler reads the two queries alike, as it does
all queries without repeated parameters and `&`; in a history of such requests every response is
the one the handler would have given. -/
theorem key_sound_iff_alike {r : Route} {path : String} {query query₂ : Query}
    (hkey : Cache.buildCacheKey path r.keyParams query
      = Cache.buildCacheKey path r.keyParams query₂) :
    ((∀ db : Database A, r.outcome coll render db query = r.outcome coll render db query₂) ↔
      Alike coll query query₂ r) ∧
    (Cache.Plain r.keyParams query → Cache.Plain r.keyParams query₂ →
      Alike coll query query₂ r) ∧
    ∀ (db : Database A) (w : History A),
      Lib.Reach (visit coll render db) (ReadAlike coll) (History.init A) w →
      ∀ y ∈ w.served, y.2 = (y.1.handled coll render db).respond := by
  have htext := congrArg String.toList hkey
  simp only [Cache.buildCacheKey, String.toList_append, List.append_cancel_left_eq] at htext
  have htext := String.toList_inj.mp htext
  exact ⟨alike_iff htext, fun hq hq' => alike_of_plain hq hq' htext,
    fun db w hw => (inv_history hw).faithful⟩

/-- `?kind=vision,mission`. -/
def spelledKinds : Query := fun key => if key = "kind" then some (.text "vision,mission") else none

/-- `?kind=vision&kind=mission`. -/
def repeatedKinds : Query :=
  fun key => if key = "kind" then some (.array "vision" "mission" []) else none

theorem key_sound_iff_alike_kinds : ¬∀ db : Database Empty,
    Route.outcome .binary id db spelledKinds .aboutItems
      = Route.outcome .binary id db repeatedKinds .aboutItems := by
  have hkey : Cache.buildCacheKey "/api/v1/about-items" (Route.keyParams .aboutItems) spelledKinds
      = Cache.buildCacheKey "/api/v1/about-items" (Route.keyParams .aboutItems) repeatedKinds := by
    decide
  intro h
  rcases (key_sound_iff_alike hkey).1.mp h with hrepeated | hkinds
  · exact absurd hrepeated (by decide)
  · exact absurd hkinds (by decide)

/-- The kinds a response groups its items by. -/
def kindsShown : Except Problem (Body A) → Option (List AboutItemKind)
  | .ok (.aboutItems items) => some (items.map Prod.fst)
  | _ => none

def kindsRequest (query : Query) : Request :=
  ⟨.aboutItems, "/api/v1/about-items", query, Or.inl (by decide)⟩

/-- `?page=1%26limit%3D5`. -/
def spelledLimit : Query := fun key => if key = "page" then some (.text "1&limit=5") else none

/-- `?page=1&limit=5`. -/
def limitFive : Query := fun key =>
  if key = "page" then some (.text "1") else if key = "limit" then some (.text "5") else none

/-- A repeated parameter is served the response stored for the text it spells, and a decoded `&` in
one parameter spells another. -/
theorem key_collision :
    (∃ w : History Empty, Lib.Reach (visit .binary id {}) Lib.always (History.init Empty) w ∧
      ∃ y ∈ w.served, y.2 ≠ (y.1.handled .binary id ({} : Database Empty)).respond) ∧
    Cache.buildCacheKey "/api/v1/news" (Route.keyParams .news) spelledLimit
      = Cache.buildCacheKey "/api/v1/news" (Route.keyParams .news) limitFive ∧
    Route.outcome .binary id ({} : Database Empty) spelledLimit .news
      ≠ Route.outcome .binary id ({} : Database Empty) limitFive .news := by
  refine ⟨?_, by decide, fun h => ?_⟩
  · obtain ⟨w, hrun, y, hy, hkinds⟩ := Lib.exists_of_run (visit .binary id ({} : Database Empty))
      (History.init Empty) [.request (kindsRequest spelledKinds) {} {},
        .request (kindsRequest repeatedKinds) {} {}]
      (P := fun w => ∃ y ∈ w.served, kindsShown y.2.outcome
        ≠ kindsShown (y.1.handled .binary id ({} : Database Empty)).outcome) (by decide +kernel)
    refine ⟨w, Lib.Reach.of_run hrun, y, hy, fun hfaithful => hkinds ?_⟩
    rw [hfaithful, Cache.Handled.respond_outcome]
  · have hnone : ∀ query : Query, query "category" = none →
        Known .binary ({} : Database Empty) (truthy (readString query "category")) := by
      intro query hquery
      exact known_of_none (by simp [readString_absent hquery])
    have h : (newsList .binary ({} : Database Empty) spelledLimit).1
        = (newsList .binary {} limitFive).1 := map_outcome_inj (fun _ _ => Body.news.inj) h
    have hlimit := (newsList_known_inj (hnone _ rfl) (hnone _ rfl) h).2.2
    exact absurd hlimit (by decide)

end SafeerApi.Public
