import SafeerApi.Cache.Interceptor
import SafeerApi.Public.Lists

/-!
# When one key stands for one outcome

Two queries to one route may share a key while the handler reads them differently: an array's text
is that of the one string it spells, and a text with a `&` can spell other parameters. This module
says exactly which pairs of queries with one key the handler answers alike in every database.
-/

namespace SafeerApi.Public

open Common

variable {A : Type*} {coll : Collation} {render : String → String}

/-! ### What a handler sees of a query -/

/-- The parameter was repeated. -/
def repeated : Option QueryValue → Bool
  | some (.array _ _ _) => true
  | _ => false

/-- The texts a search for `q` finds depend on the weights of its characters only. -/
def weights (coll : Collation) (q : String) : List ℕ := q.toList.map coll.weight

/-- Some category could have this slug. -/
def Nameable (coll : Collation) (slug : String) : Prop :=
  ∃ c : String, c.length ≤ 191 ∧ coll.eq c slug = true

/-- The news handler reads the same category from both queries, and from there on either the same
page, limit and search, or refuses both because no category can have that slug. -/
def AlikeNews (coll : Collation) (query query₂ : Query) : Prop :=
  truthy (readString query "category") = truthy (readString query₂ "category") ∧
    ((readPage query = readPage query₂ ∧ readLimit query newsPaging = readLimit query₂ newsPaging ∧
        (truthy (readString query "q")).map (weights coll)
          = (truthy (readString query₂ "q")).map (weights coll)) ∨
      ∃ slug, truthy (readString query "category") = some slug ∧ ¬Nameable coll slug)

/-- The condition under which a route's handler does not tell two queries with one key apart. -/
def Alike (coll : Collation) (query query₂ : Query) : Route → Prop
  | .news => AlikeNews coll query query₂
  | .aboutItems => repeated (query "kind") = repeated (query₂ "kind") ∨
      parseKinds ((query "kind").map QueryValue.toText) = .ok aboutItemKinds
  | .redirectsResolve => repeated (query "path") = repeated (query₂ "path")
  | .partners => repeated (query "category") = repeated (query₂ "category")

/-- The handler's outcome. -/
def Route.outcome (coll : Collation) (render : String → String) (db : Database A) (query : Query)
    (r : Route) : Except Problem (Body A) := (r.handle coll render db query).1

/-! ### Routes with one parameter -/

/-- Two values with one text are the same value, unless one is an array and the other is its join. -/
lemma eq_or_repeated {value value' : Option QueryValue}
    (h : value.map QueryValue.toText = value'.map QueryValue.toText) :
    (repeated value = repeated value' ∧ asString value = asString value') ∨
      ∃ s₁ s₂ rest, ((value = some (.text (QueryValue.array s₁ s₂ rest).toText) ∧
          value' = some (.array s₁ s₂ rest)) ∨
        (value = some (.array s₁ s₂ rest) ∧
          value' = some (.text (QueryValue.array s₁ s₂ rest).toText))) := by
  cases value with
  | none =>
    obtain rfl : value' = none := by simpa [eq_comm] using h
    exact Or.inl ⟨rfl, rfl⟩
  | some value =>
    obtain ⟨value', rfl, htext⟩ := Option.map_eq_some_iff.mp h.symm
    cases value with
    | text s =>
      cases value' with
      | text s' =>
        obtain rfl : s' = s := htext
        exact Or.inl ⟨rfl, rfl⟩
      | array s₁ s₂ rest =>
        obtain rfl : _ = s := htext
        exact Or.inr ⟨s₁, s₂, rest, Or.inl ⟨rfl, rfl⟩⟩
    | array s₁ s₂ rest =>
      cases value' with
      | text s' =>
        obtain rfl : s' = _ := htext
        exact Or.inr ⟨s₁, s₂, rest, Or.inr ⟨rfl, rfl⟩⟩
      | array s₁' s₂' rest' => exact Or.inl ⟨rfl, rfl⟩

/-- The text of an array has a comma. -/
lemma comma_mem_array (s₁ s₂ : String) (rest : List String) :
    ',' ∈ (QueryValue.array s₁ s₂ rest).toText.toList := by
  simp [QueryValue.toText, List.intercalate]

lemma truthy_array_text (s₁ s₂ : String) (rest : List String) :
    truthy (some (QueryValue.array s₁ s₂ rest).toText)
      = some (QueryValue.array s₁ s₂ rest).toText := by
  apply truthy_some
  intro h
  simpa [h] using comma_mem_array s₁ s₂ rest

lemma map_outcome_inj {β γ : Type*} {f : β → γ} (hf : Function.Injective f)
    {x y : Except Problem β} (h : x.map f = y.map f) : x = y := by
  cases x <;> cases y <;> simp only [Except.map, Except.error.injEq, Except.ok.injEq,
    reduceCtorEq] at h ⊢
  · exact h
  · exact hf h

/-- The about-items handler sees exactly the kinds it parses. -/
lemma aboutItems_outcome_iff {query query₂ : Query} :
    (∀ db : Database A, Route.outcome coll render db query .aboutItems
      = Route.outcome coll render db query₂ .aboutItems) ↔
      parseKinds (readString query "kind") = parseKinds (readString query₂ "kind") := by
  constructor
  · intro h
    have h := map_outcome_inj (fun _ _ => Body.aboutItems.inj) (h {})
    simp only [aboutItemsList] at h
    cases hk : parseKinds (readString query "kind") <;>
      cases hk' : parseKinds (readString query₂ "kind") <;> rw [hk, hk'] at h
    · exact congrArg Except.error (Except.error.inj h)
    · cases h
    · cases h
    · have hkeys := congrArg (List.map Prod.fst) (Except.ok.inj h)
      rw [List.map_map, List.map_map] at hkeys
      simpa [Function.comp_def] using hkeys
  · intro h db
    simp only [Route.outcome, Route.handle, aboutItemsList, h]

lemma aboutItems_alike_iff {query query₂ : Query}
    (h : (query "kind").map QueryValue.toText = (query₂ "kind").map QueryValue.toText) :
    (∀ db : Database A, Route.outcome coll render db query .aboutItems
      = Route.outcome coll render db query₂ .aboutItems) ↔ Alike coll query query₂ .aboutItems := by
  rw [aboutItems_outcome_iff]
  have hnone : parseKinds none = .ok aboutItemKinds := rfl
  rcases eq_or_repeated h with ⟨hrep, htext⟩ | ⟨s₁, s₂, rest, ⟨hq, hq'⟩ | ⟨hq, hq'⟩⟩
  · simp only [Alike, hrep, true_or, readString, htext]
  · simp [Alike, readString, asString, repeated, hq, hq', hnone]
  · simp [Alike, readString, asString, repeated, hq, hq', hnone, eq_comm]

/-- Two queries that differ in a parameter whose values the empty database tells apart. -/
lemma not_forall_outcome {route : Route} {name : String} {v w : QueryValue} {query query₂ : Query}
    (hq : (query name = some v ∧ query₂ name = some w) ∨
      (query name = some w ∧ query₂ name = some v))
    (hne : ∀ {a b : Query}, a name = some v → b name = some w →
      Route.outcome (A := A) coll render {} a route ≠ Route.outcome coll render {} b route) :
    ¬ ∀ db : Database A,
      Route.outcome coll render db query route = Route.outcome coll render db query₂ route := by
  intro hall
  rcases hq with ⟨hq, hq'⟩ | ⟨hq, hq'⟩
  · exact hne hq hq' (hall {})
  · exact hne hq' hq (hall {}).symm

/-- A repeated path is refused as missing, the text it spells is looked up. -/
lemma redirects_alike_iff {query query₂ : Query}
    (h : (query "path").map QueryValue.toText = (query₂ "path").map QueryValue.toText) :
    (∀ db : Database A, Route.outcome coll render db query .redirectsResolve
      = Route.outcome coll render db query₂ .redirectsResolve) ↔
      Alike coll query query₂ .redirectsResolve := by
  rcases eq_or_repeated h with ⟨hrep, htext⟩ | ⟨s₁, s₂, rest, hq⟩
  · simp only [Alike, hrep, Route.outcome, Route.handle, resolve, readString, htext,
      implies_true]
  · have hrefused : ∀ {a b : Query}, a "path" = some (.text (QueryValue.array s₁ s₂ rest).toText) →
        b "path" = some (.array s₁ s₂ rest) →
        Route.outcome (A := A) coll render {} a .redirectsResolve
          ≠ Route.outcome coll render {} b .redirectsResolve := by
      intro a b ha hb
      simp [Route.outcome, Route.handle, resolve, readString, asString, ha, hb, truthy_array_text,
        Except.map]
    have hneither : ¬Alike coll query query₂ .redirectsResolve := by
      rcases hq with ⟨hq, hq'⟩ | ⟨hq, hq'⟩ <;> simp [Alike, repeated, hq, hq']
    exact iff_of_false (not_forall_outcome hq hrefused) hneither

/-- A repeated category is no category, the text it spells is an unknown one. -/
lemma partners_alike_iff {query query₂ : Query}
    (h : (query "category").map QueryValue.toText = (query₂ "category").map QueryValue.toText) :
    (∀ db : Database A, Route.outcome coll render db query .partners
      = Route.outcome coll render db query₂ .partners) ↔ Alike coll query query₂ .partners := by
  rcases eq_or_repeated h with ⟨hrep, htext⟩ | ⟨s₁, s₂, rest, hq⟩
  · simp only [Alike, hrep, Route.outcome, Route.handle, partnersList, readString, htext,
      implies_true]
  · have hunknown : partnerCategories.find? (·.name = (QueryValue.array s₁ s₂ rest).toText)
        = none := by
      rw [List.find?_eq_none]
      intro category _ hname
      have hcomma := comma_mem_array s₁ s₂ rest
      rw [← of_decide_eq_true hname] at hcomma
      cases category <;> simp [PartnerCategory.name] at hcomma
    have hrefused : ∀ {a b : Query},
        a "category" = some (.text (QueryValue.array s₁ s₂ rest).toText) →
        b "category" = some (.array s₁ s₂ rest) →
        Route.outcome (A := A) coll render {} a .partners
          ≠ Route.outcome coll render {} b .partners := by
      intro a b ha hb
      simp [Route.outcome, Route.handle, partnersList, readString, asString, ha, hb, hunknown,
        Except.map]
    have hneither : ¬Alike coll query query₂ .partners := by
      rcases hq with ⟨hq, hq'⟩ | ⟨hq, hq'⟩ <;> simp [Alike, repeated, hq, hq']
    exact iff_of_false (not_forall_outcome hq hrefused) hneither

/-! ### The news list -/

lemma contains_iff {q column : String} :
    contains coll q column = true ↔ weights coll q <:+: weights coll column := by
  simp only [contains, weights]
  rw [← Lib.like_contains]
  simp [String.toList_append]

/-- A null search finds everything; any other misses the empty text. -/
lemma contains_empty {q : String} (hq : q ≠ "") : contains coll q "" = false := by
  rw [Bool.eq_false_iff, ne_eq, contains_iff]
  intro hinfix
  exact hq (by simpa [weights, String.toList_eq_nil_iff] using hinfix)

lemma contains_congr {q q' : String} (h : weights coll q = weights coll q') (column : String) :
    contains coll q column = contains coll q' column := by
  rw [Bool.eq_iff_iff, contains_iff, contains_iff, h]

lemma matches_congr {q q' : String} (h : weights coll q = weights coll q') (post : Post A) :
    post.matches coll q = post.matches coll q' := by
  simp only [Post.matches, funext (contains_congr h)]

/-- Searches of equal weights find the same rows. -/
lemma newsRows_congr {q q' : Option String} (h : q.map (weights coll) = q'.map (weights coll))
    (db : Database A) (category : Option String) :
    newsRows coll db category q = newsRows coll db category q' := by
  cases q with
  | none =>
    obtain rfl : q' = none := by simpa [eq_comm] using h
    rfl
  | some q =>
    obtain ⟨q', rfl, hq⟩ := Option.map_eq_some_iff.mp h.symm
    simp only [newsRows, Option.all_some, matches_congr hq]

/-- The category is one of the table's, or none is asked for. -/
def Known (coll : Collation) (db : Database A) (category : Option String) : Prop :=
  ∀ slug, category = some slug → (db.categories.any fun c => coll.eq c.slug slug) = true

lemma known_of_none {db : Database A} {category : Option String} (h : category = none) :
    Known coll db category := by
  intro slug hslug
  rw [h] at hslug
  cases hslug

lemma newsList_known {db : Database A} {query : Query}
    (h : Known coll db (truthy (readString query "category"))) :
    ∃ data, (newsList coll db query).1 = .ok ⟨data,
      (newsRows coll db (truthy (readString query "category"))
        (truthy (readString query "q"))).length, readPage query, readLimit query newsPaging⟩ := by
  have hfilter : (truthy (readString query "category")).filter
      (fun slug => !db.categories.any fun c => coll.eq c.slug slug) = none := by
    cases hc : truthy (readString query "category") with
    | none => rfl
    | some slug => simp [Option.filter, h slug hc]
  simp only [newsList]
  simp only [hfilter]
  split
  · exact ⟨[], by simp⟩
  · exact ⟨_, by rw [readPageLimit_page, readPageLimit_limit]⟩

lemma newsList_unknown {db : Database A} {query : Query} {slug : String}
    (hc : truthy (readString query "category") = some slug)
    (h : (db.categories.any fun c => coll.eq c.slug slug) = false) :
    (newsList coll db query).1
      = .error ⟨400, .validationFailed, "Unknown news category: " ++ slug, [], []⟩ := by
  simp only [newsList]
  simp [hc, Option.filter, h]

/-- A published post whose only text is its excerpt. -/
def excerptOnly (A : Type*) (categoryId : ℕ) (text : String) : Post A where
  id := 1
  slug := "post"
  titleAr := ""
  titleEn := none
  excerptAr := some text
  excerptEn := none
  categoryId := categoryId
  coverAsset := none
  publishedOn := none
  isFeatured := false
  isPublished := true

lemma matches_excerptOnly {q text : String} {categoryId : ℕ} (hq : q ≠ "") :
    (excerptOnly A categoryId text).matches coll q = contains coll q text := by
  simp [Post.matches, excerptOnly, contains_empty hq]

/-- One category and one post in it. -/
def onePost (A : Type*) (category : NewsCategory) (text : String) : Database A where
  categories := [category]
  posts := [excerptOnly A category.id text]

lemma length_newsRows_onePost {category : NewsCategory} {slug q : Option String} {text : String}
    (hslug : ∀ s, slug = some s → coll.eq category.slug s = true) (hq : ∀ s, q = some s → s ≠ "") :
    (newsRows coll (onePost A category text) slug q).length
      = if q.all (contains coll · text) then 1 else 0 := by
  have hcategory : slug.all (fun s => coll.eq category.slug s) = true := by
    cases slug with
    | none => rfl
    | some s => exact hslug s rfl
  have hmatches : q.all (Post.matches coll (excerptOnly A category.id text))
      = q.all (contains coll · text) := by
    cases q with
    | none => simp only [Option.all_none]
    | some q => simp only [Option.all_some, matches_excerptOnly (hq q rfl)]
  have hjoin : Database.categoryOf (onePost A category text) (excerptOnly A category.id text)
      = some category := by
    simp [Database.categoryOf, onePost, excerptOnly]
  have hpublished : (excerptOnly A category.id text).isPublished = true := rfl
  rw [newsRows, List.length_mergeSort]
  show (List.filter _ [excerptOnly A category.id text]).length = _
  rw [List.filter_singleton]
  simp only [hpublished, hjoin, Option.any_some, hcategory, hmatches, Bool.true_and]
  cases q.all (contains coll · text) <;> rfl

/-- A page of news is told from another by its number, its size and its total. -/
lemma newsList_known_inj {db : Database A} {query query₂ : Query}
    (hk : Known coll db (truthy (readString query "category")))
    (hk' : Known coll db (truthy (readString query₂ "category")))
    (h : (newsList coll db query).1 = (newsList coll db query₂).1) :
    (newsRows coll db (truthy (readString query "category"))
        (truthy (readString query "q"))).length
      = (newsRows coll db (truthy (readString query₂ "category"))
        (truthy (readString query₂ "q"))).length ∧
      readPage query = readPage query₂ ∧
      readLimit query newsPaging = readLimit query₂ newsPaging := by
  obtain ⟨data, hdata⟩ := newsList_known hk
  obtain ⟨data', hdata'⟩ := newsList_known hk'
  rw [hdata, hdata'] at h
  obtain ⟨-, htotal, hpage, hlimit⟩ := PagedResult.mk.inj (Except.ok.inj h)
  exact ⟨htotal, hpage, hlimit⟩

/-- Searches that count alike in every table have equal weights. -/
lemma weights_eq_of_contains {q q' : Option String} (hq : ∀ s, q = some s → s ≠ "")
    (hq' : ∀ s, q' = some s → s ≠ "")
    (h : ∀ text, q.all (contains coll · text) = q'.all (contains coll · text)) :
    q.map (weights coll) = q'.map (weights coll) := by
  cases q with
  | none =>
    cases q' with
    | none => rfl
    | some q' => simpa [contains_empty (hq' q' rfl)] using h ""
  | some q =>
    cases q' with
    | none => simpa [contains_empty (hq q rfl)] using h ""
    | some q' =>
      refine congrArg some (Lib.map_fold_eq_of_like fun text => ?_)
      simpa [contains, String.toList_append] using h (String.ofList text)

lemma newsList_congr {query query₂ : Query}
    (hcategory : truthy (readString query "category") = truthy (readString query₂ "category"))
    (hpage : readPage query = readPage query₂)
    (hlimit : readLimit query newsPaging = readLimit query₂ newsPaging)
    (hq : (truthy (readString query "q")).map (weights coll)
      = (truthy (readString query₂ "q")).map (weights coll)) (db : Database A) :
    (newsList coll db query).1 = (newsList coll db query₂).1 := by
  have hpaging : readPageLimit query newsPaging = readPageLimit query₂ newsPaging := by
    rw [readPageLimit, readPageLimit, hpage, hlimit]
  simp only [newsList]
  simp only [hcategory, hpaging, newsRows_congr hq]
  split
  · rfl
  · split <;> rfl

/-- Some category is found by every slug in `o`, if some category can have that slug. -/
lemma exists_category {o : Option String} (h : ∀ slug, o = some slug → Nameable coll slug) :
    ∃ category : NewsCategory, ∀ slug, o = some slug → coll.eq category.slug slug = true := by
  cases o with
  | none => exact ⟨⟨1, "", by decide, "", none, 0⟩, by simp⟩
  | some slug =>
    obtain ⟨c, hlength, hc⟩ := h slug rfl
    exact ⟨⟨1, c, hlength, "", none, 0⟩, by simpa using hc⟩

lemma news_category_eq {query query₂ : Query}
    (h : (newsList coll ({} : Database A) query).1 = (newsList coll ({} : Database A) query₂).1) :
    truthy (readString query "category") = truthy (readString query₂ "category") := by
  cases hc : truthy (readString query "category") with
  | none =>
    cases hc' : truthy (readString query₂ "category") with
    | none => rfl
    | some slug' =>
      obtain ⟨data, hdata⟩ := newsList_known (known_of_none hc)
      rw [hdata, newsList_unknown hc' rfl] at h
      cases h
  | some slug =>
    rw [newsList_unknown hc rfl] at h
    cases hc' : truthy (readString query₂ "category") with
    | none =>
      obtain ⟨data, hdata⟩ := newsList_known (known_of_none hc')
      rw [hdata] at h
      cases h
    | some slug' =>
      rw [newsList_unknown hc' rfl] at h
      simpa [String.append_right_inj] using h

lemma news_alike_iff {query query₂ : Query} :
    (∀ db : Database A, Route.outcome coll render db query .news
      = Route.outcome coll render db query₂ .news) ↔ Alike coll query query₂ .news := by
  constructor
  · intro h
    have h : ∀ db : Database A, (newsList coll db query).1 = (newsList coll db query₂).1 :=
      fun db => map_outcome_inj (fun _ _ => Body.news.inj) (h db)
    have hcategory := news_category_eq (h {})
    refine ⟨hcategory, ?_⟩
    by_cases hname : ∀ slug, truthy (readString query "category") = some slug → Nameable coll slug
    · obtain ⟨category, hslug⟩ := exists_category hname
      have hknown : ∀ text, Known coll (onePost A category text)
          (truthy (readString query "category")) := by
        intro text slug hs
        simp [onePost, hslug slug hs]
      have hall := fun text =>
        newsList_known_inj (hknown text) (hcategory ▸ hknown text) (h (onePost A category text))
      refine Or.inl ⟨(hall "").2.1, (hall "").2.2,
        weights_eq_of_contains (fun _ => truthy_eq_some) (fun _ => truthy_eq_some) fun text => ?_⟩
      have htotal := (hall text).1
      rw [length_newsRows_onePost hslug (fun _ => truthy_eq_some),
        length_newsRows_onePost (hcategory ▸ hslug) (fun _ => truthy_eq_some)] at htotal
      rw [Bool.eq_iff_iff]
      split_ifs at htotal with h₁ h₂ h₂ <;> simp_all
    · obtain ⟨slug, hslug⟩ := not_forall.mp hname
      exact Or.inr ⟨slug, Classical.not_imp.mp hslug⟩
  · rintro ⟨hcategory, ⟨hpage, hlimit, hq⟩ | ⟨slug, hslug, hname⟩⟩ db
    · simp only [Route.outcome, Route.handle, newsList_congr hcategory hpage hlimit hq db]
    · have hunknown : (db.categories.any fun c => coll.eq c.slug slug) = false := by
        rw [Bool.eq_false_iff, ne_eq, List.any_eq_true]
        rintro ⟨c, -, hc⟩
        exact hname ⟨c.slug, c.slug_length, hc⟩
      simp only [Route.outcome, Route.handle, newsList_unknown hslug hunknown,
        newsList_unknown (hcategory ▸ hslug) hunknown]

/-! ### All routes -/

/-- Queries that agree on every declared parameter are read alike. -/
lemma alike_of_eq {r : Route} {query query₂ : Query}
    (h : ∀ key ∈ r.keyParams, query key = query₂ key) : Alike coll query query₂ r := by
  cases r with
  | news =>
    have hread : ∀ key ∈ Route.keyParams .news, readString query key = readString query₂ key :=
      fun key hkey => by simp only [readString, h key hkey]
    simp only [Route.keyParams, List.mem_cons, List.not_mem_nil, or_false, forall_eq_or_imp,
      forall_eq] at hread
    obtain ⟨hpage, hlimit, hcategory, hq⟩ := hread
    exact ⟨by rw [hcategory], Or.inl ⟨by rw [readPage, readPage, hpage],
      by rw [readLimit, readLimit, hlimit], by rw [hq]⟩⟩
  | aboutItems => exact Or.inl (by rw [h "kind" (by simp [Route.keyParams])])
  | redirectsResolve => exact congrArg repeated (h "path" (by simp [Route.keyParams]))
  | partners => exact congrArg repeated (h "category" (by simp [Route.keyParams]))

/-- Queries with one key get one outcome in every database exactly when they are read alike. -/
lemma alike_iff {r : Route} {query query₂ : Query}
    (h : "&".intercalate (Cache.keyParts r.keyParams query)
      = "&".intercalate (Cache.keyParts r.keyParams query₂)) :
    (∀ db : Database A, r.outcome coll render db query = r.outcome coll render db query₂) ↔
      Alike coll query query₂ r := by
  cases r with
  | news => exact news_alike_iff
  | aboutItems => exact aboutItems_alike_iff (Cache.toText_eq_of_key h)
  | redirectsResolve => exact redirects_alike_iff (Cache.toText_eq_of_key h)
  | partners => exact partners_alike_iff (Cache.toText_eq_of_key h)

lemma keyParams_plain (r : Route) :
    r.keyParams.Nodup ∧ ∀ key ∈ r.keyParams, '&' ∉ key.toList ∧ '=' ∉ key.toList := by
  cases r <;> decide

/-- Without repeated parameters and without `&` in their texts, one key means one reading. -/
lemma alike_of_plain {r : Route} {query query₂ : Query} (hq : Cache.Plain r.keyParams query)
    (hq' : Cache.Plain r.keyParams query₂)
    (h : "&".intercalate (Cache.keyParts r.keyParams query)
      = "&".intercalate (Cache.keyParts r.keyParams query₂)) : Alike coll query query₂ r :=
  alike_of_eq (Cache.eq_of_plain (keyParams_plain r).1 (keyParams_plain r).2 hq hq' h)

end SafeerApi.Public
