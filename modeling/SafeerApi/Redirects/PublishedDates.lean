import SafeerApi.Redirects.Effects

/-!
# The dates of published posts (`crud.factory.ts`, `admin-news.controller.ts`)

The public feed orders posts by the date they were published on. A post that goes out without one is
dated on the way; an edit can take the date of a post that is out.
-/

namespace SafeerApi.Redirects.PublishedDates

open Common Crud Lib News

def PostDated (p : Post) : Prop := p.isPublished = true → p.publishedOn ≠ none

/-- Every published post has a date. -/
def Dated (db : Site) : Prop := ∀ p ∈ db.posts.rows, PostDated p

instance (p : Post) : Decidable (PostDated p) := inferInstanceAs (Decidable (_ → _))

instance (db : Site) : Decidable (Dated db) := inferInstanceAs (Decidable (∀ p ∈ _, _))

/-- A body takes the date of a post that is published and stays so. -/
def takesDate (before : Post) (body : UpdatePostDto) : Bool :=
  body.publishedOn = some none && before.isPublished && body.isPublished.getD true

/-- The request takes the date of no published post. -/
def keepsDates (env : NewsEnv) (db : Site) : PostRequest → Bool
  | .update _ id body =>
    match findPost env db.posts id with
    | .ok before => !takesDate before body
    | .error _ => true
  | _ => true

/-! ### What is about to be saved -/

lemma onPublish_dated (today : String) (p : Post) : (onPublish today p).publishedOn ≠ none := by
  simp only [onPublish]
  split_ifs with h
  · exact Option.some_ne_none today
  · intro hnone
    rw [hnone] at h
    exact h rfl

/-- A post that goes out is dated on the way. -/
lemma postDated_goesOut {before entity : Post} (today : String)
    (h : before.isPublished = true → entity.isPublished = true → entity.publishedOn ≠ none) :
    PostDated (if entity.isPublished && !before.isPublished then onPublish today entity
      else entity) := by
  split_ifs with hout
  · exact fun _ => onPublish_dated today entity
  · intro hpublished
    refine h ?_ hpublished
    simpa [hpublished] using hout

section Prepare

variable {env : NewsEnv} {posts : Posts} {assets : List MediaAsset} {today id : String}

lemma isoDate_eq {s t : String} (h : isoDate s = some t) : t = s := by
  simp only [isoDate] at h
  split at h
  · split_ifs at h
    exact (Option.some.inj h).symm
  · cases h

lemma optional_isoDate_eq {x y : Option (Option String)}
    (h : optional (optional isoDate) x = some y) : y = x := by
  match x with
  | none => exact (Option.some.inj h).symm
  | some none => exact (Option.some.inj h).symm
  | some (some s) =>
    simp only [Common.optional, Option.map_eq_some_iff] at h
    obtain ⟨_, ⟨t, ht, rfl⟩, rfl⟩ := h
    rw [isoDate_eq ht]

lemma updatePostSchema_publication {body dto : UpdatePostDto}
    (h : updatePostSchema body = some dto) :
    dto.publishedOn = body.publishedOn ∧ dto.isPublished = body.isPublished := by
  simp only [updatePostSchema, Option.bind_eq_bind, Option.bind_eq_some_iff] at h
  obtain ⟨_, -, _, -, _, -, _, -, _, -, publishedOn, hdate, slug, -, h⟩ := h
  obtain rfl := Option.some.inj h
  exact ⟨optional_isoDate_eq hdate, rfl⟩

lemma assign_publication {p entity : Post} {dto : UpdatePostDto}
    (h : p.assign env dto = .ok entity) :
    entity.publishedOn = dto.publishedOn.getD p.publishedOn ∧
      entity.isPublished = dto.isPublished.getD p.isPublished := by
  obtain ⟨categoryId, -, h⟩ := bind_eq_ok h
  obtain ⟨coverAssetId, -, h⟩ := bind_eq_ok h
  cases h
  exact ⟨rfl, rfl⟩

/-- What an update saves, as far as the publication goes. -/
lemma prepareUpdate_publication {body : UpdatePostDto} {before saved : Post}
    (h : prepareUpdate env posts assets today id body = .ok (before, saved)) :
    findPost env posts id = .ok before ∧ ∃ entity : Post,
      entity.publishedOn = body.publishedOn.getD before.publishedOn ∧
      entity.isPublished = body.isPublished.getD before.isPublished ∧
      saved = if entity.isPublished && !before.isPublished then onPublish today entity
        else entity := by
  obtain ⟨dto, hdto, h⟩ := bind_eq_ok h
  obtain ⟨-, -, h⟩ := bind_eq_ok h
  obtain ⟨-, -, h⟩ := bind_eq_ok h
  obtain ⟨before', hbefore, h⟩ := bind_eq_ok h
  obtain ⟨entity, hentity, h⟩ := bind_eq_ok h
  cases h
  obtain ⟨hdate, hpublished⟩ := updatePostSchema_publication (validated_ok hdto)
  obtain ⟨hdate', hpublished'⟩ := assign_publication hentity
  rw [hdate] at hdate'
  rw [hpublished] at hpublished'
  exact ⟨hbefore, entity, hdate', hpublished', rfl⟩

lemma takesDate_iff {before : Post} {body : UpdatePostDto} :
    takesDate before body = true ↔ body.publishedOn = some none ∧ before.isPublished = true ∧
      body.isPublished.getD true = true := by
  simp [takesDate, and_assoc]

/-- An update of a dated post leaves a dated one, unless it takes the date. -/
lemma postDated_prepareUpdate {body : UpdatePostDto} {before saved : Post}
    (h : prepareUpdate env posts assets today id body = .ok (before, saved))
    (hdated : PostDated before) : PostDated saved ↔ takesDate before body = false := by
  obtain ⟨-, entity, hdate, hpublished, rfl⟩ := prepareUpdate_publication h
  constructor
  · intro hsaved
    by_contra htakes
    rw [Bool.not_eq_false, takesDate_iff] at htakes
    obtain ⟨hnull, hbefore, hstays⟩ := htakes
    have hentity : entity.isPublished = true := by
      rw [hpublished, hbefore, hstays]
    rw [if_neg (by simp [hbefore])] at hsaved
    apply hsaved hentity
    rw [hdate, hnull]
    rfl
  · intro htakes
    apply postDated_goesOut
    intro hbefore hentity
    rw [hdate]
    cases hset : body.publishedOn with
    | none => exact hdated hbefore
    | some date =>
      rintro rfl
      rw [hpublished, hbefore] at hentity
      rw [takesDate_iff.mpr ⟨hset, hbefore, hentity⟩] at htakes
      cases htakes

lemma postDated_preparePublish {dto : PublishDto} {before saved : Post}
    (h : preparePublish env posts today id dto = .ok (before, saved)) (hdated : PostDated before) :
    PostDated saved := by
  obtain ⟨before', -, h⟩ := bind_eq_ok h
  cases h
  apply postDated_goesOut
  exact fun hbefore _ => hdated hbefore

lemma postDated_prepareCreate {now : ℕ} {body : CreatePostDto} {draft : Post}
    (h : prepareCreate env posts assets now today body = .ok draft) : PostDated draft := by
  obtain ⟨dto, -, h⟩ := bind_eq_ok h
  obtain ⟨-, -, h⟩ := bind_eq_ok h
  obtain ⟨draft', -, h⟩ := bind_eq_ok h
  cases h
  split_ifs with hout
  · exact fun _ => onPublish_dated today draft'
  · exact fun hpublished => absurd hpublished hout

end Prepare

/-! ### One request -/

section Requests

variable {env : NewsEnv} {db db' : Site}

/-- A row that takes the place of another decides whether all posts stay dated. -/
lemma dated_saved {before entity : Post} (hdated : Dated db) (h : Saved db before entity db') :
    Dated db' ↔ PostDated entity := by
  constructor
  · intro hdated'
    exact hdated' entity ((h.posts entity).mpr (Or.inl rfl))
  · intro hentity p hp
    rcases (h.posts p).mp hp with rfl | ⟨hp, -⟩
    · exact hentity
    · exact hdated p hp

lemma dated_createPost {now : ℕ} {today : String} {body : CreatePostDto} {saved : SavedPost}
    (hdated : Dated db) (h : createPost env db now today body = .ok (saved, db')) : Dated db' := by
  obtain ⟨draft, hdraft, h⟩ := bind_eq_ok h
  obtain ⟨⟨p, db₁⟩, hinsert, h⟩ := bind_eq_ok h
  obtain ⟨posts, hposts, hinsert⟩ := bind_eq_ok hinsert
  have hposts := executed_ok hposts
  split_ifs at hposts
  cases hinsert
  cases h
  intro p hp
  rcases (UniqueTable.mem_insert hposts).mp hp with hp | rfl
  · exact hdated p hp
  · have hpost : PostDated draft := postDated_prepareCreate hdraft
    exact hpost

/-- An accepted request leaves every published post dated, unless it takes the date of one. -/
lemma dated_iff {r : PostRequest} (hdated : Dated db) (h : r.handle env db = .ok db') :
    Dated db' ↔ keepsDates env db r = true := by
  have hremoved : ∀ db' : Site, (∀ p ∈ db'.posts.rows, p ∈ db.posts.rows) → Dated db' :=
    fun _ hposts p hp => hdated p (hposts p hp)
  cases r with
  | create now today body =>
    obtain ⟨saved, h⟩ := map_snd_ok h
    exact iff_of_true (dated_createPost hdated h) rfl
  | update today id body =>
    obtain ⟨saved, h⟩ := map_snd_ok h
    obtain ⟨before, entity, hprepared, hsaved⟩ := updatePost_ok h
    have hbefore : PostDated before := hdated before hsaved.mem
    rw [dated_saved hdated hsaved, postDated_prepareUpdate hprepared hbefore, keepsDates,
      (prepareUpdate_publication hprepared).1, Bool.not_eq_true']
  | publish today id dto =>
    obtain ⟨saved, h⟩ := map_snd_ok h
    obtain ⟨before, entity, hprepared, hsaved⟩ := publishPost_ok h
    have hbefore : PostDated before := hdated before hsaved.mem
    exact iff_of_true ((dated_saved hdated hsaved).mpr
      (postDated_preparePublish hprepared hbefore)) rfl
  | remove id =>
    obtain ⟨p, -, h⟩ := bind_eq_ok h
    cases h
    exact iff_of_true (hremoved _ fun x hx => (UniqueTable.mem_deleteWhere.mp hx).1) rfl
  | removeLegacy =>
    cases h
    exact iff_of_true (hremoved _ fun x hx => (UniqueTable.mem_deleteWhere.mp hx).1) rfl
  | elsewhere categories assets =>
    cases h
    exact iff_of_true (hremoved _ fun x hx => hx) rfl

end Requests

/-! ### Every run -/

def step (env : NewsEnv) (db : Site) (r : PostRequest) : Option Site :=
  some (settle db (r.handle env db))

lemma dated_step {env : NewsEnv} {db db' : Site} {r : PostRequest} (hdated : Dated db)
    (hkeeps : keepsDates env db r = true) (hs : step env db r = some db') : Dated db' := by
  cases hs
  cases hhandle : r.handle env db with
  | error e => exact hdated
  | ok db' => exact (dated_iff hdated hhandle).mpr hkeeps

/-- Published posts stay dated in every run that takes the date of none. -/
theorem published_dated {env : NewsEnv} {s₀ s : Site} (hinit : Dated s₀)
    (h : Reach (step env) (fun db r => keepsDates env db r = true) s₀ s) :
    ∀ p ∈ s.posts.rows, p.isPublished = true → p.publishedOn ≠ none :=
  h.invariant (P := Dated) hinit fun _ _ _ hdated hkeeps hs => dated_step hdated hkeeps hs

/-- A post goes out, is renamed, comes in without its date and goes out again. -/
def outAndIn : List PostRequest :=
  [.create 0 "2024-01-01" { titleAr := "a", categoryId := "1", isPublished := some true },
    .update "2024-01-02" "1" { slug := some "b" },
    .update "2024-01-03" "1" { publishedOn := some none, isPublished := some false },
    .publish "2024-01-04" "1" ⟨none⟩]

theorem published_dated_outAndIn : ∃ s : Site,
    s.posts.rows.map (fun p => (p.isPublished, p.publishedOn)) = [(true, some "2024-01-04")] ∧
    ∀ p ∈ s.posts.rows, p.isPublished = true → p.publishedOn ≠ none := by
  obtain ⟨s, hrun, hrows⟩ := exists_of_run (guarded (step ascii) (keepsDates ascii)) emptySite
    outAndIn
    (P := fun s => s.posts.rows.map (fun p => (p.isPublished, p.publishedOn))
      = [(true, some "2024-01-04")])
    (by decide +kernel)
  exact ⟨s, hrows, published_dated (by decide) (Reach.of_guarded hrun)⟩

/-- The date of a published post is set to null. -/
def dateTaken : List PostRequest :=
  [.create 0 "2024-01-01" { titleAr := "a", categoryId := "1", isPublished := some true },
    .update "2024-01-02" "1" { publishedOn := some none }]

theorem published_undated : ∃ s : Site, Reach (step ascii) always emptySite s ∧
    ∃ p ∈ s.posts.rows, p.isPublished = true ∧ p.publishedOn = none := by
  obtain ⟨s, hrun, hrows⟩ := exists_of_run (step ascii) emptySite dateTaken
    (P := fun s => ∃ p ∈ s.posts.rows, p.isPublished = true ∧ p.publishedOn = none)
    (by decide +kernel)
  exact ⟨s, Reach.of_run hrun, hrows⟩

end SafeerApi.Redirects.PublishedDates
