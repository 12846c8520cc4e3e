import SafeerApi.Redirects.Redirects

/-!
# What the requests write

Each accepted request is summed up by what it does to the posts and to the map from paths to their
redirects.
-/

namespace SafeerApi.Redirects

open Common Crud Lib News Public

/-- Where a path is redirected. -/
def target (redirects : RedirectTable) (path : String) : Option String :=
  (redirects.lookup path).map (·.toPath)

lemma target_of_mem {redirects : RedirectTable} {r : Redirect} (h : r ∈ redirects.rows) :
    target redirects r.fromPath = some r.toPath := by
  simp [target, UniqueTable.lookup_of_mem h]

lemma target_eq_some {redirects : RedirectTable} {path dest : String} :
    target redirects path = some dest ↔
      ∃ r ∈ redirects.rows, r.fromPath = path ∧ r.toPath = dest := by
  simp only [target, Option.map_eq_some_iff, UniqueTable.lookup_eq_some]
  constructor
  · rintro ⟨r, ⟨hr, hfrom⟩, hto⟩
    exact ⟨r, hr, hfrom, hto⟩
  · rintro ⟨r, hr, hfrom, hto⟩
    exact ⟨r, ⟨hr, hfrom⟩, hto⟩

/-! ### Statements -/

lemma target_clearRedirectsInto (redirects : RedirectTable) (path : String) :
    target (clearRedirectsInto redirects path) = settled (target redirects) path := by
  funext x
  apply Option.ext
  intro y
  simp only [settled_eq_some, target_eq_some, clearRedirectsInto, UniqueTable.mem_deleteWhere]
  constructor
  · rintro ⟨r, ⟨hr, hkept⟩, rfl, rfl⟩
    simp only [Bool.or_eq_false_iff, decide_eq_false_iff_not] at hkept
    exact ⟨hkept.1, ⟨r, hr, rfl, rfl⟩, fun h => hkept.2 h.symm⟩
  · rintro ⟨hpath, ⟨r, hr, rfl, rfl⟩, hne⟩
    refine ⟨r, ⟨hr, ?_⟩, rfl, rfl⟩
    simp [hpath, hne.symm]

lemma target_repoint (redirects : RedirectTable) (toPath fromPath : String) :
    target (repoint redirects toPath fromPath)
      = fun x => (target redirects x).map fun y => if y = fromPath then toPath else y := by
  funext x
  simp only [target, repoint, UniqueTable.lookup_updateWhere, Option.map_map]
  apply Option.map_congr
  intro r _
  simp only [Function.comp_apply, decide_eq_true_eq]
  split <;> rfl

lemma target_deleteFrom_of_ne {redirects : RedirectTable} {fromPath x : String}
    (hx : x ≠ fromPath) : target (deleteFrom redirects fromPath) x = target redirects x := by
  apply Option.ext
  intro y
  simp only [target_eq_some, deleteFrom, UniqueTable.mem_deleteWhere, decide_eq_false_iff_not]
  constructor
  · rintro ⟨r, ⟨hr, -⟩, hfrom, hto⟩
    exact ⟨r, hr, hfrom, hto⟩
  · rintro ⟨r, hr, hfrom, hto⟩
    exact ⟨r, ⟨hr, by rw [hfrom]; exact hx⟩, hfrom, hto⟩

lemma target_insert {redirects redirects' : RedirectTable} {row : Redirect}
    (h : redirects.insert row = some redirects') :
    target redirects' = Function.update (target redirects) row.fromPath (some row.toPath) := by
  funext x
  simp only [target, UniqueTable.lookup_insert h, Function.update_apply]
  split_ifs <;> rfl

lemma target_insertRedirect {db db' : Site} {fromPath toPath : String} {statusCode : ℕ}
    {row : Redirect} (h : insertRedirect db fromPath toPath statusCode = .ok (row, db')) :
    target db'.redirects = Function.update (target db.redirects) fromPath (some toPath) ∧
      db'.posts = db.posts ∧ db'.nextPostId = db.nextPostId := by
  obtain ⟨redirects, hinsert, h⟩ := bind_eq_ok h
  cases h
  exact ⟨target_insert (executed_ok hinsert), rfl, rfl⟩

lemma target_recordRedirect {db db' : Site} {fromPath toPath : String}
    (h : recordRedirect db fromPath toPath = .ok db') :
    target db'.redirects = Function.update
      (fun x => (target db.redirects x).map fun y => if y = fromPath then toPath else y)
      fromPath (some toPath) ∧ db'.posts = db.posts ∧ db'.nextPostId = db.nextPostId := by
  obtain ⟨⟨row, db₁⟩, hinsert, h⟩ := bind_eq_ok h
  cases h
  obtain ⟨htarget, hposts, hnext⟩ := target_insertRedirect hinsert
  refine ⟨?_, hposts, hnext⟩
  rw [htarget]
  funext x
  simp only [Function.update_apply]
  split_ifs with hx
  · rfl
  · exact (target_deleteFrom_of_ne hx).trans (congrFun (target_repoint _ _ _) x)

/-! ### Saving a post -/

def postPath (p : Post) : String := "/news/" ++ p.slug

lemma redirectFrom_of_ne {p : Post} (h : p.slug ≠ "") : redirectFrom p = some (postPath p) :=
  if_neg h

lemma postPath_inj {p q : Post} : postPath p = postPath q ↔ p.slug = q.slug := by
  simp [postPath]

/-- What a save does to the redirects. -/
inductive Moves (f : String → Option String) (before entity : Post) :
    (String → Option String) → Prop where
  | stays (h : entity.slug = before.slug) : Moves f before entity f
  | noSlug (h : before.slug = "" ∨ entity.slug = "") : Moves f before entity f
  | published (h : before.isPublished = true) (hne : entity.slug ≠ before.slug) :
      Moves f before entity (moved f (postPath before) (postPath entity))
  | unpublished (h : before.isPublished = false) (hne : entity.slug ≠ before.slug) :
      Moves f before entity (settled f (postPath entity))

/-- `entity` takes the place of `before`. -/
structure Saved (db : Site) (before entity : Post) (db' : Site) : Prop where
  mem : before ∈ db.posts.rows
  id : entity.id = before.id
  posts : ∀ p, p ∈ db'.posts.rows ↔ p = entity ∨ (p ∈ db.posts.rows ∧ p.id ≠ before.id)
  next : db'.nextPostId = db.nextPostId
  moves : Moves (target db.redirects) before entity (target db'.redirects)

section Save

variable {db db' : Site} {before entity : Post}

lemma savePost_ok (hmem : before ∈ db.posts.rows) (hid : entity.id = before.id)
    (h : savePost db before entity = .ok db') :
    (∀ p, p ∈ db'.posts.rows ↔ p = entity ∨ (p ∈ db.posts.rows ∧ p.id ≠ before.id)) ∧
      db'.nextPostId = db.nextPostId ∧ db'.redirects = db.redirects := by
  obtain ⟨posts, hposts, h⟩ := bind_eq_ok h
  cases h
  have hposts := executed_ok hposts
  split_ifs at hposts
  refine ⟨?_, rfl, rfl⟩
  intro p
  rw [UniqueTable.mem_replace hposts, hid]
  simp only [and_iff_left_iff_imp.mpr fun _ => (⟨before, hmem, rfl⟩ : ∃ r ∈ db.posts.rows,
    r.id = before.id)]

/-- A save that leaves the redirects alone. -/
lemma Saved.of_savePost (hmem : before ∈ db.posts.rows) (hid : entity.id = before.id)
    (h : savePost db before entity = .ok db')
    (hmoves : Moves (target db.redirects) before entity (target db.redirects)) :
    Saved db before entity db' := by
  obtain ⟨hposts, hnext, hredirects⟩ := savePost_ok hmem hid h
  exact ⟨hmem, hid, hposts, hnext, by rw [hredirects]; exact hmoves⟩

lemma saveWithRedirect_ok (hmem : before ∈ db.posts.rows) (hid : entity.id = before.id)
    (h : saveWithRedirect db before entity = .ok db') : Saved db before entity db' := by
  simp only [saveWithRedirect] at h
  split_ifs at h with hslugs
  · apply Saved.of_savePost hmem hid h
    rcases hslugs with hslug | hslug | hslug
    · exact .noSlug (Or.inl hslug)
    · exact .noSlug (Or.inr hslug)
    · exact .stays hslug.symm
  · push Not at hslugs
    obtain ⟨hbefore, hentity, hne⟩ := hslugs
    simp only [redirectFrom_of_ne hentity] at h
    obtain ⟨db₁, hsave, h⟩ := bind_eq_ok h
    obtain ⟨db₂, hrecord, h⟩ := bind_eq_ok h
    cases h
    obtain ⟨hposts, hnext, hredirects⟩ := savePost_ok hmem hid hsave
    have hpath : postPath before ≠ postPath entity := by
      rw [ne_eq, postPath_inj]
      exact hne
    simp only [leaveRedirect, redirectFrom_of_ne hbefore] at hrecord
    split_ifs at hrecord with hpublished
    · obtain ⟨htarget, hposts₂, hnext₂⟩ := target_recordRedirect hrecord
      refine ⟨hmem, hid, ?_, by rw [hnext₂, hnext], ?_⟩
      · rw [hposts₂]
        exact hposts
      · rw [target_clearRedirectsInto, htarget, hredirects]
        exact .published hpublished.1 hne.symm
    · cases hrecord
      refine ⟨hmem, hid, hposts, hnext, ?_⟩
      rw [target_clearRedirectsInto, hredirects]
      apply Moves.unpublished _ hne.symm
      by_contra h
      exact hpublished ⟨Bool.eq_true_of_not_eq_false h, hpath⟩

end Save

/-! ### Requests -/

/-- The row a request has found, and what it is about to save in its place. -/
def PostRequest.prepared (env : NewsEnv) (db : Site) : PostRequest → Except Refusal (Post × Post)
  | .update today id body => prepareUpdate env db.posts db.assets today id body
  | .publish today id dto => preparePublish env db.posts today id dto
  | _ => .error (.problem notFound)

/-- What an accepted request about posts does. -/
inductive PostEffect (env : NewsEnv) (db : Site) (r : PostRequest) (db' : Site) : Prop where
  | created (p : Post) (hid : p.id = db.nextPostId) (hnext : db'.nextPostId = db.nextPostId + 1)
      (hslug : p.slug ≠ "") (hposts : ∀ x, x ∈ db'.posts.rows ↔ x ∈ db.posts.rows ∨ x = p)
      (htarget : target db'.redirects = settled (target db.redirects) (postPath p))
  | saved {before entity : Post} (hprepared : r.prepared env db = .ok (before, entity))
      (hslug : before.slug ≠ "" → entity.slug ≠ "") (hsaved : Saved db before entity db')
  | removed (hnext : db'.nextPostId = db.nextPostId)
      (hposts : ∀ x ∈ db'.posts.rows, x ∈ db.posts.rows) (hredirects : db'.redirects = db.redirects)

lemma map_snd_ok {α β : Type*} {x : Except Refusal (α × β)} {b : β}
    (h : x.map Prod.snd = .ok b) : ∃ a, x = .ok (a, b) := by
  cases x with
  | error e => cases h
  | ok x =>
    cases h
    exact ⟨x.1, rfl⟩

lemma created_ok {env : NewsEnv} {db db' : Site} {r : PostRequest} {now : ℕ} {today : String}
    {body : CreatePostDto} {saved : SavedPost}
    (h : createPost env db now today body = .ok (saved, db')) : PostEffect env db r db' := by
  obtain ⟨draft, hdraft, h⟩ := bind_eq_ok h
  obtain ⟨⟨p, db₁⟩, hinsert, h⟩ := bind_eq_ok h
  obtain ⟨posts, hposts, hinsert⟩ := bind_eq_ok hinsert
  have hposts := executed_ok hposts
  split_ifs at hposts
  have hslug : draft.slug ≠ "" := prepareCreate_ok hdraft
  cases hinsert
  cases h
  apply PostEffect.created { draft with id := db.nextPostId } rfl rfl hslug
  · intro x
    exact UniqueTable.mem_insert hposts
  · simp only [redirectFrom, if_neg hslug]
    exact target_clearRedirectsInto _ _

/-- What an accepted edit saves takes the place of the row it has found. -/
lemma updatePost_ok {env : NewsEnv} {db db' : Site} {today id : String} {body : UpdatePostDto}
    {saved : SavedPost} (h : updatePost env db today id body = .ok (saved, db')) :
    ∃ before entity, prepareUpdate env db.posts db.assets today id body = .ok (before, entity) ∧
      Saved db before entity db' := by
  obtain ⟨⟨before, entity⟩, hprepared, h⟩ := bind_eq_ok h
  obtain ⟨db₁, hsave, h⟩ := bind_eq_ok h
  cases h
  obtain ⟨hmem, hid, -⟩ := prepareUpdate_ok hprepared
  exact ⟨before, entity, hprepared, saveWithRedirect_ok hmem hid hsave⟩

lemma publishPost_ok {env : NewsEnv} {db db' : Site} {today id : String} {dto : PublishDto}
    {saved : SavedPost} (h : publishPost env db today id dto = .ok (saved, db')) :
    ∃ before entity, preparePublish env db.posts today id dto = .ok (before, entity) ∧
      Saved db before entity db' := by
  obtain ⟨⟨before, entity⟩, hprepared, h⟩ := bind_eq_ok h
  obtain ⟨db₁, hsave, h⟩ := bind_eq_ok h
  cases h
  obtain ⟨hmem, hid, hslug⟩ := preparePublish_ok hprepared
  exact ⟨before, entity, hprepared, .of_savePost hmem hid hsave (.stays hslug)⟩

/-- Every accepted request about posts is one of these. -/
theorem effect_of_handle {env : NewsEnv} {db db' : Site} {r : PostRequest}
    (h : r.handle env db = .ok db') : PostEffect env db r db' := by
  cases r with
  | create now today body =>
    obtain ⟨saved, h⟩ := map_snd_ok h
    exact created_ok h
  | update today id body =>
    obtain ⟨saved, h⟩ := map_snd_ok h
    obtain ⟨before, entity, hprepared, hsaved⟩ := updatePost_ok h
    exact .saved hprepared (prepareUpdate_ok hprepared).2.2 hsaved
  | publish today id dto =>
    obtain ⟨saved, h⟩ := map_snd_ok h
    obtain ⟨before, entity, hprepared, hsaved⟩ := publishPost_ok h
    obtain ⟨-, -, hslug⟩ := preparePublish_ok hprepared
    have hkept : before.slug ≠ "" → entity.slug ≠ "" := by
      rw [hslug]
      exact fun hne => hne
    exact .saved hprepared hkept hsaved
  | remove id =>
    obtain ⟨p, -, h⟩ := bind_eq_ok h
    cases h
    exact .removed rfl (fun x hx => (UniqueTable.mem_deleteWhere.mp hx).1) rfl
  | removeLegacy =>
    cases h
    exact .removed rfl (fun x hx => (UniqueTable.mem_deleteWhere.mp hx).1) rfl
  | elsewhere categories assets =>
    cases h
    exact .removed rfl (fun x hx => hx) rfl

/-! ### Resolving -/

/-- `GET /redirects/resolve`; paths are compared as texts. -/
def resolvePath (db : Site) (query : Query) : Except Problem Resolved :=
  resolve .binary ({ redirects := db.redirects.rows } : Database Unit) query

/-- What is resolved is redirected. -/
lemma resolvePath_ok {db : Site} {query : Query} {dest : Resolved}
    (h : resolvePath db query = .ok dest) :
    ∃ path, readString query "path" = some path ∧
      target db.redirects path = some dest.toPath := by
  simp only [resolvePath, resolve] at h
  split at h
  · cases h
  · next path hpath =>
    split at h
    · cases h
    · next row hrow =>
      cases h
      refine ⟨path, eq_some_of_truthy hpath, ?_⟩
      rw [target_eq_some]
      have hfrom : row.fromPath = path := by
        simpa [Collation.binary] using List.find?_some hrow
      exact ⟨row, List.mem_of_find?_eq_some hrow, hfrom, rfl⟩

/-- What is redirected is resolved. -/
lemma resolvePath_of_target {db : Site} {query : Query} {path dest : String}
    (hquery : readString query "path" = some path) (hne : path ≠ "")
    (h : target db.redirects path = some dest) :
    ∃ statusCode, resolvePath db query = .ok ⟨dest, statusCode⟩ := by
  obtain ⟨row, hlookup, rfl⟩ := Option.map_eq_some_iff.mp h
  have hfind : db.redirects.rows.find? (fun row => Collation.binary.eq row.fromPath path)
      = some row := hlookup
  refine ⟨row.statusCode, ?_⟩
  simp only [resolvePath, resolve, hquery, truthy_some hne, hfind]

/-- Texts are lower-case ASCII. -/
def ascii : NewsEnv where
  sql := .decimal
  storedId := SqlNumeric.decimal.rowId
  tables := ⟨id, id⟩

def emptySite : Site := ⟨.empty, .empty, 1, 1, [1], []⟩

end SafeerApi.Redirects
