import SafeerApi.Redirects.Effects

/-!
# No public post URL is lost

A post that is renamed while it is public leaves a redirect at its old path. A post that is renamed
after it was withdrawn leaves none: what it was once served at is kept as long as that is where the
rename leads back to.
-/

namespace SafeerApi.Redirects.ServedPaths

open Common Crud Lib News Public

/-! ### Histories -/

/-- The tables and what they have been, the newest first. -/
structure History where
  db : Site
  past : List Site

def History.states (h : History) : List Site := h.db :: h.past

def step (env : NewsEnv) (h : History) (r : PostRequest) : Option History :=
  some ⟨settle h.db (r.handle env h.db), h.states⟩

/-- Post `id` is public at `path`. -/
def isServed (db : Site) (id : ℕ) (path : String) : Bool :=
  db.posts.rows.any fun p => p.id = id && p.isPublished && redirectFrom p = some path

/-- Another post than `id` has `path`. -/
def isTaken (db : Site) (id : ℕ) (path : String) : Bool :=
  db.posts.rows.any fun p => p.id ≠ id && redirectFrom p = some path

/-- Post `id` was public at `path`, which no other post has had since. -/
def owes : List Site → ℕ → String → Bool
  | [], _, _ => false
  | db :: past, id, path => !isTaken db id path && (isServed db id path || owes past id path)

/-- Each post that is public now is found from every path it was public at, other posts' paths
aside. -/
def UrlsKept (h : History) : Prop :=
  ∀ later earlier older p q path, h.states = later ++ earlier :: older →
    p ∈ h.db.posts.rows → p.isPublished = true →
    q ∈ earlier.posts.rows → q.id = p.id → q.isPublished = true → redirectFrom q = some path →
    redirectFrom p = some path ∨
      (∃ db ∈ later, ∃ x ∈ db.posts.rows, x.id ≠ p.id ∧ redirectFrom x = some path) ∨
      ∀ query, readString query "path" = some path →
        ∃ dest statusCode, resolvePath h.db query = .ok ⟨dest, statusCode⟩ ∧
          redirectFrom p = some dest

/-- The paths posts have had. -/
def paths (states : List Site) : List String :=
  states.flatMap fun db => db.posts.rows.filterMap redirectFrom

/-- A save that moves a post while it is not public leads to the only path it owes, if it owes
one. -/
def keepsPaths (env : NewsEnv) (h : History) (r : PostRequest) : Bool :=
  match r.prepared env h.db with
  | .error _ => true
  | .ok (before, entity) =>
    before.isPublished || entity.slug = before.slug ||
      (paths h.states).all fun path =>
        !owes h.states before.id path || redirectFrom entity = some path

/-! ### What is owed -/

section Owes

variable {db : Site} {past states : List Site} {id : ℕ} {path : String}

lemma isServed_iff : isServed db id path = true ↔
    ∃ p ∈ db.posts.rows, p.id = id ∧ p.isPublished = true ∧ redirectFrom p = some path := by
  simp [isServed, and_assoc]

lemma isTaken_iff : isTaken db id path = true ↔
    ∃ p ∈ db.posts.rows, p.id ≠ id ∧ redirectFrom p = some path := by
  simp [isTaken]

lemma owes_cons : owes (db :: past) id path = true ↔
    isTaken db id path = false ∧ (isServed db id path = true ∨ owes past id path = true) := by
  simp [owes]

lemma mem_paths_of_owes (h : owes states id path = true) : path ∈ paths states := by
  induction states with
  | nil => cases h
  | cons db past ih =>
    simp only [paths, List.flatMap_cons, List.mem_append, List.mem_filterMap]
    rcases (owes_cons.mp h).2 with hserved | hpast
    · obtain ⟨p, hp, -, -, hpath⟩ := isServed_iff.mp hserved
      exact Or.inl ⟨p, hp, hpath⟩
    · exact Or.inr (ih hpast)

/-- What was served and has not been taken since is owed. -/
lemma owes_of_served {later older : List Site} {earlier : Site}
    (hserved : isServed earlier id path = true) (hearlier : isTaken earlier id path = false)
    (hlater : ∀ db ∈ later, isTaken db id path = false) :
    owes (later ++ earlier :: older) id path = true := by
  induction later with
  | nil => exact owes_cons.mpr ⟨hearlier, Or.inl hserved⟩
  | cons db later ih =>
    rw [List.cons_append, owes_cons]
    exact ⟨hlater db (by simp), Or.inr (ih fun db hdb => hlater db (by simp [hdb]))⟩

end Owes

/-! ### The invariant -/

/-- A public path is not another post's. -/
lemma eq_of_redirectFrom {db : Site} {p q : Post} {path : String} (hp : p ∈ db.posts.rows)
    (hq : q ∈ db.posts.rows) (hpath : redirectFrom p = some path)
    (hpath' : redirectFrom q = some path) : p = q := by
  simp only [redirectFrom] at hpath hpath'
  split_ifs at hpath with hne
  split_ifs at hpath' with hne'
  apply UniqueTable.eq_of_unique hp hq
  simpa using hpath.trans hpath'.symm

/-- Each path a post owes leads to the post. -/
structure Inv (h : History) : Prop where
  slug : ∀ p ∈ h.db.posts.rows, p.slug ≠ ""
  id : ∀ p ∈ h.db.posts.rows, p.id < h.db.nextPostId
  owed : ∀ id path, owes h.states id path = true → id < h.db.nextPostId
  leads : ∀ p ∈ h.db.posts.rows, ∀ path, owes h.states p.id path = true →
    Leads (target h.db.redirects) path (postPath p)

section Step

variable {env : NewsEnv} {h : History} {db' : Site}

/-- One step keeps the invariant when it keeps the slugs and the ids, and what was owed and has not
been taken leads where it should. -/
lemma Inv.snoc (hi : Inv h) (hslug : ∀ p ∈ db'.posts.rows, p.slug ≠ "")
    (hid : ∀ p ∈ db'.posts.rows, p.id < db'.nextPostId) (hnext : h.db.nextPostId ≤ db'.nextPostId)
    (hleads : ∀ p ∈ db'.posts.rows, ∀ path, isTaken db' p.id path = false →
      owes h.states p.id path = true → Leads (target db'.redirects) path (postPath p)) :
    Inv ⟨db', h.states⟩ := by
  refine ⟨hslug, hid, ?_, ?_⟩
  · intro id path howes
    rcases (owes_cons.mp howes).2 with hserved | hpast
    · obtain ⟨p, hp, rfl, -⟩ := isServed_iff.mp hserved
      exact hid p hp
    · exact lt_of_lt_of_le (hi.owed id path hpast) hnext
  · intro p hp path howes
    obtain ⟨htaken, hserved | hpast⟩ := owes_cons.mp howes
    · obtain ⟨q, hq, hqid, -, hpath⟩ := isServed_iff.mp hserved
      obtain rfl := Table.eq_of_key hq hp hqid
      rw [redirectFrom_of_ne (hslug q hp)] at hpath
      exact Or.inl (Option.some.inj hpath).symm
    · exact hleads p hp path htaken hpast

/-- Who has a path is not owed it by another. -/
lemma ne_postPath_of_not_taken {db : Site} {id : ℕ} {path : String}
    (h : isTaken db id path = false) {p : Post} (hp : p ∈ db.posts.rows) (hne : p.id ≠ id)
    (hslug : p.slug ≠ "") : path ≠ postPath p := by
  rintro rfl
  have htaken : isTaken db id (postPath p) = true :=
    isTaken_iff.mpr ⟨p, hp, hne, redirectFrom_of_ne hslug⟩
  rw [htaken] at h
  cases h

/-- The post that is saved takes what it owes along. -/
lemma leads_saved {before entity : Post} (hi : Inv h) (hsaved : Saved h.db before entity db')
    (hslug : entity.slug ≠ "")
    (hkeeps : before.isPublished = true ∨ entity.slug = before.slug ∨
      ∀ path, owes h.states before.id path = true → redirectFrom entity = some path)
    {path : String} (howes : owes h.states before.id path = true) :
    Leads (target db'.redirects) path (postPath entity) := by
  have hleads := hi.leads before hsaved.mem path howes
  have hpath : entity.slug = before.slug → postPath before = postPath entity :=
    fun heq => postPath_inj.mpr heq.symm
  have hmoves := hsaved.moves
  generalize target db'.redirects = f' at hmoves ⊢
  cases hmoves with
  | stays heq =>
    rw [← hpath heq]
    exact hleads
  | noSlug hempty => exact absurd hempty (by simp [hi.slug before hsaved.mem, hslug])
  | published _ _ => exact hleads.moved _
  | unpublished hpublished hne =>
    rcases hkeeps with hkeeps | hkeeps | hkeeps
    · rw [hpublished] at hkeeps
      cases hkeeps
    · exact absurd hkeeps hne
    · have hentity := hkeeps path howes
      rw [redirectFrom_of_ne hslug] at hentity
      exact Or.inl (Option.some.inj hentity).symm

/-- The posts beside it keep what they owe. -/
lemma leads_beside {before entity p : Post} (hi : Inv h) (hsaved : Saved h.db before entity db')
    (hslug : entity.slug ≠ "") (hp : p ∈ h.db.posts.rows) (hne : p.id ≠ before.id) {path : String}
    (htaken : isTaken db' p.id path = false) (howes : owes h.states p.id path = true) :
    Leads (target db'.redirects) path (postPath p) := by
  have hleads := hi.leads p hp path howes
  have hentity : path ≠ postPath entity := by
    apply ne_postPath_of_not_taken htaken ((hsaved.posts entity).mpr (Or.inl rfl)) _ hslug
    rw [hsaved.id]
    exact hne.symm
  have hbefore : path ≠ postPath before :=
    ne_postPath_of_not_taken (owes_cons.mp howes).1 hsaved.mem hne.symm (hi.slug _ hsaved.mem)
  have hpath : postPath p ≠ postPath before := by
    intro heq
    exact hne (by rw [UniqueTable.eq_of_unique hp hsaved.mem (postPath_inj.mp heq)])
  have hmoves := hsaved.moves
  generalize target db'.redirects = f' at hmoves ⊢
  cases hmoves with
  | stays => exact hleads
  | noSlug => exact hleads
  | published => exact hleads.moved_of_ne hbefore hentity hpath
  | unpublished => exact hleads.settled hentity

/-- Every accepted request that meets the condition keeps the invariant. -/
lemma Inv.handle {r : PostRequest} (hi : Inv h) (hok : keepsPaths env h r = true)
    (hhandle : r.handle env h.db = .ok db') : Inv ⟨db', h.states⟩ := by
  cases effect_of_handle hhandle with
  | created p hid hnext hslug hposts htarget =>
    have hfresh : ∀ x ∈ h.db.posts.rows, x.id ≠ p.id := by
      intro x hx
      rw [hid]
      exact Nat.ne_of_lt (hi.id x hx)
    apply hi.snoc
    · intro x hx
      rcases (hposts x).mp hx with hx | rfl
      · exact hi.slug x hx
      · exact hslug
    · intro x hx
      rw [hnext]
      rcases (hposts x).mp hx with hx | rfl
      · exact Nat.lt_succ_of_lt (hi.id x hx)
      · rw [hid]
        exact Nat.lt_succ_self _
    · rw [hnext]
      exact Nat.le_succ _
    · intro x hx path htaken howes
      rcases (hposts x).mp hx with hold | rfl
      · rw [htarget]
        apply (hi.leads x hold path howes).settled
        exact ne_postPath_of_not_taken htaken ((hposts p).mpr (Or.inr rfl)) (hfresh x hold).symm hslug
      · have hlt := hi.owed _ _ howes
        rw [hid] at hlt
        exact absurd hlt (lt_irrefl _)
  | @saved before entity hprepared hkept hsaved =>
    have hslug : entity.slug ≠ "" := hkept (hi.slug before hsaved.mem)
    simp only [keepsPaths, hprepared, Bool.or_eq_true, decide_eq_true_eq, List.all_eq_true,
      Bool.not_eq_true', or_assoc] at hok
    have hkeeps : before.isPublished = true ∨ entity.slug = before.slug ∨
        ∀ path, owes h.states before.id path = true → redirectFrom entity = some path := by
      apply hok.imp_right
      apply Or.imp_right
      intro hall path howes
      rcases hall path (mem_paths_of_owes howes) with hnot | hpath
      · rw [howes] at hnot
        cases hnot
      · exact hpath
    apply hi.snoc
    · intro x hx
      rcases (hsaved.posts x).mp hx with rfl | ⟨hx, -⟩
      · exact hslug
      · exact hi.slug x hx
    · intro x hx
      rw [hsaved.next]
      rcases (hsaved.posts x).mp hx with rfl | ⟨hx, -⟩
      · rw [hsaved.id]
        exact hi.id before hsaved.mem
      · exact hi.id x hx
    · rw [hsaved.next]
    · intro x hx path htaken howes
      rcases (hsaved.posts x).mp hx with rfl | ⟨hold, hne⟩
      · rw [hsaved.id] at howes
        exact leads_saved hi hsaved hslug hkeeps howes
      · exact leads_beside hi hsaved hslug hold hne htaken howes
  | removed hnext hposts hredirects =>
    apply hi.snoc
    · exact fun x hx => hi.slug x (hposts x hx)
    · intro x hx
      rw [hnext]
      exact hi.id x (hposts x hx)
    · rw [hnext]
    · intro x hx path _ howes
      rw [hredirects]
      exact hi.leads x (hposts x hx) path howes

lemma Inv.step {r : PostRequest} {h' : History} (hi : Inv h) (hok : keepsPaths env h r = true)
    (hs : step env h r = some h') : Inv h' := by
  cases hs
  cases hhandle : r.handle env h.db with
  | ok db' => exact hi.handle hok hhandle
  | error e =>
    -- a refused request leaves the tables as they are
    exact hi.snoc hi.slug hi.id le_rfl fun p hp path _ howes => hi.leads p hp path howes

end Step

/-! ### Every run -/

lemma Inv.init {db : Site} (hslugs : ∀ p ∈ db.posts.rows, p.slug ≠ "")
    (hids : ∀ p ∈ db.posts.rows, p.id < db.nextPostId) : Inv ⟨db, []⟩ := by
  have hserved : ∀ id path, owes [db] id path = true → isServed db id path = true := by
    intro id path howes
    exact (owes_cons.mp howes).2.resolve_right (by simp [owes])
  refine ⟨hslugs, hids, ?_, ?_⟩
  · intro id path howes
    obtain ⟨p, hp, rfl, -⟩ := isServed_iff.mp (hserved id path howes)
    exact hids p hp
  · intro p hp path howes
    obtain ⟨q, hq, hid, -, hpath⟩ := isServed_iff.mp (hserved p.id path howes)
    obtain rfl := Table.eq_of_key hq hp hid
    rw [redirectFrom_of_ne (hslugs q hp)] at hpath
    exact Or.inl (Option.some.inj hpath).symm

/-- What a post owes is resolved. -/
lemma Inv.urlsKept {h : History} (hi : Inv h) : UrlsKept h := by
  intro later earlier older p q path hstates hp _ hq hid hpublished hpath
  by_cases htaken : ∃ db ∈ later, ∃ x ∈ db.posts.rows, x.id ≠ p.id ∧ redirectFrom x = some path
  · exact Or.inr (Or.inl htaken)
  have hlater : ∀ db ∈ later, isTaken db p.id path = false := by
    intro db hdb
    rw [Bool.eq_false_iff]
    intro htrue
    obtain ⟨x, hx, hne, hxpath⟩ := isTaken_iff.mp htrue
    exact htaken ⟨db, hdb, x, hx, hne, hxpath⟩
  have hearlier : isTaken earlier p.id path = false := by
    rw [Bool.eq_false_iff]
    intro htrue
    obtain ⟨x, hx, hne, hxpath⟩ := isTaken_iff.mp htrue
    exact hne (by rw [eq_of_redirectFrom hx hq hxpath hpath, hid])
  have howes : owes h.states p.id path = true := by
    rw [hstates]
    exact owes_of_served (isServed_iff.mpr ⟨q, hq, hid, hpublished, hpath⟩) hearlier hlater
  have hcurrent : redirectFrom p = some (postPath p) := redirectFrom_of_ne (hi.slug p hp)
  rcases hi.leads p hp path howes with rfl | htarget
  · exact Or.inl hcurrent
  · refine Or.inr (Or.inr fun query hquery => ?_)
    have hne : path ≠ "" := by
      rintro rfl
      simp only [redirectFrom] at hpath
      split_ifs at hpath
      simp at hpath
    obtain ⟨statusCode, hresolve⟩ := resolvePath_of_target hquery hne htarget
    exact ⟨_, statusCode, hresolve, hcurrent⟩

/-- No public URL is lost in a run that moves a post that is not public only back to the path it
owes. -/
theorem urls_kept {env : NewsEnv} {db : Site} {h : History}
    (hslugs : ∀ p ∈ db.posts.rows, p.slug ≠ "") (hids : ∀ p ∈ db.posts.rows, p.id < db.nextPostId)
    (hreach : Reach (step env) (fun h r => keepsPaths env h r = true) ⟨db, []⟩ h) :
    UrlsKept h := by
  have hinv : Inv h :=
    hreach.invariant (P := Inv) (Inv.init hslugs hids) fun _ _ _ hi hok hs => hi.step hok hs
  exact hinv.urlsKept

def createA : PostRequest :=
  .create 0 "2024-01-01" { titleAr := "a", categoryId := "1", isPublished := some true }

/-- A post is renamed while it is public, withdrawn, and published again. -/
def renamedThenWithdrawn : List PostRequest :=
  [createA, .update "2024-01-02" "1" { slug := some "b" },
    .publish "2024-01-03" "1" { isPublished := some false }, .publish "2024-01-04" "1" {}]

theorem urls_kept_renamed : ∃ h : History,
    h.db.redirects.rows.map (fun r => (r.fromPath, r.toPath)) = [("/news/a", "/news/b")] ∧
      UrlsKept h := by
  obtain ⟨h, hrun, hrows⟩ := exists_of_run
    (guarded (step ascii) (fun h r => keepsPaths ascii h r)) ⟨emptySite, []⟩ renamedThenWithdrawn
    (P := fun h => h.db.redirects.rows.map (fun r => (r.fromPath, r.toPath))
      = [("/news/a", "/news/b")]) (by decide +kernel)
  have hslugs : ∀ p ∈ emptySite.posts.rows, p.slug ≠ "" := fun _ hp => by cases hp
  have hids : ∀ p ∈ emptySite.posts.rows, p.id < emptySite.nextPostId := fun _ hp => by cases hp
  exact ⟨h, hrows, urls_kept hslugs hids (Reach.of_guarded hrun)⟩

/-- A post is withdrawn, renamed, and published again. -/
def withdrawnThenRenamed : List PostRequest :=
  [createA, .publish "2024-01-02" "1" { isPublished := some false },
    .update "2024-01-03" "1" { slug := some "b" }, .publish "2024-01-04" "1" {}]

/-- After its four requests nothing has `/news/a`, and nothing leads from there. -/
def losesA (h : History) : Bool :=
  match h.states with
  | [s₄, s₃, s₂, s₁, _] =>
    s₄.posts.rows.map (fun p => (p.id, p.slug, p.isPublished)) = [(1, "b", true)] &&
      isServed s₁ 1 "/news/a" && [s₄, s₃, s₂].all (fun s => !isTaken s 1 "/news/a") &&
      s₄.redirects.rows.isEmpty
  | _ => false

theorem url_lost : ∃ h : History,
    Reach (step ascii) always ⟨emptySite, []⟩ h ∧ ¬UrlsKept h := by
  obtain ⟨h, hrun, hloses⟩ := exists_of_run (step ascii) ⟨emptySite, []⟩ withdrawnThenRenamed
    (P := fun h => losesA h = true) (by decide +kernel)
  refine ⟨h, Reach.of_run hrun, ?_⟩
  intro hkept
  simp only [losesA] at hloses
  split at hloses
  · next s₄ s₃ s₂ s₁ s₀ hstates =>
    simp only [Bool.and_eq_true, decide_eq_true_eq, List.all_eq_true, Bool.not_eq_true'] at hloses
    obtain ⟨⟨⟨hposts, hserved⟩, htaken⟩, hredirects⟩ := hloses
    obtain ⟨hdb, -⟩ := List.cons.inj hstates
    obtain ⟨q, hq, hqid, hqpublished, hqpath⟩ := isServed_iff.mp hserved
    obtain ⟨p, hp, hfields⟩ := List.mem_map.mp (hposts ▸ List.mem_singleton_self (1, "b", true))
    obtain ⟨hpid, hslug, hpublished⟩ : p.id = 1 ∧ p.slug = "b" ∧ p.isPublished = true := by
      simpa using hfields
    rcases hkept [s₄, s₃, s₂] s₁ [s₀] p q "/news/a" hstates (hdb ▸ hp) hpublished hq
      (hqid.trans hpid.symm) hqpublished hqpath with hcurrent | ⟨db, hdb, x, hx, hne, hpath⟩ | hfound
    · simp [redirectFrom, hslug] at hcurrent
    · have hnot := htaken db hdb
      rw [isTaken_iff.mpr ⟨x, hx, hpid ▸ hne, hpath⟩] at hnot
      cases hnot
    · obtain ⟨dest, statusCode, hresolve, -⟩ :=
        hfound (fun key => if key = "path" then some (.text "/news/a") else none) rfl
      obtain ⟨path, -, htarget⟩ := resolvePath_ok hresolve
      obtain ⟨r, hr, -⟩ := target_eq_some.mp htarget
      rw [hdb, List.isEmpty_iff.mp hredirects] at hr
      cases hr
  · cases hloses

end SafeerApi.Redirects.ServedPaths
