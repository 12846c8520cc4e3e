import SafeerApi.Lib.Reach
import SafeerApi.Cache.Index

/-!
# The cache and the commits it hides

Readers and writers share one `CacheService`. A reader looks its key up and, on a miss, takes a
snapshot of its tags' versions, reads the database as often as it likes and stores what it computed
under that snapshot (`CacheInterceptor.intercept`, `MediaService.isPubliclyReadable`). A writer
commits and then purges tags. The database is represented by the number of commits it has seen, so
a value carries, for each read it was computed from, the number of commits that read saw.
-/

namespace SafeerApi.Cache

open Lib

/-! ### Version snapshots -/

namespace CacheService

variable {V : Type*}

lemma toList_versionOf (s : CacheService V) (tags : List Tag) :
    (s.versionOf tags).toList = s.epoch.repr.toList ++ ':' ::
      [','].intercalate (tags.map fun t => (s.version t).repr.toList) := by
  simp [versionOf, Function.comp_def, toString]

/-- Two snapshots of the same tags are equal only when nothing was purged or cleared between. -/
lemma versionOf_inj {s s' : CacheService V} {tags : List Tag}
    (h : s.versionOf tags = s'.versionOf tags) :
    s.epoch = s'.epoch ∧ ∀ t ∈ tags, s.version t = s'.version t := by
  have h := congrArg String.toList h
  rw [toList_versionOf, toList_versionOf] at h
  obtain ⟨he, hv⟩ := append_sep_inj (notMem_repr (by decide) _) (notMem_repr (by decide) _) h
  exact ⟨repr_toList_inj he, intercalate_repr_inj (by decide) hv⟩

/-- The store holds an entry under `key` that `tag` purges. -/
def Carries (s : CacheService V) (st : Store) (key : Key) (tag : Tag) : Prop :=
  ∃ e, s.entries st key = some e ∧ tag ∈ e.tags

end CacheService

/-! ### Readers, writers and commits -/

/-- A computed value, with the number of commits each of the database reads behind it saw. -/
structure Computed (β : Type*) where
  body : β
  reads : List ℕ
  deriving DecidableEq

/-- Where a reader is. -/
inductive Reader where
  | idle
  | missed (st : Store) (key : Key) (tags : List Tag)
  | reading (st : Store) (key : Key) (tags : List Tag) (version : String) (reads : List ℕ)
  deriving DecidableEq, Repr

/-- The shared cache, the number of commits so far, and where every reader and writer is. A writer
that has committed holds the number of its commit. `purged` records which commit has been followed
by a returned purge of which tag. -/
structure World (β : Type*) where
  service : CacheService (Computed β)
  commits : ℕ
  readers : ℕ → Reader
  writers : ℕ → Option ℕ
  purged : List (ℕ × Tag)

def World.init (β : Type*) : World β where
  service := .init _
  commits := 0
  readers := fun _ => .idle
  writers := fun _ => none
  purged := []

inductive Action (β : Type*) where
  | lookup (r : ℕ) (st : Store) (k : String) (tags : List Tag) (c : LruChoice)
  | bypass (r : ℕ) (k : String) (tags : List Tag)
  | snapshot (r : ℕ)
  | read (r : ℕ)
  | store (r : ℕ) (body : β) (c : LruChoice)
  | drop (r : ℕ)
  | commit (w : ℕ)
  | purge (w : ℕ) (tag : Tag)
  | clear
  | evict (st : Store) (key : Key)

variable {β : Type*}

def World.setReader (w : World β) (r : ℕ) (x : Reader) : World β :=
  { w with readers := Function.update w.readers r x }

/-- One step of one party. An action its party is not ready for is not enabled. -/
def step (w : World β) : Action β → Option (World β)
  | .lookup r st k tags c =>
    match w.readers r, w.service.getFrom st c (st.keyPrefix ++ k) with
    | .idle, (some _, s) => some { w with service := s }
    | .idle, (none, s) => some ({ w with service := s }.setReader r (.missed st (st.keyPrefix ++ k) tags))
    | _, _ => none
  -- a requested preview does not look the key up
  | .bypass r k tags =>
    match w.readers r with
    | .idle => some (w.setReader r (.missed .response (Store.response.keyPrefix ++ k) tags))
    | _ => none
  | .snapshot r =>
    match w.readers r with
    | .missed st key tags =>
      some (w.setReader r (.reading st key tags (w.service.versionOf tags) []))
    | _ => none
  | .read r =>
    match w.readers r with
    | .reading st key tags version reads =>
      some (w.setReader r (.reading st key tags version (reads ++ [w.commits])))
    | _ => none
  | .store r body c =>
    match w.readers r with
    | .reading st key tags version reads =>
      some ({ w with
        service := (CacheService.setIn st w.service c key ⟨body, reads⟩ tags (some version)).2
      }.setReader r .idle)
    | _ => none
  -- the handler threw, or its response is not to be stored
  | .drop r => some (w.setReader r .idle)
  | .commit x =>
    some { w with
      commits := w.commits + 1
      writers := Function.update w.writers x (some (w.commits + 1)) }
  -- without a commit of its own, it is the cache screen's purge
  | .purge x tag =>
    some { w with
      service := (w.service.purgeTag tag).2
      purged := ((w.writers x).map (·, tag)).toList ++ w.purged }
  | .clear => some { w with service := w.service.clear }
  | .evict st key => some { w with service := w.service.evict st key }

/-! ### The invariant -/

/-- Every read came after each commit that a purge of one of `tags` has announced. -/
def Fresh (purged : List (ℕ × Tag)) (tags : List Tag) (reads : List ℕ) : Prop :=
  ∀ p ∈ purged, p.2 ∈ tags → ∀ m ∈ reads, p.1 ≤ m

/-- A snapshot of `tags` taken in an earlier state of the service; as long as the counters have not
moved since, the reads taken under it are fresh. -/
structure Covered (s : CacheService (Computed β)) (purged : List (ℕ × Tag)) (tags : List Tag)
    (version : String) (reads : List ℕ) (s₀ : CacheService (Computed β)) : Prop where
  taken : version = s₀.versionOf tags
  epoch_le : s₀.epoch ≤ s.epoch
  version_le : ∀ t, s₀.version t ≤ s.version t
  fresh : s₀.epoch = s.epoch → (∀ t ∈ tags, s₀.version t = s.version t) → Fresh purged tags reads

/-- What a reader may hold. -/
def Reader.Sound (s : CacheService (Computed β)) (purged : List (ℕ × Tag)) : Reader → Prop
  | .idle => True
  | .missed st key _ => st.Owns key
  | .reading st key tags version reads =>
    st.Owns key ∧ ∃ s₀, Covered s purged tags version reads s₀

structure World.Inv (w : World β) : Prop where
  indexed : w.service.WellIndexed
  committed : ∀ x n, w.writers x = some n → n ≤ w.commits
  announced : ∀ p ∈ w.purged, p.1 ≤ w.commits
  entries : ∀ st k e, w.service.entries st k = some e → Fresh w.purged e.tags e.value.reads
  readers : ∀ r, (w.readers r).Sound w.service w.purged

lemma World.inv_init : (World.init β).Inv where
  indexed := CacheService.wellIndexed_init
  committed := by simp [World.init]
  announced := by simp [World.init]
  entries st k e he := by
    cases st <;> simp [World.init, CacheService.init, CacheService.entries] at he
  readers _ := trivial

/-! ### What the operations preserve -/

lemma Fresh.nil (purged : List (ℕ × Tag)) (tags : List Tag) : Fresh purged tags [] := by
  simp [Fresh]

/-- A read that sees every announced commit keeps the value fresh. -/
lemma Fresh.snoc {purged : List (ℕ × Tag)} {tags : List Tag} {reads : List ℕ} {n : ℕ}
    (h : Fresh purged tags reads) (hn : ∀ p ∈ purged, p.1 ≤ n) :
    Fresh purged tags (reads ++ [n]) := by
  intro p hp ht m hm
  rcases List.mem_append.mp hm with hm | hm
  · exact h p hp ht m hm
  · rw [List.mem_singleton.mp hm]
    exact hn p hp

/-- A purge of a tag the value does not carry announces nothing to it. -/
lemma Fresh.announce {purged : List (ℕ × Tag)} {tags : List Tag} {reads : List ℕ} {tag : Tag}
    (h : Fresh purged tags reads) (htag : tag ∉ tags) (o : Option ℕ) :
    Fresh ((o.map (·, tag)).toList ++ purged) tags reads := by
  intro p hp ht
  rcases List.mem_append.mp hp with hp | hp
  · obtain ⟨n, -, rfl⟩ := Option.map_eq_some_iff.mp (Option.mem_toList.mp hp)
    exact absurd ht htag
  · exact h p hp ht

/-- Counters that stand still leave a snapshot as it was. -/
lemma Reader.Sound.congr {s s' : CacheService (Computed β)} {purged : List (ℕ × Tag)} {x : Reader}
    (h : x.Sound s purged) (hepoch : s'.epoch = s.epoch)
    (hversions : s'.tagVersions = s.tagVersions) :
    x.Sound s' purged := by
  have hver : ∀ t, s'.version t = s.version t := by simp [CacheService.version, hversions]
  cases x with
  | idle => trivial
  | missed st key tags => exact h
  | reading st key tags version reads =>
    obtain ⟨hkey, s₀, hs₀⟩ := h
    refine ⟨hkey, s₀, hs₀.taken, by rw [hepoch]; exact hs₀.epoch_le,
      fun t => by rw [hver]; exact hs₀.version_le t, ?_⟩
    simp only [hepoch, hver]
    exact hs₀.fresh

/-- A purge outdates every snapshot of its tag and leaves the others as they were. -/
lemma Reader.Sound.purge {s : CacheService (Computed β)} {purged : List (ℕ × Tag)} {x : Reader}
    (h : x.Sound s purged) (tag : Tag) (o : Option ℕ) :
    x.Sound (s.purgeTag tag).2 ((o.map (·, tag)).toList ++ purged) := by
  obtain ⟨hversions, hepoch⟩ := CacheService.purgeTag_versions s tag
  have hver : ∀ t, (s.purgeTag tag).2.version t
      = if t = tag then s.version tag + 1 else s.version t := by
    intro t
    rw [← CacheService.version_bump]
    simp [CacheService.version, hversions]
  cases x with
  | idle => trivial
  | missed st key tags => exact h
  | reading st key tags version reads =>
    obtain ⟨hkey, s₀, hs₀⟩ := h
    refine ⟨hkey, s₀, hs₀.taken, by rw [hepoch]; exact hs₀.epoch_le, fun t => ?_, fun he hv => ?_⟩
    · have := hs₀.version_le t
      rw [hver]
      split_ifs with ht
      · subst ht; omega
      · exact this
    · have htag : tag ∉ tags := by
        intro hmem
        have h₁ := hv tag hmem
        have h₂ := hs₀.version_le tag
        rw [hver, if_pos rfl] at h₁
        omega
      refine (hs₀.fresh (by rw [he, hepoch]) fun t ht => ?_).announce htag o
      rw [hv t ht, hver, if_neg (by rintro rfl; exact htag ht)]

/-- Clearing outdates every snapshot. -/
lemma Reader.Sound.clear {s : CacheService (Computed β)} {purged : List (ℕ × Tag)} {x : Reader}
    (h : x.Sound s purged) : x.Sound s.clear purged := by
  cases x with
  | idle => trivial
  | missed st key tags => exact h
  | reading st key tags version reads =>
    obtain ⟨hkey, s₀, hs₀⟩ := h
    have hle := hs₀.epoch_le
    refine ⟨hkey, s₀, hs₀.taken, ?_, hs₀.version_le, fun he => ?_⟩ <;>
      simp only [CacheService.clear] at * <;> omega

/-- A value whose snapshot still matches the counters is fresh. -/
lemma Covered.fresh_of_versionOf {s s₀ : CacheService (Computed β)} {purged : List (ℕ × Tag)}
    {tags : List Tag} {version : String} {reads : List ℕ}
    (h : Covered s purged tags version reads s₀) (hv : version = s.versionOf tags) :
    Fresh purged tags reads := by
  obtain ⟨he, ht⟩ := CacheService.versionOf_inj (h.taken.symm.trans hv)
  exact h.fresh he ht

lemma World.Inv.setReader {w : World β} (h : w.Inv) (r : ℕ) {x : Reader}
    (hx : x.Sound w.service w.purged) : (w.setReader r x).Inv := by
  refine ⟨h.indexed, h.committed, h.announced, h.entries, ?_⟩
  apply (Function.forall_update_iff w.readers fun _ x => x.Sound w.service w.purged).mpr
  exact ⟨hx, fun r' _ => h.readers r'⟩

lemma World.Inv.shrink {w : World β} (h : w.Inv) {s : CacheService (Computed β)}
    (hs : w.service.Shrinks s) : ({ w with service := s } : World β).Inv where
  indexed := hs.indexed
  committed := h.committed
  announced := h.announced
  entries st k e he := h.entries st k e (hs.entries he)
  readers r := (h.readers r).congr hs.epoch hs.versions

lemma World.Inv.stored {w : World β} (h : w.Inv) {st : Store} {key : Key} {tags : List Tag}
    {version : String} {reads : List ℕ} {body : β} {c : LruChoice}
    (hr : (Reader.reading st key tags version reads).Sound w.service w.purged) :
    ({ w with service := (CacheService.setIn st w.service c key ⟨body, reads⟩ tags
        (some version)).2 } : World β).Inv := by
  obtain ⟨hkey, s₀, hs₀⟩ := hr
  obtain ⟨hversions, hepoch⟩ :=
    CacheService.setIn_versions w.service st c key ⟨body, reads⟩ tags (some version)
  refine ⟨h.indexed.setIn hkey c _ tags _, h.committed, h.announced, ?_,
    fun r => (h.readers r).congr hepoch hversions⟩
  intro st' k e he
  rcases CacheService.entries_setIn he with he | ⟨-, rfl, hv⟩
  · exact h.entries st' k e he
  · exact hs₀.fresh_of_versionOf (hv version rfl)

lemma World.Inv.purge {w : World β} (h : w.Inv) (x : ℕ) (tag : Tag) :
    ({ w with
      service := (w.service.purgeTag tag).2
      purged := ((w.writers x).map (·, tag)).toList ++ w.purged } : World β).Inv := by
  refine ⟨h.indexed.purgeTag tag, h.committed, ?_, ?_, fun r => (h.readers r).purge tag _⟩
  · intro p hp
    rcases List.mem_append.mp hp with hp | hp
    · obtain ⟨n, hn, rfl⟩ := Option.map_eq_some_iff.mp (Option.mem_toList.mp hp)
      exact h.committed x n hn
    · exact h.announced p hp
  · intro st k e he
    obtain ⟨he, htag⟩ := CacheService.entries_purgeTag h.indexed he
    exact (h.entries st k e he).announce htag _

/-! ### Runs -/

/-- The invariant holds after every step of every party. -/
lemma inv_step {w w' : World β} {a : Action β} (h : w.Inv) (hs : step w a = some w') : w'.Inv := by
  cases a with
  | lookup r st k tags c =>
    have hshrink := CacheService.shrinks_getFrom h.indexed st c (st.keyPrefix ++ k)
    unfold step at hs
    dsimp only at hs
    split at hs
    · next hget =>
      cases hs
      rw [hget] at hshrink
      exact h.shrink hshrink
    · next hget =>
      cases hs
      rw [hget] at hshrink
      exact (h.shrink hshrink).setReader r (st.owns_append k)
    · cases hs
  | bypass r k tags =>
    simp only [step] at hs
    split at hs
    · cases hs; exact h.setReader r (Store.owns_append _ _)
    · cases hs
  | snapshot r =>
    have hr := h.readers r
    simp only [step] at hs
    split at hs
    · next st key tags heq =>
      rw [heq] at hr
      cases hs
      exact h.setReader r ⟨hr, w.service, rfl, Nat.le_refl _, fun _ => Nat.le_refl _,
        fun _ _ => Fresh.nil _ _⟩
    · cases hs
  | read r =>
    have hr := h.readers r
    simp only [step] at hs
    split at hs
    · next st key tags version reads heq =>
      rw [heq] at hr
      cases hs
      obtain ⟨hkey, s₀, hs₀⟩ := hr
      exact h.setReader r ⟨hkey, s₀, hs₀.taken, hs₀.epoch_le, hs₀.version_le,
        fun he hv => (hs₀.fresh he hv).snoc h.announced⟩
    · cases hs
  | store r body c =>
    have hr := h.readers r
    simp only [step] at hs
    split at hs
    · next st key tags version reads heq =>
      rw [heq] at hr
      cases hs
      exact (h.stored hr).setReader r trivial
    · cases hs
  | drop r => cases hs; exact h.setReader r trivial
  | commit x =>
    cases hs
    refine ⟨h.indexed, ?_, fun p hp => Nat.le_succ_of_le (h.announced p hp), h.entries, h.readers⟩
    intro y n hn
    by_cases hy : y = x
    · subst hy
      obtain rfl : w.commits + 1 = n := by simpa using hn
      exact Nat.le_refl _
    · simp only [Function.update_of_ne hy] at hn
      exact Nat.le_succ_of_le (h.committed y n hn)
  | purge x tag => cases hs; exact h.purge x tag
  | clear =>
    cases hs
    refine ⟨CacheService.wellIndexed_clear _, h.committed, h.announced, ?_,
      fun r => (h.readers r).clear⟩
    intro st k e he
    simp [CacheService.entries_clear] at he
  | evict st key => cases hs; exact h.shrink (CacheService.shrinks_lruDelete h.indexed st key)

lemma inv_reach {w : World β} (h : Reach step always (World.init β) w) : w.Inv :=
  h.invariant World.inv_init fun _ _ _ hi _ hs => inv_step hi hs

/-- After a writer's purge of a tag has returned, a lookup of a key that carries the tag returns no
value with a database read from before the writer's commit. -/
theorem lookup_fresh {w : World β} (h : Reach step always (World.init β) w) {st : Store}
    {c : LruChoice} {key : Key} {v : Computed β} {tag : Tag} {n : ℕ}
    (hget : (w.service.getFrom st c key).1 = some v) (hcarries : w.service.Carries st key tag)
    (hpurged : (n, tag) ∈ w.purged) : ∀ m ∈ v.reads, n ≤ m := by
  obtain ⟨e, he, rfl⟩ := CacheService.getFrom_eq_some hget
  obtain ⟨e', he', htag⟩ := hcarries
  obtain rfl : e = e' := Option.some.inj (he.symm.trans he')
  exact (inv_reach h).entries st key e he (n, tag) hpurged htag

/-- An edit of the home page overtakes a reader, whose value is refused; the next reader's is kept. -/
def overtaken : List (Action String) :=
  [.lookup 0 .response "/home:" ["home"] {}, .snapshot 0, .read 0, .commit 1, .purge 1 "home",
    .store 0 "old" {}, .lookup 2 .response "/home:" ["home"] {}, .snapshot 2, .read 2,
    .store 2 "new" {}]

theorem lookup_fresh_overtaken : ∃ w, run step (World.init String) overtaken = some w ∧
    (w.service.getFrom .response {} "GET:/home:").1 = some ⟨"new", [1]⟩ ∧ ∀ m ∈ [1], 1 ≤ m := by
  obtain ⟨w, hrun, hget, hentry, hpurged⟩ := exists_of_run step (World.init String) overtaken
    (P := fun w => (w.service.getFrom .response {} "GET:/home:").1 = some ⟨"new", [1]⟩ ∧
      (w.service.entries .response "GET:/home:").map CacheEntry.tags = some ["home"] ∧
      (1, "home") ∈ w.purged) (by decide)
  obtain ⟨e, he, htags⟩ := Option.map_eq_some_iff.mp hentry
  exact ⟨w, hrun, hget,
    lookup_fresh (Reach.of_run hrun) hget ⟨e, he, by simp [htags]⟩ hpurged⟩

/-! ### What a step leaves alone -/

/-- `w'` differs from `w` in the service and in reader `r` only. -/
structure World.OnlyReader (r : ℕ) (w w' : World β) : Prop where
  commits : w'.commits = w.commits
  purged : w'.purged = w.purged
  writers : w'.writers = w.writers
  readers : ∀ r', r' ≠ r → w'.readers r' = w.readers r'

/-- No entry appears that was not there. -/
def World.NoNewEntries (w w' : World β) : Prop :=
  ∀ {st k e}, w'.service.entries st k = some e → w.service.entries st k = some e

lemma World.onlyReader_setReader (w : World β) (s : CacheService (Computed β)) (r : ℕ)
    (x : Reader) : w.OnlyReader r ({ w with service := s }.setReader r x) :=
  ⟨rfl, rfl, rfl, fun _ hr => Function.update_of_ne hr _ _⟩

lemma World.OnlyReader.trans {r : ℕ} {w w' w'' : World β} (h : w.OnlyReader r w')
    (h' : w'.OnlyReader r w'') : w.OnlyReader r w'' where
  commits := h'.commits.trans h.commits
  purged := h'.purged.trans h.purged
  writers := h'.writers.trans h.writers
  readers r' hr := (h'.readers r' hr).trans (h.readers r' hr)

/-- A lookup loses entries at most; when it finds nothing, the reader is about to compute. -/
lemma step_lookup {w w' : World β} (h : w.Inv) {r : ℕ} {st : Store} {k : String} {tags : List Tag}
    {c : LruChoice} (hs : step w (.lookup r st k tags c) = some w') :
    w.OnlyReader r w' ∧ w.NoNewEntries w' ∧
      ((w.service.getFrom st c (st.keyPrefix ++ k)).1 = none →
        w'.readers r = .missed st (st.keyPrefix ++ k) tags) := by
  have hshrink := CacheService.shrinks_getFrom h.indexed st c (st.keyPrefix ++ k)
  unfold step at hs
  dsimp only at hs
  split at hs
  · next hget =>
    cases hs
    rw [hget] at hshrink
    exact ⟨⟨rfl, rfl, rfl, fun _ _ => rfl⟩, hshrink.entries, fun hnone => by simp [hget] at hnone⟩
  · next hget =>
    cases hs
    rw [hget] at hshrink
    exact ⟨w.onlyReader_setReader _ r _, hshrink.entries, fun _ => Function.update_self ..⟩
  · cases hs

lemma step_snapshot {w w' : World β} {r : ℕ} {st : Store} {key : Key} {tags : List Tag}
    (hr : w.readers r = .missed st key tags) (hs : step w (.snapshot r) = some w') :
    w.OnlyReader r w' ∧ w'.service = w.service ∧
      w'.readers r = .reading st key tags (w.service.versionOf tags) [] := by
  simp only [step, hr] at hs
  cases hs
  exact ⟨w.onlyReader_setReader w.service r _, rfl, Function.update_self ..⟩

lemma step_read {w w' : World β} {r : ℕ} {st : Store} {key : Key} {tags : List Tag}
    {version : String} {reads : List ℕ} (hr : w.readers r = .reading st key tags version reads)
    (hs : step w (.read r) = some w') : w.OnlyReader r w' ∧ w'.service = w.service ∧
      w'.readers r = .reading st key tags version (reads ++ [w.commits]) := by
  simp only [step, hr] at hs
  cases hs
  exact ⟨w.onlyReader_setReader w.service r _, rfl, Function.update_self ..⟩

/-- The only entry that can appear is the reader's own. -/
lemma step_store {w w' : World β} {r : ℕ} {st : Store} {key : Key} {tags : List Tag}
    {version : String} {reads : List ℕ} {body : β} {c : LruChoice}
    (hr : w.readers r = .reading st key tags version reads)
    (hs : step w (.store r body c) = some w') : w.OnlyReader r w' ∧
      ∀ {st' k e}, w'.service.entries st' k = some e → w.service.entries st' k = some e ∨
        (k = key ∧ e = ⟨⟨body, reads⟩, tags⟩) := by
  simp only [step, hr] at hs
  cases hs
  refine ⟨w.onlyReader_setReader _ r _, fun he => ?_⟩
  rcases CacheService.entries_setIn he with he | ⟨hkey, rfl, -⟩
  · exact Or.inl he
  · exact Or.inr ⟨hkey, rfl⟩

lemma step_drop {w w' : World β} {r : ℕ} (hs : step w (.drop r) = some w') :
    w.OnlyReader r w' ∧ w'.service = w.service := by
  cases hs
  exact ⟨w.onlyReader_setReader w.service r _, rfl⟩

/-- A purge loses entries at most, and is recorded when its writer has committed. -/
lemma step_purge {w w' : World β} (h : w.Inv) {x : ℕ} {tag : Tag}
    (hs : step w (.purge x tag) = some w') : w'.commits = w.commits ∧ w'.writers = w.writers ∧
      w'.readers = w.readers ∧ w.NoNewEntries w' ∧
      w'.purged = ((w.writers x).map (·, tag)).toList ++ w.purged := by
  cases hs
  exact ⟨rfl, rfl, rfl, fun he => (CacheService.entries_purgeTag h.indexed he).1, rfl⟩

end SafeerApi.Cache
