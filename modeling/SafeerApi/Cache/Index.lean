import SafeerApi.Cache.Service

/-!
# The tag index is complete

Every entry of either store is listed under each of its tags, in every state the operations of the
service reach. The callers keep the key sets of the two stores apart by their prefixes, which is
what lets one index serve both. A purge therefore leaves no entry with its tag.
-/

namespace SafeerApi.Cache

/-- The prefix the callers of a store put on its keys: `buildCacheKey` and `isPubliclyReadable`. -/
def Store.keyPrefix : Store → String
  | .response => "GET:"
  | .memo => "asset-public:"

/-- The keys a store is used with. -/
def Store.Owns (st : Store) (key : Key) : Prop := st.keyPrefix.toList <+: key.toList

lemma Store.owns_append (st : Store) (k : String) : st.Owns (st.keyPrefix ++ k) := by
  simp [Store.Owns]

/-- No key belongs to both stores. -/
lemma Store.owns_unique {st st' : Store} {key : Key} (h : st.Owns key) (h' : st'.Owns key) :
    st = st' := by
  obtain ⟨r, hr⟩ := h
  obtain ⟨r', hr'⟩ := h'
  have h := hr.trans hr'.symm
  cases st <;> cases st' <;> simp [Store.keyPrefix] at h ⊢

namespace CacheService

variable {V : Type*}

/-- Index completeness, with the disjointness of the two key sets it rests on. While an entry is
being replaced, its own key `x` is exempt. -/
structure WellIndexedBut (x : Option (Store × Key)) (s : CacheService V) : Prop where
  owned : ∀ {st k e}, s.entries st k = some e → st.Owns k
  indexed : ∀ {st k e t}, x ≠ some (st, k) → s.entries st k = some e → t ∈ e.tags →
    k ∈ s.tagIndex.keys t

/-- Every entry is listed under each of its tags. -/
abbrev WellIndexed : CacheService V → Prop := WellIndexedBut none

lemma wellIndexed_init : (CacheService.init V).WellIndexed := by
  constructor <;> intro st <;> cases st <;> simp [init, entries]

lemma WellIndexedBut.of_none {s : CacheService V} (h : s.WellIndexed) (x : Option (Store × Key)) :
    s.WellIndexedBut x :=
  ⟨h.owned, fun _ => h.indexed (by simp)⟩

/-! ### Deletion -/

@[simp] lemma entries_lruDelete (s : CacheService V) (st st' : Store) (key k : Key) :
    (s.lruDelete st key).2.entries st' k
      = if st' = st ∧ k = key then none else s.entries st' k := by
  simp only [lruDelete]
  split
  · next h =>
    split_ifs with hk
    · rw [hk.1, hk.2, h]
    · rfl
  · simp [dispose]

lemma lruDelete_fst (s : CacheService V) (st : Store) (key : Key) :
    (s.lruDelete st key).1 = (s.entries st key).isSome := by
  simp only [lruDelete]
  split <;> simp_all

lemma mem_keys_lruDelete (s : CacheService V) (st : Store) (key k : Key) (t : Tag) :
    k ∈ (s.lruDelete st key).2.tagIndex.keys t ↔
      k ∈ s.tagIndex.keys t ∧ ¬(k = key ∧ ∃ e, s.entries st key = some e ∧ t ∈ e.tags) := by
  simp only [lruDelete]
  split <;> simp_all [dispose, untagKey]

lemma WellIndexedBut.lruDelete {x : Option (Store × Key)} {s : CacheService V}
    (h : s.WellIndexedBut x) (st : Store) (key : Key) :
    (s.lruDelete st key).2.WellIndexedBut x where
  owned {st' k e} he := by
    rw [entries_lruDelete] at he
    split_ifs at he
    exact h.owned he
  indexed {st' k e t} hx he ht := by
    rw [entries_lruDelete] at he
    split_ifs at he with hk
    rw [mem_keys_lruDelete]
    refine ⟨h.indexed hx he ht, ?_⟩
    rintro ⟨rfl, e', he', -⟩
    -- the deleted key is not a key of the other store
    exact hk ⟨Store.owns_unique (h.owned he) (h.owned he'), rfl⟩

lemma lruDelete_versions (s : CacheService V) (st : Store) (key : Key) :
    (s.lruDelete st key).2.tagVersions = s.tagVersions ∧ (s.lruDelete st key).2.epoch = s.epoch := by
  simp only [lruDelete]
  split <;> simp [dispose, untagKey]

/-! ### Eviction of several keys -/

lemma WellIndexedBut.evictAll {x : Option (Store × Key)} {s : CacheService V}
    (h : s.WellIndexedBut x) (st : Store) (ks : List Key) :
    (ks.foldl (fun s k => (s.lruDelete st k).2) s).WellIndexedBut x := by
  induction ks generalizing s with
  | nil => exact h
  | cons k ks ih => exact ih (h.lruDelete st k)

lemma entries_evictAll {s : CacheService V} {st st' : Store} {ks : List Key} {k : Key}
    {e : CacheEntry V}
    (he : (ks.foldl (fun s k => (s.lruDelete st k).2) s).entries st' k = some e) :
    s.entries st' k = some e ∧ ¬(st' = st ∧ k ∈ ks) := by
  induction ks generalizing s with
  | nil => exact ⟨he, by simp⟩
  | cons k' ks ih =>
    obtain ⟨he, hmem⟩ := ih he
    rw [entries_lruDelete] at he
    split_ifs at he with hk
    refine ⟨he, ?_⟩
    rintro ⟨hst, hin⟩
    rcases List.mem_cons.mp hin with rfl | hin
    · exact hk ⟨hst, rfl⟩
    · exact hmem ⟨hst, hin⟩

lemma evictAll_versions (s : CacheService V) (st : Store) (ks : List Key) :
    (ks.foldl (fun s k => (s.lruDelete st k).2) s).tagVersions = s.tagVersions ∧
      (ks.foldl (fun s k => (s.lruDelete st k).2) s).epoch = s.epoch := by
  induction ks generalizing s with
  | nil => exact ⟨rfl, rfl⟩
  | cons k ks ih =>
    obtain ⟨h₁, h₂⟩ := lruDelete_versions s st k
    obtain ⟨h₃, h₄⟩ := ih (s.lruDelete st k).2
    exact ⟨h₃.trans h₁, h₄.trans h₂⟩

/-! ### Storing -/

/-- Unindexing the key that is being replaced does not touch the other entries. -/
lemma WellIndexedBut.untagKey {s : CacheService V} {st : Store} {key : Key}
    (h : s.WellIndexedBut (some (st, key))) (hkey : st.Owns key) (tags : List Tag) :
    (s.untagKey key tags).WellIndexedBut (some (st, key)) where
  owned he := h.owned (by rwa [entries_untagKey] at he)
  indexed {st' k e t} hx he ht := by
    rw [entries_untagKey] at he
    refine (TagIndex.mem_untagKey _ _ _ _ _).mpr ⟨h.indexed hx he ht, ?_⟩
    rintro ⟨rfl, -⟩
    exact hx (by rw [Store.owns_unique (h.owned he) hkey])

lemma WellIndexedBut.untagOld {s : CacheService V} {st : Store} {key : Key}
    (h : s.WellIndexedBut (some (st, key))) (hkey : st.Owns key) (o : Option (CacheEntry V)) :
    (s.untagOld key o).WellIndexedBut (some (st, key)) := by
  cases o with
  | none => exact h
  | some old => exact h.untagKey hkey old.tags

lemma WellIndexedBut.put {s : CacheService V} {st : Store} {key : Key}
    (h : s.WellIndexedBut (some (st, key))) (hkey : st.Owns key) (e : Option (CacheEntry V)) :
    (s.put st key e).WellIndexedBut (some (st, key)) where
  owned {st' k e'} he := by
    rw [entries_put] at he
    split_ifs at he with hk
    · rwa [hk.1, hk.2]
    · exact h.owned he
  indexed {st' k e' t} hx he ht := by
    rw [entries_put, if_neg (by rintro ⟨rfl, rfl⟩; exact hx rfl)] at he
    rw [tagIndex_put]
    exact h.indexed hx he ht

lemma WellIndexedBut.lruSet {s : CacheService V} {st : Store} {key : Key}
    (h : s.WellIndexedBut (some (st, key))) (hkey : st.Owns key) (c : LruChoice)
    (e : CacheEntry V) : (s.lruSet st c key e).WellIndexedBut (some (st, key)) := by
  unfold CacheService.lruSet
  have hdisposed := h.untagOld hkey (s.entries st key)
  dsimp only
  split
  · exact hdisposed.put hkey none
  · exact (hdisposed.put hkey (some e)).evictAll st _

/-- An entry found after `LRUCache.set` was there before, or is the one just stored. -/
lemma entries_lruSet {s : CacheService V} {st st' : Store} {key k : Key} {c : LruChoice}
    {e e' : CacheEntry V} (he : (s.lruSet st c key e).entries st' k = some e') :
    if st' = st ∧ k = key then e' = e else s.entries st' k = some e' := by
  unfold CacheService.lruSet at he
  dsimp only at he
  split at he
  · rw [entries_put, entries_untagOld] at he
    split_ifs at he ⊢
    exact he
  · have he := (entries_evictAll he).1
    rw [entries_put, entries_untagOld] at he
    split_ifs at he ⊢
    · simpa using he.symm
    · exact he

lemma lruSet_versions (s : CacheService V) (st : Store) (c : LruChoice) (key : Key)
    (e : CacheEntry V) :
    (s.lruSet st c key e).tagVersions = s.tagVersions ∧ (s.lruSet st c key e).epoch = s.epoch := by
  unfold CacheService.lruSet
  dsimp only
  split <;> simp [evictAll_versions]

/-- `set` and `setMemo` keep the index complete. -/
lemma WellIndexedBut.setIn {s : CacheService V} (h : s.WellIndexed) {st : Store} {key : Key}
    (hkey : st.Owns key) (c : LruChoice) (value : V) (tags : List Tag) (ifVersion : Option String) :
    (CacheService.setIn st s c key value tags ifVersion).2.WellIndexed := by
  simp only [CacheService.setIn]
  split
  · exact h
  · set s₁ := (s.untagOld key (if c.stale then none else s.entries st key)).lruSet st c key
      ⟨value, tags⟩ with hs₁
    have h₁ : s₁.WellIndexedBut (some (st, key)) :=
      ((WellIndexedBut.of_none h _).untagOld hkey _).lruSet hkey c _
    refine ⟨fun he => h₁.owned (by rwa [entries_tagKey] at he), fun {st' k e t} _ he ht => ?_⟩
    rw [entries_tagKey] at he
    apply (TagIndex.mem_tagKey _ _ _ _ _).mpr
    by_cases hk : st' = st ∧ k = key
    · have hval := entries_lruSet he
      rw [if_pos hk] at hval
      exact Or.inr ⟨hk.2, by simpa [hval] using ht⟩
    · exact Or.inl (h₁.indexed (by rintro ⟨⟩; exact hk ⟨rfl, rfl⟩) he ht)

/-- What `set` and `setMemo` leave in the stores: old entries, and the new one if its tags' versions
are those of the snapshot. -/
lemma entries_setIn {s : CacheService V} {st st' : Store} {c : LruChoice} {key k : Key} {value : V}
    {tags : List Tag} {ifVersion : Option String} {e : CacheEntry V}
    (he : (CacheService.setIn st s c key value tags ifVersion).2.entries st' k = some e) :
    s.entries st' k = some e ∨
      (k = key ∧ e = ⟨value, tags⟩ ∧ ∀ v, ifVersion = some v → v = s.versionOf tags) := by
  simp only [CacheService.setIn] at he
  split at he
  · exact Or.inl he
  · next hver =>
    rw [entries_tagKey] at he
    have hval := entries_lruSet he
    by_cases hk : st' = st ∧ k = key
    · rw [if_pos hk] at hval
      exact Or.inr ⟨hk.2, hval, by rintro v rfl; simpa using hver⟩
    · rw [if_neg hk, entries_untagOld] at hval
      exact Or.inl hval

lemma setIn_versions (s : CacheService V) (st : Store) (c : LruChoice) (key : Key) (value : V)
    (tags : List Tag) (ifVersion : Option String) :
    (CacheService.setIn st s c key value tags ifVersion).2.tagVersions = s.tagVersions ∧
      (CacheService.setIn st s c key value tags ifVersion).2.epoch = s.epoch := by
  simp only [CacheService.setIn]
  split
  · exact ⟨rfl, rfl⟩
  · simpa [CacheService.tagKey] using
      lruSet_versions (s.untagOld key (if c.stale then none else s.entries st key)) st c key
        ⟨value, tags⟩

/-! ### Purging -/

lemma WellIndexedBut.purgeLoop {s : CacheService V} (h : s.WellIndexed) (tag : Tag)
    (keys : List Key) (n : ℕ) : (CacheService.purgeLoop tag keys n s).2.WellIndexed := by
  induction keys generalizing s n with
  | nil => exact h
  | cons key keys ih =>
    simp only [CacheService.purgeLoop]
    split
    · split
      · next s' hs' => exact ih (by simpa [hs'] using h.lruDelete .response key) _
      · next s' hs' =>
        refine ih (WellIndexedBut.lruDelete ?_ .memo key) _
        simpa [hs'] using h.lruDelete .response key
    · exact ih h n

lemma entries_purgeLoop {s : CacheService V} {tag : Tag} {keys : List Key} {n : ℕ} {st : Store}
    {k : Key} {e : CacheEntry V}
    (he : (CacheService.purgeLoop tag keys n s).2.entries st k = some e) :
    s.entries st k = some e := by
  induction keys generalizing s n with
  | nil => exact he
  | cons key keys ih =>
    simp only [CacheService.purgeLoop] at he
    split at he
    · have hdel : ∀ {t : CacheService V} {st' : Store},
          (t.lruDelete st' key).2.entries st k = some e →
          t.entries st k = some e := by
        intro t st' h
        rw [entries_lruDelete] at h
        split_ifs at h
        exact h
      split at he
      · next s' hs' => exact hdel (by rw [hs']; exact ih he)
      · next s' hs' => exact hdel (by rw [hs']; exact hdel (ih he))
    · exact ih he

lemma purgeLoop_versions (s : CacheService V) (tag : Tag) (keys : List Key) (n : ℕ) :
    (CacheService.purgeLoop tag keys n s).2.tagVersions = s.tagVersions ∧
      (CacheService.purgeLoop tag keys n s).2.epoch = s.epoch := by
  induction keys generalizing s n with
  | nil => exact ⟨rfl, rfl⟩
  | cons key keys ih =>
    simp only [CacheService.purgeLoop]
    split
    · obtain ⟨h₁, h₂⟩ := lruDelete_versions s .response key
      split
      · next s' hs' =>
        rw [hs'] at h₁ h₂
        exact ⟨(ih s' _).1.trans h₁, (ih s' _).2.trans h₂⟩
      · next s' hs' =>
        rw [hs'] at h₁ h₂
        obtain ⟨h₃, h₄⟩ := lruDelete_versions s' .memo key
        exact ⟨((ih _ _).1.trans h₃).trans h₁, ((ih _ _).2.trans h₄).trans h₂⟩
    · exact ih s n

/-- Once the loop has walked every key with a tagged entry, no tagged entry is left. The induction
is on the keys still to be walked, which cover the entries still to be found. -/
lemma purgeLoop_untagged {s : CacheService V} (h : s.WellIndexed) {tag : Tag} {keys : List Key}
    {n : ℕ} (hcover : ∀ {st k e}, s.entries st k = some e → tag ∈ e.tags → k ∈ keys) {st : Store}
    {k : Key} {e : CacheEntry V}
    (he : (CacheService.purgeLoop tag keys n s).2.entries st k = some e) : tag ∉ e.tags := by
  induction keys generalizing s n with
  | nil => exact fun ht => absurd (hcover he ht) (by simp)
  | cons key keys ih =>
    simp only [CacheService.purgeLoop] at he
    split at he
    · split at he
      · -- the key was in the response store, and in no other
        next s' hs' =>
        have hdel := entries_lruDelete s .response
        have hfound := lruDelete_fst s .response key
        rw [hs'] at hfound
        obtain ⟨old, hold⟩ := Option.isSome_iff_exists.mp hfound.symm
        refine ih (by simpa [hs'] using h.lruDelete .response key) ?_ he
        intro st' k' e' he' ht'
        rw [show s' = (s.lruDelete .response key).2 by rw [hs'], hdel] at he'
        split_ifs at he' with hk
        apply (List.mem_cons.mp (hcover he' ht')).resolve_left
        rintro rfl
        exact hk ⟨Store.owns_unique (h.owned he') (h.owned hold), rfl⟩
      · next s' hs' =>
        have hfound := lruDelete_fst s .response key
        rw [hs'] at hfound
        have hnone : s.entries .response key = none := by simpa using hfound.symm
        refine ih (WellIndexedBut.lruDelete (by simpa [hs'] using h.lruDelete .response key)
          .memo key) ?_ he
        intro st' k' e' he' ht'
        rw [entries_lruDelete] at he'
        split_ifs at he' with hk
        rw [show s' = (s.lruDelete .response key).2 by rw [hs'], entries_lruDelete] at he'
        split_ifs at he' with hk'
        apply (List.mem_cons.mp (hcover he' ht')).resolve_left
        rintro rfl
        cases st' with
        | response => exact hk' ⟨rfl, rfl⟩
        | memo => exact hk ⟨rfl, rfl⟩
    · next hgone =>
      refine ih h ?_ he
      intro st' k' e' he' ht'
      apply (List.mem_cons.mp (hcover he' ht')).resolve_left
      rintro rfl
      exact hgone (h.indexed (by simp) he' ht')

@[simp] lemma entries_bump (s : CacheService V) (tag : Tag) (st : Store) :
    (s.bump tag).entries st = s.entries st := by cases st <;> rfl

lemma WellIndexedBut.bump {s : CacheService V} (h : s.WellIndexed) (tag : Tag) :
    (s.bump tag).WellIndexed :=
  ⟨fun he => h.owned (by rwa [entries_bump] at he),
    fun hx he ht => h.indexed hx (by rwa [entries_bump] at he) ht⟩

lemma purgeTag_snd (s : CacheService V) (tag : Tag) :
    (s.purgeTag tag).2 = match s.tagIndex tag with
      | none => s.bump tag
      | some keys => { (CacheService.purgeLoop tag keys 0 (s.bump tag)).2 with
          tagIndex := Function.update (CacheService.purgeLoop tag keys 0 (s.bump tag)).2.tagIndex
            tag none } := by
  simp only [CacheService.purgeTag]
  show Prod.snd (match s.tagIndex tag with | none => _ | some keys => _) = _
  cases s.tagIndex tag <;> rfl

/-- A purge leaves no entry with its tag, and adds none. -/
lemma entries_purgeTag {s : CacheService V} (h : s.WellIndexed) {tag : Tag} {st : Store} {k : Key}
    {e : CacheEntry V} (he : (s.purgeTag tag).2.entries st k = some e) :
    s.entries st k = some e ∧ tag ∉ e.tags := by
  rw [purgeTag_snd] at he
  have hcover : ∀ {st k e}, s.entries st k = some e → tag ∈ e.tags → k ∈ s.tagIndex.keys tag :=
    fun he ht => h.indexed (by simp) he ht
  split at he
  · next hnone =>
    rw [entries_bump] at he
    refine ⟨he, fun ht => ?_⟩
    simpa [TagIndex.keys, hnone] using hcover he ht
  · next keys hkeys =>
    have he : (CacheService.purgeLoop tag keys 0 (s.bump tag)).2.entries st k = some e := by
      cases st <;> exact he
    refine ⟨by simpa using entries_purgeLoop he, purgeLoop_untagged (h.bump tag) ?_ he⟩
    intro st k e he ht
    simpa [TagIndex.keys, hkeys] using hcover (by rwa [entries_bump] at he) ht

lemma WellIndexedBut.purgeTag {s : CacheService V} (h : s.WellIndexed) (tag : Tag) :
    (s.purgeTag tag).2.WellIndexed where
  owned he := h.owned (entries_purgeTag h he).1
  indexed {st k e t} _ he ht := by
    have htag := (entries_purgeTag h he).2
    rw [purgeTag_snd] at he ⊢
    split at he
    · next hnone => simpa [hnone] using (h.bump tag).indexed (by simp) he ht
    · next keys hkeys =>
      have he : (CacheService.purgeLoop tag keys 0 (s.bump tag)).2.entries st k = some e := by
        cases st <;> exact he
      have hin := ((h.bump tag).purgeLoop tag keys 0).indexed (by simp) he ht
      have hne : t ≠ tag := fun heq => htag (heq ▸ ht)
      dsimp only
      rw [TagIndex.keys_update, if_neg hne]
      exact hin

lemma purgeTag_versions (s : CacheService V) (tag : Tag) :
    (s.purgeTag tag).2.tagVersions = (s.bump tag).tagVersions ∧
      (s.purgeTag tag).2.epoch = s.epoch := by
  rw [purgeTag_snd]
  split
  · exact ⟨rfl, rfl⟩
  · next keys _ => exact purgeLoop_versions (s.bump tag) tag keys 0

lemma version_bump (s : CacheService V) (tag t : Tag) :
    (s.bump tag).version t = if t = tag then s.version tag + 1 else s.version t := by
  by_cases h : t = tag
  · subst h; simp [version, bump]
  · simp [version, bump, h]

/-! ### Clearing -/

lemma entries_clear (s : CacheService V) (st : Store) (k : Key) : s.clear.entries st k = none := by
  cases st <;> rfl

lemma wellIndexed_clear (s : CacheService V) : s.clear.WellIndexed := by
  constructor <;> intro st <;> simp [entries_clear]

/-! ### Losing entries -/

/-- `get` or `getMemo`, by the store it reads. -/
def getFrom (s : CacheService V) : Store → LruChoice → Key → Option V × CacheService V
  | .response => s.get
  | .memo => s.getMemo

/-- `s'` is `s` after some entries left it: a lookup, an eviction. -/
structure Shrinks (s s' : CacheService V) : Prop where
  indexed : s'.WellIndexed
  entries : ∀ {st k e}, s'.entries st k = some e → s.entries st k = some e
  versions : s'.tagVersions = s.tagVersions
  epoch : s'.epoch = s.epoch

lemma shrinks_lruDelete {s : CacheService V} (h : s.WellIndexed) (st : Store) (key : Key) :
    s.Shrinks (s.lruDelete st key).2 where
  indexed := h.lruDelete st key
  entries {st' k e} he := by
    rw [entries_lruDelete] at he
    split_ifs at he
    exact he
  versions := (lruDelete_versions s st key).1
  epoch := (lruDelete_versions s st key).2

lemma shrinks_lruGet {s : CacheService V} (h : s.WellIndexed) (st : Store) (c : LruChoice)
    (key : Key) : s.Shrinks (s.lruGet st c key).2 := by
  simp only [lruGet]
  split
  · exact shrinks_lruDelete h st key
  · exact ⟨h, id, rfl, rfl⟩

lemma getFrom_eq (s : CacheService V) (st : Store) (c : LruChoice) (key : Key) :
    ∃ hits misses, s.getFrom st c key = ((s.lruGet st c key).1.map CacheEntry.value,
      { (s.lruGet st c key).2 with hits := hits, misses := misses }) := by
  cases st with
  | response =>
    show ∃ hits misses, s.get c key = _
    simp only [get]
    rcases s.lruGet .response c key with ⟨_ | e, s'⟩ <;> exact ⟨_, _, rfl⟩
  | memo =>
    show ∃ hits misses, s.getMemo c key = _
    simp only [getMemo]
    rcases s.lruGet .memo c key with ⟨_ | e, s'⟩ <;> exact ⟨_, _, rfl⟩

/-- Counting hits and misses touches no entry. -/
lemma Shrinks.counted {s s' : CacheService V} (h : s.Shrinks s') (hits misses : ℕ) :
    s.Shrinks { s' with hits := hits, misses := misses } := by
  have hentries : ∀ st, CacheService.entries { s' with hits := hits, misses := misses } st
      = s'.entries st := by
    intro st
    cases st <;> rfl
  refine ⟨⟨?_, ?_⟩, ?_, h.versions, h.epoch⟩
  · intro st k e he
    exact h.indexed.owned (by rwa [hentries] at he)
  · intro st k e t hx he ht
    exact h.indexed.indexed hx (by rwa [hentries] at he) ht
  · intro st k e he
    exact h.entries (by rwa [hentries] at he)

lemma shrinks_getFrom {s : CacheService V} (h : s.WellIndexed) (st : Store) (c : LruChoice)
    (key : Key) : s.Shrinks (s.getFrom st c key).2 := by
  obtain ⟨hits, misses, heq⟩ := getFrom_eq s st c key
  rw [heq]
  exact (shrinks_lruGet h st c key).counted hits misses

/-- What a lookup returns is the value of the entry under the key. -/
lemma getFrom_eq_some {s : CacheService V} {st : Store} {c : LruChoice} {key : Key} {v : V}
    (h : (s.getFrom st c key).1 = some v) : ∃ e, s.entries st key = some e ∧ e.value = v := by
  obtain ⟨hits, misses, heq⟩ := getFrom_eq s st c key
  rw [heq] at h
  obtain ⟨e, he, hv⟩ := Option.map_eq_some_iff.mp h
  simp only [lruGet] at he
  split at he
  · simp at he
  · exact ⟨e, he, hv⟩

end CacheService

end SafeerApi.Cache
