import Mathlib.Data.List.Basic
import Mathlib.Logic.Function.Basic
import Mathlib.Tactic.Common
import SafeerApi.Lib.Joined

/-!
# The in-process cache (`cache.service.ts`)

Two LRU stores, one for responses and one for memos, share one tag index. `lru-cache` itself is
outside the repository: a store is a partial map, and what the library decides on its own (which
entries it evicts, whether it finds an entry expired, whether a value fits) is part of the call,
in `LruChoice`. It calls `dispose` for every entry that leaves a store.
-/

namespace SafeerApi.Cache

abbrev Key := String
abbrev Tag := String

/-- What is stored under a key: the value and the tags it can be purged by. -/
structure CacheEntry (V : Type*) where
  value : V
  tags : List Tag

/-- The two stores behind the service. -/
inductive Store where
  | response
  | memo
  deriving DecidableEq, Repr

/-! ### The tag index -/

/-- `Map<string, Set<string>>`: a `Set` is the list of its elements in insertion order. -/
abbrev TagIndex := Tag → Option (List Key)

/-- The keys listed under a tag. -/
def TagIndex.keys (ix : TagIndex) (tag : Tag) : List Key := (ix tag).getD []

/-- `Set.add`: a key that is already there keeps its place. -/
def setAdd (keys : List Key) (key : Key) : List Key :=
  if key ∈ keys then keys else keys ++ [key]

def TagIndex.tagKey (ix : TagIndex) (key : Key) : List Tag → TagIndex
  | [] => ix
  | tag :: tags => TagIndex.tagKey (Function.update ix tag (some (setAdd (ix.keys tag) key))) key tags

def TagIndex.untagKey (ix : TagIndex) (key : Key) : List Tag → TagIndex
  | [] => ix
  | tag :: tags =>
    match ix tag with
    | none => TagIndex.untagKey ix key tags
    | some keys =>
      let keys := keys.filter (· ≠ key)
      TagIndex.untagKey (Function.update ix tag (if keys.isEmpty then none else some keys)) key tags

@[simp] lemma mem_setAdd {keys : List Key} {key k : Key} :
    k ∈ setAdd keys key ↔ k ∈ keys ∨ k = key := by
  simp only [setAdd]
  split_ifs with h
  · constructor
    · exact Or.inl
    · rintro (h' | rfl) <;> assumption
  · simp

lemma TagIndex.keys_update (ix : TagIndex) (tag t : Tag) (o : Option (List Key)) :
    TagIndex.keys (Function.update ix tag o) t = if t = tag then o.getD [] else ix.keys t := by
  by_cases h : t = tag
  · subst h; simp [TagIndex.keys]
  · simp [TagIndex.keys, h]

/-- Indexing a key lists it under its tags and changes nothing else. -/
@[simp] lemma TagIndex.mem_tagKey (ix : TagIndex) (key k : Key) (tags : List Tag) (t : Tag) :
    k ∈ (ix.tagKey key tags).keys t ↔ k ∈ ix.keys t ∨ (k = key ∧ t ∈ tags) := by
  induction tags generalizing ix with
  | nil => simp [TagIndex.tagKey]
  | cons tag tags ih =>
    rw [TagIndex.tagKey, ih, TagIndex.keys_update]
    by_cases h : t = tag
    · subst h; simp; tauto
    · simp [h]

/-- Unindexing a key takes it off its tags and changes nothing else. -/
@[simp] lemma TagIndex.mem_untagKey (ix : TagIndex) (key k : Key) (tags : List Tag) (t : Tag) :
    k ∈ (ix.untagKey key tags).keys t ↔ k ∈ ix.keys t ∧ ¬(k = key ∧ t ∈ tags) := by
  induction tags generalizing ix with
  | nil => simp [TagIndex.untagKey]
  | cons tag tags ih =>
    rw [TagIndex.untagKey]
    split
    · next hnone =>
      rw [ih]
      by_cases h : t = tag
      · subst h; simp [TagIndex.keys, hnone]
      · simp [h]
    · next keys hsome =>
      rw [ih, TagIndex.keys_update]
      by_cases h : t = tag
      · subst h
        -- an emptied set leaves the map, which reads the same as the empty set
        have hempty : ((if (keys.filter (· ≠ key)).isEmpty then none
            else some (keys.filter (· ≠ key))) : Option (List Key)).getD []
            = keys.filter (· ≠ key) := by
          split_ifs with he
          · simpa using (List.isEmpty_iff.mp he).symm
          · rfl
        simp only [if_true, hempty]
        simp [TagIndex.keys, hsome]
        tauto
      · simp [h]

/-! ### The service -/

structure CacheService (V : Type*) where
  cache : Key → Option (CacheEntry V)
  memoCache : Key → Option (CacheEntry V)
  tagIndex : TagIndex
  tagVersions : Tag → Option ℕ
  epoch : ℕ
  hits : ℕ
  misses : ℕ

/-- The service as the constructor leaves it. -/
def CacheService.init (V : Type*) : CacheService V where
  cache := fun _ => none
  memoCache := fun _ => none
  tagIndex := fun _ => none
  tagVersions := fun _ => none
  epoch := 0
  hits := 0
  misses := 0

/-- What `lru-cache` decides in a call: whether it finds the entry expired, whether it refuses the
value as larger than the whole store, and which entries it evicts to make room. -/
structure LruChoice where
  stale : Bool := false
  tooBig : Bool := false
  evicted : List Key := []

namespace CacheService

variable {V : Type*}

/-- One of the two stores. -/
def entries (s : CacheService V) : Store → Key → Option (CacheEntry V)
  | .response => s.cache
  | .memo => s.memoCache

/-- Replace what one store holds under `key`. -/
def put (s : CacheService V) (st : Store) (key : Key) (e : Option (CacheEntry V)) :
    CacheService V :=
  match st with
  | .response => { s with cache := Function.update s.cache key e }
  | .memo => { s with memoCache := Function.update s.memoCache key e }

def tagKey (s : CacheService V) (key : Key) (tags : List Tag) : CacheService V :=
  { s with tagIndex := s.tagIndex.tagKey key tags }

def untagKey (s : CacheService V) (key : Key) (tags : List Tag) : CacheService V :=
  { s with tagIndex := s.tagIndex.untagKey key tags }

/-- The `dispose` callback of both stores. -/
def dispose (s : CacheService V) (key : Key) (e : CacheEntry V) : CacheService V :=
  s.untagKey key e.tags

/-- Untag a key under the tags of the entry found there, if one is. -/
def untagOld (s : CacheService V) (key : Key) : Option (CacheEntry V) → CacheService V
  | none => s
  | some old => s.untagKey key old.tags

/-- `LRUCache.delete`: whether the key was there, and the store without it. -/
def lruDelete (s : CacheService V) (st : Store) (key : Key) : Bool × CacheService V :=
  match s.entries st key with
  | none => (false, s)
  | some e => (true, (s.dispose key e).put st key none)

/-- `LRUCache.set`: disposes of a replaced entry, stores the new one if it fits, then evicts. -/
def lruSet (s : CacheService V) (st : Store) (c : LruChoice) (key : Key) (e : CacheEntry V) :
    CacheService V :=
  let s := s.untagOld key (s.entries st key)
  if c.tooBig then s.put st key none
  else (c.evicted.filter (· ≠ key)).foldl (fun s k => (s.lruDelete st k).2) (s.put st key (some e))

/-- `LRUCache.get`: an expired entry is deleted and not returned. -/
def lruGet (s : CacheService V) (st : Store) (c : LruChoice) (key : Key) :
    Option (CacheEntry V) × CacheService V :=
  if c.stale then (none, (s.lruDelete st key).2) else (s.entries st key, s)

def get (s : CacheService V) (c : LruChoice) (key : Key) : Option V × CacheService V :=
  match s.lruGet .response c key with
  | (none, s) => (none, { s with misses := s.misses + 1 })
  | (some e, s) => (some e.value, { s with hits := s.hits + 1 })

def getMemo (s : CacheService V) (c : LruChoice) (key : Key) : Option V × CacheService V :=
  match s.lruGet .memo c key with
  | (none, s) => (none, s)
  | (some e, s) => (some e.value, s)

/-- The purge version of one tag. -/
def version (s : CacheService V) (tag : Tag) : ℕ := (s.tagVersions tag).getD 0

def versionOf (s : CacheService V) (tags : List Tag) : String :=
  toString s.epoch ++ ":" ++ ",".intercalate (tags.map fun t => toString (s.version t))

/-- The common body of `set` and `setMemo`. -/
def setIn (st : Store) (s : CacheService V) (c : LruChoice) (key : Key) (value : V)
    (tags : List Tag) (ifVersion : Option String) : Bool × CacheService V :=
  if ifVersion.any (· ≠ s.versionOf tags) then (false, s)
  else
    -- `peek` does not return an expired entry
    let s := s.untagOld key (if c.stale then none else s.entries st key)
    (true, (s.lruSet st c key ⟨value, tags⟩).tagKey key tags)

def set : CacheService V → LruChoice → Key → V → List Tag → Option String →
    Bool × CacheService V := setIn .response

def setMemo : CacheService V → LruChoice → Key → V → List Tag → Option String →
    Bool × CacheService V := setIn .memo

/-- The loop of `purgeTag`. It walks the set that its own deletions shrink: a key that has left
the set before its turn is not visited. -/
def purgeLoop (tag : Tag) : List Key → ℕ → CacheService V → ℕ × CacheService V
  | [], purged, s => (purged, s)
  | key :: keys, purged, s =>
    if key ∈ s.tagIndex.keys tag then
      match s.lruDelete .response key with
      | (true, s) => purgeLoop tag keys (purged + 1) s
      | (false, s) => purgeLoop tag keys purged (s.lruDelete .memo key).2
    else purgeLoop tag keys purged s

/-- The first statement of `purgeTag`: every snapshot of the tag taken so far is outdated. -/
def bump (s : CacheService V) (tag : Tag) : CacheService V :=
  { s with tagVersions := Function.update s.tagVersions tag (some (s.version tag + 1)) }

def purgeTag (s : CacheService V) (tag : Tag) : ℕ × CacheService V :=
  let s := s.bump tag
  match s.tagIndex tag with
  | none => (0, s)
  | some keys =>
    let (purged, s) := purgeLoop tag keys 0 s
    (purged, { s with tagIndex := Function.update s.tagIndex tag none })

/-- The stores' own `clear` disposes of every entry, but `tagIndex.clear()` comes after it. -/
def clear (s : CacheService V) : CacheService V :=
  { s with
    epoch := s.epoch + 1
    cache := fun _ => none
    memoCache := fun _ => none
    tagIndex := fun _ => none }

/-- An entry leaves a store on its own: evicted by a later call, or found expired. -/
def evict (s : CacheService V) (st : Store) (key : Key) : CacheService V := (s.lruDelete st key).2

/-! ### What each operation does to the stores, the index and the versions -/

@[simp] lemma entries_put (s : CacheService V) (st st' : Store) (key k : Key)
    (e : Option (CacheEntry V)) :
    (s.put st key e).entries st' k
      = if st' = st ∧ k = key then e else s.entries st' k := by
  cases st <;> cases st' <;> by_cases h : k = key <;> simp [put, entries, h]

@[simp] lemma tagIndex_put (s : CacheService V) (st : Store) (key : Key)
    (e : Option (CacheEntry V)) : (s.put st key e).tagIndex = s.tagIndex := by cases st <;> rfl

@[simp] lemma tagVersions_put (s : CacheService V) (st : Store) (key : Key)
    (e : Option (CacheEntry V)) : (s.put st key e).tagVersions = s.tagVersions := by cases st <;> rfl

@[simp] lemma epoch_put (s : CacheService V) (st : Store) (key : Key)
    (e : Option (CacheEntry V)) : (s.put st key e).epoch = s.epoch := by cases st <;> rfl

@[simp] lemma entries_tagKey (s : CacheService V) (st : Store) (key : Key) (tags : List Tag) :
    (s.tagKey key tags).entries st = s.entries st := by cases st <;> rfl

@[simp] lemma entries_untagKey (s : CacheService V) (st : Store) (key : Key) (tags : List Tag) :
    (s.untagKey key tags).entries st = s.entries st := by cases st <;> rfl

@[simp] lemma entries_untagOld (s : CacheService V) (st : Store) (key : Key)
    (o : Option (CacheEntry V)) : (s.untagOld key o).entries st = s.entries st := by
  cases o
  · rfl
  · exact entries_untagKey _ _ _ _

@[simp] lemma tagVersions_untagOld (s : CacheService V) (key : Key) (o : Option (CacheEntry V)) :
    (s.untagOld key o).tagVersions = s.tagVersions := by cases o <;> rfl

@[simp] lemma epoch_untagOld (s : CacheService V) (key : Key) (o : Option (CacheEntry V)) :
    (s.untagOld key o).epoch = s.epoch := by cases o <;> rfl

end CacheService

end SafeerApi.Cache
