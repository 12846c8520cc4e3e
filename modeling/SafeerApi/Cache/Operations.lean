import SafeerApi.Cache.Index

/-!
# Sequences of operations on the cache

Any sequence of calls on the service, with entries that leave a store between two calls because
they are evicted or expire. The callers put the prefix of its store on every key they set. The tag
index is complete in every state such a sequence reaches, so a purge leaves no entry with its tag
in either store.
-/

namespace SafeerApi.Cache

/-- A call on the service, or an entry that leaves a store on its own. -/
inductive Operation (V : Type*) where
  | set (c : LruChoice) (key : Key) (value : V) (tags : List Tag) (ifVersion : Option String)
  | setMemo (c : LruChoice) (key : Key) (value : V) (tags : List Tag) (ifVersion : Option String)
  | get (c : LruChoice) (key : Key)
  | getMemo (c : LruChoice) (key : Key)
  | purgeTag (tag : Tag)
  | clear
  | evict (st : Store) (key : Key)

namespace CacheService

variable {V : Type*}

def perform (s : CacheService V) : Operation V → CacheService V
  | .set c key value tags ifVersion => (s.set c key value tags ifVersion).2
  | .setMemo c key value tags ifVersion => (s.setMemo c key value tags ifVersion).2
  | .get c key => (s.get c key).2
  | .getMemo c key => (s.getMemo c key).2
  | .purgeTag tag => (s.purgeTag tag).2
  | .clear => s.clear
  | .evict st key => s.evict st key

/-- The service after a sequence of operations. -/
def afterAll (ops : List (Operation V)) : CacheService V := ops.foldl perform (init V)

end CacheService

/-- What is set has the prefix of its store; what is only looked up may be any key. -/
def Operation.Prefixed {V : Type*} : Operation V → Prop
  | .set _ key _ _ _ => Store.response.Owns key
  | .setMemo _ key _ _ _ => Store.memo.Owns key
  | _ => True

namespace CacheService

variable {V : Type*}

/-- No operation leaves an entry unlisted. -/
lemma WellIndexedBut.perform {s : CacheService V} (h : s.WellIndexed) {op : Operation V}
    (hop : op.Prefixed) : (s.perform op).WellIndexed := by
  cases op with
  | set c key value tags ifVersion => exact h.setIn hop c value tags ifVersion
  | setMemo c key value tags ifVersion => exact h.setIn hop c value tags ifVersion
  | get c key => exact (shrinks_getFrom h .response c key).indexed
  | getMemo c key => exact (shrinks_getFrom h .memo c key).indexed
  | purgeTag tag => exact h.purgeTag tag
  | clear => exact wellIndexed_clear s
  | evict st key => exact h.lruDelete st key

lemma WellIndexedBut.performAll {s : CacheService V} (h : s.WellIndexed) {ops : List (Operation V)}
    (hops : ∀ op ∈ ops, op.Prefixed) : (ops.foldl CacheService.perform s).WellIndexed := by
  induction ops generalizing s with
  | nil => exact h
  | cons op ops ih =>
    have hfirst : (s.perform op).WellIndexed := h.perform (hops op List.mem_cons_self)
    exact ih hfirst fun op' hop' => hops op' (List.mem_cons_of_mem _ hop')

/-- After any sequence of operations every entry of either store is listed under each of its tags,
and a purge of a tag then leaves no entry with it. -/
theorem tagIndex_complete {ops : List (Operation V)} (hops : ∀ op ∈ ops, op.Prefixed) :
    (∀ st key e, (afterAll ops).entries st key = some e → ∀ tag ∈ e.tags,
      key ∈ (afterAll ops).tagIndex.keys tag) ∧
    ∀ tag st key e, ((afterAll ops).purgeTag tag).2.entries st key = some e → tag ∉ e.tags := by
  have h : (afterAll ops).WellIndexed := wellIndexed_init.performAll hops
  constructor
  · intro st key e he tag htag
    exact h.indexed (by simp) he htag
  · intro tag st key e he
    exact (entries_purgeTag h he).2

/-- A page is stored again with another tag, and a memo shares its first tag. -/
def retagging : List (Operation ℕ) :=
  [.set {} "GET:/api/v1/home?" 1 ["home"] none, .setMemo {} "asset-public:7" 1 ["home"] none,
    .set {} "GET:/api/v1/home?" 2 ["pages"] none, .getMemo {} "asset-public:7"]

lemma retagging_prefixed : ∀ op ∈ retagging, op.Prefixed := by
  simp [retagging, Operation.Prefixed, Store.Owns, Store.keyPrefix]

theorem tagIndex_complete_retagging :
    (∀ tag ∈ ["pages"], "GET:/api/v1/home?" ∈ (afterAll retagging).tagIndex.keys tag) ∧
    ∀ st key e, ((afterAll retagging).purgeTag "home").2.entries st key = some e →
      "home" ∉ e.tags :=
  ⟨(tagIndex_complete retagging_prefixed).1 .response _ ⟨2, ["pages"]⟩ rfl,
    (tagIndex_complete retagging_prefixed).2 "home"⟩

end CacheService

end SafeerApi.Cache
