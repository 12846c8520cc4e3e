import SafeerApi.Common.Problem
import SafeerApi.Common.ListParams
import SafeerApi.Cache.Index

/-!
# Serving public reads from the cache (`cache.interceptor.ts`)

The key of a response joins the texts of the query parameters its route declares, in the declared
order, with no escaping of the separators.
-/

namespace SafeerApi.Cache

open Common Lib

/-! ### The key -/

/-- The parts of the key: one for each declared parameter that is present. -/
def keyParts (keyParams : List String) (query : Query) : List String :=
  keyParams.filterMap fun key => (query key).map fun value => key ++ "=" ++ value.toText

def buildCacheKey (path : String) (keyParams : List String) (query : Query) : Key :=
  "GET:" ++ (path ++ ":" ++ "&".intercalate (keyParts keyParams query))

lemma buildCacheKey_owned (path : String) (keyParams : List String) (query : Query) :
    Store.response.Owns (buildCacheKey path keyParams query) :=
  Store.owns_append .response _

/-- Keys of paths without a colon are equal only for equal paths and equal query texts. -/
lemma buildCacheKey_inj {path path' : String} {keyParams keyParams' : List String}
    {query query₂ : Query} (hpath : ':' ∉ path.toList) (hpath' : ':' ∉ path'.toList)
    (h : buildCacheKey path keyParams query = buildCacheKey path' keyParams' query₂) :
    path = path' ∧ "&".intercalate (keyParts keyParams query)
      = "&".intercalate (keyParts keyParams' query₂) := by
  have h := congrArg String.toList h
  simp only [buildCacheKey, String.toList_append, List.append_assoc, List.append_cancel_left_eq] at h
  obtain ⟨hp, hq⟩ := append_sep_inj (c := ':') hpath hpath' h
  exact ⟨String.toList_inj.mp hp, String.toList_inj.mp hq⟩

/-! ### Queries the key can be read back from -/

/-- No declared parameter is repeated, and none has a `&` in its text. -/
def Plain (keyParams : List String) (query : Query) : Prop :=
  ∀ key ∈ keyParams, ∀ value, query key = some value → ∃ s, value = .text s ∧ '&' ∉ s.toList

lemma toList_keyParts (keyParams : List String) (query : Query) :
    ("&".intercalate (keyParts keyParams query)).toList
      = ['&'].intercalate ((keyParts keyParams query).map String.toList) := by
  simp

lemma mem_keyParts {keyParams : List String} {query : Query} {part : String} :
    part ∈ keyParts keyParams query ↔
      ∃ key ∈ keyParams, ∃ value, query key = some value ∧ key ++ "=" ++ value.toText = part := by
  simp [keyParts]

/-- The parts of a plain query's key can be told apart. -/
lemma keyParts_inj {keyParams : List String} (hnames : ∀ key ∈ keyParams, '&' ∉ key.toList)
    {query query₂ : Query} (hq : Plain keyParams query) (hq' : Plain keyParams query₂)
    (h : "&".intercalate (keyParts keyParams query) = "&".intercalate (keyParts keyParams query₂)) :
    keyParts keyParams query = keyParts keyParams query₂ := by
  have hfree : ∀ query, Plain keyParams query →
      ∀ p ∈ (keyParts keyParams query).map String.toList, '&' ∉ p := by
    intro query hq p hp
    obtain ⟨part, hpart, rfl⟩ := List.mem_map.mp hp
    obtain ⟨key, hkey, value, hvalue, rfl⟩ := mem_keyParts.mp hpart
    obtain ⟨s, rfl, hs⟩ := hq key hkey value hvalue
    simp [QueryValue.toText, hnames key hkey, hs]
  have hne : ∀ query, ∀ p ∈ (keyParts keyParams query).map String.toList, p ≠ [] := by
    intro query p hp
    obtain ⟨part, hpart, rfl⟩ := List.mem_map.mp hp
    obtain ⟨key, hkey, value, hvalue, rfl⟩ := mem_keyParts.mp hpart
    simp
  have h := congrArg String.toList h
  rw [toList_keyParts, toList_keyParts] at h
  have hnil : (keyParts keyParams query).map String.toList = [] ↔
      (keyParts keyParams query₂).map String.toList = [] := by
    rw [← intercalate_eq_nil (c := '&') (hne query), h, intercalate_eq_nil (hne query₂)]
  exact List.map_injective_iff.mpr (fun _ _ => String.toList_inj.mp)
    (intercalate_inj hnil (hfree query hq) (hfree query₂ hq') h)

/-- Equal parts come from equal values. The induction is on the declared names, which are distinct
and tell which parameter a part belongs to. -/
lemma toText_eq_of_keyParts {keyParams : List String} (hnodup : keyParams.Nodup)
    (hnames : ∀ key ∈ keyParams, '=' ∉ key.toList) {query query₂ : Query}
    (h : keyParts keyParams query = keyParts keyParams query₂) :
    ∀ key ∈ keyParams, (query key).map QueryValue.toText = (query₂ key).map QueryValue.toText := by
  induction keyParams with
  | nil => simp
  | cons name names ih =>
    rw [List.nodup_cons] at hnodup
    have hname := hnames name List.mem_cons_self
    have hnames' : ∀ key ∈ names, '=' ∉ key.toList :=
      fun key hkey => hnames key (List.mem_cons_of_mem _ hkey)
    have hsplit : ∀ {key key' : String} {v v' : QueryValue}, '=' ∉ key.toList → '=' ∉ key'.toList →
        key ++ "=" ++ v.toText = key' ++ "=" ++ v'.toText → key = key' ∧ v.toText = v'.toText := by
      intro key key' v v' hkey hkey' heq
      have heq := congrArg String.toList heq
      simp only [String.toList_append, List.append_assoc] at heq
      obtain ⟨hk, hv⟩ := append_sep_inj (c := '=') hkey hkey' heq
      exact ⟨String.toList_inj.mp hk, String.toList_inj.mp hv⟩
    -- a part of a later parameter does not begin with this parameter's name
    have hlater : ∀ {query : Query} {v : QueryValue} {rest : List String},
        keyParts names query ≠ (name ++ "=" ++ v.toText) :: rest := by
      intro query v rest heq
      have hmem : name ++ "=" ++ v.toText ∈ keyParts names query := by simp [heq]
      obtain ⟨key, hkey, v', -, hpart⟩ := mem_keyParts.mp hmem
      obtain ⟨rfl, -⟩ := hsplit (hnames' key hkey) hname hpart
      exact hnodup.1 hkey
    have hhead : (query name).map QueryValue.toText = (query₂ name).map QueryValue.toText ∧
        keyParts names query = keyParts names query₂ := by
      simp only [keyParts, List.filterMap_cons] at h
      cases hv : query name <;> cases hv' : query₂ name <;> simp only [hv, hv', Option.map] at h
      · exact ⟨rfl, h⟩
      · exact absurd h hlater
      · exact absurd h.symm hlater
      · obtain ⟨hpart, hrest⟩ := List.cons.inj h
        exact ⟨by simpa using (hsplit hname hname hpart).2, hrest⟩
    intro key hkey
    rcases List.mem_cons.mp hkey with rfl | hkey
    · exact hhead.1
    · exact ih hnodup.2 hnames' hhead.2 key hkey

/-- Plain queries with one key agree on every declared parameter. -/
lemma eq_of_plain {keyParams : List String} (hnodup : keyParams.Nodup)
    (hnames : ∀ key ∈ keyParams, '&' ∉ key.toList ∧ '=' ∉ key.toList) {query query₂ : Query}
    (hq : Plain keyParams query) (hq' : Plain keyParams query₂)
    (h : "&".intercalate (keyParts keyParams query) = "&".intercalate (keyParts keyParams query₂)) :
    ∀ key ∈ keyParams, query key = query₂ key := by
  intro key hkey
  have hparts := keyParts_inj (fun key hkey => (hnames key hkey).1) hq hq' h
  have htext := toText_eq_of_keyParts hnodup (fun key hkey => (hnames key hkey).2) hparts key hkey
  cases hv : query key with
  | none => simpa [hv, eq_comm] using htext
  | some v =>
    cases hv' : query₂ key with
    | none => simp [hv, hv'] at htext
    | some v' =>
      obtain ⟨s, rfl, -⟩ := hq key hkey v hv
      obtain ⟨s', rfl, -⟩ := hq' key hkey v' hv'
      simpa [hv, hv', QueryValue.toText] using htext

/-- A single parameter's text can always be read back from the key. -/
lemma toText_eq_of_key {name : String} {query query₂ : Query}
    (h : "&".intercalate (keyParts [name] query) = "&".intercalate (keyParts [name] query₂)) :
    (query name).map QueryValue.toText = (query₂ name).map QueryValue.toText := by
  have h := congrArg String.toList h
  cases hv : query name <;> cases hv' : query₂ name <;>
    simp_all [keyParts]

/-! ### Answering a request -/

/-- What a handler leaves: its outcome and what it marks on the request. -/
structure Handled (β : Type*) where
  outcome : Except Problem β
  skipCacheWrite : Bool := false
  previewVerified : Bool := false

/-- The `Cache-Control` header of a response. -/
inductive CacheControl where
  | shared
  | privateNoStore
  deriving DecidableEq, Repr

structure Response (β : Type*) where
  outcome : Except Problem β
  cacheControl : Option CacheControl

variable {β : Type*}

/-- The response to a request the handler answers. A thrown outcome sets no header here. -/
def Handled.respond (h : Handled β) : Response β :=
  match h.outcome with
  | .error p => ⟨.error p, none⟩
  | .ok body => ⟨.ok body, some (if h.previewVerified then .privateNoStore else .shared)⟩

@[simp] lemma Handled.respond_outcome (h : Handled β) : h.respond.outcome = h.outcome := by
  cases heq : h.outcome <;> simp [Handled.respond, heq]

/-- `CacheInterceptor.intercept` of a GET request whose handler runs without interruption. -/
def intercept (s : CacheService β) (previewRequested : Bool) (key : Key) (tags : List Tag)
    (handled : Handled β) (onGet onSet : LruChoice) : Response β × CacheService β :=
  match if previewRequested then (none, s) else s.get onGet key with
  | (some body, s) => (⟨.ok body, some .shared⟩, s)
  | (none, s) =>
    let version := s.versionOf tags
    match handled.outcome with
    | .error _ => (handled.respond, s)
    | .ok body =>
      if handled.previewVerified || handled.skipCacheWrite then (handled.respond, s)
      else (handled.respond, (s.set onSet key body tags (some version)).2)

/-- What a request leaves in the stores was there before, or is the handler's own body, which is
neither a preview nor marked as not to be stored. -/
lemma intercept_entries {s : CacheService β} (hs : s.WellIndexed) {key : Key}
    (howns : Store.response.Owns key) (previewRequested : Bool) (tags : List Tag)
    (handled : Handled β) (onGet onSet : LruChoice) :
    (intercept s previewRequested key tags handled onGet onSet).2.WellIndexed ∧
      ∀ st k e, (intercept s previewRequested key tags handled onGet onSet).2.entries st k = some e →
        s.entries st k = some e ∨
          (k = key ∧ handled.outcome = .ok e.value ∧ handled.previewVerified = false ∧
            (intercept s previewRequested key tags handled onGet onSet).1 = handled.respond) := by
  have hshrink : s.Shrinks (if previewRequested then (none, s) else s.get onGet key).2 := by
    cases previewRequested with
    | true => exact ⟨hs, id, rfl, rfl⟩
    | false => exact CacheService.shrinks_getFrom hs .response onGet key
  simp only [intercept]
  split
  · next body s' hget =>
    rw [hget] at hshrink
    exact ⟨hshrink.indexed, fun st k e he => Or.inl (hshrink.entries he)⟩
  · next s' hget =>
    rw [hget] at hshrink
    cases houtcome : handled.outcome with
    | error p => exact ⟨hshrink.indexed, fun st k e he => Or.inl (hshrink.entries he)⟩
    | ok body =>
      simp only
      split_ifs with hskip
      · exact ⟨hshrink.indexed, fun st k e he => Or.inl (hshrink.entries he)⟩
      · refine ⟨hshrink.indexed.setIn howns onSet body tags _, ?_⟩
        intro st k e he
        rcases CacheService.entries_setIn he with he | ⟨rfl, rfl, -⟩
        · exact Or.inl (hshrink.entries he)
        · exact Or.inr ⟨rfl, rfl, (Bool.or_eq_false_iff.mp (Bool.eq_false_iff.mpr hskip)).1, rfl⟩

/-- A response is the handler's own, or a body that was stored under the key. -/
lemma intercept_answer (s : CacheService β) (previewRequested : Bool) (key : Key) (tags : List Tag)
    (handled : Handled β) (onGet onSet : LruChoice) :
    (intercept s previewRequested key tags handled onGet onSet).1 = handled.respond ∨
      ∃ e, s.entries .response key = some e ∧
        (intercept s previewRequested key tags handled onGet onSet).1
          = ⟨.ok e.value, some .shared⟩ := by
  simp only [intercept]
  split
  · next body s' hget =>
    cases previewRequested with
    | true => cases hget
    | false =>
      have hhit : (s.getFrom .response onGet key).1 = some body := congrArg Prod.fst hget
      obtain ⟨e, he, rfl⟩ := CacheService.getFrom_eq_some hhit
      exact Or.inr ⟨e, he, rfl⟩
  · apply Or.inl
    cases handled.outcome with
    | error p => rfl
    | ok body =>
      simp only
      split_ifs <;> rfl

end SafeerApi.Cache
