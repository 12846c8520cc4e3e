import Mathlib.Algebra.Order.Ring.Unbundled.Rat
import Mathlib.Data.List.Nodup
import Mathlib.Data.List.Forall2
import SafeerApi.Common.ListParams

/-!
# Collapsing bilingual pairs (`locale.interceptor.ts`)

On the public routes every pair `xAr`, `xEn` of a response becomes one `x`. An object is the list of
its own properties in the order in which they were set; the order in which `Object.keys` lists them
is of no consequence to what is stated here, and neither is a prototype.
-/

namespace SafeerApi.Public

open Common

inductive Locale where
  | ar
  | en
  deriving DecidableEq, Repr

/-- What a handler returns. -/
inductive Payload where
  | null
  | undefined
  | bool (b : Bool)
  | number (x : ℚ)
  | string (s : String)
  | date (ms : ℤ)
  | buffer (bytes : List UInt8)
  | array (items : List Payload)
  | object (entries : List (String × Payload))

abbrev Entries := List (String × Payload)

def Entries.keys (entries : Entries) : List String := entries.map Prod.fst

/-! ### Keys -/

/-- `key.endsWith(suffix)`, and then what is before the suffix. -/
def withoutSuffix (suffix key : String) : Option String :=
  if suffix.toList <:+ key.toList then
    some (String.ofList (key.toList.take (key.toList.length - suffix.toList.length)))
  else none

/-- The bases of the pairs. -/
def mergeBases (keys : List String) : List String :=
  keys.filterMap fun key => (withoutSuffix "Ar" key).filter fun base => base ++ "En" ∈ keys

/-- `obj[key]` -/
def Entries.get (obj : Entries) (key : String) : Payload :=
  ((obj.find? fun e => e.1 = key).map Prod.snd).getD .undefined

/-- The property is set where it is, or added at the end. -/
def Entries.set : Entries → String → Payload → Entries
  | [], key, value => [(key, value)]
  | e :: entries, key, value =>
    if e.1 = key then (key, value) :: entries else e :: Entries.set entries key value

/-- `result[key] = value`, where `result` is a literal object: `__proto__` is no property of its own,
the assignment sets its prototype or does nothing. -/
def Entries.assign (result : Entries) (key : String) (value : Payload) : Entries :=
  if key = "__proto__" then result else result.set key value

/-! ### The collapse -/

/-- An English value is blank when there is none, and when it is a text of white space. -/
def Payload.isBlank : Payload → Bool
  | .null | .undefined => true
  | .string s => trim s = ""
  | _ => false

def useEn (locale : Locale) (enValue : Payload) : Bool := locale = .en && !enValue.isBlank

mutual

def collapseBilingual (locale : Locale) : Payload → Payload
  | .array items => .array (collapseItems locale items)
  | .object entries =>
    .object (collapseLoop locale entries (mergeBases (Entries.keys entries)) [] entries)
  | .null => .null
  | .undefined => .undefined
  | .bool b => .bool b
  | .number x => .number x
  | .string s => .string s
  | .date ms => .date ms
  | .buffer bytes => .buffer bytes

/-- `value.map(...)` -/
def collapseItems (locale : Locale) : List Payload → List Payload
  | [] => []
  | item :: items => collapseBilingual locale item :: collapseItems locale items

/-- The second loop, over the keys with their values. -/
def collapseLoop (locale : Locale) (obj : Entries) (bases : List String) (result : Entries) :
    List (String × Payload) → Entries
  | [] => result
  | (key, value) :: rest =>
    match (withoutSuffix "Ar" key).filter (· ∈ bases) with
    | some base =>
      let enValue := obj.get (base ++ "En")
      collapseLoop locale obj bases
        (result.assign base (if useEn locale enValue then enValue else value)) rest
    | none =>
      -- an English value was handled with its Arabic one
      match (withoutSuffix "En" key).filter (· ∈ bases) with
      | some _ => collapseLoop locale obj bases result rest
      | none =>
        collapseLoop locale obj bases (result.assign key (collapseBilingual locale value)) rest

end

/-! ### Pairs -/

lemma withoutSuffix_eq_some {suffix key base : String} :
    withoutSuffix suffix key = some base ↔ key = base ++ suffix := by
  rw [withoutSuffix]
  constructor
  · intro h
    split_ifs at h with hsuffix
    obtain ⟨before, hbefore⟩ := hsuffix
    obtain rfl := Option.some.inj h
    apply String.toList_inj.mp
    rw [String.toList_append, String.toList_ofList, ← hbefore, List.length_append,
      Nat.add_sub_cancel, List.take_left]
  · rintro rfl
    have hsuffix : suffix.toList <:+ (base ++ suffix).toList := by
      rw [String.toList_append]
      exact List.suffix_append _ _
    rw [if_pos hsuffix, String.toList_append, List.length_append, Nat.add_sub_cancel,
      List.take_left, String.ofList_toList]

/-- No key ends in both. -/
lemma append_ar_ne_append_en (x y : String) : x ++ "Ar" ≠ y ++ "En" := by
  intro h
  have hlists : x.toList ++ ['A', 'r'] = y.toList ++ ['E', 'n'] := by
    simpa using congrArg String.toList h
  have hsuffixes := (List.append_inj' hlists rfl).2
  revert hsuffixes
  decide

lemma append_right_inj {x y suffix : String} (h : x ++ suffix = y ++ suffix) : x = y := by
  have hlists : x.toList ++ suffix.toList = y.toList ++ suffix.toList := by
    simpa using congrArg String.toList h
  exact String.toList_inj.mp (List.append_cancel_right hlists)

/-- Both keys of the pair are there. -/
def IsPair (keys : List String) (base : String) : Prop := base ++ "Ar" ∈ keys ∧ base ++ "En" ∈ keys

/-- The key is one of a pair. -/
def Paired (keys : List String) (key : String) : Prop :=
  ∃ base, IsPair keys base ∧ (key = base ++ "Ar" ∨ key = base ++ "En")

lemma mem_mergeBases {keys : List String} {base : String} :
    base ∈ mergeBases keys ↔ IsPair keys base := by
  simp only [mergeBases, List.mem_filterMap, Option.filter_eq_some_iff, withoutSuffix_eq_some,
    decide_eq_true_eq, IsPair]
  constructor
  · rintro ⟨key, hkey, rfl, hen⟩
    exact ⟨hkey, hen⟩
  · rintro ⟨har, hen⟩
    exact ⟨_, har, rfl, hen⟩

/-- The base of a key of a pair. -/
lemma baseOf_eq_some {suffix key base : String} {keys : List String} :
    (withoutSuffix suffix key).filter (· ∈ mergeBases keys) = some base ↔
      key = base ++ suffix ∧ IsPair keys base := by
  rw [Option.filter_eq_some_iff, withoutSuffix_eq_some, decide_eq_true_eq, mem_mergeBases]

lemma baseOf_eq_none {suffix key : String} {keys : List String}
    (h : ∀ base, IsPair keys base → key ≠ base ++ suffix) :
    (withoutSuffix suffix key).filter (· ∈ mergeBases keys) = none := by
  rw [Option.eq_none_iff_forall_ne_some]
  intro base hbase
  obtain ⟨hkey, hpair⟩ := baseOf_eq_some.mp hbase
  exact h base hpair hkey

/-! ### Properties -/

namespace Entries

lemma mem_keys {entries : Entries} {key : String} :
    key ∈ entries.keys ↔ ∃ v, (key, v) ∈ entries := by
  simp [Entries.keys]

lemma get_eq {obj : Entries} (hkeys : obj.keys.Nodup) {key : String} {v : Payload}
    (h : (key, v) ∈ obj) : obj.get key = v := by
  induction obj with
  | nil => cases h
  | cons e obj ih =>
    obtain ⟨hfirst, hrest⟩ := List.nodup_cons.mp hkeys
    rcases List.mem_cons.mp h with rfl | h
    · simp [Entries.get]
    · have hne : e.1 ≠ key := by
        rintro rfl
        exact hfirst (mem_keys.mpr ⟨v, h⟩)
      have htail := ih hrest h
      simpa [Entries.get, hne] using htail

lemma set_eq {result : Entries} {key : String} (h : key ∉ result.keys) (v : Payload) :
    result.set key v = result ++ [(key, v)] := by
  induction result with
  | nil => rfl
  | cons e result ih =>
    rw [Entries.keys, List.map_cons, List.mem_cons, not_or] at h
    rw [Entries.set, if_neg (Ne.symm h.1), ih h.2, List.cons_append]

/-- Properties that are set one after another, each of its own name. -/
lemma foldl_assign {l result : Entries} (h : (Entries.keys (result ++ l)).Nodup) :
    l.foldl (fun r e => r.assign e.1 e.2) result
      = result ++ l.filter fun e => e.1 ≠ "__proto__" := by
  induction l generalizing result with
  | nil => simp
  | cons e l ih =>
    have hsplit : Entries.keys (result ++ e :: l)
        = result.keys ++ e.1 :: Entries.keys l := by simp [Entries.keys]
    rw [List.foldl_cons, Entries.assign]
    by_cases hproto : e.1 = "__proto__"
    · rw [if_pos hproto, List.filter_cons_of_neg (by simp [hproto])]
      refine ih ?_
      rw [hsplit] at h
      simpa [Entries.keys] using h.sublist (List.Sublist.append_left (List.sublist_cons_self _ _) _)
    · have hnew : e.1 ∉ result.keys := by
        rw [hsplit] at h
        exact fun hmem => (List.disjoint_of_nodup_append h) hmem List.mem_cons_self
      rw [if_neg hproto, set_eq hnew, List.filter_cons_of_pos (by simp [hproto]),
        ih (by simpa using h)]
      simp

end Entries

/-! ### The loop -/

/-- What one round of the loop sets. -/
def emitted (locale : Locale) (obj : Entries) (bases : List String) (e : String × Payload) :
    Option (String × Payload) :=
  match (withoutSuffix "Ar" e.1).filter (· ∈ bases) with
  | some base =>
    some (base, if useEn locale (obj.get (base ++ "En")) then obj.get (base ++ "En") else e.2)
  | none =>
    match (withoutSuffix "En" e.1).filter (· ∈ bases) with
    | some _ => none
    | none => some (e.1, collapseBilingual locale e.2)

lemma collapseLoop_eq (locale : Locale) (obj : Entries) (bases : List String)
    (entries result : Entries) : collapseLoop locale obj bases result entries
      = (entries.filterMap (emitted locale obj bases)).foldl (fun r e => r.assign e.1 e.2) result := by
  induction entries generalizing result with
  | nil => simp [collapseLoop]
  | cons e entries ih =>
    obtain ⟨key, value⟩ := e
    rw [collapseLoop]
    cases har : (withoutSuffix "Ar" key).filter (· ∈ bases) with
    | some base =>
      have hemit : emitted locale obj bases (key, value) = some (base,
          if useEn locale (obj.get (base ++ "En")) then obj.get (base ++ "En") else value) := by
        simp only [emitted, har]
      rw [List.filterMap_cons_some hemit, List.foldl_cons]
      exact ih _
    | none =>
      cases hen : (withoutSuffix "En" key).filter (· ∈ bases) with
      | some base =>
        have hemit : emitted locale obj bases (key, value) = none := by
          simp only [emitted, har, hen]
        rw [List.filterMap_cons_none hemit]
        exact ih _
      | none =>
        have hemit : emitted locale obj bases (key, value)
            = some (key, collapseBilingual locale value) := by simp only [emitted, har, hen]
        rw [List.filterMap_cons_some hemit, List.foldl_cons]
        exact ih _

lemma collapseItems_eq (locale : Locale) (items : List Payload) :
    collapseItems locale items = items.map (collapseBilingual locale) := by
  induction items with
  | nil => simp [collapseItems]
  | cons item items ih => rw [collapseItems, ih, List.map_cons]

section Round

variable {locale : Locale} {entries : Entries}

/-- What a round sets, for the keys of an object. -/
abbrev emits (locale : Locale) (entries : Entries) : String × Payload → Option (String × Payload) :=
  emitted locale entries (mergeBases entries.keys)

lemma emits_ar {base : String} (hpair : IsPair entries.keys base) (ar : Payload) :
    emits locale entries (base ++ "Ar", ar) = some (base,
      if useEn locale (entries.get (base ++ "En")) then entries.get (base ++ "En") else ar) := by
  rw [emits, emitted]
  simp only [baseOf_eq_some.mpr ⟨rfl, hpair⟩]

lemma emits_en {base : String} (hpair : IsPair entries.keys base) (en : Payload) :
    emits locale entries (base ++ "En", en) = none := by
  have har : (withoutSuffix "Ar" (base ++ "En")).filter (· ∈ mergeBases entries.keys) = none :=
    baseOf_eq_none fun b _ h => append_ar_ne_append_en b base h.symm
  rw [emits, emitted]
  simp only [har, baseOf_eq_some.mpr ⟨rfl, hpair⟩]

lemma emits_other {key : String} (h : ¬Paired entries.keys key) (v : Payload) :
    emits locale entries (key, v) = some (key, collapseBilingual locale v) := by
  have har : (withoutSuffix "Ar" key).filter (· ∈ mergeBases entries.keys) = none :=
    baseOf_eq_none fun base hpair heq => h ⟨base, hpair, .inl heq⟩
  have hen : (withoutSuffix "En" key).filter (· ∈ mergeBases entries.keys) = none :=
    baseOf_eq_none fun base hpair heq => h ⟨base, hpair, .inr heq⟩
  rw [emits, emitted]
  simp only [har, hen]

/-- Where a property of the result comes from. -/
lemma emits_cases {e e' : String × Payload} (h : emits locale entries e = some e') :
    (e.1 = e'.1 ++ "Ar" ∧ IsPair entries.keys e'.1 ∧
      e'.2 = if useEn locale (entries.get (e'.1 ++ "En")) then entries.get (e'.1 ++ "En") else e.2) ∨
    (e.1 = e'.1 ∧ ¬Paired entries.keys e'.1 ∧ e'.2 = collapseBilingual locale e.2) := by
  obtain ⟨key, v⟩ := e
  by_cases hpaired : Paired entries.keys key
  · obtain ⟨base, hpair, rfl | rfl⟩ := hpaired
    · rw [emits_ar hpair] at h
      obtain rfl := Option.some.inj h
      exact Or.inl ⟨rfl, hpair, rfl⟩
    · rw [emits_en hpair] at h
      cases h
  · rw [emits_other hpaired] at h
    obtain rfl := Option.some.inj h
    exact Or.inr ⟨rfl, hpaired, rfl⟩

/-- No property is set twice, when no base is another key. -/
lemma nodup_emits (hkeys : entries.keys.Nodup)
    (hfree : ∀ base, IsPair entries.keys base → base ∉ entries.keys) :
    (Entries.keys (entries.filterMap (emits locale entries))).Nodup := by
  rw [Entries.keys, List.Nodup, List.pairwise_map, List.pairwise_filterMap]
  have hdistinct : entries.Pairwise fun e e' => e.1 ≠ e'.1 := List.pairwise_map.mp hkeys
  refine hdistinct.imp_of_mem ?_
  intro e e' he he' hne b hb b' hb' heq
  have hmem : ∀ {x : String × Payload}, x ∈ entries → x.1 ∈ entries.keys :=
    fun hx => List.mem_map_of_mem hx
  rcases emits_cases hb with ⟨hkey, hpair, -⟩ | ⟨hkey, -, -⟩ <;>
    rcases emits_cases hb' with ⟨hkey', hpair', -⟩ | ⟨hkey', -, -⟩
  · exact hne (by rw [hkey, hkey', heq])
  · exact hfree b.1 hpair (by rw [heq, ← hkey']; exact hmem he')
  · exact hfree b'.1 hpair' (by rw [← heq, ← hkey]; exact hmem he)
  · exact hne (by rw [hkey, hkey', heq])

/-- What the collapse makes of an object. -/
lemma collapse_object (hkeys : entries.keys.Nodup)
    (hfree : ∀ base, IsPair entries.keys base → base ∉ entries.keys) :
    collapseBilingual locale (.object entries) = .object
      ((entries.filterMap (emits locale entries)).filter fun e => e.1 ≠ "__proto__") := by
  rw [collapseBilingual, collapseLoop_eq,
    Entries.foldl_assign (by simpa using nodup_emits hkeys hfree), List.nil_append]

end Round

/-! ### Payloads without clashes -/

/-- No array and no object. -/
def Payload.IsScalar : Payload → Prop
  | .array _ | .object _ => False
  | _ => True

@[simp] lemma Payload.isScalar_null : Payload.null.IsScalar := trivial

@[simp] lemma Payload.isScalar_bool (b : Bool) : (Payload.bool b).IsScalar := trivial

@[simp] lemma Payload.isScalar_number (x : ℚ) : (Payload.number x).IsScalar := trivial

@[simp] lemma Payload.isScalar_string (s : String) : (Payload.string s).IsScalar := trivial

/-- The values of pairs are scalars, and no base is another key or ends in one of the suffixes. -/
inductive Payload.Regular : Payload → Prop where
  | scalar {v : Payload} (h : v.IsScalar) : Regular v
  | array {items : List Payload} (h : ∀ v ∈ items, Regular v) : Regular (.array items)
  | object {entries : Entries} (hkeys : entries.keys.Nodup)
      (hscalar : ∀ e ∈ entries, Paired entries.keys e.1 → e.2.IsScalar)
      (hfree : ∀ base, IsPair entries.keys base → base ∉ entries.keys)
      (hends : ∀ base, IsPair entries.keys base → ∀ x, base ≠ x ++ "Ar" ∧ base ≠ x ++ "En")
      (h : ∀ e ∈ entries, Regular e.2) : Regular (.object entries)

/-- No property, and no pair, has the name of the prototype. -/
inductive Payload.NoProto : Payload → Prop where
  | scalar {v : Payload} (h : v.IsScalar) : NoProto v
  | array {items : List Payload} (h : ∀ v ∈ items, NoProto v) : NoProto (.array items)
  | object {entries : Entries} (hkey : "__proto__" ∉ entries.keys)
      (hbase : ¬IsPair entries.keys "__proto__") (h : ∀ e ∈ entries, NoProto e.2) :
      NoProto (.object entries)

/-- The second payload is the first with every pair replaced by one property, which holds the English
value if English is asked for and it is not blank and the Arabic one otherwise, and with every other
property kept, its value collapsed to the one in `below`. -/
inductive Payload.Collapsed (locale : Locale) : Payload → Payload → Prop where
  | scalar {v : Payload} (h : v.IsScalar) : Collapsed locale v v
  | array {items items' : List Payload} (h : List.Forall₂ (Collapsed locale) items items') :
      Collapsed locale (.array items) (.array items')
  | object {entries entries' : Entries} (below : String → Payload) (hkeys : entries'.keys.Nodup)
      (hpair : ∀ base ar en, (base ++ "Ar", ar) ∈ entries → (base ++ "En", en) ∈ entries →
        (base, if useEn locale en then en else ar) ∈ entries')
      (hother : ∀ key ∈ entries.keys, ¬Paired entries.keys key → (key, below key) ∈ entries')
      (hbelow : ∀ key v, (key, v) ∈ entries → ¬Paired entries.keys key →
        Collapsed locale v (below key))
      (honly : ∀ key ∈ entries'.keys, IsPair entries.keys key ∨
        (key ∈ entries.keys ∧ ¬Paired entries.keys key)) :
      Collapsed locale (.object entries) (.object entries')

/-- The collapse is exact, and there is nothing to collapse in what it returns. -/
def CollapsesExactly (locale : Locale) (v : Payload) : Prop :=
  Payload.Collapsed locale v (collapseBilingual locale v) ∧
    ∀ locale', collapseBilingual locale' (collapseBilingual locale v) = collapseBilingual locale v

lemma collapse_scalar {locale : Locale} {v : Payload} (h : v.IsScalar) :
    collapseBilingual locale v = v := by
  cases v <;> first | rfl | cases h

lemma collapse_array (locale : Locale) (items : List Payload) :
    collapseBilingual locale (.array items) = .array (items.map (collapseBilingual locale)) := by
  rw [collapseBilingual, collapseItems_eq]

/-! ### The collapse is exact -/

section Exact

variable {locale : Locale} {entries : Entries}

lemma keys_emits {key : String}
    (h : key ∈ Entries.keys (entries.filterMap (emits locale entries))) :
    IsPair entries.keys key ∨ (key ∈ entries.keys ∧ ¬Paired entries.keys key) := by
  obtain ⟨v, hv⟩ := Entries.mem_keys.mp h
  obtain ⟨e, he, hemit⟩ := List.mem_filterMap.mp hv
  rcases emits_cases hemit with ⟨-, hpair, -⟩ | ⟨hkey, hpaired, -⟩
  · exact Or.inl hpair
  · have hsame : e.1 = key := hkey
    rw [← hsame] at hpaired ⊢
    exact Or.inr ⟨List.mem_map_of_mem he, hpaired⟩

/-- An object without pairs, and with nothing to collapse below, is kept. -/
lemma collapse_unpaired (hkeys : entries.keys.Nodup) (hpairs : ∀ base, ¬IsPair entries.keys base)
    (hproto : "__proto__" ∉ entries.keys)
    (hvalues : ∀ e ∈ entries, collapseBilingual locale e.2 = e.2) :
    collapseBilingual locale (.object entries) = .object entries := by
  have hemit : ∀ e ∈ entries, emits locale entries e = some e := by
    intro e he
    have hpaired : ¬Paired entries.keys e.1 := fun ⟨base, hpair, _⟩ => hpairs base hpair
    exact (emits_other hpaired e.2).trans (by rw [hvalues e he])
  have hkept : ∀ e ∈ entries, decide (e.1 ≠ "__proto__") = true := by
    intro e he
    refine decide_eq_true fun heq => hproto ?_
    rw [← heq]
    exact List.mem_map_of_mem he
  rw [collapse_object hkeys fun base hpair => absurd hpair (hpairs base),
    List.filterMap_congr hemit, List.filterMap_some, List.filter_eq_self.mpr hkept]

/-- What the collapse leaves of an object has no pairs. -/
lemma not_isPair_emits
    (hends : ∀ base, IsPair entries.keys base → ∀ x, base ≠ x ++ "Ar" ∧ base ≠ x ++ "En")
    (base : String) : ¬IsPair (Entries.keys (entries.filterMap (emits locale entries))) base := by
  rintro ⟨har, hen⟩
  have hfirst : base ++ "Ar" ∈ entries.keys ∧ ¬Paired entries.keys (base ++ "Ar") :=
    (keys_emits har).resolve_left fun hpair => (hends _ hpair base).1 rfl
  have hsecond : base ++ "En" ∈ entries.keys ∧ ¬Paired entries.keys (base ++ "En") :=
    (keys_emits hen).resolve_left fun hpair => (hends _ hpair base).2 rfl
  exact hfirst.2 ⟨base, ⟨hfirst.1, hsecond.1⟩, .inl rfl⟩

/-- The values that are left of pairs are those of the pairs. -/
lemma isScalar_emits (hkeys : entries.keys.Nodup)
    (hscalar : ∀ e ∈ entries, Paired entries.keys e.1 → e.2.IsScalar) {e : String × Payload}
    (he : e ∈ entries) {base : String} (hkey : e.1 = base ++ "Ar")
    (hpair : IsPair entries.keys base) :
    (if useEn locale (entries.get (base ++ "En")) then entries.get (base ++ "En")
      else e.2).IsScalar := by
  obtain ⟨en, hen⟩ := Entries.mem_keys.mp hpair.2
  rw [Entries.get_eq hkeys hen]
  split_ifs
  · exact hscalar _ hen ⟨base, hpair, .inr rfl⟩
  · exact hscalar e he ⟨base, hpair, .inl hkey⟩

lemma object_collapsed (hkeys : entries.keys.Nodup)
    (hfree : ∀ base, IsPair entries.keys base → base ∉ entries.keys)
    (hbelow : ∀ e ∈ entries, Payload.Collapsed locale e.2 (collapseBilingual locale e.2)) :
    Payload.Collapsed locale (.object entries)
      (.object (entries.filterMap (emits locale entries))) := by
  refine .object (fun key => collapseBilingual locale (entries.get key)) (nodup_emits hkeys hfree)
    ?_ ?_ ?_ fun key => keys_emits
  · intro base ar en har hen
    have hpair : IsPair entries.keys base :=
      ⟨Entries.mem_keys.mpr ⟨ar, har⟩, Entries.mem_keys.mpr ⟨en, hen⟩⟩
    refine List.mem_filterMap.mpr ⟨_, har, ?_⟩
    rw [emits_ar hpair, Entries.get_eq hkeys hen]
  · intro key hkey hpaired
    obtain ⟨v, hv⟩ := Entries.mem_keys.mp hkey
    refine List.mem_filterMap.mpr ⟨_, hv, ?_⟩
    rw [emits_other hpaired, Entries.get_eq hkeys hv]
  · intro key v hv _
    have hexact : Payload.Collapsed locale v (collapseBilingual locale v) := hbelow _ hv
    rw [Entries.get_eq hkeys hv]
    exact hexact

end Exact

/-- Where nothing has the name of the prototype the collapse is exact. -/
lemma collapsesExactly {locale : Locale} {v : Payload} (h : v.Regular) (hproto : v.NoProto) :
    CollapsesExactly locale v := by
  induction h with
  | scalar h =>
    rw [CollapsesExactly, collapse_scalar h]
    exact ⟨.scalar h, fun _ => collapse_scalar h⟩
  | @array items _ ih =>
    have hitems : ∀ v ∈ items, CollapsesExactly locale v := by
      cases hproto with
      | scalar h => cases h
      | array hitems => exact fun v hv => ih v hv (hitems v hv)
    simp only [CollapsesExactly, collapse_array, List.map_map]
    constructor
    · refine .array (List.forall₂_map_right_iff.mpr (List.forall₂_same.mpr ?_))
      exact fun v hv => (hitems v hv).1
    · intro locale'
      exact congrArg _ (List.map_congr_left fun v hv => (hitems v hv).2 locale')
  | @object entries hkeys hscalar hfree hends _ ih =>
    obtain ⟨hkey, hbase, hbelow⟩ : "__proto__" ∉ entries.keys ∧
        ¬IsPair entries.keys "__proto__" ∧ ∀ e ∈ entries, CollapsesExactly locale e.2 := by
      cases hproto with
      | scalar h => cases h
      | object hkey hbase hbelow => exact ⟨hkey, hbase, fun e he => ih e he (hbelow e he)⟩
    have hproto : "__proto__" ∉ Entries.keys (entries.filterMap (emits locale entries)) := by
      intro hmem
      rcases keys_emits hmem with hpair | ⟨hmem, -⟩
      · exact hbase hpair
      · exact hkey hmem
    have hkept : ∀ e ∈ entries.filterMap (emits locale entries),
        decide (e.1 ≠ "__proto__") = true := by
      intro e he
      refine decide_eq_true fun heq => hproto ?_
      rw [← heq]
      exact List.mem_map_of_mem he
    rw [CollapsesExactly, collapse_object hkeys hfree, List.filter_eq_self.mpr hkept]
    refine ⟨object_collapsed hkeys hfree fun e he => (hbelow e he).1, fun locale' => ?_⟩
    refine collapse_unpaired (nodup_emits hkeys hfree) (not_isPair_emits hends) hproto ?_
    intro e' he'
    obtain ⟨e, he, hemit⟩ := List.mem_filterMap.mp he'
    rcases emits_cases hemit with ⟨hkey, hpair, hvalue⟩ | ⟨-, -, hvalue⟩
    · rw [hvalue]
      exact collapse_scalar (isScalar_emits hkeys hscalar he hkey hpair)
    · rw [hvalue]
      exact (hbelow e he).2 locale'

section Inversion

variable {locale : Locale}

lemma Payload.Collapsed.array_inv {items items' : List Payload}
    (h : Payload.Collapsed locale (.array items) (.array items')) :
    List.Forall₂ (Payload.Collapsed locale) items items' := by
  generalize hw : Payload.array items' = w at h
  cases h with
  | scalar h => cases h
  | array h =>
    cases hw
    exact h

lemma Payload.Collapsed.object_inv {entries entries' : Entries}
    (h : Payload.Collapsed locale (.object entries) (.object entries')) :
    (∀ base ar en, (base ++ "Ar", ar) ∈ entries → (base ++ "En", en) ∈ entries →
      (base, if useEn locale en then en else ar) ∈ entries') ∧
    ∃ below : String → Payload, (∀ key ∈ entries.keys, ¬Paired entries.keys key →
      (key, below key) ∈ entries') ∧
      ∀ key v, (key, v) ∈ entries → ¬Paired entries.keys key →
        Payload.Collapsed locale v (below key) := by
  generalize hw : Payload.object entries' = w at h
  cases h with
  | scalar h => cases h
  | object below _ hpair hother hbelow _ =>
    cases hw
    exact ⟨hpair, below, hother, hbelow⟩

end Inversion

lemma proto_not_paired (keys : List String) : ¬Paired keys "__proto__" := by
  have hlast : ∀ {base suffix : String} {c : Char}, suffix.toList.getLast? = some c →
      (base ++ suffix).toList.getLast? = some c := by
    intro base suffix c hc
    rw [String.toList_append, List.getLast?_append, hc]
    rfl
  rintro ⟨base, -, hkey | hkey⟩
  · have hr := congrArg (·.toList.getLast?) hkey
    rw [hlast (rfl : "Ar".toList.getLast? = some 'r')] at hr
    exact absurd hr (by decide)
  · have hn := congrArg (·.toList.getLast?) hkey
    rw [hlast (rfl : "En".toList.getLast? = some 'n')] at hn
    exact absurd hn (by decide)

/-- What has the name of the prototype is lost. -/
lemma noProto_of_collapsed {locale : Locale} {v : Payload} (h : v.Regular)
    (hexact : Payload.Collapsed locale v (collapseBilingual locale v)) : v.NoProto := by
  induction h with
  | scalar h => exact .scalar h
  | array _ ih =>
    rw [collapse_array] at hexact
    have hitems := List.forall₂_same.mp (List.forall₂_map_right_iff.mp hexact.array_inv)
    exact .array fun v hv => ih v hv (hitems v hv)
  | @object entries hkeys hscalar hfree _ _ ih =>
    have hnodup : (Entries.keys (entries.filterMap (emits locale entries))).Nodup :=
      nodup_emits hkeys hfree
    rw [collapse_object hkeys hfree] at hexact
    obtain ⟨hpair, below, hother, hbelow⟩ := hexact.object_inv
    have hlost : ∀ v, ("__proto__", v) ∉ (entries.filterMap (emits locale entries)).filter
        fun e => e.1 ≠ "__proto__" := by
      intro v hmem
      simpa using (List.mem_filter.mp hmem).2
    refine .object ?_ ?_ ?_
    · intro hmem
      exact hlost _ (hother _ hmem (proto_not_paired _))
    · rintro ⟨har, hen⟩
      obtain ⟨ar, har⟩ := Entries.mem_keys.mp har
      obtain ⟨en, hen⟩ := Entries.mem_keys.mp hen
      exact hlost _ (hpair _ ar en har hen)
    · intro e he
      by_cases hpaired : Paired entries.keys e.1
      · exact .scalar (hscalar e he hpaired)
      · have hset : (e.1, below e.1) ∈ entries.filterMap (emits locale entries) :=
          (List.mem_filter.mp (hother e.1 (List.mem_map_of_mem he) hpaired)).1
        have hset' : (e.1, collapseBilingual locale e.2) ∈
            entries.filterMap (emits locale entries) :=
          List.mem_filterMap.mpr ⟨e, he, emits_other hpaired e.2⟩
        have hbelow := hbelow e.1 e.2 he hpaired
        rw [← Entries.get_eq hnodup hset, Entries.get_eq hnodup hset'] at hbelow
        exact ih e he hbelow

/-! ### Arabic -/

/-- The payloads differ in the English values of pairs only. -/
inductive Payload.EnglishApart : Payload → Payload → Prop where
  | scalar {v : Payload} (h : v.IsScalar) : EnglishApart v v
  | array {items items' : List Payload} (hlength : items.length = items'.length)
      (h : ∀ p ∈ items.zip items', EnglishApart p.1 p.2) :
      EnglishApart (.array items) (.array items')
  | object {entries entries' : Entries} (hkeys : entries.keys = entries'.keys)
      (harabic : ∀ base v v', IsPair entries.keys base → (base ++ "Ar", v) ∈ entries →
        (base ++ "Ar", v') ∈ entries' → v = v')
      (hother : ∀ key v v', ¬Paired entries.keys key → (key, v) ∈ entries → (key, v') ∈ entries' →
        EnglishApart v v') : EnglishApart (.object entries) (.object entries')

lemma filterMap_eq_of_keys {f f' : String × Payload → Option (String × Payload)} {l l' : Entries}
    (hkeys : l.keys = l'.keys) (h : ∀ key v v', (key, v) ∈ l → (key, v') ∈ l' →
      f (key, v) = f' (key, v')) : l.filterMap f = l'.filterMap f' := by
  induction l generalizing l' with
  | nil =>
    cases l' with
    | nil => rfl
    | cons e' l' => cases hkeys
  | cons e l ih =>
    cases l' with
    | nil => cases hkeys
    | cons e' l' =>
      obtain ⟨key, v⟩ := e
      obtain ⟨key', v'⟩ := e'
      obtain ⟨rfl, htail⟩ : key = key' ∧ Entries.keys l = Entries.keys l' := List.cons.inj hkeys
      have hrest : l.filterMap f = l'.filterMap f' := ih htail fun key v v' hv hv' =>
        h key v v' (List.mem_cons_of_mem _ hv) (List.mem_cons_of_mem _ hv')
      rw [List.filterMap_cons, List.filterMap_cons, hrest,
        h key v v' List.mem_cons_self List.mem_cons_self]

lemma map_eq_of_zip {f : Payload → Payload} {l l' : List Payload} (hlength : l.length = l'.length)
    (h : ∀ p ∈ l.zip l', f p.1 = f p.2) : l.map f = l'.map f := by
  induction l generalizing l' with
  | nil =>
    cases l' with
    | nil => rfl
    | cons v' l' => cases hlength
  | cons v l ih =>
    cases l' with
    | nil => cases hlength
    | cons v' l' =>
      have hfirst : f v = f v' := h (v, v') List.mem_cons_self
      have hrest : l.map f = l'.map f :=
        ih (Nat.succ.inj hlength) fun p hp => h p (List.mem_cons_of_mem _ hp)
      rw [List.map_cons, List.map_cons, hfirst, hrest]

/-- In Arabic the English values of pairs are not looked at. -/
lemma collapse_arabic {v v' : Payload} (h : v.EnglishApart v') :
    collapseBilingual .ar v = collapseBilingual .ar v' := by
  induction h with
  | scalar _ => rfl
  | array hlength _ ih => rw [collapse_array, collapse_array, map_eq_of_zip hlength ih]
  | @object entries entries' hkeys harabic hother ih =>
    have hrounds : entries.filterMap (emits .ar entries)
        = entries'.filterMap (emits .ar entries') := by
      refine filterMap_eq_of_keys hkeys fun key v v' hv hv' => ?_
      by_cases hpaired : Paired entries.keys key
      · obtain ⟨base, hpair, rfl | rfl⟩ := hpaired
        · rw [emits_ar hpair, emits_ar (hkeys ▸ hpair), harabic base v v' hpair hv hv']
          rfl
        · rw [emits_en hpair, emits_en (hkeys ▸ hpair)]
      · rw [emits_other hpaired, emits_other (hkeys ▸ hpaired), ih key v v' hpaired hv hv']
    rw [collapseBilingual, collapseBilingual, collapseLoop_eq, collapseLoop_eq, hrounds]

end SafeerApi.Public
