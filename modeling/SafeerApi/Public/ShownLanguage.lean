import SafeerApi.Public.LocaleCollapse
import SafeerApi.Public.NewsDetail

/-!
# The language that is shown (`locale.interceptor.ts`, `public-post.ts`)

The detail of a post is collapsed like every public response. Its reading time comes in a pair like
its body, and the same language of both is shown: the mapper takes an English body for missing when
the interceptor takes it for blank.
-/

namespace SafeerApi.Public

open Common

variable {A : Type*}

/-! ### The payload of a post -/

def textOrNull : Option String → Payload
  | none => .null
  | some s => .string s

def PublicNewsCategory.payload (category : PublicNewsCategory) : Payload :=
  .object [("id", .string (toString category.id)), ("slug", .string category.slug),
    ("nameAr", .string category.nameAr), ("nameEn", textOrNull category.nameEn),
    ("sortOrder", .number category.sortOrder)]

/-- `asset` is what is sent of a cover. -/
def PublicPostSummary.entries (asset : A → Payload) (post : PublicPostSummary A) : Entries :=
  [("id", .string (toString post.id)), ("slug", .string post.slug), ("titleAr", .string post.titleAr),
    ("titleEn", textOrNull post.titleEn), ("excerptAr", textOrNull post.excerptAr),
    ("excerptEn", textOrNull post.excerptEn), ("publishedOn", textOrNull post.publishedOn),
    ("isFeatured", .bool post.isFeatured), ("coverAsset", (post.coverAsset.map asset).getD .null),
    ("category", (post.category.map PublicNewsCategory.payload).getD .null)]

def minutesOrNull : Option ℕ → Payload
  | none => .null
  | some n => .number n

def PublicPostDetail.entries (asset : A → Payload) (post : PublicPostDetail A) : Entries :=
  post.toPublicPostSummary.entries asset ++
    [("bodyAr", .string post.bodyAr), ("bodyEn", textOrNull post.bodyEn),
      ("readMinutesAr", .number post.readMinutesAr),
      ("readMinutesEn", minutesOrNull post.readMinutesEn),
      ("related", .array (post.related.map fun p => .object (p.entries asset)))] ++
    post.previewFileQuery.toList.map fun query => ("previewFileQuery", .string query)

def PublicPostDetail.bodyIn (post : PublicPostDetail A) : Locale → Option String
  | .ar => some post.bodyAr
  | .en => post.bodyEn

/-- `value[key]` -/
def Payload.property (v : Payload) (key : String) : Payload :=
  match v with
  | .object entries => Entries.get entries key
  | _ => .undefined

/-! ### Pairs of a response -/

/-- What a response shows of a pair. -/
lemma property_pair {locale : Locale} {entries : Entries} (hkeys : entries.keys.Nodup)
    (hfree : ∀ base ∈ mergeBases entries.keys, base ∉ entries.keys) {base : String} {ar en : Payload}
    (har : (base ++ "Ar", ar) ∈ entries) (hen : (base ++ "En", en) ∈ entries)
    (hproto : base ≠ "__proto__") :
    (collapseBilingual locale (.object entries)).property base
      = if useEn locale en then en else ar := by
  have hfree : ∀ base, IsPair entries.keys base → base ∉ entries.keys :=
    fun base hpair => hfree base (mem_mergeBases.mpr hpair)
  have hpair : IsPair entries.keys base :=
    ⟨Entries.mem_keys.mpr ⟨ar, har⟩, Entries.mem_keys.mpr ⟨en, hen⟩⟩
  have hset : (base, if useEn locale en then en else ar) ∈
      (entries.filterMap (emits locale entries)).filter fun e => e.1 ≠ "__proto__" := by
    refine List.mem_filter.mpr ⟨List.mem_filterMap.mpr ⟨_, har, ?_⟩, by simpa using hproto⟩
    rw [emits_ar hpair, Entries.get_eq hkeys hen]
  have hnodup : (Entries.keys ((entries.filterMap (emits locale entries)).filter
      fun e => e.1 ≠ "__proto__")).Nodup :=
    (nodup_emits hkeys hfree).sublist (List.Sublist.map _ List.filter_sublist)
  rw [collapse_object hkeys hfree, Payload.property]
  exact Entries.get_eq hnodup hset

/-- The names of a post's properties. -/
def detailKeys (previewed : Bool) : List String :=
  ["id", "slug", "titleAr", "titleEn", "excerptAr", "excerptEn", "publishedOn", "isFeatured",
    "coverAsset", "category", "bodyAr", "bodyEn", "readMinutesAr", "readMinutesEn", "related"] ++
    if previewed then ["previewFileQuery"] else []

lemma keys_entries (asset : A → Payload) (post : PublicPostDetail A) :
    (post.entries asset).keys = detailKeys post.previewFileQuery.isSome := by
  unfold PublicPostDetail.entries
  cases post.previewFileQuery <;> rfl

lemma nodup_detailKeys (previewed : Bool) : (detailKeys previewed).Nodup := by
  cases previewed <;> decide

lemma bases_detailKeys (previewed : Bool) :
    ∀ base ∈ mergeBases (detailKeys previewed), base ∉ detailKeys previewed := by
  cases previewed <;> decide

lemma isBlank_readMinutes (body : Option String) (minutes : ℕ) :
    (minutesOrNull ((truthy (body.map trim)).map fun _ => minutes)).isBlank
      = (textOrNull body).isBlank := by
  cases body with
  | none => rfl
  | some s =>
    by_cases hblank : trim s = ""
    · simp [textOrNull, Payload.isBlank, truthy, minutesOrNull, hblank]
    · rw [Option.map_some, truthy_some hblank]
      simp [textOrNull, Payload.isBlank, minutesOrNull, hblank]

/-- The reading time that is shown is that of the body that is shown. -/
lemma readMinutes_shown (env : PublicEnv) (db : NewsDatabase A) (post : DetailPost A)
    (query : Option String) (asset : A → Payload) (locale : Locale) :
    let detail := toPublicPostDetail env db post query
    let shown := collapseBilingual locale (.object (detail.entries asset))
    ∃ language body, detail.bodyIn language = some body ∧ shown.property "body" = .string body ∧
      shown.property "readMinutes" = .number (estimateReadMinutes (some body)) := by
  intro detail shown
  have hnodup : Entries.keys (detail.entries asset) |>.Nodup := by
    rw [keys_entries]
    exact nodup_detailKeys _
  have hfree : ∀ base ∈ mergeBases (Entries.keys (detail.entries asset)),
      base ∉ Entries.keys (detail.entries asset) := by
    rw [keys_entries]
    exact bases_detailKeys _
  have hbody : shown.property "body"
      = if useEn locale (textOrNull detail.bodyEn) then textOrNull detail.bodyEn
        else .string detail.bodyAr :=
    property_pair hnodup hfree (by simp [PublicPostDetail.entries])
      (by simp [PublicPostDetail.entries]) (by decide)
  have hminutes : shown.property "readMinutes"
      = if useEn locale (minutesOrNull detail.readMinutesEn) then minutesOrNull detail.readMinutesEn
        else .number detail.readMinutesAr :=
    property_pair hnodup hfree (by simp [PublicPostDetail.entries])
      (by simp [PublicPostDetail.entries]) (by decide)
  have hblank : (minutesOrNull detail.readMinutesEn).isBlank = (textOrNull detail.bodyEn).isBlank :=
    isBlank_readMinutes _ _
  have hsame : useEn locale (minutesOrNull detail.readMinutesEn)
      = useEn locale (textOrNull detail.bodyEn) := by
    rw [useEn, useEn, hblank]
  rw [hsame] at hminutes
  cases huse : useEn locale (textOrNull detail.bodyEn) with
  | false =>
    rw [huse] at hbody hminutes
    exact ⟨.ar, detail.bodyAr, rfl, hbody, hminutes⟩
  | true =>
    rw [huse] at hbody hminutes
    have hread : detail.readMinutesEn
        = (truthy (detail.bodyEn.map trim)).map fun _ => estimateReadMinutes detail.bodyEn := rfl
    cases hen : detail.bodyEn with
    | none =>
      rw [hen] at huse
      simp [useEn, textOrNull, Payload.isBlank] at huse
    | some body =>
      rw [hen] at huse hbody hread
      have hshown : trim body ≠ "" := by
        simp only [useEn, textOrNull, Payload.isBlank, Bool.and_eq_true, Bool.not_eq_true',
          decide_eq_false_iff_not] at huse
        exact huse.2
      rw [Option.map_some, truthy_some hshown] at hread
      rw [hread] at hminutes
      exact ⟨.en, body, hen, hbody, hminutes⟩

/-! ### Responses without clashes -/

/-- The keys come once, and no base of theirs is another key, ends in one of the suffixes or is the
name of the prototype, which is no key either. -/
def clashFree (keys : List String) : Bool :=
  keys.Nodup && "__proto__" ∉ keys && (mergeBases keys).all fun base =>
    base ∉ keys && (withoutSuffix "Ar" base).isNone && (withoutSuffix "En" base).isNone &&
      base ≠ "__proto__"

def pairKeys (keys : List String) : List String :=
  (mergeBases keys).flatMap fun base => [base ++ "Ar", base ++ "En"]

/-- A payload on which the collapse is exact. -/
structure Payload.Safe (v : Payload) : Prop where
  regular : v.Regular
  noProto : v.NoProto

lemma Payload.Safe.of_scalar {v : Payload} (h : v.IsScalar) : v.Safe := ⟨.scalar h, .scalar h⟩

lemma Payload.Safe.of_array {items : List Payload} (h : ∀ v ∈ items, v.Safe) :
    (Payload.array items).Safe :=
  ⟨.array fun v hv => (h v hv).regular, .array fun v hv => (h v hv).noProto⟩

lemma Payload.Safe.of_object {entries : Entries} (keys : List String) (hkeys : entries.keys = keys)
    (hclash : clashFree keys = true)
    (hscalar : ∀ e ∈ entries, e.2.IsScalar ∨ e.1 ∉ pairKeys keys)
    (h : ∀ e ∈ entries, e.2.Safe) : (Payload.object entries).Safe := by
  subst hkeys
  simp only [clashFree, Bool.and_eq_true, decide_eq_true_eq, List.all_eq_true,
    Option.isNone_iff_eq_none] at hclash
  obtain ⟨⟨hnodup, hproto⟩, hbases⟩ := hclash
  have hbase : ∀ base, IsPair entries.keys base → ((base ∉ entries.keys ∧
      withoutSuffix "Ar" base = none) ∧ withoutSuffix "En" base = none) ∧ base ≠ "__proto__" :=
    fun base hpair => hbases base (mem_mergeBases.mpr hpair)
  constructor
  · refine .object hnodup ?_ (fun base hpair => (hbase base hpair).1.1.1) ?_
      fun e he => (h e he).regular
    · rintro e he ⟨base, hpair, hkey⟩
      refine (hscalar e he).resolve_right fun hother => hother ?_
      refine List.mem_flatMap.mpr ⟨base, mem_mergeBases.mpr hpair, ?_⟩
      rcases hkey with hkey | hkey <;> simp [hkey]
    · intro base hpair x
      constructor
      · intro heq
        exact absurd (hbase base hpair).1.1.2 (by rw [withoutSuffix_eq_some.mpr heq]; simp)
      · intro heq
        exact absurd (hbase base hpair).1.2 (by rw [withoutSuffix_eq_some.mpr heq]; simp)
  · exact .object hproto (fun hpair => (hbase _ hpair).2 rfl) fun e he => (h e he).noProto

@[simp] lemma isScalar_textOrNull (text : Option String) : (textOrNull text).IsScalar := by
  cases text <;> trivial

@[simp] lemma isScalar_minutesOrNull (minutes : Option ℕ) : (minutesOrNull minutes).IsScalar := by
  cases minutes <;> trivial

lemma safe_ofOption {B : Type*} {f : B → Payload} (h : ∀ b, (f b).Safe) (value : Option B) :
    ((value.map f).getD .null).Safe := by
  cases value with
  | none => exact .of_scalar trivial
  | some b => exact h b

lemma safe_category (category : PublicNewsCategory) : category.payload.Safe := by
  have hscalar : ∀ e ∈ [("id", Payload.string (toString category.id)),
      ("slug", .string category.slug), ("nameAr", .string category.nameAr),
      ("nameEn", textOrNull category.nameEn), ("sortOrder", .number category.sortOrder)],
      e.2.IsScalar := by
    simp only [List.forall_mem_cons, List.not_mem_nil, false_imp_iff, implies_true,
      Payload.isScalar_string, Payload.isScalar_number, isScalar_textOrNull, and_self]
  exact .of_object ["id", "slug", "nameAr", "nameEn", "sortOrder"] rfl (by decide)
    (fun e he => .inl (hscalar e he)) fun e he => .of_scalar (hscalar e he)

/-- The properties of a summary, and whether each is a scalar. -/
lemma safe_summaryEntries {asset : A → Payload} (hasset : ∀ a, (asset a).Safe)
    (post : PublicPostSummary A) :
    ∀ e ∈ post.entries asset, e.2.Safe ∧ (e.2.IsScalar ∨ e.1 ∈ ["coverAsset", "category"]) := by
  have hcover : ((post.coverAsset.map asset).getD .null).Safe := safe_ofOption hasset _
  have hcategory : ((post.category.map PublicNewsCategory.payload).getD .null).Safe :=
    safe_ofOption safe_category _
  have hscalar : ∀ {v : Payload} {key : String}, v.IsScalar →
      v.Safe ∧ (v.IsScalar ∨ key ∈ ["coverAsset", "category"]) := fun h => ⟨.of_scalar h, .inl h⟩
  unfold PublicPostSummary.entries
  simp only [List.forall_mem_cons, List.not_mem_nil, false_imp_iff, implies_true, and_true]
  refine ⟨hscalar (by simp), hscalar (by simp), hscalar (by simp), hscalar (by simp),
    hscalar (by simp), hscalar (by simp), hscalar (by simp), hscalar (by simp),
    ⟨hcover, .inr (by simp)⟩, hcategory, .inr (by simp)⟩

lemma safe_summary {asset : A → Payload} (hasset : ∀ a, (asset a).Safe)
    (post : PublicPostSummary A) : (Payload.object (post.entries asset)).Safe := by
  refine .of_object ["id", "slug", "titleAr", "titleEn", "excerptAr", "excerptEn", "publishedOn",
    "isFeatured", "coverAsset", "category"] rfl (by decide) ?_
    fun e he => (safe_summaryEntries hasset post e he).1
  intro e he
  refine (safe_summaryEntries hasset post e he).2.imp_right fun hkey => ?_
  rcases List.mem_pair.mp hkey with hkey | hkey <;> rw [hkey] <;> decide

/-- Every detail of a post is collapsed exactly, when what is sent of a cover is. -/
lemma safe_detail {asset : A → Payload} (hasset : ∀ a, (asset a).Safe)
    (post : PublicPostDetail A) : (Payload.object (post.entries asset)).Safe := by
  have hrelated : (Payload.array
      (post.related.map fun p => .object (p.entries asset))).Safe := by
    refine .of_array fun v hv => ?_
    obtain ⟨p, -, rfl⟩ := List.mem_map.mp hv
    exact safe_summary hasset p
  have hscalar : ∀ {v : Payload} {key : String}, v.IsScalar →
      v.Safe ∧ (v.IsScalar ∨ key ∈ ["coverAsset", "category", "related"]) :=
    fun h => ⟨.of_scalar h, .inl h⟩
  have hentries : ∀ e ∈ post.entries asset,
      e.2.Safe ∧ (e.2.IsScalar ∨ e.1 ∈ ["coverAsset", "category", "related"]) := by
    intro e he
    rw [PublicPostDetail.entries, List.mem_append, List.mem_append] at he
    rcases he with (he | he) | he
    · obtain ⟨hsafe, h⟩ := safe_summaryEntries hasset _ e he
      exact ⟨hsafe, h.imp_right fun hkey => List.mem_append_left ["related"] hkey⟩
    · revert e
      simp only [List.forall_mem_cons, List.not_mem_nil, false_imp_iff, implies_true, and_true]
      exact ⟨hscalar (by simp), hscalar (by simp), hscalar (by simp), hscalar (by simp),
        hrelated, .inr (by simp)⟩
    · obtain ⟨query, -, rfl⟩ := List.mem_map.mp he
      exact hscalar (by simp)
  have hpairs : ∀ previewed, ∀ key ∈ ["coverAsset", "category", "related"],
      key ∉ pairKeys (detailKeys previewed) := by decide
  have hclash : ∀ previewed, clashFree (detailKeys previewed) = true := by decide
  exact .of_object (detailKeys post.previewFileQuery.isSome) (keys_entries asset post) (hclash _)
    (fun e he => (hentries e he).2.imp_right fun hkey => hpairs _ _ hkey)
    fun e he => (hentries e he).1

lemma detail_collapsesExactly {asset : A → Payload} (hasset : ∀ a, (asset a).Safe) (locale : Locale)
    (post : PublicPostDetail A) : CollapsesExactly locale (.object (post.entries asset)) :=
  collapsesExactly (safe_detail hasset post).regular (safe_detail hasset post).noProto

/-! ### The collapse as a whole -/

/-- For every payload without clashes the collapse is exact if and only if nothing in it has the name
of the prototype. In Arabic the English values are never looked at, and the reading time of a post is
always that of the body that is shown. -/
theorem collapse_exact_iff :
    (∀ (locale : Locale) (v : Payload), v.Regular → (CollapsesExactly locale v ↔ v.NoProto)) ∧
    (∀ v v' : Payload, v.EnglishApart v' → collapseBilingual .ar v = collapseBilingual .ar v') ∧
    ∀ (env : PublicEnv) (db : NewsDatabase A) (post : DetailPost A) (query : Option String)
      (asset : A → Payload) (locale : Locale), ∃ language body,
      (toPublicPostDetail env db post query).bodyIn language = some body ∧
      (collapseBilingual locale (.object
        ((toPublicPostDetail env db post query).entries asset))).property "body" = .string body ∧
      (collapseBilingual locale (.object
        ((toPublicPostDetail env db post query).entries asset))).property "readMinutes"
          = .number (estimateReadMinutes (some body)) := by
  refine ⟨fun locale v hregular => ⟨fun hexact => ?_, fun hproto => ?_⟩, fun v v' h => ?_,
    readMinutes_shown⟩
  · exact noProto_of_collapsed hregular hexact.1
  · exact collapsesExactly hregular hproto
  · exact collapse_arabic h

/-- A title in both languages. -/
def titlePair : Payload := .object [("titleAr", .string "a"), ("titleEn", .string "b")]

lemma titlePair_regular : titlePair.Regular := by
  have hscalar : ∀ e ∈ [("titleAr", Payload.string "a"), ("titleEn", .string "b")],
      e.2.IsScalar := by simp
  exact (Payload.Safe.of_object ["titleAr", "titleEn"] rfl (by decide)
    (fun e he => .inl (hscalar e he)) fun e he => .of_scalar (hscalar e he)).regular

theorem collapse_exact_iff_titlePair :
    CollapsesExactly .en titlePair ↔ titlePair.NoProto :=
  (collapse_exact_iff (A := Unit)).1 .en titlePair titlePair_regular

/-- A property with the name of the prototype is lost. -/
theorem collapse_loses_proto :
    Payload.Regular (.object [("__proto__", .number 1)]) ∧
      ¬CollapsesExactly .ar (.object [("__proto__", .number 1)]) := by
  have hregular : Payload.Regular (.object [("__proto__", .number 1)]) := by
    refine .object (by decide) (fun e he _ => ?_) (fun base hpair => ?_) (fun base hpair => ?_)
      fun e he => .scalar ?_
    · rw [List.mem_singleton.mp he]
      exact Payload.isScalar_number 1
    · cases mem_mergeBases.mpr hpair
    · cases mem_mergeBases.mpr hpair
    · rw [List.mem_singleton.mp he]
      exact Payload.isScalar_number 1
  refine ⟨hregular, fun hexact => ?_⟩
  cases noProto_of_collapsed hregular hexact.1 with
  | scalar h => cases h
  | object hkey => exact hkey List.mem_cons_self

end SafeerApi.Public
