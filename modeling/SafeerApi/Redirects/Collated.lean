import SafeerApi.Redirects.Concurrent

/-!
# Redirects under the collation of their table

The table tells paths apart by its collation, which takes no account of case and accents, and so do
the lookups of the chain check and of the resolver. That a path is not redirected to itself is checked
on the texts.
-/

namespace SafeerApi.Redirects.Collated

open Common Crud Lib News Public

/-- A collation: two texts are equal where their sort keys (`WEIGHT_STRING`) are. -/
structure KeyCollation (W : Type*) extends Collation where
  sortKey : String → W
  eq_iff : ∀ a b, eq a b = true ↔ sortKey a = sortKey b

variable {W : Type*}

/-- `uq_redirect_from`, under the collation of the column. -/
abbrev CollatedTable (coll : KeyCollation W) :=
  UniqueTable Redirect.id fun r => coll.sortKey r.fromPath

structure RedirectDb (coll : KeyCollation W) where
  redirects : CollatedTable coll
  nextId : ℕ

variable {coll : KeyCollation W}

/-! ### Requests -/

def assertNoChain (redirects : CollatedTable coll) (selfId : Option String)
    (fromPath toPath : String) : Except Problem Unit :=
  let others := (redirects.rows.filter fun r =>
    coll.eq r.fromPath toPath || coll.eq r.toPath fromPath || coll.eq r.fromPath fromPath).filter
      fun r => some (toString r.id) ≠ selfId
  if others.any fun r => r.fromPath = fromPath then
    .error ⟨409, .redirectChain, "A redirect from " ++ fromPath ++ " already exists", [], []⟩
  else if others ≠ [] then
    .error ⟨409, .redirectChain, "Redirects must not chain — point the redirect at the final page",
      [], []⟩
  else .ok ()

def findRedirect (sql : SqlNumeric) (redirects : CollatedTable coll) (id : String) :
    Option Redirect :=
  (sql.rowId id).bind redirects.find

/-- The check of a redirect that is there, before the kernel looks for it. -/
def assertUpdate (redirects : CollatedTable coll) (current : Option Redirect) (id : String)
    (dto : UpdateRedirectDto) : Except Problem Unit :=
  match current with
  | none => .ok ()
  | some current =>
    let fromPath := dto.fromPath.getD current.fromPath
    let toPath := dto.toPath.getD current.toPath
    if fromPath = toPath then
      .error ⟨400, .validationFailed, "fromPath and toPath must differ", [], []⟩
    else assertNoChain redirects (some id) fromPath toPath

section Handlers

variable [DecidableEq W]

def createRedirect (db : RedirectDb coll) (body : CreateRedirectDto) :
    Except Refusal (RedirectDb coll) := do
  let dto ← validated (createRedirectSchema body)
  checked (assertNoChain db.redirects none dto.fromPath dto.toPath)
  let row : Redirect := ⟨db.nextId, dto.fromPath, dto.toPath, dto.statusCode.getD 301⟩
  let redirects ← executed (db.redirects.insert row)
  return ⟨redirects, db.nextId + 1⟩

def updateRedirect (sql : SqlNumeric) (db : RedirectDb coll) (id : String)
    (body : UpdateRedirectDto) : Except Refusal (RedirectDb coll) := do
  let dto ← validated (updateRedirectSchema body)
  checked (assertUpdate db.redirects (findRedirect sql db.redirects id) id dto)
  match findRedirect sql db.redirects id with
  | none => .error (.problem notFound)
  | some current =>
    let redirects ← executed (db.redirects.replace (Concurrent.assign current dto))
    return { db with redirects := redirects }

def removeRedirect (sql : SqlNumeric) (db : RedirectDb coll) (id : String) :
    Except Refusal (RedirectDb coll) :=
  match findRedirect sql db.redirects id with
  | none => .error (.problem notFound)
  | some current => .ok { db with redirects := db.redirects.deleteWhere (·.id = current.id) }

def handle (sql : SqlNumeric) (db : RedirectDb coll) :
    RedirectRequest → Except Refusal (RedirectDb coll)
  | .create body => createRedirect db body
  | .update id body => updateRedirect sql db id body
  | .remove id => removeRedirect sql db id

/-- A refused request leaves the table as it is. -/
def step (sql : SqlNumeric) (db : RedirectDb coll) (r : RedirectRequest) :
    Option (RedirectDb coll) :=
  match handle sql db r with
  | .ok db' => some db'
  | .error _ => some db

end Handlers

/-- `GET /redirects/resolve` -/
def resolvePath (db : RedirectDb coll) (query : Query) : Except Problem Resolved :=
  resolve coll.toCollation ({ redirects := db.redirects.rows } : Database Unit) query

/-! ### One hop -/

/-- No row leads to a path that a row leads away from. -/
def NoSecondHop (coll : KeyCollation W) (rows : List Redirect) : Prop :=
  ∀ r ∈ rows, ∀ r' ∈ rows, coll.sortKey r.toPath ≠ coll.sortKey r'.fromPath

instance [DecidableEq W] (rows : List Redirect) : Decidable (NoSecondHop coll rows) :=
  inferInstanceAs (Decidable (∀ r ∈ _, ∀ r' ∈ _, _))

/-- `row` leads neither to where `r` leads away from nor the other way round. -/
def Apart (coll : KeyCollation W) (row r : Redirect) : Prop :=
  coll.sortKey r.fromPath ≠ coll.sortKey row.toPath ∧
    coll.sortKey r.toPath ≠ coll.sortKey row.fromPath

/-- A row that is apart from all others decides whether there is a second hop. -/
lemma noSecondHop_iff {rows rows' : List Redirect} {row : Redirect} (h : NoSecondHop coll rows)
    (hrow : row ∈ rows') (hothers : ∀ r ∈ rows', r = row ∨ (r ∈ rows ∧ Apart coll row r)) :
    NoSecondHop coll rows' ↔ coll.sortKey row.fromPath ≠ coll.sortKey row.toPath := by
  constructor
  · intro h'
    exact (h' row hrow row hrow).symm
  · intro hself r hr r' hr'
    rcases hothers r hr with rfl | ⟨hr, hapart⟩ <;> rcases hothers r' hr' with rfl | ⟨hr', hapart'⟩
    · exact hself.symm
    · exact hapart'.1.symm
    · exact hapart.2
    · exact h r hr r' hr'

/-- What a check that passes says of the rows it does not leave out. -/
lemma assertNoChain_ok {redirects : CollatedTable coll} {selfId : Option String} {row : Redirect}
    (h : assertNoChain redirects selfId row.fromPath row.toPath = .ok ()) {r : Redirect}
    (hr : r ∈ redirects.rows) (hself : some (toString r.id) ≠ selfId) : Apart coll row r := by
  simp only [assertNoChain] at h
  split_ifs at h with hsource hothers
  rw [ne_eq, not_not] at hothers
  have hnone := List.filter_eq_nil_iff.mp hothers r
  by_contra hclash
  refine hnone (List.mem_filter.mpr ⟨hr, ?_⟩) (decide_eq_true hself)
  simp only [Bool.or_eq_true, coll.eq_iff]
  simp only [Apart] at hclash
  tauto

/-- The row that an edit leaves out of the check is the row it changes. -/
lemma ne_self_of_ne {sql : SqlNumeric} {redirects : CollatedTable coll} {id : String}
    {current r : Redirect} (hcurrent : findRedirect sql redirects id = some current)
    (hne : r.id ≠ current.id) : some (toString r.id) ≠ some id := by
  intro hid
  obtain ⟨n, hn, hfind⟩ := Option.bind_eq_some_iff.mp hcurrent
  rw [← Option.some.inj hid, sql.canonical, Option.some.injEq] at hn
  exact hne (hn.trans (Table.find_eq_some.mp hfind).2.symm)

/-! ### One request -/

lemma sitePath_eq {s t : String} (h : sitePath s = some t) : t = trim s := by
  obtain ⟨htrimmed, -⟩ := Option.filter_eq_some_iff.mp h
  simp only [trimmed] at htrimmed
  split_ifs at htrimmed
  exact (Option.some.inj htrimmed).symm

lemma optional_sitePath_eq {x y : Option String} (h : Common.optional sitePath x = some y) :
    y = x.map trim := by
  cases x with
  | none => exact (Option.some.inj h).symm
  | some s =>
    simp only [Common.optional, Option.map_eq_some_iff] at h
    obtain ⟨t, ht, rfl⟩ := h
    rw [sitePath_eq ht, Option.map_some]

lemma createRedirectSchema_paths {body dto : CreateRedirectDto}
    (h : createRedirectSchema body = some dto) :
    dto.fromPath = trim body.fromPath ∧ dto.toPath = trim body.toPath ∧
      dto.fromPath ≠ dto.toPath := by
  simp only [createRedirectSchema, Option.bind_eq_bind, Option.bind_eq_some_iff] at h
  obtain ⟨fromPath, hfrom, toPath, hto, statusCode, -, h⟩ := h
  split_ifs at h with hne
  obtain rfl := Option.some.inj h
  exact ⟨sitePath_eq hfrom, sitePath_eq hto, hne⟩

lemma updateRedirectSchema_paths {body dto : UpdateRedirectDto}
    (h : updateRedirectSchema body = some dto) :
    dto.fromPath = body.fromPath.map trim ∧ dto.toPath = body.toPath.map trim := by
  simp only [updateRedirectSchema, Option.bind_eq_bind, Option.bind_eq_some_iff] at h
  obtain ⟨fromPath, hfrom, toPath, hto, statusCode, -, h⟩ := h
  obtain rfl := Option.some.inj h
  exact ⟨optional_sitePath_eq hfrom, optional_sitePath_eq hto⟩

/-- The paths a request asks for: those of its body, and where it leaves one out that of the row it
names. -/
def asked (sql : SqlNumeric) (db : RedirectDb coll) : RedirectRequest → Option (String × String)
  | .create body => some (trim body.fromPath, trim body.toPath)
  | .update id body =>
    (findRedirect sql db.redirects id).map fun current =>
      ((body.fromPath.map trim).getD current.fromPath, (body.toPath.map trim).getD current.toPath)
  | .remove _ => none

section Requests

variable [DecidableEq W] {sql : SqlNumeric} {db db' : RedirectDb coll}

/-- The paths a request asks for are one text, or are told apart by the collation. -/
def toldApart (sql : SqlNumeric) (db : RedirectDb coll) (r : RedirectRequest) : Bool :=
  (asked sql db r).all fun (fromPath, toPath) =>
    fromPath = toPath || coll.sortKey fromPath ≠ coll.sortKey toPath

lemma toldApart_iff {r : RedirectRequest} {fromPath toPath : String}
    (h : asked sql db r = some (fromPath, toPath)) (hne : fromPath ≠ toPath) :
    toldApart sql db r = true ↔ coll.sortKey fromPath ≠ coll.sortKey toPath := by
  simp [toldApart, h, hne]

lemma noSecondHop_create {body : CreateRedirectDto} (h : NoSecondHop coll db.redirects.rows)
    (hcreate : createRedirect db body = .ok db') :
    NoSecondHop coll db'.redirects.rows ↔ toldApart sql db (.create body) = true := by
  obtain ⟨dto, hdto, hcreate⟩ := bind_eq_ok hcreate
  obtain ⟨⟨⟩, hcheck, hcreate⟩ := bind_eq_ok hcreate
  obtain ⟨redirects, hinsert, hcreate⟩ := bind_eq_ok hcreate
  cases hcreate
  obtain ⟨hfrom, hto, hne⟩ := createRedirectSchema_paths (validated_ok hdto)
  have hmem (x : Redirect) := UniqueTable.mem_insert (executed_ok hinsert) (x := x)
  rw [noSecondHop_iff h ((hmem _).mpr (Or.inr rfl))]
  · rw [hfrom, hto] at hne
    rw [toldApart_iff rfl hne, hfrom, hto]
  · intro r hr
    rcases (hmem r).mp hr with hr | rfl
    · exact Or.inr ⟨hr, assertNoChain_ok (checked_ok hcheck) hr (by simp)⟩
    · exact Or.inl rfl

lemma noSecondHop_update {id : String} {body : UpdateRedirectDto}
    (h : NoSecondHop coll db.redirects.rows) (hupdate : updateRedirect sql db id body = .ok db') :
    NoSecondHop coll db'.redirects.rows ↔ toldApart sql db (.update id body) = true := by
  obtain ⟨dto, hdto, hupdate⟩ := bind_eq_ok hupdate
  obtain ⟨⟨⟩, hcheck, hupdate⟩ := bind_eq_ok hupdate
  have hcheck := checked_ok hcheck
  cases hcurrent : findRedirect sql db.redirects id with
  | none =>
    rw [hcurrent] at hupdate
    cases hupdate
  | some current =>
    simp only [hcurrent] at hupdate
    obtain ⟨redirects, hreplace, hupdate⟩ := bind_eq_ok hupdate
    cases hupdate
    simp only [assertUpdate, hcurrent] at hcheck
    split_ifs at hcheck with hne
    obtain ⟨hfrom, hto⟩ := updateRedirectSchema_paths (validated_ok hdto)
    have hmem (x : Redirect) := UniqueTable.mem_replace (executed_ok hreplace) (x := x)
    obtain ⟨n, -, hfind⟩ := Option.bind_eq_some_iff.mp hcurrent
    have hcurrentMem := (Table.find_eq_some.mp hfind).1
    rw [noSecondHop_iff h ((hmem _).mpr (Or.inl ⟨rfl, current, hcurrentMem, rfl⟩))]
    · have hasked : asked sql db (.update id body)
          = some (dto.fromPath.getD current.fromPath, dto.toPath.getD current.toPath) := by
        rw [asked, hcurrent, hfrom, hto]
        rfl
      exact (toldApart_iff hasked hne).symm
    · intro r hr
      rcases (hmem r).mp hr with ⟨hrow, -⟩ | ⟨hr, hother⟩
      · exact Or.inl hrow
      · refine Or.inr ⟨hr, ?_⟩
        exact assertNoChain_ok hcheck hr (ne_self_of_ne hcurrent hother)

/-- An accepted request leaves no second hop, unless the paths it asks for differ as texts only. -/
lemma noSecondHop_handle {r : RedirectRequest} (h : NoSecondHop coll db.redirects.rows)
    (hhandle : handle sql db r = .ok db') :
    NoSecondHop coll db'.redirects.rows ↔ toldApart sql db r = true := by
  cases r with
  | create body => exact noSecondHop_create h hhandle
  | update id body => exact noSecondHop_update h hhandle
  | remove id =>
    simp only [handle, removeRedirect] at hhandle
    split at hhandle
    · cases hhandle
    · cases hhandle
      refine iff_of_true ?_ rfl
      intro r hr r' hr'
      exact h r (UniqueTable.mem_deleteWhere.mp hr).1 r' (UniqueTable.mem_deleteWhere.mp hr').1

/-! ### Every run -/

lemma noSecondHop_step {r : RedirectRequest} (h : NoSecondHop coll db.redirects.rows)
    (hapart : toldApart sql db r = true) (hs : step sql db r = some db') :
    NoSecondHop coll db'.redirects.rows := by
  simp only [step] at hs
  split at hs
  · next hhandle =>
    cases hs
    exact (noSecondHop_handle h hhandle).mpr hapart
  · cases hs
    exact h

end Requests

/-- What is resolved is the target of a row with the path asked for. -/
lemma resolvePath_ok {db : RedirectDb coll} {query : Query} {dest : Resolved}
    (h : resolvePath db query = .ok dest) :
    ∃ path, readString query "path" = some path ∧
      ∃ r ∈ db.redirects.rows, coll.sortKey r.fromPath = coll.sortKey path ∧
        r.toPath = dest.toPath := by
  simp only [resolvePath, resolve] at h
  split at h
  · cases h
  · next path hpath =>
    split at h
    · cases h
    · next row hrow =>
      cases h
      refine ⟨path, ?_, row, List.mem_of_find?_eq_some hrow, ?_, rfl⟩
      · exact eq_some_of_truthy hpath
      · have heq : coll.eq row.fromPath path = true := by simpa using List.find?_some hrow
        exact (coll.eq_iff _ _).mp heq

/-- Redirects stay one hop under the collation, in every run whose requests ask for paths that the
collation tells apart wherever they differ. -/
theorem redirects_one_hop_collated [DecidableEq W] {sql : SqlNumeric} {s₀ s : RedirectDb coll}
    (hinit : NoSecondHop coll s₀.redirects.rows)
    (h : Reach (step sql) (fun db r => toldApart sql db r = true) s₀ s) :
    (∀ r ∈ s.redirects.rows, coll.sortKey r.fromPath ≠ coll.sortKey r.toPath) ∧
      (∀ r ∈ s.redirects.rows, ∀ r' ∈ s.redirects.rows,
        coll.sortKey r.toPath ≠ coll.sortKey r'.fromPath) ∧
      ∀ query dest next, resolvePath s query = .ok dest →
        readString next "path" = some dest.toPath → ∀ dest', resolvePath s next ≠ .ok dest' := by
  have hone : NoSecondHop coll s.redirects.rows :=
    h.invariant (P := fun s => NoSecondHop coll s.redirects.rows) hinit
      fun _ _ _ h hapart hs => noSecondHop_step h hapart hs
  refine ⟨fun r hr => (hone r hr r hr).symm, hone, ?_⟩
  intro query dest next hdest hnext dest' hdest'
  obtain ⟨-, -, r, hr, -, hto⟩ := resolvePath_ok hdest
  obtain ⟨path, hpath, r', hr', hfrom, -⟩ := resolvePath_ok hdest'
  obtain rfl : dest.toPath = path := Option.some.inj (hnext.symm.trans hpath)
  apply hone r hr r' hr'
  rw [hfrom, hto]

/-- ASCII letters are equal in either case. -/
def caseInsensitive : KeyCollation (List Char) where
  eq a b := decide (a.toList.map Char.toLower = b.toList.map Char.toLower)
  weight c := c.toLower.toNat
  eq_refl s := by simp
  sortKey s := s.toList.map Char.toLower
  eq_iff a b := by simp

def emptyDb : RedirectDb caseInsensitive := ⟨.empty, 1⟩

/-- The second request would lead on from the first one's target, written in capitals. -/
def chained : List RedirectRequest :=
  [.create ⟨" /a", "/b", none⟩, .create ⟨"/B", "/c", none⟩,
    .update "1" { fromPath := some "/A", toPath := some "/d" }]

theorem redirects_one_hop_collated_chained : ∃ s : RedirectDb caseInsensitive,
    s.redirects.rows.map (fun r => (r.fromPath, r.toPath)) = [("/A", "/d")] ∧
    ∀ r ∈ s.redirects.rows,
      caseInsensitive.sortKey r.fromPath ≠ caseInsensitive.sortKey r.toPath := by
  obtain ⟨s, hrun, hrows⟩ := exists_of_run
    (guarded (step SqlNumeric.decimal) (toldApart SqlNumeric.decimal)) emptyDb chained
    (P := fun s => s.redirects.rows.map (fun r => (r.fromPath, r.toPath)) = [("/A", "/d")])
    (by decide +kernel)
  exact ⟨s, hrows, (redirects_one_hop_collated (by decide) (Reach.of_guarded hrun)).1⟩

/-- A path is redirected to itself in capitals. -/
theorem redirects_loop_collated : ∃ s : RedirectDb caseInsensitive,
    Reach (step SqlNumeric.decimal) always emptyDb s ∧ ∃ r ∈ s.redirects.rows,
      caseInsensitive.sortKey r.fromPath = caseInsensitive.sortKey r.toPath := by
  obtain ⟨s, hrun, hrows⟩ := exists_of_run (step SqlNumeric.decimal) emptyDb
    [.create ⟨"/a", "/A", none⟩]
    (P := fun s => ∃ r ∈ s.redirects.rows,
      caseInsensitive.sortKey r.fromPath = caseInsensitive.sortKey r.toPath)
    (by decide +kernel)
  exact ⟨s, Reach.of_run hrun, hrows⟩

end SafeerApi.Redirects.Collated
