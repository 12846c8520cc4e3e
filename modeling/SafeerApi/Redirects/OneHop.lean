import SafeerApi.Redirects.Effects

/-!
# Redirects stay one hop

Renames repoint, delete and insert redirects, and manual edits are checked against the other rows.
Whatever the order, no redirect leads to a path that is itself redirected.
-/

namespace SafeerApi.Redirects.OneHop

open Common Crud Lib News Public

/-- No row leads to a path that a row leads away from. -/
lemma toPath_ne_fromPath {redirects : RedirectTable} (h : OneHop (target redirects))
    {r r' : Redirect} (hr : r ∈ redirects.rows) (hr' : r' ∈ redirects.rows) :
    r.toPath ≠ r'.fromPath := by
  intro heq
  have hnone := h _ _ (target_of_mem hr)
  rw [heq, target_of_mem hr'] at hnone
  cases hnone

/-! ### Manual edits -/

lemma ne_of_createRedirectSchema {body dto : CreateRedirectDto}
    (h : createRedirectSchema body = some dto) : dto.fromPath ≠ dto.toPath := by
  simp only [createRedirectSchema, Option.bind_eq_bind, Option.bind_eq_some_iff] at h
  obtain ⟨fromPath, -, toPath, -, statusCode, -, h⟩ := h
  split_ifs at h with hne
  obtain rfl := Option.some.inj h
  exact hne

/-- What a check that passes says of the rows it does not leave out. -/
lemma assertNoChain_ok {redirects : RedirectTable} {selfId : Option String}
    {fromPath toPath : String} (h : assertNoChain redirects selfId fromPath toPath = .ok ())
    {r : Redirect} (hr : r ∈ redirects.rows) (hself : some (toString r.id) ≠ selfId) :
    r.fromPath ≠ toPath ∧ r.toPath ≠ fromPath ∧ r.fromPath ≠ fromPath := by
  simp only [assertNoChain] at h
  split_ifs at h with hsource hothers
  rw [ne_eq, not_not] at hothers
  have hnone := List.filter_eq_nil_iff.mp hothers r
  by_contra hclash
  refine hnone (List.mem_filter.mpr ⟨hr, ?_⟩) (decide_eq_true hself)
  simp only [Bool.or_eq_true, decide_eq_true_eq]
  tauto

/-- A redirect that passes the check is added. -/
lemma oneHop_insert {redirects redirects' : RedirectTable} {row : Redirect}
    (h : OneHop (target redirects)) (hne : row.fromPath ≠ row.toPath)
    (hcheck : assertNoChain redirects none row.fromPath row.toPath = .ok ())
    (hinsert : redirects.insert row = some redirects') : OneHop (target redirects') := by
  have hfree : ∀ r ∈ redirects.rows, r.fromPath ≠ row.toPath ∧ r.toPath ≠ row.fromPath ∧
      r.fromPath ≠ row.fromPath := fun r hr => assertNoChain_ok hcheck hr (by simp)
  rw [target_insert hinsert]
  apply h.link hne
  · rw [target, Option.map_eq_none_iff, UniqueTable.lookup_eq_none]
    exact fun r hr => (hfree r hr).1
  · intro x hx
    obtain ⟨r, hr, -, hto⟩ := target_eq_some.mp hx
    exact (hfree r hr).2.1 hto

/-- A redirect is changed and passes the check, which leaves it out. -/
lemma oneHop_replace {redirects redirects' : RedirectTable} {current row : Redirect}
    (selfId : Option String) (h : OneHop (target redirects)) (hne : row.fromPath ≠ row.toPath)
    (hmem : current ∈ redirects.rows) (hid : current.id = row.id)
    (hcheck : assertNoChain redirects selfId row.fromPath row.toPath = .ok ())
    (hself : ∀ r ∈ redirects.rows, r ≠ current → some (toString r.id) ≠ selfId)
    (hreplace : redirects.replace row = some redirects') : OneHop (target redirects') := by
  have hfree : ∀ r ∈ redirects.rows, r ≠ current → r.fromPath ≠ row.toPath ∧
      r.toPath ≠ row.fromPath ∧ r.fromPath ≠ row.fromPath :=
    fun r hr hother => assertNoChain_ok hcheck hr (hself r hr hother)
  -- the redirects without the row that is changed
  have hrest : OneHop (Function.update (target redirects) current.fromPath none) := by
    apply h.mono
    intro x y hxy
    simp only [Function.update_apply] at hxy
    split_ifs at hxy
    exact hxy
  have htarget : target redirects' = Function.update
      (Function.update (target redirects) current.fromPath none) row.fromPath
      (some row.toPath) := by
    funext x
    simp only [target, UniqueTable.lookup_replace hreplace hmem hid, Function.update_apply]
    split_ifs <;> rfl
  rw [htarget]
  apply hrest.link hne
  · simp only [Function.update_apply]
    split_ifs with hto
    · rfl
    · rw [target, Option.map_eq_none_iff, UniqueTable.lookup_eq_none]
      intro r hr hfrom
      by_cases hother : r = current
      · exact hto (by rw [← hfrom, hother])
      · exact (hfree r hr hother).1 hfrom
  · intro x hx
    simp only [Function.update_apply] at hx
    split_ifs at hx with hxc
    obtain ⟨r, hr, hfrom, hto⟩ := target_eq_some.mp hx
    by_cases hother : r = current
    · exact hxc (by rw [← hfrom, hother])
    · exact (hfree r hr hother).2.1 hto

section Requests

variable {env : NewsEnv} {db db' : Site}

lemma oneHop_createRedirect (h : OneHop (target db.redirects)) {body : CreateRedirectDto}
    {row : Redirect} (hcreate : createRedirect db body = .ok (row, db')) :
    OneHop (target db'.redirects) := by
  obtain ⟨dto, hdto, hcreate⟩ := bind_eq_ok hcreate
  obtain ⟨⟨⟩, hcheck, hcreate⟩ := bind_eq_ok hcreate
  obtain ⟨redirects, hinsert, hcreate⟩ := bind_eq_ok hcreate
  cases hcreate
  exact oneHop_insert h (ne_of_createRedirectSchema (validated_ok hdto)) (checked_ok hcheck)
    (executed_ok hinsert)

/-- The row that an edit leaves out of the check is the row it changes. -/
lemma ne_self_of_ne {id : String} {current r : Redirect}
    (hcurrent : findRedirect env db.redirects id = some current) (hr : r ∈ db.redirects.rows)
    (hne : r ≠ current) : some (toString r.id) ≠ some id := by
  intro hid
  obtain ⟨n, hn, hfind⟩ := Option.bind_eq_some_iff.mp hcurrent
  obtain ⟨hmem, hkey⟩ := Table.find_eq_some.mp hfind
  rw [← Option.some.inj hid, env.sql.canonical, Option.some.injEq] at hn
  exact hne (Table.eq_of_key hr hmem (hn.trans hkey.symm))

lemma oneHop_updateRedirect (h : OneHop (target db.redirects)) {id : String}
    {body : UpdateRedirectDto} {row : Redirect}
    (hupdate : updateRedirect env db id body = .ok (row, db')) : OneHop (target db'.redirects) := by
  obtain ⟨dto, hdto, hupdate⟩ := bind_eq_ok hupdate
  obtain ⟨⟨⟩, hcheck, hupdate⟩ := bind_eq_ok hupdate
  have hcheck := checked_ok hcheck
  cases hcurrent : findRedirect env db.redirects id with
  | none =>
    rw [hcurrent] at hupdate
    cases hupdate
  | some current =>
    simp only [hcurrent] at hupdate
    obtain ⟨redirects, hredirects, hupdate⟩ := bind_eq_ok hupdate
    cases hupdate
    simp only [assertUpdate, hcurrent] at hcheck
    split_ifs at hcheck with hne
    obtain ⟨n, -, hfind⟩ := Option.bind_eq_some_iff.mp hcurrent
    have hmem := (Table.find_eq_some.mp hfind).1
    refine oneHop_replace (some id) h ?_ hmem ?_ ?_ ?_ (executed_ok hredirects)
    · exact hne
    · rfl
    · exact hcheck
    · exact fun r hr hother => ne_self_of_ne hcurrent hr hother

lemma oneHop_removeRedirect (h : OneHop (target db.redirects)) {id : String}
    (hremove : removeRedirect env db id = .ok db') : OneHop (target db'.redirects) := by
  simp only [removeRedirect] at hremove
  split at hremove
  · cases hremove
  · cases hremove
    apply h.mono
    intro x y hxy
    obtain ⟨r, hr, hfrom, hto⟩ := target_eq_some.mp hxy
    exact target_eq_some.mpr ⟨r, (UniqueTable.mem_deleteWhere.mp hr).1, hfrom, hto⟩

lemma oneHop_redirectRequest (h : OneHop (target db.redirects)) {r : RedirectRequest}
    (hhandle : r.handle env db = .ok db') : OneHop (target db'.redirects) := by
  cases r with
  | create body =>
    simp only [RedirectRequest.handle] at hhandle
    obtain ⟨row, hhandle⟩ := map_snd_ok hhandle
    exact oneHop_createRedirect h hhandle
  | update id body =>
    simp only [RedirectRequest.handle] at hhandle
    obtain ⟨row, hhandle⟩ := map_snd_ok hhandle
    exact oneHop_updateRedirect h hhandle
  | remove id => exact oneHop_removeRedirect h hhandle

/-! ### Posts -/

lemma oneHop_moves {f f' : String → Option String} {before entity : Post}
    (hmoves : Moves f before entity f') (h : OneHop f) : OneHop f' := by
  cases hmoves with
  | stays => exact h
  | noSlug => exact h
  | published => exact h.moved _ _
  | unpublished => exact h.settled _

lemma oneHop_postRequest (h : OneHop (target db.redirects)) {r : PostRequest}
    (hhandle : r.handle env db = .ok db') : OneHop (target db'.redirects) := by
  cases effect_of_handle hhandle with
  | created p _ _ _ _ htarget =>
    rw [htarget]
    exact h.settled _
  | saved _ _ hsaved => exact oneHop_moves hsaved.moves h
  | removed _ _ hredirects =>
    rw [hredirects]
    exact h

end Requests

/-! ### Every run -/

inductive Request where
  | post (r : PostRequest)
  | redirect (r : RedirectRequest)

def step (env : NewsEnv) (db : Site) : Request → Option Site
  | .post r => some (settle db (r.handle env db))
  | .redirect r => some (settle db (r.handle env db))

lemma oneHop_settle {db : Site} {result : Except Refusal Site} (h : OneHop (target db.redirects))
    (hok : ∀ db', result = .ok db' → OneHop (target db'.redirects)) :
    OneHop (target (settle db result).redirects) := by
  cases result with
  | error e => exact h
  | ok db' => exact hok db' rfl

lemma oneHop_step {env : NewsEnv} {db db' : Site} {r : Request} (h : OneHop (target db.redirects))
    (hs : step env db r = some db') : OneHop (target db'.redirects) := by
  cases r with
  | post r =>
    cases hs
    exact oneHop_settle h fun _ hok => oneHop_postRequest h hok
  | redirect r =>
    cases hs
    exact oneHop_settle h fun _ hok => oneHop_redirectRequest h hok

/-- Redirects stay one hop, whatever posts and redirects are written one after another. -/
theorem redirects_one_hop {env : NewsEnv} {s₀ s : Site} (hempty : s₀.redirects.rows = [])
    (h : Reach (step env) always s₀ s) :
    (s.redirects.rows.map Redirect.fromPath).Nodup ∧
      (∀ r ∈ s.redirects.rows, r.fromPath ≠ r.toPath) ∧
      (∀ r ∈ s.redirects.rows, ∀ r' ∈ s.redirects.rows, r.toPath ≠ r'.fromPath) ∧
      ∀ query dest next, resolvePath s query = .ok dest →
        readString next "path" = some dest.toPath → ∀ dest', resolvePath s next ≠ .ok dest' := by
  have hinit : OneHop (target s₀.redirects) := by
    intro x y hxy
    obtain ⟨r, hr, -⟩ := target_eq_some.mp hxy
    rw [hempty] at hr
    cases hr
  have hone : OneHop (target s.redirects) :=
    h.invariant (P := fun s => OneHop (target s.redirects)) hinit
      fun _ _ _ hi _ hs => oneHop_step hi hs
  refine ⟨s.redirects.unique, ?_, ?_, ?_⟩
  · intro r hr
    exact hone.ne (target_of_mem hr)
  · exact fun r hr r' hr' => toPath_ne_fromPath hone hr hr'
  · intro query dest next hdest hnext dest' hdest'
    obtain ⟨path, -, htarget⟩ := resolvePath_ok hdest
    obtain ⟨path', hpath', htarget'⟩ := resolvePath_ok hdest'
    obtain rfl : dest.toPath = path' := Option.some.inj (hnext.symm.trans hpath')
    rw [hone _ _ htarget] at htarget'
    cases htarget'

/-- A post is renamed twice and back, and a redirect by hand leads to its path. -/
def renamedBack : List Request :=
  [.post (.create 0 "2024-01-01" { titleAr := "a", categoryId := "1", isPublished := some true }),
    .post (.update "2024-01-02" "1" { slug := some "b" }),
    .redirect (.create ⟨"/?p=7497", "/news/b", none⟩),
    .post (.update "2024-01-03" "1" { slug := some "c" }),
    .post (.update "2024-01-04" "1" { slug := some "a" })]

theorem redirects_one_hop_renamed : ∃ s : Site,
    s.redirects.rows.map (fun r => (r.fromPath, r.toPath))
      = [("/?p=7497", "/news/a"), ("/news/b", "/news/a"), ("/news/c", "/news/a")] ∧
    ∀ r ∈ s.redirects.rows, ∀ r' ∈ s.redirects.rows, r.toPath ≠ r'.fromPath := by
  obtain ⟨s, hrun, hrows⟩ := exists_of_run (step ascii) emptySite renamedBack
    (P := fun s => s.redirects.rows.map (fun r => (r.fromPath, r.toPath))
      = [("/?p=7497", "/news/a"), ("/news/b", "/news/a"), ("/news/c", "/news/a")])
    (by decide +kernel)
  exact ⟨s, hrows, (redirects_one_hop rfl (Reach.of_run hrun)).2.2.1⟩

end SafeerApi.Redirects.OneHop
