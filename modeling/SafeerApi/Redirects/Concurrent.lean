import SafeerApi.Lib.DirtyWrite
import SafeerApi.Lib.Joined
import SafeerApi.Redirects.OneHop

/-!
# Redirects by hand under concurrency

The database steps of any number of creates and updates, in any order. Both check for chains and
write later, with no lock in between. An update checks its change against the row as it was at first,
merges it into the row the kernel loads, and saves the columns in which that differs from the row the
save re-reads.
-/

namespace SafeerApi.Redirects.Concurrent

open Common Crud Lib News Public

/-! ### Requests under way -/

inductive Call where
  | create (body : CreateRedirectDto)
  | update (id : String) (body : UpdateRedirectDto)

/-- Where a request is: a create past its check, an update past its first load, past its check, past
the kernel's load and past the save's re-read. -/
inductive Stage where
  | called
  | inserting (dto : CreateRedirectDto)
  | checking (dto : UpdateRedirectDto) (fromPath toPath : String)
  | loading (dto : UpdateRedirectDto)
  | toSave (entity : Redirect)
  | saving (entity reread : Redirect)
  | over

structure Request where
  call : Call
  stage : Stage := .called

structure State where
  redirects : RedirectTable
  nextId : ℕ
  requests : List Request

def State.init (redirects : RedirectTable) (nextId : ℕ) : State := ⟨redirects, nextId, []⟩

inductive Action where
  | request (call : Call)
  | proceed (i : ℕ)
  | fail (i : ℕ)

def State.setStage (s : State) (i : ℕ) (r : Request) (stage : Stage) : State :=
  { s with requests := s.requests.set i { r with stage := stage } }

/-! ### Statements -/

def newRow (id : ℕ) (dto : CreateRedirectDto) : Redirect :=
  ⟨id, dto.fromPath, dto.toPath, dto.statusCode.getD 301⟩

/-- `Object.assign(entity, dto)` -/
def assign (entity : Redirect) (dto : UpdateRedirectDto) : Redirect :=
  { entity with
    fromPath := dto.fromPath.getD entity.fromPath
    toPath := dto.toPath.getD entity.toPath
    statusCode := dto.statusCode.getD entity.statusCode }

/-- The row after a save. -/
def savedRow (entity reread row : Redirect) : Redirect :=
  { row with
    fromPath := saved entity.fromPath reread.fromPath row.fromPath
    toPath := saved entity.toPath reread.toPath row.toPath
    statusCode := saved entity.statusCode reread.statusCode row.statusCode }

def afterCheck (stage : Stage) : Except Problem Unit → Stage
  | .ok () => stage
  | .error _ => .over

/-- The checks of a create: of the body, and for chains. -/
def createStage (redirects : RedirectTable) (body : CreateRedirectDto) : Stage :=
  match createRedirectSchema body with
  | none => .over
  | some dto =>
    afterCheck (.inserting dto) (assertNoChain redirects none dto.fromPath dto.toPath)

/-- The first load of an update. Without a row the check is left to the kernel. -/
def updateStage (env : NewsEnv) (redirects : RedirectTable) (id : String) (body : UpdateRedirectDto) :
    Stage :=
  match updateRedirectSchema body with
  | none => .over
  | some dto =>
    match findRedirect env redirects id with
    | none => .loading dto
    | some current =>
      let fromPath := dto.fromPath.getD current.fromPath
      let toPath := dto.toPath.getD current.toPath
      if fromPath = toPath then .over else .checking dto fromPath toPath

/-- The kernel's load. -/
def loadStage (env : NewsEnv) (redirects : RedirectTable) (id : String) (dto : UpdateRedirectDto) :
    Stage :=
  match findRedirect env redirects id with
  | none => .over
  | some entity => .toSave (assign entity dto)

/-- A write that the unique index refuses changes nothing. -/
def State.written (s : State) (redirects : Option RedirectTable) : State :=
  { s with redirects := redirects.getD s.redirects }

/-- The next statement of a request. -/
def proceed (env : NewsEnv) (s : State) (i : ℕ) (r : Request) : Option State :=
  match r.call, r.stage with
  | .create body, .called => some (s.setStage i r (createStage s.redirects body))
  | .create _, .inserting dto =>
    some { (s.setStage i r .over).written (s.redirects.insert (newRow s.nextId dto)) with
      nextId := s.nextId + 1 }
  | .update id body, .called => some (s.setStage i r (updateStage env s.redirects id body))
  | .update id _, .checking dto fromPath toPath =>
    some (s.setStage i r
      (afterCheck (.loading dto) (assertNoChain s.redirects (some id) fromPath toPath)))
  | .update id _, .loading dto => some (s.setStage i r (loadStage env s.redirects id dto))
  | .update _ _, .toSave entity => (s.redirects.find entity.id).map fun reread =>
    s.setStage i r (.saving entity reread)
  | .update _ _, .saving entity reread => (s.redirects.find entity.id).map fun row =>
    (s.setStage i r .over).written (s.redirects.replace (savedRow entity reread row))
  | _, _ => none

def step (env : NewsEnv) (s : State) : Action → Option State
  | .request call => some { s with requests := s.requests ++ [{ call := call }] }
  | .proceed i => (s.requests[i]?).bind (proceed env s i)
  | .fail i => (s.requests[i]?).map fun r => s.setStage i r .over

/-! ### The condition -/

/-- The check that a request made still passes for a row it is about to write. -/
def passes (redirects : RedirectTable) (selfId : Option String) (row : Redirect) : Bool :=
  row.fromPath ≠ row.toPath && (assertNoChain redirects selfId row.fromPath row.toPath).isOk

/-- Every row a request writes passes the check against the table as it is by then, or the unique
index refuses it. -/
def stillPasses (s : State) : Action → Bool
  | .proceed i => (s.requests[i]?).all fun r =>
    match r.stage with
    | .inserting dto =>
      let row := newRow s.nextId dto
      (s.redirects.insert row).isNone || passes s.redirects none row
    | .saving entity reread => (s.redirects.find entity.id).all fun row =>
      let row := savedRow entity reread row
      (s.redirects.replace row).isNone || passes s.redirects (some (toString row.id)) row
    | _ => true
  | _ => true

/-! ### Every run -/

/-- No row leads to a path that a row leads away from, and none to itself. -/
def NoChain (redirects : RedirectTable) : Prop :=
  (∀ r ∈ redirects.rows, r.fromPath ≠ r.toPath) ∧
    ∀ r ∈ redirects.rows, ∀ r' ∈ redirects.rows, r ≠ r' → r.toPath ≠ r'.fromPath

lemma noChain_iff {redirects : RedirectTable} : NoChain redirects ↔ OneHop (target redirects) := by
  constructor
  · rintro ⟨hself, hothers⟩ x y hxy
    obtain ⟨r, hr, -, rfl⟩ := target_eq_some.mp hxy
    rw [target, Option.map_eq_none_iff, UniqueTable.lookup_eq_none]
    intro r' hr' heq
    by_cases hrr' : r = r'
    · exact hself r hr (by rw [← heq, hrr'])
    · exact hothers r hr r' hr' hrr' heq.symm
  · intro h
    exact ⟨fun r hr => h.ne (target_of_mem hr),
      fun r hr r' hr' _ => OneHop.toPath_ne_fromPath h hr hr'⟩

lemma passes_iff {redirects : RedirectTable} {selfId : Option String} {row : Redirect} :
    passes redirects selfId row = true ↔ row.fromPath ≠ row.toPath ∧
      assertNoChain redirects selfId row.fromPath row.toPath = .ok () := by
  simp only [passes, Bool.and_eq_true, decide_eq_true_eq]
  refine and_congr_right fun _ => ?_
  cases assertNoChain redirects selfId row.fromPath row.toPath with
  | ok a => cases a; exact ⟨fun _ => rfl, fun _ => rfl⟩
  | error e => exact ⟨fun h => (by cases h), fun h => (by cases h)⟩

variable {env : NewsEnv} {s s' : State} {i : ℕ} {r : Request}

/-- An insert that the check would still let through, or that is refused. -/
lemma oneHop_inserted (h : OneHop (target s.redirects)) {row : Redirect}
    (hok : ((s.redirects.insert row).isNone || passes s.redirects none row) = true) :
    OneHop (target ((s.redirects.insert row).getD s.redirects)) := by
  cases hinsert : s.redirects.insert row with
  | none => exact h
  | some redirects =>
    rw [hinsert, Option.isNone_some, Bool.false_or, passes_iff] at hok
    exact OneHop.oneHop_insert h hok.1 hok.2 hinsert

/-- The same of an update of the row with the id of `row`. -/
lemma oneHop_replaced (h : OneHop (target s.redirects)) {current row : Redirect}
    (hmem : current ∈ s.redirects.rows) (hid : current.id = row.id)
    (hok : ((s.redirects.replace row).isNone ||
      passes s.redirects (some (toString row.id)) row) = true) :
    OneHop (target ((s.redirects.replace row).getD s.redirects)) := by
  cases hreplace : s.redirects.replace row with
  | none => exact h
  | some redirects =>
    rw [hreplace, Option.isNone_some, Bool.false_or, passes_iff] at hok
    refine OneHop.oneHop_replace (some (toString row.id)) h hok.1 hmem hid hok.2 ?_ hreplace
    intro r hr hother hself
    have hkey : r.id = row.id := toString_inj (Option.some.inj hself)
    exact hother (Table.eq_of_key hr hmem (hkey.trans hid.symm))

lemma oneHop_proceed (h : OneHop (target s.redirects)) (hr : s.requests[i]? = some r)
    (hok : stillPasses s (.proceed i) = true) (hs : proceed env s i r = some s') :
    OneHop (target s'.redirects) := by
  simp only [stillPasses, hr, Option.all_some] at hok
  simp only [proceed] at hs
  split at hs
  · cases hs; exact h
  · next hstage =>
    cases hs
    rw [hstage] at hok
    exact oneHop_inserted h hok
  · cases hs; exact h
  · cases hs; exact h
  · cases hs; exact h
  · obtain ⟨reread, -, rfl⟩ := Option.map_eq_some_iff.mp hs
    exact h
  · next entity reread _ hstage =>
    obtain ⟨row, hrow, rfl⟩ := Option.map_eq_some_iff.mp hs
    rw [hstage] at hok
    simp only [hrow, Option.all_some] at hok
    exact oneHop_replaced h (Table.find_eq_some.mp hrow).1 rfl hok
  · cases hs

lemma oneHop_step {a : Action} (h : OneHop (target s.redirects)) (hok : stillPasses s a = true)
    (hs : step env s a = some s') : OneHop (target s'.redirects) := by
  cases a with
  | request call => cases hs; exact h
  | proceed i =>
    obtain ⟨r, hr, hs⟩ := Option.bind_eq_some_iff.mp hs
    exact oneHop_proceed h hr hok hs
  | fail i =>
    obtain ⟨r, -, rfl⟩ := Option.map_eq_some_iff.mp hs
    exact h

/-- Starting without chains, every interleaving that meets the condition stays without chains. -/
theorem no_chain_interleaved {redirects : RedirectTable} {nextId : ℕ} (hstart : NoChain redirects)
    (h : Reach (step env) (fun s a => stillPasses s a = true) (State.init redirects nextId) s) :
    NoChain s.redirects := by
  have hone : OneHop (target s.redirects) :=
    h.invariant (P := fun s => OneHop (target s.redirects)) (noChain_iff.mp hstart)
      fun _ _ _ hi hok hs => oneHop_step hi hok hs
  exact noChain_iff.mpr hone

/-- A redirect is created, and then changed while another one is created. -/
def changedAlongside : List Action :=
  [.request (.create ⟨"/old", "/new", none⟩), .proceed 0, .proceed 0,
    .request (.update "1" { toPath := some "/newer" }), .proceed 1,
    .request (.create ⟨"/older", "/newer", some 302⟩), .proceed 2, .proceed 1, .proceed 2,
    .proceed 1, .proceed 1, .proceed 1]

theorem no_chain_interleaved_alongside : ∃ s : State,
    s.redirects.rows.map (fun r => (r.fromPath, r.toPath))
      = [("/old", "/newer"), ("/older", "/newer")] ∧ NoChain s.redirects := by
  obtain ⟨s, hrun, hrows⟩ := exists_of_run (guarded (step ascii) stillPasses)
    (State.init .empty 1) changedAlongside
    (P := fun s => s.redirects.rows.map (fun r => (r.fromPath, r.toPath))
      = [("/old", "/newer"), ("/older", "/newer")]) (by decide +kernel)
  have hstart : NoChain UniqueTable.empty :=
    ⟨fun r hr => absurd hr List.not_mem_nil, fun r hr => absurd hr List.not_mem_nil⟩
  exact ⟨s, hrows, no_chain_interleaved hstart (Reach.of_guarded hrun)⟩

/-- Both creates check before either inserts. -/
def createdTogether : List Action :=
  [.request (.create ⟨"/a", "/b", none⟩), .request (.create ⟨"/b", "/c", none⟩), .proceed 0,
    .proceed 1, .proceed 0, .proceed 1]

theorem chain_created : ∃ s : State,
    run (step ascii) (State.init .empty 1) createdTogether = some s ∧
      s.redirects.rows.map (fun r => (r.fromPath, r.toPath)) = [("/a", "/b"), ("/b", "/c")] ∧
      ¬ NoChain s.redirects := by
  obtain ⟨s, hrun, hrows⟩ := exists_of_run (step ascii) (State.init .empty 1) createdTogether
    (P := fun s => s.redirects.rows.map (fun r => (r.fromPath, r.toPath))
      = [("/a", "/b"), ("/b", "/c")]) (by decide +kernel)
  refine ⟨s, hrun, hrows, fun hchain => ?_⟩
  have hmem : ∀ {x : String × String}, x ∈ [("/a", "/b"), ("/b", "/c")] →
      ∃ r ∈ s.redirects.rows, (r.fromPath, r.toPath) = x := by
    intro x hx
    exact List.mem_map.mp (hrows ▸ hx)
  obtain ⟨r, hr, heq⟩ := hmem (x := ("/a", "/b")) (by simp)
  obtain ⟨r', hr', heq'⟩ := hmem (x := ("/b", "/c")) (by simp)
  simp only [Prod.mk.injEq] at heq heq'
  refine hchain.2 r hr r' hr' ?_ (heq.2.trans heq'.1.symm)
  rintro rfl
  exact absurd (heq.1.symm.trans heq'.1) (by decide)

end SafeerApi.Redirects.Concurrent
