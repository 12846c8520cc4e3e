import Mathlib.Data.List.Perm.Basic
import Mathlib.Data.List.Sort
import Mathlib.Data.String.Basic
import SafeerApi.Access.Guards
import SafeerApi.Lib.Joined

/-!
# The role matrix (`role-matrix.ts`, `scripts/lib/check-admin-roles.mjs`)

Every route of the dashboard is in an area, and the areas say which roles may use it. The gate that
runs before a release walks the controllers and compares; what it lets pass is what the guards
enforce.
-/

namespace SafeerApi.Access

open Accounts Lib

/-! ### Areas -/

/-- `AREA_ROLES` -/
def areaRoles : Area → List UserRole
  | .content => [.admin, .editor]
  | .redirectsDelete => [.admin]
  | .inbox => [.admin, .support]
  | .inboxDelete => [.admin]
  | .users => [.admin]
  | .settings => [.admin]
  | .audit => [.admin]

def areaName : Area → String
  | .content => "content"
  | .redirectsDelete => "redirects.delete"
  | .inbox => "inbox"
  | .inboxDelete => "inbox.delete"
  | .users => "users"
  | .settings => "settings"
  | .audit => "audit"

def roleName : UserRole → String
  | .admin => "admin"
  | .editor => "editor"
  | .support => "support"

/-- `@Area(area)` -/
def areaMetadata (area : Area) : Metadata := { roles := some (areaRoles area), area := some area }

lemma roleName_injective : Function.Injective roleName := by
  intro a b h
  cases a <;> cases b <;> first | rfl | simp [roleName] at h

lemma areaRoles_ne_nil (area : Area) : areaRoles area ≠ [] := by cases area <;> simp [areaRoles]

/-! ### Controllers -/

/-- A function of a controller's prototype. -/
structure Handler where
  isRoute : Bool
  path : String := ""
  metadata : Metadata := {}
  deriving DecidableEq, Repr

/-- A registered controller: `prototypes` are the properties of its prototype and of the ones above
it, the nearest first; a property that is no function has no handler. -/
structure Controller where
  name : String
  path : Option String
  metadata : Metadata := {}
  prototypes : List (List (String × Option Handler))
  deriving DecidableEq, Repr

/-- The function a call of the method finds. -/
def Controller.method (c : Controller) (name : String) : Option Handler :=
  (c.prototypes.flatten.find? fun p => p.1 = name).bind Prod.snd

/-! ### The gate -/

def stripSlashes (s : String) : List Char :=
  ((s.toList.dropWhile (· = '/')).reverse.dropWhile (· = '/')).reverse

def joinPaths (segments : List String) : String :=
  String.ofList (['/'].intercalate ((segments.map stripSlashes).filter (· ≠ [])))

/-- What `.` does not match. -/
def isLineTerminator (c : Char) : Bool := c.toNat ∈ [0xA, 0xD, 0x2028, 0x2029]

/-- `^prefix(\/.*)?$` -/
def isUnder (root path : String) : Bool :=
  path = root || ((root ++ "/").toList.isPrefixOf path.toList &&
    (path.toList.drop (root.length + 1)).all fun c => !isLineTerminator c)

/-- The routes that are open to whoever is signed in. -/
def isAllowed (path : String) : Bool :=
  path = "admin/me" || isUnder "admin/auth" path || path = "admin/overview" ||
    isUnder "admin/preview-token" path || path = "admin/roles"

/-- `^admin(\/|$)` -/
def isAdmin (path : String) : Bool := path = "admin" || "admin/".toList.isPrefixOf path.toList

/-- One step of the walk of `collectHandlers`. -/
def addHandler (handlers : List (String × Handler)) (p : String × Option Handler) :
    List (String × Handler) :=
  if p.1 = "constructor" || handlers.any (·.1 = p.1) then handlers
  else
    match p.2 with
    | some handler => handlers ++ [(p.1, handler)]
    | none => handlers

def collectHandlers (c : Controller) : List (String × Handler) :=
  c.prototypes.flatten.foldl addHandler []

/-- `[...roles].sort().join(',')` -/
def sortedNames (roles : List UserRole) : List Char :=
  [','].intercalate (((roles.map roleName).insertionSort (· ≤ ·)).map String.toList)

structure Violation where
  path : String
  controller : String
  method : String
  problem : String
  deriving DecidableEq, Repr

def listed (roles : List UserRole) : String :=
  "[" ++ String.intercalate ", " (roles.map roleName) ++ "]"

/-- What is wrong with a route that is neither public nor on the list. -/
def problemOf (r : Route) : Option String :=
  match r.roles with
  | none | some [] => some "no @Roles()"
  | some roles =>
    match r.area with
    | none => some "no role-matrix @Area()"
    | some area =>
      if sortedNames roles = sortedNames (areaRoles area) then none
      else some ("roles " ++ listed roles ++ " differ from area '" ++ areaName area ++ "' " ++
        listed (areaRoles area))

/-- The checks of one handler. -/
def violationOf (c : Controller) (controllerPath name : String) (handler : Handler) :
    Option Violation :=
  let fullPath := joinPaths [controllerPath, handler.path]
  let route : Route := ⟨handler.metadata, c.metadata⟩
  if !handler.isRoute || !isAdmin fullPath || isAllowed fullPath || route.isPublic then none
  else (problemOf route).map fun problem => ⟨fullPath, c.name, name, problem⟩

def findUnroledAdminRoutes (controllers : List Controller) : List Violation :=
  controllers.flatMap fun c =>
    match c.path with
    | none => []
    | some path => (collectHandlers c).filterMap fun h => violationOf c path h.1 h.2

/-! ### What the gate finds -/

section Gate

variable {c : Controller} {name : String} {handler : Handler}

/-- A collected handler stays, and the first function of a name is collected. -/
lemma mem_foldl_addHandler {properties : List (String × Option Handler)}
    {handlers : List (String × Handler)} (hname : name ≠ "constructor")
    (h : (name, handler) ∈ handlers ∨ (∀ p ∈ handlers, p.1 ≠ name) ∧
      (properties.find? fun p => p.1 = name).bind Prod.snd = some handler) :
    (name, handler) ∈ properties.foldl addHandler handlers := by
  induction properties generalizing handlers with
  | nil => simpa using h
  | cons p properties ih =>
    rw [List.foldl_cons]
    apply ih
    rcases h with hmem | ⟨hnew, hfind⟩
    · left
      simp only [addHandler]
      split_ifs
      · exact hmem
      · split
        · exact List.mem_append_left _ hmem
        · exact hmem
    · rw [List.find?_cons] at hfind
      by_cases hp : p.1 = name
      · left
        simp only [hp, decide_true, Option.bind_some] at hfind
        have hfree : handlers.any (·.1 = p.1) = false := by
          simp only [List.any_eq_false, decide_eq_true_eq, hp]
          exact hnew
        rw [addHandler, hfree]
        simp [hp, hname, hfind]
      · right
        simp only [hp, decide_false] at hfind
        refine ⟨?_, hfind⟩
        simp only [addHandler]
        split_ifs
        · exact hnew
        · split
          · intro q hq
            rcases List.mem_append.mp hq with hq | hq
            · exact hnew q hq
            · rw [List.mem_singleton.mp hq]
              exact hp
          · exact hnew

/-- Whatever a request can call was looked at. -/
lemma mem_collectHandlers (hname : name ≠ "constructor") (h : c.method name = some handler) :
    (name, handler) ∈ collectHandlers c :=
  mem_foldl_addHandler hname (.inr ⟨by simp, h⟩)

lemma comma_notMem_roleName (role : UserRole) : ',' ∉ (roleName role).toList := by
  cases role <;> decide

lemma roleName_ne_nil (role : UserRole) : (roleName role).toList ≠ [] := by
  cases role <;> decide

/-- The texts agree exactly when the roles do, in whatever order. -/
lemma sortedNames_eq_iff {roles roles' : List UserRole} :
    sortedNames roles = sortedNames roles' ↔ roles.Perm roles' := by
  have hparts : ∀ (roles : List UserRole),
      ∀ p ∈ ((roles.map roleName).insertionSort (· ≤ ·)).map String.toList,
        ∃ role, p = (roleName role).toList := by
    intro roles p hp
    obtain ⟨name, hname, rfl⟩ := List.mem_map.mp hp
    obtain ⟨role, -, rfl⟩ := List.mem_map.mp ((List.mem_insertionSort _).mp hname)
    exact ⟨role, rfl⟩
  have hfree : ∀ (roles : List UserRole),
      ∀ p ∈ ((roles.map roleName).insertionSort (· ≤ ·)).map String.toList, ',' ∉ p := by
    intro roles p hp
    obtain ⟨role, rfl⟩ := hparts roles p hp
    exact comma_notMem_roleName role
  have hnonempty : ∀ (roles : List UserRole),
      ∀ p ∈ ((roles.map roleName).insertionSort (· ≤ ·)).map String.toList, p ≠ [] := by
    intro roles p hp
    obtain ⟨role, rfl⟩ := hparts roles p hp
    exact roleName_ne_nil role
  constructor
  · intro h
    have hnil := intercalate_eq_nil (c := ',') (hnonempty roles)
    have hnil' := intercalate_eq_nil (c := ',') (hnonempty roles')
    rw [sortedNames, sortedNames] at h
    have hjoin := intercalate_inj (hnil.symm.trans (by rw [h]; exact hnil')) (hfree roles)
      (hfree roles') h
    have hsorted := (List.map_injective_iff.mpr fun a b hab => String.toList_injective hab) hjoin
    have hperm := (List.perm_insertionSort (· ≤ ·) (roles.map roleName)).symm.trans
      (hsorted ▸ List.perm_insertionSort (· ≤ ·) (roles'.map roleName))
    exact (List.map_perm_map_iff roleName_injective).mp hperm
  · intro h
    have hperm := ((List.perm_insertionSort (· ≤ ·) _).trans (h.map roleName)).trans
      (List.perm_insertionSort (· ≤ ·) _).symm
    have heq := hperm.eq_of_pairwise (fun a b _ _ hab hba => le_antisymm hab hba)
      (List.pairwise_insertionSort (· ≤ ·) _) (List.pairwise_insertionSort (· ≤ ·) _)
    rw [sortedNames, sortedNames, heq]

/-- Nothing is wrong with a route that asks for the roles of its area. -/
lemma problemOf_eq_none {r : Route} : problemOf r = none ↔
    ∃ area roles, r.area = some area ∧ r.roles = some roles ∧ roles.Perm (areaRoles area) := by
  simp only [problemOf]
  constructor
  · intro h
    split at h
    · cases h
    · cases h
    · next roles _ hroles =>
      split at h
      · cases h
      · next area harea =>
        split_ifs at h with hsorted
        exact ⟨area, roles, harea, hroles, sortedNames_eq_iff.mp hsorted⟩
  · rintro ⟨area, roles, harea, hroles, hperm⟩
    have hne : roles ≠ [] := by
      rintro rfl
      exact areaRoles_ne_nil area hperm.nil_eq.symm
    obtain ⟨role, roles, rfl⟩ := List.exists_cons_of_ne_nil hne
    simp [hroles, harea, sortedNames_eq_iff.mpr hperm]

/-- A handler of the dashboard that the gate looks at: its controller, its name, its full path and its
route. -/
def Looked (controllers : List Controller) (c : Controller) (name path : String) (r : Route) : Prop :=
  c ∈ controllers ∧ ∃ controllerPath handler, c.path = some controllerPath ∧
    (name, handler) ∈ collectHandlers c ∧ handler.isRoute = true ∧
    path = joinPaths [controllerPath, handler.path] ∧ r = ⟨handler.metadata, c.metadata⟩ ∧
    isAdmin path = true ∧ isAllowed path = false ∧ r.isPublic = false

lemma violationOf_eq_some {controllerPath : String} {v : Violation} :
    violationOf c controllerPath name handler = some v ↔
      handler.isRoute = true ∧ v.path = joinPaths [controllerPath, handler.path] ∧
        isAdmin v.path = true ∧ isAllowed v.path = false ∧
        (⟨handler.metadata, c.metadata⟩ : Route).isPublic = false ∧ v.controller = c.name ∧
        v.method = name ∧ problemOf ⟨handler.metadata, c.metadata⟩ = some v.problem := by
  simp only [violationOf, Option.ite_none_left_eq_some, Option.map_eq_some_iff, Bool.or_eq_true,
    Bool.not_eq_true', not_or, Bool.not_eq_true, Bool.not_eq_false]
  constructor
  · rintro ⟨⟨⟨⟨hroute, hadmin⟩, hallowed⟩, hprivate⟩, problem, hproblem, rfl⟩
    exact ⟨hroute, rfl, hadmin, hallowed, hprivate, rfl, rfl, hproblem⟩
  · rintro ⟨hroute, hpath, hadmin, hallowed, hprivate, hname, hmethod, hproblem⟩
    rw [hpath] at hadmin hallowed
    refine ⟨⟨⟨⟨hroute, hadmin⟩, hallowed⟩, hprivate⟩, v.problem, hproblem, ?_⟩
    rw [← hpath, ← hname, ← hmethod]

/-- What the gate reports: the routes it looks at, with what is wrong with each. -/
lemma mem_findUnroledAdminRoutes {controllers : List Controller} {v : Violation} :
    v ∈ findUnroledAdminRoutes controllers ↔ ∃ c r, Looked controllers c v.method v.path r ∧
      v.controller = c.name ∧ problemOf r = some v.problem := by
  simp only [findUnroledAdminRoutes, List.mem_flatMap]
  constructor
  · rintro ⟨c, hc, hv⟩
    split at hv
    · cases hv
    · next controllerPath hcontroller =>
      obtain ⟨⟨name, handler⟩, hmem, hviolation⟩ := List.mem_filterMap.mp hv
      obtain ⟨hroute, hpath, hadmin, hallowed, hprivate, hname, hmethod, hproblem⟩ :=
        violationOf_eq_some.mp hviolation
      have hlisted : (v.method, handler) ∈ collectHandlers c := by
        rw [hmethod]
        exact hmem
      exact ⟨c, _, ⟨hc, controllerPath, handler, hcontroller, hlisted, hroute, hpath, rfl, hadmin,
        hallowed, hprivate⟩, hname, hproblem⟩
  · rintro ⟨c, r, ⟨hc, controllerPath, handler, hcontroller, hmem, hroute, hpath, rfl, hadmin,
      hallowed, hprivate⟩, hname, hproblem⟩
    refine ⟨c, hc, ?_⟩
    rw [hcontroller]
    exact List.mem_filterMap.mpr ⟨_, hmem, violationOf_eq_some.mpr
      ⟨hroute, hpath, hadmin, hallowed, hprivate, hname, rfl, hproblem⟩⟩

/-- When the gate passes, every route it looks at asks for the roles of its area. -/
lemma problemOf_of_gate {controllers : List Controller} {path : String} {r : Route}
    (hgate : findUnroledAdminRoutes controllers = []) (h : Looked controllers c name path r) :
    problemOf r = none := by
  by_contra hproblem
  obtain ⟨problem, hproblem⟩ := Option.ne_none_iff_exists'.mp hproblem
  have hv : (⟨path, c.name, name, problem⟩ : Violation) ∈ findUnroledAdminRoutes controllers :=
    mem_findUnroledAdminRoutes.mpr ⟨c, r, h, rfl, hproblem⟩
  rw [hgate] at hv
  cases hv

end Gate

/-- A request to `path` is answered by this handler of a controller. -/
def Served (controllers : List Controller) (path : String) (r : Route) : Prop :=
  ∃ c ∈ controllers, ∃ controllerPath name handler, c.path = some controllerPath ∧
    name ≠ "constructor" ∧ c.method name = some handler ∧ handler.isRoute = true ∧
    path = joinPaths [controllerPath, handler.path] ∧ r = ⟨handler.metadata, c.metadata⟩

/-- The gate passes only if every route of the dashboard that is neither public nor on the list is
in an area, and lets exactly those requests pass that show a live session of an active account with
a role of that area, and the session's token unless they change nothing. Each route the gate reports
is one it looks at that has no area, or asks for other roles than its area's. -/
theorem admin_gate_exact (controllers : List Controller) :
    (findUnroledAdminRoutes controllers = [] → ∀ path r, Served controllers path r →
      isAdmin path = true → isAllowed path = false → r.isPublic = false →
      ∃ area, r.area = some area ∧ ∀ env db now req,
        (∃ ctx, admits env db now r req = .ok ctx) ↔
          ∃ s u, SignedIn env db now req s u ∧ u.role ∈ areaRoles area) ∧
    (∀ v ∈ findUnroledAdminRoutes controllers, ∃ c r, Looked controllers c v.method v.path r ∧
      v.controller = c.name ∧ ∀ area, r.area = some area → ∀ roles, r.roles = some roles →
        ¬ roles.Perm (areaRoles area)) := by
  constructor
  · rintro hgate path r ⟨c, hc, controllerPath, name, handler, hpath, hname, hmethod, hroute,
      rfl, rfl⟩ hadmin hallowed hprivate
    obtain ⟨area, roles, harea, hroles, hperm⟩ := problemOf_eq_none.mp (problemOf_of_gate hgate
      ⟨hc, controllerPath, handler, hpath, mem_collectHandlers hname hmethod, hroute, rfl, rfl,
        hadmin, hallowed, hprivate⟩)
    refine ⟨area, harea, fun env db now req => ?_⟩
    constructor
    · rintro ⟨ctx, hctx⟩
      obtain ⟨s, u, hsigned, hrole, -⟩ := (admits_iff hprivate).mp hctx
      have hne : roles ≠ [] := by
        rintro rfl
        exact areaRoles_ne_nil area hperm.nil_eq.symm
      exact ⟨s, u, hsigned, hperm.mem_iff.mp (hrole roles hroles hne)⟩
    · rintro ⟨s, u, hsigned, hrole⟩
      refine ⟨_, (admits_iff hprivate).mpr ⟨s, u, hsigned, fun roles' hroles' _ => ?_, rfl⟩⟩
      rw [hroles] at hroles'
      cases hroles'
      exact hperm.mem_iff.mpr hrole
  · intro v hv
    obtain ⟨c, r, hlooked, hname, hproblem⟩ := mem_findUnroledAdminRoutes.mp hv
    refine ⟨c, r, hlooked, hname, fun area harea roles hroles hperm => ?_⟩
    rw [problemOf_eq_none.mpr ⟨area, roles, harea, hroles, hperm⟩] at hproblem
    cases hproblem

/-- The redirects: everything is in one area, but for the generated `remove`. -/
def redirectsController : Controller where
  name := "RedirectsController"
  path := some "admin/redirects"
  metadata := areaMetadata .content
  prototypes := [
    [("constructor", some { isRoute := false })],
    [("constructor", some { isRoute := false }), ("list", some { isRoute := true }),
      ("remove", some {
        isRoute := true, path := ":id", metadata := areaMetadata .redirectsDelete }),
      ("purge", some { isRoute := false })]]

theorem admin_gate_exact_redirects :
    findUnroledAdminRoutes [redirectsController] = [] ∧
      ∃ area, (⟨areaMetadata .redirectsDelete, areaMetadata .content⟩ : Route).area = some area ∧
        ∀ env db now req,
          (∃ ctx, admits env db now ⟨areaMetadata .redirectsDelete, areaMetadata .content⟩ req
            = .ok ctx) ↔ ∃ s u, SignedIn env db now req s u ∧ u.role ∈ areaRoles area := by
  have hgate : findUnroledAdminRoutes [redirectsController] = [] := by decide
  refine ⟨hgate, (admin_gate_exact [redirectsController]).1 hgate "admin/redirects/:id" _ ?_
    (by decide) (by decide) (by decide)⟩
  exact ⟨redirectsController, by simp, "admin/redirects", "remove",
    { isRoute := true, path := ":id", metadata := areaMetadata .redirectsDelete },
    rfl, by decide, by decide, rfl, by decide, rfl⟩

end SafeerApi.Access
