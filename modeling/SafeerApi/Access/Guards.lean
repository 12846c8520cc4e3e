import SafeerApi.Accounts.Auth
import SafeerApi.Common.ListParams

/-!
# The guards (`session.guard.ts`, `roles.guard.ts`, `csrf.guard.ts`)

The three guards every request passes in turn before its handler runs, and what they read of the
decorators of the handler and of its controller.
-/

namespace SafeerApi.Access

open Accounts Common Lib

/-! ### Decorators -/

/-- What each `@Area()` is for. -/
inductive Area where
  | content
  | redirectsDelete
  | inbox
  | inboxDelete
  | users
  | settings
  | audit
  deriving DecidableEq, Repr

/-- What the decorators left on a handler or on a controller. -/
structure Metadata where
  isPublic : Option Bool := none
  roles : Option (List UserRole) := none
  area : Option Area := none
  deriving DecidableEq, Repr

/-- `Reflector.getAllAndOverride`: the handler's own value, or else the controller's. -/
def getAllAndOverride {α : Type*} (handler controller : Option α) : Option α := handler <|> controller

/-- A handler together with its controller. -/
structure Route where
  handler : Metadata
  controller : Metadata
  deriving DecidableEq, Repr

def Route.isPublic (r : Route) : Bool :=
  (getAllAndOverride r.handler.isPublic r.controller.isPublic).getD false

def Route.roles (r : Route) : Option (List UserRole) :=
  getAllAndOverride r.handler.roles r.controller.roles

def Route.area (r : Route) : Option Area := getAllAndOverride r.handler.area r.controller.area

/-! ### Guards -/

structure Request where
  method : String
  cookie : Option String
  csrfToken : Option String
  deriving DecidableEq, Repr

structure RequestUser where
  id : ℕ
  role : UserRole
  deriving DecidableEq, Repr

/-- What the session guard leaves on a request. -/
structure RequestContext where
  user : Option RequestUser := none
  sessionTokenHash : Option String := none
  deriving DecidableEq, Repr

/-- `csrf` is `computeCsrfToken` under the application's key. -/
structure GuardEnv where
  auth : AuthEnv
  csrf : String → String

def signInRequired : Problem := ⟨401, .unauthenticated, "Sign-in required", [], []⟩
def sessionOver : Problem := ⟨401, .unauthenticated, "Session expired or revoked", [], []⟩
def insufficientRole : Problem := ⟨403, .forbidden, "Insufficient role", [], []⟩
def csrfMismatch : Problem := ⟨403, .forbidden, "Missing or invalid CSRF token", [], []⟩

/-- The live session and the account a cookie stands for. -/
def staffSession (env : GuardEnv) (db : Database) (now : ℕ) (cookie : String) :
    Option RequestContext := do
  let session ← resolveStaffSession env.auth db now cookie
  let user ← db.users.find session.userId
  return ⟨some ⟨user.id, user.role⟩, some (env.auth.hashToken cookie)⟩

/-- `SessionGuard` -/
def sessionGuard (env : GuardEnv) (db : Database) (now : ℕ) (isPublic : Bool) (req : Request) :
    Except Problem RequestContext :=
  match truthy req.cookie with
  | none => if isPublic then .ok {} else .error signInRequired
  | some cookie =>
    match staffSession env db now cookie with
    | some ctx => .ok ctx
    | none => if isPublic then .ok {} else .error sessionOver

/-- `RolesGuard` -/
def rolesGuard (required : Option (List UserRole)) (ctx : RequestContext) : Except Problem Unit :=
  match required with
  | none | some [] => .ok ()
  | some roles => if ctx.user.any (·.role ∈ roles) then .ok () else .error insufficientRole

def safeMethods : List String := ["GET", "HEAD", "OPTIONS"]

/-- `CsrfGuard` -/
def csrfGuard (env : GuardEnv) (isPublic : Bool) (req : Request) (ctx : RequestContext) :
    Except Problem Unit :=
  if req.method ∈ safeMethods then .ok ()
  else
    match ctx.sessionTokenHash with
    | none => .ok ()
    | some hash =>
      if isPublic || req.csrfToken = some (env.csrf hash) then .ok () else .error csrfMismatch

/-- The guards in the order `AuthModule` registers them; the handler runs on what they let pass. -/
def admits (env : GuardEnv) (db : Database) (now : ℕ) (r : Route) (req : Request) :
    Except Problem RequestContext := do
  let ctx ← sessionGuard env db now r.isPublic req
  rolesGuard r.roles ctx
  csrfGuard env r.isPublic req ctx
  return ctx

/-! ### What is admitted -/

/-- The request shows the cookie of a live session of an active account, and with a method that
changes something, the session's token. -/
structure SignedIn (env : GuardEnv) (db : Database) (now : ℕ) (req : Request) (s : Session)
    (u : User) : Prop where
  cookie : ∃ cookie, req.cookie = some cookie ∧ cookie ≠ "" ∧
    resolveStaffSession env.auth db now cookie = some s
  user : db.users.find s.userId = some u
  csrf : req.method ∈ safeMethods ∨ req.csrfToken = some (env.csrf s.tokenHash)

section Admit

variable {env : GuardEnv} {db : Database} {now : ℕ} {req : Request}

lemma resolve_spec {cookie : String} {s : Session}
    (h : resolveStaffSession env.auth db now cookie = some s) :
    s ∈ db.sessions.rows ∧ s.tokenHash = env.auth.hashToken cookie ∧
      isLive env.auth db now s = true := by
  have hs := List.find?_some h
  rw [Bool.and_eq_true] at hs
  exact ⟨List.mem_of_find?_eq_some h, of_decide_eq_true hs.1, hs.2⟩

lemma staffSession_eq_some {cookie : String} {ctx : RequestContext} :
    staffSession env db now cookie = some ctx ↔
      ∃ s u, resolveStaffSession env.auth db now cookie = some s ∧ db.users.find s.userId = some u ∧
        ctx = ⟨some ⟨u.id, u.role⟩, some (env.auth.hashToken cookie)⟩ := by
  simp only [staffSession, Option.bind_eq_bind, Option.bind_eq_some_iff, Option.pure_def,
    Option.some.injEq]
  constructor
  · rintro ⟨s, hs, u, hu, rfl⟩
    exact ⟨s, u, hs, hu, rfl⟩
  · rintro ⟨s, u, hs, hu, rfl⟩
    exact ⟨s, hs, u, hu, rfl⟩

lemma sessionGuard_iff {ctx : RequestContext} :
    sessionGuard env db now false req = .ok ctx ↔ ∃ cookie, req.cookie = some cookie ∧ cookie ≠ "" ∧
      staffSession env db now cookie = some ctx := by
  simp only [sessionGuard, Bool.false_eq_true, if_false]
  constructor
  · intro h
    split at h
    · cases h
    · next cookie hcookie =>
      split at h
      · next ctx' hctx =>
        cases h
        exact ⟨cookie, eq_some_of_truthy hcookie, truthy_eq_some hcookie, hctx⟩
      · cases h
  · rintro ⟨cookie, hcookie, hne, hctx⟩
    rw [hcookie, truthy_some hne]
    simp only [hctx]

lemma rolesGuard_iff {required : Option (List UserRole)} {ctx : RequestContext} :
    rolesGuard required ctx = .ok () ↔ ∀ roles, required = some roles → roles ≠ [] →
      ∃ u, ctx.user = some u ∧ u.role ∈ roles := by
  simp only [rolesGuard]
  split
  · simp
  · simp
  · next roles hroles =>
    constructor
    · intro h
      split_ifs at h with hmem
      obtain ⟨u, hu, hrole⟩ := (Option.any_eq_true _ _).mp hmem
      rintro _ ⟨⟩ -
      exact ⟨u, hu, of_decide_eq_true hrole⟩
    · intro h
      obtain ⟨u, hu, hrole⟩ := h roles rfl hroles
      rw [if_pos ((Option.any_eq_true _ _).mpr ⟨u, hu, decide_eq_true hrole⟩)]

lemma csrfGuard_iff {ctx : RequestContext} {hash : String} (hctx : ctx.sessionTokenHash = some hash) :
    csrfGuard env false req ctx = .ok () ↔
      req.method ∈ safeMethods ∨ req.csrfToken = some (env.csrf hash) := by
  simp only [csrfGuard, hctx, Bool.false_or, decide_eq_true_eq]
  split_ifs with hsafe htoken <;> simp [*]

/-- A route that is not public lets exactly those pass who are signed in and have one of its
roles. -/
lemma admits_iff {r : Route} (hprivate : r.isPublic = false) {ctx : RequestContext} :
    admits env db now r req = .ok ctx ↔ ∃ s u, SignedIn env db now req s u ∧
      (∀ roles, r.roles = some roles → roles ≠ [] → u.role ∈ roles) ∧
      ctx = ⟨some ⟨u.id, u.role⟩, some s.tokenHash⟩ := by
  constructor
  · intro h
    obtain ⟨ctx', hsession, h⟩ := bind_eq_ok h
    obtain ⟨_, hroles, h⟩ := bind_eq_ok h
    obtain ⟨_, hcsrf, h⟩ := bind_eq_ok h
    cases h
    rw [hprivate] at hsession hcsrf
    obtain ⟨cookie, hcookie, hne, hstaff⟩ := sessionGuard_iff.mp hsession
    obtain ⟨s, u, hs, hu, rfl⟩ := staffSession_eq_some.mp hstaff
    have hhash := (resolve_spec hs).2.1
    refine ⟨s, u, ⟨⟨cookie, hcookie, hne, hs⟩, hu, ?_⟩, fun roles hr hnonempty => ?_, by rw [hhash]⟩
    · rw [hhash]
      exact (csrfGuard_iff rfl).mp hcsrf
    · obtain ⟨v, hv, hrole⟩ := rolesGuard_iff.mp hroles roles hr hnonempty
      cases hv
      exact hrole
  · rintro ⟨s, u, ⟨⟨cookie, hcookie, hne, hs⟩, hu, hcsrf⟩, hroles, rfl⟩
    have hhash := (resolve_spec hs).2.1
    rw [hhash] at hcsrf ⊢
    have hsession : sessionGuard env db now r.isPublic req
        = .ok ⟨some ⟨u.id, u.role⟩, some (env.auth.hashToken cookie)⟩ := by
      rw [hprivate]
      exact sessionGuard_iff.mpr ⟨cookie, hcookie, hne, staffSession_eq_some.mpr ⟨s, u, hs, hu, rfl⟩⟩
    have hrole : rolesGuard r.roles ⟨some ⟨u.id, u.role⟩, some (env.auth.hashToken cookie)⟩
        = .ok () :=
      rolesGuard_iff.mpr fun roles hr hnonempty => ⟨_, rfl, hroles roles hr hnonempty⟩
    have htoken : csrfGuard env r.isPublic req
        ⟨some ⟨u.id, u.role⟩, some (env.auth.hashToken cookie)⟩ = .ok () := by
      rw [hprivate]
      exact (csrfGuard_iff rfl).mpr hcsrf
    rw [admits, hsession]
    simp only [bind, Except.bind, hrole, htoken]
    rfl

end Admit

end SafeerApi.Access
