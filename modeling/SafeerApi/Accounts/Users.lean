import SafeerApi.Common.Problem
import SafeerApi.Common.SqlNumeric
import SafeerApi.Accounts.Tables

/-!
# Administering users (`users.service.ts`)

`update` and `remove` are transactions: they lock every admin row and the target row, read, decide,
and write. What they decide is a function of the table they read; what they write is a function of
the decision.
-/

namespace SafeerApi.Accounts

open Common Lib

/-! ### Deciding -/

/-- The statuses the DTO accepts. -/
inductive SettableStatus where
  | active
  | disabled
  deriving DecidableEq, Repr

def SettableStatus.status : SettableStatus → UserStatus
  | .active => .active
  | .disabled => .disabled

/-- A body as `updateUserSchema` accepts it. -/
structure UpdateUserInput where
  name : Option String := none
  email : Option String := none
  role : Option UserRole := none
  status : Option SettableStatus := none
  unlock : Bool := false

/-- `manager.findOne(User, { where: { id } })`, with a string id. -/
def findUser (sql : SqlNumeric) (users : Users) (id : String) : Option User :=
  (sql.rowId id).bind users.find

/-- `id: Not(excludeId)` compares as the database does. -/
def usableAdminsBesides (sql : SqlNumeric) (users : Users) (excludeId : String) : ℕ :=
  users.rows.countP fun u => u.isUsableAdmin && sql.rowId excludeId ≠ some u.id

def forbidden (title : String) : Problem := ⟨403, .forbidden, title, [], []⟩

def lastAdmin (title : String) : Problem := ⟨409, .lastAdmin, title, [], []⟩

def userNotFound : Problem := ⟨404, .notFound, "User not found", [], []⟩

/-- The role part of `update`. `cover` counts the usable admins besides the target. -/
def updateRole (cover : ℕ) (actorId targetId : String) (role : Option UserRole) (target : User) :
    Except Problem User :=
  match role with
  | none => .ok target
  | some role =>
    if role = target.role then .ok target
    else if targetId = actorId then .error (forbidden "You cannot change your own role")
    else if target.isUsableAdmin ∧ cover = 0 then
      .error (lastAdmin "The last remaining admin cannot be demoted")
    else .ok { target with role := role }

/-- The status part of `update`; `covers` is whether the row as loaded was a usable admin. -/
def updateStatus (cover : ℕ) (covers : Bool) (status : Option SettableStatus) (target : User) :
    Except Problem User :=
  match status with
  | none => .ok target
  | some status =>
    if status = .disabled ∧ target.status ≠ .disabled ∧ covers ∧ cover = 0 then
      .error (lastAdmin "The last remaining admin cannot be disabled")
    else if status = .active ∧ target.status = .invited then
      .error ⟨409, .validationFailed,
        "An invited user becomes active by accepting the invitation", [], []⟩
    else .ok { target with status := status.status }

/-- An admin unlock clears the lock and the counters. -/
def applyUnlock (unlock : Bool) (target : User) : User :=
  if unlock then { target with lockedUntil := none, failedLogins := 0, lockCount := 0 } else target

/-- What `update` is about to write. -/
structure UserWrite where
  row : User
  disabling : Bool
  emailChanged : Bool
  deriving DecidableEq

def prepareUpdate (sql : SqlNumeric) (users : Users) (actorId targetId : String)
    (input : UpdateUserInput) : Except Problem UserWrite :=
  match findUser sql users targetId with
  | none => .error userNotFound
  | some target => do
    let cover := usableAdminsBesides sql users targetId
    let t ← updateRole cover actorId targetId input.role target
    let t := { t with name := input.name.getD t.name, email := input.email.getD t.email }
    let t ← updateStatus cover target.isUsableAdmin input.status t
    .ok {
      row := applyUnlock input.unlock t
      disabling := input.status = some .disabled && target.status ≠ .disabled
      emailChanged := input.email.any (· ≠ target.email) }

def prepareRemove (sql : SqlNumeric) (users : Users) (actorId targetId : String) :
    Except Problem User :=
  match findUser sql users targetId with
  | none => .error userNotFound
  | some target =>
    if targetId = actorId then .error (forbidden "You cannot delete your own account")
    else if target.isUsableAdmin ∧ usableAdminsBesides sql users targetId = 0 then
      .error (lastAdmin "The last remaining admin cannot be deleted")
    else .ok target

/-! ### Writing -/

def Session.revoke (now : ℕ) (s : Session) : Session := { s with revokedAt := some now }

@[simp] lemma Session.revoke_id (now : ℕ) (s : Session) : (s.revoke now).id = s.id := rfl

def revokeSessionsOf (sessions : Sessions) (userId now : ℕ) : Sessions :=
  sessions.updateWhere (fun s => s.userId = userId && s.revokedAt = none) (.revoke now)
    (Session.revoke_id now)

def deleteUnusedTokens (tokens : AuthTokens) (userId : ℕ) : AuthTokens :=
  tokens.deleteWhere fun t => t.userId = userId && t.usedAt = none

/-- Whether the database refuses the row of an `update`: the e-mail column holds 191 characters, and
no two rows have equal addresses (`uq_users_email`). `save` writes the columns that have changed. -/
def refusesRow (sameEmail : String → String → Bool) (users : Users) (w : UserWrite) : Bool :=
  w.emailChanged && (191 < w.row.email.length ||
    users.rows.any fun u => u.id ≠ w.row.id && sameEmail u.email w.row.email)

/-- The statements of `update` after its checks. -/
def writeUpdate (db : Database) (w : UserWrite) (now : ℕ) : Database where
  users := db.users.replace w.row
  sessions := if w.disabling then revokeSessionsOf db.sessions w.row.id now else db.sessions
  tokens := if w.disabling || w.emailChanged then deleteUnusedTokens db.tokens w.row.id else db.tokens

/-- The tables after the statements of `update`, unless the database refuses the row. -/
def commitUpdate (sameEmail : String → String → Bool) (db : Database) (w : UserWrite) (now : ℕ) :
    Option Database :=
  if refusesRow sameEmail db.users w then none else some (writeUpdate db w now)

/-- `update`, undisturbed: what it wrote and the tables after it. One that is refused, by a check or
by the database, is rolled back. -/
def updateUser (sql : SqlNumeric) (sameEmail : String → String → Bool) (db : Database)
    (actorId targetId : String) (input : UpdateUserInput) (now : ℕ) : Option (UserWrite × Database) :=
  match prepareUpdate sql db.users actorId targetId input with
  | .error _ => none
  | .ok w => (commitUpdate sameEmail db w now).map fun db' => (w, db')

/-- `manager.remove(target)`; sessions and account links go with their user. -/
def commitRemove (db : Database) (id : ℕ) : Database where
  users := db.users.delete id
  sessions := db.sessions.deleteWhere fun s => s.userId = id
  tokens := db.tokens.deleteWhere fun t => t.userId = id

/-! ### Inviting -/

def unusablePasswordHash : String :=
  "$argon2id$v=19$m=1,t=1,p=1$AAAAAAAAAAAAAAAAAA$AAAAAAAAAAAAAAAAAAAAAAAAAAAAAAAAAAAAAAAAAAA"

/-- The row `createInvitedUser` saves under a new id. -/
def invitedUser (id : ℕ) (email name : String) (role : UserRole) : User where
  id := id
  name := name
  email := email
  passwordHash := unusablePasswordHash
  role := role
  status := .invited
  failedLogins := 0
  lastFailedLoginAt := none
  lockedUntil := none
  lockCount := 0
  lastLoginAt := none

/-! ### What the decisions allow -/

lemma mem_of_findUser {sql : SqlNumeric} {users : Users} {id : String} {u : User}
    (h : findUser sql users id = some u) : u ∈ users.rows ∧ sql.rowId id = some u.id := by
  obtain ⟨n, hn, hfind⟩ := Option.bind_eq_some_iff.mp h
  obtain ⟨hu, rfl⟩ := Table.find_eq_some.mp hfind
  exact ⟨hu, hn⟩

/-- A counted admin is another row than the excluded one. -/
lemma exists_usableAdmin {sql : SqlNumeric} {users : Users} {id : String} {u : User}
    (hid : sql.rowId id = some u.id) (h : usableAdminsBesides sql users id ≠ 0) :
    ∃ v ∈ users.rows, v.isUsableAdmin = true ∧ v.id ≠ u.id := by
  obtain ⟨v, hv, hp⟩ := List.countP_pos_iff.mp (Nat.pos_of_ne_zero h)
  rw [Bool.and_eq_true, decide_eq_true_eq, hid] at hp
  exact ⟨v, hv, hp.1, fun heq => hp.2 (by rw [heq])⟩

/-- What a role change keeps: everything but the role, and that only changes with another admin to
cover for the target. -/
lemma updateRole_ok {cover : ℕ} {actorId targetId : String} {role : Option UserRole}
    {target t : User} (h : updateRole cover actorId targetId role target = .ok t) :
    t = { target with role := t.role } ∧
      (t.role = target.role ∨ (targetId ≠ actorId ∧ (target.isUsableAdmin = true → cover ≠ 0))) := by
  simp only [updateRole] at h
  split at h
  · cases h; exact ⟨rfl, Or.inl rfl⟩
  · split_ifs at h with hsame hself hlast
    · cases h; exact ⟨rfl, Or.inl rfl⟩
    · cases h
      exact ⟨rfl, Or.inr ⟨hself, fun hu hc => hlast ⟨hu, hc⟩⟩⟩

/-- What a status change keeps: everything but the status, and an admin is disabled only with
another to cover. -/
lemma updateStatus_ok {cover : ℕ} {covers : Bool} {status : Option SettableStatus}
    {target t : User} (h : updateStatus cover covers status target = .ok t) :
    t = { target with status := t.status } ∧
      (t.status = target.status ∨
        (t.status = .disabled ∧ status = some .disabled ∧ (covers = true → cover ≠ 0)) ∨
        (t.status = .active ∧ target.status ≠ .invited)) := by
  simp only [updateStatus] at h
  split at h
  · cases h; exact ⟨rfl, Or.inl rfl⟩
  · next status =>
    split_ifs at h with hlast hinvited
    cases h
    refine ⟨rfl, ?_⟩
    cases status with
    | active => exact Or.inr (Or.inr ⟨rfl, fun hi => hinvited ⟨rfl, hi⟩⟩)
    | disabled =>
      by_cases hd : target.status = .disabled
      · exact Or.inl hd.symm
      · exact Or.inr (Or.inl ⟨rfl, rfl, fun hc h0 => hlast ⟨rfl, hd, hc, h0⟩⟩)

lemma commitUpdate_eq_some {sameEmail : String → String → Bool} {db db' : Database} {w : UserWrite}
    {now : ℕ} : commitUpdate sameEmail db w now = some db' ↔
      refusesRow sameEmail db.users w = false ∧ db' = writeUpdate db w now := by
  simp only [commitUpdate, Option.ite_none_left_eq_some, Option.some.injEq, Bool.not_eq_true]
  exact and_congr_right fun _ => eq_comm

/-- An update that goes through passed its checks, and the database took its row. -/
lemma updateUser_eq_some {sql : SqlNumeric} {sameEmail : String → String → Bool} {db db' : Database}
    {actorId targetId : String} {input : UpdateUserInput} {now : ℕ} {w : UserWrite} :
    updateUser sql sameEmail db actorId targetId input now = some (w, db') ↔
      prepareUpdate sql db.users actorId targetId input = .ok w ∧
        refusesRow sameEmail db.users w = false ∧ db' = writeUpdate db w now := by
  simp only [updateUser]
  split
  · next hprep => simp [hprep]
  · next w' hprep =>
    simp only [Option.map_eq_some_iff, Prod.mk.injEq, commitUpdate_eq_some, hprep,
      Except.ok.injEq]
    constructor
    · rintro ⟨_, ⟨hrow, rfl⟩, rfl, rfl⟩
      exact ⟨rfl, hrow, rfl⟩
    · rintro ⟨rfl, hrow, rfl⟩
      exact ⟨_, ⟨hrow, rfl⟩, rfl, rfl⟩

/-- What an accepted update may write. -/
structure UserWrite.Allowed (sql : SqlNumeric) (users : Users) (actorId targetId : String)
    (target : User) (w : UserWrite) : Prop where
  found : findUser sql users targetId = some target
  id : w.row.id = target.id
  passwordHash : w.row.passwordHash = target.passwordHash
  ownRole : targetId = actorId → w.row.role = target.role
  cover : target.isUsableAdmin = true → w.row.isUsableAdmin = true ∨
    usableAdminsBesides sql users targetId ≠ 0
  invited : target.status = .invited → w.row.status ≠ .active
  disabling : w.row.status = .disabled → target.status ≠ .disabled → w.disabling = true

@[simp] lemma applyUnlock_fields (unlock : Bool) (u : User) :
    (applyUnlock unlock u).id = u.id ∧ (applyUnlock unlock u).role = u.role ∧
      (applyUnlock unlock u).status = u.status ∧
      (applyUnlock unlock u).passwordHash = u.passwordHash := by
  simp only [applyUnlock]
  split <;> exact ⟨rfl, rfl, rfl, rfl⟩

@[simp] lemma applyUnlock_email (unlock : Bool) (u : User) :
    (applyUnlock unlock u).email = u.email := by
  simp only [applyUnlock]
  split <;> rfl

theorem prepareUpdate_allowed {sql : SqlNumeric} {users : Users} {actorId targetId : String}
    {input : UpdateUserInput} {w : UserWrite}
    (h : prepareUpdate sql users actorId targetId input = .ok w) :
    ∃ target, w.Allowed sql users actorId targetId target := by
  simp only [prepareUpdate] at h
  split at h
  · cases h
  · next target hfind =>
    obtain ⟨t₁, hrole, h⟩ := bind_eq_ok h
    obtain ⟨t₃, hstatus, h⟩ := bind_eq_ok h
    obtain ⟨hrow, hroleOk⟩ := updateRole_ok hrole
    obtain ⟨hrow', hstatusOk⟩ := updateStatus_ok hstatus
    cases h
    obtain ⟨hid, hrole₃, hstatus₃, hhash⟩ := applyUnlock_fields input.unlock t₃
    have hrole₁ : t₃.role = t₁.role := by rw [hrow']
    have hstatus₁ : t₁.status = target.status := by rw [hrow]
    have hid₁ : t₃.id = target.id := by rw [hrow', hrow]
    have hhash₁ : t₃.passwordHash = target.passwordHash := by rw [hrow', hrow]
    refine ⟨target, hfind, ?_, ?_, ?_, ?_, ?_, ?_⟩
    · exact hid.trans hid₁
    · exact hhash.trans hhash₁
    · intro hself
      rw [hrole₃, hrole₁]
      exact hroleOk.resolve_right fun hchange => hchange.1 hself
    · intro husable
      rcases hroleOk with hsame | ⟨-, hcover⟩
      · rcases hstatusOk with hst | ⟨-, -, hcover⟩ | ⟨hst, -⟩
        · have hst : t₃.status = target.status := hst.trans hstatus₁
          exact Or.inl (by simpa only [User.isUsableAdmin, hrole₃, hstatus₃, hrole₁, hsame, hst])
        · exact Or.inr (hcover husable)
        · simp only [User.isUsableAdmin, Bool.and_eq_true, decide_eq_true_eq] at husable ⊢
          exact Or.inl ⟨by rw [hrole₃, hrole₁, hsame, husable.1], by rw [hstatus₃, hst]⟩
      · exact Or.inr (hcover husable)
    · intro hinvited
      rw [hstatus₃]
      rcases hstatusOk with hst | ⟨hst, -⟩ | ⟨-, hne⟩
      · rw [hst.trans hstatus₁, hinvited]
        decide
      · rw [hst]
        decide
      · exact absurd (hstatus₁.trans hinvited) hne
    · intro hdisabled hne
      rw [hstatus₃] at hdisabled
      rcases hstatusOk with hst | ⟨-, hinput, -⟩ | ⟨hst, -⟩
      · exact absurd (hstatus₁.symm.trans (hst.symm.trans hdisabled)) hne
      · simp [hinput, hne]
      · exact absurd (hst.symm.trans hdisabled) (by decide)

/-- A removed user is not the actor, and another admin covers for a usable one. -/
theorem prepareRemove_allowed {sql : SqlNumeric} {users : Users} {actorId targetId : String}
    {target : User} (h : prepareRemove sql users actorId targetId = .ok target) :
    findUser sql users targetId = some target ∧ targetId ≠ actorId ∧
      (target.isUsableAdmin = true → usableAdminsBesides sql users targetId ≠ 0) := by
  simp only [prepareRemove] at h
  split at h
  · cases h
  · next target' hfind =>
    split_ifs at h with hself hlast
    cases h
    exact ⟨hfind, hself, fun hu h0 => hlast ⟨hu, h0⟩⟩

end SafeerApi.Accounts
