import Mathlib.Algebra.Group.Nat.Defs
import SafeerApi.Common.Problem
import SafeerApi.Accounts.Users

/-!
# Signing in, account links and sessions (`auth.service.ts`, `session.guard.ts`)

Each definition is one database statement or one transaction of the service; the multi-statement
operations are put together where their interleavings are studied. A transaction that locks its
rows first is one function.
-/

namespace SafeerApi.Accounts

open Common Lib

/-- What the account code takes from elsewhere: the comparison of the email column, the password
verifier (hash first), and the token digest. -/
structure AuthEnv where
  sameEmail : String → String → Bool
  verify : String → String → Bool
  hashToken : String → String
  sessionAbsoluteDays : ℕ
  sessionIdleHours : ℕ

def hourMs : ℕ := 60 * 60 * 1000

/-- `NOW()` at a time: it has whole seconds. -/
def sqlNow (now : ℕ) : ℕ := now / 1000 * 1000

lemma sqlNow_le (now : ℕ) : sqlNow now ≤ now := Nat.div_mul_le_self now 1000

lemma lt_sqlNow_add (now : ℕ) : now < sqlNow now + 1000 := Nat.lt_div_mul_add (by decide)

lemma sqlNow_mono {now now' : ℕ} (h : now ≤ now') : sqlNow now ≤ sqlNow now' :=
  Nat.mul_le_mul_right 1000 (Nat.div_le_div_right h)

/-! ### Signing in -/

/-- The `SELECT` of `login`. -/
def findByEmail (env : AuthEnv) (users : Users) (email : String) : Option User :=
  users.rows.find? fun u => env.sameEmail u.email email

def isBruteForceLocked (u : User) (now : ℕ) : Bool := u.lockedUntil.any (now < ·)

/-- Only an active account outside a brute-force lock can sign in. -/
def canSignIn (u : User) (now : ℕ) : Bool := u.status = .active && !isBruteForceLocked u now

/-- One row of the guarded `UPDATE` of `login`. -/
def countSignIn (now : ℕ) (u : User) : User :=
  { u with failedLogins := 0, lockCount := 0, lastLoginAt := some now }

/-- The guarded `UPDATE` of `login`: whether it affected a row, and the table after it. -/
def recordSignIn (users : Users) (id now : ℕ) : Bool × Users :=
  (users.rows.any fun u => u.id = id && u.status = .active,
    users.updateWhere (fun u => u.id = id && u.status = .active) (countSignIn now) fun _ => rfl)

def lockThreshold : ℕ := 10
def lockBaseMinutes : ℕ := 15
def lockMaxMinutes : ℕ := 60
def lockDecayHours : ℕ := 24

/-- One row of `registerFailedAttempt`'s `UPDATE`; each assignment sees the ones before it, and a
comparison with a null date is not true. -/
def countFailure (now : ℕ) (u : User) : User :=
  let decayed (t : Option ℕ) : Bool := t.any (· + lockDecayHours * hourMs ≤ now)
  let u := { u with lockCount := if decayed u.lockedUntil then 0 else u.lockCount }
  let u := { u with failedLogins := (if decayed u.lastFailedLoginAt then 0 else u.failedLogins) + 1 }
  let u := { u with lastFailedLoginAt := some now }
  let minutes := min (lockBaseMinutes * 2 ^ min u.lockCount 6) lockMaxMinutes
  let u := { u with lockedUntil :=
    if u.failedLogins ≥ lockThreshold then some (now + minutes * 60 * 1000) else u.lockedUntil }
  let u := { u with lockCount :=
    if u.failedLogins ≥ lockThreshold then u.lockCount + 1 else u.lockCount }
  { u with failedLogins := if u.failedLogins ≥ lockThreshold then 0 else u.failedLogins }

def registerFailedAttempt (users : Users) (id now : ℕ) : Users :=
  users.updateWhere (fun u => u.id = id) (countFailure now) fun _ => rfl

/-- The session `login` saves under a new id. -/
def newSession (env : AuthEnv) (id userId now : ℕ) (token : String) : Session where
  id := id
  userId := userId
  tokenHash := env.hashToken token
  expiresAt := now + env.sessionAbsoluteDays * 24 * hourMs
  lastSeenAt := now
  revokedAt := none

/-! ### Passwords and account links -/

/-- `changePassword` writes only the hash. -/
def setPasswordHash (users : Users) (id : ℕ) (passwordHash : String) : Users :=
  users.updateWhere (fun u => u.id = id) (fun u => { u with passwordHash := passwordHash })
    fun _ => rfl

def invalidLink : Problem := ⟨400, .validationFailed, "This link is invalid or has expired", [], []⟩

/-- The transaction of `consumeToken`, with the account write `apply`; it returns the account. The
`SELECT` compares with `NOW()`, in whole seconds. -/
def consumeToken (db : Database) (tokenHash : String) (purpose : AuthTokenPurpose)
    (allowedStatuses : List UserStatus) (now : ℕ) (apply : Database → User → User × Database) :
    Except Problem (User × Database) :=
  match db.tokens.rows.find? fun t => t.tokenHash = tokenHash && t.purpose = purpose &&
      t.usedAt = none && sqlNow now < t.expiresAt with
  | none => .error invalidLink
  | some authToken =>
    match db.users.find authToken.userId with
    | none => .error invalidLink
    | some user =>
      if user.status ∈ allowedStatuses then
        let tokens := db.tokens.replace { authToken with usedAt := some now }
        .ok (apply { db with tokens := deleteUnusedTokens tokens user.id } user)
      else .error invalidLink

/-- The users whose row the transaction of a link locks. -/
def linkUsers (db : Database) (tokenHash : String) : List ℕ :=
  (db.tokens.rows.filter fun t => t.tokenHash = tokenHash).map AuthToken.userId

/-- The account write of `acceptInvite`. -/
def activate (passwordHash : String) (db : Database) (user : User) : User × Database :=
  let user := { user with
    passwordHash := passwordHash
    status := .active
    failedLogins := 0
    lockedUntil := none
    lockCount := 0 }
  (user, { db with users := db.users.replace user })

/-- The account write of `resetPassword`. -/
def replacePassword (passwordHash : String) (now : ℕ) (db : Database) (user : User) :
    User × Database :=
  let user := { user with
    passwordHash := passwordHash
    failedLogins := 0
    lockedUntil := none
    lockCount := 0 }
  (user, { db with
    users := db.users.replace user
    sessions := revokeSessionsOf db.sessions user.id now })

def acceptInvite (env : AuthEnv) (db : Database) (rawToken passwordHash : String) (now : ℕ) :
    Except Problem (User × Database) :=
  consumeToken db (env.hashToken rawToken) .invite [.invited] now (activate passwordHash)

def resetPassword (env : AuthEnv) (db : Database) (rawToken passwordHash : String) (now : ℕ) :
    Except Problem (User × Database) :=
  consumeToken db (env.hashToken rawToken) .reset [.active] now (replacePassword passwordHash now)

def inviteTokenHours : ℕ := 48
def resetTokenMinutes : ℕ := 60

/-- The invitation `invite` saves under a new id. -/
def inviteToken (env : AuthEnv) (id userId now : ℕ) (rawToken : String) : AuthToken where
  id := id
  userId := userId
  purpose := .invite
  tokenHash := env.hashToken rawToken
  expiresAt := now + inviteTokenHours * hourMs
  usedAt := none

/-- The reset link `sendPasswordReset` saves under a new id. -/
def resetToken (env : AuthEnv) (id userId now : ℕ) (rawToken : String) : AuthToken where
  id := id
  userId := userId
  purpose := .reset
  tokenHash := env.hashToken rawToken
  expiresAt := now + resetTokenMinutes * 60 * 1000
  usedAt := none

/-- `authTokenRepo.save` of a new link; the unique columns refuse a second id or digest. -/
def saveToken (tokens : AuthTokens) (authToken : AuthToken) : AuthTokens :=
  if h : tokens.find authToken.id = none then
    if tokens.rows.any (·.tokenHash = authToken.tokenHash) then tokens
    else tokens.insert authToken h
  else tokens

/-- `sendPasswordReset`, up to its mail. -/
def sendPasswordReset (env : AuthEnv) (db : Database) (tokenId : ℕ) (email rawToken : String)
    (now : ℕ) : Database :=
  match findByEmail env db.users email with
  | none => db
  | some user =>
    -- nothing for a disabled account, nor for a pending invitation
    if user.status = .active then
      { db with tokens := saveToken db.tokens (resetToken env tokenId user.id now rawToken) }
    else db

/-! ### Sessions -/

def logout (sessions : Sessions) (id now : ℕ) : Sessions :=
  sessions.updateWhere (fun s => s.id = id) (.revoke now) (Session.revoke_id now)

def endOtherSessions (sessions : Sessions) (userId keep now : ℕ) : Sessions :=
  sessions.updateWhere (fun s => s.userId = userId && s.id ≠ keep && s.revokedAt = none)
    (.revoke now) (Session.revoke_id now)

def Session.touch (now : ℕ) (s : Session) : Session := { s with lastSeenAt := now }

/-- The best-effort `last_seen_at` bump. -/
def touchSession (sessions : Sessions) (id now : ℕ) : Sessions :=
  sessions.updateWhere (fun s => s.id = id) (.touch now) fun _ => rfl

/-- The conditions of the guard's query on a session row and its user. The columns have milliseconds
and `NOW()` has not. -/
def isLive (env : AuthEnv) (db : Database) (now : ℕ) (s : Session) : Bool :=
  s.revokedAt = none && sqlNow now < s.expiresAt &&
    sqlNow now < s.lastSeenAt + env.sessionIdleHours * hourMs &&
    (db.users.find s.userId).any fun u => u.status = .active

/-- `SessionGuard.resolveStaffSession`: the session a cookie stands for. -/
def resolveStaffSession (env : AuthEnv) (db : Database) (now : ℕ) (cookie : String) :
    Option Session :=
  db.sessions.rows.find? fun s => s.tokenHash = env.hashToken cookie && isLive env db now s

/-! ### What the writes keep -/

/-- Rows of the two tables agree in role and status. -/
def SameStanding (u u' : User) : Prop := u'.id = u.id ∧ u'.role = u.role ∧ u'.status = u.status

lemma countFailure_standing (now : ℕ) (u : User) : SameStanding u (countFailure now u) :=
  ⟨rfl, rfl, rfl⟩

lemma countSignIn_standing (now : ℕ) (u : User) : SameStanding u (countSignIn now u) :=
  ⟨rfl, rfl, rfl⟩

/-- A saved link is the only new one. -/
lemma mem_saveToken {tokens : AuthTokens} {authToken t : AuthToken}
    (h : t ∈ (saveToken tokens authToken).rows) : t ∈ tokens.rows ∨ t = authToken := by
  simp only [saveToken] at h
  split_ifs at h with hnew
  · exact Or.inl h
  · exact (Table.mem_insert (h := hnew)).mp h
  · exact Or.inl h

lemma mem_saveToken_of_mem {tokens : AuthTokens} {authToken t : AuthToken} (h : t ∈ tokens.rows) :
    t ∈ (saveToken tokens authToken).rows := by
  simp only [saveToken]
  split_ifs with hnew
  · exact h
  · exact (Table.mem_insert (h := hnew)).mpr (Or.inl h)
  · exact h

@[simp] lemma sendPasswordReset_users (env : AuthEnv) (db : Database) (tokenId : ℕ)
    (email rawToken : String) (now : ℕ) :
    (sendPasswordReset env db tokenId email rawToken now).users = db.users := by
  simp only [sendPasswordReset]
  split
  · rfl
  · split <;> rfl

/-- A spent token wrote its account in a status that allows it. -/
lemma consumeToken_ok {db : Database} {result : User × Database} {tokenHash : String}
    {purpose : AuthTokenPurpose} {allowed : List UserStatus} {now : ℕ}
    {apply : Database → User → User × Database}
    (h : consumeToken db tokenHash purpose allowed now apply = .ok result) :
    ∃ user tokens, db.users.find user.id = some user ∧ user.status ∈ allowed ∧
      result = apply { db with tokens := tokens } user := by
  simp only [consumeToken] at h
  split at h
  · cases h
  · next authToken _ =>
    split at h
    · cases h
    · next user huser =>
      split_ifs at h with hstatus
      have hid := Table.key_of_find huser
      exact ⟨user, _, by rw [hid]; exact huser, hstatus, (Except.ok.inj h).symm⟩

end SafeerApi.Accounts
