import Mathlib.Tactic.Common
import SafeerApi.Lib.Table

/-!
# Accounts: users, sessions and account links

The columns of `users`, `sessions` and `auth_tokens` that the account code reads or writes. Times
are milliseconds.
-/

namespace SafeerApi.Accounts

open Lib

inductive UserRole where
  | admin
  | editor
  | support
  deriving DecidableEq, Repr

inductive UserStatus where
  | active
  | disabled
  | invited
  deriving DecidableEq, Repr

structure User where
  id : ℕ
  name : String
  email : String
  passwordHash : String
  role : UserRole
  status : UserStatus
  failedLogins : ℕ
  lastFailedLoginAt : Option ℕ
  lockedUntil : Option ℕ
  lockCount : ℕ
  lastLoginAt : Option ℕ
  deriving DecidableEq

structure Session where
  id : ℕ
  userId : ℕ
  tokenHash : String
  expiresAt : ℕ
  lastSeenAt : ℕ
  revokedAt : Option ℕ
  deriving DecidableEq

inductive AuthTokenPurpose where
  | invite
  | reset
  deriving DecidableEq, Repr

structure AuthToken where
  id : ℕ
  userId : ℕ
  purpose : AuthTokenPurpose
  tokenHash : String
  expiresAt : ℕ
  usedAt : Option ℕ
  deriving DecidableEq

abbrev Users := Table User.id
abbrev Sessions := Table Session.id
abbrev AuthTokens := Table AuthToken.id

structure Database where
  users : Users := .empty
  sessions : Sessions := .empty
  tokens : AuthTokens := .empty

/-- A usable administrator: an admin who can sign in. -/
def User.isUsableAdmin (u : User) : Bool := u.role = .admin && u.status = .active

/-- The table has a usable administrator. -/
def HasUsableAdmin (users : Users) : Prop := ∃ u ∈ users.rows, u.isUsableAdmin = true

end SafeerApi.Accounts
