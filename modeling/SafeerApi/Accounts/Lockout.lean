import SafeerApi.Lib.Reach
import SafeerApi.Accounts.Auth

/-!
# The sign-in lockout

`registerFailedAttempt` is one `UPDATE` whose assignments overwrite columns that later ones read.
Here is the step it documents, written without that order, and the runs of logins in flight, unlocks
and password resets whose rows it changes.
-/

namespace SafeerApi.Accounts.Lockout

open Common Lib

/-! ### The documented step -/

/-- The columns of an account that its lockout reads and writes. -/
structure Counters where
  failedLogins : ℕ
  lastFailedLoginAt : Option ℕ
  lockedUntil : Option ℕ
  lockCount : ℕ
  deriving DecidableEq

def countersOf (u : User) : Counters where
  failedLogins := u.failedLogins
  lastFailedLoginAt := u.lastFailedLoginAt
  lockedUntil := u.lockedUntil
  lockCount := u.lockCount

/-- The row with these columns written. -/
def withCounters (u : User) (l : Counters) : User :=
  { u with
    failedLogins := l.failedLogins
    lastFailedLoginAt := l.lastFailedLoginAt
    lockedUntil := l.lockedUntil
    lockCount := l.lockCount }

/-- A date at least 24 hours ago; no date is not. -/
def dayOld (now : ℕ) (date : Option ℕ) : Bool := date.any (· + 24 * hourMs ≤ now)

/-- The number of a failure: it follows on from the count, unless the last wrong password is a day
old. -/
def failureNumber (now count : ℕ) (lastWrong : Option ℕ) : ℕ :=
  (if dayOld now lastWrong then 0 else count) + 1

/-- The locks a new one follows on from. -/
def Counters.backoff (now : ℕ) (l : Counters) : ℕ :=
  if dayOld now l.lockedUntil then 0 else l.lockCount

/-- How long the lock after `backoff` others is. -/
def lockMinutes (backoff : ℕ) : ℕ := min (15 * 2 ^ backoff) 60

/-- The tenth failure locks the account and starts the count again. -/
def Counters.afterFailure (now : ℕ) (l : Counters) : Counters :=
  let number := failureNumber now l.failedLogins l.lastFailedLoginAt
  if number = 10 then
    { failedLogins := 0
      lastFailedLoginAt := some now
      lockedUntil := some (now + lockMinutes (l.backoff now) * 60 * 1000)
      lockCount := l.backoff now + 1 }
  else
    { failedLogins := number
      lastFailedLoginAt := some now
      lockedUntil := l.lockedUntil
      lockCount := l.backoff now }

/-! ### The statement -/

/-- The largest value of `failed_logins` and of `lock_count`, each a `SMALLINT UNSIGNED`. -/
def columnMax : ℕ := 65535

def fits (u : User) : Bool := u.failedLogins ≤ columnMax && u.lockCount ≤ columnMax

/-- The `UPDATE` as a strict connection runs it: a value that does not fit its column refuses it. -/
def failedAttempt (users : Users) (id now : ℕ) : Option Users :=
  if users.rows.all fun u => u.id ≠ id || fits (countFailure now u) then
    some (registerFailedAttempt users id now)
  else none

/-- From six doublings on the cap decides. -/
lemma minutes_eq (n : ℕ) :
    min (lockBaseMinutes * 2 ^ min n 6) lockMaxMinutes = lockMinutes n := by
  simp only [lockBaseMinutes, lockMaxMinutes, lockMinutes]
  rcases Nat.le_total n 6 with h | h
  · rw [Nat.min_eq_left h]
  · have hpow : 2 ^ 6 ≤ 2 ^ n := Nat.pow_le_pow_right (by decide) h
    rw [Nat.min_eq_right h]
    omega

lemma lockMinutes_le (n : ℕ) : lockMinutes n ≤ 60 := Nat.min_le_right _ _

lemma failureNumber_le {count : ℕ} (h : count < 10) (now : ℕ) (lastWrong : Option ℕ) :
    failureNumber now count lastWrong ≤ 10 := by
  simp only [failureNumber]
  split <;> omega

lemma Counters.backoff_le (l : Counters) (now : ℕ) : l.backoff now ≤ l.lockCount := by
  simp only [backoff]
  split <;> omega

/-- The assignments, run left to right, compute the documented step. -/
lemma countFailure_eq {u : User} (h : u.failedLogins < 10) (now : ℕ) :
    countFailure now u = withCounters u ((countersOf u).afterFailure now) := by
  have hdecayed : ∀ date : Option ℕ,
      date.any (· + lockDecayHours * hourMs ≤ now) = dayOld now date := fun _ => rfl
  have hnumber : (if dayOld now u.lastFailedLoginAt then 0 else u.failedLogins) + 1 =
      failureNumber now u.failedLogins u.lastFailedLoginAt := rfl
  have hle := failureNumber_le h now u.lastFailedLoginAt
  simp only [countFailure, hdecayed, minutes_eq, ge_iff_le, lockThreshold, hnumber,
    Counters.afterFailure, countersOf, withCounters, Counters.backoff]
  by_cases hten : failureNumber now u.failedLogins u.lastFailedLoginAt = 10
  · simp only [hten, Nat.le_refl, if_true]
    rfl
  · have hlt : ¬ 10 ≤ failureNumber now u.failedLogins u.lastFailedLoginAt := by omega
    simp only [hten, hlt, if_false]
    rfl

section

variable {u : User} (h : u.failedLogins < 10) (now : ℕ)

include h

lemma failedLogins_countFailure : (countFailure now u).failedLogins =
    if failureNumber now u.failedLogins u.lastFailedLoginAt = 10 then 0
    else failureNumber now u.failedLogins u.lastFailedLoginAt := by
  rw [countFailure_eq h]
  exact apply_ite Counters.failedLogins _ _ _

lemma lockedUntil_countFailure : (countFailure now u).lockedUntil =
    if failureNumber now u.failedLogins u.lastFailedLoginAt = 10
    then some (now + lockMinutes ((countersOf u).backoff now) * 60 * 1000) else u.lockedUntil := by
  rw [countFailure_eq h]
  exact apply_ite Counters.lockedUntil _ _ _

lemma lockCount_countFailure : (countFailure now u).lockCount =
    if failureNumber now u.failedLogins u.lastFailedLoginAt = 10 then (countersOf u).backoff now + 1
    else (countersOf u).backoff now := by
  rw [countFailure_eq h]
  exact apply_ite Counters.lockCount _ _ _

/-- The count starts again before it reaches ten. -/
lemma failedLogins_countFailure_lt : (countFailure now u).failedLogins < 10 := by
  have hle := failureNumber_le h now u.lastFailedLoginAt
  rw [failedLogins_countFailure h]
  split <;> omega

end

/-- When the values after a failure fit: a tenth failure needs room in `lock_count`. -/
lemma fits_countFailure {u : User} (h : u.failedLogins < 10) (hcount : u.lockCount ≤ columnMax)
    (now : ℕ) : fits (countFailure now u) = true ↔
      (failureNumber now u.failedLogins u.lastFailedLoginAt = 10 →
        (countersOf u).backoff now < columnMax) := by
  have hbackoff : (countersOf u).backoff now ≤ u.lockCount := (countersOf u).backoff_le now
  have hnumber := failureNumber_le h now u.lastFailedLoginAt
  rw [fits, Bool.and_eq_true, decide_eq_true_eq, decide_eq_true_eq, failedLogins_countFailure h,
    lockCount_countFailure h]
  simp only [columnMax] at hcount ⊢
  by_cases hten : failureNumber now u.failedLogins u.lastFailedLoginAt = 10
  · simp only [hten, if_true, true_imp_iff]
    omega
  · simp only [hten, if_false, false_imp_iff, iff_true]
    omega

lemma find_registerFailedAttempt (users : Users) (id now j : ℕ) :
    (registerFailedAttempt users id now).find j =
      (users.find j).map fun u => if decide (u.id = id) then countFailure now u else u :=
  Table.find_updateWhere j

lemma failedAttempt_eq {users : Users} {id : ℕ} {u : User} (hfind : users.find id = some u)
    (now : ℕ) : failedAttempt users id now =
      if fits (countFailure now u) then some (registerFailedAttempt users id now) else none := by
  have hall : (users.rows.all fun v => v.id ≠ id || fits (countFailure now v)) =
      fits (countFailure now u) := by
    obtain ⟨hu, rfl⟩ := Table.find_eq_some.mp hfind
    rw [Bool.eq_iff_iff, List.all_eq_true]
    constructor
    · intro hrows
      simpa using hrows u hu
    · intro hfits v hv
      by_cases hid : v.id = u.id
      · rw [Table.eq_of_key hv hu hid, hfits, Bool.or_true]
      · simp [hid]
  rw [failedAttempt, hall]

/-! ### Runs -/

/-- What happened to an account's counters: a failure was counted, or refused, or the counters were
cleared. -/
inductive Entry where
  | failed (id now : ℕ) (before after : User)
  | refused (id now : ℕ) (before : User)
  | cleared (id : ℕ)

def Entry.account : Entry → ℕ
  | failed id _ _ _ => id
  | refused id _ _ => id
  | cleared id => id

/-- `attempts` are the logins between their `SELECT` and their `UPDATE`: the account found, and whether
the password was its own. `history` is newest first. -/
structure State where
  db : Database
  attempts : ℕ → Option (ℕ × Bool)
  history : List Entry

/-- Any accounts, and no login in flight. -/
def State.init (db : Database) : State := ⟨db, fun _ => none, []⟩

inductive Action where
  | select (i : ℕ) (email password : String) (now : ℕ)
  | settle (i now : ℕ)
  | update (actorId targetId : String) (input : UpdateUserInput) (now : ℕ)
  | forgotPassword (tokenId : ℕ) (email rawToken : String) (now : ℕ)
  | acceptInvite (rawToken passwordHash : String) (now : ℕ)
  | resetPassword (rawToken passwordHash : String) (now : ℕ)

/-- The `UPDATE` of a login whose password was wrong. -/
def settleWrong (s : State) (i id now : ℕ) : State :=
  let attempts := Function.update s.attempts i none
  match s.db.users.find id with
  | none => { s with attempts := attempts }
  | some before =>
    match failedAttempt s.db.users id now with
    | none => { s with attempts := attempts, history := .refused id now before :: s.history }
    | some users => {
        db := { s.db with users := users }
        attempts := attempts
        history := .failed id now before (countFailure now before) :: s.history }

/-- The `UPDATE` of a login whose password was right. -/
def settleRight (s : State) (i id now : ℕ) : State where
  db := { s.db with users := (recordSignIn s.db.users id now).2 }
  attempts := Function.update s.attempts i none
  history := if (recordSignIn s.db.users id now).1 then .cleared id :: s.history else s.history

def step (sql : SqlNumeric) (env : AuthEnv) (s : State) : Action → Option State
  | .select i email password now =>
    match s.attempts i, findByEmail env s.db.users email with
    | some _, _ => none
    | none, none => some s
    | none, some user =>
      if canSignIn user now then some { s with
        attempts := Function.update s.attempts i
          (some (user.id, env.verify user.passwordHash password)) }
      else some s
  | .settle i now => (s.attempts i).map fun attempt =>
    if attempt.2 then settleRight s i attempt.1 now else settleWrong s i attempt.1 now
  | .update actorId targetId input now =>
    match updateUser sql env.sameEmail s.db actorId targetId input now with
    | none => some s
    | some (w, db) => some { s with
        db := db
        history := if input.unlock then .cleared w.row.id :: s.history else s.history }
  | .forgotPassword tokenId email rawToken now =>
    some { s with db := sendPasswordReset env s.db tokenId email rawToken now }
  | .acceptInvite rawToken passwordHash now =>
    match Accounts.acceptInvite env s.db rawToken passwordHash now with
    | .error _ => some s
    | .ok (user, db) => some { s with db := db, history := .cleared user.id :: s.history }
  | .resetPassword rawToken passwordHash now =>
    match Accounts.resetPassword env s.db rawToken passwordHash now with
    | .error _ => some s
    | .ok (user, db) => some { s with db := db, history := .cleared user.id :: s.history }

/-! ### The count a history leaves -/

section

variable (db : Database)

/-- When an account's last wrong password was counted, by its history from `db` on. -/
def lastWrong (id : ℕ) : List Entry → Option ℕ
  | [] => (db.users.find id).bind User.lastFailedLoginAt
  | .failed j now _ _ :: es => if j = id then some now else lastWrong id es
  | .refused _ _ _ :: es => lastWrong id es
  | .cleared _ :: es => lastWrong id es

/-- How many failures were counted since the count was last reset: by a sign-in, an unlock, an account
link, a lock or a day without a wrong password. -/
def counted (id : ℕ) : List Entry → ℕ
  | [] => ((db.users.find id).map User.failedLogins).getD 0
  | .failed j now _ _ :: es =>
    if j = id then
      let number := failureNumber now (counted id es) (lastWrong db id es)
      if number = 10 then 0 else number
    else counted id es
  | .refused _ _ _ :: es => counted id es
  | .cleared j :: es => if j = id then 0 else counted id es

/-- The number of a failure at `now`, by the history before it. -/
def numberOf (id now : ℕ) (es : List Entry) : ℕ :=
  failureNumber now (counted db id es) (lastWrong db id es)

/-- A failure locks the account when it is the tenth, for at most 60 minutes, and only then; one is
refused only when it would take `lock_count` past its maximum. -/
def EntryLawful (es : List Entry) : Entry → Prop
  | .failed id now before after =>
    after = withCounters before ((countersOf before).afterFailure now) ∧
      after.lockedUntil = if numberOf db id now es = 10
        then some (now + lockMinutes ((countersOf before).backoff now) * 60 * 1000)
        else before.lockedUntil
  | .refused id now before => columnMax ≤ before.lockCount ∧ numberOf db id now es = 10
  | .cleared _ => True

/-- Where an account's `locked_until` comes from: it stood there at the start, or a tenth failure set
it, to at most 60 minutes later. -/
def LockSet (history : List Entry) (id lockedUntil : ℕ) : Prop :=
  (∃ u, db.users.find id = some u ∧ u.lockedUntil = some lockedUntil) ∨
    ∃ now before after es, .failed id now before after :: es <:+ history ∧
      numberOf db id now es = 10 ∧ lockedUntil ≤ now + 60 * 60 * 1000

/-- The lockout policy, in a state that a run from `db` reached. -/
structure Lawful (s : State) : Prop where
  below : ∀ u ∈ s.db.users.rows, u.failedLogins < 10
  counted : ∀ u ∈ s.db.users.rows, u.failedLogins = counted db u.id s.history
  entry : ∀ e es, e :: es <:+ s.history → EntryLawful db es e
  lock : ∀ u ∈ s.db.users.rows, ∀ t, u.lockedUntil = some t → LockSet db s.history u.id t

/-! ### Rows agree with their history -/

/-- What a row and the history of its account say alike. -/
structure Agrees (es : List Entry) (u : User) : Prop where
  count : u.failedLogins = counted db u.id es
  last : u.lastFailedLoginAt = lastWrong db u.id es
  below : u.failedLogins < 10
  fits : u.lockCount ≤ columnMax
  lock : ∀ t, u.lockedUntil = some t → LockSet db es u.id t

variable {db}

lemma LockSet.mono {es es' : List Entry} {id t : ℕ} (h : LockSet db es id t) (hes : es <:+ es') :
    LockSet db es' id t := by
  rcases h with h | ⟨now, before, after, es₀, hsuffix, hten, hle⟩
  · exact Or.inl h
  · exact Or.inr ⟨now, before, after, es₀, hsuffix.trans hes, hten, hle⟩

lemma agrees_init {u : User} (hu : u ∈ db.users.rows) (h : u.failedLogins < 10)
    (hfits : u.lockCount ≤ columnMax) : Agrees db [] u := by
  have hfind := Table.mem_iff_find.mp hu
  refine ⟨?_, ?_, h, hfits, fun t ht => Or.inl ⟨u, hfind, ht⟩⟩
  · simp [counted, hfind]
  · simp [lastWrong, hfind]

namespace Agrees

variable {es : List Entry} {u u' : User}

lemma numberOf_eq (h : Agrees db es u) (now : ℕ) :
    numberOf db u.id now es = failureNumber now u.failedLogins u.lastFailedLoginAt := by
  rw [numberOf, h.count, h.last]

/-- Writes to other columns. -/
lemma same (h : Agrees db es u) (hid : u'.id = u.id) (hcounters : countersOf u' = countersOf u) :
    Agrees db es u' := by
  simp only [countersOf, Counters.mk.injEq] at hcounters
  obtain ⟨hcount, hlast, hlock, hlocks⟩ := hcounters
  refine ⟨?_, ?_, ?_, ?_, fun t ht => ?_⟩
  · rw [hcount, hid]; exact h.count
  · rw [hlast, hid]; exact h.last
  · rw [hcount]; exact h.below
  · rw [hlocks]; exact h.fits
  · rw [hid]; exact h.lock t (hlock ▸ ht)

/-- What happens to another account. -/
lemma other (h : Agrees db es u) {e : Entry} (he : e.account ≠ u.id) : Agrees db (e :: es) u := by
  refine ⟨?_, ?_, h.below, h.fits, fun t ht => (h.lock t ht).mono (List.suffix_cons e es)⟩
  · rw [h.count]
    cases e <;> simp only [Entry.account] at he <;> simp [counted, he]
  · rw [h.last]
    cases e <;> simp only [Entry.account] at he <;> simp [lastWrong, he]

lemma refused (h : Agrees db es u) (id now : ℕ) (before : User) :
    Agrees db (.refused id now before :: es) u :=
  ⟨h.count, h.last, h.below, h.fits, fun t ht => (h.lock t ht).mono (List.suffix_cons _ es)⟩

/-- A counted failure. -/
lemma failed (h : Agrees db es u) {now : ℕ} (hfits : Lockout.fits (countFailure now u) = true) :
    Agrees db (.failed u.id now u (countFailure now u) :: es) (countFailure now u) := by
  have hnumber := h.numberOf_eq now
  rw [Lockout.fits, Bool.and_eq_true, decide_eq_true_eq, decide_eq_true_eq] at hfits
  have hid : (countFailure now u).id = u.id := rfl
  refine ⟨?_, ?_, failedLogins_countFailure_lt h.below now, hfits.2, fun t ht => ?_⟩
  · rw [failedLogins_countFailure h.below, ← hnumber, hid]
    simp only [counted, if_true]
    rfl
  · rw [hid]
    simp [lastWrong, countFailure]
  · rw [lockedUntil_countFailure h.below, ← hnumber] at ht
    split_ifs at ht with hten
    · refine Or.inr ⟨now, u, countFailure now u, es, List.suffix_rfl, hten, ?_⟩
      have hle := lockMinutes_le ((countersOf u).backoff now)
      rw [← Option.some.inj ht]
      omega
    · exact (h.lock t ht).mono (List.suffix_cons _ es)

/-- The counters start again. -/
lemma cleared (h : Agrees db es u) (hid : u'.id = u.id) (hcount : u'.failedLogins = 0)
    (hlocks : u'.lockCount = 0) (hlast : u'.lastFailedLoginAt = u.lastFailedLoginAt)
    (hlock : u'.lockedUntil = none ∨ u'.lockedUntil = u.lockedUntil) :
    Agrees db (.cleared u.id :: es) u' := by
  refine ⟨?_, ?_, ?_, ?_, fun t ht => ?_⟩
  · rw [hcount, hid]
    simp [counted]
  · rw [hlast, hid]
    exact h.last
  · omega
  · omega
  · rw [hid]
    rcases hlock with hlock | hlock
    · rw [hlock] at ht
      cases ht
    · exact (h.lock t (hlock ▸ ht)).mono (List.suffix_cons _ es)

end Agrees

end

/-! ### What a step keeps -/

/-- What holds in every state reached. -/
structure Inv (db : Database) (s : State) : Prop where
  rows : ∀ u ∈ s.db.users.rows, Agrees db s.history u
  entry : ∀ e es, e :: es <:+ s.history → EntryLawful db es e

variable {sql : SqlNumeric} {env : AuthEnv} {db : Database} {s s' : State}

lemma Inv.lawful (h : Inv db s) : Lawful db s where
  below u hu := (h.rows u hu).below
  counted u hu := (h.rows u hu).count
  entry := h.entry
  lock u hu := (h.rows u hu).lock

/-- A lawful entry joins the history. -/
lemma entry_cons {es : List Entry} {e : Entry} (h : ∀ e es', e :: es' <:+ es → EntryLawful db es' e)
    (he : EntryLawful db es e) : ∀ e' es', e' :: es' <:+ e :: es → EntryLawful db es' e' := by
  intro e' es' hsuffix
  rcases List.suffix_cons_iff.mp hsuffix with heq | hsuffix
  · cases heq; exact he
  · exact h e' es' hsuffix

/-- A write of one row whose counters it clears. -/
lemma rows_cleared {users : Users} {es : List Entry} {u : User}
    (h : ∀ v ∈ users.rows, Agrees db es v) (hu : Agrees db (.cleared u.id :: es) u) :
    ∀ v ∈ (users.replace u).rows, Agrees db (.cleared u.id :: es) v := by
  intro v hv
  rcases Table.mem_replace.mp hv with ⟨rfl, -⟩ | ⟨hv, hne⟩
  · exact hu
  · exact (h v hv).other (Ne.symm hne)

/-- A write of one row that leaves its counters. -/
lemma rows_same {users : Users} {es : List Entry} {u : User}
    (h : ∀ v ∈ users.rows, Agrees db es v) (hu : Agrees db es u) :
    ∀ v ∈ (users.replace u).rows, Agrees db es v := by
  intro v hv
  rcases Table.mem_replace.mp hv with ⟨rfl, -⟩ | ⟨hv, -⟩
  · exact hu
  · exact h v hv

lemma mem_registerFailedAttempt {users : Users} {id now : ℕ} {u : User} :
    u ∈ (registerFailedAttempt users id now).rows ↔
      ∃ u₀ ∈ users.rows, (if decide (u₀.id = id) then countFailure now u₀ else u₀) = u :=
  Table.mem_updateWhere

lemma mem_recordSignIn {users : Users} {id now : ℕ} {u : User} :
    u ∈ (recordSignIn users id now).2.rows ↔
      ∃ u₀ ∈ users.rows,
        (if u₀.id = id && u₀.status = .active then countSignIn now u₀ else u₀) = u :=
  @Table.mem_updateWhere _ _ _ _ _ (fun u => (countSignIn_standing now u).1) _ _

/-- A wrong password. -/
lemma inv_settleWrong (h : Inv db s) (i id now : ℕ) : Inv db (settleWrong s i id now) := by
  simp only [settleWrong]
  split
  · exact ⟨h.rows, h.entry⟩
  · next before hfind =>
    obtain ⟨hbefore, rfl⟩ := Table.find_eq_some.mp hfind
    have hagrees := h.rows before hbefore
    have hfits := fits_countFailure hagrees.below hagrees.fits now
    rw [failedAttempt_eq hfind]
    split_ifs with hfit
    · refine ⟨fun v hv => ?_, entry_cons h.entry ⟨countFailure_eq hagrees.below now, ?_⟩⟩
      · obtain ⟨u, hu, rfl⟩ := mem_registerFailedAttempt.mp hv
        split_ifs with hid
        · rw [Table.eq_of_key hu hbefore (of_decide_eq_true hid)]
          exact hagrees.failed hfit
        · exact (h.rows u hu).other fun heq => hid (decide_eq_true heq.symm)
      · rw [hagrees.numberOf_eq]
        exact lockedUntil_countFailure hagrees.below now
    · refine ⟨fun v hv => (h.rows v hv).refused _ _ _, entry_cons h.entry ?_⟩
      rw [hfits, Classical.not_imp, Nat.not_lt] at hfit
      refine ⟨Nat.le_trans hfit.2 ((countersOf before).backoff_le now), ?_⟩
      rw [hagrees.numberOf_eq]
      exact hfit.1

/-- A right password, for an account that is still active. -/
lemma inv_settleRight (h : Inv db s) (i id now : ℕ) : Inv db (settleRight s i id now) := by
  by_cases hactive : (recordSignIn s.db.users id now).1 = true
  · have hhistory : (settleRight s i id now).history = .cleared id :: s.history := if_pos hactive
    obtain ⟨u, hu, hp⟩ := List.any_eq_true.mp hactive
    have hid : u.id = id := of_decide_eq_true ((Bool.and_eq_true _ _).mp hp).1
    refine ⟨fun v hv => ?_, hhistory ▸ entry_cons h.entry trivial⟩
    obtain ⟨v₀, hv₀, rfl⟩ := mem_recordSignIn.mp hv
    rw [hhistory, ← hid]
    by_cases hv₀id : v₀.id = u.id
    · rw [Table.eq_of_key hv₀ hu hv₀id, if_pos (hid ▸ hp)]
      exact (h.rows u hu).cleared rfl rfl rfl rfl (Or.inr rfl)
    · rw [if_neg fun hp₀ => hv₀id (of_decide_eq_true ((Bool.and_eq_true _ _).mp hp₀).1)]
      exact (h.rows v₀ hv₀).other (Ne.symm hv₀id)
  · have hhistory : (settleRight s i id now).history = s.history := if_neg hactive
    refine ⟨fun v hv => ?_, hhistory ▸ h.entry⟩
    obtain ⟨v₀, hv₀, rfl⟩ := mem_recordSignIn.mp hv
    rw [hhistory, if_neg fun hp₀ => hactive (List.any_eq_true.mpr ⟨v₀, hv₀, hp₀⟩)]
    exact h.rows v₀ hv₀

/-- What an update writes to the counters. -/
lemma counters_of_prepareUpdate {users : Users} {actorId targetId : String}
    {input : UpdateUserInput} {w : UserWrite}
    (h : prepareUpdate sql users actorId targetId input = .ok w) :
    ∃ target ∈ users.rows, w.row.id = target.id ∧
      countersOf w.row = if input.unlock then
        { countersOf target with failedLogins := 0, lockedUntil := none, lockCount := 0 }
      else countersOf target := by
  obtain ⟨target, hallowed⟩ := prepareUpdate_allowed h
  refine ⟨target, (mem_of_findUser hallowed.found).1, hallowed.id, ?_⟩
  simp only [prepareUpdate, hallowed.found] at h
  obtain ⟨t₁, hrole, h⟩ := bind_eq_ok h
  obtain ⟨t₂, hstatus, h⟩ := bind_eq_ok h
  cases h
  rw [(updateRole_ok hrole).1] at hstatus
  rw [(updateStatus_ok hstatus).1]
  cases hunlock : input.unlock <;> rfl

lemma inv_step {a : Action} (h : Inv db s) (hs : step sql env s a = some s') : Inv db s' := by
  cases a with
  | select i email password now =>
    simp only [step] at hs
    split at hs
    · cases hs
    · cases hs; exact h
    · split_ifs at hs <;> cases hs <;> exact ⟨h.rows, h.entry⟩
  | settle i now =>
    simp only [step] at hs
    obtain ⟨attempt, -, rfl⟩ := Option.map_eq_some_iff.mp hs
    split_ifs
    · exact inv_settleRight h i attempt.1 now
    · exact inv_settleWrong h i attempt.1 now
  | update actorId targetId input now =>
    simp only [step] at hs
    split at hs
    · cases hs; exact h
    · next w db hupdate =>
      obtain ⟨hw, -, rfl⟩ := updateUser_eq_some.mp hupdate
      cases hs
      obtain ⟨target, htarget, hid, hcounters⟩ := counters_of_prepareUpdate hw
      have hagrees := h.rows target htarget
      split_ifs at hcounters ⊢ with hunlock
      · simp only [countersOf, Counters.mk.injEq] at hcounters
        obtain ⟨hcount, hlast, hlock, hlocks⟩ := hcounters
        have hrow := hagrees.cleared hid hcount hlocks hlast (Or.inl hlock)
        rw [← hid] at hrow
        exact ⟨rows_cleared h.rows hrow, entry_cons h.entry trivial⟩
      · exact ⟨rows_same h.rows (hagrees.same hid hcounters), h.entry⟩
  | forgotPassword tokenId email rawToken now =>
    cases hs
    refine ⟨fun u hu => ?_, h.entry⟩
    rw [sendPasswordReset_users] at hu
    exact h.rows u hu
  | acceptInvite rawToken passwordHash now =>
    simp only [step] at hs
    split at hs
    · cases hs; exact h
    · next user db' haccept =>
      cases hs
      obtain ⟨u, tokens, hfind, -, hresult⟩ := consumeToken_ok haccept
      cases hresult
      have hu := h.rows u (Table.find_eq_some.mp hfind).1
      refine ⟨rows_cleared h.rows ?_, entry_cons h.entry trivial⟩
      exact hu.cleared rfl rfl rfl rfl (Or.inl rfl)
  | resetPassword rawToken passwordHash now =>
    simp only [step] at hs
    split at hs
    · cases hs; exact h
    · next user db' hreset =>
      cases hs
      obtain ⟨u, tokens, hfind, -, hresult⟩ := consumeToken_ok hreset
      cases hresult
      have hu := h.rows u (Table.find_eq_some.mp hfind).1
      refine ⟨rows_cleared h.rows ?_, entry_cons h.entry trivial⟩
      exact hu.cleared rfl rfl rfl rfl (Or.inl rfl)

/-- The statement computes the documented step on its row and leaves the others, and in every run of
logins, updates and account links the counters follow the policy. -/
theorem lockout_refines :
    (∀ (users : Users) (id : ℕ) (u : User) (now : ℕ), users.find id = some u → u.failedLogins < 10 →
      u.lockCount < columnMax → ∃ users', failedAttempt users id now = some users' ∧
        ∀ j, users'.find j = if j = id then some (withCounters u ((countersOf u).afterFailure now))
          else users.find j) ∧
    ∀ (sql : SqlNumeric) (env : AuthEnv) (db : Database) (s : State),
      (∀ u ∈ db.users.rows, u.failedLogins < 10 ∧ u.lockCount ≤ columnMax) →
      Reach (step sql env) always (State.init db) s → Lawful db s := by
  refine ⟨fun users id u now hfind hcount hlocks => ?_, fun sql env db s hdb h => ?_⟩
  · have hfits : fits (countFailure now u) = true := by
      rw [fits_countFailure hcount (Nat.le_of_lt hlocks)]
      exact fun _ => Nat.lt_of_le_of_lt ((countersOf u).backoff_le now) hlocks
    refine ⟨registerFailedAttempt users id now, ?_, fun j => ?_⟩
    · rw [failedAttempt_eq hfind, if_pos hfits]
    · rw [find_registerFailedAttempt]
      split_ifs with hj
      · rw [hj, hfind, Option.map_some, ← countFailure_eq hcount, if_pos]
        exact decide_eq_true (Table.key_of_find hfind)
      · cases hfindj : users.find j with
        | none => rfl
        | some v =>
          rw [Option.map_some, if_neg]
          exact fun hv => hj ((Table.key_of_find hfindj).symm.trans (of_decide_eq_true hv))
  · have hinit : Inv db (State.init db) := by
      refine ⟨fun u hu => agrees_init hu (hdb u hu).1 (hdb u hu).2, fun e es hsuffix => ?_⟩
      exact absurd (List.suffix_nil.mp hsuffix) (List.cons_ne_nil e es)
    exact (h.invariant hinit fun _ _ _ hi _ hs => inv_step hi hs).lawful

/-! ### A tenth failure -/

def plainEnv : AuthEnv := ⟨fun a b => a = b, fun hash password => hash = password, id, 30, 8⟩

/-- An account with nine failures, of no recorded date. -/
def nineFailures : Database where
  users := ⟨[{ invitedUser 1 "a@x" "A" .editor with
    status := .active, passwordHash := "p", failedLogins := 9 }], by decide⟩

/-- Two wrong passwords in parallel. -/
def parallelFailures : List Action :=
  [.select 0 "a@x" "q" 0, .select 1 "a@x" "r" 0, .settle 1 50, .settle 0 60]

theorem lockout_refines_tenth :
    (∃ users', failedAttempt nineFailures.users 1 50 = some users' ∧
      (users'.find 1).map countersOf = some ⟨0, some 50, some (50 + 15 * 60 * 1000), 1⟩) ∧
    ∃ s, Lawful nineFailures s ∧
      s.db.users.rows.map countersOf = [⟨1, some 60, some (50 + 15 * 60 * 1000), 1⟩] := by
  constructor
  · obtain ⟨users', hattempt, hfind⟩ := lockout_refines.1 nineFailures.users 1 _ 50 rfl
      (by decide) (by decide)
    refine ⟨users', hattempt, ?_⟩
    rw [hfind, if_pos rfl, Option.map_some]
    decide +kernel
  · obtain ⟨s, hrun, hrows⟩ := exists_of_run (step .decimal plainEnv) (State.init nineFailures)
      parallelFailures (P := fun s => s.db.users.rows.map countersOf =
        [⟨1, some 60, some (50 + 15 * 60 * 1000), 1⟩]) (by decide +kernel)
    exact ⟨s, lockout_refines.2 _ _ _ _ (by decide +kernel) (Reach.of_run hrun), hrows⟩

end SafeerApi.Accounts.Lockout
