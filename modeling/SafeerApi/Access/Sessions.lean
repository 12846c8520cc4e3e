import SafeerApi.Accounts.SessionEnding

/-!
# The life of a session (`session.guard.ts`, `auth.service.ts`, `maintenance.service.ts`)

A session lasts until it is revoked, until its absolute end, or until it has not been used for the
idle time. The guard writes down a use at most once a minute and does not wait for the write, which
may come late or not at all. Its query compares with `NOW()`, which has whole seconds; the nightly job
compares with the time to the millisecond.
-/

namespace SafeerApi.Access

open Accounts Common Lib

/-- `LAST_SEEN_UPDATE_THROTTLE_MS` -/
def lastSeenThrottleMs : ℕ := 60 * 1000

def absoluteMs (env : AuthEnv) : ℕ := env.sessionAbsoluteDays * 24 * hourMs

def idleMs (env : AuthEnv) : ℕ := env.sessionIdleHours * hourMs

/-! ### Requests and the clock -/

/-- The tables at a time, and the requests to end a session that have loaded it. By session, `begun`
is when it was inserted, `lastUse` its last accepted request, `lastActive` that or the last write of
a use, and `behind` says that a use is still to be written. -/
structure Life where
  accounts : SessionEnding.State
  now : ℕ
  ending : ℕ → Option Session
  begun : ℕ → Option ℕ
  lastUse : ℕ → ℕ
  lastActive : ℕ → ℕ
  behind : ℕ → Bool

abbrev Life.db (s : Life) : Database := s.accounts.db

def Life.setSessions (s : Life) (sessions : Sessions) : Life :=
  { s with accounts := { s.accounts with db := { s.accounts.db with sessions := sessions } } }

/-- Any accounts, none of which is signed in. -/
def Life.init (users : Users) (tokens : AuthTokens) (now : ℕ) : Life where
  accounts := SessionEnding.State.init ⟨users, .empty, tokens⟩
  now := now
  ending := fun _ => none
  begun := fun _ => none
  lastUse := fun _ => 0
  lastActive := fun _ => 0
  behind := fun _ => false

/-- The clock an action of the accounts reads. -/
def readClock : SessionEnding.Action → Option ℕ
  | .verify _ _ now | .countFailure _ now | .signIn _ now | .insert _ _ _ now | .reset _ _ now
  | .acceptInvite _ _ now | .update _ _ _ now | .endOthers _ _ now | .logout _ now
  | .touch _ now => some now
  | .select _ _ | .remove _ _ | .changePassword _ _ => none

/-- The id of the session an action inserts. -/
def insertedId : SessionEnding.Action → Option ℕ
  | .insert _ id _ _ => some id
  | _ => none

/-- Only the guard writes uses. -/
def writesUse : SessionEnding.Action → Bool
  | .touch _ _ => true
  | _ => false

/-- `endSession`'s check of who may end the session. -/
def mayEnd (actorId : ℕ) (actorRole : UserRole) (x : Session) : Bool :=
  x.userId = actorId || actorRole = .admin

inductive LifeAction where
  | tick (d : ℕ)
  | account (a : SessionEnding.Action)
  | request (cookie : String)
  | writeUse (id : ℕ)
  | loadSession (k actorId : ℕ) (actorRole : UserRole) (id : ℕ)
  | saveSession (k : ℕ)
  | purgeExpired

/-- The bookkeeping of a new session; its id is new. -/
def Life.begin (s : Life) (a : SessionEnding.Action) (accounts : SessionEnding.State) : Life :=
  match insertedId a with
  | some id =>
    if (accounts.db.sessions.find id).isSome then
      { s with
        accounts := accounts
        begun := Function.update s.begun id (some s.now)
        lastUse := Function.update s.lastUse id s.now
        lastActive := Function.update s.lastActive id s.now
        behind := Function.update s.behind id false }
    else { s with accounts := accounts }
  | none => { s with accounts := accounts }

/-- `resolveStaffSession` of a session it finds: the request is accepted, and its use is to be
written when the last one written is more than a minute old. -/
def Life.use (s : Life) (x : Session) : Life :=
  { s with
    lastUse := Function.update s.lastUse x.id s.now
    lastActive := Function.update s.lastActive x.id s.now
    behind := if lastSeenThrottleMs < s.now - x.lastSeenAt then Function.update s.behind x.id true
      else s.behind }

/-- Ids are not used twice. `save` puts the loaded row back, changed or again, unless its account is
gone. -/
def lifeStep (sql : SqlNumeric) (env : AuthEnv) (s : Life) : LifeAction → Option Life
  | .tick d => some { s with now := s.now + d }
  | .account a =>
    if writesUse a = false ∧ (readClock a).all (· = s.now) ∧
        (insertedId a).all (fun id => s.begun id = none) then
      (SessionEnding.step sql env s.accounts a).map (s.begin a)
    else none
  | .request cookie =>
    match resolveStaffSession env s.db s.now cookie with
    | some x => some (s.use x)
    | none => some s
  | .writeUse id =>
    if s.behind id then
      some { s.setSessions (touchSession s.db.sessions id s.now) with
        lastActive := Function.update s.lastActive id s.now
        behind := Function.update s.behind id false }
    else none
  | .loadSession k actorId actorRole id =>
    match s.db.sessions.find id with
    | some x =>
      if mayEnd actorId actorRole x then some { s with ending := Function.update s.ending k (some x) }
      else some s
    | none => some s
  | .saveSession k =>
    match s.ending k with
    | some x =>
      let s := { s with ending := Function.update s.ending k none }
      if (s.db.users.find x.userId).isSome then
        some (s.setSessions (s.db.sessions.put (x.revoke s.now)))
      else some s
    | none => none
  -- `purgeExpiredSessions` of the nightly job
  | .purgeExpired =>
    some (s.setSessions
      (s.db.sessions.deleteWhere fun x => x.expiresAt < s.now || x.revokedAt.isSome))

/-! ### What the steps do to sessions -/

section Steps

variable {sql : SqlNumeric} {env : AuthEnv}

lemma mem_revoked {sessions : Sessions} {p : Session → Bool} {now : ℕ} {x : Session}
    (hx : x ∈ (sessions.updateWhere p (.revoke now) (Session.revoke_id now)).rows)
    (hlive : x.revokedAt = none) : x ∈ sessions.rows := by
  obtain ⟨y, hy, heq⟩ := Table.mem_updateWhere.mp hx
  split at heq <;> subst heq
  · cases hlive
  · exact hy

/-- A session that is not revoked is as it was, or is the one the action inserts. -/
lemma account_sessions {s s' : SessionEnding.State} {a : SessionEnding.Action}
    (hwrite : writesUse a = false) (h : SessionEnding.step sql env s a = some s') {x : Session}
    (hx : x ∈ s'.db.sessions.rows) (hlive : x.revokedAt = none) :
    x ∈ s.db.sessions.rows ∨ ∃ l id token now userId,
      a = .insert l id token now ∧ x = newSession env id userId now token := by
  cases a with
  | select l email =>
    simp only [SessionEnding.step] at h
    split at h <;> cases h
    exact .inl hx
  | verify l password now =>
    simp only [SessionEnding.step] at h
    split at h
    · split_ifs at h <;> cases h <;> exact .inl hx
    · cases h; exact .inl hx
    · cases h
  | countFailure l now =>
    simp only [SessionEnding.step] at h
    split at h <;> cases h
    exact .inl hx
  | signIn l now =>
    simp only [SessionEnding.step] at h
    split at h
    · split at h <;> cases h <;> exact .inl hx
    · cases h
  | insert l id token now =>
    simp only [SessionEnding.step] at h
    split at h
    · next u k hlogin =>
      split_ifs at h with hnew huser <;> cases h
      · rcases (Table.mem_insert (h := hnew)).mp hx with hx | rfl
        · exact .inl hx
        · exact .inr ⟨l, id, token, now, u.id, rfl, rfl⟩
      · exact .inl hx
    · cases h
  | reset rawToken passwordHash now =>
    simp only [SessionEnding.step] at h
    split at h
    · next user db hreset =>
      cases h
      obtain ⟨u, tokens, -, -, hresult⟩ := consumeToken_ok hreset
      cases hresult
      exact .inl (mem_revoked hx hlive)
    · cases h; exact .inl hx
  | acceptInvite rawToken passwordHash now =>
    simp only [SessionEnding.step] at h
    split at h
    · next user db haccept =>
      cases h
      obtain ⟨u, tokens, -, -, hresult⟩ := consumeToken_ok haccept
      cases hresult
      exact .inl hx
    · cases h; exact .inl hx
  | update actorId targetId input now =>
    simp only [SessionEnding.step] at h
    split at h
    · next w db hupdate =>
      obtain ⟨-, -, rfl⟩ := updateUser_eq_some.mp hupdate
      have hsessions : s'.db.sessions = (writeUpdate s.db w now).sessions := by
        cases h
        split <;> rfl
      rw [hsessions, writeUpdate] at hx
      simp only at hx
      split at hx
      · exact .inl (mem_revoked hx hlive)
      · exact .inl hx
    · cases h; exact .inl hx
  | remove actorId targetId =>
    simp only [SessionEnding.step] at h
    split at h <;> cases h
    · exact .inl (Table.mem_deleteWhere.mp hx).1
    · exact .inl hx
  | changePassword userId passwordHash => cases h; exact .inl hx
  | endOthers userId keep now =>
    cases h
    exact .inl (mem_revoked hx hlive)
  | logout id now =>
    cases h
    exact .inl (mem_revoked hx hlive)
  | touch id now => cases hwrite

lemma mem_touchSession {sessions : Sessions} {id now : ℕ} {x : Session}
    (hx : x ∈ (touchSession sessions id now).rows) :
    ∃ y ∈ sessions.rows, (if y.id = id then y.touch now else y) = x := by
  obtain ⟨y, hy, rfl⟩ := List.mem_map.mp hx
  exact ⟨y, hy, by simp⟩

/-- Only a revoked session is put back. -/
lemma mem_put_revoked {sessions : Sessions} {x y : Session} {now : ℕ}
    (hx : x ∈ (sessions.put (y.revoke now)).rows) (hlive : x.revokedAt = none) :
    x ∈ sessions.rows := by
  rcases Table.mem_put hx with rfl | hx
  · cases hlive
  · exact hx

end Steps

/-! ### How long a session lasts -/

/-- What the row of a session that is not revoked says of its past. -/
structure Life.Row (env : AuthEnv) (s : Life) (x : Session) : Prop where
  begun : ∃ t, s.begun x.id = some t ∧ x.expiresAt = t + absoluteMs env
  lastActive : x.lastSeenAt ≤ s.lastActive x.id
  lastUse : s.behind x.id = false → s.lastUse x.id ≤ x.lastSeenAt + lastSeenThrottleMs

structure Life.Inv (env : AuthEnv) (s : Life) : Prop where
  past : ∀ id, s.lastUse id ≤ s.now ∧ s.lastActive id ≤ s.now
  rows : ∀ x ∈ s.db.sessions.rows, x.revokedAt = none → s.Row env x

section Life

variable {sql : SqlNumeric} {env : AuthEnv} {s s' : Life}

lemma inv_init (users : Users) (tokens : AuthTokens) (now : ℕ) :
    (Life.init users tokens now).Inv env :=
  ⟨fun _ => ⟨Nat.zero_le _, Nat.zero_le _⟩, by simp [Life.init, SessionEnding.State.init, Table.empty]⟩

/-- Fewer sessions that are not revoked. -/
lemma Life.Inv.subset (h : s.Inv env) {sessions : Sessions}
    (hsub : ∀ x ∈ sessions.rows, x.revokedAt = none → x ∈ s.db.sessions.rows) :
    (s.setSessions sessions).Inv env :=
  ⟨h.past, fun x hx hlive =>
    ⟨(h.rows x (hsub x hx hlive) hlive).begun, (h.rows x (hsub x hx hlive) hlive).lastActive,
      (h.rows x (hsub x hx hlive) hlive).lastUse⟩⟩

lemma Life.Inv.account (h : s.Inv env) {a : SessionEnding.Action} {accounts : SessionEnding.State}
    (hwrite : writesUse a = false) (hclock : (readClock a).all (· = s.now) = true)
    (hnew : (insertedId a).all (fun id => s.begun id = none) = true)
    (hstep : SessionEnding.step sql env s.accounts a = some accounts) :
    (s.begin a accounts).Inv env := by
  have hrows : ∀ x ∈ accounts.db.sessions.rows, x.revokedAt = none →
      x ∈ s.db.sessions.rows ∨ ∃ l id token now userId,
        a = .insert l id token now ∧ x = newSession env id userId now token :=
    fun x hx hlive => account_sessions hwrite hstep hx hlive
  cases hid : insertedId a with
  | none =>
    simp only [Life.begin, hid]
    refine ⟨h.past, fun x hx hlive => ?_⟩
    rcases hrows x hx hlive with hx | ⟨l, id, token, now, userId, rfl, -⟩
    · exact ⟨(h.rows x hx hlive).begun, (h.rows x hx hlive).lastActive, (h.rows x hx hlive).lastUse⟩
    · cases hid
  | some id =>
    have hunused : s.begun id = none := by simpa [hid] using hnew
    have hne : ∀ x ∈ s.db.sessions.rows, x.revokedAt = none → x.id ≠ id := by
      rintro x hx hlive rfl
      obtain ⟨t, ht, -⟩ := (h.rows x hx hlive).begun
      rw [hunused] at ht
      cases ht
    simp only [Life.begin, hid]
    split_ifs with hfound
    · refine ⟨fun id' => ?_, fun x hx hlive => ?_⟩
      · by_cases hid' : id' = id
        · subst hid'
          simp
        · simpa [Function.update_of_ne hid'] using h.past id'
      · rcases hrows x hx hlive with hx | ⟨l, id', token, now, userId, rfl, rfl⟩
        · have hx' := h.rows x hx hlive
          have hneq := hne x hx hlive
          exact ⟨by simpa [Function.update_of_ne hneq] using hx'.begun,
            by simpa [Function.update_of_ne hneq] using hx'.lastActive,
            by simpa [Function.update_of_ne hneq] using hx'.lastUse⟩
        · cases hid
          have hnow : now = s.now := by simpa [readClock] using hclock
          subst hnow
          refine ⟨⟨s.now, by simp [newSession], by simp [newSession, absoluteMs]⟩, ?_, fun _ => ?_⟩
          · simp [newSession]
          · simp [newSession]
    · refine ⟨h.past, fun x hx hlive => ?_⟩
      rcases hrows x hx hlive with hold | ⟨l, id', token, now, userId, rfl, rfl⟩
      · have hx' := h.rows x hold hlive
        exact ⟨hx'.begun, hx'.lastActive, hx'.lastUse⟩
      · cases hid
        exact absurd (by rw [Option.isSome_iff_exists]
                         exact ⟨_, Table.find_eq_some.mpr ⟨hx, rfl⟩⟩) hfound

lemma Life.Inv.use (h : s.Inv env) {x : Session} (hx : x ∈ s.db.sessions.rows) :
    (s.use x).Inv env := by
  refine ⟨fun id => ?_, fun y hy hlive => ?_⟩
  · by_cases hid : id = x.id
    · subst hid
      simp [Life.use]
    · simpa [Life.use, Function.update_of_ne hid] using h.past id
  · have hy' := h.rows y hy hlive
    by_cases hid : y.id = x.id
    · obtain rfl : y = x := Table.eq_of_key hy hx hid
      refine ⟨hy'.begun, ?_, fun hbehind => ?_⟩
      · simpa [Life.use] using Nat.le_trans hy'.lastActive (h.past y.id).2
      · simp only [Life.use] at hbehind ⊢
        split_ifs at hbehind with hold
        · simp at hbehind
        · simp only [Function.update_self]
          omega
    · refine ⟨hy'.begun, by simpa [Life.use, Function.update_of_ne hid] using hy'.lastActive, ?_⟩
      simp only [Life.use, Function.update_of_ne hid]
      split_ifs
      · simpa [Function.update_of_ne hid] using hy'.lastUse
      · exact hy'.lastUse

lemma Life.Inv.step (h : s.Inv env) {a : LifeAction} (hstep : lifeStep sql env s a = some s') :
    s'.Inv env := by
  cases a with
  | tick d =>
    cases hstep
    refine ⟨fun id => ⟨?_, ?_⟩, fun x hx hlive =>
      ⟨(h.rows x hx hlive).begun, (h.rows x hx hlive).lastActive, (h.rows x hx hlive).lastUse⟩⟩
    · exact Nat.le_trans (h.past id).1 (Nat.le_add_right _ _)
    · exact Nat.le_trans (h.past id).2 (Nat.le_add_right _ _)
  | account a =>
    simp only [lifeStep] at hstep
    split_ifs at hstep with hguard
    obtain ⟨accounts, haccounts, rfl⟩ := Option.map_eq_some_iff.mp hstep
    exact h.account hguard.1 hguard.2.1 hguard.2.2 haccounts
  | request cookie =>
    simp only [lifeStep] at hstep
    split at hstep
    · next x hx =>
      cases hstep
      exact h.use (List.mem_of_find?_eq_some hx)
    · cases hstep
      exact h
  | writeUse id =>
    simp only [lifeStep] at hstep
    split_ifs at hstep
    cases hstep
    refine ⟨fun id' => ?_, fun x hx hlive => ?_⟩
    · by_cases hid : id' = id
      · subst hid
        simpa [Life.setSessions] using (h.past id').1
      · simpa [Life.setSessions, Function.update_of_ne hid] using h.past id'
    · obtain ⟨y, hy, hxy⟩ := mem_touchSession hx
      by_cases hid : y.id = id
      · subst hid
        rw [if_pos rfl] at hxy
        subst hxy
        have hy' := h.rows y hy hlive
        refine ⟨hy'.begun, by simp [Session.touch], fun _ => ?_⟩
        exact Nat.le_trans (h.past y.id).1 (Nat.le_add_right _ _)
      · rw [if_neg hid] at hxy
        subst hxy
        have hy' := h.rows y hy hlive
        exact ⟨hy'.begun, by simpa [Function.update_of_ne hid] using hy'.lastActive,
          by simpa [Life.setSessions, Function.update_of_ne hid] using hy'.lastUse⟩
  | loadSession k actorId actorRole id =>
    simp only [lifeStep] at hstep
    split at hstep
    · split_ifs at hstep <;> cases hstep
      · exact ⟨h.past, fun x hx hlive => ⟨(h.rows x hx hlive).begun, (h.rows x hx hlive).lastActive,
          (h.rows x hx hlive).lastUse⟩⟩
      · exact h
    · cases hstep
      exact h
  | saveSession k =>
    simp only [lifeStep] at hstep
    split at hstep
    · next x hx =>
      have hended : ({ s with ending := Function.update s.ending k none } : Life).Inv env :=
        ⟨h.past, fun y hy hlive => ⟨(h.rows y hy hlive).begun, (h.rows y hy hlive).lastActive,
          (h.rows y hy hlive).lastUse⟩⟩
      split_ifs at hstep <;> cases hstep
      · exact hended.subset fun y hy hlive => mem_put_revoked hy hlive
      · exact hended
    · cases hstep
  | purgeExpired =>
    cases hstep
    exact h.subset fun x hx _ => (Table.mem_deleteWhere.mp hx).1

end Life

/-- A sign-in, and a use of its session after more than a minute that is written down. -/
def signInAndUse : List LifeAction :=
  [.account (.select 1 "a@x"), .account (.verify 1 "p" 0), .account (.signIn 1 0),
    .account (.insert 1 7 "cookie" 0), .tick 60001, .request "cookie", .writeUse 7, .tick 5]

/-- The session began, and is now gone, revoked, past its absolute end by the second, or idle for too
long with no use still to be written. -/
structure Life.Over (env : AuthEnv) (s : Life) (id : ℕ) : Prop where
  begun : s.begun id ≠ none
  rows : ∀ x ∈ s.db.sessions.rows, x.id = id → x.revokedAt = none →
    x.expiresAt ≤ sqlNow s.now ∨ (x.lastSeenAt + idleMs env ≤ sqlNow s.now ∧ s.behind id = false)

section Over

variable {sql : SqlNumeric} {env : AuthEnv} {s s' : Life} {id : ℕ}

lemma Life.Over.id_ne_of_live (h : s.Over env id) {x : Session} (hx : x ∈ s.db.sessions.rows)
    (hlive : isLive env s.db s.now x = true) : x.id ≠ id := by
  intro hid
  simp only [isLive, Bool.and_eq_true, decide_eq_true_eq] at hlive
  obtain ⟨⟨⟨hrevoked, hexpires⟩, hidle⟩, -⟩ := hlive
  rcases h.rows x hx hid hrevoked with hpast | ⟨hpast, -⟩
  · exact absurd hexpires (Nat.not_lt.mpr hpast)
  · exact absurd hidle (Nat.not_lt.mpr hpast)

lemma Life.Over.id_ne_of_resolve (h : s.Over env id) {cookie : String} {x : Session}
    (hx : resolveStaffSession env s.db s.now cookie = some x) : x.id ≠ id := by
  have hlive := List.find?_some hx
  rw [Bool.and_eq_true] at hlive
  exact h.id_ne_of_live (List.mem_of_find?_eq_some hx) hlive.2

lemma Life.Over.subset (h : s.Over env id) {sessions : Sessions}
    (hsub : ∀ x ∈ sessions.rows, x.revokedAt = none → x ∈ s.db.sessions.rows) :
    (s.setSessions sessions).Over env id :=
  ⟨h.begun, fun x hx hid hlive => h.rows x (hsub x hx hlive) hid hlive⟩

lemma Life.Over.account (h : s.Over env id) {a : SessionEnding.Action}
    {accounts : SessionEnding.State} (hwrite : writesUse a = false)
    (hnew : (insertedId a).all (fun id => s.begun id = none) = true)
    (hstep : SessionEnding.step sql env s.accounts a = some accounts) :
    (s.begin a accounts).Over env id := by
  have hne : ∀ id', insertedId a = some id' → id ≠ id' := by
    rintro id' hid rfl
    simp only [hid, Option.all_some, decide_eq_true_eq] at hnew
    exact h.begun hnew
  have hrows : ∀ x ∈ accounts.db.sessions.rows, x.id = id → x.revokedAt = none →
      x.expiresAt ≤ sqlNow s.now ∨
        (x.lastSeenAt + idleMs env ≤ sqlNow s.now ∧ s.behind id = false) := by
    intro x hx hid hlive
    rcases account_sessions hwrite hstep hx hlive with hx | ⟨l, id', token, now, userId, rfl, rfl⟩
    · exact h.rows x hx hid hlive
    · exact absurd hid.symm (hne id' rfl)
  simp only [Life.begin]
  split
  · next id' hid' =>
    split_ifs
    · refine ⟨?_, fun x hx hid hlive => ?_⟩
      · simpa [Function.update_of_ne (hne id' hid')] using h.begun
      · simpa [Function.update_of_ne (hne id' hid')] using hrows x hx hid hlive
    · exact ⟨h.begun, hrows⟩
  · exact ⟨h.begun, hrows⟩

lemma Life.Over.step (h : s.Over env id) {a : LifeAction} (hstep : lifeStep sql env s a = some s') :
    s'.Over env id := by
  cases a with
  | tick d =>
    cases hstep
    have hlater : sqlNow s.now ≤ sqlNow (s.now + d) := sqlNow_mono (Nat.le_add_right _ _)
    refine ⟨h.begun, fun x hx hid hlive => ?_⟩
    rcases h.rows x hx hid hlive with hpast | ⟨hpast, hbehind⟩
    · exact .inl (Nat.le_trans hpast hlater)
    · exact .inr ⟨Nat.le_trans hpast hlater, hbehind⟩
  | account a =>
    simp only [lifeStep] at hstep
    split_ifs at hstep with hguard
    obtain ⟨accounts, haccounts, rfl⟩ := Option.map_eq_some_iff.mp hstep
    exact h.account hguard.1 hguard.2.2 haccounts
  | request cookie =>
    simp only [lifeStep] at hstep
    split at hstep
    · next x hx =>
      cases hstep
      -- the accepted session is another one
      have hne : id ≠ x.id := fun hid => h.id_ne_of_resolve hx hid.symm
      refine ⟨h.begun, fun y hy hid hlive => ?_⟩
      have hold := h.rows y hy hid hlive
      simp only [Life.use]
      split_ifs
      · simpa [Function.update_of_ne hne] using hold
      · exact hold
    · cases hstep
      exact h
  | writeUse id' =>
    simp only [lifeStep] at hstep
    split_ifs at hstep with hbehind
    cases hstep
    refine ⟨h.begun, fun x hx hid hlive => ?_⟩
    obtain ⟨y, hy, hxy⟩ := mem_touchSession hx
    by_cases hwritten : y.id = id'
    · rw [if_pos hwritten] at hxy
      subst hxy
      obtain rfl : id' = id := hwritten.symm.trans hid
      rcases h.rows y hy hid hlive with hpast | ⟨-, hnot⟩
      · exact .inl hpast
      · rw [hnot] at hbehind
        cases hbehind
    · rw [if_neg hwritten] at hxy
      subst hxy
      have hne : id ≠ id' := hid ▸ hwritten
      simpa [Life.setSessions, Function.update_of_ne hne] using h.rows y hy hid hlive
  | loadSession k actorId actorRole id' =>
    simp only [lifeStep] at hstep
    split at hstep
    · split_ifs at hstep <;> cases hstep
      · exact ⟨h.begun, h.rows⟩
      · exact h
    · cases hstep
      exact h
  | saveSession k =>
    simp only [lifeStep] at hstep
    split at hstep
    · next x hx =>
      have hended : ({ s with ending := Function.update s.ending k none } : Life).Over env id :=
        ⟨h.begun, h.rows⟩
      split_ifs at hstep <;> cases hstep
      · exact hended.subset fun y hy hlive => mem_put_revoked hy hlive
      · exact hended
    · cases hstep
  | purgeExpired =>
    cases hstep
    exact h.subset fun x hx _ => (Table.mem_deleteWhere.mp hx).1

end Over

/-- The session that `signInAndUse` made is loaded to be ended, logged out and removed by the nightly
job. -/
def logoutAndPurge : List LifeAction :=
  [.loadSession 1 1 .editor 7, .account (.logout 7 60006), .purgeExpired]

end SafeerApi.Access
