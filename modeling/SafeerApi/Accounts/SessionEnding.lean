import SafeerApi.Lib.Reach
import SafeerApi.Accounts.Auth

/-!
# Sessions that end, and sign-ins under way

A sign-in is a `SELECT`, a password check, a guarded `UPDATE` and the `INSERT` of a session. A
password reset and a disable end the sessions that exist when they commit. A session created after
that commit by a sign-in whose password was checked before it is not among them.
-/

namespace SafeerApi.Accounts.SessionEnding

open Common Lib

/-- Where a sign-in is. A verified one carries how often its user's sessions had been ended when
the password was checked. -/
inductive Login where
  | selected (user : Option User)
  | failed (userId : ℕ)
  | verified (user : User) (ended : ℕ)
  | signedIn (user : User) (ended : ℕ)

/-- The tables and the sign-ins under way; `ended` counts, for each user, the committed resets and
disables, and `verifiedAt` is the count at which a session's password was checked. -/
structure State where
  db : Database
  logins : ℕ → Option Login
  ended : ℕ → ℕ
  verifiedAt : ℕ → ℕ

/-- Any tables; the sessions in them count as verified before the run. -/
def State.init (db : Database) : State := ⟨db, fun _ => none, fun _ => 0, fun _ => 0⟩

inductive Action where
  | select (l : ℕ) (email : String)
  | verify (l : ℕ) (password : String) (now : ℕ)
  | countFailure (l now : ℕ)
  | signIn (l now : ℕ)
  | insert (l id : ℕ) (token : String) (now : ℕ)
  | reset (rawToken passwordHash : String) (now : ℕ)
  | acceptInvite (rawToken passwordHash : String) (now : ℕ)
  | update (actorId targetId : String) (input : UpdateUserInput) (now : ℕ)
  | remove (actorId targetId : String)
  | changePassword (userId : ℕ) (passwordHash : String)
  | endOthers (userId keep now : ℕ)
  | logout (id now : ℕ)
  | touch (id now : ℕ)

def State.setLogin (s : State) (l : ℕ) (x : Option Login) : State :=
  { s with logins := Function.update s.logins l x }

/-- The sessions of a user have been ended once more. -/
def State.end (s : State) (userId : ℕ) : State :=
  { s with ended := Function.update s.ended userId (s.ended userId + 1) }

/-- One statement of a sign-in, or one transaction. A refused transaction changes nothing. -/
def step (sql : SqlNumeric) (env : AuthEnv) (s : State) : Action → Option State
  | .select l email =>
    match s.logins l with
    | none => some (s.setLogin l (some (.selected (findByEmail env s.db.users email))))
    | some _ => none
  | .verify l password now =>
    match s.logins l with
    | some (.selected (some u)) =>
      if canSignIn u now then
        if env.verify u.passwordHash password then
          some (s.setLogin l (some (.verified u (s.ended u.id))))
        else some (s.setLogin l (some (.failed u.id)))
      else some (s.setLogin l none)
    | some (.selected none) => some (s.setLogin l none)
    | _ => none
  | .countFailure l now =>
    match s.logins l with
    | some (.failed userId) =>
      some ({ s with db := { s.db with
        users := registerFailedAttempt s.db.users userId now } }.setLogin l none)
    | _ => none
  | .signIn l now =>
    match s.logins l with
    | some (.verified u k) =>
      match recordSignIn s.db.users u.id now with
      | (true, users) =>
        some ({ s with db := { s.db with users := users } }.setLogin l (some (.signedIn u k)))
      | (false, _) => some (s.setLogin l none)
    | _ => none
  | .insert l id token now =>
    match s.logins l with
    | some (.signedIn u k) =>
      if h : s.db.sessions.find id = none then
        -- the foreign key refuses a session of a user that is gone
        if (s.db.users.find u.id).isSome then
          some ({ s with
            db := { s.db with sessions := s.db.sessions.insert (newSession env id u.id now token) h }
            verifiedAt := Function.update s.verifiedAt id k }.setLogin l none)
        else some (s.setLogin l none)
      else none
    | _ => none
  | .reset rawToken passwordHash now =>
    match resetPassword env s.db rawToken passwordHash now with
    | .ok (user, db) => some ({ s with db := db }.end user.id)
    | .error _ => some s
  | .acceptInvite rawToken passwordHash now =>
    match acceptInvite env s.db rawToken passwordHash now with
    | .ok (_, db) => some { s with db := db }
    | .error _ => some s
  | .update actorId targetId input now =>
    match updateUser sql env.sameEmail s.db actorId targetId input now with
    | some (w, db) =>
      let s := { s with db := db }
      some (if w.disabling then s.end w.row.id else s)
    | none => some s
  | .remove actorId targetId =>
    match prepareRemove sql s.db.users actorId targetId with
    | .ok target => some { s with db := commitRemove s.db target.id }
    | .error _ => some s
  | .changePassword userId passwordHash =>
    some { s with db := { s.db with users := setPasswordHash s.db.users userId passwordHash } }
  | .endOthers userId keep now =>
    some { s with db := { s.db with sessions := endOtherSessions s.db.sessions userId keep now } }
  | .logout id now =>
    some { s with db := { s.db with sessions := Accounts.logout s.db.sessions id now } }
  | .touch id now =>
    some { s with db := { s.db with sessions := touchSession s.db.sessions id now } }

/-- A session is inserted with no reset or disable of its user between the password check and the
insertion. -/
def unended (s : State) : Action → Bool
  | .insert l _ _ _ =>
    match s.logins l with
    | some (.signedIn u k) => k = s.ended u.id
    | _ => true
  | _ => true

/-! ### The invariant -/

/-- Every session that is not revoked was verified after its user's sessions were last ended. -/
def State.Inv (s : State) : Prop :=
  ∀ x ∈ s.db.sessions.rows, x.revokedAt = none → s.verifiedAt x.id = s.ended x.userId

/-- The sessions of the second table that are not revoked are sessions of the first. -/
def OnlyRevokes (sessions sessions' : Sessions) : Prop :=
  ∀ x' ∈ sessions'.rows, x'.revokedAt = none →
    ∃ x ∈ sessions.rows, x.id = x'.id ∧ x.userId = x'.userId ∧ x.revokedAt = none

lemma OnlyRevokes.refl (sessions : Sessions) : OnlyRevokes sessions sessions :=
  fun x hx hlive => ⟨x, hx, rfl, rfl, hlive⟩

/-- A session changed in other columns, or revoked. -/
lemma onlyRevokes_updateWhere {sessions : Sessions} {p : Session → Bool} {f : Session → Session}
    (hf : ∀ x, (f x).id = x.id) (huser : ∀ x, (f x).userId = x.userId)
    (hrevoked : ∀ x, (f x).revokedAt = none → x.revokedAt = none) :
    OnlyRevokes sessions (sessions.updateWhere p f hf) := by
  intro x' hx' hlive
  obtain ⟨x, hx, heq⟩ := Table.mem_updateWhere.mp hx'
  refine ⟨x, hx, ?_⟩
  split at heq <;> subst heq
  · exact ⟨(hf x).symm, (huser x).symm, hrevoked x hlive⟩
  · exact ⟨rfl, rfl, hlive⟩

lemma onlyRevokes_revoke {sessions : Sessions} {p : Session → Bool} {now : ℕ} :
    OnlyRevokes sessions (sessions.updateWhere p (.revoke now) (Session.revoke_id now)) :=
  onlyRevokes_updateWhere (f := .revoke now) (Session.revoke_id now) (fun _ => rfl)
    fun _ h => absurd h (by simp [Session.revoke])

lemma onlyRevokes_deleteWhere {sessions : Sessions} {p : Session → Bool} :
    OnlyRevokes sessions (sessions.deleteWhere p) :=
  fun x hx hlive => ⟨x, (Table.mem_deleteWhere.mp hx).1, rfl, rfl, hlive⟩

/-- Ending a user's sessions leaves none of them. -/
lemma not_live_of_revokeSessionsOf {sessions : Sessions} {userId now : ℕ} {x : Session}
    (hx : x ∈ (revokeSessionsOf sessions userId now).rows) (hlive : x.revokedAt = none) :
    x.userId ≠ userId := by
  obtain ⟨x₀, -, hx₀⟩ := Table.mem_updateWhere.mp hx
  split at hx₀ <;> subst hx₀
  · cases hlive
  · next hp => exact fun huser => hp (by simp [huser, hlive])

lemma State.Inv.onlyRevokes {s : State} (h : s.Inv) {db : Database}
    (hsessions : OnlyRevokes s.db.sessions db.sessions) : ({ s with db := db } : State).Inv := by
  intro x' hx' hlive
  obtain ⟨x, hx, hid, huser, hlive⟩ := hsessions x' hx' hlive
  rw [← hid, ← huser]
  exact h x hx hlive

/-- A transaction that revokes the sessions of the user it ends them for. -/
lemma State.Inv.end {s : State} (h : s.Inv) {db : Database} {userId : ℕ}
    (hsessions : OnlyRevokes s.db.sessions db.sessions)
    (hnone : ∀ x ∈ db.sessions.rows, x.revokedAt = none → x.userId ≠ userId) :
    (({ s with db := db } : State).end userId).Inv := by
  intro x hx hlive
  have hne := hnone x hx hlive
  simpa [State.end, hne] using h.onlyRevokes hsessions x hx hlive

lemma State.Inv.insert {s : State} (h : s.Inv) {x : Session} (hnew : s.db.sessions.find x.id = none)
    {k : ℕ} (hk : k = s.ended x.userId) :
    ({ s with
      db := { s.db with sessions := s.db.sessions.insert x hnew }
      verifiedAt := Function.update s.verifiedAt x.id k } : State).Inv := by
  intro y hy hlive
  rcases (Table.mem_insert (h := hnew)).mp hy with hy | rfl
  · have hne : y.id ≠ x.id := Table.find_eq_none.mp hnew y hy
    simpa [hne] using h y hy hlive
  · simpa using hk

lemma inv_step {sql : SqlNumeric} {env : AuthEnv} {s s' : State} {a : Action} (h : s.Inv)
    (hok : unended s a = true) (hs : step sql env s a = some s') : s'.Inv := by
  cases a with
  | select l email =>
    simp only [step] at hs
    split at hs <;> cases hs
    exact h
  | verify l password now =>
    simp only [step] at hs
    split at hs
    · split_ifs at hs <;> cases hs <;> exact h
    · cases hs; exact h
    · cases hs
  | countFailure l now =>
    simp only [step] at hs
    split at hs <;> cases hs
    exact h
  | signIn l now =>
    simp only [step] at hs
    split at hs
    · split at hs <;> cases hs <;> exact h
    · cases hs
  | insert l id token now =>
    simp only [step] at hs
    split at hs
    · next u k hlogin =>
      simp only [unended, hlogin, decide_eq_true_eq] at hok
      split_ifs at hs with hnew huser <;> cases hs
      · exact h.insert (x := newSession env id u.id now token) hnew hok
      · exact h
    · cases hs
  | reset rawToken passwordHash now =>
    simp only [step] at hs
    split at hs
    · next user db hreset =>
      cases hs
      obtain ⟨u, tokens, -, -, hresult⟩ := consumeToken_ok hreset
      cases hresult
      exact h.end (onlyRevokes_revoke) fun _ => not_live_of_revokeSessionsOf
    · cases hs; exact h
  | acceptInvite rawToken passwordHash now =>
    simp only [step] at hs
    split at hs
    · next user db haccept =>
      cases hs
      obtain ⟨u, tokens, -, -, hresult⟩ := consumeToken_ok haccept
      cases hresult
      exact h
    · cases hs; exact h
  | update actorId targetId input now =>
    simp only [step] at hs
    split at hs
    · next w db hupdate =>
      obtain ⟨-, -, rfl⟩ := updateUser_eq_some.mp hupdate
      cases hs
      split
      · next hdisabling =>
        have hsessions : (writeUpdate s.db w now).sessions
            = revokeSessionsOf s.db.sessions w.row.id now := if_pos hdisabling
        apply h.end
        · rw [hsessions]
          exact onlyRevokes_revoke
        · rw [hsessions]
          exact fun _ => not_live_of_revokeSessionsOf
      · next hdisabling =>
        have hsessions : (writeUpdate s.db w now).sessions = s.db.sessions := if_neg hdisabling
        exact h.onlyRevokes (by rw [hsessions]; exact OnlyRevokes.refl _)
    · cases hs; exact h
  | remove actorId targetId =>
    simp only [step] at hs
    split at hs <;> cases hs
    · exact h.onlyRevokes onlyRevokes_deleteWhere
    · exact h
  | changePassword userId passwordHash => cases hs; exact h
  | endOthers userId keep now =>
    cases hs
    exact h.onlyRevokes onlyRevokes_revoke
  | logout id now =>
    cases hs
    exact h.onlyRevokes onlyRevokes_revoke
  | touch id now =>
    cases hs
    exact h.onlyRevokes
      (onlyRevokes_updateWhere (f := .touch now) (fun _ => rfl) (fun _ => rfl) fun _ h => h)

/-! ### What the guard accepts -/

/-- The guard looks at sessions that are not revoked. -/
lemma revokedAt_of_resolve {env : AuthEnv} {db : Database} {now : ℕ} {cookie : String} {x : Session}
    (h : resolveStaffSession env db now cookie = some x) :
    x ∈ db.sessions.rows ∧ x.revokedAt = none := by
  refine ⟨List.mem_of_find?_eq_some h, ?_⟩
  have hlive := List.find?_some h
  simp only [isLive, Bool.and_eq_true, decide_eq_true_eq] at hlive
  exact hlive.2.1.1.1

/-- In every run in which no session is inserted across a reset or a disable of its user, a session
the guard accepts comes from a password check made after the last of them. -/
theorem accepted_verified_after {sql : SqlNumeric} {env : AuthEnv} {db : Database} {s : State}
    (h : Reach (step sql env) (fun s a => unended s a = true) (State.init db) s) {now : ℕ}
    {cookie : String} {x : Session} (hx : resolveStaffSession env s.db now cookie = some x) :
    s.verifiedAt x.id = s.ended x.userId := by
  have hinv : s.Inv := h.invariant (P := State.Inv) (fun _ _ _ => rfl)
    fun _ _ _ hi hok hs => inv_step hi hok hs
  obtain ⟨hmem, hlive⟩ := revokedAt_of_resolve hx
  exact hinv x hmem hlive

/-! ### Two sign-ins -/

/-- An active account with the password `p` and an outstanding reset link. -/
def oneAccount : Database where
  users := ⟨[{ invitedUser 1 "a@x" "A" .editor with status := .active, passwordHash := "p" }],
    by decide⟩
  tokens := ⟨[⟨1, 1, .reset, "link", 1000, none⟩], by decide⟩

/-- Texts compare and digest as themselves. -/
def plainEnv : AuthEnv := ⟨fun a b => a = b, fun a b => a = b, id, 30, 8⟩

/-- A sign-in with the new password, after the reset. -/
def signInAfterReset : List Action :=
  [.reset "link" "q" 10, .select 1 "a@x", .verify 1 "q" 20, .signIn 1 30, .insert 1 7 "cookie" 40]

theorem accepted_verified_after_reset : ∃ s : State,
    (resolveStaffSession plainEnv s.db 50 "cookie").map Session.id = some 7 ∧
      s.verifiedAt 7 = s.ended 1 := by
  obtain ⟨s, hrun, hx⟩ := exists_of_run (guarded (step .decimal plainEnv) unended)
    (State.init oneAccount) signInAfterReset
    (P := fun s => (resolveStaffSession plainEnv s.db 50 "cookie").map
      (fun x => (x.id, x.userId)) = some (7, 1)) (by decide)
  obtain ⟨x, hx, hids⟩ := Option.map_eq_some_iff.mp hx
  obtain ⟨hid, huser⟩ := Prod.mk.inj hids
  have hafter := accepted_verified_after (Reach.of_guarded hrun) hx
  rw [hid, huser] at hafter
  exact ⟨s, by simp [hx, hid], hafter⟩

/-- A sign-in with the old password, whose session is inserted after the reset. -/
def signInAcrossReset : List Action :=
  [.select 1 "a@x", .verify 1 "p" 10, .signIn 1 20, .reset "link" "q" 30, .insert 1 7 "cookie" 40]

/-- A sign-in across a disable, and the account set active again. -/
def signInAcrossDisable : List Action :=
  [.select 1 "a@x", .verify 1 "p" 10, .signIn 1 20,
    .update "2" "1" { status := some .disabled } 30, .insert 1 7 "cookie" 40,
    .update "2" "1" { status := some .active } 50]

lemma exists_accepted {as : List Action}
    (h : ((run (step .decimal plainEnv) (State.init oneAccount) as).any fun s =>
      decide ((resolveStaffSession plainEnv s.db 60 "cookie").any fun x =>
        s.verifiedAt x.id < s.ended x.userId)) = true) :
    ∃ s x, run (step .decimal plainEnv) (State.init oneAccount) as = some s ∧
      resolveStaffSession plainEnv s.db 60 "cookie" = some x ∧
      s.verifiedAt x.id < s.ended x.userId := by
  obtain ⟨s, hrun, hx⟩ := exists_of_run (step .decimal plainEnv) (State.init oneAccount) as h
  obtain ⟨x, hx, hlt⟩ := (Option.any_eq_true _ _).mp hx
  exact ⟨s, x, hrun, hx, of_decide_eq_true hlt⟩

/-- The guard accepts a session whose password was checked before the reset, and one whose password
was checked before the disable. -/
theorem accepted_verified_before :
    (∃ s x, run (step .decimal plainEnv) (State.init oneAccount) signInAcrossReset = some s ∧
      resolveStaffSession plainEnv s.db 60 "cookie" = some x ∧
      s.verifiedAt x.id < s.ended x.userId) ∧
    ∃ s x, run (step .decimal plainEnv) (State.init oneAccount) signInAcrossDisable = some s ∧
      resolveStaffSession plainEnv s.db 60 "cookie" = some x ∧
      s.verifiedAt x.id < s.ended x.userId :=
  ⟨exists_accepted (by decide), exists_accepted (by decide)⟩

end SafeerApi.Accounts.SessionEnding
