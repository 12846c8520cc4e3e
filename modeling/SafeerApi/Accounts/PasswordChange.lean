import SafeerApi.Lib.Reach
import SafeerApi.Accounts.Auth

/-!
# Changing a password

`changePassword` loads the account, verifies the current password against the hash it loaded, hashes
the new password and updates the row. The `UPDATE` is by id alone, so it replaces whatever hash the
row has by then.
-/

namespace SafeerApi.Accounts.PasswordChange

open Common Lib

inductive Stage where
  | loaded
  | verified
  | hashed (passwordHash : String)
  | written

/-- A `changePassword` under way: the row it loaded, and how many hashes had been written to the
account by then. -/
structure Call where
  user : User
  currentPassword : String
  currentSession : ℕ
  writes : ℕ
  stage : Stage

/-- A hash that a `changePassword` replaced, and the one its current password was checked against. -/
structure Overwrite where
  currentPassword : String
  verified : String
  overwritten : String

/-- The tables and the calls under way; `writes` counts the hashes written to each account. -/
structure State where
  db : Database
  calls : ℕ → Option Call
  writes : ℕ → ℕ
  log : List Overwrite

def State.init (db : Database) : State := ⟨db, fun _ => none, fun _ => 0, []⟩

inductive Action where
  | load (c userId : ℕ) (currentPassword : String) (currentSession : ℕ)
  | verify (c : ℕ)
  | hash (c : ℕ) (passwordHash : String)
  | write (c : ℕ)
  | endOthers (c now : ℕ)
  | forgotPassword (tokenId : ℕ) (email rawToken : String) (now : ℕ)
  | resetPassword (rawToken passwordHash : String) (now : ℕ)
  | acceptInvite (rawToken passwordHash : String) (now : ℕ)

def State.setCall (s : State) (c : ℕ) (x : Option Call) : State :=
  { s with calls := Function.update s.calls c x }

/-- The tables after a transaction that wrote the hash of an account. -/
def State.rewrite (s : State) (db : Database) (userId : ℕ) : State :=
  { s with db := db, writes := Function.update s.writes userId (s.writes userId + 1) }

/-- The `UPDATE` of a call, with the hash it replaces. -/
def State.replaceHash (s : State) (call : Call) (passwordHash : String) : State :=
  let s' := s.rewrite
    { s.db with users := setPasswordHash s.db.users call.user.id passwordHash } call.user.id
  match s.db.users.find call.user.id with
  | none => s'
  | some u =>
    { s' with log := ⟨call.currentPassword, call.user.passwordHash, u.passwordHash⟩ :: s.log }

/-- One statement of a call, or one transaction of a link. -/
def step (env : AuthEnv) (s : State) : Action → Option State
  | .load c userId currentPassword currentSession =>
    match s.calls c, s.db.users.find userId with
    | none, some u =>
      some (s.setCall c (some ⟨u, currentPassword, currentSession, s.writes u.id, .loaded⟩))
    | none, none => some s
    | some _, _ => none
  | .verify c =>
    match s.calls c with
    | some ⟨u, password, session, k, .loaded⟩ =>
      if env.verify u.passwordHash password then
        some (s.setCall c (some ⟨u, password, session, k, .verified⟩))
      else some (s.setCall c none)
    | _ => none
  | .hash c passwordHash =>
    match s.calls c with
    | some ⟨u, password, session, k, .verified⟩ =>
      some (s.setCall c (some ⟨u, password, session, k, .hashed passwordHash⟩))
    | _ => none
  | .write c =>
    match s.calls c with
    | some ⟨u, password, session, k, .hashed passwordHash⟩ =>
      some ((s.replaceHash ⟨u, password, session, k, .hashed passwordHash⟩ passwordHash).setCall c
        (some ⟨u, password, session, k, .written⟩))
    | _ => none
  | .endOthers c now =>
    match s.calls c with
    | some ⟨u, _, session, _, .written⟩ =>
      some ({ s with db := { s.db with
        sessions := endOtherSessions s.db.sessions u.id session now } }.setCall c none)
    | _ => none
  | .forgotPassword tokenId email rawToken now =>
    some { s with db := sendPasswordReset env s.db tokenId email rawToken now }
  | .resetPassword rawToken passwordHash now =>
    match resetPassword env s.db rawToken passwordHash now with
    | .ok (user, db) => some (s.rewrite db user.id)
    | .error _ => some s
  | .acceptInvite rawToken passwordHash now =>
    match acceptInvite env s.db rawToken passwordHash now with
    | .ok (user, db) => some (s.rewrite db user.id)
    | .error _ => some s

/-- A call writes with no hash of its account written since it loaded the row. -/
def undisturbed (s : State) : Action → Bool
  | .write c =>
    match s.calls c with
    | some call => call.writes = s.writes call.user.id
    | none => true
  | _ => true

/-! ### The invariant -/

/-- Until a hash is written to its account, the row a call loaded has the account's hash. -/
structure Call.Current (s : State) (call : Call) : Prop where
  le : call.writes ≤ s.writes call.user.id
  hash : call.writes = s.writes call.user.id →
    ∀ u, s.db.users.find call.user.id = some u → u.passwordHash = call.user.passwordHash

/-- A call past its check has checked its current password. -/
def Call.Checked (env : AuthEnv) (call : Call) : Prop :=
  call.stage ≠ .loaded → env.verify call.user.passwordHash call.currentPassword = true

/-- The hash a call replaced is the one it checked. -/
def Overwrite.Own (env : AuthEnv) (e : Overwrite) : Prop :=
  e.overwritten = e.verified ∧ env.verify e.verified e.currentPassword = true

structure State.Inv (env : AuthEnv) (s : State) : Prop where
  calls : ∀ c call, s.calls c = some call → call.Current s ∧ call.Checked env
  log : ∀ e ∈ s.log, e.Own env

/-- A call is set to a stage, or ends. -/
lemma State.Inv.setCall {env : AuthEnv} {s : State} (h : s.Inv env) {c : ℕ} {x : Option Call}
    (hx : ∀ call, x = some call → call.Current s ∧ call.Checked env) : (s.setCall c x).Inv env := by
  constructor
  · intro c' call hcall
    simp only [State.setCall, Function.update_apply] at hcall
    split_ifs at hcall with hc
    · exact ⟨⟨(hx call hcall).1.le, (hx call hcall).1.hash⟩, (hx call hcall).2⟩
    · exact ⟨⟨(h.calls c' call hcall).1.le, (h.calls c' call hcall).1.hash⟩,
        (h.calls c' call hcall).2⟩
  · exact h.log

/-- A transaction that leaves the rows of users other than `userId` as they are. -/
lemma Call.Current.rewrite {s : State} {call : Call} (h : call.Current s) {db : Database}
    {userId : ℕ} (hfind : ∀ n, n ≠ userId → db.users.find n = s.db.users.find n) :
    call.Current (s.rewrite db userId) := by
  by_cases hid : call.user.id = userId
  · have hlt : call.writes < (s.rewrite db userId).writes call.user.id := by
      simp only [State.rewrite, hid, Function.update_self]
      exact Nat.lt_succ_of_le (hid ▸ h.le)
    exact ⟨Nat.le_of_lt hlt, fun heq => absurd heq (Nat.ne_of_lt hlt)⟩
  · have hwrites : (s.rewrite db userId).writes call.user.id = s.writes call.user.id := by
      simp [State.rewrite, hid]
    constructor
    · rw [hwrites]
      exact h.le
    · intro heq u hu
      rw [hwrites] at heq
      apply h.hash heq u
      rw [← hfind _ hid]
      exact hu

lemma State.Inv.rewrite {env : AuthEnv} {s : State} (h : s.Inv env) {db : Database} {userId : ℕ}
    (hfind : ∀ n, n ≠ userId → db.users.find n = s.db.users.find n) :
    (s.rewrite db userId).Inv env :=
  ⟨fun c call hcall => ⟨(h.calls c call hcall).1.rewrite hfind, (h.calls c call hcall).2⟩, h.log⟩

/-- A write to other tables. -/
lemma State.Inv.sameUsers {env : AuthEnv} {s : State} (h : s.Inv env) {db : Database}
    (husers : db.users = s.db.users) : ({ s with db := db } : State).Inv env := by
  constructor
  · intro c call hcall
    obtain ⟨hcurrent, hchecked⟩ := h.calls c call hcall
    refine ⟨⟨hcurrent.le, ?_⟩, hchecked⟩
    intro heq u hu
    apply hcurrent.hash heq u
    rw [← husers]
    exact hu
  · exact h.log

lemma find_setPasswordHash {users : Users} {id n : ℕ} {passwordHash : String} (hne : n ≠ id) :
    (setPasswordHash users id passwordHash).find n = users.find n := by
  rw [setPasswordHash, Table.find_updateWhere]
  cases hfind : users.find n with
  | none => rfl
  | some u =>
    have hid : u.id ≠ id := by rw [Table.key_of_find hfind]; exact hne
    simp [hid]

@[simp] lemma State.replaceHash_calls (s : State) (call : Call) (passwordHash : String) :
    (s.replaceHash call passwordHash).calls = s.calls := by
  simp only [replaceHash]
  split <;> rfl

/-- The write of a call that nothing overtook replaces the hash the call checked. -/
lemma State.Inv.replaceHash {env : AuthEnv} {s : State} (h : s.Inv env) {call : Call}
    (hcurrent : call.Current s) (hchecked : env.verify call.user.passwordHash call.currentPassword)
    (hwrites : call.writes = s.writes call.user.id) (passwordHash : String) :
    (s.replaceHash call passwordHash).Inv env := by
  have hfind : ∀ n, n ≠ call.user.id →
      (setPasswordHash s.db.users call.user.id passwordHash).find n = s.db.users.find n :=
    fun _ hne => find_setPasswordHash hne
  have hinv : (s.rewrite { s.db with
      users := setPasswordHash s.db.users call.user.id passwordHash } call.user.id).Inv env :=
    h.rewrite hfind
  simp only [State.replaceHash]
  split
  · exact hinv
  · next u hu =>
    constructor
    · intro c call' hcall
      obtain ⟨hcurrent', hchecked'⟩ := hinv.calls c call' hcall
      exact ⟨⟨hcurrent'.le, hcurrent'.hash⟩, hchecked'⟩
    · intro e he
      rcases List.mem_cons.mp he with rfl | he
      · exact ⟨hcurrent.hash hwrites u hu, hchecked⟩
      · exact h.log e he

/-- A spent link writes the row of its account only. -/
lemma find_of_consumeToken {env : AuthEnv} {db db' : Database} {user : User}
    {rawToken passwordHash : String} {now : ℕ}
    (h : resetPassword env db rawToken passwordHash now = .ok (user, db') ∨
      acceptInvite env db rawToken passwordHash now = .ok (user, db')) (n : ℕ) (hne : n ≠ user.id) :
    db'.users.find n = db.users.find n := by
  rcases h with h | h
  · obtain ⟨u, tokens, -, -, hresult⟩ := consumeToken_ok h
    cases hresult
    exact (Table.find_replace n).trans (if_neg hne)
  · obtain ⟨u, tokens, -, -, hresult⟩ := consumeToken_ok h
    cases hresult
    exact (Table.find_replace n).trans (if_neg hne)

lemma inv_step {env : AuthEnv} {s s' : State} {a : Action} (h : s.Inv env)
    (hok : undisturbed s a = true) (hs : step env s a = some s') : s'.Inv env := by
  cases a with
  | load c userId currentPassword currentSession =>
    simp only [step] at hs
    split at hs
    · next u hcall hfind =>
      cases hs
      apply h.setCall
      intro call hcall
      cases hcall
      refine ⟨⟨Nat.le_refl _, ?_⟩, fun hne => absurd rfl hne⟩
      intro _ u' hu'
      rw [Table.mem_iff_find.mp (Table.find_eq_some.mp hfind).1] at hu'
      rw [Option.some.inj hu']
    · cases hs; exact h
    · cases hs
  | verify c =>
    simp only [step] at hs
    split at hs
    · next u password session k hcall =>
      obtain ⟨hcurrent, -⟩ := h.calls c _ hcall
      split_ifs at hs with hverify <;> cases hs
      · apply h.setCall
        rintro _ ⟨⟩
        exact ⟨⟨hcurrent.le, hcurrent.hash⟩, fun _ => hverify⟩
      · exact h.setCall fun _ hx => by cases hx
    · cases hs
  | hash c passwordHash =>
    simp only [step] at hs
    split at hs
    · next u password session k hcall =>
      obtain ⟨hcurrent, hchecked⟩ := h.calls c _ hcall
      cases hs
      apply h.setCall
      rintro _ ⟨⟩
      exact ⟨⟨hcurrent.le, hcurrent.hash⟩, fun _ => hchecked (by simp)⟩
    · cases hs
  | write c =>
    simp only [step] at hs
    split at hs
    · next u password session k passwordHash hcall =>
      obtain ⟨hcurrent, hchecked⟩ := h.calls c _ hcall
      have hverify : env.verify u.passwordHash password = true := hchecked (by simp)
      simp only [undisturbed, hcall, decide_eq_true_eq] at hok
      cases hs
      have hinv := h.replaceHash hcurrent hverify hok passwordHash
      obtain ⟨hcurrent', -⟩ := hinv.calls c _ (by rw [State.replaceHash_calls, hcall])
      apply hinv.setCall
      rintro _ ⟨⟩
      exact ⟨⟨hcurrent'.le, hcurrent'.hash⟩, fun _ => hverify⟩
    · cases hs
  | endOthers c now =>
    simp only [step] at hs
    split at hs
    · next u _ session _ _ =>
      cases hs
      have hinv : ({ s with db := { s.db with
          sessions := endOtherSessions s.db.sessions u.id session now } } : State).Inv env :=
        h.sameUsers rfl
      exact hinv.setCall fun _ hx => by cases hx
    · cases hs
  | forgotPassword tokenId email rawToken now =>
    cases hs
    exact h.sameUsers (sendPasswordReset_users ..)
  | resetPassword rawToken passwordHash now =>
    simp only [step] at hs
    split at hs <;> cases hs
    · next hreset => exact h.rewrite (find_of_consumeToken (Or.inl hreset))
    · exact h
  | acceptInvite rawToken passwordHash now =>
    simp only [step] at hs
    split at hs <;> cases hs
    · next haccept => exact h.rewrite (find_of_consumeToken (Or.inr haccept))
    · exact h

/-- In every run in which no hash is written to an account between the load and the write of a call,
each hash a call replaces is the one its current password was checked against. -/
theorem overwritten_eq_verified {env : AuthEnv} {db : Database} {s : State}
    (h : Reach (step env) (fun s a => undisturbed s a = true) (State.init db) s) {e : Overwrite}
    (he : e ∈ s.log) :
    e.overwritten = e.verified ∧ env.verify e.verified e.currentPassword = true := by
  have hinit : (State.init db).Inv env := by
    constructor
    · intro c call hcall
      cases hcall
    · intro e he
      cases he
  have hinv : s.Inv env := h.invariant (P := State.Inv env) hinit
    fun _ _ _ hi hok hs => inv_step hi hok hs
  exact hinv.log e he

/-! ### Two changes -/

/-- An active account with the password `p`. -/
def oneAccount : Database where
  users := ⟨[{ invitedUser 1 "a@x" "C" .editor with status := .active, passwordHash := "p" }],
    by decide⟩

/-- Texts compare and digest as themselves. -/
def plainEnv : AuthEnv := ⟨fun a b => a = b, fun a b => a = b, id, 30, 8⟩

/-- A reset, and then a change of the password it set. -/
def changeAfterReset : List Action :=
  [.forgotPassword 1 "a@x" "link" 0, .resetPassword "link" "q" 10, .load 1 1 "q" 7, .verify 1,
    .hash 1 "r", .write 1, .endOthers 1 20]

theorem overwritten_after_reset : ∃ s : State, ∃ e ∈ s.log, e.overwritten = "q" ∧
    e.overwritten = e.verified ∧ plainEnv.verify e.verified e.currentPassword = true := by
  obtain ⟨s, hrun, he⟩ := exists_of_run (guarded (step plainEnv) undisturbed)
    (State.init oneAccount) changeAfterReset
    (P := fun s => (s.log.any fun e => e.overwritten = "q") = true) (by decide)
  obtain ⟨e, he, hq⟩ := List.any_eq_true.mp he
  exact ⟨s, e, he, of_decide_eq_true hq, overwritten_eq_verified (Reach.of_guarded hrun) he⟩

/-- A change checked against the password `p`, written over the one a reset has set meanwhile. -/
def changeAcrossReset : List Action :=
  [.forgotPassword 1 "a@x" "link" 0, .load 1 1 "p" 7, .verify 1, .resetPassword "link" "q" 10,
    .hash 1 "r", .write 1]

theorem reset_overwritten : ∃ s : State,
    run (step plainEnv) (State.init oneAccount) changeAcrossReset = some s ∧ ∃ e ∈ s.log,
      e.verified = "p" ∧ e.overwritten = "q" ∧
        plainEnv.verify e.overwritten e.currentPassword = false := by
  obtain ⟨s, hrun, he⟩ := exists_of_run (step plainEnv) (State.init oneAccount) changeAcrossReset
    (P := fun s => ∃ e ∈ s.log, e.verified = "p" ∧ e.overwritten = "q" ∧
      plainEnv.verify e.overwritten e.currentPassword = false) (by decide)
  exact ⟨s, hrun, he⟩

end SafeerApi.Accounts.PasswordChange
