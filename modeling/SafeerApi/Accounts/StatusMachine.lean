import SafeerApi.Lib.Reach
import SafeerApi.Accounts.Auth

/-!
# The status of an account over a run

An account is created `invited` with a hash nothing verifies against. Accepting the invitation sets
a password and makes it `active`; an administrator may disable an account and set it active again.
`update` refuses to set an invited account active, but an invited account that was disabled first is
no longer `invited`.
-/

namespace SafeerApi.Accounts.StatusMachine

open Common Lib

/-! ### Hashes -/

/-- `text.split('$')[n]`. -/
def segment : ℕ → List Char → List Char
  | 0, text => text.takeWhile (· ≠ '$')
  | n + 1, text => segment n ((text.dropWhile (· ≠ '$')).drop 1)

/-- The cost parameters of an encoded hash. -/
def parameters (encoded : String) : List Char := segment 3 encoded.toList

/-- Argon2id: `hash` takes a password and a salt, and writes the cost it was configured with into
the hash. A placeholder that does not parse is verified by no password. -/
structure Argon2 (env : AuthEnv) where
  hash : String → String → String
  memoryCost : ∀ password salt, "m=65536".toList <:+: parameters (hash password salt)
  unusable : ∀ password, env.verify unusablePasswordHash password = false

lemma Argon2.hash_ne {env : AuthEnv} (argon2 : Argon2 env) (password salt : String) :
    argon2.hash password salt ≠ unusablePasswordHash := by
  intro heq
  have hcost := argon2.memoryCost password salt
  rw [heq] at hcost
  have hsix : '6' ∈ parameters unusablePasswordHash := hcost.subset (by decide +kernel)
  exact absurd hsix (by decide +kernel)

/-! ### The operations -/

/-- The tables, and the accounts that have accepted an invitation. -/
structure State where
  db : Database
  accepted : List ℕ

/-- Any tables; the accounts in them that have a password count as accepted. -/
def State.init (db : Database) : State :=
  ⟨db, (db.users.rows.filter fun u => u.passwordHash ≠ unusablePasswordHash).map User.id⟩

inductive Action where
  | invite (id tokenId : ℕ) (email name : String) (role : UserRole) (rawToken : String) (now : ℕ)
  | acceptInvite (rawToken newPassword salt : String) (now : ℕ)
  | forgotPassword (tokenId : ℕ) (email rawToken : String) (now : ℕ)
  | resetPassword (rawToken newPassword salt : String) (now : ℕ)
  | changePassword (userId : ℕ) (currentPassword newPassword salt : String) (keep now : ℕ)
  | update (actorId targetId : String) (input : UpdateUserInput) (now : ℕ)

/-- `changePassword`, undisturbed. -/
def changePassword (env : AuthEnv) (argon2 : Argon2 env) (db : Database) (userId : ℕ)
    (currentPassword newPassword salt : String) (keep now : ℕ) : Database :=
  match db.users.find userId with
  | none => db
  | some user =>
    if env.verify user.passwordHash currentPassword then
      { db with
        users := setPasswordHash db.users userId (argon2.hash newPassword salt)
        sessions := endOtherSessions db.sessions userId keep now }
    else db

/-- One operation after another. A refused one changes nothing; a new account takes an unused id. -/
def step (sql : SqlNumeric) (env : AuthEnv) (argon2 : Argon2 env) (s : State) :
    Action → Option State
  | .invite id tokenId email name role rawToken now =>
    match findByEmail env s.db.users email with
    | some _ => some s
    | none =>
      if h : s.db.users.find (invitedUser id email name role).id = none then
        some { s with db := { s.db with
          users := s.db.users.insert (invitedUser id email name role) h
          tokens := saveToken s.db.tokens (inviteToken env tokenId id now rawToken) } }
      else none
  | .acceptInvite rawToken newPassword salt now =>
    match acceptInvite env s.db rawToken (argon2.hash newPassword salt) now with
    | .ok (user, db) => some ⟨db, user.id :: s.accepted⟩
    | .error _ => some s
  | .forgotPassword tokenId email rawToken now =>
    some { s with db := sendPasswordReset env s.db tokenId email rawToken now }
  | .resetPassword rawToken newPassword salt now =>
    match resetPassword env s.db rawToken (argon2.hash newPassword salt) now with
    | .ok (_, db) => some { s with db := db }
    | .error _ => some s
  | .changePassword userId currentPassword newPassword salt keep now =>
    some { s with
      db := changePassword env argon2 s.db userId currentPassword newPassword salt keep now }
  | .update actorId targetId input now =>
    match updateUser sql env.sameEmail s.db actorId targetId input now with
    | some (_, db) => some { s with db := db }
    | none => some s

/-- A disabled account is set active only if it has a password. -/
def reactivatesUsable (sql : SqlNumeric) (s : State) : Action → Bool
  | .update _ targetId input _ =>
    !(input.status = some .active && (findUser sql s.db.users targetId).any fun u =>
      u.status = .disabled && u.passwordHash = unusablePasswordHash)
  | _ => true

/-! ### The invariant -/

/-- An active account has a password, and one with a password has accepted. -/
structure Settled (accepted : List ℕ) (u : User) : Prop where
  active : u.status = .active → u.passwordHash ≠ unusablePasswordHash
  usable : u.passwordHash ≠ unusablePasswordHash → u.id ∈ accepted

def State.Inv (s : State) : Prop := ∀ u ∈ s.db.users.rows, Settled s.accepted u

lemma Settled.mono {accepted : List ℕ} {u : User} (h : Settled accepted u) (id : ℕ) :
    Settled (id :: accepted) u :=
  ⟨h.active, fun husable => List.mem_cons_of_mem _ (h.usable husable)⟩

lemma settled_replace {accepted : List ℕ} {users : Users} {row : User}
    (h : ∀ u ∈ users.rows, Settled accepted u) (hrow : Settled accepted row) :
    ∀ u ∈ (users.replace row).rows, Settled accepted u := by
  intro u hu
  rcases Table.mem_replace.mp hu with ⟨rfl, -⟩ | ⟨hu, -⟩
  · exact hrow
  · exact h u hu

/-- A new hash for an account that has accepted. -/
lemma settled_setPasswordHash {accepted : List ℕ} {users : Users} {id : ℕ} {passwordHash : String}
    (h : ∀ u ∈ users.rows, Settled accepted u) (hid : id ∈ accepted)
    (hne : passwordHash ≠ unusablePasswordHash) :
    ∀ u ∈ (setPasswordHash users id passwordHash).rows, Settled accepted u := by
  intro u hu
  obtain ⟨u₀, hu₀, heq⟩ := Table.mem_updateWhere.mp hu
  split at heq
  · next hp =>
    subst heq
    exact ⟨fun _ => hne, fun _ => by rw [of_decide_eq_true hp]; exact hid⟩
  · subst heq
    exact h u₀ hu₀

/-- An update makes an account active only from `disabled`, and only when asked to. -/
lemma status_of_prepareUpdate {sql : SqlNumeric} {users : Users} {actorId targetId : String}
    {input : UpdateUserInput} {w : UserWrite} {target : User}
    (hfind : findUser sql users targetId = some target)
    (h : prepareUpdate sql users actorId targetId input = .ok w) (hactive : w.row.status = .active) :
    target.status = .active ∨ (input.status = some .active ∧ target.status = .disabled) := by
  simp only [prepareUpdate, hfind] at h
  obtain ⟨t₁, h₁, h⟩ := bind_eq_ok h
  obtain ⟨t₂, h₂, h⟩ := bind_eq_ok h
  cases h
  have hstatus₁ : t₁.status = target.status := by rw [(updateRole_ok h₁).1]
  have hstatus₂ : t₂.status = .active := (applyUnlock_fields input.unlock t₂).2.2.1.symm.trans hactive
  simp only [updateStatus] at h₂
  split at h₂
  · cases h₂
    exact Or.inl (hstatus₁.symm.trans hstatus₂)
  · next status hinput =>
    split_ifs at h₂ with hlast hinvited
    cases h₂
    cases status with
    | disabled => cases hstatus₂
    | active =>
      cases htarget : target.status with
      | active => exact Or.inl rfl
      | disabled => exact Or.inr ⟨hinput, rfl⟩
      | invited => exact absurd ⟨rfl, hstatus₁.trans htarget⟩ hinvited

lemma settled_of_prepareUpdate {sql : SqlNumeric} {s : State} (h : s.Inv)
    {actorId targetId : String} {input : UpdateUserInput} {now : ℕ} {w : UserWrite}
    (hok : reactivatesUsable sql s (.update actorId targetId input now) = true)
    (hw : prepareUpdate sql s.db.users actorId targetId input = .ok w) :
    Settled s.accepted w.row := by
  obtain ⟨target, hallowed⟩ := prepareUpdate_allowed hw
  have htarget := h target (mem_of_findUser hallowed.found).1
  constructor
  · intro hactive hunusable
    rw [hallowed.passwordHash] at hunusable
    rcases status_of_prepareUpdate hallowed.found hw hactive with hst | ⟨hinput, hst⟩
    · exact htarget.active hst hunusable
    · simp [reactivatesUsable, hallowed.found, hinput, hst, hunusable] at hok
  · intro husable
    rw [hallowed.passwordHash] at husable
    rw [hallowed.id]
    exact htarget.usable husable

lemma inv_step {sql : SqlNumeric} {env : AuthEnv} {argon2 : Argon2 env} {s s' : State} {a : Action}
    (h : s.Inv) (hok : reactivatesUsable sql s a = true) (hs : step sql env argon2 s a = some s') :
    s'.Inv := by
  cases a with
  | invite id tokenId email name role rawToken now =>
    simp only [step] at hs
    split at hs
    · cases hs; exact h
    · split_ifs at hs with hnew
      cases hs
      intro u hu
      rcases (Table.mem_insert (h := hnew)).mp hu with hu | rfl
      · exact h u hu
      · exact ⟨fun hst => absurd hst UserStatus.noConfusion, fun husable => absurd rfl husable⟩
  | acceptInvite rawToken newPassword salt now =>
    simp only [step] at hs
    split at hs
    · next user db haccept =>
      cases hs
      obtain ⟨u, tokens, -, -, hresult⟩ := consumeToken_ok haccept
      cases hresult
      apply settled_replace
      · intro v hv
        exact (h v hv).mono u.id
      · exact ⟨fun _ => argon2.hash_ne _ _, fun _ => List.mem_cons_self⟩
    · cases hs; exact h
  | forgotPassword tokenId email rawToken now =>
    cases hs
    intro u hu
    rw [sendPasswordReset_users] at hu
    exact h u hu
  | resetPassword rawToken newPassword salt now =>
    simp only [step] at hs
    split at hs
    · next user db hreset =>
      cases hs
      obtain ⟨u, tokens, hfind, hstatus, hresult⟩ := consumeToken_ok hreset
      cases hresult
      have hu := h u (Table.find_eq_some.mp hfind).1
      have hactive : u.status = .active := List.mem_singleton.mp hstatus
      apply settled_replace h
      exact ⟨fun _ => argon2.hash_ne _ _, fun _ => hu.usable (hu.active hactive)⟩
    · cases hs; exact h
  | changePassword userId currentPassword newPassword salt keep now =>
    cases hs
    simp only [State.Inv, changePassword]
    split
    · exact h
    · next user hfind =>
      split_ifs with hverify
      · obtain ⟨huser, rfl⟩ := Table.find_eq_some.mp hfind
        apply settled_setPasswordHash h _ (argon2.hash_ne _ _)
        apply (h user huser).usable
        intro hunusable
        rw [hunusable, argon2.unusable] at hverify
        cases hverify
      · exact h
  | update actorId targetId input now =>
    simp only [step] at hs
    split at hs
    · next w db hupdate =>
      obtain ⟨hw, -, rfl⟩ := updateUser_eq_some.mp hupdate
      cases hs
      exact settled_replace h (settled_of_prepareUpdate h hok hw)
    · cases hs; exact h

/-- In every run in which no disabled account without a password is set active, an active account
has a password and has accepted its invitation. -/
theorem active_accepted {sql : SqlNumeric} {env : AuthEnv} {argon2 : Argon2 env} {db : Database}
    (hdb : ∀ u ∈ db.users.rows, u.status = .active → u.passwordHash ≠ unusablePasswordHash)
    {s : State}
    (h : Reach (step sql env argon2) (fun s a => reactivatesUsable sql s a = true)
      (State.init db) s) {u : User} (hu : u ∈ s.db.users.rows) (hactive : u.status = .active) :
    u.passwordHash ≠ unusablePasswordHash ∧ u.id ∈ s.accepted := by
  have hinit : (State.init db).Inv := fun u hu =>
    ⟨hdb u hu, fun husable =>
      List.mem_map.mpr ⟨u, List.mem_filter.mpr ⟨hu, decide_eq_true husable⟩, rfl⟩⟩
  have hinv : s.Inv := h.invariant hinit fun _ _ _ hi hok hs => inv_step hi hok hs
  exact ⟨(hinv u hu).active hactive, (hinv u hu).usable ((hinv u hu).active hactive)⟩

/-! ### Two invitations -/

/-- Texts compare and digest as themselves; a hash is its parameters and the password. -/
def plainHash (password : String) : String :=
  "$argon2id$v=19$" ++ "m=65536,t=3,p=4" ++ "$$" ++ password

def plainEnv : AuthEnv := ⟨fun a b => a = b, fun hash password => hash = plainHash password, id, 30, 8⟩

lemma segment_zero {first rest : List Char} (hfirst : '$' ∉ first) :
    segment 0 (first ++ '$' :: rest) = first := by
  have hfree : ∀ c ∈ first, decide (c ≠ '$') = true :=
    fun c hc => decide_eq_true (ne_of_mem_of_not_mem hc hfirst)
  rw [segment, List.takeWhile_append_of_pos hfree]
  simp

lemma segment_succ {n : ℕ} {first rest : List Char} (hfirst : '$' ∉ first) :
    segment (n + 1) (first ++ '$' :: rest) = segment n rest := by
  have hfree : ∀ c ∈ first, decide (c ≠ '$') = true :=
    fun c hc => decide_eq_true (ne_of_mem_of_not_mem hc hfirst)
  rw [segment, List.dropWhile_append_of_pos hfree]
  simp

lemma plainHash_parameters (password : String) :
    parameters (plainHash password) = "m=65536,t=3,p=4".toList := by
  have hcost : ("$argon2id$v=19$" ++ "m=65536,t=3,p=4" ++ "$$").toList =
      [] ++ '$' :: ("argon2id".toList ++ '$' :: ("v=19".toList ++ '$' ::
        ("m=65536,t=3,p=4".toList ++ ['$', '$']))) := by
    decide +kernel
  have htext : (plainHash password).toList = [] ++ '$' :: ("argon2id".toList ++ '$' ::
      ("v=19".toList ++ '$' :: ("m=65536,t=3,p=4".toList ++ '$' :: '$' :: password.toList))) :=
    calc (plainHash password).toList
      _ = ("$argon2id$v=19$" ++ "m=65536,t=3,p=4" ++ "$$").toList ++ password.toList :=
        String.toList_append
      _ = _ := by
        rw [hcost]
        simp only [List.nil_append, List.append_assoc, List.cons_append]
  rw [parameters, htext, segment_succ (by simp), segment_succ (by decide +kernel),
    segment_succ (by decide +kernel), segment_zero (by decide +kernel)]

def plainArgon2 : Argon2 plainEnv where
  hash password _ := plainHash password
  memoryCost password salt := by
    rw [plainHash_parameters]
    exact ⟨[], ",t=3,p=4".toList, by decide +kernel⟩
  unusable password := by
    show decide (unusablePasswordHash = plainHash password) = false
    apply decide_eq_false
    intro heq
    have hparameters := congrArg parameters heq
    rw [plainHash_parameters] at hparameters
    exact absurd hparameters (by decide +kernel)

def oneAdmin : Database where
  users := ⟨[{ invitedUser 1 "a@x" "A" .admin with
    status := .active, passwordHash := plainHash "p" }], by decide⟩

/-- An invitation that is accepted. -/
def inviteAndAccept : List Action :=
  [.invite 2 1 "b@x" "B" .editor "link" 0, .acceptInvite "link" "q" "" 10]

theorem active_accepted_invite : ∃ s : State, ∃ u ∈ s.db.users.rows,
    u.id = 2 ∧ u.status = .active ∧ u.passwordHash ≠ unusablePasswordHash ∧ u.id ∈ s.accepted := by
  obtain ⟨s, hrun, hu⟩ := exists_of_run
    (guarded (step .decimal plainEnv plainArgon2) (reactivatesUsable .decimal)) (State.init oneAdmin)
    inviteAndAccept (P := fun s => (s.db.users.rows.any fun u =>
      u.id = 2 && u.status = .active) = true) (by decide +kernel)
  obtain ⟨u, hu, hp⟩ := List.any_eq_true.mp hu
  obtain ⟨hid, hactive⟩ := (Bool.and_eq_true _ _).mp hp
  have hactive : u.status = .active := of_decide_eq_true hactive
  refine ⟨s, u, hu, of_decide_eq_true hid, hactive, ?_⟩
  exact active_accepted (by decide +kernel) (Reach.of_guarded hrun) hu hactive

/-- An invitation that is disabled and set active, never accepted. -/
def inviteAndEnable : List Action :=
  [.invite 2 1 "b@x" "B" .editor "link" 0, .update "1" "2" { status := some .disabled } 10,
    .update "1" "2" { status := some .active } 20]

theorem active_unaccepted : ∃ s : State,
    run (step .decimal plainEnv plainArgon2) (State.init oneAdmin) inviteAndEnable = some s ∧
      ∃ u ∈ s.db.users.rows, u.status = .active ∧ u.passwordHash = unusablePasswordHash ∧
        u.id ∉ s.accepted := by
  obtain ⟨s, hrun, hu⟩ := exists_of_run (step .decimal plainEnv plainArgon2) (State.init oneAdmin)
    inviteAndEnable (P := fun s => ∃ u ∈ s.db.users.rows, u.status = .active ∧
      u.passwordHash = unusablePasswordHash ∧ u.id ∉ s.accepted) (by decide +kernel)
  exact ⟨s, hrun, hu⟩

end SafeerApi.Accounts.StatusMachine
