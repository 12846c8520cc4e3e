import SafeerApi.Lib.Reach
import SafeerApi.Accounts.Auth

/-!
# Some administrator can always sign in

Any number of `update` and `remove` transactions interleave with invitations, accepted invitations,
password changes and sign-ins. A transaction locks every row that is an admin's, and the target's,
before it reads; rows it has locked change through it alone. Since a usable admin exists whenever a
transaction locks, no two of them are past their locks at the same time.
-/

namespace SafeerApi.Accounts.AdminCover

open Common Lib

/-! ### Transactions -/

/-- What an `update` or `remove` request asks for. -/
inductive Change where
  | update (input : UpdateUserInput)
  | remove

/-- What a transaction has decided to write. -/
inductive Write where
  | update (w : UserWrite)
  | remove (target : User)

/-- Where a transaction is: before its locks, past them, or past its checks. -/
inductive Stage where
  | waiting
  | locked
  | decided (write : Write)

structure Tx where
  actorId : String
  targetId : String
  change : Change
  stage : Stage := .waiting

/-- The tables, the transactions in flight, and which of them holds which row of `users`. -/
structure State where
  db : Database
  txs : ℕ → Option Tx
  locks : ℕ → Option ℕ

/-- Any tables, and nothing in flight. -/
def State.init (db : Database) : State := ⟨db, fun _ => none, fun _ => none⟩

inductive Action where
  | start (t : ℕ) (actorId targetId : String) (change : Change)
  | lock (t : ℕ)
  | decide (t : ℕ)
  | commit (t now : ℕ)
  | abort (t : ℕ)
  | invite (id : ℕ) (email name : String) (role : UserRole)
  | acceptInvite (rawToken passwordHash : String) (now : ℕ)
  | resetPassword (rawToken passwordHash : String) (now : ℕ)
  | changePassword (id : ℕ) (passwordHash : String)
  | signIn (id now : ℕ)
  | failSignIn (id now : ℕ)

/-- `WHERE role = 'admin' OR id = ?`: the rows both transactions lock. -/
def lockSet (sql : SqlNumeric) (users : Users) (targetId : String) : List ℕ :=
  (users.rows.filter fun u => u.role = .admin || sql.rowId targetId = some u.id).map User.id

/-- The checks of a transaction, on the tables as committed. -/
def prepare (sql : SqlNumeric) (users : Users) (tx : Tx) : Except Problem Write :=
  match tx.change with
  | .update input => (prepareUpdate sql users tx.actorId tx.targetId input).map .update
  | .remove => (prepareRemove sql users tx.actorId tx.targetId).map .remove

def Write.commit (env : AuthEnv) (db : Database) (now : ℕ) : Write → Option Database
  | .update w => commitUpdate env.sameEmail db w now
  | .remove target => some (commitRemove db target.id)

/-- What a write makes of the users. -/
def Write.users (users : Users) : Write → Users
  | .update w => users.replace w.row
  | .remove target => users.delete target.id

lemma Write.users_of_commit {env : AuthEnv} {db db' : Database} {now : ℕ} {w : Write}
    (h : w.commit env db now = some db') : db'.users = w.users db.users := by
  cases w with
  | update w => rw [(commitUpdate_eq_some.mp h).2]; rfl
  | remove target => cases h; rfl

/-- The transaction is over; its locks are released. -/
def State.finish (s : State) (t : ℕ) : State :=
  { s with
    txs := Function.update s.txs t none
    locks := fun id => if s.locks id = some t then none else s.locks id }

def State.setTx (s : State) (t : ℕ) (tx : Tx) : State :=
  { s with txs := Function.update s.txs t (some tx) }

/-- A single-row statement waits for the row. -/
def State.writeUsers (s : State) (id : ℕ) (users : Users) : Option State :=
  if s.locks id = none then some { s with db := { s.db with users := users } } else none

/-- The transaction of an account link waits for the row of the link's user. -/
def State.spend (s : State) (env : AuthEnv) (rawToken : String)
    (result : Except Problem (User × Database)) : Option State :=
  match result with
  | .error _ => some s
  | .ok (_, db) =>
    if (linkUsers s.db (env.hashToken rawToken)).all fun id => s.locks id = none then
      some { s with db := db }
    else none

def step (sql : SqlNumeric) (env : AuthEnv) (s : State) : Action → Option State
  | .start t actorId targetId change =>
    match s.txs t with
    | none => some (s.setTx t ⟨actorId, targetId, change, .waiting⟩)
    | some _ => none
  | .lock t =>
    match s.txs t with
    | some ⟨actorId, targetId, change, .waiting⟩ =>
      let rows := lockSet sql s.db.users targetId
      if rows.all fun id => s.locks id = none then
        some { s.setTx t ⟨actorId, targetId, change, .locked⟩ with
          locks := fun id => if id ∈ rows then some t else s.locks id }
      else none
    | _ => none
  | .decide t =>
    match s.txs t with
    | some ⟨actorId, targetId, change, .locked⟩ =>
      match prepare sql s.db.users ⟨actorId, targetId, change, .locked⟩ with
      | .error _ => some (s.finish t)
      | .ok write => some (s.setTx t ⟨actorId, targetId, change, .decided write⟩)
    | _ => none
  | .commit t now =>
    match s.txs t with
    -- a transaction whose row the database refuses ends in `abort`
    | some ⟨_, _, _, .decided write⟩ =>
      (write.commit env s.db now).map fun db => { s with db := db }.finish t
    | _ => none
  | .abort t => some (s.finish t)
  | .invite id email name role =>
    if h : s.db.users.find id = none then
      some { s with db := { s.db with users := s.db.users.insert (invitedUser id email name role) h } }
    else none
  | .acceptInvite rawToken passwordHash now =>
    s.spend env rawToken (acceptInvite env s.db rawToken passwordHash now)
  | .resetPassword rawToken passwordHash now =>
    s.spend env rawToken (resetPassword env s.db rawToken passwordHash now)
  | .changePassword id passwordHash => s.writeUsers id (setPasswordHash s.db.users id passwordHash)
  | .signIn id now => s.writeUsers id (recordSignIn s.db.users id now).2
  | .failSignIn id now => s.writeUsers id (registerFailedAttempt s.db.users id now)

/-! ### Tables that only gain administrators -/

/-- Every row is still there, and a usable admin is still one. -/
def Grows (users users' : Users) : Prop :=
  ∀ u ∈ users.rows, ∃ u' ∈ users'.rows, u'.id = u.id ∧
    (u.isUsableAdmin = true → u'.isUsableAdmin = true)

lemma Grows.hasUsableAdmin {users users' : Users} (h : Grows users users')
    (hu : HasUsableAdmin users) : HasUsableAdmin users' := by
  obtain ⟨u, hu, husable⟩ := hu
  obtain ⟨u', hu', -, husable'⟩ := h u hu
  exact ⟨u', hu', husable' husable⟩

/-- A decided write still leaves a usable admin when it is committed to a grown table. -/
lemma Grows.write {users users' : Users} (h : Grows users users') (w : Write)
    (hw : HasUsableAdmin (w.users users)) : HasUsableAdmin (w.users users') := by
  obtain ⟨v, hv, husable⟩ := hw
  cases w with
  | update w =>
    rcases Table.mem_replace.mp hv with ⟨rfl, u, hu, hid⟩ | ⟨hv, hne⟩
    · obtain ⟨u', hu', hid', -⟩ := h u hu
      exact ⟨w.row, Table.mem_replace.mpr (Or.inl ⟨rfl, u', hu', hid'.trans hid⟩), husable⟩
    · obtain ⟨v', hv', hid, husable'⟩ := h v hv
      exact ⟨v', Table.mem_replace.mpr (Or.inr ⟨hv', hid ▸ hne⟩), husable' husable⟩
  | remove target =>
    obtain ⟨hv, hne⟩ := Table.mem_delete.mp hv
    obtain ⟨v', hv', hid, husable'⟩ := h v hv
    exact ⟨v', Table.mem_delete.mpr ⟨hv', hid ▸ hne⟩, husable' husable⟩

lemma grows_updateWhere {users : Users} {p : User → Bool} {f : User → User}
    (hf : ∀ u, (f u).id = u.id) (hstanding : ∀ u, SameStanding u (f u)) :
    Grows users (users.updateWhere p f hf) := by
  intro u hu
  refine ⟨if p u then f u else u, Table.mem_updateWhere.mpr ⟨u, hu, rfl⟩, ?_⟩
  split
  · obtain ⟨hid, hrole, hstatus⟩ := hstanding u
    exact ⟨hid, by simp [User.isUsableAdmin, hrole, hstatus]⟩
  · exact ⟨rfl, id⟩

lemma grows_replace {users : Users} {u u' : User} (hu : u ∈ users.rows) (hid : u'.id = u.id)
    (husable : u.isUsableAdmin = true → u'.isUsableAdmin = true) :
    Grows users (users.replace u') := by
  intro v hv
  by_cases h : v.id = u.id
  · obtain rfl := Table.eq_of_key hv hu h
    exact ⟨u', Table.mem_replace.mpr (Or.inl ⟨rfl, v, hv, hid.symm⟩), hid, husable⟩
  · exact ⟨v, Table.mem_replace.mpr (Or.inr ⟨hv, hid ▸ h⟩), rfl, id⟩

lemma grows_insert {users : Users} {u : User} {h : users.find u.id = none} :
    Grows users (users.insert u h) :=
  fun v hv => ⟨v, Table.mem_insert.mpr (Or.inl hv), rfl, fun h => h⟩

lemma grows_acceptInvite {env : AuthEnv} {db : Database} {result : User × Database}
    {rawToken passwordHash : String} {now : ℕ}
    (h : acceptInvite env db rawToken passwordHash now = .ok result) :
    Grows db.users result.2.users := by
  obtain ⟨user, tokens, huser, hstatus, rfl⟩ := consumeToken_ok h
  refine grows_replace (Table.find_eq_some.mp huser).1 rfl ?_
  -- an invited account is no usable admin yet
  simp [User.isUsableAdmin, List.mem_singleton.mp hstatus]

lemma grows_resetPassword {env : AuthEnv} {db : Database} {result : User × Database}
    {rawToken passwordHash : String} {now : ℕ}
    (h : resetPassword env db rawToken passwordHash now = .ok result) :
    Grows db.users result.2.users := by
  obtain ⟨user, tokens, huser, -, rfl⟩ := consumeToken_ok h
  exact grows_replace (Table.find_eq_some.mp huser).1 rfl fun h => h

/-! ### What a transaction decides -/

/-- A write that passed its checks leaves a usable admin in the table it was checked against. -/
lemma prepare_hasUsableAdmin {sql : SqlNumeric} {users : Users} {tx : Tx} {w : Write}
    (h : prepare sql users tx = .ok w) (hu : HasUsableAdmin users) :
    HasUsableAdmin (w.users users) := by
  -- the target is another row than the usable admin that remains
  have hkeep : ∀ {target : User}, target ∈ users.rows → sql.rowId tx.targetId = some target.id →
      (target.isUsableAdmin = false ∨ usableAdminsBesides sql users tx.targetId ≠ 0) →
      ∃ v ∈ users.rows, v.isUsableAdmin = true ∧ v.id ≠ target.id := by
    rintro target htarget hid (hnot | hcover)
    · obtain ⟨v, hv, husable⟩ := hu
      refine ⟨v, hv, husable, fun heq => ?_⟩
      rw [Table.eq_of_key hv htarget heq, hnot] at husable
      cases husable
    · exact exists_usableAdmin hid hcover
  obtain ⟨actorId, targetId, change, stage⟩ := tx
  cases change with
  | update input =>
    cases hprep : prepareUpdate sql users actorId targetId input with
    | error p => simp [prepare, hprep, Except.map] at h
    | ok uw =>
      simp only [prepare, hprep, Except.map, Except.ok.injEq] at h
      subst h
      obtain ⟨target, hallowed⟩ := prepareUpdate_allowed hprep
      obtain ⟨htarget, hid⟩ := mem_of_findUser hallowed.found
      have hrow : uw.row ∈ (users.replace uw.row).rows :=
        Table.mem_replace.mpr (Or.inl ⟨rfl, target, htarget, hallowed.id.symm⟩)
      by_cases husable : uw.row.isUsableAdmin = true
      · exact ⟨uw.row, hrow, husable⟩
      · have hcase : target.isUsableAdmin = false ∨ usableAdminsBesides sql users targetId ≠ 0 := by
          cases htu : target.isUsableAdmin with
          | false => exact Or.inl rfl
          | true => exact Or.inr ((hallowed.cover htu).resolve_left husable)
        obtain ⟨v, hv, hvu, hne⟩ := hkeep htarget hid hcase
        exact ⟨v, Table.mem_replace.mpr (Or.inr ⟨hv, by rwa [hallowed.id]⟩), hvu⟩
  | remove =>
    cases hprep : prepareRemove sql users actorId targetId with
    | error p => simp [prepare, hprep, Except.map] at h
    | ok target =>
      simp only [prepare, hprep, Except.map, Except.ok.injEq] at h
      subst h
      obtain ⟨hfound, -, hcover⟩ := prepareRemove_allowed hprep
      obtain ⟨htarget, hid⟩ := mem_of_findUser hfound
      have hcase : target.isUsableAdmin = false ∨ usableAdminsBesides sql users targetId ≠ 0 := by
        cases htu : target.isUsableAdmin with
        | false => exact Or.inl rfl
        | true => exact Or.inr (hcover htu)
      obtain ⟨v, hv, hvu, hne⟩ := hkeep htarget hid hcase
      exact ⟨v, Table.mem_delete.mpr ⟨hv, hne⟩, hvu⟩

/-! ### The invariant -/

/-- Transaction `t` is past its locks. -/
def State.Locked (s : State) (t : ℕ) : Prop := ∃ tx, s.txs t = some tx ∧ tx.stage ≠ .waiting

structure State.Inv (s : State) : Prop where
  usable : HasUsableAdmin s.db.users
  holds : ∀ t, s.Locked t → ∃ u ∈ s.db.users.rows, u.isUsableAdmin = true ∧ s.locks u.id = some t
  alone : ∀ t t', s.Locked t → s.Locked t' → t = t'
  decided : ∀ t tx w, s.txs t = some tx → tx.stage = .decided w →
    HasUsableAdmin (w.users s.db.users)

lemma inv_init {db : Database} (h : HasUsableAdmin db.users) : (State.init db).Inv where
  usable := h
  holds t ht := by
    obtain ⟨tx, htx, -⟩ := ht
    cases htx
  alone t _ ht := by
    obtain ⟨tx, htx, -⟩ := ht
    cases htx
  decided t tx w htx := by cases htx

/-- Statements that only let the table grow keep the invariant. -/
lemma State.Inv.grow {s : State} (h : s.Inv) {db : Database} (hgrows : Grows s.db.users db.users) :
    ({ s with db := db } : State).Inv where
  usable := hgrows.hasUsableAdmin h.usable
  holds t ht := by
    obtain ⟨u, hu, husable, hlock⟩ := h.holds t ht
    obtain ⟨u', hu', hid, husable'⟩ := hgrows u hu
    exact ⟨u', hu', husable' husable, by rw [← hlock]; exact congrArg s.locks hid⟩
  alone := h.alone
  decided t tx w htx hw := hgrows.write w (h.decided t tx w htx hw)

/-- Ending a transaction frees its rows and no others. -/
lemma State.Inv.finish {s : State} (h : s.Inv) (t : ℕ) : (s.finish t).Inv := by
  have hother : ∀ {t' tx}, (s.finish t).txs t' = some tx → t' ≠ t ∧ s.txs t' = some tx :=
    update_none_eq_some
  have hlocked : ∀ {t'}, (s.finish t).Locked t' → t' ≠ t ∧ s.Locked t' := by
    rintro t' ⟨tx, htx, hstage⟩
    exact ⟨(hother htx).1, tx, (hother htx).2, hstage⟩
  refine ⟨h.usable, fun t' ht' => ?_,
    fun t₁ t₂ h₁ h₂ => h.alone t₁ t₂ (hlocked h₁).2 (hlocked h₂).2,
    fun t' tx w htx hw => h.decided t' tx w (hother htx).2 hw⟩
  obtain ⟨hne, hlock⟩ := hlocked ht'
  obtain ⟨u, hu, husable, hheld⟩ := h.holds t' hlock
  refine ⟨u, hu, husable, ?_⟩
  simp only [State.finish, hheld, Option.some.injEq, if_neg hne]

/-- A transaction that is not past its locks holds no one up. -/
lemma State.Inv.start {s : State} (h : s.Inv) {t : ℕ} {tx : Tx} (hstage : tx.stage = .waiting) :
    (s.setTx t tx).Inv := by
  have hother : ∀ {t' tx'}, (s.setTx t tx).txs t' = some tx' → tx'.stage ≠ .waiting →
      s.txs t' = some tx' := by
    intro t' tx' htx hne
    rcases update_eq_some htx with ⟨-, rfl⟩ | ⟨-, htx⟩
    · exact absurd hstage hne
    · exact htx
  have hlocked : ∀ {t'}, (s.setTx t tx).Locked t' → s.Locked t' := by
    rintro t' ⟨tx', htx, hne⟩
    exact ⟨tx', hother htx hne, hne⟩
  refine ⟨h.usable, fun t' ht' => h.holds t' (hlocked ht'),
    fun t₁ t₂ h₁ h₂ => h.alone t₁ t₂ (hlocked h₁) (hlocked h₂), fun t' tx' w htx hw => ?_⟩
  exact h.decided t' tx' w (hother htx (by rw [hw]; exact Stage.noConfusion)) hw

/-- Every transaction locks the usable admins. -/
lemma mem_lockSet {users : Users} {u : User} (hu : u ∈ users.rows)
    (husable : u.isUsableAdmin = true) (sql : SqlNumeric) (targetId : String) :
    u.id ∈ lockSet sql users targetId := by
  simp only [User.isUsableAdmin, Bool.and_eq_true, decide_eq_true_eq] at husable
  exact List.mem_map.mpr ⟨u, List.mem_filter.mpr ⟨hu, by simp [husable.1]⟩, rfl⟩

/-- While a transaction is past its locks no other gets past its own: it would have to lock the
usable admin that the first one holds. -/
lemma State.Inv.not_locked {s : State} (h : s.Inv) {sql : SqlNumeric} {targetId : String}
    (hfree : ∀ id ∈ lockSet sql s.db.users targetId, s.locks id = none) (t : ℕ) : ¬s.Locked t := by
  intro ht
  obtain ⟨u, hu, husable, hlock⟩ := h.holds t ht
  rw [hfree u.id (mem_lockSet hu husable sql targetId)] at hlock
  cases hlock

lemma State.Inv.lock {s : State} (h : s.Inv) {sql : SqlNumeric} {t : ℕ} {actorId targetId : String}
    {change : Change}
    (hfree : ∀ id ∈ lockSet sql s.db.users targetId, s.locks id = none) :
    ({ s.setTx t ⟨actorId, targetId, change, .locked⟩ with
      locks := fun id => if id ∈ lockSet sql s.db.users targetId then some t else s.locks id } :
      State).Inv := by
  have honly : ∀ {t' tx'}, Function.update s.txs t
      (some ⟨actorId, targetId, change, .locked⟩) t' = some tx' → tx'.stage ≠ .waiting →
      t' = t ∧ tx'.stage = .locked := by
    intro t' tx' htx hne
    rcases update_eq_some htx with ⟨rfl, rfl⟩ | ⟨-, htx⟩
    · exact ⟨rfl, rfl⟩
    · exact absurd ⟨tx', htx, hne⟩ (h.not_locked hfree t')
  refine ⟨h.usable, ?_, ?_, ?_⟩
  · rintro t' ⟨tx', htx, hne⟩
    obtain ⟨rfl, -⟩ := honly htx hne
    obtain ⟨u, hu, husable⟩ := h.usable
    exact ⟨u, hu, husable, if_pos (mem_lockSet hu husable sql targetId)⟩
  · rintro t₁ t₂ ⟨tx₁, htx₁, h₁⟩ ⟨tx₂, htx₂, h₂⟩
    rw [(honly htx₁ h₁).1, (honly htx₂ h₂).1]
  · intro t' tx' w htx hw
    have hstage := (honly htx (by rw [hw]; exact Stage.noConfusion)).2
    rw [hstage] at hw
    cases hw

/-- A decision that passed its checks is recorded. -/
lemma State.Inv.decide {s : State} (h : s.Inv) {sql : SqlNumeric} {t : ℕ} {tx tx' : Tx} {w : Write}
    (ht : s.txs t = some tx) (hstage : tx.stage = .locked)
    (hprepare : prepare sql s.db.users tx = .ok w) (hstage' : tx'.stage = .decided w) :
    (s.setTx t tx').Inv := by
  have hlocked : ∀ {t'}, (s.setTx t tx').Locked t' → s.Locked t' := by
    rintro t' ⟨tx₁, htx₁, hne⟩
    rcases update_eq_some htx₁ with ⟨rfl, -⟩ | ⟨-, htx₁⟩
    · exact ⟨tx, ht, by rw [hstage]; exact Stage.noConfusion⟩
    · exact ⟨tx₁, htx₁, hne⟩
  refine ⟨h.usable, fun t' ht' => h.holds t' (hlocked ht'),
    fun t₁ t₂ h₁ h₂ => h.alone t₁ t₂ (hlocked h₁) (hlocked h₂), fun t' tx₁ w' htx₁ hw' => ?_⟩
  rcases update_eq_some htx₁ with ⟨-, rfl⟩ | ⟨-, htx₁⟩
  · rw [hstage'] at hw'
    cases hw'
    exact prepare_hasUsableAdmin hprepare h.usable
  · exact h.decided t' tx₁ w' htx₁ hw'

/-- The write of the only transaction past its locks keeps an admin. -/
lemma State.Inv.commit {s : State} (h : s.Inv) {t : ℕ} {tx : Tx} {w : Write} {db : Database}
    (ht : s.txs t = some tx) (hstage : tx.stage = .decided w)
    (husers : db.users = w.users s.db.users) :
    (({ s with db := db } : State).finish t).Inv := by
  have hself : s.Locked t := ⟨tx, ht, by rw [hstage]; exact Stage.noConfusion⟩
  have hnone : ∀ t', ¬(({ s with db := db } : State).finish t).Locked t' := by
    rintro t' ⟨tx', htx', hne⟩
    obtain ⟨hother, htx'⟩ := update_none_eq_some htx'
    have ht' : s.Locked t' := ⟨tx', htx', hne⟩
    exact hother (h.alone t' t ht' hself)
  refine ⟨?_, fun t' ht' => absurd ht' (hnone t'), fun t₁ _ h₁ => absurd h₁ (hnone t₁), ?_⟩
  · have hw := h.decided t tx w ht hstage
    rwa [← husers] at hw
  · intro t' tx' w' htx' hw'
    exact absurd ⟨tx', htx', by rw [hw']; exact Stage.noConfusion⟩ (hnone t')

lemma State.Inv.writeUsers {s s' : State} (h : s.Inv) {id : ℕ} {users : Users}
    (hgrows : Grows s.db.users users) (hs : s.writeUsers id users = some s') : s'.Inv := by
  simp only [State.writeUsers] at hs
  split_ifs at hs
  cases hs
  exact h.grow hgrows

lemma State.Inv.spend {s s' : State} (h : s.Inv) {env : AuthEnv} {rawToken : String}
    {result : Except Problem (User × Database)}
    (hgrows : ∀ r, result = .ok r → Grows s.db.users r.2.users)
    (hs : s.spend env rawToken result = some s') : s'.Inv := by
  simp only [State.spend] at hs
  split at hs
  · cases hs; exact h
  · split_ifs at hs
    cases hs
    exact h.grow (hgrows _ rfl)

/-! ### Runs -/

lemma inv_step {sql : SqlNumeric} {env : AuthEnv} {s s' : State} {a : Action} (h : s.Inv)
    (hs : step sql env s a = some s') : s'.Inv := by
  cases a with
  | start t actorId targetId change =>
    simp only [step] at hs
    split at hs
    · cases hs; exact h.start rfl
    · cases hs
  | lock t =>
    simp only [step] at hs
    split at hs
    · split_ifs at hs with hfree
      cases hs
      exact h.lock (by simpa using hfree)
    · cases hs
  | decide t =>
    simp only [step] at hs
    split at hs
    · next ht =>
      split at hs
      · cases hs; exact h.finish t
      · next hprepare => cases hs; exact h.decide ht rfl hprepare rfl
    · cases hs
  | commit t now =>
    simp only [step] at hs
    split at hs
    · next ht =>
      obtain ⟨db, hdb, rfl⟩ := Option.map_eq_some_iff.mp hs
      exact h.commit ht rfl (Write.users_of_commit hdb)
    · cases hs
  | abort t => cases hs; exact h.finish t
  | invite id email name role =>
    simp only [step] at hs
    split_ifs at hs with hnew
    cases hs
    exact h.grow (grows_insert (h := hnew))
  | acceptInvite rawToken passwordHash now => exact h.spend (fun _ => grows_acceptInvite) hs
  | resetPassword rawToken passwordHash now => exact h.spend (fun _ => grows_resetPassword) hs
  | changePassword id passwordHash =>
    have hgrows : Grows s.db.users (setPasswordHash s.db.users id passwordHash) :=
      grows_updateWhere _ fun _ => ⟨rfl, rfl, rfl⟩
    exact h.writeUsers hgrows hs
  | signIn id now =>
    have hgrows : Grows s.db.users (recordSignIn s.db.users id now).2 :=
      grows_updateWhere (f := countSignIn now) (fun _ => rfl) (countSignIn_standing now)
    exact h.writeUsers hgrows hs
  | failSignIn id now =>
    have hgrows : Grows s.db.users (registerFailedAttempt s.db.users id now) :=
      grows_updateWhere _ (countFailure_standing now)
    exact h.writeUsers hgrows hs

/-- From any table with a usable admin, every committed state has one. -/
theorem hasUsableAdmin_reach {sql : SqlNumeric} {env : AuthEnv} {db : Database} {s : State}
    (h₀ : HasUsableAdmin db.users) (h : Reach (step sql env) always (State.init db) s) :
    HasUsableAdmin s.db.users :=
  (h.invariant (P := State.Inv) (inv_init h₀) fun _ _ _ hi _ hs => inv_step hi hs).usable

/-- Two administrators, each asked to demote the other. -/
def twoAdmins : Database where
  users := ⟨[{ invitedUser 1 "a@x" "A" .admin with status := .active },
    { invitedUser 2 "b@x" "B" .admin with status := .active }], by decide⟩

/-- The second demotion waits for the first, and is then refused. -/
def mutualDemotion : List Action :=
  [.start 1 "1" "2" (.update { role := some .editor }),
    .start 2 "2" "1" (.update { role := some .editor }),
    .lock 1, .decide 1, .commit 1 0, .lock 2, .decide 2]

theorem hasUsableAdmin_reach_demotion : ∃ s : State,
    (∃ u ∈ s.db.users.rows, u.id = 2 ∧ u.role = .editor) ∧ HasUsableAdmin s.db.users := by
  have hadmin : HasUsableAdmin twoAdmins.users := by
    simp only [HasUsableAdmin]
    decide
  let env : AuthEnv := ⟨fun a b => a = b, fun a b => a = b, id, 30, 8⟩
  obtain ⟨s, hrun, hdemoted⟩ := exists_of_run (step .decimal env) (State.init twoAdmins)
    mutualDemotion (P := fun s => ∃ u ∈ s.db.users.rows, u.id = 2 ∧ u.role = .editor) (by decide)
  exact ⟨s, hdemoted, hasUsableAdmin_reach hadmin (Reach.of_run hrun)⟩

end SafeerApi.Accounts.AdminCover
