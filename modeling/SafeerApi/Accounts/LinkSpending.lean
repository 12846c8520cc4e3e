import SafeerApi.Accounts.AdminCover

/-!
# Account links are spent once

Any number of `acceptInvite` and `resetPassword` requests interleave with `update` requests and with
the issue of links. A request that spends a link locks the link's row, then its user's, and deletes
the user's other open links when it commits; an update locks users and, when it disables the account
or changes its address, deletes the user's open links. A transaction that needs a row another one has
locked waits, and may be aborted.
-/

namespace SafeerApi.Accounts.LinkSpending

open Common Lib

/-! ### Requests -/

inductive SpendStage where
  | waiting
  | tokenLocked (authToken : AuthToken) (checkedAt : ℕ)
  | userLocked (authToken : AuthToken) (checkedAt : ℕ) (user : User)

inductive UpdateStage where
  | waiting
  | locked
  | decided (w : UserWrite)

/-- `acceptInvite` or `resetPassword` by its purpose, or `update`; or a request that has ended. -/
inductive Request where
  | spend (rawToken : String) (purpose : AuthTokenPurpose) (passwordHash : String)
      (stage : SpendStage)
  | update (actorId targetId : String) (input : UpdateUserInput) (stage : UpdateStage)
  | ended (succeeded : Bool)

/-- A link that was spent: its row, what `NOW()` read when that was checked, and the account's status
at the commit. -/
structure Spend where
  authToken : AuthToken
  purpose : AuthTokenPurpose
  checkedAt : ℕ
  status : Option UserStatus
  deriving DecidableEq

/-- The tables, the requests, which of them holds which row of `auth_tokens` and of `users`, and the
links about to be issued. `issued` is the account each link id was handed out for. -/
structure State where
  db : Database
  requests : ℕ → Option Request
  tokenLocks : ℕ → Option ℕ
  userLocks : ℕ → Option ℕ
  issuing : ℕ → Option (AuthTokenPurpose × ℕ)
  issued : ℕ → Option ℕ
  spent : List Spend

/-- Any tables, and nothing in flight. -/
def State.init (db : Database) : State where
  db := db
  requests := fun _ => none
  tokenLocks := fun _ => none
  userLocks := fun _ => none
  issuing := fun _ => none
  issued := fun id => (db.tokens.find id).map AuthToken.userId
  spent := []

inductive Action where
  | spend (t : ℕ) (rawToken : String) (purpose : AuthTokenPurpose) (passwordHash : String)
  | update (t : ℕ) (actorId targetId : String) (input : UpdateUserInput)
  | lockToken (t now : ℕ)
  | lockUser (t : ℕ)
  | lockRows (t : ℕ)
  | decide (t : ℕ)
  | commit (t now : ℕ)
  | abort (t : ℕ)
  | invite (i id : ℕ) (email name : String) (role : UserRole)
  | forgotPassword (i : ℕ) (email : String)
  | saveToken (i tokenId : ℕ) (rawToken : String) (now : ℕ)

/-- The status `acceptInvite` and `resetPassword` ask for. -/
def requiredStatus : AuthTokenPurpose → UserStatus
  | .invite => .invited
  | .reset => .active

/-- The account write of `acceptInvite` and of `resetPassword`. -/
def applyLink (purpose : AuthTokenPurpose) (passwordHash : String) (now : ℕ) :
    Database → User → User × Database :=
  match purpose with
  | .invite => activate passwordHash
  | .reset => replacePassword passwordHash now

/-- What `consumeToken` writes once its checks have passed. -/
def spendToken (db : Database) (authToken : AuthToken) (user : User) (purpose : AuthTokenPurpose)
    (passwordHash : String) (now : ℕ) : Database :=
  let tokens := db.tokens.replace { authToken with usedAt := some now }
  (applyLink purpose passwordHash now
    { db with tokens := deleteUnusedTokens tokens user.id } user).2

/-- The conditions of the locking `SELECT` on `auth_tokens`; `now` is what `NOW()` reads, in whole
seconds. -/
def isOpen (tokenHash : String) (purpose : AuthTokenPurpose) (now : ℕ) (t : AuthToken) : Bool :=
  t.tokenHash = tokenHash && t.purpose = purpose && t.usedAt = none && now < t.expiresAt

def newToken (env : AuthEnv) (purpose : AuthTokenPurpose) (id userId now : ℕ) (rawToken : String) :
    AuthToken :=
  match purpose with
  | .invite => inviteToken env id userId now rawToken
  | .reset => resetToken env id userId now rawToken

/-! ### Steps -/

def State.setRequest (s : State) (t : ℕ) (r : Request) : State :=
  { s with requests := Function.update s.requests t (some r) }

/-- The request is over; its locks are released. -/
def State.finish (s : State) (t : ℕ) (succeeded : Bool) : State :=
  { s.setRequest t (.ended succeeded) with
    tokenLocks := fun id => if s.tokenLocks id = some t then none else s.tokenLocks id
    userLocks := fun id => if s.userLocks id = some t then none else s.userLocks id }

/-- No other request holds the row. -/
def isFree (locks : ℕ → Option ℕ) (t id : ℕ) : Bool := locks id = none || locks id = some t

/-- The `DELETE` of a user's open links waits for those that are locked. -/
def State.openTokensFree (s : State) (t userId : ℕ) : Bool :=
  s.db.tokens.rows.all fun k => !(k.userId = userId && k.usedAt = none) || isFree s.tokenLocks t k.id

def step (sql : SqlNumeric) (env : AuthEnv) (s : State) : Action → Option State
  | .spend t rawToken purpose passwordHash =>
    match s.requests t with
    | none => some (s.setRequest t (.spend rawToken purpose passwordHash .waiting))
    | some _ => none
  | .update t actorId targetId input =>
    match s.requests t with
    | none => some (s.setRequest t (.update actorId targetId input .waiting))
    | some _ => none
  | .lockToken t now =>
    match s.requests t with
    | some (.spend rawToken purpose passwordHash .waiting) =>
      let tokenHash := env.hashToken rawToken
      if s.db.tokens.rows.all fun k => k.tokenHash ≠ tokenHash || isFree s.tokenLocks t k.id then
        match s.db.tokens.rows.find? (isOpen tokenHash purpose now) with
        | none => some (s.finish t false)
        | some k =>
          some { s.setRequest t (.spend rawToken purpose passwordHash (.tokenLocked k now)) with
            tokenLocks := Function.update s.tokenLocks k.id (some t) }
      else none
    | _ => none
  | .lockUser t =>
    match s.requests t with
    | some (.spend rawToken purpose passwordHash (.tokenLocked k checkedAt)) =>
      match s.db.users.find k.userId with
      | none => some (s.finish t false)
      | some user =>
        if isFree s.userLocks t user.id then
          if user.status = requiredStatus purpose then
            some { s.setRequest t
                (.spend rawToken purpose passwordHash (.userLocked k checkedAt user)) with
              userLocks := Function.update s.userLocks user.id (some t) }
          else some (s.finish t false)
        else none
    | _ => none
  | .lockRows t =>
    match s.requests t with
    | some (.update actorId targetId input .waiting) =>
      let rows := AdminCover.lockSet sql s.db.users targetId
      if rows.all fun id => isFree s.userLocks t id then
        some { s.setRequest t (.update actorId targetId input .locked) with
          userLocks := fun id => if id ∈ rows then some t else s.userLocks id }
      else none
    | _ => none
  | .decide t =>
    match s.requests t with
    | some (.update actorId targetId input .locked) =>
      match prepareUpdate sql s.db.users actorId targetId input with
      | .error _ => some (s.finish t false)
      | .ok w => some (s.setRequest t (.update actorId targetId input (.decided w)))
    | _ => none
  | .commit t now =>
    match s.requests t with
    | some (.spend _ purpose passwordHash (.userLocked k checkedAt user)) =>
      if s.openTokensFree t user.id then
        some ({ s with
          db := spendToken s.db k user purpose passwordHash now
          spent := ⟨k, purpose, checkedAt, (s.db.users.find k.userId).map User.status⟩ :: s.spent
          }.finish t true)
      else none
    | some (.update _ _ _ (.decided w)) =>
      if isFree s.userLocks t w.row.id &&
          (!(w.disabling || w.emailChanged) || s.openTokensFree t w.row.id) then
        -- a transaction whose row the database refuses ends in `abort`
        (commitUpdate env.sameEmail s.db w now).map fun db => { s with db := db }.finish t true
      else none
    | _ => none
  | .abort t =>
    match s.requests t with
    | some (.ended _) => none
    | none => none
    | some _ => some (s.finish t false)
  | .invite i id email name role =>
    match s.issuing i, findByEmail env s.db.users email with
    | none, none =>
      if h : s.db.users.find (invitedUser id email name role).id = none then
        some { s with
          db := { s.db with users := s.db.users.insert (invitedUser id email name role) h }
          issuing := Function.update s.issuing i (some (.invite, id)) }
      else none
    | none, some _ => some s
    | some _, _ => none
  | .forgotPassword i email =>
    match s.issuing i, findByEmail env s.db.users email with
    | none, some user =>
      if user.status = .active then
        some { s with issuing := Function.update s.issuing i (some (.reset, user.id)) }
      else some s
    | none, none => some s
    | some _, _ => none
  | .saveToken i tokenId rawToken now =>
    match s.issuing i with
    | some (purpose, userId) =>
      -- the foreign key makes the insert wait for the user's row
      if s.issued tokenId = none ∧ s.userLocks userId = none then
        let tokens := if (s.db.users.find userId).isSome then
          Accounts.saveToken s.db.tokens (newToken env purpose tokenId userId now rawToken)
          else s.db.tokens
        some { s with
          db := { s.db with tokens := tokens }
          issuing := Function.update s.issuing i none
          issued := Function.update s.issued tokenId (some userId) }
      else none
    | none => none

/-- The request an action is a step of. -/
def Action.request : Action → Option ℕ
  | .spend t _ _ _ | .update t _ _ _ | .lockToken t _ | .lockUser t | .lockRows t | .decide t
  | .commit t _ | .abort t => some t
  | _ => none

/-- The user whose links end with a step: a link is spent, the account disabled, or its address
changed. -/
def endsLinks (s : State) : Action → Option ℕ
  | .commit t _ =>
    match s.requests t with
    | some (.spend _ _ _ (.userLocked _ _ user)) => some user.id
    | some (.update _ _ _ (.decided w)) =>
      if w.disabling || w.emailChanged then some w.row.id else none
    | _ => none
  | _ => none

/-! ### What a request holds -/

structure State.HoldsToken (s : State) (t : ℕ) (purpose : AuthTokenPurpose) (k : AuthToken)
    (checkedAt : ℕ) : Prop where
  lock : s.tokenLocks k.id = some t
  row : k ∈ s.db.tokens.rows
  unused : k.usedAt = none
  purpose : k.purpose = purpose
  unexpired : checkedAt < k.expiresAt

structure State.HoldsUser (s : State) (t : ℕ) (purpose : AuthTokenPurpose) (k : AuthToken)
    (u : User) : Prop where
  lock : s.userLocks u.id = some t
  row : s.db.users.find u.id = some u
  owner : k.userId = u.id
  status : u.status = requiredStatus purpose

/-- What request `t` holds where it is. -/
def State.Holds (s : State) (t : ℕ) : Request → Prop
  | .spend _ purpose _ (.tokenLocked k checkedAt) => s.HoldsToken t purpose k checkedAt
  | .spend _ purpose _ (.userLocked k checkedAt u) =>
    s.HoldsToken t purpose k checkedAt ∧ s.HoldsUser t purpose k u
  | _ => True

/-- What a step of another request leaves to `t`: its locks, and the rows under them. -/
structure State.Keeps (s s' : State) (t : ℕ) : Prop where
  tokenLocks : ∀ id, s.tokenLocks id = some t → s'.tokenLocks id = some t
  userLocks : ∀ id, s.userLocks id = some t → s'.userLocks id = some t
  tokens : ∀ k ∈ s.db.tokens.rows, s.tokenLocks k.id = some t → k.usedAt = none →
    k ∈ s'.db.tokens.rows
  users : ∀ u, s.userLocks u.id = some t → s.db.users.find u.id = some u →
    s'.db.users.find u.id = some u

lemma State.HoldsToken.keep {s s' : State} {t checkedAt : ℕ} {purpose : AuthTokenPurpose}
    {k : AuthToken} (h : s.HoldsToken t purpose k checkedAt) (hkeeps : s.Keeps s' t) :
    s'.HoldsToken t purpose k checkedAt where
  lock := hkeeps.tokenLocks _ h.lock
  row := hkeeps.tokens k h.row h.lock h.unused
  unused := h.unused
  purpose := h.purpose
  unexpired := h.unexpired

lemma State.HoldsUser.keep {s s' : State} {t : ℕ} {purpose : AuthTokenPurpose} {k : AuthToken}
    {u : User} (h : s.HoldsUser t purpose k u) (hkeeps : s.Keeps s' t) :
    s'.HoldsUser t purpose k u where
  lock := hkeeps.userLocks _ h.lock
  row := hkeeps.users u h.lock h.row
  owner := h.owner
  status := h.status

lemma State.Holds.keep {s s' : State} {t : ℕ} {r : Request} (h : s.Holds t r)
    (hkeeps : s.Keeps s' t) : s'.Holds t r := by
  cases r with
  | spend rawToken purpose passwordHash stage =>
    cases stage with
    | waiting => trivial
    | tokenLocked k checkedAt => exact State.HoldsToken.keep h hkeeps
    | userLocked k checkedAt u => exact ⟨h.1.keep hkeeps, h.2.keep hkeeps⟩
  | update actorId targetId input stage => trivial
  | ended succeeded => trivial

/-- The steps that leave the tables as they are, and the locks of others. -/
lemma State.Keeps.of_locks {s s' : State} {t : ℕ} (hdb : s'.db = s.db)
    (htokens : ∀ id, s.tokenLocks id = some t → s'.tokenLocks id = some t)
    (husers : ∀ id, s.userLocks id = some t → s'.userLocks id = some t) : s.Keeps s' t where
  tokenLocks := htokens
  userLocks := husers
  tokens k hk _ _ := by rw [hdb]; exact hk
  users u _ hu := by rw [hdb]; exact hu

lemma keeps_setRequest (s : State) (t' t : ℕ) (r : Request) : s.Keeps (s.setRequest t' r) t :=
  State.Keeps.of_locks rfl (fun _ h => h) fun _ h => h

lemma finish_requests_self (s : State) (t : ℕ) (succeeded : Bool) :
    (s.finish t succeeded).requests t = some (.ended succeeded) :=
  Function.update_self ..

lemma finish_requests_of_ne {s : State} {t t' : ℕ} (hne : t' ≠ t) {succeeded : Bool} :
    (s.finish t succeeded).requests t' = s.requests t' :=
  Function.update_of_ne hne ..

lemma keeps_finish {s : State} {t t' : ℕ} (hne : t ≠ t') (succeeded : Bool) :
    s.Keeps (s.finish t' succeeded) t := by
  have hdb : (s.finish t' succeeded).db = s.db := rfl
  apply State.Keeps.of_locks hdb
  · intro id hid
    simp [State.finish, hid, hne]
  · intro id hid
    simp [State.finish, hid, hne]

/-! ### What a step does -/

/-- No open link with the id, and none to come. -/
structure State.Dead (s : State) (id : ℕ) : Prop where
  issued : (s.issued id).isSome
  used : ∀ k ∈ s.db.tokens.rows, k.id = id → k.usedAt ≠ none

def Request.isEnded : Request → Bool
  | .ended _ => true
  | _ => false

/-- The four kinds of step: of a request before its commit, the two commits, and the statements that
lead to a new link. -/
inductive Effect (s : State) : Action → State → Prop where
  | quiet {a : Action} {s' : State} (t : ℕ) (ha : a.request = some t) (hends : endsLinks s a = none)
      (hlive : ∀ r, s.requests t = some r → r.isEnded = false)
      (hdb : s'.db = s.db) (hspent : s'.spent = s.spent) (hissued : s'.issued = s.issued)
      (hother : ∀ t', t' ≠ t → s'.requests t' = s.requests t' ∧ s.Keeps s' t')
      (hself : ∃ r, s'.requests t = some r ∧ s'.Holds t r ∧ r ≠ .ended true) : Effect s a s'
  | spend {t now checkedAt : ℕ} {rawToken passwordHash : String} {purpose : AuthTokenPurpose}
      {k : AuthToken} {user : User}
      (hr : s.requests t = some (.spend rawToken purpose passwordHash (.userLocked k checkedAt user)))
      (hfree : s.openTokensFree t user.id = true) :
      Effect s (.commit t now) ({ s with
        db := spendToken s.db k user purpose passwordHash now
        spent := ⟨k, purpose, checkedAt, (s.db.users.find k.userId).map User.status⟩ :: s.spent
        }.finish t true)
  | update {t now : ℕ} {actorId targetId : String} {input : UpdateUserInput} {w : UserWrite}
      (hr : s.requests t = some (.update actorId targetId input (.decided w)))
      (hrow : isFree s.userLocks t w.row.id = true)
      (hfree : (w.disabling || w.emailChanged) = true → s.openTokensFree t w.row.id = true) :
      Effect s (.commit t now) ({ s with db := writeUpdate s.db w now }.finish t true)
  | issue {a : Action} {s' : State} (ha : a.request = none) (hrequests : s'.requests = s.requests)
      (hspent : s'.spent = s.spent) (hkeeps : ∀ t, s.Keeps s' t)
      (hrows : ∀ k ∈ s'.db.tokens.rows, k ∈ s.db.tokens.rows ∨
        (s.issued k.id = none ∧ s'.issued k.id = some k.userId))
      (hissued : ∀ id u, s.issued id = some u → s'.issued id = some u) : Effect s a s'

/-- A request that fails or goes on without a lock. -/
lemma effect_finish {s : State} {a : Action} {t : ℕ} (ha : a.request = some t)
    (hends : endsLinks s a = none) (hlive : ∀ r, s.requests t = some r → r.isEnded = false) :
    Effect s a (s.finish t false) := by
  refine Effect.quiet t ha hends hlive rfl rfl rfl ?_ ?_
  · intro t' hne
    exact ⟨finish_requests_of_ne hne, keeps_finish hne false⟩
  · exact ⟨.ended false, finish_requests_self .., trivial, by simp⟩

lemma effect_setRequest {s : State} {a : Action} {t : ℕ} {r : Request} (ha : a.request = some t)
    (hends : endsLinks s a = none) (hlive : ∀ r, s.requests t = some r → r.isEnded = false)
    (hholds : (s.setRequest t r).Holds t r) (hr : r ≠ .ended true) :
    Effect s a (s.setRequest t r) := by
  refine Effect.quiet t ha hends hlive rfl rfl rfl ?_ ?_
  · intro t' hne
    exact ⟨Function.update_of_ne hne _ _, keeps_setRequest s t t' r⟩
  · exact ⟨r, Function.update_self .., hholds, hr⟩

/-- A request that goes on with locks on rows no other request holds. -/
lemma effect_lock {s : State} {a : Action} {t : ℕ} {r : Request}
    (tokenLocks userLocks : ℕ → Option ℕ) (ha : a.request = some t) (hends : endsLinks s a = none)
    (hlive : ∀ r, s.requests t = some r → r.isEnded = false)
    (htokens : ∀ id, s.tokenLocks id ≠ tokenLocks id → isFree s.tokenLocks t id = true)
    (husers : ∀ id, s.userLocks id ≠ userLocks id → isFree s.userLocks t id = true)
    (hholds : ({ s.setRequest t r with tokenLocks := tokenLocks, userLocks := userLocks } :
      State).Holds t r) (hr : r ≠ .ended true) :
    Effect s a { s.setRequest t r with tokenLocks := tokenLocks, userLocks := userLocks } := by
  have hkept : ∀ {locks locks' : ℕ → Option ℕ}, (∀ id, locks id ≠ locks' id →
      isFree locks t id = true) → ∀ t', t' ≠ t → ∀ id, locks id = some t' → locks' id = some t' := by
    intro locks locks' hfree t' hne id hid
    by_contra hchanged
    have hchanged : locks id ≠ locks' id := by
      intro heq
      exact hchanged (heq.symm.trans hid)
    have hfree := hfree id hchanged
    simp [isFree, hid, hne] at hfree
  refine Effect.quiet t ha hends hlive rfl rfl rfl ?_ ?_
  · intro t' hne
    exact ⟨Function.update_of_ne hne _ _,
      State.Keeps.of_locks rfl (hkept htokens t' hne) (hkept husers t' hne)⟩
  · exact ⟨r, Function.update_self .., hholds, hr⟩

/-- A statement of no request, that leaves every row that is there. -/
lemma effect_issue {s s' : State} {a : Action} (ha : a.request = none)
    (hrequests : s'.requests = s.requests) (hspent : s'.spent = s.spent)
    (htokenLocks : s'.tokenLocks = s.tokenLocks) (huserLocks : s'.userLocks = s.userLocks)
    (husers : ∀ u, s.db.users.find u.id = some u → s'.db.users.find u.id = some u)
    (htokens : ∀ k ∈ s.db.tokens.rows, k ∈ s'.db.tokens.rows)
    (hrows : ∀ k ∈ s'.db.tokens.rows, k ∈ s.db.tokens.rows ∨
      (s.issued k.id = none ∧ s'.issued k.id = some k.userId))
    (hissued : ∀ id u, s.issued id = some u → s'.issued id = some u) : Effect s a s' := by
  refine .issue ha hrequests hspent ?_ hrows hissued
  intro t
  constructor
  · intro id hid
    rw [htokenLocks]
    exact hid
  · intro id hid
    rw [huserLocks]
    exact hid
  · intro k hk _ _
    exact htokens k hk
  · intro u _ hu
    exact husers u hu

lemma newToken_ids (env : AuthEnv) (purpose : AuthTokenPurpose) (id userId now : ℕ)
    (rawToken : String) : (newToken env purpose id userId now rawToken).id = id ∧
      (newToken env purpose id userId now rawToken).userId = userId := by
  cases purpose <;> exact ⟨rfl, rfl⟩

/-- A request for a link waits for every row with its text, and takes an open one. -/
lemma effect_lockToken {sql : SqlNumeric} {env : AuthEnv} {s s' : State} {t now : ℕ}
    (hs : step sql env s (.lockToken t now) = some s') : Effect s (.lockToken t now) s' := by
  simp only [step] at hs
  split at hs
  · next rawToken purpose passwordHash hr =>
    have hlive : ∀ r, s.requests t = some r → r.isEnded = false := by simp [hr, Request.isEnded]
    split_ifs at hs with hfree
    split at hs <;> cases hs
    · exact effect_finish rfl rfl hlive
    · next k hk =>
      have hmem := List.mem_of_find?_eq_some hk
      have hopen := List.find?_some hk
      simp only [isOpen, Bool.and_eq_true, decide_eq_true_eq] at hopen
      obtain ⟨⟨⟨htoken, hpurpose⟩, hunused⟩, hexpires⟩ := hopen
      have hkfree := List.all_eq_true.mp hfree k hmem
      simp only [htoken, ne_eq, not_true_eq_false, decide_false, Bool.false_or] at hkfree
      apply effect_lock _ s.userLocks rfl rfl hlive
      · intro id hid
        by_cases heq : id = k.id
        · rw [heq]
          exact hkfree
        · exact absurd (Function.update_of_ne heq _ _).symm hid
      · exact fun _ h => absurd rfl h
      · exact ⟨Function.update_self .., hmem, hunused, hpurpose, hexpires⟩
      · simp
  · cases hs

/-- With its link's row, a request waits for its user's. -/
lemma effect_lockUser {sql : SqlNumeric} {env : AuthEnv} {s s' : State} {t : ℕ}
    (hinv : ∀ t r, s.requests t = some r → s.Holds t r)
    (hs : step sql env s (.lockUser t) = some s') : Effect s (.lockUser t) s' := by
  simp only [step] at hs
  split at hs
  · next rawToken purpose passwordHash k checkedAt hr =>
    have hlive : ∀ r, s.requests t = some r → r.isEnded = false := by simp [hr, Request.isEnded]
    split at hs
    · cases hs
      exact effect_finish rfl rfl hlive
    · next user huser =>
      split_ifs at hs with hfree hstatus <;> cases hs
      · have hid := Table.key_of_find huser
        have htoken : s.HoldsToken t purpose k checkedAt := hinv t _ hr
        apply effect_lock s.tokenLocks _ rfl rfl hlive
        · exact fun _ h => absurd rfl h
        · intro id hchanged
          by_cases heq : id = user.id
          · rw [heq]
            exact hfree
          · exact absurd (Function.update_of_ne heq _ _).symm hchanged
        · refine ⟨⟨htoken.lock, htoken.row, htoken.unused, htoken.purpose, htoken.unexpired⟩, ?_⟩
          exact ⟨Function.update_self .., by rw [hid]; exact huser, hid.symm, hstatus⟩
        · simp
      · exact effect_finish rfl rfl hlive
  · cases hs

lemma effect_lockRows {sql : SqlNumeric} {env : AuthEnv} {s s' : State} {t : ℕ}
    (hs : step sql env s (.lockRows t) = some s') : Effect s (.lockRows t) s' := by
  simp only [step] at hs
  split at hs
  · next actorId targetId input hr =>
    split_ifs at hs with hfree
    cases hs
    apply effect_lock s.tokenLocks _ rfl rfl
    · simp [hr, Request.isEnded]
    · exact fun _ h => absurd rfl h
    · intro id hchanged
      by_cases hid : id ∈ AdminCover.lockSet sql s.db.users targetId
      · exact List.all_eq_true.mp hfree id hid
      · exact absurd (if_neg hid).symm hchanged
    · trivial
    · simp
  · cases hs

lemma effect_invite {sql : SqlNumeric} {env : AuthEnv} {s s' : State} {i id : ℕ}
    {email name : String} {role : UserRole}
    (hs : step sql env s (.invite i id email name role) = some s') :
    Effect s (.invite i id email name role) s' := by
  simp only [step] at hs
  split at hs
  · split_ifs at hs with hnew
    cases hs
    refine effect_issue rfl rfl rfl rfl rfl ?_ (fun _ h => h) (fun _ h => Or.inl h) fun _ _ h => h
    intro u hu
    refine (Table.find_insert (h := hnew) u.id).trans ?_
    rw [if_neg, hu]
    intro heq
    rw [heq, hnew] at hu
    cases hu
  · cases hs
    exact effect_issue rfl rfl rfl rfl rfl (fun _ h => h) (fun _ h => h) (fun _ h => Or.inl h)
      fun _ _ h => h
  · cases hs

/-- A new link has an id that was never given out. -/
lemma effect_saveToken {sql : SqlNumeric} {env : AuthEnv} {s s' : State} {i tokenId now : ℕ}
    {rawToken : String} (hs : step sql env s (.saveToken i tokenId rawToken now) = some s') :
    Effect s (.saveToken i tokenId rawToken now) s' := by
  simp only [step] at hs
  split at hs
  · next purpose userId hissuing =>
    have hids := newToken_ids env purpose tokenId userId now rawToken
    split_ifs at hs with hnew huser
    all_goals
      have hissued : ∀ id u, s.issued id = some u →
          Function.update s.issued tokenId (some userId) id = some u := by
        intro id u hu
        rw [Function.update_of_ne _, hu]
        rintro rfl
        rw [hnew.1] at hu
        cases hu
    · cases hs
      refine effect_issue rfl rfl rfl rfl rfl (fun _ h => h) ?_ ?_ hissued
      · exact fun _ hk => mem_saveToken_of_mem hk
      · intro k hk
        rcases mem_saveToken hk with hk | rfl
        · exact Or.inl hk
        · right
          rw [hids.1, hids.2]
          exact ⟨hnew.1, Function.update_self ..⟩
    · cases hs
      exact effect_issue rfl rfl rfl rfl rfl (fun _ h => h) (fun _ h => h) (fun _ h => Or.inl h)
        hissued
  · cases hs

lemma step_effect {sql : SqlNumeric} {env : AuthEnv} {s s' : State} {a : Action}
    (hinv : ∀ t r, s.requests t = some r → s.Holds t r)
    (hs : step sql env s a = some s') : Effect s a s' := by
  cases a with
  | spend t rawToken purpose passwordHash =>
    simp only [step] at hs
    split at hs <;> cases hs
    next hr =>
    exact effect_setRequest rfl rfl (by simp [hr]) trivial (by simp)
  | update t actorId targetId input =>
    simp only [step] at hs
    split at hs <;> cases hs
    next hr =>
    exact effect_setRequest rfl rfl (by simp [hr]) trivial (by simp)
  | lockToken t now => exact effect_lockToken hs
  | lockUser t => exact effect_lockUser hinv hs
  | lockRows t => exact effect_lockRows hs
  | decide t =>
    simp only [step] at hs
    split at hs
    · next actorId targetId input hr =>
      have hlive : ∀ r, s.requests t = some r → r.isEnded = false := by simp [hr, Request.isEnded]
      split at hs <;> cases hs
      · exact effect_finish rfl rfl hlive
      · exact effect_setRequest rfl rfl hlive trivial (by simp)
    · cases hs
  | commit t now =>
    simp only [step] at hs
    split at hs
    · next hr =>
      split_ifs at hs with hfree
      cases hs
      exact .spend hr hfree
    · next w hr =>
      split_ifs at hs with hfree
      obtain ⟨db, hdb, rfl⟩ := Option.map_eq_some_iff.mp hs
      obtain ⟨-, rfl⟩ := commitUpdate_eq_some.mp hdb
      simp only [Bool.and_eq_true, Bool.or_eq_true, Bool.not_eq_true'] at hfree
      apply Effect.update hr hfree.1
      intro hends
      exact hfree.2.resolve_left (by simp [hends])
    · cases hs
  | abort t =>
    simp only [step] at hs
    split at hs
    · cases hs
    · cases hs
    · next r hnot hr =>
      cases hs
      apply effect_finish rfl rfl
      intro r' hr'
      rw [hr] at hr'
      obtain rfl := Option.some.inj hr'
      cases r with
      | ended b => exact (hnot b rfl).elim
      | spend rawToken purpose passwordHash stage => rfl
      | update actorId targetId input stage => rfl
  | invite i id email name role => exact effect_invite hs
  | forgotPassword i email =>
    simp only [step] at hs
    split at hs
    · split_ifs at hs <;> cases hs <;>
        exact effect_issue rfl rfl rfl rfl rfl (fun _ h => h) (fun _ h => h) (fun _ h => Or.inl h)
          fun _ _ h => h
    · cases hs
      exact effect_issue rfl rfl rfl rfl rfl (fun _ h => h) (fun _ h => h) (fun _ h => Or.inl h)
        fun _ _ h => h
    · cases hs
  | saveToken i tokenId rawToken now => exact effect_saveToken hs

/-! ### The invariant -/

/-- A spend of an open, unexpired link of the right purpose, with the account in the status the
purpose asks for. -/
structure Spend.Valid (e : Spend) : Prop where
  unused : e.authToken.usedAt = none
  unexpired : e.checkedAt < e.authToken.expiresAt
  purpose : e.authToken.purpose = e.purpose
  status : e.status = some (requiredStatus e.purpose)

structure State.Inv (s : State) : Prop where
  holds : ∀ t r, s.requests t = some r → s.Holds t r
  issued : ∀ k ∈ s.db.tokens.rows, s.issued k.id = some k.userId
  dead : ∀ e ∈ s.spent, s.Dead e.authToken.id
  nodup : (s.spent.map fun e => e.authToken.id).Nodup
  valid : ∀ e ∈ s.spent, e.Valid

lemma inv_init (db : Database) : (State.init db).Inv where
  holds t r hr := by cases hr
  issued k hk := by
    have hfind : db.tokens.find k.id = some k := Table.mem_iff_find.mp hk
    show (db.tokens.find k.id).map AuthToken.userId = some k.userId
    rw [hfind, Option.map_some]
  dead e he := by cases he
  nodup := List.nodup_nil
  valid e he := by cases he

lemma tokens_applyLink (purpose : AuthTokenPurpose) (passwordHash : String) (now : ℕ) (db : Database)
    (user : User) : (applyLink purpose passwordHash now db user).2.tokens = db.tokens := by
  cases purpose <;> rfl

lemma find_applyLink (purpose : AuthTokenPurpose) (passwordHash : String) (now : ℕ) (db : Database)
    (user : User) {id : ℕ} (hne : id ≠ user.id) :
    (applyLink purpose passwordHash now db user).2.users.find id = db.users.find id := by
  cases purpose <;> exact (Table.find_replace id).trans (if_neg hne)

/-- After a spend: the other links, less the open ones of the user, and the spent one. -/
lemma mem_spendToken {db : Database} {k r : AuthToken} {user : User} {purpose : AuthTokenPurpose}
    {passwordHash : String} {now : ℕ} :
    r ∈ (spendToken db k user purpose passwordHash now).tokens.rows ↔
      ((r = { k with usedAt := some now } ∧ ∃ r₀ ∈ db.tokens.rows, r₀.id = k.id) ∨
        (r ∈ db.tokens.rows ∧ r.id ≠ k.id)) ∧ ¬(r.userId = user.id ∧ r.usedAt = none) := by
  simp only [spendToken, tokens_applyLink, deleteUnusedTokens, Table.mem_deleteWhere,
    Table.mem_replace, Bool.and_eq_false_iff, decide_eq_false_iff_not, not_and_or]

/-- After an update that ends links: the links less the open ones of the user. -/
lemma mem_writeUpdate {db : Database} {r : AuthToken} {w : UserWrite} {now : ℕ} :
    r ∈ (writeUpdate db w now).tokens.rows ↔
      r ∈ db.tokens.rows ∧ ((w.disabling || w.emailChanged) = true →
        ¬(r.userId = w.row.id ∧ r.usedAt = none)) := by
  simp only [writeUpdate]
  split_ifs with hends
  · simp only [deleteUnusedTokens, Table.mem_deleteWhere, Bool.and_eq_false_iff,
      decide_eq_false_iff_not, not_and_or, hends, true_implies]
  · simp [hends]

/-- A row another request has locked is not free. -/
lemma not_isFree {locks : ℕ → Option ℕ} {t t' id : ℕ} (hlock : locks id = some t') (hne : t' ≠ t) :
    isFree locks t id ≠ true := by
  simp [isFree, hlock, hne]

lemma not_open_of_free {s : State} {t t' userId : ℕ} {k : AuthToken}
    (hfree : s.openTokensFree t userId = true) (hk : k ∈ s.db.tokens.rows)
    (hlock : s.tokenLocks k.id = some t') (hne : t' ≠ t) :
    ¬(k.userId = userId ∧ k.usedAt = none) := by
  intro hopen
  have hk := List.all_eq_true.mp hfree k hk
  simp only [hopen.1, hopen.2, decide_true, Bool.and_self, Bool.not_true, Bool.false_or] at hk
  exact not_isFree hlock hne hk

/-- A commit of a spend leaves the rows of other requests. -/
lemma keeps_spend {s : State} {t now checkedAt : ℕ} {passwordHash : String}
    {purpose : AuthTokenPurpose} {k : AuthToken} {user : User} {spent : List Spend}
    (htoken : s.HoldsToken t purpose k checkedAt) (huser : s.HoldsUser t purpose k user)
    (hfree : s.openTokensFree t user.id = true) {t' : ℕ} (hne : t' ≠ t) :
    s.Keeps { s with
      db := spendToken s.db k user purpose passwordHash now
      spent := spent } t' where
  tokenLocks _ h := h
  userLocks _ h := h
  tokens r hr hlock hunused := by
    have hid : r.id ≠ k.id := by
      intro heq
      rw [heq, htoken.lock] at hlock
      exact hne (Option.some.inj hlock).symm
    exact mem_spendToken.mpr ⟨Or.inr ⟨hr, hid⟩, not_open_of_free hfree hr hlock hne⟩
  users u hlock hu := by
    have hid : u.id ≠ user.id := by
      intro heq
      rw [heq, huser.lock] at hlock
      exact hne (Option.some.inj hlock).symm
    exact (find_applyLink purpose passwordHash now _ user hid).trans hu

/-- A commit of an update leaves the rows of other requests. -/
lemma keeps_update {s : State} {t now : ℕ} {w : UserWrite}
    (hrow : isFree s.userLocks t w.row.id = true)
    (hfree : (w.disabling || w.emailChanged) = true → s.openTokensFree t w.row.id = true)
    {t' : ℕ} (hne : t' ≠ t) : s.Keeps { s with db := writeUpdate s.db w now } t' where
  tokenLocks _ h := h
  userLocks _ h := h
  tokens r hr hlock _ :=
    mem_writeUpdate.mpr ⟨hr, fun hends => not_open_of_free (hfree hends) hr hlock hne⟩
  users u hlock hu := by
    have hid : u.id ≠ w.row.id := by
      intro heq
      exact not_isFree hlock hne (by rw [heq]; exact hrow)
    exact ((Table.find_replace u.id).trans (if_neg hid)).trans hu

/-! ### Runs -/

variable {s s' : State} {a : Action}

/-- An id stays with the account it was handed out for. -/
lemma Effect.issued_mono (h : Effect s a s') {id u : ℕ} (hid : s.issued id = some u) :
    s'.issued id = some u := by
  cases h with
  | quiet t ha hends hlive hdb hspent hissued hother hself => rw [hissued, hid]
  | spend hr hfree => exact hid
  | update hr hrow hfree => exact hid
  | issue ha hrequests hspent hkeeps hrows hissued => exact hissued id u hid

/-- The links after a step: links from before it, used ones, and new ones. -/
lemma Effect.rows (hinv : s.Inv) (h : Effect s a s') {k : AuthToken}
    (hk : k ∈ s'.db.tokens.rows) : k ∈ s.db.tokens.rows ∨
      (k.usedAt ≠ none ∧ s.issued k.id = some k.userId) ∨
        (s.issued k.id = none ∧ s'.issued k.id = some k.userId) := by
  cases h with
  | quiet t ha hends hlive hdb hspent hissued hother hself =>
    rw [hdb] at hk
    exact Or.inl hk
  | @spend t now checkedAt rawToken passwordHash purpose k₀ user hr hfree =>
    rcases (mem_spendToken.mp hk).1 with ⟨rfl, -⟩ | ⟨hk, -⟩
    · exact Or.inr (Or.inl ⟨by simp, hinv.issued k₀ (hinv.holds t _ hr).1.row⟩)
    · exact Or.inl hk
  | update hr hrow hfree => exact Or.inl (mem_writeUpdate.mp hk).1
  | issue ha hrequests hspent hkeeps hrows hissued =>
    rcases hrows k hk with hk | hnew
    · exact Or.inl hk
    · exact Or.inr (Or.inr hnew)

/-- A link that can no longer be spent stays so. -/
lemma State.Dead.effect {id : ℕ} (hdead : s.Dead id) (hinv : s.Inv) (h : Effect s a s') :
    s'.Dead id := by
  obtain ⟨u, hu⟩ := Option.isSome_iff_exists.mp hdead.issued
  constructor
  · rw [h.issued_mono hu]
    rfl
  · intro k hk hid
    rcases h.rows hinv hk with hk | ⟨hused, -⟩ | ⟨hnew, -⟩
    · exact hdead.used k hk hid
    · exact hused
    · rw [hid, hu] at hnew
      cases hnew

/-- The step that spends a link. -/
lemma Effect.spent (hinv : s.Inv) (h : Effect s a s') : s'.spent = s.spent ∨
    ∃ e : Spend, s'.spent = e :: s.spent ∧ e.Valid ∧ e.authToken ∈ s.db.tokens.rows ∧
      s'.Dead e.authToken.id := by
  cases h with
  | quiet t ha hends hlive hdb hspent hissued hother hself => exact Or.inl hspent
  | @spend t now checkedAt rawToken passwordHash purpose k user hr hfree =>
    obtain ⟨htoken, huser⟩ : s.HoldsToken t purpose k checkedAt ∧ s.HoldsUser t purpose k user :=
      hinv.holds t _ hr
    refine Or.inr ⟨_, rfl, ?_, htoken.row, ?_, ?_⟩
    · refine ⟨htoken.unused, htoken.unexpired, htoken.purpose, ?_⟩
      rw [huser.owner, huser.row, Option.map_some, huser.status]
    · show (s.issued k.id).isSome = true
      rw [hinv.issued k htoken.row]
      rfl
    · intro r hr hid
      rcases (mem_spendToken.mp hr).1 with ⟨rfl, -⟩ | ⟨-, hne⟩
      · simp
      · exact absurd hid hne
  | update hr hrow hfree => exact Or.inl rfl
  | issue ha hrequests hspent hkeeps hrows hissued => exact Or.inl hspent

/-- What every request holds after a step. -/
lemma Effect.holds (hinv : s.Inv) (h : Effect s a s') (t' : ℕ) (r : Request)
    (hr' : s'.requests t' = some r) : s'.Holds t' r := by
  cases h with
  | quiet t ha hends hlive hdb hspent hissued hother hself =>
    by_cases heq : t' = t
    · subst heq
      obtain ⟨r', hr, hholds, -⟩ := hself
      rw [hr] at hr'
      cases hr'
      exact hholds
    · obtain ⟨hrequests, hkeeps⟩ := hother t' heq
      rw [hrequests] at hr'
      exact (hinv.holds t' r hr').keep hkeeps
  | @spend t now checkedAt rawToken passwordHash purpose k user hr hfree =>
    by_cases heq : t' = t
    · subst heq
      rw [finish_requests_self] at hr'
      cases hr'
      trivial
    · rw [finish_requests_of_ne heq] at hr'
      obtain ⟨htoken, huser⟩ := hinv.holds t _ hr
      exact ((hinv.holds t' r hr').keep (keeps_spend htoken huser hfree heq)).keep
        (keeps_finish heq true)
  | @update t now actorId targetId input w hr hrow hfree =>
    by_cases heq : t' = t
    · subst heq
      rw [finish_requests_self] at hr'
      cases hr'
      trivial
    · rw [finish_requests_of_ne heq] at hr'
      exact ((hinv.holds t' r hr').keep (keeps_update hrow hfree heq)).keep (keeps_finish heq true)
  | issue ha hrequests hspent hkeeps hrows hissued =>
    rw [hrequests] at hr'
    exact (hinv.holds t' r hr').keep (hkeeps t')

lemma Effect.inv (hinv : s.Inv) (h : Effect s a s') : s'.Inv := by
  have hdead : ∀ e ∈ s.spent, s'.Dead e.authToken.id :=
    fun e he => (hinv.dead e he).effect hinv h
  have hissued : ∀ k ∈ s'.db.tokens.rows, s'.issued k.id = some k.userId := by
    intro k hk
    rcases h.rows hinv hk with hk | ⟨-, hid⟩ | ⟨-, hid⟩
    · exact h.issued_mono (hinv.issued k hk)
    · exact h.issued_mono hid
    · exact hid
  rcases h.spent hinv with hspent | ⟨e, hspent, hvalid, hrow, hdead'⟩
  · refine ⟨h.holds hinv, hissued, ?_, ?_, ?_⟩
    · rw [hspent]
      exact hdead
    · rw [hspent]
      exact hinv.nodup
    · rw [hspent]
      exact hinv.valid
  · refine ⟨h.holds hinv, hissued, ?_, ?_, ?_⟩
    · rw [hspent]
      exact List.forall_mem_cons.mpr ⟨hdead', hdead⟩
    · rw [hspent, List.map_cons, List.nodup_cons]
      refine ⟨?_, hinv.nodup⟩
      intro hmem
      obtain ⟨e', he', hid⟩ := List.mem_map.mp hmem
      exact (hinv.dead e' he').used e.authToken hrow hid.symm hvalid.unused
    · rw [hspent]
      exact List.forall_mem_cons.mpr ⟨hvalid, hinv.valid⟩

variable {sql : SqlNumeric} {env : AuthEnv} {db : Database}

lemma effect_of_step (hinv : s.Inv) (hs : step sql env s a = some s') : Effect s a s' :=
  step_effect hinv.holds hs

lemma inv_of_reach {s₀ : State} (h₀ : s₀.Inv) (h : Reach (step sql env) always s₀ s) : s.Inv :=
  h.invariant h₀ fun _ _ _ hi _ hs => (effect_of_step hi hs).inv hi

/-- A dead link is not spent from then on. -/
lemma spent_of_dead {s₀ : State} (h₀ : s₀.Inv) {id : ℕ} (hdead : s₀.Dead id)
    (h : Reach (step sql env) always s₀ s) {e : Spend} (he : e ∈ s.spent)
    (hid : e.authToken.id = id) : e ∈ s₀.spent := by
  have hP : s.Inv ∧ s.Dead id ∧ ∀ e ∈ s.spent, e.authToken.id = id → e ∈ s₀.spent := by
    apply h.invariant (P := fun s => s.Inv ∧ s.Dead id ∧
      ∀ e ∈ s.spent, e.authToken.id = id → e ∈ s₀.spent) ⟨h₀, hdead, fun _ he _ => he⟩
    rintro s a s' ⟨hinv, hdead, hold⟩ - hs
    have heffect := effect_of_step hinv hs
    refine ⟨heffect.inv hinv, hdead.effect hinv heffect, ?_⟩
    intro e he hid
    rcases heffect.spent hinv with hspent | ⟨e', hspent, hvalid, hrow, -⟩
    · rw [hspent] at he
      exact hold e he hid
    · rw [hspent] at he
      rcases List.mem_cons.mp he with rfl | he
      · exact absurd hvalid.unused (hdead.used e.authToken hrow hid)
      · exact hold e he hid
  exact hP.2.2 e he hid

lemma endsLinks_of_request (ha : a.request = none) : endsLinks s a = none := by
  cases a <;> first | rfl | cases ha

/-- The step that ends a user's links leaves none of those handed out that can be spent. -/
lemma dead_of_endsLinks (hinv : s.Inv) (h : Effect s a s') {u k : ℕ} (hends : endsLinks s a = some u)
    (hk : s.issued k = some u) : s'.Dead k := by
  have hissued : (s'.issued k).isSome := by
    rw [h.issued_mono hk]
    rfl
  refine ⟨hissued, ?_⟩
  intro r hr hid
  have howner : r.userId = u := by
    have hr := (h.inv hinv).issued r hr
    rw [hid, h.issued_mono hk] at hr
    exact (Option.some.inj hr).symm
  intro hunused
  cases h with
  | quiet t ha hnone hlive hdb hspent hissued hother hself =>
    rw [hnone] at hends
    cases hends
  | spend hreq hfree =>
    simp only [endsLinks, hreq, Option.some.injEq] at hends
    exact (mem_spendToken.mp hr).2 ⟨howner.trans hends.symm, hunused⟩
  | update hreq hrow hfree =>
    simp only [endsLinks, hreq] at hends
    split_ifs at hends with hw
    cases hends
    exact (mem_writeUpdate.mp hr).2 hw ⟨howner, hunused⟩
  | issue ha hrequests hspent hkeeps hrows hissued =>
    rw [endsLinks_of_request ha] at hends
    cases hends

/-- A request that has ended takes no further step. -/
lemma Effect.ended (h : Effect s a s') {t : ℕ} {b : Bool} (ht : s.requests t = some (.ended b)) :
    s'.requests t = some (.ended b) := by
  have hother : ∀ {t' : ℕ} {r : Request}, s.requests t' = some r → r.isEnded = false → t ≠ t' := by
    rintro t' r hr hlive rfl
    rw [ht] at hr
    cases hr
    cases hlive
  cases h with
  | quiet t' ha hends hlive hdb hspent hissued hother' hself =>
    have hne : t ≠ t' := by
      rintro rfl
      exact absurd (hlive _ ht) (by simp [Request.isEnded])
    rw [(hother' t hne).1, ht]
  | spend hr hfree => rw [finish_requests_of_ne (hother hr rfl), ht]
  | update hr hrow hfree => rw [finish_requests_of_ne (hother hr rfl), ht]
  | issue ha hrequests hspent hkeeps hrows hissued => rw [hrequests, ht]

/-- A step of a request changes the tables only as it succeeds. -/
lemma Effect.db_eq (h : Effect s a s') {t : ℕ} (ha : a.request = some t) :
    s'.db = s.db ∨ s'.requests t = some (.ended true) := by
  cases h with
  | quiet t' ha' hends hlive hdb hspent hissued hother hself => exact Or.inl hdb
  | spend hr hfree =>
    cases ha
    exact Or.inr (Function.update_self ..)
  | update hr hrow hfree =>
    cases ha
    exact Or.inr (Function.update_self ..)
  | issue hnone hrequests hspent hkeeps hrows hissued =>
    rw [hnone] at ha
    cases ha

lemma db_of_failed (hinv : s.Inv) (hs : step sql env s a = some s') {t : ℕ}
    (ha : a.request = some t) {s₂ : State} (h : Reach (step sql env) always s' s₂)
    (hfailed : s₂.requests t = some (.ended false)) : s'.db = s.db := by
  have heffect := effect_of_step hinv hs
  refine (heffect.db_eq ha).resolve_right ?_
  intro hended
  have hP : s₂.Inv ∧ s₂.requests t = some (.ended true) :=
    h.invariant (P := fun s => s.Inv ∧ s.requests t = some (.ended true))
      ⟨heffect.inv hinv, hended⟩ fun _ _ _ hi _ hs =>
        ⟨(effect_of_step hi.1 hs).inv hi.1, (effect_of_step hi.1 hs).ended hi.2⟩
  rw [hP.2] at hfailed
  cases hfailed

/-- A commit writes what the transaction of `consumeToken` writes in one piece, as long as the link
has not expired since it was checked; the digests of links are unique. -/
theorem commit_eq_consumeToken (hinv : s.Inv) {t checkedAt now : ℕ} {rawToken passwordHash : String}
    {purpose : AuthTokenPurpose} {k : AuthToken} {user : User}
    (hr : s.requests t = some (.spend rawToken purpose passwordHash (.userLocked k checkedAt user)))
    (hnow : sqlNow now < k.expiresAt)
    (hunique : ∀ r ∈ s.db.tokens.rows, r.tokenHash = k.tokenHash → r = k) :
    (consumeToken s.db k.tokenHash purpose [requiredStatus purpose] now
        (applyLink purpose passwordHash now)).map Prod.snd
      = .ok (spendToken s.db k user purpose passwordHash now) := by
  obtain ⟨htoken, huser⟩ : s.HoldsToken t purpose k checkedAt ∧ s.HoldsUser t purpose k user :=
    hinv.holds t _ hr
  have hselect : (s.db.tokens.rows.find? fun r => r.tokenHash = k.tokenHash && r.purpose = purpose &&
      r.usedAt = none && sqlNow now < r.expiresAt) = some k := by
    cases hfind : s.db.tokens.rows.find? fun r => r.tokenHash = k.tokenHash &&
        r.purpose = purpose && r.usedAt = none && sqlNow now < r.expiresAt with
    | none =>
      have hnot := List.find?_eq_none.mp hfind k htoken.row
      simp [htoken.purpose, htoken.unused, hnow] at hnot
    | some r =>
      have hp := List.find?_some hfind
      simp only [Bool.and_eq_true, decide_eq_true_eq] at hp
      rw [hunique r (List.mem_of_find?_eq_some hfind) hp.1.1.1]
  simp only [consumeToken, hselect, huser.owner, huser.row, huser.status, List.mem_singleton,
    if_true, Except.map, spendToken]

/-- In every run: no link is spent twice; each was open, unexpired and of the right purpose when it
was checked, with the account in the status the purpose asks for at the commit; once a spend, a
disable or a change of address of a user commits, no link handed out to that user before is spent
later; and the steps of a request that fails leave the tables as they are. -/
theorem links_single_use (h : Reach (step sql env) always (State.init db) s) :
    (s.spent.map fun e => e.authToken.id).Nodup ∧
    (∀ e ∈ s.spent, e.authToken.usedAt = none ∧ e.checkedAt < e.authToken.expiresAt ∧
      e.authToken.purpose = e.purpose ∧ e.status = some (requiredStatus e.purpose)) ∧
    (∀ a s' u, step sql env s a = some s' → endsLinks s a = some u →
      ∀ s₂, Reach (step sql env) always s' s₂ → ∀ k, s.issued k = some u →
        ∀ e ∈ s₂.spent, e.authToken.id = k → e ∈ s'.spent) ∧
    ∀ a s' t, step sql env s a = some s' → a.request = some t →
      ∀ s₂, Reach (step sql env) always s' s₂ → s₂.requests t = some (.ended false) →
        s'.db = s.db := by
  have hinv : s.Inv := inv_of_reach (inv_init db) h
  refine ⟨hinv.nodup, ?_, ?_, ?_⟩
  · intro e he
    obtain ⟨hunused, hunexpired, hpurpose, hstatus⟩ := hinv.valid e he
    exact ⟨hunused, hunexpired, hpurpose, hstatus⟩
  · intro a s' u hs hends s₂ h₂ k hk e he hid
    have heffect := effect_of_step hinv hs
    exact spent_of_dead (heffect.inv hinv) (dead_of_endsLinks hinv heffect hends hk) h₂ he hid
  · intro a s' t hs ha s₂ h₂ hfailed
    exact db_of_failed hinv hs ha h₂ hfailed

/-- An active account with two open reset links. -/
def twoLinks : Database where
  users := ⟨[{ invitedUser 1 "a@x" "B" .editor with status := .active, passwordHash := "p" }],
    by decide⟩
  tokens := ⟨[⟨1, 1, .reset, "a", 1000, none⟩, ⟨2, 1, .reset, "b", 1000, none⟩], by decide⟩

/-- Texts compare and digest as themselves. -/
def plainEnv : AuthEnv := ⟨fun a b => a = b, fun a b => a = b, id, 30, 8⟩

/-- Both links are clicked; the two requests wait for each other until one is aborted, and its link
is gone when it is tried again. -/
def bothClicked : List Action :=
  [.spend 1 "a" .reset "q", .spend 2 "b" .reset "r", .lockToken 1 10, .lockToken 2 11, .lockUser 1,
    .abort 2, .commit 1 20, .spend 3 "b" .reset "r", .lockToken 3 30]

theorem links_single_use_deadlock : ∃ s : State,
    run (step .decimal plainEnv) (State.init twoLinks) bothClicked = some s ∧
      s.spent.map (fun e => e.authToken.id) = [1] ∧
      (∀ e ∈ s.spent, e.checkedAt < e.authToken.expiresAt ∧ e.status = some (requiredStatus e.purpose)) ∧
      ∀ s₂, Reach (step .decimal plainEnv) always s s₂ →
        (s₂.spent.map fun e => e.authToken.id).Nodup := by
  obtain ⟨s, hrun, hspent⟩ := exists_of_run (step .decimal plainEnv) (State.init twoLinks)
    bothClicked (P := fun s => s.spent.map (fun e => e.authToken.id) = [1]) (by decide)
  have hreach := Reach.of_run hrun
  obtain ⟨-, hvalid, -, -⟩ := links_single_use hreach
  refine ⟨s, hrun, hspent, ?_, ?_⟩
  · intro e he
    exact ⟨(hvalid e he).2.1, (hvalid e he).2.2.2⟩
  · intro s₂ h₂
    exact (links_single_use (hreach.trans h₂)).1

end SafeerApi.Accounts.LinkSpending
