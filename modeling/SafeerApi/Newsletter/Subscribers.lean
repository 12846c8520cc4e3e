import SafeerApi.Lib.Reach
import SafeerApi.Lib.UniqueTable
import SafeerApi.Lib.DirtyWrite
import SafeerApi.Common.Problem
import SafeerApi.Newsletter.Tokens

/-!
# Newsletter subscriptions (`contact.service.ts`, `maintenance.service.ts`)

`subscribe` finds the address's row, saves it as neither confirmed nor unsubscribed, and mails a
link. The save re-reads the row and writes the columns that differ. Confirming and unsubscribing are
one guarded `UPDATE` each, and the nightly job deletes inactive rows. Times are milliseconds.
-/

namespace SafeerApi.Newsletter

open Common Lib

inductive Locale where
  | ar
  | en
  deriving DecidableEq, Repr

structure Subscriber where
  id : ℕ
  email : String
  locale : Locale
  confirmedAt : Option ℕ
  ipHash : Option String
  unsubscribedAt : Option ℕ
  createdAt : ℕ
  deriving DecidableEq

/-- The subscription counts. -/
def Subscriber.isActive (r : Subscriber) : Bool := r.confirmedAt.isSome && r.unsubscribedAt = none

abbrev Subscribers := UniqueTable Subscriber.id Subscriber.email

/-! ### Statements -/

structure NewsletterDto where
  email : String
  website : Option String := none
  formRenderedAt : ℕ

def minFormSeconds : ℕ := 3

/-- A filled-in honeypot, or a form sent too fast; a device clock that runs ahead is neither. -/
def isHoneypotTripped (dto : NewsletterDto) (now : ℕ) : Bool :=
  dto.website.any (· ≠ "") ||
    (dto.formRenderedAt ≤ now && now - dto.formRenderedAt < minFormSeconds * 1000)

/-- What `subscribe` assigns to the row it found. -/
def resubscribed (locale : Locale) (r : Subscriber) : Subscriber :=
  { r with unsubscribedAt := none, confirmedAt := none, locale := locale }

/-- The row `subscribe` inserts for a new address. -/
def newSubscriber (id : ℕ) (email : String) (locale : Locale) (ipHash : Option String) (now : ℕ) :
    Subscriber :=
  ⟨id, email, locale, none, ipHash, none, now⟩

/-- The `UPDATE` of a save: the columns in which the entity differs from the row re-read. The others
are those of the row found, which no statement changes. -/
def writeColumns (entity reread row : Subscriber) : Subscriber :=
  { row with
    locale := saved entity.locale reread.locale row.locale
    confirmedAt := saved entity.confirmedAt reread.confirmedAt row.confirmedAt
    unsubscribedAt := saved entity.unsubscribedAt reread.unsubscribedAt row.unsubscribedAt }

def updateSubscriber (subscribers : Subscribers) (entity reread : Subscriber) : Subscribers :=
  subscribers.updateWhere (fun r => r.id = entity.id) (writeColumns entity reread) (fun _ => rfl)
    fun _ => rfl

def confirmRow (now : ℕ) (r : Subscriber) : Subscriber := { r with confirmedAt := some now }

def unsubscribeRow (now : ℕ) (r : Subscriber) : Subscriber := { r with unsubscribedAt := some now }

def invalidLink (title : String) : Problem := ⟨400, .validationFailed, title, [], []⟩

/-- `POST newsletter/confirm` -/
def confirmSubscription (env : TokenEnv) (subscribers : Subscribers) (email token : String)
    (now : ℕ) : Except Problem Subscribers :=
  let email := normalized email
  if verifyNewsletterToken env .confirm email token now then
    .ok (subscribers.updateWhere
      (fun r => r.email = email && r.confirmedAt = none && r.unsubscribedAt = none)
      (confirmRow now) (fun _ => rfl) fun _ => rfl)
  else .error (invalidLink "This link is invalid or has expired")

/-- `POST newsletter/unsubscribe` -/
def unsubscribe (env : TokenEnv) (subscribers : Subscribers) (email token : String) (now : ℕ) :
    Except Problem Subscribers :=
  let email := normalized email
  if verifyNewsletterToken env .unsubscribe email token now then
    .ok (subscribers.updateWhere (fun r => r.email = email && r.unsubscribedAt = none)
      (unsubscribeRow now) (fun _ => rfl) fun _ => rfl)
  else .error (invalidLink "This link is invalid")

def newsletterInactiveRetentionMs : ℕ := 30 * 24 * 60 * 60 * 1000

/-- The rows a nightly job that computed its cutoff at `now` deletes. -/
def isInactive (now : ℕ) (r : Subscriber) : Bool :=
  r.unsubscribedAt.any (· + newsletterInactiveRetentionMs < now) ||
    (r.confirmedAt = none && r.createdAt + newsletterInactiveRetentionMs < now)

def purgeInactiveNewsletterRows (subscribers : Subscribers) (now : ℕ) : Subscribers :=
  subscribers.deleteWhere (isInactive now)

/-! ### Requests -/

/-- Where a `subscribe` is: it found the address's row, it re-read it, it saved it, or it has ended. -/
inductive Stage where
  | found (existing : Option Subscriber)
  | reread (entity : Subscriber) (row : Option Subscriber)
  | saved
  | ended
  deriving DecidableEq

structure Request where
  email : String
  locale : Locale
  ipHash : Option String
  stage : Stage
  deriving DecidableEq

/-- A confirmation link that was issued. -/
structure Link where
  email : String
  issuedAt : ℕ
  deriving DecidableEq

/-- `fresh` are the links issued since their address was last unsubscribed, `consented` the addresses
confirmed since then, and `owner` the address each id was handed out for. -/
structure State where
  subscribers : Subscribers
  requests : List Request
  clock : ℕ
  fresh : List Link
  consented : List String
  owner : ℕ → Option String

/-- Any subscribers, and nothing in flight. -/
def State.init (subscribers : Subscribers) (clock : ℕ) : State where
  subscribers := subscribers
  requests := []
  clock := clock
  fresh := []
  consented := (subscribers.rows.filter Subscriber.isActive).map Subscriber.email
  owner := fun id => (subscribers.find id).map Subscriber.email

inductive Action where
  | advance (ms : ℕ)
  | find (dto : NewsletterDto) (locale : Locale) (ipHash : Option String)
  | proceed (i : ℕ)
  | insert (i id : ℕ)
  | confirm (email token : String)
  | unsubscribe (email token : String)
  | nightly (computedAt : ℕ)

def State.setStage (s : State) (i : ℕ) (r : Request) (stage : Stage) : State :=
  { s with requests := s.requests.set i { r with stage := stage } }

/-- The `INSERT` of a save, which a unique index may refuse. -/
def insertRow (s : State) (i : ℕ) (r : Request) (row : Subscriber) : State :=
  match s.subscribers.insert row with
  | none => s.setStage i r .ended
  | some subscribers => { s.setStage i r .saved with
      subscribers := subscribers
      owner := Function.update s.owner row.id (some row.email) }

/-- The statements of the `subscribe` at `i`. -/
def advanceRequest (s : State) (i : ℕ) (r : Request) : Option State :=
  match r.stage with
  | .found (some row) => some (s.setStage i r
      (.reread (resubscribed r.locale row) (s.subscribers.find row.id)))
  | .found none => none
  | .reread entity (some row) => some { s.setStage i r .saved with
      subscribers := updateSubscriber s.subscribers entity row }
  -- the row is gone: the save inserts the entity as it was loaded
  | .reread entity none => some (insertRow s i r entity)
  | .saved => some { s.setStage i r .ended with fresh := ⟨r.email, s.clock⟩ :: s.fresh }
  | .ended => none

/-- One statement; an `INSERT` for a new address takes an id that was never handed out. -/
def step (env : TokenEnv) (s : State) : Action → Option State
  | .advance ms => some { s with clock := s.clock + ms }
  | .find dto locale ipHash =>
    let email := normalized dto.email
    let existing := s.subscribers.lookup email
    if isHoneypotTripped dto s.clock || existing.any Subscriber.isActive then some s
    else some { s with requests := s.requests ++ [⟨email, locale, ipHash, .found existing⟩] }
  | .proceed i => (s.requests[i]?).bind (advanceRequest s i)
  | .insert i id =>
    match s.requests[i]?, s.owner id with
    | some r, none =>
      match r.stage with
      | .found none =>
        some (insertRow s i r (newSubscriber id r.email r.locale r.ipHash s.clock))
      | _ => none
    | _, _ => none
  | .confirm email token =>
    match confirmSubscription env s.subscribers email token s.clock with
    | .error _ => some s
    | .ok subscribers => some { s with
        subscribers := subscribers
        consented := normalized email :: s.consented }
  | .unsubscribe email token =>
    match Newsletter.unsubscribe env s.subscribers email token s.clock with
    | .error _ => some s
    | .ok subscribers => some { s with
        subscribers := subscribers
        fresh := s.fresh.filter (·.email ≠ normalized email)
        consented := s.consented.filter (· ≠ normalized email) }
  | .nightly computedAt =>
    some { s with subscribers := purgeInactiveNewsletterRows s.subscribers computedAt }

/-! ### Tables after a statement -/

section

variable {subscribers subscribers' : Subscribers} {env : TokenEnv} {email token : String} {now : ℕ}

/-- What an accepted confirmation writes. -/
lemma mem_confirm (h : confirmSubscription env subscribers email token now = .ok subscribers')
    {x : Subscriber} (hx : x ∈ subscribers'.rows) :
    ∃ r ∈ subscribers.rows, x = r ∨ (x = confirmRow now r ∧ r.email = normalized email) := by
  simp only [confirmSubscription] at h
  split_ifs at h
  cases h
  obtain ⟨r, hr, rfl⟩ := UniqueTable.mem_updateWhere.mp hx
  split_ifs with hp
  · simp only [Bool.and_eq_true, decide_eq_true_eq] at hp
    exact ⟨r, hr, Or.inr ⟨rfl, hp.1.1⟩⟩
  · exact ⟨r, hr, Or.inl rfl⟩

/-- What an accepted unsubscribe writes. -/
lemma mem_unsubscribe (h : Newsletter.unsubscribe env subscribers email token now = .ok subscribers')
    {x : Subscriber} (hx : x ∈ subscribers'.rows) :
    ∃ r ∈ subscribers.rows, (x = r ∧ (r.email = normalized email → r.unsubscribedAt ≠ none)) ∨
      (x = unsubscribeRow now r ∧ r.email = normalized email) := by
  simp only [Newsletter.unsubscribe] at h
  split_ifs at h
  cases h
  obtain ⟨r, hr, rfl⟩ := UniqueTable.mem_updateWhere.mp hx
  split_ifs with hp
  · simp only [Bool.and_eq_true, decide_eq_true_eq] at hp
    exact ⟨r, hr, Or.inr ⟨rfl, hp.1⟩⟩
  · simp only [Bool.and_eq_true, decide_eq_true_eq, not_and] at hp
    exact ⟨r, hr, Or.inl ⟨rfl, hp⟩⟩

/-- A confirmation loses no row. -/
lemma exists_confirm (h : confirmSubscription env subscribers email token now = .ok subscribers')
    {r : Subscriber} (hr : r ∈ subscribers.rows) : ∃ r' ∈ subscribers'.rows,
      r'.id = r.id ∧ r'.email = r.email ∧ r'.unsubscribedAt = r.unsubscribedAt ∧
      (r.email = normalized email → r.unsubscribedAt = none → r'.isActive = true) := by
  simp only [confirmSubscription] at h
  split_ifs at h
  cases h
  refine ⟨_, UniqueTable.mem_updateWhere.mpr ⟨r, hr, rfl⟩, ?_⟩
  split_ifs with hp
  · simp only [Bool.and_eq_true, decide_eq_true_eq] at hp
    refine ⟨rfl, rfl, rfl, fun _ _ => ?_⟩
    simp [confirmRow, Subscriber.isActive, hp.2]
  · refine ⟨rfl, rfl, rfl, fun hemail hnone => ?_⟩
    cases hconfirmed : r.confirmedAt with
    | none => simp [hemail, hnone, hconfirmed] at hp
    | some at₀ => simp [Subscriber.isActive, hconfirmed, hnone]

/-- An unsubscribe loses no row, and writes no other address's. -/
lemma exists_unsubscribe
    (h : Newsletter.unsubscribe env subscribers email token now = .ok subscribers')
    {r : Subscriber} (hr : r ∈ subscribers.rows) : ∃ r' ∈ subscribers'.rows,
      r'.id = r.id ∧ r'.email = r.email ∧
      (r.email ≠ normalized email → r'.unsubscribedAt = r.unsubscribedAt) := by
  simp only [Newsletter.unsubscribe] at h
  split_ifs at h
  cases h
  refine ⟨_, UniqueTable.mem_updateWhere.mpr ⟨r, hr, rfl⟩, ?_⟩
  split_ifs with hp
  · simp only [Bool.and_eq_true, decide_eq_true_eq] at hp
    exact ⟨rfl, rfl, fun hne => absurd hp.1 hne⟩
  · exact ⟨rfl, rfl, fun _ => rfl⟩

lemma verify_of_unsubscribe
    (h : Newsletter.unsubscribe env subscribers email token now = .ok subscribers') :
    verifyNewsletterToken env .unsubscribe (normalized email) token now = true := by
  simp only [Newsletter.unsubscribe] at h
  split_ifs at h with hverify
  exact hverify

lemma mem_updateSubscriber {entity reread x : Subscriber} :
    x ∈ (updateSubscriber subscribers entity reread).rows ↔
      ∃ r ∈ subscribers.rows,
        (if decide (r.id = entity.id) then writeColumns entity reread r else r) = x :=
  UniqueTable.mem_updateWhere

end

end SafeerApi.Newsletter
