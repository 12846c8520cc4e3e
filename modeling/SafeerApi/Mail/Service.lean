import SafeerApi.Lib.Table
import SafeerApi.Common.ListParams
import SafeerApi.Common.Problem
import SafeerApi.Common.SqlNumeric

/-!
# Mail (`mail.service.ts`, `mail-log.entity.ts`)

The row of each mail, the copies the process keeps of what it still has to deliver, and what the
service decides and writes at each point of `send`, `attemptDelivery`, `recordFailure` and
`retryNow`. Times are milliseconds.
-/

namespace SafeerApi.Mail

open Common Lib

/-! ### Rows -/

inductive MailLocale where
  | ar
  | en
  deriving DecidableEq, Repr

inductive MailLogStatus where
  | queued
  | sent
  | failed
  | skipped
  deriving DecidableEq, Repr

structure RenderedMail where
  subject : String
  html : String
  text : String
  deriving DecidableEq, Repr

structure MailLog where
  id : ℕ
  templateKey : String
  locale : MailLocale
  toEmail : String
  subject : String
  status : MailLogStatus
  attempts : ℕ := 0
  error : Option String := none
  payload : Option RenderedMail := none
  entity : Option (String × String) := none
  nextRetryAt : Option ℕ := none
  sentAt : Option ℕ := none
  deriving DecidableEq, Repr

abbrev MailLogs := Table MailLog.id

/-- `findOne({ where: { id } })`, with a string id. -/
def findLog (sql : SqlNumeric) (rows : MailLogs) (logId : String) : Option MailLog :=
  (sql.rowId logId).bind rows.find

/-- `logRepo.update(logId, ..)`: whatever the row holds by then. -/
def updateLog (sql : SqlNumeric) (rows : MailLogs) (logId : String) (f : MailLog → MailLog)
    (hf : ∀ row, (f row).id = row.id) : MailLogs :=
  rows.updateWhere (fun row => sql.rowId logId = some row.id) f hf

/-! ### Pending deliveries -/

structure PendingDelivery where
  rendered : RenderedMail
  /-- `none`: not scheduled, due now, or terminal. -/
  nextRetryAt : Option ℕ
  terminal : Bool
  deriving DecidableEq, Repr

/-- The `pending` map, in insertion order; its keys are ids as texts. -/
abbrev Pending := List (String × PendingDelivery)

def Pending.get (pending : Pending) (logId : String) : Option PendingDelivery :=
  (pending.find? fun x => x.1 = logId).map Prod.snd

def Pending.delete (pending : Pending) (logId : String) : Pending :=
  pending.filter fun x => x.1 ≠ logId

/-- A key that is there keeps its place. -/
def Pending.set (pending : Pending) (logId : String) (entry : PendingDelivery) : Pending :=
  if (Pending.get pending logId).isSome then
    pending.map fun x => if x.1 = logId then (logId, entry) else x
  else pending ++ [(logId, entry)]

def maxPending : ℕ := 500

/-- `evictIfAtCapacity`: the oldest terminal entry goes. -/
def evictIfAtCapacity (pending : Pending) : Pending :=
  if pending.length < maxPending then pending
  else pending.eraseP fun x => x.2.terminal

section Pending

variable {pending : Pending} {k k' : String} {e : PendingDelivery}

lemma Pending.get_map {f : String × PendingDelivery → String × PendingDelivery}
    (hf : ∀ x, (f x).1 = x.1) :
    Pending.get (pending.map f) k = (pending.find? fun x => x.1 = k).map fun x => (f x).2 := by
  have hkey : (fun x => decide (x.1 = k)) ∘ f = fun x => decide (x.1 = k) := by
    funext x
    simp only [Function.comp_apply, hf]
  simp only [Pending.get, List.find?_map, hkey, Option.map_map]
  rfl

lemma Pending.get_set : Pending.get (Pending.set pending k e) k' =
    if k' = k then some e else Pending.get pending k' := by
  simp only [Pending.set]
  split
  · next hsome =>
    rw [Pending.get_map fun x => by split <;> simp_all]
    split_ifs with hkk'
    · subst hkk'
      obtain ⟨e', he'⟩ := Option.isSome_iff_exists.mp hsome
      obtain ⟨x, hx, -⟩ := Option.map_eq_some_iff.mp he'
      have hkey : x.1 = k' := by simpa using List.find?_some hx
      rw [hx, Option.map_some, if_pos hkey]
    · simp only [Pending.get]
      cases hfind : pending.find? fun x => x.1 = k' with
      | none => rfl
      | some x =>
        have hkey : x.1 = k' := by simpa using List.find?_some hfind
        rw [Option.map_some, Option.map_some, if_neg fun h => hkk' (hkey.symm.trans h)]
  · next hnone =>
    rw [Option.not_isSome_iff_eq_none, Pending.get, Option.map_eq_none_iff] at hnone
    simp only [Pending.get, List.find?_append]
    split_ifs with hkk'
    · subst hkk'
      rw [hnone]
      simp
    · simp [Ne.symm hkk']

lemma Pending.get_delete_of_ne (h : k' ≠ k) :
    Pending.get (Pending.delete pending k) k' = Pending.get pending k' := by
  simp only [Pending.get, Pending.delete, List.find?_filter]
  congr 2
  funext x
  by_cases hx : x.1 = k'
  · simp [hx, h]
  · simp [hx]

/-- Only terminal entries are evicted. -/
lemma get_evictIfAtCapacity (h : Pending.get pending k = some e) (hlive : e.terminal = false) :
    Pending.get (evictIfAtCapacity pending) k = some e := by
  simp only [evictIfAtCapacity]
  split_ifs with hfull
  · exact h
  · clear hfull
    induction pending with
    | nil => exact h
    | cons x pending ih =>
      simp only [Pending.get, List.find?_cons] at h ih ⊢
      by_cases hx : x.1 = k
      · simp only [hx, decide_true, Option.map_some, Option.some.injEq] at h
        simp [h, hlive, hx]
      · simp only [hx, decide_false] at h
        cases hterminal : x.2.terminal with
        | true => simpa [List.eraseP_cons, hterminal] using h
        | false => simpa [List.eraseP_cons, hterminal, hx] using ih h

end Pending

/-! ### Queueing -/

structure SendMailParams where
  key : String
  locale : MailLocale
  toEmail : String
  entity : Option (String × String) := none
  /-- Some of the variables must not be stored. -/
  sensitive : Bool := false

/-- What the templates and the settings give a mail. -/
structure MailContent where
  /-- `none` when the template is disabled or missing. -/
  rendered : Option RenderedMail
  /-- The same with the sensitive variables masked. -/
  masked : Option RenderedMail
  isEnabled : Bool

def missingRecipientError : String :=
  "No recipient email address was configured (e.g. mail_settings.notify_email is unset for " ++
    "contact_notify)"

/-- The row `send` writes. -/
def newLog (id : ℕ) (params : SendMailParams) (content : MailContent) : MailLog :=
  let loggable := if params.sensitive then content.masked else content.rendered
  let missingRecipient := params.toEmail = ""
  let status : MailLogStatus :=
    if missingRecipient ∨ ¬content.isEnabled ∨ content.rendered.isNone then .skipped else .queued
  { id := id
    templateKey := params.key
    locale := params.locale
    toEmail := params.toEmail
    subject := (loggable.map RenderedMail.subject).getD params.key
    status := status
    error := if missingRecipient then some missingRecipientError else none
    entity := params.entity
    -- a rendering that carries a sensitive value is never stored
    payload := if status = .queued ∧ ¬params.sensitive then content.rendered else none }

/-- What `send` goes on to deliver. -/
def toDeliver (row : MailLog) (content : MailContent) : Option RenderedMail :=
  if row.status = .queued then content.rendered else none

/-! ### One attempt -/

def retryDelaysMinutes : List ℕ := [1, 5, 15]

def maxAttempts : ℕ := 1 + retryDelaysMinutes.length

/-- What an attempt does once it has read its row. -/
inductive Decision where
  /-- There is no row, or it is sent. -/
  | nothing
  /-- There is nothing left to send, and the row says otherwise. -/
  | giveUp
  /-- There is nothing left to send. -/
  | leave
  | deliver (attempts : ℕ) (rendered : RenderedMail)

def decideAttempt (pending : Pending) (logId : String) (row : Option MailLog) : Decision :=
  match row with
  | none => .nothing
  | some row =>
    if row.status = .sent then .nothing
    else
      match (((Pending.get pending logId).map PendingDelivery.rendered).or row.payload) with
      | some rendered => .deliver (row.attempts + 1) rendered
      | none =>
        if row.status = .queued ∨ (row.status = .failed ∧ row.nextRetryAt.isSome) then .giveUp
        else .leave

/-- A copy recovered from the row is kept. -/
def keepRendered (pending : Pending) (logId : String) (rendered : RenderedMail) : Pending :=
  if (Pending.get pending logId).isSome then pending
  else Pending.set (evictIfAtCapacity pending) logId ⟨rendered, none, false⟩

def contentGoneError : String :=
  "Content no longer available to retry (not stored for sensitive mail); re-trigger the original " ++
    "action"

def MailLog.markContentGone (row : MailLog) : MailLog :=
  { row with status := .failed, nextRetryAt := none, error := some contentGoneError }

def MailLog.markSent (attempts now : ℕ) (row : MailLog) : MailLog :=
  { row with
    status := .sent
    attempts := attempts
    sentAt := some now
    error := none
    nextRetryAt := none
    payload := none }

/-- The first so many UTF-16 code units of a text, as a column keeps them: of a pair that is cut in two
the high surrogate stays, and is written as U+FFFD. -/
def takeUnits : ℕ → List Char → List Char
  | _, [] => []
  | left, c :: rest =>
    let units := if c.toNat < 0x10000 then 1 else 2
    if units ≤ left then c :: takeUnits (left - units) rest
    else if left = 0 then [] else [Char.ofNat 0xfffd]

/-- `error.slice(0, 1000)`, as it is stored. -/
def sliceError (error : String) : String := String.ofList (takeUnits 1000 error.toList)

/-- What `recordFailure` is about to write. -/
structure Failure where
  attempts : ℕ
  error : String
  nextRetryAt : Option ℕ
  terminal : Bool
  deriving DecidableEq, Repr

def failureOf (attempts : ℕ) (error : String) (forceTerminal : Bool) (now : ℕ) : Failure :=
  let terminal := forceTerminal || decide (attempts ≥ maxAttempts)
  { attempts := attempts
    error := sliceError error
    nextRetryAt :=
      if terminal then none else some (now + (retryDelaysMinutes.getD (attempts - 1) 0) * 60000)
    terminal := terminal }

def MailLog.markFailed (f : Failure) (row : MailLog) : MailLog :=
  { row with
    status := .failed
    attempts := f.attempts
    error := some f.error
    nextRetryAt := f.nextRetryAt
    payload := if f.terminal then none else row.payload }

/-- The entry of a failed mail is rescheduled. -/
def reschedule (pending : Pending) (logId : String) (f : Failure) : Pending :=
  pending.map fun x =>
    if x.1 = logId then
      (x.1, { x.2 with nextRetryAt := f.nextRetryAt, terminal := f.terminal })
    else x

lemma get_reschedule {pending : Pending} {k k' : String} {f : Failure} :
    Pending.get (reschedule pending k f) k' =
      if k' = k then (Pending.get pending k').map fun e =>
        { e with nextRetryAt := f.nextRetryAt, terminal := f.terminal }
      else Pending.get pending k' := by
  rw [reschedule, Pending.get_map fun x => by split <;> rfl]
  simp only [Pending.get]
  cases hfind : pending.find? fun x => x.1 = k' with
  | none => simp
  | some x =>
    have hkey : x.1 = k' := by simpa using List.find?_some hfind
    simp only [Option.map_some, hkey]
    split_ifs <;> rfl

/-- An update by a row's own id. -/
lemma find_updateLog {sql : SqlNumeric} {rows : MailLogs} {f : MailLog → MailLog}
    {hf : ∀ row, (f row).id = row.id} (n m : ℕ) :
    (updateLog sql rows (toString n) f hf).find m =
      if m = n then (rows.find m).map f else rows.find m := by
  rw [updateLog, Table.find_updateWhere, sql.canonical]
  cases hfind : rows.find m with
  | none => simp
  | some row =>
    have hid : row.id = m := Table.key_of_find hfind
    simp only [Option.map_some, hid, Option.some.injEq, decide_eq_true_eq, eq_comm (a := n)]
    split_ifs <;> rfl

/-! ### Sweeps and retries -/

/-- The rows a sweep takes up, by id. -/
def dueRows (rows : MailLogs) (now : ℕ) : List String :=
  (rows.rows.filter fun row => row.status = .failed && row.nextRetryAt.any (· ≤ now)).map
    fun row => toString row.id

def cannotRetryError : String :=
  "This message can no longer be retried: its rendered content is gone (evicted under load, or " ++
    "the process restarted after this failure went terminal). Re-trigger the original action " ++
    "(resend the invite, resubmit the form, …) instead."

/-- What `retryNow` does once it has read its row: `.ok true` is an attempt. -/
def decideRetry (pending : Pending) (logId : String) (row : Option MailLog) :
    Except Problem Bool :=
  match row with
  | none => .error ⟨404, .notFound, "Not found", [], []⟩
  | some row =>
    if row.status = .sent then .ok false
    else if (Pending.get pending logId).isNone ∧ row.payload.isNone then
      .error ⟨400, .validationFailed, cannotRetryError, [], []⟩
    else .ok true

/-- An attempt does something only about a row that is not sent. -/
lemma exists_of_decideAttempt {pending : Pending} {logId : String} {row : Option MailLog}
    (h : decideAttempt pending logId row ≠ .nothing) : ∃ r, row = some r ∧ r.status ≠ .sent := by
  cases row with
  | none => exact absurd rfl h
  | some r =>
    refine ⟨r, rfl, fun hsent => h ?_⟩
    simp [decideAttempt, hsent]

end SafeerApi.Mail
