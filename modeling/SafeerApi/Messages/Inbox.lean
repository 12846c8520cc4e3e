import Mathlib.Data.List.MinMax
import SafeerApi.Lib.Reach
import SafeerApi.Lib.DirtyWrite
import SafeerApi.Messages.Messages

/-!
# Requests about contact messages (`messages.service.ts`)

Viewing, replying and setting a status interleave statement by statement. All three end in a save of
the message they loaded. A reply sends its mail in between and looks the mail's row up afterwards, as
the latest one with the message's key.
-/

namespace SafeerApi.Messages

open Common Lib

/-! ### Requests -/

inductive Call where
  | findWithReplies (id : String)
  | reply (id body : String) (authorId : ℕ)
  | setStatus (id : String) (status : ContactMessageStatus)
  deriving DecidableEq

def Call.id : Call → String
  | .findWithReplies id => id
  | .reply id _ _ => id
  | .setStatus id _ => id

def Call.isPatch : Call → Bool
  | .setStatus _ _ => true
  | _ => false

/-- Where a request is. The first four stages after `called` are those of a reply: before `send`,
with the mail's row inserted but not committed, after `send`, and after the lookup. A save re-reads
the row and then writes. -/
inductive Stage where
  | called
  | loaded (message : ContactMessage)
  | inserted (message : ContactMessage) (row : Mail.MailLog)
  | sent (message : ContactMessage)
  | found (message : ContactMessage) (mailLogId : Option ℕ)
  | toSave (message : ContactMessage)
  | saving (message reread : ContactMessage)
  | over
  deriving DecidableEq

/-- `wrote` is the `mail_log` row the request's own `send` wrote, `stored` the reply it saved. -/
structure Request where
  call : Call
  stage : Stage := .called
  wrote : Option ℕ := none
  stored : Option ℕ := none
  deriving DecidableEq

/-- `patched` is what the latest `PATCH` that wrote set each message to, or what it started with. -/
structure State where
  messages : ContactMessages
  mailLog : Mail.MailLogs
  replies : MessageReplies
  nextLogId : ℕ
  nextReplyId : ℕ
  requests : List Request
  patched : ℕ → ContactMessageStatus

/-- No reply is stored yet and no request is under way. -/
def State.init (messages : ContactMessages) (mailLog : Mail.MailLogs) (nextLogId : ℕ) : State where
  messages := messages
  mailLog := mailLog
  replies := Table.empty
  nextLogId := nextLogId
  nextReplyId := 1
  requests := []
  patched id := ((messages.find id).map ContactMessage.status).getD .unread

inductive Action where
  | request (call : Call)
  | load (i : ℕ)
  | insertLog (i : ℕ) (content : Mail.MailContent)
  | commitLog (i : ℕ)
  | sendFails (i : ℕ)
  | findLog (i : ℕ)
  | saveReply (i now : ℕ)
  | reread (i : ℕ)
  | write (i : ℕ)
  | fail (i : ℕ)
  | otherMail (params : Mail.SendMailParams) (content : Mail.MailContent)

/-! ### Statements -/

/-- The message as a request saves it. -/
def ContactMessage.markRead (message : ContactMessage) : ContactMessage :=
  { message with status := .read }

/-- A message that was loaded unread is saved as read. -/
def saveIfUnread (message : ContactMessage) : Stage :=
  if message.status = .unread then .toSave message.markRead else .over

/-- What a request goes on with once it has loaded its message. -/
def afterLoad (call : Call) (message : ContactMessage) : Stage :=
  match call with
  | .findWithReplies _ => saveIfUnread message
  | .reply _ _ _ => .loaded message
  | .setStatus _ status => .toSave { message with status := status }

def messageReply : String := "message_reply"

def replyParams (message : ContactMessage) : Mail.SendMailParams where
  key := messageReply
  locale := message.locale
  toEmail := message.email
  entity := some ("contact_messages", toString message.id)

/-- `where: { entityType: 'contact_messages', entityId: message.id, templateKey: 'message_reply' }` -/
def isReplyLog (message : ContactMessage) (row : Mail.MailLog) : Bool :=
  row.entity = some ("contact_messages", toString message.id) && row.templateKey = messageReply

/-- `findOne({ where, order: { id: 'DESC' } })` -/
def latestReplyLog (mailLog : Mail.MailLogs) (message : ContactMessage) : Option Mail.MailLog :=
  (mailLog.rows.filter (isReplyLog message)).argmax Mail.MailLog.id

def State.setRequest (s : State) (i : ℕ) (r : Request) : State :=
  { s with requests := s.requests.set i r }

def State.saveReply (s : State) (i : ℕ) (r : Request) (message : ContactMessage)
    (mailLogId : Option ℕ) (body : String) (authorId now : ℕ) : State :=
  { s.setRequest i { r with stage := saveIfUnread message, stored := some s.nextReplyId } with
    replies := s.replies.put
      ⟨s.nextReplyId, message.id, some authorId, body, mailLogId, none, now⟩
    nextReplyId := s.nextReplyId + 1 }

/-- The write of a save. Only the status can differ: no request changes another column. -/
def State.write (s : State) (i : ℕ) (r : Request) (message reread row : ContactMessage) : State :=
  { s.setRequest i { r with stage := .over } with
    messages := s.messages.replace
      { row with status := saved message.status reread.status row.status }
    patched :=
      if r.call.isPatch && message.status ≠ reread.status then
        Function.update s.patched row.id message.status
      else s.patched }

/-- One statement of a request, or another mail. -/
def step (sql : SqlNumeric) (s : State) : Action → Option State
  | .request call => some { s with requests := s.requests ++ [{ call := call }] }
  | .load i => (s.requests[i]?).bind fun r =>
    match r.stage with
    | .called =>
      match findOrNotFound sql s.messages r.call.id with
      | .error _ => some (s.setRequest i { r with stage := .over })
      | .ok message => some (s.setRequest i { r with stage := afterLoad r.call message })
    | _ => none
  | .insertLog i content => (s.requests[i]?).bind fun r =>
    match r.stage with
    | .loaded message =>
      let row := Mail.newLog s.nextLogId (replyParams message) content
      some { s.setRequest i { r with stage := .inserted message row, wrote := some row.id } with
        nextLogId := s.nextLogId + 1 }
    | _ => none
  | .commitLog i => (s.requests[i]?).bind fun r =>
    match r.stage with
    | .inserted message row =>
      some { s.setRequest i { r with stage := .sent message } with mailLog := s.mailLog.put row }
    | _ => none
  | .sendFails i => (s.requests[i]?).bind fun r =>
    match r.stage with
    | .loaded message => some (s.setRequest i { r with stage := .sent message })
    -- the transaction of the insert is rolled back
    | .inserted message _ => some (s.setRequest i { r with stage := .sent message, wrote := none })
    | _ => none
  | .findLog i => (s.requests[i]?).bind fun r =>
    match r.stage with
    | .sent message =>
      let mailLogId := (latestReplyLog s.mailLog message).map Mail.MailLog.id
      some (s.setRequest i { r with stage := .found message mailLogId })
    | _ => none
  | .saveReply i now => (s.requests[i]?).bind fun r =>
    match r.call, r.stage with
    | .reply _ body authorId, .found message mailLogId =>
      some (s.saveReply i r message mailLogId body authorId now)
    | _, _ => none
  | .reread i => (s.requests[i]?).bind fun r =>
    match r.stage with
    | .toSave message => (s.messages.find message.id).map fun row =>
      s.setRequest i { r with stage := .saving message row }
    | _ => none
  | .write i => (s.requests[i]?).bind fun r =>
    match r.stage with
    | .saving message reread => (s.messages.find message.id).map fun row =>
      s.write i r message reread row
    | _ => none
  | .fail i => (s.requests[i]?).bind fun r =>
    match r.stage with
    -- `send` catches what fails in it
    | .inserted _ _ => none
    | _ => some (s.setRequest i { r with stage := .over })
  | .otherMail params content =>
    if params.key = messageReply then none
    else
      some { s with
        mailLog := s.mailLog.put (Mail.newLog s.nextLogId params content)
        nextLogId := s.nextLogId + 1 }

/-! ### What a step does -/

/-- What a step does: a case for each way through the code. -/
inductive Effect (sql : SqlNumeric) (s : State) : Action → State → Prop where
  | request (call : Call) :
      Effect sql s (.request call) { s with requests := s.requests ++ [{ call := call }] }
  | missing {i : ℕ} {r : Request} {problem : Problem} (hr : s.requests[i]? = some r)
      (hstage : r.stage = .called)
      (hfind : findOrNotFound sql s.messages r.call.id = .error problem) :
      Effect sql s (.load i) (s.setRequest i { r with stage := .over })
  | load {i : ℕ} {r : Request} {message : ContactMessage} (hr : s.requests[i]? = some r)
      (hstage : r.stage = .called)
      (hfind : findOrNotFound sql s.messages r.call.id = .ok message) :
      Effect sql s (.load i) (s.setRequest i { r with stage := afterLoad r.call message })
  | insertLog {i : ℕ} {r : Request} {message : ContactMessage} {content : Mail.MailContent}
      (hr : s.requests[i]? = some r) (hstage : r.stage = .loaded message) :
      Effect sql s (.insertLog i content)
        { s.setRequest i { r with
            stage := .inserted message (Mail.newLog s.nextLogId (replyParams message) content)
            wrote := some (Mail.newLog s.nextLogId (replyParams message) content).id } with
          nextLogId := s.nextLogId + 1 }
  | commitLog {i : ℕ} {r : Request} {message : ContactMessage} {row : Mail.MailLog}
      (hr : s.requests[i]? = some r) (hstage : r.stage = .inserted message row) :
      Effect sql s (.commitLog i)
        { s.setRequest i { r with stage := .sent message } with mailLog := s.mailLog.put row }
  | sendFails {i : ℕ} {r : Request} {message : ContactMessage} (hr : s.requests[i]? = some r)
      (hstage : r.stage = .loaded message) :
      Effect sql s (.sendFails i) (s.setRequest i { r with stage := .sent message })
  | insertFails {i : ℕ} {r : Request} {message : ContactMessage} {row : Mail.MailLog}
      (hr : s.requests[i]? = some r) (hstage : r.stage = .inserted message row) :
      Effect sql s (.sendFails i)
        (s.setRequest i { r with stage := .sent message, wrote := none })
  | findLog {i : ℕ} {r : Request} {message : ContactMessage} (hr : s.requests[i]? = some r)
      (hstage : r.stage = .sent message) :
      Effect sql s (.findLog i) (s.setRequest i { r with
        stage := .found message ((latestReplyLog s.mailLog message).map Mail.MailLog.id) })
  | saveReply {i now authorId : ℕ} {id body : String} {r : Request} {message : ContactMessage}
      {mailLogId : Option ℕ} (hr : s.requests[i]? = some r) (hcall : r.call = .reply id body authorId)
      (hstage : r.stage = .found message mailLogId) :
      Effect sql s (.saveReply i now) (s.saveReply i r message mailLogId body authorId now)
  | reread {i : ℕ} {r : Request} {message row : ContactMessage} (hr : s.requests[i]? = some r)
      (hstage : r.stage = .toSave message) (hrow : s.messages.find message.id = some row) :
      Effect sql s (.reread i) (s.setRequest i { r with stage := .saving message row })
  | write {i : ℕ} {r : Request} {message reread row : ContactMessage}
      (hr : s.requests[i]? = some r) (hstage : r.stage = .saving message reread)
      (hrow : s.messages.find message.id = some row) :
      Effect sql s (.write i) (s.write i r message reread row)
  | fail {i : ℕ} {r : Request} (hr : s.requests[i]? = some r)
      (hstage : ∀ message row, r.stage ≠ .inserted message row) :
      Effect sql s (.fail i) (s.setRequest i { r with stage := .over })
  | otherMail {params : Mail.SendMailParams} {content : Mail.MailContent}
      (hkey : params.key ≠ messageReply) :
      Effect sql s (.otherMail params content)
        { s with
          mailLog := s.mailLog.put (Mail.newLog s.nextLogId params content)
          nextLogId := s.nextLogId + 1 }

lemma effect_of_step {sql : SqlNumeric} {s s' : State} {a : Action} (hs : step sql s a = some s') :
    Effect sql s a s' := by
  cases a with
  | request call =>
    cases hs
    exact .request call
  | otherMail params content =>
    simp only [step] at hs
    split_ifs at hs with hkey
    cases hs
    exact .otherMail hkey
  | load i =>
    obtain ⟨r, hr, hs⟩ := Option.bind_eq_some_iff.mp hs
    split at hs
    · next hstage =>
      split at hs <;> cases hs
      · next hfind => exact .missing hr hstage hfind
      · next hfind => exact .load hr hstage hfind
    · cases hs
  | insertLog i content =>
    obtain ⟨r, hr, hs⟩ := Option.bind_eq_some_iff.mp hs
    split at hs <;> cases hs
    next hstage => exact .insertLog hr hstage
  | commitLog i =>
    obtain ⟨r, hr, hs⟩ := Option.bind_eq_some_iff.mp hs
    split at hs <;> cases hs
    next hstage => exact .commitLog hr hstage
  | sendFails i =>
    obtain ⟨r, hr, hs⟩ := Option.bind_eq_some_iff.mp hs
    split at hs <;> cases hs
    · next hstage => exact .sendFails hr hstage
    · next hstage => exact .insertFails hr hstage
  | findLog i =>
    obtain ⟨r, hr, hs⟩ := Option.bind_eq_some_iff.mp hs
    split at hs <;> cases hs
    next hstage => exact .findLog hr hstage
  | saveReply i now =>
    obtain ⟨r, hr, hs⟩ := Option.bind_eq_some_iff.mp hs
    split at hs <;> cases hs
    next hcall hstage => exact .saveReply hr hcall hstage
  | reread i =>
    obtain ⟨r, hr, hs⟩ := Option.bind_eq_some_iff.mp hs
    split at hs
    · next hstage =>
      obtain ⟨row, hrow, rfl⟩ := Option.map_eq_some_iff.mp hs
      exact .reread hr hstage hrow
    · cases hs
  | write i =>
    obtain ⟨r, hr, hs⟩ := Option.bind_eq_some_iff.mp hs
    split at hs
    · next hstage =>
      obtain ⟨row, hrow, rfl⟩ := Option.map_eq_some_iff.mp hs
      exact .write hr hstage hrow
    · cases hs
  | fail i =>
    obtain ⟨r, hr, hs⟩ := Option.bind_eq_some_iff.mp hs
    split at hs <;> cases hs
    next hstage => exact .fail hr hstage

/-! ### What the statements find -/

lemma isReplyLog_newLog (id : ℕ) (message : ContactMessage) (content : Mail.MailContent) :
    isReplyLog message (Mail.newLog id (replyParams message) content) = true := by
  simp [isReplyLog, Mail.newLog, replyParams]

/-- The lookup finds nothing among the rows of other mails. -/
lemma latestReplyLog_eq_none {mailLog : Mail.MailLogs} {message : ContactMessage}
    (h : ∀ row ∈ mailLog.rows, isReplyLog message row = false) :
    latestReplyLog mailLog message = none := by
  simp only [latestReplyLog]
  rw [List.argmax_eq_none, List.filter_eq_nil_iff]
  intro row hrow hkey
  rw [h row hrow] at hkey
  cases hkey

/-- The lookup finds the row with the message's key and the greatest id. -/
lemma latestReplyLog_eq_some {mailLog : Mail.MailLogs} {message : ContactMessage}
    {row : Mail.MailLog} (hrow : row ∈ mailLog.rows) (hkey : isReplyLog message row = true)
    (hlast : ∀ row' ∈ mailLog.rows, isReplyLog message row' = true → row'.id ≤ row.id) :
    latestReplyLog mailLog message = some row := by
  have hmem : row ∈ mailLog.rows.filter (isReplyLog message) := List.mem_filter.mpr ⟨hrow, hkey⟩
  cases hlatest : latestReplyLog mailLog message with
  | none =>
    rw [List.argmax_eq_none.mp hlatest] at hmem
    cases hmem
  | some latest =>
    obtain ⟨hin, hkey'⟩ := List.mem_filter.mp (List.argmax_mem hlatest)
    have hle : row.id ≤ latest.id := List.le_of_mem_argmax hmem hlatest
    have hge : latest.id ≤ row.id := hlast latest hin hkey'
    rw [Table.eq_of_key hin hrow (Nat.le_antisymm hge hle)]

end SafeerApi.Messages
