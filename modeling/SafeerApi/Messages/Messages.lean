import SafeerApi.Lib.Table
import SafeerApi.Common.Problem
import SafeerApi.Common.SqlNumeric
import SafeerApi.Mail.Service

/-!
# The contact inbox (`contact-message.entity.ts`, `message-reply.entity.ts`, `messages.service.ts`)

The columns of `contact_messages` and `message_replies` that the inbox and its retention read or
write, and what the service decides of a loaded message. Times are milliseconds.
-/

namespace SafeerApi.Messages

open Common Lib

inductive ContactMessageStatus where
  | unread
  | read
  | archived
  deriving DecidableEq, Repr

structure ContactMessage where
  id : ℕ
  name : String
  email : String
  status : ContactMessageStatus
  locale : Mail.MailLocale
  createdAt : ℕ
  deriving DecidableEq

structure MessageReply where
  id : ℕ
  messageId : ℕ
  authorId : Option ℕ
  body : String
  mailLogId : Option ℕ
  deliveryStatus : Option Mail.MailLogStatus
  createdAt : ℕ
  deriving DecidableEq

abbrev ContactMessages := Table ContactMessage.id
abbrev MessageReplies := Table MessageReply.id

def notFound : Problem := ⟨404, .notFound, "Not found", [], []⟩

/-- `findOne({ where: { id } })`, with a string id. -/
def findOrNotFound (sql : SqlNumeric) (messages : ContactMessages) (id : String) :
    Except Problem ContactMessage :=
  match (sql.rowId id).bind messages.find with
  | none => .error notFound
  | some message => .ok message

/-- What is found is the message of that id. -/
lemma rowId_of_findOrNotFound {sql : SqlNumeric} {messages : ContactMessages} {id : String}
    {message : ContactMessage} (h : findOrNotFound sql messages id = .ok message) :
    sql.rowId id = some message.id := by
  simp only [findOrNotFound] at h
  split at h <;> cases h
  next hfind =>
    obtain ⟨n, hn, hfind⟩ := Option.bind_eq_some_iff.mp hfind
    rw [hn, Table.key_of_find hfind]

end SafeerApi.Messages
