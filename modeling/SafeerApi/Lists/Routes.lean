import SafeerApi.Mail.Service
import SafeerApi.Media.Assets
import SafeerApi.Messages.Messages
import SafeerApi.Public.Lists

/-!
# Paged lists (`crud.factory.ts` and the lists of news, messages, media and mails)

The lists of the kernel, of the public news, of the messages, of the media library and of the mail
log. Each asks the database for one page of the rows it matches, in some order.
-/

namespace SafeerApi.Lists

open Common Lib Public

/-- What a list statement asks for, and what is shown of a row. -/
structure ListRoute (R V : Type*) where
  paging : PageLimitOptions
  wheres : Query → R → Bool
  /-- Whether the first row may come before the second. -/
  orderBy : R → R → Bool
  view : R → V

/-- The page of a query; `answer` is what the statement finds, in the order the database gives it. -/
def ListRoute.list {R V : Type*} (route : ListRoute R V) (query : Query) (answer : List R) :
    PagedResult V :=
  let paging := readPageLimit query route.paging
  if paging.beyondMaxOffset then ⟨[], answer.length, paging.page, paging.limit⟩
  else
    ⟨((answer.drop paging.offset).take paging.limit).map route.view, answer.length, paging.page,
      paging.limit⟩

/-! ### The kernel -/

/-- What a collection's controller is made of, as far as its list goes. -/
structure CrudListOptions (E V : Type*) where
  id : E → ℕ
  isPublished : E → Bool := fun _ => false
  sortOrder : E → ℤ := fun _ => 0
  publishable : Bool := false
  sortable : Bool := false
  searchable : List (E → Option String) := []
  /-- The columns, and whether the database takes a row's for equal to a text. -/
  columns : List (String × (E → String → Bool))
  /-- What is added to a row, which keeps its id. -/
  listEnrich : E → V
  listEnrich_id : ∀ e e', listEnrich e = listEnrich e' → id e = id e'

def reservedQueryKeys : List String := ["page", "limit", "q", "published"]

section Kernel

variable {E V : Type*}

def CrudListOptions.wheres (coll : Collation) (opts : CrudListOptions E V) (query : Query) (e : E) :
    Bool :=
  (truthy (readString query "q")).all (fun q => opts.searchable.isEmpty ||
      opts.searchable.any fun field => (field e).any (contains coll q)) &&
    (readString query "published").all (fun published =>
      !opts.publishable || opts.isPublished e = decide (published = "true")) &&
    opts.columns.all fun (key, eq) =>
      key ∈ reservedQueryKeys || (readString query key).all (eq e)

/-- `ORDER BY sort_order, id` or `ORDER BY id DESC` -/
def CrudListOptions.orderBy (opts : CrudListOptions E V) (a b : E) : Bool :=
  if opts.sortable then
    opts.sortOrder a < opts.sortOrder b ||
      (opts.sortOrder a = opts.sortOrder b && opts.id a ≤ opts.id b)
  else opts.id b ≤ opts.id a

/-- The kernel's `list`. -/
def kernelList (coll : Collation) (opts : CrudListOptions E V) : ListRoute E V where
  paging := ⟨20, 100⟩
  wheres := opts.wheres coll
  orderBy := opts.orderBy
  view := opts.listEnrich

end Kernel

/-! ### Public news -/

section News

variable {A : Type*}

/-- `NewsController.list`, once the category is known. -/
def newsRoute (coll : Collation) (db : Database A) : ListRoute (Post A) (PublicPostSummary A) where
  paging := newsPaging
  wheres query p := p.isPublished &&
    (truthy (readString query "category")).all (fun slug =>
      (db.categoryOf p).any fun c => coll.eq c.slug slug) &&
    (truthy (readString query "q")).all (p.matches coll)
  orderBy := Post.notAfter
  view := toPublicPostSummary db

/-- The category a query names, where there is none. -/
def unknownCategory (coll : Collation) (db : Database A) (query : Query) : Option String :=
  (truthy (readString query "category")).filter fun slug =>
    !db.categories.any fun c => coll.eq c.slug slug

/-- `NewsController.list` -/
def newsList (coll : Collation) (db : Database A) (query : Query) (answer : List (Post A)) :
    Except Problem (PagedResult (PublicPostSummary A)) :=
  match unknownCategory coll db query with
  | some slug => .error ⟨400, .validationFailed, "Unknown news category: " ++ slug, [], []⟩
  | none => .ok ((newsRoute coll db).list query answer)

/-- The list of the cached route is the one the database gives in the order that is asked for. -/
lemma newsList_newsRows (coll : Collation) (db : Database A) (query : Query) :
    (Public.newsList coll db query).1 = newsList coll db query
      (newsRows coll db (truthy (readString query "category")) (truthy (readString query "q"))) := by
  rw [Public.newsList, newsList, unknownCategory]
  dsimp only
  cases (truthy (readString query "category")).filter fun slug =>
      !db.categories.any fun c => coll.eq c.slug slug with
  | some slug => rfl
  | none =>
    by_cases hbeyond : (readPageLimit query (newsRoute coll db).paging).beyondMaxOffset = true
    · simp only [ListRoute.list, if_pos hbeyond]
      exact congrArg Prod.fst (if_pos hbeyond)
    · simp only [ListRoute.list, if_neg hbeyond]
      exact congrArg Prod.fst (if_neg hbeyond)

end News

/-! ### Messages -/

inductive ContactMessageSubject where
  | inquiry
  | partnership
  | support
  | feedback
  | other
  deriving DecidableEq, Repr

/-- A message with the columns the list shows. -/
structure InboxMessage extends Messages.ContactMessage where
  subject : ContactMessageSubject
  body : String
  deriving DecidableEq

/-- An excerpt is a list of UTF-16 code units: its cut may fall into a pair. -/
structure MessageListItem where
  id : ℕ
  name : String
  email : String
  subject : ContactMessageSubject
  status : Messages.ContactMessageStatus
  excerpt : List ℕ
  createdAt : ℕ
  deriving DecidableEq

def codeUnits (text : List Char) : List ℕ :=
  text.flatMap fun c =>
    if c.toNat < 0x10000 then [c.toNat]
    else [0xD800 + (c.toNat - 0x10000) / 0x400, 0xDC00 + (c.toNat - 0x10000) % 0x400]

/-- `.replace(/\s+/g, ' ')` -/
def collapseSpaces : List Char → List Char
  | [] => []
  | [c] => if isWhiteSpace c then [' '] else [c]
  | c :: d :: rest =>
    if isWhiteSpace c then
      if isWhiteSpace d then collapseSpaces (d :: rest) else ' ' :: collapseSpaces (d :: rest)
    else c :: collapseSpaces (d :: rest)

def excerptLength : ℕ := 140

def excerptOf (body : String) : List ℕ :=
  let trimmed := codeUnits (collapseSpaces (trim body).toList)
  if trimmed.length > excerptLength then trimmed.take excerptLength ++ codeUnits ['…'] else trimmed

def readStatus (query : Query) : Option Messages.ContactMessageStatus :=
  match readString query "status" with
  | some "unread" => some .unread
  | some "read" => some .read
  | some "archived" => some .archived
  | _ => none

/-- `MessagesService.list`, without the number of unread messages. -/
def messagesRoute : ListRoute InboxMessage MessageListItem where
  paging := ⟨20, 100⟩
  wheres query m := (readStatus query).all fun status => m.status = status
  orderBy a b := b.createdAt < a.createdAt || (a.createdAt = b.createdAt && b.id ≤ a.id)
  view m := ⟨m.id, m.name, m.email, m.subject, m.status, excerptOf m.body, m.createdAt⟩

def countUnread (messages : List InboxMessage) : ℕ := messages.countP fun m => m.status = .unread

/-- `MessagesService.list` -/
def messagesList (messages : List InboxMessage) (query : Query) (answer : List InboxMessage) :
    PagedResult MessageListItem × ℕ :=
  (messagesRoute.list query answer, countUnread messages)

/-! ### The media library -/

structure LibraryAsset extends toAsset : Media.MediaAsset where
  createdAt : ℕ
  deriving DecidableEq

/-- `MediaController.list` -/
def mediaRoute : ListRoute LibraryAsset LibraryAsset where
  paging := ⟨20, 100⟩
  wheres _ _ := true
  orderBy a b := b.createdAt ≤ a.createdAt
  view asset := asset

/-! ### The mail log -/

structure LoggedMail extends Mail.MailLog where
  createdAt : ℕ
  deriving DecidableEq

structure PublicMailLog where
  id : ℕ
  templateKey : String
  locale : Mail.MailLocale
  toEmail : String
  subject : String
  status : Mail.MailLogStatus
  attempts : ℕ
  error : Option String
  hasPayload : Bool
  entity : Option (String × String)
  nextRetryAt : Option ℕ
  sentAt : Option ℕ
  createdAt : ℕ
  deriving DecidableEq

def toPublicMailLog (log : LoggedMail) : PublicMailLog where
  id := log.id
  templateKey := log.templateKey
  locale := log.locale
  toEmail := log.toEmail
  subject := log.subject
  status := log.status
  attempts := log.attempts
  error := log.error
  hasPayload := log.payload.isSome
  entity := log.entity
  nextRetryAt := log.nextRetryAt
  sentAt := log.sentAt
  createdAt := log.createdAt

def statusName : Mail.MailLogStatus → String
  | .queued => "queued"
  | .sent => "sent"
  | .failed => "failed"
  | .skipped => "skipped"

/-- `MailLogController.list` -/
def mailLogRoute (coll : Collation) : ListRoute LoggedMail PublicMailLog where
  paging := ⟨50, 200⟩
  wheres query m :=
    (truthy (readString query "status")).all (fun status => coll.eq (statusName m.status) status) &&
      (truthy (readString query "template")).all fun template => coll.eq m.templateKey template
  orderBy a b := b.createdAt ≤ a.createdAt
  view := toPublicMailLog

end SafeerApi.Lists
