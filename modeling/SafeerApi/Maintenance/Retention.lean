import SafeerApi.Accounts.Auth
import SafeerApi.Messages.Messages
import SafeerApi.Newsletter.Subscribers

/-!
# The nightly job (`maintenance.service.ts`)

Six steps, each with its own cutoff and each caught, so that one that fails does not stop the others.
The outcome of a reply's delivery is copied onto the reply by one of them, before another deletes
the row that shows it.
-/

namespace SafeerApi.Maintenance

open Lib Mail Messages

/-! ### Tables -/

/-- A row of `mail_log` with the column its retention reads. -/
structure StampedLog extends MailLog where
  createdAt : ℕ
  deriving DecidableEq

abbrev StampedLogs := Table (fun m : StampedLog => m.id)

structure Database where
  accounts : Accounts.Database := {}
  mailLog : StampedLogs
  messages : ContactMessages
  replies : MessageReplies
  subscribers : Newsletter.Subscribers := .empty

def dayMs : ℕ := 24 * 60 * 60 * 1000
def mailLogRetentionDays : ℕ := 90
def contactMessageRetentionDays : ℕ := 730

/-- `created_at` is before `daysAgo(days)`, computed at `now`. -/
def isOlder (days now createdAt : ℕ) : Bool := days * dayMs + createdAt < now

def isOldLog (now : ℕ) (m : StampedLog) : Bool := isOlder mailLogRetentionDays now m.createdAt

def isOldMessage (now : ℕ) (m : ContactMessage) : Bool :=
  isOlder contactMessageRetentionDays now m.createdAt

/-! ### Steps -/

/-- A session that can never validate again. -/
def purgeExpiredSessions (now : ℕ) (db : Database) : Database :=
  { db with accounts := { db.accounts with
    sessions := db.accounts.sessions.deleteWhere fun s => s.expiresAt < now || s.revokedAt.isSome } }

def purgeSpentAuthTokens (now : ℕ) (db : Database) : Database :=
  { db with accounts := { db.accounts with
    tokens := db.accounts.tokens.deleteWhere fun t => t.usedAt.isSome || t.expiresAt < now } }

/-- The row of `mail_log` a reply is joined with. -/
def Database.logOf (db : Database) (r : MessageReply) : Option StampedLog :=
  r.mailLogId.bind db.mailLog.find

/-- One row of the copy, for the rows the purge is about to remove. -/
def keepStatus (now : ℕ) (db : Database) (r : MessageReply) : MessageReply :=
  match db.logOf r with
  | some m => if isOldLog now m then
      { r with deliveryStatus := some m.status } else r
  | none => r

lemma keepStatus_id (now : ℕ) (db : Database) (r : MessageReply) :
    (keepStatus now db r).id = r.id := by
  simp only [keepStatus]
  split
  · split <;> rfl
  · rfl

def keepReplyDeliveryStatus (now : ℕ) (db : Database) : Database :=
  { db with
    replies := db.replies.updateWhere (fun _ => true) (keepStatus now db) (keepStatus_id now db) }

/-- `ON DELETE SET NULL` -/
def unlink (r : MessageReply) : MessageReply := { r with mailLogId := none }

@[simp] lemma unlink_id (r : MessageReply) : (unlink r).id = r.id := rfl

/-- The purge deletes the row a reply is linked to. -/
def losesLog (now : ℕ) (db : Database) (r : MessageReply) : Bool :=
  (db.logOf r).any (isOldLog now)

def purgeOldMailLog (now : ℕ) (db : Database) : Database :=
  { db with
    mailLog := db.mailLog.deleteWhere (isOldLog now)
    replies := db.replies.updateWhere (losesLog now db) unlink unlink_id }

/-- The purge deletes the message of a reply, and the reply with it. -/
def losesMessage (now : ℕ) (db : Database) (r : MessageReply) : Bool :=
  (db.messages.find r.messageId).any (isOldMessage now)

def purgeOldContactMessages (now : ℕ) (db : Database) : Database :=
  { db with
    messages := db.messages.deleteWhere (isOldMessage now)
    replies := db.replies.deleteWhere (losesMessage now db) }

def purgeInactiveNewsletterRows (now : ℕ) (db : Database) : Database :=
  { db with subscribers := Newsletter.purgeInactiveNewsletterRows db.subscribers now }

/-- When each step computed its cutoff, or `none` when it failed. -/
structure Night where
  sessions : Option ℕ
  authTokens : Option ℕ
  replyStatus : Option ℕ
  mailLog : Option ℕ
  contactMessages : Option ℕ
  newsletter : Option ℕ

/-- One caught step. -/
def attempt (step : ℕ → Database → Database) (at? : Option ℕ) (db : Database) : Database :=
  at?.elim db fun now => step now db

def runNightlyJob (night : Night) (db : Database) : Database :=
  let db := attempt purgeExpiredSessions night.sessions db
  let db := attempt purgeSpentAuthTokens night.authTokens db
  let db := attempt keepReplyDeliveryStatus night.replyStatus db
  let db := attempt purgeOldMailLog night.mailLog db
  let db := attempt purgeOldContactMessages night.contactMessages db
  attempt purgeInactiveNewsletterRows night.newsletter db

/-! ### What happens to a reply -/

/-- What the job leaves of a reply, if it leaves it. -/
def replyAfter (night : Night) (db : Database) (r : MessageReply) : Option MessageReply :=
  let r := night.replyStatus.elim r fun now => keepStatus now db r
  if night.contactMessages.any fun now => losesMessage now db r then none
  else some (if night.mailLog.any fun now => losesLog now db r then unlink r else r)

section

variable {db db' : Database} {r r' : MessageReply} {now : ℕ}

lemma losesLog_congr (h : db'.mailLog = db.mailLog) (hr : r'.mailLogId = r.mailLogId) :
    losesLog now db' r' = losesLog now db r := by
  simp only [losesLog, Database.logOf, h, hr]

lemma losesMessage_congr (h : db'.messages = db.messages) (hr : r'.messageId = r.messageId) :
    losesMessage now db' r' = losesMessage now db r := by
  simp only [losesMessage, h, hr]

lemma keepStatus_links (now : ℕ) (db : Database) (r : MessageReply) :
    (keepStatus now db r).mailLogId = r.mailLogId ∧
      (keepStatus now db r).messageId = r.messageId := by
  simp only [keepStatus]
  split
  · split <;> exact ⟨rfl, rfl⟩
  · exact ⟨rfl, rfl⟩

end

section

variable (at? : Option ℕ) (db : Database) (id : ℕ)

lemma find_keepReplyDeliveryStatus :
    (attempt keepReplyDeliveryStatus at? db).replies.find id =
      (db.replies.find id).map fun r => at?.elim r fun now => keepStatus now db r := by
  cases at? with
  | none => simp [attempt]
  | some now =>
    simp only [attempt, Option.elim_some, keepReplyDeliveryStatus]
    rw [Table.find_updateWhere]
    rfl

lemma find_purgeOldMailLog :
    (attempt purgeOldMailLog at? db).replies.find id =
      (db.replies.find id).map fun r =>
        if at?.any fun now => losesLog now db r then unlink r else r := by
  cases at? with
  | none => simp [attempt]
  | some now =>
    simp only [attempt, Option.elim_some, Option.any_some, purgeOldMailLog]
    rw [Table.find_updateWhere]

lemma find_purgeOldContactMessages :
    (attempt purgeOldContactMessages at? db).replies.find id =
      (db.replies.find id).filter fun r => !at?.any fun now => losesMessage now db r := by
  cases at? with
  | none =>
    simp only [attempt, Option.elim_none, Option.any_none, Bool.not_false]
    cases db.replies.find id <;> rfl
  | some now =>
    simp only [attempt, Option.elim_some, Option.any_some, purgeOldContactMessages]
    rw [Table.find_deleteWhere]

end

/-- The steps that are about other tables. -/
lemma attempt_frame (step : ℕ → Database → Database) (at? : Option ℕ) (db : Database)
    (h : ∀ now, (step now db).mailLog = db.mailLog ∧ (step now db).messages = db.messages ∧
      (step now db).replies = db.replies) :
    (attempt step at? db).mailLog = db.mailLog ∧ (attempt step at? db).messages = db.messages ∧
      (attempt step at? db).replies = db.replies := by
  cases at? with
  | none => exact ⟨rfl, rfl, rfl⟩
  | some now => exact h now

/-- The job's first two steps. -/
lemma frame_purgeSpentAuthTokens (night : Night) (db : Database) :
    let db₂ := attempt purgeSpentAuthTokens night.authTokens
      (attempt purgeExpiredSessions night.sessions db)
    db₂.mailLog = db.mailLog ∧ db₂.messages = db.messages ∧ db₂.replies = db.replies := by
  intro db₂
  obtain ⟨hlog₁, hmessages₁, hreplies₁⟩ :=
    attempt_frame purgeExpiredSessions night.sessions db fun now => ⟨rfl, rfl, rfl⟩
  obtain ⟨hlog₂, hmessages₂, hreplies₂⟩ :=
    attempt_frame purgeSpentAuthTokens night.authTokens
      (attempt purgeExpiredSessions night.sessions db) fun now => ⟨rfl, rfl, rfl⟩
  exact ⟨hlog₂.trans hlog₁, hmessages₂.trans hmessages₁, hreplies₂.trans hreplies₁⟩

/-- The replies after the job. -/
lemma find_runNightlyJob (night : Night) (db : Database) (id : ℕ) :
    (runNightlyJob night db).replies.find id = (db.replies.find id).bind (replyAfter night db) := by
  simp only [runNightlyJob]
  obtain ⟨hlog, hmessages, hreplies⟩ := frame_purgeSpentAuthTokens night db
  generalize attempt purgeSpentAuthTokens night.authTokens
    (attempt purgeExpiredSessions night.sessions db) = db₂ at *
  generalize hdb₃ : attempt keepReplyDeliveryStatus night.replyStatus db₂ = db₃
  generalize hdb₄ : attempt purgeOldMailLog night.mailLog db₃ = db₄
  have hlog₃ : db₃.mailLog = db₂.mailLog := by
    rw [← hdb₃]
    cases night.replyStatus <;> rfl
  have hmessages₄ : db₄.messages = db₂.messages := by
    rw [← hdb₄, ← hdb₃]
    cases night.mailLog <;> cases night.replyStatus <;> rfl
  have hlast : (attempt purgeInactiveNewsletterRows night.newsletter
      (attempt purgeOldContactMessages night.contactMessages db₄)).replies =
        (attempt purgeOldContactMessages night.contactMessages db₄).replies := by
    cases night.newsletter <;> rfl
  rw [hlast, find_purgeOldContactMessages, ← hdb₄, find_purgeOldMailLog, ← hdb₃,
    find_keepReplyDeliveryStatus, hreplies, hdb₃, hdb₄]
  have hkeep : ∀ now r, keepStatus now db₂ r = keepStatus now db r := by
    intro now r
    simp only [keepStatus, Database.logOf, hlog]
  have hloses : ∀ now r, losesLog now db₃ r = losesLog now db r := fun now r =>
    losesLog_congr (hlog₃.trans hlog) rfl
  have hmessage : ∀ now r, losesMessage now db₄ r = losesMessage now db r := fun now r =>
    losesMessage_congr (hmessages₄.trans hmessages) rfl
  simp only [hkeep, hloses, hmessage]
  cases db.replies.find id with
  | none => rfl
  | some r =>
    simp only [Option.map_some, Option.bind_some, replyAfter]
    generalize (night.replyStatus.elim r fun now => keepStatus now db r) = r₁
    have hunlink : ∀ now, losesMessage now db (if (night.mailLog.any fun now => losesLog now db r₁)
        then unlink r₁ else r₁) = losesMessage now db r₁ := by
      intro now
      split <;> rfl
    simp only [Option.filter_some, hunlink]
    cases (night.contactMessages.any fun now => losesMessage now db r₁) <;> rfl

/-- The rows of `mail_log` that the job leaves. -/
lemma mem_mailLog_runNightlyJob {night : Night} {db : Database} {m : StampedLog} :
    m ∈ (runNightlyJob night db).mailLog.rows ↔ m ∈ db.mailLog.rows ∧
      (night.mailLog.any fun now => isOldLog now m) = false := by
  have hother : ∀ (step : ℕ → Database → Database) (at? : Option ℕ) (db : Database),
      (∀ now, (step now db).mailLog = db.mailLog) → (attempt step at? db).mailLog = db.mailLog := by
    intro step at? db h
    cases at? with
    | none => rfl
    | some now => exact h now
  simp only [runNightlyJob]
  rw [hother purgeInactiveNewsletterRows _ _ fun _ => rfl,
    hother purgeOldContactMessages _ _ fun _ => rfl]
  generalize hdb₃ : attempt keepReplyDeliveryStatus night.replyStatus
    (attempt purgeSpentAuthTokens night.authTokens
      (attempt purgeExpiredSessions night.sessions db)) = db₃
  have hlog : db₃.mailLog = db.mailLog := by
    rw [← hdb₃, hother keepReplyDeliveryStatus _ _ fun _ => rfl]
    exact (frame_purgeSpentAuthTokens night db).1
  rw [← hlog]
  cases night.mailLog with
  | none => simp [attempt]
  | some now =>
    simp only [attempt, Option.elim_some, Option.any_some, purgeOldMailLog, Table.mem_deleteWhere]

/-! ### The outcome of a reply -/

/-- Each surviving reply whose row of `mail_log` the job deletes shows what the row showed. -/
def KeepsOutcomes (night : Night) (db : Database) : Prop :=
  ∀ r ∈ db.replies.rows, ∀ m, db.logOf r = some m → m ∉ (runNightlyJob night db).mailLog.rows →
    ∀ r' ∈ (runNightlyJob night db).replies.rows, r'.id = r.id → r'.deliveryStatus = some m.status

/-- Each reply whose row the purge takes, and whose message it does not, was copied by a step with a
cutoff that covers the row, or showed the status before. -/
def CopiesOutcomes (night : Night) (db : Database) : Prop :=
  ∀ r ∈ db.replies.rows, ∀ m, db.logOf r = some m →
    (night.mailLog.any fun now => isOldLog now m) = true →
    (night.contactMessages.any fun now => losesMessage now db r) = false →
      (night.replyStatus.any fun now => isOldLog now m) = true ∨
        r.deliveryStatus = some m.status

/-- The copy does not change which message a reply is to. -/
lemma losesMessage_copied (night : Night) (db : Database) (r : MessageReply) (now : ℕ) :
    losesMessage now db (night.replyStatus.elim r fun now => keepStatus now db r) =
      losesMessage now db r := by
  cases night.replyStatus with
  | none => rfl
  | some copied => exact losesMessage_congr rfl (keepStatus_links copied db r).2

/-- What a surviving reply shows. -/
lemma deliveryStatus_replyAfter {night : Night} {db : Database} {r r' : MessageReply}
    {m : StampedLog} (hlog : db.logOf r = some m) (h : replyAfter night db r = some r') :
    (night.contactMessages.any fun now => losesMessage now db r) = false ∧
      r'.deliveryStatus = if night.replyStatus.any fun now =>
        isOldLog now m then some m.status else r.deliveryStatus := by
  have hcopied : ∀ now, keepStatus now db r =
      if isOldLog now m then { r with deliveryStatus := some m.status }
      else r := by
    intro now
    simp only [keepStatus, hlog]
  simp only [replyAfter, losesMessage_copied] at h
  split_ifs at h with hgone hlost
  · cases h
    refine ⟨Bool.eq_false_iff.mpr hgone, ?_⟩
    cases night.replyStatus with
    | none => rfl
    | some copied =>
      simp only [Option.elim_some, Option.any_some, hcopied, unlink]
      split <;> rfl
  · cases h
    refine ⟨Bool.eq_false_iff.mpr hgone, ?_⟩
    cases night.replyStatus with
    | none => rfl
    | some copied =>
      simp only [Option.elim_some, Option.any_some, hcopied]
      split <;> rfl

/-- A reply whose message is not purged is there after the job. -/
lemma exists_replyAfter {night : Night} {db : Database} {r : MessageReply}
    (h : (night.contactMessages.any fun now => losesMessage now db r) = false) :
    ∃ r', replyAfter night db r = some r' ∧ r'.id = r.id := by
  have hid : (night.replyStatus.elim r fun now => keepStatus now db r).id = r.id := by
    cases night.replyStatus with
    | none => rfl
    | some copied => exact keepStatus_id copied db r
  simp only [replyAfter, losesMessage_copied, h, Bool.false_eq_true, if_false]
  refine ⟨_, rfl, ?_⟩
  split
  · exact hid
  · exact hid

/-- The outcomes survive exactly the nights on which the copy covers what the purge takes. -/
theorem keepsOutcomes_iff (night : Night) (db : Database) :
    KeepsOutcomes night db ↔ CopiesOutcomes night db := by
  constructor
  · intro h r hr m hlog hpurged hsurvives
    obtain ⟨r', hr', hid⟩ := exists_replyAfter hsurvives
    have hmem : r' ∈ (runNightlyJob night db).replies.rows := by
      rw [Table.mem_iff_find, hid, find_runNightlyJob, Table.mem_iff_find.mp hr, Option.bind_some,
        hr']
    have hgone : m ∉ (runNightlyJob night db).mailLog.rows := by
      intro hm
      rw [(mem_mailLog_runNightlyJob.mp hm).2] at hpurged
      cases hpurged
    have hstatus := h r hr m hlog hgone r' hmem hid
    rw [(deliveryStatus_replyAfter hlog hr').2] at hstatus
    split_ifs at hstatus with hcopied
    · exact Or.inl hcopied
    · exact Or.inr hstatus
  · intro h r hr m hlog hgone r' hr' hid
    have hafter : replyAfter night db r = some r' := by
      rw [Table.mem_iff_find, hid, find_runNightlyJob, Table.mem_iff_find.mp hr,
        Option.bind_some] at hr'
      exact hr'
    obtain ⟨n, -, hfind⟩ := Option.bind_eq_some_iff.mp hlog
    have hpurged : (night.mailLog.any fun now => isOldLog now m) = true := by
      rw [← Bool.not_eq_false]
      exact fun hkept => hgone (mem_mailLog_runNightlyJob.mpr
        ⟨(Table.find_eq_some.mp hfind).1, hkept⟩)
    obtain ⟨hsurvives, hstatus⟩ := deliveryStatus_replyAfter hlog hafter
    rw [hstatus]
    split_ifs with hcopied
    · rfl
    · exact (h r hr m hlog hpurged hsurvives).resolve_left hcopied

/-! ### A slow night -/

/-- The row of a mail that was sent. -/
def sentLog : StampedLog :=
  { id := 1, templateKey := "message_reply", locale := .ar, toEmail := "a@x", subject := "s",
    status := .sent, createdAt := 0 }

def oneReply : Database where
  mailLog := ⟨[sentLog], by decide⟩
  messages := ⟨[⟨1, "A", "a@x", .read, .ar, 0⟩], by decide⟩
  replies := ⟨[⟨1, 1, none, "b", some 1, none, 0⟩], by decide⟩

/-- No step fails; the row comes of age between the copy and the purge. -/
def slowNight : Night where
  sessions := some (90 * dayMs)
  authTokens := some (90 * dayMs)
  replyStatus := some (90 * dayMs)
  mailLog := some (90 * dayMs + 1)
  contactMessages := some (90 * dayMs + 1)
  newsletter := some (90 * dayMs + 1)

theorem outcome_lost : ¬ KeepsOutcomes slowNight oneReply := by
  intro h
  have hstatus := h ⟨1, 1, none, "b", some 1, none, 0⟩ (by decide +kernel) sentLog (by decide +kernel)
    (by decide +kernel) ⟨1, 1, none, "b", none, none, 0⟩ (by decide +kernel) rfl
  cases hstatus

end SafeerApi.Maintenance
