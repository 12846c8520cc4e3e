import SafeerApi.Messages.Inbox

/-!
# Archived messages

A view and a reply save the message as read when they loaded it unread. As long as no such save
writes to a message that is archived by then, a message leaves the archive only by a `PATCH` that
asks for it.
-/

namespace SafeerApi.Messages

open Common Lib

/-! ### The condition -/

/-- The save of a view or a reply does not write to a message that is archived by then: it re-read
the message as read already, or finds it unarchived. -/
def keepsArchived (s : State) : Action → Bool
  | .write i => (s.requests[i]?).all fun r =>
    match r.stage with
    | .saving message reread =>
      r.call.isPatch || reread.status = .read ||
        (s.messages.find message.id).all fun row => row.status ≠ .archived
    | _ => true
  | _ => true

/-! ### The invariant -/

/-- The status a request saves. -/
def Call.target : Call → ContactMessageStatus
  | .setStatus _ status => status
  | _ => .read

/-- A request goes on with the message it asks for; it saves its own status in it, and only a reply
has a mail to send. -/
def Request.Entitled (sql : SqlNumeric) (r : Request) : Prop :=
  match r.stage with
  | .called | .over => True
  | .loaded message | .inserted message _ | .sent message | .found message _ =>
    sql.rowId r.call.id = some message.id ∧ r.call.isPatch = false
  | .toSave message | .saving message _ =>
    sql.rowId r.call.id = some message.id ∧ message.status = r.call.target

/-- A message has the status it was last set to, or was unread and is read. -/
def Follows (patched status : ContactMessageStatus) : Prop :=
  status = patched ∨ (patched = .unread ∧ status = .read)

structure Kept (sql : SqlNumeric) (s : State) : Prop where
  entitled : ∀ r ∈ s.requests, r.Entitled sql
  follows : ∀ message ∈ s.messages.rows, Follows (s.patched message.id) message.status

variable {sql : SqlNumeric} {s s' : State} {i : ℕ} {r : Request}
  {message reread row : ContactMessage}

lemma Call.target_of_isPatch {call : Call} (h : call.isPatch = false) : call.target = .read := by
  cases call with
  | findWithReplies id => rfl
  | reply id body authorId => rfl
  | setStatus id status => cases h

lemma Call.eq_setStatus {call : Call} (h : call.isPatch = true) :
    call = .setStatus call.id call.target := by
  cases call with
  | findWithReplies id => cases h
  | reply id body authorId => cases h
  | setStatus id status => rfl

lemma Kept.init (messages : ContactMessages) (mailLog : Mail.MailLogs) (nextLogId : ℕ) :
    Kept sql (State.init messages mailLog nextLogId) where
  entitled _ h := absurd h List.not_mem_nil
  follows message hmessage := by
    left
    have hfind : messages.find message.id = some message := Table.mem_iff_find.mp hmessage
    simp only [State.init]
    rw [hfind, Option.map_some, Option.getD_some]

lemma entitled_saveIfUnread (hid : sql.rowId r.call.id = some message.id)
    (h : r.call.isPatch = false) : { r with stage := saveIfUnread message }.Entitled sql := by
  simp only [saveIfUnread]
  split_ifs
  · exact ⟨hid, (Call.target_of_isPatch h).symm⟩
  · exact trivial

lemma entitled_afterLoad (hid : sql.rowId r.call.id = some message.id) :
    { r with stage := afterLoad r.call message }.Entitled sql := by
  simp only [afterLoad]
  split
  · next hcall => exact entitled_saveIfUnread hid (by rw [hcall]; rfl)
  · next hcall =>
    refine ⟨hid, ?_⟩
    change r.call.isPatch = false
    rw [hcall]
    rfl
  · next status hcall =>
    refine ⟨hid, ?_⟩
    change status = r.call.target
    rw [hcall]
    rfl

/-! ### What a step does -/

/-- Every request goes on to save its own status. -/
lemma entitled_step {a : Action} (h : ∀ r ∈ s.requests, r.Entitled sql)
    (hs : step sql s a = some s') : ∀ r ∈ s'.requests, r.Entitled sql := by
  -- a stage of a request that has loaded its message goes on with the same message
  have hgoes : ∀ {i : ℕ} {r r' : Request}, s.requests[i]? = some r →
      (r.Entitled sql → r'.Entitled sql) → ∀ r₀ ∈ s.requests.set i r', r₀.Entitled sql :=
    fun hr hr' => forall_mem_set h (hr' (h _ (List.mem_of_getElem? hr)))
  cases effect_of_step hs with
  | request call => exact forall_mem_concat h trivial
  | missing _ _ _ | write _ _ _ | fail _ _ => exact forall_mem_set h trivial
  | load hr _ hfind =>
    exact forall_mem_set h (entitled_afterLoad (rowId_of_findOrNotFound hfind))
  | insertLog hr hstage | commitLog hr hstage | sendFails hr hstage | insertFails hr hstage
  | findLog hr hstage | reread hr hstage _ =>
    refine hgoes hr fun hentitled => ?_
    simp only [Request.Entitled, hstage] at hentitled
    exact hentitled
  | @saveReply i now authorId id body r message mailLogId hr _ hstage =>
    refine hgoes hr fun hentitled => ?_
    simp only [Request.Entitled, hstage] at hentitled
    exact entitled_saveIfUnread (r := { r with stored := some s.nextReplyId }) hentitled.1
      hentitled.2
  | otherMail _ => exact h

/-- Only the write of a save changes a message. -/
lemma step_messages {a : Action} (hs : step sql s a = some s') :
    (s'.messages = s.messages ∧ s'.patched = s.patched) ∨
      ∃ i r message reread row, a = .write i ∧ s.requests[i]? = some r ∧
        r.stage = .saving message reread ∧ s.messages.find message.id = some row ∧
        s' = s.write i r message reread row := by
  cases effect_of_step hs with
  | write hr hstage hrow => exact Or.inr ⟨_, _, _, _, _, rfl, hr, hstage, hrow, rfl⟩
  | _ => exact Or.inl ⟨rfl, rfl⟩

/-- What the write of a save makes of a status: nothing, what a `PATCH` asks for, or read of what is
not archived. -/
lemma saved_status (h : Kept sql s) (hr : s.requests[i]? = some r)
    (hstage : r.stage = .saving message reread) (hrow : s.messages.find message.id = some row)
    (hok : keepsArchived s (.write i) = true) :
    let status := saved message.status reread.status row.status
    (message.status = reread.status ∧ status = row.status) ∨
    (message.status ≠ reread.status ∧ r.call.isPatch = true ∧ status = message.status ∧
      status = r.call.target) ∨
    (r.call.isPatch = false ∧ row.status ≠ .archived ∧ status = .read) := by
  have hentitled := h.entitled r (List.mem_of_getElem? hr)
  simp only [Request.Entitled, hstage] at hentitled
  simp only [keepsArchived, hr, Option.all_some, hstage, hrow, Bool.or_eq_true,
    decide_eq_true_eq] at hok
  intro status
  by_cases heq : message.status = reread.status
  · exact Or.inl ⟨heq, if_pos heq⟩
  · have hstatus : status = message.status := saved_of_ne heq
    right
    cases hpatch : r.call.isPatch with
    | true => exact Or.inl ⟨heq, rfl, hstatus, hstatus.trans hentitled.2⟩
    | false =>
      have hread : message.status = .read := hentitled.2.trans (Call.target_of_isPatch hpatch)
      rcases hok with (hcall | hreread) | hrow
      · rw [hpatch] at hcall
        cases hcall
      · exact absurd (hread.trans hreread.symm) heq
      · exact Or.inr ⟨rfl, hrow, hstatus.trans hread⟩

/-- A message that is read without a `PATCH` follows the same `PATCH` as before. -/
lemma Follows.read {patched status : ContactMessageStatus} (h : Follows patched status)
    (hunarchived : status ≠ .archived) : Follows patched .read := by
  rcases h with rfl | ⟨hpatched, -⟩
  · cases status with
    | unread => exact Or.inr ⟨rfl, rfl⟩
    | read => exact Or.inl rfl
    | archived => exact absurd rfl hunarchived
  · exact Or.inr ⟨hpatched, rfl⟩

/-! ### Runs -/

lemma follows_write (h : Kept sql s) (hr : s.requests[i]? = some r)
    (hstage : r.stage = .saving message reread) (hrow : s.messages.find message.id = some row)
    (hok : keepsArchived s (.write i) = true) :
    ∀ x ∈ (s.write i r message reread row).messages.rows,
      Follows ((s.write i r message reread row).patched x.id) x.status := by
  intro x hx
  simp only [State.write]
  rcases Table.mem_replace.mp hx with ⟨rfl, -⟩ | ⟨hx, hne⟩
  · have hbefore := h.follows row (Table.find_eq_some.mp hrow).1
    rcases saved_status h hr hstage hrow hok with
      ⟨heq, hstatus⟩ | ⟨hne, hpatch, hstatus, -⟩ | ⟨hpatch, hunarchived, hstatus⟩
    · rw [hstatus, if_neg (by simp [heq])]
      exact hbefore
    · rw [hstatus, if_pos (by simp [hpatch, hne]), Function.update_self]
      exact Or.inl rfl
    · rw [hstatus, if_neg (by simp [hpatch])]
      exact hbefore.read hunarchived
  · have hbefore := h.follows x hx
    split_ifs
    · rw [Function.update_of_ne hne]
      exact hbefore
    · exact hbefore

lemma kept_step {a : Action} (h : Kept sql s) (hok : keepsArchived s a = true)
    (hs : step sql s a = some s') : Kept sql s' where
  entitled := entitled_step h.entitled hs
  follows := by
    rcases step_messages hs with ⟨hmessages, hpatched⟩ |
      ⟨i, r, message, reread, row, rfl, hr, hstage, hrow, rfl⟩
    · rw [hmessages, hpatched]
      exact h.follows
    · exact follows_write h hr hstage hrow hok

/-- One step turns a message from unread to read, or to what a `PATCH` of it asks for. -/
lemma status_step {a : Action} (h : Kept sql s) (hok : keepsArchived s a = true)
    (hs : step sql s a = some s') {id : ℕ} {before after : ContactMessage}
    (hbefore : s.messages.find id = some before) (hafter : s'.messages.find id = some after) :
    after.status = before.status ∨ (before.status = .unread ∧ after.status = .read) ∨
      ∃ i r messageId, a = .write i ∧ s.requests[i]? = some r ∧
        r.call = .setStatus messageId after.status ∧ sql.rowId messageId = some id := by
  rcases step_messages hs with ⟨hmessages, -⟩ |
    ⟨i, r, message, reread, row, rfl, hr, hstage, hrow, rfl⟩
  · rw [hmessages, hbefore] at hafter
    cases hafter
    exact Or.inl rfl
  · simp only [State.write] at hafter
    rw [Table.find_replace] at hafter
    split_ifs at hafter with hid
    · have hsame : before = row := by
        rw [hid, Table.key_of_find hrow, hrow] at hbefore
        exact (Option.some.inj hbefore).symm
      subst hsame
      rw [hbefore, Option.map_some] at hafter
      cases hafter
      rcases saved_status h hr hstage hrow hok with
        ⟨-, hstatus⟩ | ⟨-, hpatch, -, hstatus⟩ | ⟨-, hunarchived, hstatus⟩
      · exact Or.inl hstatus
      · have hcall := Call.eq_setStatus hpatch
        have hentitled := h.entitled r (List.mem_of_getElem? hr)
        simp only [Request.Entitled, hstage] at hentitled
        refine Or.inr (Or.inr ⟨i, r, r.call.id, rfl, hr, hcall.trans (by rw [hstatus]), ?_⟩)
        rw [hentitled.1, hid, Table.key_of_find hrow]
      · have hfollows : Follows before.status .read := Follows.read (Or.inl rfl) hunarchived
        rcases hfollows with hread | ⟨hunread, -⟩
        · exact Or.inl (hstatus.trans hread)
        · exact Or.inr (Or.inl ⟨hunread, hstatus⟩)
    · rw [hbefore] at hafter
      cases hafter
      exact Or.inl rfl

/-- In every interleaving that meets the condition, a message has the status the latest `PATCH` set
it to, or was set unread and is read; and a further step changes it only from unread to read or to
what a `PATCH` of that message asks for. -/
theorem archived_until_patched {messages : ContactMessages} {mailLog : Mail.MailLogs}
    {nextLogId : ℕ}
    (h : Reach (step sql) (fun s a => keepsArchived s a = true)
      (State.init messages mailLog nextLogId) s) :
    (∀ message ∈ s.messages.rows, Follows (s.patched message.id) message.status) ∧
    ∀ a s', keepsArchived s a = true → step sql s a = some s' →
      ∀ id before after, s.messages.find id = some before → s'.messages.find id = some after →
        after.status = before.status ∨ (before.status = .unread ∧ after.status = .read) ∨
          ∃ i r messageId, a = .write i ∧ s.requests[i]? = some r ∧
            r.call = .setStatus messageId after.status ∧ sql.rowId messageId = some id := by
  have hkept : Kept sql s := h.invariant (Kept.init messages mailLog nextLogId)
    fun _ _ _ hi hok hs => kept_step hi hok hs
  refine ⟨hkept.follows, ?_⟩
  intro a s' hok hs id before after hbefore hafter
  exact status_step hkept hok hs hbefore hafter

/-! ### A view behind a `PATCH` -/

/-- An inbox with one unread message. -/
def unreadMessage : State :=
  State.init ⟨[⟨2, "Omar", "omar@example.org", .unread, .en, 5⟩], by decide⟩ Table.empty 1

/-- A view, a `PATCH` that archives the message, and a view of the archived message. -/
def viewArchiveView : List Action :=
  [.request (.findWithReplies "2"), .load 0, .reread 0, .write 0,
    .request (.setStatus "2" .archived), .load 1, .reread 1, .write 1,
    .request (.findWithReplies "2"), .load 2]

theorem archived_until_patched_viewed : ∃ s : State, s.patched 2 = .archived ∧
    ∀ message ∈ s.messages.rows, Follows (s.patched message.id) message.status := by
  obtain ⟨s, hrun, hpatched⟩ := exists_of_run (guarded (step SqlNumeric.decimal) keepsArchived)
    unreadMessage viewArchiveView (P := fun s => s.patched 2 = .archived) (by decide +kernel)
  exact ⟨s, hpatched, (archived_until_patched (Reach.of_guarded hrun)).1⟩

/-- The view loads the message before the `PATCH` archives it, and saves it afterwards. -/
def viewBehindPatch : List Action :=
  [.request (.findWithReplies "2"), .load 0, .request (.setStatus "2" .archived), .load 1,
    .reread 1, .write 1, .reread 0, .write 0]

theorem archived_read_by_view : ∃ s : State,
    run (step SqlNumeric.decimal) unreadMessage viewBehindPatch = some s ∧
      s.patched 2 = .archived ∧ s.messages.rows.map ContactMessage.status = [.read] := by
  obtain ⟨s, hrun, hstatus⟩ := exists_of_run (step SqlNumeric.decimal) unreadMessage viewBehindPatch
    (P := fun s => s.patched 2 = .archived ∧
      s.messages.rows.map ContactMessage.status = [.read]) (by decide +kernel)
  exact ⟨s, hrun, hstatus⟩

end SafeerApi.Messages
