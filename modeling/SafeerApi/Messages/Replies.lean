import SafeerApi.Messages.Inbox

/-!
# Replies and the mails they were sent with

Every stored reply refers to the `mail_log` row of its own mail as long as each lookup comes before
the next reply to the same message has written its row, and each reply whose `send` wrote nothing is
the first one to its message.
-/

namespace SafeerApi.Messages

open Common Lib

/-! ### The condition -/

/-- When a reply looks up its mail, no reply to the message has written a later row than its own
`send`, and none any row if its own `send` wrote nothing. -/
def noLaterReply (s : State) : Action → Bool
  | .findLog i => (s.requests[i]?).all fun r =>
    match r.stage with
    | .sent message => s.mailLog.rows.all fun row =>
      !isReplyLog message row || r.wrote.any (row.id ≤ ·)
    | _ => true
  | _ => true

/-! ### The invariant -/

/-- What a request has written by the stage it is in. -/
def Request.Staged (mailLog : Mail.MailLogs) (r : Request) : Prop :=
  match r.stage with
  | .called | .loaded _ => r.wrote = none ∧ r.stored = none
  | .inserted message row =>
    r.wrote = some row.id ∧ r.stored = none ∧ isReplyLog message row = true
  | .sent message => r.stored = none ∧
    ∀ k, r.wrote = some k → ∃ row, mailLog.find k = some row ∧ isReplyLog message row = true
  | .found _ mailLogId => r.stored = none ∧ mailLogId = r.wrote
  | .toSave _ | .saving _ _ | .over => True

/-- Every row of `mail_log` was written by the `send` of one request, and a stored reply refers to
the row of its own. -/
structure Linked (s : State) : Prop where
  issued : ∀ r ∈ s.requests, ∀ k, r.wrote = some k → k < s.nextLogId
  distinct : ∀ (i j : ℕ) (r r' : Request) (k : ℕ), s.requests[i]? = some r →
    s.requests[j]? = some r' → r.wrote = some k → r'.wrote = some k → i = j
  staged : ∀ r ∈ s.requests, r.Staged s.mailLog
  linked : ∀ reply ∈ s.replies.rows, ∃ r ∈ s.requests,
    r.stored = some reply.id ∧ reply.mailLogId = r.wrote

variable {sql : SqlNumeric} {s s' : State} {i : ℕ} {r r' : Request}

lemma Linked.init (messages : ContactMessages) (mailLog : Mail.MailLogs) (nextLogId : ℕ) :
    Linked (State.init messages mailLog nextLogId) where
  issued _ h := absurd h List.not_mem_nil
  distinct _ _ _ _ _ h := by cases h
  staged _ h := absurd h List.not_mem_nil
  linked _ h := absurd h List.not_mem_nil

/-- A row of another mail does not change what a request wrote. -/
lemma Request.Staged.put {mailLog : Mail.MailLogs} {row : Mail.MailLog} (h : r.Staged mailLog)
    (hother : r.wrote ≠ some row.id) : r.Staged (mailLog.put row) := by
  simp only [Request.Staged] at h ⊢
  split at h
  · exact h
  · exact h
  · exact h
  · refine ⟨h.1, fun k hk => ?_⟩
    have hne : k ≠ row.id := by
      rintro rfl
      exact hother hk
    rw [Table.find_put, if_neg hne]
    exact h.2 k hk
  · exact h
  · exact trivial
  · exact trivial
  · exact trivial

/-- A request goes on. It takes at most the next id, and once its reply is stored it keeps what it
wrote. -/
lemma Linked.move {n : ℕ} {mailLog : Mail.MailLogs} (h : Linked s) (hr : s.requests[i]? = some r)
    (hn : s.nextLogId ≤ n)
    (hwrote : ∀ k, r'.wrote = some k → r.wrote = some k ∨ (k = s.nextLogId ∧ k < n))
    (hkept : ∀ k, r.stored = some k → r'.stored = some k ∧ r'.wrote = r.wrote)
    (hstaged : r'.Staged mailLog)
    (hothers : ∀ j r₀, j ≠ i → s.requests[j]? = some r₀ → r₀.Staged mailLog) :
    Linked { s.setRequest i r' with nextLogId := n, mailLog := mailLog } where
  issued := by
    apply forall_mem_set
    · exact fun r₀ hr₀ k hk => (h.issued r₀ hr₀ k hk).trans_le hn
    · intro k hk
      rcases hwrote k hk with hk | ⟨-, hlt⟩
      · exact (h.issued r (List.mem_of_getElem? hr) k hk).trans_le hn
      · exact hlt
  distinct := by
    -- the id that `r'` has is the one of `r`, or was not taken
    have hnew : ∀ j r₀ k, s.requests[j]? = some r₀ → r₀.wrote = some k → r'.wrote = some k →
        i = j := by
      intro j r₀ k hr₀ hk hk'
      rcases hwrote k hk' with hk' | ⟨rfl, -⟩
      · exact h.distinct i j r r₀ k hr hr₀ hk' hk
      · exact absurd (h.issued r₀ (List.mem_of_getElem? hr₀) _ hk) (lt_irrefl _)
    intro j j' r₀ r₁ k hr₀ hr₁ hk hk'
    rcases getElem?_set_some hr₀ with ⟨rfl, rfl⟩ | ⟨-, hold₀⟩
    · rcases getElem?_set_some hr₁ with ⟨rfl, rfl⟩ | ⟨-, hold₁⟩
      · rfl
      · exact hnew j' r₁ k hold₁ hk' hk
    · rcases getElem?_set_some hr₁ with ⟨rfl, rfl⟩ | ⟨-, hold₁⟩
      · exact (hnew j r₀ k hold₀ hk hk').symm
      · exact h.distinct j j' r₀ r₁ k hold₀ hold₁ hk hk'
  staged := by
    intro r₀ hr₀
    obtain ⟨j, hj⟩ := List.mem_iff_getElem?.mp hr₀
    rcases getElem?_set_some hj with ⟨-, rfl⟩ | ⟨hji, hj⟩
    · exact hstaged
    · exact hothers j r₀ hji hj
  linked := by
    intro reply hreply
    obtain ⟨r₀, hr₀, hstored, hlink⟩ := h.linked reply hreply
    obtain ⟨j, hj⟩ := List.mem_iff_getElem?.mp hr₀
    by_cases hji : j = i
    · subst hji
      obtain rfl : r = r₀ := Option.some.inj (hr.symm.trans hj)
      obtain ⟨hstored', hwrote'⟩ := hkept _ hstored
      exact ⟨r', mem_set_of_getElem? hr, hstored', hlink.trans hwrote'.symm⟩
    · refine ⟨r₀, List.mem_of_getElem? (i := j) ?_, hstored, hlink⟩
      change (s.requests.set i r')[j]? = some r₀
      rw [List.getElem?_set_ne (Ne.symm hji), hj]

/-- A request goes on and writes no mail. -/
lemma Linked.setRequest (h : Linked s) (hr : s.requests[i]? = some r)
    (hwrote : r'.wrote = r.wrote) (hkept : ∀ k, r.stored = some k → r'.stored = some k)
    (hstaged : r'.Staged s.mailLog) : Linked (s.setRequest i r') := by
  apply h.move hr le_rfl
  · intro k hk
    exact Or.inl (hwrote ▸ hk)
  · exact fun k hk => ⟨hkept k hk, hwrote⟩
  · exact hstaged
  · exact fun j r₀ _ hr₀ => h.staged r₀ (List.mem_of_getElem? hr₀)

lemma Linked.setStage {stage : Stage} (h : Linked s) (hr : s.requests[i]? = some r)
    (hstaged : { r with stage := stage }.Staged s.mailLog) :
    Linked (s.setRequest i { r with stage := stage }) :=
  h.setRequest hr rfl (fun _ hk => hk) hstaged

/-! ### Statements -/

lemma staged_saveIfUnread (mailLog : Mail.MailLogs) (r : Request) (message : ContactMessage) :
    { r with stage := saveIfUnread message }.Staged mailLog := by
  simp only [saveIfUnread]
  split_ifs <;> exact trivial

lemma staged_afterLoad {mailLog : Mail.MailLogs} (h : r.Staged mailLog) (hstage : r.stage = .called)
    (message : ContactMessage) : { r with stage := afterLoad r.call message }.Staged mailLog := by
  simp only [Request.Staged, hstage] at h
  simp only [afterLoad]
  split
  · exact staged_saveIfUnread mailLog r message
  · exact h
  · exact trivial

lemma Linked.insertLog {message : ContactMessage} (h : Linked s) (hr : s.requests[i]? = some r)
    (hstage : r.stage = .loaded message) (content : Mail.MailContent) :
    Linked { s.setRequest i { r with
        stage := .inserted message (Mail.newLog s.nextLogId (replyParams message) content)
        wrote := some s.nextLogId } with
      nextLogId := s.nextLogId + 1 } := by
  have hstaged := h.staged r (List.mem_of_getElem? hr)
  simp only [Request.Staged, hstage] at hstaged
  apply h.move hr (Nat.le_succ _)
  · intro k hk
    cases hk
    exact Or.inr ⟨rfl, Nat.lt_succ_self _⟩
  · intro k hk
    rw [hstaged.2] at hk
    cases hk
  · exact ⟨rfl, hstaged.2, isReplyLog_newLog _ _ _⟩
  · exact fun j r₀ _ hr₀ => h.staged r₀ (List.mem_of_getElem? hr₀)

/-- From the commit on the lookup finds the row, and it is no other request's. -/
lemma Linked.commitLog {message : ContactMessage} {row : Mail.MailLog} (h : Linked s)
    (hr : s.requests[i]? = some r) (hstage : r.stage = .inserted message row) :
    Linked { s.setRequest i { r with stage := .sent message } with
      mailLog := s.mailLog.put row } := by
  have hstaged := h.staged r (List.mem_of_getElem? hr)
  simp only [Request.Staged, hstage] at hstaged
  obtain ⟨hwrote, hstored, hkey⟩ := hstaged
  apply h.move hr le_rfl
  · exact fun k hk => Or.inl hk
  · exact fun k hk => ⟨hk, rfl⟩
  · refine ⟨hstored, fun k hk => ?_⟩
    obtain rfl : row.id = k := Option.some.inj (hwrote.symm.trans hk)
    exact ⟨row, by rw [Table.find_put, if_pos rfl], hkey⟩
  · intro j r₀ hji hr₀
    apply (h.staged r₀ (List.mem_of_getElem? hr₀)).put
    intro hwrote₀
    exact hji (h.distinct j i r₀ r row.id hr₀ hr hwrote₀ hwrote)

lemma Linked.sendFails {message : ContactMessage} (h : Linked s) (hr : s.requests[i]? = some r)
    (hstored : r.stored = none) :
    Linked (s.setRequest i { r with stage := .sent message, wrote := none }) := by
  apply h.move hr le_rfl
  · intro k hk
    cases hk
  · intro k hk
    rw [hstored] at hk
    cases hk
  · refine ⟨hstored, fun k hk => ?_⟩
    cases hk
  · exact fun j r₀ _ hr₀ => h.staged r₀ (List.mem_of_getElem? hr₀)

/-- Under the condition the lookup finds the row that the reply's own `send` wrote. -/
lemma latestReplyLog_own {message : ContactMessage} (h : Linked s)
    (hr : s.requests[i]? = some r) (hstage : r.stage = .sent message)
    (hok : noLaterReply s (.findLog i) = true) :
    (latestReplyLog s.mailLog message).map Mail.MailLog.id = r.wrote := by
  have hstaged := h.staged r (List.mem_of_getElem? hr)
  simp only [Request.Staged, hstage] at hstaged
  simp only [noLaterReply, hr, Option.all_some, hstage, List.all_eq_true, Bool.or_eq_true,
    Bool.not_eq_true'] at hok
  cases hwrote : r.wrote with
  | none =>
    rw [latestReplyLog_eq_none, Option.map_none]
    intro row hrow
    rcases hok row hrow with hkey | hlater
    · exact hkey
    · rw [hwrote] at hlater
      cases hlater
  | some k =>
    obtain ⟨row, hfind, hkey⟩ := hstaged.2 k hwrote
    obtain ⟨hrow, rfl⟩ := Table.find_eq_some.mp hfind
    rw [latestReplyLog_eq_some hrow hkey, Option.map_some]
    intro row' hrow' hkey'
    rcases hok row' hrow' with hother | hle
    · rw [hkey'] at hother
      cases hother
    · rw [hwrote, Option.any_some, decide_eq_true_eq] at hle
      exact hle

lemma Linked.saveReply {message : ContactMessage} {mailLogId : Option ℕ} (h : Linked s)
    (hr : s.requests[i]? = some r) (hstage : r.stage = .found message mailLogId) (body : String)
    (authorId now : ℕ) : Linked (s.saveReply i r message mailLogId body authorId now) := by
  have hstaged := h.staged r (List.mem_of_getElem? hr)
  simp only [Request.Staged, hstage] at hstaged
  have hset : Linked (s.setRequest i
      { r with stage := saveIfUnread message, stored := some s.nextReplyId }) := by
    apply h.setRequest hr
    · rfl
    · intro k hk
      rw [hstaged.1] at hk
      cases hk
    · exact staged_saveIfUnread _ { r with stored := some s.nextReplyId } message
  refine ⟨hset.issued, hset.distinct, hset.staged, ?_⟩
  intro reply hreply
  rcases Table.mem_put hreply with rfl | hreply
  · exact ⟨_, mem_set_of_getElem? hr, rfl, hstaged.2⟩
  · exact hset.linked reply hreply

lemma Linked.otherMail (h : Linked s) (params : Mail.SendMailParams) (content : Mail.MailContent) :
    Linked { s with
      mailLog := s.mailLog.put (Mail.newLog s.nextLogId params content)
      nextLogId := s.nextLogId + 1 } where
  issued r hr k hk := (h.issued r hr k hk).trans (Nat.lt_succ_self _)
  distinct := h.distinct
  staged := by
    intro r hr
    apply (h.staged r hr).put
    intro hwrote
    exact absurd (h.issued r hr _ hwrote) (lt_irrefl _)
  linked := h.linked

lemma Linked.request (h : Linked s) (call : Call) :
    Linked { s with requests := s.requests ++ [{ call := call }] } where
  issued := by
    apply forall_mem_concat h.issued
    intro k hk
    cases hk
  distinct := by
    intro j j' r₀ r₁ k hr₀ hr₁ hk hk'
    rcases getElem?_concat_some hr₀ with hr₀ | rfl
    · rcases getElem?_concat_some hr₁ with hr₁ | rfl
      · exact h.distinct j j' r₀ r₁ k hr₀ hr₁ hk hk'
      · cases hk'
    · cases hk
  staged := forall_mem_concat h.staged ⟨rfl, rfl⟩
  linked := by
    intro reply hreply
    obtain ⟨r, hr, hlink⟩ := h.linked reply hreply
    exact ⟨r, List.mem_append_left _ hr, hlink⟩

/-! ### Runs -/

lemma linked_step {a : Action} (h : Linked s) (hok : noLaterReply s a = true)
    (hs : step sql s a = some s') : Linked s' := by
  cases effect_of_step hs with
  | request call => exact h.request call
  | missing hr _ _ | reread hr _ _ | fail hr _ => exact h.setStage hr trivial
  | @load i r message hr hstage _ =>
    exact h.setStage hr (staged_afterLoad (h.staged r (List.mem_of_getElem? hr)) hstage message)
  | insertLog hr hstage => exact h.insertLog hr hstage _
  | commitLog hr hstage => exact h.commitLog hr hstage
  | @sendFails i r message hr hstage =>
    have hstaged := h.staged r (List.mem_of_getElem? hr)
    simp only [Request.Staged, hstage] at hstaged
    have hsame : { r with stage := Stage.sent message } =
        { r with stage := Stage.sent message, wrote := none } := by rw [hstaged.1]
    rw [hsame]
    exact h.sendFails hr hstaged.2
  | @insertFails i r message row hr hstage =>
    have hstaged := h.staged r (List.mem_of_getElem? hr)
    simp only [Request.Staged, hstage] at hstaged
    exact h.sendFails hr hstaged.2.1
  | @findLog i r message hr hstage =>
    have hstaged := h.staged r (List.mem_of_getElem? hr)
    simp only [Request.Staged, hstage] at hstaged
    have hown := latestReplyLog_own h hr hstage hok
    exact h.setStage hr ⟨hstaged.1, hown⟩
  | saveReply hr _ hstage => exact h.saveReply hr hstage _ _ _
  | @write i r message reread row hr _ _ =>
    have hover : Linked (s.setRequest i { r with stage := .over }) := h.setStage hr trivial
    exact ⟨hover.issued, hover.distinct, hover.staged, hover.linked⟩
  | otherMail _ => exact h.otherMail _ _

/-- In every interleaving that meets the condition each stored reply refers to the row that its own
`send` wrote, to none if it wrote none, and no two replies refer to the same row. -/
theorem replies_own_mail {messages : ContactMessages} {mailLog : Mail.MailLogs} {nextLogId : ℕ}
    (h : Reach (step sql) (fun s a => noLaterReply s a = true)
      (State.init messages mailLog nextLogId) s) :
    (∀ reply ∈ s.replies.rows, ∃ r ∈ s.requests,
      r.stored = some reply.id ∧ reply.mailLogId = r.wrote) ∧
    ∀ reply ∈ s.replies.rows, ∀ reply' ∈ s.replies.rows, ∀ k,
      reply.mailLogId = some k → reply'.mailLogId = some k → reply = reply' := by
  have hlinked : Linked s := h.invariant (Linked.init messages mailLog nextLogId)
    fun _ _ _ hi hok hs => linked_step hi hok hs
  refine ⟨hlinked.linked, ?_⟩
  intro reply hreply reply' hreply' k hk hk'
  obtain ⟨r, hr, hstored, hlink⟩ := hlinked.linked reply hreply
  obtain ⟨r', hr', hstored', hlink'⟩ := hlinked.linked reply' hreply'
  obtain ⟨i, hi⟩ := List.mem_iff_getElem?.mp hr
  obtain ⟨j, hj⟩ := List.mem_iff_getElem?.mp hr'
  obtain rfl : i = j :=
    hlinked.distinct i j r r' k hi hj (hlink.symm.trans hk) (hlink'.symm.trans hk')
  obtain rfl : r = r' := Option.some.inj (hi.symm.trans hj)
  exact Table.eq_of_key hreply hreply' (Option.some.inj (hstored.symm.trans hstored'))

/-! ### Two replies to one message -/

/-- An inbox with one unread message, and an empty `mail_log`. -/
def oneMessage : State :=
  State.init ⟨[⟨1, "Sara", "sara@example.org", .unread, .ar, 0⟩], by decide⟩ Table.empty 1

def replyContent : Mail.MailContent :=
  ⟨some ⟨"Re", "html", "text"⟩, some ⟨"Re", "html", "text"⟩, true⟩

/-- One reply is stored before the next one begins. -/
def oneAfterAnother : List Action :=
  [.request (.reply "1" "first" 7), .load 0, .insertLog 0 replyContent, .commitLog 0, .findLog 0,
    .saveReply 0 10, .request (.reply "1" "second" 7), .load 1, .insertLog 1 replyContent,
    .commitLog 1, .findLog 1, .saveReply 1 20]

theorem replies_own_mail_sequential : ∃ s : State, s.replies.rows.length = 2 ∧
    ∀ reply ∈ s.replies.rows, ∀ reply' ∈ s.replies.rows, ∀ k,
      reply.mailLogId = some k → reply'.mailLogId = some k → reply = reply' := by
  obtain ⟨s, hrun, hlength⟩ := exists_of_run (guarded (step SqlNumeric.decimal) noLaterReply)
    oneMessage oneAfterAnother (P := fun s => s.replies.rows.length = 2) (by decide +kernel)
  exact ⟨s, hlength, (replies_own_mail (Reach.of_guarded hrun)).2⟩

/-- Both mails are written before either reply looks its own up. -/
def atOnce : List Action :=
  [.request (.reply "1" "first" 7), .request (.reply "1" "second" 8), .load 0, .load 1,
    .insertLog 0 replyContent, .commitLog 0, .insertLog 1 replyContent, .commitLog 1, .findLog 0,
    .findLog 1, .saveReply 0 10, .saveReply 1 10]

theorem replies_share_mail : ∃ s : State,
    run (step SqlNumeric.decimal) oneMessage atOnce = some s ∧
      s.requests.map Request.wrote = [some 1, some 2] ∧
      s.replies.rows.map MessageReply.mailLogId = [some 2, some 2] := by
  obtain ⟨s, hrun, hlinks⟩ := exists_of_run (step SqlNumeric.decimal) oneMessage atOnce
    (P := fun s => s.requests.map Request.wrote = [some 1, some 2] ∧
      s.replies.rows.map MessageReply.mailLogId = [some 2, some 2]) (by decide +kernel)
  exact ⟨s, hrun, hlinks⟩

end SafeerApi.Messages
