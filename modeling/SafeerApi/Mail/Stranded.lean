import SafeerApi.Mail.Delivery

/-!
# Mail whose content stays behind

The rendered content of a mail is stored with its row until the mail is sent or given up, so that a
retry survives a restart. A sweep takes up failed rows that have a time for their next retry. A row
that still is `queued` is taken up by nothing but the attempt at work on it.
-/

namespace SafeerApi.Mail.Stranded

open Common Lib Delivery

/-! ### Restarts -/

inductive Event where
  | act (action : Action)
  | restart

/-- A restart loses the copies in memory, the sweep and every attempt under way. -/
def step (sql : SqlNumeric) (s : State) : Event → Option State
  | .act action => Delivery.step sql s action
  | .restart => some { s with pending := [], sweep := none, attempts := .empty }

/-! ### Who takes care of a row -/

/-- A sweep will take the row up. -/
def isScheduled (row : MailLog) : Bool := row.status = .failed && row.nextRetryAt.isSome

/-- A `send` or an attempt is about row `n`. -/
def handles (sql : SqlNumeric) (n : ℕ) : Attempt → Bool
  | .asked _ | .checking _ _ | .read _ none => false
  | .written logId _ | .starting logId | .read logId (some _) | .sending logId _
  | .delivered logId _ | .recording logId _ | .givingUp logId => sql.rowId logId = some n

/-- The row has no content left, a sweep will take it up, or an attempt that meets `p` is about
it. -/
def isCovered (sql : SqlNumeric) (s : State) (p : ℕ → Bool) (row : MailLog) : Bool :=
  row.payload = none || isScheduled row ||
    s.attempts.rows.any fun x => p x.1 && handles sql row.id x.2

/-- The process restarts only when no row needs an attempt that would be lost; and an attempt ends
without writing its row only when the row is taken care of without it. -/
def leavesCovered (sql : SqlNumeric) (s : State) : Event → Bool
  | .restart => s.rows.rows.all (isCovered sql s fun _ => false)
  | .act (.transportThrows a) | .act (.readFails a) | .act (.updateFails a) =>
    s.rows.rows.all (isCovered sql s (· ≠ a))
  | _ => true

/-- From the time of its next retry on, each sweep finds a scheduled row. -/
lemma mem_dueRows {rows : MailLogs} {row : MailLog} (hrow : row ∈ rows.rows)
    (h : isScheduled row = true) :
    ∃ t, ∀ now, t ≤ now → toString row.id ∈ dueRows rows now := by
  simp only [isScheduled, Bool.and_eq_true, decide_eq_true_eq] at h
  obtain ⟨t, ht⟩ := Option.isSome_iff_exists.mp h.2
  refine ⟨t, fun now hnow => List.mem_map.mpr ⟨row, List.mem_filter.mpr ⟨hrow, ?_⟩, rfl⟩⟩
  simp [h.1, ht, hnow]

/-! ### The invariant -/

/-- What an attempt knows of its row still holds: content that was gone is gone, a planned failure
plans a retry or drops the content. -/
def Knows (sql : SqlNumeric) (rows : MailLogs) : Attempt → Prop
  | .read logId (some r) => ∃ row, findLog sql rows logId = some row ∧
    (r.payload = none → row.payload = none) ∧ (r.status = .sent → row.payload = none)
  | .givingUp logId => ∃ row, findLog sql rows logId = some row ∧ row.payload = none
  | .recording _ failure => failure.terminal = true ∨ failure.nextRetryAt.isSome = true
  | _ => True

structure Inv (sql : SqlNumeric) (rows : MailLogs) (attempts : Attempts) : Prop where
  covered : ∀ row ∈ rows.rows, row.payload ≠ none → isScheduled row = false →
    ∃ x ∈ attempts.rows, handles sql row.id x.2 = true
  sent : ∀ row ∈ rows.rows, row.status = .sent → row.payload = none
  knows : ∀ x ∈ attempts.rows, Knows sql rows x.2

section Frame

variable {sql : SqlNumeric} {rows : MailLogs} {attempts : Attempts} {a : ℕ} {x x' : Attempt}

lemma mem_of_findLog {logId : String} {row : MailLog} (h : findLog sql rows logId = some row) :
    row ∈ rows.rows ∧ sql.rowId logId = some row.id := by
  obtain ⟨n, hn, hfind⟩ := Option.bind_eq_some_iff.mp h
  obtain ⟨hrow, rfl⟩ := Table.find_eq_some.mp hfind
  exact ⟨hrow, hn⟩

lemma findLog_of_mem {logId : String} {row : MailLog} (hrow : row ∈ rows.rows)
    (hid : sql.rowId logId = some row.id) : findLog sql rows logId = some row := by
  rw [findLog, hid, Option.bind_some, Table.mem_iff_find.mp hrow]

/-- A further attempt. -/
lemma Inv.begin (h : Inv sql rows attempts) (hnew : attempts.find (a, x).1 = none)
    (hx : Knows sql rows x) : Inv sql rows (attempts.insert (a, x) hnew) := by
  refine ⟨?_, h.sent, ?_⟩
  · intro row hrow hpayload hscheduled
    obtain ⟨y, hy, hhandles⟩ := h.covered row hrow hpayload hscheduled
    exact ⟨y, (Table.mem_insert (h := hnew)).mpr (Or.inl hy), hhandles⟩
  · intro y hy
    rcases (Table.mem_insert (h := hnew)).mp hy with hy | rfl
    · exact h.knows y hy
    · exact hx

/-- An attempt that goes on with its row. -/
lemma Inv.continue (h : Inv sql rows attempts) (hx : (a, x) ∈ attempts.rows)
    (hkeep : ∀ row ∈ rows.rows, row.payload ≠ none → handles sql row.id x = true →
      handles sql row.id x' = true)
    (hx' : Knows sql rows x') : Inv sql rows (attempts.replace (a, x')) := by
  refine ⟨?_, h.sent, ?_⟩
  · intro row hrow hpayload hscheduled
    obtain ⟨y, hy, hhandles⟩ := h.covered row hrow hpayload hscheduled
    by_cases hkey : y.1 = a
    · obtain rfl := Table.eq_of_key hy hx hkey
      exact ⟨(a, x'), Table.mem_replace.mpr (Or.inl ⟨rfl, _, hx, rfl⟩),
        hkeep row hrow hpayload hhandles⟩
    · exact ⟨y, Table.mem_replace.mpr (Or.inr ⟨hy, hkey⟩), hhandles⟩
  · intro y hy
    rcases Table.mem_replace.mp hy with ⟨rfl, -⟩ | ⟨hy, -⟩
    · exact hx'
    · exact h.knows y hy

/-- An attempt that ends, with its row taken care of. -/
lemma Inv.finish (h : Inv sql rows attempts)
    (hleft : ∀ row ∈ rows.rows, row.payload ≠ none → isScheduled row = false →
      ∃ x ∈ attempts.rows, x.1 ≠ a ∧ handles sql row.id x.2 = true) :
    Inv sql rows (attempts.delete a) := by
  refine ⟨?_, h.sent, ?_⟩
  · intro row hrow hpayload hscheduled
    obtain ⟨y, hy, hne, hhandles⟩ := hleft row hrow hpayload hscheduled
    exact ⟨y, Table.mem_delete.mpr ⟨hy, hne⟩, hhandles⟩
  · intro y hy
    exact h.knows y (Table.mem_delete.mp hy).1

/-- An attempt whose own row needs none. -/
lemma Inv.finish_of_done (h : Inv sql rows attempts) (hx : (a, x) ∈ attempts.rows)
    (hdone : ∀ row ∈ rows.rows, handles sql row.id x = true → row.payload ≠ none →
      isScheduled row = true) : Inv sql rows (attempts.delete a) := by
  apply h.finish
  intro row hrow hpayload hscheduled
  obtain ⟨y, hy, hhandles⟩ := h.covered row hrow hpayload hscheduled
  refine ⟨y, hy, ?_, hhandles⟩
  intro hkey
  obtain rfl := Table.eq_of_key hy hx hkey
  rw [hdone row hrow hhandles hpayload] at hscheduled
  cases hscheduled

/-- What is known of a row stays known when content is only dropped. -/
lemma Knows.mono {rows' : MailLogs} (h : Knows sql rows x)
    (hkeep : ∀ logId row, findLog sql rows logId = some row →
      ∃ row', findLog sql rows' logId = some row' ∧ (row.payload = none → row'.payload = none)) :
    Knows sql rows' x := by
  cases x with
  | read logId row =>
    cases row with
    | none => trivial
    | some r =>
      obtain ⟨row, hrow, hpayload, hsent⟩ := h
      obtain ⟨row', hrow', hgone⟩ := hkeep logId row hrow
      exact ⟨row', hrow', fun hr => hgone (hpayload hr), fun hr => hgone (hsent hr)⟩
  | givingUp logId =>
    obtain ⟨row, hrow, hpayload⟩ := h
    obtain ⟨row', hrow', hgone⟩ := hkeep logId row hrow
    exact ⟨row', hrow', hgone hpayload⟩
  | recording logId failure => exact h
  | written logId rendered => trivial
  | asked logId => trivial
  | checking logId row => trivial
  | starting logId => trivial
  | sending logId k => trivial
  | delivered logId k => trivial

lemma Inv.update (h : Inv sql rows attempts) {logId : String} {f : MailLog → MailLog}
    {hf : ∀ row, (f row).id = row.id} (hgone : ∀ row, row.payload = none → (f row).payload = none)
    (hsent : ∀ row, (f row).status = .sent → (f row).payload = none)
    (hdone : ∀ row, findLog sql rows logId = some row → (f row).payload ≠ none →
      isScheduled (f row) = true) :
    Inv sql (updateLog sql rows logId f hf) attempts := by
  refine ⟨?_, ?_, ?_⟩
  · intro row' hrow' hpayload hscheduled
    obtain ⟨row, hrow, rfl⟩ := Table.mem_updateWhere.mp hrow'
    by_cases hid : sql.rowId logId = some row.id
    · simp only [hid, decide_true, if_true] at hpayload hscheduled
      rw [hdone row (findLog_of_mem hrow hid) hpayload] at hscheduled
      cases hscheduled
    · simp only [hid, decide_false, Bool.false_eq_true, if_false] at hpayload hscheduled ⊢
      exact h.covered row hrow hpayload hscheduled
  · intro row' hrow' hstatus
    obtain ⟨row, hrow, rfl⟩ := Table.mem_updateWhere.mp hrow'
    by_cases hid : sql.rowId logId = some row.id
    · simp only [hid, decide_true, if_true] at hstatus ⊢
      exact hsent row hstatus
    · simp only [hid, decide_false, Bool.false_eq_true, if_false] at hstatus ⊢
      exact h.sent row hrow hstatus
  · intro x hx
    apply (h.knows x hx).mono
    intro logId' row hrow
    obtain ⟨hmem, hid⟩ := mem_of_findLog hrow
    refine ⟨if sql.rowId logId = some row.id then f row else row, ?_, ?_⟩
    · rw [findLog, hid, Option.bind_some, updateLog, Table.find_updateWhere,
        Table.mem_iff_find.mp hmem, Option.map_some]
      simp
    · intro hpayload
      split
      · exact hgone row hpayload
      · exact hpayload

/-- The update of a row by the attempt that ends with it. -/
lemma Inv.update_finish (h : Inv sql rows attempts) (hx : (a, x) ∈ attempts.rows) {logId : String}
    (hlog : ∀ n, handles sql n x = true → decide (sql.rowId logId = some n) = true)
    {f : MailLog → MailLog} {hf : ∀ row, (f row).id = row.id}
    (hgone : ∀ row, row.payload = none → (f row).payload = none)
    (hsent : ∀ row, (f row).status = .sent → (f row).payload = none)
    (hdone : ∀ row, findLog sql rows logId = some row → (f row).payload ≠ none →
      isScheduled (f row) = true) :
    Inv sql (updateLog sql rows logId f hf) (attempts.delete a) := by
  apply (h.update hgone hsent hdone).finish_of_done hx
  intro row' hrow' hhandles hpayload
  obtain ⟨row, hrow, rfl⟩ := Table.mem_updateWhere.mp hrow'
  have hid : sql.rowId logId = some row.id := by
    have hid := of_decide_eq_true (hlog _ hhandles)
    split at hid
    · rw [hid, hf]
    · exact hid
  simp only [hid, decide_true, if_true] at hpayload ⊢
  exact hdone row (findLog_of_mem hrow hid) hpayload

/-- A new row without content to keep. -/
lemma Inv.insert (h : Inv sql rows attempts) {row : MailLog} (hnew : rows.find row.id = none)
    (hstatus : row.status ≠ .sent)
    (hcovered : row.payload ≠ none → ∃ x ∈ attempts.rows, handles sql row.id x.2 = true) :
    Inv sql (rows.insert row hnew) attempts := by
  refine ⟨?_, ?_, ?_⟩
  · intro row' hrow' hpayload hscheduled
    rcases (Table.mem_insert (h := hnew)).mp hrow' with hrow' | rfl
    · exact h.covered row' hrow' hpayload hscheduled
    · exact hcovered hpayload
  · intro row' hrow' hsent
    rcases (Table.mem_insert (h := hnew)).mp hrow' with hrow' | rfl
    · exact h.sent row' hrow' hsent
    · exact absurd hsent hstatus
  · intro x hx
    apply (h.knows x hx).mono
    intro logId row' hrow'
    obtain ⟨hmem, hid⟩ := mem_of_findLog hrow'
    exact ⟨row', findLog_of_mem ((Table.mem_insert (h := hnew)).mpr (Or.inl hmem)) hid, id⟩

end Frame

/-! ### One step -/

def State.Ok (sql : SqlNumeric) (s : State) : Prop := Inv sql s.rows s.attempts

variable {sql : SqlNumeric} {s s' : State}

/-- A row that keeps its content goes on to be delivered. -/
lemma toDeliver_of_payload {id : ℕ} {params : SendMailParams} {content : MailContent}
    (h : (newLog id params content).payload ≠ none) :
    toDeliver (newLog id params content) content ≠ none := by
  intro hnone
  apply h
  show (if (newLog id params content).status = .queued ∧ ¬params.sensitive then content.rendered
    else none) = none
  by_cases hstatus : (newLog id params content).status = .queued
  · rw [toDeliver, if_pos hstatus] at hnone
    rw [hnone, ite_self]
  · rw [if_neg fun hstored => hstatus hstored.1]

/-- What an attempt finds in its row when it does not go on to deliver. -/
lemma decideAttempt_spec (pending : Pending) (logId : String) (row : Option MailLog) :
    match decideAttempt pending logId row with
    | .nothing => ∀ r, row = some r → r.status = .sent
    | .giveUp | .leave => ∃ r, row = some r ∧ r.payload = none
    | .deliver _ _ => row.isSome = true := by
  cases row with
  | none => simp [decideAttempt]
  | some r =>
    by_cases hsent : r.status = .sent
    · simp [decideAttempt, hsent]
    · simp only [decideAttempt, if_neg hsent]
      cases hrendered : ((Pending.get pending logId).map PendingDelivery.rendered).or r.payload with
      | some rendered => rfl
      | none =>
        have hpayload : r.payload = none := (Option.or_eq_none_iff.mp hrendered).2
        dsimp only
        split_ifs <;> exact ⟨r, rfl, hpayload⟩

lemma failureOf_plans (attempts : ℕ) (error : String) (forceTerminal : Bool) (now : ℕ) :
    (failureOf attempts error forceTerminal now).terminal = true ∨
      (failureOf attempts error forceTerminal now).nextRetryAt.isSome = true := by
  simp only [failureOf]
  split
  · next h => exact Or.inl h
  · exact Or.inr rfl

/-- An attempt goes on with the same row. -/
lemma ok_continue {a : ℕ} {x x' : Attempt} {pending : Pending} (h : State.Ok sql s)
    (hat : s.at a = some x)
    (hkeep : ∀ n, handles sql n x = true → handles sql n x' = true) (hx' : Knows sql s.rows x') :
    State.Ok sql (({ s with pending := pending } : State).continue a x') :=
  Inv.continue h (mem_of_at hat) (fun row _ _ => hkeep row.id) hx'

/-- An attempt ends that its row does without. -/
lemma ok_of_leaves {a : ℕ} (h : State.Ok sql s)
    (hok : s.rows.rows.all (isCovered sql s (· ≠ a)) = true) : State.Ok sql (s.finish a) := by
  apply Inv.finish h
  intro row hrow hpayload hscheduled
  have hcovered := List.all_eq_true.mp hok row hrow
  simp only [isCovered, hpayload, hscheduled, decide_false, Bool.false_or, List.any_eq_true,
    Bool.and_eq_true, decide_eq_true_eq] at hcovered
  exact hcovered

/-- An attempt that finds no row had none to deliver. -/
lemma ok_read {a : ℕ} {logId : String} (h : State.Ok sql s) (hat : s.at a = some (.starting logId)) :
    State.Ok sql (s.continue a (.read logId (findLog sql s.rows logId))) := by
  cases hfind : findLog sql s.rows logId with
  | some r =>
    have hknows : Knows sql s.rows (.read logId (some r)) :=
      ⟨r, hfind, fun hr => hr, h.sent r (mem_of_findLog hfind).1⟩
    exact ok_continue h hat (fun _ hn => hn) hknows
  | none =>
    refine Inv.continue h (mem_of_at hat) ?_ trivial
    intro row hrow _ hhandles
    -- the row would have been found
    have hfound := findLog_of_mem hrow (of_decide_eq_true hhandles)
    exact absurd (hfind.symm.trans hfound) (by simp)

/-- An attempt leaves its row when there is no row or no content to deliver. -/
lemma ok_resume {a : ℕ} (h : State.Ok sql s) (hs : Delivery.step sql s (.resume a) = some s') :
    State.Ok sql s' := by
  have hgone : ∀ {logId row}, s.at a = some (.read logId row) →
      (∃ r, row = some r ∧ (r.payload = none ∨ r.status = .sent)) →
      ∃ row, findLog sql s.rows logId = some row ∧ row.payload = none := by
    rintro logId row hat ⟨r, rfl, hr⟩
    obtain ⟨row, hrow, hpayload, hsent⟩ := h.knows _ (mem_of_at hat)
    exact ⟨row, hrow, hr.elim hpayload hsent⟩
  have hdone : ∀ {logId row}, s.at a = some (.read logId row) →
      (∃ r, row = some r ∧ (r.payload = none ∨ r.status = .sent)) ∨ row = none →
      Inv sql s.rows (s.attempts.delete a) := by
    intro logId row hat hrow
    refine Inv.finish_of_done h (mem_of_at hat) ?_
    intro row' hrow' hhandles hpayload
    rcases hrow with hrow | rfl
    · obtain ⟨row₀, hfind, hnone⟩ := hgone hat hrow
      obtain ⟨r, rfl, -⟩ := hrow
      rw [findLog_of_mem hrow' (of_decide_eq_true hhandles)] at hfind
      cases hfind
      exact absurd hnone hpayload
    · cases hhandles
  cases effect_of_step hs with
  | @nothing _ logId row hat hdecide =>
    have hspec := decideAttempt_spec s.pending logId row
    rw [hdecide] at hspec
    apply hdone hat
    cases row with
    | none => exact Or.inr rfl
    | some r => exact Or.inl ⟨r, rfl, Or.inr (hspec r rfl)⟩
  | @leave _ logId row hat hdecide =>
    have hspec := decideAttempt_spec s.pending logId row
    rw [hdecide] at hspec
    obtain ⟨r, hr, hpayload⟩ := hspec
    exact hdone hat (Or.inl ⟨r, hr, Or.inl hpayload⟩)
  | @giveUpNext _ logId row hat hdecide =>
    have hspec := decideAttempt_spec s.pending logId row
    rw [hdecide] at hspec
    obtain ⟨r, hr, hpayload⟩ := hspec
    refine ok_continue h hat ?_ (hgone hat ⟨r, hr, Or.inl hpayload⟩)
    rw [hr]
    exact fun _ hn => hn
  | @deliverNext _ attempts logId row rendered hat hdecide =>
    have hspec := decideAttempt_spec s.pending logId row
    rw [hdecide] at hspec
    obtain ⟨r, hr⟩ := Option.isSome_iff_exists.mp hspec
    refine ok_continue h hat ?_ trivial
    rw [hr]
    exact fun _ hn => hn
  | sweep hsweep => cases hsweep
  | ends hends => cases hends

/-- A sent mail keeps no content. -/
lemma ok_recordSent {a attempts now : ℕ} {logId : String} (h : State.Ok sql s)
    (hat : s.at a = some (.delivered logId attempts)) :
    Inv sql (updateLog sql s.rows logId (.markSent attempts now) fun _ => rfl) (s.attempts.delete a) :=
  Inv.update_finish h (mem_of_at hat) (fun _ hn => hn) (fun _ _ => rfl) (fun _ _ => rfl)
    fun _ _ hpayload => absurd rfl hpayload

/-- A failed mail is taken up again, or keeps no content. -/
lemma ok_recordFailure {a : ℕ} {logId : String} {failure : Failure}
    (h : State.Ok sql s) (hat : s.at a = some (.recording logId failure)) :
    Inv sql (updateLog sql s.rows logId (.markFailed failure) fun _ => rfl) (s.attempts.delete a) := by
  have hplan := h.knows _ (mem_of_at hat)
  apply Inv.update_finish h (mem_of_at hat) fun _ hn => hn
  · intro row hpayload
    simp [MailLog.markFailed, hpayload]
  · intro row hstatus
    cases hstatus
  · intro row _ hpayload
    rcases hplan with hterminal | hplanned
    · simp [MailLog.markFailed, hterminal] at hpayload
    · simp [isScheduled, MailLog.markFailed, hplanned]

/-- A mail is given up because its content is gone. -/
lemma ok_giveUp {a : ℕ} {logId : String} (h : State.Ok sql s)
    (hat : s.at a = some (.givingUp logId)) :
    Inv sql (updateLog sql s.rows logId .markContentGone fun _ => rfl) (s.attempts.delete a) := by
  obtain ⟨row₀, hfind, hnone⟩ := h.knows _ (mem_of_at hat)
  apply Inv.update_finish h (mem_of_at hat) fun _ hn => hn
  · exact fun _ hpayload => hpayload
  · intro row hstatus
    cases hstatus
  · intro row hrow hpayload
    rw [hfind] at hrow
    cases hrow
    exact absurd hnone hpayload

lemma ok_act {action : Action} (h : State.Ok sql s)
    (hok : leavesCovered sql s (.act action) = true)
    (hs : Delivery.step sql s action = some s') : State.Ok sql s' := by
  cases effect_of_step hs with
  | sendQueued hnew _ hfree =>
    -- a row that keeps its content is written together with the attempt that delivers it
    refine Inv.insert (Inv.begin h hfree trivial) hnew (newLog_status _ _ _) fun _ => ?_
    exact ⟨_, (Table.mem_insert (h := hfree)).mpr (Or.inr rfl), decide_eq_true (sql.canonical _)⟩
  | sendSkipped hnew hdeliver =>
    refine Inv.insert h hnew (newLog_status _ _ _) fun hpayload => ?_
    exact absurd hdeliver (toDeliver_of_payload hpayload)
  | retry hfree | sweepNext _ _ hfree => exact Inv.begin h hfree trivial
  | queue hat | readRetry hat | deliver hat _ | deliverNobody hat _ =>
    exact ok_continue h hat (fun _ hn => hn) trivial
  | retryGoesOn hat _ => exact ok_continue h hat (fun _ hn => by cases hn) trivial
  | retryEnds hat => exact Inv.finish_of_done h (mem_of_at hat) fun _ _ hn => by cases hn
  | sweep _ => exact h
  | read hat => exact ok_read h hat
  | nothing _ _ | leave _ _ | giveUpNext _ _ | deliverNext _ _ => exact ok_resume h hs
  | noTransporter hat | refuse hat | sentFails hat =>
    exact ok_continue h hat (fun _ hn => hn) (failureOf_plans ..)
  | recordSent hat => exact ok_recordSent h hat
  | recordFailure hat => exact ok_recordFailure h hat
  | giveUp hat => exact ok_giveUp h hat
  | ends hends =>
    cases action with
    | transportThrows _ | readFails _ | updateFails _ =>
      cases hends
      exact ok_of_leaves h hok
    | _ => cases hends

lemma ok_step {e : Event} (h : State.Ok sql s) (hok : leavesCovered sql s e = true)
    (hs : step sql s e = some s') : State.Ok sql s' := by
  cases e with
  | act action => exact ok_act h hok hs
  | restart =>
    cases hs
    refine ⟨?_, h.sent, fun x hx => by cases hx⟩
    intro row hrow hpayload hscheduled
    have hcovered := List.all_eq_true.mp hok row hrow
    simp [isCovered, hpayload, hscheduled] at hcovered

/-- A step that does not leave its rows covered strands one. -/
theorem stranded_of_step {e : Event} (hbad : leavesCovered sql s e = false)
    (hs : step sql s e = some s') : ∃ row ∈ s'.rows.rows, row.payload ≠ none ∧
      isScheduled row = false ∧ ∀ x ∈ s'.attempts.rows, handles sql row.id x.2 = false := by
  have hrow : ∀ {p : ℕ → Bool}, s.rows.rows.all (isCovered sql s p) = false →
      ∃ row ∈ s.rows.rows, row.payload ≠ none ∧ isScheduled row = false ∧
        ∀ x ∈ s.attempts.rows, p x.1 = true → handles sql row.id x.2 = false := by
    intro p hall
    obtain ⟨row, hrow, hcovered⟩ := List.all_eq_false.mp hall
    simp only [isCovered, Bool.not_eq_true, Bool.or_eq_false_iff, decide_eq_false_iff_not] at hcovered
    refine ⟨row, hrow, hcovered.1.1, hcovered.1.2, ?_⟩
    intro x hx hp
    have hnone := List.any_eq_false.mp hcovered.2 x hx
    simpa [hp] using hnone
  have hfinish : ∀ {a : ℕ}, s.rows.rows.all (isCovered sql s (· ≠ a)) = false →
      ∃ row ∈ (s.finish a).rows.rows, row.payload ≠ none ∧ isScheduled row = false ∧
        ∀ x ∈ (s.finish a).attempts.rows, handles sql row.id x.2 = false := by
    intro a hall
    obtain ⟨row, hrow, hpayload, hscheduled, hnone⟩ := hrow hall
    refine ⟨row, hrow, hpayload, hscheduled, ?_⟩
    intro x hx
    obtain ⟨hx, hne⟩ := Table.mem_delete.mp hx
    exact hnone x hx (decide_eq_true hne)
  cases e with
  | restart =>
    cases hs
    obtain ⟨row, hrow, hpayload, hscheduled, -⟩ := hrow hbad
    exact ⟨row, hrow, hpayload, hscheduled, fun x hx => by cases hx⟩
  | act action =>
    cases action with
    | transportThrows a | readFails a | updateFails a =>
      simp only [step] at hs
      rw [step_of_ends rfl hs]
      exact hfinish hbad
    | _ => cases hbad

/-! ### Every run -/

/-- In every run in which no restart and no failing statement leaves a row behind, each row with
content is failed with a time for its next retry, or a `send` or an attempt is about it. -/
theorem covered_reach {rows : MailLogs}
    (hrows : ∀ row ∈ rows.rows, row.payload ≠ none →
      row.status = .failed ∧ row.nextRetryAt.isSome = true)
    (h : Reach (step sql) (fun s e => leavesCovered sql s e = true) (State.init rows) s)
    {row : MailLog} (hrow : row ∈ s.rows.rows) (hpayload : row.payload ≠ none) :
    (row.status = .failed ∧ row.nextRetryAt.isSome = true) ∨
      ∃ a x, s.at a = some x ∧ handles sql row.id x = true := by
  have hinit : State.Ok sql (State.init rows) := by
    refine ⟨?_, ?_, fun x hx => by cases hx⟩
    · intro row hrow hpayload hscheduled
      obtain ⟨hstatus, hnext⟩ := hrows row hrow hpayload
      simp [isScheduled, hstatus, hnext] at hscheduled
    · intro row hrow hsent
      by_contra hpayload
      rw [(hrows row hrow hpayload).1] at hsent
      cases hsent
  have hok : State.Ok sql s :=
    h.invariant (P := State.Ok sql) hinit fun _ _ _ hi hok hs => ok_step hi hok hs
  cases hscheduled : isScheduled row with
  | true =>
    simp only [isScheduled, Bool.and_eq_true, decide_eq_true_eq] at hscheduled
    exact Or.inl hscheduled
  | false =>
    obtain ⟨⟨a, x⟩, hx, hhandles⟩ := hok.covered row hrow hpayload hscheduled
    exact Or.inr ⟨a, x, at_of_mem hx, hhandles⟩

/-- A first attempt is refused, the process restarts, and the sweep of the new process is at the
retry. -/
def refusedThenRestarted : List Event :=
  [.act (.send 1 7 params content), .act (.queue 1), .act (.read 1), .act (.resume 1),
    .act (.refuse 1 "busy" 0), .act (.recordFailure 1), .restart, .act .sweepStart,
    .act (.sweepFind 60000), .act (.sweepNext 1), .act (.read 1), .act (.resume 1)]

theorem covered_reach_restarted : ∃ s : State, ∃ row ∈ s.rows.rows, row.payload ≠ none ∧
    ((row.status = .failed ∧ row.nextRetryAt.isSome = true) ∨
      ∃ a x, s.at a = some x ∧ handles .decimal row.id x = true) := by
  obtain ⟨s, hrun, hrow⟩ := exists_of_run (guarded (step .decimal) (leavesCovered .decimal))
    (State.init .empty) refusedThenRestarted
    (P := fun s => (s.rows.rows.any fun row => row.payload ≠ none) = true) (by decide +kernel)
  obtain ⟨row, hrow, hpayload⟩ := List.any_eq_true.mp hrow
  have hpayload : row.payload ≠ none := of_decide_eq_true hpayload
  refine ⟨s, row, hrow, hpayload, ?_⟩
  have hempty : ∀ row ∈ (Table.empty : MailLogs).rows, row.payload ≠ none →
      row.status = .failed ∧ row.nextRetryAt.isSome = true := fun _ h => by cases h
  exact covered_reach hempty (Reach.of_guarded hrun) hrow hpayload

/-- A row is left behind: the process restarts while the first attempt is under way. -/
def restartedMeanwhile : List Event := [.act (.send 1 7 params content), .act (.queue 1), .restart]

/-- The transport cannot be set up. -/
def transportThrows : List Event :=
  [.act (.send 1 7 params content), .act (.queue 1), .act (.read 1), .act (.resume 1),
    .act (.transportThrows 1)]

/-- The row cannot be read. -/
def readFails : List Event :=
  [.act (.send 1 7 params content), .act (.queue 1), .act (.readFails 1)]

/-- A refused delivery cannot be recorded. -/
def failureUnrecorded : List Event :=
  [.act (.send 1 7 params content), .act (.queue 1), .act (.read 1), .act (.resume 1),
    .act (.refuse 1 "busy" 0), .act (.updateFails 1)]

/-- Row 7 has content and is neither failed nor anyone's. -/
def IsStranded (s : State) : Prop :=
  (∃ row ∈ s.rows.rows, row.id = 7 ∧ row.payload ≠ none ∧ row.status = .queued) ∧
    s.attempts.rows.length = 0

theorem stranded :
    (∃ s, run (step .decimal) (State.init .empty) restartedMeanwhile = some s ∧ IsStranded s) ∧
    (∃ s, run (step .decimal) (State.init .empty) transportThrows = some s ∧ IsStranded s) ∧
    (∃ s, run (step .decimal) (State.init .empty) readFails = some s ∧ IsStranded s) ∧
    ∃ s, run (step .decimal) (State.init .empty) failureUnrecorded = some s ∧ IsStranded s := by
  simp only [IsStranded]
  refine ⟨?_, ?_, ?_, ?_⟩
  · exact exists_of_run (step .decimal) (State.init .empty) restartedMeanwhile (by decide +kernel)
  · exact exists_of_run (step .decimal) (State.init .empty) transportThrows (by decide +kernel)
  · exact exists_of_run (step .decimal) (State.init .empty) readFails (by decide +kernel)
  · exact exists_of_run (step .decimal) (State.init .empty) failureUnrecorded (by decide +kernel)

end SafeerApi.Mail.Stranded
