import SafeerApi.Lib.Joined
import SafeerApi.Mail.Stranded

/-!
# Automatic retries

Without manual retries, restarts and failing statements, the attempts on a row come one after
another, and what the row holds follows from their outcomes: three refusals are retried after 1, 5
and 15 minutes, and everything else ends the matter.
-/

namespace SafeerApi.Mail.Retries

open Common Lib Delivery

/-! ### Outcomes -/

/-- How an attempt that had a content to send came out. -/
inductive Outcome where
  | delivered
  | rejected (now : ℕ)
  | notConfigured
  deriving DecidableEq

/-- The outcomes of the attempts on each row, the latest first, and the content each mail was queued
with. -/
structure Traced where
  state : State
  outcomes : ℕ → List Outcome
  contents : ℕ → Option RenderedMail

/-- A process that starts with an empty `mail_log`. -/
def Traced.init : Traced := ⟨State.init .empty, fun _ => [], fun _ => none⟩

/-- The row or mail that an attempt is about. -/
def logIdOf : Attempt → String
  | .written logId _ | .asked logId | .checking logId _ | .starting logId | .read logId _
  | .sending logId _ | .delivered logId _ | .recording logId _ | .givingUp logId => logId

def Traced.note (sql : SqlNumeric) (t : Traced) (a : ℕ) (outcome : Outcome) : ℕ → List Outcome :=
  match (t.state.at a).bind fun x => sql.rowId (logIdOf x) with
  | some n => Function.update t.outcomes n (outcome :: t.outcomes n)
  | none => t.outcomes

def Traced.outcomesAfter (sql : SqlNumeric) (t : Traced) : Action → ℕ → List Outcome
  | .deliver a => t.note sql a .delivered
  | .refuse a _ now => t.note sql a (.rejected now)
  | .noTransporter a _ => t.note sql a .notConfigured
  | _ => t.outcomes

def Traced.contentsAfter (t : Traced) : Action → ℕ → Option RenderedMail
  | .send _ id params content =>
    Function.update t.contents id (toDeliver (newLog id params content) content)
  | _ => t.contents

def step (sql : SqlNumeric) (t : Traced) (action : Action) : Option Traced :=
  (Delivery.step sql t.state action).map fun s =>
    ⟨s, t.outcomesAfter sql action, t.contentsAfter action⟩

/-- No manual retry, and no statement but a sweep's search that fails. -/
def automatic : Action → Bool
  | .retry _ _ | .readRetry _ | .checkRetry _ | .readFails _ | .transportThrows _
  | .sentFails _ _ _ | .updateFails _ => false
  | _ => true

/-! ### What the outcomes make of a row -/

/-- After these outcomes there may be another attempt. -/
def Live (outcomes : List Outcome) : Prop :=
  outcomes.length < maxAttempts ∧ ∀ o ∈ outcomes, ∃ now, o = .rejected now

/-- The columns of a row after the outcomes of its attempts. -/
def Follows : List Outcome → MailLog → Prop
  | [], row => row.attempts = 0 ∧ row.nextRetryAt = none ∧
    (row.status = .queued ∨ (row.status = .skipped ∧ row.payload = none))
  | .delivered :: past, row => row.status = .sent ∧ row.attempts = past.length + 1 ∧
    row.nextRetryAt = none ∧ row.payload = none
  | .notConfigured :: past, row => row.status = .failed ∧ row.attempts = past.length + 1 ∧
    row.nextRetryAt = none ∧ row.payload = none
  | .rejected now :: past, row => row.status = .failed ∧ row.attempts = past.length + 1 ∧
    match retryDelaysMinutes[past.length]? with
    | some minutes => row.nextRetryAt = some (now + minutes * 60000)
    | none => row.nextRetryAt = none ∧ row.payload = none

/-- A row that is over has no content and no time for a retry; one that failed for now has a time. -/
structure Shaped (row : MailLog) : Prop where
  ended : row.status = .sent ∨ row.status = .skipped → row.payload = none ∧ row.nextRetryAt = none
  failed : row.status = .failed → (row.nextRetryAt.isSome = true ∧ row.attempts < maxAttempts) ∨
    (row.nextRetryAt = none ∧ row.payload = none)

lemma Follows.attempts_eq {outcomes : List Outcome} {row : MailLog} (h : Follows outcomes row) :
    row.attempts = outcomes.length := by
  cases outcomes with
  | nil => exact h.1
  | cons o past => cases o <;> exact h.2.1

/-- The delays run out with the attempts. -/
lemma retryDelays_eq_none {k : ℕ} : retryDelaysMinutes[k]? = none ↔ maxAttempts ≤ k + 1 := by
  rw [List.getElem?_eq_none_iff]
  simp only [maxAttempts]
  omega

lemma Follows.shaped {outcomes : List Outcome} {row : MailLog} (h : Follows outcomes row) :
    Shaped row := by
  cases outcomes with
  | nil =>
    obtain ⟨-, hnext, hqueued | ⟨hskipped, hpayload⟩⟩ := h
    · exact ⟨fun hover => by simp [hqueued] at hover, fun hfailed => by simp [hqueued] at hfailed⟩
    · exact ⟨fun _ => ⟨hpayload, hnext⟩, fun hfailed => by simp [hskipped] at hfailed⟩
  | cons o past =>
    cases o with
    | delivered =>
      obtain ⟨hsent, -, hnext, hpayload⟩ := h
      exact ⟨fun _ => ⟨hpayload, hnext⟩, fun hfailed => by simp [hsent] at hfailed⟩
    | notConfigured =>
      obtain ⟨hfailed, -, hnext, hpayload⟩ := h
      exact ⟨fun hover => by simp [hfailed] at hover, fun _ => Or.inr ⟨hnext, hpayload⟩⟩
    | rejected now =>
      obtain ⟨hfailed, hattempts, hplan⟩ := h
      refine ⟨fun hover => by simp [hfailed] at hover, fun _ => ?_⟩
      cases hdelay : retryDelaysMinutes[past.length]? with
      | none =>
        rw [hdelay] at hplan
        exact Or.inr hplan
      | some minutes =>
        rw [hdelay] at hplan
        have hlt : ¬maxAttempts ≤ past.length + 1 := fun hle => by
          rw [retryDelays_eq_none.mpr hle] at hdelay
          cases hdelay
        exact Or.inl ⟨by simp [hplan], by omega⟩

/-! ### The invariant -/

/-- The process has a copy of the content for another attempt. -/
def Kept (pending : Pending) (n : ℕ) (content : Option RenderedMail) : Prop :=
  ∃ e, Pending.get pending (toString n) = some e ∧ e.terminal = false ∧ content = some e.rendered

/-- The row may be attempted once more. -/
structure Ready (pending : Pending) (n : ℕ) (outcomes : List Outcome)
    (content : Option RenderedMail) (row : MailLog) : Prop where
  live : Live outcomes
  follows : Follows outcomes row
  unskipped : row.status ≠ .skipped
  kept : Kept pending n content

/-- What is known of a row in the stage of its attempt. The outcome comes before the update that
records it. -/
def At (pending : Pending) (n : ℕ) (outcomes : List Outcome) (content : Option RenderedMail)
    (row : MailLog) : Attempt → Prop
  | .written _ rendered =>
    outcomes = [] ∧ Follows [] row ∧ row.status = .queued ∧ content = some rendered
  | .starting _ => Ready pending n outcomes content row
  | .read _ r => r = some row ∧ Ready pending n outcomes content row
  | .sending _ k => k = outcomes.length + 1 ∧ Ready pending n outcomes content row
  | .delivered _ k => ∃ past, outcomes = .delivered :: past ∧ k = past.length + 1 ∧ Live past ∧
    Follows past row
  | .recording _ f => ∃ o past error now, outcomes = o :: past ∧ Live past ∧ Follows past row ∧
    Kept pending n content ∧
      ((o = .rejected now ∧ f = failureOf (past.length + 1) error false now) ∨
        (o = .notConfigured ∧ f = failureOf (past.length + 1) error true now))
  | .asked _ | .checking _ _ | .givingUp _ => False

/-- What is known of a row without an attempt. -/
structure Rest (pending : Pending) (n : ℕ) (outcomes : List Outcome)
    (content : Option RenderedMail) (row : MailLog) : Prop where
  follows : Follows outcomes row
  past : ∀ o past, outcomes = o :: past → Live past
  unqueued : row.status ≠ .queued
  kept : Live outcomes → row.status ≠ .skipped → Kept pending n content

/-- Each attempt is about a row of its own; those about failed rows are the sweep's, one at a time,
and so will be the attempts on the rows that it has found due. -/
structure Inv (rows : MailLogs) (pending : Pending) (sweep : Option Sweep) (attempts : Attempts)
    (outcomes : ℕ → List Outcome) (contents : ℕ → Option RenderedMail) : Prop where
  about : ∀ x ∈ attempts.rows, ∃ n row, logIdOf x.2 = toString n ∧ rows.find n = some row ∧
    At pending n (outcomes n) (contents n) row x.2
  alone : ∀ x ∈ attempts.rows, ∀ y ∈ attempts.rows, logIdOf x.2 = logIdOf y.2 → x.1 = y.1
  rest : ∀ n row, rows.find n = some row → (∀ x ∈ attempts.rows, logIdOf x.2 ≠ toString n) →
    Rest pending n (outcomes n) (contents n) row
  unstarted : ∀ n, rows.find n = none → outcomes n = []
  swept : ∀ x ∈ attempts.rows, ∀ n row, logIdOf x.2 = toString n → rows.find n = some row →
    row.status = .failed → ∃ due, sweep = some (.looping due (some x.1))
  due : ∀ due current, sweep = some (.looping due current) → due.Nodup ∧
    ∀ logId ∈ due, ∃ n row, logId = toString n ∧ rows.find n = some row ∧
      Stranded.isScheduled row = true ∧ ∀ x ∈ attempts.rows, logIdOf x.2 ≠ logId

def Traced.Ok (t : Traced) : Prop :=
  Inv t.state.rows t.state.pending t.state.sweep t.state.attempts t.outcomes t.contents

/-- A failed row with a time for its retry is ready for it. -/
lemma Rest.ready {pending : Pending} {n : ℕ} {outcomes : List Outcome}
    {content : Option RenderedMail} {row : MailLog} (h : Rest pending n outcomes content row)
    (hscheduled : Stranded.isScheduled row = true) : Ready pending n outcomes content row := by
  simp only [Stranded.isScheduled, Bool.and_eq_true, decide_eq_true_eq] at hscheduled
  obtain ⟨hfailed, hnext⟩ := hscheduled
  have hunskipped : row.status ≠ .skipped := by simp [hfailed]
  have hlive : Live outcomes := by
    have hfollows := h.follows
    cases outcomes with
    | nil => exact ⟨by decide, fun o ho => absurd ho List.not_mem_nil⟩
    | cons o past =>
      obtain ⟨-, hpast⟩ := h.past o past rfl
      cases o with
      | delivered =>
        rw [hfollows.2.2.1] at hnext
        cases hnext
      | notConfigured =>
        rw [hfollows.2.2.1] at hnext
        cases hnext
      | rejected now =>
        refine ⟨?_, fun o ho => ?_⟩
        · rw [List.length_cons, ← not_le]
          intro hle
          have hplan := hfollows.2.2
          rw [retryDelays_eq_none.mpr hle] at hplan
          rw [hplan.1] at hnext
          cases hnext
        · rcases List.mem_cons.mp ho with rfl | ho
          · exact ⟨now, rfl⟩
          · exact hpast o ho
  exact ⟨hlive, h.follows, hunskipped, h.kept hlive hunskipped⟩

section Frame

variable {rows rows' : MailLogs} {pending pending' : Pending} {sweep : Option Sweep}
  {attempts : Attempts} {outcomes outcomes' : ℕ → List Outcome}
  {contents : ℕ → Option RenderedMail} {a n : ℕ} {x x' : Attempt} {row row' : MailLog}

lemma At.mono {outcomes : List Outcome} {content : Option RenderedMail}
    (h : At pending n outcomes content row x)
    (hkept : Kept pending n content → Kept pending' n content) :
    At pending' n outcomes content row x := by
  have hready : Ready pending n outcomes content row → Ready pending' n outcomes content row :=
    fun hr => ⟨hr.live, hr.follows, hr.unskipped, hkept hr.kept⟩
  cases x with
  | written logId rendered => exact h
  | asked logId => exact h
  | checking logId r => exact h
  | starting logId => exact hready h
  | read logId r => exact ⟨h.1, hready h.2⟩
  | sending logId k => exact ⟨h.1, hready h.2⟩
  | delivered logId k => exact h
  | recording logId f =>
    obtain ⟨o, past, error, now, houtcomes, hlive, hfollows, hkeep, hf⟩ := h
    exact ⟨o, past, error, now, houtcomes, hlive, hfollows, hkept hkeep, hf⟩
  | givingUp logId => exact h

lemma Rest.mono {outcomes : List Outcome} {content : Option RenderedMail}
    (h : Rest pending n outcomes content row)
    (hkept : Kept pending n content → Kept pending' n content) :
    Rest pending' n outcomes content row :=
  ⟨h.follows, h.past, h.unqueued, fun hlive hstatus => hkept (h.kept hlive hstatus)⟩

/-- The attempt on a row goes on. Nothing about the other rows changes. -/
lemma Inv.continue (h : Inv rows pending sweep attempts outcomes contents)
    (hx : (a, x) ∈ attempts.rows) (hn : logIdOf x = toString n) (hlog : logIdOf x' = logIdOf x)
    (hkept : ∀ m, m ≠ n → ∀ c, Kept pending m c → Kept pending' m c)
    (houtcomes : ∀ m, m ≠ n → outcomes' m = outcomes m)
    (hself : ∀ row, rows.find n = some row → At pending n (outcomes n) (contents n) row x →
      At pending' n (outcomes' n) (contents n) row x') :
    Inv rows pending' sweep (attempts.replace (a, x')) outcomes' contents := by
  have hcases : ∀ y ∈ (attempts.replace (a, x')).rows,
      y = (a, x') ∨ (y ∈ attempts.rows ∧ y.1 ≠ a) :=
    fun y hy => (Table.mem_replace.mp hy).imp And.left id
  -- an attempt of another name is about another row
  have hother : ∀ y ∈ attempts.rows, y.1 ≠ a → logIdOf y.2 ≠ toString n := fun y hy hne heq =>
    hne (h.alone y hy (a, x) hx (heq.trans hn.symm))
  have hmem : ∀ m, m ≠ n → (∀ y ∈ (attempts.replace (a, x')).rows, logIdOf y.2 ≠ toString m) →
      ∀ y ∈ attempts.rows, logIdOf y.2 ≠ toString m := by
    intro m hm hnone y hy heq
    by_cases hya : y.1 = a
    · obtain rfl := Table.eq_of_key hy hx hya
      exact hm (toString_inj (heq.symm.trans hn))
    · exact hnone y (Table.mem_replace.mpr (Or.inr ⟨hy, hya⟩)) heq
  obtain ⟨n', row, hn', hrow, hat⟩ := h.about (a, x) hx
  obtain rfl : n = n' := toString_inj (hn.symm.trans hn')
  refine ⟨?_, ?_, ?_, ?_, ?_, ?_⟩
  · intro y hy
    rcases hcases y hy with rfl | ⟨hy, hya⟩
    · exact ⟨n, row, hlog.trans hn, hrow, hself row hrow hat⟩
    · obtain ⟨m, row₀, hm, hrow₀, hat₀⟩ := h.about y hy
      have hmn : m ≠ n := fun heq => hother y hy hya (heq ▸ hm)
      rw [← houtcomes m hmn] at hat₀
      exact ⟨m, row₀, hm, hrow₀, hat₀.mono (hkept m hmn _)⟩
  · intro y hy z hz heq
    rcases hcases y hy with rfl | ⟨hy, hya⟩ <;> rcases hcases z hz with rfl | ⟨hz, hza⟩
    · rfl
    · exact absurd (heq.symm.trans (hlog.trans hn)) (hother z hz hza)
    · exact absurd (heq.trans (hlog.trans hn)) (hother y hy hya)
    · exact h.alone y hy z hz heq
  · intro m row₀ hrow₀ hnone
    have hmn : m ≠ n := by
      rintro rfl
      exact hnone (a, x') (Table.mem_replace.mpr (Or.inl ⟨rfl, _, hx, rfl⟩)) (hlog.trans hn)
    rw [houtcomes m hmn]
    exact (h.rest m row₀ hrow₀ (hmem m hmn hnone)).mono (hkept m hmn _)
  · intro m hm
    have hmn : m ≠ n := by
      rintro rfl
      rw [hrow] at hm
      cases hm
    rw [houtcomes m hmn]
    exact h.unstarted m hm
  · intro y hy m row₀ hm hrow₀ hfailed
    rcases hcases y hy with rfl | ⟨hy, -⟩
    · exact h.swept (a, x) hx m row₀ (hlog.symm.trans hm) hrow₀ hfailed
    · exact h.swept y hy m row₀ hm hrow₀ hfailed
  · intro due current hsweep
    obtain ⟨hnodup, hdue⟩ := h.due due current hsweep
    refine ⟨hnodup, fun logId hlogId => ?_⟩
    obtain ⟨m, row₀, hm, hrow₀, hscheduled, hnone⟩ := hdue logId hlogId
    refine ⟨m, row₀, hm, hrow₀, hscheduled, fun y hy => ?_⟩
    rcases hcases y hy with rfl | ⟨hy, -⟩
    · intro heq
      exact hnone (a, x) hx (hlog.symm.trans heq)
    · exact hnone y hy

/-- The attempt on a row ends with an update of the row. -/
lemma Inv.finish (h : Inv rows pending sweep attempts outcomes contents)
    (hx : (a, x) ∈ attempts.rows) (hn : logIdOf x = toString n)
    (hrows : ∀ m, m ≠ n → rows'.find m = rows.find m) (hrow' : rows'.find n = some row')
    (hkept : ∀ m, m ≠ n → ∀ c, Kept pending m c → Kept pending' m c)
    (hrest : Rest pending' n (outcomes n) (contents n) row') :
    Inv rows' pending' sweep (attempts.delete a) outcomes contents := by
  have hother : ∀ y ∈ (attempts.delete a).rows, ∀ m, logIdOf y.2 = toString m → m ≠ n := by
    rintro y hy m hm rfl
    obtain ⟨hy, hya⟩ := Table.mem_delete.mp hy
    exact hya (h.alone y hy (a, x) hx (hm.trans hn.symm))
  refine ⟨?_, ?_, ?_, ?_, ?_, ?_⟩
  · intro y hy
    obtain ⟨m, row₀, hm, hrow₀, hat₀⟩ := h.about y (Table.mem_delete.mp hy).1
    have hmn := hother y hy m hm
    rw [← hrows m hmn] at hrow₀
    exact ⟨m, row₀, hm, hrow₀, hat₀.mono (hkept m hmn _)⟩
  · intro y hy z hz
    exact h.alone y (Table.mem_delete.mp hy).1 z (Table.mem_delete.mp hz).1
  · intro m row₀ hrow₀ hnone
    by_cases hmn : m = n
    · subst hmn
      obtain rfl := Option.some.inj (hrow₀.symm.trans hrow')
      exact hrest
    · rw [hrows m hmn] at hrow₀
      refine (h.rest m row₀ hrow₀ fun y hy heq => ?_).mono (hkept m hmn _)
      by_cases hya : y.1 = a
      · obtain rfl := Table.eq_of_key hy hx hya
        exact hmn (toString_inj (heq.symm.trans hn))
      · exact hnone y (Table.mem_delete.mpr ⟨hy, hya⟩) heq
  · intro m hm
    have hmn : m ≠ n := by
      rintro rfl
      rw [hrow'] at hm
      cases hm
    rw [hrows m hmn] at hm
    exact h.unstarted m hm
  · intro y hy m row₀ hm hrow₀ hfailed
    rw [hrows m (hother y hy m hm)] at hrow₀
    exact h.swept y (Table.mem_delete.mp hy).1 m row₀ hm hrow₀ hfailed
  · intro due current hsweep
    obtain ⟨hnodup, hdue⟩ := h.due due current hsweep
    refine ⟨hnodup, fun logId hlogId => ?_⟩
    obtain ⟨m, row₀, hm, hrow₀, hscheduled, hnone⟩ := hdue logId hlogId
    have hmn : m ≠ n := by
      rintro rfl
      exact hnone (a, x) hx (hn.trans hm.symm)
    refine ⟨m, row₀, hm, ?_, hscheduled, fun y hy => hnone y (Table.mem_delete.mp hy).1⟩
    rw [hrows m hmn]
    exact hrow₀

/-- No attempt is about a row that is not there. -/
lemma Inv.not_about (h : Inv rows pending sweep attempts outcomes contents)
    (hnew : rows.find n = none) : ∀ y ∈ attempts.rows, logIdOf y.2 ≠ toString n := by
  intro y hy heq
  obtain ⟨m, row₀, hm, hrow₀, -⟩ := h.about y hy
  rw [toString_inj (hm.symm.trans heq), hnew] at hrow₀
  cases hrow₀

/-- A row is written, with an attempt about it or with nothing to deliver. -/
lemma Inv.insert (h : Inv rows pending sweep attempts outcomes contents)
    (hnew : rows.find row.id = none) {content : Option RenderedMail} {attempts' : Attempts}
    (hsub : ∀ y ∈ attempts'.rows, y ∈ attempts.rows ∨
      (logIdOf y.2 = toString row.id ∧ At pending row.id [] content row y.2))
    (hsup : ∀ y ∈ attempts.rows, y ∈ attempts'.rows)
    (halone : ∀ y ∈ attempts'.rows, ∀ z ∈ attempts'.rows, logIdOf y.2 = toString row.id →
      logIdOf z.2 = toString row.id → y.1 = z.1)
    (hunfailed : row.status ≠ .failed)
    (hself : (∀ y ∈ attempts'.rows, logIdOf y.2 ≠ toString row.id) →
      Rest pending row.id [] content row) :
    Inv (rows.insert row hnew) pending sweep attempts' outcomes
      (Function.update contents row.id content) := by
  have hfind : ∀ m row₀, rows.find m = some row₀ →
      m ≠ row.id ∧ (rows.insert row hnew).find m = some row₀ := by
    intro m row₀ hrow₀
    have hm : m ≠ row.id := by
      rintro rfl
      rw [hnew] at hrow₀
      cases hrow₀
    exact ⟨hm, by rw [Table.find_insert, if_neg hm, hrow₀]⟩
  have hempty := h.unstarted row.id hnew
  refine ⟨?_, ?_, ?_, ?_, ?_, ?_⟩
  · intro y hy
    rcases hsub y hy with hy | ⟨hlog, hat⟩
    · obtain ⟨m, row₀, hm, hrow₀, hat₀⟩ := h.about y hy
      obtain ⟨hne, hrow₀⟩ := hfind m row₀ hrow₀
      rw [← Function.update_of_ne hne content contents] at hat₀
      exact ⟨m, row₀, hm, hrow₀, hat₀⟩
    · refine ⟨row.id, row, hlog, by rw [Table.find_insert, if_pos rfl], ?_⟩
      rw [hempty, Function.update_self]
      exact hat
  · intro y hy z hz heq
    rcases hsub y hy with hy₀ | ⟨hlog, -⟩
    · rcases hsub z hz with hz₀ | ⟨hlog, -⟩
      · exact h.alone y hy₀ z hz₀ heq
      · exact halone y hy z hz (heq.trans hlog) hlog
    · exact halone y hy z hz hlog (heq.symm.trans hlog)
  · intro m row₀ hrow₀ hnone
    rw [Table.find_insert] at hrow₀
    split_ifs at hrow₀ with hm
    · subst hm
      obtain rfl := Option.some.inj hrow₀
      rw [hempty, Function.update_self]
      exact hself hnone
    · rw [Function.update_of_ne hm]
      exact h.rest m row₀ hrow₀ fun y hy => hnone y (hsup y hy)
  · intro m hm
    rw [Table.find_insert] at hm
    split_ifs at hm
    exact h.unstarted m hm
  · intro y hy m row₀ hm hrow₀ hfailed
    rw [Table.find_insert] at hrow₀
    split_ifs at hrow₀ with hid
    · obtain rfl := Option.some.inj hrow₀
      exact absurd hfailed hunfailed
    · rcases hsub y hy with hy | ⟨hlog, -⟩
      · exact h.swept y hy m row₀ hm hrow₀ hfailed
      · exact absurd (toString_inj (hm.symm.trans hlog)) hid
  · intro due current hsweep
    obtain ⟨hnodup, hdue⟩ := h.due due current hsweep
    refine ⟨hnodup, fun logId hlogId => ?_⟩
    obtain ⟨m, row₀, hm, hrow₀, hscheduled, hnone⟩ := hdue logId hlogId
    obtain ⟨hne, hrow₀⟩ := hfind m row₀ hrow₀
    refine ⟨m, row₀, hm, hrow₀, hscheduled, fun y hy => ?_⟩
    rcases hsub y hy with hy | ⟨hlog, -⟩
    · exact hnone y hy
    · intro heq
      exact hne (toString_inj (hm.symm.trans (heq.symm.trans hlog)))

/-- The sweep takes up the next of its rows. -/
lemma Inv.sweepNext {logId : String} {due : List String} {current : Option ℕ}
    (h : Inv rows pending (some (.looping (logId :: due) current)) attempts outcomes contents)
    (hdone : ∀ b, current = some b → attempts.find b = none)
    (hnew : attempts.find (a, Attempt.starting logId).1 = none) :
    Inv rows pending (some (.looping due (some a))) (attempts.insert (a, .starting logId) hnew)
      outcomes contents := by
  obtain ⟨hnodup, hdue⟩ := h.due _ _ rfl
  obtain ⟨n, row, hn, hrow, hscheduled, hnone⟩ := hdue logId List.mem_cons_self
  have hcases : ∀ y ∈ (attempts.insert (a, .starting logId) hnew).rows,
      y ∈ attempts.rows ∨ y = (a, .starting logId) := fun y hy =>
    (Table.mem_insert (h := hnew)).mp hy
  have hrest := h.rest n row hrow fun y hy => hn ▸ hnone y hy
  refine ⟨?_, ?_, ?_, h.unstarted, ?_, ?_⟩
  · intro y hy
    rcases hcases y hy with hy | rfl
    · exact h.about y hy
    · exact ⟨n, row, hn, hrow, hrest.ready hscheduled⟩
  · intro y hy z hz heq
    rcases hcases y hy with hy | rfl <;> rcases hcases z hz with hz | rfl
    · exact h.alone y hy z hz heq
    · exact absurd heq (hnone y hy)
    · exact absurd heq.symm (hnone z hz)
    · rfl
  · intro m row₀ hrow₀ hno
    exact h.rest m row₀ hrow₀ fun y hy => hno y ((Table.mem_insert (h := hnew)).mpr (Or.inl hy))
  · intro y hy m row₀ hm hrow₀ hfailed
    rcases hcases y hy with hy | rfl
    · -- its attempt would still be the sweep's current one
      obtain ⟨due', hsweep⟩ := h.swept y hy m row₀ hm hrow₀ hfailed
      cases hsweep
      exact absurd rfl (Table.find_eq_none.mp (hdone y.1 rfl) y hy)
    · exact ⟨due, rfl⟩
  · intro due' current' hsweep
    cases hsweep
    obtain ⟨hfirst, hnodup⟩ := List.nodup_cons.mp hnodup
    refine ⟨hnodup, fun logId' hlogId' => ?_⟩
    obtain ⟨m, row₀, hm, hrow₀, hscheduled₀, hnone₀⟩ := hdue logId' (List.mem_cons_of_mem _ hlogId')
    refine ⟨m, row₀, hm, hrow₀, hscheduled₀, fun y hy => ?_⟩
    rcases hcases y hy with hy | rfl
    · exact hnone₀ y hy
    · intro heq
      exact hfirst ((show logId = logId' from heq) ▸ hlogId')

/-- The sweep begins or ends while no attempt is about a failed row. -/
lemma Inv.setSweep {sweep' : Option Sweep} (h : Inv rows pending sweep attempts outcomes contents)
    (hidle : ∀ y ∈ attempts.rows, ∀ due, sweep ≠ some (.looping due (some y.1)))
    (hdue : ∀ due current, sweep' = some (.looping due current) → due.Nodup ∧
      ∀ logId ∈ due, ∃ n row, logId = toString n ∧ rows.find n = some row ∧
        Stranded.isScheduled row = true) :
    Inv rows pending sweep' attempts outcomes contents := by
  have hunfailed : ∀ y ∈ attempts.rows, ∀ n row, logIdOf y.2 = toString n →
      rows.find n = some row → row.status ≠ .failed := by
    intro y hy n row hn hrow hfailed
    obtain ⟨due, hsweep⟩ := h.swept y hy n row hn hrow hfailed
    exact hidle y hy due hsweep
  refine ⟨h.about, h.alone, h.rest, h.unstarted, ?_, ?_⟩
  · intro y hy n row hn hrow hfailed
    exact absurd hfailed (hunfailed y hy n row hn hrow)
  · intro due current hsweep
    obtain ⟨hnodup, hdue⟩ := hdue due current hsweep
    refine ⟨hnodup, fun logId hlogId => ?_⟩
    obtain ⟨n, row, hn, hrow, hscheduled⟩ := hdue logId hlogId
    refine ⟨n, row, hn, hrow, hscheduled, fun y hy heq => ?_⟩
    simp only [Stranded.isScheduled, Bool.and_eq_true, decide_eq_true_eq] at hscheduled
    exact hunfailed y hy n row (heq.trans hn) hrow hscheduled.1

end Frame

/-! ### Statements -/

section Step

variable {sql : SqlNumeric} {t t' : Traced} {s' : State} {a n : ℕ} {x : Attempt}

lemma note_eq (hat : t.state.at a = some x) (hn : logIdOf x = toString n) (o : Outcome) :
    t.note sql a o = Function.update t.outcomes n (o :: t.outcomes n) := by
  simp only [Traced.note, hat, Option.bind_some, hn, sql.canonical]

lemma follows_newLog (id : ℕ) (params : SendMailParams) (content : MailContent) :
    Follows [] (newLog id params content) := by
  refine ⟨rfl, rfl, ?_⟩
  simp only [newLog]
  split_ifs <;> simp_all

/-- A queued mail goes on to be delivered. -/
lemma toDeliver_newLog (id : ℕ) (params : SendMailParams) (content : MailContent) :
    match toDeliver (newLog id params content) content with
    | some _ => (newLog id params content).status = .queued
    | none => (newLog id params content).status = .skipped := by
  simp only [toDeliver]
  split_ifs with hqueued
  · have hrendered : content.rendered.isSome = true := by
      simp only [newLog] at hqueued
      split_ifs at hqueued with hcond
      simp only [not_or, Option.isNone_iff_eq_none] at hcond
      exact Option.isSome_iff_ne_none.mpr hcond.2.2
    obtain ⟨rendered, hrendered⟩ := Option.isSome_iff_exists.mp hrendered
    rw [hrendered]
    exact hqueued
  · rcases (follows_newLog id params content).2.2 with h | ⟨h, -⟩
    · exact absurd h hqueued
    · exact h

lemma ok_send {id : ℕ} {params : SendMailParams} {content : MailContent} (h : t.Ok)
    (hs : Delivery.step sql t.state (.send a id params content) = some s') :
    Inv s'.rows s'.pending s'.sweep s'.attempts t.outcomes
      (Function.update t.contents id (toDeliver (newLog id params content) content)) := by
  have hspec := toDeliver_newLog id params content
  have hunfailed : (newLog id params content).status ≠ .failed := by
    rcases (follows_newLog id params content).2.2 with h | ⟨h, -⟩ <;> simp [h]
  simp only [Delivery.step] at hs
  split_ifs at hs with hnew
  have hnone := Inv.not_about h hnew
  split at hs
  · next rendered hdeliver =>
    rw [hdeliver] at hspec ⊢
    simp only [State.begin] at hs
    split_ifs at hs with hfree
    cases hs
    have hcases : ∀ y ∈ (t.state.attempts.insert (a, .written (toString id) rendered) hfree).rows,
        y ∈ t.state.attempts.rows ∨ y = (a, .written (toString id) rendered) := fun y hy =>
      (Table.mem_insert (h := hfree)).mp hy
    have honly : ∀ y ∈ (t.state.attempts.insert (a, .written (toString id) rendered) hfree).rows,
        logIdOf y.2 = toString id → y.1 = a := by
      intro y hy heq
      rcases hcases y hy with hy | rfl
      · exact absurd heq (hnone y hy)
      · rfl
    refine Inv.insert h hnew ?_ ?_ ?_ hunfailed ?_
    · intro y hy
      rcases hcases y hy with hy | rfl
      · exact Or.inl hy
      · exact Or.inr ⟨rfl, rfl, follows_newLog id params content, hspec, rfl⟩
    · exact fun y hy => (Table.mem_insert (h := hfree)).mpr (Or.inl hy)
    · exact fun y hy z hz hylog hzlog => (honly y hy hylog).trans (honly z hz hzlog).symm
    · intro hno
      exact absurd rfl (hno _ ((Table.mem_insert (h := hfree)).mpr (Or.inr rfl)))
  · next hdeliver =>
    rw [hdeliver] at hspec ⊢
    cases hs
    refine Inv.insert h hnew (fun y hy => Or.inl hy) (fun y hy => hy) ?_ hunfailed ?_
    · exact fun y hy z _ hylog => absurd hylog (hnone y hy)
    · intro _
      exact ⟨follows_newLog id params content, (fun o past heq => by cases heq),
        by simp [hspec], fun _ hunskipped => absurd hspec hunskipped⟩

/-- Only the entry of row `n` changes. -/
lemma kept_set {pending : Pending} {m : ℕ} {e : PendingDelivery} {c : Option RenderedMail}
    (hm : m ≠ n) (h : Kept pending m c) :
    Kept (Pending.set (evictIfAtCapacity pending) (toString n) e) m c := by
  obtain ⟨e', he', hlive, hc⟩ := h
  refine ⟨e', ?_, hlive, hc⟩
  rw [Pending.get_set, if_neg fun heq => hm (toString_inj heq)]
  exact get_evictIfAtCapacity he' hlive

lemma kept_delete {pending : Pending} {m : ℕ} {c : Option RenderedMail} (hm : m ≠ n)
    (h : Kept pending m c) : Kept (Pending.delete pending (toString n)) m c := by
  obtain ⟨e, he, hlive, hc⟩ := h
  exact ⟨e, by rw [Pending.get_delete_of_ne fun heq => hm (toString_inj heq), he], hlive, hc⟩

lemma kept_reschedule {pending : Pending} {m : ℕ} {f : Failure} {c : Option RenderedMail}
    (hm : m ≠ n) (h : Kept pending m c) : Kept (reschedule pending (toString n) f) m c := by
  obtain ⟨e, he, hlive, hc⟩ := h
  exact ⟨e, by rw [get_reschedule, if_neg fun heq => hm (toString_inj heq), he], hlive, hc⟩

lemma kept_reschedule_self {pending : Pending} {f : Failure} {c : Option RenderedMail}
    (hf : f.terminal = false) (h : Kept pending n c) :
    Kept (reschedule pending (toString n) f) n c := by
  obtain ⟨e, he, -, hc⟩ := h
  exact ⟨{ e with nextRetryAt := f.nextRetryAt, terminal := f.terminal },
    by rw [get_reschedule, if_pos rfl, he, Option.map_some], hf, hc⟩

/-- Another attempt on a row that is ready has the content the mail was queued with. -/
lemma Ready.decide {pending : Pending} {outcomes : List Outcome} {content : Option RenderedMail}
    {row : MailLog} (h : Ready pending n outcomes content row) :
    ∃ rendered, content = some rendered ∧ (Pending.get pending (toString n)).isSome = true ∧
      decideAttempt pending (toString n) (some row) = .deliver (outcomes.length + 1) rendered := by
  obtain ⟨e, he, -, hcontent⟩ := h.kept
  have hunsent : row.status ≠ .sent := by
    have hfollows := h.follows
    cases outcomes with
    | nil => rcases hfollows.2.2 with hstatus | ⟨hstatus, -⟩ <;> simp [hstatus]
    | cons o past =>
      obtain ⟨now, rfl⟩ := h.live.2 o List.mem_cons_self
      simp [hfollows.1]
  refine ⟨e.rendered, hcontent, by rw [he]; rfl, ?_⟩
  simp only [decideAttempt, if_neg hunsent, he, Option.map_some, Option.some_or,
    h.follows.attempts_eq]

lemma ok_queue (h : t.Ok) (hs : Delivery.step sql t.state (.queue a) = some s') :
    Inv s'.rows s'.pending s'.sweep s'.attempts t.outcomes t.contents := by
  simp only [Delivery.step] at hs
  split at hs
  · next logId rendered hat =>
    cases hs
    obtain ⟨n, row, hn, hrow, -⟩ := Inv.about h _ (mem_of_at hat)
    obtain rfl : logId = toString n := hn
    refine Inv.continue h (mem_of_at hat) rfl rfl (fun m hm c => kept_set hm) (fun _ _ => rfl) ?_
    rintro row - ⟨hempty, hfollows, hqueued, hcontent⟩
    rw [hempty]
    refine ⟨⟨by decide, fun o ho => absurd ho List.not_mem_nil⟩, hfollows, by simp [hqueued], ?_⟩
    exact ⟨⟨rendered, none, false⟩, Pending.get_set.trans (if_pos rfl), rfl, hcontent⟩
  · cases hs

lemma ok_read (h : t.Ok) (hs : Delivery.step sql t.state (.read a) = some s') :
    Inv s'.rows s'.pending s'.sweep s'.attempts t.outcomes t.contents := by
  simp only [Delivery.step] at hs
  split at hs
  · next logId hat =>
    cases hs
    obtain ⟨n, row, hn, hrow, -⟩ := Inv.about h _ (mem_of_at hat)
    obtain rfl : logId = toString n := hn
    refine Inv.continue h (mem_of_at hat) rfl rfl (fun m hm c => id) (fun _ _ => rfl) ?_
    intro row hrow hready
    refine ⟨?_, hready⟩
    have hfound : t.state.rows.find n = some row := hrow
    rw [findLog, sql.canonical, Option.bind_some, hfound]
  · cases hs

/-- What an attempt read is still there, and is delivered. -/
lemma ok_resume (h : t.Ok) (hs : Delivery.step sql t.state (.resume a) = some s') :
    Inv s'.rows s'.pending s'.sweep s'.attempts t.outcomes t.contents := by
  simp only [Delivery.step] at hs
  split at hs
  · next logId r hat =>
    obtain ⟨n, row, hn, hrow, hr, hready⟩ := Inv.about h _ (mem_of_at hat)
    obtain rfl : logId = toString n := hn
    obtain ⟨rendered, -, hsome, hdecide⟩ := hready.decide
    rw [hr, hdecide] at hs
    simp only [keepRendered, hsome, if_true] at hs
    cases hs
    refine Inv.continue h (mem_of_at hat) rfl rfl (fun m hm c => id) (fun _ _ => rfl) ?_
    exact fun row _ hat => ⟨rfl, hat.2⟩
  · cases hs

/-- The transport is done with a mail, one way or another. -/
lemma ok_outcome (h : t.Ok) {logId : String} {k : ℕ} {x' : Attempt} {o : Outcome}
    (hat : t.state.at a = some (.sending logId k)) (hlog : logIdOf x' = logId)
    (hself : ∀ n row, k = (t.outcomes n).length + 1 →
      Ready t.state.pending n (t.outcomes n) (t.contents n) row →
      At t.state.pending n (o :: t.outcomes n) (t.contents n) row x') :
    Inv t.state.rows t.state.pending t.state.sweep (t.state.attempts.replace (a, x'))
      (t.note sql a o) t.contents := by
  obtain ⟨n, row, hn, hrow, hk, hready⟩ := Inv.about h _ (mem_of_at hat)
  obtain rfl : logId = toString n := hn
  rw [note_eq hat rfl]
  refine Inv.continue h (mem_of_at hat) rfl hlog (fun m hm c => id) ?_ ?_
  · exact fun m hm => Function.update_of_ne hm _ _
  · intro row _ hat
    rw [Function.update_self]
    exact hself n row hat.1 hat.2

lemma ok_recordSent {now : ℕ} (h : t.Ok)
    (hs : Delivery.step sql t.state (.recordSent a now) = some s') :
    Inv s'.rows s'.pending s'.sweep s'.attempts t.outcomes t.contents := by
  simp only [Delivery.step] at hs
  split at hs
  · next logId k hat =>
    cases hs
    obtain ⟨n, row, hn, hrow, past, houtcomes, hk, hlive, hfollows⟩ :=
      Inv.about h _ (mem_of_at hat)
    obtain rfl : logId = toString n := hn
    have hfind : ∀ m,
        (updateLog sql t.state.rows (toString n) (.markSent k now) fun _ => rfl).find m =
          if m = n then (t.state.rows.find m).map (.markSent k now) else t.state.rows.find m :=
      fun m => find_updateLog n m
    have hself := (hfind n).trans (by rw [if_pos rfl, hrow, Option.map_some])
    refine Inv.finish h (mem_of_at hat) rfl ?_ hself (fun m hm c => kept_delete hm) ?_
    · exact fun m hm => (hfind m).trans (if_neg hm)
    · rw [houtcomes]
      refine ⟨⟨rfl, hk, rfl, rfl⟩, ?_, by simp [MailLog.markSent], ?_⟩
      · rintro o past' heq
        cases heq
        exact hlive
      · intro hlive'
        obtain ⟨now', heq⟩ := hlive'.2 .delivered List.mem_cons_self
        cases heq
  · cases hs

/-- A refusal is written with its delay, or as the last one. -/
lemma follows_markFailed (past : List Outcome) (error : String) (now : ℕ) (row : MailLog) :
    Follows (.rejected now :: past)
      (row.markFailed (failureOf (past.length + 1) error false now)) := by
  refine ⟨rfl, rfl, ?_⟩
  cases hdelay : retryDelaysMinutes[past.length]? with
  | none =>
    have hle := retryDelays_eq_none.mp hdelay
    simp [MailLog.markFailed, failureOf, hle]
  | some minutes =>
    have hlt : ¬maxAttempts ≤ past.length + 1 := fun hle => by
      rw [retryDelays_eq_none.mpr hle] at hdelay
      cases hdelay
    simp [MailLog.markFailed, failureOf, hlt, hdelay]

lemma ok_recordFailure (h : t.Ok)
    (hs : Delivery.step sql t.state (.recordFailure a) = some s') :
    Inv s'.rows s'.pending s'.sweep s'.attempts t.outcomes t.contents := by
  simp only [Delivery.step] at hs
  split at hs
  · next logId f hat =>
    cases hs
    obtain ⟨n, row, hn, hrow, o, past, error, now, houtcomes, hlive, hfollows, hkept, hf⟩ :=
      Inv.about h _ (mem_of_at hat)
    obtain rfl : logId = toString n := hn
    have hfind : ∀ m,
        (updateLog sql t.state.rows (toString n) (.markFailed f) fun _ => rfl).find m =
          if m = n then (t.state.rows.find m).map (.markFailed f) else t.state.rows.find m :=
      fun m => find_updateLog n m
    have hself := (hfind n).trans (by rw [if_pos rfl, hrow, Option.map_some])
    refine Inv.finish h (mem_of_at hat) rfl ?_ hself (fun m hm c => kept_reschedule hm) ?_
    · exact fun m hm => (hfind m).trans (if_neg hm)
    · rw [houtcomes]
      have hpast : ∀ o' past', o :: past = o' :: past' → Live past' := by
        rintro o' past' heq
        cases heq
        exact hlive
      rcases hf with ⟨rfl, rfl⟩ | ⟨rfl, rfl⟩
      · refine ⟨follows_markFailed past error now row, hpast, by simp [MailLog.markFailed], ?_⟩
        intro hlive' _
        have hlt : ¬maxAttempts ≤ past.length + 1 := not_le.mpr hlive'.1
        exact kept_reschedule_self (by simp [failureOf, hlt]) hkept
      · refine ⟨⟨rfl, rfl, rfl, rfl⟩, hpast, by simp [MailLog.markFailed], ?_⟩
        intro hlive'
        obtain ⟨now', heq⟩ := hlive'.2 .notConfigured List.mem_cons_self
        cases heq
  · cases hs

/-- The rows that a sweep finds, each once. -/
lemma nodup_dueRows (rows : MailLogs) (now : ℕ) : (dueRows rows now).Nodup := by
  have hids : (rows.rows.map MailLog.id).Nodup := rows.nodup
  have hfiltered : ((rows.rows.filter fun row =>
      row.status = .failed && row.nextRetryAt.any (· ≤ now)).map MailLog.id).Nodup :=
    hids.sublist (List.filter_sublist.map _)
  have hnames := hfiltered.map fun n m heq => toString_inj heq
  rwa [List.map_map] at hnames

lemma scheduled_of_mem_dueRows {rows : MailLogs} {now : ℕ} {logId : String}
    (h : logId ∈ dueRows rows now) : ∃ n row, logId = toString n ∧ rows.find n = some row ∧
      Stranded.isScheduled row = true := by
  obtain ⟨row, hrow, rfl⟩ := List.mem_map.mp h
  obtain ⟨hmem, hdue⟩ := List.mem_filter.mp hrow
  rw [Bool.and_eq_true, decide_eq_true_eq] at hdue
  obtain ⟨t, ht, -⟩ := (Option.any_eq_true _ _).mp hdue.2
  exact ⟨row.id, row, rfl, Table.mem_iff_find.mp hmem, by simp [Stranded.isScheduled, hdue.1, ht]⟩

lemma ok_sweep (h : t.Ok) {action : Action} (hauto : action = .sweepStart ∨
      (∃ now, action = .sweepFind now) ∨ action = .sweepEnd ∨ action = .sweepFail)
    (hs : Delivery.step sql t.state action = some s') :
    Inv s'.rows s'.pending s'.sweep s'.attempts t.outcomes t.contents := by
  rcases hauto with rfl | ⟨now, rfl⟩ | rfl | rfl
  · simp only [Delivery.step] at hs
    split at hs
    · next hsweep =>
      cases hs
      exact Inv.setSweep h (fun y _ due => by rw [hsweep]; simp) fun due current heq => by cases heq
    · cases hs; exact h
  · simp only [Delivery.step] at hs
    split at hs
    · next hsweep =>
      cases hs
      refine Inv.setSweep h (fun y _ due => by rw [hsweep]; simp) fun due current heq => ?_
      cases heq
      exact ⟨nodup_dueRows _ now, fun logId hlogId => scheduled_of_mem_dueRows hlogId⟩
    · cases hs
  · simp only [Delivery.step] at hs
    split at hs
    · next current hsweep =>
      split_ifs at hs with hdone
      cases hs
      refine Inv.setSweep h (fun y hy due heq => ?_) fun due current heq => by cases heq
      rw [hsweep] at heq
      cases heq
      simp only [State.currentDone, Option.all_some, Option.isNone_iff_eq_none] at hdone
      exact Table.find_eq_none.mp hdone y hy rfl
    · cases hs
  · simp only [Delivery.step] at hs
    split at hs
    · next hsweep =>
      cases hs
      exact Inv.setSweep h (fun y _ due => by rw [hsweep]; simp) fun due current heq => by cases heq
    · cases hs

lemma ok_sweepNext (h : t.Ok) (hs : Delivery.step sql t.state (.sweepNext a) = some s') :
    Inv s'.rows s'.pending s'.sweep s'.attempts t.outcomes t.contents := by
  simp only [Delivery.step] at hs
  split at hs
  · next logId due current hsweep =>
    split_ifs at hs with hdone
    simp only [State.begin] at hs
    split_ifs at hs with hnew
    cases hs
    have hinv := h
    rw [Traced.Ok, hsweep] at hinv
    refine hinv.sweepNext (fun b hb => ?_) hnew
    simpa [State.currentDone, hb] using hdone
  · cases hs

/-- The mail is with the transport. -/
lemma ok_sending {action : Action} (h : t.Ok)
    (haction : action = .deliver a ∨ (∃ message now, action = .refuse a message now) ∨
      ∃ now, action = .noTransporter a now)
    (hs : Delivery.step sql t.state action = some s') :
    Inv s'.rows s'.pending s'.sweep s'.attempts (t.outcomesAfter sql action) t.contents := by
  rcases haction with rfl | ⟨message, now, rfl⟩ | ⟨now, rfl⟩
  · simp only [Delivery.step] at hs
    split at hs
    · next logId k hat =>
      have hdelivered : Inv t.state.rows t.state.pending t.state.sweep
          (t.state.attempts.replace (a, .delivered logId k)) (t.note sql a .delivered)
          t.contents := by
        apply ok_outcome h hat rfl
        exact fun n row hk hready => ⟨t.outcomes n, rfl, hk, hready.live, hready.follows⟩
      split at hs <;> cases hs <;> exact hdelivered
    · cases hs
  · simp only [Delivery.step] at hs
    split at hs
    · next logId k hat =>
      cases hs
      apply ok_outcome h hat rfl
      rintro n row rfl hready
      exact ⟨.rejected now, t.outcomes n, message, now, rfl, hready.live, hready.follows,
        hready.kept, Or.inl ⟨rfl, rfl⟩⟩
    · cases hs
  · simp only [Delivery.step] at hs
    split at hs
    · next logId k hat =>
      cases hs
      apply ok_outcome h hat rfl
      rintro n row rfl hready
      exact ⟨.notConfigured, t.outcomes n, _, now, rfl, hready.live, hready.follows,
        hready.kept, Or.inr ⟨rfl, rfl⟩⟩
    · cases hs

lemma ok_step {action : Action} (h : t.Ok) (hauto : automatic action = true)
    (ht : step sql t action = some t') : t'.Ok := by
  obtain ⟨s', hs, rfl⟩ := Option.map_eq_some_iff.mp ht
  change Inv s'.rows s'.pending s'.sweep s'.attempts (t.outcomesAfter sql action)
    (t.contentsAfter action)
  cases action with
  | send a id params content => exact ok_send h hs
  | queue a => exact ok_queue h hs
  | sweepStart => exact ok_sweep h (Or.inl rfl) hs
  | sweepFind now => exact ok_sweep h (Or.inr (Or.inl ⟨now, rfl⟩)) hs
  | sweepNext a => exact ok_sweepNext h hs
  | sweepEnd => exact ok_sweep h (Or.inr (Or.inr (Or.inl rfl))) hs
  | sweepFail => exact ok_sweep h (Or.inr (Or.inr (Or.inr rfl))) hs
  | read a => exact ok_read h hs
  | resume a => exact ok_resume h hs
  | noTransporter a now => exact ok_sending h (Or.inr (Or.inr ⟨now, rfl⟩)) hs
  | deliver a => exact ok_sending h (Or.inl rfl) hs
  | refuse a message now => exact ok_sending h (Or.inr (Or.inl ⟨message, now, rfl⟩)) hs
  | recordSent a now => exact ok_recordSent h hs
  | recordFailure a => exact ok_recordFailure h hs
  | giveUp a =>
    -- no attempt finds its content gone
    simp only [Delivery.step] at hs
    split at hs
    · next logId hat =>
      obtain ⟨n, row, -, -, hgone⟩ := Inv.about h _ (mem_of_at hat)
      exact hgone.elim
    · cases hs
  | retry _ _ | readRetry _ | checkRetry _ | readFails _ | transportThrows _ | sentFails _ _ _
  | updateFails _ => cases hauto

lemma ok_init : Traced.init.Ok := by
  refine ⟨fun x hx => (by cases hx), fun x hx => (by cases hx), fun n row hrow => (by cases hrow),
    fun n _ => rfl, fun x hx => (by cases hx), fun due current hsweep => (by cases hsweep)⟩

end Step

/-! ### Every run -/

/-- The outcome of the attempt is known, and not written yet. -/
def isUnwritten : Attempt → Bool
  | .delivered _ _ | .recording _ _ => true
  | _ => false

/-- All the outcomes of the row's attempts are written. -/
def Traced.isWritten (t : Traced) (n : ℕ) : Bool :=
  t.state.attempts.rows.all fun x => logIdOf x.2 ≠ toString n || !isUnwritten x.2

section Row

variable {t : Traced} {n : ℕ} {row : MailLog} {x : Attempt} {pending : Pending}
  {outcomes : List Outcome} {content : Option RenderedMail}

lemma At.of_isUnwritten (h : At pending n outcomes content row x) (hx : isUnwritten x = true) :
    ∃ o past, outcomes = o :: past ∧ Live past ∧ Follows past row := by
  cases x with
  | delivered logId k =>
    obtain ⟨past, houtcomes, -, hlive, hfollows⟩ := h
    exact ⟨.delivered, past, houtcomes, hlive, hfollows⟩
  | recording logId f =>
    obtain ⟨o, past, -, -, houtcomes, hlive, hfollows, -⟩ := h
    exact ⟨o, past, houtcomes, hlive, hfollows⟩
  | written _ _ | asked _ | checking _ _ | starting _ | read _ _ | sending _ _ | givingUp _ =>
    cases hx

lemma At.of_not_isUnwritten (h : At pending n outcomes content row x)
    (hx : isUnwritten x = false) :
    (outcomes = [] ∧ Follows [] row) ∨ Ready pending n outcomes content row := by
  cases x with
  | written logId rendered => exact Or.inl ⟨h.1, h.2.1⟩
  | starting logId => exact Or.inr h
  | read logId r => exact Or.inr h.2
  | sending logId k => exact Or.inr h.2
  | delivered logId k | recording logId f => cases hx
  | asked logId | checking logId r | givingUp logId => exact h.elim

/-- A row rests, or is in the hands of its attempt. -/
lemma Traced.Ok.at_or_rest (h : t.Ok) (hrow : t.state.rows.find n = some row) :
    (∃ x ∈ t.state.attempts.rows, logIdOf x.2 = toString n ∧
      At t.state.pending n (t.outcomes n) (t.contents n) row x.2) ∨
    Rest t.state.pending n (t.outcomes n) (t.contents n) row := by
  by_cases hex : ∃ x ∈ t.state.attempts.rows, logIdOf x.2 = toString n
  · obtain ⟨x, hx, hn⟩ := hex
    obtain ⟨m, row₀, hm, hrow₀, hat⟩ := Inv.about h x hx
    obtain rfl : m = n := toString_inj (hm.symm.trans hn)
    obtain rfl := Option.some.inj (hrow₀.symm.trans hrow)
    exact Or.inl ⟨x, hx, hn, hat⟩
  · exact Or.inr (Inv.rest h n row hrow fun x hx hn => hex ⟨x, hx, hn⟩)

lemma Live.tail {o : Outcome} {past : List Outcome} (h : Live (o :: past)) : Live past :=
  ⟨(Nat.lt_succ_self _).trans h.1, fun o' ho' => h.2 o' (List.mem_cons_of_mem _ ho')⟩

/-- Every attempt comes after refusals only, and fewer than four. -/
lemma Traced.Ok.live (h : t.Ok) (hrow : t.state.rows.find n = some row) {o : Outcome}
    {past : List Outcome} (houtcomes : t.outcomes n = o :: past) : Live past := by
  rcases h.at_or_rest hrow with ⟨x, hx, hn, hat⟩ | hrest
  · cases hunwritten : isUnwritten x.2 with
    | true =>
      obtain ⟨o', past', houtcomes', hlive, -⟩ := hat.of_isUnwritten hunwritten
      rw [houtcomes] at houtcomes'
      cases houtcomes'
      exact hlive
    | false =>
      rcases hat.of_not_isUnwritten hunwritten with ⟨hempty, -⟩ | hready
      · rw [hempty] at houtcomes
        cases houtcomes
      · exact (houtcomes ▸ hready.live).tail
  · exact hrest.past o past houtcomes

/-- The columns of a row follow from all the outcomes, or from all but one that is not written. -/
lemma Traced.Ok.follows (h : t.Ok) (hrow : t.state.rows.find n = some row) :
    Follows (t.outcomes n) row ∨
      (t.isWritten n = false ∧ ∃ o past, t.outcomes n = o :: past ∧ Follows past row) := by
  rcases h.at_or_rest hrow with ⟨x, hx, hn, hat⟩ | hrest
  · cases hunwritten : isUnwritten x.2 with
    | true =>
      obtain ⟨o, past, houtcomes, -, hfollows⟩ := hat.of_isUnwritten hunwritten
      refine Or.inr ⟨?_, o, past, houtcomes, hfollows⟩
      rw [Traced.isWritten, List.all_eq_false]
      exact ⟨x, hx, by simp [hn, hunwritten]⟩
    | false =>
      rcases hat.of_not_isUnwritten hunwritten with ⟨hempty, hfollows⟩ | hready
      · rw [hempty]
        exact Or.inl hfollows
      · exact Or.inl hready.follows
  · exact Or.inl hrest.follows

/-- After a refusal that was not the last, the row is ready for another attempt. -/
lemma Traced.Ok.ready (h : t.Ok) (hrow : t.state.rows.find n = some row) {now : ℕ}
    {past : List Outcome} (hwritten : t.isWritten n = true)
    (houtcomes : t.outcomes n = .rejected now :: past) (hlt : past.length + 1 < maxAttempts) :
    Ready t.state.pending n (t.outcomes n) (t.contents n) row := by
  rcases h.at_or_rest hrow with ⟨x, hx, hn, hat⟩ | hrest
  · have hno := List.all_eq_true.mp hwritten x hx
    simp only [hn, ne_eq, not_true_eq_false, decide_false, Bool.false_or,
      Bool.not_eq_true'] at hno
    rcases hat.of_not_isUnwritten hno with ⟨hempty, -⟩ | hready
    · rw [hempty] at houtcomes
      cases houtcomes
    · exact hready
  · have hlive : Live (t.outcomes n) := by
      obtain ⟨-, hpast⟩ := hrest.past _ past houtcomes
      rw [houtcomes]
      refine ⟨hlt, fun o ho => ?_⟩
      rcases List.mem_cons.mp ho with rfl | ho
      · exact ⟨now, rfl⟩
      · exact hpast o ho
    have hunskipped : row.status ≠ .skipped := by
      have hfollows := hrest.follows
      rw [houtcomes] at hfollows
      simp [hfollows.1]
    exact ⟨hlive, hrest.follows, hunskipped, hrest.kept hlive hunskipped⟩

end Row

/-- In every run at most four attempts are made on a row, each after refusals only. Its columns
follow from the outcomes, up to one that is not written yet; and once all are written and another
attempt is due, it has the content that the mail was queued with. -/
theorem automatic_retries {sql : SqlNumeric} {t : Traced}
    (h : Reach (step sql) (fun _ action => automatic action = true) .init t) :
    (∀ row ∈ t.state.rows.rows, (t.outcomes row.id).length ≤ maxAttempts ∧ Shaped row ∧
      (Follows (t.outcomes row.id) row ∨ (t.isWritten row.id = false ∧
        ∃ o past, t.outcomes row.id = o :: past ∧ Follows past row)) ∧
      ∀ now past, t.outcomes row.id = .rejected now :: past → past.length + 1 < maxAttempts →
        t.isWritten row.id = true → ∃ rendered, t.contents row.id = some rendered ∧
          decideAttempt t.state.pending (toString row.id) (some row) =
            .deliver (past.length + 2) rendered) ∧
    ∀ a logId k, t.state.at a = some (.sending logId k) →
      ∃ n, logId = toString n ∧ k = (t.outcomes n).length + 1 ∧ Live (t.outcomes n) ∧
        (k < maxAttempts → k - 1 < retryDelaysMinutes.length) := by
  have hok : t.Ok := h.invariant (P := Traced.Ok) ok_init fun _ _ _ => ok_step
  refine ⟨fun row hmem => ?_, fun a logId k hat => ?_⟩
  · have hrow := Table.mem_iff_find.mp hmem
    have hfollows := hok.follows hrow
    refine ⟨?_, ?_, hfollows, fun now past houtcomes hlt hwritten => ?_⟩
    · cases houtcomes : t.outcomes row.id with
      | nil => exact Nat.zero_le _
      | cons o past => exact (hok.live hrow houtcomes).1
    · rcases hfollows with hfollows | ⟨-, o, past, -, hfollows⟩ <;> exact hfollows.shaped
    · obtain ⟨rendered, hcontent, -, hdecide⟩ := (hok.ready hrow hwritten houtcomes hlt).decide
      rw [houtcomes] at hdecide
      exact ⟨rendered, hcontent, hdecide⟩
  · obtain ⟨n, row, hn, -, hk, hready⟩ := Inv.about hok _ (mem_of_at hat)
    exact ⟨n, hn, hk, hready.live, fun hlt => by simp only [maxAttempts] at hlt; omega⟩

/-- Three attempts are refused, and the fourth is due. -/
def refusedThrice : List Action :=
  [.send 1 7 params content, .queue 1, .read 1, .resume 1, .refuse 1 "busy" 0, .recordFailure 1,
    .sweepStart, .sweepFind 60000, .sweepNext 2, .read 2, .resume 2, .refuse 2 "busy" 60000,
    .recordFailure 2, .sweepEnd, .sweepStart, .sweepFind 360000, .sweepNext 3, .read 3, .resume 3,
    .refuse 3 "busy" 360000, .recordFailure 3, .sweepEnd]

theorem automatic_retries_refused : ∃ (t : Traced) (row : MailLog),
    t.state.rows.find 7 = some row ∧
      t.outcomes 7 = [.rejected 360000, .rejected 60000, .rejected 0] ∧
      row.nextRetryAt = some 1260000 ∧
      ∃ rendered, decideAttempt t.state.pending "7" (some row) = .deliver 4 rendered := by
  obtain ⟨t, hrun, hsome, houtcomes, hwritten⟩ := exists_of_run (step .decimal) Traced.init
    refusedThrice
    (P := fun t => (t.state.rows.find 7).isSome = true ∧
      t.outcomes 7 = [.rejected 360000, .rejected 60000, .rejected 0] ∧ t.isWritten 7 = true)
    (by decide +kernel)
  obtain ⟨row, hrow⟩ := Option.isSome_iff_exists.mp hsome
  obtain ⟨hmem, hid⟩ := Table.find_eq_some.mp hrow
  obtain ⟨-, -, hfollows, hcontent⟩ :=
    (automatic_retries (Reach.of_forall hrun (by decide))).1 row hmem
  rw [hid, hwritten] at hfollows
  rw [hid] at hcontent
  obtain ⟨rendered, -, hdecide⟩ := hcontent _ _ houtcomes (by decide) hwritten
  rcases hfollows with hfollows | ⟨hunwritten, -⟩
  · rw [houtcomes] at hfollows
    exact ⟨t, row, hrow, houtcomes, hfollows.2.2, rendered, hdecide⟩
  · cases hunwritten

end SafeerApi.Mail.Retries
