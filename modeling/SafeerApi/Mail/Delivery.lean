import SafeerApi.Lib.Reach
import SafeerApi.Mail.Service

/-!
# Delivery attempts side by side

`send`, the sweep and any number of retries start attempts on a row. An attempt looks at the status
once, when it reads the row; what it writes when the transport is done with the mail does not look
again. A row is delivered once when no attempt reads it while another one is at work on it, or after
a delivery that could not be recorded.
-/

namespace SafeerApi.Mail.Delivery

open Common Lib

/-! ### The system -/

/-- Where an attempt is, or the request that leads to it. -/
inductive Attempt where
  /-- `send` has written the row. -/
  | written (logId : String) (rendered : RenderedMail)
  /-- `retryNow` is about to read its row. -/
  | asked (logId : String)
  /-- `retryNow` has read its row. -/
  | checking (logId : String) (row : Option MailLog)
  /-- `attemptDelivery` is about to read its row. -/
  | starting (logId : String)
  /-- `attemptDelivery` has read its row. -/
  | read (logId : String) (row : Option MailLog)
  /-- The mail is with the transport. -/
  | sending (logId : String) (attempts : ℕ)
  /-- The transport has delivered it. -/
  | delivered (logId : String) (attempts : ℕ)
  /-- `recordFailure` is about to write the row. -/
  | recording (logId : String) (failure : Failure)
  /-- The row is about to be given up. -/
  | givingUp (logId : String)

/-- `sweeping` is true while there is a sweep. It waits for the attempt it has started. -/
inductive Sweep where
  | starting
  | looping (due : List String) (current : Option ℕ)

abbrev Attempts := Table (Prod.fst : ℕ × Attempt → ℕ)

/-- The rows, the process, and how often each row's mail has been delivered. -/
structure State where
  rows : MailLogs
  pending : Pending
  sweep : Option Sweep
  attempts : Attempts
  delivered : ℕ → ℕ

def State.init (rows : MailLogs) : State := ⟨rows, [], none, .empty, fun _ => 0⟩

inductive Action where
  | send (a id : ℕ) (params : SendMailParams) (content : MailContent)
  | queue (a : ℕ)
  | retry (a : ℕ) (logId : String)
  | readRetry (a : ℕ)
  | checkRetry (a : ℕ)
  | sweepStart
  | sweepFind (now : ℕ)
  | sweepNext (a : ℕ)
  | sweepEnd
  | sweepFail
  | read (a : ℕ)
  | readFails (a : ℕ)
  | resume (a : ℕ)
  | noTransporter (a now : ℕ)
  | transportThrows (a : ℕ)
  | deliver (a : ℕ)
  | refuse (a : ℕ) (message : String) (now : ℕ)
  | recordSent (a now : ℕ)
  | sentFails (a : ℕ) (message : String) (now : ℕ)
  | recordFailure (a : ℕ)
  | giveUp (a : ℕ)
  | updateFails (a : ℕ)

def State.begin (s : State) (a : ℕ) (x : Attempt) : Option State :=
  if h : s.attempts.find a = none then
    some { s with attempts := s.attempts.insert (a, x) h }
  else none

def State.continue (s : State) (a : ℕ) (x : Attempt) : State :=
  { s with attempts := s.attempts.replace (a, x) }

def State.finish (s : State) (a : ℕ) : State := { s with attempts := s.attempts.delete a }

def State.at (s : State) (a : ℕ) : Option Attempt := (s.attempts.find a).map Prod.snd

/-- The attempt the sweep waits for is over. -/
def State.currentDone (s : State) (current : Option ℕ) : Bool :=
  current.all fun a => (s.attempts.find a).isNone

/-- One statement, or the code up to the next `await`. -/
def step (sql : SqlNumeric) (s : State) : Action → Option State
  | .send a id params content =>
    let row := newLog id params content
    if h : s.rows.find row.id = none then
      let s := { s with rows := s.rows.insert row h }
      match toDeliver row content with
      | some rendered => s.begin a (.written (toString id) rendered)
      | none => some s
    else none
  | .queue a =>
    match s.at a with
    | some (.written logId rendered) =>
      let entry := ⟨rendered, none, false⟩
      some ({ s with pending := Pending.set (evictIfAtCapacity s.pending) logId entry }.continue a
        (.starting logId))
    | _ => none
  | .retry a logId => s.begin a (.asked logId)
  | .readRetry a =>
    match s.at a with
    | some (.asked logId) => some (s.continue a (.checking logId (findLog sql s.rows logId)))
    | _ => none
  | .checkRetry a =>
    match s.at a with
    | some (.checking logId row) =>
      match decideRetry s.pending logId row with
      | .ok true => some (s.continue a (.starting logId))
      | _ => some (s.finish a)
    | _ => none
  | .sweepStart =>
    match s.sweep with
    | none => some { s with sweep := some .starting }
    | some _ => some s
  | .sweepFind now =>
    match s.sweep with
    | some .starting => some { s with sweep := some (.looping (dueRows s.rows now) none) }
    | _ => none
  | .sweepNext a =>
    match s.sweep with
    | some (.looping (logId :: due) current) =>
      if s.currentDone current then
        { s with sweep := some (.looping due (some a)) }.begin a (.starting logId)
      else none
    | _ => none
  | .sweepEnd =>
    match s.sweep with
    | some (.looping [] current) =>
      if s.currentDone current then some { s with sweep := none } else none
    | _ => none
  | .sweepFail =>
    match s.sweep with
    | some .starting => some { s with sweep := none }
    | _ => none
  | .read a =>
    match s.at a with
    | some (.starting logId) => some (s.continue a (.read logId (findLog sql s.rows logId)))
    | _ => none
  | .readFails a =>
    match s.at a with
    | some (.asked _) | some (.starting _) => some (s.finish a)
    | _ => none
  | .resume a =>
    match s.at a with
    | some (.read logId row) =>
      match decideAttempt s.pending logId row with
      | .nothing => some ({ s with pending := Pending.delete s.pending logId }.finish a)
      | .leave => some (s.finish a)
      | .giveUp => some (s.continue a (.givingUp logId))
      | .deliver attempts rendered =>
        some ({ s with pending := keepRendered s.pending logId rendered }.continue a
          (.sending logId attempts))
    | _ => none
  | .noTransporter a now =>
    match s.at a with
    | some (.sending logId attempts) =>
      some (s.continue a (.recording logId (failureOf attempts "SMTP is not configured" true now)))
    | _ => none
  | .transportThrows a =>
    match s.at a with
    | some (.sending _ _) => some (s.finish a)
    | _ => none
  | .deliver a =>
    match s.at a with
    | some (.sending logId attempts) =>
      let s := s.continue a (.delivered logId attempts)
      match sql.rowId logId with
      | some n => some { s with delivered := Function.update s.delivered n (s.delivered n + 1) }
      | none => some s
    | _ => none
  | .refuse a message now =>
    match s.at a with
    | some (.sending logId attempts) =>
      some (s.continue a (.recording logId (failureOf attempts message false now)))
    | _ => none
  | .recordSent a now =>
    match s.at a with
    | some (.delivered logId attempts) =>
      -- the entry goes behind the row: until then the row is found sent, whatever the entry says, and
      -- an eviction counts the entry as it would have before
      some ({ s with
        rows := updateLog sql s.rows logId (.markSent attempts now) fun _ => rfl
        pending := Pending.delete s.pending logId }.finish a)
    | _ => none
  | .sentFails a message now =>
    match s.at a with
    -- the update is inside the `try` of the delivery
    | some (.delivered logId attempts) =>
      some (s.continue a (.recording logId (failureOf attempts message false now)))
    | _ => none
  | .recordFailure a =>
    match s.at a with
    | some (.recording logId failure) =>
      -- the entry changes behind the row: only an eviction reads what changes in it, and no eviction
      -- reads a row
      some ({ s with
        rows := updateLog sql s.rows logId (.markFailed failure) fun _ => rfl
        pending := reschedule s.pending logId failure }.finish a)
    | _ => none
  | .giveUp a =>
    match s.at a with
    | some (.givingUp logId) =>
      some ({ s with
        rows := updateLog sql s.rows logId .markContentGone fun _ => rfl }.finish a)
    | _ => none
  | .updateFails a =>
    match s.at a with
    | some (.recording _ _) | some (.givingUp _) => some (s.finish a)
    | _ => none

/-! ### At work on a row -/

/-- An attempt has read row `n` as not sent, and is not over. -/
def atWork (sql : SqlNumeric) (n : ℕ) : Attempt → Bool
  | .read logId (some row) => row.status ≠ .sent && sql.rowId logId = some n
  | .sending logId _ | .delivered logId _ | .recording logId _ | .givingUp logId =>
    sql.rowId logId = some n
  | _ => false

/-- And it may still hand the mail to the transport. -/
def mayDeliver (sql : SqlNumeric) (n : ℕ) : Attempt → Bool
  | .read logId (some row) => row.status ≠ .sent && sql.rowId logId = some n
  | .sending logId _ => sql.rowId logId = some n
  | _ => false

/-- An attempt reads a row that is not sent only while no other attempt is at work on it, and when
it has not been delivered. -/
def readsAlone (sql : SqlNumeric) (s : State) : Action → Bool
  | .read a =>
    match s.at a with
    | some (.starting logId) =>
      match findLog sql s.rows logId with
      | some row =>
        row.status = .sent ||
          (s.delivered row.id = 0 && s.attempts.rows.all fun x => !atWork sql row.id x.2)
      | none => true
    | _ => true
  | _ => true

/-- At most one attempt is at work on a row, on a row that is not sent; as long as it may deliver,
the row has not been delivered; and no row has been delivered twice. -/
structure Inv (sql : SqlNumeric) (rows : MailLogs) (attempts : Attempts) (delivered : ℕ → ℕ) :
    Prop where
  alone : ∀ x ∈ attempts.rows, ∀ y ∈ attempts.rows, ∀ n, atWork sql n x.2 = true →
    atWork sql n y.2 = true → x.1 = y.1
  unsent : ∀ x ∈ attempts.rows, ∀ n, atWork sql n x.2 = true →
    ∀ row, rows.find n = some row → row.status ≠ .sent
  fresh : ∀ x ∈ attempts.rows, ∀ n, mayDeliver sql n x.2 = true → delivered n = 0
  once : ∀ n, delivered n ≤ 1

section Frame

variable {sql : SqlNumeric} {rows : MailLogs} {attempts : Attempts} {delivered : ℕ → ℕ} {a n : ℕ}
  {x x' : Attempt}

lemma atWork_of_mayDeliver (h : mayDeliver sql n x = true) : atWork sql n x = true := by
  simp only [mayDeliver] at h
  split at h
  · exact h
  · exact h
  · cases h

/-- New attempts that are no more at work than old ones under the same name. -/
lemma Inv.mono (h : Inv sql rows attempts delivered) {attempts' : Attempts}
    (hle : ∀ x' ∈ attempts'.rows, ∀ n, atWork sql n x'.2 = true →
      ∃ x ∈ attempts.rows, x.1 = x'.1 ∧ atWork sql n x.2 = true ∧
        (mayDeliver sql n x'.2 = true → mayDeliver sql n x.2 = true)) :
    Inv sql rows attempts' delivered := by
  refine ⟨fun x' hx' y' hy' n hxn hyn => ?_, fun x' hx' n hxn => ?_, fun x' hx' n hxn => ?_,
    h.once⟩
  · obtain ⟨x, hx, hxx', hxw, -⟩ := hle x' hx' n hxn
    obtain ⟨y, hy, hyy', hyw, -⟩ := hle y' hy' n hyn
    rw [← hxx', ← hyy']
    exact h.alone x hx y hy n hxw hyw
  · obtain ⟨x, hx, -, hxw, -⟩ := hle x' hx' n hxn
    exact h.unsent x hx n hxw
  · obtain ⟨x, hx, -, -, hmay⟩ := hle x' hx' n (atWork_of_mayDeliver hxn)
    exact h.fresh x hx n (hmay hxn)

lemma Inv.finish (h : Inv sql rows attempts delivered) : Inv sql rows (attempts.delete a) delivered :=
  h.mono fun x hx _ hxn => ⟨x, (Table.mem_delete.mp hx).1, rfl, hxn, id⟩

lemma Inv.begin (h : Inv sql rows attempts delivered) (hnew : attempts.find (a, x).1 = none)
    (hx : ∀ n, atWork sql n x = false) :
    Inv sql rows (attempts.insert (a, x) hnew) delivered := by
  apply h.mono
  intro x' hx' n hn
  rcases (Table.mem_insert (h := hnew)).mp hx' with hx' | rfl
  · exact ⟨x', hx', rfl, hn, id⟩
  · rw [hx n] at hn
    cases hn

lemma Inv.continue (h : Inv sql rows attempts delivered) (hx : (a, x) ∈ attempts.rows)
    (hwork : ∀ n, atWork sql n x' = true → atWork sql n x = true)
    (hmay : ∀ n, mayDeliver sql n x' = true → mayDeliver sql n x = true) :
    Inv sql rows (attempts.replace (a, x')) delivered := by
  apply h.mono
  intro y hy n hn
  rcases Table.mem_replace.mp hy with ⟨rfl, -⟩ | ⟨hy, -⟩
  · exact ⟨(a, x), hx, rfl, hwork n hn, hmay n⟩
  · exact ⟨y, hy, rfl, hn, id⟩

/-- A row written with another status than `sent`, by an attempt that ends with it. -/
lemma Inv.markFailed (h : Inv sql rows attempts delivered) {logId : String} {f : MailLog → MailLog}
    {hf : ∀ row, (f row).id = row.id} (hunsent : ∀ row, (f row).status ≠ .sent) :
    Inv sql (updateLog sql rows logId f hf) attempts delivered := by
  refine ⟨h.alone, fun x hx n hn row hrow => ?_, h.fresh, h.once⟩
  rw [Mail.updateLog, Table.find_updateWhere] at hrow
  obtain ⟨row₀, hrow₀, rfl⟩ := Option.map_eq_some_iff.mp hrow
  split
  · exact hunsent row₀
  · exact h.unsent x hx n hn row₀ hrow₀

/-- The row an attempt is at work on, written by it as sent. -/
lemma Inv.markSent (h : Inv sql rows attempts delivered) (hx : (a, x) ∈ attempts.rows)
    {logId : String} (hwork : ∀ n, sql.rowId logId = some n → atWork sql n x = true)
    {f : MailLog → MailLog} {hf : ∀ row, (f row).id = row.id} :
    Inv sql (updateLog sql rows logId f hf) (attempts.delete a) delivered := by
  have hdone := h.finish (a := a)
  refine ⟨hdone.alone, fun y hy n hn row hrow => ?_, hdone.fresh, hdone.once⟩
  rw [Mail.updateLog, Table.find_updateWhere] at hrow
  obtain ⟨row₀, hrow₀, rfl⟩ := Option.map_eq_some_iff.mp hrow
  obtain ⟨hy, hne⟩ := Table.mem_delete.mp hy
  have hid := Table.key_of_find hrow₀
  split
  · next hlog =>
    -- nobody else is at work on this row
    rw [decide_eq_true_eq, hid] at hlog
    exact absurd (h.alone y hy (a, x) hx n hn (hwork n hlog)) hne
  · exact h.unsent y hy n hn row₀ hrow₀

/-- A new row is nobody's. -/
lemma Inv.insert (h : Inv sql rows attempts delivered) {row : MailLog}
    (hnew : rows.find row.id = none) (hstatus : row.status ≠ .sent) :
    Inv sql (rows.insert row hnew) attempts delivered := by
  refine ⟨h.alone, fun x hx n hn row' hrow' => ?_, h.fresh, h.once⟩
  rw [Table.find_insert] at hrow'
  split_ifs at hrow' with heq
  · obtain rfl := Option.some.inj hrow'
    exact hstatus
  · exact h.unsent x hx n hn row' hrow'

/-- The read of a row that no other attempt is at work on. -/
lemma Inv.read (h : Inv sql rows attempts delivered) {logId : String}
    (halone : ∀ row, findLog sql rows logId = some row → row.status ≠ .sent →
      delivered row.id = 0 ∧ ∀ y ∈ attempts.rows, atWork sql row.id y.2 = false) :
    Inv sql rows (attempts.replace (a, .read logId (findLog sql rows logId))) delivered := by
  have hrow : ∀ n, atWork sql n (.read logId (findLog sql rows logId)) = true →
      ∃ row, rows.find n = some row ∧ row.status ≠ .sent ∧ delivered n = 0 ∧
        ∀ y ∈ attempts.rows, atWork sql n y.2 = false := by
    intro n hn
    cases hfind : findLog sql rows logId with
    | none => rw [hfind] at hn; cases hn
    | some row =>
      rw [hfind] at hn
      simp only [atWork, Bool.and_eq_true, decide_eq_true_eq] at hn
      obtain ⟨m, hm, hrow⟩ := Option.bind_eq_some_iff.mp hfind
      obtain rfl : n = m := Option.some.inj (hn.2.symm.trans hm)
      have hid := Table.key_of_find hrow
      obtain ⟨hzero, hnone⟩ := halone row hfind hn.1
      rw [hid] at hzero hnone
      exact ⟨row, hrow, hn.1, hzero, hnone⟩
  have hcases : ∀ y ∈ (attempts.replace (a, .read logId (findLog sql rows logId))).rows,
      y = (a, .read logId (findLog sql rows logId)) ∨ (y ∈ attempts.rows ∧ y.1 ≠ a) := by
    intro y hy
    exact (Table.mem_replace.mp hy).imp And.left id
  refine ⟨fun y hy z hz n hyn hzn => ?_, fun y hy n hn => ?_, fun y hy n hn => ?_, h.once⟩
  · rcases hcases y hy with rfl | ⟨hy, -⟩ <;> rcases hcases z hz with rfl | ⟨hz, -⟩
    · rfl
    · obtain ⟨-, -, -, -, hnone⟩ := hrow n hyn
      rw [hnone z hz] at hzn
      cases hzn
    · obtain ⟨-, -, -, -, hnone⟩ := hrow n hzn
      rw [hnone y hy] at hyn
      cases hyn
    · exact h.alone y hy z hz n hyn hzn
  · rcases hcases y hy with rfl | ⟨hy, -⟩
    · obtain ⟨row, hfind, hunsent, -⟩ := hrow n hn
      intro row' hfind'
      rwa [Option.some.inj (hfind'.symm.trans hfind)]
    · exact h.unsent y hy n hn
  · rcases hcases y hy with rfl | ⟨hy, -⟩
    · obtain ⟨-, -, -, hzero, -⟩ := hrow n (atWork_of_mayDeliver hn)
      exact hzero
    · exact h.fresh y hy n hn

/-- The delivery of a row that has not been delivered, by the attempt at work on it. -/
lemma Inv.deliver (h : Inv sql rows attempts delivered) {logId : String} {k : ℕ}
    (hx : (a, .sending logId k) ∈ attempts.rows) (hn : sql.rowId logId = some n) :
    Inv sql rows (attempts.replace (a, .delivered logId k))
      (Function.update delivered n (delivered n + 1)) := by
  have hwork : atWork sql n (.sending logId k) = true := by simp [atWork, hn]
  have hcontinue : Inv sql rows (attempts.replace (a, .delivered logId k)) delivered :=
    h.continue hx (fun _ hm => hm) fun _ hm => by cases hm
  have hzero := h.fresh _ hx n (by simp [mayDeliver, hn])
  refine ⟨hcontinue.alone, hcontinue.unsent, fun y hy m hm => ?_, fun m => ?_⟩
  · have hne : m ≠ n := by
      rintro rfl
      rcases Table.mem_replace.mp hy with ⟨rfl, -⟩ | ⟨hy, hkey⟩
      · cases hm
      · exact hkey (h.alone y hy (a, .sending logId k) hx m (atWork_of_mayDeliver hm) hwork)
    rw [Function.update_of_ne hne]
    exact hcontinue.fresh y hy m hm
  · by_cases hne : m = n
    · subst hne
      simp [hzero]
    · rw [Function.update_of_ne hne]
      exact h.once m

end Frame

/-! ### One step -/

/-- The invariant of a state. -/
def State.Ok (sql : SqlNumeric) (s : State) : Prop := Inv sql s.rows s.attempts s.delivered

section Step

variable {sql : SqlNumeric} {s s' : State} {a : ℕ} {x : Attempt}

lemma mem_of_at (h : s.at a = some x) : (a, x) ∈ s.attempts.rows := by
  obtain ⟨⟨k, y⟩, hfind, rfl⟩ := Option.map_eq_some_iff.mp h
  obtain ⟨hmem, hkey⟩ := Table.find_eq_some.mp hfind
  obtain rfl : k = a := hkey
  exact hmem

lemma at_of_mem {y : ℕ × Attempt} (h : y ∈ s.attempts.rows) : s.at y.1 = some y.2 := by
  rw [State.at, Table.mem_iff_find.mp h, Option.map_some]

lemma at_continue (x' : Attempt) (hat : s.at a = some x) (b : ℕ) :
    (s.continue a x').at b = if b = a then some x' else s.at b := by
  obtain ⟨y, hfind, -⟩ := Option.map_eq_some_iff.mp hat
  rw [State.at, State.continue, Table.find_replace]
  split_ifs with hab
  · rw [hab, hfind]
    rfl
  · rfl

lemma at_finish (a b : ℕ) : (s.finish a).at b = if b = a then none else s.at b := by
  rw [State.at, State.finish, Table.find_delete]
  split_ifs
  · rfl
  · rfl

lemma newLog_status (id : ℕ) (params : SendMailParams) (content : MailContent) :
    (newLog id params content).status ≠ .sent := by
  simp only [newLog]
  split <;> simp

/-- A step of the sweep that starts no attempt. -/
def Action.isSweep : Action → Bool
  | .sweepStart | .sweepFind _ | .sweepEnd | .sweepFail => true
  | _ => false

/-- The attempt that a failure of the database or the transport ends. -/
def Action.ends : Action → Option ℕ
  | .readFails a | .transportThrows a | .updateFails a => some a
  | _ => none

lemma step_of_isSweep {action : Action} (h : action.isSweep = true)
    (hs : step sql s action = some s') : ∃ sweep, s' = { s with sweep := sweep } := by
  cases action with
  | sweepStart | sweepFind _ | sweepFail =>
    simp only [step] at hs
    split at hs <;> cases hs <;> exact ⟨_, rfl⟩
  | sweepEnd =>
    simp only [step] at hs
    split at hs
    · split_ifs at hs
      cases hs
      exact ⟨none, rfl⟩
    · cases hs
  | _ => cases h

lemma step_of_ends {action : Action} (h : action.ends = some a)
    (hs : step sql s action = some s') : s' = s.finish a := by
  cases action with
  | readFails b | transportThrows b | updateFails b =>
    obtain rfl : b = a := Option.some.inj h
    simp only [step] at hs
    split at hs <;> cases hs <;> rfl
  | _ => cases h

/-- What a step does: a case for each way through the code. -/
inductive Effect (sql : SqlNumeric) (s : State) : Action → State → Prop where
  | sendQueued {a id : ℕ} {params : SendMailParams} {content : MailContent}
      {rendered : RenderedMail} (hnew : s.rows.find (newLog id params content).id = none)
      (hdeliver : toDeliver (newLog id params content) content = some rendered)
      (hfree : s.attempts.find (a, Attempt.written (toString id) rendered).1 = none) :
      Effect sql s (.send a id params content)
        { s with
          rows := s.rows.insert (newLog id params content) hnew
          attempts := s.attempts.insert (a, .written (toString id) rendered) hfree }
  | sendSkipped {a id : ℕ} {params : SendMailParams} {content : MailContent}
      (hnew : s.rows.find (newLog id params content).id = none)
      (hdeliver : toDeliver (newLog id params content) content = none) :
      Effect sql s (.send a id params content)
        { s with rows := s.rows.insert (newLog id params content) hnew }
  | queue {a : ℕ} {logId : String} {rendered : RenderedMail}
      (hat : s.at a = some (.written logId rendered)) :
      Effect sql s (.queue a)
        ({ s with
          pending := Pending.set (evictIfAtCapacity s.pending) logId ⟨rendered, none, false⟩ }.continue
          a (.starting logId))
  | retry {a : ℕ} {logId : String}
      (hfree : s.attempts.find (a, Attempt.asked logId).1 = none) :
      Effect sql s (.retry a logId)
        { s with attempts := s.attempts.insert (a, .asked logId) hfree }
  | readRetry {a : ℕ} {logId : String} (hat : s.at a = some (.asked logId)) :
      Effect sql s (.readRetry a) (s.continue a (.checking logId (findLog sql s.rows logId)))
  | retryGoesOn {a : ℕ} {logId : String} {row : Option MailLog}
      (hat : s.at a = some (.checking logId row))
      (hdecide : decideRetry s.pending logId row = .ok true) :
      Effect sql s (.checkRetry a) (s.continue a (.starting logId))
  | retryEnds {a : ℕ} {logId : String} {row : Option MailLog}
      (hat : s.at a = some (.checking logId row)) :
      Effect sql s (.checkRetry a) (s.finish a)
  | sweep {action : Action} {sweep : Option Sweep} (hsweep : action.isSweep = true) :
      Effect sql s action { s with sweep := sweep }
  | sweepNext {a : ℕ} {logId : String} {due : List String} {current : Option ℕ}
      (hsweep : s.sweep = some (.looping (logId :: due) current))
      (hdone : s.currentDone current = true)
      (hfree : s.attempts.find (a, Attempt.starting logId).1 = none) :
      Effect sql s (.sweepNext a)
        { s with
          sweep := some (.looping due (some a))
          attempts := s.attempts.insert (a, .starting logId) hfree }
  | read {a : ℕ} {logId : String} (hat : s.at a = some (.starting logId)) :
      Effect sql s (.read a) (s.continue a (.read logId (findLog sql s.rows logId)))
  | nothing {a : ℕ} {logId : String} {row : Option MailLog}
      (hat : s.at a = some (.read logId row))
      (hdecide : decideAttempt s.pending logId row = .nothing) :
      Effect sql s (.resume a)
        ({ s with pending := Pending.delete s.pending logId }.finish a)
  | leave {a : ℕ} {logId : String} {row : Option MailLog}
      (hat : s.at a = some (.read logId row))
      (hdecide : decideAttempt s.pending logId row = .leave) :
      Effect sql s (.resume a) (s.finish a)
  | giveUpNext {a : ℕ} {logId : String} {row : Option MailLog}
      (hat : s.at a = some (.read logId row))
      (hdecide : decideAttempt s.pending logId row = .giveUp) :
      Effect sql s (.resume a) (s.continue a (.givingUp logId))
  | deliverNext {a attempts : ℕ} {logId : String} {row : Option MailLog} {rendered : RenderedMail}
      (hat : s.at a = some (.read logId row))
      (hdecide : decideAttempt s.pending logId row = .deliver attempts rendered) :
      Effect sql s (.resume a)
        ({ s with pending := keepRendered s.pending logId rendered }.continue a
          (.sending logId attempts))
  | noTransporter {a now attempts : ℕ} {logId : String}
      (hat : s.at a = some (.sending logId attempts)) :
      Effect sql s (.noTransporter a now) (s.continue a
        (.recording logId (failureOf attempts "SMTP is not configured" true now)))
  | deliver {a attempts n : ℕ} {logId : String} (hat : s.at a = some (.sending logId attempts))
      (hn : sql.rowId logId = some n) :
      Effect sql s (.deliver a)
        { s.continue a (.delivered logId attempts) with
          delivered := Function.update s.delivered n (s.delivered n + 1) }
  | deliverNobody {a attempts : ℕ} {logId : String} (hat : s.at a = some (.sending logId attempts))
      (hn : sql.rowId logId = none) :
      Effect sql s (.deliver a) (s.continue a (.delivered logId attempts))
  | refuse {a now attempts : ℕ} {logId message : String}
      (hat : s.at a = some (.sending logId attempts)) :
      Effect sql s (.refuse a message now)
        (s.continue a (.recording logId (failureOf attempts message false now)))
  | recordSent {a now attempts : ℕ} {logId : String}
      (hat : s.at a = some (.delivered logId attempts)) :
      Effect sql s (.recordSent a now)
        ({ s with
          rows := updateLog sql s.rows logId (.markSent attempts now) fun _ => rfl
          pending := Pending.delete s.pending logId }.finish a)
  | sentFails {a now attempts : ℕ} {logId message : String}
      (hat : s.at a = some (.delivered logId attempts)) :
      Effect sql s (.sentFails a message now)
        (s.continue a (.recording logId (failureOf attempts message false now)))
  | recordFailure {a : ℕ} {logId : String} {failure : Failure}
      (hat : s.at a = some (.recording logId failure)) :
      Effect sql s (.recordFailure a)
        ({ s with
          rows := updateLog sql s.rows logId (.markFailed failure) fun _ => rfl
          pending := reschedule s.pending logId failure }.finish a)
  | giveUp {a : ℕ} {logId : String} (hat : s.at a = some (.givingUp logId)) :
      Effect sql s (.giveUp a)
        ({ s with rows := updateLog sql s.rows logId .markContentGone fun _ => rfl }.finish a)
  | ends {action : Action} {a : ℕ} (hends : action.ends = some a) : Effect sql s action (s.finish a)

lemma begin_eq_some (hs : s.begin a x = some s') : ∃ hfree : s.attempts.find (a, x).1 = none,
    s' = { s with attempts := s.attempts.insert (a, x) hfree } := by
  simp only [State.begin] at hs
  split_ifs at hs with hfree
  exact ⟨hfree, (Option.some.inj hs).symm⟩

lemma effect_of_step {action : Action} (hs : step sql s action = some s') :
    Effect sql s action s' := by
  cases action with
  | send a id params content =>
    simp only [step] at hs
    split_ifs at hs with hnew
    split at hs
    · next rendered hdeliver =>
      obtain ⟨hfree, rfl⟩ := begin_eq_some hs
      exact .sendQueued hnew hdeliver hfree
    · next hdeliver =>
      cases hs
      exact .sendSkipped hnew hdeliver
  | retry a logId =>
    obtain ⟨hfree, rfl⟩ := begin_eq_some hs
    exact .retry hfree
  | checkRetry a =>
    simp only [step] at hs
    split at hs
    · next hat =>
      split at hs <;> cases hs
      · next hdecide => exact .retryGoesOn hat hdecide
      · exact .retryEnds hat
    · cases hs
  | sweepStart | sweepFind _ | sweepEnd | sweepFail =>
    obtain ⟨sweep, rfl⟩ := step_of_isSweep rfl hs
    exact .sweep rfl
  | sweepNext a =>
    simp only [step] at hs
    split at hs
    · next hsweep =>
      split_ifs at hs with hdone
      obtain ⟨hfree, rfl⟩ := begin_eq_some hs
      exact .sweepNext hsweep hdone hfree
    · cases hs
  | resume a =>
    simp only [step] at hs
    split at hs
    · next hat =>
      split at hs <;> cases hs
      · next hdecide => exact .nothing hat hdecide
      · next hdecide => exact .leave hat hdecide
      · next hdecide => exact .giveUpNext hat hdecide
      · next hdecide => exact .deliverNext hat hdecide
    · cases hs
  | deliver a =>
    simp only [step] at hs
    split at hs
    · next hat =>
      split at hs <;> cases hs
      · next hn => exact .deliver hat hn
      · next hn => exact .deliverNobody hat hn
    · cases hs
  | readFails _ | transportThrows _ | updateFails _ =>
    rw [step_of_ends rfl hs]
    exact .ends rfl
  | queue a =>
    simp only [step] at hs
    split at hs <;> cases hs
    next hat => exact .queue hat
  | readRetry a =>
    simp only [step] at hs
    split at hs <;> cases hs
    next hat => exact .readRetry hat
  | read a =>
    simp only [step] at hs
    split at hs <;> cases hs
    next hat => exact .read hat
  | noTransporter a now =>
    simp only [step] at hs
    split at hs <;> cases hs
    next hat => exact .noTransporter hat
  | refuse a message now =>
    simp only [step] at hs
    split at hs <;> cases hs
    next hat => exact .refuse hat
  | recordSent a now =>
    simp only [step] at hs
    split at hs <;> cases hs
    next hat => exact .recordSent hat
  | sentFails a message now =>
    simp only [step] at hs
    split at hs <;> cases hs
    next hat => exact .sentFails hat
  | recordFailure a =>
    simp only [step] at hs
    split at hs <;> cases hs
    next hat => exact .recordFailure hat
  | giveUp a =>
    simp only [step] at hs
    split at hs <;> cases hs
    next hat => exact .giveUp hat

/-- What an attempt does with the row it has read is its work on that row. -/
lemma atWork_read {logId : String} {row : Option MailLog} {pending : Pending} {n : ℕ}
    (hdecide : decideAttempt pending logId row ≠ .nothing) (hn : sql.rowId logId = some n) :
    atWork sql n (.read logId row) = true ∧ mayDeliver sql n (.read logId row) = true := by
  obtain ⟨r, rfl, hunsent⟩ := exists_of_decideAttempt hdecide
  simp [atWork, mayDeliver, hunsent, hn]

lemma ok_step {action : Action} (h : s.Ok sql) (hok : readsAlone sql s action = true)
    (hs : step sql s action = some s') : s'.Ok sql := by
  cases effect_of_step hs with
  | sendQueued hnew _ hfree =>
    exact Inv.begin (Inv.insert h hnew (newLog_status _ _ _)) hfree fun _ => rfl
  | sendSkipped hnew _ => exact Inv.insert h hnew (newLog_status _ _ _)
  | retry hfree | sweepNext _ _ hfree => exact Inv.begin h hfree fun _ => rfl
  | queue hat | readRetry hat | retryGoesOn hat _ =>
    exact Inv.continue h (mem_of_at hat) (fun _ hn => by cases hn) fun _ hn => by cases hn
  | sweep _ => exact h
  | retryEnds _ | nothing _ _ | leave _ _ | ends _ => exact Inv.finish h
  | @read a logId hat =>
    apply Inv.read h
    intro row hrow hunsent
    simp only [readsAlone, hat, hrow, hunsent, decide_false, Bool.false_or, Bool.and_eq_true,
      decide_eq_true_eq, List.all_eq_true, Bool.not_eq_true'] at hok
    exact hok
  | giveUpNext hat hdecide =>
    refine Inv.continue h (mem_of_at hat) (fun n hn => ?_) fun n hn => by cases hn
    exact (atWork_read (by rw [hdecide]; simp) (by simpa [atWork] using hn)).1
  | deliverNext hat hdecide =>
    refine Inv.continue h (mem_of_at hat) (fun n hn => ?_) fun n hn => ?_
    · exact (atWork_read (by rw [hdecide]; simp) (by simpa [atWork] using hn)).1
    · exact (atWork_read (by rw [hdecide]; simp) (by simpa [mayDeliver] using hn)).2
  | noTransporter hat | refuse hat | deliverNobody hat _ | sentFails hat =>
    exact Inv.continue h (mem_of_at hat) (fun _ hn => hn) fun _ hn => by cases hn
  | deliver hat hn => exact Inv.deliver h (mem_of_at hat) hn
  | @recordSent a now attempts logId hat =>
    have hdone : Inv sql (updateLog sql s.rows logId (.markSent attempts now) fun _ => rfl)
        (s.attempts.delete a) s.delivered :=
      Inv.markSent h (mem_of_at hat) fun n hn => by simp [atWork, hn]
    exact hdone
  | @recordFailure a logId failure hat =>
    have hwritten : Inv sql (updateLog sql s.rows logId (.markFailed failure) fun _ => rfl)
        s.attempts s.delivered := Inv.markFailed h fun row => by simp [MailLog.markFailed]
    exact Inv.finish hwritten
  | @giveUp a logId hat =>
    have hwritten : Inv sql (updateLog sql s.rows logId .markContentGone fun _ => rfl)
        s.attempts s.delivered := Inv.markFailed h fun row => by simp [MailLog.markContentGone]
    exact Inv.finish hwritten

/-- What a step does to the rows: nothing, a new row, or an update of the row that an attempt is at
work on. -/
lemma rows_of_step {action : Action} (hs : step sql s action = some s') :
    s'.rows = s.rows ∨ (∃ row hnew, s'.rows = s.rows.insert row hnew) ∨
      ∃ a x logId f hf, s.at a = some x ∧
        (∀ n, sql.rowId logId = some n → atWork sql n x = true) ∧
        s'.rows = updateLog sql s.rows logId f hf := by
  cases effect_of_step hs with
  | sendQueued hnew _ _ | sendSkipped hnew _ => exact Or.inr (Or.inl ⟨_, hnew, rfl⟩)
  | @recordSent a now attempts logId hat =>
    refine Or.inr (Or.inr ⟨a, _, logId, .markSent attempts now, fun _ => rfl, hat, ?_, rfl⟩)
    intro n hn
    simp [atWork, hn]
  | @recordFailure a logId failure hat =>
    refine Or.inr (Or.inr ⟨a, _, logId, .markFailed failure, fun _ => rfl, hat, ?_, rfl⟩)
    intro n hn
    simp [atWork, hn]
  | @giveUp a logId hat =>
    refine Or.inr (Or.inr ⟨a, _, logId, .markContentGone, fun _ => rfl, hat, ?_, rfl⟩)
    intro n hn
    simp [atWork, hn]
  | _ => exact Or.inl rfl

/-- A sent row stays sent. -/
lemma sent_step {action : Action} (h : s.Ok sql) (hs : step sql s action = some s') {n : ℕ}
    (hsent : (s.rows.find n).map MailLog.status = some .sent) :
    (s'.rows.find n).map MailLog.status = some .sent := by
  obtain ⟨row, hrow, hstatus⟩ := Option.map_eq_some_iff.mp hsent
  rcases rows_of_step hs with heq | ⟨row', hnew, heq⟩ | ⟨a, x, logId, f, hf, hat, hwork, heq⟩
  · rwa [heq]
  · have hne : n ≠ row'.id := by
      rintro rfl
      rw [hnew] at hrow
      cases hrow
    rw [heq, Table.find_insert, if_neg hne]
    exact hsent
  · rw [heq, updateLog, Table.find_updateWhere, hrow, Option.map_some, if_neg, Option.map_some,
      hstatus]
    intro hlog
    -- an attempt at work on the row would know it as not sent
    rw [decide_eq_true_eq, Table.key_of_find hrow] at hlog
    exact h.unsent (a, x) (mem_of_at hat) n (hwork n hlog) row hrow hstatus

end Step

/-! ### Every interleaving -/

/-- In every interleaving in which each row is read alone, no row is delivered twice, and a row that
is sent stays sent. -/
theorem delivered_once_reach {sql : SqlNumeric} {rows : MailLogs} {s : State}
    (h : Reach (step sql) (fun s a => readsAlone sql s a = true) (.init rows) s) :
    (∀ n, s.delivered n ≤ 1) ∧
      ∀ action s' n, step sql s action = some s' →
        (s.rows.find n).map MailLog.status = some .sent →
        (s'.rows.find n).map MailLog.status = some .sent := by
  have hok : s.Ok sql := by
    refine h.invariant (P := State.Ok sql) ?_ fun _ _ _ hi hok hs => ok_step hi hok hs
    exact ⟨fun _ hx => (by cases hx), fun _ hx => (by cases hx), fun _ hx => (by cases hx),
      fun _ => Nat.zero_le 1⟩
  exact ⟨hok.once, fun action s' n hs hsent => sent_step hok hs hsent⟩

/-- An enabled template. -/
def content : MailContent := ⟨some ⟨"s", "h", "t"⟩, none, true⟩

def params : SendMailParams := { key := "contact_ack", locale := .ar, toEmail := "a@x" }

/-- The first attempt is refused, and the sweep delivers the mail; a retry comes too late. -/
def sweptAfterRefusal : List Action :=
  [.send 1 7 params content, .queue 1, .read 1, .resume 1, .refuse 1 "busy" 0, .recordFailure 1,
    .sweepStart, .sweepFind 60000, .sweepNext 2, .read 2, .resume 2, .deliver 2, .retry 3 "7",
    .recordSent 2 60001, .sweepEnd, .readRetry 3, .checkRetry 3]

theorem delivered_once_reach_swept : ∃ s : State,
    s.delivered 7 = 1 ∧ (s.rows.find 7).map MailLog.status = some .sent ∧
      ∀ n, s.delivered n ≤ 1 := by
  obtain ⟨s, hrun, hdelivered, hsent⟩ := exists_of_run (guarded (step .decimal) (readsAlone .decimal))
    (State.init .empty) sweptAfterRefusal
    (P := fun s => s.delivered 7 = 1 ∧ (s.rows.find 7).map MailLog.status = some .sent)
    (by decide +kernel)
  exact ⟨s, hdelivered, hsent, (delivered_once_reach (Reach.of_guarded hrun)).1⟩

/-- A retry reads the row while the first attempt is with the transport: both deliver. -/
def retryMeanwhile : List Action :=
  [.send 1 7 params content, .queue 1, .read 1, .resume 1, .retry 2 "7", .readRetry 2,
    .checkRetry 2, .read 2, .resume 2, .deliver 1, .deliver 2, .recordSent 1 10]

/-- A delivery that cannot be recorded is recorded as a failure, and the sweep delivers again. -/
def sentUnrecorded : List Action :=
  [.send 1 7 params content, .queue 1, .read 1, .resume 1, .deliver 1,
    .sentFails 1 "lock wait timeout" 0, .recordFailure 1, .sweepStart, .sweepFind 60000,
    .sweepNext 2, .read 2, .resume 2, .deliver 2]

/-- The retry that was under way is refused, after the first attempt has recorded the row as sent. -/
def retryRefused : List Action :=
  [.send 1 7 params content, .queue 1, .read 1, .resume 1, .retry 2 "7", .readRetry 2,
    .checkRetry 2, .read 2, .resume 2, .deliver 1, .recordSent 1 10, .refuse 2 "busy" 20]

/-- A mail is delivered twice, when two attempts overlap and when a delivery is not recorded; and a
sent row becomes a failed one. -/
theorem delivered_twice :
    (∃ s, run (step .decimal) (State.init .empty) retryMeanwhile = some s ∧ s.delivered 7 = 2) ∧
    (∃ s, run (step .decimal) (State.init .empty) sentUnrecorded = some s ∧ s.delivered 7 = 2) ∧
    ∃ s s', run (step .decimal) (State.init .empty) retryRefused = some s ∧
      (s.rows.find 7).map MailLog.status = some .sent ∧
      step .decimal s (.recordFailure 2) = some s' ∧
      (s'.rows.find 7).map MailLog.status = some .failed := by
  refine ⟨?_, ?_, ?_⟩
  · exact exists_of_run (step .decimal) (State.init .empty) retryMeanwhile
      (P := fun s => s.delivered 7 = 2) (by decide +kernel)
  · exact exists_of_run (step .decimal) (State.init .empty) sentUnrecorded
      (P := fun s => s.delivered 7 = 2) (by decide +kernel)
  · obtain ⟨s, hrun, hsent, hfailed⟩ := exists_of_run (step .decimal) (State.init .empty)
      retryRefused
      (P := fun s => (s.rows.find 7).map MailLog.status = some .sent ∧
        ((step .decimal s (.recordFailure 2)).any fun s' =>
          (s'.rows.find 7).map MailLog.status = some .failed) = true) (by decide +kernel)
    obtain ⟨s', hs', hfailed⟩ := (Option.any_eq_true _ _).mp hfailed
    exact ⟨s, s', hrun, hsent, hs', of_decide_eq_true hfailed⟩

end SafeerApi.Mail.Delivery
