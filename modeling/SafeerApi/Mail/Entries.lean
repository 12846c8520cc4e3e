import SafeerApi.Lib.Joined
import SafeerApi.Mail.Stranded
import SafeerApi.Maintenance.Retention

/-!
# What stays in memory

The process keeps the content of a mail in an entry of its map until the mail is delivered. Only the
attempts at it give back an entry that is not terminal, and the sweep starts these as long as the row
is scheduled. But rows also go away without the mail service, and an attempt may end by an exception.
A terminal entry is given back when another one is added to a full map.
-/

namespace SafeerApi.Mail.Entries

open Common Lib Delivery
open Stranded (isScheduled mem_dueRows)

/-! ### The system -/

/-- Deliveries, and `created_at` of the rows, by id. -/
structure State where
  deliveries : Delivery.State
  createdAt : ℕ → ℕ

def State.init (rows : MailLogs) (createdAt : ℕ → ℕ) : State := ⟨.init rows, createdAt⟩

inductive Event where
  | act (now : ℕ) (action : Action)
  /-- `MessagesService.remove`, of a message that is found. -/
  | removeMessage (id : String)
  | purgeOldMailLog (now : ℕ)

/-- `{ entityType: 'contact_messages', entityId: id }`, with a string id. -/
def isMailOf (sql : SqlNumeric) (id : String) (row : MailLog) : Bool :=
  (sql.rowId id).any fun n => row.entity = some ("contact_messages", toString n)

/-- `{ createdAt: LessThan(daysAgo(MAIL_LOG_RETENTION_DAYS)) }` -/
def isOldLog (createdAt : ℕ → ℕ) (now : ℕ) (row : MailLog) : Bool :=
  Maintenance.isOlder Maintenance.mailLogRetentionDays now (createdAt row.id)

/-- `created_at`, after a statement executed at `now`. -/
def stamp (now : ℕ) (createdAt : ℕ → ℕ) : Action → ℕ → ℕ
  | .send _ id _ _ => Function.update createdAt id now
  | _ => createdAt

def deleteLogs (s : Delivery.State) (p : MailLog → Bool) : Delivery.State :=
  { s with rows := s.rows.deleteWhere p }

def step (sql : SqlNumeric) (s : State) : Event → Option State
  | .act now action =>
    (Delivery.step sql s.deliveries action).map fun deliveries =>
      ⟨deliveries, stamp now s.createdAt action⟩
  | .removeMessage id => some { s with deliveries := deleteLogs s.deliveries (isMailOf sql id) }
  | .purgeOldMailLog now =>
    some { s with deliveries := deleteLogs s.deliveries (isOldLog s.createdAt now) }

/-! ### Who takes care of an entry -/

/-- The row of an entry is there, and a sweep will take it up. -/
def scheduled (sql : SqlNumeric) (rows : MailLogs) (logId : String) : Bool :=
  (findLog sql rows logId).any isScheduled

/-- A `send` or an attempt, which is not `retryNow` before it makes one. -/
def inFlight : Attempt → Bool
  | .asked _ | .checking _ _ => false
  | _ => true

/-- And it is at the entry of this text. An attempt that gives its row up had found no entry. -/
def isAt (logId : String) : Attempt → Bool
  | .asked _ | .checking _ _ | .givingUp _ => false
  | .written k _ | .starting k | .read k _ | .sending k _ | .delivered k _ | .recording k _ =>
    k = logId

/-- The texts are read as the same id. -/
def sameRow (sql : SqlNumeric) (k k' : String) : Bool := sql.rowId k = sql.rowId k'

/-- The attempt that ends with its statement, or by an exception. -/
def Event.ends : Event → Option ℕ
  | .act _ (.readFails a) | .act _ (.transportThrows a) | .act _ (.updateFails a)
  | .act _ (.recordSent a _) | .act _ (.recordFailure a) | .act _ (.giveUp a) => some a
  | _ => none

/-- The entry is not terminal, and loses its attempt, or its row or the time of the next retry. -/
def loses (sql : SqlNumeric) (s : State) (x : String × PendingDelivery) : Event → Bool
  | .act _ (.readFails a) | .act _ (.transportThrows a) | .act _ (.updateFails a) =>
    !x.2.terminal && (s.deliveries.at a).any (isAt x.1) && !scheduled sql s.deliveries.rows x.1
  | .act _ (.recordSent a _) =>
    match s.deliveries.at a with
    | some (.delivered logId _) => !x.2.terminal && x.1 ≠ logId && sameRow sql logId x.1
    | _ => false
  | .act _ (.recordFailure a) =>
    match s.deliveries.at a with
    | some (.recording logId failure) =>
      if failure.terminal then !x.2.terminal && x.1 ≠ logId && sameRow sql logId x.1
      -- the retry of a row that is gone
      else x.1 = logId && (findLog sql s.deliveries.rows logId).isNone
    | _ => false
  | .act _ (.giveUp a) =>
    match s.deliveries.at a with
    | some (.givingUp logId) => !x.2.terminal && sameRow sql logId x.1
    | _ => false
  | .act _ _ => false
  | .removeMessage id =>
    !x.2.terminal && (findLog sql s.deliveries.rows x.1).any (isMailOf sql id)
  | .purgeOldMailLog now =>
    !x.2.terminal && (findLog sql s.deliveries.rows x.1).any (isOldLog s.createdAt now)

/-- A further attempt is at the entry. -/
def hasOther (s : State) (e : Event) (logId : String) : Bool :=
  s.deliveries.attempts.rows.any fun y => e.ends ≠ some y.1 && isAt logId y.2

/-- There is room for an entry, or a terminal one to evict. -/
def hasRoom (pending : Pending) : Bool :=
  pending.length < maxPending || pending.any fun x => x.2.terminal

/-- The entry a step adds or overwrites. -/
def entryOf (s : State) : Event → Option String
  | .act _ (.queue a) =>
    match s.deliveries.at a with
    | some (.written logId _) => some logId
    | _ => none
  | .act _ (.resume a) =>
    match s.deliveries.at a with
    | some (.read logId row) =>
      match decideAttempt s.deliveries.pending logId row with
      | .deliver _ _ => some logId
      | _ => none
    | _ => none
  | _ => none

/-- An entry is added where there is room for it. -/
def fits (s : State) (e : Event) : Bool :=
  (entryOf s e).all fun logId =>
    (Pending.get s.deliveries.pending logId).isSome || hasRoom s.deliveries.pending

/-- Every entry that loses what takes care of it has a further attempt, and no entry is added to a
map full of entries that are not terminal. -/
def leavesCared (sql : SqlNumeric) (s : State) (e : Event) : Bool :=
  fits s e && s.deliveries.pending.all fun x => !loses sql s x e || hasOther s e x.1

/-! ### The map -/

section Map

variable {pending : Pending} {k : String} {e : PendingDelivery} {x : String × PendingDelivery}

lemma get_eq_none : Pending.get pending k = none ↔ ∀ x ∈ pending, x.1 ≠ k := by
  rw [Pending.get, Option.map_eq_none_iff, List.find?_eq_none]
  simp only [decide_eq_true_eq, ne_eq]

lemma mem_delete : x ∈ Pending.delete pending k ↔ x ∈ pending ∧ x.1 ≠ k := by
  rw [Pending.delete, List.mem_filter, decide_eq_true_eq]

lemma mem_of_mem_evict (h : x ∈ evictIfAtCapacity pending) : x ∈ pending := by
  rw [evictIfAtCapacity] at h
  split_ifs at h
  · exact h
  · exact List.mem_of_mem_eraseP h

lemma mem_set (h : x ∈ Pending.set pending k e) : x ∈ pending ∨ x = (k, e) := by
  rw [Pending.set] at h
  split_ifs at h
  · obtain ⟨y, hy, hx⟩ := List.mem_map.mp h
    split_ifs at hx
    · exact Or.inr hx.symm
    · exact Or.inl (hx ▸ hy)
  · rcases List.mem_append.mp h with h | h
    · exact Or.inl h
    · exact Or.inr (List.mem_singleton.mp h)

lemma length_set : (Pending.set pending k e).length
    = if (Pending.get pending k).isSome then pending.length else pending.length + 1 := by
  rw [Pending.set]
  split_ifs
  · exact List.length_map _
  · rw [List.length_append, List.length_singleton]

/-- Without a terminal entry nothing is evicted. -/
lemma evict_of_not_hasRoom (h : hasRoom pending = false) : evictIfAtCapacity pending = pending := by
  rw [hasRoom, Bool.or_eq_false_iff, List.any_eq_false] at h
  rw [evictIfAtCapacity, List.eraseP_of_forall_not h.2, ite_self]

lemma length_evict_of_hasRoom (h : hasRoom pending = true) (hle : pending.length ≤ maxPending) :
    (evictIfAtCapacity pending).length < maxPending := by
  rw [evictIfAtCapacity]
  split_ifs with hlt
  · exact hlt
  · rw [hasRoom, Bool.or_eq_true, decide_eq_true_eq, List.any_eq_true] at h
    obtain ⟨x, hx, hterminal⟩ := h.resolve_left hlt
    have hlength := List.length_eraseP_of_mem (p := fun x => x.2.terminal) hx hterminal
    have hpos : 0 < pending.length := List.length_pos_of_mem hx
    omega

/-- Where there is room, or the entry is there, the map stays within its bound. -/
lemma length_set_evict (hle : pending.length ≤ maxPending)
    (hfits : (Pending.get pending k).isSome = true ∨ hasRoom pending = true) :
    (Pending.set (evictIfAtCapacity pending) k e).length ≤ maxPending := by
  cases hroom : hasRoom pending with
  | true =>
    have hlt := length_evict_of_hasRoom hroom hle
    rw [length_set]
    split_ifs <;> omega
  | false =>
    have hsome := hfits.resolve_right (by simp [hroom])
    rw [evict_of_not_hasRoom hroom, length_set, if_pos hsome]
    exact hle

lemma mem_keepRendered {rendered : RenderedMail} (h : x ∈ keepRendered pending k rendered) :
    x ∈ pending ∨ x.1 = k := by
  rw [keepRendered] at h
  split_ifs at h
  · exact Or.inl h
  · rcases mem_set h with h | rfl
    · exact Or.inl (mem_of_mem_evict h)
    · exact Or.inr rfl

lemma length_keepRendered {rendered : RenderedMail} (hle : pending.length ≤ maxPending)
    (hfits : (Pending.get pending k).isSome = true ∨ hasRoom pending = true) :
    (keepRendered pending k rendered).length ≤ maxPending := by
  rw [keepRendered]
  split_ifs
  · exact hle
  · exact length_set_evict hle hfits

/-- A rescheduled entry is what it was, or it is the one of the failure. -/
lemma mem_reschedule {f : Failure} (h : x ∈ reschedule pending k f) :
    ∃ y ∈ pending, y.1 = x.1 ∧ x.2.terminal = if x.1 = k then f.terminal else y.2.terminal := by
  obtain ⟨y, hy, rfl⟩ := List.mem_map.mp h
  refine ⟨y, hy, ?_⟩
  by_cases hk : y.1 = k
  · simp [hk]
  · simp [hk]

end Map

/-! ### The rows -/

section Rows

variable {sql : SqlNumeric} {rows : MailLogs} {k logId : String}

lemma findLog_updateLog {f : MailLog → MailLog} {hf : ∀ row, (f row).id = row.id} :
    findLog sql (updateLog sql rows logId f hf) k
      = (findLog sql rows k).map fun row => if sameRow sql logId k then f row else row := by
  rw [findLog, findLog]
  cases hk : sql.rowId k with
  | none => rfl
  | some n =>
    rw [Option.bind_some, Option.bind_some, updateLog, Table.find_updateWhere]
    cases hfind : rows.find n with
    | none => rfl
    | some row =>
      rw [Option.map_some, Option.map_some, sameRow, hk, Table.key_of_find hfind]

lemma findLog_deleteWhere {p : MailLog → Bool} :
    findLog sql (rows.deleteWhere p) k = (findLog sql rows k).filter fun row => !p row := by
  rw [findLog, findLog]
  cases hk : sql.rowId k with
  | none => rfl
  | some n => rw [Option.bind_some, Option.bind_some, Table.find_deleteWhere]

lemma scheduled_updateLog_of_not {f : MailLog → MailLog} {hf : ∀ row, (f row).id = row.id}
    (h : sameRow sql logId k = false) :
    scheduled sql (updateLog sql rows logId f hf) k = scheduled sql rows k := by
  have hsame : (fun row => if sameRow sql logId k then f row else row) = id := by
    funext row
    rw [h]
    rfl
  rw [scheduled, findLog_updateLog, hsame, Option.map_id, id, scheduled]

end Rows

/-! ### The invariant -/

/-- A sweep will take the row up, or an attempt is at the entry. -/
def Cared (sql : SqlNumeric) (rows : MailLogs) (attempts : Attempts) (logId : String) : Prop :=
  scheduled sql rows logId = true ∨ ∃ y ∈ attempts.rows, isAt logId y.2 = true

/-- A failure has a time for the next retry, or it is terminal. -/
def Plans : Attempt → Prop
  | .recording _ failure => failure.nextRetryAt.isSome = !failure.terminal
  | _ => True

lemma failureOf_plans {logId : String} (attempts : ℕ) (error : String) (forceTerminal : Bool)
    (now : ℕ) : Plans (.recording logId (failureOf attempts error forceTerminal now)) := by
  simp only [Plans, failureOf]
  split <;> rename_i h
  · rw [h]
    rfl
  · rw [Bool.eq_false_iff.mpr h]
    rfl

structure Inv (sql : SqlNumeric) (rows : MailLogs) (attempts : Attempts) (pending : Pending) :
    Prop where
  cared : ∀ x ∈ pending, x.2.terminal = false → Cared sql rows attempts x.1
  plans : ∀ y ∈ attempts.rows, Plans y.2
  bounded : pending.length ≤ maxPending

def Ok (sql : SqlNumeric) (s : Delivery.State) : Prop := Inv sql s.rows s.attempts s.pending

section Cared

variable {sql : SqlNumeric} {rows rows' : MailLogs} {attempts : Attempts} {pending : Pending}
  {a : ℕ} {x x' : Attempt} {k : String}

lemma Cared.mono (h : Cared sql rows attempts k)
    (hrows : scheduled sql rows k = true → scheduled sql rows' k = true) :
    Cared sql rows' attempts k :=
  h.imp_left hrows

/-- An attempt that goes on at its entry. -/
lemma Cared.continue (h : Cared sql rows attempts k) (hx : (a, x) ∈ attempts.rows)
    (hkeep : isAt k x = true → isAt k x' = true) : Cared sql rows (attempts.replace (a, x')) k := by
  rcases h with h | ⟨y, hy, hat⟩
  · exact Or.inl h
  · by_cases hkey : y.1 = a
    · obtain rfl := Table.eq_of_key hy hx hkey
      exact Or.inr ⟨(a, x'), Table.mem_replace.mpr (Or.inl ⟨rfl, _, hx, rfl⟩), hkeep hat⟩
    · exact Or.inr ⟨y, Table.mem_replace.mpr (Or.inr ⟨hy, hkey⟩), hat⟩

/-- The end of an attempt that is not at the entry. -/
lemma Cared.finish (h : Cared sql rows attempts k) (hx : (a, x) ∈ attempts.rows)
    (hnot : isAt k x = false) : Cared sql rows (attempts.delete a) k := by
  rcases h with h | ⟨y, hy, hat⟩
  · exact Or.inl h
  · refine Or.inr ⟨y, Table.mem_delete.mpr ⟨hy, fun hkey => ?_⟩, hat⟩
    obtain rfl := Table.eq_of_key hy hx hkey
    rw [hnot] at hat
    cases hat

lemma Inv.begin (h : Inv sql rows attempts pending) (hnew : attempts.find (a, x).1 = none)
    (hx : Plans x) : Inv sql rows (attempts.insert (a, x) hnew) pending := by
  refine ⟨fun e he hlive => ?_, fun y hy => ?_, h.bounded⟩
  · refine (h.cared e he hlive).imp_right ?_
    rintro ⟨y, hy, hat⟩
    exact ⟨y, (Table.mem_insert (h := hnew)).mpr (Or.inl hy), hat⟩
  · rcases (Table.mem_insert (h := hnew)).mp hy with hy | rfl
    · exact h.plans y hy
    · exact hx

/-- A new row is nobody's. -/
lemma Inv.insert (h : Inv sql rows attempts pending) {row : MailLog}
    (hnew : rows.find row.id = none) : Inv sql (rows.insert row hnew) attempts pending := by
  refine ⟨fun e he hlive => (h.cared e he hlive).mono fun hscheduled => ?_, h.plans, h.bounded⟩
  obtain ⟨row', hfind, hrow'⟩ := (Option.any_eq_true _ _).mp hscheduled
  obtain ⟨hmem, hid⟩ := Stranded.mem_of_findLog hfind
  have hmem := (Table.mem_insert (h := hnew)).mpr (Or.inl hmem)
  rw [scheduled, Stranded.findLog_of_mem hmem hid]
  exact hrow'

lemma Inv.plans_continue (h : Inv sql rows attempts pending) (hx' : Plans x') :
    ∀ y ∈ (attempts.replace (a, x')).rows, Plans y.2 := by
  intro y hy
  rcases Table.mem_replace.mp hy with ⟨rfl, -⟩ | ⟨hy, -⟩
  · exact hx'
  · exact h.plans y hy

lemma Inv.plans_finish (h : Inv sql rows attempts pending) :
    ∀ y ∈ (attempts.delete a).rows, Plans y.2 :=
  fun y hy => h.plans y (Table.mem_delete.mp hy).1

/-- An attempt goes on at its entry, which it may have put there. -/
lemma Inv.continue {pending' : Pending} (h : Inv sql rows attempts pending)
    (hx : (a, x) ∈ attempts.rows)
    (hkeep : ∀ e ∈ pending, isAt e.1 x = true → isAt e.1 x' = true) (hx' : Plans x')
    (hpending : ∀ e ∈ pending', e ∈ pending ∨ isAt e.1 x' = true)
    (hbounded : pending'.length ≤ maxPending) :
    Inv sql rows (attempts.replace (a, x')) pending' := by
  refine ⟨fun e he hlive => ?_, h.plans_continue hx', hbounded⟩
  rcases hpending e he with he | hat
  · exact (h.cared e he hlive).continue hx (hkeep e he)
  · exact Or.inr ⟨(a, x'), Table.mem_replace.mpr (Or.inl ⟨rfl, _, hx, rfl⟩), hat⟩

/-- An attempt ends that is at none of the entries. -/
lemma Inv.finish {pending' : Pending} (h : Inv sql rows attempts pending)
    (hx : (a, x) ∈ attempts.rows) (hpending : ∀ e ∈ pending', e ∈ pending ∧ isAt e.1 x = false)
    (hbounded : pending'.length ≤ maxPending) : Inv sql rows (attempts.delete a) pending' := by
  refine ⟨fun e he hlive => ?_, h.plans_finish, hbounded⟩
  obtain ⟨he, hnot⟩ := hpending e he
  exact (h.cared e he hlive).finish hx hnot

end Cared

/-! ### One step -/

section Step

variable {sql : SqlNumeric} {s s' : Delivery.State} {a : ℕ} {x : Attempt} {k logId : String}

/-- An attempt goes on at its entry. -/
lemma ok_continue {x' : Attempt} (h : Ok sql s) (hat : s.at a = some x)
    (hkeep : ∀ k, isAt k x = true → isAt k x' = true) (hx' : Plans x') :
    Ok sql (s.continue a x') :=
  Inv.continue h (mem_of_at hat) (fun e _ => hkeep e.1) hx' (fun _ he => Or.inl he) h.bounded

lemma ok_queue {rendered : RenderedMail} (h : Ok sql s)
    (hat : s.at a = some (.written logId rendered))
    (hfits : (Pending.get s.pending logId).isSome = true ∨ hasRoom s.pending = true) :
    Inv sql s.rows (s.attempts.replace (a, .starting logId))
      (Pending.set (evictIfAtCapacity s.pending) logId ⟨rendered, none, false⟩) := by
  refine Inv.continue h (mem_of_at hat) (fun _ _ hk => hk) trivial ?_
    (length_set_evict h.bounded hfits)
  intro e he
  rcases mem_set he with he | rfl
  · exact Or.inl (mem_of_mem_evict he)
  · exact Or.inr (decide_eq_true rfl)

lemma decideAttempt_none {pending : Pending} {row : Option MailLog}
    (h : decideAttempt pending logId row = .leave ∨ decideAttempt pending logId row = .giveUp) :
    Pending.get pending logId = none := by
  cases row with
  | none => rcases h with h | h <;> cases h
  | some row =>
    cases hget : Pending.get pending logId with
    | none => rfl
    | some e =>
      -- the entry's content is delivered
      have hdecide : decideAttempt pending logId (some row) = .nothing ∨
          decideAttempt pending logId (some row) = .deliver (row.attempts + 1) e.rendered := by
        by_cases hsent : row.status = .sent
        · simp [decideAttempt, hsent]
        · simp [decideAttempt, hsent, hget]
      rcases hdecide with hdecide | hdecide <;> rw [hdecide] at h
      · rcases h with h | h <;> cases h
      · rcases h with h | h <;> cases h

variable {t : State} {now : ℕ}

/-- What the side condition says of each entry. -/
lemma loses_or_other {e : Event} (h : leavesCared sql t e = true) :
    ∀ x ∈ t.deliveries.pending, loses sql t x e = false ∨ hasOther t e x.1 = true := by
  rw [leavesCared, Bool.and_eq_true, List.all_eq_true] at h
  intro x hx
  have hx := h.2 x hx
  rwa [Bool.or_eq_true, Bool.not_eq_true'] at hx

/-- Another attempt at the entry goes on. -/
lemma cared_of_other {e : Event} {rows : MailLogs} (h : hasOther t e k = true)
    (hends : e.ends = some a) : Cared sql rows (t.deliveries.attempts.delete a) k := by
  obtain ⟨y, hy, hother⟩ := List.any_eq_true.mp h
  rw [Bool.and_eq_true, decide_eq_true_eq, hends] at hother
  obtain ⟨hne, hat⟩ := hother
  exact Or.inr ⟨y, Table.mem_delete.mpr ⟨hy, fun heq => hne (heq ▸ rfl)⟩, hat⟩

/-- An attempt ends by an exception. -/
lemma ok_fails {e : Event} (h : Ok sql t.deliveries) (hok : leavesCared sql t e = true)
    (hends : e.ends = some a)
    (hloses : ∀ x, loses sql t x e = (!x.2.terminal && (t.deliveries.at a).any (isAt x.1) &&
      !scheduled sql t.deliveries.rows x.1)) : Ok sql (t.deliveries.finish a) := by
  refine ⟨fun x hx hlive => ?_, h.plans_finish, h.bounded⟩
  rcases loses_or_other hok x hx with hloses' | hother
  · rw [hloses, hlive, Bool.not_false, Bool.true_and, Bool.and_eq_false_iff,
      Bool.not_eq_false'] at hloses'
    rcases hloses' with hnot | hscheduled
    · rcases h.cared x hx hlive with hscheduled | ⟨y, hy, hat⟩
      · exact Or.inl hscheduled
      · refine Or.inr ⟨y, Table.mem_delete.mpr ⟨hy, ?_⟩, hat⟩
        rintro rfl
        rw [at_of_mem hy, Option.any_some, hat] at hnot
        cases hnot
    · exact Or.inl hscheduled
  · exact cared_of_other hother hends

/-- Another text's entry, when an attempt has written its row. -/
lemma cared_of_written {e : Event} {y : String × PendingDelivery} {f : MailLog → MailLog}
    {hf : ∀ row, (f row).id = row.id} (h : Ok sql t.deliveries) (hy : y ∈ t.deliveries.pending)
    (hlive : y.2.terminal = false) (hat : t.deliveries.at a = some x) (hnot : isAt y.1 x = false)
    (hends : e.ends = some a) (hok : sameRow sql logId y.1 = false ∨ hasOther t e y.1 = true) :
    Cared sql (updateLog sql t.deliveries.rows logId f hf) (t.deliveries.attempts.delete a)
      y.1 := by
  rcases hok with hrow | hother
  · refine ((h.cared y hy hlive).finish (mem_of_at hat) hnot).mono fun hscheduled => ?_
    rwa [scheduled_updateLog_of_not hrow]
  · exact cared_of_other hother hends

lemma ok_recordSent {attempts at' : ℕ} (h : Ok sql t.deliveries)
    (hat : t.deliveries.at a = some (.delivered logId attempts))
    (hok : leavesCared sql t (.act now (.recordSent a at')) = true) :
    Inv sql (updateLog sql t.deliveries.rows logId (.markSent attempts at') fun _ => rfl)
      (t.deliveries.attempts.delete a) (Pending.delete t.deliveries.pending logId) := by
  refine ⟨fun x hx hlive => ?_, h.plans_finish, (List.length_filter_le _ _).trans h.bounded⟩
  obtain ⟨hx, hne⟩ := mem_delete.mp hx
  refine cared_of_written (e := .act now (.recordSent a at')) h hx hlive hat
    (decide_eq_false (Ne.symm hne)) rfl ?_
  refine (loses_or_other hok x hx).imp_left fun hloses => ?_
  simpa [loses, hat, hlive, hne] using hloses

/-- A row that fails is scheduled, if the failure is not terminal and the row is there. -/
lemma scheduled_markFailed {rows : MailLogs} {failure : Failure}
    {hf : ∀ row : MailLog, (row.markFailed failure).id = row.id}
    (hplans : failure.nextRetryAt.isSome = true) (h : (findLog sql rows k).isSome = true)
    (hrow : sameRow sql logId k = true) :
    scheduled sql (updateLog sql rows logId (.markFailed failure) hf) k = true := by
  obtain ⟨row, hfind⟩ := Option.isSome_iff_exists.mp h
  rw [scheduled, findLog_updateLog, hfind, Option.map_some, if_pos hrow, Option.any_some,
    isScheduled, MailLog.markFailed, Bool.and_eq_true]
  exact ⟨decide_eq_true rfl, hplans⟩

lemma ok_recordFailure {failure : Failure} (h : Ok sql t.deliveries)
    (hat : t.deliveries.at a = some (.recording logId failure))
    (hok : leavesCared sql t (.act now (.recordFailure a)) = true) :
    Inv sql (updateLog sql t.deliveries.rows logId (.markFailed failure) fun _ => rfl)
      (t.deliveries.attempts.delete a) (reschedule t.deliveries.pending logId failure) := by
  have hplans : failure.nextRetryAt.isSome = !failure.terminal := h.plans _ (mem_of_at hat)
  have hbounded : (reschedule t.deliveries.pending logId failure).length ≤ maxPending := by
    rw [reschedule, List.length_map]
    exact h.bounded
  refine ⟨fun x hx hlive => ?_, h.plans_finish, hbounded⟩
  obtain ⟨y, hy, hkey, hterminal⟩ := mem_reschedule hx
  have hloses := loses_or_other hok y hy
  rw [hlive] at hterminal
  by_cases hown : y.1 = logId
  · -- the attempt's own entry
    rw [← hkey, if_pos hown] at hterminal
    rw [← hkey]
    rcases hloses with hloses | hother
    · have hrow : (findLog sql t.deliveries.rows logId).isSome = true := by
        simpa [loses, hat, ← hterminal, hown] using hloses
      refine Or.inl (scheduled_markFailed ?_ ?_ ?_)
      · rw [hplans, ← hterminal]
        rfl
      · rwa [hown]
      · rw [hown]
        exact decide_eq_true rfl
    · exact cared_of_other hother rfl
  · rw [← hkey, if_neg hown] at hterminal
    rw [← hkey]
    have hnot : isAt y.1 (.recording logId failure) = false := decide_eq_false (Ne.symm hown)
    cases hf : failure.terminal with
    | true =>
      refine cared_of_written h hy hterminal.symm hat hnot rfl
        (e := .act now (.recordFailure a)) (hloses.imp_left fun hloses => ?_)
      simpa [loses, hat, hf, ← hterminal, hown] using hloses
    | false =>
      refine ((h.cared y hy hterminal.symm).finish (mem_of_at hat) hnot).mono fun hscheduled => ?_
      cases hrow : sameRow sql logId y.1 with
      | true =>
        have hretry : failure.nextRetryAt.isSome = true := by
          rw [hplans, hf]
          rfl
        obtain ⟨row, hfind, -⟩ := (Option.any_eq_true _ _).mp hscheduled
        exact scheduled_markFailed hretry (Option.isSome_iff_exists.mpr ⟨row, hfind⟩) hrow
      | false => exact (scheduled_updateLog_of_not hrow).trans hscheduled

lemma ok_giveUp (h : Ok sql t.deliveries) (hat : t.deliveries.at a = some (.givingUp logId))
    (hok : leavesCared sql t (.act now (.giveUp a)) = true) :
    Inv sql (updateLog sql t.deliveries.rows logId .markContentGone fun _ => rfl)
      (t.deliveries.attempts.delete a) t.deliveries.pending := by
  refine ⟨fun x hx hlive => ?_, h.plans_finish, h.bounded⟩
  refine cared_of_written (e := .act now (.giveUp a)) h hx hlive hat rfl rfl ?_
  refine (loses_or_other hok x hx).imp_left fun hloses => ?_
  simpa [loses, hat, hlive] using hloses

/-- Rows are deleted, with an attempt at each of their entries. -/
lemma ok_deleteLogs {e : Event} {p : MailLog → Bool} (h : Ok sql t.deliveries)
    (hok : leavesCared sql t e = true)
    (hloses : ∀ x, loses sql t x e
      = (!x.2.terminal && (findLog sql t.deliveries.rows x.1).any p)) :
    Ok sql (deleteLogs t.deliveries p) := by
  refine ⟨fun x hx hlive => ?_, h.plans, h.bounded⟩
  rcases loses_or_other hok x hx with hloses' | hother
  · rw [hloses, hlive, Bool.not_false, Bool.true_and, Option.any_eq_false] at hloses'
    refine (h.cared x hx hlive).mono fun hscheduled => ?_
    obtain ⟨row, hfind, hrow⟩ := (Option.any_eq_true _ _).mp hscheduled
    rw [scheduled, deleteLogs, findLog_deleteWhere, Option.any_eq_true]
    refine ⟨row, ?_, hrow⟩
    rw [Option.filter_eq_some_iff]
    exact ⟨hfind, by simpa using hloses' row hfind⟩
  · obtain ⟨y, hy, hother⟩ := List.any_eq_true.mp hother
    rw [Bool.and_eq_true] at hother
    exact Or.inr ⟨y, hy, hother.2⟩

/-- What the side condition says of the entry a step adds. -/
lemma roomy {e : Event} (h : leavesCared sql t e = true) (hentry : entryOf t e = some logId) :
    (Pending.get t.deliveries.pending logId).isSome = true ∨
      hasRoom t.deliveries.pending = true := by
  rw [leavesCared, Bool.and_eq_true, fits, hentry, Option.all_some, Bool.or_eq_true] at h
  exact h.1

/-- An attempt that does not deliver has removed its entry, or has found none. -/
lemma ok_resume (h : Ok sql t.deliveries) (hok : leavesCared sql t (.act now (.resume a)) = true)
    (hs : Delivery.step sql t.deliveries (.resume a) = some s') : Ok sql s' := by
  have hnot : ∀ {k logId} {row : Option MailLog}, k ≠ logId → isAt k (.read logId row) = false :=
    fun hne => decide_eq_false (Ne.symm hne)
  cases effect_of_step hs with
  | nothing hat _ =>
    refine Inv.finish h (mem_of_at hat) (fun e he => ?_)
      ((List.length_filter_le _ _).trans h.bounded)
    obtain ⟨he, hne⟩ := mem_delete.mp he
    exact ⟨he, hnot hne⟩
  | leave hat hdecide =>
    have hnone := get_eq_none.mp (decideAttempt_none (Or.inl hdecide))
    exact Inv.finish h (mem_of_at hat) (fun e he => ⟨he, hnot (hnone e he)⟩) h.bounded
  | giveUpNext hat hdecide =>
    have hnone := get_eq_none.mp (decideAttempt_none (Or.inr hdecide))
    refine Inv.continue h (mem_of_at hat) (fun e he hk => ?_) trivial (fun _ he => Or.inl he)
      h.bounded
    rw [hnot (hnone e he)] at hk
    cases hk
  | @deliverNext _ attempts logId row rendered hat hdecide =>
    have hentry : entryOf t (.act now (.resume a)) = some logId := by
      rw [entryOf, hat]
      simp only [hdecide]
    refine Inv.continue h (mem_of_at hat) (fun _ _ hk => hk) trivial (fun e he => ?_)
      (length_keepRendered h.bounded (roomy hok hentry))
    exact (mem_keepRendered he).imp_right fun hk => decide_eq_true hk.symm
  | sweep hsweep => cases hsweep
  | ends hends => cases hends

lemma ok_act {action : Action} (h : Ok sql t.deliveries)
    (hok : leavesCared sql t (.act now action) = true)
    (hs : Delivery.step sql t.deliveries action = some s') : Ok sql s' := by
  cases effect_of_step hs with
  | sendQueued hnew _ hfree => exact Inv.begin (Inv.insert h hnew) hfree trivial
  | sendSkipped hnew _ => exact Inv.insert h hnew
  | retry hfree | sweepNext _ _ hfree => exact Inv.begin h hfree trivial
  | @queue a logId rendered hat =>
    have hentry : entryOf t (.act now (.queue a)) = some logId := by rw [entryOf, hat]
    exact ok_queue h hat (roomy hok hentry)
  | readRetry hat | retryGoesOn hat _ =>
    exact ok_continue h hat (fun _ hk => by cases hk) trivial
  | retryEnds hat => exact Inv.finish h (mem_of_at hat) (fun _ he => ⟨he, rfl⟩) h.bounded
  | sweep _ => exact h
  | read hat | deliver hat _ | deliverNobody hat _ =>
    exact ok_continue h hat (fun _ hk => hk) trivial
  | nothing _ _ | leave _ _ | giveUpNext _ _ | deliverNext _ _ => exact ok_resume h hok hs
  | noTransporter hat | refuse hat | sentFails hat =>
    exact ok_continue h hat (fun _ hk => hk) (failureOf_plans ..)
  | recordSent hat => exact ok_recordSent h hat hok
  | recordFailure hat => exact ok_recordFailure h hat hok
  | giveUp hat => exact ok_giveUp h hat hok
  | ends hends =>
    cases action with
    | transportThrows _ | readFails _ | updateFails _ =>
      cases hends
      exact ok_fails h hok rfl fun _ => rfl
    | _ => cases hends

lemma ok_step {e : Event} {t' : State} (h : Ok sql t.deliveries)
    (hok : leavesCared sql t e = true) (hs : step sql t e = some t') : Ok sql t'.deliveries := by
  cases e with
  | act now action =>
    obtain ⟨s', hs', rfl⟩ := Option.map_eq_some_iff.mp hs
    exact ok_act h hok hs'
  | removeMessage id =>
    cases hs
    exact ok_deleteLogs h hok fun _ => rfl
  | purgeOldMailLog now =>
    cases hs
    exact ok_deleteLogs h hok fun _ => rfl

/-! ### The other steps -/

/-- An entry in a place where no attempt is at it, and no sweep will take its row up. -/
lemma not_ok {x : String × PendingDelivery} (hx : x ∈ s.pending) (hlive : x.2.terminal = false)
    (hscheduled : scheduled sql s.rows x.1 = false)
    (hat : ∀ y ∈ s.attempts.rows, isAt x.1 y.2 = false) : ¬Ok sql s := by
  intro h
  rcases h.cared x hx hlive with hcared | ⟨y, hy, hcared⟩
  · rw [hscheduled] at hcared
    cases hcared
  · rw [hat y hy] at hcared
    cases hcared

lemma at_of_not_hasOther {e : Event} (h : hasOther t e k = false) (hends : e.ends = some a) :
    ∀ y ∈ (t.deliveries.attempts.delete a).rows, isAt k y.2 = false := by
  intro y hy
  obtain ⟨hy, hne⟩ := Table.mem_delete.mp hy
  have hother := List.any_eq_false.mp h y hy
  rw [hends] at hother
  simpa [Ne.symm hne] using hother

/-- A row that is written and not scheduled. -/
lemma scheduled_of_written {rows : MailLogs} (f : MailLog → MailLog)
    (hf : ∀ row, (f row).id = row.id) (hunscheduled : ∀ row, isScheduled (f row) = false)
    (hrow : sameRow sql logId k = true) :
    scheduled sql (updateLog sql rows logId f hf) k = false := by
  rw [scheduled, findLog_updateLog, Option.any_map, Option.any_eq_false]
  intro row _
  rw [if_pos hrow, hunscheduled]

/-- A row that is gone stays so. -/
lemma scheduled_of_gone {rows : MailLogs} (f : MailLog → MailLog)
    (hf : ∀ row, (f row).id = row.id) (hgone : findLog sql rows k = none) :
    scheduled sql (updateLog sql rows logId f hf) k = false := by
  rw [scheduled, findLog_updateLog, hgone]
  rfl

lemma not_fits {e : Event} (h : fits t e = false) : ∃ logId, entryOf t e = some logId ∧
    Pending.get t.deliveries.pending logId = none ∧ hasRoom t.deliveries.pending = false := by
  rw [fits, Option.all_eq_false] at h
  obtain ⟨logId, hentry, hfull⟩ := h
  rw [Bool.or_eq_false_iff, Option.isSome_eq_false_iff, Option.isNone_iff_eq_none] at hfull
  exact ⟨logId, hentry, hfull⟩

/-- An entry that is added to a full map goes beyond its bound. -/
lemma length_of_full {pending : Pending} {entry : PendingDelivery}
    (hnone : Pending.get pending logId = none) (hfull : hasRoom pending = false) :
    maxPending < (Pending.set (evictIfAtCapacity pending) logId entry).length := by
  rw [evict_of_not_hasRoom hfull, length_set, hnone]
  rw [hasRoom, Bool.or_eq_false_iff, decide_eq_false_iff_not] at hfull
  exact Nat.lt_succ_of_le (Nat.le_of_not_lt hfull.1)

lemma not_ok_of_not_fits {action : Action} (hbad : fits t (.act now action) = false)
    (hs : Delivery.step sql t.deliveries action = some s') : ¬Ok sql s' := by
  obtain ⟨logId, hentry, hnone, hfull⟩ := not_fits hbad
  suffices hlength : maxPending < s'.pending.length by
    exact fun h => Nat.not_le_of_lt hlength h.bounded
  cases action with
  | queue a =>
    simp only [entryOf] at hentry
    split at hentry <;> cases hentry
    next hat =>
      simp only [Delivery.step, hat] at hs
      cases hs
      exact length_of_full hnone hfull
  | resume a =>
    simp only [entryOf] at hentry
    split at hentry
    · next hat =>
      split at hentry <;> cases hentry
      next hdecide =>
        simp only [Delivery.step, hat, hdecide] at hs
        cases hs
        have hkept : ∀ rendered, keepRendered t.deliveries.pending logId rendered
            = Pending.set (evictIfAtCapacity t.deliveries.pending) logId ⟨rendered, none, false⟩ := by
          intro rendered
          rw [keepRendered, hnone]
          rfl
        rw [Delivery.State.continue, hkept]
        exact length_of_full hnone hfull
    · cases hentry
  | _ => cases hentry

/-- An entry loses what takes care of it, by the step of an attempt. -/
lemma not_ok_of_loses {action : Action} {x : String × PendingDelivery} (h : Ok sql t.deliveries)
    (hx : x ∈ t.deliveries.pending) (hloses : loses sql t x (.act now action) = true)
    (hother : hasOther t (.act now action) x.1 = false)
    (hs : Delivery.step sql t.deliveries action = some s') : ¬Ok sql s' := by
  cases action with
  | readFails a | transportThrows a | updateFails a =>
    simp only [loses, Bool.and_eq_true, Bool.not_eq_true'] at hloses
    obtain ⟨⟨hlive, -⟩, hscheduled⟩ := hloses
    rw [step_of_ends rfl hs]
    exact not_ok hx hlive hscheduled (at_of_not_hasOther hother rfl)
  | recordSent a at' =>
    simp only [loses] at hloses
    split at hloses
    · next logId attempts hat =>
      simp only [Bool.and_eq_true, Bool.not_eq_true', decide_eq_true_eq] at hloses
      obtain ⟨⟨hlive, hne⟩, hrow⟩ := hloses
      simp only [Delivery.step, hat] at hs
      cases hs
      exact not_ok (mem_delete.mpr ⟨hx, hne⟩) hlive
        (scheduled_of_written (.markSent attempts at') (fun _ => rfl) (fun _ => rfl) hrow)
        (at_of_not_hasOther hother rfl)
    · cases hloses
  | recordFailure a =>
    simp only [loses] at hloses
    split at hloses
    · next logId failure hat =>
      have hplans : failure.nextRetryAt.isSome = !failure.terminal := h.plans _ (mem_of_at hat)
      simp only [Delivery.step, hat] at hs
      cases hs
      have hentry := List.mem_map_of_mem (f := fun y : String × PendingDelivery =>
        if y.1 = logId then
          (y.1, { y.2 with nextRetryAt := failure.nextRetryAt, terminal := failure.terminal })
        else y) hx
      split_ifs at hloses with hterminal
      · simp only [Bool.and_eq_true, Bool.not_eq_true', decide_eq_true_eq] at hloses
        obtain ⟨⟨hlive, hne⟩, hrow⟩ := hloses
        rw [if_neg hne] at hentry
        have hnot : ∀ row, isScheduled (MailLog.markFailed failure row) = false := by
          intro row
          rw [isScheduled, MailLog.markFailed, hplans, hterminal]
          rfl
        exact not_ok hentry hlive
          (scheduled_of_written (.markFailed failure) (fun _ => rfl) hnot hrow)
          (at_of_not_hasOther hother rfl)
      · simp only [Bool.and_eq_true, decide_eq_true_eq, Option.isNone_iff_eq_none] at hloses
        obtain ⟨rfl, hgone⟩ := hloses
        rw [if_pos rfl] at hentry
        exact not_ok hentry (Bool.eq_false_iff.mpr hterminal)
          (scheduled_of_gone (.markFailed failure) (fun _ => rfl) hgone)
          (at_of_not_hasOther hother rfl)
    · cases hloses
  | giveUp a =>
    simp only [loses] at hloses
    split at hloses
    · next logId hat =>
      simp only [Bool.and_eq_true, Bool.not_eq_true'] at hloses
      obtain ⟨hlive, hrow⟩ := hloses
      simp only [Delivery.step, hat] at hs
      cases hs
      exact not_ok hx hlive
        (scheduled_of_written .markContentGone (fun _ => rfl) (fun _ => rfl) hrow)
        (at_of_not_hasOther hother rfl)
    · cases hloses
  | _ => cases hloses

/-- The row of an entry is deleted, and no attempt is at the entry. -/
lemma not_ok_deleteLogs {e : Event} {p : MailLog → Bool} {x : String × PendingDelivery}
    (hx : x ∈ t.deliveries.pending) (hlive : x.2.terminal = false)
    (hdeleted : (findLog sql t.deliveries.rows x.1).any p = true) (hends : e.ends = none)
    (hother : hasOther t e x.1 = false) : ¬Ok sql (deleteLogs t.deliveries p) := by
  refine not_ok hx hlive ?_ fun y hy => ?_
  · obtain ⟨row, hfind, hrow⟩ := (Option.any_eq_true _ _).mp hdeleted
    have hgone : (some row).filter (fun row => !p row) = none := by simp [Option.filter, hrow]
    rw [scheduled, deleteLogs, findLog_deleteWhere, hfind, hgone]
    rfl
  · have hy := List.any_eq_false.mp hother y hy
    rw [hends] at hy
    simpa using hy

/-- A step keeps the invariant exactly when it meets the side condition. -/
theorem ok_step_iff {e : Event} {t' : State} (h : Ok sql t.deliveries)
    (hs : step sql t e = some t') : Ok sql t'.deliveries ↔ leavesCared sql t e = true := by
  refine ⟨fun h' => ?_, fun hok => ok_step h hok hs⟩
  by_contra hbad
  rw [leavesCared, Bool.and_eq_true, not_and_or, Bool.not_eq_true, List.all_eq_true] at hbad
  rcases hbad with hfull | hloses
  · cases e with
    | act now action =>
      obtain ⟨s', hs', rfl⟩ := Option.map_eq_some_iff.mp hs
      exact not_ok_of_not_fits hfull hs' h'
    | removeMessage id => cases hfull
    | purgeOldMailLog now => cases hfull
  · rw [not_forall] at hloses
    obtain ⟨x, hloses⟩ := hloses
    rw [not_forall] at hloses
    obtain ⟨hx, hleft⟩ := hloses
    rw [Bool.not_eq_true, Bool.or_eq_false_iff, Bool.not_eq_false'] at hleft
    obtain ⟨hloses, hother⟩ := hleft
    cases e with
    | act now action =>
      obtain ⟨s', hs', rfl⟩ := Option.map_eq_some_iff.mp hs
      exact not_ok_of_loses h hx hloses hother hs' h'
    | removeMessage id =>
      simp only [loses, Bool.and_eq_true, Bool.not_eq_true'] at hloses
      cases hs
      exact not_ok_deleteLogs hx hloses.1 hloses.2 rfl hother h'
    | purgeOldMailLog now =>
      simp only [loses, Bool.and_eq_true, Bool.not_eq_true'] at hloses
      cases hs
      exact not_ok_deleteLogs hx hloses.1 hloses.2 rfl hother h'

end Step

/-! ### Every run -/

def contactParams : SendMailParams := { params with entity := some ("contact_messages", "9") }

/-- The first attempt is refused, and planned again. -/
def refusedOnce : List Event :=
  [.act 0 (.send 1 7 contactParams content), .act 0 (.queue 1), .act 0 (.read 1),
    .act 0 (.resume 1), .act 0 (.refuse 1 "busy" 0), .act 0 (.recordFailure 1)]

section Overflow

variable (sql : SqlNumeric) {s : Delivery.State} {k n : ℕ}

def mail : RenderedMail := ⟨"s", "h", "t"⟩

/-- `n` mails are queued, and the first `k` of them have failed for good. -/
structure Loaded (k n : ℕ) (s : Delivery.State) : Prop where
  ended : ∀ i, i < k ∨ n ≤ i → s.at i = none
  free : ∀ i, n ≤ i → s.rows.find i = none
  starting : ∀ i, k ≤ i → i < n → s.at i = some (.starting (toString i))
  queued : ∀ i, k ≤ i → i < n → s.rows.find i = some (newLog i params content)
  pending : s.pending = (List.range n).map fun i => (toString i, ⟨mail, none, decide (i < k)⟩)

lemma get_range {f : ℕ → PendingDelivery} (i : ℕ) :
    Pending.get ((List.range n).map fun i => (toString i, f i)) (toString i)
      = if i < n then some (f i) else none := by
  induction n with
  | zero => rfl
  | succ n ih =>
    rw [Pending.get] at ih
    rw [Pending.get, List.range_succ, List.map_append, List.find?_append, Option.map_or, ih]
    by_cases hn : n = i
    · subst hn
      simp
    · have hkey : ¬toString n = toString i := fun h => hn (toString_inj h)
      have hlt : i < n + 1 ↔ i < n := by omega
      have hnone : [(toString n, f n)].find? (fun x => decide (x.1 = toString i)) = none := by
        rw [List.find?_singleton, if_neg (by simpa using hkey)]
      rw [List.map_singleton, hnone, Option.map_none, Option.or_none]
      simp only [hlt]

/-- One more mail is queued. -/
lemma run_queue {i : ℕ} (hat : s.at i = none) (hrow : s.rows.find i = none) :
    ∃ s', Reach (Delivery.step sql) always s s' ∧
      (∀ j, s'.at j = if j = i then some (.starting (toString i)) else s.at j) ∧
      (∀ j, s'.rows.find j = if j = i then some (newLog i params content) else s.rows.find j) ∧
      s'.pending = Pending.set (evictIfAtCapacity s.pending) (toString i) ⟨mail, none, false⟩ := by
  have hfree : s.attempts.find i = none := Option.map_eq_none_iff.mp hat
  have hnew : s.rows.find (newLog i params content).id = none := hrow
  let s₁ : Delivery.State := { s with
    rows := s.rows.insert (newLog i params content) hnew
    attempts := s.attempts.insert (i, .written (toString i) mail) hfree }
  have hs₁ : Delivery.step sql s (.send i i params content) = some s₁ := by
    rw [Delivery.step]
    exact (dif_pos hnew).trans (dif_pos hfree)
  have hat₁ : ∀ j, s₁.at j = if j = i then some (.written (toString i) mail) else s.at j := by
    intro j
    rw [Delivery.State.at, Table.find_insert]
    split_ifs
    · rfl
    · rfl
  let s₂ : Delivery.State := { s₁ with
    pending := Pending.set (evictIfAtCapacity s.pending) (toString i) ⟨mail, none, false⟩ }
  have hwritten : s₂.at i = some (.written (toString i) mail) := (hat₁ i).trans (if_pos rfl)
  have hs₂ : Delivery.step sql s₁ (.queue i) = some (s₂.continue i (.starting (toString i))) := by
    have hat : s₁.at i = some (.written (toString i) mail) := hwritten
    simp only [Delivery.step, hat]
    rfl
  refine ⟨_, (Reach.init.snoc _ trivial hs₁).snoc _ trivial hs₂, fun j => ?_,
    fun j => Table.find_insert (h := hnew) j, rfl⟩
  rw [at_continue _ hwritten]
  split_ifs with hj
  · rfl
  · exact (hat₁ j).trans (if_neg hj)

/-- The transport is not configured, and the first attempt is the last. -/
lemma run_fail {i : ℕ} {row : MailLog} (hat : s.at i = some (.starting (toString i)))
    (hrow : s.rows.find i = some row)
    (hdecide : decideAttempt s.pending (toString i) (some row) = .deliver 1 mail)
    (hkept : keepRendered s.pending (toString i) mail = s.pending) :
    ∃ s', Reach (Delivery.step sql) always s s' ∧
      (∀ j, s'.at j = if j = i then none else s.at j) ∧
      (∀ j, j ≠ i → s'.rows.find j = s.rows.find j) ∧
      s'.pending = reschedule s.pending (toString i)
        (failureOf 1 "SMTP is not configured" true 0) := by
  let failure := failureOf 1 "SMTP is not configured" true 0
  have hfind : findLog sql s.rows (toString i) = some row := by
    rw [findLog, sql.canonical, Option.bind_some, hrow]
  let s₁ := s.continue i (.read (toString i) (some row))
  have hs₁ : Delivery.step sql s (.read i) = some s₁ := by
    simp only [Delivery.step, hat, hfind]
    rfl
  have hat₁ : s₁.at i = some (.read (toString i) (some row)) :=
    (at_continue _ hat i).trans (if_pos rfl)
  let s₂ := s₁.continue i (.sending (toString i) 1)
  have hs₂ : Delivery.step sql s₁ (.resume i) = some s₂ := by
    have hdecide₁ : decideAttempt s₁.pending (toString i) (some row) = .deliver 1 mail := hdecide
    have hkept₁ : keepRendered s₁.pending (toString i) mail = s₁.pending := hkept
    simp only [Delivery.step, hat₁, hdecide₁, hkept₁]
    rfl
  have hat₂ : s₂.at i = some (.sending (toString i) 1) := (at_continue _ hat₁ i).trans (if_pos rfl)
  let s₃ := s₂.continue i (.recording (toString i) failure)
  have hs₃ : Delivery.step sql s₂ (.noTransporter i 0) = some s₃ := by
    simp only [Delivery.step, hat₂]
    rfl
  have hat₃ : s₃.at i = some (.recording (toString i) failure) :=
    (at_continue _ hat₂ i).trans (if_pos rfl)
  have hid : ∀ row : MailLog, (row.markFailed failure).id = row.id := fun _ => rfl
  let s₄ : Delivery.State := { s₃ with
    rows := updateLog sql s.rows (toString i) (.markFailed failure) hid
    pending := reschedule s.pending (toString i) failure }
  have hs₄ : Delivery.step sql s₃ (.recordFailure i) = some (s₄.finish i) := by
    simp only [Delivery.step, hat₃]
    rfl
  refine ⟨_, (((Reach.init.snoc _ trivial hs₁).snoc _ trivial hs₂).snoc _ trivial hs₃).snoc _
    trivial hs₄, fun j => ?_, fun j hj => ?_, rfl⟩
  · rw [at_finish]
    split_ifs with hj
    · rfl
    · have hother : s₃.at j = s.at j := by
        rw [at_continue _ hat₂, if_neg hj, at_continue _ hat₁, if_neg hj, at_continue _ hat,
          if_neg hj]
      exact hother
  · have hfind : (updateLog sql s.rows (toString i) (.markFailed failure) hid).find j
        = s.rows.find j := by rw [find_updateLog, if_neg hj]
    exact hfind

lemma Loaded.queue (h : Loaded 0 n s) :
    ∃ s', Reach (Delivery.step sql) always s s' ∧ Loaded 0 (n + 1) s' := by
  obtain ⟨s', hs', hat, hrows, hpending⟩ :=
    run_queue sql (h.ended n (Or.inr le_rfl)) (h.free n le_rfl)
  refine ⟨s', hs', fun i hi => ?_, fun i hi => ?_, fun i _ hi => ?_, fun i _ hi => ?_, ?_⟩
  · rw [hat, if_neg (by omega)]
    exact h.ended i (by omega)
  · rw [hrows, if_neg (by omega)]
    exact h.free i (by omega)
  · rw [hat]
    split_ifs with hin
    · rw [hin]
    · exact h.starting i (Nat.zero_le i) (by omega)
  · rw [hrows]
    split_ifs with hin
    · rw [hin]
    · exact h.queued i (Nat.zero_le i) (by omega)
  · have hnone : Pending.get s.pending (toString n) = none := by
      rw [h.pending, get_range, if_neg (Nat.lt_irrefl n)]
    -- there is no terminal entry to evict
    have hevict : evictIfAtCapacity s.pending = s.pending := by
      rw [evictIfAtCapacity, List.eraseP_of_forall_not, ite_self]
      intro x hx
      rw [h.pending] at hx
      obtain ⟨i, -, rfl⟩ := List.mem_map.mp hx
      simp
    rw [hpending, hevict, Pending.set, hnone, h.pending, List.range_succ, List.map_append]
    rfl

lemma Loaded.fail (h : Loaded k n s) (hk : k < n) :
    ∃ s', Reach (Delivery.step sql) always s s' ∧ Loaded (k + 1) n s' := by
  have hget : Pending.get s.pending (toString k) = some ⟨mail, none, false⟩ := by
    rw [h.pending, get_range, if_pos hk, decide_eq_false (Nat.lt_irrefl k)]
  have hdecide : decideAttempt s.pending (toString k) (some (newLog k params content))
      = .deliver 1 mail := by
    have hunsent : ¬(newLog k params content).status = .sent := newLog_status k params content
    rw [decideAttempt, if_neg hunsent, hget]
    rfl
  have hkept : keepRendered s.pending (toString k) mail = s.pending := by
    rw [keepRendered, hget]
    rfl
  obtain ⟨s', hs', hat, hrows, hpending⟩ := run_fail sql (h.starting k le_rfl hk)
    (h.queued k le_rfl hk) hdecide hkept
  refine ⟨s', hs', fun i hi => ?_, fun i hi => ?_, fun i hki hi => ?_, fun i hki hi => ?_, ?_⟩
  · rw [hat]
    split_ifs with hik
    · rfl
    · exact h.ended i (by omega)
  · rw [hrows i (by omega)]
    exact h.free i hi
  · rw [hat, if_neg (by omega)]
    exact h.starting i (by omega) hi
  · rw [hrows i (by omega)]
    exact h.queued i (by omega) hi
  · rw [hpending, h.pending, reschedule, List.map_map]
    refine List.map_congr_left fun i _ => ?_
    rw [Function.comp_apply]
    by_cases hik : i = k
    · subst hik
      rw [if_pos rfl, decide_eq_true (Nat.lt_succ_self i)]
      rfl
    · have hkey : ¬toString i = toString k := fun h => hik (toString_inj h)
      have hlt : i < k + 1 ↔ i < k := by omega
      rw [if_neg hkey]
      simp only [hlt]

lemma exists_loaded_queued (n : ℕ) :
    ∃ s, Reach (Delivery.step sql) always (.init .empty) s ∧ Loaded 0 n s := by
  induction n with
  | zero =>
    exact ⟨_, .init, fun _ _ => rfl, fun _ _ => rfl, fun i _ hi => absurd hi (Nat.not_lt_zero i),
      fun i _ hi => absurd hi (Nat.not_lt_zero i), rfl⟩
  | succ n ih =>
    obtain ⟨s, hs, hloaded⟩ := ih
    obtain ⟨s', hs', hloaded'⟩ := hloaded.queue sql
    exact ⟨s', hs.trans hs', hloaded'⟩

lemma exists_loaded (hk : k ≤ n) :
    ∃ s, Reach (Delivery.step sql) always (.init .empty) s ∧ Loaded k n s := by
  induction k with
  | zero => exact exists_loaded_queued sql n
  | succ k ih =>
    obtain ⟨s, hs, hloaded⟩ := ih (Nat.le_of_succ_le hk)
    obtain ⟨s', hs', hloaded'⟩ := hloaded.fail sql hk
    exact ⟨s', hs.trans hs', hloaded'⟩

/-- A run of deliveries is a run of the system. -/
lemma reach_act (createdAt : ℕ → ℕ) {s₀ s : Delivery.State}
    (h : Reach (Delivery.step sql) always s₀ s) :
    ∃ createdAt', Reach (step sql) always ⟨s₀, createdAt⟩ ⟨s, createdAt'⟩ := by
  induction h with
  | init => exact ⟨createdAt, .init⟩
  | snoc action _ _ hs ih =>
    obtain ⟨createdAt', ih⟩ := ih
    refine ⟨stamp 0 createdAt' action, ih.snoc (.act 0 action) trivial ?_⟩
    rw [step, hs]
    rfl

/-- Any number of entries may be terminal, with nothing under way. -/
lemma terminal_unbounded (createdAt : ℕ → ℕ) (n : ℕ) :
    ∃ s : State, Reach (step sql) always (.init .empty createdAt) s ∧
      (∀ a, s.deliveries.at a = none) ∧
      (s.deliveries.pending.countP fun x => x.2.terminal) = n := by
  obtain ⟨s, hs, hloaded⟩ := exists_loaded sql (le_refl n)
  obtain ⟨createdAt', hs⟩ := reach_act sql createdAt hs
  refine ⟨⟨s, createdAt'⟩, hs, fun a => hloaded.ended a (Nat.lt_or_ge a n), ?_⟩
  rw [hloaded.pending, List.countP_map]
  have hterminal : ∀ i ∈ List.range n, decide (i < n) = true :=
    fun i hi => decide_eq_true (List.mem_range.mp hi)
  rw [List.countP_eq_length.mpr, List.length_range]
  exact hterminal

end Overflow

/-! ### Entries that stay -/

/-- `getTransporter` throws at the first attempt. -/
def transportThrown : List Event :=
  [.act 0 (.send 1 7 params content), .act 0 (.queue 1), .act 0 (.read 1), .act 0 (.resume 1),
    .act 0 (.transportThrows 1)]

/-- While its mail waits for the next retry, the message is deleted. -/
def messageRemoved : List Event := refusedOnce ++ [.removeMessage "9"]

/-- Nothing is under way, and there is an entry that is not terminal, of no row that a sweep will
take up. -/
def isLeft (s : State) : Bool :=
  s.deliveries.attempts.rows.isEmpty && s.deliveries.pending.any fun x =>
    !x.2.terminal && !scheduled .decimal s.deliveries.rows x.1

end SafeerApi.Mail.Entries
