import Mathlib.Algebra.BigOperators.Group.List.Basic
import Mathlib.Algebra.GroupWithZero.Nat
import Mathlib.Data.List.Sort
import SafeerApi.Lib.Reach

/-!
# Background work (`common/background/background-work.service.ts`)

Work a route starts but does not wait for. Tasks with one key run one after another in the order of
the calls, whoever makes them, and nothing of a task is kept once it has ended.
-/

namespace SafeerApi.Background

open Lib

/-! ### Tasks one after another -/

section Serial

variable {ι ε : Type*} {f g full : ι → List ε} {l : List ι}

/-- Where a task has begun only after the ones before it had ended, what has happened is the
beginning of all of them one after another. -/
lemma flatMap_prefix (hf : ∀ i, f i <+: full i)
    (h : l.Pairwise fun i j => f j ≠ [] → f i = full i) : l.flatMap f <+: l.flatMap full := by
  induction l with
  | nil => exact List.prefix_rfl
  | cons a l ih =>
    obtain ⟨ha, hl⟩ := List.pairwise_cons.mp h
    simp only [List.flatMap_cons]
    by_cases hfull : f a = full a
    · rw [hfull]
      exact (List.prefix_append_right_inj _).mpr (ih hl)
    · have hnone : l.flatMap f = [] := by
        rw [List.flatMap_eq_nil_iff]
        intro j hj
        by_contra hne
        exact hfull (ha j hj hne)
      rw [hnone, List.append_nil]
      exact (hf a).trans (List.prefix_append _ _)

/-- One task goes on while the ones after it have not begun. -/
lemma flatMap_advance [LinearOrder ι] {i : ι} {e : ε} (hl : l.Pairwise (· < ·)) (hi : i ∈ l)
    (hother : ∀ j, j ≠ i → g j = f j) (hg : g i = f i ++ [e])
    (hlater : ∀ j ∈ l, i < j → f j = []) : l.flatMap g = l.flatMap f ++ [e] := by
  induction l with
  | nil => simp at hi
  | cons a l ih =>
    obtain ⟨ha, hl⟩ := List.pairwise_cons.mp hl
    simp only [List.flatMap_cons]
    rcases List.mem_cons.mp hi with rfl | hi
    · have hempty : ∀ j ∈ l, f j = [] := fun j hj => hlater j (List.mem_cons_of_mem _ hj) (ha j hj)
      have hempty' : ∀ j ∈ l, g j = [] := fun j hj => by
        rw [hother j (ha j hj).ne', hempty j hj]
      rw [List.flatMap_eq_nil_iff.mpr hempty, List.flatMap_eq_nil_iff.mpr hempty', hg]
      simp
    · rw [hother a (ha i hi).ne, ih hl hi fun j hj => hlater j (List.mem_cons_of_mem _ hj),
        List.append_assoc]

end Serial

/-- What one more step of an element takes off a sum. -/
lemma sum_map_set {α : Type*} {f : α → ℕ} {l : List α} {i : ℕ} {a : α} (h : l[i]? = some a)
    (b : α) : ((l.set i b).map f).sum + f a = (l.map f).sum + f b := by
  induction l generalizing i with
  | nil => simp at h
  | cons c l ih =>
    cases i with
    | zero =>
      obtain rfl : c = a := by simpa using h
      simp only [List.set_cons_zero, List.map_cons, List.sum_cons]
      omega
    | succ i =>
      have hi := ih (i := i) (by simpa using h)
      simp only [List.set_cons_succ, List.map_cons, List.sum_cons]
      omega

/-! ### The service -/

/-- How far a task is: its promise `done` has settled once the task has ended, and what the service
kept of it is gone after that. -/
inductive Phase where
  | queued
  | running
  | done
  | cleaned
  deriving DecidableEq, Repr

def Phase.settled : Phase → Bool
  | .done | .cleaned => true
  | .queued | .running => false

/-- A call of `run()`, and the promise its task is chained to. -/
structure Task where
  label : String
  key : Option String
  previous : Option ℕ
  phase : Phase
  deriving DecidableEq, Repr

inductive Event where
  | started (id : ℕ)
  | finished (id : ℕ)
  deriving DecidableEq, Repr

/-- A caller of `settled()`. -/
inductive Waiter where
  | waiting (inFlight : List ℕ)
  | resolved
  deriving DecidableEq, Repr

/-- A task's id is its place among the calls. `events` is the history of the tasks, each under its
key. -/
structure Work where
  tasks : List Task
  inFlight : List ℕ
  tails : String → Option ℕ
  errors : List String
  waiters : ℕ → Option Waiter
  events : List (Option String × Event)

def Work.empty : Work := ⟨[], [], fun _ => none, [], fun _ => none, []⟩

/-- `BackgroundWork.run` -/
def Work.run (w : Work) (label : String) (key : Option String) : Work :=
  let id := w.tasks.length
  { w with
    tasks := w.tasks ++ [⟨label, key, key.bind w.tails, .queued⟩]
    inFlight := w.inFlight ++ [id]
    tails := match key with
      | some key => Function.update w.tails key (some id)
      | none => w.tails }

def Work.isSettled (w : Work) (id : ℕ) : Bool := (w.tasks[id]?).any fun t => t.phase.settled

/-- The callback of `done.finally`. -/
def Work.clean (w : Work) (id : ℕ) (t : Task) : Work :=
  { w with
    tasks := w.tasks.set id { t with phase := .cleaned }
    inFlight := w.inFlight.erase id
    tails := match t.key with
      | some key => if w.tails key = some id then Function.update w.tails key none else w.tails
      | none => w.tails }

/-- The loop of `BackgroundWork.settled`. -/
def Work.check (w : Work) : Waiter :=
  if w.inFlight = [] then .resolved else .waiting w.inFlight

/-- Calls come at any time, from routes and from tasks; a task ends when it likes, and may fail. -/
inductive Action where
  | call (label : String) (key : Option String)
  | start (id : ℕ)
  | finish (id : ℕ) (failed : Bool)
  | clean (id : ℕ)
  | settle (caller : ℕ)
  | wake (caller : ℕ)
  deriving DecidableEq, Repr

def step (w : Work) : Action → Option Work
  | .call label key => some (w.run label key)
  | .start id =>
    match w.tasks[id]? with
    | some t =>
      if t.phase = .queued ∧ t.previous.all w.isSettled = true then
        some { w with
          tasks := w.tasks.set id { t with phase := .running }
          events := w.events ++ [(t.key, .started id)] }
      else none
    | none => none
  | .finish id failed =>
    match w.tasks[id]? with
    | some t =>
      if t.phase = .running then
        some { w with
          tasks := w.tasks.set id { t with phase := .done }
          errors := if failed then w.errors ++ [t.label ++ " failed"] else w.errors
          events := w.events ++ [(t.key, .finished id)] }
      else none
    | none => none
  | .clean id =>
    match w.tasks[id]? with
    | some t => if t.phase = .done then some (w.clean id t) else none
    | none => none
  | .settle caller =>
    match w.waiters caller with
    | none => some { w with waiters := Function.update w.waiters caller (some w.check) }
    | some _ => none
  | .wake caller =>
    match w.waiters caller with
    | some (.waiting inFlight) =>
      if inFlight.all w.isSettled then
        some { w with waiters := Function.update w.waiters caller (some w.check) }
      else none
    | _ => none

/-- What a step does, one case a kind of step. -/
lemma step_cases {w w' : Work} {a : Action} (h : step w a = some w') :
    (∃ label key, a = .call label key ∧ w' = w.run label key) ∨
    (∃ id t, a = .start id ∧ w.tasks[id]? = some t ∧ t.phase = .queued ∧
      t.previous.all w.isSettled = true ∧ w' = { w with
        tasks := w.tasks.set id { t with phase := .running }
        events := w.events ++ [(t.key, .started id)] }) ∨
    (∃ id failed t errors, a = .finish id failed ∧ w.tasks[id]? = some t ∧ t.phase = .running ∧
      w' = { w with
        tasks := w.tasks.set id { t with phase := .done }
        errors := errors
        events := w.events ++ [(t.key, .finished id)] }) ∨
    (∃ id t, a = .clean id ∧ w.tasks[id]? = some t ∧ t.phase = .done ∧ w' = w.clean id t) ∨
    (∃ caller, (a = .settle caller ∨ a = .wake caller) ∧
      w' = { w with waiters := Function.update w.waiters caller (some w.check) }) := by
  cases a with
  | call label key => exact .inl ⟨label, key, rfl, (Option.some.inj h).symm⟩
  | start id =>
    simp only [step] at h
    split at h
    · next t ht =>
      split_ifs at h with hguard
      exact .inr (.inl ⟨id, t, rfl, ht, hguard.1, hguard.2, (Option.some.inj h).symm⟩)
    · cases h
  | finish id failed =>
    simp only [step] at h
    split at h
    · next t ht =>
      split_ifs at h with hrunning hfailed
      all_goals
        exact .inr (.inr (.inl ⟨id, failed, t, _, rfl, ht, hrunning, (Option.some.inj h).symm⟩))
    · cases h
  | clean id =>
    simp only [step] at h
    split at h
    · next t ht =>
      split_ifs at h with hdone
      exact .inr (.inr (.inr (.inl ⟨id, t, rfl, ht, hdone, (Option.some.inj h).symm⟩)))
    · cases h
  | settle caller =>
    simp only [step] at h
    split at h
    · exact .inr (.inr (.inr (.inr ⟨caller, .inl rfl, (Option.some.inj h).symm⟩)))
    · cases h
  | wake caller =>
    simp only [step] at h
    split at h
    · split_ifs at h
      exact .inr (.inr (.inr (.inr ⟨caller, .inr rfl, (Option.some.inj h).symm⟩)))
    · cases h

/-! ### The invariant -/

section Tasks

variable {tasks : List Task} {id : ℕ} {t : Task} {phase : Phase}

/-- A task has begun only after the earlier ones of its key had ended. -/
def Ordered (tasks : List Task) : Prop :=
  ∀ (i j : ℕ) (s t : Task) (key : String), i < j → tasks[i]? = some s → tasks[j]? = some t →
    s.key = some key → t.key = some key → t.phase ≠ .queued → s.phase.settled = true

/-- A task is chained to the earlier ones of its key that had not ended when it was called. -/
def Chained (tasks : List Task) : Prop :=
  ∀ (i j : ℕ) (s t : Task) (key : String), i < j → tasks[i]? = some s → tasks[j]? = some t →
    s.key = some key → t.key = some key → s.phase.settled = true ∨ ∃ p, t.previous = some p ∧ i ≤ p

/-- What a task is chained to is an earlier task of its key. -/
def Backward (tasks : List Task) : Prop :=
  ∀ (j : ℕ) (t : Task) (p : ℕ), tasks[j]? = some t → t.previous = some p →
    p < j ∧ ∃ s, tasks[p]? = some s ∧ s.key = t.key

/-- The tasks after one of them moved on. -/
lemma getElem?_phase {j : ℕ} {u : Task} (ht : tasks[id]? = some t)
    (hu : (tasks.set id { t with phase := phase })[j]? = some u) :
    ∃ u₀, tasks[j]? = some u₀ ∧ u.key = u₀.key ∧ u.previous = u₀.previous ∧
      (u = u₀ ∨ j = id ∧ u.phase = phase) := by
  rcases getElem?_set_some hu with ⟨rfl, rfl⟩ | ⟨-, hu⟩
  · exact ⟨t, ht, rfl, rfl, .inr ⟨rfl, rfl⟩⟩
  · exact ⟨u, hu, rfl, rfl, .inl rfl⟩

/-- A task is still there after one moved on. -/
lemma exists_phase (phase : Phase) {j : ℕ} {u : Task} (ht : tasks[id]? = some t)
    (hu : tasks[j]? = some u) :
    ∃ u', (tasks.set id { t with phase := phase })[j]? = some u' ∧ u'.key = u.key ∧
      (u' = u ∨ j = id ∧ u'.phase = phase) := by
  rw [List.getElem?_set]
  split_ifs with hj hlt
  · subst hj
    rw [ht] at hu
    cases hu
    exact ⟨_, rfl, rfl, .inr ⟨rfl, rfl⟩⟩
  · subst hj
    exact absurd (List.getElem?_eq_some_iff.mp ht).1 hlt
  · exact ⟨u, hu, rfl, .inl rfl⟩

lemma Backward.move (h : Backward tasks) (ht : tasks[id]? = some t) :
    Backward (tasks.set id { t with phase := phase }) := by
  intro j u p hu hp
  obtain ⟨u₀, hu₀, hkey, hprevious, -⟩ := getElem?_phase ht hu
  obtain ⟨hlt, s, hs, hskey⟩ := h j u₀ p hu₀ (hprevious ▸ hp)
  obtain ⟨s', hs', hskey', -⟩ := exists_phase phase ht hs
  exact ⟨hlt, s', hs', by rw [hskey', hskey, hkey]⟩

/-- A task that had ended stays so. -/
lemma Chained.move (h : Chained tasks) (ht : tasks[id]? = some t)
    (hkeep : t.phase.settled = true → phase.settled = true) :
    Chained (tasks.set id { t with phase := phase }) := by
  intro i j s u key hij hs hu hskey hukey
  obtain ⟨s₀, hs₀, hskey₀, -, hs⟩ := getElem?_phase ht hs
  obtain ⟨u₀, hu₀, hukey₀, hprevious, -⟩ := getElem?_phase ht hu
  rcases h i j s₀ u₀ key hij hs₀ hu₀ (hskey₀ ▸ hskey) (hukey₀ ▸ hukey) with hsettled | hchained
  · rcases hs with rfl | ⟨rfl, hphase⟩
    · exact .inl hsettled
    · rw [ht] at hs₀
      cases hs₀
      rw [hphase]
      exact .inl (hkeep hsettled)
  · exact .inr (hprevious ▸ hchained)

lemma Ordered.move (h : Ordered tasks) (ht : tasks[id]? = some t)
    (hkeep : t.phase.settled = true → phase.settled = true)
    (hbegin : t.phase = .queued → ∀ (i : ℕ) (s : Task) (key : String), i < id →
      tasks[i]? = some s → s.key = some key → t.key = some key → s.phase.settled = true) :
    Ordered (tasks.set id { t with phase := phase }) := by
  intro i j s u key hij hs hu hskey hukey hbegun
  obtain ⟨s₀, hs₀, hskey₀, -, hs⟩ := getElem?_phase ht hs
  obtain ⟨u₀, hu₀, hukey₀, -, hu⟩ := getElem?_phase ht hu
  have hsettled : s₀.phase.settled = true := by
    rcases hu with rfl | ⟨rfl, -⟩
    · exact h i j s₀ u key hij hs₀ hu₀ (hskey₀ ▸ hskey) hukey hbegun
    · rw [ht] at hu₀
      cases hu₀
      by_cases hqueued : t.phase = .queued
      · exact hbegin hqueued i s₀ key hij hs₀ (hskey₀ ▸ hskey) (hukey₀ ▸ hukey)
      · exact h i j s₀ t key hij hs₀ ht (hskey₀ ▸ hskey) (hukey₀ ▸ hukey) hqueued
  rcases hs with rfl | ⟨rfl, hphase⟩
  · exact hsettled
  · rw [ht] at hs₀
    cases hs₀
    rw [hphase]
    exact hkeep hsettled

end Tasks

/-- The tail of a key is its last task, for as long as the task has not been cleaned; a key without
a tail has no task that has not ended. -/
def Work.Tail (w : Work) (key : String) : Option ℕ → Prop
  | some id => (∃ t, w.tasks[id]? = some t ∧ t.key = some key ∧ t.phase ≠ .cleaned) ∧
      ∀ (i : ℕ) (s : Task), w.tasks[i]? = some s → s.key = some key → i ≤ id
  | none => ∀ (i : ℕ) (s : Task), w.tasks[i]? = some s → s.key = some key → s.phase.settled = true

structure Work.Inv (w : Work) : Prop where
  ordered : Ordered w.tasks
  chained : Chained w.tasks
  backward : Backward w.tasks
  tails : ∀ key, w.Tail key (w.tails key)
  nodup : w.inFlight.Nodup
  inFlight : ∀ id, id ∈ w.inFlight ↔ ∃ t, w.tasks[id]? = some t ∧ t.phase ≠ .cleaned

lemma inv_empty : Work.empty.Inv := by
  constructor <;> simp [Work.empty, Ordered, Chained, Backward, Work.Tail]

lemma getElem?_length_lt {tasks : List Task} {i : ℕ} {t : Task} (h : tasks[i]? = some t) :
    i < tasks.length := (List.getElem?_eq_some_iff.mp h).1

lemma Work.Inv.run {w : Work} (h : w.Inv) (label : String) (key : Option String) :
    (w.run label key).Inv := by
  have hold : ∀ {j : ℕ} {u : Task}, (w.run label key).tasks[j]? = some u →
      w.tasks[j]? = some u ∨ j = w.tasks.length ∧ u = ⟨label, key, key.bind w.tails, .queued⟩ := by
    intro j u hu
    simp only [Work.run, List.getElem?_append] at hu
    split_ifs at hu with hj
    · exact .inl hu
    · have hlt := getElem?_length_lt hu
      simp only [List.length_singleton] at hlt
      have hj : j = w.tasks.length := by omega
      subst hj
      exact .inr ⟨rfl, by simpa using hu.symm⟩
  have hkept : ∀ {j : ℕ} {u : Task}, w.tasks[j]? = some u →
      (w.run label key).tasks[j]? = some u := by
    intro j u hu
    simp only [Work.run]
    rw [List.getElem?_append_left (getElem?_length_lt hu)]
    exact hu
  have hnew : (w.run label key).tasks[w.tasks.length]?
      = some ⟨label, key, key.bind w.tails, .queued⟩ := by
    simp [Work.run]
  constructor
  · intro i j s u k hij hs hu hskey hukey hbegun
    rcases hold hu with hu | ⟨rfl, rfl⟩
    · rcases hold hs with hs | ⟨rfl, -⟩
      · exact h.ordered i j s u k hij hs hu hskey hukey hbegun
      · have := getElem?_length_lt hu
        omega
    · exact absurd rfl hbegun
  · intro i j s u k hij hs hu hskey hukey
    rcases hold hu with hu | ⟨rfl, rfl⟩
    · rcases hold hs with hs | ⟨rfl, -⟩
      · exact h.chained i j s u k hij hs hu hskey hukey
      · have := getElem?_length_lt hu
        omega
    · rcases hold hs with hs' | ⟨rfl, -⟩
      · obtain rfl : key = some k := hukey
        have htail := h.tails k
        cases hlast : w.tails k with
        | none =>
          rw [hlast] at htail
          exact .inl (htail i s hs' hskey)
        | some p =>
          rw [hlast] at htail
          exact .inr ⟨p, hlast, htail.2 i s hs' hskey⟩
      · omega
  · intro j u p hu hp
    rcases hold hu with hu | ⟨rfl, rfl⟩
    · obtain ⟨hlt, s, hs, hskey⟩ := h.backward j u p hu hp
      exact ⟨hlt, s, hkept hs, hskey⟩
    · obtain ⟨k, rfl, hlast⟩ := Option.bind_eq_some_iff.mp hp
      have htail := h.tails k
      rw [hlast] at htail
      obtain ⟨⟨s, hs, hskey, -⟩, -⟩ := htail
      exact ⟨getElem?_length_lt hs, s, hkept hs, hskey⟩
  · intro k
    by_cases hk : key = some k
    · subst hk
      simp only [Work.run, Function.update_self]
      refine ⟨⟨_, hnew, rfl, by simp⟩, fun i s hs _ => ?_⟩
      have := getElem?_length_lt hs
      simp only [List.length_append, List.length_singleton] at this
      omega
    · have htails : (w.run label key).tails k = w.tails k := by
        simp only [Work.run]
        cases key with
        | none => rfl
        | some key' => exact Function.update_of_ne (fun heq => hk (by rw [heq])) _ _
      rw [htails]
      have htail := h.tails k
      have hothers : ∀ (i : ℕ) (s : Task), (w.run label key).tasks[i]? = some s → s.key = some k →
          w.tasks[i]? = some s := by
        intro i s hs hskey
        rcases hold hs with hs | ⟨-, rfl⟩
        · exact hs
        · exact absurd hskey hk
      cases hlast : w.tails k with
      | none =>
        rw [hlast] at htail
        exact fun i s hs hskey => htail i s (hothers i s hs hskey) hskey
      | some p =>
        rw [hlast] at htail
        obtain ⟨⟨t, ht, htkey, hphase⟩, hlast⟩ := htail
        exact ⟨⟨t, hkept ht, htkey, hphase⟩,
          fun i s hs hskey => hlast i s (hothers i s hs hskey) hskey⟩
  · simp only [Work.run]
    rw [List.nodup_append]
    refine ⟨h.nodup, List.nodup_singleton _, ?_⟩
    rintro i hi _ hj rfl
    obtain ⟨t, ht, -⟩ := (h.inFlight i).mp hi
    have := getElem?_length_lt ht
    rw [List.mem_singleton.mp hj] at this
    omega
  · intro i
    have hmem : i ∈ (w.run label key).inFlight ↔ i ∈ w.inFlight ∨ i = w.tasks.length := by
      simp [Work.run]
    rw [hmem, h.inFlight]
    constructor
    · rintro (⟨t, ht, hphase⟩ | rfl)
      · exact ⟨t, hkept ht, hphase⟩
      · exact ⟨_, hnew, by simp⟩
    · rintro ⟨t, ht, hphase⟩
      rcases hold ht with ht | ⟨rfl, -⟩
      · exact .inl ⟨t, ht, hphase⟩
      · exact .inr rfl

/-- A task moves on, and the service keeps what it has of it. -/
lemma Work.Inv.move {w w' : Work} {id : ℕ} {t : Task} {phase : Phase} (h : w.Inv)
    (ht : w.tasks[id]? = some t) (htasks : w'.tasks = w.tasks.set id { t with phase := phase })
    (htails : w'.tails = w.tails) (hinFlight : w'.inFlight = w.inFlight)
    (hlive : t.phase ≠ .cleaned ∧ phase ≠ .cleaned)
    (hkeep : t.phase.settled = true → phase.settled = true)
    (hbegin : t.phase = .queued → ∀ (i : ℕ) (s : Task) (key : String), i < id →
      w.tasks[i]? = some s → s.key = some key → t.key = some key → s.phase.settled = true) :
    w'.Inv := by
  constructor
  · exact htasks ▸ h.ordered.move ht hkeep hbegin
  · exact htasks ▸ h.chained.move ht hkeep
  · exact htasks ▸ h.backward.move ht
  · intro key
    rw [htails]
    have htail := h.tails key
    cases hlast : w.tails key with
    | none =>
      rw [hlast] at htail
      intro i s hs hskey
      obtain ⟨s₀, hs₀, hskey₀, -, hs⟩ := getElem?_phase ht (htasks ▸ hs)
      have hsettled := htail i s₀ hs₀ (hskey₀ ▸ hskey)
      rcases hs with rfl | ⟨rfl, hphase⟩
      · exact hsettled
      · rw [ht] at hs₀
        cases hs₀
        rw [hphase]
        exact hkeep hsettled
    | some p =>
      rw [hlast] at htail
      obtain ⟨⟨u, hu, hukey, hphase⟩, hlast⟩ := htail
      obtain ⟨u', hu', hukey', hmoved⟩ := exists_phase phase ht hu
      refine ⟨⟨u', htasks ▸ hu', by rw [hukey', hukey], ?_⟩, fun i s hs hskey => ?_⟩
      · rcases hmoved with rfl | ⟨-, hphase'⟩
        · exact hphase
        · exact hphase' ▸ hlive.2
      · obtain ⟨s₀, hs₀, hskey₀, -⟩ := getElem?_phase ht (htasks ▸ hs)
        exact hlast i s₀ hs₀ (hskey₀ ▸ hskey)
  · exact hinFlight ▸ h.nodup
  · intro i
    rw [hinFlight, h.inFlight]
    constructor
    · rintro ⟨u, hu, hphase⟩
      obtain ⟨u', hu', -, hmoved⟩ := exists_phase phase ht hu
      refine ⟨u', htasks ▸ hu', ?_⟩
      rcases hmoved with rfl | ⟨-, hphase'⟩
      · exact hphase
      · exact hphase' ▸ hlive.2
    · rintro ⟨u, hu, hphase⟩
      obtain ⟨u₀, hu₀, -, -, hmoved⟩ := getElem?_phase ht (htasks ▸ hu)
      refine ⟨u₀, hu₀, ?_⟩
      rcases hmoved with rfl | ⟨rfl, -⟩
      · exact hphase
      · rw [ht] at hu₀
        cases hu₀
        exact hlive.1

/-- What a task is chained to has ended: so have all the earlier tasks of its key. -/
lemma Work.Inv.earlier {w : Work} (h : w.Inv) {id : ℕ} {t : Task} (ht : w.tasks[id]? = some t)
    (hprevious : t.previous.all w.isSettled = true) {i : ℕ} {s : Task} {key : String} (hi : i < id)
    (hs : w.tasks[i]? = some s) (hskey : s.key = some key) (htkey : t.key = some key) :
    s.phase.settled = true := by
  rcases h.chained i id s t key hi hs ht hskey htkey with hsettled | ⟨p, hp, hip⟩
  · exact hsettled
  · rw [hp] at hprevious
    obtain ⟨-, q, hq, hqkey⟩ := h.backward id t p ht hp
    have hqsettled : q.phase.settled = true := by
      simpa [Work.isSettled, hq] using hprevious
    rcases hip.lt_or_eq with hlt | rfl
    · refine h.ordered i p s q key hlt hs hq hskey (hqkey.trans htkey) ?_
      rintro hqueued
      rw [hqueued] at hqsettled
      cases hqsettled
    · rw [hs] at hq
      cases hq
      exact hqsettled

lemma Work.Inv.clean {w : Work} {id : ℕ} {t : Task} (h : w.Inv) (ht : w.tasks[id]? = some t)
    (hdone : t.phase = .done) : (w.clean id t).Inv := by
  have hsettled : t.phase.settled = true := by rw [hdone]; rfl
  constructor
  · exact h.ordered.move ht (fun _ => rfl) fun hqueued => by rw [hdone] at hqueued; cases hqueued
  · exact h.chained.move ht fun _ => rfl
  · exact h.backward.move ht
  · intro key
    have htail := h.tails key
    by_cases hid : w.tails key = some id
    · -- the task was the last of its key
      rw [hid] at htail
      obtain ⟨⟨u, hu, hukey, -⟩, hlast⟩ := htail
      rw [ht] at hu
      cases hu
      have hnone : (w.clean id t).tails key = none := by
        simp [Work.clean, hukey, hid]
      rw [hnone]
      intro i s hs hskey
      obtain ⟨s₀, hs₀, hskey₀, -, hs⟩ := getElem?_phase ht hs
      rcases hs with rfl | ⟨-, hphase⟩
      · rcases (hlast i s hs₀ hskey).lt_or_eq with hlt | rfl
        · refine h.ordered i id s t key hlt hs₀ ht hskey hukey ?_
          rw [hdone]
          simp
        · rw [ht] at hs₀
          cases hs₀
          exact hsettled
      · rw [hphase]
        rfl
    · have hkept : (w.clean id t).tails key = w.tails key := by
        simp only [Work.clean]
        cases t.key with
        | none => rfl
        | some key' =>
          show (if w.tails key' = some id then Function.update w.tails key' none
            else w.tails) key = w.tails key
          split_ifs with hkey'
          · exact Function.update_of_ne (fun heq : key = key' => hid (heq ▸ hkey')) _ _
          · rfl
      rw [hkept]
      cases hp : w.tails key with
      | none =>
        rw [hp] at htail
        intro i s hs hskey
        obtain ⟨s₀, hs₀, hskey₀, -, hs⟩ := getElem?_phase ht hs
        rcases hs with rfl | ⟨-, hphase⟩
        · exact htail i s hs₀ hskey
        · rw [hphase]
          rfl
      | some p =>
        rw [hp] at htail hid
        obtain ⟨⟨u, hu, hukey, hphase⟩, hlast⟩ := htail
        obtain ⟨u', hu', hukey', hmoved⟩ := exists_phase .cleaned ht hu
        refine ⟨⟨u', hu', by rw [hukey', hukey], ?_⟩, fun i s hs hskey => ?_⟩
        · rcases hmoved with rfl | ⟨rfl, -⟩
          · exact hphase
          · exact absurd rfl hid
        · obtain ⟨s₀, hs₀, hskey₀, -⟩ := getElem?_phase ht hs
          exact hlast i s₀ hs₀ (hskey₀ ▸ hskey)
  · exact h.nodup.erase id
  · intro i
    have hmem : i ∈ (w.clean id t).inFlight ↔ i ≠ id ∧ i ∈ w.inFlight := h.nodup.mem_erase_iff
    rw [hmem, h.inFlight]
    constructor
    · rintro ⟨hne, u, hu, hphase⟩
      obtain ⟨u', hu', -, hmoved⟩ := exists_phase .cleaned ht hu
      refine ⟨u', hu', ?_⟩
      rcases hmoved with rfl | ⟨heq, -⟩
      · exact hphase
      · exact absurd heq hne
    · rintro ⟨u, hu, hphase⟩
      obtain ⟨u₀, hu₀, -, -, hmoved⟩ := getElem?_phase ht hu
      rcases hmoved with rfl | ⟨-, hphase'⟩
      · refine ⟨?_, u, hu₀, hphase⟩
        rintro rfl
        have hlt := getElem?_length_lt ht
        simp only [Work.clean, List.getElem?_set_self hlt, Option.some.injEq] at hu
        rw [← hu] at hphase
        exact hphase rfl
      · exact absurd hphase' hphase

lemma inv_step {w w' : Work} {a : Action} (h : w.Inv) (hstep : step w a = some w') : w'.Inv := by
  rcases step_cases hstep with ⟨label, key, -, rfl⟩ |
    ⟨id, t, -, ht, hqueued, hprevious, rfl⟩ | ⟨id, -, t, -, -, ht, hrunning, rfl⟩ |
    ⟨id, t, -, ht, hdone, rfl⟩ | ⟨caller, -, rfl⟩
  · exact h.run label key
  · refine h.move ht rfl rfl rfl (by simp [hqueued]) (by simp [hqueued, Phase.settled]) ?_
    exact fun _ i s key hi hs hskey htkey => h.earlier ht hprevious hi hs hskey htkey
  · refine h.move ht rfl rfl rfl (by simp [hrunning]) (by simp [Phase.settled]) ?_
    simp [hrunning]
  · exact h.clean ht hdone
  · exact ⟨h.ordered, h.chained, h.backward, h.tails, h.nodup, h.inFlight⟩

lemma inv_reach {w : Work} (h : Reach step always Work.empty w) : w.Inv :=
  h.invariant inv_empty fun _ _ _ hinv _ hstep => inv_step hinv hstep

/-! ### The order of the tasks -/

/-- The tasks of a key, in the order of the calls. -/
def Work.calls (w : Work) (key : String) : List ℕ :=
  (List.range w.tasks.length).filter fun id => (w.tasks[id]?).any fun t => t.key = some key

/-- What has happened of the tasks of a key. -/
def Work.history (w : Work) (key : String) : List Event :=
  (w.events.filter fun e => e.1 = some key).map Prod.snd

/-- A task that starts and ends before anything else happens. -/
def whole (id : ℕ) : List Event := [.started id, .finished id]

/-- What has happened of a task. -/
def Phase.events (id : ℕ) : Phase → List Event
  | .queued => []
  | .running => [.started id]
  | .done | .cleaned => whole id

def Work.eventsOf (w : Work) (id : ℕ) : List Event :=
  ((w.tasks[id]?).map fun t => t.phase.events id).getD []

lemma calls_sorted (w : Work) (key : String) : (w.calls key).Pairwise (· < ·) :=
  List.pairwise_lt_range.filter _

lemma mem_calls {w : Work} {key : String} {id : ℕ} :
    id ∈ w.calls key ↔ ∃ t, w.tasks[id]? = some t ∧ t.key = some key := by
  simp only [Work.calls, List.mem_filter, List.mem_range, Option.any_eq_true, decide_eq_true_eq]
  exact ⟨fun h => h.2, fun h => ⟨getElem?_length_lt h.choose_spec.1, h⟩⟩

/-- A task that moves on keeps its place. -/
lemma calls_move {w w' : Work} {id : ℕ} {t : Task} {phase : Phase} (ht : w.tasks[id]? = some t)
    (htasks : w'.tasks = w.tasks.set id { t with phase := phase }) (key : String) :
    w'.calls key = w.calls key := by
  simp only [Work.calls, htasks, List.length_set]
  apply List.filter_congr
  intro i hi
  rw [List.getElem?_set]
  split_ifs with heq hlt
  · subst heq
    simp [ht]
  · subst heq
    exact absurd (List.mem_range.mp hi) hlt
  · rfl

lemma eventsOf_move {w w' : Work} {id : ℕ} {t : Task} {phase : Phase} (ht : w.tasks[id]? = some t)
    (htasks : w'.tasks = w.tasks.set id { t with phase := phase }) :
    w'.eventsOf id = phase.events id ∧ ∀ i, i ≠ id → w'.eventsOf i = w.eventsOf i := by
  simp only [Work.eventsOf, htasks]
  constructor
  · rw [List.getElem?_set_self (getElem?_length_lt ht)]
    rfl
  · intro i hi
    rw [List.getElem?_set_ne hi.symm]

/-- What has happened of a key is what has happened of its tasks, one after another. -/
def Work.Told (w : Work) : Prop := ∀ key, w.history key = (w.calls key).flatMap w.eventsOf

/-- A task moves on while nothing has happened of the later ones of its key. -/
lemma Work.Told.move {w w' : Work} {id : ℕ} {t : Task} {phase : Phase} {e : Event} (h : w.Told)
    (hinv : w.Inv) (ht : w.tasks[id]? = some t) (hlive : t.phase.settled = false)
    (htasks : w'.tasks = w.tasks.set id { t with phase := phase })
    (hevents : w'.events = w.events ++ [(t.key, e)])
    (hphase : phase.events id = t.phase.events id ++ [e]) : w'.Told := by
  intro key
  obtain ⟨hmoved, hothers⟩ := eventsOf_move ht htasks
  rw [calls_move ht htasks]
  by_cases hkey : t.key = some key
  · have hhistory : w'.history key = w.history key ++ [e] := by
      simp [Work.history, hevents, List.filter_append, hkey]
    have hid : id ∈ w.calls key := mem_calls.mpr ⟨t, ht, hkey⟩
    rw [hhistory, h key]
    refine (flatMap_advance (calls_sorted w key) hid hothers ?_ fun j hj hij => ?_).symm
    · rw [hmoved, hphase]
      simp [Work.eventsOf, ht]
    · obtain ⟨u, hu, hukey⟩ := mem_calls.mp hj
      have hqueued : u.phase = .queued := by
        by_contra hne
        have hsettled := hinv.ordered id j t u key hij ht hu hkey hukey hne
        rw [hlive] at hsettled
        cases hsettled
      simp [Work.eventsOf, hu, hqueued, Phase.events]
  · have hhistory : w'.history key = w.history key := by
      simp [Work.history, hevents, List.filter_append, hkey]
    rw [hhistory, h key, List.flatMap_def, List.flatMap_def]
    congr 1
    apply List.map_congr_left
    intro i hi
    refine (hothers i ?_).symm
    rintro rfl
    obtain ⟨u, hu, hukey⟩ := mem_calls.mp hi
    rw [ht] at hu
    cases hu
    exact hkey hukey

lemma told_step {w w' : Work} {a : Action} (h : w.Told) (hinv : w.Inv)
    (hstep : step w a = some w') : w'.Told := by
  rcases step_cases hstep with ⟨label, key, -, rfl⟩ |
    ⟨id, t, -, ht, hqueued, -, rfl⟩ | ⟨id, -, t, -, -, ht, hrunning, rfl⟩ |
    ⟨id, t, -, ht, hdone, rfl⟩ | ⟨caller, -, rfl⟩
  · intro k
    have hold : ∀ i, i < w.tasks.length → (w.run label key).tasks[i]? = w.tasks[i]? :=
      fun i hi => List.getElem?_append_left hi
    have hcalls : (w.run label key).calls k
        = w.calls k ++ if key = some k then [w.tasks.length] else [] := by
      have hlength : (w.run label key).tasks.length = w.tasks.length + 1 := by simp [Work.run]
      have hfirst : (List.range w.tasks.length).filter
          (fun id => ((w.run label key).tasks[id]?).any fun t => t.key = some k)
            = w.calls k :=
        List.filter_congr fun i hi => by rw [hold i (List.mem_range.mp hi)]
      rw [Work.calls, hlength, List.range_succ, List.filter_append, hfirst]
      congr 1
      by_cases hkey : key = some k <;> simp [Work.run, hkey]
    have hkept :
        (w.calls k).flatMap (w.run label key).eventsOf = (w.calls k).flatMap w.eventsOf := by
      rw [List.flatMap_def, List.flatMap_def]
      congr 1
      apply List.map_congr_left
      intro i hi
      obtain ⟨t, ht, -⟩ := mem_calls.mp hi
      simp only [Work.eventsOf, hold i (getElem?_length_lt ht)]
    have hnew : (w.run label key).eventsOf w.tasks.length = [] := by
      simp [Work.eventsOf, Work.run, Phase.events]
    rw [hcalls, List.flatMap_append, hkept, show (w.run label key).history k = w.history k from rfl,
      h k]
    split_ifs <;> simp [hnew]
  · exact h.move hinv ht (by simp [hqueued, Phase.settled]) rfl rfl (by simp [hqueued, Phase.events])
  · exact h.move hinv ht (by simp [hrunning, Phase.settled]) rfl rfl
      (by simp [hrunning, Phase.events, whole])
  · intro key
    have htasks : (w.clean id t).tasks = w.tasks.set id { t with phase := .cleaned } := rfl
    obtain ⟨hmoved, hothers⟩ := eventsOf_move ht htasks
    have hsame : (w.clean id t).eventsOf = w.eventsOf := by
      funext i
      by_cases hi : i = id
      · subst hi
        rw [hmoved]
        simp [Work.eventsOf, ht, hdone, Phase.events]
      · exact hothers i hi
    rw [calls_move ht htasks, hsame]
    exact h key
  · exact h

lemma told_reach {w : Work} (h : Reach step always Work.empty w) : w.Told := by
  induction h with
  | init =>
    intro key
    simp [Work.empty, Work.history, Work.calls]
  | snoc a hreach _ hs ih => exact told_step ih (inv_reach hreach) hs

/-- What has happened of the tasks of a key, in any run, is the beginning of the tasks being run one
after another in the order of the calls. -/
theorem keyed_tasks_serial {w : Work} (h : Reach step always Work.empty w) (key : String) :
    w.history key <+: (w.calls key).flatMap whole := by
  rw [told_reach h key]
  have hinv := inv_reach h
  apply flatMap_prefix
  · intro i
    cases ht : w.tasks[i]? with
    | none => simp [Work.eventsOf, ht]
    | some t => cases hphase : t.phase <;> simp [Work.eventsOf, ht, hphase, Phase.events, whole]
  · refine List.Pairwise.imp_of_mem ?_ (calls_sorted w key)
    intro i j hi hj hij hbegun
    obtain ⟨s, hs, hskey⟩ := mem_calls.mp hi
    obtain ⟨t, ht, htkey⟩ := mem_calls.mp hj
    have hsettled := hinv.ordered i j s t key hij hs ht hskey htkey ?_
    · cases hphase : s.phase with
      | queued => simp [hphase, Phase.settled] at hsettled
      | running => simp [hphase, Phase.settled] at hsettled
      | done => simp [Work.eventsOf, hs, hphase, Phase.events]
      | cleaned => simp [Work.eventsOf, hs, hphase, Phase.events]
    · intro hqueued
      simp [Work.eventsOf, ht, hqueued, Phase.events] at hbegun

/-- Two tasks of one key, the first of which fails, and one without a key between them. -/
def twoOfOneKey : List Action :=
  [.call "a" (some "k"), .call "b" none, .call "c" (some "k"), .start 1, .start 0, .finish 0 true,
    .start 2]

theorem keyed_tasks_serial_two : ∃ w, Lib.run step Work.empty twoOfOneKey = some w ∧
    w.history "k" = [.started 0, .finished 0, .started 2] ∧
      w.history "k" <+: (w.calls "k").flatMap whole := by
  obtain ⟨w, hrun, hhistory⟩ := exists_of_run step Work.empty twoOfOneKey
    (P := fun w => w.history "k" = [.started 0, .finished 0, .started 2]) (by decide)
  exact ⟨w, hrun, hhistory, keyed_tasks_serial (Reach.of_run hrun) "k"⟩

/-! ### The end of the work -/

/-- The steps a task takes by itself. -/
def Action.ofTask : Action → Bool
  | .start _ | .finish _ _ | .clean _ => true
  | .call _ _ | .settle _ | .wake _ => false

def Phase.stepsLeft : Phase → ℕ
  | .queued => 3
  | .running => 2
  | .done => 1
  | .cleaned => 0

/-- How many steps the tasks have to take until they have all ended. -/
def Work.stepsLeft (w : Work) : ℕ := (w.tasks.map fun t => t.phase.stepsLeft).sum

lemma stepsLeft_move {tasks : List Task} {id : ℕ} {t : Task} (ht : tasks[id]? = some t)
    (phase : Phase) :
    ((tasks.set id { t with phase := phase }).map fun t => t.phase.stepsLeft).sum +
      t.phase.stepsLeft = (tasks.map fun t => t.phase.stepsLeft).sum + phase.stepsLeft :=
  sum_map_set (f := fun t : Task => t.phase.stepsLeft) ht { t with phase := phase }

lemma stepsLeft_step {w w' : Work} {a : Action} (ha : a.ofTask = true) (h : step w a = some w') :
    w'.stepsLeft + 1 = w.stepsLeft := by
  simp only [Work.stepsLeft]
  rcases step_cases h with ⟨label, key, rfl, -⟩ | ⟨id, t, rfl, ht, hphase, -, rfl⟩ |
    ⟨id, failed, t, errors, rfl, ht, hphase, rfl⟩ | ⟨id, t, rfl, ht, hphase, rfl⟩ |
    ⟨caller, rfl | rfl, -⟩
  · cases ha
  · have hmove := stepsLeft_move ht .running
    rw [hphase] at hmove
    simp only [Phase.stepsLeft] at hmove ⊢
    omega
  · have hmove := stepsLeft_move ht .done
    rw [hphase] at hmove
    simp only [Phase.stepsLeft] at hmove ⊢
    omega
  · have hmove := stepsLeft_move ht .cleaned
    rw [hphase] at hmove
    simp only [Work.clean, Phase.stepsLeft] at hmove ⊢
    omega
  · cases ha
  · cases ha

/-- As long as not all tasks have ended, one of them can go on. -/
lemma exists_step {w : Work} (h : w.Inv) (hleft : w.stepsLeft ≠ 0) :
    ∃ a w', a.ofTask = true ∧ step w a = some w' := by
  -- the first task that has not been cleaned waits for none
  have hexists : ∃ id : ℕ, ∃ t : Task, w.tasks[id]? = some t ∧ t.phase ≠ .cleaned := by
    by_contra hnone
    push Not at hnone
    refine hleft (List.sum_eq_zero fun n hn => ?_)
    obtain ⟨t, ht, rfl⟩ := List.mem_map.mp hn
    obtain ⟨i, hi⟩ := List.getElem?_of_mem ht
    rw [hnone i t hi]
    rfl
  classical
  obtain ⟨t, ht, hphase⟩ := Nat.find_spec hexists
  have hfirst : ∀ j s, j < Nat.find hexists → w.tasks[j]? = some s → s.phase = .cleaned := by
    intro j s hj hs
    by_contra hne
    exact Nat.find_min hexists hj ⟨s, hs, hne⟩
  cases hcase : t.phase with
  | queued =>
    have hprevious : t.previous.all w.isSettled = true := by
      cases hp : t.previous with
      | none => rfl
      | some p =>
        obtain ⟨hlt, s, hs, -⟩ := h.backward _ t p ht hp
        simp [Work.isSettled, hs, hfirst p s hlt hs, Phase.settled]
    exact ⟨.start (Nat.find hexists), _, rfl, by simp only [step, ht, hcase, hprevious]; rfl⟩
  | running =>
    exact ⟨.finish (Nat.find hexists) false, _, rfl, by simp only [step, ht, hcase]; rfl⟩
  | done => exact ⟨.clean (Nat.find hexists), _, rfl, by simp only [step, ht, hcase]; rfl⟩
  | cleaned => exact absurd hcase hphase

/-- When all tasks have ended nothing of them is kept. -/
lemma nothing_kept {w : Work} (h : w.Inv) (hleft : w.stepsLeft = 0) :
    w.inFlight = [] ∧ ∀ key, w.tails key = none := by
  have hcleaned : ∀ (id : ℕ) (t : Task), w.tasks[id]? = some t → t.phase = .cleaned := by
    intro id t ht
    have hzero := List.sum_eq_zero_iff_forall_eq_nat.mp hleft _
      (List.mem_map_of_mem (List.mem_of_getElem? ht))
    cases hphase : t.phase <;> simp [hphase, Phase.stepsLeft] at hzero ⊢
  constructor
  · rw [List.eq_nil_iff_forall_not_mem]
    intro id hid
    obtain ⟨t, ht, hphase⟩ := (h.inFlight id).mp hid
    exact hphase (hcleaned id t ht)
  · intro key
    cases htail : w.tails key with
    | none => rfl
    | some id =>
      have hkey := h.tails key
      rw [htail] at hkey
      obtain ⟨⟨t, ht, -, hphase⟩, -⟩ := hkey
      exact absurd (hcleaned id t ht) hphase

/-- `settled()` resolves only when every task called so far has ended, the ones called by tasks
among them; and from any state on, whatever order the tasks go on in, they have all ended after a
fixed number of steps, never get stuck before, and leave nothing behind. -/
theorem settled_drains {w : Work} (h : Reach step always Work.empty w) :
    (∀ a w' caller, step w a = some w' → w'.waiters caller = some .resolved →
      w.waiters caller = some .resolved ∨ ∀ t ∈ w'.tasks, t.phase = .cleaned) ∧
    ∀ as w', (∀ a ∈ as, Action.ofTask a = true) → Lib.run step w as = some w' →
      as.length + w'.stepsLeft = w.stepsLeft ∧
      (w'.stepsLeft ≠ 0 → ∃ a w'', a.ofTask = true ∧ step w' a = some w'') ∧
      (w'.stepsLeft = 0 → w'.inFlight = [] ∧ ∀ key, w'.tails key = none) := by
  have hinv := inv_reach h
  constructor
  · intro a w' caller hstep hresolved
    rcases step_cases hstep with ⟨label, key, rfl, rfl⟩ | ⟨id, t, rfl, -, -, -, rfl⟩ |
      ⟨id, failed, t, errors, rfl, -, -, rfl⟩ | ⟨id, t, rfl, -, -, rfl⟩ | ⟨other, -, rfl⟩
    · exact .inl hresolved
    · exact .inl hresolved
    · exact .inl hresolved
    · exact .inl hresolved
    · rcases update_eq_some hresolved with ⟨-, hcheck⟩ | ⟨-, hresolved⟩
      · right
        have hnone : w.inFlight = [] := by
          by_contra hne
          rw [Work.check, if_neg hne] at hcheck
          cases hcheck
        intro t ht
        obtain ⟨id, hid⟩ := List.getElem?_of_mem ht
        by_contra hphase
        have hmem := (hinv.inFlight id).mpr ⟨t, hid, hphase⟩
        rw [hnone] at hmem
        cases hmem
      · exact .inl hresolved
  · intro as
    induction as generalizing w with
    | nil =>
      intro w' _ hrun
      cases hrun
      refine ⟨by simp, fun hleft => exists_step hinv hleft, fun hleft => nothing_kept hinv hleft⟩
    | cons a as ih =>
      intro w' has hrun
      obtain ⟨w₁, hstep, hrun⟩ := Option.bind_eq_some_iff.mp hrun
      have hfirst := stepsLeft_step (has a List.mem_cons_self) hstep
      obtain ⟨hlength, hrest⟩ := ih (.snoc a h trivial hstep) (inv_step hinv hstep) w'
        (fun b hb => has b (List.mem_cons_of_mem _ hb)) hrun
      refine ⟨?_, hrest⟩
      rw [List.length_cons]
      omega

theorem settled_drains_two : ∃ w w', Lib.run step Work.empty twoOfOneKey = some w ∧
    Lib.run step w [.clean 0, .finish 1 false, .clean 1, .finish 2 false, .clean 2] = some w' ∧
      5 + w'.stepsLeft = w.stepsLeft ∧
      (w'.stepsLeft = 0 → w'.inFlight = [] ∧ ∀ key, w'.tails key = none) := by
  obtain ⟨w, hrun, hrest⟩ := exists_of_run step Work.empty twoOfOneKey
    (P := fun w => (Lib.run step w
      [.clean 0, .finish 1 false, .clean 1, .finish 2 false, .clean 2]).isSome) (by decide)
  obtain ⟨w', hrest⟩ := Option.isSome_iff_exists.mp hrest
  obtain ⟨hlength, -, hempty⟩ :=
    (settled_drains (Reach.of_run hrun)).2 _ w' (by simp [Action.ofTask]) hrest
  exact ⟨w, w', hrun, hrest, hlength, hempty⟩

end SafeerApi.Background
