import SafeerApi.Common.Problem
import SafeerApi.Lib.Lru
import SafeerApi.Lib.Reach

/-!
# The sign-in limiter (`auth.service.ts`)

Before a sign-in looks at the account it counts the attempt, under the address it was given: five
are let through, each a minute at most after the one before, and a sign-in that succeeds clears the
count. The counts are in a cache of 10,000 addresses. Here is what an attempt is told as a function
of what was tried before, and how many guesses that leaves.
-/

namespace SafeerApi.Accounts.LoginLimiter

open Common Lib

/-- `LOGIN_ATTEMPT_LIMIT` -/
def loginAttemptLimit : ℕ := 5

/-- `LOGIN_ATTEMPT_WINDOW_MS` -/
def loginAttemptWindowMs : ℕ := 60000

/-- `LOGIN_ATTEMPT_MAX_TRACKED` -/
def loginAttemptMaxTracked : ℕ := 10000

abbrev LoginAttempts := LruCache loginAttemptMaxTracked loginAttemptWindowMs String ℕ

def tooManyAttempts : Problem where
  status := 429
  code := .rateLimited
  title := "Too many login attempts for this account — try again shortly"

/-- `email.toLowerCase()`, of an address the DTO accepts. -/
def keyOf (email : String) : String := String.ofList (email.toList.map Char.toLower)

section Service

variable (L : LoginAttempts)

def checkEmailRateLimit (now : ℕ) (email : String) (loginAttempts : L.State) :
    Except Problem Unit × L.State :=
  let key := keyOf email
  let (found, loginAttempts) := L.get now key loginAttempts
  let attempts := found.getD 0
  if loginAttemptLimit ≤ attempts then (.error tooManyAttempts, loginAttempts)
  else (.ok (), L.set now key (attempts + 1) loginAttempts)

def resetEmailRateLimit (email : String) (loginAttempts : L.State) : L.State :=
  L.delete (keyOf email) loginAttempts

/-! ### Runs -/

/-- What happened under an address. -/
inductive Event where
  | attempted (time : ℕ) (key : String) (letThrough : Bool)
  | signedIn (key : String)
  deriving DecidableEq

/-- The process: its counts, its clock, the sign-ins that were let through and have not ended, and
what happened, the last first. -/
structure State where
  loginAttempts : L.State
  clock : ℕ
  logins : ℕ → Option String
  log : List Event

def State.init (clock : ℕ) : State L := ⟨L.empty, clock, fun _ => none, []⟩

/-- A request calls `login`, its `UPDATE` finds the account active, or it ends in any other way;
time passes. -/
inductive Action where
  | login (k : ℕ) (email : String)
  | signedIn (k : ℕ)
  | endLogin (k : ℕ)
  | wait (ms : ℕ)

def step (s : State L) : Action → Option (State L)
  | .login k email =>
    match s.logins k with
    | some _ => none
    | none =>
      match checkEmailRateLimit L s.clock email s.loginAttempts with
      | (.ok _, loginAttempts) => some { s with
          loginAttempts := loginAttempts
          logins := Function.update s.logins k (some email)
          log := .attempted s.clock (keyOf email) true :: s.log }
      | (.error _, loginAttempts) => some { s with
          loginAttempts := loginAttempts
          log := .attempted s.clock (keyOf email) false :: s.log }
  | .signedIn k =>
    match s.logins k with
    | some email => some { s with
        loginAttempts := resetEmailRateLimit L email s.loginAttempts
        logins := Function.update s.logins k none
        log := .signedIn (keyOf email) :: s.log }
    | none => none
  | .endLogin k => some { s with logins := Function.update s.logins k none }
  | .wait ms => some { s with clock := s.clock + ms }

end Service

/-! ### What the log says -/

/-- The attempts that count against a further one: those let through since the address last signed
in, back to the first pause of more than a minute. -/
def streak (key : String) : ℕ → List Event → ℕ
  | _, [] => 0
  | now, .attempted time k letThrough :: log =>
    if k = key ∧ letThrough then
      if loginAttemptWindowMs < now - time then 0 else streak key time log + 1
    else streak key now log
  | now, .signedIn k :: log => if k = key then 0 else streak key now log

/-- The addresses tried since one was tried. -/
def othersSince (key : String) : List Event → List String
  | [] => []
  | .attempted _ k _ :: log => if k = key then [] else k :: othersSince key log
  | .signedIn _ :: log => othersSince key log

/-- While attempts count against an address, the others tried since leave room for its count. -/
def Roomy {L : LoginAttempts} (key : String) (s : State L) : Prop :=
  streak key s.clock s.log ≠ 0 → (othersSince key s.log).dedup.length < loginAttemptMaxTracked

instance {L : LoginAttempts} (key : String) (s : State L) : Decidable (Roomy key s) :=
  inferInstanceAs (Decidable (_ → _))

/-- A step that leaves room for the count of an address. -/
def keepsRoom (L : LoginAttempts) (key : String) (s : State L) (a : Action) : Bool :=
  (step L s a).all fun s' => Roomy key s'

lemma streak_antitone (key : String) (log : List Event) {now later : ℕ} (h : now ≤ later) :
    streak key later log ≤ streak key now log := by
  induction log with
  | nil => exact Nat.le_refl _
  | cons e log ih =>
    cases e with
    | attempted time k letThrough =>
      simp only [streak]
      split_ifs <;> first | exact ih | omega
    | signedIn k =>
      simp only [streak]
      split_ifs
      · exact Nat.le_refl _
      · exact ih

/-! ### What the cache holds -/

section Tracking

variable {L : LoginAttempts} {s s' : State L} {key email : String}

/-- The count of an address at a time. -/
def State.count (s : State L) (key : String) (now : ℕ) : ℕ :=
  ((L.contents s.loginAttempts).lookup now key).getD 0

/-- Only addresses tried since are in front of an address. -/
def State.InOrder (s : State L) (key : String) : Prop :=
  ∀ e, (L.contents s.loginAttempts).find key = some e →
    (L.contents s.loginAttempts).InFront e (othersSince key s.log)

/-- What a step does to the count of one address. -/
inductive KeyStep (key : String) (s s' : State L) : Prop where
  | letThrough (hlog : s'.log = .attempted s.clock key true :: s.log) (hclock : s'.clock = s.clock)
      (hlimit : s.count key s.clock < loginAttemptLimit)
      (hcount : ∀ now, s'.count key now
        = if loginAttemptWindowMs < now - s.clock then 0 else s.count key s.clock + 1)
  | refused (hlog : s'.log = .attempted s.clock key false :: s.log) (hclock : s'.clock = s.clock)
      (hcount : ∀ now, s'.count key now = s.count key now)
  | signedIn (hlog : s'.log = .signedIn key :: s.log) (hclock : s'.clock = s.clock)
      (hcount : ∀ now, s'.count key now = 0)
  | otherSignedIn (k : String) (hk : k ≠ key) (hlog : s'.log = .signedIn k :: s.log)
      (hclock : s'.clock = s.clock) (hcount : ∀ now, s'.count key now = s.count key now)
  | otherAttempted (k : String) (hk : k ≠ key) (letThrough : Bool)
      (hlog : s'.log = .attempted s.clock k letThrough :: s.log) (hclock : s'.clock = s.clock)
      (hcount : (∀ now, s'.count key now = s.count key now) ∨ ((∀ now, s'.count key now = 0) ∧
        loginAttemptMaxTracked ≤ (othersSince key s'.log).dedup.length))
  | quiet (hlog : s'.log = s.log) (hclock : s.clock ≤ s'.clock)
      (hcount : ∀ now, s'.count key now = s.count key now)

lemma count_of_find_none (h : (L.contents s.loginAttempts).find key = none) (now : ℕ) :
    s.count key now = 0 := by
  rw [State.count, Lru.lookup_of_find_none h]
  rfl

lemma count_of_find {e : LruEntry String ℕ} (h : (L.contents s.loginAttempts).find key = some e)
    (now : ℕ) : s.count key now = if loginAttemptWindowMs < now - e.setAt then 0 else e.value := by
  rw [State.count, Lru.lookup_eq h]
  by_cases hstale : loginAttemptWindowMs < now - e.setAt <;> simp [Lru.IsStale, hstale]

lemma count_congr (h : (L.contents s'.loginAttempts).find key
    = (L.contents s.loginAttempts).find key) (now : ℕ) : s'.count key now = s.count key now := by
  simp only [State.count, Lru.lookup, h]

/-- An attempt is refused on its count, and reads it; otherwise the count goes up. -/
lemma check_eq (s : State L) (now : ℕ) (email : String) :
    ∃ loginAttempts, L.contents loginAttempts
        = ((L.contents s.loginAttempts).get now (keyOf email)).2 ∧
      checkEmailRateLimit L now email s.loginAttempts =
        if loginAttemptLimit ≤ s.count (keyOf email) now then
          (.error tooManyAttempts, loginAttempts)
        else (.ok (), L.set now (keyOf email) (s.count (keyOf email) now + 1) loginAttempts) := by
  refine ⟨_, L.contents_get now (keyOf email) s.loginAttempts, ?_⟩
  simp only [checkEmailRateLimit, State.count, L.get_fst, Lru.get_fst]
  rfl

/-- An attempt only uses its own key. -/
lemma check_uses (s : State L) (now : ℕ) (email : String) :
    Lru.Uses (keyOf email) (L.contents s.loginAttempts)
      (L.contents (checkEmailRateLimit L now email s.loginAttempts).2) := by
  obtain ⟨loginAttempts, hget, hcheck⟩ := check_eq s now email
  have huses : Lru.Uses (keyOf email) (L.contents s.loginAttempts) (L.contents loginAttempts) :=
    hget ▸ Lru.get_uses _ _ _
  rw [hcheck]
  split_ifs
  · exact huses
  · refine huses.trans ?_
    rw [L.contents_set]
    exact Lru.set_uses _ _ _ _

/-- A count that refuses belongs to an entry that is there and not too old. -/
lemma find_of_count {now : ℕ} (h : loginAttemptLimit ≤ s.count key now) :
    ∃ e, (L.contents s.loginAttempts).find key = some e ∧
      ¬Lru.IsStale loginAttemptWindowMs now e := by
  cases hfind : (L.contents s.loginAttempts).find key with
  | none => rw [count_of_find_none hfind] at h; cases h
  | some e =>
    refine ⟨e, rfl, fun hstale => ?_⟩
    have hold : loginAttemptWindowMs < now - e.setAt := hstale
    rw [count_of_find hfind, if_pos hold] at h
    cases h

/-- The cache after an attempt on the address itself. -/
lemma find_check_self (s : State L) (now : ℕ) (email : String) :
    ∃ e, (L.contents (checkEmailRateLimit L now email s.loginAttempts).2).find (keyOf email)
        = some e ∧
      (L.contents (checkEmailRateLimit L now email s.loginAttempts).2).InFront e [] ∧
      if loginAttemptLimit ≤ s.count (keyOf email) now then
        (L.contents s.loginAttempts).find (keyOf email) = some e
      else e.setAt = now ∧ e.value = s.count (keyOf email) now + 1 := by
  obtain ⟨loginAttempts, hget, hcheck⟩ := check_eq s now email
  rw [hcheck]
  split_ifs with hlimit
  · obtain ⟨e, hfind, hfresh⟩ := find_of_count hlimit
    have hkey : e.key = keyOf email := (Lru.find_eq_some.mp hfind).2
    have hcontents : L.contents loginAttempts = (L.contents s.loginAttempts).push e := by
      rw [hget, Lru.get, hfind]
      simp only [if_neg hfresh]
    rw [hcontents]
    exact ⟨e, hkey ▸ Lru.find_push_self (by decide), Lru.inFront_push (by decide), hfind⟩
  · refine ⟨⟨keyOf email, s.count (keyOf email) now + 1, now⟩, ?_, ?_, rfl, rfl⟩
    · rw [L.contents_set]
      exact Lru.find_push_self (by decide)
    · rw [L.contents_set]
      exact Lru.inFront_push (by decide)

lemma step_login {k : ℕ} (hs : step L s (.login k email) = some s') :
    ∃ letThrough, s'.loginAttempts = (checkEmailRateLimit L s.clock email s.loginAttempts).2 ∧
      s'.log = .attempted s.clock (keyOf email) letThrough :: s.log ∧ s'.clock = s.clock ∧
      letThrough = decide (s.count (keyOf email) s.clock < loginAttemptLimit) := by
  obtain ⟨loginAttempts, -, hcheck⟩ := check_eq s s.clock email
  simp only [step, hcheck] at hs ⊢
  split at hs
  · cases hs
  · split_ifs at hs ⊢ with hlimit
    · cases hs
      exact ⟨false, rfl, rfl, rfl, by simpa using hlimit⟩
    · cases hs
      exact ⟨true, rfl, rfl, rfl, by simpa using hlimit⟩

/-- An attempt on the address itself. -/
lemma keyStep_self {k : ℕ} (hs : step L s (.login k email) = some s') :
    KeyStep (keyOf email) s s' ∧ s'.InOrder (keyOf email) := by
  obtain ⟨letThrough, hcache, hlog, hclock, hthrough⟩ := step_login hs
  obtain ⟨e, hfind, hfront, he⟩ := find_check_self s s.clock email
  rw [← hcache] at hfind hfront
  constructor
  · split_ifs at he with hlimit
    · rw [decide_eq_false (Nat.not_lt.mpr hlimit)] at hthrough
      subst hthrough
      exact .refused hlog hclock fun now => count_congr (hfind.trans he.symm) now
    · have hlt : s.count (keyOf email) s.clock < loginAttemptLimit := Nat.lt_of_not_le hlimit
      rw [decide_eq_true hlt] at hthrough
      subst hthrough
      refine .letThrough hlog hclock hlt fun now => ?_
      rw [count_of_find hfind, he.1, he.2]
  · intro x hx
    rw [hfind] at hx
    obtain rfl := Option.some.inj hx
    simpa [hlog, othersSince] using hfront

/-- An attempt on another address. -/
lemma keyStep_other {k : ℕ} (hs : step L s (.login k email) = some s') (hkey : keyOf email ≠ key)
    (horder : s.InOrder key) : KeyStep key s s' ∧ s'.InOrder key := by
  obtain ⟨letThrough, hcache, hlog, hclock, -⟩ := step_login hs
  have huses := check_uses s s.clock email
  rw [← hcache] at huses
  have hothers : othersSince key s'.log = keyOf email :: othersSince key s.log := by
    simp [hlog, othersSince, hkey]
  -- what is found before the attempt is still in order, or gone for lack of room
  have hkept : ∀ e, (L.contents s.loginAttempts).find key = some e →
      (L.contents s'.loginAttempts).InFront e (othersSince key s'.log) ∨
        ((L.contents s'.loginAttempts).find key = none ∧
          loginAttemptMaxTracked ≤ (othersSince key s'.log).dedup.length) := by
    intro e he
    have hekey : e.key = key := (Lru.find_eq_some.mp he).2
    rw [hothers]
    have := huses.inFront (hekey.symm ▸ hkey.symm) List.mem_cons_self
      ((horder e he).mono (List.subset_cons_self _ _))
    rwa [hekey] at this
  constructor
  · refine .otherAttempted (keyOf email) hkey letThrough hlog hclock ?_
    cases hfind : (L.contents s.loginAttempts).find key with
    | none =>
      refine Or.inl fun now => count_congr ?_ now
      rw [hfind]
      by_contra hsome
      obtain ⟨x, hx⟩ := Option.ne_none_iff_exists'.mp hsome
      rw [huses.find hkey.symm hx] at hfind
      cases hfind
    | some e =>
      rcases hkept e hfind with hfront | ⟨hnone, hfull⟩
      · refine Or.inl fun now => count_congr ?_ now
        rw [hfind, ← hfront.find, (Lru.find_eq_some.mp hfind).2]
      · exact Or.inr ⟨fun now => count_of_find_none hnone now, hfull⟩
  · intro e he
    rcases hkept e (huses.find hkey.symm he) with hfront | ⟨hnone, -⟩
    · exact hfront
    · rw [hnone] at he
      cases he

lemma key_step {a : Action} (hs : step L s a = some s') (horder : s.InOrder key) :
    KeyStep key s s' ∧ s'.InOrder key := by
  cases a with
  | login k email =>
    by_cases hkey : keyOf email = key
    · subst hkey
      exact keyStep_self hs
    · exact keyStep_other hs hkey horder
  | signedIn k =>
    simp only [step] at hs
    split at hs
    · next email hk =>
      cases hs
      have hcontents : L.contents (resetEmailRateLimit L email s.loginAttempts)
          = (L.contents s.loginAttempts).delete (keyOf email) := L.contents_delete _ _
      by_cases hkey : keyOf email = key
      · subst hkey
        have hnone : (L.contents (resetEmailRateLimit L email s.loginAttempts)).find (keyOf email)
            = none := by
          rw [hcontents, Lru.find_delete_self]
        refine ⟨.signedIn rfl rfl fun now => count_of_find_none hnone now, fun e he => ?_⟩
        rw [hnone] at he
        cases he
      · have hfind : (L.contents (resetEmailRateLimit L email s.loginAttempts)).find key
            = (L.contents s.loginAttempts).find key := by
          rw [hcontents, Lru.find_delete_of_ne (Ne.symm hkey)]
        refine ⟨.otherSignedIn _ hkey rfl rfl fun now => count_congr hfind now, fun e he => ?_⟩
        have he' : (L.contents s.loginAttempts).find key = some e := hfind.symm.trans he
        have hekey : e.key = key := (Lru.find_eq_some.mp he').2
        simp only [hcontents, othersSince]
        exact (horder e he').delete (hekey.symm ▸ Ne.symm hkey)
    · cases hs
  | endLogin k =>
    cases hs
    exact ⟨.quiet rfl (Nat.le_refl _) fun _ => rfl, horder⟩
  | wait ms =>
    cases hs
    exact ⟨.quiet rfl (Nat.le_add_right _ _) fun _ => rfl, horder⟩

lemma inOrder_init (clock : ℕ) : (State.init L clock).InOrder key := by
  intro e he
  rw [State.init, L.contents_empty] at he
  cases he

/-! ### Counts and attempts -/

/-- Nothing is counted that was not tried. -/
def State.Bounded (s : State L) (key : String) : Prop :=
  ∀ now, s.clock ≤ now → s.count key now ≤ streak key now s.log

/-- All is counted that was tried. -/
def State.Exact (s : State L) (key : String) : Prop :=
  ∀ now, s.clock ≤ now → s.count key now = streak key now s.log

lemma KeyStep.bounded (h : KeyStep key s s') (hb : s.Bounded key) : s'.Bounded key := by
  intro now hnow
  cases h with
  | letThrough hlog hclock _ hcount =>
    have hbefore := hb s.clock (Nat.le_refl _)
    simp only [hcount, hlog, streak, and_self, if_true]
    split_ifs
    · exact Nat.le_refl _
    · omega
  | refused hlog hclock hcount =>
    simpa [hcount, hlog, streak] using hb now (hclock ▸ hnow)
  | signedIn hlog hclock hcount => simp [hcount]
  | otherSignedIn k hk hlog hclock hcount =>
    simpa [hcount, hlog, streak, hk] using hb now (hclock ▸ hnow)
  | otherAttempted k hk letThrough hlog hclock hcount =>
    rcases hcount with hcount | ⟨hcount, -⟩
    · simpa [hcount, hlog, streak, hk] using hb now (hclock ▸ hnow)
    · simp [hcount]
  | quiet hlog hclock hcount =>
    rw [hcount, hlog]
    exact hb now (Nat.le_trans hclock hnow)

lemma KeyStep.exact (h : KeyStep key s s') (hroomy : Roomy key s') (he : s.Exact key) :
    s'.Exact key := by
  intro now hnow
  cases h with
  | letThrough hlog hclock _ hcount =>
    rw [hcount, hlog, he s.clock (Nat.le_refl _)]
    simp [streak]
  | refused hlog hclock hcount =>
    simpa [hcount, hlog, streak] using he now (hclock ▸ hnow)
  | signedIn hlog hclock hcount => simp [hcount, hlog, streak]
  | otherSignedIn k hk hlog hclock hcount =>
    simpa [hcount, hlog, streak, hk] using he now (hclock ▸ hnow)
  | otherAttempted k hk letThrough hlog hclock hcount =>
    rcases hcount with hcount | ⟨hcount, hfull⟩
    · simpa [hcount, hlog, streak, hk] using he now (hclock ▸ hnow)
    · -- the count was lost: then there was nothing left to count
      have hzero : streak key s'.clock s'.log = 0 := by
        by_contra hrunning
        exact absurd (hroomy hrunning) (Nat.not_lt.mpr hfull)
      have hlater := streak_antitone key s'.log hnow
      rw [hcount]
      omega
  | quiet hlog hclock hcount =>
    rw [hcount, hlog]
    exact he now (Nat.le_trans hclock hnow)

lemma bounded_reach {clock : ℕ} {ok : State L → Action → Prop}
    (h : Reach (step L) ok (State.init L clock) s) : s.InOrder key ∧ s.Bounded key := by
  refine h.invariant (P := fun s => s.InOrder key ∧ s.Bounded key) ⟨inOrder_init clock, ?_⟩ ?_
  · intro now _
    rw [count_of_find_none (by rw [State.init, L.contents_empty, Lru.find_empty])]
    exact Nat.zero_le _
  · rintro s a s' ⟨horder, hbounded⟩ - hs
    obtain ⟨hstep, horder'⟩ := key_step hs horder
    exact ⟨horder', hstep.bounded hbounded⟩

/-- Every attempt that was let through came with room in its streak. -/
def Spaced (key : String) (log : List Event) : Prop :=
  ∀ later time earlier, log = later ++ .attempted time key true :: earlier →
    streak key time earlier < loginAttemptLimit

lemma Spaced.cons {log : List Event} {e : Event} (h : Spaced key log)
    (he : ∀ time, e = .attempted time key true → streak key time log < loginAttemptLimit) :
    Spaced key (e :: log) := by
  intro later time earlier hlog
  cases later with
  | nil =>
    obtain ⟨rfl, rfl⟩ := List.cons.inj hlog
    exact he time rfl
  | cons x later => exact h later time earlier (List.cons.inj hlog).2

lemma KeyStep.spaced (h : KeyStep key s s') (he : s.Exact key) (hspaced : Spaced key s.log) :
    Spaced key s'.log := by
  cases h with
  | letThrough hlog hclock hlimit hcount =>
    rw [hlog]
    refine hspaced.cons fun time htime => ?_
    cases htime
    rwa [← he s.clock (Nat.le_refl _)]
  | refused hlog hclock hcount => rw [hlog]; exact hspaced.cons fun time htime => by cases htime
  | signedIn hlog hclock hcount => rw [hlog]; exact hspaced.cons fun time htime => by cases htime
  | otherSignedIn k hk hlog hclock hcount =>
    rw [hlog]
    exact hspaced.cons fun time htime => by cases htime
  | otherAttempted k hk letThrough hlog hclock hcount =>
    rw [hlog]
    refine hspaced.cons fun time htime => ?_
    cases htime
    exact absurd rfl hk
  | quiet hlog hclock hcount => rwa [hlog]

lemma exact_reach {clock : ℕ}
    (h : Reach (step L) (fun s a => keepsRoom L key s a = true) (State.init L clock) s) :
    s.Exact key ∧ Spaced key s.log := by
  have hall : s.InOrder key ∧ s.Exact key ∧ Spaced key s.log := by
    refine h.invariant (P := fun s => s.InOrder key ∧ s.Exact key ∧ Spaced key s.log)
      ⟨inOrder_init clock, ?_, ?_⟩ ?_
    · intro now _
      rw [count_of_find_none (by rw [State.init, L.contents_empty, Lru.find_empty])]
      rfl
    · intro later time earlier hlog
      cases later <;> cases hlog
    · rintro s a s' ⟨horder, hexact, hspaced⟩ hroom hs
      obtain ⟨hstep, horder'⟩ := key_step hs horder
      have hroomy : Roomy key s' := by
        rw [keepsRoom, hs] at hroom
        simpa using hroom
      exact ⟨horder', hstep.exact hroomy hexact, hstep.spaced hexact hspaced⟩
  exact hall.2

/-- In any run of sign-ins on any addresses, an attempt is refused only when five attempts on its
own address were let through since that address last signed in, none of them and not the present one
more than a minute after the one before. As long as fewer than 10,000 other addresses are tried while
the count of the address runs, it is refused exactly then. -/
theorem limiter_exact {clock : ℕ} (h : Reach (step L) always (State.init L clock) s)
    (email : String) :
    ((checkEmailRateLimit L s.clock email s.loginAttempts).1 ≠ .ok () →
      loginAttemptLimit ≤ streak (keyOf email) s.clock s.log) ∧
    (Reach (step L) (fun s a => keepsRoom L (keyOf email) s a = true) (State.init L clock) s →
      (checkEmailRateLimit L s.clock email s.loginAttempts).1
        = if loginAttemptLimit ≤ streak (keyOf email) s.clock s.log then .error tooManyAttempts
          else .ok ()) := by
  obtain ⟨loginAttempts, -, hcheck⟩ := check_eq s s.clock email
  rw [hcheck]
  constructor
  · intro hrefused
    have hbounded : s.Bounded (keyOf email) := (bounded_reach h).2
    by_contra hfew
    have hcount := hbounded s.clock (Nat.le_refl _)
    rw [if_neg (by omega)] at hrefused
    exact hrefused rfl
  · intro hroom
    have hexact : s.Exact (keyOf email) := (exact_reach hroom).1
    rw [hexact s.clock (Nat.le_refl _)]
    split_ifs <;> rfl

/-! ### Guesses -/

/-- When attempts on an address were let through. -/
def guesses (key : String) : List Event → List ℕ
  | [] => []
  | .attempted time k letThrough :: log =>
    if k = key ∧ letThrough then time :: guesses key log else guesses key log
  | .signedIn _ :: log => guesses key log

/-- Guesses within a minute, with no sign-in between, all count. -/
lemma length_guesses_le_streak {t₀ now : ℕ} {window : List Event} (earlier : List Event)
    (hsigned : Event.signedIn key ∉ window) (hnow : now ≤ t₀ + loginAttemptWindowMs)
    (htimes : ∀ t ∈ guesses key window, t₀ ≤ t ∧ t ≤ t₀ + loginAttemptWindowMs) :
    (guesses key window).length ≤ streak key now (window ++ earlier) := by
  induction window generalizing now with
  | nil => exact Nat.zero_le _
  | cons e window ih =>
    have hsigned' : Event.signedIn key ∉ window := fun h => hsigned (List.mem_cons_of_mem _ h)
    cases e with
    | attempted time k letThrough =>
      simp only [guesses, List.cons_append, streak] at htimes ⊢
      split_ifs at htimes ⊢ with hguess hpause
      · have := htimes time List.mem_cons_self
        omega
      · have htime := htimes time List.mem_cons_self
        have hrest := ih hsigned' htime.2 fun t ht => htimes t (List.mem_cons_of_mem _ ht)
        simpa using hrest
      · exact ih hsigned' hnow htimes
    | signedIn k =>
      have hk : k ≠ key := fun h => hsigned (h ▸ List.mem_cons_self)
      simpa [guesses, streak, hk] using ih hsigned' hnow htimes

/-- As long as fewer than 10,000 other addresses are tried while the count of an address runs: of
the attempts on an address within any minute without a sign-in that succeeds, at most five get to the
password. -/
theorem guesses_bounded {clock t₀ : ℕ}
    (h : Reach (step L) (fun s a => keepsRoom L key s a = true) (State.init L clock) s)
    {later window earlier : List Event} (hlog : s.log = later ++ (window ++ earlier))
    (hsigned : Event.signedIn key ∉ window)
    (htimes : ∀ t ∈ guesses key window, t₀ ≤ t ∧ t ≤ t₀ + loginAttemptWindowMs) :
    (guesses key window).length ≤ loginAttemptLimit := by
  have hspaced : Spaced key s.log := (exact_reach h).2
  rw [hlog] at hspaced
  clear hlog
  induction window generalizing later with
  | nil => exact Nat.zero_le _
  | cons e window ih =>
    have hsigned' : Event.signedIn key ∉ window := fun h => hsigned (List.mem_cons_of_mem _ h)
    have hspaced' : Spaced key ((later ++ [e]) ++ (window ++ earlier)) := by
      simpa using hspaced
    cases e with
    | attempted time k letThrough =>
      simp only [guesses] at htimes ⊢
      split_ifs at htimes ⊢ with hguess
      · -- the last guess of the minute: those before it are its streak
        obtain ⟨rfl, rfl⟩ := hguess
        have hstreak := hspaced later time (window ++ earlier) rfl
        have hcount := length_guesses_le_streak earlier hsigned'
          (htimes time List.mem_cons_self).2 fun t ht => htimes t (List.mem_cons_of_mem _ ht)
        rw [List.length_cons]
        omega
      · exact ih hsigned' htimes hspaced'
    | signedIn k => exact ih hsigned' htimes hspaced'

end Tracking

/-! ### Six guesses -/

/-- Five wrong passwords with a sign-in on another address between, and a sixth attempt within the
minute in other letters. -/
def sixGuesses : List Action :=
  [.login 1 "a@x", .endLogin 1, .wait 1000, .login 1 "a@x", .endLogin 1, .login 1 "a@x",
    .login 2 "a@x", .login 4 "b@x", .signedIn 4, .login 3 "a@x", .wait 1000, .login 4 "A@x"]

def listed : LoginAttempts := LruCache.list loginAttemptMaxTracked loginAttemptWindowMs String ℕ

theorem limiter_exact_sixGuesses : ∃ s : State listed, s.clock = 2000 ∧
    (checkEmailRateLimit listed s.clock "A@x" s.loginAttempts).1 = .error tooManyAttempts := by
  obtain ⟨s, hrun, hclock, hstreak⟩ := exists_of_run (guarded (step listed)
      (keepsRoom listed (keyOf "A@x"))) (State.init listed 0) sixGuesses
    (P := fun s => s.clock = 2000 ∧ streak (keyOf "A@x") s.clock s.log = 5) (by decide)
  have hroom := Reach.of_guarded hrun
  have hany : Reach (step listed) always (State.init listed 0) s :=
    hroom.invariant (P := Reach (step listed) always (State.init listed 0)) .init
      fun _ a _ h _ hs => h.snoc a trivial hs
  have hcheck := (limiter_exact hany "A@x").2 hroom
  rw [hstreak] at hcheck
  exact ⟨s, hclock, hcheck⟩

theorem guesses_bounded_sixGuesses : ∃ s : State listed,
    s.log.length = 8 ∧ (guesses "a@x" s.log).length ≤ loginAttemptLimit := by
  obtain ⟨s, hrun, hlength, hsigned, htimes⟩ := exists_of_run (guarded (step listed)
      (keepsRoom listed "a@x")) (State.init listed 0) sixGuesses
    (P := fun s => s.log.length = 8 ∧ Event.signedIn "a@x" ∉ s.log ∧
      ∀ t ∈ guesses "a@x" s.log, 0 ≤ t ∧ t ≤ 0 + loginAttemptWindowMs) (by decide)
  have hlog : s.log = [] ++ (s.log ++ []) := by simp
  exact ⟨s, hlength, guesses_bounded (Reach.of_guarded hrun) hlog hsigned htimes⟩

/-- A minute after the last of the five the address is free again. -/
example : ((run (step listed) (State.init listed 0) (sixGuesses ++ [.wait 60000])).map fun s =>
    (checkEmailRateLimit listed s.clock "a@x" s.loginAttempts).1.isOk) = some true := by
  decide

end SafeerApi.Accounts.LoginLimiter
