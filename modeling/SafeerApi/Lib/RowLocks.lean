import SafeerApi.Lib.Reach

/-!
# Transactions under row locks

A transaction runs its statements one by one. Each changes or deletes the row with a key as it is
then, where there is one, and locks it until the transaction has committed or been rolled back; what
was written shows to others at the commit only. However transactions overlap, the rows that are
committed are those of running the committed transactions one after another, in the order of their
commits.
-/

namespace SafeerApi.Lib.RowLocks

variable {K R T : Type*} [DecidableEq K]

/-- A key, and what becomes of the row with it. -/
abbrev Statement (K R : Type*) := K × (R → Option R)

def execute (rows : K → Option R) (st : Statement K R) : K → Option R :=
  Function.update rows st.1 ((rows st.1).bind st.2)

def executeAll (rows : K → Option R) (sts : List (Statement K R)) : K → Option R :=
  sts.foldl execute rows

/-- A transaction that has begun: what it does, what it has done and has not, and what it wrote. -/
structure Running (K R T : Type*) where
  work : T
  done : List (Statement K R)
  rest : List (Statement K R)
  written : K → Option (Option R)

/-- The rows as the transaction sees them. -/
def Running.view (t : Running K R T) (rows : K → Option R) : K → Option R :=
  fun k => (t.written k).getD (rows k)

/-- The committed rows, who locks a row, the transactions that run, and those that committed, in
order. -/
structure State (K R T : Type*) where
  rows : K → Option R
  owner : K → Option ℕ
  running : ℕ → Option (Running K R T)
  committed : List T

def State.init (rows : K → Option R) : State K R T := ⟨rows, fun _ => none, fun _ => none, []⟩

/-- No row is locked by a transaction any more. -/
def State.release (s : State K R T) (i : ℕ) : K → Option ℕ :=
  fun k => if s.owner k = some i then none else s.owner k

inductive Action (T : Type*) where
  | begin (i : ℕ) (work : T)
  | execute (i : ℕ)
  | commit (i : ℕ)
  | rollback (i : ℕ)

def step (statements : T → List (Statement K R)) (s : State K R T) :
    Action T → Option (State K R T)
  | .begin i work =>
    match s.running i with
    | none => some { s with
        running := Function.update s.running i (some ⟨work, [], statements work, fun _ => none⟩) }
    | some _ => none
  | .execute i =>
    match s.running i with
    | some t =>
      match t.rest with
      | [] => none
      | st :: rest =>
        match t.view s.rows st.1 with
        | none => some { s with
            running := Function.update s.running i (some { t with
              done := t.done ++ [st]
              rest := rest }) }
        | some row =>
          -- a row that another transaction has locked is waited for
          if s.owner st.1 = none ∨ s.owner st.1 = some i then
            some { s with
              owner := Function.update s.owner st.1 (some i)
              running := Function.update s.running i (some { t with
                done := t.done ++ [st]
                rest := rest
                written := Function.update t.written st.1 (some (st.2 row)) }) }
          else none
    | none => none
  | .commit i =>
    match s.running i with
    | some t =>
      match t.rest with
      | [] => some {
          rows := t.view s.rows
          owner := s.release i
          running := Function.update s.running i none
          committed := s.committed ++ [t.work] }
      | _ :: _ => none
    | none => none
  | .rollback i =>
    match s.running i with
    | some _ => some { s with
        owner := s.release i
        running := Function.update s.running i none }
    | none => none

/-! ### Statements -/

lemma executeAll_concat (rows : K → Option R) (sts : List (Statement K R)) (st : Statement K R) :
    executeAll rows (sts ++ [st]) = execute (executeAll rows sts) st := by
  rw [executeAll, List.foldl_append]
  rfl

/-- A row depends on itself only. -/
lemma executeAll_congr {rows rows' : K → Option R} {k : K} (sts : List (Statement K R))
    (h : rows k = rows' k) : executeAll rows sts k = executeAll rows' sts k := by
  induction sts generalizing rows rows' with
  | nil => exact h
  | cons st sts ih =>
    apply ih
    by_cases hk : k = st.1
    · subst hk
      simp only [execute, Function.update_self, h]
    · simp only [execute, Function.update_of_ne hk, h]

lemma executeAll_of_not_mem {rows : K → Option R} {k : K} {sts : List (Statement K R)}
    (h : k ∉ sts.map Prod.fst) : executeAll rows sts k = rows k := by
  induction sts generalizing rows with
  | nil => rfl
  | cons st sts ih =>
    rw [List.map_cons, List.mem_cons, not_or] at h
    rw [executeAll, List.foldl_cons, ← executeAll, ih h.2, execute, Function.update_of_ne h.1]

/-- No statement makes a row. -/
lemma executeAll_eq_none {rows : K → Option R} {k : K} (sts : List (Statement K R))
    (h : rows k = none) : executeAll rows sts k = none := by
  induction sts generalizing rows with
  | nil => exact h
  | cons st sts ih =>
    apply ih
    by_cases hk : k = st.1
    · subst hk
      rw [execute, Function.update_self, h]
      rfl
    · rw [execute, Function.update_of_ne hk, h]

/-- Where each row is named once, each statement does what it says. -/
lemma executeAll_of_nodup {rows : K → Option R} {sts : List (Statement K R)}
    (h : (sts.map Prod.fst).Nodup) {st : Statement K R} (hst : st ∈ sts) :
    executeAll rows sts st.1 = (rows st.1).bind st.2 := by
  induction sts generalizing rows with
  | nil => cases hst
  | cons first sts ih =>
    rw [List.map_cons, List.nodup_cons] at h
    rw [executeAll, List.foldl_cons, ← executeAll]
    rcases List.mem_cons.mp hst with rfl | hst
    · rw [executeAll_of_not_mem h.1, execute, Function.update_self]
    · have hne : st.1 ≠ first.1 := fun heq => h.1 (heq ▸ List.mem_map_of_mem hst)
      rw [ih h.2 hst, execute, Function.update_of_ne hne]

/-! ### Runs -/

variable {statements : T → List (Statement K R)} {rows₀ : K → Option R} {s s' : State K R T}

/-- What one transaction runs on: the rows it wrote are locked for it, and it sees what running its
statements so far on the committed rows gives. -/
structure Running.Sound (statements : T → List (Statement K R)) (s : State K R T) (i : ℕ)
    (t : Running K R T) : Prop where
  split : statements t.work = t.done ++ t.rest
  missing : ∀ k ∈ t.done.map Prod.fst, t.written k = none → s.rows k = none
  locked : ∀ k, t.written k ≠ none → s.owner k = some i
  view : t.view s.rows = executeAll s.rows t.done

structure State.Inv (statements : T → List (Statement K R)) (rows₀ : K → Option R)
    (s : State K R T) : Prop where
  rows : s.rows = s.committed.foldl (fun rows work => executeAll rows (statements work)) rows₀
  running : ∀ i t, s.running i = some t → t.Sound statements s i

omit [DecidableEq K] in
lemma release_of_owner {i j : ℕ} {k : K} (h : s.owner k = some j) (hji : j ≠ i) :
    s.release i k = s.owner k := by
  rw [State.release, if_neg]
  rw [h]
  exact fun heq => hji (Option.some.inj heq)

/-- Commits of others leave what a transaction sees of its own rows as it is. -/
lemma Running.Sound.of_other {i : ℕ} {t : Running K R T} (h : t.Sound statements s i)
    (hrows : ∀ k, t.written k ≠ none → s'.rows k = s.rows k)
    (hnone : ∀ k, s.rows k = none → s'.rows k = none)
    (howner : ∀ k, s.owner k = some i → s'.owner k = some i) : t.Sound statements s' i where
  split := h.split
  missing k hk hw := hnone k (h.missing k hk hw)
  locked k hk := howner k (h.locked k hk)
  view := by
    funext k
    by_cases hw : t.written k = none
    · have hview : t.view s'.rows k = s'.rows k := by
        rw [Running.view, hw]
        rfl
      rw [hview]
      by_cases hk : k ∈ t.done.map Prod.fst
      · have hgone := hnone k (h.missing k hk hw)
        rw [executeAll_eq_none t.done hgone, hgone]
      · rw [executeAll_of_not_mem hk]
    · have hview := congrFun h.view k
      rw [← executeAll_congr t.done (hrows k hw).symm, ← hview, Running.view, Running.view]
      obtain ⟨v, hv⟩ := Option.ne_none_iff_exists'.mp hw
      rw [hv]
      rfl

/-- What a sound transaction sees has no rows that are not there. -/
lemma Running.Sound.view_eq_none {i : ℕ} {t : Running K R T} (h : t.Sound statements s i) {k : K}
    (hk : s.rows k = none) : t.view s.rows k = none := by
  rw [h.view]
  exact executeAll_eq_none t.done hk

lemma inv_init : (State.init rows₀ : State K R T).Inv statements rows₀ where
  rows := rfl
  running i t ht := by cases ht

/-- The next statement of a transaction finds no row. -/
lemma Running.Sound.skip {i : ℕ} {t : Running K R T} (h : t.Sound statements s i)
    {st : Statement K R} {rest : List (Statement K R)} (hrest : t.rest = st :: rest)
    (hnone : t.view s.rows st.1 = none) (howner : s'.owner = s.owner) (hrows : s'.rows = s.rows) :
    Running.Sound statements s' i { t with done := t.done ++ [st], rest := rest } where
  split := by simp [h.split, hrest]
  missing k hk hw := by
    rw [hrows]
    rw [List.map_append, List.map_singleton, List.mem_append, List.mem_singleton] at hk
    rcases hk with hk | rfl
    · exact h.missing k hk hw
    · rw [Running.view, hw] at hnone
      exact hnone
  locked k hk := by
    rw [howner]
    exact h.locked k hk
  view := by
    rw [hrows, executeAll_concat, ← h.view, execute, hnone, Option.bind_none]
    exact (Function.update_eq_self_iff.mpr hnone.symm).symm

/-- The next statement of a transaction finds a row. -/
lemma Running.Sound.execute {i : ℕ} {t : Running K R T} (h : t.Sound statements s i)
    {st : Statement K R} {rest : List (Statement K R)} (hrest : t.rest = st :: rest) {row : R}
    (hrow : t.view s.rows st.1 = some row)
    (howner : s'.owner = Function.update s.owner st.1 (some i)) (hrows : s'.rows = s.rows) :
    Running.Sound statements s' i { t with
      done := t.done ++ [st]
      rest := rest
      written := Function.update t.written st.1 (some (st.2 row)) } where
  split := by simp [h.split, hrest]
  missing k hk hw := by
    rw [hrows]
    by_cases hst : k = st.1
    · simp [hst] at hw
    · refine h.missing k ?_ (by simpa only [Function.update_of_ne hst] using hw)
      simpa [hst] using hk
  locked k hk := by
    rw [howner]
    by_cases hst : k = st.1
    · rw [hst, Function.update_self]
    · rw [Function.update_of_ne hst]
      exact h.locked k (by simpa only [Function.update_of_ne hst] using hk)
  view := by
    rw [hrows, executeAll_concat, ← h.view]
    funext k
    by_cases hk : k = st.1
    · subst hk
      have hfound : (t.view s.rows st.1).bind st.2 = st.2 row := by rw [hrow, Option.bind_some]
      simp only [RowLocks.execute, Function.update_self, hfound]
      simp [Running.view]
    · simp [Running.view, RowLocks.execute, Function.update_of_ne hk]

lemma inv_step {a : Action T} (h : s.Inv statements rows₀) (hs : step statements s a = some s') :
    s'.Inv statements rows₀ := by
  cases a with
  | begin i work =>
    simp only [step] at hs
    split at hs
    · cases hs
      refine ⟨h.rows, fun j t ht => ?_⟩
      rcases update_eq_some ht with ⟨-, rfl⟩ | ⟨-, ht⟩
      · exact ⟨rfl, fun k hk => by simp at hk, fun k hk => absurd rfl hk, rfl⟩
      · exact (h.running j t ht).of_other (fun k _ => rfl) (fun k hk => hk) fun k hk => hk
    · cases hs
  | execute i =>
    simp only [step] at hs
    split at hs
    · next t hi =>
      split at hs
      · cases hs
      · next st rest hrest =>
        split at hs
        · next hnone =>
          cases hs
          refine ⟨h.rows, fun j t' ht' => ?_⟩
          rcases update_eq_some ht' with ⟨rfl, rfl⟩ | ⟨-, ht'⟩
          · exact (h.running j t hi).skip hrest hnone rfl rfl
          · exact (h.running j t' ht').of_other (fun k _ => rfl) (fun k hk => hk) fun k hk => hk
        · next row hrow =>
          split_ifs at hs with hfree
          cases hs
          refine ⟨h.rows, fun j t' ht' => ?_⟩
          rcases update_eq_some ht' with ⟨rfl, rfl⟩ | ⟨hji, ht'⟩
          · exact (h.running j t hi).execute hrest hrow rfl rfl
          · refine (h.running j t' ht').of_other (fun k _ => rfl) (fun k hk => hk) fun k hk => ?_
            -- the row is not one that the other transaction has locked
            have hne : k ≠ st.1 := by
              rintro rfl
              rcases hfree with hfree | hfree
              · rw [hfree] at hk
                cases hk
              · rw [hfree, Option.some.injEq] at hk
                exact hji hk.symm
            simpa only [Function.update_of_ne hne] using hk
    · cases hs
  | commit i =>
    simp only [step] at hs
    split at hs
    · next t hi =>
      split at hs
      · next hrest =>
        cases hs
        have ht := h.running i t hi
        refine ⟨?_, fun j t' ht' => ?_⟩
        · have hdone : statements t.work = t.done := by rw [ht.split, hrest, List.append_nil]
          rw [List.foldl_append, ← h.rows, List.foldl_cons, List.foldl_nil, hdone]
          exact ht.view
        · obtain ⟨hji, ht'⟩ := update_none_eq_some ht'
          have hother := h.running j t' ht'
          refine hother.of_other (fun k hk => ?_) (fun k hk => ht.view_eq_none hk) fun k hk => ?_
          · -- what the other has written, this one has not
            have hnone : t.written k = none := by
              by_contra hsome
              have hboth := (ht.locked k hsome).symm.trans (hother.locked k hk)
              exact hji (Option.some.inj hboth).symm
            simp only [Running.view, hnone]
            rfl
          · exact (release_of_owner hk hji).trans hk
      · cases hs
    · cases hs
  | rollback i =>
    simp only [step] at hs
    split at hs
    · cases hs
      refine ⟨h.rows, fun j t ht => ?_⟩
      obtain ⟨hji, ht⟩ := update_none_eq_some ht
      exact (h.running j t ht).of_other (fun k _ => rfl) (fun k hk => hk) fun k hk =>
        (release_of_owner hk hji).trans hk
    · cases hs

/-- However transactions overlap and whichever are rolled back, the committed rows are those of the
committed transactions run one after another. -/
lemma rows_eq_serial {ok : State K R T → Action T → Prop}
    (h : Reach (step statements) ok (State.init rows₀) s) :
    s.rows = s.committed.foldl (fun rows work => executeAll rows (statements work)) rows₀ :=
  (h.invariant (P := State.Inv statements rows₀) inv_init fun _ _ _ hi _ hs => inv_step hi hs).rows

end SafeerApi.Lib.RowLocks
