import SafeerApi.Newsletter.Subscribers

/-!
# Double opt-in

A subscription counts only while its address was confirmed after it was last unsubscribed. A save
that re-read a row as unconfirmed and unsubscribed writes `unsubscribed_at` alone, and so makes the
subscription of a later confirmation count again after the unsubscribe that followed it.
-/

namespace SafeerApi.Newsletter

open Common Lib

/-- A save that re-read its row as unconfirmed and unsubscribed does not find it confirmed and
unsubscribed when it writes. -/
def keepsUnsubscribed (s : State) : Action → Bool
  | .proceed i => (s.requests[i]?).all fun r =>
    match r.stage with
    | .reread entity (some row) =>
      !(row.confirmedAt = none && row.unsubscribedAt.isSome &&
        (s.subscribers.find entity.id).any fun r => r.confirmedAt.isSome && r.unsubscribedAt.isSome)
    | _ => true
  | _ => true

/-- What a request is about to save counts as neither confirmed nor unsubscribed. -/
def Cleared (r : Request) : Prop :=
  ∀ entity row, r.stage = .reread entity row →
    entity.confirmedAt = none ∧ entity.unsubscribedAt = none

/-- An active subscription is of an address that consented. -/
structure Consented (s : State) : Prop where
  rows : ∀ r ∈ s.subscribers.rows, r.isActive = true → r.email ∈ s.consented
  requests : ∀ r ∈ s.requests, Cleared r

variable {env : TokenEnv} {s s' : State}

lemma cleared_of_stage {r : Request} (h : ∀ entity row, r.stage ≠ .reread entity row) : Cleared r :=
  fun entity row hstage => absurd hstage (h entity row)

/-- A row that is written while it is not confirmed and unsubscribed is active only if it was. -/
lemma isActive_writeColumns {entity reread row : Subscriber} (hconfirmed : entity.confirmedAt = none)
    (hunsubscribed : entity.unsubscribedAt = none)
    (hguard : ¬(reread.confirmedAt = none ∧ reread.unsubscribedAt.isSome = true ∧
      row.confirmedAt.isSome = true ∧ row.unsubscribedAt.isSome = true))
    (h : (writeColumns entity reread row).isActive = true) : row.isActive = true := by
  simp only [Subscriber.isActive, writeColumns, hconfirmed, hunsubscribed, saved, Bool.and_eq_true,
    decide_eq_true_eq] at h ⊢
  cases hreread : reread.confirmedAt with
  | some at₀ => simp [hreread] at h
  | none =>
    rw [hreread, if_pos rfl] at h
    refine ⟨h.1, ?_⟩
    cases hreread' : reread.unsubscribedAt with
    | none =>
      rw [hreread', if_pos rfl] at h
      exact h.2
    | some at₀ =>
      by_contra hne
      exact hguard ⟨hreread, by simp [hreread'], h.1, Option.isSome_iff_ne_none.mpr hne⟩

lemma consented_insertRow (h : Consented s) {i : ℕ} {r : Request} {row : Subscriber}
    (hrow : row.isActive = false) : Consented (insertRow s i r row) := by
  have hrequests : ∀ stage, (∀ entity row, stage ≠ .reread entity row) →
      ∀ r' ∈ (s.setStage i r stage).requests, Cleared r' := fun stage hstage =>
    forall_mem_set h.requests (cleared_of_stage hstage)
  simp only [insertRow]
  split
  · exact ⟨h.rows, hrequests .ended (by simp)⟩
  · next subscribers hinsert =>
    refine ⟨fun x hx hactive => ?_, hrequests .saved (by simp)⟩
    rcases (UniqueTable.mem_insert hinsert).mp hx with hx | rfl
    · exact h.rows x hx hactive
    · rw [hrow] at hactive
      cases hactive

/-- The statements of a `subscribe`. -/
lemma consented_advance (h : Consented s) {i : ℕ} {r : Request} (hr : s.requests[i]? = some r)
    (hok : keepsUnsubscribed s (.proceed i) = true) (hs : advanceRequest s i r = some s') :
    Consented s' := by
  have hmem := List.mem_of_getElem? hr
  simp only [keepsUnsubscribed, hr, Option.all_some] at hok
  simp only [advanceRequest] at hs
  split at hs
  · cases hs
    refine ⟨h.rows, forall_mem_set h.requests ?_⟩
    rintro entity row hstage
    cases hstage
    exact ⟨rfl, rfl⟩
  · cases hs
  · next entity reread hstage =>
    cases hs
    obtain ⟨hconfirmed, hunsubscribed⟩ := h.requests r hmem entity _ hstage
    refine ⟨fun x hx hactive => ?_, forall_mem_set h.requests (cleared_of_stage (by simp))⟩
    obtain ⟨row, hrow, rfl⟩ := mem_updateSubscriber.mp hx
    split_ifs at hactive ⊢ with hid
    · refine h.rows row hrow (isActive_writeColumns hconfirmed hunsubscribed ?_ hactive)
      have hfind := Table.find_eq_some.mpr ⟨hrow, of_decide_eq_true hid⟩
      rintro ⟨h₁, h₂, h₃, h₄⟩
      simp [hstage, hfind, h₁, h₂, h₃, h₄] at hok
    · exact h.rows row hrow hactive
  · next entity hstage =>
    cases hs
    apply consented_insertRow h
    simp [Subscriber.isActive, h.requests r hmem entity none hstage]
  · cases hs
    exact ⟨h.rows, forall_mem_set h.requests (cleared_of_stage (by simp))⟩
  · cases hs

lemma consented_step {a : Action} (h : Consented s) (hok : keepsUnsubscribed s a = true)
    (hs : step env s a = some s') : Consented s' := by
  cases a with
  | advance ms => cases hs; exact ⟨h.rows, h.requests⟩
  | find dto locale ipHash =>
    simp only [step] at hs
    split_ifs at hs
    · cases hs; exact h
    · cases hs
      exact ⟨h.rows, forall_mem_concat h.requests (cleared_of_stage (by simp))⟩
  | proceed i =>
    obtain ⟨r, hr, hs⟩ := Option.bind_eq_some_iff.mp hs
    exact consented_advance h hr hok hs
  | insert i id =>
    simp only [step] at hs
    split at hs
    · split at hs
      · cases hs
        exact consented_insertRow h rfl
      · cases hs
    · cases hs
  | confirm email token =>
    simp only [step] at hs
    split at hs
    · cases hs; exact h
    · next subscribers hconfirm =>
      cases hs
      refine ⟨fun x hx hactive => ?_, h.requests⟩
      obtain ⟨r, hr, rfl | ⟨rfl, hemail⟩⟩ := mem_confirm hconfirm hx
      · exact List.mem_cons_of_mem _ (h.rows x hr hactive)
      · rw [← hemail]
        exact List.mem_cons_self
  | unsubscribe email token =>
    simp only [step] at hs
    split at hs
    · cases hs; exact h
    · next subscribers hunsubscribe =>
      cases hs
      refine ⟨fun x hx hactive => ?_, h.requests⟩
      obtain ⟨r, hr, ⟨rfl, hkept⟩ | ⟨rfl, hemail⟩⟩ := mem_unsubscribe hunsubscribe hx
      · refine List.mem_filter.mpr ⟨h.rows x hr hactive, decide_eq_true fun heq => ?_⟩
        exact hkept heq (of_decide_eq_true ((Bool.and_eq_true _ _).mp hactive).2)
      · simp [Subscriber.isActive, unsubscribeRow] at hactive
  | nightly computedAt =>
    cases hs
    exact ⟨fun x hx => h.rows x (UniqueTable.mem_deleteWhere.mp hx).1, h.requests⟩

/-- In every interleaving in which no save that re-read its row as unconfirmed and unsubscribed finds
it confirmed and unsubscribed, an active subscription was confirmed after it was last unsubscribed. -/
theorem active_consented {subscribers : Subscribers} {clock : ℕ}
    (h : Reach (step env) (fun s a => keepsUnsubscribed s a = true) (State.init subscribers clock) s)
    {r : Subscriber} (hr : r ∈ s.subscribers.rows) (hactive : r.isActive = true) :
    r.email ∈ s.consented := by
  have hinit : Consented (State.init subscribers clock) := by
    refine ⟨fun r hr hactive => ?_, fun r hr => absurd hr List.not_mem_nil⟩
    exact List.mem_map.mpr ⟨r, List.mem_filter.mpr ⟨hr, hactive⟩, rfl⟩
  exact (h.invariant hinit fun _ _ _ hi hok hs => consented_step hi hok hs).rows r hr hactive

/-! ### Two subscribes of an unsubscribed address -/

/-- A row that was never confirmed, and is unsubscribed. -/
def unsubscribedOnce : Subscribers :=
  ⟨⟨[⟨1, "a@x", .ar, none, none, some 5, 0⟩], by decide⟩, by decide⟩

def confirmOf (key email : String) (issuedAt : ℕ) : Action :=
  .confirm email (issueNewsletterToken (.decimal key) .confirm email issuedAt)

def unsubscribeOf (key email : String) : Action :=
  .unsubscribe email (issueNewsletterToken (.decimal key) .unsubscribe email 0)

def form (email : String) : Action := .find { email := email, formRenderedAt := 1 } .ar none

/-- A subscribe, confirmed. -/
def subscribeAndConfirm : List Action :=
  [form "a@x", .proceed 0, .proceed 0, .proceed 0, confirmOf "k" "a@x" 9000]

theorem active_consented_confirmed : ∃ s : State, ∃ r ∈ s.subscribers.rows,
    r.isActive = true ∧ r.email ∈ s.consented := by
  obtain ⟨s, hrun, hrow⟩ := exists_of_run (guarded (step (.decimal "k")) keepsUnsubscribed)
    (State.init unsubscribedOnce 9000) subscribeAndConfirm
    (P := fun s => (s.subscribers.rows.any Subscriber.isActive) = true) (by decide +kernel)
  obtain ⟨r, hr, hactive⟩ := List.any_eq_true.mp hrow
  exact ⟨s, r, hr, hactive, active_consented (Reach.of_guarded hrun) hr hactive⟩

/-- The first subscribe re-reads the row, the second is confirmed and unsubscribed, and the first
writes. -/
def staleSubscribe : List Action :=
  [form "a@x", .proceed 0, form "a@x", .proceed 1, .proceed 1, .proceed 1, confirmOf "k" "a@x" 9000,
    unsubscribeOf "k" "a@x", .proceed 0]

theorem active_unsubscribed : ∃ s : State,
    run (step (.decimal "k")) (State.init unsubscribedOnce 9000) staleSubscribe = some s ∧
      ∃ r ∈ s.subscribers.rows, r.isActive = true ∧ r.email ∉ s.consented := by
  obtain ⟨s, hrun, hrow⟩ := exists_of_run (step (.decimal "k")) (State.init unsubscribedOnce 9000)
    staleSubscribe (P := fun s => ∃ r ∈ s.subscribers.rows, r.isActive = true ∧ r.email ∉ s.consented)
    (by decide +kernel)
  exact ⟨s, hrun, hrow⟩

end SafeerApi.Newsletter
