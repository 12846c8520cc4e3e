import SafeerApi.Newsletter.Subscribers

/-!
# Fresh confirmation links

A link is valid for seven days from the `subscribe` that issued it; the nightly job deletes an
unconfirmed row thirty days after it was created, which a later `subscribe` does not renew. So the
link of a row that was already old may find no row, and the confirmation is answered all the same.
-/

namespace SafeerApi.Newsletter

open Common Lib

/-! ### What a link rests on -/

/-- A save that found its row again relies on it until the link is issued. -/
def Stage.needsRow : Stage → Bool
  | .reread _ row => row.isSome
  | .saved => true
  | _ => false

/-- What it found not unsubscribed, or wrote so, it relies on to stay so. -/
def Stage.needsActive : Stage → Bool
  | .reread _ row => row.any (·.unsubscribedAt = none)
  | .saved => true
  | _ => false

/-- A `subscribe` for an address is at a stage. -/
def saving (s : State) (stage : Stage → Bool) (email : String) : Bool :=
  s.requests.any fun q => q.email = email && stage q.stage

/-- A link for an address can still be used. -/
def linked (s : State) (email : String) : Bool :=
  s.fresh.any fun l => l.email = email && s.clock ≤ l.issuedAt + confirmTtlMs

def needsRow (s : State) (email : String) : Bool := saving s Stage.needsRow email || linked s email

def needsActive (s : State) (email : String) : Bool :=
  saving s Stage.needsActive email || linked s email

/-- The nightly job deletes no row whose link can still be used or is about to be issued, and no
unsubscribe arrives for an address between a save's re-read and the link. -/
def sparesLinks (env : TokenEnv) (s : State) : Action → Bool
  | .nightly computedAt => s.subscribers.rows.all fun r =>
    !isInactive computedAt r || !needsRow s r.email
  | .unsubscribe email token =>
    !verifyNewsletterToken env .unsubscribe (normalized email) token s.clock ||
      !saving s Stage.needsActive (normalized email)
  | _ => true

/-- An address has a row that is not unsubscribed. -/
def Pending (subscribers : Subscribers) (email : String) : Prop :=
  ∃ r ∈ subscribers.rows, r.email = email ∧ r.unsubscribedAt = none

/-- What a stage of a `subscribe` for `email` relies on. -/
def StageOk (subscribers : Subscribers) (owner : ℕ → Option String) (email : String) : Stage → Prop
  | .found row => ∀ r ∈ row, r.email = email ∧ owner r.id = some email
  | .reread entity row => entity.email = email ∧ owner entity.id = some email ∧
      entity.unsubscribedAt = none ∧
      ∀ r₀ ∈ row, ∃ r ∈ subscribers.rows, r.id = entity.id ∧
        (r₀.unsubscribedAt = none → r.unsubscribedAt = none)
  | .saved => Pending subscribers email
  | .ended => True

/-- Every id is its address's, and what the requests and the links rely on is there. -/
structure Works (s : State) : Prop where
  rows : ∀ r ∈ s.subscribers.rows, s.owner r.id = some r.email
  requests : ∀ q ∈ s.requests, normalized q.email = q.email ∧
    StageOk s.subscribers s.owner q.email q.stage
  fresh : ∀ l ∈ s.fresh, normalized l.email = l.email ∧
    (s.clock ≤ l.issuedAt + confirmTtlMs → Pending s.subscribers l.email)

variable {env : TokenEnv} {s s' : State}

/-! ### What a step keeps -/

/-- A write keeps what is relied on: the rows, and that they are not unsubscribed. -/
def Keeps (s : State) (subscribers : Subscribers) : Prop :=
  ∀ r ∈ s.subscribers.rows, needsRow s r.email = true → ∃ r' ∈ subscribers.rows,
    r'.id = r.id ∧ r'.email = r.email ∧
      (needsActive s r.email = true → r.unsubscribedAt = none → r'.unsubscribedAt = none)

lemma saving_of_mem {stage : Stage → Bool} {q : Request} (hq : q ∈ s.requests)
    (h : stage q.stage = true) : saving s stage q.email = true :=
  List.any_eq_true.mpr ⟨q, hq, by simp [h]⟩

lemma needsRow_of_stage {q : Request} (hq : q ∈ s.requests) (h : q.stage.needsRow = true) :
    needsRow s q.email = true := by
  rw [needsRow, saving_of_mem hq h, Bool.true_or]

lemma needsActive_of_stage {q : Request} (hq : q ∈ s.requests) (h : q.stage.needsActive = true) :
    needsActive s q.email = true := by
  rw [needsActive, saving_of_mem hq h, Bool.true_or]

lemma linked_of_mem {l : Link} (hl : l ∈ s.fresh) (h : s.clock ≤ l.issuedAt + confirmTtlMs) :
    linked s l.email = true :=
  List.any_eq_true.mpr ⟨l, hl, by simp [h]⟩

lemma Keeps.pending {subscribers : Subscribers} (h : Keeps s subscribers) {email : String}
    (hrow : needsRow s email = true) (hactive : needsActive s email = true)
    (hpending : Pending s.subscribers email) : Pending subscribers email := by
  obtain ⟨r, hr, rfl, hunsubscribed⟩ := hpending
  obtain ⟨r', hr', -, hemail, hkept⟩ := h r hr hrow
  exact ⟨r', hr', hemail, hkept hactive hunsubscribed⟩

/-- A write of the table. -/
lemma Works.write (h : Works s) {subscribers : Subscribers} {owner : ℕ → Option String}
    (howner : ∀ id email, s.owner id = some email → owner id = some email)
    (hrows : ∀ r ∈ subscribers.rows, owner r.id = some r.email) (hkeeps : Keeps s subscribers) :
    Works { s with subscribers := subscribers, owner := owner } := by
  refine ⟨hrows, fun q hq => ⟨(h.requests q hq).1, ?_⟩, fun l hl => ⟨(h.fresh l hl).1, ?_⟩⟩
  · have hok := (h.requests q hq).2
    have hrow := needsRow_of_stage hq
    have hactive := needsActive_of_stage hq
    cases hstage : q.stage with
    | found row =>
      rw [hstage] at hok
      exact fun r hr => ⟨(hok r hr).1, howner _ _ (hok r hr).2⟩
    | reread entity row =>
      rw [hstage] at hok hrow hactive
      obtain ⟨hemail, hid, hunsubscribed, hfound⟩ := hok
      refine ⟨hemail, howner _ _ hid, hunsubscribed, fun r₀ hr₀ => ?_⟩
      obtain ⟨r, hr, hrid, hr₀r⟩ := hfound r₀ hr₀
      cases hr₀
      have hremail : r.email = q.email := by
        have howned := h.rows r hr
        rw [hrid, hid] at howned
        exact (Option.some.inj howned).symm
      obtain ⟨r', hr', hr'id, -, hkept⟩ := hkeeps r hr (hremail ▸ hrow rfl)
      refine ⟨r', hr', hr'id.trans hrid, fun hnone => hkept ?_ (hr₀r hnone)⟩
      exact hremail ▸ hactive (decide_eq_true hnone)
    | saved =>
      rw [hstage] at hok hrow hactive
      exact hkeeps.pending (hrow rfl) (hactive rfl) hok
    | ended => trivial
  · intro hvalid
    have hlinked : linked s l.email = true := linked_of_mem hl hvalid
    apply hkeeps.pending _ _ ((h.fresh l hl).2 hvalid)
    · rw [needsRow, hlinked, Bool.or_true]
    · rw [needsActive, hlinked, Bool.or_true]

/-- A request moves on. -/
lemma Works.setStage (h : Works s) {i : ℕ} {q : Request} (hq : q ∈ s.requests) {stage : Stage}
    (hstage : StageOk s.subscribers s.owner q.email stage) : Works (s.setStage i q stage) :=
  ⟨h.rows, forall_mem_set h.requests ⟨(h.requests q hq).1, hstage⟩, h.fresh⟩

/-- A save that inserts its row. -/
lemma works_insertRow (h : Works s) {i : ℕ} {q : Request} {row : Subscriber} (hq : q ∈ s.requests)
    (hemail : row.email = q.email) (hunsubscribed : row.unsubscribedAt = none)
    (howner : ∀ email, s.owner row.id = some email → email = row.email) :
    Works (insertRow s i q row) := by
  simp only [insertRow]
  split
  · exact h.setStage hq trivial
  · next subscribers hinsert =>
    have howned : ∀ id email, s.owner id = some email →
        Function.update s.owner row.id (some row.email) id = some email := by
      intro id email hid
      by_cases heq : id = row.id
      · subst heq
        rw [Function.update_self, howner email hid]
      · rw [Function.update_of_ne heq, hid]
    have hwritten : Works { s with
        subscribers := subscribers
        owner := Function.update s.owner row.id (some row.email) } := by
      apply h.write howned
      · intro r hr
        rcases (UniqueTable.mem_insert hinsert).mp hr with hr | rfl
        · exact howned _ _ (h.rows r hr)
        · exact Function.update_self ..
      · intro r hr _
        exact ⟨r, (UniqueTable.mem_insert hinsert).mpr (Or.inl hr), rfl, rfl, fun _ hnone => hnone⟩
    refine hwritten.setStage hq ?_
    exact ⟨row, (UniqueTable.mem_insert hinsert).mpr (Or.inr rfl), hemail, hunsubscribed⟩

/-- A save that updates its row. -/
lemma works_updateRow (h : Works s) {i : ℕ} {q : Request} {entity row : Subscriber}
    (hq : q ∈ s.requests) (hstage : q.stage = .reread entity (some row)) :
    Works { s.setStage i q .saved with
      subscribers := updateSubscriber s.subscribers entity row } := by
  have hok := (h.requests q hq).2
  rw [hstage] at hok
  obtain ⟨-, hid, hunsubscribed, hfound⟩ := hok
  have hkept : ∀ r, r.unsubscribedAt = none →
      (if decide (r.id = entity.id) then writeColumns entity row r else r).unsubscribedAt = none := by
    intro r hr
    split_ifs
    · simp [writeColumns, hunsubscribed, hr, saved]
    · exact hr
  have hsame : ∀ r, (if decide (r.id = entity.id) then writeColumns entity row r else r).id = r.id ∧
      (if decide (r.id = entity.id) then writeColumns entity row r else r).email = r.email := by
    intro r
    split_ifs <;> exact ⟨rfl, rfl⟩
  have hwritten : Works { s with subscribers := updateSubscriber s.subscribers entity row } := by
    apply h.write fun _ _ hid => hid
    · intro r' hr'
      obtain ⟨r, hr, rfl⟩ := mem_updateSubscriber.mp hr'
      rw [(hsame r).1, (hsame r).2]
      exact h.rows r hr
    · intro r hr _
      exact ⟨_, mem_updateSubscriber.mpr ⟨r, hr, rfl⟩, (hsame r).1, (hsame r).2,
        fun _ hnone => hkept r hnone⟩
  refine hwritten.setStage hq ?_
  obtain ⟨r, hr, hrid, hr₀⟩ := hfound row rfl
  refine ⟨_, mem_updateSubscriber.mpr ⟨r, hr, rfl⟩, ?_, ?_⟩
  · rw [(hsame r).2]
    have howned := h.rows r hr
    rw [hrid, hid] at howned
    exact (Option.some.inj howned).symm
  · rw [if_pos (decide_eq_true hrid)]
    cases hrow : row.unsubscribedAt with
    | none => simp [writeColumns, hunsubscribed, hr₀ hrow, saved]
    | some at₀ => simp [writeColumns, hunsubscribed, hrow, saved]

/-- The statements of a `subscribe`. -/
lemma works_advance (h : Works s) {i : ℕ} {q : Request} (hq : q ∈ s.requests)
    (hs : advanceRequest s i q = some s') : Works s' := by
  have hok := (h.requests q hq).2
  simp only [advanceRequest] at hs
  split at hs
  · next row hstage =>
    cases hs
    rw [hstage] at hok
    obtain ⟨hemail, hid⟩ := hok row rfl
    refine h.setStage hq ⟨hemail, hid, rfl, fun r₀ hr₀ => ?_⟩
    obtain ⟨hr₀, hid₀⟩ := Table.find_eq_some.mp hr₀
    exact ⟨r₀, hr₀, hid₀, id⟩
  · cases hs
  · next entity row hstage =>
    cases hs
    exact works_updateRow h hq hstage
  · next entity hstage =>
    cases hs
    rw [hstage] at hok
    obtain ⟨hemail, hid, hunsubscribed, -⟩ := hok
    apply works_insertRow h hq hemail hunsubscribed
    intro email howner
    rw [hid] at howner
    rw [hemail, Option.some.inj howner]
  · next hstage =>
    cases hs
    rw [hstage] at hok
    have hended : Works (s.setStage i q .ended) := h.setStage hq trivial
    refine ⟨hended.rows, hended.requests, fun l hl => ?_⟩
    rcases List.mem_cons.mp hl with rfl | hl
    · exact ⟨(h.requests q hq).1, fun _ => hok⟩
    · exact h.fresh l hl
  · cases hs

lemma works_confirm (h : Works s) {email token : String} {subscribers : Subscribers}
    (hconfirm : confirmSubscription env s.subscribers email token s.clock = .ok subscribers) :
    Works { s with subscribers := subscribers, consented := normalized email :: s.consented } := by
  have hwritten : Works { s with subscribers := subscribers } := by
    apply h.write fun _ _ hid => hid
    · intro r' hr'
      obtain ⟨r, hr, rfl | ⟨rfl, -⟩⟩ := mem_confirm hconfirm hr'
      · exact h.rows r' hr
      · exact h.rows r hr
    · intro r hr _
      obtain ⟨r', hr', hid, hemail, hunsubscribed, -⟩ := exists_confirm hconfirm hr
      exact ⟨r', hr', hid, hemail, fun _ hnone => hunsubscribed.trans hnone⟩
  exact ⟨hwritten.rows, hwritten.requests, hwritten.fresh⟩

/-- An unsubscribe ends the links of its address, and no save of it is under way. -/
lemma works_unsubscribe (h : Works s) {email token : String} {subscribers : Subscribers}
    (hok : sparesLinks env s (.unsubscribe email token) = true)
    (hunsubscribe : Newsletter.unsubscribe env s.subscribers email token s.clock = .ok subscribers) :
    Works { s with
      subscribers := subscribers
      fresh := s.fresh.filter (·.email ≠ normalized email)
      consented := s.consented.filter (· ≠ normalized email) } := by
  have hspared : saving s Stage.needsActive (normalized email) = false := by
    simpa [sparesLinks, verify_of_unsubscribe hunsubscribe] using hok
  have hfiltered : Works { s with fresh := s.fresh.filter (·.email ≠ normalized email) } :=
    ⟨h.rows, h.requests, fun l hl => h.fresh l (List.mem_filter.mp hl).1⟩
  have hwritten : Works { s with
      subscribers := subscribers, fresh := s.fresh.filter (·.email ≠ normalized email) } := by
    apply hfiltered.write fun _ _ hid => hid
    · intro r' hr'
      obtain ⟨r, hr, ⟨rfl, -⟩ | ⟨rfl, -⟩⟩ := mem_unsubscribe hunsubscribe hr'
      · exact h.rows r' hr
      · exact h.rows r hr
    · intro r hr _
      obtain ⟨r', hr', hid, hemail, hkept⟩ := exists_unsubscribe hunsubscribe hr
      refine ⟨r', hr', hid, hemail, fun hactive hnone => (hkept fun heq => ?_).trans hnone⟩
      rcases (Bool.or_eq_true _ _).mp hactive with hsaving | hlinked
      · have hsaving : saving s Stage.needsActive r.email = true := hsaving
        rw [heq, hspared] at hsaving
        cases hsaving
      · obtain ⟨l, hl, hp⟩ := List.any_eq_true.mp hlinked
        have hne := of_decide_eq_true (List.mem_filter.mp hl).2
        exact hne ((of_decide_eq_true ((Bool.and_eq_true _ _).mp hp).1).trans heq)
  exact ⟨hwritten.rows, hwritten.requests, hwritten.fresh⟩

lemma works_step {a : Action} (h : Works s) (hok : sparesLinks env s a = true)
    (hs : step env s a = some s') : Works s' := by
  cases a with
  | advance ms =>
    cases hs
    refine ⟨h.rows, h.requests, fun l hl => ⟨(h.fresh l hl).1, fun hvalid => ?_⟩⟩
    exact (h.fresh l hl).2 (Nat.le_trans (Nat.le_add_right _ _) hvalid)
  | find dto locale ipHash =>
    simp only [step] at hs
    split_ifs at hs
    · cases hs; exact h
    · cases hs
      refine ⟨h.rows, forall_mem_concat h.requests ⟨normalized_normalized _, fun r hr => ?_⟩, h.fresh⟩
      obtain ⟨hr, hemail⟩ := UniqueTable.lookup_eq_some.mp hr
      exact ⟨hemail, hemail ▸ h.rows r hr⟩
  | proceed i =>
    obtain ⟨q, hq, hs⟩ := Option.bind_eq_some_iff.mp hs
    exact works_advance h (List.mem_of_getElem? hq) hs
  | insert i id =>
    simp only [step] at hs
    split at hs
    · next q hq hid =>
      split at hs
      · cases hs
        apply works_insertRow h (List.mem_of_getElem? hq) rfl rfl
        intro email howner
        change s.owner id = some email at howner
        rw [hid] at howner
        cases howner
      · cases hs
    · cases hs
  | confirm email token =>
    simp only [step] at hs
    split at hs
    · cases hs; exact h
    · next subscribers hconfirm =>
      cases hs
      exact works_confirm h hconfirm
  | unsubscribe email token =>
    simp only [step] at hs
    split at hs
    · cases hs; exact h
    · next subscribers hunsubscribe =>
      cases hs
      exact works_unsubscribe h hok hunsubscribe
  | nightly computedAt =>
    cases hs
    apply h.write fun _ _ hid => hid
    · exact fun r hr => h.rows r (UniqueTable.mem_deleteWhere.mp hr).1
    · intro r hr hneeds
      have hspared := List.all_eq_true.mp hok r hr
      rw [hneeds, Bool.not_true, Bool.or_false, Bool.not_eq_true'] at hspared
      exact ⟨r, UniqueTable.mem_deleteWhere.mpr ⟨hr, hspared⟩, rfl, rfl, fun _ hnone => hnone⟩

/-- A link within its seven days is answered, whatever the table holds. -/
lemma exists_confirm_issued {l : Link} (hnormal : normalized l.email = l.email) {now : ℕ}
    (hvalid : now ≤ l.issuedAt + confirmTtlMs) (subscribers : Subscribers) :
    ∃ subscribers', confirmSubscription env subscribers l.email
      (issueNewsletterToken env .confirm l.email l.issuedAt) now = .ok subscribers' := by
  simp only [confirmSubscription, hnormal, verify_issue env l.email hvalid, if_true]
  exact ⟨_, rfl⟩

/-- In every interleaving that spares the links, a link presented within its seven days with no
unsubscribe since confirms the row of its address. -/
theorem fresh_link_confirms {subscribers : Subscribers} {clock : ℕ}
    (h : Reach (step env) (fun s a => sparesLinks env s a = true) (State.init subscribers clock) s)
    {l : Link} (hl : l ∈ s.fresh) (hvalid : s.clock ≤ l.issuedAt + confirmTtlMs) :
    ∃ subscribers', confirmSubscription env s.subscribers l.email
        (issueNewsletterToken env .confirm l.email l.issuedAt) s.clock = .ok subscribers' ∧
      ∃ r ∈ subscribers'.rows, r.email = l.email ∧ r.isActive = true := by
  have hinit : Works (State.init subscribers clock) := by
    refine ⟨fun r hr => ?_, fun q hq => absurd hq List.not_mem_nil, fun l hl => ?_⟩
    · have hfind : subscribers.find r.id = some r := Table.mem_iff_find.mp hr
      change (subscribers.find r.id).map Subscriber.email = some r.email
      rw [hfind, Option.map_some]
    · exact absurd hl List.not_mem_nil
  have hworks : Works s := h.invariant hinit fun _ _ _ hi hok hs => works_step hi hok hs
  obtain ⟨hnormal, hpending⟩ := hworks.fresh l hl
  obtain ⟨r, hr, hemail, hnone⟩ := hpending hvalid
  obtain ⟨subscribers', hconfirm⟩ := exists_confirm_issued hnormal hvalid s.subscribers
  obtain ⟨r', hr', -, hemail', -, hactive⟩ := exists_confirm hconfirm hr
  exact ⟨subscribers', hconfirm, r', hr', hemail'.trans hemail,
    hactive (hemail.trans hnormal.symm) hnone⟩

/-! ### The link of an old row -/

/-- A row that was never confirmed, created at 0. -/
def unconfirmedRow : Subscribers :=
  ⟨⟨[⟨1, "b@x", .en, none, none, none, 0⟩], by decide⟩, by decide⟩

def dayMs : ℕ := 24 * 60 * 60 * 1000

def subscribeAgain : List Action :=
  [.find { email := "B@x", formRenderedAt := 1 } .ar none, .proceed 0, .proceed 0, .proceed 0]

/-- Twenty days on the row is still there for the link. -/
theorem fresh_link_confirms_early : ∃ s : State, ∃ l ∈ s.fresh, ∃ subscribers',
    confirmSubscription (.decimal "k") s.subscribers l.email
      (issueNewsletterToken (.decimal "k") .confirm l.email l.issuedAt) s.clock = .ok subscribers' ∧
      ∃ r ∈ subscribers'.rows, r.email = l.email ∧ r.isActive = true := by
  obtain ⟨s, hrun, hlink⟩ := exists_of_run (guarded (step (.decimal "k")) (sparesLinks (.decimal "k")))
    (State.init unconfirmedRow (20 * dayMs))
    (subscribeAgain ++ [.advance (5 * dayMs), .nightly (25 * dayMs)])
    (P := fun s => (s.fresh.any fun l => s.clock ≤ l.issuedAt + confirmTtlMs) = true)
    (by decide +kernel)
  obtain ⟨l, hl, hvalid⟩ := List.any_eq_true.mp hlink
  exact ⟨s, l, hl, fresh_link_confirms (Reach.of_guarded hrun) hl (of_decide_eq_true hvalid)⟩

/-- On the twenty-fifth day the address subscribes again; the nightly job of the thirty-first deletes
its row, and the link is answered. -/
def subscribeAndPurge : List Action :=
  subscribeAgain ++ [.advance (6 * dayMs), .nightly (31 * dayMs)]

theorem fresh_link_lost : ∃ s : State,
    run (step (.decimal "k")) (State.init unconfirmedRow (25 * dayMs)) subscribeAndPurge = some s ∧
      ∃ l ∈ s.fresh, s.clock ≤ l.issuedAt + confirmTtlMs ∧ ∃ subscribers',
        confirmSubscription (.decimal "k") s.subscribers l.email
          (issueNewsletterToken (.decimal "k") .confirm l.email l.issuedAt) s.clock =
            .ok subscribers' ∧ subscribers'.rows = [] := by
  obtain ⟨s, hrun, hlink, hrows⟩ := exists_of_run (step (.decimal "k"))
    (State.init unconfirmedRow (25 * dayMs)) subscribeAndPurge
    (P := fun s => (s.fresh.any fun l => normalized l.email = l.email &&
      s.clock ≤ l.issuedAt + confirmTtlMs) = true ∧ s.subscribers.rows = []) (by decide +kernel)
  obtain ⟨l, hl, hp⟩ := List.any_eq_true.mp hlink
  rw [Bool.and_eq_true, decide_eq_true_eq, decide_eq_true_eq] at hp
  obtain ⟨subscribers', hconfirm⟩ := exists_confirm_issued hp.1 hp.2 s.subscribers
  refine ⟨s, hrun, l, hl, hp.2, subscribers', hconfirm, List.eq_nil_iff_forall_not_mem.mpr ?_⟩
  intro r hr
  obtain ⟨r₀, hr₀, -⟩ := mem_confirm hconfirm hr
  rw [hrows] at hr₀
  exact List.not_mem_nil hr₀

end SafeerApi.Newsletter
