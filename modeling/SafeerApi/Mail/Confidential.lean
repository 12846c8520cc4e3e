import SafeerApi.Lib.Unwinding
import SafeerApi.Mail.Delivery
import SafeerApi.Mail.Templates

/-!
# What must not be stored (`common/sensitive-vars.ts`, `mail.service.ts`)

A caller of `send` names the variables whose values must not be stored. Their mail is rendered
twice: as it is, which only the process keeps, and with these values masked, for the row. Nothing
that is in the tables afterwards depends on the values: two runs that differ in them alone leave the
same rows.
-/

namespace SafeerApi.Mail.Confidential

open Common Lib RenderTemplate Delivery
open Templates (MailTemplate MailTemplates RenderEnv)

/-! ### Masking -/

/-- `MASKED_VALUE` -/
def maskedValue : String := "••••••"

/-- `masked[key] = value`: a key that is there keeps its place. -/
def setVar (vars : Vars) (key value : String) : Vars :=
  if (vars.lookup key).isSome then vars.map fun x => if x.1 = key then (key, value) else x
  else vars ++ [(key, value)]

/-- `key in masked`, where an assignment makes the value the object's own: not where `__proto__` is
inherited, which takes no text. -/
def takesValue (masked : Vars) (key : String) : Bool :=
  (masked.lookup key).isSome || (key ∈ objectPrototype && key ≠ "__proto__")

def maskVar (masked : Vars) (key : String) : Vars :=
  if takesValue masked key then setVar masked key maskedValue else masked

def maskVars (vars : Vars) (sensitive : List String) : Vars := sensitive.foldl maskVar vars

/-! ### Sends -/

/-- The parameters of a `send`, with its values. -/
structure SendRequest where
  key : String
  toEmail : String
  vars : Vars
  locale : MailLocale
  entity : Option (String × String) := none
  sensitiveVars : List String := []

def SendRequest.params (r : SendRequest) : SendMailParams where
  key := r.key
  locale := r.locale
  toEmail := r.toEmail
  entity := r.entity
  sensitive := !r.sensitiveVars.isEmpty

/-- What the settings and the templates give, each table as it is when it is read. `none` is the
error of a render. -/
def contentOf (env : RenderEnv) (isEnabled : Bool) (templates templates' : MailTemplates)
    (r : SendRequest) : Option MailContent := do
  let rendered ← Templates.render env templates r.key r.vars r.locale
  let masked ←
    if r.params.sensitive then
      Templates.render env templates' r.key (maskVars r.vars r.sensitiveVars) r.locale
    else some rendered
  return ⟨rendered, masked, isEnabled⟩

inductive Action where
  /-- `send`, up to the write of its row. -/
  | send (a id : ℕ) (r : SendRequest) (isEnabled : Bool) (templates templates' : MailTemplates)
  /-- Another step of an attempt, a retry or the sweep. -/
  | go (action : Delivery.Action)
  /-- The process ends, and another one starts. -/
  | restart

def step (env : RenderEnv) (sql : SqlNumeric) (s : State) : Action → Option State
  | .send a id r isEnabled templates templates' =>
    match contentOf env isEnabled templates templates' r with
    | some content => Delivery.step sql s (.send a id r.params content)
    -- the error is logged
    | none => some s
  | .go (.send _ _ _ _) => none
  | .go action => Delivery.step sql s action
  | .restart => some { State.init s.rows with delivered := s.delivered }

/-! ### What the process keeps, erased -/

def blank : RenderedMail := ⟨"", "", ""⟩

def eraseEntry (e : PendingDelivery) : PendingDelivery := { e with rendered := blank }

def erasePending (pending : Pending) : Pending := pending.map fun x => (x.1, eraseEntry x.2)

/-- An attempt without the mail that it is about to keep. -/
def eraseAttempt : Attempt → Attempt
  | .written logId _ => .written logId blank
  | x => x

def eraseAttempts (attempts : Attempts) : Attempts :=
  attempts.project (fun x => (x.1, eraseAttempt x.2)) fun _ => rfl

/-- A state without the mails that the process keeps; the rows are as they are. -/
def erase (s : State) : State :=
  { s with pending := erasePending s.pending, attempts := eraseAttempts s.attempts }

/-- What a mail is made of, without a rendering that must not be stored. -/
def eraseContent (params : SendMailParams) (content : MailContent) : MailContent :=
  if params.sensitive then { content with rendered := content.rendered.map fun _ => blank }
  else content

def eraseAction : Delivery.Action → Delivery.Action
  | .send a id params content => .send a id params (eraseContent params content)
  | action => action

section Erase

variable {sql : SqlNumeric} {s : State} {pending : Pending} {attempts : Attempts}
  {logId k : String} {a : ℕ} {x : Attempt}

lemma eraseAttempt_eraseAttempt (x : Attempt) : eraseAttempt (eraseAttempt x) = eraseAttempt x := by
  cases x <;> rfl

@[simp] lemma erasePending_erasePending (pending : Pending) :
    erasePending (erasePending pending) = erasePending pending := by
  simp only [erasePending, List.map_map]
  rfl

@[simp] lemma eraseAttempts_eraseAttempts (attempts : Attempts) :
    eraseAttempts (eraseAttempts attempts) = eraseAttempts attempts := by
  apply Table.ext
  simp [eraseAttempts, Table.project, eraseAttempt_eraseAttempt]

@[simp] lemma erase_erase (s : State) : erase (erase s) = erase s := by
  simp [erase]

lemma get_erasePending :
    Pending.get (erasePending pending) k = (Pending.get pending k).map eraseEntry := by
  rw [erasePending, Pending.get_map (f := fun x => (x.1, eraseEntry x.2)) fun _ => rfl, Pending.get,
    Option.map_map]
  rfl

@[simp] lemma erasePending_delete :
    erasePending (Pending.delete pending k) = Pending.delete (erasePending pending) k := by
  simp only [erasePending, Pending.delete, List.filter_map]
  rfl

lemma erasePending_set (e : PendingDelivery) :
    erasePending (Pending.set pending k e)
      = Pending.set (erasePending pending) k (eraseEntry e) := by
  simp only [Pending.set, get_erasePending, Option.isSome_map]
  split_ifs
  · simp only [erasePending, List.map_map]
    apply List.map_congr_left
    intro x _
    simp only [Function.comp_apply]
    split_ifs <;> rfl
  · simp [erasePending]

lemma erasePending_evict :
    erasePending (evictIfAtCapacity pending) = evictIfAtCapacity (erasePending pending) := by
  simp only [evictIfAtCapacity, erasePending, List.length_map]
  split_ifs
  · rfl
  · rw [List.eraseP_map]
    rfl

/-- A new entry is the same whatever mail it holds. -/
@[simp] lemma erasePending_queued (rendered : RenderedMail) :
    erasePending (Pending.set (evictIfAtCapacity pending) logId ⟨rendered, none, false⟩)
      = Pending.set (evictIfAtCapacity (erasePending pending)) logId ⟨blank, none, false⟩ := by
  rw [erasePending_set, erasePending_evict]
  rfl

@[simp] lemma erasePending_keepRendered (rendered : RenderedMail) :
    erasePending (keepRendered pending logId rendered)
      = keepRendered (erasePending pending) logId blank := by
  simp only [keepRendered, get_erasePending, Option.isSome_map]
  split_ifs
  · rfl
  · exact erasePending_queued rendered

@[simp] lemma erasePending_reschedule (failure : Failure) :
    erasePending (reschedule pending logId failure)
      = reschedule (erasePending pending) logId failure := by
  simp only [erasePending, reschedule, List.map_map]
  apply List.map_congr_left
  intro x _
  simp only [Function.comp_apply]
  split_ifs <;> rfl

lemma find_eraseAttempts : (eraseAttempts attempts).find a
    = (attempts.find a).map fun x => (x.1, eraseAttempt x.2) := by
  rw [eraseAttempts, Table.find_project]

@[simp] lemma eraseAttempts_replace :
    eraseAttempts (attempts.replace (a, x))
      = (eraseAttempts attempts).replace (a, eraseAttempt x) :=
  Table.project_replace

@[simp] lemma eraseAttempts_delete :
    eraseAttempts (attempts.delete a) = (eraseAttempts attempts).delete a :=
  Table.project_delete

lemma eraseAttempts_insert (h : attempts.find a = none)
    (h' : (eraseAttempts attempts).find a = none) :
    eraseAttempts (attempts.insert (a, x) h)
      = eraseAttempts ((eraseAttempts attempts).insert (a, eraseAttempt x) h') := by
  apply Table.ext
  simp [eraseAttempts, Table.project, Table.insert, eraseAttempt_eraseAttempt]

lemma at_erase (s : State) (a : ℕ) : (erase s).at a = (s.at a).map eraseAttempt := by
  simp only [State.at, erase, find_eraseAttempts, Option.map_map]
  rfl

lemma currentDone_erase (s : State) (current : Option ℕ) :
    (erase s).currentDone current = s.currentDone current := by
  simp only [State.currentDone, erase, find_eraseAttempts, Option.isNone_map]

/-- An attempt starts or not whatever is erased. -/
lemma begin_erase (s : State) (a : ℕ) (x : Attempt) :
    (s.begin a x).map erase = ((erase s).begin a (eraseAttempt x)).map erase := by
  simp only [State.begin]
  have hfind : (erase s).attempts.find a
      = (s.attempts.find a).map fun x => (x.1, eraseAttempt x.2) := find_eraseAttempts
  by_cases hfree : s.attempts.find a = none
  · have hfree' : (erase s).attempts.find a = none := by rw [hfind, hfree, Option.map_none]
    rw [dif_pos hfree, dif_pos hfree', Option.map_some, Option.map_some]
    simp only [erase, erasePending_erasePending, eraseAttempts_insert hfree hfree']
  · have hfree' : (erase s).attempts.find a ≠ none := by rwa [hfind, Ne, Option.map_eq_none_iff]
    rw [dif_neg hfree, dif_neg hfree', Option.map_none]

/-- Which mail it is that is kept first does not matter. -/
lemma begin_erase_written (s : State) (a : ℕ) (rendered rendered' : RenderedMail) :
    (s.begin a (.written logId rendered)).map erase
      = (s.begin a (.written logId rendered')).map erase := by
  rw [begin_erase s a (.written logId rendered), begin_erase s a (.written logId rendered')]
  rfl

lemma newLog_eraseContent (id : ℕ) (params : SendMailParams) (content : MailContent) :
    newLog id params (eraseContent params content) = newLog id params content := by
  simp only [eraseContent]
  split_ifs with hsensitive
  · simp [newLog, hsensitive]
  · rfl

lemma toDeliver_eraseContent (row : MailLog) (params : SendMailParams) (content : MailContent) :
    toDeliver row (eraseContent params content) =
      (toDeliver row content).map fun rendered => if params.sensitive then blank else rendered := by
  simp only [toDeliver, eraseContent]
  split_ifs <;> simp

lemma decideRetry_erase (row : Option MailLog) :
    decideRetry (erasePending pending) logId row = decideRetry pending logId row := by
  simp only [decideRetry, get_erasePending, Option.isNone_map]

/-- A decision without its rendering. -/
def eraseDecision : Decision → Decision
  | .deliver attempts _ => .deliver attempts blank
  | decision => decision

/-- What an attempt decides does not depend on the mails that are kept, but for the mail itself. -/
lemma decideAttempt_erase (row : Option MailLog) :
    eraseDecision (decideAttempt (erasePending pending) logId row)
      = eraseDecision (decideAttempt pending logId row) := by
  cases row with
  | none => rfl
  | some row =>
    simp only [decideAttempt, get_erasePending]
    split_ifs
    · rfl
    · cases Pending.get pending logId <;> rfl
    · cases Pending.get pending logId with
      | some e => rfl
      | none => cases row.payload <;> rfl

/-- A step does the same, up to what is erased, where it is erased before. -/
lemma step_erase (s : State) (action : Delivery.Action) :
    (Delivery.step sql s action).map erase
      = (Delivery.step sql (erase s) (eraseAction action)).map erase := by
  cases action with
  | send a id params content =>
    simp only [eraseAction, Delivery.step, newLog_eraseContent]
    rw [show (erase s).rows = s.rows from rfl]
    by_cases hnew : s.rows.find (newLog id params content).id = none
    · rw [dif_pos hnew, dif_pos hnew, toDeliver_eraseContent]
      cases toDeliver (newLog id params content) content with
      | none => simp [erase]
      | some rendered =>
        -- in both, the attempt keeps some mail
        have hbegin := begin_erase { s with rows := s.rows.insert (newLog id params content) hnew }
          a (.written (toString id) rendered)
        rw [hbegin]
        exact begin_erase_written _ a _ _
    · rw [dif_neg hnew, dif_neg hnew]
  | retry a logId => exact begin_erase s a (.asked logId)
  | sweepNext a =>
    simp only [eraseAction, Delivery.step, currentDone_erase]
    rw [show (erase s).sweep = s.sweep from rfl]
    cases s.sweep with
    | none => rfl
    | some sweep =>
      cases sweep with
      | starting => rfl
      | looping due current =>
        cases due with
        | nil => rfl
        | cons logId due =>
          simp only
          split_ifs
          · exact begin_erase { s with sweep := some (.looping due (some a)) } a (.starting logId)
          · rfl
  | sweepEnd =>
    simp only [eraseAction, Delivery.step, currentDone_erase]
    rw [show (erase s).sweep = s.sweep from rfl]
    cases s.sweep with
    | none => rfl
    | some sweep =>
      cases sweep with
      | starting => rfl
      | looping due current =>
        cases due with
        | nil =>
          simp only
          split_ifs <;> simp [erase]
        | cons logId due => rfl
  | sweepStart | sweepFind now | sweepFail =>
    simp only [eraseAction, Delivery.step]
    rw [show (erase s).sweep = s.sweep from rfl]
    cases s.sweep with
    | none => simp [erase]
    | some sweep => cases sweep <;> simp [erase]
  | checkRetry a =>
    simp only [eraseAction, Delivery.step, at_erase]
    cases s.at a with
    | none => rfl
    | some x =>
      cases x with
      | checking logId row =>
        have hdecide : decideRetry (erase s).pending logId row = decideRetry s.pending logId row :=
          decideRetry_erase row
        simp only [Option.map_some, eraseAttempt, hdecide]
        split <;> simp [erase, eraseAttempt, State.continue, State.finish]
      | _ => rfl
  | deliver a =>
    simp only [eraseAction, Delivery.step, at_erase]
    cases s.at a with
    | none => rfl
    | some x =>
      cases x with
      | sending logId attempts =>
        simp only [Option.map_some, eraseAttempt]
        split <;> simp [erase, eraseAttempt, State.continue]
      | _ => rfl
  | resume a =>
    simp only [eraseAction, Delivery.step, at_erase]
    cases s.at a with
    | none => rfl
    | some x =>
      cases x with
      | read logId row =>
        have hdecide : eraseDecision (decideAttempt (erase s).pending logId row)
            = eraseDecision (decideAttempt s.pending logId row) := decideAttempt_erase row
        simp only [Option.map_some, eraseAttempt]
        cases hd : decideAttempt s.pending logId row <;>
          cases hd' : decideAttempt (erase s).pending logId row <;>
          rw [hd, hd'] at hdecide <;> cases hdecide <;>
          simp [erase, eraseAttempt, State.continue, State.finish]
      | _ => rfl
  | queue a | readRetry a | read a | readFails a | noTransporter a now | transportThrows a
  | refuse a message now | recordSent a now | sentFails a message now | recordFailure a | giveUp a
  | updateFails a =>
    simp only [eraseAction, Delivery.step, at_erase]
    cases s.at a with
    | none => rfl
    | some x => cases x <;> simp [eraseAttempt, erase, State.continue, State.finish]

end Erase

/-! ### What a request passes on -/

/-- Two requests that differ in the values of their sensitive variables, at most. -/
structure SendRequest.Alike (r r' : SendRequest) : Prop where
  same : r' = { r with vars := r'.vars }
  names : ∀ name, (r.vars.lookup name).isSome = (r'.vars.lookup name).isSome
  values : ∀ name ∉ r.sensitiveVars, r.vars.lookup name = r'.vars.lookup name

section Requests

variable {env : RenderEnv} {vars vars' : Vars} {r r' : SendRequest} {key name : String}

lemma lookup_map_set (vars : Vars) (key value name : String) :
    (vars.map fun x => if x.1 = key then (key, value) else x).lookup name =
      if name = key then (vars.lookup name).map fun _ => value else vars.lookup name := by
  induction vars with
  | nil => simp
  | cons x vars ih =>
    rw [List.map_cons, List.lookup_cons, List.lookup_cons, ih]
    by_cases hx : x.1 = key
    · rw [if_pos hx]
      by_cases hname : name = key
      · simp [hname, hx]
      · have hne : (name == key) = false := beq_eq_false_iff_ne.mpr hname
        simp [hname, hx, hne]
    · rw [if_neg hx]
      by_cases hname : name = key
      · have hne : (name == x.1) = false := beq_eq_false_iff_ne.mpr fun h => hx (h.symm.trans hname)
        rw [hne]
      · simp [hname]

lemma lookup_setVar (vars : Vars) (key value name : String) :
    (setVar vars key value).lookup name = if name = key then some value else vars.lookup name := by
  rw [setVar]
  split_ifs with hthere hname hname
  · obtain ⟨old, hold⟩ := Option.isSome_iff_exists.mp hthere
    rw [lookup_map_set, if_pos hname, hname, hold, Option.map_some]
  · rw [lookup_map_set, if_neg hname]
  · rw [List.lookup_append, hname, Option.not_isSome_iff_eq_none.mp hthere]
    simp
  · have hne : (name == key) = false := beq_eq_false_iff_ne.mpr hname
    rw [List.lookup_append]
    simp [List.lookup_cons, hne]

lemma lookup_maskVar (vars : Vars) (key name : String) :
    (maskVar vars key).lookup name =
      if name = key ∧ takesValue vars name then some maskedValue else vars.lookup name := by
  rw [maskVar]
  by_cases hname : name = key
  · subst hname
    split_ifs with htakes hboth hboth
    · rw [lookup_setVar, if_pos rfl]
    · exact absurd ⟨rfl, htakes⟩ hboth
    · exact absurd hboth.2 htakes
    · rfl
  · have hboth : ¬(name = key ∧ takesValue vars name) := fun h => hname h.1
    rw [if_neg hboth]
    split
    · rw [lookup_setVar, if_neg hname]
    · rfl

lemma takesValue_maskVar (vars : Vars) (key name : String) :
    takesValue (maskVar vars key) name = takesValue vars name := by
  rw [takesValue, lookup_maskVar]
  split_ifs with hmasked
  · rw [hmasked.2]
    rfl
  · rfl

/-- Masking depends on the names that there are, and on the values that are not masked. -/
lemma lookup_maskVars (vars : Vars) (sensitive : List String) (name : String) :
    (maskVars vars sensitive).lookup name =
      if name ∈ sensitive ∧ takesValue vars name then some maskedValue else vars.lookup name := by
  induction sensitive generalizing vars with
  | nil => simp [maskVars]
  | cons key sensitive ih =>
    rw [maskVars, List.foldl_cons, ← maskVars, ih, takesValue_maskVar, lookup_maskVar]
    by_cases htakes : takesValue vars name
    · by_cases hname : name = key
      · simp [hname, hname ▸ htakes]
      · simp [hname, htakes]
    · simp [htakes]

lemma lookup_maskVars_alike (h : r.Alike r') (name : String) :
    (maskVars r.vars r.sensitiveVars).lookup name
      = (maskVars r'.vars r.sensitiveVars).lookup name := by
  have htakes : takesValue r.vars name = takesValue r'.vars name := by
    rw [takesValue, takesValue, h.names name]
  rw [lookup_maskVars, lookup_maskVars, htakes]
  by_cases hname : name ∈ r.sensitiveVars
  · split_ifs with hmasked
    · rfl
    · have hnone' : (r'.vars.lookup name).isSome = false := by
        rw [Bool.eq_false_iff]
        intro hsome
        exact hmasked ⟨hname, by simp [takesValue, hsome]⟩
      have hnone := (h.names name).trans hnone'
      rw [Option.isSome_eq_false_iff, Option.isNone_iff_eq_none] at hnone hnone'
      rw [hnone, hnone']
  · rw [h.values name hname]

lemma isInherited_congr (h : (vars.lookup name).isSome = (vars'.lookup name).isSome) :
    isInherited vars name = isInherited vars' name := by
  have hnone : vars.lookup name = none ↔ vars'.lookup name = none := by
    rw [← Option.not_isSome_iff_eq_none, h, Option.not_isSome_iff_eq_none]
  simp only [isInherited, hnone]

/-- A rendering depends on the values of its names only. -/
lemma renderFrom_congr (h : ∀ name, vars.lookup name = vars'.lookup name)
    (template : MailTemplate) (locale : MailLocale) :
    Templates.renderFrom env template vars locale
      = Templates.renderFrom env template vars' locale := by
  have hinherited : isInherited vars = isInherited vars' := by
    funext name
    exact isInherited_congr (congrArg _ (h name))
  have hvalue : valueOf vars = valueOf vars' := by
    funext name
    rw [valueOf, valueOf, h name]
  simp only [Templates.renderFrom, substituteMarkdown, substitutePlain, hinherited, hvalue]

variable (env) in
/-- Whether there is a rendering depends on the names only. -/
lemma renderFrom_blank_congr
    (h : ∀ name, (vars.lookup name).isSome = (vars'.lookup name).isSome)
    (template : MailTemplate) (locale : MailLocale) :
    (Templates.renderFrom env template vars locale).map (fun _ => blank)
      = (Templates.renderFrom env template vars' locale).map fun _ => blank := by
  have hinherited : isInherited vars = isInherited vars' := by
    funext name
    exact isInherited_congr (h name)
  simp only [Templates.renderFrom, substituteMarkdown, hinherited]
  split_ifs <;> rfl

variable (env) in
lemma render_congr (h : ∀ name, vars.lookup name = vars'.lookup name) (templates : MailTemplates)
    (key : String) (locale : MailLocale) :
    Templates.render env templates key vars locale
      = Templates.render env templates key vars' locale := by
  simp only [Templates.render, renderFrom_congr h]

variable (env) in
lemma render_blank_congr (h : ∀ name, (vars.lookup name).isSome = (vars'.lookup name).isSome)
    (templates : MailTemplates) (key : String) (locale : MailLocale) :
    (Templates.render env templates key vars locale).map (Option.map fun _ => blank)
      = (Templates.render env templates key vars' locale).map (Option.map fun _ => blank) := by
  simp only [Templates.render]
  cases templates.find key with
  | none => rfl
  | some template =>
    have hblank := renderFrom_blank_congr env h template locale
    simp only
    split_ifs
    · simpa [Function.comp_def] using congrArg (Option.map some) hblank
    · rfl

variable (env) in
/-- What two such requests are mailed differs in what is not stored, at most. -/
lemma contentOf_alike (h : r.Alike r') (isEnabled : Bool) (templates templates' : MailTemplates) :
    (contentOf env isEnabled templates templates' r).map (eraseContent r.params)
      = (contentOf env isEnabled templates templates' r').map (eraseContent r.params) := by
  have hsame := h.same
  have hmasked := render_congr env (lookup_maskVars_alike h) templates' r.key r.locale
  have hparams : r'.params = r.params := by
    rw [hsame]
    rfl
  have hkey : r'.key = r.key := by rw [hsame]
  have hlocale : r'.locale = r.locale := by rw [hsame]
  have hvars : r'.sensitiveVars = r.sensitiveVars := by rw [hsame]
  simp only [contentOf, hparams, hkey, hlocale, hvars, ← hmasked]
  by_cases hsensitive : r.params.sensitive
  · have hrendered := render_blank_congr env h.names templates r.key r.locale
    simp only [if_pos hsensitive]
    cases hr : Templates.render env templates r.key r.vars r.locale with
    | none =>
      rw [hr, Option.map_none, eq_comm, Option.map_eq_none_iff] at hrendered
      rw [hrendered]
    | some rendered =>
      rw [hr, Option.map_some, eq_comm, Option.map_eq_some_iff] at hrendered
      obtain ⟨rendered', hr', hblank⟩ := hrendered
      rw [hr']
      cases Templates.render env templates' r.key (maskVars r.vars r.sensitiveVars) r.locale with
      | none => rfl
      | some masked => simp [eraseContent, hsensitive, hblank]
  · have hnone : r.sensitiveVars = [] := by simpa [SendRequest.params] using hsensitive
    have hrendered := render_congr env (fun name => h.values name (by simp [hnone]))
      templates r.key r.locale
    simp only [if_neg hsensitive, hrendered]

end Requests

/-! ### What is stored -/

/-- Two steps that differ in the values of sensitive variables, at most. -/
inductive Action.Alike : Action → Action → Prop where
  | send {a id : ℕ} {r r' : SendRequest} {isEnabled : Bool} {templates templates' : MailTemplates}
      (h : r.Alike r') :
      Alike (.send a id r isEnabled templates templates')
        (.send a id r' isEnabled templates templates')
  | go (action : Delivery.Action) : Alike (.go action) (.go action)
  | restart : Alike .restart .restart

section Stored

variable {env : RenderEnv} {sql : SqlNumeric} {s t : State} {x y : Action}

lemma step_alike (h : erase s = erase t) (hxy : x.Alike y) :
    (step env sql s x).map erase = (step env sql t y).map erase := by
  have hdelivery : ∀ {action action' : Delivery.Action},
      eraseAction action = eraseAction action' →
      (Delivery.step sql s action).map erase = (Delivery.step sql t action').map erase :=
    fun hab => step_view_eq_of_erase step_erase h hab
  cases hxy with
  | @send a id r r' isEnabled templates templates' hr =>
    have hcontent := contentOf_alike env hr isEnabled templates templates'
    have hparams : r'.params = r.params := by
      rw [hr.same]
      rfl
    simp only [step]
    cases hc : contentOf env isEnabled templates templates' r with
    | none =>
      rw [hc, Option.map_none, eq_comm, Option.map_eq_none_iff] at hcontent
      rw [hcontent]
      exact congrArg some h
    | some content =>
      rw [hc, Option.map_some, eq_comm, Option.map_eq_some_iff] at hcontent
      obtain ⟨content', hc', herase⟩ := hcontent
      rw [hc']
      apply hdelivery
      simp only [eraseAction, hparams, herase]
  | go action =>
    cases action with
    | send _ _ _ _ => rfl
    | _ =>
      simp only [step]
      exact hdelivery rfl
  | restart =>
    have hrows : (erase s).rows = (erase t).rows := congrArg State.rows h
    have hdelivered : (erase s).delivered = (erase t).delivered := congrArg State.delivered h
    simp only [erase] at hrows hdelivered
    simp only [step, hrows, hdelivered]

/-- In every order of sends, attempts, retries, sweeps and restarts, with every edit of the
templates in between: two runs that differ in the values of sensitive variables alone go on alike,
and leave the same rows and the same numbers of deliveries. -/
theorem secrets_unstored (env : RenderEnv) (sql : SqlNumeric) (rows : MailLogs)
    {as bs : List Action} (h : List.Forall₂ Action.Alike as bs) :
    (run (step env sql) (State.init rows) as).map (fun s => (s.rows, s.delivered))
      = (run (step env sql) (State.init rows) bs).map fun s => (s.rows, s.delivered) := by
  have herase : (run (step env sql) (State.init rows) as).map erase
      = (run (step env sql) (State.init rows) bs).map erase :=
    run_view_eq (fun _ _ _ _ hst hab => step_alike hst hab) h rfl
  have hseen := congrArg (Option.map fun s : State => (s.rows, s.delivered)) herase
  rwa [Option.map_map, Option.map_map] at hseen

end Stored

/-! ### A code that is not stored -/

def codeTemplate : MailTemplate where
  key := "otp"
  nameAr := "otp"
  nameEn := none
  subjectAr := "\x7b\x7bcode\x7d\x7d"
  subjectEn := none
  bodyAr := "\x7b\x7bname\x7d\x7d: \x7b\x7bcode\x7d\x7d"
  bodyEn := none
  variableNames := ["name", "code"]
  isEnabled := true

def codeTemplates : MailTemplates := ⟨[codeTemplate], by decide⟩

def codeRequest (code : String) : SendRequest where
  key := "otp"
  toEmail := "a@x"
  vars := [("name", "N"), ("code", code)]
  locale := .ar
  sensitiveVars := ["code"]

/-- The first attempt is refused. -/
def refusedCode (code : String) : List Action :=
  [.send 1 7 (codeRequest code) true codeTemplates codeTemplates, .go (.queue 1), .go (.read 1),
    .go (.resume 1), .go (.refuse 1 "busy" 0), .go (.recordFailure 1)]

lemma refusedCode_alike : List.Forall₂ Action.Alike (refusedCode "1234") (refusedCode "5678") := by
  have hrequest : (codeRequest "1234").Alike (codeRequest "5678") := by
    refine ⟨rfl, fun name => ?_, fun name hname => ?_⟩
    · simp only [codeRequest, List.lookup_cons]
      cases name == "name" <;> cases name == "code" <;> rfl
    · have hne : (name == "code") = false := by simpa [codeRequest] using hname
      simp only [codeRequest, List.lookup_cons, hne]
  exact .cons (.send hrequest) (.cons (.go _) (.cons (.go _) (.cons (.go _) (.cons (.go _)
    (.cons (.go _) .nil)))))

/-- The two codes are in the process, and in no row. -/
theorem secrets_unstored_code : ∃ s t : State,
    run (step Templates.plainRender .decimal) (State.init .empty) (refusedCode "1234") = some s ∧
    run (step Templates.plainRender .decimal) (State.init .empty) (refusedCode "5678") = some t ∧
    s.pending ≠ t.pending ∧ s.rows = t.rows ∧
    (s.rows.find 7).map MailLog.subject = some maskedValue := by
  obtain ⟨s, hs, hsubject, hkept⟩ := exists_of_run (step Templates.plainRender .decimal)
    (State.init .empty) (refusedCode "1234")
    (P := fun s => (s.rows.find 7).map MailLog.subject = some maskedValue ∧
      (Pending.get s.pending "7").map (fun e => e.rendered.text) = some "N: 1234") (by decide)
  obtain ⟨t, ht, hkept'⟩ := exists_of_run (step Templates.plainRender .decimal)
    (State.init .empty) (refusedCode "5678")
    (P := fun s => (Pending.get s.pending "7").map (fun e => e.rendered.text) = some "N: 5678")
    (by decide)
  have halike := secrets_unstored Templates.plainRender .decimal .empty refusedCode_alike
  rw [hs, ht, Option.map_some, Option.map_some, Option.some.injEq, Prod.mk.injEq] at halike
  refine ⟨s, t, hs, ht, fun hsame => ?_, halike.1, hsubject⟩
  rw [hsame, hkept'] at hkept
  exact absurd hkept (by decide)

end SafeerApi.Mail.Confidential
