import SafeerApi.Lib.DirtyWrite
import SafeerApi.Lib.Reach
import SafeerApi.Lib.Table
import SafeerApi.Mail.RenderTemplate
import SafeerApi.Mail.Transport

/-!
# The mail templates (`mail-templates.service.ts`)

An administrator edits the texts of a template; which placeholders they may use is the template's
own list, which no edit changes. A mail is made from the template when it is sent, with the values
of the call that sends it: the lists are kept so that no edit, and no overlap of two edits, leaves a
text that a call has no value for.
-/

namespace SafeerApi.Mail.Templates

open Lib RenderTemplate Transport

/-! ### Templates -/

structure MailTemplate where
  key : String
  nameAr : String
  nameEn : Option String
  subjectAr : String
  subjectEn : Option String
  bodyAr : String
  bodyEn : Option String
  /-- `variables`: the allow-list, owned by the code. -/
  variableNames : List String
  isEnabled : Bool
  deriving DecidableEq, Repr

/-- `uq_tpl_key` -/
abbrev MailTemplates := Table MailTemplate.key

/-- The fields a body of `PUT` has. -/
structure UpdateMailTemplateDto where
  nameAr : Option String := none
  nameEn : Option (Option String) := none
  subjectAr : Option String := none
  subjectEn : Option (Option String) := none
  bodyAr : Option String := none
  bodyEn : Option (Option String) := none
  isEnabled : Option Bool := none

/-- What the service throws. -/
inductive Refusal where
  | notFound
  | unknownVariable (name : String)
  deriving DecidableEq, Repr

def Refusal.status : Refusal → ℕ
  | .notFound => 404
  | .unknownVariable _ => 400

def Refusal.title : Refusal → String
  | .notFound => "Template not found"
  | .unknownVariable name => "Unknown template variable: \x7b\x7b" ++ name ++ "\x7d\x7d"

def Refusal.extra : Refusal → List (String × String)
  | .notFound => []
  | .unknownVariable name => [("variable", name)]

def getByKey (rows : MailTemplates) (key : String) : Except Refusal MailTemplate :=
  match rows.find key with
  | some template => .ok template
  | none => .error .notFound

/-- The texts of an update that are checked, in order: `if (!text) continue`. -/
def UpdateMailTemplateDto.texts (dto : UpdateMailTemplateDto) : List String :=
  [dto.subjectAr, dto.subjectEn.join, dto.bodyAr, dto.bodyEn.join].filterMap filled

/-- Validate against the allow-list before writing anything. -/
def checkVariables (variableNames : List String) (dto : UpdateMailTemplateDto) :
    Except Refusal Unit :=
  match (dto.texts.flatMap extractVariables).find? (· ∉ variableNames) with
  | some name => .error (.unknownVariable name)
  | none => .ok ()

/-- `Object.assign(template, dto)` -/
def MailTemplate.assign (template : MailTemplate) (dto : UpdateMailTemplateDto) : MailTemplate :=
  { template with
    nameAr := dto.nameAr.getD template.nameAr
    nameEn := dto.nameEn.getD template.nameEn
    subjectAr := dto.subjectAr.getD template.subjectAr
    subjectEn := dto.subjectEn.getD template.subjectEn
    bodyAr := dto.bodyAr.getD template.bodyAr
    bodyEn := dto.bodyEn.getD template.bodyEn
    isEnabled := dto.isEnabled.getD template.isEnabled }

/-- The columns after the `UPDATE` of a save. -/
def savedTemplate (entity reread row : MailTemplate) : MailTemplate where
  key := row.key
  nameAr := saved entity.nameAr reread.nameAr row.nameAr
  nameEn := saved entity.nameEn reread.nameEn row.nameEn
  subjectAr := saved entity.subjectAr reread.subjectAr row.subjectAr
  subjectEn := saved entity.subjectEn reread.subjectEn row.subjectEn
  bodyAr := saved entity.bodyAr reread.bodyAr row.bodyAr
  bodyEn := saved entity.bodyEn reread.bodyEn row.bodyEn
  variableNames := saved entity.variableNames reread.variableNames row.variableNames
  isEnabled := saved entity.isEnabled reread.isEnabled row.isEnabled

/-! ### Mails -/

/-- What is not this module's: `render` is `MarkdownService.render`, `inheritedText` the text of
what every object inherits. -/
structure RenderEnv where
  render : String → String
  inheritedText : String → String

/-- `locale === 'en' && text` -/
def inEnglish (locale : MailLocale) (text : Option String) : Option String :=
  if locale = .en then filled text else none

def MailTemplate.subjectSource (template : MailTemplate) (locale : MailLocale) : String :=
  (inEnglish locale template.subjectEn).getD template.subjectAr

def MailTemplate.bodySource (template : MailTemplate) (locale : MailLocale) : String :=
  (inEnglish locale template.bodyEn).getD template.bodyAr

/-- The language of the body that is used. -/
def MailTemplate.bodyLang (template : MailTemplate) (locale : MailLocale) : MailLocale :=
  if (inEnglish locale template.bodyEn).isSome then .en else .ar

/-- The HTML part, laid out in the direction of its language. -/
def wrapHtml (lang : MailLocale) (html : String) : String :=
  match lang with
  | .ar => "<div dir=\x22rtl\x22 lang=\x22ar\x22>" ++ html ++ "</div>"
  | .en => "<div dir=\x22ltr\x22 lang=\x22en\x22>" ++ html ++ "</div>"

/-- `none` is the error of `substituteMarkdown`. -/
def renderFrom (env : RenderEnv) (template : MailTemplate) (vars : Vars) (locale : MailLocale) :
    Option RenderedMail :=
  (substituteMarkdown (template.bodySource locale) vars).map fun markdown => {
    subject := substitutePlain env.inheritedText (template.subjectSource locale) vars
    html := wrapHtml (template.bodyLang locale) (env.render markdown)
    text := substitutePlain env.inheritedText (template.bodySource locale) vars }

/-- Nothing where the template is disabled or missing. -/
def render (env : RenderEnv) (rows : MailTemplates) (key : String) (vars : Vars)
    (locale : MailLocale) : Option (Option RenderedMail) :=
  match rows.find key with
  | some template =>
    if template.isEnabled then (renderFrom env template vars locale).map some else some none
  | none => some none

/-- `Object.fromEntries(.. [name, vars?.[name] ?? ..])`: what `vars` inherits under a name is what
an object without the name inherits. -/
def sampleVars (variableNames : List String) (vars : Option Vars) : Vars :=
  variableNames.filterMap fun name =>
    if vars.any (isInherited · name) then none
    else some (name, (vars.bind (List.lookup name)).getD ("[" ++ name ++ "]"))

def preview (env : RenderEnv) (rows : MailTemplates) (key : String) (vars : Option Vars)
    (locale : MailLocale) : Except Refusal (Option RenderedMail) := do
  let template ← getByKey rows key
  return renderFrom env template (sampleVars template.variableNames vars) locale

/-- The calls of `send`, each with what it passes. -/
inductive SendMailCall where
  | contactAck (locale : MailLocale)
  | contactNotify (name email phone subject message link : String)
  | userInvite (name inviter role link : String)
  | passwordReset (name link : String)
  | messageReply (name message : String) (locale : MailLocale)
  | newsletterConfirm (link : String) (locale : MailLocale)

def SendMailCall.key : SendMailCall → String
  | .contactAck _ => "contact_ack"
  | .contactNotify _ _ _ _ _ _ => "contact_notify"
  | .userInvite _ _ _ _ => "user_invite"
  | .passwordReset _ _ => "password_reset"
  | .messageReply _ _ _ => "message_reply"
  | .newsletterConfirm _ _ => "newsletter_confirm"

def SendMailCall.vars : SendMailCall → Vars
  | .contactAck _ => []
  | .contactNotify name email phone subject message link =>
    [("name", name), ("email", email), ("phone", phone), ("subject", subject),
      ("message", message), ("link", link)]
  | .userInvite name inviter role link =>
    [("name", name), ("inviter", inviter), ("role", role), ("link", link)]
  | .passwordReset name link => [("name", name), ("link", link)]
  | .messageReply name message _ => [("name", name), ("message", message)]
  | .newsletterConfirm link _ => [("link", link)]

def SendMailCall.locale : SendMailCall → MailLocale
  | .contactAck locale | .messageReply _ _ locale | .newsletterConfirm _ locale => locale
  | .contactNotify _ _ _ _ _ _ | .userInvite _ _ _ _ | .passwordReset _ _ => .ar

/-! ### Edits -/

/-- Where an update is: what it loaded, what its save re-read, and how it ended. -/
inductive Update where
  | loaded (template : MailTemplate)
  | saving (before entity reread : MailTemplate)
  | refused (refusal : Refusal)
  | done (before after : MailTemplate)

/-- What it was refused for. -/
def Update.refusal : Update → Option Refusal
  | .refused refusal => some refusal
  | _ => none

lemma Update.refusal_eq_some {update : Update} {refusal : Refusal} :
    update.refusal = some refusal ↔ update = .refused refusal := by
  cases update <;> simp [Update.refusal]

structure State where
  rows : MailTemplates
  updates : ℕ → Option Update

def State.init (rows : MailTemplates) : State := ⟨rows, fun _ => none⟩

def State.setUpdate (s : State) (k : ℕ) (u : Option Update) : State :=
  { s with updates := Function.update s.updates k u }

inductive Action where
  | getByKey (k : ℕ) (key : String)
  | save (k : ℕ) (dto : UpdateMailTemplateDto)
  | write (k : ℕ)
  | fail (k : ℕ)

/-- The next step of an update. -/
def step (s : State) : Action → Option State
  | .getByKey k key =>
    match s.updates k with
    | none =>
      match getByKey s.rows key with
      | .ok template => some (s.setUpdate k (some (.loaded template)))
      | .error refusal => some (s.setUpdate k (some (.refused refusal)))
    | some _ => none
  | .save k dto =>
    match s.updates k with
    | some (.loaded template) =>
      match checkVariables template.variableNames dto with
      | .error refusal => some (s.setUpdate k (some (.refused refusal)))
      | .ok () =>
        -- a row is never deleted, so the save finds it again
        (s.rows.find template.key).map fun reread =>
          s.setUpdate k (some (.saving template (template.assign dto) reread))
    | _ => none
  | .write k =>
    match s.updates k with
    | some (.saving before entity reread) =>
      let rows := s.rows.updateWhere (fun row => row.key = entity.key)
        (savedTemplate entity reread) fun _ => rfl
      some (State.setUpdate ⟨rows, s.updates⟩ k (some (.done before entity)))
    | _ => none
  | .fail k => some (s.setUpdate k none)

/-! ### The lists are kept -/

/-- What a text may hold. -/
def Allows (variableNames : List String) (text : String) : Prop :=
  ∀ name ∈ extractVariables text, name ∈ variableNames

/-- The texts name only what is on the list, and no name on the list is one that every object
inherits. -/
structure MailTemplate.Lawful (template : MailTemplate) : Prop where
  subjectAr : Allows template.variableNames template.subjectAr
  subjectEn : ∀ text, template.subjectEn = some text → Allows template.variableNames text
  bodyAr : Allows template.variableNames template.bodyAr
  bodyEn : ∀ text, template.bodyEn = some text → Allows template.variableNames text
  own : ∀ name ∈ template.variableNames, name ∉ objectPrototype

/-- A lawful template with the list that its key had at the start. -/
structure Kept (rows₀ : MailTemplates) (template : MailTemplate) : Prop where
  lawful : template.Lawful
  listed : (rows₀.find template.key).map MailTemplate.variableNames = some template.variableNames

def Update.Kept (rows₀ : MailTemplates) : Update → Prop
  | .loaded template => Templates.Kept rows₀ template
  | .saving _ entity reread =>
    Templates.Kept rows₀ entity ∧ Templates.Kept rows₀ reread ∧ reread.key = entity.key
  | .refused _ | .done _ _ => True

structure State.Inv (rows₀ : MailTemplates) (s : State) : Prop where
  rows : ∀ template ∈ s.rows.rows, Kept rows₀ template
  updates : ∀ k u, s.updates k = some u → u.Kept rows₀

section Inv

variable {rows₀ rows : MailTemplates} {template entity reread row : MailTemplate}
  {dto : UpdateMailTemplateDto} {s s' : State}

lemma allows_empty (variableNames : List String) : Allows variableNames "" := by
  intro name hname
  cases hname

lemma allows_of_filled {variableNames : List String} {text : Option String}
    (h : ∀ x, filled text = some x → Allows variableNames x) {x : String} (hx : text = some x) :
    Allows variableNames x := by
  subst hx
  by_cases hempty : x = ""
  · rw [hempty]
    exact allows_empty _
  · exact h x (by simp [filled, Option.filter, hempty])

/-- A check that passes passes for each text. -/
lemma allows_of_checkVariables {variableNames : List String}
    (h : checkVariables variableNames dto = .ok ()) {text : String} (htext : text ∈ dto.texts) :
    Allows variableNames text := by
  simp only [checkVariables] at h
  split at h
  · cases h
  · next hnone =>
    intro name hname
    rw [List.find?_eq_none] at hnone
    simpa using hnone name (List.mem_flatMap.mpr ⟨text, htext, hname⟩)

lemma MailTemplate.Lawful.assign (h : template.Lawful)
    (hcheck : checkVariables template.variableNames dto = .ok ()) :
    (template.assign dto).Lawful := by
  have htexts : ∀ text ∈ [dto.subjectAr, dto.subjectEn.join, dto.bodyAr, dto.bodyEn.join],
      ∀ x, text = some x → Allows template.variableNames x := by
    intro text htext x hx
    refine allows_of_filled (fun y hy => ?_) hx
    exact allows_of_checkVariables hcheck (List.mem_filterMap.mpr ⟨text, htext, hy⟩)
  refine ⟨?_, ?_, ?_, ?_, h.own⟩
  · cases hdto : dto.subjectAr with
    | none => simpa [MailTemplate.assign, hdto] using h.subjectAr
    | some text => simpa [MailTemplate.assign, hdto] using htexts dto.subjectAr (by simp) text hdto
  · cases hdto : dto.subjectEn with
    | none => simpa [MailTemplate.assign, hdto] using h.subjectEn
    | some given =>
      intro text htext
      refine htexts dto.subjectEn.join (by simp) text ?_
      simpa [MailTemplate.assign, hdto] using htext
  · cases hdto : dto.bodyAr with
    | none => simpa [MailTemplate.assign, hdto] using h.bodyAr
    | some text => simpa [MailTemplate.assign, hdto] using htexts dto.bodyAr (by simp) text hdto
  · cases hdto : dto.bodyEn with
    | none => simpa [MailTemplate.assign, hdto] using h.bodyEn
    | some given =>
      intro text htext
      refine htexts dto.bodyEn.join (by simp) text ?_
      simpa [MailTemplate.assign, hdto] using htext

/-- A row whose columns come from two templates with one list is lawful. -/
lemma Kept.saved (he : Kept rows₀ entity) (hr : Kept rows₀ row) (hkey : row.key = entity.key) :
    Kept rows₀ (savedTemplate entity reread row) := by
  have hlist : entity.variableNames = row.variableNames := by
    have hlisted := he.listed
    rw [← hkey, hr.listed] at hlisted
    exact (Option.some.inj hlisted).symm
  have hsaved : (savedTemplate entity reread row).variableNames = row.variableNames :=
    saved_of (P := (· = row.variableNames)) hlist rfl
  refine ⟨⟨?_, ?_, ?_, ?_, ?_⟩, ?_⟩
  · rw [hsaved]
    exact saved_of (P := Allows row.variableNames) (hlist ▸ he.lawful.subjectAr) hr.lawful.subjectAr
  · rw [hsaved]
    exact saved_of (P := fun text => ∀ x, text = some x → Allows row.variableNames x)
      (hlist ▸ he.lawful.subjectEn) hr.lawful.subjectEn
  · rw [hsaved]
    exact saved_of (P := Allows row.variableNames) (hlist ▸ he.lawful.bodyAr) hr.lawful.bodyAr
  · rw [hsaved]
    exact saved_of (P := fun text => ∀ x, text = some x → Allows row.variableNames x)
      (hlist ▸ he.lawful.bodyEn) hr.lawful.bodyEn
  · rw [hsaved]
    exact hr.lawful.own
  · rw [hsaved]
    exact hr.listed

lemma State.Inv.setUpdate (h : s.Inv rows₀) {k : ℕ} {u : Option Update}
    (hu : ∀ x, u = some x → x.Kept rows₀) : (s.setUpdate k u).Inv rows₀ := by
  refine ⟨h.rows, fun j x hx => ?_⟩
  by_cases hjk : j = k
  · subst hjk
    exact hu x (by simpa [State.setUpdate] using hx)
  · exact h.updates j x (by simpa [State.setUpdate, hjk] using hx)

lemma inv_step {a : Action} (h : s.Inv rows₀) (hs : step s a = some s') : s'.Inv rows₀ := by
  cases a with
  | getByKey k key =>
    simp only [step, getByKey] at hs
    split at hs
    · cases hfind : s.rows.find key with
      | none =>
        rw [hfind] at hs
        cases hs
        refine h.setUpdate fun x hx => ?_
        cases hx
        trivial
      | some template =>
        rw [hfind] at hs
        cases hs
        refine h.setUpdate fun x hx => ?_
        cases hx
        exact h.rows template (Table.find_eq_some.mp hfind).1
    · cases hs
  | save k dto =>
    simp only [step] at hs
    split at hs
    · next template hk =>
      have hkept : Kept rows₀ template := h.updates k _ hk
      cases hcheck : checkVariables template.variableNames dto with
      | error refusal =>
        rw [hcheck] at hs
        cases hs
        refine h.setUpdate fun x hx => ?_
        cases hx
        trivial
      | ok _ =>
        rw [hcheck] at hs
        obtain ⟨reread, hfind, rfl⟩ := Option.map_eq_some_iff.mp hs
        refine h.setUpdate fun x hx => ?_
        cases hx
        exact ⟨⟨hkept.lawful.assign hcheck, hkept.listed⟩,
          h.rows reread (Table.find_eq_some.mp hfind).1, Table.key_of_find hfind⟩
    · cases hs
  | write k =>
    simp only [step] at hs
    split at hs
    · next before entity reread hk =>
      obtain ⟨hentity, -, -⟩ := h.updates k _ hk
      cases hs
      have hrows : ∀ row ∈ (s.rows.updateWhere (fun row => row.key = entity.key)
          (savedTemplate entity reread) fun _ => rfl).rows, Kept rows₀ row := by
        intro row hrow
        obtain ⟨old, hold, rfl⟩ := Table.mem_updateWhere.mp hrow
        split_ifs with hkey
        · exact hentity.saved (h.rows old hold) (by simpa using hkey)
        · exact h.rows old hold
      refine State.Inv.setUpdate (s := ⟨_, s.updates⟩) ⟨hrows, h.updates⟩ fun x hx => ?_
      cases hx
      trivial
    · cases hs
  | fail k =>
    cases hs
    exact h.setUpdate fun x hx => by cases hx

lemma inv_reach (hlawful : ∀ template ∈ rows₀.rows, template.Lawful)
    (h : Reach step always (State.init rows₀) s) : s.Inv rows₀ := by
  refine h.invariant (P := State.Inv rows₀) ⟨fun template ht => ?_, fun k u hu => ?_⟩
    fun _ _ _ hi _ hs => inv_step hi hs
  · exact ⟨hlawful template ht, congrArg _ (Table.mem_iff_find.mp ht)⟩
  · cases hu

end Inv

/-! ### What a call sends -/

section Sends

variable {env : RenderEnv} {rows₀ : MailTemplates} {template : MailTemplate} {s : State}
  {vars : Vars} {locale : MailLocale}

lemma filled_eq_some {text : Option String} {x : String} (h : filled text = some x) :
    text = some x := by
  cases text with
  | none => cases h
  | some y =>
    simp only [filled, Option.filter] at h
    split_ifs at h
    exact h

lemma inEnglish_eq_some {text : Option String} {x : String} (h : inEnglish locale text = some x) :
    text = some x := by
  simp only [inEnglish] at h
  split_ifs at h
  exact filled_eq_some h

lemma MailTemplate.Lawful.subjectSource (h : template.Lawful) :
    Allows template.variableNames (template.subjectSource locale) := by
  simp only [MailTemplate.subjectSource]
  cases hen : inEnglish locale template.subjectEn with
  | none => exact h.subjectAr
  | some text => exact h.subjectEn text (inEnglish_eq_some hen)

lemma MailTemplate.Lawful.bodySource (h : template.Lawful) :
    Allows template.variableNames (template.bodySource locale) := by
  simp only [MailTemplate.bodySource]
  cases hen : inEnglish locale template.bodyEn with
  | none => exact h.bodyAr
  | some text => exact h.bodyEn text (inEnglish_eq_some hen)

/-- The mail of a template with values for all its names. -/
def filledIn (env : RenderEnv) (template : MailTemplate) (vars : Vars) (locale : MailLocale) :
    RenderedMail where
  subject := String.ofList
    (replaceVars (fun name => (valueOf vars name).toList) (template.subjectSource locale).toList)
  html := wrapHtml (template.bodyLang locale) (env.render (String.ofList (replaceVars
    (fun name => escapeValue name (valueOf vars name).toList) (template.bodySource locale).toList)))
  text := String.ofList
    (replaceVars (fun name => (valueOf vars name).toList) (template.bodySource locale).toList)

/-- Where no name of the list is inherited, the mail is made. -/
lemma renderFrom_eq (h : template.Lawful)
    (hvars : ∀ name ∈ template.variableNames, isInherited vars name = false) :
    renderFrom env template vars locale = some (filledIn env template vars locale) := by
  have hsubject : ∀ name ∈ extractVariables (template.subjectSource locale),
      isInherited vars name = false := fun name hname => hvars name (h.subjectSource name hname)
  have hbody : ∀ name ∈ extractVariables (template.bodySource locale),
      isInherited vars name = false := fun name hname => hvars name (h.bodySource name hname)
  rw [renderFrom, substituteMarkdown_eq_some hbody, substitutePlain_eq _ hsubject,
    substitutePlain_eq _ hbody]
  rfl

lemma isInherited_of_own (h : template.Lawful) {name : String}
    (hname : name ∈ template.variableNames) (vars : Vars) : isInherited vars name = false :=
  (isInherited_eq_false_iff vars name).mpr (Or.inr (h.own name hname))

lemma mem_keys_iff {name : String} :
    name ∈ vars.map Prod.fst ↔ ∃ value, vars.lookup name = some value := by
  rw [← Option.isSome_iff_exists, List.lookup_isSome_iff, List.mem_map]
  simp only [beq_iff_eq]
  exact exists_congr fun x => and_congr_right fun _ => eq_comm

/-- Every call passes a value for each name that the template of its key lists. -/
def CallsMatch (rows : MailTemplates) : Prop :=
  ∀ (call : SendMailCall) template, rows.find call.key = some template →
    ∀ name ∈ template.variableNames, name ∈ call.vars.map Prod.fst

/-- Whatever was edited, and however the edits overlapped: each call of `send` gets its mail, unless
the template is missing or disabled, and the mail is the template that is stored with the values of
the call, one for every placeholder of its texts. -/
theorem mails_filled_in (hlawful : ∀ template ∈ rows₀.rows, template.Lawful)
    (hcalls : CallsMatch rows₀) (h : Reach step always (State.init rows₀) s)
    (call : SendMailCall) :
    ∃ rendered, render env s.rows call.key call.vars call.locale = some rendered ∧
      ∀ mail, rendered = some mail → ∃ template, s.rows.find call.key = some template ∧
        mail = filledIn env template call.vars call.locale ∧
        ∀ name ∈ extractVariables (template.subjectSource call.locale) ++
            extractVariables (template.bodySource call.locale),
          ∃ value, call.vars.lookup name = some value := by
  have hinv : s.Inv rows₀ := inv_reach hlawful h
  simp only [render]
  cases hfind : s.rows.find call.key with
  | none => exact ⟨none, rfl, fun mail hmail => by cases hmail⟩
  | some template =>
    have hkept : Kept rows₀ template := hinv.rows template (Table.find_eq_some.mp hfind).1
    simp only
    split_ifs
    · rw [renderFrom_eq hkept.lawful fun name hname =>
        isInherited_of_own hkept.lawful hname call.vars]
      refine ⟨_, rfl, fun mail hmail => ⟨template, rfl, (Option.some.inj hmail).symm, ?_⟩⟩
      -- the list of the stored template is the one the calls were written for
      have hlisted : ∀ name ∈ template.variableNames, name ∈ call.vars.map Prod.fst := by
        obtain ⟨template₀, hfind₀, hsame⟩ := Option.map_eq_some_iff.mp hkept.listed
        rw [Table.key_of_find hfind] at hfind₀
        exact hsame ▸ hcalls call template₀ hfind₀
      intro name hname
      apply mem_keys_iff.mp
      apply hlisted
      rcases List.mem_append.mp hname with hname | hname
      · exact hkept.lawful.subjectSource name hname
      · exact hkept.lawful.bodySource name hname
    · exact ⟨none, rfl, fun mail hmail => by cases hmail⟩

/-! ### What a preview shows -/

lemma lookup_sampleVars {variableNames : List String} {vars : Option Vars} {name : String}
    (hname : name ∈ variableNames) (hown : vars.any (isInherited · name) = false) :
    (sampleVars variableNames vars).lookup name
      = some ((vars.bind (List.lookup name)).getD ("[" ++ name ++ "]")) := by
  induction variableNames with
  | nil => cases hname
  | cons first rest ih =>
    by_cases hfirst : name = first
    · subst hfirst
      simp [sampleVars, hown]
    · have hrest := ih ((List.mem_cons.mp hname).resolve_left hfirst)
      simp only [sampleVars, List.filterMap_cons] at hrest ⊢
      split
      · exact hrest
      · next pair hpair =>
        split_ifs at hpair
        cases hpair
        rw [List.lookup_cons, beq_eq_false_iff_ne.mpr hfirst]
        exact hrest

lemma replaceVars_congr {f g : String → List Char} {text : String}
    (h : ∀ name ∈ extractVariables text, f name = g name) :
    replaceVars f text.toList = replaceVars g text.toList := by
  apply List.flatMap_congr
  intro piece hpiece
  cases piece with
  | text c => rfl
  | var name => exact h name (List.mem_filterMap.mpr ⟨_, hpiece, rfl⟩)

/-- A mail depends on the values of the listed names only. -/
lemma filledIn_congr (h : template.Lawful) {vars' : Vars}
    (hvars : ∀ name ∈ template.variableNames, valueOf vars name = valueOf vars' name) :
    filledIn env template vars locale = filledIn env template vars' locale := by
  simp only [filledIn]
  rw [replaceVars_congr fun name hname => congrArg String.toList
      (hvars name (h.subjectSource name hname)),
    replaceVars_congr fun name hname => congrArg (fun value => escapeValue name value.toList)
      (hvars name (h.bodySource name hname)),
    replaceVars_congr fun name hname => congrArg String.toList
      (hvars name (h.bodySource name hname))]

/-- Whatever was edited: a preview of a template that is there always answers, with a mail in which
each placeholder has the value that was given for it or a sample; and when a value was given for
each listed name, it is the mail that a send with these values makes. -/
theorem preview_is_mail (hlawful : ∀ template ∈ rows₀.rows, template.Lawful)
    (h : Reach step always (State.init rows₀) s) {key : String}
    (hfind : s.rows.find key = some template) (vars : Option Vars) (locale : MailLocale) :
    (∃ mail, preview env s.rows key vars locale = .ok (some mail) ∧
      mail = filledIn env template (template.variableNames.map fun name =>
        (name, (vars.bind (List.lookup name)).getD ("[" ++ name ++ "]"))) locale) ∧
    ∀ given, vars = some given → template.isEnabled →
      (∀ name ∈ template.variableNames, name ∈ given.map Prod.fst) →
      ∃ mail, preview env s.rows key vars locale = .ok (some mail) ∧
        render env s.rows key given locale = some (some mail) := by
  have hlaw : template.Lawful :=
    ((inv_reach hlawful h).rows template (Table.find_eq_some.mp hfind).1).lawful
  have hown : ∀ name ∈ template.variableNames, vars.any (isInherited · name) = false := by
    intro name hname
    cases vars with
    | none => rfl
    | some given => exact isInherited_of_own hlaw hname given
  have hsample : sampleVars template.variableNames vars = template.variableNames.map fun name =>
      (name, (vars.bind (List.lookup name)).getD ("[" ++ name ++ "]")) := by
    rw [sampleVars, ← List.filterMap_eq_map]
    exact List.filterMap_congr fun name hname => by simp [hown name hname]
  have hpreview : preview env s.rows key vars locale
      = .ok (some (filledIn env template (sampleVars template.variableNames vars) locale)) := by
    simp only [preview, getByKey, hfind]
    exact congrArg Except.ok
      (renderFrom_eq hlaw fun name hname => isInherited_of_own hlaw hname _)
  refine ⟨⟨_, hpreview, by rw [hsample]⟩, ?_⟩
  rintro given rfl henabled hgiven
  refine ⟨_, hpreview, ?_⟩
  have hsame : ∀ name ∈ template.variableNames,
      valueOf given name = valueOf (sampleVars template.variableNames (some given)) name := by
    intro name hname
    obtain ⟨value, hvalue⟩ := mem_keys_iff.mp (hgiven name hname)
    rw [valueOf, valueOf, lookup_sampleVars hname (hown name hname)]
    simp [hvalue]
  simp only [render, hfind, if_pos henabled]
  rw [renderFrom_eq hlaw fun name hname => isInherited_of_own hlaw hname given,
    filledIn_congr hlaw hsame]
  rfl

end Sends

/-! ### Two edits of a seeded template -/

def messageReplyTemplate : MailTemplate where
  key := "message_reply"
  nameAr := "رد على رسالة تواصل"
  nameEn := some "Reply to your message"
  subjectAr := "رد جمعية سفير على رسالتك"
  subjectEn := some "Safeer Association replied to your message"
  bodyAr := "مرحبًا \x7b\x7bname\x7d\x7d،\n\n\x7b\x7bmessage\x7d\x7d\n\n—\nفريق جمعية سفير الدعوية"
  bodyEn := some ("Hello \x7b\x7bname\x7d\x7d,\n\n\x7b\x7bmessage\x7d\x7d\n\n—\n" ++
    "The Safeer Da'wah Association Team")
  variableNames := ["name", "message"]
  isEnabled := true

/-- The row of `002_seed.sql` for replies, without those of the other calls. -/
def seeded : MailTemplates := ⟨[messageReplyTemplate], by decide⟩

lemma seeded_lawful : ∀ template ∈ seeded.rows, template.Lawful := by
  intro template ht
  obtain rfl := List.mem_singleton.mp ht
  have hallows : ∀ text ∈ [messageReplyTemplate.subjectAr, messageReplyTemplate.bodyAr] ++
      messageReplyTemplate.subjectEn.toList ++ messageReplyTemplate.bodyEn.toList,
      ∀ name ∈ extractVariables text, name ∈ messageReplyTemplate.variableNames := by decide
  refine ⟨hallows _ (by simp), fun text htext => ?_, hallows _ (by simp), fun text htext => ?_,
    by decide⟩
  · exact hallows text (by simp [htext])
  · exact hallows text (by simp [htext])

lemma seeded_callsMatch : CallsMatch seeded := by
  intro call template hfind name hname
  have hnames : ∀ x, seeded.find call.key = some x →
      x.variableNames = call.vars.map Prod.fst := by
    intro x hx
    cases call <;> cases hx
    rfl
  rwa [← hnames template hfind]

/-- Two updates that loaded one row, and a third that names what no call passes. -/
def overlappingEdits : List Action :=
  [.getByKey 1 "message_reply", .getByKey 2 "message_reply",
    .save 1 { bodyEn := some (some "\x7b\x7b message \x7d\x7d") },
    .save 2 { subjectEn := some (some "To \x7b\x7bname\x7d\x7d") }, .write 2, .write 1,
    .getByKey 3 "message_reply", .save 3 { bodyAr := some "\x7b\x7bconstructor\x7d\x7d" }]

def plainRender : RenderEnv := ⟨fun markdown => markdown, fun name => name⟩

/-- A reply that holds a placeholder. -/
def hostileReply : SendMailCall := .messageReply "N" "\x7b\x7blink\x7d\x7d" .en

theorem mails_filled_in_overlapping : ∃ (s : State) (template : MailTemplate),
    s.rows.find "message_reply" = some template ∧
    render plainRender s.rows "message_reply" hostileReply.vars .en
      = some (some (filledIn plainRender template hostileReply.vars .en)) ∧
    (filledIn plainRender template hostileReply.vars .en).subject = "To N" := by
  obtain ⟨s, hrun, hsubject⟩ := exists_of_run step (State.init seeded) overlappingEdits
    (P := fun s => (render plainRender s.rows "message_reply" hostileReply.vars .en).map
      (Option.map RenderedMail.subject) = some (some "To N")) (by decide)
  obtain ⟨rendered, hrendered, hmail⟩ := @mails_filled_in plainRender _ _ seeded_lawful
    seeded_callsMatch (Reach.of_run hrun) hostileReply
  have hkey : render plainRender s.rows "message_reply" hostileReply.vars .en = some rendered :=
    hrendered
  rw [hkey, Option.map_some, Option.some.injEq] at hsubject
  obtain ⟨mail, rfl, hto⟩ := Option.map_eq_some_iff.mp hsubject
  obtain ⟨template, hfind, rfl, -⟩ := hmail mail rfl
  exact ⟨s, template, hfind, hkey, hto⟩

theorem preview_is_mail_overlapping : ∃ (s : State) (mail : RenderedMail),
    s.updates 3 = some (.refused (.unknownVariable "constructor")) ∧
    preview plainRender s.rows "message_reply" (some hostileReply.vars) .en = .ok (some mail) ∧
    render plainRender s.rows "message_reply" hostileReply.vars .en = some (some mail) := by
  obtain ⟨s, hrun, hupdate, hstate⟩ := exists_of_run step (State.init seeded) overlappingEdits
    (P := fun s => (s.updates 3).bind Update.refusal = some (.unknownVariable "constructor") ∧
      (s.rows.find "message_reply").map (fun t => (t.variableNames, t.isEnabled))
        = some (["name", "message"], true)) (by decide)
  obtain ⟨template, hfind, htemplate⟩ := Option.map_eq_some_iff.mp hstate
  obtain ⟨hnames, henabled⟩ := Prod.mk.inj htemplate
  obtain ⟨mail, hpreview, hrender⟩ := (@preview_is_mail plainRender _ _ _ seeded_lawful
    (Reach.of_run hrun) _ hfind (some hostileReply.vars) .en).2 hostileReply.vars rfl henabled
    (by rw [hnames]; decide)
  obtain ⟨update, hthird, hrefusal⟩ := Option.bind_eq_some_iff.mp hupdate
  rw [Update.refusal_eq_some] at hrefusal
  exact ⟨s, mail, hrefusal ▸ hthird, hpreview, hrender⟩

end SafeerApi.Mail.Templates
