import SafeerApi.Lib.DirtyWrite
import SafeerApi.Lib.PercentEncoding
import SafeerApi.Lib.Reach
import SafeerApi.Mail.Service

/-!
# The mail password and the transporter (`mail-settings.service.ts`, `mail-transport.service.ts`)

The settings are one row. Its password is stored encrypted, is not among the columns an update
loads, and is written only when one is sent. The transporter is built from the row and kept for as
long as the row's `updated_at` is the one it was built for.
-/

namespace SafeerApi.Mail.Transport

open Lib

/-! ### Secrets (`mail-crypto.ts`) -/

abbrev Bytes := List UInt8

/-- AES-256-GCM: under a key and an iv a plaintext has a ciphertext and a tag, with which it is read
back. -/
structure Aead where
  encipher : Bytes → Bytes → Bytes → Bytes × Bytes
  decipher : Bytes → Bytes → Bytes → Bytes → Option Bytes
  length_tag : ∀ key iv plaintext, (encipher key iv plaintext).2.length = 16
  decipher_encipher : ∀ key iv plaintext, decipher key iv (encipher key iv plaintext).1
    (encipher key iv plaintext).2 = some plaintext

def ivLength : ℕ := 12
def authTagLength : ℕ := 16

/-- What `randomBytes(IV_LENGTH)` draws. -/
abbrev Iv := { iv : Bytes // iv.length = ivLength }

/-- The cipher and `APP_ENCRYPTION_KEY`. -/
structure CryptoEnv where
  aead : Aead
  key : Bytes

def encryptSecret (env : CryptoEnv) (iv : Iv) (plaintext : String) : Bytes :=
  let (ciphertext, authTag) :=
    env.aead.encipher env.key iv.val (plaintext.toList.flatMap String.utf8EncodeChar)
  iv.val ++ authTag ++ ciphertext

/-- It fails where the tag does not fit. -/
def decryptSecret (env : CryptoEnv) (stored : Bytes) : Option String :=
  let iv := stored.take ivLength
  let authTag := (stored.drop ivLength).take authTagLength
  let ciphertext := stored.drop (ivLength + authTagLength)
  (env.aead.decipher env.key iv ciphertext authTag).bind fun plaintext =>
    (Percent.decodeUtf8 plaintext).map String.ofList

section Secrets

variable (env : CryptoEnv) (iv : Iv) (plaintext : String)

@[simp] lemma decryptSecret_encryptSecret :
    decryptSecret env (encryptSecret env iv plaintext) = some plaintext := by
  obtain ⟨iv, hiv⟩ := iv
  have htag := env.aead.length_tag env.key iv (plaintext.toList.flatMap String.utf8EncodeChar)
  have hrest : ∀ rest : Bytes, (iv ++ rest).drop ivLength = rest := fun rest => by
    rw [← hiv, List.drop_left]
  have hciphertext : ∀ tag rest : Bytes, tag.length = 16 →
      (iv ++ (tag ++ rest)).drop (ivLength + authTagLength) = rest := by
    intro tag rest hlength
    rw [← List.drop_drop, hrest, authTagLength, ← hlength, List.drop_left]
  simp only [decryptSecret, encryptSecret, List.append_assoc]
  rw [hrest, hciphertext _ _ htag, ← hiv, List.take_left, authTagLength, ← htag, List.take_left,
    env.aead.decipher_encipher, Option.bind_some, Percent.decodeUtf8_encode, Option.map_some,
    String.ofList_toList]

end Secrets

/-! ### The row -/

inductive MailDriver where
  | smtp
  | log
  deriving DecidableEq, Repr

inductive MailEncryption where
  | none
  | tls
  | starttls
  deriving DecidableEq, Repr

/-- The columns that are loaded; `password_encrypted` is not. -/
structure MailSettings where
  isEnabled : Bool
  driver : MailDriver
  host : Option String
  port : Option ℕ
  encryption : MailEncryption
  username : Option String
  fromNameAr : Option String
  fromNameEn : Option String
  fromEmail : Option String
  replyTo : Option String
  notifyEmail : Option String
  lastTestAt : Option ℕ
  lastTestOk : Option Bool
  lastTestError : Option String
  updatedBy : Option ℕ
  updatedAt : ℕ
  deriving DecidableEq, Repr

structure Row where
  settings : MailSettings
  passwordEncrypted : Option Bytes
  deriving DecidableEq

/-- `varbinary(512)` -/
def passwordColumnLength : ℕ := 512

/-- The fields a body of `PUT` has. -/
structure UpdateMailSettingsDto where
  isEnabled : Option Bool := none
  driver : Option MailDriver := none
  host : Option (Option String) := none
  port : Option (Option ℕ) := none
  encryption : Option MailEncryption := none
  username : Option (Option String) := none
  password : Option String := none
  fromNameAr : Option (Option String) := none
  fromNameEn : Option (Option String) := none
  fromEmail : Option (Option String) := none
  replyTo : Option (Option String) := none
  notifyEmail : Option (Option String) := none

/-- `Object.assign(settings, rest)`, and who did it. -/
def MailSettings.assign (s : MailSettings) (dto : UpdateMailSettingsDto) (userId : ℕ) :
    MailSettings :=
  { s with
    isEnabled := dto.isEnabled.getD s.isEnabled
    driver := dto.driver.getD s.driver
    host := dto.host.getD s.host
    port := dto.port.getD s.port
    encryption := dto.encryption.getD s.encryption
    username := dto.username.getD s.username
    fromNameAr := dto.fromNameAr.getD s.fromNameAr
    fromNameEn := dto.fromNameEn.getD s.fromNameEn
    fromEmail := dto.fromEmail.getD s.fromEmail
    replyTo := dto.replyTo.getD s.replyTo
    notifyEmail := dto.notifyEmail.getD s.notifyEmail
    updatedBy := some userId }

/-- The columns after the `UPDATE` of a save, which leaves `updatedAt` in `updated_at`. -/
def savedSettings (entity reread row : MailSettings) (updatedAt : ℕ) : MailSettings where
  isEnabled := saved entity.isEnabled reread.isEnabled row.isEnabled
  driver := saved entity.driver reread.driver row.driver
  host := saved entity.host reread.host row.host
  port := saved entity.port reread.port row.port
  encryption := saved entity.encryption reread.encryption row.encryption
  username := saved entity.username reread.username row.username
  fromNameAr := saved entity.fromNameAr reread.fromNameAr row.fromNameAr
  fromNameEn := saved entity.fromNameEn reread.fromNameEn row.fromNameEn
  fromEmail := saved entity.fromEmail reread.fromEmail row.fromEmail
  replyTo := saved entity.replyTo reread.replyTo row.replyTo
  notifyEmail := saved entity.notifyEmail reread.notifyEmail row.notifyEmail
  lastTestAt := saved entity.lastTestAt reread.lastTestAt row.lastTestAt
  lastTestOk := saved entity.lastTestOk reread.lastTestOk row.lastTestOk
  lastTestError := saved entity.lastTestError reread.lastTestError row.lastTestError
  updatedBy := saved entity.updatedBy reread.updatedBy row.updatedBy
  updatedAt := updatedAt

/-- `recordTestResult` -/
def Row.recordTestResult (row : Row) (ok : Bool) (error : Option String) (now updatedAt : ℕ) :
    Row :=
  { row with settings := { row.settings with
    lastTestAt := some now
    lastTestOk := some ok
    -- `error ? error.slice(0, 500) : null`
    lastTestError := (error.filter (· ≠ "")).map fun e => String.ofList (takeUnits 500 e.toList)
    updatedAt := updatedAt } }

/-! ### The transporter -/

/-- A value that is there and not empty. -/
def filled (s : Option String) : Option String := s.filter (· ≠ "")

/-- What `createTransport` is given. -/
structure Transporter where
  host : String
  port : ℕ
  secure : Bool
  requireTLS : Bool
  auth : Option (String × Option String)
  deriving DecidableEq, Repr

/-- The transporter of the settings with a password in the clear. -/
def transporterOf (s : MailSettings) (password : Option String) : Option Transporter :=
  match s.driver, filled s.host, s.port.filter (· ≠ 0) with
  | .smtp, some host, some port => some {
      host := host
      port := port
      secure := s.encryption = .tls
      requireTLS := s.encryption = .starttls
      auth := (filled s.username).map fun user => (user, password) }
  | _, _, _ => none

/-- `none` where the stored password cannot be decrypted. -/
def build (env : CryptoEnv) (row : Row) : Option (Option Transporter) :=
  if row.settings.driver ≠ .smtp ∨ filled row.settings.host = none ∨
      row.settings.port.filter (· ≠ 0) = none then
    some none
  else
    match row.passwordEncrypted with
    | some stored =>
      (decryptSecret env stored).map fun password => transporterOf row.settings (some password)
    | none => some (transporterOf row.settings none)

/-- The fields of `MailTransportService`. -/
structure MailTransport where
  transporter : Option Transporter
  builtForUpdatedAt : Option ℕ
  deriving DecidableEq

def MailTransport.invalidate : MailTransport := ⟨none, none⟩

/-- `getTransporter` once its query has answered. -/
def getTransporter (env : CryptoEnv) (m : MailTransport) (row : Row) :
    Option (Option Transporter × MailTransport) :=
  let cacheKey := some row.settings.updatedAt
  if m.transporter = none ∨ m.builtForUpdatedAt ≠ cacheKey then
    (build env row).map fun transporter => (transporter, ⟨transporter, cacheKey⟩)
  else some (m.transporter, m)

/-- `replace(/[\r\n]+/g, ' ')`; `inRun` says that the character before was replaced. -/
def joinLines (inRun : Bool) : List Char → List Char
  | [] => []
  | c :: rest =>
    if c = '\r' ∨ c = '\n' then
      if inRun then joinLines true rest else ' ' :: joinLines true rest
    else c :: joinLines false rest

/-- The display name of a mail. -/
def displayName (s : MailSettings) (locale : MailLocale) : List Char :=
  let rawName := (((if locale = .en then filled s.fromNameEn else none).or
    (filled s.fromNameAr)).or (filled s.fromEmail)).getD ""
  (joinLines false rawName.toList).map fun c => if c = '"' then '\'' else c

def fromHeader (s : MailSettings) (locale : MailLocale) : List Char :=
  match filled s.fromEmail with
  | some email => '"' :: displayName s locale ++ '"' :: ' ' :: '<' :: email.toList ++ ['>']
  | none => []

lemma joinLines_no_break {inRun : Bool} {text : List Char} {c : Char}
    (h : c ∈ joinLines inRun text) : c ≠ '\r' ∧ c ≠ '\n' := by
  induction text generalizing inRun with
  | nil => cases h
  | cons d text ih =>
    simp only [joinLines] at h
    split_ifs at h with hbreak hrun
    · exact ih h
    · rcases List.mem_cons.mp h with rfl | h
      · decide
      · exact ih h
    · rcases List.mem_cons.mp h with rfl | h
      · exact not_or.mp hbreak
      · exact ih h

/-- Whatever the names hold, the header is one line, and the display name ends at its second
quote. -/
lemma displayName_quotable {s : MailSettings} {locale : MailLocale} {c : Char}
    (h : c ∈ displayName s locale) : c ≠ '\r' ∧ c ≠ '\n' ∧ c ≠ '"' := by
  obtain ⟨d, hd, rfl⟩ := List.mem_map.mp h
  obtain ⟨hcr, hlf⟩ := joinLines_no_break hd
  split_ifs with hquote
  · decide
  · exact ⟨hcr, hlf, hquote⟩

/-! ### Updates, tests and sends -/

/-- Where an update is: what it loaded, whether a password was set, what its save re-read, and what
it reports. A password it sets is kept beside its encryption. -/
inductive Update where
  | loaded (settings : MailSettings)
  | checked (settings : MailSettings) (passwordWasSet : Bool)
  | saving (entity reread : MailSettings) (password : Option (String × Bytes))
    (passwordWasSet : Bool)
  | saved (passwordIsSet : Bool)

/-- The row with the password that was last committed. -/
abbrev Version := Row × Option String

/-- The system: the row, the transport, the updates, the `getTransporter`s whose query has answered,
and every version the row has had. -/
structure State where
  row : Row
  password : Option String
  transport : MailTransport
  updates : ℕ → Option Update
  sends : ℕ → Option Version
  versions : List Version

def State.init (v : Version) : State := ⟨v.1, v.2, .invalidate, fun _ => none, fun _ => none, [v]⟩

abbrev State.version (s : State) : Version := (s.row, s.password)

def State.setUpdate (s : State) (k : ℕ) (u : Option Update) : State :=
  { s with updates := Function.update s.updates k u }

/-- A committed `UPDATE`. -/
def State.store (s : State) (v : Version) : State :=
  { s with row := v.1, password := v.2, versions := v :: s.versions }

/-- `updatedAt` is what an `UPDATE` leaves in `updated_at`: the clock, or, from the save of an
entity that was loaded before another write, the value it loaded. -/
inductive Action where
  | findSingleton (k : ℕ)
  | hasPassword (k : ℕ)
  | save (k : ℕ) (dto : UpdateMailSettingsDto) (userId : ℕ) (iv : Iv)
  | write (k updatedAt : ℕ)
  | invalidate (k : ℕ)
  | fail (k : ℕ)
  | querySettings (k : ℕ)
  | getTransporter (k : ℕ)
  | recordTestResult (ok : Bool) (error : Option String) (now updatedAt : ℕ)

/-- The password an update sends, and its encryption: `if (password)`. -/
def passwordOf (env : CryptoEnv) (iv : Iv) (dto : UpdateMailSettingsDto) :
    Option (String × Bytes) :=
  (filled dto.password).map fun password => (password, encryptSecret env iv password)

/-- The row after the `UPDATE` of a save. -/
def writtenRow (entity reread : MailSettings) (password : Option (String × Bytes))
    (updatedAt : ℕ) (row : Row) : Row where
  settings := savedSettings entity reread row.settings updatedAt
  passwordEncrypted := (password.map Prod.snd).or row.passwordEncrypted

/-- The next step of a party. -/
def step (env : CryptoEnv) (s : State) : Action → Option State
  | .findSingleton k =>
    match s.updates k with
    | none => some (s.setUpdate k (some (.loaded s.row.settings)))
    | some _ => none
  | .hasPassword k =>
    match s.updates k with
    | some (.loaded settings) =>
      some (s.setUpdate k (some (.checked settings s.row.passwordEncrypted.isSome)))
    | _ => none
  | .save k dto userId iv =>
    match s.updates k with
    | some (.checked settings passwordWasSet) =>
      some (s.setUpdate k (some (.saving (settings.assign dto userId) s.row.settings
        (passwordOf env iv dto) passwordWasSet)))
    | _ => none
  | .write k updatedAt =>
    match s.updates k with
    | some (.saving entity reread password passwordWasSet) =>
      let reported := some (.saved (password.isSome || passwordWasSet))
      -- a save in which nothing differs writes nothing
      if entity = reread ∧ password = none then some (s.setUpdate k reported)
      else if password.any fun p => passwordColumnLength < p.2.length then
        some (s.setUpdate k none)
      else
        some ((s.store (writtenRow entity reread password updatedAt s.row,
          (password.map Prod.fst).or s.password)).setUpdate k reported)
    | _ => none
  | .invalidate k =>
    match s.updates k with
    | some (.saved _) => some { s with transport := .invalidate }
    | _ => none
  | .fail k => some (s.setUpdate k none)
  | .querySettings k =>
    match s.sends k with
    | none => some { s with sends := Function.update s.sends k (some s.version) }
    | some _ => none
  | .getTransporter k =>
    match s.sends k with
    | some v =>
      some { s with
        transport := ((getTransporter env s.transport v.1).map Prod.snd).getD s.transport
        sends := Function.update s.sends k none }
    | none => none
  | .recordTestResult ok error now updatedAt =>
    some (s.store (s.row.recordTestResult ok error now updatedAt, s.password))

/-- What a step may leave in `updated_at`. -/
def writesUpdatedAt : Action → Option ℕ
  | .write _ updatedAt | .recordTestResult _ _ _ updatedAt => some updatedAt
  | _ => none

/-- No version has had this `updated_at` yet. -/
def newUpdatedAt (s : State) (a : Action) : Bool :=
  (writesUpdatedAt a).all fun t => s.versions.all fun v => v.1.settings.updatedAt ≠ t

/-! ### The invariant -/

/-- The stored password decrypts to a password, or neither is there. -/
def Version.Sound (env : CryptoEnv) (v : Version) : Prop :=
  v.1.passwordEncrypted.map (decryptSecret env) = v.2.map some

/-- What an update knows is so. -/
def Update.Sound (env : CryptoEnv) (s : State) : Update → Prop
  | .loaded _ => True
  | .checked _ passwordWasSet => passwordWasSet = true → s.row.passwordEncrypted ≠ none
  | .saving _ _ password passwordWasSet =>
    (∀ p, password = some p → decryptSecret env p.2 = some p.1) ∧
      (passwordWasSet = true → s.row.passwordEncrypted ≠ none)
  | .saved passwordIsSet => passwordIsSet = true → s.row.passwordEncrypted ≠ none

structure State.Inv (env : CryptoEnv) (s : State) : Prop where
  current : s.version ∈ s.versions
  versions : ∀ v ∈ s.versions, Version.Sound env v
  updates : ∀ k u, s.updates k = some u → u.Sound env s
  sends : ∀ k v, s.sends k = some v → v ∈ s.versions
  transport : ∀ t, s.transport.transporter = some t → ∃ v ∈ s.versions,
    s.transport.builtForUpdatedAt = some v.1.settings.updatedAt ∧
      build env v.1 = some (some t)

section Inv

variable {env : CryptoEnv} {s s' : State}

/-- A row whose password decrypts is built with it. -/
lemma build_of_sound {v : Version} (h : Version.Sound env v) :
    build env v.1 = some (transporterOf v.1.settings v.2) := by
  obtain ⟨⟨settings, stored⟩, password⟩ := v
  simp only [Version.Sound] at h
  simp only [build]
  split_ifs with hnone
  · simp only [transporterOf]
    split
    · next hdriver hhost hport =>
      rw [hdriver, hhost, hport] at hnone
      simp at hnone
    · rfl
  · cases stored with
    | none =>
      cases password with
      | none => rfl
      | some password => cases h
    | some stored =>
      cases password with
      | none => cases h
      | some password =>
        rw [Option.map_some, Option.map_some, Option.some.injEq] at h
        simp only [h, Option.map_some]

lemma passwordOf_sound {iv : Iv} {dto : UpdateMailSettingsDto} {p : String × Bytes}
    (h : passwordOf env iv dto = some p) : decryptSecret env p.2 = some p.1 := by
  obtain ⟨password, -, rfl⟩ := Option.map_eq_some_iff.mp h
  exact decryptSecret_encryptSecret env iv password

lemma Version.Sound.written {v : Version} (h : Version.Sound env v) {entity reread : MailSettings}
    {password : Option (String × Bytes)} {updatedAt : ℕ}
    (hpassword : ∀ p, password = some p → decryptSecret env p.2 = some p.1) :
    Version.Sound env (writtenRow entity reread password updatedAt v.1,
      (password.map Prod.fst).or v.2) := by
  cases password with
  | none => exact h
  | some p => simp [Version.Sound, writtenRow, hpassword p rfl]

lemma Update.Sound.mono (hset : s.row.passwordEncrypted ≠ none → s'.row.passwordEncrypted ≠ none)
    {u : Update} (h : u.Sound env s) : u.Sound env s' := by
  cases u with
  | loaded settings => trivial
  | checked settings passwordWasSet => exact fun hw => hset (h hw)
  | saving entity reread password passwordWasSet => exact ⟨h.1, fun hw => hset (h.2 hw)⟩
  | saved passwordIsSet => exact fun hw => hset (h hw)

lemma State.Inv.setUpdate (h : s.Inv env) {k : ℕ} {u : Option Update}
    (hu : ∀ x, u = some x → x.Sound env s) : (s.setUpdate k u).Inv env := by
  refine ⟨h.current, h.versions, fun j x hx => ?_, h.sends, h.transport⟩
  by_cases hjk : j = k
  · subst hjk
    exact (hu x (by simpa [State.setUpdate] using hx)).mono id
  · exact (h.updates j x (by simpa [State.setUpdate, hjk] using hx)).mono id

lemma State.Inv.store (h : s.Inv env) {v : Version} (hv : Version.Sound env v)
    (hset : s.row.passwordEncrypted ≠ none → v.1.passwordEncrypted ≠ none) :
    (s.store v).Inv env := by
  refine ⟨List.mem_cons_self, ?_, ?_, ?_, ?_⟩
  · intro w hw
    rcases List.mem_cons.mp hw with rfl | hw
    · exact hv
    · exact h.versions w hw
  · exact fun k u hu => (h.updates k u hu).mono hset
  · exact fun k w hw => List.mem_cons_of_mem _ (h.sends k w hw)
  · intro t ht
    obtain ⟨w, hw, hbuilt, hbuild⟩ := h.transport t ht
    exact ⟨w, List.mem_cons_of_mem _ hw, hbuilt, hbuild⟩

/-- What `getTransporter` keeps was built from the row it was called with, or kept before. -/
lemma State.Inv.getTransporter (h : s.Inv env) {v : Version} (hv : v ∈ s.versions) {t : Transporter}
    (ht : (((getTransporter env s.transport v.1).map Prod.snd).getD s.transport).transporter
      = some t) :
    ∃ w ∈ s.versions, (((getTransporter env s.transport v.1).map Prod.snd).getD
        s.transport).builtForUpdatedAt = some w.1.settings.updatedAt ∧
      build env w.1 = some (some t) := by
  simp only [Transport.getTransporter] at ht ⊢
  split_ifs at ht ⊢ with hbuild
  · cases hrow : build env v.1 with
    | none =>
      rw [hrow] at ht
      exact h.transport t ht
    | some transporter =>
      rw [hrow] at ht
      cases ht
      exact ⟨v, hv, rfl, hrow⟩
  · exact h.transport t ht

lemma inv_step {a : Action} (h : s.Inv env) (hs : step env s a = some s') : s'.Inv env := by
  cases a with
  | findSingleton k =>
    simp only [step] at hs
    split at hs <;> cases hs
    refine h.setUpdate fun x hx => ?_
    cases hx
    trivial
  | hasPassword k =>
    simp only [step] at hs
    split at hs <;> cases hs
    refine h.setUpdate fun x hx => ?_
    cases hx
    exact Option.isSome_iff_ne_none.mp
  | save k dto userId iv =>
    simp only [step] at hs
    split at hs <;> cases hs
    next settings passwordWasSet hk =>
    refine h.setUpdate fun x hx => ?_
    cases hx
    exact ⟨fun p hp => passwordOf_sound hp, h.updates k _ hk⟩
  | write k updatedAt =>
    simp only [step] at hs
    split at hs
    · next entity reread password passwordWasSet hk =>
      obtain ⟨hpassword, hwas⟩ := h.updates k _ hk
      split_ifs at hs with hsame hlong <;> cases hs
      · refine h.setUpdate fun x hx => ?_
        cases hx
        simpa [Update.Sound, hsame.2] using hwas
      · exact h.setUpdate fun x hx => by cases hx
      · have hset : s.row.passwordEncrypted ≠ none →
            (writtenRow entity reread password updatedAt s.row).passwordEncrypted ≠ none := by
          cases password <;> simp [writtenRow]
        refine (h.store ((h.versions _ h.current).written hpassword) hset).setUpdate
          fun x hx => ?_
        cases hx
        intro hreported
        cases password with
        | none => exact hset (hwas (by simpa using hreported))
        | some p => simp [State.store, writtenRow]
    · cases hs
  | invalidate k =>
    simp only [step] at hs
    split at hs <;> cases hs
    exact ⟨h.current, h.versions, fun j u hu => (h.updates j u hu).mono id, h.sends,
      fun t ht => by cases ht⟩
  | fail k =>
    cases hs
    exact h.setUpdate fun x hx => by cases hx
  | querySettings k =>
    simp only [step] at hs
    split at hs <;> cases hs
    refine ⟨h.current, h.versions, fun j u hu => (h.updates j u hu).mono id, fun j v hv => ?_,
      h.transport⟩
    rcases update_eq_some hv with ⟨-, rfl⟩ | ⟨-, hv⟩
    · exact h.current
    · exact h.sends j v hv
  | getTransporter k =>
    simp only [step] at hs
    split at hs <;> cases hs
    next v hk =>
    refine ⟨h.current, h.versions, fun j u hu => (h.updates j u hu).mono id, fun j w hw => ?_,
      fun t ht => h.getTransporter (h.sends k v hk) ht⟩
    exact h.sends j w (update_none_eq_some hw).2
  | recordTestResult ok error now updatedAt =>
    cases hs
    have hcurrent : Version.Sound env s.version := h.versions _ h.current
    exact h.store hcurrent fun hset => hset

lemma inv_init {v : Version} (hv : Version.Sound env v) : (State.init v).Inv env where
  current := List.mem_singleton_self v
  versions w hw := List.mem_singleton.mp hw ▸ hv
  updates k u hu := by cases hu
  sends k w hw := by cases hw
  transport t ht := by cases ht

lemma inv_reach {ok : State → Action → Prop} {v : Version} (hv : Version.Sound env v)
    (h : Reach (step env) ok (State.init v) s) : s.Inv env :=
  h.invariant (P := State.Inv env) (inv_init hv) fun _ _ _ hi _ hs => inv_step hi hs

/-! ### What is written -/

/-- The version an action commits. -/
inductive Commits (s : State) : Action → Version → Prop where
  | write {k : ℕ} (updatedAt : ℕ) {entity reread : MailSettings}
      {password : Option (String × Bytes)} {passwordWasSet : Bool}
      (h : s.updates k = some (.saving entity reread password passwordWasSet)) :
      Commits s (.write k updatedAt)
        (writtenRow entity reread password updatedAt s.row, (password.map Prod.fst).or s.password)
  | recordTestResult (ok : Bool) (error : Option String) (now updatedAt : ℕ) :
      Commits s (.recordTestResult ok error now updatedAt)
        (s.row.recordTestResult ok error now updatedAt, s.password)

lemma Commits.updatedAt {a : Action} {v : Version} (h : Commits s a v) :
    writesUpdatedAt a = some v.1.settings.updatedAt := by
  cases h <;> rfl

/-- A step leaves the row as it is, or commits a version. -/
lemma step_commits {a : Action} (hs : step env s a = some s') :
    (s'.version = s.version ∧ s'.versions = s.versions) ∨
      ∃ v, Commits s a v ∧ s'.version = v ∧ s'.versions = v :: s.versions := by
  cases a with
  | write k updatedAt =>
    simp only [step] at hs
    split at hs
    · next entity reread password passwordWasSet hk =>
      split_ifs at hs <;> cases hs
      · exact .inl ⟨rfl, rfl⟩
      · exact .inl ⟨rfl, rfl⟩
      · exact .inr ⟨_, .write updatedAt hk, rfl, rfl⟩
    · cases hs
  | recordTestResult ok error now updatedAt =>
    cases hs
    exact .inr ⟨_, .recordTestResult ok error now updatedAt, rfl, rfl⟩
  | findSingleton k =>
    simp only [step] at hs
    split at hs <;> cases hs
    exact .inl ⟨rfl, rfl⟩
  | hasPassword k =>
    simp only [step] at hs
    split at hs <;> cases hs
    exact .inl ⟨rfl, rfl⟩
  | save k dto userId iv =>
    simp only [step] at hs
    split at hs <;> cases hs
    exact .inl ⟨rfl, rfl⟩
  | invalidate k =>
    simp only [step] at hs
    split at hs <;> cases hs
    exact .inl ⟨rfl, rfl⟩
  | fail k => cases hs; exact .inl ⟨rfl, rfl⟩
  | querySettings k =>
    simp only [step] at hs
    split at hs <;> cases hs
    exact .inl ⟨rfl, rfl⟩
  | getTransporter k =>
    simp only [step] at hs
    split at hs <;> cases hs
    exact .inl ⟨rfl, rfl⟩

/-- Only the write of an update that sends a password changes the stored one. -/
lemma password_step {a : Action} (hs : step env s a = some s') :
    (s'.row.passwordEncrypted = s.row.passwordEncrypted ∧ s'.password = s.password) ∨
      ∃ k updatedAt entity reread p passwordWasSet, a = .write k updatedAt ∧
        s.updates k = some (.saving entity reread (some p) passwordWasSet) ∧
        s'.row.passwordEncrypted = some p.2 ∧ s'.password = some p.1 := by
  rcases step_commits hs with ⟨hversion, -⟩ | ⟨v, hcommits, hversion, -⟩
  · obtain ⟨hrow, hpassword⟩ := Prod.mk.inj hversion
    exact .inl ⟨by rw [hrow], hpassword⟩
  · cases hcommits with
    | recordTestResult ok error now updatedAt =>
      obtain ⟨hrow, hpassword⟩ := Prod.mk.inj hversion
      exact .inl ⟨by rw [hrow]; rfl, hpassword⟩
    | @write k updatedAt entity reread password passwordWasSet hk =>
      obtain ⟨hrow, hpassword⟩ := Prod.mk.inj hversion
      cases password with
      | none => exact .inl ⟨by rw [hrow]; rfl, hpassword⟩
      | some p =>
        exact .inr ⟨k, updatedAt, entity, reread, p, passwordWasSet, rfl, hk, by rw [hrow]; rfl,
          hpassword⟩

/-- In every run of overlapping updates, tests and sends, the stored password decrypts to the one
last committed; no step but the write of an update that sends a password changes it; and no update
ever reports a password that is not stored. -/
theorem password_kept {v : Version} (hv : Version.Sound env v)
    (h : Reach (step env) always (State.init v) s) :
    s.row.passwordEncrypted.map (decryptSecret env) = s.password.map some ∧
      (∀ a s', step env s a = some s' →
        (s'.row.passwordEncrypted = s.row.passwordEncrypted ∧ s'.password = s.password) ∨
          ∃ k updatedAt entity reread p passwordWasSet, a = .write k updatedAt ∧
            s.updates k = some (.saving entity reread (some p) passwordWasSet) ∧
            s'.row.passwordEncrypted = some p.2 ∧ s'.password = some p.1) ∧
      ∀ k, s.updates k = some (.saved true) → s.row.passwordEncrypted ≠ none := by
  have hinv : s.Inv env := inv_reach hv h
  exact ⟨hinv.versions _ hinv.current, fun a s' hs => password_step hs,
    fun k hk => hinv.updates k _ hk rfl⟩

/-! ### What a send is given -/

/-- No two versions have one `updated_at`. -/
def State.Distinct (s : State) : Prop :=
  ∀ v ∈ s.versions, ∀ w ∈ s.versions, v.1.settings.updatedAt = w.1.settings.updatedAt → v = w

lemma distinct_step {a : Action} (h : s.Distinct) (hok : newUpdatedAt s a = true)
    (hs : step env s a = some s') : s'.Distinct := by
  rcases step_commits hs with ⟨-, hversions⟩ | ⟨v, hcommits, -, hversions⟩
  · exact fun w hw x hx => h w (hversions ▸ hw) x (hversions ▸ hx)
  · have hnew : ∀ w ∈ s.versions, w.1.settings.updatedAt ≠ v.1.settings.updatedAt := by
      simpa [newUpdatedAt, hcommits.updatedAt] using hok
    intro w hw x hx heq
    rw [hversions] at hw hx
    rcases List.mem_cons.mp hw with rfl | hold
    · rcases List.mem_cons.mp hx with rfl | hx
      · rfl
      · exact absurd heq.symm (hnew x hx)
    · rcases List.mem_cons.mp hx with rfl | hx
      · exact absurd heq (hnew w hold)
      · exact h w hold x hx heq

/-- In every run whose writes each leave a new `updated_at`, a send or a test is given the transporter
of the settings its own query read, with the password that was last committed then, however long the
query took and whatever was built or invalidated meanwhile. -/
theorem transporter_current {v₀ v : Version} (hv₀ : Version.Sound env v₀)
    (h : Reach (step env) (fun s a => newUpdatedAt s a = true) (State.init v₀) s) {k : ℕ}
    (hk : s.sends k = some v) :
    ∃ m, Transport.getTransporter env s.transport v.1
      = some (transporterOf v.1.settings v.2, m) := by
  have hinv : s.Inv env := inv_reach hv₀ h
  have hdistinct : s.Distinct := by
    refine h.invariant (P := State.Distinct) ?_ fun _ _ _ hi hok hs => distinct_step hi hok hs
    intro w hw x hx _
    rw [List.mem_singleton.mp hw, List.mem_singleton.mp hx]
  have hv : v ∈ s.versions := hinv.sends k v hk
  have hbuild := build_of_sound (hinv.versions v hv)
  simp only [Transport.getTransporter]
  split_ifs with hstale
  · rw [hbuild]
    exact ⟨_, rfl⟩
  · obtain ⟨hsome, hfor⟩ := not_or.mp hstale
    obtain ⟨t, ht⟩ := Option.ne_none_iff_exists'.mp hsome
    obtain ⟨w, hw, hbuilt, hwbuild⟩ := hinv.transport t ht
    have hkey : w.1.settings.updatedAt = v.1.settings.updatedAt := by
      rw [not_not, hbuilt] at hfor
      exact Option.some.inj hfor
    obtain rfl : w = v := hdistinct w hw v hv hkey
    rw [hbuild, Option.some.injEq] at hwbuild
    exact ⟨s.transport, by rw [ht, hwbuild]⟩

end Inv

/-! ### Two updates and a send -/

/-- A ciphertext is its plaintext; the tag is all zeros. -/
def plainAead : Aead where
  encipher _ _ plaintext := (plaintext, List.replicate 16 0)
  decipher _ _ ciphertext authTag :=
    if authTag = List.replicate 16 0 then some ciphertext else none
  length_tag _ _ _ := List.length_replicate
  decipher_encipher _ _ _ := if_pos rfl

def plainEnv : CryptoEnv := ⟨plainAead, []⟩

/-- The row of `002_seed.sql`. -/
def seeded : Row where
  settings := {
    isEnabled := false
    driver := .log
    host := none
    port := none
    encryption := .starttls
    username := none
    fromNameAr := none
    fromNameEn := none
    fromEmail := none
    replyTo := none
    notifyEmail := none
    lastTestAt := none
    lastTestOk := none
    lastTestError := none
    updatedBy := none
    updatedAt := 0 }
  passwordEncrypted := none

def zeroIv : Iv := ⟨List.replicate 12 0, rfl⟩

def serverDto : UpdateMailSettingsDto where
  driver := some .smtp
  host := some (some "mx")
  port := some (some 25)
  username := some (some "u")
  password := some "p"

/-- One update sets the server and the password, a second that begins before the first has answered
changes the sender, and a send asks for the transporter. -/
def overlappingUpdates : List Action :=
  [.findSingleton 1, .hasPassword 1, .save 1 serverDto 1 zeroIv, .write 1 10, .findSingleton 2,
    .hasPassword 2, .invalidate 1, .save 2 { fromEmail := some (some "a@x") } 2 zeroIv, .write 2 20,
    .invalidate 2, .querySettings 1]

theorem password_kept_overlapping : ∃ s : State, s.password = some "p" ∧
    s.row.passwordEncrypted.map (decryptSecret plainEnv) = some (some "p") := by
  obtain ⟨s, hrun, hpassword⟩ := exists_of_run (step plainEnv) (State.init (seeded, none))
    overlappingUpdates (P := fun s => s.password = some "p") (by decide)
  refine ⟨s, hpassword, ?_⟩
  rw [(password_kept (v := (seeded, none)) rfl (Reach.of_run hrun)).1, hpassword]
  rfl

theorem transporter_current_overlapping : ∃ (s : State) (v : Version),
    s.sends 1 = some v ∧ v.2 = some "p" ∧
    ∃ m, getTransporter plainEnv s.transport v.1 = some (transporterOf v.1.settings v.2, m) := by
  obtain ⟨s, hrun, hsend⟩ := exists_of_run (guarded (step plainEnv) newUpdatedAt)
    (State.init (seeded, none)) overlappingUpdates
    (P := fun s => (s.sends 1).map Prod.snd = some (some "p")) (by decide)
  obtain ⟨v, hv, hpassword⟩ := Option.map_eq_some_iff.mp hsend
  have hseeded : Version.Sound plainEnv (seeded, none) := rfl
  exact ⟨s, v, hv, hpassword, transporter_current hseeded (Reach.of_guarded hrun) hv⟩

/-- With an `updated_at` that comes back, a query that was slow leaves the transporter of an older
row. -/
example : ((run (step plainEnv) (State.init (seeded, none)) (overlappingUpdates ++
    [.findSingleton 3, .hasPassword 3, .recordTestResult true none 30 30,
      .save 3 { host := some (some "mail") } 1 zeroIv, .write 3 20, .invalidate 3,
      .getTransporter 1, .querySettings 2])).map fun s =>
        (s.row.settings.host, s.transport.transporter.map Transporter.host,
          decide (s.transport.builtForUpdatedAt = some s.row.settings.updatedAt)))
    = some (some "mail", some "mx", true) := by
  decide

end SafeerApi.Mail.Transport
