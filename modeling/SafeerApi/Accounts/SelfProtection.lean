import SafeerApi.Accounts.Users

/-!
# An administrator's own account (`users.controller.ts`)

`update` and `remove` tell the actor's own account by its text: `targetId === actorId`. The row is
found by the database, which reads the path as a number. The two agree on the paths that spell the
actor's id as the actor's session does.
-/

namespace SafeerApi.Accounts.SelfProtection

open Common Lib

/-- The tables after `PATCH /admin/users/:id`; a refused transaction changes nothing. -/
def update (sql : SqlNumeric) (sameEmail : String → String → Bool) (db : Database)
    (actorId targetId : String) (input : UpdateUserInput) (now : ℕ) : Database :=
  match updateUser sql sameEmail db actorId targetId input now with
  | some (_, db') => db'
  | none => db

/-- The tables after `DELETE /admin/users/:id`. -/
def remove (sql : SqlNumeric) (db : Database) (actorId targetId : String) : Database :=
  match prepareRemove sql db.users actorId targetId with
  | .ok target => commitRemove db target.id
  | .error _ => db

/-- The path names the row `n` by another text than the id's. -/
def NamesOtherwise (sql : SqlNumeric) (n : ℕ) (targetId : String) : Prop :=
  sql.rowId targetId = some n ∧ targetId ≠ toString n

/-- No other check of either operation refuses: the row is not the last usable admin. -/
def Covered (sql : SqlNumeric) (users : Users) (targetId : String) (target : User) : Prop :=
  target.isUsableAdmin = true → usableAdminsBesides sql users targetId ≠ 0

/-- The body asks for another role, and for nothing the other checks of `update` refuse. -/
def AsksForRole (input : UpdateUserInput) (target : User) : Prop :=
  (∃ role, input.role = some role ∧ role ≠ target.role) ∧
    ¬(input.status = some .active ∧ target.status = .invited)

/-- The body asks for a new e-mail address that the database refuses: one too long for its column, or
another account's. -/
def AsksForTakenEmail (sameEmail : String → String → Bool) (users : Users) (input : UpdateUserInput)
    (target : User) : Prop :=
  ∃ email, input.email = some email ∧ email ≠ target.email ∧
    (191 < email.length ∨ ∃ u ∈ users.rows, u.id ≠ target.id ∧ sameEmail u.email email = true)

/-! ### Changing a role -/

lemma updateRole_of_ne {cover : ℕ} {actorId targetId : String} {role : UserRole} {target : User}
    (hrole : role ≠ target.role) (hne : targetId ≠ actorId)
    (hcover : target.isUsableAdmin = true → cover ≠ 0) :
    updateRole cover actorId targetId (some role) target = .ok { target with role := role } := by
  have hlast : ¬(target.isUsableAdmin = true ∧ cover = 0) := fun h => hcover h.1 h.2
  simp [updateRole, hrole, hne, hlast]

lemma updateStatus_of_covered {cover : ℕ} {covers : Bool} {status : Option SettableStatus}
    (target : User) (hcover : covers = true → cover ≠ 0)
    (hinvited : ¬(status = some .active ∧ target.status = .invited)) :
    ∃ t, updateStatus cover covers status target = .ok t ∧ t.role = target.role ∧
      t.id = target.id := by
  cases status with
  | none => exact ⟨target, rfl, rfl, rfl⟩
  | some status =>
    have hlast : ¬(status = .disabled ∧ target.status ≠ .disabled ∧ covers = true ∧ cover = 0) :=
      fun h => hcover h.2.2.1 h.2.2.2
    have hinvited : ¬(status = .active ∧ target.status = .invited) :=
      fun h => hinvited ⟨by rw [h.1], h.2⟩
    refine ⟨{ target with status := status.status }, ?_, rfl, rfl⟩
    simp only [updateStatus, if_neg hlast, if_neg hinvited]

/-- An update of a row under another name than the actor's goes through to its role. -/
lemma prepareUpdate_of_asks {sql : SqlNumeric} {users : Users} {actorId targetId : String}
    {input : UpdateUserInput} {target : User} (hfind : findUser sql users targetId = some target)
    (hne : targetId ≠ actorId) (hcovered : Covered sql users targetId target)
    (hasks : AsksForRole input target) :
    ∃ w, prepareUpdate sql users actorId targetId input = .ok w ∧ w.row.id = target.id ∧
      w.row.role ≠ target.role := by
  obtain ⟨⟨role, hrole, hother⟩, hinvited⟩ := hasks
  have h₁ := updateRole_of_ne hother hne hcovered
  obtain ⟨t, h₂, htrole, htid⟩ := updateStatus_of_covered { target with
    role := role
    name := input.name.getD target.name
    email := input.email.getD target.email } hcovered hinvited
  refine ⟨⟨applyUnlock input.unlock t, input.status = some .disabled && target.status ≠ .disabled,
    input.email.any (· ≠ target.email)⟩, ?_, ?_, ?_⟩
  · simp only [prepareUpdate, hfind, hrole, h₁, Except.bind, bind, h₂]
  · rw [(applyUnlock_fields input.unlock t).1, htid]
  · rw [(applyUnlock_fields input.unlock t).2.1, htrole]
    exact hother

/-- An update that changes a role was asked to, and no other check stood against it. -/
lemma asks_of_prepareUpdate {sql : SqlNumeric} {users : Users} {actorId targetId : String}
    {input : UpdateUserInput} {w : UserWrite} {target : User}
    (hfind : findUser sql users targetId = some target)
    (h : prepareUpdate sql users actorId targetId input = .ok w)
    (hrole : w.row.role ≠ target.role) :
    targetId ≠ actorId ∧ Covered sql users targetId target ∧ AsksForRole input target := by
  simp only [prepareUpdate, hfind] at h
  obtain ⟨t₁, h₁, h⟩ := bind_eq_ok h
  obtain ⟨t₂, h₂, h⟩ := bind_eq_ok h
  cases h
  have ht₂ := (updateStatus_ok h₂).1
  have hrole₂ : t₂.role = t₁.role := by rw [ht₂]
  have hother : t₁.role ≠ target.role := by
    intro heq
    exact hrole ((applyUnlock_fields input.unlock t₂).2.1.trans (hrole₂.trans heq))
  obtain ⟨ht₁, hchange⟩ := updateRole_ok h₁
  obtain ⟨hne, hcover⟩ := hchange.resolve_left hother
  have hstatus₁ : t₁.status = target.status := by rw [ht₁]
  refine ⟨hne, hcover, ?_, ?_⟩
  · cases hr : input.role with
    | none =>
      rw [hr] at h₁
      cases h₁
      exact absurd rfl hother
    | some role =>
      refine ⟨role, rfl, ?_⟩
      rintro rfl
      simp only [updateRole, hr, if_pos] at h₁
      cases h₁
      exact hother rfl
  · rintro ⟨hactive, hinvited⟩
    simp [updateStatus, hactive, hstatus₁, hinvited] at h₂

/-- The address an accepted update writes. -/
lemma email_of_prepareUpdate {sql : SqlNumeric} {users : Users} {actorId targetId : String}
    {input : UpdateUserInput} {w : UserWrite} {target : User}
    (hfind : findUser sql users targetId = some target)
    (h : prepareUpdate sql users actorId targetId input = .ok w) :
    w.row.id = target.id ∧ w.row.email = input.email.getD target.email ∧
      w.emailChanged = input.email.any (· ≠ target.email) := by
  simp only [prepareUpdate, hfind] at h
  obtain ⟨t₁, h₁, h⟩ := bind_eq_ok h
  obtain ⟨t₂, h₂, h⟩ := bind_eq_ok h
  cases h
  have ht₁ := (updateRole_ok h₁).1
  have ht₂ := (updateStatus_ok h₂).1
  refine ⟨?_, ?_, rfl⟩
  · rw [(applyUnlock_fields input.unlock t₂).1, ht₂, ht₁]
  · rw [applyUnlock_email, ht₂, ht₁]

/-- The database refuses an accepted update for its address alone. -/
lemma refusesRow_iff {sql : SqlNumeric} {sameEmail : String → String → Bool} {users : Users}
    {actorId targetId : String} {input : UpdateUserInput} {w : UserWrite} {target : User}
    (hfind : findUser sql users targetId = some target)
    (h : prepareUpdate sql users actorId targetId input = .ok w) :
    refusesRow sameEmail users w = true ↔ AsksForTakenEmail sameEmail users input target := by
  obtain ⟨hid, hemail, hchanged⟩ := email_of_prepareUpdate hfind h
  simp only [refusesRow, hid, hemail, hchanged, AsksForTakenEmail]
  cases input.email with
  | none => simp
  | some email => simp

/-! ### The two operations -/

lemma find_writeUpdate {db : Database} {w : UserWrite} {now n : ℕ} :
    (writeUpdate db w now).users.find n =
      if n = w.row.id then (db.users.find n).map fun _ => w.row else db.users.find n :=
  Table.find_replace n

/-- An update keeps the role of the row `n` unless the path names it by another text, the body asks
for another role and nothing else refuses. -/
lemma role_update {sql : SqlNumeric} {sameEmail : String → String → Bool} {db : Database} {n : ℕ}
    {targetId : String} {input : UpdateUserInput} {now : ℕ} :
    ((update sql sameEmail db (toString n) targetId input now).users.find n).map User.role
        = (db.users.find n).map User.role ↔
      (NamesOtherwise sql n targetId → ∀ u, db.users.find n = some u →
        Covered sql db.users targetId u → ¬AsksForTakenEmail sameEmail db.users input u →
          ¬AsksForRole input u) := by
  constructor
  · rintro hkeeps ⟨hid, hne⟩ u hu hcovered htaken hasks
    have hfind : findUser sql db.users targetId = some u := by rw [findUser, hid]; exact hu
    obtain ⟨w, hw, hwid, hwrole⟩ := prepareUpdate_of_asks hfind hne hcovered hasks
    have hrow : refusesRow sameEmail db.users w = false :=
      Bool.eq_false_iff.mpr fun hrow => htaken ((refusesRow_iff hfind hw).mp hrow)
    have hupdate : updateUser sql sameEmail db (toString n) targetId input now
        = some (w, writeUpdate db w now) := updateUser_eq_some.mpr ⟨hw, hrow, rfl⟩
    have hn : n = w.row.id := by rw [hwid, Table.key_of_find hu]
    simp only [update, hupdate, find_writeUpdate, if_pos hn, hu, Option.map_some] at hkeeps
    exact hwrole (Option.some.inj hkeeps)
  · intro hcond
    simp only [update]
    split
    · next w db' hupdate =>
      obtain ⟨hw, hrow, rfl⟩ := updateUser_eq_some.mp hupdate
      rw [find_writeUpdate]
      split_ifs with hn
      · obtain ⟨target, hallowed⟩ := prepareUpdate_allowed hw
        obtain ⟨-, hid⟩ := mem_of_findUser hallowed.found
        have htn : target.id = n := by rw [hn, hallowed.id]
        have hu : db.users.find n = some target := by
          have hfound := hallowed.found
          rwa [findUser, hid, Option.bind_some, htn] at hfound
        rw [hu, Option.map_some, Option.map_some]
        congr 1
        by_contra hrole
        obtain ⟨hne, hcovered, hasks⟩ := asks_of_prepareUpdate hallowed.found hw hrole
        refine hcond ⟨by rw [hid, htn], hne⟩ target hu hcovered ?_ hasks
        intro htaken
        rw [(refusesRow_iff hallowed.found hw).mpr htaken] at hrow
        cases hrow
      · rfl
    · rfl

/-- A removal keeps the row `n` unless the path names it by another text and it is not the last
usable admin. -/
lemma row_remove {sql : SqlNumeric} {db : Database} {n : ℕ} {targetId : String} :
    (remove sql db (toString n) targetId).users.find n = db.users.find n ↔
      (NamesOtherwise sql n targetId → ∀ u, db.users.find n = some u →
        ¬Covered sql db.users targetId u) := by
  constructor
  · rintro hkeeps ⟨hid, hne⟩ u hu hcovered
    have hfind : findUser sql db.users targetId = some u := by rw [findUser, hid]; exact hu
    have hlast : ¬(u.isUsableAdmin = true ∧ usableAdminsBesides sql db.users targetId = 0) :=
      fun h => hcovered h.1 h.2
    have hremove : prepareRemove sql db.users (toString n) targetId = .ok u := by
      simp only [prepareRemove, hfind, if_neg hne, if_neg hlast]
    have hn : n = u.id := (Table.key_of_find hu).symm
    simp only [remove, hremove, commitRemove, Table.find_delete, if_pos hn, hu] at hkeeps
    cases hkeeps
  · intro hcond
    simp only [remove]
    split
    · next target htarget =>
      obtain ⟨hfind, hne, hcovered⟩ := prepareRemove_allowed htarget
      obtain ⟨-, hid⟩ := mem_of_findUser hfind
      simp only [commitRemove, Table.find_delete]
      split_ifs with hn
      · have hu : db.users.find n = some target := by
          rwa [findUser, hid, Option.bind_some, ← hn] at hfind
        exact absurd hcovered (hcond ⟨by rw [hid, hn], hne⟩ target hu)
      · rfl
    · rfl

/-- For every actor, path and body: the actor keeps the own role and the own account exactly when
the path, if it is read as the actor's id, spells it as the session does, or when another check
refuses. -/
theorem own_account_kept_iff (sql : SqlNumeric) (sameEmail : String → String → Bool) (db : Database)
    (n : ℕ) (targetId : String) (input : UpdateUserInput) (now : ℕ) :
    (((update sql sameEmail db (toString n) targetId input now).users.find n).map User.role
        = (db.users.find n).map User.role ↔
      (NamesOtherwise sql n targetId → ∀ u, db.users.find n = some u →
        Covered sql db.users targetId u → ¬AsksForTakenEmail sameEmail db.users input u →
          ¬AsksForRole input u)) ∧
    ((remove sql db (toString n) targetId).users.find n = db.users.find n ↔
      (NamesOtherwise sql n targetId → ∀ u, db.users.find n = some u →
        ¬Covered sql db.users targetId u)) :=
  ⟨role_update, row_remove⟩

/-- Two active administrators. -/
def twoAdmins : Database where
  users := ⟨[
    { invitedUser 1 "a@x" "A" .admin with status := .active, passwordHash := "p" },
    { invitedUser 2 "b@x" "B" .admin with status := .active, passwordHash := "q" }], by decide⟩

/-- Addresses compare as texts. -/
def sameText (a b : String) : Bool := a = b

/-- The administrator 1 under the path `01`: the own role changes, the own account goes. -/
theorem own_account_lost :
    ((update .decimal sameText twoAdmins "1" "01" { role := some .editor } 0).users.find 1).map
        User.role = some .editor ∧
      (remove .decimal twoAdmins "1" "01").users.find 1 = none := by
  decide

/-- Under the path `1` both are refused, and under `01` the update is with another's address. -/
example :
    update .decimal sameText twoAdmins "1" "1" { role := some .editor } 0 = twoAdmins ∧
      update .decimal sameText twoAdmins "1" "01" { email := some "b@x", role := some .editor } 0
        = twoAdmins ∧
      remove .decimal twoAdmins "1" "1" = twoAdmins := by
  exact ⟨rfl, rfl, rfl⟩

end SafeerApi.Accounts.SelfProtection
