import SafeerApi.Migrations.Lawful

/-!
# Releases (`deploy/deploy.sh`)

A release writes the tag of the new image to `.env`, pulls it, asks it for pending migrations,
swaps the container and waits for its health; where one of these fails it puts the old tag back.
What is in `.env` is what the next release goes back to, and what a plain `docker compose up`
starts. Migrations run on their own, by `deploy.sh migrate` or otherwise, at any time.
-/

namespace SafeerApi.Deploy

open Lib
open Migrations.Runner (MigrateEnv MigrationFile DirEntry SchemaMigration SchemaMigrations
  resolveMigrationFiles printStatus statusLine storedOf mem_migrations_of_step checksums_of_step)

/-! ### `.env` -/

/-- The lines. -/
abbrev EnvFile := List String

/-- What follows `VAR=` on a line of the variable. -/
def valueOf (var line : String) : Option String :=
  if (var.toList ++ ['=']).isPrefixOf line.toList then
    some (String.ofList (line.toList.drop (var.toList.length + 1)))
  else none

/-- `grep -E "^VAR=" .env | head -1 | cut -d= -f2- || true` -/
def getVar (file : EnvFile) (var : String) : String := (file.findSome? (valueOf var)).getD ""

/-- The value that `docker compose` reads: that of the last line of the variable. -/
def composeVar (file : EnvFile) (var : String) : String :=
  ((file.filterMap (valueOf var)).getLast?).getD ""

/-- `sed` puts the text in as it is. -/
def sedSafe (value : String) : Bool :=
  value.toList.all fun c => c ∉ ['|', '&', '\\', '\n']

/-- `sed -i -E "s|^VAR=.*|VAR=value|" .env`, or a new line at the end. -/
def setVar (file : EnvFile) (var value : String) : EnvFile :=
  if file.any fun line => (valueOf var line).isSome then
    file.map fun line => if (valueOf var line).isSome then var ++ "=" ++ value else line
  else file ++ [var ++ "=" ++ value]

/-! ### Tags -/

def isHex (c : Char) : Bool := c.isDigit || ('a' ≤ c && c ≤ 'f')

def isTagChar (c : Char) : Bool := c.isAlphanum || c = '.' || c = '-'

/-- `v[0-9][0-9A-Za-z.-]{0,30}` -/
def isVersionTag : List Char → Bool
  | 'v' :: c :: rest => c.isDigit && rest.length ≤ 30 && rest.all isTagChar
  | _ => false

/-- `sha-[0-9a-f]{7,12}` -/
def isShaTag : List Char → Bool
  | 's' :: 'h' :: 'a' :: '-' :: rest => 7 ≤ rest.length && rest.length ≤ 12 && rest.all isHex
  | _ => false

/-- `[0-9a-f]{12}` -/
def isCommitTag (tag : List Char) : Bool := tag.length = 12 && tag.all isHex

def validTag (tag : String) : Bool :=
  isVersionTag tag.toList || isShaTag tag.toList || isCommitTag tag.toList

inductive Service where
  | api
  | web
  deriving DecidableEq, Repr

def Service.var : Service → String
  | .api => "SAFEER_API_TAG"
  | .web => "SAFEER_WEB_TAG"

/-- What the key of the workflow may ask for: `SSH_ORIGINAL_COMMAND`, in words. -/
def sshCommand : List String → Option (Service × String)
  | ["api", tag] => if isCommitTag tag.toList then some (.api, tag) else none
  | ["web", tag] => if isCommitTag tag.toList then some (.web, tag) else none
  | _ => none

/-! ### The stack -/

/-- Where a release is: with the new tag written, with the image there, found without pending
migrations, with the container swapped, or with the old tag put back. -/
inductive Stage where
  | tagged
  | pulled
  | checked
  | started
  | rollingBack
  deriving DecidableEq, Repr

structure Release where
  svc : Service
  tag : String
  prev : String
  stage : Stage
  deriving DecidableEq, Repr

/-- The image of each container, the release under way, and the database. -/
structure State (env : MigrateEnv) where
  file : EnvFile
  running : Service → Option String
  release : Option Release
  db : Migrations.Runner.State env

/-- How `docker compose up -d` ends. -/
inductive UpOutcome where
  | done
  /-- It fails with the container as it was. -/
  | unchanged
  /-- It fails with no container. -/
  | gone
  /-- It fails with the new container. -/
  | failedAfter
  deriving DecidableEq, Repr

def UpOutcome.running (outcome : UpOutcome) (image : String) (before : Option String) :
    Option String :=
  match outcome with
  | .done | .failedAfter => some image
  | .unchanged => before
  | .gone => none

/-- `interrupt` is any end of the script from outside; `composeUp` what a `docker compose up -d` by
hand does to one container, where the web's brings up the API's first; `migrations` a step of
whatever run of `migrate`. -/
inductive Action where
  | release (svc : Service) (tag : String)
  | ssh (command : List String)
  | pull (ok : Bool)
  | status (ok : Bool)
  | up (outcome : UpOutcome)
  | health (ok : Bool)
  | interrupt
  | composeUp (svc : Service) (outcome : UpOutcome)
  | migrations (a : Migrations.Runner.Action)

variable {env : MigrateEnv}

def State.setTag (s : State env) (svc : Service) (tag : String) : Option (State env) :=
  -- what `sed` makes of another text is not followed
  if sedSafe tag then some { s with file := setVar s.file svc.var tag } else none

def State.setStage (s : State env) (r : Release) (stage : Stage) : State env :=
  { s with release := some { r with stage := stage } }

def State.finish (s : State env) : State env := { s with release := none }

/-- The old tag is put back, and the script ends. -/
def State.giveUp (s : State env) (r : Release) : Option (State env) :=
  (s.setTag r.svc r.prev).map State.finish

/-- `docker compose up -d --no-deps`. Without a tag it refuses the file. -/
def State.up (s : State env) (svc : Service) (outcome : UpOutcome) : State env :=
  let image := composeVar s.file svc.var
  if image = "" then s
  else
    { s with
      running := Function.update s.running svc (outcome.running image (s.running svc)) }

/-- Whether it has come to its end. -/
def State.upOk (s : State env) (svc : Service) (outcome : UpOutcome) : Bool :=
  composeVar s.file svc.var ≠ "" && outcome = .done

/-- `grep -qE '^\[(pending|CHANGED)\]'` -/
def needsMigrations (lines : List String) : Bool :=
  lines.any fun line =>
    "[pending]".toList.isPrefixOf line.toList || "[CHANGED]".toList.isPrefixOf line.toList

/-- `migration_status`: what the image that `.env` names prints. A status that cannot be read is
`none`. -/
def State.migrationStatus (images : String → List DirEntry) (s : State env) :
    Option (List String) :=
  (resolveMigrationFiles env false (images (composeVar s.file Service.api.var)) []).map fun files =>
    printStatus files.files s.db.migrations.rows

def State.begin (s : State env) (svc : Service) (tag : String) : Option (State env) :=
  match s.release with
  | some _ => none
  | none =>
    if validTag tag then
      let prev := getVar s.file svc.var
      if prev = tag then some s
      else (s.setTag svc tag).map fun s => { s with release := some ⟨svc, tag, prev, .tagged⟩ }
    else some s

def step (images : String → List DirEntry) (s : State env) : Action → Option (State env)
  | .release svc tag => s.begin svc tag
  | .ssh command =>
    match sshCommand command with
    | some (svc, tag) => s.begin svc tag
    | none => some s
  | .pull ok =>
    match s.release with
    | some r =>
      if r.stage = .tagged then
        if ok then some (s.setStage r (if r.svc = .api then .pulled else .checked))
        else s.giveUp r
      else none
    | none => none
  | .status ok =>
    match s.release with
    | some r =>
      if r.stage = .pulled then
        match if ok then s.migrationStatus images else none with
        | some lines => if needsMigrations lines then s.giveUp r else some (s.setStage r .checked)
        | none => s.giveUp r
      else none
    | none => none
  | .up outcome =>
    match s.release with
    | some r =>
      if r.stage = .checked then
        if s.upOk r.svc outcome then some ((s.up r.svc outcome).setStage r .started)
        else some (s.up r.svc outcome).finish
      else if r.stage = .rollingBack then some (s.up r.svc outcome).finish
      else none
    | none => none
  | .health ok =>
    match s.release with
    | some r =>
      if r.stage = .started then
        if ok then some s.finish
        else (s.setTag r.svc r.prev).map fun s => s.setStage r .rollingBack
      else none
    | none => none
  | .interrupt =>
    match s.release with
    | some _ => some s.finish
    | none => none
  | .composeUp svc outcome => some (s.up svc outcome)
  | .migrations a => (Migrations.Runner.step s.db a).map fun db => { s with db := db }

/-- `.env` may name an image that was not asked for its migrations. -/
def State.unchecked (s : State env) : Bool :=
  s.release.any fun r => r.svc = .api && (r.stage = .tagged || r.stage = .pulled)

/-- A release that is cut off, or an API container that is started by hand, while `.env` may name an
image that was not asked for its migrations. -/
def takesUnchecked (s : State env) : Action → Bool
  | .interrupt | .composeUp .api _ => s.unchecked
  | _ => false

/-! ### What `.env` names -/

/-- There is a line of the variable, and every line of it has this value. -/
structure Names (file : EnvFile) (var value : String) : Prop where
  there : ∃ line ∈ file, valueOf var line = some value
  all : ∀ line ∈ file, ∀ v, valueOf var line = some v → v = value

section EnvFile

variable {file : EnvFile} {var var' value value' line tag : String}

lemma valueOf_eq_some :
    valueOf var line = some value ↔ line.toList = var.toList ++ '=' :: value.toList := by
  rw [valueOf]
  constructor
  · intro h
    split_ifs at h with hprefix
    obtain ⟨rest, hrest⟩ := List.isPrefixOf_iff_prefix.mp hprefix
    rw [← Option.some.inj h, String.toList_ofList, ← hrest]
    simp
  · intro h
    have hprefix : (var.toList ++ ['=']).isPrefixOf line.toList = true :=
      List.isPrefixOf_iff_prefix.mpr ⟨value.toList, by simp [h]⟩
    rw [if_pos hprefix, h]
    simp

lemma valueOf_line (var value : String) : valueOf var (var ++ "=" ++ value) = some value := by
  rw [valueOf_eq_some]
  simp

lemma Names.getVar (h : Names file var value) : getVar file var = value := by
  obtain ⟨line, hline, hvalue⟩ := h.there
  rw [Deploy.getVar]
  cases hfind : file.findSome? (valueOf var) with
  | none =>
    rw [List.findSome?_eq_none_iff] at hfind
    rw [hfind line hline] at hvalue
    cases hvalue
  | some v =>
    obtain ⟨line', hline', hv⟩ := List.exists_of_findSome?_eq_some hfind
    exact h.all line' hline' v hv

lemma Names.composeVar (h : Names file var value) : composeVar file var = value := by
  obtain ⟨line, hline, hvalue⟩ := h.there
  have hmem : value ∈ file.filterMap (valueOf var) := List.mem_filterMap.mpr ⟨line, hline, hvalue⟩
  rw [Deploy.composeVar, List.getLast?_eq_some_getLast (List.ne_nil_of_mem hmem), Option.getD_some]
  obtain ⟨line', hline', hv⟩ := List.mem_filterMap.mp
    (List.getLast_mem (List.ne_nil_of_mem hmem))
  exact h.all line' hline' _ hv

/-- What is written is what is read. -/
lemma names_setVar (file : EnvFile) (var value : String) :
    Names (setVar file var value) var value := by
  rw [setVar]
  split_ifs with hthere
  · obtain ⟨line, hline, hsome⟩ := List.any_eq_true.mp hthere
    refine ⟨⟨_, List.mem_map_of_mem hline, ?_⟩, fun line' hline' v hv => ?_⟩
    · rw [if_pos hsome, valueOf_line]
    · obtain ⟨old, -, rfl⟩ := List.mem_map.mp hline'
      split_ifs at hv with hold
      · rw [valueOf_line] at hv
        exact (Option.some.inj hv).symm
      · rw [hv] at hold
        exact absurd rfl hold
  · refine ⟨⟨_, List.mem_append_right _ (List.mem_singleton_self _), valueOf_line var value⟩,
      fun line hline v hv => ?_⟩
    rcases List.mem_append.mp hline with hline | hline
    · exact absurd (List.any_eq_true.mpr ⟨line, hline, by rw [hv]; rfl⟩) hthere
    · rw [List.mem_singleton.mp hline, valueOf_line] at hv
      exact (Option.some.inj hv).symm

/-- A line belongs to one variable. -/
lemma valueOf_api_of_web (h : valueOf Service.web.var line = some value) :
    valueOf Service.api.var line = none := by
  rw [Option.eq_none_iff_forall_ne_some]
  intro v hv
  rw [valueOf_eq_some] at h hv
  rw [h] at hv
  have htake := congrArg (List.take 15) hv
  simp [Service.var] at htake

lemma Names.setVar_web (h : Names file Service.api.var tag) :
    Names (setVar file Service.web.var value) Service.api.var tag := by
  have hnew : valueOf Service.api.var (Service.web.var ++ "=" ++ value) = none :=
    valueOf_api_of_web (valueOf_line _ value)
  obtain ⟨line, hline, htag⟩ := h.there
  rw [setVar]
  split_ifs with hthere
  · refine ⟨⟨line, List.mem_map.mpr ⟨line, hline, if_neg fun hsome => ?_⟩, htag⟩,
      fun line' hline' v hv => ?_⟩
    · obtain ⟨v, hv⟩ := Option.isSome_iff_exists.mp hsome
      rw [valueOf_api_of_web hv] at htag
      cases htag
    · obtain ⟨old, hold, rfl⟩ := List.mem_map.mp hline'
      split_ifs at hv with hweb
      · rw [hnew] at hv
        cases hv
      · exact h.all old hold v hv
  · refine ⟨⟨line, List.mem_append_left _ hline, htag⟩, fun line' hline' v hv => ?_⟩
    rcases List.mem_append.mp hline' with hline' | hline'
    · exact h.all line' hline' v hv
    · rw [List.mem_singleton.mp hline', hnew] at hv
      cases hv

end EnvFile

/-! ### Images whose migrations are recorded -/

/-- Every migration of the image of a tag is recorded, with its checksum. -/
def Ready (images : String → List DirEntry) (migrations : SchemaMigrations env) (tag : String) :
    Prop :=
  ∃ files, resolveMigrationFiles env false (images tag) [] = some files ∧
    ∀ file ∈ files.files, ⟨file.version, some file.checksum⟩ ∈ migrations.rows

section Ready

variable {images : String → List DirEntry} {migrations : SchemaMigrations env} {tag : String}

lemma Ready.mono (h : Ready images migrations tag) {migrations' : SchemaMigrations env}
    (hrows : ∀ row ∈ migrations.rows, row.checksum.isSome → row ∈ migrations'.rows) :
    Ready images migrations' tag := by
  obtain ⟨files, hfiles, hall⟩ := h
  exact ⟨files, hfiles, fun file hfile => hrows _ (hall file hfile) rfl⟩

/-- A line that shows no pending and no changed file is that of a recorded one. -/
lemma mem_of_statusLine {applied : List SchemaMigration} {file : MigrationFile}
    (hchecksums : ∀ row ∈ applied, row.checksum.isSome)
    (hline : needsMigrations [statusLine applied file] = false) :
    ⟨file.version, some file.checksum⟩ ∈ applied := by
  cases hstored : storedOf applied file.version with
  | none => simp [needsMigrations, statusLine, hstored] at hline
  | some stored =>
    obtain ⟨row, hfind, rfl⟩ := Option.map_eq_some_iff.mp hstored
    have hmem := List.mem_of_find?_eq_some hfind
    have hversion : row.version = file.version := by simpa using List.find?_some hfind
    obtain ⟨checksum, hchecksum⟩ := Option.isSome_iff_exists.mp (hchecksums row hmem)
    rw [hchecksum] at hstored
    have hsame : checksum = file.checksum := by
      by_contra hne
      simp [needsMigrations, statusLine, hstored, hne] at hline
    rw [← hversion, ← hsame, ← hchecksum]
    exact hmem

/-- What the check lets through is ready. -/
lemma ready_of_status (hchecksums : ∀ row ∈ migrations.rows, row.checksum.isSome)
    {lines : List String}
    (hstatus : ((resolveMigrationFiles env false (images tag) []).map fun files =>
      printStatus files.files migrations.rows) = some lines)
    (hlines : needsMigrations lines = false) : Ready images migrations tag := by
  obtain ⟨files, hfiles, rfl⟩ := Option.map_eq_some_iff.mp hstatus
  refine ⟨files, hfiles, fun file hfile => mem_of_statusLine hchecksums ?_⟩
  rw [needsMigrations, List.any_eq_false] at hlines
  rw [needsMigrations, List.any_cons, List.any_nil, Bool.or_false]
  exact Bool.eq_false_iff.mpr (hlines _ (List.mem_map_of_mem hfile))

end Ready

/-! ### Every run -/

/-- `.env` names one valid tag for the API, and its image is ready unless the release under way has
not come so far; the container's image is ready; and so is the image that a release goes back to. -/
structure State.Inv (images : String → List DirEntry) (s : State env) : Prop where
  checksums : ∀ row ∈ s.db.migrations.rows, row.checksum.isSome
  running : ∀ tag, s.running .api = some tag → Ready images s.db.migrations tag
  named : ∃ tag, validTag tag ∧ Names s.file Service.api.var tag ∧
    (s.unchecked = false → Ready images s.db.migrations tag)
  prev : ∀ r, s.release = some r → r.svc = .api →
    validTag r.prev ∧ Ready images s.db.migrations r.prev

section Inv

variable {images : String → List DirEntry} {s s' : State env} {r : Release} {svc : Service}
  {tag : String} {outcome : UpOutcome}

lemma setTag_eq_some (hs : s.setTag svc tag = some s') :
    s' = { s with file := setVar s.file svc.var tag } := by
  simp only [State.setTag] at hs
  split_ifs at hs
  exact (Option.some.inj hs).symm

/-- The old tag is back, and nothing is under way, or the container of the old tag. -/
lemma State.Inv.restore (h : s.Inv images) (hr : s.release = some r)
    (hs : s.setTag r.svc r.prev = some s') {release : Option Release}
    (hrelease : ∀ r', release = some r' → r'.svc = r.svc ∧ r'.prev = r.prev)
    (hchecked : ({ s' with release := release } : State env).unchecked = false) :
    ({ s' with release := release } : State env).Inv images := by
  obtain ⟨tag, hvalid, hnames, hready⟩ := h.named
  cases setTag_eq_some hs
  refine ⟨h.checksums, h.running, ?_, fun r' hr' hsvc => ?_⟩
  · cases hsvc : r.svc with
    | api =>
      obtain ⟨hprev, hback⟩ := h.prev r hr hsvc
      exact ⟨r.prev, hprev, names_setVar _ _ _, fun _ => hback⟩
    | web =>
      refine ⟨tag, hvalid, hnames.setVar_web, fun _ => hready ?_⟩
      simp [State.unchecked, hr, hsvc]
  · obtain ⟨hsame, hprev⟩ := hrelease r' hr'
    rw [hprev]
    exact h.prev r hr (hsame ▸ hsvc)

lemma State.Inv.giveUp (h : s.Inv images) (hr : s.release = some r)
    (hs : s.giveUp r = some s') : s'.Inv images := by
  obtain ⟨t, ht, rfl⟩ := Option.map_eq_some_iff.mp hs
  exact h.restore hr ht (fun r' hr' => by cases hr') rfl

/-- A release begins where none is under way. -/
lemma State.Inv.begin (h : s.Inv images) (hs : s.begin svc tag = some s') : s'.Inv images := by
  simp only [State.begin] at hs
  split at hs
  · cases hs
  · next hnone =>
    obtain ⟨old, hvalid, hnames, hready⟩ := h.named
    have hold : Ready images s.db.migrations old := hready (by simp [State.unchecked, hnone])
    split_ifs at hs with htag hsame
    · cases hs
      exact h
    · obtain ⟨t, ht, rfl⟩ := Option.map_eq_some_iff.mp hs
      cases setTag_eq_some ht
      cases svc with
      | api =>
        refine ⟨h.checksums, h.running, ⟨tag, htag, names_setVar _ _ _, ?_⟩, ?_⟩
        · intro hchecked
          simp [State.unchecked] at hchecked
        · intro r hr _
          cases hr
          rw [hnames.getVar]
          exact ⟨hvalid, hold⟩
      | web =>
        refine ⟨h.checksums, h.running, ⟨old, hvalid, hnames.setVar_web, fun _ => hold⟩, ?_⟩
        intro r hr hsvc
        cases hr
        cases hsvc
    · cases hs
      exact h

/-- A release goes on; what `.env` names is checked by then, or was so before. -/
lemma State.Inv.setStage (h : s.Inv images) (hr : s.release = some r) {stage : Stage}
    (hready : (s.setStage r stage).unchecked = false → s.unchecked = true →
      ∀ tag, Names s.file Service.api.var tag → Ready images s.db.migrations tag) :
    (s.setStage r stage).Inv images := by
  obtain ⟨tag, hvalid, hnames, hnamed⟩ := h.named
  refine ⟨h.checksums, h.running, ⟨tag, hvalid, hnames, fun hchecked => ?_⟩, ?_⟩
  · cases hbefore : s.unchecked with
    | false => exact hnamed hbefore
    | true => exact hready hchecked hbefore tag hnames
  · intro r' hr' hsvc
    cases hr'
    exact h.prev r hr hsvc

/-- It ends where what `.env` names is checked. -/
lemma State.Inv.finish (h : s.Inv images) (hchecked : s.unchecked = false) :
    s.finish.Inv images := by
  obtain ⟨tag, hvalid, hnames, hready⟩ := h.named
  exact ⟨h.checksums, h.running, ⟨tag, hvalid, hnames, fun _ => hready hchecked⟩,
    fun r hr => by cases hr⟩

/-- The container is swapped for one of the image that `.env` names. -/
lemma State.Inv.up (h : s.Inv images) (hchecked : svc = .api → s.unchecked = false) :
    (s.up svc outcome).Inv images := by
  obtain ⟨tag, hvalid, hnames, hready⟩ := h.named
  simp only [State.up]
  split_ifs
  · exact h
  · refine ⟨h.checksums, fun image himage => ?_, h.named, h.prev⟩
    by_cases hsvc : svc = .api
    · subst hsvc
      simp only [Function.update_self, hnames.composeVar] at himage
      cases outcome with
      | done | failedAfter =>
        cases himage
        exact hready (hchecked rfl)
      | unchanged => exact h.running image himage
      | gone => cases himage
    · simp only [Function.update_of_ne (Ne.symm hsvc)] at himage
      exact h.running image himage

lemma release_up (s : State env) (svc : Service) (outcome : UpOutcome) :
    (s.up svc outcome).release = s.release := by
  simp only [State.up]
  split_ifs <;> rfl

lemma unchecked_up (s : State env) (svc : Service) (outcome : UpOutcome) :
    (s.up svc outcome).unchecked = s.unchecked := by
  simp only [State.up]
  split_ifs <;> rfl

/-- The last a release does of a container. -/
lemma State.Inv.finish_up (h : s.Inv images) (hchecked : s.unchecked = false) :
    (s.up svc outcome).finish.Inv images :=
  (h.up fun _ => hchecked).finish ((unchecked_up _ _ _).trans hchecked)

/-- Migrations go on beside it. -/
lemma State.Inv.migrations (h : s.Inv images) {a : Migrations.Runner.Action}
    {db : Migrations.Runner.State env} (hs : Migrations.Runner.step s.db a = some db) :
    ({ s with db := db } : State env).Inv images := by
  have hrows : ∀ row ∈ s.db.migrations.rows, row.checksum.isSome → row ∈ db.migrations.rows :=
    fun row hrow hchecksum => mem_migrations_of_step hs hrow hchecksum
  obtain ⟨tag, hvalid, hnames, hready⟩ := h.named
  exact ⟨checksums_of_step hs h.checksums, fun tag htag => (h.running tag htag).mono hrows,
    ⟨tag, hvalid, hnames, fun hchecked => (hready hchecked).mono hrows⟩,
    fun r hr hsvc => (h.prev r hr hsvc).imp id fun hback => hback.mono hrows⟩

lemma inv_step {a : Action} (h : s.Inv images) (hok : takesUnchecked s a = false)
    (hs : step images s a = some s') : s'.Inv images := by
  cases a with
  | release svc tag => exact h.begin hs
  | ssh command =>
    simp only [step] at hs
    split at hs
    · exact h.begin hs
    · cases hs
      exact h
  | pull ok =>
    simp only [step] at hs
    split at hs
    · next r hr =>
      split_ifs at hs with htagged hpulled hapi
      · cases hs
        refine h.setStage hr fun hchecked => ?_
        simp [State.setStage, State.unchecked, hapi] at hchecked
      · cases hs
        refine h.setStage hr fun _ hbefore => ?_
        simp [State.unchecked, hr, hapi] at hbefore
      · exact h.giveUp hr hs
    · cases hs
  | status ok =>
    simp only [step] at hs
    split at hs
    · next r hr =>
      split_ifs at hs with hpulled hok
      · split at hs
        · next lines hlines =>
          split_ifs at hs with hneeds
          · exact h.giveUp hr hs
          · cases hs
            refine h.setStage hr fun _ _ tag hnames => ?_
            rw [State.migrationStatus, hnames.composeVar] at hlines
            exact ready_of_status h.checksums hlines (by simpa using hneeds)
        · exact h.giveUp hr hs
      · exact h.giveUp hr hs
    · cases hs
  | up outcome =>
    simp only [step] at hs
    split at hs
    · next r hr =>
      split_ifs at hs with hchecked hdone hback
      · have hbefore : s.unchecked = false := by simp [State.unchecked, hr, hchecked]
        cases hs
        refine (h.up fun _ => hbefore).setStage ((release_up s r.svc outcome).trans hr)
          fun _ hafter => ?_
        rw [unchecked_up, hbefore] at hafter
        cases hafter
      · cases hs
        exact h.finish_up (by simp [State.unchecked, hr, hchecked])
      · cases hs
        exact h.finish_up (by simp [State.unchecked, hr, hback])
    · cases hs
  | health ok =>
    simp only [step] at hs
    split at hs
    · next r hr =>
      split_ifs at hs with hstarted hhealthy
      · cases hs
        exact h.finish (by simp [State.unchecked, hr, hstarted])
      · obtain ⟨t, ht, rfl⟩ := Option.map_eq_some_iff.mp hs
        refine h.restore hr ht (fun r' hr' => ?_) (by simp [State.unchecked])
        cases hr'
        exact ⟨rfl, rfl⟩
    · cases hs
  | interrupt =>
    simp only [step] at hs
    split at hs
    · cases hs
      exact h.finish hok
    · cases hs
  | composeUp svc outcome =>
    cases hs
    apply h.up
    rintro rfl
    exact hok
  | migrations a =>
    obtain ⟨db, hdb, rfl⟩ := Option.map_eq_some_iff.mp hs
    exact h.migrations hdb

/-- As `deploy.sh init` leaves the stack: `.env` names one valid tag for the API, the migrations of
its image are recorded, and the container, if there is one, is of this image. -/
structure Installed (images : String → List DirEntry) (s : State env) : Prop where
  idle : s.release = none
  checksums : ∀ row ∈ s.db.migrations.rows, row.checksum.isSome
  named : ∃ tag, validTag tag ∧ Names s.file Service.api.var tag ∧
    Ready images s.db.migrations tag ∧ ∀ image, s.running .api = some image → image = tag

lemma Installed.inv (h : Installed images s) : s.Inv images := by
  obtain ⟨tag, hvalid, hnames, hready, hrunning⟩ := h.named
  refine ⟨h.checksums, fun image himage => ?_, ⟨tag, hvalid, hnames, fun _ => hready⟩,
    fun r hr => ?_⟩
  · rw [hrunning image himage]
    exact hready
  · rw [h.idle] at hr
    cases hr

end Inv

/-! ### A release that needs a migration -/

open Migrations.Runner (plainEnv has)

/-- The second release brings a migration. -/
def releasedImages (tag : String) : List DirEntry :=
  if tag = "v1" ∨ tag = "v1.1" then [⟨"001.sql", true, "a"⟩]
  else [⟨"001.sql", true, "a"⟩, ⟨"002.sql", true, "b"⟩]

def installedStack : State plainEnv where
  file := ["SITE_URL=https://x", "SAFEER_API_TAG=v1", "SAFEER_WEB_TAG=v1"]
  running _ := some "v1"
  release := none
  db := .init ⟨[⟨"001.sql", some "a"⟩], by decide⟩

lemma installed_stack : Installed releasedImages installedStack := by
  have hfiles : (resolveMigrationFiles plainEnv false (releasedImages "v1") []).map
      (fun files => files.files) = some [⟨"001.sql", "a", "a"⟩] := by decide +kernel
  obtain ⟨files, hresolve, hlist⟩ := Option.map_eq_some_iff.mp hfiles
  refine ⟨rfl, by decide, "v1", by decide, ⟨⟨"SAFEER_API_TAG=v1", by decide, by decide⟩, by decide⟩,
    ⟨files, hresolve, fun file hfile => ?_⟩, fun image himage => (Option.some.inj himage).symm⟩
  rw [hlist, List.mem_singleton] at hfile
  subst hfile
  decide

/-- The release is refused, and made after the migration, with restarts by hand beside it; the next
one does not become healthy. -/
def refusedThenMigrated : List Action :=
  [.release .api "v2", .pull true, .status true,
      .migrations (.start false (releasedImages "v2") [])] ++
    List.replicate 9 (.migrations (.proceed 0)) ++
    [.release .api "v2", .pull true, .composeUp .web .done, .status true, .composeUp .api .gone,
      .up .done, .health true,
      .release .api "v3", .pull true, .status true, .up .done, .health false, .up .done]

/-- A release that is cut off too early leaves its tag in `.env`, and the next one goes back to
it. -/
example : ((run (step releasedImages) installedStack [.release .api "v2", .pull true, .interrupt,
      .release .api "v1.1", .pull true, .status true, .up .done, .health false, .up .done]).map
    fun s => (s.running .api, has s.db.migrations.rows "002.sql")) = some (some "v2", false) := by
  decide +kernel

/-- A start by hand between the tag and the answer runs it too, and the refusal leaves the container
as it is. -/
example : ((run (step releasedImages) installedStack
      [.release .api "v2", .pull true, .composeUp .api .done, .status true]).map
    fun s => (s.running .api, getVar s.file Service.api.var, has s.db.migrations.rows "002.sql"))
      = some (some "v2", "v1", false) := by
  decide +kernel

end SafeerApi.Deploy
