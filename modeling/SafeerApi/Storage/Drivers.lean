import SafeerApi.Lib.FileTree
import SafeerApi.Lib.Simulation
import SafeerApi.Lib.SlashPath
import SafeerApi.Media.Upload

/-!
# The storage drivers (`local-storage.driver.ts`, `s3-storage.driver.ts`)

One driver keeps the files in a directory, the other in a bucket. The first takes a key for a path,
and refuses what does not lie below its root; its directories are a tree without links. The second
sends one command for each call, and tells from the error whether the object was missing.
-/

namespace SafeerApi.Storage

open Common Lib
open Lib.SlashPath (Segment)
open Media (Buffer)

inductive StorageOp where
  | put (key : String) (buffer : Buffer)
  | getStream (key : String)
  | remove (key : String)
  | healthCheck
  deriving DecidableEq

/-- The key of a call. -/
def StorageOp.key : StorageOp → Option String
  | .put key _ | .getStream key | .remove key => some key
  | .healthCheck => none

/-- A call with one of some keys. -/
def StorageOp.On (keys : String → Prop) (op : StorageOp) : Prop :=
  ∃ key, op.key = some key ∧ keys key

/-- What a call resolves or rejects with, and for a removal whether an error was logged. The stream
of a directory opens, and fails when it is read. -/
inductive Answer where
  | done (logged : Bool)
  | stream (content : Option Buffer)
  | refused (problem : Problem)
  | objectNotFound (key : String)
  | failed
  | healthy (ok : Bool)
  deriving DecidableEq

/-! ### Files -/

abbrev Files := FileTree Segment Buffer

/-- The working directory, `STORAGE_ROOT`, and whether the process may write there: at the root,
below it, and where directories above it are to be made. -/
structure LocalEnv where
  cwd : List Segment
  cwd_plain : ∀ s ∈ cwd, s.Plain
  storageRoot : String
  writable : Bool

/-- `path.resolve(STORAGE_ROOT)` -/
def LocalEnv.root (env : LocalEnv) : List Segment :=
  SlashPath.resolve env.cwd env.storageRoot.toList

def invalidKey : Problem := ⟨400, .validationFailed, "Invalid storage key", [], []⟩

/-- `LocalStorageDriver.resolve` -/
def LocalEnv.resolve (env : LocalEnv) (key : String) : Except Problem (List Segment) :=
  let resolved := SlashPath.resolve env.root key.toList
  if SlashPath.render resolved ≠ SlashPath.render env.root ∧
      ¬ SlashPath.render env.root ++ ['/'] <+: SlashPath.render resolved then
    .error invalidKey
  else .ok resolved

/-- An operation on the files that needs the right to write, or does not because it would change
nothing. -/
def LocalEnv.allow (env : LocalEnv) (free : Bool) (result : Except FsError Files) :
    Except FsError Files :=
  if env.writable || free then result else .error .denied

/-- `mkdir(path, { recursive: true })` -/
def LocalEnv.mkdir (env : LocalEnv) (files : Files) (path : List Segment) : Except FsError Files :=
  env.allow (files.isDir path) (files.mkdirAll path)

def LocalEnv.writeFile (env : LocalEnv) (files : Files) (path : List Segment) (buffer : Buffer) :
    Except FsError Files :=
  env.allow false (files.writeFile path buffer)

def LocalEnv.unlink (env : LocalEnv) (files : Files) (path : List Segment) : Except FsError Files :=
  env.allow (files.node path).isNone (files.unlink path)

def LocalEnv.perform (env : LocalEnv) (files : Files) : StorageOp → Answer × Files
  | .put key buffer =>
    match env.resolve key with
    | .error problem => (.refused problem, files)
    | .ok path =>
      match env.mkdir files path.dropLast with
      | .error _ => (.failed, files)
      | .ok files =>
        match env.writeFile files path buffer with
        | .error _ => (.failed, files)
        | .ok files => (.done false, files)
  | .getStream key =>
    match env.resolve key with
    | .error problem => (.refused problem, files)
    | .ok path =>
      match files.openAt path with
      | .ok (.file content) => (.stream (some content), files)
      | .ok .dir => (.stream none, files)
      | .error .notFound => (.objectNotFound key, files)
      | .error _ => (.failed, files)
  -- `remove` catches everything, the refused key too, and logs all but a file that is gone
  | .remove key =>
    match env.resolve key with
    | .error _ => (.done true, files)
    | .ok path =>
      match env.unlink files path with
      | .error .notFound => (.done false, files)
      | .error _ => (.done true, files)
      | .ok files => (.done false, files)
  | .healthCheck =>
    match env.mkdir files env.root with
    | .error _ => (.healthy false, files)
    | .ok files => (.healthy env.writable, files)

/-! ### Objects -/

/-- What the driver reads of what the client throws. -/
structure S3Error where
  name : Option String
  httpStatusCode : Option ℕ

/-- The commands of the client, each with a bucket. The state is the service's and the network's. -/
structure S3Client (σ : Type*) where
  putObject : σ → String → String → Buffer → Except S3Error Unit × σ
  getObject : σ → String → String → Except S3Error Buffer × σ
  deleteObject : σ → String → String → Except S3Error Unit × σ
  headBucket : σ → String → Except S3Error Unit × σ

/-- The client and `S3_BUCKET_PUBLIC`. -/
structure S3Env (σ : Type*) where
  client : S3Client σ
  bucketName : String

def isNotFound (err : S3Error) : Bool :=
  err.name = some "NoSuchKey" || err.name = some "NotFound" || err.httpStatusCode = some 404

/-- `S3StorageDriver` -/
def S3Env.perform {σ : Type*} (env : S3Env σ) (s : σ) : StorageOp → Answer × σ
  | .put key buffer =>
    match env.client.putObject s env.bucketName key buffer with
    | (.ok _, s) => (.done false, s)
    | (.error _, s) => (.failed, s)
  | .getStream key =>
    match env.client.getObject s env.bucketName key with
    | (.ok body, s) => (.stream (some body), s)
    | (.error err, s) => (if isNotFound err then .objectNotFound key else .failed, s)
  -- what cannot be deleted is logged, and the call resolves all the same
  | .remove key =>
    match env.client.deleteObject s env.bucketName key with
    | (.ok _, s) => (.done false, s)
    | (.error err, s) => (.done (!isNotFound err), s)
  | .healthCheck =>
    match env.client.headBucket s env.bucketName with
    | (.ok _, s) => (.healthy true, s)
    | (.error _, s) => (.healthy false, s)

/-- What an S3 service documents of a bucket that can be reached, with credentials that may read,
write and list it, and with the objects that a state of the service holds: a put replaces one object,
a read finds what is there, and a deletion removes one object. A missing object is told by its name
or by the status 404; to delete one is no error, or a 404. -/
structure S3Client.Serves {σ : Type*} (client : S3Client σ) (bucketName : String)
    (keys : String → Prop) (objects : σ → String → Option Buffer) : Prop where
  put : ∀ s key buffer, keys key → ∃ s', client.putObject s bucketName key buffer = (.ok (), s') ∧
    objects s' = Function.update (objects s) key (some buffer)
  get_some : ∀ s key body, keys key → objects s key = some body →
    ∃ s', client.getObject s bucketName key = (.ok body, s') ∧ objects s' = objects s
  get_none : ∀ s key, keys key → objects s key = none →
    ∃ err s', client.getObject s bucketName key = (.error err, s') ∧ objects s' = objects s ∧
      (err.name = some "NoSuchKey" ∨ err.httpStatusCode = some 404)
  delete_some : ∀ s key body, keys key → objects s key = some body →
    ∃ s', client.deleteObject s bucketName key = (.ok (), s') ∧
      objects s' = Function.update (objects s) key none
  delete_none : ∀ s key, keys key → objects s key = none →
    ∃ result s', client.deleteObject s bucketName key = (result, s') ∧ objects s' = objects s ∧
      ∀ err, result = .error err → err.httpStatusCode = some 404

/-! ### Nothing outside the root -/

section Confined

variable {env : LocalEnv} {files files' : Files} {path : List Segment} {key : String}

lemma root_plain (env : LocalEnv) : ∀ s ∈ env.root, s.Plain :=
  SlashPath.resolve_plain env.cwd_plain _

/-- An accepted key leads below the root. -/
lemma root_prefix_of_resolve (h : env.resolve key = .ok path) : env.root <+: path := by
  simp only [LocalEnv.resolve] at h
  split_ifs at h with hout
  cases h
  have hplain := SlashPath.resolve_plain (root_plain env) key.toList
  rw [not_and_or, not_not, not_not] at hout
  rcases hout with hroot | hbelow
  · rw [SlashPath.render_inj hplain (root_plain env) hroot]
  · obtain ⟨-, seg, rest, hpath⟩ :=
      SlashPath.exists_of_render_prefix (root_plain env) hplain hbelow
    exact ⟨seg :: rest, hpath.symm⟩

/-- Outside a root nothing changes, but that directories above it may be made. -/
def Confined (root : List Segment) (files files' : Files) : Prop :=
  ∀ p, ¬ root <+: p → files'.node p = files.node p ∨
    (p <+: root ∧ files.node p = none ∧ files'.node p = some .dir)

lemma Confined.refl (root : List Segment) (files : Files) : Confined root files files :=
  fun _ _ => .inl rfl

lemma Confined.trans {root : List Segment} {f₁ f₂ f₃ : Files} (h : Confined root f₁ f₂)
    (h' : Confined root f₂ f₃) : Confined root f₁ f₃ := by
  intro p hp
  rcases h p hp with heq | ⟨habove, hnone, hdir⟩
  · rw [← heq]
    exact h' p hp
  · rcases h' p hp with heq' | ⟨-, hnone', -⟩
    · exact .inr ⟨habove, hnone, heq'.trans hdir⟩
    · rw [hdir] at hnone'
      cases hnone'

/-- Directories above what lies below the root are made. -/
lemma confined_mkdirAll {root p : List Segment} (hpath : root <+: p) {q : List Segment}
    (hq : q <+: p) (h : files.mkdirAll q = .ok files') : Confined root files files' := by
  intro r hr
  rw [FileTree.node_mkdirAll h]
  split_ifs with hnew
  · refine .inr ⟨?_, hnew.2, rfl⟩
    exact (List.prefix_or_prefix_of_prefix (hnew.1.trans hq) hpath).resolve_right hr
  · exact .inl rfl

/-- What is allowed is done. -/
lemma eq_of_allow {free : Bool} {result : Except FsError Files}
    (h : env.allow free result = .ok files) : result = .ok files := by
  rw [LocalEnv.allow] at h
  split_ifs at h
  exact h

lemma confined_perform (env : LocalEnv) (files : Files) (op : StorageOp) :
    Confined env.root files (env.perform files op).2 := by
  cases op with
  | put key buffer =>
    simp only [LocalEnv.perform]
    split
    · exact .refl _ _
    · next path hpath =>
      have hroot := root_prefix_of_resolve hpath
      split
      · exact .refl _ _
      · next made hmade =>
        have hmkdir := confined_mkdirAll hroot (List.dropLast_prefix path) (eq_of_allow hmade)
        split
        · exact hmkdir
        · next written hwritten =>
          refine hmkdir.trans fun p hp => .inl ?_
          rw [FileTree.node_writeFile (eq_of_allow hwritten), if_neg]
          rintro rfl
          exact hp hroot
  | getStream key =>
    simp only [LocalEnv.perform]
    split
    · exact .refl _ _
    · split <;> exact .refl _ _
  | remove key =>
    simp only [LocalEnv.perform]
    split
    · exact .refl _ _
    · next path hpath =>
      split
      · exact .refl _ _
      · exact .refl _ _
      · next removed hremoved =>
        refine fun p hp => .inl ?_
        rw [FileTree.node_unlink (eq_of_allow hremoved), if_neg]
        rintro rfl
        exact hp (root_prefix_of_resolve hpath)
  | healthCheck =>
    simp only [LocalEnv.perform]
    split
    · exact .refl _ _
    · next made hmade =>
      exact confined_mkdirAll (List.prefix_refl _) (List.prefix_refl _) (eq_of_allow hmade)

/-- The places on the way to a root and below it. -/
def Near (root p : List Segment) : Prop := root <+: p ∨ p <+: root

lemma near_of_above {root p q : List Segment} (hpath : root <+: p) (hq : q <+: p) : Near root q :=
  (List.prefix_or_prefix_of_prefix hq hpath).symm

/-- What two trees agree on the rights leave alone. -/
lemma allow_congr (env : LocalEnv) {S : List Segment → Prop} {free free' : Bool}
    {result result' : Except FsError Files} (hfree : free = free')
    (h : (∃ e, result = .error e ∧ result' = .error e) ∨
      ∃ u u', result = .ok u ∧ result' = .ok u' ∧ ∀ q, S q → u.node q = u'.node q) :
    (∃ e, env.allow free result = .error e ∧ env.allow free' result' = .error e) ∨
      ∃ u u', env.allow free result = .ok u ∧ env.allow free' result' = .ok u' ∧
        ∀ q, S q → u.node q = u'.node q := by
  subst hfree
  by_cases hallowed : (env.writable || free) = true
  · simpa only [LocalEnv.allow, if_pos hallowed] using h
  · exact .inl ⟨.denied, if_neg hallowed, if_neg hallowed⟩

lemma mkdir_alike (env : LocalEnv) {S : List Segment → Prop}
    (h : ∀ q, S q → files.node q = files'.node q) (hpath : ∀ q, q <+: path → S q) :
    (∃ e, env.mkdir files path = .error e ∧ env.mkdir files' path = .error e) ∨
      ∃ u u', env.mkdir files path = .ok u ∧ env.mkdir files' path = .ok u' ∧
        ∀ q, S q → u.node q = u'.node q := by
  refine allow_congr env ?_ (FileTree.mkdirAll_congr h hpath)
  rw [FileTree.isDir, FileTree.isDir, h path (hpath path (List.prefix_refl path))]

lemma writeFile_alike (env : LocalEnv) {S : List Segment → Prop}
    (h : ∀ q, S q → files.node q = files'.node q) (hpath : ∀ q, q <+: path → S q)
    (buffer : Buffer) :
    (∃ e, env.writeFile files path buffer = .error e ∧
      env.writeFile files' path buffer = .error e) ∨
      ∃ u u', env.writeFile files path buffer = .ok u ∧ env.writeFile files' path buffer = .ok u' ∧
        ∀ q, S q → u.node q = u'.node q :=
  allow_congr env rfl (FileTree.writeFile_congr h hpath buffer)

lemma unlink_alike (env : LocalEnv) {S : List Segment → Prop}
    (h : ∀ q, S q → files.node q = files'.node q) (hpath : ∀ q, q <+: path → S q) :
    (∃ e, env.unlink files path = .error e ∧ env.unlink files' path = .error e) ∨
      ∃ u u', env.unlink files path = .ok u ∧ env.unlink files' path = .ok u' ∧
        ∀ q, S q → u.node q = u'.node q := by
  refine allow_congr env ?_ (FileTree.unlink_congr h hpath)
  rw [h path (hpath path (List.prefix_refl path))]

/-- Files that agree near the root are answered alike, and still agree. -/
lemma perform_alike (h : ∀ p, Near env.root p → files.node p = files'.node p) (op : StorageOp) :
    (env.perform files op).1 = (env.perform files' op).1 ∧
      ∀ p, Near env.root p →
        (env.perform files op).2.node p = (env.perform files' op).2.node p := by
  cases op with
  | put key buffer =>
    simp only [LocalEnv.perform]
    cases hpath : env.resolve key with
    | error problem => exact ⟨rfl, h⟩
    | ok path =>
      have hroot := root_prefix_of_resolve hpath
      rcases mkdir_alike env h fun q hq =>
          near_of_above hroot (hq.trans (List.dropLast_prefix path)) with
        ⟨e, he, he'⟩ | ⟨made, made', hmade, hmade', hagree⟩
      · simp only [he, he']
        exact ⟨trivial, h⟩
      · simp only [hmade, hmade']
        rcases writeFile_alike env hagree (fun q hq => near_of_above hroot hq) buffer with
          ⟨e, he, he'⟩ | ⟨written, written', hwritten, hwritten', hagree'⟩
        · simp only [he, he']
          exact ⟨trivial, hagree⟩
        · simp only [hwritten, hwritten']
          exact ⟨trivial, hagree'⟩
  | getStream key =>
    simp only [LocalEnv.perform]
    cases hpath : env.resolve key with
    | error problem => exact ⟨rfl, h⟩
    | ok path =>
      have hroot := root_prefix_of_resolve hpath
      have hopen : files.openAt path = files'.openAt path :=
        FileTree.openAt_congr fun q hq => h q (near_of_above hroot hq)
      simp only [← hopen]
      split <;> exact ⟨rfl, h⟩
  | remove key =>
    simp only [LocalEnv.perform]
    cases hpath : env.resolve key with
    | error problem => exact ⟨rfl, h⟩
    | ok path =>
      have hroot := root_prefix_of_resolve hpath
      rcases unlink_alike env h fun q hq => near_of_above hroot hq with
        ⟨e, he, he'⟩ | ⟨removed, removed', hremoved, hremoved', hagree⟩
      · simp only [he, he']
        cases e <;> exact ⟨rfl, h⟩
      · simp only [hremoved, hremoved']
        exact ⟨trivial, hagree⟩
  | healthCheck =>
    simp only [LocalEnv.perform]
    rcases mkdir_alike env h fun q hq => .inr hq with
      ⟨e, he, he'⟩ | ⟨made, made', hmade, hmade', hagree⟩
    · simp only [he, he']
      exact ⟨trivial, h⟩
    · simp only [hmade, hmade']
      exact ⟨trivial, hagree⟩

end Confined

/-! ### One store -/

/-- The segments of a key. -/
def segments (key : String) : List Segment := key.toList.splitOn '/'

/-- Keys that name files of their own, none of them below another one. -/
structure Flat (keys : String → Prop) : Prop where
  plain : ∀ key, keys key → ∀ s ∈ segments key, s.Plain
  apart : ∀ key key', keys key → keys key' → segments key <+: segments key' → key = key'

/-- The root holds what the bucket holds, and no file is in the way of a key. -/
structure Holds (root : List Segment) (keys : String → Prop) (files : Files)
    (bucket : String → Option Buffer) : Prop where
  file : ∀ key, keys key → files.node (root ++ segments key) = (bucket key).map .file
  clear : ∀ key, keys key → ∀ q, q <+: root ++ segments key → q ≠ root ++ segments key →
    files.node q = none ∨ files.node q = some .dir

section Agree

variable {σ : Type*} {env : LocalEnv} {s3 : S3Env σ} {objects : σ → String → Option Buffer}
  {files : Files} {bucket : String → Option Buffer} {s : σ} {keys : String → Prop} {key : String}

lemma segments_ne_nil (key : String) : segments key ≠ [] := List.splitOn_ne_nil _ _

lemma resolve_of_flat (hroot : env.root ≠ []) (hkeys : Flat keys) (hkey : keys key) :
    env.resolve key = .ok (env.root ++ segments key) := by
  have hresolved : SlashPath.resolve env.root key.toList = env.root ++ segments key :=
    SlashPath.resolve_of_plain (hkeys.plain key hkey)
  have hplain : ∀ s ∈ env.root ++ segments key, s.Plain := by
    rw [← hresolved]
    exact SlashPath.resolve_plain (root_plain env) _
  obtain ⟨seg, rest, hsegments⟩ := List.exists_cons_of_ne_nil (segments_ne_nil key)
  rw [LocalEnv.resolve, hresolved, if_neg]
  rw [hsegments] at hplain ⊢
  exact fun hout => hout.2 (SlashPath.render_prefix hroot (root_plain env) seg hplain)

lemma Flat.eq_of_prefix (hkeys : Flat keys) {key' : String} (hkey : keys key) (hkey' : keys key')
    {root : List Segment} (h : root ++ segments key <+: root ++ segments key') : key = key' :=
  hkeys.apart key key' hkey hkey' (List.prefix_append_right_inj root |>.mp h)

/-- A key is set or emptied, and directories above its file are made. -/
lemma Holds.set {root : List Segment} (h : Holds root keys files bucket) (hkeys : Flat keys)
    (hkey : keys key) {files' : Files} {content : Option Buffer}
    (hself : files'.node (root ++ segments key) = content.map .file)
    (hother : ∀ q, q ≠ root ++ segments key → files'.node q = files.node q ∨
      (q <+: root ++ segments key ∧ files'.node q = some .dir)) :
    Holds root keys files' (Function.update bucket key content) := by
  refine ⟨fun key' hkey' => ?_, fun key' hkey' q hq hne => ?_⟩
  · by_cases heq : key' = key
    · subst heq
      rw [hself, Function.update_self]
    · rw [Function.update_of_ne heq, ← h.file key' hkey']
      have hapart : ∀ hprefix : root ++ segments key' <+: root ++ segments key, False :=
        fun hprefix => heq (hkeys.eq_of_prefix hkey' hkey hprefix)
      rcases hother (root ++ segments key') fun hpath => hapart (hpath ▸ List.prefix_refl _) with
        hsame | ⟨hbelow, -⟩
      · exact hsame
      · exact (hapart hbelow).elim
  · by_cases hpath : q = root ++ segments key
    · subst hpath
      obtain rfl := hkeys.eq_of_prefix hkey hkey' hq
      exact absurd rfl hne
    · rcases hother q hpath with hsame | ⟨-, hdir⟩
      · rw [hsame]
        exact h.clear key' hkey' q hq hne
      · exact .inr hdir

lemma allow_of_writable (hwritable : env.writable = true) (free : Bool)
    (result : Except FsError Files) : env.allow free result = result := by
  simp [LocalEnv.allow, hwritable]

/-- A file is written for the object that is put. -/
lemma holds_put (hwritable : env.writable = true)
    (hserves : s3.client.Serves s3.bucketName keys objects) (hroot : env.root ≠ [])
    (hkeys : Flat keys) (h : Holds env.root keys files (objects s)) (hkey : keys key)
    (buffer : Buffer) :
    (env.perform files (.put key buffer)).1 = (s3.perform s (.put key buffer)).1 ∧
      Holds env.root keys (env.perform files (.put key buffer)).2
        (objects (s3.perform s (.put key buffer)).2) := by
  have hfile := h.file key hkey
  have hne : env.root ++ segments key ≠ [] := by simp [segments_ne_nil]
  have hfree := not_prefix_dropLast hne
  have habove : ∀ q, q <+: (env.root ++ segments key).dropLast →
      files.node q = none ∨ files.node q = some .dir := by
    intro q hq
    refine h.clear key hkey q (hq.trans (List.dropLast_prefix _)) ?_
    rintro rfl
    exact hfree hq
  obtain ⟨made, hmade⟩ := FileTree.exists_mkdirAll habove
  have hnode : made.node (env.root ++ segments key) ≠ some .dir := by
    rw [FileTree.node_mkdirAll hmade, if_neg fun hand => hfree hand.1, hfile]
    cases objects s key <;> simp
  obtain ⟨written, hwritten⟩ := FileTree.exists_writeFile buffer hnode
    (FileTree.dir_mkdirAll hmade (List.prefix_refl _))
  obtain ⟨s', hput, hobjects⟩ := hserves.put s key buffer hkey
  simp only [LocalEnv.perform, resolve_of_flat hroot hkeys hkey, LocalEnv.mkdir,
    LocalEnv.writeFile, allow_of_writable hwritable, hmade, hwritten, S3Env.perform, hput, hobjects]
  refine ⟨trivial, h.set hkeys hkey (by simp [FileTree.node_writeFile hwritten]) fun q hq => ?_⟩
  rw [FileTree.node_writeFile hwritten, if_neg hq, FileTree.node_mkdirAll hmade]
  split_ifs with hnew
  · exact .inr ⟨hnew.1.trans (List.dropLast_prefix _), rfl⟩
  · exact .inl rfl

/-- A file that is not there is missing, for nothing is in its way. -/
lemma Holds.missing (h : Holds env.root keys files bucket) (hkey : keys key)
    (hnone : files.node (env.root ++ segments key) = none) :
    files.missing (env.root ++ segments key) = .notFound := by
  rw [FileTree.missing, if_neg]
  rw [Bool.not_eq_true, FileTree.blocked_eq_false]
  intro q hq
  by_cases hself : q = env.root ++ segments key
  · exact .inl (hself ▸ hnone)
  · exact h.clear key hkey q hq hself

lemma holds_getStream (hserves : s3.client.Serves s3.bucketName keys objects)
    (hroot : env.root ≠ []) (hkeys : Flat keys) (h : Holds env.root keys files (objects s))
    (hkey : keys key) :
    (env.perform files (.getStream key)).1 = (s3.perform s (.getStream key)).1 ∧
      Holds env.root keys (env.perform files (.getStream key)).2
        (objects (s3.perform s (.getStream key)).2) := by
  have hfile := h.file key hkey
  cases hobject : objects s key with
  | some body =>
    rw [hobject, Option.map_some] at hfile
    obtain ⟨s', hget, hobjects⟩ := hserves.get_some s key body hkey hobject
    simp only [LocalEnv.perform, resolve_of_flat hroot hkeys hkey, FileTree.openAt, hfile,
      S3Env.perform, hget, hobjects]
    exact ⟨trivial, h⟩
  | none =>
    rw [hobject, Option.map_none] at hfile
    obtain ⟨err, s', hget, hobjects, herr⟩ := hserves.get_none s key hkey hobject
    have hnotFound : isNotFound err = true := by
      rcases herr with hname | hstatus
      · simp [isNotFound, hname]
      · simp [isNotFound, hstatus]
    simp only [LocalEnv.perform, resolve_of_flat hroot hkeys hkey, FileTree.openAt, hfile,
      h.missing hkey hfile, S3Env.perform, hget, hobjects, hnotFound, if_true]
    exact ⟨trivial, h⟩

/-- A file is removed with its object, and neither driver logs that one was missing. -/
lemma holds_remove (hwritable : env.writable = true)
    (hserves : s3.client.Serves s3.bucketName keys objects) (hroot : env.root ≠ [])
    (hkeys : Flat keys) (h : Holds env.root keys files (objects s)) (hkey : keys key) :
    (env.perform files (.remove key)).1 = (s3.perform s (.remove key)).1 ∧
      Holds env.root keys (env.perform files (.remove key)).2
        (objects (s3.perform s (.remove key)).2) := by
  have hfile := h.file key hkey
  cases hobject : objects s key with
  | some body =>
    rw [hobject, Option.map_some] at hfile
    obtain ⟨s', hdelete, hobjects⟩ := hserves.delete_some s key body hkey hobject
    obtain ⟨removed, hremoved⟩ := FileTree.unlink_file hfile
    simp only [LocalEnv.perform, resolve_of_flat hroot hkeys hkey, LocalEnv.unlink,
      allow_of_writable hwritable, hremoved, S3Env.perform, hdelete, hobjects]
    refine ⟨trivial, h.set hkeys hkey (by simp [FileTree.node_unlink hremoved]) fun q hq => ?_⟩
    exact .inl (by rw [FileTree.node_unlink hremoved, if_neg hq])
  | none =>
    rw [hobject, Option.map_none] at hfile
    obtain ⟨result, s', hdelete, hobjects, herr⟩ := hserves.delete_none s key hkey hobject
    have hquiet : (s3.perform s (.remove key)) = (.done false, s') := by
      cases result with
      | ok _ => simp only [S3Env.perform, hdelete]
      | error err => simp [S3Env.perform, hdelete, isNotFound, herr err rfl]
    simp only [LocalEnv.perform, resolve_of_flat hroot hkeys hkey, LocalEnv.unlink,
      allow_of_writable hwritable, FileTree.unlink_none hfile, h.missing hkey hfile, hquiet,
      hobjects]
    exact ⟨trivial, h⟩

/-- One call with a flat key is answered alike, and the root still holds what the bucket holds. -/
lemma holds_perform (hwritable : env.writable = true)
    (hserves : s3.client.Serves s3.bucketName keys objects) (hroot : env.root ≠ [])
    (hkeys : Flat keys) (h : Holds env.root keys files (objects s)) {op : StorageOp}
    (hop : op.On keys) :
    (env.perform files op).1 = (s3.perform s op).1 ∧
      Holds env.root keys (env.perform files op).2 (objects (s3.perform s op).2) := by
  obtain ⟨key, hop, hkey⟩ := hop
  cases op with
  | healthCheck => cases hop
  | put key buffer =>
    cases hop
    exact holds_put hwritable hserves hroot hkeys h hkey buffer
  | getStream key =>
    cases hop
    exact holds_getStream hserves hroot hkeys h hkey
  | remove key =>
    cases hop
    exact holds_remove hwritable hserves hroot hkeys h hkey

/-! ### The keys of uploads -/

/-- A key of a file some upload makes. -/
def MediaKey (env : Media.MediaEnv) (key : String) : Prop :=
  ∃ x d, Media.DraftOf env x d ∧ key ∈ d.puts.map Prod.fst

lemma plain_of_notMem {seg : Segment} (hne : seg ≠ []) (hdot : '.' ∉ seg) (hslash : '/' ∉ seg) :
    seg.Plain := by
  refine ⟨hne, ?_, ?_, hslash⟩
  · rintro rfl
    exact hdot List.mem_cons_self
  · rintro rfl
    exact hdot List.mem_cons_self

lemma toString_ne_nil (n : ℕ) : (toString n).toList ≠ [] := by
  simp [Nat.toDigits_ne_nil]

lemma plain_year (n : ℕ) : Segment.Plain (toString n).toList :=
  plain_of_notMem (toString_ne_nil n) (notMem_repr rfl n) (notMem_repr rfl n)

lemma plain_month (n : ℕ) :
    Segment.Plain ((if n < 10 then "0" else "") ++ toString n).toList := by
  have hpad : ∀ c, c ≠ '0' → c ∉ (if n < 10 then "0" else "").toList := by
    intro c hc
    split_ifs <;> simp [hc]
  rw [String.toList_append]
  refine plain_of_notMem (fun h => toString_ne_nil n (List.append_eq_nil_iff.mp h).2) ?_ ?_
  · exact fun h => (List.mem_append.mp h).elim (hpad '.' (by decide)) (notMem_repr rfl n)
  · exact fun h => (List.mem_append.mp h).elim (hpad '/' (by decide)) (notMem_repr rfl n)

/-- A public id with something after it is a name. -/
lemma plain_of_uuid {id rest : String} (hid : Media.isUuid id = true) (hrest : '/' ∉ rest.toList) :
    Segment.Plain (id ++ rest).toList := by
  simp only [Media.isUuid, Bool.and_eq_true, decide_eq_true_eq, List.all_eq_true] at hid
  obtain ⟨hlength, hchars⟩ := hid
  have hlong : 36 ≤ (id ++ rest).toList.length := by
    rw [String.toList_append, List.length_append, String.length_toList, hlength]
    omega
  refine ⟨?_, ?_, ?_, ?_⟩
  · rintro h
    simp [h] at hlong
  · rintro h
    simp [h] at hlong
  · rintro h
    simp [h] at hlong
  · rw [String.toList_append, List.mem_append, not_or]
    refine ⟨fun hmem => ?_, hrest⟩
    have := hchars '/' hmem
    revert this
    decide

lemma segments_dirOf {year month : ℕ} {name : String} (hname : Segment.Plain name.toList) :
    segments (Media.dirOf year month ++ "/" ++ name) = ["assets".toList, (toString year).toList,
      ((if month < 10 then "0" else "") ++ toString month).toList, name.toList] := by
  have hkey : (Media.dirOf year month ++ "/" ++ name).toList = "assets".toList ++ '/' ::
      ((toString year).toList ++ '/' ::
        (((if month < 10 then "0" else "") ++ toString month).toList ++ '/' :: name.toList)) := by
    simp [Media.dirOf, String.toList_append]
  rw [segments, hkey, List.splitOn_append_cons_self_of_not_mem (by decide),
    List.splitOn_append_cons_self_of_not_mem (plain_year year).slash,
    List.splitOn_append_cons_self_of_not_mem (plain_month month).slash,
    List.splitOn_eq_singleton hname.slash]

/-- Such a key is a directory of its month and a name that begins with a public id. -/
lemma MediaKey.exists_name {env : Media.MediaEnv} {key : String} (h : MediaKey env key) :
    ∃ (year month : ℕ) (name : String), key = Media.dirOf year month ++ "/" ++ name ∧
      Segment.Plain name.toList := by
  obtain ⟨x, d, hdraft, hkey⟩ := h
  obtain ⟨detected, kind, p, year, month, publicId, hcheck, -, hid, rfl⟩ := hdraft.exists_eq
  have hext : '/' ∉ detected.ext.toList := by
    simp only [Media.check] at hcheck
    split at hcheck
    · cases hcheck
    · next hdetected =>
      split at hcheck
      · cases hcheck
      · split_ifs at hcheck
        cases hcheck
        exact env.ext_plain _ _ hdetected
  rw [Media.Draft.keys_eq] at hkey
  rcases List.mem_cons.mp hkey with rfl | hkey
  · refine ⟨year, month, publicId ++ ("." ++ detected.ext), ?_, plain_of_uuid hid ?_⟩
    · simp [Media.draftOf, Media.originalKey, String.append_assoc]
    · simpa [String.toList_append] using hext
  · obtain ⟨image, himage, rfl⟩ := List.mem_map.mp hkey
    obtain ⟨v, -, rfl⟩ := List.mem_map.mp himage
    refine ⟨year, month, publicId ++ ("-" ++ v.label.name ++ ".webp"), ?_, plain_of_uuid hid ?_⟩
    · simp [Media.variantKey, String.append_assoc]
    · cases v.label <;> decide

lemma MediaKey.segments {env : Media.MediaEnv} {key : String} (h : MediaKey env key) :
    (Storage.segments key).length = 4 ∧ ∀ s ∈ Storage.segments key, s.Plain := by
  obtain ⟨year, month, name, rfl, hname⟩ := h.exists_name
  rw [segments_dirOf hname]
  refine ⟨rfl, fun s hs => ?_⟩
  simp only [List.mem_cons, List.not_mem_nil, or_false] at hs
  rcases hs with rfl | rfl | rfl | rfl
  · exact ⟨by decide, by decide, by decide, by decide⟩
  · exact plain_year year
  · exact plain_month month
  · exact hname

/-- The keys of uploads all have four segments. -/
lemma flat_mediaKey (env : Media.MediaEnv) : Flat (MediaKey env) := by
  refine ⟨fun key hkey => ?_, fun key key' hkey hkey' hprefix => ?_⟩
  · exact hkey.segments.2
  · have heq : segments key = segments key' :=
      hprefix.eq_of_length (hkey.segments.1.trans hkey'.segments.1.symm)
    have hjoined := congrArg (List.intercalate ['/']) heq
    rw [segments, segments, List.intercalate_splitOn, List.intercalate_splitOn] at hjoined
    exact String.toList_inj.mp hjoined

/-- The drivers cannot be told apart by uploads: from an empty root that the process may write to,
and a bucket without their objects in a service that does what S3 documents, every list of puts,
reads and removals of the keys of uploads is answered alike. -/
theorem drivers_agree {media : Media.MediaEnv} {env : LocalEnv} {files : Files} {σ : Type*}
    {s3 : S3Env σ} {objects : σ → String → Option Buffer} {s : σ} (hwritable : env.writable = true)
    (hserves : s3.client.Serves s3.bucketName (MediaKey media) objects)
    (hroot : env.root ≠ []) (hclear : ∀ q, q <+: env.root → files.node q = none ∨
      files.node q = some .dir) (hempty : ∀ q, env.root <+: q → q ≠ env.root → files.node q = none)
    (hnone : ∀ key, MediaKey media key → objects s key = none)
    {ops : List StorageOp} (hops : ∀ op ∈ ops, op.On (MediaKey media)) :
    answers env.perform files ops = answers s3.perform s ops := by
  refine answers_eq (R := fun f s => Holds env.root (MediaKey media) f (objects s))
    (P := StorageOp.On (MediaKey media)) ?_ ⟨fun key hkey => ?_, fun key _ q hq hne => ?_⟩ hops
  · exact fun f b op h hop =>
      holds_perform hwritable hserves hroot (flat_mediaKey media) h hop
  · rw [hnone key hkey]
    exact hempty _ (List.prefix_append _ _) (by simp [segments_ne_nil])
  · rcases List.prefix_or_prefix_of_prefix hq (List.prefix_append env.root (segments key)) with
      habove | hbelow
    · exact hclear q habove
    · by_cases hself : q = env.root
      · exact hclear q (hself ▸ List.prefix_refl _)
      · exact .inl (hempty q hbelow hself)

end Agree

/-! ### A file put, read and removed -/

/-- Every file is a PDF. -/
def pdfMedia : Media.MediaEnv where
  sql := .decimal
  fileTypeFromBuffer _ := some ⟨"pdf", "application/pdf"⟩
  sharp := ⟨fun _ _ => .error .other, fun _ _ _ => .error .other, fun _ _ _ => .error .other⟩
  sha256 _ := ""
  ext_plain buffer detected h := by
    cases h
    decide

def pdfKey : String := "assets/2026/09/00000000-0000-0000-0000-000000000000.pdf"

lemma mediaKey_pdfKey : MediaKey pdfMedia pdfKey := by
  refine ⟨⟨[1], "a.pdf", none, none⟩, _, Media.draftOf_drafted rfl rfl
    (by decide : Media.isUuid "00000000-0000-0000-0000-000000000000" = true) 2026 9, ?_⟩
  rw [Media.Draft.keys_eq]
  exact List.mem_cons.mpr (.inl (by decide))

def rootOnly : Files where
  node p := if p = [] then some .dir else none
  root := rfl
  parents p q hqp hne hp := by
    split_ifs at hp with h
    · subst h
      exact absurd (List.prefix_nil.mp hqp) hne
    · exact absurd rfl hp

def assetsEnv : LocalEnv := ⟨["srv".toList], by
  intro s hs
  rw [List.mem_singleton.mp hs]
  exact ⟨by decide, by decide, by decide, by decide⟩, "./var/assets", true⟩

/-- A service that keeps the objects of every bucket. -/
def s3Service : S3Client (String → String → Option Buffer) where
  putObject buckets bucket key buffer :=
    (.ok (), Function.update buckets bucket (Function.update (buckets bucket) key (some buffer)))
  getObject buckets bucket key :=
    match buckets bucket key with
    | some body => (.ok body, buckets)
    | none => (.error ⟨some "NoSuchKey", some 404⟩, buckets)
  deleteObject buckets bucket key :=
    (.ok (), Function.update buckets bucket (Function.update (buckets bucket) key none))
  headBucket buckets _ := (.ok (), buckets)

lemma s3Service_serves (bucket : String) (keys : String → Prop) :
    s3Service.Serves bucket keys fun buckets => buckets bucket where
  put buckets key buffer _ := ⟨_, rfl, Function.update_self ..⟩
  get_some buckets key body _ h := ⟨buckets, by simp only [s3Service, h], rfl⟩
  get_none buckets key _ h := ⟨_, buckets, by simp only [s3Service, h]; rfl, rfl, .inl rfl⟩
  delete_some buckets key body _ _ := ⟨_, rfl, Function.update_self ..⟩
  delete_none buckets key _ h := by
    refine ⟨.ok (), _, rfl, ?_, by simp⟩
    rw [Function.update_self, ← h, Function.update_eq_self]

def assetsS3 : S3Env (String → String → Option Buffer) := ⟨s3Service, "safeer-public"⟩

theorem drivers_agree_pdf :
    answers assetsEnv.perform rootOnly [.put pdfKey [1], .getStream pdfKey, .remove pdfKey,
      .getStream pdfKey] = [.done false, .stream (some [1]), .done false,
        .objectNotFound pdfKey] := by
  have hroot : assetsEnv.root = ["srv".toList, "var".toList, "assets".toList] := by decide
  rw [@drivers_agree pdfMedia assetsEnv rootOnly _ assetsS3 _ (fun _ _ => none) rfl
    (s3Service_serves "safeer-public" (MediaKey pdfMedia)) (by rw [hroot]; simp)]
  · simp [answers, S3Env.perform, assetsS3, s3Service, isNotFound]
  · intro q _
    simp only [rootOnly]
    split_ifs
    · exact .inr rfl
    · exact .inl rfl
  · intro q hq _
    obtain ⟨rest, rfl⟩ := hq
    simp [rootOnly, hroot]
  · exact fun _ _ => rfl
  · intro op hop
    simp only [List.mem_cons, List.not_mem_nil, or_false] at hop
    rcases hop with rfl | rfl | rfl | rfl <;> exact ⟨pdfKey, rfl, mediaKey_pdfKey⟩

end SafeerApi.Storage
