import Mathlib.Logic.Relator
import SafeerApi.Logging.Redaction

/-!
# Redacting structured values (`redacting-json-logger.ts`)

`redact` walks a graph of arrays and objects. It stops at a depth of eight and at everything it
has met before, wherever that was, and it does not look at what hangs under a sensitive key. Two
graphs that differ only there are printed alike.
-/

namespace SafeerApi.Logging

open Common

/-! ### Graphs -/

/-- A value of the language: `ref` refers to an array or an object by its address, and `prim` is a
primitive that is neither a string nor `null`. -/
inductive Value (A P : Type*) where
  | null
  | prim (p : P)
  | string (s : String)
  | ref (a : A)

/-- The entries of an object, as `Object.entries` lists them: no key comes twice. -/
structure PlainObject (A P : Type*) where
  entries : List (String × Value A P)
  nodup : (entries.map Prod.fst).Nodup

/-- What is found at an address; `whole` is a `Date` or an `Error`, which is printed as it is. -/
inductive Node (A P : Type*) where
  | array (items : List (Value A P))
  | object (o : PlainObject A P)
  | whole (p : P)

abbrev Heap (A P : Type*) := A → Node A P

/-- The own properties of an object that is being built, and its prototype once it was set. -/
structure Built (O : Type*) where
  proto : Option O := none
  own : List (String × O) := []

/-- What `redact` returns. -/
inductive Redacted (P : Type*) where
  | null
  | prim (p : P)
  | string (s : String)
  | array (items : List (Redacted P))
  | object (o : Built (Redacted P))
  | whole (p : P)

/-- Whether a value can be a prototype. -/
def Redacted.isProto {P : Type*} : Redacted P → Bool
  | .prim _ | .string _ => false
  | _ => true

/-- `out[key] = value`, where `out` is a literal object: `__proto__` is no property of its own. -/
def Built.assign {P : Type*} (out : Built (Redacted P)) (key : String) (value : Redacted P) :
    Built (Redacted P) :=
  if key = "__proto__" then if value.isProto then { out with proto := some value } else out
  else { out with own := out.own ++ [(key, value)] }

/-! ### The walk -/

def sensitiveKeys : List String :=
  ["cookie", "set-cookie", "authorization", "x-csrf-token", "password", "passwordencrypted",
    "passwordhash", "token", "tokenhash", "payload"]

/-- `key.toLowerCase()`, as far as it can be one of the names: these are ASCII, and the Kelvin sign is
the only character beyond ASCII of which the lower case is. -/
def lowerCase (key : String) : String :=
  String.ofList (key.toList.map fun c => if c = '\u212a' then 'k' else c.toLower)

/-- `SENSITIVE_KEYS.has(key.toLowerCase())` -/
def isSensitive (key : String) : Bool := lowerCase key ∈ sensitiveKeys

def maxRedactDepth : ℕ := 8

def depthText : String := "[REDACTED: max depth exceeded]"
def circularText : String := "[REDACTED: circular reference]"
def redactedText : String := "[REDACTED]"

section Walk

variable {A P : Type*}

mutual

/-- A call `redact(value, depth, seen)`, with what it returns and what it leaves in `seen`. -/
inductive RedactRun (heap : Heap A P) :
    ℕ → Value A P → List A → Redacted P → List A → Prop where
  | string {depth : ℕ} {seen : List A} (s : String) :
      RedactRun heap depth (.string s) seen (.string (redactString s)) seen
  | null {depth : ℕ} {seen : List A} : RedactRun heap depth .null seen .null seen
  | prim {depth : ℕ} {seen : List A} (p : P) : RedactRun heap depth (.prim p) seen (.prim p) seen
  | tooDeep {depth : ℕ} {seen : List A} {a : A} (h : depth ≥ maxRedactDepth) :
      RedactRun heap depth (.ref a) seen (.string depthText) seen
  | seen {depth : ℕ} {seen : List A} {a : A} (h : depth < maxRedactDepth) (ha : a ∈ seen) :
      RedactRun heap depth (.ref a) seen (.string circularText) seen
  | array {depth : ℕ} {seen seen' : List A} {a : A} {items : List (Value A P)}
      {out : List (Redacted P)} (h : depth < maxRedactDepth) (ha : a ∉ seen)
      (hnode : heap a = .array items)
      (hrun : ItemsRun heap (depth + 1) items (a :: seen) out seen') :
      RedactRun heap depth (.ref a) seen (.array out) seen'
  | whole {depth : ℕ} {seen : List A} {a : A} {p : P} (h : depth < maxRedactDepth) (ha : a ∉ seen)
      (hnode : heap a = .whole p) : RedactRun heap depth (.ref a) seen (.whole p) (a :: seen)
  | object {depth : ℕ} {seen seen' : List A} {a : A} {o : PlainObject A P}
      {out : Built (Redacted P)}
      (h : depth < maxRedactDepth) (ha : a ∉ seen) (hnode : heap a = .object o)
      (hrun : EntriesRun heap (depth + 1) o.entries {} (a :: seen) out seen') :
      RedactRun heap depth (.ref a) seen (.object out) seen'

/-- `value.map(...)` -/
inductive ItemsRun (heap : Heap A P) :
    ℕ → List (Value A P) → List A → List (Redacted P) → List A → Prop where
  | nil {depth : ℕ} {seen : List A} : ItemsRun heap depth [] seen [] seen
  | cons {depth : ℕ} {seen seen' seen'' : List A} {item : Value A P} {items : List (Value A P)}
      {out : Redacted P} {outs : List (Redacted P)}
      (hitem : RedactRun heap depth item seen out seen')
      (hrun : ItemsRun heap depth items seen' outs seen'') :
      ItemsRun heap depth (item :: items) seen (out :: outs) seen''

/-- The `for` loop over the entries of an object. -/
inductive EntriesRun (heap : Heap A P) : ℕ → List (String × Value A P) → Built (Redacted P) →
    List A → Built (Redacted P) → List A → Prop where
  | nil {depth : ℕ} {seen : List A} (out : Built (Redacted P)) :
      EntriesRun heap depth [] out seen out seen
  | sensitive {depth : ℕ} {seen seen' : List A} {key : String} {value : Value A P}
      {entries : List (String × Value A P)} {out out' : Built (Redacted P)}
      (hkey : isSensitive key = true)
      (hrun : EntriesRun heap depth entries (out.assign key (.string redactedText)) seen out' seen') :
      EntriesRun heap depth ((key, value) :: entries) out seen out' seen'
  | plain {depth : ℕ} {seen seen' seen'' : List A} {key : String} {value : Value A P}
      {entries : List (String × Value A P)} {redacted : Redacted P} {out out' : Built (Redacted P)}
      (hkey : isSensitive key = false) (hvalue : RedactRun heap depth value seen redacted seen')
      (hrun : EntriesRun heap depth entries (out.assign key redacted) seen' out' seen'') :
      EntriesRun heap depth ((key, value) :: entries) out seen out' seen''

end

/-- A call `redact(value)`. -/
def Redacts (heap : Heap A P) (value : Value A P) (out : Redacted P) : Prop :=
  ∃ seen, RedactRun heap 0 value [] out seen

/-! ### The loops, computed -/

/-- `value.map(...)`, when `f` redacts an item. -/
def redactItems (f : Value A P → List A → Redacted P × List A) :
    List (Value A P) → List A → List (Redacted P) × List A
  | [], seen => ([], seen)
  | item :: items, seen =>
    let (out, seen) := f item seen
    let (outs, seen) := redactItems f items seen
    (out :: outs, seen)

/-- The `for` loop over the entries, when `f` redacts a value. -/
def redactEntries (f : Value A P → List A → Redacted P × List A) :
    List (String × Value A P) → Built (Redacted P) → List A → Built (Redacted P) × List A
  | [], out, seen => (out, seen)
  | (key, value) :: entries, out, seen =>
    if isSensitive key then redactEntries f entries (out.assign key (.string redactedText)) seen
    else
      let (redacted, seen) := f value seen
      redactEntries f entries (out.assign key redacted) seen

/-! ### The loops run as they are computed -/

lemma ItemsRun.redactItems {heap : Heap A P} {depth : ℕ}
    {f : Value A P → List A → Redacted P × List A}
    (hf : ∀ v seen, RedactRun heap depth v seen (f v seen).1 (f v seen).2)
    (items : List (Value A P)) (seen : List A) :
    ItemsRun heap depth items seen (redactItems f items seen).1 (redactItems f items seen).2 := by
  induction items generalizing seen with
  | nil => exact .nil
  | cons item items ih => exact .cons (hf item seen) (ih (f item seen).2)

lemma EntriesRun.redactEntries {heap : Heap A P} {depth : ℕ}
    {f : Value A P → List A → Redacted P × List A}
    (hf : ∀ v seen, RedactRun heap depth v seen (f v seen).1 (f v seen).2)
    (entries : List (String × Value A P)) (out : Built (Redacted P)) (seen : List A) :
    EntriesRun heap depth entries out seen (redactEntries f entries out seen).1
      (redactEntries f entries out seen).2 := by
  induction entries generalizing out seen with
  | nil => exact .nil out
  | cons entry entries ih =>
    obtain ⟨key, value⟩ := entry
    rw [Logging.redactEntries]
    cases hkey : isSensitive key with
    | true => exact .sensitive hkey (ih _ seen)
    | false => exact .plain hkey (hf value seen) (ih _ (f value seen).2)

lemma redactItems_eq {heap : Heap A P} {depth : ℕ} {f : Value A P → List A → Redacted P × List A}
    (hf : ∀ {v seen out seen'}, RedactRun heap depth v seen out seen' → f v seen = (out, seen'))
    {items : List (Value A P)} {seen seen' : List A} {outs : List (Redacted P)}
    (h : ItemsRun heap depth items seen outs seen') : redactItems f items seen = (outs, seen') := by
  induction items generalizing seen outs with
  | nil => cases h; rfl
  | cons item items ih =>
    cases h with
    | cons hitem hrun => simp only [redactItems, hf hitem, ih hrun]

lemma redactEntries_eq {heap : Heap A P} {depth : ℕ} {f : Value A P → List A → Redacted P × List A}
    (hf : ∀ {v seen out seen'}, RedactRun heap depth v seen out seen' → f v seen = (out, seen'))
    {entries : List (String × Value A P)} {seen seen' : List A} {out out' : Built (Redacted P)}
    (h : EntriesRun heap depth entries out seen out' seen') :
    redactEntries f entries out seen = (out', seen') := by
  induction entries generalizing seen out with
  | nil => cases h; rfl
  | cons entry entries ih =>
    cases h with
    | sensitive hkey hrun => rw [redactEntries, if_pos hkey, ih hrun]
    | plain hkey hvalue hrun => rw [redactEntries, hkey, hf hvalue, ← ih hrun]; rfl

/-! ### Redaction, computed -/

variable [DecidableEq A]

/-- `redact` with `left` levels left to go down. -/
def redactAt (heap : Heap A P) : ℕ → Value A P → List A → Redacted P × List A
  | _, .string s, seen => (.string (redactString s), seen)
  | _, .null, seen => (.null, seen)
  | _, .prim p, seen => (.prim p, seen)
  | 0, .ref _, seen => (.string depthText, seen)
  | left + 1, .ref a, seen =>
    if a ∈ seen then (.string circularText, seen)
    else
      match heap a with
      | .array items =>
        let (out, seen) := redactItems (redactAt heap left) items (a :: seen)
        (.array out, seen)
      | .whole p => (.whole p, a :: seen)
      | .object o =>
        let (out, seen) := redactEntries (redactAt heap left) o.entries {} (a :: seen)
        (.object out, seen)

def redact (heap : Heap A P) (value : Value A P) : Redacted P :=
  (redactAt heap maxRedactDepth value []).1

/-! ### The walk stops -/

/-- The recursion ends: each call of `redact` has a run. The induction is on the levels that are
left, which every call within a call has one less of. -/
lemma RedactRun.redactAt (heap : Heap A P) {left depth : ℕ} (hleft : maxRedactDepth - depth = left)
    (v : Value A P) (seen : List A) :
    RedactRun heap depth v seen (redactAt heap left v seen).1 (redactAt heap left v seen).2 := by
  induction left generalizing depth v seen with
  | zero =>
    cases v with
    | null => exact .null
    | prim p => exact .prim p
    | string s => exact .string s
    | ref a => exact .tooDeep (by omega)
  | succ left ih =>
    cases v with
    | null => exact .null
    | prim p => exact .prim p
    | string s => exact .string s
    | ref a =>
      have hdepth : depth < maxRedactDepth := by omega
      have hstep : ∀ v seen, RedactRun heap (depth + 1) v seen (Logging.redactAt heap left v seen).1
          (Logging.redactAt heap left v seen).2 := ih (by omega)
      rw [Logging.redactAt]
      by_cases ha : a ∈ seen
      · rw [if_pos ha]
        exact .seen hdepth ha
      · rw [if_neg ha]
        cases hnode : heap a with
        | array items => exact .array hdepth ha hnode (.redactItems hstep items _)
        | whole p => exact .whole hdepth ha hnode
        | object o => exact .object hdepth ha hnode (.redactEntries hstep o.entries _ _)

/-- A call has no other run. -/
lemma redactAt_eq {heap : Heap A P} {left depth : ℕ} (hleft : maxRedactDepth - depth = left)
    {v : Value A P} {seen seen' : List A} {out : Redacted P}
    (h : RedactRun heap depth v seen out seen') : redactAt heap left v seen = (out, seen') := by
  induction left generalizing depth v seen out seen' with
  | zero =>
    cases h with
    | string s => rfl
    | null => rfl
    | prim p => rfl
    | tooDeep _ => rfl
    | seen hdepth _ | array hdepth _ _ _ | whole hdepth _ _ | object hdepth _ _ _ => omega
  | succ left ih =>
    cases h with
    | string s => rfl
    | null => rfl
    | prim p => rfl
    | tooDeep hdepth => omega
    | seen _ ha => rw [redactAt, if_pos ha]
    | array _ ha hnode hrun =>
      rw [redactAt, if_neg ha, hnode]
      simp only [redactItems_eq (fun h => ih (by omega) h) hrun]
    | whole _ ha hnode => rw [redactAt, if_neg ha, hnode]
    | object _ ha hnode hrun =>
      rw [redactAt, if_neg ha, hnode]
      simp only [redactEntries_eq (fun h => ih (by omega) h) hrun]

lemma redacts_iff {heap : Heap A P} {v : Value A P} {out : Redacted P} :
    Redacts heap v out ↔ redact heap v = out := by
  constructor
  · rintro ⟨seen, hrun⟩
    exact congrArg Prod.fst (redactAt_eq rfl hrun)
  · rintro rfl
    exact ⟨_, RedactRun.redactAt heap rfl v []⟩

end Walk

/-! ### Two graphs -/

section Alike

variable {A A' P : Type*} {R : A → A' → Prop}

/-- The same value, when `R` pairs the addresses of the two graphs. -/
inductive Value.Alike (R : A → A' → Prop) : Value A P → Value A' P → Prop where
  | null : Value.Alike R .null .null
  | prim (p : P) : Value.Alike R (.prim p) (.prim p)
  | string (s : String) : Value.Alike R (.string s) (.string s)
  | ref {a : A} {a' : A'} (h : R a a') : Value.Alike R (.ref a) (.ref a')

/-- The same entry, but for what hangs under a sensitive key. -/
def EntryAlike (R : A → A' → Prop) (e : String × Value A P) (e' : String × Value A' P) : Prop :=
  e.1 = e'.1 ∧ (isSensitive e.1 = false → e.2.Alike R e'.2)

inductive Node.Alike (R : A → A' → Prop) : Node A P → Node A' P → Prop where
  | array {items : List (Value A P)} {items' : List (Value A' P)}
      (h : List.Forall₂ (Value.Alike R) items items') : Node.Alike R (.array items) (.array items')
  | object {o : PlainObject A P} {o' : PlainObject A' P}
      (h : List.Forall₂ (EntryAlike R) o.entries o'.entries) : Node.Alike R (.object o) (.object o')
  | whole (p : P) : Node.Alike R (.whole p) (.whole p)

/-- The graphs differ only in what hangs under sensitive keys. `R` pairs what is found in both: what
is shared in one of them is shared in the other. -/
structure HeapsAlike (R : A → A' → Prop) (heap : Heap A P) (heap' : Heap A' P) : Prop where
  biUnique : Relator.BiUnique R
  node : ∀ {a a'}, R a a' → (heap a).Alike R (heap' a')

/-- The same was met in both walks. -/
def SeenAlike (R : A → A' → Prop) (seen : List A) (seen' : List A') : Prop :=
  ∀ a a', R a a' → (a ∈ seen ↔ a' ∈ seen')

lemma SeenAlike.cons (hR : Relator.BiUnique R) {seen : List A} {seen' : List A'}
    (h : SeenAlike R seen seen') {a : A} {a' : A'} (ha : R a a') :
    SeenAlike R (a :: seen) (a' :: seen') := by
  intro b b' hb
  have heq : b = a ↔ b' = a' := by
    constructor
    · rintro rfl
      exact hR.2 hb ha
    · rintro rfl
      exact hR.1 hb ha
  rw [List.mem_cons, List.mem_cons, heq, h b b' hb]

/-- Two walks print the same and go on alike. -/
def StepsAlike (R : A → A' → Prop) (f : Value A P → List A → Redacted P × List A)
    (f' : Value A' P → List A' → Redacted P × List A') : Prop :=
  ∀ {v v' seen seen'}, Value.Alike R v v' → SeenAlike R seen seen' →
    (f v seen).1 = (f' v' seen').1 ∧ SeenAlike R (f v seen).2 (f' v' seen').2

variable {f : Value A P → List A → Redacted P × List A}
  {f' : Value A' P → List A' → Redacted P × List A'}

lemma StepsAlike.redactItems (hf : StepsAlike R f f') {items : List (Value A P)}
    {items' : List (Value A' P)} (hitems : List.Forall₂ (Value.Alike R) items items')
    {seen : List A} {seen' : List A'} (hseen : SeenAlike R seen seen') :
    (redactItems f items seen).1 = (redactItems f' items' seen').1 ∧
      SeenAlike R (redactItems f items seen).2 (redactItems f' items' seen').2 := by
  induction hitems generalizing seen seen' with
  | nil => exact ⟨rfl, hseen⟩
  | cons hitem _ ih =>
    obtain ⟨hout, hseen⟩ := hf hitem hseen
    obtain ⟨houts, hseen⟩ := ih hseen
    exact ⟨congrArg₂ List.cons hout houts, hseen⟩

lemma StepsAlike.redactEntries (hf : StepsAlike R f f') {entries : List (String × Value A P)}
    {entries' : List (String × Value A' P)}
    (hentries : List.Forall₂ (EntryAlike R) entries entries') (out : Built (Redacted P))
    {seen : List A} {seen' : List A'} (hseen : SeenAlike R seen seen') :
    (redactEntries f entries out seen).1 = (redactEntries f' entries' out seen').1 ∧
      SeenAlike R (redactEntries f entries out seen).2 (redactEntries f' entries' out seen').2 := by
  induction hentries generalizing out seen seen' with
  | nil => exact ⟨rfl, hseen⟩
  | @cons e e' _ _ hentry _ ih =>
    obtain ⟨key, value⟩ := e
    obtain ⟨key', value'⟩ := e'
    obtain ⟨rfl, hvalue⟩ : key = key' ∧ (isSensitive key = false → value.Alike R value') := hentry
    rw [Logging.redactEntries, Logging.redactEntries]
    cases hkey : isSensitive key with
    | true => exact ih _ hseen
    | false =>
      obtain ⟨hout, hseen⟩ := hf (hvalue hkey) hseen
      simp only [Bool.false_eq_true, if_false]
      rw [hout]
      exact ih _ hseen

variable [DecidableEq A] [DecidableEq A'] {heap : Heap A P} {heap' : Heap A' P}

/-- At every depth the two walks print the same. -/
lemma HeapsAlike.stepsAlike (h : HeapsAlike R heap heap') (left : ℕ) :
    StepsAlike R (redactAt heap left) (redactAt heap' left) := by
  induction left with
  | zero =>
    intro v v' seen seen' hv hseen
    cases hv <;> exact ⟨rfl, hseen⟩
  | succ left ih =>
    intro v v' seen seen' hv hseen
    cases hv with
    | null => exact ⟨rfl, hseen⟩
    | prim p => exact ⟨rfl, hseen⟩
    | string s => exact ⟨rfl, hseen⟩
    | @ref a a' ha =>
      rw [redactAt, redactAt]
      by_cases hmem : a ∈ seen
      · rw [if_pos hmem, if_pos ((hseen a a' ha).mp hmem)]
        exact ⟨rfl, hseen⟩
      · rw [if_neg hmem, if_neg (fun hmem' => hmem ((hseen a a' ha).mpr hmem'))]
        have hmet : SeenAlike R (a :: seen) (a' :: seen') := hseen.cons h.biUnique ha
        have hnode : (heap a).Alike R (heap' a') := h.node ha
        generalize heap a = node, heap' a' = node' at hnode
        cases hnode with
        | array hitems =>
          obtain ⟨hout, hseen⟩ := ih.redactItems hitems hmet
          exact ⟨congrArg Redacted.array hout, hseen⟩
        | whole p => exact ⟨rfl, hmet⟩
        | object hentries =>
          obtain ⟨hout, hseen⟩ := ih.redactEntries hentries {} hmet
          exact ⟨congrArg Redacted.object hout, hseen⟩

lemma HeapsAlike.redact_eq (h : HeapsAlike R heap heap') {v : Value A P} {v' : Value A' P}
    (hv : v.Alike R v') : redact heap v = redact heap' v' :=
  (h.stepsAlike maxRedactDepth hv fun a a' _ => by simp).1

end Alike

/-- Redaction ends on every graph, and graphs that differ only in what hangs under sensitive keys are
printed alike. -/
theorem redact_noninterfering {A A' P : Type*} :
    (∀ (heap : Heap A P) (v : Value A P), ∃! out, Redacts heap v out) ∧
    ∀ (heap : Heap A P) (heap' : Heap A' P) (R : A → A' → Prop) (v : Value A P) (v' : Value A' P),
      HeapsAlike R heap heap' → v.Alike R v' →
      ∀ out out', Redacts heap v out → Redacts heap' v' out' → out = out' := by
  classical
  constructor
  · intro heap v
    exact ⟨redact heap v, redacts_iff.mpr rfl, fun out hout => (redacts_iff.mp hout).symm⟩
  · intro heap heap' R v v' hheaps hv out out' hout hout'
    calc out = redact heap v := (redacts_iff.mp hout).symm
      _ = redact heap' v' := hheaps.redact_eq hv
      _ = out' := redacts_iff.mp hout'

/-- A user and a list of users that refer to each other. -/
def session (secret : Value Bool ℕ) : Heap Bool ℕ
  | false => .object ⟨[("users", .ref true), ("Password", secret)], by simp⟩
  | true => .array [.ref false, .string "Cookie: a"]

lemma session_alike (secret secret' : Value Bool ℕ) :
    HeapsAlike Eq (session secret) (session secret') where
  biUnique := ⟨fun _ _ _ h h' => h.trans h'.symm, fun _ _ _ h h' => h.symm.trans h'⟩
  node := by
    rintro a _ rfl
    cases a with
    | false =>
      refine .object (.cons ⟨rfl, fun _ => .ref rfl⟩ (.cons ⟨rfl, fun hkey => ?_⟩ .nil))
      exact absurd hkey (ne_false_of_eq_true (rfl : isSensitive "Password" = true))
    | true => exact .array (.cons (.ref rfl) (.cons (.string _) .nil))

theorem redact_noninterfering_session :
    redact (session (.string "a")) (.ref false) = redact (session (.ref true)) (.ref false) :=
  redact_noninterfering.2 _ _ Eq _ _ (session_alike _ _) (.ref rfl) _ _ (redacts_iff.mpr rfl)
    (redacts_iff.mpr rfl)

end SafeerApi.Logging
