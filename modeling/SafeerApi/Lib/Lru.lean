import Mathlib.Data.List.Dedup
import Mathlib.Data.List.Perm.Subperm
import Mathlib.Tactic.Common

/-!
# Least-recently-used caches

A cache holds a bounded number of entries, the one used last in front; an entry that is older than
the time to live is not found any more. What matters of such a cache is when it still has an entry:
as long as fewer than `max` distinct other keys were used since.
-/

namespace SafeerApi.Lib

variable {K V : Type*} [DecidableEq K] {max ttl : ℕ}

structure LruEntry (K V : Type*) where
  key : K
  value : V
  setAt : ℕ

/-- The entries, most recently used first. -/
structure Lru (max ttl : ℕ) (K V : Type*) where
  entries : List (LruEntry K V)
  nodup : (entries.map LruEntry.key).Nodup
  bounded : entries.length ≤ max

namespace Lru

def empty : Lru max ttl K V := ⟨[], by simp, by simp⟩

/-- An entry that is too old at a time. -/
def IsStale (ttl now : ℕ) (e : LruEntry K V) : Prop := ttl < now - e.setAt

instance (ttl now : ℕ) (e : LruEntry K V) : Decidable (IsStale ttl now e) :=
  inferInstanceAs (Decidable (_ < _))

def find (c : Lru max ttl K V) (k : K) : Option (LruEntry K V) :=
  c.entries.find? fun e => e.key = k

/-- What is found under a key at a time. -/
def lookup (c : Lru max ttl K V) (now : ℕ) (k : K) : Option V :=
  ((c.find k).filter fun e => ¬IsStale ttl now e).map LruEntry.value

def delete (c : Lru max ttl K V) (k : K) : Lru max ttl K V where
  entries := c.entries.filter fun e => e.key ≠ k
  nodup := c.nodup.sublist (List.filter_sublist.map _)
  bounded := Nat.le_trans (List.length_filter_le _ _) c.bounded

lemma nodup_cons {e : LruEntry K V} {entries : List (LruEntry K V)}
    (h : (entries.map LruEntry.key).Nodup) :
    ((e :: entries.filter fun x => x.key ≠ e.key).map LruEntry.key).Nodup := by
  rw [List.map_cons, List.nodup_cons]
  refine ⟨?_, h.sublist (List.filter_sublist.map _)⟩
  rw [List.mem_map]
  rintro ⟨x, hx, hkey⟩
  simp [hkey] at hx

/-- An entry comes to the front; the last one goes where there is no room. -/
def push (c : Lru max ttl K V) (e : LruEntry K V) : Lru max ttl K V where
  entries := (e :: c.entries.filter fun x => x.key ≠ e.key).take max
  nodup := (nodup_cons c.nodup).sublist ((List.take_sublist _ _).map _)
  bounded := List.length_take_le _ _

def set (c : Lru max ttl K V) (now : ℕ) (k : K) (v : V) : Lru max ttl K V := c.push ⟨k, v, now⟩

/-- A stale entry is removed when it is asked for, another one has been used. -/
def get (c : Lru max ttl K V) (now : ℕ) (k : K) : Option V × Lru max ttl K V :=
  match c.find k with
  | none => (none, c)
  | some e => if IsStale ttl now e then (none, c.delete k) else (some e.value, c.push e)

/-! ### Finding -/

variable {c : Lru max ttl K V} {e : LruEntry K V} {k k' : K} {now : ℕ}

lemma find_eq_some : c.find k = some e ↔ e ∈ c.entries ∧ e.key = k := by
  constructor
  · intro h
    exact ⟨List.mem_of_find?_eq_some h, by simpa using List.find?_some h⟩
  · rintro ⟨he, rfl⟩
    cases hfind : c.find e.key with
    | none => exact absurd (List.find?_eq_none.mp hfind e he) (by simp)
    | some x =>
      have hx := List.mem_of_find?_eq_some hfind
      have hkey : x.key = e.key := by simpa using List.find?_some hfind
      rw [List.inj_on_of_nodup_map c.nodup hx he hkey]

lemma find_eq_none : c.find k = none ↔ ∀ e ∈ c.entries, e.key ≠ k := by
  simp [find]

@[simp] lemma find_empty : (empty : Lru max ttl K V).find k = none := rfl

@[simp] lemma find_delete_self : (c.delete k).find k = none := by
  rw [find_eq_none]
  intro e he
  simpa using (List.mem_filter.mp he).2

lemma find_delete_of_ne (h : k' ≠ k) : (c.delete k).find k' = c.find k' := by
  cases hfind : c.find k' with
  | none =>
    rw [find_eq_none] at hfind ⊢
    exact fun e he => hfind e (List.mem_filter.mp he).1
  | some e =>
    obtain ⟨he, rfl⟩ := find_eq_some.mp hfind
    exact find_eq_some.mpr ⟨List.mem_filter.mpr ⟨he, by simpa using h⟩, rfl⟩

lemma find_push_self (hmax : 0 < max) : (c.push e).find e.key = some e := by
  refine find_eq_some.mpr ⟨?_, rfl⟩
  obtain ⟨n, rfl⟩ := Nat.exists_eq_succ_of_ne_zero (Nat.pos_iff_ne_zero.mp hmax)
  exact List.mem_cons_self

/-- What is found after another entry came to the front was there before. -/
lemma find_of_find_push (h : k ≠ e.key) {x : LruEntry K V} (hx : (c.push e).find k = some x) :
    c.find k = some x := by
  obtain ⟨hmem, rfl⟩ := find_eq_some.mp hx
  rcases List.mem_cons.mp (List.mem_of_mem_take hmem) with rfl | hmem
  · exact absurd rfl h
  · exact find_eq_some.mpr ⟨(List.mem_filter.mp hmem).1, rfl⟩

lemma lookup_eq (h : c.find k = some e) :
    c.lookup now k = if IsStale ttl now e then none else some e.value := by
  rw [lookup, h, Option.filter_some]
  by_cases hstale : IsStale ttl now e <;> simp [hstale]

lemma lookup_of_find_none (h : c.find k = none) : c.lookup now k = none := by
  rw [lookup, h]
  rfl

lemma get_fst : (c.get now k).1 = c.lookup now k := by
  cases hfind : c.find k with
  | none => rw [lookup_of_find_none hfind, get, hfind]
  | some e =>
    rw [lookup_eq hfind, get, hfind]
    simp only
    split_ifs <;> rfl

/-! ### What is still there -/

/-- The entries in front of one all have keys of a list. -/
def InFront (c : Lru max ttl K V) (e : LruEntry K V) (used : List K) : Prop :=
  ∃ front rest, c.entries = front ++ e :: rest ∧ ∀ x ∈ front, x.key ∈ used

lemma InFront.find {used : List K} (h : c.InFront e used) : c.find e.key = some e := by
  obtain ⟨front, rest, hentries, -⟩ := h
  exact find_eq_some.mpr ⟨by simp [hentries], rfl⟩

omit [DecidableEq K] in
lemma InFront.mono {used used' : List K} (h : c.InFront e used) (hsub : used ⊆ used') :
    c.InFront e used' := by
  obtain ⟨front, rest, hentries, hfront⟩ := h
  exact ⟨front, rest, hentries, fun x hx => hsub (hfront x hx)⟩

lemma InFront.delete {used : List K} (h : c.InFront e used) (hk : e.key ≠ k) :
    (c.delete k).InFront e used := by
  obtain ⟨front, rest, hentries, hfront⟩ := h
  refine ⟨front.filter fun x => x.key ≠ k, rest.filter fun x => x.key ≠ k, ?_,
    fun x hx => hfront x (List.mem_filter.mp hx).1⟩
  simp [Lru.delete, hentries, hk]

/-- Entries with distinct keys of a list are no more than its distinct keys. -/
lemma length_le_dedup {entries : List (LruEntry K V)} {used : List K}
    (hnodup : (entries.map LruEntry.key).Nodup) (hkeys : ∀ x ∈ entries, x.key ∈ used) :
    entries.length ≤ used.dedup.length := by
  have hsub : entries.map LruEntry.key ⊆ used.dedup := by
    intro x hx
    obtain ⟨y, hy, rfl⟩ := List.mem_map.mp hx
    exact List.mem_dedup.mpr (hkeys y hy)
  simpa using (hnodup.subperm hsub).length_le

/-- An entry stays as long as fewer than `max` distinct other keys were used since. -/
lemma InFront.push {used : List K} (h : c.InFront e used) {x : LruEntry K V} (hx : e.key ≠ x.key)
    (hused : x.key ∈ used) : (c.push x).InFront e used ∨
      ((c.push x).find e.key = none ∧ max ≤ used.dedup.length) := by
  obtain ⟨front, rest, hentries, hfront⟩ := h
  -- the cache without its bound
  have hwhole : x :: c.entries.filter (fun y => y.key ≠ x.key)
      = (x :: front.filter fun y => y.key ≠ x.key) ++ e :: rest.filter fun y => y.key ≠ x.key := by
    simp [hentries, hx]
  have hkeys : ∀ y ∈ x :: front.filter (fun y => y.key ≠ x.key), y.key ∈ used := by
    intro y hy
    rcases List.mem_cons.mp hy with rfl | hy
    · exact hused
    · exact hfront y (List.mem_filter.mp hy).1
  obtain ⟨hnodup, hnot⟩ : (front.map LruEntry.key).Nodup ∧ e.key ∉ front.map LruEntry.key := by
    have hall := c.nodup
    rw [hentries, List.map_append, List.nodup_append] at hall
    exact ⟨hall.1, fun he => hall.2.2 _ he _ List.mem_cons_self rfl⟩
  generalize hahead : x :: front.filter (fun y => y.key ≠ x.key) = ahead at hwhole hkeys
  have hlength : ahead.length ≤ used.dedup.length := by
    refine length_le_dedup ?_ hkeys
    rw [← hahead]
    exact nodup_cons hnodup
  by_cases hroom : ahead.length < max
  · left
    refine ⟨ahead, (rest.filter fun y => y.key ≠ x.key).take (max - ahead.length - 1), ?_, hkeys⟩
    simp only [Lru.push, hwhole]
    rw [List.take_append, List.take_of_length_le (Nat.le_of_lt hroom)]
    obtain ⟨n, hn⟩ : ∃ n, max - ahead.length = n + 1 := ⟨max - ahead.length - 1, by omega⟩
    rw [hn, List.take_succ_cons, Nat.add_sub_cancel]
  · right
    have hfull : max ≤ ahead.length := Nat.le_of_not_lt hroom
    refine ⟨find_eq_none.mpr fun y hy => ?_, Nat.le_trans hfull hlength⟩
    simp only [Lru.push, hwhole, List.take_append_of_le_length hfull] at hy
    have hy' : y ∈ ahead := List.mem_of_mem_take hy
    rw [← hahead] at hy'
    rcases List.mem_cons.mp hy' with rfl | hy'
    · exact Ne.symm hx
    · rintro heq
      exact hnot (heq ▸ List.mem_map_of_mem (List.mem_filter.mp hy').1)

lemma inFront_push (hmax : 0 < max) : (c.push e).InFront e [] := by
  obtain ⟨n, rfl⟩ := Nat.exists_eq_succ_of_ne_zero (Nat.pos_iff_ne_zero.mp hmax)
  exact ⟨[], _, rfl, fun x hx => by cases hx⟩

/-! ### Using one key -/

/-- What operations on a key may do. -/
inductive Uses (k : K) : Lru max ttl K V → Lru max ttl K V → Prop where
  | nothing (c : Lru max ttl K V) : Uses k c c
  | delete (c : Lru max ttl K V) : Uses k c (c.delete k)
  | push (c : Lru max ttl K V) (e : LruEntry K V) (h : e.key = k) : Uses k c (c.push e)
  | trans {c c' c'' : Lru max ttl K V} (h : Uses k c c') (h' : Uses k c' c'') : Uses k c c''

lemma get_uses (c : Lru max ttl K V) (now : ℕ) (k : K) : Uses k c (c.get now k).2 := by
  rw [get]
  split
  · exact .nothing c
  · next e he =>
    split_ifs
    · exact .delete c
    · exact .push c e (find_eq_some.mp he).2

lemma set_uses (c : Lru max ttl K V) (now : ℕ) (k : K) (v : V) : Uses k c (c.set now k v) :=
  .push c _ rfl

/-- An operation on another key leaves what is found under a key as it is, or takes it away. -/
lemma Uses.find {c' : Lru max ttl K V} (h : Uses k' c c') (hne : k ≠ k') {x : LruEntry K V}
    (hx : c'.find k = some x) : c.find k = some x := by
  induction h with
  | nothing => exact hx
  | delete => rwa [find_delete_of_ne hne] at hx
  | push c e he =>
    subst he
    exact find_of_find_push hne hx
  | trans _ _ ih ih' => exact ih (ih' hx)

/-- It takes nothing away that still has room. -/
lemma Uses.inFront {c' : Lru max ttl K V} {used : List K} (h : Uses k' c c') (hne : e.key ≠ k')
    (hused : k' ∈ used) (he : c.InFront e used) :
    c'.InFront e used ∨ (c'.find e.key = none ∧ max ≤ used.dedup.length) := by
  induction h with
  | nothing => exact .inl he
  | delete => exact .inl (he.delete hne)
  | push c x hx =>
    subst hx
    exact he.push hne hused
  | trans _ h' ih ih' =>
    rcases ih he with he | ⟨hnone, hfull⟩
    · exact ih' he
    · refine .inr ⟨?_, hfull⟩
      by_contra hsome
      obtain ⟨x, hx⟩ := Option.ne_none_iff_exists'.mp hsome
      rw [h'.find hne hx] at hnone
      cases hnone

end Lru

/-! ### Implementations -/

/-- A cache of a library: what it does is what it documents. -/
structure LruCache (max ttl : ℕ) (K V : Type) [DecidableEq K] where
  State : Type
  contents : State → Lru max ttl K V
  empty : State
  get : ℕ → K → State → Option V × State
  set : ℕ → K → V → State → State
  delete : K → State → State
  contents_empty : contents empty = Lru.empty
  get_fst : ∀ now k s, (get now k s).1 = ((contents s).get now k).1
  contents_get : ∀ now k s, contents (get now k s).2 = ((contents s).get now k).2
  contents_set : ∀ now k v s, contents (set now k v s) = (contents s).set now k v
  contents_delete : ∀ k s, contents (delete k s) = (contents s).delete k

/-- The cache that keeps the list of its entries. -/
def LruCache.list (max ttl : ℕ) (K V : Type) [DecidableEq K] : LruCache max ttl K V where
  State := Lru max ttl K V
  contents := id
  empty := Lru.empty
  get now k c := c.get now k
  set now k v c := c.set now k v
  delete k c := c.delete k
  contents_empty := rfl
  get_fst _ _ _ := rfl
  contents_get _ _ _ := rfl
  contents_set _ _ _ _ := rfl
  contents_delete _ _ := rfl

end SafeerApi.Lib
