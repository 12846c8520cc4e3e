import SafeerApi.Lib.Joined

/-!
# Paths with slashes

A path is the list of its segments. A text is resolved below a path segment by segment: an empty one
and `.` stay, `..` goes up, and every other one goes down. A rendered path lies below another one
exactly when it goes on with a slash after it.
-/

namespace SafeerApi.Lib.SlashPath

abbrev Segment := List Char

/-- The name of a file or of a directory. -/
structure Segment.Plain (seg : Segment) : Prop where
  nonempty : seg ≠ []
  ne_dot : seg ≠ ['.']
  ne_dots : seg ≠ ['.', '.']
  slash : '/' ∉ seg

/-- One segment further. -/
def walk (path : List Segment) (seg : Segment) : List Segment :=
  if seg = [] ∨ seg = ['.'] then path
  else if seg = ['.', '.'] then path.dropLast
  else path ++ [seg]

/-- Where a text leads below a path; a text that begins with a slash is a path of its own. -/
def resolve (base : List Segment) (text : List Char) : List Segment :=
  (text.splitOn '/').foldl walk (if text.head? = some '/' then [] else base)

def render (path : List Segment) : List Char :=
  if path = [] then ['/'] else path.flatMap ('/' :: ·)

/-! ### Resolving -/

lemma notMem_of_mem_splitOn {text seg : List Char} (h : seg ∈ text.splitOn '/') : '/' ∉ seg := by
  induction text generalizing seg with
  | nil => simp_all
  | cons c text ih =>
    rw [List.splitOn_eq_splitOnP, List.splitOnP_cons_eq_if_modifyHead] at h
    obtain ⟨part, parts, hparts⟩ := List.exists_cons_of_ne_nil (List.splitOnP_ne_nil (· == '/') text)
    rw [List.splitOn_eq_splitOnP, hparts] at ih
    rw [hparts] at h
    split_ifs at h with hc
    · rcases List.mem_cons.mp h with rfl | h
      · exact List.not_mem_nil
      · exact ih h
    · rcases List.mem_cons.mp h with rfl | h
      · rw [List.mem_cons, not_or]
        exact ⟨fun heq => hc (by simp [← heq]), ih List.mem_cons_self⟩
      · exact ih (List.mem_cons_of_mem part h)

variable {base path path' : List Segment}

lemma walk_plain (h : ∀ s ∈ path, s.Plain) {seg : Segment} (hseg : '/' ∉ seg) :
    ∀ s ∈ walk path seg, s.Plain := by
  intro s hs
  simp only [walk] at hs
  split_ifs at hs with hstay hup
  · exact h s hs
  · exact h s (List.dropLast_subset path hs)
  · rcases List.mem_append.mp hs with hs | hs
    · exact h s hs
    · obtain rfl := List.mem_singleton.mp hs
      exact ⟨fun h => hstay (.inl h), fun h => hstay (.inr h), hup, hseg⟩

/-- Every segment of a resolved path is a name. -/
lemma resolve_plain (h : ∀ s ∈ base, s.Plain) (text : List Char) :
    ∀ s ∈ resolve base text, s.Plain := by
  have hwalk : ∀ (segs path : List Segment), (∀ s ∈ segs, '/' ∉ s) → (∀ s ∈ path, s.Plain) →
      ∀ s ∈ segs.foldl walk path, s.Plain := by
    intro segs
    induction segs with
    | nil => exact fun path _ hpath => hpath
    | cons seg segs ih =>
      intro path hsegs hpath
      exact ih _ (fun s hs => hsegs s (List.mem_cons_of_mem seg hs))
        (walk_plain hpath (hsegs seg List.mem_cons_self))
  refine hwalk _ _ (fun s hs => notMem_of_mem_splitOn hs) ?_
  split_ifs
  · exact fun s hs => by cases hs
  · exact h

lemma foldl_walk_plain {segs : List Segment} (h : ∀ s ∈ segs, s.Plain) (path : List Segment) :
    segs.foldl walk path = path ++ segs := by
  induction segs generalizing path with
  | nil => simp
  | cons seg segs ih =>
    have hseg : seg.Plain := h seg List.mem_cons_self
    have hwalk : walk path seg = path ++ [seg] := by
      simp [walk, hseg.nonempty, hseg.ne_dot, hseg.ne_dots]
    rw [List.foldl_cons, hwalk, ih fun s hs => h s (List.mem_cons_of_mem seg hs)]
    simp

/-- A text of names leads down. -/
lemma resolve_of_plain {text : List Char}
    (h : ∀ s ∈ text.splitOn '/', Segment.Plain s) :
    resolve base text = base ++ text.splitOn '/' := by
  have hhead : text.head? ≠ some '/' := by
    cases text with
    | nil => simp
    | cons c text =>
      rw [List.head?_cons, Ne, Option.some.injEq]
      rintro rfl
      exact (h [] (by simp [List.splitOn_cons_eq_if_modifyHead])).nonempty rfl
  rw [resolve, if_neg hhead, foldl_walk_plain h]

/-! ### Rendered paths -/

lemma begins_slash (path : List Segment) :
    ∃ rest, path.flatMap ('/' :: ·) ++ ['/'] = '/' :: rest := by
  cases path <;> simp

lemma flatMap_prefix_iff (h : ∀ s ∈ path, s.Plain) (h' : ∀ s ∈ path', s.Plain) :
    path.flatMap ('/' :: ·) ++ ['/'] <+: path'.flatMap ('/' :: ·) ↔
      ∃ seg rest, path' = path ++ seg :: rest := by
  induction path generalizing path' with
  | nil => cases path' <;> simp
  | cons a path ih =>
    have ha : '/' ∉ a := (h a List.mem_cons_self).slash
    cases path' with
    | nil => simp
    | cons b path' =>
      have hb : '/' ∉ b := (h' b List.mem_cons_self).slash
      have ih := ih (fun s hs => h s (List.mem_cons_of_mem a hs))
        fun s hs => h' s (List.mem_cons_of_mem b hs)
      obtain ⟨rest, hrest⟩ := begins_slash path
      constructor
      · rintro ⟨after, hafter⟩
        have hafter : '/' :: (a ++ (path.flatMap ('/' :: ·) ++ ['/'] ++ after))
            = '/' :: b ++ path'.flatMap ('/' :: ·) := by
          rw [← List.flatMap_cons, ← hafter]
          simp
        rw [hrest, List.cons_append, List.cons_append, List.cons.injEq] at hafter
        have hafter := hafter.2
        cases path' with
        | nil =>
          rw [List.flatMap_nil, List.append_nil] at hafter
          exact absurd (hafter ▸ List.mem_append_right a List.mem_cons_self) hb
        | cons c path' =>
          rw [List.flatMap_cons, List.cons_append] at hafter
          obtain ⟨rfl, hmore⟩ := append_sep_inj ha hb hafter
          have hprefix : path.flatMap ('/' :: ·) ++ ['/'] <+: (c :: path').flatMap ('/' :: ·) := by
            rw [hrest, List.flatMap_cons, List.cons_append]
            exact ⟨after, by rw [List.cons_append, hmore]⟩
          obtain ⟨seg, tail, heq⟩ := ih.mp hprefix
          exact ⟨seg, tail, by rw [heq, List.cons_append]⟩
      · rintro ⟨seg, tail, heq⟩
        rw [List.cons_append, List.cons.injEq] at heq
        obtain ⟨rfl, heq⟩ := heq
        obtain ⟨after, hafter⟩ := ih.mpr ⟨seg, tail, heq⟩
        exact ⟨after, by simp [← hafter]⟩

/-- What begins with a path and a slash lies below it. -/
lemma exists_of_render_prefix (h : ∀ s ∈ path, s.Plain) (h' : ∀ s ∈ path', s.Plain)
    (hbelow : render path ++ ['/'] <+: render path') :
    path ≠ [] ∧ ∃ seg rest, path' = path ++ seg :: rest := by
  simp only [render] at hbelow
  split_ifs at hbelow with hpath hpath' hpath'
  · exact absurd hbelow.length_le (by simp)
  · obtain ⟨seg, rest, rfl⟩ := List.exists_cons_of_ne_nil hpath'
    obtain ⟨after, hafter⟩ := hbelow
    have hseg := h' seg List.mem_cons_self
    simp only [List.flatMap_cons, List.cons_append, List.nil_append, List.cons.injEq,
      true_and] at hafter
    -- a second slash would be the first character of a name
    cases seg with
    | nil => exact absurd rfl hseg.nonempty
    | cons c seg =>
      rw [List.cons_append, List.cons.injEq] at hafter
      exact absurd (hafter.1 ▸ List.mem_cons_self) hseg.slash
  · obtain ⟨a, path, rfl⟩ := List.exists_cons_of_ne_nil hpath
    have hlength := hbelow.length_le
    simp at hlength
  · exact ⟨hpath, (flatMap_prefix_iff h h').mp hbelow⟩

lemma render_prefix (hpath : path ≠ []) (h : ∀ s ∈ path, s.Plain) (seg : Segment)
    {rest : List Segment} (h' : ∀ s ∈ path ++ seg :: rest, s.Plain) :
    render path ++ ['/'] <+: render (path ++ seg :: rest) := by
  rw [render, if_neg hpath, render, if_neg (by simp)]
  exact (flatMap_prefix_iff h h').mpr ⟨seg, rest, rfl⟩

lemma flatMap_ne_root (h : ∀ s ∈ path, s.Plain) : path.flatMap ('/' :: ·) ≠ ['/'] := by
  cases path with
  | nil => simp
  | cons seg path => simp [(h seg List.mem_cons_self).nonempty]

lemma render_inj (h : ∀ s ∈ path, s.Plain) (h' : ∀ s ∈ path', s.Plain)
    (heq : render path = render path') : path = path' := by
  simp only [render] at heq
  have hlong : ∀ {p p' : List Segment}, (∀ s ∈ p, s.Plain) → (∀ s ∈ p', s.Plain) →
      p.flatMap ('/' :: ·) = p'.flatMap ('/' :: ·) → p <+: p' := by
    intro p p' hp hp' hflat
    -- one name further, the paths still agree
    have hname : Segment.Plain ['a'] := ⟨by simp, by simp, by simp, by simp⟩
    have hmore : ∀ s ∈ p' ++ [['a']], s.Plain := by
      intro s hs
      rcases List.mem_append.mp hs with hs | hs
      · exact hp' s hs
      · exact List.mem_singleton.mp hs ▸ hname
    obtain ⟨seg, rest, hrest⟩ := (flatMap_prefix_iff hp hmore).mp
      ⟨['a'], by simp [hflat]⟩
    have hprefix : p <+: p' ++ [['a']] := ⟨seg :: rest, hrest.symm⟩
    refine (List.prefix_concat_iff.mp hprefix).resolve_left ?_
    rintro rfl
    simp at hrest
  split_ifs at heq with hpath hpath' hpath'
  · rw [hpath, hpath']
  · exact absurd heq.symm (flatMap_ne_root h')
  · exact absurd heq (flatMap_ne_root h)
  · exact (hlong h h' heq).eq_of_length
      (Nat.le_antisymm (hlong h h' heq).length_le (hlong h' h heq.symm).length_le)

end SafeerApi.Lib.SlashPath
