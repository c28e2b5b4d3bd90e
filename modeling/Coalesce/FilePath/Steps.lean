import Coalesce.FilePath.Suffix

/-!
# The steps of a path

What a path says apart from where it starts is a list of steps: names, and `..`. As segments they
are what is left of the text without idle segments, and as components they are what is left without
the anchor, and the one is known from the other (`FilePath.steps_eq`). So is where a path starts,
whether it has a NUL in it, and what becomes of all that when paths are read from a directory or go
on behind one another.
-/

namespace Coalesce

/-! ## Segments -/

/-- Whether a component is a step from one directory to another one. -/
def Component.isStep : Component → Bool
  | .parent | .named _ => true
  | _ => false

/-- The segment that a component is written as, inside a path. -/
def Component.segment : Component → Segment
  | .parent => ['.', '.']
  | .named name => name.toList
  | _ => []

namespace Segment

variable {body : List Segment} {s : Segment} {c : Component} {name : String}

/-- The segments of a body that are not idle. -/
def steps (body : List Segment) : List Segment := body.filter fun s ↦ !s.isIdle

theorem steps_cons_of_isIdle (h : s.isIdle = true) : steps (s :: body) = steps body := by
  simp [steps, h]

theorem steps_cons_of_not_isIdle (h : s.isIdle = false) : steps (s :: body) = s :: steps body := by
  simp [steps, h]

theorem steps_append (front body : List Segment) :
    steps (front ++ body) = steps front ++ steps body :=
  List.filter_append ..

theorem trimStart_of_steps {rest : List Segment} (h : steps body = s :: rest) :
    ∃ body', trimStart body = s :: body' ∧ s.isIdle = false ∧ steps body' = rest := by
  induction body with
  | nil => cases h
  | cons t body ih =>
    rw [trimStart, List.dropWhile_cons]
    cases hidle : t.isIdle with
    | true =>
      rw [steps_cons_of_isIdle hidle] at h
      exact ih h
    | false =>
      rw [steps_cons_of_not_isIdle hidle] at h
      obtain ⟨rfl, hrest⟩ := List.cons.inj h
      exact ⟨body, rfl, hidle, hrest⟩

/-- The steps of a body are told by its components. -/
theorem steps_eq (body : List Segment) :
    steps body = (body.filterMap component?).map Component.segment := by
  induction body with
  | nil => rfl
  | cons s body ih =>
    cases hidle : s.isIdle with
    | true =>
      rw [steps_cons_of_isIdle hidle, ih, List.filterMap_cons, component?, hidle, if_pos rfl]
    | false =>
      rw [steps_cons_of_not_isIdle hidle, ih, List.filterMap_cons, component?, hidle,
        if_neg Bool.false_ne_true]
      by_cases hdots : s = ['.', '.']
      · rw [if_pos hdots, hdots]
        rfl
      · rw [if_neg hdots, List.map_cons, Component.segment, String.toList_ofList]

/-! ### What a segment stands for -/

theorem isStep_of_component? (h : component? s = some c) : c.isStep = true := by
  rw [component?] at h
  split at h
  next => cases h
  next =>
    split at h <;>
    · obtain rfl := Option.some.inj h
      rfl

theorem isStep_of_mem_filterMap (h : c ∈ body.filterMap component?) :
    c.isStep = true := by
  obtain ⟨s, -, hs⟩ := List.mem_filterMap.1 h
  exact isStep_of_component? hs

theorem component?_of_mem {d : Char} (h : d ∈ s) (hd : d ≠ '.') :
    component? s = some (.named (String.ofList s)) := by
  have hidle : s.isIdle = false := by
    rw [isIdle, Bool.or_eq_false_iff, beq_eq_false_iff_ne, beq_eq_false_iff_ne]
    constructor <;> rintro rfl <;> simp_all
  have hdots : s ≠ ['.', '.'] := by rintro rfl; simp_all
  rw [component?, hidle, if_neg Bool.false_ne_true, if_neg hdots]

theorem eq_toList_of_component? (h : component? s = some (.named name)) : s = name.toList := by
  rw [component?] at h
  split at h
  next => cases h
  next =>
    split at h
    next => cases h
    next => rw [← Component.named.inj (Option.some.inj h), String.toList_ofList]

end Segment

/-! ## Paths -/

namespace FilePath

variable {p inner outer : FilePath} {names : List String}

/-- The segments of a path that are steps. -/
def steps (p : FilePath) : List Segment := Segment.steps (Segment.split p.text.toList)

theorem steps_eq (p : FilePath) :
    p.steps = (p.components.filter Component.isStep).map Component.segment := by
  have hanchor : ∀ anchor : Anchor, anchor.components.filter Component.isStep = [] := by
    intro anchor
    cases anchor <;> rfl
  rw [steps, Segment.steps_eq, components, layout, Layout.components_ofText, List.filter_append,
    hanchor, List.nil_append,
    List.filter_eq_self.2 fun _ hc ↦ Segment.isStep_of_mem_filterMap hc]

theorem isAbsolute_iff : p.isAbsolute = true ↔ .root ∈ p.components := by
  have hanchor : .root ∈ p.components ↔ (Layout.ofText p.text.toList).anchor = .absolute := by
    have hbody : .root ∉ (Segment.split p.text.toList).filterMap Segment.component? := fun hc ↦
      absurd (Segment.isStep_of_mem_filterMap hc) Bool.false_ne_true
    rw [components, layout, Layout.components_ofText, List.mem_append, or_iff_left hbody]
    cases (Layout.ofText p.text.toList).anchor <;> simp [Anchor.components]
  obtain ⟨first, rest, hsplit⟩ :=
    List.exists_cons_of_ne_nil (Text.split_ne_nil '/' p.text.toList)
  have htext := Text.join_split '/' p.text.toList
  have hslash : '/' ∉ first := Text.not_mem_of_mem_split (hsplit ▸ List.mem_cons_self)
  rw [hsplit] at htext
  rw [hanchor, isAbsolute, beq_iff_eq, Layout.anchor_ofText _ hsplit, ← htext]
  cases first with
  | nil => cases rest <;> simp [Text.join]
  | cons c first =>
    have hc : c ≠ '/' := fun hc ↦ hslash (hc ▸ List.mem_cons_self)
    cases rest <;> simp [Text.join, hc] <;> split <;> simp

/-- A path has a NUL just if a name in it has one. -/
theorem nul_mem_iff : '\x00' ∈ p.text.toList ↔
    ∃ name, .named name ∈ p.components ∧ '\x00' ∈ name.toList := by
  rw [← Text.join_split '/' p.text.toList, Text.mem_join_iff (by decide), components, layout,
    Layout.components_ofText]
  constructor
  · rintro ⟨s, hs, hnul⟩
    have hname := Segment.component?_of_mem hnul (by decide)
    refine ⟨String.ofList s, List.mem_append_right _ (List.mem_filterMap.2 ⟨s, hs, hname⟩), ?_⟩
    rwa [String.toList_ofList]
  · rintro ⟨name, hname, hnul⟩
    rcases List.mem_append.1 hname with hname | hname
    · cases h : (Layout.ofText p.text.toList).anchor <;> simp [h, Anchor.components] at hname
    · obtain ⟨s, hs, hname⟩ := List.mem_filterMap.1 hname
      exact ⟨s, hs, Segment.eq_toList_of_component? hname ▸ hnul⟩

theorem steps_join (dir rel : FilePath) :
    (dir.join rel).steps = (if rel.isAbsolute then [] else dir.steps) ++ rel.steps := by
  cases hrel : rel.isAbsolute with
  | true => rw [join, if_pos hrel, if_pos rfl, List.nil_append]
  | false =>
    rw [if_neg Bool.false_ne_true]
    by_cases hdir : dir.text = ""
    · have hjoin : dir.join rel = rel := by
        rw [join, hrel, if_neg Bool.false_ne_true, hdir, if_pos (by rfl), String.empty_append]
      have hempty : dir.steps = [] := by rw [steps, hdir]; rfl
      rw [hjoin, hempty, List.nil_append]
    · rw [steps_eq, components_join hdir hrel, List.filter_append, List.map_append, ← steps_eq,
        List.filter_eq_self.2 fun _ hc ↦ Segment.isStep_of_mem_filterMap hc, ← Segment.steps_eq]
      rfl

/-! ### Paths of steps -/

/-- The steps of a relative path, as it takes them behind a directory. -/
def way (p : FilePath) : List Component :=
  (Segment.split p.text.toList).filterMap Segment.component?

/-- A path of steps is relative. -/
theorem way_of_isStep (h : ∀ c ∈ p.components, c.isStep = true) :
    p.isAbsolute = false ∧ p.way = p.components := by
  constructor
  · rw [Bool.eq_false_iff, ne_eq, isAbsolute_iff]
    exact fun hroot ↦ absurd (h _ hroot) Bool.false_ne_true
  · rw [components, layout, Layout.components_ofText] at h ⊢
    have hanchor : ∀ anchor : Anchor, (∀ c ∈ anchor.components, c.isStep = true) →
        anchor.components = [] := by
      intro anchor hsteps
      cases anchor <;> simp [Anchor.components, Component.isStep] at hsteps ⊢
    rw [hanchor _ fun c hc ↦ h c (List.mem_append_left _ hc)]
    rfl

theorem components_join_of_isStep {dir rel : FilePath} (hdir : dir.text ≠ "")
    (h : ∀ c ∈ rel.components, c.isStep = true) :
    (dir.join rel).components = dir.components ++ rel.components := by
  obtain ⟨hrelative, hway⟩ := way_of_isStep h
  rw [components_join hdir hrelative, ← hway]
  rfl

theorem isStep_of_components_eq {front rest : List Component} (hfront : front ≠ [])
    (h : p.components = front ++ rest) : ∀ c ∈ rest, c.isStep = true := by
  obtain ⟨first, front, rfl⟩ := List.exists_cons_of_ne_nil hfront
  intro c hc
  have hmem : c ∈ p.components.tail := by
    rw [h, List.cons_append, List.tail_cons]
    exact List.mem_append_right _ hc
  rw [components, layout, Layout.components_ofText] at hmem
  cases hanchor : (Layout.ofText p.text.toList).anchor <;> rw [hanchor] at hmem
  case free => exact Segment.isStep_of_mem_filterMap (List.mem_of_mem_tail hmem)
  all_goals exact Segment.isStep_of_mem_filterMap hmem

/-! ### Segments of joined paths -/

theorem join_of_isAbsolute {rel : FilePath} (h : rel.isAbsolute = true) (dir : FilePath) :
    dir.join rel = rel := if_pos h

theorem text_join {rel : FilePath} (h : rel.isAbsolute = false) (dir : FilePath) :
    (dir.join rel).text = dir.text ++ rel.text ∨
      (dir.join rel).text = dir.text ++ "/" ++ rel.text := by
  rw [join, if_neg (Bool.eq_false_iff.1 h)]
  split
  next => exact Or.inl rfl
  next => exact Or.inr rfl

theorem isAbsolute_join {dir : FilePath} (h : dir.isAbsolute = true) (rel : FilePath) :
    (dir.join rel).isAbsolute = true := by
  cases hrel : rel.isAbsolute with
  | true => rw [join_of_isAbsolute hrel, hrel]
  | false =>
    rw [isAbsolute, beq_iff_eq] at h ⊢
    rcases text_join hrel dir with htext | htext <;>
      simp [htext, List.head?_append, h]

theorem nul_mem_join_iff {dir rel : FilePath} (h : rel.isAbsolute = false) :
    '\x00' ∈ (dir.join rel).text.toList ↔ '\x00' ∈ dir.text.toList ∨ '\x00' ∈ rel.text.toList := by
  rcases text_join h dir with htext | htext <;> simp [htext]

/-- The segments of a relative path are the last ones of the path behind a directory, and those
before them take the steps of the directory. -/
theorem exists_split_join {dir rel : FilePath} (hdir : dir.text ≠ "")
    (hrel : rel.isAbsolute = false) :
    ∃ front, Segment.steps front = dir.steps ∧
      Segment.split (dir.join rel).text.toList = front ++ Segment.split rel.text.toList := by
  have hchars : dir.text.toList ≠ [] := by simpa using hdir
  rw [join, if_neg (Bool.eq_false_iff.1 hrel)]
  split
  next hlast =>
    -- The empty segment behind the last slash of the directory gives way to the path's own.
    rw [List.getLast?_eq_some_getLast hchars, Option.all_some, beq_iff_eq] at hlast
    have hslash : dir.text.toList = dir.text.toList.dropLast ++ '/' :: [] := by
      rw [← hlast, List.dropLast_concat_getLast]
    refine ⟨Segment.split dir.text.toList.dropLast, ?_, ?_⟩
    · rw [steps, hslash, Segment.split, Segment.split, Text.split_append_cons, Segment.steps_append,
        List.dropLast_concat]
      exact (List.append_nil _).symm
    · rw [String.toList_append, hslash, Segment.split, List.append_assoc, List.cons_append,
        List.nil_append, Text.split_append_cons, List.dropLast_concat]
      rfl
  next =>
    refine ⟨Segment.split dir.text.toList, rfl, ?_⟩
    have htext : (dir.text ++ "/" ++ rel.text).toList =
        dir.text.toList ++ '/' :: rel.text.toList := by simp
    rw [htext, Segment.split, Text.split_append_cons]
    rfl

/-- A path that goes on behind another one with names starts where that one does, and its steps go
on with the names. -/
theorem steps_of_descends (h : inner.components = outer.components ++ names.map .named) :
    inner.isAbsolute = outer.isAbsolute ∧ inner.steps = outer.steps ++ names.map String.toList := by
  constructor
  · rw [Bool.eq_iff_iff, isAbsolute_iff, isAbsolute_iff, h, List.mem_append, or_iff_left (by simp)]
  · rw [steps_eq, h, List.filter_append, List.map_append, ← steps_eq,
      List.filter_eq_self.2 (by simp [Component.isStep]), List.map_map]
    rfl

end FilePath

end Coalesce
