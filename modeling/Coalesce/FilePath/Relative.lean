import Coalesce.FilePath.Name
import Coalesce.FilePath.Suffix
import Mathlib.Data.List.DropRight

/-!
# The rest of a path below a directory

What is left of a path below a directory is a piece of the path's text, and it is read as a path of
its own. It takes the steps that the path takes behind those of the directory
(`FilePath.components_relativeTo?`), however the two are spelled: idle segments at the front of the
piece are trimmed, so that what comes first is a step and is not mistaken for an anchor.
-/

namespace Coalesce

/-! ## Pieces of a body -/

namespace Segment

variable {body : List Segment} {s : Segment}

theorem component?_of_isIdle (h : s.isIdle = true) : component? s = none := by
  rw [component?, if_pos h]

theorem component?_of_not_isIdle (h : s.isIdle = false) : (component? s).isSome = true := by
  rw [component?, h, if_neg Bool.false_ne_true]
  split <;> rfl

theorem trimStart_suffix (body : List Segment) : trimStart body <:+ body :=
  List.dropWhile_suffix _

theorem trimEnd_prefix (body : List Segment) : trimEnd body <+: body := List.rdropWhile_prefix _ _

theorem dropSteps_suffix (n : Nat) (body : List Segment) : dropSteps n body <:+ body := by
  fun_induction dropSteps n body with
  | case1 body => exact List.suffix_refl body
  | case2 n => exact List.suffix_refl []
  | case3 n s body hidle ih => exact ih.trans (List.suffix_cons s body)
  | case4 n s body hidle ih => exact ih.trans (List.suffix_cons s body)

theorem filterMap_trimStart (body : List Segment) :
    (trimStart body).filterMap component? = body.filterMap component? := by
  induction body with
  | nil => rfl
  | cons s body ih =>
    rw [trimStart, List.dropWhile_cons]
    split
    next hidle => rw [List.filterMap_cons_none (component?_of_isIdle hidle), ← ih, trimStart]
    next => rfl

theorem filterMap_trimEnd (body : List Segment) :
    (trimEnd body).filterMap component? = body.filterMap component? := by
  have h := filterMap_trimStart body.reverse
  rw [trimStart, List.filterMap_reverse] at h
  rw [trimEnd, List.filterMap_reverse, h, List.reverse_reverse]

theorem filterMap_dropSteps (n : Nat) (body : List Segment) :
    (dropSteps n body).filterMap component? = (body.filterMap component?).drop n := by
  fun_induction dropSteps n body with
  | case1 body => rfl
  | case2 n => rfl
  | case3 n s body hidle ih => rw [ih, List.filterMap_cons_none (component?_of_isIdle hidle)]
  | case4 n s body hidle ih =>
    obtain ⟨c, hc⟩ := Option.isSome_iff_exists.1
      (component?_of_not_isIdle (Bool.eq_false_iff.2 hidle))
    rw [ih, List.filterMap_cons_some hc, List.drop_succ_cons]

theorem isIdle_of_mem_head?_trimStart (h : s ∈ (trimStart body).head?) : s.isIdle = false := by
  have hnot := List.head?_dropWhile_not isIdle body
  rw [trimStart, Option.mem_def] at h
  rwa [h] at hnot

theorem mem_head?_of_trimEnd (h : s ∈ (trimEnd body).head?) : s ∈ body.head? := by
  obtain ⟨rest, hrest⟩ := trimEnd_prefix body
  rw [← hrest, List.head?_append, h]
  rfl

end Segment

namespace Layout

/-- A layout whose text is read again: its segments are found again, and if it has no anchor then
the first of them must not look like one. -/
theorem components_path {l : Layout} (hslash : ∀ s ∈ l.body, '/' ∉ s)
    (hfirst : l.anchor = .free → ∀ s ∈ l.body.head?, s.isIdle = false) :
    l.path.components = l.components := by
  obtain ⟨anchor, body⟩ := l
  have hread : (path ⟨anchor, body⟩).components = (ofText (anchor.render body)).components := by
    rw [FilePath.components, FilePath.layout, path, String.toList_ofList]
  have hsplit : body ≠ [] → Segment.split (Segment.join body) = body := fun hbody ↦
    Text.split_join hbody hslash
  have hsegments : ∀ s : Segment, '/' ∉ s → body ≠ [] →
      Segment.split (s ++ '/' :: Segment.join body) = s :: body := by
    intro s hs hbody
    rw [Segment.split, Text.split_append_cons, Text.split_eq_singleton hs, ← Segment.split,
      hsplit hbody]
    rfl
  rw [hread]
  cases anchor with
  | absolute =>
    by_cases hbody : body = []
    · subst hbody
      rfl
    · rw [← ofText_absolute (hsegments [] (by simp) hbody) hbody]
      rfl
  | here =>
    cases body with
    | nil => rfl
    | cons s body =>
      rw [← ofText_here (hsegments ['.'] (by simp) (by simp))]
      rfl
  | free =>
    cases body with
    | nil => rfl
    | cons s body =>
      have hs := hfirst rfl s rfl
      rw [Segment.isIdle, Bool.or_eq_false_iff, beq_eq_false_iff_ne, beq_eq_false_iff_ne] at hs
      rw [← ofText_free (hsplit (by simp)) hs.1 hs.2]
      rfl

theorem mem_split_of_mem_body {cs : List Char} {s : Segment} (h : s ∈ (ofText cs).body) :
    s ∈ Segment.split cs := by
  rw [ofText] at h
  split at h
  next hsplit => exact hsplit ▸ List.mem_cons_of_mem _ h
  next hsplit => exact hsplit ▸ List.mem_cons_of_mem _ h
  next => exact h

theorem slash_not_mem_of_mem_body {cs : List Char} {s : Segment} (h : s ∈ (ofText cs).body) :
    '/' ∉ s :=
  Text.not_mem_of_mem_split (mem_split_of_mem_body h)

/-- Without an anchor the body begins with a step, unless it is empty. -/
theorem body_of_free {cs : List Char} {s : Segment} (h : (ofText cs).anchor = .free)
    (hs : s ∈ (ofText cs).body.head?) : s.isIdle = false ∨ (ofText cs).body = [[]] := by
  obtain ⟨first, rest, hsplit⟩ := List.exists_cons_of_ne_nil (Text.split_ne_nil '/' cs)
  by_cases hempty : first = []
  · subst hempty
    by_cases hrest : rest = []
    · subst hrest
      exact Or.inr (by rw [ofText, Segment.split, hsplit])
    · rw [ofText_absolute hsplit hrest] at h
      cases h
  · by_cases hdot : first = ['.']
    · subst hdot
      rw [ofText_here hsplit] at h
      cases h
    · rw [ofText_free hsplit hempty hdot] at hs
      obtain rfl := Option.some.inj hs
      exact Or.inl (by simp [Segment.isIdle, hempty, hdot])

end Layout

namespace FilePath

variable {p dir : FilePath} {rest : List Component}

/-- **The rest of a path below a directory** takes the steps that are left. -/
theorem components_relativeTo? (h : p.components = dir.components ++ rest) :
    ∃ rel, p.relativeTo? dir = some rel ∧ rel.components = rest := by
  have hprefix : dir.components.isPrefixOf p.components = true :=
    List.isPrefixOf_iff_prefix.2 ⟨rest, h.symm⟩
  have hslash : ∀ s ∈ p.layout.body, '/' ∉ s := fun s ↦ Layout.slash_not_mem_of_mem_body
  rw [relativeTo?, if_pos hprefix]
  by_cases hdir : dir.components = []
  · rw [hdir, List.nil_append] at h
    rw [if_pos hdir]
    refine ⟨_, rfl, ?_⟩
    rw [Layout.components_path, Layout.components, Segment.filterMap_trimEnd, ← h]
    · rfl
    · exact fun s hs ↦ hslash s ((Segment.trimEnd_prefix _).subset hs)
    · intro hfree s hs
      rcases Layout.body_of_free hfree (Segment.mem_head?_of_trimEnd hs) with hstep | hbody
      · exact hstep
      · have hnone : (Segment.trimEnd p.layout.body).head? = none := by rw [layout, hbody]; rfl
        simp [hnone] at hs
  · rw [if_neg hdir]
    refine ⟨_, rfl, ?_⟩
    rw [Layout.components_path, Layout.components, Segment.filterMap_trimEnd,
      Segment.filterMap_trimStart, Segment.filterMap_dropSteps]
    · -- The anchor of the path belongs to the directory, which is not empty.
      have hanchor : p.layout.anchor.components.length ≤ dir.components.length := by
        have hpos := List.length_pos_iff.2 hdir
        cases p.layout.anchor <;> simp [Anchor.components] <;> omega
      have hlayout : p.components =
          p.layout.anchor.components ++ p.layout.body.filterMap Segment.component? := rfl
      have hsteps := congrArg (List.drop dir.components.length) h
      rw [List.drop_left, hlayout, List.drop_append, List.drop_eq_nil_of_le hanchor,
        List.nil_append] at hsteps
      exact hsteps
    · intro s hs
      exact hslash s ((Segment.dropSteps_suffix _ _).subset ((Segment.trimStart_suffix _).subset
        ((Segment.trimEnd_prefix _).subset hs)))
    · exact fun _ s hs ↦ Segment.isIdle_of_mem_head?_trimStart (Segment.mem_head?_of_trimEnd hs)

/-! ## The characters of the rest -/

theorem mem_layout_path {l : Layout} {c : Char} (h : c ∈ l.path.text.toList) :
    c = '/' ∨ c = '.' ∨ ∃ s ∈ l.body, c ∈ s := by
  obtain ⟨anchor, body⟩ := l
  have hbody : c ∈ Segment.join body → c = '/' ∨ c = '.' ∨ ∃ s ∈ body, c ∈ s := fun hc ↦
    (Classical.em (c = '/')).imp_right fun hslash ↦ Or.inr ((Text.mem_join_iff hslash).1 hc)
  rw [Layout.path, String.toList_ofList] at h
  cases anchor with
  | absolute => exact (List.mem_cons.1 h).elim Or.inl hbody
  | free => exact hbody h
  | here =>
    cases body with
    | nil => exact Or.inr (Or.inl (List.mem_singleton.1 h))
    | cons s body =>
      rcases List.mem_cons.1 h with hdot | h
      · exact Or.inr (Or.inl hdot)
      · exact (List.mem_cons.1 h).elim Or.inl hbody

/-- The rest of a path has no characters of its own but slashes and dots. -/
theorem mem_relativeTo? {rel : FilePath} {c : Char} (h : p.relativeTo? dir = some rel)
    (hc : c ∈ rel.text.toList) : c = '/' ∨ c = '.' ∨ c ∈ p.text.toList := by
  have hsegments : ∀ s ∈ p.layout.body, c ∈ s → c ∈ p.text.toList := fun s hs hmem ↦ by
    have hsplit := Layout.mem_split_of_mem_body hs
    have hslash : c ≠ '/' := fun heq ↦ Text.not_mem_of_mem_split hsplit (heq ▸ hmem)
    rw [← Text.join_split '/' p.text.toList, Text.mem_join_iff hslash]
    exact ⟨s, hsplit, hmem⟩
  have hlayout : ∃ l : Layout, l.path = rel ∧ ∀ s ∈ l.body, s ∈ p.layout.body := by
    rw [relativeTo?] at h
    split at h
    next =>
      split at h
      next => exact ⟨_, Option.some.inj h, fun s hs ↦ (Segment.trimEnd_prefix _).subset hs⟩
      next =>
        exact ⟨_, Option.some.inj h, fun s hs ↦ (Segment.dropSteps_suffix _ _).subset
          ((Segment.trimStart_suffix _).subset ((Segment.trimEnd_prefix _).subset hs))⟩
    next => cases h
  obtain ⟨l, rfl, hbody⟩ := hlayout
  rcases mem_layout_path hc with hslash | hdot | ⟨s, hs, hmem⟩
  · exact Or.inl hslash
  · exact Or.inr (Or.inl hdot)
  · exact Or.inr (Or.inr (hsegments s (hbody s hs) hmem))

end FilePath

end Coalesce
