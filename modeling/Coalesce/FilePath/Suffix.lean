import Coalesce.FilePath.Basic
import Mathlib.Data.List.Basic

/-!
# Paths with a suffix

A suffix is written behind the text of a path, and comparisons look at the components, so the same
suffix need not keep paths the same. `/p/a` and `/p/a/` are one path, but with `.map` behind them
they are a file beside `a` and a file inside it.

A suffix that begins with a slash is the way on from wherever the path leads. Any other suffix goes
on with the last segment of the path's body (`FilePath.ending?`), and all other steps stay
(`FilePath.lead`). Hence paths that are the same stay so exactly if their last segments are the same
text, idle segments included (`FilePath.same_withSuffix_iff`).
-/

namespace Coalesce

/-! ## Segments with more text behind them -/

namespace Segment

theorem component?_eq_none_iff {s : Segment} : component? s = none ↔ s = [] ∨ s = ['.'] := by
  have hidle : s.isIdle = true ↔ s = [] ∨ s = ['.'] := by
    rw [isIdle, Bool.or_eq_true, beq_iff_eq, beq_iff_eq]
  rw [← hidle, component?]
  split
  next h => simp [h]
  next h => split <;> simp [h]

theorem component?_ne_current (s : Segment) : component? s ≠ some .current := by
  rw [component?]
  split
  next => simp
  next => split <;> simp

theorem eq_of_component? {s t : Segment} {c : Component} (hs : component? s = some c)
    (ht : component? t = some c) : s = t := by
  have hread : ∀ {u : Segment}, component? u = some c →
      c = .parent ∧ u = ['.', '.'] ∨ c = .named (String.ofList u) := by
    intro u hu
    rw [component?] at hu
    split at hu
    next => cases hu
    next =>
      split at hu
      next hdots => exact Or.inl ⟨(Option.some.inj hu).symm, hdots⟩
      next => exact Or.inr (Option.some.inj hu).symm
  rcases hread hs with ⟨rfl, rfl⟩ | hs
  · rcases hread ht with ⟨-, rfl⟩ | ht
    · rfl
    · cases ht
  · rcases hread ht with ⟨rfl, rfl⟩ | ht
    · cases hs
    · exact String.ofList_injective (Component.named.inj (hs.symm.trans ht))

theorem component?_append_ne_none {s t : Segment} (hs : s ≠ []) (ht : t ≠ []) :
    component? (s ++ t) ≠ none := by
  have hlength : 2 ≤ (s ++ t).length := by
    have := List.length_pos_iff.2 hs
    have := List.length_pos_iff.2 ht
    rw [List.length_append]
    omega
  rw [ne_eq, component?_eq_none_iff]
  rintro (h | h) <;> simp [h] at hlength

/-- Behind equal steps, segments that differ still do when the same text goes on with them. -/
theorem grown_ne {s t first : Segment} {l m : List Component} (hfirst : first ≠ [])
    (hst : s ≠ t) (h : l ++ (component? s).toList = m ++ (component? t).toList) :
    l ++ (component? (s ++ first)).toList ≠ m ++ (component? (t ++ first)).toList := by
  -- A segment that stands for a step would have to stay as it is beside an idle one.
  have hstep : ∀ {s t : Segment} {l m : List Component} {c : Component},
      component? s = some c → l ++ [c] = m →
      l ++ (component? (s ++ first)).toList ≠ m ++ (component? (t ++ first)).toList := by
    rintro s t l m c hs rfl hgrown
    rw [List.append_assoc, List.append_cancel_left_eq] at hgrown
    cases hc : component? (s ++ first) with
    | none => simp [hc] at hgrown
    | some c' =>
      rw [hc, Option.toList_some, List.singleton_append] at hgrown
      rw [(List.cons.inj hgrown).1] at hc
      exact hfirst (by simpa using eq_of_component? hc hs)
  -- Of the idle segments, one is longer than the other.
  have hidle : component? ([] ++ first) ≠ component? (['.'] ++ first) := by
    obtain ⟨c, hc⟩ :=
      Option.ne_none_iff_exists'.1 (component?_append_ne_none (List.cons_ne_nil '.' []) hfirst)
    intro heq
    have hsame := eq_of_component? (heq.trans hc) hc
    simp at hsame
  cases hs : component? s with
  | some c =>
    cases ht : component? t with
    | some d =>
      rw [hs, ht] at h
      have hcd : c = d := List.singleton_inj.1 (List.append_inj' h rfl).2
      exact absurd (eq_of_component? hs (hcd ▸ ht)) hst
    | none =>
      rw [hs, ht, Option.toList_none, List.append_nil] at h
      exact hstep hs h
  | none =>
    cases ht : component? t with
    | some d =>
      rw [hs, ht, Option.toList_none, List.append_nil] at h
      exact (hstep ht h.symm).symm
    | none =>
      rw [hs, ht, Option.toList_none, List.append_nil, List.append_nil] at h
      rw [h, ne_eq, List.append_cancel_left_eq]
      intro hgrown
      have hsame : component? (s ++ first) = component? (t ++ first) := by
        simpa using congrArg List.head? hgrown
      rcases component?_eq_none_iff.1 hs with rfl | rfl <;>
        rcases component?_eq_none_iff.1 ht with rfl | rfl
      · exact hst rfl
      · exact hidle hsame
      · exact hidle hsame.symm
      · exact hst rfl

end Segment

/-! ## Layouts, by the first segment -/

namespace Layout

variable {cs : List Char} {s : Segment} {body : List Segment}

theorem ofText_absolute (h : Segment.split cs = [] :: body) (hbody : body ≠ []) :
    ofText cs = ⟨.absolute, body⟩ := by
  obtain ⟨s, body, rfl⟩ := List.exists_cons_of_ne_nil hbody
  rw [ofText, h]

theorem ofText_here (h : Segment.split cs = ['.'] :: body) : ofText cs = ⟨.here, body⟩ := by
  rw [ofText, h]
  rfl

theorem ofText_free (h : Segment.split cs = s :: body) (hs : s ≠ []) (hdot : s ≠ ['.']) :
    ofText cs = ⟨.free, s :: body⟩ := by
  rw [ofText, h]
  split <;> simp_all

end Layout

/-! ## Paths with a suffix -/

namespace FilePath

/-- The last segment of a path's body, which a text written behind the path goes on with. The path
`.` has no body. -/
def ending? (p : FilePath) : Option Segment := p.layout.body.getLast?

/-- The steps of a path but for what its last segment stands for. -/
def lead (p : FilePath) : List Component :=
  p.layout.anchor.components ++ p.layout.body.dropLast.filterMap Segment.component?

variable {p q : FilePath} {suffix : String} {s t first : Segment} {rest : List Segment}

theorem components_eq_lead (p : FilePath) :
    p.components = p.lead ++ (p.ending?.bind Segment.component?).toList := by
  rw [components, Layout.components, lead, ending?, List.append_assoc]
  rcases List.eq_nil_or_concat p.layout.body with h | ⟨before, last, h⟩
  · rw [h]
    rfl
  · rw [h, List.concat_eq_append, List.dropLast_concat, List.getLast?_concat, List.filterMap_append,
      Option.bind_some]
    cases hlast : Segment.component? last <;> simp [hlast]

theorem components_eq_nil_iff : p.components = [] ↔ p.text = "" := by
  constructor
  · intro h
    obtain ⟨s, body, hsplit⟩ := List.exists_cons_of_ne_nil (Text.split_ne_nil '/' p.text.toList)
    have htext : Text.join '/' (s :: body) = p.text.toList := by rw [← hsplit, Text.join_split]
    rw [components, layout, Layout.components_ofText, List.append_eq_nil_iff,
      Layout.anchor_ofText _ hsplit] at h
    obtain ⟨hanchor, hsegments⟩ := h
    -- The first segment is no anchor, and it stands for no step.
    have hs : Segment.component? s = none :=
      List.filterMap_eq_nil_iff.1 hsegments s (by rw [Segment.split, hsplit]; simp)
    rcases Segment.component?_eq_none_iff.1 hs with rfl | rfl
    · by_cases hbody : body = []
      · rw [hbody] at htext
        simpa [Text.join] using htext.symm
      · rw [if_pos ⟨rfl, hbody⟩] at hanchor
        cases hanchor
    · rw [if_neg (by simp), if_pos rfl] at hanchor
      cases hanchor
  · intro h
    rw [components, layout, h]
    rfl

theorem ending?_eq_none_iff : p.ending? = none ↔ p.text = "." := by
  constructor
  · intro h
    rw [ending?, List.getLast?_eq_none_iff, layout] at h
    obtain ⟨s, body, hsplit⟩ := List.exists_cons_of_ne_nil (Text.split_ne_nil '/' p.text.toList)
    by_cases hdot : s = ['.']
    · rw [hdot] at hsplit
      obtain rfl : body = [] := by rwa [Layout.ofText_here hsplit] at h
      rw [← String.toList_inj, ← Text.join_split '/' p.text.toList, hsplit]
      rfl
    · by_cases hroot : s = []
      · rw [hroot] at hsplit
        rw [Layout.ofText, Segment.split, hsplit] at h
        cases body <;> cases h
      · rw [Layout.ofText_free hsplit hroot hdot] at h
        cases h
  · intro h
    rw [ending?, layout, h]
    rfl

/-- A text that begins within a segment goes on with the last segment of the path in front of it. -/
theorem layout_withSuffix (hp : p.text ≠ "") (hs : p.ending? = some s)
    (hsuffix : Segment.split suffix.toList = first :: rest) (hfirst : first ≠ []) :
    (p.withSuffix suffix).layout =
      ⟨p.layout.anchor, p.layout.body.dropLast ++ (s ++ first) :: rest⟩ := by
  have hjoined : ∀ {before}, Segment.split p.text.toList = before ++ [s] →
      Segment.split (p.withSuffix suffix).text.toList = before ++ (s ++ first) :: rest := by
    intro before hbefore
    rw [withSuffix, String.toList_append]
    exact Text.split_append hbefore hsuffix
  have hends : ∀ {body : List Segment}, body.getLast? = some s → body = body.dropLast ++ [s] :=
    fun h ↦ (List.dropLast_append_getLast? s h).symm
  obtain ⟨t, body, hsplit⟩ := List.exists_cons_of_ne_nil (Text.split_ne_nil '/' p.text.toList)
  rw [ending?, layout] at hs
  rw [layout, layout]
  by_cases hroot : t = []
  · subst hroot
    have hbody : body ≠ [] := by
      rintro rfl
      have hempty := Text.join_split '/' p.text.toList
      rw [hsplit] at hempty
      exact hp (by simpa [Text.join] using hempty.symm)
    rw [Layout.ofText_absolute hsplit hbody] at hs ⊢
    have hwhole : Segment.split p.text.toList = ([] :: body.dropLast) ++ [s] :=
      hsplit.trans (congrArg _ (hends hs))
    exact Layout.ofText_absolute (hjoined hwhole) (by simp)
  · by_cases hdot : t = ['.']
    · subst hdot
      rw [Layout.ofText_here hsplit] at hs ⊢
      have hwhole : Segment.split p.text.toList = (['.'] :: body.dropLast) ++ [s] :=
        hsplit.trans (congrArg _ (hends hs))
      exact Layout.ofText_here (hjoined hwhole)
    · rw [Layout.ofText_free hsplit hroot hdot] at hs ⊢
      have hwhole := hjoined (hsplit.trans (hends hs))
      cases body with
      | nil =>
        -- The first segment itself grows, but not into an anchor.
        obtain rfl : t = s := by simpa using hs
        refine Layout.ofText_free hwhole (by simp [hroot]) fun h ↦ ?_
        exact Segment.component?_append_ne_none hroot hfirst (by rw [h]; rfl)
      | cons u body => exact Layout.ofText_free hwhole hroot hdot

theorem components_withSuffix (hp : p.text ≠ "") (hs : p.ending? = some s)
    (hsuffix : Segment.split suffix.toList = first :: rest) (hfirst : first ≠ []) :
    (p.withSuffix suffix).components =
      p.lead ++ (Segment.component? (s ++ first)).toList ++
        rest.filterMap Segment.component? := by
  rw [components, layout_withSuffix hp hs hsuffix hfirst, Layout.components, lead,
    List.filterMap_append, List.filterMap_cons]
  cases Segment.component? (s ++ first) <;> simp

theorem components_withSuffix_slash {cs : List Char} (hp : p.text ≠ "")
    (hsuffix : suffix.toList = '/' :: cs) :
    (p.withSuffix suffix).components =
      p.components ++ (Segment.split cs).filterMap Segment.component? := by
  obtain ⟨s, body, hsplit⟩ := List.exists_cons_of_ne_nil (Text.split_ne_nil '/' p.text.toList)
  have hjoined : Segment.split (p.withSuffix suffix).text.toList =
      s :: (body ++ Segment.split cs) := by
    rw [withSuffix, String.toList_append, hsuffix, Segment.split, Text.split_append_cons, hsplit]
    rfl
  refine Layout.components_ofText_append hsplit hjoined (fun hs ↦ ?_) List.filterMap_append
  have hcs : Segment.split cs ≠ [] := Text.split_ne_nil _ _
  refine ⟨?_, by simp [hcs]⟩
  rintro rfl
  have hempty := Text.join_split '/' p.text.toList
  rw [hsplit, hs] at hempty
  exact hp (by simpa [Text.join] using hempty.symm)

/-! ## Sameness -/

theorem text_eq_empty_of_same (h : p.same q = true) (hp : p.text = "") : q.text = "" := by
  rw [← components_eq_nil_iff] at hp ⊢
  rw [← same_iff.1 h, hp]

/-- A text that begins within a segment leads away from the current directory if that is written
as `.`, but not if anything stands behind the dot. -/
theorem not_same_withSuffix_dot (h : p.same q = true) (hp : p.text = ".")
    (ht : q.ending? = some t) (hsuffix : Segment.split suffix.toList = first :: rest)
    (hfirst : first ≠ []) : ¬(p.withSuffix suffix).same (q.withSuffix suffix) = true := by
  have hcurrent : q.components = [.current] := by
    rw [← same_iff.1 h, components, layout, hp]
    rfl
  have hq : q.text ≠ "" := by
    rw [ne_eq, ← components_eq_nil_iff, hcurrent]
    exact List.cons_ne_nil _ _
  have hlead : q.lead = [.current] := by
    rw [components_eq_lead, ht, Option.bind_some] at hcurrent
    cases hc : Segment.component? t with
    | none => simpa [hc] using hcurrent
    | some c =>
      rw [hc, Option.toList_some, List.append_eq_singleton_iff] at hcurrent
      rcases hcurrent with ⟨-, hc'⟩ | ⟨-, hc'⟩
      · rw [List.singleton_inj.1 hc'] at hc
        exact absurd hc (Segment.component?_ne_current t)
      · cases hc'
  obtain ⟨c, hc⟩ : ∃ c, Segment.component? ('.' :: first) = some c :=
    Option.ne_none_iff_exists'.1
      (Segment.component?_append_ne_none (List.cons_ne_nil '.' []) hfirst)
  have hfree : (p.withSuffix suffix).layout = ⟨.free, ('.' :: first) :: rest⟩ := by
    have hdot : Text.split '/' ".".toList = [] ++ [['.']] := rfl
    refine Layout.ofText_free ?_ (List.cons_ne_nil _ _) (by simp [hfirst])
    rw [withSuffix, hp, String.toList_append]
    exact Text.split_append hdot hsuffix
  rw [same_iff, components_withSuffix hq ht hsuffix hfirst, hlead, components, hfree,
    Layout.components, List.filterMap_cons_some hc]
  intro heq
  rw [(List.cons.inj heq).1] at hc
  exact Segment.component?_ne_current _ hc

/-- Paths that are the same stay so if the last segments of both grow alike. -/
theorem same_withSuffix_iff_of_within (h : p.same q = true) (hp : p.text ≠ "")
    (hsuffix : Segment.split suffix.toList = first :: rest) (hfirst : first ≠ []) :
    (p.withSuffix suffix).same (q.withSuffix suffix) = true ↔ p.ending? = q.ending? := by
  have hq : q.text ≠ "" := fun hq ↦ hp (text_eq_empty_of_same (by rwa [same_comm]) hq)
  cases hs : p.ending? with
  | none =>
    cases ht : q.ending? with
    | none =>
      have htext := (ending?_eq_none_iff.1 hs).trans (ending?_eq_none_iff.1 ht).symm
      obtain rfl : p = q := congrArg FilePath.mk htext
      simp
    | some t =>
      have hnot := not_same_withSuffix_dot h (ending?_eq_none_iff.1 hs) ht hsuffix hfirst
      simpa using hnot
  | some s =>
    cases ht : q.ending? with
    | none =>
      rw [same_comm] at h
      have hnot := not_same_withSuffix_dot h (ending?_eq_none_iff.1 ht) hs hsuffix hfirst
      rw [same_comm] at hnot
      simpa using hnot
    | some t =>
      rw [same_iff, components_eq_lead, components_eq_lead, hs, ht] at h
      rw [same_iff, components_withSuffix hp hs hsuffix hfirst,
        components_withSuffix hq ht hsuffix hfirst, List.append_cancel_right_eq, Option.some_inj]
      constructor
      · intro heq
        refine Classical.byContradiction fun hst ↦ ?_
        exact Segment.grown_ne hfirst hst h heq
      · rintro rfl
        rw [List.append_cancel_right h]

/-- **When a suffix keeps paths the same.** Paths that are the same stay so with a suffix that is
empty or begins with a slash. With any other suffix they do just if their last segments are the same
text. -/
theorem same_withSuffix_iff (h : p.same q = true) (suffix : String) :
    (p.withSuffix suffix).same (q.withSuffix suffix) = true ↔
      suffix.toList.head?.all (· == '/') = true ∨ p.ending? = q.ending? := by
  by_cases hp : p.text = ""
  · obtain rfl : p = q := congrArg FilePath.mk (hp.trans (text_eq_empty_of_same h hp).symm)
    simp
  · have hq : q.text ≠ "" := fun hq ↦ hp (text_eq_empty_of_same (by rwa [same_comm]) hq)
    cases hsuffix : suffix.toList with
    | nil =>
      obtain rfl : suffix = "" := by simpa using hsuffix
      simpa [withSuffix] using h
    | cons c cs =>
      by_cases hslash : c = '/'
      · rw [hslash] at hsuffix
        rw [same_iff, components_withSuffix_slash hp hsuffix,
          components_withSuffix_slash hq hsuffix, same_iff.1 h]
        simp [hslash]
      · obtain ⟨piece, pieces, hpieces⟩ := List.exists_cons_of_ne_nil (Text.split_ne_nil '/' cs)
        have hwithin : Segment.split suffix.toList = (c :: piece) :: pieces := by
          rw [Segment.split, hsuffix, Text.split, if_neg hslash, hpieces]
        rw [same_withSuffix_iff_of_within h hp hwithin (List.cons_ne_nil _ _)]
        simp [hslash]

end FilePath

end Coalesce
