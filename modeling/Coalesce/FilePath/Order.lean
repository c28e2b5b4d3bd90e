import Coalesce.FilePath.Basic

/-!
# The order of paths

Paths are ordered by their component lists, the first difference deciding: the root comes before
`.`, that before `..`, and that before every name; names are ordered by their characters. The
order is taken from keys made of numbers, so that the laws of an order come from those of lists of
numbers. Paths with equal keys are the same path, and a sorted list keeps the first spelling of
each.
-/

namespace Coalesce

/-- The numbers that order components: the kind, then the characters of a name. -/
def Component.key : Component → List Nat
  | .root => [0]
  | .current => [1]
  | .parent => [2]
  | .named name => 3 :: name.toList.map Char.toNat

namespace FilePath

/-- The numbers that order paths. -/
def key (p : FilePath) : List (List Nat) := p.components.map Component.key

/-- Not after: the order of paths by their components. -/
def notAfter (p q : FilePath) : Bool := (compare p.key q.key).isLE

/-- The paths of a list without those that are the same as the one kept before them, where `last`
was kept. -/
def dropRepeatsAfter (last : FilePath) : List FilePath → List FilePath
  | [] => []
  | p :: ps => if last.same p then dropRepeatsAfter last ps else p :: dropRepeatsAfter p ps

/-- The first of every run of paths that are the same. -/
def dropRepeats : List FilePath → List FilePath
  | [] => []
  | p :: ps => p :: dropRepeatsAfter p ps

/-- The paths of a list in order and each once, in the spelling that comes first in the list. -/
def sorted (ps : List FilePath) : List FilePath := dropRepeats (ps.mergeSort notAfter)

/-- The paths of a list in the order of their first appearance, each once. -/
def distinct (ps : List FilePath) : List FilePath := ps.eraseDupsBy same

/-- A path is among the distinct ones of a list just when it is in the list, however spelled. -/
theorem any_distinct (ps : List FilePath) (p : FilePath) :
    (distinct ps).any (·.same p) = ps.any (·.same p) := by
  match ps with
  | [] => rfl
  | q :: ps =>
    have hrest := any_distinct (ps.filter fun r => r.same q = false) p
    rw [distinct, List.eraseDupsBy_cons, List.any_cons, List.any_cons, ← distinct, hrest,
      List.any_filter]
    by_cases hq : q.same p
    · rw [hq, Bool.true_or, Bool.true_or]
    · have hany : ps.any (fun r => (decide (r.same q = false)) && r.same p)
          = ps.any (·.same p) := by
        congr 1
        funext r
        cases hr : r.same q with
        | true => rw [same_congr hr p, Bool.eq_false_iff.2 hq, Bool.and_false]
        | false => simp
      rw [hany]
termination_by ps.length
decreasing_by exact Nat.lt_succ_of_le (List.length_filter_le _ _)

theorem nodup_components_distinct (ps : List FilePath) :
    ((distinct ps).map components).Nodup := by
  match ps with
  | [] => exact List.nodup_nil
  | q :: ps =>
    have hrest := nodup_components_distinct (ps.filter fun r => r.same q = false)
    rw [distinct, List.eraseDupsBy_cons, ← distinct, List.map_cons, List.nodup_cons]
    refine ⟨fun hmem => ?_, hrest⟩
    obtain ⟨r, hr, hcomponents⟩ := List.mem_map.1 hmem
    have hany : (ps.filter fun r => r.same q = false).any (·.same q) = true := by
      rw [← any_distinct]
      exact List.any_eq_true.2 ⟨r, hr, same_iff.2 hcomponents⟩
    obtain ⟨r', hr', hsame⟩ := List.any_eq_true.1 hany
    have hdiffers := (List.mem_filter.1 hr').2
    rw [decide_eq_true_iff, hsame] at hdiffers
    cases hdiffers
termination_by ps.length
decreasing_by exact Nat.lt_succ_of_le (List.length_filter_le _ _)

/-- There are at least as many distinct paths in a list that has all the paths of another one. -/
theorem length_distinct_le {ps qs : List FilePath}
    (h : ∀ p, ps.any (·.same p) = true → qs.any (·.same p) = true) :
    (distinct ps).length ≤ (distinct qs).length := by
  have hsubset : (distinct ps).map components ⊆ (distinct qs).map components := by
    intro cs hcs
    obtain ⟨p, hp, rfl⟩ := List.mem_map.1 hcs
    have hps : ps.any (·.same p) = true := by
      rw [← any_distinct]
      exact List.any_eq_true.2 ⟨p, hp, same_self p⟩
    have hqs := h p hps
    rw [← any_distinct] at hqs
    obtain ⟨q, hq, hsame⟩ := List.any_eq_true.1 hqs
    exact List.mem_map.2 ⟨q, hq, same_iff.1 hsame⟩
  simpa using (nodup_components_distinct ps).length_le_of_subset hsubset

end FilePath

end Coalesce
