import Coalesce.FilePath.Order
import Mathlib.Data.List.Sort

/-!
# Sorted lists of paths

The keys that order paths are lists of numbers; here is the order that they stand for
(`FilePath.Precedes`): at the first component in which two paths differ, the root comes first, then
`.`, then `..`, then names by their characters, and a path comes before every path below it.

A sorted list is strictly increasing in that order. Sorting is stable, so the spelling that it keeps
of a path is the one that comes first in the list: looking for a path finds the same in the sorted
list as in the list itself (`FilePath.find?_sorted`). As a strictly increasing list is known by its
members, this decides when two lists are sorted to the same list, and when to the same list but for
spelling.
-/

namespace Coalesce

/-- Lists are compared by the first members that differ, also when their members are told by
keys. -/
theorem compare_map_eq_lt_iff {α β : Type} [Ord β] [Std.LawfulEqOrd β] {f : α → β}
    (hf : Function.Injective f) (xs ys : List α) :
    compare (xs.map f) (ys.map f) = .lt ↔
      List.Lex (fun x y ↦ compare (f x) (f y) = .lt) xs ys := by
  rw [List.compare_eq_compareLex]
  induction xs generalizing ys with
  | nil => cases ys <;> simp [List.compareLex_nil_nil, List.compareLex_nil_cons]
  | cons x xs ih =>
    cases ys with
    | nil => simp [List.compareLex_cons_nil]
    | cons y ys =>
      rw [List.map_cons, List.map_cons, List.compareLex_cons_cons, Ordering.then_eq_lt, ih,
        List.cons_lex_cons_iff, Std.compare_eq_iff_eq, hf.eq_iff]

/-! ## The order -/

namespace Component

/-- The kind of a component. -/
def rank : Component → Nat
  | root => 0
  | current => 1
  | parent => 2
  | named _ => 3

/-- The order of components: names by their characters, all else by its kind. -/
def Precedes : Component → Component → Prop
  | named a, named b => a.toList < b.toList
  | a, b => a.rank < b.rank

theorem toNat_injective : Function.Injective Char.toNat := fun _ _ ↦ Char.toNat_inj.1

theorem key_injective : Function.Injective key := by
  intro a b h
  cases a <;> cases b <;> simp only [key, List.cons.injEq] at h
  case named.named a b =>
    rw [String.toList_inj.1 (List.map_injective_iff.2 toNat_injective h.2)]
  all_goals simp_all

theorem precedes_iff (a b : Component) : a.Precedes b ↔ compare a.key b.key = .lt := by
  have hkinds : ∀ (m n : Nat) (ms ns : List Nat), compare (m :: ms) (n :: ns) = .lt ↔
      m < n ∨ m = n ∧ compare ms ns = .lt := by
    intro m n ms ns
    rw [List.compare_eq_compareLex, List.compareLex_cons_cons, Ordering.then_eq_lt,
      Nat.compare_eq_lt, Nat.compare_eq_eq]
  cases a <;> cases b <;> simp only [key, hkinds]
  case named.named a b =>
    have hchars : ∀ c d : Char, compare c.toNat d.toNat = .lt ↔ c < d := fun c d ↦
      Nat.compare_eq_lt.trans Char.lt_def.symm
    rw [Precedes, ← List.lex_lt, compare_map_eq_lt_iff toNat_injective, or_iff_right (lt_irrefl 3)]
    simp only [hchars, true_and]
  all_goals simp [Precedes, rank]

end Component

/-- The order of the lists of components that paths take: the first difference decides. -/
def StepsPrecede (cs ds : List Component) : Prop := List.Lex Component.Precedes cs ds

theorem stepsPrecede_iff (cs ds : List Component) :
    StepsPrecede cs ds ↔ compare (cs.map Component.key) (ds.map Component.key) = .lt := by
  have horder : Component.Precedes = fun c d ↦ compare c.key d.key = .lt :=
    funext₂ fun c d ↦ propext (c.precedes_iff d)
  rw [StepsPrecede, horder, compare_map_eq_lt_iff Component.key_injective]

instance : Std.Irrefl StepsPrecede where
  irrefl cs := by simp [stepsPrecede_iff]

instance : IsTrans (List Component) StepsPrecede where
  trans cs ds es := by
    simp only [stepsPrecede_iff]
    exact Std.TransCmp.lt_trans

instance : Std.Antisymm StepsPrecede where
  antisymm cs _ h h' := absurd (trans_of StepsPrecede h h') (irrefl_of StepsPrecede cs)

namespace FilePath

/-- The order of paths by their components. -/
def Precedes (p q : FilePath) : Prop := StepsPrecede p.components q.components

instance (p q : FilePath) : Decidable (p.Precedes q) :=
  decidable_of_iff _ (stepsPrecede_iff p.components q.components).symm

variable {p q r : FilePath} {ps qs : List FilePath}

theorem Precedes.trans (h : p.Precedes q) (h' : q.Precedes r) : p.Precedes r :=
  trans_of StepsPrecede h h'

instance : Std.Irrefl Precedes where
  irrefl p := irrefl_of StepsPrecede p.components

instance : Std.Antisymm Precedes where
  antisymm p _ h h' := absurd (h.trans h') (irrefl_of Precedes p)

theorem notAfter_iff : p.notAfter q = true ↔ p.Precedes q ∨ p.same q = true := by
  rw [notAfter, Ordering.isLE_iff_eq_lt_or_eq_eq, Std.compare_eq_iff_eq, same_iff, Precedes,
    stepsPrecede_iff, key, key, (List.map_injective_iff.2 Component.key_injective).eq_iff]

theorem notAfter_trans (p q r : FilePath) (h : p.notAfter q = true) (h' : q.notAfter r = true) :
    p.notAfter r = true :=
  Std.TransCmp.isLE_trans h h'

theorem notAfter_total (p q : FilePath) : (p.notAfter q || q.notAfter p) = true := by
  have hswap : compare q.key p.key = (compare p.key q.key).swap := Std.OrientedCmp.eq_swap
  rw [notAfter, notAfter, hswap]
  cases compare p.key q.key <;> rfl

/-! ## Dropping repeats -/

theorem pairwise_dropRepeatsAfter (h : (p :: ps).Pairwise (·.notAfter ·)) :
    (p :: dropRepeatsAfter p ps).Pairwise Precedes := by
  induction ps generalizing p with
  | nil => exact List.pairwise_singleton _ _
  | cons q ps ih =>
    rw [dropRepeatsAfter]
    split
    next => exact ih (h.sublist ((List.sublist_cons_self q ps).cons_cons p))
    next hpq =>
      have hrest := ih h.of_cons
      have hfirst : p.Precedes q :=
        (notAfter_iff.1 (List.rel_of_pairwise_cons h List.mem_cons_self)).resolve_right hpq
      refine List.pairwise_cons.2 ⟨fun r hr ↦ ?_, hrest⟩
      rcases List.mem_cons.1 hr with rfl | hr
      · exact hfirst
      · exact hfirst.trans (List.rel_of_pairwise_cons hrest hr)

/-- A repeat is never the first of its kind. -/
theorem find?_dropRepeatsAfter (p q : FilePath) (ps : List FilePath) :
    (p :: dropRepeatsAfter p ps).find? (·.same q) = (p :: ps).find? (·.same q) := by
  induction ps generalizing p with
  | nil => rfl
  | cons r ps ih =>
    rw [dropRepeatsAfter]
    split
    next hpr =>
      rw [ih, List.find?_cons, List.find?_cons, List.find?_cons, ← same_congr hpr]
      cases p.same q <;> rfl
    next =>
      rw [List.find?_cons, ih]
      rfl

/-! ## Sorting -/

theorem pairwise_sorted (ps : List FilePath) : (sorted ps).Pairwise Precedes := by
  have h := List.pairwise_mergeSort notAfter_trans notAfter_total ps
  rw [sorted]
  cases hsorted : ps.mergeSort notAfter with
  | nil => exact List.Pairwise.nil
  | cons q qs =>
    rw [hsorted] at h
    exact pairwise_dropRepeatsAfter h

theorem filter_mergeSort (ps : List FilePath) (p : FilePath) :
    (ps.mergeSort notAfter).filter (·.same p) = ps.filter (·.same p) := by
  have hties : (ps.filter (·.same p)).Pairwise (·.notAfter ·) := by
    refine List.pairwise_of_forall_mem_list fun q hq r hr ↦ notAfter_iff.2 (Or.inr ?_)
    rw [same_congr (List.mem_filter.1 hq).2, same_comm]
    exact (List.mem_filter.1 hr).2
  have hkept := (List.sublist_mergeSort notAfter_trans notAfter_total hties
    List.filter_sublist).filter (·.same p)
  have hlength := ((List.mergeSort_perm ps notAfter).filter (·.same p)).length_eq
  simp only [List.filter_filter, Bool.and_self] at hkept
  exact (hkept.eq_of_length hlength.symm).symm

/-- The spelling that is kept of a path is the first one. -/
theorem find?_sorted (ps : List FilePath) (p : FilePath) :
    (sorted ps).find? (·.same p) = ps.find? (·.same p) := by
  rw [← List.head?_filter (l := ps), ← filter_mergeSort, List.head?_filter, sorted]
  cases ps.mergeSort notAfter with
  | nil => rfl
  | cons q qs => exact find?_dropRepeatsAfter q p qs

theorem any_sorted (ps : List FilePath) (p : FilePath) :
    (sorted ps).any (·.same p) = ps.any (·.same p) := by
  rw [← List.isSome_find?, ← List.isSome_find?, find?_sorted]

theorem nodup_components_sorted (ps : List FilePath) : ((sorted ps).map components).Nodup :=
  ((pairwise_sorted ps).map (S := StepsPrecede) components fun _ _ h ↦ h).nodup

theorem mem_sorted_iff : p ∈ sorted ps ↔ ps.find? (·.same p) = some p := by
  rw [← find?_sorted]
  refine ⟨fun hmem ↦ ?_, List.mem_of_find?_eq_some⟩
  obtain ⟨q, hq⟩ : ∃ q, (sorted ps).find? (·.same p) = some q := by
    rw [← Option.isSome_iff_exists, List.find?_isSome]
    exact ⟨p, hmem, same_self p⟩
  have hsame : q.same p = true := by simpa using List.find?_some hq
  rw [hq, List.inj_on_of_nodup_map (nodup_components_sorted ps) (List.mem_of_find?_eq_some hq) hmem
    (same_iff.1 hsame)]

theorem find?_same_congr (hmem : ∀ q, q ∈ ps ↔ q ∈ qs)
    (hsame : ∀ q ∈ ps, ∀ r ∈ ps, q.same r = true → q = r) (p : FilePath) :
    ps.find? (·.same p) = qs.find? (·.same p) := by
  cases hps : ps.find? (·.same p) with
  | none =>
    rw [List.find?_eq_none] at hps
    exact (List.find?_eq_none.2 fun q hq ↦ hps q ((hmem q).2 hq)).symm
  | some q =>
    have hq := List.mem_of_find?_eq_some hps
    have hqp : q.same p = true := by simpa using List.find?_some hps
    obtain ⟨r, hr⟩ : ∃ r, qs.find? (·.same p) = some r := by
      rw [← Option.isSome_iff_exists, List.find?_isSome]
      exact ⟨q, (hmem q).1 hq, hqp⟩
    have hrp : r.same p = true := by simpa using List.find?_some hr
    rw [hr, hsame q hq r ((hmem r).2 (List.mem_of_find?_eq_some hr))
      (by rw [same_congr hqp, same_comm, hrp])]

theorem find?_flatMap_congr {α : Type} {xs : List α} {f g : α → List FilePath}
    (h : ∀ x ∈ xs, (f x).find? (·.same p) = (g x).find? (·.same p)) :
    (xs.flatMap f).find? (·.same p) = (xs.flatMap g).find? (·.same p) := by
  induction xs with
  | nil => rfl
  | cons x xs ih =>
    obtain ⟨hx, hxs⟩ := List.forall_mem_cons.1 h
    rw [List.flatMap_cons, List.flatMap_cons, List.find?_append, List.find?_append, hx, ih hxs]

theorem mem_of_mem_sorted (h : p ∈ sorted ps) : p ∈ ps :=
  List.mem_of_find?_eq_some (mem_sorted_iff.1 h)

/-- Lists in which every path has the same first spelling are sorted to the same list. -/
theorem sorted_congr (h : ∀ p, ps.find? (·.same p) = qs.find? (·.same p)) :
    sorted ps = sorted qs := by
  refine (pairwise_sorted ps).eq_of_mem_iff (pairwise_sorted qs) fun p ↦ ?_
  rw [mem_sorted_iff, mem_sorted_iff, h]

theorem mem_components_sorted_iff {cs : List Component} :
    cs ∈ (sorted ps).map components ↔ ∃ p ∈ ps, p.components = cs := by
  refine ⟨fun h ↦ ?_, fun ⟨p, hp, hcs⟩ ↦ ?_⟩
  · obtain ⟨p, hp, rfl⟩ := List.mem_map.1 h
    exact ⟨p, mem_of_mem_sorted hp, rfl⟩
  · have hany : (sorted ps).any (·.same p) = true := by
      rw [any_sorted]
      exact List.any_eq_true.2 ⟨p, hp, same_self p⟩
    obtain ⟨q, hq, hsame⟩ := List.any_eq_true.1 hany
    exact List.mem_map.2 ⟨q, hq, (same_iff.1 hsame).trans hcs⟩

/-- A list is what another one is sorted to just if it is strictly increasing and has the first
spelling of every path of that one and nothing else. -/
theorem sorted_eq_iff : sorted ps = qs ↔ qs.Pairwise Precedes ∧
    (∀ q ∈ qs, ps.find? (·.same q) = some q) ∧ ∀ p ∈ ps, ∃ q ∈ qs, q.same p = true := by
  constructor
  · rintro rfl
    refine ⟨pairwise_sorted ps, fun q ↦ mem_sorted_iff.1, fun p hp ↦ ?_⟩
    rw [← List.any_eq_true, any_sorted, List.any_eq_true]
    exact ⟨p, hp, same_self p⟩
  · rintro ⟨hqs, hfirst, hall⟩
    refine (pairwise_sorted ps).eq_of_mem_iff hqs fun p ↦ ⟨fun hp ↦ ?_, fun hp ↦ ?_⟩
    · obtain ⟨q, hq, hsame⟩ := hall p (mem_of_mem_sorted hp)
      have hfound := hfirst q hq
      rw [funext fun r ↦ (same_comm r q).trans ((same_congr hsame r).trans (same_comm p r)),
        mem_sorted_iff.1 hp] at hfound
      exact Option.some_inj.1 hfound ▸ hq
    · exact mem_sorted_iff.2 (hfirst p hp)

/-- Strictly increasing lists of the same paths, however spelled, differ in spelling only. -/
theorem components_eq_of_mem_iff (hps : ps.Pairwise Precedes) (hqs : qs.Pairwise Precedes)
    (h : ∀ cs, cs ∈ ps.map components ↔ cs ∈ qs.map components) :
    ps.map components = qs.map components := by
  have hmap : ∀ {rs : List FilePath}, rs.Pairwise Precedes →
      (rs.map components).Pairwise StepsPrecede := fun hrs ↦ hrs.map components fun _ _ h ↦ h
  exact (hmap hps).eq_of_mem_iff (hmap hqs) h

end FilePath

end Coalesce
