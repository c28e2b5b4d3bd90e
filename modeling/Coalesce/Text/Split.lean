/-!
# Pieces of a text

A text falls into pieces at every occurrence of a separator, so it has one piece more than it has
separators. Pieces may be empty. Put together again with the separator between them they are the
text they came from.
-/

namespace Coalesce.Text

/-- The pieces of a text between the separators, empty ones included. -/
def split (separator : Char) : List Char → List (List Char)
  | [] => [[]]
  | c :: cs =>
    if c = separator then [] :: split separator cs
    else match split separator cs with
      | [] => [[c]]
      | piece :: pieces => (c :: piece) :: pieces

/-- Pieces put together with a separator between them. -/
def join (separator : Char) : List (List Char) → List Char
  | [] => []
  | [piece] => piece
  | piece :: next :: pieces => piece ++ separator :: join separator (next :: pieces)

theorem split_ne_nil (separator : Char) (cs : List Char) : split separator cs ≠ [] := by
  cases cs with
  | nil => simp [split]
  | cons c cs =>
    rw [split]
    split
    · simp
    · split <;> simp

@[simp] theorem join_split (separator : Char) (cs : List Char) :
    join separator (split separator cs) = cs := by
  induction cs with
  | nil => rfl
  | cons c cs ih =>
    rw [split]
    split
    next h =>
      obtain ⟨piece, pieces, hp⟩ := List.exists_cons_of_ne_nil (split_ne_nil separator cs)
      rw [hp] at ih ⊢
      rw [join, ih, h, List.nil_append]
    next =>
      split
      next hp => exact absurd hp (split_ne_nil separator cs)
      next piece pieces hp =>
        rw [hp] at ih
        cases pieces with
        | nil => rw [join] at ih ⊢; rw [ih]
        | cons next pieces => rw [join] at ih ⊢; rw [List.cons_append, ih]

theorem not_mem_of_mem_split {separator : Char} {cs piece : List Char}
    (h : piece ∈ split separator cs) : separator ∉ piece := by
  induction cs generalizing piece with
  | nil =>
    rw [split, List.mem_singleton] at h
    rw [h]
    exact List.not_mem_nil
  | cons c cs ih =>
    rw [split] at h
    split at h
    next =>
      rcases List.mem_cons.1 h with rfl | h
      · exact List.not_mem_nil
      · exact ih h
    next hc =>
      obtain ⟨first, pieces, hsplit⟩ := List.exists_cons_of_ne_nil (split_ne_nil separator cs)
      rw [hsplit] at h ih
      rcases List.mem_cons.1 h with rfl | h
      · rw [List.mem_cons, not_or]
        exact ⟨fun heq => hc heq.symm, ih List.mem_cons_self⟩
      · exact ih (List.mem_cons_of_mem first h)

theorem split_eq_singleton {separator : Char} {cs : List Char} (h : separator ∉ cs) :
    split separator cs = [cs] := by
  induction cs with
  | nil => rfl
  | cons c cs ih =>
    rw [List.mem_cons, not_or] at h
    rw [split, if_neg fun heq => h.1 heq.symm, ih h.2]

/-- At a separator the pieces of a text fall into those before it and those behind it. -/
theorem split_append_cons (separator : Char) (xs ys : List Char) :
    split separator (xs ++ separator :: ys) = split separator xs ++ split separator ys := by
  induction xs with
  | nil => simp [split]
  | cons x xs ih =>
    rw [List.cons_append, split, split, ih]
    split
    next => rfl
    next =>
      obtain ⟨first, pieces, hsplit⟩ := List.exists_cons_of_ne_nil (split_ne_nil separator xs)
      rw [hsplit]
      rfl

/-- Pieces without the separator are found again in the text that they are put together to. -/
theorem split_join {separator : Char} {pieces : List (List Char)} (hne : pieces ≠ [])
    (hfree : ∀ piece ∈ pieces, separator ∉ piece) :
    split separator (join separator pieces) = pieces := by
  induction pieces with
  | nil => exact absurd rfl hne
  | cons piece pieces ih =>
    obtain ⟨hpiece, hpieces⟩ := List.forall_mem_cons.1 hfree
    cases pieces with
    | nil => exact split_eq_singleton hpiece
    | cons next pieces =>
      rw [join, split_append_cons, split_eq_singleton hpiece, ih (List.cons_ne_nil _ _) hpieces]
      rfl

theorem mem_join_iff {separator c : Char} {pieces : List (List Char)} (hc : c ≠ separator) :
    c ∈ join separator pieces ↔ ∃ piece ∈ pieces, c ∈ piece := by
  induction pieces with
  | nil => simp [join]
  | cons piece pieces ih =>
    cases pieces with
    | nil => simp [join]
    | cons next pieces =>
      rw [join, List.mem_append, List.mem_cons, or_iff_right hc, ih]
      simp

/-- Where one text ends and another begins, the last piece of the one and the first piece of the
other are one piece. -/
theorem split_append {separator : Char} {xs ys last first : List Char}
    {before rest : List (List Char)} (hx : split separator xs = before ++ [last])
    (hy : split separator ys = first :: rest) :
    split separator (xs ++ ys) = before ++ (last ++ first) :: rest := by
  induction xs generalizing before last with
  | nil =>
    obtain ⟨rfl, hlast⟩ : before = [] ∧ last = [] := by
      cases before with
      | nil => exact ⟨rfl, (List.singleton_inj.1 hx).symm⟩
      | cons piece before => simp [split] at hx
    rw [hlast]
    exact hy
  | cons x xs ih =>
    rw [split] at hx
    rw [List.cons_append, split]
    obtain ⟨piece, pieces, hpieces⟩ := List.exists_cons_of_ne_nil (split_ne_nil separator xs)
    rw [hpieces] at hx
    split at hx
    next hsep =>
      rw [if_pos hsep]
      cases before with
      | nil => simp at hx
      | cons b before =>
        obtain ⟨rfl, hrest⟩ := List.cons.inj hx
        rw [ih (hpieces.trans hrest)]
        rfl
    next hsep =>
      rw [if_neg hsep]
      cases before with
      | nil =>
        obtain ⟨rfl, rfl⟩ := List.cons.inj hx
        have hone : split separator xs = [] ++ [piece] := hpieces
        rw [ih hone]
        rfl
      | cons b before =>
        obtain ⟨rfl, rfl⟩ := List.cons.inj hx
        have hmore : split separator xs = (piece :: before) ++ [last] := hpieces
        rw [ih hmore]
        rfl

end Coalesce.Text
