import Coalesce.FileTree.Listing
import Coalesce.FileTree.Resolve

/-!
# Moves

A walk takes one segment after the other. What a segment does to it depends only on the place where
the walk is (`FileTree.move`): it leads on to another place, or there is a link, a file or nothing
where it leads to. What is to be said about a walk is said about moves and then, by induction on the
segments, about the walk that goes on past links in any given way (`FileTree.walkWith_cons`). For
the walk itself an induction on the links is left (`FileTree.walk_eq`).
-/

namespace Coalesce.FileTree

/-- What a segment does to a walk: it leads on to a place, or at the place that it leads to there is
a link, a file, or nothing. -/
inductive Move where
  | on (next : Place)
  | link (next : Place) (target : String)
  | file (next : Place) (content : ByteArray)
  | missing (next : Place)

/-- The move to a place that is called by its name. -/
def arrival (t : FileTree) (next : Place) : Move :=
  match t.at? next with
  | none => .missing next
  | some (directory _) => .on next
  | some (file content) => .file next content
  | some (link target) => .link next target

/-- What a segment does to a walk that is at a place. -/
def move (t : FileTree) (segment : Segment) (place : Place) : Move :=
  if segment.isIdle then .on place
  else if segment = ['.', '.'] then .on place.dropLast
  else t.arrival (place ++ [String.ofList segment])

/-- A tree has what a move comes to. -/
def Move.IsIn (t : FileTree) : Move → Prop
  | on next => (t.at? next).isSome = true
  | link next target => t.at? next = some (.link target)
  | file next content => t.at? next = some (.file content)
  | missing next => t.at? next = none

/-- How a walk goes on past a link, with the links that are left before it. -/
def past (t : FileTree) (toTheEnd : Bool) (links : Nat) (target : String) (rest : List Segment)
    (place : Place) : Except Refusal Destination :=
  match links with
  | 0 => .error .tooManyLinks
  | links + 1 =>
    if target = "" then .error .notFound
    else
      t.walk toTheEnd links (Segment.split target.toList ++ rest)
        (if target.toList.head? = some '/' then [] else place)

variable {t node : FileTree} {place next goal : Place} {rest : List Segment} {segment : Segment}
  {entries : List (String × FileTree)} {toTheEnd : Bool} {links : Nat}
  {follow : String → List Segment → Place → Except Refusal Destination}

/-! ## One move -/

theorem move_of_isIdle (h : segment.isIdle = true) (t : FileTree) (place : Place) :
    t.move segment place = .on place := if_pos h

theorem move_parent (t : FileTree) (place : Place) :
    t.move ['.', '.'] place = .on place.dropLast := rfl

theorem move_of_name (hidle : segment.isIdle = false) (hdots : segment ≠ ['.', '.'])
    (t : FileTree) (place : Place) :
    t.move segment place = t.arrival (place ++ [String.ofList segment]) := by
  rw [move, hidle, if_neg Bool.false_ne_true, if_neg hdots]

theorem arrival_of_directory (h : t.at? place = some (directory entries)) :
    t.arrival place = .on place := by rw [arrival, h]

theorem isIn_arrival (t : FileTree) (place : Place) : (t.arrival place).IsIn t := by
  cases hat : t.at? place with
  | none =>
    rw [arrival, hat]
    exact hat
  | some node =>
    rw [arrival, hat]
    cases node with
    | file content => exact hat
    | directory entries =>
      rw [Move.IsIn, hat]
      rfl
    | link target => exact hat

theorem isSome_at?_dropLast (h : (t.at? place).isSome = true) :
    (t.at? place.dropLast).isSome = true := by
  rcases place.eq_nil_or_concat with rfl | ⟨before, name, rfl⟩
  · exact h
  · rw [List.concat_eq_append, at?_append] at h
    rw [List.concat_eq_append, List.dropLast_concat]
    exact Option.isSome_of_isSome_bind h

/-- From a place of the tree a move comes to what the tree has. -/
theorem isIn_move (hplace : (t.at? place).isSome = true) (segment : Segment) :
    (t.move segment place).IsIn t := by
  cases hidle : segment.isIdle with
  | true =>
    rw [move_of_isIdle hidle]
    exact hplace
  | false =>
    by_cases hdots : segment = ['.', '.']
    · rw [hdots, move_parent]
      exact isSome_at?_dropLast hplace
    · rw [move_of_name hidle hdots]
      exact isIn_arrival ..

/-! ## Walks -/

/-- **A walk** goes on as its first move says. -/
theorem walkWith_cons (t : FileTree) (toTheEnd : Bool)
    (follow : String → List Segment → Place → Except Refusal Destination) (segment : Segment)
    (rest : List Segment) (place : Place) :
    t.walkWith toTheEnd follow (segment :: rest) place =
      match t.move segment place with
      | .on next => t.walkWith toTheEnd follow rest next
      | .link next target =>
        if rest = [] ∧ !toTheEnd then .ok (.present next (link target))
        else follow target rest place
      | .file next content =>
        if rest = [] then .ok (.present next (file content)) else .error .notDirectory
      | .missing next => if rest = [] then .ok (.absent next) else .error .notFound := by
  rw [walkWith]
  cases hidle : segment.isIdle with
  | true => rw [if_pos rfl, move_of_isIdle hidle]
  | false =>
    rw [if_neg Bool.false_ne_true]
    by_cases hdots : segment = ['.', '.']
    · rw [if_pos hdots, hdots, move_parent]
    · rw [if_neg hdots, move_of_name hidle hdots, arrival]
      dsimp only
      cases t.at? (place ++ [String.ofList segment]) with
      | none => rfl
      | some node => cases node <;> rfl

/-- A walk past no more links than given is one that goes on past links as long as they last. -/
theorem walk_eq (t : FileTree) (toTheEnd : Bool) (links : Nat) (rest : List Segment)
    (place : Place) :
    t.walk toTheEnd links rest place = t.walkWith toTheEnd (t.past toTheEnd links) rest place := by
  cases links <;> rfl

/-- A walk comes to a node at a place of the tree if it does so from every link on. -/
theorem at?_of_walkWith
    (hfollow : ∀ target rest place, (t.at? place).isSome = true →
      follow target rest place = .ok (.present goal node) → t.at? goal = some node)
    (hplace : (t.at? place).isSome = true)
    (h : t.walkWith toTheEnd follow rest place = .ok (.present goal node)) :
    t.at? goal = some node := by
  induction rest generalizing place with
  | nil =>
    obtain ⟨found, hfound⟩ := Option.isSome_iff_exists.1 hplace
    rw [walkWith, hfound] at h
    cases h
    exact hfound
  | cons segment rest ih =>
    have hin := isIn_move hplace segment
    rw [walkWith_cons] at h
    cases hmove : t.move segment place with
    | on next =>
      rw [hmove] at h hin
      exact ih hin h
    | link next target =>
      rw [hmove] at h hin
      dsimp only at h
      split at h
      next =>
        cases h
        exact hin
      next => exact hfollow _ _ _ hplace h
    | file next content =>
      rw [hmove] at h hin
      dsimp only at h
      split at h <;> cases h
      exact hin
    | missing next =>
      rw [hmove] at h
      dsimp only at h
      split at h <;> cases h

/-- **A path leads to a node of the tree.** -/
theorem at?_of_walk (hplace : (t.at? place).isSome = true)
    (h : t.walk toTheEnd links rest place = .ok (.present goal node)) :
    t.at? goal = some node := by
  induction links generalizing rest place with
  | zero => exact at?_of_walkWith (fun _ _ _ _ h ↦ absurd h (by simp)) hplace h
  | succ links ih =>
    rw [walk_eq] at h
    refine at?_of_walkWith (fun target rest place hplace h ↦ ?_) hplace h
    rw [past] at h
    split at h
    next => cases h
    next =>
      refine ih ?_ h
      split
      next => rfl
      next => exact hplace

end Coalesce.FileTree
