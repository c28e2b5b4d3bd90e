import Coalesce.FileTree.Descent

/-!
# Walks below a directory

A walk that has come to a directory goes on from there with the links that are left to it: how many
the way to the directory has used up is the same whatever follows (`FileTree.exists_passed`). From
there on it sees nothing of the tree around the directory as long as it stays inside, that is, until
a `..` leads above the directory or a link leads to an absolute path. Up to then its moves are what
they would be if the directory were the top of the tree, and so is the walk (`FileTree.walk_below`).

So what a path below a directory leads to is known from the tree in that directory and from the
number of links on the way to it (`FileSystem.node?_join_eq_some_iff`), not from where the directory
is. That number matters only where there are too many links (`FileTree.walk_of_le`).
-/

namespace Coalesce

/-- A destination in a directory, as seen from the top of the tree that has the directory at a
place. -/
def Destination.below (base : Place) : Destination → Destination
  | present place node => present (base ++ place) node
  | absent place => absent (base ++ place)

namespace FileTree

/-- A move in a directory, as seen from the top of the tree that has the directory at a place. -/
def Move.below (base : Place) : Move → Move
  | on next => on (base ++ next)
  | link next target => link (base ++ next) target
  | file next content => file (base ++ next) content
  | missing next => missing (base ++ next)

/-- Whether a walk through segments stays inside a tree: no `..` leads above its top. Of links
`inside` says so. -/
def staysWith (t : FileTree)
    (inside : (target : String) → (rest : List Segment) → Place → Bool) :
    (rest : List Segment) → Place → Bool
  | [], _ => true
  | segment :: rest, place =>
    !(segment == ['.', '.'] && place.isEmpty) &&
      match t.move segment place with
      | .on next => staysWith t inside rest next
      | .link _ target => inside target rest place
      | _ => true

/-- Whether a walk through segments stays inside a tree, past no more links than given: no `..`
leads above its top, and no link to an absolute path. -/
def stays (t : FileTree) : (links : Nat) → (rest : List Segment) → Place → Bool
  | 0 => t.staysWith fun _ _ _ => true
  | links + 1 => t.staysWith fun target rest place =>
    target.toList.head? != some '/' &&
      stays t links (Segment.split target.toList ++ rest) place

variable {top t : FileTree} {base place next goal : Place} {rest front : List Segment}
  {segment : Segment} {entries : List (String × FileTree)} {toTheEnd : Bool} {links : Nat}
  {target : String} {follow follow' : String → List Segment → Place → Except Refusal Destination}

/-! ## Moves -/

theorem walk_nil (t : FileTree) (toTheEnd : Bool) (links : Nat) (place : Place) :
    t.walk toTheEnd links [] place = .ok (.present place ((t.at? place).getD t)) := by
  rw [walk_eq]
  rfl

theorem walk_cons_of_on (h : t.move segment place = .on next) (toTheEnd : Bool) (links : Nat)
    (rest : List Segment) :
    t.walk toTheEnd links (segment :: rest) place = t.walk toTheEnd links rest next := by
  rw [walk_eq, walk_eq, walkWith_cons, h]

theorem walk_cons_of_link (h : t.move segment place = .link next target) (links : Nat)
    (rest : List Segment) :
    t.walk true links (segment :: rest) place = t.past true links target rest place := by
  rw [walk_eq, walkWith_cons, h]
  exact if_neg (by simp)

theorem arrival_below (hbase : top.at? base = some t) (place : Place) :
    top.arrival (base ++ place) = (t.arrival place).below base := by
  rw [arrival, arrival, at?_append, hbase, Option.bind_some]
  cases t.at? place with
  | none => rfl
  | some node => cases node <;> rfl

/-- **A move inside a directory** is what it would be if the directory were the top of the tree. -/
theorem move_below (hbase : top.at? base = some t) (hinside : segment = ['.', '.'] → place ≠ []) :
    top.move segment (base ++ place) = (t.move segment place).below base := by
  cases hidle : segment.isIdle with
  | true =>
    rw [move_of_isIdle hidle, move_of_isIdle hidle]
    rfl
  | false =>
    by_cases hdots : segment = ['.', '.']
    · rw [hdots, move_parent, move_parent, List.dropLast_append_of_ne_nil (hinside hdots)]
      rfl
    · rw [move_of_name hidle hdots, move_of_name hidle hdots, List.append_assoc,
        arrival_below hbase]

/-! ## Going on from a directory -/

/-- **The way to a directory** uses up the same number of links whatever follows: a walk goes on
from the directory with the links that are left, and comes nowhere if there are too few of them. -/
theorem exists_passed
    (h : top.walk true links front place = .ok (.present goal (directory entries))) :
    ∃ passed ≤ links,
      (∀ m rest, top.walk true (passed + m) (front ++ rest) place = top.walk true m rest goal) ∧
      ∀ m < passed, ∀ rest, top.walk true m (front ++ rest) place = .error .tooManyLinks := by
  -- Every step takes a segment or uses up a link.
  induction links using Nat.strongRecOn generalizing front place with
  | ind links ihlinks =>
    induction front generalizing place with
    | nil =>
      rw [walk_nil] at h
      obtain rfl := (Destination.present.inj (Except.ok.inj h)).1
      exact ⟨0, Nat.zero_le _, fun m rest ↦ by rw [Nat.zero_add, List.nil_append],
        fun m hm ↦ absurd hm (Nat.not_lt_zero m)⟩
    | cons segment front ihfront =>
      cases hmove : top.move segment place with
      | on next =>
        rw [walk_cons_of_on hmove] at h
        obtain ⟨passed, hle, hgo, hstop⟩ := ihfront h
        refine ⟨passed, hle, fun m rest ↦ ?_, fun m hm rest ↦ ?_⟩
        · rw [List.cons_append, walk_cons_of_on hmove, hgo]
        · rw [List.cons_append, walk_cons_of_on hmove, hstop m hm]
      | link next target =>
        rw [walk_cons_of_link hmove] at h
        cases links with
        | zero => cases h
        | succ links =>
          rw [past] at h
          split at h
          next => cases h
          next hempty =>
            obtain ⟨passed, hle, hgo, hstop⟩ := ihlinks links (Nat.lt_succ_self _) h
            refine ⟨passed + 1, Nat.succ_le_succ hle, fun m rest ↦ ?_, fun m hm rest ↦ ?_⟩
            · rw [List.cons_append, walk_cons_of_link hmove, Nat.add_right_comm, past,
                if_neg hempty, ← List.append_assoc, hgo]
            · rw [List.cons_append, walk_cons_of_link hmove]
              cases m with
              | zero => rfl
              | succ m =>
                rw [past, if_neg hempty, ← List.append_assoc,
                  hstop m (Nat.lt_of_succ_lt_succ hm)]
      | file next content =>
        rw [walk_eq, walkWith_cons, hmove] at h
        dsimp only at h
        split at h <;> cases h
      | missing next =>
        rw [walk_eq, walkWith_cons, hmove] at h
        dsimp only at h
        split at h <;> cases h

/-! ## More links -/

/-- A walk that is not refused for its links goes the same way with more of them, provided that this
is so from every link on. -/
theorem walkWith_congr
    (hfollow : ∀ target rest place, follow target rest place ≠ .error .tooManyLinks →
      follow' target rest place = follow target rest place)
    (h : t.walkWith toTheEnd follow rest place ≠ .error .tooManyLinks) :
    t.walkWith toTheEnd follow' rest place = t.walkWith toTheEnd follow rest place := by
  induction rest generalizing place with
  | nil => rfl
  | cons segment rest ih =>
    rw [walkWith_cons] at h
    rw [walkWith_cons, walkWith_cons]
    cases hmove : t.move segment place with
    | on next =>
      rw [hmove] at h
      exact ih h
    | link next target =>
      rw [hmove] at h
      by_cases hend : rest = [] ∧ (!toTheEnd) = true
      · exact (if_pos hend).trans (if_pos hend).symm
      · have hgo : follow target rest place ≠ .error .tooManyLinks := fun hstop ↦
          h ((if_neg hend).trans hstop)
        exact (if_neg hend).trans ((hfollow _ _ _ hgo).trans (if_neg hend).symm)
    | file next content => rfl
    | missing next => rfl

/-- **More links** change nothing for a walk that is not refused for its links. -/
theorem walk_of_le {more : Nat} (hle : links ≤ more)
    (h : t.walk toTheEnd links rest place ≠ .error .tooManyLinks) :
    t.walk toTheEnd more rest place = t.walk toTheEnd links rest place := by
  induction links generalizing more rest place with
  | zero =>
    rw [walk_eq] at h ⊢
    rw [walk_eq]
    exact walkWith_congr (fun _ _ _ hstop ↦ absurd rfl hstop) h
  | succ links ih =>
    obtain ⟨more, rfl⟩ := Nat.exists_eq_succ_of_ne_zero (Nat.ne_zero_of_lt hle)
    rw [walk_eq] at h ⊢
    rw [walk_eq]
    refine walkWith_congr (fun target rest place hgo ↦ ?_) h
    by_cases hempty : target = ""
    · rw [past, past, if_pos hempty, if_pos hempty]
    · rw [past, if_neg hempty] at hgo
      rw [past, past, if_neg hempty, if_neg hempty]
      exact ih (Nat.le_of_succ_le_succ hle) hgo

/-! ## Inside a directory -/

/-- A walk that stays inside a directory goes where it goes in the tree of that directory, provided
that this is so from every link on. -/
theorem walkWith_below {inside : String → List Segment → Place → Bool}
    (hfollow : ∀ target rest place, (t.at? place).isSome = true → inside target rest place = true →
      follow target rest (base ++ place) = (follow' target rest place).map (.below base))
    (hbase : top.at? base = some t) (hplace : (t.at? place).isSome = true)
    (hstays : t.staysWith inside rest place = true) :
    top.walkWith toTheEnd follow rest (base ++ place) =
      (t.walkWith toTheEnd follow' rest place).map (.below base) := by
  induction rest generalizing place with
  | nil =>
    obtain ⟨node, hnode⟩ := Option.isSome_iff_exists.1 hplace
    rw [walkWith, walkWith, at?_append, hbase, Option.bind_some, hnode]
    rfl
  | cons segment rest ih =>
    obtain ⟨hinside, hstays⟩ := Bool.and_eq_true_iff.1 hstays
    have hdots : segment = ['.', '.'] → place ≠ [] := by
      rintro rfl rfl
      cases hinside
    rw [walkWith_cons, walkWith_cons, move_below hbase hdots]
    cases hmove : t.move segment place with
    | on next =>
      have hin := isIn_move hplace segment
      rw [hmove] at hstays hin
      exact ih hin hstays
    | link next target =>
      rw [hmove] at hstays
      dsimp only [Move.below]
      split
      next => rfl
      next => exact hfollow _ _ _ hplace hstays
    | file next content => dsimp only [Move.below]; split <;> rfl
    | missing next => dsimp only [Move.below]; split <;> rfl

/-- **A walk that stays inside a directory** goes where it goes in the tree of that directory. -/
theorem walk_below (toTheEnd : Bool) (hbase : top.at? base = some t)
    (hplace : (t.at? place).isSome = true) (hstays : t.stays links rest place = true) :
    top.walk toTheEnd links rest (base ++ place) =
      (t.walk toTheEnd links rest place).map (.below base) := by
  induction links generalizing rest place with
  | zero => exact walkWith_below (fun _ _ _ _ _ ↦ rfl) hbase hplace hstays
  | succ links ih =>
    rw [walk_eq, walk_eq]
    refine walkWith_below (fun target rest place hplace hinside ↦ ?_) hbase hplace hstays
    obtain ⟨hrelative, hinside⟩ := Bool.and_eq_true_iff.1 hinside
    have hstart : target.toList.head? ≠ some '/' := by simpa using hrelative
    by_cases hempty : target = ""
    · rw [past, past, if_pos hempty, if_pos hempty]
      rfl
    · rw [past, past, if_neg hempty, if_neg hempty, if_neg hstart, if_neg hstart]
      exact ih hplace hinside

/-- In a tree without links a walk without `..` stays inside and is not refused for links, whatever
is said about links. -/
theorem staysWith_of_linkless (hlinkless : ∀ place target, t.at? place ≠ some (link target))
    (hplace : (t.at? place).isSome = true) (hdots : ['.', '.'] ∉ rest) (toTheEnd : Bool)
    (inside : String → List Segment → Place → Bool)
    (follow : String → List Segment → Place → Except Refusal Destination) :
    t.staysWith inside rest place = true ∧
      t.walkWith toTheEnd follow rest place ≠ .error .tooManyLinks := by
  induction rest generalizing place with
  | nil => exact ⟨rfl, fun h ↦ by cases h⟩
  | cons segment rest ih =>
    obtain ⟨hsegment, hdots⟩ := not_or.1 (mt List.mem_cons.2 hdots)
    have hinside : (!(segment == ['.', '.'] && place.isEmpty)) = true := by simp [Ne.symm hsegment]
    have hin := isIn_move hplace segment
    rw [staysWith, walkWith_cons, hinside, Bool.true_and]
    cases hmove : t.move segment place with
    | on next =>
      rw [hmove] at hin
      exact ih hin hdots
    | link next target =>
      rw [hmove] at hin
      exact absurd hin (hlinkless next target)
    | file next content => exact ⟨rfl, by dsimp only; split <;> simp⟩
    | missing next => exact ⟨rfl, by dsimp only; split <;> simp⟩

/-- **In a tree without links** a walk without `..` stays inside and is not refused for links. -/
theorem stays_of_linkless (hlinkless : ∀ place target, t.at? place ≠ some (link target))
    (hplace : (t.at? place).isSome = true) (hdots : ['.', '.'] ∉ rest) (toTheEnd : Bool)
    (links : Nat) :
    t.stays links rest place = true ∧ t.walk toTheEnd links rest place ≠ .error .tooManyLinks := by
  cases links <;> exact staysWith_of_linkless hlinkless hplace hdots toTheEnd _ _

theorem walk_of_steps_eq {rest' : List Segment} (hplace : (top.at? place).isSome = true)
    (hsteps : Segment.steps rest' = Segment.steps rest)
    (h : top.walk true links rest place = .ok (.present goal (directory entries))) :
    top.walk true links rest' place = .ok (.present goal (directory entries)) := by
  have hgoal : top.at? (goal ++ []) = some (directory entries) := by
    rw [List.append_nil]
    exact at?_of_walk hplace h
  have hwalk := walk_append (fun name hname ↦ absurd hname List.not_mem_nil) hgoal h
    (hsteps.trans (List.append_nil _).symm)
  rwa [List.append_nil] at hwalk

end FileTree

/-! ## Paths below a directory -/

namespace Destination

/-- A destination is found below a place just if it is found. -/
theorem exists_map_below_iff {base : Place} {node : FileTree}
    {walked : Except Refusal Destination} :
    (∃ place, walked.map (below base) = .ok (present place node)) ↔
      ∃ place, walked = .ok (present place node) := by
  rcases walked with refusal | place | place <;> simp [Except.map, below]

end Destination

namespace FileSystem

/-- Whether a path leads to a directory past no more links than given. -/
def reachesWithin (fs : FileSystem) (path : FilePath) (links : Nat) : Bool :=
  match fs.tree.walk true links (Segment.split (fs.current.join path).text.toList) [] with
  | .ok (.present _ (.directory _)) => true
  | _ => false

/-- The number of links on the way to the directory that a path leads to. -/
def linksTo (fs : FileSystem) (path : FilePath) : Nat :=
  (List.range (linkLimit + 1)).findIdx (fs.reachesWithin path)

variable {fs : FileSystem} {dir rel path : FilePath} {node : FileTree} {links : Nat}
  {entries : List (String × FileTree)}

theorem reachesWithin_iff : fs.reachesWithin path links = true ↔ ∃ goal entries,
    fs.tree.walk true links (Segment.split (fs.current.join path).text.toList) [] =
      .ok (.present goal (.directory entries)) := by
  rw [reachesWithin]
  split
  next goal entries hwalk => exact ⟨fun _ ↦ ⟨goal, entries, hwalk⟩, fun _ ↦ rfl⟩
  next hnone =>
    exact ⟨fun h ↦ absurd h Bool.false_ne_true,
      fun ⟨goal, entries, h⟩ ↦ (hnone goal entries h).elim⟩

theorem linksTo_eq (hle : links ≤ linkLimit)
    (h : ∀ n, fs.reachesWithin path n = true ↔ links ≤ n) : fs.linksTo path = links := by
  have hlength : links < (List.range (linkLimit + 1)).length := by
    rw [List.length_range]
    exact Nat.lt_succ_of_le hle
  rw [linksTo, List.findIdx_eq hlength]
  refine ⟨?_, fun n hn ↦ ?_⟩
  · exact (h _).2 (Nat.le_of_eq (List.getElem_range hlength).symm)
  · rw [List.getElem_range, Bool.eq_false_iff, ne_eq, h, Nat.not_le]
    exact hn

/-- **Behind an absolute path of a directory** a walk goes on from the directory with the links that
are left. -/
theorem exists_walk_join (hdir : dir.isAbsolute = true)
    (h : fs.node? dir = some (.directory entries)) :
    ∃ base, fs.tree.at? base = some (.directory entries) ∧ ∀ rel : FilePath,
      rel.isAbsolute = false →
        fs.tree.walk true linkLimit (Segment.split (dir.join rel).text.toList) [] =
          fs.tree.walk true (linkLimit - fs.linksTo dir) (Segment.split rel.text.toList) base := by
  obtain ⟨hempty, -, base, hwalk⟩ := node?_eq_some_iff.1 h
  have hcurrent := FilePath.join_of_isAbsolute hdir fs.current
  rw [hcurrent] at hwalk
  have hbase := FileTree.at?_of_walk rfl hwalk
  refine ⟨base, hbase, fun rel hrel ↦ ?_⟩
  obtain ⟨front, hsteps, hsplit⟩ := FilePath.exists_split_join hempty hrel
  obtain ⟨passed, hle, hgo, hstop⟩ :=
    FileTree.exists_passed (FileTree.walk_of_steps_eq rfl hsteps hwalk)
  have hlinks : fs.linksTo dir = passed := by
    refine linksTo_eq hle fun n ↦ ?_
    rw [reachesWithin_iff, hcurrent]
    constructor
    · rintro ⟨goal, entries', hwalk'⟩
      by_contra hn
      have hstopped := hstop n (Nat.lt_of_not_le hn) []
      rw [List.append_nil, FileTree.walk_of_steps_eq rfl hsteps hwalk'] at hstopped
      cases hstopped
    · intro hn
      obtain ⟨m, rfl⟩ := Nat.exists_eq_add_of_le hn
      have hreached := hgo m []
      rw [List.append_nil, FileTree.walk_nil, hbase, Option.getD_some] at hreached
      exact ⟨base, entries, FileTree.walk_of_steps_eq rfl hsteps.symm hreached⟩
  rw [hsplit, hlinks, ← hgo, Nat.add_sub_of_le hle]

/-- **What a path below a directory leads to** is known from the tree in the directory and from the
number of links on the way to it, as long as the way from there on stays inside the directory. -/
theorem node?_join_eq_some_iff (hdir : dir.isAbsolute = true)
    (h : fs.node? dir = some (.directory entries)) (hrel : rel.isAbsolute = false)
    (hstays : (FileTree.directory entries).stays (linkLimit - fs.linksTo dir)
      (Segment.split rel.text.toList) [] = true) :
    fs.node? (dir.join rel) = some node ↔ '\x00' ∉ rel.text.toList ∧ ∃ place,
      (FileTree.directory entries).walk true (linkLimit - fs.linksTo dir)
        (Segment.split rel.text.toList) [] = .ok (.present place node) := by
  obtain ⟨base, hbase, hwalk⟩ := exists_walk_join hdir h
  have hnul : '\x00' ∉ dir.text.toList := (node?_eq_some_iff.1 h).2.1
  have hjoined := FilePath.isAbsolute_join hdir rel
  have hempty : (dir.join rel).text ≠ "" := by
    intro htext
    rw [FilePath.isAbsolute, htext] at hjoined
    cases hjoined
  have hbelow := FileTree.walk_below true hbase rfl hstays
  rw [List.append_nil] at hbelow
  rw [node?_eq_some_iff, FilePath.join_of_isAbsolute hjoined, FilePath.nul_mem_join_iff hrel,
    or_iff_right hnul, hwalk rel hrel, hbelow, Destination.exists_map_below_iff,
    and_iff_right hempty]

end FileSystem

end Coalesce
