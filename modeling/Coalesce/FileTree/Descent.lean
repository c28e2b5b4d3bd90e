import Coalesce.FilePath.Steps
import Coalesce.FileTree.Moves

/-!
# Where paths lead

A path leads to a node that is at some place of the tree, whatever links it passes
(`FileTree.at?_of_walk`). If it leads to a directory, then idle segments in it mean nothing, and a
path that goes on behind it with names of directories leads to the directory that is at those names
(`FileSystem.node?_of_descends`): links use up the same part of the limit, and behind the last of
them there are none.
-/

namespace Coalesce

namespace FileTree

variable {top node t : FileTree} {place goal names : Place} {rest rest' : List Segment}
  {entries entries' : List (String × FileTree)} {toTheEnd : Bool} {links : Nat}
  {follow : String → List Segment → Place → Except Refusal Destination}

/-! ## Walking on -/

theorem exists_directory_of_at? (h : t.at? place = some (directory entries)) :
    ∃ entries', t = directory entries' := by
  cases place with
  | nil => exact ⟨entries, Option.some_inj.1 h⟩
  | cons name place =>
    obtain ⟨entries', u, ht, -⟩ := exists_of_at?_cons h
    exact ⟨entries', ht⟩

theorem walkWith_trimStart (top : FileTree) (toTheEnd : Bool)
    (follow : String → List Segment → Place → Except Refusal Destination) (rest : List Segment)
    (place : Place) :
    top.walkWith toTheEnd follow (Segment.trimStart rest) place =
      top.walkWith toTheEnd follow rest place := by
  induction rest with
  | nil => rfl
  | cons segment rest ih =>
    rw [Segment.trimStart, List.dropWhile_cons]
    split
    next hidle => rw [← Segment.trimStart, ih, walkWith_cons, move_of_isIdle hidle]
    next => rfl

theorem walkWith_of_steps (hsteps : Segment.steps rest = names.map String.toList)
    (hnames : ∀ name ∈ names, IsDiskName name)
    (hat : top.at? (place ++ names) = some (directory entries)) :
    top.walkWith toTheEnd follow rest place =
      .ok (.present (place ++ names) (directory entries)) := by
  induction rest generalizing place names with
  | nil =>
    obtain rfl : names = [] := List.map_eq_nil_iff.1 hsteps.symm
    rw [List.append_nil] at hat ⊢
    rw [walkWith, hat]
    rfl
  | cons segment rest ih =>
    rw [walkWith_cons]
    cases hidle : segment.isIdle with
    | true =>
      rw [Segment.steps_cons_of_isIdle hidle] at hsteps
      rw [move_of_isIdle hidle]
      exact ih hsteps hnames hat
    | false =>
      rw [Segment.steps_cons_of_not_isIdle hidle] at hsteps
      obtain ⟨name, names', rfl, hname, hrest⟩ := List.map_eq_cons_iff.1 hsteps.symm
      obtain ⟨hfirst, hnames⟩ := List.forall_mem_cons.1 hnames
      have hdots : segment ≠ ['.', '.'] := by
        rintro rfl
        have hcomponent := hfirst.1.component?
        rw [hname] at hcomponent
        cases hcomponent
      have hstep : place ++ name :: names' = (place ++ [name]) ++ names' := by simp
      rw [hstep] at hat ⊢
      obtain ⟨below, hbelow, hat'⟩ := Option.bind_eq_some_iff.1 ((at?_append _ _ _).symm.trans hat)
      obtain ⟨entries', rfl⟩ := exists_directory_of_at? hat'
      rw [move_of_name hidle hdots, ← hname, String.ofList_toList, arrival_of_directory hbelow]
      exact ih hrest.symm hnames hat

/-- Where a walk comes to a directory, another walk comes to a directory below it if its steps are
the same and then go on with names of directories, provided that this is so from every link on. -/
theorem walkWith_append
    (hfollow : ∀ target rest rest' place,
      follow target rest place = .ok (.present goal (directory entries)) →
      Segment.steps rest' = Segment.steps rest ++ names.map String.toList →
      follow target rest' place = .ok (.present (goal ++ names) (directory entries')))
    (hnames : ∀ name ∈ names, IsDiskName name)
    (hat : top.at? (goal ++ names) = some (directory entries'))
    (h : top.walkWith true follow rest place = .ok (.present goal (directory entries)))
    (hsteps : Segment.steps rest' = Segment.steps rest ++ names.map String.toList) :
    top.walkWith true follow rest' place =
      .ok (.present (goal ++ names) (directory entries')) := by
  induction rest generalizing place rest' with
  | nil =>
    obtain rfl : place = goal := by
      rw [walkWith] at h
      exact (Destination.present.inj (Except.ok.inj h)).1
    exact walkWith_of_steps hsteps hnames hat
  | cons segment rest ih =>
    rw [walkWith_cons] at h
    cases hidle : segment.isIdle with
    | true =>
      rw [Segment.steps_cons_of_isIdle hidle] at hsteps
      rw [move_of_isIdle hidle] at h
      exact ih h hsteps
    | false =>
      rw [Segment.steps_cons_of_not_isIdle hidle, List.cons_append] at hsteps
      obtain ⟨rest'', htrim, -, hrest⟩ := Segment.trimStart_of_steps hsteps
      rw [← walkWith_trimStart, htrim, walkWith_cons]
      cases hmove : top.move segment place with
      | on next =>
        rw [hmove] at h
        exact ih h hrest
      | link next target =>
        rw [hmove] at h
        dsimp only at h ⊢
        rw [if_neg (by simp)] at h ⊢
        exact hfollow _ _ _ _ h hrest
      | file next content =>
        rw [hmove] at h
        dsimp only at h
        split at h <;> cases h
      | missing next =>
        rw [hmove] at h
        dsimp only at h
        split at h <;> cases h

/-- **Below a directory** a walk comes to the directories that the tree has there. -/
theorem walk_append (hnames : ∀ name ∈ names, IsDiskName name)
    (hat : top.at? (goal ++ names) = some (directory entries'))
    (h : top.walk true links rest place = .ok (.present goal (directory entries)))
    (hsteps : Segment.steps rest' = Segment.steps rest ++ names.map String.toList) :
    top.walk true links rest' place = .ok (.present (goal ++ names) (directory entries')) := by
  induction links generalizing rest rest' place with
  | zero => exact walkWith_append (fun _ _ _ _ h ↦ absurd h (by simp)) hnames hat h hsteps
  | succ links ih =>
    refine walkWith_append (fun target rest rest' place h hsteps ↦ ?_) hnames hat h hsteps
    split at h
    next => cases h
    next hne =>
      rw [if_neg hne]
      refine ih h ?_
      rw [Segment.steps_append, Segment.steps_append, hsteps, List.append_assoc]

end FileTree

/-! ## Paths -/

namespace FileSystem

variable {fs : FileSystem} {path inner outer : FilePath} {node : FileTree} {names : Place}
  {entries : List (String × FileTree)}

theorem node?_eq_some_iff : fs.node? path = some node ↔
    path.text ≠ "" ∧ '\x00' ∉ path.text.toList ∧
      ∃ place, fs.tree.walk true linkLimit (Segment.split (fs.current.join path).text.toList) [] =
        .ok (.present place node) := by
  constructor
  · intro h
    rw [node?, find] at h
    cases hresolve : fs.resolve true path with
    | error refusal =>
      rw [hresolve] at h
      cases h
    | ok destination =>
      rw [hresolve] at h
      cases destination with
      | absent place => cases h
      | present place found =>
        obtain rfl : found = node := Option.some_inj.1 h
        rw [resolve] at hresolve
        split at hresolve
        next => cases hresolve
        next hempty =>
          split at hresolve
          next => cases hresolve
          next hnul => exact ⟨hempty, mt List.contains_iff_mem.2 hnul, place, hresolve⟩
  · rintro ⟨hempty, hnul, place, hwalk⟩
    rw [node?, find, resolve, if_neg hempty, if_neg (mt List.contains_iff_mem.1 hnul), hwalk]
    rfl

/-- **A path leads to a node of the tree.** -/
theorem at?_of_node? (h : fs.node? path = some node) : ∃ place, fs.tree.at? place = some node := by
  obtain ⟨-, -, place, hwalk⟩ := node?_eq_some_iff.1 h
  exact ⟨place, FileTree.at?_of_walk rfl hwalk⟩

/-- **Below a directory** a path leads to the directories that the tree has there. -/
theorem node?_of_descends (hfs : fs.tree.IsProper)
    (h : inner.components = outer.components ++ names.map .named)
    (hnode : fs.node? outer = some node) (hat : node.at? names = some (.directory entries)) :
    fs.node? inner = some (.directory entries) := by
  obtain ⟨hempty, hnul, place, hwalk⟩ := node?_eq_some_iff.1 hnode
  obtain ⟨entries', rfl⟩ := FileTree.exists_directory_of_at? hat
  have hplace := FileTree.at?_of_walk rfl hwalk
  have hnames := ((hfs.of_at? hplace).1.of_at? hat).2
  obtain ⟨habsolute, hsteps⟩ := FilePath.steps_of_descends h
  refine node?_eq_some_iff.2 ⟨fun hinner ↦ ?_, fun hinner ↦ ?_, place ++ names, ?_⟩
  · rw [← FilePath.components_eq_nil_iff, h, List.append_eq_nil_iff,
      FilePath.components_eq_nil_iff] at hinner
    exact hempty hinner.1
  · obtain ⟨name, hname, hname'⟩ := FilePath.nul_mem_iff.1 hinner
    rw [h, List.mem_append] at hname
    rcases hname with hname | hname
    · exact hnul (FilePath.nul_mem_iff.2 ⟨name, hname, hname'⟩)
    · obtain ⟨name', hmem, heq⟩ := List.mem_map.1 hname
      exact (hnames name (Component.named.inj heq ▸ hmem)).2 hname'
  · refine FileTree.walk_append hnames (by rw [FileTree.at?_append, hplace]; exact hat) hwalk ?_
    have hjoined : (fs.current.join inner).steps =
        (fs.current.join outer).steps ++ names.map String.toList := by
      rw [FilePath.steps_join, FilePath.steps_join, habsolute, hsteps, List.append_assoc]
    exact hjoined

end FileSystem

end Coalesce
