import Coalesce.FilePath.Sorting
import Coalesce.FileTree.Descent
import Coalesce.Sources

/-!
# Names on a file system

A name on a file system may have all characters but the slash and NUL. What a project lists as its
sources are such names put together, and paths that the file system has accepted, which refuses a
path with a NUL. So no source has a NUL in its path (`SourceRules.nulFree_of_mem_select`), whatever
a manifest may say.

Every node that a path leads to is a part of the whole tree (`FileTree.IsPartOf`), links or not, so
the names below the node are names of the tree.
-/

namespace Coalesce

/-! ## Parts of a tree -/

namespace FileTree

variable {top node t : FileTree} {place q : Place} {entries : List (String × FileTree)}

theorem mem_nodesOf {name : String} (hentry : (name, t) ∈ entries) (h : q ∈ t.nodes) :
    name :: q ∈ nodesOf entries := by
  induction entries with
  | nil => exact absurd hentry List.not_mem_nil
  | cons entry entries ih =>
    rw [nodesOf]
    rcases List.mem_cons.1 hentry with rfl | hentry
    · exact List.mem_append_left _ (List.mem_map_of_mem h)
    · exact List.mem_append_right _ (List.mem_cons_of_mem _ (ih hentry))

theorem mem_nodes_of_at? (hat : top.at? place = some node) (h : q ∈ node.nodes) :
    place ++ q ∈ top.nodes := by
  induction place generalizing top with
  | nil =>
    obtain rfl := Option.some_inj.1 hat
    exact h
  | cons name place ih =>
    obtain ⟨entries, t, rfl, hentry, hat⟩ := exists_of_at?_cons hat
    exact mem_nodesOf hentry (ih hat)

mutual

theorem mem_nodes_of_mem_files (t : FileTree) (place : Place) (h : place ∈ t.files) :
    place = [] ∨ place ∈ t.nodes := by
  match t with
  | file _ => exact Or.inl (List.mem_singleton.1 h)
  | directory entries => exact Or.inr (mem_nodesOf_of_mem_filesOf entries place h)
  | link _ => exact absurd h List.not_mem_nil

theorem mem_nodesOf_of_mem_filesOf (entries : List (String × FileTree)) (place : Place)
    (h : place ∈ filesOf entries) : place ∈ nodesOf entries := by
  match entries with
  | [] => exact absurd h List.not_mem_nil
  | (name, t) :: entries =>
    rw [filesOf, List.mem_append] at h
    rw [nodesOf, List.mem_append, List.mem_cons]
    rcases h with h | h
    · split at h
      next => exact absurd h List.not_mem_nil
      next =>
        obtain ⟨below, hbelow, rfl⟩ := List.mem_map.1 h
        rcases mem_nodes_of_mem_files t below hbelow with rfl | hnode
        · exact Or.inr (Or.inl rfl)
        · exact Or.inl (List.mem_map_of_mem hnode)
    · exact Or.inr (Or.inr (mem_nodesOf_of_mem_filesOf entries place h))

end

/-- A node is a part of a tree if what is below it is somewhere in the tree. -/
def IsPartOf (node top : FileTree) : Prop :=
  ∃ place : Place, ∀ q ∈ node.nodes, place ++ q ∈ top.nodes

theorem isPartOf_of_at? (h : top.at? place = some node) : node.IsPartOf top :=
  ⟨place, fun _ hq ↦ mem_nodes_of_at? h hq⟩

end FileTree

/-! ## Paths without NUL -/

/-- A path without NUL. -/
def FilePath.NulFree (p : FilePath) : Prop := '\x00' ∉ p.text.toList

theorem FilePath.NulFree.join {dir rel : FilePath} (hdir : dir.NulFree) (hrel : rel.NulFree) :
    (dir.join rel).NulFree := by
  rw [FilePath.join]
  split
  next => exact hrel
  next =>
    split
    next => simp_all [NulFree]
    next => simp_all [NulFree]

theorem FilePath.NulFree.foldl_join {dir : FilePath} {place : Place} (hdir : dir.NulFree)
    (hplace : ∀ name ∈ place, '\x00' ∉ name.toList) :
    FilePath.NulFree (place.foldl (fun path name ↦ path.join ⟨name⟩) dir) := by
  induction place generalizing dir with
  | nil => exact hdir
  | cons name place ih =>
    exact ih (hdir.join (hplace name List.mem_cons_self)) fun name' hname' ↦
      hplace name' (List.mem_cons_of_mem name hname')

namespace FileSystem

variable {fs : FileSystem} {path : FilePath}

/-- A file system on which no name has a NUL. -/
def NulFree (fs : FileSystem) : Prop :=
  ∀ place ∈ fs.tree.nodes, ∀ name ∈ place, '\x00' ∉ name.toList

instance (fs : FileSystem) : Decidable fs.NulFree :=
  inferInstanceAs (Decidable (∀ place ∈ fs.tree.nodes, ∀ name ∈ place, _))

theorem of_node? {node : FileTree} (h : fs.node? path = some node) :
    path.NulFree ∧ node.IsPartOf fs.tree := by
  obtain ⟨-, hnul, -⟩ := node?_eq_some_iff.1 h
  obtain ⟨place, hat⟩ := at?_of_node? h
  exact ⟨hnul, FileTree.isPartOf_of_at? hat⟩

end FileSystem

namespace SourceRules

variable {rules : SourceRules} {fs : FileSystem} {root dir file path : FilePath}

theorem nulFree_of_mem_listed (hfs : fs.NulFree) (h : path ∈ listed fs dir) : path.NulFree := by
  rw [listed] at h
  cases hnode : fs.node? dir with
  | none =>
    rw [hnode] at h
    exact absurd h List.not_mem_nil
  | some node =>
    rw [hnode] at h
    obtain ⟨place, hplace, rfl⟩ := List.mem_map.1 h
    obtain ⟨hdir, top, hpart⟩ := FileSystem.of_node? hnode
    refine FilePath.NulFree.foldl_join hdir ?_
    rcases FileTree.mem_nodes_of_mem_files node place hplace with rfl | hmem
    · exact fun name hname ↦ absurd hname List.not_mem_nil
    · exact fun name hname ↦ hfs _ (hpart _ hmem) name (List.mem_append_right _ hname)

theorem nulFree_of_mem_inDirectory (hfs : fs.NulFree)
    (h : path ∈ (rules.inDirectory fs root dir).1) : path.NulFree := by
  rw [inDirectory] at h
  split at h
  next => exact nulFree_of_mem_listed hfs (List.mem_filter.1 h).1
  next => exact absurd h List.not_mem_nil

theorem nulFree_of_mem_inList (h : path ∈ (inList fs root file).1) : path.NulFree := by
  rw [inList] at h
  split at h
  next hfile =>
    obtain rfl := List.mem_singleton.1 h
    rw [FileSystem.isFile, Option.any_eq_true_iff_get] at hfile
    exact (FileSystem.of_node? (Option.some_get hfile.1).symm).1
  next => exact absurd h List.not_mem_nil

/-- **No source has a NUL in its path.** -/
theorem nulFree_of_mem_select (hfs : fs.NulFree) (h : path ∈ (rules.select fs root).1) :
    path.NulFree := by
  obtain ⟨found, hfound, hpath⟩ := List.mem_flatMap.1 (FilePath.mem_of_mem_sorted h)
  rcases List.mem_append.1 hfound with hfound | hfound
  · obtain ⟨dir, -, rfl⟩ := List.mem_map.1 hfound
    exact nulFree_of_mem_inDirectory hfs hpath
  · obtain ⟨file, -, rfl⟩ := List.mem_map.1 hfound
    exact nulFree_of_mem_inList hpath

end SourceRules

end Coalesce
