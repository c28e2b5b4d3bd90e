import Coalesce.FilePath.Name
import Coalesce.FileTree.Basic
import Mathlib.Data.List.Nodup

/-!
# Listing a tree

A place is on a tree as a path is on a disk: what is at a place below a place is at the two places
one behind the other (`FileTree.at?_append`). The trees that stand for disks have distinct names in
every directory, and every name is a single step of a path. In such a tree the files that are listed
are those that are at some place without hidden names (`FileTree.mem_files_iff`), and the paths of
different places below a directory are different, however the directory is spelled.
-/

namespace Coalesce

instance (name : String) : Decidable (FilePath.IsFileName name) :=
  decidable_of_iff (Segment.component? name.toList = some (.named name) ∧ '/' ∉ name.toList)
    ⟨fun h ↦ ⟨h.1, h.2⟩, fun h ↦ ⟨h.component?, h.slash_not_mem⟩⟩

/-- A name that a disk can have: a file name without NUL. -/
def IsDiskName (name : String) : Prop := FilePath.IsFileName name ∧ '\x00' ∉ name.toList

instance (name : String) : Decidable (IsDiskName name) := inferInstanceAs (Decidable (_ ∧ _))

namespace FileTree

mutual

/-- A tree as a disk can have it: the names in a directory are distinct. -/
def IsProper : FileTree → Prop
  | directory entries => (entries.map Prod.fst).Nodup ∧ AreProper entries
  | _ => True

/-- Entries with names and trees as a disk can have them. -/
def AreProper : List (String × FileTree) → Prop
  | [] => True
  | (name, t) :: entries => (IsDiskName name ∧ t.IsProper) ∧ AreProper entries

end

mutual

instance decidableIsProper : (t : FileTree) → Decidable t.IsProper
  | directory entries =>
    have := decidableAreProper entries
    inferInstanceAs (Decidable (_ ∧ _))
  | file _ => .isTrue trivial
  | link _ => .isTrue trivial

instance decidableAreProper : (entries : List (String × FileTree)) → Decidable (AreProper entries)
  | [] => .isTrue trivial
  | (_, t) :: entries =>
    have := decidableIsProper t
    have := decidableAreProper entries
    inferInstanceAs (Decidable ((_ ∧ _) ∧ _))

end

variable {t u node : FileTree} {entries : List (String × FileTree)} {name : String} {place : Place}

theorem isProper_directory_iff : (directory entries).IsProper ↔
    (entries.map Prod.fst).Nodup ∧ ∀ entry ∈ entries, IsDiskName entry.1 ∧ entry.2.IsProper := by
  have hentries : AreProper entries ↔ ∀ entry ∈ entries, IsDiskName entry.1 ∧ entry.2.IsProper := by
    induction entries with
    | nil => simp [AreProper]
    | cons entry entries ih => rw [AreProper, ih, List.forall_mem_cons]
  rw [IsProper, hentries]

/-! ## Places -/

theorem at?_directory_cons (name : String) (place : Place) :
    (directory entries).at? (name :: place) =
      (entries.find? fun entry ↦ entry.1 == name).bind fun entry ↦ entry.2.at? place := rfl

theorem at?_append (t : FileTree) (place place' : Place) :
    t.at? (place ++ place') = (t.at? place).bind (·.at? place') := by
  induction place generalizing t with
  | nil => rfl
  | cons name place ih =>
    cases t with
    | file content => rfl
    | link target => rfl
    | directory entries =>
      rw [List.cons_append, at?_directory_cons, at?_directory_cons, Option.bind_assoc]
      exact congrArg _ (funext fun entry ↦ ih entry.2)

theorem exists_of_any_isDirectory {node? : Option FileTree} (h : node?.any isDirectory = true) :
    ∃ entries, node? = some (directory entries) := by
  cases node? with
  | none => cases h
  | some t =>
    cases t with
    | file content => cases h
    | directory entries => exact ⟨entries, rfl⟩
    | link target => cases h

theorem exists_of_at?_cons (h : t.at? (name :: place) = some node) :
    ∃ entries u, t = directory entries ∧ (name, u) ∈ entries ∧ u.at? place = some node := by
  cases t with
  | file content => cases h
  | link target => cases h
  | directory entries =>
    rw [at?_directory_cons, Option.bind_eq_some_iff] at h
    obtain ⟨⟨found, u⟩, hfound, hplace⟩ := h
    have hname : found = name := by simpa using List.find?_some hfound
    exact ⟨entries, u, rfl, hname ▸ List.mem_of_find?_eq_some hfound, hplace⟩

theorem at?_cons_of_mem (ht : (directory entries).IsProper) (h : (name, u) ∈ entries)
    (place : Place) : (directory entries).at? (name :: place) = u.at? place := by
  obtain ⟨found, hfound⟩ : ∃ found, (entries.find? fun entry ↦ entry.1 == name) = some found := by
    rw [← Option.isSome_iff_exists, List.find?_isSome]
    exact ⟨_, h, beq_self_eq_true name⟩
  have hname : found.1 = name := by simpa using List.find?_some hfound
  have hentry : found = (name, u) := List.inj_on_of_nodup_map (isProper_directory_iff.1 ht).1
    (List.mem_of_find?_eq_some hfound) h hname
  rw [at?_directory_cons, hfound, hentry]
  rfl

/-- What is in a proper tree is proper, and so are the names that lead to it. -/
theorem IsProper.of_at? (ht : t.IsProper) (h : t.at? place = some node) :
    node.IsProper ∧ ∀ name ∈ place, IsDiskName name := by
  induction place generalizing t with
  | nil =>
    obtain rfl := Option.some_inj.1 h
    exact ⟨ht, fun _ hname ↦ absurd hname List.not_mem_nil⟩
  | cons name place ih =>
    obtain ⟨entries, u, rfl, hentry, hplace⟩ := exists_of_at?_cons h
    obtain ⟨hname, hu⟩ := (isProper_directory_iff.1 ht).2 _ hentry
    obtain ⟨hnode, hnames⟩ := ih hu hplace
    exact ⟨hnode, List.forall_mem_cons.2 ⟨hname, hnames⟩⟩

/-! ## Files -/

theorem mem_filesOf_iff : place ∈ filesOf entries ↔
    ∃ name u below, (name, u) ∈ entries ∧ isHidden name = false ∧ below ∈ u.files ∧
      place = name :: below := by
  induction entries with
  | nil => simp [filesOf]
  | cons entry entries ih =>
    obtain ⟨name, u⟩ := entry
    rw [filesOf, List.mem_append, ih]
    constructor
    · rintro (h | ⟨name', u', below, hentry, h⟩)
      · split at h
        next => exact absurd h List.not_mem_nil
        next hhidden =>
          obtain ⟨below, hbelow, rfl⟩ := List.mem_map.1 h
          exact ⟨name, u, below, List.mem_cons_self, Bool.eq_false_iff.2 hhidden, hbelow, rfl⟩
      · exact ⟨name', u', below, List.mem_cons_of_mem _ hentry, h⟩
    · rintro ⟨name', u', below, hentry, hhidden, hbelow, rfl⟩
      rcases List.mem_cons.1 hentry with heq | hentry
      · obtain ⟨rfl, rfl⟩ := Prod.mk.inj heq
        rw [hhidden, if_neg Bool.false_ne_true]
        exact Or.inl (List.mem_map_of_mem hbelow)
      · exact Or.inr ⟨name', u', below, hentry, hhidden, hbelow, rfl⟩

/-- **The files that are listed** are those that are at some place and not hidden. -/
theorem mem_files_iff (ht : t.IsProper) : place ∈ t.files ↔
    (∃ content, t.at? place = some (file content)) ∧ ∀ name ∈ place, isHidden name = false := by
  induction place generalizing t with
  | nil => cases t <;> simp [files, at?, mem_filesOf_iff]
  | cons name place ih =>
    cases t with
    | file content => simp [files, at?]
    | link target => simp [files, at?]
    | directory entries =>
      have hproper := (isProper_directory_iff.1 ht).2
      rw [files, mem_filesOf_iff, List.forall_mem_cons]
      constructor
      · rintro ⟨name', u, below, hentry, hhidden, hbelow, heq⟩
        obtain ⟨rfl, rfl⟩ := List.cons.inj heq
        obtain ⟨⟨content, hat⟩, hplace⟩ := (ih (hproper _ hentry).2).1 hbelow
        exact ⟨⟨content, (at?_cons_of_mem ht hentry place).trans hat⟩, hhidden, hplace⟩
      · rintro ⟨⟨content, hat⟩, hhidden, hplace⟩
        obtain ⟨entries', u, heq, hentry, hat⟩ := exists_of_at?_cons hat
        obtain rfl := directory.inj heq
        exact ⟨name, u, place, hentry, hhidden,
          (ih (hproper _ hentry).2).2 ⟨⟨content, hat⟩, hplace⟩, rfl⟩

end FileTree

/-! ## Paths of places -/

namespace FilePath

variable {dir : FilePath} {place place' : Place}

/-- The path of what is at a place below a directory. -/
def descend (dir : FilePath) (place : Place) : FilePath :=
  place.foldl (fun path name ↦ path.join ⟨name⟩) dir

theorem components_descend (h : ∀ name ∈ place, IsDiskName name) (dir : FilePath) :
    (dir.descend place).components = dir.components ++ place.map .named := by
  induction place generalizing dir with
  | nil => exact (List.append_nil _).symm
  | cons name place ih =>
    obtain ⟨hname, hplace⟩ := List.forall_mem_cons.1 h
    have hstep : dir.descend (name :: place) = (dir.join ⟨name⟩).descend place := rfl
    rw [hstep, ih hplace, components_join_fileName hname.1, List.append_assoc]
    rfl

theorem descend_inj (h : ∀ name ∈ place, IsDiskName name) (h' : ∀ name ∈ place', IsDiskName name)
    (hsame : (dir.descend place).same (dir.descend place') = true) : place = place' := by
  rw [same_iff, components_descend h, components_descend h', List.append_cancel_left_eq] at hsame
  exact List.map_injective_iff.2 (fun _ _ ↦ Component.named.inj) hsame

end FilePath

end Coalesce
