import Coalesce.FilePath.Sorting
import Coalesce.FileTree.Descent
import Coalesce.Proofs.Exclusion

/-!
# The sources of a project are a sorted set

The sources are what the directories and the listed files contribute, sorted and without repeats. So
the list is known by its members, and these are told by the tree: a file belongs to the project if
it is listed or if it is at some place below a source directory that accepts it
(`SourceRules.mem_components_select_iff`). In which order a directory is walked is nothing that the
list could tell, and neither is how often, or in which order, the rules name a file or a directory.

Exclusion is by the names behind a source directory, so one source directory below another may have
files that the other leaves out. It adds nothing if the way to it is open
(`SourceRules.Reaches`): its files are then found and accepted from the outer one as well.
-/

namespace Coalesce

theorem FilePath.extension?_congr {p q : FilePath} (h : p.components = q.components) :
    p.extension? = q.extension? := by
  rw [FilePath.extension?, FilePath.extension?, FilePath.fileName?, FilePath.fileName?, h]

namespace FileSystem

/-- There is a file at a place below the directory that a path leads to, and no name on the way to
it is hidden. -/
def HasBelow (fs : FileSystem) (dir : FilePath) (place : Place) : Prop :=
  ∃ node content, fs.node? dir = some node ∧ node.at? place = some (.file content) ∧
    ∀ name ∈ place, FileTree.isHidden name = false

/-- What a walk of a directory comes to: the files below it that are not hidden, in any order. -/
def IsWalk (fs : FileSystem) (dir : FilePath) (found : List FilePath) : Prop :=
  ∀ path, path ∈ found ↔ ∃ place, fs.HasBelow dir place ∧ path = dir.descend place

variable {fs : FileSystem} {dir p q : FilePath} {place : Place} {found : List FilePath}

theorem HasBelow.isDiskName (hfs : fs.tree.IsProper) (h : fs.HasBelow dir place) :
    ∀ name ∈ place, IsDiskName name := by
  obtain ⟨node, content, hnode, hat, -⟩ := h
  obtain ⟨goal, hgoal⟩ := at?_of_node? hnode
  exact ((hfs.of_at? hgoal).1.of_at? hat).2

/-- A walk does not come to one file in two spellings. -/
theorem IsWalk.eq_of_same (hfs : fs.tree.IsProper) (h : fs.IsWalk dir found) (hp : p ∈ found)
    (hq : q ∈ found) (hsame : p.same q = true) : p = q := by
  obtain ⟨place, hplace, rfl⟩ := (h p).1 hp
  obtain ⟨place', hplace', rfl⟩ := (h q).1 hq
  rw [FilePath.descend_inj (hplace.isDiskName hfs) (hplace'.isDiskName hfs) hsame]

theorem isWalk_listed (hfs : fs.tree.IsProper) (dir : FilePath) :
    fs.IsWalk dir (SourceRules.listed fs dir) := by
  intro path
  rw [SourceRules.listed]
  cases hnode : fs.node? dir with
  | none => simp [HasBelow, hnode]
  | some node =>
    obtain ⟨goal, hgoal⟩ := at?_of_node? hnode
    have hfiles : ∀ place, place ∈ node.files ↔ fs.HasBelow dir place := by
      intro place
      rw [FileTree.mem_files_iff (hfs.of_at? hgoal).1, HasBelow, hnode]
      simp
    simp only [List.mem_map, hfiles, eq_comm (a := path)]
    rfl

end FileSystem

namespace SourceRules

/-- What one source directory contributes if directories are walked in a given way. -/
def inDirectoryBy (walk : FilePath → List FilePath) (rules : SourceRules) (fs : FileSystem)
    (root dir : FilePath) : List FilePath × List Diagnostic :=
  let base := root.join dir
  if fs.isDirectory base then ((walk base).filter (rules.accepts base), [])
  else ([], [missingDirectory dir])

/-- The sources of a project, and what is wrong with its rules, if directories are walked in a given
way. -/
def selectBy (walk : FilePath → List FilePath) (rules : SourceRules) (fs : FileSystem)
    (root : FilePath) : List FilePath × List Diagnostic :=
  let found := rules.directories.map (rules.inDirectoryBy walk fs root) ++
    rules.files.map (inList fs root)
  (FilePath.sorted (found.flatMap Prod.fst), found.flatMap Prod.snd)

theorem select_eq_selectBy (rules : SourceRules) (fs : FileSystem) (root : FilePath) :
    rules.select fs root = rules.selectBy (listed fs) fs root := rfl

variable {rules rules' : SourceRules} {fs : FileSystem} {root dir path : FilePath}
  {walk : FilePath → List FilePath}

theorem flatMap_ite {α β : Type} (c : α → Bool) (f : α → β) (xs : List α) :
    xs.flatMap (fun x ↦ if c x then [] else [f x]) = (xs.filter fun x ↦ !c x).map f := by
  induction xs with
  | nil => rfl
  | cons x xs ih =>
    rw [List.flatMap_cons, ih, List.filter_cons]
    cases c x <;> rfl

/-- All that the directories and the listed files contribute. -/
def contributions (walk : FilePath → List FilePath) (rules : SourceRules) (fs : FileSystem)
    (root : FilePath) : List FilePath :=
  rules.directories.flatMap (fun dir ↦ (rules.inDirectoryBy walk fs root dir).1) ++
    rules.files.flatMap fun file ↦ (inList fs root file).1

/-- The contributions are sorted, and the errors are about the directories and files that do not
exist, in their order. -/
theorem selectBy_eq (walk : FilePath → List FilePath) (rules : SourceRules) (fs : FileSystem)
    (root : FilePath) :
    rules.selectBy walk fs root = (FilePath.sorted (rules.contributions walk fs root),
      (rules.directories.filter fun dir ↦ !fs.isDirectory (root.join dir)).map missingDirectory ++
        (rules.files.filter fun file ↦ !fs.isFile (root.join file)).map missingFile) := by
  have hdirectory : ∀ dir, (rules.inDirectoryBy walk fs root dir).2 =
      if fs.isDirectory (root.join dir) then [] else [missingDirectory dir] := by
    intro dir
    rw [inDirectoryBy]
    split <;> rfl
  have hfile : ∀ file, (inList fs root file).2 =
      if fs.isFile (root.join file) then [] else [missingFile file] := by
    intro file
    rw [inList]
    split <;> rfl
  simp only [selectBy, List.flatMap_append, List.flatMap_map, hdirectory, hfile, flatMap_ite]
  rfl

theorem select_eq_iff {sources : List FilePath} {errors : List Diagnostic} :
    rules.select fs root = (sources, errors) ↔
      (sources.Pairwise FilePath.Precedes ∧
        (∀ source ∈ sources,
          (rules.contributions (listed fs) fs root).find? (·.same source) = some source) ∧
        ∀ path ∈ rules.contributions (listed fs) fs root, ∃ source ∈ sources,
          source.same path = true) ∧
      (rules.directories.filter fun dir ↦ !fs.isDirectory (root.join dir)).map missingDirectory ++
        (rules.files.filter fun file ↦ !fs.isFile (root.join file)).map missingFile = errors := by
  rw [select_eq_selectBy, selectBy_eq, Prod.mk.injEq, FilePath.sorted_eq_iff]

/-! ## Walks -/

/-- What a directory contributes does not depend on the order of the walk, as far as looking for a
path in it can tell. -/
theorem find?_inDirectoryBy (hfs : fs.tree.IsProper)
    (hwalk : fs.isDirectory (root.join dir) = true →
      fs.IsWalk (root.join dir) (walk (root.join dir))) (path : FilePath) :
    (rules.inDirectoryBy walk fs root dir).1.find? (·.same path) =
      (rules.inDirectoryBy (listed fs) fs root dir).1.find? (·.same path) := by
  rw [inDirectoryBy, inDirectoryBy]
  split
  next hdir =>
    have hmem : ∀ q, q ∈ walk (root.join dir) ↔ q ∈ listed fs (root.join dir) := fun q ↦
      (hwalk hdir q).trans (FileSystem.isWalk_listed hfs _ q).symm
    refine FilePath.find?_same_congr (fun q ↦ ?_) (fun q hq r hr ↦ ?_) path
    · simp only [List.mem_filter, hmem]
    · exact (hwalk hdir).eq_of_same hfs (List.mem_filter.1 hq).1 (List.mem_filter.1 hr).1
  next => rfl

/-- **The order of a walk** leaves no trace, in the list or in the spelling of its paths. -/
theorem selectBy_eq_select (hfs : fs.tree.IsProper)
    (hwalk : ∀ dir ∈ rules.directories, fs.isDirectory (root.join dir) = true →
      fs.IsWalk (root.join dir) (walk (root.join dir))) :
    rules.selectBy walk fs root = rules.select fs root := by
  have hfound : ∀ path, (rules.contributions walk fs root).find? (·.same path) =
      (rules.contributions (listed fs) fs root).find? (·.same path) := by
    intro path
    rw [contributions, contributions, List.find?_append, List.find?_append,
      FilePath.find?_flatMap_congr fun dir hdir ↦ find?_inDirectoryBy hfs (hwalk dir hdir) path]
  rw [select_eq_selectBy, selectBy_eq, selectBy_eq, FilePath.sorted_congr hfound]

/-! ## Members -/

theorem pairwise_select (rules : SourceRules) (fs : FileSystem) (root : FilePath) :
    (rules.select fs root).1.Pairwise FilePath.Precedes := by
  rw [select_eq_selectBy, selectBy_eq]
  exact FilePath.pairwise_sorted _

theorem mem_inDirectoryBy_iff : path ∈ (rules.inDirectoryBy walk fs root dir).1 ↔
    fs.isDirectory (root.join dir) = true ∧ path ∈ walk (root.join dir) ∧
      rules.accepts (root.join dir) path = true := by
  rw [inDirectoryBy]
  split
  next hdir => simp [hdir]
  next hdir => simp [hdir]

theorem mem_inList_iff {file : FilePath} : path ∈ (inList fs root file).1 ↔
    fs.isFile (root.join file) = true ∧ path = root.join file := by
  rw [inList]
  split
  next hfile => simp [hfile]
  next hfile => simp [hfile]

/-- There is a file at a place below an existing source directory that accepts it. -/
def HasSource (rules : SourceRules) (fs : FileSystem) (base : FilePath) (place : Place) : Prop :=
  fs.isDirectory base = true ∧ fs.HasBelow base place ∧
    rules.accepts base (base.descend place) = true

/-- **The members of the list**, up to spelling. -/
theorem mem_components_select_iff (hfs : fs.tree.IsProper) (rules : SourceRules) (root : FilePath)
    (cs : List Component) :
    cs ∈ (rules.select fs root).1.map FilePath.components ↔
      (∃ file ∈ rules.files, fs.isFile (root.join file) = true ∧ (root.join file).components = cs) ∨
      ∃ dir ∈ rules.directories, ∃ place, rules.HasSource fs (root.join dir) place ∧
        ((root.join dir).descend place).components = cs := by
  rw [select_eq_selectBy, selectBy_eq, FilePath.mem_components_sorted_iff]
  constructor
  · rintro ⟨path, hpath, rfl⟩
    rcases List.mem_append.1 hpath with hpath | hpath
    · obtain ⟨dir, hdir, hpath⟩ := List.mem_flatMap.1 hpath
      obtain ⟨hbase, hlisted, haccepts⟩ := mem_inDirectoryBy_iff.1 hpath
      obtain ⟨place, hplace, rfl⟩ := (FileSystem.isWalk_listed hfs _ path).1 hlisted
      exact Or.inr ⟨dir, hdir, place, ⟨hbase, hplace, haccepts⟩, rfl⟩
    · obtain ⟨file, hfile, hpath⟩ := List.mem_flatMap.1 hpath
      obtain ⟨hexists, rfl⟩ := mem_inList_iff.1 hpath
      exact Or.inl ⟨file, hfile, hexists, rfl⟩
  · rintro (⟨file, hfile, hexists, rfl⟩ | ⟨dir, hdir, place, ⟨hbase, hplace, haccepts⟩, rfl⟩)
    · exact ⟨_, List.mem_append_right _ (List.mem_flatMap.2
        ⟨file, hfile, mem_inList_iff.2 ⟨hexists, rfl⟩⟩), rfl⟩
    · have hlisted := (FileSystem.isWalk_listed hfs _ _).2 ⟨place, hplace, rfl⟩
      exact ⟨_, List.mem_append_left _ (List.mem_flatMap.2
        ⟨dir, hdir, mem_inDirectoryBy_iff.2 ⟨hbase, hlisted, haccepts⟩⟩), rfl⟩

/-! ## Directories below other ones -/

/-- A path goes on behind another one with names of directories that the walk passes: none of them
is a link, hidden or excluded. -/
def Reaches (rules : SourceRules) (fs : FileSystem) (outer inner : FilePath) : Prop :=
  ∃ names, inner.components = outer.components ++ names.map .named ∧
    ((fs.node? outer).bind (·.at? names)).any FileTree.isDirectory = true ∧
    ∀ name ∈ names, FileTree.isHidden name = false ∧ rules.excludes name = false

/-- What a directory contributes is contributed by every directory that reaches it. -/
theorem Reaches.hasSource {outer inner : FilePath} {place : Place} (hfs : fs.tree.IsProper)
    (h : rules.Reaches fs outer inner) (hsource : rules.HasSource fs inner place) :
    ∃ place', rules.HasSource fs outer place' ∧
      (outer.descend place').components = (inner.descend place).components := by
  obtain ⟨names, hcomponents, hdirectory, hopen⟩ := h
  obtain ⟨entries, hfound⟩ := FileTree.exists_of_any_isDirectory hdirectory
  obtain ⟨node, hnode, hat⟩ := Option.bind_eq_some_iff.1 hfound
  obtain ⟨-, hbelow, haccepts⟩ := hsource
  have hplace := hbelow.isDiskName hfs
  obtain ⟨below, content, hinner, hfile, hhidden⟩ := hbelow
  rw [FileSystem.node?_of_descends hfs hcomponents hnode hat] at hinner
  obtain rfl := Option.some_inj.1 hinner
  have hbelow' : fs.HasBelow outer (names ++ place) := by
    refine ⟨node, content, hnode, ?_, ?_⟩
    · rw [FileTree.at?_append, hat]
      exact hfile
    · intro name hname
      rcases List.mem_append.1 hname with hname | hname
      · exact (hopen name hname).1
      · exact hhidden name hname
  have hsame : (outer.descend (names ++ place)).components = (inner.descend place).components := by
    rw [FilePath.components_descend (hbelow'.isDiskName hfs), FilePath.components_descend hplace,
      hcomponents, List.map_append, List.append_assoc]
  refine ⟨names ++ place, ⟨?_, hbelow', ?_⟩, hsame⟩
  · obtain ⟨entries', rfl⟩ := FileTree.exists_directory_of_at? hat
    rw [FileSystem.isDirectory, hnode]
    rfl
  · have hnone : names.any rules.excludes = false :=
      List.any_eq_false.2 fun name hname ↦ Bool.eq_false_iff.1 (hopen name hname).2
    rw [accepts_of_below (FilePath.components_descend hplace inner)] at haccepts
    rw [accepts_of_below (FilePath.components_descend (hbelow'.isDiskName hfs) outer),
      FilePath.extension?_congr hsame, List.any_append, hnone, Bool.false_or, haccepts]

/-- Rules that name the directories and files of other rules in another order or repeatedly, and
besides only directories that one of those reaches. -/
structure Repeats (fs : FileSystem) (root : FilePath) (rules' rules : SourceRules) : Prop where
  extensions : rules'.extensions = rules.extensions
  excluded : rules'.excluded = rules.excluded
  files : ∀ file, file ∈ rules'.files ↔ file ∈ rules.files
  directories : ∀ dir ∈ rules.directories, dir ∈ rules'.directories
  others : ∀ dir ∈ rules'.directories, dir ∈ rules.directories ∨
    ∃ outer ∈ rules.directories, rules.Reaches fs (root.join outer) (root.join dir)

theorem Repeats.accepts (h : Repeats fs root rules' rules) (dir path : FilePath) :
    rules'.accepts dir path = rules.accepts dir path := by
  have hextension : rules'.hasExtension = rules.hasExtension := by
    funext extension
    rw [hasExtension, hasExtension, h.extensions]
  have hexcludes : rules'.excludes = rules.excludes := by
    funext name
    rw [excludes, excludes, h.excluded]
  rw [SourceRules.accepts, SourceRules.accepts, hextension, hexcludes]

theorem Repeats.components_select (hfs : fs.tree.IsProper) (h : Repeats fs root rules' rules) :
    (rules'.select fs root).1.map FilePath.components =
      (rules.select fs root).1.map FilePath.components := by
  have hsource : ∀ base place, rules'.HasSource fs base place ↔ rules.HasSource fs base place := by
    intro base place
    rw [HasSource, HasSource, h.accepts]
  refine FilePath.components_eq_of_mem_iff (pairwise_select ..) (pairwise_select ..) fun cs ↦ ?_
  rw [mem_components_select_iff hfs, mem_components_select_iff hfs]
  simp only [h.files, hsource]
  refine or_congr_right ⟨?_, ?_⟩
  · rintro ⟨dir, hdir, place, hplace, rfl⟩
    rcases h.others dir hdir with hdir | ⟨outer, houter, hreaches⟩
    · exact ⟨dir, hdir, place, hplace, rfl⟩
    · obtain ⟨place', hplace', hsame⟩ := hreaches.hasSource hfs hplace
      exact ⟨outer, houter, place', hplace', hsame⟩
  · rintro ⟨dir, hdir, hplace⟩
    exact ⟨dir, h.directories dir hdir, hplace⟩

/-- What it means that the sources are a sorted set: the list is strictly increasing, it has the
files that the rules and the tree say, the errors are about what does not exist, the order of the
walks plays no part, and repetitions change the spelling at most. -/
structure SelectsSet (rules : SourceRules) (fs : FileSystem) (root : FilePath) : Prop where
  increasing : (rules.select fs root).1.Pairwise FilePath.Precedes
  /-- A path is in the list, up to spelling, just if it is a listed file that exists or is found
  below an existing directory that accepts it. -/
  any_iff : ∀ path, (rules.select fs root).1.any (·.same path) = true ↔
    (∃ file ∈ rules.files, fs.isFile (root.join file) = true ∧ (root.join file).same path = true) ∨
    ∃ dir ∈ rules.directories, ∃ place, rules.HasSource fs (root.join dir) place ∧
      ((root.join dir).descend place).same path = true
  /-- One error for every directory that is none, then one for every listed file that is none. -/
  errors : (rules.select fs root).2 =
    (rules.directories.filter fun dir ↦ !fs.isDirectory (root.join dir)).map missingDirectory ++
      (rules.files.filter fun file ↦ !fs.isFile (root.join file)).map missingFile
  /-- Directories may be walked in any order. -/
  any_walk : ∀ walk : FilePath → List FilePath,
    (∀ dir ∈ rules.directories, fs.isDirectory (root.join dir) = true →
      fs.IsWalk (root.join dir) (walk (root.join dir))) →
    rules.selectBy walk fs root = rules.select fs root
  /-- Rules may be put in another order, and name again what others name or reach. -/
  any_repetition : ∀ rules', Repeats fs root rules' rules →
    (rules'.select fs root).1.map FilePath.components =
      (rules.select fs root).1.map FilePath.components

end SourceRules

/-- **The sources of a project are a sorted set.** -/
theorem sources_sorted_set (rules : SourceRules) (fs : FileSystem) (root : FilePath)
    (hfs : fs.tree.IsProper) : rules.SelectsSet fs root where
  increasing := SourceRules.pairwise_select rules fs root
  any_iff path := by
    have hany : (rules.select fs root).1.any (·.same path) = true ↔
        path.components ∈ (rules.select fs root).1.map FilePath.components := by
      simp only [List.any_eq_true, List.mem_map, FilePath.same_iff]
    rw [hany, SourceRules.mem_components_select_iff hfs]
    simp only [FilePath.same_iff]
  errors := by rw [SourceRules.select_eq_selectBy, SourceRules.selectBy_eq]
  any_walk _ hwalk := SourceRules.selectBy_eq_select hfs hwalk
  any_repetition _ h := h.components_select hfs

/-- A file system with a source directory in which some ways to files are open and others are
not. -/
def Sample.shelter : FileSystem :=
  Sample.disk "" [
    ("lib", .directory [("deep", .directory [("c.ts", .file .empty)])]),
    ("src", .directory [
      ("link", .link "../lib"),
      (".gen", .directory [("d.ts", .file .empty)]),
      ("node_modules", .directory [("b.ts", .file .empty)]),
      ("open", .directory [("a.ts", .file .empty)])])]

/-- The usual rules, but with more directories named before the source directory, and with files. -/
def Sample.overlapping (directories files : List FilePath) : SourceRules :=
  { SourceRules.default with directories := directories ++ [⟨"src"⟩], files }

/-- A directory below the source directory is named as well, and the source directory and the listed
file are named twice. -/
theorem sources_sorted_set_overlapping :
    let fs := Sample.shelter
    let c : FilePath := ⟨"lib/deep/c.ts"⟩
    let rules := Sample.overlapping [] [c]
    let rules' := Sample.overlapping [⟨"src/open/"⟩, ⟨"src"⟩] [c, c]
    (rules'.select fs ⟨"/p"⟩).1.map FilePath.components =
        (rules.select fs ⟨"/p"⟩).1.map FilePath.components ∧
      rules'.select fs ⟨"/p"⟩ = ([⟨"/p/lib/deep/c.ts"⟩, ⟨"/p/src/open/a.ts"⟩], []) := by
  intro fs c rules rules'
  have hreaches : rules.Reaches fs ⟨"/p/src"⟩ ⟨"/p/src/open/"⟩ :=
    ⟨["open"], by decide +kernel, by decide +kernel, by decide +kernel⟩
  have hrepeats : SourceRules.Repeats fs ⟨"/p"⟩ rules' rules := by
    refine ⟨rfl, rfl, by simp [rules, rules', Sample.overlapping], ?_, ?_⟩
    · simp [rules, rules', Sample.overlapping]
    · intro dir hdir
      rcases List.mem_cons.1 hdir with rfl | hdir
      · exact Or.inr ⟨⟨"src"⟩, List.mem_singleton_self _, hreaches⟩
      · exact Or.inl (by simpa [rules, rules', Sample.overlapping] using hdir)
  exact ⟨(sources_sorted_set rules fs ⟨"/p"⟩ (by decide +kernel)).any_repetition rules' hrepeats,
    SourceRules.select_eq_iff.2 (by decide +kernel)⟩

/-- But a directory adds files if the way to it from the source directory is closed: by an excluded
name, by a hidden name, or by a link; and files are found under other paths if the directory is
reached through its parent. -/
theorem overlapping_directory_adds :
    let found extra := (Sample.overlapping extra []).select Sample.shelter ⟨"/p"⟩
    found [] = ([⟨"/p/src/open/a.ts"⟩], []) ∧
      found [⟨"src/node_modules"⟩] =
        ([⟨"/p/src/node_modules/b.ts"⟩, ⟨"/p/src/open/a.ts"⟩], []) ∧
      found [⟨"src/.gen"⟩] = ([⟨"/p/src/.gen/d.ts"⟩, ⟨"/p/src/open/a.ts"⟩], []) ∧
      found [⟨"src/link/deep"⟩] = ([⟨"/p/src/link/deep/c.ts"⟩, ⟨"/p/src/open/a.ts"⟩], []) ∧
      found [⟨"src/../src"⟩] = ([⟨"/p/src/../src/open/a.ts"⟩, ⟨"/p/src/open/a.ts"⟩], []) := by
  simp only [SourceRules.select_eq_iff]
  decide +kernel

end Coalesce
