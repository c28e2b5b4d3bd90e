import Coalesce.FileTree.Subtree
import Coalesce.Proofs.Collection

/-!
# Projects may be moved

The rules of a project are about what is below its root. What they select is told behind the root
(`SourceRules.SelectsBehind`), by the nodes that their entries lead to and by the names on the ways
from there; the names on the way to the root play no part, even if they are excluded ones. So two
roots with the same tree have the same sources, each below its own root, in the same order, and the
same errors.

That needs the entries to lead to the same from both roots. Relative entries without `..` need not
do so: a link in the tree may lead out of it, and how many links an entry may pass depends on how
many there were on the way to the root.
-/

namespace Coalesce

/-! ## Moved paths -/

theorem Component.not_precedes_self (c : Component) : ¬c.Precedes c := by
  simp [Component.precedes_iff]

/-- Below a directory the order of paths is the order of what is behind it. -/
theorem stepsPrecede_append_iff (front cs ds : List Component) :
    StepsPrecede (front ++ cs) (front ++ ds) ↔ StepsPrecede cs ds := by
  induction front with
  | nil => rfl
  | cons c front ih =>
    rw [List.cons_append, List.cons_append, StepsPrecede, List.cons_lex_cons_iff,
      or_iff_right c.not_precedes_self, and_iff_right rfl]
    exact ih

namespace FilePath

variable {p source goal dir rel : FilePath} {front rest : List Component} {name : String}

/-- The path that is below one directory where this one is below another. -/
def moved (path source goal : FilePath) : FilePath := (path.relativeTo? source).elim path goal.join

theorem components_moved (hgoal : goal.text ≠ "") (h : p.components = source.components ++ rest)
    (hrest : ∀ c ∈ rest, c.isStep = true) :
    (p.moved source goal).components = goal.components ++ rest := by
  obtain ⟨rel, hrel, rfl⟩ := components_relativeTo? h
  rw [moved, hrel, Option.elim_some, components_join_of_isStep hgoal hrest]

theorem extension?_of_components (h : p.components = front ++ [.named name]) :
    p.extension? = (divideName name).2 := by
  rw [extension?, fileName?, h, List.getLast?_concat]
  rfl

end FilePath

namespace SourceRules

variable {rules : SourceRules} {fs fs' : FileSystem} {root root' base base' : FilePath}
  {entries : List (String × FileTree)} {place : Place} {rest : List Component}

/-! ## What is selected behind a root -/

/-- The rules select a file behind a root: a listed file that exists, or one below an existing
source directory that accepts it. -/
def SelectsBehind (rules : SourceRules) (fs : FileSystem) (root : FilePath)
    (rest : List Component) : Prop :=
  (∃ file ∈ rules.files, fs.isFile (root.join file) = true ∧ file.way = rest) ∨
    ∃ dir ∈ rules.directories, ∃ place, rules.HasSource fs (root.join dir) place ∧
      dir.way ++ place.map .named = rest

theorem SelectsBehind.isStep (h : rules.SelectsBehind fs root rest) :
    ∀ c ∈ rest, c.isStep = true := by
  rcases h with ⟨file, -, -, rfl⟩ | ⟨dir, -, place, -, rfl⟩
  · exact fun _ ↦ Segment.isStep_of_mem_filterMap
  · intro c hc
    rcases List.mem_append.1 hc with hc | hc
    · exact Segment.isStep_of_mem_filterMap hc
    · obtain ⟨name, -, rfl⟩ := List.mem_map.1 hc
      rfl

/-- With relative entries, all that is selected is behind the root. -/
theorem mem_components_select_iff_exists (hfs : fs.tree.IsProper) (hroot : root.text ≠ "")
    (hrelative : ∀ entry ∈ rules.directories ++ rules.files, entry.isAbsolute = false)
    {cs : List Component} :
    cs ∈ (rules.select fs root).1.map FilePath.components ↔
      ∃ rest, rules.SelectsBehind fs root rest ∧ root.components ++ rest = cs := by
  have hjoin : ∀ entry ∈ rules.directories ++ rules.files,
      (root.join entry).components = root.components ++ entry.way := fun entry hentry ↦
    FilePath.components_join hroot (hrelative entry hentry)
  have hdescend : ∀ dir ∈ rules.directories, ∀ place, rules.HasSource fs (root.join dir) place →
      ((root.join dir).descend place).components =
        root.components ++ (dir.way ++ place.map .named) := by
    intro dir hdir place hplace
    rw [FilePath.components_descend (hplace.2.1.isDiskName hfs),
      hjoin dir (List.mem_append_left _ hdir), List.append_assoc]
  rw [mem_components_select_iff hfs]
  constructor
  · rintro (⟨file, hfile, hexists, rfl⟩ | ⟨dir, hdir, place, hplace, rfl⟩)
    · exact ⟨file.way, Or.inl ⟨file, hfile, hexists, rfl⟩,
        (hjoin file (List.mem_append_right _ hfile)).symm⟩
    · exact ⟨_, Or.inr ⟨dir, hdir, place, hplace, rfl⟩, (hdescend dir hdir place hplace).symm⟩
  · rintro ⟨_, ⟨file, hfile, hexists, rfl⟩ | ⟨dir, hdir, place, hplace, rfl⟩, rfl⟩
    · exact Or.inl ⟨file, hfile, hexists, hjoin file (List.mem_append_right _ hfile)⟩
    · exact Or.inr ⟨dir, hdir, place, hplace, hdescend dir hdir place hplace⟩

/-! ## Entries that lead to the same -/

/-- What is found and accepted below a source directory depends on the tree in it only. -/
theorem HasSource.of_node? (hfs : fs.tree.IsProper) (hnode : fs.node? base = fs'.node? base')
    (h : rules.HasSource fs base place) : rules.HasSource fs' base' place := by
  obtain ⟨hdir, hbelow, haccepts⟩ := h
  have hnames := hbelow.isDiskName hfs
  obtain ⟨node, content, hfound, hat, hhidden⟩ := hbelow
  refine ⟨?_, ⟨node, content, hnode ▸ hfound, hat, hhidden⟩, ?_⟩
  · rw [FileSystem.isDirectory, ← hnode]
    exact hdir
  rcases place.eq_nil_or_concat with rfl | ⟨between, name, rfl⟩
  · -- The directory itself is no file.
    obtain rfl := Option.some_inj.1 hat
    rw [FileSystem.isDirectory, hfound] at hdir
    cases hdir
  · rw [List.concat_eq_append] at hnames haccepts ⊢
    have hextension : ∀ dir : FilePath, (dir.descend (between ++ [name])).extension? =
        (FilePath.divideName name).2 := by
      intro dir
      have hlast : (dir.descend (between ++ [name])).components =
          (dir.components ++ between.map .named) ++ [.named name] := by
        rw [FilePath.components_descend hnames, List.map_append, List.append_assoc]
        rfl
      exact FilePath.extension?_of_components hlast
    rw [accepts_of_below (FilePath.components_descend hnames _), hextension] at haccepts ⊢
    exact haccepts

/-- The rules select the same behind two roots if their entries lead to the same. -/
theorem SelectsBehind.of_node? (hfs : fs.tree.IsProper)
    (hnode : ∀ entry ∈ rules.directories ++ rules.files,
      fs.node? (root.join entry) = fs'.node? (root'.join entry))
    (h : rules.SelectsBehind fs root rest) : rules.SelectsBehind fs' root' rest := by
  rcases h with ⟨file, hfile, hexists, hway⟩ | ⟨dir, hdir, place, hplace, hway⟩
  · refine Or.inl ⟨file, hfile, ?_, hway⟩
    rw [FileSystem.isFile, ← hnode file (List.mem_append_right _ hfile)]
    exact hexists
  · exact Or.inr ⟨dir, hdir, place,
      hplace.of_node? hfs (hnode dir (List.mem_append_left _ hdir)), hway⟩

/-- An entry leads to the same from two roots that have the tree `t`, because the way to it stays
inside the tree. The links that may be passed behind the roots are as many, or enough from both. -/
def StaysAlike (fs fs' : FileSystem) (root root' : FilePath) (t : FileTree) (entry : FilePath) :
    Prop :=
  let way := Segment.split entry.text.toList
  let left := linkLimit - fs.linksTo root
  let left' := linkLimit - fs'.linksTo root'
  (t.stays left way [] = true ∧ t.stays left' way [] = true) ∧
    (left = left' ∨ t.walk true (min left left') way [] ≠ .error .tooManyLinks)

/-- Every entry without `..` does so in a tree without links. -/
theorem staysAlike_of_linkless {t : FileTree} {entry : FilePath}
    (hlinkless : ∀ place target, t.at? place ≠ some (.link target))
    (hdots : ['.', '.'] ∉ Segment.split entry.text.toList) :
    StaysAlike fs fs' root root' t entry :=
  have hstays := FileTree.stays_of_linkless hlinkless rfl hdots true
  ⟨⟨(hstays _).1, (hstays _).1⟩, Or.inr (hstays _).2⟩

theorem StaysAlike.node?_join {entry : FilePath} (hroot : root.isAbsolute = true)
    (hroot' : root'.isAbsolute = true) (hnode : fs.node? root = some (.directory entries))
    (hnode' : fs'.node? root' = some (.directory entries)) (hrelative : entry.isAbsolute = false)
    (h : StaysAlike fs fs' root root' (.directory entries) entry) :
    fs.node? (root.join entry) = fs'.node? (root'.join entry) := by
  obtain ⟨⟨hstays, hstays'⟩, hlinks⟩ := h
  have hwalk : (FileTree.directory entries).walk true (linkLimit - fs.linksTo root)
        (Segment.split entry.text.toList) [] =
      (FileTree.directory entries).walk true (linkLimit - fs'.linksTo root')
        (Segment.split entry.text.toList) [] := by
    rcases hlinks with hlinks | henough
    · rw [hlinks]
    · rw [FileTree.walk_of_le (Nat.min_le_left ..) henough,
        FileTree.walk_of_le (Nat.min_le_right ..) henough]
  refine Option.ext fun node ↦ ?_
  rw [FileSystem.node?_join_eq_some_iff hroot hnode hrelative hstays,
    FileSystem.node?_join_eq_some_iff hroot' hnode' hrelative hstays', hwalk]

/-! ## Moved projects -/

theorem exists_moved_of_mem_select (hfs : fs.tree.IsProper) (hroot : root.text ≠ "")
    (hroot' : root'.text ≠ "")
    (hrelative : ∀ entry ∈ rules.directories ++ rules.files, entry.isAbsolute = false)
    {path : FilePath} (h : path ∈ (rules.select fs root).1) :
    ∃ rest, rules.SelectsBehind fs root rest ∧ path.components = root.components ++ rest ∧
      (path.moved root root').components = root'.components ++ rest := by
  obtain ⟨rest, hrest, hcomponents⟩ :=
    (mem_components_select_iff_exists hfs hroot hrelative).1 (List.mem_map_of_mem h)
  exact ⟨rest, hrest, hcomponents.symm,
    FilePath.components_moved hroot' hcomponents.symm hrest.isStep⟩

theorem pairwise_moved (hfs : fs.tree.IsProper) (hroot : root.text ≠ "") (hroot' : root'.text ≠ "")
    (hrelative : ∀ entry ∈ rules.directories ++ rules.files, entry.isAbsolute = false) :
    ((rules.select fs root).1.map (·.moved root root')).Pairwise FilePath.Precedes := by
  refine List.pairwise_map.2 ((pairwise_select rules fs root).imp_of_mem ?_)
  intro p q hp hq hprecedes
  obtain ⟨rest, -, hp, hmoved⟩ := exists_moved_of_mem_select hfs hroot hroot' hrelative hp
  obtain ⟨rest', -, hq, hmoved'⟩ := exists_moved_of_mem_select hfs hroot hroot' hrelative hq
  rw [FilePath.Precedes, hp, hq, stepsPrecede_append_iff] at hprecedes
  rw [FilePath.Precedes, hmoved, hmoved', stepsPrecede_append_iff]
  exact hprecedes

theorem errors_congr (hnode : ∀ entry ∈ rules.directories ++ rules.files,
      fs.node? (root.join entry) = fs'.node? (root'.join entry)) :
    (rules.select fs' root').2 = (rules.select fs root).2 := by
  have hdirectories : ∀ dir ∈ rules.directories,
      (!fs'.isDirectory (root'.join dir)) = !fs.isDirectory (root.join dir) := by
    intro dir hdir
    rw [FileSystem.isDirectory, FileSystem.isDirectory, hnode dir (List.mem_append_left _ hdir)]
  have hfiles : ∀ file ∈ rules.files,
      (!fs'.isFile (root'.join file)) = !fs.isFile (root.join file) := by
    intro file hfile
    rw [FileSystem.isFile, FileSystem.isFile, hnode file (List.mem_append_right _ hfile)]
  rw [select_eq_selectBy, selectBy_eq, select_eq_selectBy, selectBy_eq,
    List.filter_congr hdirectories, List.filter_congr hfiles]

end SourceRules

/-- **The location of a project plays no part.** From two roots with the same tree the same sources
are selected, each below its own root, in the same order, and the same errors are found, provided
that the entries of the rules are relative and lead to the same: because they stay inside the tree,
or in spite of not doing so. -/
theorem project_location_immaterial {rules : SourceRules} {fs fs' : FileSystem}
    {root root' : FilePath} {entries : List (String × FileTree)}
    (hfs : fs.tree.IsProper) (hfs' : fs'.tree.IsProper)
    (hroot : root.isAbsolute = true) (hroot' : root'.isAbsolute = true)
    (hnode : fs.node? root = some (.directory entries))
    (hnode' : fs'.node? root' = some (.directory entries))
    (halike : ∀ entry ∈ rules.directories ++ rules.files, entry.isAbsolute = false ∧
      (SourceRules.StaysAlike fs fs' root root' (.directory entries) entry ∨
        fs.node? (root.join entry) = fs'.node? (root'.join entry))) :
    (∀ path ∈ (rules.select fs root).1, root.components <+: path.components) ∧
      (rules.select fs' root').1.map FilePath.components =
        ((rules.select fs root).1.map (·.moved root root')).map FilePath.components ∧
      (rules.select fs' root').2 = (rules.select fs root).2 := by
  have hempty := (FileSystem.node?_eq_some_iff.1 hnode).1
  have hempty' := (FileSystem.node?_eq_some_iff.1 hnode').1
  have hrelative : ∀ entry ∈ rules.directories ++ rules.files, entry.isAbsolute = false :=
    fun entry hentry ↦ (halike entry hentry).1
  have hsame : ∀ entry ∈ rules.directories ++ rules.files,
      fs.node? (root.join entry) = fs'.node? (root'.join entry) := fun entry hentry ↦
    (halike entry hentry).2.elim
      (·.node?_join hroot hroot' hnode hnode' (hrelative entry hentry)) id
  have hmoved : ∀ path ∈ (rules.select fs root).1, ∃ rest, rules.SelectsBehind fs root rest ∧
      path.components = root.components ++ rest ∧
      (path.moved root root').components = root'.components ++ rest := fun path hpath ↦
    SourceRules.exists_moved_of_mem_select hfs hempty hempty' hrelative hpath
  refine ⟨fun path hpath ↦ ?_, ?_, SourceRules.errors_congr hsame⟩
  · obtain ⟨rest, -, hcomponents, -⟩ := hmoved path hpath
    exact ⟨rest, hcomponents.symm⟩
  · -- Both lists are in order, so it is enough that they have the same members.
    refine FilePath.components_eq_of_mem_iff (SourceRules.pairwise_select rules fs' root')
      (SourceRules.pairwise_moved hfs hempty hempty' hrelative) fun cs ↦ ?_
    rw [SourceRules.mem_components_select_iff_exists hfs' hempty' hrelative, List.map_map,
      List.mem_map]
    constructor
    · rintro ⟨rest, hrest, rfl⟩
      have hselected := hrest.of_node? hfs' fun entry hentry ↦ (hsame entry hentry).symm
      obtain ⟨path, hpath, hcomponents⟩ := List.mem_map.1
        ((SourceRules.mem_components_select_iff_exists hfs hempty hrelative).2
          ⟨rest, hselected, rfl⟩)
      exact ⟨path, hpath, FilePath.components_moved hempty' hcomponents hrest.isStep⟩
    · rintro ⟨path, hpath, rfl⟩
      obtain ⟨rest, hrest, -, hcomponents⟩ := hmoved path hpath
      exact ⟨rest, hrest.of_node? hfs hsame, hcomponents.symm⟩

/-- A tree with a link that leads to another place in it. -/
def Sample.movable : FileTree :=
  .directory [
    ("extra", .link "src/./deep"),
    ("main.mts", .file .empty),
    ("src", .directory [
      ("deep", .directory [("b.ts", .file .empty)]),
      ("dist", .directory [("c.ts", .file .empty)]),
      ("a.ts", .file .empty)])]

/-- The tree, twice in the same file system. -/
def Sample.twins : FileSystem :=
  ⟨.directory [("dist", movable), ("node_modules", .directory [("p", movable)])], ⟨"/"⟩⟩

/-- Both roots have names that the rules exclude, and a directory in the tree has such a name as
well. One source directory is the link, and one listed file is missing. -/
theorem project_location_immaterial_excluded :
    let rules : SourceRules :=
      ⟨[⟨"src"⟩, ⟨"./extra/"⟩], ["ts"], ["node_modules", "dist"], [⟨"main.mts"⟩, ⟨"gone.ts"⟩], true⟩
    let found := rules.select Sample.twins ⟨"/node_modules/p"⟩
    let found' := rules.select Sample.twins ⟨"/dist/"⟩
    found = ([⟨"/node_modules/p/./extra/b.ts"⟩, ⟨"/node_modules/p/main.mts"⟩,
        ⟨"/node_modules/p/src/a.ts"⟩, ⟨"/node_modules/p/src/deep/b.ts"⟩],
        [SourceRules.missingFile ⟨"gone.ts"⟩]) ∧
      found'.1.map FilePath.components = [⟨"/dist/extra/b.ts"⟩, ⟨"/dist/main.mts"⟩,
        ⟨"/dist/src/a.ts"⟩, ⟨"/dist/src/deep/b.ts"⟩].map FilePath.components ∧
      found'.2 = [SourceRules.missingFile ⟨"gone.ts"⟩] := by
  intro rules found found'
  have hfound : found = ([⟨"/node_modules/p/./extra/b.ts"⟩, ⟨"/node_modules/p/main.mts"⟩,
      ⟨"/node_modules/p/src/a.ts"⟩, ⟨"/node_modules/p/src/deep/b.ts"⟩],
      [SourceRules.missingFile ⟨"gone.ts"⟩]) := SourceRules.select_eq_iff.2 (by decide +kernel)
  have hnode : Sample.twins.node? ⟨"/node_modules/p"⟩ = some Sample.movable := by
    with_unfolding_all rfl
  have hnode' : Sample.twins.node? ⟨"/dist/"⟩ = some Sample.movable := by with_unfolding_all rfl
  have hlinks : linkLimit - Sample.twins.linksTo ⟨"/node_modules/p"⟩ =
      linkLimit - Sample.twins.linksTo ⟨"/dist/"⟩ := by decide +kernel
  have hstays : ∀ entry ∈ rules.directories ++ rules.files, entry.isAbsolute = false ∧
      Sample.movable.stays (linkLimit - Sample.twins.linksTo ⟨"/node_modules/p"⟩)
        (Segment.split entry.text.toList) [] = true := by decide +kernel
  have halike : ∀ entry ∈ rules.directories ++ rules.files, entry.isAbsolute = false ∧
      (SourceRules.StaysAlike Sample.twins Sample.twins ⟨"/node_modules/p"⟩ ⟨"/dist/"⟩
          Sample.movable entry ∨
        Sample.twins.node? (FilePath.join ⟨"/node_modules/p"⟩ entry) =
          Sample.twins.node? (FilePath.join ⟨"/dist/"⟩ entry)) := by
    intro entry hentry
    obtain ⟨hrelative, hinside⟩ := hstays entry hentry
    exact ⟨hrelative, Or.inl ⟨⟨hinside, hlinks ▸ hinside⟩, Or.inl hlinks⟩⟩
  obtain ⟨-, hsources, herrors⟩ := project_location_immaterial (by decide +kernel)
    (by decide +kernel) (by decide +kernel) (by decide +kernel) hnode hnode' halike
  have hpaths : (rules.select Sample.twins ⟨"/node_modules/p"⟩).1 = found.1 := rfl
  refine ⟨hfound, hsources.trans ?_, herrors.trans (congrArg Prod.snd hfound)⟩
  rw [hpaths, hfound]
  decide +kernel

/-- A tree with a link out of it. -/
def Sample.leaky : FileTree := .directory [("lib", .link "../shared")]

/-- A tree with a link that leads to its top, past as many links as can be passed. -/
def Sample.winding : FileTree :=
  .directory [
    ("a", .link "b/b/b"), ("b", .link "c/c/c"), ("c", .link "d/d/d"), ("d", .link "."),
    ("x.ts", .file .empty)]

/-- The first tree twice, with what it leads to beside one of them; and the second tree with a link
to it. -/
def Sample.linked : FileSystem :=
  ⟨.directory [
    ("a", .directory [
      ("p", leaky),
      ("shared", .directory [("src", .directory [("x.ts", .file .empty)])])]),
    ("p", leaky), ("q", winding), ("r", .link "q")], ⟨"/"⟩⟩

/-- But links may lead out of a project, to different places from different roots. And if a root is
reached through a link then an entry may pass fewer links from there. -/
theorem location_matters_through_links :
    let rules := { SourceRules.default with directories := [⟨"lib/src"⟩] }
    let rules' := { SourceRules.default with directories := [⟨"a"⟩] }
    (Sample.linked.node? ⟨"/a/p"⟩ = some Sample.leaky ∧
      Sample.linked.node? ⟨"/p"⟩ = some Sample.leaky ∧
      rules.select Sample.linked ⟨"/a/p"⟩ = ([⟨"/a/p/lib/src/x.ts"⟩], []) ∧
      rules.select Sample.linked ⟨"/p"⟩ = ([], [SourceRules.missingDirectory ⟨"lib/src"⟩])) ∧
    Sample.linked.node? ⟨"/q"⟩ = some Sample.winding ∧
      Sample.linked.node? ⟨"/r"⟩ = some Sample.winding ∧
      (rules'.select Sample.linked ⟨"/q"⟩).2 = [] ∧
      (rules'.select Sample.linked ⟨"/r"⟩).2 = [SourceRules.missingDirectory ⟨"a"⟩] := by
  intro rules rules'
  have hr : Sample.linked.node? ⟨"/r"⟩ = some Sample.winding :=
    FileSystem.node?_eq_some_iff.2 ⟨by decide, by decide, ["q"], by with_unfolding_all rfl⟩
  refine ⟨⟨rfl, rfl, ?_, ?_⟩, rfl, hr, ?_, ?_⟩
  · exact SourceRules.select_eq_iff.2 (by decide +kernel)
  · exact SourceRules.select_eq_iff.2 (by decide +kernel)
  · rw [SourceRules.select_eq_selectBy, SourceRules.selectBy_eq]
    decide +kernel
  · rw [SourceRules.select_eq_selectBy, SourceRules.selectBy_eq]
    decide +kernel

end Coalesce
