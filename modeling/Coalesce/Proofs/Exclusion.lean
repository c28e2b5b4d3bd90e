import Coalesce.FilePath.Relative
import Coalesce.Proofs.Looks

/-!
# What excludes a file

A file below a source directory is judged by the names on the way to it from there, however the two
paths are spelled (`SourceRules.accepts_of_below`): nothing above the directory is looked at, nor
the directory's own name, nor what else there is in any directory. The last of those names is the
file's own. It is held against the excluded names as the directories between are, although these are
meant to be names of directories.
-/

namespace Coalesce

namespace SourceRules

variable {rules : SourceRules} {dir path : FilePath}

/-- Whether a file below a directory is a source, by the names on the way to it. -/
theorem accepts_of_below {names : List String}
    (h : path.components = dir.components ++ names.map .named) :
    rules.accepts dir path =
      (path.extension?.any rules.hasExtension && !names.any rules.excludes) := by
  obtain ⟨rel, hrel, hsteps⟩ := FilePath.components_relativeTo? h
  rw [accepts, hrel, Option.getD_some, hsteps, List.any_map]
  rfl

end SourceRules

/-- **What excludes a file.** A file with one of the extensions is left out just if a directory
strictly between the source directory and the file has an excluded name or the file itself has one.
So only directories exclude it if and only if its own name is not excluded, or is so in vain. -/
theorem only_directories_exclude_iff {rules : SourceRules} {dir path : FilePath}
    {between : List String} {name : String}
    (hbelow : path.components = dir.components ++ (between ++ [name]).map .named)
    (hextension : path.extension?.any rules.hasExtension = true) :
    (rules.accepts dir path = false ↔
      (∃ directory ∈ between, rules.excludes directory = true) ∨ rules.excludes name = true) ∧
    ((rules.accepts dir path = false → ∃ directory ∈ between, rules.excludes directory = true) ↔
      (rules.excludes name = true → ∃ directory ∈ between, rules.excludes directory = true)) := by
  have hrejected : rules.accepts dir path = false ↔
      (∃ directory ∈ between, rules.excludes directory = true) ∨ rules.excludes name = true := by
    rw [SourceRules.accepts_of_below hbelow, hextension, Bool.true_and, Bool.not_eq_false',
      List.any_append, Bool.or_eq_true, List.any_eq_true, List.any_cons, List.any_nil,
      Bool.or_false]
  refine ⟨hrejected, ?_⟩
  rw [hrejected, or_imp]
  exact and_iff_right id

/-- A module of a library is left out for the directory that the library is in, although the names
above the source directory, its own name and the names beside it are excluded as well. -/
theorem only_directories_exclude_library :
    let rules : SourceRules := { SourceRules.default with excluded := ["node_modules", "p", "src"] }
    let src : FilePath := ⟨"/p/src"⟩
    rules.accepts src ⟨"/p/src/node_modules/lib/index.ts"⟩ = false ∧
      rules.accepts src ⟨"/p/src/lib/index.ts"⟩ = true := by
  intro rules src
  have hmodule : FilePath.components ⟨"/p/src/node_modules/lib/index.ts"⟩ =
      src.components ++ (["node_modules", "lib"] ++ ["index.ts"]).map .named := by decide +kernel
  have hbeside : FilePath.components ⟨"/p/src/lib/index.ts"⟩ =
      src.components ++ (["lib"] ++ ["index.ts"]).map .named := by decide +kernel
  constructor
  · refine ((only_directories_exclude_iff hmodule ?_).1).2 (Or.inl ⟨"node_modules", ?_, ?_⟩) <;>
      decide +kernel
  · rw [← Bool.not_eq_false, (only_directories_exclude_iff hbeside (by decide +kernel)).1]
    decide +kernel

/-- But a file directly in the source directory is left out for its own name. -/
theorem file_excluded_by_own_name :
    let rules : SourceRules := { SourceRules.default with excluded := ["gen.ts"] }
    let fs :=
      Sample.disk "" [("src", .directory [("gen.ts", .file .empty), ("a.ts", .file .empty)])]
    let gen : FilePath := ⟨"/p/src/gen.ts"⟩
    gen.components = FilePath.components ⟨"/p/src"⟩ ++ ["gen.ts"].map .named ∧
      gen.extension?.any rules.hasExtension = true ∧
      (fs.isFile gen = true ∧ gen ∈ SourceRules.listed fs ⟨"/p/src"⟩) ∧
      rules.accepts ⟨"/p/src"⟩ gen = false ∧
      rules.select fs ⟨"/p"⟩ = ([⟨"/p/src/a.ts"⟩], []) := by
  refine ⟨?_, ?_, ?_, ?_, ?_⟩ <;> decide +kernel

end Coalesce
