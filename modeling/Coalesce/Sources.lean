import Coalesce.Diagnostic.Basic
import Coalesce.FilePath.Name
import Coalesce.FilePath.Order
import Coalesce.FileTree.Resolve
import Coalesce.Manifest.Basic

/-!
# The sources of a project

The files of a project are those below its source directories that have one of its extensions and
no excluded name between the directory and themselves, and the files that it lists one by one. They
are sorted and each is there once. A directory or a listed file that does not exist gives an error.
-/

namespace Coalesce

namespace SourceRules

/-- Whether a file below a directory is a source: it has one of the extensions, and no name on the
way from the directory to it is excluded. -/
def accepts (rules : SourceRules) (dir path : FilePath) : Bool :=
  path.extension?.any rules.hasExtension &&
    !((path.relativeTo? dir).getD path).components.any fun
      | .named name => rules.excludes name
      | _ => false

/-- The paths of all files below a directory, hidden ones left out. -/
def listed (fs : FileSystem) (dir : FilePath) : List FilePath :=
  match fs.node? dir with
  | some node => node.files.map fun place => place.foldl (fun path name => path.join ⟨name⟩) dir
  | none => []

/-- The error about a source directory that does not exist. -/
def missingDirectory (dir : FilePath) : Diagnostic :=
  .error Manifest.missingDirectoryCode ("Include directory '" ++ dir.text ++ "' does not exist.")

/-- The error about a listed file that does not exist. -/
def missingFile (file : FilePath) : Diagnostic :=
  .error Manifest.missingFileCode ("File '" ++ file.text ++ "' not found.")

/-- What one source directory contributes. -/
def inDirectory (rules : SourceRules) (fs : FileSystem) (root dir : FilePath) :
    List FilePath × List Diagnostic :=
  let base := root.join dir
  if fs.isDirectory base then ((listed fs base).filter (rules.accepts base), [])
  else ([], [missingDirectory dir])

/-- What one listed file contributes. -/
def inList (fs : FileSystem) (root file : FilePath) : List FilePath × List Diagnostic :=
  let path := root.join file
  if fs.isFile path then ([path], []) else ([], [missingFile file])

/-- The sources of a project, and what is wrong with its rules. -/
def select (rules : SourceRules) (fs : FileSystem) (root : FilePath) :
    List FilePath × List Diagnostic :=
  let found := rules.directories.map (rules.inDirectory fs root) ++
    rules.files.map (inList fs root)
  (FilePath.sorted (found.flatMap Prod.fst), found.flatMap Prod.snd)

end SourceRules

end Coalesce
