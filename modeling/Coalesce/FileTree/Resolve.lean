import Coalesce.FilePath.Basic
import Coalesce.FileTree.Basic

/-!
# Finding files

A path leads through a tree one segment at a time, from the top or from the current directory. A
link is replaced by what it leads to, but not more often than a limit allows, so that no walk is
endless: every step either takes a segment or uses up a link.
-/

namespace Coalesce

/-- Why the file system refuses something. -/
inductive Refusal where
  | notFound
  | alreadyExists
  | notDirectory
  | isDirectory
  | invalidArgument
  | notEmpty
  | tooManyLinks
  /-- The path has a character that no name can have. -/
  | badName
  /-- The content of a file is no text. -/
  | notText
deriving DecidableEq, Repr

/-- A refusal in words, with the number that the system has for it. -/
def Refusal.message : Refusal → String
  | notFound => "No such file or directory (os error 2)"
  | alreadyExists => "File exists (os error 17)"
  | notDirectory => "Not a directory (os error 20)"
  | isDirectory => "Is a directory (os error 21)"
  | invalidArgument => "Invalid argument (os error 22)"
  | notEmpty => "Directory not empty (os error 39)"
  | tooManyLinks => "Too many levels of symbolic links (os error 40)"
  | badName => "file name contained an unexpected NUL byte"
  | notText => "stream did not contain valid UTF-8"

/-- Where a path leads: to a node, or to a name that a directory does not have yet. -/
inductive Destination where
  | present (place : Place) (node : FileTree)
  | absent (place : Place)

/-- The number of links that a walk may pass. -/
def linkLimit : Nat := 40

namespace FileTree

/-- Follows segments through a tree from a directory on, and lets `follow` go on from a link with
the segments that are left. A link at the very end is followed only if `toTheEnd` says so. -/
def walkWith (top : FileTree) (toTheEnd : Bool)
    (follow : (target : String) → (rest : List Segment) → Place → Except Refusal Destination) :
    (rest : List Segment) → Place → Except Refusal Destination
  | [], place => .ok (.present place ((top.at? place).getD top))
  | segment :: rest, place =>
    if segment.isIdle then walkWith top toTheEnd follow rest place
    else if segment = ['.', '.'] then walkWith top toTheEnd follow rest place.dropLast
    else
      let next := place ++ [String.ofList segment]
      match top.at? next with
      | none => if rest = [] then .ok (.absent next) else .error .notFound
      | some (directory _) => walkWith top toTheEnd follow rest next
      | some (file content) =>
        if rest = [] then .ok (.present next (file content)) else .error .notDirectory
      | some (link target) =>
        if rest = [] ∧ !toTheEnd then .ok (.present next (link target))
        else follow target rest place

/-- Follows segments through a tree from a directory on, past no more links than given. -/
def walk (top : FileTree) (toTheEnd : Bool) :
    (links : Nat) → (rest : List Segment) → Place → Except Refusal Destination
  | 0 => top.walkWith toTheEnd fun _ _ _ => .error .tooManyLinks
  | links + 1 => top.walkWith toTheEnd fun target rest place =>
    if target = "" then .error .notFound
    else
      let start := if target.toList.head? = some '/' then [] else place
      walk top toTheEnd links (Segment.split target.toList ++ rest) start

end FileTree

/-- A tree of files and the directory that relative paths start from. -/
structure FileSystem where
  tree : FileTree
  current : FilePath

namespace FileSystem

/-- Where a path leads. -/
def resolve (fs : FileSystem) (toTheEnd : Bool) (path : FilePath) : Except Refusal Destination :=
  if path.text = "" then .error .notFound
  else if path.text.toList.contains '\x00' then .error .badName
  else
    fs.tree.walk toTheEnd linkLimit (Segment.split (fs.current.join path).text.toList) []

/-- The node that a path leads to, with its place. -/
def find (fs : FileSystem) (path : FilePath) : Except Refusal (Place × FileTree) := do
  match ← fs.resolve true path with
  | .present place node => return (place, node)
  | .absent _ => .error .notFound

/-- The node that a path leads to, if there is one. -/
def node? (fs : FileSystem) (path : FilePath) : Option FileTree :=
  (fs.find path).toOption.map Prod.snd

/-- Whether a path leads to a directory. -/
def isDirectory (fs : FileSystem) (path : FilePath) : Bool :=
  (fs.node? path).any FileTree.isDirectory

/-- Whether a path leads to a file. -/
def isFile (fs : FileSystem) (path : FilePath) : Bool :=
  (fs.node? path).any fun | .file _ => true | _ => false

/-- The content of a file. -/
def read (fs : FileSystem) (path : FilePath) : Except Refusal ByteArray := do
  match ← fs.find path with
  | (_, .file content) => return content
  | _ => .error .isDirectory

/-- The text in a file. -/
def readText (fs : FileSystem) (path : FilePath) : Except Refusal String := do
  match String.fromUTF8? (← fs.read path) with
  | some text => return text
  | none => .error .notText

/-- The path of a place. -/
def pathOf (place : Place) : FilePath := ⟨"/" ++ "/".intercalate place⟩

/-- The path of the place that a path leads to, if it leads anywhere; otherwise the path as seen
from the top. -/
def normalize (fs : FileSystem) (path : FilePath) : FilePath :=
  match fs.find path with
  | .ok (place, _) => pathOf place
  | .error _ => fs.current.join path

end FileSystem

end Coalesce
