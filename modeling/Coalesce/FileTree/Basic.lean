/-!
# File trees

A tree of files is a file, a directory with named entries, or a symbolic link. A node has a *place*:
the names on the way to it from the top, none of which is a link. Names in a directory are distinct
because entries are only put in by name.
-/

namespace Coalesce

/-- A file, a directory, or a symbolic link with the text that it leads to. -/
inductive FileTree where
  | file (content : ByteArray)
  | directory (entries : List (String × FileTree))
  | link (target : String)

instance : Inhabited FileTree := ⟨.directory []⟩

/-- The names on the way from the top of a tree to a node. -/
abbrev Place : Type := List String

namespace FileTree

/-- The directory without entries. -/
def empty : FileTree := directory []

/-- Whether a node is a directory. -/
def isDirectory : FileTree → Bool
  | directory _ => true
  | _ => false

/-- The node at a place. -/
def at? : Place → FileTree → Option FileTree
  | [], t => some t
  | name :: place, directory entries =>
    (entries.find? fun entry => entry.1 == name).bind fun entry => at? place entry.2
  | _ :: _, _ => none

/-- The entries with the one of a name changed; it may be missing before and afterwards. -/
def alter (name : String) (change : Option FileTree → Option FileTree) :
    List (String × FileTree) → List (String × FileTree)
  | [] => (change none).toList.map (name, ·)
  | (other, t) :: entries =>
    if other = name then (change (some t)).toList.map (name, ·) ++ entries
    else (other, t) :: alter name change entries

/-- The node with what is at a place inside it replaced. Only the last name of the place may be
missing. -/
def put (node? : Option FileTree) : Place → Option FileTree → Option FileTree
  | [], _ => node?
  | name :: place, some (directory entries) =>
    some (directory (alter name (put node? place) entries))
  | _ :: _, old? => old?

/-- The tree with a node put at a place. -/
def insert (t : FileTree) (place : Place) (node : FileTree) : FileTree :=
  (put (some node) place (some t)).getD t

/-- The tree without the node at a place. -/
def erase (t : FileTree) (place : Place) : FileTree := (put none place (some t)).getD t

/-- Whether a name is kept out of listings: it starts with a dot. -/
def isHidden (name : String) : Bool := name.toList.head? == some '.'

mutual

/-- The places of the files of a tree, hidden entries left out. Links are not followed and are no
files. -/
def files : FileTree → List Place
  | file _ => [[]]
  | directory entries => filesOf entries
  | link _ => []

/-- The places of the files of a list of entries. -/
def filesOf : List (String × FileTree) → List Place
  | [] => []
  | (name, t) :: entries =>
    (if isHidden name then [] else (files t).map (name :: ·)) ++ filesOf entries

end

mutual

/-- The places of everything in a tree below its top. -/
def nodes : FileTree → List Place
  | directory entries => nodesOf entries
  | _ => []

/-- The places of everything in a list of entries. -/
def nodesOf : List (String × FileTree) → List Place
  | [] => []
  | (name, t) :: entries => (nodes t).map (name :: ·) ++ [name] :: nodesOf entries

end

end FileTree

end Coalesce
