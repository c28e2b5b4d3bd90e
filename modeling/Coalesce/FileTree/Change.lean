import Coalesce.FileTree.Event
import Coalesce.FileTree.Resolve

/-!
# Changing files

What can be done to the files of a system. Every try has an effect: the system afterwards, the
events that a watcher of the whole tree would report, in order and under the true paths of the files
concerned, and the reason if something was refused. A try that takes several steps ends with the
first one that is refused, and the steps before it stay done.
-/

namespace Coalesce.FileSystem

/-- What came of trying to change files. -/
structure Effect where
  system : FileSystem
  events : List FileEvent
  refusal? : Option Refusal

namespace Effect

/-- The effect of doing nothing. -/
def nothing (fs : FileSystem) : Effect := ⟨fs, [], none⟩

/-- The effect of a refusal. -/
def refused (fs : FileSystem) (refusal : Refusal) : Effect := ⟨fs, [], some refusal⟩

/-- The effect of a change with one event about one place. -/
def single (fs : FileSystem) (kind : FileEventKind) (place : Place) : Effect :=
  ⟨fs, [⟨kind, [pathOf place]⟩], none⟩

/-- One step behind another one, unless that was refused. -/
def andThen (e : Effect) (next : FileSystem → Effect) : Effect :=
  match e.refusal? with
  | some _ => e
  | none =>
    let f := next e.system
    ⟨f.system, e.events ++ f.events, f.refusal?⟩

end Effect

/-- The system with a node put at a place. -/
def insert (fs : FileSystem) (place : Place) (node : FileTree) : FileSystem :=
  { fs with tree := fs.tree.insert place node }

/-- The system without the node at a place. -/
def erase (fs : FileSystem) (place : Place) : FileSystem := { fs with tree := fs.tree.erase place }

/-- Puts a new node where there is none. -/
def addNode (fs : FileSystem) (path : FilePath) (node : FileTree) : Effect :=
  match fs.resolve false path with
  | .ok (.absent place) => .single (fs.insert place node) .created place
  | .ok (.present ..) => .refused fs .alreadyExists
  | .error refusal => .refused fs refusal

/-- Makes one directory unless there is one. -/
def ensureDirectory (fs : FileSystem) (path : FilePath) : Effect :=
  if fs.isDirectory path then .nothing fs else fs.addNode path .empty

/-- Makes the directories that a list of segments leads through, behind those already taken. -/
def ensureDirectories (anchor : Anchor) : (taken rest : List Segment) → FileSystem → Effect
  | _, [], fs => .nothing fs
  | taken, segment :: rest, fs =>
    let taken := taken ++ [segment]
    (fs.ensureDirectory (Layout.path ⟨anchor, taken⟩)).andThen
      (ensureDirectories anchor taken rest)

/-- Makes a directory and all that are missing on the way to it. -/
def makeDirectory (fs : FileSystem) (path : FilePath) : Effect :=
  let layout := (fs.current.join path).layout
  ensureDirectories layout.anchor [] (layout.body.filter fun segment => !segment.isIdle) fs

/-- Writes a file whose directory exists. -/
def writeFile (fs : FileSystem) (path : FilePath) (content : ByteArray) : Effect :=
  match fs.resolve true path with
  | .ok (.present place (.file _)) =>
    .single (fs.insert place (.file content)) (.modified .content) place
  | .ok (.present ..) => .refused fs .isDirectory
  | .ok (.absent place) => .single (fs.insert place (.file content)) .created place
  | .error refusal => .refused fs refusal

/-- Writes a file, making the directories that are missing on the way to it. -/
def write (fs : FileSystem) (path : FilePath) (content : ByteArray) : Effect :=
  let target := fs.current.join path
  let made := target.parent?.elim (Effect.nothing fs) fs.makeDirectory
  made.andThen fun fs => fs.writeFile target content

/-- Removes a file or a link. -/
def removeFile (fs : FileSystem) (path : FilePath) : Effect :=
  match fs.resolve false path with
  | .ok (.present _ (.directory _)) => .refused fs .isDirectory
  | .ok (.present place _) => .single (fs.erase place) .removed place
  | .ok (.absent _) => .refused fs .notFound
  | .error refusal => .refused fs refusal

/-- Removes a directory with all that is in it, or a link. -/
def removeDirectory (fs : FileSystem) (path : FilePath) : Effect :=
  match fs.resolve false path with
  | .ok (.present _ (.file _)) => .refused fs .notDirectory
  | .ok (.present place node) =>
    ⟨fs.erase place,
      (node.nodes.map (place ++ ·) ++ [place]).map fun gone => ⟨.removed, [pathOf gone]⟩, none⟩
  | .ok (.absent _) => .refused fs .notFound
  | .error refusal => .refused fs refusal

/-- Makes a link that leads to a text. -/
def makeLink (fs : FileSystem) (path : FilePath) (target : String) : Effect :=
  if target = "" then .refused fs .notFound else fs.addNode path (.link target)

/-- Why a node may not take the place of another one. -/
def clash? : (node old : FileTree) → Option Refusal
  | .directory _, .directory [] => none
  | .directory _, .directory _ => some .notEmpty
  | .directory _, _ => some .notDirectory
  | _, .directory _ => some .isDirectory
  | _, _ => none

/-- Moves a node from one place to another one. -/
def move (fs : FileSystem) (source : Place) (node : FileTree) (goal : Place) : Effect :=
  if goal = source then .nothing fs
  else if source.isPrefixOf goal then .refused fs .invalidArgument
  else
    ⟨(fs.erase source).insert goal node, [⟨.modified .name, [pathOf source, pathOf goal]⟩], none⟩

/-- Gives a node another path. -/
def rename (fs : FileSystem) (path newPath : FilePath) : Effect :=
  match fs.resolve false path, fs.resolve false newPath with
  | .ok (.present source node), .ok (.present goal old) =>
    match if goal = source then none else clash? node old with
    | some refusal => .refused fs refusal
    | none => fs.move source node goal
  | .ok (.present source node), .ok (.absent goal) => fs.move source node goal
  | .ok (.absent _), _ => .refused fs .notFound
  | .error refusal, _ => .refused fs refusal
  | _, .error refusal => .refused fs refusal

end Coalesce.FileSystem
