import Coalesce.FilePath.Name

/-!
# File events

What a watcher reports about files: a kind and the paths that it is about. A project cares about an
event if something came, went, or got other content or another name, and one of the paths is not
that of a file that an editor keeps for itself.
-/

namespace Coalesce

/-- What about a file was modified. -/
inductive Modification where
  | unspecified
  | content
  | name
  | metadata
  | other
deriving DecidableEq, Repr

/-- What happened to a file. -/
inductive FileEventKind where
  | unspecified
  | accessed
  | created
  | modified (what : Modification)
  | removed
  | other
deriving DecidableEq, Repr

/-- Something that happened to files. -/
structure FileEvent where
  kind : FileEventKind
  paths : List FilePath
deriving DecidableEq, Repr

/-- Whether events of a kind can matter: reading does not, and neither do times and permissions. -/
def FileEventKind.matters : FileEventKind → Bool
  | created | removed => true
  | modified what => what != .metadata
  | unspecified | accessed | other => false

/-- Whether a project cares about an event. -/
def FileEvent.matters (event : FileEvent) : Bool :=
  event.kind.matters && event.paths.any fun path => !path.isTemporary

end Coalesce
