import Coalesce.FileTree.Event
import Coalesce.Journal

/-!
# Watchers

A watcher collects what is reported about the files below a directory until somebody looks. It sees
nothing any more once the directory itself is gone. Watching can also fail in between. Then
something may have been missed, so a failure is as good a reason to look again as any event.
-/

namespace Coalesce

/-- What a watcher is told: something has happened to files, or it could not be observed. -/
inductive Report where
  | event (event : FileEvent)
  | failure (message : String)
deriving DecidableEq, Repr

namespace Report

/-- Whether a project cares about a report. -/
def matters : Report → Bool
  | event e => e.matters
  | failure _ => true

/-- The line that is written about a report when somebody looks. -/
def line? : Report → Option Trace
  | event _ => none
  | failure message => some ⟨⟨"watch", true⟩, "notify error: " ++ message⟩

end Report

/-- The true path of the directory that is watched, unless it is gone, and what was reported. -/
structure Watcher where
  root? : Option FilePath
  pending : List Report
deriving DecidableEq, Repr

namespace Watcher

/-- A watcher that has just begun to watch a directory. -/
def create (root : FilePath) : Watcher := ⟨some root, []⟩

/-- The watcher after somebody looked. -/
def cleared (w : Watcher) : Watcher := { w with pending := [] }

/-- Whether something that matters was reported. -/
def hasNews (w : Watcher) : Bool := w.pending.any Report.matters

/-- The lines that are written when somebody looks. -/
def complaints (w : Watcher) : List Trace := w.pending.filterMap Report.line?

/-- The watcher with one more report. -/
def receive (report : Report) (w : Watcher) : Watcher :=
  { w with pending := w.pending ++ [report] }

/-- Reports an event to a watcher, which takes notice of the paths at or below its directory. -/
def notify (event : FileEvent) (w : Watcher) : Watcher :=
  match w.root? with
  | none => w
  | some root =>
    let paths := event.paths.filter fun path => root.components.isPrefixOf path.components
    if paths = [] then w
    else
      let isGone := event.kind == .removed && paths.any root.same
      { w with root? := if isGone then none else some root }.receive (.event { event with paths })

end Watcher

end Coalesce
