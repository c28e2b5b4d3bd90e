import Coalesce.Overlay
import Coalesce.Project
import Coalesce.Request

/-!
# Sessions

A session is what outlives a pass: the requests that wait, the program of the last pass, the host
that the backend has opened, everything that was captured, and the settings in force. Settings may
be fixed when the session begins; otherwise they follow the project.
-/

namespace Coalesce

/-- What a compiling session knows between two passes. -/
structure Session (P : Type) where
  /-- The directory that printed file names are relative to. -/
  root : FilePath
  batch : BatchSettings
  /-- Whether the settings are taken from the project before every pass. -/
  followsProject : Bool
  queue : Queue
  /-- The host that the backend has opened. -/
  host? : Option HostId
  /-- The program of the last pass that built one, unless the project has changed since. -/
  program? : Option P
  outputs : Outputs

namespace Session

variable {W P : Type}

/-- The settings that a session takes from its project, given those in force. A project without
settings leaves them as they are. -/
def followed (project : Project W) (w : W) (current : BatchSettings) : BatchSettings :=
  (project.batch? w).getD current

/-- A new session, with fixed settings or with those of the project. -/
def create (project : Project W) (settings? : Option BatchSettings) (root : FilePath) (w : W) :
    Session P where
  root := root
  batch := settings?.getD (followed project w .default)
  followsProject := settings?.isNone
  queue := .empty
  host? := none
  program? := none
  outputs := .empty

/-- The session with one more request waiting. -/
def push (s : Session P) (r : Request) : Session P := { s with queue := s.queue.push r }

/-- The session without waiting requests. -/
def withoutRequests (s : Session P) : Session P := { s with queue := .empty }

end Session

end Coalesce
