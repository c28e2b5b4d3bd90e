import Coalesce.FilePath.Basic

/-!
# Why a request gets no artifact

Failures are causes; what is printed of each is its message. A pass that fails as a whole gives one
and the same failure to all its requests, so failures carry no state.
-/

namespace Coalesce

/-- Why a project cannot say what it consists of. -/
inductive ProjectFailure where
  /-- A file cannot be read, for the given reason. -/
  | unreadable (path : FilePath) (reason : String)
  /-- The file system cannot be watched, for the given reason. -/
  | unwatchable (reason : String)
deriving DecidableEq, Repr

namespace ProjectFailure

/-- A project's failure in words. -/
def message : ProjectFailure → String
  | unreadable path _ => "IO error when reading `" ++ path.text ++ "`"
  | unwatchable _ => "file watcher failed"

/-- What is behind a project's failure. -/
def reason : ProjectFailure → String
  | unreadable _ reason => reason
  | unwatchable reason => reason

end ProjectFailure

/-- Why a request gets no artifact. -/
inductive Failure where
  /-- The compiled program has no source unit for the requested file. -/
  | unknownSource (path : FilePath)
  /-- An earlier request of the same pass had no source unit. -/
  | behindUnknown (missing : FilePath)
  /-- Diagnostics were reported, and the project wants no output then. -/
  | diagnosed (count : Nat)
  /-- The project cannot say what it consists of. -/
  | unavailable (cause : ProjectFailure)
  /-- The service has stopped. -/
  | stopped
  /-- The request was given up without a result. -/
  | givenUp
deriving DecidableEq, Repr

/-- A failure in words. -/
def Failure.message : Failure → String
  | unknownSource path =>
    "No source found for " ++ path.text ++ "!\n" ++
      "Is there a mismatch between the compiler options and the requested files?"
  | behindUnknown missing => "compilation aborted: no source found for " ++ missing.text
  | diagnosed count => toString count ++ " diagnostic(s) present, outputs skipped"
  | unavailable cause => "project error: " ++ cause.message
  | stopped => "compiler is no longer running"
  | givenUp => "compile request dropped without a result"

end Coalesce
