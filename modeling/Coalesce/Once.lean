import Coalesce.Console
import Coalesce.Session.Pass

/-!
# One pass at the console

A program that makes one pass and ends. What it does is seen at the console, and a report that asks
the process to end is obeyed at that point. Otherwise the exit code tells whether the pass failed.
-/

namespace Coalesce

/-- The code of a process whose pass failed without ending it. -/
def failedPassCode : Nat := 3

/-- How a process ended and what it wrote. -/
structure ConsoleRun where
  code : Nat
  streams : Console.Streams
deriving DecidableEq, Repr

variable {W U P : Type}

/-- The exit code behind a pass that did not end the process. -/
def Verdict.code : Verdict → Nat
  | .finished _ => ExitReason.code .success
  | .failed _ => failedPassCode
  | .crashed => failedPassCode

/-- A process that queues requests, makes one pass and ends. `answered` tells what is written when
the answer to a request arrives. -/
def runOnce (backend : Backend W U P) (project : Project W) (root : FilePath)
    (requests : List Request) (verbose : Bool) (answered : Request → Console.Streams) (w : W) :
    ConsoleRun :=
  let session : Session P := requests.foldl .push (.create project none root w)
  let pass := session.pass backend project w
  let (journal, status?) := pass.journal.untilExit
  ⟨status?.elim pass.verdict.code ExitReason.code, Console.displayAll verbose answered journal⟩

end Coalesce
