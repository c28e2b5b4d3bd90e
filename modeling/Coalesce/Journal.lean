import Coalesce.Artifact
import Coalesce.Failure
import Coalesce.Request

/-!
# Journals

Everything that a pass does to the world outside, in the order in which it does it: messages for
the log, messages for those who trace the program, requests to end the process, and answers. A
journal is plain data; who listens to which entry is decided elsewhere.
-/

namespace Coalesce

/-- Why the process should end. -/
inductive ExitReason where
  | success
  /-- Diagnostics were reported and nothing was delivered. -/
  | outputsSkipped
deriving DecidableEq, Repr

/-- The number that a process ends with. -/
def ExitReason.code : ExitReason → Nat
  | success => 0
  | outputsSkipped => 1

/-- An answer to a request. -/
abbrev Answer (U : Type) : Type := Except Failure (Artifact U)

/-- What a line about the program is about. Nobody sees the lines of a quiet topic unless the
program runs verbosely; a loud one is not held back. -/
structure Topic where
  name : String
  isLoud : Bool
deriving DecidableEq, Repr

instance : Coe String Topic := ⟨fun name => ⟨name, false⟩⟩

/-- A line for those who trace the program, with the topic that it belongs to. -/
structure Trace where
  topic : Topic
  message : String
deriving DecidableEq, Repr

/-- One thing done to the world outside. -/
inductive Event (U : Type) where
  | info (message : String)
  | error (message : String)
  | trace (line : Trace)
  | exit (status : ExitReason)
  | answer (request : Request) (result : Answer U)

/-- What was done, in order. -/
abbrev Journal (U : Type) : Type := List (Event U)

namespace Journal

variable {U : Type}

/-- The messages for the log. -/
def infos (j : Journal U) : List String :=
  j.filterMap fun | .info message => some message | _ => none

/-- The errors for the log. -/
def errors (j : Journal U) : List String :=
  j.filterMap fun | .error message => some message | _ => none

/-- The trace lines. -/
def traces (j : Journal U) : List Trace :=
  j.filterMap fun | .trace line => some line | _ => none

/-- The requests to end the process. -/
def exits (j : Journal U) : List ExitReason :=
  j.filterMap fun | .exit status => some status | _ => none

/-- The answers, each with its request. -/
def answers (j : Journal U) : List (Request × Answer U) :=
  j.filterMap fun | .answer request result => some (request, result) | _ => none

/-- What happens if the first request to end the process is obeyed: the entries up to it, and the
status of the process if there is one. -/
def untilExit : Journal U → Journal U × Option ExitReason
  | [] => ([], none)
  | .exit status :: _ => ([.exit status], some status)
  | event :: rest =>
    let (before, status?) := untilExit rest
    (event :: before, status?)

@[simp] theorem answers_answer_cons (r : Request) (result : Answer U) (j : Journal U) :
    answers (.answer r result :: j) = (r, result) :: j.answers := rfl

@[simp] theorem errors_append (j k : Journal U) : errors (j ++ k) = j.errors ++ k.errors :=
  List.filterMap_append

@[simp] theorem traces_append (j k : Journal U) : traces (j ++ k) = j.traces ++ k.traces :=
  List.filterMap_append

@[simp] theorem exits_append (j k : Journal U) : exits (j ++ k) = j.exits ++ k.exits :=
  List.filterMap_append

@[simp] theorem answers_append (j k : Journal U) : answers (j ++ k) = j.answers ++ k.answers :=
  List.filterMap_append

end Journal

end Coalesce
