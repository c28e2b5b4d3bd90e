import Coalesce.Journal

/-!
# The console

A line on the console begins with its topic in brackets, in bold and in a colour that depends on the
topic. A line on standard output first clears what is left of the terminal's line; one on standard
error does not. Trace lines appear only if the program runs verbosely, unless their topic is loud.
-/

namespace Coalesce.Console

/-- The number of the colour of a topic; the case of its letters does not matter. -/
def color (topic : String) : String :=
  match String.ofList (topic.toList.map Char.toLower) with
  | "compile" => "94"
  | "watch" => "92"
  | "error" => "91"
  | _ => "93"

/-- A control sequence of the terminal. -/
def control (code : String) : String := "\x1b[" ++ code

/-- A topic in brackets, bold and coloured. -/
def heading (topic : String) : String :=
  control "1m" ++ control (color topic ++ "m") ++ "[" ++ topic ++ "]" ++ control "39m" ++
    control "0m"

/-- A line on standard error. -/
def errorLine (topic message : String) : String := heading topic ++ " " ++ message ++ "\n"

/-- A line on standard output. -/
def outputLine (topic message : String) : String := control "K" ++ errorLine topic message

/-- A trace line, if it appears. -/
def traceLine (verbose : Bool) (line : Trace) : String :=
  if verbose || line.topic.isLoud then outputLine line.topic.name line.message else ""

/-- What is written to the two streams. -/
structure Streams where
  out : String
  err : String
deriving DecidableEq, Repr

/-- Nothing written. -/
def Streams.empty : Streams := ⟨"", ""⟩

/-- One text behind another, on both streams. -/
def Streams.append (s t : Streams) : Streams := ⟨s.out ++ t.out, s.err ++ t.err⟩

instance : Append Streams := ⟨Streams.append⟩

variable {U : Type}

/-- What a listener at the console sees of an event: messages under the topic `compile`, errors
under `error`, trace lines under their own. `answered` tells what the requester writes when the
answer arrives. -/
def display (verbose : Bool) (answered : Request → Streams) : Event U → Streams
  | .info message => ⟨outputLine "compile" message, ""⟩
  | .error message => ⟨"", errorLine "error" message⟩
  | .trace line => ⟨traceLine verbose line, ""⟩
  | .exit _ => .empty
  | .answer request _ => answered request

/-- What a listener at the console sees of a journal. -/
def displayAll (verbose : Bool) (answered : Request → Streams) (j : Journal U) : Streams :=
  j.foldl (fun seen event => seen ++ display verbose answered event) .empty

/-- Trace lines alone. -/
def displayTraces (verbose : Bool) (lines : List Trace) : String :=
  "".intercalate (lines.map (traceLine verbose))

end Coalesce.Console
