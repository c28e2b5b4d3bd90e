import Coalesce.FilePath.Order
import Coalesce.Text.Quoted

/-!
# Requests

A request names the file that is wanted twice: by the path of the output that the requester will
look for, and by the path of the source as the project lists it. Its ticket says who asked; the
answer goes to that ticket. The same file may be asked for by many.
-/

namespace Coalesce

/-- A file that is wanted. -/
structure Target where
  /-- Where the requester looks for the output. -/
  output : FilePath
  /-- The source, as the project lists it. -/
  source : FilePath
deriving DecidableEq, Repr

/-- Targets are the same when both their paths are. -/
def Target.same (a b : Target) : Bool := a.output.same b.output && a.source.same b.source

/-- A wish for a file, with the ticket that the answer goes to. -/
structure Request where
  ticket : Nat
  target : Target
deriving DecidableEq, Repr

/-- A request for the eyes of a developer. -/
def Request.summary (r : Request) : String :=
  "CompileRequest \x7b file: InputFile \x7b path: " ++ Text.quoted r.target.output.text ++
    ", original_path: " ++ Text.quoted r.target.source.text ++ " \x7d, .. \x7d"

/-- The requests that wait for a pass, in the order of their arrival. -/
structure Queue where
  requests : List Request
deriving DecidableEq, Repr

namespace Queue

/-- The queue in which nobody waits. -/
def empty : Queue := ⟨[]⟩

/-- The queue with one more request behind the others. -/
def push (q : Queue) (r : Request) : Queue := ⟨q.requests ++ [r]⟩

/-- The number of waiting requests. -/
def length (q : Queue) : Nat := q.requests.length

/-- The sources that are asked for, each once. -/
def sources (q : Queue) : List FilePath :=
  FilePath.distinct (q.requests.map fun r => r.target.source)

/-- Whether somebody asks for a source. -/
def asksFor (q : Queue) (source : FilePath) : Bool :=
  q.requests.any fun r => r.target.source.same source

@[simp] theorem requests_push (q : Queue) (r : Request) :
    (q.push r).requests = q.requests ++ [r] := rfl

theorem asksFor_iff {q : Queue} {source : FilePath} :
    q.asksFor source = true ↔ ∃ r ∈ q.requests, r.target.source.same source = true := by
  simp [asksFor]

theorem any_sources (q : Queue) (source : FilePath) :
    q.sources.any (·.same source) = q.asksFor source := by
  rw [sources, FilePath.any_distinct, List.any_map]
  rfl

end Queue

end Coalesce
