import Coalesce.Backend
import Coalesce.FilePath.Map
import Coalesce.Journal

/-!
# Delivery

At the end of a pass every request of the queue is answered, in the order of arrival. A request
whose source the program has gets its artifact. The first one whose source is missing gets an error
that says so, and whoever comes behind it an error that names that source, because a project
without a requested file is not the project that was meant.
-/

namespace Coalesce

variable {W U P : Type}

/-- The artifact of a request whose source unit is known, taken from the captured outputs. -/
def Backend.artifact (backend : Backend W U P) (outputs : PathMap String)
    (settings : BatchSettings) (target : Target) (unit : U) : Artifact U where
  isDeclaration := backend.isDeclaration unit
  output? := outputs.get? target.output
  map? := outputs.get? (settings.sourceMapOf target.output)
  unit := unit

namespace Delivery

/-- The answers that give one failure to all requests. -/
def refusals (requests : List Request) (failure : Failure) : Journal U :=
  requests.map fun r => .answer r (.error failure)

/-- The answers to all requests, given what the program has for a target. The result is the source
that is missing, or the number of artifacts that were delivered. -/
def answers (artifact? : Target → Option (Artifact U)) :
    List Request → Journal U × Except FilePath Nat
  | [] => ([], .ok 0)
  | r :: rest =>
    match artifact? r.target with
    | none =>
      let missing := r.target.source
      (.answer r (.error (.unknownSource missing)) :: refusals rest (.behindUnknown missing),
        .error missing)
    | some artifact =>
      let (journal, result) := answers artifact? rest
      (.answer r (.ok artifact) :: journal, result.map (· + 1))

@[simp] theorem answers_refusals (requests : List Request) (failure : Failure) :
    (refusals requests failure : Journal U).answers =
      requests.map fun r => (r, .error failure) := by
  rw [refusals, Journal.answers, List.filterMap_map, ← List.filterMap_eq_map]
  rfl

end Delivery

/-- The answers to all requests from a program and the captured outputs. -/
def Backend.deliver (backend : Backend W U P) (program : P) (outputs : PathMap String)
    (settings : BatchSettings) (requests : List Request) : Journal U × Except FilePath Nat :=
  Delivery.answers
    (fun target =>
      (backend.find? program target.source).map (backend.artifact outputs settings target))
    requests

end Coalesce
