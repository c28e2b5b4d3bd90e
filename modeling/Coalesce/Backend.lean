import Coalesce.Diagnostic.Basic
import Coalesce.Settings

/-!
# Backends

A *backend* is a compiler for whole projects. It is not trusted to touch files: while it works it
leads a *dialogue*, in which it asks for source units and hands over what it wants written, and a
*host* answers. One dialogue can be led with different hosts, and that is what a session does: it
puts a host of its own between the backend and the host that the backend would have chosen.

The parameters are the world `W` that hosts look at and change, the source units `U`, and the
compiled programs `P`.
-/

namespace Coalesce

/-- What a backend asks for and hands over before it comes to a result. -/
inductive Dialogue (U α : Type) where
  | done (result : α)
  /-- Asks for the source unit of a path and goes on with the answer. -/
  | read (path : FilePath) (next : Option U → Dialogue U α)
  /-- Hands over a text to be written at a path and goes on. -/
  | write (path : FilePath) (text : String) (next : Dialogue U α)

/-- What answers a backend, on a state that it may change. -/
structure Host (U S : Type) where
  read : FilePath → S → Option U × S
  write : FilePath → String → S → S

namespace Dialogue

variable {U α β S : Type}

/-- One dialogue behind another, which may depend on the result of the first. -/
def bind : Dialogue U α → (α → Dialogue U β) → Dialogue U β
  | done result, f => f result
  | read path next, f => read path fun unit? => (next unit?).bind f
  | write path text next, f => write path text (next.bind f)

instance : Monad (Dialogue U) where
  pure := done
  bind := bind

/-- Asks for one source unit. -/
def ask (path : FilePath) : Dialogue U (Option U) := read path done

/-- Hands over one text. -/
def tell (path : FilePath) (text : String) : Dialogue U Unit := write path text (done ())

/-- The result of a dialogue that a host answers, and what became of the host's state. -/
def run (host : Host U S) : Dialogue U α → S → α × S
  | done result, s => (result, s)
  | read path next, s =>
    let (unit?, s) := host.read path s
    (next unit?).run host s
  | write path text next, s => next.run host (host.write path text s)

@[simp] theorem run_pure (host : Host U S) (result : α) (s : S) :
    (pure result : Dialogue U α).run host s = (result, s) := rfl

@[simp] theorem run_bind (host : Host U S) (d : Dialogue U α) (f : α → Dialogue U β) (s : S) :
    (d >>= f).run host s = (f (d.run host s).1).run host (d.run host s).2 := by
  induction d generalizing s with
  | done result => rfl
  | read path next ih => exact ih _ _
  | write path text next ih => exact ih _

end Dialogue

/-- The number of a host that a backend has opened; each one has a number of its own. -/
structure HostId where
  number : Nat
deriving DecidableEq, Repr

/-- A compiler for whole projects. -/
structure Backend (W U P : Type) where
  name : String
  version : String
  /-- Opens a host for projects with the given options. -/
  openHost : BuildOptions → W → HostId × W
  /-- What an opened host does. -/
  host : HostId → Host U W
  /-- Begins to build the program of a list of files. The build may also break down. -/
  build : List FilePath → BuildOptions → W → Option (Dialogue U P) × W
  /-- What is wrong with a program. -/
  diagnostics : P → W → List Diagnostic
  /-- Writes the output of a program, and tells whether it came to the end; the emission may also
  break down over a part of it. -/
  emit : P → Dialogue U Bool
  /-- The source unit that a program has for a path. -/
  find? : P → FilePath → Option U
  /-- Whether a source unit only declares and has no output. -/
  isDeclaration : U → Bool

end Coalesce
