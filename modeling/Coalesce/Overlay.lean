import Coalesce.Backend
import Coalesce.FilePath.Map

/-!
# The host of a pass

During a pass the backend does not talk to the host that it has opened but to an *overlay* on it.
A source unit that the program of the pass before has is served again, unless somebody asked for
that very file: such a file is read anew. Whatever the backend writes is captured, and goes on to
the host below only if the overlay forwards writes.
-/

namespace Coalesce

/-- The text last written at each path. -/
abbrev Outputs : Type := PathMap String

/-- What stands between the backend and its own host. -/
structure Overlay (U : Type) where
  /-- The source units of an earlier program. -/
  cached? : FilePath → Option U
  /-- The paths that are read anew. -/
  fresh : List FilePath
  /-- Whether writes go on to the host below. -/
  forwards : Bool

/-- What an overlay keeps track of: the state of the host below, the captured texts, and the number
of source units that were served again. -/
structure Capture (W : Type) where
  world : W
  outputs : Outputs
  reused : Nat

namespace Overlay

variable {U W : Type}

/-- Whether a path is one of those that are read anew. -/
def isFresh (o : Overlay U) (path : FilePath) : Bool := o.fresh.any (·.same path)

/-- The source unit that is served again for a path. -/
def served? (o : Overlay U) (path : FilePath) : Option U :=
  if o.isFresh path then none else o.cached? path

/-- An overlay on a host. -/
def host (o : Overlay U) (below : Host U W) : Host U (Capture W) where
  read path c :=
    match o.served? path with
    | some unit => (some unit, { c with reused := c.reused + 1 })
    | none =>
      let (unit?, world) := below.read path c.world
      (unit?, { c with world })
  write path text c :=
    { c with
      outputs := c.outputs.insert path text
      world := if o.forwards then below.write path text c.world else c.world }

theorem read_of_served {o : Overlay U} {path : FilePath} {unit : U}
    (h : o.served? path = some unit) (below : Host U W) (c : Capture W) :
    (o.host below).read path c = (some unit, { c with reused := c.reused + 1 }) := by
  simp [host, h]

theorem read_of_not_served {o : Overlay U} {path : FilePath} (h : o.served? path = none)
    (below : Host U W) (c : Capture W) :
    (o.host below).read path c =
      ((below.read path c.world).1, { c with world := (below.read path c.world).2 }) := by
  simp [host, h]

end Overlay

end Coalesce
