import Coalesce.FilePath.Basic
import Coalesce.Text.Bytes

/-!
# Raw paths

A file system does not ask whether the bytes of a path are those of a text. It looks at slashes and
dots only, which are single bytes, so a raw path is understood like the path that has a character of
the same number for every byte (`RawPath.spelled`): it takes the same steps, and what is made of it
is made byte by byte.

A raw path is printed as a text, and then a replacement character stands for whatever is no
character. The path of a text is printed as that text.
-/

namespace Coalesce

/-- A path as a file system has it. -/
structure RawPath where
  bytes : List UInt8
deriving DecidableEq, Repr

namespace FilePath

/-- The bytes of a path. -/
def bytes (p : FilePath) : List UInt8 := p.text.toUTF8.data.toList

/-- A path as a file system has it. -/
def raw (p : FilePath) : RawPath := ⟨p.bytes⟩

end FilePath

namespace RawPath

/-- The path with a character of the same number for every byte. -/
def spelled (p : RawPath) : FilePath := ⟨String.ofList (Text.spell p.bytes)⟩

/-- The raw path with a byte of the same number for every character. -/
def ofSpelled (p : FilePath) : RawPath := ⟨Text.unspell p.text.toList⟩

/-- The steps that a raw path takes. -/
def components (p : RawPath) : List Component := p.spelled.components

/-- The same path, possibly spelled differently. -/
def same (p q : RawPath) : Bool := p.spelled.same q.spelled

/-- A path that starts at the root. -/
def isAbsolute (p : RawPath) : Bool := p.spelled.isAbsolute

/-- A path read from a directory. -/
def join (dir rel : RawPath) : RawPath := ofSpelled (dir.spelled.join rel.spelled)

/-- The rest of a path below a directory, if it is below. -/
def relativeTo? (p dir : RawPath) : Option RawPath :=
  (p.spelled.relativeTo? dir.spelled).map ofSpelled

/-- The name of a path seen from a directory: the way to it if it lies below, else the path as it
is. -/
def nameFrom (p dir : RawPath) : RawPath := (p.relativeTo? dir).getD p

/-- A path in print. -/
def text (p : RawPath) : String := String.ofList (Text.decode p.bytes)

/-- The bytes of a path are those of a text. -/
def IsText (p : RawPath) : Prop := ∃ q : FilePath, q.raw = p

end RawPath

end Coalesce
