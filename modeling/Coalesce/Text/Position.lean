/-!
# Positions in a text

A place in a text is given by a byte offset when it is found and by line and column when it is
shown. Lines and columns start at zero, and a column counts characters, not bytes. The walk below
looks at the characters in order, each with the byte offset at which it starts, and stops at the
first one that does not start before the offset asked for. Hence an offset inside a character
gives the position behind it, and an offset past the end gives the end of the text.
-/

namespace Coalesce.Text

/-- A zero-based line and column; columns count characters. -/
structure Position where
  line : Nat
  column : Nat
deriving DecidableEq, Repr, Inhabited

namespace Position

/-- The start of every text. -/
def origin : Position := ⟨0, 0⟩

/-- The position behind the character `c`. -/
def after (p : Position) (c : Char) : Position :=
  if c = '\n' then ⟨p.line + 1, 0⟩ else ⟨p.line, p.column + 1⟩

/-- The position that the characters starting before byte `offset` lead to, where `index` is the
byte at which the first of the characters starts and `p` its position. -/
def walk (offset : Nat) : List Char → (index : Nat) → Position → Position
  | [], _, p => p
  | c :: rest, index, p =>
    if offset ≤ index then p else walk offset rest (index + c.utf8Size) (p.after c)

/-- The position of a byte offset in a text. -/
def ofOffset (text : String) (offset : Nat) : Position := walk offset text.toList 0 origin

end Position

end Coalesce.Text
