import Coalesce.Toml.Node

/-!
# What is wrong with a document

A fault is a place in the document and what can be said about it: which construct was being read,
what could have stood there, and, where the characters were fine and their meaning was not, the
cause. Its message has up to three lines, one for each.
-/

namespace Coalesce.Toml

/-- A construct of the format that a reader can be in the middle of. -/
inductive Construct where
  | tableHeader
  | key
  | string
  | basicString
  | multilineBasicString
  | literalString
  | multilineLiteralString
  | escapeSequence
  | unicodeShort
  | unicodeLong
  | array
  | inlineTable
  | integer
  | hexadecimalInteger
  | octalInteger
  | binaryInteger
  | float
  | datetime
  | time
  | timeOffset
deriving DecidableEq, Repr

/-- A construct in words. -/
def Construct.text : Construct → String
  | tableHeader => "table header"
  | key => "key"
  | string => "string"
  | basicString => "basic string"
  | multilineBasicString => "multiline basic string"
  | literalString => "literal string"
  | multilineLiteralString => "multiline literal string"
  | escapeSequence => "escape sequence"
  | unicodeShort => "unicode 4-digit hex code"
  | unicodeLong => "unicode 8-digit hex code"
  | array => "array"
  | inlineTable => "inline table"
  | integer => "integer"
  | hexadecimalInteger => "hexadecimal integer"
  | octalInteger => "octal integer"
  | binaryInteger => "binary integer"
  | float => "floating-point number"
  | datetime => "date-time"
  | time => "time"
  | timeOffset => "time offset"

/-- Something that could have stood at a place. -/
inductive Expected where
  /-- These very characters. -/
  | verbatim (text : String)
  /-- Something described in words. -/
  | described (words : String)
deriving DecidableEq, Repr

/-- An expectation in words; characters stand in back quotes. -/
def Expected.text : Expected → String
  | verbatim text => "`" ++ text ++ "`"
  | described words => words

/-- Why well-formed characters have no meaning. -/
inductive Cause where
  /-- A key is defined a second time, in the table with the given header path. -/
  | duplicateKey (key : String) (table : List String)
  /-- A key is defined a second time, in a way that mixes up tables. -/
  | redefinedKey (key : String)
  /-- A dotted key leads through something that is no table. -/
  | extendsValue (path : List String) (kind : String)
  | outOfRange
  | numberTooLarge
  | numberTooSmall
  | tooDeep
deriving DecidableEq, Repr

/-- A cause in words. -/
def Cause.text : Cause → String
  | duplicateKey key [] => "duplicate key `" ++ key ++ "` in document root"
  | duplicateKey key table =>
    "duplicate key `" ++ key ++ "` in table `" ++ ".".intercalate table ++ "`"
  | redefinedKey key => "duplicate key `" ++ key ++ "`"
  | extendsValue path kind =>
    "dotted key `" ++ ".".intercalate path ++ "` attempted to extend non-table type (" ++ kind ++
      ")"
  | outOfRange => "value is out of range"
  | numberTooLarge => "number too large to fit in target type"
  | numberTooSmall => "number too small to fit in target type"
  | tooDeep => "recursion limit exceeded"

/-- A complaint about a document at a byte of it. -/
structure Fault where
  offset : Nat
  construct? : Option Construct
  expected : List Expected
  cause? : Option Cause
deriving DecidableEq, Repr

namespace Fault

/-- A fault about which nothing is known but its place. -/
def bare (offset : Nat) : Fault := ⟨offset, none, [], none⟩

/-- A fault with a cause. -/
def because (offset : Nat) (cause : Cause) : Fault := ⟨offset, none, [], some cause⟩

/-- The lines of a fault's message. -/
def lines (f : Fault) : List String :=
  (f.construct?.elim [] fun construct => ["invalid " ++ construct.text]) ++
    (if f.expected = [] then []
      else ["expected " ++ ", ".intercalate (f.expected.map Expected.text)]) ++
    f.cause?.elim [] fun cause => [cause.text]

/-- The message of a fault. -/
def message (f : Fault) : String := "\n".intercalate f.lines

end Fault

end Coalesce.Toml
