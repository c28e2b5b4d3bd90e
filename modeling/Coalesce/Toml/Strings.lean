import Coalesce.Toml.Reader

/-!
# Strings and keys

There are four ways to write a string: between double quotes with escapes, between single quotes
without, and both over several lines between tripled quotes. In a string over several lines one or
two quotes stand for themselves where text or the closing quotes follow them. A key is a bare word
or one of the two strings on one line, and a dotted key is several of them.
-/

namespace Coalesce.Toml

namespace Reader

/-- A character from beyond ASCII. -/
def isWide (x : Char) : Bool := 0x80 ≤ x.toNat

/-- A character that stands for itself between double quotes. -/
def isBasic (x : Char) : Bool :=
  isBlank x || x == '!' || ('#' ≤ x && x ≤ '[') || (']' ≤ x && x ≤ '~') || isWide x

/-- A character that stands for itself between single quotes. -/
def isLiteral (x : Char) : Bool :=
  x == '\t' || (' ' ≤ x && x ≤ '&') || ('(' ≤ x && x ≤ '~') || isWide x

/-- The value of a digit in base sixteen. -/
def hexValue (x : Char) : Nat :=
  if x.isDigit then x.toNat - 48 else if x.isUpper then x.toNat - 55 else x.toNat - 87

/-- A digit in base sixteen. -/
def isHexDigit (x : Char) : Bool :=
  x.isDigit || ('a' ≤ x && x ≤ 'f') || ('A' ≤ x && x ≤ 'F')

/-- The number that digits stand for in a base. -/
def numeral (base : Nat) (digits : List Char) : Nat :=
  digits.foldl (fun n x => base * n + hexValue x) 0

/-- The character with a code point written in `count` digits. -/
def codePoint (construct : Construct) (count : Nat) : Reader Char :=
  committed <| naming construct fun c =>
    let digits := (c.rest.take count).takeWhile isHexDigit
    if digits.length = count then
      let code := numeral 16 digits
      if code.isValidChar then
        .done (Char.ofNat code) ⟨c.rest.drop count, c.offset + count⟩
      else .miss (.because c.offset .outOfRange)
    else .miss (.bare c.offset)

/-- The character that a letter behind a backslash stands for. -/
def escapes : List (Char × Char) :=
  [('b', '\x08'), ('f', '\x0c'), ('n', '\n'), ('r', '\r'), ('t', '\t'), ('\\', '\\'), ('"', '"')]

/-- What may stand behind a backslash. -/
def escapeLetters : List Expected :=
  ["b", "f", "n", "r", "t", "u", "U", "\\", "\""].map .verbatim

/-- A character written with a backslash. -/
def escaped : Reader Char := do
  let _ ← char '\\'
  let letter ← satisfying fun _ => true
  match escapes.lookup letter with
  | some x => pure x
  | none =>
    if letter = 'u' then codePoint .unicodeShort 4
    else if letter = 'U' then codePoint .unicodeLong 8
    else
      let here ← offset
      let behind := if letter.utf8Size = 1 then here else here - letter.utf8Size
      committed <| naming .escapeSequence <| expecting escapeLetters <| missing (.bare behind)

/-- The characters between double quotes on one line. -/
def basicChars : (fuel : Nat) → Reader (List Char)
  | 0 => pure []
  | fuel + 1 => do
    let plain ← takeWhile isBasic
    match ← optional escaped with
    | some x => return plain ++ x :: (← basicChars fuel)
    | none => return plain

/-- A string between double quotes. -/
def basicString : Reader String :=
  naming .basicString do
    let _ ← char '"'
    let chars ← basicChars ((← cursor).rest.length + 1)
    let _ ← committed (char '"')
    return String.ofList chars

/-- A string between single quotes. -/
def literalString : Reader String :=
  naming .literalString do
    let _ ← char '\''
    let chars ← takeWhile isLiteral
    let _ ← committed (char '\'')
    return String.ofList chars

/-- Blanks and line breaks. -/
def emptyLines : (fuel : Nat) → Reader Unit
  | 0 => pure ()
  | fuel + 1 => do
    blanks
    match ← optional newline with
    | some _ => emptyLines fuel
    | none => pure ()

/-- A backslash at the end of a line, which hides the line break and the blanks behind it. -/
def hiddenBreak : Reader (List Char) := do
  let _ ← char '\\'
  blanks
  newline
  emptyLines ((← cursor).rest.length + 1)
  return []

/-- A piece of text other than a quote in a string over several lines; `isText` tells the
characters that stand for themselves and `special` reads what does not. -/
def multilinePiece (isText : Char → Bool) (special : Reader (List Char)) : Reader (List Char) :=
  (do return [← satisfying isText])
    |>.orElse special
    |>.orElse (do newline; return ['\n'])

/-- Up to two quotes in front of what `next` reads, two of them if possible. -/
def innerQuotes (quote : Char) (next : Reader Unit) : Reader (List Char) :=
  (do literal [quote, quote]; ahead next; return [quote, quote])
    |>.orElse (do literal [quote]; ahead next; return [quote])

/-- The text of a string over several lines up to the closing quotes. -/
def multilineChars (quote : Char) (piece : Reader (List Char)) : (fuel : Nat) → Reader (List Char)
  | 0 => pure []
  | fuel + 1 => do
    match ← optional (piece.orElse (innerQuotes quote (do let _ ← piece))) with
    | some chars => return chars ++ (← multilineChars quote piece fuel)
    | none =>
      match ← optional (innerQuotes quote (literal [quote, quote, quote])) with
      | some chars => return chars
      | none => return []

/-- A string over several lines between tripled quotes; a line break right behind the opening ones
does not count. -/
def multilineString (construct : Construct) (quote : Char) (piece : Reader (List Char)) :
    Reader String :=
  naming construct do
    literal [quote, quote, quote]
    let _ ← optional newline
    let chars ← committed (multilineChars quote piece ((← cursor).rest.length + 1))
    committed (literal [quote, quote, quote])
    return String.ofList chars

/-- A string over several lines with escapes. -/
def multilineBasicString : Reader String :=
  multilineString .multilineBasicString '"'
    (multilinePiece isBasic (hiddenBreak.orElse (do return [← escaped])))

/-- A string over several lines without escapes. -/
def multilineLiteralString : Reader String :=
  multilineString .multilineLiteralString '\''
    (multilinePiece isLiteral (do missing (.bare (← offset))))

/-- A string in any of the four ways to write one. -/
def stringText : Reader String :=
  multilineBasicString |>.orElse basicString |>.orElse multilineLiteralString
    |>.orElse literalString

/-- A character of a bare key. -/
def isBare (x : Char) : Bool := x.isAlphanum || x == '_' || x == '-'

/-- One segment of a key. -/
def keySegment : Reader Key := fun c =>
  match c.rest with
  | '"' :: _ => (do return ⟨← basicString, c.offset⟩ : Reader Key) c
  | '\'' :: _ => (do return ⟨← literalString, c.offset⟩ : Reader Key) c
  | _ =>
    (do
      let first ← satisfying isBare
      let rest ← takeWhile isBare
      return ⟨String.ofList (first :: rest), c.offset⟩ : Reader Key) c

/-- A segment with the blanks around it. -/
def spacedSegment : Reader Key := do
  blanks
  let segment ← keySegment
  blanks
  return segment

/-- The segments behind the first one of a dotted key. -/
def moreSegments : (fuel : Nat) → Reader (List Key)
  | 0 => pure []
  | fuel + 1 => do
    match ← optional (do let _ ← char '.'; spacedSegment) with
    | some segment => return segment :: (← moreSegments fuel)
    | none => return []

/-- How deep keys and brackets may go. -/
def depthLimit : Nat := 80

/-- A key: one segment, or several with dots between them. -/
def dottedKey : Reader (List Key) := do
  let start ← offset
  let segments ← naming .key do
    let first ← spacedSegment
    return first :: (← moreSegments (← cursor).rest.length)
  if depthLimit ≤ segments.length then missing (.because start .tooDeep) else return segments

end Reader

end Coalesce.Toml
