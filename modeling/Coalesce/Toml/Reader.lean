import Coalesce.Toml.Fault

/-!
# Readers

A reader looks at the characters from a cursor on and has one of three outcomes. It may be *done*,
with a value and the cursor behind it; it may *miss*, if what stands there is something else, so
that another reader may be tried; or it may *fail*, if it has seen enough to know that nothing else
was meant. A miss carries the fault that it stopped at, because it becomes the complaint if no other
reader takes its place.
-/

namespace Coalesce.Toml

/-- The characters that are left and the number of bytes before them. -/
structure Cursor where
  rest : List Char
  offset : Nat
deriving Repr

/-- What comes of reading. -/
inductive Outcome (α : Type) where
  | done (value : α) (next : Cursor)
  | miss (fault : Fault)
  | fail (fault : Fault)
deriving Repr

/-- A way to read something from a cursor on. -/
def Reader (α : Type) : Type := Cursor → Outcome α

namespace Reader

variable {α β : Type}

instance : Monad Reader where
  pure value := fun c => .done value c
  bind r f := fun c =>
    match r c with
    | .done value next => f value next
    | .miss fault => .miss fault
    | .fail fault => .fail fault

/-- A reader without success that others may stand in for. -/
def missing (fault : Fault) : Reader α := fun _ => .miss fault

/-- A reader without success that nothing can stand in for. -/
def failing (fault : Fault) : Reader α := fun _ => .fail fault

/-- The cursor itself. -/
def cursor : Reader Cursor := fun c => .done c c

/-- The number of bytes before the cursor. -/
def offset : Reader Nat := fun c => .done c.offset c

/-- The next character, left in place. -/
def peek? : Reader (Option Char) := fun c => .done c.rest.head? c

/-- The same reader, for which a miss is a failure. -/
def committed (r : Reader α) : Reader α := fun c =>
  match r c with
  | .miss fault => .fail fault
  | outcome => outcome

/-- The first reader, or the second one where the first misses. -/
def orElse (r s : Reader α) : Reader α := fun c =>
  match r c with
  | .miss _ => s c
  | outcome => outcome

/-- The value of a reader, or nothing where it misses. -/
def optional (r : Reader α) : Reader (Option α) := fun c =>
  match r c with
  | .done value next => .done (some value) next
  | .miss _ => .done none c
  | .fail fault => .fail fault

/-- The value of a reader whose cursor stays where it is. A failure is one at that place. -/
def ahead (r : Reader α) : Reader α := fun c =>
  match r c with
  | .done value _ => .done value c
  | .miss fault => .miss ⟨c.offset, fault.construct?, fault.expected, fault.cause?⟩
  | .fail fault => .fail ⟨c.offset, fault.construct?, fault.expected, fault.cause?⟩

/-- The outcome of a reader with its fault changed. -/
def withFault (change : Fault → Fault) (r : Reader α) : Reader α := fun c =>
  match r c with
  | .done value next => .done value next
  | .miss fault => .miss (change fault)
  | .fail fault => .fail (change fault)

/-- The construct that a reader is for; a fault names the innermost one. -/
def naming (construct : Construct) : Reader α → Reader α :=
  withFault fun f => { f with construct? := f.construct?.or (some construct) }

/-- What could stand where a reader stops. -/
def expecting (expected : List Expected) : Reader α → Reader α :=
  withFault fun f => { f with expected := f.expected ++ expected }

/-- One character that satisfies a test. -/
def satisfying (test : Char → Bool) : Reader Char := fun c =>
  match c.rest with
  | [] => .miss (.bare c.offset)
  | x :: rest => if test x then .done x ⟨rest, c.offset + x.utf8Size⟩ else .miss (.bare c.offset)

/-- One given character. -/
def char (x : Char) : Reader Char := satisfying (· == x)

/-- The number of bytes of a list of characters. -/
def bytes : List Char → Nat
  | [] => 0
  | c :: cs => c.utf8Size + bytes cs

/-- The characters up to the first one that fails a test. -/
def takeWhile (test : Char → Bool) : Reader (List Char) := fun c =>
  let taken := c.rest.takeWhile test
  .done taken ⟨c.rest.dropWhile test, c.offset + bytes taken⟩

/-- Given characters, all of them or none. -/
def literal (text : List Char) : Reader Unit := fun c =>
  if text.isPrefixOf c.rest then
    .done () ⟨c.rest.drop text.length, c.offset + bytes text⟩
  else .miss (.bare c.offset)

/-- The end of the document. -/
def endOfInput : Reader Unit := fun c =>
  if c.rest = [] then .done () c else .miss (.bare c.offset)

/-- Space and tab. -/
def isBlank (x : Char) : Bool := x == ' ' || x == '\t'

/-- A character that may stand in a comment. -/
def isPlain (x : Char) : Bool := x == '\t' || (0x20 ≤ x.toNat && x.toNat != 0x7f)

/-- Any number of blanks. -/
def blanks : Reader Unit := do let _ ← takeWhile isBlank

/-- A line break. Where there is none the fault lies behind the byte that was looked at, or in
front of it if that byte is not a whole character. -/
def newline : Reader Unit := fun c =>
  match c.rest with
  | '\n' :: rest => .done () ⟨rest, c.offset + 1⟩
  | '\r' :: '\n' :: rest => .done () ⟨rest, c.offset + 2⟩
  | [] => .miss (.bare c.offset)
  | x :: _ => .miss (.bare (if x.utf8Size = 1 then c.offset + 1 else c.offset))

/-- A line break or the end of the document. -/
def lineEnd : Reader Unit := newline.orElse endOfInput

/-- A comment without the line break behind it. -/
def comment : Reader Unit := do
  let _ ← char '#'
  let _ ← takeWhile isPlain

/-- What may stand behind an entry or a header on its line. -/
def lineRest : Reader Unit :=
  expecting [.described "newline", .verbatim "#"] do
    blanks
    let _ ← optional comment
    lineEnd

/-- Blanks, comments and line breaks inside brackets. A comment needs a line break behind it. -/
def spacingFrom : (fuel : Nat) → Reader Unit
  | 0 => pure ()
  | fuel + 1 => do
    blanks
    match ← peek? with
    | some '#' => do comment; newline; spacingFrom fuel
    | some '\n' => do newline; spacingFrom fuel
    | some '\r' => do newline; spacingFrom fuel
    | _ => pure ()

/-- Blanks, comments and line breaks; every round takes a character. -/
def spacing : Reader Unit := do spacingFrom ((← cursor).rest.length + 1)

end Reader

end Coalesce.Toml
