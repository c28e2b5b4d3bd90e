import Coalesce.Toml.Insertion
import Coalesce.Toml.Numbers

/-!
# Reading documents

A document is a sequence of lines: comments, headers, entries and empty ones. The first character
tells which. Entries go into the table of the last header, and a header closes the table before it.

Brackets nest, so the readers of values call each other. They carry a number that shrinks with each
call; it starts above twice the number of characters, and each pair of calls takes a character, so
that it never runs out before the text does.
-/

namespace Coalesce.Toml

namespace Reader

/-- What a value is taken for if nothing else fits: a string without its quotes. -/
def unquoted {α : Type} (r : Reader α) : Reader α :=
  naming .string (expecting [.verbatim "\"", .verbatim "'"] r)

/-- A number, a date or a time. -/
def numberOrDate (start : Nat) : Reader Node :=
  orElse (do return .datetime start (← datetime)) <|
    orElse (do return .float start (← float)) (do return .integer start (← integer))

mutual

/-- A value, inside `depth` brackets. -/
def value : (fuel : Nat) → (depth : Nat) → Reader Node
  | 0, _ => fun c => .miss (.bare c.offset)
  | fuel + 1, depth => fun c =>
    match c.rest with
    | [] => .miss (.bare c.offset)
    | x :: _ =>
      if x = '"' ∨ x = '\'' then (do return .string c.offset (← stringText) : Reader Node) c
      else if x = '[' then
        if depthLimit ≤ depth + 1 then .fail (.because c.offset .tooDeep)
        else
          (do
            let _ ← char '['
            let elements ← committed (elements fuel (depth + 1) [])
            let _ ← naming .array (expecting [.verbatim "]"] (committed (char ']')))
            return .array c.offset elements : Reader Node) c
      else if x = '{' then
        if depthLimit ≤ depth + 1 then .fail (.because c.offset .tooDeep)
        else
          (do
            let _ ← char '{'
            let inside ← offset
            let pairs ← committed (pairs fuel (depth + 1) [])
            blanks
            match inlineTable c.offset pairs with
            | .error cause => failing (.because inside cause)
            | .ok t =>
              let _ ← naming .inlineTable (expecting [.verbatim "\x7d"] (committed (char '}')))
              return t.node : Reader Node) c
      else if x = '+' ∨ x = '-' ∨ x.isDigit then numberOrDate c.offset c
      else if x = '_' then
        expecting [.described "leading digit"] (do return .integer c.offset (← integer)) c
      else if x = '.' then
        expecting [.described "leading digit"] (do return .float c.offset (← float)) c
      else if x = 't' then
        unquoted (do committed (literal "true".toList); return .boolean c.offset true) c
      else if x = 'f' then
        unquoted (do committed (literal "false".toList); return .boolean c.offset false) c
      else if x = 'i' ∨ x = 'n' then
        unquoted (do return .float c.offset (← namedFloat)) c
      else unquoted (missing (.bare c.offset)) c

/-- The elements of an array behind those that were read, up to the closing bracket. An element
that cannot be read to its end counts as none. -/
def elements : (fuel : Nat) → (depth : Nat) → (before : List Node) → Reader (List Node)
  | 0, _, before => pure before
  | fuel + 1, depth, before => do
    let element : Reader Node := do
      if before ≠ [] then
        let _ ← char ','
      spacing
      let v ← value fuel depth
      spacing
      return v
    match ← optional element with
    | some v => elements fuel depth (before ++ [v])
    | none =>
      if before ≠ [] then
        let _ ← optional (char ',')
      spacing
      return before

/-- The entries between braces behind those that were read. -/
def pairs : (fuel : Nat) → (depth : Nat) → (before : List (List Key × Key × Node)) →
    Reader (List (List Key × Key × Node))
  | 0, _, before => pure before
  | fuel + 1, depth, before => do
    let pair : Reader (List Key × Key × Node) := do
      if before ≠ [] then
        let _ ← char ','
      let segments ← dottedKey
      committed do
        let _ ← expecting [.verbatim ".", .verbatim "="] (char '=')
        blanks
        let v ← value fuel depth
        blanks
        match segments.getLast? with
        | some key => return (segments.dropLast, key, v)
        | none => missing (.bare (← offset))
    match ← optional pair with
    | some p => pairs fuel depth (before ++ [p])
    | none => return before

end

/-- An entry of the current table, up to the end of its line. -/
def entry (d : Draft) : Reader Draft := do
  let start ← offset
  let segments ← dottedKey
  let _ ← expecting [.verbatim ".", .verbatim "="] (char '=')
  blanks
  let v ← value (2 * (← cursor).rest.length + 2) 0
  lineRest
  match segments.getLast? with
  | none => missing (.bare start)
  | some key =>
    match d.add segments.dropLast key v with
    | .error cause => missing (.because start cause)
    | .ok d => return d

/-- The path in a header between its brackets. -/
def headerPath (opening closing : List Char) : Reader (List Key) := do
  literal opening
  committed do
    let path ← dottedKey
    expecting [.verbatim ".", .verbatim (String.ofList closing)] (literal closing)
    lineRest
    return path

/-- The header of a table, which begins a new one. -/
def header (d : Draft) : Reader Draft :=
  naming .tableHeader fun c =>
    let beginning (path : List Key) (begun : Except Cause Draft) : Reader Draft :=
      match path, begun with
      | _, .ok d => pure d
      | _, .error cause => missing (.because c.offset cause)
    match c.rest with
    | '[' :: '[' :: _ =>
      (do
        let path ← headerPath ['[', '['] [']', ']']
        beginning path (d.openListed c.offset path) : Reader Draft) c
    | '[' :: _ :: _ =>
      (do
        let path ← headerPath ['['] [']']
        beginning path (d.openTable c.offset path) : Reader Draft) c
    | _ => .miss (.bare c.offset)

/-- The lines of a document, each of which takes a character. -/
def lines : (fuel : Nat) → Draft → Reader Draft
  | 0, d => pure d
  | fuel + 1, d => do
    blanks
    match ← peek? with
    | none => return d
    | some '#' => do committed (do comment; lineEnd); lines fuel d
    | some '[' => do lines fuel (← committed (header d))
    | some '\n' => do newline; lines fuel d
    | some '\r' =>
      match ← optional newline with
      | some _ => lines fuel d
      | none => return d
    | some _ => do lines fuel (← committed (entry d))

/-- A whole document; a byte order mark in front of it does not count. -/
def document : Reader Table := do
  let _ ← optional (char '\ufeff')
  let d ← lines ((← cursor).rest.length + 1) .empty
  endOfInput
  match d.finished with
  | .ok t => return t
  | .error cause => missing (.because (← offset) cause)

end Reader

/-- The document that a text holds. -/
def Table.ofText (text : String) : Except Fault Table :=
  match Reader.document ⟨text.toList, 0⟩ with
  | .done t _ => .ok t
  | .miss fault => .error fault
  | .fail fault => .error fault

end Coalesce.Toml
