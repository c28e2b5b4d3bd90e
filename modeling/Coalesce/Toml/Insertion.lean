import Coalesce.Toml.Fault

/-!
# Putting entries into tables

A key that is defined twice is a fault, and so is a dotted key that leads through something closed.
The rules differ between the document and a table in braces, but the walk is the same: it goes down
one segment at a time, makes the tables that are missing, and works on the table at its end. In a
list of tables it goes into the last one.

A table with a header of its own is open to other headers below it and closed to dotted keys from
outside. A table that lies on the way to a header may still get a header of its own, which moves it
behind the entries that came meanwhile.
-/

namespace Coalesce.Toml

/-- The entry with a name. -/
def find? (name : String) (entries : List (Key × Node)) : Option Node :=
  (entries.find? fun entry => entry.1.name == name).map Prod.snd

/-- The entries with the node at a name replaced, or with a new entry at the end. -/
def put (key : Key) (node : Node) : List (Key × Node) → List (Key × Node)
  | [] => [(key, node)]
  | (other, old) :: rest =>
    if other.name = key.name then (other, node) :: rest else (other, old) :: put key node rest

/-- The entries without the one of a name. -/
def remove (name : String) (entries : List (Key × Node)) : List (Key × Node) :=
  entries.filter fun entry => entry.1.name != name

/-- How a walk through tables was written. -/
inductive Manner where
  /-- In the header of a table. -/
  | header
  /-- In a dotted key. -/
  | dotted
  /-- In a dotted key between braces. -/
  | braces
deriving DecidableEq, Repr

/-- The form of a table that a walk makes on its way. -/
def Manner.form : Manner → TableForm
  | header => .passage
  | dotted => .dotted
  | braces => .inlineDotted

/-- Whether a walk may enter a table, if there is one at a segment of its path. -/
def Manner.enters (manner : Manner) (path : List String) (key : Key) :
    TableForm → Except Cause Unit
  | .inline _ =>
    match manner with
    | .braces => .error (.redefinedKey key.name)
    | _ => .error (.extendsValue path "inline table")
  | .inlineDotted =>
    match manner with
    | .braces => .ok ()
    | _ => .error (.extendsValue path "inline table")
  | .document | .header _ =>
    match manner with
    | .dotted => .error (.redefinedKey key.name)
    | _ => .ok ()
  | .passage | .dotted => .ok ()

variable {α : Type}

/-- Works on the table at the end of a path; `walked` holds the segments already taken. -/
def descend (manner : Manner) (work : Table → Except Cause (Table × α)) :
    (walked : List String) → (path : List Key) → Table → Except Cause (Table × α)
  | _, [], t => work t
  | walked, key :: path, t => do
    let walked := walked ++ [key.name]
    let within (form : TableForm) (entries : List (Key × Node)) : Except Cause (Node × α) := do
      let (inner, result) ← descend manner work walked path ⟨form, entries⟩
      return (inner.node, result)
    let (node, result) ←
      match find? key.name t.entries with
      | none => within manner.form []
      | some (.table form entries) => do
        manner.enters walked key form
        within form entries
      | some (.tables elements) =>
        match elements.getLast? with
        | some (.table form entries) => do
          let (last, result) ← within form entries
          pure (.tables (elements.dropLast ++ [last]), result)
        | _ => .error (.redefinedKey key.name)
      | some node => .error (.extendsValue walked node.kind)
    return (⟨t.form, put key node t.entries⟩, result)

/-- A table with an entry added, given how the way to the table was written. A table reached by a
dotted key has to be made of dotted keys. -/
def addEntry (path : List Key) (key : Key) (node : Node) (taken : Cause) (t : Table) :
    Except Cause (Table × Unit) :=
  let isDotted := t.form = .dotted ∨ t.form = .inlineDotted
  if path ≠ [] ∧ ¬isDotted then .error (.redefinedKey key.name)
  else match find? key.name t.entries with
    | none => .ok (⟨t.form, t.entries ++ [(key, node)]⟩, ())
    | some _ => .error taken

/-- The table in braces that holds the given entries. -/
def inlineTable (start : Nat) (pairs : List (List Key × Key × Node)) : Except Cause Table :=
  pairs.foldlM
    (fun t (path, key, node) => do
      let taken := Cause.redefinedKey key.name
      return (← descend .braces (addEntry path key node taken) [] path t).1)
    ⟨.inline start, []⟩

/-- A key as a header writes it when it is complained about: bare if possible, else between the
first kind of quotes that needs no escapes, else with escapes. -/
def headerText (name : String) : String :=
  let chars := name.toList
  let isBare (x : Char) : Bool := x.isAlphanum || x == '_' || x == '-'
  let isControl (x : Char) : Bool := (x.toNat < 0x20 && x != '\t') || x.toNat == 0x7f
  let code (x : Char) : List Char :=
    let digits := (Nat.toDigits 16 x.toNat).map Char.toUpper
    '\\' :: 'u' :: (List.replicate (4 - digits.length) '0' ++ digits)
  let escape (x : Char) : List Char :=
    match x with
    | '\x08' => ['\\', 'b']
    | '\t' => ['\\', 't']
    | '\n' => ['\\', 'n']
    | '\x0c' => ['\\', 'f']
    | '\r' => ['\\', 'r']
    | '"' => ['\\', '"']
    | '\\' => ['\\', '\\']
    | x => if isControl x then code x else [x]
  let basic := String.ofList ('"' :: chars.flatMap escape ++ ['"'])
  if chars ≠ [] ∧ chars.all isBare then name
  else if chars.any fun x => isControl x || x == '\\' || x == '"' then
    if chars.any fun x => isControl x || x == '\'' then basic
    else String.ofList ('\'' :: chars ++ ['\''])
  else basic

/-- A document in the making: the tables that are finished and the one that is being filled, with
the path of its header. -/
structure Draft where
  root : Table
  current : Table
  path : List Key
  inList : Bool
deriving Repr

namespace Draft

/-- The draft of an empty document. -/
def empty : Draft := ⟨⟨.document, []⟩, ⟨.document, []⟩, [], false⟩

/-- The names of a path. -/
def names (path : List Key) : List String := path.map Key.name

/-- The complaint that the last segment of a header is taken. -/
def taken (path : List Key) : Cause :=
  .duplicateKey (headerText ((names path).getLast?.getD "")) (names path.dropLast)

/-- The draft with an entry added to the table that is being filled. -/
def add (d : Draft) (path : List Key) (key : Key) (node : Node) : Except Cause Draft := do
  let taken := Cause.duplicateKey key.name (names d.path)
  let (current, _) ← descend .dotted (addEntry path key node taken) [] path d.current
  return { d with current }

/-- The finished tables with the one that is being filled put in its place. -/
def finished (d : Draft) : Except Cause Table :=
  match d.path.getLast? with
  | none => .ok d.current
  | some key => do
    let place (t : Table) : Except Cause (Table × Unit) :=
      match d.inList, find? key.name t.entries with
      | true, some (.tables elements) =>
        .ok (⟨t.form, put key (.tables (elements ++ [d.current.node])) t.entries⟩, ())
      | false, none => .ok (⟨t.form, t.entries ++ [(key, d.current.node)]⟩, ())
      | _, _ => .error (taken d.path)
    return (← descend .header place [] d.path.dropLast d.root).1

/-- The draft with a new table begun by a header in single brackets. A table that so far lay on the
way to other headers is taken out and goes on under its own header. -/
def openTable (d : Draft) (start : Nat) (path : List Key) : Except Cause Draft := do
  let root ← d.finished
  let name := (names path).getLast?.getD ""
  let takeOut (t : Table) : Except Cause (Table × List (Key × Node)) :=
    match find? name t.entries with
    | none => .ok (t, [])
    | some (.table .passage entries) => .ok (⟨t.form, remove name t.entries⟩, entries)
    | some _ => .error (taken path)
  let (root, entries) ← descend .header takeOut [] path.dropLast root
  return ⟨root, ⟨.header start, entries⟩, path, false⟩

/-- The draft with a new table begun by a header in double brackets. -/
def openListed (d : Draft) (start : Nat) (path : List Key) : Except Cause Draft := do
  let root ← d.finished
  match path.getLast? with
  | none => return ⟨root, ⟨.header start, []⟩, path, true⟩
  | some key =>
    let enlist (t : Table) : Except Cause (Table × Unit) :=
      match find? key.name t.entries with
      | none => .ok (⟨t.form, t.entries ++ [(key, .tables [])]⟩, ())
      | some (.tables _) => .ok (t, ())
      | some _ => .error (taken path)
    let (root, _) ← descend .header enlist [] path.dropLast root
    return ⟨root, ⟨.header start, []⟩, path, true⟩

end Draft

end Coalesce.Toml
