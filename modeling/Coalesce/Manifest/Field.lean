import Coalesce.Decimal.Shortest
import Coalesce.Settings
import Coalesce.Text.Quoted
import Coalesce.Toml.Numbers

/-!
# Reading fields from a document

A group of settings is a list of *fields*, each with a name and a way to take its value from a node.
The group may be written as a table, whose entries are taken in the order of the document, or as an
array, whose elements are taken in the order of the fields. The first value that does not fit ends
the reading, with a complaint that says what was found, what was wanted, and where.
-/

namespace Coalesce.Manifest

open Toml (Node Key Value Datetime)

/-- What a setting wants. -/
inductive Wanted where
  | boolean
  | string
  | path
  | sequence
  | count
  | datetime
  /-- A group of settings, by its name. -/
  | group (name : String)
deriving DecidableEq, Repr

/-- A want in words. -/
def Wanted.text : Wanted → String
  | boolean => "a boolean"
  | string => "a string"
  | path => "path string"
  | sequence => "a sequence"
  | count => "u64"
  | datetime => "string containing a datetime"
  | group name => "struct " ++ name

/-- Why a value does not fit. -/
inductive Misfit where
  /-- The value is of another kind, here in words. -/
  | wrongKind (found : String) (wanted : Wanted)
  /-- The value is a number below zero. -/
  | negative (value : Int)
  /-- The value is a string that is no date-time. -/
  | noDatetime
deriving DecidableEq, Repr

/-- A misfit in words. -/
def Misfit.message : Misfit → String
  | wrongKind found wanted => "invalid type: " ++ found ++ ", expected " ++ wanted.text
  | negative value => "invalid value: integer `" ++ toString value ++ "`, expected u64"
  | noDatetime => "failed to parse datetime"

/-- A value that does not fit and the byte at which it starts, once that is known. -/
structure Complaint where
  start? : Option Nat
  misfit : Misfit
deriving DecidableEq, Repr

/-- A value in words: its kind, and the value itself where it is short. -/
def found : Node → String
  | .string _ value => "string " ++ Text.quoted value
  | .integer _ value => "integer `" ++ toString value ++ "`"
  | .float _ value => "floating point `" ++ Decimal.text value ++ "`"
  | .boolean _ value => "boolean `" ++ toString value ++ "`"
  | .array .. | .tables _ => "sequence"
  | .table .. | .datetime .. => "map"

/-- The complaint that a node is of another kind than wanted. -/
def unfit {α : Type} (wanted : Wanted) (node : Node) : Except Complaint α :=
  .error ⟨node.start?, .wrongKind (found node) wanted⟩

/-- A result whose complaint gets a place if it has none yet. -/
def placed {α : Type} (start : Nat) : Except Complaint α → Except Complaint α
  | .ok value => .ok value
  | .error complaint => .error { complaint with start? := complaint.start?.or (some start) }

/-- A truth value. -/
def boolean : Node → Except Complaint Bool
  | .boolean _ value => .ok value
  | node => unfit .boolean node

/-- A text. -/
def text : Node → Except Complaint String
  | .string _ value => .ok value
  | node => unfit .string node

/-- A path. -/
def path : Node → Except Complaint FilePath
  | .string _ value => .ok ⟨value⟩
  | node => unfit .path node

/-- A number that counts something. -/
def count : Node → Except Complaint Nat
  | .integer start value =>
    if value < 0 then .error ⟨some start, .negative value⟩ else .ok value.toNat
  | node => unfit .count node

/-- A list of values of one kind. -/
def listOf {α : Type} (element : Node → Except Complaint α) : Node → Except Complaint (List α)
  | .array _ elements => elements.mapM element
  | .tables elements => elements.mapM element
  | node => unfit .sequence node

/-- The key under which a date-time looks like a table. -/
def datetimeKey : String := "$__toml_private_datetime"

/-- The date-time that a text holds. -/
def datetimeOfText? (text : String) : Option Datetime :=
  match Toml.Reader.datetime ⟨text.toList, 0⟩ with
  | .done value ⟨[], _⟩ => some value
  | _ => none

/-- A value as it was given. A table that begins with the key under which a date-time looks like a
table is one. -/
def value : Node → Except Complaint Value
  | .string _ v => .ok (.string v)
  | .integer _ v => .ok (.integer v)
  | .float _ v => .ok (.float v)
  | .boolean _ v => .ok (.boolean v)
  | .datetime _ v => .ok (.datetime v)
  | .array _ elements => do return .array (← values elements)
  | .tables elements => do return .array (← values elements)
  | .table _ [] => .ok (.table [])
  | .table _ ((key, node) :: entries) =>
    if key.name = datetimeKey then
      match node with
      | .string _ v =>
        match datetimeOfText? v with
        | some d => .ok (.datetime d)
        | none => .error ⟨none, .noDatetime⟩
      | node => .error ⟨none, .wrongKind (found node) .datetime⟩
    else do
      let first ← value node
      return .table ((key.name, first) :: (← valueEntries entries))
where
  /-- The values of the elements of a list. -/
  values : List Node → Except Complaint (List Value)
    | [] => .ok []
    | node :: nodes => do
      let first ← value node
      return first :: (← values nodes)
  /-- The values of the entries of a table. -/
  valueEntries : List (Key × Node) → Except Complaint (List (String × Value))
    | [] => .ok []
    | (key, node) :: entries => do
      let first ← value node
      return (key.name, first) :: (← valueEntries entries)

/-- One setting of a group: its name and how it is taken from a node. -/
structure Field (σ : Type) where
  name : String
  set : Node → σ → Except Complaint σ

variable {σ : Type}

/-- A field that is filled by a reader. -/
def Field.of {α : Type} (name : String) (read : Node → Except Complaint α) (put : α → σ → σ) :
    Field σ :=
  ⟨name, fun node s => do return put (← read node) s⟩

/-- What was read so far: the settings and the keys that no field has. -/
structure Progress (σ : Type) where
  settings : σ
  unknown : List String

/-- Takes one entry of a table. -/
def takeEntry (fields : List (Field σ)) (p : Progress σ) (entry : Key × Node) :
    Except Complaint (Progress σ) :=
  match fields.find? (·.name == entry.1.name) with
  | some field => do
    return { p with settings := ← placed entry.1.start (field.set entry.2 p.settings) }
  | none => .ok { p with unknown := p.unknown ++ [entry.1.name] }

/-- Takes the entries of a table one after another. -/
def takeEntries (fields : List (Field σ)) (settings : σ) (entries : List (Key × Node)) :
    Except Complaint (Progress σ) :=
  entries.foldlM (takeEntry fields) ⟨settings, []⟩

/-- Takes the elements of an array for the fields in their order; surplus ones do not count. -/
def takeElements (fields : List (Field σ)) (settings : σ) (elements : List Node) :
    Except Complaint (Progress σ) := do
  let settings ← (fields.zip elements).foldlM (fun s (field, node) => field.set node s) settings
  return ⟨settings, []⟩

/-- A group of settings that may be written as a table or as an array. -/
def group (name : String) (fields : List (Field σ)) (settings : σ) :
    Node → Except Complaint (Progress σ)
  | .table _ entries => takeEntries fields settings entries
  | .datetime .. => .ok ⟨settings, [datetimeKey]⟩
  | .array _ elements => takeElements fields settings elements
  | .tables elements => takeElements fields settings elements
  | node => unfit (.group name) node

end Coalesce.Manifest
