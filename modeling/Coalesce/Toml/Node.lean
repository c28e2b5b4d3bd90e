import Coalesce.Decimal.Binary64
import Coalesce.Toml.Datetime

/-!
# Documents and values

A document is read into *nodes*, which remember where they start so that a complaint about one can
point at it. A *value* is a node without places; it is what a reader of settings keeps.

A table may come about in five ways, and what may still be added to it depends on the way: by being
the whole document, by a header of its own, by lying on the way to a table with a header, by dotted
keys, or as an inline table, which is closed; inside an inline table dotted keys make tables too.
Entries of a table stay in the order in which they came.
-/

namespace Coalesce.Toml

/-- One segment of a key: its name and the byte at which it starts. -/
structure Key where
  name : String
  start : Nat
deriving DecidableEq, Repr

/-- How a table came about. -/
inductive TableForm where
  /-- The table that is the document. -/
  | document
  /-- A table with a header of its own, which starts at the given byte. -/
  | header (start : Nat)
  /-- A table on the way to a table with a header. -/
  | passage
  /-- A table made by dotted keys. -/
  | dotted
  /-- A table in braces, which starts at the given byte. -/
  | inline (start : Nat)
  /-- A table made by dotted keys between braces. -/
  | inlineDotted
deriving DecidableEq, Repr

/-- A part of a document and the byte at which it starts. -/
inductive Node where
  | string (start : Nat) (value : String)
  | integer (start : Nat) (value : Int)
  | float (start : Nat) (value : Binary64)
  | boolean (start : Nat) (value : Bool)
  | datetime (start : Nat) (value : Datetime)
  | array (start : Nat) (elements : List Node)
  | table (form : TableForm) (entries : List (Key × Node))
  /-- The tables that share one header in double brackets. -/
  | tables (elements : List Node)
deriving Repr

/-- A table: how it came about and what it holds. -/
structure Table where
  form : TableForm
  entries : List (Key × Node)
deriving Repr

/-- The node of a table. -/
def Table.node (t : Table) : Node := .table t.form t.entries

/-- The byte at which a table starts, if it has a place of its own. -/
def TableForm.start? : TableForm → Option Nat
  | document => some 0
  | header start => some start
  | inline start => some start
  | passage | dotted | inlineDotted => none

namespace Node

/-- The byte at which a node starts. A list of tables starts with its first table. -/
def start? : Node → Option Nat
  | string start _ | integer start _ | float start _ | boolean start _ | datetime start _
  | array start _ => some start
  | table form _ => form.start?
  | tables (table form _ :: _) => form.start?
  | tables _ => none

/-- The kind of a node in words. -/
def kind : Node → String
  | string .. => "string"
  | integer .. => "integer"
  | float .. => "float"
  | boolean .. => "boolean"
  | datetime .. => "datetime"
  | array .. => "array"
  | table (.inline _) _ => "inline table"
  | table .inlineDotted _ => "inline table"
  | table .. => "table"
  | tables _ => "array of tables"

end Node

/-- A value without places. -/
inductive Value where
  | string (value : String)
  | integer (value : Int)
  | float (value : Binary64)
  | boolean (value : Bool)
  | datetime (value : Datetime)
  | array (elements : List Value)
  | table (entries : List (String × Value))
deriving Repr

end Coalesce.Toml
