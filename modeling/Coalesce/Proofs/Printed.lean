import Coalesce.Diagnostic.Basic
import Coalesce.Text.Split

/-!
# Reading diagnostics in print

A diagnostic in print is read from the left. The first word ends in the first space, and it is a
place just if it has a parenthesis in it, since the names of severities have none. A place ends its
file name with the parenthesis and its numbers with a comma and another parenthesis; the code ends
with the first colon behind the severity. What is left are lines: the message and then the notes,
each behind as many spaces as its depth asks for. How many spaces these are is known from the number
of the line, so spaces at the front of a note are its own.

So the reader (`Printed.ofText?`) finds everything again that is in the print, provided that none of
these separators stands where it would be taken for the end (`Diagnostic.IsReadable`).
-/

namespace Coalesce

/-! ## Cutting -/

namespace Text

variable {separator : Char} {front rest : List Char}

/-- What stands in front of the first separator, and what stands behind it. -/
def cut? (separator : Char) : List Char → Option (List Char × List Char)
  | [] => none
  | c :: cs =>
    if c = separator then some ([], cs)
    else (cut? separator cs).map fun (front, rest) ↦ (c :: front, rest)

theorem cut?_append_cons (h : separator ∉ front) :
    cut? separator (front ++ separator :: rest) = some (front, rest) := by
  induction front with
  | nil => exact if_pos rfl
  | cons c front ih =>
    rw [List.mem_cons, not_or] at h
    rw [List.cons_append, cut?, if_neg (Ne.symm h.1), ih h.2]
    rfl

theorem isDigit_of_mem_toString {c : Char} {n : Nat} (h : c ∈ (toString n).toList) :
    c.isDigit = true := by
  rw [Nat.toString_eq_repr, Nat.toList_repr] at h
  exact Nat.isDigit_of_mem_toDigits (by decide) (by decide) h

theorem not_mem_toString {c : Char} (hc : c.isDigit = false) (n : Nat) : c ∉ (toString n).toList :=
  fun h ↦ Bool.false_ne_true (hc.symm.trans (isDigit_of_mem_toString h))

end Text

/-! ## What is in the print -/

/-- The severity with a name. -/
def Severity.ofText? (name : String) : Option Severity :=
  [warning, error, suggestion, message].find? (·.text == name)

theorem Severity.ofText?_text (severity : Severity) : ofText? severity.text = some severity := by
  cases severity <;> rfl

/-- What a diagnostic says in print: of its place the printed name of the file and the position. -/
structure Printed where
  place? : Option (String × Text.Position)
  severity : Severity
  code : String
  message : String
  notes : List String
deriving DecidableEq, Repr

namespace Printed

/-- The number that is printed one greater. -/
def number? (cs : List Char) : Option Nat :=
  if cs.all Char.isDigit then
    match Nat.ofDigitChars 10 cs 0 with
    | 0 => none
    | n + 1 => some n
  else none

/-- The place that a word stands for. -/
def placeOf? (word : List Char) : Option (String × Text.Position) := do
  let (file, rest) ← Text.cut? '(' word
  let (line, rest) ← Text.cut? ',' rest
  let (column, _) ← Text.cut? ')' rest
  return (String.ofList file, ⟨← number? line, ← number? column⟩)

/-- Notes without the indentation of their lines, the first of which is at the given depth. -/
def unindented : (depth : Nat) → List (List Char) → List String
  | _, [] => []
  | depth, line :: lines =>
    String.ofList (line.drop (2 * depth)) :: unindented (depth + 1) lines

/-- Reads what stands behind the place: the name of the severity is given, and the text behind
it. -/
def ofRest? (place? : Option (String × Text.Position)) (severity rest : List Char) :
    Option Printed := do
  let severity ← Severity.ofText? (String.ofList severity)
  let (code, rest) ← Text.cut? ':' rest
  match Text.split '\n' (rest.drop 1) with
  | [] => none
  | message :: lines =>
    return ⟨place?, severity, String.ofList code, String.ofList message, unindented 1 lines⟩

/-- Reads a diagnostic in print. -/
def ofText? (text : String) : Option Printed := do
  let (word, rest) ← Text.cut? ' ' text.toList
  if '(' ∈ word then
    let place ← placeOf? word
    let (severity, rest) ← Text.cut? ' ' rest
    ofRest? (some place) severity rest
  else ofRest? none word rest

end Printed

namespace Diagnostic

variable {d d' : Diagnostic} {root root' : FilePath}

/-- What a diagnostic says in print, seen from a root directory. -/
def printed (d : Diagnostic) (root : FilePath) : Printed where
  place? := d.location?.map fun location ↦ (printedName location.file root, location.position)
  severity := d.severity
  code := d.code
  message := d.message
  notes := d.notes

/-- No separator stands where it would be taken for the end of something else. -/
structure IsReadable (d : Diagnostic) (root : FilePath) : Prop where
  file : ∀ location ∈ d.location?, ' ' ∉ (printedName location.file root).toList ∧
    '(' ∉ (printedName location.file root).toList
  code : ':' ∉ d.code.toList
  message : '\n' ∉ d.message.toList
  notes : ∀ note ∈ d.notes, '\n' ∉ note.toList

instance (d : Diagnostic) (root : FilePath) : Decidable (d.IsReadable root) :=
  decidable_of_iff
    ((∀ location ∈ d.location?, ' ' ∉ (printedName location.file root).toList ∧
      '(' ∉ (printedName location.file root).toList) ∧ ':' ∉ d.code.toList ∧
      '\n' ∉ d.message.toList ∧ ∀ note ∈ d.notes, '\n' ∉ note.toList)
    ⟨fun ⟨hfile, hcode, hmessage, hnotes⟩ ↦ ⟨hfile, hcode, hmessage, hnotes⟩,
      fun ⟨hfile, hcode, hmessage, hnotes⟩ ↦ ⟨hfile, hcode, hmessage, hnotes⟩⟩

/-! ## Notes -/

/-- The lines that notes are printed on, the first one at the given depth. -/
def indented : (depth : Nat) → List String → List (List Char)
  | _, [] => []
  | depth, note :: notes =>
    (List.replicate (2 * depth) ' ' ++ note.toList) :: indented (depth + 1) notes

theorem unindented_indented (depth : Nat) (notes : List String) :
    Printed.unindented depth (indented depth notes) = notes := by
  induction notes generalizing depth with
  | nil => rfl
  | cons note notes ih =>
    rw [indented, Printed.unindented, ih, List.drop_left' List.length_replicate,
      String.ofList_toList]

theorem join_indented (front : List Char) (depth : Nat) (notes : List String) :
    Text.join '\n' (front :: indented depth notes) = front ++ noteLines depth notes := by
  induction notes generalizing front depth with
  | nil => exact (List.append_nil front).symm
  | cons note notes ih =>
    rw [indented, Text.join, ih, noteLines]
    simp only [List.cons_append, List.append_assoc]

theorem not_mem_indented {notes : List String} (h : ∀ note ∈ notes, '\n' ∉ note.toList)
    (depth : Nat) : ∀ line ∈ indented depth notes, '\n' ∉ line := by
  induction notes generalizing depth with
  | nil => exact fun _ hline ↦ absurd hline List.not_mem_nil
  | cons note notes ih =>
    rw [List.forall_mem_cons] at h
    refine List.forall_mem_cons.2 ⟨?_, ih h.2 (depth + 1)⟩
    rw [List.mem_append, List.mem_replicate, not_or]
    exact ⟨fun hspace ↦ absurd hspace.2 (by decide), h.1⟩

/-- The lines of a printed message are found again. -/
theorem split_message {front : List Char} {notes : List String} (hfront : '\n' ∉ front)
    (hnotes : ∀ note ∈ notes, '\n' ∉ note.toList) :
    Text.split '\n' (front ++ noteLines 1 notes) = front :: indented 1 notes := by
  rw [← join_indented]
  exact Text.split_join (List.cons_ne_nil _ _)
    (List.forall_mem_cons.2 ⟨hfront, not_mem_indented hnotes 1⟩)

/-! ## Reading -/

/-- A diagnostic in print, behind its place. -/
theorem toList_render (d : Diagnostic) (root : FilePath) :
    (d.render root).toList = (printedPlace root d.location?).toList ++
      (d.severity.text.toList ++ ' ' :: (d.code.toList ++
        ':' :: ' ' :: (d.message.toList ++ noteLines 1 d.notes))) := by
  simp [render, fullMessage]

theorem ofRest?_printed (h : d.IsReadable root) :
    Printed.ofRest? (d.printed root).place? d.severity.text.toList
      (d.code.toList ++ ':' :: ' ' :: (d.message.toList ++ noteLines 1 d.notes)) =
        some (d.printed root) := by
  rw [Printed.ofRest?, String.ofList_toList, Severity.ofText?_text, Text.cut?_append_cons h.code]
  simp only [Option.bind_eq_bind, Option.bind_some, List.drop_succ_cons, List.drop_zero,
    split_message h.message h.notes, unindented_indented, String.ofList_toList]
  rfl

theorem number?_toString (n : Nat) : Printed.number? (toString (n + 1)).toList = some n := by
  have hdigits : (toString (n + 1)).toList.all Char.isDigit = true :=
    List.all_eq_true.2 fun _ ↦ Text.isDigit_of_mem_toString
  rw [Printed.number?, if_pos hdigits, Nat.toString_eq_repr, Nat.toList_repr,
    Nat.ofDigitChars_ten_toDigits]

/-- The word that a place is printed as. -/
def placeWord (root : FilePath) (location : Location) : List Char :=
  (printedName location.file root).toList ++
    '(' :: ((toString (location.position.line + 1)).toList ++
      ',' :: ((toString (location.position.column + 1)).toList ++ [')', ':']))

theorem placeOf?_placeWord {location : Location}
    (h : '(' ∉ (printedName location.file root).toList) :
    Printed.placeOf? (placeWord root location) =
      some (printedName location.file root, location.position) := by
  have hcomma : ∀ n : Nat, ',' ∉ (toString n).toList := Text.not_mem_toString (by decide)
  have hclosing : ∀ n : Nat, ')' ∉ (toString n).toList := Text.not_mem_toString (by decide)
  rw [Printed.placeOf?, placeWord, Text.cut?_append_cons h]
  simp only [Option.bind_eq_bind, Option.bind_some, Text.cut?_append_cons (hcomma _),
    Text.cut?_append_cons (hclosing _), number?_toString, String.ofList_toList]
  rfl

theorem space_not_mem_placeWord {location : Location}
    (h : ' ' ∉ (printedName location.file root).toList) : ' ' ∉ placeWord root location := by
  have hnumber : ∀ n : Nat, ' ' ∉ (toString n).toList := Text.not_mem_toString (by decide)
  simp only [placeWord, List.mem_append, List.mem_cons, List.not_mem_nil, h, hnumber]
  decide

theorem printedPlace_some (root : FilePath) (location : Location) :
    (printedPlace root (some location)).toList = placeWord root location ++ [' '] := by
  simp [printedPlace, placeWord]

/-- **Reading undoes printing.** -/
theorem ofText?_render (h : d.IsReadable root) :
    Printed.ofText? (d.render root) = some (d.printed root) := by
  have hspace : ' ' ∉ d.severity.text.toList := by cases d.severity <;> decide
  have hopening : '(' ∉ d.severity.text.toList := by cases d.severity <;> decide
  have hrest := ofRest?_printed h
  rw [Printed.ofText?, toList_render]
  cases hlocation : d.location? with
  | none =>
    have hplace : (d.printed root).place? = none := by rw [printed, hlocation]; rfl
    rw [hplace] at hrest
    have hnone : (printedPlace root none).toList = [] := rfl
    rw [hnone, List.nil_append, Text.cut?_append_cons hspace]
    simp only [Option.bind_eq_bind, Option.bind_some, if_neg hopening, hrest]
  | some location =>
    have hplace : (d.printed root).place? =
        some (printedName location.file root, location.position) := by
      rw [printed, hlocation]
      rfl
    rw [hplace] at hrest
    obtain ⟨hfile, hfile'⟩ := h.file location hlocation
    have hword : '(' ∈ placeWord root location := List.mem_append_right _ List.mem_cons_self
    rw [printedPlace_some, List.append_assoc, List.singleton_append,
      Text.cut?_append_cons (space_not_mem_placeWord hfile)]
    simp only [Option.bind_eq_bind, Option.bind_some, if_pos hword, placeOf?_placeWord hfile',
      Text.cut?_append_cons hspace, hrest]

theorem printedPlace_congr (h : (d.printed root).place? = (d'.printed root').place?) :
    printedPlace root d.location? = printedPlace root' d'.location? := by
  rw [printed, printed] at h
  cases hlocation : d.location? with
  | none =>
    rw [hlocation, Option.map_none, eq_comm, Option.map_eq_none_iff] at h
    rw [h]
    rfl
  | some location =>
    rw [hlocation, Option.map_some, eq_comm, Option.map_eq_some_iff] at h
    obtain ⟨location', hlocation', hsame⟩ := h
    obtain ⟨hname, hposition⟩ := Prod.mk.inj hsame
    rw [hlocation', printedPlace, printedPlace, hname, hposition]

theorem render_congr (h : d.printed root = d'.printed root') : d.render root = d'.render root' := by
  have hplace := printedPlace_congr (congrArg Printed.place? h)
  obtain ⟨-, hseverity, hcode, hmessage, hnotes⟩ := Printed.mk.inj h
  rw [render, render, fullMessage, fullMessage, hplace, hseverity, hcode, hmessage, hnotes]

end Diagnostic

/-- **Diagnostics in print are read uniquely.** A diagnostic is found again in its print, so two of
them are printed alike just if they have the same severity, code, message and notes, and both no
place, or both a place with the same printed name, line and column. -/
theorem printed_read_uniquely {d d' : Diagnostic} {root root' : FilePath} (h : d.IsReadable root)
    (h' : d'.IsReadable root') :
    Printed.ofText? (d.render root) = some (d.printed root) ∧
      (d.render root = d'.render root' ↔
        d.severity = d'.severity ∧ d.code = d'.code ∧ d.message = d'.message ∧ d.notes = d'.notes ∧
          d.location?.map (fun l ↦ (Diagnostic.printedName l.file root, l.position)) =
            d'.location?.map (fun l ↦ (Diagnostic.printedName l.file root', l.position))) := by
  have hread := Diagnostic.ofText?_render h
  have hread' := Diagnostic.ofText?_render h'
  refine ⟨hread, fun heq ↦ ?_, fun ⟨hseverity, hcode, hmessage, hnotes, hplace⟩ ↦ ?_⟩
  · have hprinted : d.printed root = d'.printed root' :=
      Option.some_inj.1 (hread.symm.trans ((congrArg Printed.ofText? heq).trans hread'))
    obtain ⟨hplace, hseverity, hcode, hmessage, hnotes⟩ := Printed.mk.inj hprinted
    exact ⟨hseverity, hcode, hmessage, hnotes, hplace⟩
  · exact Diagnostic.render_congr (Printed.mk.injEq .. ▸
      ⟨hplace, hseverity, hcode, hmessage, hnotes⟩)

/-- A diagnostic with notes that begin with spaces or are empty, at some place of a file. -/
def Sample.unused (file : FilePath) : Diagnostic where
  location? := some ⟨file, ⟨2, 6⟩⟩
  severity := .warning
  code := "TS6133"
  message := "'x' is unused."
  notes := ["    Declared here.", "", " (twice)"]

/-- Such a diagnostic is found again, and it is printed alike if the way to the file is spelled
otherwise up to the root. -/
theorem printed_read_uniquely_respelled :
    let root : FilePath := ⟨"/p"⟩
    let d := Sample.unused ⟨"/p/src/a.ts"⟩
    let d' := Sample.unused ⟨"//p/./src/a.ts"⟩
    (d.IsReadable root ∧ d'.IsReadable root ∧ d ≠ d') ∧
      Printed.ofText? (d.render root) = some ⟨some ("src/a.ts", ⟨2, 6⟩), .warning, "TS6133",
        "'x' is unused.", ["    Declared here.", "", " (twice)"]⟩ ∧
      d.render root = d'.render root := by
  intro root d d'
  have h : d.IsReadable root := by decide +kernel
  have h' : d'.IsReadable root := by decide +kernel
  obtain ⟨hread, halike⟩ := printed_read_uniquely h h'
  refine ⟨⟨h, h', by decide⟩, hread.trans ?_, halike.2 ⟨rfl, rfl, rfl, rfl, ?_⟩⟩ <;> decide +kernel

end Coalesce
