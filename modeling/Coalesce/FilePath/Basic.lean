import Coalesce.Text.Split

/-!
# File paths

A path is kept as the text it was written with and is understood through its *components*: the
leading `/`, a leading `.`, each `..`, and each name. Doubled and trailing slashes and inner `.`
segments leave no component, so two spellings can stand for one component list, and no `..` is
ever resolved. Paths are the same when their components are; what is printed is the text.

The text splits at its slashes into *segments*. `FilePath.layout` separates what the first segment
says (does the path start at the root, at `.`, or nowhere in particular?) from the segments of the
body, in which an empty segment and `.` mean nothing. Every other operation works on that layout,
so that the text of a result is made of segments of its arguments and of nothing else.
-/

namespace Coalesce

/-- One step that a path takes. -/
inductive Component where
  | root
  | current
  | parent
  | named (name : String)
deriving DecidableEq, Repr

/-- A path: the text that it was written with. -/
structure FilePath where
  text : String
deriving DecidableEq, Repr, Inhabited

/-- The characters between two slashes. -/
abbrev Segment := List Char

namespace Segment

/-- The segments of a text: what stands between its slashes, empty pieces included. -/
def split (cs : List Char) : List Segment := Text.split '/' cs

/-- Segments put together again with slashes between them. -/
def join (body : List Segment) : List Char := Text.join '/' body

/-- A segment that says nothing inside a path: the empty one and `.`. -/
def isIdle (s : Segment) : Bool := s == [] || s == ['.']

/-- The component that a segment of a body stands for. -/
def component? (s : Segment) : Option Component :=
  if s.isIdle then none
  else if s = ['.', '.'] then some .parent
  else some (.named (String.ofList s))

/-- The segments without the idle ones at the front. -/
def trimStart (body : List Segment) : List Segment := body.dropWhile isIdle

/-- The segments without the idle ones at the back. -/
def trimEnd (body : List Segment) : List Segment := (body.reverse.dropWhile isIdle).reverse

/-- What is left of a body behind its first `n` components. -/
def dropSteps : (n : Nat) → List Segment → List Segment
  | 0, body => body
  | _ + 1, [] => []
  | n + 1, s :: body => if s.isIdle then dropSteps (n + 1) body else dropSteps n body

end Segment

/-- Where a path starts. -/
inductive Anchor where
  /-- At the root: the text starts with a slash. -/
  | absolute
  /-- At the current directory, said by a leading `.`. -/
  | here
  /-- Wherever the reader of the path stands. -/
  | free
deriving DecidableEq, Repr

namespace Anchor

/-- The component that an anchor contributes. -/
def components : Anchor → List Component
  | absolute => [.root]
  | here => [.current]
  | free => []

/-- The text of a path with this anchor and the given body. -/
def render : Anchor → List Segment → List Char
  | absolute, body => '/' :: Segment.join body
  | here, [] => ['.']
  | here, s :: body => '.' :: '/' :: Segment.join (s :: body)
  | free, body => Segment.join body

end Anchor

/-- The anchor of a path and the segments behind it. -/
structure Layout where
  anchor : Anchor
  body : List Segment
deriving DecidableEq, Repr

namespace Layout

/-- The layout of a text. -/
def ofText (cs : List Char) : Layout :=
  match Segment.split cs with
  | [] :: s :: body => ⟨.absolute, s :: body⟩
  | ['.'] :: body => ⟨.here, body⟩
  | body => ⟨.free, body⟩

/-- The components of a layout. -/
def components (l : Layout) : List Component :=
  l.anchor.components ++ l.body.filterMap Segment.component?

/-- The path that is written as this layout says. -/
def path (l : Layout) : FilePath := ⟨String.ofList (l.anchor.render l.body)⟩

end Layout

namespace FilePath

/-- The layout of a path. -/
def layout (p : FilePath) : Layout := Layout.ofText p.text.toList

/-- The steps that a path takes; all comparisons of paths look at nothing else. -/
def components (p : FilePath) : List Component := p.layout.components

/-- The same path, possibly spelled differently. -/
def same (p q : FilePath) : Bool := p.components == q.components

/-- A path that starts at the root. -/
def isAbsolute (p : FilePath) : Bool := p.text.toList.head? == some '/'

/-- The empty path. -/
def empty : FilePath := ⟨""⟩

/-- A path read from a directory: an absolute path stays as it is, any other is written behind the
directory, with a slash between them unless the directory is empty or ends in one. -/
def join (dir rel : FilePath) : FilePath :=
  if rel.isAbsolute then rel
  else if dir.text.toList.getLast?.all (· == '/') then ⟨dir.text ++ rel.text⟩
  else ⟨dir.text ++ "/" ++ rel.text⟩

/-- A path with a suffix written behind its text. -/
def withSuffix (p : FilePath) (suffix : String) : FilePath := ⟨p.text ++ suffix⟩

/-- The directory that holds what the path names: the text before the last component. The root and
the empty path have none. -/
def parent? (p : FilePath) : Option FilePath :=
  match p.layout, Segment.trimEnd p.layout.body with
  | ⟨.here, _⟩, [] => some empty
  | _, [] => none
  | ⟨anchor, _⟩, body => some (Layout.path ⟨anchor, Segment.trimEnd body.dropLast⟩)

/-- The rest of a path below a directory, written as it is in the path but without slashes and `.`
at either end. There is none unless the directory's components start the path's. Below the empty
directory the path keeps what stands at its front. -/
def relativeTo? (p dir : FilePath) : Option FilePath :=
  if dir.components.isPrefixOf p.components then
    if dir.components = [] then
      some (Layout.path ⟨p.layout.anchor, Segment.trimEnd p.layout.body⟩)
    else
      let steps := dir.components.length - p.layout.anchor.components.length
      some (Layout.path
        ⟨.free, Segment.trimEnd (Segment.trimStart (Segment.dropSteps steps p.layout.body))⟩)
  else none

/-! ## Sameness -/

theorem same_iff {p q : FilePath} : p.same q = true ↔ p.components = q.components := by
  simp [same]

@[simp] theorem same_self (p : FilePath) : p.same p = true := same_iff.2 rfl

theorem same_comm (p q : FilePath) : p.same q = q.same p := by
  rw [Bool.eq_iff_iff, same_iff, same_iff, eq_comm]

theorem same_congr {p q : FilePath} (h : p.same q = true) (r : FilePath) : p.same r = q.same r := by
  simp [same, same_iff.1 h]

end FilePath

/-! ## Paths read from a directory -/

namespace Layout

theorem anchor_ofText (cs : List Char) {first : Segment} {rest : List Segment}
    (h : Segment.split cs = first :: rest) :
    (ofText cs).anchor =
      if first = [] ∧ rest ≠ [] then .absolute else if first = ['.'] then .here else .free := by
  rw [ofText, h]
  split
  next s body heq => simp_all
  next body heq => simp_all
  next hroot hhere =>
    have hfirst : ¬(first = [] ∧ rest ≠ []) := by
      rintro ⟨rfl, hrest⟩
      obtain ⟨s, body, rfl⟩ := List.exists_cons_of_ne_nil hrest
      exact hroot s body rfl
    have hdot : first ≠ ['.'] := by
      rintro rfl
      exact hhere rest rfl
    rw [if_neg hfirst, if_neg hdot]

theorem components_ofText (cs : List Char) :
    (ofText cs).components =
      (ofText cs).anchor.components ++ (Segment.split cs).filterMap Segment.component? := by
  rw [components]
  congr 1
  rw [ofText]
  split
  next s body h => rw [h]; rfl
  next body h => rw [h]; rfl
  next => rfl

/-- Texts that begin with the same segment differ in their components only as their other segments
do, provided that an empty first segment stands before a slash in both. -/
theorem components_ofText_append {cs ds : List Char} {first : Segment} {rest rest' : List Segment}
    {more : List Component} (h : Segment.split cs = first :: rest)
    (h' : Segment.split ds = first :: rest') (hslash : first = [] → rest ≠ [] ∧ rest' ≠ [])
    (hmore : rest'.filterMap Segment.component? = rest.filterMap Segment.component? ++ more) :
    (ofText ds).components = (ofText cs).components ++ more := by
  have hanchor : (ofText ds).anchor = (ofText cs).anchor := by
    rw [anchor_ofText _ h, anchor_ofText _ h']
    by_cases hfirst : first = []
    · rw [if_pos ⟨hfirst, (hslash hfirst).2⟩, if_pos ⟨hfirst, (hslash hfirst).1⟩]
    · have hroot : ∀ segments : List Segment, ¬(first = [] ∧ segments ≠ []) := fun _ hroot =>
        hfirst hroot.1
      rw [if_neg (hroot rest), if_neg (hroot rest')]
  have hfirst : ∀ segments : List Segment, (first :: segments).filterMap Segment.component? =
      [first].filterMap Segment.component? ++ segments.filterMap Segment.component? := fun _ =>
    List.filterMap_append (l := [first])
  rw [components_ofText, components_ofText, h, h', hanchor, hfirst, hfirst rest, hmore,
    List.append_assoc, List.append_assoc]

end Layout

namespace FilePath

/-- A relative path read from a directory takes the steps of the directory and then its own, where a
leading `.` of its own means nothing any more. -/
theorem components_join {dir rel : FilePath} (hdir : dir.text ≠ "")
    (hrel : rel.isAbsolute = false) :
    (dir.join rel).components =
      dir.components ++ (Segment.split rel.text.toList).filterMap Segment.component? := by
  have hchars : dir.text.toList ≠ [] := by simpa using hdir
  have hown : Segment.split rel.text.toList ≠ [] := Text.split_ne_nil _ _
  rw [join, if_neg (by simp [hrel])]
  split
  next hlast =>
    -- The directory ends in a slash, so its last segment is empty and gives way to the path's own.
    have hslash : dir.text.toList = dir.text.toList.dropLast ++ ['/'] := by
      rw [List.getLast?_eq_some_getLast hchars, Option.all_some, beq_iff_eq] at hlast
      rw [← hlast, List.dropLast_concat_getLast]
    obtain ⟨first, rest, hfirst⟩ :=
      List.exists_cons_of_ne_nil (Text.split_ne_nil '/' dir.text.toList.dropLast)
    have hdirectory : Segment.split dir.text.toList = first :: (rest ++ [[]]) := by
      rw [hslash, Segment.split, Text.split_append_cons, hfirst]
      rfl
    have hjoined : Segment.split (dir.text ++ rel.text).toList =
        first :: (rest ++ Segment.split rel.text.toList) := by
      rw [String.toList_append, hslash, Segment.split, List.append_assoc, List.singleton_append,
        Text.split_append_cons, hfirst]
      rfl
    refine Layout.components_ofText_append hdirectory hjoined ?_ ?_
    · exact fun _ => ⟨by simp, by simp [hown]⟩
    · simp [Segment.component?, Segment.isIdle]
  next =>
    obtain ⟨first, rest, hfirst⟩ :=
      List.exists_cons_of_ne_nil (Text.split_ne_nil '/' dir.text.toList)
    have hjoined : Segment.split (dir.text ++ "/" ++ rel.text).toList =
        first :: (rest ++ Segment.split rel.text.toList) := by
      have htext : (dir.text ++ "/" ++ rel.text).toList =
          dir.text.toList ++ '/' :: rel.text.toList := by simp
      rw [htext, Segment.split, Text.split_append_cons, hfirst]
      rfl
    refine Layout.components_ofText_append hfirst hjoined ?_ List.filterMap_append
    rintro rfl
    refine ⟨?_, by simp [hown]⟩
    rintro rfl
    have hempty := Text.join_split '/' dir.text.toList
    rw [hfirst] at hempty
    exact hchars hempty.symm

end FilePath

end Coalesce
