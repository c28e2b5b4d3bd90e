import Coalesce.Diagnostic.Basic
import Coalesce.FilePath.Relative
import Coalesce.FilePath.Steps

/-!
# File names in print

A diagnostic names its file by what is left of the path below the root, in the path's own spelling,
and where the file is not below the root it names the path as it is. Whether a file is below a root
is a question about components, and so is whether a name leads back. The bridge is
`FilePath.join_relativeTo?`: what is left below a directory starts with a step, so that it is read
from there, and its steps are those that the directory lacks.

A name is printed as a text, though, and paths need not be texts. A name that is none is printed
with replacements, which are no part of it. It does not lead back then, since the steps of the path
in print are texts and those of the name are not all (`RawPath.isText_of_steps`).
-/

namespace Coalesce

namespace FilePath

variable {p dir rel : FilePath}

theorem relativeTo?_eq_none_iff : p.relativeTo? dir = none ↔ ¬dir.components <+: p.components := by
  rw [← List.isPrefixOf_iff_prefix, relativeTo?]
  split
  next h => split <;> simp [h]
  next h => simp [h]

theorem prefix_of_relativeTo? (h : p.relativeTo? dir = some rel) :
    dir.components <+: p.components := by
  by_contra hnot
  rw [relativeTo?_eq_none_iff.2 hnot] at h
  cases h

theorem join_relativeTo? (hdir : dir.text ≠ "") (h : p.relativeTo? dir = some rel) :
    rel.isAbsolute = false ∧ (dir.join rel).components = p.components := by
  obtain ⟨rest, hrest⟩ := prefix_of_relativeTo? h
  obtain ⟨rel', hrel', rfl⟩ := components_relativeTo? hrest.symm
  obtain rfl : rel' = rel := Option.some_inj.1 (hrel'.symm.trans h)
  have hsteps := isStep_of_components_eq (mt components_eq_nil_iff.1 hdir) hrest.symm
  exact ⟨(way_of_isStep hsteps).1, (components_join_of_isStep hdir hsteps).trans hrest⟩

theorem components_relativeTo?_empty (h : p.relativeTo? empty = some rel) :
    rel.components = p.components := by
  have hparts : p.components = empty.components ++ p.components := rfl
  obtain ⟨rel', hrel', hcomponents⟩ := components_relativeTo? hparts
  obtain rfl : rel' = rel := Option.some_inj.1 (hrel'.symm.trans h)
  exact hcomponents

theorem empty_join (p : FilePath) : empty.join p = p := by
  rw [join]
  split
  next => rfl
  next =>
    have htext : empty.text ++ p.text = p.text := String.empty_append
    rw [if_pos (by rfl), htext]

/-- The name of a path leads to the path from where it is seen. -/
theorem join_name (root : FilePath) {file : FilePath} (hfile : file.isAbsolute = true) :
    let name := (file.relativeTo? root).getD file
    let isBelow := root.components <+: file.components
    (root.join name).same file = true ∧
      (root.isAbsolute = true →
        (name.isAbsolute = false ↔ isBelow) ∧ (¬isBelow → name = file)) := by
  intro name isBelow
  have hname : name = (file.relativeTo? root).getD file := rfl
  cases hrel : file.relativeTo? root with
  | none =>
    have hnot : ¬isBelow := relativeTo?_eq_none_iff.1 hrel
    rw [hrel, Option.getD_none] at hname
    rw [hname, join_of_isAbsolute hfile, hfile]
    exact ⟨same_self _, fun _ ↦ ⟨iff_of_false Bool.true_eq_false.mp hnot, fun _ ↦ rfl⟩⟩
  | some rel =>
    have hbelow : isBelow := prefix_of_relativeTo? hrel
    rw [hrel, Option.getD_some] at hname
    rw [hname, same_iff]
    by_cases hroot : root.text = ""
    · obtain rfl : root = .empty := congrArg FilePath.mk hroot
      rw [empty_join]
      exact ⟨components_relativeTo?_empty hrel, fun habsolute ↦ by cases habsolute⟩
    · obtain ⟨hrelative, hjoin⟩ := join_relativeTo? hroot hrel
      exact ⟨hjoin, fun _ ↦ ⟨iff_of_true hrelative hbelow, fun hnot ↦ absurd hbelow hnot⟩⟩

end FilePath

/-! ## Raw paths -/

namespace RawPath

variable {p q dir rel root file : RawPath}

theorem spelled_injective (h : p.spelled = q.spelled) : p = q := by
  have htext : Text.spell p.bytes = Text.spell q.bytes :=
    String.ofList_injective (congrArg FilePath.text h)
  have hbytes := congrArg Text.unspell htext
  rw [Text.unspell_spell, Text.unspell_spell] at hbytes
  exact congrArg RawPath.mk hbytes

theorem lt_of_mem_spelled {c : Char} (h : c ∈ p.spelled.text.toList) : c.toNat < 256 := by
  rw [spelled, String.toList_ofList] at h
  exact Text.lt_of_mem_spell h

theorem spelled_ofSpelled {p : FilePath} (h : ∀ c ∈ p.text.toList, c.toNat < 256) :
    (ofSpelled p).spelled = p := by
  rw [spelled, ofSpelled, Text.spell_unspell h, String.ofList_toList]

theorem spelled_join (dir rel : RawPath) :
    (dir.join rel).spelled = dir.spelled.join rel.spelled := by
  refine spelled_ofSpelled fun c hc ↦ ?_
  cases hrel : rel.spelled.isAbsolute with
  | true =>
    rw [FilePath.join_of_isAbsolute hrel] at hc
    exact lt_of_mem_spelled hc
  | false =>
    have hmem : c ∈ dir.spelled.text.toList ∨ c = '/' ∨ c ∈ rel.spelled.text.toList := by
      rcases FilePath.text_join hrel dir.spelled with htext | htext
      · rw [htext, String.toList_append, List.mem_append] at hc
        exact hc.imp_right Or.inr
      · rw [htext, String.toList_append, String.toList_append, List.append_assoc, List.mem_append]
          at hc
        exact hc.imp_right List.mem_cons.1
    rcases hmem with hmem | rfl | hmem
    · exact lt_of_mem_spelled hmem
    · decide
    · exact lt_of_mem_spelled hmem

theorem spelled_nameFrom (p dir : RawPath) :
    (p.nameFrom dir).spelled = (p.spelled.relativeTo? dir.spelled).getD p.spelled := by
  rw [nameFrom, relativeTo?]
  cases hrel : p.spelled.relativeTo? dir.spelled with
  | none => rfl
  | some rel =>
    refine spelled_ofSpelled fun c hc ↦ ?_
    rcases FilePath.mem_relativeTo? hrel hc with rfl | rfl | hmem
    · decide
    · decide
    · exact lt_of_mem_spelled hmem

theorem isAbsolute_iff : p.isAbsolute = true ↔ p.bytes.head? = some (UInt8.ofNat '/'.toNat) := by
  rw [isAbsolute, FilePath.isAbsolute, spelled, String.toList_ofList, Text.spell, beq_iff_eq,
    List.head?_map]
  cases p.bytes.head? with
  | none => simp
  | some b =>
    rw [Option.map_some, Option.some_inj, Option.some_inj, ← UInt8.toNat_inj, ← Char.toNat_inj,
      Text.toNat_ofNat_byte]
    exact Iff.rfl

/-! ### Names in print -/

theorem bytes_raw (p : FilePath) : p.raw.bytes = Text.encode p.text.toList :=
  (Text.encode_toList p.text).symm

theorem text_raw (p : FilePath) : p.raw.text = p.text := by
  rw [text, bytes_raw, Text.decode_encode, String.ofList_toList]

/-- A path in print. -/
def printed (p : RawPath) : RawPath := FilePath.raw ⟨p.text⟩

theorem bytes_printed (p : RawPath) : p.printed.bytes = Text.encode (Text.decode p.bytes) := by
  rw [printed, bytes_raw, text, String.toList_ofList]

theorem printed_of_isText (h : p.IsText) : p.printed = p := by
  obtain ⟨q, rfl⟩ := h
  rw [printed, text_raw]

theorem isText_iff : p.IsText ↔ ∃ cs, Text.encode cs = p.bytes := by
  constructor
  · rintro ⟨q, rfl⟩
    exact ⟨_, (bytes_raw q).symm⟩
  · rintro ⟨cs, hcs⟩
    refine ⟨⟨String.ofList cs⟩, congrArg RawPath.mk ?_⟩
    rw [← hcs]
    exact (bytes_raw _).trans (by rw [String.toList_ofList])

theorem isAbsolute_printed (p : RawPath) : p.printed.isAbsolute = p.isAbsolute := by
  have hslash : Char.toNat '/' < 128 := by decide
  rw [Bool.eq_iff_iff, isAbsolute_iff, isAbsolute_iff, ← Text.head?_decode_eq_some_iff hslash,
    ← Text.head?_decode_eq_some_iff hslash, bytes_printed, Text.decode_encode]

theorem steps_spelled (p : RawPath) : p.spelled.steps =
    (Text.split '/' (Text.spell p.bytes)).filter fun s ↦ !Segment.isIdle s := by
  rw [FilePath.steps, spelled, String.toList_ofList]
  rfl

/-- A path is a text if all its steps are steps of a text. -/
theorem isText_of_steps (hq : q.IsText) (h : p.spelled.steps = q.spelled.steps) : p.IsText := by
  have hslash : Char.toNat '/' < 128 := by decide
  rw [isText_iff, Text.exists_encode_iff hslash] at hq ⊢
  intro piece hpiece
  by_cases hidle : Segment.isIdle piece = true
  · rw [Segment.isIdle, Bool.or_eq_true, beq_iff_eq, beq_iff_eq] at hidle
    rcases hidle with rfl | rfl
    · exact ⟨[], rfl⟩
    · exact ⟨['.'], by decide⟩
  · have hmem : piece ∈ p.spelled.steps := by
      rw [steps_spelled, List.mem_filter]
      exact ⟨hpiece, by simpa using hidle⟩
    rw [h, steps_spelled, List.mem_filter] at hmem
    exact hq piece hmem.1

/-- A name in print leads on to the same place just if it is a text. -/
theorem same_join_printed_iff (root name : RawPath) :
    (root.join name.printed).same (root.join name) = true ↔ name.IsText := by
  constructor
  · intro h
    refine isText_of_steps (q := name.printed) ⟨_, rfl⟩ ?_
    have hsteps : (root.spelled.join name.printed.spelled).steps =
        (root.spelled.join name.spelled).steps := by
      rw [same, spelled_join, spelled_join, FilePath.same_iff] at h
      rw [FilePath.steps_eq, FilePath.steps_eq, h]
    have habsolute : name.printed.spelled.isAbsolute = name.spelled.isAbsolute :=
      name.isAbsolute_printed
    rw [FilePath.steps_join, FilePath.steps_join, habsolute] at hsteps
    exact (List.append_cancel_left hsteps).symm
  · intro h
    rw [printed_of_isText h]
    exact FilePath.same_self _

end RawPath

/-- **Printed file names resolve** where they are texts. The name that a file is printed with leads
from the root to the file, whatever the root is and however the two are spelled, just if the name is
a text; then it is the name itself that is printed. Seen from an absolute root the printed name is
relative just if the root's components begin the file's, and else it is the file as it was written,
as far as that is a text. This is the name that a diagnostic about the file is printed with. -/
theorem printed_names_resolve (root : RawPath) {file : RawPath} (hfile : file.isAbsolute = true) :
    let name := file.nameFrom root
    let printed : RawPath := FilePath.raw ⟨name.text⟩
    let isBelow := root.components <+: file.components
    ((root.join printed).same file = true ↔ name.IsText) ∧
      (name.IsText → printed = name) ∧
      (root.isAbsolute = true →
        (printed.isAbsolute = false ↔ isBelow) ∧ (¬isBelow → name = file)) ∧
      ∀ (d : Diagnostic) (place : Location) (seenFrom : FilePath), d.location? = some place →
        place.file.raw = file → seenFrom.raw = root →
          d.render seenFrom = name.text ++ "(" ++ toString (place.position.line + 1) ++ "," ++
            toString (place.position.column + 1) ++ "): " ++ d.severity.text ++ " " ++ d.code ++
            ": " ++ d.fullMessage := by
  intro name printed isBelow
  obtain ⟨hjoin, hroot⟩ := FilePath.join_name root.spelled hfile
  rw [← RawPath.spelled_nameFrom, ← RawPath.spelled_join] at hjoin
  rw [← RawPath.spelled_nameFrom] at hroot
  refine ⟨?_, RawPath.printed_of_isText, fun habsolute ↦ ?_, ?_⟩
  · rw [← RawPath.same_join_printed_iff root name, RawPath.same, RawPath.same,
      FilePath.same_comm, FilePath.same_comm (root.join name.printed).spelled,
      FilePath.same_congr hjoin]
    rfl
  · obtain ⟨hrelative, hfar⟩ := hroot habsolute
    refine ⟨?_, fun hnot ↦ RawPath.spelled_injective (hfar hnot)⟩
    rw [show printed.isAbsolute = name.isAbsolute from name.isAbsolute_printed]
    exact hrelative
  · rintro d place seenFrom hplace rfl rfl
    rw [Diagnostic.render, hplace]
    rfl

/-- An error at some place of a file. -/
def Sample.unknownName (file : FilePath) : Diagnostic :=
  { Diagnostic.error "TS2304" "Cannot find name 'foo'." with location? := some ⟨file, ⟨2, 6⟩⟩ }

/-- The root and the file are spelled differently, and the name keeps the spelling of the file. -/
theorem printed_names_resolve_respelled :
    let root : FilePath := ⟨"/p/./"⟩
    let file : FilePath := ⟨"//p/src//./é.ts/."⟩
    (Sample.unknownName file).render root =
        "src//./é.ts(3,7): error TS2304: Cannot find name 'foo'." ∧
      (root.raw.join (FilePath.raw ⟨"src//./é.ts"⟩)).same file.raw = true ∧
      root.raw.components <+: file.raw.components := by
  intro root file
  have hname : (file.raw.nameFrom root.raw).text = "src//./é.ts" := by decide +kernel
  have htext : (file.raw.nameFrom root.raw).IsText := ⟨⟨"src//./é.ts"⟩, by decide +kernel⟩
  have hfile : file.raw.isAbsolute = true := by decide +kernel
  obtain ⟨hjoin, -, hrelative, hrender⟩ := printed_names_resolve root.raw hfile
  rw [hname] at hjoin hrelative hrender
  exact ⟨(hrender (Sample.unknownName file) _ root rfl rfl rfl).trans (by decide +kernel),
    hjoin.2 htext, (hrelative (by decide +kernel)).1.1 (by decide +kernel)⟩

/-- A file whose name begins with a byte of no character is printed with a replacement for it, and
the printed name leads elsewhere. -/
theorem printed_name_of_no_text_lost :
    let root : RawPath := FilePath.raw ⟨"/p"⟩
    let file : RawPath := ⟨"/p/".toUTF8.data.toList ++ 0xff :: ".ts".toUTF8.data.toList⟩
    file.isAbsolute = true ∧ (file.nameFrom root).text = "\ufffd.ts" ∧
      (root.join (FilePath.raw ⟨(file.nameFrom root).text⟩)).same file = false := by
  decide +kernel

/-- The root itself has an empty name, and a sibling is not below it. -/
example : Diagnostic.printedName ⟨"/p/"⟩ ⟨"/p"⟩ = "" ∧
    Diagnostic.printedName ⟨"/pa//x"⟩ ⟨"/p"⟩ = "/pa//x" := by decide +kernel

end Coalesce
