import Coalesce.Proofs.Readings
import Coalesce.Proofs.Writes

/-!
# What a workbench writes

A workbench makes the output of one source unit after another and writes each to a file that is
named for the unit, so what it writes is known from the outputs (`Workbench.made`,
`Program.placed`). They are made in turn, each behind everything that was read for the ones before,
since an output may have notes on other sources with the numbers of their readings; if the backend
breaks down over one then that is all. What these notes say is what an overlay shows of the sources
(`Overlay.seen`, `OutputStyle.Says`).

Units with one stem are written to one file, and no others are: stems have no slashes, so that files
of different names in one directory are different, and the name of an output is never that of a
source map. Hence at the place of a unit that has its stem to itself the output of this unit is
found (`Program.last?_placed`).
-/

namespace Coalesce

/-! ## Outputs -/

namespace Workbench

/-- The ways to make an output: the text alone, or with notes on the sources that it names. -/
inductive OutputStyle where
  | plain
  | annotated

/-- An output with a note on each of some readings. -/
def annotate (output : String) (readings : List (Option SourceText)) : String :=
  readings.foldl (fun output unit? ↦ output ++ referenceNote unit?) output

namespace OutputStyle

/-- The sources that an output has notes on. -/
def references : OutputStyle → SourceText → List FilePath
  | plain, _ => []
  | annotated, unit => Workbench.references unit

/-- How an output is made: as in the sample project, or as in other projects in memory. -/
def output : OutputStyle → OutputRule
  | plain => namedOutput
  | annotated => annotatedOutput

theorem eq_withNotes_of_output {style : OutputStyle} {unit : SourceText}
    {output : Dialogue SourceText String} (h : style.output unit = some output) :
    output = withNotes (plainOutput unit) (style.references unit) := by
  cases style with
  | plain =>
    obtain ⟨stem, -, rfl⟩ := Option.map_eq_some_iff.1 h
    rfl
  | annotated => exact (Option.some_inj.1 h).symm

/-- A text that is an output of a unit when the other sources are as `text?` says. -/
def Says (style : OutputStyle) (text? : FilePath → Option String) (unit : SourceText)
    (text : String) : Prop :=
  ∃ readings, readings.map (Option.map SourceText.text) = (style.references unit).map text? ∧
    text = annotate (plainOutput unit) readings

end OutputStyle

end Workbench

/-- What the sources say through an overlay. -/
def Overlay.seen (o : Overlay SourceText) (text? : FilePath → Option String)
    (path : FilePath) : Option String :=
  match o.served? path with
  | some unit => some unit.text
  | none => text? path

namespace Workbench

variable {D : Type} (text? : D → FilePath → Option String) (o : Overlay SourceText)

theorem text_read (path : FilePath) (c : Capture (Workbench D)) :
    ((o.host (host text?)).read path c).1.map SourceText.text =
      o.seen (text? c.world.store) path := by
  rw [Overlay.seen]
  cases hserved : o.served? path with
  | some unit =>
    rw [Overlay.read_of_served hserved]
    rfl
  | none =>
    rw [Overlay.read_of_not_served hserved]
    cases htext : text? c.world.store path with
    | some text => rw [read_of_text htext, Option.map_some]
    | none => rw [read_of_no_text htext, Option.map_none]

theorem run_withNotes (output : String) (paths : List FilePath) (c : Capture (Workbench D)) :
    ∃ readings, readings.map (Option.map SourceText.text) =
        paths.map (o.seen (text? c.world.store)) ∧
      ((withNotes output paths).run (o.host (host text?)) c).1 = annotate output readings := by
  induction paths generalizing output c with
  | nil => exact ⟨[], rfl, rfl⟩
  | cons path paths ih =>
    obtain ⟨readings, hreadings, hrun⟩ := ih
      (output ++ referenceNote ((o.host (host text?)).read path c).1)
      ((o.host (host text?)).read path c).2
    refine ⟨((o.host (host text?)).read path c).1 :: readings, ?_, ?_⟩
    · rw [(kept_read text? o path c).store] at hreadings
      rw [List.map_cons, List.map_cons, hreadings, text_read]
    · rw [withNotes, Dialogue.run_bind, Dialogue.run_ask, hrun]
      rfl

/-- **What an output says**: the text of the unit, and what the overlay shows of the sources that it
has notes on. -/
theorem says_output {style : OutputStyle} {unit : SourceText} {output : Dialogue SourceText String}
    (h : style.output unit = some output) (c : Capture (Workbench D)) :
    style.Says (o.seen (text? c.world.store)) unit (output.run (o.host (host text?)) c).1 := by
  rw [OutputStyle.eq_withNotes_of_output h]
  exact run_withNotes text? o (plainOutput unit) (style.references unit) c

end Workbench

/-! ## Where outputs go -/

namespace SourceText

/-- The name that the files of a unit have in common. -/
def stem (unit : SourceText) : String := unit.path.stem?.getD ""

theorem slash_not_mem_stem (unit : SourceText) : '/' ∉ unit.stem.toList := by
  rw [stem]
  cases hstem : unit.path.stem? with
  | none => simp
  | some stem => exact FilePath.slash_not_mem_stem hstem

theorem isFileName_output (unit : SourceText) : FilePath.IsFileName (unit.stem ++ ".js") :=
  FilePath.isFileName_append unit.slash_not_mem_stem (by decide) (by decide)

theorem isFileName_map (unit : SourceText) : FilePath.IsFileName (unit.stem ++ ".js" ++ ".map") :=
  FilePath.isFileName_append unit.isFileName_output.slash_not_mem (by decide) (by decide)

end SourceText

namespace Program

/-- The file for the output of a unit. -/
def outputPath (program : Program) (unit : SourceText) : FilePath :=
  program.outDir.join ⟨unit.stem ++ ".js"⟩

/-- The file for the source map of a unit. -/
def mapPath (program : Program) (unit : SourceText) : FilePath :=
  program.outDir.join ⟨unit.stem ++ ".js" ++ ".map"⟩

/-- The source map of a unit, if there are to be any. -/
def mapped (program : Program) (unit : SourceText) : Writes :=
  if program.sourceMap then
    [(program.mapPath unit, "\x7b\"file\":\"" ++ (unit.stem ++ ".js") ++ "\"\x7d")]
  else []

/-- What is written for a unit once its output is made. -/
def placed (program : Program) (made : SourceText × String) : Writes :=
  (program.outputPath made.1, made.2) :: program.mapped made.1

variable (program : Program) {unit : SourceText} {path : FilePath}

theorem same_outputPath_iff (other : SourceText)
    (hpath : path.same (program.outputPath unit) = true) :
    (program.outputPath other).same path = true ↔ other.stem = unit.stem := by
  rw [FilePath.same_comm, FilePath.same_congr hpath, outputPath, outputPath,
    FilePath.same_join_iff unit.isFileName_output other.isFileName_output, eq_comm]
  simp

/-- No source map is written to the file of an output. -/
theorem not_reach_mapped (other : SourceText)
    (hpath : path.same (program.outputPath unit) = true) :
    ¬(program.mapped other).reach path := by
  rintro ⟨w, hw, hsame⟩
  rw [mapped] at hw
  split at hw
  next =>
    obtain rfl := List.mem_singleton.1 hw
    rw [FilePath.same_comm, FilePath.same_congr hpath, outputPath, mapPath,
      FilePath.same_join_iff unit.isFileName_output other.isFileName_map] at hsame
    -- One name ends in `s`, the other in `p`.
    have hlast := congrArg (fun name : String ↦ name.toList.getLast?) hsame
    simp at hlast
  next => exact absurd hw List.not_mem_nil

theorem last?_placed (made : SourceText × String)
    (hpath : path.same (program.outputPath unit) = true) :
    Writes.last? path (program.placed made) =
      if made.1.stem = unit.stem then some made.2 else none := by
  rw [placed, Writes.last?, Writes.last?_eq_none_iff.2 (program.not_reach_mapped made.1 hpath),
    Option.none_or]
  simp only [program.same_outputPath_iff made.1 hpath]

/-- **What is found at the place of a unit** is its own output, if no other unit with its stem has
one. -/
theorem last?_flatMap_placed {entries : List (SourceText × String)} {text : String}
    (hunique : entries.filter (·.1.stem = unit.stem) = [(unit, text)])
    (hpath : path.same (program.outputPath unit) = true) :
    Writes.last? path (entries.flatMap program.placed) = some text := by
  obtain ⟨before, behind, rfl, -, -, hbehind⟩ := List.filter_eq_cons_iff.1 hunique
  -- Whatever is written before the unit, nothing is written over it.
  have hnothing : Writes.last? path (behind.flatMap program.placed) = none := by
    rw [Writes.last?_eq_none_iff]
    rintro ⟨w, hw, hsame⟩
    obtain ⟨made, hmade, hw⟩ := List.mem_flatMap.1 hw
    have hother : made.1.stem ≠ unit.stem := by
      simpa using List.filter_eq_nil_iff.1 hbehind made hmade
    have hlast := program.last?_placed made hpath
    rw [if_neg hother, Writes.last?_eq_none_iff] at hlast
    exact hlast ⟨w, hw, hsame⟩
  rw [List.flatMap_append, List.flatMap_cons, Writes.last?_append, Writes.last?_append, hnothing,
    program.last?_placed _ hpath, if_pos rfl]
  rfl

end Program

/-! ## What is written for a program -/

namespace Workbench

variable {S : Type} {style : OutputStyle} {unit : SourceText} {output : Dialogue SourceText String}
  (program : Program) (below : Host SourceText S)

theorem writes_withNotes (output : String) (paths : List FilePath) (s : S) :
    (withNotes output paths).writes below s = [] := by
  induction paths generalizing output s with
  | nil => rfl
  | cons path paths ih =>
    rw [withNotes, Dialogue.writes_bind, ih, List.append_nil]
    rfl

theorem writes_emitUnit (h : style.output unit = some output) (s : S) :
    (emitUnit output program unit).writes below s =
      program.placed (unit, (output.run below s).1) := by
  rw [emitUnit, Dialogue.writes_bind, OutputStyle.eq_withNotes_of_output h, writes_withNotes,
    List.nil_append, Program.placed, Program.mapped]
  cases program.sourceMap <;> rfl

variable (style)

/-- The outputs of some units, each made in its turn, as far as the backend gets. -/
def made : List SourceText → S → List (SourceText × String)
  | [], _ => []
  | unit :: units, s =>
    match style.output unit with
    | none => []
    | some output =>
      (unit, (output.run below s).1) :: made units ((emitUnit output program unit).run below s).2

/-- An emission that comes to its end makes the outputs of all units. -/
theorem map_fst_made {units : List SourceText} {s : S}
    (h : ((emitAll style.output program units).run below s).1 = true) :
    (made style program below units s).map Prod.fst = units := by
  induction units generalizing s with
  | nil => rfl
  | cons unit units ih =>
    rw [emitAll] at h
    rw [made]
    cases houtput : style.output unit with
    | none =>
      rw [houtput] at h
      cases h
    | some output =>
      simp only [houtput, Dialogue.run_bind] at h
      simp only [List.map_cons, ih h]

/-- **What is written** for a list of units is what their outputs come to, in order. -/
theorem writes_emitAll (units : List SourceText) (s : S) :
    (emitAll style.output program units).writes below s =
      (made style program below units s).flatMap program.placed := by
  induction units generalizing s with
  | nil => rfl
  | cons unit units ih =>
    rw [emitAll, made]
    cases houtput : style.output unit with
    | none => rfl
    | some output =>
      simp only [Dialogue.writes_bind, writes_emitUnit program below houtput, ih,
        List.flatMap_cons]

variable {D : Type} (text? : D → FilePath → Option String) (o : Overlay SourceText)

theorem says_of_mem_made {units : List SourceText} {c : Capture (Workbench D)}
    {entry : SourceText × String}
    (h : entry ∈ made style program (o.host (host text?)) units c) :
    style.Says (o.seen (text? c.world.store)) entry.1 entry.2 := by
  induction units generalizing c with
  | nil => cases h
  | cons unit units ih =>
    rw [made] at h
    cases houtput : style.output unit with
    | none =>
      rw [houtput] at h
      cases h
    | some output =>
      rw [houtput] at h
      rcases List.mem_cons.1 h with rfl | h
      · exact says_output text? o houtput c
      · -- Writing one output leaves the store alone.
        rw [← (kept_run text? o (emitUnit output program unit) c).store]
        exact ih h

end Workbench

end Coalesce
