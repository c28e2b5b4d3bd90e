import Coalesce.Proofs.Capture
import Coalesce.Proofs.Emission
import Coalesce.Workbench.Sample

/-!
# What requesters get

Somebody who waits for a source gets a reading of it that the pass itself has made, although the
pass takes over units of the program before and finds the unit by its path among all of them. What
is taken over for a file has the path of the file, and nothing is taken over for a file that
somebody asks for; so no unit that is taken over has the path of a source that somebody waits for,
under any spelling, and the unit that is found is one of the readings (`Memory.isReading_of_find?`).

The output is looked up by its own path, which nothing ties to the source. But where the requester
names the file that the unit is written to, and no other unit of the program has this stem, what
is found there is what the backend has made of this very unit (`Memory.output_of_delivers`).
-/

namespace Coalesce

namespace Memory

variable {style : Workbench.OutputStyle} {d : Driver World Program} {r : Request}

/-! ## The unit -/

/-- **What is found for a requester** is a reading that the pass makes. -/
theorem isReading_of_find? {unit : SourceText} (hwaiting : r ∈ d.session.queue.requests)
    (h : (rebuilt d).find? r.target.source = some unit) :
    (overlay d).IsReading (text? d.world.store) d.world.parses
      d.world.store.configuration.files unit := by
  obtain ⟨hmem, hsame⟩ := Program.of_find? h
  rcases Overlay.of_mem_resolve hmem with ⟨file, -, hserved⟩ | hreading
  · -- A unit that is served again has the path of its file, for which nobody asks.
    rw [served?_overlay, Option.ite_none_left_eq_some] at hserved
    obtain ⟨hunasked, hkept⟩ := hserved
    obtain ⟨program, -, hfind⟩ := Option.bind_eq_some_iff.1 hkept
    have hasks : r.target.source.same file = true := by
      rw [← FilePath.same_congr hsame]
      exact (Program.of_find? hfind).2
    exact absurd (Queue.asksFor_iff.2 ⟨r, hwaiting, hasks⟩) hunasked
  · exact hreading

/-! ## The output -/

/-- The outputs that the next pass makes, each with its unit, in order. -/
def made (style : Workbench.OutputStyle) (d : Driver World Program) :
    List (SourceText × String) :=
  match d.session.emitting? (scene style.output).backend project d.world with
  | some b =>
    Workbench.made style b.program (b.emitHost (scene style.output).backend)
      (b.program.units.filter fun unit ↦ !unit.isDeclaration) ⟨b.world, b.session.outputs, 0⟩
  | none => []

/-- What the sources of a project say while the output of a program is written for a queue. -/
def seen (m : Memory) (q : Queue) (program : Program) (path : FilePath) : Option String :=
  if q.asksFor path then m.text? path
  else ((program.find? path).map SourceText.text).or (m.text? path)

theorem made_of_emitting {b : Built World Program}
    (h : d.session.emitting? (scene style.output).backend project d.world = some b) :
    made style d = Workbench.made style b.program (b.emitHost (scene style.output).backend)
      (b.program.units.filter fun unit ↦ !unit.isDeclaration) ⟨b.world, b.session.outputs, 0⟩ := by
  rw [made, h]

theorem emission_eq_made {b : Built World Program}
    (h : d.session.emitting? (scene style.output).backend project d.world = some b) :
    (scene style.output).emission d = (made style d).flatMap b.program.placed := by
  rw [Scene.emission_of_emitting h, made_of_emitting h, ← Workbench.writes_emitAll]
  rfl

theorem exists_made {b : Built World Program} {unit : SourceText}
    (h : d.session.emitting? (scene style.output).backend project d.world = some b)
    (hwhole : b.isWhole (scene style.output).backend = true) (hemits : unit.isDeclaration = false)
    (hunique : b.program.units.filter (·.stem = unit.stem) = [unit]) :
    ∃ text, (made style d).filter (·.1.stem = unit.stem) = [(unit, text)] := by
  have hfirst : ((made style d).filter (·.1.stem = unit.stem)).map Prod.fst = [unit] := by
    calc ((made style d).filter (·.1.stem = unit.stem)).map Prod.fst
        = ((made style d).map Prod.fst).filter (·.stem = unit.stem) := by
          rw [List.filter_map]
          rfl
      _ = (b.program.units.filter fun unit ↦ !unit.isDeclaration).filter
            (·.stem = unit.stem) := by
          rw [made_of_emitting h, Workbench.map_fst_made _ _ _ hwhole]
      _ = [unit] := by
          rw [List.filter_comm, hunique, List.filter_cons_of_pos (by simp [hemits]),
            List.filter_nil]
  obtain ⟨entry, hentry, hunit⟩ := List.map_eq_singleton_iff.1 hfirst
  exact ⟨entry.2, by rw [hentry, ← hunit]⟩

theorem seen_overlay (style : Workbench.OutputStyle) (m : Memory) (s : Session Program)
    (program : Program) (forwards : Bool) :
    (s.overlay (scene style.output).backend (some program) forwards).seen m.text? =
      seen m s.queue program := by
  funext path
  rw [Overlay.seen, Session.overlay, served?_sources, seen]
  cases s.queue.asksFor path with
  | true => rfl
  | false =>
    have hfind : (scene style.output).backend.find? program path = program.find? path := rfl
    rw [Option.bind_some, hfind]
    cases program.find? path <;> rfl

/-- What the outputs say, where the program is built from what the driver has. -/
theorem says_of_mem_made {b : Built World Program} {entry : SourceText × String}
    (hb : completed (staged d) = b)
    (h : d.session.emitting? (scene style.output).backend project d.world = some b)
    (hentry : entry ∈ made style d) :
    style.Says (seen d.world.store d.session.queue b.program) entry.1 entry.2 := by
  have hseen : (b.session.overlay (scene style.output).backend (some b.program)
      b.session.batch.writeToDisk).seen (text? b.world.store) =
        seen d.world.store d.session.queue b.program := by
    subst hb
    exact seen_overlay style _ _ _ _
  rw [made_of_emitting h] at hentry
  rw [← hseen]
  exact Workbench.says_of_mem_made _ _ _ _ hentry

/-- **What a requester is handed** at the file of a unit that has its stem to itself is the output
that the pass has made of this unit. -/
theorem output_of_delivers {a : Artifact SourceText} {st : Stage World Program}
    {b : Built World Program} (h : (scene style.output).Delivers d r a st b)
    (hemits : a.unit.isDeclaration = false)
    (hunique : b.program.units.filter (·.stem = a.unit.stem) = [a.unit])
    (hplace : r.target.output.same (b.program.outputPath a.unit) = true) :
    ∃ text, (made style d).filter (·.1.stem = a.unit.stem) = [(a.unit, text)] ∧
      a.output? = some text := by
  obtain ⟨text, htext⟩ := exists_made h.emitting h.whole hemits hunique
  refine ⟨text, htext, ?_⟩
  have hlast : Writes.last? r.target.output ((scene style.output).emission d) = some text := by
    rw [emission_eq_made h.emitting]
    exact b.program.last?_flatMap_placed htext hplace
  have hfound : a.output? = ((scene style.output).pass d).session.outputs.get? r.target.output := by
    rw [h.artifact]
    rfl
  rw [hfound, Scene.outputs_pass, PathMap.get?_insertAll, Writes.last?_append, hlast]
  rfl

end Memory

/-- **Requesters get the current file.** The unit that a pass delivers is a reading that was made
while the pass went on, under the path that was asked for and with the text that is on the disk
there. If it has an output, no other unit of the program has its stem, and the requester names the
file with this stem in the directory for outputs, then the output that is delivered is what the
backend has made of this very unit: its text, with notes on other sources if there are to be any. -/
theorem requesters_get_current (style : Workbench.OutputStyle) (d : Driver Memory.World Program)
    (r : Request) (a : Artifact SourceText) :
    let scene := Memory.scene style.output
    let pass := scene.pass d
    (r, a) ∈ pass.journal.deliveries →
      a.unit.ReadBetween d.world pass.world ∧ a.unit.path.same r.target.source = true ∧
        d.world.store.text? r.target.source = some a.unit.text ∧
        ∃ program, pass.session.program? = some program ∧ a.unit ∈ program.units ∧
          scene.emission d = (Memory.made style d).flatMap program.placed ∧
          (a.unit.isDeclaration = false →
            program.units.filter (·.stem = a.unit.stem) = [a.unit] →
            r.target.output.same (program.outputPath a.unit) = true →
            ∃ text, (Memory.made style d).filter (·.1.stem = a.unit.stem) = [(a.unit, text)] ∧
              style.Says (Memory.seen d.world.store d.session.queue program) a.unit text ∧
              a.output? = some text) := by
  intro scene pass h
  obtain ⟨st, b, hdelivers⟩ := Scene.exists_delivers h
  have hstands := Memory.stands_of_building hdelivers.building
  have hrebuilds := Memory.rebuilds_of_build hstands hdelivers.built
  obtain rfl := Memory.staged_of_building hdelivers.building
  obtain ⟨-, hb⟩ := Memory.build?_eq_some_iff.1 hdelivers.built
  have hunit : (Memory.rebuilt d).find? r.target.source = some a.unit :=
    hrebuilds.program ▸ hdelivers.unit
  have hreading := Memory.isReading_of_find? hdelivers.waiting hunit
  obtain ⟨hmem, hsame⟩ := Program.of_find? hunit
  refine ⟨⟨hreading.lt_serial, ?_⟩, hsame, ?_, b.program, ?_, hrebuilds.program ▸ hmem,
    Memory.emission_eq_made hdelivers.emitting, ?_⟩
  · calc a.unit.serial
        ≤ d.world.parses + (Memory.overlay d).reads (Memory.text? d.world.store)
            d.world.store.configuration.files := hreading.serial_le
      _ = b.world.parses := hrebuilds.parses.symm
      _ ≤ pass.world.parses := by
        rw [hdelivers.world]
        exact (Memory.kept_emitted style.output b).parses
  · rw [← hreading.text]
    exact (PathMap.get?_congr d.world.store.disk hsame).symm
  · rw [hdelivers.session]
    exact hrebuilds.program?
  · intro hemits hunique hplace
    obtain ⟨text, htext, houtput⟩ := Memory.output_of_delivers hdelivers hemits hunique hplace
    have hmade : (a.unit, text) ∈ Memory.made style d :=
      (List.mem_filter.1 (htext ▸ List.mem_singleton_self _)).1
    exact ⟨text, htext, Memory.says_of_mem_made hb hdelivers.emitting hmade, houtput⟩

/-- A history of the sample project: once all is delivered, the source `a` changes so that it names
`b`, and somebody asks for both of them, for `a` under odd spellings. -/
def Sample.respelled : List (Step Memory.Happening) := [
  .request (target "a"), .pass,
  .outside (.edit (locate "src/a.ts") "//@read /p/src/b.ts\nexport const a: number = 2;"),
  .request (target "b"), .request ⟨locate "dist/./a.js", locate "src//a.ts"⟩]

/-- The next pass of this history delivers the changed text of `a` with a note on `b`, which is read
once more for it. -/
theorem requesters_get_current_respelled :
    let scene := Memory.scene Workbench.OutputStyle.annotated.output
    let d := scene.after (scene.start none Sample.root Sample.workbench) Sample.respelled
    let r : Request := ⟨2, Sample.locate "dist/./a.js", Sample.locate "src//a.ts"⟩
    let a : Artifact SourceText := {
      isDeclaration := false
      output? := some ("// emitted\n//@read /p/src/b.ts\nexport const a: number = 2;" ++
        "\n// read #6 export const b: string = 'b';")
      map? := some "\x7b\"file\":\"a.js\"\x7d"
      unit := ⟨Sample.locate "src/a.ts", "//@read /p/src/b.ts\nexport const a: number = 2;", 4⟩ }
    (r, a) ∈ (scene.pass d).journal.deliveries ∧
      a.unit.ReadBetween d.world (scene.pass d).world ∧
      ∃ text, (Memory.made .annotated d).filter (·.1.stem = a.unit.stem) = [(a.unit, text)] ∧
        a.output? = some text := by
  intro scene d r a
  obtain ⟨hmem, hown⟩ : (r, a) ∈ (scene.pass d).journal.deliveries ∧
      ∀ program ∈ (scene.pass d).session.program?,
        program.units.filter (·.stem = a.unit.stem) = [a.unit] ∧
          r.target.output.same (program.outputPath a.unit) = true := by decide +kernel
  obtain ⟨hread, -, -, program, hprogram, -, -, houtput⟩ :=
    requesters_get_current .annotated d r a hmem
  obtain ⟨hunique, hplace⟩ := hown program hprogram
  obtain ⟨text, htext, -, htext'⟩ := houtput (by decide) hunique hplace
  exact ⟨hmem, hread, text, htext, htext'⟩

end Coalesce
