import Coalesce.Proofs.InMemory
import Coalesce.Workbench.Sample

/-!
# What a build takes over and what it reads

A pass over a project in memory goes through the list of files as it is, repetitions and odd
spellings included, and decides on each file by itself. If nobody asks for the file and the program
before has a unit for it, this very unit is taken over. Otherwise the file is read, once for every
time it is listed, and contributes nothing if it is not on the disk. So the pass reports as many
reused units as there are files of the first kind, and the build makes as many readings as there are
files of the second kind on the disk (`reuse_is_exact`).
-/

namespace Coalesce

namespace Memory

variable {d : Driver World Program}

/-- The unit that the next pass serves again for a file: the one that the program before has, unless
somebody asks for the file. -/
def kept? (d : Driver World Program) (file : FilePath) : Option SourceText :=
  if d.session.queue.asksFor file then none else (reusable? d).bind (·.find? file)

/-- Whether the next pass reads a file: no unit of it is served again, and it is on the disk. -/
def isReadAnew (d : Driver World Program) (file : FilePath) : Bool :=
  (kept? d file).isNone && (d.world.store.text? file).isSome

/-- What a pass that builds makes of the listed files, each of which has its place. -/
structure Reuses (d : Driver World Program) (pass : Pass World SourceText Program)
    (b : Built World Program) (places : List (Option SourceText)) : Prop where
  program? : pass.session.program? = some b.program
  /-- The units of the program are what stands at the places, in the order of the list. -/
  units : b.program.units = places.filterMap id
  length : places.length = d.world.store.configuration.files.length
  /-- A unit that is kept stands at the place of its file as it is. -/
  kept : ∀ (i : Nat) (file : FilePath) (unit : SourceText),
    d.world.store.configuration.files[i]? = some file → kept? d file = some unit →
      places[i]? = some (some unit)
  /-- Otherwise a reading stands there, with the next number, or nothing if there is no text. -/
  read : ∀ (i : Nat) (file : FilePath),
    d.world.store.configuration.files[i]? = some file → kept? d file = none →
      places[i]? = some ((d.world.store.text? file).map fun text ↦
        ⟨file, text, d.world.parses +
          (d.world.store.configuration.files.take i).countP (isReadAnew d) + 1⟩)
  /-- While the program is built every file that is read is read once, and nothing else is. -/
  parses : b.world.parses =
    d.world.parses + d.world.store.configuration.files.countP (isReadAnew d)
  hits : b.reused = d.world.store.configuration.files.countP fun file ↦ (kept? d file).isSome
  /-- The number of units that are kept is what the pass reports. -/
  reported : ∀ summary, pass.verdict = .finished summary → summary.reused = b.reused
  traced : ⟨"cache", Text.counted b.reused "source unit" ++ " reused, " ++
    Text.counted d.session.queue.sources.length "file" ++ " queued"⟩ ∈ pass.journal.traces

theorem served?_eq_kept? (d : Driver World Program) : (overlay d).served? = kept? d :=
  funext fun file ↦ served?_overlay d file

theorem isRead_eq_isReadAnew (d : Driver World Program) :
    (overlay d).isRead (text? d.world.store) = isReadAnew d := by
  funext file
  rw [Overlay.isRead, served?_eq_kept?, isReadAnew]

theorem reuses_of_build {output : Workbench.OutputRule}
    {st : Stage World Program} {b : Built World Program}
    (hstage : d.session.building? (scene output).backend project d.world = some st)
    (hbuild : st.build? (scene output).backend = some b) :
    Reuses d ((scene output).pass d) b
      ((overlay d).places (text? d.world.store) d.world.parses
        d.world.store.configuration.files) := by
  have hst := stands_of_building hstage
  have hrebuilds := rebuilds_of_build hst hbuild
  have hshown :=
    Session.shown_by_pass (scene output).backend project d.session d.world hstage hbuild
  refine
    { program? := hshown.program?.trans hrebuilds.program?
      units := ?_
      length := List.length_mapIdx
      kept := ?_
      read := ?_
      parses := ?_
      hits := ?_
      reported := hshown.counted
      traced := ?_ }
  · rw [hrebuilds.program]
    exact Overlay.resolve_eq_places
  · intro i file unit hfile hkept
    rw [← served?_eq_kept?] at hkept
    rw [Overlay.getElem?_places, hfile, Option.map_some, Overlay.place_of_served hkept]
  · intro i file hfile hkept
    rw [← served?_eq_kept?] at hkept
    rw [Overlay.getElem?_places, hfile, Option.map_some, Overlay.place_of_not_served hkept,
      Overlay.reads, isRead_eq_isReadAnew]
  · rw [hrebuilds.parses, Overlay.reads, isRead_eq_isReadAnew]
  · rw [hrebuilds.reused, Overlay.hits, served?_eq_kept?]
  · obtain ⟨-, rfl⟩ := build?_eq_some_iff.1 hbuild
    have hnoted := hshown.noted
    rw [Built.note, completed, hst.queue] at hnoted
    exact hnoted

end Memory

/-- **What is reused and what is read.** Take any history of a project in memory from a new driver,
and suppose that the next pass calls the backend to build. Then there is a build, and every listed
file has a place in it: at the place of a file that nobody asks for and that the program before has
a unit for stands that unit, and at the place of any other file a new reading, or nothing if the
file is not on the disk. The numbers of units that are reused and of readings that are made are
counted accordingly. -/
theorem reuse_is_exact (output : Workbench.OutputRule)
    (settings? : Option BatchSettings) (root : FilePath) (m : Memory)
    (diagnostics : List Diagnostic) (steps : List (Step Memory.Happening)) :
    let scene := Memory.scene output
    let d := scene.after (scene.start settings? root (.create m diagnostics)) steps
    (scene.pass d).built = true →
      ∃ st b places, d.session.building? scene.backend scene.project d.world = some st ∧
        st.build? scene.backend = some b ∧ Memory.Reuses d (scene.pass d) b places := by
  intro scene d hbuilt
  rw [Scene.pass, Session.built_pass, Option.isSome_iff_exists] at hbuilt
  obtain ⟨st, hstage⟩ := hbuilt
  obtain ⟨b, hbuild⟩ :=
    Memory.exists_build (Memory.stands_of_building hstage) (Memory.sound_after rfl)
  exact ⟨st, b, _, hstage, hbuild, Memory.reuses_of_build hstage hbuild⟩

/-- A history of the sample project: once all is delivered, the list of files has repetitions in
other spellings and a file that does not exist, and somebody asks for `b`. -/
def Sample.relisted : List (Step Memory.Happening) := [
  .request (target "a"), .pass,
  .outside (.files [locate "src/a.ts", locate "src//a.ts", locate "src/b.ts", locate "src/lost.ts",
    locate "src/./b.ts", locate "src/types.d.ts"]),
  .request (target "b")]

/-- The next pass of this history takes three units over, two of them for one file. -/
theorem reuse_is_exact_relisted :
    let scene := Memory.scene Workbench.annotatedOutput
    let d := scene.after (scene.start none Sample.root Sample.workbench) Sample.relisted
    (scene.pass d).built = true ∧
      ∃ b places, Memory.Reuses d (scene.pass d) b places ∧ b.reused = 3 := by
  intro scene d
  have hbuilt : (scene.pass d).built = true := by decide +kernel
  obtain ⟨st, b, places, -, -, hreuses⟩ :=
    reuse_is_exact Workbench.annotatedOutput none Sample.root Sample.memory [] Sample.relisted
      hbuilt
  have hhits : d.world.store.configuration.files.countP
      (fun file ↦ (Memory.kept? d file).isSome) = 3 := by decide +kernel
  exact ⟨hbuilt, b, places, hreuses, hreuses.hits.trans hhits⟩

end Coalesce
