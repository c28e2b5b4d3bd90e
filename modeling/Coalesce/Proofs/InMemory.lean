import Coalesce.Proofs.History
import Coalesce.Proofs.Readings
import Coalesce.Workbench.Memory

/-!
# Histories in memory

What can happen to a project in memory between two passes, and what a pass over it comes to. Two
facts carry everything that is shown of such histories:

* a pass leaves the sources and the project's settings alone, since a dialogue changes only what is
  counted and collected beside them (`Workbench.Kept`);
* the program that a pass builds is a plain function of the driver that begins the pass
  (`Memory.rebuilt`): the units of the listed files through an overlay on the disk
  (`Overlay.resolve`).

How far a pass gets before it builds, and what the build makes of the world, is said by two
equations (`Memory.stage_eq`, `Memory.build?_eq`). How outputs are made plays no part in any of
this, so it stays a parameter of the scene.

A workbench numbers what it reads and what it opens, so its states are moments in time: what was
read between two of them is told by its number.
-/

namespace Coalesce

/-! ## Moments of a workbench -/

/-- A reading that was made on a workbench between two moments. -/
def SourceText.ReadBetween (earlier later : Memory.World) (unit : SourceText) : Prop :=
  earlier.parses < unit.serial ∧ unit.serial ≤ later.parses

/-- A host that was opened on a workbench between two moments. -/
def HostId.OpenedBetween (earlier later : Memory.World) (host : HostId) : Prop :=
  earlier.hosts < host.number ∧ host.number ≤ later.hosts

/-! ## What can happen -/

namespace Memory

/-- What can happen to a project in memory between two passes. That the backend will break down is
not among it. -/
inductive Happening where
  | edit (path : FilePath) (text : String)
  | remove (path : FilePath)
  /-- The project is told that it has changed. -/
  | change
  | files (files : List FilePath)
  | options (options : BuildOptions)
  | errors (errors : List Diagnostic)
  /-- There will be something wrong with every program. -/
  | diagnostics (diagnostics : List Diagnostic)
  | batch (batch? : Option BatchSettings)
  /-- The project cannot say what it consists of, or can again. -/
  | failure (failure? : Option ProjectFailure)

/-- What a happening makes of a workbench. -/
def act : Happening → World → World
  | .edit path text, w => { w with store := w.store.write path text }
  | .remove path, w => { w with store := w.store.remove path }
  | .change, w => { w with store := w.store.markChanged }
  | .files files, w => { w with store := w.store.withFiles files }
  | .options options, w => { w with store := w.store.withOptions options }
  | .errors errors, w => { w with store := w.store.withErrors errors }
  | .diagnostics diagnostics, w => { w with diagnostics }
  | .batch batch?, w => { w with store := w.store.withBatch batch? }
  | .failure failure?, w => { w with store := w.store.withFailure failure? }

theorem isFaulty_act (event : Happening) (w : World) : (act event w).isFaulty = w.isFaulty := by
  cases event <;> rfl

theorem text?_write (m : Memory) (path : FilePath) (text : String) (q : FilePath) :
    (m.write path text).text? q = if path.same q then some text else m.text? q :=
  PathMap.get?_insert _ _ _ _

/-- Projects in memory, given how an output is made. -/
def scene (output : Workbench.OutputRule) :
    Scene World SourceText Program Happening :=
  ⟨Workbench.backend text? output, project, act⟩

/-! ## What the next pass builds -/

/-- The program whose units the next pass may serve again: none if the project has changed. -/
def reusable? (d : Driver World Program) : Option Program :=
  if d.world.store.hasChanged then none else d.session.program?

/-- What stands between the backend and the disk while the next pass builds. -/
def overlay (d : Driver World Program) : Overlay SourceText where
  cached? path := (reusable? d).bind (·.find? path)
  fresh := d.session.queue.sources
  forwards := false

/-- The program that the next pass builds, if it builds one. -/
def rebuilt (d : Driver World Program) : Program where
  units := (overlay d).resolve (text? d.world.store) d.world.parses
    d.world.store.configuration.files
  outDir := d.world.store.configuration.options.outDir?.getD Workbench.defaultOutDir
  sourceMap := d.world.store.configuration.options.sourceMap

theorem served?_sources (cached? : FilePath → Option SourceText) (q : Queue) (forwards : Bool)
    (path : FilePath) : Overlay.served? ⟨cached?, q.sources, forwards⟩ path =
      if q.asksFor path then none else cached? path := by
  have hfresh : Overlay.isFresh ⟨cached?, q.sources, forwards⟩ path = q.asksFor path :=
    q.any_sources path
  rw [Overlay.served?, hfresh]

theorem served?_overlay (d : Driver World Program) (path : FilePath) :
    (overlay d).served? path =
      if d.session.queue.asksFor path then none else (reusable? d).bind (·.find? path) :=
  served?_sources _ d.session.queue false path

/-- What the stage of a pass at which the backend is about to build has of the driver. -/
structure Stands (d : Driver World Program) (st : Stage World Program) : Prop where
  config : st.config = d.world.store.configuration
  queue : st.session.queue = d.session.queue
  program? : st.session.program? = reusable? d
  store : st.world.store = { d.world.store with hasChanged := false }
  parses : st.world.parses = d.world.parses
  diagnostics : st.world.diagnostics = d.world.diagnostics
  isFaulty : st.world.isFaulty = d.world.isFaulty

variable {output : Workbench.OutputRule} {d : Driver World Program}

theorem world_refresh (d : Driver World Program) :
    (d.session.refresh project d.world).world =
      { d.world with store := { d.world.store with hasChanged := false } } := rfl

theorem isChange_poll (w : World) : (project.poll w).1.isChange = w.store.hasChanged := by
  cases h : w.store.hasChanged <;> simp [project, Workbench.project, answers, h, Change.isChange]

theorem program?_refresh (d : Driver World Program) :
    (d.session.refresh project d.world).session.program? = reusable? d := by
  rw [reusable?, ← isChange_poll]
  rfl

/-- The host that the next pass may go on with: none if the project has changed. -/
def reusableHost? (d : Driver World Program) : Option HostId :=
  if d.world.store.hasChanged then none else d.session.host?

theorem host?_refresh (d : Driver World Program) :
    (d.session.refresh project d.world).session.host? = reusableHost? d := by
  rw [reusableHost?, ← isChange_poll]
  rfl

theorem answer_refresh (d : Driver World Program) :
    project.configuration (d.session.refresh project d.world).world =
      match d.world.store.failure? with
      | some error => .error error
      | none => .ok d.world.store.configuration := rfl

/-- The stage of a pass at which the backend is about to build. -/
def staged (d : Driver World Program) : Stage World Program where
  config := d.world.store.configuration
  host := (reusableHost? d).getD ⟨d.world.hosts + 1⟩
  session := { (d.session.refresh project d.world).session with
    host? := some ((reusableHost? d).getD ⟨d.world.hosts + 1⟩) }
  world := { d.world with
    store := { d.world.store with hasChanged := false }
    hosts := d.world.hosts + if (reusableHost? d).isNone then 1 else 0 }

/-- **How far a pass gets before it builds**: all that can stop it is the project, and all that it
does to the world is to take back the change and to open a host if there is none. -/
theorem stage_eq (output : Workbench.OutputRule) (d : Driver World Program) :
    d.session.stage (scene output).backend project d.world =
      match d.world.store.failure? with
      | some error => .error error
      | none => .ok (staged d) := by
  rw [Session.stage, answer_refresh]
  cases d.world.store.failure? with
  | some error => rfl
  | none =>
    have hopened : (d.session.refresh project d.world).session.opened (scene output).backend
        d.world.store.configuration.options (d.session.refresh project d.world).world =
          ((staged d).host, (staged d).world) := by
      rw [Session.opened, host?_refresh, world_refresh, staged]
      cases reusableHost? d <;> rfl
    simp only [Except.map, hopened]
    rfl

theorem stage_eq_ok_iff {st : Stage World Program} :
    d.session.stage (scene output).backend project d.world = .ok st ↔
      d.world.store.failure? = none ∧ staged d = st := by
  rw [stage_eq]
  cases d.world.store.failure? <;> simp

theorem staged_of_building {st : Stage World Program}
    (h : d.session.building? (scene output).backend project d.world = some st) : staged d = st :=
  (stage_eq_ok_iff.1 (Session.building?_eq_some_iff.1 h).1).2

theorem stands_of_stage {st : Stage World Program}
    (h : d.session.stage (scene output).backend project d.world = .ok st) : Stands d st := by
  obtain ⟨-, rfl⟩ := stage_eq_ok_iff.1 h
  exact ⟨rfl, rfl, program?_refresh d, rfl, rfl, rfl, rfl⟩

theorem stands_of_building {st : Stage World Program}
    (h : d.session.building? (scene output).backend project d.world = some st) : Stands d st :=
  stands_of_stage (Session.building?_eq_some_iff.1 h).1

/-- What stands between the backend and the disk at a stage. -/
def layer (st : Stage World Program) : Overlay SourceText where
  cached? path := st.session.program?.bind (·.find? path)
  fresh := st.session.queue.sources
  forwards := false

theorem Stands.layer_eq {st : Stage World Program} (h : Stands d st) : layer st = overlay d := by
  rw [layer, h.program?, h.queue]
  rfl

/-- The program of a stage. -/
def assembled (st : Stage World Program) : Program where
  units := (layer st).resolve (text? st.world.store) st.world.parses st.config.files
  outDir := st.config.options.outDir?.getD Workbench.defaultOutDir
  sourceMap := st.config.options.sourceMap

/-- The stage of a pass whose program is built. -/
def completed (st : Stage World Program) : Built World Program where
  config := st.config
  host := st.host
  session := { st.session with program? := some (assembled st) }
  world := { st.world with
    parses := st.world.parses + (layer st).reads (text? st.world.store) st.config.files
    programs := st.world.programs + 1
    isFaulty := false }
  program := assembled st
  reused := (layer st).hits st.config.files

/-- **What a build comes to**, unless the backend breaks down: all that it does to the world is to
count the program and the readings. -/
theorem build?_eq (output : Workbench.OutputRule) (st : Stage World Program) :
    st.build? (scene output).backend =
      if st.world.isFaulty then none else some (completed st) := by
  have hbuild : (scene output).backend.build st.config.files st.config.options st.world =
      (if st.world.isFaulty then none
        else some (Workbench.program st.config.files st.config.options),
        { st.world with programs := st.world.programs + 1, isFaulty := false }) := rfl
  have hhost : st.buildHost (scene output).backend = (layer st).host (Workbench.host text?) := rfl
  rw [Stage.build?, hbuild, hhost]
  cases st.world.isFaulty with
  | true => rfl
  | false =>
    simp only [Bool.false_eq_true, if_false, Workbench.program, Dialogue.run_bind,
      Dialogue.run_pure, Workbench.run_gather, completed, assembled, Nat.zero_add]

theorem build?_eq_some_iff {st : Stage World Program} {b : Built World Program} :
    st.build? (scene output).backend = some b ↔ st.world.isFaulty = false ∧ completed st = b := by
  rw [build?_eq, Option.ite_none_left_eq_some, Bool.not_eq_true, Option.some_inj]

/-- What the stage of a pass whose program is built has of the driver. -/
structure Rebuilds (d : Driver World Program) (b : Built World Program) : Prop where
  sound : d.world.isFaulty = false
  program : b.program = rebuilt d
  reused : b.reused = (overlay d).hits d.world.store.configuration.files
  config : b.config = d.world.store.configuration
  program? : b.session.program? = some b.program
  store : b.world.store = { d.world.store with hasChanged := false }
  parses : b.world.parses = d.world.parses +
    (overlay d).reads (text? d.world.store) d.world.store.configuration.files
  diagnostics : b.world.diagnostics = d.world.diagnostics
  isFaulty : b.world.isFaulty = false

/-- **What is built** is the program read off the driver. -/
theorem rebuilds_of_build {st : Stage World Program} {b : Built World Program}
    (hst : Stands d st) (h : st.build? (scene output).backend = some b) : Rebuilds d b := by
  obtain ⟨hsound, rfl⟩ := build?_eq_some_iff.1 h
  exact
    { sound := hst.isFaulty.symm.trans hsound
      program := by
        rw [completed, assembled, hst.layer_eq, hst.config, hst.store, hst.parses]
        rfl
      reused := by rw [completed, hst.layer_eq, hst.config]
      config := hst.config
      program? := rfl
      store := hst.store
      parses := by
        rw [completed, hst.layer_eq, hst.config, hst.store, hst.parses]
        rfl
      diagnostics := hst.diagnostics
      isFaulty := rfl }

theorem exists_build {st : Stage World Program} (hst : Stands d st)
    (hsound : d.world.isFaulty = false) : ∃ b, st.build? (scene output).backend = some b :=
  ⟨_, build?_eq_some_iff.2 ⟨hst.isFaulty.trans hsound, rfl⟩⟩

theorem exists_stage (output : Workbench.OutputRule)
    (h : d.world.store.failure? = none) :
    ∃ st, d.session.stage (scene output).backend project d.world = .ok st :=
  ⟨_, stage_eq_ok_iff.2 ⟨h, rfl⟩⟩

/-- When the backend is called to build. -/
theorem isSome_building?_iff :
    (d.session.building? (scene output).backend project d.world).isSome ↔
      d.world.store.failure? = none ∧
        ¬Diagnostic.Halts d.world.store.configuration.options
          d.world.store.configuration.errors := by
  rw [Option.isSome_iff_exists]
  constructor
  · rintro ⟨st, h⟩
    obtain ⟨hstage, hhalts⟩ := Session.building?_eq_some_iff.1 h
    rw [(stands_of_stage hstage).config] at hhalts
    exact ⟨(stage_eq_ok_iff.1 hstage).1, hhalts⟩
  · rintro ⟨hfailure, hhalts⟩
    obtain ⟨st, hstage⟩ := exists_stage output hfailure
    rw [← (stands_of_stage hstage).config] at hhalts
    exact ⟨st, Session.building?_eq_some_iff.2 ⟨hstage, hhalts⟩⟩

/-- The diagnostics of a program in memory are known beforehand. -/
theorem Rebuilds.halts_iff {b : Built World Program} (h : Rebuilds d b) :
    Diagnostic.Halts b.config.options (b.diagnostics (scene output).backend) ↔
      Diagnostic.Halts d.world.store.configuration.options d.world.diagnostics := by
  have hdiagnostics : b.diagnostics (scene output).backend = d.world.diagnostics :=
    h.diagnostics
  rw [h.config, hdiagnostics]

theorem isSome_emitting?_iff :
    (d.session.emitting? (scene output).backend project d.world).isSome ↔
      (d.session.building? (scene output).backend project d.world).isSome ∧
        d.world.isFaulty = false ∧
        ¬Diagnostic.Halts d.world.store.configuration.options d.world.diagnostics := by
  rw [Option.isSome_iff_exists, Option.isSome_iff_exists]
  constructor
  · rintro ⟨b, h⟩
    obtain ⟨st, hbuilding, hbuild, hstop⟩ := Session.emitting?_eq_some_iff.1 h
    have hb := rebuilds_of_build (stands_of_building hbuilding) hbuild
    exact ⟨⟨st, hbuilding⟩, hb.sound, fun hhalts ↦ hstop (hb.halts_iff.2 hhalts)⟩
  · rintro ⟨⟨st, hbuilding⟩, hsound, hstop⟩
    have hst := stands_of_building hbuilding
    obtain ⟨b, hbuild⟩ := exists_build hst hsound
    have hb := rebuilds_of_build hst hbuild
    refine ⟨b, Session.emitting?_eq_some_iff.2 ⟨st, hbuilding, hbuild, fun hhalts ↦ ?_⟩⟩
    exact hstop (hb.halts_iff.1 hhalts)

/-- While output is written nothing changes on the workbench but what is read and written. -/
theorem kept_emitted (output : Workbench.OutputRule) (b : Built World Program) :
    Workbench.Kept b.world (b.emitted (scene output).backend).world :=
  Workbench.kept_run text?
    (b.session.overlay (scene output).backend (some b.program) b.session.batch.writeToDisk)
    ((scene output).backend.emit b.program) ⟨b.world, b.session.outputs, 0⟩

/-- What a pass leaves behind. -/
structure Leaves (d : Driver World Program) (pass : Pass World SourceText Program) : Prop where
  program? : pass.session.program? = if pass.built then some (rebuilt d) else reusable? d
  store : pass.world.store = { d.world.store with hasChanged := false }
  isFaulty : pass.world.isFaulty = false

theorem Leaves.after {pass : Pass World SourceText Program} (h : Leaves d pass)
    (journal : Journal SourceText) : Leaves d (pass.after journal) :=
  ⟨h.program?, h.store, h.isFaulty⟩

/-- **What a pass leaves behind**, unless the build breaks down: if the backend is called, the
program read off the driver, and otherwise what could have been served again. -/
theorem leaves_pass (output : Workbench.OutputRule) {d : Driver World Program}
    (hsound : d.world.isFaulty = false) : Leaves d ((scene output).pass d) := by
  have hcourse := (scene output).course_pass d
  generalize (scene output).pass d = pass at hcourse ⊢
  have hwritten : ∀ {st : Stage World Program} {b : Built World Program},
      d.session.building? (scene output).backend project d.world = some st →
        st.build? (scene output).backend = some b → ∀ pass : Pass World SourceText Program,
          pass.built = true → pass.session.program? = b.session.program? →
            pass.world = (b.emitted (scene output).backend).world → Leaves d pass := by
    intro st b hstage hbuild pass hbuilt hprogram hworld
    have hb := rebuilds_of_build (stands_of_building hstage) hbuild
    have hkept := kept_emitted output b
    refine ⟨?_, ?_, ?_⟩
    · rw [hbuilt, if_pos rfl, hprogram, hb.program?, hb.program]
    · rw [hworld, hkept.store, hb.store]
    · rw [hworld, hkept.isFaulty, hb.isFaulty]
  cases hcourse with
  | unavailable hstage => exact .after ⟨program?_refresh d, rfl, hsound⟩ _
  | halted hstage hhalts =>
    have hst := stands_of_stage hstage
    exact .after ⟨hst.program?, hst.store, hst.isFaulty.trans hsound⟩ _
  | crashed hstage hbuild =>
    -- The workbench breaks down only if it was told to.
    have hst := stands_of_building hstage
    obtain ⟨b, hb⟩ := exists_build hst hsound
    rw [hb] at hbuild
    cases hbuild
  | diagnosed hstage hbuild hstop =>
    have hst := stands_of_building hstage
    have hb := rebuilds_of_build hst hbuild
    exact .after ⟨hb.program ▸ hb.program?, hb.store, hb.isFaulty⟩ _
  | cutShort hstage hbuild hstop hcut =>
    exact .after (hwritten hstage hbuild _ rfl rfl rfl) _
  | emitted hstage hbuild hstop hwhole =>
    exact .after (hwritten hstage hbuild _ rfl rfl rfl) _

theorem sound_after {steps : List (Step Happening)} (hsound : d.world.isFaulty = false) :
    ((scene output).after d steps).world.isFaulty = false := by
  refine Scene.after_induction (I := fun d : Driver World Program ↦ d.world.isFaulty = false)
    hsound ?_
  intro d step _ hd
  cases step with
  | request target => exact hd
  | pass => exact (leaves_pass output hd).isFaulty
  | outside event => exact (isFaulty_act event d.world).trans hd

theorem sound_passes {steps : List (Step Happening)} (hsound : d.world.isFaulty = false) :
    ∀ e ∈ (scene output).passes d steps, e.world.isFaulty = false := by
  intro e he
  obtain ⟨before, rest, -, rfl⟩ := Scene.mem_passes_iff.1 he
  exact sound_after hsound

end Memory

end Coalesce
