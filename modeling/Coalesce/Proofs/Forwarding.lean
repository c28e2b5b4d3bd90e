import Coalesce.Proofs.Following
import Coalesce.Proofs.LastWrites

/-!
# Forwarding writes

Whether captured writes go on to the host below is a setting of a session, and on a workbench what
goes on is collected in a list. The setting is looked at by nothing but the write of an overlay, and
the list by nothing at all. So the same history, with and without forwarding, leads to drivers that
differ in the setting and in the list and nowhere else.

This is said by an operation that puts other values in these two places (`Driver.forwarding`), with
which every stage of a pass commutes. Where the setting matters, while the output is written, the
list grows by just what the backend hands over (`Workbench.run_forwarding`). A session that follows
its project would take back the setting at the next poll, so its settings have to be its own.
-/

namespace Coalesce

/-! ## Dialogues -/

namespace Writes

/-- What goes on to the host below of what is written. -/
def through (on : Bool) (ws : Writes) : Writes := if on then ws else []

variable {on : Bool}

@[simp] theorem through_false (ws : Writes) : ws.through false = [] := rfl

@[simp] theorem through_nil : through on [] = [] := by cases on <;> rfl

theorem through_append (ws vs : Writes) :
    through on (ws ++ vs) = through on ws ++ through on vs := by
  cases on <;> rfl

end Writes

/-- An overlay that forwards writes as it is told to. -/
def Overlay.forwarding {U : Type} (o : Overlay U) (on : Bool) : Overlay U :=
  { o with forwards := on }

/-- The workbench with other writes collected on it. -/
def Workbench.withWritten {D : Type} (w : Workbench D) (ws : Writes) : Workbench D :=
  { w with written := ws }

/-- The capture over a workbench with other writes collected on it. -/
def Capture.withWritten {D : Type} (c : Capture (Workbench D)) (ws : Writes) :
    Capture (Workbench D) :=
  { c with world := c.world.withWritten ws }

namespace Workbench

variable {D α : Type} (text? : D → FilePath → Option String) (o : Overlay SourceText) (on : Bool)

theorem read_forwarding (path : FilePath) (c : Capture (Workbench D)) (ws : Writes) :
    ((o.forwarding on).host (host text?)).read path (c.withWritten ws) =
      (((o.host (host text?)).read path c).1,
        ((o.host (host text?)).read path c).2.withWritten ws) := by
  cases hserved : o.served? path with
  | some unit =>
    have hserved' : (o.forwarding on).served? path = some unit := hserved
    rw [Overlay.read_of_served hserved, Overlay.read_of_served hserved']
    rfl
  | none =>
    have hserved' : (o.forwarding on).served? path = none := hserved
    rw [Overlay.read_of_not_served hserved, Overlay.read_of_not_served hserved']
    cases htext : text? c.world.store path with
    | none =>
      have htext' : text? (c.world.withWritten ws).store path = none := htext
      simp only [Capture.withWritten, read_of_no_text htext, read_of_no_text htext']
    | some text =>
      have htext' : text? (c.world.withWritten ws).store path = some text := htext
      simp only [Capture.withWritten, read_of_text htext, read_of_text htext']
      rfl

/-- What is written goes on as the overlay says. -/
theorem write_forwarding (path : FilePath) (text : String) (c : Capture (Workbench D))
    (ws : Writes) :
    ((o.forwarding on).host (host text?)).write path text (c.withWritten ws) =
      ((o.host (host text?)).write path text c).withWritten
        (ws ++ Writes.through on [(path, text)]) := by
  -- What the overlay itself would collect is replaced, whether it forwards writes or not.
  have hworld : ∀ forwards : Bool, (if forwards then (host text?).write path text c.world
      else c.world).withWritten (ws ++ Writes.through on [(path, text)]) =
        c.world.withWritten (ws ++ Writes.through on [(path, text)]) := by
    intro forwards
    cases forwards <;> rfl
  simp only [Overlay.host, Capture.withWritten, hworld]
  cases on with
  | true => rfl
  | false => rw [Writes.through_false, List.append_nil]; rfl

/-- **What forwarding comes to**: what a dialogue hands over is collected, and all else is as it
would be without. -/
theorem run_forwarding (d : Dialogue SourceText α) (c : Capture (Workbench D)) (ws : Writes) :
    d.run ((o.forwarding on).host (host text?)) (c.withWritten ws) =
      ((d.run (o.host (host text?)) c).1,
        (d.run (o.host (host text?)) c).2.withWritten
          (ws ++ (d.writes (o.host (host text?)) c).through on)) := by
  induction d generalizing c ws with
  | done result =>
    rw [Dialogue.writes, Writes.through_nil, List.append_nil]
    rfl
  | read path next ih =>
    rw [Dialogue.run, read_forwarding]
    exact ih _ _ _
  | write path text next ih =>
    rw [Dialogue.run, write_forwarding, ih, List.append_assoc, ← Writes.through_append]
    rfl

theorem writes_forwarding (d : Dialogue SourceText α) (c : Capture (Workbench D)) (ws : Writes) :
    d.writes ((o.forwarding on).host (host text?)) (c.withWritten ws) =
      d.writes (o.host (host text?)) c := by
  induction d generalizing c ws with
  | done result => rfl
  | read path next ih =>
    rw [Dialogue.writes, read_forwarding]
    exact ih _ _ _
  | write path text next ih =>
    rw [Dialogue.writes, write_forwarding, ih]
    rfl

end Workbench

/-! ## Passes -/

section

variable {D P : Type} (on : Bool) (ws : Writes)

/-- The settings with forwarding switched on or off. -/
def BatchSettings.forwarding (settings : BatchSettings) : BatchSettings :=
  { settings with writeToDisk := on }

/-- The session with forwarding switched on or off. -/
def Session.forwarding (s : Session P) : Session P := { s with batch := s.batch.forwarding on }

/-- The stage with forwarding switched on or off and other writes collected. -/
def Stage.forwarding (st : Stage (Workbench D) P) : Stage (Workbench D) P :=
  { st with session := st.session.forwarding on, world := st.world.withWritten ws }

/-- The built stage with forwarding switched on or off and other writes collected. -/
def Built.forwarding (b : Built (Workbench D) P) : Built (Workbench D) P :=
  { b with session := b.session.forwarding on, world := b.world.withWritten ws }

/-- The end of a pass with forwarding switched on or off and other writes collected. -/
def Pass.forwarding {U : Type} (pass : Pass (Workbench D) U P) : Pass (Workbench D) U P :=
  { pass with session := pass.session.forwarding on, world := pass.world.withWritten ws }

/-- The driver with forwarding switched on or off and other writes collected. -/
def Driver.forwarding (d : Driver (Workbench D) P) : Driver (Workbench D) P :=
  { d with session := d.session.forwarding on, world := d.world.withWritten ws }

end

namespace Built

variable {D : Type} (text? : D → FilePath → Option String)
  (output : Workbench.OutputRule) (on : Bool) (ws : Writes)
  (b : Built (Workbench D) Program)

/-- What stands between a program that writes its output and the host below. -/
def layer : Overlay SourceText where
  cached? := b.program.find?
  fresh := b.session.queue.sources
  forwards := b.session.batch.writeToDisk

theorem emission_forwarding : (b.forwarding on ws).emission (Workbench.backend text? output) =
    b.emission (Workbench.backend text? output) :=
  Workbench.writes_forwarding text? b.layer on _ ⟨b.world, b.session.outputs, 0⟩ ws

theorem emitted_forwarding : (b.forwarding on ws).emitted (Workbench.backend text? output) =
    (b.emitted (Workbench.backend text? output)).withWritten
      (ws ++ (b.emission (Workbench.backend text? output)).through on) :=
  congrArg Prod.snd
    (Workbench.run_forwarding text? b.layer on _ ⟨b.world, b.session.outputs, 0⟩ ws)

theorem isWhole_forwarding : (b.forwarding on ws).isWhole (Workbench.backend text? output) =
    b.isWhole (Workbench.backend text? output) := by
  have hrun := congrArg Prod.fst (Workbench.run_forwarding text? b.layer on
    ((Workbench.backend text? output).emit b.program) ⟨b.world, b.session.outputs, 0⟩ ws)
  exact hrun

theorem cutShort_forwarding : (b.forwarding on ws).cutShort (Workbench.backend text? output) =
    (b.cutShort (Workbench.backend text? output)).forwarding on
      (ws ++ (b.emission (Workbench.backend text? output)).through on) := by
  rw [cutShort, cutShort, emitted_forwarding]
  rfl

theorem finished_forwarding (invalidated : Bool) :
    (b.forwarding on ws).finished (Workbench.backend text? output) invalidated =
      (b.finished (Workbench.backend text? output) invalidated).forwarding on
        (ws ++ (b.emission (Workbench.backend text? output)).through on) := by
  have hdelivery : (b.forwarding on ws).delivery (Workbench.backend text? output) =
      b.delivery (Workbench.backend text? output) := by
    rw [delivery, emitted_forwarding]
    rfl
  rw [finished, finished, emitted_forwarding, closing, closing, hdelivery]
  rfl

end Built

namespace Memory

variable (output : Workbench.OutputRule) {d : Driver World Program}
  (on : Bool) (ws : Writes)

theorem refresh_forwarding (h : d.session.followsProject = false) :
    let r := d.session.refresh project d.world
    (d.session.forwarding on).refresh project (d.world.withWritten ws) =
      { r with session := r.session.forwarding on, world := r.world.withWritten ws } := by
  simp only [Session.refresh, Session.forwarding, h]
  rfl

theorem opening_forwarding (h : d.session.followsProject = false) :
    (d.session.forwarding on).opening (scene output).backend project (d.world.withWritten ws) =
      d.session.opening (scene output).backend project d.world := by
  rw [Session.opening, refresh_forwarding on ws h]
  rfl

theorem stage_forwarding (h : d.session.followsProject = false) :
    (d.session.forwarding on).stage (scene output).backend project (d.world.withWritten ws) =
      (d.session.stage (scene output).backend project d.world).map (·.forwarding on ws) := by
  have hstaged : staged (d.forwarding on ws) = (staged d).forwarding on ws := by
    rw [staged, Driver.forwarding, refresh_forwarding on ws h]
    rfl
  have hstage := stage_eq output (d.forwarding on ws)
  rw [hstaged] at hstage
  refine hstage.trans ?_
  rw [stage_eq]
  have hfailure : (d.forwarding on ws).world.store.failure? = d.world.store.failure? := rfl
  rw [hfailure]
  cases d.world.store.failure? <;> rfl

theorem building?_forwarding (h : d.session.followsProject = false) :
    (d.session.forwarding on).building? (scene output).backend project (d.world.withWritten ws) =
      (d.session.building? (scene output).backend project d.world).map (·.forwarding on ws) := by
  rw [Session.building?, Session.building?, stage_forwarding output on ws h]
  cases d.session.stage (scene output).backend project d.world with
  | error cause => rfl
  | ok st =>
    let halts := Diagnostic.Halts st.config.options st.config.errors
    exact (apply_ite (Option.map (·.forwarding on ws)) halts none (some st)).symm

/-- A program is built without writing anything, so nothing goes on. -/
theorem build?_forwarding (st : Stage World Program) :
    (st.forwarding on ws).build? (scene output).backend =
      (st.build? (scene output).backend).map (·.forwarding on ws) := by
  have hcompleted : completed (st.forwarding on ws) = (completed st).forwarding on ws := rfl
  have hfaulty : (st.forwarding on ws).world.isFaulty = st.world.isFaulty := rfl
  rw [build?_eq, build?_eq, hcompleted, hfaulty]
  cases st.world.isFaulty <;> rfl

theorem building?_forwarding_of_eq (h : d.session.followsProject = false) {st : Stage World Program}
    (hstage : d.session.building? (scene output).backend project d.world = some st) :
    (d.session.forwarding on).building? (scene output).backend project (d.world.withWritten ws) =
      some (st.forwarding on ws) := by
  rw [building?_forwarding output on ws h, hstage]
  rfl

theorem build?_forwarding_of_eq {st : Stage World Program} {b : Built World Program}
    (hbuild : st.build? (scene output).backend = some b) :
    (st.forwarding on ws).build? (scene output).backend = some (b.forwarding on ws) := by
  rw [build?_forwarding, hbuild]
  rfl

theorem emitting?_forwarding (h : d.session.followsProject = false) :
    (d.session.forwarding on).emitting? (scene output).backend project (d.world.withWritten ws) =
      (d.session.emitting? (scene output).backend project d.world).map (·.forwarding on ws) := by
  rw [Session.emitting?, Session.emitting?, building?_forwarding output on ws h]
  cases d.session.building? (scene output).backend project d.world with
  | none => rfl
  | some st =>
    rw [Option.map_some, Option.bind_some, Option.bind_some, build?_forwarding output on ws]
    cases st.build? (scene output).backend with
    | none => rfl
    | some b =>
      let halts := Diagnostic.Halts b.config.options (b.diagnostics (scene output).backend)
      rw [Option.map_some, Option.filter_some, Option.filter_some]
      exact (apply_ite (Option.map (·.forwarding on ws)) (decide ¬halts) (some b) none).symm

theorem emission_forwarding (h : d.session.followsProject = false) :
    (scene output).emission (d.forwarding on ws) = (scene output).emission d := by
  have hemitting := emitting?_forwarding output on ws h
  cases hbuilt : d.session.emitting? (scene output).backend project d.world with
  | none =>
    rw [hbuilt] at hemitting
    rw [Scene.emission_of_not_emitting hbuilt,
      Scene.emission_of_not_emitting (d := d.forwarding on ws) hemitting]
  | some b =>
    rw [hbuilt] at hemitting
    rw [Scene.emission_of_emitting hbuilt,
      Scene.emission_of_emitting (d := d.forwarding on ws) hemitting]
    exact Built.emission_forwarding text? output on ws b

/-- **A pass with and without forwarding** differs in what it forwards: its emission, or nothing. -/
theorem pass_forwarding (h : d.session.followsProject = false) :
    (scene output).pass (d.forwarding on ws) =
      ((scene output).pass d).forwarding on (ws ++ ((scene output).emission d).through on) := by
  have hopening := opening_forwarding output on ws h
  have hrefresh := refresh_forwarding on ws h
  have hstages := stage_forwarding output on ws h
  have hsilent : d.session.emitting? (scene output).backend project d.world = none →
      ws ++ ((scene output).emission d).through on = ws := by
    intro hemitting
    rw [Scene.emission_of_not_emitting hemitting, Writes.through_nil, List.append_nil]
  have hcourse : d.session.Course (scene output).backend project d.world
      ((scene output).pass d) := (scene output).course_pass d
  have hpass : (scene output).pass (d.forwarding on ws) =
    (d.session.forwarding on).pass (scene output).backend project (d.world.withWritten ws) := rfl
  rw [hpass]
  generalize (scene output).pass d = pass at hcourse ⊢
  -- The driver with other values takes the same course, and only the last two write anything.
  cases hcourse with
  | unavailable hstage =>
    rw [hstage] at hstages
    rw [hsilent (Session.emitting?_of_not_building (Session.building?_of_unavailable hstage)),
      Session.pass_of_unavailable _ _ _ _ hstages, hopening, hrefresh]
    rfl
  | halted hstage hhalts =>
    rw [hstage] at hstages
    rw [hsilent (Session.emitting?_of_not_building (Session.building?_of_halts hstage hhalts)),
      Session.pass_of_halted _ _ _ _ hstages hhalts, hopening]
    rfl
  | @crashed st hstage hbuild =>
    have hcrash : (st.forwarding on ws).build? (scene output).backend = none := by
      rw [build?_forwarding, hbuild]
      rfl
    rw [hsilent (Session.emitting?_of_crash hstage hbuild),
      Session.pass_of_building _ _ _ _ (building?_forwarding_of_eq output on ws h hstage),
      Stage.build_of_crash _ hcrash, hopening]
    rfl
  | diagnosed hstage hbuild hstop =>
    rw [hsilent (Session.emitting?_of_halts hstage hbuild hstop),
      Session.pass_of_diagnosed _ _ _ _ (building?_forwarding_of_eq output on ws h hstage)
        (build?_forwarding_of_eq output on ws hbuild) hstop, hopening]
    rfl
  | @cutShort st b hstage hbuild hstop hcut =>
    have hemitting := Session.emitting?_eq_some_iff.2 ⟨st, hstage, hbuild, hstop⟩
    have hcut' : (b.forwarding on ws).isWhole (scene output).backend = false :=
      (b.isWhole_forwarding text? output on ws).trans hcut
    have hcutShort : (b.forwarding on ws).cutShort (scene output).backend =
        (b.cutShort (scene output).backend).forwarding on
          (ws ++ (b.emission (scene output).backend).through on) :=
      Built.cutShort_forwarding text? output on ws b
    rw [Scene.emission_of_emitting hemitting,
      Session.pass_of_cut _ _ _ _ (building?_forwarding_of_eq output on ws h hstage)
        (build?_forwarding_of_eq output on ws hbuild) hstop hcut', hopening, hcutShort]
    rfl
  | @emitted st b hstage hbuild hstop hwhole =>
    have hemitting := Session.emitting?_eq_some_iff.2 ⟨st, hstage, hbuild, hstop⟩
    have hwhole' : (b.forwarding on ws).isWhole (scene output).backend = true :=
      (b.isWhole_forwarding text? output on ws).trans hwhole
    have hfinished : ∀ invalidated, (b.forwarding on ws).finished (scene output).backend
        invalidated = (b.finished (scene output).backend invalidated).forwarding on
          (ws ++ (b.emission (scene output).backend).through on) :=
      Built.finished_forwarding text? output on ws b
    rw [Scene.emission_of_emitting hemitting,
      Session.pass_of_emitted _ _ _ _ (building?_forwarding_of_eq output on ws h hstage)
        (build?_forwarding_of_eq output on ws hbuild) hstop hwhole', hopening, hrefresh, hfinished]
    rfl

/-! ## Histories -/

/-- **A history with and without forwarding** differs in what it forwards: its emissions, which are
the same, or nothing. -/
theorem after_forwarding (steps : List (Step Happening)) (h : d.session.followsProject = false) :
    (scene output).after (d.forwarding on ws) steps =
        ((scene output).after d steps).forwarding on
          (ws ++ ((scene output).emissions d steps).through on) ∧
      (scene output).emissions (d.forwarding on ws) steps = (scene output).emissions d steps := by
  induction steps generalizing d ws with
  | nil =>
    refine ⟨?_, rfl⟩
    rw [Scene.emissions, Scene.passes, List.flatMap_nil, Writes.through_nil, List.append_nil]
    rfl
  | cons step rest ih =>
    have hrest : ((scene output).step d step).session.followsProject = false :=
      (Scene.followsProject_step step).trans h
    cases step with
    | request target => exact ih ws hrest
    | outside event => cases event <;> exact ih ws hrest
    | pass =>
      have hstep : (scene output).step (d.forwarding on ws) .pass =
          ((scene output).step d .pass).forwarding on
            (ws ++ ((scene output).emission d).through on) := by
        rw [Scene.step, pass_forwarding output on ws h]
        rfl
      obtain ⟨hafter, hemissions⟩ := ih (ws ++ ((scene output).emission d).through on) hrest
      constructor
      · rw [Scene.after_cons, hstep, hafter, List.append_assoc, ← Writes.through_append]
        rfl
      · calc (scene output).emissions (d.forwarding on ws) (.pass :: rest)
            = (scene output).emission (d.forwarding on ws) ++
                (scene output).emissions ((scene output).step (d.forwarding on ws) .pass) rest :=
              rfl
          _ = (scene output).emission d ++
                (scene output).emissions ((scene output).step d .pass) rest := by
            rw [emission_forwarding output on ws h, hstep, hemissions]

/-- What a pass has collected below: its emission, if its session forwards writes. -/
theorem written_pass (h : d.session.followsProject = false) :
    ((scene output).pass d).world.written =
      d.world.written ++ ((scene output).emission d).through d.session.batch.writeToDisk :=
  congrArg (·.world.written)
    (pass_forwarding output d.session.batch.writeToDisk d.world.written h)

theorem written_after (steps : List (Step Happening)) (h : d.session.followsProject = false) :
    ((scene output).after d steps).world.written =
      d.world.written ++ ((scene output).emissions d steps).through d.session.batch.writeToDisk :=
  congrArg (·.world.written)
    (after_forwarding output d.session.batch.writeToDisk d.world.written steps h).1

end Memory

/-- **Forwarding changes nothing else.** Take the same history twice, under settings that differ in
whether writes are forwarded. Its drivers, and the passes behind it with all that they leave, say
and answer, differ in that setting and in what is collected below, and in nothing else. Without
forwarding, nothing is ever collected; with it, the emissions of all passes are, in order, which are
also what is captured. -/
theorem forwarding_changes_nothing_else (output : Workbench.OutputRule)
    (settings : BatchSettings) (root : FilePath) (w : Memory.World)
    (steps : List (Step Memory.Happening)) :
    let scene := Memory.scene output
    let start (on : Bool) := scene.start (some (settings.forwarding on)) root w
    let quiet := scene.after (start false) steps
    let loud := scene.after (start true) steps
    let ws := scene.emissions (start true) steps
    loud = quiet.forwarding true (w.written ++ ws) ∧
      scene.pass loud =
        (scene.pass quiet).forwarding true (w.written ++ ws ++ scene.emission loud) ∧
      quiet.world.written = w.written ∧ (scene.pass quiet).world.written = w.written ∧
      loud.session.outputs = PathMap.empty.insertAll ws ∧
      (scene.pass loud).session.outputs = PathMap.empty.insertAll (ws ++ scene.emission loud) := by
  intro scene start quiet loud ws
  obtain ⟨hfixed, hbatch⟩ : quiet.session.followsProject = false ∧
      quiet.session.batch = settings.forwarding false :=
    Scene.batch_after_of_not_follows steps rfl
  obtain ⟨hloud, hws⟩ : loud = quiet.forwarding true
        (w.written ++ scene.emissions (start false) steps) ∧
      ws = scene.emissions (start false) steps :=
    Memory.after_forwarding output true w.written steps (d := start false) rfl
  have hemission : scene.emission loud = scene.emission quiet := by
    rw [hloud]
    exact Memory.emission_forwarding output true _ hfixed
  have hwritten : quiet.world.written = w.written := by
    refine (Memory.written_after output steps rfl).trans ?_
    exact List.append_nil _
  refine ⟨hws ▸ hloud, ?_, hwritten, ?_,
    Memory.outputs_eq_emissions output (some (settings.forwarding true)) root w steps⟩
  · rw [hemission, hloud, hws]
    exact Memory.pass_forwarding output true _ hfixed
  · refine (Memory.written_pass output hfixed).trans ?_
    rw [hbatch, hwritten]
    exact List.append_nil _

/-- The first pass over the sample forwards four writes if it forwards any. -/
example : ∀ on : Bool,
    let settings := BatchSettings.default.forwarding on
    let d := (Memory.scene Workbench.annotatedOutput).start (some settings) Sample.root
      Sample.workbench
    ((Memory.scene Workbench.annotatedOutput).pass d).world.written.length =
      if on then 4 else 0 := by
  decide +kernel

end Coalesce
