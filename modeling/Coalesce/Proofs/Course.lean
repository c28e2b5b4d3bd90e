import Coalesce.Proofs.Writes
import Coalesce.Session.Pass

/-!
# The course of a pass

A pass has six ways to end, and `Session.course_pass` says once for all what session, world,
journal and verdict each of them leaves behind:

* *unavailable*: the project cannot say what it consists of;
* *halted*: it can, but its own diagnostics end the pass before the backend is called;
* *crashed*: the backend breaks down over the build;
* *diagnosed*: the program is built, but its diagnostics end the pass;
* *cutShort*: the backend breaks down over the output;
* *emitted*: the output is written and the queue is answered.

Later proofs take a pass apart by cases on its course and never look into the functions that make
it. What a course speaks of are the points between two stages of a pass: a `Stage`, at which the
backend is about to build, and a `Built` stage, at which it is about to write.
-/

namespace Coalesce

variable {W U P : Type}

/-! ## Announcements -/

namespace Diagnostic

/-- Whether announcing a set of diagnostics ends the pass. -/
def Halts (options : BuildOptions) (diagnostics : List Diagnostic) : Prop :=
  diagnostics ≠ [] ∧ options.noEmitOnError = true

instance (options : BuildOptions) (diagnostics : List Diagnostic) :
    Decidable (Halts options diagnostics) :=
  inferInstanceAs (Decidable (_ ∧ _))

theorem announce_of_halts (root : FilePath) {options : BuildOptions} {ds : List Diagnostic}
    (h : Halts options ds) :
    (announce root options ds : Journal U × Option Failure) =
      (ds.map (fun d ↦ .error (d.render root)) ++
        [.trace ⟨"compile", "fail-fast on " ++ Text.counted ds.length "diagnostic"⟩,
          .exit .outputsSkipped],
        some (.diagnosed ds.length)) :=
  if_pos h

theorem announce_of_not_halts (root : FilePath) {options : BuildOptions} {ds : List Diagnostic}
    (h : ¬Halts options ds) :
    (announce root options ds : Journal U × Option Failure) =
      (ds.map (fun d ↦ .error (d.render root)), none) :=
  if_neg h

@[simp] theorem answers_announce (root : FilePath) (options : BuildOptions)
    (ds : List Diagnostic) :
    (announce root options ds : Journal U × Option Failure).1.answers = [] := by
  have hlines : Journal.answers (ds.map fun d ↦ (.error (d.render root) : Event U)) = [] := by
    rw [Journal.answers, List.filterMap_map, List.filterMap_eq_nil_iff]
    exact fun _ _ ↦ rfl
  by_cases h : Halts options ds
  · rw [announce_of_halts root h, Journal.answers_append, hlines]
    rfl
  · rw [announce_of_not_halts root h, hlines]

end Diagnostic

/-! ## Fields of a pass that ends early -/

namespace Pass

@[simp] theorem verdict_after (journal : Journal U) (pass : Pass W U P) :
    (pass.after journal).verdict = pass.verdict := rfl

@[simp] theorem journal_after (journal : Journal U) (pass : Pass W U P) :
    (pass.after journal).journal = journal ++ pass.journal := rfl

theorem after_after (j k : Journal U) (pass : Pass W U P) :
    (pass.after k).after j = pass.after (j ++ k) := by
  simp only [after, List.append_assoc]

end Pass

/-! ## The points between two stages -/

/-- Where a pass stands when the backend is about to build: the project has said what it consists
of and a host is open. -/
structure Stage (W P : Type) where
  config : Configuration
  host : HostId
  session : Session P
  world : W

/-- Where a pass stands when the program is built and in place. -/
structure Built (W P : Type) extends Stage W P where
  program : P
  /-- The number of source units that were served again. -/
  reused : Nat

namespace Stage

variable (backend : Backend W U P)

/-- The host that a program is built with. -/
def buildHost (st : Stage W P) : Host U (Capture W) :=
  (st.session.overlay backend st.session.program? false).host (backend.host st.host)

/-- The program of a stage, unless the backend breaks down. -/
def build? (st : Stage W P) : Option (Built W P) :=
  match backend.build st.config.files st.config.options st.world with
  | (none, _) => none
  | (some dialogue, w) =>
    let (program, c) := dialogue.run (st.buildHost backend) ⟨w, st.session.outputs, 0⟩
    some
      { config := st.config
        host := st.host
        session := { st.session with program? := some program, outputs := c.outputs }
        world := c.world
        program := program
        reused := c.reused }

/-- What the backend writes while it builds. -/
def buildWrites (st : Stage W P) : Writes :=
  match backend.build st.config.files st.config.options st.world with
  | (none, _) => []
  | (some dialogue, w) => dialogue.writes (st.buildHost backend) ⟨w, st.session.outputs, 0⟩

/-- The end of a pass whose backend breaks down. -/
def crashed (st : Stage W P) : Pass W U P where
  session := st.session.withoutRequests
  world := (backend.build st.config.files st.config.options st.world).2
  journal := []
  built := true
  verdict := .crashed

/-- What is said about the configuration of a stage. -/
def notices (st : Stage W P) : Journal U :=
  (Diagnostic.announce st.session.root st.config.options st.config.errors).1

end Stage

namespace Built

variable (backend : Backend W U P)

/-- The host that a program writes its output to. -/
def emitHost (b : Built W P) : Host U (Capture W) :=
  (b.session.overlay backend (some b.program) b.session.batch.writeToDisk).host
    (backend.host b.host)

/-- Whether all of the output gets written. -/
def isWhole (b : Built W P) : Bool :=
  ((backend.emit b.program).run (b.emitHost backend) ⟨b.world, b.session.outputs, 0⟩).1

/-- What has been captured when the output is written, as far as it is. -/
def emitted (b : Built W P) : Capture W :=
  ((backend.emit b.program).run (b.emitHost backend) ⟨b.world, b.session.outputs, 0⟩).2

/-- The output of a program: everything that it writes, in order. -/
def emission (b : Built W P) : Writes :=
  (backend.emit b.program).writes (b.emitHost backend) ⟨b.world, b.session.outputs, 0⟩

/-- The answers to the queue, with the number of those delivered or the source that is missing. -/
def delivery (b : Built W P) : Journal U × Except FilePath Nat :=
  backend.deliver b.program (b.emitted backend).outputs b.session.batch b.session.queue.requests

/-- The diagnostics of a program. -/
def diagnostics (b : Built W P) : List Diagnostic := backend.diagnostics b.program b.world

/-- What is said about a build. -/
def note (b : Built W P) : Trace :=
  ⟨"cache", Text.counted b.reused "source unit" ++ " reused, " ++
    Text.counted b.session.queue.sources.length "file" ++ " queued"⟩

/-- What is said about a program before it writes its output. -/
def notices (b : Built W P) : Journal U :=
  [.trace b.note] ++
    (Diagnostic.announce b.session.root b.config.options (b.diagnostics backend)).1

/-- The last words of a pass whose output is written. -/
def closing (b : Built W P) : Journal U :=
  match (b.delivery backend).2 with
  | .ok _ => []
  | .error missing => [.error (Failure.unknownSource missing).message]

/-- The end of a pass whose backend breaks down over the output. -/
def cutShort (b : Built W P) : Pass W U P where
  session := { b.session.withoutRequests with outputs := (b.emitted backend).outputs }
  world := (b.emitted backend).world
  journal := []
  built := true
  verdict := .crashed

/-- The end of a pass whose output is written. -/
def finished (invalidated : Bool) (b : Built W P) : Pass W U P where
  session := { b.session.withoutRequests with outputs := (b.emitted backend).outputs }
  world := (b.emitted backend).world
  journal := [.info (Session.buildMessage b.config.files.length)] ++ (b.delivery backend).1
    ++ b.closing backend
  built := true
  verdict :=
    match (b.delivery backend).2 with
    | .ok delivered => .finished ⟨b.config.files.length, delivered, b.reused, invalidated⟩
    | .error missing => .failed (.unknownSource missing)

theorem outputs_emitted (b : Built W P) :
    (b.emitted backend).outputs = b.session.outputs.insertAll (b.emission backend) :=
  Overlay.outputs_run _ _ _ _

end Built

namespace Session

variable (backend : Backend W U P) (project : Project W) (s : Session P) (w : W)

/-- The first words of a pass. -/
def opening : Journal U :=
  .info ("compiling project using " ++ backend.name ++ " " ++ backend.version)
    :: (s.refresh project w).traces.map .trace

/-- Where a pass stands when the backend is about to build, unless the project fails. -/
def stage : Except ProjectFailure (Stage W P) :=
  (project.configuration (s.refresh project w).world).map fun config ↦
    let r := s.refresh project w
    { config := config
      host := (r.session.opened backend config.options r.world).1
      session := { r.session with
        host? := some (r.session.opened backend config.options r.world).1 }
      world := (r.session.opened backend config.options r.world).2 }

/-- Where a pass stands when the backend is about to build, if it gets there. -/
def building? : Option (Stage W P) :=
  match s.stage backend project w with
  | .error _ => none
  | .ok st => if Diagnostic.Halts st.config.options st.config.errors then none else some st

/-- Where a pass stands when the backend is about to write its output, if it gets there. -/
def emitting? : Option (Built W P) :=
  ((s.building? backend project w).bind (·.build? backend)).filter fun b ↦
    ¬Diagnostic.Halts b.config.options (b.diagnostics backend)

/-- The ways of a pass, by how far it gets. -/
inductive Course : Pass W U P → Prop where
  | unavailable {cause : ProjectFailure} (hstage : s.stage backend project w = .error cause) :
      Course ((Pass.refused (s.refresh project w).session (s.refresh project w).world
        (.unavailable cause)).after (s.opening backend project w))
  | halted {st : Stage W P} (hstage : s.stage backend project w = .ok st)
      (hhalts : Diagnostic.Halts st.config.options st.config.errors) :
      Course ((Pass.abandoned st.session st.world false
        (.diagnosed st.config.errors.length)).after (s.opening backend project w ++ st.notices))
  | crashed {st : Stage W P} (hstage : s.building? backend project w = some st)
      (hbuild : st.build? backend = none) :
      Course ((st.crashed backend).after (s.opening backend project w ++ st.notices))
  | diagnosed {st : Stage W P} {b : Built W P} (hstage : s.building? backend project w = some st)
      (hbuild : st.build? backend = some b)
      (hstop : Diagnostic.Halts b.config.options (b.diagnostics backend)) :
      Course ((Pass.abandoned b.session b.world true
        (.diagnosed (b.diagnostics backend).length)).after
          (s.opening backend project w ++ st.notices ++ b.notices backend))
  | cutShort {st : Stage W P} {b : Built W P} (hstage : s.building? backend project w = some st)
      (hbuild : st.build? backend = some b)
      (hstop : ¬Diagnostic.Halts b.config.options (b.diagnostics backend))
      (hcut : b.isWhole backend = false) :
      Course ((b.cutShort backend).after
        (s.opening backend project w ++ st.notices ++ b.notices backend))
  | emitted {st : Stage W P} {b : Built W P} (hstage : s.building? backend project w = some st)
      (hbuild : st.build? backend = some b)
      (hstop : ¬Diagnostic.Halts b.config.options (b.diagnostics backend))
      (hwhole : b.isWhole backend = true) :
      Course ((b.finished backend (s.refresh project w).invalidated).after
        (s.opening backend project w ++ st.notices ++ b.notices backend))

end Session

/-! ## What a stage has of the one before -/

namespace Session

variable {backend : Backend W U P} {project : Project W} {s : Session P} {w : W}

theorem stage_eq_ok {st : Stage W P} (h : s.stage backend project w = .ok st) :
    project.configuration (s.refresh project w).world = .ok st.config ∧
      (s.refresh project w).session.opened backend st.config.options (s.refresh project w).world
        = (st.host, st.world) ∧
      st.session = { (s.refresh project w).session with host? := some st.host } := by
  rw [stage] at h
  cases hconfig : project.configuration (s.refresh project w).world with
  | error cause =>
    rw [hconfig] at h
    cases h
  | ok config =>
    rw [hconfig] at h
    cases h
    exact ⟨rfl, rfl, rfl⟩

theorem building?_eq_some_iff {st : Stage W P} :
    s.building? backend project w = some st ↔
      s.stage backend project w = .ok st ∧
        ¬Diagnostic.Halts st.config.options st.config.errors := by
  rw [building?]
  cases s.stage backend project w with
  | error cause => simp
  | ok other =>
    rw [Option.ite_none_left_eq_some, Option.some_inj, Except.ok.injEq, and_comm]
    refine and_congr_right fun hother ↦ ?_
    rw [hother]

theorem building?_of_unavailable {cause : ProjectFailure}
    (h : s.stage backend project w = .error cause) : s.building? backend project w = none := by
  rw [building?, h]

theorem building?_of_halts {st : Stage W P} (h : s.stage backend project w = .ok st)
    (hhalts : Diagnostic.Halts st.config.options st.config.errors) :
    s.building? backend project w = none := by
  rw [building?, h]
  exact if_pos hhalts

theorem emitting?_eq_some_iff {b : Built W P} :
    s.emitting? backend project w = some b ↔
      ∃ st, s.building? backend project w = some st ∧ st.build? backend = some b ∧
        ¬Diagnostic.Halts b.config.options (b.diagnostics backend) := by
  rw [emitting?, Option.filter_eq_some_iff, Option.bind_eq_some_iff, decide_eq_true_iff]
  constructor
  · rintro ⟨⟨st, hstage, hbuild⟩, hstop⟩
    exact ⟨st, hstage, hbuild, hstop⟩
  · rintro ⟨st, hstage, hbuild, hstop⟩
    exact ⟨⟨st, hstage, hbuild⟩, hstop⟩

theorem emitting?_of_not_building (h : s.building? backend project w = none) :
    s.emitting? backend project w = none := by
  rw [emitting?, h]
  rfl

theorem emitting?_of_crash {st : Stage W P} (h : s.building? backend project w = some st)
    (hbuild : st.build? backend = none) : s.emitting? backend project w = none := by
  rw [emitting?, h, Option.bind_some, hbuild]
  rfl

theorem emitting?_of_halts {st : Stage W P} {b : Built W P}
    (h : s.building? backend project w = some st) (hbuild : st.build? backend = some b)
    (hstop : Diagnostic.Halts b.config.options (b.diagnostics backend)) :
    s.emitting? backend project w = none := by
  rw [emitting?, h, Option.bind_some, hbuild]
  exact Option.filter_some_neg (by simpa using hstop)

end Session

namespace Stage

variable {backend : Backend W U P} {st : Stage W P}

theorem build?_eq_some {b : Built W P} (h : st.build? backend = some b) :
    ∃ dialogue w, backend.build st.config.files st.config.options st.world = (some dialogue, w) ∧
      let c := (dialogue.run (st.buildHost backend) ⟨w, st.session.outputs, 0⟩).2
      b.config = st.config ∧ b.host = st.host ∧ b.world = c.world ∧ b.reused = c.reused ∧
        b.program = (dialogue.run (st.buildHost backend) ⟨w, st.session.outputs, 0⟩).1 ∧
        b.session = { st.session with program? := some b.program, outputs := c.outputs } := by
  rw [build?] at h
  cases hbuild : backend.build st.config.files st.config.options st.world with
  | mk dialogue? w =>
    rw [hbuild] at h
    cases dialogue? with
    | none => exact absurd h (by simp)
    | some dialogue =>
      refine ⟨dialogue, w, rfl, ?_⟩
      rw [← Option.some_inj.1 h]
      exact ⟨rfl, rfl, rfl, rfl, rfl, rfl⟩

end Stage

/-! ## Every pass takes one of these courses -/

namespace Built

variable {backend : Backend W U P} {b : Built W P}

theorem finish_of_halts (invalidated : Bool)
    (h : Diagnostic.Halts b.config.options (b.diagnostics backend)) :
    Session.finish backend b.config b.host b.program b.reused invalidated b.session b.world =
      (Pass.abandoned b.session b.world true (.diagnosed (b.diagnostics backend).length)).after
        (Diagnostic.announce b.session.root b.config.options (b.diagnostics backend)).1 := by
  rw [diagnostics] at h ⊢
  rw [Session.finish, Diagnostic.announce_of_halts _ h]

theorem finish_of_cut (invalidated : Bool)
    (h : ¬Diagnostic.Halts b.config.options (b.diagnostics backend))
    (hcut : b.isWhole backend = false) :
    Session.finish backend b.config b.host b.program b.reused invalidated b.session b.world =
      (b.cutShort backend).after
        (Diagnostic.announce b.session.root b.config.options (b.diagnostics backend)).1 := by
  rw [diagnostics] at h ⊢
  rw [isWhole, emitHost] at hcut
  rw [Session.finish, Diagnostic.announce_of_not_halts _ h, cutShort, Pass.after]
  simp only [hcut, Bool.false_eq_true, if_false, emitted, emitHost, List.append_nil]

theorem finish_of_whole (invalidated : Bool)
    (h : ¬Diagnostic.Halts b.config.options (b.diagnostics backend))
    (hwhole : b.isWhole backend = true) :
    Session.finish backend b.config b.host b.program b.reused invalidated b.session b.world =
      (b.finished backend invalidated).after
        (Diagnostic.announce b.session.root b.config.options (b.diagnostics backend)).1 := by
  rw [diagnostics] at h ⊢
  rw [isWhole, emitHost] at hwhole
  rw [Session.finish, Diagnostic.announce_of_not_halts _ h, finished, Pass.after]
  cases hresult : (b.delivery backend).2
  all_goals
    rw [delivery, emitted, emitHost] at hresult
    simp only [hwhole, if_true, hresult, closing, delivery, emitted, emitHost, List.append_assoc]

end Built

namespace Stage

variable {backend : Backend W U P} {st : Stage W P}

theorem build_of_crash (invalidated : Bool) (h : st.build? backend = none) :
    Session.build backend st.config st.host invalidated st.session st.world =
      st.crashed backend := by
  rw [build?] at h
  rw [Session.build, crashed]
  cases hbuild : backend.build st.config.files st.config.options st.world with
  | mk dialogue? w =>
    rw [hbuild] at h
    cases dialogue? with
    | none => rfl
    | some dialogue => exact absurd h (by simp)

theorem build_of_built {b : Built W P} (invalidated : Bool) (h : st.build? backend = some b) :
    Session.build backend st.config st.host invalidated st.session st.world =
      (Session.finish backend b.config b.host b.program b.reused invalidated b.session
        b.world).after [.trace b.note] := by
  rw [build?] at h
  rw [Session.build]
  cases hbuild : backend.build st.config.files st.config.options st.world with
  | mk dialogue? w =>
    rw [hbuild] at h
    cases dialogue? with
    | none => exact absurd h (by simp)
    | some dialogue =>
      rw [← Option.some_inj.1 h]
      rfl

end Stage

namespace Session

variable (backend : Backend W U P) (project : Project W) (s : Session P) (w : W)

theorem pass_of_unavailable {cause : ProjectFailure}
    (h : s.stage backend project w = .error cause) :
    s.pass backend project w =
      (Pass.refused (s.refresh project w).session (s.refresh project w).world
        (.unavailable cause)).after (s.opening backend project w) := by
  rw [stage] at h
  rw [pass]
  cases hconfig : project.configuration (s.refresh project w).world with
  | error cause' =>
    rw [hconfig] at h
    cases h
    rfl
  | ok config =>
    rw [hconfig] at h
    cases h

/-- A pass whose project says what it consists of goes on from its stage. -/
theorem pass_of_stage {st : Stage W P} (h : s.stage backend project w = .ok st) :
    s.pass backend project w =
      (match Diagnostic.announce st.session.root st.config.options st.config.errors with
        | (lines, some failure) =>
          (Pass.abandoned st.session st.world false failure).after lines
        | (lines, none) =>
          (Session.build backend st.config st.host (s.refresh project w).invalidated st.session
            st.world).after lines).after (s.opening backend project w) := by
  rw [stage] at h
  rw [pass]
  cases hconfig : project.configuration (s.refresh project w).world with
  | error cause =>
    rw [hconfig] at h
    cases h
  | ok config =>
    rw [hconfig] at h
    cases h
    rfl

theorem pass_of_halted {st : Stage W P} (hstage : s.stage backend project w = .ok st)
    (hhalts : Diagnostic.Halts st.config.options st.config.errors) :
    s.pass backend project w =
      (Pass.abandoned st.session st.world false (.diagnosed st.config.errors.length)).after
        (s.opening backend project w ++ st.notices) := by
  rw [pass_of_stage backend project s w hstage, Stage.notices, ← Pass.after_after,
    Diagnostic.announce_of_halts _ hhalts]

theorem pass_of_building {st : Stage W P} (hstage : s.building? backend project w = some st) :
    s.pass backend project w =
      (Session.build backend st.config st.host (s.refresh project w).invalidated st.session
        st.world).after (s.opening backend project w ++ st.notices) := by
  obtain ⟨hok, hhalts⟩ := building?_eq_some_iff.1 hstage
  rw [pass_of_stage backend project s w hok, Stage.notices, ← Pass.after_after,
    Diagnostic.announce_of_not_halts _ hhalts]

theorem pass_of_diagnosed {st : Stage W P} {b : Built W P}
    (hstage : s.building? backend project w = some st) (hbuild : st.build? backend = some b)
    (hstop : Diagnostic.Halts b.config.options (b.diagnostics backend)) :
    s.pass backend project w =
      (Pass.abandoned b.session b.world true (.diagnosed (b.diagnostics backend).length)).after
        (s.opening backend project w ++ st.notices ++ b.notices backend) := by
  rw [pass_of_building backend project s w hstage, Stage.build_of_built _ hbuild,
    Built.finish_of_halts _ hstop, Pass.after_after, Pass.after_after, Built.notices,
    List.append_assoc]

theorem pass_of_cut {st : Stage W P} {b : Built W P}
    (hstage : s.building? backend project w = some st) (hbuild : st.build? backend = some b)
    (hstop : ¬Diagnostic.Halts b.config.options (b.diagnostics backend))
    (hcut : b.isWhole backend = false) :
    s.pass backend project w =
      (b.cutShort backend).after
        (s.opening backend project w ++ st.notices ++ b.notices backend) := by
  rw [pass_of_building backend project s w hstage, Stage.build_of_built _ hbuild,
    Built.finish_of_cut _ hstop hcut, Pass.after_after, Pass.after_after, Built.notices,
    List.append_assoc]

theorem pass_of_emitted {st : Stage W P} {b : Built W P}
    (hstage : s.building? backend project w = some st) (hbuild : st.build? backend = some b)
    (hstop : ¬Diagnostic.Halts b.config.options (b.diagnostics backend))
    (hwhole : b.isWhole backend = true) :
    s.pass backend project w =
      (b.finished backend (s.refresh project w).invalidated).after
        (s.opening backend project w ++ st.notices ++ b.notices backend) := by
  rw [pass_of_building backend project s w hstage, Stage.build_of_built _ hbuild,
    Built.finish_of_whole _ hstop hwhole, Pass.after_after, Pass.after_after, Built.notices,
    List.append_assoc]

/-- **Every pass takes one of the six courses.** -/
theorem course_pass : s.Course backend project w (s.pass backend project w) := by
  cases hstage : s.stage backend project w with
  | error cause =>
    rw [pass_of_unavailable backend project s w hstage]
    exact .unavailable hstage
  | ok st =>
    by_cases hhalts : Diagnostic.Halts st.config.options st.config.errors
    · rw [pass_of_halted backend project s w hstage hhalts]
      exact .halted hstage hhalts
    · have hbuilding : s.building? backend project w = some st :=
        building?_eq_some_iff.2 ⟨hstage, hhalts⟩
      cases hbuild : st.build? backend with
      | none =>
        rw [pass_of_building backend project s w hbuilding, Stage.build_of_crash _ hbuild]
        exact .crashed hbuilding hbuild
      | some b =>
        by_cases hstop : Diagnostic.Halts b.config.options (b.diagnostics backend)
        · rw [pass_of_diagnosed backend project s w hbuilding hbuild hstop]
          exact .diagnosed hbuilding hbuild hstop
        · cases hwhole : b.isWhole backend with
          | false =>
            rw [pass_of_cut backend project s w hbuilding hbuild hstop hwhole]
            exact .cutShort hbuilding hbuild hstop hwhole
          | true =>
            rw [pass_of_emitted backend project s w hbuilding hbuild hstop hwhole]
            exact .emitted hbuilding hbuild hstop hwhole

end Session

/-! ## What a pass shows of its build -/

namespace Built

/-- What a pass that has built its program shows of the build, however it ends. -/
structure ShownBy (b : Built W P) (pass : Pass W U P) : Prop where
  program? : pass.session.program? = b.session.program?
  noted : b.note ∈ pass.journal.traces
  counted : ∀ summary, pass.verdict = .finished summary → summary.reused = b.reused

end Built

namespace Session

variable (backend : Backend W U P) (project : Project W) (s : Session P) (w : W)

theorem built_pass :
    (s.pass backend project w).built = (s.building? backend project w).isSome := by
  have hcourse := s.course_pass backend project w
  generalize s.pass backend project w = pass at hcourse ⊢
  cases hcourse with
  | unavailable hstage => rw [building?_of_unavailable hstage]; rfl
  | halted hstage hhalts => rw [building?_of_halts hstage hhalts]; rfl
  | crashed hstage hbuild => rw [hstage]; rfl
  | diagnosed hstage hbuild hstop => rw [hstage]; rfl
  | cutShort hstage hbuild hstop hcut => rw [hstage]; rfl
  | emitted hstage hbuild hstop hwhole => rw [hstage]; rfl

theorem host?_pass {st : Stage W P} (h : s.stage backend project w = .ok st) :
    (s.pass backend project w).session.host? = some st.host := by
  have hcourse := s.course_pass backend project w
  generalize s.pass backend project w = pass at hcourse ⊢
  have hopen : ∀ {st'}, s.stage backend project w = .ok st' →
      st'.session.host? = some st.host := by
    intro st' h'
    rw [(stage_eq_ok h').2.2, Except.ok.inj (h'.symm.trans h)]
  have hstays : ∀ {st'} {b : Built W P}, s.building? backend project w = some st' →
      st'.build? backend = some b → b.session.host? = some st.host := by
    intro st' b hstage hbuild
    obtain ⟨_, _, -, -, -, -, -, -, hsession⟩ := Stage.build?_eq_some hbuild
    rw [hsession]
    exact hopen (building?_eq_some_iff.1 hstage).1
  cases hcourse with
  | unavailable hstage => cases h.symm.trans hstage
  | halted hstage hhalts => exact hopen hstage
  | crashed hstage hbuild => exact hopen (building?_eq_some_iff.1 hstage).1
  | diagnosed hstage hbuild hstop => exact hstays hstage hbuild
  | cutShort hstage hbuild hstop hcut => exact hstays hstage hbuild
  | emitted hstage hbuild hstop hwhole => exact hstays hstage hbuild

/-- A built program is there behind the pass, and the pass says how it was built. -/
theorem shown_by_pass {st : Stage W P} {b : Built W P}
    (hstage : s.building? backend project w = some st) (hbuild : st.build? backend = some b) :
    b.ShownBy (s.pass backend project w) := by
  have hnote : ∀ journal : Journal U, b.note ∈ (journal ++ b.notices backend).traces := by
    intro journal
    rw [Journal.traces_append, List.mem_append]
    exact Or.inr List.mem_cons_self
  by_cases hstop : Diagnostic.Halts b.config.options (b.diagnostics backend)
  · rw [pass_of_diagnosed backend project s w hstage hbuild hstop]
    refine ⟨rfl, ?_, fun summary h ↦ ?_⟩
    · rw [Pass.journal_after, Journal.traces_append]
      exact List.mem_append_left _ (hnote _)
    · cases h
  · cases hwhole : b.isWhole backend with
    | false =>
      rw [pass_of_cut backend project s w hstage hbuild hstop hwhole]
      refine ⟨rfl, ?_, fun summary h ↦ ?_⟩
      · rw [Pass.journal_after, Journal.traces_append]
        exact List.mem_append_left _ (hnote _)
      · cases h
    | true =>
      rw [pass_of_emitted backend project s w hstage hbuild hstop hwhole]
      refine ⟨rfl, ?_, fun summary h ↦ ?_⟩
      · rw [Pass.journal_after, Journal.traces_append]
        exact List.mem_append_left _ (hnote _)
      · rw [Pass.verdict_after, Built.finished] at h
        cases hresult : (b.delivery backend).2 with
        | error missing => simp [hresult] at h
        | ok delivered =>
          simp only [hresult, Verdict.finished.injEq] at h
          rw [← h]

end Session

end Coalesce
