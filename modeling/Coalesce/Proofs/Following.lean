import Coalesce.Proofs.Capture

/-!
# Whose settings are in force

A session with settings of its own keeps them. One that follows its project takes the project's
settings when it is created and once more in every pass, behind the poll and before anything can
fail, so however a pass ends, it ends under the settings that it took (`Session.batch_pass`).

The two moments differ where the project has no settings: a new session takes the default ones,
while a pass leaves those in force as they are. So the settings in force are the last ones that the
project had at any of these moments (`Scene.batch_after`), and a session that is created behind the
poll of a pass agrees with the pass just if the project has settings then, or those in force are the
default ones anyway.
-/

namespace Coalesce

variable {W U P E : Type}

/-! ## One pass -/

namespace Session

variable {backend : Backend W U P} {project : Project W} {s : Session P} {w : W}

theorem batch_refresh : (s.refresh project w).session.batch =
    if s.followsProject then followed project (project.poll w).2.2 s.batch else s.batch := rfl

theorem batch_stage {st : Stage W P} (h : s.stage backend project w = .ok st) :
    st.session.batch = (s.refresh project w).session.batch ∧
      st.session.followsProject = s.followsProject := by
  rw [(stage_eq_ok h).2.2]
  exact ⟨rfl, rfl⟩

theorem batch_built {st : Stage W P} {b : Built W P}
    (hstage : s.building? backend project w = some st) (hbuild : st.build? backend = some b) :
    b.session.batch = (s.refresh project w).session.batch ∧
      b.session.followsProject = s.followsProject := by
  obtain ⟨_, _, -, -, -, -, -, -, hsession⟩ := Stage.build?_eq_some hbuild
  rw [hsession]
  exact batch_stage (building?_eq_some_iff.1 hstage).1

variable (backend project s w) in
/-- **A pass ends under the settings that it took**, and a session that follows its project goes on
to do so. -/
theorem batch_pass :
    (s.pass backend project w).session.batch = (s.refresh project w).session.batch ∧
      (s.pass backend project w).session.followsProject = s.followsProject := by
  have hcourse := s.course_pass backend project w
  generalize s.pass backend project w = pass at hcourse ⊢
  cases hcourse with
  | unavailable hstage => exact ⟨rfl, rfl⟩
  | halted hstage hhalts => exact batch_stage hstage
  | crashed hstage hbuild => exact batch_stage (building?_eq_some_iff.1 hstage).1
  | diagnosed hstage hbuild hstop => exact batch_built hstage hbuild
  | cutShort hstage hbuild hstop hcut => exact batch_built hstage hbuild
  | emitted hstage hbuild hstop hwhole => exact batch_built hstage hbuild

/-- The settings under which the output of a pass is written and its requests are answered are those
in force behind the pass. -/
theorem batch_emitting {b : Built W P} (h : s.emitting? backend project w = some b) :
    b.session.batch = (s.pass backend project w).session.batch := by
  obtain ⟨st, hstage, hbuild, -⟩ := emitting?_eq_some_iff.1 h
  rw [(batch_built hstage hbuild).1, (batch_pass backend project s w).1]

end Session

/-! ## Histories -/

namespace Scene

variable (scene : Scene W U P E)

/-- The world behind the poll of the next pass. -/
def polled (d : Driver W P) : W := (scene.project.poll d.world).2.2

/-- The settings that the project has at the polls of a history, whenever it has any. -/
def offered (d : Driver W P) (steps : List (Step E)) : List BatchSettings :=
  (scene.passes d steps).filterMap fun e ↦ scene.project.batch? (scene.polled e)

variable {scene} {d : Driver W P}

theorem followsProject_step (step : Step E) :
    (scene.step d step).session.followsProject = d.session.followsProject := by
  cases step with
  | request target => rfl
  | pass => exact (Session.batch_pass _ _ _ _).2
  | outside event => rfl

theorem batch_pass_of_follows (h : d.session.followsProject = true) :
    (scene.pass d).session.batch =
      (scene.project.batch? (scene.polled d)).getD d.session.batch := by
  rw [pass, (Session.batch_pass _ _ _ _).1, Session.batch_refresh, if_pos h]
  rfl

theorem batch_pass_of_not_follows (h : d.session.followsProject = false) :
    (scene.pass d).session.batch = d.session.batch := by
  rw [pass, (Session.batch_pass _ _ _ _).1, Session.batch_refresh, h]
  rfl

/-- **The settings in force** behind a history are the last ones that the project had at one of its
polls, or those from before. -/
theorem batch_after (steps : List (Step E)) (h : d.session.followsProject = true) :
    (scene.after d steps).session.batch =
      (scene.offered d steps).getLast?.getD d.session.batch := by
  induction steps generalizing d with
  | nil => rfl
  | cons step rest ih =>
    rw [after_cons, ih ((followsProject_step step).trans h)]
    cases step with
    | request target => rfl
    | outside event => rfl
    | pass =>
      have hbatch : (scene.step d .pass).session.batch =
          (scene.project.batch? (scene.polled d)).getD d.session.batch := batch_pass_of_follows h
      rw [hbatch, offered, offered, passes, List.filterMap_cons]
      cases scene.project.batch? (scene.polled d) with
      | none => rfl
      | some settings => rw [List.getLast?_cons, Option.getD_some, Option.getD_some]

theorem batch_after_of_not_follows (steps : List (Step E)) (h : d.session.followsProject = false) :
    (scene.after d steps).session.followsProject = false ∧
      (scene.after d steps).session.batch = d.session.batch := by
  refine after_induction (I := fun e : Driver W P ↦
    e.session.followsProject = false ∧ e.session.batch = d.session.batch) ⟨h, rfl⟩ ?_
  rintro e step - ⟨hfixed, hbatch⟩
  refine ⟨(followsProject_step step).trans hfixed, ?_⟩
  cases step with
  | request target => exact hbatch
  | pass => exact (batch_pass_of_not_follows hfixed).trans hbatch
  | outside event => exact hbatch

end Scene

/-- **Settings follow the project** as long as it has any. Take any history of a session without
settings of its own, and the pass behind it. The settings in force before the pass are the last ones
that the project had when the session was created or at one of the polls, or the default ones if it
never had any. The pass writes its output, answers its requests and ends under those that the
project has at its poll, or else under the ones before. A session created behind the poll has the
same just if the project has settings then or the ones before are the default ones. A session with
settings of its own never has others. -/
theorem settings_current_iff (scene : Scene W U P E) (root : FilePath) (w : W)
    (steps : List (Step E)) :
    let start := scene.start none root w
    let d := scene.after start steps
    let pass := scene.pass d
    let had := (scene.project.batch? w).toList ++ scene.offered start steps
    let now? := scene.project.batch? (scene.polled d)
    let fresh : Session P := .create scene.project none root (scene.polled d)
    d.session.batch = had.getLast?.getD .default ∧
      pass.session.batch = now?.getD d.session.batch ∧
      (∀ b ∈ d.session.emitting? scene.backend scene.project d.world,
        b.session.batch = pass.session.batch) ∧
      (pass.session.batch = fresh.batch ↔
        now?.isSome = true ∨ had.getLast?.getD .default = .default) ∧
      ∀ settings,
        let d := scene.after (scene.start (some settings) root w) steps
        d.session.batch = settings ∧ (scene.pass d).session.batch = settings ∧
          ∀ b ∈ d.session.emitting? scene.backend scene.project d.world,
            b.session.batch = settings := by
  intro start d pass had now? fresh
  have hfollows : d.session.followsProject = true :=
    Scene.after_induction (I := fun e ↦ e.session.followsProject = true) rfl
      fun e step _ h ↦ (Scene.followsProject_step step).trans h
  have hbefore : d.session.batch = had.getLast?.getD .default := by
    have hcreated : start.session.batch = (scene.project.batch? w).getD .default := rfl
    rw [Scene.batch_after steps rfl, hcreated, List.getLast?_append]
    cases (scene.offered start steps).getLast? <;> cases scene.project.batch? w <;> rfl
  have hpass : pass.session.batch = now?.getD d.session.batch :=
    Scene.batch_pass_of_follows hfollows
  have hfresh : fresh.batch = now?.getD .default := rfl
  refine ⟨hbefore, hpass, fun b hb ↦ Session.batch_emitting hb, ?_, ?_⟩
  · rw [hpass, hfresh, ← hbefore]
    cases now? <;> simp
  · intro settings d
    obtain ⟨hfixed, hbatch⟩ :=
      Scene.batch_after_of_not_follows (d := scene.start (some settings) root w) steps rfl
    have hpass : (scene.pass d).session.batch = settings :=
      (Scene.batch_pass_of_not_follows hfixed).trans hbatch
    exact ⟨hbatch, hpass, fun b hb ↦ (Session.batch_emitting hb).trans hpass⟩

/-- A history of the sample project that leads from settings to other ones: those that it has when a
pass fails because the project does are the last. -/
def Sample.reconfigured : List (Step Memory.Happening) := [
  .outside (.batch (some ⟨40, ".map", true⟩)), .request (target "a"), .pass,
  .outside (.failure (some failure)), .outside (.batch (some ⟨60, ".m", false⟩))]

/-- The failing pass takes the new settings, as a new session would. -/
theorem settings_current_reconfigured :
    let scene := Memory.scene Workbench.annotatedOutput
    let d := scene.after (scene.start none Sample.root Sample.workbench) Sample.reconfigured
    let fresh : Session Program := .create scene.project none Sample.root (scene.polled d)
    (scene.pass d).verdict = .failed (.unavailable Sample.failure) ∧
      (scene.pass d).session.batch = fresh.batch ∧ fresh.batch = ⟨60, ".m", false⟩ := by
  intro scene d fresh
  obtain ⟨hverdict, hnow, hfresh⟩ :
      (scene.pass d).verdict = .failed (.unavailable Sample.failure) ∧
        (scene.project.batch? (scene.polled d)).isSome = true ∧
        fresh.batch = ⟨60, ".m", false⟩ := by decide +kernel
  have hcurrent := settings_current_iff scene Sample.root Sample.workbench Sample.reconfigured
  exact ⟨hverdict, hcurrent.2.2.2.1.2 (Or.inl hnow), hfresh⟩

/-- A history in which the project has settings and then none. -/
def Sample.unconfigured : List (Step Memory.Happening) := [
  .outside (.batch (some ⟨40, ".m", true⟩)), .pass,
  .outside (.batch none), .request (target "a")]

/-- The next pass still goes by the settings that the project had, and forwards writes and misses
the source map for it, while a new session has the default ones. -/
theorem settings_outlive_project :
    let scene := Memory.scene Workbench.annotatedOutput
    let d := scene.after (scene.start none Sample.root Sample.workbench) Sample.unconfigured
    let fresh : Session Program := .create scene.project none Sample.root (scene.polled d)
    let a := { Sample.firstOutput "export const a: number = 1;" 4 with map? := none }
    (scene.pass d).session.batch = ⟨40, ".m", true⟩ ∧ fresh.batch = .default ∧
      (scene.pass d).session.batch ≠ fresh.batch ∧
      (scene.pass d).world.written ≠ d.world.written ∧
      (⟨0, Sample.target "a"⟩, a) ∈ (scene.pass d).journal.deliveries := by
  decide +kernel

end Coalesce
