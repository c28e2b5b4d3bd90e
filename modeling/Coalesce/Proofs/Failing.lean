import Coalesce.Proofs.Answers

/-!
# What a failed pass leaves alone

A pass can fail at four points: the project cannot say what it consists of, the diagnostics of the
configuration or those of the program end it, or somebody asks for a source that the program does
not have. At each of them it has done more already. A project that fails stops it before a host is
opened (`Memory.TurnsAway`), diagnostics of the configuration before the backend is called, and
those of the program behind it (`Memory.StopsShort`). But only at the last point has anything been
captured or come through to be written, so at the others the outputs are what they were.

Both announcements of diagnostics go through `Diagnostic.announce`, which alone asks the process to
end, and only if it ends the pass. So the process is asked to end just by a pass that ends over
diagnostics, and once (`Session.exits_pass`).
-/

namespace Coalesce

variable {W U P : Type}

/-! ## What is said in a journal -/

namespace Journal

@[simp] theorem exits_traces (lines : List Trace) :
    exits (lines.map (.trace : Trace → Event U)) = [] := by
  rw [exits, List.filterMap_map, List.filterMap_eq_nil_iff]
  exact fun _ _ ↦ rfl

@[simp] theorem errors_traces (lines : List Trace) :
    errors (lines.map (.trace : Trace → Event U)) = [] := by
  rw [errors, List.filterMap_map, List.filterMap_eq_nil_iff]
  exact fun _ _ ↦ rfl

@[simp] theorem exits_messages (root : FilePath) (ds : List Diagnostic) :
    exits (ds.map fun d ↦ (.error (d.render root) : Event U)) = [] := by
  rw [exits, List.filterMap_map, List.filterMap_eq_nil_iff]
  exact fun _ _ ↦ rfl

@[simp] theorem errors_messages (root : FilePath) (ds : List Diagnostic) :
    errors (ds.map fun d ↦ (.error (d.render root) : Event U)) = ds.map (·.render root) := by
  rw [errors, List.filterMap_map, ← List.filterMap_eq_map]
  rfl

/-- Some messages are logged as errors, in order, and then the process is asked to end; no other
error is logged, and the process is not asked to end again. -/
def EndsOver (j : Journal U) (messages : List String) : Prop :=
  ∃ before behind : Journal U, j = before ++ .exit .outputsSkipped :: behind ∧
    before.errors = messages ∧ before.exits = [] ∧ behind.errors = [] ∧ behind.exits = []

variable {j k : Journal U} {messages : List String}

theorem EndsOver.exits_eq (h : j.EndsOver messages) : j.exits = [.outputsSkipped] := by
  obtain ⟨before, behind, rfl, -, hbefore, -, hbehind⟩ := h
  rw [exits_append, hbefore, List.nil_append]
  exact congrArg (_ :: ·) hbehind

theorem EndsOver.prepend (h : j.EndsOver messages) (herrors : k.errors = [])
    (hexits : k.exits = []) : EndsOver (k ++ j) messages := by
  obtain ⟨before, behind, rfl, hmessages, hbefore, hbehind⟩ := h
  refine ⟨k ++ before, behind, (List.append_assoc _ _ _).symm, ?_, ?_, hbehind⟩
  · rw [errors_append, herrors, hmessages, List.nil_append]
  · rw [exits_append, hexits, hbefore, List.nil_append]

theorem EndsOver.append (h : j.EndsOver messages) (herrors : k.errors = [])
    (hexits : k.exits = []) : EndsOver (j ++ k) messages := by
  obtain ⟨before, behind, rfl, hmessages, hbefore, hsilent, hbehind⟩ := h
  refine ⟨before, behind ++ k, List.append_assoc _ _ _, hmessages, hbefore, ?_, ?_⟩
  · rw [errors_append, hsilent, herrors, List.nil_append]
  · rw [exits_append, hbehind, hexits, List.nil_append]

end Journal

namespace Delivery

@[simp] theorem exits_refusals (requests : List Request) (failure : Failure) :
    (refusals requests failure : Journal U).exits = [] := by
  rw [refusals, Journal.exits, List.filterMap_map, List.filterMap_eq_nil_iff]
  exact fun _ _ ↦ rfl

@[simp] theorem exits_answers (artifact? : Target → Option (Artifact U)) (requests : List Request) :
    (answers artifact? requests).1.exits = [] := by
  induction requests with
  | nil => rfl
  | cons r rest ih =>
    rw [answers]
    cases artifact? r.target with
    | none => exact exits_refusals rest _
    | some artifact => exact ih

end Delivery

theorem Diagnostic.endsOver_announce (root : FilePath) {options : BuildOptions}
    {ds : List Diagnostic} (h : Halts options ds) :
    (announce root options ds : Journal U × Option Failure).1.EndsOver
      (ds.map (·.render root)) := by
  refine ⟨ds.map (fun d ↦ .error (d.render root)) ++
    [.trace ⟨"compile", "fail-fast on " ++ Text.counted ds.length "diagnostic"⟩], [], ?_, ?_, ?_,
    rfl, rfl⟩
  · rw [announce_of_halts root h, List.append_assoc]
    rfl
  · rw [Journal.errors_append, Journal.errors_messages]
    exact List.append_nil _
  · rw [Journal.exits_append, Journal.exits_messages]
    rfl

theorem Diagnostic.exits_announce (root : FilePath) (options : BuildOptions)
    (ds : List Diagnostic) :
    (announce root options ds : Journal U × Option Failure).1.exits =
      if Halts options ds then [.outputsSkipped] else [] := by
  by_cases h : Halts options ds
  · rw [if_pos h, (endsOver_announce root h).exits_eq]
  · rw [announce_of_not_halts root h, if_neg h, Journal.exits_messages]

theorem Diagnostic.announce_nil (root : FilePath) (options : BuildOptions) :
    (announce root options [] : Journal U × Option Failure).1 = [] := by
  rw [announce_of_not_halts root fun h ↦ h.1 rfl]
  rfl

namespace Session

variable (backend : Backend W U P) (project : Project W) (s : Session P) (w : W)

@[simp] theorem exits_opening : (s.opening backend project w).exits = [] :=
  Journal.exits_traces _

@[simp] theorem errors_opening : (s.opening backend project w).errors = [] :=
  Journal.errors_traces _

theorem endsOver_opening {j : Journal U} {messages : List String} (h : j.EndsOver messages) :
    Journal.EndsOver (s.opening backend project w ++ j) messages :=
  h.prepend (errors_opening backend project s w) (exits_opening backend project s w)

end Session

theorem Stage.exits_notices (st : Stage W P) : (st.notices : Journal U).exits =
    if Diagnostic.Halts st.config.options st.config.errors then [.outputsSkipped] else [] := by
  rw [notices, Diagnostic.exits_announce]

namespace Built

variable (backend : Backend W U P) (b : Built W P)

theorem exits_notices : (b.notices backend).exits =
    if Diagnostic.Halts b.config.options (b.diagnostics backend) then [.outputsSkipped]
      else [] := by
  rw [notices, Journal.exits_append, Diagnostic.exits_announce]
  rfl

theorem exits_finished (invalidated : Bool) :
    (b.finished backend invalidated).journal.exits = [] := by
  have hclosing : (b.closing backend).exits = [] := by
    rw [closing]
    cases (b.delivery backend).2 <;> rfl
  rw [finished, Journal.exits_append, Journal.exits_append, hclosing, delivery, Backend.deliver,
    Delivery.exits_answers]
  rfl

variable {backend b} in
/-- All that a pass can still fail for once its output is written is a source that is missing. -/
theorem eq_unknownSource_of_finished {invalidated : Bool} {failure : Failure}
    (h : (b.finished backend invalidated).verdict = .failed failure) :
    ∃ missing, failure = .unknownSource missing := by
  rw [finished] at h
  dsimp only at h
  split at h <;> cases h
  exact ⟨_, rfl⟩

end Built

namespace Session

variable (backend : Backend W U P) (project : Project W) (s : Session P) (w : W)

/-- **When the process is asked to end**: just by a pass that ends over diagnostics, and once. -/
theorem exits_pass : (s.pass backend project w).journal.exits =
    if (s.pass backend project w).verdict.isDiagnosed then [.outputsSkipped] else [] := by
  have hcourse := s.course_pass backend project w
  generalize s.pass backend project w = pass at hcourse ⊢
  -- Where a pass goes on to build, what was announced before has not ended it.
  have hquiet : ∀ {st : Stage W P}, s.building? backend project w = some st →
      (st.notices : Journal U).exits = [] := by
    intro st hstage
    rw [Stage.exits_notices, if_neg (building?_eq_some_iff.1 hstage).2]
  cases hcourse with
  | unavailable hstage =>
    rw [Pass.journal_after, Journal.exits_append, exits_opening]
    exact Delivery.exits_refusals _ _
  | halted hstage hhalts =>
    rw [Pass.journal_after, Journal.exits_append, Journal.exits_append, exits_opening,
      Stage.exits_notices, if_pos hhalts]
    rfl
  | crashed hstage hbuild =>
    rw [Pass.journal_after, Journal.exits_append, Journal.exits_append, exits_opening,
      hquiet hstage]
    rfl
  | diagnosed hstage hbuild hstop =>
    rw [Pass.journal_after, Journal.exits_append, Journal.exits_append, Journal.exits_append,
      exits_opening, hquiet hstage, Built.exits_notices, if_pos hstop]
    rfl
  | cutShort hstage hbuild hstop hcut =>
    rw [Pass.journal_after, Journal.exits_append, Journal.exits_append, Journal.exits_append,
      exits_opening, hquiet hstage, Built.exits_notices, if_neg hstop]
    rfl
  | emitted hstage hbuild hstop hwhole =>
    rw [Pass.verdict_after, Built.isDiagnosed_finished, Pass.journal_after, Journal.exits_append,
      Journal.exits_append, Journal.exits_append, exits_opening, hquiet hstage,
      Built.exits_notices, if_neg hstop, Built.exits_finished]
    rfl

end Session

namespace Memory

/-- The diagnostics that are announced first of all: those of the configuration, or those of the
program if it has none. -/
def foremost (d : Driver World Program) : List Diagnostic :=
  if d.world.store.configuration.errors = [] then d.world.diagnostics
  else d.world.store.configuration.errors

/-- What a pass leaves alone although it fails. -/
structure Spares (d : Driver World Program) (pass : Pass World SourceText Program) : Prop where
  outputs : pass.session.outputs = d.session.outputs
  written : pass.world.written = d.world.written

/-- How a pass ends when the project fails. -/
structure TurnsAway (d : Driver World Program) (pass : Pass World SourceText Program)
    (cause : ProjectFailure) : Prop extends Spares d pass where
  built : pass.built = false
  programs : pass.world.programs = d.world.programs
  hosts : pass.world.hosts = d.world.hosts
  exits : pass.journal.exits = []
  /-- The program is kept unless a change has dropped it. -/
  program? : pass.session.program? = reusable? d
  answers : pass.journal.answers =
    d.session.queue.requests.map fun r ↦ (r, .error (.unavailable cause))

/-- How a pass ends over diagnostics. -/
structure StopsShort (d : Driver World Program) (pass : Pass World SourceText Program)
    (count : Nat) : Prop extends Spares d pass where
  halts : Diagnostic.Halts d.world.store.configuration.options (foremost d)
  count : count = (foremost d).length
  announced : pass.journal.EndsOver ((foremost d).map (·.render d.session.root))
  built : pass.built = true ↔ d.world.store.configuration.errors = []
  programs : pass.world.programs =
    d.world.programs + if d.world.store.configuration.errors = [] then 1 else 0

variable {output : Workbench.OutputRule} {d : Driver World Program}

theorem turnsAway_refused (cause : ProjectFailure) :
    let r := d.session.refresh project d.world
    TurnsAway d ((Pass.refused r.session r.world (.unavailable cause)).after
      (d.session.opening (scene output).backend project d.world)) cause where
  outputs := rfl
  written := rfl
  built := rfl
  programs := rfl
  hosts := rfl
  exits := by
    rw [Pass.journal_after, Journal.exits_append, Session.exits_opening, List.nil_append]
    exact Delivery.exits_refusals _ _
  program? := program?_refresh d
  answers := by
    rw [Pass.answers_after Session.answers_opening]
    exact Delivery.answers_refusals _ _

/-- Over the diagnostics of the configuration a pass ends before the backend is called. -/
theorem stopsShort_halted
    (h : Diagnostic.Halts d.world.store.configuration.options d.world.store.configuration.errors) :
    let errors := d.world.store.configuration.errors
    StopsShort d ((Pass.abandoned (staged d).session (staged d).world false
      (.diagnosed errors.length)).after
        (d.session.opening (scene output).backend project d.world ++ (staged d).notices))
      errors.length := by
  intro errors
  have hforemost : foremost d = errors := if_neg h.1
  have hnotices : ((staged d).notices : Journal SourceText).EndsOver
      (errors.map (·.render d.session.root)) :=
    Diagnostic.endsOver_announce d.session.root h
  exact
    { outputs := rfl
      written := rfl
      halts := hforemost.symm ▸ h
      count := by rw [hforemost]
      announced := by
        rw [hforemost]
        exact (Session.endsOver_opening _ _ _ _ hnotices).append rfl rfl
      built := iff_of_false Bool.false_ne_true h.1
      programs := by rw [if_neg h.1]; rfl }

/-- Over the diagnostics of the program a pass ends only if the configuration has none, since both
are announced under the same options. -/
theorem stopsShort_diagnosed {b : Built World Program} (hb : completed (staged d) = b)
    (hpassed : ¬Diagnostic.Halts d.world.store.configuration.options
      d.world.store.configuration.errors)
    (h : Diagnostic.Halts d.world.store.configuration.options d.world.diagnostics) :
    StopsShort d ((Pass.abandoned b.session b.world true
      (.diagnosed d.world.diagnostics.length)).after
        (d.session.opening (scene output).backend project d.world ++ (staged d).notices ++
          b.notices (scene output).backend))
      d.world.diagnostics.length := by
  subst hb
  -- An error in the configuration would have ended the pass under the same options.
  have hnone : d.world.store.configuration.errors = [] := by
    by_contra herrors
    exact hpassed ⟨herrors, h.2⟩
  have hforemost : foremost d = d.world.diagnostics := if_pos hnone
  have hsilent : ((staged d).notices : Journal SourceText) = [] := by
    rw [Stage.notices, staged, hnone]
    exact Diagnostic.announce_nil _ _
  have hnotices : ((completed (staged d)).notices (scene output).backend).EndsOver
      (d.world.diagnostics.map (·.render d.session.root)) :=
    (Diagnostic.endsOver_announce d.session.root h).prepend rfl rfl
  exact
    { outputs := rfl
      written := rfl
      halts := hforemost.symm ▸ h
      count := by rw [hforemost]
      announced := by
        rw [hforemost, hsilent, List.append_nil]
        exact (Session.endsOver_opening _ _ _ _ hnotices).append rfl rfl
      built := iff_of_true rfl hnone
      programs := by rw [if_pos hnone]; rfl }

theorem programs_pass (output : Workbench.OutputRule) (d : Driver World Program) :
    ((scene output).pass d).world.programs =
      d.world.programs + if ((scene output).pass d).built then 1 else 0 := by
  have hcourse := (scene output).course_pass d
  generalize (scene output).pass d = pass at hcourse ⊢
  cases hcourse with
  | unavailable hstage => rfl
  | halted hstage hhalts =>
    obtain ⟨-, rfl⟩ := stage_eq_ok_iff.1 hstage
    rfl
  | crashed hstage hbuild =>
    obtain rfl := staged_of_building hstage
    rfl
  | diagnosed hstage hbuild hstop =>
    obtain rfl := staged_of_building hstage
    obtain ⟨-, rfl⟩ := build?_eq_some_iff.1 hbuild
    rfl
  | cutShort hstage hbuild hstop hcut =>
    obtain rfl := staged_of_building hstage
    obtain ⟨-, rfl⟩ := build?_eq_some_iff.1 hbuild
    exact (kept_emitted output _).programs
  | emitted hstage hbuild hstop hwhole =>
    obtain rfl := staged_of_building hstage
    obtain ⟨-, rfl⟩ := build?_eq_some_iff.1 hbuild
    exact (kept_emitted output _).programs

theorem turnsAway_pass {cause : ProjectFailure}
    (h : ((scene output).pass d).verdict = .failed (.unavailable cause)) :
    TurnsAway d ((scene output).pass d) cause := by
  have hcourse := (scene output).course_pass d
  generalize (scene output).pass d = pass at hcourse h ⊢
  cases hcourse with
  | unavailable hstage =>
    cases h
    exact turnsAway_refused cause
  | halted hstage hhalts => cases h
  | crashed hstage hbuild => cases h
  | diagnosed hstage hbuild hstop => cases h
  | cutShort hstage hbuild hstop hcut => cases h
  | emitted hstage hbuild hstop hwhole =>
    obtain ⟨missing, hmissing⟩ := Built.eq_unknownSource_of_finished h
    cases hmissing

theorem stopsShort_pass {count : Nat}
    (h : ((scene output).pass d).verdict = .failed (.diagnosed count)) :
    StopsShort d ((scene output).pass d) count := by
  have hcourse := (scene output).course_pass d
  generalize (scene output).pass d = pass at hcourse h ⊢
  cases hcourse with
  | unavailable hstage => cases h
  | halted hstage hhalts =>
    obtain ⟨-, rfl⟩ := stage_eq_ok_iff.1 hstage
    cases h
    exact stopsShort_halted hhalts
  | crashed hstage hbuild => cases h
  | diagnosed hstage hbuild hstop =>
    obtain rfl := staged_of_building hstage
    have hpassed := (Session.building?_eq_some_iff.1 hstage).2
    obtain ⟨-, rfl⟩ := build?_eq_some_iff.1 hbuild
    cases h
    exact stopsShort_diagnosed rfl hpassed hstop
  | cutShort hstage hbuild hstop hcut => cases h
  | emitted hstage hbuild hstop hwhole =>
    obtain ⟨missing, hmissing⟩ := Built.eq_unknownSource_of_finished h
    cases hmissing

end Memory

/-- **A failed pass leaves outputs intact.** If a pass fails because the project does, nothing is
opened, built, captured or written, the process is not asked to end, and everybody who waits is told
of the failure. If it ends over diagnostics, nothing is captured or written either, and the process
is asked to end once, behind one error for each of the diagnostics that are announced first; the
backend was called just if these are not those of the configuration. No other pass asks the process
to end, and no pass calls the backend to build or asks the process to end twice. -/
theorem failed_pass_spares_outputs (output : Workbench.OutputRule)
    (d : Driver Memory.World Program) :
    let scene := Memory.scene output
    let pass := scene.pass d
    (∀ cause, pass.verdict = .failed (.unavailable cause) → Memory.TurnsAway d pass cause) ∧
      (∀ count, pass.verdict = .failed (.diagnosed count) → Memory.StopsShort d pass count) ∧
      (pass.verdict.isDiagnosed = false → pass.journal.exits = []) ∧
      pass.world.programs = d.world.programs + (if pass.built then 1 else 0) ∧
      pass.journal.exits.length ≤ 1 := by
  intro scene pass
  have hexits : pass.journal.exits = if pass.verdict.isDiagnosed then [.outputsSkipped] else [] :=
    Session.exits_pass _ _ _ _
  refine ⟨fun cause ↦ Memory.turnsAway_pass, fun count ↦ Memory.stopsShort_pass, fun h ↦ ?_,
    Memory.programs_pass output d, ?_⟩
  · rw [hexits, h]
    rfl
  · rw [hexits]
    split <;> decide

/-- A history of the sample project that leads to a pass which fails because the project does. -/
def Sample.unavailable : List (Step Memory.Happening) := [
  .request (target "a"), .pass,
  .outside .change, .outside (.failure (some failure)),
  .request (target "b"), .request (target "a")]

/-- One that leads to a pass which ends over the diagnostics of the configuration, although there
are some of the program too. -/
def Sample.misconfigured : List (Step Memory.Happening) := [
  .request (target "a"), .pass,
  .outside (.options { BuildOptions.default with noEmitOnError := true }),
  .outside (.errors [.error "E1" "odd", .warning "W1" "strange"]),
  .outside (.diagnostics [.error "TS1" "wrong"]), .request (target "b")]

/-- One that leads to a pass which ends over the diagnostics of the program. -/
def Sample.faulty : List (Step Memory.Happening) := [
  .request (target "a"), .pass,
  .outside (.options { BuildOptions.default with noEmitOnError := true }),
  .outside (.diagnostics [.error "TS1" "wrong"]), .request (target "b")]

/-- What the theorem says of these three passes. -/
theorem failed_pass_spares_outputs_sample :
    let scene := Memory.scene Workbench.annotatedOutput
    let d := fun steps ↦ scene.after (scene.start none Sample.root Sample.workbench) steps
    Memory.TurnsAway (d Sample.unavailable) (scene.pass (d Sample.unavailable)) Sample.failure ∧
      Memory.StopsShort (d Sample.misconfigured) (scene.pass (d Sample.misconfigured)) 2 ∧
      Memory.StopsShort (d Sample.faulty) (scene.pass (d Sample.faulty)) 1 := by
  intro scene d
  have hunavailable : (scene.pass (d Sample.unavailable)).verdict =
      .failed (.unavailable Sample.failure) := by decide +kernel
  have hmisconfigured : (scene.pass (d Sample.misconfigured)).verdict = .failed (.diagnosed 2) := by
    decide +kernel
  have hfaulty : (scene.pass (d Sample.faulty)).verdict = .failed (.diagnosed 1) := by
    decide +kernel
  exact ⟨(failed_pass_spares_outputs _ _).1 _ hunavailable,
    (failed_pass_spares_outputs _ _).2.1 _ hmisconfigured,
    (failed_pass_spares_outputs _ _).2.1 _ hfaulty⟩

end Coalesce
