import Coalesce.Proofs.Capture

/-!
# A change is a barrier

When the project reports a change, the session forgets its program and its host before anything else
is done, so nothing from before that moment can come back: not if the pass fails, and not after any
number of later passes that serve units again. The moments are those of the workbench, which numbers
what it reads and what it opens.

The invariant is that all that a driver keeps dates from after the moment (`Memory.DatesFrom`), and
that it need not hold as long as a change waits to be reported (`Memory.Barrier`), because then what
is kept will be dropped. In this form it holds at the very moment of any change, whatever came
before it, and each stage of a pass keeps it.
-/

namespace Coalesce

namespace Memory

/-- All that a session keeps of earlier passes dates from after a certain moment. -/
structure DatesFrom (moment : World) (s : Session Program) (w : World) : Prop where
  units : ∀ program ∈ s.program?, ∀ unit ∈ program.units, unit.ReadBetween moment w
  host : ∀ host ∈ s.host?, host.OpenedBetween moment w
  parses : moment.parses ≤ w.parses
  hosts : moment.hosts ≤ w.hosts

variable {moment : World} {s s' : Session Program} {w w' : World}

theorem DatesFrom.mono (h : DatesFrom moment s w) (hprogram : s'.program? = s.program?)
    (hhost : s'.host? = s.host?) (hparses : w.parses ≤ w'.parses) (hhosts : w.hosts ≤ w'.hosts) :
    DatesFrom moment s' w' where
  units program hmem unit hunit :=
    (h.units program (hprogram ▸ hmem) unit hunit).imp_right (Nat.le_trans · hparses)
  host host hmem := (h.host host (hhost ▸ hmem)).imp_right (Nat.le_trans · hhosts)
  parses := Nat.le_trans h.parses hparses
  hosts := Nat.le_trans h.hosts hhosts

/-- Whatever a driver keeps of earlier passes dates from after a moment, unless the project is about
to report a change. -/
structure Barrier (moment : World) (d : Driver World Program) : Prop where
  kept : d.world.store.hasChanged = false → DatesFrom moment d.session d.world
  parses : moment.parses ≤ d.world.parses
  hosts : moment.hosts ≤ d.world.hosts

/-- A change that is about to be reported is a barrier, whatever is kept. -/
theorem barrier_of_change {d : Driver World Program} (h : d.world.store.hasChanged = true) :
    Barrier d.world d where
  kept hunchanged := absurd (h.symm.trans hunchanged) (by decide)
  parses := Nat.le_refl _
  hosts := Nat.le_refl _

theorem DatesFrom.barrier {d : Driver World Program} (h : DatesFrom moment d.session d.world) :
    Barrier moment d :=
  ⟨fun _ ↦ h, h.parses, h.hosts⟩

variable {output : Workbench.OutputRule} {d : Driver World Program}

/-! ## The stages of a pass -/

/-- Behind the poll of a pass a change has dropped what was kept. -/
theorem Barrier.refresh (h : Barrier moment d) :
    DatesFrom moment (d.session.refresh project d.world).session d.world where
  units := by
    intro program hprogram
    rw [program?_refresh, reusable?] at hprogram
    obtain ⟨hunchanged, hprogram⟩ := Option.ite_none_left_eq_some.1 hprogram
    exact (h.kept (Bool.eq_false_iff.2 hunchanged)).units program hprogram
  host := by
    intro host hhost
    rw [host?_refresh, reusableHost?] at hhost
    obtain ⟨hunchanged, hhost⟩ := Option.ite_none_left_eq_some.1 hhost
    exact (h.kept (Bool.eq_false_iff.2 hunchanged)).host host hhost
  parses := h.parses
  hosts := h.hosts

theorem Barrier.staged (h : Barrier moment d) :
    DatesFrom moment (staged d).session (staged d).world where
  units := h.refresh.units
  host := by
    rintro host hhost
    obtain rfl : (reusableHost? d).getD ⟨d.world.hosts + 1⟩ = host := Option.some.inj hhost
    rw [HostId.OpenedBetween, Memory.staged]
    cases hreusable : reusableHost? d with
    | some host => exact h.refresh.host host ((host?_refresh d).trans hreusable)
    | none => exact ⟨Nat.lt_succ_of_le h.hosts, Nat.le_refl _⟩
  parses := h.parses
  hosts := Nat.le_trans h.hosts (Nat.le_add_right _ _)

/-- The units of a program are those of the program before or are read now. -/
theorem DatesFrom.completed {st : Stage World Program}
    (h : DatesFrom moment st.session st.world) :
    DatesFrom moment (completed st).session (completed st).world where
  units := by
    intro program hprogram unit hunit
    obtain rfl : assembled st = program := Option.some.inj hprogram
    rcases Overlay.of_mem_resolve hunit with ⟨file, -, hserved⟩ | hreading
    · rw [Overlay.served?, Option.ite_none_left_eq_some] at hserved
      obtain ⟨program, hprogram, hfind⟩ := Option.bind_eq_some_iff.1 hserved.2
      obtain ⟨hlt, hle⟩ := h.units program hprogram unit (Program.of_find? hfind).1
      exact ⟨hlt, Nat.le_trans hle (Nat.le_add_right _ _)⟩
    · exact ⟨Nat.lt_of_le_of_lt h.parses hreading.lt_serial, hreading.serial_le⟩
  host := h.host
  parses := Nat.le_trans h.parses (Nat.le_add_right _ _)
  hosts := h.hosts

theorem DatesFrom.emitted {b : Built World Program} (h : DatesFrom moment b.session b.world) :
    DatesFrom moment b.session (b.emitted (scene output).backend).world := by
  have hkept := kept_emitted output b
  exact h.mono rfl rfl hkept.parses (Nat.le_of_eq hkept.hosts.symm)

/-- **One pass.** Whatever becomes of a pass over a barrier, what it leaves behind dates from after
it. -/
theorem Barrier.pass (h : Barrier moment d) :
    DatesFrom moment ((scene output).pass d).session ((scene output).pass d).world := by
  have hcourse := (scene output).course_pass d
  generalize (scene output).pass d = pass at hcourse ⊢
  cases hcourse with
  | unavailable hstage => exact h.refresh.mono rfl rfl (Nat.le_refl _) (Nat.le_refl _)
  | halted hstage hhalts =>
    obtain ⟨-, rfl⟩ := stage_eq_ok_iff.1 hstage
    exact h.staged.mono rfl rfl (Nat.le_refl _) (Nat.le_refl _)
  | crashed hstage hbuild =>
    obtain rfl := staged_of_building hstage
    exact h.staged.mono rfl rfl (Nat.le_refl _) (Nat.le_refl _)
  | diagnosed hstage hbuild hstop =>
    obtain rfl := staged_of_building hstage
    obtain ⟨-, rfl⟩ := build?_eq_some_iff.1 hbuild
    exact h.staged.completed.mono rfl rfl (Nat.le_refl _) (Nat.le_refl _)
  | cutShort hstage hbuild hstop hcut =>
    obtain rfl := staged_of_building hstage
    obtain ⟨-, rfl⟩ := build?_eq_some_iff.1 hbuild
    exact h.staged.completed.emitted.mono rfl rfl (Nat.le_refl _) (Nat.le_refl _)
  | emitted hstage hbuild hstop hwhole =>
    obtain rfl := staged_of_building hstage
    obtain ⟨-, rfl⟩ := build?_eq_some_iff.1 hbuild
    exact h.staged.completed.emitted.mono rfl rfl (Nat.le_refl _) (Nat.le_refl _)

/-! ## Histories -/

/-- What happens between two passes neither reads nor opens anything, and takes no change back. -/
theorem Barrier.outside (h : Barrier moment d) (event : Happening) :
    Barrier moment { d with world := act event d.world } := by
  have hparses : (act event d.world).parses = d.world.parses := by cases event <;> rfl
  have hhosts : (act event d.world).hosts = d.world.hosts := by cases event <;> rfl
  have hunchanged : (act event d.world).store.hasChanged = false →
      d.world.store.hasChanged = false := by
    cases event with
    | change => exact fun hchange ↦ absurd hchange (by simp [act, markChanged])
    | _ => exact id
  exact
    { kept := fun hnow ↦ (h.kept (hunchanged hnow)).mono rfl rfl (Nat.le_of_eq hparses.symm)
        (Nat.le_of_eq hhosts.symm)
      parses := hparses ▸ h.parses
      hosts := hhosts ▸ h.hosts }

theorem Barrier.step (h : Barrier moment d) (step : Step Happening) :
    Barrier moment ((scene output).step d step) := by
  cases step with
  | request target =>
    exact ⟨fun hnow ↦ (h.kept hnow).mono rfl rfl (Nat.le_refl _) (Nat.le_refl _), h.parses, h.hosts⟩
  | pass => exact h.pass.barrier
  | outside event => exact h.outside event

end Memory

/-- **A change is a barrier.** Take any history over a workbench in memory, and in it a pass to
which the project reports a change. Behind this pass and behind every later one, however any of them
ends, each unit of the program was read after the pass began, and so was each unit that one of them
delivers; and each host that one of them talks to, or that it leaves open, was opened after the pass
began. -/
theorem change_is_barrier (output : Workbench.OutputRule)
    (settings? : Option BatchSettings) (root : FilePath) (w : Memory.World)
    (before behind : List (Step Memory.Happening)) :
    let scene := Memory.scene output
    let first := scene.after (scene.start settings? root w) before
    (scene.project.poll first.world).1.isChange = true →
      ∀ d ∈ scene.passes first (.pass :: behind),
        let pass := scene.pass d
        (∀ program ∈ pass.session.program?, ∀ unit ∈ program.units,
            unit.ReadBetween first.world pass.world) ∧
          (∀ delivery ∈ pass.journal.deliveries,
            delivery.2.unit.ReadBetween first.world pass.world) ∧
          (∀ st, d.session.stage scene.backend scene.project d.world = .ok st →
            st.host.OpenedBetween first.world pass.world) ∧
          ∀ host ∈ pass.session.host?, host.OpenedBetween first.world pass.world := by
  intro scene first hpoll d hd pass
  have hchange : first.world.store.hasChanged = true :=
    (Memory.isChange_poll first.world).symm.trans hpoll
  have hbarrier : Memory.Barrier first.world d := by
    obtain ⟨earlier, later, -, rfl⟩ := Scene.mem_passes_iff.1 hd
    exact Scene.after_induction (Memory.barrier_of_change hchange) fun _ step _ h ↦ h.step step
  have hpass : Memory.DatesFrom first.world pass.session pass.world := hbarrier.pass
  refine ⟨hpass.units, ?_, fun st hstage ↦ ?_, hpass.host⟩
  · rintro ⟨r, a⟩ hdelivery
    obtain ⟨st, b, hdelivers⟩ := Scene.exists_delivers hdelivery
    obtain ⟨-, rfl⟩ := Memory.build?_eq_some_iff.1 hdelivers.built
    have hunit : a.unit ∈ (Memory.assembled st).units := (Program.of_find? hdelivers.unit).1
    exact hpass.units _ (congrArg Session.program? hdelivers.session) a.unit hunit
  · exact hpass.host st.host (Session.host?_pass _ _ _ _ hstage)

/-- A history of the sample project: once all is delivered, a change is reported to a pass that
fails because the project does. -/
def Sample.shaken : List (Step Memory.Happening) := [
  .request (target "a"), .pass,
  .outside .change, .outside (.failure (some failure)), .request (target "a")]

/-- What comes behind it: the project is there again, and somebody asks for `b`. -/
def Sample.settled : List (Step Memory.Happening) := [
  .outside (.failure none), .request (target "b"), .pass, .request (target "a"), .pass]

/-- None of the units read before the failed pass is ever seen again. -/
theorem change_is_barrier_shaken :
    let scene := Memory.scene Workbench.annotatedOutput
    let first := scene.after (scene.start none Sample.root Sample.workbench) Sample.shaken
    (scene.project.poll first.world).1.isChange = true ∧
      (scene.pass first).verdict = .failed (.unavailable Sample.failure) ∧
      ∀ d ∈ scene.passes first (.pass :: Sample.settled),
        ∀ program ∈ (scene.pass d).session.program?, ∀ unit ∈ program.units,
          unit.ReadBetween first.world (scene.pass d).world := by
  intro scene first
  have hpoll : (scene.project.poll first.world).1.isChange = true := by decide +kernel
  have hfailed : (scene.pass first).verdict = .failed (.unavailable Sample.failure) := by
    decide +kernel
  refine ⟨hpoll, hfailed, fun d hd ↦ ?_⟩
  have hbarrier := change_is_barrier Workbench.annotatedOutput none Sample.root Sample.workbench
    Sample.shaken Sample.settled hpoll d hd
  exact hbarrier.1

end Coalesce
