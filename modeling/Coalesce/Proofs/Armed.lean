import Coalesce.Proofs.Schedule

/-!
# The timer runs just as long as somebody waits

The queue belongs to the session and the timer to the service, and nothing but the order of moves
keeps them in step (`Moment.InStep`): a request that is read starts the timer, a pass begins by
putting it out, and every pass leaves an empty queue behind, however it ends. So a service that
listens has a timer that runs from the last request it has read, or nothing is queued.
-/

namespace Coalesce

variable {W U P E : Type}

namespace Service

variable (s : Service W U P)

/-- A service that reads no more after the next turn: somebody wishes so, or nobody is left. -/
def IsClosing : Prop :=
  s.phase = .listening ∧ (s.inbox.head? = some .quit ∨ s.inbox = [] ∧ s.handles = 0)

variable {s} {now : Nat}

/-- A service that reads no more makes a last pass for those who wait. -/
theorem phase_turn_of_isClosing (h : s.IsClosing) : (s.turn now).phase =
    if s.session.queue.requests = [] then .stopped else .compiling true := by
  have hclose : ∀ u : Service W U P, u.session = s.session → (u.close now).phase =
      if s.session.queue.requests = [] then .stopped else .compiling true := by
    intro u hu
    rw [close, hu]
    split <;> rfl
  obtain ⟨hphase, hquit | ⟨hinbox, hhandles⟩⟩ := h
  · obtain ⟨rest, hinbox⟩ := List.head?_eq_some_iff.1 hquit
    rw [turn_of_quit hphase hinbox]
    exact hclose _ rfl
  · rw [turn_of_deserted hphase hinbox hhandles]
    exact hclose _ rfl

end Service

namespace Moment

/-- The queue and the timer of a service are in step with each other and with what was read. -/
structure InStep (m : Moment W U P) : Prop where
  queue : m.service.session.queue.requests = m.pending
  quiet : m.service.timer.quiet = m.service.session.batch.quietPeriod
  out : m.service.phase = .listening → m.pending = [] → m.service.timer.last? = none
  /-- While somebody waits the timer runs from the last request that was read. -/
  runs : m.service.phase = .listening → m.pending ≠ [] →
    ∃ r last, m.heard.getLast? = some (r, last) ∧ m.service.timer.last? = some last
  served : m.service.phase = .compiling false → m.service.timer.last? = none
  busy : ∀ isLast, m.service.phase = .compiling isLast → m.pending ≠ []
  ended : m.service.phase = .stopped → m.pending = []

theorem heard_read_request (m : Moment W U P) (service : Service W U P) (r : Request)
    (pending : List Request) :
    heard { m with
      service := service, read := m.read ++ [(.request r, m.now)], pending := pending } =
      m.heard ++ [(r, m.now)] :=
  List.filterMap_append

namespace InStep

variable {m m' : Moment W U P}

theorem close (h : m.InStep) {u : Service W U P} (hsession : u.session = m.service.session)
    (htimer : u.timer = m.service.timer) (read : List (Message × Nat)) :
    InStep { m with service := u.close m.now, read := read } := by
  have hqueue : u.session.queue.requests = m.pending := by rw [hsession, h.queue]
  have hquiet : u.timer.quiet = u.session.batch.quietPeriod := by rw [htimer, hsession, h.quiet]
  by_cases hnobody : u.session.queue.requests = []
  · rw [Service.close_of_nobody hnobody]
    exact
      { queue := hqueue
        quiet := hquiet
        out := nofun
        runs := nofun
        served := nofun
        busy := nofun
        ended := fun _ ↦ hqueue.symm.trans hnobody }
  · rw [Service.close_of_somebody hnobody]
    exact
      { queue := hqueue
        quiet := hquiet
        out := nofun
        runs := nofun
        served := nofun
        busy := fun _ _ ↦ hqueue ▸ hnobody
        ended := nofun }

theorem conclude (h : m.InStep) {isLast : Bool} {pass : Pass W U P}
    (hphase : m.service.phase = .compiling isLast)
    (hattends : pass.Attends m.service.session.queue.requests) :
    (m.conclude isLast pass).InStep where
  queue := by
    rw [Moment.conclude, Service.session_conclude, hattends.queue_eq]
    rfl
  quiet := by
    rw [Moment.conclude, Service.session_conclude, Service.timer_conclude]
    rfl
  out := by
    rw [Moment.conclude, Service.phase_conclude, Service.timer_conclude]
    intro hlistening _
    cases isLast with
    | true => simp at hlistening
    | false => exact h.served hphase
  runs := fun _ hpending ↦ absurd rfl hpending
  served := by
    rw [Moment.conclude, Service.phase_conclude]
    split <;> nofun
  busy := by
    rw [Moment.conclude, Service.phase_conclude]
    split <;> nofun
  ended := fun _ ↦ rfl

/-- A timer that rings rings for somebody. -/
theorem pending_ne_nil_of_isOver (h : m.InStep) (hphase : m.service.phase = .listening) {now : Nat}
    (hover : m.service.timer.isOver now = true) : m.pending ≠ [] := by
  intro hnil
  obtain ⟨last, hlast, -⟩ := QuietTimer.isOver_iff.1 hover
  rw [h.out hphase hnil] at hlast
  cases hlast

/-- **Every move keeps queue and timer in step.** -/
theorem leads (h : m.InStep) (hm : m.Leads m') : m'.InStep := by
  cases hm with
  | drifts | asks | enlists | refuses | dismisses =>
    exact ⟨h.queue, h.quiet, h.out, h.runs, h.served, h.busy, h.ended⟩
  | hears hphase hinbox =>
    rename_i r rest
    have hlistening : ({ m.service with inbox := rest }.accept m.now r).phase = .listening :=
      hphase
    refine ⟨congrArg (· ++ [r]) h.queue, h.quiet, fun _ hnil ↦ absurd hnil (by simp),
      fun _ _ ↦ ⟨r, m.now, ?_, rfl⟩, fun hother ↦ ?_, fun isLast hother ↦ ?_, fun hother ↦ ?_⟩
    · rw [heard_read_request, List.getLast?_concat]
    all_goals
      cases hlistening.symm.trans hother
  | quits hphase hinbox =>
    refine h.close ?_ ?_ _
    · rfl
    · rfl
  | deserted hphase hinbox hhandles => exact h.close rfl rfl _
  | begins hphase hinbox hover =>
    exact ⟨h.queue, h.quiet, nofun, nofun, fun _ ↦ rfl,
      fun _ _ ↦ h.pending_ne_nil_of_isOver hphase hover, nofun⟩
  | concludes hphase hattends => exact h.conclude hphase hattends

end InStep

end Moment

namespace Scene

variable (scene : Scene W U P E) (settings? : Option BatchSettings) (root : FilePath) (w : W)

theorem inStep_opened : (scene.opened settings? root w).InStep where
  queue := rfl
  quiet := rfl
  out := fun _ _ ↦ rfl
  runs := fun _ hpending ↦ absurd rfl hpending
  served := nofun
  busy := nofun
  ended := fun _ ↦ rfl

theorem inStep_play (moves : List (Move E)) :
    (scene.play (scene.opened settings? root w) moves).InStep :=
  scene.play_induction (scene.inStep_opened settings? root w) (fun _ _ hm h ↦ h.leads hm) moves

end Scene

/-- **Armed exactly when work is queued.** Behind every schedule, a service that listens has a
pending timer just if somebody is queued. Then it runs from the last request that was read, for the
quiet time that the session wants. Every pass that runs has somebody in the queue, and a service
that reads no more makes a last pass just if its timer is pending. -/
theorem armed_iff_queued (scene : Scene W U P E) (settings? : Option BatchSettings)
    (root : FilePath) (w : W) (moves : List (Move E)) :
    let m := scene.play (scene.opened settings? root w) moves
    let s := m.service
    (s.phase = .listening → (s.timer.isPending = true ↔ s.session.queue.requests ≠ [])) ∧
      (s.phase = .listening → s.session.queue.requests ≠ [] →
        ∃ r last, m.heard.getLast? = some (r, last) ∧
          s.wakeTime? = some (last + max s.session.batch.quietPeriod 1)) ∧
      (∀ isLast, s.phase = .compiling isLast → s.session.queue.requests ≠ []) ∧
      (s.IsClosing → (s.turn m.now).phase =
        if s.timer.isPending then .compiling true else .stopped) := by
  intro m s
  have h : m.InStep := scene.inStep_play settings? root w moves
  have harmed : s.phase = .listening →
      (s.timer.isPending = true ↔ s.session.queue.requests ≠ []) := by
    intro hphase
    rw [QuietTimer.isPending, h.queue]
    by_cases hpending : m.pending = []
    · simp [h.out hphase hpending, hpending, s]
    · obtain ⟨r, last, -, hlast⟩ := h.runs hphase hpending
      simp [hlast, hpending, s]
  refine ⟨harmed, fun hphase hqueue ↦ ?_, fun isLast hphase ↦ ?_, fun hclosing ↦ ?_⟩
  · rw [h.queue] at hqueue
    obtain ⟨r, last, hheard, hlast⟩ := h.runs hphase hqueue
    refine ⟨r, last, hheard, ?_⟩
    rw [Service.wakeTime?, if_pos hphase, QuietTimer.wakeTime?_eq, hlast, h.quiet]
    rfl
  · rw [h.queue]
    exact h.busy isLast hphase
  · rw [Service.phase_turn_of_isClosing hclosing]
    by_cases hqueue : s.session.queue.requests = []
    · rw [if_pos hqueue, if_neg fun hpending ↦ (harmed hclosing.1).1 hpending hqueue]
    · rw [if_neg hqueue, if_pos ((harmed hclosing.1).2 hqueue)]

/-- What the theorem says while a request waits, while its pass runs, and where the service reads no
more: with somebody in the queue, and with nobody. -/
theorem armed_iff_queued_sample :
    let scene := Memory.scene Workbench.annotatedOutput
    let start := scene.opened none Sample.root Sample.workbench
    let waits := scene.play start [.ask (Sample.target "a"), .turn, .dismiss]
    let runs := scene.play start [.ask (Sample.target "a"), .turn, .wait 300, .turn]
    let served := scene.play start
      [.ask (Sample.target "a"), .turn, .wait 300, .turn, .complete, .letGo]
    (waits.service.timer.isPending = true ↔ waits.service.session.queue.requests ≠ []) ∧
      (∃ r last, waits.heard.getLast? = some (r, last) ∧
        waits.service.wakeTime? = some (last + max waits.service.session.batch.quietPeriod 1)) ∧
      runs.service.session.queue.requests ≠ [] ∧
      waits.turn.service.phase = .compiling true ∧ served.turn.service.phase = .stopped := by
  intro scene start waits runs served
  obtain ⟨harmed, hwakes, -, hcloses⟩ := armed_iff_queued scene none Sample.root Sample.workbench
    [.ask (Sample.target "a"), .turn, .dismiss]
  have hwaits : waits.service.phase = .listening := by decide +kernel
  have hquit : waits.service.IsClosing := ⟨hwaits, .inl (by decide +kernel)⟩
  have hdeserted : served.service.IsClosing := by
    exact ⟨by decide +kernel, .inr (by decide +kernel)⟩
  refine ⟨harmed hwaits, hwakes hwaits (by decide +kernel), ?_, ?_, ?_⟩
  · exact (armed_iff_queued scene none Sample.root Sample.workbench
      [.ask (Sample.target "a"), .turn, .wait 300, .turn]).2.2.1 false (by decide +kernel)
  · refine (hcloses hquit).trans (if_pos ?_)
    decide +kernel
  · refine ((armed_iff_queued scene none Sample.root Sample.workbench
      [.ask (Sample.target "a"), .turn, .wait 300, .turn, .complete, .letGo]).2.2.2
        hdeserted).trans (if_neg ?_)
    decide +kernel

end Coalesce
