import Coalesce.Proofs.Course

/-!
# Histories of a session

A history is a list of steps: somebody asks for a file, a pass is made, or something happens to the
world outside. What can happen outside is left open, so that one notion of history serves for
projects of every kind. Requests are numbered in the order in which they are made, and their tickets
are these numbers: a ticket stands for one request and for no other.

A pass of a history is known by the driver that begins it. Every pass of every history is the pass
behind some history (`Scene.mem_passes_iff`), so what is shown of the next pass behind any history
holds of all passes.
-/

namespace Coalesce

variable {W U P E : Type}

/-- One step of a history. -/
inductive Step (E : Type) where
  | request (target : Target)
  | pass
  /-- Something happens to the world outside. -/
  | outside (event : E)

/-- A session and its world in the course of a history. -/
structure Driver (W P : Type) where
  session : Session P
  world : W
  /-- The number of requests that were made so far: the ticket of the next one. -/
  issued : Nat

/-- What a history takes place in: the backend, the project, and what events do to the world. -/
structure Scene (W U P E : Type) where
  backend : Backend W U P
  project : Project W
  act : E → W → W

namespace Scene

variable (scene : Scene W U P E)

/-- A new session over a world. -/
def start (settings? : Option BatchSettings) (root : FilePath) (w : W) : Driver W P :=
  ⟨.create scene.project settings? root w, w, 0⟩

/-- The next pass of a driver. -/
def pass (d : Driver W P) : Pass W U P := d.session.pass scene.backend scene.project d.world

/-- A driver behind one more step. -/
def step (d : Driver W P) : Step E → Driver W P
  | .request target => ⟨d.session.push ⟨d.issued, target⟩, d.world, d.issued + 1⟩
  | .pass => ⟨(scene.pass d).session, (scene.pass d).world, d.issued⟩
  | .outside event => { d with world := scene.act event d.world }

/-- A driver behind a history. -/
def after (d : Driver W P) (steps : List (Step E)) : Driver W P := steps.foldl scene.step d

/-- The drivers that begin the passes of a history. -/
def passes (d : Driver W P) : List (Step E) → List (Driver W P)
  | [] => []
  | .pass :: rest => d :: passes (scene.step d .pass) rest
  | .request target :: rest => passes (scene.step d (.request target)) rest
  | .outside event :: rest => passes (scene.step d (.outside event)) rest

variable {scene} {d : Driver W P}

@[simp] theorem after_nil : scene.after d [] = d := rfl

@[simp] theorem after_cons (step : Step E) (rest : List (Step E)) :
    scene.after d (step :: rest) = scene.after (scene.step d step) rest := rfl

theorem after_requests (scene : Scene W U P E) (d : Driver W P) (targets : List Target) :
    (scene.after d (targets.map .request)).world = d.world ∧
      (scene.after d (targets.map .request)).session.program? = d.session.program? := by
  induction targets generalizing d with
  | nil => exact ⟨rfl, rfl⟩
  | cons target targets ih => exact ih _

theorem after_induction {I : Driver W P → Prop} {steps : List (Step E)} (hd : I d)
    (hstep : ∀ d, ∀ step ∈ steps, I d → I (scene.step d step)) : I (scene.after d steps) := by
  induction steps generalizing d with
  | nil => exact hd
  | cons step rest ih =>
    refine ih (hstep d step List.mem_cons_self hd) fun d' step' hmem ↦ ?_
    exact hstep d' step' (List.mem_cons_of_mem step hmem)

theorem course_pass (scene : Scene W U P E) (d : Driver W P) :
    d.session.Course scene.backend scene.project d.world (scene.pass d) :=
  Session.course_pass _ _ _ _

theorem mem_passes_iff {e : Driver W P} {steps : List (Step E)} :
    e ∈ scene.passes d steps ↔
      ∃ before rest, steps = before ++ .pass :: rest ∧ scene.after d before = e := by
  induction steps generalizing d with
  | nil => simp [passes]
  | cons step rest ih =>
    -- A beginning is empty, and then the first step is the pass, or it has the first step too.
    have hsplit : (∃ before later, step :: rest = before ++ .pass :: later ∧
          scene.after d before = e) ↔
        (step = .pass ∧ d = e) ∨ e ∈ scene.passes (scene.step d step) rest := by
      rw [ih]
      constructor
      · rintro ⟨before, later, hsteps, he⟩
        cases before with
        | nil =>
          rw [List.nil_append, List.cons.injEq] at hsteps
          exact Or.inl ⟨hsteps.1, he⟩
        | cons first before =>
          rw [List.cons_append, List.cons.injEq] at hsteps
          obtain ⟨rfl, hrest⟩ := hsteps
          exact Or.inr ⟨before, later, hrest, he⟩
      · rintro (⟨rfl, he⟩ | ⟨before, later, rfl, he⟩)
        · exact ⟨[], rest, rfl, he⟩
        · exact ⟨step :: before, later, rfl, he⟩
    rw [hsplit]
    cases step with
    | request target => simp [passes]
    | pass => simp [passes, eq_comm]
    | outside event => simp [passes]

end Scene

end Coalesce
