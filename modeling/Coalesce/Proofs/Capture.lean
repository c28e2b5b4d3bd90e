import Coalesce.Proofs.Answers

/-!
# Where a delivered text comes from

Nothing is ever taken out of the captured outputs. Behind a history they are everything that any
pass of it has handed over, stored in order (`Scene.outputs_after`), and an artifact is looked up in
all of it (`Scene.texts_of_delivered`). So a requester gets the text that the pass itself has
written last to the path in question, and if the pass has written nothing there, the last text that
an earlier pass has left: the output of a file that moved to another directory, say, or a source
map from the time when there were some. A delivered text is the pass's own just if the pass writes
to the path or nobody ever did before.
-/

namespace Coalesce

variable {W U P E : Type}

/-! ## What a pass hands over -/

namespace Scene

variable (scene : Scene W U P E)

/-- What the backend writes while the next pass builds. -/
def buildWrites (d : Driver W P) : Writes :=
  match d.session.building? scene.backend scene.project d.world with
  | some st => st.buildWrites scene.backend
  | none => []

/-- Whether the next pass gets as far as writing its output. -/
def emits (d : Driver W P) : Bool :=
  (d.session.emitting? scene.backend scene.project d.world).isSome

/-- The output that the next pass writes. -/
def emission (d : Driver W P) : Writes :=
  match d.session.emitting? scene.backend scene.project d.world with
  | some b => b.emission scene.backend
  | none => []

/-- Everything that the passes of a history hand over. -/
def captured (d : Driver W P) (steps : List (Step E)) : Writes :=
  (scene.passes d steps).flatMap fun e ↦ scene.buildWrites e ++ scene.emission e

variable {scene} {d : Driver W P}

theorem buildWrites_of_building {st : Stage W P}
    (h : d.session.building? scene.backend scene.project d.world = some st) :
    scene.buildWrites d = st.buildWrites scene.backend := by
  rw [buildWrites, h]

theorem buildWrites_of_not_building
    (h : d.session.building? scene.backend scene.project d.world = none) :
    scene.buildWrites d = [] := by
  rw [buildWrites, h]

theorem emission_of_emitting {b : Built W P}
    (h : d.session.emitting? scene.backend scene.project d.world = some b) :
    scene.emission d = b.emission scene.backend := by
  rw [emission, h]

theorem emission_of_not_emitting
    (h : d.session.emitting? scene.backend scene.project d.world = none) :
    scene.emission d = [] := by
  rw [emission, h]

end Scene

namespace Stage

variable {backend : Backend W U P} {st : Stage W P}

theorem outputs_build {b : Built W P} (h : st.build? backend = some b) :
    b.session.outputs = st.session.outputs.insertAll (st.buildWrites backend) := by
  obtain ⟨dialogue, w, hbuild, -, -, -, -, -, hsession⟩ := build?_eq_some h
  rw [hsession, buildWrites, hbuild]
  exact Overlay.outputs_run _ _ _ _

theorem buildWrites_of_crash (h : st.build? backend = none) : st.buildWrites backend = [] := by
  rw [build?] at h
  rw [buildWrites]
  cases hbuild : backend.build st.config.files st.config.options st.world with
  | mk dialogue? w =>
    rw [hbuild] at h
    cases dialogue? with
    | none => rfl
    | some dialogue => exact absurd h (by simp)

end Stage

namespace Scene

variable (scene : Scene W U P E) (d : Driver W P)

/-- What is captured behind a pass is what was captured before it, with everything that the pass
hands over stored in order. -/
theorem outputs_pass : (scene.pass d).session.outputs =
    d.session.outputs.insertAll (scene.buildWrites d ++ scene.emission d) := by
  have hcourse := scene.course_pass d
  generalize scene.pass d = pass at hcourse ⊢
  have hstage : ∀ {st}, d.session.stage scene.backend scene.project d.world = .ok st →
      st.session.outputs = d.session.outputs := by
    intro st h
    rw [(Session.stage_eq_ok h).2.2]
    rfl
  have hemitted : ∀ {st} {b : Built W P},
      d.session.building? scene.backend scene.project d.world = some st →
        st.build? scene.backend = some b →
          ¬Diagnostic.Halts b.config.options (b.diagnostics scene.backend) →
            (b.emitted scene.backend).outputs =
              d.session.outputs.insertAll (scene.buildWrites d ++ scene.emission d) := by
    intro st b hst hbuild hstop
    rw [buildWrites_of_building hst,
      emission_of_emitting (Session.emitting?_eq_some_iff.2 ⟨_, hst, hbuild, hstop⟩),
      PathMap.insertAll_append, ← hstage (Session.building?_eq_some_iff.1 hst).1,
      ← Stage.outputs_build hbuild, ← Built.outputs_emitted]
  -- Only a pass that builds adds anything, and only one that emits adds output.
  cases hcourse with
  | unavailable hcause =>
    have hnone := Session.building?_of_unavailable hcause
    rw [buildWrites_of_not_building hnone,
      emission_of_not_emitting (Session.emitting?_of_not_building hnone)]
    rfl
  | halted hst hhalts =>
    have hnone := Session.building?_of_halts hst hhalts
    rw [buildWrites_of_not_building hnone,
      emission_of_not_emitting (Session.emitting?_of_not_building hnone)]
    exact hstage hst
  | crashed hst hbuild =>
    rw [buildWrites_of_building hst, Stage.buildWrites_of_crash hbuild,
      emission_of_not_emitting (Session.emitting?_of_crash hst hbuild)]
    exact hstage (Session.building?_eq_some_iff.1 hst).1
  | diagnosed hst hbuild hstop =>
    rw [buildWrites_of_building hst,
      emission_of_not_emitting (Session.emitting?_of_halts hst hbuild hstop), List.append_nil,
      ← hstage (Session.building?_eq_some_iff.1 hst).1, ← Stage.outputs_build hbuild]
    rfl
  | cutShort hst hbuild hstop hcut => exact hemitted hst hbuild hstop
  | emitted hst hbuild hstop hwhole => exact hemitted hst hbuild hstop

/-- **Nothing is forgotten.** Behind a history everything that its passes have handed over is
captured. -/
theorem outputs_after (steps : List (Step E)) : (scene.after d steps).session.outputs =
    d.session.outputs.insertAll (scene.captured d steps) := by
  induction steps generalizing d with
  | nil => rfl
  | cons step rest ih =>
    rw [after_cons, ih]
    cases step with
    | request target => rfl
    | pass =>
      have hpass : (scene.step d .pass).session.outputs =
          d.session.outputs.insertAll (scene.buildWrites d ++ scene.emission d) :=
        scene.outputs_pass d
      rw [hpass, ← PathMap.insertAll_append]
      rfl
    | outside event => rfl

end Scene

/-! ## What is delivered -/

namespace Delivery

variable {artifact? : Target → Option (Artifact U)} {r : Request} {a : Artifact U}

theorem not_mem_refusals (requests : List Request) (failure : Failure) :
    (r, .ok a) ∉ (refusals requests failure : Journal U).answers := by
  rw [answers_refusals]
  intro h
  obtain ⟨r', -, h⟩ := List.mem_map.1 h
  exact absurd (congrArg Prod.snd h) (by simp)

theorem artifact?_of_mem {requests : List Request}
    (h : (r, .ok a) ∈ (answers artifact? requests).1.answers) :
    r ∈ requests ∧ artifact? r.target = some a := by
  induction requests with
  | nil => exact absurd h (List.not_mem_nil)
  | cons first rest ih =>
    rw [answers] at h
    cases hfirst : artifact? first.target with
    | none =>
      rw [hfirst, Journal.answers_answer_cons] at h
      rcases List.mem_cons.1 h with h | h
      · exact absurd (congrArg Prod.snd h) (by simp)
      · exact absurd h (not_mem_refusals _ _)
    | some artifact =>
      rw [hfirst] at h
      rcases List.mem_cons.1 h with h | h
      · obtain ⟨rfl, h⟩ := Prod.mk.inj h
        cases h
        exact ⟨List.mem_cons_self, hfirst⟩
      · exact (ih h).imp_left (List.mem_cons_of_mem first)

end Delivery

/-- The artifacts that are delivered, each with its request. -/
def Journal.deliveries (j : Journal U) : List (Request × Artifact U) :=
  j.answers.filterMap fun (r, result) ↦ result.toOption.map fun a ↦ (r, a)

theorem Journal.mem_deliveries {j : Journal U} {r : Request} {a : Artifact U} :
    (r, a) ∈ j.deliveries ↔ (r, .ok a) ∈ j.answers := by
  rw [deliveries, List.mem_filterMap]
  constructor
  · rintro ⟨⟨r', result⟩, hmem, h⟩
    cases result with
    | error failure => cases h
    | ok artifact =>
      cases h
      exact hmem
  · exact fun h ↦ ⟨(r, .ok a), h, rfl⟩

namespace Scene

variable {scene : Scene W U P E} {d : Driver W P} {r : Request} {a : Artifact U}

/-- How an artifact came to be delivered by a pass that built a program: the program has a unit for
the request, and the texts are found among what is captured behind the pass. -/
structure Delivers (scene : Scene W U P E) (d : Driver W P) (r : Request) (a : Artifact U)
    (st : Stage W P) (b : Built W P) : Prop where
  building : d.session.building? scene.backend scene.project d.world = some st
  built : st.build? scene.backend = some b
  emitting : d.session.emitting? scene.backend scene.project d.world = some b
  whole : b.isWhole scene.backend = true
  waiting : r ∈ d.session.queue.requests
  unit : scene.backend.find? b.program r.target.source = some a.unit
  artifact : a = scene.backend.artifact (scene.pass d).session.outputs
    (scene.pass d).session.batch r.target a.unit
  session : (scene.pass d).session =
    { b.session.withoutRequests with outputs := (b.emitted scene.backend).outputs }
  world : (scene.pass d).world = (b.emitted scene.backend).world

/-- An artifact is delivered only by a pass that writes all of its output. -/
theorem exists_delivers (h : (r, a) ∈ (scene.pass d).journal.deliveries) :
    ∃ st b, scene.Delivers d r a st b := by
  rw [Journal.mem_deliveries] at h
  have hcourse := scene.course_pass d
  generalize hpass : scene.pass d = pass at hcourse h
  cases hcourse with
  | unavailable hcause =>
    rw [Pass.answers_after Session.answers_opening] at h
    exact absurd h (Delivery.not_mem_refusals _ _)
  | halted hst hhalts =>
    rw [Pass.answers_after (by simp)] at h
    exact absurd h List.not_mem_nil
  | crashed hst hbuild =>
    rw [Pass.answers_after (by simp)] at h
    exact absurd h List.not_mem_nil
  | diagnosed hst hbuild hstop =>
    rw [Pass.answers_after (by simp)] at h
    exact absurd h List.not_mem_nil
  | cutShort hst hbuild hstop hcut =>
    rw [Pass.answers_after (by simp)] at h
    exact absurd h List.not_mem_nil
  | @emitted st b hst hbuild hstop hwhole =>
    rw [Pass.answers_after (by simp), Built.answers_finished] at h
    obtain ⟨hwaiting, hartifact⟩ := Delivery.artifact?_of_mem h
    obtain ⟨unit, hunit, rfl⟩ := Option.map_eq_some_iff.1 hartifact
    refine ⟨st, b, ?_⟩
    have hqueue : b.session.queue = d.session.queue :=
      (Session.queue_build hbuild).trans
        (Session.queue_stage (Session.building?_eq_some_iff.1 hst).1)
    exact
      { building := hst
        built := hbuild
        emitting := Session.emitting?_eq_some_iff.2 ⟨st, hst, hbuild, hstop⟩
        whole := hwhole
        waiting := hqueue ▸ hwaiting
        unit := hunit
        artifact := by rw [hpass]; rfl
        session := by rw [hpass]; rfl
        world := by rw [hpass]; rfl }

theorem texts_of_delivered (h : (r, a) ∈ (scene.pass d).journal.deliveries) :
    a.output? = (scene.pass d).session.outputs.get? r.target.output ∧
      a.map? = (scene.pass d).session.outputs.get?
        ((scene.pass d).session.batch.sourceMapOf r.target.output) := by
  obtain ⟨st, b, hdelivers⟩ := exists_delivers h
  rw [hdelivers.artifact]
  exact ⟨rfl, rfl⟩

end Scene

/-- Whether a text that was looked up at a path, if any, is the last one of a list of writes. -/
def Writes.Yield (own : Writes) (path : FilePath) (text? : Option String) : Prop :=
  ∀ text, text? = some text → own.last? path = some text

instance (own : Writes) (path : FilePath) (text? : Option String) :
    Decidable (own.Yield path text?) :=
  match text? with
  | none => .isTrue fun _ h ↦ nomatch h
  | some text =>
    decidable_of_iff (own.last? path = some text) ⟨fun h _ h' ↦ h' ▸ h, fun h ↦ h text rfl⟩

/-- What is found at a path that was written to earlier and then again, or not again. -/
theorem Writes.yield_or_iff (own earlier : Writes) (path : FilePath) :
    own.Yield path ((own.last? path).or (earlier.last? path)) ↔
      own.reach path ∨ ¬earlier.reach path := by
  rw [Yield]
  cases hown : own.last? path with
  | some text =>
    have hreach : own.reach path := by
      by_contra h
      rw [last?_eq_none_iff.2 h] at hown
      cases hown
    simp [hreach]
  | none =>
    have hreach : ¬own.reach path := last?_eq_none_iff.1 hown
    rw [Option.none_or, or_iff_right hreach, ← last?_eq_none_iff,
      Option.eq_none_iff_forall_ne_some]
    exact forall_congr' fun text ↦ imp_congr_right fun _ ↦ by simp

/-- **Whose text is delivered.** Take any history and the pass behind it. Of an artifact that this
pass delivers, the output is what the pass itself has written last at the path in question, or else
what was written there last before. So it belongs to the pass just if the pass writes to that path
or nothing was ever written there before, and the same goes for the source map. -/
theorem delivered_text_own_iff (scene : Scene W U P E) (settings? : Option BatchSettings)
    (root : FilePath) (w : W) (steps : List (Step E)) :
    let d := scene.after (scene.start settings? root w) steps
    let earlier := scene.captured (scene.start settings? root w) steps ++ scene.buildWrites d
    let own := scene.emission d
    ∀ (r : Request) (a : Artifact U), (r, a) ∈ (scene.pass d).journal.deliveries →
      let path := r.target.output
      let mapPath := (scene.pass d).session.batch.sourceMapOf path
      a.output? = (own.last? path).or (earlier.last? path) ∧
        a.map? = (own.last? mapPath).or (earlier.last? mapPath) ∧
        (own.Yield path a.output? ↔ own.reach path ∨ ¬earlier.reach path) ∧
        (own.Yield mapPath a.map? ↔ own.reach mapPath ∨ ¬earlier.reach mapPath) := by
  intro d earlier own r a h path mapPath
  obtain ⟨houtput, hmap⟩ := Scene.texts_of_delivered h
  have hcaptured : (scene.pass d).session.outputs = PathMap.empty.insertAll (earlier ++ own) := by
    rw [Scene.outputs_pass, Scene.outputs_after, ← PathMap.insertAll_append,
      ← List.append_assoc]
    rfl
  have hfound : ∀ p, (scene.pass d).session.outputs.get? p =
      (own.last? p).or (earlier.last? p) := by
    intro p
    rw [hcaptured, PathMap.get?_insertAll, Writes.last?_append, PathMap.get?_empty, Option.or_none]
  rw [houtput, hmap, hfound, hfound]
  exact ⟨rfl, rfl, own.yield_or_iff earlier path, own.yield_or_iff earlier mapPath⟩

/-- A history of the sample project: once all is delivered, outputs go to another directory and have
no source maps any more, the text of a source changes, and it is asked for again. -/
def Sample.moved : List (Step Memory.Happening) := [
  .request (target "a"), .pass,
  .outside (.options { BuildOptions.default with outDir? := some (locate "out") }),
  .outside (.edit (locate "src/a.ts") "export const a: number = 2;"), .request (target "a")]

/-- An artifact with the texts of the first output of the source `a`, for a reading of it. -/
def Sample.firstOutput (text : String) (serial : Nat) : Artifact SourceText where
  isDeclaration := false
  output? := some "// emitted\nexport const a: number = 1;"
  map? := some "\x7b\"file\":\"a.js\"\x7d"
  unit := ⟨locate "src/a.ts", text, serial⟩

/-- The first pass of this history delivers its own texts. -/
theorem delivered_text_own_first :
    let scene := Memory.scene Workbench.annotatedOutput
    let d := scene.after (scene.start none Sample.root Sample.workbench) (Sample.moved.take 1)
    let r : Request := ⟨0, Sample.target "a"⟩
    let a := Sample.firstOutput "export const a: number = 1;" 1
    (r, a) ∈ (scene.pass d).journal.deliveries ∧
      (scene.emission d).Yield r.target.output a.output? := by
  intro scene d r a
  have hmem : (r, a) ∈ (scene.pass d).journal.deliveries := by decide +kernel
  have hreach : (scene.emission d).reach r.target.output := by decide +kernel
  have hown := delivered_text_own_iff scene none Sample.root Sample.workbench
    (Sample.moved.take 1) r a hmem
  exact ⟨hmem, hown.2.2.1.2 (Or.inl hreach)⟩

/-- The second one delivers the old text and the old source map of a file that has moved, beside the
new reading of its source. -/
theorem moved_output_delivered :
    let scene := Memory.scene Workbench.annotatedOutput
    let d := scene.after (scene.start none Sample.root Sample.workbench) Sample.moved
    let r : Request := ⟨1, Sample.target "a"⟩
    let a := Sample.firstOutput "export const a: number = 2;" 4
    let mapPath := (scene.pass d).session.batch.sourceMapOf r.target.output
    (r, a) ∈ (scene.pass d).journal.deliveries ∧
      ¬(scene.emission d).Yield r.target.output a.output? ∧
      ¬(scene.emission d).Yield mapPath a.map? := by
  decide +kernel

end Coalesce
