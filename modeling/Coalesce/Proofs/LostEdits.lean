import Coalesce.Proofs.InMemory
import Coalesce.Workbench.Sample

/-!
# Edits that get lost

Whoever changes a source asks for it, and a unit that is asked for is not served again: this is how
a new text gets into the next program although the project reports no change. But the request is the
only trace of the edit. A pass that ends before the backend is called has it in its queue, answers
it or drops it, and keeps the program before; the next pass that builds serves the old unit.

Exactly when this happens depends on things that no session remembers: the disk as it was when the
program was built, and what passes since were asked for in vain. A `Memo` beside the driver keeps
both. A pass *overlooks* a source if it serves a unit of it though the source has changed since the
program was built and an earlier pass has had the request for it. The invariant (`Memo.Holds`) is
that the units of the program say what was on the disk then, and that of every source that has
changed since somebody waits for it, or has waited in vain, or is still to ask before the next pass.
-/

namespace Coalesce

/-- All units of a program say what is on the disk. -/
def Program.Matches (program : Program) (m : Memory) : Prop :=
  ∀ unit ∈ program.units, m.text? unit.path = some unit.text

instance (program : Program) (m : Memory) : Decidable (program.Matches m) :=
  inferInstanceAs (Decidable (∀ unit ∈ program.units, _))

namespace Memory

/-! ## Histories in which every edit is asked for -/

/-- Whether a source is asked for before the next pass, if there is one. -/
def askedNext {E : Type} (path : FilePath) : List (Step E) → Bool
  | [] => true
  | .pass :: _ => false
  | .request target :: rest => target.source.same path || askedNext path rest
  | .outside _ :: rest => askedNext path rest

/-- The source whose text a step of a history changes. -/
def edited? : Step Happening → Option FilePath
  | .outside (.edit path _) => some path
  | _ => none

/-- Every edit of a source that is on the disk is followed by a request for it before the next
pass. -/
def Tended (output : Workbench.OutputRule) (d : Driver World Program) :
    List (Step Happening) → Prop
  | [] => True
  | step :: rest =>
    (∀ path ∈ edited? step, (d.world.store.text? path).isSome → askedNext path rest) ∧
      Tended output ((scene output).step d step) rest

instance decidableTended (output : Workbench.OutputRule) :
    ∀ (d : Driver World Program) (steps : List (Step Happening)),
      Decidable (Tended output d steps)
  | _, [] => .isTrue trivial
  | d, step :: rest =>
    have : Decidable (Tended output ((scene output).step d step) rest) :=
      decidableTended output _ rest
    inferInstanceAs (Decidable ((∀ path ∈ edited? step, _ → _) ∧ _))

theorem askedNext_congr {E : Type} {p q : FilePath} (h : p.same q = true) (steps : List (Step E)) :
    askedNext p steps = askedNext q steps := by
  induction steps with
  | nil => rfl
  | cons step rest ih =>
    cases step with
    | request target =>
      rw [askedNext, askedNext, ih, FilePath.same_comm, FilePath.same_congr h, FilePath.same_comm]
    | pass => rfl
    | outside event => exact ih

/-! ## The memo -/

/-- What one has to remember of a history to know which edits get lost. -/
structure Memo where
  /-- The disk as the last pass that built has seen it. -/
  seen : PathMap String
  /-- The sources that passes since were asked for. -/
  unheeded : List FilePath

namespace Memo

/-- The memo before any pass. -/
def blank : Memo := ⟨.empty, []⟩

/-- The memo behind the next pass. -/
def behind (memo : Memo) (d : Driver World Program) (built : Bool) : Memo :=
  if built then ⟨d.world.store.disk, []⟩
  else { memo with unheeded := memo.unheeded ++ d.session.queue.sources }

end Memo

/-- The drivers that begin the passes of a history, each with the memo of what was before. -/
def watched (output : Workbench.OutputRule) (d : Driver World Program)
    (memo : Memo) : List (Step Happening) → List (Driver World Program × Memo)
  | [] => []
  | .pass :: rest =>
    (d, memo) :: watched output ((scene output).step d .pass)
      (memo.behind d ((scene output).pass d).built) rest
  | .request target :: rest => watched output ((scene output).step d (.request target)) memo rest
  | .outside event :: rest => watched output ((scene output).step d (.outside event)) memo rest

/-- The next pass overlooks a source if it serves a unit of it, nobody asks for it any more though
an earlier pass was asked for it, and its text is not what it was when the program was built. -/
structure Overlooks (d : Driver World Program) (memo : Memo) (path : FilePath) : Prop where
  listed : path ∈ d.world.store.configuration.files
  kept : ((reusable? d).bind (·.find? path)).isSome
  unasked : d.session.queue.asksFor path = false
  unheeded : memo.unheeded.any (·.same path) = true
  edited : d.world.store.text? path ≠ memo.seen.get? path

/-! ## The invariant -/

variable {output : Workbench.OutputRule} {d : Driver World Program}
  {memo : Memo} {rest : List (Step Happening)}

/-- What a memo knows of a driver with the rest of the history before it. -/
structure Memo.Holds (memo : Memo) (d : Driver World Program) (rest : List (Step Happening)) :
    Prop where
  sound : d.world.isFaulty = false
  /-- The units of the program say what was seen. -/
  seen : ∀ program, d.session.program? = some program → ∀ unit ∈ program.units,
    memo.seen.get? unit.path = some unit.text
  /-- What was seen is still there. -/
  there : ∀ path, (memo.seen.get? path).isSome → (d.world.store.text? path).isSome
  /-- Whatever has changed since is asked for, or was, or will be. -/
  heeded : ∀ path, (memo.seen.get? path).isSome →
    d.world.store.text? path ≠ memo.seen.get? path →
      d.session.queue.asksFor path = true ∨ memo.unheeded.any (·.same path) = true ∨
        askedNext path rest = true

theorem holds_start (settings? : Option BatchSettings) (root : FilePath) (m : Memory)
    (diagnostics : List Diagnostic) (steps : List (Step Happening)) :
    Memo.blank.Holds ((scene output).start settings? root (.create m diagnostics)) steps where
  sound := rfl
  seen := by
    intro program h
    cases h
  there := by
    intro path h
    cases h
  heeded := by
    intro path h
    cases h

theorem Memo.Holds.request {target : Target} (h : memo.Holds d (.request target :: rest)) :
    memo.Holds ((scene output).step d (.request target)) rest where
  sound := h.sound
  seen := h.seen
  there := h.there
  heeded := by
    intro path hseen hedited
    have hpush : (d.session.push ⟨d.issued, target⟩).queue.asksFor path =
        (d.session.queue.asksFor path || target.source.same path) := by
      rw [Queue.asksFor, Session.push, Queue.requests_push, List.any_append]
      simp [Queue.asksFor]
    change (d.session.push ⟨d.issued, target⟩).queue.asksFor path = true ∨ _
    rw [hpush, Bool.or_eq_true]
    rcases h.heeded path hseen hedited with hasks | hunheeded | hnext
    · exact Or.inl (Or.inl hasks)
    · exact Or.inr (Or.inl hunheeded)
    · rw [askedNext, Bool.or_eq_true] at hnext
      rcases hnext with hsame | hnext
      · exact Or.inl (Or.inr hsame)
      · exact Or.inr (Or.inr hnext)

/-- The texts on the disk behind a happening that takes nothing away. -/
theorem text?_act {event : Happening} (hkept : ∀ path, event ≠ .remove path) (w : World)
    (path : FilePath) :
    (act event w).store.text? path = w.store.text? path ∨
      ∃ p text, event = .edit p text ∧ p.same path = true ∧
        (act event w).store.text? path = some text := by
  cases event with
  | edit p text =>
    have hwrite := text?_write w.store p text path
    by_cases hsame : p.same path = true
    · rw [if_pos hsame] at hwrite
      exact Or.inr ⟨p, text, rfl, hsame, hwrite⟩
    · rw [if_neg hsame] at hwrite
      exact Or.inl hwrite
  | remove p => exact absurd rfl (hkept p)
  | _ => exact Or.inl rfl

theorem Memo.Holds.outside {event : Happening} (h : memo.Holds d (.outside event :: rest))
    (hkept : ∀ path, event ≠ .remove path)
    (htended : ∀ path ∈ edited? (.outside event), (d.world.store.text? path).isSome →
      askedNext path rest) :
    memo.Holds ((scene output).step d (.outside event)) rest where
  sound := (isFaulty_act event d.world).trans h.sound
  seen := h.seen
  there := by
    intro path hseen
    change ((act event d.world).store.text? path).isSome
    rcases text?_act hkept d.world path with htext | ⟨p, text, -, -, htext⟩
    · rw [htext]
      exact h.there path hseen
    · rw [htext]
      rfl
  heeded := by
    intro path hseen hedited
    rcases text?_act hkept d.world path with htext | ⟨p, text, rfl, hsame, -⟩
    · exact h.heeded path hseen fun heq ↦ hedited (htext.trans heq)
    · -- The source itself is edited, so it is asked for before the next pass.
      have hthere : (d.world.store.text? p).isSome := by
        rw [text?, PathMap.get?_congr _ hsame]
        exact h.there path hseen
      rw [← askedNext_congr hsame]
      exact Or.inr (Or.inr (htended p rfl hthere))

/-- **One pass.** What is built says what is on the disk just if no source is overlooked. -/
theorem Memo.Holds.matches_iff (h : memo.Holds d (.pass :: rest)) :
    (rebuilt d).Matches d.world.store ↔ ∀ path, ¬Overlooks d memo path := by
  have hseen : ∀ {path unit}, (reusable? d).bind (·.find? path) = some unit →
      unit.path.same path = true ∧ memo.seen.get? path = some unit.text := by
    intro path unit hunit
    obtain ⟨program, hprogram, hfind⟩ := Option.bind_eq_some_iff.1 hunit
    have hsession : d.session.program? = some program := by
      rw [reusable?, Option.ite_none_left_eq_some] at hprogram
      exact hprogram.2
    have hsame : unit.path.same path = true := by
      rw [Program.find?] at hfind
      simpa using List.find?_some hfind
    refine ⟨hsame, ?_⟩
    rw [← PathMap.get?_congr _ hsame]
    exact h.seen program hsession unit (List.mem_of_find?_eq_some hfind)
  constructor
  · intro hmatches path hoverlooks
    obtain ⟨unit, hunit⟩ := Option.isSome_iff_exists.1 hoverlooks.kept
    obtain ⟨hsame, htext⟩ := hseen hunit
    have hserved : (overlay d).served? path = some unit := by
      rw [served?_overlay, hoverlooks.unasked]
      exact hunit
    have hunits : unit ∈ (rebuilt d).units :=
      Overlay.mem_resolve_of_served hoverlooks.listed hserved
    have hdisk := hmatches unit hunits
    rw [text?, PathMap.get?_congr _ hsame] at hdisk
    exact hoverlooks.edited (hdisk.trans htext.symm)
  · intro hnone unit hunit
    rcases Overlay.of_mem_resolve hunit with ⟨file, hfile, hserved⟩ | hreading
    · rw [served?_overlay, Option.ite_none_left_eq_some] at hserved
      obtain ⟨hasks, hserved⟩ := hserved
      obtain ⟨hsame, htext⟩ := hseen hserved
      rw [text?, PathMap.get?_congr _ hsame, ← htext]
      by_cases hedited : d.world.store.disk.get? file = memo.seen.get? file
      · exact hedited
      -- Nobody asks now, and before this pass nobody will.
      exfalso
      rcases h.heeded file (by rw [htext]; rfl) hedited with hasked | hunheeded | hnext
      · exact hasks hasked
      · exact hnone file
          { listed := hfile
            kept := by rw [hserved]; rfl
            unasked := Bool.eq_false_iff.2 hasks
            unheeded := hunheeded
            edited := hedited }
      · cases hnext
    · exact hreading.text

theorem Memo.Holds.pass (h : memo.Holds d (.pass :: rest))
    (hmatches : ((scene output).pass d).built = true → (rebuilt d).Matches d.world.store) :
    (memo.behind d ((scene output).pass d).built).Holds ((scene output).step d .pass) rest := by
  have hleaves := leaves_pass output h.sound
  have hdisk : ((scene output).pass d).world.store.disk = d.world.store.disk := by
    rw [hleaves.store]
  have htext : ∀ path, ((scene output).step d .pass).world.store.text? path =
      d.world.store.disk.get? path := by
    intro path
    rw [← hdisk]
    rfl
  have hprogram := hleaves.program?
  cases hbuilt : ((scene output).pass d).built with
  | true =>
    rw [hbuilt, if_pos rfl] at hprogram
    exact
      { sound := hleaves.isFaulty
        seen := by
          intro program hsome unit hunit
          rw [← Option.some.inj (hprogram.symm.trans hsome)] at hunit
          exact hmatches hbuilt unit hunit
        there := by
          intro path hseen
          rw [htext]
          exact hseen
        heeded := by
          intro path hseen hedited
          exact absurd (htext path) hedited }
  | false =>
    rw [hbuilt, if_neg Bool.false_ne_true] at hprogram
    exact
      { sound := hleaves.isFaulty
        seen := by
          intro program hsome
          have hreusable : reusable? d = some program := hprogram.symm.trans hsome
          rw [reusable?, Option.ite_none_left_eq_some] at hreusable
          exact h.seen program hreusable.2
        there := by
          intro path hseen
          rw [htext]
          exact h.there path hseen
        heeded := by
          intro path hseen hedited
          rw [htext] at hedited
          -- Who asks for the source now has asked in vain.
          have hunheeded : (memo.unheeded ++ d.session.queue.sources).any (·.same path) =
              (memo.unheeded.any (·.same path) || d.session.queue.asksFor path) := by
            rw [List.any_append, Queue.sources, FilePath.any_distinct, List.any_map]
            rfl
          refine Or.inr (Or.inl (hunheeded.trans (Bool.or_eq_true_iff.2 ?_)))
          rcases h.heeded path hseen hedited with hasks | hbefore | hnext
          · exact Or.inr hasks
          · exact Or.inl hbefore
          · cases hnext }

/-! ## Runs -/

/-- **A whole history.** All programs that are built say what is on the disk just if no pass that
builds overlooks a source. -/
theorem Memo.Holds.run {steps : List (Step Happening)} (h : memo.Holds d steps)
    (hkept : ∀ path, .outside (.remove path) ∉ steps) (htended : Tended output d steps) :
    (∀ e ∈ (scene output).passes d steps,
        ((scene output).pass e).built = true → (rebuilt e).Matches e.world.store) ↔
      ∀ e ∈ watched output d memo steps,
        ((scene output).pass e.1).built = true → ∀ path, ¬Overlooks e.1 e.2 path := by
  induction steps generalizing d memo with
  | nil => exact ⟨fun _ e he ↦ absurd he List.not_mem_nil, fun _ e he ↦ absurd he List.not_mem_nil⟩
  | cons step rest ih =>
    have hrest : ∀ path, .outside (.remove path) ∉ rest := fun path hmem ↦
      hkept path (List.mem_cons_of_mem step hmem)
    cases step with
    | request target => exact ih h.request hrest htended.2
    | pass =>
      rw [Scene.passes, watched, List.forall_mem_cons, List.forall_mem_cons, h.matches_iff]
      -- What holds behind this pass depends on its program, so the first pass comes first.
      refine and_congr_right fun hfirst ↦ ih (h.pass fun hbuilt ↦ ?_) hrest htended.2
      exact h.matches_iff.2 (hfirst hbuilt)
    | outside event =>
      have hevent : ∀ path, event ≠ .remove path := by
        rintro path rfl
        exact hkept path List.mem_cons_self
      exact ih (h.outside hevent htended.1) hrest htended.2

end Memory

/-- **When no edit is lost.** Take a new driver over a project in memory and a history of it in
which no source is taken away and every edit of a source is followed by a request for it before the
next pass. All programs that are built say what is on the disk just if no pass that builds overlooks
a source: a listed one that nobody asks for, of which a unit is kept, whose text has changed since
the program with that unit was built, and which since then was asked for in passes that have not
built. -/
theorem no_edit_lost_iff (output : Workbench.OutputRule)
    (settings? : Option BatchSettings) (root : FilePath) (m : Memory)
    (diagnostics : List Diagnostic) (steps : List (Step Memory.Happening))
    (hkept : ∀ path, .outside (.remove path) ∉ steps)
    (htended : Memory.Tended output
      ((Memory.scene output).start settings? root (.create m diagnostics)) steps) :
    let scene := Memory.scene output
    let d := scene.start settings? root (.create m diagnostics)
    (∀ e ∈ scene.passes d steps, (scene.pass e).built = true →
        ∃ program ∈ (scene.pass e).session.program?, program.Matches e.world.store) ↔
      ∀ e ∈ Memory.watched output d .blank steps, (scene.pass e.1).built = true →
        ∀ path, ¬Memory.Overlooks e.1 e.2 path := by
  intro scene d
  have hsound : ∀ e ∈ scene.passes d steps, e.world.isFaulty = false := Memory.sound_passes rfl
  refine Iff.trans (forall₂_congr fun e he ↦ imp_congr_right fun hbuilt ↦ ?_)
    ((Memory.holds_start settings? root m diagnostics steps).run hkept htended)
  have hprogram : (scene.pass e).session.program? = some (Memory.rebuilt e) := by
    rw [(Memory.leaves_pass output (hsound e he)).program?]
    exact if_pos hbuilt
  rw [hprogram]
  constructor
  · rintro ⟨program, hmem, hmatches⟩
    rw [Option.some.inj hmem]
    exact hmatches
  · exact fun hmatches ↦ ⟨_, rfl, hmatches⟩

/-- A history of the sample project in which all goes well although the project fails: the source
that has changed is asked for once more. -/
def Sample.insisted : List (Step Memory.Happening) := [
  .request (target "a"), .pass,
  .outside (.edit (locate "src/a.ts") "export const a: number = 2;"), .request (target "a"),
  .outside (.failure (some failure)), .pass,
  .outside (.failure none), .request (target "a"), .pass]

/-- No pass of this history overlooks a source. -/
theorem no_edit_lost_insisted :
    let scene := Memory.scene Workbench.annotatedOutput
    let d := scene.start none Sample.root Sample.workbench
    (∀ path, .outside (.remove path) ∉ Sample.insisted) ∧
      Memory.Tended Workbench.annotatedOutput d Sample.insisted ∧
      ∀ e ∈ Memory.watched Workbench.annotatedOutput d .blank Sample.insisted,
        (scene.pass e.1).built = true → ∀ path, ¬Memory.Overlooks e.1 e.2 path := by
  intro scene d
  have hkept : ∀ path, .outside (.remove path) ∉ Sample.insisted := by simp [Sample.insisted]
  have htended : Memory.Tended Workbench.annotatedOutput d Sample.insisted := by decide +kernel
  refine ⟨hkept, htended, ?_⟩
  refine (no_edit_lost_iff _ none Sample.root Sample.memory [] _ hkept htended).1 ?_
  decide +kernel

/-- A history of the sample project: a source is changed and asked for, but the pass fails because
the project does, and the next pass is for another source. -/
def Sample.swallowed : List (Step Memory.Happening) := [
  .request (target "a"), .pass,
  .outside (.edit (locate "src/a.ts") "export const a: number = 2;"), .request (target "a"),
  .outside (.failure (some failure)), .pass,
  .outside (.failure none), .request (target "b"), .pass]

/-- The last pass of this history serves the old unit. -/
theorem edit_lost_swallowed :
    let scene := Memory.scene Workbench.annotatedOutput
    let d := scene.start none Sample.root Sample.workbench
    (∀ path, .outside (.remove path) ∉ Sample.swallowed) ∧
      Memory.Tended Workbench.annotatedOutput d Sample.swallowed ∧
      ∃ e ∈ scene.passes d Sample.swallowed, (scene.pass e).built = true ∧
        ∀ program ∈ (scene.pass e).session.program?, ¬program.Matches e.world.store := by
  refine ⟨by simp [Sample.swallowed], ?_⟩
  decide +kernel

end Coalesce
