import Coalesce.Proofs.InMemory
import Coalesce.Workbench.Sample
import Mathlib.Data.List.Forall2

/-!
# Every request is answered once

However a pass ends, nobody waits behind it, and whoever waited before it was answered by it, once
and in the order of arrival. There is one exception: a pass that ends over diagnostics answers
nobody, and since the queue is empty behind it, nobody of those who waited is ever answered.

The course of a pass gives this for one pass (`Session.settles_pass`). Over a history the requests
fall into *batches*, one for each pass, which are read off the steps and not off the queue; tickets
increase along them, so no request belongs to two batches.
-/

namespace Coalesce

variable {W U P E : Type}

/-! ## One pass -/

/-- A pass that ended over diagnostics. -/
def Verdict.isDiagnosed : Verdict → Bool
  | .failed (.diagnosed _) => true
  | _ => false

/-- What becomes of the requests that wait when a pass begins. -/
structure Pass.Settles (pass : Pass W U P) (waiting : List Request) : Prop where
  /-- Nobody waits behind the pass. -/
  queue_eq : pass.session.queue = .empty
  /-- All are answered in the order of arrival, ... -/
  answered : pass.verdict.isDiagnosed = false → pass.journal.answers.map Prod.fst = waiting
  /-- ... or else nobody is. -/
  silent : pass.verdict.isDiagnosed = true → pass.journal.answers = []

namespace Pass

theorem answers_after {pass : Pass W U P} {journal : Journal U} (hjournal : journal.answers = []) :
    (pass.after journal).journal.answers = pass.journal.answers := by
  rw [journal_after, Journal.answers_append, hjournal, List.nil_append]

theorem Settles.after {pass : Pass W U P} {waiting : List Request} {journal : Journal U}
    (hjournal : journal.answers = []) (h : pass.Settles waiting) :
    (pass.after journal).Settles waiting where
  queue_eq := h.queue_eq
  answered := by
    rw [answers_after hjournal]
    exact h.answered
  silent := by
    rw [answers_after hjournal]
    exact h.silent

theorem settles_abandoned (s : Session P) (w : W) (built : Bool) (count : Nat)
    (waiting : List Request) :
    (abandoned s w built (.diagnosed count) : Pass W U P).Settles waiting where
  queue_eq := rfl
  answered := by
    intro h
    exact absurd h (by simp [abandoned, Verdict.isDiagnosed])
  silent := fun _ ↦ rfl

theorem settles_refused (s : Session P) (w : W) (cause : ProjectFailure) :
    (refused s w (.unavailable cause) : Pass W U P).Settles s.queue.requests where
  queue_eq := rfl
  answered := by
    intro _
    have hanswers : (refused s w (.unavailable cause) : Pass W U P).journal.answers =
        s.queue.requests.map fun r ↦ (r, .error (.unavailable cause)) :=
      Delivery.answers_refusals _ _
    rw [hanswers, List.map_map]
    exact List.map_id _
  silent := by
    intro h
    exact absurd h (by simp [refused, Verdict.isDiagnosed])

end Pass

namespace Delivery

theorem map_fst_answers (artifact? : Target → Option (Artifact U)) (requests : List Request) :
    (answers artifact? requests).1.answers.map Prod.fst = requests := by
  induction requests with
  | nil => rfl
  | cons r rest ih =>
    rw [answers]
    cases h : artifact? r.target with
    | none =>
      rw [Journal.answers_answer_cons, answers_refusals, List.map_cons, List.map_map]
      exact congrArg (r :: ·) (List.map_id rest)
    | some artifact => exact congrArg (r :: ·) ih

end Delivery

namespace Session

variable {backend : Backend W U P} {project : Project W} {s : Session P} {w : W}

@[simp] theorem answers_opening : (s.opening backend project w).answers = [] := by
  have htraces : Journal.answers ((s.refresh project w).traces.map fun line ↦
      (.trace line : Event U)) = [] := by
    rw [Journal.answers, List.filterMap_map, List.filterMap_eq_nil_iff]
    exact fun _ _ ↦ rfl
  exact htraces

theorem queue_stage {st : Stage W P} (h : s.stage backend project w = .ok st) :
    st.session.queue = s.queue := by
  rw [(stage_eq_ok h).2.2]
  rfl

theorem queue_build {st : Stage W P} {b : Built W P} (h : st.build? backend = some b) :
    b.session.queue = st.session.queue := by
  obtain ⟨dialogue, w, -, -, -, -, -, -, hsession⟩ := Stage.build?_eq_some h
  rw [hsession]

end Session

@[simp] theorem Stage.answers_notices (st : Stage W P) :
    (st.notices : Journal U).answers = [] :=
  Diagnostic.answers_announce _ _ _

namespace Built

variable {backend : Backend W U P} {b : Built W P}

@[simp] theorem answers_notices : (b.notices backend).answers = [] :=
  Diagnostic.answers_announce _ _ _

@[simp] theorem answers_finished (invalidated : Bool) :
    (b.finished backend invalidated).journal.answers = (b.delivery backend).1.answers := by
  have hclosing : (b.closing backend).answers = [] := by
    rw [closing]
    cases (b.delivery backend).2 <;> rfl
  calc (b.finished backend invalidated).journal.answers
      = (b.delivery backend).1.answers ++ (b.closing backend).answers :=
        Journal.answers_append _ _
    _ = (b.delivery backend).1.answers := by rw [hclosing, List.append_nil]

@[simp] theorem isDiagnosed_finished (invalidated : Bool) :
    (b.finished backend invalidated).verdict.isDiagnosed = false := by
  rw [finished]
  cases (b.delivery backend).2 <;> rfl

theorem settles_finished (invalidated : Bool) :
    (b.finished backend invalidated).Settles b.session.queue.requests where
  queue_eq := rfl
  answered := by
    intro _
    rw [answers_finished]
    exact Delivery.map_fst_answers _ _
  silent := by
    intro h
    rw [isDiagnosed_finished] at h
    cases h

end Built

namespace Session

variable (backend : Backend W U P) (project : Project W) (s : Session P) (w : W)

/-- **A pass settles the queue** unless the backend breaks down. -/
theorem settles_pass (hsound : (s.pass backend project w).verdict ≠ .crashed) :
    (s.pass backend project w).Settles s.queue.requests := by
  have hcourse := s.course_pass backend project w
  generalize s.pass backend project w = pass at hcourse hsound ⊢
  cases hcourse with
  | unavailable hstage =>
    exact .after answers_opening (Pass.settles_refused (s.refresh project w).session _ _)
  | halted hstage hhalts =>
    exact .after (by simp) (Pass.settles_abandoned ..)
  | crashed hstage hbuild => exact absurd rfl hsound
  | diagnosed hstage hbuild hstop => exact .after (by simp) (Pass.settles_abandoned ..)
  | cutShort hstage hbuild hstop hcut => exact absurd rfl hsound
  | emitted hstage hbuild hstop hwhole =>
    rw [← queue_stage (building?_eq_some_iff.1 hstage).1, ← queue_build hbuild]
    exact .after (by simp) (Built.settles_finished _)

end Session

/-! ## A history -/

/-- The requests that are made between two passes of a history, a batch for each pass. Of the
requests before, `issued` is the number and `waiting` are those since the last pass. -/
def batches (issued : Nat) (waiting : List Request) : List (Step E) → List (List Request)
  | [] => []
  | .request target :: rest => batches (issued + 1) (waiting ++ [⟨issued, target⟩]) rest
  | .pass :: rest => waiting :: batches issued [] rest
  | .outside _ :: rest => batches issued waiting rest

/-- Requests in the order of their tickets. -/
abbrev InOrder (requests : List Request) : Prop := requests.Pairwise (·.ticket < ·.ticket)

theorem mem_batches {issued : Nat} {waiting batch : List Request} {steps : List (Step E)}
    {r : Request} (hbatch : batch ∈ batches issued waiting steps) (hr : r ∈ batch) :
    r ∈ waiting ∨ issued ≤ r.ticket := by
  induction steps generalizing issued waiting with
  | nil => exact absurd hbatch (by simp [batches])
  | cons step rest ih =>
    cases step with
    | request target =>
      -- The request that is made now has the number of those before as its ticket.
      rcases ih hbatch with h | h
      · rcases List.mem_append.1 h with h | h
        · exact Or.inl h
        · rw [List.mem_singleton] at h
          exact Or.inr (Nat.le_of_eq (congrArg Request.ticket h).symm)
      · exact Or.inr (by omega)
    | pass =>
      rcases List.mem_cons.1 hbatch with rfl | h
      · exact Or.inl hr
      · rcases ih h with h | h
        · exact absurd h (by simp)
        · exact Or.inr h
    | outside event => exact ih hbatch

/-- Tickets increase within batches and from batch to batch. -/
theorem inOrder_flatten_batches {issued : Nat} {waiting : List Request} {steps : List (Step E)}
    (hwaiting : InOrder waiting) (hissued : ∀ r ∈ waiting, r.ticket < issued) :
    InOrder (batches issued waiting steps).flatten := by
  induction steps generalizing issued waiting with
  | nil => exact List.Pairwise.nil
  | cons step rest ih =>
    cases step with
    | request target =>
      refine ih ?_ ?_
      · rw [InOrder, List.pairwise_append]
        refine ⟨hwaiting, List.pairwise_singleton _ _, fun r hr r' hr' ↦ ?_⟩
        rw [List.mem_singleton] at hr'
        rw [hr']
        exact hissued r hr
      · intro r hr
        rcases List.mem_append.1 hr with hr | hr
        · exact Nat.lt_succ_of_lt (hissued r hr)
        · rw [List.mem_singleton] at hr
          rw [hr]
          exact Nat.lt_succ_self issued
    | pass =>
      rw [batches, List.flatten_cons, InOrder, List.pairwise_append]
      refine ⟨hwaiting, ih List.Pairwise.nil (by simp), fun r hr r' hr' ↦ ?_⟩
      obtain ⟨batch, hbatch, hmem⟩ := List.mem_flatten.1 hr'
      rcases mem_batches hbatch hmem with h | h
      · exact absurd h (by simp)
      · exact Nat.lt_of_lt_of_le (hissued r hr) h
    | outside event => exact ih hwaiting hissued

namespace Scene

variable (scene : Scene W U P E)

theorem settles_passes {d : Driver W P} {steps : List (Step E)}
    (hsound : ∀ e ∈ scene.passes d steps, (scene.pass e).verdict ≠ .crashed) :
    List.Forall₂ Pass.Settles ((scene.passes d steps).map scene.pass)
      (batches d.issued d.session.queue.requests steps) := by
  induction steps generalizing d with
  | nil => exact List.Forall₂.nil
  | cons step rest ih =>
    cases step with
    | request target => exact ih hsound
    | pass =>
      have hsettles : (scene.pass d).Settles d.session.queue.requests :=
        Session.settles_pass _ _ _ _ (hsound d List.mem_cons_self)
      refine List.Forall₂.cons hsettles ?_
      have hrest := ih (d := scene.step d .pass) fun e he ↦ hsound e (List.mem_cons_of_mem d he)
      -- Nobody is left over for the batch of the next pass.
      have hqueue : (scene.step d .pass).session.queue.requests = [] :=
        congrArg Queue.requests hsettles.queue_eq
      rwa [hqueue] at hrest
    | outside event => exact ih hsound

end Scene

theorem InOrder.countP_ticket {rs : List Request} {r : Request} (h : InOrder rs) (hr : r ∈ rs) :
    rs.countP (·.ticket = r.ticket) = 1 := by
  induction rs with
  | nil => exact absurd hr (by simp)
  | cons first rest ih =>
    obtain ⟨hfirst, hrest⟩ := List.pairwise_cons.1 h
    rcases List.mem_cons.1 hr with rfl | hr
    · have hnone : rest.countP (·.ticket = r.ticket) = 0 := by
        rw [List.countP_eq_zero]
        intro r' hr'
        have := hfirst r' hr'
        simp only [decide_eq_true_eq]
        omega
      rw [List.countP_cons_of_pos (by simp), hnone]
    · have hne : first.ticket ≠ r.ticket := Nat.ne_of_lt (hfirst r hr)
      rw [List.countP_cons_of_neg (by simpa using hne), ih hrest hr]

theorem ticket_ne_of_batches {bs : List (List Request)} (h : InOrder bs.flatten) {i j : Nat}
    (hi : i < bs.length) (hj : j < bs.length) (hij : i ≠ j) {r r' : Request} (hr : r ∈ bs[i])
    (hr' : r' ∈ bs[j]) : r'.ticket ≠ r.ticket := by
  have hpairs := List.pairwise_iff_getElem.1 (List.pairwise_flatten.1 h).2
  rcases Nat.lt_or_gt_of_ne hij with hlt | hgt
  · exact Nat.ne_of_gt (hpairs i j hi hj hlt r hr r' hr')
  · exact Nat.ne_of_lt (hpairs j i hj hi hgt r' hr' r hr)

/-- How often a pass answers a ticket. -/
def Pass.timesAnswered (pass : Pass W U P) (ticket : Nat) : Nat :=
  pass.journal.answers.countP (·.1.ticket = ticket)

theorem Pass.Settles.timesAnswered {pass : Pass W U P} {waiting : List Request}
    (h : pass.Settles waiting) (ticket : Nat) :
    pass.timesAnswered ticket =
      if pass.verdict.isDiagnosed then 0 else waiting.countP (·.ticket = ticket) := by
  rw [Pass.timesAnswered]
  split
  next hverdict => rw [h.silent hverdict, List.countP_nil]
  next hverdict =>
    rw [← h.answered (by simpa using hverdict), List.countP_map]
    rfl

/-- **Every request leaves the queue exactly once.** The passes of a history settle its batches one
after another: behind every pass nobody waits, and a pass answers its batch in the order of arrival,
or nobody if it ends over diagnostics. Hence a request is answered once by the pass of its own
batch, unless that pass ends over diagnostics, and by no other pass. -/
theorem requests_leave_exactly_once (scene : Scene W U P E) (settings? : Option BatchSettings)
    (root : FilePath) (w : W) (steps : List (Step E))
    (hsound : ∀ e ∈ scene.passes (scene.start settings? root w) steps,
      (scene.pass e).verdict ≠ .crashed) :
    let made := (scene.passes (scene.start settings? root w) steps).map scene.pass
    let asked := batches 0 [] steps
    List.Forall₂ Pass.Settles made asked ∧
      ∀ (i j : Nat) (hi : i < asked.length) (hj : j < made.length), ∀ r ∈ asked[i],
        made[j].timesAnswered r.ticket =
          if i = j ∧ made[j].verdict.isDiagnosed = false then 1 else 0 := by
  intro made asked
  have hsettles : List.Forall₂ Pass.Settles made asked := scene.settles_passes hsound
  have horder : InOrder asked.flatten := inOrder_flatten_batches List.Pairwise.nil (by simp)
  refine ⟨hsettles, ?_⟩
  intro i j hi hj r hr
  have hj' : j < asked.length := by rwa [← hsettles.length_eq]
  have hpass : made[j].Settles asked[j] := hsettles.get hj hj'
  rw [hpass.timesAnswered]
  by_cases hij : i = j
  · subst hij
    have hbatch : InOrder asked[i] :=
      (List.pairwise_flatten.1 horder).1 _ (List.getElem_mem hi)
    rw [hbatch.countP_ticket hr]
    cases made[i].verdict.isDiagnosed <;> simp
  · have hnone : asked[j].countP (·.ticket = r.ticket) = 0 := by
      rw [List.countP_eq_zero]
      intro r' hr'
      simpa using ticket_ne_of_batches horder hi hj' hij hr hr'
    rw [hnone, ite_self, if_neg fun h ↦ hij h.1]

/-- A history of the sample project in which passes end in four different ways: all is delivered,
a source is missing, the project fails, and diagnostics stop the pass. -/
def Sample.eventful : List (Step Memory.Happening) := [
  .request (target "a"), .request (target "b"), .request (target "a"), .pass,
  .request (target "b"), .request (target "lost"), .request (target "a"), .pass,
  .outside (.failure (some failure)), .request (target "b"), .pass,
  .outside (.failure none), .outside (.options { BuildOptions.default with noEmitOnError := true }),
  .outside (.diagnostics [.error "TS1" "odd"]), .request (target "a"), .pass]

theorem requests_leave_exactly_once_eventful :
    let scene := Memory.scene Workbench.annotatedOutput
    let begun := scene.passes (scene.start none Sample.root Sample.workbench) Sample.eventful
    (∀ e ∈ begun, (scene.pass e).verdict ≠ .crashed) ∧
      List.Forall₂ Pass.Settles (begun.map scene.pass) (batches 0 [] Sample.eventful) :=
  have hsound : ∀ e ∈ (Memory.scene Workbench.annotatedOutput).passes
      ((Memory.scene Workbench.annotatedOutput).start none Sample.root Sample.workbench)
      Sample.eventful, ((Memory.scene Workbench.annotatedOutput).pass e).verdict ≠ .crashed := by
    decide +kernel
  ⟨hsound, (requests_leave_exactly_once _ _ _ _ _ hsound).1⟩

end Coalesce
