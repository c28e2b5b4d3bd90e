import Coalesce.Proofs.Answers

/-!
# What a pass does for those who wait

Seen from the service, a pass is what it does for the requests that wait when it begins: it leaves
nobody in the queue, answers only those, in the order of their arrival, and all of them unless it
ends over diagnostics or breaks down (`Pass.Attends`). It never gives an answer that is the
service's to give.

A pass may break down anywhere, not only where the backend builds or writes. What it has done until
then is done, and nothing more is: a pass that is *broken off* has a beginning of the journal that
it would have had.
-/

namespace Coalesce

variable {W U P : Type}

/-- A pass that breaks down after so many things were done. -/
def Pass.brokenOff (done : Nat) (pass : Pass W U P) : Pass W U P :=
  { pass with journal := pass.journal.take done, verdict := .crashed }

/-- An answer that only a service gives: that it has stopped, or that a request was given up. -/
def Answer.IsExcuse (answer : Answer U) : Prop :=
  answer = .error .stopped ∨ answer = .error .givenUp

/-- What a pass does for the requests that wait when it begins, also if it breaks down. -/
structure Pass.Attends (pass : Pass W U P) (waiting : List Request) : Prop where
  /-- Nobody waits behind the pass. -/
  queue_eq : pass.session.queue = .empty
  /-- Whoever is answered waited, and is answered once, in the order of arrival. -/
  answered : pass.journal.answers.map Prod.fst <+: waiting
  settles : pass.verdict ≠ .crashed → pass.Settles waiting
  genuine : ∀ answer ∈ pass.journal.answers, ¬answer.2.IsExcuse

/-! ## Answers that a pass gives -/

theorem Journal.answers_take_prefix (j : Journal U) (n : Nat) : answers (j.take n) <+: j.answers :=
  (List.take_prefix n j).filterMap _

namespace Delivery

theorem not_isExcuse_refusals (requests : List Request) {failure : Failure}
    (hfailure : ¬Answer.IsExcuse (.error failure : Answer U)) :
    ∀ answer ∈ (refusals requests failure : Journal U).answers, ¬answer.2.IsExcuse := by
  intro answer hanswer
  rw [answers_refusals] at hanswer
  obtain ⟨r, -, rfl⟩ := List.mem_map.1 hanswer
  exact hfailure

theorem not_isExcuse_answers (artifact? : Target → Option (Artifact U)) (requests : List Request) :
    ∀ answer ∈ (answers artifact? requests).1.answers, ¬answer.2.IsExcuse := by
  induction requests with
  | nil => exact fun _ hanswer ↦ absurd hanswer List.not_mem_nil
  | cons r rest ih =>
    intro answer hanswer
    rw [answers] at hanswer
    cases h : artifact? r.target with
    | none =>
      rw [h, Journal.answers_answer_cons] at hanswer
      rcases List.mem_cons.1 hanswer with rfl | hanswer
      · simp [Answer.IsExcuse]
      · exact not_isExcuse_refusals rest (by simp [Answer.IsExcuse]) answer hanswer
    | some artifact =>
      rw [h, Journal.answers_answer_cons] at hanswer
      rcases List.mem_cons.1 hanswer with rfl | hanswer
      · simp [Answer.IsExcuse]
      · exact ih answer hanswer

end Delivery

/-! ## Every pass attends to those who wait -/

namespace Pass.Attends

variable {pass : Pass W U P} {waiting : List Request}

theorem of_silent (hqueue : pass.session.queue = .empty) (hverdict : pass.verdict = .crashed)
    (hanswers : pass.journal.answers = []) : pass.Attends waiting where
  queue_eq := hqueue
  answered := by
    rw [hanswers]
    exact List.nil_prefix
  settles := fun h ↦ absurd hverdict h
  genuine := by
    rw [hanswers]
    exact fun _ hanswer ↦ absurd hanswer List.not_mem_nil

theorem of_settles (h : pass.Settles waiting)
    (hgenuine : ∀ answer ∈ pass.journal.answers, ¬answer.2.IsExcuse) : pass.Attends waiting where
  queue_eq := h.queue_eq
  answered := by
    cases hverdict : pass.verdict.isDiagnosed with
    | true =>
      rw [h.silent hverdict]
      exact List.nil_prefix
    | false => exact ⟨[], by rw [h.answered hverdict, List.append_nil]⟩
  settles := fun _ ↦ h
  genuine := hgenuine

/-- What has been done before a pass breaks down is what would have been done first. -/
theorem brokenOff (h : pass.Attends waiting) (done : Nat) :
    (pass.brokenOff done).Attends waiting where
  queue_eq := h.queue_eq
  answered := ((Journal.answers_take_prefix pass.journal done).map _).trans h.answered
  settles := fun hverdict ↦ absurd rfl hverdict
  genuine := fun answer hanswer ↦
    h.genuine answer ((Journal.answers_take_prefix pass.journal done).subset hanswer)

end Pass.Attends

namespace Session

variable (backend : Backend W U P) (project : Project W) (s : Session P) (w : W)

theorem not_isExcuse_pass :
    ∀ answer ∈ (s.pass backend project w).journal.answers, ¬answer.2.IsExcuse := by
  have hcourse := s.course_pass backend project w
  generalize s.pass backend project w = pass at hcourse ⊢
  intro answer hanswer
  cases hcourse with
  | unavailable hstage =>
    rw [Pass.answers_after answers_opening] at hanswer
    exact Delivery.not_isExcuse_refusals _ (by simp [Answer.IsExcuse]) answer hanswer
  | halted hstage hhalts =>
    rw [Pass.answers_after (by simp)] at hanswer
    exact absurd hanswer List.not_mem_nil
  | crashed hstage hbuild =>
    rw [Pass.answers_after (by simp)] at hanswer
    exact absurd hanswer List.not_mem_nil
  | diagnosed hstage hbuild hstop =>
    rw [Pass.answers_after (by simp)] at hanswer
    exact absurd hanswer List.not_mem_nil
  | cutShort hstage hbuild hstop hcut =>
    rw [Pass.answers_after (by simp)] at hanswer
    exact absurd hanswer List.not_mem_nil
  | emitted hstage hbuild hstop hwhole =>
    rw [Pass.answers_after (by simp), Built.answers_finished] at hanswer
    exact Delivery.not_isExcuse_answers _ _ answer hanswer

theorem silent_of_crashed (h : (s.pass backend project w).verdict = .crashed) :
    (s.pass backend project w).session.queue = .empty ∧
      (s.pass backend project w).journal.answers = [] := by
  have hcourse := s.course_pass backend project w
  generalize s.pass backend project w = pass at hcourse h ⊢
  cases hcourse with
  | unavailable hstage => cases h
  | halted hstage hhalts => cases h
  | crashed hstage hbuild => exact ⟨rfl, Pass.answers_after (by simp)⟩
  | diagnosed hstage hbuild hstop => cases h
  | cutShort hstage hbuild hstop hcut => exact ⟨rfl, Pass.answers_after (by simp)⟩
  | emitted hstage hbuild hstop hwhole =>
    rw [Pass.verdict_after, Built.finished] at h
    dsimp only at h
    split at h <;> cases h

/-- **Every pass attends to the queue.** -/
theorem attends_pass : (s.pass backend project w).Attends s.queue.requests := by
  by_cases hverdict : (s.pass backend project w).verdict = .crashed
  · obtain ⟨hqueue, hanswers⟩ := silent_of_crashed backend project s w hverdict
    exact .of_silent hqueue hverdict hanswers
  · exact .of_settles (settles_pass backend project s w hverdict)
      (not_isExcuse_pass backend project s w)

end Session

end Coalesce
