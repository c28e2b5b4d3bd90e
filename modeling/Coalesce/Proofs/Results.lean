import Coalesce.Proofs.Growth

/-!
# What those who ask are told

Answers come from passes. Somebody who waits for one that cannot come any more is told by the
service that the request was given up, and one who would wait at a service that has stopped is told
so. The log has it all: the *results* of a ticket are what was told to it, by a pass or by the
service, and its *calls* are those that came from passes.

A pass answers only its own batch and each request in it at most once, so a request that was read is
called by the pass that it falls to or by none (`Moment.Accounted.calls_eq`).
-/

namespace Coalesce

variable {W U P E : Type}

/-! ## Tickets in order -/

theorem InOrder.filter_ticket {rs : List Request} {r : Request} (h : InOrder rs) (hr : r ∈ rs) :
    rs.filter (·.ticket = r.ticket) = [r] := by
  have hlength : (rs.filter (·.ticket = r.ticket)).length = 1 := by
    rw [← List.countP_eq_length_filter]
    exact h.countP_ticket hr
  obtain ⟨only, honly⟩ := List.length_eq_one_iff.1 hlength
  have hmem : r ∈ rs.filter (·.ticket = r.ticket) := List.mem_filter.2 ⟨hr, by simp⟩
  rw [honly, List.mem_singleton] at hmem
  rw [honly, hmem]

theorem InOrder.eq_of_ticket {rs : List Request} {r r' : Request} (h : InOrder rs) (hr : r ∈ rs)
    (hr' : r' ∈ rs) (hticket : r'.ticket = r.ticket) : r' = r := by
  have hmem : r' ∈ rs.filter (·.ticket = r.ticket) :=
    List.mem_filter.2 ⟨hr', by simpa using hticket⟩
  rwa [h.filter_ticket hr, List.mem_singleton] at hmem

theorem InOrder.countP_le_one {rs : List Request} (h : InOrder rs) (ticket : Nat) :
    rs.countP (·.ticket = ticket) ≤ 1 := by
  by_cases hsome : ∃ r ∈ rs, r.ticket = ticket
  · obtain ⟨r, hr, rfl⟩ := hsome
    exact Nat.le_of_eq (h.countP_ticket hr)
  · have hnone : rs.countP (·.ticket = ticket) = 0 := by
      rw [List.countP_eq_zero]
      intro r hr hticket
      exact hsome ⟨r, hr, by simpa using hticket⟩
    omega

namespace Journal

variable (j k : Journal U) (ticket : Nat)

/-- What a journal has for a ticket. -/
def answersTo : List (Answer U) := (j.answers.filter (·.1.ticket = ticket)).map Prod.snd

@[simp] theorem answersTo_append :
    answersTo (j ++ k) ticket = j.answersTo ticket ++ k.answersTo ticket := by
  simp [answersTo]

variable {j ticket}

theorem answersTo_of_silent (h : j.answers = []) : j.answersTo ticket = [] := by
  rw [answersTo, h]
  rfl

theorem answersTo_eq_nil_iff :
    j.answersTo ticket = [] ↔ ∀ answer ∈ j.answers, answer.1.ticket ≠ ticket := by
  simp [answersTo]

theorem length_answersTo :
    (j.answersTo ticket).length = j.answers.countP (·.1.ticket = ticket) := by
  rw [answersTo, List.length_map, List.countP_eq_length_filter]

theorem answersTo_refusals (requests : List Request) (failure : Failure) :
    (Delivery.refusals requests failure : Journal U).answersTo ticket =
      (requests.filter (·.ticket = ticket)).map fun _ ↦ .error failure := by
  rw [answersTo, Delivery.answers_refusals, List.filter_map, List.map_map]
  rfl

end Journal

namespace Service

variable (s : Service W U P) (now ticket : Nat)

/-- What was told to a ticket so far. -/
def results : List (Answer U) := Journal.answersTo (s.log.map (·.event)) ticket

variable {s now ticket}

@[simp] theorem results_note (journal : Journal U) :
    (s.note now journal).results ticket = s.results ticket ++ journal.answersTo ticket := by
  have hevents : (journal.map (Timed.mk now)).map (·.event) = journal := by
    rw [List.map_map]
    exact List.map_id journal
  rw [results, note, List.map_append, hevents, Journal.answersTo_append]
  rfl

@[simp] theorem answersTo_closing (verdict : Verdict) :
    (closing verdict : Journal U).answersTo ticket = [] := by
  cases verdict <;> rfl

/-! ## Letting go -/

section Release

variable {journal : Journal U}

variable (now) in
theorem mem_waiting_release {r : Request} :
    r ∈ (s.release now journal).waiting ↔
      r ∈ s.waiting ∧ journal.answersTo r.ticket = [] ∧ s.holds r = true := by
  have hunanswered : journal.answersTo r.ticket = [] ↔
      (!(journal.answers.map fun answer ↦ answer.1.ticket).contains r.ticket) = true := by
    simp [Journal.answersTo_eq_nil_iff]
  rw [hunanswered, ← and_assoc]
  exact List.mem_filter.trans (and_congr_left' List.mem_filter)

/-- Those whose request is nowhere any more though they were not answered. -/
def lost (s : Service W U P) (journal : Journal U) : List Request :=
  s.waiting.filter fun r ↦ (journal.answersTo r.ticket).isEmpty && !s.holds r

theorem results_release : (s.release now journal).results ticket =
    s.results ticket ++ ((s.lost journal).filter (·.ticket = ticket)).map fun _ ↦
      .error .givenUp := by
  have hlost : (s.waiting.filter fun r ↦
      !(journal.answers.map fun answer ↦ answer.1.ticket).contains r.ticket).filter
        (fun r ↦ !s.holds r) = s.lost journal := by
    rw [lost, List.filter_filter]
    refine List.filter_congr fun r _ ↦ ?_
    rw [Bool.and_comm, Bool.eq_iff_iff]
    simp [Journal.answersTo_eq_nil_iff]
  rw [release, results_note, hlost]
  exact congrArg (s.results ticket ++ ·) (Journal.answersTo_refusals _ _)

theorem results_release_of_not_lost
    (h : ∀ r ∈ s.waiting, r.ticket = ticket → journal.answersTo ticket = [] → s.holds r = true) :
    (s.release now journal).results ticket = s.results ticket := by
  have hnobody : (s.lost journal).filter (·.ticket = ticket) = [] := by
    rw [List.filter_eq_nil_iff]
    intro r hr hticket
    obtain ⟨hwaiting, hlost⟩ := List.mem_filter.1 hr
    rw [Bool.and_eq_true, List.isEmpty_iff] at hlost
    rw [decide_eq_true_eq] at hticket
    rw [hticket] at hlost
    simpa [h r hwaiting hticket hlost.1] using hlost.2
  rw [results_release, hnobody, List.map_nil, List.append_nil]

/-- Somebody whose request is nowhere any more is told once. -/
theorem results_release_of_lost {r : Request} (horder : InOrder s.waiting) (hr : r ∈ s.waiting)
    (hunanswered : journal.answersTo r.ticket = []) (hlost : s.holds r = false) :
    (s.release now journal).results r.ticket = s.results r.ticket ++ [.error .givenUp] := by
  have hmem : r ∈ s.lost journal := by
    refine List.mem_filter.2 ⟨hr, ?_⟩
    rw [hunanswered, hlost]
    rfl
  have hinorder : InOrder (s.lost journal) := horder.sublist List.filter_sublist
  rw [results_release, hinorder.filter_ticket hmem]
  rfl

end Release

/-! ## Stopping -/

section Stop

theorem waiting_stop_sublist : (s.stop now).waiting.Sublist s.waiting :=
  List.filter_sublist.trans List.filter_sublist

theorem waiting_stop (hqueue : s.session.queue.requests = []) : (s.stop now).waiting = [] := by
  rw [List.eq_nil_iff_forall_not_mem]
  intro r hr
  have hholds := ((mem_waiting_release now).1 hr).2.2
  rw [holds, hqueue] at hholds
  cases hholds

theorem results_stop_of_waiting {r : Request} (hqueue : s.session.queue.requests = [])
    (horder : InOrder s.waiting) (hr : r ∈ s.waiting) :
    (s.stop now).results r.ticket = s.results r.ticket ++ [.error .givenUp] := by
  refine results_release_of_lost horder hr rfl ?_
  rw [holds, hqueue]
  rfl

theorem results_stop_of_not_waiting (h : ∀ r ∈ s.waiting, r.ticket ≠ ticket) :
    (s.stop now).results ticket = s.results ticket :=
  results_release_of_not_lost fun r hr hticket ↦ absurd hticket (h r hr)

end Stop

/-! ## Without an answer -/

@[simp] theorem results_say (message : String) :
    (s.say now message).results ticket = s.results ticket := by
  rw [say, results_note]
  exact List.append_nil _

@[simp] theorem results_accept (r : Request) :
    (s.accept now r).results ticket = s.results ticket :=
  results_say _

@[simp] theorem results_begin (isLast : Bool) :
    (s.begin isLast now).results ticket = s.results ticket :=
  results_say _

theorem waiting_close_subset : (s.close now).waiting ⊆ s.waiting := by
  rw [close]
  split
  · exact waiting_stop_sublist.subset
  · exact List.Subset.refl _

theorem results_close_of_not_waiting (h : ∀ r ∈ s.waiting, r.ticket ≠ ticket) :
    (s.close now).results ticket = s.results ticket := by
  rw [close]
  split
  · exact results_stop_of_not_waiting h
  · exact results_begin _

/-! ## Behind a pass -/

section Heed

variable (s now) in
/-- The service when everybody has been told of a pass. It stops then, or it goes on. -/
def heed (pass : Pass W U P) : Service W U P :=
  let after : Service W U P := { s with
    session := pass.session
    world := pass.world
    timer := s.timer.withQuiet pass.session.batch.quietPeriod
    phase := .listening }
  ((after.note now pass.journal).release now pass.journal).note now (closing pass.verdict)

variable {pass : Pass W U P}

theorem conclude_of_stops {isLast : Bool} (h : isLast = true ∨ pass.verdict = .crashed) :
    s.conclude now isLast pass = (s.heed now pass).stop now :=
  if_pos h

theorem conclude_of_goes_on {isLast : Bool} (h : ¬(isLast = true ∨ pass.verdict = .crashed)) :
    s.conclude now isLast pass = s.heed now pass :=
  if_neg h

theorem waiting_heed_sublist : (s.heed now pass).waiting.Sublist s.waiting :=
  List.filter_sublist.trans List.filter_sublist

theorem waiting_conclude_subset (isLast : Bool) :
    (s.conclude now isLast pass).waiting ⊆ s.waiting := by
  by_cases hstops : isLast = true ∨ pass.verdict = .crashed
  · rw [conclude_of_stops hstops]
    exact (waiting_stop_sublist.trans waiting_heed_sublist).subset
  · rw [conclude_of_goes_on hstops]
    exact waiting_heed_sublist.subset

variable (hqueue : pass.session.queue = .empty)
include hqueue

theorem holds_heed_iff {r : Request} :
    (s.heed now pass).holds r = true ↔ .request r ∈ s.inbox := by
  rw [holds]
  simp [heed, release, note, hqueue, Queue.empty]

/-- Those wait further whose request is still in the inbox. -/
theorem mem_waiting_heed {r : Request} : r ∈ (s.heed now pass).waiting ↔
    r ∈ s.waiting ∧ pass.journal.answersTo r.ticket = [] ∧ .request r ∈ s.inbox := by
  have hholds : (s.heed now pass).holds r = true ↔ .request r ∈ s.inbox := holds_heed_iff hqueue
  rw [← hholds]
  exact mem_waiting_release now

theorem results_heed_of_not_lost (h : ∀ r ∈ s.waiting, r.ticket = ticket →
    pass.journal.answersTo ticket = [] → .request r ∈ s.inbox) :
    (s.heed now pass).results ticket = s.results ticket ++ pass.journal.answersTo ticket := by
  rw [heed, results_note, answersTo_closing, List.append_nil, results_release_of_not_lost,
    results_note]
  · rfl
  · intro r hr hticket hunanswered
    have hholds : (s.heed now pass).holds r = true :=
      (holds_heed_iff hqueue).2 (h r hr hticket hunanswered)
    exact hholds

theorem results_heed_of_lost {r : Request} (horder : InOrder s.waiting) (hr : r ∈ s.waiting)
    (hunanswered : pass.journal.answersTo r.ticket = []) (hlost : .request r ∉ s.inbox) :
    (s.heed now pass).results r.ticket = s.results r.ticket ++ [.error .givenUp] := by
  rw [heed, results_note, answersTo_closing, List.append_nil, results_release_of_lost,
    results_note, hunanswered, List.append_nil]
  · rfl
  · exact horder
  · exact hr
  · exact hunanswered
  · have hholds : (s.heed now pass).holds r ≠ true := fun h ↦ hlost ((holds_heed_iff hqueue).1 h)
    exact Bool.eq_false_iff.2 hholds

theorem results_conclude_of_not_waiting (isLast : Bool) (h : ∀ r ∈ s.waiting, r.ticket ≠ ticket) :
    (s.conclude now isLast pass).results ticket =
      s.results ticket ++ pass.journal.answersTo ticket := by
  have hheed : (s.heed now pass).results ticket =
      s.results ticket ++ pass.journal.answersTo ticket :=
    results_heed_of_not_lost hqueue fun r hr hticket ↦ absurd hticket (h r hr)
  by_cases hstops : isLast = true ∨ pass.verdict = .crashed
  · rw [conclude_of_stops hstops, results_stop_of_not_waiting, hheed]
    exact fun r hr ↦ h r (waiting_heed_sublist.subset hr)
  · rw [conclude_of_goes_on hstops, hheed]

end Heed

end Service

/-! ## Calls -/

namespace Pass.Attends

variable {pass : Pass W U P} {waiting : List Request} {ticket : Nat}

theorem answersTo_eq_nil (h : pass.Attends waiting) (hnobody : ∀ r ∈ waiting, r.ticket ≠ ticket) :
    pass.journal.answersTo ticket = [] := by
  rw [Journal.answersTo_eq_nil_iff]
  intro answer hanswer
  exact hnobody _ (h.answered.subset (List.mem_map_of_mem hanswer))

theorem length_answersTo_le_one (h : pass.Attends waiting) (horder : InOrder waiting) :
    (pass.journal.answersTo ticket).length ≤ 1 := by
  have hanswered : InOrder (pass.journal.answers.map Prod.fst) :=
    horder.sublist h.answered.sublist
  have hcount := hanswered.countP_le_one ticket
  rw [List.countP_map] at hcount
  rw [Journal.length_answersTo]
  exact hcount

end Pass.Attends

/-- A pass that does not break down tells everybody whom it is for, unless it ends over
diagnostics. -/
theorem Pass.Settles.answersTo_eq_nil_iff {pass : Pass W U P} {waiting : List Request} {r : Request}
    (h : pass.Settles waiting) (horder : InOrder waiting) (hr : r ∈ waiting) :
    pass.journal.answersTo r.ticket = [] ↔ pass.verdict.isDiagnosed = true := by
  have htimes := h.timesAnswered r.ticket
  rw [Pass.timesAnswered, ← Journal.length_answersTo, horder.countP_ticket hr] at htimes
  rw [← List.length_eq_zero_iff, htimes]
  cases pass.verdict.isDiagnosed <;> simp

namespace Moment

variable {m m' : Moment W U P}

/-- What passes have told to a ticket so far. -/
def calls (m : Moment W U P) (ticket : Nat) : List (Answer U) :=
  m.rounds.flatMap fun round ↦ round.pass.journal.answersTo ticket

@[simp] theorem calls_conclude (isLast : Bool) (pass : Pass W U P) (ticket : Nat) :
    (m.conclude isLast pass).calls ticket =
      m.calls ticket ++ pass.journal.answersTo ticket := by
  simp [calls, conclude]

namespace Accounted

theorem calls_eq_nil (h : m.Accounted) {ticket : Nat}
    (hunread : ∀ r ∈ m.heard.map Prod.fst, r.ticket ≠ ticket) : m.calls ticket = [] := by
  rw [calls, List.flatMap_eq_nil_iff]
  intro round hround
  refine (h.attended round hround).answersTo_eq_nil fun r hr ↦ hunread r ?_
  rw [h.batched, batches]
  exact List.mem_flatten_of_mem (List.mem_append_left _ (List.mem_map_of_mem hround)) hr

theorem calls_eq_nil_of_unread (h : m.Accounted) {r : Request} (hr : r ∈ m.asked)
    (hunread : r ∉ m.heard.map Prod.fst) : m.calls r.ticket = [] := by
  refine h.calls_eq_nil fun r' hr' hticket ↦ hunread ?_
  obtain rfl : r' = r := h.tickets.eq_of_ticket hr (h.heard_prefix_asked.subset hr') hticket
  exact hr'

/-- Whoever is told anything by passes is told it by the pass of the own batch. -/
theorem calls_eq (h : m.Accounted) {round : Round W U P} {r : Request} (hround : round ∈ m.rounds)
    (hr : r ∈ round.requests) : m.calls r.ticket = round.pass.journal.answersTo r.ticket := by
  obtain ⟨before, after, hrounds⟩ := List.append_of_mem hround
  have hpairs := (List.pairwise_flatten.1 h.inOrder_batches).2
  simp only [batches, hrounds, List.map_append, List.map_cons, List.append_assoc, List.cons_append,
    List.pairwise_append, List.pairwise_cons] at hpairs
  obtain ⟨-, ⟨hlater, -⟩, hearlier⟩ := hpairs
  have hbefore : before.flatMap (fun other ↦ other.pass.journal.answersTo r.ticket) = [] := by
    rw [List.flatMap_eq_nil_iff]
    intro other hother
    refine (h.attended other (by simp [hrounds, hother])).answersTo_eq_nil fun r' hr' ↦ ?_
    exact Nat.ne_of_lt (hearlier _ (List.mem_map_of_mem hother) _ List.mem_cons_self r' hr' r hr)
  have hafter : after.flatMap (fun other ↦ other.pass.journal.answersTo r.ticket) = [] := by
    rw [List.flatMap_eq_nil_iff]
    intro other hother
    refine (h.attended other (by simp [hrounds, hother])).answersTo_eq_nil fun r' hr' ↦ ?_
    exact Nat.ne_of_gt (hlater _ (List.mem_append_left _ (List.mem_map_of_mem hother)) r hr r' hr')
  rw [calls, hrounds, List.flatMap_append, List.flatMap_cons, hbefore, hafter, List.append_nil]
  rfl

end Accounted

/-! ## Those who wait -/

/-- Whoever waits at a service has a request that is on its way. -/
structure Expectant (m : Moment W U P) : Prop where
  order : InOrder m.service.waiting
  issued : ∀ r ∈ m.service.waiting, r.ticket < m.issued
  hopeful : ∀ r ∈ m.service.waiting, r ∈ m.pending ∨ .request r ∈ m.service.inbox

namespace Expectant

theorem of_nobody (h : m.service.waiting = []) : m.Expectant := by
  refine ⟨?_, ?_, ?_⟩
  · rw [h]
    exact List.Pairwise.nil
  all_goals
    rw [h]
    exact fun r hr ↦ absurd hr List.not_mem_nil

theorem close (h : m.Expectant) {u : Service W U P} {read : List (Message × Nat)}
    (hwaiting : u.waiting = m.service.waiting)
    (hinbox : ∀ r, .request r ∈ m.service.inbox → .request r ∈ u.inbox) :
    Expectant { m with service := u.close m.now, read := read } := by
  by_cases hnobody : u.session.queue.requests = []
  · rw [Service.close_of_nobody hnobody]
    exact of_nobody (Service.waiting_stop hnobody)
  · rw [Service.close_of_somebody hnobody]
    have hsame : (u.begin true m.now).waiting = m.service.waiting := hwaiting
    refine ⟨?_, ?_, ?_⟩
    · rw [hsame]
      exact h.order
    · rw [hsame]
      exact h.issued
    · rw [hsame]
      exact fun r hr ↦ (h.hopeful r hr).imp_right (hinbox r)

theorem conclude (h : m.Expectant) {isLast : Bool} {pass : Pass W U P}
    (hattends : pass.Attends m.service.session.queue.requests) :
    (m.conclude isLast pass).Expectant := by
  rw [Moment.conclude]
  by_cases hstops : isLast = true ∨ pass.verdict = .crashed
  · rw [Service.conclude_of_stops hstops]
    exact of_nobody (Service.waiting_stop (congrArg Queue.requests hattends.queue_eq))
  · have hheed : ∀ r ∈ (m.service.heed m.now pass).waiting,
        r ∈ m.service.waiting ∧ .request r ∈ m.service.inbox := by
      intro r hr
      obtain ⟨hwaiting, -, hinbox⟩ := (Service.mem_waiting_heed hattends.queue_eq).1 hr
      exact ⟨hwaiting, hinbox⟩
    rw [Service.conclude_of_goes_on hstops]
    refine ⟨h.order.sublist Service.waiting_heed_sublist, ?_, ?_⟩
    · exact fun r hr ↦ h.issued r (hheed r hr).1
    · exact fun r hr ↦ .inr (hheed r hr).2

/-- **Every move keeps the hopes of those who wait.** -/
theorem leads (h : m.Expectant) (hm : m.Leads m') : m'.Expectant := by
  cases hm with
  | drifts hnow hissued hheld =>
    exact ⟨h.order, fun r hr ↦ Nat.lt_of_lt_of_le (h.issued r hr) hissued, h.hopeful⟩
  | asks target hopen =>
    refine ⟨h.order, fun r hr ↦ Nat.lt_succ_of_lt (h.issued r hr), fun r hr ↦ ?_⟩
    exact (h.hopeful r hr).imp_right (List.mem_append_left _)
  | enlists target hopen =>
    refine ⟨?_, fun r hr ↦ ?_, fun r hr ↦ ?_⟩
    · refine List.pairwise_append.2 ⟨h.order, List.pairwise_singleton _ _, fun r hr r' hr' ↦ ?_⟩
      rw [List.mem_singleton.1 hr']
      exact h.issued r hr
    · rcases List.mem_append.1 hr with hr | hr
      · exact Nat.lt_succ_of_lt (h.issued r hr)
      · rw [List.mem_singleton.1 hr]
        exact Nat.lt_succ_self _
    · rcases List.mem_append.1 hr with hr | hr
      · exact (h.hopeful r hr).imp_right (List.mem_append_left _)
      · rw [List.mem_singleton.1 hr]
        exact .inr List.mem_concat_self
  | refuses target hphase =>
    exact ⟨h.order, fun r hr ↦ Nat.lt_succ_of_lt (h.issued r hr), h.hopeful⟩
  | dismisses hopen =>
    exact ⟨h.order, h.issued, fun r hr ↦ (h.hopeful r hr).imp_right (List.mem_append_left _)⟩
  | hears hphase hinbox =>
    refine ⟨h.order, h.issued, fun r hr ↦ ?_⟩
    rcases h.hopeful r hr with hpending | hmem
    · exact .inl (List.mem_append_left _ hpending)
    · rw [hinbox] at hmem
      rcases List.mem_cons.1 hmem with heq | hmem
      · cases heq
        exact .inl List.mem_concat_self
      · exact .inr hmem
  | quits hphase hinbox =>
    refine h.close rfl fun r hmem ↦ ?_
    rw [hinbox] at hmem
    exact (List.mem_cons.1 hmem).resolve_left (by simp)
  | deserted hphase hinbox hhandles => exact h.close rfl fun r hmem ↦ hmem
  | begins hphase hinbox hover => exact ⟨h.order, h.issued, h.hopeful⟩
  | concludes hphase hattends => exact h.conclude hattends

theorem waiting_eq_nil (h : m.Expectant) (hstep : m.InStep) (haccounted : m.Accounted)
    (hstopped : m.service.phase = .stopped) : m.service.waiting = [] := by
  rw [List.eq_nil_iff_forall_not_mem]
  intro r hr
  rcases h.hopeful r hr with hpending | hinbox
  · rw [hstep.ended hstopped] at hpending
    exact absurd hpending List.not_mem_nil
  · rw [haccounted.emptied hstopped] at hinbox
    exact absurd hinbox List.not_mem_nil

end Expectant

end Moment

/-! ## Those who do not wait -/

namespace Moment

variable {m m' : Moment W U P}

/-- Whoever does not wait is told just what passes tell. -/
theorem Leads.news {ticket : Nat} (hm : m.Leads m')
    (hticket : ticket < m.issued ∨ m'.issued ≤ ticket)
    (hapart : ∀ r ∈ m.service.waiting, r.ticket ≠ ticket) :
    (∀ r ∈ m'.service.waiting, r.ticket ≠ ticket) ∧
      ∃ news, m'.service.results ticket = m.service.results ticket ++ news ∧
        m'.calls ticket = m.calls ticket ++ news := by
  have hsame : ∀ {l : List (Answer U)}, l = l ++ [] := (List.append_nil _).symm
  cases hm with
  | drifts | asks | dismisses => exact ⟨hapart, [], hsame, hsame⟩
  | enlists target hopen =>
    refine ⟨fun r hr ↦ ?_, [], hsame, hsame⟩
    rcases List.mem_append.1 hr with hr | hr
    · exact hapart r hr
    · rw [List.mem_singleton.1 hr]
      dsimp only at hticket ⊢
      omega
  | refuses target hphase =>
    have hother : m.issued ≠ ticket := by
      dsimp only at hticket
      omega
    refine ⟨hapart, [], ?_, hsame⟩
    rw [Service.results_note, Journal.answersTo_eq_nil_iff.2]
    intro answer hanswer
    rw [List.mem_singleton.1 hanswer]
    exact hother
  | hears hphase hinbox => exact ⟨hapart, [], by rw [Service.results_accept]; exact hsame, hsame⟩
  | quits hphase hinbox =>
    refine ⟨fun r hr ↦ ?_, [], ?_, hsame⟩
    · have hwaiting := Service.waiting_close_subset hr
      exact hapart r hwaiting
    rw [Service.results_close_of_not_waiting, Service.results_say]
    · exact hsame
    · exact hapart
  | deserted hphase hinbox hhandles =>
    refine ⟨fun r hr ↦ hapart r (Service.waiting_close_subset hr), [], ?_, hsame⟩
    rw [Service.results_close_of_not_waiting hapart]
    exact hsame
  | begins hphase hinbox hover =>
    exact ⟨hapart, [], by rw [Service.results_begin]; exact hsame, hsame⟩
  | concludes hphase hattends =>
    refine ⟨fun r hr ↦ hapart r (Service.waiting_conclude_subset _ hr), _, ?_, calls_conclude ..⟩
    exact Service.results_conclude_of_not_waiting hattends.queue_eq _ hapart

/-- What holds of every moment of a schedule. -/
structure Regular (m : Moment W U P) : Prop where
  step : m.InStep
  accounted : m.Accounted
  expectant : m.Expectant
  /-- Nobody is told anything before asking. -/
  fresh : ∀ ticket, m.issued ≤ ticket → m.service.results ticket = []

theorem Leads.issued_le (hm : m.Leads m') : m.issued ≤ m'.issued := by
  cases hm with
  | drifts hnow hissued hheld => exact hissued
  | asks | enlists | refuses => exact Nat.le_succ _
  | dismisses | hears | quits | deserted | begins | concludes => exact Nat.le_refl _

/-- **Every move keeps a moment regular.** -/
theorem Regular.leads (h : m.Regular) (hm : m.Leads m') : m'.Regular where
  step := h.step.leads hm
  accounted := h.accounted.leads h.step hm
  expectant := h.expectant.leads hm
  fresh := by
    intro ticket hticket
    have hold : m.issued ≤ ticket := Nat.le_trans hm.issued_le hticket
    have hapart : ∀ r ∈ m.service.waiting, r.ticket ≠ ticket := fun r hr ↦
      Nat.ne_of_lt (Nat.lt_of_lt_of_le (h.expectant.issued r hr) hold)
    obtain ⟨-, news, hresults, hcalls⟩ := hm.news (.inr hticket) hapart
    -- No pass can tell anything to a ticket that nobody has.
    have haccounted := h.accounted.leads h.step hm
    have hnone : m'.calls ticket = [] := haccounted.calls_eq_nil fun r hr ↦
      Nat.ne_of_lt (Nat.lt_of_lt_of_le
        (haccounted.issued r (haccounted.heard_prefix_asked.subset hr)) hticket)
    rw [hnone] at hcalls
    rw [hresults, h.fresh ticket hold, (List.append_eq_nil_iff.1 hcalls.symm).2]
    rfl

theorem Regular.apart (h : m.Regular) : ∀ r ∈ m.service.waiting, r.ticket ≠ m.issued :=
  fun r hr ↦ Nat.ne_of_lt (h.expectant.issued r hr)

/-- Whoever asks has not been told anything. -/
theorem Regular.untold (h : m.Regular) :
    m.service.results m.issued = [] ∧ m.calls m.issued = [] := by
  refine ⟨h.fresh m.issued (Nat.le_refl _), h.accounted.calls_eq_nil fun r hr ↦ ?_⟩
  exact Nat.ne_of_lt (h.accounted.issued r (h.accounted.heard_prefix_asked.subset hr))

end Moment

namespace Scene

variable (scene : Scene W U P E)

theorem regular_opened (settings? : Option BatchSettings) (root : FilePath) (w : W) :
    (scene.opened settings? root w).Regular where
  step := scene.inStep_opened settings? root w
  accounted := scene.accounted_opened settings? root w
  expectant := .of_nobody rfl
  fresh := fun _ _ ↦ rfl

theorem regular_move {m : Moment W U P} (h : m.Regular) (mv : Move E) :
    (scene.move m mv).Regular :=
  h.leads (leads_move mv)

theorem regular_play {m : Moment W U P} (h : m.Regular) (moves : List (Move E)) :
    (scene.play m moves).Regular :=
  scene.play_induction h (fun _ _ hm h ↦ h.leads hm) moves

variable {scene} {m : Moment W U P}

theorem news_play {ticket : Nat} (hticket : ticket < m.issued)
    (hapart : ∀ r ∈ m.service.waiting, r.ticket ≠ ticket) (moves : List (Move E)) :
    let m' := scene.play m moves
    ∃ news, m'.service.results ticket = m.service.results ticket ++ news ∧
      m'.calls ticket = m.calls ticket ++ news := by
  have hall := scene.play_induction (I := fun m' ↦ ticket < m'.issued ∧
    (∀ r ∈ m'.service.waiting, r.ticket ≠ ticket) ∧
      ∃ news, m'.service.results ticket = m.service.results ticket ++ news ∧
        m'.calls ticket = m.calls ticket ++ news)
    ⟨hticket, hapart, [], (List.append_nil _).symm, (List.append_nil _).symm⟩ ?_ moves
  · exact hall.2.2
  · rintro m' m'' hm ⟨hticket', hapart', news, hresults, hcalls⟩
    obtain ⟨hapart'', more, hresults', hcalls'⟩ := hm.news (.inl hticket') hapart'
    refine ⟨Nat.lt_of_lt_of_le hticket' hm.issued_le, hapart'', news ++ more, ?_, ?_⟩
    · rw [hresults', hresults, List.append_assoc]
    · rw [hcalls', hcalls, List.append_assoc]

end Scene

end Coalesce
