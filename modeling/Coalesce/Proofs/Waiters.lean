import Coalesce.Proofs.Results

/-!
# Nobody waits for ever

Somebody who waits for an answer waits until the request is answered by its pass, or until it can be
answered no more: the pass was made and told nothing, or the service has stopped and has not read
the request. Then its fate is *sealed*, and the service tells so. So whoever waits is told nothing
yet, or has been told once and is let go (`Moment.Waits`, `Moment.Told`), and when the service has
stopped nobody waits.

A pass that fails does not stop the service, and who asks later is served by a later pass.
-/

namespace Coalesce

variable {W U P E : Type}

/-! ## A pass and those who wait -/

namespace Service

variable {s : Service W U P} (now : Nat) {pass : Pass W U P} {r : Request}

/-- Somebody whose request was read is told by the pass or else by the service. -/
theorem results_conclude_of_read (isLast : Bool) (hqueue : pass.session.queue = .empty)
    (horder : InOrder s.waiting) (hr : r ∈ s.waiting) (hread : .request r ∉ s.inbox) :
    (∀ r' ∈ (s.conclude now isLast pass).waiting, r'.ticket ≠ r.ticket) ∧
      (s.conclude now isLast pass).results r.ticket = s.results r.ticket ++
        if pass.journal.answersTo r.ticket = [] then [.error .givenUp]
        else pass.journal.answersTo r.ticket := by
  have hapart : ∀ r' ∈ (s.heed now pass).waiting, r'.ticket ≠ r.ticket := by
    intro r' hr' hticket
    obtain ⟨hwaiting, -, hinbox⟩ := (mem_waiting_heed hqueue).1 hr'
    rw [horder.eq_of_ticket hr hwaiting hticket] at hinbox
    exact hread hinbox
  have hresults : (s.heed now pass).results r.ticket = s.results r.ticket ++
      if pass.journal.answersTo r.ticket = [] then [.error .givenUp]
      else pass.journal.answersTo r.ticket := by
    by_cases hanswered : pass.journal.answersTo r.ticket = []
    · rw [if_pos hanswered]
      exact results_heed_of_lost hqueue horder hr hanswered hread
    · rw [if_neg hanswered]
      exact results_heed_of_not_lost hqueue fun r' _ _ hnone ↦ absurd hnone hanswered
  by_cases hstops : isLast = true ∨ pass.verdict = .crashed
  · rw [conclude_of_stops hstops, results_stop_of_not_waiting hapart, hresults]
    exact ⟨fun r' hr' ↦ hapart r' (waiting_stop_sublist.subset hr'), rfl⟩
  · rw [conclude_of_goes_on hstops]
    exact ⟨hapart, hresults⟩

/-- Somebody whose request is still in the inbox waits further, unless the service stops. -/
theorem results_conclude_of_unread (isLast : Bool) (hqueue : pass.session.queue = .empty)
    (horder : InOrder s.waiting) (hr : r ∈ s.waiting) (hunread : .request r ∈ s.inbox)
    (hunanswered : pass.journal.answersTo r.ticket = []) :
    if isLast = true ∨ pass.verdict = .crashed then
      (s.conclude now isLast pass).waiting = [] ∧
        (s.conclude now isLast pass).results r.ticket = s.results r.ticket ++ [.error .givenUp]
    else
      r ∈ (s.conclude now isLast pass).waiting ∧
        (s.conclude now isLast pass).results r.ticket = s.results r.ticket := by
  have hwaits : r ∈ (s.heed now pass).waiting :=
    (mem_waiting_heed hqueue).2 ⟨hr, hunanswered, hunread⟩
  have hresults : (s.heed now pass).results r.ticket = s.results r.ticket := by
    rw [results_heed_of_not_lost hqueue, hunanswered, List.append_nil]
    intro r' hr' hticket _
    rw [horder.eq_of_ticket hr hr' hticket]
    exact hunread
  have hnobody : (s.heed now pass).session.queue.requests = [] := congrArg Queue.requests hqueue
  by_cases hstops : isLast = true ∨ pass.verdict = .crashed
  · rw [if_pos hstops, conclude_of_stops hstops, ← hresults]
    exact ⟨waiting_stop hnobody,
      results_stop_of_waiting hnobody (horder.sublist waiting_heed_sublist) hwaits⟩
  · rw [if_neg hstops, conclude_of_goes_on hstops]
    exact ⟨hwaits, hresults⟩

end Service

/-! ## What becomes of a request -/

namespace Moment

variable {m m' : Moment W U P} {r : Request}

/-- No pass will answer a request any more that has not done so. -/
def Sealed (m : Moment W U P) (r : Request) : Prop :=
  (∃ round ∈ m.rounds, r ∈ round.requests) ∨
    (m.service.phase = .stopped ∧ r ∉ m.heard.map Prod.fst)

/-- Somebody waits and has been told nothing. -/
structure Waits (m : Moment W U P) (r : Request) : Prop where
  waiting : r ∈ m.service.waiting
  results : m.service.results r.ticket = []
  calls : m.calls r.ticket = []

/-- Somebody waits no more and has been told: what a pass had to tell, or that the request was given
up. -/
structure Told (m : Moment W U P) (r : Request) : Prop where
  apart : ∀ r' ∈ m.service.waiting, r'.ticket ≠ r.ticket
  isSealed : m.Sealed r
  results : m.service.results r.ticket =
    if m.calls r.ticket = [] then [.error .givenUp] else m.calls r.ticket

theorem Sealed.leads (h : m.Sealed r) (hm : m.Leads m') : m'.Sealed r := by
  rcases h with ⟨round, hround, hmem⟩ | ⟨hstopped, hunread⟩
  · exact .inl ⟨round, hm.extends.rounds_prefix.subset hround, hmem⟩
  · obtain ⟨hphase, hheard, -⟩ := hm.of_stopped hstopped
    rw [← hheard] at hunread
    exact .inr ⟨hphase, hunread⟩

/-- Once the fate of a request is sealed, passes tell nothing to it. -/
theorem Sealed.calls_eq (h : m.Sealed r) (haccounted : m.Accounted) (haccounted' : m'.Accounted)
    (hm : m.Leads m') (hr : r ∈ m.asked) : m'.calls r.ticket = m.calls r.ticket := by
  rcases h with ⟨round, hround, hmem⟩ | ⟨hstopped, hunread⟩
  · rw [haccounted.calls_eq hround hmem,
      haccounted'.calls_eq (hm.extends.rounds_prefix.subset hround) hmem]
  · have hr' : r ∈ m'.asked := (hm.sent_prefix.filterMap _).subset hr
    rw [haccounted.calls_eq_nil_of_unread hr hunread, haccounted'.calls_eq_nil_of_unread hr']
    rw [(hm.of_stopped hstopped).2.1]
    exact hunread

theorem Told.leads (h : m.Told r) (hregular : m.Regular) (hr : r ∈ m.asked) (hm : m.Leads m') :
    m'.Told r := by
  obtain ⟨hapart, news, hresults, hcalls⟩ :=
    hm.news (.inl (hregular.accounted.issued r hr)) h.apart
  have hsame := h.isSealed.calls_eq hregular.accounted (hregular.leads hm).accounted hm hr
  obtain rfl : news = [] := by
    rw [hsame] at hcalls
    exact List.self_eq_append_right.1 hcalls
  refine ⟨hapart, h.isSealed.leads hm, ?_⟩
  rw [hresults, List.append_nil, hsame, h.results]

namespace Waits

theorem close (h : m.Waits r) (hregular : m.Regular) {u : Service W U P}
    {read : List (Message × Nat)} (hsession : u.session = m.service.session)
    (hwaiting : u.waiting = m.service.waiting)
    (hresults : u.results r.ticket = m.service.results r.ticket)
    (hheard : heard { m with service := u.close m.now, read := read } = m.heard) :
    Waits { m with service := u.close m.now, read := read } r ∨
      Told { m with service := u.close m.now, read := read } r := by
  by_cases hnobody : u.session.queue.requests = []
  · have hpending : m.pending = [] := by rw [← hregular.step.queue, ← hsession, hnobody]
    have hinbox : .request r ∈ m.service.inbox := by
      refine (hregular.expectant.hopeful r h.waiting).resolve_left ?_
      rw [hpending]
      exact List.not_mem_nil
    refine .inr ⟨?_, .inr ⟨?_, ?_⟩, ?_⟩
    · rw [Service.close_of_nobody hnobody, Service.waiting_stop hnobody]
      exact fun r' hr' ↦ absurd hr' List.not_mem_nil
    · rw [Service.close_of_nobody hnobody]
      rfl
    · rw [hheard]
      exact hregular.accounted.unread_of_inbox hinbox
    · have horder : InOrder u.waiting := hwaiting ▸ hregular.expectant.order
      have hcalls : Moment.calls { m with service := u.close m.now, read := read } r.ticket = [] :=
        h.calls
      rw [if_pos hcalls, Service.close_of_nobody hnobody,
        Service.results_stop_of_waiting hnobody horder (hwaiting ▸ h.waiting), hresults, h.results]
      rfl
  · refine .inl ⟨?_, ?_, h.calls⟩
    · rw [Service.close_of_somebody hnobody]
      have hsame : (u.begin true m.now).waiting = m.service.waiting := hwaiting
      rw [hsame]
      exact h.waiting
    · rw [Service.close_of_somebody hnobody, Service.results_begin, hresults, h.results]

theorem conclude (h : m.Waits r) (hregular : m.Regular) (hr : r ∈ m.asked) {isLast : Bool}
    {pass : Pass W U P} (hattends : pass.Attends m.service.session.queue.requests) :
    (m.conclude isLast pass).Waits r ∨ (m.conclude isLast pass).Told r := by
  have haccounted := hregular.accounted
  have horder := hregular.expectant.order
  have hcalls : (m.conclude isLast pass).calls r.ticket = pass.journal.answersTo r.ticket := by
    rw [calls_conclude, h.calls]
    rfl
  rcases hregular.expectant.hopeful r h.waiting with hpending | hinbox
  · -- The pass was for this request.
    obtain ⟨hapart, hresults⟩ := Service.results_conclude_of_read m.now isLast
      hattends.queue_eq horder h.waiting fun hinbox ↦
        haccounted.unread_of_inbox hinbox (haccounted.read_of_pending hpending)
    refine .inr ⟨hapart, .inl ⟨⟨m.pending, pass⟩, ?_, hpending⟩, ?_⟩
    · exact List.mem_concat_self
    · rw [hcalls]
      exact hresults.trans (by rw [h.results]; rfl)
  · -- The request came too late for the pass.
    have hunread := haccounted.unread_of_inbox hinbox
    have hunanswered : pass.journal.answersTo r.ticket = [] := by
      refine hattends.answersTo_eq_nil fun r' hr' hticket ↦ hunread ?_
      rw [hregular.step.queue] at hr'
      have hread := haccounted.read_of_pending hr'
      obtain rfl : r' = r := haccounted.tickets.eq_of_ticket hr
        (haccounted.heard_prefix_asked.subset hread) hticket
      exact hread
    have houtcome := Service.results_conclude_of_unread m.now isLast hattends.queue_eq
      horder h.waiting hinbox hunanswered
    by_cases hstops : isLast = true ∨ pass.verdict = .crashed
    · rw [if_pos hstops] at houtcome
      refine .inr ⟨?_, .inr ⟨?_, hunread⟩, ?_⟩
      · rw [Moment.conclude, houtcome.1]
        exact fun r' hr' ↦ absurd hr' List.not_mem_nil
      · rw [Moment.conclude, Service.phase_conclude, if_pos hstops]
      · rw [hcalls, if_pos hunanswered]
        exact houtcome.2.trans (by rw [h.results]; rfl)
    · rw [if_neg hstops] at houtcome
      exact .inl ⟨houtcome.1, houtcome.2.trans h.results, hcalls.trans hunanswered⟩

theorem leads (h : m.Waits r) (hregular : m.Regular) (hr : r ∈ m.asked) (hm : m.Leads m') :
    m'.Waits r ∨ m'.Told r := by
  cases hm with
  | drifts | asks | dismisses => exact .inl ⟨h.waiting, h.results, h.calls⟩
  | enlists target hopen =>
    exact .inl ⟨List.mem_append_left _ h.waiting, h.results, h.calls⟩
  | refuses target hphase =>
    have hnobody := hregular.expectant.waiting_eq_nil hregular.step hregular.accounted hphase
    have hwaiting := h.waiting
    rw [hnobody] at hwaiting
    exact absurd hwaiting List.not_mem_nil
  | hears hphase hinbox =>
    exact .inl ⟨h.waiting, (Service.results_accept _).trans h.results, h.calls⟩
  | quits hphase hinbox =>
    exact h.close hregular rfl rfl (Service.results_say _) (heard_read_quit ..)
  | deserted hphase hinbox hhandles => exact h.close hregular rfl rfl rfl rfl
  | begins hphase hinbox hover =>
    exact .inl ⟨h.waiting, (Service.results_begin _).trans h.results, h.calls⟩
  | concludes hphase hattends => exact h.conclude hregular hr hattends

end Waits

/-- A request that no pass answers: it was never read, or its pass ended over diagnostics, or broke
down before it came to this request. -/
def Forgoes (m : Moment W U P) (r : Request) : Prop :=
  r ∉ m.heard.map Prod.fst ∨
    ∃ round ∈ m.rounds, r ∈ round.requests ∧ (round.pass.verdict.isDiagnosed = true ∨
      round.pass.verdict = .crashed ∧ round.pass.journal.answersTo r.ticket = [])

namespace Regular

/-- Passes tell nothing to a request or tell it one thing, which is not for the service to tell. -/
theorem calls_genuine (h : m.Regular) (hr : r ∈ m.asked) (hpending : m.pending = []) :
    (m.calls r.ticket).length ≤ 1 ∧ ∀ answer ∈ m.calls r.ticket, ¬answer.IsExcuse := by
  by_cases hread : r ∈ m.heard.map Prod.fst
  · obtain ⟨round, hround, hmem⟩ := h.accounted.exists_round hpending hread
    have hattends := h.accounted.attended round hround
    rw [h.accounted.calls_eq hround hmem]
    refine ⟨hattends.length_answersTo_le_one (h.accounted.inOrder_requests hround), ?_⟩
    intro answer hanswer
    obtain ⟨given, hgiven, rfl⟩ := List.mem_map.1 hanswer
    exact hattends.genuine given (List.mem_filter.1 hgiven).1
  · rw [h.accounted.calls_eq_nil_of_unread hr hread]
    exact ⟨Nat.zero_le _, fun _ hanswer ↦ absurd hanswer List.not_mem_nil⟩

theorem calls_eq_nil_iff (h : m.Regular) (hr : r ∈ m.asked) (hpending : m.pending = []) :
    m.calls r.ticket = [] ↔ m.Forgoes r := by
  by_cases hread : r ∈ m.heard.map Prod.fst
  · obtain ⟨round, hround, hmem⟩ := h.accounted.exists_round hpending hread
    have hattends := h.accounted.attended round hround
    rw [h.accounted.calls_eq hround hmem]
    constructor
    · intro hunanswered
      refine .inr ⟨round, hround, hmem, ?_⟩
      by_cases hcrashed : round.pass.verdict = .crashed
      · exact .inr ⟨hcrashed, hunanswered⟩
      · exact .inl (((hattends.settles hcrashed).answersTo_eq_nil_iff
          (h.accounted.inOrder_requests hround) hmem).1 hunanswered)
    · rintro (hunread | ⟨other, hother, hmem', hfails⟩)
      · exact absurd hread hunread
      · rw [← h.accounted.calls_eq hround hmem, h.accounted.calls_eq hother hmem']
        rcases hfails with hdiagnosed | ⟨-, hunanswered⟩
        · have hsound : other.pass.verdict ≠ .crashed := by
            intro hcrashed
            rw [hcrashed] at hdiagnosed
            cases hdiagnosed
          have hsettles := (h.accounted.attended other hother).settles hsound
          exact Journal.answersTo_of_silent (hsettles.silent hdiagnosed)
        · exact hunanswered
  · exact iff_of_true (h.accounted.calls_eq_nil_of_unread hr hread) (.inl hread)

end Regular

end Moment

/-! ## Over a schedule -/

namespace Scene

variable (scene : Scene W U P E) {m : Moment W U P} {target : Target}

/-- Whoever waits from some time on waits further or has been told. -/
theorem waits_or_told (target : Target) (hm : m.Regular) (hopen : m.service.IsOpen)
    (after : List (Move E)) :
    let final := scene.play (scene.move m (.enlist target)) after
    (⟨m.issued, target⟩ : Request) ∈ final.asked ∧
      (final.Waits ⟨m.issued, target⟩ ∨ final.Told ⟨m.issued, target⟩) := by
  have hmove := scene.move_enlist_of_isOpen target hopen
  have hregular : (scene.move m (.enlist target)).Regular := scene.regular_move hm _
  have hasked : (⟨m.issued, target⟩ : Request) ∈ (scene.move m (.enlist target)).asked := by
    rw [hmove, Moment.asked_sent]
    exact List.mem_concat_self
  have hwaits : (scene.move m (.enlist target)).Waits ⟨m.issued, target⟩ := by
    obtain ⟨hresults, hcalls⟩ := hm.untold
    rw [hmove]
    exact ⟨List.mem_concat_self, hresults, hcalls⟩
  have hall := scene.play_induction (I := fun m' ↦ m'.Regular ∧
    (⟨m.issued, target⟩ : Request) ∈ m'.asked ∧
      (m'.Waits ⟨m.issued, target⟩ ∨ m'.Told ⟨m.issued, target⟩))
    ⟨hregular, hasked, .inl hwaits⟩ ?_ after
  · exact hall.2
  · rintro m' m'' hlead ⟨hregular', hasked', hfate⟩
    refine ⟨hregular'.leads hlead, (hlead.sent_prefix.filterMap _).subset hasked', ?_⟩
    rcases hfate with hwaits | htold
    · exact hwaits.leads hregular' hasked' hlead
    · exact .inr (htold.leads hregular' hasked' hlead)

theorem results_of_refused (hm : m.Regular) (hheld : m.service.held ≠ 0)
    (hphase : m.service.phase = .stopped) (after : List (Move E)) :
    (scene.play (scene.move m (.enlist target)) after).service.results m.issued =
      [.error .stopped] := by
  have hmove := scene.move_enlist_of_stopped target hheld hphase
  have hissued : m.issued < (scene.move m (.enlist target)).issued := by
    rw [hmove]
    exact Nat.lt_succ_self _
  have hapart : ∀ r ∈ (scene.move m (.enlist target)).service.waiting, r.ticket ≠ m.issued := by
    rw [hmove]
    exact hm.apart
  have hstopped : (scene.move m (.enlist target)).service.phase = .stopped := by
    rw [hmove]
    exact hphase
  have htold : (scene.move m (.enlist target)).service.results m.issued = [.error .stopped] := by
    rw [hmove, Service.results_note, hm.fresh m.issued (Nat.le_refl _)]
    simp [Journal.answersTo, Journal.answers]
  obtain ⟨news, hresults, hcalls⟩ := news_play hissued hapart after
  have hsame : (scene.play (scene.move m (.enlist target)) after).calls m.issued =
      (scene.move m (.enlist target)).calls m.issued := by
    rw [Moment.calls, scene.rounds_play_of_stopped after hstopped]
    rfl
  obtain rfl : news = [] := by
    rw [hsame] at hcalls
    exact List.self_eq_append_right.1 hcalls
  rw [hresults, htold, List.append_nil]

/-! ## Behind a pass that fails -/

theorem play_turns {messages rest : List Message} (hphase : m.service.phase = .listening)
    (hinbox : m.service.inbox = messages ++ rest) (hquit : .quit ∉ messages) :
    let m' := scene.play m (List.replicate messages.length .turn)
    m'.service.phase = .listening ∧ m'.service.inbox = rest ∧
      m'.service.held = m.service.held ∧ m'.service.session.batch = m.service.session.batch := by
  induction messages generalizing m with
  | nil => exact ⟨hphase, hinbox, rfl, rfl⟩
  | cons message messages ih =>
    rw [List.mem_cons, not_or] at hquit
    obtain ⟨hfirst, hlater⟩ := hquit
    cases message with
    | quit => exact absurd rfl hfirst
    | request r =>
      have hturn : m.turn = _ := Moment.turn_of_request hphase hinbox
      have hread := ih (m := m.turn) (by rw [hturn]; exact hphase) (by rw [hturn]; rfl) hlater
      rw [hturn] at hread
      rw [List.length_cons, List.replicate_succ, play_cons]
      have hmove : scene.move m .turn = m.turn := rfl
      rw [hmove, hturn]
      exact hread

/-- A service that is not asked to stop reads its inbox and then begins a pass when it has been
quiet for long enough. -/
theorem begins_of_listening (hm : m.Regular) (hphase : m.service.phase = .listening)
    (hheld : m.service.held ≠ 0) {messages : List Message} {r : Request}
    (hinbox : m.service.inbox = messages ++ [.request r]) (hquit : .quit ∉ messages) :
    let served := scene.play m (List.replicate messages.length .turn ++
      [.turn, .wait (max m.service.session.batch.quietPeriod 1), .turn])
    served.service.phase = .compiling false ∧ r ∈ served.service.session.queue.requests := by
  intro served
  obtain ⟨hlistens, hlast, hholds, hbatch⟩ := scene.play_turns hphase hinbox hquit
  -- The request is the last one that is read.
  let early := scene.play m (List.replicate messages.length .turn)
  have hread : early.turn = _ := Moment.turn_of_request hlistens hlast
  have hregular : early.turn.Regular := (scene.regular_play hm _).leads early.leads_turn
  have hempty : early.turn.service.inbox = [] := by rw [hread]; rfl
  have hgoes : early.turn.service.phase = .listening := by rw [hread]; exact hlistens
  have hhandles : early.turn.service.handles ≠ 0 := by
    have hsame : early.turn.service.held = m.service.held := by rw [hread]; exact hholds
    exact fun hnobody ↦ hheld (hsame ▸ Service.held_of_handles hnobody)
  have hover : early.turn.service.timer.isOver
      (early.now + max m.service.session.batch.quietPeriod 1) = true := by
    have hquiet : early.turn.service.timer.quiet = m.service.session.batch.quietPeriod := by
      rw [hregular.step.quiet, ← hbatch, hread]
      rfl
    refine QuietTimer.isOver_iff.2 ⟨early.now, by rw [hread]; rfl, ?_⟩
    exact Nat.le_of_eq (by rw [hquiet])
  -- Then it is quiet, and the next turn begins the pass.
  have hserved : served.service = early.turn.service.turn
      (early.now + max m.service.session.batch.quietPeriod 1) := by
    have hplay : served = scene.play early
        [.turn, .wait (max m.service.session.batch.quietPeriod 1), .turn] := play_append _ _
    rw [hplay]
    rfl
  rw [hserved, Service.turn_of_isOver hgoes hempty hhandles hover]
  refine ⟨rfl, ?_⟩
  have hqueued : r ∈ early.turn.service.session.queue.requests := by
    rw [hregular.step.queue, hread]
    exact List.mem_concat_self
  exact hqueued

/-- Somebody comes and waits, the service reads its inbox, and then it is quiet for long enough. -/
def visit (m : Moment W U P) (target : Target) : List (Move E) :=
  .enlist target :: (List.replicate m.service.inbox.length .turn ++
    [.turn, .wait (max m.service.session.batch.quietPeriod 1), .turn])

/-- Behind a pass that does not break down a service goes on, and whoever comes then has a pass when
it has been quiet for long enough, unless the service is asked to stop before. -/
theorem served_later (hm : m.Regular) (hphase : m.service.phase = .compiling false)
    (hsound : (scene.running m).verdict ≠ .crashed) (hheld : m.service.held ≠ 0)
    (hquit : .quit ∉ m.service.inbox) (target : Target) :
    let behind := scene.move m .complete
    let served := scene.play behind (visit behind target)
    behind.service.phase = .listening ∧ served.service.phase = .compiling false ∧
      ⟨behind.issued, target⟩ ∈ served.service.session.queue.requests := by
  intro behind served
  have hmove : behind = m.conclude false (scene.running m) := by
    simp only [behind, move, hphase]
  have hgoes : ¬(false = true ∨ (scene.running m).verdict = .crashed) := by
    simpa using hsound
  have hlistens : behind.service.phase = .listening := by
    rw [hmove, Moment.conclude, Service.phase_conclude, if_neg hgoes]
  have hinbox : .quit ∉ behind.service.inbox := by
    rw [hmove, Moment.conclude, Service.inbox_conclude, if_neg hgoes]
    exact hquit
  have hholds : behind.service.held ≠ 0 := by
    rw [hmove, Moment.conclude, Service.held_conclude]
    exact hheld
  have hopen : behind.service.IsOpen := ⟨hholds, by simp [hlistens]⟩
  have hregular : (scene.move behind (.enlist target)).Regular :=
    scene.regular_move (scene.regular_move hm .complete) _
  have henlist := scene.move_enlist_of_isOpen target hopen
  have hserved := scene.begins_of_listening (m := scene.move behind (.enlist target))
    (r := ⟨behind.issued, target⟩) hregular
    (by rw [henlist]; exact hlistens) (by rw [henlist]; exact hholds) (by rw [henlist]) hinbox
  refine ⟨hlistens, ?_⟩
  have hbatch : (scene.move behind (.enlist target)).service.session.batch =
      behind.service.session.batch := by rw [henlist]
  rw [hbatch] at hserved
  exact hserved

theorem told_of_stopped (hm : m.Regular) (hopen : m.service.IsOpen) (after : List (Move E))
    (hstopped : (scene.play (scene.move m (.enlist target)) after).service.phase = .stopped) :
    (scene.play (scene.move m (.enlist target)) after).Told ⟨m.issued, target⟩ := by
  have hfinal := scene.regular_play (scene.regular_move hm (.enlist target)) after
  refine (scene.waits_or_told target hm hopen after).2.resolve_left fun hwaits ↦ ?_
  have hwaiting := hwaits.waiting
  rw [hfinal.expectant.waiting_eq_nil hfinal.step hfinal.accounted hstopped] at hwaiting
  exact absurd hwaiting List.not_mem_nil

end Scene

/-- **Whoever waits is told once.** Over every schedule, whatever becomes of its passes: somebody
who holds a handle and waits for an answer has been told exactly one thing when the service has
stopped. It is that the service has stopped just if it had when the waiting began. Otherwise it is
what the one pass told that answered the request; or that the request was given up, if no pass did,
which is so just if it was never read, or its pass ended over diagnostics, or broke down before it
came to this request. And behind a pass that does not break down the service serves who comes later,
unless it is asked to stop before. -/
theorem waiters_told_once (scene : Scene W U P E) (settings? : Option BatchSettings)
    (root : FilePath) (w : W) (before : List (Move E)) (target : Target) :
    let m := scene.play (scene.opened settings? root w) before
    m.service.held ≠ 0 →
      (∀ after, let final := scene.play (scene.move m (.enlist target)) after
        final.service.phase = .stopped →
          (final.service.results m.issued).length = 1 ∧
          (final.service.results m.issued = [.error .stopped] ↔ m.service.phase = .stopped) ∧
          (m.service.phase ≠ .stopped →
            final.service.results m.issued =
              (if final.calls m.issued = [] then [.error .givenUp] else final.calls m.issued) ∧
            (final.calls m.issued = [] ↔ final.Forgoes ⟨m.issued, target⟩))) ∧
      (m.service.phase = .compiling false → (scene.running m).verdict ≠ .crashed →
        .quit ∉ m.service.inbox →
        let behind := scene.move m .complete
        let served := scene.play behind (Scene.visit behind target)
        behind.service.phase = .listening ∧ served.service.phase = .compiling false ∧
          ⟨behind.issued, target⟩ ∈ served.service.session.queue.requests) := by
  intro m hheld
  have hm : m.Regular := scene.regular_play (scene.regular_opened settings? root w) before
  refine ⟨fun after ↦ ?_, fun hphase hsound hquit ↦
    scene.served_later hm hphase hsound hheld hquit target⟩
  intro final hstopped
  by_cases hphase : m.service.phase = .stopped
  · have hrefused : final.service.results m.issued = [.error .stopped] :=
      scene.results_of_refused hm hheld hphase after
    refine ⟨?_, iff_of_true hrefused hphase, fun hnot ↦ absurd hphase hnot⟩
    rw [hrefused]
    rfl
  · have hopen : m.service.IsOpen := ⟨hheld, hphase⟩
    have hfinal : final.Regular := scene.regular_play (scene.regular_move hm _) after
    have hasked := (scene.waits_or_told target hm hopen after).1
    have htold : final.service.results m.issued =
        if final.calls m.issued = [] then [.error .givenUp] else final.calls m.issued :=
      (scene.told_of_stopped hm hopen after hstopped).results
    have hpending : final.pending = [] := hfinal.step.ended hstopped
    obtain ⟨hlength, hgenuine⟩ := hfinal.calls_genuine hasked hpending
    refine ⟨?_, iff_of_false ?_ hphase, fun _ ↦ ⟨htold, hfinal.calls_eq_nil_iff hasked hpending⟩⟩
    · rw [htold]
      split
      next hnone => rfl
      next hsome =>
        have hpositive := List.length_pos_iff.2 hsome
        exact Nat.le_antisymm hlength hpositive
    · rw [htold]
      split
      next hnone => simp
      next hsome =>
        intro hexcuse
        refine hgenuine (.error .stopped) ?_ (.inl rfl)
        rw [hexcuse]
        exact List.mem_singleton_self _

/-- What the theorem says of somebody who is answered, of one whose pass breaks down before it has
done anything, of one who comes too late, and of one who comes behind a pass that fails. -/
theorem waiters_told_once_sample :
    let scene := Memory.scene Workbench.annotatedOutput
    let start := scene.opened none Sample.root Sample.workbench
    let answered := scene.play (scene.move start (.enlist (Sample.target "a")))
      [.turn, .wait 300, .turn, .complete, .dismiss, .turn]
    let broken := scene.play (scene.move start (.enlist (Sample.target "a")))
      [.turn, .wait 300, .turn, .breakDown 0]
    let gone := scene.play start [.dismiss, .turn]
    let refused := scene.play (scene.move gone (.enlist (Sample.target "a"))) []
    let fails := scene.play start [.outside (.failure (some Sample.failure)),
      .ask (Sample.target "a"), .turn, .wait 300, .turn]
    (answered.service.results 0).length = 1 ∧
      (broken.calls 0 = [] ↔ broken.Forgoes ⟨0, Sample.target "a"⟩) ∧
      refused.service.results 0 = [.error .stopped] ∧
      let behind := scene.move fails .complete
      let served := scene.play behind (Scene.visit behind (Sample.target "b"))
      behind.service.phase = .listening ∧ served.service.phase = .compiling false ∧
        ⟨behind.issued, Sample.target "b"⟩ ∈ served.service.session.queue.requests := by
  intro scene start answered broken gone refused fails
  have hstart := (waiters_told_once scene none Sample.root Sample.workbench [] (Sample.target "a")
    (by decide +kernel)).1
  have hgone := (waiters_told_once scene none Sample.root Sample.workbench [.dismiss, .turn]
    (Sample.target "a") (by decide +kernel)).1
  have hfails := (waiters_told_once scene none Sample.root Sample.workbench
    [.outside (.failure (some Sample.failure)), .ask (Sample.target "a"), .turn, .wait 300, .turn]
    (Sample.target "b") (by decide +kernel)).2
  refine ⟨?_, ?_, ?_, ?_⟩
  · exact (hstart [.turn, .wait 300, .turn, .complete, .dismiss, .turn] (by decide +kernel)).1
  · exact ((hstart [.turn, .wait 300, .turn, .breakDown 0] (by decide +kernel)).2.2
      (by decide +kernel)).2
  · exact (hgone [] (by decide +kernel)).2.1.2 (by decide +kernel)
  · have hserved := hfails (by decide +kernel) (by decide +kernel) (by decide +kernel)
    -- The names are unfolded on both sides, or else the passes would be run to compare them.
    dsimp only [scene, start, fails] at hserved ⊢
    exact hserved

end Coalesce
