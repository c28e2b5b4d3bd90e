import Coalesce.Proofs.Results

/-!
# Who is answered when a service is asked to stop

A service reads everything that was sent before the first wish that it stop, and nothing behind it
(`Moment.Thorough`). If nobody wishes so, it stops when nobody is left who could send anything, and
then it has read all. But as long as it has not stopped it takes what is sent: also a request behind
the wish, and also while it makes its last pass. Such a request was taken, and it is dropped with
what is left in the inbox.
-/

namespace Coalesce

variable {W U P E : Type}

/-! ## What has been read in the end -/

namespace Moment

variable {m m' : Moment W U P}

/-- What a service has read of what was sent: no wish that it stop as long as it reads, and
everything up to the first one, or everything, when it reads no more. -/
structure Thorough (m : Moment W U P) : Prop where
  awake : ¬m.service.IsLeaving → .quit ∉ m.read.map Prod.fst
  gone : m.service.IsLeaving →
    (∃ before, m.read.map Prod.fst = before ++ [.quit] ∧ .quit ∉ before) ∨
      (m.service.held = 0 ∧ m.read.map Prod.fst = m.sent ∧ .quit ∉ m.sent) ∨
        ∃ round ∈ m.rounds, round.pass.verdict = .crashed

namespace Thorough

theorem sends (h : m.Thorough) (hopen : m.service.IsOpen) {service : Service W U P} {issued : Nat}
    {message : Message} (hphase : service.phase = m.service.phase) :
    Thorough { m with service := service, issued := issued, sent := m.sent ++ [message] } where
  awake := by
    rw [Service.IsLeaving, hphase]
    exact h.awake
  gone := by
    intro hleaving
    rw [Service.IsLeaving, hphase] at hleaving
    rcases h.gone hleaving with hquit | ⟨hheld, -⟩ | hcrashed
    · exact .inl hquit
    · exact absurd hheld hopen.1
    · exact .inr (.inr hcrashed)

theorem conclude (h : m.Thorough) {isLast : Bool} {pass : Pass W U P}
    (hphase : m.service.phase = .compiling isLast) : (m.conclude isLast pass).Thorough where
  awake := by
    intro hstays
    refine h.awake fun hleaving ↦ hstays ?_
    rcases hleaving with hleaving | hleaving
    · cases hphase.symm.trans hleaving
      exact .inr (by simp [Moment.conclude])
    · cases hphase.symm.trans hleaving
  gone := by
    intro hleaves
    by_cases hcrashed : pass.verdict = .crashed
    · exact .inr (.inr ⟨⟨m.pending, pass⟩, List.mem_concat_self, hcrashed⟩)
    · obtain rfl : isLast = true := by
        rw [Service.IsLeaving, Moment.conclude, Service.phase_conclude] at hleaves
        cases isLast with
        | true => rfl
        | false => simp [hcrashed] at hleaves
      rcases h.gone (.inl hphase) with hquit | ⟨hheld, hall⟩ | ⟨round, hround, hverdict⟩
      · exact .inl hquit
      · refine .inr (.inl ⟨?_, hall⟩)
        rw [Moment.conclude, Service.held_conclude]
        exact hheld
      · exact .inr (.inr ⟨round, List.mem_append_left _ hround, hverdict⟩)

/-- **Every move keeps a service thorough.** -/
theorem leads (h : m.Thorough) (haccounted : m.Accounted) (hm : m.Leads m') : m'.Thorough := by
  cases hm with
  | drifts hnow hissued hheld =>
    refine ⟨h.awake, fun hleaving ↦ ?_⟩
    exact (h.gone hleaving).imp_right (Or.imp_left (And.imp_left hheld))
  | asks target hopen => exact h.sends hopen rfl
  | enlists target hopen => exact h.sends hopen rfl
  | dismisses hopen => exact h.sends hopen rfl
  | refuses target hphase => exact ⟨h.awake, h.gone⟩
  | hears hphase hinbox =>
    have hawake := h.awake (Service.not_isLeaving_of_listening hphase)
    refine ⟨fun _ ↦ ?_, fun hleaving ↦ ?_⟩
    · simpa using hawake
    · exact absurd hleaving (Service.not_isLeaving_of_listening hphase)
  | quits hphase hinbox =>
    refine ⟨fun hstays ↦ absurd (Service.isLeaving_close _ _) hstays, fun _ ↦ .inl ?_⟩
    exact ⟨_, by simp, h.awake (Service.not_isLeaving_of_listening hphase)⟩
  | deserted hphase hinbox hhandles =>
    have hall := haccounted.channel (by rw [hphase]; nofun)
    rw [hinbox, List.append_nil] at hall
    refine ⟨fun hstays ↦ absurd (Service.isLeaving_close _ _) hstays, fun _ ↦ .inr (.inl ?_)⟩
    refine ⟨?_, hall.symm, ?_⟩
    · rw [Service.held_close]
      exact Service.held_of_handles hhandles
    · rw [hall]
      exact h.awake (Service.not_isLeaving_of_listening hphase)
  | begins hphase hinbox hover =>
    have hawake := h.awake (Service.not_isLeaving_of_listening hphase)
    refine ⟨fun _ ↦ hawake, ?_⟩
    rintro (hphase | hphase) <;> cases hphase
  | concludes hphase hattends => exact h.conclude hphase

/-- Behind its end a service has read just what was sent before the first wish that it stop. -/
theorem mem_heard_iff (h : m.Thorough) (haccounted : m.Accounted)
    (hstopped : m.service.phase = .stopped)
    (hsound : ∀ round ∈ m.rounds, round.pass.verdict ≠ .crashed) {r : Request}
    {before after : List Message} (hsent : m.sent = before ++ .request r :: after) :
    r ∈ m.heard.map Prod.fst ↔ .quit ∉ before := by
  rw [map_fst_heard]
  rcases h.gone (.inr hstopped) with ⟨heeded, hread, hquit⟩ | ⟨-, hread, hquit⟩ | hcrashed
  · obtain ⟨ignored, hignored⟩ := haccounted.read_prefix
    rw [hread, List.append_assoc, List.singleton_append, hsent] at hignored
    rw [hread]
    rcases List.append_eq_append_iff.1 hignored with ⟨between, hbefore, hrest⟩ |
      ⟨between, hheeded, hrest⟩
    · -- The wish was sent first, and whatever was read has a lower ticket.
      have hwish : .quit ∈ before := by
        cases between with
        | nil => cases hrest
        | cons first between =>
          obtain rfl : Message.quit = first := (List.cons.inj hrest).1
          rw [hbefore]
          exact List.mem_append_right _ List.mem_cons_self
      refine iff_of_false (fun hmem ↦ ?_) (not_not_intro hwish)
      have hlower := haccounted.tickets
      rw [asked, hsent, List.filterMap_append, InOrder, List.pairwise_append] at hlower
      have hheeded : r ∈ before.filterMap Message.request? := by
        rw [hbefore, List.filterMap_append]
        exact List.mem_append_left _ (by simpa using hmem)
      exact Nat.lt_irrefl _ (hlower.2.2 r hheeded r (by simp))
    · -- The request was sent first, and nothing that was read before the wish is one.
      cases between with
      | nil => cases hrest
      | cons first between =>
        obtain rfl : Message.request r = first := (List.cons.inj hrest).1
        rw [hheeded] at hquit ⊢
        refine iff_of_true ?_ fun hwish ↦ hquit (List.mem_append_left _ hwish)
        simp
  · rw [hread, hsent]
    rw [hsent, List.mem_append, not_or] at hquit
    refine iff_of_true ?_ hquit.1
    simp
  · obtain ⟨round, hround, hverdict⟩ := hcrashed
    exact absurd hverdict (hsound round hround)

end Thorough

end Moment

namespace Scene

variable (scene : Scene W U P E)

theorem thorough_opened (settings? : Option BatchSettings) (root : FilePath) (w : W) :
    (scene.opened settings? root w).Thorough := by
  refine ⟨fun _ hquit ↦ absurd hquit List.not_mem_nil, fun hleaving ↦ ?_⟩
  exact absurd hleaving (Service.not_isLeaving_of_listening rfl)

theorem thorough_play {m : Moment W U P} (hm : m.Regular) (h : m.Thorough)
    (moves : List (Move E)) : (scene.play m moves).Thorough := by
  have hboth := scene.play_induction (I := fun m ↦ m.Regular ∧ m.Thorough) ⟨hm, h⟩
    (fun _ _ hm h ↦ ⟨h.1.leads hm, h.2.leads h.1.accounted hm⟩) moves
  exact hboth.2

end Scene

/-! ## Who is answered -/

/-- A request that was read is answered once in the end, if no pass breaks down or ends over
diagnostics. -/
theorem Moment.Regular.length_calls {m : Moment W U P} (h : m.Regular)
    (hstopped : m.service.phase = .stopped) (hsound : ∀ round ∈ m.rounds,
      round.pass.verdict ≠ .crashed ∧ round.pass.verdict.isDiagnosed = false) {r : Request}
    (hr : r ∈ m.heard.map Prod.fst) : (m.calls r.ticket).length = 1 := by
  obtain ⟨round, hround, hmem⟩ := h.accounted.exists_round (h.step.ended hstopped) hr
  obtain ⟨hverdict, hgoes⟩ := hsound round hround
  have hattends := h.accounted.attended round hround
  have horder := h.accounted.inOrder_requests hround
  have hatmost : (round.pass.journal.answersTo r.ticket).length ≤ 1 :=
    hattends.length_answersTo_le_one horder
  have hsome : round.pass.journal.answersTo r.ticket ≠ [] := by
    rw [Ne, (hattends.settles hverdict).answersTo_eq_nil_iff horder hmem, hgoes]
    exact Bool.false_ne_true
  rw [h.accounted.calls_eq hround hmem]
  have hpositive := List.length_pos_iff.2 hsome
  omega

/-- **A request that was taken is answered once, unless it came behind a wish to stop.** Over every
schedule in which no pass breaks down or ends over diagnostics, whenever the service takes a
request, it is answered exactly once by the time the service has stopped, and by a pass, if nobody
had asked the service to stop before; but if somebody had, it is never answered. -/
theorem taken_answered_iff (scene : Scene W U P E) (settings? : Option BatchSettings)
    (root : FilePath) (w : W) (before after : List (Move E)) (target : Target) :
    let m := scene.play (scene.opened settings? root w) before
    let final := scene.play (scene.move m (.ask target)) after
    (m.service.ask ⟨m.issued, target⟩).1 = some (.ok ()) →
      final.service.phase = .stopped →
      (∀ round ∈ final.rounds,
        round.pass.verdict ≠ .crashed ∧ round.pass.verdict.isDiagnosed = false) →
      final.service.results m.issued = final.calls m.issued ∧
        (final.calls m.issued).length = if .quit ∈ m.sent then 0 else 1 := by
  intro m final htaken hstopped hsound
  have hopen : m.service.IsOpen := Service.ask_eq_ok_iff.1 htaken
  have hm : m.Regular := scene.regular_play (scene.regular_opened settings? root w) before
  have hasked : (scene.move m (.ask target)).Regular := scene.regular_move hm _
  have hfinal : final.Regular := scene.regular_play hasked after
  have hthorough : final.Thorough := by
    have hbefore : m.Thorough := scene.thorough_play (scene.regular_opened settings? root w)
      (scene.thorough_opened settings? root w) before
    exact scene.thorough_play hasked (hbefore.leads hm.accounted (Scene.leads_move _)) after
  have hmove := scene.move_ask_of_isOpen target hopen
  have hsent : (scene.move m (.ask target)).sent = m.sent ++ [.request ⟨m.issued, target⟩] := by
    rw [hmove]
  obtain ⟨rest, hrest⟩ := scene.sent_prefix_play (scene.move m (.ask target)) after
  rw [hsent, List.append_assoc, List.singleton_append] at hrest
  have hheard : (⟨m.issued, target⟩ : Request) ∈ final.heard.map Prod.fst ↔ .quit ∉ m.sent :=
    hthorough.mem_heard_iff hfinal.accounted hstopped (fun round hround ↦ (hsound round hround).1)
      hrest.symm
  refine ⟨?_, ?_⟩
  · -- Whoever asks and does not wait is told what passes tell.
    have hissued : m.issued < (scene.move m (.ask target)).issued := by
      rw [hmove]
      exact Nat.lt_succ_self _
    have hapart : ∀ r ∈ (scene.move m (.ask target)).service.waiting, r.ticket ≠ m.issued := by
      rw [hmove]
      exact hm.apart
    obtain ⟨news, hresults, hcalls⟩ := Scene.news_play hissued hapart after
    obtain ⟨hresults₀, hcalls₀⟩ := hm.untold
    have hresults₁ : (scene.move m (.ask target)).service.results m.issued = [] := by
      rw [hmove]
      exact hresults₀
    have hcalls₁ : (scene.move m (.ask target)).calls m.issued = [] := by
      rw [hmove]
      exact hcalls₀
    rw [hresults, hcalls, hresults₁, hcalls₁]
  · by_cases hquit : .quit ∈ m.sent
    · have hasked : (⟨m.issued, target⟩ : Request) ∈ final.asked := by
        rw [Moment.asked, ← hrest]
        simp
      have hnone := hfinal.accounted.calls_eq_nil_of_unread hasked fun hmem ↦ hheard.1 hmem hquit
      rw [if_pos hquit, hnone]
      rfl
    · rw [if_neg hquit]
      exact hfinal.length_calls hstopped hsound (hheard.2 hquit)

/-- What the theorem says of a request before a wish to stop and of one behind it. -/
theorem taken_answered_iff_sample :
    let scene := Memory.scene Workbench.annotatedOutput
    let start := scene.opened none Sample.root Sample.workbench
    let early := scene.play (scene.move start (.ask (Sample.target "a")))
      [.turn, .dismiss, .turn, .complete]
    let dismissed := scene.play start [.ask (Sample.target "a"), .dismiss]
    let late := scene.play (scene.move dismissed (.ask (Sample.target "b")))
      [.turn, .turn, .complete]
    (early.calls 0).length = 1 ∧ (late.calls 1).length = 0 := by
  intro scene start early dismissed late
  have hearly := taken_answered_iff scene none Sample.root Sample.workbench []
    [.turn, .dismiss, .turn, .complete] (Sample.target "a") (by rfl) (by decide +kernel)
    (by decide +kernel)
  have hlate := taken_answered_iff scene none Sample.root Sample.workbench
    [.ask (Sample.target "a"), .dismiss] [.turn, .turn, .complete] (Sample.target "b") (by rfl)
    (by decide +kernel) (by decide +kernel)
  exact ⟨hearly.2, hlate.2⟩

/-- **A request may be taken and dropped.** One that comes while the service makes its last pass is
taken, no pass breaks down or ends over diagnostics, and still nobody ever answers it. -/
theorem request_behind_dismissal_dropped :
    let scene := Memory.scene Workbench.annotatedOutput
    let m := scene.play (scene.opened none Sample.root Sample.workbench)
      [.ask (Sample.target "a"), .turn, .dismiss, .turn]
    let final := scene.play (scene.move m (.ask (Sample.target "b"))) [.complete]
    m.service.phase = .compiling true ∧
      (m.service.ask ⟨m.issued, Sample.target "b"⟩).1 = some (.ok ()) ∧
      final.service.phase = .stopped ∧
      (∀ round ∈ final.rounds,
        round.pass.verdict ≠ .crashed ∧ round.pass.verdict.isDiagnosed = false) ∧
      (final.service.results 0).length = 1 ∧ (final.service.results 1).length = 0 := by
  intro scene m final
  rw [Service.ask_eq_ok_iff]
  decide +kernel

end Coalesce
