import Coalesce.Proofs.Results

/-!
# Which requests share a pass

The timer runs from the last request that was read, and a turn looks at it only when the inbox is
empty. So a pass begins only when everything that was sent has been read and nothing has been read
for the quiet time. Of two requests that are read one after the other, the second gets into the pass
of the first unless the service takes a turn, late enough and with an empty inbox, between the two
(`Scene.stretch`): that turn begins the pass. What the quiet time is, the session says behind every
pass.

A pass that ends over diagnostics answers nobody, so requests that share a pass need not be answered
by it.
-/

namespace Coalesce

variable {W U P E : Type}

/-! ## The settings in force -/

namespace Moment

/-- The settings since the last pass: those that the session had behind it, or the initial ones. -/
def settings (m : Moment W U P) (initial : BatchSettings) : BatchSettings :=
  (m.rounds.getLast?.map fun round ↦ round.pass.session.batch).getD initial

/-- When it has been quiet for long enough since a time, with the settings in force. -/
def quietBy (m : Moment W U P) (initial : BatchSettings) (since : Nat) : Nat :=
  since + max (m.settings initial).quietPeriod 1

variable {m m' : Moment W U P} {initial : BatchSettings}

theorem Leads.batch_eq (hm : m.Leads m') (h : m.service.session.batch = m.settings initial) :
    m'.service.session.batch = m'.settings initial := by
  cases hm with
  | drifts | asks | enlists | refuses | dismisses | hears | begins => exact h
  | quits | deserted =>
    rw [Service.session_close]
    exact h
  | concludes hphase hattends => simp [conclude, settings]

end Moment

theorem Scene.batch_play (scene : Scene W U P E) (settings? : Option BatchSettings)
    (root : FilePath) (w : W) (moves : List (Move E)) :
    let start := scene.opened settings? root w
    let m := scene.play start moves
    m.service.session.batch = m.settings start.service.session.batch :=
  scene.play_induction (I := fun m ↦ m.service.session.batch =
    m.settings (scene.opened settings? root w).service.session.batch) rfl
    (fun _ _ hm h ↦ hm.batch_eq h) moves

/-! ## Turns -/

/-- Whether a move is a turn of the service. -/
def Move.isTurn : Move E → Bool
  | .turn => true
  | _ => false

namespace Scene

variable (scene : Scene W U P E)

/-- The moment of the first turn at or after a time, before it is taken. -/
def firstTurnFrom? (time : Nat) (m : Moment W U P) : List (Move E) → Option (Moment W U P)
  | [] => none
  | mv :: rest =>
    if mv.isTurn ∧ time ≤ m.now then some m else firstTurnFrom? time (scene.move m mv) rest

variable {scene} {m : Moment W U P}

theorem phase_move_of_not_turn {mv : Move E} (hturn : mv.isTurn = false)
    (hphase : m.service.phase = .listening) :
    (scene.move m mv).service.phase = .listening := by
  cases mv with
  | wait | outside | letGo => exact hphase
  | ask target =>
    by_cases hopen : m.service.IsOpen
    · rw [move_ask_of_isOpen target hopen]
      exact hphase
    · rw [move, Service.ask_of_not_isOpen hopen]
      exact hphase
  | enlist target =>
    by_cases hopen : m.service.IsOpen
    · rw [move_enlist_of_isOpen target hopen]
      exact hphase
    · rw [move, Service.enlist_of_not_isOpen hopen]
      dsimp only
      split <;> exact hphase
  | dismiss =>
    by_cases hopen : m.service.IsOpen
    · rw [move, Service.dismiss_of_isOpen hopen]
      exact hphase
    · rw [move, Service.dismiss_of_not_isOpen hopen]
      exact hphase
  | take =>
    rw [move, Service.take]
    dsimp only
    split <;> exact hphase
  | turn => cases hturn
  | complete | breakDown =>
    simp only [move, hphase]

/-- Once the timer is over, a turn is never for nothing. -/
theorem turn_of_isOver (hphase : m.service.phase = .listening)
    (hover : m.service.timer.isOver m.now = true) :
    (∃ r, m.turn.heard = m.heard ++ [(r, m.now)]) ∨ m.turn.service.IsLeaving ∨
      (m.service.inbox = [] ∧ m.turn.service.phase = .compiling false ∧
        m.turn.rounds = m.rounds) := by
  rw [Moment.turn]
  cases hinbox : m.service.inbox with
  | cons message rest =>
    rw [Service.next?_of_inbox hphase hinbox]
    cases message with
    | request r => exact .inl ⟨r, Moment.heard_read_request ..⟩
    | quit =>
      rw [Service.turn_of_quit hphase hinbox]
      exact .inr (.inl (Service.isLeaving_close _ _))
  | nil =>
    by_cases hhandles : m.service.handles = 0
    · rw [Service.turn_of_deserted hphase hinbox hhandles]
      exact .inr (.inl (Service.isLeaving_close _ _))
    · rw [Service.turn_of_isOver hphase hinbox hhandles hover]
      exact .inr (.inr ⟨rfl, rfl, rfl⟩)

/-- Between a request that was read and the next one, a service goes on listening with the same
timer until a turn with an empty inbox begins a pass; this is the first turn that is late enough. -/
theorem stretch {m' : Moment W U P} {between : List (Move E)} {timer : QuietTimer} {due : Nat}
    {r : Request} (hdue : ∀ now, timer.isOver now = true ↔ due ≤ now)
    (hphase : m.service.phase = .listening) (htimer : m.service.timer = timer)
    (hplay : scene.play m between = m') (hheard : m'.heard = m.heard)
    (hnext : m'.service.next? = some (.request r)) :
    (m'.rounds = m.rounds ∧ ∀ u, scene.firstTurnFrom? due m (between ++ [.turn]) = some u ↔
        due ≤ m'.now ∧ m' = u) ∨
      (m'.rounds ≠ m.rounds ∧ due ≤ m'.now ∧ ∃ u,
        scene.firstTurnFrom? due m (between ++ [.turn]) = some u ∧ u.service.inbox = []) := by
  have hlistens : m'.service.phase = .listening := by
    by_contra hdeaf
    rw [Service.next?_of_not_listening hdeaf] at hnext
    cases hnext
  induction between generalizing m with
  | nil =>
    obtain rfl : m = m' := hplay
    refine .inl ⟨rfl, fun u ↦ ?_⟩
    simp [firstTurnFrom?, Move.isTurn]
  | cons mv rest ih =>
    rw [play_cons] at hplay
    have hlead : m.Leads (scene.move m mv) := leads_move mv
    -- The first move reads nothing, since readings stay and none is there in the end, ...
    have hsame : (scene.move m mv).heard = m.heard := by
      have hrest := scene.heard_prefix_play (scene.move m mv) rest
      rw [hplay, hheard] at hrest
      exact hrest.eq_of_length_le hlead.heard_prefix.length_le
    have hno : ¬∃ r, (scene.move m mv).heard = m.heard ++ [(r, m.now)] := by
      rintro ⟨r, hr⟩
      rw [hsame] at hr
      simp at hr
    -- ... and the service does not leave, since in the end it listens.
    have hstay : ¬(scene.move m mv).service.IsLeaving := by
      intro hleaving
      have hleft := scene.isLeaving_play rest hleaving
      rw [hplay] at hleft
      rcases hleft with h | h <;> cases hlistens.symm.trans h
    -- A pass that begins now comes to its end before the service listens again.
    have hmade : (scene.move m mv).service.phase = .compiling false →
        (scene.move m mv).rounds = m.rounds → m'.rounds ≠ m.rounds := by
      intro hcompiling hrounds hequal
      rcases scene.round_of_compiling rest hcompiling with ⟨hphase', -, -⟩ | ⟨pass, hpass⟩
      · rw [hplay] at hphase'
        cases hlistens.symm.trans hphase'
      · rw [hplay, hequal, hrounds] at hpass
        have hlength := hpass.length_le
        rw [List.length_append, List.length_singleton] at hlength
        omega
    have hlater : m.now ≤ m'.now := by
      rw [← hplay]
      exact Nat.le_trans hlead.now_le (scene.now_le_play _ rest)
    rw [List.cons_append, firstTurnFrom?]
    by_cases hlook : mv.isTurn = true ∧ due ≤ m.now
    · -- The first turn that is late enough: all it can do is begin a pass.
      rw [if_pos hlook]
      obtain rfl : mv = .turn := by
        cases mv <;> first | rfl | cases hlook.1
      rcases turn_of_isOver hphase (by rw [htimer, hdue]; exact hlook.2) with
        hhears | hleaves | ⟨hinbox, hcompiling, hrounds⟩
      · exact absurd hhears hno
      · exact absurd hleaves hstay
      · exact .inr ⟨hmade hcompiling hrounds, Nat.le_trans hlook.2 hlater, m, rfl, hinbox⟩
    · rw [if_neg hlook]
      rcases hlead.of_listening hphase with
        ⟨hphase', htimer', hrounds, -⟩ | hhears | hleaves | ⟨hcompiling, hinbox, hover, hrounds⟩
      · rw [← hrounds]
        exact ih hphase' (htimer'.trans htimer) hplay (hheard.trans hsame.symm)
      · exact absurd hhears.2 hno
      · exact absurd hleaves hstay
      · -- Only a turn begins a pass, and only when the timer is over.
        rw [htimer, hdue] at hover
        cases hturn : mv.isTurn with
        | true => exact absurd ⟨hturn, hover⟩ hlook
        | false => cases hcompiling.symm.trans (phase_move_of_not_turn hturn hphase)

end Scene

/-! ## Passes and the requests that they are for -/

namespace Moment

/-- Two requests fall to the same pass. -/
def Together (m : Moment W U P) (r r' : Request) : Prop :=
  ∃ batch ∈ m.batches, r ∈ batch ∧ r' ∈ batch

variable {m m' final : Moment W U P}

theorem together_iff (h : final.Accounted) (hm : m.Extends m') (hm' : m'.Extends final)
    {r r' : Request} (hr : r ∈ m.pending) (hr' : r' ∈ m'.pending) :
    final.Together r r' ↔ m'.rounds = m.rounds := by
  obtain ⟨batch, hbatch, hpending⟩ := (hm.trans hm').getElem?_batches
  obtain ⟨batch', hbatch', hpending'⟩ := hm'.getElem?_batches
  have hmem : r ∈ batch := hpending.subset hr
  have hmem' : r' ∈ batch' := hpending'.subset hr'
  constructor
  · rintro ⟨shared, hshared, hr, hr'⟩
    obtain ⟨i, hi⟩ := List.mem_iff_getElem?.1 hshared
    have hlength : m.rounds.length = m'.rounds.length :=
      (h.batch_unique hbatch hi hmem hr).trans (h.batch_unique hi hbatch' hr' hmem')
    exact (hm.rounds_prefix.eq_of_length hlength).symm
  · intro hrounds
    rw [hrounds, hbatch, Option.some_inj] at hbatch'
    exact ⟨batch, List.mem_of_getElem? hbatch, hmem, hbatch' ▸ hmem'⟩

end Moment

namespace Scene

variable (scene : Scene W U P E) (settings? : Option BatchSettings) (root : FilePath) (w : W)

/-- A service that has just read a request wakes when it has been quiet for long enough. -/
theorem isOver_hear_iff (before : List (Move E)) (since now : Nat) :
    let start := scene.opened settings? root w
    let m := scene.play start before
    (m.service.timer.hear since).isOver now = true ↔
      m.quietBy start.service.session.batch since ≤ now := by
  intro start m
  have hstep : m.InStep :=
    (scene.regular_play (scene.regular_opened settings? root w) before).step
  have hbatch : m.service.session.batch = m.settings start.service.session.batch :=
    scene.batch_play settings? root w before
  rw [QuietTimer.isOver_iff, Moment.quietBy, ← hbatch, ← hstep.quiet]
  simp [QuietTimer.hear]

/-- The timer begins a pass only when all is read and it has been quiet for long enough. -/
theorem quiet_of_begins (before : List (Move E)) (mv : Move E) :
    let start := scene.opened settings? root w
    let m := scene.play start before
    m.service.phase = .listening → (scene.move m mv).service.phase = .compiling false →
      m.service.inbox = [] ∧ ∃ r last, m.heard.getLast? = some (r, last) ∧
        m.quietBy start.service.session.batch last ≤ m.now := by
  intro start m hphase hbegun
  have hstep : m.InStep :=
    (scene.regular_play (scene.regular_opened settings? root w) before).step
  have hlead : m.Leads (scene.move m mv) := leads_move mv
  rcases hlead.of_listening hphase with
    ⟨hlistens, -⟩ | ⟨hlistens, -⟩ | hleaves | ⟨-, hinbox, hover, -⟩
  · cases hlistens.symm.trans hbegun
  · cases hlistens.symm.trans hbegun
  · rcases hleaves with hleaves | hleaves <;> cases hleaves.symm.trans hbegun
  · refine ⟨hinbox, ?_⟩
    have hpending : m.pending ≠ [] := hstep.pending_ne_nil_of_isOver hphase hover
    obtain ⟨r, last, hheard, hlast⟩ := hstep.runs hphase hpending
    have htimer : m.service.timer.hear last = m.service.timer := by
      rw [QuietTimer.hear, ← hlast]
    refine ⟨r, last, hheard, (scene.isOver_hear_iff settings? root w before last m.now).1 ?_⟩
    rw [← htimer] at hover
    exact hover

/-- Two requests that are read one after the other fall to the same pass just if no pass was made
between them, which is so just if the second was read too early for one, or else was in the inbox at
the first turn that was late enough. -/
theorem together_iff_of_consecutive (before between after : List (Move E)) (r r' : Request) :
    let start := scene.opened settings? root w
    let m := scene.play start before
    let m' := scene.play m.turn between
    let due := m.quietBy start.service.session.batch m.now
    m.service.next? = some (.request r) → m'.service.next? = some (.request r') →
      m'.heard = m.turn.heard →
      ((scene.play m'.turn after).Together r r' ↔ m'.rounds = m.rounds) ∧
        (m'.rounds = m.rounds ↔ m'.now < due ∨ ∃ u,
          scene.firstTurnFrom? due m.turn (between ++ [.turn]) = some u ∧
            .request r' ∈ u.service.inbox) := by
  intro start m m' due hnext hnext' hheard
  obtain ⟨hphase, htimer, -, hpending⟩ := Moment.turn_of_next hnext
  obtain ⟨-, -, -, hpending'⟩ := Moment.turn_of_next hnext'
  have hstretch := stretch (m := m.turn) (fun now ↦ scene.isOver_hear_iff settings? root w before
    m.now now) hphase htimer rfl hheard hnext'
  constructor
  · have hm : m.Regular := scene.regular_play (scene.regular_opened settings? root w) before
    have hm' : m'.Regular := scene.regular_play (hm.leads m.leads_turn) between
    have hfinal := scene.regular_play (hm'.leads m'.leads_turn) after
    have hextends : m.turn.Extends m'.turn :=
      (scene.extends_play m.turn between).trans m'.leads_turn.extends
    have hr : r ∈ m.turn.pending := by
      rw [hpending]
      exact List.mem_concat_self
    have hr' : r' ∈ m'.turn.pending := by
      rw [hpending']
      exact List.mem_concat_self
    exact Moment.together_iff hfinal.accounted hextends (scene.extends_play m'.turn after) hr hr'
  · rcases hstretch with ⟨hrounds, hfirst⟩ | ⟨hrounds, hlate, u, hfirst, hempty⟩
    · refine iff_of_true hrounds ?_
      rcases Nat.lt_or_ge m'.now due with hearly | hlate
      · exact .inl hearly
      · obtain ⟨-, rest, hinbox⟩ := Service.next?_eq_some_iff.1 hnext'
        refine .inr ⟨m', (hfirst m').2 ⟨hlate, rfl⟩, ?_⟩
        rw [hinbox]
        exact List.mem_cons_self
    · refine iff_of_false hrounds ?_
      rintro (hearly | ⟨u', hfirst', hmem⟩)
      · exact absurd hlate (Nat.not_le_of_lt hearly)
      · obtain rfl : u = u' := Option.some_inj.1 (hfirst.symm.trans hfirst')
        rw [hempty] at hmem
        exact absurd hmem List.not_mem_nil

theorem settles_batches (moves : List (Move E)) :
    let m := scene.play (scene.opened settings? root w) moves
    m.heard.map Prod.fst <+: m.asked ∧ m.heard.map Prod.fst = m.batches.flatten ∧
      (m.service.phase = .stopped → m.pending = []) ∧
      ∀ round ∈ m.rounds, round.pass.verdict ≠ .crashed → round.pass.Settles round.requests := by
  intro m
  have hm : m.Regular := scene.regular_play (scene.regular_opened settings? root w) moves
  exact ⟨hm.accounted.heard_prefix_asked, hm.accounted.batched, hm.step.ended,
    fun round hround hsound ↦ (hm.accounted.attended round hround).settles hsound⟩

theorem timesAnswered_of_compiling (before after : List (Move E)) {isLast : Bool} {ticket : Nat}
    {round : Round W U P} :
    let m := scene.play (scene.opened settings? root w) before
    m.service.phase = .compiling isLast → m.issued ≤ ticket →
      (scene.play m after).rounds[m.rounds.length]? = some round →
      round.pass.timesAnswered ticket = 0 := by
  intro m hphase hticket hround
  have hm : m.Regular := scene.regular_play (scene.regular_opened settings? root w) before
  have hfinal := (scene.regular_play hm after).accounted
  rcases scene.round_of_compiling after hphase with ⟨-, hrounds, -⟩ | ⟨pass, hmade⟩
  · rw [hrounds, List.getElem?_eq_none (Nat.le_refl _)] at hround
    cases hround
  · obtain ⟨rest, hrest⟩ := hmade
    rw [← hrest] at hround
    obtain rfl : (⟨m.pending, pass⟩ : Round W U P) = round := by simpa using hround
    have hattends := hfinal.attended ⟨m.pending, pass⟩ (by rw [← hrest]; simp)
    rw [Pass.timesAnswered, List.countP_eq_zero]
    intro answer hanswer
    -- Who is answered waited when the pass began, and had a ticket by then.
    have hwaited : answer.1 ∈ m.pending :=
      hattends.answered.subset (List.mem_map_of_mem hanswer)
    have hasked : answer.1 ∈ m.asked :=
      hm.accounted.heard_prefix_asked.subset (hm.accounted.read_of_pending hwaited)
    have hissued : answer.1.ticket < m.issued := hm.accounted.issued _ hasked
    simp only [decide_eq_true_eq]
    omega

end Scene

/-- **Debounced batching.** Over every schedule, however the clock goes on and wherever messages and
turns fall:

The timer begins a pass only when the inbox is empty and it has been quiet since the last request
was read, for the quiet time in force but never for nothing. Of two requests that are read one after
the other, the second gets into the pass of the first just if no pass was made between them; and
that is so just if it was read before the first one's timer was over, or was already in the inbox at
the first turn behind that. Each pass takes what was read since the pass before, in the order of
sending, and unless it breaks down it answers just these requests in that order, or nobody if it
ends over diagnostics. A request that is made while a pass runs is not answered by this pass. -/
theorem passes_debounced (scene : Scene W U P E) (settings? : Option BatchSettings)
    (root : FilePath) (w : W) :
    let start := scene.opened settings? root w
    let initial := start.service.session.batch
    (∀ before mv, let m := scene.play start before
      m.service.phase = .listening → (scene.move m mv).service.phase = .compiling false →
        m.service.inbox = [] ∧ ∃ r last, m.heard.getLast? = some (r, last) ∧
          m.quietBy initial last ≤ m.now) ∧
    (∀ before between after r r', let m := scene.play start before
      let m' := scene.play m.turn between
      let due := m.quietBy initial m.now
      m.service.next? = some (.request r) → m'.service.next? = some (.request r') →
        m'.heard = m.turn.heard →
        ((scene.play m'.turn after).Together r r' ↔ m'.rounds = m.rounds) ∧
          (m'.rounds = m.rounds ↔ m'.now < due ∨ ∃ u,
            scene.firstTurnFrom? due m.turn (between ++ [.turn]) = some u ∧
              .request r' ∈ u.service.inbox)) ∧
    (∀ moves, let m := scene.play start moves
      m.heard.map Prod.fst <+: m.asked ∧ m.heard.map Prod.fst = m.batches.flatten ∧
        (m.service.phase = .stopped → m.pending = []) ∧
        ∀ round ∈ m.rounds, round.pass.verdict ≠ .crashed →
          round.pass.Settles round.requests) ∧
    (∀ before after isLast ticket round, let m := scene.play start before
      m.service.phase = .compiling isLast → m.issued ≤ ticket →
        (scene.play m after).rounds[m.rounds.length]? = some round →
        round.pass.timesAnswered ticket = 0) := by
  refine ⟨?_, ?_, ?_, ?_⟩
  · exact scene.quiet_of_begins settings? root w
  · exact scene.together_iff_of_consecutive settings? root w
  · exact scene.settles_batches settings? root w
  · intro before after isLast ticket round
    exact scene.timesAnswered_of_compiling settings? root w before after

/-- What the theorem says where the timer begins a pass, where two requests share a pass, where a
pass is made between them, and where somebody asks while a pass runs. -/
theorem passes_debounced_sample :
    let scene := Memory.scene Workbench.annotatedOutput
    let start := scene.opened none Sample.root Sample.workbench
    let asked := scene.play start [.ask (Sample.target "a")]
    let near := scene.play asked.turn [.wait 100, .ask (Sample.target "b")]
    let far := scene.play asked.turn [.wait 300, .turn, .complete, .ask (Sample.target "b")]
    let quiet := scene.play start [.ask (Sample.target "a"), .turn, .wait 300]
    let served := scene.play start [.ask (Sample.target "a"), .turn, .wait 300, .turn, .complete]
    let behind := scene.play (scene.play start [.ask (Sample.target "a"), .turn, .wait 300, .turn])
      [.ask (Sample.target "b"), .complete]
    (quiet.service.inbox = [] ∧ ∃ r last, quiet.heard.getLast? = some (r, last) ∧
        quiet.quietBy start.service.session.batch last ≤ quiet.now) ∧
      near.turn.Together ⟨0, Sample.target "a"⟩ ⟨1, Sample.target "b"⟩ ∧
      ¬far.turn.Together ⟨0, Sample.target "a"⟩ ⟨1, Sample.target "b"⟩ ∧
      (∀ round ∈ served.rounds,
        round.pass.verdict ≠ .crashed → round.pass.Settles round.requests) ∧
      ∃ round, behind.rounds[0]? = some round ∧ round.pass.timesAnswered 1 = 0 := by
  intro scene start asked near far quiet served behind
  obtain ⟨hbegins, htogether, hsettles, hmidway⟩ :=
    passes_debounced scene none Sample.root Sample.workbench
  refine ⟨?_, ?_, ?_, ?_, ?_⟩
  · exact hbegins [.ask (Sample.target "a"), .turn, .wait 300] .turn (by decide +kernel)
      (by decide +kernel)
  · have hnear := htogether [.ask (Sample.target "a")] [.wait 100, .ask (Sample.target "b")] []
      ⟨0, Sample.target "a"⟩ ⟨1, Sample.target "b"⟩ (by decide +kernel) (by decide +kernel)
      (by decide +kernel)
    exact hnear.1.2 (hnear.2.2 (.inl (by decide +kernel)))
  · have hfar := htogether [.ask (Sample.target "a")]
      [.wait 300, .turn, .complete, .ask (Sample.target "b")] []
      ⟨0, Sample.target "a"⟩ ⟨1, Sample.target "b"⟩ (by decide +kernel) (by decide +kernel)
      (by decide +kernel)
    intro hshared
    have hrounds : far.rounds.length = 0 := congrArg List.length (hfar.1.1 hshared)
    exact absurd hrounds (by decide +kernel)
  · exact (hsettles [.ask (Sample.target "a"), .turn, .wait 300, .turn, .complete]).2.2.2
  · have hmade : behind.rounds[0]?.isSome := by decide +kernel
    obtain ⟨round, hround⟩ := Option.isSome_iff_exists.1 hmade
    exact ⟨round, hround, hmidway [.ask (Sample.target "a"), .turn, .wait 300, .turn]
      [.ask (Sample.target "b"), .complete] false 1 round (by decide +kernel) (by decide +kernel)
      hround⟩

/-- A schedule of the sample project in which two requests are read at once and the pass that they
fall to ends over diagnostics. -/
def Sample.dismissive : List (Move Memory.Happening) := [
  .outside (.options { BuildOptions.default with noEmitOnError := true }),
  .outside (.diagnostics [.error "TS1" "odd"]),
  .ask (target "a"), .ask (target "b"), .turn, .turn, .wait 300, .turn, .complete, .letGo, .turn]

/-- **A pass need not answer anybody.** One that ends over diagnostics answers none of the requests
that were read since the pass before, and so two requests that were read at one time are not
answered by the same pass. -/
theorem diagnosed_pass_answers_nobody :
    let scene := Memory.scene Workbench.annotatedOutput
    let m := scene.play (scene.opened none Sample.root Sample.workbench) Sample.dismissive
    m.service.phase = .stopped ∧ (∀ round ∈ m.rounds, round.pass.verdict ≠ .crashed) ∧
      m.heard = [(⟨0, Sample.target "a"⟩, 0), (⟨1, Sample.target "b"⟩, 0)] ∧
      m.rounds.map (·.requests) = [[⟨0, Sample.target "a"⟩, ⟨1, Sample.target "b"⟩]] ∧
      ∀ round ∈ m.rounds, round.pass.timesAnswered 0 = 0 ∧ round.pass.timesAnswered 1 = 0 := by
  decide +kernel

end Coalesce
