import Coalesce.Proofs.Accounts

/-!
# How the record of a schedule grows

What has happened stays: passes come behind passes and readings behind readings, and the clock never
goes back. The requests that were read since the last pass get into the next one together, whatever
is read before it begins (`Moment.Extends`). While a pass runs nothing is read, so what is sent
meanwhile is not for this pass (`Scene.round_of_compiling`). A service that reads no more never does
again.
-/

namespace Coalesce

variable {W U P E : Type}

namespace Moment

/-- No pass came to its end between two moments, and those who waited at the first still wait at the
other; or else the next pass was for them, and perhaps for others who came behind them. -/
def Extends (m m' : Moment W U P) : Prop :=
  (m'.rounds = m.rounds ∧ m.pending <+: m'.pending) ∨
    ∃ round rest, m'.rounds = m.rounds ++ round :: rest ∧ m.pending <+: round.requests

variable {m m' m'' : Moment W U P}

namespace Extends

theorem refl (m : Moment W U P) : m.Extends m := .inl ⟨rfl, List.prefix_rfl⟩

theorem trans (h : m.Extends m') (h' : m'.Extends m'') : m.Extends m'' := by
  obtain ⟨hrounds, hpending⟩ | ⟨round, rest, hrounds, hpending⟩ := h
  · rw [Extends, ← hrounds]
    obtain ⟨hrounds', hpending'⟩ | ⟨round, rest, hrounds', hpending'⟩ := h'
    · exact .inl ⟨hrounds', hpending.trans hpending'⟩
    · exact .inr ⟨round, rest, hrounds', hpending.trans hpending'⟩
  · refine .inr ⟨round, ?_⟩
    obtain ⟨hrounds', -⟩ | ⟨round', rest', hrounds', -⟩ := h'
    · exact ⟨rest, hrounds'.trans hrounds, hpending⟩
    · refine ⟨rest ++ round' :: rest', ?_, hpending⟩
      rw [hrounds', hrounds, List.append_assoc, List.cons_append]

theorem rounds_prefix (h : m.Extends m') : m.rounds <+: m'.rounds := by
  obtain ⟨hrounds, -⟩ | ⟨round, rest, hrounds, -⟩ := h
  · exact ⟨[], by rw [hrounds, List.append_nil]⟩
  · rw [hrounds]
    exact List.prefix_append _ _

/-- Those who wait at a moment are the beginning of one batch later, that of the next pass. -/
theorem getElem?_batches (h : m.Extends m') :
    ∃ batch, m'.batches[m.rounds.length]? = some batch ∧ m.pending <+: batch := by
  obtain ⟨hrounds, hpending⟩ | ⟨round, rest, hrounds, hpending⟩ := h
  · exact ⟨m'.pending, by simp [batches, hrounds], hpending⟩
  · exact ⟨round.requests, by simp [batches, hrounds], hpending⟩

end Extends

/-! ## In one move -/

theorem Leads.extends (h : m.Leads m') : m.Extends m' := by
  cases h with
  | hears hphase hinbox => exact .inl ⟨rfl, List.prefix_append _ _⟩
  | concludes hphase hattends => exact .inr ⟨_, [], rfl, List.prefix_rfl⟩
  | drifts | asks | enlists | refuses | dismisses | quits | deserted | begins => exact .refl m

theorem Leads.heard_prefix (h : m.Leads m') : m.heard <+: m'.heard := by
  cases h with
  | hears hphase hinbox =>
    rw [heard_read_request]
    exact List.prefix_append _ _
  | quits hphase hinbox => exact ⟨[], by rw [heard_read_quit, List.append_nil]⟩
  | drifts | asks | enlists | refuses | dismisses | deserted | begins | concludes =>
    exact List.prefix_rfl

theorem Leads.sent_prefix (h : m.Leads m') : m.sent <+: m'.sent := by
  cases h with
  | asks | enlists | dismisses => exact List.prefix_append _ _
  | drifts | refuses | hears | quits | deserted | begins | concludes => exact List.prefix_rfl

theorem Leads.now_le (h : m.Leads m') : m.now ≤ m'.now := by
  cases h with
  | drifts hnow hissued hheld => exact hnow
  | asks | enlists | refuses | dismisses | hears | quits | deserted | begins | concludes =>
    exact Nat.le_refl _

theorem Leads.of_compiling {isLast : Bool} (h : m.Leads m')
    (hcompiling : m.service.phase = .compiling isLast) :
    (m'.service.phase = .compiling isLast ∧ m'.rounds = m.rounds ∧ m'.pending = m.pending) ∨
      ∃ pass, m'.rounds = m.rounds ++ [⟨m.pending, pass⟩] := by
  cases h with
  | drifts | asks | enlists | refuses | dismisses => exact .inl ⟨hcompiling, rfl, rfl⟩
  | hears hphase | quits hphase | deserted hphase | begins hphase =>
    cases hcompiling.symm.trans hphase
  | concludes hphase hattends => exact .inr ⟨_, rfl⟩

end Moment

/-- A service that reads no more: it makes its last pass or has stopped. -/
def Service.IsLeaving (s : Service W U P) : Prop := s.phase = .compiling true ∨ s.phase = .stopped

theorem Service.not_isLeaving_of_listening {s : Service W U P} (h : s.phase = .listening) :
    ¬s.IsLeaving := by
  rintro (hphase | hphase) <;> cases h.symm.trans hphase

theorem Service.isLeaving_close (s : Service W U P) (now : Nat) : (s.close now).IsLeaving := by
  by_cases h : s.session.queue.requests = []
  · rw [close_of_nobody h]
    exact .inr rfl
  · rw [close_of_somebody h]
    exact .inl rfl

namespace Moment

variable {m m' : Moment W U P}

theorem Leads.isLeaving (h : m.Leads m') (hleaving : m.service.IsLeaving) :
    m'.service.IsLeaving := by
  cases h with
  | drifts | asks | enlists | refuses | dismisses => exact hleaving
  | hears hphase | quits hphase | deserted hphase | begins hphase =>
    exact absurd hleaving (Service.not_isLeaving_of_listening hphase)
  | concludes hphase hattends =>
    -- The pass that runs can only be the last one.
    rename_i isLast pass
    obtain rfl : isLast = true := by
      rcases hleaving with h | h
      · cases h.symm.trans hphase
        rfl
      · cases h.symm.trans hphase
    exact .inr (by simp [conclude])

/-- Behind its end a service reads nothing and makes no pass. -/
theorem Leads.of_stopped (h : m.Leads m') (hstopped : m.service.phase = .stopped) :
    m'.service.phase = .stopped ∧ m'.heard = m.heard ∧ m'.rounds = m.rounds := by
  cases h with
  | drifts | asks | enlists | refuses | dismisses => exact ⟨hstopped, rfl, rfl⟩
  | hears hphase | quits hphase | deserted hphase | begins hphase | concludes hphase =>
    cases hstopped.symm.trans hphase

/-- What a move can do to a service that listens: nothing that keeps it from listening, or it reads
a request, or it reads no more, or it begins a pass. -/
theorem Leads.of_listening (h : m.Leads m') (hlistening : m.service.phase = .listening) :
    (m'.service.phase = .listening ∧ m'.service.timer = m.service.timer ∧
        m'.rounds = m.rounds ∧ m'.heard = m.heard) ∨
      (m'.service.phase = .listening ∧ ∃ r, m'.heard = m.heard ++ [(r, m.now)]) ∨
      m'.service.IsLeaving ∨
      (m'.service.phase = .compiling false ∧ m.service.inbox = [] ∧
        m.service.timer.isOver m.now = true ∧ m'.rounds = m.rounds) := by
  cases h with
  | drifts | asks | enlists | refuses | dismisses => exact .inl ⟨hlistening, rfl, rfl, rfl⟩
  | hears hphase hinbox => exact .inr (.inl ⟨hphase, _, heard_read_request ..⟩)
  | quits | deserted => exact .inr (.inr (.inl (Service.isLeaving_close _ _)))
  | begins hphase hinbox hover => exact .inr (.inr (.inr ⟨rfl, hinbox, hover, rfl⟩))
  | concludes hphase hattends => cases hlistening.symm.trans hphase

theorem turn_of_next {r : Request} (h : m.service.next? = some (.request r)) :
    m.turn.service.phase = .listening ∧ m.turn.service.timer = m.service.timer.hear m.now ∧
      m.turn.heard = m.heard ++ [(r, m.now)] ∧ m.turn.pending = m.pending ++ [r] := by
  obtain ⟨hphase, rest, hinbox⟩ := Service.next?_eq_some_iff.1 h
  rw [turn_of_request hphase hinbox]
  exact ⟨hphase, rfl, heard_read_request .., rfl⟩

end Moment

/-! ## Over a schedule -/

namespace Scene

variable (scene : Scene W U P E) (m : Moment W U P) (moves : List (Move E))

theorem extends_play : m.Extends (scene.play m moves) :=
  scene.play_induction (.refl m) (fun _ _ hm h ↦ h.trans hm.extends) moves

theorem heard_prefix_play : m.heard <+: (scene.play m moves).heard :=
  scene.play_induction (I := fun m' ↦ m.heard <+: m'.heard) List.prefix_rfl
    (fun _ _ hm h ↦ h.trans hm.heard_prefix) moves

theorem sent_prefix_play : m.sent <+: (scene.play m moves).sent :=
  scene.play_induction (I := fun m' ↦ m.sent <+: m'.sent) List.prefix_rfl
    (fun _ _ hm h ↦ h.trans hm.sent_prefix) moves

theorem now_le_play : m.now ≤ (scene.play m moves).now :=
  scene.play_induction (I := fun m' ↦ m.now ≤ m'.now) (Nat.le_refl _)
    (fun _ _ hm h ↦ Nat.le_trans h hm.now_le) moves

variable {m} in
theorem isLeaving_play (h : m.service.IsLeaving) : (scene.play m moves).service.IsLeaving :=
  scene.play_induction h (fun _ _ hm h ↦ hm.isLeaving h) moves

variable {m} in
theorem rounds_play_of_stopped (h : m.service.phase = .stopped) :
    (scene.play m moves).rounds = m.rounds := by
  have hboth := scene.play_induction
    (I := fun m' ↦ m'.service.phase = .stopped ∧ m'.rounds = m.rounds) ⟨h, rfl⟩ ?_ moves
  · exact hboth.2
  · rintro m' m'' hm ⟨hphase, hrounds⟩
    obtain ⟨hphase', -, hrounds'⟩ := hm.of_stopped hphase
    exact ⟨hphase', hrounds'.trans hrounds⟩

variable {m} in
/-- A pass that runs is for those who waited when it began, whatever happens before its end. -/
theorem round_of_compiling {isLast : Bool} (hphase : m.service.phase = .compiling isLast) :
    let m' := scene.play m moves
    (m'.service.phase = .compiling isLast ∧ m'.rounds = m.rounds ∧ m'.pending = m.pending) ∨
      ∃ pass, m.rounds ++ [⟨m.pending, pass⟩] <+: m'.rounds := by
  refine scene.play_induction (I := fun m' ↦
    (m'.service.phase = .compiling isLast ∧ m'.rounds = m.rounds ∧ m'.pending = m.pending) ∨
      ∃ pass, m.rounds ++ [⟨m.pending, pass⟩] <+: m'.rounds) (.inl ⟨hphase, rfl, rfl⟩)
    (fun m' m'' hm h ↦ ?_) moves
  obtain ⟨hphase', hrounds, hpending⟩ | ⟨pass, hround⟩ := h
  · rw [← hrounds, ← hpending]
    obtain hruns | ⟨pass, hround⟩ := hm.of_compiling hphase'
    · exact .inl hruns
    · exact .inr ⟨pass, [], by rw [hround, List.append_nil]⟩
  · exact .inr ⟨pass, hround.trans hm.extends.rounds_prefix⟩

end Scene

end Coalesce
