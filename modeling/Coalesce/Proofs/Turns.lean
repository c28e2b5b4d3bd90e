import Coalesce.Service.Clients

/-!
# Turns of a service

What comes of a turn in each of the cases that it distinguishes, and of a message that a client
tries to send.
-/

namespace Coalesce

variable {W U P : Type}

/-- The request that a message carries. -/
def Message.request? : Message → Option Request
  | .request r => some r
  | .quit => none

@[simp] theorem Message.request?_request (r : Request) : (request r).request? = some r := rfl

@[simp] theorem Message.request?_quit : quit.request? = none := rfl

namespace Service

/-- Whether a message of a client would come into the inbox. -/
def IsOpen (s : Service W U P) : Prop := s.held ≠ 0 ∧ s.phase ≠ .stopped

instance (s : Service W U P) : Decidable s.IsOpen := inferInstanceAs (Decidable (_ ∧ _))

/-- The message that is read in the next turn. -/
def next? (s : Service W U P) : Option Message :=
  if s.phase = .listening then s.inbox.head? else none

variable {s : Service W U P} {now : Nat}

@[simp] theorem inbox_say (message : String) : (s.say now message).inbox = s.inbox := rfl

@[simp] theorem inbox_accept (r : Request) : (s.accept now r).inbox = s.inbox := rfl

/-! What comes of a turn, -/

theorem turn_of_request {r : Request} {rest : List Message} (hphase : s.phase = .listening)
    (hinbox : s.inbox = .request r :: rest) :
    s.turn now = { s with inbox := rest }.accept now r := by
  rw [turn, hphase, hinbox]

theorem turn_of_quit {rest : List Message} (hphase : s.phase = .listening)
    (hinbox : s.inbox = .quit :: rest) :
    s.turn now = ({ s with inbox := rest }.say now "shutting down").close now := by
  rw [turn, hphase, hinbox]

theorem turn_of_deserted (hphase : s.phase = .listening) (hinbox : s.inbox = [])
    (hhandles : s.handles = 0) : s.turn now = s.close now := by
  rw [turn, hphase, hinbox]
  exact if_pos hhandles

theorem turn_of_isOver (hphase : s.phase = .listening) (hinbox : s.inbox = [])
    (hhandles : s.handles ≠ 0) (hover : s.timer.isOver now = true) :
    s.turn now = { s with timer := { s.timer with last? := none } }.begin false now := by
  have hserve : s.timer.serve now = (true, { s.timer with last? := none }) :=
    if_pos (QuietTimer.isDue_of_isOver hover)
  simp only [turn, hphase, hinbox, if_neg hhandles, if_pos hover, hserve]

theorem turn_of_not_isOver (hphase : s.phase = .listening) (hinbox : s.inbox = [])
    (hhandles : s.handles ≠ 0) (hover : ¬s.timer.isOver now = true) : s.turn now = s := by
  simp only [turn, hphase, hinbox, if_neg hhandles, if_neg hover]

theorem turn_of_not_listening (hphase : s.phase ≠ .listening) : s.turn now = s := by
  rw [turn]
  cases h : s.phase with
  | listening => exact absurd h hphase
  | compiling isLast => rfl
  | stopped => rfl

/-! of the next message, -/

theorem next?_of_inbox {message : Message} {rest : List Message} (hphase : s.phase = .listening)
    (hinbox : s.inbox = message :: rest) : s.next? = some message := by
  rw [next?, if_pos hphase, hinbox]
  rfl

theorem next?_of_empty (hinbox : s.inbox = []) : s.next? = none := by
  rw [next?, hinbox]
  exact ite_self _

theorem next?_of_not_listening (hphase : s.phase ≠ .listening) : s.next? = none :=
  if_neg hphase

theorem next?_eq_some_iff {message : Message} :
    s.next? = some message ↔ s.phase = .listening ∧ ∃ rest, s.inbox = message :: rest := by
  rw [next?]
  split
  next hphase => simp [hphase, List.head?_eq_some_iff]
  next hphase => simp [hphase]

/-! of a service that reads no more, -/

theorem close_of_nobody (h : s.session.queue.requests = []) : s.close now = s.stop now := if_pos h

theorem close_of_somebody (h : s.session.queue.requests ≠ []) :
    s.close now = s.begin true now :=
  if_neg h

@[simp] theorem session_close : (s.close now).session = s.session := by
  rw [close]
  split <;> rfl

@[simp] theorem held_close : (s.close now).held = s.held := by
  rw [close]
  split <;> rfl

theorem held_of_handles (h : s.handles = 0) : s.held = 0 := by
  rw [handles] at h
  omega

/-! of the end of a pass, -/

section Conclude

variable (isLast : Bool) (pass : Pass W U P)

@[simp] theorem session_conclude : (s.conclude now isLast pass).session = pass.session := by
  rw [conclude]
  split <;> rfl

@[simp] theorem timer_conclude : (s.conclude now isLast pass).timer =
    s.timer.withQuiet pass.session.batch.quietPeriod := by
  rw [conclude]
  split <;> rfl

@[simp] theorem phase_conclude : (s.conclude now isLast pass).phase =
    if isLast ∨ pass.verdict = .crashed then .stopped else .listening := by
  rw [conclude]
  split <;> rfl

@[simp] theorem inbox_conclude : (s.conclude now isLast pass).inbox =
    if isLast ∨ pass.verdict = .crashed then [] else s.inbox := by
  rw [conclude]
  split <;> rfl

@[simp] theorem held_conclude : (s.conclude now isLast pass).held = s.held := by
  rw [conclude]
  split <;> rfl

end Conclude

/-! and of what a client tries to send.
-/

theorem phase_of_not_isOpen (h : ¬s.IsOpen) (hheld : s.held ≠ 0) : s.phase = .stopped :=
  Decidable.byContradiction fun hphase ↦ h ⟨hheld, hphase⟩

theorem ask_of_isOpen {r : Request} (h : s.IsOpen) :
    (s.ask r).2 = { s with inbox := s.inbox ++ [.request r] } := by
  rw [ask, if_neg h.1, post, if_neg h.2]

theorem ask_of_not_isOpen {r : Request} (h : ¬s.IsOpen) : (s.ask r).2 = s := by
  rw [ask]
  split
  next hheld => rfl
  next hheld => rw [post, if_pos (phase_of_not_isOpen h hheld)]

theorem ask_eq_ok_iff {r : Request} : (s.ask r).1 = some (.ok ()) ↔ s.IsOpen := by
  rw [ask, post]
  by_cases hheld : s.held = 0
  · simp [hheld, IsOpen]
  · by_cases hphase : s.phase = .stopped <;> simp [hheld, hphase, IsOpen]

theorem enlist_of_isOpen {r : Request} (h : s.IsOpen) :
    s.enlist now r =
      { s with inbox := s.inbox ++ [.request r], waiting := s.waiting ++ [r] } := by
  rw [enlist, if_neg h.1, post, if_neg h.2]

theorem enlist_of_not_isOpen {r : Request} (h : ¬s.IsOpen) :
    s.enlist now r = if s.held = 0 then s else s.note now [.answer r (.error .stopped)] := by
  rw [enlist]
  split
  next hheld => rfl
  next hheld => rw [post, if_pos (phase_of_not_isOpen h hheld)]

theorem dismiss_of_isOpen (h : s.IsOpen) : s.dismiss = { s with inbox := s.inbox ++ [.quit] } := by
  rw [dismiss, if_neg h.1, post, if_neg h.2]

theorem dismiss_of_not_isOpen (h : ¬s.IsOpen) : s.dismiss = s := by
  rw [dismiss]
  split
  next hheld => rfl
  next hheld => rw [post, if_pos (phase_of_not_isOpen h hheld)]

end Service

end Coalesce
