import Coalesce.Proofs.Attendance
import Coalesce.Proofs.Turns

/-!
# Schedules of a service

A schedule is a list of moves: clients come and go and send their messages, the clock goes on,
things happen to the world outside, the service takes a turn, and the pass that runs comes to its
end. They may follow each other in any order. In particular the clock may go on and messages may
come while a pass runs, a service may take its turns late, and a pass may break down anywhere.

A `Moment` is a service at some point of a schedule, with a record of what has happened so far: what
was put into the inbox, what was read, and which passes were made. Requests are numbered in the
order in which they are made, and their tickets are these numbers.

What a move can do to a moment is said once, by `Moment.Leads`. What is shown of moments later is
shown by cases on it, and then holds behind every schedule (`Scene.play_induction`).
-/

namespace Coalesce

variable {W U P E : Type}

/-- What can happen next. -/
inductive Move (E : Type) where
  | wait (milliseconds : Nat)
  /-- A client asks for a file. -/
  | ask (target : Target)
  /-- A client asks for a file and waits for the answer. -/
  | enlist (target : Target)
  /-- A client asks the service to stop. -/
  | dismiss
  /-- A client takes another handle. -/
  | take
  /-- A client lets go of a handle. -/
  | letGo
  /-- Something happens to the world outside. -/
  | outside (event : E)
  /-- The service takes a turn. -/
  | turn
  /-- The pass that runs comes to its end. -/
  | complete
  /-- The pass that runs breaks down after so many things were done. -/
  | breakDown (done : Nat)

/-- A pass that was made, and the requests that were read between the pass before and this one. -/
structure Round (W U P : Type) where
  requests : List Request
  pass : Pass W U P

/-- A service at some point of a schedule, with a record of what has happened so far. -/
structure Moment (W U P : Type) where
  service : Service W U P
  now : Nat
  /-- The number of requests that were made so far: the ticket of the next one. -/
  issued : Nat
  /-- The messages that came into the inbox, in order. -/
  sent : List Message
  /-- The messages that the service has read, in order, and when. -/
  read : List (Message × Nat)
  /-- The passes that have come to their end, in order. -/
  rounds : List (Round W U P)
  /-- The requests that were read since then. -/
  pending : List Request

namespace Moment

/-- The record of a message that somebody tries to send. -/
def posting (m : Moment W U P) (message : Message) : List Message :=
  if m.service.IsOpen then [message] else []

/-- The moment behind a turn. -/
def turn (m : Moment W U P) : Moment W U P :=
  { m with
    service := m.service.turn m.now
    read := m.read ++ (m.service.next?.map (·, m.now)).toList
    pending := m.pending ++ (m.service.next?.bind Message.request?).toList }

/-- The moment behind a pass. -/
def conclude (m : Moment W U P) (isLast : Bool) (pass : Pass W U P) : Moment W U P :=
  { m with
    service := m.service.conclude m.now isLast pass
    rounds := m.rounds ++ [⟨m.pending, pass⟩]
    pending := [] }

/-- The requests that the service has read, in order, and when. -/
def heard (m : Moment W U P) : List (Request × Nat) :=
  m.read.filterMap fun entry ↦ entry.1.request?.map (·, entry.2)

/-- The requests that came into the inbox, in order. -/
def asked (m : Moment W U P) : List Request := m.sent.filterMap Message.request?

/-- The requests that the service has read, in batches: one for each pass, and those since. -/
def batches (m : Moment W U P) : List (List Request) := m.rounds.map (·.requests) ++ [m.pending]

end Moment

namespace Scene

variable (scene : Scene W U P E)

/-- A service that has just begun, for a client with one handle. -/
def opened (settings? : Option BatchSettings) (root : FilePath) (w : W) : Moment W U P where
  service := .create (.create scene.project settings? root w) w
  now := 0
  issued := 0
  sent := []
  read := []
  rounds := []
  pending := []

/-- The pass that runs, if it does not break down. -/
def running (m : Moment W U P) : Pass W U P :=
  m.service.session.pass scene.backend scene.project m.service.world

/-- The moment behind a move. -/
def move (m : Moment W U P) : Move E → Moment W U P
  | .wait milliseconds => { m with now := m.now + milliseconds }
  | .ask target =>
    let r : Request := ⟨m.issued, target⟩
    { m with
      service := (m.service.ask r).2
      issued := m.issued + 1
      sent := m.sent ++ m.posting (.request r) }
  | .enlist target =>
    let r : Request := ⟨m.issued, target⟩
    { m with
      service := m.service.enlist m.now r
      issued := m.issued + 1
      sent := m.sent ++ m.posting (.request r) }
  | .dismiss => { m with service := m.service.dismiss, sent := m.sent ++ m.posting .quit }
  | .take => { m with service := m.service.take }
  | .letGo => { m with service := m.service.letGo }
  | .outside event => { m with service := { m.service with
      world := scene.act event m.service.world } }
  | .turn => m.turn
  | .complete =>
    match m.service.phase with
    | .compiling isLast => m.conclude isLast (scene.running m)
    | .listening => m
    | .stopped => m
  | .breakDown done =>
    match m.service.phase with
    | .compiling isLast => m.conclude isLast ((scene.running m).brokenOff done)
    | .listening => m
    | .stopped => m

/-- The moment behind a schedule. -/
def play (m : Moment W U P) (moves : List (Move E)) : Moment W U P := moves.foldl scene.move m

variable {scene} {m : Moment W U P}

@[simp] theorem play_nil : scene.play m [] = m := rfl

@[simp] theorem play_cons (mv : Move E) (rest : List (Move E)) :
    scene.play m (mv :: rest) = scene.play (scene.move m mv) rest := rfl

theorem play_append (moves rest : List (Move E)) :
    scene.play m (moves ++ rest) = scene.play (scene.play m moves) rest :=
  List.foldl_append

theorem move_ask_of_isOpen (target : Target) (hopen : m.service.IsOpen) :
    scene.move m (.ask target) = { m with
      issued := m.issued + 1
      sent := m.sent ++ [.request ⟨m.issued, target⟩]
      service := { m.service with
        inbox := m.service.inbox ++ [.request ⟨m.issued, target⟩] } } := by
  rw [move, Moment.posting, if_pos hopen, Service.ask_of_isOpen hopen]

theorem move_enlist_of_isOpen (target : Target) (hopen : m.service.IsOpen) :
    scene.move m (.enlist target) = { m with
      issued := m.issued + 1
      sent := m.sent ++ [.request ⟨m.issued, target⟩]
      service := { m.service with
        inbox := m.service.inbox ++ [.request ⟨m.issued, target⟩]
        waiting := m.service.waiting ++ [⟨m.issued, target⟩] } } := by
  rw [move, Moment.posting, if_pos hopen, Service.enlist_of_isOpen hopen]

theorem move_enlist_of_stopped (target : Target) (hheld : m.service.held ≠ 0)
    (hphase : m.service.phase = .stopped) :
    scene.move m (.enlist target) = { m with
      issued := m.issued + 1
      service := m.service.note m.now [.answer ⟨m.issued, target⟩ (.error .stopped)] } := by
  have hopen : ¬m.service.IsOpen := fun h ↦ h.2 hphase
  rw [move, Moment.posting, if_neg hopen, Service.enlist_of_not_isOpen hopen, if_neg hheld,
    List.append_nil]

theorem service_move_complete :
    (scene.move m .complete).service =
      m.service.complete scene.backend scene.project m.now := by
  rw [move, Service.complete]
  cases m.service.phase <;> rfl

end Scene

/-! ## What a move can do -/

namespace Moment

/-- The moments that a moment leads to in one move. -/
inductive Leads (m : Moment W U P) : Moment W U P → Prop where
  /-- Nothing that concerns the service. -/
  | drifts {now issued held : Nat} {world : W} (hnow : m.now ≤ now) (hissued : m.issued ≤ issued)
      (hheld : m.service.held = 0 → held = 0) :
      Leads m { m with now, issued, service := { m.service with world, held } }
  /-- Somebody asks for a file. -/
  | asks (target : Target) (hopen : m.service.IsOpen) :
      Leads m { m with
        issued := m.issued + 1
        sent := m.sent ++ [.request ⟨m.issued, target⟩]
        service := { m.service with
          inbox := m.service.inbox ++ [.request ⟨m.issued, target⟩] } }
  /-- Somebody asks for a file and waits. -/
  | enlists (target : Target) (hopen : m.service.IsOpen) :
      Leads m { m with
        issued := m.issued + 1
        sent := m.sent ++ [.request ⟨m.issued, target⟩]
        service := { m.service with
          inbox := m.service.inbox ++ [.request ⟨m.issued, target⟩]
          waiting := m.service.waiting ++ [⟨m.issued, target⟩] } }
  /-- Somebody would wait, but the service has stopped. -/
  | refuses (target : Target) (hphase : m.service.phase = .stopped) :
      Leads m { m with
        issued := m.issued + 1
        service := m.service.note m.now [.answer ⟨m.issued, target⟩ (.error .stopped)] }
  | dismisses (hopen : m.service.IsOpen) :
      Leads m { m with
        sent := m.sent ++ [.quit]
        service := { m.service with inbox := m.service.inbox ++ [.quit] } }
  /-- A request is read. -/
  | hears {r : Request} {rest : List Message} (hphase : m.service.phase = .listening)
      (hinbox : m.service.inbox = .request r :: rest) :
      Leads m { m with
        service := { m.service with inbox := rest }.accept m.now r
        read := m.read ++ [(.request r, m.now)]
        pending := m.pending ++ [r] }
  /-- Somebody's wish that the service stop is read. -/
  | quits {rest : List Message} (hphase : m.service.phase = .listening)
      (hinbox : m.service.inbox = .quit :: rest) :
      Leads m { m with
        service := ({ m.service with inbox := rest }.say m.now "shutting down").close m.now
        read := m.read ++ [(.quit, m.now)] }
  /-- Nobody is left who could send anything. -/
  | deserted (hphase : m.service.phase = .listening) (hinbox : m.service.inbox = [])
      (hhandles : m.service.handles = 0) :
      Leads m { m with service := m.service.close m.now }
  /-- It has been quiet for long enough. -/
  | begins (hphase : m.service.phase = .listening) (hinbox : m.service.inbox = [])
      (hover : m.service.timer.isOver m.now = true) :
      Leads m { m with service :=
        { m.service with timer := { m.service.timer with last? := none } }.begin false m.now }
  /-- A pass comes to its end, or breaks down. -/
  | concludes {isLast : Bool} {pass : Pass W U P}
      (hphase : m.service.phase = .compiling isLast)
      (hattends : pass.Attends m.service.session.queue.requests) :
      Leads m (m.conclude isLast pass)

variable {m : Moment W U P}

theorem Leads.refl (m : Moment W U P) : m.Leads m :=
  .drifts (Nat.le_refl _) (Nat.le_refl _) id

/-- A request that the service never gets has a ticket too. -/
theorem Leads.skips (m : Moment W U P) : m.Leads { m with issued := m.issued + 1 } :=
  .drifts (Nat.le_refl _) (Nat.le_succ _) id

theorem turn_of_request {r : Request} {rest : List Message} (hphase : m.service.phase = .listening)
    (hinbox : m.service.inbox = .request r :: rest) :
    m.turn = { m with
      service := { m.service with inbox := rest }.accept m.now r
      read := m.read ++ [(.request r, m.now)]
      pending := m.pending ++ [r] } := by
  rw [turn, Service.turn_of_request hphase hinbox, Service.next?_of_inbox hphase hinbox]
  rfl

theorem leads_turn (m : Moment W U P) : m.Leads m.turn := by
  by_cases hphase : m.service.phase = .listening
  · cases hinbox : m.service.inbox with
    | cons message rest =>
      cases message with
      | request r =>
        rw [turn_of_request hphase hinbox]
        exact .hears hphase hinbox
      | quit =>
        rw [turn, Service.turn_of_quit hphase hinbox, Service.next?_of_inbox hphase hinbox]
        simpa [Message.request?] using Leads.quits hphase hinbox
    | nil =>
      have hnext := Service.next?_of_empty hinbox
      by_cases hhandles : m.service.handles = 0
      · rw [turn, Service.turn_of_deserted hphase hinbox hhandles, hnext]
        simpa using Leads.deserted hphase hinbox hhandles
      · by_cases hover : m.service.timer.isOver m.now = true
        · rw [turn, Service.turn_of_isOver hphase hinbox hhandles hover, hnext]
          simpa using Leads.begins hphase hinbox hover
        · rw [turn, Service.turn_of_not_isOver hphase hinbox hhandles hover, hnext]
          simpa using Leads.refl m
  · rw [turn, Service.turn_of_not_listening hphase, Service.next?_of_not_listening hphase]
    simpa using Leads.refl m

end Moment

namespace Scene

variable {scene : Scene W U P E} {m : Moment W U P}

/-- **Every move leads on.** -/
theorem leads_move (mv : Move E) : m.Leads (scene.move m mv) := by
  cases mv with
  | wait milliseconds => exact .drifts (Nat.le_add_right _ _) (Nat.le_refl _) id
  | ask target =>
    by_cases hopen : m.service.IsOpen
    · rw [move_ask_of_isOpen target hopen]
      exact .asks target hopen
    · rw [move, Moment.posting, if_neg hopen, Service.ask_of_not_isOpen hopen]
      simpa using Moment.Leads.skips m
  | enlist target =>
    by_cases hopen : m.service.IsOpen
    · rw [move_enlist_of_isOpen target hopen]
      exact .enlists target hopen
    · by_cases hheld : m.service.held = 0
      · rw [move, Moment.posting, if_neg hopen, Service.enlist_of_not_isOpen hopen, if_pos hheld]
        simpa using Moment.Leads.skips m
      · have hphase := Service.phase_of_not_isOpen hopen hheld
        rw [move_enlist_of_stopped target hheld hphase]
        exact .refuses target hphase
  | dismiss =>
    by_cases hopen : m.service.IsOpen
    · rw [move, Moment.posting, if_pos hopen, Service.dismiss_of_isOpen hopen]
      exact .dismisses hopen
    · rw [move, Moment.posting, if_neg hopen, Service.dismiss_of_not_isOpen hopen]
      simpa using Moment.Leads.refl m
  | take =>
    rw [move, Service.take]
    by_cases hheld : m.service.held = 0
    · rw [if_pos hheld]
      exact .refl m
    · rw [if_neg hheld]
      exact .drifts (Nat.le_refl _) (Nat.le_refl _) fun h ↦ absurd h hheld
  | letGo => exact .drifts (Nat.le_refl _) (Nat.le_refl _) fun h ↦ by rw [h]
  | outside event => exact .drifts (Nat.le_refl _) (Nat.le_refl _) id
  | turn => exact m.leads_turn
  | complete =>
    rw [move]
    cases hphase : m.service.phase with
    | compiling isLast => exact .concludes hphase (Session.attends_pass _ _ _ _)
    | listening => exact .refl m
    | stopped => exact .refl m
  | breakDown done =>
    rw [move]
    cases hphase : m.service.phase with
    | compiling isLast => exact .concludes hphase ((Session.attends_pass _ _ _ _).brokenOff done)
    | listening => exact .refl m
    | stopped => exact .refl m

theorem play_induction (scene : Scene W U P E) {I : Moment W U P → Prop} (hm : I m)
    (hleads : ∀ m m' : Moment W U P, m.Leads m' → I m → I m') (moves : List (Move E)) :
    I (scene.play m moves) := by
  induction moves generalizing m with
  | nil => exact hm
  | cons mv rest ih => exact ih (hleads m _ (leads_move mv) hm)

end Scene

end Coalesce
