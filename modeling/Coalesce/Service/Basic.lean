import Coalesce.Service.QuietTimer
import Coalesce.Session.Pass

/-!
# The service

The service runs a session for clients that come and go. Clients put messages into its inbox. The
service takes one *turn* after another: in a turn it reads a single message, and only when there is
none does it look at the timer and begin a pass if it has been quiet for long enough. Behind a pass
it goes on with its turns. It stops when a client asks it to or when nobody holds a handle any more.
Before it stops it makes a last pass if anything is queued; what is still in the inbox then is given
up.

A pass takes its time: between its beginning and its end clients may put more into the inbox, but
the service reads nothing.

A handle is held by everybody who may still send something: by a client until it lets go, by one who
*waits* for an answer until it comes, and by a request that is *planted* in the backend until the
next build sends it from inside.

Whatever happens is logged with the millisecond it happens at.
-/

namespace Coalesce

/-- What a client sends. -/
inductive Message where
  | request (request : Request)
  | quit
deriving DecidableEq, Repr

/-- Something that happened, and when. -/
structure Timed (U : Type) where
  time : Nat
  event : Event U

/-- What a service is about. -/
inductive Phase where
  /-- It reads its inbox and waits for a quiet time. -/
  | listening
  /-- It waits for the end of a pass, and stops behind it if that is the last one. -/
  | compiling (isLast : Bool)
  | stopped
deriving DecidableEq, Repr

/-- A service and its clients. -/
structure Service (W U P : Type) where
  session : Session P
  world : W
  timer : QuietTimer
  inbox : List Message
  phase : Phase
  /-- The number of handles that clients hold and can use. -/
  held : Nat
  /-- Those who wait for an answer. -/
  waiting : List Request
  /-- The request that the next build sends. -/
  planted? : Option Request
  log : List (Timed U)

namespace Service

variable {W U P : Type}

/-- A service that has just begun to run a session, for a client with one handle. -/
def create (session : Session P) (world : W) : Service W U P where
  session := session
  world := world
  timer := .create session.batch.quietPeriod
  inbox := []
  phase := .listening
  held := 1
  waiting := []
  planted? := none
  log := []

/-- The number of all handles. -/
def handles (s : Service W U P) : Nat :=
  s.held + s.waiting.length + s.planted?.isSome.toNat

/-- The service after something happened to the world outside. -/
def note (s : Service W U P) (now : Nat) (journal : Journal U) : Service W U P :=
  { s with log := s.log ++ journal.map (Timed.mk now) }

/-- The service after a line about itself was traced. -/
def say (s : Service W U P) (now : Nat) (message : String) : Service W U P :=
  s.note now [.trace ⟨"compile", message⟩]

/-- Whether a request is on its way to an answer: in the queue or in the inbox. -/
def holds (s : Service W U P) (r : Request) : Bool :=
  s.session.queue.requests.contains r || s.inbox.contains (.request r)

/-- Lets go of everybody who was answered by a journal, and tells those whose request is nowhere any
more that it was given up. -/
def release (s : Service W U P) (now : Nat) (journal : Journal U) : Service W U P :=
  let answered := journal.answers.map fun answer => answer.1.ticket
  let left := s.waiting.filter fun r => !answered.contains r.ticket
  let lost := left.filter fun r => !s.holds r
  { s with waiting := left.filter s.holds }.note now
    (lost.map fun r => .answer r (.error .givenUp))

/-- Stops. What is still in the inbox is given up. -/
def stop (now : Nat) (s : Service W U P) : Service W U P :=
  { s with phase := .stopped, inbox := [] }.release now []

/-- Begins a pass. -/
def begin (isLast : Bool) (now : Nat) (s : Service W U P) : Service W U P :=
  { s with phase := .compiling isLast }.say now
    ("pass for " ++ Text.counted s.session.queue.length "request")

/-- Reads no more: stops, after a last pass if there is anything queued. -/
def close (now : Nat) (s : Service W U P) : Service W U P :=
  if s.session.queue.requests = [] then s.stop now else s.begin true now

/-- Queues a request. -/
def accept (now : Nat) (r : Request) (s : Service W U P) : Service W U P :=
  let s := s.say now ("queued " ++ r.target.source.text)
  { s with session := s.session.push r, timer := s.timer.hear now }

/-- One turn of a service that listens. Messages come before the timer. -/
def turn (now : Nat) (s : Service W U P) : Service W U P :=
  match s.phase, s.inbox with
  | .listening, .request r :: rest => { s with inbox := rest }.accept now r
  | .listening, .quit :: rest => ({ s with inbox := rest }.say now "shutting down").close now
  | .listening, [] =>
    if s.handles = 0 then s.close now
    else if s.timer.isOver now then
      match s.timer.serve now with
      | (true, timer) => { s with timer }.begin false now
      | (false, _) => s
    else s
  | .compiling _, _ => s
  | .stopped, _ => s

/-- What is traced at the end of a pass. -/
def closing : Verdict → Journal U
  | .finished summary =>
    [.trace ⟨"compile", "delivered " ++ Text.counted summary.delivered "file" ++ ", " ++
      Text.counted summary.reused "source unit" ++ " from cache"⟩]
  | .failed failure => [.trace ⟨"compile", "pass failed: " ++ failure.message⟩]
  | .crashed => []

/-- The service behind a pass. It goes on listening unless that was the last pass or a crash. -/
def conclude (now : Nat) (isLast : Bool) (pass : Pass W U P) (s : Service W U P) :
    Service W U P :=
  let after : Service W U P := { s with
    session := pass.session
    world := pass.world
    timer := s.timer.withQuiet pass.session.batch.quietPeriod
    phase := .listening }
  let told := ((after.note now pass.journal).release now pass.journal).note now
    (closing pass.verdict)
  if isLast ∨ pass.verdict = .crashed then told.stop now else told

/-- Brings the pass that runs to its end. -/
def complete (backend : Backend W U P) (project : Project W) (now : Nat) (s : Service W U P) :
    Service W U P :=
  match s.phase with
  | .compiling isLast => s.conclude now isLast (s.session.pass backend project s.world)
  | .listening => s
  | .stopped => s

/-! ## The service left to itself

Where nobody interferes, a pass takes no time, and a build sends the planted request. -/

/-- Puts the planted request into the inbox if the pass that runs builds. -/
def spring (backend : Backend W U P) (project : Project W) (s : Service W U P) :
    Service W U P :=
  if (s.session.pass backend project s.world).built then
    { s with inbox := s.inbox ++ s.planted?.toList.map .request, planted? := none }
  else s

/-- Makes the pass that has begun. -/
def makePass (backend : Backend W U P) (project : Project W) (now : Nat) (s : Service W U P) :
    Service W U P :=
  match s.phase with
  | .compiling _ => (s.spring backend project).complete backend project now
  | .listening => s
  | .stopped => s

/-- A number of turns at one time. -/
def turns (now : Nat) : Nat → Service W U P → Service W U P
  | 0, s => s
  | n + 1, s => turns now n (s.turn now)

/-- Does what is to be done at once: reads the inbox, and stops if that is asked for or if nobody
holds a handle. -/
def settle (backend : Backend W U P) (project : Project W) (now : Nat) (s : Service W U P) :
    Service W U P :=
  (s.turns now (s.inbox.length + 1)).makePass backend project now

/-- Makes a pass if it is time for one, and goes on at once with what came meanwhile. -/
def wake (backend : Backend W U P) (project : Project W) (now : Nat) (s : Service W U P) :
    Service W U P :=
  ((s.turn now).makePass backend project now).settle backend project now

/-- When the service does something next if no message comes. -/
def wakeTime? (s : Service W U P) : Option Nat :=
  if s.phase = .listening then s.timer.wakeTime? else none

/-- Does everything that is due by a time, from `now` on. -/
def runUntil (backend : Backend W U P) (project : Project W) (time now : Nat)
    (s : Service W U P) : Service W U P :=
  match s.wakeTime? with
  | some due =>
    if _ : now < due ∧ due ≤ time then
      runUntil backend project time due (s.wake backend project due)
    else s
  | none => s
termination_by time - now

end Service

end Coalesce
