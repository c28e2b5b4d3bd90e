import Coalesce.Service.Basic

/-!
# Clients of the service

What a client can do while it holds a handle: ask for a file, ask and wait for the answer, plant a
request in the backend, ask the service to stop, take another handle, and let go of one. Without a
handle it can do nothing. A message is *posted*, which fails once the service has stopped, and the
service takes notice of it in one of its turns. The last section has what clients do to a service
that takes its turns at once.
-/

namespace Coalesce.Service

variable {W U P : Type}

/-- Puts a message into the inbox. A service that has stopped refuses it. -/
def post (m : Message) (s : Service W U P) : Except Failure (Service W U P) :=
  if s.phase = .stopped then .error .stopped else .ok { s with inbox := s.inbox ++ [m] }

/-- Asks for a file. The answer is whether the service took the request; there is none for a client
without a handle. -/
def ask (r : Request) (s : Service W U P) : Option (Except Failure Unit) × Service W U P :=
  if s.held = 0 then (none, s)
  else match s.post (.request r) with
    | .ok s => (some (.ok ()), s)
    | .error failure => (some (.error failure), s)

/-- Asks for a file and waits until there is an answer, which comes at once if the service has
stopped. -/
def enlist (now : Nat) (r : Request) (s : Service W U P) : Service W U P :=
  if s.held = 0 then s
  else match { s with waiting := s.waiting ++ [r] }.post (.request r) with
    | .ok s => s
    | .error failure => s.note now [.answer r (.error failure)]

/-- Plants a request that the next build sends from inside, in place of one planted before. -/
def plant (r : Request) (s : Service W U P) : Service W U P :=
  if s.held = 0 then s else { s with planted? := some r }

/-- Asks the service to stop. -/
def dismiss (s : Service W U P) : Service W U P :=
  if s.held = 0 then s
  else match s.post .quit with
    | .ok s => s
    | .error _ => s

/-- Takes another handle beside one that is held. -/
def take (s : Service W U P) : Service W U P :=
  if s.held = 0 then s else { s with held := s.held + 1 }

/-- Lets go of a handle. -/
def letGo (s : Service W U P) : Service W U P := { s with held := s.held - 1 }

/-! ## With a service that takes its turns at once -/

/-- Asks for a file. -/
def request (backend : Backend W U P) (project : Project W) (now : Nat) (r : Request)
    (s : Service W U P) : Option (Except Failure Unit) × Service W U P :=
  let (taken?, s) := s.ask r
  (taken?, s.settle backend project now)

/-- Asks for a file and waits. -/
def await (backend : Backend W U P) (project : Project W) (now : Nat) (r : Request)
    (s : Service W U P) : Service W U P :=
  (s.enlist now r).settle backend project now

/-- Asks the service to stop. -/
def quit (backend : Backend W U P) (project : Project W) (now : Nat) (s : Service W U P) :
    Service W U P :=
  s.dismiss.settle backend project now

/-- Lets go of a handle. -/
def leave (backend : Backend W U P) (project : Project W) (now : Nat) (s : Service W U P) :
    Service W U P :=
  s.letGo.settle backend project now

/-- Takes out what is planted, lets go of all handles, and waits until the service has stopped. Only
those who wait for an answer can then hold it up, and they get theirs from the next pass. The result
is the time at which it has stopped. -/
def finish (backend : Backend W U P) (project : Project W) (now : Nat) (s : Service W U P) :
    Nat × Service W U P :=
  let s := { s with planted? := none, held := 0 }.settle backend project now
  match s.wakeTime? with
  | some due => (max now due, s.wake backend project (max now due))
  | none => (now, s)

end Coalesce.Service
