/-!
# Waiting for a quiet time

A pass should start when nobody has asked for anything for a while. A quiet timer is told of every
request and says when it has been quiet for long enough. It reads a clock that counts some number of
ticks in a millisecond, and every function is given the time that it happens at. A clock of whole
milliseconds is enough for a service, which sleeps in milliseconds; on a finer one there are times
at which less than a millisecond is left of the quiet time.

A sleep ends when what waits is due, but it never takes less than a millisecond.
-/

namespace Coalesce

/-- How long it has to be quiet, and when the last request came that has not been served yet, in the
ticks of a clock that counts `milli` of them in a millisecond. -/
structure QuietTimer (milli : Nat := 1) where
  quiet : Nat
  last? : Option Nat
deriving DecidableEq, Repr

namespace QuietTimer

variable {milli : Nat}

/-- A timer that has heard of no request. -/
def create (quiet : Nat) : QuietTimer milli := ⟨quiet, none⟩

/-- The timer that wants it to be quiet for a different time from now on. -/
def withQuiet (t : QuietTimer milli) (quiet : Nat) : QuietTimer milli := { t with quiet }

/-- The timer that has heard of a request. -/
def hear (t : QuietTimer milli) (now : Nat) : QuietTimer milli := { t with last? := some now }

/-- A request waits to be served. -/
def isPending (t : QuietTimer milli) : Bool := t.last?.isSome

/-- A request waits and it has been quiet for long enough. -/
def isDue (t : QuietTimer milli) (now : Nat) : Bool :=
  t.last?.any fun last => t.quiet ≤ now - last

/-- Whether what waits is to be served now; if so, nothing waits any longer. -/
def serve (t : QuietTimer milli) (now : Nat) : Bool × QuietTimer milli :=
  if t.isDue now then (true, { t with last? := none }) else (false, t)

/-- How long to sleep before it makes sense to look again: a day when nothing waits, and never less
than a millisecond. -/
def sleep (t : QuietTimer milli) (now : Nat) : Nat :=
  match t.last? with
  | none => 86400000 * milli
  | some last => max (t.quiet - (now - last)) milli

/-- When a sleep that began with the last request ends. -/
def wakeTime? (t : QuietTimer milli) : Option Nat := t.last?.map fun last => last + t.sleep last

/-- Whether a sleep that began with the last request is over. -/
def isOver (t : QuietTimer milli) (now : Nat) : Bool := t.wakeTime?.any (· ≤ now)

@[simp] theorem isPending_hear (t : QuietTimer milli) (now : Nat) :
    (t.hear now).isPending = true := rfl

theorem wakeTime?_eq (t : QuietTimer milli) :
    t.wakeTime? = t.last?.map (· + max t.quiet milli) := by
  cases hl : t.last? <;> simp [wakeTime?, sleep, hl]

theorem isOver_iff {t : QuietTimer milli} {now : Nat} :
    t.isOver now = true ↔ ∃ last, t.last? = some last ∧ last + max t.quiet milli ≤ now := by
  rw [isOver, wakeTime?_eq]
  cases t.last? <;> simp

theorem isDue_of_isOver {t : QuietTimer milli} {now : Nat} (h : t.isOver now = true) :
    t.isDue now = true := by
  obtain ⟨last, hlast, hover⟩ := isOver_iff.1 h
  rw [isDue, hlast, Option.any_some, decide_eq_true_eq]
  omega

end QuietTimer

end Coalesce
