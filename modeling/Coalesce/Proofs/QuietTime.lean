import Coalesce.Service.QuietTimer
import Mathlib.Data.List.Basic

/-!
# What a quiet timer does in the course of time

A quiet timer remembers only when the last request came, and forgets it as soon as it has served it.
So what it answers is a question about the history of what was done with it and to its clock: has
there been a request since anything was served, and how much time has passed since the last one
(`QuietTimer.waiting?`)? Every course of steps keeps the two in agreement
(`QuietTimer.Course.Sound`).

The quiet time may be changed while a request waits, and counts at once, also for that request.
Histories have their latest entry in front, so that what happened since a request is what stands
before it in the list.

The clock may be as fine as one likes. So there are times at which something is left of the quiet
time, but less than a millisecond; a sleep that begins then takes a millisecond all the same, and a
shorter one would have been enough. At all other times before the quiet time is over, nothing
shorter than the sleep is.
-/

namespace Coalesce

namespace QuietTimer

/-! ## Histories -/

/-- What can be done with a quiet timer, and to its clock. -/
inductive Step where
  | hear
  | wait (span : Nat)
  | change (quiet : Nat)
  | serve
deriving DecidableEq, Repr

/-- What was done with a quiet timer. -/
inductive Deed where
  | heard
  | waited (span : Nat)
  | changed (quiet : Nat)
  /-- The timer was asked whether what waits is to be served now, and said so or not. -/
  | served (due : Bool)
deriving DecidableEq, Repr

/-- How long something took. -/
def Deed.span : Deed → Nat
  | waited span => span
  | _ => 0

/-- The quiet time from something on, if that has changed it. -/
def Deed.quiet? : Deed → Option Nat
  | changed quiet => some quiet
  | _ => none

/-- The time that has passed in a history. -/
def elapsed : List Deed → Nat
  | [] => 0
  | deed :: past => deed.span + elapsed past

/-- The quiet time that is in force behind a history. -/
def inForce (quiet : Nat) (past : List Deed) : Nat := (past.findSome? Deed.quiet?).getD quiet

/-- The time since the last request of a history, if nothing was served since. -/
def waiting? : List Deed → Option Nat
  | [] => none
  | .heard :: _ => some 0
  | .waited span :: past => (waiting? past).map (· + span)
  | .changed _ :: past => waiting? past
  | .served due :: past => if due then none else waiting? past

/-- A request waits in a history if nothing was served since the last one. -/
theorem waiting?_eq_some_iff {past : List Deed} {time : Nat} : waiting? past = some time ↔
    ∃ since before, past = since ++ .heard :: before ∧ .heard ∉ since ∧ .served true ∉ since ∧
      elapsed since = time := by
  constructor
  · intro h
    induction past generalizing time with
    | nil => cases h
    | cons deed past ih =>
      -- Whatever is no request and serves nothing goes in front of what happened since.
      have hgrow : ∀ {rest : Nat}, waiting? past = some rest → deed ≠ .heard →
          deed ≠ .served true → ∃ since before, deed :: past = since ++ .heard :: before ∧
            .heard ∉ since ∧ .served true ∉ since ∧ elapsed since = deed.span + rest := by
        intro rest hrest hheard hserved
        obtain ⟨since, before, rfl, hsince, hunserved, rfl⟩ := ih hrest
        exact ⟨deed :: since, before, rfl, by simp [hsince, hheard.symm],
          by simp [hunserved, hserved.symm], rfl⟩
      cases deed with
      | heard => exact ⟨[], past, rfl, by simp, by simp, Option.some.inj h⟩
      | waited span =>
        obtain ⟨rest, hrest, rfl⟩ := Option.map_eq_some_iff.1 h
        rw [Nat.add_comm]
        exact hgrow hrest (by simp) (by simp)
      | changed quiet => simpa [Deed.span] using hgrow h (by simp) (by simp)
      | served due =>
        cases due with
        | true => cases h
        | false => simpa [Deed.span] using hgrow h (by simp) (by simp)
  · rintro ⟨since, before, rfl, hsince, hunserved, rfl⟩
    induction since with
    | nil => rfl
    | cons deed since ih =>
      rw [List.mem_cons, not_or] at hsince hunserved
      have hrest := ih hsince.2 hunserved.2
      cases deed with
      | heard => exact absurd rfl hsince.1
      | waited span => simp [waiting?, hrest, elapsed, Deed.span, Nat.add_comm]
      | changed quiet => simpa [waiting?, elapsed, Deed.span] using hrest
      | served due =>
        cases due with
        | true => exact absurd rfl hunserved.1
        | false => simpa [waiting?, elapsed, Deed.span] using hrest

theorem waiting?_of_served {since : List Deed} (hheard : .heard ∉ since)
    (hserved : .served true ∈ since) (before : List Deed) : waiting? (since ++ before) = none := by
  induction since with
  | nil => exact absurd hserved List.not_mem_nil
  | cons deed since ih =>
    rw [List.mem_cons, not_or] at hheard
    cases deed with
    | heard => exact absurd rfl hheard.1
    | waited span => simpa [waiting?] using ih hheard.2 (by simpa using hserved)
    | changed quiet => simpa [waiting?] using ih hheard.2 (by simpa using hserved)
    | served due =>
      cases due with
      | true => rfl
      | false => simpa [waiting?] using ih hheard.2 (by simpa using hserved)

/-! ## Courses -/

/-- A quiet timer with its clock and its history. -/
structure Course (milli : Nat) where
  timer : QuietTimer milli
  now : Nat
  past : List Deed
deriving DecidableEq, Repr

namespace Course

variable {milli : Nat}

/-- A timer that has heard of nothing yet, on a clock that counts `milli` ticks in a millisecond. -/
def start (milli quiet now : Nat) : Course milli := ⟨.create quiet, now, []⟩

/-- Whether the timer says that what waits is to be served now. -/
def serves (c : Course milli) : Bool := (c.timer.serve c.now).1

/-- One step of a course. -/
def step (c : Course milli) : Step → Course milli
  | .hear => { c with timer := c.timer.hear c.now, past := .heard :: c.past }
  | .wait span => { c with now := c.now + span, past := .waited span :: c.past }
  | .change quiet => { c with timer := c.timer.withQuiet quiet, past := .changed quiet :: c.past }
  | .serve => { c with timer := (c.timer.serve c.now).2, past := .served c.serves :: c.past }

/-- Steps one after another. -/
def run (c : Course milli) (steps : List Step) : Course milli := steps.foldl step c

variable {c : Course milli} {quiet : Nat}

theorem serves_eq (c : Course milli) : c.serves = c.timer.isDue c.now := by
  rw [serves, serve]
  split <;> simp_all

theorem serves_iff : c.serves = true ↔
    ∃ last, c.timer.last? = some last ∧ c.timer.quiet ≤ c.now - last := by
  rw [serves_eq, isDue]
  cases c.timer.last? <;> simp

theorem step_of_serves (h : c.serves = true) : c.step .serve =
    { c with timer := { c.timer with last? := none }, past := .served true :: c.past } := by
  rw [step, h, serve, ← serves_eq, if_pos h]

theorem step_of_not_serves (h : c.serves = false) :
    c.step .serve = { c with past := .served false :: c.past } := by
  rw [step, h, serve, ← serves_eq, if_neg (by simp [h])]

/-- What a timer knows is what its history says. -/
structure Sound (quiet : Nat) (c : Course milli) : Prop where
  last_le : ∀ last, c.timer.last? = some last → last ≤ c.now
  waiting : c.timer.last?.map (c.now - ·) = waiting? c.past
  quiet_eq : c.timer.quiet = inForce quiet c.past
  /-- A request waited whenever something was served. -/
  own : ∀ later earlier, c.past = later ++ .served true :: earlier →
    (waiting? earlier).isSome = true
  /-- Every request is served once at most, and the one that waits has not been served. -/
  count : c.past.count (.served true) + c.timer.isPending.toNat ≤ c.past.count .heard

theorem sound_start (milli quiet now : Nat) : (start milli quiet now).Sound quiet where
  last_le _ h := by cases h
  waiting := rfl
  quiet_eq := rfl
  own later earlier h := by cases later <;> cases h
  count := Nat.le_refl _

theorem own_cons {past : List Deed} {deed : Deed} (hdeed : deed ≠ .served true)
    (h : ∀ later earlier, past = later ++ .served true :: earlier →
      (waiting? earlier).isSome = true) (later earlier : List Deed)
    (hpast : deed :: past = later ++ .served true :: earlier) :
    (waiting? earlier).isSome = true := by
  cases later with
  | nil => exact absurd (List.cons.inj hpast).1 hdeed
  | cons first later => exact h later earlier (List.cons.inj hpast).2

theorem Sound.step (h : c.Sound quiet) (s : Step) : (c.step s).Sound quiet := by
  obtain ⟨hlast, hwaiting, hquiet, hown, hcount⟩ := h
  cases s with
  | hear =>
    exact
      { last_le := fun last hnow ↦ Nat.le_of_eq (Option.some.inj hnow).symm
        waiting := by simp [Course.step, hear, waiting?]
        quiet_eq := hquiet
        own := own_cons (by simp) hown
        count := by
          simp only [Course.step, isPending_hear, List.count_cons]
          simp
          omega }
  | wait span =>
    exact
      { last_le := fun last hnow ↦ Nat.le_add_right_of_le (hlast last hnow)
        waiting := by
          rw [Course.step, waiting?, ← hwaiting]
          cases hl : c.timer.last? with
          | none => rfl
          | some last => simp [Nat.sub_add_comm (hlast last hl)]
        quiet_eq := hquiet
        own := own_cons (by simp) hown
        count := by simpa [Course.step] using hcount }
  | change quiet' =>
    exact
      { last_le := hlast
        waiting := hwaiting
        quiet_eq := rfl
        own := own_cons (by simp) hown
        count := by simpa [Course.step, withQuiet, isPending] using hcount }
  | serve =>
    cases hserves : c.serves with
    | false =>
      rw [step_of_not_serves hserves]
      exact ⟨hlast, hwaiting, hquiet, own_cons (by simp) hown, by simpa using hcount⟩
    | true =>
      obtain ⟨last, hl, -⟩ := serves_iff.1 hserves
      rw [step_of_serves hserves]
      exact
        { last_le := fun last hnow ↦ by cases hnow
          waiting := rfl
          quiet_eq := hquiet
          own := fun later earlier hpast ↦ by
            cases later with
            | nil =>
              obtain ⟨-, rfl⟩ := List.cons.inj hpast
              rw [← hwaiting, hl]
              rfl
            | cons deed later => exact hown later earlier (List.cons.inj hpast).2
          count := by
            rw [isPending, hl] at hcount
            simpa [isPending] using hcount }

theorem Sound.run (h : c.Sound quiet) (steps : List Step) : (c.run steps).Sound quiet := by
  induction steps generalizing c with
  | nil => exact h
  | cons s steps ih => exact ih (h.step s)

/-! ## Serving -/

/-- The timer serves by what its history says of the last request. -/
theorem Sound.serves_iff (h : c.Sound quiet) : c.serves = true ↔
    ∃ since before, c.past = since ++ .heard :: before ∧ .heard ∉ since ∧ .served true ∉ since ∧
      inForce quiet c.past ≤ elapsed since := by
  rw [Course.serves_iff, ← h.quiet_eq]
  constructor
  · rintro ⟨last, hlast, hquiet⟩
    have hwaiting := h.waiting
    rw [hlast] at hwaiting
    obtain ⟨since, before, hpast, hheard, hserved, helapsed⟩ :=
      waiting?_eq_some_iff.1 hwaiting.symm
    exact ⟨since, before, hpast, hheard, hserved, helapsed ▸ hquiet⟩
  · rintro ⟨since, before, hpast, hheard, hserved, hquiet⟩
    have hwaiting := waiting?_eq_some_iff.2 ⟨since, before, hpast, hheard, hserved, rfl⟩
    obtain ⟨last, hlast, helapsed⟩ := Option.map_eq_some_iff.1 (h.waiting.trans hwaiting)
    exact ⟨last, hlast, helapsed ▸ hquiet⟩

/-- Between a request and the next one something is served once at most: the second time nothing
would wait. -/
theorem Sound.once (h : c.Sound quiet) {later since before : List Deed}
    (hpast : c.past = later ++ since ++ .heard :: before) (hheard : .heard ∉ since) :
    since.count (.served true) ≤ 1 := by
  by_contra hmany
  have hmem : .served true ∈ since := List.count_pos_iff.1 (by omega)
  obtain ⟨front, back, rfl, hfront⟩ := List.eq_append_cons_of_mem hmem
  have hback : .served true ∈ back := by
    rw [List.count_append, List.count_eq_zero_of_not_mem hfront, List.count_cons_self] at hmany
    exact List.count_pos_iff.1 (by omega)
  have hnone := waiting?_of_served (fun h ↦ hheard (by simp [h])) hback (.heard :: before)
  have hsome := h.own (later ++ front) (back ++ .heard :: before) (by simp [hpast])
  rw [hnone] at hsome
  cases hsome

/-! ## Sleeping -/

variable {last : Nat}

theorem sleep_eq (h : c.timer.last? = some last) :
    c.timer.sleep c.now = max (c.timer.quiet - (c.now - last)) milli := by
  rw [sleep, h]

theorem milli_le_sleep (c : Course milli) : milli ≤ c.timer.sleep c.now := by
  cases hlast : c.timer.last? with
  | none =>
    have hidle : c.timer.sleep c.now = 86400000 * milli := by rw [sleep, hlast]
    rw [hidle]
    omega
  | some last =>
    rw [sleep_eq hlast]
    exact Nat.le_max_right _ _

theorem serves_wait_iff (h : c.timer.last? = some last) (span : Nat) :
    (c.step (.wait span)).serves = true ↔ c.timer.quiet ≤ c.now + span - last := by
  rw [serves_iff]
  exact ⟨fun ⟨_, hlast, hquiet⟩ ↦ Option.some.inj (h.symm.trans hlast) ▸ hquiet,
    fun hquiet ↦ ⟨last, h, hquiet⟩⟩

/-! ## What a history says -/

/-- What holds of a timer at any point of its course. -/
structure Follows (quiet : Nat) (c : Course milli) : Prop where
  /-- What waits is served just if there was a request, nothing was served since the last one, and
  since then the quiet time that is now in force has passed. -/
  serves_iff : c.serves = true ↔
    ∃ since before, c.past = since ++ .heard :: before ∧ .heard ∉ since ∧ .served true ∉ since ∧
      inForce quiet c.past ≤ elapsed since
  /-- Whatever was served, there was a request before, and nothing was served between them. -/
  own : ∀ later earlier, c.past = later ++ .served true :: earlier →
    ∃ since before, earlier = since ++ .heard :: before ∧ .heard ∉ since ∧ .served true ∉ since
  /-- A request is served once at most before the next one comes. -/
  once : ∀ later since before, c.past = later ++ since ++ .heard :: before → .heard ∉ since →
    since.count (.served true) ≤ 1
  count_le : c.past.count (.served true) ≤ c.past.count .heard
  /-- While a request waits, it can be served after a sleep of the length that the timer gives. -/
  serves_after_sleep : c.timer.isPending = true →
    (c.step (.wait (c.timer.sleep c.now))).serves = true
  /-- It cannot be served after a shorter one, as long as more than a millisecond is left of the
  quiet time. -/
  not_serves_before : ∀ last, c.timer.last? = some last →
    milli < c.timer.quiet - (c.now - last) → ∀ span < c.timer.sleep c.now,
      (c.step (.wait span)).serves = false
  milli_le_sleep : milli ≤ c.timer.sleep c.now
  sleep_le : c.timer.isPending = true → c.timer.sleep c.now ≤ max (inForce quiet c.past) milli

end Course

end QuietTimer

open QuietTimer in
/-- **A quiet timer against its history.** Take a clock of any fineness, any quiet time to begin
with and any steps. The timer says that what waits is to be served just if, since anything was
served, there has been a request and the quiet time in force has passed since the last one. So every
request is served once at most, and no more is served than was heard. As long as a request waits, a
sleep of the length that the timer gives is long enough, and none that is shorter is, unless no more
than a millisecond is left. No sleep is shorter than a millisecond. -/
theorem quiet_timer_follows_history (milli quiet now : Nat) (steps : List Step) :
    ((Course.start milli quiet now).run steps).Follows quiet := by
  generalize hc : (Course.start milli quiet now).run steps = c
  have hsound : c.Sound quiet := hc ▸ (Course.sound_start milli quiet now).run steps
  exact
    { serves_iff := hsound.serves_iff
      own := fun later earlier hpast ↦ by
        obtain ⟨time, htime⟩ := Option.isSome_iff_exists.1 (hsound.own later earlier hpast)
        obtain ⟨since, before, hearlier, hheard, hserved, -⟩ := waiting?_eq_some_iff.1 htime
        exact ⟨since, before, hearlier, hheard, hserved⟩
      once := fun _ _ _ ↦ hsound.once
      count_le := Nat.le_of_add_right_le hsound.count
      serves_after_sleep := fun hpending ↦ by
        obtain ⟨last, hlast⟩ := Option.isSome_iff_exists.1 hpending
        have hle := hsound.last_le last hlast
        rw [Course.serves_wait_iff hlast, Course.sleep_eq hlast]
        omega
      not_serves_before := fun last hlast hleft span hspan ↦ by
        rw [Course.sleep_eq hlast] at hspan
        rw [Bool.eq_false_iff, ne_eq, Course.serves_wait_iff hlast]
        omega
      milli_le_sleep := c.milli_le_sleep
      sleep_le := fun hpending ↦ by
        obtain ⟨last, hlast⟩ := Option.isSome_iff_exists.1 hpending
        rw [Course.sleep_eq hlast, ← hsound.quiet_eq]
        omega }

/-- A shorter quiet time counts at once, also for a request that waits. -/
example : ((QuietTimer.Course.start 1 250 0).run [.hear, .wait 50, .change 40]).serves = true := by
  decide

/-- With three tenths of a millisecond left, the timer sleeps for a millisecond. -/
example :
    let c := (QuietTimer.Course.start 1000 250000 0).run [.hear, .wait 249700]
    c.serves = false ∧ c.timer.sleep c.now = 1000 ∧ (c.step (.wait 300)).serves = true := by
  decide

end Coalesce
