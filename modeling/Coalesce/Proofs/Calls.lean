import Coalesce.Proofs.Writes
import Coalesce.Session.Pass

/-!
# Calls on the host of a pass

A backend may call the host of a pass as often as it likes, in any order and under any spelling.
What comes of it does not depend on when a call is made, except through the host below: that host
sees just those calls that the overlay passes on (`Overlay.passes`), in their order, and its replies
are put in between the units that are served again (`Overlay.weave`). So the whole run is known from
a run of the host below over fewer calls (`Overlay.after_host`, `Overlay.answers_host`).

A write changes nothing that the overlay itself looks at. It can change the answer to a read only
where it is forwarded and the host below answers its own reads differently after it.
-/

namespace Coalesce

/-- A call on a host. -/
inductive Call where
  | read (path : FilePath)
  | write (path : FilePath) (text : String)
deriving DecidableEq, Repr

namespace Call

/-- Whether a call is a read. -/
def isRead : Call → Bool
  | read _ => true
  | write .. => false

/-- What a call writes. -/
def write? : Call → Option (FilePath × String)
  | read _ => none
  | write path text => some (path, text)

@[simp] theorem isRead_read (path : FilePath) : (read path).isRead = true := rfl

@[simp] theorem isRead_write (path : FilePath) (text : String) : (write path text).isRead = false :=
  rfl

@[simp] theorem write?_read (path : FilePath) : (read path).write? = none := rfl

@[simp] theorem write?_write (path : FilePath) (text : String) :
    (write path text).write? = some (path, text) := rfl

/-- Calls that are made one after another. What they come to are the answers to the reads. -/
def script {U : Type} : List Call → Dialogue U (List (Option U))
  | [] => pure []
  | read path :: calls => do
    let unit? ← .ask path
    let rest ← script calls
    return unit? :: rest
  | write path text :: calls => do
    .tell path text
    script calls

end Call

/-! ## Calls on any host -/

namespace Host

variable {U S : Type} (host : Host U S)

/-- What a host answers to the reads among some calls. -/
def answers (calls : List Call) (s : S) : List (Option U) := ((Call.script calls).run host s).1

/-- What some calls leave of the state of a host. -/
def after (calls : List Call) (s : S) : S := ((Call.script calls).run host s).2

/-- A host on which all calls are written down. -/
def recorded : Host U (S × List Call) where
  read path s := ((host.read path s.1).1, (host.read path s.1).2, s.2 ++ [.read path])
  write path text s := (host.write path text s.1, s.2 ++ [.write path text])

variable {host} (path : FilePath) (text : String) (calls more : List Call) (s : S)

@[simp] theorem read_recorded (record : List Call) : host.recorded.read path (s, record) =
    ((host.read path s).1, (host.read path s).2, record ++ [.read path]) := rfl

@[simp] theorem write_recorded (record : List Call) : host.recorded.write path text (s, record) =
    (host.write path text s, record ++ [.write path text]) := rfl

@[simp] theorem answers_nil : host.answers [] s = [] := rfl

@[simp] theorem after_nil : host.after [] s = s := rfl

@[simp] theorem answers_read : host.answers (.read path :: calls) s =
    (host.read path s).1 :: host.answers calls (host.read path s).2 := by
  simp only [answers, Call.script, Dialogue.run_bind, Dialogue.run_pure]
  rfl

@[simp] theorem after_read : host.after (.read path :: calls) s =
    host.after calls (host.read path s).2 := by
  simp only [after, Call.script, Dialogue.run_bind, Dialogue.run_pure]
  rfl

@[simp] theorem answers_write : host.answers (.write path text :: calls) s =
    host.answers calls (host.write path text s) := by
  simp only [answers, Call.script, Dialogue.run_bind]
  rfl

@[simp] theorem after_write : host.after (.write path text :: calls) s =
    host.after calls (host.write path text s) := by
  simp only [after, Call.script, Dialogue.run_bind]
  rfl

theorem after_append : host.after (calls ++ more) s = host.after more (host.after calls s) := by
  induction calls generalizing s with
  | nil => rfl
  | cons call calls ih => cases call <;> simp [ih]

theorem answers_append :
    host.answers (calls ++ more) s =
      host.answers calls s ++ host.answers more (host.after calls s) := by
  induction calls generalizing s with
  | nil => rfl
  | cons call calls ih => cases call <;> simp [ih]

theorem length_answers : (host.answers calls s).length = calls.countP Call.isRead := by
  induction calls generalizing s with
  | nil => rfl
  | cons call calls ih => cases call <;> simp [ih, List.countP_cons]

theorem getElem?_answers :
    (host.answers (calls ++ .read path :: more) s)[calls.countP Call.isRead]? =
      some (host.read path (host.after calls s)).1 := by
  rw [answers_append, List.getElem?_append_right (Nat.le_of_eq (length_answers calls s)),
    length_answers, Nat.sub_self, answers_read, List.getElem?_cons_zero]

theorem after_recorded (record : List Call) :
    host.recorded.after calls (s, record) = (host.after calls s, record ++ calls) := by
  induction calls generalizing s record with
  | nil => simp
  | cons call calls ih => cases call <;> simp [ih]

theorem answers_recorded (record : List Call) :
    host.recorded.answers calls (s, record) = host.answers calls s := by
  induction calls generalizing s record with
  | nil => rfl
  | cons call calls ih => cases call <;> simp [ih]

end Host

/-! ## Calls on an overlay -/

namespace Overlay

variable {U W : Type} (o : Overlay U)

/-- Whether a call is a read that is served again. -/
def reuses : Call → Bool
  | .read path => (o.served? path).isSome
  | .write .. => false

/-- Whether the host below gets to see a call. -/
def passes : Call → Bool
  | .read path => (o.served? path).isNone
  | .write .. => o.forwards

/-- The answers to some calls, when those of the host below are given. -/
def weave : List Call → List (Option U) → List (Option U)
  | [], _ => []
  | .write .. :: calls, replies => weave calls replies
  | .read path :: calls, replies =>
    match o.served? path with
    | some unit => some unit :: weave calls replies
    | none => replies.head?.join :: weave calls replies.tail

variable {o} {below : Host U W}

/-- **What some calls come to**: the host below has seen those that are passed on, all that is
written is captured, and what is served again is counted. -/
theorem after_host (calls : List Call) (c : Capture W) :
    (o.host below).after calls c =
      { world := below.after (calls.filter o.passes) c.world
        outputs := c.outputs.insertAll (calls.filterMap Call.write?)
        reused := c.reused + calls.countP o.reuses } := by
  induction calls generalizing c with
  | nil => rfl
  | cons call calls ih =>
    cases call with
    | read path =>
      rw [Host.after_read, ih]
      cases hserved : o.served? path with
      | some unit =>
        simp [read_of_served hserved, passes, reuses, hserved, List.filterMap_cons, Nat.add_assoc,
          Nat.add_comm]
      | none => simp [read_of_not_served hserved, passes, reuses, hserved, List.filterMap_cons]
    | write path text =>
      rw [Host.after_write, ih]
      cases hforwards : o.forwards <;>
        simp [host, passes, reuses, hforwards, PathMap.insertAll]

/-- **What some calls are answered**: the host below replies to the reads that are passed on. -/
theorem answers_host (calls : List Call) (c : Capture W) :
    (o.host below).answers calls c =
      o.weave calls (below.answers (calls.filter o.passes) c.world) := by
  induction calls generalizing c with
  | nil => rfl
  | cons call calls ih =>
    cases call with
    | read path =>
      rw [Host.answers_read, ih]
      cases hserved : o.served? path with
      | some unit => simp [read_of_served hserved, passes, weave, hserved]
      | none => simp [read_of_not_served hserved, passes, weave, hserved]
    | write path text =>
      rw [Host.answers_write, ih]
      cases hforwards : o.forwards <;> simp [host, passes, weave, hforwards]

theorem weave_reads (calls : List Call) (replies : List (Option U)) :
    o.weave (calls.filter Call.isRead) replies = o.weave calls replies := by
  induction calls generalizing replies with
  | nil => rfl
  | cons call calls ih =>
    cases call with
    | read path =>
      cases hserved : o.served? path <;> simp [List.filter_cons, weave, hserved, ih]
    | write path text => simp [weave, ih]

/-- The replies of the host below can be told from the answers. -/
theorem weave_inj {calls : List Call} {replies replies' : List (Option U)}
    (hlength : replies.length = (calls.filter o.passes).countP Call.isRead)
    (hlength' : replies'.length = (calls.filter o.passes).countP Call.isRead) :
    o.weave calls replies = o.weave calls replies' ↔ replies = replies' := by
  refine ⟨fun h ↦ ?_, congrArg _⟩
  induction calls generalizing replies replies' with
  | nil => rw [List.length_eq_zero_iff.1 hlength, List.length_eq_zero_iff.1 hlength']
  | cons call calls ih =>
    cases call with
    | write path text =>
      have hcount : ((Call.write path text :: calls).filter o.passes).countP Call.isRead =
          (calls.filter o.passes).countP Call.isRead := by
        cases hforwards : o.forwards <;> simp [passes, hforwards]
      exact ih (hlength.trans hcount) (hlength'.trans hcount) h
    | read path =>
      cases hserved : o.served? path with
      | some unit =>
        have hcount : ((Call.read path :: calls).filter o.passes).countP Call.isRead =
            (calls.filter o.passes).countP Call.isRead := by
          simp [passes, hserved]
        simp only [weave, hserved, List.cons.injEq, true_and] at h
        exact ih (hlength.trans hcount) (hlength'.trans hcount) h
      | none =>
        have hcount : ((Call.read path :: calls).filter o.passes).countP Call.isRead =
            (calls.filter o.passes).countP Call.isRead + 1 := by
          simp [passes, hserved, List.countP_cons]
        rw [hcount] at hlength hlength'
        obtain ⟨u, us, rfl⟩ := List.exists_cons_of_length_eq_add_one hlength
        obtain ⟨v, vs, rfl⟩ := List.exists_cons_of_length_eq_add_one hlength'
        simp only [weave, hserved, List.head?_cons, Option.join_some, List.tail_cons,
          List.cons.injEq] at h
        rw [h.1, ih (by simpa using hlength) (by simpa using hlength') h.2]

/-! ## What calls come to -/

/-- An overlay on a host that writes down the calls on it. -/
def traced (o : Overlay U) (below : Host U W) : Host U (Capture (W × List Call)) :=
  o.host below.recorded

/-- What an overlay keeps track of before any call, with what was captured before. -/
def untouched (w : W) (outputs : Outputs) : Capture (W × List Call) := ⟨(w, []), outputs, 0⟩

/-- What some calls on an overlay come to, when the calls on the host below are written down. -/
structure Serves (o : Overlay U) (below : Host U W) (w : W) (outputs : Outputs)
    (calls : List Call) : Prop where
  /-- A read that is served again gets that very unit, and the host below is not asked. -/
  served : ∀ (before after : List Call) (path : FilePath) (unit : U),
    calls = before ++ .read path :: after → o.served? path = some unit →
      ((o.traced below).answers calls (untouched w outputs))[before.countP Call.isRead]? =
          some (some unit) ∧
        ((o.traced below).after (before ++ [.read path]) (untouched w outputs)).world =
          ((o.traced below).after before (untouched w outputs)).world
  /-- Any other read is made once on the host below, under the same path, and gets its reply. -/
  asked : ∀ (before after : List Call) (path : FilePath),
    calls = before ++ .read path :: after → o.served? path = none →
      let (now, record) := ((o.traced below).after before (untouched w outputs)).world
      ((o.traced below).answers calls (untouched w outputs))[before.countP Call.isRead]? =
          some (below.read path now).1 ∧
        ((o.traced below).after (before ++ [.read path]) (untouched w outputs)).world =
          ((below.read path now).2, record ++ [.read path])
  reused : ((o.traced below).after calls (untouched w outputs)).reused = calls.countP o.reuses
  captured : ((o.traced below).after calls (untouched w outputs)).outputs =
    outputs.insertAll (calls.filterMap Call.write?)
  /-- All that the host below has seen, in order. -/
  record : ((o.traced below).after calls (untouched w outputs)).world.2 = calls.filter o.passes
  forwarded : ((o.traced below).after calls (untouched w outputs)).world.2.filterMap Call.write? =
    if o.forwards then calls.filterMap Call.write? else []
  /-- Without the writes all reads get the same, unless a write that is forwarded makes the host
  below reply differently to its own. -/
  writes_idle : (o.traced below).answers calls (untouched w outputs) =
      (o.traced below).answers (calls.filter Call.isRead) (untouched w outputs) ↔
    below.answers (calls.filter o.passes) w =
      below.answers ((calls.filter o.passes).filter Call.isRead) w
  writes_idle_of_not_forwards : o.forwards = false →
    (o.traced below).answers calls (untouched w outputs) =
      (o.traced below).answers (calls.filter Call.isRead) (untouched w outputs)

theorem filterMap_write?_passes (calls : List Call) :
    (calls.filter o.passes).filterMap Call.write? =
      if o.forwards then calls.filterMap Call.write? else [] := by
  induction calls with
  | nil => simp
  | cons call calls ih =>
    cases call with
    | read path =>
      cases hserved : o.served? path <;>
        simp [passes, hserved, List.filterMap_cons, ih]
    | write path text =>
      cases hforwards : o.forwards <;> simp [passes, hforwards] at ih ⊢ <;> exact ih

/-- Whether answers depend on writes is for the host below to say. -/
theorem answers_reads_iff (calls : List Call) (c : Capture W) :
    (o.host below).answers calls c = (o.host below).answers (calls.filter Call.isRead) c ↔
      below.answers (calls.filter o.passes) c.world =
        below.answers ((calls.filter o.passes).filter Call.isRead) c.world := by
  have hcomm : (calls.filter Call.isRead).filter o.passes =
      (calls.filter o.passes).filter Call.isRead := by
    rw [List.filter_filter, List.filter_filter]
    exact List.filter_congr fun call _ ↦ Bool.and_comm _ _
  rw [answers_host, answers_host, weave_reads, hcomm]
  refine weave_inj (Host.length_answers _ _) ?_
  rw [Host.length_answers, List.countP_filter]
  simp

theorem reads_of_passes (h : o.forwards = false) (calls : List Call) :
    (calls.filter o.passes).filter Call.isRead = calls.filter o.passes := by
  rw [List.filter_eq_self]
  intro call hcall
  cases call with
  | read path => rfl
  | write path text => simp [passes, h] at hcall

variable (o below) (w : W) (outputs : Outputs) (calls : List Call)

theorem record_traced : ((o.traced below).after calls (untouched w outputs)).world.2 =
    calls.filter o.passes := by
  rw [traced, after_host, untouched, Host.after_recorded, List.nil_append]

theorem writes_idle_iff : (o.traced below).answers calls (untouched w outputs) =
      (o.traced below).answers (calls.filter Call.isRead) (untouched w outputs) ↔
    below.answers (calls.filter o.passes) w =
      below.answers ((calls.filter o.passes).filter Call.isRead) w := by
  rw [traced, answers_reads_iff, untouched, Host.answers_recorded, Host.answers_recorded]

end Overlay

/-- A unit is served again for a path just if nobody asks for the path, however spelled, and the
program has the unit for it. -/
theorem Session.served?_overlay_eq_some_iff {W U P : Type} {backend : Backend W U P} {s : Session P}
    {program? : Option P} {forwards : Bool} {path : FilePath} {unit : U} :
    (s.overlay backend program? forwards).served? path = some unit ↔
      (∀ r ∈ s.queue.requests, r.target.source.components ≠ path.components) ∧
        program?.bind (fun program ↦ backend.find? program path) = some unit := by
  have hfresh : (s.overlay backend program? forwards).isFresh path = s.queue.asksFor path :=
    s.queue.any_sources path
  rw [Overlay.served?, hfresh]
  split
  next hasked =>
    obtain ⟨r, hr, hsame⟩ := Queue.asksFor_iff.1 hasked
    exact iff_of_false (by simp) fun h ↦ h.1 r hr (FilePath.same_iff.1 hsame)
  next hasked =>
    have hnobody : ∀ r ∈ s.queue.requests, r.target.source.components ≠ path.components :=
      fun r hr hsame ↦ hasked (Queue.asksFor_iff.2 ⟨r, hr, FilePath.same_iff.2 hsame⟩)
    exact (and_iff_right hnobody).symm

/-- **Calls on the host of a pass.** Take any requests, the program of the pass before or none, any
host below and any calls. A read of a path that nobody asks for and that the program has a unit for
gets this unit, and only such a read does; every other read is made once on the host below, which
sees nothing else but the writes if they are forwarded. All writes are captured, and none of them
has a part in the answers, unless the host below lets it have one. -/
theorem overlay_serves_calls {V W U P : Type} (backend : Backend W U P) (s : Session P)
    (program? : Option P) (forwards : Bool) (below : Host U V) (v : V) (outputs : Outputs)
    (calls : List Call) :
    let o := s.overlay backend program? forwards
    (∀ path unit, o.served? path = some unit ↔
      (∀ r ∈ s.queue.requests, r.target.source.components ≠ path.components) ∧
        program?.bind (fun program ↦ backend.find? program path) = some unit) ∧
      o.Serves below v outputs calls := by
  intro o
  refine ⟨fun _ _ ↦ Session.served?_overlay_eq_some_iff, ?_⟩
  exact
    { served := fun before after path unit hcalls hserved ↦ by
        rw [hcalls, Overlay.traced, Host.getElem?_answers, Host.after_append, Host.after_read,
          Host.after_nil, Overlay.read_of_served hserved]
        exact ⟨rfl, rfl⟩
      asked := fun before after path hcalls hserved ↦ by
        rw [hcalls, Overlay.traced, Host.getElem?_answers, Host.after_append, Host.after_read,
          Host.after_nil, Overlay.read_of_not_served hserved]
        exact ⟨rfl, rfl⟩
      reused := by rw [Overlay.traced, Overlay.after_host, Overlay.untouched, Nat.zero_add]
      captured := by rw [Overlay.traced, Overlay.after_host, Overlay.untouched]
      record := o.record_traced below v outputs calls
      forwarded := by rw [o.record_traced, Overlay.filterMap_write?_passes]
      writes_idle := o.writes_idle_iff below v outputs calls
      writes_idle_of_not_forwards := fun hforwards ↦ by
        rw [o.writes_idle_iff, Overlay.reads_of_passes hforwards] }

/-- A host that reads from a store what was last written to it. -/
def Sample.storing : Host String (PathMap String) where
  read path store := (store.get? path, store)
  write path text store := store.insert path text

/-- Such a host lets writes have a part: with no program and nobody waiting, a text that is
forwarded to it is read back in place of the one that was there. -/
theorem forwarded_write_read_back :
    let o : Overlay String := ⟨fun _ ↦ none, [], true⟩
    let path : FilePath := ⟨"/p/a.ts"⟩
    let before := Overlay.untouched (PathMap.empty.insert path "old") .empty
    let calls : List Call := [.read path, .write path "new", .read path]
    (o.traced Sample.storing).answers calls before = [some "old", some "new"] ∧
      (o.traced Sample.storing).answers (calls.filter Call.isRead) before =
        [some "old", some "old"] := by
  decide +kernel

end Coalesce
