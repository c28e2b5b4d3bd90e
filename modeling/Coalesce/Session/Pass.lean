import Coalesce.Delivery
import Coalesce.Diagnostic.Announce
import Coalesce.Session.Basic

/-!
# Passes

A pass builds the whole project once and answers everybody who waits. It goes through these stages
and may end after several of them:

* *refresh*: ask the project for changes, forget what a change has made stale, take its settings;
* *configure*: ask the project what it consists of; if it cannot say, everybody is told so;
* *build*: let the backend build the program, over the source units of the program before;
* *finish*: let it write its output, capture that, and answer the queue.

Before and after the build the diagnostics of the project and of the program are announced, and
either announcement may end the pass; then nobody is answered. However a pass ends, the queue is
empty behind it.
-/

namespace Coalesce

/-- What a successful pass did. -/
structure Summary where
  /-- The number of files of the project. -/
  files : Nat
  /-- The number of artifacts that were delivered. -/
  delivered : Nat
  /-- The number of source units that were served again. -/
  reused : Nat
  /-- Whether the program before was dropped. -/
  invalidated : Bool
deriving DecidableEq, Repr

/-- How a pass ended. -/
inductive Verdict where
  | finished (summary : Summary)
  | failed (failure : Failure)
  /-- The backend broke down. -/
  | crashed
deriving DecidableEq, Repr

/-- The end of a pass: what it leaves behind and what it did. -/
structure Pass (W U P : Type) where
  session : Session P
  world : W
  journal : Journal U
  /-- Whether the backend was called to build. -/
  built : Bool
  verdict : Verdict

namespace Pass

variable {W U P : Type}

/-- The same pass with something done before. -/
def after (journal : Journal U) (pass : Pass W U P) : Pass W U P :=
  { pass with journal := journal ++ pass.journal }

/-- A pass that ends without an answer to anybody. -/
def abandoned (s : Session P) (w : W) (built : Bool) (failure : Failure) : Pass W U P where
  session := s.withoutRequests
  world := w
  journal := [.trace ⟨"compile", "discarded " ++ Text.counted s.queue.length "request"⟩]
  built := built
  verdict := .failed failure

/-- A pass that ends with one failure for everybody. -/
def refused (s : Session P) (w : W) (failure : Failure) : Pass W U P where
  session := s.withoutRequests
  world := w
  journal := .error failure.message :: Delivery.refusals s.queue.requests failure
  built := false
  verdict := .failed failure

end Pass

namespace Session

variable {W U P : Type}

/-- What a session and its world are after the project was asked for changes. -/
structure Refreshed (W P : Type) where
  session : Session P
  world : W
  /-- Whether a program was dropped. -/
  invalidated : Bool
  traces : List Trace

/-- Asks the project for changes. A change makes program and host stale. -/
def refresh (project : Project W) (s : Session P) (w : W) : Refreshed W P :=
  let (change, traces, w) := project.poll w
  let invalidated := change.isChange && s.program?.isSome
  { session := { s with
      program? := if change.isChange then none else s.program?
      host? := if change.isChange then none else s.host?
      batch := if s.followsProject then followed project w s.batch else s.batch }
    world := w
    invalidated := invalidated
    traces := traces ++
      if invalidated then [⟨"cache", "file system changed, dropped cached program"⟩] else [] }

/-- The host of a session, which is opened if there is none. -/
def opened (backend : Backend W U P) (options : BuildOptions) (s : Session P) (w : W) :
    HostId × W :=
  match s.host? with
  | some host => (host, w)
  | none => backend.openHost options w

/-- The overlay of a pass, over the source units of the given program. -/
def overlay (backend : Backend W U P) (s : Session P) (program? : Option P) (forwards : Bool) :
    Overlay U where
  cached? path := program?.bind fun program => backend.find? program path
  fresh := s.queue.sources
  forwards := forwards

/-- The message at the end of a build. Sessions have no clock: `#` stands where a log shows the
time. -/
def buildMessage (files : Nat) : String := "compiled " ++ Text.counted files "file" ++ " in # ms"

/-- Ends a pass whose program is built and in place: announces what is wrong with the program, lets
the backend write its output and answers the queue. -/
def finish (backend : Backend W U P) (config : Configuration) (host : HostId) (program : P)
    (reused : Nat) (invalidated : Bool) (s : Session P) (w : W) : Pass W U P :=
  match Diagnostic.announce s.root config.options (backend.diagnostics program w) with
  | (lines, some failure) => (Pass.abandoned s w true failure).after lines
  | (lines, none) =>
    let layer := s.overlay backend (some program) s.batch.writeToDisk
    let (isWhole, c) :=
      (backend.emit program).run (layer.host (backend.host host)) ⟨w, s.outputs, 0⟩
    let left := { s.withoutRequests with outputs := c.outputs }
    if isWhole then
      let (answers, result) := backend.deliver program c.outputs s.batch s.queue.requests
      let (closing, verdict) : Journal U × Verdict :=
        match result with
        | .ok delivered => ([], .finished ⟨config.files.length, delivered, reused, invalidated⟩)
        | .error missing =>
          let failure := Failure.unknownSource missing
          ([.error failure.message], .failed failure)
      { session := left
        world := c.world
        journal := lines ++ [.info (buildMessage config.files.length)] ++ answers ++ closing
        built := true
        verdict := verdict }
    else ⟨left, c.world, lines, true, .crashed⟩

/-- Lets the backend build the program of a configuration and goes on with it. -/
def build (backend : Backend W U P) (config : Configuration) (host : HostId) (invalidated : Bool)
    (s : Session P) (w : W) : Pass W U P :=
  match backend.build config.files config.options w with
  | (none, w) => ⟨s.withoutRequests, w, [], true, .crashed⟩
  | (some dialogue, w) =>
    let layer := s.overlay backend s.program? false
    let (program, c) := dialogue.run (layer.host (backend.host host)) ⟨w, s.outputs, 0⟩
    let note := Text.counted c.reused "source unit" ++ " reused, " ++
      Text.counted s.queue.sources.length "file" ++ " queued"
    let s := { s with program? := some program, outputs := c.outputs }
    (finish backend config host program c.reused invalidated s c.world).after
      [.trace ⟨"cache", note⟩]

/-- Announces what is wrong with a configuration and goes on to the build. -/
def configured (backend : Backend W U P) (config : Configuration) (invalidated : Bool)
    (s : Session P) (w : W) : Pass W U P :=
  let (host, w) := s.opened backend config.options w
  let s := { s with host? := some host }
  match Diagnostic.announce s.root config.options config.errors with
  | (lines, some failure) => (Pass.abandoned s w false failure).after lines
  | (lines, none) => (build backend config host invalidated s w).after lines

/-- One pass over the project. -/
def pass (backend : Backend W U P) (project : Project W) (s : Session P) (w : W) : Pass W U P :=
  let r := s.refresh project w
  let greeting := "compiling project using " ++ backend.name ++ " " ++ backend.version
  let opening : Journal U := .info greeting :: r.traces.map .trace
  match project.configuration r.world with
  | .error cause => (Pass.refused r.session r.world (.unavailable cause)).after opening
  | .ok config => (r.session.configured backend config r.invalidated r.world).after opening

end Session

end Coalesce
