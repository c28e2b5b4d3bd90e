import Coalesce.ManifestProject

/-!
# When a project looks

All that a project on the file system says of its configuration, its settings and its shape it has
from the last time it looked there (`ManifestProject.Shows`). It looks when it is opened, when it is
asked for the first time, and whenever it is asked after something that matters was reported, which
without a watcher is always. In between events only pile up, and a poll without a reason to look
clears them away (`ManifestProject.poll_of_not_looks`).

A life of a project is a list of *visits*: an event is reported, or that watching has failed, or the
project is asked and the file system is in some state then. Which of these states was the last one
that the project has looked at can be read off the visits (`ManifestProject.lastSeen`).
-/

namespace Coalesce.ManifestProject

variable {p : ManifestProject} {fs : FileSystem} {hash : Hash}

/-! ## One poll -/

/-- Whether a project looks at the file system when it is asked. -/
def looks (p : ManifestProject) : Bool := !p.wasAsked || p.hasNews

/-- The project with nothing reported. -/
def cleared (p : ManifestProject) : ManifestProject :=
  { p with watcher? := p.watcher?.map Watcher.cleared }

/-- What a project says is what is found in a file system. -/
def Shows (p : ManifestProject) (fs : FileSystem) : Prop := (p.look fs).1 = p

theorem shows_look (p : ManifestProject) (fs : FileSystem) : (p.look fs).1.Shows fs := rfl

theorem Shows.cleared (h : p.Shows fs) : p.cleared.Shows fs := by
  have hcleared : (p.cleared.look fs).1 = (p.look fs).1.cleared := rfl
  rw [Shows, hcleared, show (p.look fs).1 = p from h]

theorem Shows.notify (h : p.Shows fs) (event : FileEvent) : (p.notify event).Shows fs := by
  have hnotify : ((p.notify event).look fs).1 = (p.look fs).1.notify event := rfl
  rw [Shows, hnotify, show (p.look fs).1 = p from h]

theorem Shows.receive (h : p.Shows fs) (report : Report) : (p.receive report).Shows fs := by
  have hreceive : ((p.receive report).look fs).1 = (p.look fs).1.receive report := rfl
  rw [Shows, hreceive, show (p.look fs).1 = p from h]

theorem not_looks (p : ManifestProject) : (!p.looks) = (p.wasAsked && !p.hasNews) := by
  rw [looks, Bool.not_or, Bool.not_not]

theorem complaints_eq_nil (h : p.hasNews = false) : p.complaints = [] := by
  rw [complaints]
  cases hwatch : p.watcher? with
  | none => rfl
  | some w =>
    rw [hasNews, hwatch] at h
    refine List.filterMap_eq_nil_iff.2 fun report hreport ↦ ?_
    have hmatters := List.any_eq_false.1 h report hreport
    cases report with
    | event event => rfl
    | failure message => exact absurd rfl hmatters

/-- Without a reason to look nothing changes but that the reports are gone. -/
theorem poll_of_not_looks (h : p.looks = false) : p.poll fs = (.unchanged, [], p.cleared) := by
  have hquiet : (p.wasAsked && !p.hasNews) = true := by rw [← not_looks, h, Bool.not_false]
  have hnews : p.hasNews = false := by
    rw [Bool.and_eq_true, Bool.not_eq_true'] at hquiet
    exact hquiet.2
  rw [poll, if_pos hquiet, complaints_eq_nil hnews]
  rfl

/-- With a reason to look the project shows what it finds then. It reports a change unless it was
asked before and its shape is the one that it had. It writes about the failures of its watcher and
then about what it does, and nobody needs to see the latter. -/
theorem poll_of_looks (fs : FileSystem) (h : p.looks = true) :
    ∃ lines, p.poll fs =
        (if p.wasAsked = true ∧ (p.look fs).1.fingerprint = p.fingerprint then .unchanged
          else .changed,
          p.complaints ++ lines, { (p.look fs).1.cleared with wasAsked := true }) ∧
      lines ≠ [] ∧ ∀ line ∈ lines, line.topic.isLoud = false := by
  have hreason : ¬(p.wasAsked && !p.hasNews) = true := by rw [← not_looks, h]; decide
  have hprint : (p.cleared.look fs).1.fingerprint = (p.look fs).1.fingerprint := rfl
  have hsaid : ∀ line ∈ [(p.cleared.look fs).2], line.topic.isLoud = false :=
    List.forall_mem_singleton.2 rfl
  rw [poll, if_neg hreason]
  cases p.wasAsked with
  | false => exact ⟨_, rfl, List.cons_ne_nil _ _, hsaid⟩
  | true =>
    by_cases hsame : (p.look fs).1.fingerprint = p.fingerprint
    · exact ⟨_, (if_pos (hprint.trans hsame)).trans (by rw [if_pos ⟨rfl, hsame⟩]; rfl),
        List.cons_ne_nil _ _, hsaid⟩
    · refine ⟨_, (if_neg fun heq ↦ hsame (hprint.symm.trans heq)).trans
        (by rw [if_neg fun heq ↦ hsame heq.2, List.append_assoc]; rfl),
        List.append_ne_nil_of_left_ne_nil (List.cons_ne_nil _ _) _, fun line hline ↦ ?_⟩
      rcases List.mem_append.1 hline with hline | hline
      · exact hsaid line hline
      · obtain rfl := List.mem_singleton.1 hline
        rfl

/-! ## Lives of a project -/

/-- What a project goes through: an event is reported to it, or that watching has failed, or it is
asked whether it has changed, with the file system in some state. -/
inductive Visit where
  | event (event : FileEvent)
  | failure (message : String)
  | poll (fs : FileSystem)

/-- A project behind a visit. -/
def visit (p : ManifestProject) : Visit → ManifestProject
  | .event event => p.notify event
  | .failure message => p.receive (.failure message)
  | .poll fs => (p.poll fs).2.2

/-- A project behind a list of visits. -/
def live (p : ManifestProject) (visits : List Visit) : ManifestProject := visits.foldl visit p

/-- The state of the file system at the last look of a project behind a list of visits, given that
of the last look before them. -/
def lastSeen (seen : FileSystem) (p : ManifestProject) : List Visit → FileSystem
  | [] => seen
  | .event event :: rest => lastSeen seen (p.notify event) rest
  | .failure message :: rest => lastSeen seen (p.receive (.failure message)) rest
  | .poll fs :: rest => lastSeen (if p.looks then fs else seen) (p.poll fs).2.2 rest

theorem Shows.poll {seen : FileSystem} (h : p.Shows seen) :
    (p.poll fs).2.2.Shows (if p.looks then fs else seen) := by
  cases hlooks : p.looks with
  | false =>
    rw [poll_of_not_looks hlooks]
    exact h.cleared
  | true =>
    obtain ⟨lines, hpoll, -⟩ := poll_of_looks fs hlooks
    rw [hpoll]
    rfl

/-- **A project shows what it has seen at its last look.** -/
theorem Shows.live {seen : FileSystem} (h : p.Shows seen) (visits : List Visit) :
    (p.live visits).Shows (lastSeen seen p visits) := by
  induction visits generalizing p seen with
  | nil => exact h
  | cons first rest ih =>
    cases first with
    | event event => exact ih (h.notify event)
    | failure message => exact ih (h.receive (.failure message))
    | poll fs => exact ih h.poll

theorem hash_live (p : ManifestProject) (visits : List Visit) : (p.live visits).hash = p.hash := by
  induction visits generalizing p with
  | nil => rfl
  | cons first rest ih =>
    have hfirst : (p.visit first).hash = p.hash := by
      cases first with
      | event event => rfl
      | failure message => rfl
      | poll fs =>
        cases hlooks : p.looks with
        | false => rw [visit, poll_of_not_looks hlooks]; rfl
        | true =>
          obtain ⟨lines, hpoll, -⟩ := poll_of_looks fs hlooks
          rw [visit, hpoll]
          rfl
    exact (ih (p.visit first)).trans hfirst

theorem exists_look_of_ofManifest {path : FilePath} {line : Trace}
    (h : ofManifest fs path hash = .ok (p, line)) : ∃ watcher?,
      (unseen (fs.normalize path) ((fs.normalize path).parent?.getD .empty) hash
        watcher?).look fs = (p, line) := by
  rw [ofManifest] at h
  split at h
  next =>
    split at h
    next => exact ⟨_, Except.ok.inj h⟩
    next => cases h
  next => exact ⟨_, Except.ok.inj h⟩

theorem of_ofManifest {path : FilePath} {line : Trace}
    (h : ofManifest fs path hash = .ok (p, line)) :
    p.Shows fs ∧ p.wasAsked = false := by
  obtain ⟨watcher?, hlook⟩ := exists_look_of_ofManifest h
  cases hlook
  exact ⟨shows_look _ _, rfl⟩

theorem ofManifest_of_not_watched (fs : FileSystem) (path : FilePath) (hash : Hash)
    (h : (readManifest fs (fs.normalize path)).1.sources.watch = false) :
    ofManifest fs path hash = .ok
      ((unseen (fs.normalize path) ((fs.normalize path).parent?.getD .empty) hash
        none).look fs) := by
  rw [ofManifest, h]
  rfl

theorem ofManifest_of_watched (fs : FileSystem) (path : FilePath) (hash : Hash) (place : Place)
    (h : (readManifest fs (fs.normalize path)).1.sources.watch = true)
    (hplace :
      (fs.find ((fs.normalize path).parent?.getD .empty)).toOption.map Prod.fst = some place) :
    ofManifest fs path hash = .ok
      ((unseen (fs.normalize path) ((fs.normalize path).parent?.getD .empty) hash
        (some (.create (FileSystem.pathOf place)))).look fs) := by
  rw [ofManifest, h, if_pos rfl]
  cases hfind : fs.find ((fs.normalize path).parent?.getD .empty) with
  | error refusal =>
    rw [hfind] at hplace
    cases hplace
  | ok found =>
    rw [hfind] at hplace
    obtain rfl := Option.some_inj.1 hplace
    rfl

end Coalesce.ManifestProject

namespace Coalesce.Sample

/-- A file system with a manifest in the directory `/p` and something beside it. -/
def disk (manifest : String) (beside : List (String × FileTree)) : FileSystem where
  tree := .directory [("p", .directory (("batchc.toml", .file manifest.toUTF8) :: beside))]
  current := ⟨"/"⟩

/-- Where the manifest of such a file system is. -/
def manifest : FilePath := ⟨"/p/batchc.toml"⟩

end Coalesce.Sample
