import Coalesce.Proofs.Looks
import Mathlib.Data.List.DropRight

/-!
# Irrelevant events are invisible

Reports arrive at the watcher of a project and wait there until somebody asks the project: events,
and failures of the watcher, which always matter. Of those that wait a poll reads which failures
there are and whether any report matters, and afterwards none waits. So a project among whose
waiting reports only those are kept that matter (`ManifestProject.heedful`) is asked with the same
result, and it goes on the same way (`Site.heedful_occur`). As a project that was just opened has
nothing waiting, a life of it can be told without the events that do not matter
(`Site.learnt_heedful`).

What one poll does is read off the past of the site: whether there was a poll before, what has
arrived since the last one, and which shapes were found so far (`Site.Heeds`).
-/

namespace Coalesce

/-! ## Arrivals -/

/-- The events that no project cares about: those of a kind that cannot matter, and those about
temporary files only, or about none. -/
theorem FileEvent.not_matters_iff (event : FileEvent) : event.matters = false ↔
    (event.kind = .unspecified ∨ event.kind = .accessed ∨ event.kind = .modified .metadata ∨
      event.kind = .other) ∨ ∀ path ∈ event.paths, path.isTemporary = true := by
  have hkind : event.kind.matters = false ↔ event.kind = .unspecified ∨ event.kind = .accessed ∨
      event.kind = .modified .metadata ∨ event.kind = .other := by
    cases event.kind with
    | modified what => cases what <;> decide
    | _ => decide
  have hpaths : (event.paths.any fun path ↦ !path.isTemporary) = false ↔
      ∀ path ∈ event.paths, path.isTemporary = true := by simp
  rw [matters, Bool.and_eq_false_iff, hkind, hpaths]

namespace ManifestProject

variable {p : ManifestProject} {fs : FileSystem} {hash : Hash}

/-- The reports that wait at a project. -/
def pending (p : ManifestProject) : List Report := (p.watcher?.map Watcher.pending).getD []

/-- The project with those of the waiting reports that matter. -/
def heedful (p : ManifestProject) : ManifestProject :=
  { p with
    watcher? := p.watcher?.map fun w ↦ { w with pending := w.pending.filter Report.matters } }

@[simp] theorem configuration_heedful (p : ManifestProject) :
    p.heedful.configuration = p.configuration := rfl

@[simp] theorem batch_heedful (p : ManifestProject) : p.heedful.batch = p.batch := rfl

theorem hasNews_eq (p : ManifestProject) :
    p.hasNews = (p.watcher?.isNone || p.pending.any Report.matters) := by
  rw [hasNews, pending]
  cases p.watcher? with
  | none => rfl
  | some w => rfl

theorem pending_cleared (p : ManifestProject) : p.cleared.pending = [] := by
  rw [cleared, pending]
  cases p.watcher? with
  | none => rfl
  | some w => rfl

theorem complaints_eq (p : ManifestProject) : p.complaints = p.pending.filterMap Report.line? := by
  rw [complaints, pending]
  cases p.watcher? with
  | none => rfl
  | some w => rfl

theorem pending_receive (hwatch : p.watcher? ≠ none) (report : Report) :
    (p.receive report).pending = p.pending ++ [report] := by
  obtain ⟨w, hw⟩ := Option.ne_none_iff_exists'.1 hwatch
  rw [receive, pending, pending, hw]
  rfl

/-! ### One poll -/

/-- The fingerprint of the shape that a project would find now. -/
def fingerprintNow (p : ManifestProject) (fs : FileSystem) : List UInt8 := (p.look fs).1.fingerprint

theorem looks_heedful (p : ManifestProject) : p.heedful.looks = p.looks := by
  rw [looks, looks, hasNews, hasNews, heedful]
  cases p.watcher? with
  | none => rfl
  | some w => simp [Watcher.hasNews]

theorem cleared_heedful (p : ManifestProject) : p.heedful.cleared = p.cleared := by
  rw [cleared, cleared, heedful]
  cases p.watcher? <;> rfl

theorem complaints_heedful (p : ManifestProject) : p.heedful.complaints = p.complaints := by
  have hline (report : Report) :
      (if report.matters then report.line? else none) = report.line? := by
    cases report with
    | event event => exact ite_self none
    | failure message => rfl
  rw [complaints, complaints, heedful]
  cases p.watcher? with
  | none => rfl
  | some w =>
    rw [Option.map_some, Option.elim_some, Option.elim_some, Watcher.complaints, Watcher.complaints,
      List.filterMap_filter]
    exact congrArg (w.pending.filterMap ·) (funext hline)

/-- **A poll reads of the waiting reports nothing but those that matter.** -/
theorem poll_heedful (fs : FileSystem) (p : ManifestProject) : p.heedful.poll fs = p.poll fs := by
  have hcleared : ({ p.heedful with watcher? := p.heedful.watcher?.map Watcher.cleared }) =
      ({ p with watcher? := p.watcher?.map Watcher.cleared } : ManifestProject) :=
    p.cleared_heedful
  have hlooks : (p.heedful.wasAsked && !p.heedful.hasNews) = (p.wasAsked && !p.hasNews) := by
    rw [← not_looks, ← not_looks, looks_heedful]
  rw [poll, poll, hcleared, hlooks, complaints_heedful]
  rfl

theorem isEmpty_trace_poll (fs : FileSystem) (p : ManifestProject) :
    (p.poll fs).2.1.isEmpty = !p.looks := by
  cases hlooks : p.looks with
  | false =>
    rw [poll_of_not_looks hlooks]
    rfl
  | true =>
    obtain ⟨lines, hpoll, hlines, -⟩ := poll_of_looks fs hlooks
    rw [hpoll]
    exact List.isEmpty_eq_false_iff.2 (List.append_ne_nil_of_right_ne_nil _ hlines)

/-- The lines of a poll that are not held back are those about the failures of the watcher. -/
theorem loud_poll (fs : FileSystem) (p : ManifestProject) :
    (p.poll fs).2.1.filter (fun line ↦ line.topic.isLoud) = p.complaints := by
  have hloud : p.complaints.filter (fun line ↦ line.topic.isLoud) = p.complaints := by
    refine List.filter_eq_self.2 fun line hline ↦ ?_
    rw [complaints_eq, List.mem_filterMap] at hline
    obtain ⟨report, -, hreport⟩ := hline
    cases report with
    | event event => cases hreport
    | failure message =>
      cases hreport
      rfl
  cases hlooks : p.looks with
  | false =>
    have hcomplaints : p.complaints = [] := by
      rw [looks, Bool.or_eq_false_iff] at hlooks
      exact complaints_eq_nil hlooks.2
    rw [poll_of_not_looks hlooks, hcomplaints]
    rfl
  | true =>
    obtain ⟨lines, hpoll, -, hquiet⟩ := poll_of_looks fs hlooks
    have hnone : lines.filter (fun line ↦ line.topic.isLoud) = [] :=
      List.filter_eq_nil_iff.2 fun line hline ↦ by simp [hquiet line hline]
    rw [hpoll]
    simp only [List.filter_append, hloud, hnone, List.append_nil]

theorem pending_poll (fs : FileSystem) (p : ManifestProject) : (p.poll fs).2.2.pending = [] := by
  cases hlooks : p.looks with
  | false =>
    rw [poll_of_not_looks hlooks]
    exact p.pending_cleared
  | true =>
    obtain ⟨lines, hpoll, -⟩ := poll_of_looks fs hlooks
    rw [hpoll]
    exact (p.look fs).1.pending_cleared

theorem wasAsked_poll (fs : FileSystem) (p : ManifestProject) :
    (p.poll fs).2.2.wasAsked = true := by
  cases hlooks : p.looks with
  | false =>
    rw [looks, Bool.or_eq_false_iff, Bool.not_eq_false'] at hlooks
    rw [poll_of_not_looks (by rw [looks, hlooks.1, hlooks.2]; rfl)]
    exact hlooks.1
  | true =>
    obtain ⟨lines, hpoll, -⟩ := poll_of_looks fs hlooks
    rw [hpoll]

theorem fingerprint_poll (fs : FileSystem) (p : ManifestProject) :
    (p.poll fs).2.2.fingerprint = if p.looks then p.fingerprintNow fs else p.fingerprint := by
  cases hlooks : p.looks with
  | false =>
    rw [poll_of_not_looks hlooks]
    rfl
  | true =>
    obtain ⟨lines, hpoll, -⟩ := poll_of_looks fs hlooks
    rw [hpoll]
    rfl

theorem isNone_watcher?_poll (fs : FileSystem) (p : ManifestProject) :
    (p.poll fs).2.2.watcher?.isNone = p.watcher?.isNone := by
  have hcleared : p.cleared.watcher?.isNone = p.watcher?.isNone := Option.isNone_map
  cases hlooks : p.looks with
  | false =>
    rw [poll_of_not_looks hlooks]
    exact hcleared
  | true =>
    obtain ⟨lines, hpoll, -⟩ := poll_of_looks fs hlooks
    rw [hpoll]
    exact hcleared

theorem heedful_receive (p : ManifestProject) (report : Report) :
    (p.receive report).heedful =
      if report.matters then p.heedful.receive report else p.heedful := by
  rw [receive, heedful, heedful, receive]
  cases p.watcher? with
  | none => split <;> rfl
  | some w => cases h : report.matters <;> simp [Watcher.receive, h]

theorem heedful_of_pending (h : p.pending = []) : p.heedful = p := by
  obtain ⟨manifest, root, hash, watcher?, configuration, batch, fingerprint, wasAsked⟩ := p
  cases watcher? with
  | none => rfl
  | some w =>
    obtain ⟨root?, waiting⟩ := w
    obtain rfl : waiting = [] := h
    rfl

theorem pending_of_ofManifest {path : FilePath} {line : Trace}
    (h : ofManifest fs path hash = .ok (p, line)) : p.pending = [] := by
  rw [ofManifest] at h
  split at h
  next =>
    split at h
    next =>
      cases h
      rfl
    next => cases h
  next =>
    cases h
    rfl

end ManifestProject

/-! ## Lives of a site -/

namespace Site

/-- What happens at a site: files are changed in some way, a report arrives, or the project is asked
whether it has changed. -/
inductive Occurrence where
  | change (files : FileSystem)
  | arrival (report : Report)
  | poll

namespace Occurrence

def isPoll : Occurrence → Bool
  | change _ | arrival _ => false
  | poll => true

/-- The report that arrives. -/
def report? : Occurrence → Option Report
  | arrival report => some report
  | change _ | poll => none

/-- Whether something arrives that does not matter. -/
def isNoise : Occurrence → Bool
  | arrival report => !report.matters
  | change _ | poll => false

/-- The line that is written about an occurrence when the project is asked. -/
def complaint? (o : Occurrence) : Option Trace := o.report?.bind Report.line?

theorem not_isPoll_of_isNoise {o : Occurrence} (h : o.isNoise = true) : o.isPoll = false := by
  cases o with
  | change files => rfl
  | arrival report => rfl
  | poll => cases h

end Occurrence

/-- A site behind something that happens. -/
def occur (s : Site) : Occurrence → Site
  | .change files => { s with files }
  | .arrival report => { s with home := s.home.receive report }
  | .poll => (project.poll s).2.2

/-- A site behind some past. -/
def behind (s : Site) (past : List Occurrence) : Site := past.foldl occur s

/-- What is learnt at every poll: whether the project has changed, what the poll traces, and the
configuration and settings behind it. -/
def learnt (s : Site) : List Occurrence → List (Change × List Trace × Configuration × BatchSettings)
  | [] => []
  | o :: rest =>
    let told := project.poll s
    let replies := learnt (s.occur o) rest
    if o.isPoll then
      (told.1, told.2.1, told.2.2.home.configuration, told.2.2.home.batch) :: replies
    else replies

/-- Whether the project of a site looks at the files when it is asked, which it says in its
trace. -/
def rescans (s : Site) : Bool := !(project.poll s).2.1.isEmpty

/-- The fingerprints of the shapes that are found in some past, in order. -/
def fingerprints (s : Site) : List Occurrence → List (List UInt8)
  | [] => []
  | o :: rest =>
    (if o.isPoll && s.rescans then [s.home.fingerprintNow s.files] else []) ++
      fingerprints (s.occur o) rest

/-- A site with those of the waiting reports that matter. -/
def heedful (s : Site) : Site := { s with home := s.home.heedful }

variable {s : Site} {past : List Occurrence}

/-! ### Without noise -/

theorem poll_heedful (s : Site) : project.poll s.heedful = project.poll s := by
  have hpoll := s.home.poll_heedful s.files
  simp only [project, heedful, hpoll]

/-- **Noise makes no difference**, and all else happens as it would without noise before it. -/
theorem heedful_occur (s : Site) (o : Occurrence) :
    (s.occur o).heedful = if o.isNoise then s.heedful else s.heedful.occur o := by
  cases o with
  | change files => rfl
  | arrival report =>
    have hreceive := s.home.heedful_receive report
    rw [occur, heedful, hreceive, Occurrence.isNoise]
    cases report.matters <;> rfl
  | poll =>
    have hidle : (project.poll s).2.2.heedful = (project.poll s).2.2 := by
      have hhome := ManifestProject.heedful_of_pending (ManifestProject.pending_poll s.files s.home)
      rw [heedful]
      simp only [project, hhome]
    rw [occur, hidle, Occurrence.isNoise, if_neg Bool.false_ne_true, occur, poll_heedful]

/-- The occurrences without the arrivals of events that do not matter. -/
def noiseless (past : List Occurrence) : List Occurrence := past.filter fun o ↦ !o.isNoise

theorem heedful_behind (s : Site) (past : List Occurrence) :
    (s.behind past).heedful = s.heedful.behind (noiseless past) := by
  induction past generalizing s with
  | nil => rfl
  | cons o rest ih =>
    have hstep := (ih (s.occur o)).trans (by rw [heedful_occur])
    rw [noiseless, List.filter_cons]
    cases hnoise : o.isNoise with
    | true =>
      rw [hnoise, if_pos rfl] at hstep
      exact hstep
    | false =>
      rw [hnoise, if_neg Bool.false_ne_true] at hstep
      exact hstep

/-- What is learnt can be told without noise. -/
theorem learnt_heedful (s : Site) (past : List Occurrence) :
    s.learnt past = s.heedful.learnt (noiseless past) := by
  induction past generalizing s with
  | nil => rfl
  | cons o rest ih =>
    have hrest := (ih (s.occur o)).trans (by rw [heedful_occur])
    rw [noiseless, List.filter_cons, learnt, hrest]
    cases hnoise : o.isNoise with
    | true =>
      rw [Occurrence.not_isPoll_of_isNoise hnoise]
      rfl
    | false =>
      rw [Bool.not_false, if_pos rfl, learnt, poll_heedful]
      rfl

/-! ### The past -/

/-- What has happened since the last poll. -/
def sincePoll (past : List Occurrence) : List Occurrence := past.rtakeWhile fun o ↦ !o.isPoll

theorem behind_concat (s : Site) (past : List Occurrence) (o : Occurrence) :
    s.behind (past ++ [o]) = (s.behind past).occur o := List.foldl_concat ..

theorem isNone_watcher?_behind (s : Site) (past : List Occurrence) :
    (s.behind past).home.watcher?.isNone = s.home.watcher?.isNone := by
  induction past using List.reverseRecOn with
  | nil => rfl
  | append_singleton past o ih =>
    rw [behind_concat, ← ih]
    cases o with
    | change files => rfl
    | arrival report => exact Option.isNone_map
    | poll => exact ManifestProject.isNone_watcher?_poll _ _

theorem wasAsked_behind (s : Site) (past : List Occurrence) :
    (s.behind past).home.wasAsked = (s.home.wasAsked || past.any Occurrence.isPoll) := by
  induction past using List.reverseRecOn with
  | nil => exact (Bool.or_false _).symm
  | append_singleton past o ih =>
    rw [behind_concat, List.any_append, List.any_cons, List.any_nil, Bool.or_false, ← Bool.or_assoc,
      ← ih]
    cases o with
    | change files => exact (Bool.or_false _).symm
    | arrival report => exact (Bool.or_false _).symm
    | poll =>
      rw [occur, Occurrence.isPoll, Bool.or_true]
      exact ManifestProject.wasAsked_poll _ _

/-- At a project with a watcher those reports wait that have arrived since the last poll. -/
theorem pending_behind (hwatch : s.home.watcher? ≠ none) (hpending : s.home.pending = [])
    (past : List Occurrence) :
    (s.behind past).home.pending = (sincePoll past).filterMap Occurrence.report? := by
  induction past using List.reverseRecOn with
  | nil => exact hpending
  | append_singleton past o ih =>
    have hsince : sincePoll (past ++ [o]) = if o.isPoll then [] else sincePoll past ++ [o] := by
      rw [sincePoll, List.rtakeWhile_concat]
      cases o.isPoll <;> rfl
    rw [behind_concat, hsince]
    cases o with
    | change files =>
      rw [Occurrence.isPoll, if_neg Bool.false_ne_true, List.filterMap_append, ← ih]
      exact (List.append_nil _).symm
    | arrival report =>
      have hwatch' : (s.behind past).home.watcher? ≠ none := by
        rw [← Option.isSome_iff_ne_none, ← Option.isNone_eq_false_iff, isNone_watcher?_behind,
          Option.isNone_eq_false_iff, Option.isSome_iff_ne_none]
        exact hwatch
      have hreceive := ManifestProject.pending_receive hwatch' report
      rw [occur, hreceive, Occurrence.isPoll, if_neg Bool.false_ne_true, List.filterMap_append, ih]
      rfl
    | poll =>
      have hnone := ManifestProject.pending_poll (s.behind past).files (s.behind past).home
      rw [occur, Occurrence.isPoll, if_pos rfl]
      simp only [project, hnone]
      rfl

theorem rescans_eq (s : Site) : s.rescans = s.home.looks := by
  have htrace := s.home.isEmpty_trace_poll s.files
  rw [rescans]
  simp only [project, htrace, Bool.not_not]

/-- What a project remembers of its shape is of the last one that it has found. -/
theorem fingerprint_behind (s : Site) (past : List Occurrence) :
    (s.behind past).home.fingerprint = (s.fingerprints past).getLastD s.home.fingerprint := by
  induction past generalizing s with
  | nil => rfl
  | cons o rest ih =>
    have hstep : (s.occur o).home.fingerprint =
        if o.isPoll && s.rescans then s.home.fingerprintNow s.files else s.home.fingerprint := by
      cases o with
      | change files => rfl
      | arrival report => rfl
      | poll =>
        rw [rescans_eq, Occurrence.isPoll, Bool.true_and]
        exact s.home.fingerprint_poll s.files
    have hrest : (s.behind (o :: rest)).home.fingerprint = _ := ih (s.occur o)
    rw [hrest, hstep, fingerprints]
    split
    next => rw [List.singleton_append, List.getLastD_cons]
    next => rw [List.nil_append]

/-- What a poll does, told by what has happened before it. -/
structure Heeds (start : Site) (past : List Occurrence) : Prop where
  /-- It rescans if it is the first one, or if since the last poll an event has arrived that matters
  or watching has failed. A project without a watcher always rescans. -/
  rescans_iff : (start.behind past).rescans = true ↔
    (∀ o ∈ past, o.isPoll = false) ∨
      (∃ event, .arrival (.event event) ∈ sincePoll past ∧ event.matters = true) ∨
      (∃ message, .arrival (.failure message) ∈ sincePoll past) ∨
      start.home.watcher? = none
  /-- So where watching never fails only events make it rescan. -/
  rescans_iff_of_events : (∀ message, .arrival (.failure message) ∉ past) →
    ((start.behind past).rescans = true ↔
      (∀ o ∈ past, o.isPoll = false) ∨
        (∃ event, .arrival (.event event) ∈ sincePoll past ∧ event.matters = true) ∨
        start.home.watcher? = none)
  /-- When it rescans the project says what it finds. -/
  shows_of_rescans : (start.behind past).rescans = true →
    (project.poll (start.behind past)).2.2.home.Shows (start.behind past).files
  /-- Otherwise there was no change, and the project says what it has said before. -/
  of_not_rescans : (start.behind past).rescans = false →
    (project.poll (start.behind past)).1 = .unchanged ∧
      (project.poll (start.behind past)).2.2.home.configuration =
        (start.behind past).home.configuration ∧
      (project.poll (start.behind past)).2.2.home.batch = (start.behind past).home.batch
  /-- Of the lines that it writes those about failures since the last poll are not held back. -/
  loud : start.home.watcher? ≠ none →
    (project.poll (start.behind past)).2.1.filter (fun line ↦ line.topic.isLoud) =
      (sincePoll past).filterMap Occurrence.complaint?
  /-- Nothing waits afterwards. -/
  pending : (project.poll (start.behind past)).2.2.home.pending = []
  /-- The first poll reports a change, ... -/
  changed_of_first : (∀ o ∈ past, o.isPoll = false) →
    (project.poll (start.behind past)).1 = .changed
  /-- ... and every other one at which the project rescans just if it finds another fingerprint than
  at its last look, where that at its opening counts. -/
  changed_iff : (start.behind past).rescans = true → (∃ o ∈ past, o.isPoll = true) →
    ((project.poll (start.behind past)).1 = .changed ↔
      (start.behind past).home.fingerprintNow (start.behind past).files ≠
        (start.fingerprints past).getLastD (start.home.fingerprintNow start.files))

theorem exists_matters_iff (past : List Occurrence) :
    ((past.filterMap Occurrence.report?).any Report.matters = true) ↔
      (∃ event, .arrival (.event event) ∈ past ∧ event.matters = true) ∨
        ∃ message, .arrival (.failure message) ∈ past := by
  rw [List.any_filterMap, List.any_eq_true]
  constructor
  · rintro ⟨o, ho, hmatters⟩
    cases o with
    | change files => cases hmatters
    | poll => cases hmatters
    | arrival report =>
      cases report with
      | event event => exact Or.inl ⟨event, ho, hmatters⟩
      | failure message => exact Or.inr ⟨message, ho⟩
  · rintro (⟨event, hevent, hmatters⟩ | ⟨message, hmessage⟩)
    · exact ⟨_, hevent, hmatters⟩
    · exact ⟨_, hmessage, rfl⟩

/-- Whether a project looks when it is asked behind some past. -/
theorem looks_behind_iff (hasked : s.home.wasAsked = false) (hpending : s.home.pending = [])
    (past : List Occurrence) : (s.behind past).home.looks = true ↔
      (∀ o ∈ past, o.isPoll = false) ∨
        (∃ event, .arrival (.event event) ∈ sincePoll past ∧ event.matters = true) ∨
        (∃ message, .arrival (.failure message) ∈ sincePoll past) ∨ s.home.watcher? = none := by
  have hfirst : (!(s.behind past).home.wasAsked) = true ↔ ∀ o ∈ past, o.isPoll = false := by
    rw [wasAsked_behind, hasked, Bool.false_or, Bool.not_eq_true', List.any_eq_false]
    simp only [Bool.not_eq_true]
  rw [ManifestProject.looks, Bool.or_eq_true, hfirst, ManifestProject.hasNews_eq, Bool.or_eq_true,
    isNone_watcher?_behind, Option.isNone_iff_eq_none, or_comm (a := s.home.watcher? = none)]
  refine or_congr_right ?_
  rw [← or_assoc (c := s.home.watcher? = none), ← exists_matters_iff]
  by_cases hwatch : s.home.watcher? = none
  · simp only [hwatch, or_true]
  · rw [pending_behind hwatch hpending]

theorem heeds_of_opened (hasked : s.home.wasAsked = false) (hpending : s.home.pending = [])
    (hshows : s.home.Shows s.files) (past : List Occurrence) : s.Heeds past where
  rescans_iff := by rw [rescans_eq, looks_behind_iff hasked hpending]
  rescans_iff_of_events hevents := by
    have hnone : ¬∃ message, .arrival (.failure message) ∈ sincePoll past :=
      fun ⟨message, hmessage⟩ ↦ hevents message ((List.rtakeWhile_suffix _ _).subset hmessage)
    rw [rescans_eq, looks_behind_iff hasked hpending, or_iff_right hnone]
  shows_of_rescans hrescans := by
    rw [rescans_eq] at hrescans
    obtain ⟨lines, hpoll, -⟩ := ManifestProject.poll_of_looks (s.behind past).files hrescans
    simp only [project, hpoll]
    rfl
  of_not_rescans hrescans := by
    rw [rescans_eq] at hrescans
    simp only [project, ManifestProject.poll_of_not_looks hrescans]
    exact ⟨trivial, rfl, rfl⟩
  loud hwatch := by
    have hpoll := ManifestProject.loud_poll (s.behind past).files (s.behind past).home
    rw [ManifestProject.complaints_eq, pending_behind hwatch hpending,
      List.filterMap_filterMap] at hpoll
    exact hpoll
  pending := ManifestProject.pending_poll _ _
  changed_of_first hfirst := by
    have hlooks := (looks_behind_iff hasked hpending past).2 (Or.inl hfirst)
    obtain ⟨lines, hpoll, -⟩ := ManifestProject.poll_of_looks (s.behind past).files hlooks
    have hasked' : (s.behind past).home.wasAsked = false := by
      rw [wasAsked_behind, hasked, Bool.false_or, List.any_eq_false]
      exact fun o ho ↦ Bool.eq_false_iff.1 (hfirst o ho)
    simp only [project, hpoll, hasked', Bool.false_eq_true, false_and, if_false]
  changed_iff hrescans hpolled := by
    rw [rescans_eq] at hrescans
    obtain ⟨lines, hpoll, -⟩ := ManifestProject.poll_of_looks (s.behind past).files hrescans
    have hasked' : (s.behind past).home.wasAsked = true := by
      rw [wasAsked_behind, hasked, Bool.false_or, List.any_eq_true]
      exact hpolled
    have hprint : s.home.fingerprintNow s.files = s.home.fingerprint := by
      rw [ManifestProject.fingerprintNow, show (s.home.look s.files).1 = s.home from hshows]
    rw [hprint, ← fingerprint_behind]
    simp only [project, hpoll, hasked', true_and, ManifestProject.fingerprintNow]
    split
    next h => exact iff_of_false (by decide) (not_not_intro h)
    next h => exact iff_of_true rfl h

end Site

/-- **Irrelevant events are invisible.** Take any life of a project that was opened: files are
changed in whatever way, reports arrive, and the project is asked. Every poll does what it does for
the events that matter and the failures of the watcher that have arrived since the last one. A life
in which other events arrive besides, anywhere and any number of them, comes to the same: every poll
says the same, and so does the project behind it all. These events are those of a kind that cannot
matter and those about temporary files only. -/
theorem irrelevant_events_invisible {path : FilePath} {opened : FileSystem} {hash : Hash}
    {home : ManifestProject} {line : Trace}
    (hopened : ManifestProject.ofManifest opened path hash = .ok (home, line)) :
    let start : Site := ⟨opened, home⟩
    (∀ past, start.Heeds past) ∧
      (∀ past past' : List Site.Occurrence, Site.noiseless past' = Site.noiseless past →
        start.learnt past' = start.learnt past ∧
          (start.behind past').home.configuration = (start.behind past).home.configuration ∧
          (start.behind past').home.batch = (start.behind past).home.batch) ∧
      (∀ event : FileEvent, (Site.Occurrence.arrival (.event event)).isNoise = true ↔
        (event.kind = .unspecified ∨ event.kind = .accessed ∨ event.kind = .modified .metadata ∨
          event.kind = .other) ∨ ∀ path ∈ event.paths, path.isTemporary = true) ∧
      ∀ message, (Site.Occurrence.arrival (.failure message)).isNoise = false := by
  intro start
  obtain ⟨hshows, hasked⟩ := ManifestProject.of_ofManifest hopened
  have hpending := ManifestProject.pending_of_ofManifest hopened
  refine ⟨Site.heeds_of_opened hasked hpending hshows, fun past past' hsame ↦ ?_, fun event ↦ ?_,
    fun _ ↦ rfl⟩
  · have hbehind : (start.behind past').heedful = (start.behind past).heedful := by
      rw [Site.heedful_behind, Site.heedful_behind, hsame]
    have hhome : (start.behind past').home.heedful = (start.behind past).home.heedful :=
      congrArg Site.home hbehind
    refine ⟨?_, ?_, ?_⟩
    · rw [Site.learnt_heedful, hsame, ← Site.learnt_heedful]
    · rw [← ManifestProject.configuration_heedful, hhome, ManifestProject.configuration_heedful]
    · rw [← ManifestProject.batch_heedful, hhome, ManifestProject.batch_heedful]
  · rw [← event.not_matters_iff, Site.Occurrence.isNoise, Bool.not_eq_true', Report.matters]

/-- Events that do not matter: a file is read, its times are changed, a backup of it is made, and
something is reported about no file at all. -/
def Sample.noise : List Site.Occurrence :=
  [⟨.accessed, [⟨"/p/a.ts"⟩]⟩, ⟨.modified .metadata, [⟨"/p/a.ts"⟩]⟩,
    ⟨.created, [⟨"/p/a.ts~"⟩, ⟨"/p/.a.ts.swp"⟩]⟩, ⟨.removed, []⟩].map fun event ↦
      .arrival (.event event)

/-- A listed file comes and goes, but the project is asked before it is told. It notices the file
when an event says so, and that it is gone when watching has failed. With noise all the time it does
the same. -/
theorem irrelevant_events_invisible_noisy :
    let manifest := "[project]\ninclude = []\nfiles = [\"a.ts\"]\n"
    let fs := Sample.disk manifest []
    let come : Site.Occurrence := .change (Sample.disk manifest [("a.ts", .file .empty)])
    let told : Site.Occurrence := .arrival (.event ⟨.created, [⟨"/p/a.ts~"⟩, ⟨"/p/a.ts"⟩]⟩)
    let gone : Site.Occurrence := .change fs
    let failed : Site.Occurrence := .arrival (.failure "queue overflow")
    let noise := Sample.noise
    ∃ home line, ManifestProject.ofManifest fs Sample.manifest = .ok (home, line) ∧
      let start : Site := ⟨fs, home⟩
      let past : List Site.Occurrence :=
        [.poll, come, .poll, told, .poll, gone, .poll, failed, .poll]
      let noisy : List Site.Occurrence :=
        noise ++ .poll :: (come :: noise ++ .poll :: (noise ++ told :: noise ++ [.poll, gone]) ++
          noise ++ .poll :: (noise ++ failed :: noise ++ [.poll]) ++ noise)
      start.learnt noisy = start.learnt past ∧
        (start.learnt past).map Prod.fst =
          [.changed, .unchanged, .changed, .unchanged, .changed] := by
  intro manifest fs come told gone failed noise
  have hopened := ManifestProject.ofManifest_of_watched fs Sample.manifest id ["p"]
    (by decide +kernel) (by decide +kernel)
  refine ⟨_, _, hopened, ?_⟩
  intro start past noisy
  have hsame : Site.noiseless noisy = Site.noiseless past := by rfl
  exact ⟨((irrelevant_events_invisible hopened).2.1 past noisy hsame).1, by decide +kernel⟩

end Coalesce
