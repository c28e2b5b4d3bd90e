import Coalesce.Proofs.Deeds

/-!
# Watching and asking every time

A project with a watcher looks at the file system only if something that matters was reported, and
one without looks whenever it is asked. Side by side, over files that are changed in the watched
directory and nowhere else, the two are in the same state behind every poll at which both look, and
they give the same reply. So they can part only at a poll at which the watcher has nothing to tell,
because all that was touched since the poll before is temporary: there the one reports no change and
keeps what it says, and the other says what it finds. They part just if that is something else than
at the poll before (`ManifestProject.Watchful`, `Site.replies_eq_iff`).
-/

namespace Coalesce

/-! ## Replies -/

/-- What a session learns when it asks a project: whether it has changed, what it consists of, and
the settings that it wants. -/
abbrev Reply : Type := Change × Except ProjectFailure Configuration × Option BatchSettings

/-- A project to which some events were reported. -/
def ManifestProject.hearing (p : ManifestProject) (events : List FileEvent) : ManifestProject :=
  events.foldl (fun p event ↦ p.notify event) p

namespace Site

/-- A site behind some deeds. -/
def perform (s : Site) (deeds : List Deed) : Site :=
  deeds.foldl (fun s deed ↦ s.change (deed.effect s.files)) s

/-- The replies of a project that is asked behind every round of deeds. -/
def replies (s : Site) : List (List Deed) → List Reply
  | [] => []
  | deeds :: rest =>
    let (change, _, s) := project.poll (s.perform deeds)
    (change, project.configuration s, project.batch? s) :: replies s rest

theorem perform_eq (fs : FileSystem) (p : ManifestProject) (deeds : List Deed) :
    perform ⟨fs, p⟩ deeds = ⟨fs.after deeds, p.hearing (fs.reports deeds)⟩ := by
  induction deeds generalizing fs p with
  | nil => rfl
  | cons deed rest ih =>
    rw [FileSystem.reports, ManifestProject.hearing, List.foldl_append]
    exact ih (deed.effect fs).system (p.hearing (deed.effect fs).events)

end Site

/-! ## With a watcher and without -/

namespace ManifestProject

variable {p : ManifestProject} {fs : FileSystem} {top : FilePath} {deeds : List Deed}

/-- What a look at a file system finds. -/
def sight (p : ManifestProject) (fs : FileSystem) : Configuration × BatchSettings × List UInt8 :=
  ((p.look fs).1.configuration, (p.look fs).1.batch, (p.look fs).1.fingerprint)

/-- The same project without a watcher. -/
def unwatched (p : ManifestProject) : ManifestProject := { p with watcher? := none }

/-- The project after it was asked. -/
def asked (p : ManifestProject) : ManifestProject := { p with wasAsked := true }

/-- The reply of a project that looks. -/
def reply (p : ManifestProject) (fs : FileSystem) : Reply :=
  (if p.wasAsked = true ∧ (p.look fs).1.fingerprint = p.fingerprint then .unchanged else .changed,
    .ok (p.look fs).1.configuration, some (p.look fs).1.batch)

theorem hearing_eq (p : ManifestProject) (events : List FileEvent) : p.hearing events =
    { p with
      watcher? := p.watcher?.map fun w ↦ events.foldl (fun w event ↦ w.notify event) w } := by
  induction events generalizing p with
  | nil =>
    have hsame : p.watcher?.map (fun w ↦ w) = p.watcher? := Option.map_id'
    simp only [List.foldl_nil, hsame]
    rfl
  | cons event rest ih =>
    have hrest : p.hearing (event :: rest) = (p.notify event).hearing rest := rfl
    rw [hrest, ih, notify, Option.map_map]
    rfl

theorem hearing_unwatched (p : ManifestProject) (events : List FileEvent) :
    p.unwatched.hearing events = p.unwatched := by
  rw [hearing_eq]
  rfl

/-- A watcher at the top hears of all deeds that touch only what is below. -/
theorem hearing_reports (hwatch : p.watcher? = some (.create top))
    (hbelow : ∀ path ∈ fs.touched deeds, path.isBelow top = true) :
    p.hearing (fs.reports deeds) =
      { p with watcher? := some ⟨some top, (fs.reports deeds).map .event⟩ } := by
  have hheard : (fs.reports deeds).foldl (fun w event ↦ Watcher.notify event w)
      (⟨some top, []⟩ : Watcher) = ⟨some top, [] ++ (fs.reports deeds).map .event⟩ :=
    Watcher.foldl_notify_of_below (fun event hevent ↦ (FileSystem.matters_of_mem_reports hevent).2)
      fun event hevent path hpath ↦ hbelow path (List.mem_flatMap.2 ⟨event, hevent, hpath⟩)
  rw [hearing_eq, hwatch, Option.map_some, Watcher.create, hheard, List.nil_append]

theorem cleared_hearing (hwatch : p.watcher? = some (.create top)) (reports : List Report) :
    cleared { p with watcher? := some ⟨some top, reports⟩ } = p := by
  obtain ⟨manifest, root, hash, watcher?, configuration, batch, fingerprint, wasAsked⟩ := p
  obtain rfl : watcher? = some (.create top) := hwatch
  rfl

theorem cleared_look_hearing (hwatch : p.watcher? = some (.create top)) (reports : List Report) :
    (look fs { p with watcher? := some ⟨some top, reports⟩ }).1.cleared = (p.look fs).1 :=
  cleared_hearing (p := (p.look fs).1) hwatch reports

/-- So it looks behind them if it was never asked or a path was touched that is not temporary. -/
theorem looks_hearing_reports (hwatch : p.watcher? = some (.create top))
    (hbelow : ∀ path ∈ fs.touched deeds, path.isBelow top = true) :
    (p.hearing (fs.reports deeds)).looks =
      (!p.wasAsked || (fs.touched deeds).any fun path ↦ !path.isTemporary) := by
  have hnews : Watcher.hasNews ⟨some top, (fs.reports deeds).map .event⟩ =
      (fs.reports deeds).any FileEvent.matters := List.any_map
  rw [hearing_reports hwatch hbelow, looks, ← FileSystem.any_matters_reports, ← hnews]
  rfl

end ManifestProject

namespace Site

variable {p : ManifestProject} {fs : FileSystem} {top : FilePath} {deeds : List Deed}
  {rest : List (List Deed)}

theorem replies_of_looks (h : (p.hearing (fs.reports deeds)).looks = true) :
    replies ⟨fs, p⟩ (deeds :: rest) =
      (p.hearing (fs.reports deeds)).reply (fs.after deeds) ::
        replies ⟨fs.after deeds,
          ((p.hearing (fs.reports deeds)).look (fs.after deeds)).1.cleared.asked⟩ rest := by
  obtain ⟨lines, hpoll, -⟩ := ManifestProject.poll_of_looks (fs.after deeds) h
  rw [replies, perform_eq]
  simp only [project, hpoll]
  rfl

theorem replies_unwatched (p : ManifestProject) (fs : FileSystem) (deeds : List Deed)
    (rest : List (List Deed)) :
    replies ⟨fs, p.unwatched⟩ (deeds :: rest) =
      p.reply (fs.after deeds) ::
        replies ⟨fs.after deeds, (p.look (fs.after deeds)).1.asked.unwatched⟩ rest := by
  have hlooks : (p.unwatched.hearing (fs.reports deeds)).looks = true := by
    rw [ManifestProject.hearing_unwatched]
    exact Bool.or_true _
  rw [replies_of_looks hlooks, ManifestProject.hearing_unwatched]
  rfl

/-- With a watcher and a reason to look a project replies as it does without a watcher. -/
theorem replies_watched_of_looks (hwatch : p.watcher? = some (.create top))
    (hbelow : ∀ path ∈ fs.touched deeds, path.isBelow top = true)
    (h : (p.hearing (fs.reports deeds)).looks = true) :
    replies ⟨fs, p⟩ (deeds :: rest) =
      p.reply (fs.after deeds) ::
        replies ⟨fs.after deeds, (p.look (fs.after deeds)).1.asked⟩ rest := by
  rw [replies_of_looks h, ManifestProject.hearing_reports hwatch hbelow,
    ManifestProject.cleared_look_hearing hwatch]
  rfl

theorem replies_watched_of_not_looks (hwatch : p.watcher? = some (.create top))
    (hbelow : ∀ path ∈ fs.touched deeds, path.isBelow top = true)
    (h : (p.hearing (fs.reports deeds)).looks = false) :
    replies ⟨fs, p⟩ (deeds :: rest) =
      (.unchanged, .ok p.configuration, some p.batch) :: replies ⟨fs.after deeds, p⟩ rest := by
  have hcleared : (p.hearing (fs.reports deeds)).cleared = p := by
    rw [ManifestProject.hearing_reports hwatch hbelow]
    exact ManifestProject.cleared_hearing hwatch _
  rw [replies, perform_eq]
  simp only [project, ManifestProject.poll_of_not_looks h, hcleared]

end Site

/-! ## Where the two part -/

namespace ManifestProject

variable {p : ManifestProject} {fs fs' : FileSystem} {top : FilePath}

/-- Nothing is overlooked in rounds of deeds behind a poll: whenever all paths that are touched in a
round are temporary, a look finds what it would have found before the round. -/
def Watchful (p : ManifestProject) (fs : FileSystem) : List (List Deed) → Prop
  | [] => True
  | deeds :: rest =>
    ((∀ path ∈ fs.touched deeds, path.isTemporary = true) →
      p.sight fs = p.sight (fs.after deeds)) ∧ Watchful p (fs.after deeds) rest

theorem asked_eq (h : p.wasAsked = true) : p.asked = p := by
  obtain ⟨manifest, root, hash, watcher?, configuration, batch, fingerprint, wasAsked⟩ := p
  obtain rfl : wasAsked = true := h
  rfl

/-- What a look finds depends on where the project is and on nothing else. -/
theorem watchful_congr {q : ManifestProject} (h : ∀ fs, p.sight fs = q.sight fs)
    {rounds : List (List Deed)} : p.Watchful fs rounds ↔ q.Watchful fs rounds := by
  induction rounds generalizing fs with
  | nil => exact Iff.rfl
  | cons deeds rest ih => rw [Watchful, Watchful, ih, h, h]

theorem watchful_of_lasting {rounds : List (List Deed)}
    (h : ∀ path ∈ fs.touched rounds.flatten, path.isTemporary = false) : p.Watchful fs rounds := by
  induction rounds generalizing fs with
  | nil => trivial
  | cons deeds rest ih =>
    rw [List.flatten_cons, FileSystem.touched_append] at h
    refine ⟨fun htemporary ↦ ?_, ih fun path hpath ↦ h path (List.mem_append_right _ hpath)⟩
    have hnone : fs.touched deeds = [] := by
      refine List.eq_nil_iff_forall_not_mem.2 fun path hpath ↦ ?_
      have hlasting := h path (List.mem_append_left _ hpath)
      rw [htemporary path hpath] at hlasting
      cases hlasting
    rw [FileSystem.after_eq_of_untouched hnone]

/-- A project that shows what it would find now reports no change if it looks, and stays as it
is. -/
theorem Shows.look_eq (h : p.Shows fs) (hsight : p.sight fs = p.sight fs') :
    (p.look fs').1 = p := by
  have hlook : ∀ fs, (p.look fs).1 =
      { p with
        configuration := (p.sight fs).1
        batch := (p.sight fs).2.1
        fingerprint := (p.sight fs).2.2 } :=
    fun fs ↦ rfl
  calc (p.look fs').1 = (p.look fs).1 := by rw [hlook, hlook, hsight]
    _ = p := h

/-- The reply of a project without a reason to look is that of one that looks and finds the same. -/
theorem Shows.quiet_eq_reply_iff (h : p.Shows fs) (hasked : p.wasAsked = true) :
    (.unchanged, .ok p.configuration, some p.batch) = p.reply fs' ↔ p.sight fs = p.sight fs' := by
  have hshown : p.sight fs = (p.configuration, p.batch, p.fingerprint) := by
    rw [sight, show (p.look fs).1 = p from h]
  rw [hshown, reply, sight]
  by_cases hprint : (p.look fs').1.fingerprint = p.fingerprint
  · simp [hasked, hprint]
  · simp [hprint, Ne.symm hprint]

end ManifestProject

/-- **Where watching and asking every time part**, behind a poll. -/
theorem Site.replies_eq_iff {p : ManifestProject} {fs : FileSystem} {top : FilePath}
    (hwatch : p.watcher? = some (.create top)) (hasked : p.wasAsked = true) (hshows : p.Shows fs)
    (rounds : List (List Deed))
    (hbelow : ∀ path ∈ fs.touched rounds.flatten, path.isBelow top = true) :
    replies ⟨fs, p⟩ rounds = replies ⟨fs, p.unwatched⟩ rounds ↔ p.Watchful fs rounds := by
  induction rounds generalizing p fs with
  | nil => exact iff_of_true rfl trivial
  | cons deeds rest ih =>
    rw [List.flatten_cons, FileSystem.touched_append] at hbelow
    have hround : ∀ path ∈ fs.touched deeds, path.isBelow top = true :=
      fun path hpath ↦ hbelow path (List.mem_append_left _ hpath)
    have hrest : ∀ path ∈ (fs.after deeds).touched rest.flatten, path.isBelow top = true :=
      fun path hpath ↦ hbelow path (List.mem_append_right _ hpath)
    have hseen : (p.look (fs.after deeds)).1.asked = (p.look (fs.after deeds)).1 :=
      ManifestProject.asked_eq hasked
    have hwatch' : (p.look (fs.after deeds)).1.watcher? = some (.create top) := hwatch
    have hsights : ∀ fs', (p.look (fs.after deeds)).1.sight fs' = p.sight fs' := fun _ ↦ rfl
    have hnext : replies ⟨fs.after deeds, (p.look (fs.after deeds)).1⟩ rest =
        replies ⟨fs.after deeds, (p.look (fs.after deeds)).1.unwatched⟩ rest ↔
          p.Watchful (fs.after deeds) rest :=
      (ih hwatch' hasked (p.shows_look (fs.after deeds)) hrest).trans
        (ManifestProject.watchful_congr hsights)
    have hlooks := ManifestProject.looks_hearing_reports hwatch hround
    rw [hasked, Bool.not_true, Bool.false_or] at hlooks
    rw [replies_unwatched, hseen, ManifestProject.Watchful]
    cases hnews : (fs.touched deeds).any fun path ↦ !path.isTemporary with
    | true =>
      -- Both look, and they go on alike.
      have hlasting : ¬∀ path ∈ fs.touched deeds, path.isTemporary = true := by
        obtain ⟨path, hpath, hkept⟩ := List.any_eq_true.1 hnews
        exact fun h ↦ by simp [h path hpath] at hkept
      rw [replies_watched_of_looks hwatch hround (hlooks.trans hnews), hseen, List.cons.injEq]
      exact and_congr (iff_of_true rfl fun h ↦ absurd h hlasting) hnext
    | false =>
      -- Only the one without a watcher looks.
      have htemporary : ∀ path ∈ fs.touched deeds, path.isTemporary = true :=
        fun path hpath ↦ by simpa using List.any_eq_false.1 hnews path hpath
      rw [replies_watched_of_not_looks hwatch hround (hlooks.trans hnews), List.cons.injEq,
        hshows.quiet_eq_reply_iff hasked, forall_prop_of_true htemporary]
      refine and_congr_right fun hsight ↦ ?_
      rw [hshows.look_eq hsight] at hnext ⊢
      exact hnext

/-- **Watching agrees with asking every time** unless something is overlooked. Take a project that
was opened with a watcher, and the same project without it, and let files be changed in rounds, with
a poll of both behind every round. If everything that is touched is below the watched directory, all
replies of the two are the same just if nothing is overlooked behind the first poll. In particular
they are the same if no path that is touched behind the first poll is temporary. -/
theorem watching_agrees_iff {path : FilePath} {fs : FileSystem} {hash : Hash} {p : ManifestProject}
    {line : Trace} {top : FilePath}
    (hopened : ManifestProject.ofManifest fs path hash = .ok (p, line))
    (hwatch : p.watcher? = some (.create top)) (first : List Deed) (rounds : List (List Deed))
    (hbelow : ∀ path ∈ fs.touched (first ++ rounds.flatten), path.isBelow top = true) :
    let watched : Site := ⟨fs, p⟩
    let polled : Site := ⟨fs, p.unwatched⟩
    (watched.replies (first :: rounds) = polled.replies (first :: rounds) ↔
        p.Watchful (fs.after first) rounds) ∧
      ((∀ path ∈ (fs.after first).touched rounds.flatten, path.isTemporary = false) →
        watched.replies (first :: rounds) = polled.replies (first :: rounds)) := by
  intro watched polled
  have hiff : watched.replies (first :: rounds) = polled.replies (first :: rounds) ↔
      p.Watchful (fs.after first) rounds := by
    rw [FileSystem.touched_append] at hbelow
    have hfirst : ∀ path ∈ fs.touched first, path.isBelow top = true :=
      fun path hpath ↦ hbelow path (List.mem_append_left _ hpath)
    have hrest : ∀ path ∈ (fs.after first).touched rounds.flatten, path.isBelow top = true :=
      fun path hpath ↦ hbelow path (List.mem_append_right _ hpath)
    have hlooks : (p.hearing (fs.reports first)).looks = true := by
      rw [ManifestProject.looks_hearing_reports hwatch hfirst,
        (ManifestProject.of_ofManifest hopened).2]
      rfl
    have hwatch' : (p.look (fs.after first)).1.asked.watcher? = some (.create top) := hwatch
    have hsights : ∀ fs', (p.look (fs.after first)).1.asked.sight fs' = p.sight fs' := fun _ ↦ rfl
    rw [Site.replies_watched_of_looks hwatch hfirst hlooks, Site.replies_unwatched, List.cons.injEq,
      eq_self_iff_true, true_and]
    exact (Site.replies_eq_iff hwatch' rfl rfl rounds hrest).trans
      (ManifestProject.watchful_congr hsights)
  exact ⟨hiff, fun hlasting ↦ hiff.2 (ManifestProject.watchful_of_lasting hlasting)⟩

/-- A file system with a manifest that lists one file, which is not there. -/
def Sample.expecting (name : String) : FileSystem :=
  disk ("[project]\ninclude = []\nfiles = [\"" ++ name ++ "\"]\n") []

/-- Rounds of deeds in which a file in the directory `/p` is written and, after a change of its
content, taken away again. -/
def Sample.writing (name : String) : List (List Deed) :=
  let path : FilePath := ⟨"/p/" ++ name⟩
  [[.write path "1".toUTF8], [.write path "2".toUTF8, .removeFile path]]

/-- A listed file that comes and goes is noticed with a watcher as it is without one. -/
theorem watching_agrees_plain :
    let fs := Sample.expecting "a.ts"
    ∃ p line, ManifestProject.ofManifest fs Sample.manifest = .ok (p, line) ∧
      let replies := Site.replies ⟨fs, p⟩ ([] :: Sample.writing "a.ts")
      replies = Site.replies ⟨fs, p.unwatched⟩ ([] :: Sample.writing "a.ts") ∧
        replies.map Prod.fst = [.changed, .changed, .changed] := by
  intro fs
  have hopened := ManifestProject.ofManifest_of_watched fs Sample.manifest id ["p"]
    (by decide +kernel) (by decide +kernel)
  refine ⟨_, _, hopened, ?_, by decide +kernel⟩
  exact (watching_agrees_iff hopened rfl [] (Sample.writing "a.ts") (by decide +kernel)).2
    (by decide +kernel)

/-- But a listed file that is named like a backup is overlooked when it comes. -/
theorem watching_overlooks_backup :
    let fs := Sample.expecting "notes.bak"
    let rounds : List (List Deed) := [] :: Sample.writing "notes.bak"
    ∃ p line, ManifestProject.ofManifest fs Sample.manifest = .ok (p, line) ∧
      p.watcher? = some (.create ⟨"/p"⟩) ∧
      (∀ path ∈ fs.touched rounds.flatten, path.isBelow ⟨"/p"⟩ = true) ∧
      (Site.replies ⟨fs, p⟩ rounds).map Prod.fst = [.changed, .unchanged, .unchanged] ∧
      (Site.replies ⟨fs, p.unwatched⟩ rounds).map Prod.fst = [.changed, .changed, .changed] := by
  intro fs rounds
  have hopened := ManifestProject.ofManifest_of_watched fs Sample.manifest id ["p"]
    (by decide +kernel) (by decide +kernel)
  exact ⟨_, _, hopened, rfl, by decide +kernel⟩

end Coalesce
