import Coalesce.Proofs.Looks

/-!
# Deeds and what is reported of them

What somebody does to files has an effect, and an effect comes with events under the true paths of
the files concerned. Two things are always so (`FileSystem.Effect.Told`): every event is of a kind
that can matter to a project, and where nothing is reported nothing was changed. Hence whether a
list of deeds gives a project a reason to look depends only on the paths that are touched, on
whether one of them is not temporary (`FileSystem.any_matters_reports`).

A watcher of a directory takes notice of everything that is touched below it
(`Watcher.notified_of_below`).
-/

namespace Coalesce

/-! ## Effects -/

namespace FileSystem

/-- What goes without saying of an effect on a file system. -/
structure Effect.Told (e : Effect) (fs : FileSystem) : Prop where
  matters : ∀ event ∈ e.events, event.kind.matters = true ∧ event.paths ≠ []
  unchanged : e.events = [] → e.system = fs

namespace Effect.Told

variable {fs : FileSystem}

theorem nothing (fs : FileSystem) : (Effect.nothing fs).Told fs :=
  ⟨fun _ h ↦ absurd h List.not_mem_nil, fun _ ↦ rfl⟩

theorem refused (fs : FileSystem) (refusal : Refusal) : (Effect.refused fs refusal).Told fs :=
  ⟨fun _ h ↦ absurd h List.not_mem_nil, fun _ ↦ rfl⟩

theorem single {kind : FileEventKind} (hkind : kind.matters = true) (system : FileSystem)
    (place : Place) : (Effect.single system kind place).Told fs := by
  refine ⟨fun event h ↦ ?_, fun h ↦ absurd h (List.cons_ne_nil _ _)⟩
  obtain rfl := List.mem_singleton.1 h
  exact ⟨hkind, List.cons_ne_nil _ _⟩

theorem andThen {e : Effect} {next : FileSystem → Effect} (h : e.Told fs)
    (hnext : ∀ fs, (next fs).Told fs) : (e.andThen next).Told fs := by
  rw [Effect.andThen]
  split
  next => exact h
  next =>
    refine ⟨fun event hmem ↦ ?_, fun hnone ↦ ?_⟩
    · rcases List.mem_append.1 hmem with hmem | hmem
      · exact h.matters event hmem
      · exact (hnext e.system).matters event hmem
    · obtain ⟨hfirst, hsecond⟩ := List.append_eq_nil_iff.1 hnone
      exact ((hnext e.system).unchanged hsecond).trans (h.unchanged hfirst)

end Effect.Told

open Effect (Told)

theorem told_addNode (fs : FileSystem) (path : FilePath) (node : FileTree) :
    (fs.addNode path node).Told fs := by
  rw [addNode]
  split
  next => exact .single rfl _ _
  next => exact .refused fs _
  next => exact .refused fs _

theorem told_ensureDirectories (anchor : Anchor) (taken rest : List Segment) (fs : FileSystem) :
    (ensureDirectories anchor taken rest fs).Told fs := by
  induction rest generalizing taken fs with
  | nil => exact .nothing fs
  | cons segment rest ih =>
    refine .andThen ?_ fun fs ↦ ih _ fs
    rw [ensureDirectory]
    split
    next => exact .nothing fs
    next => exact told_addNode fs _ _

theorem told_makeDirectory (fs : FileSystem) (path : FilePath) : (fs.makeDirectory path).Told fs :=
  told_ensureDirectories _ _ _ fs

theorem told_writeFile (fs : FileSystem) (path : FilePath) (content : ByteArray) :
    (fs.writeFile path content).Told fs := by
  rw [writeFile]
  split
  next => exact .single rfl _ _
  next => exact .refused fs _
  next => exact .single rfl _ _
  next => exact .refused fs _

theorem told_write (fs : FileSystem) (path : FilePath) (content : ByteArray) :
    (fs.write path content).Told fs := by
  refine .andThen ?_ fun fs ↦ told_writeFile fs _ content
  cases (fs.current.join path).parent? with
  | none => exact .nothing fs
  | some dir => exact told_makeDirectory fs dir

theorem told_removeFile (fs : FileSystem) (path : FilePath) : (fs.removeFile path).Told fs := by
  rw [removeFile]
  split
  next => exact .refused fs _
  next => exact .single rfl _ _
  next => exact .refused fs _
  next => exact .refused fs _

theorem told_removeDirectory (fs : FileSystem) (path : FilePath) :
    (fs.removeDirectory path).Told fs := by
  rw [removeDirectory]
  split
  next => exact .refused fs _
  next =>
    refine ⟨fun event h ↦ ?_, fun h ↦ ?_⟩
    · obtain ⟨gone, -, rfl⟩ := List.mem_map.1 h
      exact ⟨rfl, List.cons_ne_nil _ _⟩
    · simp at h
  next => exact .refused fs _
  next => exact .refused fs _

theorem told_makeLink (fs : FileSystem) (path : FilePath) (target : String) :
    (fs.makeLink path target).Told fs := by
  rw [makeLink]
  split
  next => exact .refused fs _
  next => exact told_addNode fs path _

theorem told_move (fs : FileSystem) (source goal : Place) (node : FileTree) :
    (fs.move source node goal).Told fs := by
  rw [move]
  split
  next => exact .nothing fs
  next =>
    split
    next => exact .refused fs _
    next =>
      refine ⟨fun event h ↦ ?_, fun h ↦ absurd h (List.cons_ne_nil _ _)⟩
      obtain rfl := List.mem_singleton.1 h
      exact ⟨rfl, List.cons_ne_nil _ _⟩

theorem told_rename (fs : FileSystem) (path newPath : FilePath) :
    (fs.rename path newPath).Told fs := by
  rw [rename]
  split
  next =>
    split
    next => exact .refused fs _
    next => exact told_move fs _ _ _
  next => exact told_move fs _ _ _
  next => exact .refused fs _
  next => exact .refused fs _
  next => exact .refused fs _

end FileSystem

/-! ## Deeds -/

/-- Something that somebody does to files. -/
inductive Deed where
  | write (path : FilePath) (content : ByteArray)
  | makeDirectory (path : FilePath)
  | removeFile (path : FilePath)
  | removeDirectory (path : FilePath)
  | makeLink (path : FilePath) (target : String)
  | rename (path newPath : FilePath)

/-- What a deed does to a file system. -/
def Deed.effect (fs : FileSystem) : Deed → FileSystem.Effect
  | write path content => fs.write path content
  | makeDirectory path => fs.makeDirectory path
  | removeFile path => fs.removeFile path
  | removeDirectory path => fs.removeDirectory path
  | makeLink path target => fs.makeLink path target
  | rename path newPath => fs.rename path newPath

theorem Deed.told (fs : FileSystem) (deed : Deed) : (deed.effect fs).Told fs := by
  cases deed with
  | write path content => exact fs.told_write path content
  | makeDirectory path => exact fs.told_makeDirectory path
  | removeFile path => exact fs.told_removeFile path
  | removeDirectory path => exact fs.told_removeDirectory path
  | makeLink path target => exact fs.told_makeLink path target
  | rename path newPath => exact fs.told_rename path newPath

namespace FileSystem

/-- A file system behind some deeds. -/
def after (fs : FileSystem) (deeds : List Deed) : FileSystem :=
  deeds.foldl (fun fs deed ↦ (deed.effect fs).system) fs

/-- What is reported of some deeds. -/
def reports (fs : FileSystem) : List Deed → List FileEvent
  | [] => []
  | deed :: rest => (deed.effect fs).events ++ reports (deed.effect fs).system rest

/-- The true paths of the files that some deeds concern. -/
def touched (fs : FileSystem) (deeds : List Deed) : List FilePath :=
  (fs.reports deeds).flatMap FileEvent.paths

theorem touched_append (fs : FileSystem) (deeds more : List Deed) :
    fs.touched (deeds ++ more) = fs.touched deeds ++ (fs.after deeds).touched more := by
  induction deeds generalizing fs with
  | nil => rfl
  | cons deed rest ih =>
    have hcons : ∀ more, fs.touched (deed :: more) =
        (deed.effect fs).events.flatMap FileEvent.paths ++ (deed.effect fs).system.touched more :=
      fun more ↦ List.flatMap_append
    rw [List.cons_append, hcons, hcons, ih, List.append_assoc]
    rfl

variable {fs : FileSystem} {deeds : List Deed}

theorem matters_of_mem_reports {event : FileEvent} (h : event ∈ fs.reports deeds) :
    event.kind.matters = true ∧ event.paths ≠ [] := by
  induction deeds generalizing fs with
  | nil => exact absurd h List.not_mem_nil
  | cons deed rest ih =>
    rcases List.mem_append.1 h with h | h
    · exact (deed.told fs).matters event h
    · exact ih h

/-- Deeds give a reason to look just if they touch a path that is not temporary. -/
theorem any_matters_reports (fs : FileSystem) (deeds : List Deed) :
    (fs.reports deeds).any FileEvent.matters =
      (fs.touched deeds).any fun path ↦ !path.isTemporary := by
  rw [touched, List.any_flatMap, Bool.eq_iff_iff, List.any_eq_true, List.any_eq_true]
  refine exists_congr fun event ↦ and_congr_right fun hmem ↦ ?_
  rw [FileEvent.matters, (matters_of_mem_reports hmem).1, Bool.true_and]

theorem after_eq_of_untouched (h : fs.touched deeds = []) : fs.after deeds = fs := by
  have hsilent : fs.reports deeds = [] := by
    refine List.eq_nil_iff_forall_not_mem.2 fun event hevent ↦ ?_
    exact (matters_of_mem_reports hevent).2 (List.flatMap_eq_nil_iff.1 h event hevent)
  clear h
  induction deeds with
  | nil => rfl
  | cons deed rest ih =>
    obtain ⟨hfirst, hrest⟩ := List.append_eq_nil_iff.1 hsilent
    have hsame := (deed.told fs).unchanged hfirst
    rw [hsame] at hrest
    rw [after, List.foldl_cons, hsame]
    exact ih hrest

end FileSystem

/-! ## What a watcher is told -/

/-- Whether a path leads to something in a directory, but not to the directory itself. -/
def FilePath.isBelow (path dir : FilePath) : Bool :=
  dir.components.isPrefixOf path.components && !dir.same path

namespace Watcher

variable {dir : FilePath} {pending : List Report} {events : List FileEvent}

/-- An event about paths below a directory is reported to its watcher as it is, which goes on to
watch. -/
theorem notify_of_below {event : FileEvent} (hpaths : event.paths ≠ [])
    (h : ∀ path ∈ event.paths, path.isBelow dir = true) :
    notify event ⟨some dir, pending⟩ = ⟨some dir, pending ++ [.event event]⟩ := by
  have hbelow : ∀ path ∈ event.paths,
      dir.components.isPrefixOf path.components = true ∧ dir.same path = false := by
    intro path hpath
    simpa [FilePath.isBelow] using h path hpath
  have hall : event.paths.filter (fun path ↦ dir.components.isPrefixOf path.components) =
      event.paths := List.filter_eq_self.2 fun path hpath ↦ (hbelow path hpath).1
  have hnone : event.paths.any dir.same = false :=
    List.any_eq_false.2 fun path hpath ↦ by rw [(hbelow path hpath).2]; exact Bool.false_ne_true
  rw [notify]
  simp only [hall, if_neg hpaths, hnone, Bool.and_false, Bool.false_eq_true, if_false, receive]

theorem foldl_notify_of_below (hpaths : ∀ event ∈ events, event.paths ≠ [])
    (h : ∀ event ∈ events, ∀ path ∈ event.paths, path.isBelow dir = true) :
    events.foldl (fun w event ↦ notify event w) (⟨some dir, pending⟩ : Watcher) =
      ⟨some dir, pending ++ events.map .event⟩ := by
  induction events generalizing pending with
  | nil => rw [List.map_nil, List.append_nil, List.foldl_nil]
  | cons event rest ih =>
    rw [List.forall_mem_cons] at hpaths h
    rw [List.foldl_cons, notify_of_below hpaths.1 h.1, ih hpaths.2 h.2, List.append_assoc]
    rfl

end Watcher

end Coalesce
