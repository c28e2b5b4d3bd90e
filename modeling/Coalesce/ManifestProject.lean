import Coalesce.FileTree.Change
import Coalesce.FileTree.Watcher
import Coalesce.Project
import Coalesce.Sources

/-!
# Projects with a manifest

A project on the file system: a manifest, and the sources that its rules find below the directory
that the manifest lies in. Its *shape* is the content of the manifest and the list of its sources;
only another shape is a change, and the content of the sources is none of the project's business.
What a project remembers of its shape is a hash of its bytes, so shapes are told apart as far as the
hash tells them apart.

A project may have a watcher. Then it looks at the file system again only if something that matters
was reported since it was last asked. Without a watcher it looks every time. The first time it is
asked it always reports a change.
-/

namespace Coalesce

/-- A hash of bytes. -/
abbrev Hash : Type := List UInt8 → List UInt8

/-- A project on the file system. -/
structure ManifestProject where
  manifest : FilePath
  root : FilePath
  /-- What shapes are told apart by. -/
  hash : Hash
  watcher? : Option Watcher
  configuration : Configuration
  batch : BatchSettings
  /-- The hash of the shape that the project had when it last looked. -/
  fingerprint : List UInt8
  /-- Whether the project was asked before. -/
  wasAsked : Bool

namespace ManifestProject

/-- The error about a manifest that cannot be read. -/
def unreadable (path : FilePath) (refusal : Refusal) : Diagnostic :=
  .error Manifest.unreadableCode
    ("Cannot read file '" ++ path.text ++ "': " ++ refusal.message ++ ".")

/-- The manifest at a path, and what there is to say about it. One that cannot be read says
nothing. -/
def readManifest (fs : FileSystem) (path : FilePath) : Manifest × List Diagnostic :=
  match fs.readText path with
  | .ok content => Manifest.ofContent content path
  | .error refusal => (.default, [unreadable path refusal])

/-- The bytes of the shape of a project: the content of its manifest, nothing if it cannot be read,
and its sources, each with a zero behind it. -/
def shapeOf (fs : FileSystem) (manifest : FilePath) (sources : List FilePath) : List UInt8 :=
  ((fs.read manifest).toOption.getD .empty).data.toList ++
    sources.flatMap fun path => path.bytes ++ [0]

/-- A trace line about a project. -/
def said (message : String) : Trace := ⟨"watch", message⟩

/-- Looks at the file system again. -/
def look (fs : FileSystem) (p : ManifestProject) : ManifestProject × Trace :=
  let (manifest, problems) := readManifest fs p.manifest
  let (sources, missing) := manifest.sources.select fs p.root
  ({ p with
      configuration := ⟨sources, manifest.options, problems ++ missing⟩
      batch := manifest.batch
      fingerprint := p.hash (shapeOf fs p.manifest sources) },
    said ("resolved " ++ toString sources.length ++ " files"))

/-- A project that has not looked at the file system yet. -/
def unseen (manifest root : FilePath) (hash : Hash) (watcher? : Option Watcher) :
    ManifestProject where
  manifest := manifest
  root := root
  hash := hash
  watcher? := watcher?
  configuration := ⟨[], .default, []⟩
  batch := .default
  fingerprint := []
  wasAsked := false

/-- Opens the project of a manifest. What is wrong with the manifest is part of the configuration;
it is an error only if a project that wants to be watched has no directory to watch. If no hash is
given then all of the bytes are remembered. -/
def ofManifest (fs : FileSystem) (path : FilePath) (hash : Hash := id) :
    Except ProjectFailure (ManifestProject × Trace) :=
  let manifest := fs.normalize path
  let root := manifest.parent?.getD .empty
  if (readManifest fs manifest).1.sources.watch then
    match fs.find root with
    | .ok (place, _) =>
      .ok ((unseen manifest root hash (some (.create (FileSystem.pathOf place)))).look fs)
    | .error refusal => .error (.unwatchable refusal.message)
  else .ok ((unseen manifest root hash none).look fs)

/-- Opens the project whose manifest has the usual name in a directory. -/
def ofDirectory (fs : FileSystem) (dir : FilePath) (hash : Hash := id) :
    Except ProjectFailure (ManifestProject × Trace) :=
  ofManifest fs (dir.join ⟨Manifest.fileName⟩) hash

/-- Whether there is a reason to look at the file system again. -/
def hasNews (p : ManifestProject) : Bool := p.watcher?.all Watcher.hasNews

/-- What is written about the failures of the watcher, if there is one. -/
def complaints (p : ManifestProject) : List Trace := p.watcher?.elim [] Watcher.complaints

/-- Asks whether the project has changed. -/
def poll (fs : FileSystem) (p : ManifestProject) : Change × List Trace × ManifestProject :=
  let cleared := { p with watcher? := p.watcher?.map Watcher.cleared }
  if p.wasAsked && !p.hasNews then (.unchanged, p.complaints, cleared)
  else
    let (seen, line) := cleared.look fs
    let lines := p.complaints ++ [line]
    let next := { seen with wasAsked := true }
    if !p.wasAsked then (.changed, lines, next)
    else if next.fingerprint = p.fingerprint then (.unchanged, lines, next)
    else (.changed, lines ++ [said "project file set changed"], next)

/-- Reports an event to the watcher, if there is one. -/
def notify (event : FileEvent) (p : ManifestProject) : ManifestProject :=
  { p with watcher? := p.watcher?.map (Watcher.notify event) }

/-- Tells the watcher something as it is, if there is one. -/
def receive (report : Report) (p : ManifestProject) : ManifestProject :=
  { p with watcher? := p.watcher?.map (Watcher.receive report) }

end ManifestProject

/-- The file system and a project on it. -/
structure Site where
  files : FileSystem
  home : ManifestProject

namespace Site

/-- A site after its files were changed and the project's watcher was told. -/
def change (s : Site) (e : FileSystem.Effect) : Site :=
  ⟨e.system, e.events.foldl (fun p event => p.notify event) s.home⟩

/-- The project of a site. -/
def project : Project Site where
  poll s :=
    let (change, traces, home) := s.home.poll s.files
    (change, traces, { s with home })
  configuration s := .ok s.home.configuration
  batch? s := some s.home.batch

/-- The text of a file of a site. -/
def text? (s : Site) (path : FilePath) : Option String := (s.files.readText path).toOption

end Site

end Coalesce
