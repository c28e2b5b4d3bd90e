import Coalesce.Overlay
import Coalesce.Workbench.Basic

/-!
# What a workbench reads

Whatever dialogue is led on a workbench through an overlay, all that changes there is what is
counted and collected (`Workbench.Kept`). The dialogue that gathers the units of a list of files can
be said outright (`Workbench.run_gather`): every file of the list has a place, and what stands there
is the unit that is served again for the file, or else a reading of its text under the next number,
or else nothing (`Overlay.place`). So a unit of the list is an old one, or it is one of the readings
that were made for it (`Overlay.of_mem_resolve`).
-/

namespace Coalesce

/-! ## Dialogues on a workbench -/

namespace Workbench

variable {D α : Type}

/-- A workbench that differs from another at most in what was read and written since. -/
structure Kept (w w' : Workbench D) : Prop where
  store : w'.store = w.store
  parses : w.parses ≤ w'.parses
  programs : w'.programs = w.programs
  hosts : w'.hosts = w.hosts
  diagnostics : w'.diagnostics = w.diagnostics
  isFaulty : w'.isFaulty = w.isFaulty

theorem Kept.refl (w : Workbench D) : Kept w w := ⟨rfl, Nat.le_refl _, rfl, rfl, rfl, rfl⟩

theorem Kept.trans {w w' w'' : Workbench D} (h : Kept w w') (h' : Kept w' w'') : Kept w w'' :=
  ⟨h'.store.trans h.store, Nat.le_trans h.parses h'.parses, h'.programs.trans h.programs,
    h'.hosts.trans h.hosts, h'.diagnostics.trans h.diagnostics, h'.isFaulty.trans h.isFaulty⟩

variable {text? : D → FilePath → Option String}

theorem read_of_text {w : Workbench D} {path : FilePath} {text : String}
    (h : text? w.store path = some text) :
    (host text?).read path w =
      (some ⟨path, text, w.parses + 1⟩, { w with parses := w.parses + 1 }) := by
  simp only [host, h]

theorem read_of_no_text {w : Workbench D} {path : FilePath} (h : text? w.store path = none) :
    (host text?).read path w = (none, w) := by
  simp only [host, h]

variable (text?) (o : Overlay SourceText)

theorem kept_read (path : FilePath) (c : Capture (Workbench D)) :
    Kept c.world ((o.host (host text?)).read path c).2.world := by
  cases hserved : o.served? path with
  | some unit =>
    rw [Overlay.read_of_served hserved]
    exact .refl _
  | none =>
    rw [Overlay.read_of_not_served hserved]
    cases htext : text? c.world.store path with
    | none =>
      rw [read_of_no_text htext]
      exact .refl _
    | some text =>
      rw [read_of_text htext]
      exact ⟨rfl, Nat.le_succ _, rfl, rfl, rfl, rfl⟩

theorem kept_write (path : FilePath) (text : String) (c : Capture (Workbench D)) :
    Kept c.world ((o.host (host text?)).write path text c).world := by
  rw [Overlay.host, host]
  dsimp only
  split <;> exact ⟨rfl, Nat.le_refl _, rfl, rfl, rfl, rfl⟩

theorem kept_run (d : Dialogue SourceText α) (c : Capture (Workbench D)) :
    Kept c.world (d.run (o.host (host text?)) c).2.world := by
  induction d generalizing c with
  | done result => exact .refl _
  | read path next ih => exact (kept_read text? o path c).trans (ih _ _)
  | write path text next ih => exact (kept_write text? o path text c).trans (ih _)

end Workbench

/-! ## The units of a build -/

namespace Overlay

/-- The source units of a list of files through an overlay, when texts are found by `text?` and
`parses` sources were read before. -/
def resolve (o : Overlay SourceText) (text? : FilePath → Option String) :
    (parses : Nat) → List FilePath → List SourceText
  | _, [] => []
  | parses, file :: files =>
    match o.served? file, text? file with
    | some unit, _ => unit :: o.resolve text? parses files
    | none, some text => ⟨file, text, parses + 1⟩ :: o.resolve text? (parses + 1) files
    | none, none => o.resolve text? parses files

variable (o : Overlay SourceText) (text? : FilePath → Option String)

/-- The number of files of a list whose units are served again. -/
def hits (files : List FilePath) : Nat := files.countP fun file ↦ (o.served? file).isSome

/-- Whether a file is read: it has a text, and no unit of it is served again. -/
def isRead (file : FilePath) : Bool := (o.served? file).isNone && (text? file).isSome

/-- The number of files of a list that are read. -/
def reads (files : List FilePath) : Nat := files.countP (o.isRead text?)

/-- What a file contributes to the units when `parses` sources were read before it. -/
def place (parses : Nat) (file : FilePath) : Option SourceText :=
  match o.served? file, text? file with
  | some unit, _ => some unit
  | none, some text => some ⟨file, text, parses + 1⟩
  | none, none => none

/-- What the files of a list contribute, each in its place. -/
def places (parses : Nat) (files : List FilePath) : List (Option SourceText) :=
  files.mapIdx fun i file ↦ o.place text? (parses + o.reads text? (files.take i)) file

variable {o text?} {parses : Nat} {files : List FilePath}

theorem reads_cons (file : FilePath) : o.reads text? (file :: files) =
    (if o.isRead text? file then 1 else 0) + o.reads text? files := by
  rw [reads, List.countP_cons, Nat.add_comm]
  rfl

theorem hits_cons (file : FilePath) :
    o.hits (file :: files) = (if (o.served? file).isSome then 1 else 0) + o.hits files := by
  rw [hits, List.countP_cons, Nat.add_comm]
  rfl

theorem places_cons (file : FilePath) : o.places text? parses (file :: files) =
    o.place text? parses file ::
      o.places text? (parses + if o.isRead text? file then 1 else 0) files := by
  rw [places, List.mapIdx_cons, List.take_zero]
  refine congrArg (_ :: ·) ?_
  simp only [places, List.take_succ_cons, reads_cons, Nat.add_assoc]

theorem getElem?_places (i : Nat) : (o.places text? parses files)[i]? =
    files[i]?.map (o.place text? (parses + o.reads text? (files.take i))) := by
  rw [places, List.getElem?_mapIdx]

/-- **The units of a list of files** are what its files contribute, in the order of the list. -/
theorem resolve_eq_places :
    o.resolve text? parses files = (o.places text? parses files).filterMap id := by
  induction files generalizing parses with
  | nil => rfl
  | cons file files ih =>
    rw [resolve, places_cons, place, isRead]
    cases hserved : o.served? file with
    | some unit => exact congrArg (unit :: ·) ih
    | none =>
      cases htext : text? file with
      | some text => exact congrArg (_ :: ·) ih
      | none => exact ih

theorem place_of_served {file : FilePath} {unit : SourceText} (h : o.served? file = some unit) :
    o.place text? parses file = some unit := by
  rw [place, h]

theorem place_of_not_served {file : FilePath} (h : o.served? file = none) :
    o.place text? parses file = (text? file).map fun text ↦ ⟨file, text, parses + 1⟩ := by
  rw [place, h]
  cases text? file <;> rfl

theorem mem_resolve_of_served {file : FilePath} {unit : SourceText} (hfile : file ∈ files)
    (h : o.served? file = some unit) : unit ∈ o.resolve text? parses files := by
  obtain ⟨i, hi, rfl⟩ := List.getElem_of_mem hfile
  rw [resolve_eq_places, List.mem_filterMap]
  exact ⟨some unit, List.mem_mapIdx.2 ⟨i, hi, place_of_served h⟩, rfl⟩

/-- A unit that is a reading made for a list of files, when `parses` sources were read before. -/
structure IsReading (o : Overlay SourceText) (text? : FilePath → Option String) (parses : Nat)
    (files : List FilePath) (unit : SourceText) : Prop where
  listed : unit.path ∈ files
  not_served : o.served? unit.path = none
  text : text? unit.path = some unit.text
  lt_serial : parses < unit.serial
  serial_le : unit.serial ≤ parses + o.reads text? files

/-- The file at a place is counted with those before it if it is read. -/
theorem reads_take_lt {i : Nat} (hi : i < files.length) (h : o.isRead text? files[i] = true) :
    o.reads text? (files.take i) + 1 ≤ o.reads text? files := by
  calc o.reads text? (files.take i) + 1
      = o.reads text? (files.take (i + 1)) := by
        rw [List.take_succ_eq_append_getElem hi, reads, reads, List.countP_append,
          List.countP_cons_of_pos h, List.countP_nil]
    _ ≤ o.reads text? files := (List.take_sublist _ _).countP_le

/-- **A unit of a list of files** is served again for one of them, or it is a reading made for
them. -/
theorem of_mem_resolve {unit : SourceText} (h : unit ∈ o.resolve text? parses files) :
    (∃ file ∈ files, o.served? file = some unit) ∨ o.IsReading text? parses files unit := by
  rw [resolve_eq_places, List.mem_filterMap] at h
  obtain ⟨_, hplace, rfl⟩ := h
  obtain ⟨i, hi, hplace⟩ := List.mem_mapIdx.1 hplace
  cases hserved : o.served? files[i] with
  | some served =>
    rw [place_of_served hserved] at hplace
    exact Or.inl ⟨files[i], List.getElem_mem hi, hserved.trans hplace⟩
  | none =>
    rw [place_of_not_served hserved] at hplace
    obtain ⟨text, htext, rfl⟩ := Option.map_eq_some_iff.1 hplace
    have hread : o.isRead text? files[i] = true := by rw [isRead, hserved, htext]; rfl
    have hcount := reads_take_lt hi hread
    exact Or.inr
      { listed := List.getElem_mem hi
        not_served := hserved
        text := htext
        lt_serial := by dsimp only; omega
        serial_le := by dsimp only; omega }

end Overlay

theorem Dialogue.run_ask {U S : Type} (host : Host U S) (path : FilePath) (s : S) :
    (ask path).run host s = host.read path s := rfl

namespace Workbench

variable {D : Type} (text? : D → FilePath → Option String) (o : Overlay SourceText)

/-- **What gathering comes to**: the units, and a count of what was served again and what was
read. -/
theorem run_gather (files : List FilePath) (c : Capture (Workbench D)) :
    (gather files).run (o.host (host text?)) c =
      (o.resolve (text? c.world.store) c.world.parses files,
        { c with
          reused := c.reused + o.hits files
          world := { c.world with
            parses := c.world.parses + o.reads (text? c.world.store) files } }) := by
  induction files generalizing c with
  | nil => rfl
  | cons file files ih =>
    rw [gather, Dialogue.run_bind, Dialogue.run_bind, Dialogue.run_ask, Dialogue.run_pure, ih,
      Overlay.resolve, Overlay.reads_cons, Overlay.hits_cons, Overlay.isRead]
    cases hserved : o.served? file with
    | some unit =>
      rw [Overlay.read_of_served hserved]
      simp [Nat.add_assoc]
    | none =>
      rw [Overlay.read_of_not_served hserved]
      cases htext : text? c.world.store file with
      | some text =>
        rw [read_of_text htext]
        simp [Nat.add_assoc]
      | none =>
        rw [read_of_no_text htext]
        simp

end Workbench

end Coalesce
