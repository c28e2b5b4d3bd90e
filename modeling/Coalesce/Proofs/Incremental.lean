import Coalesce.Proofs.Capture
import Coalesce.Proofs.Emission
import Mathlib.Data.List.Forall2

/-!
# Serving units again changes nothing

A pass over a project in memory builds its program partly from units of the program before. If the
units that it serves again say what is on the disk, the program says the same as one that is built
with nothing to serve, and what is written is the same: paths, order and texts. Only the numbers of
readings differ, which outputs mention where they have notes on other sources.

While the program is built a unit counts by its `content`, its path and its text. While output is
written only texts count: through an overlay that serves what is on the disk (`Overlay.Agrees`) the
sources say what they say on the disk, so every output is the same text with the same notes
(`OutputStyle.Says`), and two of these are `Alike`.
-/

namespace Coalesce

/-! ## Contents -/

/-- What a source unit says, whichever reading it is of. -/
def SourceText.content (unit : SourceText) : FilePath × String := (unit.path, unit.text)

/-- What the units of a program say. -/
def Program.contents (program : Program) : List (FilePath × String) :=
  program.units.map SourceText.content

/-- What the sources among some paths say. -/
def Memory.contents (m : Memory) (files : List FilePath) : List (FilePath × String) :=
  files.filterMap fun file ↦ (m.text? file).map fun text ↦ (file, text)

theorem Memory.text?_of_mem_contents {m : Memory} {files : List FilePath} {file : FilePath}
    {text : String} (h : (file, text) ∈ m.contents files) : m.text? file = some text := by
  obtain ⟨file', -, h⟩ := List.mem_filterMap.1 h
  obtain ⟨text', htext, h⟩ := Option.map_eq_some_iff.1 h
  cases h
  exact htext

theorem Program.mem_contents_of_find? {program : Program} {path : FilePath} {unit : SourceText}
    (h : program.find? path = some unit) :
    unit.content ∈ program.contents ∧ unit.path.same path = true :=
  (of_find? h).imp_left List.mem_map_of_mem

/-- If everything that is served again is what would be read, the units say what is on the disk. -/
theorem Overlay.map_content_resolve {o : Overlay SourceText} {m : Memory} {files : List FilePath}
    (h : ∀ file ∈ files, ∀ unit, o.served? file = some unit →
      unit.path = file ∧ m.text? file = some unit.text) (parses : Nat) :
    (o.resolve m.text? parses files).map SourceText.content = m.contents files := by
  induction files generalizing parses with
  | nil => rfl
  | cons file files ih =>
    have hrest := ih fun f hf ↦ h f (List.mem_cons_of_mem file hf)
    rw [resolve, Memory.contents, List.filterMap_cons]
    cases hserved : o.served? file with
    | some unit =>
      obtain ⟨hpath, htext⟩ := h file List.mem_cons_self unit hserved
      rw [htext]
      have hcontent : unit.content = (file, unit.text) := by rw [SourceText.content, hpath]
      simp only [Option.map_some, List.map_cons, hcontent, hrest]
      rfl
    | none =>
      cases htext : m.text? file with
      | some text =>
        simp only [Option.map_some, List.map_cons, hrest]
        rfl
      | none => exact hrest parses

/-! ## Outputs -/

namespace Workbench.OutputStyle

/-- Outputs that are the same but for the numbers of readings in their notes. -/
def Alike : OutputStyle → String → String → Prop
  | plain, a, b => a = b
  | annotated, a, b => ∃ output readings readings',
      readings.map (Option.map SourceText.text) = readings'.map (Option.map SourceText.text) ∧
        a = annotate output readings ∧ b = annotate output readings'

theorem Alike.refl (style : OutputStyle) (a : String) : style.Alike a a := by
  cases style with
  | plain => rfl
  | annotated => exact ⟨a, [], [], rfl, rfl, rfl⟩

theorem isSome_output_congr (style : OutputStyle) {unit unit' : SourceText}
    (h : unit.path = unit'.path) : (style.output unit).isSome = (style.output unit').isSome := by
  cases style with
  | plain => rw [output, namedOutput, namedOutput, Option.isSome_map, Option.isSome_map, h]
  | annotated => rfl

/-- Outputs of units with one content are alike. -/
theorem Says.alike {style : OutputStyle} {text? : FilePath → Option String}
    {unit unit' : SourceText} {a b : String} (ha : style.Says text? unit a)
    (hb : style.Says text? unit' b) (h : unit.content = unit'.content) : style.Alike a b := by
  obtain ⟨path, text, serial⟩ := unit
  obtain ⟨path', text', serial'⟩ := unit'
  obtain ⟨rfl, rfl⟩ := Prod.mk.inj h
  obtain ⟨readings, hreadings, rfl⟩ := ha
  obtain ⟨readings', hreadings', rfl⟩ := hb
  cases style with
  | plain =>
    -- Plain outputs have no notes that could differ.
    rw [List.map_eq_nil_iff.1 hreadings, List.map_eq_nil_iff.1 hreadings']
    rfl
  | annotated => exact ⟨_, readings, readings', hreadings.trans hreadings'.symm, rfl, rfl⟩

end Workbench.OutputStyle

/-- An overlay that serves nothing but what is on the disk. -/
def Overlay.Agrees (o : Overlay SourceText) (text? : FilePath → Option String) : Prop :=
  ∀ path unit, o.served? path = some unit → text? path = some unit.text

theorem Overlay.seen_of_agrees {o : Overlay SourceText} {text? : FilePath → Option String}
    (h : o.Agrees text?) : o.seen text? = text? := by
  funext path
  rw [seen]
  cases hserved : o.served? path with
  | some unit => exact (h path unit hserved).symm
  | none => rfl

/-- Texts written to the same paths in the same order, each like the other but for the numbers of
readings. -/
abbrev Writes.Alike (style : Workbench.OutputStyle) (ws vs : Writes) : Prop :=
  List.Forall₂ (fun w v ↦ w.1 = v.1 ∧ style.Alike w.2 v.2) ws vs

/-- Programs that say the same and are written to the same places. -/
structure Program.Agrees (p q : Program) : Prop where
  contents : p.contents = q.contents
  outDir : p.outDir = q.outDir
  sourceMap : p.sourceMap = q.sourceMap

/-- Such programs place what is alike in the same way. -/
theorem Program.Agrees.alike_placed {p q : Program} (h : p.Agrees q)
    {style : Workbench.OutputStyle} {unit unit' : SourceText} {a b : String}
    (hpath : unit.path = unit'.path) (hab : style.Alike a b) :
    Writes.Alike style (p.placed (unit, a)) (q.placed (unit', b)) := by
  have hstem : unit.stem = unit'.stem := by rw [SourceText.stem, SourceText.stem, hpath]
  have houtput : p.outputPath unit = q.outputPath unit' := by
    rw [outputPath, outputPath, h.outDir, hstem]
  have hmapped : p.mapped unit = q.mapped unit' := by
    rw [mapped, mapped, mapPath, mapPath, h.outDir, h.sourceMap, hstem]
  refine List.Forall₂.cons ⟨houtput, hab⟩ ?_
  rw [hmapped]
  exact List.forall₂_same.2 fun w _ ↦ ⟨rfl, .refl style w.2⟩

namespace Workbench

/-! Two overlays that agree with one disk, and states of what they keep track of. -/

variable {D : Type} {text? : D → FilePath → Option String} {disk : FilePath → Option String}
  {o o' : Overlay SourceText} {c c' : Capture (Workbench D)} {p q : Program}

theorem alike_emitUnit {style : OutputStyle} (ho : o.Agrees disk) (ho' : o'.Agrees disk)
    (hc : text? c.world.store = disk) (hc' : text? c'.world.store = disk) (hpq : p.Agrees q)
    {unit unit' : SourceText} (h : unit.content = unit'.content)
    {output output' : Dialogue SourceText String} (houtput : style.output unit = some output)
    (houtput' : style.output unit' = some output') :
    Writes.Alike style ((emitUnit output p unit).writes (o.host (host text?)) c)
      ((emitUnit output' q unit').writes (o'.host (host text?)) c') := by
  have hsays := says_output text? o houtput c
  have hsays' := says_output text? o' houtput' c'
  rw [hc, Overlay.seen_of_agrees ho] at hsays
  rw [hc', Overlay.seen_of_agrees ho'] at hsays'
  rw [writes_emitUnit _ _ houtput, writes_emitUnit _ _ houtput']
  exact hpq.alike_placed (congrArg Prod.fst h) <| hsays.alike hsays' h

theorem alike_emitAll (style : OutputStyle) (ho : o.Agrees disk) (ho' : o'.Agrees disk)
    (hc : text? c.world.store = disk) (hc' : text? c'.world.store = disk) (hpq : p.Agrees q)
    {units units' : List SourceText}
    (h : List.Forall₂ (fun u v ↦ u.content = v.content) units units') :
    Writes.Alike style ((emitAll style.output p units).writes (o.host (host text?)) c)
      ((emitAll style.output q units').writes (o'.host (host text?)) c') := by
  induction h generalizing c c' with
  | nil => exact List.Forall₂.nil
  | @cons unit unit' units units' hunit hunits ih =>
    have hmade := style.isSome_output_congr (congrArg Prod.fst hunit)
    rw [emitAll, emitAll]
    -- The backend breaks down over both units or over neither.
    cases houtput : style.output unit with
    | none =>
      have houtput' : style.output unit' = none := by
        rw [houtput] at hmade
        exact Option.isNone_iff_eq_none.1 (Option.isSome_eq_false_iff.1 hmade.symm)
      rw [houtput']
      exact List.Forall₂.nil
    | some output =>
      obtain ⟨output', houtput'⟩ : ∃ output', style.output unit' = some output' := by
        rw [houtput] at hmade
        exact Option.isSome_iff_exists.1 hmade.symm
      simp only [houtput', Dialogue.writes_bind]
      -- Writing one output leaves both stores alone, so both overlays agree with the disk still.
      refine List.rel_append (alike_emitUnit ho ho' hc hc' hpq hunit houtput houtput') (ih ?_ ?_)
      · rw [(kept_run text? o (emitUnit output p unit) c).store, hc]
      · rw [(kept_run text? o' (emitUnit output' q unit') c').store, hc']

/-- Programs that agree write the same where what is served agrees with the disk. -/
theorem alike_emit (style : OutputStyle) (ho : o.Agrees disk) (ho' : o'.Agrees disk)
    (hc : text? c.world.store = disk) (hc' : text? c'.world.store = disk) (hpq : p.Agrees q) :
    Writes.Alike style (((backend text? style.output).emit p).writes (o.host (host text?)) c)
      (((backend text? style.output).emit q).writes (o'.host (host text?)) c') := by
  have hunits : List.Forall₂ (fun u v ↦ u.content = v.content) p.units q.units := by
    have hcontents := hpq.contents
    rw [Program.contents, Program.contents, ← List.forall₂_eq_eq_eq, List.forall₂_map_left_iff,
      List.forall₂_map_right_iff] at hcontents
    exact hcontents
  refine alike_emitAll style ho ho' hc hc' hpq (List.rel_filter (fun u v huv ↦ ?_) hunits)
  have hpath : u.path = v.path := congrArg Prod.fst huv
  simp only [SourceText.isDeclaration, hpath]

end Workbench

/-! ## Two drivers on one disk -/

namespace Memory

variable {d : Driver World Program}

/-- Whatever the next pass may serve again says what is on the disk: a listed file that nobody asks
for and that the program has is there as it is listed, with its text. -/
def IsCurrent (d : Driver World Program) : Prop :=
  ∀ file ∈ d.world.store.configuration.files, d.session.queue.asksFor file = false →
    ∀ unit ∈ (reusable? d).bind (·.find? file),
      unit.path = file ∧ d.world.store.text? file = some unit.text

instance (d : Driver World Program) : Decidable (IsCurrent d) :=
  inferInstanceAs (Decidable (∀ file ∈ _, _ → ∀ unit ∈ (reusable? d).bind (·.find? file), _ ∧ _))

theorem contents_rebuilt (h : IsCurrent d) :
    (rebuilt d).contents = d.world.store.contents d.world.store.configuration.files := by
  refine Overlay.map_content_resolve (fun file hfile unit hserved ↦ ?_) _
  rw [served?_overlay, Option.ite_none_left_eq_some] at hserved
  exact h file hfile (Bool.eq_false_iff.2 hserved.1) unit hserved.2

/-- A program that says what is on the disk agrees with it as an overlay. -/
theorem agrees_of_contents {m : Memory} {files fresh : List FilePath} {program : Program}
    {forwards : Bool} (h : program.contents = m.contents files) :
    Overlay.Agrees ⟨fun path ↦ (some program).bind (·.find? path), fresh, forwards⟩ m.text? := by
  intro path unit hserved
  -- The unit may be asked for under another spelling than its own.
  rw [Overlay.served?, Option.ite_none_left_eq_some] at hserved
  obtain ⟨hmem, hsame⟩ := Program.mem_contents_of_find? hserved.2
  rw [h] at hmem
  rw [text?, ← PathMap.get?_congr _ hsame]
  exact text?_of_mem_contents hmem

/-- A new driver over the sources and the settings that a driver works with, and some requests. -/
def renewed (output : Workbench.OutputRule) (settings? : Option BatchSettings)
    (root : FilePath) (targets : List Target) (d : Driver World Program) :
    Driver World Program :=
  (scene output).after
    ((scene output).start settings? root (.create d.world.store d.world.diagnostics))
    (targets.map .request)

/-- A pass that writes its output writes that of the program read off the driver, over an overlay
that agrees with the disk if the units that may be served again do. -/
theorem emission_of_isCurrent {style : Workbench.OutputStyle}
    (hemits : (scene style.output).emits d = true) (hcurrent : IsCurrent d) :
    ((scene style.output).pass d).session.program? = some (rebuilt d) ∧
      ∃ (o : Overlay SourceText) (c : Capture World), o.Agrees d.world.store.text? ∧
        text? c.world.store = d.world.store.text? ∧
        (scene style.output).emission d =
          ((scene style.output).backend.emit (rebuilt d)).writes
            (o.host (Workbench.host text?)) c := by
  obtain ⟨b, hb⟩ := Option.isSome_iff_exists.1 hemits
  obtain ⟨st, hstage, hbuild, hstop⟩ := Session.emitting?_eq_some_iff.1 hb
  have hst := stands_of_building hstage
  have hrebuilds := rebuilds_of_build hst hbuild
  constructor
  · rw [Scene.pass, (Session.shown_by_pass _ _ _ _ hstage hbuild).program?, ← hrebuilds.program]
    exact hrebuilds.program?
  · refine ⟨⟨fun path ↦ (some (rebuilt d)).bind (·.find? path), b.session.queue.sources,
      b.session.batch.writeToDisk⟩, ⟨b.world, b.session.outputs, 0⟩,
      agrees_of_contents (contents_rebuilt hcurrent), ?_, ?_⟩
    · rw [hrebuilds.store]
      rfl
    · rw [Scene.emission_of_emitting hb, Built.emission, Built.emitHost, hrebuilds.program]
      rfl

theorem isCurrent_of_no_program (h : d.session.program? = none) : IsCurrent d := by
  intro file hfile hasks unit hunit
  rw [reusable?, h, ite_self] at hunit
  cases hunit

end Memory

/-- **Incremental builds are builds from scratch.** Take any driver of a project in memory whose
next pass gets as far as writing its output, and suppose that whatever this pass may serve again
says what is on the disk. A new driver over the same sources and settings, whatever it is asked for,
then gets as far, builds a program with the same units, and writes the same texts to the same paths
in the same order, numbers of readings aside. -/
theorem incremental_eq_from_scratch (style : Workbench.OutputStyle)
    (d : Driver Memory.World Program) (settings? : Option BatchSettings) (root : FilePath)
    (targets : List Target) (hemits : (Memory.scene style.output).emits d = true)
    (hcurrent : Memory.IsCurrent d) :
    let scene := Memory.scene style.output
    let new := Memory.renewed style.output settings? root targets d
    scene.emits new = true ∧
      ∃ p q, (scene.pass d).session.program? = some p ∧
        (scene.pass new).session.program? = some q ∧ p.contents = q.contents ∧
        Writes.Alike style (scene.emission d) (scene.emission new) := by
  intro scene new
  have hnew := scene.after_requests
    (scene.start settings? root (.create d.world.store d.world.diagnostics)) targets
  have hworld : new.world = .create d.world.store d.world.diagnostics := hnew.1
  have hcurrent' : Memory.IsCurrent new := Memory.isCurrent_of_no_program hnew.2
  have hstore : new.world.store = d.world.store := by rw [hworld]; rfl
  have hemits' : scene.emits new = true := by
    obtain ⟨hbuilding, -, hstop⟩ := Memory.isSome_emitting?_iff.1 hemits
    refine Memory.isSome_emitting?_iff.2 ⟨?_, by rw [hworld]; rfl, ?_⟩
    · rw [Memory.isSome_building?_iff, hstore]
      exact Memory.isSome_building?_iff.1 hbuilding
    · rw [hworld]
      exact hstop
  obtain ⟨hp, o, c, ho, hc, hemission⟩ := Memory.emission_of_isCurrent hemits hcurrent
  obtain ⟨hq, o', c', ho', hc', hemission'⟩ := Memory.emission_of_isCurrent hemits' hcurrent'
  rw [hstore] at ho' hc'
  have hcontents : (Memory.rebuilt d).contents = (Memory.rebuilt new).contents := by
    rw [Memory.contents_rebuilt hcurrent, Memory.contents_rebuilt hcurrent', hstore]
  have hagrees : (Memory.rebuilt d).Agrees (Memory.rebuilt new) :=
    { contents := hcontents
      outDir := by rw [Memory.rebuilt, Memory.rebuilt, hstore]
      sourceMap := by rw [Memory.rebuilt, Memory.rebuilt, hstore] }
  refine ⟨hemits', _, _, hp, hq, hcontents, ?_⟩
  rw [hemission, hemission']
  exact Workbench.alike_emit style ho ho' hc hc' hagrees

/-- A history of the sample project: all is delivered once, then a source changes so that it names
another one, and somebody asks for it. -/
def Sample.edited : List (Step Memory.Happening) := [
  .request (target "a"), .pass,
  .outside (.edit (locate "src/a.ts") "//@read /p/src/b.ts\nexport const a: number = 2;"),
  .request (target "a")]

/-- The next pass of this history serves `b` again, and a new driver that is asked for `b` reads it
twice: once to build and once for the note on it. -/
theorem incremental_eq_from_scratch_edited :
    let scene := Memory.scene Workbench.OutputStyle.annotated.output
    let d := scene.after (scene.start none Sample.root Sample.workbench) Sample.edited
    let new := Memory.renewed Workbench.OutputStyle.annotated.output none Sample.root
      [Sample.target "b"] d
    scene.emits d = true ∧ Memory.IsCurrent d ∧
      Writes.Alike .annotated (scene.emission d) (scene.emission new) := by
  intro scene d new
  have hemits : scene.emits d = true := by decide +kernel
  have hcurrent : Memory.IsCurrent d := by decide +kernel
  obtain ⟨-, p, q, -, -, -, halike⟩ := incremental_eq_from_scratch .annotated d none Sample.root
    [Sample.target "b"] hemits hcurrent
  exact ⟨hemits, hcurrent, halike⟩

end Coalesce
