import Coalesce.Proofs.Capture
import Mathlib.Data.List.Dedup
import Mathlib.Data.List.Perm.Basic

/-!
# The last writes

Captured outputs are looked up by path, and a path counts however it is spelled. What a list of
writes leaves behind in an empty map is therefore settled by the list alone: a path has the text of
the last write to it, or none if there is no such write, and the map is as large as there are
different paths in the list (`PathMap.Keeps`).

A build in memory reads and never writes. So all that such a history captures is the output of those
of its passes that get that far, whatever becomes of the other passes, of the directory for output
and of the option for source maps in between.
-/

namespace Coalesce

/-! ## The last write to a path -/

namespace Writes

/-- A list of writes in which a text is the last one written to a path. -/
def EndsIn (ws : Writes) (path : FilePath) (text : String) : Prop :=
  ∃ before q behind, ws = before ++ (q, text) :: behind ∧ q.same path = true ∧ ¬reach behind path

variable {path : FilePath} {ws : Writes} {text : String}

theorem endsIn_of_rest {w : FilePath × String} (h : EndsIn ws path text) :
    EndsIn (w :: ws) path text := by
  obtain ⟨before, q, behind, rfl, hsame, hlast⟩ := h
  exact ⟨w :: before, q, behind, rfl, hsame, hlast⟩

/-- What is found last is what was written last. -/
theorem last?_eq_some_iff : ws.last? path = some text ↔ ws.EndsIn path text := by
  constructor
  · intro h
    induction ws with
    | nil => cases h
    | cons w ws ih =>
      rw [last?, Option.or_eq_some_iff] at h
      rcases h with h | ⟨hrest, hfirst⟩
      · exact endsIn_of_rest (ih h)
      · rw [Option.ite_none_right_eq_some, Option.some_inj] at hfirst
        obtain ⟨hsame, rfl⟩ := hfirst
        exact ⟨[], w.1, ws, rfl, hsame, last?_eq_none_iff.1 hrest⟩
  · rintro ⟨before, q, behind, rfl, hsame, hlast⟩
    rw [last?_append, last?, last?_eq_none_iff.2 hlast, if_pos hsame]
    rfl

end Writes

/-! ## What a list of writes leaves behind -/

namespace PathMap

variable {α : Type}

/-- The paths that have a value, in the order in which they first came. -/
def paths (m : PathMap α) : List (List Component) := m.entries.map fun entry ↦ entry.1.components

theorem length_paths (m : PathMap α) : m.paths.length = m.size := List.length_map _

theorem map_components_store (p : FilePath) (value : α) (entries : List (FilePath × α)) :
    (store p value entries).map (fun entry ↦ entry.1.components) =
      if p.components ∈ entries.map fun entry ↦ entry.1.components then
        entries.map fun entry ↦ entry.1.components
      else entries.map (fun entry ↦ entry.1.components) ++ [p.components] := by
  induction entries with
  | nil => rfl
  | cons entry rest ih =>
    obtain ⟨q, old⟩ := entry
    rw [store, List.map_cons]
    by_cases hsame : q.same p
    · have hfirst : p.components = q.components := (FilePath.same_iff.1 hsame).symm
      rw [if_pos hsame, if_pos (hfirst ▸ List.mem_cons_self), List.map_cons]
    · have hfirst : p.components ≠ q.components := fun h ↦ hsame (FilePath.same_iff.2 h.symm)
      rw [if_neg hsame, List.map_cons, ih]
      simp only [List.mem_cons, hfirst, false_or, List.cons_append]
      split <;> rfl

theorem paths_insert (m : PathMap α) (p : FilePath) (value : α) :
    (m.insert p value).paths =
      if p.components ∈ m.paths then m.paths else m.paths ++ [p.components] :=
  map_components_store p value m.entries

theorem nodup_paths_insert {m : PathMap α} (h : m.paths.Nodup) (p : FilePath) (value : α) :
    (m.insert p value).paths.Nodup := by
  rw [paths_insert]
  by_cases hp : p.components ∈ m.paths
  · rwa [if_pos hp]
  · rw [if_neg hp, List.nodup_append_comm]
    exact List.nodup_cons.2 ⟨hp, h⟩

theorem mem_paths_insert {m : PathMap α} {p : FilePath} {value : α} {cs : List Component} :
    cs ∈ (m.insert p value).paths ↔ cs = p.components ∨ cs ∈ m.paths := by
  rw [paths_insert]
  split
  next hp =>
    constructor
    · exact Or.inr
    · rintro (rfl | h)
      · exact hp
      · exact h
  next => rw [List.mem_append, List.mem_singleton, or_comm]

/-- What is left of a list of pairs stored in a map has their paths beside those of the map. -/
theorem paths_insertAll {m : PathMap α} (h : m.paths.Nodup) (pairs : List (FilePath × α)) :
    (m.insertAll pairs).paths.Nodup ∧
      ∀ cs, cs ∈ (m.insertAll pairs).paths ↔
        cs ∈ (pairs.map fun pair ↦ pair.1.components) ∨ cs ∈ m.paths := by
  induction pairs generalizing m with
  | nil => exact ⟨h, fun cs ↦ by simp⟩
  | cons pair pairs ih =>
    obtain ⟨hnodup, hmem⟩ := ih (nodup_paths_insert h pair.1 pair.2)
    refine ⟨hnodup, fun cs ↦ ?_⟩
    rw [insertAll, List.foldl_cons, ← insertAll, hmem, mem_paths_insert, List.map_cons,
      List.mem_cons, or_left_comm, or_assoc]

/-- A map that is what a list of writes has left behind. -/
structure Keeps (m : PathMap String) (ws : Writes) : Prop where
  found : ∀ path text, m.get? path = some text ↔ ws.EndsIn path text
  missing : ∀ path, m.get? path = none ↔ ¬ws.reach path
  size : m.size = (ws.map fun w ↦ w.1.components).dedup.length

/-- **A list of writes leaves the last ones behind.** -/
theorem keeps_insertAll (ws : Writes) : (empty.insertAll ws).Keeps ws where
  found path text := by
    rw [get?_insertAll, get?_empty, Option.or_none, Writes.last?_eq_some_iff]
  missing path := by
    rw [get?_insertAll, get?_empty, Option.or_none, Writes.last?_eq_none_iff]
  size := by
    obtain ⟨hnodup, hmem⟩ := paths_insertAll (m := (empty : PathMap String)) List.nodup_nil ws
    rw [← length_paths]
    -- Neither list has a path twice, so it is enough that they have the same ones.
    apply List.Perm.length_eq
    rw [List.perm_ext_iff_of_nodup hnodup (List.nodup_dedup _)]
    intro cs
    rw [hmem, List.mem_dedup]
    exact or_iff_left List.not_mem_nil

end PathMap

/-! ## What a history in memory captures -/

namespace Workbench

variable {D : Type}

theorem writes_gather {S : Type} (host : Host SourceText S) (files : List FilePath) (s : S) :
    (gather files).writes host s = [] := by
  induction files generalizing s with
  | nil => rfl
  | cons file files ih =>
    rw [gather, Dialogue.writes_bind, Dialogue.writes_bind, ih]
    rfl

/-- A program is built without writing anything. -/
theorem buildWrites_eq_nil (text? : D → FilePath → Option String)
    (output : Workbench.OutputRule) (st : Stage (Workbench D) Program) :
    st.buildWrites (backend text? output) = [] := by
  have hbuild : (backend text? output).build st.config.files st.config.options st.world =
      (if st.world.isFaulty then none else some (program st.config.files st.config.options),
        { st.world with programs := st.world.programs + 1, isFaulty := false }) := rfl
  rw [Stage.buildWrites, hbuild]
  cases st.world.isFaulty with
  | true => rfl
  | false =>
    simp only [Bool.false_eq_true, if_false, program, Dialogue.writes_bind, writes_gather,
      Dialogue.writes_pure, List.append_nil]

end Workbench

namespace Scene

variable {W U P E : Type} (scene : Scene W U P E)

/-- The output that the passes of a history write. -/
def emissions (d : Driver W P) (steps : List (Step E)) : Writes :=
  (scene.passes d steps).flatMap scene.emission

end Scene

namespace Memory

variable (output : Workbench.OutputRule)

theorem buildWrites_eq_nil (d : Driver World Program) : (scene output).buildWrites d = [] := by
  rw [Scene.buildWrites]
  split
  next st _ => exact Workbench.buildWrites_eq_nil text? output st
  next => rfl

theorem captured_eq_emissions (d : Driver World Program) (steps : List (Step Happening)) :
    (scene output).captured d steps = (scene output).emissions d steps := by
  rw [Scene.captured, Scene.emissions]
  simp only [buildWrites_eq_nil, List.nil_append]

/-- A new session in memory has behind a history and the next pass what was emitted until then. -/
theorem outputs_eq_emissions (settings? : Option BatchSettings) (root : FilePath) (w : World)
    (steps : List (Step Happening)) :
    let start := (scene output).start settings? root w
    let d := (scene output).after start steps
    let ws := (scene output).emissions start steps
    d.session.outputs = PathMap.empty.insertAll ws ∧
      ((scene output).pass d).session.outputs =
        PathMap.empty.insertAll (ws ++ (scene output).emission d) := by
  intro start d ws
  have hbefore : d.session.outputs = PathMap.empty.insertAll ws := by
    rw [Scene.outputs_after, captured_eq_emissions]
    rfl
  refine ⟨hbefore, ?_⟩
  rw [Scene.outputs_pass, hbefore, buildWrites_eq_nil, List.nil_append, PathMap.insertAll_append]

end Memory

/-- **The outputs are the last writes.** Behind any history in memory, and behind the pass that
follows, every path has the text that any pass has written there last, and no text if none has
written there; and there are as many texts as there are different paths. The texts that the pass
delivers are those behind its own emission. -/
theorem outputs_are_last_writes (output : Workbench.OutputRule)
    (settings? : Option BatchSettings) (root : FilePath) (w : Memory.World)
    (steps : List (Step Memory.Happening)) :
    let scene := Memory.scene output
    let start := scene.start settings? root w
    let d := scene.after start steps
    let ws := scene.emissions start steps
    let outputs := (scene.pass d).session.outputs
    d.session.outputs.Keeps ws ∧ outputs.Keeps (ws ++ scene.emission d) ∧
      ∀ r a, (r, a) ∈ (scene.pass d).journal.deliveries →
        a.output? = outputs.get? r.target.output ∧
          a.map? = outputs.get? ((scene.pass d).session.batch.sourceMapOf r.target.output) := by
  intro scene start d ws outputs
  obtain ⟨hbefore, hbehind⟩ : d.session.outputs = PathMap.empty.insertAll ws ∧
      outputs = PathMap.empty.insertAll (ws ++ scene.emission d) :=
    Memory.outputs_eq_emissions output settings? root w steps
  rw [hbefore, hbehind]
  refine ⟨PathMap.keeps_insertAll ws, PathMap.keeps_insertAll _, fun r a h ↦ ?_⟩
  rw [← hbehind]
  exact Scene.texts_of_delivered h

/-- A file that has moved to another directory is delivered with the text that is still at the old
place. Behind the second pass there are six texts, four of the first pass and two of the second. -/
theorem outputs_are_last_writes_moved :
    let scene := Memory.scene Workbench.annotatedOutput
    let d := scene.after (scene.start none Sample.root Sample.workbench) Sample.moved
    let a := Sample.firstOutput "export const a: number = 2;" 4
    let outputs := (scene.pass d).session.outputs
    (⟨1, Sample.target "a"⟩, a) ∈ (scene.pass d).journal.deliveries ∧
      a.output? = outputs.get? (Sample.target "a").output ∧ outputs.size = 6 := by
  have hlast := outputs_are_last_writes Workbench.annotatedOutput none Sample.root
    Sample.workbench Sample.moved
  refine ⟨?delivered, (hlast.2.2 ⟨1, Sample.target "a"⟩ _ ?delivered).1,
    hlast.2.1.size.trans ?paths⟩
  case delivered => decide +kernel
  case paths => decide +kernel

end Coalesce
