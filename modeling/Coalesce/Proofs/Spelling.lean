import Coalesce.FilePath.Suffix
import Coalesce.Proofs.Capture
import Coalesce.Proofs.InMemory
import Coalesce.Workbench.Sample

/-!
# Requests for one file in several spellings

Targets are the same if both their paths lead the same way, however they are spelled. The program of
a pass and the captured outputs are searched by path, so two requesters of one file get the same
source unit and the same output. The source map is searched for at a path that is made from the text
of the output path, and there the spelling comes in: what is one path may be two with a suffix
behind it. By `FilePath.same_withSuffix_iff` this happens just if the suffix goes on with the last
segment of the path and the two spellings do not agree in that segment, as `dist/a.js` and
`dist/a.js/` do not. Doubled slashes and dots further up do no harm.
-/

namespace Coalesce

variable {W U P E : Type}

/-! ## Looking up by path -/

theorem Target.same_iff {t t' : Target} : t.same t' = true ↔
    t.output.same t'.output = true ∧ t.source.same t'.source = true := by
  rw [Target.same, Bool.and_eq_true]

/-- Two paths under which the same is found in every map are the same. -/
theorem PathMap.forall_get?_eq_iff {p q : FilePath} :
    (∀ m : PathMap String, m.get? p = m.get? q) ↔ p.same q = true := by
  constructor
  · intro h
    have hfound := h (PathMap.empty.insert p "")
    rw [get?_insert_self, get?_insert, get?_empty] at hfound
    by_contra hdiffer
    rw [if_neg hdiffer] at hfound
    cases hfound
  · exact fun h m ↦ m.get?_congr h

namespace Backend

/-- The units of a program are found by path, in whatever spelling. -/
def FindsByPath (backend : Backend W U P) : Prop :=
  ∀ (program : P) (p q : FilePath), p.same q = true →
    backend.find? program p = backend.find? program q

theorem findsByPath_workbench {D : Type} (text? : D → FilePath → Option String)
    (output : Workbench.OutputRule) :
    (Workbench.backend text? output).FindsByPath := by
  intro program p q h
  have hunit : ∀ unit : SourceText, unit.path.same p = unit.path.same q := by
    intro unit
    rw [FilePath.same_comm, FilePath.same_congr h, FilePath.same_comm]
  have hfind : program.find? p = program.find? q := by
    simp only [Program.find?, hunit]
  exact hfind

variable (backend : Backend W U P) (settings : BatchSettings) {t t' : Target}

/-- The artifacts for two spellings of a target differ in the source map at most. -/
theorem artifact_eq_iff (h : t.same t' = true) (table : Outputs) (unit : U) :
    backend.artifact table settings t unit = backend.artifact table settings t' unit ↔
      table.get? (settings.sourceMapOf t.output) = table.get? (settings.sourceMapOf t'.output) := by
  have houtput := table.get?_congr (Target.same_iff.1 h).1
  rw [artifact, artifact, Artifact.mk.injEq, houtput]
  simp only [true_and, and_true]

/-- Whatever is captured, there is one artifact for two spellings of a target just if there is one
source map for them. -/
theorem forall_artifact_eq_iff (h : t.same t' = true) (unit : U) :
    (∀ table : Outputs,
        backend.artifact table settings t unit = backend.artifact table settings t' unit) ↔
      settings.mapSuffix.toList.head?.all (· == '/') = true ∨
        t.output.ending? = t'.output.ending? := by
  rw [← FilePath.same_withSuffix_iff (Target.same_iff.1 h).1, ← PathMap.forall_get?_eq_iff]
  exact forall_congr' fun table ↦ backend.artifact_eq_iff settings h table unit

end Backend

/-! ## Deliveries to one target -/

/-- **Equal requests get equal artifacts**, but for source maps of oddly spelled outputs. Take any
pass of a backend that finds units by path, and two requests for the same target that it delivers
artifacts for. Both get the same source unit, the same output and the same word on whether the file
only declares. Both get the same source map, whatever the settings are and whatever is captured,
just if the suffix of source maps is empty or begins with a slash, or the two output paths end in
the same segment; so the artifacts are equal then. -/
theorem equal_requests_equal_artifacts_iff (scene : Scene W U P E)
    (hfinds : scene.backend.FindsByPath) (d : Driver W P) (r r' : Request) (a a' : Artifact U) :
    let pass := scene.pass d
    let batch := pass.session.batch
    let table := pass.session.outputs
    let together := batch.mapSuffix.toList.head?.all (· == '/') = true ∨
      r.target.output.ending? = r'.target.output.ending?
    (r, a) ∈ pass.journal.deliveries → (r', a') ∈ pass.journal.deliveries →
    r.target.same r'.target = true →
      a.isDeclaration = a'.isDeclaration ∧ a.output? = a'.output? ∧ a.unit = a'.unit ∧
        a = scene.backend.artifact table batch r.target a.unit ∧
        a' = scene.backend.artifact table batch r'.target a'.unit ∧
        ((∀ table : Outputs, scene.backend.artifact table batch r.target a.unit =
          scene.backend.artifact table batch r'.target a'.unit) ↔ together) ∧
        (together → a = a') := by
  intro pass batch table together h h' hsame
  obtain ⟨st, b, hdelivers⟩ := Scene.exists_delivers h
  obtain ⟨st', b', hdelivers'⟩ := Scene.exists_delivers h'
  -- One pass emits one program, and both sources are found in it.
  have hunit : a.unit = a'.unit := by
    have hb : b = b' := Option.some_inj.1 (hdelivers.emitting.symm.trans hdelivers'.emitting)
    have hfound := hfinds b.program _ _ (Target.same_iff.1 hsame).2
    rw [hdelivers.unit, hb, hdelivers'.unit] at hfound
    exact Option.some_inj.1 hfound
  have ha : a = scene.backend.artifact table batch r.target a.unit := hdelivers.artifact
  have ha' : a' = scene.backend.artifact table batch r'.target a'.unit := hdelivers'.artifact
  rw [← hunit] at ha' ⊢
  have hdeclaration : a.isDeclaration = a'.isDeclaration := by
    rw [ha, ha']
    rfl
  have houtput : a.output? = a'.output? := by
    rw [ha, ha']
    exact table.get?_congr (Target.same_iff.1 hsame).1
  have hiff := scene.backend.forall_artifact_eq_iff batch hsame a.unit
  refine ⟨hdeclaration, houtput, rfl, ha, ha', hiff, fun htogether ↦ ?_⟩
  exact ha.trans ((hiff.2 htogether table).trans ha'.symm)

/-- A history of the sample project in which two requesters ask for the output of `a`, the second
one in a spelling of its own. -/
def Sample.askedAs (output : FilePath) : List (Step Memory.Happening) := [
  .request (target "a"), .request ⟨output, locate "src//a.ts"⟩]

/-- Inner dots and doubled slashes in an output path change nothing. -/
theorem equal_requests_equal_artifacts_dotted :
    let scene := Memory.scene Workbench.annotatedOutput
    let output : FilePath := ⟨"/p//dist/./a.js"⟩
    let d := scene.after (scene.start none Sample.root Sample.workbench) (Sample.askedAs output)
    let target : Target := ⟨output, Sample.locate "src//a.ts"⟩
    ∃ a a', (⟨0, Sample.target "a"⟩, a) ∈ (scene.pass d).journal.deliveries ∧
      (⟨1, target⟩, a') ∈ (scene.pass d).journal.deliveries ∧
      (Sample.target "a").same target = true ∧ a = a' := by
  intro scene output d target
  obtain ⟨h, h', hsame, htogether⟩ :
      (⟨0, Sample.target "a"⟩, Sample.firstOutput "export const a: number = 1;" 1) ∈
          (scene.pass d).journal.deliveries ∧
        (⟨1, target⟩, Sample.firstOutput "export const a: number = 1;" 1) ∈
          (scene.pass d).journal.deliveries ∧
        (Sample.target "a").same target = true ∧
        (Sample.target "a").output.ending? = output.ending? := by decide +kernel
  obtain ⟨-, -, -, -, -, -, hequal⟩ := equal_requests_equal_artifacts_iff scene
    (Backend.findsByPath_workbench _ _) d _ _ _ _ h h' hsame
  exact ⟨_, _, h, h', hsame, hequal (Or.inr htogether)⟩

/-- With a slash at its end the same output path has no source map. -/
theorem source_map_lost_slashed :
    let scene := Memory.scene Workbench.annotatedOutput
    let output : FilePath := ⟨"/p/dist/a.js/"⟩
    let d := scene.after (scene.start none Sample.root Sample.workbench) (Sample.askedAs output)
    let target : Target := ⟨output, Sample.locate "src//a.ts"⟩
    let a := Sample.firstOutput "export const a: number = 1;" 1
    (⟨0, Sample.target "a"⟩, a) ∈ (scene.pass d).journal.deliveries ∧
      (⟨1, target⟩, { a with map? := none }) ∈ (scene.pass d).journal.deliveries ∧
      (Sample.target "a").same target = true ∧ a ≠ { a with map? := none } := by
  decide +kernel

end Coalesce
