import Coalesce.Delivery
import Coalesce.Workbench.Sample

/-!
# The first missing source

Delivery goes through the requests in order until it comes to one whose source the program does not
have. Up to that point, everybody gets what there is for a request of theirs alone
(`Delivery.answerTo`); from there on, nobody's request is looked at any more. So the answers to a
list of requests are the own answers of a first stretch, put before the answers to the rest
(`Delivery.answers_append`), and how long that stretch is depends on the first missing source only.
-/

namespace Coalesce

variable {W U P : Type}

namespace Delivery

variable {artifact? : Target → Option (Artifact U)}

/-- The answer that a target gets on its own account. -/
def answerTo (artifact? : Target → Option (Artifact U)) (target : Target) : Answer U :=
  match artifact? target with
  | some artifact => .ok artifact
  | none => .error (.unknownSource target.source)

theorem answerTo_of_found {target : Target} {artifact : Artifact U}
    (h : artifact? target = some artifact) : answerTo artifact? target = .ok artifact := by
  rw [answerTo, h]

/-- Requests that can all be served get their own answers, and those behind them what they would get
without them, but for the number. -/
theorem answers_append {served : List Request} (h : ∀ r ∈ served, (artifact? r.target).isSome)
    (rest : List Request) :
    answers artifact? (served ++ rest) =
      (served.map (fun r ↦ .answer r (answerTo artifact? r.target)) ++ (answers artifact? rest).1,
        (answers artifact? rest).2.map (· + served.length)) := by
  induction served with
  | nil => exact Prod.ext rfl (congrFun Except.map_id _).symm
  | cons r served ih =>
    obtain ⟨artifact, hr⟩ := Option.isSome_iff_exists.1 (h r List.mem_cons_self)
    have hserved := ih fun r' hr' ↦ h r' (List.mem_cons_of_mem r hr')
    rw [List.cons_append, answers, hr, hserved, List.map_cons, answerTo_of_found hr]
    apply Prod.ext
    · rfl
    · cases (answers artifact? rest).2 <;> rfl

theorem answers_cons_of_missing {r : Request} (h : artifact? r.target = none)
    (rest : List Request) :
    answers artifact? (r :: rest) =
      (.answer r (.error (.unknownSource r.target.source)) ::
          refusals rest (.behindUnknown r.target.source),
        .error r.target.source) := by
  rw [answers, h]

end Delivery

namespace Backend

variable (backend : Backend W U P) (program : P) (outputs : PathMap String)
  (settings : BatchSettings) (target : Target)

/-- Whether a program lacks the source of a target. -/
def lacks : Bool := (backend.find? program target.source).isNone

/-- What a program and the captured outputs have for a target. -/
def artifact? : Option (Artifact U) :=
  (backend.find? program target.source).map (backend.artifact outputs settings target)

/-- An answer with what belongs to a target: the unit of its source, and the texts at its output
path and at the path of its source map. -/
def Serves (answer : Answer U) : Prop :=
  ∃ unit, backend.find? program target.source = some unit ∧
    answer = .ok
      { isDeclaration := backend.isDeclaration unit
        output? := outputs.get? target.output
        map? := outputs.get? (settings.sourceMapOf target.output)
        unit := unit }

variable {backend program target}

theorem isSome_artifact? (h : backend.lacks program target = false) :
    (backend.artifact? program outputs settings target).isSome := by
  rw [lacks, Option.isNone_eq_false_iff] at h
  rwa [artifact?, Option.isSome_map]

theorem artifact?_of_lacks (h : backend.lacks program target = true) :
    backend.artifact? program outputs settings target = none := by
  rw [lacks, Option.isNone_iff_eq_none] at h
  rw [artifact?, h, Option.map_none]

theorem serves_answerTo (h : backend.lacks program target = false) :
    backend.Serves program outputs settings target
      (Delivery.answerTo (backend.artifact? program outputs settings) target) := by
  obtain ⟨artifact, hartifact⟩ := Option.isSome_iff_exists.1 (isSome_artifact? outputs settings h)
  obtain ⟨unit, hunit, rfl⟩ := Option.map_eq_some_iff.1 hartifact
  exact ⟨unit, hunit, Delivery.answerTo_of_found hartifact⟩

end Backend

/-- **The first missing source decides.** If the program has the sources of all requests, everybody
is served on their own account, in order. Otherwise those before the first request whose source is
missing are; this one is told that its source is missing, and all behind it are told the same
source, whatever they asked for themselves. -/
theorem first_missing_decides (backend : Backend W U P) (program : P) (outputs : PathMap String)
    (settings : BatchSettings) (requests : List Request) :
    let own := Delivery.answerTo (backend.artifact? program outputs settings)
    let delivery := backend.deliver program outputs settings requests
    match requests.findIdx? fun r ↦ backend.lacks program r.target with
    | none =>
      delivery = (requests.map fun r ↦ .answer r (own r.target), .ok requests.length) ∧
        ∀ r ∈ requests, backend.Serves program outputs settings r.target (own r.target)
    | some k => ∃ first, requests[k]? = some first ∧
      delivery =
        ((requests.take k).map (fun r ↦ .answer r (own r.target)) ++
          .answer first (.error (.unknownSource first.target.source)) ::
            Delivery.refusals (requests.drop (k + 1)) (.behindUnknown first.target.source),
          .error first.target.source) ∧
        ∀ r ∈ requests.take k, backend.Serves program outputs settings r.target (own r.target) := by
  intro own delivery
  have hdelivery : delivery =
    Delivery.answers (backend.artifact? program outputs settings) requests := rfl
  cases hfirst : requests.findIdx? fun r ↦ backend.lacks program r.target with
  | none =>
    have hfound := List.findIdx?_eq_none_iff.1 hfirst
    have hall := Delivery.answers_append
      (fun r hr ↦ Backend.isSome_artifact? outputs settings (hfound r hr)) []
    rw [List.append_nil] at hall
    refine ⟨?_, fun r hr ↦ Backend.serves_answerTo outputs settings (hfound r hr)⟩
    rw [hdelivery, hall, Delivery.answers]
    apply Prod.ext
    · exact List.append_nil _
    · exact congrArg Except.ok (Nat.zero_add _)
  | some k =>
    -- What stands before the first missing source is all there, so it can be split off.
    obtain ⟨hk, hlacks, hbefore⟩ := List.findIdx?_eq_some_iff_getElem.1 hfirst
    have hfound : ∀ r ∈ requests.take k, backend.lacks program r.target = false := by
      intro r hr
      obtain ⟨i, hi, rfl⟩ := List.mem_take_iff_getElem.1 hr
      exact Bool.eq_false_iff.2 (hbefore i (by omega))
    have hsplit : requests = requests.take k ++ requests[k] :: requests.drop (k + 1) := by
      rw [← List.drop_eq_getElem_cons hk, List.take_append_drop]
    refine ⟨requests[k], List.getElem?_eq_getElem hk, ?_,
      fun r hr ↦ Backend.serves_answerTo outputs settings (hfound r hr)⟩
    have hall := Delivery.answers_append
      (fun r hr ↦ Backend.isSome_artifact? outputs settings (hfound r hr))
      (requests[k] :: requests.drop (k + 1))
    rw [← hsplit, Delivery.answers_cons_of_missing
      (Backend.artifact?_of_lacks outputs settings hlacks)] at hall
    exact hall

/-- A program with two sources of the sample. -/
def Sample.halfBuilt : Program where
  units := [⟨locate "src/a.ts", "1", 1⟩, ⟨locate "src/b.ts", "2", 2⟩]
  outDir := locate "dist"
  sourceMap := false

/-- Requests for the sources of this program and for two others. -/
def Sample.wishes : List Request := [
  ⟨0, target "a"⟩, ⟨1, target "c"⟩, ⟨2, target "b"⟩, ⟨3, target "d"⟩]

/-- The second request is the first whose source is missing. The third is turned away although its
source is there, and the fourth hears of the second one's source and not of its own. -/
theorem first_missing_decides_second :
    let outputs := PathMap.ofList [(Sample.locate "dist/a.js", "one")]
    let a : Artifact SourceText := ⟨false, some "one", none, ⟨Sample.locate "src/a.ts", "1", 1⟩⟩
    let missing := Sample.locate "src/c.ts"
    Sample.wishes.findIdx? (fun r ↦ Sample.backend.lacks Sample.halfBuilt r.target) = some 1 ∧
      Sample.backend.deliver Sample.halfBuilt outputs .default Sample.wishes =
        ([.answer ⟨0, Sample.target "a"⟩ (.ok a),
          .answer ⟨1, Sample.target "c"⟩ (.error (.unknownSource missing)),
          .answer ⟨2, Sample.target "b"⟩ (.error (.behindUnknown missing)),
          .answer ⟨3, Sample.target "d"⟩ (.error (.behindUnknown missing))], .error missing) := by
  intro outputs a missing
  have hfirst : Sample.wishes.findIdx? (fun r ↦ Sample.backend.lacks Sample.halfBuilt r.target) =
      some 1 := by decide +kernel
  have hdecides := first_missing_decides Sample.backend Sample.halfBuilt outputs .default
    Sample.wishes
  simp only [hfirst] at hdecides
  obtain ⟨first, hget, hdelivery, hserves⟩ := hdecides
  obtain rfl := Option.some_inj.1 hget
  refine ⟨hfirst, ?_⟩
  rw [hdelivery]
  rfl

end Coalesce
