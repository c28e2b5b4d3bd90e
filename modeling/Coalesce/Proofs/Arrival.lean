import Coalesce.Proofs.Answers
import Coalesce.Proofs.Spelling

/-!
# The order of arrival

The queue of a pass is looked at in three places: the overlays read anew what somebody asks for, the
trace of the build gives the number of sources that are asked for, and in the end the requests are
answered one by one. The first two depend only on which sources are asked for
(`Queue.SameSources`), not on the order, the number or the spelling of the requests, so two passes
that begin alike but for such queues stay alike up to the answers (`Stage.build?_withQueue`,
`Built.emitted_withQueue`). The answers depend on the order only if a source is missing: the first
request for such a source has an answer of its own, and those behind it have another one than those
before it. If all sources are there, an answer is a function of the target.
-/

namespace Coalesce

variable {W U P E : Type}

/-! ## Queues -/

/-- Two queues in which the same sources are asked for, in whatever order, number and spelling. -/
def Queue.SameSources (q q' : Queue) : Prop := ∀ source, q.asksFor source = q'.asksFor source

namespace Queue.SameSources

variable {q q' q'' : Queue}

theorem symm (h : q.SameSources q') : q'.SameSources q := fun source ↦ (h source).symm

theorem trans (h : q.SameSources q') (h' : q'.SameSources q'') : q.SameSources q'' :=
  fun source ↦ (h source).trans (h' source)

theorem of_perm (h : q.requests.Perm q'.requests) : q.SameSources q' := fun _ ↦ h.any_eq

theorem push {r : Request} (h : q.asksFor r.target.source = true) : q.SameSources (q.push r) := by
  intro source
  rw [asksFor, asksFor, requests_push, List.any_append, List.any_cons, List.any_nil, Bool.or_false]
  cases hsame : r.target.source.same source with
  | false => rw [Bool.or_false]
  | true =>
    obtain ⟨r', hr', hsame'⟩ := asksFor_iff.1 h
    rw [Bool.or_true, List.any_eq_true]
    exact ⟨r', hr', (FilePath.same_congr hsame' source).trans hsame⟩

theorem length_sources (h : q.SameSources q') : q.sources.length = q'.sources.length := by
  have hasks : ∀ {q : Queue} (source : FilePath),
      (q.requests.map fun r ↦ r.target.source).any (·.same source) = q.asksFor source := by
    intro q source
    rw [List.any_map]
    rfl
  have hle : ∀ {q q' : Queue}, q.SameSources q' → q.sources.length ≤ q'.sources.length := by
    intro q q' h
    refine FilePath.length_distinct_le fun source hsource ↦ ?_
    rw [hasks] at hsource ⊢
    rw [← h, hsource]
  exact Nat.le_antisymm (hle h) (hle h.symm)

end Queue.SameSources

/-! ## Passes that begin alike but for their queues -/

/-- A host sees no more of an overlay than what it serves again and whether it forwards writes. -/
theorem Overlay.host_congr {o o' : Overlay U} (hserved : o.served? = o'.served?)
    (hforwards : o.forwards = o'.forwards) (below : Host U W) : o.host below = o'.host below := by
  simp only [host, hserved, hforwards]

namespace Session

variable {backend : Backend W U P} {project : Project W} {s : Session P} {w : W} {q : Queue}

/-- The session with other requests waiting. -/
def withQueue (s : Session P) (q : Queue) : Session P := { s with queue := q }

theorem host_overlay_withQueue (h : s.queue.SameSources q) (program? : Option P) (forwards : Bool)
    (below : Host U W) :
    ((s.withQueue q).overlay backend program? forwards).host below =
      (s.overlay backend program? forwards).host below := by
  have hserved : ((s.withQueue q).overlay backend program? forwards).served? =
      (s.overlay backend program? forwards).served? := by
    funext path
    have hfresh : ((s.withQueue q).overlay backend program? forwards).isFresh path =
        (s.overlay backend program? forwards).isFresh path :=
      (q.any_sources path).trans ((h path).symm.trans (s.queue.any_sources path).symm)
    rw [Overlay.served?, Overlay.served?, hfresh]
    rfl
  exact Overlay.host_congr hserved rfl below

end Session

/-- The stage with other requests waiting. -/
def Stage.withQueue (st : Stage W P) (q : Queue) : Stage W P :=
  { st with session := st.session.withQueue q }

/-- The stage with other requests waiting. -/
def Built.withQueue (b : Built W P) (q : Queue) : Built W P :=
  { b with session := b.session.withQueue q }

theorem Stage.build?_withQueue {backend : Backend W U P} {st : Stage W P} {q : Queue}
    (h : st.session.queue.SameSources q) :
    (st.withQueue q).build? backend = (st.build? backend).map (·.withQueue q) := by
  have hhost : (st.withQueue q).buildHost backend = st.buildHost backend :=
    Session.host_overlay_withQueue h _ _ _
  rw [build?, build?, hhost]
  cases hbuild : backend.build st.config.files st.config.options st.world with
  | mk dialogue? w =>
    have hbuild' : backend.build (st.withQueue q).config.files (st.withQueue q).config.options
        (st.withQueue q).world = (dialogue?, w) := hbuild
    rw [hbuild']
    cases dialogue? <;> rfl

theorem Built.emitted_withQueue {backend : Backend W U P} {b : Built W P} {q : Queue}
    (h : b.session.queue.SameSources q) :
    (b.withQueue q).emitted backend = b.emitted backend := by
  have hhost : (b.withQueue q).emitHost backend = b.emitHost backend :=
    Session.host_overlay_withQueue h _ _ _
  rw [emitted, hhost]
  rfl

theorem Built.isWhole_withQueue {backend : Backend W U P} {b : Built W P} {q : Queue}
    (h : b.session.queue.SameSources q) :
    (b.withQueue q).isWhole backend = b.isWhole backend := by
  have hhost : (b.withQueue q).emitHost backend = b.emitHost backend :=
    Session.host_overlay_withQueue h _ _ _
  rw [isWhole, hhost]
  rfl

/-- All that is said about a build of the queue is how many sources are asked for. -/
theorem Built.notices_withQueue {backend : Backend W U P} {b : Built W P} {q : Queue}
    (h : b.session.queue.SameSources q) :
    (b.withQueue q).notices backend = b.notices backend := by
  have hnote : (b.withQueue q).note = b.note := by
    rw [note, note, h.length_sources]
    rfl
  rw [notices, hnote]
  rfl

namespace Session

variable {backend : Backend W U P} {project : Project W} {s : Session P} {w : W} {q : Queue}

theorem stage_withQueue :
    (s.withQueue q).stage backend project w =
      (s.stage backend project w).map (·.withQueue q) := by
  have hworld : ((s.withQueue q).refresh project w).world = (s.refresh project w).world := rfl
  rw [stage, stage, hworld]
  cases project.configuration (s.refresh project w).world <;> rfl

theorem building?_withQueue :
    (s.withQueue q).building? backend project w =
      (s.building? backend project w).map (·.withQueue q) := by
  rw [building?, building?, stage_withQueue]
  cases s.stage backend project w with
  | error cause => rfl
  | ok st =>
    by_cases hhalts : Diagnostic.Halts st.config.options st.config.errors
    · have hhalts' : Diagnostic.Halts (st.withQueue q).config.options
        (st.withQueue q).config.errors := hhalts
      simp only [Except.map, if_pos hhalts, if_pos hhalts', Option.map_none]
    · have hhalts' : ¬Diagnostic.Halts (st.withQueue q).config.options
        (st.withQueue q).config.errors := hhalts
      simp only [Except.map, if_neg hhalts, if_neg hhalts', Option.map_some]

end Session

/-! ## Answers that depend on the target alone -/

/-- The answers to a queue in which everybody with the same target gets the same answer, or nobody
with that target gets any. -/
def Queue.answeredBy (q : Queue) (answer? : Target → Option (Answer U)) :
    List (Request × Answer U) :=
  q.requests.filterMap fun r ↦ (answer? r.target).map fun answer ↦ (r, answer)

theorem Queue.answeredBy_none {q : Queue} :
    (q.answeredBy fun _ ↦ none : List (Request × Answer U)) = [] :=
  List.filterMap_eq_nil_iff.2 fun _ _ ↦ rfl

theorem Delivery.answers_of_found {artifact? : Target → Option (Artifact U)}
    {requests : List Request} (h : ∀ r ∈ requests, (artifact? r.target).isSome) :
    answers artifact? requests =
      (requests.filterMap fun r ↦ (artifact? r.target).map fun a ↦ .answer r (.ok a),
        .ok requests.length) := by
  induction requests with
  | nil => rfl
  | cons r rest ih =>
    obtain ⟨a, ha⟩ := Option.isSome_iff_exists.1 (h r List.mem_cons_self)
    rw [answers, ih fun r' hr' ↦ h r' (List.mem_cons_of_mem r hr'), List.filterMap_cons_some]
    · simp only [ha]
      rfl
    · rw [ha]
      rfl

/-! ## What is logged -/

/-- The journal of a pass without its answers and without the lines for those who trace the program:
what is logged, and when the process is asked to end. -/
def Journal.logged (j : Journal U) : Journal U :=
  j.filter fun | .answer .. | .trace _ => false | _ => true

namespace Journal

@[simp] theorem logged_append (j k : Journal U) : logged (j ++ k) = j.logged ++ k.logged :=
  List.filter_append ..

/-- A journal in which nothing is done but to answer. -/
def OnlyAnswers (j : Journal U) : Prop := ∀ event ∈ j, ∃ r result, event = .answer r result

variable {j : Journal U}

theorem OnlyAnswers.logged_eq (h : j.OnlyAnswers) : j.logged = [] := by
  refine List.filter_eq_nil_iff.2 fun event hevent ↦ ?_
  obtain ⟨r, result, rfl⟩ := h event hevent
  exact Bool.false_ne_true

theorem OnlyAnswers.traces_eq (h : j.OnlyAnswers) : j.traces = [] := by
  refine List.filterMap_eq_nil_iff.2 fun event hevent ↦ ?_
  obtain ⟨r, result, rfl⟩ := h event hevent
  rfl

end Journal

namespace Delivery

theorem onlyAnswers_refusals (requests : List Request) (failure : Failure) :
    (refusals requests failure : Journal U).OnlyAnswers := by
  intro event hevent
  obtain ⟨r, -, rfl⟩ := List.mem_map.1 hevent
  exact ⟨r, _, rfl⟩

theorem onlyAnswers_answers (artifact? : Target → Option (Artifact U)) (requests : List Request) :
    (answers artifact? requests).1.OnlyAnswers := by
  induction requests with
  | nil => exact fun event hevent ↦ absurd hevent List.not_mem_nil
  | cons r rest ih =>
    rw [answers]
    cases artifact? r.target with
    | none =>
      refine List.forall_mem_cons.2 ⟨⟨r, _, rfl⟩, ?_⟩
      exact onlyAnswers_refusals rest _
    | some artifact => exact List.forall_mem_cons.2 ⟨⟨r, _, rfl⟩, ih⟩

end Delivery

/-! ## Passes that differ in whom they answer -/

/-- A verdict with another number of delivered artifacts, if there is one. -/
def Verdict.delivering (n : Nat) : Verdict → Verdict
  | .finished summary => .finished { summary with delivered := n }
  | verdict => verdict

/-- What two passes over different queues have in common, and how they answer. -/
structure Pass.SameBut (pass pass' : Pass W U P) (q q' : Queue) : Prop where
  session : pass'.session = pass.session
  world : pass'.world = pass.world
  built : pass'.built = pass.built
  logged : pass'.journal.logged = pass.journal.logged
  /-- If artifacts are delivered, everybody gets one, ... -/
  delivered : pass.verdict = pass.verdict.delivering q.length
  /-- ... and otherwise the verdicts are the same. -/
  verdict : pass'.verdict = pass.verdict.delivering q'.length
  /-- An answer depends on the target alone, whichever queue it is in. -/
  answers : ∃ answer? : Target → Option (Answer U),
    pass.journal.answers = q.answeredBy answer? ∧ pass'.journal.answers = q'.answeredBy answer?
  traces : q'.length = q.length → pass'.journal.traces = pass.journal.traces

namespace Pass

variable {pass pass' : Pass W U P} {q q' : Queue}

theorem SameBut.after {journal : Journal U} (hjournal : journal.answers = [])
    (h : pass.SameBut pass' q q') : (pass.after journal).SameBut (pass'.after journal) q q' where
  session := h.session
  world := h.world
  built := h.built
  logged := by
    rw [journal_after, journal_after, Journal.logged_append, Journal.logged_append, h.logged]
  delivered := h.delivered
  verdict := h.verdict
  answers := by
    rw [answers_after hjournal, answers_after hjournal]
    exact h.answers
  traces := by
    intro hlength
    rw [journal_after, journal_after, Journal.traces_append, Journal.traces_append,
      h.traces hlength]

theorem sameBut_abandoned (s : Session P) (w : W) (built : Bool) (failure : Failure) :
    (abandoned s w built failure : Pass W U P).SameBut (abandoned (s.withQueue q') w built failure)
      s.queue q' where
  session := rfl
  world := rfl
  built := rfl
  logged := rfl
  delivered := rfl
  verdict := rfl
  answers := ⟨fun _ ↦ none, Queue.answeredBy_none.symm, Queue.answeredBy_none.symm⟩
  traces := by
    intro hlength
    have hcounted : (s.withQueue q').queue.length = s.queue.length := hlength
    rw [abandoned, abandoned, hcounted]

theorem sameBut_refused (s : Session P) (w : W) (failure : Failure) :
    (refused s w failure : Pass W U P).SameBut (refused (s.withQueue q') w failure)
      s.queue q' := by
  have hanswers : ∀ s : Session P, (refused s w failure : Pass W U P).journal.answers =
      s.queue.answeredBy fun _ ↦ some (.error failure) := by
    intro s
    rw [Queue.answeredBy]
    exact (Delivery.answers_refusals _ _).trans (congrFun List.filterMap_eq_map.symm _)
  have hlogged : ∀ s : Session P, (refused s w failure : Pass W U P).journal.logged =
      [.error failure.message] :=
    fun s ↦ congrArg _ (Delivery.onlyAnswers_refusals s.queue.requests failure).logged_eq
  have htraces : ∀ s : Session P, (refused s w failure : Pass W U P).journal.traces = [] :=
    fun s ↦ (Delivery.onlyAnswers_refusals s.queue.requests failure).traces_eq
  exact
    { session := rfl
      world := rfl
      built := rfl
      logged := (hlogged _).trans (hlogged s).symm
      delivered := rfl
      verdict := rfl
      answers := ⟨_, hanswers s, hanswers (s.withQueue q')⟩
      traces := fun _ ↦ (htraces _).trans (htraces s).symm }

theorem sameBut_crashed (backend : Backend W U P) (st : Stage W P) :
    (st.crashed backend).SameBut ((st.withQueue q').crashed backend) st.session.queue q' where
  session := rfl
  world := rfl
  built := rfl
  logged := rfl
  delivered := rfl
  verdict := rfl
  answers := ⟨fun _ ↦ none, Queue.answeredBy_none.symm, Queue.answeredBy_none.symm⟩
  traces := fun _ ↦ rfl

end Pass

namespace Built

variable {backend : Backend W U P} {b : Built W P} {q : Queue}

/-- What a target is answered by a pass that has all sources. -/
def answer? (backend : Backend W U P) (b : Built W P) (target : Target) : Option (Answer U) :=
  (backend.find? b.program target.source).map fun unit ↦
    .ok (backend.artifact (b.emitted backend).outputs b.session.batch target unit)

theorem delivery_of_found
    (h : ∀ r ∈ b.session.queue.requests, (backend.find? b.program r.target.source).isSome) :
    (b.delivery backend).1.answers = b.session.queue.answeredBy (b.answer? backend) ∧
      (b.delivery backend).2 = .ok b.session.queue.length := by
  rw [delivery, Backend.deliver, Delivery.answers_of_found]
  · refine ⟨?_, rfl⟩
    rw [Journal.answers, List.filterMap_filterMap, Queue.answeredBy]
    refine List.filterMap_congr fun r _ ↦ ?_
    rw [answer?]
    cases backend.find? b.program r.target.source <;> rfl
  · intro r hr
    rw [Option.isSome_map]
    exact h r hr

theorem finished_of_found (invalidated : Bool)
    (h : ∀ r ∈ b.session.queue.requests, (backend.find? b.program r.target.source).isSome) :
    (b.finished backend invalidated).journal.answers =
        b.session.queue.answeredBy (b.answer? backend) ∧
      (b.finished backend invalidated).journal.logged =
        [.info (Session.buildMessage b.config.files.length)] ∧
      (b.finished backend invalidated).journal.traces = [] ∧
      (b.finished backend invalidated).verdict =
        .finished ⟨b.config.files.length, b.session.queue.length, b.reused, invalidated⟩ := by
  obtain ⟨hanswers, hresult⟩ := delivery_of_found h
  have honly : (b.delivery backend).1.OnlyAnswers := Delivery.onlyAnswers_answers _ _
  have hclosing : b.closing backend = [] := by rw [closing, hresult]
  refine ⟨by rw [answers_finished, hanswers], ?_, ?_, ?_⟩
  · rw [finished, hclosing, List.append_nil, Journal.logged_append, honly.logged_eq]
    rfl
  · rw [finished, hclosing, List.append_nil, Journal.traces_append, honly.traces_eq]
    rfl
  · rw [finished]
    simp only [hresult]

theorem sameBut_cutShort (hq : b.session.queue.SameSources q) :
    (b.cutShort backend).SameBut ((b.withQueue q).cutShort backend) b.session.queue q := by
  have hemitted : (b.withQueue q).emitted backend = b.emitted backend := emitted_withQueue hq
  exact
    { session := by
        rw [cutShort, cutShort, hemitted]
        rfl
      world := by rw [cutShort, cutShort, hemitted]
      built := rfl
      logged := rfl
      delivered := rfl
      verdict := rfl
      answers := ⟨fun _ ↦ none, Queue.answeredBy_none.symm, Queue.answeredBy_none.symm⟩
      traces := fun _ ↦ rfl }

theorem sameBut_finished (invalidated : Bool) (hq : b.session.queue.SameSources q)
    (hfinds : backend.FindsByPath)
    (hfound : ∀ r ∈ b.session.queue.requests, (backend.find? b.program r.target.source).isSome) :
    (b.finished backend invalidated).SameBut ((b.withQueue q).finished backend invalidated)
      b.session.queue q := by
  have hfound' : ∀ r ∈ q.requests, (backend.find? b.program r.target.source).isSome := by
    intro r hr
    have hasks : b.session.queue.asksFor r.target.source = true := by
      rw [hq]
      exact Queue.asksFor_iff.2 ⟨r, hr, FilePath.same_self _⟩
    obtain ⟨r', hr', hsame⟩ := Queue.asksFor_iff.1 hasks
    rw [← hfinds b.program _ _ hsame]
    exact hfound r' hr'
  have hemitted : (b.withQueue q).emitted backend = b.emitted backend := emitted_withQueue hq
  have hanswer : (b.withQueue q).answer? backend = b.answer? backend := by
    funext target
    rw [answer?, hemitted]
    rfl
  obtain ⟨hanswers, hlogged, htraces, hverdict⟩ := finished_of_found invalidated hfound
  obtain ⟨hanswers', hlogged', htraces', hverdict'⟩ :=
    finished_of_found (b := b.withQueue q) invalidated hfound'
  rw [hanswer] at hanswers'
  exact
    { session := by
        rw [finished, finished, hemitted]
        rfl
      world := by rw [finished, finished, hemitted]
      built := rfl
      logged := hlogged'.trans hlogged.symm
      delivered := by rw [hverdict]; rfl
      verdict := by rw [hverdict, hverdict']; rfl
      answers := ⟨_, hanswers, hanswers'⟩
      traces := fun _ ↦ htraces'.trans htraces.symm }

end Built

namespace Session

variable {backend : Backend W U P} {project : Project W} {s : Session P} {w : W} {q : Queue}

/-- **A pass is the same but for its answers** under a queue in which the same sources are asked
for, if the program that it emits has all of them. -/
theorem sameBut_pass (hq : s.queue.SameSources q) (hfinds : backend.FindsByPath)
    (hfound : ∀ b ∈ s.emitting? backend project w, ∀ r ∈ s.queue.requests,
      (backend.find? b.program r.target.source).isSome) :
    (s.pass backend project w).SameBut ((s.withQueue q).pass backend project w) s.queue q := by
  have hcourse := s.course_pass backend project w
  generalize s.pass backend project w = pass at hcourse ⊢
  have hopening : (s.withQueue q).opening backend project w = s.opening backend project w := rfl
  have hstage : ∀ {st}, s.stage backend project w = .ok st →
      st.session.queue = s.queue ∧
        (s.withQueue q).stage backend project w = .ok (st.withQueue q) := by
    intro st h
    refine ⟨queue_stage h, ?_⟩
    rw [stage_withQueue, h]
    rfl
  have hbuilding : ∀ {st}, s.building? backend project w = some st →
      st.session.queue = s.queue ∧
        (s.withQueue q).building? backend project w = some (st.withQueue q) := by
    intro st h
    refine ⟨queue_stage (building?_eq_some_iff.1 h).1, ?_⟩
    rw [building?_withQueue, h]
    rfl
  have hbuilt : ∀ {st : Stage W P} {b : Built W P}, st.session.queue = s.queue →
      st.build? backend = some b →
      b.session.queue = s.queue ∧ (st.withQueue q).build? backend = some (b.withQueue q) := by
    intro st b hst h
    refine ⟨(queue_build h).trans hst, ?_⟩
    rw [Stage.build?_withQueue (hst ▸ hq), h]
    rfl
  cases hcourse with
  | @unavailable cause hcause =>
    have hcause' : (s.withQueue q).stage backend project w = .error cause := by
      rw [stage_withQueue, hcause]
      rfl
    rw [pass_of_unavailable _ _ _ _ hcause', hopening]
    exact .after answers_opening (Pass.sameBut_refused (s.refresh project w).session _ _)
  | halted hst hhalts =>
    obtain ⟨hqueue, hst'⟩ := hstage hst
    rw [pass_of_halted _ _ _ _ hst' hhalts, hopening, ← hqueue]
    exact .after (by simp) (Pass.sameBut_abandoned _ _ _ _)
  | @crashed st hst hcrash =>
    obtain ⟨hqueue, hst'⟩ := hbuilding hst
    have hcrash' : (st.withQueue q).build? backend = none := by
      rw [Stage.build?_withQueue (hqueue ▸ hq), hcrash]
      rfl
    rw [pass_of_building _ _ _ _ hst', Stage.build_of_crash _ hcrash', hopening, ← hqueue]
    exact .after (by simp) (Pass.sameBut_crashed backend _)
  | diagnosed hst hbuild hstop =>
    obtain ⟨hqueue, hst'⟩ := hbuilding hst
    obtain ⟨hqueue', hbuild'⟩ := hbuilt hqueue hbuild
    rw [pass_of_diagnosed _ _ _ _ hst' hbuild' hstop, hopening,
      Built.notices_withQueue (hqueue' ▸ hq), ← hqueue']
    exact .after (by simp) (Pass.sameBut_abandoned _ _ _ _)
  | @cutShort st b hst hbuild hstop hcut =>
    obtain ⟨hqueue, hst'⟩ := hbuilding hst
    obtain ⟨hqueue', hbuild'⟩ := hbuilt hqueue hbuild
    have hcut' : (b.withQueue q).isWhole backend = false :=
      (Built.isWhole_withQueue (hqueue' ▸ hq)).trans hcut
    rw [pass_of_cut _ _ _ _ hst' hbuild' hstop hcut', hopening,
      Built.notices_withQueue (hqueue' ▸ hq), ← hqueue']
    exact .after (by simp) (Built.sameBut_cutShort (hqueue' ▸ hq))
  | @emitted st b hst hbuild hstop hwhole =>
    obtain ⟨hqueue, hst'⟩ := hbuilding hst
    obtain ⟨hqueue', hbuild'⟩ := hbuilt hqueue hbuild
    have hwhole' : (b.withQueue q).isWhole backend = true :=
      (Built.isWhole_withQueue (hqueue' ▸ hq)).trans hwhole
    have hfound' : ∀ r ∈ b.session.queue.requests,
        (backend.find? b.program r.target.source).isSome := by
      rw [hqueue']
      exact hfound b (emitting?_eq_some_iff.2 ⟨st, hst, hbuild, hstop⟩)
    rw [pass_of_emitted _ _ _ _ hst' hbuild' hstop hwhole', hopening,
      Built.notices_withQueue (hqueue' ▸ hq), ← hqueue']
    exact .after (by simp) (Built.sameBut_finished _ (hqueue' ▸ hq) hfinds hfound')

end Session

/-- The driver with other requests waiting. -/
def Driver.withQueue (d : Driver W P) (q : Queue) : Driver W P :=
  { d with session := d.session.withQueue q }

/-- **The order of arrival does not matter.** Take any pass of a backend that finds units by path,
and suppose that if the pass emits a program, all requested sources are in it. Over any queue in
which the same sources are asked for, the pass leaves the same session and the same world behind,
logs the same, ends in the same way but for the number of delivered artifacts, and answers by the
same function of the target. Over a permutation of the queue nothing but the order of the answers
changes. A queue with one more request for a source, wherever it stands, is one in which the same
sources are asked for. -/
theorem arrival_order_immaterial (scene : Scene W U P E) (hfinds : scene.backend.FindsByPath)
    (d : Driver W P)
    (hfound : ∀ b ∈ d.session.emitting? scene.backend scene.project d.world,
      ∀ r ∈ d.session.queue.requests,
        (scene.backend.find? b.program r.target.source).isSome = true) :
    let queue := d.session.queue
    let pass := scene.pass d
    let passOver : Queue → Pass W U P := fun q ↦ scene.pass (d.withQueue q)
    (∀ q, queue.SameSources q → pass.SameBut (passOver q) queue q) ∧
      (∀ q, queue.requests.Perm q.requests →
        pass.SameBut (passOver q) queue q ∧ (passOver q).verdict = pass.verdict ∧
          (passOver q).journal.traces = pass.journal.traces ∧
          pass.journal.answers.Perm (passOver q).journal.answers) ∧
      ∀ before behind r, queue.requests = before ++ behind →
        queue.asksFor r.target.source = true → queue.SameSources ⟨before ++ r :: behind⟩ := by
  intro queue pass passOver
  have hsame : ∀ q, queue.SameSources q → pass.SameBut (passOver q) queue q :=
    fun q hq ↦ Session.sameBut_pass hq hfinds hfound
  refine ⟨hsame, fun q hperm ↦ ?_, fun before behind r hsplit hasks ↦ ?_⟩
  · have h := hsame q (.of_perm hperm)
    have hlength : q.length = queue.length := hperm.length_eq.symm
    obtain ⟨answer?, hanswers, hanswers'⟩ := h.answers
    refine ⟨h, ?_, h.traces hlength, ?_⟩
    · rw [h.verdict, hlength, ← h.delivered]
    · rw [hanswers, hanswers']
      exact hperm.filterMap _
  · refine (Queue.SameSources.push hasks).trans (.of_perm ?_)
    rw [Queue.requests_push, hsplit, List.append_assoc]
    exact (List.perm_append_singleton r behind).append_left before

/-- A history of the sample project: once all is delivered, `b` changes, and somebody asks for `a`
and for `b`. -/
def Sample.askedInTurn : List (Step Memory.Happening) := [
  .request (target "a"), .pass,
  .outside (.edit (locate "src/b.ts") "export const b: string = 'c';"),
  .request (target "a"), .request (target "b")]

/-- The next pass of this history goes the same way if `b` comes first and is asked for once more in
another spelling, but then it delivers three artifacts and not two. -/
theorem arrival_order_immaterial_swapped :
    let scene := Memory.scene Workbench.annotatedOutput
    let d := scene.after (scene.start none Sample.root Sample.workbench) Sample.askedInTurn
    let again : Request := ⟨3, Sample.locate "dist/b.js", Sample.locate "src/./b.ts"⟩
    let q : Queue := ⟨[⟨2, Sample.target "b"⟩, again, ⟨1, Sample.target "a"⟩]⟩
    (scene.pass d).SameBut (scene.pass (d.withQueue q)) d.session.queue q ∧
      (scene.pass d).verdict = .finished ⟨3, 2, 1, false⟩ ∧
      (scene.pass (d.withQueue q)).verdict = .finished ⟨3, 3, 1, false⟩ := by
  intro scene d again q
  obtain ⟨hfound, hperm, hasks, hverdict⟩ :
      (∀ b ∈ d.session.emitting? scene.backend scene.project d.world,
        ∀ r ∈ d.session.queue.requests,
          (scene.backend.find? b.program r.target.source).isSome = true) ∧
        d.session.queue.requests.Perm [⟨2, Sample.target "b"⟩, ⟨1, Sample.target "a"⟩] ∧
        d.session.queue.asksFor again.target.source = true ∧
        (scene.pass d).verdict = .finished ⟨3, 2, 1, false⟩ := by decide +kernel
  have himmaterial := arrival_order_immaterial scene (Backend.findsByPath_workbench _ _) d hfound
  have hsources : d.session.queue.SameSources q := by
    have hmore : d.session.queue.SameSources ⟨again :: d.session.queue.requests⟩ :=
      himmaterial.2.2 [] d.session.queue.requests again (List.nil_append _).symm hasks
    have hswapped : (again :: d.session.queue.requests).Perm q.requests :=
      (hperm.cons again).trans (.swap ..)
    exact hmore.trans (.of_perm hswapped)
  have hsame := himmaterial.1 q hsources
  exact ⟨hsame, hverdict, by rw [hsame.verdict, hverdict]; rfl⟩

end Coalesce
