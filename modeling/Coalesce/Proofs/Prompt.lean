import Coalesce.Proofs.Schedule

/-!
# A service that takes its turns at once

A service left to itself takes its turns as soon as there is anything to do, and its passes take no
time. That is a schedule like others, so whatever holds behind every schedule holds of it. Only a
request that is planted in the backend is left out here: in a schedule such a request is one that
somebody makes while a pass runs.
-/

namespace Coalesce

variable {W U P E : Type}

/-! ## Nothing is planted -/

namespace Service

variable {s : Service W U P} {now : Nat}

@[simp] theorem planted_close : (s.close now).planted? = s.planted? := by
  rw [close]
  split <;> rfl

@[simp] theorem planted_turn : (s.turn now).planted? = s.planted? := by
  fun_cases turn now s <;> simp [accept, begin, say, note]

@[simp] theorem planted_conclude (isLast : Bool) (pass : Pass W U P) :
    (s.conclude now isLast pass).planted? = s.planted? := by
  rw [conclude]
  split <;> rfl

@[simp] theorem planted_complete (backend : Backend W U P) (project : Project W) :
    (s.complete backend project now).planted? = s.planted? := by
  rw [complete]
  cases s.phase with
  | compiling isLast => exact planted_conclude isLast _
  | listening | stopped => rfl

theorem makePass_eq (backend : Backend W U P) (project : Project W) (h : s.planted? = none) :
    s.makePass backend project now = s.complete backend project now := by
  have hspring : s.spring backend project = s := by
    have hnobody : s.planted?.toList.map Message.request = [] := by
      rw [h]
      rfl
    rw [spring, hnobody, List.append_nil, ← h]
    exact ite_self s
  rw [makePass, hspring, complete]
  cases s.phase <;> rfl

end Service

/-! ## One thing after another -/

namespace Scene

variable (scene : Scene W U P E)

/-- A schedule leads from a moment to a service without a planted request, at some time and with so
many requests made. -/
def Reaches (m : Moment W U P) (now issued : Nat) (s : Service W U P) : Prop :=
  s.planted? = none ∧ ∃ moves, (scene.play m moves).service = s ∧
    (scene.play m moves).now = now ∧ (scene.play m moves).issued = issued

variable {scene} {m : Moment W U P} {now issued : Nat} {s : Service W U P}

theorem reaches_opened (settings? : Option BatchSettings) (root : FilePath) (w : W) :
    scene.Reaches (scene.opened settings? root w) 0 0
      (.create (.create scene.project settings? root w) w) :=
  ⟨rfl, [], rfl, rfl, rfl⟩

namespace Reaches

theorem move (h : scene.Reaches m now issued s) (mv : Move E) {now' issued' : Nat}
    {s' : Service W U P} (hplanted : s'.planted? = none)
    (hmove : ∀ m' : Moment W U P, m'.service = s → m'.now = now → m'.issued = issued →
      (scene.move m' mv).service = s' ∧ (scene.move m' mv).now = now' ∧
        (scene.move m' mv).issued = issued') : scene.Reaches m now' issued' s' := by
  obtain ⟨-, moves, hservice, hnow, hissued⟩ := h
  refine ⟨hplanted, moves ++ [mv], ?_⟩
  rw [play_append]
  exact hmove _ hservice hnow hissued

theorem turn (h : scene.Reaches m now issued s) : scene.Reaches m now issued (s.turn now) := by
  refine h.move .turn ?_ ?_
  · rw [Service.planted_turn, h.1]
  · rintro m' rfl rfl rfl
    exact ⟨rfl, rfl, rfl⟩

theorem turns (h : scene.Reaches m now issued s) (n : Nat) :
    scene.Reaches m now issued (s.turns now n) := by
  induction n generalizing s with
  | zero => exact h
  | succ n ih => exact ih h.turn

theorem makePass (h : scene.Reaches m now issued s) :
    scene.Reaches m now issued (s.makePass scene.backend scene.project now) := by
  rw [Service.makePass_eq _ _ h.1]
  refine h.move .complete ?_ ?_
  · rw [Service.planted_complete, h.1]
  · rintro m' rfl rfl rfl
    refine ⟨service_move_complete, ?_, ?_⟩
    all_goals
      rw [Scene.move]
      cases m'.service.phase <;> rfl

theorem outside (h : scene.Reaches m now issued s) (event : E) :
    scene.Reaches m now issued { s with world := scene.act event s.world } := by
  refine h.move (.outside event) h.1 ?_
  rintro m' rfl rfl rfl
  exact ⟨rfl, rfl, rfl⟩

theorem wait (h : scene.Reaches m now issued s) (milliseconds : Nat) :
    scene.Reaches m (now + milliseconds) issued s := by
  refine h.move (.wait milliseconds) h.1 ?_
  rintro m' rfl rfl rfl
  exact ⟨rfl, rfl, rfl⟩

/-! ## The service left to itself -/

theorem settle (h : scene.Reaches m now issued s) :
    scene.Reaches m now issued (s.settle scene.backend scene.project now) :=
  (h.turns _).makePass

theorem wake (h : scene.Reaches m now issued s) :
    scene.Reaches m now issued (s.wake scene.backend scene.project now) :=
  h.turn.makePass.settle

theorem runUntil (h : scene.Reaches m now issued s) {time : Nat} (htime : now ≤ time) :
    scene.Reaches m time issued (s.runUntil scene.backend scene.project time now) := by
  fun_induction Service.runUntil scene.backend scene.project time now s with
  | case1 now s due hdue hnext ih =>
    have hwait : now + (due - now) = due := Nat.add_sub_cancel' (Nat.le_of_lt hnext.1)
    refine ih ?_ hnext.2
    rw [← hwait]
    exact (h.wait (due - now)).wake
  | case2 now s due hdue hnext =>
    have hwait := h.wait (time - now)
    rwa [Nat.add_sub_cancel' htime] at hwait
  | case3 now s hnone =>
    have hwait := h.wait (time - now)
    rwa [Nat.add_sub_cancel' htime] at hwait

/-! ## Clients -/

theorem ask (h : scene.Reaches m now issued s) (target : Target) :
    scene.Reaches m now (issued + 1) (s.ask ⟨issued, target⟩).2 := by
  refine h.move (.ask target) ?_ ?_
  · by_cases hopen : s.IsOpen
    · rw [Service.ask_of_isOpen hopen]
      exact h.1
    · rw [Service.ask_of_not_isOpen hopen]
      exact h.1
  · rintro m' rfl rfl rfl
    exact ⟨rfl, rfl, rfl⟩

theorem enlist (h : scene.Reaches m now issued s) (target : Target) :
    scene.Reaches m now (issued + 1) (s.enlist now ⟨issued, target⟩) := by
  refine h.move (.enlist target) ?_ ?_
  · by_cases hopen : s.IsOpen
    · rw [Service.enlist_of_isOpen hopen]
      exact h.1
    · rw [Service.enlist_of_not_isOpen hopen]
      split <;> exact h.1
  · rintro m' rfl rfl rfl
    exact ⟨rfl, rfl, rfl⟩

theorem dismiss (h : scene.Reaches m now issued s) : scene.Reaches m now issued s.dismiss := by
  refine h.move .dismiss ?_ ?_
  · by_cases hopen : s.IsOpen
    · rw [Service.dismiss_of_isOpen hopen]
      exact h.1
    · rw [Service.dismiss_of_not_isOpen hopen]
      exact h.1
  · rintro m' rfl rfl rfl
    exact ⟨rfl, rfl, rfl⟩

theorem letGo (h : scene.Reaches m now issued s) : scene.Reaches m now issued s.letGo := by
  refine h.move .letGo h.1 ?_
  rintro m' rfl rfl rfl
  exact ⟨rfl, rfl, rfl⟩

theorem request (h : scene.Reaches m now issued s) (target : Target) :
    scene.Reaches m now (issued + 1)
      (s.request scene.backend scene.project now ⟨issued, target⟩).2 :=
  (h.ask target).settle

theorem await (h : scene.Reaches m now issued s) (target : Target) :
    scene.Reaches m now (issued + 1)
      (s.await scene.backend scene.project now ⟨issued, target⟩) :=
  (h.enlist target).settle

theorem quit (h : scene.Reaches m now issued s) :
    scene.Reaches m now issued (s.quit scene.backend scene.project now) :=
  h.dismiss.settle

theorem leave (h : scene.Reaches m now issued s) :
    scene.Reaches m now issued (s.leave scene.backend scene.project now) :=
  h.letGo.settle

theorem deserted (h : scene.Reaches m now issued s) :
    scene.Reaches m now issued { s with held := 0 } := by
  have hless : ∀ n, scene.Reaches m now issued { s with held := s.held - n } := by
    intro n
    induction n with
    | zero => exact h
    | succ n ih =>
      have hnext := ih.letGo
      rwa [Service.letGo, Nat.sub_sub] at hnext
  have hall := hless s.held
  rwa [Nat.sub_self] at hall

/-- **What a service does by itself is a schedule**, to its very end. -/
theorem finish (h : scene.Reaches m now issued s) :
    scene.Reaches m (s.finish scene.backend scene.project now).1 issued
      (s.finish scene.backend scene.project now).2 := by
  have hsettled : scene.Reaches m now issued
      (Service.settle scene.backend scene.project now { s with planted? := none, held := 0 }) := by
    rw [← h.1]
    exact h.deserted.settle
  rw [Service.finish]
  split
  next due hdue =>
    have hwait : now + (max now due - now) = max now due :=
      Nat.add_sub_cancel' (Nat.le_max_left now due)
    have hlater := hsettled.wait (max now due - now)
    rw [hwait] at hlater
    exact hlater.wake
  next hnone => exact hsettled

end Reaches

end Scene

end Coalesce
