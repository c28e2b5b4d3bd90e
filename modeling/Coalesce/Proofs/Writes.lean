import Coalesce.Overlay

/-!
# What a dialogue writes

A backend hands texts over in the course of a dialogue, and which ones depends on the answers it
gets. `Dialogue.writes` lists them in order. An overlay captures exactly these: the outputs behind
a dialogue are the outputs before it with the list stored one pair after another
(`Overlay.outputs_run`), so what is found at a path is the text that came last there, and the older
one if none came (`PathMap.get?_insertAll`). Paths count up to spelling throughout.
-/

namespace Coalesce

/-! ## Lists of writes -/

/-- Texts with the paths that they are written to, in the order of the writing. -/
abbrev Writes : Type := List (FilePath × String)

namespace Writes

/-- The text that comes last at a path. -/
def last? (path : FilePath) : Writes → Option String
  | [] => none
  | (q, text) :: rest => (last? path rest).or (if q.same path then some text else none)

/-- Whether anything is written to a path. -/
def reach (ws : Writes) (path : FilePath) : Prop := ∃ w ∈ ws, w.1.same path = true

instance (ws : Writes) (path : FilePath) : Decidable (ws.reach path) :=
  inferInstanceAs (Decidable (∃ w ∈ ws, _))

@[simp] theorem last?_nil (path : FilePath) : last? path [] = none := rfl

theorem last?_append (path : FilePath) (ws vs : Writes) :
    last? path (ws ++ vs) = (last? path vs).or (last? path ws) := by
  induction ws with
  | nil => rw [List.nil_append, last?_nil, Option.or_none]
  | cons w ws ih => rw [List.cons_append, last?, ih, last?, Option.or_assoc]

theorem last?_eq_none_iff {path : FilePath} {ws : Writes} :
    last? path ws = none ↔ ¬ws.reach path := by
  induction ws with
  | nil => simp [reach]
  | cons w ws ih =>
    rw [last?, Option.or_eq_none_iff, ih]
    by_cases h : w.1.same path <;> simp [reach, h]

end Writes

namespace PathMap

variable {α : Type}

/-- The map with the pairs of a list stored one after another. -/
def insertAll (m : PathMap α) (pairs : List (FilePath × α)) : PathMap α :=
  pairs.foldl (fun m pair ↦ m.insert pair.1 pair.2) m

@[simp] theorem insertAll_nil (m : PathMap α) : m.insertAll [] = m := rfl

theorem insertAll_append (m : PathMap α) (ps qs : List (FilePath × α)) :
    m.insertAll (ps ++ qs) = (m.insertAll ps).insertAll qs := by
  rw [insertAll, List.foldl_append]
  rfl

theorem get?_insertAll (m : PathMap String) (ws : Writes) (path : FilePath) :
    (m.insertAll ws).get? path = (ws.last? path).or (m.get? path) := by
  induction ws generalizing m with
  | nil => rw [insertAll_nil, Writes.last?_nil, Option.none_or]
  | cons w ws ih =>
    rw [insertAll, List.foldl_cons, ← insertAll, ih, get?_insert, Writes.last?, Option.or_assoc]
    by_cases h : w.1.same path <;> simp [h]

end PathMap

/-! ## The writes of a dialogue -/

namespace Dialogue

variable {U α β S : Type}

/-- What a dialogue hands over while a host answers it. -/
def writes (host : Host U S) : Dialogue U α → S → Writes
  | done _, _ => []
  | read path next, s => (next (host.read path s).1).writes host (host.read path s).2
  | write path text next, s => (path, text) :: next.writes host (host.write path text s)

@[simp] theorem writes_pure (host : Host U S) (result : α) (s : S) :
    (pure result : Dialogue U α).writes host s = [] := rfl

@[simp] theorem writes_bind (host : Host U S) (d : Dialogue U α) (f : α → Dialogue U β) (s : S) :
    (d >>= f).writes host s
      = d.writes host s ++ (f (d.run host s).1).writes host (d.run host s).2 := by
  induction d generalizing s with
  | done result => rfl
  | read path next ih => exact ih _ _
  | write path text next ih => exact congrArg ((path, text) :: ·) (ih _)

end Dialogue

namespace Overlay

variable {U W α : Type}

@[simp] theorem outputs_read (o : Overlay U) (below : Host U W) (path : FilePath)
    (c : Capture W) : ((o.host below).read path c).2.outputs = c.outputs := by
  cases h : o.served? path with
  | none => rw [read_of_not_served h]
  | some unit => rw [read_of_served h]

/-- **What is captured is what is handed over**, in order and on top of what was there. -/
theorem outputs_run (o : Overlay U) (below : Host U W) (d : Dialogue U α) (c : Capture W) :
    (d.run (o.host below) c).2.outputs = c.outputs.insertAll (d.writes (o.host below) c) := by
  induction d generalizing c with
  | done result => rfl
  | read path next ih =>
    calc (((Dialogue.read path next).run (o.host below) c).2).outputs
        = ((o.host below).read path c).2.outputs.insertAll
            ((Dialogue.read path next).writes (o.host below) c) := ih _ _
      _ = c.outputs.insertAll ((Dialogue.read path next).writes (o.host below) c) := by
        rw [outputs_read]
  | write path text next ih => exact ih _

end Overlay

end Coalesce
