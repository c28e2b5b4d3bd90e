import Coalesce.FilePath.Basic

/-!
# Maps on paths

A map holds at most one value for a path, however it is spelled. Entries stay in the order in which
their paths first came; storing at a path that is there replaces the value and keeps the spelling.
-/

namespace Coalesce

/-- Values kept by path. -/
structure PathMap (α : Type) where
  entries : List (FilePath × α)
deriving Repr

namespace PathMap

variable {α : Type}

/-- The map without entries. -/
def empty : PathMap α := ⟨[]⟩

instance : Inhabited (PathMap α) := ⟨empty⟩

/-- The value stored at a path. -/
def get? (m : PathMap α) (p : FilePath) : Option α :=
  (m.entries.find? (fun entry => entry.1.same p)).map Prod.snd

/-- The entries with the value of the first one at the path replaced, or with a new one at the
end. -/
def store (p : FilePath) (value : α) : List (FilePath × α) → List (FilePath × α)
  | [] => [(p, value)]
  | (q, old) :: rest => if q.same p then (q, value) :: rest else (q, old) :: store p value rest

/-- The map with a value stored at a path. -/
def insert (m : PathMap α) (p : FilePath) (value : α) : PathMap α := ⟨store p value m.entries⟩

/-- The map without the value at a path. -/
def erase (m : PathMap α) (p : FilePath) : PathMap α :=
  ⟨m.entries.filter fun entry => !entry.1.same p⟩

/-- The number of paths that have a value. -/
def size (m : PathMap α) : Nat := m.entries.length

/-- No path has a value. -/
def isEmpty (m : PathMap α) : Bool := m.entries.isEmpty

/-- The map made by storing the pairs of a list one after another. -/
def ofList (pairs : List (FilePath × α)) : PathMap α :=
  pairs.foldl (fun m pair => m.insert pair.1 pair.2) empty

/-! ## What is found -/

@[simp] theorem get?_empty (p : FilePath) : (empty : PathMap α).get? p = none := rfl

theorem get?_congr (m : PathMap α) {p q : FilePath} (h : p.same q = true) :
    m.get? p = m.get? q := by
  have hentry : ∀ entry : FilePath × α, entry.1.same p = entry.1.same q := by
    intro entry
    rw [FilePath.same_comm, FilePath.same_congr h, FilePath.same_comm]
  rw [get?, get?]
  simp only [hentry]

/-- A stored value is found under every spelling of its path, and nothing else changes. -/
theorem get?_insert (m : PathMap α) (p : FilePath) (value : α) (q : FilePath) :
    (m.insert p value).get? q = if p.same q then some value else m.get? q := by
  obtain ⟨entries⟩ := m
  simp only [get?, insert]
  induction entries with
  | nil => by_cases h : p.same q <;> simp [store, h]
  | cons entry rest ih =>
    obtain ⟨r, old⟩ := entry
    rw [store]
    by_cases hr : r.same p
    · have hq := FilePath.same_congr hr q
      by_cases h : p.same q <;> simp [hr, h, hq]
    · by_cases hq : r.same q
      · have hpq : p.same q = false := by
          rw [FilePath.same_comm, ← FilePath.same_congr hq p]
          simpa using hr
        simp [hr, hq, hpq]
      · simpa [hr, hq] using ih

@[simp] theorem get?_insert_self (m : PathMap α) (p : FilePath) (value : α) :
    (m.insert p value).get? p = some value := by
  simp [get?_insert]

end PathMap

end Coalesce
