import Coalesce.FilePath.Basic

/-!
# File names

The name of a path is its last component, if that is a name at all. A name divides at its last
dot into stem and extension, except that a dot in front of everything else divides nothing: `.bak`
is all stem. Editors leave files behind that no build cares about; they are told by their names.

A text without slashes that is no step of its own names one file in every directory, and different
names name different files.
-/

namespace Coalesce.FilePath

/-- The name that a path ends in; trailing slashes and `.` segments do not hide it. -/
def fileName? (p : FilePath) : Option String :=
  match p.components.getLast? with
  | some (.named name) => some name
  | _ => none

/-- A name divided at its last dot: what stands before it and what stands behind it. -/
def splitAtLastDot (name : List Char) : Option (List Char × List Char) :=
  match name.reverse.dropWhile (· != '.') with
  | [] => none
  | _ :: stem => some (stem.reverse, (name.reverse.takeWhile (· != '.')).reverse)

/-- The division of a name into stem and extension. -/
def divideName (name : String) : String × Option String :=
  match splitAtLastDot name.toList with
  | some (c :: stem, extension) => (String.ofList (c :: stem), some (String.ofList extension))
  | _ => (name, none)

/-- The name of a path without its extension. -/
def stem? (p : FilePath) : Option String := p.fileName?.map fun name => (divideName name).1

/-- What follows the last dot of the name. -/
def extension? (p : FilePath) : Option String := p.fileName?.bind fun name => (divideName name).2

/-- The extensions of backup and swap files. -/
def temporaryExtensions : List String := ["bck", "bak", "backup", "swp", "swo", "tmp"]

/-- A file that an editor keeps beside the one it edits: a backup or swap file by its extension, a
name with a trailing `~`, or a hidden name. -/
def isTemporary (p : FilePath) : Bool :=
  p.extension?.any (temporaryExtensions.contains ·)
    || p.fileName?.any (fun name => name.toList.getLast? == some '~')
    || p.fileName?.any (fun name => name.toList.head? == some '.')

/-! ## Files in a directory -/

/-- A text that is the name of a file and nothing else: no part of it is read as a step. -/
structure IsFileName (name : String) : Prop where
  component? : Segment.component? name.toList = some (.named name)
  slash_not_mem : '/' ∉ name.toList

theorem slash_not_mem_fileName {p : FilePath} {name : String} (h : p.fileName? = some name) :
    '/' ∉ name.toList := by
  have hmem : Component.named name ∈ p.components := by
    rw [fileName?] at h
    split at h
    next hlast =>
      cases h
      exact List.mem_of_getLast? hlast
    next => cases h
  rw [components, layout, Layout.components_ofText, List.mem_append] at hmem
  rcases hmem with hanchor | hbody
  · -- An anchor is never a name.
    cases h : (Layout.ofText p.text.toList).anchor <;> simp [h, Anchor.components] at hanchor
  · obtain ⟨segment, hsegment, hname⟩ := List.mem_filterMap.1 hbody
    have htext : name = String.ofList segment := by
      rw [Segment.component?] at hname
      split at hname
      next => cases hname
      next =>
        split at hname
        next => cases hname
        next => exact (Component.named.inj (Option.some.inj hname)).symm
    rw [htext, String.toList_ofList]
    exact Text.not_mem_of_mem_split hsegment

theorem slash_not_mem_stem {p : FilePath} {stem : String} (h : p.stem? = some stem) :
    '/' ∉ stem.toList := by
  obtain ⟨name, hname, rfl⟩ := Option.map_eq_some_iff.1 h
  have hslash := slash_not_mem_fileName hname
  rw [divideName]
  split
  next c stem extension hdivided =>
    -- The stem is what is left of the name when its end is taken away.
    intro hmem
    rw [splitAtLastDot] at hdivided
    split at hdivided
    next => cases hdivided
    next dot before hrest =>
      have hstem : before.reverse = c :: stem := (Prod.mk.inj (Option.some.inj hdivided)).1
      rw [String.toList_ofList, ← hstem, List.mem_reverse] at hmem
      have hdropped : '/' ∈ name.toList.reverse.dropWhile (· != '.') := by
        rw [hrest]
        exact List.mem_cons_of_mem dot hmem
      exact hslash (List.mem_reverse.1 (List.dropWhile_sublist _ |>.mem hdropped))
  next => exact hslash

theorem isFileName_append {stem ending : String} (hstem : '/' ∉ stem.toList)
    (hending : '/' ∉ ending.toList) (hlong : 2 < ending.toList.length) :
    IsFileName (stem ++ ending) where
  component? := by
    have hlength : 2 < (stem ++ ending).toList.length := by
      rw [String.toList_append, List.length_append]
      omega
    have hshort : ∀ s : Segment, s.length ≤ 2 → (stem ++ ending).toList ≠ s := by
      rintro s hs rfl
      omega
    have hidle : Segment.isIdle (stem ++ ending).toList = false := by
      rw [Segment.isIdle, Bool.or_eq_false_iff]
      exact ⟨beq_false_of_ne (hshort [] (by simp)), beq_false_of_ne (hshort ['.'] (by simp))⟩
    rw [Segment.component?, hidle, if_neg Bool.false_ne_true, if_neg (hshort _ (by simp)),
      String.ofList_toList]
  slash_not_mem := by
    rw [String.toList_append, List.mem_append, not_or]
    exact ⟨hstem, hending⟩

theorem components_join_fileName {name : String} (h : IsFileName name) (dir : FilePath) :
    (dir.join ⟨name⟩).components = dir.components ++ [.named name] := by
  have hrelative : isAbsolute ⟨name⟩ = false := by
    rw [isAbsolute, beq_eq_false_iff_ne]
    exact fun hhead => h.slash_not_mem (List.mem_of_head? hhead)
  have hsplit : Segment.split name.toList = [name.toList] :=
    Text.split_eq_singleton h.slash_not_mem
  by_cases hdir : dir.text = ""
  · -- Behind no directory the name stands at the front, where only `.` would be an anchor.
    have hdot : name.toList ≠ ['.'] := by
      intro hdot
      have hname := h.component?
      rw [hdot] at hname
      cases hname
    have hanchor : (Layout.ofText name.toList).anchor = .free := by
      rw [Layout.anchor_ofText _ hsplit, if_neg (by simp), if_neg hdot]
    have hjoin : dir.join ⟨name⟩ = ⟨name⟩ := by
      rw [join, hrelative, if_neg Bool.false_ne_true, hdir, if_pos (by rfl), String.empty_append]
    have hempty : dir.components = [] := by
      rw [components, layout, hdir]
      rfl
    rw [hjoin, hempty, components, layout, Layout.components_ofText, hanchor, hsplit,
      List.filterMap_cons, h.component?]
    rfl
  · rw [components_join hdir hrelative, hsplit, List.filterMap_cons, h.component?]
    rfl

theorem same_join_iff {a b : String} (ha : IsFileName a) (hb : IsFileName b) (dir : FilePath) :
    (dir.join ⟨a⟩).same (dir.join ⟨b⟩) = true ↔ a = b := by
  rw [same_iff, components_join_fileName ha, components_join_fileName hb,
    List.append_cancel_left_eq]
  simp

end Coalesce.FilePath
