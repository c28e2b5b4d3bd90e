import Coalesce.Manifest.Basic
import Coalesce.Manifest.Values

/-!
# Groups of settings

The three groups of a manifest are read by one pattern: a group stands under its key, its fields
take the entries that they have a name for, and what is left is told or, for the compiler's options,
kept. So a group is a value here (`Group`), and what an entry of a document does to a reading is
said once, for all groups (`takeSection_eq_ok_iff`). As the keys of a document are distinct, a
reading then has of each group what the group's own node gives, and of the others nothing
(`part_ofTable`).
-/

namespace Coalesce.Manifest

open Toml (Node Key Value Table find? keys find?_cons find?_eq_none_iff)

/-- The groups of settings in a manifest. -/
inductive Group where
  | sources
  | options
  | batch
deriving DecidableEq, Repr

namespace Group

/-- The key under which a group stands in a document. -/
def name : Group → String
  | sources => "project"
  | options => "compiler_options"
  | batch => "batch"

/-- The group that stands under a key. -/
def ofName? (name : String) : Option Group :=
  if name = "project" then some sources
  else if name = "compiler_options" then some options
  else if name = "batch" then some batch
  else none

theorem ofName?_eq_some_iff {name : String} {g : Group} :
    ofName? name = some g ↔ g.name = name := by
  unfold ofName?
  constructor
  · intro h
    split at h
    next heq => cases h; exact heq.symm
    next =>
      split at h
      next heq => cases h; exact heq.symm
      next =>
        split at h
        next heq => cases h; exact heq.symm
        next => cases h
  · rintro rfl
    cases g <;> decide

theorem name_inj {g g' : Group} (h : g.name = g'.name) : g = g' :=
  Option.some.inj ((ofName?_eq_some_iff.2 h).symm.trans (ofName?_eq_some_iff.2 rfl))

/-- The settings of a group. -/
abbrev Settings : Group → Type
  | sources => SourceRules
  | options => BuildOptions
  | batch => BatchSettings

/-- The settings that a group has while nothing is said about it. -/
def default : (g : Group) → g.Settings
  | sources => .default
  | options => .default
  | batch => .default

/-- The names and kinds of a group's settings. -/
def kinds : Group → List (String × Kind)
  | sources => [("include", .texts), ("extensions", .texts), ("exclude", .texts), ("files", .texts),
      ("watch", .boolean)]
  | options => [("no_emit_on_error", .boolean), ("out_dir", .text), ("source_map", .boolean)]
  | batch => [("quiet_period_ms", .count), ("map_suffix", .text), ("write_to_disk", .boolean)]

/-- The settings of a group as values. -/
def shown : (g : Group) → g.Settings → Shown
  | sources, s => [
      ("include", some (.array (s.directories.map fun p ↦ .string p.text))),
      ("extensions", some (.array (s.extensions.map .string))),
      ("exclude", some (.array (s.excluded.map .string))),
      ("files", some (.array (s.files.map fun p ↦ .string p.text))),
      ("watch", some (.boolean s.watch))]
  | options, s => [
      ("no_emit_on_error", some (.boolean s.noEmitOnError)),
      ("out_dir", s.outDir?.map fun p ↦ .string p.text),
      ("source_map", some (.boolean s.sourceMap))]
  | batch, s => [
      ("quiet_period_ms", some (.integer s.quietPeriod)),
      ("map_suffix", some (.string s.mapSuffix)),
      ("write_to_disk", some (.boolean s.writeToDisk))]

/-- The fields of a group. -/
def fields : (g : Group) → List (Field g.Settings)
  | sources => sourceFields
  | options => optionFields
  | batch => batchFields

theorem describes : ∀ g : Group, Describes g.shown g.kinds g.fields
  | sources => by
    refine ⟨?_, fun _ ↦ rfl⟩
    refine .cons (reads_path.listOf.sets fun _ _ ↦ rfl) ?_
    refine .cons (reads_text.listOf.sets fun _ _ ↦ rfl) ?_
    refine .cons (reads_text.listOf.sets fun _ _ ↦ rfl) ?_
    refine .cons (reads_path.listOf.sets fun _ _ ↦ rfl) ?_
    exact .cons (reads_boolean.sets fun _ _ ↦ rfl) .nil
  | options => by
    refine ⟨?_, fun _ ↦ rfl⟩
    refine .cons (reads_boolean.sets fun _ _ ↦ rfl) ?_
    refine .cons (reads_path.sets fun _ _ ↦ rfl) ?_
    exact .cons (reads_boolean.sets fun _ _ ↦ rfl) .nil
  | batch => by
    refine ⟨?_, fun _ ↦ rfl⟩
    refine .cons (reads_count.sets fun _ _ ↦ rfl) ?_
    refine .cons (reads_text.sets fun _ _ ↦ rfl) ?_
    exact .cons (reads_boolean.sets fun _ _ ↦ rfl) .nil

/-! ## Reading one group -/

/-- Reads a group from its node. -/
def read : (g : Group) → Node → Except Complaint (Progress g.Settings)
  | sources => group "ProjectSection" sourceFields .default
  | options => fun node ↦ (readOptions node).map fun options ↦ ⟨options, []⟩
  | batch => group "BatchConfig" batchFields .default

/-- The settings that a group gets from its node: the default ones if the node cannot be read. -/
def settled (g : Group) (node : Node) : g.Settings :=
  match g.read node with
  | .ok p => p.settings
  | .error _ => g.default

/-- The settings that a group has by itself in a document, whatever else the document says. -/
def own (g : Group) (t : Table) : g.Settings := (find? g.name t.entries).elim g.default g.settled

/-- The names of the keys in a group's node that no setting has and that are not kept. -/
def strays (g : Group) (node : Node) : List String :=
  if g = .options then []
  else match node with
    | .table _ entries => Manifest.strays g.kinds entries
    | .datetime .. => [datetimeKey]
    | _ => []

variable {g : Group} {node : Node} {form : Toml.TableForm} {entries : List (Key × Node)}

theorem settled_of_read {p : Progress g.Settings} (h : g.read node = .ok p) :
    g.settled node = p.settings := by
  rw [settled, h]

theorem read_options_eq_ok_iff {p : Progress BuildOptions} :
    options.read node = .ok p ↔ ∃ o, readOptions node = .ok o ∧ p = ⟨o, []⟩ := by
  dsimp only [read]
  cases readOptions node <;> simp [Except.map, eq_comm]

theorem unknown_takeElements {σ : Type} {fields : List (Field σ)} {s : σ} {elements : List Node}
    {p : Progress σ} (h : takeElements fields s elements = .ok p) : p.unknown = [] := by
  obtain ⟨s', -, h⟩ := bind_eq_ok_iff.1 h
  obtain rfl := Except.ok.inj h
  rfl

theorem unknown_group {name : String} {s : g.Settings} {p : Progress g.Settings}
    (hg : g ≠ .options) (h : group name g.fields s node = .ok p) : p.unknown = g.strays node := by
  unfold strays
  rw [if_neg hg]
  cases node with
  | table => exact g.describes.unknown_takeEntries h
  | datetime =>
    obtain rfl := Except.ok.inj h
    rfl
  | array | tables => exact unknown_takeElements h
  | _ => cases h

theorem unknown_of_read {p : Progress g.Settings} (h : g.read node = .ok p) :
    p.unknown = g.strays node := by
  cases g with
  | sources | batch => exact unknown_group (by decide) h
  | options =>
    obtain ⟨o, -, rfl⟩ := read_options_eq_ok_iff.1 h
    rfl

/-! ### Options -/

/-- The entries of a table that no setting of a group has. -/
def others (g : Group) (entries : List (Key × Node)) : List (Key × Node) :=
  entries.filter fun entry ↦ (g.kinds.lookup entry.1.name).isNone

theorem filter_contains_strays (settings : List (String × Kind)) (entries : List (Key × Node)) :
    (entries.filter fun entry ↦ (Manifest.strays settings entries).contains entry.1.name) =
      entries.filter fun entry ↦ (settings.lookup entry.1.name).isNone := by
  refine List.filter_congr fun entry hentry ↦ Bool.eq_iff_iff.2 ?_
  rw [List.contains_iff_mem, Manifest.strays, List.mem_filter]
  exact and_iff_right (List.mem_map_of_mem hentry)

/-- Options are read in two rounds: the known ones, and then all others, which are kept. -/
theorem readOptions_table_eq_ok_iff {o : BuildOptions} :
    readOptions (.table form entries) = .ok o ↔
      ∃ known extra, takeEntries optionFields .default entries = .ok known ∧
        List.Forall₂ (fun entry kept ↦ value entry.2 = .ok kept.2 ∧ entry.1.name = kept.1)
          (options.others entries) extra ∧
        o = { known.settings with extra } := by
  rw [readOptions]
  simp only [bind_eq_ok_iff, mapM_eq_ok_iff]
  constructor
  · rintro ⟨known, hknown, extra, hextra, ho⟩
    rw [options.describes.unknown_takeEntries hknown, filter_contains_strays] at hextra
    refine ⟨known, extra, hknown, hextra.imp ?_, (Except.ok.inj ho).symm⟩
    rintro ⟨key, node⟩ ⟨name, kept⟩ ⟨v, hv, hkept⟩
    obtain ⟨rfl, rfl⟩ := Prod.mk.inj (Except.ok.inj hkept)
    exact ⟨hv, rfl⟩
  · rintro ⟨known, extra, hknown, hextra, rfl⟩
    refine ⟨known, hknown, extra, ?_, rfl⟩
    rw [options.describes.unknown_takeEntries hknown, filter_contains_strays]
    refine hextra.imp ?_
    rintro ⟨key, node⟩ ⟨name, kept⟩ ⟨hv, rfl⟩
    exact ⟨kept, hv, rfl⟩

/-- A group that is a table shows what the table gives, and its defaults for the rest. -/
theorem shown_of_read {p : Progress g.Settings} (hkeys : (keys entries).Nodup)
    (h : g.read (.table form entries) = .ok p) :
    g.shown p.settings = (g.shown g.default).overlaid entries := by
  cases g with
  | sources => exact sources.describes.display_takeEntries hkeys h
  | options =>
    obtain ⟨_, ho, rfl⟩ := read_options_eq_ok_iff.1 h
    obtain ⟨known, extra, hknown, -, rfl⟩ := readOptions_table_eq_ok_iff.1 ho
    have hshown := options.describes.display_takeEntries hkeys hknown
    exact hshown
  | batch => exact batch.describes.display_takeEntries hkeys h

end Group

/-! ## The groups of a manifest -/

/-- The settings of one group. -/
def part (m : Manifest) : (g : Group) → g.Settings
  | .sources => m.sources
  | .options => m.options
  | .batch => m.batch

/-- A manifest with other settings for one group. -/
def withPart (m : Manifest) : (g : Group) → g.Settings → Manifest
  | .sources, s => { m with sources := s }
  | .options, s => { m with options := s }
  | .batch, s => { m with batch := s }

variable {m m' : Manifest} {g g' : Group} {key : Key} {node : Node} {t : Table} {r r' : Reading}

@[simp] theorem part_withPart_self (m : Manifest) (g : Group) (s : g.Settings) :
    (m.withPart g s).part g = s := by
  cases g <;> rfl

theorem part_withPart_of_ne (m : Manifest) (h : g ≠ g') (s : g.Settings) :
    (m.withPart g s).part g' = m.part g' := by
  cases g <;> cases g' <;> first | rfl | exact absurd rfl h

theorem part_default (g : Group) : default.part g = g.default := by
  cases g <;> rfl

/-! ## Reading a document -/

theorem takeSection_eq (r : Reading) (key : Key) (node : Node) : takeSection r (key, node) =
    placed (node.start?.getD key.start) (match Group.ofName? key.name with
      | some g => do
        let p ← g.read node
        return ⟨r.manifest.withPart g p.settings, r.unknown ++ below g.name p.unknown⟩
      | none => .ok { r with unknown := r.unknown ++ [key.name] }) := by
  unfold takeSection Group.ofName?
  dsimp only
  congr 1
  by_cases hsources : key.name = "project"
  · rw [if_pos hsources, if_pos hsources]
    rfl
  rw [if_neg hsources, if_neg hsources]
  by_cases hoptions : key.name = "compiler_options"
  · rw [if_pos hoptions, if_pos hoptions]
    -- Options tell nothing, so that adding what they tell changes nothing.
    dsimp only [Group.read]
    cases readOptions node with
    | error => rfl
    | ok options =>
      have hunknown : r.unknown ++ below Group.options.name [] = r.unknown := List.append_nil _
      exact congrArg (fun unknown ↦ Except.ok (⟨{ r.manifest with options }, unknown⟩ : Reading))
        hunknown.symm
  rw [if_neg hoptions, if_neg hoptions]
  by_cases hbatch : key.name = "batch"
  · rw [if_pos hbatch, if_pos hbatch]
    rfl
  rw [if_neg hbatch, if_neg hbatch]

/-- An entry of a document gives the settings of the group that stands under its key, and stray keys
in it are told; if there is no such group, the key itself is. -/
theorem takeSection_eq_ok_iff : takeSection r (key, node) = .ok r' ↔
    (∃ g p, Group.name g = key.name ∧ g.read node = .ok p ∧
      r' = ⟨r.manifest.withPart g p.settings, r.unknown ++ below g.name p.unknown⟩) ∨
    (∀ g, Group.name g ≠ key.name) ∧ r' = { r with unknown := r.unknown ++ [key.name] } := by
  rw [takeSection_eq, placed_eq_ok_iff]
  cases hname : Group.ofName? key.name with
  | none =>
    have hnone : ∀ g, Group.name g ≠ key.name := fun g hg ↦ by
      rw [Group.ofName?_eq_some_iff.2 hg] at hname
      cases hname
    constructor
    · intro h
      exact Or.inr ⟨hnone, (Except.ok.inj h).symm⟩
    · rintro (⟨g, _, hg, -⟩ | ⟨-, rfl⟩)
      · exact absurd hg (hnone g)
      · rfl
  | some g =>
    have hg : g.name = key.name := Group.ofName?_eq_some_iff.1 hname
    dsimp only
    rw [bind_eq_ok_iff]
    constructor
    · rintro ⟨p, hp, h⟩
      exact Or.inl ⟨g, p, hg, hp, (Except.ok.inj h).symm⟩
    · rintro (⟨g', p, hg', hp, rfl⟩ | ⟨hnone, -⟩)
      · obtain rfl := Group.name_inj (hg.trans hg'.symm)
        exact ⟨p, hp, rfl⟩
      · exact absurd hg (hnone g)

theorem exists_ofTable_iff : (∃ r, ofTable t = .ok r) ↔
    ∀ entry ∈ t.entries, ∀ g, Group.name g = entry.1.name → ∃ p, g.read entry.2 = .ok p := by
  refine exists_foldlM_iff (fun r entry ↦ ?_) t.entries (⟨default, []⟩ : Reading)
  obtain ⟨key, node⟩ := entry
  constructor
  · rintro ⟨r', h⟩ g hg
    rcases takeSection_eq_ok_iff.1 h with ⟨g', p, hg', hp, -⟩ | ⟨hnone, -⟩
    · obtain rfl := Group.name_inj (hg.trans hg'.symm)
      exact ⟨p, hp⟩
    · exact absurd hg (hnone g)
  · intro hall
    by_cases hsome : ∃ g, Group.name g = key.name
    · obtain ⟨g, hg⟩ := hsome
      obtain ⟨p, hp⟩ := hall g hg
      exact ⟨_, takeSection_eq_ok_iff.2 (Or.inl ⟨g, p, hg, hp, rfl⟩)⟩
    · exact ⟨_, takeSection_eq_ok_iff.2 (Or.inr ⟨not_exists.1 hsome, rfl⟩)⟩

theorem part_ofTable (hkeys : (keys t.entries).Nodup) (h : ofTable t = .ok r) (g : Group) :
    r.manifest.part g = g.own t := by
  obtain ⟨form, entries⟩ := t
  suffices hrun : ∀ r₀ : Reading, entries.foldlM takeSection r₀ = .ok r →
      r.manifest.part g = (find? g.name entries).elim (r₀.manifest.part g) g.settled by
    rw [hrun ⟨default, []⟩ h, part_default]
    rfl
  clear h
  induction entries with
  | nil =>
    intro r₀ h
    obtain rfl := Except.ok.inj h
    rfl
  | cons entry entries ih =>
    intro r₀ h
    obtain ⟨key, node⟩ := entry
    obtain ⟨hkey, hkeys⟩ := List.nodup_cons.1 hkeys
    rw [List.foldlM_cons] at h
    obtain ⟨r₁, hfirst, h⟩ := bind_eq_ok_iff.1 h
    rw [ih hkeys r₁ h, find?_cons]
    rcases takeSection_eq_ok_iff.1 hfirst with ⟨g', p, hname, hp, rfl⟩ | ⟨hnone, rfl⟩
    · by_cases hg : g' = g
      -- The group's own entry: what comes behind it has other names and leaves the group alone.
      · subst hg
        rw [if_pos hname.symm, hname, find?_eq_none_iff.2 hkey]
        exact (part_withPart_self ..).trans (Group.settled_of_read hp).symm
      · rw [if_neg fun heq ↦ hg (Group.name_inj (hname.trans heq)), part_withPart_of_ne _ hg]
    · rw [if_neg (Ne.symm (hnone g))]

/-! ## Stray keys -/

/-- The places of the stray keys of one entry of a document. -/
def straysAt (entry : Key × Node) : List (List String) :=
  match Group.ofName? entry.1.name with
  | some g => (g.strays entry.2).map fun name ↦ [g.name, name]
  | none => [[entry.1.name]]

/-- What is told about a document are the places of its stray keys, with dots between the names. -/
theorem unknown_ofTable (h : ofTable t = .ok r) :
    r.unknown = (t.entries.flatMap straysAt).map (".".intercalate ·) := by
  have hstep : ∀ r entry r', takeSection r entry = .ok r' →
      r'.unknown = r.unknown ++ (straysAt entry).map (".".intercalate ·) := by
    rintro r ⟨key, node⟩ r' h
    rw [straysAt]
    rcases takeSection_eq_ok_iff.1 h with ⟨g, p, hname, hp, rfl⟩ | ⟨hnone, rfl⟩
    · rw [Group.ofName?_eq_some_iff.2 hname]
      dsimp only
      rw [Group.unknown_of_read hp, below, List.map_map]
      rfl
    · have hname : Group.ofName? key.name = none :=
        Option.eq_none_iff_forall_ne_some.2 fun g hg ↦ hnone g (Group.ofName?_eq_some_iff.1 hg)
      rw [hname]
      rfl
  rw [append_of_foldlM Reading.unknown hstep h, List.nil_append, List.map_flatMap]

end Coalesce.Manifest
