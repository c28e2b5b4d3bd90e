import Coalesce.Manifest.Groups

/-!
# Broken groups

A group is *broken* in a document if a value in it is not of the kind that its setting has. Whether
it is and what settings it has otherwise is a question about the group's own node alone
(`Group.own`). The manifest that is made of the document does not follow the groups one by one,
though: the first broken group ends the reading, and then all groups have their defaults
(`part_ofContent`). So broken groups disturb the others just as far as these say anything
(`groups_kept_iff`).
-/

namespace Coalesce.Manifest

open Toml (Node Key Table AreProper find? keys find?_of_mem mem_of_find?)

variable {t t' : Table} {g : Group} {node : Node} {content content' : String}

/-! ## Well-typed groups -/

namespace Group

/-- A node is well typed for a group: it may have entries or elements, and those that settings have
are of the settings' kinds; and if the group keeps the others, they can be kept. -/
def IsTyped (g : Group) : Node → Prop
  | .table _ entries =>
    (∀ entry ∈ entries, ∀ kind ∈ g.kinds.lookup entry.1.name, kind.admits entry.2.plain = true) ∧
      (g = .options → ∀ entry ∈ g.others entries, ∃ v, value entry.2 = .ok v)
  | .array _ elements | .tables elements =>
    g ≠ .options ∧ ∀ pair ∈ g.kinds.zip elements, pair.1.2.admits pair.2.plain = true
  | .datetime .. => True
  | _ => False

/-- A group is broken in a document if its node is there and is not well typed. -/
def IsBroken (g : Group) (t : Table) : Prop := ∃ node ∈ find? g.name t.entries, ¬g.IsTyped node

theorem exists_group_iff (hg : g ≠ .options) {name : String} {s : g.Settings} :
    (∃ p, group name g.fields s node = .ok p) ↔ g.IsTyped node := by
  cases node with
  | table =>
    exact (g.describes.exists_takeEntries_iff s).trans (and_iff_left fun h ↦ absurd h hg).symm
  | array | tables =>
    exact (g.describes.exists_takeElements_iff s _).trans (and_iff_right hg).symm
  | datetime => exact iff_of_true ⟨_, rfl⟩ trivial
  | _ => exact iff_of_false nofun id

theorem exists_readOptions_iff : (∃ o, readOptions node = .ok o) ↔ options.IsTyped node := by
  cases node with
  | table form entries =>
    simp only [readOptions_table_eq_ok_iff]
    constructor
    · rintro ⟨_, known, extra, hknown, hextra, -⟩
      refine ⟨(options.describes.exists_takeEntries_iff _).1 ⟨known, hknown⟩,
        fun _ entry hentry ↦ ?_⟩
      obtain ⟨kept, hkept, -⟩ := exists_forall₂_iff.1 ⟨extra, hextra⟩ entry hentry
      exact ⟨kept.2, hkept⟩
    · rintro ⟨hadmits, hothers⟩
      obtain ⟨known, hknown⟩ := (options.describes.exists_takeEntries_iff _).2 hadmits
      obtain ⟨extra, hextra⟩ := exists_forall₂_iff.2 fun entry hentry ↦
        let ⟨v, hv⟩ := hothers rfl entry hentry
        (⟨(entry.1.name, v), hv, rfl⟩ : ∃ kept : String × Toml.Value,
          value entry.2 = .ok kept.2 ∧ entry.1.name = kept.1)
      exact ⟨_, known, extra, hknown, hextra, rfl⟩
  | datetime => exact iff_of_true ⟨_, rfl⟩ trivial
  | array | tables => exact iff_of_false nofun fun h ↦ h.1 rfl
  | _ => exact iff_of_false nofun id

theorem exists_read_iff : (∃ p, g.read node = .ok p) ↔ g.IsTyped node := by
  cases g with
  | sources | batch => exact exists_group_iff (by decide)
  | options =>
    rw [← exists_readOptions_iff]
    constructor
    · rintro ⟨p, hp⟩
      obtain ⟨o, ho, -⟩ := read_options_eq_ok_iff.1 hp
      exact ⟨o, ho⟩
    · rintro ⟨o, ho⟩
      exact ⟨⟨o, []⟩, read_options_eq_ok_iff.2 ⟨o, ho, rfl⟩⟩

theorem isBroken_iff :
    g.IsBroken t ↔ ∃ node ∈ find? g.name t.entries, (g.read node).toOption = none := by
  simp only [IsBroken, ← exists_read_iff]
  refine exists_congr fun node ↦ and_congr_right fun _ ↦ ?_
  cases g.read node with
  | error => exact iff_of_true nofun rfl
  | ok p => exact iff_of_false (not_not.2 ⟨p, rfl⟩) nofun

instance (g : Group) (t : Table) : Decidable (g.IsBroken t) :=
  haveI (node : Node) : Decidable ((g.read node).toOption = none) :=
    decidable_of_iff _ Option.isNone_iff_eq_none
  decidable_of_iff _ isBroken_iff.symm

theorem shown_own {form : Toml.TableForm} {entries : List (Key × Node)}
    (hproper : AreProper t.entries) (hfind : find? g.name t.entries = some (.table form entries))
    (hsound : ¬g.IsBroken t) : g.shown (g.own t) = (g.shown g.default).overlaid entries := by
  have htyped : g.IsTyped (.table form entries) := by
    by_contra htyped
    exact hsound ⟨_, hfind, htyped⟩
  obtain ⟨p, hp⟩ := exists_read_iff.2 htyped
  have hentries := Toml.Node.isProper_table_iff.1 (hproper.find? hfind)
  rw [Group.own, hfind, Option.elim_some, settled_of_read hp, shown_of_read hentries.distinct hp]

end Group

/-! ## Documents with broken groups -/

theorem exists_ofTable_iff_not_isBroken (hkeys : (keys t.entries).Nodup) :
    (∃ r, ofTable t = .ok r) ↔ ¬∃ g : Group, g.IsBroken t := by
  rw [exists_ofTable_iff]
  constructor
  · rintro hread ⟨g, node, hfind, htyped⟩
    obtain ⟨key, hkey, hmem⟩ := mem_of_find? hfind
    exact htyped (Group.exists_read_iff.1 (hread _ hmem g hkey.symm))
  · intro hbroken entry hentry g hg
    by_contra hread
    have hfind : find? g.name t.entries = some entry.2 := hg ▸ find?_of_mem hkeys hentry
    exact hbroken ⟨g, entry.2, hfind, fun htyped ↦ hread (Group.exists_read_iff.2 htyped)⟩

/-- What is made of a document: each group's own settings and only warnings if no group is broken,
else all defaults and one error. -/
theorem part_ofContent (path : FilePath) (ht : Table.ofText content = .ok t) :
    ((¬∃ g : Group, g.IsBroken t) ∧ (∀ g, (ofContent content path).1.part g = g.own t) ∧
        ∀ d ∈ (ofContent content path).2, d.severity = .warning) ∨
      (∃ g : Group, g.IsBroken t) ∧ (∀ g, (ofContent content path).1.part g = g.default) ∧
        ∃ d, (ofContent content path).2 = [d] ∧ d.severity = .error := by
  have hkeys := (Toml.Node.isProper_table_iff.1 (Table.isProper_of_ofText ht)).distinct
  have hbroken := exists_ofTable_iff_not_isBroken hkeys
  rw [ofContent, ht]
  dsimp only
  cases hread : ofTable t with
  | error complaint =>
    right
    rw [hread] at hbroken
    exact ⟨not_not.1 (hbroken.not.1 nofun), part_default, _, rfl, rfl⟩
  | ok r =>
    left
    refine ⟨hbroken.1 ⟨r, hread⟩, part_ofTable hkeys hread, fun d hd ↦ ?_⟩
    obtain ⟨key, -, rfl⟩ := List.mem_map.1 hd
    rfl

/-- **Broken groups.** An error is reported just if a group is broken, and a broken group has its
defaults. The other groups keep the values that they are given just if they would all have their
defaults anyway, or no group is broken; and a group that is by itself the same in two documents gets
the same from both just if both or neither have a broken group, or if it has its defaults anyway. -/
theorem groups_kept_iff (path : FilePath) (ht : Table.ofText content = .ok t) :
    let found := ofContent content path
    ((∃ d ∈ found.2, d.severity = .error) ↔ ∃ g : Group, g.IsBroken t) ∧
    (∀ g : Group, g.IsBroken t → found.1.part g = g.default) ∧
    (∀ (g : Group) (form : Toml.TableForm) (entries : List (Key × Node)),
      find? g.name t.entries = some (.table form entries) → ¬g.IsBroken t →
        g.shown (g.own t) = (g.shown g.default).overlaid entries) ∧
    ((∀ g : Group, ¬g.IsBroken t → found.1.part g = g.own t) ↔
      ((∃ g : Group, g.IsBroken t) → ∀ g : Group, ¬g.IsBroken t → g.own t = g.default)) ∧
    ∀ (content' : String) (path' : FilePath) (t' : Table), Table.ofText content' = .ok t' →
      ∀ g : Group, g.own t' = g.own t →
        ((ofContent content' path').1.part g = found.1.part g ↔
          ((∃ b : Group, b.IsBroken t') ↔ ∃ b : Group, b.IsBroken t) ∨ g.own t = g.default) := by
  have hproper := Toml.Node.isProper_table_iff.1 (Table.isProper_of_ofText ht)
  intro found
  refine ⟨?error, ?broken, fun g form entries ↦ Group.shown_own hproper, ?kept, ?compared⟩
  case error =>
    rcases part_ofContent path ht with ⟨hsound, -, hwarnings⟩ | ⟨hbroken, -, d, hd, herror⟩
    · refine iff_of_false ?_ hsound
      rintro ⟨d, hd, herror⟩
      cases (hwarnings d hd).symm.trans herror
    · exact iff_of_true ⟨d, hd ▸ List.mem_singleton_self d, herror⟩ hbroken
  case broken =>
    intro g hg
    rcases part_ofContent path ht with ⟨hsound, -⟩ | ⟨-, hparts, -⟩
    · exact absurd ⟨g, hg⟩ hsound
    · exact hparts g
  case kept =>
    rcases part_ofContent path ht with ⟨hsound, hparts, -⟩ | ⟨hbroken, hparts, -⟩
    · exact iff_of_true (fun g _ ↦ hparts g) fun h ↦ absurd h hsound
    · simp only [found, hparts, hbroken, forall_const, eq_comm]
  case compared =>
    intro content' path' t' ht' g hown
    -- Each of the two documents is read or has a broken group; only where they differ in that do
    -- the group's own settings and its defaults meet.
    rcases part_ofContent path ht with ⟨hsound, hparts, -⟩ | ⟨hbroken, hparts, -⟩ <;>
      rcases part_ofContent path' ht' with ⟨hsound', hparts', -⟩ | ⟨hbroken', hparts', -⟩
    · simp only [found, hparts, hparts', hown, hsound, hsound', true_or]
    · simp only [found, hparts, hparts', hsound, hbroken', iff_false, not_true_eq_false, false_or,
        eq_comm]
    · simp only [found, hparts, hparts', hown, hsound', hbroken, iff_true, false_or]
    · simp only [found, hparts, hparts', hbroken, hbroken', true_or]

/-- A manifest that names the default sources, and a quiet period. -/
def Sample.quiet (period : String) : String :=
  "[project]\ninclude = [\"src\"]\nwatch = true\n\n[batch]\nquiet_period_ms = " ++ period ++ "\n"

theorem groups_kept_iff_quiet :
    ∃ t, Table.ofText (Sample.quiet "\"soon\"") = .ok t ∧ Group.batch.IsBroken t ∧
      (find? Group.sources.name t.entries).isSome ∧
      (∃ d ∈ (ofContent (Sample.quiet "\"soon\"") ⟨fileName⟩).2, d.severity = .error) ∧
      ∀ g : Group, ¬g.IsBroken t →
        (ofContent (Sample.quiet "\"soon\"") ⟨fileName⟩).1.part g = g.own t := by
  obtain ⟨t, ht, hbatch, hnamed, hsources, hoptions⟩ :=
    exists_of_any_toOption (x := Table.ofText (Sample.quiet "\"soon\"")) (P := fun t ↦
      Group.batch.IsBroken t ∧ (find? Group.sources.name t.entries).isSome ∧
        Group.sources.own t = .default ∧ (find? Group.options.name t.entries).isNone)
      (by decide +kernel)
  obtain ⟨herror, -, -, hkept, -⟩ := groups_kept_iff ⟨fileName⟩ ht
  refine ⟨t, ht, hbatch, hnamed, herror.2 ⟨_, hbatch⟩, hkept.2 fun _ g hg ↦ ?_⟩
  cases g with
  | sources => exact hsources
  | options => rw [Group.own, Option.isNone_iff_eq_none.1 hoptions, Option.elim_none]
  | batch => exact absurd hbatch hg

/-- A manifest with a directory of sources and a quiet period. -/
def Sample.withPeriod (period : String) : String :=
  "[project]\ninclude = [\"lib\"]\n\n[batch]\nquiet_period_ms = " ++ period ++ "\n"

/-- A quiet period that is no number takes the directory of sources away. -/
theorem broken_group_disturbs :
    ∃ t, Table.ofText (Sample.withPeriod "\"soon\"") = .ok t ∧
      Group.batch.IsBroken t ∧ ¬Group.sources.IsBroken t ∧
      (Group.sources.own t).directories = [⟨"lib"⟩] ∧
      (ofContent (Sample.withPeriod "\"soon\"") ⟨fileName⟩).1.sources.directories = [⟨"src"⟩] ∧
      (ofContent (Sample.withPeriod "5") ⟨fileName⟩).1.sources.directories = [⟨"lib"⟩] := by
  obtain ⟨t, ht, hbroken, hsound, hown⟩ :=
    exists_of_any_toOption (x := Table.ofText (Sample.withPeriod "\"soon\"")) (P := fun t ↦
      Group.batch.IsBroken t ∧ ¬Group.sources.IsBroken t ∧
        (Group.sources.own t).directories = [⟨"lib"⟩]) (by decide +kernel)
  exact ⟨t, ht, hbroken, hsound, hown, by decide +kernel, by decide +kernel⟩

end Coalesce.Manifest
