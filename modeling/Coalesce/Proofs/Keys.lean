import Coalesce.Manifest.Groups

/-!
# No key is lost

A key in a manifest either counts or is told. Where it stands decides it: a group has its fields,
the options for the compiler keep what they have no field for, and every other key is *stray*
(`IsStray`). A document has at most one entry at each place, so a stray key is told once, whatever
else a warning that reads the same is about (`nodup_straysAt`, `mem_straysAt_iff`).
-/

namespace Coalesce.Manifest

open Toml (Node Key Table AreProper find? keys find?_of_mem mem_of_find?)

variable {t : Table} {g : Group} {node : Node} {entry : Key × Node} {place : List String}
  {r : Reading} {content : String}

/-! ## Groups that are tables -/

/-- A group is a table in a document if it is there at all. -/
def Group.IsTableIn (g : Group) (t : Table) : Prop :=
  ∀ node ∈ find? g.name t.entries, node.isTable = true

instance (g : Group) (t : Table) : Decidable (g.IsTableIn t) :=
  inferInstanceAs (Decidable (∀ node ∈ find? g.name t.entries, node.isTable = true))

/-- The entries of a group's table. -/
def Group.entriesIn (g : Group) (t : Table) : List (Key × Node) :=
  match find? g.name t.entries with
  | some (.table _ entries) => entries
  | _ => []

/-- A group that is a table in a document that can be read is not there and has its defaults, or is
there and was read. -/
theorem Group.own_cases (hproper : AreProper t.entries) (htable : g.IsTableIn t)
    (hread : ofTable t = .ok r) :
    (g.entriesIn t = [] ∧ g.own t = g.default) ∨
      ∃ form p, find? g.name t.entries = some (.table form (g.entriesIn t)) ∧
        (keys (g.entriesIn t)).Nodup ∧ g.read (.table form (g.entriesIn t)) = .ok p ∧
        g.own t = p.settings := by
  rw [Group.own, entriesIn]
  cases hfind : find? g.name t.entries with
  | none => exact Or.inl ⟨rfl, rfl⟩
  | some node =>
    cases node with
    | table form entries =>
      obtain ⟨key, hkey, hmem⟩ := mem_of_find? hfind
      obtain ⟨p, hp⟩ := exists_ofTable_iff.1 ⟨r, hread⟩ _ hmem g hkey.symm
      have hentries := Toml.Node.isProper_table_iff.1 (hproper.find? hfind)
      exact Or.inr ⟨form, p, rfl, hentries.distinct, hp, settled_of_read hp⟩
    | _ => exact absurd (htable _ hfind) Bool.false_ne_true

/-! ## Settings -/

theorem shown_ofTable (hproper : AreProper t.entries) (htable : g.IsTableIn t)
    (hread : ofTable t = .ok r) :
    g.shown (r.manifest.part g) = (g.shown g.default).overlaid (g.entriesIn t) := by
  rw [part_ofTable hproper.distinct hread]
  rcases Group.own_cases hproper htable hread with ⟨hempty, hown⟩ | ⟨form, p, -, hkeys, hp, hown⟩
  · rw [hempty, hown, Shown.overlaid_nil]
  · rw [hown, Group.shown_of_read hkeys hp]

theorem extra_ofTable (hproper : AreProper t.entries) (htable : Group.options.IsTableIn t)
    (hmarker : datetimeKey ∉ t.node.allKeys) (hread : ofTable t = .ok r) :
    r.manifest.options.extra =
      (Group.options.others (Group.options.entriesIn t)).map
        fun entry ↦ (entry.1.name, entry.2.plain) := by
  have hpart : r.manifest.options = Group.options.own t :=
    part_ofTable hproper.distinct hread .options
  rcases Group.own_cases hproper htable hread with
    ⟨hempty, hown⟩ | ⟨form, p, hfind, -, hp, hown⟩
  · rw [hpart, hown, hempty]
    rfl
  · obtain ⟨o, ho, rfl⟩ := Group.read_options_eq_ok_iff.1 hp
    obtain ⟨known, extra, -, hextra, rfl⟩ := Group.readOptions_table_eq_ok_iff.1 ho
    obtain ⟨key, -, hmem⟩ := mem_of_find? hfind
    have hkept : ∀ entry ∈ Group.options.others (Group.options.entriesIn t),
        value entry.2 = .ok entry.2.plain := by
      intro entry hentry
      refine value_eq_plain entry.2 fun hname ↦ hmarker ?_
      have hgroup : datetimeKey ∈ (Node.table form (Group.options.entriesIn t)).allKeys :=
        Node.mem_allKeys_table (List.mem_filter.1 hentry).1 hname
      exact Node.mem_allKeys_table hmem hgroup
    rw [hpart, hown, eq_comm, ← List.forall₂_eq_eq_eq, List.forall₂_map_left_iff]
    refine ((List.forall₂_and_left _ _).2 ⟨hkept, hextra⟩).imp ?_
    rintro entry ⟨name, kept⟩ ⟨hplain, hvalue, rfl⟩
    rw [Except.ok.inj (hplain.symm.trans hvalue)]

/-! ## Stray keys -/

/-- The places of keys in a document that count for nothing: a key that no group stands under, and a
key of a group that no setting has, unless the group keeps it. -/
inductive IsStray (t : Table) : List String → Prop
  | top {name : String} (hname : name ∈ keys t.entries) (hgroup : ∀ g : Group, name ≠ g.name) :
    IsStray t [name]
  | inside {g : Group} {name : String} (hg : g ≠ .options) (hname : name ∈ keys (g.entriesIn t))
    (hsetting : name ∉ g.kinds.map Prod.fst) : IsStray t [g.name, name]

theorem Group.nodup_strays (h : node.IsProper) : (g.strays node).Nodup := by
  unfold strays
  split
  next => exact List.nodup_nil
  next =>
    cases h with
    | table hkeys _ => exact hkeys.filter _
    | datetime => exact List.nodup_singleton _
    | _ => exact List.nodup_nil

/-- The place of a stray key begins with the name of the entry that it is in. -/
theorem head?_of_mem_straysAt (h : place ∈ straysAt entry) : place.head? = some entry.1.name := by
  rw [straysAt] at h
  split at h
  next g hg =>
    obtain ⟨name, -, rfl⟩ := List.mem_map.1 h
    exact congrArg some (Group.ofName?_eq_some_iff.1 hg)
  next => rw [List.mem_singleton.1 h, List.head?_cons]

theorem nodup_straysAt (h : AreProper t.entries) : (t.entries.flatMap straysAt).Nodup := by
  rw [List.nodup_flatMap]
  constructor
  · intro entry hentry
    rw [straysAt]
    split
    next =>
      refine (Group.nodup_strays (h.below entry hentry)).map fun name name' heq ↦ ?_
      exact (List.cons.inj (List.cons.inj heq).2).1
    next => exact List.nodup_singleton _
  · refine (List.pairwise_map.1 h.distinct).imp fun {entry entry'} hne place hplace hplace' ↦ ?_
    have heq := (head?_of_mem_straysAt hplace).symm.trans (head?_of_mem_straysAt hplace')
    exact hne (Option.some.inj heq)

theorem Group.mem_strays_table_iff {form : Toml.TableForm} {entries : List (Key × Node)}
    {name : String} : name ∈ g.strays (.table form entries) ↔
      g ≠ .options ∧ name ∈ keys entries ∧ name ∉ g.kinds.map Prod.fst := by
  unfold strays
  split
  next hg => exact iff_of_false List.not_mem_nil fun h ↦ h.1 hg
  next hg => exact mem_strays_iff.trans (and_iff_right hg).symm

theorem mem_straysAt_iff (h : AreProper t.entries) (htables : ∀ g : Group, g.IsTableIn t) :
    place ∈ t.entries.flatMap straysAt ↔ IsStray t place := by
  rw [List.mem_flatMap]
  constructor
  · rintro ⟨⟨key, node⟩, hentry, hplace⟩
    rw [straysAt] at hplace
    split at hplace
    next g hg =>
      obtain ⟨name, hname, rfl⟩ := List.mem_map.1 hplace
      have hfind : find? g.name t.entries = some node := by
        rw [Group.ofName?_eq_some_iff.1 hg]
        exact find?_of_mem h.distinct hentry
      cases node with
      | table form entries =>
        obtain ⟨hoptions, hkey, hsetting⟩ := Group.mem_strays_table_iff.1 hname
        refine .inside hoptions ?_ hsetting
        rwa [Group.entriesIn, hfind]
      | _ => exact absurd (htables g _ hfind) Bool.false_ne_true
    next hnone =>
      rw [List.mem_singleton.1 hplace]
      refine .top (List.mem_map_of_mem hentry) fun g hg ↦ ?_
      rw [Group.ofName?_eq_some_iff.2 hg.symm] at hnone
      cases hnone
  · rintro (⟨hname, hgroup⟩ | @⟨g, name, hoptions, hname, hsetting⟩)
    · obtain ⟨entry, hentry, rfl⟩ := List.mem_map.1 hname
      refine ⟨entry, hentry, ?_⟩
      have hnone : Group.ofName? entry.1.name = none :=
        Option.eq_none_iff_forall_ne_some.2 fun g hg ↦
          hgroup g (Group.ofName?_eq_some_iff.1 hg).symm
      rw [straysAt, hnone]
      exact List.mem_singleton_self _
    · rw [Group.entriesIn] at hname
      split at hname
      next form entries hfind =>
        obtain ⟨key, hkey, hentry⟩ := mem_of_find? hfind
        refine ⟨_, hentry, ?_⟩
        rw [straysAt, Group.ofName?_eq_some_iff.2 hkey.symm]
        exact List.mem_map.2 ⟨name, Group.mem_strays_table_iff.2 ⟨hoptions, hname, hsetting⟩, rfl⟩
      next => cases hname

/-! ## Whole manifests -/

/-- **No key is lost.** In a manifest without errors, whose groups are tables, each stray key is
told once and nothing else is told; options that no setting has are kept as they were given; and
every setting has the value that its key is given, or its default. -/
theorem no_key_lost (path : FilePath) (ht : Table.ofText content = .ok t)
    (hsound : ∀ d ∈ (ofContent content path).2, d.severity ≠ .error)
    (htables : ∀ g : Group, g.IsTableIn t) (hmarker : datetimeKey ∉ t.node.allKeys) :
    let found := ofContent content path
    (∃ places : List (List String), places.Nodup ∧ (∀ place, place ∈ places ↔ IsStray t place) ∧
      found.2 = places.map fun place ↦ unknownKey path (".".intercalate place)) ∧
    found.1.options.extra =
      (Group.options.others (Group.options.entriesIn t)).map
        (fun entry ↦ (entry.1.name, entry.2.plain)) ∧
    ∀ g : Group, g.shown (found.1.part g) = (g.shown g.default).overlaid (g.entriesIn t) := by
  have hproper := Toml.Node.isProper_table_iff.1 (Table.isProper_of_ofText ht)
  intro found
  have hfound : ∃ r, ofTable t = .ok r ∧ found = (r.manifest, r.unknown.map (unknownKey path)) := by
    cases hread : ofTable t with
    | error complaint =>
      simp only [ofContent, ht, hread, List.forall_mem_singleton] at hsound
      exact absurd rfl hsound
    | ok r => exact ⟨r, rfl, by simp only [found, ofContent, ht, hread]⟩
  obtain ⟨r, hread, hfound⟩ := hfound
  rw [hfound]
  refine ⟨⟨_, nodup_straysAt hproper, fun _ ↦ mem_straysAt_iff hproper htables, ?_⟩,
    extra_ofTable hproper (htables _) hmarker hread,
    fun g ↦ shown_ofTable hproper (htables g) hread⟩
  rw [unknown_ofTable hread, List.map_map]
  rfl

/-- A manifest with dotted keys, a date-time and an option for the compiler. -/
def Sample.mixed : String :=
  "project.watch = false\nproject.deep.er = 1\nsince = 1979-05-27\n\n" ++
    "[compiler_options]\nlib.a = [1, 2]\n"

theorem no_key_lost_mixed :
    let found := ofContent Sample.mixed ⟨fileName⟩
    (∃ places : List (List String), places.Nodup ∧ ["since"] ∈ places ∧
      ["project", "deep"] ∈ places ∧
      found.2 = places.map fun place ↦ unknownKey ⟨fileName⟩ (".".intercalate place)) ∧
    found.1.options.extra.map Prod.fst = ["lib"] := by
  obtain ⟨t, ht, hmarker, ⟨hsources, hoptions, hbatch⟩, hsince, hdeep, hothers⟩ :=
    exists_of_any_toOption (x := Table.ofText Sample.mixed) (P := fun t ↦
      datetimeKey ∉ t.node.allKeys ∧
        (Group.sources.IsTableIn t ∧ Group.options.IsTableIn t ∧ Group.batch.IsTableIn t) ∧
        "since" ∈ keys t.entries ∧ "deep" ∈ keys (Group.sources.entriesIn t) ∧
        keys (Group.options.others (Group.options.entriesIn t)) = ["lib"]) (by decide +kernel)
  have htables : ∀ g : Group, g.IsTableIn t
    | .sources => hsources
    | .options => hoptions
    | .batch => hbatch
  obtain ⟨⟨places, hnodup, hplaces, hwarnings⟩, hextra, -⟩ :=
    no_key_lost ⟨fileName⟩ ht (by decide +kernel) htables hmarker
  refine ⟨⟨places, hnodup, (hplaces _).2 (.top hsince ?_), ?_, hwarnings⟩, ?_⟩
  · rintro (_ | _ | _) <;> decide
  · exact (hplaces _).2 (.inside (g := .sources) nofun hdeep (by decide))
  · rw [hextra, List.map_map]
    exact hothers

end Coalesce.Manifest
