import Coalesce.Manifest.Field
import Coalesce.Toml.Distinct

/-!
# Values of settings

A node stands for a value, whatever its place in the document (`Node.plain`), and settings can be
shown as values again. The two belong together: a field takes just the nodes that stand for a value
of its kind, and then shows that value and leaves all others as they were (`Field.Sets`). Everything
about the fields of a group follows from that (`Describes`), so that no proof has to look at a
reader again.
-/

namespace Coalesce

namespace Toml.Node

/-- The value that a node stands for. -/
def plain : Node → Value
  | .string _ v => .string v
  | .integer _ v => .integer v
  | .float _ v => .float v
  | .boolean _ v => .boolean v
  | .datetime _ v => .datetime v
  | .array _ elements => .array (plains elements)
  | .tables elements => .array (plains elements)
  | .table _ entries => .table (plainEntries entries)
where
  /-- The values that the elements of a list stand for. -/
  plains : List Node → List Value
    | [] => []
    | node :: nodes => plain node :: plains nodes
  /-- The values that the entries of a table stand for. -/
  plainEntries : List (Key × Node) → List (String × Value)
    | [] => []
    | (key, node) :: entries => (key.name, plain node) :: plainEntries entries

/-- Whether a node is a table. -/
def isTable : Node → Bool
  | .table .. => true
  | _ => false

/-- The names of all keys in a node, at any depth. -/
def allKeys : Node → List String
  | .array _ elements | .tables elements => ofElements elements
  | .table _ entries => ofEntries entries
  | _ => []
where
  /-- The names of all keys in the elements of a list. -/
  ofElements : List Node → List String
    | [] => []
    | node :: nodes => allKeys node ++ ofElements nodes
  /-- The names of all keys in a table. -/
  ofEntries : List (Key × Node) → List String
    | [] => []
    | (key, node) :: entries => key.name :: allKeys node ++ ofEntries entries

theorem plains_eq_map (nodes : List Node) : plain.plains nodes = nodes.map plain := by
  induction nodes with
  | nil => rfl
  | cons node nodes ih => rw [plain.plains, ih, List.map_cons]

theorem mem_allKeys_table {form : TableForm} {entries : List (Key × Node)} {entry : Key × Node}
    {name : String} (hentry : entry ∈ entries) (hname : name ∈ entry.2.allKeys) :
    name ∈ (table form entries).allKeys := by
  rw [allKeys]
  induction entries with
  | nil => cases hentry
  | cons first entries ih =>
    rw [allKeys.ofEntries, List.mem_append, List.mem_cons]
    rcases List.mem_cons.1 hentry with rfl | hentry
    · exact Or.inl (Or.inr hname)
    · exact Or.inr (ih hentry)

end Toml.Node

namespace Manifest

open Toml (Node Key Value find? keys)

/-! ## Values that are kept -/

mutual

/-- A value is kept as it was given, unless a table in it may be taken for a date-time. -/
theorem value_eq_plain : ∀ node : Node, datetimeKey ∉ node.allKeys → value node = .ok node.plain
  | .string .., _ | .integer .., _ | .float .., _ | .boolean .., _ | .datetime .., _ => rfl
  | .array _ elements, h => by
    rw [value, values_eq_plains elements h]
    rfl
  | .tables elements, h => by
    rw [value, values_eq_plains elements h]
    rfl
  | .table _ [], _ => rfl
  | .table _ ((key, node) :: entries), h => by
    rw [Node.allKeys, Node.allKeys.ofEntries, List.mem_append, List.mem_cons, not_or, not_or] at h
    obtain ⟨⟨hkey, hnode⟩, hentries⟩ := h
    unfold value
    rw [if_neg (Ne.symm hkey), value_eq_plain node hnode,
      valueEntries_eq_plainEntries entries hentries]
    rfl

theorem values_eq_plains : ∀ nodes : List Node, datetimeKey ∉ Node.allKeys.ofElements nodes →
    value.values nodes = .ok (Node.plain.plains nodes)
  | [], _ => rfl
  | node :: nodes, h => by
    rw [Node.allKeys.ofElements, List.mem_append, not_or] at h
    rw [value.values, value_eq_plain node h.1, values_eq_plains nodes h.2]
    rfl

theorem valueEntries_eq_plainEntries : ∀ entries : List (Key × Node),
    datetimeKey ∉ Node.allKeys.ofEntries entries →
      value.valueEntries entries = .ok (Node.plain.plainEntries entries)
  | [], _ => rfl
  | (key, node) :: entries, h => by
    rw [Node.allKeys.ofEntries, List.mem_append, List.mem_cons, not_or, not_or] at h
    obtain ⟨⟨-, hnode⟩, hentries⟩ := h
    rw [value.valueEntries, value_eq_plain node hnode,
      valueEntries_eq_plainEntries entries hentries]
    rfl

end

/-! ## Kinds of values -/

/-- The kinds of values that settings have. -/
inductive Kind where
  | boolean
  | text
  | count
  | texts
deriving DecidableEq, Repr

/-- Whether a value is a text. -/
def isText : Value → Bool
  | .string _ => true
  | _ => false

/-- Whether a value is of a kind. -/
def Kind.admits : Kind → Value → Bool
  | boolean, .boolean _ => true
  | text, value => isText value
  | count, .integer n => 0 ≤ n
  | texts, .array elements => elements.all isText
  | _, _ => false

variable {α σ : Type}

/-- A reader takes just the nodes that stand for what it shows, and these are of a kind. -/
structure Reads (read : Node → Except Complaint α) (shown : α → Value) (kind : Kind) : Prop where
  eq_ok_iff : ∀ {node : Node} {a : α}, read node = .ok a ↔ node.plain = shown a
  admits_iff : ∀ {value : Value}, kind.admits value = true ↔ ∃ a, value = shown a

theorem reads_boolean : Reads boolean .boolean .boolean where
  eq_ok_iff {node _} := by cases node <;> simp [boolean, unfit, Node.plain]
  admits_iff {value} := by cases value <;> simp [Kind.admits]

theorem reads_text : Reads text .string .text where
  eq_ok_iff {node _} := by cases node <;> simp [text, unfit, Node.plain]
  admits_iff {value} := by cases value <;> simp [Kind.admits, isText]

theorem reads_path : Reads path (fun p ↦ .string p.text) .text where
  eq_ok_iff {node p} := by
    obtain ⟨text⟩ := p
    cases node <;> simp [path, unfit, Node.plain]
  admits_iff {value} := by
    cases value <;> simp [Kind.admits, isText]
    next text => exact ⟨⟨text⟩, rfl⟩

theorem reads_count : Reads count (fun n ↦ .integer n) .count where
  eq_ok_iff {node n} := by
    cases node <;> simp [count, unfit, Node.plain]
    next value =>
      split <;> simp <;> omega
  admits_iff {value} := by
    cases value <;> simp [Kind.admits]
    next value => exact ⟨fun h ↦ ⟨value.toNat, by omega⟩, by rintro ⟨n, rfl⟩; omega⟩

namespace Reads

variable {read : Node → Except Complaint α} {shown : α → Value} {kind : Kind}

theorem mapM_eq_ok_iff (h : Reads read shown kind) {nodes : List Node} {l : List α} :
    nodes.mapM read = .ok l ↔ nodes.map Node.plain = l.map shown := by
  rw [Coalesce.mapM_eq_ok_iff, ← List.forall₂_eq_eq_eq, List.forall₂_map_left_iff,
    List.forall₂_map_right_iff]
  simp only [h.eq_ok_iff]

theorem forall_admits_iff (h : Reads read shown kind) {values : List Value} :
    (∀ value ∈ values, kind.admits value = true) ↔ ∃ l, values = List.map shown l := by
  simp only [h.admits_iff, ← exists_forall₂_iff, ← List.forall₂_eq_eq_eq,
    List.forall₂_map_right_iff]

protected theorem listOf (h : Reads read shown .text) :
    Reads (Manifest.listOf read) (fun l ↦ .array (l.map shown)) .texts where
  eq_ok_iff {node l} := by
    cases node <;>
      simp [Manifest.listOf, unfit, Node.plain, Toml.Node.plains_eq_map, h.mapM_eq_ok_iff]
  admits_iff {value} := by
    cases value with
    | array elements =>
      simp only [Kind.admits, List.all_eq_true, Value.array.injEq, ← h.forall_admits_iff]
    | _ => simp [Kind.admits]

end Reads

/-! ## Fields -/

/-- Settings, shown as values: each one's name and its value, if it has one. -/
abbrev Shown := List (String × Option Value)

/-- What is shown, with a value given anew. -/
def Shown.given (name : String) (value : Value) (shown : Shown) : Shown :=
  shown.map fun (other, value?) ↦ (other, if other = name then some value else value?)

/-- What is shown, with the values that a table gives. -/
def Shown.overlaid (shown : Shown) (entries : List (Key × Node)) : Shown :=
  shown.map fun (name, value?) ↦ (name, ((find? name entries).map Node.plain).or value?)

/-- A field takes just the nodes that stand for a value of its kind. Then it shows that value, and
all others as they were. -/
structure Field.Sets (display : σ → Shown) (field : Field σ) (setting : String × Kind) : Prop where
  name : field.name = setting.1
  exists_iff : ∀ {node : Node} {s : σ},
    (∃ s', field.set node s = .ok s') ↔ setting.2.admits node.plain = true
  shown : ∀ {node : Node} {s s' : σ},
    field.set node s = .ok s' → display s' = (display s).given setting.1 node.plain

variable {display : σ → Shown} {fields : List (Field σ)} {settings : List (String × Kind)}
  {entries : List (Key × Node)} {key : Key} {node : Node} {name : String} {p p' : Progress σ}

theorem Reads.sets {read : Node → Except Complaint α} {shown : α → Value} {kind : Kind}
    (h : Reads read shown kind) {put : α → σ → σ}
    (hput : ∀ a s, display (put a s) = (display s).given name (shown a)) :
    Field.Sets display (.of name read put) (name, kind) where
  name := rfl
  exists_iff {node s} := by
    constructor
    · rintro ⟨s', hset⟩
      obtain ⟨a, hread, -⟩ := bind_eq_ok_iff.1 hset
      exact h.admits_iff.2 ⟨a, h.eq_ok_iff.1 hread⟩
    · intro hadmits
      obtain ⟨a, ha⟩ := h.admits_iff.1 hadmits
      exact ⟨put a s, bind_eq_ok_iff.2 ⟨a, h.eq_ok_iff.2 ha, rfl⟩⟩
  shown {node s s'} hset := by
    obtain ⟨a, hread, hset⟩ := bind_eq_ok_iff.1 hset
    obtain rfl := Except.ok.inj hset
    rw [hput, h.eq_ok_iff.1 hread]

/-- Fields are described by the names and the kinds of the settings that they show. -/
structure Describes (display : σ → Shown) (settings : List (String × Kind))
    (fields : List (Field σ)) : Prop where
  sets : List.Forall₂ (Field.Sets display) fields settings
  names : ∀ s, (display s).map Prod.fst = settings.map Prod.fst

theorem find?_of_sets (h : List.Forall₂ (Field.Sets display) fields settings) (name : String) :
    fields.find? (·.name == name) = none ∧ settings.lookup name = none ∨
      ∃ field kind, fields.find? (·.name == name) = some field ∧
        settings.lookup name = some kind ∧ field.Sets display (name, kind) := by
  induction h with
  | nil => exact Or.inl ⟨rfl, rfl⟩
  | @cons field setting fields settings hfield _ ih =>
    obtain ⟨name', kind⟩ := setting
    have hname : field.name = name' := hfield.name
    by_cases heq : name' = name
    · subst heq
      exact Or.inr ⟨field, kind, by simp [hname], by simp, hfield⟩
    · rw [List.find?_cons_of_neg (by simpa [hname] using heq),
        List.lookup_cons, (beq_eq_false_iff_ne).2 (Ne.symm heq)]
      exact ih

/-! ### Taking entries -/

theorem lookup_eq_none_iff : settings.lookup name = none ↔ name ∉ settings.map Prod.fst := by
  rw [List.lookup_eq_none_iff, List.mem_map, not_exists]
  simp only [bne_iff_ne, not_and]
  exact forall₂_congr fun _ _ ↦ ne_comm

/-- The names in a table that no setting has. -/
def strays (settings : List (String × Kind)) (entries : List (Key × Node)) : List String :=
  (keys entries).filter fun name ↦ (settings.lookup name).isNone

theorem mem_strays_iff : name ∈ strays settings entries ↔
    name ∈ keys entries ∧ name ∉ settings.map Prod.fst := by
  rw [strays, List.mem_filter, Option.isNone_iff_eq_none, lookup_eq_none_iff]

theorem Shown.overlaid_nil (shown : Shown) : shown.overlaid [] = shown := by
  simp [overlaid, find?]

/-- A value that is given at the front of a table is not given again. -/
theorem Shown.overlaid_cons (shown : Shown) (h : key.name ∉ keys entries) :
    shown.overlaid ((key, node) :: entries) =
      (shown.given key.name node.plain).overlaid entries := by
  rw [overlaid, overlaid, given, List.map_map]
  refine List.map_congr_left fun ⟨name, value?⟩ _ ↦ ?_
  dsimp only [Function.comp_apply]
  rw [Toml.find?_cons]
  by_cases hname : name = key.name
  · rw [if_pos hname.symm, if_pos hname, hname, Toml.find?_eq_none_iff.2 h]
    rfl
  · rw [if_neg (Ne.symm hname), if_neg hname]

theorem Shown.given_of_not_mem {shown : Shown} {value : Value} (h : name ∉ shown.map Prod.fst) :
    shown.given name value = shown := by
  refine (List.map_congr_left fun ⟨other, value?⟩ hmem ↦ ?_).trans (List.map_id shown)
  have hother : other ≠ name := by
    rintro rfl
    exact h (List.mem_map.2 ⟨_, hmem, rfl⟩)
  dsimp only
  rw [if_neg hother]
  rfl

theorem placed_eq_ok_iff {x : Except Complaint α} {start : Nat} {a : α} :
    placed start x = .ok a ↔ x = .ok a := by
  cases x <;> simp [placed]

namespace Describes

variable (h : Describes display settings fields)
include h

theorem exists_takeEntry_iff (p : Progress σ) (entry : Key × Node) :
    (∃ p', takeEntry fields p entry = .ok p') ↔
      ∀ kind ∈ settings.lookup entry.1.name, kind.admits entry.2.plain = true := by
  rw [takeEntry]
  rcases find?_of_sets h.sets entry.1.name with
    ⟨hfind, hlookup⟩ | ⟨field, kind, hfind, hlookup, hset⟩
  · rw [hfind, hlookup]
    exact iff_of_true ⟨_, rfl⟩ nofun
  · rw [hfind, hlookup]
    constructor
    · rintro ⟨p', htake⟩ _ ⟨⟩
      obtain ⟨s, hs, -⟩ := bind_eq_ok_iff.1 htake
      exact hset.exists_iff.1 ⟨s, placed_eq_ok_iff.1 hs⟩
    · intro hadmits
      obtain ⟨s, hs⟩ := hset.exists_iff.2 (hadmits kind rfl)
      exact ⟨_, bind_eq_ok_iff.2 ⟨s, placed_eq_ok_iff.2 hs, rfl⟩⟩

theorem takeEntry_eq_ok (htake : takeEntry fields p (key, node) = .ok p') :
    display p'.settings = (display p.settings).given key.name node.plain ∧
      p'.unknown = p.unknown ++ strays settings [(key, node)] := by
  rw [takeEntry] at htake
  rcases find?_of_sets h.sets key.name with ⟨hfind, hlookup⟩ | ⟨field, kind, hfind, hlookup, hset⟩
  · rw [hfind] at htake
    obtain rfl := Except.ok.inj htake
    have hname : key.name ∉ (display p.settings).map Prod.fst := by
      rw [h.names]
      exact lookup_eq_none_iff.1 hlookup
    exact ⟨(Shown.given_of_not_mem hname).symm, by simp [strays, keys, hlookup]⟩
  · rw [hfind] at htake
    obtain ⟨s, hs, htake⟩ := bind_eq_ok_iff.1 htake
    obtain rfl := Except.ok.inj htake
    exact ⟨hset.shown (placed_eq_ok_iff.1 hs), by simp [strays, keys, hlookup]⟩

theorem exists_takeEntries_iff (s : σ) :
    (∃ p, takeEntries fields s entries = .ok p) ↔ ∀ entry ∈ entries,
      ∀ kind ∈ settings.lookup entry.1.name, kind.admits entry.2.plain = true :=
  exists_foldlM_iff h.exists_takeEntry_iff _ _

theorem unknown_takeEntries {s : σ} (htake : takeEntries fields s entries = .ok p) :
    p.unknown = strays settings entries := by
  have hstep : ∀ p entry p', takeEntry fields p entry = .ok p' →
      p'.unknown = p.unknown ++ strays settings [entry] :=
    fun _ ⟨_, _⟩ _ htake ↦ (h.takeEntry_eq_ok htake).2
  rw [append_of_foldlM Progress.unknown hstep htake, List.nil_append, strays, keys,
    List.map_eq_flatMap, List.filter_flatMap]
  rfl

/-- The settings that a table gives are shown as it gives them, all others as they were. -/
theorem display_takeEntries {s : σ} (hkeys : (keys entries).Nodup)
    (htake : takeEntries fields s entries = .ok p) :
    display p.settings = (display s).overlaid entries := by
  suffices hrun : ∀ p₀ : Progress σ, entries.foldlM (takeEntry fields) p₀ = .ok p →
      display p.settings = (display p₀.settings).overlaid entries from hrun ⟨s, []⟩ htake
  clear htake
  induction entries with
  | nil =>
    intro p₀ htake
    obtain rfl := Except.ok.inj htake
    exact (Shown.overlaid_nil _).symm
  | cons entry entries ih =>
    intro p₀ htake
    obtain ⟨key, node⟩ := entry
    obtain ⟨hkey, hkeys⟩ := List.nodup_cons.1 hkeys
    rw [List.foldlM_cons] at htake
    obtain ⟨p₁, hfirst, htake⟩ := bind_eq_ok_iff.1 htake
    rw [ih hkeys p₁ htake, (h.takeEntry_eq_ok hfirst).1, Shown.overlaid_cons _ hkey]

theorem exists_takeElements_iff (s : σ) (elements : List Node) :
    (∃ p, takeElements fields s elements = .ok p) ↔
      ∀ pair ∈ settings.zip elements, pair.1.2.admits pair.2.plain = true := by
  have hrun : (∃ s', (fields.zip elements).foldlM (fun s taken ↦ taken.1.set taken.2 s) s =
      .ok s') ↔ ∀ pair ∈ settings.zip elements, pair.1.2.admits pair.2.plain = true := by
    have hsets := h.sets
    clear h
    induction hsets generalizing s elements with
    | nil => exact iff_of_true ⟨s, rfl⟩ (List.forall_mem_nil _)
    | cons hset _ ih =>
      cases elements with
      | nil => exact iff_of_true ⟨s, rfl⟩ (List.forall_mem_nil _)
      | cons node elements =>
        simp only [List.zip_cons_cons, List.foldlM_cons, bind_eq_ok_iff, List.forall_mem_cons,
          ← hset.exists_iff (s := s)]
        constructor
        · rintro ⟨s', t, ht, hrest⟩
          exact ⟨⟨t, ht⟩, (ih t elements).1 ⟨s', hrest⟩⟩
        · rintro ⟨⟨t, ht⟩, hrest⟩
          obtain ⟨s', hs'⟩ := (ih t elements).2 hrest
          exact ⟨s', t, ht, hs'⟩
  rw [← hrun]
  constructor
  · rintro ⟨p, htake⟩
    obtain ⟨s', hs', -⟩ := bind_eq_ok_iff.1 htake
    exact ⟨s', hs'⟩
  · rintro ⟨s', hs'⟩
    exact ⟨⟨s', []⟩, bind_eq_ok_iff.2 ⟨s', hs', rfl⟩⟩

end Describes

end Manifest

end Coalesce
