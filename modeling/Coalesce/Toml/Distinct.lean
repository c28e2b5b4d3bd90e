import Coalesce.Toml.Document
import Mathlib.Data.List.Nodup

/-!
# Keys are distinct

No table of a document that can be read has two entries of one name (`Table.isProper_of_ofText`).
Every entry comes into a table in one of two ways: it is put where an entry of its name was, or
behind the others if there is none (`put`, `addEntry`). All else is to follow the tables on their
way: a walk through tables changes the one at its end and puts it back (`exists_of_descend_cons`),
and readers hand on what they have read (`Reader.Yields`).
-/

namespace Coalesce

/-! ## Results of steps that may fail -/

variable {ε α β σ : Type}

theorem bind_eq_ok_iff {x : Except ε α} {f : α → Except ε β} {b : β} :
    x >>= f = .ok b ↔ ∃ a, x = .ok a ∧ f a = .ok b := by
  cases x <;> simp [bind, Except.bind]

theorem exists_of_any_toOption {x : Except ε α} {P : α → Prop} [DecidablePred P]
    (h : (x.toOption.any fun a ↦ decide (P a)) = true) : ∃ a, x = .ok a ∧ P a := by
  cases x with
  | error => cases h
  | ok a => exact ⟨a, rfl, of_decide_eq_true h⟩

/-- What is made of the elements of a list is made of them one by one. -/
theorem mapM_eq_ok_iff {f : α → Except ε β} {l : List α} {l' : List β} :
    l.mapM f = .ok l' ↔ List.Forall₂ (fun a b ↦ f a = .ok b) l l' := by
  induction l generalizing l' with
  | nil => cases l' <;> simp [pure, Except.pure]
  | cons a l ih =>
    simp only [List.mapM_cons, bind_eq_ok_iff, ih]
    cases l' <;> simp [pure, Except.pure]

theorem exists_forall₂_iff {R : α → β → Prop} {l : List α} :
    (∃ l', List.Forall₂ R l l') ↔ ∀ a ∈ l, ∃ b, R a b := by
  induction l with
  | nil => exact iff_of_true ⟨[], .nil⟩ nofun
  | cons a l ih =>
    rw [List.forall_mem_cons, ← ih]
    simp only [List.forall₂_cons_left_iff]
    exact ⟨fun ⟨_, b, l', hb, hl', _⟩ ↦ ⟨⟨b, hb⟩, l', hl'⟩,
      fun ⟨⟨b, hb⟩, l', hl'⟩ ↦ ⟨b :: l', b, l', hb, hl', rfl⟩⟩

/-- What each step of a run preserves is preserved by the run. -/
theorem foldlM_invariant {step : σ → α → Except ε σ} {P : σ → Prop} {l : List α} {s s' : σ}
    (hstep : ∀ a ∈ l, ∀ s s', P s → step s a = .ok s' → P s') (hs : P s)
    (h : l.foldlM step s = .ok s') : P s' := by
  induction l generalizing s with
  | nil =>
    obtain rfl := Except.ok.inj h
    exact hs
  | cons a l ih =>
    rw [List.foldlM_cons, bind_eq_ok_iff] at h
    obtain ⟨t, ht, h⟩ := h
    rw [List.forall_mem_cons] at hstep
    exact ih hstep.2 (hstep.1 s t hs ht) h

/-- A list to which each step of a run adds something has in the end what all steps have added. -/
theorem append_of_foldlM {step : σ → α → Except ε σ} (list : σ → List β) {added : α → List β}
    (hstep : ∀ s a s', step s a = .ok s' → list s' = list s ++ added a) {l : List α} {s s' : σ}
    (h : l.foldlM step s = .ok s') : list s' = list s ++ l.flatMap added := by
  induction l generalizing s with
  | nil =>
    obtain rfl := Except.ok.inj h
    exact (List.append_nil _).symm
  | cons a l ih =>
    rw [List.foldlM_cons, bind_eq_ok_iff] at h
    obtain ⟨t, ht, h⟩ := h
    rw [ih h, hstep s a t ht, List.append_assoc, List.flatMap_cons]

/-- A run is through just if each step is, provided that this does not hang on the state. -/
theorem exists_foldlM_iff {step : σ → α → Except ε σ} {Q : α → Prop}
    (hstep : ∀ s a, (∃ s', step s a = .ok s') ↔ Q a) (l : List α) (s : σ) :
    (∃ s', l.foldlM step s = .ok s') ↔ ∀ a ∈ l, Q a := by
  induction l generalizing s with
  | nil => exact iff_of_true ⟨s, rfl⟩ nofun
  | cons a l ih =>
    simp only [List.foldlM_cons, bind_eq_ok_iff, List.forall_mem_cons]
    constructor
    · rintro ⟨s', t, ht, hl⟩
      exact ⟨(hstep s a).1 ⟨t, ht⟩, (ih t).1 ⟨s', hl⟩⟩
    · rintro ⟨ha, hl⟩
      obtain ⟨t, ht⟩ := (hstep s a).2 ha
      obtain ⟨s', hs'⟩ := (ih t).2 hl
      exact ⟨s', t, ht, hs'⟩

namespace Toml

/-! ## Entries of a table -/

/-- The names of the entries of a table. -/
def keys (entries : List (Key × Node)) : List String := entries.map fun entry ↦ entry.1.name

/-- A node in which no table has two entries of one name. -/
inductive Node.IsProper : Node → Prop
  | string {start : Nat} {value : String} : IsProper (.string start value)
  | integer {start : Nat} {value : Int} : IsProper (.integer start value)
  | float {start : Nat} {value : Binary64} : IsProper (.float start value)
  | boolean {start : Nat} {value : Bool} : IsProper (.boolean start value)
  | datetime {start : Nat} {value : Datetime} : IsProper (.datetime start value)
  | array {start : Nat} {elements : List Node} (helements : ∀ node ∈ elements, IsProper node) :
    IsProper (.array start elements)
  | table {form : TableForm} {entries : List (Key × Node)} (hkeys : (keys entries).Nodup)
    (hentries : ∀ entry ∈ entries, IsProper entry.2) : IsProper (.table form entries)
  | tables {elements : List Node} (helements : ∀ node ∈ elements, IsProper node) :
    IsProper (.tables elements)

/-- Entries that a table may have: their names are distinct, in them and below them. -/
structure AreProper (entries : List (Key × Node)) : Prop where
  distinct : (keys entries).Nodup
  below : ∀ entry ∈ entries, entry.2.IsProper

variable {entries : List (Key × Node)} {elements : List Node} {form : TableForm} {key : Key}
  {node : Node} {name : String} {manner : Manner} {t t' : Table}

theorem Node.isProper_table_iff : (Node.table form entries).IsProper ↔ AreProper entries :=
  ⟨fun | .table hkeys hentries => ⟨hkeys, hentries⟩, fun h ↦ .table h.distinct h.below⟩

theorem Node.isProper_tables_iff :
    (Node.tables elements).IsProper ↔ ∀ node ∈ elements, node.IsProper :=
  ⟨fun | .tables helements => helements, .tables⟩

theorem find?_cons (name : String) (key : Key) (node : Node) (entries : List (Key × Node)) :
    find? name ((key, node) :: entries) =
      if key.name = name then some node else find? name entries := by
  by_cases h : key.name = name <;> simp [find?, h]

theorem find?_eq_none_iff : find? name entries = none ↔ name ∉ keys entries := by
  simp [find?, keys]

theorem mem_of_find? (h : find? name entries = some node) :
    ∃ key : Key, key.name = name ∧ (key, node) ∈ entries := by
  obtain ⟨⟨key, found⟩, hfind, rfl⟩ := Option.map_eq_some_iff.1 h
  exact ⟨key, by simpa using List.find?_some hfind, List.mem_of_find?_eq_some hfind⟩

theorem find?_of_mem (hkeys : (keys entries).Nodup) (h : (key, node) ∈ entries) :
    find? key.name entries = some node := by
  induction entries with
  | nil => cases h
  | cons entry entries ih =>
    obtain ⟨other, old⟩ := entry
    obtain ⟨hother, hkeys⟩ := List.nodup_cons.1 hkeys
    rw [find?_cons]
    rcases List.mem_cons.1 h with heq | h
    · obtain ⟨rfl, rfl⟩ := Prod.mk.inj heq
      rw [if_pos rfl]
    · have hne : other.name ≠ key.name := fun heq ↦
        hother (List.mem_map.2 ⟨_, h, heq.symm⟩)
      rw [if_neg hne, ih hkeys h]

theorem keys_put (key : Key) (node : Node) (entries : List (Key × Node)) :
    keys (put key node entries) =
      if key.name ∈ keys entries then keys entries else keys entries ++ [key.name] := by
  induction entries with
  | nil => rfl
  | cons entry entries ih =>
    obtain ⟨other, old⟩ := entry
    rw [put]
    by_cases hname : other.name = key.name
    · have hmem : key.name ∈ keys ((other, old) :: entries) :=
        List.mem_cons.2 (Or.inl hname.symm)
      rw [if_pos hname, if_pos hmem]
      rfl
    · have hmem : key.name ∈ keys ((other, old) :: entries) ↔ key.name ∈ keys entries :=
        List.mem_cons.trans (or_iff_right (Ne.symm hname))
      rw [if_neg hname, keys, List.map_cons, ← keys, ih]
      simp only [hmem]
      split <;> rfl

theorem mem_put {entry : Key × Node} (h : entry ∈ put key node entries) :
    entry.2 = node ∨ entry ∈ entries := by
  induction entries with
  | nil => exact Or.inl (congrArg Prod.snd (List.mem_singleton.1 h))
  | cons first entries ih =>
    obtain ⟨other, old⟩ := first
    rw [put] at h
    split at h
    next =>
      rcases List.mem_cons.1 h with rfl | h
      · exact Or.inl rfl
      · exact Or.inr (List.mem_cons_of_mem _ h)
    next =>
      rcases List.mem_cons.1 h with rfl | h
      · exact Or.inr List.mem_cons_self
      · exact (ih h).imp_right (List.mem_cons_of_mem _)

namespace AreProper

theorem nil : AreProper [] := ⟨List.nodup_nil, nofun⟩

theorem find? (h : AreProper entries) (hfind : find? name entries = some node) : node.IsProper := by
  obtain ⟨key, -, hmem⟩ := mem_of_find? hfind
  exact h.below _ hmem

theorem put (h : AreProper entries) (hnode : node.IsProper) : AreProper (put key node entries) := by
  constructor
  · rw [keys_put]
    split
    next => exact h.distinct
    next hfresh => exact List.concat_eq_append ▸ List.Nodup.concat hfresh h.distinct
  · intro entry hentry
    rcases mem_put hentry with heq | hentry
    · exact heq ▸ hnode
    · exact h.below entry hentry

theorem concat (h : AreProper entries) (hfree : Toml.find? key.name entries = none)
    (hnode : node.IsProper) : AreProper (entries ++ [(key, node)]) := by
  constructor
  · rw [keys, List.map_append]
    exact List.concat_eq_append ▸ List.Nodup.concat (find?_eq_none_iff.1 hfree) h.distinct
  · intro entry hentry
    rcases List.mem_append.1 hentry with hentry | hentry
    · exact h.below entry hentry
    · rwa [List.mem_singleton.1 hentry]

theorem remove (h : AreProper entries) (name : String) : AreProper (remove name entries) :=
  ⟨(List.filter_sublist.map _).nodup h.distinct, fun entry hentry ↦
    h.below entry (List.mem_filter.1 hentry).1⟩

end AreProper

/-! ## Walks through tables -/

/-- A step of a walk: it goes on in a table that is there or is made, and puts it back changed. -/
theorem exists_of_descend_cons {α : Type} {work : Table → Except Cause (Table × α)}
    {walked : List String} {path : List Key} {result : α}
    (h : descend manner work walked (key :: path) t = .ok (t', result)) :
    ∃ inner inner' : Table,
      descend manner work (walked ++ [key.name]) path inner = .ok (inner', result) ∧
        (find? key.name t.entries = none ∧ inner.entries = [] ∧
            t' = ⟨t.form, Toml.put key inner'.node t.entries⟩ ∨
          find? key.name t.entries = some inner.node ∧
            t' = ⟨t.form, Toml.put key inner'.node t.entries⟩ ∨
          ∃ elements, find? key.name t.entries = some (.tables elements) ∧
            inner.node ∈ elements ∧
            t' = ⟨t.form,
              Toml.put key (.tables (elements.dropLast ++ [inner'.node])) t.entries⟩) := by
  simp only [descend] at h
  split at h
  next hfind =>
    simp only [bind_eq_ok_iff] at h
    obtain ⟨_, ⟨⟨inner', _⟩, hdescend, hinner⟩, h⟩ := h
    obtain rfl := Except.ok.inj hinner
    obtain ⟨rfl, rfl⟩ := Prod.mk.inj (Except.ok.inj h)
    exact ⟨_, inner', hdescend, Or.inl ⟨hfind, rfl, rfl⟩⟩
  next form entries hfind =>
    simp only [bind_eq_ok_iff] at h
    obtain ⟨-, -, _, ⟨⟨inner', _⟩, hdescend, hinner⟩, h⟩ := h
    obtain rfl := Except.ok.inj hinner
    obtain ⟨rfl, rfl⟩ := Prod.mk.inj (Except.ok.inj h)
    exact ⟨_, inner', hdescend, Or.inr (Or.inl ⟨hfind, rfl⟩)⟩
  next elements hfind =>
    split at h
    next form entries hlast =>
      simp only [bind_eq_ok_iff] at h
      obtain ⟨_, ⟨⟨inner', _⟩, hdescend, hinner⟩, _, hlisted, h⟩ := h
      obtain rfl := Except.ok.inj hinner
      obtain rfl := Except.ok.inj hlisted
      obtain ⟨rfl, rfl⟩ := Prod.mk.inj (Except.ok.inj h)
      exact ⟨_, inner', hdescend,
        Or.inr (Or.inr ⟨elements, hfind, List.mem_of_getLast? hlast, rfl⟩)⟩
    next => cases h
  next => cases h

/-- A walk leaves tables proper if the work at its end does, and hands on what holds of its
result. -/
theorem AreProper.descend_and {α : Type} {P : α → Prop} {work : Table → Except Cause (Table × α)}
    (hwork : ∀ t t' result, AreProper t.entries → work t = .ok (t', result) →
      AreProper t'.entries ∧ P result)
    {walked : List String} {path : List Key} {result : α} (h : AreProper t.entries)
    (hdescend : descend manner work walked path t = .ok (t', result)) :
    AreProper t'.entries ∧ P result := by
  induction path generalizing walked t t' with
  | nil => exact hwork t t' result h (by rwa [Toml.descend] at hdescend)
  | cons key path ih =>
    obtain ⟨inner, inner', hinner, hfound⟩ := exists_of_descend_cons hdescend
    rcases hfound with ⟨-, hempty, rfl⟩ | ⟨hfind, rfl⟩ | ⟨elements, hfind, hlast, rfl⟩
    · have hproper : AreProper inner.entries := hempty ▸ AreProper.nil
      obtain ⟨hinner', hresult⟩ := ih hproper hinner
      exact ⟨h.put (Node.isProper_table_iff.2 hinner'), hresult⟩
    · obtain ⟨hinner', hresult⟩ := ih (Node.isProper_table_iff.1 (h.find? hfind)) hinner
      exact ⟨h.put (Node.isProper_table_iff.2 hinner'), hresult⟩
    · have helements := Node.isProper_tables_iff.1 (h.find? hfind)
      obtain ⟨hinner', hresult⟩ := ih (Node.isProper_table_iff.1 (helements _ hlast)) hinner
      refine ⟨h.put (Node.isProper_tables_iff.2 fun node hnode ↦ ?_), hresult⟩
      rcases List.mem_append.1 hnode with hnode | hnode
      · exact helements node (List.dropLast_subset _ hnode)
      · rw [List.mem_singleton.1 hnode]
        exact Node.isProper_table_iff.2 hinner'

theorem AreProper.descend {α : Type} {work : Table → Except Cause (Table × α)}
    (hwork : ∀ t t' result, AreProper t.entries → work t = .ok (t', result) → AreProper t'.entries)
    {walked : List String} {path : List Key} {result : α} (h : AreProper t.entries)
    (hdescend : Toml.descend manner work walked path t = .ok (t', result)) : AreProper t'.entries :=
  (h.descend_and (P := fun _ ↦ True)
    (fun t t' result ht hwork' ↦ ⟨hwork t t' result ht hwork', trivial⟩) hdescend).1

theorem AreProper.addEntry {path : List Key} {taken : Cause} {result : Unit}
    (h : AreProper t.entries) (hnode : node.IsProper)
    (hadd : addEntry path key node taken t = .ok (t', result)) : AreProper t'.entries := by
  rw [Toml.addEntry] at hadd
  split at hadd
  next => cases hadd
  next =>
    split at hadd
    next hfree =>
      obtain ⟨rfl, -⟩ := Prod.mk.inj (Except.ok.inj hadd)
      exact h.concat hfree hnode
    next => cases hadd

theorem areProper_inlineTable {start : Nat} {pairs : List (List Key × Key × Node)}
    (hpairs : ∀ pair ∈ pairs, pair.2.2.IsProper) (h : inlineTable start pairs = .ok t) :
    AreProper t.entries := by
  refine foldlM_invariant (P := fun t : Table ↦ AreProper t.entries) ?_ AreProper.nil h
  intro pair hpair t t' ht hstep
  obtain ⟨⟨t'', _⟩, hdescend, hstep⟩ := bind_eq_ok_iff.1 hstep
  obtain rfl := Except.ok.inj hstep
  exact ht.descend (fun _ _ _ ht hadd ↦ ht.addEntry (hpairs pair hpair) hadd) hdescend

/-! ## Documents in the making -/

/-- The tables of a draft are proper. -/
structure Draft.IsProper (d : Draft) : Prop where
  root : AreProper d.root.entries
  current : AreProper d.current.entries

namespace Draft

variable {d d' : Draft} {path : List Key} {start : Nat}

theorem isProper_empty : empty.IsProper := ⟨.nil, .nil⟩

theorem IsProper.add (h : d.IsProper) (hnode : node.IsProper)
    (hadd : d.add path key node = .ok d') :
    d'.IsProper := by
  obtain ⟨⟨current, _⟩, hdescend, hadd⟩ := bind_eq_ok_iff.1 hadd
  obtain rfl := Except.ok.inj hadd
  exact ⟨h.root, h.current.descend (fun _ _ _ ht hadd ↦ ht.addEntry hnode hadd) hdescend⟩

theorem IsProper.finished (h : d.IsProper) (hfinished : d.finished = .ok t) :
    AreProper t.entries := by
  have hcurrent : d.current.node.IsProper := Node.isProper_table_iff.2 h.current
  rw [Draft.finished] at hfinished
  split at hfinished
  next =>
    obtain rfl := Except.ok.inj hfinished
    exact h.current
  next key _ =>
    obtain ⟨⟨root, _⟩, hdescend, hfinished⟩ := bind_eq_ok_iff.1 hfinished
    obtain rfl := Except.ok.inj hfinished
    refine h.root.descend (fun t t' _ ht hplace ↦ ?_) hdescend
    split at hplace
    next elements _ hfind =>
      obtain ⟨rfl, -⟩ := Prod.mk.inj (Except.ok.inj hplace)
      refine ht.put (Node.isProper_tables_iff.2 fun node hnode ↦ ?_)
      rcases List.mem_append.1 hnode with hnode | hnode
      · exact Node.isProper_tables_iff.1 (ht.find? hfind) node hnode
      · rwa [List.mem_singleton.1 hnode]
    next _ hfree =>
      obtain ⟨rfl, -⟩ := Prod.mk.inj (Except.ok.inj hplace)
      exact ht.concat hfree hcurrent
    next => cases hplace

theorem IsProper.openTable (h : d.IsProper) (hopen : d.openTable start path = .ok d') :
    d'.IsProper := by
  obtain ⟨root, hroot, hopen⟩ := bind_eq_ok_iff.1 hopen
  obtain ⟨⟨root', entries⟩, hdescend, hopen⟩ := bind_eq_ok_iff.1 hopen
  obtain rfl := Except.ok.inj hopen
  have hproper := (h.finished hroot).descend_and (P := AreProper) (fun t t' entries ht htake ↦ ?_)
    hdescend
  · exact ⟨hproper.1, hproper.2⟩
  · split at htake
    next =>
      obtain ⟨rfl, rfl⟩ := Prod.mk.inj (Except.ok.inj htake)
      exact ⟨ht, .nil⟩
    next entries hfind =>
      obtain ⟨rfl, rfl⟩ := Prod.mk.inj (Except.ok.inj htake)
      exact ⟨ht.remove _, Node.isProper_table_iff.1 (ht.find? hfind)⟩
    next => cases htake

theorem IsProper.openListed (h : d.IsProper) (hopen : d.openListed start path = .ok d') :
    d'.IsProper := by
  obtain ⟨root, hroot, hopen⟩ := bind_eq_ok_iff.1 hopen
  split at hopen
  next =>
    obtain rfl := Except.ok.inj hopen
    exact ⟨h.finished hroot, .nil⟩
  next key _ =>
    obtain ⟨⟨root', _⟩, hdescend, hopen⟩ := bind_eq_ok_iff.1 hopen
    obtain rfl := Except.ok.inj hopen
    refine ⟨(h.finished hroot).descend (fun t t' _ ht henlist ↦ ?_) hdescend, .nil⟩
    split at henlist
    next hfree =>
      obtain ⟨rfl, -⟩ := Prod.mk.inj (Except.ok.inj henlist)
      exact ht.concat hfree (Node.isProper_tables_iff.2 nofun)
    next =>
      obtain ⟨rfl, -⟩ := Prod.mk.inj (Except.ok.inj henlist)
      exact ht
    next => cases henlist

end Draft

/-! ## Readers -/

namespace Reader

variable {P : α → Prop} {Q : β → Prop} {r s : Reader α} {f : α → Reader β}

/-- Whatever a reader is done with has a property. -/
def Yields (r : Reader α) (P : α → Prop) : Prop :=
  ∀ ⦃c : Cursor⦄ ⦃value : α⦄ ⦃next : Cursor⦄, r c = .done value next → P value

theorem yields_pure {value : α} (h : P value) : (pure value : Reader α).Yields P := by
  rintro _ _ _ ⟨⟩
  exact h

theorem yields_missing (fault : Fault) : (missing fault : Reader α).Yields P := nofun

theorem yields_failing (fault : Fault) : (failing fault : Reader α).Yields P := nofun

theorem Yields.bind (hr : r.Yields P) (hf : ∀ value, P value → (f value).Yields Q) :
    (r >>= f).Yields Q := by
  intro c value next h
  simp only [Bind.bind] at h
  split at h
  next value' next' hdone => exact hf value' (hr hdone) h
  next => cases h
  next => cases h

theorem yields_bind (hf : ∀ value, (f value).Yields Q) : (r >>= f).Yields Q :=
  Yields.bind (P := fun _ ↦ True) (fun _ _ _ _ ↦ trivial) fun value _ ↦ hf value

theorem Yields.committed (hr : r.Yields P) : r.committed.Yields P := by
  intro c value next h
  rw [Reader.committed] at h
  split at h
  next => cases h
  next => exact hr h

theorem Yields.orElse (hr : r.Yields P) (hs : s.Yields P) : (r.orElse s).Yields P := by
  intro c value next h
  rw [Reader.orElse] at h
  split at h
  next => exact hs h
  next => exact hr h

theorem Yields.optional (hr : r.Yields P) :
    r.optional.Yields fun value? ↦ ∀ value ∈ value?, P value := by
  intro c value? next h
  rw [Reader.optional] at h
  split at h
  next value next' hdone =>
    cases h
    rintro _ ⟨⟩
    exact hr hdone
  next =>
    cases h
    exact nofun
  next => cases h

theorem Yields.withFault (hr : r.Yields P) (change : Fault → Fault) :
    (r.withFault change).Yields P := by
  intro c value next h
  rw [Reader.withFault] at h
  split at h
  next value' next' hdone =>
    cases h
    exact hr hdone
  next => cases h
  next => cases h

theorem of_ite {p : Prop} [Decidable p] {outcome outcome' : Outcome α} {value : α} {next : Cursor}
    (h : outcome = .done value next → P value) (h' : outcome' = .done value next → P value) :
    (if p then outcome else outcome') = .done value next → P value := by
  split
  · exact h
  · exact h'

theorem Yields.unquoted (hr : r.Yields P) : r.unquoted.Yields P := (hr.withFault _).withFault _

/-! ### Values -/

theorem yields_numberOrDate (start : Nat) : (numberOrDate start).Yields Node.IsProper :=
  .orElse (yields_bind fun _ ↦ yields_pure .datetime)
    (.orElse (yields_bind fun _ ↦ yields_pure .float) (yields_bind fun _ ↦ yields_pure .integer))

section Nested

variable {fuel : Nat} (hvalue : ∀ depth, (Reader.value fuel depth).Yields Node.IsProper)
include hvalue

theorem yields_elements_succ
    (helements : ∀ depth before, (∀ node ∈ before, Node.IsProper node) →
      (Reader.elements fuel depth before).Yields fun nodes ↦ ∀ node ∈ nodes, node.IsProper)
    (depth : Nat) {before : List Node} (hbefore : ∀ node ∈ before, node.IsProper) :
    (Reader.elements (fuel + 1) depth before).Yields fun nodes ↦ ∀ node ∈ nodes, node.IsProper := by
  have helement :
      (do spacing; let v ← Reader.value fuel depth; spacing; return v : Reader Node).Yields
        Node.IsProper :=
    yields_bind fun _ ↦ (hvalue depth).bind fun _ hv ↦ yields_bind fun _ ↦ yields_pure hv
  rw [Reader.elements]
  refine Yields.bind (P := fun v? ↦ ∀ v ∈ v?, Node.IsProper v) (Yields.optional ?_) ?_
  · dsimp only
    split
    · exact yields_bind fun _ ↦ helement
    · exact helement
  · rintro (_ | v) hv
    · dsimp only
      split
      · exact yields_bind fun _ ↦ yields_bind fun _ ↦ yields_pure hbefore
      · exact yields_bind fun _ ↦ yields_pure hbefore
    · refine helements depth _ (List.forall_mem_append.2 ⟨hbefore, ?_⟩)
      exact List.forall_mem_singleton.2 (hv v rfl)

theorem yields_pairs_succ
    (hpairs : ∀ depth before, (∀ pair ∈ before, Node.IsProper pair.2.2) →
      (Reader.pairs fuel depth before).Yields fun pairs ↦ ∀ pair ∈ pairs, pair.2.2.IsProper)
    (depth : Nat) {before : List (List Key × Key × Node)}
    (hbefore : ∀ pair ∈ before, pair.2.2.IsProper) :
    (Reader.pairs (fuel + 1) depth before).Yields fun pairs ↦
      ∀ pair ∈ pairs, pair.2.2.IsProper := by
  rw [Reader.pairs]
  refine Yields.bind (P := fun pair? ↦ ∀ pair ∈ pair?, Node.IsProper pair.2.2)
    (Yields.optional ?_) ?_
  · dsimp only
    -- Behind the first pair there is a comma to read; then both branches go on alike.
    split <;>
      [refine yields_bind fun _ ↦ yields_bind fun segments ↦ Yields.committed ?_;
        refine yields_bind fun segments ↦ Yields.committed ?_]
    all_goals
      refine yields_bind fun _ ↦ yields_bind fun _ ↦ (hvalue depth).bind fun v hv ↦
        yields_bind fun _ ↦ ?_
      split
      · exact yields_pure hv
      · exact yields_bind fun _ ↦ yields_missing _
  · rintro (_ | pair) hpair
    · exact yields_pure hbefore
    · refine hpairs depth _ (List.forall_mem_append.2 ⟨hbefore, ?_⟩)
      exact List.forall_mem_singleton.2 (hpair pair rfl)

end Nested

theorem yields_value_succ {fuel : Nat}
    (helements : ∀ depth before, (∀ node ∈ before, Node.IsProper node) →
      (Reader.elements fuel depth before).Yields fun nodes ↦ ∀ node ∈ nodes, node.IsProper)
    (hpairs : ∀ depth before, (∀ pair ∈ before, Node.IsProper pair.2.2) →
      (Reader.pairs fuel depth before).Yields fun pairs ↦ ∀ pair ∈ pairs, pair.2.2.IsProper)
    (depth : Nat) : (Reader.value (fuel + 1) depth).Yields Node.IsProper := by
  intro c node next h
  rw [Reader.value] at h
  dsimp only at h
  split at h
  next => cases h
  next =>
    revert h
    -- One case for each kind of first character.
    refine of_ite ?string (of_ite (of_ite nofun ?array) (of_ite (of_ite nofun ?braces)
      (of_ite ?digit (of_ite ?underscore (of_ite ?point (of_ite ?t (of_ite ?f (of_ite ?name
        ?other))))))))
    all_goals intro h
    case string => exact yields_bind (fun _ ↦ yields_pure .string) h
    case array =>
      refine yields_bind (fun _ ↦ ?_) h
      exact (helements _ [] nofun).committed.bind fun _ hnodes ↦
        yields_bind fun _ ↦ yields_pure (.array hnodes)
    case braces =>
      refine yields_bind (fun _ ↦ yields_bind fun _ ↦ ?_) h
      refine (hpairs _ [] nofun).committed.bind fun pairs hnodes ↦ yields_bind fun _ ↦ ?_
      split
      next => exact yields_failing _
      next t ht =>
        exact yields_bind fun _ ↦
          yields_pure (Node.isProper_table_iff.2 (areProper_inlineTable hnodes ht))
    case digit => exact yields_numberOrDate _ h
    case underscore => exact Yields.withFault (yields_bind fun _ ↦ yields_pure .integer) _ h
    case point => exact Yields.withFault (yields_bind fun _ ↦ yields_pure .float) _ h
    case t | f => exact Yields.unquoted (yields_bind fun _ ↦ yields_pure .boolean) h
    case name => exact Yields.unquoted (yields_bind fun _ ↦ yields_pure .float) h
    case other => exact Yields.unquoted (yields_missing _) h

/-- Values, elements of arrays and entries between braces are proper. The induction is on the number
that all three readers carry. -/
theorem yields_value (fuel : Nat) :
    (∀ depth, (Reader.value fuel depth).Yields Node.IsProper) ∧
      (∀ depth before, (∀ node ∈ before, Node.IsProper node) →
        (Reader.elements fuel depth before).Yields fun nodes ↦ ∀ node ∈ nodes, node.IsProper) ∧
      ∀ depth before, (∀ pair ∈ before, Node.IsProper pair.2.2) →
        (Reader.pairs fuel depth before).Yields fun pairs ↦ ∀ pair ∈ pairs, pair.2.2.IsProper := by
  induction fuel with
  | zero => exact ⟨fun _ ↦ nofun, fun _ _ h ↦ yields_pure h, fun _ _ h ↦ yields_pure h⟩
  | succ fuel ih =>
    obtain ⟨hvalue, helements, hpairs⟩ := ih
    exact ⟨yields_value_succ helements hpairs,
      fun depth _ h ↦ yields_elements_succ hvalue helements depth h,
      fun depth _ h ↦ yields_pairs_succ hvalue hpairs depth h⟩

/-! ### Lines -/

variable {d : Draft}

theorem yields_entry (h : d.IsProper) : (entry d).Yields Draft.IsProper := by
  rw [entry]
  refine yields_bind fun _ ↦ yields_bind fun segments ↦ yields_bind fun _ ↦ yields_bind fun _ ↦
    yields_bind fun _ ↦ ((yields_value _).1 0).bind fun node hnode ↦ yields_bind fun _ ↦ ?_
  split
  next => exact yields_missing _
  next =>
    split
    next => exact yields_missing _
    next d' hadd => exact yields_pure (h.add hnode hadd)

theorem yields_header (h : d.IsProper) : (header d).Yields Draft.IsProper := by
  refine Yields.withFault (fun c d' next hdone ↦ ?_) _
  dsimp only at hdone
  split at hdone
  next =>
    refine yields_bind (fun path ↦ ?_) hdone
    split
    next hopen => exact yields_pure (h.openListed hopen)
    next => exact yields_missing _
  next =>
    refine yields_bind (fun path ↦ ?_) hdone
    split
    next hopen => exact yields_pure (h.openTable hopen)
    next => exact yields_missing _
  next => cases hdone

theorem yields_lines (fuel : Nat) (h : d.IsProper) : (lines fuel d).Yields Draft.IsProper := by
  induction fuel generalizing d with
  | zero => exact yields_pure h
  | succ fuel ih =>
    rw [lines]
    refine yields_bind fun _ ↦ yields_bind fun next? ↦ ?_
    split
    next => exact yields_pure h
    next => exact yields_bind fun _ ↦ ih h
    next => exact (yields_header h).committed.bind fun _ h' ↦ ih h'
    next => exact yields_bind fun _ ↦ ih h
    next =>
      refine yields_bind fun break? ↦ ?_
      split
      next => exact ih h
      next => exact yields_pure h
    next => exact (yields_entry h).committed.bind fun _ h' ↦ ih h'

theorem yields_document : document.Yields fun t ↦ AreProper t.entries := by
  rw [document]
  refine yields_bind fun _ ↦ yields_bind fun _ ↦ (yields_lines _ Draft.isProper_empty).bind
    fun d hd ↦ yields_bind fun _ ↦ ?_
  split
  next t hfinished => exact yields_pure (hd.finished hfinished)
  next => exact yields_bind fun _ ↦ yields_missing _

end Reader

/-- **Keys are distinct** in every table of a document that can be read. -/
theorem Table.isProper_of_ofText {text : String} (h : Table.ofText text = .ok t) :
    t.node.IsProper := by
  rw [Table.ofText] at h
  split at h
  next t' _ hdone =>
    obtain rfl := Except.ok.inj h
    exact Node.isProper_table_iff.2 (Reader.yields_document hdone)
  next => cases h
  next => cases h

end Toml

end Coalesce
