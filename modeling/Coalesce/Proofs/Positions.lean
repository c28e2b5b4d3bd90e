import Coalesce.Text.Position
import Coalesce.Text.Split
import Mathlib.Data.List.DropRight
import Mathlib.Data.Prod.Lex
import Mathlib.Data.String.Basic
import Mathlib.Order.Bounds.Basic

/-!
# Positions are exact

At a byte offset a text falls into the characters that start before it and all others (`Text.Cut`).
The walk that looks for a position passes the former and stops, so the position is that behind the
front of the text: its line is told by the newlines in the front and its column by what is behind
the last of them (`Text.Position.behind_eq`). Everything else is about fronts. Lines are those that
the text splits into, of which the last piece of the front is the beginning of one. A longer front
has a later position, and offsets between two characters have fronts of different lengths, so they
have different positions, in the same order.
-/

namespace Coalesce

namespace Text

open String (utf8Len)

variable {offset index : Nat} {cs front back : List Char} {c : Char}

/-! ## Fronts -/

/-- The characters that start before a byte offset. -/
def startingBefore (offset : Nat) (cs : List Char) : List Char :=
  (cs.zipIdx.filter fun entry ↦ utf8Len (cs.take entry.2) < offset).map Prod.fst

/-- The front of a text has the characters that start before a byte offset, and no others do, where
the text itself starts at byte `index`. -/
structure Cut (offset index : Nat) (front back : List Char) : Prop where
  before : ∀ i < front.length, index + utf8Len (front.take i) < offset
  behind : back ≠ [] → offset ≤ index + utf8Len front

theorem exists_cut (offset index : Nat) (cs : List Char) :
    ∃ front back, cs = front ++ back ∧ Cut offset index front back := by
  induction cs generalizing index with
  | nil => exact ⟨[], [], rfl, by simp, by simp⟩
  | cons c cs ih =>
    by_cases hstop : offset ≤ index
    · exact ⟨[], c :: cs, rfl, by simp, fun _ ↦ by simpa using hstop⟩
    · obtain ⟨front, back, rfl, hcut⟩ := ih (index + c.utf8Size)
      refine ⟨c :: front, back, rfl, fun i hi ↦ ?_, fun hback ↦ ?_⟩
      · cases i with
        | zero => simpa using hstop
        | succ i =>
          have hbefore := hcut.before i (Nat.succ_lt_succ_iff.1 hi)
          rw [List.take_succ_cons, String.utf8Len_cons]
          omega
      · have hbehind := hcut.behind hback
        rw [String.utf8Len_cons]
        omega

namespace Cut

theorem tail (h : Cut offset index (c :: front) back) :
    Cut offset (index + c.utf8Size) front back := by
  refine ⟨fun i hi ↦ ?_, fun hback ↦ ?_⟩
  · have hbefore := h.before (i + 1) (Nat.succ_lt_succ hi)
    rw [List.take_succ_cons, String.utf8Len_cons] at hbefore
    omega
  · have hbehind := h.behind hback
    rw [String.utf8Len_cons] at hbehind
    omega

theorem walk_eq (h : Cut offset index front back) (p : Position) :
    Position.walk offset (front ++ back) index p = front.foldl Position.after p := by
  induction front generalizing index p with
  | nil =>
    cases back with
    | nil => rfl
    | cons c back => exact if_pos (by simpa using h.behind (List.cons_ne_nil c back))
  | cons c front ih =>
    have hpassed : ¬offset ≤ index := by simpa using h.before 0 (Nat.succ_pos _)
    rw [List.cons_append, Position.walk, if_neg hpassed, ih h.tail]
    rfl

theorem startingBefore_eq (h : Cut offset 0 front back) :
    startingBefore offset (front ++ back) = front := by
  have hfront : ∀ entry ∈ front.zipIdx,
      decide (utf8Len ((front ++ back).take entry.2) < offset) = true := by
    rintro ⟨c, i⟩ hmem
    obtain ⟨-, hi, -⟩ := List.mem_zipIdx hmem
    rw [Nat.zero_add] at hi
    have hbefore := h.before i hi
    rw [decide_eq_true_iff, List.take_append_of_le_length hi.le]
    omega
  have hback : ∀ entry ∈ back.zipIdx (0 + front.length),
      ¬decide (utf8Len ((front ++ back).take entry.2) < offset) = true := by
    rintro ⟨c, i⟩ hmem
    obtain ⟨hi, hlast, -⟩ := List.mem_zipIdx hmem
    have hne : back ≠ [] := by
      rintro rfl
      simp at hmem
    have hbehind := h.behind hne
    have hlonger : utf8Len front ≤ utf8Len ((front ++ back).take i) := by
      rw [List.take_append, List.take_of_length_le (by omega), String.utf8Len_append]
      omega
    rw [decide_eq_true_iff, not_lt]
    exact (hbehind.trans (Nat.zero_add _).le).trans hlonger
  rw [startingBefore, List.zipIdx_append, List.filter_append, List.filter_eq_self.2 hfront,
    List.filter_eq_nil_iff.2 hback, List.append_nil, List.zipIdx_map_fst]

end Cut

/-- The characters that start before an offset are the front of the text there. -/
theorem exists_front (offset : Nat) (cs : List Char) :
    ∃ back, cs = startingBefore offset cs ++ back ∧
      Cut offset 0 (startingBefore offset cs) back := by
  obtain ⟨front, back, rfl, hcut⟩ := exists_cut offset 0 cs
  rw [hcut.startingBefore_eq]
  exact ⟨back, rfl, hcut⟩

theorem startingBefore_utf8Len (front back : List Char) :
    startingBefore (utf8Len front) (front ++ back) = front := by
  refine Cut.startingBefore_eq ⟨fun i hi ↦ ?_, fun _ ↦ by omega⟩
  obtain ⟨c, rest, hrest⟩ := List.exists_cons_of_ne_nil (List.drop_eq_nil_iff.not.2 (not_le.2 hi))
  have hpos := c.utf8Size_pos
  have hlen := congrArg utf8Len (List.take_append_drop i front)
  rw [String.utf8Len_append, hrest, String.utf8Len_cons] at hlen
  omega

/-! ## Positions behind fronts -/

namespace Position

/-- The position behind some characters at the start of a text. -/
def behind (front : List Char) : Position := front.foldl after origin

/-- **The position behind a front**: its newlines are counted, and the characters behind the last of
them. -/
theorem behind_eq (front : List Char) :
    behind front = ⟨front.count '\n', (front.rtakeWhile (· ≠ '\n')).length⟩ := by
  induction front using List.reverseRecOn with
  | nil => rfl
  | append_singleton front c ih =>
    rw [behind, List.foldl_concat, ← behind, ih, after, List.count_append, List.rtakeWhile_concat]
    by_cases hc : c = '\n' <;> simp [hc]

/-- Positions are ordered by lines, and within a line by columns. -/
def rank (p : Position) : ℕ ×ₗ ℕ := toLex (p.line, p.column)

theorem rank_lt_after (p : Position) (c : Char) : p.rank < (p.after c).rank := by
  rw [rank, rank, Prod.Lex.toLex_lt_toLex, after]
  split
  next => exact Or.inl (Nat.lt_succ_self _)
  next => exact Or.inr ⟨rfl, Nat.lt_succ_self _⟩

theorem rank_behind_lt {more : List Char} (hmore : more ≠ []) (front : List Char) :
    (behind front).rank < (behind (front ++ more)).rank := by
  induction more using List.reverseRecOn with
  | nil => exact absurd rfl hmore
  | append_singleton more c ih =>
    have hlast : behind (front ++ (more ++ [c])) = (behind (front ++ more)).after c := by
      rw [behind, ← List.append_assoc, List.foldl_concat, behind]
    have hle : (behind front).rank ≤ (behind (front ++ more)).rank := by
      by_cases hnil : more = []
      · rw [hnil, List.append_nil]
      · exact (ih hnil).le
    rw [hlast]
    exact hle.trans_lt (rank_lt_after _ c)

/-- The position of an offset is that behind the characters that start before it. -/
theorem ofOffset_eq (text : String) (offset : Nat) :
    ofOffset text offset = behind (startingBefore offset text.toList) := by
  obtain ⟨front, back, htext, hcut⟩ := exists_cut offset 0 text.toList
  rw [ofOffset, htext, hcut.walk_eq, hcut.startingBefore_eq, behind]

/-! ## Lines -/

/-- A front falls into as many lines as it has newlines, and what is behind the last of them. -/
theorem exists_split_front (front : List Char) : ∃ lines,
    split '\n' front = lines ++ [front.rtakeWhile (· ≠ '\n')] ∧
      lines.length = front.count '\n' := by
  induction front using List.reverseRecOn with
  | nil => exact ⟨[], rfl, rfl⟩
  | append_singleton front c ih =>
    obtain ⟨lines, hsplit, hlength⟩ := ih
    by_cases hc : c = '\n'
    · refine ⟨split '\n' front, ?_, ?_⟩
      · rw [hc, split_append_cons, List.rtakeWhile_concat]
        rfl
      · rw [hsplit, List.length_append, hlength, List.count_append, hc]
        rfl
    · have hone : split '\n' [c] = [c] :: [] := split_eq_singleton (by simpa using Ne.symm hc)
      refine ⟨lines, ?_, ?_⟩
      · rw [split_append hsplit hone, List.rtakeWhile_concat, if_pos (by simpa using hc)]
      · rw [hlength, List.count_append, List.count_singleton, if_neg (by simpa using hc),
          Nat.add_zero]

/-- The position behind a front is in a line of the text, and not behind its end. -/
theorem exists_line (front back : List Char) : ∃ line,
    (split '\n' (front ++ back))[(behind front).line]? = some line ∧
      (behind front).column ≤ line.length := by
  obtain ⟨lines, hfront, hlength⟩ := exists_split_front front
  obtain ⟨first, rest, hback⟩ := List.exists_cons_of_ne_nil (split_ne_nil '\n' back)
  refine ⟨front.rtakeWhile (· ≠ '\n') ++ first, ?_, ?_⟩
  · have hline : (behind front).line = lines.length := by rw [behind_eq, hlength]
    rw [split_append hfront hback, hline, List.getElem?_append_right le_rfl, Nat.sub_self]
    rfl
  · rw [behind_eq, List.length_append]
    exact Nat.le_add_right _ _

end Position

/-! ## Boundaries -/

theorem isValid_iff {text : String} {offset : Nat} : String.Pos.Raw.IsValid text ⟨offset⟩ ↔
    ∃ front back, text.toList = front ++ back ∧ offset = utf8Len front := by
  rw [String.Pos.Raw.isValid_iff_exists_take_toList]
  constructor
  · rintro ⟨i, hi⟩
    exact ⟨text.toList.take i, text.toList.drop i, (List.take_append_drop i _).symm,
      hi.trans (String.utf8ByteSize_ofList _)⟩
  · rintro ⟨front, back, htext, rfl⟩
    refine ⟨front.length, ?_⟩
    rw [htext, List.take_left, String.utf8ByteSize_ofList]

theorem exists_append_of_utf8Len_lt {front' back' : List Char}
    (h : front ++ back = front' ++ back') (hlt : utf8Len front < utf8Len front') :
    ∃ more, more ≠ [] ∧ front' = front ++ more := by
  rcases List.append_eq_append_iff.1 h with ⟨more, hmore, -⟩ | ⟨more, hmore, -⟩
  · refine ⟨more, ?_, hmore⟩
    rintro rfl
    rw [hmore, List.append_nil] at hlt
    exact lt_irrefl _ hlt
  · rw [hmore, String.utf8Len_append] at hlt
    omega

namespace Position

theorem ofOffset_utf8Len {text : String} (h : text.toList = front ++ back) :
    ofOffset text (utf8Len front) = behind front := by
  rw [ofOffset_eq, h, startingBefore_utf8Len]

/-- What it means that the positions in a text are exact. -/
structure AreExact (text : String) : Prop where
  /-- The line is the number of newlines among the characters that start before the offset. -/
  line_eq : ∀ offset, (ofOffset text offset).line = (startingBefore offset text.toList).count '\n'
  line_le : ∀ offset, (ofOffset text offset).line ≤ text.toList.count '\n'
  /-- The column is the number of those characters behind the last of these newlines. -/
  column_eq : ∀ offset, (ofOffset text offset).column =
    ((startingBefore offset text.toList).rtakeWhile (· ≠ '\n')).length
  /-- The text has that line, and the column is not behind the end of it. -/
  column_le : ∀ offset, ∃ line,
    (split '\n' text.toList)[(ofOffset text offset).line]? = some line ∧
      (ofOffset text offset).column ≤ line.length
  /-- Between characters, up to the end of the text, a later offset has a later position. -/
  strictMonoOn :
    StrictMonoOn (fun offset ↦ (ofOffset text offset).rank) {b | String.Pos.Raw.IsValid text ⟨b⟩}
  injOn : Set.InjOn (ofOffset text) {b | String.Pos.Raw.IsValid text ⟨b⟩}
  /-- Within a character the position is that of the next boundary. -/
  next_boundary : ∀ offset ≤ text.utf8ByteSize, ∃ b,
    IsLeast {b | String.Pos.Raw.IsValid text ⟨b⟩ ∧ offset ≤ b} b ∧
      ofOffset text offset = ofOffset text b
  past_end : ∀ offset, text.utf8ByteSize ≤ offset →
    ofOffset text offset = ofOffset text text.utf8ByteSize

/-- The next boundary is at the end of the characters that start before an offset. -/
theorem isLeast_boundary {text : String} (h : offset ≤ text.utf8ByteSize) :
    IsLeast {b | String.Pos.Raw.IsValid text ⟨b⟩ ∧ offset ≤ b}
      (utf8Len (startingBefore offset text.toList)) := by
  obtain ⟨back, htext, hcut⟩ := exists_front offset text.toList
  refine ⟨⟨isValid_iff.2 ⟨_, back, htext, rfl⟩, ?_⟩, ?_⟩
  · by_cases hback : back = []
    · rw [hback, List.append_nil] at htext
      rwa [← htext, String.utf8Len_toList]
    · simpa using hcut.behind hback
  · rintro b ⟨hb, hoffset⟩
    obtain ⟨front', back', htext', rfl⟩ := isValid_iff.1 hb
    by_contra hlt
    obtain ⟨more, hmore, hfront⟩ :=
      exists_append_of_utf8Len_lt (htext'.symm.trans htext) (not_le.1 hlt)
    have hbefore := hcut.before front'.length
      (by rw [hfront, List.length_append]; have := List.length_pos_iff.2 hmore; omega)
    rw [hfront, List.take_left] at hbefore
    omega

theorem startingBefore_of_le {text : String} (h : text.utf8ByteSize ≤ offset) :
    startingBefore offset text.toList = text.toList := by
  obtain ⟨back, htext, hcut⟩ := exists_front offset text.toList
  have hback : back = [] := by
    by_contra hback
    have hsize := congrArg utf8Len htext
    have hpos := String.utf8Len_eq_zero.not.2 hback
    have hbehind := hcut.behind hback
    rw [String.utf8Len_toList, String.utf8Len_append] at hsize
    omega
  rw [hback, List.append_nil] at htext
  exact htext.symm

theorem strictMonoOn_ofOffset (text : String) :
    StrictMonoOn (fun offset ↦ (ofOffset text offset).rank)
      {b | String.Pos.Raw.IsValid text ⟨b⟩} := by
  intro a ha b hb h
  obtain ⟨front, back, htext, rfl⟩ := isValid_iff.1 ha
  obtain ⟨front', back', htext', rfl⟩ := isValid_iff.1 hb
  obtain ⟨more, hmore, rfl⟩ := exists_append_of_utf8Len_lt (htext.symm.trans htext') h
  dsimp only
  rw [ofOffset_utf8Len htext, ofOffset_utf8Len htext']
  exact rank_behind_lt hmore front

end Position

end Text

/-- **Positions are exact**, at every offset of every text. -/
theorem positions_exact (text : String) : Text.Position.AreExact text where
  line_eq offset := by rw [Text.Position.ofOffset_eq, Text.Position.behind_eq]
  line_le offset := by
    obtain ⟨back, htext, -⟩ := Text.exists_front offset text.toList
    have hfront : Text.startingBefore offset text.toList <+: text.toList := ⟨back, htext.symm⟩
    rw [Text.Position.ofOffset_eq, Text.Position.behind_eq]
    exact hfront.sublist.count_le _
  column_eq offset := by rw [Text.Position.ofOffset_eq, Text.Position.behind_eq]
  column_le offset := by
    obtain ⟨back, htext, -⟩ := Text.exists_front offset text.toList
    rw [Text.Position.ofOffset_eq]
    nth_rewrite 1 [htext]
    exact Text.Position.exists_line _ back
  strictMonoOn := Text.Position.strictMonoOn_ofOffset text
  injOn _ ha _ hb h := (Text.Position.strictMonoOn_ofOffset text).injOn ha hb
    (congrArg Text.Position.rank h)
  next_boundary offset hoffset := by
    have hleast := Text.Position.isLeast_boundary hoffset
    obtain ⟨back, htext, -⟩ := Text.exists_front offset text.toList
    refine ⟨_, hleast, ?_⟩
    rw [Text.Position.ofOffset_utf8Len htext, Text.Position.ofOffset_eq]
  past_end offset hoffset := by
    rw [Text.Position.ofOffset_eq, Text.Position.ofOffset_eq,
      Text.Position.startingBefore_of_le hoffset, Text.Position.startingBefore_of_le le_rfl]

/-- Within the first character the position is that behind it. -/
example : Text.Position.ofOffset "é\nb" 1 = ⟨0, 1⟩ ∧ Text.Position.ofOffset "é\nb" 2 = ⟨0, 1⟩ := by
  decide

end Coalesce
