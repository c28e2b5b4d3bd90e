import Coalesce.Text.Split

/-!
# Texts as bytes

A text is kept as bytes, one to four for a character. Not all bytes are those of a text: bytes that
came from somewhere else are read by putting a replacement character for whatever is no character,
one for each byte that begins none and one for the front of a character that is broken off
(`Text.decode`). Where the bytes are those of a text, that reads the text again
(`Text.decode_encode`).

Slashes and dots are single bytes, and these bytes occur in no other character. So whoever cares for
nothing else can take bytes for characters of the same numbers (`Text.spell`): the pieces of a text
between its slashes are found again among the pieces of its bytes (`Text.split_spell_encode`).
-/

namespace Coalesce.Text

/-- The bytes of a text. -/
def encode (cs : List Char) : List UInt8 := cs.flatMap String.utf8EncodeChar

/-- The character that some bytes begin with. -/
def firstChar? (bytes : List UInt8) : Option Char := bytes.toByteArray.utf8DecodeChar? 0

/-- Whether some bytes are the front of a character, of which one or two bytes are missing. -/
def isBrokenOff (front : List UInt8) : Bool :=
  [1, 2].any fun missing =>
    (firstChar? (front ++ List.replicate missing 0x80)).any
      (·.utf8Size == front.length + missing)

/-- How many bytes one replacement character stands for, where no character begins. -/
def brokenLength (bytes : List UInt8) : Nat :=
  ([3, 2].find? fun n => n ≤ bytes.length && isBrokenOff (bytes.take n)).getD 1

/-- What stands for a broken character. -/
def replacement : Char := '\ufffd'

/-- Reads bytes as a text, behind some that belong to a character already read. -/
def decodeFrom : (read : Nat) → List UInt8 → List Char
  | _, [] => []
  | n + 1, _ :: bytes => decodeFrom n bytes
  | 0, b :: bytes =>
    match firstChar? (b :: bytes) with
    | some c => c :: decodeFrom (c.utf8Size - 1) bytes
    | none => replacement :: decodeFrom (brokenLength (b :: bytes) - 1) bytes

/-- Reads bytes as a text. -/
def decode (bytes : List UInt8) : List Char := decodeFrom 0 bytes

/-- Bytes taken for characters of the same numbers. -/
def spell (bytes : List UInt8) : List Char := bytes.map fun b => Char.ofNat b.toNat

/-- The bytes that characters were taken for. -/
def unspell (cs : List Char) : List UInt8 := cs.map fun c => UInt8.ofNat c.toNat

/-! ## Reading bytes -/

@[simp] theorem encode_nil : encode [] = [] := rfl

@[simp] theorem encode_cons (c : Char) (cs : List Char) :
    encode (c :: cs) = String.utf8EncodeChar c ++ encode cs := rfl

@[simp] theorem encode_append (cs ds : List Char) : encode (cs ++ ds) = encode cs ++ encode ds :=
  List.flatMap_append

theorem encode_toList (s : String) : encode s.toList = s.toUTF8.data.toList := by
  rw [String.toUTF8, ← String.utf8Encode_toList, List.utf8Encode, List.data_toByteArray,
    List.toList_toArray]
  rfl

theorem encode_injective {s t : String} (h : encode s.toList = encode t.toList) : s = t := by
  rw [encode_toList, encode_toList] at h
  exact String.toByteArray_inj.1 (ByteArray.ext (Array.toList_inj.1 h))

theorem firstChar?_encodeChar (c : Char) (bytes : List UInt8) :
    firstChar? (String.utf8EncodeChar c ++ bytes) = some c := by
  rw [firstChar?, List.toByteArray_append, ByteArray.utf8DecodeChar?_utf8EncodeChar_append]

theorem decodeFrom_append {front : List UInt8} (bytes : List UInt8) :
    decodeFrom front.length (front ++ bytes) = decode bytes := by
  induction front with
  | nil => rfl
  | cons b front ih => exact ih

theorem decode_encodeChar (c : Char) (bytes : List UInt8) :
    decode (String.utf8EncodeChar c ++ bytes) = c :: decode bytes := by
  have hfirst := firstChar?_encodeChar c bytes
  have hlength := String.length_utf8EncodeChar c
  obtain ⟨b, more, hmore⟩ : ∃ b more, String.utf8EncodeChar c = b :: more := by
    refine List.exists_cons_of_length_pos ?_
    rw [hlength]
    exact c.utf8Size_pos
  rw [hmore, List.cons_append] at hfirst ⊢
  rw [hmore, List.length_cons] at hlength
  rw [decode, decodeFrom, hfirst]
  dsimp only
  rw [← hlength, Nat.add_sub_cancel, decodeFrom_append]

/-- **Reading the bytes of a text** gives the text. -/
theorem decode_encode (cs : List Char) : decode (encode cs) = cs := by
  induction cs with
  | nil => rfl
  | cons c cs ih => rw [encode_cons, decode_encodeChar, ih]

/-! ## Single bytes -/

theorem eq_of_mem_utf8EncodeChar {c d : Char} (hd : d.toNat < 128)
    (h : UInt8.ofNat d.toNat ∈ String.utf8EncodeChar c) : c = d := by
  have hnat : c.toNat = d.toNat := by
    rw [String.utf8EncodeChar] at h
    -- In a longer character every byte has its highest bit set.
    repeat' split at h
    all_goals
      simp only [List.mem_cons, List.not_mem_nil, or_false, ← UInt8.toNat_inj,
        UInt8.toNat_ofNat'] at h
      simp only [Char.toNat] at *
      omega
  exact Char.ext (UInt32.toNat_inj.1 hnat)

theorem utf8EncodeChar_of_lt {c : Char} (h : c.toNat < 128) :
    String.utf8EncodeChar c = [UInt8.ofNat c.toNat] :=
  if_pos (Nat.le_of_lt_succ h)

theorem firstChar?_eq_some_iff {c : Char} (hc : c.toNat < 128) {bytes : List UInt8} :
    firstChar? bytes = some c ↔ bytes.head? = some (UInt8.ofNat c.toNat) := by
  constructor
  · intro h
    obtain ⟨rest, hrest⟩ := ByteArray.exists_of_utf8DecodeChar?_eq_some h
    have hbytes := congrArg (fun array ↦ array.data.toList) hrest
    simp only [ByteArray.data_append, List.data_toByteArray, Array.toList_append,
      List.toList_toArray, utf8EncodeChar_of_lt hc] at hbytes
    rw [hbytes]
    rfl
  · intro h
    obtain ⟨rest, rfl⟩ := List.head?_eq_some_iff.1 h
    rw [← List.singleton_append, ← utf8EncodeChar_of_lt hc, firstChar?_encodeChar]

theorem head?_decode_eq_some_iff {c : Char} (hc : c.toNat < 128) {bytes : List UInt8} :
    (decode bytes).head? = some c ↔ bytes.head? = some (UInt8.ofNat c.toNat) := by
  rw [← firstChar?_eq_some_iff hc]
  cases bytes with
  | nil => exact iff_of_false (fun h ↦ by cases h) (fun h ↦ by cases h)
  | cons b bytes =>
    rw [decode, decodeFrom]
    cases hfirst : firstChar? (b :: bytes) with
    | some d => exact Iff.rfl
    | none =>
      refine iff_of_false (fun h ↦ ?_) (fun h ↦ by cases h)
      have hreplacement : replacement.toNat < 128 := Option.some.inj h ▸ hc
      exact absurd hreplacement (by decide)

/-! ## Bytes taken for characters -/

theorem toNat_ofNat_byte (b : UInt8) : (Char.ofNat b.toNat).toNat = b.toNat := by
  have hvalid : b.toNat.isValidChar := Or.inl (Nat.lt_trans b.toNat_lt (by decide))
  rw [Char.ofNat, dif_pos hvalid]
  rfl

theorem spell_append (as bs : List UInt8) : spell (as ++ bs) = spell as ++ spell bs :=
  List.map_append

theorem unspell_spell (bytes : List UInt8) : unspell (spell bytes) = bytes := by
  rw [unspell, spell, List.map_map]
  refine (List.map_congr_left fun b _ ↦ ?_).trans (List.map_id bytes)
  rw [Function.comp_apply, toNat_ofNat_byte, UInt8.ofNat_toNat, id]

theorem spell_unspell {cs : List Char} (h : ∀ c ∈ cs, c.toNat < 256) : spell (unspell cs) = cs := by
  rw [unspell, spell, List.map_map]
  refine (List.map_congr_left fun c hc ↦ ?_).trans (List.map_id cs)
  rw [Function.comp_apply, UInt8.toNat_ofNat_of_lt' (h c hc), Char.ofNat_toNat, id]

theorem lt_of_mem_spell {bytes : List UInt8} {c : Char} (h : c ∈ spell bytes) : c.toNat < 256 := by
  obtain ⟨b, -, rfl⟩ := List.mem_map.1 h
  rw [toNat_ofNat_byte]
  exact b.toNat_lt

theorem spell_utf8EncodeChar {c : Char} (h : c.toNat < 128) :
    spell (String.utf8EncodeChar c) = [c] := by
  have hlt : c.toNat < 256 := Nat.lt_trans h (by decide)
  rw [utf8EncodeChar_of_lt h]
  exact spell_unspell (List.forall_mem_singleton.2 hlt)

theorem not_mem_spell_utf8EncodeChar {c d : Char} (hd : d.toNat < 128) (hne : c ≠ d) :
    d ∉ spell (String.utf8EncodeChar c) := by
  intro hmem
  obtain ⟨b, hb, rfl⟩ := List.mem_map.1 hmem
  rw [toNat_ofNat_byte] at hd
  refine hne (eq_of_mem_utf8EncodeChar (by rwa [toNat_ofNat_byte]) ?_)
  rwa [toNat_ofNat_byte, UInt8.ofNat_toNat]

/-- The pieces of a text are found again among its bytes. -/
theorem split_spell_encode {separator : Char} (hseparator : separator.toNat < 128)
    (cs : List Char) : split separator (spell (encode cs)) =
      (split separator cs).map fun piece ↦ spell (encode piece) := by
  induction cs with
  | nil => rfl
  | cons c cs ih =>
    obtain ⟨piece, pieces, hpieces⟩ := List.exists_cons_of_ne_nil (split_ne_nil separator cs)
    rw [encode_cons, spell_append, split]
    by_cases hc : c = separator
    · have hempty := split_append_cons separator [] (spell (encode cs))
      rw [if_pos hc, hc, spell_utf8EncodeChar hseparator, List.singleton_append, List.map_cons,
        ← ih]
      exact hempty
    · have hone := split_eq_singleton (not_mem_spell_utf8EncodeChar hseparator hc)
      rw [hpieces, List.map_cons] at ih
      have hmore := split_append (hone.trans (List.nil_append _).symm) ih
      rw [if_neg hc, hpieces, hmore, List.map_cons, encode_cons, spell_append]
      rfl

theorem exists_encode_join {separator : Char} (hseparator : separator.toNat < 128)
    {pieces : List (List Char)} (h : ∀ piece ∈ pieces, ∃ cs, spell (encode cs) = piece) :
    ∃ cs, spell (encode cs) = join separator pieces := by
  induction pieces with
  | nil => exact ⟨[], rfl⟩
  | cons piece pieces ih =>
    obtain ⟨⟨cs, hcs⟩, hrest⟩ := List.forall_mem_cons.1 h
    cases pieces with
    | nil => exact ⟨cs, hcs⟩
    | cons next pieces =>
      obtain ⟨ds, hds⟩ := ih hrest
      refine ⟨cs ++ separator :: ds, ?_⟩
      rw [encode_append, encode_cons, spell_append, spell_append, hcs, hds,
        spell_utf8EncodeChar hseparator]
      rfl

/-- Bytes are those of a text just if this can be said of all their pieces. -/
theorem exists_encode_iff {separator : Char} (hseparator : separator.toNat < 128)
    {bytes : List UInt8} : (∃ cs, encode cs = bytes) ↔
      ∀ piece ∈ split separator (spell bytes), ∃ cs, spell (encode cs) = piece := by
  constructor
  · rintro ⟨cs, rfl⟩ piece hpiece
    rw [split_spell_encode hseparator] at hpiece
    obtain ⟨ds, -, rfl⟩ := List.mem_map.1 hpiece
    exact ⟨ds, rfl⟩
  · intro hpieces
    obtain ⟨cs, hcs⟩ := exists_encode_join hseparator hpieces
    refine ⟨cs, ?_⟩
    rw [← unspell_spell (encode cs), hcs, join_split, unspell_spell]

/-- A broken character in front of a text that is not broken, and behind one. -/
example : decode [0xe2, 0x82, 0x2f, 0xc3, 0xa9, 0xff] = [replacement, '/', 'é', replacement] := by
  decide +kernel

end Coalesce.Text
