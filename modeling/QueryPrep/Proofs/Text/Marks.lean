import QueryPrep.Json.Number

/-!
# Texts and their bytes

Bytes are read one character after the other, and what has been read is not looked at again
(`decode_append`). So a text that is sent as bytes is read back as itself: the bytes of a text have
no broken byte among them, and their marks are its characters (`decode_toUTF8`). With broken bytes
allowed, any marks are those of some bytes (`exists_decode_eq`).
-/

namespace QueryPrep.Text.Marks

theorem utf8DecodeChar?_append (front bytes : ByteArray) (i : Nat) :
    (front ++ bytes).utf8DecodeChar? (front.size + i) = bytes.utf8DecodeChar? i := by
  rw [ByteArray.utf8DecodeChar?_eq_utf8DecodeChar?_extract,
    @ByteArray.utf8DecodeChar?_eq_utf8DecodeChar?_extract bytes, ByteArray.size_append,
    ByteArray.extract_append_size_add]

/-- Bytes are read as they are without those in front of them, in which something was found
earlier. -/
theorem decodeFrom_append (front bytes : ByteArray) (i : Nat) (before earlier : Marks) :
    decodeFrom (front ++ bytes) (front.size + i) (before ++ earlier) =
      earlier.reverse ++ decodeFrom bytes i before := by
  fun_induction decodeFrom bytes i before with
  | case1 i before hi c hc ih | case2 i before hi hc ih =>
      have hsize : front.size + i < (front ++ bytes).size := by
        rw [ByteArray.size_append]
        omega
      rw [decodeFrom, dif_pos hsize, utf8DecodeChar?_append, hc]
      rwa [← Nat.add_assoc] at ih
  | case3 i before hi =>
      rw [decodeFrom, dif_neg (by rw [ByteArray.size_append]; omega), List.reverse_append]

/-- The bytes of one mark in front of others. -/
theorem decode_append {front bytes : ByteArray} {m : Option Char}
    (hm : (front ++ bytes).utf8DecodeChar? 0 = m) (hsize : front.size = m.elim 1 Char.utf8Size) :
    decode (front ++ bytes) = m :: decode bytes := by
  have hpos : 0 < (front ++ bytes).size := by
    rw [ByteArray.size_append, hsize]
    rcases m with - | c
    · exact Nat.lt_add_right _ Nat.one_pos
    · exact Nat.lt_add_right _ c.utf8Size_pos
  have hrest := decodeFrom_append front bytes 0 [] [m]
  rw [hsize, Nat.add_comm] at hrest
  rw [decode, decodeFrom, dif_pos hpos, hm]
  cases m <;> exact hrest

theorem decode_empty : decode .empty = [] := by
  rw [decode, decodeFrom]
  rfl

theorem decode_char_append (c : Char) (bytes : ByteArray) :
    decode ([c].utf8Encode ++ bytes) = some c :: decode bytes := by
  refine decode_append List.utf8DecodeChar?_utf8Encode_singleton_append ?_
  rw [List.utf8Encode_singleton, List.size_toByteArray, String.length_utf8EncodeChar]
  rfl

/-- A byte with which no character begins. -/
theorem decode_broken_append (bytes : ByteArray) :
    decode (⟨#[0xff]⟩ ++ bytes) = none :: decode bytes := by
  refine decode_append (Option.not_isSome_iff_eq_none.mp fun h => ?_) rfl
  have hfirst := ByteArray.isUTF8FirstByte_of_isSome_utf8DecodeChar? h
  rw [ByteArray.getElem_append_left Nat.one_pos] at hfirst
  exact absurd hfirst (by decide)

/-- **The bytes of a text are read back as the text.** -/
theorem decode_toUTF8 (s : String) : decode s.toUTF8 = ofString s := by
  have hchars : ∀ cs : List Char, decode cs.utf8Encode = cs.map some := by
    intro cs
    induction cs with
    | nil => exact decode_empty
    | cons c cs ih =>
        rw [← List.singleton_append, List.utf8Encode_append, decode_char_append, ih]
        rfl
  have h := hchars s.toList
  rw [String.utf8Encode_toList] at h
  exact h

/-- **Any marks are those of some bytes.** -/
theorem exists_decode_eq (s : Marks) : ∃ bytes, decode bytes = s := by
  induction s with
  | nil => exact ⟨_, decode_empty⟩
  | cons m s ih =>
      obtain ⟨bytes, rfl⟩ := ih
      rcases m with - | c
      · exact ⟨_, decode_broken_append bytes⟩
      · exact ⟨_, decode_char_append c bytes⟩

/-- The bytes of a text are a text. -/
theorem fromUTF8?_toUTF8 (s : String) : String.fromUTF8? s.toUTF8 = some s := by
  unfold String.fromUTF8?
  exact dif_pos s.isValidUTF8

end QueryPrep.Text.Marks
