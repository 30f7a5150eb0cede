import Mathlib.Data.List.Infix
import Kirje.Base.Bytes

/-
  File:      Kirje/Base/Utf8.lean
  Subject:   The bytes of a text, for programs that scan text as bytes.

  * `utf8EncodeChar_ascii`, `le_of_mem_utf8EncodeChar`: an ASCII character is one byte, and
    every byte of another character lies beyond ASCII; so an ASCII byte of a text is a
    character of it.
  * `charCount_encodeUtf8`: the characters of a text are counted in its bytes.
-/

namespace Kirje.Base

/-- The byte of an ASCII character. -/
abbrev byte (c : Char) : UInt8 := c.toUInt8

/-- The bytes of a text. -/
def encodeUtf8 (text : List Char) : Bytes := text.flatMap String.utf8EncodeChar

@[simp] theorem encodeUtf8_nil : encodeUtf8 [] = [] := rfl

@[simp] theorem encodeUtf8_cons (c : Char) (text : List Char) :
    encodeUtf8 (c :: text) = String.utf8EncodeChar c ++ encodeUtf8 text := by
  simp [encodeUtf8]

@[simp] theorem encodeUtf8_append (a b : List Char) :
    encodeUtf8 (a ++ b) = encodeUtf8 a ++ encodeUtf8 b := by
  simp [encodeUtf8]

/-- **An ASCII character is one byte.** -/
theorem utf8EncodeChar_ascii {c : Char} (h : c.toNat < 0x80) : String.utf8EncodeChar c = [byte c] := by
  have hle : c.val ≤ 0x7f := by
    rw [UInt32.le_iff_toNat_le]
    exact Nat.le_of_lt_succ h
  exact String.utf8EncodeChar_eq_singleton (Char.utf8Size_eq_one_iff.mpr hle)

/-- A text in ASCII is its characters, byte for byte. -/
theorem encodeUtf8_ascii {text : List Char} (h : ∀ c ∈ text, c.toNat < 0x80) :
    encodeUtf8 text = text.map byte := by
  induction text with
  | nil => rfl
  | cons c text ih =>
      rw [encodeUtf8_cons, utf8EncodeChar_ascii (h c List.mem_cons_self),
        ih fun d hd => h d (List.mem_cons_of_mem _ hd)]
      rfl

/-- A byte with a remainder over a base in the upper half. -/
theorem le_toNat_ofNat_mod (v : Nat) {m base : Nat} (hm : 0 < m) (hbase : 0x80 ≤ base)
    (hfit : m + base ≤ 256) : 0x80 ≤ (UInt8.ofNat (v % m + base)).toNat := by
  have hlt : v % m < m := Nat.mod_lt v hm
  rw [UInt8.toNat_ofNat', Nat.mod_eq_of_lt (by omega)]
  omega

/-- **Beyond ASCII no byte is an ASCII byte.** -/
theorem le_of_mem_utf8EncodeChar {c : Char} (h : 0x80 ≤ c.toNat) :
    ∀ b ∈ String.utf8EncodeChar c, 0x80 ≤ b.toNat := by
  have tail : ∀ v, 0x80 ≤ (UInt8.ofNat (v % 0x40 + 0x80)).toNat := fun v =>
    le_toNat_ofNat_mod v (by decide) (by decide) (by decide)
  have hv : c.val.toNat = c.toNat := rfl
  unfold String.utf8EncodeChar
  simp only [hv]
  rw [if_neg (by omega)]
  split
  · simp only [List.forall_mem_cons, List.not_mem_nil, false_imp_iff, forall_const, and_true]
    exact ⟨le_toNat_ofNat_mod _ (by decide) (by decide) (by decide), tail _⟩
  · split
    · simp only [List.forall_mem_cons, List.not_mem_nil, false_imp_iff, forall_const, and_true]
      exact ⟨le_toNat_ofNat_mod _ (by decide) (by decide) (by decide), tail _, tail _⟩
    · simp only [List.forall_mem_cons, List.not_mem_nil, false_imp_iff, forall_const, and_true]
      exact ⟨le_toNat_ofNat_mod _ (by decide) (by decide) (by decide), tail _, tail _, tail _⟩

theorem length_encodeUtf8_le (text : List Char) : (encodeUtf8 text).length ≤ 4 * text.length := by
  induction text with
  | nil => exact Nat.le_refl 0
  | cons c text ih =>
      have hle := Char.utf8Size_le_four c
      rw [encodeUtf8_cons, List.length_append, String.length_utf8EncodeChar, List.length_cons]
      omega

theorem le_length_encodeUtf8 (text : List Char) : text.length ≤ (encodeUtf8 text).length := by
  induction text with
  | nil => exact Nat.le_refl 0
  | cons c text ih =>
      have hpos := Char.utf8Size_pos c
      rw [encodeUtf8_cons, List.length_append, String.length_utf8EncodeChar, List.length_cons]
      omega

theorem length_encodeUtf8_toList (s : String) : (encodeUtf8 s.toList).length = s.utf8ByteSize := by
  have hbytes : (encodeUtf8 s.toList).toByteArray = s.toByteArray := by
    have h : (String.ofList s.toList).toByteArray = s.toList.utf8Encode := String.toByteArray_ofList
    rw [String.ofList_toList] at h
    exact h.symm
  rw [← List.size_toByteArray, hbytes]
  rfl

/-- A text has at least as many bytes as characters. -/
theorem length_le_utf8ByteSize (s : String) : s.length ≤ s.utf8ByteSize := by
  rw [← length_encodeUtf8_toList, ← String.length_toList]
  exact le_length_encodeUtf8 s.toList

theorem toNat_byte {c : Char} (h : c.toNat < 0x80) : (byte c).toNat = c.toNat := by
  have hval : (byte c).toNat = c.toNat % 256 := rfl
  rw [hval]
  omega

theorem byte_inj {c d : Char} (hc : c.toNat < 0x80) (hd : d.toNat < 0x80) (h : byte c = byte d) :
    c = d := by
  have hnat : c.toNat = d.toNat := by
    rw [← toNat_byte hc, ← toNat_byte hd, h]
  exact Char.toNat_inj.mp hnat

/-- An ASCII byte of a character is the character. -/
theorem eq_byte_of_mem {c : Char} {b : UInt8} (h : b ∈ String.utf8EncodeChar c)
    (hb : b.toNat < 0x80) : c.toNat < 0x80 ∧ b = byte c := by
  by_cases hc : c.toNat < 0x80
  · rw [utf8EncodeChar_ascii hc, List.mem_singleton] at h
    exact ⟨hc, h⟩
  · have := le_of_mem_utf8EncodeChar (by omega) b h
    omega

/-- The number of characters of a byte string, if it is a text. -/
def charCount (bytes : Bytes) : Option Nat := (String.fromUTF8? bytes.toByteArray).map String.length

@[simp] theorem charCount_encodeUtf8 (text : List Char) :
    charCount (encodeUtf8 text) = some text.length := by
  have hbytes : (encodeUtf8 text).toByteArray = (String.ofList text).toByteArray := by
    rw [String.toByteArray_ofList]
    rfl
  rw [charCount, hbytes, String.fromUTF8?, dif_pos (String.isValidUTF8 _), Option.map_some]
  exact congrArg some String.length_ofList

theorem encodeUtf8_toByteArray (text : List Char) : (encodeUtf8 text).toByteArray = text.utf8Encode := rfl

/-- **A byte string has so many characters exactly when it is a text of so many.** -/
theorem charCount_eq_some {bytes : Bytes} {n : Nat} :
    charCount bytes = some n ↔ ∃ text, encodeUtf8 text = bytes ∧ text.length = n := by
  constructor
  · intro h
    obtain ⟨s, hs, hn⟩ := Option.map_eq_some_iff.mp h
    rw [String.fromUTF8?] at hs
    split at hs
    · refine ⟨s.toList, List.toByteArray_inj.mp ?_, by rw [String.length_toList, hn]⟩
      rw [encodeUtf8_toByteArray, String.utf8Encode_toList, ← Option.some.inj hs]
      rfl
    · cases hs
  · rintro ⟨text, rfl, rfl⟩
    exact charCount_encodeUtf8 text

theorem byte_ofNat : ∀ n < 0x80, byte (Char.ofNat n) = UInt8.ofNat n ∧ (Char.ofNat n).toNat < 0x80 := by
  decide

/-- **Bytes in ASCII are characters.** -/
theorem charCount_ascii {bytes : Bytes} (h : ∀ b ∈ bytes, b.toNat < 0x80) :
    charCount bytes = some bytes.length := by
  refine charCount_eq_some.mpr ⟨bytes.map fun b => Char.ofNat b.toNat, ?_, List.length_map ..⟩
  rw [encodeUtf8_ascii]
  · rw [List.map_map]
    refine (List.map_congr_left fun b hb => ?_).trans (List.map_id bytes)
    exact (byte_ofNat _ (h b hb)).1.trans (UInt8.ofNat_toNat ..)
  · intro c hc
    obtain ⟨b, hb, rfl⟩ := List.mem_map.mp hc
    exact (byte_ofNat _ (h b hb)).2

/-- A text that starts with the bytes of a character starts with the character. -/
theorem encodeUtf8_eq_append {text : List Char} {c : Char} {bytes : Bytes}
    (h : encodeUtf8 text = String.utf8EncodeChar c ++ bytes) :
    ∃ tail, text = c :: tail ∧ encodeUtf8 tail = bytes := by
  have hbytes : [c].utf8Encode ++ bytes.toByteArray = text.utf8Encode := by
    rw [← encodeUtf8_toByteArray text, h, List.utf8Encode_singleton, List.toByteArray_append]
  obtain ⟨tail, rfl⟩ := List.isPrefix_of_utf8Encode_append_eq_utf8Encode _ hbytes
  rw [List.singleton_append, encodeUtf8_cons] at h
  exact ⟨tail, rfl, List.append_cancel_left h⟩

/-- **A character in front counts as one.** -/
theorem charCount_cons (c : Char) (bytes : Bytes) :
    charCount (String.utf8EncodeChar c ++ bytes) = (charCount bytes).map (1 + ·) := by
  refine Option.ext fun n => ?_
  simp only [Option.map_eq_some_iff, charCount_eq_some]
  constructor
  · rintro ⟨text, htext, rfl⟩
    obtain ⟨tail, rfl, rfl⟩ := encodeUtf8_eq_append htext
    exact ⟨_, ⟨tail, rfl, rfl⟩, Nat.add_comm 1 _⟩
  · rintro ⟨_, ⟨tail, rfl, rfl⟩, rfl⟩
    exact ⟨c :: tail, encodeUtf8_cons c tail, Nat.add_comm _ 1⟩

/-- The first character of a text is in its bytes. -/
theorem utf8EncodeChar_append_inj {c d : Char} {a b : Bytes}
    (h : String.utf8EncodeChar c ++ a = String.utf8EncodeChar d ++ b) : c = d ∧ a = b := by
  have hdecode : ∀ (e : Char) (bytes : Bytes),
      (String.utf8EncodeChar e ++ bytes).toByteArray.utf8DecodeChar? 0 = some e := by
    intro e bytes
    rw [List.toByteArray_append, ← List.utf8Encode_singleton]
    exact List.utf8DecodeChar?_utf8Encode_singleton_append
  obtain rfl : c = d := by
    have := hdecode c a
    rw [h, hdecode] at this
    exact (Option.some.inj this).symm
  exact ⟨rfl, List.append_cancel_left h⟩

end Kirje.Base
