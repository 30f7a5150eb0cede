import Mathlib.Data.List.TakeWhile
import Kirje.Base.Base64
import Kirje.Base.Json
import Kirje.Core.Decoding

/-
  File:      Kirje/Core/JsonText.lean
  Subject:   The lexical pass over the texts an encoder writes.

  * `scanJsonString_escape`: the scan of an escaped text ends at its closing quote.
  * `decodedJsonStringChars_escape`: it counts the characters that were escaped.
  * `length_escape_le`: an escape takes at most six bytes a character.
  * `canonicalBase64DecodedLen_base64`: the Base64 of a byte string is canonical.
-/

namespace Kirje

open Base

/-! ## 1. Plain bytes -/

theorem plainByte_of_forall {text : List Char} (h : ∀ c ∈ text, ¬special c) :
    ∀ b ∈ encodeUtf8 text, PlainByte b := by
  intro b hb
  obtain ⟨c, hc, hmem⟩ := List.mem_flatMap.mp hb
  exact plainByte_of_mem (h c hc) hmem

/-! ## 2. Escapes -/

/-- The escape of a special character, byte by byte. -/
theorem escapeChar_bytes {c : Char} (h : special c) :
    ∃ letter tail, escapeChar c = '\\' :: letter :: tail ∧
      (letter.toNat < 0x80) ∧ tail.length ≤ 4 ∧ ∀ d ∈ tail, d.toNat < 0x80 ∧ ¬special d := by
  unfold escapeChar
  by_cases hc : c = '"' ∨ c = '\\'
  · refine ⟨c, [], if_pos hc, ?_, by simp, by simp⟩
    rcases hc with rfl | rfl <;> decide
  · have hlt : c.toNat < 0x20 := by
      simp only [not_or] at hc
      simpa [special, hc.1, hc.2] using h
    obtain ⟨t, ht, hne, hlen, hchars⟩ := escapeControl_shape hlt
    obtain ⟨letter, tail, rfl⟩ := List.exists_cons_of_ne_nil hne
    refine ⟨letter, tail, by rw [if_neg hc, if_pos hlt, ht],
      (hchars letter List.mem_cons_self).2.1, Nat.le_of_succ_le_succ hlen, fun d hd => ?_⟩
    obtain ⟨h48, h128, hback, -⟩ := hchars d (List.mem_cons_of_mem _ hd)
    refine ⟨h128, fun hs => ?_⟩
    rcases hs with rfl | hs | hs
    · exact absurd h48 (by decide)
    · exact hback hs
    · omega

/-- **The scan of an escaped text** ends at the closing quote, and sees an escape if there is one. -/
theorem scanJsonString_escape (text : List Char) (hasEscape : Bool) (rest : Bytes) :
    scanJsonString false hasEscape (encodeUtf8 (escape text) ++ byte '"' :: rest) =
      .ok (encodeUtf8 (escape text), hasEscape || text.any fun c => special c, rest) := by
  induction text generalizing hasEscape with
  | nil =>
      rw [escape_nil, encodeUtf8_nil, List.nil_append, scanJsonString, if_neg (by decide),
        if_neg (by decide), if_pos rfl]
      simp
  | cons c text ih =>
      rw [escape_cons, encodeUtf8_append, List.append_assoc]
      by_cases hc : special c
      · obtain ⟨letter, tail, he, hletter, -, htail⟩ := escapeChar_bytes hc
        have hbytes : encodeUtf8 (escapeChar c) = byte '\\' :: byte letter :: encodeUtf8 tail := by
          rw [he, encodeUtf8_cons, encodeUtf8_cons, utf8EncodeChar_ascii (by decide),
            utf8EncodeChar_ascii hletter]
          rfl
        rw [hbytes, List.cons_append, List.cons_append, scanJsonString, if_neg (by decide), if_pos rfl,
          scanJsonString, if_pos rfl,
          scanJsonString_plain (plainByte_of_forall fun d hd => (htail d hd).2), ih]
        simp [Except.map, hc]
      · rw [escapeChar_plain hc, encodeUtf8_cons, encodeUtf8_nil, List.append_nil,
          scanJsonString_plain (fun b hb => plainByte_of_mem hc hb), ih]
        simp [Except.map, hc]

/-- **An escaped text has at most six bytes for a character.** -/
theorem length_escape_le (text : List Char) :
    (encodeUtf8 (escape text)).length ≤ 6 * text.length := by
  induction text with
  | nil => exact Nat.le_refl 0
  | cons c text ih =>
      have hone : (encodeUtf8 (escapeChar c)).length ≤ 6 := by
        by_cases hc : special c
        · obtain ⟨letter, tail, he, hletter, hlen, htail⟩ := escapeChar_bytes hc
          rw [he, encodeUtf8_ascii]
          · rw [List.length_map]
            exact Nat.add_le_add_right hlen 2
          · intro d hd
            rcases List.mem_cons.mp hd with rfl | hd
            · decide
            · rcases List.mem_cons.mp hd with rfl | hd
              · exact hletter
              · exact (htail d hd).1
        · have := length_encodeUtf8_le [c]
          rw [escapeChar_plain hc]
          simp only [List.length_singleton] at this
          omega
      rw [escape_cons, encodeUtf8_append, List.length_append, List.length_cons]
      omega

/-! ## 3. Counting -/

/-- The escape of a control character is one of the grammar. -/
theorem escapeControl_char {n : Nat} (h : n < 0x20) :
    (∃ letter, escapeControl n = ['\\', letter] ∧ (letter, Char.ofNat n) ∈ Grammar.shortEscapes) ∨
      ∃ digits, escapeControl n = '\\' :: 'u' :: digits ∧ (∀ d ∈ digits, d.toNat < 0x80) ∧
        Grammar.Unit16 (digits.map byte) n := by
  have hall : ∀ n : Fin 0x20,
      (Grammar.shortEscapes.any fun pair =>
          pair.2 = Char.ofNat n ∧ escapeControl n = ['\\', pair.1]) ∨
        (escapeControl n).take 2 = ['\\', 'u'] ∧
          (((escapeControl n).drop 2).all fun d => d.toNat < 0x80) ∧
          (parseHexUnit (((escapeControl n).drop 2).map byte)).toOption = some n.val := by
    decide
  rcases hall ⟨n, h⟩ with hshort | ⟨htake, hascii, hparse⟩
  · obtain ⟨⟨letter, _⟩, hmem, rfl, hletter⟩ := List.any_iff_exists_prop.mp hshort
    exact .inl ⟨letter, hletter, hmem⟩
  · refine .inr ⟨(escapeControl n).drop 2, ?_, List.all_iff_forall_prop.mp hascii, ?_⟩
    · have := List.take_append_drop 2 (escapeControl n)
      rw [htake] at this
      exact this.symm
    · cases hu : parseHexUnit (((escapeControl n).drop 2).map byte) with
      | ok m =>
          rw [hu] at hparse
          exact parseHexUnit_ok.mp (hu.trans (congrArg Except.ok (Option.some.inj hparse)))
      | error e =>
          rw [hu] at hparse
          cases hparse

/-- The characters of an escape in ASCII, byte by byte. -/
theorem encodeUtf8_escape {letter : Char} {tail : List Char} (hletter : letter.toNat < 0x80)
    (htail : ∀ d ∈ tail, d.toNat < 0x80) :
    encodeUtf8 ('\\' :: letter :: tail) = byte '\\' :: byte letter :: tail.map byte :=
  encodeUtf8_ascii (List.forall_mem_cons.mpr ⟨by decide, List.forall_mem_cons.mpr ⟨hletter, htail⟩⟩)

theorem shortEscape_ascii {letter c : Char} (h : (letter, c) ∈ Grammar.shortEscapes) :
    letter.toNat < 0x80 := by
  have hall : ∀ pair ∈ Grammar.shortEscapes, pair.1.toNat < 0x80 :=
    List.all_iff_forall_prop.mp (by decide)
  exact hall _ h

/-- **What is written for a character stands for it.** -/
theorem escapeChar_char (c : Char) : Grammar.StringChar (encodeUtf8 (escapeChar c)) c := by
  by_cases hs : special c
  · have short : ∀ letter, (letter, c) ∈ Grammar.shortEscapes → escapeChar c = ['\\', letter] →
        Grammar.StringChar (encodeUtf8 (escapeChar c)) c := by
      intro letter hmem he
      rw [he, encodeUtf8_escape (shortEscape_ascii hmem) fun _ h => absurd h List.not_mem_nil]
      exact .short hmem
    by_cases hc : c = '"' ∨ c = '\\'
    · refine short c ?_ (if_pos hc)
      rcases hc with rfl | rfl <;> decide
    · have hlt : c.toNat < 0x20 := by
        simp only [not_or] at hc
        simpa [special, hc.1, hc.2] using hs
      have hesc : escapeChar c = escapeControl c.toNat := (if_neg hc).trans (if_pos hlt)
      rcases escapeControl_char hlt with ⟨letter, he, hmem⟩ | ⟨digits, he, hascii, hunit⟩
      · rw [Char.ofNat_toNat] at hmem
        exact short letter hmem (hesc.trans he)
      · rw [hesc, he, encodeUtf8_escape (by decide) hascii]
        have := Grammar.StringChar.unicode hunit (.inl (by omega))
        rwa [Char.ofNat_toNat] at this
  · rw [escapeChar_plain hs, encodeUtf8_cons, encodeUtf8_nil, List.append_nil]
    exact .unescaped hs

theorem escape_body (text : List Char) : Grammar.StringBody (encodeUtf8 (escape text)) text := by
  induction text with
  | nil => exact .nil
  | cons c text ih =>
      rw [escape_cons, encodeUtf8_append]
      exact .cons (escapeChar_char c) ih

/-- **The counter finds the characters that were escaped.** -/
theorem decodedJsonStringChars_escape (text : List Char) :
    decodedJsonStringChars (encodeUtf8 (escape text)) = .ok text.length := by
  rw [decodedJsonStringChars_eq, decodedChars_body (escape_body text)]

/-! ## 4. Base64 -/

theorem isBase64_facts {c : Char} (h : IsBase64 c) :
    c.toNat < 0x80 ∧ ¬special c ∧ isBase64Byte (byte c) ∧ byte c ≠ byte '=' := by
  have hall : ∀ n : Fin 64, (base64Char n).toNat < 0x80 ∧ ¬special (base64Char n) ∧
      isBase64Byte (byte (base64Char n)) ∧ byte (base64Char n) ≠ byte '=' := by
    decide
  obtain ⟨n, hn, rfl⟩ := h
  exact hall ⟨n, hn⟩

/-- A Base64 text needs no escapes and is its characters, byte for byte. -/
theorem base64_plain (bytes : Bytes) :
    (∀ c ∈ base64 bytes, ¬special c) ∧ encodeUtf8 (base64 bytes) = (base64 bytes).map byte := by
  obtain ⟨content, padding, htext, hcontent, -⟩ := base64_shape bytes
  have hmem : ∀ c ∈ base64 bytes, IsBase64 c ∨ c = '=' := by
    intro c hc
    rw [htext] at hc
    exact (List.mem_append.mp hc).imp (hcontent c) List.eq_of_mem_replicate
  refine ⟨fun c hc => ?_, encodeUtf8_ascii fun c hc => ?_⟩
  · rcases hmem c hc with h | rfl
    · exact (isBase64_facts h).2.1
    · decide
  · rcases hmem c hc with h | rfl
    · exact (isBase64_facts h).1
    · decide

/-- The padding is what follows the alphabet. -/
theorem base64Padding_eq {content : Bytes} (hcontent : ∀ b ∈ content, b ≠ byte '=') {padding : Nat}
    (hle : padding ≤ 2) (hnil : content = [] → padding = 0) :
    base64Padding (content ++ List.replicate padding (byte '=')) = padding := by
  have hno : byte '=' ∉ content := fun h => hcontent _ h rfl
  unfold base64Padding
  have hcases : padding = 0 ∨ padding = 1 ∨ padding = 2 := by omega
  rcases hcases with rfl | rfl | rfl
  · rw [List.replicate_zero, List.append_nil,
      if_neg fun h => hno (h.subset List.mem_cons_self),
      if_neg fun h => hno (h.subset List.mem_cons_self)]
  · have htwo : ¬[byte '=', byte '='] <:+ content ++ [byte '='] := by
      rintro ⟨tail, htail⟩
      have hsplit : tail ++ [byte '='] ++ [byte '='] = content ++ [byte '='] := by
        rw [← htail, List.append_assoc]
        rfl
      have hback : tail ++ [byte '='] = content := List.append_cancel_right hsplit
      exact hno (hback ▸ List.mem_append_right _ (List.mem_singleton_self _))
    rw [List.replicate_one, if_neg htwo, if_pos (List.suffix_append _ _)]
  · exact if_pos (List.suffix_append content [byte '=', byte '='])

/-- **The Base64 of a byte string is canonical, and its decoded length is the number of bytes.** -/
theorem canonicalBase64DecodedLen_base64 (bytes : Bytes) :
    canonicalBase64DecodedLen (encodeUtf8 (base64 bytes)) = .ok bytes.length := by
  obtain ⟨content, padding, htext, hcontent, hle, hnil, hmod, hlen⟩ := base64_shape bytes
  have hraw : encodeUtf8 (base64 bytes) =
      content.map byte ++ List.replicate padding (byte '=') := by
    rw [(base64_plain bytes).2, htext, List.map_append, List.map_replicate]
  have hbytes : ∀ b ∈ content.map byte, isBase64Byte b ∧ b ≠ byte '=' := by
    intro b hb
    obtain ⟨c, hc, rfl⟩ := List.mem_map.mp hb
    exact (isBase64_facts (hcontent c hc)).2.2
  have hpadding := base64Padding_eq (fun b hb => (hbytes b hb).2) hle
    (fun h => hnil (List.map_eq_nil_iff.mp h))
  rw [hraw]
  unfold canonicalBase64DecodedLen
  split
  · rename_i hempty
    rw [List.append_eq_nil_iff, List.map_eq_nil_iff] at hempty
    obtain rfl := hempty.1
    obtain rfl := hnil rfl
    simp at hlen
    rw [hlen]
    rfl
  · have htotal : (content.map byte ++ List.replicate padding (byte '=')).length =
        content.length + padding := by simp
    simp only [hpadding, htotal, bind_ok, ensure_ok, pure_ok, Nat.add_sub_cancel]
    refine ⟨(), hmod, (), ⟨?_, ?_⟩, by omega⟩
    · rw [List.take_left' (by simp), List.all_eq_true]
      exact fun b hb => (hbytes b hb).1
    · rw [List.drop_left' (by simp), List.all_replicate]
      simp

end Kirje
