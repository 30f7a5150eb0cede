import Mathlib.Data.List.TakeWhile
import Kirje.Base.Grammar
import Kirje.Core.Input

/-
  File:      Kirje/Core/Decoding.lean
  Subject:   The scan and the count of a JSON string, against the grammar of strings.

  Both functions take a string one escape or one character at a time, and so does the
  grammar; `decodedChars_char` and `scan_char` say what they do there.

  * `scan_body`: what the grammar derives is scanned up to its closing quote.
  * `body_of_decodedChars`: what was scanned and counted is derived by the grammar.
  * **`decoded_chars_agree`**: between the quotes the scan found, the count is that of the
    decoded text, and it bounds the length.
-/

namespace Kirje

open Base Grammar

/-! ## 1. Plain bytes -/

/-- A byte that neither ends a string nor starts an escape nor is a control byte. -/
def PlainByte (b : UInt8) : Prop := b ≠ byte '\\' ∧ b ≠ byte '"' ∧ ¬b < 0x20

theorem plainByte_of_mem {c : Char} (hc : ¬special c) {b : UInt8}
    (h : b ∈ String.utf8EncodeChar c) : PlainByte b := by
  simp only [special, not_or] at hc
  by_cases hb : b.toNat < 0x80
  · obtain ⟨hascii, rfl⟩ := eq_byte_of_mem h hb
    refine ⟨fun he => hc.2.1 (byte_inj hascii (by decide) he),
      fun he => hc.1 (byte_inj hascii (by decide) he), fun hlt => hc.2.2 ?_⟩
    rw [UInt8.lt_iff_toNat_lt, toNat_byte hascii] at hlt
    exact hlt
  · refine ⟨?_, ?_, fun hlt => hb ?_⟩
    · rintro rfl
      exact hb (by decide)
    · rintro rfl
      exact hb (by decide)
    · rw [UInt8.lt_iff_toNat_lt] at hlt
      exact Nat.lt_trans hlt (by decide)

/-- A run of plain bytes is scanned as it is. -/
theorem scanJsonString_plain {bytes : Bytes} (h : ∀ b ∈ bytes, PlainByte b) (hasEscape : Bool)
    (rest : Bytes) : scanJsonString false hasEscape (bytes ++ rest) =
      (scanJsonString false hasEscape rest).map fun (raw, result) => (bytes ++ raw, result) := by
  induction bytes with
  | nil => cases hr : scanJsonString false hasEscape rest <;> simp [hr, Except.map]
  | cons b bytes ih =>
      obtain ⟨hback, hquote, hcontrol⟩ := h b List.mem_cons_self
      rw [List.cons_append, scanJsonString, if_neg (by decide), if_neg hback, if_neg hquote,
        if_neg hcontrol, ih fun d hd => h d (List.mem_cons_of_mem _ hd)]
      cases scanJsonString false hasEscape rest <;> rfl

/-! ## 2. Hexadecimal digits -/

/-- Both readings of a digit agree. -/
theorem hexValue?_eq (b : UInt8) :
    hexValue? b = if isHexDigit b then some (hexValue b) else none := by
  have h9 : (byte '9').toNat = 57 := rfl
  have ha : (byte 'a').toNat = 97 := rfl
  have hA : (byte 'A').toNat = 65 := rfl
  have hF : (byte 'F').toNat = 70 := rfl
  simp only [hexValue?, isHexDigit, hexValue, Bool.or_eq_true, Bool.and_eq_true, decide_eq_true_eq]
  by_cases hdigit : byte '0' ≤ b ∧ b ≤ byte '9'
  · rw [if_pos hdigit, if_pos (.inl (.inl hdigit)), if_pos hdigit.2]
  · by_cases hlower : byte 'a' ≤ b ∧ b ≤ byte 'f'
    · have hnot9 : ¬b ≤ byte '9' := by
        rw [UInt8.le_iff_toNat_le] at hlower ⊢
        omega
      have hnotF : ¬b ≤ byte 'F' := by
        rw [UInt8.le_iff_toNat_le] at hlower ⊢
        omega
      rw [if_neg hdigit, if_pos hlower, if_pos (.inl (.inr hlower)), if_neg hnot9, if_neg hnotF]
    · by_cases hupper : byte 'A' ≤ b ∧ b ≤ byte 'F'
      · have hnot9 : ¬b ≤ byte '9' := by
          rw [UInt8.le_iff_toNat_le] at hupper ⊢
          omega
        rw [if_neg hdigit, if_neg hlower, if_pos hupper, if_pos (.inr hupper), if_neg hnot9,
          if_pos hupper.2]
      · rw [if_neg hdigit, if_neg hlower, if_neg hupper,
          if_neg (not_or.mpr ⟨not_or.mpr ⟨hdigit, hlower⟩, hupper⟩)]

theorem hexValue?_some {b : UInt8} {v : Nat} (h : hexValue? b = some v) :
    isHexDigit b = true ∧ hexValue b = v := by
  rw [hexValue?_eq] at h
  split at h
  · rename_i hb
    exact ⟨hb, Option.some.inj h⟩
  · cases h

theorem plainByte_of_isHexDigit {b : UInt8} (h : isHexDigit b = true) : PlainByte b := by
  simp only [isHexDigit, Bool.or_eq_true, Bool.and_eq_true, decide_eq_true_eq,
    UInt8.le_iff_toNat_le] at h
  refine ⟨?_, ?_, fun hlt => ?_⟩
  · rintro rfl
    revert h
    decide
  · rintro rfl
    revert h
    decide
  · rw [UInt8.lt_iff_toNat_lt] at hlt
    have h20 : (0x20 : UInt8).toNat = 32 := rfl
    have h0 : (byte '0').toNat = 48 := rfl
    have ha : (byte 'a').toNat = 97 := rfl
    have hA : (byte 'A').toNat = 65 := rfl
    omega

/-- **`parse_hex_unit` reads the four digits of the grammar.** -/
theorem parseHexUnit_ok {digits : Bytes} {n : Nat} :
    parseHexUnit digits = .ok n ↔ Unit16 digits n := by
  simp only [parseHexUnit, bind_ok, ensure_ok, pure_ok]
  constructor
  · rintro ⟨_, ⟨hlen, hall⟩, rfl⟩
    obtain ⟨a, b, c, d, rfl⟩ := List.length_eq_four.mp hlen
    have hone : ∀ e ∈ [a, b, c, d], hexValue? e = some (hexValue e) := fun e he => by
      rw [hexValue?_eq, if_pos (List.all_eq_true.mp hall e he)]
    have hunit := Unit16.mk (hone a (by simp)) (hone b (by simp)) (hone c (by simp)) (hone d (by simp))
    simpa using hunit
  · rintro ⟨ha', hb', hc', hd'⟩
    obtain ⟨ha, rfl⟩ := hexValue?_some ha'
    obtain ⟨hb, rfl⟩ := hexValue?_some hb'
    obtain ⟨hc, rfl⟩ := hexValue?_some hc'
    obtain ⟨hd, rfl⟩ := hexValue?_some hd'
    exact ⟨(), ⟨rfl, by simp only [List.all_cons, List.all_nil, ha, hb, hc, hd, Bool.and_self]⟩, by simp⟩

theorem plainByte_of_unit16 {digits : Bytes} {n : Nat} (h : Unit16 digits n) :
    ∀ b ∈ digits, PlainByte b := by
  obtain ⟨ha, hb, hc, hd⟩ := h
  simp only [List.forall_mem_cons, List.not_mem_nil, false_imp_iff, forall_const, and_true]
  exact ⟨plainByte_of_isHexDigit (hexValue?_some ha).1, plainByte_of_isHexDigit (hexValue?_some hb).1,
    plainByte_of_isHexDigit (hexValue?_some hc).1, plainByte_of_isHexDigit (hexValue?_some hd).1⟩

/-! ## 3. Escapes -/

theorem skipEscape_short {letter c : Char} (h : (letter, c) ∈ shortEscapes) (rest : Bytes) :
    skipEscape (byte letter :: rest) = .ok rest := by
  rw [skipEscape, if_pos]
  exact List.mem_map_of_mem (List.mem_map_of_mem (f := Prod.fst) h)

theorem skipEscape_unicode {digits : Bytes} {n : Nat} (h : Unit16 digits n)
    (hn : n < 0xd800 ∨ 0xdfff < n) (rest : Bytes) :
    skipEscape (byte 'u' :: digits ++ rest) = .ok rest := by
  have htake : (digits ++ rest).take 4 = digits := by rw [← h.length, List.take_left]
  have hdrop : (digits ++ rest).drop 4 = rest := by rw [← h.length, List.drop_left]
  rw [List.cons_append, skipEscape, if_neg (by decide), if_pos rfl]
  simp only [skipUnicodeEscape, bind_ok, ensure_ok, htake, hdrop, parseHexUnit_ok]
  refine ⟨(), ?_, n, h, ?_⟩
  · rw [List.length_append, h.length]
    omega
  · rw [if_neg (by omega)]
    simp only [bind_ok, ensure_ok, pure_ok]
    exact ⟨(), by omega, trivial⟩

theorem skipEscape_pair {digits digits' : Bytes} {high low : Nat} (h : Unit16 digits high)
    (h' : Unit16 digits' low) (hh : 0xd800 ≤ high ∧ high ≤ 0xdbff)
    (hl : 0xdc00 ≤ low ∧ low ≤ 0xdfff) (rest : Bytes) :
    skipEscape (byte 'u' :: digits ++ (byte '\\' :: byte 'u' :: digits' ++ rest)) = .ok rest := by
  have htake : (digits ++ (byte '\\' :: byte 'u' :: digits' ++ rest)).take 4 = digits := by
    rw [← h.length, List.take_left]
  have hdrop : (digits ++ (byte '\\' :: byte 'u' :: digits' ++ rest)).drop 4 =
      byte '\\' :: byte 'u' :: digits' ++ rest := by
    rw [← h.length, List.drop_left]
  have hsix : (byte '\\' :: byte 'u' :: digits').length = 6 := by
    rw [List.length_cons, List.length_cons, h'.length]
  have htake' : (byte '\\' :: byte 'u' :: digits' ++ rest).take 6 = byte '\\' :: byte 'u' :: digits' := by
    rw [← hsix, List.take_left]
  have hdrop' : (byte '\\' :: byte 'u' :: digits' ++ rest).drop 6 = rest := by
    rw [← hsix, List.drop_left]
  rw [List.cons_append, skipEscape, if_neg (by decide), if_pos rfl]
  simp only [skipUnicodeEscape, bind_ok, ensure_ok, htake, hdrop, parseHexUnit_ok]
  refine ⟨(), ?_, high, h, ?_⟩
  · rw [List.length_append, h.length]
    omega
  · rw [if_pos hh]
    simp only [bind_ok, ensure_ok, pure_ok, htake', hdrop', parseHexUnit_ok]
    refine ⟨(), ?_, (), rfl, low, h', (), hl, trivial⟩
    rw [List.length_append, hsix]
    omega

/-- **What an escape skips is an escape of the grammar.** -/
theorem escape_of_skipEscape {bytes rest : Bytes} (h : skipEscape bytes = .ok rest) :
    ∃ tail c, bytes = tail ++ rest ∧ StringChar (byte '\\' :: tail) c := by
  cases bytes with
  | nil => cases h
  | cons escape bytes =>
      rw [skipEscape] at h
      split at h
      · rename_i hshort
        obtain ⟨letter, hletter, rfl⟩ := List.mem_map.mp hshort
        obtain ⟨⟨letter, c⟩, hc, rfl⟩ : ∃ pair ∈ shortEscapes, pair.1 = letter :=
          List.exists_of_mem_map hletter
        rw [Except.ok.inj h]
        exact ⟨[byte letter], c, rfl, .short hc⟩
      · split at h
        · rename_i hu
          subst hu
          simp only [skipUnicodeEscape, bind_ok, ensure_ok, parseHexUnit_ok] at h
          obtain ⟨_, hlen, unit, hunit, h⟩ := h
          have hbytes := List.take_append_drop 4 bytes
          split at h
          · rename_i hhigh
            simp only [bind_ok, ensure_ok, pure_ok, parseHexUnit_ok] at h
            obtain ⟨_, hsix, _, hback, low, hlow, _, hrange, rfl⟩ := h
            have hpair := StringChar.pair hunit hlow hhigh.1 hhigh.2 hrange.1 hrange.2
            refine ⟨byte 'u' :: (bytes.take 4 ++ byte '\\' :: byte 'u' :: ((bytes.drop 4).take 6).drop 2), _,
              ?_, hpair⟩
            have htail := List.take_append_drop 6 (bytes.drop 4)
            have hback' : (bytes.drop 4).take 6 =
                byte '\\' :: byte 'u' :: ((bytes.drop 4).take 6).drop 2 := by
              have := List.take_append_drop 2 ((bytes.drop 4).take 6)
              rw [List.take_take, Nat.min_eq_left (by decide), hback] at this
              exact this.symm
            rw [← hback', List.cons_append, List.append_assoc, htail, hbytes]
          · simp only [bind_ok, ensure_ok, pure_ok] at h
            obtain ⟨_, hlow, rfl⟩ := h
            rename_i hhigh
            exact ⟨byte 'u' :: bytes.take 4, _, by rw [List.cons_append, hbytes],
              .unicode hunit (by omega)⟩
        · cases h

/-! ## 4. Counting -/

/-- The count takes the text up to the first backslash at once. -/
theorem decodedChars_segment (raw : Bytes) : decodedChars raw =
    (orRefuse (charCount (raw.takeWhile (· ≠ byte '\\'))) (.invalid "JSON string is not UTF-8") >>=
      fun characters => (decodedChars (raw.dropWhile (· ≠ byte '\\'))).map (characters + ·)) := by
  have hzero : charCount [] = some 0 := charCount_encodeUtf8 []
  have hmap : ∀ x : Result Nat, x.map (fun n => n) = x := fun x => by
    cases x <;> rfl
  match raw with
  | [] => simp [hzero, hmap, orRefuse, bind, Except.bind]
  | b :: bytes =>
      by_cases hb : b = byte '\\'
      · simp [hb, hzero, hmap, orRefuse, bind, Except.bind]
      · rw [decodedChars, if_neg hb, List.takeWhile_cons_of_pos (by simpa using hb),
          List.dropWhile_cons_of_pos (by simpa using hb)]

theorem decodedChars_unescaped {c : Char} (hc : ¬special c) (rest : Bytes) :
    decodedChars (String.utf8EncodeChar c ++ rest) = (decodedChars rest).map (1 + ·) := by
  have hplain : ∀ b ∈ String.utf8EncodeChar c, decide (b ≠ byte '\\') = true := fun b hb =>
    decide_eq_true (plainByte_of_mem hc hb).1
  rw [decodedChars_segment, decodedChars_segment rest, List.takeWhile_append_of_pos hplain,
    List.dropWhile_append_of_pos hplain, charCount_cons]
  cases charCount (rest.takeWhile (· ≠ byte '\\')) with
  | none => rfl
  | some k =>
      cases decodedChars (rest.dropWhile (· ≠ byte '\\')) with
      | error e => rfl
      | ok n => exact congrArg Except.ok (Nat.add_assoc 1 k n)

theorem decodedChars_escaped {tail rest : Bytes} (h : skipEscape (tail ++ rest) = .ok rest) :
    decodedChars (byte '\\' :: tail ++ rest) = (decodedChars rest).map (1 + ·) := by
  rw [List.cons_append, decodedChars, if_pos rfl]
  split
  · rename_i e he
    rw [h] at he
    cases he
  · rename_i rest' he
    rw [h] at he
    rw [Except.ok.inj he]

/-- **A character of the grammar counts as one.** -/
theorem decodedChars_char {bytes : Bytes} {c : Char} (h : StringChar bytes c) (rest : Bytes) :
    decodedChars (bytes ++ rest) = (decodedChars rest).map (1 + ·) := by
  cases h with
  | unescaped hc => exact decodedChars_unescaped hc rest
  | short hletter => exact decodedChars_escaped (skipEscape_short hletter rest)
  | unicode hunit hn => exact decodedChars_escaped (skipEscape_unicode hunit hn rest)
  | pair hunit hunit' hh hh' hl hl' =>
      refine decodedChars_escaped ?_
      have := skipEscape_pair hunit hunit' ⟨hh, hh'⟩ ⟨hl, hl'⟩ rest
      simpa using this

theorem decodedChars_body {raw : Bytes} {text : List Char} (h : StringBody raw text) :
    decodedChars raw = .ok text.length := by
  induction h with
  | nil => rw [decodedChars]; rfl
  | cons hc _ ih =>
      rw [decodedChars_char hc, ih]
      exact congrArg Except.ok (Nat.add_comm 1 _)

/-- The shortcut for a string without a backslash counts the same. -/
theorem decodedJsonStringChars_eq (raw : Bytes) : decodedJsonStringChars raw = decodedChars raw := by
  unfold decodedJsonStringChars
  split
  · rfl
  · rename_i hback
    have hplain : ∀ b ∈ raw, decide (b ≠ byte '\\') = true := fun b hb =>
      decide_eq_true fun he => hback (he ▸ hb)
    rw [decodedChars_segment, List.takeWhile_eq_self_iff.mpr hplain,
      List.dropWhile_eq_nil_iff.mpr hplain]
    cases charCount raw with
    | none => rfl
    | some k => rw [decodedChars]; rfl

/-! ## 5. Scanning -/

/-- **A character of the grammar is scanned as it is.** -/
theorem scan_char {bytes : Bytes} {c : Char} (h : StringChar bytes c) (hasEscape : Bool)
    (rest : Bytes) : ∃ hasEscape', scanJsonString false hasEscape (bytes ++ rest) =
      (scanJsonString false hasEscape' rest).map fun (raw, result) => (bytes ++ raw, result) := by
  -- Behind a backslash any byte is taken, and the digits are plain.
  have hstep : ∀ (hasEscape : Bool) (letter : UInt8) (digits rest : Bytes),
      (∀ b ∈ digits, PlainByte b) →
      scanJsonString false hasEscape (byte '\\' :: letter :: digits ++ rest) =
        (scanJsonString false true rest).map fun (raw, result) =>
          (byte '\\' :: letter :: digits ++ raw, result) := by
    intro hasEscape letter digits rest hdigits
    rw [List.cons_append, List.cons_append, scanJsonString, if_neg (by decide), if_pos rfl,
      scanJsonString, if_pos rfl, scanJsonString_plain hdigits]
    cases scanJsonString false true rest <;> rfl
  cases h with
  | unescaped hc => exact ⟨hasEscape, scanJsonString_plain (fun b hb => plainByte_of_mem hc hb) _ _⟩
  | short hletter => exact ⟨true, hstep hasEscape _ [] rest (by simp)⟩
  | unicode hunit hn => exact ⟨true, hstep hasEscape _ _ rest (plainByte_of_unit16 hunit)⟩
  | pair hunit hunit' hh hh' hl hl' =>
      refine ⟨true, ?_⟩
      rw [List.append_assoc, hstep _ _ _ _ (plainByte_of_unit16 hunit), hstep _ _ _ _ (plainByte_of_unit16 hunit')]
      cases scanJsonString false true rest <;> simp [Except.map]

theorem scan_body {raw : Bytes} {text : List Char} (h : StringBody raw text) (hasEscape : Bool)
    (rest : Bytes) : ∃ hasEscape',
      scanJsonString false hasEscape (raw ++ byte '"' :: rest) = .ok (raw, hasEscape', rest) := by
  induction h generalizing hasEscape with
  | nil => exact ⟨hasEscape, rfl⟩
  | cons hc _ ih =>
      obtain ⟨hasEscape', hstep⟩ := scan_char hc hasEscape (_ ++ byte '"' :: rest)
      obtain ⟨hasEscape'', hrest⟩ := ih hasEscape'
      rw [List.append_assoc, hstep, hrest]
      exact ⟨hasEscape'', rfl⟩

/-- What the scan returns is the document up to the closing quote, and what follows. -/
theorem scan_split {escaped hasEscape : Bool} {bytes raw rest : Bytes} {escape : Bool}
    (h : scanJsonString escaped hasEscape bytes = .ok (raw, escape, rest)) :
    bytes = raw ++ byte '"' :: rest := by
  induction bytes generalizing escaped hasEscape raw with
  | nil => cases h
  | cons b bytes ih =>
      have hmap : ∀ {escaped hasEscape : Bool},
          (scanJsonString escaped hasEscape bytes).map (fun (raw, result) => (b :: raw, result)) =
            .ok (raw, escape, rest) → b :: bytes = raw ++ byte '"' :: rest := by
        intro escaped hasEscape hm
        obtain ⟨⟨raw', escape', rest'⟩, hscan, hpair⟩ := map_ok.mp hm
        simp only [Prod.mk.injEq] at hpair
        obtain ⟨rfl, rfl, rfl⟩ := hpair
        rw [ih hscan, List.cons_append]
      unfold scanJsonString at h
      split at h
      · exact hmap h
      · split at h
        · exact hmap h
        · split at h
          · rename_i hquote
            simp only [Except.ok.injEq, Prod.mk.injEq] at h
            obtain ⟨rfl, -, rfl⟩ := h
            rw [hquote, List.nil_append]
          · split at h
            · cases h
            · exact hmap h

/-- A scanned and counted string that is not empty starts with a character of the grammar. -/
theorem char_of_decodedChars {raw rest : Bytes} {hasEscape hasEscape' : Bool} {n : Nat}
    (hscan : scanJsonString false hasEscape (raw ++ byte '"' :: rest) = .ok (raw, hasEscape', rest))
    (h : decodedChars raw = .ok n) (hne : raw ≠ []) :
    ∃ bytes c raw', raw = bytes ++ raw' ∧ StringChar bytes c := by
  obtain ⟨b, bytes, rfl⟩ := List.exists_cons_of_ne_nil hne
  by_cases hb : b = byte '\\'
  · subst hb
    rw [decodedChars, if_pos rfl] at h
    split at h
    · cases h
    · rename_i rest' hskip
      obtain ⟨tail, c, rfl, hc⟩ := escape_of_skipEscape hskip
      exact ⟨_, c, rest', rfl, hc⟩
  · rw [decodedChars_segment, bind_ok] at h
    obtain ⟨k, hk, -⟩ := h
    rw [orRefuse_ok, charCount_eq_some] at hk
    obtain ⟨text, htext, -⟩ := hk
    rw [List.takeWhile_cons_of_pos (by simpa using hb)] at htext
    obtain ⟨c, text, rfl⟩ := List.exists_cons_of_ne_nil (l := text) fun hnil => by
      rw [hnil] at htext
      cases htext
    have hraw : b :: bytes = String.utf8EncodeChar c ++
        (encodeUtf8 text ++ bytes.dropWhile (· ≠ byte '\\')) := by
      rw [← List.append_assoc, ← encodeUtf8_cons, htext, List.cons_append, List.takeWhile_append_dropWhile]
    refine ⟨_, c, _, hraw, .unescaped fun hs => ?_⟩
    -- A special character would have ended the scan, or been refused by it.
    rcases hs with rfl | rfl | hcontrol
    · rw [hraw] at hscan
      cases hscan
    · rw [utf8EncodeChar_ascii (by decide)] at hraw
      exact hb (List.cons.inj hraw).1
    · rw [utf8EncodeChar_ascii (by omega)] at hraw
      obtain rfl := (List.cons.inj hraw).1
      have hlt : byte c < 0x20 := by
        rw [UInt8.lt_iff_toNat_lt, toNat_byte (by omega)]
        exact hcontrol
      have hquote : byte c ≠ byte '"' := fun he => by
        rw [he] at hlt
        exact absurd hlt (by decide)
      rw [List.cons_append, scanJsonString, if_neg (by decide), if_neg hb, if_neg hquote,
        if_pos hlt] at hscan
      cases hscan

/-- **What was scanned and counted is a string of the grammar.** -/
theorem body_of_decodedChars {raw rest : Bytes} {hasEscape hasEscape' : Bool} {n : Nat}
    (hscan : scanJsonString false hasEscape (raw ++ byte '"' :: rest) = .ok (raw, hasEscape', rest))
    (h : decodedChars raw = .ok n) : ∃ text, StringBody raw text := by
  induction hlen : raw.length using Nat.strong_induction_on generalizing raw hasEscape n with
  | _ len ih =>
    by_cases hne : raw = []
    · exact ⟨[], hne ▸ .nil⟩
    · obtain ⟨bytes, c, raw', rfl, hc⟩ := char_of_decodedChars hscan h hne
      obtain ⟨middle, hstep⟩ := scan_char hc hasEscape (raw' ++ byte '"' :: rest)
      rw [List.append_assoc, hstep] at hscan
      obtain ⟨⟨raw'', escape, rest'⟩, hrest, hpair⟩ := map_ok.mp hscan
      simp only [Prod.mk.injEq, List.append_cancel_left_eq] at hpair
      obtain ⟨rfl, rfl, rfl⟩ := hpair
      rw [decodedChars_char hc] at h
      obtain ⟨m, hm, -⟩ := map_ok.mp h
      have hpos := hc.length.1
      have hlt : raw''.length < len := by
        rw [← hlen, List.length_append]
        omega
      obtain ⟨text, htext⟩ := ih _ hlt hrest hm rfl
      exact ⟨c :: text, .cons hc htext⟩

/-! ## 6. The agreement -/

/-- **Between the quotes that the scan found, the count succeeds exactly on the strings of the
    grammar, and counts the characters they stand for**; twelve times the count bounds the
    length, so the length alone never exceeds a limit that the count keeps. -/
theorem decoded_chars_agree {bytes raw rest : Bytes} {hasEscape : Bool}
    (hscan : scanJsonString false false bytes = .ok (raw, hasEscape, rest)) :
    (∀ n, decodedJsonStringChars raw = .ok n ↔ ∃ text, StringBody raw text ∧ text.length = n) ∧
      (∀ n, decodedJsonStringChars raw = .ok n → raw.length ≤ 12 * n) ∧
      ∀ shape key n, decodedJsonStringChars raw = .ok n →
        (enforceStringLimit shape key raw n = .ok () ↔ n ≤ stringMaximum shape key) := by
  rw [scan_split hscan] at hscan
  have hcount : ∀ n, decodedJsonStringChars raw = .ok n ↔
      ∃ text, StringBody raw text ∧ text.length = n := by
    intro n
    rw [decodedJsonStringChars_eq]
    constructor
    · intro h
      obtain ⟨text, htext⟩ := body_of_decodedChars hscan h
      rw [decodedChars_body htext] at h
      exact ⟨text, htext, Except.ok.inj h⟩
    · rintro ⟨text, htext, rfl⟩
      exact decodedChars_body htext
  have hlen : ∀ n, decodedJsonStringChars raw = .ok n → raw.length ≤ 12 * n := by
    intro n h
    obtain ⟨text, htext, rfl⟩ := (hcount n).mp h
    exact htext.length_le
  refine ⟨hcount, hlen, fun shape key n h => ?_⟩
  have := hlen n h
  rw [enforceStringLimit, ensure_ok]
  omega

/-- A string with a character of two bytes, a short escape and a surrogate pair. -/
theorem decoded_chars_agree_sample :
    (∀ n, decodedJsonStringChars (encodeUtf8 "é\\n\\ud83d\\ude00".toList) = .ok n ↔
        ∃ text, StringBody (encodeUtf8 "é\\n\\ud83d\\ude00".toList) text ∧ text.length = n) ∧
      (∀ n, decodedJsonStringChars (encodeUtf8 "é\\n\\ud83d\\ude00".toList) = .ok n →
        (encodeUtf8 "é\\n\\ud83d\\ude00".toList).length ≤ 12 * n) ∧
      ∀ shape key n, decodedJsonStringChars (encodeUtf8 "é\\n\\ud83d\\ude00".toList) = .ok n →
        (enforceStringLimit shape key (encodeUtf8 "é\\n\\ud83d\\ude00".toList) n = .ok () ↔
          n ≤ stringMaximum shape key) :=
  @decoded_chars_agree (encodeUtf8 "é\\n\\ud83d\\ude00\", 1".toList) _ (encodeUtf8 ", 1".toList) true rfl

end Kirje
