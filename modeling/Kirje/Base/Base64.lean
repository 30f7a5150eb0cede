import Kirje.Base.Utf8

/-
  File:      Kirje/Base/Base64.lean
  Subject:   The standard Base64 text of a byte string, with padding.

  * `base64_shape`: a text of the alphabet, then up to two signs of padding that bring it
    to a multiple of four; three quarters of it, less the padding, are the bytes.
  * `base64Size_base64`: the whole bytes that a text holds, counted in its characters.
-/

namespace Kirje.Base

/-- The character of a six-bit number. -/
def base64Char (n : Nat) : Char :=
  if n < 26 then Char.ofNat (65 + n)
  else if n < 52 then Char.ofNat (71 + n)
  else if n < 62 then Char.ofNat (n - 4)
  else if n = 62 then '+' else '/'

/-- Three bytes are four characters; fewer at the end are padded. -/
def base64 : Bytes → List Char
  | [] => []
  | [a] => [base64Char (a.toNat / 4), base64Char (a.toNat % 4 * 16), '=', '=']
  | [a, b] =>
      [base64Char (a.toNat / 4), base64Char (a.toNat % 4 * 16 + b.toNat / 16),
        base64Char (b.toNat % 16 * 4), '=']
  | a :: b :: c :: bytes =>
      base64Char (a.toNat / 4) :: base64Char (a.toNat % 4 * 16 + b.toNat / 16) ::
        base64Char (b.toNat % 16 * 4 + c.toNat / 64) :: base64Char (c.toNat % 64) :: base64 bytes

/-- A character of the alphabet. -/
def IsBase64 (c : Char) : Prop := ∃ n < 64, base64Char n = c

theorem isBase64_char {n : Nat} (h : n < 64) : IsBase64 (base64Char n) := ⟨n, h, rfl⟩

/-- **The shape of a Base64 text.** -/
theorem base64_shape (bytes : Bytes) : ∃ content padding,
    base64 bytes = content ++ List.replicate padding '=' ∧ (∀ c ∈ content, IsBase64 c) ∧
      padding ≤ 2 ∧ (content = [] → padding = 0) ∧ (content.length + padding) % 4 = 0 ∧
      bytes.length + padding = (content.length + padding) / 4 * 3 := by
  induction bytes using base64.induct with
  | case1 => exact ⟨[], 0, rfl, by simp, by simp, by simp, by simp, by simp⟩
  | case2 a =>
      have ha := a.toNat_lt
      refine ⟨[base64Char (a.toNat / 4), base64Char (a.toNat % 4 * 16)], 2, rfl, ?_, by simp,
        by simp, by simp, by simp⟩
      simp only [List.forall_mem_cons, List.not_mem_nil, false_imp_iff, forall_const, and_true]
      exact ⟨isBase64_char (by omega), isBase64_char (by omega)⟩
  | case3 a b =>
      have ha := a.toNat_lt
      have hb := b.toNat_lt
      refine ⟨[base64Char (a.toNat / 4), base64Char (a.toNat % 4 * 16 + b.toNat / 16),
        base64Char (b.toNat % 16 * 4)], 1, rfl, ?_, by simp, by simp, by simp, by simp⟩
      simp only [List.forall_mem_cons, List.not_mem_nil, false_imp_iff, forall_const, and_true]
      exact ⟨isBase64_char (by omega), isBase64_char (by omega), isBase64_char (by omega)⟩
  | case4 a b c bytes ih =>
      have ha := a.toNat_lt
      have hb := b.toNat_lt
      have hc := c.toNat_lt
      obtain ⟨content, padding, htext, hall, hle, hnil, hmod, hlen⟩ := ih
      refine ⟨base64Char (a.toNat / 4) :: base64Char (a.toNat % 4 * 16 + b.toNat / 16) ::
        base64Char (b.toNat % 16 * 4 + c.toNat / 64) :: base64Char (c.toNat % 64) :: content, padding,
        ?_, ?_, hle, by simp, ?_, ?_⟩
      · rw [base64, htext]
        rfl
      · simp only [List.forall_mem_cons]
        exact ⟨isBase64_char (by omega), isBase64_char (by omega), isBase64_char (by omega),
          isBase64_char (by omega), hall⟩
      · simp only [List.length_cons]
        omega
      · simp only [List.length_cons]
        omega

/-- The whole bytes in a text: six bits for each character that is no padding. -/
def base64Size (text : List Char) : Nat := text.countP (· ≠ '=') * 6 / 8

theorem IsBase64.ne_padding {c : Char} (h : IsBase64 c) : c ≠ '=' := by
  have hall : ∀ n : Fin 64, base64Char n ≠ '=' := by decide
  obtain ⟨n, hn, rfl⟩ := h
  exact hall ⟨n, hn⟩

theorem base64Size_base64 (bytes : Bytes) : base64Size (base64 bytes) = bytes.length := by
  obtain ⟨content, padding, htext, hcontent, hle, hnil, hmod, hlen⟩ := base64_shape bytes
  have hcount : (base64 bytes).countP (· ≠ '=') = content.length := by
    rw [htext, List.countP_append, List.countP_replicate, if_neg (by simp), Nat.add_zero,
      List.countP_eq_length]
    exact fun c hc => decide_eq_true (hcontent c hc).ne_padding
  have hzero : content.length = 0 → padding = 0 := fun h => hnil (List.length_eq_zero_iff.mp h)
  rw [base64Size, hcount]
  omega

end Kirje.Base
