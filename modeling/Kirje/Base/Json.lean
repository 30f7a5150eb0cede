import Mathlib.Data.Bool.AllAny
import Mathlib.Data.List.Infix

/-
  File:      Kirje/Base/Json.lean
  Subject:   Values and their compact JSON text.

  A text is written between quotes with an escape for the quote, the backslash and
  the control characters; everything else is written as it is.

  * `escapeChar_plain`, `escapeChar_special`: the two shapes of an escape.
  * `plain_prefix`: a text without special characters at the start of an escaped text
    is at the start of the text.
-/

namespace Kirje.Base

/-! ## 1. Values -/

inductive JsonValue where
  | null
  | bool (b : Bool)
  | number (n : Nat)
  | string (s : String)
  | array (items : List JsonValue)
  | object (members : List (String × JsonValue))

/-! ## 2. Texts -/

/-- A character that JSON escapes. -/
def special (c : Char) : Prop := c = '"' ∨ c = '\\' ∨ c.toNat < 0x20

instance : DecidablePred special := fun c =>
  inferInstanceAs (Decidable (c = '"' ∨ c = '\\' ∨ c.toNat < 0x20))

def hexDigit (n : Nat) : Char := Char.ofNat (if n < 10 then 48 + n else 87 + n)

/-- The escape of a control character. -/
def escapeControl (n : Nat) : List Char :=
  match n with
  | 0x08 => ['\\', 'b']
  | 0x09 => ['\\', 't']
  | 0x0a => ['\\', 'n']
  | 0x0c => ['\\', 'f']
  | 0x0d => ['\\', 'r']
  | n => ['\\', 'u', '0', '0', hexDigit (n / 16), hexDigit (n % 16)]

def escapeChar (c : Char) : List Char :=
  if c = '"' ∨ c = '\\' then ['\\', c] else if c.toNat < 0x20 then escapeControl c.toNat else [c]

def escape (text : List Char) : List Char := text.flatMap escapeChar

def quoted (text : String) : List Char := '"' :: escape text.toList ++ ['"']

theorem escapeChar_plain {c : Char} (h : ¬special c) : escapeChar c = [c] := by
  simp only [special, not_or] at h
  unfold escapeChar
  rw [if_neg (by simp [h.1, h.2.1]), if_neg h.2.2]

/-- What the escapes of the control characters look like. -/
theorem escapeControl_shape {n : Nat} (h : n < 0x20) :
    ∃ t, escapeControl n = '\\' :: t ∧ t ≠ [] ∧ t.length ≤ 5 ∧
      ∀ c ∈ t, 48 ≤ c.toNat ∧ c.toNat < 128 ∧ c ≠ '\\' ∧ c.toLower = c := by
  have hall : ∀ n : Fin 0x20, (escapeControl n.val).head? = some '\\' ∧ (escapeControl n.val).tail ≠ [] ∧
      (escapeControl n.val).tail.length ≤ 5 ∧ ((escapeControl n.val).tail.all fun c =>
        48 ≤ c.toNat ∧ c.toNat < 128 ∧ c ≠ '\\' ∧ c.toLower = c) := by
    decide
  obtain ⟨hhead, hne, hlen, hchars⟩ := hall ⟨n, h⟩
  exact ⟨_, (List.cons_head?_tail hhead).symm, hne, hlen, List.all_iff_forall_prop.mp hchars⟩

/-- **The escape of a special character is a backslash and something.** -/
theorem escapeChar_special {c : Char} (h : special c) :
    ∃ t, escapeChar c = '\\' :: t ∧ t ≠ [] ∧ t.length ≤ 5 := by
  unfold escapeChar
  by_cases hc : c = '"' ∨ c = '\\'
  · exact ⟨[c], if_pos hc, by simp, by simp⟩
  · have hlt : c.toNat < 0x20 := by
      simp only [not_or] at hc
      simpa [special, hc.1, hc.2] using h
    obtain ⟨t, ht, hne, hlen, -⟩ := escapeControl_shape hlt
    exact ⟨t, by rw [if_neg hc, if_pos hlt, ht], hne, hlen⟩

/-- Only the escape of the backslash ends with one. -/
theorem eq_backslash_of_suffix {c : Char} (h : special c) (hs : ['\\'] <:+ escapeChar c) : c = '\\' := by
  by_cases hc : c = '"' ∨ c = '\\'
  · rcases hc with rfl | rfl
    · revert hs
      decide
    · rfl
  · have hlt : c.toNat < 0x20 := by
      simp only [not_or] at hc
      simpa [special, hc.1, hc.2] using h
    obtain ⟨t, ht, hne, -, hchars⟩ := escapeControl_shape hlt
    rw [escapeChar, if_neg hc, if_pos hlt, ht, List.suffix_cons_iff] at hs
    rcases hs with hs | hs
    · exact absurd (List.cons.inj hs).2.symm hne
    · exact absurd rfl (hchars '\\' (hs.subset List.mem_cons_self)).2.2.1

@[simp] theorem escape_nil : escape [] = [] := rfl

@[simp] theorem escape_cons (c : Char) (text : List Char) :
    escape (c :: text) = escapeChar c ++ escape text := by
  simp [escape]

@[simp] theorem escape_append (a b : List Char) : escape (a ++ b) = escape a ++ escape b := by
  simp [escape]

/-- A text without special characters is written as it is. -/
theorem escape_plain {text : List Char} (h : ∀ c ∈ text, ¬special c) : escape text = text := by
  induction text with
  | nil => rfl
  | cons c text ih =>
      rw [escape_cons, escapeChar_plain (h c List.mem_cons_self),
        ih fun d hd => h d (List.mem_cons_of_mem _ hd)]
      rfl

/-- **What starts an escaped text and has no special characters starts the text.** -/
theorem plain_prefix {q text : List Char} (hq : ∀ c ∈ q, ¬special c) (h : q <+: escape text) :
    q <+: text := by
  induction text generalizing q with
  | nil => simpa using h
  | cons c text ih =>
      cases q with
      | nil => exact List.nil_prefix
      | cons d q =>
          rw [escape_cons] at h
          have hd := hq d List.mem_cons_self
          by_cases hc : special c
          · obtain ⟨t, ht, -⟩ := escapeChar_special hc
            rw [ht, List.cons_append, List.cons_prefix_cons] at h
            exact absurd (h.1 ▸ Or.inr (Or.inl rfl)) hd
          · rw [escapeChar_plain hc, List.singleton_append, List.cons_prefix_cons] at h
            rw [List.cons_prefix_cons]
            exact ⟨h.1, ih (fun e he => hq e (List.mem_cons_of_mem _ he)) h.2⟩

/-- An escaped text has no control characters. -/
theorem not_control_of_mem_escape {text : List Char} {c : Char} (h : c ∈ escape text) :
    0x20 ≤ c.toNat := by
  obtain ⟨d, -, hd⟩ := List.mem_flatMap.mp h
  unfold escapeChar at hd
  split at hd
  · rename_i hq
    simp only [List.mem_cons, List.not_mem_nil, or_false] at hd
    rcases hq with rfl | rfl <;> rcases hd with rfl | rfl <;> decide
  · split at hd
    · rename_i hlt
      obtain ⟨t, ht, -, -, hchars⟩ := escapeControl_shape hlt
      rw [ht, List.mem_cons] at hd
      cases hd with
      | inl hd => rw [hd]; decide
      | inr hd => exact le_trans (by decide) (hchars c hd).1
    · rename_i hlt
      rw [List.mem_singleton] at hd
      rw [hd]
      omega

/-- A printable character is written in one character, or with a backslash before it. -/
theorem escapeChar_printable {c : Char} (h : 0x20 ≤ c.toNat) :
    escapeChar c = if special c then ['\\', c] else [c] := by
  by_cases hc : special c
  · have hq : c = '"' ∨ c = '\\' := by
      rcases hc with hc | hc | hc
      · exact .inl hc
      · exact .inr hc
      · omega
    rw [if_pos hc, escapeChar, if_pos hq]
  · rw [if_neg hc, escapeChar_plain hc]

/-- The quotes and backslashes of an escaped text. -/
theorem count_escape {text : List Char} (h : ∀ c ∈ text, 0x20 ≤ c.toNat) :
    (escape text).count '"' = text.count '"' ∧
      (escape text).count '\\' = 2 * text.count '\\' + text.count '"' := by
  induction text with
  | nil => exact ⟨rfl, rfl⟩
  | cons c text ih =>
      obtain ⟨hquote, hback⟩ := ih fun d hd => h d (List.mem_cons_of_mem _ hd)
      rw [escape_cons, List.count_append, List.count_append, hquote, hback,
        escapeChar_printable (h c List.mem_cons_self)]
      by_cases hq : c = '"'
      · subst hq
        have hs : special '"' := .inl rfl
        rw [if_pos hs]
        simp
        omega
      · by_cases hb : c = '\\'
        · subst hb
          have hs : special '\\' := .inr (.inl rfl)
          rw [if_pos hs]
          simp
          omega
        · have hs : ¬special c := by
            intro hs
            rcases hs with hs | hs | hs
            · exact hq hs
            · exact hb hs
            · exact absurd (h c List.mem_cons_self) (by omega)
          rw [if_neg hs]
          simp [hq, hb]

/-! ## 3. The text of a value -/

mutual

/-- The compact JSON text of a value. -/
def JsonValue.chars : JsonValue → List Char
  | .null => ['n', 'u', 'l', 'l']
  | .bool true => ['t', 'r', 'u', 'e']
  | .bool false => ['f', 'a', 'l', 's', 'e']
  | .number n => Nat.toDigits 10 n
  | .string s => quoted s
  | .array [] => ['[', ']']
  | .array (v :: items) => '[' :: v.chars ++ itemChars items ++ [']']
  | .object [] => ['{', '}']
  | .object ((key, v) :: members) => '{' :: quoted key ++ ':' :: v.chars ++ memberChars members ++ ['}']

/-- The items after the first. -/
def itemChars : List JsonValue → List Char
  | [] => []
  | v :: items => ',' :: v.chars ++ itemChars items

/-- The members after the first. -/
def memberChars : List (String × JsonValue) → List Char
  | [] => []
  | (key, v) :: members => ',' :: quoted key ++ ':' :: v.chars ++ memberChars members

end

end Kirje.Base
