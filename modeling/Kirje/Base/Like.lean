import Mathlib.Data.List.Infix

/-
  File:      Kirje/Base/Like.lean
  Subject:   The pattern operator `LIKE … ESCAPE` of SQL, without regard to the case
             of ASCII letters.

  `%` stands for any text, `_` for one character, and the escape character makes the
  next one stand for itself.

  * `like_literal`: an escaped text stands for itself.
  * **`like_contains`**: a text between two `%` is looked for anywhere.
-/

namespace Kirje.Base

/-! ## 1. ASCII letters -/

theorem toNat_toLower (c : Char) :
    c.toLower.toNat = if 65 ≤ c.toNat ∧ c.toNat ≤ 90 then c.toNat + 32 else c.toNat := by
  unfold Char.toLower
  by_cases h : c.val ≥ 'A'.val ∧ c.val ≤ 'Z'.val
  · have hlo : 65 ≤ c.val.toNat := UInt32.le_iff_toNat_le.mp h.1
    have hhi : c.val.toNat ≤ 90 := UInt32.le_iff_toNat_le.mp h.2
    rw [dif_pos h, if_pos ⟨hlo, hhi⟩]
    show (c.val + ('a'.val - 'A'.val)).toNat = c.val.toNat + 32
    have hstep : ('a'.val - 'A'.val).toNat = 32 := by decide
    rw [UInt32.toNat_add, hstep]
    omega
  · rw [dif_neg h, if_neg]
    intro hletter
    exact h ⟨UInt32.le_iff_toNat_le.mpr hletter.1, UInt32.le_iff_toNat_le.mpr hletter.2⟩

@[simp] theorem toLower_toLower (c : Char) : c.toLower.toLower = c.toLower := by
  apply Char.toNat_inj.mp
  rw [toNat_toLower, toNat_toLower]
  by_cases h : 65 ≤ c.toNat ∧ c.toNat ≤ 90
  · rw [if_pos h, if_neg (by omega)]
  · rw [if_neg h, if_neg h]

/-- What is no letter is its own lower case. -/
theorem toLower_of_not_letter {c : Char} (h : c.toNat < 65) : c.toLower = c := by
  apply Char.toNat_inj.mp
  rw [toNat_toLower, if_neg (by omega)]

/-! ## 2. Patterns -/

/-- `text LIKE pattern ESCAPE esc`. -/
def like (esc : Char) : List Char → List Char → Bool
  | [], text => text.isEmpty
  | p :: pattern, text =>
      if p = '%' then text.tails.any fun rest => like esc pattern rest
      else if p = esc then
        match pattern, text with
        | q :: pattern, c :: text => q.toLower == c.toLower && like esc pattern text
        | _, _ => false
      else
        match text with
        | [] => false
        | c :: text => (p = '_' || p.toLower == c.toLower) && like esc pattern text

/-- A character of a pattern that stands for itself. -/
def escapeLiteral (esc c : Char) : List Char := if c = esc ∨ c = '%' ∨ c = '_' then [esc, c] else [c]

variable {esc : Char}

theorem like_cons (p : Char) (pattern text : List Char) :
    like esc (p :: pattern) text =
      if p = '%' then text.tails.any fun rest => like esc pattern rest
      else if p = esc then
        match pattern, text with
        | q :: pattern, c :: text => q.toLower == c.toLower && like esc pattern text
        | _, _ => false
      else
        match text with
        | [] => false
        | c :: text => (p = '_' || p.toLower == c.toLower) && like esc pattern text := by
  cases pattern <;> cases text <;> rfl

theorem like_percent {pattern text : List Char} :
    like esc ('%' :: pattern) text = true ↔ ∃ rest, rest <:+ text ∧ like esc pattern rest = true := by
  simp only [like_cons, if_true, List.any_eq_true, List.mem_tails]

/-- An escaped character stands for itself. -/
theorem like_escapeLiteral (hesc : esc ≠ '%') {c : Char} {pattern text : List Char} :
    like esc (escapeLiteral esc c ++ pattern) text = true ↔
      ∃ d rest, text = d :: rest ∧ c.toLower = d.toLower ∧ like esc pattern rest = true := by
  unfold escapeLiteral
  by_cases hc : c = esc ∨ c = '%' ∨ c = '_'
  · rw [if_pos hc]
    cases text with
    | nil => simp [like_cons, hesc]
    | cons d rest => simp [like_cons, hesc]
  · rw [if_neg hc]
    simp only [not_or] at hc
    cases text with
    | nil => simp [like_cons, hc]
    | cons d rest => simp [like_cons, hc]

/-- **An escaped text stands for itself, up to the case of its letters.** -/
theorem like_literal (hesc : esc ≠ '%') {literal pattern text : List Char} :
    like esc (literal.flatMap (escapeLiteral esc) ++ pattern) text = true ↔
      ∃ found rest, text = found ++ rest ∧ literal.map Char.toLower = found.map Char.toLower ∧
        like esc pattern rest = true := by
  induction literal generalizing text with
  | nil =>
      simp only [List.flatMap_nil, List.nil_append, List.map_nil]
      constructor
      · intro h
        exact ⟨[], text, rfl, rfl, h⟩
      · intro ⟨found, rest, htext, hfound, h⟩
        rw [eq_comm, List.map_eq_nil_iff] at hfound
        rw [htext, hfound]
        exact h
  | cons c literal ih =>
      rw [List.flatMap_cons, List.append_assoc, like_escapeLiteral hesc]
      constructor
      · intro ⟨d, tail, htext, hcd, h⟩
        obtain ⟨found, rest, htail, hfound, h⟩ := ih.mp h
        refine ⟨d :: found, rest, ?_, ?_, h⟩
        · rw [htext, htail, List.cons_append]
        · rw [List.map_cons, List.map_cons, hcd, hfound]
      · intro ⟨found, rest, htext, hfound, h⟩
        cases found with
        | nil => simp at hfound
        | cons d found =>
            rw [List.map_cons, List.map_cons, List.cons.injEq] at hfound
            exact ⟨d, found ++ rest, htext, hfound.1, ih.mpr ⟨found, rest, rfl, hfound.2, h⟩⟩

theorem like_any {text : List Char} : like esc ['%'] text = true := by
  rw [like_percent]
  exact ⟨[], List.nil_suffix, rfl⟩

/-- **A text between two `%` is looked for anywhere.** -/
theorem like_contains (hesc : esc ≠ '%') {literal text : List Char} :
    like esc ('%' :: literal.flatMap (escapeLiteral esc) ++ ['%']) text = true ↔
      literal.map Char.toLower <:+: text.map Char.toLower := by
  rw [List.cons_append, like_percent]
  constructor
  · intro ⟨tail, htail, h⟩
    obtain ⟨found, rest, rfl, hfound, -⟩ := (like_literal hesc).mp h
    rw [hfound]
    have hinfix : found <:+: text := List.infix_iff_prefix_suffix.mpr ⟨_, List.prefix_append _ _, htail⟩
    exact hinfix.map Char.toLower
  · intro ⟨before, after, h⟩
    obtain ⟨front, hafter, hfront, hrest⟩ := List.map_eq_append_iff.mp h.symm
    obtain ⟨first, found, rfl, -, hfound⟩ := List.map_eq_append_iff.mp hrest.1
    refine ⟨found ++ hafter, ⟨first, ?_⟩, (like_literal hesc).mpr ⟨found, hafter, rfl, hfound.symm, like_any⟩⟩
    rw [hfront, List.append_assoc]

end Kirje.Base
