import Mathlib.Data.Nat.Find
import Mathlib.Data.String.Basic
import Mathlib.Tactic.Common

/-
  File:      Kirje/Base/Calendar.lean
  Subject:   Instants as texts: decimals of a fixed width, the proleptic Gregorian
             calendar, and the order of the texts.

  * `field_lt_iff`: where a text starts with a decimal of a fixed width, its order
    is that of the number and then that of the rest.
  * `yearOf_spec`, `daysBeforeYear_succ`: the year of a day.
  * **`rfc3339_lt_iff`**: the texts `yyyy-mm-ddThh:mm:ss.ffffffZ` of the years 0000 to
    9999 are ordered as the microseconds they name.
-/

namespace Kirje.Base

/-! ## 1. Decimals of a fixed width -/

/-- Two texts whose starts have one length are compared by their starts first. -/
theorem append_lt_append_iff {α : Type} [LT α] {a a' b b' : List α} (h : a.length = a'.length) :
    a ++ b < a' ++ b' ↔ a < a' ∨ a = a' ∧ b < b' := by
  induction a generalizing a' with
  | nil =>
      obtain rfl : a' = [] := List.length_eq_zero_iff.mp h.symm
      simp
  | cons x a ih =>
      cases a' with
      | nil => simp at h
      | cons y a' =>
          have hrest := @ih a' (by simpa using h)
          simp only [List.cons_append, List.cons_lt_cons_iff, hrest, List.cons.injEq]
          tauto

/-- The last decimal digit of a number. -/
def digit (n : Nat) : Char := Char.ofNat (48 + n % 10)

/-- The last `w` decimal digits of a number. -/
def pad : Nat → Nat → List Char
  | 0, _ => []
  | w + 1, n => pad w (n / 10) ++ [digit n]

@[simp] theorem length_pad (w n : Nat) : (pad w n).length = w := by
  induction w generalizing n with
  | zero => rfl
  | succ w ih => simp [pad, ih]

theorem digit_lt_iff {m n : Nat} : digit m < digit n ↔ m % 10 < n % 10 := by
  have hdigits : ∀ a < 10, ∀ b < 10, Char.ofNat (48 + a) < Char.ofNat (48 + b) ↔ a < b := by decide
  exact hdigits (m % 10) (Nat.mod_lt m (by decide)) (n % 10) (Nat.mod_lt n (by decide))

/-- **Decimals of one width are ordered as the numbers.** -/
theorem pad_lt_iff {w m n : Nat} (hm : m < 10 ^ w) (hn : n < 10 ^ w) :
    pad w m < pad w n ↔ m < n := by
  induction w generalizing m n with
  | zero =>
      rw [pow_zero] at hm hn
      obtain rfl : m = 0 := by omega
      obtain rfl : n = 0 := by omega
      simp
  | succ w ih =>
      rw [pow_succ] at hm hn
      have hm' : m / 10 < 10 ^ w := Nat.div_lt_of_lt_mul (by omega)
      have hn' : n / 10 < 10 ^ w := Nat.div_lt_of_lt_mul (by omega)
      have hlt := ih hm' hn'
      have hgt := ih hn' hm'
      have heq : pad w (m / 10) = pad w (n / 10) ↔ m / 10 = n / 10 := by
        constructor
        · intro h
          rw [h] at hlt hgt
          have h₁ := mt hlt.mpr (lt_irrefl _)
          have h₂ := mt hgt.mpr (lt_irrefl _)
          omega
        · intro h
          rw [h]
      have hone : [digit m] < [digit n] ↔ m % 10 < n % 10 := by
        rw [List.cons_lt_cons_iff, digit_lt_iff]
        simp
      rw [pad, pad, append_lt_append_iff (by simp), hlt, heq, hone]
      omega

theorem pad_inj {w m n : Nat} (hm : m < 10 ^ w) (hn : n < 10 ^ w) (h : pad w m = pad w n) :
    m = n := by
  have h₁ := mt (pad_lt_iff hm hn).mpr (h ▸ lt_irrefl _)
  have h₂ := mt (pad_lt_iff hn hm).mpr (h ▸ lt_irrefl _)
  omega

/-- **A text that starts with a decimal.** -/
theorem field_lt_iff {w m n : Nat} {rest rest' : List Char} {R : Prop} (hm : m < 10 ^ w)
    (hn : n < 10 ^ w) (hlt : m < n → R) (hgt : n < m → ¬R) (heq : m = n → (rest < rest' ↔ R)) :
    pad w m ++ rest < pad w n ++ rest' ↔ R := by
  rw [append_lt_append_iff (by simp), pad_lt_iff hm hn]
  rcases Nat.lt_trichotomy m n with h | rfl | h
  · exact iff_of_true (Or.inl h) (hlt h)
  · simpa using heq rfl
  · refine iff_of_false ?_ (hgt h)
    rintro (h' | ⟨he, -⟩)
    · omega
    · have := pad_inj hm hn he
      omega

theorem cons_lt_cons_same {c : Char} {rest rest' : List Char} :
    c :: rest < c :: rest' ↔ rest < rest' := by
  simp

/-! ## 2. The calendar -/

def isLeap (year : Nat) : Bool := year % 4 = 0 && (year % 100 ≠ 0 || year % 400 = 0)

/-- The days before a year, counted from 0000-01-01. -/
def daysBeforeYear (year : Nat) : Nat :=
  365 * year + (year + 3) / 4 - (year + 99) / 100 + (year + 399) / 400

/-- The length of a year. -/
theorem daysBeforeYear_succ (year : Nat) :
    daysBeforeYear (year + 1) = daysBeforeYear year + if isLeap year then 366 else 365 := by
  have h₄ : (year + 1 + 3) / 4 = (year + 3) / 4 + if year % 4 = 0 then 1 else 0 := by
    split <;> omega
  have h₁₀₀ : (year + 1 + 99) / 100 = (year + 99) / 100 + if year % 100 = 0 then 1 else 0 := by
    split <;> omega
  have h₄₀₀ : (year + 1 + 399) / 400 = (year + 399) / 400 + if year % 400 = 0 then 1 else 0 := by
    split <;> omega
  have hcentury : year % 100 = 0 → year % 4 = 0 := by omega
  have hcycle : year % 400 = 0 → year % 100 = 0 := by omega
  have hle : (year + 99) / 100 ≤ 365 * year := by omega
  have hleap : isLeap year = true ↔ year % 4 = 0 ∧ (year % 100 ≠ 0 ∨ year % 400 = 0) := by
    simp only [isLeap, Bool.and_eq_true, Bool.or_eq_true, decide_eq_true_eq]
  unfold daysBeforeYear
  rw [h₄, h₁₀₀, h₄₀₀]
  generalize (year + 99) / 100 = c at hle ⊢
  by_cases hc : year % 400 = 0
  · have hd := hcycle hc
    rw [if_pos hc, if_pos hd, if_pos (hcentury hd), if_pos (hleap.mpr ⟨hcentury hd, Or.inr hc⟩)]
    omega
  · by_cases hd : year % 100 = 0
    · have hnot : ¬isLeap year = true := fun h => (hleap.mp h).2.elim (fun hne => hne hd) hc
      rw [if_neg hc, if_pos hd, if_pos (hcentury hd), if_neg hnot]
      omega
    · by_cases h : year % 4 = 0
      · rw [if_neg hc, if_neg hd, if_pos h, if_pos (hleap.mpr ⟨h, Or.inl hd⟩)]
        omega
      · rw [if_neg hc, if_neg hd, if_neg h, if_neg fun hl => h (hleap.mp hl).1]
        omega

theorem daysBeforeYear_mono {m n : Nat} (h : m ≤ n) : daysBeforeYear m ≤ daysBeforeYear n := by
  refine monotone_nat_of_le_succ (fun year => ?_) h
  rw [daysBeforeYear_succ]
  exact Nat.le_add_right _ _

/-- A year begins within two days of its mean. -/
theorem daysBeforeYear_bounds (year : Nat) : 146097 * year ≤ 400 * daysBeforeYear year + 399 ∧
    400 * daysBeforeYear year ≤ 146097 * year + 699 := by
  unfold daysBeforeYear
  omega

/-- The year of a day: the mean length of a year gives it up to one. -/
def yearOf (day : Nat) : Nat :=
  let guess := 400 * day / 146097
  if daysBeforeYear (guess + 1) ≤ day then guess + 1
  else if daysBeforeYear guess ≤ day then guess
  else guess - 1

/-- **The day is a day of its year.** -/
theorem yearOf_spec (day : Nat) :
    daysBeforeYear (yearOf day) ≤ day ∧ day < daysBeforeYear (yearOf day + 1) := by
  have hlow : 146097 * (400 * day / 146097) ≤ 400 * day := Nat.mul_div_le _ _
  have hhigh : 400 * day < 146097 * (400 * day / 146097 + 1) := by omega
  unfold yearOf
  generalize 400 * day / 146097 = guess at hlow hhigh ⊢
  simp only
  split
  · rename_i h
    have := daysBeforeYear_bounds (guess + 1 + 1)
    exact ⟨h, by omega⟩
  · rename_i h
    split
    · rename_i h'
      exact ⟨h', by omega⟩
    · rename_i h'
      cases guess with
      | zero => exact absurd (Nat.zero_le day) h'
      | succ k =>
          have := daysBeforeYear_bounds k
          rw [Nat.add_sub_cancel]
          exact ⟨by omega, by omega⟩

theorem yearOf_mono {m n : Nat} (h : m ≤ n) : yearOf m ≤ yearOf n := by
  by_contra hlt
  have hmono := daysBeforeYear_mono (show yearOf n + 1 ≤ yearOf m by omega)
  have hm := (yearOf_spec m).1
  have hn := (yearOf_spec n).2
  omega

def dayOfYear (day : Nat) : Nat := day - daysBeforeYear (yearOf day)

theorem dayOfYear_lt (day : Nat) :
    dayOfYear day < if isLeap (yearOf day) then 366 else 365 := by
  obtain ⟨hlow, hhigh⟩ := yearOf_spec day
  rw [daysBeforeYear_succ] at hhigh
  unfold dayOfYear
  omega

/-- In one year, the days are ordered as their numbers in the year. -/
theorem dayOfYear_lt_iff {m n : Nat} (h : yearOf m = yearOf n) : dayOfYear m < dayOfYear n ↔ m < n := by
  have hm := (yearOf_spec m).1
  have hn := (yearOf_spec n).1
  rw [h] at hm
  unfold dayOfYear
  rw [h]
  omega

/-- The days of a year before a month, the months counted from 0. -/
def daysBeforeMonth (leap : Bool) (month : Nat) : Nat :=
  [0, 31, 59, 90, 120, 151, 181, 212, 243, 273, 304, 334].getD month 365 +
    if leap && 2 ≤ month then 1 else 0

/-- The month of a day of the year. -/
def monthOf (leap : Bool) (day : Nat) : Nat :=
  Nat.findGreatest (fun month => daysBeforeMonth leap month ≤ day) 11

theorem monthOf_mono (leap : Bool) {m n : Nat} (h : m ≤ n) : monthOf leap m ≤ monthOf leap n :=
  Nat.findGreatest_mono_left (fun _ hm => Nat.le_trans hm h) 11

theorem monthOf_lt (leap : Bool) (day : Nat) : monthOf leap day < 12 :=
  Nat.lt_succ_of_le (Nat.findGreatest_le 11)

def dayOfMonth (leap : Bool) (day : Nat) : Nat := day - daysBeforeMonth leap (monthOf leap day)

/-- No month is longer than 31 days; the last one ends with the year. -/
theorem daysBeforeMonth_succ_le : ∀ leap : Bool, ∀ month < 12,
    daysBeforeMonth leap (month + 1) ≤ daysBeforeMonth leap month + 31 := by decide

theorem dayOfMonth_lt (leap : Bool) (day : Nat) (h : day < if leap then 366 else 365) :
    dayOfMonth leap day < 31 := by
  have hmonth := monthOf_lt leap day
  have hnext : day < daysBeforeMonth leap (monthOf leap day + 1) := by
    by_cases hlast : monthOf leap day = 11
    · rw [hlast]
      cases leap <;> exact h
    · have hgreatest := Nat.findGreatest_is_greatest (P := fun month => daysBeforeMonth leap month ≤ day)
        (Nat.lt_succ_self (monthOf leap day)) (show monthOf leap day + 1 ≤ 11 by omega)
      exact Nat.lt_of_not_le hgreatest
  have hlong := daysBeforeMonth_succ_le leap (monthOf leap day) hmonth
  unfold dayOfMonth
  omega

/-- In one month, the days are ordered as their numbers in the month. -/
theorem dayOfMonth_lt_iff {leap : Bool} {m n : Nat} (h : monthOf leap m = monthOf leap n) :
    dayOfMonth leap m < dayOfMonth leap n ↔ m < n := by
  have hspec : ∀ day, daysBeforeMonth leap (monthOf leap day) ≤ day := by
    intro day
    have hzero : daysBeforeMonth leap 0 ≤ day := by cases leap <;> exact Nat.zero_le day
    exact Nat.findGreatest_spec (P := fun month => daysBeforeMonth leap month ≤ day)
      (Nat.zero_le 11) hzero
  have hm := hspec m
  have hn := hspec n
  rw [h] at hm
  unfold dayOfMonth
  rw [h]
  omega

/-! ## 3. RFC 3339 -/

/-- `hh:mm:ss.ffffffZ`, of a number of microseconds. -/
def clockText (micros : Nat) : List Char :=
  pad 2 (micros / 3600000000 % 24) ++ ':' ::
    (pad 2 (micros / 60000000 % 60) ++ ':' ::
      (pad 2 (micros / 1000000 % 60) ++ '.' :: (pad 6 (micros % 1000000) ++ ['Z'])))

/-- On one day, the clock is ordered as the microseconds. -/
theorem clockText_lt_iff {m n : Nat} (h : m / 86400000000 = n / 86400000000) :
    clockText m < clockText n ↔ m < n := by
  refine field_lt_iff (by omega) (by omega) (by omega) (by omega) fun hhour => ?_
  rw [cons_lt_cons_same]
  refine field_lt_iff (by omega) (by omega) (by omega) (by omega) fun hminute => ?_
  rw [cons_lt_cons_same]
  refine field_lt_iff (by omega) (by omega) (by omega) (by omega) fun hsecond => ?_
  rw [cons_lt_cons_same]
  refine field_lt_iff (by omega) (by omega) (by omega) (by omega) fun hmicro => ?_
  have hmn : m = n := by omega
  simp [hmn]

/-- `mm-ddThh:mm:ss.ffffffZ`, of the microseconds since 0000-01-01. -/
def dayText (micros : Nat) : List Char :=
  let day := micros / 86400000000
  let leap := isLeap (yearOf day)
  pad 2 (monthOf leap (dayOfYear day) + 1) ++ '-' ::
    (pad 2 (dayOfMonth leap (dayOfYear day) + 1) ++ 'T' :: clockText micros)

/-- In one year, the month, the day and the clock are ordered as the microseconds. -/
theorem dayText_lt_iff {m n : Nat}
    (h : yearOf (m / 86400000000) = yearOf (n / 86400000000)) : dayText m < dayText n ↔ m < n := by
  have hlt := dayOfYear_lt_iff h
  have hgt := dayOfYear_lt_iff h.symm
  have hm := dayOfYear_lt (m / 86400000000)
  have hn := dayOfYear_lt (n / 86400000000)
  unfold dayText
  simp only
  rw [h] at hm ⊢
  generalize isLeap (yearOf (n / 86400000000)) = leap at hm hn ⊢
  generalize dayOfYear (m / 86400000000) = d at hlt hgt hm ⊢
  generalize dayOfYear (n / 86400000000) = d' at hlt hgt hn ⊢
  have hbound : ∀ day, monthOf leap day + 1 < 10 ^ 2 := by
    intro day
    have := monthOf_lt leap day
    omega
  refine field_lt_iff (hbound d) (hbound d') ?_ ?_ fun hmonth => ?_
  · intro hlt'
    by_contra hge
    have := monthOf_mono leap (show d' ≤ d by omega)
    omega
  · intro hgt' hle
    have := monthOf_mono leap (show d ≤ d' by omega)
    omega
  rw [cons_lt_cons_same]
  have hmonth' : monthOf leap d = monthOf leap d' := by omega
  have hlt' := dayOfMonth_lt_iff hmonth'
  have hgt' := dayOfMonth_lt_iff hmonth'.symm
  have hd := dayOfMonth_lt leap d hm
  have hd' := dayOfMonth_lt leap d' hn
  refine field_lt_iff (by omega) (by omega) (by omega) (by omega) fun hdate => ?_
  rw [cons_lt_cons_same]
  exact clockText_lt_iff (by omega)

/-- `yyyy-mm-ddThh:mm:ss.ffffffZ`, of the microseconds since 0000-01-01. -/
def rfc3339 (micros : Nat) : List Char :=
  pad 4 (yearOf (micros / 86400000000)) ++ '-' :: dayText micros

/-- **The texts of the years 0000 to 9999 are ordered as the microseconds.** -/
theorem rfc3339_lt_iff {m n : Nat} (hm : m / 86400000000 < daysBeforeYear 10000)
    (hn : n / 86400000000 < daysBeforeYear 10000) : rfc3339 m < rfc3339 n ↔ m < n := by
  have hyear : ∀ day, day < daysBeforeYear 10000 → yearOf day < 10 ^ 4 := by
    intro day hday
    by_contra hge
    have hmono := daysBeforeYear_mono (show 10000 ≤ yearOf day by omega)
    have hlow := (yearOf_spec day).1
    omega
  refine field_lt_iff (hyear _ hm) (hyear _ hn) ?_ ?_ fun h => ?_
  · intro hlt
    by_contra hge
    have := yearOf_mono (Nat.div_le_div_right (c := 86400000000) (show n ≤ m by omega))
    omega
  · intro hgt hlt
    have := yearOf_mono (Nat.div_le_div_right (c := 86400000000) (Nat.le_of_lt hlt))
    omega
  rw [cons_lt_cons_same]
  exact dayText_lt_iff h

example : rfc3339 63876448727654321 = "2024-02-29T17:58:47.654321Z".toList := by rfl

end Kirje.Base
