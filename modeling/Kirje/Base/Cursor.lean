import Mathlib.Data.List.Induction
import Kirje.Base.Bytes

/-
  File:      Kirje/Base/Cursor.lean
  Subject:   Reading a byte string with a cursor.

  A cursor at `front.length` of `front ++ rest` has read `front`.  The lemmas say what a
  read does there: it takes its bytes from the front of `rest`, and the cursor stands
  behind them.  A cursor never exceeds the length of the bytes, so it never overflows a
  machine word that the length fits.

  * `slice_append`, `readNumber_append`: the reads of some bytes and of a number.
  * `be_ofBe`: a number of a width is its bytes.
-/

namespace Kirje.Base

/-- `bytes.get(cursor..cursor + length)`, and the cursor behind it. -/
def slice (bytes : Bytes) (cursor length : Nat) : Option (Bytes × Nat) :=
  if cursor + length ≤ bytes.length then some ((bytes.drop cursor).take length, cursor + length)
  else none

/-- A big-endian number of a width. -/
def readNumber (bytes : Bytes) (cursor width : Nat) : Option (Nat × Nat) :=
  (slice bytes cursor width).map fun (value, cursor) => (ofBe value, cursor)

/-- **A read takes its bytes from what is left.** -/
theorem slice_append {front rest value : Bytes} {n cursor : Nat} :
    slice (front ++ rest) front.length n = some (value, cursor) ↔
      ∃ tail, rest = value ++ tail ∧ value.length = n ∧ cursor = (front ++ value).length := by
  unfold slice
  rw [List.length_append, List.drop_left]
  constructor
  · intro h
    split at h
    · rename_i hfit
      simp only [Option.some.injEq, Prod.mk.injEq] at h
      obtain ⟨rfl, rfl⟩ := h
      have hlen : (rest.take n).length = n := by
        rw [List.length_take]
        omega
      exact ⟨rest.drop n, (List.take_append_drop n rest).symm, hlen, by rw [List.length_append, hlen]⟩
    · cases h
  · rintro ⟨tail, rfl, rfl, rfl⟩
    rw [if_pos (by rw [List.length_append]; omega), List.take_left, List.length_append]

theorem ofBe_lt (bs : Bytes) : ofBe bs < 256 ^ bs.length := by
  induction bs using List.reverseRecOn with
  | nil => exact Nat.one_pos
  | append_singleton bs b ih =>
      have hb := b.toNat_lt
      rw [ofBe_append_singleton, List.length_append, List.length_singleton, Nat.pow_succ]
      omega

/-- **A number of a width is its bytes.** -/
theorem be_ofBe (bs : Bytes) : be bs.length (ofBe bs) = bs := by
  induction bs using List.reverseRecOn with
  | nil => rfl
  | append_singleton bs b ih =>
      have hb := b.toNat_lt
      have hdiv : (ofBe bs * 256 + b.toNat) / 256 = ofBe bs := by omega
      have hmod : (ofBe bs * 256 + b.toNat) % 256 = b.toNat := by omega
      rw [ofBe_append_singleton, List.length_append, List.length_singleton, be, hdiv, hmod, ih,
        UInt8.ofNat_toNat]

theorem be_ofBe_of_length {bs : Bytes} {n : Nat} (h : bs.length = n) : be n (ofBe bs) = bs := by
  rw [← h]
  exact be_ofBe bs

theorem ofBeI64_bounds {bs : Bytes} (h : bs.length = 8) :
    -2 ^ 63 ≤ ofBeI64 bs ∧ ofBeI64 bs < 2 ^ 63 := by
  have hlt := ofBe_lt bs
  rw [h] at hlt
  unfold ofBeI64
  split <;> omega

/-- Eight bytes are the signed number they hold. -/
theorem beI64_ofBeI64 {bs : Bytes} (h : bs.length = 8) : beI64 (ofBeI64 bs) = bs := by
  have hlt := ofBe_lt bs
  rw [h] at hlt
  have hvalue : (ofBeI64 bs % 2 ^ 64).toNat = ofBe bs := by
    unfold ofBeI64
    split <;> omega
  rw [beI64, hvalue, be_ofBe_of_length h]

/-- **A number is read from its bytes.** -/
theorem readNumber_append {front rest : Bytes} {width n cursor : Nat} :
    readNumber (front ++ rest) front.length width = some (n, cursor) ↔
      ∃ tail, rest = be width n ++ tail ∧ n < 256 ^ width ∧ cursor = (front ++ be width n).length := by
  simp only [readNumber, Option.map_eq_some_iff, Prod.exists, slice_append, Prod.mk.injEq]
  constructor
  · rintro ⟨value, _, ⟨tail, rfl, hlen, rfl⟩, rfl, rfl⟩
    refine ⟨tail, by rw [be_ofBe_of_length hlen], hlen ▸ ofBe_lt value, by rw [be_ofBe_of_length hlen]⟩
  · rintro ⟨tail, rfl, hlt, rfl⟩
    exact ⟨be width n, _, ⟨tail, rfl, length_be _ _, rfl⟩, ofBe_be hlt, rfl⟩

end Kirje.Base
