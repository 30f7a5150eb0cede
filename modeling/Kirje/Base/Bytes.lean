import Mathlib.Data.List.Basic
import Mathlib.Tactic.Ring
import Mathlib.Tactic.NormNum

/-
  File:      Kirje/Base/Bytes.lean
  Subject:   Byte strings, fixed-width big-endian numbers and tagged
             length-prefixed items.

  An item is `tag (2 bytes) ++ length (4 bytes) ++ value`.  The readers consume a
  prefix and return the rest, so that reading composes with `++`.

  * `ofBe_be`, `ofBeI64_beI64`: what is written at a width reads back.
  * `readItem_item`, `readItems_items`: items read back, whatever follows them.
-/

namespace Kirje.Base

abbrev Bytes := List UInt8

/-! ## 1. Numbers -/

/-- `v` as `n` big-endian bytes. -/
def be : Nat → Nat → Bytes
  | 0, _ => []
  | n + 1, v => be n (v / 256) ++ [UInt8.ofNat (v % 256)]

/-- The number a big-endian byte string holds. -/
def ofBe (bs : Bytes) : Nat := bs.foldl (fun a b => a * 256 + b.toNat) 0

/-- A signed number as eight big-endian bytes, in two's complement. -/
def beI64 (v : Int) : Bytes := be 8 (v % 2 ^ 64).toNat

/-- The signed number eight big-endian bytes hold. -/
def ofBeI64 (bs : Bytes) : Int :=
  if ofBe bs < 2 ^ 63 then ofBe bs else (ofBe bs : Int) - 2 ^ 64

@[simp] theorem length_be (n v : Nat) : (be n v).length = n := by
  induction n generalizing v with
  | zero => rfl
  | succ n ih => simp [be, ih]

@[simp] theorem length_beI64 (v : Int) : (beI64 v).length = 8 := length_be _ _

theorem ofBe_append_singleton (bs : Bytes) (b : UInt8) :
    ofBe (bs ++ [b]) = ofBe bs * 256 + b.toNat := by
  simp [ofBe]

theorem ofBe_be_mod (n v : Nat) : ofBe (be n v) = v % 256 ^ n := by
  induction n generalizing v with
  | zero => simp [be, ofBe, Nat.mod_one]
  | succ n ih =>
      rw [be, ofBe_append_singleton, ih]
      have h256 : (UInt8.ofNat (v % 256)).toNat = v % 256 := by
        simp
      rw [h256, Nat.pow_succ, Nat.mul_comm (256 ^ n) 256, Nat.mod_mul]
      ring

/-- **A number that fits the width reads back.** -/
theorem ofBe_be {n v : Nat} (h : v < 256 ^ n) : ofBe (be n v) = v := by
  rw [ofBe_be_mod, Nat.mod_eq_of_lt h]

theorem be_injective {n v w : Nat} (hv : v < 256 ^ n) (hw : w < 256 ^ n)
    (h : be n v = be n w) : v = w := by
  have := congrArg ofBe h
  rwa [ofBe_be hv, ofBe_be hw] at this

/-- **A signed 64-bit number reads back.** -/
theorem ofBeI64_beI64 {v : Int} (hl : -2 ^ 63 ≤ v) (hu : v < 2 ^ 63) :
    ofBeI64 (beI64 v) = v := by
  have hn : 0 ≤ v % 2 ^ 64 := Int.emod_nonneg _ (by norm_num)
  have hlt : v % 2 ^ 64 < 2 ^ 64 := Int.emod_lt_of_pos _ (by norm_num)
  have hfit : (v % 2 ^ 64).toNat < 256 ^ 8 := by omega
  unfold ofBeI64 beI64
  rw [ofBe_be hfit]
  split <;> omega

/-! ## 2. Items -/

/-- One tagged, length-prefixed value. -/
def item (tag : Nat) (value : Bytes) : Bytes := be 2 tag ++ be 4 value.length ++ value

/-- Split off `n` bytes. -/
def split (n : Nat) (bs : Bytes) : Option (Bytes × Bytes) :=
  if n ≤ bs.length then some (bs.take n, bs.drop n) else none

/-- Read one item; the rest follows. -/
def readItem (bs : Bytes) : Option ((Nat × Bytes) × Bytes) := do
  let (tag, bs) ← split 2 bs
  let (length, bs) ← split 4 bs
  let (value, bs) ← split (ofBe length) bs
  some ((ofBe tag, value), bs)

/-- Read `n` items. -/
def readItems : Nat → Bytes → Option (List (Nat × Bytes) × Bytes)
  | 0, bs => some ([], bs)
  | n + 1, bs => do
      let (x, bs) ← readItem bs
      let (xs, bs) ← readItems n bs
      some (x :: xs, bs)

/-- The items of a list of tagged values. -/
def items (fields : List (Nat × Bytes)) : Bytes := fields.flatMap fun f => item f.1 f.2

/-- A tagged value that fits its frame. -/
def Fits (f : Nat × Bytes) : Prop := f.1 < 2 ^ 16 ∧ f.2.length < 2 ^ 32

@[simp] theorem split_append (a b : Bytes) : split a.length (a ++ b) = some (a, b) := by
  simp [split]

theorem split_append_of_length {n : Nat} {a b : Bytes} (h : a.length = n) :
    split n (a ++ b) = some (a, b) := by
  rw [← h]
  exact split_append a b

theorem length_item (tag : Nat) (value : Bytes) : (item tag value).length = 6 + value.length := by
  simp only [item, List.length_append, length_be]

/-- **An item reads back, whatever follows it.** -/
theorem readItem_item {tag : Nat} {value : Bytes} (h : Fits (tag, value)) (rest : Bytes) :
    readItem (item tag value ++ rest) = some ((tag, value), rest) := by
  have htag : ofBe (be 2 tag) = tag := ofBe_be (by simpa [Fits] using h.1)
  have hlen : ofBe (be 4 value.length) = value.length := ofBe_be (by simpa [Fits] using h.2)
  simp only [readItem, item, List.append_assoc, split_append_of_length (length_be _ _),
    Option.bind_eq_bind, Option.bind_some, hlen, split_append, htag]

/-- **A list of items reads back, whatever follows it.** -/
theorem readItems_items {fields : List (Nat × Bytes)} (h : ∀ f ∈ fields, Fits f) (rest : Bytes) :
    readItems fields.length (items fields ++ rest) = some (fields, rest) := by
  induction fields with
  | nil => rfl
  | cons f fields ih =>
      have hf : Fits (f.1, f.2) := h f List.mem_cons_self
      have ht := ih fun g hg => h g (List.mem_cons_of_mem _ hg)
      simp only [items, List.flatMap_cons, List.append_assoc, List.length_cons, readItems,
        readItem_item hf, Option.bind_eq_bind, Option.bind_some] at ht ⊢
      rw [ht]
      rfl

end Kirje.Base
