import Mathlib.Logic.Function.Basic
import Kirje.Base.Replay
import Kirje.Base.Table

/-
  File:      Kirje/Base/Codes.lean
  Subject:   A table read as a map from keys to state codes, and a list of changes
             replayed on such a map.

  * `codeIn`: the code of the row under a key, or the code of a key without a row.
  * `replay_changes`: changes of different keys lead from one map to another when each
    finds its prior code and leaves its next one, and nothing else differs.
-/

namespace Kirje.Base

variable {α κ : Type} [DecidableEq κ]

/-! ## 1. Changes -/

/-- The code of one key goes from one value to another. -/
structure Change (κ : Type) where
  key : κ
  prior : Nat
  next : Nat
  deriving DecidableEq, Repr

/-- A change where its prior code is found; refused elsewhere. -/
def Change.apply (codes : κ → Nat) (c : Change κ) : Option (κ → Nat) :=
  if codes c.key = c.prior then some (Function.update codes c.key c.next) else none

/-- **Changes of different keys.** -/
theorem replay_changes {l : List (Change κ)} {codes codes' : κ → Nat}
    (hkeys : (l.map Change.key).Nodup) (hprior : ∀ c ∈ l, codes c.key = c.prior)
    (hnext : ∀ c ∈ l, codes' c.key = c.next)
    (hrest : ∀ k, k ∉ l.map Change.key → codes' k = codes k) :
    l.foldlM Change.apply codes = some codes' := by
  induction l generalizing codes with
  | nil =>
      refine replay_nil.mpr (funext fun k => ?_)
      exact (hrest k (by simp)).symm
  | cons c l ih =>
      rw [List.map_cons, List.nodup_cons] at hkeys
      refine replay_cons.mpr ⟨Function.update codes c.key c.next, ?_, ?_⟩
      · rw [Change.apply, if_pos (hprior c List.mem_cons_self)]
      · refine ih hkeys.2 (fun d hd => ?_) (fun d hd => hnext d (List.mem_cons_of_mem _ hd)) ?_
        · have hne : d.key ≠ c.key := fun heq => hkeys.1 (heq ▸ List.mem_map_of_mem hd)
          rw [Function.update_of_ne hne]
          exact hprior d (List.mem_cons_of_mem _ hd)
        · intro k hk
          by_cases hkc : k = c.key
          · rw [hkc, Function.update_self]
            exact hnext c List.mem_cons_self
          · rw [Function.update_of_ne hkc]
            exact hrest k (by simp [hk, hkc])

/-! ## 2. Tables as codes -/

/-- The code of the row under a key. -/
def codeIn (key : α → κ) (code : α → Nat) (absent : Nat) (rows : List α) (k : κ) : Nat :=
  ((rows.find? fun x => decide (key x = k)).map code).getD absent

section Codes

variable {key : α → κ} {code : α → Nat} {absent : Nat} {rows new : List α} {k : κ}

theorem codeIn_mem (h : (rows.map key).Nodup) {x : α} (hx : x ∈ rows) :
    codeIn key code absent rows (key x) = code x := by
  have hfind : rows.find? (fun y => decide (key y = key x)) = some x :=
    (find_key_iff h).mpr ⟨hx, rfl⟩
  simp [codeIn, hfind]

theorem codeIn_absent (h : ∀ x ∈ rows, key x ≠ k) : codeIn key code absent rows k = absent := by
  have hfind : rows.find? (fun x => decide (key x = k)) = none := by
    simpa using h
  simp [codeIn, hfind]

/-- New rows under other keys, or with the code of no row, change nothing. -/
theorem codeIn_append (h : ∀ x ∈ new, key x = k → code x = absent) :
    codeIn key code absent (rows ++ new) k = codeIn key code absent rows k := by
  unfold codeIn
  rw [List.find?_append]
  cases rows.find? fun x => decide (key x = k) with
  | some x => rfl
  | none =>
      cases hnew : new.find? fun x => decide (key x = k) with
      | none => simp
      | some x =>
          have hk := List.find?_some hnew
          simp [h x (List.mem_of_find?_eq_some hnew) (by simpa using hk)]

/-- An update that leaves the keys, and the code under one key, changes nothing there. -/
theorem codeIn_update {p : α → Bool} {f : α → α} (hf : ∀ x, key (f x) = key x)
    (h : ∀ x ∈ rows, p x = true → key x = k → code (f x) = code x) :
    codeIn key code absent (update p f rows) k = codeIn key code absent rows k := by
  unfold codeIn update
  induction rows with
  | nil => rfl
  | cons x rows ih =>
      have hkey : key (if p x = true then f x else x) = key x := by
        split
        · exact hf x
        · rfl
      by_cases hx : key x = k
      · have hcode : code (if p x = true then f x else x) = code x := by
          split
          · exact h x List.mem_cons_self ‹_› hx
          · rfl
        simp [hkey, hx, hcode]
      · have := ih fun y hy => h y (List.mem_cons_of_mem _ hy)
        simpa [List.find?_cons, hkey, hx] using this

/-- **The codes after an update of one row.** -/
theorem codeIn_update_one {p : α → Bool} {f : α → α} {r : α} (h : (rows.map key).Nodup)
    (hf : ∀ x, key (f x) = key x) (hr : rows.filter p = [r]) :
    codeIn key code absent (update p f rows) (key r) = code (f r) ∧
      ∀ k, k ≠ key r → codeIn key code absent (update p f rows) k =
        codeIn key code absent rows k := by
  constructor
  · have hkeys : ((update p f rows).map key).Nodup := by
      rw [map_update hf]
      exact h
    rw [← hf r]
    exact codeIn_mem hkeys ((mem_update_one hr).mpr (.inr rfl))
  · intro k hk
    refine codeIn_update hf fun x hx hp hxk => absurd hxk ?_
    have : x = r := by
      have hmem : x ∈ rows.filter p := List.mem_filter.mpr ⟨hx, hp⟩
      rwa [hr, List.mem_singleton] at hmem
    rw [this]
    exact hk.symm

end Codes

end Kirje.Base
