import Mathlib.Data.List.Basic

/-
  File:      Kirje/Base/Replay.lean
  Subject:   Replaying a list of events: a fold whose steps may refuse.

  * `replay_append`, `replay_concat`, `replay_split`: a replay of a list in parts.
  * `replay_invariant`: what the steps keep, the replay keeps.
  * `replay_congr`: two replays whose steps agree as far as the first succeeds.
-/

namespace Kirje.Base

variable {σ α : Type} {f g : σ → α → Option σ}

theorem replay_append {l₁ l₂ : List α} {s s' : σ} :
    (l₁ ++ l₂).foldlM f s = some s' ↔
      ∃ m, l₁.foldlM f s = some m ∧ l₂.foldlM f m = some s' := by
  rw [List.foldlM_append, Option.bind_eq_bind, Option.bind_eq_some_iff]

theorem replay_cons {a : α} {l : List α} {s s' : σ} :
    (a :: l).foldlM f s = some s' ↔ ∃ m, f s a = some m ∧ l.foldlM f m = some s' := by
  rw [List.foldlM_cons, Option.bind_eq_bind, Option.bind_eq_some_iff]

theorem replay_nil {s s' : σ} : ([] : List α).foldlM f s = some s' ↔ s = s' := by
  simp

theorem replay_concat {a : α} {l : List α} {s s' : σ} :
    (l ++ [a]).foldlM f s = some s' ↔ ∃ m, l.foldlM f s = some m ∧ f m a = some s' := by
  simp only [replay_append, replay_cons, replay_nil, exists_eq_right]

/-- **Any event of a replay was a step of it.** -/
theorem replay_split {a : α} {l : List α} {s s' : σ} (ha : a ∈ l) (h : l.foldlM f s = some s') :
    ∃ l₁ l₂ m m', l = l₁ ++ a :: l₂ ∧ l₁.foldlM f s = some m ∧ f m a = some m' ∧
      l₂.foldlM f m' = some s' := by
  obtain ⟨l₁, l₂, rfl⟩ := List.append_of_mem ha
  obtain ⟨m, h₁, h₂⟩ := replay_append.mp h
  obtain ⟨m', h₂, h₃⟩ := replay_cons.mp h₂
  exact ⟨l₁, l₂, m, m', rfl, h₁, h₂, h₃⟩

/-- **What each step keeps, the replay keeps.** -/
theorem replay_invariant {P : σ → Prop} (hf : ∀ s a s', P s → f s a = some s' → P s') {l : List α}
    {s s' : σ} (hs : P s) (h : l.foldlM f s = some s') : P s' := by
  induction l generalizing s with
  | nil => exact replay_nil.mp h ▸ hs
  | cons a l ih =>
      obtain ⟨m, h₁, h₂⟩ := replay_cons.mp h
      exact ih (hf _ _ _ hs h₁) h₂

/-- **Two replays agree where their steps do.**  A state that `Bad` holds of stays bad, so a
    replay that ends well has gone through good states only, and only there must the steps agree. -/
theorem replay_congr {Bad : σ → Prop} (hbad : ∀ s a s', Bad s → f s a = some s' → Bad s')
    {l : List α}
    (hfg : ∀ a ∈ l, ∀ s s', f s a = some s' → ¬Bad s' → g s a = some s')
    {s s' : σ} (h : l.foldlM f s = some s') (hgood : ¬Bad s') : l.foldlM g s = some s' := by
  induction l generalizing s with
  | nil => exact replay_nil.mpr (replay_nil.mp h)
  | cons a l ih =>
      obtain ⟨m, h₁, h₂⟩ := replay_cons.mp h
      have hm : ¬Bad m := fun hb => hgood (replay_invariant hbad hb h₂)
      exact replay_cons.mpr ⟨m, hfg a List.mem_cons_self _ _ h₁ hm,
        ih (fun b hb => hfg b (List.mem_cons_of_mem _ hb)) h₂⟩

end Kirje.Base
