import Mathlib.Logic.Unique
import Mathlib.Data.List.Induction

/-
  File:      Kirje/Base/Check.lean
  Subject:   Checked computations in `Except`, and what their success says.

  Every fallible function of the development is a chain of checks that stops at
  the first refusal.  The lemmas here turn "the chain returned `ok`" into the
  conjunction of what its checks demand, so that no later proof unfolds a chain.

  * `ensure_ok`, `bind_ok`, `orRefuse_ok`, `forM_ok`: the inversion rules.
  * `Reaches.invariant`: what one step keeps, every run keeps; `Reaches.of_moves`: the
    end of a list of moves.
-/

namespace Kirje.Base

variable {ε α β σ : Type}

/-! ## 1. Checks -/

/-- Refuse with `e` unless `c` holds. -/
def ensure (c : Prop) [Decidable c] (e : ε) : Except ε Unit :=
  if c then .ok () else .error e

/-- The value of an option, or the refusal `e`. -/
def orRefuse (o : Option α) (e : ε) : Except ε α :=
  match o with
  | some a => .ok a
  | none => .error e

@[simp] theorem ensure_ok {c : Prop} [Decidable c] {e : ε} {u : Unit} :
    ensure c e = .ok u ↔ c := by
  unfold ensure
  split <;> simp_all

@[simp] theorem orRefuse_ok {o : Option α} {e : ε} {a : α} :
    orRefuse o e = .ok a ↔ o = some a := by
  cases o <;> simp [orRefuse]

@[simp] theorem pure_ok {a b : α} : (pure a : Except ε α) = .ok b ↔ a = b := by
  simp [pure, Except.pure]

/-- **A chain succeeds exactly when its head does and the rest does on the head's value.** -/
@[simp] theorem bind_ok {x : Except ε α} {f : α → Except ε β} {b : β} :
    (x >>= f) = .ok b ↔ ∃ a, x = .ok a ∧ f a = .ok b := by
  cases x <;> simp [bind, Except.bind]

@[simp] theorem map_ok {x : Except ε α} {f : α → β} {b : β} :
    (f <$> x) = .ok b ↔ ∃ a, x = .ok a ∧ f a = b := by
  cases x <;> simp [Functor.map, Except.map]

@[simp] theorem exists_ok_unit {x : Except ε Unit} : (∃ u, x = .ok u) ↔ x = .ok () :=
  Unique.exists_iff

/-- A result that was computed to be there. -/
theorem exists_ok_of_isSome {α : Type} {x : Except ε α} (h : x.toOption.isSome) : ∃ a, x = .ok a := by
  cases x with
  | ok a => exact ⟨a, rfl⟩
  | error e => cases h

theorem toOption_eq_some {x : Except ε α} {a : α} : x.toOption = some a ↔ x = .ok a := by
  cases x with
  | ok b => exact ⟨fun h => congrArg Except.ok (Option.some.inj h), fun h => congrArg some (Except.ok.inj h)⟩
  | error e => exact ⟨fun h => (nomatch h), fun h => (nomatch h)⟩

@[simp] theorem guard_some {c : Prop} [Decidable c] {u : Unit} :
    (guard c : Option Unit) = some u ↔ c := by
  by_cases h : c <;> simp [guard, h]

/-- Run a check only where a condition holds. -/
def checkIf (c : Prop) [Decidable c] (x : Except ε Unit) : Except ε Unit :=
  if c then x else .ok ()

@[simp] theorem checkIf_ok {c : Prop} [Decidable c] {x : Except ε Unit} {u : Unit} :
    checkIf c x = .ok u ↔ (c → x = .ok ()) := by
  unfold checkIf
  split <;> simp_all

/-- Run a check on every element, in order. -/
def checkAll (f : α → Except ε Unit) : List α → Except ε Unit
  | [] => .ok ()
  | a :: as => do f a; checkAll f as

@[simp] theorem checkAll_ok {f : α → Except ε Unit} {l : List α} {u : Unit} :
    checkAll f l = .ok u ↔ ∀ a ∈ l, f a = .ok () := by
  induction l with
  | nil => simp [checkAll]
  | cons a l ih => simp [checkAll, ih]

/-- **What a checked map returns comes from an element.** -/
theorem mem_of_mapM {f : α → Except ε β} {l : List α} {l' : List β} (h : l.mapM f = .ok l') {b : β}
    (hb : b ∈ l') : ∃ a ∈ l, f a = .ok b := by
  induction l generalizing l' with
  | nil =>
      rw [List.mapM_nil, pure_ok] at h
      subst h
      cases hb
  | cons a l ih =>
      simp only [List.mapM_cons, bind_ok, pure_ok] at h
      obtain ⟨b', hb', bs, hbs, rfl⟩ := h
      rcases List.mem_cons.mp hb with rfl | hb
      · exact ⟨a, List.mem_cons_self, hb'⟩
      · obtain ⟨x, hx, hfx⟩ := ih hbs hb
        exact ⟨x, List.mem_cons_of_mem _ hx, hfx⟩

/-- A checked map keeps the length. -/
theorem length_of_mapM {f : α → Except ε β} {l : List α} {l' : List β} (h : l.mapM f = .ok l') :
    l'.length = l.length := by
  induction l generalizing l' with
  | nil =>
      rw [List.mapM_nil, pure_ok] at h
      rw [← h]
      rfl
  | cons a l ih =>
      simp only [List.mapM_cons, bind_ok, pure_ok] at h
      obtain ⟨b, -, bs, hbs, rfl⟩ := h
      rw [List.length_cons, List.length_cons, ih hbs]

/-- **What a checked map is applied to is mapped.** -/
theorem mapM_of_mem {f : α → Except ε β} {l : List α} {l' : List β} (h : l.mapM f = .ok l') {a : α}
    (ha : a ∈ l) : ∃ b ∈ l', f a = .ok b := by
  induction l generalizing l' with
  | nil => cases ha
  | cons a' l ih =>
      simp only [List.mapM_cons, bind_ok, pure_ok] at h
      obtain ⟨b', hb', bs, hbs, rfl⟩ := h
      cases ha with
      | head => exact ⟨b', List.mem_cons_self, hb'⟩
      | tail _ ha =>
          obtain ⟨b, hb, hfb⟩ := ih hbs ha
          exact ⟨b, List.mem_cons_of_mem _ hb, hfb⟩

/-- **A fold of checked steps is related as its steps are**, for a reflexive and transitive
    relation. -/
theorem foldlM_rel {f : σ → α → Except ε σ} {R : σ → σ → Prop} (hr : ∀ s, R s s)
    (ht : ∀ a b c, R a b → R b c → R a c) (hf : ∀ s a s', f s a = .ok s' → R s s') (l : List α)
    {s s' : σ} (h : l.foldlM f s = .ok s') : R s s' := by
  induction l generalizing s with
  | nil =>
      rw [List.foldlM_nil, pure_ok] at h
      exact h ▸ hr s
  | cons a l ih =>
      rw [List.foldlM_cons, bind_ok] at h
      obtain ⟨s₁, h₁, h₂⟩ := h
      exact ht _ _ _ (hf _ _ _ h₁) (ih h₂)

/-! ## 2. Runs -/

/-- The states that runs from an initial state get to. -/
inductive Reaches (init : σ → Prop) (step : σ → σ → Prop) : σ → Prop where
  | start {s : σ} : init s → Reaches init step s
  | next {s s' : σ} : Reaches init step s → step s s' → Reaches init step s'

/-- **What holds at the start and is kept by one step holds in every state reached.** -/
theorem Reaches.invariant {init : σ → Prop} {step : σ → σ → Prop} {P : σ → Prop}
    (h0 : ∀ s, init s → P s) (h1 : ∀ s s', P s → step s s' → P s') {s : σ}
    (h : Reaches init step s) : P s := by
  induction h with
  | start hs => exact h0 _ hs
  | next _ hs ih => exact h1 _ _ ih hs

/-- The end of a list of moves is reached. -/
theorem Reaches.of_moves {μ : Type} {init : σ → Prop} {step : σ → μ → σ} {P : σ → μ → Prop} {s : σ}
    (hs : init s) (moves : List μ)
    (h : ∀ n m, moves[n]? = some m → P ((moves.take n).foldl step s) m) :
    Reaches init (fun s s' => ∃ m, P s m ∧ step s m = s') (moves.foldl step s) := by
  induction moves using List.reverseRecOn with
  | nil => exact .start hs
  | append_singleton moves m ih =>
      have hprefix := ih fun n m' hn => by
        have hlt : n < moves.length := (List.getElem?_eq_some_iff.mp hn).1
        have := h n m' (by rw [List.getElem?_append_left hlt, hn])
        rwa [List.take_append_of_le_length (Nat.le_of_lt hlt)] at this
      refine hprefix.next ⟨m, ?_, by simp⟩
      simpa using h moves.length m (by simp)

end Kirje.Base
