import Mathlib.Logic.Function.Basic
import Kirje.Base.Program

/-
  File:      Kirje/Base/Rely.lean
  Subject:   Programs under interference: any number of calls over one shared state.

  The commands of a call are executed one at a time, and between two of them the other
  calls may act.  A call relies on `rely` for what they do; each of its own commands has
  to be a step that the others rely on, and to keep the invariant.  A call may be cut off
  between any two commands.

  * `Does.done`, `Does.issue`, `Does.bind`: the rules for one call.
  * **`Pool.sound`**: if each call meets its own rules, every interleaving of calls keeps
    the invariant, and each call that returned has its postcondition.
  * `Pool.attributed`: what a command logs belongs to the call that issued it.
-/

namespace Kirje.Base

variable {C : Type} {R : C → Type} {S J α β : Type}

/-- A shared state: what a command of a call does to it, what is left of a call that is over, what
    a call relies on, and what always holds. -/
structure Sharing (C : Type) (R : C → Type) (S J : Type) where
  exec : Nat → J → S → (c : C) → R c → S → Prop
  leave : Nat → S → S
  rely : Nat → S → S → Prop
  inv : S → Prop

namespace Sharing

variable (X : Sharing C R S J)

/-- `rely` says nothing about how often the others act, and they rely on what is left behind. -/
structure Lawful : Prop where
  refl : ∀ n s, X.rely n s s
  trans : ∀ n s s' s'', X.rely n s s' → X.rely n s' s'' → X.rely n s s''
  leave : ∀ n m s, m ≠ n → X.rely m s (X.leave n s)
  inv_leave : ∀ n s, X.inv s → X.inv (X.leave n s)

/-- A step of call `n` that the other calls expect. -/
structure Allowed (n : Nat) (s s' : S) : Prop where
  rely : ∀ m, m ≠ n → X.rely m s s'
  inv : X.inv s'

/-- What the others cannot take away from call `n`. -/
def Stable (n : Nat) (P : S → Prop) : Prop := ∀ s s', P s → X.rely n s s' → P s'

/-- From `s` on, every step of the call is allowed, and it ends in `post`. -/
def Holds (n : Nat) (j : J) (post : S → α → Prop) : Program C R α → S → Prop
  | .done a, s => ∀ s', X.rely n s s' → X.inv s' → post s' a
  | .issue c k, s => ∀ s', X.rely n s s' → X.inv s' → ∀ r s'', X.exec n j s' c r s'' →
      X.Allowed n s' s'' ∧ Holds n j post (k r) s''

/-- **The judgement of a call**: from every state of `pre` it ends in `post`. -/
def Does (n : Nat) (j : J) (pre : S → Prop) (p : Program C R α) (post : S → α → Prop) : Prop :=
  ∀ s, pre s → X.Holds n j post p s

end Sharing

open Sharing

variable {X : Sharing C R S J} {n : Nat} {j : J}

/-! ## 1. Rules -/

/-- A call may start later. -/
theorem Sharing.Lawful.holds_of_later (hX : X.Lawful) {post : S → α → Prop} {p : Program C R α} {s : S}
    (h : ∀ s', X.rely n s s' → X.inv s' → X.Holds n j post p s') : X.Holds n j post p s := by
  cases p with
  | done a => exact fun s' hr hi => h s' hr hi s' (hX.refl n s') hi
  | issue c k => exact fun s' hr hi => h s' hr hi s' (hX.refl n s') hi

theorem Sharing.Does.done {pre : S → Prop} {post : S → α → Prop} {a : α}
    (hstable : X.Stable n fun s => post s a) (h : ∀ s, pre s → post s a) :
    X.Does n j pre (.done a : Program C R α) post :=
  fun s hs s' hr _ => hstable s s' (h s hs) hr

theorem Sharing.Does.issue {pre : S → Prop} {post : S → α → Prop} {c : C} {k : R c → Program C R α}
    (mid : R c → S → Prop) (hstable : X.Stable n pre)
    (hstep : ∀ s r s', pre s → X.inv s → X.exec n j s c r s' → X.Allowed n s s' ∧ mid r s')
    (hk : ∀ r, X.Does n j (mid r) (k r) post) : X.Does n j pre (.issue c k) post := by
  intro s hs s' hr hi r s'' he
  obtain ⟨hallowed, hmid⟩ := hstep s' r s'' (hstable s s' hs hr) hi he
  exact ⟨hallowed, hk r s'' hmid⟩

theorem Sharing.Does.bind (hX : X.Lawful) {pre : S → Prop} {mid : S → α → Prop} {post : S → β → Prop}
    {p : Program C R α} {f : α → Program C R β} (hp : X.Does n j pre p mid)
    (hf : ∀ a, X.Does n j (fun s => mid s a) (f a) post) : X.Does n j pre (p.bind f) post := by
  intro s hs
  have hholds := hp s hs
  clear hs hp
  induction p generalizing s with
  | done a => exact hX.holds_of_later fun s' hr hi => hf a s' (hholds s' hr hi)
  | issue c k ih =>
      intro s' hr hi r s'' he
      obtain ⟨hallowed, hrest⟩ := hholds s' hr hi r s'' he
      exact ⟨hallowed, ih r s'' hrest⟩

theorem Sharing.Does.mono {pre pre' : S → Prop} {post post' : S → α → Prop} {p : Program C R α}
    (h : X.Does n j pre p post) (hpre : ∀ s, pre' s → pre s) (hpost : ∀ s a, post s a → post' s a) :
    X.Does n j pre' p post' := by
  intro s hs
  have hholds := h s (hpre s hs)
  clear hs h
  induction p generalizing s with
  | done a => exact fun s' hr hi => hpost s' a (hholds s' hr hi)
  | issue c k ih =>
      intro s' hr hi r s'' he
      obtain ⟨hallowed, hrest⟩ := hholds s' hr hi r s'' he
      exact ⟨hallowed, ih r s'' hrest⟩

/-! ## 2. Calls side by side -/

/-- Where a call is. -/
inductive Task (C : Type) (R : C → Type) (J α : Type) where
  | waiting
  | running (j : J) (p : Program C R α)
  | returned (j : J) (a : α)
  | stopped (j : J)

/-- The shared state and every call. -/
structure Pool (C : Type) (R : C → Type) (S J α : Type) where
  shared : S
  task : Nat → Task C R J α

/-- What a call was started with. -/
def Task.job : Task C R J α → Option J
  | .waiting => none
  | .running j _ | .returned j _ | .stopped j => some j

/-- One step of one call: it starts, executes a command, returns, or is cut off. -/
inductive Pool.Step (X : Sharing C R S J) (body : J → Program C R α) :
    Pool C R S J α → Pool C R S J α → Prop where
  | start (d) (n : Nat) (j : J) (h : d.task n = .waiting) :
      Step X body d ⟨d.shared, Function.update d.task n (.running j (body j))⟩
  | act (d) (n : Nat) (j : J) (c : C) (k : R c → Program C R α) (h : d.task n = .running j (.issue c k))
      (r : R c) (s : S) (hexec : X.exec n j d.shared c r s) :
      Step X body d ⟨s, Function.update d.task n (.running j (k r))⟩
  | finish (d) (n : Nat) (j : J) (a : α) (h : d.task n = .running j (.done a)) :
      Step X body d ⟨X.leave n d.shared, Function.update d.task n (.returned j a)⟩
  | crash (d) (n : Nat) (j : J) (p : Program C R α) (h : d.task n = .running j p) :
      Step X body d ⟨X.leave n d.shared, Function.update d.task n (.stopped j)⟩

/-- What the state owes to a call. -/
def Task.Meets (X : Sharing C R S J) (pre : Nat → S → Prop) (post : Nat → J → S → α → Prop) (s : S)
    (n : Nat) : Task C R J α → Prop
  | .waiting => pre n s
  | .running j p => X.Holds n j (post n j) p s
  | .returned j a => post n j s a
  | .stopped _ => True

/-- The specification of the calls: each starts from `pre` and ends in `post`, both stable. -/
structure Specified (X : Sharing C R S J) (body : J → Program C R α) (pre : Nat → S → Prop)
    (post : Nat → J → S → α → Prop) : Prop where
  pre_stable : ∀ n, X.Stable n (pre n)
  post_stable : ∀ n j a, X.Stable n fun s => post n j s a
  post_leave : ∀ n j a s, post n j s a → post n j (X.leave n s) a
  body : ∀ n j, X.Does n j (pre n) (body j) (post n j)

section Sound

variable {body : J → Program C R α} {pre : Nat → S → Prop} {post : Nat → J → S → α → Prop}

/-- A call that does not act still meets what it met. -/
theorem Task.Meets.rely (hX : X.Lawful) (hS : Specified X body pre post) {s s' : S} {n : Nat}
    {t : Task C R J α} (h : t.Meets X pre post s n) (hr : X.rely n s s') : t.Meets X pre post s' n := by
  cases t with
  | waiting => exact hS.pre_stable n s s' h hr
  | running j p =>
      cases p with
      | done a => exact fun s'' hr' hi => h s'' (hX.trans n s s' s'' hr hr') hi
      | issue c k => exact fun s'' hr' hi => h s'' (hX.trans n s s' s'' hr hr') hi
  | returned j a => exact hS.post_stable n j a s s' h hr
  | stopped j => trivial

/-- Call `n` acts, the others do not. -/
theorem Pool.meets_update (hX : X.Lawful) (hS : Specified X body pre post) {d : Pool C R S J α} {s : S}
    (hd : ∀ m, (d.task m).Meets X pre post d.shared m) {n : Nat} {t : Task C R J α}
    (ht : t.Meets X pre post s n) (hr : ∀ m, m ≠ n → X.rely m d.shared s) (m : Nat) :
    (Function.update d.task n t m).Meets X pre post s m := by
  by_cases hm : m = n
  · subst hm
    rwa [Function.update_self]
  · rw [Function.update_of_ne hm]
    exact (hd m).rely hX hS (hr m hm)

/-- **Every interleaving keeps the invariant, and each call does what it does alone.** -/
theorem Pool.sound (hX : X.Lawful) (hS : Specified X body pre post) {init : Pool C R S J α → Prop}
    (hinit : ∀ d, init d → X.inv d.shared ∧ ∀ n, d.task n = .waiting ∧ pre n d.shared)
    {d : Pool C R S J α} (h : Reaches init (Pool.Step X body) d) :
    X.inv d.shared ∧ ∀ n, (d.task n).Meets X pre post d.shared n := by
  refine h.invariant (P := fun d => X.inv d.shared ∧ ∀ n, (d.task n).Meets X pre post d.shared n)
    (fun d hd => ?_) fun d d' hd hstep => ?_
  · obtain ⟨hinv, hwaiting⟩ := hinit d hd
    refine ⟨hinv, fun n => ?_⟩
    rw [(hwaiting n).1]
    exact (hwaiting n).2
  · obtain ⟨hinv, hmeets⟩ := hd
    cases hstep with
    | start n j ht =>
        have hpre := hmeets n
        rw [ht] at hpre
        exact ⟨hinv, Pool.meets_update hX hS hmeets (hS.body n j _ hpre) fun m _ => hX.refl m _⟩
    | act n j c k ht r s hexec =>
        have hrun := hmeets n
        rw [ht] at hrun
        obtain ⟨hallowed, hrest⟩ := hrun d.shared (hX.refl n _) hinv r s hexec
        exact ⟨hallowed.inv, Pool.meets_update hX hS hmeets hrest hallowed.rely⟩
    | finish n j a ht =>
        have hrun := hmeets n
        rw [ht] at hrun
        have hpost := hrun d.shared (hX.refl n _) hinv
        exact ⟨hX.inv_leave n _ hinv, Pool.meets_update hX hS hmeets (hS.post_leave n j a _ hpost)
          fun m hm => hX.leave n m _ hm⟩
    | crash n j p ht =>
        exact ⟨hX.inv_leave n _ hinv,
          Pool.meets_update hX hS hmeets (t := .stopped j) trivial fun m hm => hX.leave n m _ hm⟩

end Sound

/-- **Whatever is logged was done by the call it names.** -/
theorem Pool.attributed {E : Type} {body : J → Program C R α} (log : S → List E) (who : E → Nat × J)
    (hexec : ∀ n j s c r s', X.exec n j s c r s' → ∀ e ∈ log s', e ∈ log s ∨ who e = (n, j))
    (hleave : ∀ n s, ∀ e ∈ log (X.leave n s), e ∈ log s) {init : Pool C R S J α → Prop}
    (hinit : ∀ d, init d → log d.shared = []) {d : Pool C R S J α}
    (h : Reaches init (Pool.Step X body) d) :
    ∀ e ∈ log d.shared, (d.task (who e).1).job = some (who e).2 := by
  refine h.invariant (P := fun d => ∀ e ∈ log d.shared, (d.task (who e).1).job = some (who e).2)
    (fun d hd e he => ?_) fun d d' hd hstep => ?_
  · rw [hinit d hd] at he
    cases he
  · -- A step changes one task, and leaves it the job it has.
    have hkeep : ∀ n (t : Task C R J α), (∀ j, (d.task n).job = some j → t.job = some j) →
        ∀ e ∈ log d.shared, (Function.update d.task n t (who e).1).job = some (who e).2 := by
      intro n t ht e he
      by_cases hn : (who e).1 = n
      · rw [hn, Function.update_self]
        exact ht _ (hn ▸ hd e he)
      · rw [Function.update_of_ne hn]
        exact hd e he
    cases hstep with
    | start n j ht => exact hkeep n _ fun _ hj => by rw [ht] at hj; cases hj
    | act n j c k ht r s hx =>
        intro e he
        rcases hexec n j _ c r s hx e he with hold | hnew
        · exact hkeep n _ (fun _ hj => by rw [ht] at hj; exact hj) e hold
        · rw [hnew]
          exact congrArg Task.job (Function.update_self n (.running j (k r)) d.task)
    | finish n j a ht =>
        exact fun e he => hkeep n _ (fun _ hj => by rw [ht] at hj; exact hj) e (hleave n _ e he)
    | crash n j p ht =>
        exact fun e he => hkeep n _ (fun _ hj => by rw [ht] at hj; exact hj) e (hleave n _ e he)

end Kirje.Base
