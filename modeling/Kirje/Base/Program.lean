import Kirje.Base.Check

/-
  File:      Kirje/Base/Program.lean
  Subject:   Programs that talk to a peer: they issue a command, wait for the
             reply, and go on with it.

  A program is run one command at a time by whoever schedules it, so that other
  parties may act between a command and its reply.  What every run of a program
  guarantees is said with `Program.Post`: a tracker sees each command with its
  reply, and the postcondition relates the final track to the value returned.

  * `Program.post_done`, `Program.post_issue`, `Program.post_bind`: the rules.
-/

namespace Kirje.Base

variable {C : Type} {R : C → Type} {α β σ : Type}

/-- A program over commands `C` with replies `R`. -/
inductive Program (C : Type) (R : C → Type) (α : Type) where
  | done (a : α)
  | issue (c : C) (k : R c → Program C R α)

namespace Program

/-- Run `p`, then the program its value selects. -/
def bind : Program C R α → (α → Program C R β) → Program C R β
  | .done a, f => f a
  | .issue c k, f => .issue c fun r => (k r).bind f

/-- Issue one command and return its reply. -/
def call (c : C) : Program C R (R c) := .issue c .done

/-- On every run of `p` from the track `s`, the final track and the value satisfy `post`. -/
def Post (track : σ → (c : C) → R c → σ) (post : σ → α → Prop) : Program C R α → σ → Prop
  | .done a, s => post s a
  | .issue c k, s => ∀ r, (k r).Post track post (track s c r)

variable {track : σ → (c : C) → R c → σ}

@[simp] theorem post_done {post : σ → α → Prop} {a : α} {s : σ} :
    (Program.done a : Program C R α).Post track post s ↔ post s a := Iff.rfl

@[simp] theorem post_issue {post : σ → α → Prop} {c : C} {k : R c → Program C R α} {s : σ} :
    (Program.issue c k).Post track post s ↔ ∀ r, (k r).Post track post (track s c r) := Iff.rfl

/-- **A sequence of programs is judged by the first one's final track and value.** -/
@[simp] theorem post_bind {post : σ → β → Prop} {p : Program C R α} {f : α → Program C R β} {s : σ} :
    (p.bind f).Post track post s ↔ p.Post track (fun s' a => (f a).Post track post s') s := by
  induction p generalizing s with
  | done a => exact Iff.rfl
  | issue c k ih => exact forall_congr' fun r => ih r

@[simp] theorem post_call {post : σ → (r : R c) → Prop} {s : σ} :
    (call c : Program C R (R c)).Post track post s ↔ ∀ r, post (track s c r) r := Iff.rfl

/-- A weaker postcondition is met whenever a stronger one is. -/
theorem Post.mono {post post' : σ → α → Prop} (h : ∀ s a, post s a → post' s a)
    {p : Program C R α} {s : σ} (hp : p.Post track post s) : p.Post track post' s := by
  induction p generalizing s with
  | done a => exact h s a hp
  | issue c k ih => exact fun r => ih r (hp r)

end Program

end Kirje.Base
