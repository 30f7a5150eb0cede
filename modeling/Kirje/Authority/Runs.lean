import Kirje.Authority.Clock

/-
  File:      Kirje/Authority/Runs.lean
  Subject:   How an invariant of the registry is proved over runs.

  A run changes the tables by steps of accepted databases only; what a repeated
  bootstrap or a confirmation writes is the first row and the log.

  * `Run.invariant`: **what holds at the start, and after every step of an accepted
    database, holds after every run.**
-/

namespace Kirje.Authority

open Base

variable {env : Platform} {codec : ManifestCodec} {s : Snapshot} {start db db' : Db}

/-- The tables without the realm's row and the log. -/
structure SameTables (db db' : Db) : Prop where
  challenges : db'.challenges = db.challenges := by rfl
  receipts : db'.receipts = db.receipts := by rfl
  registry : SameRegistry db db' := by exact ⟨rfl, rfl, rfl, rfl, rfl, rfl, rfl, rfl⟩

theorem SameTables.refl (db : Db) : SameTables db db := {}

/-- **Every operation leaves the tables alone, or takes steps on an accepted database.** -/
theorem Operates.cases (h : Operates env codec db db') :
    SameTables db db' ∨ ∃ s, Accepted env codec s db ∧ Steps env codec s db db' := by
  cases h with
  | call s call =>
      rcases @runCall_steps env codec s db call with h | h
      · rw [h]
        exact Or.inl (SameTables.refl db)
      · exact Or.inr ⟨s, h⟩
  | prepare host handle input h =>
      rcases prepareBootstrap_authority h with rfl | ⟨x, h⟩
      · exact Or.inl (SameTables.refl _)
      · simp only [retryExistingBootstrap, observeExistingBootstrap, bind_ok, ensure_ok, written_ok,
          pure_ok, Prod.mk.injEq] at h
        obtain ⟨loaded, -, _, -, _, ⟨at', -, -, rfl⟩, rfl, -⟩ := h
        exact Or.inl {}
  | confirm secured handle anchor observed h =>
      rcases confirmAnchor_authority h with rfl | ⟨opened, x, h⟩
      · exact Or.inl (SameTables.refl _)
      · simp only [confirmDb, bind_ok, ensure_ok, written_ok, insertTypedEvent_ok, pure_ok,
          Prod.mk.injEq] at h
        obtain ⟨loaded, -, _, -, at', -, _, ⟨-, rfl⟩, _, ⟨-, rfl⟩, rfl, -⟩ := h
        exact Or.inl {}

/-- **An invariant of the tables, over a run.** -/
theorem Run.invariant {P : Db → Prop}
    (hsame : ∀ {db db' : Db}, SameTables db db' → P db → P db')
    (hstep : ∀ {s : Snapshot} {db db' : Db}, Accepted env codec s db → Step env codec s db db' →
      P db → P db')
    (h : Run env codec start db) (h0 : P start) : P db := by
  induction h with
  | refl => exact h0
  | tail _ hop ih =>
      rcases hop.cases with hs | ⟨s, ha, hsteps⟩
      · exact hsame hs ih
      · cases hsteps with
        | one h => exact hstep ha h ih
        | two h ha₁ h' => exact hstep ha₁ h' (hstep ha h ih)

end Kirje.Authority
