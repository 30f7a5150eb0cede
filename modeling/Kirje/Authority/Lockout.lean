import Kirje.Authority.Settling
import Kirje.Authority.Steps

/-
  File:      Kirje/Authority/Lockout.lean
  Subject:   The calls after which the store does not open any more.

  Nothing checks the database again before a commit, so a call may leave one that the
  next call refuses.  An abort does, unless it comes right after the preparation: the
  validator demands the two next to each other in the log of the whole realm.

  * `observation_keeps_acceptance_iff`: **every observation but a late abort keeps
    acceptance.**
-/

namespace Kirje.Authority

open Base

variable {env : Platform} {codec : ManifestCodec} {s : Snapshot} {db db' : Db}

/-! ## 1. Observations -/

/-- **A late abort**: the log has gone on since the preparation. -/
def AbortsLate (operation : ObservationOperation) (r : ObservationRequest) (db : Db) : Prop :=
  ∃ t ∈ db.transitions, t.transitionId = r.transitionId ∧ Aborts operation t r ∧ ¬PreparedLast db t

instance (operation : ObservationOperation) (t : Transition) (r : ObservationRequest) :
    Decidable (Aborts operation t r) := inferInstanceAs (Decidable (_ ∧ _))

/-- A move keeps acceptance unless it is a late abort. -/
theorem Moves.accepted_iff {t : Transition} {operation : ObservationOperation}
    {r : ObservationRequest} {at' : Int} (ha : Accepted env codec s db)
    (h : Moves env codec s db t operation r at' db') (htime : TimeOk db at') :
    Accepted env codec s db' ↔ ¬(Aborts operation t r ∧ ¬PreparedLast db t) := by
  cases h with
  | unchanged hno hs => exact iff_of_true (ha.clocked htime hs) fun hab => hno hab.1
  | committed hno ho hst hs =>
      exact iff_of_true (ho.committed_accepted hst hs) fun hab => hno hab.1
  | finalized hno ho hst hs =>
      rw [transitionFinalized_eq] at hs ⊢
      exact iff_of_true (ho.finalized_accepted hst hs) fun hab => hno hab.1
  | aborted habort ho hacc hs =>
      obtain ⟨a', hr⟩ := ho.restores hacc
      rw [ho.aborted_accepted_iff habort.2.1 hr hs]
      exact ⟨fun hl hab => hab.2 hl, fun hn => not_not.mp fun hl => hn ⟨habort, hl⟩⟩
  | stopped hno ho hunsafe hs => exact iff_of_true (ho.stopped_accepted r hs) fun hab => hno hab.1

/-- **An observation keeps acceptance exactly when it is no late abort.** -/
theorem observation_keeps_acceptance_iff {operation : ObservationOperation} {r : ObservationRequest}
    {k : Commit TransitionProjection}
    (h : applyAccountObservation env codec s operation r db = .ok k) :
    Accepted env codec s k.db ↔ ¬AbortsLate operation r db := by
  obtain ⟨ha, at', t, hat, ⟨ht, hid⟩, hmoves⟩ := applyAccountObservation_effect h
  rw [hmoves.accepted_iff ha (timeOk_of_effectiveTime hat), not_iff_not]
  constructor
  · exact fun hlate => ⟨t, ht, hid, hlate⟩
  · -- the transition of the request is the only one with its identifier
    intro ⟨u, hu, huid, hlate⟩
    obtain rfl : u = t := eq_of_key_eq ha.tables.transitions.id_unique hu ht (huid.trans hid.symm)
    exact hlate

namespace Sample

/-- The creation of the account is given up. -/
def abandon : ObservationRequest := ⟨uuid 80, .prepared, one, digest 42, 700⟩

/-- Its config is found written. -/
def found : ObservationRequest := ⟨uuid 80, .prepared, two, digest 43, 700⟩

/-- The challenge of another store is issued and proved before that. -/
def interrupted : Db := signed creating 6 600

/-- Both observations are answered, and both come after the challenge. -/
theorem interrupted_observations :
    (applyAccountObservation platform listCodec realm .abort abandon interrupted).toOption.isSome ∧
    (applyAccountObservation platform listCodec realm .configCommitted found
      interrupted).toOption.isSome ∧
    ∀ t ∈ interrupted.transitions, Aborts .abort t abandon ∧ ¬PreparedLast interrupted t := by
  decide +kernel

/-- The abort commits on an accepted state, and leaves one that is not. -/
theorem abort_after_a_challenge :
    Accepted platform listCodec realm interrupted ∧
    ∃ k, applyAccountObservation platform listCodec realm .abort abandon interrupted = .ok k ∧
      ¬Accepted platform listCodec realm k.db := by
  obtain ⟨hrun, -, hlate⟩ := interrupted_observations
  obtain ⟨k, hk⟩ := exists_ok_of_isSome hrun
  obtain ⟨ha, at', t, hat, ⟨ht, -⟩, hmoves⟩ := applyAccountObservation_effect hk
  refine ⟨ha, k, hk, ?_⟩
  rw [hmoves.accepted_iff ha (timeOk_of_effectiveTime hat), not_not]
  exact hlate t ht

/-- The config commit is accepted there. -/
theorem commit_after_a_challenge :
    ∃ k, applyAccountObservation platform listCodec realm .configCommitted found interrupted =
      .ok k ∧ Accepted platform listCodec realm k.db := by
  obtain ⟨k, hk⟩ := exists_ok_of_isSome interrupted_observations.2.1
  refine ⟨k, hk, (observation_keeps_acceptance_iff hk).mpr ?_⟩
  rintro ⟨t, -, -, ⟨hop, -⟩, -⟩
  cases hop

end Sample

end Kirje.Authority
