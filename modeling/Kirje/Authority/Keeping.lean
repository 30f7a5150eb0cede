import Kirje.Authority.Steps

/-
  File:      Kirje/Authority/Keeping.lean
  Subject:   Which calls leave an accepted database accepted.

  Challenges and proofs always do.  A first use of a grant does when its time is not
  before the proof it rests on, a claim also when it is not before the end of the
  transition that reserved the cleanup, a deletion when it is not before the claim.
  The clock rules these times out along every run, but the check of a database does
  not, so an accepted one may hold a receipt from later than its clock.
-/

namespace Kirje.Authority

open Base

variable {env : Platform} {codec : ManifestCodec} {s : Snapshot} {db : Db}

/-! ## 1. One call -/

/-- The time of a call. -/
def timeOf (db : Db) (observed : Int) : Int := max db.metaRow.lastObservedAt observed

theorem timeOf_eq {observed at' : Int} (h : effectiveTime db observed = .ok at') :
    at' = timeOf db observed := (effectiveTime_ok.mp h).2.1

/-- **The receipts a first use would rest on** are not from later. -/
def ProvedInTime (db : Db) (r : GrantUseRequest) (at' : Int) : Prop :=
  ∀ receipt, Live db r at' receipt → receipt.verifiedAt ≤ at'

/-- Nor is the end of the transition that reserved a cleanup, when it is claimed first. -/
def ReservedInTime (db : Db) (r : CleanupClaimRequest) (at' : Int) : Prop :=
  ∀ receipt, Live db r.grantUse at' receipt →
    ∀ x ∈ db.cleanups, x.cleanupId = r.cleanupId → FinalizedBy db x at'

theorem enrollStore_accepted_iff {r : EnrollStoreRequest} {k : Commit EnrolledStoreProjection}
    (h : enrollStore env codec s r db = .ok k) :
    Accepted env codec s k.db ↔ ProvedInTime db r.grantUse (timeOf db r.observedAt) := by
  obtain ⟨ha, at', hat, hk⟩ := enrollStore_effect h
  rw [← timeOf_eq hat]
  rcases hk with hspent | ⟨receipt, c, m, e, he, hexp, hs, hdb⟩
  · exact ⟨fun _ x hx => absurd hx (hspent.not_live x), fun _ => hspent.quiet.accepted ha⟩
  · have hlive := he.authorizes.live hexp
    rw [hdb, he.accepted_iff ha (timeOk_of_effectiveTime hat) hs hexp]
    exact ⟨fun hle x hx => (hx.eq ha.tables hlive.mem) ▸ hle, fun hall => hall receipt hlive⟩

theorem claimCredentialCleanup_accepted_iff {r : CleanupClaimRequest} {k : Commit ClaimOutcome}
    (h : claimCredentialCleanup env codec s r db = .ok k) :
    Accepted env codec s k.db ↔ ProvedInTime db r.grantUse (timeOf db r.observedAt) ∧
      ReservedInTime db r (timeOf db r.observedAt) := by
  obtain ⟨ha, at', hat, hk⟩ := claimCredentialCleanup_effect h
  rw [← timeOf_eq hat]
  rcases hk with hspent | ⟨receipt, c, m, value, x, hc, hexp, hs, hdb⟩
  · refine ⟨fun _ => ⟨?_, ?_⟩, fun _ => hspent.quiet.accepted ha⟩
    · exact fun y hy => absurd hy (hspent.not_live y)
    · exact fun y hy => absurd hy (hspent.not_live y)
  · have hlive := hc.authorizes.live hexp
    obtain ⟨hx, hid, -⟩ := hc.row
    rw [hdb, hc.accepted_iff ha (timeOk_of_effectiveTime hat) hs hexp]
    constructor
    · rintro ⟨hle, hfin⟩
      refine ⟨fun y hy => (hy.eq ha.tables hlive.mem) ▸ hle, fun _ _ y hy hyid => ?_⟩
      have hyx : y = x := eq_of_key_eq ha.tables.cleanups.id_unique hy hx (hyid.trans hid.symm)
      exact hyx ▸ hfin
    · rintro ⟨hall, hfin⟩
      exact ⟨hall receipt hlive, hfin receipt hlive x hx hid⟩

theorem applyCredentialCleanupDelete_accepted_iff {backend : Bytes → Bytes → Bool}
    {permit : CleanupDeletePermit} {observedAt : Int} {k : Commit CleanupProjection}
    (h : applyCredentialCleanupDelete env codec s backend permit observedAt db = .ok k) :
    Accepted env codec s k.db ↔
      ∀ g ∈ db.grants, g.grantId = permit.grantId → g.usedAt ≤ timeOf db observedAt := by
  obtain ⟨ha, at', x, g, hat, hd, hs, hdb⟩ := applyCredentialCleanupDelete_effect h
  rw [← timeOf_eq hat, hdb, hd.accepted_iff ha (timeOk_of_effectiveTime hat) hs]
  constructor
  · intro hle y hy hid
    have hyg : y = g := eq_of_key_eq ha.tables.grants.id_unique hy hd.grant.1
      (hid.trans hd.grant.2.symm)
    exact hyg ▸ hle
  · exact fun hall => hall g hd.grant.1 hd.grant.2

/-! ## 2. All calls but those about transitions -/

/-- **Challenges and proofs keep acceptance; enrollments, claims and deletions keep it exactly when
    what they rest on is not from later than their time.** -/
theorem authorization_keeps_acceptance_iff :
    (∀ draw r k, createChallenge env codec s draw r db = .ok k → Accepted env codec s k.db) ∧
    (∀ draw r k, verifyProof env codec s draw r db = .ok k → Accepted env codec s k.db) ∧
    (∀ r k, enrollStore env codec s r db = .ok k →
      (Accepted env codec s k.db ↔ ProvedInTime db r.grantUse (timeOf db r.observedAt))) ∧
    (∀ r k, claimCredentialCleanup env codec s r db = .ok k →
      (Accepted env codec s k.db ↔ ProvedInTime db r.grantUse (timeOf db r.observedAt) ∧
        ReservedInTime db r (timeOf db r.observedAt))) ∧
    ∀ backend permit observedAt k,
      applyCredentialCleanupDelete env codec s backend permit observedAt db = .ok k →
      (Accepted env codec s k.db ↔
        ∀ g ∈ db.grants, g.grantId = permit.grantId → g.usedAt ≤ timeOf db observedAt) := by
  refine ⟨?_, ?_, ?_, ?_, ?_⟩
  · intro draw r k h
    obtain ⟨ha, hq⟩ := createChallenge_quiets h
    exact hq.accepted ha
  · intro draw r k h
    obtain ⟨ha, hq⟩ := verifyProof_quiets h
    exact hq.accepted ha
  · exact fun r k h => enrollStore_accepted_iff h
  · exact fun r k h => claimCredentialCleanup_accepted_iff h
  · exact fun backend permit observedAt k h => applyCredentialCleanupDelete_accepted_iff h

namespace Sample

/-- The challenge is proved at 900, and the clock set back to 100. -/
def backdated : Db := (signedAt ready 0 100 900).clocked 100

/-- An enrollment at 300 is recorded before the proof it rests on. -/
theorem enrollment_before_its_proof :
    Accepted platform listCodec realm backdated ∧
    (runCall platform listCodec realm backdated (.enrollStore enrollRequest)).2 = none ∧
    ¬Accepted platform listCodec realm
      (runCall platform listCodec realm backdated (.enrollStore enrollRequest)).1 := by
  unfold Accepted
  decide +kernel

/-- After a proof in time the enrollment is accepted. -/
theorem enrollment_after_its_proof :
    ∃ k, enrollStore platform listCodec realm enrollRequest (signed ready 0 100) = .ok k ∧
      Accepted platform listCodec realm k.db := by
  have hrun : (enrollStore platform listCodec realm enrollRequest (signed ready 0 100)).toOption.isSome ∧
      ∀ receipt ∈ (signed ready 0 100).receipts,
        receipt.verifiedAt ≤ timeOf (signed ready 0 100) enrollRequest.observedAt := by decide +kernel
  obtain ⟨k, hk⟩ := exists_ok_of_isSome hrun.1
  have hverified := hrun.2
  refine ⟨k, hk, ?_⟩
  have hiff := (@authorization_keeps_acceptance_iff platform listCodec realm
    (signed ready 0 100)).2.2.1 enrollRequest k hk
  exact hiff.mpr fun receipt hlive => hverified receipt hlive.mem.1

end Sample

end Kirje.Authority
