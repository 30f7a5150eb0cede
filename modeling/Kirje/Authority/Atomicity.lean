import Kirje.Authority.Bootstrap
import Kirje.Authority.Locators
import Kirje.Authority.Signed

/-
  File:      Kirje/Authority/Atomicity.lean
  Subject:   What a call that returns an error leaves behind.

  A call that fails before its commit leaves the database as it was.  After the
  commit a call still reads a projection, an export or a permit from the rows, and
  acceptance makes each of them readable but one: the time of a deletion, which a
  repeated claim reads after it has committed the clock.
-/

namespace Kirje.Authority

open Base

variable (env : Platform) (codec : ManifestCodec)

/-! ## 1. Calls -/

/-- A call of the authority store, with what it draws. -/
inductive Call where
  | createChallenge (draw : Option (GrantId × Digest)) (r : CreateChallengeRequest)
  | verifyProof (draw : Option ReceiptId) (r : VerifyProofRequest)
  | enrollStore (r : EnrollStoreRequest)
  | prepareAccountTransition (r : PrepareRequest)
  | observe (operation : ObservationOperation) (r : ObservationRequest)
  | claimCredentialCleanup (r : CleanupClaimRequest)
  | applyCredentialCleanupDelete (backend : Bytes → Bytes → Bool) (permit : CleanupDeletePermit)
      (observedAt : Int)

/-- The database after a call and the error it returned, if it did. -/
def settle {α : Type} (db : Db) : Result (Commit α) → Db × Option MailError
  | .error e => (db, some e)
  | .ok ⟨db', .error e⟩ => (db', some e)
  | .ok ⟨db', .ok _⟩ => (db', none)

/-- What a call does. -/
def runCall (s : Snapshot) (db : Db) : Call → Db × Option MailError
  | .createChallenge draw r => settle db (createChallenge env codec s draw r db)
  | .verifyProof draw r => settle db (verifyProof env codec s draw r db)
  | .enrollStore r => settle db (enrollStore env codec s r db)
  | .prepareAccountTransition r => settle db (prepareAccountTransition env codec s r db)
  | .observe operation r => settle db (applyAccountObservation env codec s operation r db)
  | .claimCredentialCleanup r => settle db (claimCredentialCleanup env codec s r db)
  | .applyCredentialCleanupDelete backend permit observedAt =>
      settle db (applyCredentialCleanupDelete env codec s backend permit observedAt db)

/-! ## 2. What an error may leave -/

/-- The grant and the receipt of a request are of the challenge. -/
def GrantUseRequest.RefersTo (r : GrantUseRequest) (db : Db) (c : Challenge) : Prop :=
  ∃ receipt ∈ db.receipts, receipt.receiptId = r.receiptId ∧ receipt.challengeId = c.challengeId ∧
    c.grantId = r.grantId

/-- The challenge a request refers to. -/
def Call.RefersTo (db : Db) (c : Challenge) : Call → Prop
  | .verifyProof _ r => c.challengeId = r.proof.challengeId
  | .enrollStore r => r.grantUse.RefersTo db c
  | .prepareAccountTransition r => r.grantUse.RefersTo db c
  | .claimCredentialCleanup r => r.grantUse.RefersTo db c
  | .createChallenge _ _ | .observe _ _ | .applyCredentialCleanupDelete _ _ _ => False

/-- One row of a challenge, expired. -/
def Db.expired (db : Db) (c : Challenge) : Db :=
  { db with
    challenges := update (fun x => decide (x = c)) (fun x => { x with state := .expired })
      db.challenges }

/-- The event of an expired challenge. -/
def ExpiryEvent (c : Challenge) (at' : Int) (e : EventSpec) : Prop :=
  e.eventCode = 5 ∧ e.entityKind = 8 ∧ e.entityId = c.challengeId.bytes ∧ e.nextState = 0x0803 ∧
    e.occurredAt = at'

/-- Only the clock moved, or the challenge of the request expired with one event. -/
def ExpiredOnly (call : Call) (db db' : Db) : Prop :=
  (∃ at', db.metaRow.lastObservedAt ≤ at' ∧ db' = db.clocked at') ∨
  ∃ c ∈ db.challenges, call.RefersTo db c ∧ (c.state = .pending ∨ c.state = .authorized) ∧
    ∃ at' e, db.metaRow.lastObservedAt ≤ at' ∧ ExpiryEvent c at' e ∧
      db' = appendEvent env ((db.expired c).clocked at') e

/-- **Error atomicity**: an error leaves every row as it was, except that an expired authorization
    may have been recorded. -/
def ErrorAtomic (s : Snapshot) (call : Call) (db : Db) : Prop :=
  ∀ e, (runCall env codec s db call).2 = some e →
    (runCall env codec s db call).1 = db ∨
      e = expiredError ∧ ExpiredOnly env call db (runCall env codec s db call).1

/-- A claim repeated after its deletion was recorded at a time that cannot be read, and at a later
    time than any before. -/
def LateFailure (s : Snapshot) (call : Call) (db : Db) : Prop :=
  ∃ r, call = .claimCredentialCleanup r ∧ Accepted env codec s db ∧
    (∃ g ∈ db.grants, g.matchesRequest r.grantUse ∧
      ∃ x ∈ db.cleanups, x.cleanupId = r.cleanupId ∧ x.claimGrantId = some g.grantId ∧
        ∃ d ∈ x.deletedAt, ¬Representable d) ∧
    db.metaRow.lastObservedAt < r.observedAt ∧ Representable r.observedAt

variable {env codec} {s : Snapshot} {db : Db}

/-! ## 3. Replies after a commit -/

/-- A commit that replies with its value, or records an expiry. -/
def Replies {α : Type} (env : Platform) (call : Call) (db : Db) (k : Commit α) : Prop :=
  (∃ x, k.reply = .ok x) ∨ k.reply = .error expiredError ∧ ExpiredOnly env call db k.db

theorem settle_atomic {α : Type} {call : Call} {x : Result (Commit α)}
    (h : ∀ k, x = .ok k → Replies env call db k) :
    ∀ e, (settle db x).2 = some e → (settle db x).1 = db ∨
      e = expiredError ∧ ExpiredOnly env call db (settle db x).1 := by
  intro e he
  cases x with
  | error e' => exact Or.inl rfl
  | ok k =>
      rcases h k rfl with ⟨v, hv⟩ | ⟨hv, hexp⟩
      · obtain ⟨db', reply⟩ := k
        simp only at hv
        subst hv
        simp [settle] at he
      · obtain ⟨db', reply⟩ := k
        simp only at hv hexp
        subst hv
        right
        exact ⟨(Option.some.inj he).symm, hexp⟩

/-- Under distinct identifiers, the challenge moved by its identifier is the one row. -/
theorem challengeMoved_eq (h : TablesOk db) {c : Challenge} (hc : c ∈ db.challenges) :
    db.challengeMoved c.challengeId c.state .expired = db.expired c := by
  have hrows : update (fun x => decide (x.challengeId = c.challengeId ∧ x.state = c.state))
      (fun x => { x with state := .expired }) db.challenges =
      update (fun x => decide (x = c)) (fun x => { x with state := .expired }) db.challenges := by
    refine List.map_congr_left fun x hx => ?_
    have hiff : (x.challengeId = c.challengeId ∧ x.state = c.state) ↔ x = c := by
      constructor
      · intro hk
        exact eq_of_key_eq h.challenges.id_unique hx hc hk.1
      · rintro rfl
        exact ⟨rfl, rfl⟩
    simp only [hiff]
  unfold Db.challengeMoved Db.expired
  rw [hrows]

theorem expiredOnly_clocked {call : Call} {at' : Int} (h : TimeOk db at') :
    ExpiredOnly env call db (db.clocked at') := Or.inl ⟨at', h.monotone, rfl⟩

theorem expiredOnly_pending (h : TablesOk db) {call : Call} {c : Challenge} {at' : Int}
    (hc : c ∈ db.challenges) (hr : call.RefersTo db c) (hst : c.state = .pending)
    (ht : TimeOk db at') : ExpiredOnly env call db (pendingExpired env db c at') := by
  refine Or.inr ⟨c, hc, hr, Or.inl hst, at', challengeExpiredEvent c at', ht.monotone,
    ⟨rfl, rfl, rfl, rfl, rfl⟩, ?_⟩
  rw [← challengeMoved_eq h hc, hst]
  rfl

theorem expiredOnly_receipt (h : TablesOk db) {call : Call} {c : Challenge} {r : Receipt}
    {intent : Digest} {at' : Int} (hc : c ∈ db.challenges) (hr : call.RefersTo db c)
    (hst : c.state = .authorized) (ht : TimeOk db at') :
    ExpiredOnly env call db (receiptExpired env db c r intent at') := by
  refine Or.inr ⟨c, hc, hr, Or.inr hst, at', receiptExpiredEvent c r intent at', ht.monotone,
    ⟨rfl, rfl, rfl, rfl, rfl⟩, ?_⟩
  rw [← challengeMoved_eq h hc, hst]
  rfl

/-- The challenge of a receipt that loads. -/
theorem refersTo_of_loads (h : TablesOk db) {r : GrantUseRequest} {receipt : Receipt}
    {c : Challenge} (hr : loadReceiptById db r.receiptId = some receipt)
    (hc : loadChallenge db receipt.challengeId = some c) (hg : r.grantId = c.grantId) :
    c ∈ db.challenges ∧ r.RefersTo db c := by
  rw [loadReceiptById_iff h] at hr
  rw [loadChallenge_iff h] at hc
  exact ⟨hc.1, receipt, hr.1, hr.2, hc.2.symm, hg.symm⟩

/-! ## 4. Challenges and proofs -/

theorem utcMillis_ok {t : Int} (h : Representable t) : utcMillis t = .ok t := by
  simp [utcMillis, h]

theorem Accepted.challengeExport (h : Accepted env codec s db) {c : Challenge}
    (hc : c ∈ db.challenges) : ∃ x, challengeExportFromStored env codec c = .ok x := by
  have hok := h.history.challenges c hc
  obtain ⟨m, p, hch⟩ := hok.chain
  simp [challengeExportFromStored, hch.manifest, hch.payload, utcMillis_ok hok.utc.1,
    utcMillis_ok hok.utc.2, orRefuse]

theorem i64_of_representable {t : Int} (h : Representable t) : -2 ^ 63 ≤ t ∧ t < 2 ^ 63 := by
  unfold Representable at h
  omega

theorem effectKind_of_supported {a : SensitiveAction} (h : supportedChallengeAction a) :
    a.effectKind = .none := by
  cases a <;> simp_all [supportedChallengeAction, SensitiveAction.effectKind]

theorem freshChallenge_replies {call : Call} {draw : Option (GrantId × Digest)}
    {r : CreateChallengeRequest} {context : Digest} {at' : Int} {db₀ : Db} {k : Commit ChallengeExport}
    (hparse : ActionManifest.parse env codec r.manifest.canonicalBytes = .ok r.manifest)
    (hsup : supportedChallengeAction r.manifest.action) (hat : Representable at')
    (hexp : Representable r.expiresAt)
    (h : freshChallenge env codec s draw r context at' db = .ok k) : Replies env call db₀ k := by
  simp only [freshChallenge, bind_ok, orRefuse_ok, pure_ok] at h
  obtain ⟨_, -, _, -, ⟨grantId, nonce⟩, -, p, hp, db', hins, stored, hst, rfl⟩ := h
  obtain ⟨rfl, hs⟩ := insertChallenge_ok rfl hins
  have hnone := effectKind_of_supported hsup
  have hvalid := (ActionManifest.parse_ok env codec hparse).1
  obtain ⟨-, ⟨effects, heff, hf⟩, -, -⟩ := AuthorizationPayload.new_ok hp
  obtain rfl := AuthorizationPayload.manifestEffects_control hnone heff
  have hpp := AuthorizationPayload.parse_new hvalid (i64_of_representable hat)
    (i64_of_representable hexp) hp
  -- the row loaded is the row inserted
  have hrow : stored = { challengeRow r.manifest p context with
      createdEventSequence := db.sequenceHighWater + 1 } := by
    rw [loadChallenge_iff hs.tables] at hst
    refine eq_of_key_eq hs.tables.challenges.id_unique hst.1 ?_ hst.2
    simp [challengeCreated, appendEvent, Db.clocked]
  left
  subst hrow
  simp [challengeExportFromStored, manifestOf, payloadOf, challengeRow, hparse, hpp, hf,
    Except.toOption, orRefuse, challengeContext, utcMillis_ok hat, utcMillis_ok hexp]

theorem createChallenge_replies {draw : Option (GrantId × Digest)} {r : CreateChallengeRequest}
    {k : Commit ChallengeExport} (h : createChallenge env codec s draw r db = .ok k) :
    Replies env (.createChallenge draw r) db k := by
  simp only [createChallenge, bind_ok, ensure_ok] at h
  obtain ⟨_, hreq, reparsed, hparse, _, rfl, _, hsup, _, hacc, at', hat, _, -, _, -, _, -, h⟩ := h
  have ha : Accepted env codec s db := hacc
  have htime := timeOk_of_effectiveTime hat
  simp only [ensureSupportedChallengeAction, ensure_ok] at hsup
  simp only [validateChallengeRequest, inputUtcMillis, bind_ok, ensure_ok] at hreq
  obtain ⟨_, -, _, -, _, hexp, -⟩ := hreq
  split at h
  · next existing hex =>
      split at h
      · obtain ⟨rfl, -⟩ := commitClock_ok h
        exact Or.inl (ha.challengeExport (List.mem_of_find?_eq_some hex))
      · rw [bind_ok] at h
        obtain ⟨db₁, -, h⟩ := h
        exact freshChallenge_replies hparse hsup htime.utc hexp h
  · exact freshChallenge_replies hparse hsup htime.utc hexp h

theorem verifyProof_replies {draw : Option ReceiptId} {r : VerifyProofRequest}
    {k : Commit ReceiptProjection} (h : verifyProof env codec s draw r db = .ok k) :
    Replies env (.verifyProof draw r) db k := by
  simp only [verifyProof, bind_ok, orRefuse_ok] at h
  obtain ⟨_, -, _, hacc, c, hc, at', hat, h⟩ := h
  have ha : Accepted env codec s db := hacc
  have htime := timeOk_of_effectiveTime hat
  rw [loadChallenge_iff ha.tables] at hc
  split at h
  · simp only [recoverReceipt, bind_ok, pure_ok] at h
    obtain ⟨_, -, _, -, x, -, rfl⟩ := h
    exact Or.inl ⟨x, rfl⟩
  · split at h
    · obtain ⟨rfl, -⟩ := commitClock_ok h
      exact Or.inr ⟨rfl, expiredOnly_clocked htime⟩
    · next hst =>
        split at h
        · obtain ⟨rfl, -⟩ := commitPendingExpiry_ok h
          exact Or.inr ⟨rfl, expiredOnly_pending ha.tables hc.1 hc.2 hst htime⟩
        · simp only [authorize, bind_ok, pure_ok] at h
          obtain ⟨_, -, _, -, _, -, x, -, rfl⟩ := h
          exact Or.inl ⟨x, rfl⟩
    · cases h
    · cases h

/-! ## 5. Enrollment and transitions -/

theorem enrolledStoreProjection_ok {v : StoreVersion} (hr : v.enrolledReceiptId.isSome)
    (ht : v.committedTransitionId = none) (hu : Representable v.createdAt) :
    ∃ x, enrolledStoreProjection v = .ok x := by
  simp [enrolledStoreProjection, hr, ht, utcMillis_ok hu, ensure]

theorem enrollStore_replies {r : EnrollStoreRequest} {k : Commit EnrolledStoreProjection}
    (h : enrollStore env codec s r db = .ok k) : Replies env (.enrollStore r) db k := by
  simp only [enrollStore, bind_ok] at h
  obtain ⟨_, -, _, hacc, h⟩ := h
  have ha : Accepted env codec s db := hacc
  split at h
  · simp only [recoverEnrollment, bind_ok, ensure_ok, orRefuse_ok] at h
    obtain ⟨_, -, receipt, -, c, -, e, -, store, -, _, -, v, -, _, hinit, at', -, h⟩ := h
    obtain ⟨rfl, -⟩ := commitClock_ok h
    exact Or.inl (enrolledStoreProjection_ok (by simp [hinit.receipt.1]) hinit.receipt.2 hinit.utc)
  · simp only [useEnrollment, bind_ok, orRefuse_ok] at h
    obtain ⟨receipt, hr, c, hc, e, hid, at', hat, h⟩ := h
    have htime := timeOk_of_effectiveTime hat
    simp only [validateEnrollmentIdentity, bind_ok, orRefuse_ok, ensure_ok, pure_ok] at hid
    obtain ⟨_, -, _, -, _, -, _, hid, -⟩ := hid
    have href := refersTo_of_loads ha.tables hr hc hid.1
    split at h
    · rw [bind_ok] at h
      obtain ⟨_, -, h⟩ := h
      obtain ⟨rfl, -⟩ := commitClock_ok h
      exact Or.inr ⟨rfl, expiredOnly_clocked htime⟩
    · next hst =>
        split at h
        · obtain ⟨rfl, -⟩ := commitReceiptExpiry_ok h
          exact Or.inr ⟨rfl, expiredOnly_receipt ha.tables href.1 href.2 hst htime⟩
        · simp only [registerStore, bind_ok, pure_ok] at h
          obtain ⟨_, -, _, -, rfl⟩ := h
          exact Or.inl (enrolledStoreProjection_ok (by simp [storeVersionRow]) rfl htime.utc)
    · cases h
    · cases h

theorem prepareAccountTransition_replies {r : PrepareRequest} {k : Commit TransitionProjection}
    (h : prepareAccountTransition env codec s r db = .ok k) :
    Replies env (.prepareAccountTransition r) db k := by
  simp only [prepareAccountTransition, bind_ok] at h
  obtain ⟨_, hacc, at', hat, h⟩ := h
  have ha : Accepted env codec s db := hacc
  have htime := timeOk_of_effectiveTime hat
  split at h
  · simp only [recoverPrepare, bind_ok] at h
    obtain ⟨_, -, t, -, _, -, x, -, h⟩ := h
    obtain ⟨rfl, -⟩ := commitClock_ok h
    exact Or.inl ⟨x, rfl⟩
  · simp only [usePrepare, bind_ok, orRefuse_ok] at h
    obtain ⟨receipt, hr, c, hc, _, hid, _, -, h⟩ := h
    simp only [validateAccountPrepareIdentity, bind_ok, ensure_ok] at hid
    obtain ⟨_, -, _, -, _, -, _, hid, -⟩ := hid
    have href := refersTo_of_loads ha.tables hr hc hid.grant_id
    split at h
    · rw [bind_ok] at h
      obtain ⟨_, -, h⟩ := h
      obtain ⟨rfl, -⟩ := commitClock_ok h
      exact Or.inr ⟨rfl, expiredOnly_clocked htime⟩
    · next hst =>
        split at h
        · obtain ⟨rfl, -⟩ := commitReceiptExpiry_ok h
          exact Or.inr ⟨rfl, expiredOnly_receipt ha.tables href.1 href.2 hst htime⟩
        · simp only [prepareTransition, bind_ok, pure_ok] at h
          obtain ⟨_, -, _, -, _, -, rfl⟩ := h
          left
          simp [preparedProjection, utcMillis_ok htime.utc]
    · cases h
    · cases h

theorem observeUnchanged_replies {call : Call} {t : Transition} {at' : Int}
    {k : Commit TransitionProjection} (h : observeUnchanged env codec t at' db = .ok k) :
    Replies env call db k := by
  simp only [observeUnchanged, bind_ok] at h
  obtain ⟨x, -, h⟩ := h
  obtain ⟨rfl, -⟩ := commitClock_ok h
  exact Or.inl ⟨x, rfl⟩

theorem observeTransition_replies {call : Call} {operation : ObservationOperation} {t : Transition}
    {r : ObservationRequest} {at' : Int} {k : Commit TransitionProjection}
    (h : observeTransition env codec operation t r at' db = .ok k) : Replies env call db k := by
  unfold observeTransition at h
  split at h
  · simp only [observeStopped, bind_ok] at h
    obtain ⟨_, -, _, -, h⟩ := h
    exact observeUnchanged_replies h
  split at h
  · simp only [observeCompleted, bind_ok] at h
    obtain ⟨_, -, h⟩ := h
    exact observeUnchanged_replies h
  split at h
  · simp only [commitAccountRecovery, bind_ok, pure_ok] at h
    obtain ⟨_, -, _, -, x, -, rfl⟩ := h
    exact Or.inl ⟨x, rfl⟩
  unfold observeOpen at h
  split at h
  · exact observeUnchanged_replies h
  · simp only [commitConfig, bind_ok, pure_ok] at h
    obtain ⟨_, -, x, -, rfl⟩ := h
    exact Or.inl ⟨x, rfl⟩
  · simp only [finalizeTransition, bind_ok, pure_ok] at h
    obtain ⟨_, -, x, -, rfl⟩ := h
    exact Or.inl ⟨x, rfl⟩
  · simp only [abortTransition, bind_ok, pure_ok] at h
    obtain ⟨_, -, x, -, rfl⟩ := h
    exact Or.inl ⟨x, rfl⟩
  · cases h

theorem applyAccountObservation_replies {operation : ObservationOperation}
    {r : ObservationRequest} {k : Commit TransitionProjection}
    (h : applyAccountObservation env codec s operation r db = .ok k) :
    Replies env (.observe operation r) db k := by
  simp only [applyAccountObservation, bind_ok] at h
  obtain ⟨_, -, at', -, t, -, h⟩ := h
  exact observeTransition_replies h

/-! ## 6. Cleanups -/

/-- A clock that shows the time already stays. -/
theorem clocked_self (h : db.metaRow.updatedAt = db.metaRow.lastObservedAt) :
    db.clocked db.metaRow.lastObservedAt = db := by
  obtain ⟨⟨_, _, _, _, _, _, _, _, _, _⟩, _⟩ := db
  simp only at h
  subst h
  rfl

/-- The permit of a stored cleanup can be read, once it is claimed. -/
theorem Accepted.deletePermit (h : Accepted env codec s db) {x y : Cleanup} {g : GrantUse}
    (hx : x ∈ db.cleanups)
    (hsame : y.locatorMaterial = x.locatorMaterial ∧ y.locatorKind = x.locatorKind ∧
      y.locatorSha256 = x.locatorSha256 ∧ y.createdAt = x.createdAt)
    (hst : y.state = .claimed) (hg : y.claimGrantId = some g.grantId) (hd : y.deletedAt = none) :
    ∃ permit, cleanupDeletePermit env y g = .ok permit := by
  obtain ⟨t, o, value, account, a, before, d, hc⟩ := h.cleanupChain hx
  obtain ⟨service, username, hparse, hshape⟩ := @parse_expectedDeleteOnlyLocator env
    db.metaRow.realmId t.storeId before d.locatorKind
    (hc.transition.mutates.before_ok before (by simp [hc.before_eq]))
  have hutc : Representable x.createdAt := by
    rw [hc.row.created_at]
    exact hc.transition.checks.row.prepared_utc
  have hkind : y.locatorKind = d.locatorKind := hsame.2.1.trans hc.row.kind
  have hsha : y.locatorSha256 = env.sha256 y.locatorMaterial := by
    rw [hsame.2.2.1, hsame.1, hc.row.sha256, hc.row.digest]
  rw [← hc.row.material, ← hsame.1] at hparse
  rw [← hsame.2.2.2] at hutc
  simp [cleanupDeletePermit, utcMillis_ok hutc, hparse, orRefuse, hst, hg, hkind, hsha, hd, hshape,
    ensure]

theorem optUtcMillis_ok {t : Option Int} (h : ∀ x ∈ t, Representable x) :
    optUtcMillis t = .ok t := by
  cases t with
  | none => rfl
  | some x =>
      rw [optUtcMillis, utcMillis_ok (h x rfl)]
      rfl

theorem cleanupProjection_ok {c : Cleanup} {claimedAt : Int} (hc : Representable claimedAt)
    (hd : ∀ d ∈ c.deletedAt, Representable d) :
    cleanupProjection c (some claimedAt) =
      .ok ⟨c.cleanupId, c.state, some claimedAt, c.deletedAt⟩ := by
  have hclaim : optUtcMillis (some claimedAt) = .ok (some claimedAt) :=
    optUtcMillis_ok (by simpa using hc)
  simp [cleanupProjection, hclaim, optUtcMillis_ok hd]

/-- What a recovered claim replies is readable when the deletion is. -/
theorem Accepted.recoveredClaim_ok (h : Accepted env codec s db) {x : Cleanup} {g : GrantUse}
    (hx : x ∈ db.cleanups) (hg : g ∈ db.grants) (hclaim : x.claimGrantId = some g.grantId)
    (hd : ∀ d ∈ x.deletedAt, Representable d) : ∃ y, recoveredClaim env x g = .ok y := by
  have hproj := cleanupProjection_ok (h.history.grants g hg).utc hd
  by_cases hst : x.state = .claimed
  · have hnone : x.deletedAt = none := by
      have hshape := (h.tables.cleanups.checks x hx).2.1
      unfold cleanupShape at hshape
      rw [hst] at hshape
      simpa using hshape.2
    obtain ⟨permit, hp⟩ := h.deletePermit hx ⟨rfl, rfl, rfl, rfl⟩ hst hclaim hnone
    simp [recoveredClaim, hproj, hst, hp]
  · simp [recoveredClaim, hproj, hst]

theorem recoverClaim_replies (h : Accepted env codec s db) {r : CleanupClaimRequest} {g : GrantUse}
    {k : Commit ClaimOutcome} (hg : loadGrantUse db r.grantUse.grantId = some g)
    (hl : ¬LateFailure env codec s (.claimCredentialCleanup r) db)
    (hk : recoverClaim env codec s r g db = .ok k) :
    Replies env (.claimCredentialCleanup r) db k ∨ k.db = db := by
  rw [loadGrantUse_iff h.tables] at hg
  simp only [recoverClaim, bind_ok, ensure_ok, orRefuse_ok] at hk
  obtain ⟨_, hmatch, receipt, -, c, -, m, -, x, hx, _, hclaim, _, -, at', hat, hk⟩ := hk
  rw [loadCredentialCleanup_iff h.tables] at hx
  obtain ⟨rfl, -⟩ := commitClock_ok hk
  by_cases hd : ∀ d ∈ x.deletedAt, Representable d
  · exact Or.inl (Or.inl (h.recoveredClaim_ok hx.1 hg.1 hclaim.1 hd))
  -- a deletion that cannot be read: then no time has passed
  right
  simp only [not_forall] at hd
  obtain ⟨d, hdm, hdr⟩ := hd
  obtain ⟨-, rfl, hutc⟩ := effectiveTime_ok.mp hat
  have hle : r.observedAt ≤ db.metaRow.lastObservedAt := by
    by_contra hlt
    have hlt := not_le.mp hlt
    rw [max_eq_right hlt.le] at hutc
    exact hl ⟨r, rfl, h, ⟨g, hg.1, hmatch, x, hx.1, hx.2, hclaim.1, d, hdm, hdr⟩, hlt, hutc⟩
  rw [max_eq_left hle]
  exact clocked_self h.clock

theorem useClaim_replies (h : Accepted env codec s db) {r : CleanupClaimRequest}
    {k : Commit ClaimOutcome} (hk : useClaim env codec s r db = .ok k) :
    Replies env (.claimCredentialCleanup r) db k := by
  simp only [useClaim, bind_ok, orRefuse_ok] at hk
  obtain ⟨receipt, hr, c, hc, m, hid, at', hat, hk⟩ := hk
  have htime := timeOk_of_effectiveTime hat
  simp only [validateCleanupClaimIdentity, bind_ok, orRefuse_ok, ensure_ok, pure_ok] at hid
  obtain ⟨_, -, _, -, _, hid, -⟩ := hid
  have href := refersTo_of_loads h.tables hr hc hid.1
  split at hk
  · cases hk
  · next hst =>
      split at hk
      · obtain ⟨rfl, -⟩ := commitReceiptExpiry_ok hk
        exact Or.inr ⟨rfl, expiredOnly_receipt h.tables href.1 href.2 hst htime⟩
      · simp only [claimCleanup, bind_ok, orRefuse_ok, pure_ok] at hk
        obtain ⟨_, -, _, -, x, hx, db', hins, rfl⟩ := hk
        rw [loadCredentialCleanup_iff h.tables] at hx
        obtain ⟨⟨y, hy⟩, -, -⟩ := insertClaim_ok hins
        -- the row claimed is the row loaded, so it is ready and not deleted
        have hym := List.mem_filter.mp (hy ▸ List.mem_singleton_self y)
        simp only [claimable, decide_eq_true_eq] at hym
        have hyx : y = x := eq_of_key_eq h.tables.cleanups.id_unique hym.1 hx.1
          (hym.2.1.trans hx.2.symm)
        subst hyx
        have hnone := hym.2.2.2.2
        left
        obtain ⟨permit, hp⟩ := @Accepted.deletePermit env codec s db h y
          { y with state := .claimed, claimGrantId := some r.grantUse.grantId }
          (grantUseRow env r.grantUse at') hx.1 ⟨rfl, rfl, rfl, rfl⟩ rfl rfl hnone
        have hproj := @cleanupProjection_ok
          { y with state := .claimed, claimGrantId := some r.grantUse.grantId } at' htime.utc
          (by simp [hnone])
        exact ⟨_, bind_ok.mpr ⟨_, hproj, bind_ok.mpr ⟨permit, hp, rfl⟩⟩⟩
  · cases hk
  · cases hk

theorem applyCredentialCleanupDelete_replies {backend : Bytes → Bytes → Bool}
    {permit : CleanupDeletePermit} {observedAt : Int} {k : Commit CleanupProjection}
    (hk : applyCredentialCleanupDelete env codec s backend permit observedAt db = .ok k) :
    Replies env (.applyCredentialCleanupDelete backend permit observedAt) db k := by
  simp only [applyCredentialCleanupDelete, deletionReached, bind_ok, ensure_ok, orRefuse_ok,
    pure_ok] at hk
  obtain ⟨x, ⟨_, -, _, -, _, hacc, at', hat, c, -, g, hg, _, -, _, -, _, -, _, -, rfl⟩, _, -, _, -,
    rfl⟩ := hk
  have ha : Accepted env codec s db := hacc
  have htime := timeOk_of_effectiveTime hat
  rw [loadGrantUse_iff ha.tables] at hg
  left
  exact ⟨_, cleanupProjection_ok (ha.history.grants g hg.1).utc (by simpa using htime.utc)⟩

/-! ## 7. Atomicity -/

theorem claim_atomic {r : CleanupClaimRequest}
    (hl : ¬LateFailure env codec s (.claimCredentialCleanup r) db) :
    ErrorAtomic env codec s (.claimCredentialCleanup r) db := by
  intro e he
  simp only [runCall] at he ⊢
  cases hx : claimCredentialCleanup env codec s r db with
  | error e' => exact Or.inl rfl
  | ok k =>
      rw [hx] at he
      have hreplies : Replies env (.claimCredentialCleanup r) db k ∨ k.db = db := by
        simp only [claimCredentialCleanup, bind_ok] at hx
        obtain ⟨_, hacc, hx⟩ := hx
        split at hx
        · next g hg => exact recoverClaim_replies hacc hg hl hx
        · exact Or.inl (useClaim_replies hacc hx)
      rcases hreplies with hrep | hsame
      · exact settle_atomic (x := .ok k) (fun k' hk' => Except.ok.inj hk' ▸ hrep) e he
      · left
        obtain ⟨db', reply⟩ := k
        cases reply <;> exact hsame

/-- **The clock alone breaks no constraint.** -/
theorem SchemaOk.clocked (h : SchemaOk db) {at' : Int} (hle : db.metaRow.lastObservedAt ≤ at')
    (hupd : db.metaRow.updatedAt ≤ at') (hmax : at' ≤ i64Max) : SchemaOk (db.clocked at') := by
  have hm := h.tables.metaRow
  have hmeta : MetaOk (db.clocked at').metaRow :=
    ⟨⟨hm.clock.1.trans hle, hmax⟩, ⟨hm.created.1, hm.created.2.trans hupd⟩, hm.confirmed, hm.ready⟩
  obtain ⟨a, b, c, d⟩ := h.foreignKeys
  exact ⟨⟨hmeta, h.tables.keys, h.tables.epochs, h.tables.challenges, h.tables.receipts,
    h.tables.nonces, h.tables.grants, h.tables.stores, h.tables.storeVersions, h.tables.accounts,
    h.tables.accountVersions, h.tables.transitions, h.tables.credentials, h.tables.cleanups,
    h.tables.events⟩,
    ⟨⟨a.epoch_keys, a.meta_epoch, a.challenge_key, a.receipt_challenge, a.nonce_challenge,
      a.nonce_receipt, a.grant_receipt, a.grant_challenge⟩,
    ⟨b.store_receipt, b.version_store, b.version_receipt, b.version_transition⟩,
    ⟨c.account_store, c.account_receipt, c.account_credential, c.account_active,
      c.transition_grant, c.transition_store, c.transition_account⟩,
    ⟨d.credential_account, d.credential_transition, d.account_version_account,
      d.account_version_credential, d.account_version_transition, d.cleanup_transition,
      d.cleanup_grant⟩⟩⟩

/-- The grant of a claimed cleanup was signed for its claim. -/
theorem Accepted.claimIdentity (h : Accepted env codec s db) {r : CleanupClaimRequest}
    {g : GrantUse} {x : Cleanup} (hg : g ∈ db.grants) (hm : g.matchesRequest r.grantUse)
    (hx : x ∈ db.cleanups) (hid : x.cleanupId = r.cleanupId)
    (hclaim : x.claimGrantId = some g.grantId) :
    ∃ receipt c m, loadReceiptById db g.receiptId = some receipt ∧
      loadChallenge db receipt.challengeId = some c ∧
      validateCleanupClaimIdentity env codec r c receipt = .ok m ∧
      validateCredentialCleanupContext env codec db s m false = .ok () := by
  obtain ⟨o, p, n, hgc⟩ := h.grantChain hg
  obtain ⟨t, o', value', account, a, before, d, hxc⟩ := h.cleanupChain hx
  obtain ⟨g', hg', hact, hkind, htarget, -⟩ := hxc.row.claim g.grantId hclaim
  rw [Option.mem_def, loadGrantUse_iff h.tables] at hg'
  have hgg : g' = g := eq_of_key_eq h.tables.grants.id_unique hg'.1 hg hg'.2
  subst hgg
  obtain ⟨value, hp, y, hy, hyt, hyv, -, -⟩ := hgc.cleanup h.tables hact
  have hyx : y = x := eq_of_key_eq h.tables.cleanups.id_unique hy hx
    (Uuid.eq_of_bytes (hyt.trans htarget))
  subst hyx
  have hr := hgc.receipt.challenge
  have hs := hgc.signed
  obtain ⟨hm1, hm2, hm3, hm4, hm5, hm6⟩ := hm
  refine ⟨o.receipt, o.challenge, o.manifest, ?_, ?_, ?_, ?_⟩
  · exact (loadReceiptById_iff h.tables).mpr ⟨hgc.receipt_mem, hgc.link.1⟩
  · exact (loadChallenge_iff h.tables).mpr ⟨hgc.challenge_mem, hgc.link.2⟩
  · simp only [validateCleanupClaimIdentity, bind_ok, orRefuse_ok, ensure_ok, pure_ok]
    refine ⟨o.manifest, hgc.challenge.manifest, value, by simp [cleanupManifest, hp], (), ⟨?_, ?_,
      hr.1, hr.2.1, ?_, ?_, ?_, ?_, ?_, ?_, ?_, ?_, ?_⟩, rfl⟩
    · rw [← hm1, hs.grant_id]
    · rw [← hm2, hgc.link.1]
    · rw [← hm3, hact]
    · rw [← hm3, hs.action]
    · rw [← hm4, hkind]
    · rw [← hm4, hs.target.1]
    · rw [← hm5, hs.target.2]
    · rw [← hm5, htarget, hid]
    · rw [← hm6, hs.manifest]
    · rw [← hm6, hs.manifest, hr.2.2.2.1]
    · rw [← hyv, hid]
  · exact hgc.challenge.cleanup (by rw [← hs.action, hact])

/-- A late failure moves the clock and replies with an error that is not an expiry. -/
theorem LateFailure.run {call : Call} (h : LateFailure env codec s call db) :
    ∃ at', db.metaRow.lastObservedAt < at' ∧
      runCall env codec s db call = (db.clocked at', some recoveryError) := by
  obtain ⟨r, rfl, ha, ⟨g, hg, hm, x, hx, hid, hclaim, d, hd, hdr⟩, hlt, hutc⟩ := h
  obtain ⟨receipt, c, m, hrec, hch, hident, hctx⟩ := ha.claimIdentity hg hm hx hid hclaim
  have hstate : x.state = .deleted := by
    have hshape := (ha.tables.cleanups.checks x hx).2.1
    unfold cleanupShape at hshape
    cases hst : x.state <;> simp_all
  have heff : effectiveTime db r.observedAt = .ok r.observedAt :=
    effectiveTime_ok.mpr ⟨by omega, (max_eq_right hlt.le).symm, hutc⟩
  have hgrant : loadGrantUse db r.grantUse.grantId = some g :=
    (loadGrantUse_iff ha.tables).mpr ⟨hg, hm.1⟩
  have hcleanup : loadCredentialCleanup db r.cleanupId = some x :=
    (loadCredentialCleanup_iff ha.tables).mpr ⟨hx, hid⟩
  have hclock : observeClockPair db r.observedAt = .ok (db.clocked r.observedAt) := by
    refine observeClockPair_ok.mpr ⟨ha.schema.clocked hlt.le (ha.clock ▸ hlt.le) ?_, rfl⟩
    have := hutc.2
    simp only [i64Max]
    omega
  have hreply : recoveredClaim env x g = .error recoveryError := by
    have hbad : utcMillis d = .error recoveryError := by simp [utcMillis, hdr, ensure]
    have hused := utcMillis_ok (ha.history.grants g hg).utc
    have hd : x.deletedAt = some d := hd
    simp [recoveredClaim, cleanupProjection, optUtcMillis, hused, hd, hbad, bind, Except.bind,
      Functor.map, Except.map]
  have hvalid : validateReadyTransaction env codec s db = .ok () := ha
  refine ⟨r.observedAt, hlt, ?_⟩
  have hrun : claimCredentialCleanup env codec s r db =
      .ok ⟨db.clocked r.observedAt, .error recoveryError⟩ := by
    simp only [claimCredentialCleanup, bind_ok]
    refine ⟨(), hvalid, ?_⟩
    simp only [hgrant, recoverClaim, commitClock, bind_ok, ensure_ok, orRefuse_ok, pure_ok]
    exact ⟨(), hm, receipt, hrec, c, hch, m, hident, x, hcleanup, (), ⟨hclaim, Or.inr hstate⟩, (),
      hctx, r.observedAt, heff, _, hclock, by rw [hreply]⟩
  simp only [runCall, hrun, settle]

theorem LateFailure.not_atomic {call : Call} (h : LateFailure env codec s call db) :
    ¬ErrorAtomic env codec s call db := by
  obtain ⟨at', hlt, hrun⟩ := h.run
  intro ha
  have herr : (runCall env codec s db call).2 = some recoveryError := by rw [hrun]
  rcases ha recoveryError herr with hsame | ⟨hcode, -⟩
  · rw [hrun] at hsame
    have := congrArg (fun x : Db => x.metaRow.lastObservedAt) hsame
    simp only [Db.clocked] at this
    omega
  · exact absurd hcode (by decide)

/-- **Every call is error-atomic but for a claim repeated after a deletion whose time cannot be
    read.**  Whatever the state and the call, an error leaves the rows as they were, or records the
    expiry of the challenge the request refers to, exactly when the late failure is excluded. -/
theorem errors_atomic_iff (s : Snapshot) (call : Call) (db : Db) :
    ErrorAtomic env codec s call db ↔ ¬LateFailure env codec s call db := by
  constructor
  · exact fun ha hl => hl.not_atomic ha
  · intro hl
    cases call with
    | createChallenge draw r => exact settle_atomic fun k hk => createChallenge_replies hk
    | verifyProof draw r => exact settle_atomic fun k hk => verifyProof_replies hk
    | enrollStore r => exact settle_atomic fun k hk => enrollStore_replies hk
    | prepareAccountTransition r =>
        exact settle_atomic fun k hk => prepareAccountTransition_replies hk
    | observe operation r => exact settle_atomic fun k hk => applyAccountObservation_replies hk
    | claimCredentialCleanup r => exact claim_atomic hl
    | applyCredentialCleanupDelete backend permit observedAt =>
        exact settle_atomic fun k hk => applyCredentialCleanupDelete_replies hk

/-! ## 8. A deletion whose time cannot be read -/

namespace Sample

def location : PlatformLocationMaterial := .unix 1 2 [104]

def locationBytes : Bytes := location.canonicalBytes.toOption.getD []

/-- The signed content of an enrollment. -/
def enrollment : ManifestContext × ManifestPayload :=
  ({ target := .store (uuid 40)
     storeId := some (uuid 40)
     accountId := none
     accountBindingSha256 := none
     policySha256 := none
     effectId := none },
    .storeEnroll ⟨uuid 41, uuid 40, ⟨1, Nat.one_pos, one_lt_u64⟩, digest 42, platform.sha256 locationBytes⟩)

/-- The home the first process bootstrapped, confirmed. -/
def ready : Db := bootstrapped platform realm 5 6 (some 6)

/-- The owner's proof of a challenge. -/
def proofOf (c : Challenge) : AuthorizationProof :=
  ⟨c.challengeId, c.keyId, c.signingSha256,
    ⟨be 64 (checksum (realm.ownerPublicKey.bytes ++ c.signingPayload)), length_be _ _⟩⟩

def one : NonZeroU64 := ⟨1, Nat.one_pos, one_lt_u64⟩

def two : NonZeroU64 := ⟨2, Nat.two_pos, two_lt_u64⟩

def three : NonZeroU64 := ⟨3, by decide, by decide⟩

def incoming : EndpointSnapshot := ⟨.imap, "m.fi", .dns, "m.fi", 993, .implicitTls⟩

def binding : Digest :=
  ((accountBindingSha256 platform
    ⟨"a", "a@m.fi", "a", endpointFromSnapshot incoming, none, .password⟩).toOption).getD (digest 0)

/-- A new account. -/
def account : AccountSnapshot where
  displayId := "a"
  accountId := uuid 70
  generation := one
  email := "a@m.fi"
  username := "a"
  credentialKind := .password
  credentialId := uuid 71
  bindingVersion := 1
  bindingSha256 := binding
  bindingState := .proposed
  credentialState := .reentryRequired
  stateReason := some .credentialReentryRequired
  incoming := incoming
  outgoing := none
  cleanupIds := []

/-- The account with its credential set. -/
def bound : AccountSnapshot :=
  { account with
    generation := two
    bindingState := .authorized
    credentialState := .bound
    stateReason := none }

/-- The pair of the store at a generation. -/
def cas (generation : NonZeroU64) (content : Nat) : ConfigCas :=
  ⟨uuid 40, generation, digest content, platform.sha256 locationBytes⟩

def creation : AccountMutationManifest :=
  ⟨uuid 80, cas one 42, none, some account, two, digest 43, []⟩

/-- The credential of the account is set, through a transition. -/
def setting (id : Nat) : AccountMutationManifest :=
  ⟨uuid id, cas two 43, some account, some bound, three, digest 44, []⟩

/-- Where the credential of the account is kept. -/
def locator : Bytes :=
  expectedDeleteOnlyLocator platform realm.realmId (uuid 40) account .activeV2

def removal : AccountMutationManifest :=
  ⟨uuid 83, cas two 43, some account, none, three, digest 44,
    [⟨uuid 75, .activeV2, platform.sha256 locator, .provisional⟩]⟩

/-- The grant of the manifest at a place of the list below. -/
def grantAt (i : Nat) (action : SensitiveAction) (targetKind : TargetKind) (target : Bytes)
    (h : action.targetKind = targetKind ∧ validTargetShape targetKind target) : GrantUseRequest :=
  ⟨uuid (100 + i), uuid (120 + i), action, targetKind, target, platform.sha256 [UInt8.ofNat i], h⟩

theorem storeTarget : SensitiveAction.storeEnroll.targetKind = .store ∧
    validTargetShape .store (uuid 40).bytes := by
  decide +kernel

/-- The request to remove the account. -/
def remove : PrepareRequest where
  grantUse := grantAt 4 .accountRemove .account (uuid 70).bytes (by decide +kernel)
  transitionId := uuid 83
  storeId := uuid 40
  accountId := uuid 70
  kind := .accountRemove
  beforeConfigSha256 := digest 43
  afterConfigSha256 := digest 44
  expectedGeneration := two
  nextGeneration := three
  displayIdSha256 := displayIdDigest platform "a"
  accountGeneration := one
  credentialId := uuid 71
  bindingSha256 := binding
  cleanupReservations := [⟨uuid 75, .activeV2, locator, platform.sha256 locator⟩]
  observedAt := 900

/-- The cleanup of the credential of the removed account. -/
def cleaning : CredentialCleanupManifest :=
  ⟨uuid 75, .activeV2, platform.sha256 locator,
    cleanupTombstone platform realm.realmId (uuid 75) (transitionRow platform remove 900)
      (platform.sha256 [4]) account .activeV2 (platform.sha256 locator) 900,
    some (uuid 83), .ready⟩

/-- The context of a manifest about the account. -/
def about (target : ManifestTarget) : ManifestContext :=
  ⟨target, some (uuid 40), some (uuid 70), some binding, none, none⟩

/-- What the owner signs. -/
def manifests : List (ManifestContext × ManifestPayload) :=
  [enrollment, (about (.account (uuid 70)), .accountCreate creation),
    (about (.credential (uuid 71)), .credentialSet ⟨setting 81, digest 91⟩),
    (about (.credential (uuid 71)), .credentialSet ⟨setting 82, digest 91⟩),
    (about (.account (uuid 70)), .accountRemove removal),
    (about (.cleanup (uuid 75)), .credentialCleanup cleaning),
    (⟨.store (uuid 45), some (uuid 45), none, none, none, none⟩,
      .storeEnroll ⟨uuid 46, uuid 45, one, digest 47, digest 48⟩)]

/-- A codec that writes the place of a manifest in the list. -/
def listCodec : ManifestCodec where
  encode c p :=
    match manifests.findIdx? (· = (c, p)) with
    | some i => .ok [UInt8.ofNat i]
    | none => .error recoveryError
  decode b :=
    match b.head?.bind fun i => manifests[i.toNat]? with
    | some x => if b.length = 1 then .ok x else .error recoveryError
    | none => .error recoveryError

def manifestAt (i : Nat) : ActionManifest :=
  let x := manifests.getD i enrollment
  ⟨x.1, x.2, [UInt8.ofNat i], platform.sha256 [UInt8.ofNat i]⟩

/-- A manifest challenged at a time, and proved at another. -/
def signedAt (db : Db) (i : Nat) (at' verified : Int) : Db :=
  let m := manifestAt i
  match AuthorizationPayload.new platform m
    (challengeContext realm m (uuid (100 + i)) (digest (100 + i)) at' (at' + 1000)) with
  | .error _ => db
  | .ok p =>
      let row := challengeRow m p (manifestContextDigest platform realm m)
      let c := { row with createdEventSequence := db.sequenceHighWater + 1 }
      challengeProved platform (challengeCreated platform db row at') c
        (receiptRow platform c (proofOf c) (uuid (120 + i)) verified) verified

/-- A manifest challenged at a time, and proved right after. -/
def signed (db : Db) (i : Nat) (at' : Int) : Db := signedAt db i at' (at' + 1)

def enrollRequest : EnrollStoreRequest where
  grantUse := grantAt 0 .storeEnroll .store (uuid 40).bytes storeTarget
  storeId := uuid 40
  locationMaterial := location
  locationBytes := locationBytes
  locationSha256 := platform.sha256 locationBytes
  configGeneration := one
  configSha256 := digest 42
  observedAt := 300

/-- The request to create the account. -/
def create : PrepareRequest where
  grantUse := grantAt 1 .accountCreate .account (uuid 70).bytes (by decide +kernel)
  transitionId := uuid 80
  storeId := uuid 40
  accountId := uuid 70
  kind := .accountCreate
  beforeConfigSha256 := digest 42
  afterConfigSha256 := digest 43
  expectedGeneration := one
  nextGeneration := two
  displayIdSha256 := displayIdDigest platform "a"
  accountGeneration := one
  credentialId := uuid 71
  bindingSha256 := binding
  cleanupReservations := []
  observedAt := 500

/-- A home with a store. -/
def withStore : Db := storeEnrolled platform (signed ready 0 100) enrollRequest (uuid 120) 300

/-- The account is being created. -/
def creating : Db :=
  transitionPrepared platform (signed withStore 1 400) create [accountRow create (uuid 121) 500]
    (platform.sha256 locationBytes) (uuid 121) 500

/-- A prepared transition, carried through. -/
def carried (db : Db) (r : PrepareRequest) (receiptId : ReceiptId) (at' : Int) : Db :=
  transitionFinalized platform
    (configCommitted platform db (transitionRow platform r r.observedAt)
      (accountRow create (uuid 121) 500) (storeRow enrollRequest (uuid 120) 300) receiptId at')
    (transitionRow platform r r.observedAt) receiptId (at' + 100)

/-- The account is created. -/
def withAccount : Db := carried creating create (uuid 121) 600

/-- The account is removed, and the cleanup of its credential is ready. -/
def removed : Db :=
  carried (transitionPrepared platform (signed withAccount 4 800) remove
    (withAccount.accounts.map (blockAccount remove (uuid 124) 900)) (platform.sha256 locationBytes)
    (uuid 124) 900) remove (uuid 124) 1000

/-- The claim of the cleanup, at a time. -/
def claim (observed : Int) : CleanupClaimRequest :=
  ⟨grantAt 5 .credentialCleanup .cleanup (uuid 75).bytes (by decide +kernel), uuid 75, observed⟩

def claimed : Db := cleanupClaimed platform (signed removed 5 1200) (claim 1300) (uuid 125) 1300

/-- The permit of the claim. -/
def permit : CleanupDeletePermit :=
  ⟨uuid 75, uuid 105, uuid 125, (grantUseRow platform (claim 1300).grantUse 1300).useSha256,
    locator⟩

/-- The cleanup is deleted at a time past the calendar, with the clock as it was. -/
def unreadable : Db :=
  { cleanupDeleted platform claimed permit 8210266876800000 with metaRow := claimed.metaRow }

/-- A claim repeated there moves the clock, and fails. -/
theorem claim_of_an_unreadable_deletion :
    Accepted platform listCodec realm unreadable ∧
    ¬ErrorAtomic platform listCodec realm (.claimCredentialCleanup (claim 1400)) unreadable := by
  have hstate : validateReadyTransaction platform listCodec realm unreadable = .ok () ∧
      (∃ g ∈ unreadable.grants, g.matchesRequest (claim 1400).grantUse ∧
        ∃ x ∈ unreadable.cleanups, x.cleanupId = uuid 75 ∧ x.claimGrantId = some g.grantId ∧
          ∃ d ∈ x.deletedAt, ¬Representable d) ∧
      unreadable.metaRow.lastObservedAt < 1400 := by decide +kernel
  obtain ⟨hacc, hrows, hclock⟩ := hstate
  have hlate : LateFailure platform listCodec realm (.claimCredentialCleanup (claim 1400))
      unreadable := ⟨claim 1400, rfl, hacc, hrows, hclock, by decide⟩
  exact ⟨hacc, hlate.not_atomic⟩

end Sample

end Kirje.Authority
