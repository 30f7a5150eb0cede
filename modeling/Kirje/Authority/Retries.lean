import Kirje.Authority.Folding
import Kirje.Authority.Lasting

/-
  File:      Kirje/Authority/Retries.lean
  Subject:   An exact retry is idempotent at any later time.

  The retry paths compare a request with the rows its first call left.  These rows
  last (`Run.lasts`), and what the paths read besides them is what acceptance
  promises; so after any run, in an accepted state, the same request is answered from
  them and only the clock moves.

  * `Later`: a later state and a time presented in it.
  * `exact_retry`: **the retries of all calls.**
-/

namespace Kirje.Authority

open Base

variable {env : Platform} {codec : ManifestCodec} {s : Snapshot} {db db' db'' : Db}
  {observed at' : Int}

/-! ## 1. Later states -/

/-- **A later moment**: the end of a run, accepted, and a time presented then that the check of the
    requests and the clock accept. -/
structure Later (env : Platform) (codec : ManifestCodec) (s : Snapshot) (db db' : Db)
    (observed at' : Int) : Prop where
  run : Run env codec db db'
  accepted : Accepted env codec s db'
  input : 0 ≤ observed ∧ Representable observed
  time : effectiveTime db' observed = .ok at'

section Later

variable (hl : Later env codec s db db' observed at')
include hl

theorem Later.timeOk : TimeOk db' at' := timeOk_of_effectiveTime hl.time

theorem Later.clocked : SchemaOk (db'.clocked at') := by
  have hle := hl.timeOk.monotone
  refine hl.accepted.schema.clocked hle ?_ (le_i64Max hl.timeOk.utc)
  rw [hl.accepted.clock]
  exact hle

theorem Later.observeClockPair : observeClockPair db' at' = .ok (db'.clocked at') :=
  observeClockPair_ok.mpr ⟨hl.clocked, rfl⟩

theorem Later.commitClock {α : Type} (reply : Result α) :
    commitClock db' at' reply = .ok ⟨db'.clocked at', reply⟩ := by
  simp only [Authority.commitClock, bind_ok, pure_ok]
  exact ⟨_, hl.observeClockPair, rfl⟩

end Later

/-! ## 2. Proofs -/

/-- The receipt a proof was answered from. -/
structure AnsweredBy (db : Db) (r : VerifyProofRequest) (p : ReceiptProjection) (c : Challenge)
    (receipt : Receipt) : Prop where
  of_challenge : c ∈ db.challenges ∧ c.challengeId = r.proof.challengeId
  of_receipt : receipt ∈ db.receipts ∧ receipt.challengeId = c.challengeId
  proof : receipt.canonicalProof = r.proof.canonicalBytes
  names : p.receiptId = receipt.receiptId ∧ p.receiptSha256 = receipt.receiptSha256
  times : utcMillis receipt.verifiedAt = .ok p.verifiedAt ∧
    utcMillis receipt.expiresAt = .ok p.expiresAt

theorem receiptProjection_names {c : Challenge} {receipt : Receipt} {p : ReceiptProjection}
    (h : receiptProjection env db c receipt at' = .ok p) :
    (p.receiptId = receipt.receiptId ∧ p.receiptSha256 = receipt.receiptSha256) ∧
      utcMillis receipt.verifiedAt = .ok p.verifiedAt ∧
      utcMillis receipt.expiresAt = .ok p.expiresAt := by
  simp only [receiptProjection, bind_ok, orRefuse_ok, pure_ok] at h
  obtain ⟨_, -, v, hv, e, he, rfl⟩ := h
  exact ⟨⟨rfl, rfl⟩, hv, he⟩

theorem verifyProof_answered {draw : Option ReceiptId} {r : VerifyProofRequest}
    {p : ReceiptProjection} (h : verifyProof env codec s draw r db = .ok ⟨db', .ok p⟩) :
    validateProofRequest r = .ok () ∧ ∃ c receipt, AnsweredBy db' r p c receipt := by
  simp only [verifyProof, bind_ok, orRefuse_ok] at h
  obtain ⟨_, hr, _, ha, c, hc, at', ht, h⟩ := h
  have haccepted : Accepted env codec s db := ha
  have htab := haccepted.tables
  rw [loadChallenge_iff htab] at hc
  refine ⟨hr, ?_⟩
  cases hrec : loadReceiptForChallenge db c.challengeId with
  | some receipt =>
      rw [hrec] at h
      simp only [recoverReceipt, bind_ok, ensure_ok, observeClockPair_ok, pure_ok, Commit.mk.injEq,
        Except.ok.injEq] at h
      obtain ⟨_, hproof, _, ⟨-, rfl⟩, x, hx, rfl, rfl⟩ := h
      rw [loadReceiptForChallenge_iff htab] at hrec
      obtain ⟨hnames, htimes⟩ := receiptProjection_names hx
      exact ⟨c, receipt, hc, hrec, hproof, hnames, htimes⟩
  | none =>
      rw [hrec] at h
      cases hst : c.state with
      | expired =>
          rw [hst] at h
          simp [commitClock] at h
      | pending =>
          rw [hst] at h
          simp only at h
          split at h
          · simp [commitPendingExpiry] at h
          · simp only [authorize, bind_ok, orRefuse_ok, pure_ok, Commit.mk.injEq,
              Except.ok.injEq] at h
            obtain ⟨_, hfirst, receiptId, -, db₁, hins, x, hx, rfl, rfl⟩ := h
            obtain ⟨rfl, -⟩ := insertReceipt_ok hins
            obtain ⟨hnames, htimes⟩ := receiptProjection_names hx
            refine ⟨{ c with state := .authorized }, receiptRow env c r.proof receiptId at',
              ⟨?_, hc.2⟩, ⟨?_, rfl⟩, rfl, hnames, htimes⟩
            · exact mem_update.mpr ⟨c, hc.1, by simp [hst]⟩
            · exact List.mem_append_right _ List.mem_cons_self
      | authorized =>
          rw [hst] at h
          cases h
      | invalidated =>
          rw [hst] at h
          cases h

/-- **A proof repeated** is answered from its receipt. -/
theorem verifyProof_retry {draw draw' : Option ReceiptId} {r : VerifyProofRequest}
    {p : ReceiptProjection} (h : verifyProof env codec s draw r db = .ok ⟨db', .ok p⟩)
    (hl : Later env codec s db' db'' observed at') :
    ∃ p', verifyProof env codec s draw' { r with observedAt := observed } db'' =
        .ok ⟨db''.clocked at', .ok p'⟩ ∧
      p'.receiptId = p.receiptId ∧ p'.receiptSha256 = p.receiptSha256 ∧
      p'.verifiedAt = p.verifiedAt ∧ p'.expiresAt = p.expiresAt := by
  obtain ⟨hr, c, receipt, hans⟩ := verifyProof_answered h
  have htab := hl.accepted.tables
  have hlasts := Run.lasts hl.run
  obtain ⟨c', hc', hcont⟩ := hlasts.challenges c hans.of_challenge.1
  have hreceipt := hlasts.receipts hans.of_receipt.1
  have hid : c'.challengeId = c.challengeId := by
    obtain ⟨_, rfl⟩ := hcont
    rfl
  have hload : loadChallenge db'' r.proof.challengeId = some c' :=
    (loadChallenge_iff htab).mpr ⟨hc', hid.trans hans.of_challenge.2⟩
  have hrec : loadReceiptForChallenge db'' c'.challengeId = some receipt :=
    (loadReceiptForChallenge_iff htab).mpr ⟨hreceipt, hans.of_receipt.2.trans hid.symm⟩
  obtain ⟨m, pay, hchain⟩ := (hl.accepted.history.challenges c' hc').chain
  have hvalid : validateProofRequest { r with observedAt := observed } = .ok () := by
    simp only [validateProofRequest, inputUtcMillis, bind_ok, ensure_ok, exists_const] at hr ⊢
    exact ⟨hl.input.1, hl.input.2, hr.2.2⟩
  obtain ⟨p', hp'⟩ : ∃ p', receiptProjection env (db''.clocked at') c' receipt at' = .ok p' := by
    simp only [receiptProjection, bind_ok, orRefuse_ok, pure_ok]
    exact ⟨_, pay, hchain.payload, _, hans.times.1, _, hans.times.2, rfl⟩
  obtain ⟨hnames, htimes⟩ := receiptProjection_names hp'
  refine ⟨p', ?_, hnames.1.trans hans.names.1.symm, hnames.2.trans hans.names.2.symm,
    Except.ok.inj (htimes.1.symm.trans hans.times.1),
    Except.ok.inj (htimes.2.symm.trans hans.times.2)⟩
  simp only [verifyProof, bind_ok, orRefuse_ok]
  refine ⟨(), hvalid, (), hl.accepted, c', hload, at', hl.time, ?_⟩
  simp only [hrec, recoverReceipt, bind_ok, ensure_ok, pure_ok]
  exact ⟨(), hans.proof, _, hl.observeClockPair, p', hp', rfl⟩

/-! ## 3. Enrollments -/

/-- The rows an enrollment was answered from. -/
structure EnrolledBy (env : Platform) (codec : ManifestCodec) (db : Db) (r : EnrollStoreRequest)
    (g : GrantUse) (receipt : Receipt) (c : Challenge) (e : StoreEnrollmentContext) (x : Store)
    (v : StoreVersion) : Prop where
  of_grant : g ∈ db.grants ∧ g.matchesRequest r.grantUse
  of_receipt : receipt ∈ db.receipts ∧ receipt.receiptId = r.grantUse.receiptId
  of_challenge : c ∈ db.challenges ∧ c.challengeId = receipt.challengeId
  identity : validateEnrollmentIdentity env codec r c receipt = .ok e
  of_store : x ∈ db.stores ∧ x.matchesRequest r e
  of_version : v ∈ db.storeVersions ∧ InitialVersion v x e receipt.receiptId

/-- The rows of an enrollment last. -/
theorem EnrolledBy.lasts {r : EnrollStoreRequest} {g : GrantUse} {receipt : Receipt} {c : Challenge}
    {e : StoreEnrollmentContext} {x : Store} {v : StoreVersion}
    (h : EnrolledBy env codec db r g receipt c e x v) (hl : Lasts db db') :
    ∃ c' x', EnrolledBy env codec db' r g receipt c' e x' v := by
  obtain ⟨c', hc', _, rfl⟩ := hl.challenges c h.of_challenge.1
  obtain ⟨x', hx', ⟨_, _, _, _, rfl⟩, -⟩ := hl.stores x h.of_store.1
  have hv := h.of_version.2
  exact ⟨_, _, ⟨hl.grants h.of_grant.1, h.of_grant.2⟩, ⟨hl.receipts h.of_receipt.1, h.of_receipt.2⟩,
    ⟨hc', h.of_challenge.2⟩, h.identity, ⟨hx', h.of_store.2⟩, hl.storeVersions h.of_version.1,
    hv.utc, hv.store_id, hv.location, hv.pair, hv.receipt, hv.created_at⟩

theorem enrollmentIdentity_names {r : EnrollStoreRequest} {c : Challenge} {receipt : Receipt}
    {e : StoreEnrollmentContext} (h : validateEnrollmentIdentity env codec r c receipt = .ok e) :
    r.storeId = e.storeId ∧ r.locationSha256 = e.locationSha256 ∧
      r.configGeneration = e.configGeneration ∧ r.configSha256 = e.configSha256 := by
  simp only [validateEnrollmentIdentity, bind_ok, orRefuse_ok, ensure_ok, pure_ok] at h
  obtain ⟨m, -, e', -, canonical, -, _, hsame, rfl⟩ := h
  obtain ⟨-, -, -, -, -, -, -, -, -, h₁, h₂, h₃, h₄, -⟩ := hsame
  exact ⟨h₁, h₂, h₃, h₄⟩

/-- The rows of a first enrollment. -/
theorem enrolled_rows {r : EnrollStoreRequest} {receipt : Receipt} {c : Challenge}
    {e : StoreEnrollmentContext} (hrec : receipt ∈ db.receipts ∧ receipt.receiptId = r.grantUse.receiptId)
    (hc : c ∈ db.challenges ∧ c.challengeId = receipt.challengeId)
    (hid : validateEnrollmentIdentity env codec r c receipt = .ok e) (ht : TimeOk db at') :
    EnrolledBy env codec (storeEnrolled env db r receipt.receiptId at') r
      (grantUseRow env r.grantUse at') receipt c e (storeRow r receipt.receiptId at')
      (storeVersionRow r receipt.receiptId at') := by
  obtain ⟨h₁, h₂, h₃, h₄⟩ := enrollmentIdentity_names hid
  rw [storeEnrolled, appendEvents_eq]
  exact
    { of_grant := ⟨List.mem_append_right _ List.mem_cons_self, rfl, rfl, rfl, rfl, rfl, rfl⟩
      of_receipt := hrec
      of_challenge := hc
      identity := hid
      of_store := ⟨List.mem_append_right _ List.mem_cons_self, rfl, rfl, rfl, hrec.2, h₁, h₂⟩
      of_version := ⟨List.mem_append_right _ List.mem_cons_self, ht.utc, ⟨rfl, h₁⟩, ⟨rfl, h₂⟩,
        ⟨h₃, h₄⟩, ⟨rfl, rfl⟩, rfl⟩ }

theorem enrollStore_answered {r : EnrollStoreRequest} {p : EnrolledStoreProjection}
    (h : enrollStore env codec s r db = .ok ⟨db', .ok p⟩) :
    validateEnrollStoreRequest env r = .ok () ∧ ∃ g receipt c e x v,
      EnrolledBy env codec db' r g receipt c e x v ∧ enrolledStoreProjection v = .ok p := by
  simp only [enrollStore, bind_ok] at h
  obtain ⟨_, hr, _, ha, h⟩ := h
  have haccepted : Accepted env codec s db := ha
  have htab := haccepted.tables
  refine ⟨hr, ?_⟩
  cases hg : loadGrantUse db r.grantUse.grantId with
  | some g =>
      rw [hg] at h
      rw [loadGrantUse_iff htab] at hg
      simp only [recoverEnrollment, bind_ok, ensure_ok, orRefuse_ok] at h
      obtain ⟨_, hm, receipt, hrec, c, hc, e, hid, x, hx, _, hsame, v, hv, _, hinit, at', -, hk⟩ := h
      obtain ⟨hk, -⟩ := commitClock_ok hk
      obtain ⟨rfl, hproj⟩ := Commit.mk.inj hk
      rw [loadReceiptById_iff htab] at hrec
      rw [loadChallenge_iff htab] at hc
      rw [loadRegisteredStoreByReceipt_iff htab] at hx
      rw [loadStoreVersionByReceipt_iff htab] at hv
      exact ⟨g, receipt, c, e, x, v, ⟨⟨hg.1, hm⟩, hrec, hc, hid, ⟨hx.1, hsame⟩, hv.1, hinit⟩,
        hproj.symm⟩
  | none =>
      rw [hg] at h
      simp only [useEnrollment, bind_ok, orRefuse_ok] at h
      obtain ⟨receipt, hrec, c, hc, e, hid, at', ht, h⟩ := h
      rw [loadReceiptById_iff htab] at hrec
      rw [loadChallenge_iff htab] at hc
      cases hst : c.state with
      | expired =>
          rw [hst] at h
          simp [commitClock] at h
      | authorized =>
          rw [hst] at h
          simp only at h
          split at h
          · simp [commitReceiptExpiry] at h
          · simp only [registerStore, bind_ok, ensure_ok, pure_ok, Commit.mk.injEq] at h
            obtain ⟨_, -, db₁, hins, rfl, hproj⟩ := h
            obtain ⟨rfl, -⟩ := insertStore_ok hins
            exact ⟨_, receipt, c, e, _, _,
              enrolled_rows hrec hc hid (timeOk_of_effectiveTime ht), hproj⟩
      | pending =>
          rw [hst] at h
          cases h
      | invalidated =>
          rw [hst] at h
          cases h

/-- **An enrollment repeated** shows the version it registered. -/
theorem enrollStore_retry {r : EnrollStoreRequest} {p : EnrolledStoreProjection}
    (h : enrollStore env codec s r db = .ok ⟨db', .ok p⟩)
    (hl : Later env codec s db' db'' observed at') :
    enrollStore env codec s { r with observedAt := observed } db'' =
      .ok ⟨db''.clocked at', .ok p⟩ := by
  obtain ⟨hr, g, receipt, c, e, x, v, hrows, hproj⟩ := enrollStore_answered h
  obtain ⟨c', x', hrows⟩ := hrows.lasts (Run.lasts hl.run)
  have htab := hl.accepted.tables
  have hvalid : validateEnrollStoreRequest env { r with observedAt := observed } = .ok () := by
    simp only [validateEnrollStoreRequest, inputUtcMillis, bind_ok, ensure_ok, exists_const] at hr ⊢
    exact ⟨hl.input.2, hr.2⟩
  have hg : loadGrantUse db'' r.grantUse.grantId = some g :=
    (loadGrantUse_iff htab).mpr ⟨hrows.of_grant.1, hrows.of_grant.2.1⟩
  have hx : loadRegisteredStoreByReceipt db'' receipt.receiptId = some x' := by
    refine (loadRegisteredStoreByReceipt_iff htab).mpr ⟨hrows.of_store.1, ?_⟩
    exact hrows.of_store.2.2.2.2.1.trans hrows.of_receipt.2.symm
  have hv : loadStoreVersionByReceipt db'' receipt.receiptId = some v :=
    (loadStoreVersionByReceipt_iff htab).mpr
      ⟨hrows.of_version.1, hrows.of_version.2.receipt.1⟩
  simp only [enrollStore, bind_ok]
  refine ⟨(), hvalid, (), hl.accepted, ?_⟩
  simp only [hg, recoverEnrollment, bind_ok, ensure_ok, orRefuse_ok]
  refine ⟨(), hrows.of_grant.2, receipt, (loadReceiptById_iff htab).mpr hrows.of_receipt, c',
    (loadChallenge_iff htab).mpr hrows.of_challenge, e, hrows.identity, x', hx, (),
    hrows.of_store.2, v, hv, (), hrows.of_version.2, at', hl.time, ?_⟩
  rw [hproj]
  exact hl.commitClock _

/-! ## 4. Transitions -/

/-- A projection shows the state of its transition. -/
theorem transitionProjection_names {t : Transition} {p : TransitionProjection}
    (h : transitionProjection env codec db t = .ok p) :
    p.transitionId = t.transitionId ∧ p.transitionState = t.state := by
  have hshown : ∀ {account store generation accountGeneration},
      projectionForState t t.state account store generation accountGeneration = .ok p →
        p.transitionId = t.transitionId ∧ p.transitionState = t.state := by
    intro _ _ _ _ hp
    simp only [projectionForState, bind_ok, pure_ok] at hp
    obtain ⟨_, -, rfl⟩ := hp
    exact ⟨rfl, rfl⟩
  simp only [transitionProjection, bind_ok, orRefuse_ok, ensure_ok] at h
  obtain ⟨a, -, generation, -, _, -, h⟩ := h
  cases hst : t.state with
  | prepared =>
      simp only [hst, bind_ok, openProjection, ensure_ok] at h
      obtain ⟨_, -, _, -, h⟩ := h
      exact hst ▸ hshown (hst ▸ h)
  | configCommitted =>
      simp only [hst, bind_ok, openProjection, ensure_ok] at h
      obtain ⟨_, -, _, -, h⟩ := h
      exact hst ▸ hshown (hst ▸ h)
  | finalized =>
      simp only [hst] at h
      exact hst ▸ hshown (hst ▸ h)
  | aborted =>
      simp only [hst] at h
      exact hst ▸ hshown (hst ▸ h)
  | recoveryRequired =>
      simp only [hst, bind_ok, recoveryProjection, ensure_ok] at h
      obtain ⟨_, -, _, -, h⟩ := h
      exact hst ▸ hshown (hst ▸ h)

/-- A reply shows the latest state of a transition. -/
def ShowsLatest (db : Db) (id : TransitionId) (p : TransitionProjection) : Prop :=
  ∃ t ∈ db.transitions, t.transitionId = id ∧ p.transitionId = id ∧ p.transitionState = t.state

/-- The rows a preparation was answered from. -/
structure PreparedBy (env : Platform) (codec : ManifestCodec) (db : Db) (r : PrepareRequest)
    (g : GrantUse) (receipt : Receipt) (c : Challenge) (t : Transition) : Prop where
  of_grant : g ∈ db.grants ∧ g.matchesRequest r.grantUse
  of_receipt : receipt ∈ db.receipts ∧ receipt.receiptId = g.receiptId
  of_challenge : c ∈ db.challenges ∧ c.challengeId = receipt.challengeId
  identity : validateAccountPrepareIdentity env codec r c receipt = .ok ()
  of_transition : t ∈ db.transitions
  same : t.transitionId = r.transitionId ∧ t.grantId = r.grantUse.grantId ∧
    t.storeId = r.storeId ∧ t.accountId = r.accountId ∧ t.kind = r.kind ∧
    t.beforeConfigSha256 = r.beforeConfigSha256 ∧ t.afterConfigSha256 = r.afterConfigSha256 ∧
    t.expectedGeneration = r.expectedGeneration ∧ t.nextGeneration = r.nextGeneration ∧
    t.transitionSha256 = accountTransitionDigest env r t.preparedAt
  reserved : ∀ x ∈ r.cleanupReservations, ∃ y ∈ db.cleanups, y.cleanupId = x.cleanupId ∧
    y.transitionId = some t.transitionId ∧ y.locatorKind = x.locatorKind ∧
    y.locatorMaterial = x.locatorMaterial ∧ y.locatorSha256 = x.locatorSha256

/-- The identity of a preparation does not depend on the state of the challenge, nor on the time
    presented. -/
theorem prepareIdentity_congr {r : PrepareRequest} {c c' : Challenge} {receipt : Receipt}
    (hcont : c.Continues c') (observed : Int)
    (h : validateAccountPrepareIdentity env codec r c receipt = .ok ()) :
    validateAccountPrepareIdentity env codec { r with observedAt := observed } c' receipt =
      .ok () := by
  obtain ⟨_, rfl⟩ := hcont
  simp only [validateAccountPrepareIdentity, bind_ok, orRefuse_ok, ensure_ok] at h ⊢
  obtain ⟨value, hv, snapshot, hs, target, ht, _, hg, hp⟩ := h
  refine ⟨value, hv, snapshot, hs, target, ht, (), ?_, ?_⟩
  · exact ⟨hg.grant_id, hg.receipt_id, hg.challenge_id, hg.receipt_grant, hg.action, hg.target_kind,
      hg.target_id, hg.manifest⟩
  · exact ⟨hp.transition_id, hp.store_id, hp.account_id, hp.before_config, hp.after_config,
      hp.expected_generation, hp.next_generation, hp.display_id, hp.account_generation,
      hp.credential_id, hp.binding, hp.cleanup⟩

/-- The rows of a preparation last. -/
theorem PreparedBy.lasts {r : PrepareRequest} {g : GrantUse} {receipt : Receipt} {c : Challenge}
    {t : Transition} (h : PreparedBy env codec db r g receipt c t) (hl : Lasts db db') :
    ∃ c' t', PreparedBy env codec db' r g receipt c' t' := by
  obtain ⟨c', hc', hcont⟩ := hl.challenges c h.of_challenge.1
  have hid := prepareIdentity_congr hcont r.observedAt h.identity
  obtain ⟨_, rfl⟩ := hcont
  obtain ⟨t', ht', hadv⟩ := hl.transitions t h.of_transition
  obtain ⟨_, _, _, _, rfl⟩ := hadv.same
  refine ⟨_, _, ⟨hl.grants h.of_grant.1, h.of_grant.2⟩,
    ⟨hl.receipts h.of_receipt.1, h.of_receipt.2⟩, ⟨hc', h.of_challenge.2⟩, hid, ht', h.same,
    fun x hx => ?_⟩
  obtain ⟨y, hy, hsame⟩ := h.reserved x hx
  obtain ⟨y', hy', hadv'⟩ := hl.cleanups y hy
  obtain ⟨_, _, _, rfl⟩ := hadv'.same
  exact ⟨_, hy', hsame⟩

/-- The rows of a first preparation. -/
theorem prepared_rows {r : PrepareRequest} {receipt : Receipt} {c : Challenge}
    {accounts : List Account} {location : Digest}
    (hrec : receipt ∈ db.receipts ∧ receipt.receiptId = r.grantUse.receiptId)
    (hc : c ∈ db.challenges ∧ c.challengeId = receipt.challengeId)
    (hid : validateAccountPrepareIdentity env codec r c receipt = .ok ()) :
    PreparedBy env codec (transitionPrepared env db r accounts location receipt.receiptId at') r
      (grantUseRow env r.grantUse at') receipt c (transitionRow env r at') := by
  rw [transitionPrepared, appendEvents_eq]
  refine
    { of_grant := ⟨List.mem_append_right _ List.mem_cons_self, rfl, rfl, rfl, rfl, rfl, rfl⟩
      of_receipt := hrec
      of_challenge := hc
      identity := hid
      of_transition := List.mem_append_right _ List.mem_cons_self
      same := ⟨rfl, rfl, rfl, rfl, rfl, rfl, rfl, rfl, rfl, rfl⟩
      reserved := fun x hx => ⟨cleanupRow r.transitionId at' x, ?_, rfl, rfl, rfl, rfl, rfl⟩ }
  exact List.mem_append_right _ (List.mem_map_of_mem hx)

theorem prepareAccountTransition_answered {r : PrepareRequest} {p : TransitionProjection}
    (h : prepareAccountTransition env codec s r db = .ok ⟨db', .ok p⟩) :
    ∃ g receipt c t, PreparedBy env codec db' r g receipt c t := by
  simp only [prepareAccountTransition, bind_ok] at h
  obtain ⟨_, ha, at', ht, h⟩ := h
  have haccepted : Accepted env codec s db := ha
  have htab := haccepted.tables
  cases hg : loadGrantUse db r.grantUse.grantId with
  | some g =>
      rw [hg] at h
      rw [loadGrantUse_iff htab] at hg
      simp only [recoverPrepare, validatePrepareRetryIdentity, bind_ok, ensure_ok, orRefuse_ok] at h
      obtain ⟨_, hm, t, htg, _, ⟨g', hg', receipt, hrec, c, hc, _, hid, _, hsame, _, -, hstored⟩,
        proj, -, hk⟩ := h
      obtain ⟨hk, -⟩ := commitClock_ok hk
      obtain ⟨rfl, -⟩ := Commit.mk.inj hk
      rw [loadAccountTransitionByGrant_iff htab] at htg
      rw [loadGrantUse_iff htab] at hg'
      rw [loadReceiptById_iff htab] at hrec
      rw [loadChallenge_iff htab] at hc
      have hgg : g' = g :=
        eq_of_key_eq htab.grants.id_unique hg'.1 hg.1 (hg'.2.trans htg.2)
      subst hgg
      refine ⟨g', receipt, c, t, ⟨hg.1, hm⟩, hrec, hc, isOk_unit hid, htg.1, hsame,
        fun x hx => ?_⟩
      obtain ⟨y, hy, hsame⟩ := hstored x hx
      rw [Option.mem_def, loadCredentialCleanup_iff htab] at hy
      exact ⟨y, hy.1, hy.2, hsame⟩
  | none =>
      rw [hg] at h
      simp only [usePrepare, bind_ok, orRefuse_ok] at h
      obtain ⟨receipt, hrec, c, hc, _, hid, _, -, h⟩ := h
      rw [loadReceiptById_iff htab] at hrec
      rw [loadChallenge_iff htab] at hc
      cases hst : c.state with
      | expired =>
          rw [hst] at h
          simp [commitClock] at h
      | authorized =>
          rw [hst] at h
          simp only at h
          split at h
          · simp [commitReceiptExpiry] at h
          · simp only [prepareTransition, bind_ok, ensure_ok, pure_ok, Commit.mk.injEq] at h
            obtain ⟨_, -, _, -, db₁, hins, rfl, -⟩ := h
            obtain ⟨location, accounts, store, -, -, -, rfl, -⟩ := insertTransition_ok hins
            exact ⟨_, receipt, c, _, prepared_rows hrec hc hid⟩
      | pending =>
          rw [hst] at h
          cases h
      | invalidated =>
          rw [hst] at h
          cases h

/-- A transition of an accepted state can be shown. -/
theorem Accepted.projection (h : Accepted env codec s db) {t : Transition}
    (ht : t ∈ db.transitions) : ∃ p, transitionProjection env codec db t = .ok p := by
  obtain ⟨o, value, account, a, hc⟩ := h.transitionChain ht
  have hok := hc.checks.projection
  cases hp : transitionProjection env codec db t with
  | ok p => exact ⟨p, rfl⟩
  | error e =>
      rw [hp] at hok
      cases hok

/-- The rows of a preparation pass the check of its retry. -/
theorem PreparedBy.retry {r : PrepareRequest} {g : GrantUse} {receipt : Receipt} {c : Challenge}
    {t : Transition} (h : PreparedBy env codec db r g receipt c t) (ha : Accepted env codec s db) :
    validatePrepareRetryIdentity env codec db { r with observedAt := observed } t = .ok () := by
  have htab := ha.tables
  have hg : loadGrantUse db t.grantId = some g :=
    (loadGrantUse_iff htab).mpr ⟨h.of_grant.1, h.of_grant.2.1.trans h.same.2.1.symm⟩
  have hr : loadReceiptById db g.receiptId = some receipt :=
    (loadReceiptById_iff htab).mpr h.of_receipt
  have hc : loadChallenge db receipt.challengeId = some c :=
    (loadChallenge_iff htab).mpr h.of_challenge
  have hid := prepareIdentity_congr (Challenge.Continues.refl c) observed h.identity
  -- the manifest of the transition is the one the request was compared with
  obtain ⟨o, value, account, a, hchain⟩ := ha.transitionChain h.of_transition
  have hcount : (db.cleanups.filter fun x => x.transitionId = some t.transitionId).length =
      r.cleanupReservations.length := by
    rw [hchain.checks.cleanups.1]
    have hid' := h.identity
    simp only [validateAccountPrepareIdentity, accountMutationManifest, bind_ok, orRefuse_ok,
      ensure_ok] at hid'
    obtain ⟨value', ⟨m, hm, hv'⟩, snapshot, -, target, -, _, -, hval⟩ := hid'
    have hload : loadOrigin env codec db t.grantId = some ⟨g, receipt, c, m⟩ := by
      simp [loadOrigin, hg, hr, hc, hm]
    have ho : o = ⟨g, receipt, c, m⟩ := Option.some.inj (hchain.load.symm.trans hload)
    have hmut := hchain.mutation
    rw [ho, h.same.2.2.2.2.1] at hmut
    rw [Option.some.inj (hmut.symm.trans hv')]
    exact hval.cleanup.length_eq.symm
  simp only [validatePrepareRetryIdentity, bind_ok, orRefuse_ok, ensure_ok]
  refine ⟨g, hg, receipt, hr, c, hc, (), ?_, (), h.same, (), hcount, fun x hx => ?_⟩
  · rw [hid]
    rfl
  · obtain ⟨y, hy, hyid, hsame⟩ := h.reserved x hx
    exact ⟨y, (loadCredentialCleanup_iff htab).mpr ⟨hy, hyid⟩, hsame⟩

/-- **A preparation repeated** shows the latest state of its transition. -/
theorem prepareAccountTransition_retry {r : PrepareRequest} {p : TransitionProjection}
    (h : prepareAccountTransition env codec s r db = .ok ⟨db', .ok p⟩)
    (hl : Later env codec s db' db'' observed at') :
    ∃ p', prepareAccountTransition env codec s { r with observedAt := observed } db'' =
        .ok ⟨db''.clocked at', .ok p'⟩ ∧ ShowsLatest db'' r.transitionId p' := by
  obtain ⟨g, receipt, c, t, hrows⟩ := prepareAccountTransition_answered h
  obtain ⟨c', t', hrows⟩ := hrows.lasts (Run.lasts hl.run)
  have htab := hl.accepted.tables
  obtain ⟨p', hp'⟩ := hl.accepted.projection hrows.of_transition
  obtain ⟨hnames, hstate⟩ := transitionProjection_names hp'
  refine ⟨p', ?_, t', hrows.of_transition, hrows.same.1, hnames.trans hrows.same.1, hstate⟩
  have hg : loadGrantUse db'' r.grantUse.grantId = some g :=
    (loadGrantUse_iff htab).mpr ⟨hrows.of_grant.1, hrows.of_grant.2.1⟩
  have ht : loadAccountTransitionByGrant db'' g.grantId = some t' := by
    refine (loadAccountTransitionByGrant_iff htab).mpr ⟨hrows.of_transition, ?_⟩
    exact hrows.same.2.1.trans hrows.of_grant.2.1.symm
  simp only [prepareAccountTransition, bind_ok]
  refine ⟨(), hl.accepted, at', hl.time, ?_⟩
  simp only [hg, recoverPrepare, bind_ok, orRefuse_ok, ensure_ok]
  exact ⟨(), hrows.of_grant.2, t', ht, (), hrows.retry hl.accepted, p', hp', hl.commitClock _⟩

/-! ## 5. Observations -/

/-- **What an observation that changed its transition has left**, so that its retry finds it done. -/
inductive DoneBy (db : Db) (operation : ObservationOperation) (r : ObservationRequest)
    (t : Transition) : Prop where
  | committed (hop : operation = .configCommitted) (hr : r.sourceState = .prepared)
      (hpair : classifyObservedPair t r = .after) (hc : t.configCommittedAt.isSome)
      (hst : t.state = .configCommitted ∨ t.state = .finalized ∨ t.state = .recoveryRequired)
  | completed (hst : t.state = .finalized ∨ t.state = .aborted)
      (hdone : completed operation t.state = true)
      (hexact : exactCompletion operation r.sourceState (classifyObservedPair t r) = true)
  | stopped (x : Store) (hst : t.state = .recoveryRequired)
      (hpair : if t.configCommittedAt.isSome then classifyObservedPair t r ≠ .after
        else classifyObservedPair t r = .third)
      (hx : x ∈ db.stores ∧ x.storeId = t.storeId ∧ x.state = .recoveryRequired)
      (hsame : r.actualConfigGeneration = x.configGeneration ∧
        r.actualConfigSha256 = x.configSha256)

/-- The pairs of a transition stay. -/
theorem Transition.Advances.classify {t t' : Transition} (h : t.Advances t')
    (r : ObservationRequest) : classifyObservedPair t' r = classifyObservedPair t r := by
  obtain ⟨_, _, _, _, rfl⟩ := h.same
  rfl

theorem DoneBy.lasts {operation : ObservationOperation} {r : ObservationRequest} {t : Transition}
    (h : DoneBy db operation r t) (ht : t ∈ db.transitions) (hl : Lasts db db') :
    ∃ t' ∈ db'.transitions, t'.transitionId = t.transitionId ∧ DoneBy db' operation r t' := by
  obtain ⟨t', ht', hadv⟩ := hl.transitions t ht
  have hid : t'.transitionId = t.transitionId := by
    obtain ⟨_, _, _, _, rfl⟩ := hadv.same
    rfl
  refine ⟨t', ht', hid, ?_⟩
  cases h with
  | committed hop hr hpair hc hst =>
      refine .committed hop hr ((hadv.classify r).trans hpair) ?_ ?_
      · obtain ⟨d, hd⟩ := Option.isSome_iff_exists.mp hc
        rw [hadv.committed d hd]
        rfl
      · rcases hst with hst | hst | hst
        · have hne := hadv.forward hst
          cases hst' : t'.state <;> simp_all
        · rw [hadv.last (by simp [hst]) (by simp [hst])]
          exact .inr (.inl hst)
        · rw [hadv.last (by simp [hst]) (by simp [hst])]
          exact .inr (.inr hst)
  | completed hst hdone hexact =>
      have heq : t' = t := by
        rcases hst with hst | hst <;> exact hadv.last (by simp [hst]) (by simp [hst])
      rw [heq]
      exact .completed hst hdone hexact
  | stopped x hst hpair hx hsame =>
      have heq : t' = t := hadv.last (by simp [hst]) (by simp [hst])
      obtain ⟨x', hx', hadv'⟩ := hl.stores x hx.1
      rw [hadv'.stopped hx.2.2] at hx'
      rw [heq]
      exact .stopped x hst hpair ⟨hx', hx.2⟩ hsame

section Changed

variable {t : Transition} {r : ObservationRequest} (ht : t ∈ db.transitions)
include ht

theorem commitConfig_done {k : Commit TransitionProjection} (hst : t.state = .prepared)
    (hr : r.sourceState = .prepared) (hpair : classifyObservedPair t r = .after)
    (h : commitConfig env codec t at' db = .ok k) :
    ∃ t' ∈ k.db.transitions, t'.transitionId = t.transitionId ∧
      DoneBy k.db .configCommitted r t' := by
  simp only [commitConfig, bind_ok, pure_ok] at h
  obtain ⟨db', hins, _, -, rfl⟩ := h
  obtain ⟨a', x', -, -, i, -, -, -, -, -, rfl, -⟩ := insertConfigCommit_ok hins
  rw [configCommitted, appendEvents_eq]
  refine ⟨committedRow at' t, mem_update.mpr ⟨t, ht, ?_⟩, rfl,
    .committed rfl hr hpair rfl (.inl rfl)⟩
  simp [transitionIn, hst, committedRow]

theorem finalizeTransition_done {k : Commit TransitionProjection} (hst : t.state = .configCommitted)
    (hr : r.sourceState = .configCommitted) (hpair : classifyObservedPair t r = .after)
    (h : finalizeTransition env codec t at' db = .ok k) :
    ∃ t' ∈ k.db.transitions, t'.transitionId = t.transitionId ∧ DoneBy k.db .finalize r t' := by
  simp only [finalizeTransition, bind_ok, pure_ok] at h
  obtain ⟨db', hins, _, -, rfl⟩ := h
  obtain ⟨-, -, -, i, -, -, -, -, rfl, -⟩ := insertFinalize_ok hins
  rw [transitionFinalized, appendEvents_eq]
  refine ⟨{ t with state := .finalized, finalizedAt := some at' }, mem_update.mpr ⟨t, ht, ?_⟩, rfl,
    .completed (.inl rfl) rfl ?_⟩
  · simp [transitionIn, hst]
  · have hsame : classifyObservedPair { t with state := .finalized, finalizedAt := some at' } r =
        .after := hpair
    simp [exactCompletion, hr, hsame]

theorem abortTransition_done {k : Commit TransitionProjection} (hst : t.state = .prepared)
    (hr : r.sourceState = .prepared) (hpair : classifyObservedPair t r = .before)
    (h : abortTransition env codec t at' db = .ok k) :
    ∃ t' ∈ k.db.transitions, t'.transitionId = t.transitionId ∧ DoneBy k.db .abort r t' := by
  simp only [abortTransition, bind_ok, pure_ok] at h
  obtain ⟨db', hins, _, -, rfl⟩ := h
  obtain ⟨accounts, -, -, i, -, -, -, -, rfl, -⟩ := insertAbort_ok hins
  rw [transitionAborted, appendEvents_eq]
  refine ⟨{ t with state := .aborted, resolvedAt := some at' }, mem_update.mpr ⟨t, ht, ?_⟩, rfl,
    .completed (.inr rfl) rfl ?_⟩
  · simp [transitionIn, hst]
  · have hsame : classifyObservedPair { t with state := .aborted, resolvedAt := some at' } r =
        .before := hpair
    simp [exactCompletion, hr, hsame]

theorem commitAccountRecovery_done {operation : ObservationOperation}
    {k : Commit TransitionProjection} (ha : Accepted env codec s db) (htime : TimeOk db at')
    ( hunsafe : unsafePair t (classifyObservedPair t r) = true)
    (h : commitAccountRecovery env codec t r at' db = .ok k) :
    ∃ t' ∈ k.db.transitions, t'.transitionId = t.transitionId ∧ DoneBy k.db operation r t' := by
  simp only [commitAccountRecovery, bind_ok, ensure_ok, pure_ok] at h
  obtain ⟨_, hopen, db', hins, _, -, rfl⟩ := h
  obtain ⟨o, value, account, a, x, ho⟩ := ha.observed ht hopen htime
  obtain ⟨-, -, -, i, -, -, -, -, rfl, -⟩ := insertRecovery_ok hins
  rw [transitionStopped, appendEvents_eq]
  refine ⟨{ t with state := .recoveryRequired, resolvedAt := some at' },
    mem_update.mpr ⟨t, ht, by simp [transitionIn]⟩, rfl, .stopped
      { x with
        state := .recoveryRequired
        configGeneration := r.actualConfigGeneration
        configSha256 := r.actualConfigSha256
        updatedAt := at' } rfl ?_ ⟨mem_update.mpr ⟨x, ho.holds.store.1, ?_⟩, ho.holds.store.2.1, rfl⟩
      ⟨rfl, rfl⟩⟩
  · -- a committed transition has its time, a prepared one has none
    have hpair : classifyObservedPair { t with state := .recoveryRequired, resolvedAt := some at' } r =
        classifyObservedPair t r := rfl
    rw [hpair]
    rcases hopen with hst | hst
    · have hthird : classifyObservedPair t r = .third := by
        simpa [unsafePair, hst] using hunsafe
      simp [ho.uncommitted hst, hthird]
    · have hafter : classifyObservedPair t r ≠ .after := by
        simpa [unsafePair, hst] using hunsafe
      have hshape := ho.chain.checks.row.timestamps
      unfold timestampShape at hshape
      rw [hst] at hshape
      simp only at hshape
      simp [hshape.1, hafter]
  · simp [blockedStore, ho.holds.store]

end Changed

theorem observeUnchanged_clocked {t : Transition} {k : Commit TransitionProjection}
    (h : observeUnchanged env codec t at' db = .ok k) : k.db = db.clocked at' := by
  simp only [observeUnchanged, bind_ok] at h
  obtain ⟨x, -, h⟩ := h
  obtain ⟨rfl, -⟩ := commitClock_ok h
  rfl

/-- **An observation that changed more than the clock** is done. -/
theorem observation_done {operation : ObservationOperation} {r : ObservationRequest}
    {k : Commit TransitionProjection}
    (h : applyAccountObservation env codec s operation r db = .ok k)
    (hchanged : ∀ at', k.db ≠ db.clocked at') :
    ∃ t ∈ k.db.transitions, t.transitionId = r.transitionId ∧ DoneBy k.db operation r t := by
  simp only [applyAccountObservation, bind_ok, orRefuse_ok] at h
  obtain ⟨_, hacc, at', hat, t, hload, h⟩ := h
  have ha : Accepted env codec s db := hacc
  have htime := timeOk_of_effectiveTime hat
  obtain ⟨ht, hid⟩ := (loadAccountTransition_iff ha.tables).mp hload
  rw [← hid]
  unfold observeTransition at h
  split at h
  · simp only [observeStopped, bind_ok] at h
    obtain ⟨_, -, _, -, h⟩ := h
    exact absurd (observeUnchanged_clocked h) (hchanged at')
  split at h
  · simp only [observeCompleted, bind_ok] at h
    obtain ⟨_, -, h⟩ := h
    exact absurd (observeUnchanged_clocked h) (hchanged at')
  split at h
  · next hunsafe => exact commitAccountRecovery_done ht ha htime hunsafe h
  unfold observeOpen at h
  split at h
  · exact absurd (observeUnchanged_clocked h) (hchanged at')
  · next hr hst hpair _ => exact commitConfig_done ht hst hr hpair h
  · next hr hst hpair _ => exact finalizeTransition_done ht hst hr hpair h
  · next hr hst hpair _ => exact abortTransition_done ht hst hr hpair h
  · cases h

/-- Whenever it is repeated. -/
theorem DoneBy.presented {operation : ObservationOperation} {r : ObservationRequest}
    {t : Transition} (h : DoneBy db operation r t) (observed : Int) :
    DoneBy db operation { r with observedAt := observed } t := by
  cases h with
  | committed hop hr hpair hc hst => exact .committed hop hr hpair hc hst
  | completed hst hdone hexact => exact .completed hst hdone hexact
  | stopped x hst hpair hx hsame => exact .stopped x hst hpair hx hsame

/-- A done observation takes a path that shows its transition. -/
theorem unchanged_of_done {operation : ObservationOperation} {r : ObservationRequest}
    {t : Transition} {k : Commit TransitionProjection} (h : DoneBy db operation r t)
    (ha : Accepted env codec s db) (ht : t ∈ db.transitions)
    (hk : observeUnchanged env codec t at' db = .ok k) :
    observeTransition env codec operation t r at' db = .ok k := by
  have hstore : t.state = .recoveryRequired →
      ∃ x, loadRegisteredStoreById db t.storeId = some x := by
    intro hst
    obtain ⟨p, hp⟩ := ha.projection ht
    simp only [transitionProjection, hst, bind_ok, orRefuse_ok] at hp
    obtain ⟨a, -, generation, -, _, -, x, hx, -⟩ := hp
    exact ⟨x, hx⟩
  cases h with
  | committed hop hr hpair hc hst =>
      subst hop
      by_cases hstop : t.state = .recoveryRequired
      · obtain ⟨x, hx⟩ := hstore hstop
        have hexact : exactRecovery .configCommitted t r x := by
          simp [exactRecovery, hr, hpair, hc]
        rw [observeTransition, if_pos hstop]
        simp only [observeStopped, bind_ok, orRefuse_ok, ensure_ok]
        exact ⟨x, hx, (), hexact, hk⟩
      · have hdone : completed .configCommitted t.state = true := by
          rcases hst with hst | hst | hst
          · simp [completed, hst]
          · simp [completed, hst]
          · exact absurd hst hstop
        rw [observeTransition, if_neg hstop, if_pos hdone]
        simp only [observeCompleted, bind_ok, ensure_ok]
        exact ⟨(), by simp [exactCompletion, hr, hpair], hk⟩
  | completed hst hdone hexact =>
      have hstop : t.state ≠ .recoveryRequired := by
        rcases hst with hst | hst <;> simp [hst]
      rw [observeTransition, if_neg hstop, if_pos hdone]
      simp only [observeCompleted, bind_ok, ensure_ok]
      exact ⟨(), hexact, hk⟩
  | stopped x hst hpair hx hsame =>
      have hload : loadRegisteredStoreById db t.storeId = some x :=
        (loadRegisteredStoreById_iff ha.tables).mpr ⟨hx.1, hx.2.1⟩
      rw [observeTransition, if_pos hst]
      simp only [observeStopped, bind_ok, orRefuse_ok, ensure_ok]
      exact ⟨x, hload, (), ⟨.inl hpair, fun _ => hsame⟩, hk⟩

/-- **An observation repeated** shows the latest state of its transition. -/
theorem observation_retry {operation : ObservationOperation} {r : ObservationRequest}
    {k : Commit TransitionProjection}
    (h : applyAccountObservation env codec s operation r db = .ok k)
    (hchanged : ∀ at', k.db ≠ db.clocked at') (hl : Later env codec s k.db db'' observed at') :
    ∃ p', applyAccountObservation env codec s operation { r with observedAt := observed } db'' =
        .ok ⟨db''.clocked at', .ok p'⟩ ∧ ShowsLatest db'' r.transitionId p' := by
  obtain ⟨t, ht, hid, hdone⟩ := observation_done h hchanged
  obtain ⟨t', ht', hid', hdone'⟩ := hdone.lasts ht (Run.lasts hl.run)
  obtain ⟨p', hp'⟩ := hl.accepted.projection ht'
  obtain ⟨hnames, hstate⟩ := transitionProjection_names hp'
  have hsame : t'.transitionId = r.transitionId := hid'.trans hid
  refine ⟨p', ?_, t', ht', hsame, hnames.trans hsame, hstate⟩
  have hload : loadAccountTransition db'' r.transitionId = some t' :=
    (loadAccountTransition_iff hl.accepted.tables).mpr ⟨ht', hsame⟩
  simp only [applyAccountObservation, bind_ok, orRefuse_ok]
  refine ⟨(), hl.accepted, at', hl.time, t', hload, ?_⟩
  refine unchanged_of_done (hdone'.presented observed) hl.accepted ht' ?_
  simp only [observeUnchanged, bind_ok]
  exact ⟨p', hp', hl.commitClock _⟩

/-! ## 6. Claims -/

/-- The rows a claim was answered from. -/
structure ClaimedBy (db : Db) (r : CleanupClaimRequest) (g : GrantUse) (x : Cleanup) : Prop where
  of_grant : g ∈ db.grants ∧ g.matchesRequest r.grantUse
  of_cleanup : x ∈ db.cleanups ∧ x.cleanupId = r.cleanupId
  claim : x.claimGrantId = some g.grantId
  state : x.state = .claimed ∨ x.state = .deleted
  readable : ∀ d ∈ x.deletedAt, Representable d

theorem ClaimedBy.lasts {r : CleanupClaimRequest} {g : GrantUse} {x : Cleanup}
    (h : ClaimedBy db r g x) (hl : Lasts db db') : ∃ x', ClaimedBy db' r g x' := by
  obtain ⟨x', hx', hadv⟩ := hl.cleanups x h.of_cleanup.1
  have hid : x'.cleanupId = x.cleanupId := by
    obtain ⟨_, _, _, rfl⟩ := hadv.same
    rfl
  have hlast : (x'.state = .claimed ∨ x'.state = .deleted) ∧
      ∀ d ∈ x'.deletedAt, Representable d := by
    rcases h.state with hst | hst
    · rcases hadv.claimed hst with heq | ⟨hdel, d, hd, hrep⟩
      · rw [heq]
        exact ⟨.inl hst, h.readable⟩
      · refine ⟨.inr hdel, fun d' hd' => ?_⟩
        rw [hd] at hd'
        exact Option.some.inj hd' ▸ hrep
    · rw [hadv.deleted hst]
      exact ⟨.inr hst, h.readable⟩
  exact ⟨x', ⟨hl.grants h.of_grant.1, h.of_grant.2⟩, ⟨hx', hid.trans h.of_cleanup.2⟩,
    hadv.claim _ h.claim, hlast.1, hlast.2⟩

theorem optUtcMillis_readable {t t' : Option Int} (h : optUtcMillis t = .ok t') :
    t' = t ∧ ∀ d ∈ t, Representable d := by
  cases t with
  | none =>
      simp only [optUtcMillis, pure_ok] at h
      exact ⟨h.symm, by simp⟩
  | some d =>
      simp only [optUtcMillis, utcMillis, map_ok, bind_ok, ensure_ok, pure_ok] at h
      obtain ⟨_, ⟨_, hd, rfl⟩, rfl⟩ := h
      exact ⟨rfl, by simpa using hd⟩

/-- A projection shows the row of its cleanup. -/
theorem cleanupProjection_names {x : Cleanup} {claimedAt : Option Int} {p : CleanupProjection}
    (h : cleanupProjection x claimedAt = .ok p) :
    (p.cleanupId = x.cleanupId ∧ p.state = x.state ∧ p.deletedAt = x.deletedAt) ∧
      ∀ d ∈ x.deletedAt, Representable d := by
  simp only [cleanupProjection, bind_ok, pure_ok] at h
  obtain ⟨_, -, _, hd, rfl⟩ := h
  obtain ⟨rfl, hrep⟩ := optUtcMillis_readable hd
  exact ⟨⟨rfl, rfl, rfl⟩, hrep⟩

theorem recoveredClaim_projection {x : Cleanup} {g : GrantUse} {y : ClaimOutcome}
    (h : recoveredClaim env x g = .ok y) : cleanupProjection x (some g.usedAt) = .ok y.projection := by
  simp only [recoveredClaim, bind_ok] at h
  obtain ⟨p, hp, h⟩ := h
  split at h
  · simp only [bind_ok, pure_ok] at h
    obtain ⟨_, -, rfl⟩ := h
    exact hp
  · simp only [pure_ok] at h
    rw [← h]
    exact hp

theorem claimCredentialCleanup_answered {r : CleanupClaimRequest} {y : ClaimOutcome}
    (h : claimCredentialCleanup env codec s r db = .ok ⟨db', .ok y⟩) :
    ∃ g x, ClaimedBy db' r g x := by
  simp only [claimCredentialCleanup, bind_ok] at h
  obtain ⟨_, ha, h⟩ := h
  have haccepted : Accepted env codec s db := ha
  have htab := haccepted.tables
  cases hg : loadGrantUse db r.grantUse.grantId with
  | some g =>
      rw [hg] at h
      rw [loadGrantUse_iff htab] at hg
      simp only [recoverClaim, bind_ok, ensure_ok, orRefuse_ok] at h
      obtain ⟨_, hm, receipt, -, c, -, m, -, x, hx, _, ⟨hclaim, hst⟩, _, -, at', -, hk⟩ := h
      obtain ⟨hk, -⟩ := commitClock_ok hk
      obtain ⟨rfl, hreply⟩ := Commit.mk.inj hk
      rw [loadCredentialCleanup_iff htab] at hx
      obtain ⟨-, hrep⟩ := cleanupProjection_names (recoveredClaim_projection hreply.symm)
      exact ⟨g, x, ⟨hg.1, hm⟩, hx, hclaim, hst, hrep⟩
  | none =>
      rw [hg] at h
      simp only [useClaim, bind_ok, orRefuse_ok] at h
      obtain ⟨receipt, -, c, -, m, -, at', -, h⟩ := h
      cases hst : c.state with
      | expired =>
          rw [hst] at h
          cases h
      | authorized =>
          rw [hst] at h
          simp only at h
          split at h
          · simp [commitReceiptExpiry] at h
          · simp only [claimCleanup, bind_ok, orRefuse_ok, pure_ok, Commit.mk.injEq] at h
            obtain ⟨_, -, _, -, x₀, -, db₁, hins, rfl, -⟩ := h
            obtain ⟨⟨x, hfound⟩, rfl, -⟩ := insertClaim_ok hins
            have hmem : x ∈ db.cleanups.filter (claimable r.cleanupId) :=
              hfound ▸ List.mem_cons_self
            obtain ⟨hx, hclaimable⟩ := List.mem_filter.mp hmem
            obtain ⟨hid, -, -, hdel⟩ := of_decide_eq_true hclaimable
            rw [cleanupClaimed, appendEvents_eq]
            refine ⟨grantUseRow env r.grantUse at', claimedRow r x,
              ⟨List.mem_append_right _ List.mem_cons_self, rfl, rfl, rfl, rfl, rfl, rfl⟩,
              ⟨mem_update.mpr ⟨x, hx, ?_⟩, hid⟩, rfl, .inl rfl, ?_⟩
            · rw [if_pos hclaimable]
              rfl
            · simp [claimedRow, hdel]
      | pending =>
          rw [hst] at h
          cases h
      | invalidated =>
          rw [hst] at h
          cases h

/-- A reply shows the latest state of a cleanup. -/
def ShowsCleanup (db : Db) (id : CleanupId) (p : CleanupProjection) : Prop :=
  ∃ x ∈ db.cleanups, x.cleanupId = id ∧ p.cleanupId = id ∧ p.state = x.state ∧
    p.deletedAt = x.deletedAt

/-- **A claim repeated** shows the latest state of its cleanup. -/
theorem claimCredentialCleanup_retry {r : CleanupClaimRequest} {y : ClaimOutcome}
    (h : claimCredentialCleanup env codec s r db = .ok ⟨db', .ok y⟩)
    (hl : Later env codec s db' db'' observed at') :
    ∃ y', claimCredentialCleanup env codec s { r with observedAt := observed } db'' =
        .ok ⟨db''.clocked at', .ok y'⟩ ∧ ShowsCleanup db'' r.cleanupId y'.projection := by
  obtain ⟨g, x, hrows⟩ := claimCredentialCleanup_answered h
  obtain ⟨x', hrows⟩ := hrows.lasts (Run.lasts hl.run)
  have htab := hl.accepted.tables
  obtain ⟨y', hy'⟩ := hl.accepted.recoveredClaim_ok hrows.of_cleanup.1 hrows.of_grant.1 hrows.claim
    hrows.readable
  obtain ⟨⟨hnames, hstate, hdel⟩, -⟩ := cleanupProjection_names (recoveredClaim_projection hy')
  refine ⟨y', ?_, x', hrows.of_cleanup.1, hrows.of_cleanup.2, hnames.trans hrows.of_cleanup.2,
    hstate, hdel⟩
  have hg : loadGrantUse db'' r.grantUse.grantId = some g :=
    (loadGrantUse_iff htab).mpr ⟨hrows.of_grant.1, hrows.of_grant.2.1⟩
  have hx : loadCredentialCleanup db'' r.cleanupId = some x' :=
    (loadCredentialCleanup_iff htab).mpr hrows.of_cleanup
  obtain ⟨receipt, c, m, hrec, hc, hid, hctx⟩ :=
    hl.accepted.claimIdentity (r := { r with observedAt := observed }) hrows.of_grant.1
      hrows.of_grant.2 hrows.of_cleanup.1 hrows.of_cleanup.2 hrows.claim
  simp only [claimCredentialCleanup, bind_ok]
  refine ⟨(), hl.accepted, ?_⟩
  simp only [hg, recoverClaim, bind_ok, ensure_ok, orRefuse_ok]
  refine ⟨(), hrows.of_grant.2, receipt, hrec, c, hc, m, hid, x', hx, (),
    ⟨hrows.claim, hrows.state⟩, (), hctx, at', hl.time, ?_⟩
  rw [hy']
  exact hl.commitClock _

/-! ## 7. Challenges -/

/-- The challenge an export was made from. -/
structure ExportOf (env : Platform) (codec : ManifestCodec) (s : Snapshot) (db : Db)
    (r : CreateChallengeRequest) (x : ChallengeExport) (c : Challenge) : Prop where
  mem : c ∈ db.challenges
  shown : challengeExportFromStored env codec c = .ok x
  context : c.contextSha256 = manifestContextDigest env s r.manifest

/-- A new challenge is exported as it was stored. -/
theorem freshChallenge_exports {draw : Option (GrantId × Digest)} {r : CreateChallengeRequest}
    {context : Digest} {k : Commit ChallengeExport}
    (h : freshChallenge env codec s draw r context at' db = .ok k) :
    ∃ c ∈ k.db.challenges, c.contextSha256 = context ∧
      k.reply = challengeExportFromStored env codec c := by
  simp only [freshChallenge, bind_ok, orRefuse_ok, pure_ok] at h
  obtain ⟨_, -, _, -, ⟨grantId, nonce⟩, -, p, -, db', hins, stored, hst, rfl⟩ := h
  obtain ⟨rfl, hs⟩ := insertChallenge_ok rfl hins
  rw [loadChallenge_iff hs.tables] at hst
  have hrow : stored = linked db (challengeRow r.manifest p context) := by
    refine eq_of_key_eq hs.tables.challenges.id_unique hst.1 ?_ hst.2
    exact List.mem_append_right _ List.mem_cons_self
  exact ⟨stored, hst.1, by rw [hrow]; rfl, rfl⟩

theorem createChallenge_answered {draw : Option (GrantId × Digest)} {r : CreateChallengeRequest}
    {x : ChallengeExport} (h : createChallenge env codec s draw r db = .ok ⟨db', .ok x⟩) :
    ∃ c, ExportOf env codec s db' r x c := by
  simp only [createChallenge, bind_ok] at h
  obtain ⟨_, -, reparsed, -, _, -, _, -, _, -, at', -, _, -, _, -, _, -, h⟩ := h
  split at h
  · next existing hex =>
      split at h
      · obtain ⟨hk, -⟩ := commitClock_ok h
        obtain ⟨rfl, hshown⟩ := Commit.mk.inj hk
        have hpend := List.find?_some hex
        simp only [decide_eq_true_eq] at hpend
        exact ⟨existing, List.mem_of_find?_eq_some hex, hshown.symm, hpend.1⟩
      · rw [bind_ok] at h
        obtain ⟨db₁, -, h⟩ := h
        obtain ⟨c, hc, hctx, hreply⟩ := freshChallenge_exports h
        exact ⟨c, hc, hreply.symm, hctx⟩
  · obtain ⟨c, hc, hctx, hreply⟩ := freshChallenge_exports h
    exact ⟨c, hc, hreply.symm, hctx⟩

theorem challengeExport_id {c : Challenge} {x : ChallengeExport}
    (h : challengeExportFromStored env codec c = .ok x) : x.challengeId = c.challengeId := by
  simp only [challengeExportFromStored, bind_ok, pure_ok] at h
  obtain ⟨_, -, _, -, _, -, _, -, rfl⟩ := h
  rfl

/-- **A request for a challenge repeated** while the challenge is pending and has not expired
    exports it again. -/
theorem createChallenge_retry {draw draw' : Option (GrantId × Digest)} {r : CreateChallengeRequest}
    {x : ChallengeExport} (h : createChallenge env codec s draw r db = .ok ⟨db', .ok x⟩)
    (hcleanup : r.manifest.action ≠ .credentialCleanup)
    (hl : Later env codec s db' db'' observed at') {c : Challenge} (hc : c ∈ db''.challenges)
    (hid : c.challengeId = x.challengeId) (hst : c.state = .pending) (hlive : at' ≤ c.expiresAt) :
    createChallenge env codec s draw' { r with observedAt := observed } db'' =
      .ok ⟨db''.clocked at', .ok x⟩ := by
  have htab := hl.accepted.tables
  obtain ⟨c₀, hof⟩ := createChallenge_answered h
  obtain ⟨c₁, hc₁, hcont⟩ := (Run.lasts hl.run).challenges c₀ hof.mem
  have hsame : c = c₁ := by
    refine eq_of_key_eq htab.challenges.id_unique hc hc₁ (hid.trans ?_)
    obtain ⟨_, rfl⟩ := hcont
    exact challengeExport_id hof.shown
  have hctx : c.contextSha256 = manifestContextDigest env s r.manifest := by
    obtain ⟨_, rfl⟩ := hcont
    rw [hsame]
    exact hof.context
  have hshown : challengeExportFromStored env codec c = .ok x := by
    obtain ⟨_, rfl⟩ := hcont
    rw [hsame]
    exact hof.shown
  have hpending : loadPendingChallenge db'' (manifestContextDigest env s r.manifest) = some c := by
    refine (find_iff_of_unique fun a ha b hb hpa hpb => ?_).mpr ⟨hc, by simp [hctx, hst]⟩
    simp only [decide_eq_true_eq] at hpa hpb
    exact eq_of_key_eq htab.challenges.one_pending
      (List.mem_filter.mpr ⟨ha, by simpa using hpa.2⟩)
      (List.mem_filter.mpr ⟨hb, by simpa using hpb.2⟩) (hpa.1.trans hpb.1.symm)
  simp only [createChallenge, bind_ok, checkIf_ok] at h ⊢
  obtain ⟨_, hreq, reparsed, hparse, _, heq, _, hsup, _, -, _, -, _, hintr, -⟩ := h
  refine ⟨(), ?_, reparsed, hparse, (), heq, (), hsup, (), hl.accepted, at', hl.time, (), hintr, (),
    fun hx => absurd hx hcleanup, (), fun hx => absurd hx hcleanup, ?_⟩
  · simp only [validateChallengeRequest, inputUtcMillis, bind_ok, ensure_ok, exists_const] at hreq ⊢
    exact ⟨⟨hl.input.1, hreq.1.2⟩, hl.input.2, hreq.2.2⟩
  · simp only [hpending, hlive, if_true, hshown]
    exact hl.commitClock _

/-! ## 8. All calls -/

/-- **An exact retry is idempotent**, at whatever later moment it is made: it moves the clock and
    shows what the first call led to. -/
theorem exact_retry (hl : Later env codec s db' db'' observed at') :
    (∀ draw draw' r p, verifyProof env codec s draw r db = .ok ⟨db', .ok p⟩ →
      ∃ p', verifyProof env codec s draw' { r with observedAt := observed } db'' =
          .ok ⟨db''.clocked at', .ok p'⟩ ∧
        p'.receiptId = p.receiptId ∧ p'.receiptSha256 = p.receiptSha256 ∧
        p'.verifiedAt = p.verifiedAt ∧ p'.expiresAt = p.expiresAt) ∧
    (∀ r p, enrollStore env codec s r db = .ok ⟨db', .ok p⟩ →
      enrollStore env codec s { r with observedAt := observed } db'' =
        .ok ⟨db''.clocked at', .ok p⟩) ∧
    (∀ r p, prepareAccountTransition env codec s r db = .ok ⟨db', .ok p⟩ →
      ∃ p', prepareAccountTransition env codec s { r with observedAt := observed } db'' =
          .ok ⟨db''.clocked at', .ok p'⟩ ∧ ShowsLatest db'' r.transitionId p') ∧
    (∀ operation r p, applyAccountObservation env codec s operation r db = .ok ⟨db', .ok p⟩ →
      (∀ t, db' ≠ db.clocked t) →
      ∃ p', applyAccountObservation env codec s operation { r with observedAt := observed } db'' =
          .ok ⟨db''.clocked at', .ok p'⟩ ∧ ShowsLatest db'' r.transitionId p') ∧
    (∀ r y, claimCredentialCleanup env codec s r db = .ok ⟨db', .ok y⟩ →
      ∃ y', claimCredentialCleanup env codec s { r with observedAt := observed } db'' =
          .ok ⟨db''.clocked at', .ok y'⟩ ∧ ShowsCleanup db'' r.cleanupId y'.projection) ∧
    (∀ draw draw' r x, createChallenge env codec s draw r db = .ok ⟨db', .ok x⟩ →
      r.manifest.action ≠ .credentialCleanup →
      ∀ c ∈ db''.challenges, c.challengeId = x.challengeId → c.state = .pending →
        at' ≤ c.expiresAt →
        createChallenge env codec s draw' { r with observedAt := observed } db'' =
          .ok ⟨db''.clocked at', .ok x⟩) := by
  refine ⟨?_, ?_, ?_, ?_, ?_, ?_⟩
  · intro draw draw' r p h
    exact verifyProof_retry h hl
  · intro r p h
    exact enrollStore_retry h hl
  · intro r p h
    exact prepareAccountTransition_retry h hl
  · intro operation r p h hchanged
    exact observation_retry h hchanged hl
  · intro r y h
    exact claimCredentialCleanup_retry h hl
  · intro draw draw' r x h hcleanup c hc hid hst hlive
    exact createChallenge_retry h hcleanup hl hc hid hst hlive

namespace Sample

/-- The owner's proof of a challenge, presented at a time. -/
def proofAt (c : Challenge) (observed : Int) : VerifyProofRequest := ⟨proofOf c, observed⟩

/-- A call is answered and leaves a state. -/
def answered {α : Type} (db : Db) : Result (Commit α) → Bool
  | .ok ⟨db', .ok _⟩ => db' = db
  | _ => false

theorem answered_iff {α : Type} {db : Db} {x : Result (Commit α)} :
    answered db x = true ↔ ∃ p, x = .ok ⟨db, .ok p⟩ := by
  match x with
  | .ok ⟨db', .ok p⟩ => simp [answered]
  | .ok ⟨db', .error e⟩ => simp [answered]
  | .error e => simp [answered]

/-- The first proof of the challenge. -/
theorem first_proof : ∃ c ∈ issued.challenges,
    answered proved
      (verifyProof platform oneCodec realm (some (uuid 60)) (proofAt c 200) issued) = true ∧
    proved.receipts ≠ issued.receipts ∧
    validateReadyTransaction platform oneCodec realm proved = .ok () ∧
    checkedClock proved.metaRow.lastObservedAt 8210266876800000 = .ok 8210266876800000 := by
  decide +kernel

/-- After the enrollment, at a time past the expiry of the challenge. -/
theorem later_than_the_enrollment : Later platform oneCodec realm proved enrolled 5000 5000 := by
  obtain ⟨-, -, -, hload, htime⟩ := enrolled_state
  have hvalid : validateReadyTransaction platform oneCodec realm enrolled = .ok () := by
    simp only [validateReadyTransaction, hload, bind_ok, ensure_ok]
    exact ⟨realm, rfl, rfl⟩
  exact ⟨.single (operates_after proved (.enrollStore (enroll 300))), hvalid, by decide, htime⟩

/-- The proof of an enrolled store, made once more: the receipt stays, and so does the store. -/
theorem proof_after_the_enrollment : ∃ c ∈ issued.challenges, ∃ p p',
    verifyProof platform oneCodec realm (some (uuid 60)) (proofAt c 200) issued =
      .ok ⟨proved, .ok p⟩ ∧
    verifyProof platform oneCodec realm none (proofAt c 5000) enrolled =
      .ok ⟨enrolled.clocked 5000, .ok p'⟩ ∧
    p'.receiptId = p.receiptId ∧ p'.receiptSha256 = p.receiptSha256 ∧
    p'.verifiedAt = p.verifiedAt ∧ p'.expiresAt = p.expiresAt := by
  obtain ⟨c, hc, hfirst, -⟩ := first_proof
  obtain ⟨p, h⟩ := answered_iff.mp hfirst
  obtain ⟨hproof, -⟩ := @exact_retry platform oneCodec realm issued proved enrolled 5000 5000
    later_than_the_enrollment
  obtain ⟨p', hretry, hsame⟩ := hproof (some (uuid 60)) none (proofAt c 200) p h
  exact ⟨c, hc, p, p', h, hretry, hsame⟩

/-- The clock accepts a time past the calendar; the request is refused before the clock is
    asked. -/
theorem retry_past_the_calendar : ∃ c ∈ issued.challenges, ∃ p,
    verifyProof platform oneCodec realm (some (uuid 60)) (proofAt c 200) issued =
      .ok ⟨proved, .ok p⟩ ∧
    (∀ t, proved ≠ issued.clocked t) ∧ Accepted platform oneCodec realm proved ∧
    checkedClock proved.metaRow.lastObservedAt 8210266876800000 = .ok 8210266876800000 ∧
    ∀ draw, verifyProof platform oneCodec realm draw (proofAt c 8210266876800000) proved =
      .error (.invalid "authority timestamp is outside the contract") := by
  obtain ⟨c, hc, hfirst, hnew, hacc, hclock⟩ := first_proof
  obtain ⟨p, h⟩ := answered_iff.mp hfirst
  refine ⟨c, hc, p, h, ?_, hacc, hclock, ?_⟩
  · intro t heq
    have hsame : ∀ db : Db, (db.clocked t).receipts = db.receipts := fun _ => rfl
    exact hnew ((congrArg Db.receipts heq).trans (hsame issued))
  · intro draw
    rfl

end Sample

end Kirje.Authority
