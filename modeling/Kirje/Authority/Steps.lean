import Kirje.Authority.Observing

/-
  File:      Kirje/Authority/Steps.lean
  Subject:   Everything a call of the authority store may commit.

  A call runs on an accepted database or leaves it as it is.  What it commits is one
  of thirteen steps; only a new challenge whose context has an expired one takes two.
  Each step says what stood behind it, so that an invariant is one case per step and
  no proof opens a call again.

  * `Step`: the thirteen effects.
  * `runCall_steps`: **every call is refused or takes such steps.**
-/

namespace Kirje.Authority

open Base

variable {env : Platform} {codec : ManifestCodec} {s : Snapshot} {db db' : Db}

/-! ## 1. The steps -/

/-- **What stands behind a preparation.** -/
structure Prepares (env : Platform) (codec : ManifestCodec) (s : Snapshot) (db : Db)
    (r : PrepareRequest) (receipt : Receipt) (c : Challenge) (accounts : List Account)
    (location : Digest) (x : Store) (at' : Int) : Prop where
  authorizes : Authorizes db r.grantUse receipt c
  identity : validateAccountPrepareIdentity env codec r c receipt = .ok ()
  origins : validateCleanupReservationOrigins env codec s r c = .ok ()
  occupancy : validatePrepareOccupancy env codec db r c = .ok ()
  digest_fresh : ∀ t ∈ db.transitions, t.transitionSha256 ≠ accountTransitionDigest env r at'
  accounts_eq : preparedAccounts env codec db r c receipt.receiptId at' = .ok accounts
  location_eq : accountManifestLocationSha256 env codec c = .ok location
  found : db.stores.filter (blockable r location) = [x]

/-- **What a call may commit**, on a database accepted for a snapshot. -/
inductive Step (env : Platform) (codec : ManifestCodec) (s : Snapshot) (db : Db) : Db → Prop where
  | clocked {at' : Int} (ht : TimeOk db at') (hs : SchemaOk (db.clocked at')) :
      Step env codec s db (db.clocked at')
  | pendingExpired {c : Challenge} {at' : Int} (hc : c ∈ db.challenges) (hst : c.state = .pending)
      (ht : TimeOk db at') (hexp : c.expiresAt < at')
      (hs : SchemaOk (pendingExpired env db c at')) :
      Step env codec s db (pendingExpired env db c at')
  | receiptExpired {c : Challenge} {r : Receipt} {m : ActionManifest} {intent : Digest} {at' : Int}
      (hc : c ∈ db.challenges) (hst : c.state = .authorized)
      (hfree : ∀ g ∈ db.grants, g.grantId ≠ c.grantId) (hr : r ∈ db.receipts)
      (hrc : r.challengeId = c.challengeId) (hm : manifestOf env codec c = some m)
      (hi : expiryIntent env c r m = some intent) (ht : TimeOk db at') (hexp : c.expiresAt < at')
      (hs : SchemaOk (receiptExpired env db c r intent at')) :
      Step env codec s db (receiptExpired env db c r intent at')
  | challengeCreated {c : Challenge} {at' : Int} (hi : Issued env codec s db c at')
      (ht : TimeOk db at') (hs : SchemaOk (challengeCreated env db c at')) :
      Step env codec s db (challengeCreated env db c at')
  | challengeProved {c : Challenge} {r : Receipt} {at' : Int} (hc : c ∈ db.challenges)
      (hst : c.state = .pending) (ht : TimeOk db at') (hrc : r.challengeId = c.challengeId)
      (hrat : r.verifiedAt = at')
      (hrok : ReceiptOk env s c r ⟨c.nonce, c.challengeId, r.receiptId, at'⟩)
      (hs : SchemaOk (challengeProved env db c r at')) :
      Step env codec s db (challengeProved env db c r at')
  | storeEnrolled {r : EnrollStoreRequest} {receipt : Receipt} {c : Challenge} {m : ActionManifest}
      {e : StoreEnrollmentContext} {at' : Int} (he : Enrolls env codec db r receipt c m e)
      (hexp : at' ≤ receipt.expiresAt) (ht : TimeOk db at')
      (hs : SchemaOk (storeEnrolled env db r receipt.receiptId at')) :
      Step env codec s db (storeEnrolled env db r receipt.receiptId at')
  | cleanupClaimed {r : CleanupClaimRequest} {receipt : Receipt} {c : Challenge}
      {m : ActionManifest} {value : CredentialCleanupManifest} {x : Cleanup} {at' : Int}
      (hc : Claims env codec db r receipt c m value x) (hexp : at' ≤ receipt.expiresAt)
      (ht : TimeOk db at') (hs : SchemaOk (cleanupClaimed env db r receipt.receiptId at')) :
      Step env codec s db (cleanupClaimed env db r receipt.receiptId at')
  | cleanupDeleted {permit : CleanupDeletePermit} {x : Cleanup} {g : GrantUse} {at' : Int}
      (hd : Deletes db permit x g) (ht : TimeOk db at')
      (hs : SchemaOk (cleanupDeleted env db permit at')) :
      Step env codec s db (cleanupDeleted env db permit at')
  | transitionPrepared {r : PrepareRequest} {receipt : Receipt} {c : Challenge}
      {accounts : List Account} {location : Digest} {x : Store} {at' : Int}
      (hp : Prepares env codec s db r receipt c accounts location x at')
      (hexp : at' ≤ receipt.expiresAt) (ht : TimeOk db at')
      (hs : SchemaOk (transitionPrepared env db r accounts location receipt.receiptId at')) :
      Step env codec s db (transitionPrepared env db r accounts location receipt.receiptId at')
  | configCommitted {t : Transition} {o : Origin} {value : AccountMutationManifest}
      {account : AccountSnapshot} {a : Account} {x : Store} {at' : Int}
      (ho : Observed env codec s db t o value account a x at') (hst : t.state = .prepared)
      (hs : SchemaOk (configCommitted env db t a x o.receipt.receiptId at')) :
      Step env codec s db (configCommitted env db t a x o.receipt.receiptId at')
  | transitionFinalized {t : Transition} {o : Origin} {value : AccountMutationManifest}
      {account : AccountSnapshot} {a : Account} {x : Store} {at' : Int}
      (ho : Observed env codec s db t o value account a x at') (hst : t.state = .configCommitted)
      (hs : SchemaOk (transitionFinalized env db t o.receipt.receiptId at')) :
      Step env codec s db (transitionFinalized env db t o.receipt.receiptId at')
  | transitionAborted {t : Transition} {o : Origin} {value : AccountMutationManifest}
      {account : AccountSnapshot} {a : Account} {x : Store} {accounts : List Account} {at' : Int}
      (ho : Observed env codec s db t o value account a x at') (hst : t.state = .prepared)
      (ha : abortedAccounts env codec db t at' = .ok accounts)
      (hs : SchemaOk (transitionAborted env db t accounts o.receipt.receiptId at')) :
      Step env codec s db (transitionAborted env db t accounts o.receipt.receiptId at')
  | transitionStopped {t : Transition} {o : Origin} {value : AccountMutationManifest}
      {account : AccountSnapshot} {a : Account} {x : Store} {r : ObservationRequest} {at' : Int}
      (ho : Observed env codec s db t o value account a x at')
      ( hunsafe : unsafePair t (classifyObservedPair t r) = true)
      (hs : SchemaOk (transitionStopped env db t r o.receipt.receiptId at')) :
      Step env codec s db (transitionStopped env db t r o.receipt.receiptId at')

/-- The steps of one call: one, or two with an accepted database in between. -/
inductive Steps (env : Platform) (codec : ManifestCodec) (s : Snapshot) (db : Db) : Db → Prop where
  | one {db' : Db} (h : Step env codec s db db') : Steps env codec s db db'
  | two {db₁ db' : Db} (h : Step env codec s db db₁) (ha : Accepted env codec s db₁)
      (h' : Step env codec s db₁ db') : Steps env codec s db db'

/-- **The steps that leave the registry alone.** -/
inductive Quiet (env : Platform) (codec : ManifestCodec) (s : Snapshot) (db : Db) : Db → Prop where
  | clocked {at' : Int} (ht : TimeOk db at') (hs : SchemaOk (db.clocked at')) :
      Quiet env codec s db (db.clocked at')
  | pendingExpired {c : Challenge} {at' : Int} (hc : c ∈ db.challenges) (hst : c.state = .pending)
      (ht : TimeOk db at') (hexp : c.expiresAt < at')
      (hs : SchemaOk (pendingExpired env db c at')) :
      Quiet env codec s db (pendingExpired env db c at')
  | receiptExpired {c : Challenge} {r : Receipt} {m : ActionManifest} {intent : Digest} {at' : Int}
      (hc : c ∈ db.challenges) (hst : c.state = .authorized)
      (hfree : ∀ g ∈ db.grants, g.grantId ≠ c.grantId) (hr : r ∈ db.receipts)
      (hrc : r.challengeId = c.challengeId) (hm : manifestOf env codec c = some m)
      (hi : expiryIntent env c r m = some intent) (ht : TimeOk db at') (hexp : c.expiresAt < at')
      (hs : SchemaOk (receiptExpired env db c r intent at')) :
      Quiet env codec s db (receiptExpired env db c r intent at')
  | challengeCreated {c : Challenge} {at' : Int} (hi : Issued env codec s db c at')
      (ht : TimeOk db at') (hs : SchemaOk (challengeCreated env db c at')) :
      Quiet env codec s db (challengeCreated env db c at')
  | challengeProved {c : Challenge} {r : Receipt} {at' : Int} (hc : c ∈ db.challenges)
      (hst : c.state = .pending) (ht : TimeOk db at') (hrc : r.challengeId = c.challengeId)
      (hrat : r.verifiedAt = at')
      (hrok : ReceiptOk env s c r ⟨c.nonce, c.challengeId, r.receiptId, at'⟩)
      (hs : SchemaOk (challengeProved env db c r at')) :
      Quiet env codec s db (challengeProved env db c r at')

theorem Quiet.step (h : Quiet env codec s db db') : Step env codec s db db' := by
  cases h with
  | clocked ht hs => exact .clocked ht hs
  | pendingExpired hc hst ht hexp hs => exact .pendingExpired hc hst ht hexp hs
  | receiptExpired hc hst hfree hr hrc hm hi ht hexp hs =>
      exact .receiptExpired hc hst hfree hr hrc hm hi ht hexp hs
  | challengeCreated hi ht hs => exact .challengeCreated hi ht hs
  | challengeProved hc hst ht hrc hrat hrok hs => exact .challengeProved hc hst ht hrc hrat hrok hs

/-- **A quiet step keeps acceptance.** -/
theorem Quiet.accepted (h : Quiet env codec s db db') (ha : Accepted env codec s db) :
    Accepted env codec s db' := by
  cases h with
  | clocked ht hs => exact ha.clocked ht hs
  | pendingExpired hc hst ht hexp hs => exact ha.pendingExpired hc hst ht hexp hs
  | receiptExpired hc hst hfree hr hrc hm hi ht hexp hs =>
      exact ha.receiptExpired hc hst hfree hr hrc hm hi ht hexp hs
  | challengeCreated hi ht hs => exact ha.challengeCreated hi ht hs
  | challengeProved hc hst ht hrc hrat hrok hs => exact ha.challengeProved hc hst ht hrc hrat hrok hs

/-- One quiet step, or two. -/
inductive Quiets (env : Platform) (codec : ManifestCodec) (s : Snapshot) (db : Db) : Db → Prop where
  | one {db' : Db} (h : Quiet env codec s db db') : Quiets env codec s db db'
  | two {db₁ db' : Db} (h : Quiet env codec s db db₁) (h' : Quiet env codec s db₁ db') :
      Quiets env codec s db db'

theorem Quiets.steps (h : Quiets env codec s db db') (ha : Accepted env codec s db) :
    Steps env codec s db db' := by
  cases h with
  | one h => exact .one h.step
  | two h h' => exact .two h.step (h.accepted ha) h'.step

theorem Quiets.accepted (h : Quiets env codec s db db') (ha : Accepted env codec s db) :
    Accepted env codec s db' := by
  cases h with
  | one h => exact h.accepted ha
  | two h h' => exact h'.accepted (h.accepted ha)

/-! ## 2. Challenges -/

/-- **A new challenge is issued** for the manifest of its request. -/
theorem freshChallenge_ok {draw : Option (GrantId × Digest)} {r : CreateChallengeRequest}
    {at' : Int} {k : Commit ChallengeExport}
    (hparse : ActionManifest.parse env codec r.manifest.canonicalBytes = .ok r.manifest)
    (hsup : supportedChallengeAction r.manifest.action)
    (hintr : intrinsic env s r.manifest.payload) (ht : TimeOk db at') (h0 : 0 ≤ at')
    (hexp : Representable r.expiresAt)
    (hcl : r.manifest.action = .credentialCleanup →
      validateCredentialCleanupContext env codec db s r.manifest false = .ok ())
    (h : freshChallenge env codec s draw r (manifestContextDigest env s r.manifest) at' db =
      .ok k) :
    ∃ c, Issued env codec s db c at' ∧ SchemaOk (challengeCreated env db c at') ∧
      k = ⟨challengeCreated env db c at', challengeExportFromStored env codec (linked db c)⟩ ∧
      c.contextSha256 = manifestContextDigest env s r.manifest := by
  simp only [freshChallenge, validateRequestedExpiry, bind_ok, orRefuse_ok, ensure_ok, pure_ok]
    at h
  obtain ⟨_, -, _, hlife, ⟨grantId, nonce⟩, -, p, hp, db', hins, stored, hst, rfl⟩ := h
  obtain ⟨rfl, hs⟩ := insertChallenge_ok rfl hins
  have hnone := effectKind_of_supported hsup
  have hvalid := (ActionManifest.parse_ok env codec hparse).1
  obtain ⟨-, ⟨effects, heff, hf⟩, -, -⟩ := AuthorizationPayload.new_ok hp
  obtain rfl := AuthorizationPayload.manifestEffects_control hnone heff
  have hpp := AuthorizationPayload.parse_new hvalid (i64_of_representable ht.utc)
    (i64_of_representable hexp) hp
  -- the row loaded is the row inserted
  have hrow : stored = linked db (challengeRow r.manifest p
      (manifestContextDigest env s r.manifest)) := by
    rw [loadChallenge_iff hs.tables] at hst
    refine eq_of_key_eq hs.tables.challenges.id_unique hst.1 ?_ hst.2
    simp [challengeCreated, appendEvent, Db.clocked, linked]
  have hmanifest : manifestOf env codec (challengeRow r.manifest p
      (manifestContextDigest env s r.manifest)) = some r.manifest := by
    simp [manifestOf, challengeRow, hparse, Except.toOption]
  obtain ⟨fields, bytes, id⟩ := p
  simp only at hf
  subst hf
  have hpayload := congrArg Except.toOption hpp
  refine ⟨_, ⟨⟨rfl, rfl⟩, ⟨ht.utc, hexp⟩, rfl, ?_, hsup, r.manifest, _, hmanifest, hpayload, hvalid,
    ?_, hcl⟩, hs, by rw [hrow], rfl⟩
  · show 0 ≤ at' ∧ at' < r.expiresAt ∧ r.expiresAt - at' ≤ 900000
    omega
  · exact ⟨⟨rfl, rfl, rfl⟩, ⟨rfl, rfl, rfl⟩, rfl, ⟨rfl, rfl, rfl⟩, ⟨rfl, rfl, rfl, rfl, rfl⟩,
      ⟨rfl, rfl, rfl, rfl, rfl⟩, ⟨rfl, rfl⟩, rfl, ⟨rfl, rfl, rfl⟩, rfl, hintr⟩

/-- The frame of a pending challenge that expires. -/
theorem pending_frame (h : Accepted env codec s db) {c : Challenge} (hc : c ∈ db.challenges)
    (hst : c.state = .pending) {at' : Int} (ht : TimeOk db at')
    (hs : SchemaOk (pendingExpired env db c at')) :
    Frame db (pendingExpired env db c at')
      (eventRows env db.sequenceHighWater [challengeExpiredEvent c at']) := by
  have he := moved_effect h hc (h.pending_free hc hst) ht .expired (List.Subset.refl _)
    (fun r hr => Or.inl hr) (List.Subset.refl db.nonces)
  have heq : pendingExpired env db c at' = challengeEffect env db
      (db.challengeMoved c.challengeId c.state .expired).challenges db.receipts db.nonces at'
      [challengeExpiredEvent c at'] := by
    rw [hst]
    rfl
  rw [heq] at hs ⊢
  exact he.frame h.schema hs (by simp [challengeExpiredEvent])

theorem le_i64Max {t : Int} (h : Representable t) : t ≤ i64Max := by
  have := h.2
  simp only [i64Max]
  omega

/-- A cleanup that may be claimed is of a valid context. -/
theorem cleanupContext_of_fresh {m : ActionManifest} (ha : m.action = .credentialCleanup)
    (h : validateFreshManifestContext env codec db s m = .ok ()) :
    validateCredentialCleanupContext env codec db s m false = .ok () := by
  have hp : ∃ value, m.payload = .credentialCleanup value := by
    unfold ActionManifest.action at ha
    cases hm : m.payload <;> simp [hm, ManifestPayload.action] at ha ⊢
  obtain ⟨value, hp⟩ := hp
  simp only [validateFreshManifestContext, hp] at h
  simp only [validateCredentialCleanupContext, bind_ok, ensure_ok] at h ⊢
  obtain ⟨value, hv, x, hx, u₁, h₁, u₂, h₂, u₃, h₃, u₄, h₄, -⟩ := h
  exact ⟨value, hv, x, hx, u₁, h₁, u₂, h₂, u₃, h₃, u₄, h₄, by simp⟩

theorem createChallenge_quiets {draw : Option (GrantId × Digest)} {r : CreateChallengeRequest}
    {k : Commit ChallengeExport} (h : createChallenge env codec s draw r db = .ok k) :
    Accepted env codec s db ∧ Quiets env codec s db k.db := by
  simp only [createChallenge, validateIntrinsicManifest, bind_ok, ensure_ok, checkIf_ok] at h
  obtain ⟨_, hreq, reparsed, hparse, _, rfl, _, hsup, _, hacc, at', hat, _, hintr, _, -, _, hcl,
    h⟩ := h
  have ha : Accepted env codec s db := hacc
  have htime := timeOk_of_effectiveTime hat
  simp only [ensureSupportedChallengeAction, ensure_ok] at hsup
  simp only [validateChallengeRequest, inputUtcMillis, bind_ok, ensure_ok] at hreq
  obtain ⟨_, ⟨hobs, -⟩, _, -, _, hexp, -⟩ := hreq
  have h0 : 0 ≤ at' := by
    have := (effectiveTime_ok.mp hat).2.1
    omega
  have hcontext := fun hx => cleanupContext_of_fresh hx (hcl hx)
  refine ⟨ha, ?_⟩
  split at h
  · next existing hex =>
      have hmem : existing ∈ db.challenges := List.mem_of_find?_eq_some hex
      have hpend := List.find?_some hex
      split at h
      · obtain ⟨rfl, hs⟩ := commitClock_ok h
        exact .one (.clocked htime hs)
      · next hlate =>
          rw [bind_ok] at h
          obtain ⟨db₁, hdb₁, h⟩ := h
          obtain ⟨hs₁, rfl⟩ := expirePending_ok hdb₁
          have hst : existing.state = .pending := by
            simp only [decide_eq_true_eq] at hpend
            exact hpend.2
          have hs : SchemaOk (pendingExpired env db existing at') := by
            refine hs₁.clocked htime.monotone (ha.clock.trans_le htime.monotone) ?_
            exact le_i64Max htime.utc
          have hf := pending_frame ha hmem hst htime hs
          have ht₁ : TimeOk (appendEvent env (db.challengeMoved existing.challengeId .pending .expired)
              (challengeExpiredEvent existing at')) at' := ⟨htime.monotone, htime.utc⟩
          obtain ⟨c, hi, hsc, rfl, -⟩ := freshChallenge_ok hparse hsup hintr ht₁ h0 hexp
            (fun hx => hf.cleanupContext ha (hcontext hx)) h
          refine .two (.pendingExpired hmem hst htime (by omega) hs)
            (.challengeCreated ?_ ⟨Int.le_refl at', htime.utc⟩ hsc)
          obtain ⟨m, q, hq⟩ := hi.signed
          exact ⟨hi.pending, hi.utc, hi.issued_at, hi.lifetime, hi.supported, m, q, hq.manifest,
            hq.payload, hq.valid, hq.signed, hq.cleanup⟩
  · obtain ⟨c, hi, hs, rfl, -⟩ := freshChallenge_ok hparse hsup hintr htime h0 hexp hcontext h
    exact .one (.challengeCreated hi htime hs)

/-- **A first proof leaves a valid receipt.** -/
theorem authorize_receiptOk (ha : Accepted env codec s db) {c : Challenge} {p : AuthorizationProof}
    {receiptId : ReceiptId} {at' : Int} (hc : c ∈ db.challenges) (ht : TimeOk db at')
    (hlive : at' ≤ c.expiresAt) (hp : validateFirstProof env s c p = .ok ()) :
    ReceiptOk env s c (receiptRow env c p receiptId at')
      ⟨c.nonce, c.challengeId, receiptId, at'⟩ := by
  have hok := ha.history.challenges c hc
  simp only [validateFirstProof, bind_ok, ensure_ok] at hp
  obtain ⟨_, hproof, _, -, hsig⟩ := hp
  refine ⟨ht.utc, hok.utc.2, ⟨p, ?_, rfl, rfl, hproof⟩, ⟨rfl, rfl, rfl, rfl, rfl, rfl, rfl⟩,
    ⟨rfl, rfl⟩, ⟨hok.issued.trans ht.monotone, hlive, rfl⟩, ⟨rfl, rfl, rfl, rfl⟩, ?_⟩
  · show (AuthorizationProof.parseCanonical p.canonicalBytes).toOption = some p
    rw [AuthorizationProof.parse_canonicalBytes]
    rfl
  · show (verifyAuthorizationSignature env (s.publicKey c.action.requiredRole).bytes
      c.signingPayload p.signature.bytes).isOk
    rw [hsig]
    rfl

theorem verifyProof_quiets {draw : Option ReceiptId} {r : VerifyProofRequest}
    {k : Commit ReceiptProjection} (h : verifyProof env codec s draw r db = .ok k) :
    Accepted env codec s db ∧ Quiets env codec s db k.db := by
  simp only [verifyProof, bind_ok, orRefuse_ok] at h
  obtain ⟨_, -, _, hacc, c, hc, at', hat, h⟩ := h
  have ha : Accepted env codec s db := hacc
  have htime := timeOk_of_effectiveTime hat
  rw [loadChallenge_iff ha.tables] at hc
  refine ⟨ha, ?_⟩
  split at h
  · simp only [recoverReceipt, bind_ok, observeClockPair_ok, pure_ok] at h
    obtain ⟨_, -, _, ⟨hs, rfl⟩, _, -, rfl⟩ := h
    exact .one (.clocked htime hs)
  · split at h
    · obtain ⟨rfl, hs⟩ := commitClock_ok h
      exact .one (.clocked htime hs)
    · next hst =>
        split at h
        · next hlate =>
            obtain ⟨rfl, hs⟩ := commitPendingExpiry_ok h
            exact .one (.pendingExpired hc.1 hst htime hlate hs)
        · next hlive =>
            simp only [authorize, bind_ok, orRefuse_ok, pure_ok] at h
            obtain ⟨_, hp, receiptId, -, db', hins, _, -, rfl⟩ := h
            obtain ⟨rfl, hs⟩ := insertReceipt_ok hins
            exact .one (.challengeProved hc.1 hst htime rfl rfl
              (authorize_receiptOk ha hc.1 htime (by omega) hp) hs)
    · cases h
    · cases h

/-! ## 3. Grants -/

/-- A grant that does not load was not used. -/
theorem unused_of_load {id : GrantId} (h : loadGrantUse db id = none) :
    ∀ g ∈ db.grants, g.grantId ≠ id := by
  intro g hg heq
  have := List.find?_eq_none.mp h g hg
  simp [heq] at this

theorem Accepted.receipt_expires (ha : Accepted env codec s db) {r : Receipt} {c : Challenge}
    (hr : r ∈ db.receipts) (hc : c ∈ db.challenges) (hrc : r.challengeId = c.challengeId) :
    r.expiresAt = c.expiresAt := by
  obtain ⟨c', hc', hid, -, -, -, -, -, -, hexp⟩ :=
    ha.schema.foreignKeys.authorization.receipt_challenge r hr
  have : c' = c := eq_of_key_eq ha.tables.challenges.id_unique hc' hc (hid.trans hrc)
  rw [← hexp, this]

theorem authorizes_of (ha : Accepted env codec s db) {r : GrantUseRequest} {receipt : Receipt}
    {c : Challenge} (hr : loadReceiptById db r.receiptId = some receipt)
    (hc : loadChallenge db receipt.challengeId = some c) (hst : c.state = .authorized)
    (hgrant : r.grantId = c.grantId) (haction : r.action = c.action)
    (htarget : r.targetKind = c.targetKind ∧ r.targetBytes = c.targetId)
    (hmanifest : r.manifestSha256 = c.manifestSha256) (hfree : loadGrantUse db r.grantId = none) :
    Authorizes db r receipt c := by
  rw [loadReceiptById_iff ha.tables] at hr
  rw [loadChallenge_iff ha.tables] at hc
  exact ⟨hr.1, hr.2, hc.1, hc.2.symm, hst, hgrant, haction, htarget, hmanifest,
    unused_of_load hfree⟩

/-- **A receipt that a first use at a time may rest on.** -/
structure Live (db : Db) (r : GrantUseRequest) (at' : Int) (receipt : Receipt) : Prop where
  unused : ∀ g ∈ db.grants, g.grantId ≠ r.grantId
  mem : receipt ∈ db.receipts ∧ receipt.receiptId = r.receiptId
  authorized : ∃ c ∈ db.challenges, c.challengeId = receipt.challengeId ∧ c.state = .authorized
  not_expired : at' ≤ receipt.expiresAt

theorem Authorizes.live {r : GrantUseRequest} {receipt : Receipt} {c : Challenge} {at' : Int}
    (h : Authorizes db r receipt c) (hexp : at' ≤ receipt.expiresAt) : Live db r at' receipt :=
  ⟨h.unused, ⟨h.receipt_mem, h.receipt_id⟩, ⟨c, h.challenge_mem, h.challenge_id.symm, h.state⟩, hexp⟩

/-- There is at most one. -/
theorem Live.eq (ht : TablesOk db) {r : GrantUseRequest} {x y : Receipt} {at' : Int}
    (hx : Live db r at' x) (hy : y ∈ db.receipts ∧ y.receiptId = r.receiptId) : x = y :=
  eq_of_key_eq ht.receipts.id_unique hx.mem.1 hy.1 (hx.mem.2.trans hy.2.symm)

/-- **A use that comes to nothing**: no receipt is live, and what is committed leaves the registry
    alone. -/
structure Spent (env : Platform) (codec : ManifestCodec) (s : Snapshot) (db : Db)
    (r : GrantUseRequest) (at' : Int) (db' : Db) : Prop where
  quiet : Quiet env codec s db db'
  not_live : ∀ receipt, ¬Live db r at' receipt

theorem spent_of_used {r : GrantUseRequest} {g : GrantUse} {at' : Int}
    (hg : loadGrantUse db r.grantId = some g) (hq : Quiet env codec s db db') :
    Spent env codec s db r at' db' := by
  refine ⟨hq, fun receipt hl => ?_⟩
  have hid := List.find?_some hg
  exact hl.unused g (List.mem_of_find?_eq_some hg) (by simpa using hid)

theorem spent_of_state (ht : TablesOk db) {r : GrantUseRequest} {receipt : Receipt} {c : Challenge}
    {at' : Int} (hr : receipt ∈ db.receipts ∧ receipt.receiptId = r.receiptId)
    (hc : c ∈ db.challenges ∧ c.challengeId = receipt.challengeId) (hst : c.state ≠ .authorized)
    (hq : Quiet env codec s db db') : Spent env codec s db r at' db' := by
  refine ⟨hq, fun x hl => ?_⟩
  obtain ⟨c', hc', hid, hst'⟩ := hl.authorized
  rw [hl.eq ht hr] at hid
  have : c' = c := eq_of_key_eq ht.challenges.id_unique hc' hc.1 (hid.trans hc.2.symm)
  exact hst (this ▸ hst')

theorem spent_of_expired (ht : TablesOk db) {r : GrantUseRequest} {receipt : Receipt} {at' : Int}
    (hr : receipt ∈ db.receipts ∧ receipt.receiptId = r.receiptId) (hexp : receipt.expiresAt < at')
    (hq : Quiet env codec s db db') : Spent env codec s db r at' db' := by
  refine ⟨hq, fun x hl => ?_⟩
  have hle := hl.not_expired
  rw [hl.eq ht hr] at hle
  omega

/-- The intent of a request to enroll is the one its rows spell out. -/
theorem enrollment_intent {r : EnrollStoreRequest} {c : Challenge} {receipt : Receipt}
    {e : StoreEnrollmentContext} {m : ActionManifest} (hm : storeEnrollmentContext m = some e)
    (h : r.grantUse.grantId = c.grantId ∧ r.grantUse.receiptId = receipt.receiptId ∧
      r.grantUse.action = c.action ∧ r.grantUse.targetKind = c.targetKind ∧
      r.grantUse.targetBytes = c.targetId ∧ r.grantUse.manifestSha256 = c.manifestSha256 ∧
      r.storeId = e.storeId ∧ r.locationSha256 = e.locationSha256 ∧
      r.configGeneration = e.configGeneration ∧ r.configSha256 = e.configSha256) :
    expiryIntent env c receipt m = some (enrollmentIntentDigest env r) := by
  obtain ⟨h₁, h₂, h₃, h₄, h₅, h₆, h₇, h₈, h₉, h₁₀⟩ := h
  have hp : ∃ value, m.payload = .storeEnroll value := by
    unfold storeEnrollmentContext at hm
    split at hm
    · next value hp => exact ⟨value, hp⟩
    · cases hm
  obtain ⟨value, hp⟩ := hp
  simp only [expiryIntent, hp, hm, Option.map_some, enrollmentIntentFromRows,
    enrollmentIntentDigest, h₁, h₂, h₃, h₄, h₅, h₆, h₇, h₈, h₉, h₁₀]

/-- **What a call that enrolls a store commits.** -/
theorem enrollStore_effect {r : EnrollStoreRequest} {k : Commit EnrolledStoreProjection}
    (h : enrollStore env codec s r db = .ok k) :
    Accepted env codec s db ∧ ∃ at', effectiveTime db r.observedAt = .ok at' ∧
      (Spent env codec s db r.grantUse at' k.db ∨
        ∃ receipt c m e, Enrolls env codec db r receipt c m e ∧ at' ≤ receipt.expiresAt ∧
          SchemaOk (storeEnrolled env db r receipt.receiptId at') ∧
          k.db = storeEnrolled env db r receipt.receiptId at') := by
  simp only [enrollStore, validateEnrollStoreRequest, bind_ok, ensure_ok] at h
  obtain ⟨_, ⟨_, -, canonical, hcan, hreq⟩, _, hacc, h⟩ := h
  have ha : Accepted env codec s db := hacc
  refine ⟨ha, ?_⟩
  split at h
  · next g hg =>
      simp only [recoverEnrollment, bind_ok, ensure_ok, orRefuse_ok] at h
      obtain ⟨_, -, receipt, -, c, -, e, -, store, -, _, -, v, -, _, -, at', hat, h⟩ := h
      obtain ⟨rfl, hs⟩ := commitClock_ok h
      exact ⟨at', hat, .inl (spent_of_used hg (.clocked (timeOk_of_effectiveTime hat) hs))⟩
  · next hfree =>
      simp only [useEnrollment, bind_ok, orRefuse_ok] at h
      obtain ⟨receipt, hr, c, hc, e, hid, at', hat, h⟩ := h
      have htime := timeOk_of_effectiveTime hat
      simp only [validateEnrollmentIdentity, bind_ok, orRefuse_ok, ensure_ok, pure_ok] at hid
      obtain ⟨m, hm, e', he, _, -, _, ⟨hg, hrid, hrc, -, hact, hact', htk, htb, hms, hsid, hloc,
        hgen, hcfg, -⟩, rfl⟩ := hid
      have hrm := (loadReceiptById_iff ha.tables).mp hr
      have hcm := (loadChallenge_iff ha.tables).mp hc
      have hexpires := ha.receipt_expires hrm.1 hcm.1 hcm.2.symm
      refine ⟨at', hat, ?_⟩
      split at h
      · next hst =>
          rw [bind_ok] at h
          obtain ⟨_, -, h⟩ := h
          obtain ⟨rfl, hs⟩ := commitClock_ok h
          exact .inl (spent_of_state ha.tables hrm hcm (by simp [hst]) (.clocked htime hs))
      · next hst =>
          have hauth := authorizes_of ha hr hc hst hg hact' ⟨htk, htb⟩ hms hfree
          split at h
          · next hlate =>
              obtain ⟨rfl, hs⟩ := commitReceiptExpiry_ok h
              refine .inl (spent_of_expired ha.tables hrm hlate (.receiptExpired hcm.1 hst ?_ hrm.1
                hcm.2.symm hm (enrollment_intent he ⟨hg, hrid, hact', htk, htb, hms, hsid, hloc,
                hgen, hcfg⟩) htime (hexpires ▸ hlate) hs))
              exact fun g hgm hge => hauth.unused g hgm (hge.trans hg.symm)
          · next hlive =>
              simp only [registerStore, bind_ok, ensure_ok, pure_ok] at h
              obtain ⟨_, hnone, db', hins, rfl⟩ := h
              obtain ⟨rfl, hs⟩ := insertStore_ok hins
              refine .inr ⟨receipt, c, m, e', ⟨hauth, hact, hm, he, ⟨hsid, hloc, hgen, hcfg⟩, ?_, ?_⟩,
                by omega, hs, rfl⟩
              · rw [← hreq.1]
                exact hreq.2.2.1
              · intro x hx heq
                have := List.filter_eq_nil_iff.mp hnone x hx
                simp [heq] at this
      · cases h
      · cases h

theorem enrollStore_steps {r : EnrollStoreRequest} {k : Commit EnrolledStoreProjection}
    (h : enrollStore env codec s r db = .ok k) :
    Accepted env codec s db ∧ Steps env codec s db k.db := by
  obtain ⟨ha, at', hat, hspent | ⟨receipt, c, m, e, he, hexp, hs, hdb⟩⟩ := enrollStore_effect h
  · exact ⟨ha, .one hspent.quiet.step⟩
  · rw [hdb]
    exact ⟨ha, .one (.storeEnrolled he hexp (timeOk_of_effectiveTime hat) hs)⟩

/-- The cleanup of a valid context is the row its manifest names. -/
theorem cleanupContext_names {m : ActionManifest} {value : CredentialCleanupManifest} {b : Bool}
    (hv : cleanupManifest m = some value)
    (h : validateCredentialCleanupContext env codec db s m b = .ok ()) :
    ∃ x, loadCredentialCleanup db value.cleanupId = some x ∧
      (∃ i ∈ value.transitionId, x.transitionId = some i) ∧ x.locatorKind = value.locatorKind ∧
      x.locatorSha256 = value.locatorSha256 := by
  simp only [validateCredentialCleanupContext, loadCleanupOrigin, loadCleanupTransition, bind_ok,
    orRefuse_ok, ensure_ok, pure_ok] at h
  obtain ⟨value', hv', y, ⟨⟨x, t⟩, ⟨i, hi, _, -, x', hx', j, hj, _, hij, t', -, _, -, hxt⟩, o, -, value₁,
    -, before, -, _, -, d, -, rfl⟩, _, ⟨-, hdk, hds, hxk, hxs⟩, -⟩ := h
  obtain rfl : value' = value := Option.some.inj (hv'.symm.trans hv)
  obtain ⟨rfl, rfl⟩ := Prod.mk.inj hxt
  exact ⟨x', hx', ⟨i, hi, by rw [hj, hij]⟩, hxk.trans hdk, hxs.trans hds⟩

/-- **What a call that claims a cleanup commits.** -/
theorem claimCredentialCleanup_effect {r : CleanupClaimRequest} {k : Commit ClaimOutcome}
    (h : claimCredentialCleanup env codec s r db = .ok k) :
    Accepted env codec s db ∧ ∃ at', effectiveTime db r.observedAt = .ok at' ∧
      (Spent env codec s db r.grantUse at' k.db ∨
        ∃ receipt c m value x, Claims env codec db r receipt c m value x ∧
          at' ≤ receipt.expiresAt ∧ SchemaOk (cleanupClaimed env db r receipt.receiptId at') ∧
          k.db = cleanupClaimed env db r receipt.receiptId at') := by
  simp only [claimCredentialCleanup, bind_ok] at h
  obtain ⟨_, hacc, h⟩ := h
  have ha : Accepted env codec s db := hacc
  refine ⟨ha, ?_⟩
  split at h
  · next g hg =>
      simp only [recoverClaim, bind_ok, ensure_ok, orRefuse_ok] at h
      obtain ⟨_, -, receipt, -, c, -, m, -, x, -, _, -, _, -, at', hat, h⟩ := h
      obtain ⟨rfl, hs⟩ := commitClock_ok h
      exact ⟨at', hat, .inl (spent_of_used hg (.clocked (timeOk_of_effectiveTime hat) hs))⟩
  · next hfree =>
      simp only [useClaim, bind_ok, orRefuse_ok] at h
      obtain ⟨receipt, hr, c, hc, m, hid, at', hat, h⟩ := h
      have htime := timeOk_of_effectiveTime hat
      simp only [validateCleanupClaimIdentity, bind_ok, orRefuse_ok, ensure_ok, pure_ok] at hid
      obtain ⟨m', hm, value, hv, _, ⟨hg, hrid, hrc, -, hact, hact', hk, htk, htb, htb', hms, -, hcid⟩,
        rfl⟩ := hid
      have hrm := (loadReceiptById_iff ha.tables).mp hr
      have hcm := (loadChallenge_iff ha.tables).mp hc
      have hexpires := ha.receipt_expires hrm.1 hcm.1 hcm.2.symm
      refine ⟨at', hat, ?_⟩
      split at h
      · cases h
      · next hst =>
          have hauth := authorizes_of ha hr hc hst hg hact' ⟨htk, htb⟩ hms hfree
          split at h
          · next hlate =>
              obtain ⟨rfl, hs⟩ := commitReceiptExpiry_ok h
              refine .inl (spent_of_expired ha.tables hrm hlate (.receiptExpired hcm.1 hst ?_ hrm.1
                hcm.2.symm hm ?_ htime (hexpires ▸ hlate) hs))
              · exact fun g hgm hge => hauth.unused g hgm (hge.trans hg.symm)
              · unfold cleanupManifest at hv
                split at hv
                · next value hp => simp only [expiryIntent, hp]
                · cases hv
          · next hlive =>
              simp only [claimCleanup, bind_ok, orRefuse_ok, pure_ok] at h
              obtain ⟨_, -, _, hctx, x, hx, db', hins, rfl⟩ := h
              obtain ⟨⟨y, hy⟩, rfl, hs⟩ := insertClaim_ok hins
              obtain ⟨x', hx', hnames⟩ := cleanupContext_names hv hctx
              have hmem : y ∈ db.cleanups.filter (claimable r.cleanupId) := by
                rw [hy]
                exact List.mem_singleton_self y
              obtain ⟨hym, hyp⟩ := List.mem_filter.mp hmem
              simp only [claimable, decide_eq_true_eq] at hyp
              have hxm := (loadCredentialCleanup_iff ha.tables).mp hx'
              have hyx : y = x' := eq_of_key_eq ha.tables.cleanups.id_unique hym hxm.1
                (hyp.1.trans (hcid.symm.trans hxm.2.symm))
              exact .inr ⟨receipt, c, m', value, y, ⟨hauth, hact, ⟨hk, htb'⟩, hm, hv, hy,
                hyx ▸ ⟨hxm.2, hnames⟩⟩, by omega, hs, rfl⟩
      · cases h
      · cases h

theorem claimCredentialCleanup_steps {r : CleanupClaimRequest} {k : Commit ClaimOutcome}
    (h : claimCredentialCleanup env codec s r db = .ok k) :
    Accepted env codec s db ∧ Steps env codec s db k.db := by
  obtain ⟨ha, at', hat, hspent | ⟨receipt, c, m, value, x, hc, hexp, hs, hdb⟩⟩ :=
    claimCredentialCleanup_effect h
  · exact ⟨ha, .one hspent.quiet.step⟩
  · rw [hdb]
    exact ⟨ha, .one (.cleanupClaimed hc hexp (timeOk_of_effectiveTime hat) hs)⟩

/-- **What a call that deletes a credential commits.** -/
theorem applyCredentialCleanupDelete_effect {backend : Bytes → Bytes → Bool}
    {permit : CleanupDeletePermit} {observedAt : Int} {k : Commit CleanupProjection}
    (h : applyCredentialCleanupDelete env codec s backend permit observedAt db = .ok k) :
    Accepted env codec s db ∧ ∃ at' x g, effectiveTime db observedAt = .ok at' ∧
      Deletes db permit x g ∧ SchemaOk (cleanupDeleted env db permit at') ∧
      k.db = cleanupDeleted env db permit at' := by
  simp only [applyCredentialCleanupDelete, deletionReached, bind_ok, ensure_ok, orRefuse_ok, pure_ok]
    at h
  obtain ⟨x, ⟨_, -, _, -, _, hacc, at', hat, c, hc, g, hg, _, hrow, ⟨kind, service, username⟩, -, _,
    -, _, -, rfl⟩, _, -, db', hdel, rfl⟩ := h
  have ha : Accepted env codec s db := hacc
  obtain ⟨⟨y, hy⟩, rfl, hs⟩ := recordDeletion_ok hdel
  have hgm := (loadGrantUse_iff ha.tables).mp hg
  exact ⟨ha, at', y, g, hat, ⟨hy, hgm, hrow.2.2.2.2.2.1, hrow.2.2.2.2.2.2.1⟩, hs, rfl⟩

theorem applyCredentialCleanupDelete_steps {backend : Bytes → Bytes → Bool}
    {permit : CleanupDeletePermit} {observedAt : Int} {k : Commit CleanupProjection}
    (h : applyCredentialCleanupDelete env codec s backend permit observedAt db = .ok k) :
    Accepted env codec s db ∧ Steps env codec s db k.db := by
  obtain ⟨ha, at', x, g, hat, hd, hs, hdb⟩ := applyCredentialCleanupDelete_effect h
  rw [hdb]
  exact ⟨ha, .one (.cleanupDeleted hd (timeOk_of_effectiveTime hat) hs)⟩

/-! ## 4. Transitions -/

theorem kindOfAction_action (kind : TransitionKind) : kindOfAction kind.action = some kind := by
  cases kind <;> rfl

/-- The intent of an account manifest is that of its mutation. -/
theorem expiryIntent_of_mutation {c : Challenge} {receipt : Receipt} {m : ActionManifest}
    {kind : TransitionKind} {value : AccountMutationManifest}
    (h : mutationOf kind m.payload = some value) :
    expiryIntent env c receipt m = accountPrepareIntentFromRows env c receipt value := by
  unfold mutationOf at h
  split at h <;> cases h
  all_goals next hp => simp only [expiryIntent, hp]

/-- The intent of a request to prepare is the one its rows spell out. -/
theorem prepare_intent {r : PrepareRequest} {c : Challenge} {receipt : Receipt} {target : Bytes}
    {value : AccountMutationManifest} {account : AccountSnapshot} {m : ActionManifest}
    (hm : mutationOf r.kind m.payload = some value)
    (ha : accountSnapshotOf r.kind value = some account) (hg : PrepareGrant r c receipt target)
    (hv : PrepareValue env r value account) :
    expiryIntent env c receipt m = some (accountPrepareIntent env r) := by
  have hkind : kindOfAction r.grantUse.action = some r.kind := by
    rw [hg.action.1, kindOfAction_action]
  rw [expiryIntent_of_mutation hm]
  simp only [accountPrepareIntentFromRows, accountPrepareIntent, ← hg.grant_id,
    ← hg.receipt_id, ← hg.action.2, ← hg.target_kind.2, hg.target_id, ← hg.manifest,
    hv.transition_id, hv.store_id, hv.account_id, hv.before_config, hv.after_config,
    hv.expected_generation, hv.next_generation, hv.display_id, hv.account_generation,
    hv.credential_id, hv.binding, Option.bind_eq_bind]
  rw [hkind, Option.bind_some, ha, Option.bind_some]

/-- **What a call that prepares a transition commits.** -/
theorem prepareAccountTransition_effect {r : PrepareRequest} {k : Commit TransitionProjection}
    (h : prepareAccountTransition env codec s r db = .ok k) :
    Accepted env codec s db ∧ ∃ at', effectiveTime db r.observedAt = .ok at' ∧
      (Spent env codec s db r.grantUse at' k.db ∨
        ∃ receipt c accounts location x,
          Prepares env codec s db r receipt c accounts location x at' ∧ at' ≤ receipt.expiresAt ∧
          SchemaOk (transitionPrepared env db r accounts location receipt.receiptId at') ∧
          k.db = transitionPrepared env db r accounts location receipt.receiptId at') := by
  simp only [prepareAccountTransition, bind_ok] at h
  obtain ⟨_, hacc, at', hat, h⟩ := h
  have ha : Accepted env codec s db := hacc
  have htime := timeOk_of_effectiveTime hat
  refine ⟨ha, at', hat, ?_⟩
  split at h
  · next g hg =>
      simp only [recoverPrepare, bind_ok] at h
      obtain ⟨_, -, t, -, _, -, x, -, h⟩ := h
      obtain ⟨rfl, hs⟩ := commitClock_ok h
      exact .inl (spent_of_used hg (.clocked htime hs))
  · next hfree =>
      simp only [usePrepare, bind_ok, orRefuse_ok] at h
      obtain ⟨receipt, hr, c, hc, _, hident, _, horigins, h⟩ := h
      have hid := hident
      simp only [validateAccountPrepareIdentity, accountMutationManifest, bind_ok, orRefuse_ok,
        ensure_ok] at hid
      obtain ⟨value, ⟨m, hm, hv⟩, account, hacct, target, -, _, hpg, hpv⟩ := hid
      have hrm := (loadReceiptById_iff ha.tables).mp hr
      have hcm := (loadChallenge_iff ha.tables).mp hc
      have hexpires := ha.receipt_expires hrm.1 hcm.1 hcm.2.symm
      split at h
      · next hst =>
          rw [bind_ok] at h
          obtain ⟨_, -, h⟩ := h
          obtain ⟨rfl, hs⟩ := commitClock_ok h
          exact .inl (spent_of_state ha.tables hrm hcm (by simp [hst]) (.clocked htime hs))
      · next hst =>
          have hauth := authorizes_of ha hr hc hst hpg.grant_id hpg.action.2
            ⟨hpg.target_kind.2, hpg.target_id.1.trans hpg.target_id.2.symm⟩ hpg.manifest hfree
          split at h
          · next hlate =>
              obtain ⟨rfl, hs⟩ := commitReceiptExpiry_ok h
              refine .inl (spent_of_expired ha.tables hrm hlate (.receiptExpired hcm.1 hst ?_ hrm.1
                hcm.2.symm hm (prepare_intent hv hacct hpg hpv) htime (hexpires ▸ hlate) hs))
              exact fun g hgm hge => hauth.unused g hgm (hge.trans hpg.grant_id.symm)
          · next hlive =>
              simp only [prepareTransition, bind_ok, ensure_ok, pure_ok] at h
              obtain ⟨_, hocc, _, hsha, db', hins, rfl⟩ := h
              obtain ⟨location, accounts, x, hl, hacc', hx, rfl, hs⟩ := insertTransition_ok hins
              refine .inr ⟨receipt, c, accounts, location, x,
                ⟨hauth, hident, horigins, hocc, ?_, hacc', hl, hx⟩, by omega, hs, rfl⟩
              intro t ht heq
              have := List.filter_eq_nil_iff.mp hsha t ht
              simp [heq] at this
      · cases h
      · cases h

theorem prepareAccountTransition_steps {r : PrepareRequest} {k : Commit TransitionProjection}
    (h : prepareAccountTransition env codec s r db = .ok k) :
    Accepted env codec s db ∧ Steps env codec s db k.db := by
  obtain ⟨ha, at', hat, hspent | ⟨receipt, c, accounts, location, x, hp, hexp, hs, hdb⟩⟩ :=
    prepareAccountTransition_effect h
  · exact ⟨ha, .one hspent.quiet.step⟩
  · rw [hdb]
    exact ⟨ha, .one (.transitionPrepared hp hexp (timeOk_of_effectiveTime hat) hs)⟩

/-- The observation asks for the abort of a prepared transition whose config was not changed. -/
def Aborts (operation : ObservationOperation) (t : Transition) (r : ObservationRequest) : Prop :=
  operation = .abort ∧ t.state = .prepared ∧ classifyObservedPair t r = .before

/-- **What an observation may commit**: the clock, or one move of its transition. -/
inductive Moves (env : Platform) (codec : ManifestCodec) (s : Snapshot) (db : Db) (t : Transition)
    (operation : ObservationOperation) (r : ObservationRequest) (at' : Int) : Db → Prop where
  | unchanged (hno : ¬Aborts operation t r) (hs : SchemaOk (db.clocked at')) :
      Moves env codec s db t operation r at' (db.clocked at')
  | committed {o : Origin} {value : AccountMutationManifest} {account : AccountSnapshot}
      {a : Account} {x : Store} (hno : ¬Aborts operation t r)
      (ho : Observed env codec s db t o value account a x at') (hst : t.state = .prepared)
      (hs : SchemaOk (configCommitted env db t a x o.receipt.receiptId at')) :
      Moves env codec s db t operation r at' (configCommitted env db t a x o.receipt.receiptId at')
  | finalized {o : Origin} {value : AccountMutationManifest} {account : AccountSnapshot}
      {a : Account} {x : Store} (hno : ¬Aborts operation t r)
      (ho : Observed env codec s db t o value account a x at') (hst : t.state = .configCommitted)
      (hs : SchemaOk (transitionFinalized env db t o.receipt.receiptId at')) :
      Moves env codec s db t operation r at'
        (transitionFinalized env db t o.receipt.receiptId at')
  | aborted {o : Origin} {value : AccountMutationManifest} {account : AccountSnapshot}
      {a : Account} {x : Store} {accounts : List Account} (habort : Aborts operation t r)
      (ho : Observed env codec s db t o value account a x at')
      (ha : abortedAccounts env codec db t at' = .ok accounts)
      (hs : SchemaOk (transitionAborted env db t accounts o.receipt.receiptId at')) :
      Moves env codec s db t operation r at'
        (transitionAborted env db t accounts o.receipt.receiptId at')
  | stopped {o : Origin} {value : AccountMutationManifest} {account : AccountSnapshot}
      {a : Account} {x : Store} (hno : ¬Aborts operation t r)
      (ho : Observed env codec s db t o value account a x at')
      ( hunsafe : unsafePair t (classifyObservedPair t r) = true)
      (hs : SchemaOk (transitionStopped env db t r o.receipt.receiptId at')) :
      Moves env codec s db t operation r at'
        (transitionStopped env db t r o.receipt.receiptId at')

theorem Moves.step {t : Transition} {operation : ObservationOperation} {r : ObservationRequest}
    {at' : Int} (h : Moves env codec s db t operation r at' db') (htime : TimeOk db at') :
    Step env codec s db db' := by
  cases h with
  | unchanged hno hs => exact .clocked htime hs
  | committed hno ho hst hs => exact .configCommitted ho hst hs
  | finalized hno ho hst hs => exact .transitionFinalized ho hst hs
  | aborted habort ho ha hs => exact .transitionAborted ho habort.2.1 ha hs
  | stopped hno ho hunsafe hs => exact .transitionStopped ho hunsafe hs

section Observations

variable (ha : Accepted env codec s db) {t : Transition} {operation : ObservationOperation}
  {r : ObservationRequest} {at' : Int} {k : Commit TransitionProjection}
  (ht : t ∈ db.transitions) (htime : TimeOk db at')
include ha ht htime

theorem commitConfig_moves (hno : ¬Aborts operation t r) (hst : t.state = .prepared)
    (h : commitConfig env codec t at' db = .ok k) :
    Moves env codec s db t operation r at' k.db := by
  simp only [commitConfig, bind_ok, pure_ok] at h
  obtain ⟨db', hins, _, -, rfl⟩ := h
  obtain ⟨o, value, account, a, x, ho⟩ := ha.observed ht (Or.inl hst) htime
  obtain ⟨a', x', -, -, i, ha', hx', -, -, hi, rfl, hs⟩ := insertConfigCommit_ok hins
  obtain rfl : i = o.receipt.receiptId := Option.some.inj (hi.symm.trans ho.receiptId)
  obtain ⟨ham, haid⟩ := (loadRegisteredAccount_iff ha.tables).mp ha'
  obtain ⟨hxm, hxid⟩ := (loadRegisteredStoreById_iff ha.tables).mp hx'
  obtain rfl : a' = a := eq_of_key_eq ha.tables.accounts.id_unique ham ho.chain.account_mem
    (haid.trans ho.chain.account_id.symm)
  obtain rfl : x' = x := eq_of_key_eq ha.tables.stores.id_unique hxm ho.holds.store.1
    (hxid.trans ho.holds.store.2.1.symm)
  exact .committed hno ho hst hs

theorem finalizeTransition_moves (hno : ¬Aborts operation t r) (hst : t.state = .configCommitted)
    (h : finalizeTransition env codec t at' db = .ok k) :
    Moves env codec s db t operation r at' k.db := by
  simp only [finalizeTransition, bind_ok, pure_ok] at h
  obtain ⟨db', hins, _, -, rfl⟩ := h
  obtain ⟨o, value, account, a, x, ho⟩ := ha.observed ht (Or.inr hst) htime
  obtain ⟨-, -, -, i, -, -, -, hi, rfl, hs⟩ := insertFinalize_ok hins
  obtain rfl : i = o.receipt.receiptId := Option.some.inj (hi.symm.trans ho.receiptId)
  exact .finalized hno ho hst hs

theorem abortTransition_moves (habort : Aborts operation t r)
    (h : abortTransition env codec t at' db = .ok k) :
    Moves env codec s db t operation r at' k.db := by
  simp only [abortTransition, bind_ok, pure_ok] at h
  obtain ⟨db', hins, _, -, rfl⟩ := h
  obtain ⟨o, value, account, a, x, ho⟩ := ha.observed ht (Or.inl habort.2.1) htime
  obtain ⟨accounts, -, -, i, hacc, -, -, hi, rfl, hs⟩ := insertAbort_ok hins
  obtain rfl : i = o.receipt.receiptId := Option.some.inj (hi.symm.trans ho.receiptId)
  exact .aborted habort ho hacc hs

theorem commitAccountRecovery_moves
    ( hunsafe : unsafePair t (classifyObservedPair t r) = true)
    (h : commitAccountRecovery env codec t r at' db = .ok k) :
    Moves env codec s db t operation r at' k.db := by
  simp only [commitAccountRecovery, bind_ok, ensure_ok, pure_ok] at h
  obtain ⟨_, hopen, db', hins, _, -, rfl⟩ := h
  obtain ⟨o, value, account, a, x, ho⟩ := ha.observed ht hopen htime
  obtain ⟨-, -, -, i, -, -, -, hi, rfl, hs⟩ := insertRecovery_ok hins
  obtain rfl : i = o.receipt.receiptId := Option.some.inj (hi.symm.trans ho.receiptId)
  refine .stopped ?_ ho hunsafe hs
  rintro ⟨-, hst, hpair⟩
  simp [unsafePair, hst, hpair] at hunsafe

omit ha ht htime in
theorem observeUnchanged_moves (hno : ¬Aborts operation t r)
    (h : observeUnchanged env codec t at' db = .ok k) :
    Moves env codec s db t operation r at' k.db := by
  simp only [observeUnchanged, bind_ok] at h
  obtain ⟨x, -, h⟩ := h
  obtain ⟨rfl, hs⟩ := commitClock_ok h
  exact .unchanged hno hs

theorem observeTransition_moves (h : observeTransition env codec operation t r at' db = .ok k) :
    Moves env codec s db t operation r at' k.db := by
  unfold observeTransition at h
  split at h
  · next hst =>
      simp only [observeStopped, bind_ok] at h
      obtain ⟨_, -, _, -, h⟩ := h
      exact observeUnchanged_moves (by simp [Aborts, hst]) h
  split at h
  · next hdone =>
      simp only [observeCompleted, bind_ok] at h
      obtain ⟨_, -, h⟩ := h
      refine observeUnchanged_moves ?_ h
      rintro ⟨rfl, hst, -⟩
      simp [completed, hst] at hdone
  split at h
  · next hunsafe => exact commitAccountRecovery_moves ha ht htime hunsafe h
  unfold observeOpen at h
  split at h
  · exact observeUnchanged_moves (by simp [Aborts]) h
  · next hst _ _ => exact commitConfig_moves ha ht htime (by simp [Aborts]) hst h
  · next hst _ _ => exact finalizeTransition_moves ha ht htime (by simp [Aborts]) hst h
  · next hst hpair _ => exact abortTransition_moves ha ht htime ⟨rfl, hst, hpair⟩ h
  · cases h

end Observations

/-- **What an observation commits.** -/
theorem applyAccountObservation_effect {operation : ObservationOperation} {r : ObservationRequest}
    {k : Commit TransitionProjection}
    (h : applyAccountObservation env codec s operation r db = .ok k) :
    Accepted env codec s db ∧ ∃ at' t, effectiveTime db r.observedAt = .ok at' ∧
      (t ∈ db.transitions ∧ t.transitionId = r.transitionId) ∧
      Moves env codec s db t operation r at' k.db := by
  simp only [applyAccountObservation, bind_ok, orRefuse_ok] at h
  obtain ⟨_, hacc, at', hat, t, ht, h⟩ := h
  have ha : Accepted env codec s db := hacc
  have hmem := (loadAccountTransition_iff ha.tables).mp ht
  exact ⟨ha, at', t, hat, hmem,
    observeTransition_moves ha hmem.1 (timeOk_of_effectiveTime hat) h⟩

theorem applyAccountObservation_steps {operation : ObservationOperation} {r : ObservationRequest}
    {k : Commit TransitionProjection}
    (h : applyAccountObservation env codec s operation r db = .ok k) :
    Accepted env codec s db ∧ Steps env codec s db k.db := by
  obtain ⟨ha, at', t, hat, -, hm⟩ := applyAccountObservation_effect h
  exact ⟨ha, .one (hm.step (timeOk_of_effectiveTime hat))⟩

/-! ## 5. Calls -/

theorem settle_steps {α : Type} {x : Result (Commit α)}
    (h : ∀ k, x = .ok k → Accepted env codec s db ∧ Steps env codec s db k.db) :
    (settle db x).1 = db ∨ Accepted env codec s db ∧ Steps env codec s db (settle db x).1 := by
  cases x with
  | error e => exact .inl rfl
  | ok k =>
      obtain ⟨db', reply⟩ := k
      cases reply <;> exact .inr (h _ rfl)

/-- **Every call is refused, or takes steps on an accepted database.** -/
theorem runCall_steps (s : Snapshot) (db : Db) (call : Call) :
    (runCall env codec s db call).1 = db ∨
      Accepted env codec s db ∧ Steps env codec s db (runCall env codec s db call).1 := by
  cases call with
  | createChallenge draw r =>
      refine settle_steps fun k h => ?_
      obtain ⟨ha, hq⟩ := createChallenge_quiets h
      exact ⟨ha, hq.steps ha⟩
  | verifyProof draw r =>
      refine settle_steps fun k h => ?_
      obtain ⟨ha, hq⟩ := verifyProof_quiets h
      exact ⟨ha, hq.steps ha⟩
  | enrollStore r => exact settle_steps fun k h => enrollStore_steps h
  | prepareAccountTransition r => exact settle_steps fun k h => prepareAccountTransition_steps h
  | observe operation r => exact settle_steps fun k h => applyAccountObservation_steps h
  | claimCredentialCleanup r => exact settle_steps fun k h => claimCredentialCleanup_steps h
  | applyCredentialCleanupDelete backend permit observedAt =>
      exact settle_steps fun k h => applyCredentialCleanupDelete_steps h

end Kirje.Authority
