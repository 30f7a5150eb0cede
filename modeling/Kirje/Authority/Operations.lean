import Kirje.Authority.Accepted

/-
  File:      Kirje/Authority/Operations.lean
  Subject:   The calls that issue and prove challenges, enroll stores and clean up
             credentials (crates/kirje-store/src/authority.rs).

  A call is a computation on the database under the apply lock.  `.error` is a
  return before the commit, which leaves the database alone; `.ok` carries the
  committed database and the reply computed from then on, which may still be an
  error (`Commit`).  Drawn identifiers are arguments.
-/

namespace Kirje.Authority

open Base

variable (env : Platform) (codec : ManifestCodec)

/-- What a call that commits leaves behind. -/
structure Commit (α : Type) where
  db : Db
  reply : Result α

/-! ## 1. Shared statements -/

/-- `checked_clock` against the stored clock, and `utc_millis`. -/
def effectiveTime (db : Db) (observed : Int) : Result Int := do
  let effective ← checkedClock db.metaRow.lastObservedAt observed
  utcMillis effective

/-- An update that must change exactly one row. -/
def updateOne {α : Type} (rows : List α) (p : α → Bool) (f : α → α) (e : MailError) :
    Result (List α) := do
  ensure ((rows.filter p).length = 1) e
  pure (update p f rows)

/-- `UPDATE authorization_challenges SET state=… WHERE challenge_id=… AND state=…`. -/
def moveChallenge (db : Db) (id : Digest) (prior next : ChallengeState) : Result Db := do
  let rows ← updateOne db.challenges (fun c => c.challengeId = id ∧ c.state = prior)
    (fun c => { c with state := next }) recoveryError
  written { db with challenges := rows }

/-- Only the clock is committed. -/
def commitClock {α : Type} (db : Db) (effective : Int) (reply : Result α) : Result (Commit α) := do
  let db ← observeClockPair db effective
  pure ⟨db, reply⟩

/-- The durable expiry of an authorized challenge. -/
def commitReceiptExpiry {α : Type} (db : Db) (c : Challenge) (r : Receipt) (intent : Digest)
    (effective : Int) : Result (Commit α) := do
  let db ← moveChallenge db c.challengeId .authorized .expired
  let db ← observeClockPair db effective
  let db ← insertTypedEvent env db (receiptExpiredEvent c r intent effective)
  pure ⟨db, .error expiredError⟩

/-- `validate_exact_enrollment_expiry`. -/
def validateExactEnrollmentExpiry (db : Db) (c : Challenge) (r : Receipt) (intent : Digest) :
    Result Unit := do
  let e ← orRefuse (loadSingleEntityEvent db 8 c.challengeId.bytes 5) recoveryError
  ensure (e.source = 1 ∧ e.Says env (receiptExpiredEvent c r intent e.occurredAt)) contextStaleError

/-- `matches_request`. -/
def GrantUse.matchesRequest (g : GrantUse) (r : GrantUseRequest) : Prop :=
  g.grantId = r.grantId ∧ g.receiptId = r.receiptId ∧ g.action = r.action ∧
    g.targetKind = r.targetKind ∧ g.targetId = r.targetBytes ∧
    g.manifestSha256 = r.manifestSha256

instance (g : GrantUse) (r : GrantUseRequest) : Decidable (g.matchesRequest r) :=
  inferInstanceAs (Decidable (_ ∧ _))

/-- The grant row a request leaves. -/
def grantUseRow (r : GrantUseRequest) (usedAt : Int) : GrantUse :=
  let transcript := grantUseTranscript r.grantId r.receiptId r.action r.targetKind r.targetBytes
    r.manifestSha256 usedAt
  { grantId := r.grantId
    receiptId := r.receiptId
    action := r.action
    targetKind := r.targetKind
    targetId := r.targetBytes
    manifestSha256 := r.manifestSha256
    useReceipt := transcript
    useSha256 := env.sha256 transcript
    usedAt := usedAt }

/-- `insert_grant_use` and `insert_grant_used_event`. -/
def insertGrantUse (db : Db) (g : GrantUse) (receiptId : ReceiptId) : Result Db := do
  let db ← written { db with grants := db.grants ++ [g] }
  insertTypedEvent env db (grantUsedEvent g.grantId receiptId g.useSha256 g.usedAt)

/-! ## 2. Challenges -/

structure CreateChallengeRequest where
  manifest : ActionManifest
  observedAt : Int
  expiresAt : Int
  deriving DecidableEq, Repr

/-- `AuthorizationChallengeExport`, with the bytes its two texts encode. -/
structure ChallengeExport where
  challengeId : Digest
  action : SensitiveAction
  target : ManifestTarget
  keyId : Digest
  trustEpoch : NonZeroU64
  issuedAt : Int
  expiresAt : Int
  manifestSha256 : Digest
  signingPayloadSha256 : Digest
  signingPayload : Bytes
  manifest : Bytes
  deriving DecidableEq, Repr

/-- `challenge_export_from_stored`. -/
def challengeExportFromStored (c : Challenge) : Result ChallengeExport := do
  let m ← orRefuse (manifestOf env codec c) recoveryError
  let p ← orRefuse (payloadOf env c) recoveryError
  let issuedAt ← utcMillis c.issuedAt
  let expiresAt ← utcMillis c.expiresAt
  pure ⟨c.challengeId, c.action, p.fields.target, c.keyId, c.trustEpoch, issuedAt, expiresAt,
    m.sha256, c.signingSha256, c.signingPayload, c.manifest⟩

/-- A cleanup manifest names its transition. -/
def namesTransition (m : ActionManifest) : Prop :=
  ∀ value ∈ cleanupManifest m, value.transitionId.isSome

instance (m : ActionManifest) : Decidable (namesTransition m) := by
  unfold namesTransition
  infer_instance

/-- `validate_challenge_request`. -/
def validateChallengeRequest (r : CreateChallengeRequest) : Result Unit := do
  ensure (0 ≤ r.observedAt ∧ 0 ≤ r.expiresAt)
    (.invalid "authority challenge time must be nonnegative")
  inputUtcMillis r.observedAt
  inputUtcMillis r.expiresAt
  ensure (namesTransition r.manifest) (malformed "credential cleanup authorization is malformed")

/-- `validate_requested_expiry`. -/
def validateRequestedExpiry (effective expiresAt : Int) : Result Unit :=
  ensure (0 < expiresAt - effective ∧ expiresAt - effective ≤ 900000)
    (.invalid "authority challenge lifetime is outside the contract")

/-- The open transitions of a store. -/
def openTransitions (db : Db) (id : StoreId) : List Transition :=
  db.transitions.filter fun t => t.storeId = id ∧ (t.state = .prepared ∨ t.state = .configCommitted)

/-- The store rules of a fresh account manifest. -/
def validateFreshStore (db : Db) (cas : ConfigCas) : Result Unit := do
  let store ← orRefuse (loadRegisteredStoreById db cas.storeId) contextStaleError
  ensure (store.locationSha256 = cas.locationSha256) configStoreIdentityConflictError
  ensure (store.state ≠ .recoveryRequired) recoveryError
  ensure (store.state ≠ .blocked) accountUpdateConflictError
  ensure (store.state = .active) contextStaleError
  ensure (store.configGeneration = cas.generation ∧ store.configSha256 = cas.exactContentSha256)
    contextStaleError
  ensure (openTransitions db cas.storeId = []) accountUpdateConflictError

/-- `validate_fresh_account_create_context`. -/
def validateFreshAccountCreateContext (db : Db) (value : AccountMutationManifest) :
    Result Unit := do
  let after ← orRefuse value.after contextStaleError
  validateFreshStore db value.configCas
  ensure ((loadRegisteredAccount db after.accountId).isNone ∧
      (loadCredential db after.credentialId).isNone ∧
      (loadAccountTransition db value.transitionId).isNone)
    accountIdentityConflictError
  ensure ((db.accounts.filter fun a => a.storeId = value.configCas.storeId ∧
      a.displayIdSha256 = displayIdDigest env after.displayId ∧ a.state ≠ .removed) = [])
    accountAlreadyExistsError

/-- `validate_fresh_account_mutation_context`. -/
def validateFreshAccountMutationContext (db : Db) (value : AccountMutationManifest) :
    Result Unit := do
  let before ← orRefuse value.before contextStaleError
  validateFreshStore db value.configCas
  let a ← orRefuse (loadRegisteredAccount db before.accountId) contextStaleError
  ensure (a.state ≠ .proposed ∧ a.state ≠ .blocked) accountUpdateConflictError
  ensure (a.state = .active ∧ a.activeTransitionId = none) contextStaleError
  ensure (a.storeId = value.configCas.storeId ∧
      a.displayIdSha256 = displayIdDigest env before.displayId ∧
      a.accountGeneration = before.generation ∧ a.credentialId = before.credentialId ∧
      a.bindingSha256 = before.bindingSha256)
    contextStaleError
  ensure ((loadAccountTransition db value.transitionId).isNone ∧
      (∀ after ∈ value.after, after.credentialId ≠ before.credentialId →
        (loadCredential db after.credentialId).isNone) ∧
      ∀ d ∈ value.cleanup, (db.cleanups.filter fun c =>
        c.cleanupId = d.cleanupId ∨ c.locatorSha256 = d.locatorSha256) = [])
    accountIdentityConflictError

/-- `validate_fresh_manifest_context`. -/
def validateFreshManifestContext (db : Db) (s : Snapshot) (m : ActionManifest) : Result Unit :=
  match m.payload with
  | .storeEnroll value =>
      ensure ((db.stores.filter fun x => x.storeId = value.configCas.storeId ∨
        x.locationSha256 = value.configCas.locationSha256) = []) configStoreIdentityConflictError
  | .accountCreate value => validateFreshAccountCreateContext env db value
  | .accountUpdate value | .accountRemove value =>
      validateFreshAccountMutationContext env db value
  | .credentialSet value | .credentialDelete value =>
      validateFreshAccountMutationContext env db value.account
  | .credentialCleanup _ => validateCredentialCleanupContext env codec db s m true
  | _ => pure ()

/-- `validate_credential_cleanup_public_pair`. -/
def validateCredentialCleanupPublicPair (db : Db) (m : ActionManifest) : Result Unit := do
  let storeId ← orRefuse m.context.storeId credentialCleanupInvalidError
  let accountId ← orRefuse m.context.accountId credentialCleanupInvalidError
  let store ← orRefuse (loadRegisteredStoreById db storeId) credentialCleanupInvalidError
  let a ← orRefuse (loadRegisteredAccount db accountId) credentialCleanupInvalidError
  ensure (a.storeId = storeId) credentialCleanupInvalidError
  ensure (store.state ≠ .recoveryRequired) recoveryError
  ensure (store.state ≠ .blocked) accountUpdateConflictError
  ensure (store.state = .active) credentialCleanupInvalidError
  ensure (a.state = .active ∨ a.state = .removed) accountUpdateConflictError

/-- The context digest of a manifest. -/
def manifestContextDigest (s : Snapshot) (m : ActionManifest) : Digest :=
  authorizationContextDigest env m.action m.context.target.kind m.context.target.bytes
    m.context.storeId m.context.accountId m.sha256 m.context.accountBindingSha256
    m.context.policySha256 (s.keyId m.action.requiredRole) s.minimumEpoch s.trustBundleSha256

/-- What a challenge binds a manifest to. -/
def challengeContext (s : Snapshot) (m : ActionManifest) (grantId : GrantId) (nonce : Digest)
    (issuedAt expiresAt : Int) : AuthorizationContext where
  ownerRealm := s.realmId
  trustBundleSha256 := s.trustBundleSha256
  signerKeyId := s.keyId m.action.requiredRole
  trustEpoch := s.minimumEpoch
  grantId := grantId
  nonce := nonce
  issuedAt := issuedAt
  expiresAt := expiresAt

/-- The row of a new challenge, not yet linked to its event. -/
def challengeRow (m : ActionManifest) (p : AuthorizationPayload) (context : Digest) : Challenge where
  challengeId := p.challengeId
  grantId := p.fields.grantId
  action := p.fields.action
  targetKind := p.fields.target.kind
  targetId := p.fields.target.bytes
  storeId := p.fields.storeId
  accountId := p.fields.accountId
  contextSha256 := context
  manifest := m.canonicalBytes
  manifestSha256 := p.fields.manifestSha256
  signingPayload := p.canonicalBytes
  signingSha256 := p.challengeId
  keyId := p.fields.signerKeyId
  trustEpoch := p.fields.trustEpoch
  bundleSha256 := p.fields.bundleSha256
  bindingSha256 := p.fields.bindingSha256
  policySha256 := p.fields.policySha256
  nonce := p.fields.nonce
  issuedAt := p.fields.issuedAt
  expiresAt := p.fields.expiresAt
  state := .pending
  invalidatedAt := none
  createdEventSequence := 0

/-- `UPDATE authorization_challenges SET created_event_sequence=…`. -/
def linkChallenge (db : Db) (id : Digest) (sequence : Nat) : Result Db := do
  let rows ← updateOne db.challenges (fun c => c.challengeId = id ∧ c.createdEventSequence = 0)
    (fun c => { c with createdEventSequence := sequence }) recoveryError
  written { db with challenges := rows }

/-- The insertion of a new challenge, its event and the link between them. -/
def insertChallenge (db : Db) (c : Challenge) (effective : Int) : Result Db := do
  let db ← written { db with challenges := db.challenges ++ [c] }
  let db ← observeClockPair db effective
  let unlinked ← orRefuse
    (db.challenges.find? fun x => x.challengeId = c.challengeId ∧ x.createdEventSequence = 0)
    recoveryError
  let db ← insertTypedEvent env db (challengeCreatedEvent unlinked effective)
  linkChallenge db c.challengeId db.sequenceHighWater

/-- The part of `create_challenge` after the pending challenge of the context is out of the way. -/
def freshChallenge (s : Snapshot) (draw : Option (GrantId × Digest)) (r : CreateChallengeRequest)
    (context : Digest) (effective : Int) (db : Db) : Result (Commit ChallengeExport) := do
  checkIf (r.manifest.action ≠ .credentialCleanup)
    (validateFreshManifestContext env codec db s r.manifest)
  validateRequestedExpiry effective r.expiresAt
  let (grantId, nonce) ← orRefuse draw
    (.stable .internal "secure authority entropy is unavailable")
  let p ← AuthorizationPayload.new env r.manifest
    (challengeContext s r.manifest grantId nonce effective r.expiresAt)
  let db ← insertChallenge env db (challengeRow r.manifest p context) effective
  let stored ← orRefuse (loadChallenge db p.challengeId)
    (malformed "authorization challenge is unknown")
  pure ⟨db, challengeExportFromStored env codec stored⟩

/-- The expiry of the pending challenge of a context. -/
def expirePending (db : Db) (c : Challenge) (effective : Int) : Result Db := do
  let db ← moveChallenge db c.challengeId .pending .expired
  insertTypedEvent env db (challengeExpiredEvent c effective)

/-- `create_challenge`. -/
def createChallenge (s : Snapshot) (draw : Option (GrantId × Digest)) (r : CreateChallengeRequest)
    (db : Db) : Result (Commit ChallengeExport) := do
  validateChallengeRequest r
  let reparsed ← ActionManifest.parse env codec r.manifest.canonicalBytes
  ensure (reparsed = r.manifest) recoveryError
  ensureSupportedChallengeAction r.manifest.action
  validateReadyTransaction env codec s db
  let effective ← effectiveTime db r.observedAt
  validateIntrinsicManifest env s r.manifest
  checkIf (r.manifest.action = .credentialCleanup)
    (validateCredentialCleanupPublicPair db r.manifest)
  checkIf (r.manifest.action = .credentialCleanup)
    (validateFreshManifestContext env codec db s r.manifest)
  let context := manifestContextDigest env s r.manifest
  match loadPendingChallenge db context with
  | some existing =>
      if effective ≤ existing.expiresAt then
        commitClock db effective (challengeExportFromStored env codec existing)
      else do
        let db ← expirePending env db existing effective
        freshChallenge env codec s draw r context effective db
  | none => freshChallenge env codec s draw r context effective db

/-! ## 3. Proofs -/

structure VerifyProofRequest where
  proof : AuthorizationProof
  observedAt : Int
  deriving DecidableEq, Repr

inductive ReceiptState where
  | unclaimed | used | expired
  deriving DecidableEq, Repr

/-- `AuthorizationReceiptProjection`. -/
structure ReceiptProjection where
  receiptId : ReceiptId
  challengeId : Digest
  action : SensitiveAction
  target : ManifestTarget
  keyId : Digest
  trustEpoch : NonZeroU64
  manifestSha256 : Digest
  receiptSha256 : Digest
  verifiedAt : Int
  expiresAt : Int
  state : ReceiptState
  deriving DecidableEq, Repr

/-- `receipt_projection`. -/
def receiptProjection (db : Db) (c : Challenge) (r : Receipt) (effective : Int) :
    Result ReceiptProjection := do
  let p ← orRefuse (payloadOf env c) recoveryError
  let verifiedAt ← utcMillis r.verifiedAt
  let expiresAt ← utcMillis r.expiresAt
  let state : ReceiptState :=
    if (db.grants.filter fun g => g.receiptId = r.receiptId).length = 1 then .used
    else if c.state = .expired ∨ r.expiresAt < effective then .expired
    else .unclaimed
  pure ⟨r.receiptId, c.challengeId, c.action, p.fields.target, c.keyId, c.trustEpoch,
    c.manifestSha256, r.receiptSha256, verifiedAt, expiresAt, state⟩

/-- `validate_proof_request`. -/
def validateProofRequest (r : VerifyProofRequest) : Result Unit := do
  ensure (0 ≤ r.observedAt) (.invalid "authority observation time must be nonnegative")
  inputUtcMillis r.observedAt
  ensure (r.proof.canonicalBytes.length ≤ 4096) (malformed "authorization proof is malformed")
  let parsed ← AuthorizationProof.parseCanonical r.proof.canonicalBytes
  ensure (parsed = r.proof) (malformed "authorization proof is malformed")

/-- `validate_first_proof`. -/
def validateFirstProof (s : Snapshot) (c : Challenge) (p : AuthorizationProof) : Result Unit := do
  ensure (p.challengeId = c.challengeId ∧ p.keyId = c.keyId ∧
      p.signingPayloadSha256 = c.signingSha256)
    (malformed "authorization proof does not match the challenge")
  ensure (c.keyId = s.keyId c.action.requiredRole ∧ c.trustEpoch = s.minimumEpoch ∧
      c.bundleSha256 = s.trustBundleSha256)
    recoveryError
  verifyAuthorizationSignature env (s.publicKey c.action.requiredRole).bytes c.signingPayload
    p.signature.bytes

/-- The receipt row of a proof. -/
def receiptRow (c : Challenge) (p : AuthorizationProof) (receiptId : ReceiptId) (at' : Int) :
    Receipt :=
  let receipt := authorizationReceipt receiptId c (p.proofSha256 env) at'
  { receiptId := receiptId
    challengeId := c.challengeId
    grantId := c.grantId
    proofSha256 := p.proofSha256 env
    keyId := c.keyId
    signature := p.signature
    canonicalProof := p.canonicalBytes
    manifestSha256 := c.manifestSha256
    signingSha256 := c.signingSha256
    trustEpoch := c.trustEpoch
    bundleSha256 := c.bundleSha256
    receipt := receipt
    receiptSha256 := env.sha256 receipt
    verifiedAt := at'
    expiresAt := c.expiresAt }

/-- The rows of a first proof. -/
def insertReceipt (db : Db) (c : Challenge) (r : Receipt) (effective : Int) : Result Db := do
  let db ← written { db with receipts := db.receipts ++ [r] }
  let db ← written { db with
    nonces := db.nonces ++ [⟨c.nonce, c.challengeId, r.receiptId, effective⟩] }
  let db ← moveChallenge db c.challengeId .pending .authorized
  let db ← observeClockPair db effective
  insertTypedEvent env db (challengeAuthorizedEvent c r effective)

/-- The durable expiry of a challenge that was never proved. -/
def commitPendingExpiry {α : Type} (db : Db) (c : Challenge) (effective : Int) : Result (Commit α) := do
  let db ← moveChallenge db c.challengeId .pending .expired
  let db ← observeClockPair db effective
  let db ← insertTypedEvent env db (challengeExpiredEvent c effective)
  pure ⟨db, .error expiredError⟩

/-- The first proof of a pending challenge. -/
def authorize (s : Snapshot) (draw : Option ReceiptId) (p : AuthorizationProof) (c : Challenge)
    (effective : Int) (db : Db) : Result (Commit ReceiptProjection) := do
  validateFirstProof env s c p
  let receiptId ← orRefuse draw (.stable .internal "secure authority entropy is unavailable")
  let r := receiptRow env c p receiptId effective
  let db ← insertReceipt env db c r effective
  let projection ← receiptProjection env db c r effective
  pure ⟨db, .ok projection⟩

/-- The proof of a challenge whose receipt exists. -/
def recoverReceipt (p : AuthorizationProof) (c : Challenge) (r : Receipt) (effective : Int)
    (db : Db) : Result (Commit ReceiptProjection) := do
  ensure (r.canonicalProof = p.canonicalBytes) replayedError
  let db ← observeClockPair db effective
  let projection ← receiptProjection env db c r effective
  pure ⟨db, .ok projection⟩

/-- `verify_proof`. -/
def verifyProof (s : Snapshot) (draw : Option ReceiptId) (r : VerifyProofRequest) (db : Db) :
    Result (Commit ReceiptProjection) := do
  validateProofRequest r
  validateReadyTransaction env codec s db
  let c ← orRefuse (loadChallenge db r.proof.challengeId)
    (malformed "authorization challenge is unknown")
  let effective ← effectiveTime db r.observedAt
  match loadReceiptForChallenge db c.challengeId with
  | some receipt => recoverReceipt env r.proof c receipt effective db
  | none =>
      match c.state with
      | .expired => commitClock db effective (.error expiredError)
      | .pending =>
          if c.expiresAt < effective then commitPendingExpiry env db c effective
          else authorize env s draw r.proof c effective db
      | .authorized | .invalidated => .error recoveryError

/-! ## 4. Store enrollment -/

/-- `EnrolledStoreProjection`. -/
structure EnrolledStoreProjection where
  storeId : StoreId
  configGeneration : NonZeroU64
  createdAt : Int
  updatedAt : Int
  deriving DecidableEq, Repr

/-- `enrolled_store_projection`. -/
def enrolledStoreProjection (v : StoreVersion) : Result EnrolledStoreProjection := do
  ensure (v.enrolledReceiptId.isSome ∧ v.committedTransitionId.isNone) recoveryError
  let createdAt ← utcMillis v.createdAt
  pure ⟨v.storeId, v.configGeneration, createdAt, createdAt⟩

/-- `validate_enroll_store_request`. -/
def validateEnrollStoreRequest (r : EnrollStoreRequest) : Result Unit := do
  inputUtcMillis r.observedAt
  let canonical ← r.locationMaterial.canonicalBytes
  ensure (canonical = r.locationBytes ∧ canonical.length ≤ 4096 ∧
      env.sha256 canonical = r.locationSha256 ∧ Storable r.configGeneration)
    (.invalid "store enrollment request is outside the contract")

/-- `validate_enrollment_identity`. -/
def validateEnrollmentIdentity (r : EnrollStoreRequest) (c : Challenge) (receipt : Receipt) :
    Result StoreEnrollmentContext := do
  let m ← orRefuse (manifestOf env codec c) contextStaleError
  let e ← orRefuse (storeEnrollmentContext m) contextStaleError
  let canonical ← r.locationMaterial.canonicalBytes
  ensure (r.grantUse.grantId = c.grantId ∧ r.grantUse.receiptId = receipt.receiptId ∧
      receipt.challengeId = c.challengeId ∧ receipt.grantId = c.grantId ∧
      r.grantUse.action = .storeEnroll ∧ r.grantUse.action = c.action ∧
      r.grantUse.targetKind = c.targetKind ∧ r.grantUse.targetBytes = c.targetId ∧
      r.grantUse.manifestSha256 = c.manifestSha256 ∧ r.storeId = e.storeId ∧
      r.locationSha256 = e.locationSha256 ∧ r.configGeneration = e.configGeneration ∧
      r.configSha256 = e.configSha256 ∧ r.locationBytes = canonical)
    contextStaleError
  pure e

/-- `matches_request`. -/
def Store.matchesRequest (store : Store) (r : EnrollStoreRequest) (e : StoreEnrollmentContext) :
    Prop :=
  store.storeId = r.storeId ∧ store.locationMaterial = r.locationBytes ∧
    store.locationSha256 = r.locationSha256 ∧ store.enrolledReceiptId = r.grantUse.receiptId ∧
    store.storeId = e.storeId ∧ store.locationSha256 = e.locationSha256

instance (s : Store) (r : EnrollStoreRequest) (e : StoreEnrollmentContext) :
    Decidable (s.matchesRequest r e) := inferInstanceAs (Decidable (_ ∧ _))

/-- `enroll_store` with a grant that was used. -/
def recoverEnrollment (r : EnrollStoreRequest) (g : GrantUse) (db : Db) :
    Result (Commit EnrolledStoreProjection) := do
  ensure (g.matchesRequest r.grantUse) grantAlreadyUsedError
  let receipt ← orRefuse (loadReceiptById db r.grantUse.receiptId) recoveryError
  let c ← orRefuse (loadChallenge db receipt.challengeId)
    (malformed "authorization challenge is unknown")
  let e ← validateEnrollmentIdentity env codec r c receipt
  let store ← orRefuse (loadRegisteredStoreByReceipt db receipt.receiptId) recoveryError
  ensure (store.matchesRequest r e) contextStaleError
  let v ← orRefuse (loadStoreVersionByReceipt db receipt.receiptId) recoveryError
  ensure (InitialVersion v store e receipt.receiptId) recoveryError
  let effective ← effectiveTime db r.observedAt
  commitClock db effective (enrolledStoreProjection v)

/-- `enrollment_intent_digest`. -/
def enrollmentIntentDigest (r : EnrollStoreRequest) : Digest :=
  enrollmentIntent env r.grantUse.grantId r.grantUse.receiptId r.grantUse.action
    r.grantUse.targetKind r.grantUse.targetBytes r.grantUse.manifestSha256 r.storeId
    r.locationSha256 r.configGeneration r.configSha256

/-- The row of a new store. -/
def storeRow (r : EnrollStoreRequest) (receiptId : ReceiptId) (at' : Int) : Store where
  storeId := r.storeId
  locationMaterial := r.locationBytes
  locationSha256 := r.locationSha256
  configGeneration := r.configGeneration
  configSha256 := r.configSha256
  state := .active
  enrolledReceiptId := receiptId
  createdAt := at'
  updatedAt := at'
  removedAt := none

/-- The row of its first version. -/
def storeVersionRow (r : EnrollStoreRequest) (receiptId : ReceiptId) (at' : Int) :
    StoreVersion where
  storeId := r.storeId
  locationSha256 := r.locationSha256
  configGeneration := r.configGeneration
  configSha256 := r.configSha256
  enrolledReceiptId := some receiptId
  committedTransitionId := none
  createdAt := at'

/-- The rows of an enrollment. -/
def insertStore (db : Db) (r : EnrollStoreRequest) (receiptId : ReceiptId) (effective : Int) :
    Result Db := do
  let g := grantUseRow env r.grantUse effective
  let db ← insertGrantUse env db g receiptId
  let db ← written { db with stores := db.stores ++ [storeRow r receiptId effective] }
  let db ← written { db with
    storeVersions := db.storeVersions ++ [storeVersionRow r receiptId effective] }
  let db ← insertTypedEvent env db
    (storeEnrolledEvent r.storeId g.grantId receiptId g.useSha256 effective)
  observeClockPair db effective

/-- The enrollment effect. -/
def registerStore (r : EnrollStoreRequest) (receipt : Receipt) (effective : Int) (db : Db) :
    Result (Commit EnrolledStoreProjection) := do
  ensure ((db.stores.filter fun x => x.storeId = r.storeId ∨
    x.locationSha256 = r.locationSha256) = []) configStoreIdentityConflictError
  let db ← insertStore env db r receipt.receiptId effective
  pure ⟨db, enrolledStoreProjection (storeVersionRow r receipt.receiptId effective)⟩

/-- `enroll_store` with a grant that was not used. -/
def useEnrollment (r : EnrollStoreRequest) (db : Db) : Result (Commit EnrolledStoreProjection) := do
  let receipt ← orRefuse (loadReceiptById db r.grantUse.receiptId) contextStaleError
  let c ← orRefuse (loadChallenge db receipt.challengeId) contextStaleError
  let _ ← validateEnrollmentIdentity env codec r c receipt
  let effective ← effectiveTime db r.observedAt
  match c.state with
  | .expired => do
      validateExactEnrollmentExpiry env db c receipt (enrollmentIntentDigest env r)
      commitClock db effective (.error expiredError)
  | .authorized =>
      if receipt.expiresAt < effective then
        commitReceiptExpiry env db c receipt (enrollmentIntentDigest env r) effective
      else registerStore env r receipt effective db
  | .pending | .invalidated => .error contextStaleError

/-- `enroll_store`. -/
def enrollStore (s : Snapshot) (r : EnrollStoreRequest) (db : Db) :
    Result (Commit EnrolledStoreProjection) := do
  validateEnrollStoreRequest env r
  validateReadyTransaction env codec s db
  match loadGrantUse db r.grantUse.grantId with
  | some g => recoverEnrollment env codec r g db
  | none => useEnrollment env codec r db

/-! ## 5. Credential cleanup -/

structure CleanupClaimRequest where
  grantUse : GrantUseRequest
  cleanupId : CleanupId
  observedAt : Int
  deriving DecidableEq, Repr

/-- `CredentialCleanupProjection`. -/
structure CleanupProjection where
  cleanupId : CleanupId
  state : CleanupState
  claimedAt : Option Int
  deletedAt : Option Int
  deriving DecidableEq, Repr

/-- `CleanupDeletePermit`. -/
structure CleanupDeletePermit where
  cleanupId : CleanupId
  grantId : GrantId
  receiptId : ReceiptId
  useSha256 : Digest
  locatorMaterial : Bytes
  deriving DecidableEq, Repr

/-- `CredentialCleanupClaimOutcome`. -/
structure ClaimOutcome where
  projection : CleanupProjection
  permit : Option CleanupDeletePermit
  deriving DecidableEq, Repr

/-- An optional time, read. -/
def optUtcMillis : Option Int → Result (Option Int)
  | none => pure none
  | some t => some <$> utcMillis t

/-- `cleanup_projection`. -/
def cleanupProjection (c : Cleanup) (claimedAt : Option Int) : Result CleanupProjection := do
  let claimedAt ← optUtcMillis claimedAt
  let deletedAt ← optUtcMillis c.deletedAt
  pure ⟨c.cleanupId, c.state, claimedAt, deletedAt⟩

/-- `cleanup_delete_permit`. -/
def cleanupDeletePermit (c : Cleanup) (g : GrantUse) : Result CleanupDeletePermit := do
  let _ ← utcMillis c.createdAt
  let (kind, service, username) ← orRefuse (parseDeleteOnlyLocator c.locatorMaterial) recoveryError
  ensure (c.state = .claimed ∧ c.claimGrantId = some g.grantId ∧ c.locatorKind = kind ∧
      c.locatorSha256 = env.sha256 c.locatorMaterial ∧ c.deletedAt = none ∧
      deleteOnlyLocatorShapeIsValid kind service username)
    recoveryError
  pure ⟨c.cleanupId, g.grantId, g.receiptId, g.useSha256, c.locatorMaterial⟩

/-- `validate_cleanup_claim_identity`. -/
def validateCleanupClaimIdentity (r : CleanupClaimRequest) (c : Challenge) (receipt : Receipt) :
    Result ActionManifest := do
  let m ← orRefuse (manifestOf env codec c) contextStaleError
  let value ← orRefuse (cleanupManifest m) contextStaleError
  ensure (r.grantUse.grantId = c.grantId ∧ r.grantUse.receiptId = receipt.receiptId ∧
      receipt.challengeId = c.challengeId ∧ receipt.grantId = c.grantId ∧
      r.grantUse.action = .credentialCleanup ∧ r.grantUse.action = c.action ∧
      r.grantUse.targetKind = .cleanup ∧ r.grantUse.targetKind = c.targetKind ∧
      r.grantUse.targetBytes = c.targetId ∧ r.grantUse.targetBytes = r.cleanupId.bytes ∧
      r.grantUse.manifestSha256 = c.manifestSha256 ∧
      r.grantUse.manifestSha256 = receipt.manifestSha256 ∧ value.cleanupId = r.cleanupId)
    contextStaleError
  pure m

/-- What a recovered claim replies. -/
def recoveredClaim (x : Cleanup) (g : GrantUse) : Result ClaimOutcome := do
  let projection ← cleanupProjection x (some g.usedAt)
  if x.state = .claimed then do
    let permit ← cleanupDeletePermit env x g
    pure ⟨projection, some permit⟩
  else pure ⟨projection, none⟩

/-- `claim_credential_cleanup` with a grant that was used. -/
def recoverClaim (s : Snapshot) (r : CleanupClaimRequest) (g : GrantUse) (db : Db) :
    Result (Commit ClaimOutcome) := do
  ensure (g.matchesRequest r.grantUse) grantAlreadyUsedError
  let receipt ← orRefuse (loadReceiptById db g.receiptId) recoveryError
  let c ← orRefuse (loadChallenge db receipt.challengeId)
    (malformed "authorization challenge is unknown")
  let m ← validateCleanupClaimIdentity env codec r c receipt
  let x ← orRefuse (loadCredentialCleanup db r.cleanupId) recoveryError
  ensure (x.claimGrantId = some g.grantId ∧ (x.state = .claimed ∨ x.state = .deleted)) recoveryError
  validateCredentialCleanupContext env codec db s m false
  let effective ← effectiveTime db r.observedAt
  commitClock db effective (recoveredClaim env x g)

/-- The rows of a claim. -/
def insertClaim (db : Db) (r : CleanupClaimRequest) (receiptId : ReceiptId) (effective : Int) :
    Result Db := do
  let g := grantUseRow env r.grantUse effective
  let db ← insertGrantUse env db g receiptId
  let rows ← updateOne db.cleanups
    (fun c => c.cleanupId = r.cleanupId ∧ c.state = .ready ∧ c.claimGrantId = none ∧
      c.deletedAt = none)
    (fun c => { c with state := .claimed, claimGrantId := some g.grantId })
    credentialCleanupInvalidError
  let db ← written { db with cleanups := rows }
  let db ← insertTypedEvent env db
    (cleanupEvent r.cleanupId 16 g.grantId receiptId 0x0702 0x0703 g.useSha256 effective)
  observeClockPair db effective

/-- What a fresh claim replies. -/
def freshClaim (x : Cleanup) (g : GrantUse) : Result ClaimOutcome := do
  let claimed := { x with state := .claimed, claimGrantId := some g.grantId }
  let projection ← cleanupProjection claimed (some g.usedAt)
  let permit ← cleanupDeletePermit env claimed g
  pure ⟨projection, some permit⟩

/-- The claim effect. -/
def claimCleanup (s : Snapshot) (r : CleanupClaimRequest) (m : ActionManifest) (receipt : Receipt)
    (effective : Int) (db : Db) : Result (Commit ClaimOutcome) := do
  validateCredentialCleanupPublicPair db m
  validateCredentialCleanupContext env codec db s m true
  let x ← orRefuse (loadCredentialCleanup db r.cleanupId) credentialCleanupInvalidError
  let db ← insertClaim env db r receipt.receiptId effective
  pure ⟨db, freshClaim env x (grantUseRow env r.grantUse effective)⟩

/-- `claim_credential_cleanup` with a grant that was not used. -/
def useClaim (s : Snapshot) (r : CleanupClaimRequest) (db : Db) : Result (Commit ClaimOutcome) := do
  let receipt ← orRefuse (loadReceiptById db r.grantUse.receiptId) contextStaleError
  let c ← orRefuse (loadChallenge db receipt.challengeId) contextStaleError
  let m ← validateCleanupClaimIdentity env codec r c receipt
  let effective ← effectiveTime db r.observedAt
  match c.state with
  | .expired => .error expiredError
  | .authorized =>
      if receipt.expiresAt < effective then
        commitReceiptExpiry env db c receipt c.manifestSha256 effective
      else claimCleanup env codec s r m receipt effective db
  | .pending | .invalidated => .error contextStaleError

/-- `claim_credential_cleanup`. -/
def claimCredentialCleanup (s : Snapshot) (r : CleanupClaimRequest) (db : Db) :
    Result (Commit ClaimOutcome) := do
  validateReadyTransaction env codec s db
  match loadGrantUse db r.grantUse.grantId with
  | some g => recoverClaim env codec s r g db
  | none => useClaim env codec s r db

/-- What the checks before a deletion leave. -/
structure Deletion where
  effective : Int
  cleanup : Cleanup
  grant : GrantUse
  service : Bytes
  username : Bytes
  deriving DecidableEq, Repr

/-- `DeleteOnlyLocator::new` of the credential crate. -/
def deleteOnlyLocatorNew (service username : Bytes) : Bool :=
  !service.isEmpty && !username.isEmpty && service.length ≤ 255 && username.length ≤ 1024 &&
    !service.contains 0 && !username.contains 0

/-- `apply_credential_cleanup_delete` up to the call that deletes the credential. -/
def deletionReached (s : Snapshot) (permit : CleanupDeletePermit) (observedAt : Int) (db : Db) :
    Result Deletion := do
  ensure (0 ≤ observedAt) recoveryError
  inputUtcMillis observedAt
  validateReadyTransaction env codec s db
  let effective ← effectiveTime db observedAt
  let c ← orRefuse (loadCredentialCleanup db permit.cleanupId) recoveryError
  let g ← orRefuse (loadGrantUse db permit.grantId) recoveryError
  ensure (c.state = .claimed ∧ c.claimGrantId = some permit.grantId ∧
      c.locatorMaterial = permit.locatorMaterial ∧
      c.locatorSha256 = env.sha256 permit.locatorMaterial ∧ c.deletedAt = none ∧
      g.receiptId = permit.receiptId ∧ g.useSha256 = permit.useSha256 ∧
      g.action = .credentialCleanup ∧ g.targetKind = .cleanup ∧
      g.targetId = permit.cleanupId.bytes)
    recoveryError
  let (kind, service, username) ← orRefuse (parseDeleteOnlyLocator permit.locatorMaterial)
    recoveryError
  ensure (kind = c.locatorKind ∧ deleteOnlyLocatorShapeIsValid kind service username) recoveryError
  ensure (deleteOnlyLocatorNew service username) credentialDeleteError
  pure ⟨effective, c, g, service, username⟩

/-- The rows of a deletion. -/
def recordDeletion (db : Db) (permit : CleanupDeletePermit) (effective : Int) : Result Db := do
  let rows ← updateOne db.cleanups
    (fun c => c.cleanupId = permit.cleanupId ∧ c.state = .claimed ∧
      c.claimGrantId = some permit.grantId ∧ c.deletedAt = none)
    (fun c => { c with state := .deleted, deletedAt := some effective }) recoveryError
  let db ← written { db with cleanups := rows }
  let db ← insertTypedEvent env db (cleanupEvent permit.cleanupId 17 permit.grantId
    permit.receiptId 0x0703 0x0704 permit.useSha256 effective)
  observeClockPair db effective

/-- `apply_credential_cleanup_delete`; `backend` is what the credential store answers. -/
def applyCredentialCleanupDelete (s : Snapshot) (backend : Bytes → Bytes → Bool)
    (permit : CleanupDeletePermit) (observedAt : Int) (db : Db) : Result (Commit CleanupProjection) := do
  let x ← deletionReached env codec s permit observedAt db
  ensure (backend x.service x.username) credentialDeleteError
  let db ← recordDeletion env db permit x.effective
  pure ⟨db, cleanupProjection { x.cleanup with state := .deleted, deletedAt := some x.effective }
    (some x.grant.usedAt)⟩

end Kirje.Authority
