import Kirje.Authority.History

/-
  File:      Kirje/Authority/Accepted.lean
  Subject:   The states the authority store accepts: challenges, receipts, grants,
             stores and the trust rows, and `validate_ready_transaction`
             (crates/kirje-store/src/authority.rs).
-/

namespace Kirje.Authority

open Base

variable (env : Platform) (codec : ManifestCodec)

/-! ## 1. Cleanup contexts -/

/-- What `validate_credential_cleanup_context` compares a cleanup manifest with. -/
structure CleanupOrigin where
  cleanup : Cleanup
  transition : Transition
  origin : Origin
  value : AccountMutationManifest
  before : AccountSnapshot
  descriptor : CleanupDescriptor
  deriving DecidableEq, Repr

/-- The origin manifest of a cleanup is an update or a removal. -/
def cleanupMutationOf (kind : TransitionKind) (payload : ManifestPayload) :
    Option AccountMutationManifest :=
  if kind = .accountUpdate ∨ kind = .accountRemove then mutationOf kind payload else none

/-- The only descriptor of a mutation with a cleanup id. -/
def onlyDescriptor (items : List CleanupDescriptor) (id : CleanupId) : Option CleanupDescriptor :=
  match items.filter fun d => d.cleanupId = id with
  | [d] => some d
  | _ => none

/-- The rows a cleanup manifest refers to, as far as its transition. -/
def loadCleanupTransition (db : Db) (value : CredentialCleanupManifest) :
    Result (Cleanup × Transition) := do
  let transitionId ← orRefuse value.transitionId credentialCleanupInvalidError
  ensure (value.expectedState = .ready) credentialCleanupInvalidError
  let c ← orRefuse (loadCredentialCleanup db value.cleanupId) credentialCleanupInvalidError
  let stored ← orRefuse c.transitionId recoveryError
  ensure (stored = transitionId) credentialCleanupInvalidError
  let t ← orRefuse (loadAccountTransition db transitionId) credentialCleanupInvalidError
  ensure (t.state = .finalized ∧ (t.kind = .accountUpdate ∨ t.kind = .accountRemove) ∧
    t.preparedAt = c.createdAt) credentialCleanupInvalidError
  pure (c, t)

/-- The rest of the chain, down to the descriptor that reserved the cleanup. -/
def loadCleanupOrigin (db : Db) (context : ManifestContext) (value : CredentialCleanupManifest) :
    Result CleanupOrigin := do
  let (c, t) ← loadCleanupTransition db value
  let o ← orRefuse (loadOrigin env codec db t.grantId) recoveryError
  let mutation ← orRefuse (cleanupMutationOf t.kind o.manifest.payload) recoveryError
  let before ← orRefuse mutation.before recoveryError
  ensure (mutation.transitionId = t.transitionId ∧ mutation.configCas.storeId = t.storeId ∧
      before.accountId = t.accountId ∧ context.storeId = some t.storeId ∧
      context.accountId = some t.accountId ∧
      context.accountBindingSha256 = some before.bindingSha256)
    credentialCleanupInvalidError
  let d ← orRefuse (onlyDescriptor mutation.cleanup value.cleanupId) credentialCleanupInvalidError
  pure ⟨c, t, o, mutation, before, d⟩

/-- The manifest of a cleanup, if that is what a manifest is. -/
def cleanupManifest (m : ActionManifest) : Option CredentialCleanupManifest :=
  match m.payload with
  | .credentialCleanup value => some value
  | _ => none

/-- `validate_credential_cleanup_context`. -/
def validateCredentialCleanupContext (db : Db) (s : Snapshot) (m : ActionManifest)
    (requireReadyEligibility : Bool) : Result Unit := do
  let value ← orRefuse (cleanupManifest m) credentialCleanupInvalidError
  let x ← loadCleanupOrigin env codec db m.context value
  ensure (x.descriptor.expectedState = .provisional ∧
      x.descriptor.locatorKind = value.locatorKind ∧
      x.descriptor.locatorSha256 = value.locatorSha256 ∧
      x.cleanup.locatorKind = x.descriptor.locatorKind ∧
      x.cleanup.locatorSha256 = x.descriptor.locatorSha256)
    credentialCleanupInvalidError
  ensure (x.cleanup.locatorMaterial =
        expectedDeleteOnlyLocator env s.realmId x.transition.storeId x.before
          x.descriptor.locatorKind ∧
      env.sha256 x.cleanup.locatorMaterial = x.descriptor.locatorSha256)
    credentialCleanupInvalidError
  ensure ((db.accountVersions.filter fun v => v.accountId = x.before.accountId ∧
      v.storeId = x.transition.storeId ∧ v.accountGeneration = x.before.generation ∧
      v.credentialId = x.before.credentialId ∧
      v.bindingSha256 = x.before.bindingSha256).length = 1) recoveryError
  ensure (value.tombstoneSha256 = cleanupTombstone env s.realmId value.cleanupId x.transition
      x.origin.challenge.manifestSha256 x.before x.descriptor.locatorKind
      x.descriptor.locatorSha256 x.cleanup.createdAt)
    credentialCleanupInvalidError
  ensure (requireReadyEligibility → x.cleanup.state = .ready ∧ x.cleanup.claimGrantId = none ∧
    x.cleanup.deletedAt = none) credentialCleanupInvalidError

/-! ## 2. Challenges and receipts -/

/-- `validate_stored_receipt`. -/
@[mk_iff]
structure ReceiptOk (s : Snapshot) (c : Challenge) (r : Receipt) (n : NonceUse) : Prop where
  verified_utc : Representable r.verifiedAt
  expires_utc : Representable r.expiresAt
  proof : ∃ p ∈ proofOf r, r.proofSha256 = p.proofSha256 env ∧ r.signature = p.signature ∧
    p.challengeId = c.challengeId ∧ p.keyId = c.keyId ∧ p.signingPayloadSha256 = c.signingSha256
  challenge : r.challengeId = c.challengeId ∧ r.grantId = c.grantId ∧ r.keyId = c.keyId ∧
    r.manifestSha256 = c.manifestSha256 ∧ r.signingSha256 = c.signingSha256 ∧
    r.trustEpoch = c.trustEpoch ∧ r.bundleSha256 = c.bundleSha256
  receipt : r.receipt = authorizationReceipt r.receiptId c r.proofSha256 r.verifiedAt ∧
    r.receiptSha256 = env.sha256 r.receipt
  times : c.issuedAt ≤ r.verifiedAt ∧ r.verifiedAt ≤ c.expiresAt ∧ r.expiresAt = c.expiresAt
  nonce : n.nonce = c.nonce ∧ n.challengeId = c.challengeId ∧ n.receiptId = r.receiptId ∧
    n.consumedAt = r.verifiedAt
  signature : (verifyAuthorizationSignature env (s.publicKey c.action.requiredRole).bytes
    c.signingPayload r.signature.bytes).isOk

/-- The row of a challenge against its parsed manifest and transcript. -/
@[mk_iff]
structure ChallengeSigned (s : Snapshot) (c : Challenge) (m : ActionManifest)
    (p : AuthorizationPayload) : Prop where
  manifest : m.canonicalBytes = c.manifest ∧ m.sha256 = c.manifestSha256 ∧ m.action = c.action
  payload : p.canonicalBytes = c.signingPayload ∧ p.challengeId = c.challengeId ∧
    c.signingSha256 = c.challengeId
  realm : p.fields.ownerRealm = s.realmId
  target : p.fields.action = c.action ∧ p.fields.target.kind = c.targetKind ∧
    p.fields.target.bytes = c.targetId
  context : p.fields.storeId = c.storeId ∧ p.fields.accountId = c.accountId ∧
    p.fields.manifestSha256 = c.manifestSha256 ∧ p.fields.bindingSha256 = c.bindingSha256 ∧
    p.fields.policySha256 = c.policySha256
  signer : p.fields.bundleSha256 = c.bundleSha256 ∧ p.fields.signerKeyId = c.keyId ∧
    p.fields.trustEpoch = c.trustEpoch ∧ p.fields.grantId = c.grantId ∧ p.fields.nonce = c.nonce
  times : p.fields.issuedAt = c.issuedAt ∧ p.fields.expiresAt = c.expiresAt
  effects : p.fields.effects = []
  trust : c.keyId = s.keyId c.action.requiredRole ∧ c.trustEpoch = s.minimumEpoch ∧
    c.bundleSha256 = s.trustBundleSha256
  context_sha : c.contextSha256 = authorizationContextDigest env c.action c.targetKind c.targetId
    c.storeId c.accountId c.manifestSha256 c.bindingSha256 c.policySha256
    (s.keyId c.action.requiredRole) s.minimumEpoch s.trustBundleSha256
  intrinsic : intrinsic env s m.payload

section Decidable

instance (s : Snapshot) (c : Challenge) (r : Receipt) (n : NonceUse) :
    Decidable (ReceiptOk env s c r n) := decidable_of_iff' _ (receiptOk_iff env s c r n)

instance (s : Snapshot) (c : Challenge) (m : ActionManifest) (p : AuthorizationPayload) :
    Decidable (ChallengeSigned env s c m p) := decidable_of_iff' _ (challengeSigned_iff env s c m p)

end Decidable

/-- The receipt and nonce rows a challenge in its state has. -/
def ChallengeReceipt (db : Db) (s : Snapshot) (c : Challenge) : Prop :=
  match c.state, loadReceiptForChallenge db c.challengeId, loadNonceUse db c.challengeId with
  | .authorized, some r, some n => ReceiptOk env s c r n
  | .expired, some r, some n => ReceiptOk env s c r n ∧
      (db.grants.filter fun g => g.receiptId = r.receiptId) = []
  | .pending, none, none | .expired, none, none => True
  | _, _, _ => False

instance (db : Db) (s : Snapshot) (c : Challenge) : Decidable (ChallengeReceipt env db s c) := by
  unfold ChallengeReceipt
  split <;> infer_instance

/-- `validate_stored_challenge`. -/
@[mk_iff]
structure ChallengeOk (db : Db) (s : Snapshot) (c : Challenge) : Prop where
  utc : Representable c.issuedAt ∧ Representable c.expiresAt
  state : c.state ≠ .invalidated ∧ c.invalidatedAt = none
  lifetime : 0 ≤ c.issuedAt ∧ c.issuedAt < c.expiresAt ∧ c.expiresAt - c.issuedAt ≤ 900000
  issued : c.issuedAt ≤ db.metaRow.lastObservedAt
  supported : supportedChallengeAction c.action
  signed : ∃ m ∈ manifestOf env codec c, (∃ p ∈ payloadOf env c, ChallengeSigned env s c m p) ∧
    (c.action = .credentialCleanup →
      (validateCredentialCleanupContext env codec db s m false).isOk)
  receipt : ChallengeReceipt env db s c

instance (db : Db) (s : Snapshot) (c : Challenge) : Decidable (ChallengeOk env codec db s c) :=
  decidable_of_iff' _ (challengeOk_iff env codec db s c)

/-! ## 3. Grants and stores -/

/-- `validate_initial_store_version`. -/
@[mk_iff]
structure InitialVersion (v : StoreVersion) (store : Store) (e : StoreEnrollmentContext)
    (receiptId : ReceiptId) : Prop where
  utc : Representable v.createdAt
  store_id : v.storeId = store.storeId ∧ v.storeId = e.storeId
  location : v.locationSha256 = store.locationSha256 ∧ v.locationSha256 = e.locationSha256
  pair : v.configGeneration = e.configGeneration ∧ v.configSha256 = e.configSha256
  receipt : v.enrolledReceiptId = some receiptId ∧ v.committedTransitionId = none
  created_at : v.createdAt = store.createdAt

instance (v : StoreVersion) (s : Store) (e : StoreEnrollmentContext) (i : ReceiptId) :
    Decidable (InitialVersion v s e i) := decidable_of_iff' _ (initialVersion_iff v s e i)

/-- `validate_registry_events`. -/
def RegistryEvents (db : Db) (g : GrantUse) (store : Store) : Prop :=
  ∃ a ∈ loadSingleEntityEvent db 10 g.grantId.bytes 7,
    ∃ b ∈ loadSingleEntityEvent db 4 store.storeId.bytes 8,
      a.sequence + 1 = b.sequence ∧
      a.Is env (grantUsedEvent g.grantId g.receiptId g.useSha256 g.usedAt) ∧
      b.Is env (storeEnrolledEvent store.storeId g.grantId g.receiptId g.useSha256 g.usedAt)

instance (db : Db) (g : GrantUse) (s : Store) : Decidable (RegistryEvents env db g s) := by
  unfold RegistryEvents
  infer_instance

/-- The store an enrollment grant left behind. -/
def EnrollmentLeft (db : Db) (g : GrantUse) (r : Receipt) (m : ActionManifest) : Prop :=
  ∃ e ∈ storeEnrollmentContext m, ∃ store ∈ loadRegisteredStoreByReceipt db r.receiptId,
    ∃ v ∈ loadStoreVersionByReceipt db r.receiptId,
      (store.storeId = e.storeId ∧ store.locationSha256 = e.locationSha256 ∧
        store.createdAt = g.usedAt) ∧
      InitialVersion v store e r.receiptId ∧ RegistryEvents env db g store

/-- The cleanup a cleanup grant left behind. -/
def CleanupLeft (db : Db) (g : GrantUse) (m : ActionManifest) : Prop :=
  ∃ id ∈ Uuid.ofBytes? g.targetId, ∃ c ∈ loadCredentialCleanup db id, ∃ value ∈ cleanupManifest m,
    c.cleanupId = value.cleanupId ∧ (∃ i ∈ value.transitionId, c.transitionId = some i) ∧
    c.locatorKind = value.locatorKind ∧ c.locatorSha256 = value.locatorSha256 ∧
    c.claimGrantId = some g.grantId ∧ (c.state = .claimed ∨ c.state = .deleted)

/-- What each action leaves behind. -/
def GrantLeft (db : Db) (g : GrantUse) (r : Receipt) (c : Challenge) : Prop :=
  match g.action with
  | .accountCreate | .accountUpdate | .accountRemove | .credentialSet | .credentialDelete =>
      ∃ t ∈ loadAccountTransitionByGrant db g.grantId, TransitionOk env codec db t
  | .credentialCleanup => ∃ m ∈ manifestOf env codec c, CleanupLeft db g m
  | .storeEnroll => ∃ m ∈ manifestOf env codec c, EnrollmentLeft env db g r m
  | _ => False

section Decidable

instance (db : Db) (g : GrantUse) (r : Receipt) (m : ActionManifest) :
    Decidable (EnrollmentLeft env db g r m) := by
  unfold EnrollmentLeft
  infer_instance

instance (db : Db) (g : GrantUse) (m : ActionManifest) : Decidable (CleanupLeft db g m) := by
  unfold CleanupLeft
  infer_instance

instance (db : Db) (g : GrantUse) (r : Receipt) (c : Challenge) :
    Decidable (GrantLeft env codec db g r c) := by
  unfold GrantLeft
  split <;> infer_instance

end Decidable

/-- A grant against its receipt and its challenge. -/
@[mk_iff]
structure GrantSigned (g : GrantUse) (r : Receipt) (c : Challenge) : Prop where
  state : c.state = .authorized
  grant_id : g.grantId = c.grantId
  action : g.action = c.action
  target : g.targetKind = c.targetKind ∧ g.targetId = c.targetId
  manifest : g.manifestSha256 = c.manifestSha256
  times : r.verifiedAt ≤ g.usedAt ∧ g.usedAt ≤ r.expiresAt

instance (g : GrantUse) (r : Receipt) (c : Challenge) : Decidable (GrantSigned g r c) :=
  decidable_of_iff' _ (grantSigned_iff g r c)

/-- `validate_stored_grant`. -/
@[mk_iff]
structure GrantOk (db : Db) (g : GrantUse) : Prop where
  utc : Representable g.usedAt
  kind : g.targetKind = g.action.targetKind
  shape : validTargetShape g.targetKind g.targetId
  transcript : g.useReceipt = grantUseTranscript g.grantId g.receiptId g.action g.targetKind
    g.targetId g.manifestSha256 g.usedAt
  sha256 : g.useSha256 = env.sha256 g.useReceipt
  chain : ∃ r ∈ loadReceiptById db g.receiptId, ∃ c ∈ loadChallenge db r.challengeId,
    GrantSigned g r c ∧ GrantLeft env codec db g r c

instance (db : Db) (g : GrantUse) : Decidable (GrantOk env codec db g) :=
  decidable_of_iff' _ (grantOk_iff env codec db g)

/-- A store no transition has touched is as it was enrolled. -/
def UntouchedStore (db : Db) (store : Store) (e : StoreEnrollmentContext) : Prop :=
  (db.transitions.filter fun t => t.storeId = store.storeId) = [] →
    store.state = .active ∧ store.configGeneration = e.configGeneration ∧
    store.configSha256 = e.configSha256 ∧ store.updatedAt = store.createdAt

instance (db : Db) (s : Store) (e : StoreEnrollmentContext) : Decidable (UntouchedStore db s e) := by
  unfold UntouchedStore
  infer_instance

/-- The version a store was enrolled with. -/
def EnrolledStore (db : Db) (store : Store) (r : Receipt) (v : StoreVersion) : Prop :=
  ∃ c ∈ loadChallenge db r.challengeId, ∃ m ∈ manifestOf env codec c,
    ∃ e ∈ storeEnrollmentContext m, InitialVersion v store e r.receiptId ∧ UntouchedStore db store e

instance (db : Db) (s : Store) (r : Receipt) (v : StoreVersion) :
    Decidable (EnrolledStore env codec db s r v) := by
  unfold EnrolledStore
  infer_instance

/-- `validate_stored_store`. -/
@[mk_iff]
structure StoreOk (db : Db) (store : Store) : Prop where
  utc : Representable store.createdAt ∧ Representable store.updatedAt
  row : store.state ≠ .removed ∧ store.removedAt = none ∧ store.createdAt ≤ store.updatedAt ∧
    env.sha256 store.locationMaterial = store.locationSha256
  chain : ∃ r ∈ loadReceiptById db store.enrolledReceiptId,
    (∃ g ∈ loadGrantUseByReceipt db r.receiptId, g.usedAt = store.createdAt) ∧
    ∃ v ∈ loadStoreVersionByReceipt db r.receiptId,
      EnrolledStore env codec db store r v ∧ StoreEventsExact env db store v

instance (db : Db) (s : Store) : Decidable (StoreOk env codec db s) :=
  decidable_of_iff' _ (storeOk_iff env codec db s)

/-- A version that a transition committed. -/
def CommittedVersion (db : Db) (v : StoreVersion) (id : TransitionId) : Prop :=
  v.enrolledReceiptId = none ∧ ∃ t ∈ loadAccountTransition db id,
    v.storeId = t.storeId ∧ v.configGeneration = t.nextGeneration ∧
    v.configSha256 = t.afterConfigSha256 ∧ t.configCommittedAt = some v.createdAt

/-- The version an enrollment left. -/
def EnrolledVersion (db : Db) (v : StoreVersion) : Prop :=
  ∃ id ∈ v.enrolledReceiptId, ∃ r ∈ loadReceiptById db id, ∃ c ∈ loadChallenge db r.challengeId,
    ∃ m ∈ manifestOf env codec c, ∃ e ∈ storeEnrollmentContext m,
      ∃ store ∈ loadRegisteredStoreById db v.storeId, ∃ g ∈ loadGrantUseByReceipt db id,
        g.usedAt = v.createdAt ∧ InitialVersion v store e r.receiptId

/-- `validate_stored_store_version`. -/
def StoreVersionOk (db : Db) (v : StoreVersion) : Prop :=
  match v.committedTransitionId with
  | some id => CommittedVersion db v id
  | none => EnrolledVersion env codec db v

instance (db : Db) (v : StoreVersion) : Decidable (StoreVersionOk env codec db v) := by
  unfold StoreVersionOk CommittedVersion EnrolledVersion
  split <;> infer_instance

/-! ## 4. The registry as a whole -/

/-- The transitions that got past their config commit. -/
def committedTransitions (db : Db) : List Transition :=
  db.transitions.filter fun t => t.state = .configCommitted ∨ t.state = .finalized ∨
    (t.state = .recoveryRequired ∧ t.configCommittedAt.isSome)

/-- The counts of `validate_registry_history`. -/
@[mk_iff]
structure RegistryCounts (db : Db) : Prop where
  grants : db.grants.length = db.stores.length + db.transitions.length +
    (db.cleanups.filter fun c => c.state = .claimed ∨ c.state = .deleted).length
  credentials : db.credentials.length = (db.transitions.filter fun t =>
    t.kind = .accountCreate ∨ t.kind = .accountUpdate).length
  accounts : db.accounts.length =
    (db.transitions.filter fun t => t.kind = .accountCreate).length
  store_versions : db.storeVersions.length = db.stores.length + (committedTransitions db).length
  account_versions : db.accountVersions.length =
    ((committedTransitions db).filter fun t => t.kind ≠ .accountRemove).length
  attached : (db.cleanups.filter fun c => c.transitionId = none) = []

instance (db : Db) : Decidable (RegistryCounts db) := decidable_of_iff' _ (registryCounts_iff db)

/-- `validate_authorization_history` and `validate_registry_history` in the ready state. -/
@[mk_iff]
structure HistoryOk (db : Db) (s : Snapshot) : Prop where
  challenges : ∀ c ∈ db.challenges, ChallengeOk env codec db s c
  nonces : db.receipts.length = db.nonces.length
  counts : RegistryCounts db
  grants : ∀ g ∈ db.grants, GrantOk env codec db g
  stores : ∀ x ∈ db.stores, StoreOk env codec db x
  storeVersions : ∀ v ∈ db.storeVersions, StoreVersionOk env codec db v
  transitions : ∀ t ∈ db.transitions, TransitionOk env codec db t

instance (db : Db) (s : Snapshot) : Decidable (HistoryOk env codec db s) :=
  decidable_of_iff' _ (historyOk_iff env codec db s)

/-! ## 5. The snapshot -/

/-- The key row of an active key of the first epoch. -/
def activeKey (role : OwnerKeyRole) (mask : Nat) (createdAt : Int) (k : KeyRow) : Prop :=
  k.role = role ∧ k.permissionMask = mask ∧ k.state = .active ∧ k.validFromEpoch = 1 ∧
    k.validToEpoch = none ∧ k.installedAt = createdAt ∧ k.retiredAt = none

/-- The active epoch is the untouched first one. -/
def firstEpoch (createdAt : Int) (e : EpochRow) : Prop :=
  e.state = .active ∧ e.predecessorEpoch = none ∧ e.rotationKind = none ∧
    e.transitionReceiptId = none ∧ e.newOwnerKeyProof = none ∧ e.newRecoveryKeyProof = none ∧
    e.stagedAt = createdAt ∧ e.activatedAt = some createdAt ∧ e.retiredAt = none

/-- The checks of `load_snapshot` on the trust rows. -/
@[mk_iff]
structure TrustOk (db : Db) (e : EpochRow) (ok rk : KeyRow) : Prop where
  rows : db.keys.length = 2 ∧ db.epochs.length = 1 ∧ db.effectRows = 0
  active : db.metaRow.activeEpoch = 1
  epoch : firstEpoch db.metaRow.createdAt e
  owner : activeKey .owner 7 db.metaRow.createdAt ok
  recovery : activeKey .recovery 8 db.metaRow.createdAt rk
  clock : 0 ≤ db.metaRow.createdAt ∧ db.metaRow.createdAt ≤ db.metaRow.lastObservedAt ∧
    db.metaRow.updatedAt = db.metaRow.lastObservedAt
  confirmed : ∀ at' ∈ db.metaRow.anchorConfirmedAt, db.metaRow.createdAt ≤ at' ∧
    at' ≤ db.metaRow.lastObservedAt
  public_keys : ownerPublicKeyOk env ok.publicKey.bytes ∧ ownerPublicKeyOk env rk.publicKey.bytes ∧
    ok.publicKey ≠ rk.publicKey
  key_ids : ok.keyId = ownerKeyId env .owner ok.publicKey.bytes ∧
    rk.keyId = ownerKeyId env .recovery rk.publicKey.bytes
  bundle : db.metaRow.trustBundleSha256 = e.bundleSha256 ∧
    db.metaRow.trustBundleSha256 = trustBundleDigest env db.metaRow.realmId db.metaRow.journalId
      ⟨1, Nat.one_pos, one_lt_u64⟩ ok.keyId ok.publicKey rk.keyId rk.publicKey

instance (r : OwnerKeyRole) (n : Nat) (x : Int) (k : KeyRow) : Decidable (activeKey r n x k) := by
  unfold activeKey
  infer_instance

instance (x : Int) (e : EpochRow) : Decidable (firstEpoch x e) := by
  unfold firstEpoch
  infer_instance

instance (db : Db) (e : EpochRow) (ok rk : KeyRow) : Decidable (TrustOk env db e ok rk) :=
  decidable_of_iff' _ (trustOk_iff env db e ok rk)

/-- The snapshot the trust rows spell out. -/
def snapshotOf (m : Meta) (ok rk : KeyRow) : Snapshot where
  realmId := m.realmId
  journalId := m.journalId
  minimumEpoch := ⟨1, Nat.one_pos, one_lt_u64⟩
  ownerKeyId := ok.keyId
  ownerPublicKey := ok.publicKey
  recoveryKeyId := rk.keyId
  recoveryPublicKey := rk.publicKey
  trustBundleSha256 := m.trustBundleSha256
  journalLocationSha256 := m.journalLocationSha256

/-- The trust rows of `load_snapshot`, read and checked. -/
def loadTrust (db : Db) : Result Snapshot := do
  let e ← orRefuse (db.epochs.find? fun e => e.epoch = db.metaRow.activeEpoch) recoveryError
  let ok ← orRefuse (db.keys.find? fun k => k.keyId = e.ownerKeyId) recoveryError
  let rk ← orRefuse (db.keys.find? fun k => k.keyId = e.recoveryKeyId) recoveryError
  ensure (TrustOk env db e ok rk) recoveryError
  pure (snapshotOf db.metaRow ok rk)

/-- `load_snapshot` in the ready state, with the schema re-checked before it. -/
def loadSnapshot (db : Db) : Result Snapshot := do
  ensure (SchemaOk db) recoveryError
  ensure ((db.keys.filter fun k => k.state = .staged) = [] ∧
    (db.epochs.filter fun e => e.state = .staged) = []) recoveryError
  let s ← loadTrust env db
  ensure (db.metaRow.bootstrapState = .ready) recoveryError
  ensure (HistoryOk env codec db s) recoveryError
  ensure (LogOk env codec db) recoveryError
  pure s

/-- `validate_ready_transaction` of a handle opened on a snapshot. -/
def validateReadyTransaction (opened : Snapshot) (db : Db) : Result Unit := do
  let loaded ← loadSnapshot env codec db
  ensure (loaded = opened) recoveryError

/-- The states accepted for an anchor. -/
def Accepted (s : Snapshot) (db : Db) : Prop := validateReadyTransaction env codec s db = .ok ()

/-- **What acceptance says.** -/
theorem accepted_iff {s : Snapshot} {db : Db} : Accepted env codec s db ↔
    SchemaOk db ∧ ((db.keys.filter fun k => k.state = .staged) = [] ∧
      (db.epochs.filter fun e => e.state = .staged) = []) ∧ loadTrust env db = .ok s ∧
    db.metaRow.bootstrapState = .ready ∧ HistoryOk env codec db s ∧ LogOk env codec db := by
  simp only [Accepted, validateReadyTransaction, loadSnapshot, bind_ok, ensure_ok, pure_ok]
  constructor
  · rintro ⟨_, ⟨_, h1, _, h2, s', h3, _, h4, _, h5, _, h6, rfl⟩, rfl⟩
    exact ⟨h1, h2, h3, h4, h5, h6⟩
  · rintro ⟨h1, h2, h3, h4, h5, h6⟩
    exact ⟨s, ⟨(), h1, (), h2, s, h3, (), h4, (), h5, (), h6, rfl⟩, rfl⟩

end Kirje.Authority
