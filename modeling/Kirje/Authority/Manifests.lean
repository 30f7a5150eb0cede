import Kirje.Authority.Queries

/-
  File:      Kirje/Authority/Manifests.lean
  Subject:   What a stored challenge signs: the parsed manifest and transcript, the
             intrinsic rules of a manifest, the rows behind a grant
             (crates/kirje-store/src/authority.rs).

  `Origin` is the chain a transition is read back through, from its grant to the
  manifest its owner signed.
-/

namespace Kirje.Authority

open Base

variable (env : Platform) (codec : ManifestCodec)

/-! ## 1. Reading a challenge -/

/-- `ActionManifest::parse(&challenge.manifest)`. -/
def manifestOf (c : Challenge) : Option ActionManifest :=
  (ActionManifest.parse env codec c.manifest).toOption

/-- `AuthorizationPayload::parse(&challenge.signing_payload)`. -/
def payloadOf (c : Challenge) : Option AuthorizationPayload :=
  (AuthorizationPayload.parse env c.signingPayload).toOption

/-- `AuthorizationProof::parse_canonical(&receipt.canonical_proof)`. -/
def proofOf (r : Receipt) : Option AuthorizationProof :=
  (AuthorizationProof.parseCanonical r.canonicalProof).toOption

/-- The mutation a manifest of a transition kind carries. -/
def mutationOf : TransitionKind → ManifestPayload → Option AccountMutationManifest
  | .accountCreate, .accountCreate value => some value
  | .accountUpdate, .accountUpdate value => some value
  | .accountRemove, .accountRemove value => some value
  | .credentialSet, .credentialSet value => some value.account
  | .credentialDelete, .credentialDelete value => some value.account
  | _, _ => none

/-- The mutation of any account manifest. -/
def anyMutationOf : ManifestPayload → Option AccountMutationManifest
  | .accountCreate value | .accountUpdate value | .accountRemove value => some value
  | .credentialSet value | .credentialDelete value => some value.account
  | _ => none

/-- The snapshot a transition registers. -/
def accountSnapshotOf (kind : TransitionKind) (value : AccountMutationManifest) :
    Option AccountSnapshot :=
  if kind = .accountRemove then value.before else value.after

/-- The target a transition is signed for. -/
def expectedTargetId (kind : TransitionKind) (accountId : AccountId)
    (value : AccountMutationManifest) (snapshot : AccountSnapshot) : Option Bytes :=
  match kind with
  | .credentialDelete => value.before.map fun before => before.credentialId.bytes
  | .credentialSet => some snapshot.credentialId.bytes
  | .accountCreate | .accountUpdate | .accountRemove => some accountId.bytes

/-- `StoreEnrollmentContext`. -/
structure StoreEnrollmentContext where
  storeId : StoreId
  locationSha256 : Digest
  configGeneration : NonZeroU64
  configSha256 : Digest
  deriving DecidableEq, Repr

/-- `store_enrollment_context`. -/
def storeEnrollmentContext (m : ActionManifest) : Option StoreEnrollmentContext :=
  match m.payload with
  | .storeEnroll value => some ⟨value.configCas.storeId, value.configCas.locationSha256,
      value.configCas.generation, value.configCas.exactContentSha256⟩
  | _ => none

/-! ## 2. Intents of an expired receipt -/

/-- `enrollment_intent_from_rows`. -/
def enrollmentIntentFromRows (c : Challenge) (r : Receipt) (e : StoreEnrollmentContext) : Digest :=
  enrollmentIntent env c.grantId r.receiptId c.action c.targetKind c.targetId c.manifestSha256
    e.storeId e.locationSha256 e.configGeneration e.configSha256

/-- The transition kind of an account action. -/
def kindOfAction : SensitiveAction → Option TransitionKind
  | .accountCreate => some .accountCreate
  | .accountUpdate => some .accountUpdate
  | .accountRemove => some .accountRemove
  | .credentialSet => some .credentialSet
  | .credentialDelete => some .credentialDelete
  | _ => none

/-- `account_prepare_intent_from_rows`. -/
def accountPrepareIntentFromRows (c : Challenge) (r : Receipt) (value : AccountMutationManifest) :
    Option Digest := do
  let kind ← kindOfAction c.action
  let account ← accountSnapshotOf kind value
  some (prepareIntent env c.grantId r.receiptId c.action c.targetKind c.targetId c.manifestSha256
    value.transitionId value.configCas.storeId account.accountId kind
    value.configCas.exactContentSha256 value.afterConfigSha256 value.configCas.generation
    value.nextConfigGeneration (displayIdDigest env account.displayId) account.generation
    account.credentialId account.bindingSha256)

/-- The intent an authorized challenge expires with. -/
def expiryIntent (c : Challenge) (r : Receipt) (m : ActionManifest) : Option Digest :=
  match m.payload with
  | .storeEnroll _ => (storeEnrollmentContext m).map (enrollmentIntentFromRows env c r)
  | .accountCreate value | .accountUpdate value | .accountRemove value =>
      accountPrepareIntentFromRows env c r value
  | .credentialSet value | .credentialDelete value =>
      accountPrepareIntentFromRows env c r value.account
  | .credentialCleanup _ => some c.manifestSha256
  | _ => none

/-! ## 3. Intrinsic rules -/

/-- `ensure_supported_challenge_action`. -/
def supportedChallengeAction : SensitiveAction → Bool
  | .storeEnroll | .accountCreate | .accountUpdate | .accountRemove | .credentialSet
  | .credentialDelete | .credentialCleanup | .ownerRotate | .recoveryRotate | .ownerRecover => true
  | _ => false

def ensureSupportedChallengeAction (action : SensitiveAction) : Result Unit :=
  ensure (supportedChallengeAction action)
    (if action = .policyUpdate ∨ action = .assuranceUpdate then
      .stable .unsupportedCapability "authorization action is not supported"
    else contextStaleError)

/-- `provisional_cleanup_is_unique`. -/
def provisionalCleanupIsUnique (items : List CleanupDescriptor) : Bool :=
  !items.isEmpty && items.length ≤ 100 && items.all (fun i => i.expectedState == .provisional) &&
    (items.map CleanupDescriptor.cleanupId).Nodup && (items.map CleanupDescriptor.locatorSha256).Nodup

/-- The account-creation rules of `validate_intrinsic_manifest`. -/
def accountCreateIntrinsic (value : AccountMutationManifest) : Bool :=
  match value.after with
  | some after => value.before.isNone && value.cleanup.isEmpty && after.cleanupIds.isEmpty &&
      after.stateReason == some .credentialReentryRequired &&
      value.configCas.exactContentSha256 != value.afterConfigSha256 &&
      value.configCas.generation.exactIncrement value.nextConfigGeneration
  | none => false

/-- `validate_account_update_intrinsic`. -/
def accountUpdateIntrinsic (value : AccountMutationManifest) : Bool :=
  match value.before, value.after with
  | some before, some after => value.configCas.exactContentSha256 != value.afterConfigSha256 &&
      provisionalCleanupIsUnique value.cleanup &&
      before.cleanupIds ++ value.cleanup.map CleanupDescriptor.cleanupId == after.cleanupIds &&
      after.stateReason == some .credentialReentryRequired
  | _, _ => false

/-- `validate_account_remove_intrinsic`. -/
def accountRemoveIntrinsic (value : AccountMutationManifest) : Bool :=
  value.configCas.exactContentSha256 != value.afterConfigSha256 &&
    provisionalCleanupIsUnique value.cleanup

/-- `validate_credential_mutation_intrinsic`. -/
def credentialMutationIntrinsic (value : CredentialMutationManifest) : Bool :=
  match value.account.after with
  | some after => value.account.configCas.exactContentSha256 != value.account.afterConfigSha256 &&
      value.account.cleanup.isEmpty && after.stateReason.isNone
  | none => false

/-- `checked_add(1)`. -/
def nextEpoch (s : Snapshot) : Option NonZeroU64 := NonZeroU64.new? (s.minimumEpoch.val + 1)

/-- `validate_rotation_manifest`. -/
def rotationIntrinsic (s : Snapshot) (value : TrustRotationManifest) (role : OwnerKeyRole) : Bool :=
  match nextEpoch s with
  | none => false
  | some next =>
      let proposed := value.newPublicKey
      let owner := if role = .owner then proposed else s.ownerPublicKey
      let recovery := if role = .owner then s.recoveryPublicKey else proposed
      let bundle := trustBundleDigest env s.realmId s.journalId next
        (ownerKeyId env .owner owner.bytes) owner (ownerKeyId env .recovery recovery.bytes) recovery
      ownerPublicKeyOk env proposed.bytes && value.role == role &&
        value.permissions == (if role = .owner then .owner else .recovery) &&
        value.oldKeyId == s.keyId role && value.oldPublicKey == s.publicKey role &&
        value.oldEpoch == s.minimumEpoch && value.newEpoch == next &&
        value.oldBundle == s.trustBundleSha256 && proposed != s.ownerPublicKey &&
        proposed != s.recoveryPublicKey && value.newKeyId == ownerKeyId env role proposed.bytes &&
        value.newBundle == bundle

/-- The recovery rules of `validate_intrinsic_manifest`. -/
def ownerRecoverIntrinsic (s : Snapshot) (value : OwnerRecoverManifest) : Bool :=
  match nextEpoch s with
  | none => false
  | some next =>
      let owner := value.newOwnerKey
      let recovery := value.newRecoveryKey
      let bundle := trustBundleDigest env s.realmId s.journalId next value.newOwnerId owner
        value.newRecoveryId recovery
      ownerPublicKeyOk env owner.bytes && ownerPublicKeyOk env recovery.bytes &&
        value.journalId == s.journalId && value.oldEpoch == s.minimumEpoch &&
        value.newEpoch == next && value.oldBundle == s.trustBundleSha256 && owner != recovery &&
        owner != s.ownerPublicKey && owner != s.recoveryPublicKey &&
        recovery != s.ownerPublicKey && recovery != s.recoveryPublicKey &&
        value.newOwnerId == ownerKeyId env .owner owner.bytes &&
        value.newRecoveryId == ownerKeyId env .recovery recovery.bytes &&
        value.newBundle == bundle

/-- What `validate_intrinsic_manifest` demands of each payload. -/
def intrinsic (s : Snapshot) : ManifestPayload → Bool
  | .storeEnroll _ | .credentialCleanup _ => true
  | .accountCreate value => accountCreateIntrinsic value
  | .accountUpdate value => accountUpdateIntrinsic value
  | .accountRemove value => accountRemoveIntrinsic value
  | .credentialSet value | .credentialDelete value => credentialMutationIntrinsic value
  | .ownerRotate value => rotationIntrinsic env s value .owner
  | .recoveryRotate value => rotationIntrinsic env s value .recovery
  | .ownerRecover value => ownerRecoverIntrinsic env s value
  | _ => false

def validateIntrinsicManifest (s : Snapshot) (m : ActionManifest) : Result Unit :=
  ensure (intrinsic env s m.payload) contextStaleError

/-! ## 4. Origins -/

/-- The rows behind a grant and the manifest its owner signed. -/
structure Origin where
  grant : GrantUse
  receipt : Receipt
  challenge : Challenge
  manifest : ActionManifest
  deriving DecidableEq, Repr

/-- `load_grant_use`, `load_receipt_by_id`, `load_challenge` and `ActionManifest::parse` in turn. -/
def loadOrigin (db : Db) (id : GrantId) : Option Origin := do
  let grant ← loadGrantUse db id
  let receipt ← loadReceiptById db grant.receiptId
  let challenge ← loadChallenge db receipt.challengeId
  let manifest ← manifestOf env codec challenge
  some ⟨grant, receipt, challenge, manifest⟩

/-- `transition_receipt_id`. -/
def transitionReceiptId (db : Db) (t : Transition) : Option ReceiptId :=
  (loadGrantUse db t.grantId).map GrantUse.receiptId

/-- **The origin of a grant is the chain of rows from it.** -/
theorem loadOrigin_iff {db : Db} (h : TablesOk db) {id : GrantId} {o : Origin} :
    loadOrigin env codec db id = some o ↔
      (o.grant ∈ db.grants ∧ o.grant.grantId = id) ∧
      (o.receipt ∈ db.receipts ∧ o.receipt.receiptId = o.grant.receiptId) ∧
      (o.challenge ∈ db.challenges ∧ o.challenge.challengeId = o.receipt.challengeId) ∧
      manifestOf env codec o.challenge = some o.manifest := by
  simp only [loadOrigin, Option.bind_eq_bind, Option.bind_eq_some_iff, Option.some.injEq,
    loadGrantUse_iff h, loadReceiptById_iff h, loadChallenge_iff h]
  constructor
  · rintro ⟨g, hg, r, hr, c, hc, m, hm, rfl⟩
    exact ⟨hg, hr, hc, hm⟩
  · rintro ⟨hg, hr, hc, hm⟩
    exact ⟨o.grant, hg, o.receipt, hr, o.challenge, hc, o.manifest, hm, rfl⟩

end Kirje.Authority
