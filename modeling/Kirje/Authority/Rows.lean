import Mathlib.Tactic.MkIffOfInductiveProp
import Kirje.Base.Table
import Kirje.Core.Payload

/-
  File:      Kirje/Authority/Rows.lean
  Subject:   The authority database: its rows, its constraints and its errors
             (crates/kirje-store/src/authority.rs, authority/schema_v1.sql).

  A table is the list of its rows in insertion order, which for the events is the
  order of their sequence.  Rows are typed: widths, closed enumerations and the
  version of an identifier are in the types, so that what the loaders refuse cannot
  be built.  Times are milliseconds.  The five effect tables, which the store requires
  to be empty, are one count.
-/

namespace Kirje.Authority

open Base

/-! ## 1. Errors -/

def recoveryError : MailError :=
  .stable .ownerRecoveryRequired "authority state requires owner recovery"

def storeReadError : MailError := .stable .storeRead "authority store could not be read"

def storeWriteError : MailError := .stable .storeWrite "authority store could not be updated"

def contextStaleError : MailError :=
  .stable .authorizationContextStale "authorization context is stale"

def expiredError : MailError :=
  .stable .authorizationExpired "authorization challenge has expired"

def replayedError : MailError :=
  .stable .authorizationReplayed "authorization proof conflicts with an immutable receipt"

def grantAlreadyUsedError : MailError :=
  .stable .grantAlreadyUsed "authorization grant was already used with different identity"

def configStoreIdentityConflictError : MailError :=
  .stable .configStoreIdentityConflict
    "config store identity conflicts with an existing registration"

def accountUpdateConflictError : MailError :=
  .stable .accountUpdateConflict "account transition conflicts with the current registry state"

def accountIdentityConflictError : MailError :=
  .stable .accountIdentityConflict "account transition identity is already reserved"

def accountAlreadyExistsError : MailError :=
  .stable .accountAlreadyExists "account display identity is already active"

def credentialCleanupInvalidError : MailError :=
  .stable .credentialCleanupInvalid "credential cleanup is invalid"

def credentialDeleteError : MailError :=
  .stable .secretStoreUnavailable "OS credential store is unavailable"

/-! ## 2. States and kinds -/

inductive BootstrapState where
  | pendingAnchor | ready
  deriving DecidableEq, Repr

inductive ChallengeState where
  | pending | authorized | expired | invalidated
  deriving DecidableEq, Repr

inductive StoreState where
  | active | blocked | removed | recoveryRequired
  deriving DecidableEq, Repr

inductive AccountState where
  | proposed | active | blocked | removed
  deriving DecidableEq, Repr

inductive TransitionKind where
  | accountCreate | accountUpdate | accountRemove | credentialSet | credentialDelete
  deriving DecidableEq, Repr

inductive TransitionState where
  | prepared | configCommitted | finalized | aborted | recoveryRequired
  deriving DecidableEq, Repr

inductive KeyState where
  | staged | active | retired | revoked
  deriving DecidableEq, Repr

inductive EpochState where
  | staged | active | retired
  deriving DecidableEq, Repr

def TransitionKind.code : TransitionKind → Nat
  | accountCreate => 1
  | accountUpdate => 2
  | accountRemove => 3
  | credentialSet => 4
  | credentialDelete => 5

/-- The action a transition of a kind is signed for. -/
def TransitionKind.action : TransitionKind → SensitiveAction
  | accountCreate => .accountCreate
  | accountUpdate => .accountUpdate
  | accountRemove => .accountRemove
  | credentialSet => .credentialSet
  | credentialDelete => .credentialDelete

/-- `event_state`. -/
def TransitionState.eventState : TransitionState → Nat
  | prepared => 0x0601
  | configCommitted => 0x0602
  | finalized => 0x0603
  | aborted => 0x0604
  | recoveryRequired => 0x0605

/-! ## 3. Rows -/

structure Meta where
  bootstrapState : BootstrapState
  journalId : JournalId
  realmId : RealmId
  journalLocationSha256 : Digest
  activeEpoch : Nat
  trustBundleSha256 : Digest
  lastObservedAt : Int
  createdAt : Int
  updatedAt : Int
  anchorConfirmedAt : Option Int
  deriving DecidableEq, Repr

structure KeyRow where
  keyId : Digest
  role : OwnerKeyRole
  permissionMask : Nat
  publicKey : Digest
  state : KeyState
  validFromEpoch : Nat
  validToEpoch : Option Nat
  installedAt : Int
  retiredAt : Option Int
  deriving DecidableEq, Repr

structure EpochRow where
  epoch : Nat
  ownerKeyId : Digest
  recoveryKeyId : Digest
  bundleSha256 : Digest
  state : EpochState
  predecessorEpoch : Option Nat
  rotationKind : Option SensitiveAction
  transitionReceiptId : Option ReceiptId
  newOwnerKeyProof : Option Signature
  newRecoveryKeyProof : Option Signature
  stagedAt : Int
  activatedAt : Option Int
  retiredAt : Option Int
  deriving DecidableEq, Repr

/-- A row of `authorization_challenges`; the sequence of its created event is zero until linked. -/
structure Challenge where
  challengeId : Digest
  grantId : GrantId
  action : SensitiveAction
  targetKind : TargetKind
  targetId : Bytes
  storeId : Option StoreId
  accountId : Option AccountId
  contextSha256 : Digest
  manifest : Bytes
  manifestSha256 : Digest
  signingPayload : Bytes
  signingSha256 : Digest
  keyId : Digest
  trustEpoch : NonZeroU64
  bundleSha256 : Digest
  bindingSha256 : Option Digest
  policySha256 : Option Digest
  nonce : Digest
  issuedAt : Int
  expiresAt : Int
  state : ChallengeState
  invalidatedAt : Option Int
  createdEventSequence : Nat
  deriving DecidableEq, Repr

structure Receipt where
  receiptId : ReceiptId
  challengeId : Digest
  grantId : GrantId
  proofSha256 : Digest
  keyId : Digest
  signature : Signature
  canonicalProof : Bytes
  manifestSha256 : Digest
  signingSha256 : Digest
  trustEpoch : NonZeroU64
  bundleSha256 : Digest
  receipt : Bytes
  receiptSha256 : Digest
  verifiedAt : Int
  expiresAt : Int
  deriving DecidableEq, Repr

structure NonceUse where
  nonce : Digest
  challengeId : Digest
  receiptId : ReceiptId
  consumedAt : Int
  deriving DecidableEq, Repr

structure GrantUse where
  grantId : GrantId
  receiptId : ReceiptId
  action : SensitiveAction
  targetKind : TargetKind
  targetId : Bytes
  manifestSha256 : Digest
  useReceipt : Bytes
  useSha256 : Digest
  usedAt : Int
  deriving DecidableEq, Repr

structure Store where
  storeId : StoreId
  locationMaterial : Bytes
  locationSha256 : Digest
  configGeneration : NonZeroU64
  configSha256 : Digest
  state : StoreState
  enrolledReceiptId : ReceiptId
  createdAt : Int
  updatedAt : Int
  removedAt : Option Int
  deriving DecidableEq, Repr

structure StoreVersion where
  storeId : StoreId
  locationSha256 : Digest
  configGeneration : NonZeroU64
  configSha256 : Digest
  enrolledReceiptId : Option ReceiptId
  committedTransitionId : Option TransitionId
  createdAt : Int
  deriving DecidableEq, Repr

structure Account where
  accountId : AccountId
  storeId : StoreId
  displayIdSha256 : Digest
  accountGeneration : NonZeroU64
  credentialId : CredentialId
  bindingSha256 : Digest
  state : AccountState
  authorizedReceiptId : ReceiptId
  activeTransitionId : Option TransitionId
  createdAt : Int
  updatedAt : Int
  removedAt : Option Int
  deriving DecidableEq, Repr

structure AccountVersion where
  accountId : AccountId
  storeId : StoreId
  accountGeneration : NonZeroU64
  credentialId : CredentialId
  bindingSha256 : Digest
  committedTransitionId : TransitionId
  createdAt : Int
  deriving DecidableEq, Repr

structure Transition where
  transitionId : TransitionId
  grantId : GrantId
  storeId : StoreId
  accountId : AccountId
  kind : TransitionKind
  beforeConfigSha256 : Digest
  afterConfigSha256 : Digest
  expectedGeneration : NonZeroU64
  nextGeneration : NonZeroU64
  transitionSha256 : Digest
  state : TransitionState
  preparedAt : Int
  configCommittedAt : Option Int
  finalizedAt : Option Int
  resolvedAt : Option Int
  deriving DecidableEq, Repr

structure Credential where
  credentialId : CredentialId
  accountId : AccountId
  storeId : StoreId
  createdTransitionId : TransitionId
  createdAt : Int
  deriving DecidableEq, Repr

structure Cleanup where
  cleanupId : CleanupId
  transitionId : Option TransitionId
  locatorKind : LocatorKind
  locatorMaterial : Bytes
  locatorSha256 : Digest
  state : CleanupState
  claimGrantId : Option GrantId
  createdAt : Int
  deletedAt : Option Int
  deriving DecidableEq, Repr

structure Event where
  sequence : Nat
  entityKind : Nat
  entityId : Bytes
  eventCode : Nat
  source : Nat
  occurredAt : Int
  detail : Bytes
  detailSha256 : Digest
  deriving DecidableEq, Repr

/-- The database. -/
structure Db where
  metaRow : Meta
  keys : List KeyRow
  epochs : List EpochRow
  challenges : List Challenge
  receipts : List Receipt
  nonces : List NonceUse
  grants : List GrantUse
  stores : List Store
  storeVersions : List StoreVersion
  accounts : List Account
  accountVersions : List AccountVersion
  transitions : List Transition
  credentials : List Credential
  cleanups : List Cleanup
  events : List Event
  sequenceHighWater : Nat
  effectRows : Nat
  deriving DecidableEq, Repr

/-! ## 4. Constraints

The `CHECK`, `UNIQUE` and foreign-key constraints of each table, less those the types carry. -/

/-- The number fits a column of signed 64-bit integers. -/
def Storable (n : NonZeroU64) : Prop := n.val ≤ i64Max

instance (n : NonZeroU64) : Decidable (Storable n) := inferInstanceAs (Decidable (_ ≤ _))

/-- The width of a target of a kind. -/
def validTargetShape (kind : TargetKind) (bytes : Bytes) : Bool :=
  match kind with
  | .operation | .store | .account | .credential | .cleanup | .remoteEffect => bytes.length == 16
  | .trustEpoch => bytes.length == 8 && ofBe bytes != 0
  | .policy | .assurance => bytes.isEmpty

/-- The width of a target, as the tables check it. -/
def targetWidth : TargetKind → Nat
  | .operation | .store | .account | .credential | .cleanup | .remoteEffect => 16
  | .trustEpoch => 8
  | .policy | .assurance => 0

/-- The context columns a challenge of an action has, as the table checks them. -/
def contextColumns (c : Challenge) : Bool :=
  presenceOk c.action c.storeId.isSome c.accountId.isSome c.bindingSha256.isSome
      c.policySha256.isSome ||
    ((c.action == .policyUpdate || c.action == .assuranceUpdate) && c.storeId.isNone &&
      c.accountId.isNone && c.bindingSha256.isNone && c.policySha256.isNone)

@[mk_iff]
structure MetaOk (m : Meta) : Prop where
  clock : 0 ≤ m.lastObservedAt ∧ m.lastObservedAt ≤ i64Max
  created : 0 ≤ m.createdAt ∧ m.createdAt ≤ m.updatedAt
  confirmed : ∀ t ∈ m.anchorConfirmedAt, m.createdAt ≤ t
  ready : m.bootstrapState = .ready ↔ m.anchorConfirmedAt.isSome

@[mk_iff]
structure ChallengesOk (rows : List Challenge) : Prop where
  id_unique : (rows.map Challenge.challengeId).Nodup
  grant_unique : (rows.map Challenge.grantId).Nodup
  nonce_unique : (rows.map Challenge.nonce).Nodup
  one_pending : ((rows.filter fun c => c.state = .pending).map Challenge.contextSha256).Nodup
  checks : ∀ c ∈ rows, c.challengeId = c.signingSha256 ∧ 0 ≤ c.issuedAt ∧
    c.issuedAt < c.expiresAt ∧ c.expiresAt - c.issuedAt ≤ 900000 ∧
    c.targetId.length = targetWidth c.targetKind ∧
    c.targetKind = c.action.targetKind ∧ Storable c.trustEpoch ∧
    1 ≤ c.manifest.length ∧ c.manifest.length ≤ 4194304 ∧ 1 ≤ c.signingPayload.length ∧
    c.signingPayload.length ≤ 4194304
  presence : ∀ c ∈ rows, contextColumns c
  invalidation : ∀ c ∈ rows, (c.state = .invalidated ↔ c.invalidatedAt.isSome) ∧
    ∀ t ∈ c.invalidatedAt, c.issuedAt ≤ t

@[mk_iff]
structure ReceiptsOk (rows : List Receipt) : Prop where
  id_unique : (rows.map Receipt.receiptId).Nodup
  challenge_unique : (rows.map Receipt.challengeId).Nodup
  grant_unique : (rows.map Receipt.grantId).Nodup
  proof_unique : (rows.map Receipt.proofSha256).Nodup
  sha_unique : (rows.map Receipt.receiptSha256).Nodup
  checks : ∀ r ∈ rows, 0 ≤ r.verifiedAt ∧ r.verifiedAt ≤ r.expiresAt ∧
    1 ≤ r.canonicalProof.length ∧ r.canonicalProof.length ≤ 4096 ∧
    1 ≤ r.receipt.length ∧ r.receipt.length ≤ 16384

@[mk_iff]
structure NoncesOk (rows : List NonceUse) : Prop where
  nonce_unique : (rows.map NonceUse.nonce).Nodup
  challenge_unique : (rows.map NonceUse.challengeId).Nodup
  receipt_unique : (rows.map NonceUse.receiptId).Nodup
  checks : ∀ n ∈ rows, 0 ≤ n.consumedAt

@[mk_iff]
structure GrantsOk (rows : List GrantUse) : Prop where
  id_unique : (rows.map GrantUse.grantId).Nodup
  receipt_unique : (rows.map GrantUse.receiptId).Nodup
  use_unique : (rows.map GrantUse.useSha256).Nodup
  checks : ∀ g ∈ rows, 0 ≤ g.usedAt ∧ g.targetId.length = targetWidth g.targetKind ∧
    1 ≤ g.useReceipt.length ∧ g.useReceipt.length ≤ 16384

@[mk_iff]
structure StoresOk (rows : List Store) : Prop where
  id_unique : (rows.map Store.storeId).Nodup
  location_unique : (rows.map Store.locationSha256).Nodup
  receipt_unique : (rows.map Store.enrolledReceiptId).Nodup
  checks : ∀ s ∈ rows, 0 ≤ s.createdAt ∧ s.createdAt ≤ s.updatedAt ∧
    (s.state = .removed ↔ s.removedAt.isSome) ∧ (∀ t ∈ s.removedAt, s.createdAt ≤ t) ∧
    Storable s.configGeneration ∧ 1 ≤ s.locationMaterial.length ∧ s.locationMaterial.length ≤ 4096

@[mk_iff]
structure StoreVersionsOk (rows : List StoreVersion) : Prop where
  key_unique : (rows.map fun v => (v.storeId, v.configGeneration)).Nodup
  receipt_unique : (rows.filterMap StoreVersion.enrolledReceiptId).Nodup
  transition_unique : (rows.filterMap StoreVersion.committedTransitionId).Nodup
  checks : ∀ v ∈ rows, 0 ≤ v.createdAt ∧ Storable v.configGeneration ∧
    v.enrolledReceiptId.isSome ≠ v.committedTransitionId.isSome

@[mk_iff]
structure AccountsOk (rows : List Account) : Prop where
  id_unique : (rows.map Account.accountId).Nodup
  credential_unique : (rows.map Account.credentialId).Nodup
  receipt_unique : (rows.map Account.authorizedReceiptId).Nodup
  active_unique : (rows.filterMap Account.activeTransitionId).Nodup
  display_unique : ((rows.filter fun a => a.state ≠ .removed).map fun a =>
    (a.storeId, a.displayIdSha256)).Nodup
  checks : ∀ a ∈ rows, 0 ≤ a.createdAt ∧ a.createdAt ≤ a.updatedAt ∧
    (∀ t ∈ a.removedAt, a.createdAt ≤ t) ∧ (a.state = .removed ↔ a.removedAt.isSome) ∧
    (a.activeTransitionId.isSome → a.state = .proposed ∨ a.state = .blocked) ∧
    Storable a.accountGeneration

@[mk_iff]
structure AccountVersionsOk (rows : List AccountVersion) : Prop where
  key_unique : (rows.map fun v => (v.accountId, v.accountGeneration)).Nodup
  transition_unique : (rows.map AccountVersion.committedTransitionId).Nodup
  checks : ∀ v ∈ rows, 0 ≤ v.createdAt ∧ Storable v.accountGeneration

/-- The time columns each transition state has. -/
def timestampShape (t : Transition) : Prop :=
  match t.state with
  | .prepared => t.configCommittedAt.isNone ∧ t.finalizedAt.isNone ∧ t.resolvedAt.isNone
  | .configCommitted => t.configCommittedAt.isSome ∧ t.finalizedAt.isNone ∧ t.resolvedAt.isNone
  | .finalized => t.configCommittedAt.isSome ∧ t.finalizedAt.isSome ∧ t.resolvedAt.isNone
  | .aborted => t.configCommittedAt.isNone ∧ t.finalizedAt.isNone ∧ t.resolvedAt.isSome
  | .recoveryRequired => t.finalizedAt.isNone ∧ t.resolvedAt.isSome

instance (t : Transition) : Decidable (timestampShape t) := by
  unfold timestampShape
  exact match t.state with
    | .prepared | .configCommitted | .finalized | .aborted | .recoveryRequired => inferInstance

@[mk_iff]
structure TransitionsOk (rows : List Transition) : Prop where
  id_unique : (rows.map Transition.transitionId).Nodup
  grant_unique : (rows.map Transition.grantId).Nodup
  sha_unique : (rows.map Transition.transitionSha256).Nodup
  checks : ∀ t ∈ rows, 0 ≤ t.preparedAt ∧ t.expectedGeneration.exactIncrement t.nextGeneration ∧
    Storable t.nextGeneration ∧ timestampShape t ∧
    (∀ c ∈ t.configCommittedAt, t.preparedAt ≤ c) ∧
    (∀ f ∈ t.finalizedAt, ∀ c ∈ t.configCommittedAt, c ≤ f) ∧
    (∀ r ∈ t.resolvedAt, t.preparedAt ≤ r)

@[mk_iff]
structure CredentialsOk (rows : List Credential) : Prop where
  id_unique : (rows.map Credential.credentialId).Nodup
  transition_unique : (rows.map Credential.createdTransitionId).Nodup
  checks : ∀ c ∈ rows, 0 ≤ c.createdAt

/-- The claim and deletion columns each cleanup state has. -/
def cleanupShape (c : Cleanup) : Prop :=
  match c.state with
  | .provisional | .ready => c.claimGrantId.isNone ∧ c.deletedAt.isNone
  | .claimed => c.claimGrantId.isSome ∧ c.deletedAt.isNone
  | .deleted => c.claimGrantId.isSome ∧ c.deletedAt.isSome

instance (c : Cleanup) : Decidable (cleanupShape c) := by
  unfold cleanupShape
  exact match c.state with
    | .provisional | .ready | .claimed | .deleted => inferInstance

@[mk_iff]
structure CleanupsOk (rows : List Cleanup) : Prop where
  id_unique : (rows.map Cleanup.cleanupId).Nodup
  locator_unique : (rows.map Cleanup.locatorSha256).Nodup
  claim_unique : (rows.filterMap Cleanup.claimGrantId).Nodup
  checks : ∀ c ∈ rows, 0 ≤ c.createdAt ∧ cleanupShape c ∧ (∀ d ∈ c.deletedAt, c.createdAt ≤ d) ∧
    1 ≤ c.locatorMaterial.length ∧ c.locatorMaterial.length ≤ 4096

@[mk_iff]
structure EventsOk (rows : List Event) : Prop where
  sequence_unique : (rows.map Event.sequence).Nodup
  checks : ∀ e ∈ rows, 1 ≤ e.sequence ∧ 1 ≤ e.entityKind ∧ e.entityKind ≤ 13 ∧
    1 ≤ e.entityId.length ∧ e.entityId.length ≤ 32 ∧ 1 ≤ e.eventCode ∧ e.eventCode ≤ 26 ∧
    1 ≤ e.source ∧ e.source ≤ 6 ∧ 0 ≤ e.occurredAt ∧ 1 ≤ e.detail.length ∧
    e.detail.length ≤ 65536

@[mk_iff]
structure KeysOk (rows : List KeyRow) : Prop where
  id_unique : (rows.map KeyRow.keyId).Nodup
  public_unique : (rows.map KeyRow.publicKey).Nodup

/-- The foreign keys of the trust and authorization tables. -/
@[mk_iff]
structure AuthorizationKeysOk (db : Db) : Prop where
  epoch_keys : ∀ e ∈ db.epochs, (∃ k ∈ db.keys, k.keyId = e.ownerKeyId) ∧
    ∃ k ∈ db.keys, k.keyId = e.recoveryKeyId
  meta_epoch : ∃ e ∈ db.epochs, e.epoch = db.metaRow.activeEpoch
  challenge_key : ∀ c ∈ db.challenges, (∃ k ∈ db.keys, k.keyId = c.keyId) ∧
    ∃ e ∈ db.epochs, e.epoch = c.trustEpoch.val
  receipt_challenge : ∀ r ∈ db.receipts, ∃ c ∈ db.challenges, c.challengeId = r.challengeId ∧
    c.grantId = r.grantId ∧ c.keyId = r.keyId ∧ c.trustEpoch = r.trustEpoch ∧
    c.bundleSha256 = r.bundleSha256 ∧ c.manifestSha256 = r.manifestSha256 ∧
    c.signingSha256 = r.signingSha256 ∧ c.expiresAt = r.expiresAt
  nonce_challenge : ∀ n ∈ db.nonces, ∃ c ∈ db.challenges, c.nonce = n.nonce ∧
    c.challengeId = n.challengeId
  nonce_receipt : ∀ n ∈ db.nonces, ∃ r ∈ db.receipts, r.receiptId = n.receiptId ∧
    r.challengeId = n.challengeId
  grant_receipt : ∀ g ∈ db.grants, ∃ r ∈ db.receipts, r.grantId = g.grantId ∧
    r.receiptId = g.receiptId
  grant_challenge : ∀ g ∈ db.grants, ∃ c ∈ db.challenges, c.grantId = g.grantId ∧
    c.action = g.action ∧ c.targetKind = g.targetKind ∧ c.targetId = g.targetId ∧
    c.manifestSha256 = g.manifestSha256

/-- The foreign keys of the stores and their versions. -/
@[mk_iff]
structure StoreKeysOk (db : Db) : Prop where
  store_receipt : ∀ s ∈ db.stores, ∃ r ∈ db.receipts, r.receiptId = s.enrolledReceiptId
  version_store : ∀ v ∈ db.storeVersions, ∃ s ∈ db.stores, s.storeId = v.storeId ∧
    s.locationSha256 = v.locationSha256 ∧
    ∀ r ∈ v.enrolledReceiptId, s.enrolledReceiptId = r
  version_receipt : ∀ v ∈ db.storeVersions, ∀ i ∈ v.enrolledReceiptId,
    ∃ r ∈ db.receipts, r.receiptId = i
  version_transition : ∀ v ∈ db.storeVersions, ∀ i ∈ v.committedTransitionId,
    ∃ t ∈ db.transitions, t.transitionId = i ∧ t.storeId = v.storeId

/-- The foreign keys of the accounts and the transitions. -/
@[mk_iff]
structure AccountKeysOk (db : Db) : Prop where
  account_store : ∀ a ∈ db.accounts, ∃ s ∈ db.stores, s.storeId = a.storeId
  account_receipt : ∀ a ∈ db.accounts, ∃ r ∈ db.receipts, r.receiptId = a.authorizedReceiptId
  account_credential : ∀ a ∈ db.accounts, ∃ c ∈ db.credentials,
    c.credentialId = a.credentialId ∧ c.accountId = a.accountId ∧ c.storeId = a.storeId
  account_active : ∀ a ∈ db.accounts, ∀ i ∈ a.activeTransitionId,
    ∃ t ∈ db.transitions, t.transitionId = i
  transition_grant : ∀ t ∈ db.transitions, ∃ g ∈ db.grants, g.grantId = t.grantId
  transition_store : ∀ t ∈ db.transitions, ∃ s ∈ db.stores, s.storeId = t.storeId
  transition_account : ∀ t ∈ db.transitions, ∃ a ∈ db.accounts, a.accountId = t.accountId ∧
    a.storeId = t.storeId

/-- The foreign keys of the credentials, the account versions and the cleanups. -/
@[mk_iff]
structure CredentialKeysOk (db : Db) : Prop where
  credential_account : ∀ c ∈ db.credentials, ∃ a ∈ db.accounts, a.accountId = c.accountId ∧
    a.storeId = c.storeId
  credential_transition : ∀ c ∈ db.credentials, ∃ t ∈ db.transitions,
    t.transitionId = c.createdTransitionId ∧ t.accountId = c.accountId ∧ t.storeId = c.storeId
  account_version_account : ∀ v ∈ db.accountVersions, ∃ a ∈ db.accounts,
    a.accountId = v.accountId ∧ a.storeId = v.storeId
  account_version_credential : ∀ v ∈ db.accountVersions, ∃ c ∈ db.credentials,
    c.credentialId = v.credentialId ∧ c.accountId = v.accountId ∧ c.storeId = v.storeId
  account_version_transition : ∀ v ∈ db.accountVersions, ∃ t ∈ db.transitions,
    t.transitionId = v.committedTransitionId ∧ t.accountId = v.accountId ∧ t.storeId = v.storeId
  cleanup_transition : ∀ c ∈ db.cleanups, ∀ i ∈ c.transitionId,
    ∃ t ∈ db.transitions, t.transitionId = i
  cleanup_grant : ∀ c ∈ db.cleanups, ∀ i ∈ c.claimGrantId, ∃ g ∈ db.grants, g.grantId = i

/-- The foreign keys of every table. -/
@[mk_iff]
structure ForeignKeysOk (db : Db) : Prop where
  authorization : AuthorizationKeysOk db
  store : StoreKeysOk db
  account : AccountKeysOk db
  credential : CredentialKeysOk db

/-- The constraints of each table on its own. -/
@[mk_iff]
structure TablesOk (db : Db) : Prop where
  metaRow : MetaOk db.metaRow
  keys : KeysOk db.keys
  epochs : (db.epochs.map EpochRow.epoch).Nodup
  challenges : ChallengesOk db.challenges
  receipts : ReceiptsOk db.receipts
  nonces : NoncesOk db.nonces
  grants : GrantsOk db.grants
  stores : StoresOk db.stores
  storeVersions : StoreVersionsOk db.storeVersions
  accounts : AccountsOk db.accounts
  accountVersions : AccountVersionsOk db.accountVersions
  transitions : TransitionsOk db.transitions
  credentials : CredentialsOk db.credentials
  cleanups : CleanupsOk db.cleanups
  events : EventsOk db.events

/-- The constraints of the whole schema, as `ensure_usable_schema` re-checks them. -/
@[mk_iff]
structure SchemaOk (db : Db) : Prop where
  tables : TablesOk db
  foreignKeys : ForeignKeysOk db

section Decidable

instance (m : Meta) : Decidable (MetaOk m) := decidable_of_iff' _ (metaOk_iff m)
instance (l : List Challenge) : Decidable (ChallengesOk l) := decidable_of_iff' _ (challengesOk_iff l)
instance (l : List Receipt) : Decidable (ReceiptsOk l) := decidable_of_iff' _ (receiptsOk_iff l)
instance (l : List NonceUse) : Decidable (NoncesOk l) := decidable_of_iff' _ (noncesOk_iff l)
instance (l : List GrantUse) : Decidable (GrantsOk l) := decidable_of_iff' _ (grantsOk_iff l)
instance (l : List Store) : Decidable (StoresOk l) := decidable_of_iff' _ (storesOk_iff l)
instance (l : List StoreVersion) : Decidable (StoreVersionsOk l) :=
  decidable_of_iff' _ (storeVersionsOk_iff l)
instance (l : List Account) : Decidable (AccountsOk l) := decidable_of_iff' _ (accountsOk_iff l)
instance (l : List AccountVersion) : Decidable (AccountVersionsOk l) :=
  decidable_of_iff' _ (accountVersionsOk_iff l)
instance (l : List Transition) : Decidable (TransitionsOk l) :=
  decidable_of_iff' _ (transitionsOk_iff l)
instance (l : List Credential) : Decidable (CredentialsOk l) :=
  decidable_of_iff' _ (credentialsOk_iff l)
instance (l : List Cleanup) : Decidable (CleanupsOk l) := decidable_of_iff' _ (cleanupsOk_iff l)
instance (l : List Event) : Decidable (EventsOk l) := decidable_of_iff' _ (eventsOk_iff l)
instance (l : List KeyRow) : Decidable (KeysOk l) := decidable_of_iff' _ (keysOk_iff l)
instance (db : Db) : Decidable (AuthorizationKeysOk db) :=
  decidable_of_iff' _ (authorizationKeysOk_iff db)
instance (db : Db) : Decidable (StoreKeysOk db) := decidable_of_iff' _ (storeKeysOk_iff db)
instance (db : Db) : Decidable (AccountKeysOk db) := decidable_of_iff' _ (accountKeysOk_iff db)
instance (db : Db) : Decidable (CredentialKeysOk db) :=
  decidable_of_iff' _ (credentialKeysOk_iff db)
instance (db : Db) : Decidable (ForeignKeysOk db) := decidable_of_iff' _ (foreignKeysOk_iff db)
instance (db : Db) : Decidable (TablesOk db) := decidable_of_iff' _ (tablesOk_iff db)
instance (db : Db) : Decidable (SchemaOk db) := decidable_of_iff' _ (schemaOk_iff db)

end Decidable

end Kirje.Authority
