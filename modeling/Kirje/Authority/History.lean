import Kirje.Authority.Events

/-
  File:      Kirje/Authority/History.lean
  Subject:   What the validator demands of the stored rows, and the snapshot it
             loads (crates/kirje-store/src/authority.rs).

  Every stored row is checked against the rows it comes from, down to the manifest
  an owner signed.  `Accepted` is `validate_ready_transaction`, which every operation
  runs first.
-/

namespace Kirje.Authority

open Base

variable (env : Platform) (codec : ManifestCodec)

/-! ## 1. Transition projections -/

/-- `AccountTransitionProjection`. -/
structure TransitionProjection where
  transitionId : TransitionId
  accountId : AccountId
  transitionState : TransitionState
  accountState : AccountState
  storeState : StoreState
  configGeneration : NonZeroU64
  accountGeneration : NonZeroU64
  preparedAt : Int
  deriving DecidableEq, Repr

/-- `projection_for_state`. -/
def projectionForState (t : Transition) (state : TransitionState) (account : AccountState)
    (store : StoreState) (configGeneration accountGeneration : NonZeroU64) :
    Result TransitionProjection := do
  let preparedAt ← utcMillis t.preparedAt
  pure ⟨t.transitionId, t.accountId, state, account, store, configGeneration, accountGeneration,
    preparedAt⟩

/-- The snapshot whose generation a projection of a transition in a state shows. -/
def projectedSnapshot (t : Transition) (state : TransitionState) (value : AccountMutationManifest) :
    Option AccountSnapshot :=
  if t.kind = .accountRemove ∨ (t.kind ≠ .accountCreate ∧ state = .aborted) then value.before
  else value.after

/-- `transition_projection_account_generation`. -/
def projectionAccountGeneration (db : Db) (t : Transition) (state : TransitionState) :
    Result NonZeroU64 := do
  let o ← orRefuse (loadOrigin env codec db t.grantId) recoveryError
  let value ← orRefuse (mutationOf t.kind o.manifest.payload) recoveryError
  let snapshot ← orRefuse (projectedSnapshot t state value) recoveryError
  pure snapshot.generation

/-- `projection_for_transition_state`. -/
def projectionForTransitionState (db : Db) (t : Transition) (state : TransitionState)
    (account : AccountState) (store : StoreState) (configGeneration : NonZeroU64) :
    Result TransitionProjection := do
  let generation ← projectionAccountGeneration env codec db t state
  projectionForState t state account store configGeneration generation

/-- The account state of an open transition. -/
def openAccountState (kind : TransitionKind) : AccountState :=
  if kind = .accountCreate then .proposed else .blocked

/-- The account state of a finalized transition. -/
def finalAccountState (kind : TransitionKind) : AccountState :=
  if kind = .accountRemove then .removed else .active

/-- The account state of an aborted transition. -/
def abortedAccountState (kind : TransitionKind) : AccountState :=
  if kind = .accountCreate then .removed else .active

/-- The projection of an open transition, whose store holds the given pair. -/
def openProjection (t : Transition) (account : Account) (store : Store)
    (generation accountGeneration : NonZeroU64) (configSha256 : Digest) :
    Result TransitionProjection := do
  ensure (account.state = openAccountState t.kind ∧
      account.activeTransitionId = some t.transitionId ∧
      account.accountGeneration = accountGeneration ∧ store.state = .blocked ∧
      store.configGeneration = generation ∧ store.configSha256 = configSha256)
    recoveryError
  projectionForState t t.state (openAccountState t.kind) .blocked generation accountGeneration

/-- The projection of a stopped transition. -/
def recoveryProjection (t : Transition) (account : Account) (store : Store)
    (accountGeneration : NonZeroU64) : Result TransitionProjection := do
  ensure (account.state = .blocked ∧ account.activeTransitionId = some t.transitionId ∧
    store.state = .recoveryRequired) recoveryError
  projectionForState t t.state .blocked .recoveryRequired store.configGeneration accountGeneration

/-- `transition_projection`. -/
def transitionProjection (db : Db) (t : Transition) : Result TransitionProjection := do
  let account ← orRefuse (loadRegisteredAccount db t.accountId) recoveryError
  let generation ← projectionAccountGeneration env codec db t t.state
  ensure (account.accountId = t.accountId ∧ account.storeId = t.storeId) recoveryError
  match t.state with
  | .prepared => do
      let store ← orRefuse (loadRegisteredStoreById db t.storeId) recoveryError
      openProjection t account store t.expectedGeneration generation t.beforeConfigSha256
  | .configCommitted => do
      let store ← orRefuse (loadRegisteredStoreById db t.storeId) recoveryError
      openProjection t account store t.nextGeneration generation t.afterConfigSha256
  | .finalized =>
      projectionForState t t.state (finalAccountState t.kind) .active t.nextGeneration generation
  | .aborted =>
      projectionForState t t.state (abortedAccountState t.kind) .active t.expectedGeneration
        generation
  | .recoveryRequired => do
      let store ← orRefuse (loadRegisteredStoreById db t.storeId) recoveryError
      recoveryProjection t account store generation

/-! ## 2. Account transitions -/

/-- The later transitions of the same account. -/
def successors (db : Db) (t : Transition) : List Transition :=
  db.transitions.filter fun u => u.accountId = t.accountId ∧ u.transitionId ≠ t.transitionId ∧
    t.nextGeneration.val ≤ u.expectedGeneration.val

/-- An aborted transition leaves the account as it found it. -/
def restoredPredecessor (t : Transition) : Bool := t.kind != .accountCreate && t.state == .aborted

/-- The snapshot the account row of a current transition holds. -/
def currentSnapshot (t : Transition) (value : AccountMutationManifest) : Option AccountSnapshot :=
  if t.kind = .accountRemove ∨ restoredPredecessor t then value.before else value.after

/-- The receipt the account row of a current transition holds. -/
def currentReceipt (db : Db) (t : Transition) (current : AccountSnapshot) (receiptId : ReceiptId) :
    Option ReceiptId :=
  if restoredPredecessor t then do
    let v ← loadAccountVersion db t.accountId current.generation
    let parent ← loadAccountTransition db v.committedTransitionId
    transitionReceiptId db parent
  else some receiptId

/-- State, active transition, update and removal of the account row of a current transition. -/
def currentColumns (t : Transition) :
    Option (AccountState × Option TransitionId × Int × Option Int) :=
  match t.state with
  | .prepared | .configCommitted =>
      some (openAccountState t.kind, some t.transitionId, t.preparedAt, none)
  | .finalized => t.finalizedAt.map fun at' =>
      (finalAccountState t.kind, none, at', if t.kind = .accountRemove then some at' else none)
  | .aborted => t.resolvedAt.map fun at' =>
      (abortedAccountState t.kind, none, at', if t.kind = .accountCreate then some at' else none)
  | .recoveryRequired => t.resolvedAt.map fun at' => (.blocked, some t.transitionId, at', none)

/-- `validate_current_account_for_transition`. -/
def CurrentAccount (db : Db) (a : Account) (t : Transition) (value : AccountMutationManifest)
    (receiptId : ReceiptId) : Prop :=
  ∃ current ∈ currentSnapshot t value, ∃ expected ∈ currentReceipt db t current receiptId,
    (a.accountGeneration = current.generation ∧ a.credentialId = current.credentialId ∧
      a.bindingSha256 = current.bindingSha256 ∧ a.authorizedReceiptId = expected) ∧
    currentColumns t = some (a.state, a.activeTransitionId, a.updatedAt, a.removedAt)

/-- `validate_account_mutation_parent`. -/
def MutationParent (db : Db) (t : Transition) (value : AccountMutationManifest) : Prop :=
  ∃ before ∈ value.before, ∃ v ∈ loadAccountVersion db t.accountId before.generation,
    v.storeId = t.storeId ∧ v.credentialId = before.credentialId ∧
    v.bindingSha256 = before.bindingSha256 ∧
    (∃ parent ∈ loadAccountTransition db v.committedTransitionId,
      parent.state = .finalized ∧ parent.accountId = t.accountId) ∧
    (db.storeVersions.filter fun w => w.storeId = t.storeId ∧
      w.configGeneration = t.expectedGeneration ∧
      w.configSha256 = t.beforeConfigSha256).length = 1

/-- The claim of a cleanup, if it has one. -/
def CleanupClaim (db : Db) (t : Transition) (c : Cleanup) : Prop :=
  ∀ id ∈ c.claimGrantId, ∃ g ∈ loadGrantUse db id, g.action = .credentialCleanup ∧
    g.targetKind = .cleanup ∧ g.targetId = c.cleanupId.bytes ∧
    (∃ at' ∈ t.finalizedAt, at' ≤ g.usedAt) ∧ ∀ d ∈ c.deletedAt, g.usedAt ≤ d

/-- The row a cleanup descriptor of a transition reserved. -/
@[mk_iff]
structure CleanupRow (db : Db) (t : Transition) (before : AccountSnapshot) (d : CleanupDescriptor)
    (c : Cleanup) : Prop where
  transition : c.transitionId = some t.transitionId
  provisional : d.expectedState = .provisional
  kind : c.locatorKind = d.locatorKind
  sha256 : c.locatorSha256 = d.locatorSha256
  material : c.locatorMaterial =
    expectedDeleteOnlyLocator env db.metaRow.realmId t.storeId before d.locatorKind
  digest : env.sha256 c.locatorMaterial = d.locatorSha256
  lifecycle : (t.state = .finalized ↔ c.state ≠ .provisional) ∧ cleanupShape c
  created_at : c.createdAt = t.preparedAt
  claim : CleanupClaim db t c
  ready_events : (eventsOf db 7 d.cleanupId.bytes 15).length =
    if t.state = .finalized then 1 else 0
  claimed_events : (eventsOf db 7 d.cleanupId.bytes 16).length =
    if c.claimGrantId.isSome then 1 else 0
  deleted_events : (eventsOf db 7 d.cleanupId.bytes 17).length =
    if c.deletedAt.isSome then 1 else 0

instance (db : Db) (t : Transition) (c : Cleanup) : Decidable (CleanupClaim db t c) := by
  unfold CleanupClaim
  infer_instance

instance (db : Db) (t : Transition) (b : AccountSnapshot) (d : CleanupDescriptor) (c : Cleanup) :
    Decidable (CleanupRow env db t b d c) := decidable_of_iff' _ (cleanupRow_iff env db t b d c)

/-- `validate_transition_cleanup`. -/
def TransitionCleanups (db : Db) (t : Transition) (value : AccountMutationManifest) : Prop :=
  (db.cleanups.filter fun c => c.transitionId = some t.transitionId).length =
      value.cleanup.length ∧
    ∀ d ∈ value.cleanup, ∃ before ∈ value.before, ∃ c ∈ loadCredentialCleanup db d.cleanupId,
      CleanupRow env db t before d c

/-- The row of a transition on its own. -/
@[mk_iff]
structure TransitionRow (t : Transition) : Prop where
  prepared_utc : Representable t.preparedAt
  increment : t.expectedGeneration.exactIncrement t.nextGeneration
  config_changes : t.beforeConfigSha256 ≠ t.afterConfigSha256
  sha256 : t.transitionSha256 = transitionDigestFromRow env t
  timestamps : timestampShape t

/-- The row of a transition against its grant and its manifest. -/
@[mk_iff]
structure TransitionSigned (t : Transition) (o : Origin) (value : AccountMutationManifest)
    (snapshot : AccountSnapshot) : Prop where
  action : o.grant.action = t.kind.action
  target_kind : o.grant.targetKind = t.kind.action.targetKind
  target_id : expectedTargetId t.kind t.accountId value snapshot = some o.grant.targetId
  transition_id : value.transitionId = t.transitionId
  store_id : value.configCas.storeId = t.storeId
  account_id : snapshot.accountId = t.accountId
  expected_generation : value.configCas.generation = t.expectedGeneration
  before_config : value.configCas.exactContentSha256 = t.beforeConfigSha256
  next_generation : value.nextConfigGeneration = t.nextGeneration
  after_config : value.afterConfigSha256 = t.afterConfigSha256

/-- The credential row of a transition. -/
def TransitionCredential (db : Db) (t : Transition) (snapshot : AccountSnapshot) : Prop :=
  t.kind ≠ .accountRemove → ∃ c ∈ loadCredential db snapshot.credentialId,
    c.accountId = t.accountId ∧ c.storeId = t.storeId ∧
    (t.kind = .accountCreate ∨ t.kind = .accountUpdate →
      c.createdTransitionId = t.transitionId ∧ c.createdAt = t.preparedAt)

/-- The version rows of a transition. -/
@[mk_iff]
structure TransitionVersions (db : Db) (t : Transition) (snapshot : AccountSnapshot) : Prop where
  store_versions : (db.storeVersions.filter fun v =>
      v.committedTransitionId = some t.transitionId).length =
    if t.configCommittedAt.isSome then 1 else 0
  account_versions : (db.accountVersions.filter fun v =>
      v.committedTransitionId = t.transitionId).length =
    if t.configCommittedAt.isSome ∧ t.kind ≠ .accountRemove then 1 else 0
  account_version : t.kind ≠ .accountRemove → ∀ at' ∈ t.configCommittedAt,
    ∃ v ∈ loadAccountVersionByTransition db t.transitionId,
      v.accountId = t.accountId ∧ v.storeId = t.storeId ∧
      v.accountGeneration = snapshot.generation ∧ v.credentialId = snapshot.credentialId ∧
      v.bindingSha256 = snapshot.bindingSha256 ∧ v.createdAt = at'

/-- The account row of a transition. -/
@[mk_iff]
structure TransitionAccount (db : Db) (t : Transition) (o : Origin)
    (value : AccountMutationManifest) (snapshot : AccountSnapshot) (a : Account) : Prop where
  display_id : displayIdDigest env snapshot.displayId = a.displayIdSha256
  settled : successors db t ≠ [] → t.state = .finalized ∨ t.state = .aborted
  created_at : t.kind = .accountCreate → a.createdAt = t.preparedAt
  current : successors db t = [] → CurrentAccount db a t value o.receipt.receiptId

section Decidable

instance (db : Db) (a : Account) (t : Transition) (v : AccountMutationManifest) (i : ReceiptId) :
    Decidable (CurrentAccount db a t v i) := by
  unfold CurrentAccount
  infer_instance

instance (db : Db) (t : Transition) (v : AccountMutationManifest) :
    Decidable (MutationParent db t v) := by
  unfold MutationParent
  infer_instance

instance (db : Db) (t : Transition) (v : AccountMutationManifest) :
    Decidable (TransitionCleanups env db t v) := by
  unfold TransitionCleanups
  infer_instance

instance (t : Transition) : Decidable (TransitionRow env t) :=
  decidable_of_iff' _ (transitionRow_iff env t)

instance (t : Transition) (o : Origin) (v : AccountMutationManifest) (s : AccountSnapshot) :
    Decidable (TransitionSigned t o v s) := decidable_of_iff' _ (transitionSigned_iff t o v s)

instance (db : Db) (t : Transition) (s : AccountSnapshot) :
    Decidable (TransitionCredential db t s) := by
  unfold TransitionCredential
  infer_instance

instance (db : Db) (t : Transition) (s : AccountSnapshot) :
    Decidable (TransitionVersions db t s) := decidable_of_iff' _ (transitionVersions_iff db t s)

instance (db : Db) (t : Transition) (o : Origin) (v : AccountMutationManifest)
    (s : AccountSnapshot) (a : Account) : Decidable (TransitionAccount env db t o v s a) :=
  decidable_of_iff' _ (transitionAccount_iff env db t o v s a)

end Decidable

/-- What holds of a transition, its origin, its mutation, its snapshot and its account. -/
@[mk_iff]
structure TransitionChecks (db : Db) (t : Transition) (o : Origin)
    (value : AccountMutationManifest) (snapshot : AccountSnapshot) (a : Account) : Prop where
  row : TransitionRow env t
  signed : TransitionSigned t o value snapshot
  account : TransitionAccount env db t o value snapshot a
  credential : TransitionCredential db t snapshot
  versions : TransitionVersions db t snapshot
  parent : t.kind ≠ .accountCreate → MutationParent db t value
  cleanups : TransitionCleanups env db t value
  projection : (transitionProjection env codec db t).isOk
  events : TransitionEvents env db t o.receipt.receiptId

instance (db : Db) (t : Transition) (o : Origin) (v : AccountMutationManifest)
    (s : AccountSnapshot) (a : Account) : Decidable (TransitionChecks env codec db t o v s a) :=
  decidable_of_iff' _ (transitionChecks_iff env codec db t o v s a)

/-- `validate_stored_account_transition`. -/
def TransitionOk (db : Db) (t : Transition) : Prop :=
  ∃ o ∈ loadOrigin env codec db t.grantId, ∃ value ∈ mutationOf t.kind o.manifest.payload,
    ∃ snapshot ∈ accountSnapshotOf t.kind value, ∃ a ∈ loadRegisteredAccount db t.accountId,
      TransitionChecks env codec db t o value snapshot a

instance (db : Db) (t : Transition) : Decidable (TransitionOk env codec db t) := by
  unfold TransitionOk
  infer_instance

end Kirje.Authority
