import Mathlib.Data.List.Sort
import Kirje.Authority.Operations

/-
  File:      Kirje/Authority/Transitions.lean
  Subject:   The calls that prepare an account transition and record what became of
             it (crates/kirje-store/src/authority.rs).

  A transition blocks its store from the prepare on, moves the config pair when the
  commit is observed, and frees the store when it is finalized or aborted.  An
  observation that fits neither pair stops the store.
-/

namespace Kirje.Authority

open Base

variable (env : Platform) (codec : ManifestCodec)

/-! ## 1. Prepare -/

/-- `account_mutation_manifest`. -/
def accountMutationManifest (c : Challenge) (kind : TransitionKind) :
    Result AccountMutationManifest := do
  let m ← orRefuse (manifestOf env codec c) contextStaleError
  orRefuse (mutationOf kind m.payload) contextStaleError

/-- `account_manifest_location_sha256`. -/
def accountManifestLocationSha256 (c : Challenge) : Result Digest := do
  let m ← orRefuse (manifestOf env codec c) contextStaleError
  let value ← orRefuse (anyMutationOf m.payload) contextStaleError
  pure value.configCas.locationSha256

/-- One reservation and the descriptor it answers. -/
def reservationMatches (r : Reservation) (d : CleanupDescriptor) : Prop :=
  d.expectedState = .provisional ∧ r.cleanupId = d.cleanupId ∧ r.locatorKind = d.locatorKind ∧
    r.locatorSha256 = d.locatorSha256

instance (r : Reservation) (d : CleanupDescriptor) : Decidable (reservationMatches r d) :=
  inferInstanceAs (Decidable (_ ∧ _))

/-- `cleanup_reservations_match`. -/
def cleanupReservationsMatch (rs : List Reservation) (ds : List CleanupDescriptor) : Prop :=
  List.Forall₂ reservationMatches rs ds

instance (rs : List Reservation) (ds : List CleanupDescriptor) :
    Decidable (cleanupReservationsMatch rs ds) := by
  unfold cleanupReservationsMatch
  infer_instance

/-- What a prepare request and its grant repeat of the challenge. -/
@[mk_iff]
structure PrepareGrant (r : PrepareRequest) (c : Challenge) (receipt : Receipt)
    (target : Bytes) : Prop where
  grant_id : r.grantUse.grantId = c.grantId
  receipt_id : r.grantUse.receiptId = receipt.receiptId
  challenge_id : receipt.challengeId = c.challengeId
  receipt_grant : receipt.grantId = c.grantId
  action : r.grantUse.action = r.kind.action ∧ r.grantUse.action = c.action
  target_kind : r.grantUse.targetKind = r.kind.action.targetKind ∧
    r.grantUse.targetKind = c.targetKind
  target_id : r.grantUse.targetBytes = target ∧ c.targetId = target
  manifest : r.grantUse.manifestSha256 = c.manifestSha256

/-- What a prepare request repeats of the manifest. -/
@[mk_iff]
structure PrepareValue (r : PrepareRequest) (value : AccountMutationManifest)
    (snapshot : AccountSnapshot) : Prop where
  transition_id : r.transitionId = value.transitionId
  store_id : r.storeId = value.configCas.storeId
  account_id : r.accountId = snapshot.accountId
  before_config : r.beforeConfigSha256 = value.configCas.exactContentSha256
  after_config : r.afterConfigSha256 = value.afterConfigSha256
  expected_generation : r.expectedGeneration = value.configCas.generation
  next_generation : r.nextGeneration = value.nextConfigGeneration
  display_id : r.displayIdSha256 = displayIdDigest env snapshot.displayId
  account_generation : r.accountGeneration = snapshot.generation
  credential_id : r.credentialId = snapshot.credentialId
  binding : r.bindingSha256 = snapshot.bindingSha256
  cleanup : cleanupReservationsMatch r.cleanupReservations value.cleanup

instance (r : PrepareRequest) (c : Challenge) (x : Receipt) (t : Bytes) :
    Decidable (PrepareGrant r c x t) := decidable_of_iff' _ (prepareGrant_iff r c x t)

instance (r : PrepareRequest) (v : AccountMutationManifest) (s : AccountSnapshot) :
    Decidable (PrepareValue env r v s) := decidable_of_iff' _ (prepareValue_iff env r v s)

/-- `validate_account_prepare_identity`. -/
def validateAccountPrepareIdentity (r : PrepareRequest) (c : Challenge) (receipt : Receipt) :
    Result Unit := do
  let value ← accountMutationManifest env codec c r.kind
  let snapshot ← orRefuse (accountSnapshotOf r.kind value) contextStaleError
  let target ← orRefuse (expectedTargetId r.kind snapshot.accountId value snapshot)
    contextStaleError
  ensure (PrepareGrant r c receipt target) contextStaleError
  ensure (PrepareValue env r value snapshot) contextStaleError

/-- One reservation against the locator it must hold. -/
def reservationOrigin (realmId : RealmId) (storeId : StoreId) (before : AccountSnapshot)
    (r : Reservation) : Result Unit :=
  ensure (r.locatorMaterial = expectedDeleteOnlyLocator env realmId storeId before r.locatorKind ∧
      r.locatorSha256 =
        env.sha256 (expectedDeleteOnlyLocator env realmId storeId before r.locatorKind))
    contextStaleError

/-- The reservations of a mutation against the snapshot they clean up. -/
def reservationOrigins (s : Snapshot) (r : PrepareRequest) (c : Challenge) : Result Unit := do
  let value ← accountMutationManifest env codec c r.kind
  let before ← orRefuse value.before contextStaleError
  checkAll (reservationOrigin env s.realmId value.configCas.storeId before) r.cleanupReservations

/-- `validate_cleanup_reservation_origins`. -/
def validateCleanupReservationOrigins (s : Snapshot) (r : PrepareRequest) (c : Challenge) :
    Result Unit :=
  checkIf (r.cleanupReservations ≠ []) (reservationOrigins env codec s r c)

/-- The account rules of a creation. -/
def createOccupancy (db : Db) (r : PrepareRequest) : Result Unit := do
  ensure ((loadRegisteredAccount db r.accountId).isNone ∧
      (loadCredential db r.credentialId).isNone ∧ (loadAccountTransition db r.transitionId).isNone)
    accountIdentityConflictError
  ensure ((db.accounts.filter fun a => a.storeId = r.storeId ∧
      a.displayIdSha256 = r.displayIdSha256 ∧ a.state ≠ .removed) = [])
    accountAlreadyExistsError

/-- The account rules of any other mutation. -/
def mutationOccupancy (db : Db) (r : PrepareRequest) (c : Challenge) : Result Unit := do
  let value ← accountMutationManifest env codec c r.kind
  let before ← orRefuse value.before contextStaleError
  let a ← orRefuse (loadRegisteredAccount db r.accountId) contextStaleError
  ensure (a.state = .active ∧ a.storeId = r.storeId ∧
      a.displayIdSha256 = displayIdDigest env before.displayId ∧
      a.accountGeneration = before.generation ∧ a.credentialId = before.credentialId ∧
      a.bindingSha256 = before.bindingSha256 ∧ a.activeTransitionId = none ∧ a.removedAt = none)
    contextStaleError
  ensure ((r.kind = .accountUpdate → (loadCredential db r.credentialId).isNone) ∧
      (loadAccountTransition db r.transitionId).isNone)
    accountIdentityConflictError
  ensure (∀ x ∈ r.cleanupReservations, (db.cleanups.filter fun c =>
      c.cleanupId = x.cleanupId ∨ c.locatorSha256 = x.locatorSha256) = [])
    accountIdentityConflictError

/-- `validate_prepare_occupancy`. -/
def validatePrepareOccupancy (db : Db) (r : PrepareRequest) (c : Challenge) : Result Unit := do
  let store ← orRefuse (loadRegisteredStoreById db r.storeId) contextStaleError
  ensure (store.state ≠ .recoveryRequired) recoveryError
  ensure (store.state = .active) accountUpdateConflictError
  ensure (store.configGeneration = r.expectedGeneration ∧
    store.configSha256 = r.beforeConfigSha256) contextStaleError
  ensure (openTransitions db r.storeId = []) accountUpdateConflictError
  if r.kind = .accountCreate then createOccupancy db r else mutationOccupancy env codec db r c

/-- One reservation against the cleanup it left. -/
def reservationStored (db : Db) (id : TransitionId) (x : Reservation) : Prop :=
  ∃ c ∈ loadCredentialCleanup db x.cleanupId, c.transitionId = some id ∧
    c.locatorKind = x.locatorKind ∧ c.locatorMaterial = x.locatorMaterial ∧
    c.locatorSha256 = x.locatorSha256

instance (db : Db) (i : TransitionId) (x : Reservation) : Decidable (reservationStored db i x) := by
  unfold reservationStored
  infer_instance

/-- `validate_prepare_retry_identity`. -/
def validatePrepareRetryIdentity (db : Db) (r : PrepareRequest) (t : Transition) :
    Result Unit := do
  let g ← orRefuse (loadGrantUse db t.grantId) recoveryError
  let receipt ← orRefuse (loadReceiptById db g.receiptId) recoveryError
  let c ← orRefuse (loadChallenge db receipt.challengeId)
    (malformed "authorization challenge is unknown")
  ensure (validateAccountPrepareIdentity env codec r c receipt).isOk grantAlreadyUsedError
  ensure (t.transitionId = r.transitionId ∧ t.grantId = r.grantUse.grantId ∧
      t.storeId = r.storeId ∧ t.accountId = r.accountId ∧ t.kind = r.kind ∧
      t.beforeConfigSha256 = r.beforeConfigSha256 ∧ t.afterConfigSha256 = r.afterConfigSha256 ∧
      t.expectedGeneration = r.expectedGeneration ∧ t.nextGeneration = r.nextGeneration ∧
      t.transitionSha256 = accountTransitionDigest env r t.preparedAt)
    grantAlreadyUsedError
  ensure ((db.cleanups.filter fun x => x.transitionId = some t.transitionId).length =
    r.cleanupReservations.length) grantAlreadyUsedError
  ensure (∀ x ∈ r.cleanupReservations, reservationStored db t.transitionId x) grantAlreadyUsedError

/-- `prepare_account_transition` with a grant that was used. -/
def recoverPrepare (r : PrepareRequest) (g : GrantUse) (effective : Int) (db : Db) :
    Result (Commit TransitionProjection) := do
  ensure (g.matchesRequest r.grantUse) grantAlreadyUsedError
  let t ← orRefuse (loadAccountTransitionByGrant db g.grantId) recoveryError
  validatePrepareRetryIdentity env codec db r t
  let projection ← transitionProjection env codec db t
  commitClock db effective (.ok projection)

/-- The row of a prepared transition. -/
def transitionRow (r : PrepareRequest) (at' : Int) : Transition where
  transitionId := r.transitionId
  grantId := r.grantUse.grantId
  storeId := r.storeId
  accountId := r.accountId
  kind := r.kind
  beforeConfigSha256 := r.beforeConfigSha256
  afterConfigSha256 := r.afterConfigSha256
  expectedGeneration := r.expectedGeneration
  nextGeneration := r.nextGeneration
  transitionSha256 := accountTransitionDigest env r at'
  state := .prepared
  preparedAt := at'
  configCommittedAt := none
  finalizedAt := none
  resolvedAt := none

/-- The row of a proposed account. -/
def accountRow (r : PrepareRequest) (receiptId : ReceiptId) (at' : Int) : Account where
  accountId := r.accountId
  storeId := r.storeId
  displayIdSha256 := r.displayIdSha256
  accountGeneration := r.accountGeneration
  credentialId := r.credentialId
  bindingSha256 := r.bindingSha256
  state := .proposed
  authorizedReceiptId := receiptId
  activeTransitionId := some r.transitionId
  createdAt := at'
  updatedAt := at'
  removedAt := none

/-- What a prepare writes to the row of an existing account. -/
def blockAccount (r : PrepareRequest) (receiptId : ReceiptId) (at' : Int) (a : Account) : Account :=
  { a with
    accountGeneration := r.accountGeneration
    credentialId := r.credentialId
    bindingSha256 := r.bindingSha256
    state := .blocked
    authorizedReceiptId := receiptId
    activeTransitionId := some r.transitionId
    updatedAt := at' }

/-- The account row a mutation of an existing account changes. -/
def prepareAccountKey (r : PrepareRequest) (before : AccountSnapshot) (a : Account) : Prop :=
  a.accountId = r.accountId ∧ a.storeId = r.storeId ∧ a.displayIdSha256 = r.displayIdSha256 ∧
    a.accountGeneration = before.generation ∧ a.credentialId = before.credentialId ∧
    a.bindingSha256 = before.bindingSha256 ∧ a.state = .active ∧ a.activeTransitionId = none ∧
    a.removedAt = none

instance (r : PrepareRequest) (b : AccountSnapshot) (a : Account) :
    Decidable (prepareAccountKey r b a) := by
  unfold prepareAccountKey
  infer_instance

/-- The block of an existing account. -/
def blockedAccounts (db : Db) (r : PrepareRequest) (c : Challenge) (receiptId : ReceiptId)
    (at' : Int) : Result (List Account) := do
  let value ← accountMutationManifest env codec c r.kind
  let before ← orRefuse value.before contextStaleError
  updateOne db.accounts (fun a => prepareAccountKey r before a) (blockAccount r receiptId at')
    storeWriteError

/-- The accounts after a prepare. -/
def preparedAccounts (db : Db) (r : PrepareRequest) (c : Challenge) (receiptId : ReceiptId)
    (at' : Int) : Result (List Account) :=
  if r.kind = .accountCreate then pure (db.accounts ++ [accountRow r receiptId at'])
  else blockedAccounts env codec db r c receiptId at'

/-- The credential a creation or an update registers. -/
def preparedCredentials (r : PrepareRequest) (at' : Int) : List Credential :=
  if r.kind = .accountCreate ∨ r.kind = .accountUpdate then
    [⟨r.credentialId, r.accountId, r.storeId, r.transitionId, at'⟩]
  else []

/-- The row of a reserved cleanup. -/
def cleanupRow (id : TransitionId) (at' : Int) (x : Reservation) : Cleanup where
  cleanupId := x.cleanupId
  transitionId := some id
  locatorKind := x.locatorKind
  locatorMaterial := x.locatorMaterial
  locatorSha256 := x.locatorSha256
  state := .provisional
  claimGrantId := none
  createdAt := at'
  deletedAt := none

/-- The block of the store of a prepare. -/
def blockStore (db : Db) (r : PrepareRequest) (location : Digest) (at' : Int) : Result Db := do
  let rows ← updateOne db.stores
    (fun x => x.storeId = r.storeId ∧ x.state = .active ∧
      x.configGeneration = r.expectedGeneration ∧ x.configSha256 = r.beforeConfigSha256 ∧
      x.locationSha256 = location)
    (fun x => { x with state := .blocked, updatedAt := at' }) accountUpdateConflictError
  written { db with stores := rows }

/-- The rows of a prepare between the store and the events, with the foreign keys deferred. -/
def insertPrepared (db : Db) (r : PrepareRequest) (c : Challenge) (receiptId : ReceiptId)
    (at' : Int) : Result Db := do
  let accounts ← preparedAccounts env codec db r c receiptId at'
  let db ← writtenDeferred { db with accounts := accounts }
  let db ← writtenDeferred { db with transitions := db.transitions ++ [transitionRow env r at'] }
  let db ← writtenDeferred { db with credentials := db.credentials ++ preparedCredentials r at' }
  let db ← writtenDeferred { db with
    cleanups := db.cleanups ++ r.cleanupReservations.map (cleanupRow r.transitionId at') }
  ensure (ForeignKeysOk db) recoveryError
  pure db

/-- The rows of a prepare. -/
def insertTransition (db : Db) (r : PrepareRequest) (c : Challenge) (receiptId : ReceiptId)
    (at' : Int) : Result Db := do
  let db ← insertGrantUse env db (grantUseRow env r.grantUse at') receiptId
  let location ← accountManifestLocationSha256 env codec c
  let db ← blockStore db r location at'
  let db ← insertPrepared env codec db r c receiptId at'
  let db ← insertTypedEvent env db (prepareStoreEvent (transitionRow env r at') receiptId)
  let db ← insertTypedEvent env db (preparedEvent (transitionRow env r at') receiptId)
  observeClockPair db at'

/-- What a fresh prepare replies. -/
def preparedProjection (r : PrepareRequest) (at' : Int) : Result TransitionProjection := do
  let preparedAt ← utcMillis at'
  pure ⟨r.transitionId, r.accountId, .prepared, openAccountState r.kind, .blocked,
    r.expectedGeneration, r.accountGeneration, preparedAt⟩

/-- The prepare effect. -/
def prepareTransition (r : PrepareRequest) (c : Challenge) (receipt : Receipt) (effective : Int)
    (db : Db) : Result (Commit TransitionProjection) := do
  validatePrepareOccupancy env codec db r c
  ensure ((db.transitions.filter fun t =>
    t.transitionSha256 = accountTransitionDigest env r effective) = []) accountIdentityConflictError
  let db ← insertTransition env codec db r c receipt.receiptId effective
  pure ⟨db, preparedProjection r effective⟩

/-- `account_prepare_intent`. -/
def accountPrepareIntent (r : PrepareRequest) : Digest :=
  prepareIntent env r.grantUse.grantId r.grantUse.receiptId r.grantUse.action r.grantUse.targetKind
    r.grantUse.targetBytes r.grantUse.manifestSha256 r.transitionId r.storeId r.accountId r.kind
    r.beforeConfigSha256 r.afterConfigSha256 r.expectedGeneration r.nextGeneration
    r.displayIdSha256 r.accountGeneration r.credentialId r.bindingSha256

/-- `prepare_account_transition` with a grant that was not used. -/
def usePrepare (s : Snapshot) (r : PrepareRequest) (effective : Int) (db : Db) :
    Result (Commit TransitionProjection) := do
  let receipt ← orRefuse (loadReceiptById db r.grantUse.receiptId) contextStaleError
  let c ← orRefuse (loadChallenge db receipt.challengeId) contextStaleError
  validateAccountPrepareIdentity env codec r c receipt
  validateCleanupReservationOrigins env codec s r c
  match c.state with
  | .expired => do
      validateExactEnrollmentExpiry env db c receipt (accountPrepareIntent env r)
      commitClock db effective (.error expiredError)
  | .authorized =>
      if receipt.expiresAt < effective then
        commitReceiptExpiry env db c receipt (accountPrepareIntent env r) effective
      else prepareTransition env codec r c receipt effective db
  | .pending | .invalidated => .error contextStaleError

/-- `prepare_account_transition`. -/
def prepareAccountTransition (s : Snapshot) (r : PrepareRequest) (db : Db) :
    Result (Commit TransitionProjection) := do
  validateReadyTransaction env codec s db
  let effective ← effectiveTime db r.observedAt
  match loadGrantUse db r.grantUse.grantId with
  | some g => recoverPrepare env codec r g effective db
  | none => usePrepare env codec s r effective db

/-! ## 2. Observations -/

/-- `AccountObservationOperation`: the four calls. -/
inductive ObservationOperation where
  | configCommitted | finalize | abort | recovery
  deriving DecidableEq, Repr

inductive ObservedConfigPair where
  | before | after | third
  deriving DecidableEq, Repr

/-- `classify_observed_pair`. -/
def classifyObservedPair (t : Transition) (r : ObservationRequest) : ObservedConfigPair :=
  if r.actualConfigGeneration = t.expectedGeneration ∧
      r.actualConfigSha256 = t.beforeConfigSha256 then .before
  else if r.actualConfigGeneration = t.nextGeneration ∧
      r.actualConfigSha256 = t.afterConfigSha256 then .after
  else .third

/-- The clock is committed and the transition shown as it is. -/
def observeUnchanged (t : Transition) (effective : Int) (db : Db) :
    Result (Commit TransitionProjection) := do
  let projection ← transitionProjection env codec db t
  commitClock db effective (.ok projection)

/-- The account row a transition holds in a state. -/
def heldAccount (t : Transition) (state : AccountState) (a : Account) : Prop :=
  a.accountId = t.accountId ∧ a.state = state ∧ a.activeTransitionId = some t.transitionId

instance (t : Transition) (s : AccountState) (a : Account) : Decidable (heldAccount t s a) :=
  inferInstanceAs (Decidable (_ ∧ _))

/-- The row of a transition in a state. -/
def moveTransition (db : Db) (t : Transition) (prior : TransitionState)
    (f : Transition → Transition) : Result Db := do
  let rows ← updateOne db.transitions (fun x => x.transitionId = t.transitionId ∧ x.state = prior)
    f recoveryError
  written { db with transitions := rows }

/-- The blocked store of a transition, with a pair. -/
def moveStore (db : Db) (t : Transition) (generation : NonZeroU64) (configSha256 : Digest)
    (f : Store → Store) : Result Db := do
  let rows ← updateOne db.stores
    (fun x => x.storeId = t.storeId ∧ x.state = .blocked ∧ x.configGeneration = generation ∧
      x.configSha256 = configSha256) f recoveryError
  written { db with stores := rows }

/-- `insert_transition_phase_event`. -/
def insertTransitionPhaseEvent (db : Db) (t : Transition) (eventCode source : Nat)
    (prior next : TransitionState) (context : Digest) (at' : Int) : Result Db := do
  let receiptId ← orRefuse (transitionReceiptId db t) recoveryError
  insertTypedEvent env db
    (transitionEvent t eventCode source prior.eventState next context receiptId at')

/-- The version of a store that a transition commits. -/
def committedStoreVersion (t : Transition) (store : Store) (at' : Int) : StoreVersion where
  storeId := t.storeId
  locationSha256 := store.locationSha256
  configGeneration := t.nextGeneration
  configSha256 := t.afterConfigSha256
  enrolledReceiptId := none
  committedTransitionId := some t.transitionId
  createdAt := at'

/-- The version of an account that a transition commits, unless it removes the account. -/
def committedAccountVersions (t : Transition) (a : Account) (at' : Int) : List AccountVersion :=
  if t.kind = .accountRemove then []
  else [⟨a.accountId, a.storeId, a.accountGeneration, a.credentialId, a.bindingSha256,
    t.transitionId, at'⟩]

/-- `insert_transition_versions`. -/
def insertTransitionVersions (db : Db) (t : Transition) (a : Account) (at' : Int) :
    Result Db := do
  let store ← orRefuse (loadRegisteredStoreById db t.storeId) recoveryError
  let db ← written { db with
    storeVersions := db.storeVersions ++ [committedStoreVersion t store at'] }
  written { db with
    accountVersions := db.accountVersions ++ committedAccountVersions t a at' }

/-- The rows of a config commit. -/
def insertConfigCommit (db : Db) (t : Transition) (at' : Int) : Result Db := do
  let a ← orRefuse (loadRegisteredAccount db t.accountId) recoveryError
  let db ← insertTransitionVersions db t a at'
  let db ← moveTransition db t .prepared fun x =>
    { x with state := .configCommitted, configCommittedAt := some at' }
  let db ← moveStore db t t.expectedGeneration t.beforeConfigSha256 fun x =>
    { x with
      configGeneration := t.nextGeneration
      configSha256 := t.afterConfigSha256
      updatedAt := at' }
  let db ← insertTransitionPhaseEvent env db t 11 4 .prepared .configCommitted t.transitionSha256
    at'
  observeClockPair db at'

/-- The config-commit effect. -/
def commitConfig (t : Transition) (at' : Int) (db : Db) :
    Result (Commit TransitionProjection) := do
  let db ← insertConfigCommit env db t at'
  let projection ← projectionForTransitionState env codec db t .configCommitted
    (openAccountState t.kind) .blocked t.nextGeneration
  pure ⟨db, .ok projection⟩

/-- `update_finalize_rows`. -/
def updateFinalizeRows (db : Db) (t : Transition) (at' : Int) : Result Db := do
  let accounts ← updateOne db.accounts (fun a => heldAccount t (openAccountState t.kind) a)
    (fun a => { a with
      state := finalAccountState t.kind
      activeTransitionId := none
      updatedAt := at'
      removedAt := if t.kind = .accountRemove then some at' else none }) recoveryError
  let db ← written { db with accounts := accounts }
  let db ← moveTransition db t .configCommitted fun x =>
    { x with state := .finalized, finalizedAt := some at' }
  let db ← moveStore db t t.nextGeneration t.afterConfigSha256 fun x =>
    { x with state := .active, updatedAt := at' }
  written { db with
    cleanups := update
      (fun c => decide (c.transitionId = some t.transitionId ∧ c.state = .provisional))
      (fun c => { c with state := .ready }) db.cleanups }

/-- The cleanups a transition made ready, in the order of their identifiers. -/
def readyCleanups (db : Db) (t : Transition) : List CleanupId :=
  ((db.cleanups.filter fun c => c.transitionId = some t.transitionId ∧ c.state = .ready).map
    Cleanup.cleanupId).insertionSort fun a b => a.bytes ≤ b.bytes

/-- `insert_cleanup_ready_events`. -/
def insertCleanupReadyEvents (db : Db) (t : Transition) (receiptId : ReceiptId) (at' : Int) :
    Result Db :=
  (readyCleanups db t).foldlM
    (fun db id => insertTypedEvent env db (cleanupReadyEvent id t receiptId at')) db

/-- The rows of a finalized transition. -/
def insertFinalize (db : Db) (t : Transition) (at' : Int) : Result Db := do
  let db ← updateFinalizeRows db t at'
  let receiptId ← orRefuse (transitionReceiptId db t) recoveryError
  let db ← insertTransitionPhaseEvent env db t 12 4 .configCommitted .finalized t.transitionSha256
    at'
  let db ← insertTypedEvent env db
    (storeEvent t.storeId 4 t.transitionId 0x0402 0x0401 t.transitionSha256 receiptId at')
  let db ← insertCleanupReadyEvents env db t receiptId at'
  observeClockPair db at'

/-- The finalize effect. -/
def finalizeTransition (t : Transition) (at' : Int) (db : Db) :
    Result (Commit TransitionProjection) := do
  let db ← insertFinalize env db t at'
  let projection ← projectionForTransitionState env codec db t .finalized
    (finalAccountState t.kind) .active t.nextGeneration
  pure ⟨db, .ok projection⟩

/-- The account an aborted creation leaves. -/
def abortCreated (at' : Int) (a : Account) : Account :=
  { a with
    state := .removed
    activeTransitionId := none
    updatedAt := at'
    removedAt := some at' }

/-- The account any other aborted transition restores. -/
def abortRestored (generation : NonZeroU64) (v : AccountVersion) (receiptId : ReceiptId)
    (at' : Int) (a : Account) : Account :=
  { a with
    accountGeneration := generation
    credentialId := v.credentialId
    bindingSha256 := v.bindingSha256
    state := .active
    authorizedReceiptId := receiptId
    activeTransitionId := none
    updatedAt := at'
    removedAt := none }

/-- The accounts after any other aborted transition. -/
def restoredAccounts (db : Db) (t : Transition) (at' : Int) : Result (List Account) := do
  let generation ← projectionAccountGeneration env codec db t .aborted
  let v ← orRefuse (loadAccountVersion db t.accountId generation) recoveryError
  let previous ← orRefuse (loadAccountTransition db v.committedTransitionId) recoveryError
  let receiptId ← orRefuse (transitionReceiptId db previous) recoveryError
  updateOne db.accounts (fun a => heldAccount t .blocked a)
    (abortRestored generation v receiptId at') recoveryError

/-- The accounts after an aborted transition. -/
def abortedAccounts (db : Db) (t : Transition) (at' : Int) : Result (List Account) :=
  if t.kind = .accountCreate then
    updateOne db.accounts (fun a => heldAccount t .proposed a) (abortCreated at') recoveryError
  else restoredAccounts env codec db t at'

/-- `update_abort_rows`. -/
def updateAbortRows (db : Db) (t : Transition) (at' : Int) : Result Db := do
  let accounts ← abortedAccounts env codec db t at'
  let db ← written { db with accounts := accounts }
  let db ← moveTransition db t .prepared fun x =>
    { x with state := .aborted, resolvedAt := some at' }
  moveStore db t t.expectedGeneration t.beforeConfigSha256 fun x =>
    { x with state := .active, updatedAt := at' }

/-- The rows of an aborted transition. -/
def insertAbort (db : Db) (t : Transition) (at' : Int) : Result Db := do
  let db ← updateAbortRows env codec db t at'
  let receiptId ← orRefuse (transitionReceiptId db t) recoveryError
  let db ← insertTransitionPhaseEvent env db t 13 6 .prepared .aborted t.transitionSha256 at'
  let db ← insertTypedEvent env db
    (storeEvent t.storeId 6 t.transitionId 0x0402 0x0401 t.transitionSha256 receiptId at')
  observeClockPair db at'

/-- The abort effect. -/
def abortTransition (t : Transition) (at' : Int) (db : Db) :
    Result (Commit TransitionProjection) := do
  let db ← insertAbort env codec db t at'
  let projection ← projectionForTransitionState env codec db t .aborted
    (abortedAccountState t.kind) .active t.expectedGeneration
  pure ⟨db, .ok projection⟩

/-- The rows of a stopped transition. -/
def insertRecovery (db : Db) (t : Transition) (r : ObservationRequest) (at' : Int) :
    Result Db := do
  let context := accountRecoveryDigest env t t.state r.actualConfigGeneration r.actualConfigSha256
  let accounts ← updateOne db.accounts (fun a => heldAccount t (openAccountState t.kind) a)
    (fun a => { a with state := .blocked, updatedAt := at' }) recoveryError
  let db ← written { db with accounts := accounts }
  let db ← moveTransition db t t.state fun x =>
    { x with state := .recoveryRequired, resolvedAt := some at' }
  ensure (Storable r.actualConfigGeneration) recoveryError
  let stores ← updateOne db.stores (fun x => x.storeId = t.storeId ∧ x.state = .blocked)
    (fun x => { x with
      state := .recoveryRequired
      configGeneration := r.actualConfigGeneration
      configSha256 := r.actualConfigSha256
      updatedAt := at' }) recoveryError
  let db ← written { db with stores := stores }
  let receiptId ← orRefuse (transitionReceiptId db t) recoveryError
  let db ← insertTypedEvent env db
    (storeEvent t.storeId 5 t.transitionId 0x0402 0x0404 context receiptId at')
  let db ← insertTransitionPhaseEvent env db t 14 5 t.state .recoveryRequired context at'
  observeClockPair db at'

/-- `commit_account_recovery`. -/
def commitAccountRecovery (t : Transition) (r : ObservationRequest) (at' : Int) (db : Db) :
    Result (Commit TransitionProjection) := do
  ensure (t.state = .prepared ∨ t.state = .configCommitted) accountUpdateConflictError
  let db ← insertRecovery env db t r at'
  let projection ← projectionForTransitionState env codec db t .recoveryRequired .blocked
    .recoveryRequired r.actualConfigGeneration
  pure ⟨db, .ok projection⟩

/-- Whether an observation of a stopped transition repeats what stopped it, or the config commit
    before that. -/
def exactRecovery (operation : ObservationOperation) (t : Transition) (r : ObservationRequest)
    (store : Store) : Prop :=
  let pair := classifyObservedPair t r
  let observation := if t.configCommittedAt.isSome then pair ≠ .after else pair = .third
  let retry := operation = .configCommitted ∧ t.configCommittedAt.isSome ∧
    r.sourceState = .prepared ∧ pair = .after
  (observation ∨ retry) ∧
    (observation → r.actualConfigGeneration = store.configGeneration ∧
      r.actualConfigSha256 = store.configSha256)

instance (o : ObservationOperation) (t : Transition) (r : ObservationRequest) (s : Store) :
    Decidable (exactRecovery o t r s) := by
  unfold exactRecovery
  infer_instance

/-- An observation of a stopped transition. -/
def observeStopped (operation : ObservationOperation) (t : Transition) (r : ObservationRequest)
    (effective : Int) (db : Db) : Result (Commit TransitionProjection) := do
  let store ← orRefuse (loadRegisteredStoreById db t.storeId) recoveryError
  ensure (exactRecovery operation t r store) accountUpdateConflictError
  observeUnchanged env codec t effective db

/-- The states in which an operation has nothing left to do. -/
def completed (operation : ObservationOperation) (state : TransitionState) : Bool :=
  match operation with
  | .configCommitted => state == .configCommitted || state == .finalized ||
      state == .recoveryRequired
  | .finalize => state == .finalized
  | .abort => state == .aborted
  | .recovery => state == .recoveryRequired

/-- What an observation of a completed operation must repeat. -/
def exactCompletion (operation : ObservationOperation) (sourceState : TransitionState)
    (pair : ObservedConfigPair) : Bool :=
  match operation with
  | .configCommitted => sourceState == .prepared && pair == .after
  | .finalize => sourceState == .configCommitted && pair == .after
  | .abort => sourceState == .prepared && pair == .before
  | .recovery => false

/-- An observation of a completed operation. -/
def observeCompleted (operation : ObservationOperation) (t : Transition) (r : ObservationRequest)
    (effective : Int) (db : Db) : Result (Commit TransitionProjection) := do
  ensure (exactCompletion operation r.sourceState (classifyObservedPair t r))
    accountUpdateConflictError
  observeUnchanged env codec t effective db

/-- The pairs an open transition cannot go on from. -/
def unsafePair (t : Transition) (pair : ObservedConfigPair) : Bool :=
  (t.state == .prepared && pair == .third) || (t.state == .configCommitted && pair != .after)

/-- An observation of an open transition that it can go on from. -/
def observeOpen (operation : ObservationOperation) (t : Transition) (r : ObservationRequest)
    (effective : Int) (db : Db) : Result (Commit TransitionProjection) :=
  match operation, r.sourceState, t.state, classifyObservedPair t r with
  | .configCommitted, .prepared, .prepared, .before => observeUnchanged env codec t effective db
  | .configCommitted, .prepared, .prepared, .after => commitConfig env codec t effective db
  | .finalize, .configCommitted, .configCommitted, .after =>
      finalizeTransition env codec t effective db
  | .abort, .prepared, .prepared, .before => abortTransition env codec t effective db
  | _, _, _, _ => .error accountUpdateConflictError

/-- The choice of `apply_account_observation` between its branches. -/
def observeTransition (operation : ObservationOperation) (t : Transition) (r : ObservationRequest)
    (effective : Int) (db : Db) : Result (Commit TransitionProjection) :=
  if t.state = .recoveryRequired then observeStopped env codec operation t r effective db
  else if completed operation t.state then observeCompleted env codec operation t r effective db
  else if unsafePair t (classifyObservedPair t r) then commitAccountRecovery env codec t r effective db
  else observeOpen env codec operation t r effective db

/-- `apply_account_observation`. -/
def applyAccountObservation (s : Snapshot) (operation : ObservationOperation)
    (r : ObservationRequest) (db : Db) : Result (Commit TransitionProjection) := do
  validateReadyTransaction env codec s db
  let effective ← effectiveTime db r.observedAt
  let t ← orRefuse (loadAccountTransition db r.transitionId) accountUpdateConflictError
  observeTransition env codec operation t r effective db

end Kirje.Authority
