import Kirje.Authority.Chain

/-
  File:      Kirje/Authority/Effects.lean
  Subject:   The database each effect leaves, as one expression, and the rules of
             the checked statements.

  A statement that is not refused leaves a database that meets the schema
  (`written_ok`), so an effect that commits leaves one expression that meets it.
  Record updates of different tables commute, so every effect is rows first, then
  the clock, then the events.
-/

namespace Kirje.Authority

open Base

variable (env : Platform)

/-! ## 1. Statements -/

/-- The clock pair at a time. -/
def Db.clocked (db : Db) (at' : Int) : Db :=
  { db with metaRow := { db.metaRow with lastObservedAt := at', updatedAt := at' } }

/-- A challenge in one state moved to another. -/
def Db.challengeMoved (db : Db) (id : Digest) (prior next : ChallengeState) : Db :=
  { db with
    challenges := update (fun c => decide (c.challengeId = id ∧ c.state = prior))
      (fun c => { c with state := next }) db.challenges }

/-- Events appended in order. -/
def appendEvents (db : Db) (specs : List EventSpec) : Db := specs.foldl (appendEvent env) db

@[simp] theorem written_ok {db db' : Db} : written db = .ok db' ↔ SchemaOk db ∧ db = db' := by
  simp [written]

@[simp] theorem writtenDeferred_ok {db db' : Db} :
    writtenDeferred db = .ok db' ↔ TablesOk db ∧ db = db' := by
  simp [writtenDeferred]

@[simp] theorem updateOne_ok {α : Type} {rows rows' : List α} {p : α → Bool} {f : α → α}
    {e : MailError} : updateOne rows p f e = .ok rows' ↔
      (rows.filter p).length = 1 ∧ update p f rows = rows' := by
  simp [updateOne]

@[simp] theorem observeClockPair_ok {db db' : Db} {at' : Int} :
    observeClockPair db at' = .ok db' ↔ SchemaOk (db.clocked at') ∧ db.clocked at' = db' := written_ok

@[simp] theorem insertTypedEvent_ok {db db' : Db} {e : EventSpec} :
    insertTypedEvent env db e = .ok db' ↔
      SchemaOk (appendEvent env db e) ∧ appendEvent env db e = db' := written_ok

@[simp] theorem moveChallenge_ok {db db' : Db} {id : Digest} {prior next : ChallengeState} :
    moveChallenge db id prior next = .ok db' ↔
      (db.challenges.filter fun c => c.challengeId = id ∧ c.state = prior).length = 1 ∧
      SchemaOk (db.challengeMoved id prior next) ∧ db.challengeMoved id prior next = db' := by
  simp [moveChallenge, Db.challengeMoved]

/-- **The time of a call**: not before the clock, and readable. -/
structure TimeOk (db : Db) (at' : Int) : Prop where
  monotone : db.metaRow.lastObservedAt ≤ at'
  utc : Representable at'

theorem effectiveTime_ok {db : Db} {observed at' : Int} :
    effectiveTime db observed = .ok at' ↔
      db.metaRow.lastObservedAt - 30000 ≤ observed ∧ at' = max db.metaRow.lastObservedAt observed ∧
      Representable at' := by
  simp only [effectiveTime, checkedClock, utcMillis, bind_ok, ensure_ok, pure_ok]
  constructor
  · rintro ⟨_, ⟨_, h, rfl⟩, _, hr, rfl⟩
    exact ⟨h, rfl, hr⟩
  · rintro ⟨h, rfl, hr⟩
    exact ⟨_, ⟨(), h, rfl⟩, (), hr, rfl⟩

theorem timeOk_of_effectiveTime {db : Db} {observed at' : Int}
    (h : effectiveTime db observed = .ok at') : TimeOk db at' := by
  obtain ⟨-, rfl, hr⟩ := effectiveTime_ok.mp h
  exact ⟨le_max_left _ _, hr⟩

/-! ## 2. Challenges -/

/-- A pending challenge expired. -/
def pendingExpired (db : Db) (c : Challenge) (at' : Int) : Db :=
  appendEvent env ((db.challengeMoved c.challengeId .pending .expired).clocked at')
    (challengeExpiredEvent c at')

/-- An authorized challenge expired. -/
def receiptExpired (db : Db) (c : Challenge) (r : Receipt) (intent : Digest) (at' : Int) : Db :=
  appendEvent env ((db.challengeMoved c.challengeId .authorized .expired).clocked at')
    (receiptExpiredEvent c r intent at')

/-- A challenge added, linked to its event. -/
def challengeCreated (db : Db) (c : Challenge) (at' : Int) : Db :=
  appendEvent env ({ db with challenges := db.challenges ++
      [{ c with createdEventSequence := db.sequenceHighWater + 1 }] }.clocked at')
    (challengeCreatedEvent c at')

/-- A challenge proved. -/
def challengeProved (db : Db) (c : Challenge) (r : Receipt) (at' : Int) : Db :=
  appendEvent env (({ db with
      receipts := db.receipts ++ [r]
      nonces := db.nonces ++ [NonceUse.mk c.nonce c.challengeId r.receiptId at'] }.challengeMoved
        c.challengeId .pending .authorized).clocked at')
    (challengeAuthorizedEvent c r at')

variable {env}

theorem commitPendingExpiry_ok {α : Type} {db : Db} {c : Challenge} {at' : Int} {k : Commit α}
    (h : commitPendingExpiry env db c at' = .ok k) :
    k = ⟨pendingExpired env db c at', .error expiredError⟩ ∧
      SchemaOk (pendingExpired env db c at') := by
  simp only [commitPendingExpiry, bind_ok, moveChallenge_ok, observeClockPair_ok,
    insertTypedEvent_ok, pure_ok] at h
  obtain ⟨_, ⟨-, -, rfl⟩, _, ⟨-, rfl⟩, _, ⟨hs, rfl⟩, rfl⟩ := h
  exact ⟨rfl, hs⟩

theorem commitReceiptExpiry_ok {α : Type} {db : Db} {c : Challenge} {r : Receipt} {intent : Digest}
    {at' : Int} {k : Commit α} (h : commitReceiptExpiry env db c r intent at' = .ok k) :
    k = ⟨receiptExpired env db c r intent at', .error expiredError⟩ ∧
      SchemaOk (receiptExpired env db c r intent at') := by
  simp only [commitReceiptExpiry, bind_ok, moveChallenge_ok, observeClockPair_ok,
    insertTypedEvent_ok, pure_ok] at h
  obtain ⟨_, ⟨-, -, rfl⟩, _, ⟨-, rfl⟩, _, ⟨hs, rfl⟩, rfl⟩ := h
  exact ⟨rfl, hs⟩

theorem commitClock_ok {α : Type} {db : Db} {at' : Int} {reply : Result α} {k : Commit α}
    (h : commitClock db at' reply = .ok k) :
    k = ⟨db.clocked at', reply⟩ ∧ SchemaOk (db.clocked at') := by
  simp only [commitClock, bind_ok, observeClockPair_ok, pure_ok] at h
  obtain ⟨_, ⟨hs, rfl⟩, rfl⟩ := h
  exact ⟨rfl, hs⟩

theorem update_append_singleton {α : Type} {p : α → Bool} {f : α → α} {rows : List α} {r : α}
    (h : rows.filter p = []) (hp : p r = true) : update p f (rows ++ [r]) = rows ++ [f r] := by
  have hself := update_eq_self (f := f) h
  unfold update at hself ⊢
  rw [List.map_append, hself]
  simp [hp]

theorem insertChallenge_ok {db db' : Db} {c : Challenge} {at' : Int}
    (hseq : c.createdEventSequence = 0) (h : insertChallenge env db c at' = .ok db') :
    db' = challengeCreated env db c at' ∧ SchemaOk (challengeCreated env db c at') := by
  simp only [insertChallenge, linkChallenge, bind_ok, written_ok, observeClockPair_ok, orRefuse_ok,
    insertTypedEvent_ok, updateOne_ok] at h
  obtain ⟨_, ⟨hs, rfl⟩, _, ⟨-, rfl⟩, x, hx, _, ⟨-, rfl⟩, _, ⟨-, rfl⟩, hs', rfl⟩ := h
  -- the identifier is new, so the row found and linked is the row added
  have hnew : (db.challenges.filter fun y =>
      y.challengeId = c.challengeId ∧ y.createdEventSequence = 0) = [] := by
    have hn := hs.tables.challenges.id_unique
    rw [List.map_append, List.nodup_append] at hn
    refine List.filter_eq_nil_iff.mpr fun y hy => ?_
    simp only [decide_eq_true_eq, not_and]
    intro he
    exact absurd he (hn.2.2 _ (List.mem_map_of_mem hy) _ (by simp))
  have hxc : x = c := by
    have hfind : (db.challenges ++ [c]).find? (fun y => decide (y.challengeId = c.challengeId ∧
        y.createdEventSequence = 0)) = some x := hx
    rw [List.find?_append, List.find?_eq_none.mpr (by simpa using List.filter_eq_nil_iff.mp hnew)]
      at hfind
    simpa [hseq] using hfind.symm
  subst hxc
  have hlink : update (fun y => decide (y.challengeId = x.challengeId ∧
      y.createdEventSequence = 0))
      (fun y => { y with createdEventSequence := db.sequenceHighWater + 1 })
      (db.challenges ++ [x]) = db.challenges ++
        [{ x with createdEventSequence := db.sequenceHighWater + 1 }] :=
    update_append_singleton hnew (by simp [hseq])
  have heq : ({ appendEvent env ({ db with challenges := db.challenges ++ [x] }.clocked at')
      (challengeCreatedEvent x at') with
      challenges := update (fun y => decide (y.challengeId = x.challengeId ∧
          y.createdEventSequence = 0))
        (fun y => { y with createdEventSequence := db.sequenceHighWater + 1 })
        (db.challenges ++ [x]) } : Db) = challengeCreated env db x at' := by
    rw [hlink]
    rfl
  exact ⟨heq, heq ▸ hs'⟩

theorem insertReceipt_ok {db db' : Db} {c : Challenge} {r : Receipt} {at' : Int}
    (h : insertReceipt env db c r at' = .ok db') :
    db' = challengeProved env db c r at' ∧ SchemaOk (challengeProved env db c r at') := by
  simp only [insertReceipt, bind_ok, written_ok, moveChallenge_ok, observeClockPair_ok,
    insertTypedEvent_ok] at h
  obtain ⟨_, ⟨-, rfl⟩, _, ⟨-, rfl⟩, _, ⟨-, -, rfl⟩, _, ⟨-, rfl⟩, hs, rfl⟩ := h
  exact ⟨rfl, hs⟩

/-- Expiring first and creating then is creating after a committed expiry. -/
theorem expirePending_ok {db db' : Db} {c : Challenge} {at' : Int}
    (h : expirePending env db c at' = .ok db') :
    SchemaOk db' ∧ db' = appendEvent env (db.challengeMoved c.challengeId .pending .expired)
      (challengeExpiredEvent c at') := by
  simp only [expirePending, bind_ok, moveChallenge_ok, insertTypedEvent_ok] at h
  obtain ⟨_, ⟨-, -, rfl⟩, hs, rfl⟩ := h
  exact ⟨hs, rfl⟩

/-! ## 3. Enrollment and cleanup -/

variable (env)

/-- The event of a grant that a request uses. -/
def useEvent (r : GrantUseRequest) (receiptId : ReceiptId) (at' : Int) : EventSpec :=
  grantUsedEvent r.grantId receiptId (grantUseRow env r at').useSha256 at'

/-- A store enrolled. -/
def storeEnrolled (db : Db) (r : EnrollStoreRequest) (receiptId : ReceiptId) (at' : Int) : Db :=
  appendEvents env ({ db with
      grants := db.grants ++ [grantUseRow env r.grantUse at']
      stores := db.stores ++ [storeRow r receiptId at']
      storeVersions := db.storeVersions ++ [storeVersionRow r receiptId at'] }.clocked at')
    [useEvent env r.grantUse receiptId at', storeEnrolledEvent r.storeId r.grantUse.grantId
      receiptId (grantUseRow env r.grantUse at').useSha256 at']

/-- The cleanup a claim finds. -/
def claimable (id : CleanupId) (c : Cleanup) : Bool :=
  decide (c.cleanupId = id ∧ c.state = .ready ∧ c.claimGrantId = none ∧ c.deletedAt = none)

/-- A cleanup claimed. -/
def cleanupClaimed (db : Db) (r : CleanupClaimRequest) (receiptId : ReceiptId) (at' : Int) : Db :=
  appendEvents env ({ db with
      grants := db.grants ++ [grantUseRow env r.grantUse at']
      cleanups := update (claimable r.cleanupId)
        (fun c => { c with state := .claimed, claimGrantId := some r.grantUse.grantId })
        db.cleanups }.clocked at')
    [useEvent env r.grantUse receiptId at', cleanupEvent r.cleanupId 16 r.grantUse.grantId
      receiptId 0x0702 0x0703 (grantUseRow env r.grantUse at').useSha256 at']

/-- The cleanup a deletion finds. -/
def deletable (permit : CleanupDeletePermit) (c : Cleanup) : Bool :=
  decide (c.cleanupId = permit.cleanupId ∧ c.state = .claimed ∧
    c.claimGrantId = some permit.grantId ∧ c.deletedAt = none)

/-- A cleanup deleted. -/
def cleanupDeleted (db : Db) (permit : CleanupDeletePermit) (at' : Int) : Db :=
  appendEvents env ({ db with
      cleanups := update (deletable permit)
        (fun c => { c with state := .deleted, deletedAt := some at' }) db.cleanups }.clocked at')
    [cleanupEvent permit.cleanupId 17 permit.grantId permit.receiptId 0x0703 0x0704
      permit.useSha256 at']

variable {env}

theorem insertStore_ok {db db' : Db} {r : EnrollStoreRequest} {receiptId : ReceiptId} {at' : Int}
    (h : insertStore env db r receiptId at' = .ok db') :
    db' = storeEnrolled env db r receiptId at' ∧ SchemaOk (storeEnrolled env db r receiptId at') := by
  simp only [insertStore, insertGrantUse, bind_ok, written_ok, insertTypedEvent_ok,
    observeClockPair_ok] at h
  obtain ⟨_, ⟨_, ⟨-, rfl⟩, -, rfl⟩, _, ⟨-, rfl⟩, _, ⟨-, rfl⟩, _, ⟨-, rfl⟩, hs, rfl⟩ := h
  exact ⟨rfl, hs⟩

theorem insertClaim_ok {db db' : Db} {r : CleanupClaimRequest} {receiptId : ReceiptId} {at' : Int}
    (h : insertClaim env db r receiptId at' = .ok db') :
    (∃ x, db.cleanups.filter (claimable r.cleanupId) = [x]) ∧
      db' = cleanupClaimed env db r receiptId at' ∧
      SchemaOk (cleanupClaimed env db r receiptId at') := by
  simp only [insertClaim, insertGrantUse, bind_ok, written_ok, insertTypedEvent_ok,
    observeClockPair_ok, updateOne_ok] at h
  obtain ⟨_, ⟨_, ⟨-, rfl⟩, -, rfl⟩, _, ⟨hone, rfl⟩, _, ⟨-, rfl⟩, _, ⟨-, rfl⟩, hs, rfl⟩ := h
  exact ⟨filter_eq_singleton hone, rfl, hs⟩

theorem recordDeletion_ok {db db' : Db} {permit : CleanupDeletePermit} {at' : Int}
    (h : recordDeletion env db permit at' = .ok db') :
    (∃ x, db.cleanups.filter (deletable permit) = [x]) ∧
      db' = cleanupDeleted env db permit at' ∧ SchemaOk (cleanupDeleted env db permit at') := by
  simp only [recordDeletion, bind_ok, written_ok, insertTypedEvent_ok, observeClockPair_ok,
    updateOne_ok] at h
  obtain ⟨_, ⟨hone, rfl⟩, _, ⟨-, rfl⟩, _, ⟨-, rfl⟩, hs, rfl⟩ := h
  exact ⟨filter_eq_singleton hone, rfl, hs⟩

/-! ## 4. Transitions -/

variable (env)

/-- The store a prepare finds. -/
def blockable (r : PrepareRequest) (location : Digest) (x : Store) : Bool :=
  decide (x.storeId = r.storeId ∧ x.state = .active ∧ x.configGeneration = r.expectedGeneration ∧
    x.configSha256 = r.beforeConfigSha256 ∧ x.locationSha256 = location)

/-- A transition prepared; `accounts` are the accounts after it. -/
def transitionPrepared (db : Db) (r : PrepareRequest) (accounts : List Account) (location : Digest)
    (receiptId : ReceiptId) (at' : Int) : Db :=
  appendEvents env ({ db with
      grants := db.grants ++ [grantUseRow env r.grantUse at']
      stores := update (blockable r location)
        (fun x => { x with state := .blocked, updatedAt := at' }) db.stores
      accounts := accounts
      transitions := db.transitions ++ [transitionRow env r at']
      credentials := db.credentials ++ preparedCredentials r at'
      cleanups := db.cleanups ++
        r.cleanupReservations.map (cleanupRow r.transitionId at') }.clocked at')
    [useEvent env r.grantUse receiptId at', prepareStoreEvent (transitionRow env r at') receiptId,
      preparedEvent (transitionRow env r at') receiptId]

/-- The row of a transition in a state. -/
def transitionIn (t : Transition) (state : TransitionState) (x : Transition) : Bool :=
  decide (x.transitionId = t.transitionId ∧ x.state = state)

/-- The blocked store of a transition with a pair. -/
def blockedWith (t : Transition) (generation : NonZeroU64) (configSha256 : Digest) (x : Store) :
    Bool :=
  decide (x.storeId = t.storeId ∧ x.state = .blocked ∧ x.configGeneration = generation ∧
    x.configSha256 = configSha256)

/-- The blocked store of a transition. -/
def blockedStore (t : Transition) (x : Store) : Bool :=
  decide (x.storeId = t.storeId ∧ x.state = .blocked)

/-- The config of a transition committed. -/
def configCommitted (db : Db) (t : Transition) (a : Account) (store : Store)
    (receiptId : ReceiptId) (at' : Int) : Db :=
  appendEvents env ({ db with
      storeVersions := db.storeVersions ++ [committedStoreVersion t store at']
      accountVersions := db.accountVersions ++ committedAccountVersions t a at'
      transitions := update (transitionIn t .prepared)
        (fun x => { x with state := .configCommitted, configCommittedAt := some at' })
        db.transitions
      stores := update (blockedWith t t.expectedGeneration t.beforeConfigSha256)
        (fun x => { x with
          configGeneration := t.nextGeneration
          configSha256 := t.afterConfigSha256
          updatedAt := at' }) db.stores }.clocked at')
    [committedEvent t receiptId at']

/-- The account a transition holds, finalized. -/
def finalizedAccount (t : Transition) (at' : Int) (a : Account) : Account :=
  { a with
    state := finalAccountState t.kind
    activeTransitionId := none
    updatedAt := at'
    removedAt := if t.kind = .accountRemove then some at' else none }

/-- The cleanups of a transition, ready. -/
def cleanupsReady (db : Db) (t : Transition) : List Cleanup :=
  update (fun c => decide (c.transitionId = some t.transitionId ∧ c.state = .provisional))
    (fun c => { c with state := .ready }) db.cleanups

/-- A transition finalized. -/
def transitionFinalized (db : Db) (t : Transition) (receiptId : ReceiptId) (at' : Int) : Db :=
  appendEvents env ({ db with
      accounts := update (fun a => decide (heldAccount t (openAccountState t.kind) a))
        (finalizedAccount t at') db.accounts
      transitions := update (transitionIn t .configCommitted)
        (fun x => { x with state := .finalized, finalizedAt := some at' }) db.transitions
      stores := update (blockedWith t t.nextGeneration t.afterConfigSha256)
        (fun x => { x with state := .active, updatedAt := at' }) db.stores
      cleanups := cleanupsReady db t }.clocked at')
    ([finalizedEvent t receiptId at', storeEvent t.storeId 4 t.transitionId 0x0402 0x0401
        t.transitionSha256 receiptId at'] ++
      (readyCleanups { db with cleanups := cleanupsReady db t } t).map fun id =>
        cleanupReadyEvent id t receiptId at')

/-- A transition aborted; `accounts` are the accounts after it. -/
def transitionAborted (db : Db) (t : Transition) (accounts : List Account) (receiptId : ReceiptId)
    (at' : Int) : Db :=
  appendEvents env ({ db with
      accounts := accounts
      transitions := update (transitionIn t .prepared)
        (fun x => { x with state := .aborted, resolvedAt := some at' }) db.transitions
      stores := update (blockedWith t t.expectedGeneration t.beforeConfigSha256)
        (fun x => { x with state := .active, updatedAt := at' }) db.stores }.clocked at')
    [transitionEvent t 13 6 TransitionState.prepared.eventState .aborted t.transitionSha256
        receiptId at',
      storeEvent t.storeId 6 t.transitionId 0x0402 0x0401 t.transitionSha256 receiptId at']

/-- What an observation that fits neither pair is hashed to. -/
def recoveryContext (t : Transition) (r : ObservationRequest) : Digest :=
  accountRecoveryDigest env t t.state r.actualConfigGeneration r.actualConfigSha256

/-- A transition stopped. -/
def transitionStopped (db : Db) (t : Transition) (r : ObservationRequest) (receiptId : ReceiptId)
    (at' : Int) : Db :=
  appendEvents env ({ db with
      accounts := update (fun a => decide (heldAccount t (openAccountState t.kind) a))
        (fun a => { a with state := .blocked, updatedAt := at' }) db.accounts
      transitions := update (transitionIn t t.state)
        (fun x => { x with state := .recoveryRequired, resolvedAt := some at' }) db.transitions
      stores := update (blockedStore t)
        (fun x => { x with
          state := .recoveryRequired
          configGeneration := r.actualConfigGeneration
          configSha256 := r.actualConfigSha256
          updatedAt := at' }) db.stores }.clocked at')
    [storeEvent t.storeId 5 t.transitionId 0x0402 0x0404 (recoveryContext env t r) receiptId at',
      transitionEvent t 14 5 t.state.eventState .recoveryRequired (recoveryContext env t r)
        receiptId at']

variable {env} {codec : ManifestCodec}

theorem insertGrantUse_ok {db db' : Db} {g : GrantUse} {receiptId : ReceiptId}
    (h : insertGrantUse env db g receiptId = .ok db') :
    db' = appendEvent env { db with grants := db.grants ++ [g] }
      (grantUsedEvent g.grantId receiptId g.useSha256 g.usedAt) := by
  simp only [insertGrantUse, bind_ok, written_ok, insertTypedEvent_ok] at h
  obtain ⟨_, ⟨-, rfl⟩, -, rfl⟩ := h
  rfl

theorem blockStore_ok {db db' : Db} {r : PrepareRequest} {location : Digest} {at' : Int}
    (h : blockStore db r location at' = .ok db') :
    (∃ store, db.stores.filter (blockable r location) = [store]) ∧
      db' = { db with
        stores := update (blockable r location)
          (fun x => { x with state := .blocked, updatedAt := at' }) db.stores } := by
  simp only [blockStore, bind_ok, written_ok, updateOne_ok] at h
  obtain ⟨_, ⟨hone, rfl⟩, -, rfl⟩ := h
  exact ⟨filter_eq_singleton hone, rfl⟩

theorem insertPrepared_ok {db db' : Db} {r : PrepareRequest} {c : Challenge}
    {receiptId : ReceiptId} {at' : Int}
    (h : insertPrepared env codec db r c receiptId at' = .ok db') :
    ∃ accounts, preparedAccounts env codec db r c receiptId at' = .ok accounts ∧
      db' = { db with
        accounts := accounts
        transitions := db.transitions ++ [transitionRow env r at']
        credentials := db.credentials ++ preparedCredentials r at'
        cleanups := db.cleanups ++ r.cleanupReservations.map (cleanupRow r.transitionId at') } := by
  simp only [insertPrepared, bind_ok, writtenDeferred_ok, ensure_ok, pure_ok] at h
  obtain ⟨accounts, ha, _, ⟨-, rfl⟩, _, ⟨-, rfl⟩, _, ⟨-, rfl⟩, _, ⟨-, rfl⟩, _, -, rfl⟩ := h
  exact ⟨accounts, ha, rfl⟩

theorem insertTransition_ok {db db' : Db} {r : PrepareRequest} {c : Challenge}
    {receiptId : ReceiptId} {at' : Int}
    (h : insertTransition env codec db r c receiptId at' = .ok db') :
    ∃ location accounts store, accountManifestLocationSha256 env codec c = .ok location ∧
      preparedAccounts env codec db r c receiptId at' = .ok accounts ∧
      db.stores.filter (blockable r location) = [store] ∧
      db' = transitionPrepared env db r accounts location receiptId at' ∧
      SchemaOk db' := by
  simp only [insertTransition, bind_ok, insertTypedEvent_ok, observeClockPair_ok] at h
  obtain ⟨db₁, h₁, location, hl, db₂, h₂, db₃, h₃, _, ⟨-, rfl⟩, _, ⟨-, rfl⟩, hs, rfl⟩ := h
  obtain rfl := insertGrantUse_ok h₁
  obtain ⟨⟨store, hstore⟩, rfl⟩ := blockStore_ok h₂
  obtain ⟨accounts, ha, rfl⟩ := insertPrepared_ok h₃
  exact ⟨location, accounts, store, hl, ha, hstore, rfl, hs⟩

theorem insertConfigCommit_ok {db db' : Db} {t : Transition} {at' : Int}
    (h : insertConfigCommit env db t at' = .ok db') :
    ∃ a store x y receiptId, loadRegisteredAccount db t.accountId = some a ∧
      loadRegisteredStoreById db t.storeId = some store ∧
      db.transitions.filter (transitionIn t .prepared) = [x] ∧
      db.stores.filter (blockedWith t t.expectedGeneration t.beforeConfigSha256) = [y] ∧
      transitionReceiptId db t = some receiptId ∧
      db' = configCommitted env db t a store receiptId at' ∧ SchemaOk db' := by
  simp only [insertConfigCommit, insertTransitionVersions, moveTransition, moveStore,
    insertTransitionPhaseEvent, bind_ok, written_ok, insertTypedEvent_ok, observeClockPair_ok,
    updateOne_ok, orRefuse_ok] at h
  obtain ⟨a, ha, _, ⟨store, hst, _, ⟨-, rfl⟩, -, rfl⟩, _, ⟨_, ⟨hone, rfl⟩, -, rfl⟩, _,
    ⟨_, ⟨hone', rfl⟩, -, rfl⟩, _, ⟨receiptId, hr, -, rfl⟩, hs, rfl⟩ := h
  obtain ⟨x, hx⟩ := filter_eq_singleton hone
  obtain ⟨y, hy⟩ := filter_eq_singleton hone'
  exact ⟨a, store, x, y, receiptId, ha, hst, hx, hy, hr, rfl, hs⟩

theorem foldlM_insertTypedEvent_ok {ids : List CleanupId} {f : CleanupId → EventSpec}
    {db db' : Db}
    (h : ids.foldlM (fun db id => insertTypedEvent env db (f id)) db = .ok db') :
    db' = appendEvents env db (ids.map f) := by
  induction ids generalizing db with
  | nil =>
      rw [List.foldlM_nil, pure_ok] at h
      exact h.symm
  | cons i ids ih =>
      rw [List.foldlM_cons, bind_ok] at h
      obtain ⟨_, h₁, h₂⟩ := h
      rw [insertTypedEvent_ok] at h₁
      rw [← h₁.2] at h₂
      exact ih h₂

theorem appendEvents_append (db : Db) (l₁ l₂ : List EventSpec) :
    appendEvents env db (l₁ ++ l₂) = appendEvents env (appendEvents env db l₁) l₂ :=
  List.foldl_append

/-- The clock and the log are different columns. -/
theorem appendEvents_clocked (db : Db) (at' : Int) (l : List EventSpec) :
    appendEvents env (db.clocked at') l = (appendEvents env db l).clocked at' := by
  induction l generalizing db with
  | nil => rfl
  | cons e l ih => exact ih (appendEvent env db e)

theorem insertFinalize_ok {db db' : Db} {t : Transition} {at' : Int}
    (h : insertFinalize env db t at' = .ok db') :
    ∃ a x y receiptId,
      (db.accounts.filter fun a => heldAccount t (openAccountState t.kind) a) = [a] ∧
      db.transitions.filter (transitionIn t .configCommitted) = [x] ∧
      db.stores.filter (blockedWith t t.nextGeneration t.afterConfigSha256) = [y] ∧
      transitionReceiptId db t = some receiptId ∧
      db' = transitionFinalized env db t receiptId at' ∧ SchemaOk db' := by
  simp only [insertFinalize, updateFinalizeRows, moveTransition, moveStore,
    insertTransitionPhaseEvent, bind_ok, written_ok, insertTypedEvent_ok, observeClockPair_ok,
    updateOne_ok, orRefuse_ok] at h
  obtain ⟨_, ⟨_, ⟨honeA, rfl⟩, _, ⟨-, rfl⟩, _, ⟨_, ⟨honeT, rfl⟩, -, rfl⟩, _, ⟨_, ⟨honeS, rfl⟩, -,
    rfl⟩, -, rfl⟩, receiptId, hr, _, ⟨receiptId', hr', -, rfl⟩, _, ⟨-, rfl⟩, _, hready, hs, rfl⟩ := h
  obtain rfl : receiptId = receiptId' := Option.some.inj (hr.symm.trans hr')
  obtain ⟨a, ha⟩ := filter_eq_singleton honeA
  obtain ⟨x, hx⟩ := filter_eq_singleton honeT
  obtain ⟨y, hy⟩ := filter_eq_singleton honeS
  have heq := foldlM_insertTypedEvent_ok hready
  subst heq
  refine ⟨a, x, y, receiptId, ha, hx, hy, hr, ?_, hs⟩
  rw [transitionFinalized, appendEvents_append, appendEvents_clocked, appendEvents_clocked]
  rfl

theorem insertAbort_ok {db db' : Db} {t : Transition} {at' : Int}
    (h : insertAbort env codec db t at' = .ok db') :
    ∃ accounts x y receiptId, abortedAccounts env codec db t at' = .ok accounts ∧
      db.transitions.filter (transitionIn t .prepared) = [x] ∧
      db.stores.filter (blockedWith t t.expectedGeneration t.beforeConfigSha256) = [y] ∧
      transitionReceiptId db t = some receiptId ∧
      db' = transitionAborted env db t accounts receiptId at' ∧ SchemaOk db' := by
  simp only [insertAbort, updateAbortRows, moveTransition, moveStore, insertTransitionPhaseEvent,
    bind_ok, written_ok, insertTypedEvent_ok, observeClockPair_ok, updateOne_ok, orRefuse_ok] at h
  obtain ⟨_, ⟨accounts, ha, _, ⟨-, rfl⟩, _, ⟨_, ⟨honeT, rfl⟩, -, rfl⟩, _, ⟨honeS, rfl⟩, -, rfl⟩,
    receiptId, hr, _, ⟨receiptId', hr', -, rfl⟩, _, ⟨-, rfl⟩, hs, rfl⟩ := h
  obtain rfl : receiptId = receiptId' := Option.some.inj (hr.symm.trans hr')
  obtain ⟨x, hx⟩ := filter_eq_singleton honeT
  obtain ⟨y, hy⟩ := filter_eq_singleton honeS
  exact ⟨accounts, x, y, receiptId, ha, hx, hy, hr, rfl, hs⟩

theorem insertRecovery_ok {db db' : Db} {t : Transition} {r : ObservationRequest} {at' : Int}
    (h : insertRecovery env db t r at' = .ok db') :
    ∃ a x y receiptId,
      (db.accounts.filter fun a => heldAccount t (openAccountState t.kind) a) = [a] ∧
      db.transitions.filter (transitionIn t t.state) = [x] ∧
      db.stores.filter (blockedStore t) = [y] ∧
      transitionReceiptId db t = some receiptId ∧
      db' = transitionStopped env db t r receiptId at' ∧ SchemaOk db' := by
  simp only [insertRecovery, moveTransition, insertTransitionPhaseEvent, bind_ok, written_ok,
    insertTypedEvent_ok, observeClockPair_ok, updateOne_ok, orRefuse_ok, ensure_ok] at h
  obtain ⟨_, ⟨honeA, rfl⟩, _, ⟨-, rfl⟩, _, ⟨_, ⟨honeT, rfl⟩, -, rfl⟩, _, -, _, ⟨honeS, rfl⟩, _,
    ⟨-, rfl⟩, receiptId, hr, _, ⟨-, rfl⟩, _, ⟨receiptId', hr', -, rfl⟩, hs, rfl⟩ := h
  obtain rfl : receiptId = receiptId' := Option.some.inj (hr.symm.trans hr')
  obtain ⟨a, ha⟩ := filter_eq_singleton honeA
  obtain ⟨x, hx⟩ := filter_eq_singleton honeT
  obtain ⟨y, hy⟩ := filter_eq_singleton honeS
  exact ⟨a, x, y, receiptId, ha, hx, hy, hr, rfl, hs⟩

end Kirje.Authority
