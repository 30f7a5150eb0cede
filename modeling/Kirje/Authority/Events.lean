import Kirje.Authority.Manifests

/-
  File:      Kirje/Authority/Events.lean
  Subject:   What the validator demands of the event log
             (crates/kirje-store/src/authority.rs).

  Each event is recomputed from the rows it is about.  The events of a transition
  bracket its life (`TransitionEvents`), those of a store are replayed from its
  enrollment (`storeWalkStep`), those of a challenge order the challenges of one
  context (`LifecycleOk`).  A failed check of any of these is `recovery_error`.
-/

namespace Kirje.Authority

open Base

variable (env : Platform) (codec : ManifestCodec)

/-! ## 1. Rows and specifications -/

/-- The detail of a row and its digest are those of the specification. -/
def Event.Says (e : Event) (spec : EventSpec) : Prop :=
  e.detail = spec.detail ∧ e.detailSha256 = env.sha256 spec.detail

/-- Every column of a row is that of the specification. -/
def Event.Is (e : Event) (spec : EventSpec) : Prop := e = spec.row env e.sequence

instance (e : Event) (spec : EventSpec) : Decidable (e.Says env spec) :=
  inferInstanceAs (Decidable (_ ∧ _))

instance (e : Event) (spec : EventSpec) : Decidable (e.Is env spec) :=
  inferInstanceAs (Decidable (_ = _))

/-! ## 2. The events of a transition -/

/-- The phase a stopped transition was in. -/
def priorPhase (t : Transition) : TransitionState :=
  if t.configCommittedAt.isSome then .configCommitted else .prepared

/-- The event that blocks the store of a transition. -/
def prepareStoreEvent (t : Transition) (receiptId : ReceiptId) : EventSpec :=
  storeEvent t.storeId 4 t.transitionId 0x0401 0x0402 t.transitionSha256 receiptId t.preparedAt

/-- The event of a prepared transition. -/
def preparedEvent (t : Transition) (receiptId : ReceiptId) : EventSpec :=
  transitionEvent t 10 4 0 .prepared t.transitionSha256 receiptId t.preparedAt

/-- The event of a config commit. -/
def committedEvent (t : Transition) (receiptId : ReceiptId) (at' : Int) : EventSpec :=
  transitionEvent t 11 4 TransitionState.prepared.eventState .configCommitted t.transitionSha256
    receiptId at'

/-- The event of a finalized transition. -/
def finalizedEvent (t : Transition) (receiptId : ReceiptId) (at' : Int) : EventSpec :=
  transitionEvent t 12 4 TransitionState.configCommitted.eventState .finalized t.transitionSha256
    receiptId at'

/-- The opening of `validate_transition_events`: grant, store and transition in sequence. -/
@[mk_iff]
structure PreparedEvents (db : Db) (t : Transition) (receiptId : ReceiptId) (grant : GrantUse)
    (grantEvent storeRow prepared : Event) : Prop where
  grant_next : grantEvent.sequence + 1 = storeRow.sequence
  store_next : storeRow.sequence + 1 = prepared.sequence
  used_at : grant.usedAt = t.preparedAt
  store_is : storeRow.Is env (prepareStoreEvent t receiptId)
  prepared_says : prepared.Says env (preparedEvent t receiptId)

instance (db : Db) (t : Transition) (i : ReceiptId) (g : GrantUse) (a b c : Event) :
    Decidable (PreparedEvents env db t i g a b c) :=
  decidable_of_iff' _ (preparedEvents_iff env db t i g a b c)

/-- The sequence of the last event before the terminal ones. -/
def committedSequence (db : Db) (t : Transition) (receiptId : ReceiptId) (prepared : Event) :
    Option Nat :=
  match t.configCommittedAt with
  | none => some prepared.sequence
  | some at' => do
      let e ← loadSingleEntityEvent db 6 t.transitionId.bytes 11
      guard (e.Says env (committedEvent t receiptId at') ∧ prepared.sequence < e.sequence)
      some e.sequence

/-- `validate_terminal_transition_pair`. -/
def TerminalPair (db : Db) (t : Transition) (receiptId : ReceiptId) (previous eventCode source : Nat)
    (prior next : TransitionState) (storeNext : Nat) (context : Digest) (at' : Int) : Prop :=
  ∃ e ∈ loadSingleEntityEvent db 6 t.transitionId.bytes eventCode,
    ∃ s ∈ loadEventBySequence db
        (if eventCode = 14 then e.sequence - 1 else e.sequence + 1),
      (if eventCode = 13 then e.sequence = previous + 1 ∧ s.sequence = e.sequence + 1
        else previous < s.sequence ∧ e.sequence = s.sequence + 1) ∧
      e.Says env
        (transitionEvent t eventCode source prior.eventState next context receiptId at') ∧
      s.Is env (storeEvent t.storeId source t.transitionId 0x0402 storeNext context receiptId at')

instance (db : Db) (t : Transition) (i : ReceiptId) (p c o : Nat) (a b : TransitionState) (n : Nat)
    (d : Digest) (x : Int) : Decidable (TerminalPair env db t i p c o a b n d x) := by
  unfold TerminalPair
  infer_instance

/-- The pair of events of a finalized transition. -/
def FinalizedPair (db : Db) (t : Transition) (receiptId : ReceiptId) (previous : Nat) (at' : Int) :
    Prop :=
  ∃ e ∈ loadSingleEntityEvent db 6 t.transitionId.bytes 12,
    ∃ s ∈ loadEventBySequence db (e.sequence + 1),
      previous < e.sequence ∧ e.detail = (finalizedEvent t receiptId at').detail ∧
      s.Is env (storeEvent t.storeId 4 t.transitionId 0x0402 0x0401 t.transitionSha256 receiptId at')

instance (db : Db) (t : Transition) (i : ReceiptId) (p : Nat) (x : Int) :
    Decidable (FinalizedPair env db t i p x) := by
  unfold FinalizedPair
  infer_instance

/-- The terminal events a transition in its state has. -/
def TerminalEvents (db : Db) (t : Transition) (receiptId : ReceiptId) (previous : Nat) : Prop :=
  match t.state with
  | .prepared | .configCommitted => True
  | .finalized => ∃ at' ∈ t.finalizedAt, FinalizedPair env db t receiptId previous at'
  | .aborted => ∃ at' ∈ t.resolvedAt,
      TerminalPair env db t receiptId previous 13 6 .prepared .aborted 0x0401 t.transitionSha256 at'
  | .recoveryRequired => ∃ at' ∈ t.resolvedAt, ∃ s ∈ loadRegisteredStoreById db t.storeId,
      TerminalPair env db t receiptId previous 14 5 (priorPhase t) .recoveryRequired 0x0404
        (accountRecoveryDigest env t (priorPhase t) s.configGeneration s.configSha256) at'

instance (db : Db) (t : Transition) (i : ReceiptId) (p : Nat) :
    Decidable (TerminalEvents env db t i p) := by
  unfold TerminalEvents
  exact match t.state with
    | .prepared | .configCommitted | .finalized | .aborted | .recoveryRequired => inferInstance

/-- `validate_transition_events`. -/
def TransitionEvents (db : Db) (t : Transition) (receiptId : ReceiptId) : Prop :=
  ∃ grant ∈ loadGrantUse db t.grantId,
    ∃ grantEvent ∈ loadSingleEntityEvent db 10 t.grantId.bytes 7,
      ∃ prepared ∈ loadSingleEntityEvent db 6 t.transitionId.bytes 10,
        ∃ storeRow ∈ loadEventBySequence db (prepared.sequence - 1),
          PreparedEvents env db t receiptId grant grantEvent storeRow prepared ∧
          ∃ previous ∈ committedSequence env db t receiptId prepared,
            TerminalEvents env db t receiptId previous

instance (db : Db) (t : Transition) (i : ReceiptId) : Decidable (TransitionEvents env db t i) := by
  unfold TransitionEvents
  infer_instance

/-! ## 3. The events of a store -/

/-- What the event of a store must say, the code of the transition event beside it, and whether
    the store event follows that one. -/
def expectedStoreEvent (db : Db) (t : Transition) (receiptId : ReceiptId) (prior next : Nat) :
    Option (EventSpec × Nat × Bool) :=
  if prior = 0x0401 ∧ next = 0x0402 then some (prepareStoreEvent t receiptId, 10, false)
  else if prior = 0x0402 ∧ next = 0x0401 ∧ t.state = .finalized then
    t.finalizedAt.map fun at' =>
      (storeEvent t.storeId 4 t.transitionId 0x0402 0x0401 t.transitionSha256 receiptId at', 12, true)
  else if prior = 0x0402 ∧ next = 0x0401 ∧ t.state = .aborted then
    t.resolvedAt.map fun at' =>
      (storeEvent t.storeId 6 t.transitionId 0x0402 0x0401 t.transitionSha256 receiptId at', 13, true)
  else if prior = 0x0402 ∧ next = 0x0404 ∧ t.state = .recoveryRequired then do
    let s ← loadRegisteredStoreById db t.storeId
    let at' ← t.resolvedAt
    some (storeEvent t.storeId 5 t.transitionId 0x0402 0x0404
      (accountRecoveryDigest env t (priorPhase t) s.configGeneration s.configSha256) receiptId at',
      14, false)
  else none

/-- `validate_account_store_event_row`: the detail and the transition of a store event. -/
def storeEventRow (db : Db) (storeId : StoreId) (row : Event) :
    Option (StoreEventDetail × Transition) := do
  let d ← parseStoreEventDetail row storeId
  let t ← loadAccountTransition db d.transitionId
  let receiptId ← transitionReceiptId db t
  guard (t.storeId = storeId ∧ d.receiptId = receiptId ∧ row.source = d.source ∧
    row.occurredAt = d.occurredAt ∧ row.detailSha256 = env.sha256 row.detail)
  let (spec, code, follows) ← expectedStoreEvent env db t receiptId d.priorState d.nextState
  let beside ← loadSingleEntityEvent db 6 t.transitionId.bytes code
  guard (d.source = spec.source ∧ d.context = spec.context ∧ d.occurredAt = spec.occurredAt ∧
    row.detail = spec.detail ∧
    if follows then beside.sequence + 1 = row.sequence else row.sequence + 1 = beside.sequence)
  some (d, t)

/-- What `account_store_event_is_exact` derives while it replays the events of a store. -/
structure StoreWalk where
  sawEnrollment : Bool
  state : StoreState
  generation : NonZeroU64
  configSha256 : Digest
  updatedAt : Int
  activeTransition : Option TransitionId
  deriving DecidableEq, Repr

/-- The replay of a blocking event. -/
def StoreWalk.block (w : StoreWalk) (t : Transition) : Option StoreWalk := do
  guard (w.state = .active ∧ w.activeTransition = none ∧ t.expectedGeneration = w.generation ∧
    t.beforeConfigSha256 = w.configSha256)
  some { w with
    state := .blocked
    generation := if t.configCommittedAt.isSome then t.nextGeneration else w.generation
    configSha256 := if t.configCommittedAt.isSome then t.afterConfigSha256 else w.configSha256
    updatedAt := t.configCommittedAt.getD t.preparedAt
    activeTransition := some t.transitionId }

/-- The time a transition that frees its store did so. -/
def releasedAt (t : Transition) : Option Int :=
  match t.state with
  | .finalized => t.finalizedAt
  | .aborted => t.resolvedAt
  | _ => none

/-- The replay of a freeing event. -/
def StoreWalk.release (w : StoreWalk) (t : Transition) : Option StoreWalk := do
  guard (w.state = .blocked ∧ w.activeTransition = some t.transitionId)
  let at' ← releasedAt t
  some { w with state := .active, updatedAt := at', activeTransition := none }

/-- The replay of a stopping event: the pair is whatever the store row holds. -/
def StoreWalk.stop (w : StoreWalk) (store : Store) (t : Transition) : Option StoreWalk := do
  guard (w.state = .blocked ∧ w.activeTransition = some t.transitionId ∧
    t.state = .recoveryRequired)
  let at' ← t.resolvedAt
  some { w with
    state := .recoveryRequired
    generation := store.configGeneration
    configSha256 := store.configSha256
    updatedAt := at' }

/-- One event of the replay. -/
def storeWalkStep (db : Db) (store : Store) (w : StoreWalk) (e : Event) : Option StoreWalk :=
  if e.eventCode = 8 then do
    guard (w.sawEnrollment = false ∧ w.activeTransition = none)
    some { w with sawEnrollment := true }
  else if e.eventCode = 9 then do
    guard (w.sawEnrollment = true)
    let (d, t) ← storeEventRow env db store.storeId e
    if d.priorState = 0x0401 ∧ d.nextState = 0x0402 then w.block t
    else if d.priorState = 0x0402 ∧ d.nextState = 0x0401 then w.release t
    else if d.priorState = 0x0402 ∧ d.nextState = 0x0404 then w.stop store t
    else none
  else none

/-- The events of a store, in order. -/
def storeEvents (db : Db) (id : StoreId) : List Event :=
  db.events.filter fun e => e.entityKind = 4 ∧ e.entityId = id.bytes

/-- Where the replay starts. -/
def storeWalkStart (store : Store) (initial : StoreVersion) : StoreWalk :=
  ⟨false, .active, initial.configGeneration, initial.configSha256, store.createdAt, none⟩

/-- `account_store_event_is_exact`. -/
def StoreEventsExact (db : Db) (store : Store) (initial : StoreVersion) : Prop :=
  ∃ w ∈ (storeEvents db store.storeId).foldlM (storeWalkStep env db store)
      (storeWalkStart store initial),
    w.sawEnrollment = true ∧ w.state = store.state ∧ w.generation = store.configGeneration ∧
    w.configSha256 = store.configSha256 ∧ w.updatedAt = store.updatedAt

instance (db : Db) (s : Store) (v : StoreVersion) : Decidable (StoreEventsExact env db s v) := by
  unfold StoreEventsExact
  infer_instance

/-! ## 4. The events of a challenge -/

/-- What `validate_challenge_event` recomputes for an event of a challenge. -/
def challengeEventSpec (db : Db) (lastObservedAt : Int) (c : Challenge) (row : Event) :
    Option EventSpec :=
  match row.eventCode with
  | 3 => some (challengeCreatedEvent c c.issuedAt)
  | 4 => (loadReceiptForChallenge db c.challengeId).map fun r =>
      challengeAuthorizedEvent c r r.verifiedAt
  | 5 => do
      guard (c.expiresAt < row.occurredAt ∧ row.occurredAt ≤ lastObservedAt)
      match loadReceiptForChallenge db c.challengeId with
      | none => some (challengeExpiredEvent c row.occurredAt)
      | some r => do
          let m ← manifestOf env codec c
          let intent ← expiryIntent env c r m
          some (receiptExpiredEvent c r intent row.occurredAt)
  | _ => none

/-- `validate_challenge_event`. -/
def ChallengeEventOk (db : Db) (row : Event) : Prop :=
  ∃ id ∈ Digest.ofBytes? row.entityId, ∃ c ∈ loadChallenge db id,
    ∃ spec ∈ challengeEventSpec env codec db db.metaRow.lastObservedAt c row,
      row.Is env spec ∧ (row.eventCode = 3 → row.sequence = c.createdEventSequence)

instance (db : Db) (row : Event) : Decidable (ChallengeEventOk env codec db row) := by
  unfold ChallengeEventOk
  infer_instance

/-- The sequence of the event of a challenge with a code, if there is one; there is no second. -/
def challengeSlot (db : Db) (c : Challenge) (eventCode : Nat) : Option (Option Nat) :=
  match eventsOf db 8 c.challengeId.bytes eventCode with
  | [] => some none
  | [e] => some (some e.sequence)
  | _ => none

/-- The terminal sequence a challenge in its state has. -/
def terminalSequence : ChallengeState → Option Nat → Option Nat → Option (Option Nat)
  | .pending, none, none => some none
  | .authorized, some a, none => some (some a)
  | .expired, none, some e => some (some e)
  | .expired, some a, some e => if a < e then some (some a) else none
  | _, _, _ => none

/-- `validate_challenge_event_graph`. -/
def challengeEventGraph (db : Db) (c : Challenge) : Option (Option Nat) := do
  let created ← challengeSlot db c 3
  let authorized ← challengeSlot db c 4
  let expired ← challengeSlot db c 5
  guard (created = some c.createdEventSequence)
  let terminal ← terminalSequence c.state authorized expired
  guard (∀ s ∈ terminal, c.createdEventSequence < s)
  some terminal

/-- The order of the challenges of one context. -/
def Challenge.Before (p c : Challenge) : Prop :=
  p.createdEventSequence < c.createdEventSequence ∨
    (p.createdEventSequence = c.createdEventSequence ∧ p.challengeId.bytes < c.challengeId.bytes)

instance (p c : Challenge) : Decidable (p.Before c) := inferInstanceAs (Decidable (_ ∨ _))

/-- The challenge just before another in its context. -/
def IsPrevious (rows : List Challenge) (p c : Challenge) : Prop :=
  p.contextSha256 = c.contextSha256 ∧ p.Before c ∧
    ∀ q ∈ rows, q.contextSha256 = c.contextSha256 → ¬(p.Before q ∧ q.Before c)

instance (rows : List Challenge) (p c : Challenge) : Decidable (IsPrevious rows p c) :=
  inferInstanceAs (Decidable (_ ∧ _))

/-- `validate_challenge_lifecycles`, for one challenge and the one before it. -/
def LifecycleOk (db : Db) (c : Challenge) : Prop :=
  (challengeEventGraph db c).isSome ∧
    ∀ p ∈ db.challenges, IsPrevious db.challenges p c →
      (p.state = .authorized ∨ p.state = .expired) ∧
      ∃ s ∈ (challengeEventGraph db p).join, s < c.createdEventSequence

instance (db : Db) (c : Challenge) : Decidable (LifecycleOk db c) :=
  inferInstanceAs (Decidable (_ ∧ _))

/-! ## 5. The events of the registry -/

/-- The transition events a state admits. -/
def reachableEvent (t : Transition) (eventCode : Nat) : Bool :=
  match t.state with
  | .prepared => eventCode == 10
  | .configCommitted => eventCode == 10 || eventCode == 11
  | .finalized => eventCode == 10 || eventCode == 11 || eventCode == 12
  | .aborted => eventCode == 10 || eventCode == 13
  | .recoveryRequired => eventCode == 10 || eventCode == 14 ||
      (t.configCommittedAt.isSome && eventCode == 11)

/-- The ready event of a cleanup. -/
def CleanupReadyEventOk (db : Db) (row : Event) : Prop :=
  ∃ id ∈ Uuid.ofBytes? row.entityId, ∃ c ∈ loadCredentialCleanup db id,
    ∃ i ∈ c.transitionId, ∃ t ∈ loadAccountTransition db i,
      ∃ receiptId ∈ transitionReceiptId db t, ∃ at' ∈ t.finalizedAt,
        c.state ≠ .provisional ∧ t.state = .finalized ∧
        row.Is env (cleanupReadyEvent id t receiptId at')

/-- The claimed event of a cleanup. -/
def CleanupClaimedEventOk (db : Db) (row : Event) : Prop :=
  ∃ id ∈ Uuid.ofBytes? row.entityId, ∃ c ∈ loadCredentialCleanup db id,
    ∃ grantId ∈ c.claimGrantId, ∃ g ∈ loadGrantUse db grantId,
      (c.state = .claimed ∨ c.state = .deleted) ∧
      row.Is env (cleanupEvent id 16 grantId g.receiptId 0x0702 0x0703 g.useSha256 g.usedAt)

/-- The deleted event of a cleanup. -/
def CleanupDeletedEventOk (db : Db) (row : Event) : Prop :=
  ∃ id ∈ Uuid.ofBytes? row.entityId, ∃ c ∈ loadCredentialCleanup db id,
    ∃ grantId ∈ c.claimGrantId, ∃ g ∈ loadGrantUse db grantId, ∃ at' ∈ c.deletedAt,
      c.state = .deleted ∧
      row.Is env (cleanupEvent id 17 grantId g.receiptId 0x0703 0x0704 g.useSha256 at')

/-- An event of a transition. -/
def TransitionEventOk (db : Db) (row : Event) : Prop :=
  ∃ id ∈ Uuid.ofBytes? row.entityId, ∃ t ∈ loadAccountTransition db id,
    ∃ receiptId ∈ transitionReceiptId db t, TransitionEvents env db t receiptId ∧
      reachableEvent t row.eventCode ∧ row.detailSha256 = env.sha256 row.detail

/-- An event of a store, which the replay checks further. -/
def StoreEventOk (db : Db) (row : Event) : Prop :=
  ∃ id ∈ Uuid.ofBytes? row.entityId, (loadRegisteredStoreById db id).isSome ∧
    (parseStoreEventDetail row id).isSome ∧ row.detailSha256 = env.sha256 row.detail

/-- The event of a used grant. -/
def GrantEventOk (db : Db) (row : Event) : Prop :=
  ∃ id ∈ Uuid.ofBytes? row.entityId, ∃ g ∈ loadGrantUse db id,
    row.Is env (grantUsedEvent g.grantId g.receiptId g.useSha256 g.usedAt)

/-- The event of an enrolled store. -/
def EnrolledEventOk (db : Db) (row : Event) : Prop :=
  ∃ id ∈ Uuid.ofBytes? row.entityId, ∃ s ∈ loadRegisteredStoreById db id,
    ∃ r ∈ loadReceiptById db s.enrolledReceiptId, ∃ g ∈ loadGrantUseByReceipt db r.receiptId,
      row.Is env (storeEnrolledEvent s.storeId g.grantId r.receiptId g.useSha256 g.usedAt)

instance (db : Db) (row : Event) : Decidable (CleanupReadyEventOk env db row) := by
  unfold CleanupReadyEventOk
  infer_instance

instance (db : Db) (row : Event) : Decidable (CleanupClaimedEventOk env db row) := by
  unfold CleanupClaimedEventOk
  infer_instance

instance (db : Db) (row : Event) : Decidable (CleanupDeletedEventOk env db row) := by
  unfold CleanupDeletedEventOk
  infer_instance

instance (db : Db) (row : Event) : Decidable (TransitionEventOk env db row) := by
  unfold TransitionEventOk
  infer_instance

instance (db : Db) (row : Event) : Decidable (StoreEventOk env db row) := by
  unfold StoreEventOk
  infer_instance

instance (db : Db) (row : Event) : Decidable (GrantEventOk env db row) := by
  unfold GrantEventOk
  infer_instance

instance (db : Db) (row : Event) : Decidable (EnrolledEventOk env db row) := by
  unfold EnrolledEventOk
  infer_instance

/-- The check an event of an entity kind and code gets: `validate_challenge_event` and
    `validate_registry_event_row`. -/
def EventRowOk (db : Db) (row : Event) : Prop :=
  match row.entityKind, row.eventCode with
  | 8, _ => ChallengeEventOk env codec db row
  | 7, 15 => CleanupReadyEventOk env db row
  | 7, 16 => CleanupClaimedEventOk env db row
  | 7, 17 => CleanupDeletedEventOk env db row
  | 6, 10 | 6, 11 | 6, 12 | 6, 13 | 6, 14 => TransitionEventOk env db row
  | 4, 9 => StoreEventOk env db row
  | 10, 7 => GrantEventOk env db row
  | 4, 8 => EnrolledEventOk env db row
  | _, _ => False

instance (db : Db) (row : Event) : Decidable (EventRowOk env codec db row) := by
  unfold EventRowOk
  split <;> infer_instance

/-- The check of a row of the log by its place in it. -/
def LogRowOk (db : Db) (row : Event) : Prop :=
  match row.sequence with
  | 1 => row.Is env (bootstrapEvent db.metaRow.realmId 1 0 0x0101 db.metaRow.trustBundleSha256
      db.metaRow.createdAt)
  | 2 => ∃ at' ∈ db.metaRow.anchorConfirmedAt, row.Is env (bootstrapEvent db.metaRow.realmId 2
      0x0101 0x0102 db.metaRow.trustBundleSha256 at')
  | _ => EventRowOk env codec db row

instance (db : Db) (row : Event) : Decidable (LogRowOk env codec db row) := by
  unfold LogRowOk
  split <;> infer_instance

/-- `validate_events` in the ready state. -/
@[mk_iff]
structure LogOk (db : Db) : Prop where
  contiguous : db.events.map Event.sequence = (List.range db.events.length).map (· + 1)
  rows : ∀ e ∈ db.events, LogRowOk env codec db e
  bootstrapped : 2 ≤ db.events.length
  high_water : db.sequenceHighWater = db.events.length
  lifecycles : ∀ c ∈ db.challenges, LifecycleOk db c

instance (db : Db) : Decidable (LogOk env codec db) := decidable_of_iff' _ (logOk_iff env codec db)

end Kirje.Authority
