import Kirje.Authority.Effects

/-
  File:      Kirje/Authority/Bootstrap.lean
  Subject:   The bootstrap of an authority home: opening it, preparing its first
             snapshot and confirming the anchor (crates/kirje-store/src/authority.rs).

  A handle keeps the state it found when it was opened; what it does later it does on
  the file as it is then, under the apply lock.  The file is absent, holds nothing yet,
  or holds an authority database.  What the host answers during a call (the bytes drawn,
  whether the files could be secured after the commit) is an argument.

  * `Bootstrapped.prepared`, `Bootstrapped.confirmed`: what the two calls may leave of a
    bootstrapped database.
  * `one_realm_per_home`: one snapshot for a home, whatever the interleaving.
-/

namespace Kirje.Authority

open Base

variable (env : Platform) (codec : ManifestCodec)

/-! ## 1. Opening a home -/

/-- The file of the database, as `classify_database` tells it. -/
inductive Database where
  | absent
  | pristine
  | authority (db : Db)
  deriving DecidableEq, Repr

/-- `AuthorityOpenContext`; an anchor has the fields of the snapshot it anchors. -/
structure OpenContext where
  anchor : Option Snapshot
  journalLocationSha256 : Digest
  deriving DecidableEq, Repr

/-- `AuthorityOpenState`. -/
inductive OpenState where
  | unconfigured
  | bootstrapPending (s : Snapshot)
  | confirmationRequired (s : Snapshot)
  | ready (s : Snapshot)
  | recoveryRequired
  deriving DecidableEq, Repr

/-- An `AuthorityStore`. -/
structure Handle where
  context : OpenContext
  state : OpenState
  deriving DecidableEq, Repr

/-- `LoadedSnapshot`. -/
structure LoadedSnapshot where
  snapshot : Snapshot
  bootstrapState : BootstrapState
  lastObservedAt : Int
  deriving DecidableEq, Repr

/-- The history and the log of a database that awaits its anchor. -/
@[mk_iff]
structure PendingOk (db : Db) : Prop where
  authorizations : db.challenges = [] ∧ db.receipts = [] ∧ db.nonces = []
  registry : db.grants = [] ∧ db.stores = [] ∧ db.storeVersions = [] ∧ db.credentials = [] ∧
    db.accountVersions = []
  contiguous : db.events.map Event.sequence = [1]
  rows : ∀ e ∈ db.events, LogRowOk env codec db e
  high_water : db.sequenceHighWater = 1

instance (db : Db) : Decidable (PendingOk env codec db) :=
  decidable_of_iff' _ (pendingOk_iff env codec db)

/-- `validate_authorization_history` and `validate_events`, in either state. -/
def validateHistory (db : Db) (s : Snapshot) : Result Unit :=
  match db.metaRow.bootstrapState with
  | .pendingAnchor => ensure (PendingOk env codec db) recoveryError
  | .ready => ensure (HistoryOk env codec db s ∧ LogOk env codec db) recoveryError

/-- `load_snapshot`, with the schema and the staged rows checked before it. -/
def loadHome (db : Db) : Result LoadedSnapshot := do
  ensure (SchemaOk db) recoveryError
  ensure ((db.keys.filter fun k => k.state = .staged) = [] ∧
    (db.epochs.filter fun e => e.state = .staged) = []) recoveryError
  let s ← loadTrust env db
  validateHistory env codec db s
  pure ⟨s, db.metaRow.bootstrapState, db.metaRow.lastObservedAt⟩

/-- The open state of a loaded database. -/
def openedOn (context : OpenContext) (loaded : LoadedSnapshot) : OpenState :=
  if loaded.snapshot.journalLocationSha256 ≠ context.journalLocationSha256 then .recoveryRequired
  else match loaded.bootstrapState, context.anchor with
    | .pendingAnchor, none => .bootstrapPending loaded.snapshot
    | .pendingAnchor, some anchor =>
        if anchor = loaded.snapshot then .confirmationRequired loaded.snapshot
        else .recoveryRequired
    | .ready, some anchor =>
        if anchor = loaded.snapshot then .ready loaded.snapshot else .recoveryRequired
    | .ready, none => .recoveryRequired

/-- `inspect_home`. -/
def inspectHome (context : OpenContext) : Database → OpenState
  | .absent | .pristine => if context.anchor = none then .unconfigured else .recoveryRequired
  | .authority db =>
      match loadHome env codec db with
      | .ok loaded => openedOn context loaded
      | .error _ => .recoveryRequired

/-- `validate_open_context`. -/
def validateOpenContext (context : OpenContext) : Result Unit :=
  ensure (∀ anchor ∈ context.anchor, anchor.ownerPublicKey ≠ anchor.recoveryPublicKey)
    (malformed "owner and recovery public keys must be distinct")

/-- `open`. -/
def openHome (context : OpenContext) (database : Database) : Result Handle := do
  validateOpenContext context
  pure ⟨context, inspectHome env codec context database⟩

/-! ## 2. Preparing -/

/-- `BootstrapInput`; its keys are points of the curve that are not weak. -/
structure BootstrapInput where
  journalLocationSha256 : Digest
  ownerPublicKey : Digest
  recoveryPublicKey : Digest
  observedAt : Int
  owner_ok : ownerPublicKeyOk env ownerPublicKey.bytes
  recovery_ok : ownerPublicKeyOk env recoveryPublicKey.bytes

/-- What the host answers during a call: the identities drawn, and whether the files of the
    database could be secured after the commit. -/
structure Host where
  draw : Option (RealmId × JournalId)
  secured : Bool

variable {env} in
/-- `validate_bootstrap_input`, and what `prepare_bootstrap` asks of the handle. -/
def admitPrepare (handle : Handle) (input : BootstrapInput env) : Result Unit := do
  ensure (input.ownerPublicKey ≠ input.recoveryPublicKey)
    (malformed "owner and recovery public keys must be distinct")
  ensure (0 ≤ input.observedAt) (.invalid "authority observation time must be nonnegative")
  ensure (handle.state ≠ .recoveryRequired) recoveryError
  ensure (input.journalLocationSha256 = handle.context.journalLocationSha256) recoveryError

/-- The snapshot of drawn identities and two keys. -/
def snapshotFor (realmId : RealmId) (journalId : JournalId) (location ownerKey recoveryKey : Digest) :
    Snapshot :=
  let ownerId := ownerKeyId env .owner ownerKey.bytes
  let recoveryId := ownerKeyId env .recovery recoveryKey.bytes
  { realmId := realmId
    journalId := journalId
    minimumEpoch := ⟨1, Nat.one_pos, one_lt_u64⟩
    ownerKeyId := ownerId
    ownerPublicKey := ownerKey
    recoveryKeyId := recoveryId
    recoveryPublicKey := recoveryKey
    trustBundleSha256 := trustBundleDigest env realmId journalId ⟨1, Nat.one_pos, one_lt_u64⟩ ownerId
      ownerKey recoveryId recoveryKey
    journalLocationSha256 := location }

/-- `bootstrap_snapshot`. -/
def bootstrapSnapshot (host : Host) (input : BootstrapInput env) : Result Snapshot := do
  let (realmId, journalId) ← orRefuse host.draw
    (.stable .internal "secure authority entropy is unavailable")
  pure (snapshotFor env realmId journalId input.journalLocationSha256 input.ownerPublicKey
    input.recoveryPublicKey)

/-- The row of a first key. -/
def firstKey (keyId publicKey : Digest) (role : OwnerKeyRole) (mask : Nat) (at' : Int) : KeyRow where
  keyId := keyId
  role := role
  permissionMask := mask
  publicKey := publicKey
  state := .active
  validFromEpoch := 1
  validToEpoch := none
  installedAt := at'
  retiredAt := none

/-- The row of the first epoch. -/
def firstEpochRow (s : Snapshot) (at' : Int) : EpochRow where
  epoch := 1
  ownerKeyId := s.ownerKeyId
  recoveryKeyId := s.recoveryKeyId
  bundleSha256 := s.trustBundleSha256
  state := .active
  predecessorEpoch := none
  rotationKind := none
  transitionReceiptId := none
  newOwnerKeyProof := none
  newRecoveryKeyProof := none
  stagedAt := at'
  activatedAt := some at'
  retiredAt := none

/-- The two events of a bootstrap. -/
def createdEvent (s : Snapshot) (at' : Int) : EventSpec :=
  bootstrapEvent s.realmId 1 0 0x0101 s.trustBundleSha256 at'

def confirmedEvent (s : Snapshot) (at' : Int) : EventSpec :=
  bootstrapEvent s.realmId 2 0x0101 0x0102 s.trustBundleSha256 at'

/-- The rows `insert_bootstrap_rows` leaves in an empty schema. -/
def bootstrapRows (s : Snapshot) (at' : Int) : Db where
  metaRow :=
    { bootstrapState := .pendingAnchor
      journalId := s.journalId
      realmId := s.realmId
      journalLocationSha256 := s.journalLocationSha256
      activeEpoch := 1
      trustBundleSha256 := s.trustBundleSha256
      lastObservedAt := at'
      createdAt := at'
      updatedAt := at'
      anchorConfirmedAt := none }
  keys := [firstKey s.ownerKeyId s.ownerPublicKey .owner 7 at',
    firstKey s.recoveryKeyId s.recoveryPublicKey .recovery 8 at']
  epochs := [firstEpochRow s at']
  challenges := []
  receipts := []
  nonces := []
  grants := []
  stores := []
  storeVersions := []
  accounts := []
  accountVersions := []
  transitions := []
  credentials := []
  cleanups := []
  events := [(createdEvent s at').row env 1]
  sequenceHighWater := 1
  effectRows := 0

/-- The first bootstrap of a file that holds nothing. -/
def firstBootstrap (host : Host) (input : BootstrapInput env) : Result (Db × Snapshot) := do
  let s ← bootstrapSnapshot env host input
  let db ← written (bootstrapRows env s input.observedAt)
  pure (db, s)

/-- Whether the anchor of a context goes with a loaded database. -/
def contextMatches (loaded : LoadedSnapshot) : Option Snapshot → Bool
  | none => loaded.bootstrapState == .pendingAnchor
  | some anchor => anchor == loaded.snapshot

/-- Whether the state a handle was opened in goes with a loaded database. -/
def openedStateMatches (loaded : LoadedSnapshot) : OpenState → Bool
  | .unconfigured => true
  | .bootstrapPending s => loaded.bootstrapState == .pendingAnchor && s == loaded.snapshot
  | .confirmationRequired s => s == loaded.snapshot
  | .ready s => loaded.bootstrapState == .ready && s == loaded.snapshot
  | .recoveryRequired => false

/-- `observe_existing_bootstrap`. -/
def observeExistingBootstrap (db : Db) (last observed : Int) : Result Db := do
  let effective ← checkedClock last observed
  written { db with metaRow := { db.metaRow with
    lastObservedAt := effective
    updatedAt := max db.metaRow.updatedAt effective } }

variable {env} in
/-- `retry_existing_bootstrap`. -/
def retryExistingBootstrap (handle : Handle) (input : BootstrapInput env) (db : Db) :
    Result (Db × Snapshot) := do
  let loaded ← loadHome env codec db
  ensure (contextMatches loaded handle.context.anchor ∧ openedStateMatches loaded handle.state ∧
      loaded.snapshot.journalLocationSha256 = handle.context.journalLocationSha256 ∧
      loaded.snapshot.ownerPublicKey = input.ownerPublicKey ∧
      loaded.snapshot.recoveryPublicKey = input.recoveryPublicKey ∧
      loaded.snapshot.journalLocationSha256 = input.journalLocationSha256)
    recoveryError
  let db ← observeExistingBootstrap db loaded.lastObservedAt input.observedAt
  pure (db, loaded.snapshot)

/-- The file after a call and what the call replies; the files are secured after the commit. -/
def commitBootstrap (secured : Bool) (database : Database) :
    Result (Db × Snapshot) → Database × Result Snapshot
  | .error e => (database, .error e)
  | .ok (db, s) => (.authority db, if secured then .ok s else .error storeWriteError)

variable {env} in
/-- `prepare_bootstrap` of an admitted input; the file is created before the transaction. -/
def prepareOn (host : Host) (handle : Handle) (input : BootstrapInput env) :
    Database → Database × Result Snapshot
  | .authority db =>
      commitBootstrap host.secured (.authority db) (retryExistingBootstrap codec handle input db)
  | .absent =>
      if handle.state = .unconfigured then
        commitBootstrap host.secured .pristine (firstBootstrap env host input)
      else (.absent, .error recoveryError)
  | .pristine =>
      if handle.state = .unconfigured then
        commitBootstrap host.secured .pristine (firstBootstrap env host input)
      else (.pristine, .error recoveryError)

variable {env} in
/-- `prepare_bootstrap`. -/
def prepareBootstrap (host : Host) (handle : Handle) (input : BootstrapInput env)
    (database : Database) : Database × Result Snapshot :=
  match admitPrepare handle input with
  | .error e => (database, .error e)
  | .ok () => prepareOn codec host handle input database

/-! ## 3. Confirming -/

/-- The snapshot a handle was opened to confirm, with the anchor it was opened with. -/
def openedSnapshot (handle : Handle) (anchor : Snapshot) : Option Snapshot :=
  match handle.state, handle.context.anchor with
  | .confirmationRequired s, some opened =>
      if anchor = opened ∧ opened = s then some s else none
  | _, _ => none

/-- The update of the meta row of a confirmation. -/
def Db.confirmedAt (db : Db) (at' : Int) : Db :=
  { db with metaRow := { db.metaRow with
    bootstrapState := .ready
    lastObservedAt := at'
    updatedAt := at'
    anchorConfirmedAt := some at' } }

/-- The confirmation of a database. -/
def confirmDb (handle : Handle) (opened anchor : Snapshot) (observed : Int) (db : Db) :
    Result (Db × Snapshot) := do
  let loaded ← loadHome env codec db
  ensure (loaded.bootstrapState = .pendingAnchor ∧ loaded.snapshot = opened ∧
      anchor = loaded.snapshot ∧
      anchor.journalLocationSha256 = handle.context.journalLocationSha256)
    recoveryError
  let effective ← checkedClock loaded.lastObservedAt observed
  let db ← written (db.confirmedAt effective)
  let db ← insertTypedEvent env db (confirmedEvent loaded.snapshot effective)
  pure (db, loaded.snapshot)

/-- `confirm_anchor` up to the database. -/
def admitConfirm (handle : Handle) (anchor : Snapshot) (observed : Int) : Result Snapshot := do
  ensure (0 ≤ observed) (.invalid "authority observation time must be nonnegative")
  orRefuse (openedSnapshot handle anchor) recoveryError

/-- `confirm_anchor`. -/
def confirmAnchor (secured : Bool) (handle : Handle) (anchor : Snapshot) (observed : Int)
    (database : Database) : Database × Result Snapshot :=
  match admitConfirm handle anchor observed, database with
  | .error e, _ => (database, .error e)
  | .ok opened, .authority db =>
      commitBootstrap secured database (confirmDb env codec handle opened anchor observed db)
  | .ok _, _ => (database, .error recoveryError)

/-! ## 4. Bootstrapped databases -/

/-- The rows of a bootstrap, last observed at a time, and confirmed if it was. -/
def bootstrapped (s : Snapshot) (created last : Int) : Option Int → Db
  | none => (bootstrapRows env s created).clocked last
  | some at' =>
      let pending := (bootstrapRows env s created).clocked last
      { pending with
        metaRow := { pending.metaRow with
          bootstrapState := .ready
          anchorConfirmedAt := some at' }
        events := pending.events ++ [(confirmedEvent s at').row env 2]
        sequenceHighWater := 2 }

/-- A snapshot as `bootstrap_snapshot` makes it, with two keys that the schema can hold. -/
structure Formed (s : Snapshot) : Prop where
  drawn : s = snapshotFor env s.realmId s.journalId s.journalLocationSha256 s.ownerPublicKey
    s.recoveryPublicKey
  public_keys : ownerPublicKeyOk env s.ownerPublicKey.bytes ∧
    ownerPublicKeyOk env s.recoveryPublicKey.bytes ∧ s.ownerPublicKey ≠ s.recoveryPublicKey
  key_ids : s.ownerKeyId ≠ s.recoveryKeyId

/-- **The database of a bootstrapped home**: the rows of one snapshot and nothing else. -/
structure Bootstrapped (s : Snapshot) (db : Db) : Prop where
  formed : Formed env s
  rows : ∃ created last confirmed, db = bootstrapped env s created last confirmed ∧ 0 ≤ created ∧
    created ≤ last ∧ ∀ at' ∈ confirmed, created ≤ at' ∧ at' ≤ last

theorem bootstrapped_metaRow (s : Snapshot) (created last : Int) (confirmed : Option Int) :
    (bootstrapped env s created last confirmed).metaRow =
      { journalId := s.journalId
        realmId := s.realmId
        journalLocationSha256 := s.journalLocationSha256
        activeEpoch := 1
        trustBundleSha256 := s.trustBundleSha256
        lastObservedAt := last
        createdAt := created
        updatedAt := last
        bootstrapState := if confirmed.isSome then .ready else .pendingAnchor
        anchorConfirmedAt := confirmed } := by
  cases confirmed <;> rfl

theorem bootstrapped_trust (s : Snapshot) (created last : Int) (confirmed : Option Int) :
    (bootstrapped env s created last confirmed).keys =
        [firstKey s.ownerKeyId s.ownerPublicKey .owner 7 created,
          firstKey s.recoveryKeyId s.recoveryPublicKey .recovery 8 created] ∧
      (bootstrapped env s created last confirmed).epochs = [firstEpochRow s created] ∧
      (bootstrapped env s created last confirmed).effectRows = 0 := by
  cases confirmed <;> exact ⟨rfl, rfl, rfl⟩

variable {env codec} {s x : Snapshot} {db db' : Db}

/-- **A bootstrapped database loads as its snapshot.** -/
theorem Bootstrapped.loadTrust (h : Bootstrapped env s db) : loadTrust env db = .ok s := by
  obtain ⟨hf, created, last, confirmed, rfl, h0, hle, hconf⟩ := h
  obtain ⟨hkeys, hepochs, heffects⟩ := bootstrapped_trust env s created last confirmed
  have hmeta := bootstrapped_metaRow env s created last confirmed
  have hdrawn := hf.drawn
  simp only [Authority.loadTrust, hkeys, hepochs, hmeta, bind_ok, orRefuse_ok, ensure_ok, pure_ok]
  refine ⟨firstEpochRow s created, by simp [firstEpochRow],
    firstKey s.ownerKeyId s.ownerPublicKey .owner 7 created, by simp [firstEpochRow, firstKey],
    firstKey s.recoveryKeyId s.recoveryPublicKey .recovery 8 created,
    by simp [firstEpochRow, firstKey, hf.key_ids], (), ?_, ?_⟩
  · rw [trustOk_iff, hmeta]
    refine ⟨⟨by rw [hkeys]; rfl, by rw [hepochs]; rfl, heffects⟩, rfl, ?_, ?_, ?_,
      ⟨h0, hle, rfl⟩, hconf, hf.public_keys, ?_, ?_⟩
    · exact ⟨rfl, rfl, rfl, rfl, rfl, rfl, rfl, rfl, rfl⟩
    · exact ⟨rfl, rfl, rfl, rfl, rfl, rfl, rfl⟩
    · exact ⟨rfl, rfl, rfl, rfl, rfl, rfl, rfl⟩
    · rw [hdrawn]
      exact ⟨rfl, rfl⟩
    · rw [hdrawn]
      exact ⟨rfl, rfl⟩
  · rw [hdrawn]
    rfl

/-- What loads from a bootstrapped database. -/
theorem Bootstrapped.loads (h : Bootstrapped env s db) {loaded : LoadedSnapshot}
    (hl : loadHome env codec db = .ok loaded) :
    loaded = ⟨s, db.metaRow.bootstrapState, db.metaRow.lastObservedAt⟩ := by
  simp only [loadHome, bind_ok, ensure_ok, pure_ok, h.loadTrust] at hl
  obtain ⟨_, _, _, _, s', hs, _, _, rfl⟩ := hl
  cases hs
  rfl

/-- A confirmed home is ready, and only that. -/
theorem bootstrapped_ready (s : Snapshot) (created last : Int) (confirmed : Option Int) :
    (bootstrapped env s created last confirmed).metaRow.bootstrapState = .ready ↔
      confirmed.isSome := by
  rw [bootstrapped_metaRow]
  cases confirmed <;> simp

/-- The two events of a bootstrap, as far as it got. -/
theorem bootstrapped_events (s : Snapshot) (created last : Int) (confirmed : Option Int) :
    (bootstrapped env s created last confirmed).events =
      (createdEvent s created).row env 1 ::
        (confirmed.toList.map fun at' => (confirmedEvent s at').row env 2) := by
  cases confirmed <;> rfl

/-- **A first bootstrap leaves the rows of the snapshot it returns.** -/
theorem firstBootstrap_ok {host : Host} {handle : Handle} {input : BootstrapInput env}
    (ha : admitPrepare handle input = .ok ()) (h : firstBootstrap env host input = .ok (db, s)) :
    Bootstrapped env s db ∧ db.metaRow.bootstrapState = .pendingAnchor := by
  simp only [admitPrepare, bind_ok, ensure_ok] at ha
  obtain ⟨_, hne, _, hat, _, _, _⟩ := ha
  simp only [firstBootstrap, bootstrapSnapshot, bind_ok, orRefuse_ok, written_ok, pure_ok,
    Prod.mk.injEq] at h
  obtain ⟨s', ⟨⟨realmId, journalId⟩, _, rfl⟩, db', ⟨hschema, rfl⟩, rfl, rfl⟩ := h
  have hids := hschema.tables.keys.id_unique
  refine ⟨⟨⟨rfl, ⟨input.owner_ok, input.recovery_ok, hne⟩, ?_⟩, input.observedAt, input.observedAt,
    none, rfl, hat, Int.le_refl _, ?_⟩, rfl⟩
  · simpa [bootstrapRows, firstKey] using hids
  · intro at' h
    cases h

/-- **A repeated preparation moves the clock of the same snapshot.** -/
theorem Bootstrapped.retried (h : Bootstrapped env s db) {handle : Handle}
    {input : BootstrapInput env} (hr : retryExistingBootstrap codec handle input db = .ok (db', x)) :
    x = s ∧ Bootstrapped env s db' ∧ db'.metaRow.bootstrapState = db.metaRow.bootstrapState ∧
      db'.events = db.events := by
  simp only [retryExistingBootstrap, bind_ok, ensure_ok, observeExistingBootstrap, checkedClock,
    written_ok, pure_ok, Prod.mk.injEq] at hr
  obtain ⟨loaded, hl, _, _, db₁, ⟨at', ⟨_, _, rfl⟩, _, rfl⟩, rfl, rfl⟩ := hr
  have hloaded := h.loads hl
  subst hloaded
  refine ⟨rfl, ⟨h.formed, ?_⟩, rfl, rfl⟩
  obtain ⟨created, last, confirmed, rfl, h0, hle, hconf⟩ := h.rows
  refine ⟨created, max last input.observedAt, confirmed, ?_, h0, by omega, ?_⟩
  · cases confirmed <;> simp [bootstrapped, Db.clocked, bootstrapRows]
  · intro at' ha
    have := hconf at' ha
    omega

/-- **A confirmation makes the snapshot ready**, and its anchor is the snapshot's. -/
theorem Bootstrapped.confirmed (h : Bootstrapped env s db) {handle : Handle}
    {opened anchor : Snapshot} {observed : Int}
    (hc : confirmDb env codec handle opened anchor observed db = .ok (db', x)) :
    x = s ∧ anchor = s ∧ Bootstrapped env s db' ∧
      db.metaRow.bootstrapState = .pendingAnchor ∧ db'.metaRow.bootstrapState = .ready := by
  simp only [confirmDb, bind_ok, ensure_ok, checkedClock, written_ok, insertTypedEvent_ok, pure_ok,
    Prod.mk.injEq] at hc
  obtain ⟨loaded, hl, _, ⟨hpending, _, hanchor, _⟩, at', ⟨_, _, rfl⟩, _, ⟨_, rfl⟩, _, ⟨_, rfl⟩, rfl,
    rfl⟩ := hc
  have hloaded := h.loads hl
  subst hloaded
  refine ⟨rfl, hanchor, ⟨h.formed, ?_⟩, hpending, rfl⟩
  obtain ⟨created, last, confirmed, rfl, h0, hle, hconf⟩ := h.rows
  cases confirmed with
  | some at' => cases hpending
  | none =>
      refine ⟨created, max last observed, some (max last observed), rfl, h0, by omega, ?_⟩
      intro at' ha
      cases ha
      omega

/-! ## 5. One home, many processes -/

/-- A home: its file, and the handles opened on it so far. -/
structure Home where
  database : Database
  handles : List Handle

/-- What a process does next.  A call that dies before its commit leaves at most the empty file
    (`creates`); one that dies after it loses its reply only, as one that cannot secure the files. -/
inductive HomeMove (env : Platform) where
  | opens (context : OpenContext)
  | prepares (n : Nat) (host : Host) (input : BootstrapInput env)
  | confirms (n : Nat) (secured : Bool) (anchor : Snapshot) (observed : Int)
  | creates (n : Nat) (input : BootstrapInput env)

/-- The file a preparation creates. -/
def createFile (handle : Handle) (input : BootstrapInput env) : Database → Database
  | .absent =>
      if admitPrepare handle input = .ok () ∧ handle.state = .unconfigured then .pristine
      else .absent
  | database => database

variable (codec) in
/-- A move, and what the call replies if it is one. -/
def homeStep (home : Home) : HomeMove env → Home × Option (Result Snapshot)
  | .opens context =>
      match openHome env codec context home.database with
      | .ok handle => ({ home with handles := home.handles ++ [handle] }, none)
      | .error _ => (home, none)
  | .prepares n host input =>
      match home.handles[n]? with
      | some handle =>
          let done := prepareBootstrap codec host handle input home.database
          ({ home with database := done.1 }, some done.2)
      | none => (home, none)
  | .confirms n secured anchor observed =>
      match home.handles[n]? with
      | some handle =>
          let done := confirmAnchor env codec secured handle anchor observed home.database
          ({ home with database := done.1 }, some done.2)
      | none => (home, none)
  | .creates n input =>
      match home.handles[n]? with
      | some handle => ({ home with database := createFile handle input home.database }, none)
      | none => (home, none)

variable (codec) in
/-- The home after moves. -/
def homeAfter (start : Home) (moves : List (HomeMove env)) : Home :=
  moves.foldl (fun home m => (homeStep codec home m).1) start

/-- **The file of a home**: no database yet, or the database of one snapshot. -/
def Database.Sound (env : Platform) (d : Database) : Prop :=
  d = .absent ∨ d = .pristine ∨ ∃ s db, d = .authority db ∧ Bootstrapped env s db

def Database.Ready (d : Database) : Prop :=
  ∃ db, d = .authority db ∧ db.metaRow.bootstrapState = .ready

instance (d : Database) : Decidable d.Ready :=
  match d with
  | .absent | .pristine => isFalse fun ⟨_, h, _⟩ => by cases h
  | .authority db => decidable_of_iff (db.metaRow.bootstrapState = .ready)
      ⟨fun h => ⟨db, rfl, h⟩, fun ⟨_, h, hr⟩ => by cases h; exact hr⟩

/-- The file holds the database of the snapshot. -/
def Database.Holds (env : Platform) (s : Snapshot) (d : Database) : Prop :=
  ∃ db, d = .authority db ∧ Bootstrapped env s db

/-- **What a move may do to the file**, with the reply it gives. -/
inductive FileMove (m : HomeMove env) (reply : Option (Result Snapshot)) :
    Database → Database → Prop where
  | same {d : Database} (hr : ∀ x, reply ≠ some (.ok x)) : FileMove m reply d d
  | created (hr : ∀ x, reply ≠ some (.ok x)) : FileMove m reply .absent .pristine
  | first {d : Database} {s : Snapshot} {db : Db} (hd : d = .absent ∨ d = .pristine)
      (hdb : Bootstrapped env s db) (hst : db.metaRow.bootstrapState = .pendingAnchor)
      (hr : ∀ x, reply = some (.ok x) → x = s) : FileMove m reply d (.authority db)
  | again {s : Snapshot} {db db' : Db} (hdb : Bootstrapped env s db)
      (hdb' : Bootstrapped env s db')
      (hst : db'.metaRow.bootstrapState = db.metaRow.bootstrapState)
      (hr : ∀ x, reply = some (.ok x) → x = s) : FileMove m reply (.authority db) (.authority db')
  | confirmed {s : Snapshot} {db db' : Db} {i : Nat} {secured : Bool} {observed : Int}
      (hm : m = .confirms i secured s observed) (hdb : Bootstrapped env s db)
      (hdb' : Bootstrapped env s db') (hst : db.metaRow.bootstrapState = .pendingAnchor)
      (hst' : db'.metaRow.bootstrapState = .ready)
      (hr : ∀ x, reply = some (.ok x) → x = s) : FileMove m reply (.authority db) (.authority db')

theorem FileMove.refused {m : HomeMove env} {d : Database} {e : MailError} :
    FileMove m (some (.error e)) d d := .same fun x hx => by cases hx

theorem FileMove.silent {m : HomeMove env} {d : Database} : FileMove m none d d :=
  .same fun x hx => by cases hx

/-- The reply of a commit that could not secure the files is not one of the snapshot. -/
theorem secured_reply {secured : Bool} {s : Snapshot} (x : Snapshot)
    (h : some (if secured then (.ok s : Result Snapshot) else .error storeWriteError) =
      some (.ok x)) : x = s := by
  cases secured <;> simp_all

theorem fileMove_first {m : HomeMove env} {host : Host} {handle : Handle}
    {input : BootstrapInput env} {d : Database} (hd : d = .absent ∨ d = .pristine)
    (ha : admitPrepare handle input = .ok ()) :
    FileMove m (some (commitBootstrap host.secured .pristine (firstBootstrap env host input)).2) d
      (commitBootstrap host.secured .pristine (firstBootstrap env host input)).1 := by
  cases hf : firstBootstrap env host input with
  | error e =>
      rcases hd with rfl | rfl
      · exact .created fun x hx => by cases hx
      · exact .refused
  | ok done =>
      obtain ⟨db, s⟩ := done
      obtain ⟨hdb, hst⟩ := firstBootstrap_ok ha hf
      exact .first hd hdb hst secured_reply

theorem prepareBootstrap_moves {m : HomeMove env} {host : Host} {handle : Handle}
    {input : BootstrapInput env} {d : Database} (hd : d.Sound env) :
    FileMove m (some (prepareBootstrap codec host handle input d).2) d
      (prepareBootstrap codec host handle input d).1 := by
  unfold prepareBootstrap
  cases ha : admitPrepare handle input with
  | error e => exact .refused
  | ok u =>
      cases d with
      | absent =>
          by_cases hst : handle.state = .unconfigured
          · simpa only [prepareOn, hst, if_true] using fileMove_first (.inl rfl) ha
          · simp only [prepareOn, hst, if_false]
            exact .refused
      | pristine =>
          by_cases hst : handle.state = .unconfigured
          · simpa only [prepareOn, hst, if_true] using fileMove_first (.inr rfl) ha
          · simp only [prepareOn, hst, if_false]
            exact .refused
      | authority db =>
          obtain h | h | ⟨s, db₁, h, hdb⟩ := hd
          · cases h
          · cases h
          · cases h
            simp only [prepareOn]
            cases hr : retryExistingBootstrap codec handle input db with
            | error e => exact .refused
            | ok done =>
                obtain ⟨db', x⟩ := done
                obtain ⟨rfl, hdb', hst, _⟩ := hdb.retried hr
                exact .again hdb hdb' hst secured_reply

/-- A handle confirms only the anchor it was opened with. -/
theorem confirmAnchor_moves {n : Nat} {secured : Bool} {anchor : Snapshot} {observed : Int}
    {handle : Handle} {d : Database} (hd : d.Sound env) :
    FileMove (.confirms n secured anchor observed : HomeMove env)
      (some (confirmAnchor env codec secured handle anchor observed d).2) d
      (confirmAnchor env codec secured handle anchor observed d).1 := by
  unfold confirmAnchor
  cases ha : admitConfirm handle anchor observed with
  | error e => exact .refused
  | ok opened =>
      obtain rfl | rfl | ⟨s, db, rfl, hdb⟩ := hd
      · exact .refused
      · exact .refused
      · cases hc : confirmDb env codec handle opened anchor observed db with
        | error e =>
            simp only [commitBootstrap, hc]
            exact .refused
        | ok done =>
            obtain ⟨db', x⟩ := done
            obtain ⟨rfl, rfl, hdb', hst, hst'⟩ := hdb.confirmed hc
            simp only [commitBootstrap, hc]
            exact .confirmed rfl hdb hdb' hst hst' secured_reply

variable (codec) in
/-- **Every move on a sound file is one of the five.** -/
theorem homeStep_moves (home : Home) (m : HomeMove env) (hd : home.database.Sound env) :
    FileMove m (homeStep codec home m).2 home.database (homeStep codec home m).1.database := by
  cases m with
  | opens context =>
      simp only [homeStep]
      split
      · exact .silent
      · exact .silent
  | prepares n host input =>
      simp only [homeStep]
      split
      · exact prepareBootstrap_moves hd
      · exact .silent
  | confirms n secured anchor observed =>
      simp only [homeStep]
      split
      · exact confirmAnchor_moves hd
      · exact .silent
  | creates n input =>
      simp only [homeStep]
      split
      · unfold createFile
        split
        next heq =>
          rw [heq]
          split
          · exact .created fun x hx => by cases hx
          · exact .silent
        next => exact .silent
      · exact .silent

/-! ## 6. What a run keeps -/

section Moves

variable {m : HomeMove env} {reply : Option (Result Snapshot)} {d d' : Database}

theorem FileMove.sound (h : FileMove m reply d d') (hd : d.Sound env) : d'.Sound env := by
  cases h with
  | same => exact hd
  | created => exact .inr (.inl rfl)
  | first _ hdb => exact .inr (.inr ⟨_, _, rfl, hdb⟩)
  | again _ hdb' => exact .inr (.inr ⟨_, _, rfl, hdb'⟩)
  | confirmed _ _ hdb' => exact .inr (.inr ⟨_, _, rfl, hdb'⟩)

/-- A database is the database of one snapshot at most. -/
theorem Bootstrapped.unique (h : Bootstrapped env s db) (h' : Bootstrapped env x db) : s = x := by
  have := h.loadTrust.symm.trans h'.loadTrust
  cases this
  rfl

theorem FileMove.holds (h : FileMove m reply d d') (hd : d.Holds env s) : d'.Holds env s := by
  obtain ⟨db₀, rfl, hdb₀⟩ := hd
  cases h with
  | same => exact ⟨db₀, rfl, hdb₀⟩
  | first hfresh => rcases hfresh with hfresh | hfresh <;> cases hfresh
  | again hdb hdb' =>
      obtain rfl := hdb₀.unique hdb
      exact ⟨_, rfl, hdb'⟩
  | confirmed _ hdb hdb' =>
      obtain rfl := hdb₀.unique hdb
      exact ⟨_, rfl, hdb'⟩

/-- **What a call returns is what the file then holds.** -/
theorem FileMove.returned (h : FileMove m (some (.ok x)) d d') : d'.Holds env x := by
  cases h with
  | same hr => exact absurd rfl (hr x)
  | created hr => exact absurd rfl (hr x)
  | first _ hdb _ hr =>
      obtain rfl := hr x rfl
      exact ⟨_, rfl, hdb⟩
  | again _ hdb' _ hr =>
      obtain rfl := hr x rfl
      exact ⟨_, rfl, hdb'⟩
  | confirmed _ _ hdb' _ _ hr =>
      obtain rfl := hr x rfl
      exact ⟨_, rfl, hdb'⟩

theorem FileMove.ready (h : FileMove m reply d d') (hd : d.Ready) : d'.Ready := by
  obtain ⟨db₀, rfl, hready⟩ := hd
  cases h with
  | same => exact ⟨db₀, rfl, hready⟩
  | first hfresh => rcases hfresh with hfresh | hfresh <;> cases hfresh
  | again _ _ hst => exact ⟨_, rfl, hst.trans hready⟩
  | confirmed _ _ _ _ hst' => exact ⟨_, rfl, hst'⟩

/-- **Only a confirmation of the anchor of the snapshot makes a home ready.** -/
theorem FileMove.becomes_ready (h : FileMove m reply d d') (hd : ¬d.Ready) (hd' : d'.Ready) :
    ∃ i secured anchor observed, m = .confirms i secured anchor observed ∧
      d'.Holds env anchor := by
  obtain ⟨db₀, hdb₀, hready⟩ := hd'
  cases h with
  | same => exact absurd ⟨db₀, hdb₀, hready⟩ hd
  | created => cases hdb₀
  | first _ _ hst =>
      cases hdb₀
      exact absurd (hst.symm.trans hready) (by decide)
  | again _ _ hst =>
      cases hdb₀
      exact absurd ⟨_, rfl, hst.symm.trans hready⟩ hd
  | confirmed hm _ hdb' => exact ⟨_, _, _, _, hm, _, rfl, hdb'⟩

end Moves

/-- **What every move keeps of a sound file, a run keeps.** -/
theorem homeAfter_keeps {P : Database → Prop}
    (hstep : ∀ (m : HomeMove env) reply d d', FileMove m reply d d' → P d → P d')
    (moves : List (HomeMove env)) (home : Home) (hd : home.database.Sound env)
    (hp : P home.database) : (homeAfter codec home moves).database.Sound env ∧
      P (homeAfter codec home moves).database := by
  induction moves generalizing home with
  | nil => exact ⟨hd, hp⟩
  | cons m moves ih =>
      have hm := homeStep_moves codec home m hd
      exact ih _ (hm.sound hd) (hstep m _ _ _ hm hp)

theorem homeAfter_append (home : Home) (l₁ l₂ : List (HomeMove env)) :
    homeAfter codec home (l₁ ++ l₂) = homeAfter codec (homeAfter codec home l₁) l₂ :=
  List.foldl_append

/-- What the database of a snapshot holds: its trust, and the log of its bootstrap. -/
structure RealmOf (env : Platform) (s : Snapshot) (db : Db) : Prop where
  trust : loadTrust env db = .ok s
  ready : db.metaRow.bootstrapState = .ready ↔ db.metaRow.anchorConfirmedAt.isSome
  log : db.events = (createdEvent s db.metaRow.createdAt).row env 1 ::
    (db.metaRow.anchorConfirmedAt.toList.map fun at' => (confirmedEvent s at').row env 2)

theorem Bootstrapped.realmOf (h : Bootstrapped env s db) : RealmOf env s db := by
  refine ⟨h.loadTrust, ?_, ?_⟩
  all_goals obtain ⟨created, last, confirmed, rfl, -, -, -⟩ := h.rows
  · rw [bootstrapped_ready, bootstrapped_metaRow]
  · rw [bootstrapped_events, bootstrapped_metaRow]

section Run

variable (codec) (start : Database) (moves : List (HomeMove env))

/-- The home after the first moves of a run. -/
def homeAt (n : Nat) : Home := homeAfter codec ⟨start, []⟩ (moves.take n)

variable {codec start moves}

theorem homeAt_succ {n : Nat} {m : HomeMove env} (hm : moves[n]? = some m) :
    homeAt codec start moves (n + 1) = (homeStep codec (homeAt codec start moves n) m).1 := by
  rw [homeAt, List.take_add_one, hm, homeAfter_append]
  rfl

variable (codec moves) in
theorem homeAt_sound (hs : start = .absent ∨ start = .pristine) (n : Nat) :
    (homeAt codec start moves n).database.Sound env := by
  have hd : start.Sound env := hs.imp id .inl
  exact (homeAfter_keeps (P := fun _ => True) (fun _ _ _ _ _ h => h) _ ⟨start, []⟩ hd trivial).1

theorem homeAt_keeps (hs : start = .absent ∨ start = .pristine) {P : Database → Prop}
    (hstep : ∀ (m : HomeMove env) reply d d', FileMove m reply d d' → P d → P d') {n k : Nat}
    (hnk : n ≤ k) (hp : P (homeAt codec start moves n).database) :
    P (homeAt codec start moves k).database := by
  have hsplit : moves.take k = moves.take n ++ (moves.take k).drop n := by
    have hsplit := List.take_append_drop n (moves.take k)
    rw [List.take_take, Nat.min_eq_left hnk] at hsplit
    exact hsplit.symm
  rw [homeAt, hsplit, homeAfter_append]
  exact (homeAfter_keeps hstep _ _ (homeAt_sound codec moves hs n) hp).2

theorem Database.Holds.unique {d : Database} (h : d.Holds env s) (h' : d.Holds env x) : s = x := by
  obtain ⟨db, rfl, hdb⟩ := h
  obtain ⟨db', heq, hdb'⟩ := h'
  cases heq
  exact hdb.unique hdb'

/-- **The snapshot a file holds, it holds at any other time it holds one.** -/
theorem homeAt_one (hs : start = .absent ∨ start = .pristine) {n k : Nat}
    (hn : (homeAt codec start moves n).database.Holds env s)
    (hk : (homeAt codec start moves k).database.Holds env x) : s = x := by
  rcases Nat.le_total n k with hle | hle
  · exact (homeAt_keeps hs (fun _ _ _ _ h hd => h.holds hd) hle hn).unique hk
  · exact hn.unique (homeAt_keeps hs (fun _ _ _ _ h hd => h.holds hd) hle hk)

variable (codec moves) in
/-- The snapshot of a whole run. -/
theorem exists_committed (hs : start = .absent ∨ start = .pristine) : ∃ committed : Option Snapshot,
    ∀ n s, (homeAt codec start moves n).database.Holds env s → committed = some s := by
  by_cases h : ∃ n s, (homeAt codec start moves n).database.Holds env s
  · obtain ⟨n, s, hn⟩ := h
    exact ⟨some s, fun k x hk => congrArg some (homeAt_one hs hn hk)⟩
  · exact ⟨none, fun n s hn => absurd ⟨n, s, hn⟩ h⟩

/-- **One realm per home.**  Whatever processes open the home, prepare and confirm on it, in
    whatever order and with whatever crashes, there is at most one snapshot that
    - every database the file ever holds is of, with exactly one created event in its log and one
      confirmed event exactly when it is ready,
    - every call that succeeds returns,
    - and is the anchor of the one confirmation that makes the home ready, which it then stays. -/
theorem one_realm_per_home (codec : ManifestCodec) (start : Database) (hs : start = .absent ∨ start = .pristine)
    (moves : List (HomeMove env)) : ∃ committed : Option Snapshot,
    (∀ n db, (homeAt codec start moves n).database = .authority db →
      ∃ s, committed = some s ∧ RealmOf env s db) ∧
    (∀ n m x, moves[n]? = some m →
      (homeStep codec (homeAt codec start moves n) m).2 = some (.ok x) → committed = some x) ∧
    (∀ n m, moves[n]? = some m → ¬(homeAt codec start moves n).database.Ready →
      (homeAt codec start moves (n + 1)).database.Ready →
      ∃ i secured anchor observed, m = .confirms i secured anchor observed ∧
        committed = some anchor) ∧
    ∀ n k, n ≤ k → (homeAt codec start moves n).database.Ready →
      (homeAt codec start moves k).database.Ready := by
  have hmove : ∀ n m, moves[n]? = some m → FileMove m
      (homeStep codec (homeAt codec start moves n) m).2 (homeAt codec start moves n).database
      (homeAt codec start moves (n + 1)).database := by
    intro n m hm
    rw [homeAt_succ hm]
    exact homeStep_moves codec _ m (homeAt_sound codec moves hs n)
  obtain ⟨committed, hcommitted⟩ := exists_committed codec moves hs
  refine ⟨committed, ?_, ?_, ?_, ?_⟩
  · intro n db hdb
    obtain h | h | ⟨s, db', h, hb⟩ := homeAt_sound codec moves hs n
    · cases hdb.symm.trans h
    · cases hdb.symm.trans h
    · cases hdb.symm.trans h
      exact ⟨s, hcommitted n s ⟨db, hdb, hb⟩, hb.realmOf⟩
  · intro n m x hm hreply
    have h := hmove n m hm
    rw [hreply] at h
    exact hcommitted _ x h.returned
  · intro n m hm hnot hready
    obtain ⟨i, secured, anchor, observed, hmv, hholds⟩ := (hmove n m hm).becomes_ready hnot hready
    exact ⟨i, secured, anchor, observed, hmv, hcommitted _ anchor hholds⟩
  · intro n k hnk hready
    exact homeAt_keeps hs (fun _ _ _ _ h hd => h.ready hd) hnk hready

end Run

/-! ## 7. A run of three processes -/

namespace Sample

/-- A checksum in the place of the digest. -/
def checksum (bs : Bytes) : Nat :=
  bs.foldl (fun a b => (a * 257 + b.toNat + 1) % (2 ^ 251 + 9)) 1

def digest (n : Nat) : Digest := ⟨be 32 n, length_digest n⟩

def noJson {α : Type} : Json α := ⟨fun _ => none, fun _ => none⟩

/-- A platform whose signatures are checksums. -/
def platform : Platform where
  sha256 bs := digest (checksum bs)
  isPoint _ := true
  isWeak _ := false
  verifyStrict key payload signature := ofBe signature == checksum (key ++ payload)
  parseIpv4 _ := none
  parseIpv6 _ := none
  mail :=
    { payloadDigest := fun _ => ""
      bytesDigest := fun _ => ""
      timestamp := fun _ => ""
      parseTimestamp := fun _ => none
      parseUuid := fun _ => false
      sendRequest := noJson
      mailOperation := noJson
      mailError := noJson
      sendReceipt := noJson
      mailReceipt := noJson
      base64 := fun _ => none
      utf8 := fun _ => none
      parseIpAddr := fun _ => false }

def noCodec : ManifestCodec := ⟨fun _ _ => .error recoveryError, fun _ => .error recoveryError⟩

/-- The identifier of a number. -/
def uuid (n : Nat) : Uuid :=
  ⟨be 6 (n / 256) ++ [0x40] ++ be 8 0 ++ [UInt8.ofNat n], by simp, by simp [List.getD]⟩

def input (at' : Int) : BootstrapInput platform :=
  ⟨digest 1, digest 2, digest 3, at', rfl, rfl⟩

/-- The snapshot the first process commits. -/
def realm : Snapshot := snapshotFor platform (digest 10) (uuid 11) (digest 1) (digest 2) (digest 3)

/-- Two processes open an empty home and prepare it with identities of their own; a third opens it
    with the anchor and confirms; the first prepares again. -/
def moves : List (HomeMove platform) :=
  [.opens ⟨none, digest 1⟩, .opens ⟨none, digest 1⟩,
    .prepares 0 ⟨some (digest 10, uuid 11), true⟩ (input 5),
    .prepares 1 ⟨some (digest 20, uuid 21), true⟩ (input 7),
    .opens ⟨some realm, digest 1⟩, .confirms 2 true realm 6,
    .prepares 2 ⟨none, true⟩ (input 9)]

/-- What the calls of the run reply. -/
def replies : List (Option (Result Snapshot)) :=
  moves.zipIdx.map fun (m, n) => (homeStep noCodec (homeAt noCodec .absent moves n) m).2

/-- Both preparations and the confirmation of the run return the snapshot of the first process, and
    the home is ready after the confirmation. -/
theorem one_realm_of_three_processes :
    replies = [none, none, some (.ok realm), some (.ok realm), none, some (.ok realm),
      some (.ok realm)] ∧
    ¬(homeAt noCodec .absent moves 5).database.Ready ∧
    (homeAt noCodec .absent moves 6).database.Ready ∧
    ∃ committed : Option Snapshot, ∀ n db,
      (homeAt noCodec .absent moves n).database = .authority db →
        ∃ s, committed = some s ∧ RealmOf platform s db := by
  have hreplies : replies = [none, none, some (.ok realm), some (.ok realm), none, some (.ok realm),
        some (.ok realm)] ∧
      ¬(homeAt noCodec .absent moves 5).database.Ready ∧
      (homeAt noCodec .absent moves 6).database.Ready := by decide +kernel
  refine ⟨hreplies.1, hreplies.2.1, hreplies.2.2, ?_⟩
  obtain ⟨committed, hdb, -⟩ := one_realm_per_home noCodec .absent (.inl rfl) moves
  exact ⟨committed, hdb⟩

end Sample

end Kirje.Authority
