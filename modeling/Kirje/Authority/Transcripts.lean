import Kirje.Authority.Rows

/-
  File:      Kirje/Authority/Transcripts.lean
  Subject:   The byte strings the authority store hashes and compares
             (crates/kirje-store/src/authority.rs).

  `encodeTranscript` frames a list of fields under a domain; the readers of the
  event details and of the cleanup locators undo it (`readTranscript`).  An event
  is described by an `EventSpec`, from which both the writer and the validator take
  the row.
-/

namespace Kirje.Authority

open Base

/-! ## 1. Framing -/

/-- `encode_transcript`: count, tags and lengths saturate at their width. -/
def encodeTranscript (domain : Bytes) (fields : List Bytes) : Bytes :=
  domain ++ be 2 (min fields.length 65535) ++
    (fields.mapIdx fun i f =>
      be 2 (min (i + 1) 65535) ++ be 4 (min f.length (2 ^ 32 - 1)) ++ f).flatten

/-- The `n` fields of a transcript under `domain`, tagged from one, with nothing left over. -/
def readTranscript (domain : Bytes) (n : Nat) (bytes : Bytes) : Option (List Bytes) := do
  guard (domain <+: bytes)
  let (count, rest) ← split 2 (bytes.drop domain.length)
  guard (ofBe count = n)
  let (fields, rest) ← readItems n rest
  guard (fields.map Prod.fst = (List.range n).map (· + 1) ∧ rest = [])
  some (fields.map Prod.snd)

/-- `exact::<N>` and `from_be_bytes`. -/
def exactNat (n : Nat) (bs : Bytes) : Option Nat := if bs.length = n then some (ofBe bs) else none

def exactI64 (bs : Bytes) : Option Int := if bs.length = 8 then some (ofBeI64 bs) else none

theorem encodeTranscript_eq {domain : Bytes} {fields : List Bytes} (hn : fields.length ≤ 65535)
    (hl : ∀ f ∈ fields, f.length < 2 ^ 32) :
    encodeTranscript domain fields =
      domain ++ be 2 fields.length ++ items (fields.mapIdx fun i f => (i + 1, f)) := by
  have hmap : (fields.mapIdx fun i f =>
      be 2 (min (i + 1) 65535) ++ be 4 (min f.length (2 ^ 32 - 1)) ++ f) =
      (fields.mapIdx fun i f => (i + 1, f)).map fun p => item p.1 p.2 := by
    apply List.ext_getElem
    · simp
    · intro i h1 h2
      simp only [List.length_mapIdx] at h1
      simp only [List.getElem_mapIdx, List.getElem_map, item]
      have hf := hl _ (List.getElem_mem h1)
      rw [min_eq_left (by omega), min_eq_left (by omega)]
  rw [encodeTranscript, hmap, min_eq_left hn, items, List.flatMap_def]

/-- **A transcript reads back**, when its fields fit. -/
theorem readTranscript_encode {domain : Bytes} {fields : List Bytes}
    (hn : fields.length ≤ 65534) (hl : ∀ f ∈ fields, f.length < 2 ^ 32) :
    readTranscript domain fields.length (encodeTranscript domain fields) = some fields := by
  have hfits : ∀ p ∈ fields.mapIdx (fun i f => (i + 1, f)), Fits p := by
    intro p hp
    obtain ⟨i, hi, rfl⟩ := List.mem_mapIdx.mp hp
    exact ⟨by show i + 1 < 2 ^ 16; omega, hl _ (List.getElem_mem hi)⟩
  have hread := readItems_items hfits []
  rw [List.append_nil, List.length_mapIdx] at hread
  have hcount : ofBe (be 2 fields.length) = fields.length := ofBe_be (by omega)
  have htags : (fields.mapIdx fun i f => (i + 1, f)).map Prod.fst =
      (List.range fields.length).map (· + 1) := by
    apply List.ext_getElem <;> simp
  have hvals : (fields.mapIdx fun i f => (i + 1, f)).map Prod.snd = fields := by
    apply List.ext_getElem <;> simp
  rw [encodeTranscript_eq (by omega) hl]
  simp [readTranscript, List.append_assoc, split_append_of_length (length_be _ _), hcount, hread,
    htags, hvals]

variable (env : Platform)

/-! ## 2. Requests -/

/-- `GrantUseRequest`. -/
structure GrantUseRequest where
  grantId : GrantId
  receiptId : ReceiptId
  action : SensitiveAction
  targetKind : TargetKind
  targetBytes : Bytes
  manifestSha256 : Digest
  /-- `GrantUseRequest::new` accepted it. -/
  valid : action.targetKind = targetKind ∧ validTargetShape targetKind targetBytes
  deriving DecidableEq, Repr

/-- `PlatformLocationMaterial`. -/
inductive PlatformLocationMaterial where
  | unix (parentDevice parentInode : Nat) (finalComponent : Bytes)
  | windows (volumeSerial parentFileIndex : Nat) (finalComponentUtf16 : List Nat)
  deriving DecidableEq, Repr

/-- `canonical_bytes`. -/
def PlatformLocationMaterial.canonicalBytes : PlatformLocationMaterial → Result Bytes
  | unix parentDevice parentInode finalComponent => do
      ensure (finalComponent ≠ []) (.invalid "config final component cannot be empty")
      ensure (finalComponent.length ≤ 4096) (.stable .resourceLimit "config component is too large")
      encodeFields (ascii "KIRJE-CONFIG-LOCATION-V1\x00")
        [(0x0001, be 1 1), (0x0010, be 8 parentDevice), (0x0011, be 8 parentInode),
          (0x0012, finalComponent)]
  | windows volumeSerial parentFileIndex units => do
      ensure (units ≠ []) (.invalid "config final component cannot be empty")
      ensure (units.length * 2 ≤ 4096) (.stable .resourceLimit "config component is too large")
      encodeFields (ascii "KIRJE-CONFIG-LOCATION-V1\x00")
        [(0x0001, be 1 2), (0x0020, be 8 volumeSerial), (0x0021, be 8 parentFileIndex),
          (0x0022, units.flatMap fun u => (be 2 u).reverse)]

/-- `EnrollStoreRequest`. -/
structure EnrollStoreRequest where
  grantUse : GrantUseRequest
  storeId : StoreId
  locationMaterial : PlatformLocationMaterial
  locationBytes : Bytes
  locationSha256 : Digest
  configGeneration : NonZeroU64
  configSha256 : Digest
  observedAt : Int
  deriving DecidableEq, Repr

/-- `CredentialCleanupReservation`. -/
structure Reservation where
  cleanupId : CleanupId
  locatorKind : LocatorKind
  locatorMaterial : Bytes
  locatorSha256 : Digest
  deriving DecidableEq, Repr

/-- `PrepareAccountTransitionRequest`. -/
structure PrepareRequest where
  grantUse : GrantUseRequest
  transitionId : TransitionId
  storeId : StoreId
  accountId : AccountId
  kind : TransitionKind
  beforeConfigSha256 : Digest
  afterConfigSha256 : Digest
  expectedGeneration : NonZeroU64
  nextGeneration : NonZeroU64
  displayIdSha256 : Digest
  accountGeneration : NonZeroU64
  credentialId : CredentialId
  bindingSha256 : Digest
  cleanupReservations : List Reservation
  observedAt : Int
  deriving DecidableEq, Repr

/-- `AccountTransitionObservationRequest`. -/
structure ObservationRequest where
  transitionId : TransitionId
  sourceState : TransitionState
  actualConfigGeneration : NonZeroU64
  actualConfigSha256 : Digest
  observedAt : Int
  deriving DecidableEq, Repr

/-! ## 3. Digests -/

/-- `BootstrapSnapshot` (its anchor repeats it). -/
structure Snapshot where
  realmId : RealmId
  journalId : JournalId
  minimumEpoch : NonZeroU64
  ownerKeyId : Digest
  ownerPublicKey : Digest
  recoveryKeyId : Digest
  recoveryPublicKey : Digest
  trustBundleSha256 : Digest
  journalLocationSha256 : Digest
  deriving DecidableEq, Repr

/-- The key of a role. -/
def Snapshot.keyId (s : Snapshot) : OwnerKeyRole → Digest
  | .owner => s.ownerKeyId
  | .recovery => s.recoveryKeyId

def Snapshot.publicKey (s : Snapshot) : OwnerKeyRole → Digest
  | .owner => s.ownerPublicKey
  | .recovery => s.recoveryPublicKey

/-- `trust_bundle_digest`. -/
def trustBundleDigest (realm : RealmId) (journal : JournalId) (epoch : NonZeroU64)
    (ownerId ownerKey recoveryId recoveryKey : Digest) : Digest :=
  env.sha256 (encodeTranscript (ascii "KIRJE-TRUST-BUNDLE-V1\x00")
    [realm.bytes, journal.bytes, epoch.beBytes, ownerId.bytes, ownerKey.bytes, recoveryId.bytes,
      recoveryKey.bytes])

/-- `authorization_context_digest`. -/
def authorizationContextDigest (action : SensitiveAction) (targetKind : TargetKind)
    (targetBytes : Bytes) (storeId : Option StoreId) (accountId : Option AccountId)
    (manifestSha256 : Digest) (bindingSha256 policySha256 : Option Digest) (keyId : Digest)
    (trustEpoch : NonZeroU64) (bundleSha256 : Digest) : Digest :=
  env.sha256 (encodeTranscript (ascii "KIRJE-AUTHORIZATION-CONTEXT-V1\x00")
    [be 2 action.code, be 2 targetKind.code, targetBytes, Uuid.optBytes storeId,
      Uuid.optBytes accountId, manifestSha256.bytes, Digest.optBytes bindingSha256,
      Digest.optBytes policySha256, keyId.bytes, trustEpoch.beBytes, bundleSha256.bytes])

/-- `display_id_digest`. -/
def displayIdDigest (displayId : String) : Digest :=
  env.sha256 (encodeTranscript (ascii "KIRJE-ACCOUNT-DISPLAY-ID-V1\x00") [utf8 displayId])

/-- `authorization_receipt`. -/
def authorizationReceipt (receiptId : ReceiptId) (c : Challenge) (proofSha256 : Digest)
    (verifiedAt : Int) : Bytes :=
  encodeTranscript (ascii "KIRJE-AUTHORIZATION-RECEIPT-V1\x00")
    [receiptId.bytes, c.challengeId.bytes, c.grantId.bytes, proofSha256.bytes, c.keyId.bytes,
      c.manifestSha256.bytes, c.signingSha256.bytes, c.trustEpoch.beBytes, c.bundleSha256.bytes,
      beI64 verifiedAt, beI64 c.expiresAt]

/-- `grant_use_transcript`, and the same from a row. -/
def grantUseTranscript (grantId : GrantId) (receiptId : ReceiptId) (action : SensitiveAction)
    (targetKind : TargetKind) (targetBytes : Bytes) (manifestSha256 : Digest) (usedAt : Int) :
    Bytes :=
  encodeTranscript (ascii "KIRJE-GRANT-USE-V1\x00")
    [grantId.bytes, receiptId.bytes, be 2 action.code, be 2 targetKind.code, targetBytes,
      manifestSha256.bytes, beI64 usedAt]

/-- `enrollment_intent_digest`, and the same from the rows. -/
def enrollmentIntent (grantId : GrantId) (receiptId : ReceiptId) (action : SensitiveAction)
    (targetKind : TargetKind) (targetBytes : Bytes) (manifestSha256 : Digest) (storeId : StoreId)
    (locationSha256 : Digest) (generation : NonZeroU64) (configSha256 : Digest) : Digest :=
  env.sha256 (encodeTranscript (ascii "KIRJE-STORE-ENROLLMENT-INTENT-V1\x00")
    [grantId.bytes, receiptId.bytes, be 2 action.code, be 2 targetKind.code, targetBytes,
      manifestSha256.bytes, storeId.bytes, locationSha256.bytes, generation.beBytes,
      configSha256.bytes])

/-- `account_transition_digest`, and the same from a row. -/
def transitionDigest (transitionId : TransitionId) (grantId : GrantId) (storeId : StoreId)
    (accountId : AccountId) (kind : TransitionKind) (before after : Digest)
    (expected next : NonZeroU64) (preparedAt : Int) : Digest :=
  env.sha256 (encodeTranscript (ascii "KIRJE-ACCOUNT-TRANSITION-V1\x00")
    [transitionId.bytes, grantId.bytes, storeId.bytes, accountId.bytes, be 1 kind.code,
      before.bytes, after.bytes, expected.beBytes, next.beBytes, beI64 preparedAt])

def transitionDigestFromRow (t : Transition) : Digest :=
  transitionDigest env t.transitionId t.grantId t.storeId t.accountId t.kind t.beforeConfigSha256
    t.afterConfigSha256 t.expectedGeneration t.nextGeneration t.preparedAt

def accountTransitionDigest (r : PrepareRequest) (preparedAt : Int) : Digest :=
  transitionDigest env r.transitionId r.grantUse.grantId r.storeId r.accountId r.kind
    r.beforeConfigSha256 r.afterConfigSha256 r.expectedGeneration r.nextGeneration preparedAt

/-- `account_prepare_intent`, and the same from the rows. -/
def prepareIntent (grantId : GrantId) (receiptId : ReceiptId) (action : SensitiveAction)
    (targetKind : TargetKind) (targetBytes : Bytes) (manifestSha256 : Digest)
    (transitionId : TransitionId) (storeId : StoreId) (accountId : AccountId)
    (kind : TransitionKind) (before after : Digest) (expected next : NonZeroU64)
    (displayIdSha256 : Digest) (accountGeneration : NonZeroU64) (credentialId : CredentialId)
    (bindingSha256 : Digest) : Digest :=
  env.sha256 (encodeTranscript (ascii "KIRJE-ACCOUNT-TRANSITION-INTENT-V1\x00")
    [grantId.bytes, receiptId.bytes, be 2 action.code, be 2 targetKind.code, targetBytes,
      manifestSha256.bytes, transitionId.bytes, storeId.bytes, accountId.bytes, be 1 kind.code,
      before.bytes, after.bytes, expected.beBytes, next.beBytes, displayIdSha256.bytes,
      accountGeneration.beBytes, credentialId.bytes, bindingSha256.bytes])

/-- `account_recovery_digest`. -/
def accountRecoveryDigest (t : Transition) (prior : TransitionState)
    (actualGeneration : NonZeroU64) (actualConfigSha256 : Digest) : Digest :=
  env.sha256 (encodeTranscript (ascii "KIRJE-ACCOUNT-TRANSITION-RECOVERY-V1\x00")
    [t.transitionSha256.bytes, be 2 prior.eventState, actualGeneration.beBytes,
      actualConfigSha256.bytes])

/-! ## 4. Locators -/

def locatorKindCode : LocatorKind → Nat
  | .activeV2 => 1
  | .legacyV1 => 2

def activeV2Service : Bytes := ascii "dev.kirje.mail.credentials.v2"

def legacyV1Service : Bytes := ascii "dev.kirje.mail"

/-- The lower-case hexadecimal digit of a nibble. -/
def lowerHex (n : Nat) : UInt8 := if n < 10 then UInt8.ofNat (48 + n) else UInt8.ofNat (87 + n)

def hexBytes (bs : Bytes) : Bytes :=
  bs.flatMap fun b => [lowerHex (b.toNat / 16), lowerHex (b.toNat % 16)]

/-- What `active_v2_username` hashes. -/
def credentialLocatorV2 (realmId : RealmId) (storeId : StoreId) (accountId : AccountId)
    (credentialId : CredentialId) (bindingSha256 : Digest) : Bytes :=
  ascii "KIRJE-CREDENTIAL-LOCATOR-V2\x00" ++ realmId.bytes ++ storeId.bytes ++ accountId.bytes ++
    credentialId.bytes ++ bindingSha256.bytes

/-- `active_v2_username`. -/
def activeV2Username (realmId : RealmId) (storeId : StoreId) (accountId : AccountId)
    (credentialId : CredentialId) (bindingSha256 : Digest) : Bytes :=
  ascii "v2:" ++ hexBytes
    (env.sha256 (credentialLocatorV2 realmId storeId accountId credentialId bindingSha256)).bytes

def deleteOnlyLocatorDomain : Bytes := ascii "KIRJE-DELETE-ONLY-LOCATOR-V1\x00"

/-- The locator of a kind, service and username. -/
def deleteOnlyLocator (kind : LocatorKind) (service username : Bytes) : Bytes :=
  encodeTranscript deleteOnlyLocatorDomain [be 1 (locatorKindCode kind), service, username]

/-- The `active_v2` locator of an identity. -/
def activeV2Locator (realmId : RealmId) (storeId : StoreId) (accountId : AccountId)
    (credentialId : CredentialId) (bindingSha256 : Digest) : Bytes :=
  deleteOnlyLocator .activeV2 activeV2Service
    (activeV2Username env realmId storeId accountId credentialId bindingSha256)

/-- `expected_delete_only_locator`. -/
def expectedDeleteOnlyLocator (realmId : RealmId) (storeId : StoreId) (before : AccountSnapshot)
    (kind : LocatorKind) : Bytes :=
  match kind with
  | .activeV2 => activeV2Locator env realmId storeId before.accountId before.credentialId
      before.bindingSha256
  | .legacyV1 => deleteOnlyLocator .legacyV1 legacyV1Service (utf8 before.displayId)

/-- `parse_delete_only_locator`. -/
def parseDeleteOnlyLocator (material : Bytes) : Option (LocatorKind × Bytes × Bytes) := do
  guard (1 ≤ material.length ∧ material.length ≤ 4096)
  match ← readTranscript deleteOnlyLocatorDomain 3 material with
  | [kind, service, username] =>
      match ← exactNat 1 kind with
      | 1 => some (.activeV2, service, username)
      | 2 => some (.legacyV1, service, username)
      | _ => none
  | _ => none

/-- `delete_only_locator_shape_is_valid`.  Both services are ASCII and so are the admitted
    usernames, so the UTF-8 and scalar-count conditions add nothing to these. -/
def deleteOnlyLocatorShapeIsValid (kind : LocatorKind) (service username : Bytes) : Bool :=
  match kind with
  | .activeV2 => service == activeV2Service && username.length == 67 &&
      (ascii "v2:").isPrefixOf username &&
      (username.drop 3).all fun b => (48 ≤ b && b ≤ 57) || (97 ≤ b && b ≤ 102)
  | .legacyV1 => service == legacyV1Service && !username.isEmpty && username.length ≤ 64 &&
      username.all fun b => (48 ≤ b && b ≤ 57) || (65 ≤ b && b ≤ 90) || (97 ≤ b && b ≤ 122) ||
        b == 45 || b == 95

/-- The tombstone `validate_credential_cleanup_context` recomputes. -/
def cleanupTombstone (realmId : RealmId) (cleanupId : CleanupId) (t : Transition)
    (originManifestSha256 : Digest) (before : AccountSnapshot) (kind : LocatorKind)
    (locatorSha256 : Digest) (createdAt : Int) : Digest :=
  env.sha256 (encodeTranscript (ascii "KIRJE-CREDENTIAL-CLEANUP-TOMBSTONE-V1\x00")
    [realmId.bytes, cleanupId.bytes, t.transitionId.bytes, t.transitionSha256.bytes,
      originManifestSha256.bytes, t.storeId.bytes, t.accountId.bytes, before.generation.beBytes,
      before.credentialId.bytes, before.bindingSha256.bytes, be 1 (locatorKindCode kind),
      locatorSha256.bytes, beI64 createdAt, be 1 1])

/-! ## 5. Events -/

/-- What an event says. -/
structure EventSpec where
  eventCode : Nat
  entityKind : Nat
  entityId : Bytes
  source : Nat
  relatedKind : Nat
  relatedId : Bytes
  priorState : Nat
  nextState : Nat
  context : Digest
  receiptId : Option ReceiptId
  occurredAt : Int
  deriving DecidableEq, Repr

def eventDetailDomain : Bytes := ascii "KIRJE-AUTHORITY-EVENT-DETAIL-V1\x00"

/-- The eleven fields of `authority_event_detail`. -/
def EventSpec.fields (e : EventSpec) : List Bytes :=
  [be 2 e.eventCode, be 2 e.entityKind, e.entityId, be 1 e.source, be 2 e.relatedKind, e.relatedId,
    be 2 e.priorState, be 2 e.nextState, e.context.bytes, Uuid.optBytes e.receiptId,
    beI64 e.occurredAt]

/-- `authority_event_detail`. -/
def EventSpec.detail (e : EventSpec) : Bytes := encodeTranscript eventDetailDomain e.fields

/-- The row of an event at a sequence. -/
def EventSpec.row (e : EventSpec) (sequence : Nat) : Event where
  sequence := sequence
  entityKind := e.entityKind
  entityId := e.entityId
  eventCode := e.eventCode
  source := e.source
  occurredAt := e.occurredAt
  detail := e.detail
  detailSha256 := env.sha256 e.detail

/-- `event_detail`: the two events of the bootstrap. -/
def bootstrapEvent (realmId : RealmId) (eventCode priorState nextState : Nat) (bundle : Digest)
    (occurredAt : Int) : EventSpec :=
  ⟨eventCode, 1, realmId.bytes, 2, 0, [], priorState, nextState, bundle, none, occurredAt⟩

/-- The created event of a challenge. -/
def challengeCreatedEvent (c : Challenge) (at' : Int) : EventSpec :=
  ⟨3, 8, c.challengeId.bytes, 1, 10, c.grantId.bytes, 0, 0x0801, c.contextSha256, none, at'⟩

/-- The authorized event of a challenge. -/
def challengeAuthorizedEvent (c : Challenge) (r : Receipt) (at' : Int) : EventSpec :=
  ⟨4, 8, c.challengeId.bytes, 3, 9, r.receiptId.bytes, 0x0801, 0x0802, r.receiptSha256,
    some r.receiptId, at'⟩

/-- The expired event of a challenge without a receipt. -/
def challengeExpiredEvent (c : Challenge) (at' : Int) : EventSpec :=
  ⟨5, 8, c.challengeId.bytes, 1, 0, [], 0x0801, 0x0803, c.contextSha256, none, at'⟩

/-- `insert_enrollment_expiry_event`: the expired event of an authorized challenge. -/
def receiptExpiredEvent (c : Challenge) (r : Receipt) (intent : Digest) (at' : Int) : EventSpec :=
  ⟨5, 8, c.challengeId.bytes, 1, 9, r.receiptId.bytes, 0x0802, 0x0803, intent, some r.receiptId,
    at'⟩

/-- `insert_grant_used_event`. -/
def grantUsedEvent (grantId : GrantId) (receiptId : ReceiptId) (useSha256 : Digest) (at' : Int) :
    EventSpec :=
  ⟨7, 10, grantId.bytes, 1, 9, receiptId.bytes, 0x0901, 0x0902, useSha256, some receiptId, at'⟩

/-- `insert_store_enrolled_event`. -/
def storeEnrolledEvent (storeId : StoreId) (grantId : GrantId) (receiptId : ReceiptId)
    (useSha256 : Digest) (at' : Int) : EventSpec :=
  ⟨8, 4, storeId.bytes, 4, 10, grantId.bytes, 0, 0x0401, useSha256, some receiptId, at'⟩

/-- The event of a store that a transition blocks, frees or stops. -/
def storeEvent (storeId : StoreId) (source : Nat) (transitionId : TransitionId)
    (priorState nextState : Nat) (context : Digest) (receiptId : ReceiptId) (at' : Int) :
    EventSpec :=
  ⟨9, 4, storeId.bytes, source, 6, transitionId.bytes, priorState, nextState, context,
    some receiptId, at'⟩

/-- `insert_transition_phase_event`. -/
def transitionEvent (t : Transition) (eventCode source priorState : Nat) (next : TransitionState)
    (context : Digest) (receiptId : ReceiptId) (at' : Int) : EventSpec :=
  ⟨eventCode, 6, t.transitionId.bytes, source, 5, t.accountId.bytes, priorState, next.eventState,
    context, some receiptId, at'⟩

/-- The event of a cleanup that becomes ready. -/
def cleanupReadyEvent (cleanupId : CleanupId) (t : Transition) (receiptId : ReceiptId)
    (at' : Int) : EventSpec :=
  ⟨15, 7, cleanupId.bytes, 6, 6, t.transitionId.bytes, 0x0701, 0x0702, t.transitionSha256,
    some receiptId, at'⟩

/-- `insert_cleanup_event`. -/
def cleanupEvent (cleanupId : CleanupId) (eventCode : Nat) (grantId : GrantId)
    (receiptId : ReceiptId) (priorState nextState : Nat) (context : Digest) (at' : Int) :
    EventSpec :=
  ⟨eventCode, 7, cleanupId.bytes, 4, 10, grantId.bytes, priorState, nextState, context,
    some receiptId, at'⟩

/-- `AccountStoreEventDetail`. -/
structure StoreEventDetail where
  source : Nat
  transitionId : TransitionId
  priorState : Nat
  nextState : Nat
  context : Digest
  receiptId : ReceiptId
  occurredAt : Int
  deriving DecidableEq, Repr

/-- The typed reading of the eleven fields of a store event. -/
def storeEventFields (storeId : StoreId) : List Bytes → Option StoreEventDetail
  | [eventCode, entityKind, entityId, source, relatedKind, relatedId, prior, next, context,
      receiptId, occurredAt] => do
      guard (exactNat 2 eventCode = some 9 ∧ exactNat 2 entityKind = some 4 ∧
        entityId = storeId.bytes ∧ exactNat 2 relatedKind = some 6)
      let source ← exactNat 1 source
      let transitionId ← Uuid.ofBytes? relatedId
      let prior ← exactNat 2 prior
      let next ← exactNat 2 next
      let context ← Digest.ofBytes? context
      let receiptId ← Uuid.ofBytes? receiptId
      let occurredAt ← exactI64 occurredAt
      some ⟨source, transitionId, prior, next, context, receiptId, occurredAt⟩
  | _ => none

/-- `parse_account_store_event_detail`. -/
def parseStoreEventDetail (row : Event) (storeId : StoreId) : Option StoreEventDetail := do
  guard (row.entityKind = 4 ∧ row.eventCode = 9 ∧ row.entityId = storeId.bytes)
  let fields ← readTranscript eventDetailDomain 11 row.detail
  storeEventFields storeId fields

end Kirje.Authority
