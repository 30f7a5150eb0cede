import Kirje.Core.Action

/-
  File:      Kirje/Core/Manifest.lean
  Subject:   Action manifests: the typed content an owner signs, and the checks
             every manifest value has passed
             (crates/kirje-core/src/authorization.rs, account.rs).

  `ActionManifest.new` and `ActionManifest.parse` follow the source up to the field
  codec of the payloads, which is a parameter (`ManifestCodec`): what is proved
  about the authority holds for every codec, since `parse` re-encodes and compares.
  A manifest carries the fact that `new` accepted its parts.
-/

namespace Kirje

open Base

/-! ## 1. Data -/

inductive ManifestTarget where
  | operation (id : OperationId)
  | store (id : StoreId)
  | account (id : AccountId)
  | credential (id : CredentialId)
  | cleanup (id : CleanupId)
  | policy
  | assurance
  | trustEpoch (epoch : NonZeroU64)
  | remoteEffect (id : RemoteEffectId)
  deriving DecidableEq, Repr

namespace ManifestTarget

def kind : ManifestTarget → TargetKind
  | operation _ => .operation
  | store _ => .store
  | account _ => .account
  | credential _ => .credential
  | cleanup _ => .cleanup
  | policy => .policy
  | assurance => .assurance
  | trustEpoch _ => .trustEpoch
  | remoteEffect _ => .remoteEffect

/-- `bytes`, `canonical_bytes`. -/
def bytes : ManifestTarget → Bytes
  | operation id | store id | account id | credential id | cleanup id | remoteEffect id => id.bytes
  | policy | assurance => []
  | trustEpoch epoch => epoch.beBytes

end ManifestTarget

structure ManifestContext where
  target : ManifestTarget
  storeId : Option StoreId
  accountId : Option AccountId
  accountBindingSha256 : Option Digest
  policySha256 : Option Digest
  effectId : Option RemoteEffectId
  deriving DecidableEq, Repr

structure ManifestAddress where
  displayName : Option String
  email : String
  deriving DecidableEq, Repr

inductive AttachmentSummaryDisposition where
  | complete | truncated | omitted
  deriving DecidableEq, Repr

structure ManifestAttachmentSummary where
  disposition : AttachmentSummaryDisposition
  text : Option String
  originalBytes : Option Nat
  deriving DecidableEq, Repr

structure ManifestAttachment where
  filename : String
  mimeType : String
  decodedSize : Nat
  contentSha256 : Digest
  summary : Option ManifestAttachmentSummary
  deriving DecidableEq, Repr

structure SendSubmitManifest where
  accountGeneration : NonZeroU64
  sender : ManifestAddress
  toAddrs : List ManifestAddress
  cc : List ManifestAddress
  bcc : List ManifestAddress
  subject : String
  text : Option String
  html : Option String
  attachments : List ManifestAttachment
  messageId : String
  dateUnixMs : Int
  mimeBoundary : String
  inReplyTo : Option String
  references : List String
  canonicalRfc822Sha256 : Option Digest
  deriving DecidableEq, Repr

inductive MailboxSpecialUseInput where
  | none | archive | trash
  deriving DecidableEq, Repr

inductive MailboxStrategy where
  | store | uidMove | copyThenMarkDeleted
  deriving DecidableEq, Repr

structure MailboxManifest where
  accountGeneration : NonZeroU64
  sourceMailbox : String
  uidValidity : Nat
  uid : Nat
  requestedValue : Option Bool
  requestedDestination : Option String
  specialUse : MailboxSpecialUseInput
  resolvedDestination : Option String
  strategy : MailboxStrategy
  capabilitySha256 : Digest
  capabilityComplete : Bool
  deriving DecidableEq, Repr

inductive HostKind where
  | dns | ipv4 | ipv6
  deriving DecidableEq, Repr

structure EndpointSnapshot where
  protocol : Protocol
  exactHost : String
  hostKind : HostKind
  canonicalHost : String
  port : Nat
  security : TransportSecurity
  deriving DecidableEq, Repr

inductive CleanupState where
  | provisional | ready | claimed | deleted
  deriving DecidableEq, Repr

inductive LocatorKind where
  | activeV2 | legacyV1
  deriving DecidableEq, Repr

inductive BindingState where
  | quarantined | proposed | authorized | invalidated | mismatch
  deriving DecidableEq, Repr

inductive StoredCredentialState where
  | legacyQuarantined | reentryRequired | missing | bound | invalidated
  deriving DecidableEq, Repr

inductive AccountStateReason where
  | legacyUnbound | credentialReentryRequired | bindingChanged | ownerRecovery
  | authorityMismatch | configMigration
  deriving DecidableEq, Repr

structure ConfigCas where
  storeId : StoreId
  generation : NonZeroU64
  exactContentSha256 : Digest
  locationSha256 : Digest
  deriving DecidableEq, Repr

structure CleanupDescriptor where
  cleanupId : CleanupId
  locatorKind : LocatorKind
  locatorSha256 : Digest
  expectedState : CleanupState
  deriving DecidableEq, Repr

structure AccountSnapshot where
  displayId : String
  accountId : AccountId
  generation : NonZeroU64
  email : String
  username : String
  credentialKind : CredentialKind
  credentialId : CredentialId
  bindingVersion : Nat
  bindingSha256 : Digest
  bindingState : BindingState
  credentialState : StoredCredentialState
  stateReason : Option AccountStateReason
  incoming : EndpointSnapshot
  outgoing : Option EndpointSnapshot
  cleanupIds : List CleanupId
  deriving DecidableEq, Repr

structure StoreEnrollManifest where
  transitionId : TransitionId
  configCas : ConfigCas
  deriving DecidableEq, Repr

structure AccountMutationManifest where
  transitionId : TransitionId
  configCas : ConfigCas
  before : Option AccountSnapshot
  after : Option AccountSnapshot
  nextConfigGeneration : NonZeroU64
  afterConfigSha256 : Digest
  cleanup : List CleanupDescriptor
  deriving DecidableEq, Repr

structure CredentialMutationManifest where
  account : AccountMutationManifest
  activeLocatorSha256 : Digest
  deriving DecidableEq, Repr

structure CredentialCleanupManifest where
  cleanupId : CleanupId
  locatorKind : LocatorKind
  locatorSha256 : Digest
  tombstoneSha256 : Digest
  transitionId : Option TransitionId
  expectedState : CleanupState
  deriving DecidableEq, Repr

inductive TrustPermissionMask where
  | owner | recovery
  deriving DecidableEq, Repr

structure TrustRotationManifest where
  transitionId : TransitionId
  role : OwnerKeyRole
  oldKeyId : Digest
  oldPublicKey : Digest
  newKeyId : Digest
  newPublicKey : Digest
  oldEpoch : NonZeroU64
  newEpoch : NonZeroU64
  oldBundle : Digest
  newBundle : Digest
  permissions : TrustPermissionMask
  deriving DecidableEq, Repr

structure OwnerRecoverManifest where
  transitionId : TransitionId
  journalId : JournalId
  oldEpoch : NonZeroU64
  newEpoch : NonZeroU64
  oldBundle : Digest
  newOwnerId : Digest
  newOwnerKey : Digest
  newRecoveryId : Digest
  newRecoveryKey : Digest
  newBundle : Digest
  deriving DecidableEq, Repr

inductive AmbiguousAssertion where
  | occurred | noEffect | unknown
  deriving DecidableEq, Repr

inductive AmbiguousTerminal where
  | succeeded | failedKnownNoEffect | ambiguousClosed
  deriving DecidableEq, Repr

structure AmbiguousCloseManifest where
  operationId : OperationId
  invocationId : InvocationId
  originalManifestSha256 : Digest
  claimSha256 : Digest
  observationSha256 : Option Digest
  assertion : AmbiguousAssertion
  assertionText : String
  terminal : AmbiguousTerminal
  deriving DecidableEq, Repr

inductive ManifestPayload where
  | sendSubmit (value : SendSubmitManifest)
  | mailSeen (value : MailboxManifest)
  | mailStarred (value : MailboxManifest)
  | mailMove (value : MailboxManifest)
  | mailArchive (value : MailboxManifest)
  | mailSafeDelete (value : MailboxManifest)
  | storeEnroll (value : StoreEnrollManifest)
  | accountCreate (value : AccountMutationManifest)
  | accountUpdate (value : AccountMutationManifest)
  | accountRemove (value : AccountMutationManifest)
  | credentialSet (value : CredentialMutationManifest)
  | credentialDelete (value : CredentialMutationManifest)
  | credentialCleanup (value : CredentialCleanupManifest)
  | ownerRotate (value : TrustRotationManifest)
  | recoveryRotate (value : TrustRotationManifest)
  | ownerRecover (value : OwnerRecoverManifest)
  | ambiguousClose (value : AmbiguousCloseManifest)
  deriving DecidableEq, Repr

def ManifestPayload.action : ManifestPayload → SensitiveAction
  | sendSubmit _ => .sendSubmit
  | mailSeen _ => .mailSeen
  | mailStarred _ => .mailStarred
  | mailMove _ => .mailMove
  | mailArchive _ => .mailArchive
  | mailSafeDelete _ => .mailSafeDelete
  | storeEnroll _ => .storeEnroll
  | accountCreate _ => .accountCreate
  | accountUpdate _ => .accountUpdate
  | accountRemove _ => .accountRemove
  | credentialSet _ => .credentialSet
  | credentialDelete _ => .credentialDelete
  | credentialCleanup _ => .credentialCleanup
  | ownerRotate _ => .ownerRotate
  | recoveryRotate _ => .recoveryRotate
  | ownerRecover _ => .ownerRecover
  | ambiguousClose _ => .ambiguousClose

/-! ## 2. Transcripts -/

/-- `encode_fields`: the tags increase and everything fits its frame. -/
def encodeFields (domain : Bytes) (fields : List (Nat × Bytes)) : Result Bytes := do
  ensure (fields.length < 2 ^ 16) (.stable .resourceLimit "too many fields")
  ensure ((fields.map Prod.fst).Pairwise (· < ·))
    (.invalid "field tags must be strictly increasing")
  ensure (∀ f ∈ fields, f.2.length < 2 ^ 32) (.stable .resourceLimit "field is too large")
  pure (domain ++ be 2 fields.length ++ items fields)

/-- `parse_fields_any`: the inverse framing, with nothing left over. -/
def parseFieldsAny (bytes domain : Bytes) : Result (List (Nat × Bytes)) := do
  ensure (domain <+: bytes) (malformed "transcript domain is invalid")
  let (count, rest) ← orRefuse (split 2 (bytes.drop domain.length))
    (malformed "transcript is truncated")
  ensure (ofBe count ≤ 256) (limit "transcript has too many fields")
  let (fields, rest) ← orRefuse (readItems (ofBe count) rest)
    (malformed "transcript is truncated")
  ensure ((fields.map Prod.fst).Pairwise (· < ·))
    (malformed "transcript tags are not strictly increasing")
  ensure (rest = []) (malformed "transcript contains trailing bytes")
  pure fields

/-- The framing of tagged values, once `encodeFields` accepts them. -/
def fieldBytes (domain : Bytes) (fields : List (Nat × Bytes)) : Bytes :=
  domain ++ be 2 fields.length ++ items fields

theorem encodeFields_ok {domain : Bytes} {fields : List (Nat × Bytes)}
    (hn : fields.length < 2 ^ 16) (ht : (fields.map Prod.fst).Pairwise (· < ·))
    (hl : ∀ f ∈ fields, f.2.length < 2 ^ 32) :
    encodeFields domain fields = .ok (fieldBytes domain fields) := by
  simp only [encodeFields, bind_ok, ensure_ok, pure_ok]
  exact ⟨(), hn, (), ht, (), hl, rfl⟩

/-- **What `encode_fields` writes, `parse_fields_any` reads back.** -/
theorem parseFieldsAny_fieldBytes {domain : Bytes} {fields : List (Nat × Bytes)}
    (hn : fields.length ≤ 256) (ht : (fields.map Prod.fst).Pairwise (· < ·))
    (hf : ∀ f ∈ fields, Fits f) :
    parseFieldsAny (fieldBytes domain fields) domain = .ok fields := by
  have hcount : ofBe (be 2 fields.length) = fields.length := ofBe_be (by omega)
  have hdrop : (fieldBytes domain fields).drop domain.length =
      be 2 fields.length ++ (items fields ++ []) := by
    simp [fieldBytes]
  have hprefix : domain <+: fieldBytes domain fields := by
    simp [fieldBytes]
  simp only [parseFieldsAny, bind_ok, ensure_ok, orRefuse_ok, pure_ok, hdrop]
  refine ⟨(), hprefix, (be 2 fields.length, items fields ++ []),
    split_append_of_length (length_be _ _), (), by rw [hcount]; exact hn, (fields, []), ?_,
    (), ht, (), rfl, rfl⟩
  rw [hcount]
  exact readItems_items hf []

/-! ## 3. Account snapshots -/

variable (env : Platform)

/-- `valid_email`. -/
def validEmail (value : String) : Bool :=
  match rsplitOnce '@' value.toList with
  | none => false
  | some (localPart, domain) =>
      !localPart.isEmpty && !domain.isEmpty && !localPart.contains '@' && !domain.contains '@' &&
        domain.contains '.' && value.utf8ByteSize ≤ 320 && !value.toList.any isWhitespace &&
        !hasControl value

/-- `host.parse::<IpAddr>()`: the canonical text and the family of an address. -/
def parseIpAddr (host : String) : Option (Nat × String) :=
  match env.parseIpv4 host with
  | some text => some (2, text)
  | none => (env.parseIpv6 host).map fun text => (3, text)

def isAsciiText (s : String) : Bool := s.toList.all fun c => c.toNat < 128

/-- `canonical_matches`: the canonical host is that of the exact host, in its family. -/
def canonicalMatches (value : EndpointSnapshot) : Bool :=
  match value.hostKind with
  | .dns => (parseIpAddr env value.exactHost).isNone &&
      (parseIpAddr env value.canonicalHost).isNone &&
      value.canonicalHost == toAsciiLowercase value.canonicalHost &&
      toAsciiLowercase value.exactHost == toAsciiLowercase value.canonicalHost
  | .ipv4 => env.parseIpv4 value.exactHost == some value.canonicalHost
  | .ipv6 => env.parseIpv6 value.exactHost == some value.canonicalHost

/-- The checks of `encode_endpoint`. -/
def validateEndpoint (value : EndpointSnapshot) : Result Unit := do
  ensure (¬(value.exactHost.isEmpty || value.exactHost.utf8ByteSize > 4096 ||
      hasControl value.exactHost || value.canonicalHost.isEmpty ||
      value.canonicalHost.utf8ByteSize > 4096 || !isAsciiText value.canonicalHost ||
      value.port == 0 ||
      match value.protocol with
      | .jmap => value.security != .https
      | .imap | .smtp => value.security == .https))
    (.invalid "endpoint snapshot is malformed")
  ensure (canonicalMatches env value) (.invalid "endpoint host identity is inconsistent")

def credentialKindCode : CredentialKind → Nat
  | .password => 1
  | .appPassword => 2
  | .oauth2 => 3

def protocolCode : Protocol → Nat
  | .imap => 1
  | .smtp => 2
  | .jmap => 3

def securityCode : TransportSecurity → Nat
  | .implicitTls => 1
  | .startTls => 2
  | .https => 3

/-- `normalized_host_bytes`. -/
def normalizedHostBytes (host : String) : Result Bytes :=
  match parseIpAddr env host with
  | some (family, text) => pure (be 1 family ++ utf8 text)
  | none => do
      ensure (isAsciiText host) (.invalid "account-binding DNS hosts must be ASCII")
      pure (be 1 1 ++ utf8 (toAsciiLowercase host))

/-- `AccountBinding::from_validated_config(..).sha256()`. -/
def accountBindingSha256 (config : MailAccountConfig) : Result Digest := do
  let incoming ← normalizedHostBytes env config.incoming.host
  let outgoing ← (config.outgoing.elim (pure []) fun e => normalizedHostBytes env e.host)
  let bytes ← encodeFields (ascii "KIRJE-ACCOUNT-BINDING-V1\x00")
    [(0x0001, utf8 config.email), (0x0002, utf8 config.username),
      (0x0003, be 1 (credentialKindCode config.credentialKind)),
      (0x0010, be 1 (protocolCode config.incoming.protocol)), (0x0011, incoming),
      (0x0012, be 2 config.incoming.port),
      (0x0013, be 1 (securityCode config.incoming.security)),
      (0x0020, be 1 (if config.outgoing.isSome then 1 else 0)),
      (0x0021, (config.outgoing.map fun e => be 1 (protocolCode e.protocol)).getD []),
      (0x0022, outgoing),
      (0x0023, (config.outgoing.map fun e => be 2 e.port).getD []),
      (0x0024, (config.outgoing.map fun e => be 1 (securityCode e.security)).getD [])]
  pure (env.sha256 bytes)

/-- `endpoint_from_snapshot`. -/
def endpointFromSnapshot (value : EndpointSnapshot) : Endpoint :=
  ⟨value.protocol, value.exactHost, value.port, value.security⟩

/-- The verified-TLS rule of one endpoint of an account snapshot. -/
def tlsEndpoint (protocol : Protocol) (value : EndpointSnapshot) : Bool :=
  value.protocol == protocol && validSecurity value.security

/-- The checks of the outgoing endpoint, when there is one. -/
def validateOutgoing (outgoing : EndpointSnapshot) : Result Unit := do
  validateEndpoint env outgoing
  ensure (tlsEndpoint .smtp outgoing)
    (.invalid "account snapshot outgoing endpoint must use verified-TLS SMTP")

/-- The legal pairs of a binding state and a credential state. -/
def snapshotStateOk (value : AccountSnapshot) : Bool :=
  (match value.bindingState with
    | .quarantined => value.credentialState == .legacyQuarantined
    | .proposed => value.credentialState == .reentryRequired || value.credentialState == .missing
    | .authorized => value.credentialState == .reentryRequired ||
        value.credentialState == .missing || value.credentialState == .bound
    | .invalidated => value.credentialState != .bound
    | .mismatch => true) &&
    !(value.credentialKind == .oauth2 &&
      (value.bindingState == .authorized || value.credentialState == .bound))

/-- `validate_account_snapshot`. -/
def validateAccountSnapshot (value : AccountSnapshot) : Result Unit := do
  ensure (¬(!validAccountId value.displayId || !validEmail value.email || blank value.username ||
      value.username.utf8ByteSize > 1024 || hasControl value.username ||
      value.bindingVersion != 1 || value.cleanupIds.length > 100 || !value.cleanupIds.Nodup))
    (.invalid "account snapshot is malformed")
  validateEndpoint env value.incoming
  ensure (tlsEndpoint .imap value.incoming)
    (.invalid "account snapshot incoming endpoint must use verified-TLS IMAP")
  checkAll (validateOutgoing env) value.outgoing.toList
  ensure (snapshotStateOk value) (.invalid "account snapshot state combination is invalid")
  let bindingConfig : MailAccountConfig := {
    id := value.displayId
    email := value.email
    username := value.username
    incoming := endpointFromSnapshot value.incoming
    outgoing := value.outgoing.map endpointFromSnapshot
    credentialKind := value.credentialKind }
  MailAccountConfig.validate env.mail { bindingConfig with
    credentialKind :=
      if value.credentialKind = .oauth2 then .password else value.credentialKind }
  let binding ← accountBindingSha256 env bindingConfig
  ensure (binding = value.bindingSha256) (.invalid "account snapshot binding digest is inconsistent")

/-! ## 4. The checks of a manifest -/

/-- `account_binding_material_changed`. -/
def accountBindingMaterialChanged (before after : AccountSnapshot) : Bool :=
  before.email != after.email || before.username != after.username ||
    before.credentialKind != after.credentialKind || before.incoming != after.incoming ||
    before.outgoing != after.outgoing

/-- `same_account_binding_material`. -/
def sameAccountBindingMaterial (before after : AccountSnapshot) : Bool :=
  before.email == after.email && before.username == after.username &&
    before.credentialKind == after.credentialKind && before.credentialId == after.credentialId &&
    before.bindingVersion == after.bindingVersion && before.bindingSha256 == after.bindingSha256 &&
    before.incoming == after.incoming && before.outgoing == after.outgoing &&
    before.cleanupIds == after.cleanupIds

/-- `validate_manifest_context`. -/
def validateManifestContext (context : ManifestContext) (action : SensitiveAction) :
    Result Unit := do
  ensure action.supported unsupportedAction
  ensure (context.target.kind = action.targetKind)
    (malformed "manifest target does not match action")
  if action.effectKind ≠ .none then
    ensure (context.storeId.isSome ∧ context.accountId.isSome ∧
        context.accountBindingSha256.isSome ∧ context.policySha256.isSome ∧
        context.effectId.isSome)
      (malformed "remote manifest common context is incomplete")
  else
    ensure context.effectId.isNone (malformed "control manifest cannot name a remote effect")

/-- The snapshot shape of an account mutation. -/
def accountMutationShape (action : SensitiveAction) (value : AccountMutationManifest) : Bool :=
  match action, value.before, value.after with
  | .accountCreate, none, some after =>
      after.generation.val == 1 && after.bindingState == .proposed &&
        after.credentialState == .reentryRequired
  | .accountUpdate, some before, some after =>
      before.displayId == after.displayId &&
        before.generation.exactIncrement after.generation &&
        before.credentialId != after.credentialId && accountBindingMaterialChanged before after &&
        after.bindingState == .authorized && after.credentialState == .reentryRequired
  | .accountRemove, some _, none => true
  | _, _, _ => false

/-- The binding a manifest signs for. -/
def signedBinding (action : SensitiveAction) (value : AccountMutationManifest) : Option Digest :=
  match action with
  | .accountCreate | .accountUpdate => value.after.map AccountSnapshot.bindingSha256
  | .accountRemove => value.before.map AccountSnapshot.bindingSha256
  | _ => none

/-- `validate_account_mutation_context`. -/
def validateAccountMutationContext (context : ManifestContext) (action : SensitiveAction)
    (value : AccountMutationManifest) : Result Unit := do
  let target ← orRefuse (match context.target with | .account id => some id | _ => none)
    (malformed "account mutation target is malformed")
  ensure (context.storeId = some value.configCas.storeId ∧ context.accountId = some target ∧
      context.accountBindingSha256.isSome ∧ context.policySha256.isNone ∧
      value.configCas.generation.exactIncrement value.nextConfigGeneration ∧
      (∀ s ∈ value.before, s.accountId = target) ∧ (∀ s ∈ value.after, s.accountId = target))
    (malformed "account mutation context is inconsistent")
  checkAll (validateAccountSnapshot env) (value.before.toList ++ value.after.toList)
  ensure (accountMutationShape action value)
    (malformed "account mutation snapshot shape is invalid")
  ensure (context.accountBindingSha256 = signedBinding action value)
    (malformed "account mutation binding digest is inconsistent")

/-- The legal credential lifecycle of `credential_set` and `credential_delete`. -/
def credentialLifecycleOk (action : SensitiveAction) (before after : AccountSnapshot) : Bool :=
  match action with
  | .credentialSet =>
      (before.credentialState == .reentryRequired || before.credentialState == .missing) &&
        after.bindingState == .authorized && after.credentialState == .bound
  | .credentialDelete =>
      before.bindingState == .authorized && before.credentialState == .bound &&
        after.bindingState == .authorized && after.credentialState == .missing
  | _ => false

/-- `validate_credential_mutation_context`. -/
def validateCredentialMutationContext (context : ManifestContext) (action : SensitiveAction)
    (value : CredentialMutationManifest) : Result Unit := do
  let target ← orRefuse (match context.target with | .credential id => some id | _ => none)
    (malformed "credential mutation target is malformed")
  let accountId ← orRefuse context.accountId (malformed "credential mutation account is absent")
  let (before, after) ←
    orRefuse (do let b ← value.account.before; let a ← value.account.after; some (b, a))
      (malformed "credential mutation account snapshots are incomplete")
  validateAccountSnapshot env before
  validateAccountSnapshot env after
  ensure (context.storeId = some value.account.configCas.storeId ∧ context.policySha256.isNone ∧
      before.accountId = after.accountId ∧ before.displayId = after.displayId ∧
      before.generation.exactIncrement after.generation ∧
      sameAccountBindingMaterial before after ∧ before.accountId = accountId ∧
      after.accountId = accountId ∧
      value.account.configCas.generation.exactIncrement value.account.nextConfigGeneration)
    (malformed "credential mutation context is inconsistent")
  ensure (credentialLifecycleOk action before after)
    (malformed "credential mutation lifecycle is invalid")
  let binding ← orRefuse context.accountBindingSha256
    (malformed "credential mutation binding digest is absent")
  let signed := if action = .credentialSet then after else before
  ensure (signed.credentialId = target ∧ signed.bindingSha256 = binding)
    (malformed "credential target or binding digest is inconsistent")

/-- `validate_trust_rotation_context`. -/
def validateTrustRotationContext (context : ManifestContext) (role : OwnerKeyRole)
    (value : TrustRotationManifest) : Result Unit := do
  let target ← orRefuse (match context.target with | .trustEpoch e => some e | _ => none)
    (malformed "trust rotation target is malformed")
  ensure (target = value.oldEpoch ∧ value.role = role ∧
      value.permissions = (if role = .owner then .owner else .recovery) ∧
      value.oldKeyId = ownerKeyId env value.role value.oldPublicKey.bytes ∧
      value.newKeyId = ownerKeyId env value.role value.newPublicKey.bytes ∧
      value.oldKeyId ≠ value.newKeyId ∧ value.oldEpoch.exactIncrement value.newEpoch ∧
      context.storeId.isNone ∧ context.accountId.isNone ∧ context.accountBindingSha256.isNone ∧
      context.policySha256.isNone)
    (malformed "trust rotation context is inconsistent")

/-- `validate_owner_recover_context`. -/
def validateOwnerRecoverContext (context : ManifestContext) (value : OwnerRecoverManifest) :
    Result Unit := do
  let target ← orRefuse (match context.target with | .trustEpoch e => some e | _ => none)
    (malformed "owner recovery target is malformed")
  ensure (target = value.oldEpoch ∧
      value.newOwnerId = ownerKeyId env .owner value.newOwnerKey.bytes ∧
      value.newRecoveryId = ownerKeyId env .recovery value.newRecoveryKey.bytes ∧
      value.oldEpoch.exactIncrement value.newEpoch ∧ context.storeId.isNone ∧
      context.accountId.isNone ∧ context.accountBindingSha256.isNone ∧
      context.policySha256.isNone)
    (malformed "owner recovery context is inconsistent")

/-- `validate_ambiguous_context`. -/
def validateAmbiguousContext (context : ManifestContext) (value : AmbiguousCloseManifest) :
    Result Unit :=
  ensure (context.storeId.isSome ∧ context.accountId.isSome ∧
      context.accountBindingSha256.isSome ∧ context.policySha256.isSome ∧
      ¬(value.assertionText.isEmpty || value.assertionText.utf8ByteSize > 1024 ||
        hasControl value.assertionText))
    (malformed "ambiguous closure context is inconsistent")

/-- `validate_payload_context`. -/
def validatePayloadContext (context : ManifestContext) : ManifestPayload → Result Unit
  | .sendSubmit _ | .mailSeen _ | .mailStarred _ | .mailMove _ | .mailArchive _
  | .mailSafeDelete _ => pure ()
  | .storeEnroll value => do
      let target ← orRefuse (match context.target with | .store id => some id | _ => none)
        (malformed "store enrollment target is malformed")
      ensure (context.storeId = some target ∧ value.configCas.storeId = target ∧
          context.accountId.isNone ∧ context.accountBindingSha256.isNone ∧
          context.policySha256.isNone)
        (malformed "store enrollment context is inconsistent")
  | .accountCreate value => validateAccountMutationContext env context .accountCreate value
  | .accountUpdate value => validateAccountMutationContext env context .accountUpdate value
  | .accountRemove value => validateAccountMutationContext env context .accountRemove value
  | .credentialSet value => validateCredentialMutationContext env context .credentialSet value
  | .credentialDelete value =>
      validateCredentialMutationContext env context .credentialDelete value
  | .credentialCleanup value => do
      let target ← orRefuse (match context.target with | .cleanup id => some id | _ => none)
        (malformed "credential cleanup target is malformed")
      ensure (target = value.cleanupId ∧ context.storeId.isSome ∧ context.accountId.isSome ∧
          context.accountBindingSha256.isSome ∧ context.policySha256.isNone)
        (malformed "credential cleanup context is inconsistent")
  | .ownerRotate value => validateTrustRotationContext env context .owner value
  | .recoveryRotate value => validateTrustRotationContext env context .recovery value
  | .ownerRecover value => validateOwnerRecoverContext env context value
  | .ambiguousClose value => validateAmbiguousContext context value

/-! ## 5. Manifests -/

/-- The field codec of a manifest: the encoders of its common fields and payload, and the parsers
    that undo them. -/
structure ManifestCodec where
  encode : ManifestContext → ManifestPayload → Result Bytes
  decode : Bytes → Result (ManifestContext × ManifestPayload)

structure ActionManifest where
  context : ManifestContext
  payload : ManifestPayload
  canonicalBytes : Bytes
  sha256 : Digest
  deriving DecidableEq, Repr

namespace ActionManifest

variable (codec : ManifestCodec)

def action (m : ActionManifest) : SensitiveAction := m.payload.action

/-- `ActionManifest::new`. -/
def new (context : ManifestContext) (payload : ManifestPayload) : Result ActionManifest := do
  validateManifestContext context payload.action
  validatePayloadContext env context payload
  let bytes ← codec.encode context payload
  pure ⟨context, payload, bytes, env.sha256 bytes⟩

/-- `ActionManifest::parse`. -/
def parse (bytes : Bytes) : Result ActionManifest := do
  ensure (bytes.length ≤ 4194304) (limit "authorization manifest is too large")
  let (context, payload) ← codec.decode bytes
  let result ← new env codec context payload
  ensure (result.canonicalBytes = bytes) (malformed "manifest is not canonical")
  pure result

/-- What every manifest value has passed. -/
structure Valid (m : ActionManifest) : Prop where
  context_ok : validateManifestContext m.context m.payload.action = .ok ()
  payload_ok : validatePayloadContext env m.context m.payload = .ok ()
  sha256_eq : m.sha256 = env.sha256 m.canonicalBytes

/-- **A parsed manifest is valid, and its bytes are the parsed ones.** -/
theorem parse_ok {bytes : Bytes} {m : ActionManifest} (h : parse env codec bytes = .ok m) :
    m.Valid env ∧ m.canonicalBytes = bytes ∧ bytes.length ≤ 4194304 := by
  simp only [parse, new, bind_ok, ensure_ok, pure_ok] at h
  obtain ⟨_, hlen, ⟨context, payload⟩, _, result, ⟨_, hc, _, hp, b, _, rfl⟩, _, hb, rfl⟩ := h
  exact ⟨⟨hc, hp, rfl⟩, hb, hlen⟩

end ActionManifest

/-! ## 6. What the checks say -/

/-- What the checks of an account mutation leave standing. -/
structure AccountMutationOk (context : ManifestContext) (action : SensitiveAction)
    (value : AccountMutationManifest) (target : AccountId) : Prop where
  target_eq : context.target = .account target
  store_eq : context.storeId = some value.configCas.storeId
  account_eq : context.accountId = some target
  policy_eq : context.policySha256 = none
  increment : value.configCas.generation.exactIncrement value.nextConfigGeneration
  before_id : ∀ s ∈ value.before, s.accountId = target
  after_id : ∀ s ∈ value.after, s.accountId = target
  before_ok : ∀ s ∈ value.before, validateAccountSnapshot env s = .ok ()
  after_ok : ∀ s ∈ value.after, validateAccountSnapshot env s = .ok ()
  shape : accountMutationShape action value
  binding_eq : context.accountBindingSha256 = signedBinding action value
  binding_some : context.accountBindingSha256.isSome

theorem validateAccountMutationContext_ok {context : ManifestContext} {action : SensitiveAction}
    {value : AccountMutationManifest}
    (h : validateAccountMutationContext env context action value = .ok ()) :
    ∃ target, AccountMutationOk env context action value target := by
  simp only [validateAccountMutationContext, bind_ok, orRefuse_ok, ensure_ok, checkAll_ok] at h
  obtain ⟨target, ht, _, ⟨h1, h2, h3, h4, h5, h6, h7⟩, _, hs, _, hshape, hb⟩ := h
  have htarget : context.target = .account target := by
    cases hc : context.target <;> simp_all
  exact ⟨target, htarget, h1, h2, by simpa using h4, h5, h6, h7,
    fun s hs' => hs s (by simp [Option.mem_def.mp hs']),
    fun s hs' => hs s (by simp [Option.mem_def.mp hs']), hshape, hb, h3⟩

/-- What the checks of a credential mutation leave standing. -/
structure CredentialMutationOk (context : ManifestContext) (action : SensitiveAction)
    (value : CredentialMutationManifest) (before after : AccountSnapshot) : Prop where
  before_eq : value.account.before = some before
  after_eq : value.account.after = some after
  before_ok : validateAccountSnapshot env before = .ok ()
  after_ok : validateAccountSnapshot env after = .ok ()
  store_eq : context.storeId = some value.account.configCas.storeId
  account_eq : context.accountId = some after.accountId
  policy_eq : context.policySha256 = none
  same_account : before.accountId = after.accountId
  same_display : before.displayId = after.displayId
  same_material : sameAccountBindingMaterial before after
  generation : before.generation.exactIncrement after.generation
  increment : value.account.configCas.generation.exactIncrement value.account.nextConfigGeneration
  target_eq : context.target = .credential after.credentialId
  binding_eq : context.accountBindingSha256 = some after.bindingSha256

theorem validateCredentialMutationContext_ok {context : ManifestContext}
    {action : SensitiveAction} {value : CredentialMutationManifest}
    (h : validateCredentialMutationContext env context action value = .ok ()) :
    ∃ before after, CredentialMutationOk env context action value before after := by
  simp only [validateCredentialMutationContext, bind_ok, orRefuse_ok, ensure_ok] at h
  obtain ⟨target, ht, account, hacc, ⟨before, after⟩, hba, _, hbok, _, haok, _,
    ⟨h1, h2, h3, h4, h5, h6, h7, h8, h9⟩, _, _, binding, hbind, hsigned⟩ := h
  have htarget : context.target = .credential target := by
    cases hc : context.target <;> simp_all
  simp only [Option.bind_eq_bind, Option.bind_eq_some_iff, Option.some.injEq,
    Prod.mk.injEq] at hba
  obtain ⟨b, hb, a, ha, rfl, rfl⟩ := hba
  have hm := h6
  simp only [sameAccountBindingMaterial, Bool.and_eq_true, beq_iff_eq] at hm
  have hcred : a.credentialId = target ∧ a.bindingSha256 = binding := by
    split at hsigned
    · exact hsigned
    · exact ⟨hm.1.1.1.1.1.2 ▸ hsigned.1, hm.1.1.1.2 ▸ hsigned.2⟩
  exact ⟨b, a, hb, ha, hbok, haok, h1, by rw [hacc, h8], by simpa using h2, h3, h4, h6, h5, h9,
    by rw [htarget, hcred.1], by rw [hbind, hcred.2]⟩

/-- The display name of a checked snapshot has the shape of an account name. -/
theorem validateAccountSnapshot_displayId {s : AccountSnapshot}
    (h : validateAccountSnapshot env s = .ok ()) : validAccountId s.displayId := by
  simp only [validateAccountSnapshot, bind_ok, ensure_ok] at h
  obtain ⟨_, hc, _⟩ := h
  simp only [Bool.or_eq_true, Bool.not_eq_true', not_or] at hc
  simpa using hc.1.1.1.1.1.1.1

end Kirje
