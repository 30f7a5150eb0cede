import Kirje.Core.Codec

/-
  File:      Kirje/Core/Encoding.lean
  Subject:   The encoders and the parsers of the seventeen manifest payloads, and of the
             values inside them (crates/kirje-core/src/authorization.rs).

  The number of cleanup descriptors that the parser of an account mutation admits is a
  parameter (`maximum`); the code's is `maxCleanup`.  `manifestCodec` is the codec of
  `ActionManifest::new` and `ActionManifest::parse`.
-/

namespace Kirje

open Base

/-! ## 1. Codes -/

def AttachmentSummaryDisposition.code : AttachmentSummaryDisposition → Nat
  | complete => 1
  | truncated => 2
  | omitted => 3

def MailboxSpecialUseInput.code : MailboxSpecialUseInput → Nat
  | none => 0
  | archive => 1
  | trash => 2

def MailboxStrategy.code : MailboxStrategy → Nat
  | store => 1
  | uidMove => 2
  | copyThenMarkDeleted => 3

def HostKind.code : HostKind → Nat
  | dns => 1
  | ipv4 => 2
  | ipv6 => 3

def CleanupState.code : CleanupState → Nat
  | provisional => 1
  | ready => 2
  | claimed => 3
  | deleted => 4

def LocatorKind.code : LocatorKind → Nat
  | activeV2 => 1
  | legacyV1 => 2

def BindingState.code : BindingState → Nat
  | quarantined => 1
  | proposed => 2
  | authorized => 3
  | invalidated => 4
  | mismatch => 5

def StoredCredentialState.code : StoredCredentialState → Nat
  | legacyQuarantined => 1
  | reentryRequired => 2
  | missing => 3
  | bound => 4
  | invalidated => 5

def AccountStateReason.code : AccountStateReason → Nat
  | legacyUnbound => 1
  | credentialReentryRequired => 2
  | bindingChanged => 3
  | ownerRecovery => 4
  | authorityMismatch => 5
  | configMigration => 6

def TrustPermissionMask.code : TrustPermissionMask → Nat
  | owner => 0x00000007
  | recovery => 0x00000008

def AmbiguousAssertion.code : AmbiguousAssertion → Nat
  | occurred => 1
  | noEffect => 2
  | unknown => 3

def AmbiguousTerminal.code : AmbiguousTerminal → Nat
  | succeeded => 1
  | failedKnownNoEffect => 2
  | ambiguousClosed => 3

def parseDisposition : Bytes → Result AttachmentSummaryDisposition :=
  parseCode [.complete, .truncated, .omitted] AttachmentSummaryDisposition.code
    "unknown attachment summary disposition"

def parseSpecialUse : Bytes → Result MailboxSpecialUseInput :=
  parseCode [.none, .archive, .trash] MailboxSpecialUseInput.code
    "unknown mailbox special-use code"

def parseStrategy : Bytes → Result MailboxStrategy :=
  parseCode [.store, .uidMove, .copyThenMarkDeleted] MailboxStrategy.code
    "unknown mailbox strategy code"

def parseProtocol : Bytes → Result Protocol :=
  parseCode [.imap, .smtp, .jmap] protocolCode "unknown endpoint protocol"

def parseHostKind : Bytes → Result HostKind :=
  parseCode [.dns, .ipv4, .ipv6] HostKind.code "unknown endpoint host kind"

def parseSecurity : Bytes → Result TransportSecurity :=
  parseCode [.implicitTls, .startTls, .https] securityCode "unknown endpoint security code"

/-- `parse_locator_kind`. -/
def parseLocatorKind : Bytes → Result LocatorKind :=
  parseCode [.activeV2, .legacyV1] LocatorKind.code "unknown locator kind"

/-- `parse_cleanup_state`. -/
def parseCleanupState : Bytes → Result CleanupState :=
  parseCode [.provisional, .ready, .claimed, .deleted] CleanupState.code "unknown cleanup state"

/-- `parse_owner_role`. -/
def parseOwnerRole : Bytes → Result OwnerKeyRole :=
  parseCode [.owner, .recovery] OwnerKeyRole.code "unknown owner key role"

/-- `parse_credential_kind`. -/
def parseCredentialKind : Bytes → Result CredentialKind :=
  parseCode [.password, .appPassword, .oauth2] credentialKindCode "unknown credential kind"

/-- `parse_binding_state`. -/
def parseBindingState : Bytes → Result BindingState :=
  parseCode [.quarantined, .proposed, .authorized, .invalidated, .mismatch] BindingState.code
    "unknown binding state"

/-- `parse_stored_credential_state`. -/
def parseStoredCredentialState : Bytes → Result StoredCredentialState :=
  parseCode [.legacyQuarantined, .reentryRequired, .missing, .bound, .invalidated]
    StoredCredentialState.code "unknown stored credential state"

/-- `parse_account_state_reason`, on a reason that is there. -/
def parseStateReason : Bytes → Result AccountStateReason :=
  parseCode [.legacyUnbound, .credentialReentryRequired, .bindingChanged, .ownerRecovery,
    .authorityMismatch, .configMigration] AccountStateReason.code "unknown account state reason"

def parseAssertion : Bytes → Result AmbiguousAssertion :=
  parseCode [.occurred, .noEffect, .unknown] AmbiguousAssertion.code "unknown ambiguous assertion"

def parseTerminal : Bytes → Result AmbiguousTerminal :=
  parseCode [.succeeded, .failedKnownNoEffect, .ambiguousClosed] AmbiguousTerminal.code
    "unknown ambiguous terminal"

/-- The permissions of a role, a mask of four bytes. -/
def parsePermissions (bytes : Bytes) : Result TrustPermissionMask := do
  let mask ← parseNat 4 bytes
  orRefuse ([TrustPermissionMask.owner, .recovery].find? fun p => p.code == mask)
    (malformed "unknown trust permission mask")

/-- A transcript with other tags than its parser reads. -/
def wrongTags : MailError := malformed "transcript tag set is invalid"

/-! ## 2. Addresses and attachments -/

/-- `ManifestAddress::new`. -/
def ManifestAddress.new (displayName : Option String) (email : String) : Result ManifestAddress := do
  ensure (¬((displayName.any fun name => decide (name.length > 256) || hasControl name) ||
      !validEmail email))
    (.invalid "manifest address is malformed")
  pure ⟨displayName, email⟩

def addressDomain : Bytes := ascii "KIRJE-ADDRESS-V1\x00"

def ManifestAddress.encode (value : ManifestAddress) : Result Bytes :=
  encodeFields addressDomain [(1, optionalText value.displayName), (2, utf8 value.email)]

def ManifestAddress.parse (bytes : Bytes) : Result ManifestAddress := do
  let fields ← parseFields bytes addressDomain 2
  match ← expectTags fields [1, 2] with
  | [displayName, email] => do
      let displayName ← parseOptionalText displayName
      let email ← parseText email
      ManifestAddress.new displayName email
  | _ => .error wrongTags

/-- `valid_message_id`. -/
def validMessageId (value : String) : Bool :=
  isAsciiText value && decide (3 ≤ value.utf8ByteSize) && decide (value.utf8ByteSize ≤ 998) &&
    value.toList.head? == some '<' && value.toList.getLast? == some '>' &&
    !value.toList.any fun c => isControl c || c == ' '

/-- `valid_ascii_token`. -/
def validAsciiToken (value : String) : Bool :=
  !value.isEmpty && decide (value.utf8ByteSize ≤ 256) && isAsciiText value &&
    value.toList.all fun c => !isControl c && !isWhitespace c

/-- Whether a summary has a text exactly when its disposition says so. -/
def summaryShape (summary : ManifestAttachmentSummary) : Bool :=
  match summary.disposition with
  | .complete | .truncated => summary.text.isSome
  | .omitted => summary.text.isNone

/-- The checks of the summary of an attachment. -/
def validateSummary (summary : ManifestAttachmentSummary) : Result Unit := do
  ensure (¬summary.text.any fun text => decide (text.length > 4096))
    (limit "manifest attachment summary is too large")
  ensure (summaryShape summary) (.invalid "manifest attachment summary shape is malformed")

/-- `validate_manifest_attachment`. -/
def validateManifestAttachment (value : ManifestAttachment) : Result Unit := do
  ensure (¬(value.filename.isEmpty || decide (value.filename.length > 255) ||
      hasControl value.filename || value.filename.toList.any (fun c => c == '/' || c == '\\') ||
      !validMimeType value.mimeType || decide (value.mimeType.utf8ByteSize > 127) ||
      decide (value.decodedSize > 1048576)))
    (.invalid "manifest attachment metadata is malformed")
  checkAll validateSummary value.summary.toList

def summaryDomain : Bytes := ascii "KIRJE-ATTACHMENT-SUMMARY-V1\x00"

/-- `encode_manifest_attachment_summary`; a summary is always untrusted. -/
def encodeSummary (value : ManifestAttachmentSummary) : Result Bytes :=
  encodeFields summaryDomain [(1, be 1 value.disposition.code), (2, optionalText value.text),
    (3, optionalU64 value.originalBytes), (4, be 1 (boolCode true))]

/-- `parse_manifest_attachment_summary`. -/
def parseSummary (bytes : Bytes) : Result ManifestAttachmentSummary := do
  let fields ← parseFields bytes summaryDomain 4
  match ← expectTags fields [1, 2, 3, 4] with
  | [disposition, text, originalBytes, untrusted] => do
      let disposition ← parseDisposition disposition
      let untrusted ← parseBool untrusted
      ensure (untrusted = true) (malformed "attachment summaries must be untrusted")
      let text ← parseOptionalText text
      let originalBytes ← parseOptional (parseNat 8) originalBytes
      pure ⟨disposition, text, originalBytes⟩
  | _ => .error wrongTags

def attachmentDomain : Bytes := ascii "KIRJE-ATTACHMENT-V1\x00"

/-- An optional transcript: no byte where the value is absent. -/
def encodeOptional {α : Type} (encode : α → Result Bytes) : Option α → Result Bytes
  | none => pure []
  | some a => encode a

/-- `encode_manifest_attachment`. -/
def encodeAttachment (value : ManifestAttachment) : Result Bytes := do
  validateManifestAttachment value
  let summary ← encodeOptional encodeSummary value.summary
  encodeFields attachmentDomain [(1, utf8 value.filename), (2, utf8 value.mimeType),
    (3, be 8 value.decodedSize), (4, value.contentSha256.bytes), (5, summary)]

/-- `parse_manifest_attachment`. -/
def parseAttachment (bytes : Bytes) : Result ManifestAttachment := do
  let fields ← parseFields bytes attachmentDomain 5
  match ← expectTags fields [1, 2, 3, 4, 5] with
  | [filename, mimeType, decodedSize, contentSha256, summary] => do
      let filename ← parseText filename
      let mimeType ← parseText mimeType
      let decodedSize ← parseNat 8 decodedSize
      let contentSha256 ← parseDigest contentSha256
      let summary ← parseOptional parseSummary summary
      let value : ManifestAttachment := ⟨filename, mimeType, decodedSize, contentSha256, summary⟩
      validateManifestAttachment value
      pure value
  | _ => .error wrongTags

/-! ## 3. `send_submit` -/

/-- The checks of each attachment, and of their total. -/
def validateManifestAttachments : Nat → List ManifestAttachment → Result Unit
  | _, [] => pure ()
  | total, value :: rest => do
      validateManifestAttachment value
      ensure (total + value.decodedSize < 2 ^ 64 ∧ total + value.decodedSize ≤ 8388608)
        (limit "manifest attachment total is too large")
      validateManifestAttachments (total + value.decodedSize) rest

/-- The checks of `encode_send`. -/
def validateSend (send : SendSubmitManifest) : Result Unit := do
  ensure (¬(send.toAddrs.length + send.cc.length + send.bcc.length = 0 ∨
      send.toAddrs.length + send.cc.length + send.bcc.length > 50))
    (.stable .resourceLimit "manifest recipient count is outside the contract")
  ensure (¬(decide (send.subject.length > 998) || hasControl send.subject ||
      (send.text.all String.isEmpty && send.html.all String.isEmpty) ||
      (send.text.any fun text => decide (text.length > 262144)) ||
      (send.html.any fun html => decide (html.length > 262144)) ||
      decide (send.attachments.length > 25) || decide (send.references.length > 100) ||
      !validMessageId send.messageId || !validAsciiToken send.mimeBoundary ||
      (send.inReplyTo.any fun value => !validMessageId value) ||
      send.references.any fun value => !validMessageId value))
    (.invalid "send manifest is malformed")
  validateManifestAttachments 0 send.attachments

/-- `encode_send`; the builder of the message is `KirjeMimeV1`, with the code 1. -/
def encodeSend (send : SendSubmitManifest) : Result (List (Nat × Bytes)) := do
  validateSend send
  let sender ← send.sender.encode
  let toAddrs ← encodeList ManifestAddress.encode send.toAddrs
  let cc ← encodeList ManifestAddress.encode send.cc
  let bcc ← encodeList ManifestAddress.encode send.bcc
  let attachments ← encodeList encodeAttachment send.attachments
  let references ← encodeList (fun value => pure (utf8 value)) send.references
  pure [(0x0100, send.accountGeneration.beBytes), (0x0101, sender), (0x0102, toAddrs), (0x0103, cc),
    (0x0104, bcc), (0x0105, utf8 send.subject), (0x0106, optionalText send.text),
    (0x0107, optionalText send.html), (0x0108, attachments), (0x0109, utf8 send.messageId),
    (0x010a, beI64 send.dateUnixMs), (0x010b, be 2 1), (0x010c, utf8 send.mimeBoundary),
    (0x010d, optionalText send.inReplyTo), (0x010e, references),
    (0x010f, Digest.optBytes send.canonicalRfc822Sha256)]

/-- `parse_send`. -/
def parseSend (fields : List (Nat × Bytes)) : Result SendSubmitManifest := do
  match ← expectTags fields [0x0100, 0x0101, 0x0102, 0x0103, 0x0104, 0x0105, 0x0106, 0x0107, 0x0108,
      0x0109, 0x010a, 0x010b, 0x010c, 0x010d, 0x010e, 0x010f] with
  | [generation, sender, toAddrs, cc, bcc, subject, text, html, attachments, messageId, date, builder,
      boundary, inReplyTo, references, rfc822] => do
      let builder ← parseNat 2 builder
      ensure (builder = 1) (malformed "unknown MIME builder version")
      let accountGeneration ← parseNonzeroU64 generation
      let sender ← ManifestAddress.parse sender
      let toAddrs ← parseList ManifestAddress.parse 50 toAddrs
      let cc ← parseList ManifestAddress.parse 50 cc
      let bcc ← parseList ManifestAddress.parse 50 bcc
      let subject ← parseText subject
      let text ← parseOptionalText text
      let html ← parseOptionalText html
      let attachments ← parseList parseAttachment 25 attachments
      let messageId ← parseText messageId
      let dateUnixMs ← parseI64 date
      let mimeBoundary ← parseText boundary
      let inReplyTo ← parseOptionalText inReplyTo
      let references ← parseList parseText 100 references
      let canonicalRfc822Sha256 ← parseOptional parseDigest rfc822
      pure ⟨accountGeneration, sender, toAddrs, cc, bcc, subject, text, html, attachments, messageId,
        dateUnixMs, mimeBoundary, inReplyTo, references, canonicalRfc822Sha256⟩
  | _ => .error wrongTags

/-! ## 4. Mailbox operations -/

/-- `invalid_mailbox`. -/
def invalidMailbox (value : String) : Bool :=
  value.isEmpty || decide (value.length > 4096) || hasControl value

/-- The shape of a mailbox manifest for its action. -/
def mailboxShape (action : SensitiveAction) (mailbox : MailboxManifest) : Bool :=
  match action with
  | .mailSeen | .mailStarred => mailbox.requestedValue.isSome &&
      mailbox.requestedDestination.isNone && mailbox.specialUse == .none &&
      mailbox.resolvedDestination.isNone && mailbox.strategy == .store
  | .mailMove => mailbox.requestedValue.isNone && mailbox.requestedDestination.isSome &&
      mailbox.specialUse == .none && mailbox.resolvedDestination.isSome &&
      (mailbox.strategy == .uidMove || mailbox.strategy == .copyThenMarkDeleted)
  | .mailArchive => mailbox.requestedValue.isNone && mailbox.requestedDestination.isNone &&
      mailbox.specialUse == .archive && mailbox.resolvedDestination.isSome &&
      (mailbox.strategy == .uidMove || mailbox.strategy == .copyThenMarkDeleted)
  | .mailSafeDelete => mailbox.requestedValue.isNone && mailbox.requestedDestination.isNone &&
      mailbox.specialUse == .trash && mailbox.resolvedDestination.isSome &&
      (mailbox.strategy == .uidMove || mailbox.strategy == .copyThenMarkDeleted)
  | _ => false

/-- `validate_mailbox`. -/
def validateMailbox (action : SensitiveAction) (mailbox : MailboxManifest) : Result Unit := do
  ensure (¬(mailbox.sourceMailbox.isEmpty || decide (mailbox.sourceMailbox.length > 4096) ||
      hasControl mailbox.sourceMailbox || !mailbox.capabilityComplete ||
      mailbox.requestedDestination.any invalidMailbox ||
      mailbox.resolvedDestination.any invalidMailbox))
    (.invalid "mailbox manifest is malformed")
  ensure (mailboxShape action mailbox) (.invalid "mailbox manifest action shape is invalid")

/-- `encode_mailbox`. -/
def encodeMailbox (action : SensitiveAction) (mailbox : MailboxManifest) :
    Result (List (Nat × Bytes)) := do
  validateMailbox action mailbox
  pure [(0x0100, mailbox.accountGeneration.beBytes), (0x0101, utf8 mailbox.sourceMailbox),
    (0x0102, be 4 mailbox.uidValidity), (0x0103, be 4 mailbox.uid),
    (0x0104, optionalCode boolCode mailbox.requestedValue),
    (0x0105, optionalText mailbox.requestedDestination), (0x0106, be 1 mailbox.specialUse.code),
    (0x0107, optionalText mailbox.resolvedDestination), (0x0108, be 1 mailbox.strategy.code),
    (0x0109, mailbox.capabilitySha256.bytes), (0x010a, be 1 (boolCode mailbox.capabilityComplete))]

/-- `parse_mailbox`. -/
def parseMailboxManifest (fields : List (Nat × Bytes)) : Result MailboxManifest := do
  match ← expectTags fields [0x0100, 0x0101, 0x0102, 0x0103, 0x0104, 0x0105, 0x0106, 0x0107, 0x0108,
      0x0109, 0x010a] with
  | [generation, source, uidValidity, uid, value, requested, specialUse, resolved, strategy, capability,
      complete] => do
      let specialUse ← parseSpecialUse specialUse
      let strategy ← parseStrategy strategy
      let accountGeneration ← parseNonzeroU64 generation
      let sourceMailbox ← parseText source
      let uidValidity ← parseNonzeroU32 uidValidity
      let uid ← parseNonzeroU32 uid
      let requestedValue ← parseOptional parseBool value
      let requestedDestination ← parseOptionalText requested
      let resolvedDestination ← parseOptionalText resolved
      let capabilitySha256 ← parseDigest capability
      let capabilityComplete ← parseBool complete
      pure ⟨accountGeneration, sourceMailbox, uidValidity, uid, requestedValue, requestedDestination,
        specialUse, resolvedDestination, strategy, capabilitySha256, capabilityComplete⟩
  | _ => .error wrongTags

/-! ## 5. Configurations, endpoints and accounts -/

def configCasDomain : Bytes := ascii "KIRJE-CONFIG-CAS-V1\x00"

/-- `encode_config_cas`. -/
def encodeConfigCas (value : ConfigCas) : Result Bytes :=
  encodeFields configCasDomain [(1, value.storeId.bytes), (2, value.generation.beBytes),
    (3, value.exactContentSha256.bytes), (4, value.locationSha256.bytes)]

/-- `parse_config_cas`. -/
def parseConfigCas (bytes : Bytes) : Result ConfigCas := do
  let fields ← parseFields bytes configCasDomain 4
  match ← expectTags fields [1, 2, 3, 4] with
  | [storeId, generation, content, location] => do
      let storeId ← parseUuid storeId
      let generation ← parseNonzeroU64 generation
      let exactContentSha256 ← parseDigest content
      let locationSha256 ← parseDigest location
      pure ⟨storeId, generation, exactContentSha256, locationSha256⟩
  | _ => .error wrongTags

def cleanupDescriptorDomain : Bytes := ascii "KIRJE-CLEANUP-DESCRIPTOR-V1\x00"

/-- `encode_cleanup_descriptor`. -/
def encodeCleanupDescriptor (value : CleanupDescriptor) : Result Bytes :=
  encodeFields cleanupDescriptorDomain [(1, value.cleanupId.bytes), (2, be 1 value.locatorKind.code),
    (3, value.locatorSha256.bytes), (4, be 1 value.expectedState.code)]

/-- `parse_cleanup_descriptor`. -/
def parseCleanupDescriptor (bytes : Bytes) : Result CleanupDescriptor := do
  let fields ← parseFields bytes cleanupDescriptorDomain 4
  match ← expectTags fields [1, 2, 3, 4] with
  | [cleanupId, locatorKind, locatorSha256, expectedState] => do
      let cleanupId ← parseUuid cleanupId
      let locatorKind ← parseLocatorKind locatorKind
      let locatorSha256 ← parseDigest locatorSha256
      let expectedState ← parseCleanupState expectedState
      pure ⟨cleanupId, locatorKind, locatorSha256, expectedState⟩
  | _ => .error wrongTags

variable (env : Platform)

def endpointDomain : Bytes := ascii "KIRJE-ENDPOINT-V1\x00"

/-- `encode_endpoint`. -/
def encodeEndpoint (value : EndpointSnapshot) : Result Bytes := do
  validateEndpoint env value
  encodeFields endpointDomain [(1, be 1 (protocolCode value.protocol)), (2, utf8 value.exactHost),
    (3, be 1 value.hostKind.code), (4, utf8 value.canonicalHost), (5, be 2 value.port),
    (6, be 1 (securityCode value.security))]

/-- `parse_endpoint`. -/
def parseEndpoint (bytes : Bytes) : Result EndpointSnapshot := do
  let fields ← parseFields bytes endpointDomain 6
  match ← expectTags fields [1, 2, 3, 4, 5, 6] with
  | [protocol, exactHost, hostKind, canonicalHost, port, security] => do
      let protocol ← parseProtocol protocol
      let hostKind ← parseHostKind hostKind
      let security ← parseSecurity security
      let exactHost ← parseText exactHost
      let canonicalHost ← parseText canonicalHost
      let port ← parseNat 2 port
      let value : EndpointSnapshot := ⟨protocol, exactHost, hostKind, canonicalHost, port, security⟩
      let _ ← encodeEndpoint env value
      pure value
  | _ => .error wrongTags

def accountSnapshotDomain : Bytes := ascii "KIRJE-ACCOUNT-SNAPSHOT-V1\x00"

/-- `encode_account_snapshot`. -/
def encodeAccountSnapshot (value : AccountSnapshot) : Result Bytes := do
  validateAccountSnapshot env value
  let incoming ← encodeEndpoint env value.incoming
  let outgoing ← encodeOptional (encodeEndpoint env) value.outgoing
  let cleanupIds ← encodeList (fun id => pure id.bytes) value.cleanupIds
  encodeFields accountSnapshotDomain [(1, utf8 value.displayId), (2, value.accountId.bytes),
    (3, value.generation.beBytes), (4, utf8 value.email), (5, utf8 value.username),
    (6, be 1 (credentialKindCode value.credentialKind)), (7, value.credentialId.bytes),
    (8, be 2 value.bindingVersion), (9, value.bindingSha256.bytes), (10, be 1 value.bindingState.code),
    (11, be 1 value.credentialState.code), (12, optionalCode AccountStateReason.code value.stateReason),
    (13, incoming), (14, outgoing), (15, cleanupIds)]

/-- `parse_account_snapshot`. -/
def parseAccountSnapshot (bytes : Bytes) : Result AccountSnapshot := do
  let fields ← parseFields bytes accountSnapshotDomain 15
  match ← expectTags fields [1, 2, 3, 4, 5, 6, 7, 8, 9, 10, 11, 12, 13, 14, 15] with
  | [displayId, accountId, generation, email, username, credentialKind, credentialId, bindingVersion,
      binding, bindingState, credentialState, stateReason, incoming, outgoing, cleanupIds] => do
      let displayId ← parseText displayId
      let accountId ← parseUuid accountId
      let generation ← parseNonzeroU64 generation
      let email ← parseText email
      let username ← parseText username
      let credentialKind ← parseCredentialKind credentialKind
      let credentialId ← parseUuid credentialId
      let bindingVersion ← parseNat 2 bindingVersion
      let bindingSha256 ← parseDigest binding
      let bindingState ← parseBindingState bindingState
      let credentialState ← parseStoredCredentialState credentialState
      let stateReason ← parseOptional parseStateReason stateReason
      let incoming ← parseEndpoint env incoming
      let outgoing ← parseOptional (parseEndpoint env) outgoing
      let cleanupIds ← parseList parseUuid 100 cleanupIds
      pure ⟨displayId, accountId, generation, email, username, credentialKind, credentialId,
        bindingVersion, bindingSha256, bindingState, credentialState, stateReason, incoming, outgoing,
        cleanupIds⟩
  | _ => .error wrongTags

/-! ## 6. Control actions -/

/-- `encode_store_enroll`; the expected state is `Unregistered`, with the code 0. -/
def encodeStoreEnroll (value : StoreEnrollManifest) : Result (List (Nat × Bytes)) := do
  let configCas ← encodeConfigCas value.configCas
  pure [(0x0100, value.transitionId.bytes), (0x0101, configCas), (0x0102, be 1 0)]

/-- `parse_store_enroll`. -/
def parseStoreEnroll (fields : List (Nat × Bytes)) : Result StoreEnrollManifest := do
  match ← expectTags fields [0x0100, 0x0101, 0x0102] with
  | [transitionId, configCas, state] => do
      let state ← parseNat 1 state
      ensure (state = 0) (malformed "unknown store enrollment state")
      let transitionId ← parseUuid transitionId
      let configCas ← parseConfigCas configCas
      pure ⟨transitionId, configCas⟩
  | _ => .error wrongTags

/-- `encode_account_mutation`. -/
def encodeAccountMutation (value : AccountMutationManifest) : Result (List (Nat × Bytes)) := do
  let configCas ← encodeConfigCas value.configCas
  let before ← encodeOptional (encodeAccountSnapshot env) value.before
  let after ← encodeOptional (encodeAccountSnapshot env) value.after
  let cleanup ← encodeList encodeCleanupDescriptor value.cleanup
  pure [(0x0100, value.transitionId.bytes), (0x0101, configCas), (0x0102, before), (0x0103, after),
    (0x0104, value.nextConfigGeneration.beBytes), (0x0105, value.afterConfigSha256.bytes),
    (0x0106, cleanup)]

/-- The number of cleanup descriptors that a manifest is parsed with. -/
def maxCleanup : Nat := 100

/-- `parse_account_mutation`. -/
def parseAccountMutation (maximum : Nat) (fields : List (Nat × Bytes)) :
    Result AccountMutationManifest := do
  match ← expectTags fields [0x0100, 0x0101, 0x0102, 0x0103, 0x0104, 0x0105, 0x0106] with
  | [transitionId, configCas, before, after, generation, content, cleanup] => do
      let transitionId ← parseUuid transitionId
      let configCas ← parseConfigCas configCas
      let before ← parseOptional (parseAccountSnapshot env) before
      let after ← parseOptional (parseAccountSnapshot env) after
      let nextConfigGeneration ← parseNonzeroU64 generation
      let afterConfigSha256 ← parseDigest content
      let cleanup ← parseList parseCleanupDescriptor maximum cleanup
      pure ⟨transitionId, configCas, before, after, nextConfigGeneration, afterConfigSha256, cleanup⟩
  | _ => .error wrongTags

/-- `encode_credential_mutation`. -/
def encodeCredentialMutation (value : CredentialMutationManifest) :
    Result (List (Nat × Bytes)) := do
  let fields ← encodeAccountMutation env value.account
  pure (fields ++ [(0x0107, value.activeLocatorSha256.bytes)])

/-- `parse_credential_mutation`. -/
def parseCredentialMutation (maximum : Nat) (fields : List (Nat × Bytes)) :
    Result CredentialMutationManifest := do
  match ← expectTags fields [0x0100, 0x0101, 0x0102, 0x0103, 0x0104, 0x0105, 0x0106, 0x0107] with
  | [_, _, _, _, _, _, _, locator] => do
      let account ← parseAccountMutation env maximum (fields.take 7)
      let activeLocatorSha256 ← parseDigest locator
      pure ⟨account, activeLocatorSha256⟩
  | _ => .error wrongTags

/-- `encode_credential_cleanup`. -/
def encodeCredentialCleanup (value : CredentialCleanupManifest) : List (Nat × Bytes) :=
  [(0x0100, value.cleanupId.bytes), (0x0101, be 1 value.locatorKind.code),
    (0x0102, value.locatorSha256.bytes), (0x0103, value.tombstoneSha256.bytes),
    (0x0104, Uuid.optBytes value.transitionId), (0x0105, be 1 value.expectedState.code)]

/-- `parse_credential_cleanup`. -/
def parseCredentialCleanup (fields : List (Nat × Bytes)) : Result CredentialCleanupManifest := do
  match ← expectTags fields [0x0100, 0x0101, 0x0102, 0x0103, 0x0104, 0x0105] with
  | [cleanupId, locatorKind, locatorSha256, tombstone, transitionId, expectedState] => do
      let cleanupId ← parseUuid cleanupId
      let locatorKind ← parseLocatorKind locatorKind
      let locatorSha256 ← parseDigest locatorSha256
      let tombstoneSha256 ← parseDigest tombstone
      let transitionId ← parseOptional parseUuid transitionId
      let expectedState ← parseCleanupState expectedState
      pure ⟨cleanupId, locatorKind, locatorSha256, tombstoneSha256, transitionId, expectedState⟩
  | _ => .error wrongTags

/-- `encode_trust_rotation`. -/
def encodeTrustRotation (value : TrustRotationManifest) : List (Nat × Bytes) :=
  [(0x0100, value.transitionId.bytes), (0x0101, be 1 value.role.code), (0x0102, value.oldKeyId.bytes),
    (0x0103, value.oldPublicKey.bytes), (0x0104, value.newKeyId.bytes),
    (0x0105, value.newPublicKey.bytes), (0x0106, value.oldEpoch.beBytes),
    (0x0107, value.newEpoch.beBytes), (0x0108, value.oldBundle.bytes), (0x0109, value.newBundle.bytes),
    (0x010a, be 4 value.permissions.code)]

/-- `parse_trust_rotation`. -/
def parseTrustRotation (fields : List (Nat × Bytes)) : Result TrustRotationManifest := do
  match ← expectTags fields [0x0100, 0x0101, 0x0102, 0x0103, 0x0104, 0x0105, 0x0106, 0x0107, 0x0108,
      0x0109, 0x010a] with
  | [transitionId, role, oldKeyId, oldKey, newKeyId, newKey, oldEpoch, newEpoch, oldBundle, newBundle,
      permissions] => do
      let role ← parseOwnerRole role
      let permissions ← parsePermissions permissions
      let transitionId ← parseUuid transitionId
      let oldKeyId ← parseDigest oldKeyId
      let oldPublicKey ← parseDigest oldKey
      let newKeyId ← parseDigest newKeyId
      let newPublicKey ← parseDigest newKey
      let oldEpoch ← parseNonzeroU64 oldEpoch
      let newEpoch ← parseNonzeroU64 newEpoch
      let oldBundle ← parseDigest oldBundle
      let newBundle ← parseDigest newBundle
      pure ⟨transitionId, role, oldKeyId, oldPublicKey, newKeyId, newPublicKey, oldEpoch, newEpoch,
        oldBundle, newBundle, permissions⟩
  | _ => .error wrongTags

/-- `encode_owner_recover`; the invalidation scope is `All`, with the code 1. -/
def encodeOwnerRecover (value : OwnerRecoverManifest) : List (Nat × Bytes) :=
  [(0x0100, value.transitionId.bytes), (0x0101, value.journalId.bytes),
    (0x0102, value.oldEpoch.beBytes), (0x0103, value.newEpoch.beBytes),
    (0x0104, value.oldBundle.bytes), (0x0105, value.newOwnerId.bytes),
    (0x0106, value.newOwnerKey.bytes), (0x0107, value.newRecoveryId.bytes),
    (0x0108, value.newRecoveryKey.bytes), (0x0109, value.newBundle.bytes), (0x010a, be 1 1)]

/-- `parse_owner_recover`. -/
def parseOwnerRecover (fields : List (Nat × Bytes)) : Result OwnerRecoverManifest := do
  match ← expectTags fields [0x0100, 0x0101, 0x0102, 0x0103, 0x0104, 0x0105, 0x0106, 0x0107, 0x0108,
      0x0109, 0x010a] with
  | [transitionId, journalId, oldEpoch, newEpoch, oldBundle, ownerId, ownerKey, recoveryId, recoveryKey,
      newBundle, scope] => do
      let scope ← parseNat 1 scope
      ensure (scope = 1) (malformed "unknown invalidation scope")
      let transitionId ← parseUuid transitionId
      let journalId ← parseUuid journalId
      let oldEpoch ← parseNonzeroU64 oldEpoch
      let newEpoch ← parseNonzeroU64 newEpoch
      let oldBundle ← parseDigest oldBundle
      let newOwnerId ← parseDigest ownerId
      let newOwnerKey ← parseDigest ownerKey
      let newRecoveryId ← parseDigest recoveryId
      let newRecoveryKey ← parseDigest recoveryKey
      let newBundle ← parseDigest newBundle
      pure ⟨transitionId, journalId, oldEpoch, newEpoch, oldBundle, newOwnerId, newOwnerKey,
        newRecoveryId, newRecoveryKey, newBundle⟩
  | _ => .error wrongTags

/-- `encode_ambiguous_close`. -/
def encodeAmbiguousClose (value : AmbiguousCloseManifest) : List (Nat × Bytes) :=
  [(0x0100, value.operationId.bytes), (0x0101, value.invocationId.bytes),
    (0x0102, value.originalManifestSha256.bytes), (0x0103, value.claimSha256.bytes),
    (0x0104, Digest.optBytes value.observationSha256), (0x0105, be 1 value.assertion.code),
    (0x0106, utf8 value.assertionText), (0x0107, be 1 value.terminal.code)]

/-- `parse_ambiguous_close`. -/
def parseAmbiguousClose (fields : List (Nat × Bytes)) : Result AmbiguousCloseManifest := do
  match ← expectTags fields [0x0100, 0x0101, 0x0102, 0x0103, 0x0104, 0x0105, 0x0106, 0x0107] with
  | [operationId, invocationId, manifest, claim, observation, assertion, text, terminal] => do
      let assertion ← parseAssertion assertion
      let terminal ← parseTerminal terminal
      let operationId ← parseUuid operationId
      let invocationId ← parseUuid invocationId
      let originalManifestSha256 ← parseDigest manifest
      let claimSha256 ← parseDigest claim
      let observationSha256 ← parseOptional parseDigest observation
      let assertionText ← parseText text
      pure ⟨operationId, invocationId, originalManifestSha256, claimSha256, observationSha256,
        assertion, assertionText, terminal⟩
  | _ => .error wrongTags

/-! ## 7. Manifests -/

def manifestDomain : Bytes := ascii "KIRJE-MANIFEST-V1\x00"

/-- `common_manifest_fields`. -/
def commonManifestFields (context : ManifestContext) (action : SensitiveAction) :
    List (Nat × Bytes) :=
  [(0x0001, be 2 action.code), (0x0002, be 2 context.target.kind.code),
    (0x0003, context.target.bytes), (0x0004, Uuid.optBytes context.storeId),
    (0x0005, Uuid.optBytes context.accountId), (0x0006, Digest.optBytes context.accountBindingSha256),
    (0x0007, Digest.optBytes context.policySha256), (0x0008, be 2 action.effectKind.code),
    (0x0009, Uuid.optBytes context.effectId)]

/-- `encode_payload`. -/
def encodePayload : ManifestPayload → Result (List (Nat × Bytes))
  | .sendSubmit send => encodeSend send
  | .mailSeen mailbox => encodeMailbox .mailSeen mailbox
  | .mailStarred mailbox => encodeMailbox .mailStarred mailbox
  | .mailMove mailbox => encodeMailbox .mailMove mailbox
  | .mailArchive mailbox => encodeMailbox .mailArchive mailbox
  | .mailSafeDelete mailbox => encodeMailbox .mailSafeDelete mailbox
  | .storeEnroll value => encodeStoreEnroll value
  | .accountCreate value | .accountUpdate value | .accountRemove value =>
      encodeAccountMutation env value
  | .credentialSet value | .credentialDelete value => encodeCredentialMutation env value
  | .credentialCleanup value => pure (encodeCredentialCleanup value)
  | .ownerRotate value | .recoveryRotate value => pure (encodeTrustRotation value)
  | .ownerRecover value => pure (encodeOwnerRecover value)
  | .ambiguousClose value => pure (encodeAmbiguousClose value)

/-- `parse_payload`. -/
def parsePayload (maximum : Nat) (action : SensitiveAction) (fields : List (Nat × Bytes)) :
    Result ManifestPayload :=
  match action with
  | .sendSubmit => ManifestPayload.sendSubmit <$> parseSend fields
  | .mailSeen => ManifestPayload.mailSeen <$> parseMailboxManifest fields
  | .mailStarred => ManifestPayload.mailStarred <$> parseMailboxManifest fields
  | .mailMove => ManifestPayload.mailMove <$> parseMailboxManifest fields
  | .mailArchive => ManifestPayload.mailArchive <$> parseMailboxManifest fields
  | .mailSafeDelete => ManifestPayload.mailSafeDelete <$> parseMailboxManifest fields
  | .storeEnroll => ManifestPayload.storeEnroll <$> parseStoreEnroll fields
  | .accountCreate => ManifestPayload.accountCreate <$> parseAccountMutation env maximum fields
  | .accountUpdate => ManifestPayload.accountUpdate <$> parseAccountMutation env maximum fields
  | .accountRemove => ManifestPayload.accountRemove <$> parseAccountMutation env maximum fields
  | .credentialSet => ManifestPayload.credentialSet <$> parseCredentialMutation env maximum fields
  | .credentialDelete =>
      ManifestPayload.credentialDelete <$> parseCredentialMutation env maximum fields
  | .credentialCleanup => ManifestPayload.credentialCleanup <$> parseCredentialCleanup fields
  | .ownerRotate => ManifestPayload.ownerRotate <$> parseTrustRotation fields
  | .recoveryRotate => ManifestPayload.recoveryRotate <$> parseTrustRotation fields
  | .ownerRecover => ManifestPayload.ownerRecover <$> parseOwnerRecover fields
  | .ambiguousClose => ManifestPayload.ambiguousClose <$> parseAmbiguousClose fields
  | .policyUpdate | .assuranceUpdate => .error unsupportedAction

/-- The encoding of `ActionManifest::new`. -/
def encodeManifest (context : ManifestContext) (payload : ManifestPayload) : Result Bytes := do
  let fields ← encodePayload env payload
  encodeFields manifestDomain (commonManifestFields context payload.action ++ fields)

/-- The parsing of `ActionManifest::parse`, before it builds the manifest anew. -/
def decodeManifest (maximum : Nat) (bytes : Bytes) : Result (ManifestContext × ManifestPayload) := do
  let fields ← parseFieldsAny bytes manifestDomain
  ensure (9 ≤ fields.length) (malformed "manifest common fields are incomplete")
  match ← expectTags (fields.take 9) [1, 2, 3, 4, 5, 6, 7, 8, 9] with
  | [action, kind, target, storeId, accountId, binding, policy, effect, effectId] => do
      let actionCode ← parseNat 2 action
      let action ← orRefuse (SensitiveAction.fromCode actionCode) unsupportedAction
      ensure action.supported unsupportedAction
      let kindCode ← parseNat 2 kind
      let kind ← orRefuse (TargetKind.fromCode kindCode) (malformed "unknown target kind")
      let target ← parseTarget kind target
      let storeId ← parseOptional parseUuid storeId
      let accountId ← parseOptional parseUuid accountId
      let accountBindingSha256 ← parseOptional parseDigest binding
      let policySha256 ← parseOptional parseDigest policy
      let effectId ← parseOptional parseUuid effectId
      let effectCode ← parseNat 2 effect
      let effect ← orRefuse (EffectKind.fromCode effectCode) (malformed "unknown effect kind")
      ensure (effect = action.effectKind) (malformed "manifest effect does not match action")
      let payload ← parsePayload env maximum action (fields.drop 9)
      pure (⟨target, storeId, accountId, accountBindingSha256, policySha256, effectId⟩, payload)
  | _ => .error wrongTags

/-- The codec of the code. -/
def manifestCodec : ManifestCodec := ⟨encodeManifest env, decodeManifest env maxCleanup⟩

end Kirje
