import Kirje.Core.Encoding

/-
  File:      Kirje/Core/RoundTrip.lean
  Subject:   What the parsers of manifest payloads read from what the encoders wrote.

  * `Typed`: the ranges of the numbers of a payload, and that its addresses were built
    by `ManifestAddress::new`; the types of the source say both.
  * `account_mutation_reads_back` and its siblings: each value and each payload.
  * **`decode_encode`**: a typed context and payload are decoded from their encoding,
    where the decoder admits their cleanup descriptors.
-/

namespace Kirje

open Base

/-! ## 1. Values of their types -/

def ManifestAddress.Typed (value : ManifestAddress) : Prop :=
  ManifestAddress.new value.displayName value.email = .ok value

def ManifestAttachment.Typed (value : ManifestAttachment) : Prop :=
  value.decodedSize < 2 ^ 64 ∧ ∀ summary ∈ value.summary, ∀ n ∈ summary.originalBytes, n < 2 ^ 64

structure SendSubmitManifest.Typed (send : SendSubmitManifest) : Prop where
  sender : send.sender.Typed
  toAddrs : ∀ a ∈ send.toAddrs, a.Typed
  cc : ∀ a ∈ send.cc, a.Typed
  bcc : ∀ a ∈ send.bcc, a.Typed
  attachments : ∀ a ∈ send.attachments, a.Typed
  date : -2 ^ 63 ≤ send.dateUnixMs ∧ send.dateUnixMs < 2 ^ 63

structure MailboxManifest.Typed (mailbox : MailboxManifest) : Prop where
  uidValidity : mailbox.uidValidity ≠ 0 ∧ mailbox.uidValidity < 2 ^ 32
  uid : mailbox.uid ≠ 0 ∧ mailbox.uid < 2 ^ 32

def EndpointSnapshot.Typed (value : EndpointSnapshot) : Prop := value.port < 2 ^ 16

structure AccountSnapshot.Typed (value : AccountSnapshot) : Prop where
  bindingVersion : value.bindingVersion < 2 ^ 16
  incoming : value.incoming.Typed
  outgoing : ∀ e ∈ value.outgoing, e.Typed

structure AccountMutationManifest.Typed (value : AccountMutationManifest) : Prop where
  before : ∀ s ∈ value.before, s.Typed
  after : ∀ s ∈ value.after, s.Typed

/-- A payload whose numbers and addresses are of the types of the source. -/
def ManifestPayload.Typed : ManifestPayload → Prop
  | .sendSubmit send => send.Typed
  | .mailSeen mailbox | .mailStarred mailbox | .mailMove mailbox | .mailArchive mailbox
  | .mailSafeDelete mailbox => mailbox.Typed
  | .accountCreate value | .accountUpdate value | .accountRemove value => value.Typed
  | .credentialSet value | .credentialDelete value => value.account.Typed
  | .storeEnroll _ | .credentialCleanup _ | .ownerRotate _ | .recoveryRotate _ | .ownerRecover _
  | .ambiguousClose _ => True

/-- The cleanup descriptors of a payload. -/
def ManifestPayload.cleanup : ManifestPayload → List CleanupDescriptor
  | .accountCreate value | .accountUpdate value | .accountRemove value => value.cleanup
  | .credentialSet value | .credentialDelete value => value.account.cleanup
  | _ => []

/-! ## 2. Reading transcripts -/

/-- The tags of a list of fields, where they are the expected ones. -/
theorem read_fields {α : Type} {fields : List (Nat × Bytes)} (tags : List Nat)
    (htags : fields.map Prod.fst = tags) (k : List Bytes → Result α) :
    (do let values ← expectTags fields tags
        k values) = k (fields.map Prod.snd) := by
  subst htags
  simp [bind, Except.bind, expectTags, ensure, pure, Except.pure]

/-- A transcript, read with its tags. -/
theorem read_transcript {α : Type} {domain bytes : Bytes} {fields : List (Nat × Bytes)} (n : Nat)
    (h : encodeFields domain fields = .ok bytes) (tags : List Nat) (htags : fields.map Prod.fst = tags)
    (hn : tags.length = n) (hle : n ≤ 256) (hlt : ∀ t ∈ tags, t < 2 ^ 16) (k : List Bytes → Result α) :
    (do let fs ← parseFields bytes domain n
        let values ← expectTags fs tags
        k values) = k (fields.map Prod.snd) := by
  have hf : parseFields bytes domain n = .ok fields := by
    refine parseFields_encodeFields h ?_ hle fun f hf => hlt _ ?_
    · rw [← hn, ← htags, List.length_map]
    · rw [← htags]
      exact List.mem_map_of_mem hf
  rw [hf]
  exact read_fields tags htags k

/-- A transcript is not empty. -/
theorem encodeFields_ne_nil {domain bytes : Bytes} {fields : List (Nat × Bytes)}
    (h : encodeFields domain fields = .ok bytes) : bytes ≠ [] := by
  obtain ⟨-, -, rfl⟩ := encodeFields_inv h
  intro hnil
  have := congrArg List.length hnil
  rw [length_fieldBytes] at this
  simp at this

/-- An optional transcript reads back. -/
theorem optional_reads_back {α : Type} {encode : α → Result Bytes} {parse : Bytes → Result α}
    (hne : ∀ a bytes, encode a = .ok bytes → bytes ≠ []) {a : Option α}
    (h : ∀ b ∈ a, ReadsBack encode parse b) :
    ReadsBack (encodeOptional encode) (parseOptional parse) a := by
  intro bytes hbytes
  cases a with
  | none =>
      rw [encodeOptional, pure_ok] at hbytes
      subst hbytes
      rfl
  | some a =>
      have hread := h a rfl bytes hbytes
      simp [parseOptional, hne a bytes hbytes, hread]

/-! ## 3. Codes -/

@[simp] theorem parseDisposition_be (a : AttachmentSummaryDisposition) :
    parseDisposition (be 1 a.code) = .ok a :=
  parseCode_be _ (by cases a <;> decide) (by cases a <;> rfl)

@[simp] theorem parseSpecialUse_be (a : MailboxSpecialUseInput) :
    parseSpecialUse (be 1 a.code) = .ok a :=
  parseCode_be _ (by cases a <;> decide) (by cases a <;> rfl)

@[simp] theorem parseStrategy_be (a : MailboxStrategy) : parseStrategy (be 1 a.code) = .ok a :=
  parseCode_be _ (by cases a <;> decide) (by cases a <;> rfl)

@[simp] theorem parseProtocol_be (a : Protocol) : parseProtocol (be 1 (protocolCode a)) = .ok a :=
  parseCode_be _ (by cases a <;> decide) (by cases a <;> rfl)

@[simp] theorem parseHostKind_be (a : HostKind) : parseHostKind (be 1 a.code) = .ok a :=
  parseCode_be _ (by cases a <;> decide) (by cases a <;> rfl)

@[simp] theorem parseSecurity_be (a : TransportSecurity) :
    parseSecurity (be 1 (securityCode a)) = .ok a :=
  parseCode_be _ (by cases a <;> decide) (by cases a <;> rfl)

@[simp] theorem parseLocatorKind_be (a : LocatorKind) : parseLocatorKind (be 1 a.code) = .ok a :=
  parseCode_be _ (by cases a <;> decide) (by cases a <;> rfl)

@[simp] theorem parseCleanupState_be (a : CleanupState) : parseCleanupState (be 1 a.code) = .ok a :=
  parseCode_be _ (by cases a <;> decide) (by cases a <;> rfl)

@[simp] theorem parseOwnerRole_be (a : OwnerKeyRole) : parseOwnerRole (be 1 a.code) = .ok a :=
  parseCode_be _ (by cases a <;> decide) (by cases a <;> rfl)

@[simp] theorem parseCredentialKind_be (a : CredentialKind) :
    parseCredentialKind (be 1 (credentialKindCode a)) = .ok a :=
  parseCode_be _ (by cases a <;> decide) (by cases a <;> rfl)

@[simp] theorem parseBindingState_be (a : BindingState) : parseBindingState (be 1 a.code) = .ok a :=
  parseCode_be _ (by cases a <;> decide) (by cases a <;> rfl)

@[simp] theorem parseStoredCredentialState_be (a : StoredCredentialState) :
    parseStoredCredentialState (be 1 a.code) = .ok a :=
  parseCode_be _ (by cases a <;> decide) (by cases a <;> rfl)

@[simp] theorem parseStateReason_be (a : AccountStateReason) :
    parseStateReason (be 1 a.code) = .ok a :=
  parseCode_be _ (by cases a <;> decide) (by cases a <;> rfl)

@[simp] theorem parseAssertion_be (a : AmbiguousAssertion) : parseAssertion (be 1 a.code) = .ok a :=
  parseCode_be _ (by cases a <;> decide) (by cases a <;> rfl)

@[simp] theorem parseTerminal_be (a : AmbiguousTerminal) : parseTerminal (be 1 a.code) = .ok a :=
  parseCode_be _ (by cases a <;> decide) (by cases a <;> rfl)

@[simp] theorem parsePermissions_be (a : TrustPermissionMask) :
    parsePermissions (be 4 a.code) = .ok a := by
  have hmask : parseNat 4 (be 4 a.code) = .ok a.code := parseNat_be (by cases a <;> decide)
  have hfind : ([TrustPermissionMask.owner, .recovery].find? fun p => p.code == a.code) = some a := by
    cases a <;> rfl
  rw [parsePermissions, hmask]
  show orRefuse ([TrustPermissionMask.owner, .recovery].find? fun p => p.code == a.code) _ = _
  rw [hfind]
  rfl

/-! ## 4. Values -/

theorem configCas_reads_back (value : ConfigCas) : ReadsBack encodeConfigCas parseConfigCas value := by
  intro bytes h
  rw [parseConfigCas, read_transcript 4 h [1, 2, 3, 4] rfl rfl (by decide) (by decide)]
  simp

theorem cleanupDescriptor_reads_back (value : CleanupDescriptor) :
    ReadsBack encodeCleanupDescriptor parseCleanupDescriptor value := by
  intro bytes h
  rw [parseCleanupDescriptor, read_transcript 4 h [1, 2, 3, 4] rfl rfl (by decide) (by decide)]
  simp

theorem address_reads_back {value : ManifestAddress} (ht : value.Typed) :
    ReadsBack ManifestAddress.encode ManifestAddress.parse value := by
  intro bytes h
  rw [ManifestAddress.parse, read_transcript 2 h [1, 2] rfl rfl (by decide) (by decide)]
  have hnew : ManifestAddress.new value.displayName value.email = .ok value := ht
  simp [hnew]

theorem text_reads_back (value : String) :
    ReadsBack (fun value => pure (utf8 value)) parseText value := by
  intro bytes h
  rw [pure_ok] at h
  subst h
  exact parseText_utf8 value

theorem uuid_reads_back (value : Uuid) : ReadsBack (fun id => pure id.bytes) parseUuid value := by
  intro bytes h
  rw [pure_ok] at h
  subst h
  exact parseUuid_bytes value

theorem summary_reads_back {value : ManifestAttachmentSummary} (ht : ∀ n ∈ value.originalBytes, n < 2 ^ 64) :
    ReadsBack encodeSummary parseSummary value := by
  intro bytes h
  have hbytes := parseOptional_u64 ht
  rw [parseSummary, read_transcript 4 h [1, 2, 3, 4] rfl rfl (by decide) (by decide)]
  simp [hbytes]

theorem attachment_reads_back {value : ManifestAttachment} (ht : value.Typed) :
    ReadsBack encodeAttachment parseAttachment value := by
  intro bytes h
  simp only [encodeAttachment, bind_ok] at h
  obtain ⟨_, hvalid, summary, hsummary, h⟩ := h
  have hsize : parseNat 8 (be 8 value.decodedSize) = .ok value.decodedSize := by
    have := ht.1
    exact parseNat_be (by omega)
  have hread := optional_reads_back (fun _ _ he => encodeFields_ne_nil he)
    (fun s hs => summary_reads_back (ht.2 s hs)) summary hsummary
  rw [parseAttachment, read_transcript 5 h [1, 2, 3, 4, 5] rfl rfl (by decide) (by decide)]
  simp [hsize, hread, hvalid]

section Accounts

variable {env : Platform}

theorem endpoint_reads_back {value : EndpointSnapshot} (ht : value.Typed) :
    ReadsBack (encodeEndpoint env) (parseEndpoint env) value := by
  intro bytes h
  have hencode := h
  simp only [encodeEndpoint, bind_ok] at h
  obtain ⟨_, -, h⟩ := h
  have hport : parseNat 2 (be 2 value.port) = .ok value.port := by
    have hlt : value.port < 2 ^ 16 := ht
    exact parseNat_be (by omega)
  rw [parseEndpoint, read_transcript 6 h [1, 2, 3, 4, 5, 6] rfl rfl (by decide) (by decide)]
  simp [hport, hencode]

theorem encodeEndpoint_ne_nil (value : EndpointSnapshot) (bytes : Bytes)
    (h : encodeEndpoint env value = .ok bytes) : bytes ≠ [] := by
  simp only [encodeEndpoint, bind_ok] at h
  obtain ⟨_, -, h⟩ := h
  exact encodeFields_ne_nil h

/-- What the checks of a snapshot say of its cleanup ids. -/
theorem validateAccountSnapshot_cleanup {value : AccountSnapshot}
    (h : validateAccountSnapshot env value = .ok ()) : value.cleanupIds.length ≤ 100 := by
  simp only [validateAccountSnapshot, bind_ok, ensure_ok] at h
  obtain ⟨_, hc, _⟩ := h
  simp only [Bool.or_eq_true, decide_eq_true_eq, not_or] at hc
  have := hc.1.2
  omega

theorem accountSnapshot_reads_back {value : AccountSnapshot} (ht : value.Typed) :
    ReadsBack (encodeAccountSnapshot env) (parseAccountSnapshot env) value := by
  intro bytes h
  simp only [encodeAccountSnapshot, bind_ok] at h
  obtain ⟨_, hvalid, incoming, hincoming, outgoing, houtgoing, ids, hids, h⟩ := h
  have hversion : parseNat 2 (be 2 value.bindingVersion) = .ok value.bindingVersion := by
    have := ht.bindingVersion
    exact parseNat_be (by omega)
  have hin := endpoint_reads_back ht.incoming incoming hincoming
  have hout := optional_reads_back encodeEndpoint_ne_nil
    (fun e he => endpoint_reads_back (ht.outgoing e he)) outgoing houtgoing
  have hlist := parseList_encodeList (fun id _ => uuid_reads_back id)
    (validateAccountSnapshot_cleanup hvalid) hids
  have hreason : parseOptional parseStateReason (optionalCode AccountStateReason.code value.stateReason) =
      .ok value.stateReason := parseOptional_code fun r _ => parseStateReason_be r
  rw [parseAccountSnapshot, read_transcript 15 h [1, 2, 3, 4, 5, 6, 7, 8, 9, 10, 11, 12, 13, 14, 15] rfl
    rfl (by decide) (by decide)]
  simp [hversion, hin, hout, hlist, hreason]

theorem encodeAccountSnapshot_ne_nil (value : AccountSnapshot) (bytes : Bytes)
    (h : encodeAccountSnapshot env value = .ok bytes) : bytes ≠ [] := by
  simp only [encodeAccountSnapshot, bind_ok] at h
  obtain ⟨_, -, _, -, _, -, _, -, h⟩ := h
  exact encodeFields_ne_nil h

end Accounts

/-! ## 5. Payloads -/

/-- The numbers that the checks of `encode_send` admit. -/
theorem validateSend_counts {send : SendSubmitManifest} (h : validateSend send = .ok ()) :
    send.toAddrs.length ≤ 50 ∧ send.cc.length ≤ 50 ∧ send.bcc.length ≤ 50 ∧
      send.attachments.length ≤ 25 ∧ send.references.length ≤ 100 := by
  simp only [validateSend, bind_ok, ensure_ok] at h
  obtain ⟨_, hcount, _, hshape, -⟩ := h
  simp only [Bool.or_eq_true, decide_eq_true_eq, not_or] at hshape
  omega

theorem send_reads_back {send : SendSubmitManifest} (ht : send.Typed) {fields : List (Nat × Bytes)}
    (h : encodeSend send = .ok fields) : parseSend fields = .ok send := by
  simp only [encodeSend, bind_ok, pure_ok] at h
  obtain ⟨_, hvalid, sender, hsender, toAddrs, hto, cc, hcc, bcc, hbcc, attachments, hatt, references,
    href, rfl⟩ := h
  obtain ⟨hcto, hccc, hcbcc, hcatt, hcref⟩ := validateSend_counts hvalid
  have hbuilder : parseNat 2 (be 2 1) = .ok 1 := parseNat_be (by omega)
  have hdate := parseI64_beI64 ht.date.1 ht.date.2
  have hsender := address_reads_back ht.sender sender hsender
  have hto := parseList_encodeList (fun a ha => address_reads_back (ht.toAddrs a ha)) hcto hto
  have hcc := parseList_encodeList (fun a ha => address_reads_back (ht.cc a ha)) hccc hcc
  have hbcc := parseList_encodeList (fun a ha => address_reads_back (ht.bcc a ha)) hcbcc hbcc
  have hatt := parseList_encodeList (fun a ha => attachment_reads_back (ht.attachments a ha)) hcatt hatt
  have href := parseList_encodeList (fun a _ => text_reads_back a) hcref href
  rw [parseSend, read_fields]
  · simp [hbuilder, hdate, hsender, hto, hcc, hbcc, hatt, href]
  · rfl

theorem mailbox_reads_back {mailbox : MailboxManifest} (ht : mailbox.Typed) {action : SensitiveAction}
    {fields : List (Nat × Bytes)} (h : encodeMailbox action mailbox = .ok fields) :
    parseMailboxManifest fields = .ok mailbox := by
  simp only [encodeMailbox, bind_ok, pure_ok] at h
  obtain ⟨_, -, rfl⟩ := h
  have hv := parseNonzeroU32_be ht.uidValidity.1 ht.uidValidity.2
  have hu := parseNonzeroU32_be ht.uid.1 ht.uid.2
  have hvalue : parseOptional parseBool (optionalCode boolCode mailbox.requestedValue) =
      .ok mailbox.requestedValue := parseOptional_code fun b _ => parseBool_be b
  rw [parseMailboxManifest, read_fields]
  · simp [hv, hu, hvalue]
  · rfl

theorem storeEnroll_reads_back {value : StoreEnrollManifest} {fields : List (Nat × Bytes)}
    (h : encodeStoreEnroll value = .ok fields) : parseStoreEnroll fields = .ok value := by
  simp only [encodeStoreEnroll, bind_ok, pure_ok] at h
  obtain ⟨configCas, hcas, rfl⟩ := h
  have hstate : parseNat 1 (be 1 0) = .ok 0 := parseNat_be (by omega)
  have hcas := configCas_reads_back value.configCas configCas hcas
  rw [parseStoreEnroll, read_fields]
  · simp [hstate, hcas]
  · rfl

section Mutations

variable {env : Platform}

/-- **An account mutation reads back where its cleanup descriptors are admitted.** -/
theorem accountMutation_reads_back {value : AccountMutationManifest} (ht : value.Typed) {maximum : Nat}
    (hmax : value.cleanup.length ≤ maximum) {fields : List (Nat × Bytes)}
    (h : encodeAccountMutation env value = .ok fields) :
    parseAccountMutation env maximum fields = .ok value := by
  simp only [encodeAccountMutation, bind_ok, pure_ok] at h
  obtain ⟨configCas, hcas, before, hbefore, after, hafter, cleanup, hcleanup, rfl⟩ := h
  have hcas := configCas_reads_back value.configCas configCas hcas
  have hbefore := optional_reads_back encodeAccountSnapshot_ne_nil
    (fun s hs => accountSnapshot_reads_back (ht.before s hs)) before hbefore
  have hafter := optional_reads_back encodeAccountSnapshot_ne_nil
    (fun s hs => accountSnapshot_reads_back (ht.after s hs)) after hafter
  have hcleanup := parseList_encodeList (fun d _ => cleanupDescriptor_reads_back d) hmax hcleanup
  rw [parseAccountMutation, read_fields]
  · simp [hcas, hbefore, hafter, hcleanup]
  · rfl

/-- And it does not where they are too many. -/
theorem accountMutation_of_long {value : AccountMutationManifest} {maximum : Nat}
    (hmax : maximum < value.cleanup.length) {fields : List (Nat × Bytes)}
    (h : encodeAccountMutation env value = .ok fields) (parsed : AccountMutationManifest) :
    parseAccountMutation env maximum fields ≠ .ok parsed := by
  simp only [encodeAccountMutation, bind_ok, pure_ok] at h
  obtain ⟨configCas, -, before, -, after, -, cleanup, hcleanup, rfl⟩ := h
  intro hparse
  rw [parseAccountMutation, read_fields [0x0100, 0x0101, 0x0102, 0x0103, 0x0104, 0x0105, 0x0106]
    (by rfl)] at hparse
  simp only [List.map_cons, List.map_nil, bind_ok] at hparse
  obtain ⟨_, -, _, -, _, -, _, -, _, -, _, -, list, hlist, -⟩ := hparse
  exact parseList_of_long hmax hcleanup list hlist

/-- The seven fields of an account mutation. -/
theorem encodeAccountMutation_tags {value : AccountMutationManifest} {fields : List (Nat × Bytes)}
    (h : encodeAccountMutation env value = .ok fields) :
    fields.map Prod.fst = [0x0100, 0x0101, 0x0102, 0x0103, 0x0104, 0x0105, 0x0106] := by
  simp only [encodeAccountMutation, bind_ok, pure_ok] at h
  obtain ⟨_, -, _, -, _, -, _, -, rfl⟩ := h
  rfl

/-- What the parser of a credential mutation does on an encoding: it parses the account mutation. -/
theorem parseCredentialMutation_encode {value : CredentialMutationManifest} (maximum : Nat)
    {fields : List (Nat × Bytes)} (h : encodeCredentialMutation env value = .ok fields) :
    ∃ account, encodeAccountMutation env value.account = .ok account ∧
      ∀ parsed, parseCredentialMutation env maximum fields = .ok parsed ↔
        ∃ a, parseAccountMutation env maximum account = .ok a ∧
          (⟨a, value.activeLocatorSha256⟩ : CredentialMutationManifest) = parsed := by
  simp only [encodeCredentialMutation, bind_ok, pure_ok] at h
  obtain ⟨account, haccount, rfl⟩ := h
  refine ⟨account, haccount, fun parsed => ?_⟩
  have htags := encodeAccountMutation_tags haccount
  obtain ⟨a, b, c, d, e, f, g, rfl⟩ : ∃ a b c d e f g, account = [a, b, c, d, e, f, g] := by
    have hlen : account.length = 7 := by
      have := congrArg List.length htags
      simpa using this
    rcases account with _ | ⟨a, _ | ⟨b, _ | ⟨c, _ | ⟨d, _ | ⟨e, _ | ⟨f, _ | ⟨g, _ | ⟨_, _⟩⟩⟩⟩⟩⟩⟩⟩ <;>
      simp_all
  have htags' : ([a, b, c, d, e, f, g] ++ [(0x0107, value.activeLocatorSha256.bytes)]).map Prod.fst =
      [0x0100, 0x0101, 0x0102, 0x0103, 0x0104, 0x0105, 0x0106, 0x0107] := by
    rw [List.map_append, htags]
    rfl
  rw [parseCredentialMutation, read_fields _ htags']
  simp

theorem credentialMutation_reads_back {value : CredentialMutationManifest} (ht : value.account.Typed)
    {maximum : Nat} (hmax : value.account.cleanup.length ≤ maximum) {fields : List (Nat × Bytes)}
    (h : encodeCredentialMutation env value = .ok fields) :
    parseCredentialMutation env maximum fields = .ok value := by
  obtain ⟨account, haccount, hparse⟩ := parseCredentialMutation_encode maximum h
  exact (hparse value).mpr ⟨value.account, accountMutation_reads_back ht hmax haccount, rfl⟩

theorem credentialMutation_of_long {value : CredentialMutationManifest} {maximum : Nat}
    (hmax : maximum < value.account.cleanup.length) {fields : List (Nat × Bytes)}
    (h : encodeCredentialMutation env value = .ok fields) (parsed : CredentialMutationManifest) :
    parseCredentialMutation env maximum fields ≠ .ok parsed := by
  obtain ⟨account, haccount, hparse⟩ := parseCredentialMutation_encode maximum h
  intro hp
  obtain ⟨a, ha, -⟩ := (hparse parsed).mp hp
  exact accountMutation_of_long hmax haccount a ha

end Mutations

theorem credentialCleanup_reads_back (value : CredentialCleanupManifest) :
    parseCredentialCleanup (encodeCredentialCleanup value) = .ok value := by
  rw [parseCredentialCleanup, read_fields]
  · simp [encodeCredentialCleanup]
  · rfl

theorem trustRotation_reads_back (value : TrustRotationManifest) :
    parseTrustRotation (encodeTrustRotation value) = .ok value := by
  rw [parseTrustRotation, read_fields]
  · simp [encodeTrustRotation]
  · rfl

theorem ownerRecover_reads_back (value : OwnerRecoverManifest) :
    parseOwnerRecover (encodeOwnerRecover value) = .ok value := by
  have hscope : parseNat 1 (be 1 1) = .ok 1 := parseNat_be (by omega)
  rw [parseOwnerRecover, read_fields]
  · simp [encodeOwnerRecover, hscope]
  · rfl

theorem ambiguousClose_reads_back (value : AmbiguousCloseManifest) :
    parseAmbiguousClose (encodeAmbiguousClose value) = .ok value := by
  rw [parseAmbiguousClose, read_fields]
  · simp [encodeAmbiguousClose]
  · rfl

/-! ## 6. Manifests -/

section Manifests

variable {env : Platform}

/-- The tags of a payload are few and of two bytes. -/
theorem encodePayload_tags {payload : ManifestPayload} {fields : List (Nat × Bytes)}
    (h : encodePayload env payload = .ok fields) :
    fields.length ≤ 16 ∧ ∀ t ∈ fields.map Prod.fst, t < 2 ^ 16 := by
  have hmutation : ∀ {value : AccountMutationManifest} {fs : List (Nat × Bytes)},
      encodeAccountMutation env value = .ok fs →
        fs.length = 7 ∧ ∀ t ∈ fs.map Prod.fst, t < 2 ^ 16 := by
    intro value fs hfs
    have htags := encodeAccountMutation_tags hfs
    refine ⟨by simpa using congrArg List.length htags, ?_⟩
    rw [htags]
    decide
  cases payload with
  | sendSubmit send =>
      simp only [encodePayload, encodeSend, bind_ok, pure_ok] at h
      obtain ⟨_, -, _, -, _, -, _, -, _, -, _, -, _, -, rfl⟩ := h
      exact ⟨by simp, by simp⟩
  | mailSeen mailbox | mailStarred mailbox | mailMove mailbox | mailArchive mailbox
  | mailSafeDelete mailbox =>
      simp only [encodePayload, encodeMailbox, bind_ok, pure_ok] at h
      obtain ⟨_, -, rfl⟩ := h
      exact ⟨by simp, by simp⟩
  | storeEnroll value =>
      simp only [encodePayload, encodeStoreEnroll, bind_ok, pure_ok] at h
      obtain ⟨_, -, rfl⟩ := h
      exact ⟨by simp, by simp⟩
  | accountCreate value | accountUpdate value | accountRemove value =>
      obtain ⟨hlen, htags⟩ := hmutation h
      exact ⟨by omega, htags⟩
  | credentialSet value | credentialDelete value =>
      simp only [encodePayload, encodeCredentialMutation, bind_ok, pure_ok] at h
      obtain ⟨account, haccount, rfl⟩ := h
      obtain ⟨hlen, htags⟩ := hmutation haccount
      refine ⟨by simp [hlen], fun t ht => ?_⟩
      rw [List.map_append, List.mem_append] at ht
      rcases ht with ht | ht
      · exact htags t ht
      · rw [List.map_cons, List.map_nil, List.mem_singleton] at ht
        omega
  | credentialCleanup value | ownerRotate value | recoveryRotate value | ownerRecover value
  | ambiguousClose value =>
      obtain rfl := pure_ok.mp h
      simp [encodeCredentialCleanup, encodeTrustRotation, encodeOwnerRecover, encodeAmbiguousClose]

/-- **Every payload reads back**, where its cleanup descriptors are admitted. -/
theorem payload_reads_back {payload : ManifestPayload} (ht : payload.Typed) {maximum : Nat}
    (hmax : payload.cleanup.length ≤ maximum) {fields : List (Nat × Bytes)}
    (h : encodePayload env payload = .ok fields) :
    parsePayload env maximum payload.action fields = .ok payload := by
  cases payload with
  | sendSubmit send =>
      have hread := send_reads_back ht h
      simp [parsePayload, ManifestPayload.action, hread]
  | mailSeen mailbox | mailStarred mailbox | mailMove mailbox | mailArchive mailbox
  | mailSafeDelete mailbox =>
      have hread := mailbox_reads_back ht h
      simp [parsePayload, ManifestPayload.action, hread]
  | storeEnroll value =>
      have hread := storeEnroll_reads_back h
      simp [parsePayload, ManifestPayload.action, hread]
  | accountCreate value | accountUpdate value | accountRemove value =>
      have hread := accountMutation_reads_back ht hmax h
      simp [parsePayload, ManifestPayload.action, hread]
  | credentialSet value | credentialDelete value =>
      have hread := credentialMutation_reads_back ht hmax h
      simp [parsePayload, ManifestPayload.action, hread]
  | credentialCleanup value =>
      obtain rfl := pure_ok.mp h
      simp [parsePayload, ManifestPayload.action, credentialCleanup_reads_back]
  | ownerRotate value | recoveryRotate value =>
      obtain rfl := pure_ok.mp h
      simp [parsePayload, ManifestPayload.action, trustRotation_reads_back]
  | ownerRecover value =>
      obtain rfl := pure_ok.mp h
      simp [parsePayload, ManifestPayload.action, ownerRecover_reads_back]
  | ambiguousClose value =>
      obtain rfl := pure_ok.mp h
      simp [parsePayload, ManifestPayload.action, ambiguousClose_reads_back]

/-- And none does with more cleanup descriptors. -/
theorem payload_of_long {payload : ManifestPayload} {maximum : Nat}
    (hmax : maximum < payload.cleanup.length) {fields : List (Nat × Bytes)}
    (h : encodePayload env payload = .ok fields) (parsed : ManifestPayload) :
    parsePayload env maximum payload.action fields ≠ .ok parsed := by
  intro hparse
  cases payload with
  | accountCreate value | accountUpdate value | accountRemove value =>
      obtain ⟨a, ha, -⟩ := map_ok.mp hparse
      exact accountMutation_of_long hmax h a ha
  | credentialSet value | credentialDelete value =>
      obtain ⟨a, ha, -⟩ := map_ok.mp hparse
      exact credentialMutation_of_long hmax h a ha
  | _ => exact absurd hmax (Nat.not_lt_zero maximum)

/-- What the decoder does on an encoding: it parses the payload. -/
theorem decodeManifest_encode {context : ManifestContext} {payload : ManifestPayload}
    (hcontext : validateManifestContext context payload.action = .ok ()) (maximum : Nat)
    {bytes : Bytes} (h : encodeManifest env context payload = .ok bytes) :
    ∃ fields, encodePayload env payload = .ok fields ∧
      ∀ decoded, decodeManifest env maximum bytes = .ok decoded ↔
        ∃ p, parsePayload env maximum payload.action fields = .ok p ∧ (context, p) = decoded := by
  simp only [encodeManifest, bind_ok] at h
  obtain ⟨fields, hfields, h⟩ := h
  obtain ⟨hlen, htags⟩ := encodePayload_tags hfields
  refine ⟨fields, hfields, fun decoded => ?_⟩
  have hcommon : (commonManifestFields context payload.action).length = 9 := rfl
  have hraw : parseFieldsAny bytes manifestDomain =
      .ok (commonManifestFields context payload.action ++ fields) := by
    refine parseFieldsAny_encodeFields h (by rw [List.length_append, hcommon]; omega) fun f hf => ?_
    rcases List.mem_append.mp hf with hf | hf
    · have : f.1 ≤ 9 := by
        simp only [commonManifestFields, List.mem_cons, List.not_mem_nil, or_false] at hf
        rcases hf with rfl | rfl | rfl | rfl | rfl | rfl | rfl | rfl | rfl <;> simp
      omega
    · exact htags f.1 (List.mem_map_of_mem hf)
  simp only [validateManifestContext, bind_ok, ensure_ok] at hcontext
  obtain ⟨_, hsupported, _, hkind, -⟩ := hcontext
  have haction : parseNat 2 (be 2 payload.action.code) = .ok payload.action.code :=
    parseNat_be (by simpa using payload.action.code_lt)
  have hkindCode : parseNat 2 (be 2 context.target.kind.code) = .ok context.target.kind.code :=
    parseNat_be (by simpa using context.target.kind.code_lt)
  have heffect : parseNat 2 (be 2 payload.action.effectKind.code) =
      .ok payload.action.effectKind.code := parseNat_be (EffectKind.code_lt _)
  have htake : (commonManifestFields context payload.action ++ fields).take 9 =
      commonManifestFields context payload.action := List.take_left' hcommon
  have hdrop : (commonManifestFields context payload.action ++ fields).drop 9 = fields :=
    List.drop_left' hcommon
  have hnine : 9 ≤ (commonManifestFields context payload.action ++ fields).length := by
    rw [List.length_append, hcommon]
    omega
  simp only [decodeManifest, hraw, bind_ok, Except.ok.injEq, exists_eq_left', ensure_ok, hnine, htake,
    hdrop]
  simp [expectTags, commonManifestFields, haction, hkindCode, heffect, SensitiveAction.fromCode_code,
    TargetKind.fromCode_code, EffectKind.fromCode_code, hsupported]

/-- **A typed context and payload are decoded from their encoding.** -/
theorem decode_encode {context : ManifestContext} {payload : ManifestPayload}
    (hcontext : validateManifestContext context payload.action = .ok ()) (ht : payload.Typed)
    {maximum : Nat} (hmax : payload.cleanup.length ≤ maximum) {bytes : Bytes}
    (h : encodeManifest env context payload = .ok bytes) :
    decodeManifest env maximum bytes = .ok (context, payload) := by
  obtain ⟨fields, hfields, hdecode⟩ := decodeManifest_encode hcontext maximum h
  exact (hdecode _).mpr ⟨payload, payload_reads_back ht hmax hfields, rfl⟩

/-- With more cleanup descriptors than the decoder admits, none is. -/
theorem decode_of_long {context : ManifestContext} {payload : ManifestPayload}
    (hcontext : validateManifestContext context payload.action = .ok ()) {maximum : Nat}
    (hmax : maximum < payload.cleanup.length) {bytes : Bytes}
    (h : encodeManifest env context payload = .ok bytes) (decoded : ManifestContext × ManifestPayload) :
    decodeManifest env maximum bytes ≠ .ok decoded := by
  obtain ⟨fields, hfields, hdecode⟩ := decodeManifest_encode hcontext maximum h
  intro hd
  obtain ⟨p, hp, -⟩ := (hdecode decoded).mp hd
  exact payload_of_long hmax hfields p hp

end Manifests

end Kirje
