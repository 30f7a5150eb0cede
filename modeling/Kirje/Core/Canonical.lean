import Kirje.Core.Binding
import Kirje.Core.RoundTrip

/-
  File:      Kirje/Core/Canonical.lean
  Subject:   Canonical manifests: `ActionManifest::new` and `ActionManifest::parse`
             (crates/kirje-core/src/authorization.rs).

  The checks of each payload bound its encoding, so that a manifest whose cleanup
  descriptors the parser admits is never too large for it (`length_encodeManifest`).

  * **`manifest_codec_iff`**: a manifest that was built is parsed from its bytes exactly
    when it has at most `maxCleanup` cleanup descriptors; a manifest that was parsed is
    built from its context and payload and has the bytes parsed.
  * **`manifest_encoding_injective`**: the bytes determine the context and the payload,
    also where the parser refuses them.
  * **`authorization_transcripts_reparse`**: the transcript of a built manifest is parsed
    from its bytes, for every action.
-/

namespace Kirje

open Base

/-! ## 1. The sizes of values -/

theorem length_utf8_le (s : String) : (utf8 s).length ≤ 4 * s.length := by
  have hbytes : ∀ cs : List Char, (cs.flatMap String.utf8EncodeChar).length ≤ 4 * cs.length := by
    intro cs
    induction cs with
    | nil => simp
    | cons c cs ih =>
        have hle := Char.utf8Size_le_four c
        rw [List.flatMap_cons, List.length_append, String.length_utf8EncodeChar, List.length_cons]
        omega
  exact hbytes s.toList

theorem length_optionalText_le {text : Option String} {n : Nat} (h : ∀ s ∈ text, (utf8 s).length ≤ n) :
    (optionalText text).length ≤ 1 + n := by
  cases text with
  | none => simp [optionalText]
  | some s =>
      have := h s rfl
      simp only [optionalText, List.length_append, length_be]
      omega

theorem length_optionalCode_le {α : Type} (code : α → Nat) (a : Option α) :
    (optionalCode code a).length ≤ 1 := by
  cases a <;> simp [optionalCode]

theorem length_optionalU64_le (n : Option Nat) : (optionalU64 n).length ≤ 8 := by
  cases n <;> simp [optionalU64]

@[simp] theorem length_beBytes (n : NonZeroU64) : n.beBytes.length = 8 := length_be _ _

/-- The bytes of a transcript of these fields. -/
theorem length_encodeFields {domain bytes : Bytes} {fields : List (Nat × Bytes)}
    (h : encodeFields domain fields = .ok bytes) :
    bytes.length = domain.length + 2 + (fields.map fun f => 6 + f.2.length).sum := by
  obtain ⟨-, -, rfl⟩ := encodeFields_inv h
  exact length_fieldBytes domain fields

/-- Fields of bounded sizes. -/
theorem sum_sizes_le {fields : List (Nat × Bytes)} {bounds : List Nat}
    (h : List.Forall₂ (fun f n => f.2.length ≤ n) fields bounds) :
    (fields.map fun f => 6 + f.2.length).sum ≤ (bounds.map fun n => 6 + n).sum := by
  induction h with
  | nil => exact le_refl _
  | cons hf _ ih =>
      simp only [List.map_cons, List.sum_cons]
      omega

theorem length_encodeFields_le {domain bytes : Bytes} {fields : List (Nat × Bytes)} {bounds : List Nat}
    (h : encodeFields domain fields = .ok bytes)
    (hb : List.Forall₂ (fun f n => f.2.length ≤ n) fields bounds) :
    bytes.length ≤ domain.length + 2 + (bounds.map fun n => 6 + n).sum := by
  have hsum := sum_sizes_le hb
  have hbytes := length_encodeFields h
  omega

theorem length_encodeOptional_le {α : Type} {encode : α → Result Bytes} {a : Option α} {n : Nat}
    (h : ∀ b ∈ a, ∀ bytes, encode b = .ok bytes → bytes.length ≤ n) {bytes : Bytes}
    (hbytes : encodeOptional encode a = .ok bytes) : bytes.length ≤ n := by
  cases a with
  | none =>
      obtain rfl := pure_ok.mp hbytes
      exact Nat.zero_le n
  | some a => exact h a rfl bytes hbytes

theorem validEmail_size {value : String} (h : validEmail value = true) : value.utf8ByteSize ≤ 320 := by
  unfold validEmail at h
  split at h
  · cases h
  · simp only [Bool.and_eq_true, decide_eq_true_eq] at h
    exact h.1.1.2

theorem length_address {value : ManifestAddress} (ht : value.Typed) {bytes : Bytes}
    (h : value.encode = .ok bytes) : bytes.length ≤ 1400 := by
  have hnew : ManifestAddress.new value.displayName value.email = .ok value := ht
  simp only [ManifestAddress.new, bind_ok, ensure_ok] at hnew
  obtain ⟨_, hok, -⟩ := hnew
  simp only [Bool.or_eq_true, not_or, Bool.not_eq_true', Bool.not_eq_false] at hok
  have hemail := validEmail_size hok.2
  have hname : (optionalText value.displayName).length ≤ 1 + 1024 := by
    refine length_optionalText_le fun s hs => ?_
    have hs' := hok.1
    rw [Option.mem_def.mp hs, Option.any_some, Bool.or_eq_true, decide_eq_true_eq, not_or] at hs'
    have := length_utf8_le s
    omega
  have hdomain : addressDomain.length = 17 := by decide
  rw [length_encodeFields h, hdomain]
  simp only [List.map_cons, List.map_nil, List.sum_cons, List.sum_nil, length_utf8]
  omega

theorem length_attachment {value : ManifestAttachment} {bytes : Bytes}
    (h : encodeAttachment value = .ok bytes) : bytes.length ≤ 18000 := by
  simp only [encodeAttachment, validateManifestAttachment, bind_ok, ensure_ok, checkAll_ok] at h
  obtain ⟨_, ⟨_, hmeta, hsummary⟩, summary, hs, h⟩ := h
  simp only [Bool.or_eq_true, decide_eq_true_eq, not_or] at hmeta
  have hname := length_utf8_le value.filename
  have hmime := length_utf8 value.mimeType
  have hsum : summary.length ≤ 16500 := by
    refine length_encodeOptional_le (fun s hs bytes hb => ?_) hs
    have hvalid := hsummary s (by rw [Option.mem_toList]; exact hs)
    simp only [validateSummary, bind_ok, ensure_ok] at hvalid
    obtain ⟨_, htext, -⟩ := hvalid
    have htext' : (optionalText s.text).length ≤ 1 + 16384 := by
      refine length_optionalText_le fun t ht => ?_
      rw [Option.mem_def.mp ht, Option.any_some, decide_eq_true_eq] at htext
      have := length_utf8_le t
      omega
    have hbytes := length_optionalU64_le s.originalBytes
    have hdomain : summaryDomain.length = 28 := by decide
    rw [length_encodeFields hb, hdomain]
    simp only [List.map_cons, List.map_nil, List.sum_cons, List.sum_nil, length_be]
    omega
  have hdomain : attachmentDomain.length = 20 := by decide
  rw [length_encodeFields h, hdomain]
  simp only [List.map_cons, List.map_nil, List.sum_cons, List.sum_nil, length_be, Digest.length_eq]
  omega

theorem length_configCas {value : ConfigCas} {bytes : Bytes} (h : encodeConfigCas value = .ok bytes) :
    bytes.length ≤ 200 := by
  have hdomain : configCasDomain.length = 20 := by decide
  rw [length_encodeFields h, hdomain]
  simp

theorem length_cleanupDescriptor {value : CleanupDescriptor} {bytes : Bytes}
    (h : encodeCleanupDescriptor value = .ok bytes) : bytes.length ≤ 200 := by
  have hdomain : cleanupDescriptorDomain.length = 28 := by decide
  rw [length_encodeFields h, hdomain]
  simp

section Accounts

variable {env : Platform}

theorem length_endpoint {value : EndpointSnapshot} {bytes : Bytes}
    (h : encodeEndpoint env value = .ok bytes) : bytes.length ≤ 8300 := by
  simp only [encodeEndpoint, validateEndpoint, bind_ok, ensure_ok] at h
  obtain ⟨_, ⟨_, hshape, -⟩, h⟩ := h
  simp only [Bool.or_eq_true, decide_eq_true_eq, not_or] at hshape
  have hdomain : endpointDomain.length = 18 := by decide
  rw [length_encodeFields h, hdomain]
  simp only [List.map_cons, List.map_nil, List.sum_cons, List.sum_nil, length_be, length_utf8]
  omega

/-- The texts of a checked snapshot are short. -/
theorem validateAccountSnapshot_sizes {value : AccountSnapshot}
    (h : validateAccountSnapshot env value = .ok ()) :
    value.displayId.utf8ByteSize ≤ 64 ∧ value.email.utf8ByteSize ≤ 320 ∧
      value.username.utf8ByteSize ≤ 1024 := by
  simp only [validateAccountSnapshot, bind_ok, ensure_ok] at h
  obtain ⟨_, hshape, -⟩ := h
  simp only [Bool.or_eq_true, decide_eq_true_eq, not_or, Bool.not_eq_true', Bool.not_eq_false] at hshape
  obtain ⟨⟨⟨⟨⟨⟨⟨hname, hemail⟩, -⟩, husername⟩, -⟩, -⟩, -⟩, -⟩ := hshape
  simp only [validAccountId, Bool.and_eq_true, decide_eq_true_eq] at hname
  exact ⟨hname.1.2, validEmail_size hemail, by omega⟩

theorem length_accountSnapshot {value : AccountSnapshot} {bytes : Bytes}
    (h : encodeAccountSnapshot env value = .ok bytes) : bytes.length ≤ 25000 := by
  simp only [encodeAccountSnapshot, bind_ok] at h
  obtain ⟨_, hvalid, incoming, hin, outgoing, hout, ids, hids, h⟩ := h
  have hcount := validateAccountSnapshot_cleanup hvalid
  obtain ⟨hid, hemail, husername⟩ := validateAccountSnapshot_sizes hvalid
  have hin := length_endpoint hin
  have hout := length_encodeOptional_le (fun e _ bytes hb => length_endpoint hb) hout
  have hids : ids.length ≤ 2 + value.cleanupIds.length * (6 + 16) := by
    refine length_encodeList (fun id _ bytes hb => ?_) hids
    obtain rfl := pure_ok.mp hb
    exact le_of_eq id.length_eq
  have hreason := length_optionalCode_le AccountStateReason.code value.stateReason
  have hids : ids.length ≤ 2300 := by omega
  refine (length_encodeFields_le h (?_ : List.Forall₂ _ _ [64, 16, 8, 320, 1024, 1, 16, 2, 32, 1, 1, 1,
    8300, 8300, 2300])).trans (by decide)
  simp only [List.forall₂_cons, List.Forall₂.nil, and_true, length_beBytes, length_be, length_utf8,
    Uuid.length_eq, Digest.length_eq]
  exact ⟨hid, le_refl _, le_refl _, hemail, husername, le_refl _, le_refl _, le_refl _, le_refl _,
    le_refl _, le_refl _, hreason, hin, hout, hids⟩

/-! ## 2. The sizes of payloads -/

theorem length_mailbox {mailbox : MailboxManifest} {action : SensitiveAction} {fields : List (Nat × Bytes)}
    (h : encodeMailbox action mailbox = .ok fields) :
    (fields.map fun f => 6 + f.2.length).sum ≤ 60000 := by
  simp only [encodeMailbox, validateMailbox, bind_ok, ensure_ok, pure_ok] at h
  obtain ⟨_, ⟨_, htexts, -⟩, rfl⟩ := h
  simp only [Bool.or_eq_true, decide_eq_true_eq, not_or, Bool.not_eq_true', Bool.not_eq_false] at htexts
  obtain ⟨⟨⟨⟨⟨-, hsource⟩, -⟩, -⟩, hrequested⟩, hresolved⟩ := htexts
  have hmailbox : ∀ name : Option String, ¬name.any invalidMailbox = true →
      (optionalText name).length ≤ 1 + 4 * 4096 := by
    intro name hname
    refine length_optionalText_le fun s hs => ?_
    rw [Option.mem_def.mp hs, Option.any_some, invalidMailbox] at hname
    simp only [Bool.or_eq_true, decide_eq_true_eq, not_or] at hname
    have := length_utf8_le s
    omega
  have hrequested := hmailbox _ hrequested
  have hresolved := hmailbox _ hresolved
  have hsource : (utf8 mailbox.sourceMailbox).length ≤ 4 * 4096 := by
    have := length_utf8_le mailbox.sourceMailbox
    omega
  have hvalue := length_optionalCode_le boolCode mailbox.requestedValue
  simp only [List.map_cons, List.map_nil, List.sum_cons, List.sum_nil, length_be, Digest.length_eq,
    length_beBytes]
  omega

theorem length_text_le {text : Option String} {n : Nat}
    (h : ¬(text.any fun s => decide (s.length > n)) = true) : (optionalText text).length ≤ 1 + 4 * n := by
  refine length_optionalText_le fun s hs => ?_
  rw [Option.mem_def.mp hs, Option.any_some, decide_eq_true_eq] at h
  have := length_utf8_le s
  omega

theorem length_messageId {value : String} (h : validMessageId value = true) :
    (utf8 value).length ≤ 998 := by
  simp only [validMessageId, Bool.and_eq_true, decide_eq_true_eq] at h
  rw [length_utf8]
  exact h.1.1.1.2

theorem length_asciiToken {value : String} (h : validAsciiToken value = true) :
    (utf8 value).length ≤ 256 := by
  simp only [validAsciiToken, Bool.and_eq_true, decide_eq_true_eq] at h
  rw [length_utf8]
  exact h.1.1.2

/-- The sizes that the checks of `encode_send` leave to its texts. -/
structure SendSizes (send : SendSubmitManifest) : Prop where
  recipients : send.toAddrs.length + send.cc.length + send.bcc.length ≤ 50
  attachments : send.attachments.length ≤ 25
  references : send.references.length ≤ 100
  subject : (utf8 send.subject).length ≤ 4 * 998
  text : (optionalText send.text).length ≤ 1 + 4 * 262144
  html : (optionalText send.html).length ≤ 1 + 4 * 262144
  messageId : (utf8 send.messageId).length ≤ 998
  boundary : (utf8 send.mimeBoundary).length ≤ 256
  inReplyTo : (optionalText send.inReplyTo).length ≤ 1 + 998
  reference : ∀ r ∈ send.references, (utf8 r).length ≤ 998

theorem validateSend_sizes {send : SendSubmitManifest} (h : validateSend send = .ok ()) :
    SendSizes send := by
  simp only [validateSend, bind_ok, ensure_ok] at h
  obtain ⟨_, hrecipients, _, htexts, -⟩ := h
  simp only [Bool.or_eq_true, not_or, Bool.not_eq_true', Bool.not_eq_false] at htexts
  obtain ⟨⟨⟨⟨⟨⟨⟨⟨⟨⟨hsubject, -⟩, -⟩, htext⟩, hhtml⟩, hattachments⟩, hreferences⟩, hmessage⟩, hboundary⟩,
    hreply⟩, hreference⟩ := htexts
  rw [decide_eq_true_eq] at hsubject hattachments hreferences
  refine ⟨by omega, by omega, by omega, ?_, length_text_le htext, length_text_le hhtml,
    length_messageId hmessage, length_asciiToken hboundary, ?_, ?_⟩
  · have := length_utf8_le send.subject
    omega
  · refine length_optionalText_le fun s hs => length_messageId ?_
    rw [Option.mem_def.mp hs, Option.any_some] at hreply
    simpa using hreply
  · intro r hr
    refine length_messageId ?_
    rw [List.any_eq_true, not_exists] at hreference
    have := hreference r
    simpa [hr] using this

theorem length_send {send : SendSubmitManifest} (ht : send.Typed) {fields : List (Nat × Bytes)}
    (h : encodeSend send = .ok fields) :
    (fields.map fun f => 6 + f.2.length).sum ≤ 4000000 := by
  simp only [encodeSend, bind_ok, pure_ok] at h
  obtain ⟨_, hvalid, sender, hsender, toAddrs, hto, cc, hcc, bcc, hbcc, attachments, hattachments, references,
    hreferences, rfl⟩ := h
  have hs := validateSend_sizes hvalid
  have hsender := length_address ht.sender hsender
  have hto := length_encodeList (fun a ha _ hb => length_address (ht.toAddrs a ha) hb) hto
  have hcc := length_encodeList (fun a ha _ hb => length_address (ht.cc a ha) hb) hcc
  have hbcc := length_encodeList (fun a ha _ hb => length_address (ht.bcc a ha) hb) hbcc
  have hattachments := length_encodeList (fun a _ _ hb => length_attachment hb) hattachments
  have hreferences : references.length ≤ 2 + send.references.length * (6 + 998) := by
    refine length_encodeList (fun r hr bytes hb => ?_) hreferences
    obtain rfl := pure_ok.mp hb
    exact hs.reference r hr
  have hrfc : (Digest.optBytes send.canonicalRfc822Sha256).length ≤ 32 := by
    cases send.canonicalRfc822Sha256 <;> simp [Digest.optBytes]
  obtain ⟨hrecipients, hcount, hcount', hsubject, htext, hhtml, hmessage, hboundary, hreply, -⟩ := hs
  refine (sum_sizes_le (?_ : List.Forall₂ _ _ [8, 1400, 80000, 80000, 80000, 3992, 1048577, 1048577,
    500000, 998, 8, 2, 256, 999, 200000, 32])).trans (by decide)
  simp only [List.forall₂_cons, List.Forall₂.nil, and_true, length_beBytes, length_be, length_beI64]
  exact ⟨le_refl _, hsender, by omega, by omega, by omega, hsubject, htext, hhtml, by omega, hmessage,
    le_refl _, le_refl _, hboundary, hreply, by omega, hrfc⟩

theorem length_accountMutation {value : AccountMutationManifest} (hcount : value.cleanup.length ≤ maxCleanup)
    {fields : List (Nat × Bytes)} (h : encodeAccountMutation env value = .ok fields) :
    (fields.map fun f => 6 + f.2.length).sum ≤ 100000 := by
  simp only [encodeAccountMutation, bind_ok, pure_ok] at h
  obtain ⟨cas, hcas, before, hbefore, after, hafter, cleanup, hcleanup, rfl⟩ := h
  have hcas := length_configCas hcas
  have hbefore := length_encodeOptional_le (fun _ _ _ hb => length_accountSnapshot hb) hbefore
  have hafter := length_encodeOptional_le (fun _ _ _ hb => length_accountSnapshot hb) hafter
  have hcleanup := length_encodeList (fun _ _ _ hb => length_cleanupDescriptor hb) hcleanup
  have hcleanup : cleanup.length ≤ 20602 := by
    rw [maxCleanup] at hcount
    omega
  refine (sum_sizes_le (?_ : List.Forall₂ _ _ [16, 200, 25000, 25000, 8, 32, 20602])).trans (by decide)
  simp only [List.forall₂_cons, List.Forall₂.nil, and_true, length_beBytes, Uuid.length_eq,
    Digest.length_eq]
  exact ⟨le_refl _, hcas, hbefore, hafter, le_refl _, le_refl _, hcleanup⟩

/-- **The encoding of a checked payload is bounded**, where its cleanup descriptors are. -/
theorem length_payload {context : ManifestContext} {payload : ManifestPayload}
    (hvalid : validatePayloadContext env context payload = .ok ()) (ht : payload.Typed)
    (hcount : payload.cleanup.length ≤ maxCleanup) {fields : List (Nat × Bytes)}
    (h : encodePayload env payload = .ok fields) :
    (fields.map fun f => 6 + f.2.length).sum ≤ 4000000 := by
  cases payload with
  | sendSubmit send => exact length_send ht h
  | mailSeen mailbox | mailStarred mailbox | mailMove mailbox | mailArchive mailbox
  | mailSafeDelete mailbox => exact (length_mailbox h).trans (by decide)
  | storeEnroll value =>
      simp only [encodePayload, encodeStoreEnroll, bind_ok, pure_ok] at h
      obtain ⟨cas, hcas, rfl⟩ := h
      have hcas := length_configCas hcas
      simp only [List.map_cons, List.map_nil, List.sum_cons, List.sum_nil, length_be, Uuid.length_eq]
      omega
  | accountCreate value | accountUpdate value | accountRemove value =>
      exact (length_accountMutation hcount h).trans (by decide)
  | credentialSet value | credentialDelete value =>
      simp only [encodePayload, encodeCredentialMutation, bind_ok, pure_ok] at h
      obtain ⟨account, haccount, rfl⟩ := h
      have := length_accountMutation hcount haccount
      simp only [List.map_append, List.map_cons, List.map_nil, List.sum_append, List.sum_cons,
        List.sum_nil, Digest.length_eq]
      omega
  | credentialCleanup value =>
      obtain rfl := pure_ok.mp h
      have := length_optBytes_uuid value.transitionId
      simp only [encodeCredentialCleanup, List.map_cons, List.map_nil, List.sum_cons, List.sum_nil,
        length_be, Uuid.length_eq, Digest.length_eq]
      omega
  | ownerRotate value | recoveryRotate value =>
      obtain rfl := pure_ok.mp h
      simp [encodeTrustRotation]
  | ownerRecover value =>
      obtain rfl := pure_ok.mp h
      simp [encodeOwnerRecover]
  | ambiguousClose value =>
      obtain rfl := pure_ok.mp h
      have hobservation := length_optBytes_digest value.observationSha256
      have htext : (utf8 value.assertionText).length ≤ 1024 := by
        simp only [validatePayloadContext, validateAmbiguousContext, ensure_ok, Bool.or_eq_true,
          decide_eq_true_eq, not_or] at hvalid
        rw [length_utf8]
        omega
      simp only [encodeAmbiguousClose, List.map_cons, List.map_nil, List.sum_cons, List.sum_nil,
        length_be, Uuid.length_eq, Digest.length_eq]
      omega

/-- **The encoding of a checked manifest is not too large to parse.** -/
theorem length_encodeManifest {context : ManifestContext} {payload : ManifestPayload}
    (hvalid : validatePayloadContext env context payload = .ok ()) (ht : payload.Typed)
    (hcount : payload.cleanup.length ≤ maxCleanup) {bytes : Bytes}
    (h : encodeManifest env context payload = .ok bytes) : bytes.length ≤ 4194304 := by
  simp only [encodeManifest, bind_ok] at h
  obtain ⟨fields, hfields, h⟩ := h
  have hpayload := length_payload hvalid ht hcount hfields
  have hcommon : ((commonManifestFields context payload.action).map fun f => 6 + f.2.length).sum ≤ 300 := by
    refine (sum_sizes_le (?_ : List.Forall₂ _ _ [2, 2, 16, 16, 16, 32, 32, 2, 16])).trans (by decide)
    simp only [commonManifestFields, List.forall₂_cons, List.Forall₂.nil, and_true, length_be]
    exact ⟨le_refl _, le_refl _, length_target_bytes _, length_optBytes_uuid _, length_optBytes_uuid _,
      length_optBytes_digest _, length_optBytes_digest _, le_refl _, length_optBytes_uuid _⟩
  have hdomain : manifestDomain.length = 18 := by decide
  rw [length_encodeFields h, List.map_append, List.sum_append, hdomain]
  omega

end Accounts

/-! ## 3. Manifests that were built, and manifests that were parsed -/

section Manifests

variable {env : Platform}

theorem ActionManifest.new_ok {codec : ManifestCodec} {context : ManifestContext} {payload : ManifestPayload}
    {m : ActionManifest} :
    ActionManifest.new env codec context payload = .ok m ↔
      validateManifestContext context payload.action = .ok () ∧
        validatePayloadContext env context payload = .ok () ∧
        codec.encode context payload = .ok m.canonicalBytes ∧
        m = ⟨context, payload, m.canonicalBytes, env.sha256 m.canonicalBytes⟩ := by
  simp only [ActionManifest.new, bind_ok, pure_ok]
  constructor
  · rintro ⟨_, hcontext, _, hpayload, bytes, hbytes, rfl⟩
    exact ⟨hcontext, hpayload, hbytes, rfl⟩
  · rintro ⟨hcontext, hpayload, hbytes, hm⟩
    exact ⟨(), hcontext, (), hpayload, m.canonicalBytes, hbytes, hm.symm⟩

/-- **A manifest that was built is parsed from its bytes exactly when the parser admits its cleanup
    descriptors.** -/
theorem ActionManifest.parse_built_iff {context : ManifestContext} {payload : ManifestPayload}
    {m : ActionManifest} (ht : payload.Typed)
    (h : ActionManifest.new env (manifestCodec env) context payload = .ok m) :
    ActionManifest.parse env (manifestCodec env) m.canonicalBytes = .ok m ↔
      payload.cleanup.length ≤ maxCleanup := by
  obtain ⟨hcontext, hpayload, hbytes, hm⟩ := ActionManifest.new_ok.mp h
  constructor
  · intro hparse
    by_contra hlong
    simp only [ActionManifest.parse, bind_ok] at hparse
    obtain ⟨_, -, decoded, hdecode, -⟩ := hparse
    exact decode_of_long hcontext (by omega) hbytes decoded hdecode
  · intro hcount
    have hdecode := decode_encode hcontext ht hcount hbytes
    simp only [ActionManifest.parse, bind_ok, ensure_ok, pure_ok]
    exact ⟨(), length_encodeManifest hpayload ht hcount hbytes, (context, payload), hdecode, m, h, (), rfl, rfl⟩

/-- A manifest that was parsed is built from its context and payload. -/
theorem ActionManifest.new_of_parse {codec : ManifestCodec} {bytes : Bytes} {m : ActionManifest}
    (h : ActionManifest.parse env codec bytes = .ok m) :
    m.canonicalBytes = bytes ∧ ActionManifest.new env codec m.context m.payload = .ok m := by
  simp only [ActionManifest.parse, bind_ok, ensure_ok, pure_ok] at h
  obtain ⟨_, -, ⟨context, payload⟩, -, result, hnew, _, hbytes, rfl⟩ := h
  obtain ⟨-, -, -, hresult⟩ := ActionManifest.new_ok.mp hnew
  have hcontext : result.context = context := congrArg ActionManifest.context hresult
  have hpayload : result.payload = payload := congrArg ActionManifest.payload hresult
  rw [hcontext, hpayload]
  exact ⟨hbytes, hnew⟩

/-- **Built manifests of equal bytes are of equal contexts and payloads**, also where the parser admits
    neither: the decoder is injective for any number of cleanup descriptors. -/
theorem ActionManifest.built_inj {context context' : ManifestContext} {payload payload' : ManifestPayload}
    {m m' : ActionManifest} (ht : payload.Typed) (ht' : payload'.Typed)
    (h : ActionManifest.new env (manifestCodec env) context payload = .ok m)
    (h' : ActionManifest.new env (manifestCodec env) context' payload' = .ok m')
    (heq : m.canonicalBytes = m'.canonicalBytes) : context = context' ∧ payload = payload' := by
  obtain ⟨hcontext, -, hbytes, -⟩ := ActionManifest.new_ok.mp h
  obtain ⟨hcontext', -, hbytes', -⟩ := ActionManifest.new_ok.mp h'
  have hdecode := decode_encode hcontext ht
    (le_max_left payload.cleanup.length payload'.cleanup.length) hbytes
  have hdecode' := decode_encode hcontext' ht'
    (le_max_right payload.cleanup.length payload'.cleanup.length) hbytes'
  rw [heq, hdecode', Except.ok.injEq, Prod.mk.injEq] at hdecode
  exact ⟨hdecode.1.symm, hdecode.2.symm⟩

end Manifests

/-! ## 4. The codec of the code -/

/-- **The codec of manifests, and the one bound its two sides do not share.**  A manifest that was built is
    parsed from its bytes exactly when it has at most `maxCleanup` cleanup descriptors, and whatever is
    parsed is canonical and can be built again. -/
theorem manifest_codec_iff (env : Platform) :
    (∀ (context : ManifestContext) (payload : ManifestPayload) (m : ActionManifest), payload.Typed →
      ActionManifest.new env (manifestCodec env) context payload = .ok m →
        (ActionManifest.parse env (manifestCodec env) m.canonicalBytes = .ok m ↔
          payload.cleanup.length ≤ maxCleanup)) ∧
      ∀ (bytes : Bytes) (m : ActionManifest),
        ActionManifest.parse env (manifestCodec env) bytes = .ok m →
          m.canonicalBytes = bytes ∧
            ActionManifest.new env (manifestCodec env) m.context m.payload = .ok m :=
  ⟨fun _ _ _ ht h => ActionManifest.parse_built_iff ht h, fun _ _ h => ActionManifest.new_of_parse h⟩

namespace ManifestSample

open BindingSample (platform)

def uuid (n : Nat) : Uuid :=
  ⟨be 6 0 ++ [0x40] ++ be 8 0 ++ [UInt8.ofNat n], by simp, by simp [List.getD]⟩

def digest (n : Nat) : Digest := ⟨be 32 n, length_digest n⟩

def one : NonZeroU64 := ⟨1, Nat.one_pos, one_lt_u64⟩

def two : NonZeroU64 := ⟨2, Nat.two_pos, two_lt_u64⟩

def cas : ConfigCas := ⟨uuid 40, one, digest 42, digest 43⟩

/-- The enrollment of a store. -/
def enrollment : ManifestContext × ManifestPayload :=
  (⟨.store (uuid 40), some (uuid 40), none, none, none, none⟩, .storeEnroll ⟨uuid 41, cas⟩)

def account : AccountSnapshot where
  displayId := "a"
  accountId := uuid 70
  generation := one
  email := "a@m.fi"
  username := "a"
  credentialKind := .password
  credentialId := uuid 71
  bindingVersion := 1
  bindingSha256 := digest 0
  bindingState := .proposed
  credentialState := .reentryRequired
  stateReason := some .credentialReentryRequired
  incoming := ⟨.imap, "m.fi", .dns, "m.fi", 993, .implicitTls⟩
  outgoing := none
  cleanupIds := []

/-- The removal of an account with a number of cleanup descriptors. -/
def removal (count : Nat) : ManifestContext × ManifestPayload :=
  (⟨.account (uuid 70), some (uuid 40), some (uuid 70), some (digest 0), none, none⟩,
    .accountRemove ⟨uuid 83, cas, some account, none, two, digest 44,
      (List.range count).map fun i => ⟨uuid i, .legacyV1, digest i, .provisional⟩⟩)

/-- A flag of a message, which has a remote effect. -/
def seen : ManifestContext × ManifestPayload :=
  (⟨.operation (uuid 60), some (uuid 40), some (uuid 70), some (digest 0), some (digest 1),
      some (uuid 61)⟩,
    .mailSeen ⟨one, "INBOX", 1, 7, some true, none, .none, none, .store, digest 2, true⟩)

/-- The context of a challenge, of ten minutes. -/
def challenge : AuthorizationContext :=
  ⟨digest 3, digest 4, digest 5, one, uuid 62, digest 6, 1000, 601000⟩

/-- What is built of an action. -/
def built (action : ManifestContext × ManifestPayload) : Result ActionManifest :=
  ActionManifest.new platform (manifestCodec platform) action.1 action.2

theorem built_enrollment : ∃ m, built enrollment = .ok m := exists_ok_of_isSome (by decide +kernel)

theorem built_removal : ∃ m, built (removal 101) = .ok m := exists_ok_of_isSome (by decide +kernel)

/-- The flag is built, and so is its transcript. -/
theorem built_seen : ∃ m p, built seen = .ok m ∧ AuthorizationPayload.new platform m challenge = .ok p := by
  have h : ∃ p, (do let m ← built seen
                    AuthorizationPayload.new platform m challenge) = .ok p :=
    exists_ok_of_isSome (by decide)
  obtain ⟨p, hp⟩ := h
  obtain ⟨m, hm, hp⟩ := bind_ok.mp hp
  exact ⟨m, p, hm, hp⟩

theorem enrollment_typed : enrollment.2.Typed := trivial

theorem removal_typed {count : Nat} : (removal count).2.Typed := by
  refine ⟨fun s hs => ?_, fun s hs => by cases hs⟩
  obtain rfl := Option.mem_some_iff.mp hs
  exact ⟨by decide, (by decide : 993 < 2 ^ 16), fun e he => by cases he⟩

end ManifestSample

/-- The enrollment of a store is built, parsed and built again. -/
theorem manifest_codec_iff_sample : ∃ m, ManifestSample.built ManifestSample.enrollment = .ok m ∧
    ActionManifest.parse BindingSample.platform (manifestCodec BindingSample.platform) m.canonicalBytes =
        .ok m ∧
      ActionManifest.new BindingSample.platform (manifestCodec BindingSample.platform) m.context
        m.payload = .ok m := by
  obtain ⟨hbuilt, hparsed⟩ := manifest_codec_iff BindingSample.platform
  obtain ⟨m, hm⟩ := ManifestSample.built_enrollment
  have hparse := (hbuilt _ _ m ManifestSample.enrollment_typed hm).mpr (by decide)
  exact ⟨m, hm, hparse, (hparsed _ m hparse).2⟩

/-- **A removal with 101 cleanup descriptors is built, and is not parsed from its own bytes.** -/
theorem removal_not_parsed : ∃ m, ManifestSample.built (ManifestSample.removal 101) = .ok m ∧
    ActionManifest.parse BindingSample.platform (manifestCodec BindingSample.platform) m.canonicalBytes ≠
      .ok m := by
  obtain ⟨m, hm⟩ := ManifestSample.built_removal
  have hlong : ¬(ManifestSample.removal 101).2.cleanup.length ≤ maxCleanup := by decide
  exact ⟨m, hm, fun hparse => hlong ((ActionManifest.parse_built_iff ManifestSample.removal_typed hm).mp hparse)⟩

/-- **The encoding of manifests is injective**: of two manifests that were built, equal bytes are of one
    context and one payload; and so are equal digests, unless the two texts collide. -/
theorem manifest_encoding_injective {env : Platform} {context context' : ManifestContext}
    {payload payload' : ManifestPayload} {m m' : ActionManifest} (ht : payload.Typed)
    (ht' : payload'.Typed) (h : ActionManifest.new env (manifestCodec env) context payload = .ok m)
    (h' : ActionManifest.new env (manifestCodec env) context' payload' = .ok m') :
    (m.canonicalBytes = m'.canonicalBytes → context = context' ∧ payload = payload') ∧
      ((env.sha256 m.canonicalBytes = env.sha256 m'.canonicalBytes →
          m.canonicalBytes = m'.canonicalBytes) →
        m.sha256 = m'.sha256 → context = context' ∧ payload = payload') := by
  have hinj := ActionManifest.built_inj ht ht' h h'
  refine ⟨hinj, fun hfree hsha => hinj (hfree ?_)⟩
  have hm : m.sha256 = env.sha256 m.canonicalBytes := by
    rw [(ActionManifest.new_ok.mp h).2.2.2]
  have hm' : m'.sha256 = env.sha256 m'.canonicalBytes := by
    rw [(ActionManifest.new_ok.mp h').2.2.2]
  rw [← hm, ← hm', hsha]

/-- An enrollment and a removal that no parser admits have different bytes. -/
theorem manifest_encoding_injective_sample : ∃ m m',
    ManifestSample.built ManifestSample.enrollment = .ok m ∧
      ManifestSample.built (ManifestSample.removal 101) = .ok m' ∧ m.canonicalBytes ≠ m'.canonicalBytes := by
  obtain ⟨m, hm⟩ := ManifestSample.built_enrollment
  obtain ⟨m', hm'⟩ := ManifestSample.built_removal
  refine ⟨m, m', hm, hm', fun heq => ?_⟩
  obtain ⟨hcontext, -⟩ := (manifest_encoding_injective ManifestSample.enrollment_typed
    ManifestSample.removal_typed hm hm').1 heq
  exact absurd hcontext (by decide)

/-! ## 5. The transcripts of built manifests -/

/-- The times of a context are 64-bit. -/
structure AuthorizationContext.Typed (c : AuthorizationContext) : Prop where
  issuedAt : -2 ^ 63 ≤ c.issuedAt ∧ c.issuedAt < 2 ^ 63
  expiresAt : -2 ^ 63 ≤ c.expiresAt ∧ c.expiresAt < 2 ^ 63

/-- **Transcripts reparse.**  What is built of a manifest that was built is parsed from its bytes, with the
    same challenge id, whatever the action; and what is parsed has the bytes parsed. -/
theorem authorization_transcripts_reparse (env : Platform) :
    (∀ (context : ManifestContext) (payload : ManifestPayload) (m : ActionManifest)
      (c : AuthorizationContext) (p : AuthorizationPayload),
      ActionManifest.new env (manifestCodec env) context payload = .ok m → c.Typed →
        AuthorizationPayload.new env m c = .ok p →
          AuthorizationPayload.parse env p.canonicalBytes = .ok p ∧
            p.challengeId = env.sha256 p.canonicalBytes) ∧
      ∀ (bytes : Bytes) (p : AuthorizationPayload), AuthorizationPayload.parse env bytes = .ok p →
        p.canonicalBytes = bytes := by
  constructor
  · intro context payload m c p hm hc hp
    obtain ⟨hcontext, hpayload, -, heq⟩ := ActionManifest.new_ok.mp hm
    have hvalid : m.Valid env := by
      rw [heq]
      exact ⟨hcontext, hpayload, rfl⟩
    have hparse := AuthorizationPayload.parse_new hvalid hc.issuedAt hc.expiresAt hp
    exact ⟨hparse, (AuthorizationPayload.parse_ok env hparse).2.1⟩
  · intro bytes p hp
    exact (AuthorizationPayload.parse_ok env hp).1

/-- The transcript of a flag, which names its remote effect, is parsed from its bytes. -/
theorem authorization_transcripts_reparse_sample : ∃ m p,
    ManifestSample.built ManifestSample.seen = .ok m ∧
      AuthorizationPayload.new BindingSample.platform m ManifestSample.challenge = .ok p ∧
      AuthorizationPayload.parse BindingSample.platform p.canonicalBytes = .ok p := by
  obtain ⟨m, p, hm, hp⟩ := ManifestSample.built_seen
  have hc : ManifestSample.challenge.Typed := ⟨by decide, by decide⟩
  exact ⟨m, p, hm, hp,
    ((authorization_transcripts_reparse BindingSample.platform).1 _ _ m _ p hm hc hp).1⟩

end Kirje
