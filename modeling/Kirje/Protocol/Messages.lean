import Kirje.Core.ReplyAll
import Kirje.Core.Requests

/-
  File:      Kirje/Protocol/Messages.lean
  Subject:   The reading of a message (`parse_message`, crates/kirje-protocol/src/imap.rs)
             and its use as the source of a draft (crates/kirje-core/src/input.rs).

  The reader keeps a hundred addresses of each list and 4096 characters of a header; the
  lexical pass has its own limits for the same fields, by their names.  `mail_parser`,
  `ammonia` and the calendar come in as parameters.

  * `review_message`: what the pass asks of a message inside a draft.
  * **`answer_read_back_iff`**: which messages that can be read can be answered.
-/

namespace Kirje

open Base

/-! ## 1. Reading a message -/

/-- An address of a header. -/
structure ParserAddr where
  name : Option String
  address : Option String
  deriving DecidableEq, Repr

inductive ParserAddress where
  | list (addresses : List ParserAddr)
  | group (groups : List (List ParserAddr))
  deriving DecidableEq, Repr

/-- A part that is an attachment. -/
structure ParserPart where
  attachmentName : Option String
  contentType : Option (String × Option String)
  length : Nat
  deriving DecidableEq, Repr

/-- What `mail_parser` finds in a message. -/
structure ParserMessage where
  bodyText : Option String
  bodyHtml : Option String
  attachmentCount : Nat
  attachments : List ParserPart
  subject : Option String
  fromHeader : Option ParserAddress
  toHeader : Option ParserAddress
  ccHeader : Option ParserAddress
  replyToHeader : Option ParserAddress
  messageId : Option String
  date : Option Int
  deriving DecidableEq, Repr

/-- What the reader takes from other crates. -/
structure MessageLibraries where
  parse : Bytes → Option ParserMessage
  clean : String → String
  fromTimestamp : Int → Option DateTime

/-- `truncate`. -/
def truncate (value : Option String) (maxChars : Nat) : Option String × Bool :=
  match value with
  | none => (none, false)
  | some value => (some (String.ofList (value.toList.take maxChars)), decide (maxChars < value.length))

/-- `parser_address`. -/
def parserAddress (a : ParserAddr) : MailAddress := ⟨a.name, a.address.getD ""⟩

/-- `parser_addresses` of a header that may be missing. -/
def parserAddresses : Option ParserAddress → List MailAddress
  | none => []
  | some (.list addresses) => addresses.map parserAddress
  | some (.group groups) => groups.flatten.map parserAddress

/-- An address with its texts cut. -/
def boundAddress (a : MailAddress) : MailAddress :=
  ⟨(truncate a.name 4096).1, ((truncate (some a.email) 4096).1).getD ""⟩

/-- `bound_addresses`: the addresses kept and whether anything was cut. -/
def boundAddresses (addresses : List MailAddress) : List MailAddress × Bool :=
  ((addresses.take 100).map boundAddress,
    decide (100 < addresses.length) || (addresses.take 100).any fun a =>
      (truncate a.name 4096).2 || (truncate (some a.email) 4096).2)

/-- `part_mime_type`. -/
def partMimeType (part : ParserPart) : String :=
  match part.contentType with
  | none => "application/octet-stream"
  | some (type, some subtype) => type ++ "/" ++ subtype
  | some (type, none) => type

/-- The metadata of the attachment at an index. -/
def attachmentMetadata (index : Nat) (part : ParserPart) : AttachmentMetadata where
  partId := "attachment-" ++ toString (index + 1)
  filename := (truncate part.attachmentName 4096).1
  mimeType := ((truncate (some (partMimeType part)) 4096).1).getD "application/octet-stream"
  size := min part.length (2 ^ 64 - 1)

/-- `parse_message`. -/
def parseMessage (libs : MessageLibraries) (reference : MessageReference) (raw : Bytes)
    (maxBodyChars : Nat) : Result MessageContent := do
  let message ← orRefuse (libs.parse raw)
    (.new .protocol "message is not valid RFC 5322/MIME content" false)
  let (text, textTruncated) := truncate message.bodyText maxBodyChars
  let (sanitizedHtml, htmlTruncated) := truncate (message.bodyHtml.map libs.clean) maxBodyChars
  let parts := message.attachments.take 100
  let attachmentTruncated := decide (100 < message.attachmentCount) || parts.any fun part =>
    (truncate part.attachmentName 4096).2 || (truncate (some (partMimeType part)) 4096).2
  let (subject, subjectTruncated) := truncate message.subject 4096
  let (messageId, messageIdTruncated) := truncate message.messageId 4096
  let (fromAddrs, fromTruncated) := boundAddresses (parserAddresses message.fromHeader)
  let (toAddrs, toTruncated) := boundAddresses (parserAddresses message.toHeader)
  let (cc, ccTruncated) := boundAddresses (parserAddresses message.ccHeader)
  let (replyTo, replyToTruncated) := boundAddresses (parserAddresses message.replyToHeader)
  pure {
    reference := reference
    messageId := messageId
    subject := subject.getD ""
    fromAddrs := fromAddrs
    toAddrs := toAddrs
    cc := cc
    replyTo := replyTo
    sentAt := message.date.bind libs.fromTimestamp
    text := text
    sanitizedHtml := sanitizedHtml
    attachments := parts.mapIdx attachmentMetadata
    untrusted := true
    truncated := messageIdTruncated || textTruncated || htmlTruncated || attachmentTruncated ||
      subjectTruncated || (fromTruncated || toTruncated || ccTruncated || replyToTruncated) }

/-! ## 2. Draft input -/

/-- The attachments of a draft: each is valid, and the running total is bounded. -/
def validateDraftAttachments (env : External) : Nat → List SendAttachment → Result Unit
  | _, [] => pure ()
  | total, a :: rest => do
      let bytes ← a.validate env
      ensure (total + bytes.length < 2 ^ 64) (resource "draft attachment total overflowed")
      ensure (total + bytes.length ≤ 8388608)
        (resource "draft attachments exceed the decoded-total budget")
      validateDraftAttachments env (total + bytes.length) rest

/-- `validate_draft_input`. -/
def validateDraftInput (env : External) (input : DraftInput) : Result Unit := do
  ensure (validAccountId input.accountId) (.invalid "draft account id is malformed")
  ensure (input.toAddrs.length + input.cc.length + input.bcc.length ≤ 50)
    (resource "draft has too many recipients")
  ensure (input.attachments.length ≤ 25) (resource "draft has too many attachments")
  validateDraftAttachments env 0 input.attachments

/-- `bounded_input!` of a draft input. -/
def DraftInput.input (env : External) : BoundedInput DraftInput where
  shape := .draft
  maxBytes := 25165824
  validateInput := validateDraftInput env

/-! ## 3. The review of a message inside a draft -/

/-- A list of addresses within the limits of the pass for its field. -/
def AddressesFit (maximum : Nat) (addresses : List MailAddress) : Prop :=
  addresses.length ≤ maximum ∧ ∀ a ∈ addresses, a.Fits

def AttachmentMetadata.Fits (a : AttachmentMetadata) : Prop :=
  a.partId.length ≤ 128 ∧ (∀ s ∈ a.filename, s.length ≤ 255) ∧ a.mimeType.length ≤ 127

/-- The limits of the pass for a message that is the source of a draft. -/
structure MessageContent.Fits (m : MessageContent) : Prop where
  accountId : m.reference.accountId.length ≤ 64
  mailbox : m.reference.mailbox.length ≤ 4096
  messageId : ∀ s ∈ m.messageId, s.length ≤ 998
  subject : m.subject.length ≤ 998
  fromAddrs : AddressesFit 100 m.fromAddrs
  toAddrs : AddressesFit 50 m.toAddrs
  cc : AddressesFit 50 m.cc
  replyTo : AddressesFit 100 m.replyTo
  text : ∀ s ∈ m.text, s.length ≤ 262144
  sanitizedHtml : ∀ s ∈ m.sanitizedHtml, s.length ≤ 262144
  attachments : m.attachments.length ≤ 100 ∧ ∀ a ∈ m.attachments, a.Fits

section Review

variable {decodeKey : Bytes → Option String}

/-- A list of addresses below the top level counts nothing. -/
theorem review_innerAddresses (h : ReadsNames decodeKey) {field : String} {addresses : List MailAddress}
    {attachments recipients : Nat} {t' : Tally} :
    reviewValue decodeKey .draft 2 (addressListJson addresses) ⟨some field, attachments, recipients⟩ =
        some t' ↔
      AddressesFit (arrayMaximum (some field) false) addresses ∧
        ⟨if addresses = [] then some field else some "email", attachments, recipients⟩ = t' := by
  rw [review_addresses h (by decide)]
  exact ⟨fun ⟨hmax, hall, ht⟩ => ⟨⟨hmax, hall⟩, Option.some.inj ht⟩,
    fun ⟨⟨hmax, hall⟩, ht⟩ => ⟨hmax, hall, congrArg some ht⟩⟩

theorem review_reference (h : ReadsNames decodeKey) {r : MessageReference} {t t' : Tally} :
    reviewValue decodeKey .draft 2 r.json t = some t' ↔
      (r.accountId.length ≤ 64 ∧ r.mailbox.length ≤ 4096) ∧
        ⟨some "uid", t.attachments, t.recipients⟩ = t' := by
  have hnumber : ∀ {level : Nat} {o : Option Nat} {t : Tally},
      reviewValue decodeKey .draft level (optionJson .number o) t = some t := by
    intro level o t
    cases o <;> rfl
  rw [MessageReference.json, review_object (by decide) (by simp)]
  simp only [reviewMembers_cons h (by decide : PlainName "account_id"),
    reviewMembers_cons h (by decide : PlainName "mailbox"),
    reviewMembers_cons h (by decide : PlainName "uid_validity"),
    reviewMembers_cons h (by decide : PlainName "uid"), reviewMembers_nil, Option.bind_eq_some_iff,
    review_text (by decide : "account_id" ≠ "content_base64"),
    review_text (by decide : "mailbox" ≠ "content_base64"), hnumber, review_number, Option.some.injEq]
  constructor
  · rintro ⟨_, ⟨haccount, rfl⟩, _, ⟨hmailbox, rfl⟩, _, rfl, _, rfl, rfl⟩
    exact ⟨⟨haccount, hmailbox⟩, rfl⟩
  · rintro ⟨⟨haccount, hmailbox⟩, rfl⟩
    exact ⟨_, ⟨haccount, rfl⟩, _, ⟨hmailbox, rfl⟩, _, rfl, _, rfl, rfl⟩

theorem review_attachmentMetadata (h : ReadsNames decodeKey) {a : AttachmentMetadata} {t t' : Tally} :
    reviewValue decodeKey .draft 3 a.json t = some t' ↔
      a.Fits ∧ ⟨some "size", t.attachments, t.recipients⟩ = t' := by
  rw [AttachmentMetadata.json, review_object (by decide) (by simp)]
  simp only [reviewMembers_cons h (by decide : PlainName "part_id"),
    reviewMembers_cons h (by decide : PlainName "filename"),
    reviewMembers_cons h (by decide : PlainName "mime_type"),
    reviewMembers_cons h (by decide : PlainName "size"), reviewMembers_nil, Option.bind_eq_some_iff,
    review_text (by decide : "part_id" ≠ "content_base64"),
    review_optionalText (by decide : "filename" ≠ "content_base64"),
    review_text (by decide : "mime_type" ≠ "content_base64"), review_number, Option.some.injEq]
  constructor
  · rintro ⟨_, ⟨hpart, rfl⟩, _, ⟨hfilename, rfl⟩, _, ⟨hmime, rfl⟩, _, rfl, rfl⟩
    exact ⟨⟨hpart, hfilename, hmime⟩, rfl⟩
  · rintro ⟨⟨hpart, hfilename, hmime⟩, rfl⟩
    exact ⟨_, ⟨hpart, rfl⟩, _, ⟨hfilename, rfl⟩, _, ⟨hmime, rfl⟩, _, rfl, rfl⟩

/-- **A message inside a draft** is admitted exactly within its limits. -/
theorem review_message (h : ReadsNames decodeKey) {timeText : DateTime → String}
    (htime : ∀ t, (timeText t).length ≤ 64) {m : MessageContent} {t t' : Tally} :
    reviewValue decodeKey .draft 1 (m.json timeText) t = some t' ↔
      m.Fits ∧ ⟨some "truncated", t.attachments, t.recipients⟩ = t' := by
  have hsent : ∀ {attachments recipients : Nat} {t' : Tally},
      reviewValue decodeKey .draft 2 (optionJson (fun t => .string (timeText t)) m.sentAt)
        ⟨some "sent_at", attachments, recipients⟩ = some t' ↔
          ⟨some "sent_at", attachments, recipients⟩ = t' := by
    intro attachments recipients t'
    cases m.sentAt with
    | none => exact Option.some_inj
    | some t =>
        refine (review_text (by decide)).trans (and_iff_right ?_)
        exact Nat.le_trans (htime t) (by decide)
  have hattachments : ∀ {attachments recipients : Nat} {t' : Tally},
      reviewValue decodeKey .draft 2 (.array (m.attachments.map AttachmentMetadata.json))
        ⟨some "attachments", attachments, recipients⟩ = some t' ↔
          (m.attachments.length ≤ 100 ∧ ∀ a ∈ m.attachments, a.Fits) ∧
            ⟨if m.attachments = [] then some "attachments" else some "size", attachments, recipients⟩ =
              t' := by
    intro attachments recipients t'
    rw [review_array (by decide)]
    simp only [List.length_map, review_items fun _ _ _ => review_attachmentMetadata h]
    constructor
    · rintro ⟨hmax, _, ⟨hall, rfl⟩, ht⟩
      exact ⟨⟨hmax, hall⟩, Option.some.inj ht⟩
    · rintro ⟨⟨hmax, hall⟩, rfl⟩
      exact ⟨hmax, _, ⟨hall, rfl⟩, rfl⟩
  rw [MessageContent.json, review_object (by decide) (by simp)]
  simp only [reviewMembers_cons h (by decide : PlainName "reference"),
    reviewMembers_cons h (by decide : PlainName "message_id"),
    reviewMembers_cons h (by decide : PlainName "subject"),
    reviewMembers_cons h (by decide : PlainName "from"),
    reviewMembers_cons h (by decide : PlainName "to"),
    reviewMembers_cons h (by decide : PlainName "cc"),
    reviewMembers_cons h (by decide : PlainName "reply_to"),
    reviewMembers_cons h (by decide : PlainName "sent_at"),
    reviewMembers_cons h (by decide : PlainName "text"),
    reviewMembers_cons h (by decide : PlainName "sanitized_html"),
    reviewMembers_cons h (by decide : PlainName "attachments"),
    reviewMembers_cons h (by decide : PlainName "untrusted"),
    reviewMembers_cons h (by decide : PlainName "truncated"), reviewMembers_nil,
    Option.bind_eq_some_iff, review_reference h,
    review_optionalText (by decide : "message_id" ≠ "content_base64"),
    review_text (by decide : "subject" ≠ "content_base64"), review_innerAddresses h, hsent,
    review_optionalText (by decide : "text" ≠ "content_base64"),
    review_optionalText (by decide : "sanitized_html" ≠ "content_base64"), hattachments, review_bool,
    Option.some.injEq]
  constructor
  · rintro ⟨_, ⟨href, rfl⟩, _, ⟨hid, rfl⟩, _, ⟨hsubject, rfl⟩, _, ⟨hfrom, rfl⟩, _, ⟨hto, rfl⟩, _, ⟨hcc, rfl⟩,
      _, ⟨hreply, rfl⟩, _, rfl, _, ⟨htext, rfl⟩, _, ⟨hhtml, rfl⟩, _, ⟨hatt, rfl⟩, _, rfl, _, rfl, rfl⟩
    exact ⟨⟨href.1, href.2, hid, hsubject, hfrom, hto, hcc, hreply, htext, hhtml, hatt⟩, rfl⟩
  · rintro ⟨hm, rfl⟩
    exact ⟨_, ⟨⟨hm.accountId, hm.mailbox⟩, rfl⟩, _, ⟨hm.messageId, rfl⟩, _, ⟨hm.subject, rfl⟩, _,
      ⟨hm.fromAddrs, rfl⟩, _, ⟨hm.toAddrs, rfl⟩, _, ⟨hm.cc, rfl⟩, _, ⟨hm.replyTo, rfl⟩, _, rfl, _,
      ⟨hm.text, rfl⟩, _, ⟨hm.sanitizedHtml, rfl⟩, _, ⟨hm.attachments, rfl⟩, _, rfl, _, rfl, rfl⟩

/-- What an answer says itself. -/
structure DraftInput.OwnFits (input : DraftInput) : Prop where
  subject : ∀ s ∈ input.subject, s.length ≤ 998
  text : ∀ s ∈ input.text, s.length ≤ 262144
  html : ∀ s ∈ input.html, s.length ≤ 262144

/-- **A draft that answers a message and names nobody** is admitted exactly within the limits of
    the message and its own. -/
theorem review_answer (h : ReadsNames decodeKey) {timeText : DateTime → String}
    (htime : ∀ t, (timeText t).length ≤ 64) {input : DraftInput} {m : MessageContent}
    (hsource : input.source = some m) (hto : input.toAddrs = []) (hcc : input.cc = [])
    (hbcc : input.bcc = []) (hattachments : input.attachments = []) :
    (∃ t, reviewValue decodeKey .draft 0 (input.json timeText) .start = some t) ↔
      input.accountId.length ≤ 64 ∧ m.Fits ∧ input.OwnFits := by
  have hmode : ∀ {attachments recipients : Nat} {t' : Tally},
      reviewValue decodeKey .draft 1 (.string (draftModeName input.mode))
        ⟨some "mode", attachments, recipients⟩ = some t' ↔
          ⟨some "mode", attachments, recipients⟩ = t' := by
    intro attachments recipients t'
    refine (review_text (by decide)).trans (and_iff_right ?_)
    cases input.mode <;> decide
  have hnobody : ∀ {field : String} {attachments recipients : Nat} {t' : Tally},
      recipients ≤ 50 → (reviewValue decodeKey .draft 1 (addressListJson [])
        ⟨some field, attachments, recipients⟩ = some t' ↔
          ⟨some field, attachments, recipients⟩ = t') := by
    intro field attachments recipients t' hle
    rw [review_addresses h (by decide)]
    have hreceive : ∀ counts, (⟨some field, attachments, recipients⟩ : Tally).receive counts 0 =
        some ⟨some field, attachments, recipients⟩ := by
      intro counts
      cases counts with
      | false => rfl
      | true => simp [Tally.receive, guard, hle]
    simp only [if_pos, List.length_nil, hreceive, Option.some.injEq]
    exact ⟨fun h => h.2.2, fun h => ⟨Nat.zero_le _, (fun _ hx => absurd hx List.not_mem_nil), h⟩⟩
  have hnothing : ∀ {attachments recipients : Nat} {t' : Tally},
      reviewValue decodeKey .draft 1 (.array ([].map SendAttachment.json))
        ⟨some "attachments", attachments, recipients⟩ = some t' ↔
          ⟨some "attachments", attachments, recipients⟩ = t' := by
    intro attachments recipients t'
    rw [List.map_nil, review_array (by decide)]
    constructor
    · rintro ⟨-, _, hu, ht⟩
      obtain rfl := Option.some.inj hu
      exact Option.some.inj ht
    · rintro rfl
      exact ⟨Nat.zero_le _, _, rfl, rfl⟩
  have hjson : optionJson (MessageContent.json timeText) (some m) = m.json timeText := rfl
  rw [DraftInput.json, hsource, hto, hcc, hbcc, hattachments, hjson, review_object (by decide) (by simp)]
  simp only [reviewMembers_cons h (by decide : PlainName "account_id"),
    reviewMembers_cons h (by decide : PlainName "mode"),
    reviewMembers_cons h (by decide : PlainName "source"),
    reviewMembers_cons h (by decide : PlainName "to"),
    reviewMembers_cons h (by decide : PlainName "cc"),
    reviewMembers_cons h (by decide : PlainName "bcc"),
    reviewMembers_cons h (by decide : PlainName "subject"),
    reviewMembers_cons h (by decide : PlainName "text"),
    reviewMembers_cons h (by decide : PlainName "html"),
    reviewMembers_cons h (by decide : PlainName "attachments"), reviewMembers_nil,
    Option.bind_eq_some_iff, review_text (by decide : "account_id" ≠ "content_base64"), hmode,
    review_message h htime, hnothing,
    review_optionalText (by decide : "subject" ≠ "content_base64"),
    review_optionalText (by decide : "text" ≠ "content_base64"),
    review_optionalText (by decide : "html" ≠ "content_base64"), Option.some.injEq]
  constructor
  · rintro ⟨_, _, ⟨haccount, rfl⟩, _, rfl, _, ⟨hm, rfl⟩, _, hto, _, hcc, _, hbcc, hrest⟩
    obtain rfl := (hnobody (Nat.zero_le 50)).mp hto
    obtain rfl := (hnobody (Nat.zero_le 50)).mp hcc
    obtain rfl := (hnobody (Nat.zero_le 50)).mp hbcc
    obtain ⟨_, ⟨hsubject, rfl⟩, _, ⟨htext, rfl⟩, _, ⟨hhtml, rfl⟩, -⟩ := hrest
    exact ⟨haccount, hm, hsubject, htext, hhtml⟩
  · rintro ⟨haccount, hm, hown⟩
    exact ⟨_, _, ⟨haccount, rfl⟩, _, rfl, _, ⟨hm, rfl⟩, _, (hnobody (Nat.zero_le 50)).mpr rfl, _,
      (hnobody (Nat.zero_le 50)).mpr rfl, _, (hnobody (Nat.zero_le 50)).mpr rfl, _,
      ⟨hown.subject, rfl⟩, _, ⟨hown.text, rfl⟩, _, ⟨hown.html, rfl⟩, _, rfl, rfl⟩

end Review

/-! ## 4. Which messages can be answered -/

/-- What the reader leaves of a text, against a limit. -/
theorem truncate_fits {value : Option String} {maxChars limit : Nat} :
    (∀ s ∈ (truncate value maxChars).1, s.length ≤ limit) ↔
      ∀ s ∈ value, min maxChars s.length ≤ limit := by
  cases value with
  | none => simp [truncate]
  | some value => simp [truncate, String.length_toList]

/-- The reader cuts no address to size. -/
theorem boundAddress_fits {a : MailAddress} : (boundAddress a).Fits ↔ a.Fits := by
  have hemail : (boundAddress a).email.length = min 4096 a.email.length := by
    simp [boundAddress, truncate, String.length_toList]
  have hname : (∀ s ∈ (boundAddress a).name, s.length ≤ 256) ↔ ∀ s ∈ a.name, s.length ≤ 256 := by
    rw [boundAddress, truncate_fits]
    refine forall₂_congr fun s _ => ?_
    omega
  rw [MailAddress.Fits, hname, hemail, MailAddress.Fits]
  refine and_congr_right fun _ => ?_
  omega

/-- A list of a header fits as it is kept: the first hundred addresses. -/
theorem boundAddresses_fit {maximum : Nat} {addresses : List MailAddress} :
    AddressesFit maximum (boundAddresses addresses).1 ↔
      min 100 addresses.length ≤ maximum ∧ ∀ a ∈ addresses.take 100, a.Fits := by
  simp only [AddressesFit, boundAddresses, List.length_map, List.length_take, List.forall_mem_map,
    boundAddress_fits]

/-- The metadata of an attachment fits as the part does. -/
theorem attachmentMetadata_fits {index : Nat} (h : index < 100) {part : ParserPart} :
    (attachmentMetadata index part).Fits ↔
      (∀ s ∈ part.attachmentName, s.length ≤ 255) ∧ (partMimeType part).length ≤ 127 := by
  have hnumber : (toString (index + 1)).length ≤ 3 := by
    rw [Nat.toString_eq_repr, Nat.length_repr_le_iff (by decide)]
    omega
  have hpart : (attachmentMetadata index part).partId.length ≤ 128 := by
    have hhead : "attachment-".length = 11 := by decide
    simp only [attachmentMetadata, String.length_append, hhead]
    omega
  have hmime : (attachmentMetadata index part).mimeType.length = min 4096 (partMimeType part).length := by
    simp [attachmentMetadata, truncate, String.length_toList]
  have hname : (∀ s ∈ (attachmentMetadata index part).filename, s.length ≤ 255) ↔
      ∀ s ∈ part.attachmentName, s.length ≤ 255 := by
    rw [attachmentMetadata, truncate_fits]
    refine forall₂_congr fun s _ => ?_
    omega
  rw [AttachmentMetadata.Fits, hname, hmime]
  refine (and_iff_right hpart).trans (and_congr_right fun _ => ?_)
  omega

/-- What `parse_message` reads can be the source of a draft, as far as the limits of the pass go. -/
structure Answerable (libs : MessageLibraries) (reference : MessageReference)
    (message : ParserMessage) (maxBodyChars : Nat) : Prop where
  accountId : reference.accountId.length ≤ 64
  mailbox : reference.mailbox.length ≤ 4096
  messageId : ∀ s ∈ message.messageId, s.length ≤ 998
  subject : ∀ s ∈ message.subject, s.length ≤ 998
  fromHeader : ∀ a ∈ (parserAddresses message.fromHeader).take 100, a.Fits
  toHeader : AddressesFit 50 (parserAddresses message.toHeader)
  ccHeader : AddressesFit 50 (parserAddresses message.ccHeader)
  replyToHeader : ∀ a ∈ (parserAddresses message.replyToHeader).take 100, a.Fits
  bodyText : ∀ s ∈ message.bodyText, min maxBodyChars s.length ≤ 262144
  bodyHtml : ∀ s ∈ message.bodyHtml, min maxBodyChars (libs.clean s).length ≤ 262144
  attachments : ∀ part ∈ message.attachments.take 100,
    (∀ s ∈ part.attachmentName, s.length ≤ 255) ∧ (partMimeType part).length ≤ 127

/-- A list that may have a hundred addresses fits when those that are kept do. -/
theorem bound_hundred {addresses : List MailAddress} :
    AddressesFit 100 (boundAddresses addresses).1 ↔ ∀ a ∈ addresses.take 100, a.Fits := by
  rw [boundAddresses_fit]
  exact and_iff_right (Nat.min_le_left _ _)

/-- A list that may have fifty addresses fits when all of it does. -/
theorem bound_fifty {addresses : List MailAddress} :
    AddressesFit 50 (boundAddresses addresses).1 ↔ AddressesFit 50 addresses := by
  rw [boundAddresses_fit, AddressesFit]
  constructor
  · rintro ⟨hlen, hall⟩
    have hle : addresses.length ≤ 50 := by omega
    rw [List.take_of_length_le (by omega)] at hall
    exact ⟨hle, hall⟩
  · rintro ⟨hle, hall⟩
    rw [List.take_of_length_le (by omega)]
    exact ⟨by omega, hall⟩

theorem attachments_fit {parts : List ParserPart} :
    (((parts.take 100).mapIdx attachmentMetadata).length ≤ 100 ∧
      ∀ a ∈ (parts.take 100).mapIdx attachmentMetadata, a.Fits) ↔
      ∀ part ∈ parts.take 100,
        (∀ s ∈ part.attachmentName, s.length ≤ 255) ∧ (partMimeType part).length ≤ 127 := by
  have hlen : (parts.take 100).length ≤ 100 := by
    rw [List.length_take]
    exact Nat.min_le_left _ _
  rw [List.length_mapIdx]
  refine (and_iff_right hlen).trans ?_
  constructor
  · intro h part hpart
    obtain ⟨i, hi, rfl⟩ := List.mem_iff_getElem.mp hpart
    exact (attachmentMetadata_fits (Nat.lt_of_lt_of_le hi hlen)).mp
      (h _ (List.mem_mapIdx.mpr ⟨i, hi, rfl⟩))
  · intro h a ha
    obtain ⟨i, hi, rfl⟩ := List.mem_mapIdx.mp ha
    exact (attachmentMetadata_fits (Nat.lt_of_lt_of_le hi hlen)).mpr (h _ (List.getElem_mem hi))

/-- **What is read can be the source of a draft exactly when the headers are within the limits.** -/
theorem parseMessage_fits {libs : MessageLibraries} {reference : MessageReference} {raw : Bytes}
    {maxBodyChars : Nat} {message : ParserMessage} {m : MessageContent}
    (hparse : libs.parse raw = some message)
    (hread : parseMessage libs reference raw maxBodyChars = .ok m) :
    m.Fits ↔ Answerable libs reference message maxBodyChars := by
  have hheader : ∀ {value : Option String}, (∀ s ∈ (truncate value 4096).1, s.length ≤ 998) ↔
      ∀ s ∈ value, s.length ≤ 998 := by
    intro value
    rw [truncate_fits]
    refine forall₂_congr fun s _ => ?_
    omega
  have hsubject : (((truncate message.subject 4096).1).getD "").length ≤ 998 ↔
      ∀ s ∈ message.subject, s.length ≤ 998 := by
    rw [← hheader]
    cases (truncate message.subject 4096).1 <;> simp
  have hhtml : (∀ s ∈ (truncate (message.bodyHtml.map libs.clean) maxBodyChars).1, s.length ≤ 262144) ↔
      ∀ s ∈ message.bodyHtml, min maxBodyChars (libs.clean s).length ≤ 262144 := by
    rw [truncate_fits]
    cases message.bodyHtml <;> simp
  simp only [parseMessage, hparse, orRefuse, bind_ok, Except.ok.injEq, exists_eq_left', pure_ok] at hread
  subst hread
  constructor
  · intro h
    exact ⟨h.accountId, h.mailbox, hheader.mp h.messageId, hsubject.mp h.subject,
      bound_hundred.mp h.fromAddrs, bound_fifty.mp h.toAddrs, bound_fifty.mp h.cc,
      bound_hundred.mp h.replyTo, truncate_fits.mp h.text, hhtml.mp h.sanitizedHtml,
      attachments_fit.mp h.attachments⟩
  · intro h
    exact ⟨h.accountId, h.mailbox, hheader.mpr h.messageId, hsubject.mpr h.subject,
      bound_hundred.mpr h.fromHeader, bound_fifty.mpr h.toHeader, bound_fifty.mpr h.ccHeader,
      bound_hundred.mpr h.replyToHeader, truncate_fits.mpr h.bodyText, hhtml.mpr h.bodyHtml,
      attachments_fit.mpr h.attachments⟩

/-- A draft input that answers a message and names nobody. -/
structure DraftInput.Answers (input : DraftInput) (m : MessageContent) : Prop where
  source : input.source = some m
  mode : input.mode ≠ .new
  accountId : validAccountId input.accountId
  toAddrs : input.toAddrs = []
  cc : input.cc = []
  bcc : input.bcc = []
  attachments : input.attachments = []

/-- **An answer is read back exactly within the limits of the pass.** -/
theorem parse_answer_iff {env : External} {timeText : DateTime → String}
    (htime : ∀ t, (timeText t).length ≤ 64) {serde : Deserializer DraftInput}
    (hnames : ReadsNames serde.fieldName) {input : DraftInput} {m : MessageContent}
    (hinput : input.Answers m)
    (hserde : serde.deserialize (encodeUtf8 (input.json timeText).chars) = some (input, []))
    (hsize : (encodeUtf8 (input.json timeText).chars).length ≤ 25165824) :
    parseBoundedJson (DraftInput.input env) serde (encodeUtf8 (input.json timeText).chars) = .ok input ↔
      m.Fits ∧ input.OwnFits := by
  have haccount : input.accountId.length ≤ 64 := by
    have hvalid := hinput.accountId
    have hlen := length_le_utf8ByteSize input.accountId
    simp only [validAccountId, Bool.and_eq_true, decide_eq_true_eq] at hvalid
    omega
  have hvalid : validateDraftInput env input = .ok () := by
    simp only [validateDraftInput, bind_ok, ensure_ok, hinput.accountId, hinput.toAddrs, hinput.cc,
      hinput.bcc, hinput.attachments, List.length_nil, validateDraftAttachments]
    exact ⟨(), trivial, (), by omega, (), by omega, rfl⟩
  have hreview := @review_answer serde.fieldName hnames timeText htime input m hinput.source
    hinput.toAddrs hinput.cc hinput.bcc hinput.attachments
  have hpass : parseBoundedJson (DraftInput.input env) serde (encodeUtf8 (input.json timeText).chars) =
      .ok input ↔ lexicalPreflight serde.fieldName .draft (encodeUtf8 (input.json timeText).chars) =
        .ok () := by
    simp only [parseBoundedJson, bind_ok, ensure_ok, orRefuse_ok, pure_ok, hserde]
    constructor
    · rintro ⟨_, _, _, hpreflight, _⟩
      exact hpreflight
    · intro hpreflight
      exact ⟨(), hsize, (), hpreflight, _, rfl, (), rfl, (), hvalid, rfl⟩
  rw [hpass, lexicalPreflight_chars, hreview]
  exact and_iff_right haccount

/-- **A message that can be read can be answered exactly when** its references, its headers and its
    bodies are within the limits of the pass, and so is what the answer says. -/
theorem answer_read_back_iff (env : External) (libs : MessageLibraries) (timeText : DateTime → String)
    (htime : ∀ t, (timeText t).length ≤ 64) (serde : Deserializer DraftInput)
    (hnames : ReadsNames serde.fieldName) (reference : MessageReference) (raw : Bytes)
    (maxBodyChars : Nat) (message : ParserMessage) (hparse : libs.parse raw = some message)
    (m : MessageContent) (hread : parseMessage libs reference raw maxBodyChars = .ok m)
    (input : DraftInput) (hinput : input.Answers m)
    (hserde : serde.deserialize (encodeUtf8 (input.json timeText).chars) = some (input, []))
    (hsize : (encodeUtf8 (input.json timeText).chars).length ≤ 25165824) :
    parseBoundedJson (DraftInput.input env) serde (encodeUtf8 (input.json timeText).chars) = .ok input ↔
      Answerable libs reference message maxBodyChars ∧ input.OwnFits := by
  rw [parse_answer_iff htime hnames hinput hserde hsize, parseMessage_fits hparse hread]

namespace AnswerSample

/-- A short message to so many recipients. -/
def message (recipients : Nat) : ParserMessage where
  bodyText := some "Hi"
  bodyHtml := none
  attachmentCount := 0
  attachments := []
  subject := some "Hi"
  fromHeader := some (.list [⟨none, some "ann@a.org"⟩])
  toHeader := some (.list (List.replicate recipients ⟨none, some "b@c.d"⟩))
  ccHeader := none
  replyToHeader := none
  messageId := some "1@a.org"
  date := none

def libs (recipients : Nat) : MessageLibraries where
  parse _ := some (message recipients)
  clean html := html
  fromTimestamp := some

def reference : MessageReference := ⟨"me", "INBOX", some 1, 1⟩

/-- The message as it is read, when its recipients are kept. -/
def content (recipients : Nat) : MessageContent where
  reference := reference
  messageId := some "1@a.org"
  subject := "Hi"
  fromAddrs := [⟨none, "ann@a.org"⟩]
  toAddrs := List.replicate recipients ⟨none, "b@c.d"⟩
  cc := []
  replyTo := []
  sentAt := none
  text := some "Hi"
  sanitizedHtml := none
  attachments := []
  untrusted := true
  truncated := false

def reply (recipients : Nat) : DraftInput where
  accountId := "me"
  mode := .reply
  source := some (content recipients)
  toAddrs := []
  cc := []
  bcc := []
  subject := none
  text := none
  html := none
  attachments := []

/-- The message has no time, so the text of a time does not matter. -/
def timeText : DateTime → String := fun _ => ""

theorem timeText_short (t : DateTime) : (timeText t).length ≤ 64 := Nat.zero_le 64

/-- What is read of the JSON of one draft input. -/
def serde (input : DraftInput) : Deserializer DraftInput where
  deserialize bytes :=
    if bytes = encodeUtf8 (input.json timeText).chars then some (input, []) else none
  fieldName := betweenQuotes

theorem serde_reads (input : DraftInput) :
    (serde input).deserialize (encodeUtf8 (input.json timeText).chars) = some (input, []) :=
  if_pos rfl

theorem answers (recipients : Nat) : (reply recipients).Answers (content recipients) :=
  ⟨rfl, (fun h => nomatch h), (by decide : validAccountId "me"), rfl, rfl, rfl, rfl⟩

theorem read_one : parseMessage (libs 1) reference [] 100 = .ok (content 1) := by decide

theorem read_many : parseMessage (libs 51) reference [] 100 = .ok (content 51) := by decide

set_option maxRecDepth 20000 in
theorem size_one : (encodeUtf8 ((reply 1).json timeText).chars).length ≤ 25165824 := by decide

set_option maxRecDepth 100000 in
theorem size_many : (encodeUtf8 ((reply 51).json timeText).chars).length ≤ 25165824 := by decide

end AnswerSample

open AnswerSample in
/-- A reply to a message with one recipient is read back. -/
theorem answer_read_back_iff_sample :
    parseBoundedJson (DraftInput.input ReplySample.env) (serde (reply 1))
        (encodeUtf8 ((reply 1).json timeText).chars) = .ok (reply 1) ↔
      Answerable (libs 1) reference (message 1) 100 ∧ (reply 1).OwnFits :=
  answer_read_back_iff ReplySample.env (libs 1) timeText timeText_short (serde (reply 1))
    readsNames_betweenQuotes reference [] 100 (message 1) rfl (content 1) read_one (reply 1) (answers 1)
    (serde_reads (reply 1)) size_one

open AnswerSample in
/-- **A message to fifty-one recipients can be read, and no reply to it is read back.** -/
theorem many_recipients_unanswerable :
    parseMessage (libs 51) reference [] 100 = .ok (content 51) ∧
      (reply 51).Answers (content 51) ∧
      (serde (reply 51)).deserialize (encodeUtf8 ((reply 51).json timeText).chars) =
        some (reply 51, []) ∧
      (encodeUtf8 ((reply 51).json timeText).chars).length ≤ 25165824 ∧
      ¬parseBoundedJson (DraftInput.input ReplySample.env) (serde (reply 51))
        (encodeUtf8 ((reply 51).json timeText).chars) = .ok (reply 51) := by
  have hiff := @parse_answer_iff ReplySample.env timeText timeText_short (serde (reply 51))
    readsNames_betweenQuotes (reply 51) (content 51) (answers 51) (serde_reads (reply 51)) size_many
  have hmany : ¬(content 51).Fits := by
    intro hfits
    have := hfits.toAddrs.1
    simp [content] at this
  have hread := read_many
  have hanswers := answers 51
  have hserde := serde_reads (reply 51)
  have hsize := size_many
  generalize reply 51 = input at *
  generalize content 51 = m at *
  exact ⟨hread, hanswers, hserde, hsize, fun h => hmany (hiff.mp h).1⟩

end Kirje
