import Mathlib.Data.List.Basic
import Mathlib.Tactic.NormNum
import Mathlib.Tactic.Ring
import Kirje.Base.Table
import Kirje.Core.Error

/-
  File:      Kirje/Core/Mail.lean
  Subject:   Accounts, send requests and mailbox operations with their checks
             (crates/kirje-core/src/mail.rs, send.rs, operation.rs, lib.rs).

  Text checks follow the source: `len` counts UTF-8 bytes, `chars().count()`
  counts scalars, `trim` and `is_whitespace` use Unicode White_Space, `is_control`
  is the category Cc.  `External` collects what the code takes from other crates.
-/

namespace Kirje

open Base

/-- An instant in nanoseconds since the Unix epoch (`DateTime<Utc>`). -/
abbrev DateTime := Int

def DateTime.hours (n : Int) : Int := n * 3600 * 1000000000

def DateTime.minutes (n : Int) : Int := n * 60 * 1000000000

/-! ## 1. Text -/

/-- `char::is_control`: the category Cc. -/
def isControl (c : Char) : Bool :=
  c.toNat < 0x20 || (0x7f ≤ c.toNat && c.toNat ≤ 0x9f)

/-- `char::is_whitespace`: the property White_Space. -/
def isWhitespace (c : Char) : Bool :=
  (0x9 ≤ c.toNat && c.toNat ≤ 0xd) || c.toNat == 0x20 || c.toNat == 0x85 || c.toNat == 0xa0 ||
    c.toNat == 0x1680 || (0x2000 ≤ c.toNat && c.toNat ≤ 0x200a) || c.toNat == 0x2028 ||
    c.toNat == 0x2029 || c.toNat == 0x202f || c.toNat == 0x205f || c.toNat == 0x3000

/-- `s.trim().is_empty()`. -/
def blank (s : String) : Bool := s.toList.all isWhitespace

/-- `s.chars().any(char::is_control)`. -/
def hasControl (s : String) : Bool := s.toList.any isControl

/-- `rsplit_once` at the last occurrence of `sep`. -/
def rsplitOnce (sep : Char) (s : List Char) : Option (List Char × List Char) :=
  if sep ∈ s then
    let tail := (s.reverse.takeWhile (· ≠ sep)).reverse
    some (s.take (s.length - tail.length - 1), tail)
  else none

/-- `to_ascii_lowercase`. -/
def toAsciiLowercase (s : String) : String := String.ofList (s.toList.map Char.toLower)

/-- One to 64 ASCII letters, digits, `-` or `_`. -/
def validAccountId (s : String) : Bool :=
  !s.isEmpty && s.utf8ByteSize ≤ 64 &&
    s.toList.all fun c => c.isAlphanum || c == '-' || c == '_'

/-! ## 2. Data -/

inductive Protocol where
  | imap | smtp | jmap
  deriving DecidableEq, Repr

inductive TransportSecurity where
  | implicitTls | startTls | https
  deriving DecidableEq, Repr

inductive CredentialKind where
  | appPassword | oauth2 | password
  deriving DecidableEq, Repr

structure Endpoint where
  protocol : Protocol
  host : String
  port : Nat
  security : TransportSecurity
  deriving DecidableEq, Repr

structure MailAccountConfig where
  id : String
  email : String
  username : String
  incoming : Endpoint
  outgoing : Option Endpoint
  credentialKind : CredentialKind
  deriving DecidableEq, Repr

structure MailAddress where
  name : Option String
  email : String
  deriving DecidableEq, Repr

structure SendAttachment where
  filename : String
  mimeType : String
  contentBase64 : String
  deriving DecidableEq, Repr

structure SendRequest where
  accountId : String
  toAddrs : List MailAddress
  cc : List MailAddress
  bcc : List MailAddress
  subject : String
  text : Option String
  html : Option String
  attachments : List SendAttachment
  deriving DecidableEq, Repr

structure AttachmentSummary where
  filename : String
  mimeType : String
  size : Nat
  sha256 : String
  textPreview : Option String
  untrusted : Bool
  deriving DecidableEq, Repr

structure MessageReference where
  accountId : String
  mailbox : String
  uidValidity : Option Nat
  uid : Nat
  deriving DecidableEq, Repr

inductive MailOperationKind where
  | setRead | setStarred | move | archive | delete
  deriving DecidableEq, Repr

structure MailboxOperationRequest where
  accountId : String
  kind : MailOperationKind
  reference : MessageReference
  value : Option Bool
  destination : Option String
  deriving DecidableEq, Repr

structure MailboxOperationReceipt where
  operationId : String
  kind : MailOperationKind
  accountId : String
  reference : MessageReference
  destination : Option String
  changed : Bool
  appliedAt : DateTime
  untrusted : Bool
  deriving DecidableEq, Repr

structure SendReceipt where
  accepted : Bool
  serverResponse : Option String
  sentAt : DateTime
  deriving DecidableEq, Repr

/-! ## 3. What comes from other crates -/

/-- A `serde` text encoding of one type. -/
structure Json (α : Type) where
  encode : α → Option String
  decode : String → Option α

/-- The encoding reads back what it wrote. -/
def Json.Faithful {α : Type} (j : Json α) : Prop :=
  ∀ a s, j.encode a = some s → j.decode s = some a

/-- An encoding of finitely many values, by their texts. -/
def Json.ofTable {α : Type} [DecidableEq α] (table : List (α × String)) : Json α where
  encode a := (table.find? (·.1 = a)).map (·.2)
  decode s := (table.find? (·.2 = s)).map (·.1)

theorem Json.ofTable_faithful {α : Type} [DecidableEq α] {table : List (α × String)}
    (h : (table.map (·.2)).Nodup) : (Json.ofTable table).Faithful := by
  intro a s ha
  simp only [Json.ofTable, Option.map_eq_some_iff] at ha ⊢
  obtain ⟨x, hx, rfl⟩ := ha
  have hxa : x.1 = a := by simpa using List.find?_some hx
  exact ⟨x, (find_key_iff h).mpr ⟨List.mem_of_find?_eq_some hx, rfl⟩, hxa⟩

/-- The functions the core and the ledger take from other crates: digests (`sha2`), times
    (`chrono`), identifiers (`uuid`), encodings (`serde_json`, `base64`) and address parsing.
    Nothing is assumed of them here. -/
structure External where
  payloadDigest : String → String
  bytesDigest : List UInt8 → String
  timestamp : DateTime → String
  parseTimestamp : String → Option DateTime
  parseUuid : String → Bool
  sendRequest : Json SendRequest
  mailOperation : Json MailboxOperationRequest
  mailError : Json MailError
  sendReceipt : Json SendReceipt
  mailReceipt : Json MailboxOperationReceipt
  base64 : String → Option (List UInt8)
  utf8 : List UInt8 → Option String
  parseIpAddr : String → Bool

variable (env : External)

/-! ## 4. Checks -/

/-- The codes of letters and digits. -/
theorem isAlphanum_toNat {c : Char} (h : c.isAlphanum = true) :
    (48 ≤ c.toNat ∧ c.toNat ≤ 57) ∨ (65 ≤ c.toNat ∧ c.toNat ≤ 90) ∨
      (97 ≤ c.toNat ∧ c.toNat ≤ 122) := by
  have hdef : c.isAlphanum = ((decide ('A'.val ≤ c.val ∧ c.val ≤ 'Z'.val) ||
      (decide ('a'.val ≤ c.val) && decide (c.val ≤ 'z'.val))) ||
      (decide ('0'.val ≤ c.val) && decide (c.val ≤ '9'.val))) := rfl
  simp only [hdef, Bool.or_eq_true, Bool.and_eq_true, decide_eq_true_eq,
    UInt32.le_iff_toNat_le] at h
  have hv : c.val.toNat = c.toNat := rfl
  have hA : 'A'.val.toNat = 65 ∧ 'Z'.val.toNat = 90 := ⟨rfl, rfl⟩
  have ha : 'a'.val.toNat = 97 ∧ 'z'.val.toNat = 122 := ⟨rfl, rfl⟩
  have h0 : '0'.val.toNat = 48 ∧ '9'.val.toNat = 57 := ⟨rfl, rfl⟩
  omega

/-- `valid_host`. -/
def validHost (host : String) : Bool :=
  if host.isEmpty || host.utf8ByteSize > 253 ||
      host.toList.head?.any isWhitespace || host.toList.getLast?.any isWhitespace then false
  else if env.parseIpAddr host then true
  else (host.toList.splitOn '.').all fun label =>
    !label.isEmpty && label.length ≤ 63 && label.all (fun c => c.isAlphanum || c == '-') &&
      label.head?.any Char.isAlphanum && label.getLast?.any Char.isAlphanum

/-- The common rules of both endpoints of an account. -/
def validSecurity (s : TransportSecurity) : Bool := s == .implicitTls || s == .startTls

/-- `MailAccountConfig::validate`. -/
def MailAccountConfig.validate (a : MailAccountConfig) : Result Unit := do
  ensure (validAccountId a.id)
    (.invalid "account id must use 1-64 ASCII letters, numbers, '-' or '_'")
  let (localPart, domain) ← orRefuse (rsplitOnce '@' a.email.toList)
    (.invalid "email address must contain '@'")
  ensure (¬(localPart.isEmpty || domain.isEmpty || !domain.contains '.' ||
      a.email.utf8ByteSize > 320 || a.email.toList.any isWhitespace || hasControl a.email))
    (.invalid "email address is malformed")
  ensure (¬(blank a.username || a.username.utf8ByteSize > 1024 || hasControl a.username))
    (.invalid "username must contain 1-1024 characters")
  ensure (a.incoming.protocol = .imap) (.invalid "accounts require an IMAP incoming endpoint")
  ensure (validHost env a.incoming.host ∧ a.incoming.port ≠ 0)
    (.invalid "IMAP host must contain 1-253 characters and port must be positive")
  ensure (validSecurity a.incoming.security)
    (.invalid "IMAP transport must use implicit TLS or STARTTLS")
  match a.outgoing with
  | none => pure ()
  | some outgoing => do
      ensure (outgoing.protocol = .smtp) (.invalid "outgoing endpoint must use SMTP")
      ensure (validHost env outgoing.host ∧ outgoing.port ≠ 0)
        (.invalid "SMTP host must contain 1-253 characters and port must be positive")
      ensure (validSecurity outgoing.security)
        (.invalid "SMTP transport must use implicit TLS or STARTTLS")
  ensure (a.credentialKind ≠ .oauth2) (.invalid "OAuth2 is not available in this release")

/-- `valid_mime_type`. -/
def validMimeType (value : String) : Bool :=
  match value.toList.splitOn '/' with
  | [top, sub] => !top.isEmpty && !sub.isEmpty &&
      (top ++ sub).all fun c => c.isAlphanum || c == '+' || c == '-' || c == '.'
  | _ => false

/-- `SendAttachment::validate`: the decoded bytes of a bounded attachment. -/
def SendAttachment.validate (a : SendAttachment) : Result (List UInt8) := do
  ensure (¬(a.filename.isEmpty || a.filename.length > 255 || hasControl a.filename ||
      a.filename.toList.any (fun c => c == '/' || c == '\\') || a.mimeType.isEmpty ||
      a.mimeType.length > 127 || hasControl a.mimeType || !validMimeType a.mimeType))
    (.invalid "attachment metadata is malformed")
  ensure (a.contentBase64.utf8ByteSize ≤ 4 * ((1048576 + 2) / 3))
    (.new .resourceLimit "each attachment cannot exceed 1048576 bytes" false)
  let bytes ← orRefuse (env.base64 a.contentBase64)
    (.invalid "attachment content_base64 must be valid base64")
  ensure (bytes.length ≤ 1048576)
    (.new .resourceLimit "each attachment cannot exceed 1048576 bytes" false)
  pure bytes

/-- `SendAttachment::summary`. -/
def SendAttachment.summary (a : SendAttachment) : Result AttachmentSummary := do
  let bytes ← a.validate env
  pure {
    filename := a.filename
    mimeType := a.mimeType
    size := bytes.length
    sha256 := env.bytesDigest bytes
    textPreview := (env.utf8 bytes).map fun text => String.ofList (text.toList.take 4096)
    untrusted := true }

/-- `validate_address`. -/
def validateAddress (address : MailAddress) : Result Unit := do
  let (localPart, domain) ← orRefuse (rsplitOnce '@' address.email.toList)
    (.invalid "recipient email address is malformed")
  ensure (¬(localPart.isEmpty || domain.isEmpty || localPart.contains '@' ||
      domain.contains '@' || !domain.contains '.' || address.email.utf8ByteSize > 320 ||
      address.email.toList.any isWhitespace || hasControl address.email ||
      address.name.any fun name => name.length > 256 || hasControl name))
    (.invalid "recipient email address is malformed")

/-- The loop over the attachments of a request: each is valid, and the running total is bounded. -/
def validateAttachments : Nat → List SendAttachment → Result Unit
  | _, [] => pure ()
  | total, a :: rest => do
      let bytes ← a.validate env
      ensure (total + bytes.length < 2 ^ 64)
        (.stable .resourceLimit "attachment byte total overflowed")
      ensure (total + bytes.length ≤ 8388608)
        (.stable .resourceLimit "attachments cannot exceed 8388608 bytes in total")
      validateAttachments (total + bytes.length) rest

/-- `SendRequest::validate`. -/
def SendRequest.validate (r : SendRequest) : Result Unit := do
  ensure (validAccountId r.accountId)
    (.invalid "account id must use 1-64 ASCII letters, numbers, '-' or '_'")
  let recipients := r.toAddrs.length + r.cc.length + r.bcc.length
  ensure (recipients ≠ 0) (.invalid "send request requires at least one recipient")
  ensure (recipients ≤ 50)
    (.new .resourceLimit "send request cannot exceed 50 recipients" false)
  checkAll validateAddress (r.toAddrs ++ r.cc ++ r.bcc)
  ensure (r.subject.length ≤ 998 ∧ ¬hasControl r.subject)
    (.invalid "subject must be free of control characters and at most 998 characters")
  ensure (¬(r.text.all String.isEmpty && r.html.all String.isEmpty))
    (.invalid "send request requires a non-empty text or HTML body")
  ensure (¬(r.text.any (·.length > 262144) || r.html.any (·.length > 262144)))
    (.new .resourceLimit "each send body cannot exceed 262144 characters" false)
  ensure (r.attachments.length ≤ 25)
    (.new .resourceLimit "send request cannot exceed 25 attachments" false)
  validateAttachments env 0 r.attachments

/-- `SendRequest::attachment_summaries`. -/
def SendRequest.attachmentSummaries (r : SendRequest) : Result (List AttachmentSummary) :=
  r.attachments.mapM (SendAttachment.summary env)

/-- `MessageReference::validate`. -/
def MessageReference.validate (r : MessageReference) : Result Unit :=
  ensure (¬(blank r.accountId || r.accountId.utf8ByteSize > 64 || blank r.mailbox ||
      r.mailbox.length > 4096 || r.uid == 0))
    (.invalid "message reference requires account, mailbox, and positive UID")

/-- `MailboxOperationRequest::validate`. -/
def MailboxOperationRequest.validate (r : MailboxOperationRequest) : Result Unit := do
  ensure (validAccountId r.accountId) (.invalid "account id must use 1-64 safe characters")
  r.reference.validate
  ensure r.reference.uidValidity.isSome
    (.invalid "remote mailbox operations require UIDVALIDITY")
  ensure (r.reference.accountId = r.accountId)
    (.invalid "operation account does not match message reference")
  match r.kind with
  | .setRead | .setStarred =>
      ensure (r.value.isSome ∧ r.destination.isNone)
        (.invalid "flag operations require value and no destination")
  | .move | .archive | .delete => do
      ensure (¬r.destination.any fun d => blank d || d.length > 4096 || hasControl d)
        (.invalid "destination mailbox is empty or malformed")
      ensure (¬(r.kind = .move ∧ r.destination.isNone))
        (.invalid "move operations require a destination mailbox")

/-- `mail_operation_kind_name`. -/
def mailOperationKindName : MailOperationKind → String
  | .setRead => "set_read"
  | .setStarred => "set_starred"
  | .move => "move"
  | .archive => "archive"
  | .delete => "delete"

end Kirje
