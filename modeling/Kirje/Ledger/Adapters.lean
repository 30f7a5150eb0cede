import Kirje.Base.Program
import Kirje.Ledger.Outbox

/-
  File:      Kirje/Ledger/Adapters.lean
  Subject:   The two remote adapters as programs over the commands they send:
             `PimalayaImapReader::apply` (crates/kirje-protocol/src/imap.rs) and
             `LettreSmtpSender::send` (smtp.rs).

  Every error of an adapter says whether a mutating command may have reached the
  server.  `imapApply_certain` and `smtpSend_certain` prove the verdict on every
  reply sequence: an error marked "before" means no mutating command was issued,
  and `ok` means each one issued was answered `ok`.
-/

namespace Kirje

open Base

/-! ## 1. Commands and replies -/

inductive ImapFlag where
  | seen | flagged | deleted
  deriving DecidableEq, Repr

inductive Capability where
  | move | other (name : String)
  deriving DecidableEq, Repr

/-- The part of a MIME message that precedes its attachments. -/
inductive MessageBody where
  | alternative (text html : String) | plain (text : String) | html (html : String)
  deriving DecidableEq, Repr

structure MessagePart where
  filename : String
  bytes : List UInt8
  contentType : String
  deriving DecidableEq, Repr

structure Message where
  sender : String
  toAddrs : List MailAddress
  cc : List MailAddress
  bcc : List MailAddress
  subject : String
  messageId : String
  body : MessageBody
  attachments : List MessagePart
  deriving DecidableEq, Repr

/-- The client errors `classify_error` tells apart. -/
inductive ImapClientError where
  | authentication | tls | transport | other
  deriving DecidableEq, Repr

structure SmtpError where
  isTls : Bool
  status : Option String
  isTransient : Bool
  isTimeout : Bool
  isPermanent : Bool
  deriving DecidableEq, Repr

structure SmtpResponse where
  isPositive : Bool
  code : String
  firstLine : Option String
  deriving DecidableEq, Repr

/-- What an adapter asks of a server.  `connect` covers TLS, session opening and
    authentication. -/
inductive RemoteCommand where
  | connect (account : MailAccountConfig) (secret : String)
  | select (mailbox : String)
  | uidStore (uid : Nat) (add : Bool) (flag : ImapFlag)
  | uidMove (uid : Nat) (destination : String)
  | uidCopy (uid : Nat) (destination : String)
  | smtpSend (host : String) (port : Nat) (message : Message)
  deriving DecidableEq, Repr

/-- The reply to a command, or the client's error. -/
def RemoteCommand.Reply : RemoteCommand → Type
  | .connect .. => Except ImapClientError (List Capability)
  | .select .. => Except ImapClientError (Option Nat)
  | .uidStore .. | .uidMove .. | .uidCopy .. => Except ImapClientError Unit
  | .smtpSend .. => Except SmtpError SmtpResponse

/-- UID STORE, MOVE, COPY and the SMTP transport's send change the remote side. -/
def RemoteCommand.mutating : RemoteCommand → Bool
  | .connect .. | .select .. => false
  | .uidStore .. | .uidMove .. | .uidCopy .. | .smtpSend .. => true

/-- Whether the command returned `Ok`. -/
def RemoteCommand.answeredOk : (c : RemoteCommand) → c.Reply → Bool
  | .connect .., r => r.isOk
  | .select .., r => r.isOk
  | .uidStore .., r => r.isOk
  | .uidMove .., r => r.isOk
  | .uidCopy .., r => r.isOk
  | .smtpSend .., r => r.isOk

abbrev Remote := Program RemoteCommand RemoteCommand.Reply

/-! ## 2. Errors -/

/-- `RemoteAttemptError`. -/
structure RemoteAttemptError where
  error : MailError
  mutationStarted : Bool
  deriving DecidableEq, Repr

def RemoteAttemptError.beforeMutation (error : MailError) : RemoteAttemptError := ⟨error, false⟩

def RemoteAttemptError.afterMutation (error : MailError) : RemoteAttemptError := ⟨error, true⟩

/-- `SendAttemptError`. -/
structure SendAttemptError where
  error : MailError
  deliveryStarted : Bool
  deriving DecidableEq, Repr

def SendAttemptError.beforeDelivery (error : MailError) : SendAttemptError := ⟨error, false⟩

def SendAttemptError.afterDeliveryStarted (error : MailError) : SendAttemptError := ⟨error, true⟩

/-- `classify_error`. -/
def classifyError : ImapClientError → MailError
  | .authentication => .new .authentication "IMAP authentication failed" false
  | .tls => .new .tls "IMAP TLS negotiation failed" false
  | .transport => .new .network "IMAP network connection failed" true
  | .other =>
      .new .protocol "IMAP server returned an unsupported or invalid response" false

/-- `map_smtp_error`. -/
def mapSmtpError (error : SmtpError) : MailError :=
  if error.isTls then .new .tls "SMTP TLS negotiation failed" false
  else if error.status.any (fun s => s.toList.take 2 = ['5', '3']) then
    .new .authentication "SMTP authentication failed" false
  else if error.isTransient || error.isTimeout then
    .new .network "SMTP delivery failed transiently" true
  else if error.isPermanent then .new .protocol "SMTP server rejected the message" false
  else .new .network "SMTP delivery failed" true

/-- Go on with the value of a local step, or end the attempt with its error. -/
def attempt {α β ε ε' : Type} (wrap : ε → ε') (r : Except ε α) (k : α → Remote (Except ε' β)) :
    Remote (Except ε' β) :=
  match r with
  | .ok a => k a
  | .error e => .done (.error (wrap e))

/-- The parsers and builders the adapters take from the mail libraries. -/
structure MailLibraries where
  parseIpv6 : String → Bool
  parseUrl : String → Bool
  clientId : Result Unit
  parseMailbox : String → Bool
  sequenceSet : Nat → Bool
  parseAddress : String → Bool
  contentType : String → Bool
  assemble : Message → Bool
  relay : TransportSecurity → String → Except SmtpError Unit

variable (env : External) (libs : MailLibraries)

/-! ## 3. IMAP -/

/-- `ensure_account_scope`. -/
def ensureAccountScope (account : MailAccountConfig) (requested : String) : Result Unit :=
  ensure (account.id = requested) (.invalid "request account does not match the selected account")

/-- `ensure_uid_validity`. -/
def ensureUidValidity (expected actual : Option Nat) : Result Unit :=
  ensure (expected.isNone ∨ expected = actual)
    (.new .messageNotFound "message reference expired because mailbox UIDVALIDITY changed" false)

/-- `parse_mailbox`. -/
def parseMailbox (name : String) : Result String := do
  ensure (libs.parseMailbox name) (.invalid "invalid IMAP mailbox name")
  pure name

/-- `is_coremail_host`, on the lowered host. -/
def isCoremailHost (host : String) : Bool :=
  host ∈ ["imap.163.com", "imap.126.com", "imap.yeah.net"]

/-- The local part of `connect`: the endpoint's URL and the session options. -/
def connectOptions (account : MailAccountConfig) : Result Unit := do
  let scheme ← match account.incoming.security with
    | .implicitTls => pure "imaps"
    | .startTls => pure "imap"
    | .https => .error (.invalid "IMAP transport must use implicit TLS or STARTTLS")
  let host := if libs.parseIpv6 account.incoming.host then "[" ++ account.incoming.host ++ "]"
    else account.incoming.host
  ensure (libs.parseUrl (scheme ++ "://" ++ host ++ ":" ++ toString account.incoming.port))
    (.invalid "IMAP endpoint is not a valid URL authority")
  let host := toAsciiLowercase account.incoming.host
  if isCoremailHost host || host ∈ ["imap.qq.com", "imap.fastmail.com"] then libs.clientId
  else pure ()

/-- The mutation itself, on the selected mailbox; the value says whether anything changed. -/
def imapMutate (capabilities : List Capability) (operation : MailboxOperationRequest) :
    Remote (Except RemoteAttemptError Bool) :=
  let uid := operation.reference.uid
  match operation.kind with
  | .setRead | .setStarred =>
      let flag := if operation.kind = .setRead then ImapFlag.seen else .flagged
      let add := operation.value == some true
      .issue (.uidStore uid add flag) fun reply =>
      attempt (.afterMutation ∘ classifyError) reply fun _ =>
      .done (.ok true)
  | .move | .archive | .delete =>
      attempt .beforeMutation (orRefuse operation.destination
        (.invalid "remote mailbox operation requires a resolved destination")) fun destination =>
      if destination = operation.reference.mailbox then .done (.ok false)
      else if Capability.move ∈ capabilities then
        attempt .beforeMutation (parseMailbox libs destination) fun mailbox =>
        .issue (.uidMove uid mailbox) fun reply =>
        attempt (.afterMutation ∘ classifyError) reply fun _ =>
        .done (.ok true)
      else
        attempt .beforeMutation (parseMailbox libs destination) fun mailbox =>
        .issue (.uidCopy uid mailbox) fun reply =>
        attempt (.afterMutation ∘ classifyError) reply fun _ =>
        .issue (.uidStore uid true .deleted) fun reply =>
        attempt (.afterMutation ∘ classifyError) reply fun _ =>
        .done (.ok true)

/-- `PimalayaImapReader::apply`; `appliedAt` is the clock at its end. -/
def imapApply (account : MailAccountConfig) (secret operationId : String)
    (operation : MailboxOperationRequest) (appliedAt : DateTime) :
    Remote (Except RemoteAttemptError MailboxOperationReceipt) :=
  attempt .beforeMutation operation.validate fun _ =>
  attempt .beforeMutation (account.validate env) fun _ =>
  attempt .beforeMutation (ensureAccountScope account operation.accountId) fun _ =>
  attempt .beforeMutation (connectOptions libs account) fun _ =>
  .issue (.connect account secret) fun reply =>
  attempt (.beforeMutation ∘ classifyError) reply fun capabilities =>
  attempt .beforeMutation (parseMailbox libs operation.reference.mailbox) fun mailbox =>
  .issue (.select mailbox) fun reply =>
  attempt (.beforeMutation ∘ classifyError) reply fun selected =>
  attempt .beforeMutation (ensureUidValidity operation.reference.uidValidity selected) fun _ =>
  attempt .beforeMutation
    (ensure (operation.reference.uid ≠ 0) (.invalid "message UID must be positive")) fun _ =>
  attempt .beforeMutation
    (ensure (libs.sequenceSet operation.reference.uid) (.invalid "invalid message UID")) fun _ =>
  (imapMutate libs capabilities operation).bind fun changed =>
  attempt id changed fun changed =>
  .done (.ok {
    operationId := operationId
    kind := operation.kind
    accountId := operation.accountId
    reference := operation.reference
    destination := operation.destination
    changed := changed
    appliedAt := appliedAt
    untrusted := true })

/-! ## 4. SMTP -/

/-- `parse_address`. -/
def parseAddress (value : String) : Result Unit :=
  ensure (libs.parseAddress value) (.invalid "email address cannot be encoded for SMTP")

/-- The text and HTML part of a message. -/
def messageBody : Option String → Option String → Result MessageBody
  | some text, some html => pure (.alternative text html)
  | some text, none => pure (.plain text)
  | none, some html => pure (.html html)
  | none, none => .error (.invalid "send request requires a non-empty text or HTML body")

/-- `build_message`. -/
def buildMessage (account : MailAccountConfig) (plan : SendPlan) : Result Message := do
  parseAddress libs account.email
  checkAll (fun a => parseAddress libs a.email)
    (plan.request.toAddrs ++ plan.request.cc ++ plan.request.bcc)
  let body ← messageBody plan.request.text plan.request.html
  let attachments ← plan.request.attachments.mapM fun attachment => do
    let bytes ← attachment.validate env
    ensure (libs.contentType attachment.mimeType) (.invalid "attachment MIME type is invalid")
    pure (MessagePart.mk attachment.filename bytes attachment.mimeType)
  let message : Message := {
    sender := account.email
    toAddrs := plan.request.toAddrs
    cc := plan.request.cc
    bcc := plan.request.bcc
    subject := plan.request.subject
    messageId := plan.messageId
    body := body
    attachments := attachments }
  ensure (libs.assemble message) (.invalid "cannot construct MIME message")
  pure message

/-- `sanitize_response`. -/
def sanitizeResponse (value : String) : String :=
  String.ofList ((value.toList.map fun c => if isControl c then ' ' else c).take 256)

/-- `LettreSmtpSender::send`; `sentAt` is the clock at its end. -/
def smtpSend (account : MailAccountConfig) (plan : SendPlan) (sentAt : DateTime) :
    Remote (Except SendAttemptError SendReceipt) :=
  attempt .beforeDelivery (account.validate env) fun _ =>
  attempt .beforeDelivery (plan.request.validate env) fun _ =>
  attempt .beforeDelivery (ensure (plan.request.accountId = account.id)
    (.invalid "send plan account does not match the selected account")) fun _ =>
  attempt .beforeDelivery
    (orRefuse account.outgoing (.invalid "account has no SMTP endpoint")) fun endpoint =>
  attempt .beforeDelivery
    (ensure (endpoint.protocol = .smtp) (.invalid "outgoing endpoint must use SMTP")) fun _ =>
  attempt .beforeDelivery (buildMessage env libs account plan) fun message =>
  attempt .beforeDelivery (ensure (endpoint.security ≠ .https)
    (.invalid "SMTP transport must use implicit TLS or STARTTLS")) fun _ =>
  attempt (.beforeDelivery ∘ mapSmtpError) (libs.relay endpoint.security endpoint.host) fun _ =>
  .issue (.smtpSend endpoint.host endpoint.port message) fun reply =>
  attempt (.afterDeliveryStarted ∘ mapSmtpError) reply fun response =>
  .done (.ok {
    accepted := response.isPositive
    serverResponse := some (sanitizeResponse
      (response.code ++ " " ++ response.firstLine.getD "accepted"))
    sentAt := sentAt })

/-! ## 5. The verdict of an attempt -/

/-- What happened on the wire so far: a mutating command was issued; one was not answered `ok`. -/
structure Wire where
  issued : Bool
  refused : Bool
  deriving DecidableEq, Repr

def Wire.quiet : Wire := ⟨false, false⟩

/-- The wire after a command and its reply. -/
def Wire.see (w : Wire) (c : RemoteCommand) (r : c.Reply) : Wire :=
  ⟨w.issued || c.mutating, w.refused || (c.mutating && !c.answeredOk r)⟩

/-- The verdict of an attempt agrees with the wire. -/
def Certain {ε α : Type} (started : ε → Bool) (w : Wire) : Except ε α → Prop
  | .ok _ => w.refused = false
  | .error e => started e = false → w.issued = false

variable {α β ε ε' : Type}

/-- A local step keeps the wire: both ways out have to be judged on it. -/
theorem post_attempt {post : Wire → Except ε' β → Prop} {wrap : ε → ε'} {r : Except ε α}
    {k : α → Remote (Except ε' β)} {w : Wire} (he : ∀ e, r = .error e → post w (.error (wrap e)))
    (hk : ∀ a, r = .ok a → (k a).Post Wire.see post w) :
    (attempt wrap r k).Post Wire.see post w := by
  cases r with
  | ok a => exact hk a rfl
  | error e => exact he e rfl

/-- Before the first mutating command every refusal is certain. -/
theorem post_attempt_before {wrap : ε → ε'} {started : ε' → Bool} {r : Except ε α}
    {k : α → Remote (Except ε' β)} {w : Wire} (hw : w.issued = false)
    (hk : ∀ a, (k a).Post Wire.see (Certain started) w) :
    (attempt wrap r k).Post Wire.see (Certain started) w :=
  post_attempt (fun _ _ _ => hw) fun a _ => hk a

/-- From a mutating command on, every refusal is marked as started. -/
theorem post_attempt_after {wrap : ε → ε'} {started : ε' → Bool} {r : Except ε α}
    {k : α → Remote (Except ε' β)} {w : Wire} (hs : ∀ e, started (wrap e) = true)
    (hk : ∀ a, r = .ok a → (k a).Post Wire.see (Certain started) w) :
    (attempt wrap r k).Post Wire.see (Certain started) w :=
  post_attempt (fun e _ h => by rw [hs e] at h; cases h) hk

/-- **The IMAP mutation step classifies every reply sequence.** -/
theorem imapMutate_certain (capabilities : List Capability) (operation : MailboxOperationRequest) :
    (imapMutate libs capabilities operation).Post Wire.see
      (Certain RemoteAttemptError.mutationStarted) .quiet := by
  have store : ∀ uid add flag (w : Wire), w.refused = false →
      Program.Post Wire.see (Certain RemoteAttemptError.mutationStarted)
        (.issue (.uidStore uid add flag) fun reply =>
          attempt (.afterMutation ∘ classifyError) reply fun _ => .done (.ok true)) w := by
    intro uid add flag w hw reply
    refine post_attempt_after (fun _ => rfl) fun a ha => ?_
    subst ha
    simpa [Certain, Wire.see, RemoteCommand.answeredOk, Except.isOk, Except.toBool] using hw
  unfold imapMutate
  cases operation.kind with
  | setRead => exact store _ _ _ _ rfl
  | setStarred => exact store _ _ _ _ rfl
  | move | archive | delete =>
      refine post_attempt_before rfl fun destination => ?_
      split
      · exact rfl
      · split
        · refine post_attempt_before rfl fun mailbox reply => ?_
          refine post_attempt_after (fun _ => rfl) fun a ha => ?_
          subst ha
          rfl
        · refine post_attempt_before rfl fun mailbox reply => ?_
          refine post_attempt_after (fun _ => rfl) fun a ha => ?_
          -- the copy was answered `ok`, so only the store that follows can be refused
          exact store _ _ _ _ (by subst ha; rfl)

/-- **`apply` marks an error as started exactly on the safe side**: unmarked errors come before
    any mutating command, and `ok` only after every one was answered `ok`. -/
theorem imapApply_certain (account : MailAccountConfig) (secret operationId : String)
    (operation : MailboxOperationRequest) (appliedAt : DateTime) :
    (imapApply env libs account secret operationId operation appliedAt).Post Wire.see
      (Certain RemoteAttemptError.mutationStarted) .quiet := by
  unfold imapApply
  iterate 4 refine post_attempt_before rfl fun _ => ?_
  refine fun reply => post_attempt_before rfl fun capabilities => ?_
  refine post_attempt_before rfl fun mailbox => ?_
  refine fun reply => post_attempt_before rfl fun selected => ?_
  iterate 3 refine post_attempt_before rfl fun _ => ?_
  refine Program.post_bind.mpr ?_
  refine Program.Post.mono (fun w result h => ?_) (imapMutate_certain libs capabilities operation)
  exact post_attempt (fun e he => by subst he; exact h) fun a ha => by subst ha; exact h

/-- **`send` is certain in the same sense.** -/
theorem smtpSend_certain (account : MailAccountConfig) (plan : SendPlan) (sentAt : DateTime) :
    (smtpSend env libs account plan sentAt).Post Wire.see
      (Certain SendAttemptError.deliveryStarted) .quiet := by
  unfold smtpSend
  iterate 8 refine post_attempt_before rfl fun _ => ?_
  refine fun reply => post_attempt_after (fun _ => rfl) fun response h => ?_
  subst h
  rfl

end Kirje
