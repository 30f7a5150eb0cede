import Kirje.Core.Mail

/-
  File:      Kirje/Core/Draft.lean
  Subject:   Private drafts and the composition of their requests
             (crates/kirje-core/src/operation.rs), with the messages they
             answer (crates/kirje-core/src/mail.rs).
-/

namespace Kirje

open Base

/-! ## 1. Data -/

inductive DraftMode where
  | new | reply | replyAll | forward
  deriving DecidableEq, Repr

inductive DraftStatus where
  | draft | discarded
  deriving DecidableEq, Repr

structure AttachmentMetadata where
  partId : String
  filename : Option String
  mimeType : String
  size : Nat
  deriving DecidableEq, Repr

structure MessageContent where
  reference : MessageReference
  messageId : Option String
  subject : String
  fromAddrs : List MailAddress
  toAddrs : List MailAddress
  cc : List MailAddress
  replyTo : List MailAddress
  sentAt : Option DateTime
  text : Option String
  sanitizedHtml : Option String
  attachments : List AttachmentMetadata
  untrusted : Bool
  truncated : Bool
  deriving DecidableEq, Repr

structure DraftInput where
  accountId : String
  mode : DraftMode
  source : Option MessageContent
  toAddrs : List MailAddress
  cc : List MailAddress
  bcc : List MailAddress
  subject : Option String
  text : Option String
  html : Option String
  attachments : List SendAttachment
  deriving DecidableEq, Repr

structure Draft where
  id : String
  accountId : String
  mode : DraftMode
  source : Option MessageReference
  request : SendRequest
  attachmentSummaries : List AttachmentSummary
  status : DraftStatus
  createdAt : DateTime
  updatedAt : DateTime
  deriving DecidableEq, Repr

/-! ## 2. Composition -/

/-- `str::trim`. -/
def trim (s : String) : List Char :=
  ((s.toList.dropWhile isWhitespace).reverse.dropWhile isWhitespace).reverse

/-- `same_address`: equal up to ASCII case and surrounding blanks. -/
def sameAddress (address : MailAddress) (accountEmail : String) : Bool :=
  (trim address.email).map Char.toLower == (trim accountEmail).map Char.toLower

/-- The addresses whose lowercase form was not seen before. -/
def unseen : List String → List MailAddress → List MailAddress
  | _, [] => []
  | seen, a :: rest =>
      if toAsciiLowercase a.email ∈ seen then unseen seen rest
      else a :: unseen (toAsciiLowercase a.email :: seen) rest

/-- `reply_all_to`. -/
def replyAllTo (source : MessageContent) (accountEmail : String) : List MailAddress :=
  unseen [] (source.fromAddrs.filter fun a => !sameAddress a accountEmail)

/-- `reply_all_cc`. -/
def replyAllCc (source : MessageContent) (accountEmail : String) : List MailAddress :=
  unseen [] ((source.toAddrs ++ source.cc).filter fun a => !sameAddress a accountEmail)

/-- A line without the carriage return before its line feed. -/
def stripCr (line : List Char) : List Char :=
  if line.getLast? = some '\r' then line.dropLast else line

/-- `str::lines`: a final empty line does not count, and only a line feed takes its carriage
    return along. -/
def textLines (s : String) : List (List Char) :=
  let pieces := s.toList.splitOn '\n'
  let ended := pieces.dropLast.map stripCr
  match pieces.getLast? with
  | none | some [] => ended
  | some last => ended ++ [last]

/-- `quote_source`. -/
def quoteSource (mode : DraftMode) (source : MessageContent) : Option String :=
  let body := source.text.getD ""
  if body.isEmpty && (mode == .reply || mode == .replyAll) then none
  else
    let sender := (source.fromAddrs.head?.map MailAddress.email).getD "unknown sender"
    let header := if mode = .forward then
        "\n\n----- Forwarded message -----\nFrom: " ++ sender ++ "\nSubject: " ++ source.subject ++
          "\n\n"
      else "\n\nOn behalf of " ++ sender ++ ", wrote:\n"
    let quoted := (textLines body).flatMap fun line => ['>', ' '] ++ line ++ ['\n']
    some (header ++ String.ofList quoted)

/-- The subject of a draft that names none. -/
def defaultSubject (mode : DraftMode) (source : MessageContent) : String :=
  let head := if mode = .forward then "Fwd: " else "Re: "
  if (toAsciiLowercase head).toList.isPrefixOf (toAsciiLowercase source.subject).toList then
    source.subject
  else head ++ source.subject

/-- The recipients of a draft that names none. -/
def defaultTo (mode : DraftMode) (source : MessageContent) (accountEmail : String) :
    List MailAddress :=
  match mode with
  | .reply => (source.replyTo.head?.or source.fromAddrs.head?).toList
  | .replyAll => replyAllTo source accountEmail
  | .forward | .new => []

/-- The recipients of a draft. -/
def composeTo (input : DraftInput) (accountEmail : String) : List MailAddress :=
  match input.toAddrs, input.source with
  | [], some source => defaultTo input.mode source accountEmail
  | addrs, _ => addrs

/-- The copies of a draft. -/
def composeCc (input : DraftInput) (accountEmail : String) : List MailAddress :=
  match input.cc, input.source with
  | [], some source => if input.mode = .replyAll then replyAllCc source accountEmail else []
  | addrs, _ => addrs

variable (env : External)

/-- `compose_request`. -/
def composeRequest (input : DraftInput) (accountEmail : String) : Result SendRequest := do
  ensure (validAccountId input.accountId) (.invalid "account id must use 1-64 safe characters")
  ensure (input.source.all fun m => m.reference.accountId = input.accountId)
    (.invalid "draft source message must belong to the draft account")
  ensure (¬(input.mode = .new ∧ input.source.isSome))
    (.invalid "new drafts cannot include a source message")
  ensure (¬(input.mode ≠ .new ∧ input.source.isNone))
    (.invalid "this draft mode requires a source message")
  let request : SendRequest := {
    accountId := input.accountId
    toAddrs := composeTo input accountEmail
    cc := composeCc input accountEmail
    bcc := input.bcc
    subject := input.subject.getD ((input.source.map (defaultSubject input.mode)).getD "")
    text := input.text.or (input.source.bind (quoteSource input.mode))
    html := input.html
    attachments := input.attachments }
  request.validate env
  pure request

/-! ## 3. Drafts -/

/-- `Draft::create` on a drawn identifier. -/
def Draft.create (input : DraftInput) (accountEmail : String) (now : DateTime) (id : String) :
    Result Draft := do
  let request ← composeRequest env input accountEmail
  let attachmentSummaries ← request.attachmentSummaries env
  pure {
    id := id
    accountId := input.accountId
    mode := input.mode
    source := input.source.map MessageContent.reference
    request := request
    attachmentSummaries := attachmentSummaries
    status := .draft
    createdAt := now
    updatedAt := now }

/-- `Draft::update`. -/
def Draft.update (d : Draft) (input : DraftInput) (accountEmail : String) (now : DateTime) :
    Result Draft := do
  ensure (d.status = .draft) (.new .sendPlanState "discarded draft cannot be edited" false)
  let updated ← Draft.create env input accountEmail now d.id
  pure { updated with createdAt := d.createdAt }

variable {env}

/-- An update keeps the identity of the draft and leaves it active. -/
theorem Draft.update_ok {d d' : Draft} {input : DraftInput} {accountEmail : String}
    {now : DateTime} (h : d.update env input accountEmail now = .ok d') :
    d.status = .draft ∧ d'.id = d.id ∧ d'.status = .draft ∧ d'.createdAt = d.createdAt := by
  simp only [Draft.update, Draft.create, bind_ok, ensure_ok, pure_ok] at h
  obtain ⟨_, hst, _, ⟨_, -, _, -, rfl⟩, rfl⟩ := h
  exact ⟨hst, rfl, rfl, rfl⟩

end Kirje
