import Mathlib.Data.List.Sort
import Kirje.Index.Store
import Kirje.Ledger.Adapters

/-
  File:      Kirje/Index/Sync.lean
  Subject:   One synchronization of a mailbox: `PimalayaImapReader::sync_mailbox`
             (crates/kirje-protocol/src/imap.rs) and `KirjeRuntime::sync_mailbox`
             (crates/kirje-runtime/src/lib.rs), and the server they talk to.

  A session is the replies of the server to the four commands of one call.  What the
  replies of an honest server are is said by `Honest`; `SyncSystem` is the index and
  the mailboxes of the server, which gain messages between the calls.
-/

namespace Kirje

open Base

/-! ## 1. The reader -/

structure SyncCursor where
  uidValidity : Nat
  highestUid : Option Nat
  deriving DecidableEq, Repr

structure MailboxSyncRequest where
  accountId : String
  mailbox : String
  cursor : Option SyncCursor
  limit : Nat
  deriving DecidableEq, Repr

/-- `MailboxSyncRequest::validate`. -/
def MailboxSyncRequest.validate (request : MailboxSyncRequest) : Result Unit := do
  MessageIndex.validateScope request.accountId request.mailbox
  ensure (¬(request.limit = 0 ∨ request.limit > 500))
    (.invalid "sync limit must be between 1 and 500")

/-- The key of a search: `ALL`, or the UIDs from one on. -/
inductive SyncSearchKey where
  | all | uidFrom (start : Nat)
  deriving DecidableEq, Repr

/-- What a FETCH response says of a message, apart from its UID. -/
structure FetchedColumns where
  messageId : Option String
  inReplyTo : List String
  subject : String
  fromAddrs : List MailAddress
  toAddrs : List MailAddress
  sentAt : Option DateTime
  size : Nat
  isRead : Bool
  isStarred : Bool
  hasAttachment : Option Bool
  truncated : Bool
  deriving DecidableEq, Repr

/-- One FETCH response: the sequence number, the UID items in their order, the rest decoded. -/
structure FetchResponse where
  sequence : Nat
  uidItems : List Nat
  columns : FetchedColumns
  deriving DecidableEq, Repr

/-- The last UID item counts; without one, the sequence number stands for the UID. -/
def FetchResponse.uid (response : FetchResponse) : Nat :=
  response.uidItems.getLast?.getD response.sequence

/-- `envelope_from`. -/
def envelopeFrom (account : MailAccountConfig) (mailbox : String) (uidValidity : Option Nat)
    (response : FetchResponse) : MessageEnvelope where
  reference := ⟨account.id, mailbox, uidValidity, response.uid⟩
  messageId := response.columns.messageId
  inReplyTo := response.columns.inReplyTo
  subject := response.columns.subject
  fromAddrs := response.columns.fromAddrs
  toAddrs := response.columns.toAddrs
  sentAt := response.columns.sentAt
  size := response.columns.size
  isRead := response.columns.isRead
  isStarred := response.columns.isStarred
  hasAttachment := response.columns.hasAttachment
  truncated := response.columns.truncated

/-- The replies to CONNECT, EXAMINE (UIDVALIDITY and EXISTS), UID SEARCH and UID FETCH. -/
structure ImapSession where
  connect : Except ImapClientError Unit
  examine : Except ImapClientError (Option Nat × Option Nat)
  search : SyncSearchKey → Except ImapClientError (List Nat)
  fetch : List Nat → Except ImapClientError (List FetchResponse)

/-- A reply, its error classified. -/
def received {α : Type} : Except ImapClientError α → Result α
  | .ok a => .ok a
  | .error e => .error (classifyError e)

/-- `sync_search_keys`; the start cannot be zero. -/
def syncSearchKeys : Option Nat → SyncSearchKey
  | some highestUid => .uidFrom (min (highestUid + 1) (2 ^ 32 - 1))
  | none => .all

/-- `select_sync_uids`: the UIDs selected, and whether there are more. -/
def selectSyncUids (uids : List Nat) (limit : Nat) (incremental : Bool) : List Nat × Bool :=
  let sorted := if incremental then uids.insertionSort (· ≤ ·) else uids.insertionSort (· ≥ ·)
  let uids := sorted.take (limit + 1)
  let hasMore := decide (limit < uids.length)
  (if hasMore then uids.dropLast else uids, hasMore)

/-- The envelopes by UID, the last one of each. -/
def byUid (envelopes : List MessageEnvelope) : List MessageEnvelope :=
  envelopes.foldl (fun map e => upsert (·.reference.uid) e map) []

/-- Each UID takes its envelope out of the map. -/
def takeByUid : List MessageEnvelope → List Nat → List MessageEnvelope
  | _, [] => []
  | map, uid :: uids =>
      match map.find? fun e => e.reference.uid = uid with
      | some e => e :: takeByUid (map.filter fun e => e.reference.uid ≠ uid) uids
      | none => takeByUid map uids

variable (env : External) (libs : MailLibraries) (ixEnv : IndexExternal)

/-- The search of a synchronization; past the largest UID there is nothing to ask for. -/
def searchUids (session : ImapSession) (highestUid : Option Nat) : Result (List Nat) :=
  if highestUid = some (2 ^ 32 - 1) then pure []
  else received (session.search (syncSearchKeys highestUid))

/-- The fetch of the UIDs selected. -/
def fetchUids (session : ImapSession) (account : MailAccountConfig) (mailbox : String)
    (uidValidity : Nat) (uids : List Nat) : Result (List MessageEnvelope) :=
  if uids.isEmpty then pure []
  else do
    let fetched ← received (session.fetch uids)
    pure (takeByUid (byUid (fetched.map (envelopeFrom account mailbox (some uidValidity)))) uids)

/-- `PimalayaImapReader::sync_mailbox`. -/
def readerSyncMailbox (session : ImapSession) (account : MailAccountConfig)
    (request : MailboxSyncRequest) : Result MailboxSyncBatch := do
  account.validate env
  request.validate
  ensureAccountScope account request.accountId
  connectOptions libs account
  received session.connect
  let _ ← parseMailbox libs request.mailbox
  let (uidValidity, exists_) ← received session.examine
  let uidValidity ← orRefuse uidValidity
    (.new .protocol "IMAP mailbox did not provide UIDVALIDITY" false)
  let resetRequired := request.cursor.any fun cursor => cursor.uidValidity ≠ uidValidity
  let highestUid := if resetRequired then none else request.cursor.bind (·.highestUid)
  let found ← searchUids session highestUid
  let (uids, hasMore) := selectSyncUids found request.limit highestUid.isSome
  let messages ← fetchUids session account request.mailbox uidValidity uids
  pure {
    accountId := request.accountId
    mailbox := request.mailbox
    uidValidity := uidValidity
    messages := messages
    remoteTotal := exists_
    hasMore := hasMore
    resetRequired := resetRequired }

/-! ## 2. The runtime -/

/-- A call of `KirjeRuntime::sync_mailbox`, with the account that the repository returns, the
    replies of the server and the clock of the index. -/
structure SyncCall where
  accountId : String
  mailbox : String
  limit : Nat
  refresh : Bool
  credentials : Result MailAccountConfig
  session : ImapSession
  clock : DateTime

/-- The state that a call goes on from. -/
def SyncCall.previous (c : SyncCall) (ix : Index) : Result (Option MailboxSyncState) :=
  if c.refresh then pure none else MessageIndex.state ixEnv c.accountId c.mailbox ix

/-- The batch that a call applies, up to the second transaction. -/
def SyncCall.batch (c : SyncCall) (ix : Index) : Result MailboxSyncBatch := do
  let previous ← c.previous ixEnv ix
  let request : MailboxSyncRequest := {
    accountId := c.accountId
    mailbox := c.mailbox
    cursor := previous.map fun state => ⟨state.uidValidity, state.highestUid⟩
    limit := c.limit }
  request.validate
  let account ← c.credentials
  readerSyncMailbox env libs c.session account request

/-- `KirjeRuntime::sync_mailbox`. -/
def syncMailbox (c : SyncCall) (ix : Index) : Result MailboxSyncReport × Index :=
  match c.batch env libs ixEnv ix with
  | .error e => (.error e, ix)
  | .ok batch => MessageIndex.applySync ixEnv c.clock batch (c.refresh || batch.resetRequired) ix

/-! ## 3. The server -/

/-- A mailbox of the server: its UIDVALIDITY, and the UIDs under each UIDVALIDITY. -/
structure ServerMailbox where
  uidValidity : Nat
  uids : Nat → List Nat

/-- The answer to UID SEARCH; the range `n:*` always contains the largest UID. -/
def searchAnswer (uids : List Nat) : SyncSearchKey → List Nat
  | .all => uids
  | .uidFrom start =>
      if uids.any (start ≤ ·) then uids.filter (start ≤ ·) else uids.max?.toList

/-- **An honest server.**  A command may fail; where it does not, EXAMINE names the UIDVALIDITY,
    UID SEARCH finds what is there, and UID FETCH answers once for each UID asked for. -/
structure Honest (server : ServerMailbox) (session : ImapSession) : Prop where
  examine : ∀ v total, session.examine = .ok (some v, total) → v = server.uidValidity
  search : ∀ key found, session.search key = .ok found →
    found.Perm (searchAnswer (server.uids server.uidValidity) key)
  fetch : ∀ asked responses, session.fetch asked = .ok responses →
    asked ⊆ server.uids server.uidValidity → (responses.map FetchResponse.uid).Perm asked

/-- The index and the mailboxes of the server, by account and name. -/
structure SyncSystem where
  index : Index
  server : String → String → ServerMailbox

/-- The server gains a message or renames its UIDs, or a client synchronizes a mailbox. -/
inductive SyncMove where
  | gain (accountId mailbox : String) (uidValidity uid : Nat)
  | revalidate (accountId mailbox : String) (uidValidity : Nat)
  | sync (call : SyncCall)

/-- What the server does: under one UIDVALIDITY, UIDs only grow; every reply is honest. -/
def SyncSystem.Admits (s : SyncSystem) : SyncMove → Prop
  | .gain accountId mailbox v uid =>
      (∀ u ∈ (s.server accountId mailbox).uids v, u < uid) ∧ 0 < uid ∧ uid < 2 ^ 32
  | .revalidate _ _ v => 0 < v
  | .sync call => Honest (s.server call.accountId call.mailbox) call.session

/-- Change one mailbox of the server. -/
def SyncSystem.onServer (s : SyncSystem) (accountId mailbox : String)
    (f : ServerMailbox → ServerMailbox) : SyncSystem :=
  { s with server := fun a m =>
      if a = accountId ∧ m = mailbox then f (s.server a m) else s.server a m }

def SyncSystem.step (s : SyncSystem) : SyncMove → SyncSystem
  | .gain accountId mailbox v uid => s.onServer accountId mailbox fun server =>
      { server with uids := fun w => if w = v then server.uids v ++ [uid] else server.uids w }
  | .revalidate accountId mailbox v => s.onServer accountId mailbox fun server =>
      { server with uidValidity := v }
  | .sync call => { s with index := (syncMailbox env libs ixEnv call s.index).2 }

/-- An empty index, and a server whose UIDs are distinct and of 32 bits. -/
def SyncSystem.Initial (s : SyncSystem) : Prop :=
  s.index = Index.empty ∧ ∀ a m v, ((s.server a m).uids v).Nodup ∧
    ∀ u ∈ (s.server a m).uids v, u < 2 ^ 32

/-- The systems that moves with a property lead to. -/
def SyncRun (P : SyncSystem → SyncMove → Prop) : SyncSystem → Prop :=
  Reaches SyncSystem.Initial fun s s' =>
    ∃ m, s.Admits m ∧ P s m ∧ s.step env libs ixEnv m = s'

end Kirje
