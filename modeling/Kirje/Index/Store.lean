import Kirje.Core.Mail

/-
  File:      Kirje/Index/Store.lean
  Subject:   The local message index (crates/kirje-store/src/lib.rs): its two tables,
             `state` and `apply_sync`.

  `messages` has one row for each account, mailbox, UIDVALIDITY and UID, and
  `mailbox_sync_state` one for each account and mailbox.  `apply_sync` is one
  transaction and, after its commit, the report.
-/

namespace Kirje

open Base

/-! ## 1. Data -/

structure MessageEnvelope where
  reference : MessageReference
  messageId : Option String
  inReplyTo : List String
  subject : String
  fromAddrs : List MailAddress
  toAddrs : List MailAddress
  sentAt : Option DateTime
  size : Nat
  isRead : Bool
  isStarred : Bool
  hasAttachment : Option Bool
  truncated : Bool
  deriving DecidableEq, Repr

structure MailboxSyncBatch where
  accountId : String
  mailbox : String
  uidValidity : Nat
  messages : List MessageEnvelope
  remoteTotal : Option Nat
  hasMore : Bool
  resetRequired : Bool
  deriving DecidableEq, Repr

structure MailboxSyncState where
  accountId : String
  mailbox : String
  uidValidity : Nat
  highestUid : Option Nat
  indexedMessages : Nat
  initialWindowComplete : Bool
  remoteTotal : Option Nat
  lastSyncedAt : DateTime
  deriving DecidableEq, Repr

structure MailboxSyncReport where
  state : MailboxSyncState
  fetched : Nat
  stored : Nat
  reset : Bool
  hasMore : Bool
  deriving DecidableEq, Repr

/-- A row of `messages`. -/
structure MessageRow where
  accountId : String
  mailbox : String
  uidValidity : Nat
  uid : Nat
  messageId : Option String
  inReplyToJson : String
  subject : String
  fromJson : String
  toJson : String
  sentAt : Option String
  size : Nat
  isRead : Bool
  isStarred : Bool
  hasAttachment : Option Bool
  truncated : Bool
  indexedAt : String
  deriving DecidableEq, Repr

/-- A row of `mailbox_sync_state`. -/
structure SyncStateRow where
  accountId : String
  mailbox : String
  uidValidity : Nat
  highestUid : Option Nat
  initialWindowComplete : Bool
  remoteTotal : Option Nat
  lastSyncedAt : String
  deriving DecidableEq, Repr

structure Index where
  messages : List MessageRow
  states : List SyncStateRow
  deriving DecidableEq, Repr

def Index.empty : Index := ⟨[], []⟩

/-- The primary keys of the two tables. -/
def MessageRow.key (r : MessageRow) : String × String × Nat × Nat :=
  (r.accountId, r.mailbox, r.uidValidity, r.uid)

def SyncStateRow.key (s : SyncStateRow) : String × String := (s.accountId, s.mailbox)

/-- What the index takes from other crates: the JSON of two columns, and the times with
    `SecondsFormat::Secs`. -/
structure IndexExternal where
  messageIds : Json (List String)
  addresses : Json (List MailAddress)
  timestamp : DateTime → String
  parseTimestamp : String → Option DateTime

namespace MessageIndex

def storeReadError : MailError := .new .storeRead "cannot read the local message index" false

def storeWriteError : MailError := .new .storeWrite "cannot update the local message index" false

/-! ## 2. Checks -/

/-- `validate_scope`. -/
def validateScope (accountId mailbox : String) : Result Unit :=
  ensure (¬(blank accountId || accountId.utf8ByteSize > 64 || blank mailbox || mailbox.length > 4096))
    (.invalid "operation requires an account id and mailbox")

/-- `validate_batch`; the lookup it starts with has no filter and the limit 1. -/
def validateBatch (batch : MailboxSyncBatch) : Result Unit := do
  validateScope batch.accountId batch.mailbox
  ensure (¬(batch.uidValidity = 0 ∨ batch.messages.length > 500))
    (.invalid "sync batch requires positive UIDVALIDITY and at most 500 messages")
  checkAll (fun message => do
      message.reference.validate
      ensure (¬(message.reference.accountId ≠ batch.accountId ∨
          message.reference.mailbox ≠ batch.mailbox ∨
          message.reference.uidValidity ≠ some batch.uidValidity))
        (.invalid "sync batch contains a message outside its mailbox UID namespace"))
    batch.messages

variable (env : IndexExternal)

/-! ## 3. Rows -/

/-- The row belongs to the mailbox. -/
def MessageRow.of (accountId mailbox : String) (r : MessageRow) : Bool :=
  r.accountId = accountId && r.mailbox = mailbox

/-- `parse_timestamp`. -/
def parseTimestamp (value : String) : Result DateTime :=
  orRefuse (env.parseTimestamp value) storeReadError

/-- The state row of a mailbox. -/
def stateRow (accountId mailbox : String) (ix : Index) : Option SyncStateRow :=
  ix.states.find? fun s => s.key = (accountId, mailbox)

/-- The rows of a mailbox. -/
def rowsOf (accountId mailbox : String) (ix : Index) : List MessageRow :=
  ix.messages.filter (MessageRow.of accountId mailbox)

/-- `state_in_transaction`, and `StoredSyncState::into_domain`. -/
def stateInTransaction (accountId mailbox : String) (ix : Index) :
    Result (Option MailboxSyncState) := do
  match stateRow accountId mailbox ix with
  | none => pure none
  | some s =>
      let lastSyncedAt ← parseTimestamp env s.lastSyncedAt
      pure (some {
        accountId := accountId
        mailbox := mailbox
        uidValidity := s.uidValidity
        highestUid := s.highestUid
        indexedMessages := (rowsOf accountId mailbox ix).length
        initialWindowComplete := s.initialWindowComplete
        remoteTotal := s.remoteTotal
        lastSyncedAt := lastSyncedAt })

/-- `MessageIndex::state`. -/
def state (accountId mailbox : String) (ix : Index) : Result (Option MailboxSyncState) := do
  validateScope accountId mailbox
  stateInTransaction env accountId mailbox ix

/-- The row of an envelope; its integer columns are signed 64-bit integers. -/
def messageRow (message : MessageEnvelope) (indexedAt : String) : Result MessageRow := do
  let inReplyToJson ← orRefuse (env.messageIds.encode message.inReplyTo) storeWriteError
  let fromJson ← orRefuse (env.addresses.encode message.fromAddrs) storeWriteError
  let toJson ← orRefuse (env.addresses.encode message.toAddrs) storeWriteError
  let uidValidity ← orRefuse message.reference.uidValidity storeWriteError
  ensure (message.size < 2 ^ 63) storeWriteError
  pure {
    accountId := message.reference.accountId
    mailbox := message.reference.mailbox
    uidValidity := uidValidity
    uid := message.reference.uid
    messageId := message.messageId
    inReplyToJson := inReplyToJson
    subject := message.subject
    fromJson := fromJson
    toJson := toJson
    sentAt := message.sentAt.map env.timestamp
    size := message.size
    isRead := message.isRead
    isStarred := message.isStarred
    hasAttachment := message.hasAttachment
    truncated := message.truncated
    indexedAt := indexedAt }

/-- `upsert_message`; a conflict updates every column that is not in the key. -/
def upsertMessage (indexedAt : String) (ix : Index) (message : MessageEnvelope) : Result Index := do
  let row ← messageRow env message indexedAt
  pure { ix with messages := upsert MessageRow.key row ix.messages }

/-! ## 4. `apply_sync` -/

/-- Whether a batch starts the mailbox anew. -/
def resets (batch : MailboxSyncBatch) (replace : Bool) (previous : Option MailboxSyncState) : Bool :=
  replace || batch.resetRequired || previous.any fun s => s.uidValidity ≠ batch.uidValidity

def batchHighest (batch : MailboxSyncBatch) : Option Nat :=
  (batch.messages.map (·.reference.uid)).max?

/-- The state row that a batch leaves. -/
def nextState (batch : MailboxSyncBatch) (reset : Bool) (previous : Option MailboxSyncState)
    (indexedAt : String) : SyncStateRow where
  accountId := batch.accountId
  mailbox := batch.mailbox
  uidValidity := batch.uidValidity
  highestUid :=
    if reset then batchHighest batch
    else ((previous.bind (·.highestUid)).toList ++ (batchHighest batch).toList).max?
  initialWindowComplete :=
    if reset || previous.isNone then !batch.hasMore else previous.any (·.initialWindowComplete)
  remoteTotal := batch.remoteTotal
  lastSyncedAt := indexedAt

/-- The transaction of `apply_sync`: whether it starts the mailbox anew, the state row, and the
    tables. -/
def applyInTransaction (clock : DateTime) (batch : MailboxSyncBatch) (replace : Bool) (ix : Index) :
    Result ((Bool × SyncStateRow) × Index) := do
  validateBatch batch
  let previous ← stateInTransaction env batch.accountId batch.mailbox ix
  let reset := resets batch replace previous
  let ix := if reset then
      { ix with messages := ix.messages.filter fun r => !MessageRow.of batch.accountId batch.mailbox r }
    else ix
  let indexedAt := env.timestamp clock
  let ix ← batch.messages.foldlM (upsertMessage env indexedAt) ix
  let next := nextState batch reset previous indexedAt
  ensure (batch.remoteTotal.all (· < 2 ^ 63)) storeWriteError
  pure ((reset, next), { ix with states := upsert SyncStateRow.key next ix.states })

/-- `apply_sync`: the report reads the time back after the commit. -/
def applySync (clock : DateTime) (batch : MailboxSyncBatch) (replace : Bool) (ix : Index) :
    Result MailboxSyncReport × Index :=
  match applyInTransaction env clock batch replace ix with
  | .error e => (.error e, ix)
  | .ok ((reset, next), ix') => (do
      let lastSyncedAt ← parseTimestamp env next.lastSyncedAt
      let fetched := if batch.messages.length < 2 ^ 16 then batch.messages.length else 500
      pure {
        state := {
          accountId := batch.accountId
          mailbox := batch.mailbox
          uidValidity := batch.uidValidity
          highestUid := next.highestUid
          indexedMessages := (rowsOf batch.accountId batch.mailbox ix').length
          initialWindowComplete := next.initialWindowComplete
          remoteTotal := batch.remoteTotal
          lastSyncedAt := lastSyncedAt }
        fetched := fetched
        stored := fetched
        reset := reset
        hasMore := batch.hasMore }, ix')

end MessageIndex

end Kirje
