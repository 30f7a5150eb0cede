import Mathlib.Data.List.Sort
import Kirje.Base.Table
import Kirje.Core.Mail

/-
  File:      Kirje/Ledger/Outbox.lean
  Subject:   The operation ledger (crates/kirje-store/src/outbox.rs): its two
             tables, the calls of `OperationLedger` and the send facade `Outbox`.

  A call that opens a transaction is a function from the ledger to the value it
  returns together with the committed ledger; an error rolls the transaction
  back, so it carries no ledger.  The facade commits first and projects after,
  and therefore returns its result and its ledger separately.
  Status columns hold one of the seven names their CHECK admits, times are texts
  and are compared as texts.
-/

namespace Kirje

open Base

/-! ## 1. Rows and records -/

inductive OperationStatus where
  | planned | approved | applying | succeeded | failed | ambiguous | expired
  deriving DecidableEq, Repr

/-- `operation_status_name`. -/
def operationStatusName : OperationStatus → String
  | .planned => "planned"
  | .approved => "approved"
  | .applying => "applying"
  | .succeeded => "succeeded"
  | .failed => "failed"
  | .ambiguous => "ambiguous"
  | .expired => "expired"

/-- A row of `operations`. -/
structure OperationRow where
  id : String
  kind : String
  accountId : String
  messageId : Option String
  payloadJson : String
  payloadSha256 : String
  status : OperationStatus
  createdAt : String
  expiresAt : Option String
  approvedAt : Option String
  updatedAt : String
  attemptCount : Nat
  lastErrorJson : Option String
  receiptJson : Option String
  deriving DecidableEq, Repr

/-- A row of `operation_events`. -/
structure OperationEventRow where
  sequence : Nat
  operationId : String
  event : String
  status : Option OperationStatus
  occurredAt : String
  payloadSha256 : String
  detail : Option String
  deriving DecidableEq, Repr

/-- The store: both tables in insertion order, and the AUTOINCREMENT high water. -/
structure Ledger where
  operations : List OperationRow
  events : List OperationEventRow
  sequence : Nat
  deriving DecidableEq, Repr

def Ledger.empty : Ledger := ⟨[], [], 0⟩

structure OperationRecord where
  id : String
  kind : String
  accountId : String
  messageId : Option String
  payloadJson : String
  payloadSha256 : String
  status : OperationStatus
  createdAt : DateTime
  expiresAt : Option DateTime
  approvedAt : Option DateTime
  updatedAt : DateTime
  attemptCount : Nat
  lastError : Option MailError
  receiptJson : Option String
  deriving DecidableEq, Repr

inductive SendPlanStatus where
  | planned | approved | applying | sent | failed | ambiguous | expired
  deriving DecidableEq, Repr

structure SendPlan where
  id : String
  request : SendRequest
  contentSha256 : String
  messageId : String
  attachmentSummaries : List AttachmentSummary
  status : SendPlanStatus
  createdAt : DateTime
  expiresAt : DateTime
  approvedAt : Option DateTime
  updatedAt : DateTime
  attemptCount : Nat
  lastError : Option MailError
  receipt : Option SendReceipt
  deriving DecidableEq, Repr

/-! ## 2. Errors -/

def notFoundError : MailError := .new .sendPlanNotFound "send plan was not found" false

def stateError (message : String) : MailError := .new .sendPlanState message false

def storeReadError : MailError := .new .storeRead "cannot read the local outbox" false

def storeWriteError : MailError := .new .storeWrite "cannot update the local outbox" false

variable (env : External)

/-! ## 3. Reading rows -/

/-- `validate_operation_id`. -/
def validateOperationId (operationId : String) : Result Unit :=
  ensure (env.parseUuid operationId) (.invalid "operation id must be a UUID")

/-- `parse_timestamp`. -/
def parseTimestamp (value : String) : Result DateTime :=
  orRefuse (env.parseTimestamp value) storeReadError

/-- An optional column, decoded when present. -/
def decodeOption {α β : Type} (f : α → Result β) : Option α → Result (Option β)
  | none => pure none
  | some a => do pure (some (← f a))

/-- `operation_from_row`. -/
def operationFromRow (row : OperationRow) : Result OperationRecord := do
  ensure (row.payloadSha256 = env.payloadDigest row.payloadJson) storeReadError
  let createdAt ← parseTimestamp env row.createdAt
  let expiresAt ← decodeOption (parseTimestamp env) row.expiresAt
  let approvedAt ← decodeOption (parseTimestamp env) row.approvedAt
  let updatedAt ← parseTimestamp env row.updatedAt
  ensure (row.attemptCount < 2 ^ 32) storeReadError
  let lastError ←
    decodeOption (fun s => orRefuse (env.mailError.decode s) storeReadError) row.lastErrorJson
  pure {
    id := row.id
    kind := row.kind
    accountId := row.accountId
    messageId := row.messageId
    payloadJson := row.payloadJson
    payloadSha256 := row.payloadSha256
    status := row.status
    createdAt := createdAt
    expiresAt := expiresAt
    approvedAt := approvedAt
    updatedAt := updatedAt
    attemptCount := row.attemptCount
    lastError := lastError
    receiptJson := row.receiptJson }

/-- `operation_in_transaction`. -/
def operationInTransaction (l : Ledger) (operationId : String) : Result (Option OperationRecord) :=
  decodeOption (operationFromRow env) (l.operations.find? fun row => row.id = operationId)

/-- `append_event`. -/
def appendEvent (l : Ledger) (operation : OperationRecord) (event : String)
    (status : Option OperationStatus) (detail : Option String) : Ledger :=
  { l with
    sequence := l.sequence + 1
    events := l.events ++ [{
      sequence := l.sequence + 1
      operationId := operation.id
      event := event
      status := status
      occurredAt := env.timestamp operation.updatedAt
      payloadSha256 := operation.payloadSha256
      detail := detail.map fun value => String.ofList (value.toList.take 512) }] }

/-! ## 4. Reconciliation -/

/-- The statuses an expiry may still close. -/
def OperationStatus.unclaimed : OperationStatus → Bool
  | .planned | .approved => true
  | _ => false

/-- Append the event of a row just written, if the row is still there. -/
def eventOfRow (l : Ledger) (id event : String) (status : OperationStatus) : Result Ledger := do
  match ← operationInTransaction env l id with
  | some operation => pure (appendEvent env l operation event (some status) none)
  | none => pure l

/-- The expiry of one row. -/
def expireOperation (now : DateTime) (l : Ledger) (id : String) : Result Ledger :=
  eventOfRow env
    { l with
      operations := update (fun row => row.id = id && row.status.unclaimed)
        (fun row => { row with status := .expired, updatedAt := env.timestamp now })
        l.operations }
    id "expired" .expired

def staleError : MailError :=
  .new .sendPlanState "previous remote operation ended without a final result" false

/-- The end of one stale claim. -/
def ambiguateOperation (now : DateTime) (errorJson : String) (l : Ledger) (id : String) :
    Result Ledger :=
  eventOfRow env
    { l with
      operations := update (fun row => row.id = id && row.status = .applying)
        (fun row => { row with
          status := .ambiguous
          updatedAt := env.timestamp now
          lastErrorJson := some errorJson })
        l.operations }
    id "reconciled_ambiguous" .ambiguous

/-- `reconcile_operations`. -/
def reconcileOperations (now : DateTime) (l : Ledger) : Result Ledger := do
  let expired := (l.operations.filter fun row =>
    row.status.unclaimed && row.expiresAt.any (· ≤ env.timestamp now)).map (·.id)
  let l ← expired.foldlM (expireOperation env now) l
  let stale := env.timestamp (now - DateTime.minutes 15)
  let staleIds := (l.operations.filter fun row =>
    row.kind ≠ "draft" && row.status = .applying && row.updatedAt ≤ stale).map (·.id)
  let errorJson ← orRefuse (env.mailError.encode staleError) storeWriteError
  staleIds.foldlM (ambiguateOperation env now errorJson) l

/-! ## 5. `OperationLedger` -/

/-- `create_operation`. -/
def createOperation (operation : OperationRecord) (l : Ledger) :
    Result (OperationRecord × Ledger) := do
  validateOperationId env operation.id
  ensure (operation.status = .planned ∧ operation.payloadJson ≠ "" ∧
      operation.payloadSha256 = env.payloadDigest operation.payloadJson)
    (stateError "only a new planned operation with a valid digest can enter the ledger")
  ensure (operation.id ∉ l.operations.map (·.id))
    (stateError "operation already exists or is invalid")
  let row : OperationRow := {
    id := operation.id
    kind := operation.kind
    accountId := operation.accountId
    messageId := operation.messageId
    payloadJson := operation.payloadJson
    payloadSha256 := operation.payloadSha256
    status := operation.status
    createdAt := env.timestamp operation.createdAt
    expiresAt := operation.expiresAt.map env.timestamp
    approvedAt := none
    updatedAt := env.timestamp operation.updatedAt
    attemptCount := 0
    lastErrorJson := none
    receiptJson := none }
  let l := { l with operations := l.operations ++ [row] }
  pure (operation, appendEvent env l operation "created" (some operation.status) none)

/-- `get_operation`. -/
def getOperation (operationId : String) (now : DateTime) (l : Ledger) :
    Result (Option OperationRecord × Ledger) := do
  validateOperationId env operationId
  let l ← reconcileOperations env now l
  let operation ← operationInTransaction env l operationId
  pure (operation, l)

/-- `list_operations`. -/
def listOperations (accountId kind : Option String) (limit : Nat) (now : DateTime) (l : Ledger) :
    Result (List OperationRecord × Ledger) := do
  ensure (limit ≠ 0 ∧ limit ≤ 100) (.invalid "operation limit must be between 1 and 100")
  ensure (¬(accountId.any String.isEmpty || kind.any String.isEmpty))
    (.invalid "operation filters cannot be empty")
  let l ← reconcileOperations env now l
  let selected := l.operations.filter fun row =>
    accountId.all (row.accountId = ·) && kind.all (row.kind = ·)
  let ordered := selected.insertionSort fun a b => b.createdAt ≤ a.createdAt
  let operations ← (ordered.take limit).mapM (operationFromRow env)
  pure (operations, l)

/-- `operation_transition`. -/
def operationTransition (operationId : String) (now : DateTime) (source target : OperationStatus)
    (approve : Bool) (l : Ledger) : Result (OperationRecord × Ledger) := do
  validateOperationId env operationId
  let l ← reconcileOperations env now l
  let existing ← orRefuse (← operationInTransaction env l operationId) notFoundError
  ensure (existing.kind ≠ "draft")
    (stateError "drafts do not participate in approval or apply transitions")
  ensure (existing.status = source)
    (stateError ("operation is " ++ operationStatusName existing.status ++ ", expected " ++
      operationStatusName source))
  let l := { l with
    operations := update (fun row => row.id = operationId && row.status = source)
      (fun row => { row with
        status := target
        approvedAt := if approve then some (env.timestamp now) else row.approvedAt
        updatedAt := env.timestamp now
        attemptCount := row.attemptCount + if target = .applying then 1 else 0 })
      l.operations }
  let updated ← orRefuse (← operationInTransaction env l operationId) notFoundError
  pure (updated, appendEvent env l updated "transitioned" (some target) none)

/-- `approve_operation`. -/
def approveOperation (operationId : String) (now : DateTime) :=
  operationTransition env operationId now .planned .approved true

/-- `claim_operation`. -/
def claimOperation (operationId : String) (now : DateTime) :=
  operationTransition env operationId now .approved .applying false

/-- `finish_operation`. -/
def finishOperation (operationId : String) (now : DateTime) (status : OperationStatus)
    (error : Option MailError) (receiptJson : Option String) (l : Ledger) :
    Result (OperationRecord × Ledger) := do
  validateOperationId env operationId
  let errorJson ←
    decodeOption (fun e => orRefuse (env.mailError.encode e) storeWriteError) error
  let existing ← orRefuse (← operationInTransaction env l operationId) notFoundError
  ensure (existing.status = .applying)
    (stateError "only an applying operation can be finalized")
  let l := { l with
    operations := update (fun row => row.id = operationId && row.status = .applying)
      (fun row => { row with
        status := status
        updatedAt := env.timestamp now
        lastErrorJson := errorJson
        receiptJson := receiptJson })
      l.operations }
  let updated ← orRefuse (← operationInTransaction env l operationId) notFoundError
  pure (updated, appendEvent env l updated "finalized" (some status) none)

/-- `succeed_operation`. -/
def succeedOperation (operationId receiptJson : String) (now : DateTime) :=
  finishOperation env operationId now .succeeded none (some receiptJson)

/-- `fail_operation`. -/
def failOperation (operationId : String) (error : MailError) (now : DateTime) :=
  finishOperation env operationId now .failed (some error) none

/-- `ambiguous_operation`. -/
def ambiguousOperation (operationId : String) (error : MailError) (now : DateTime) :=
  finishOperation env operationId now .ambiguous (some { error with retryable := false }) none

/-! ## 6. The send facade -/

def sendPlanStatus : OperationStatus → SendPlanStatus
  | .planned => .planned
  | .approved => .approved
  | .applying => .applying
  | .succeeded => .sent
  | .failed => .failed
  | .ambiguous => .ambiguous
  | .expired => .expired

/-- `send_plan_from_operation`. -/
def sendPlanFromOperation (operation : OperationRecord) : Result SendPlan := do
  ensure (operation.kind = "send") (stateError "operation is not a send plan")
  let request ← orRefuse (env.sendRequest.decode operation.payloadJson) storeReadError
  let messageId ← orRefuse operation.messageId storeReadError
  let attachmentSummaries ← request.attachmentSummaries env
  let expiresAt ← orRefuse operation.expiresAt storeReadError
  let receipt ← decodeOption (fun s => orRefuse (env.sendReceipt.decode s) storeReadError)
    operation.receiptJson
  pure {
    id := operation.id
    request := request
    contentSha256 := operation.payloadSha256
    messageId := messageId
    attachmentSummaries := attachmentSummaries
    status := sendPlanStatus operation.status
    createdAt := operation.createdAt
    expiresAt := expiresAt
    approvedAt := operation.approvedAt
    updatedAt := operation.updatedAt
    attemptCount := operation.attemptCount
    lastError := operation.lastError
    receipt := receipt }

/-- A facade call commits the ledger's call and then projects its record. -/
def projected {α β : Type} (project : α → Result β) (call : Result (α × Ledger)) (l : Ledger) :
    Result β × Ledger :=
  match call with
  | .ok (a, l') => (project a, l')
  | .error e => (.error e, l)

namespace Outbox

/-- `digest_json` of a request. -/
def digestJson {α : Type} (json : Json α) (a : α) : Result (String × String) := do
  let payload ← orRefuse (json.encode a) (.new .internal "cannot serialize operation payload" false)
  pure (payload, env.payloadDigest payload)

/-- `Outbox::create`. -/
def create (plan : SendPlan) (l : Ledger) : Result (SendPlan × Ledger) := do
  plan.request.validate env
  ensure (plan.status = .planned ∧ plan.approvedAt = none ∧ plan.attemptCount = 0 ∧
      plan.lastError = none ∧ plan.receipt = none)
    (stateError "only a new planned message can enter the outbox")
  let (payloadJson, payloadSha256) ← digestJson env env.sendRequest plan.request
  let (_, l) ← createOperation env {
    id := plan.id
    kind := "send"
    accountId := plan.request.accountId
    messageId := some plan.messageId
    payloadJson := payloadJson
    payloadSha256 := payloadSha256
    status := .planned
    createdAt := plan.createdAt
    expiresAt := some plan.expiresAt
    approvedAt := none
    updatedAt := plan.updatedAt
    attemptCount := 0
    lastError := none
    receiptJson := none } l
  pure (plan, l)

/-- `Outbox::get`. -/
def get (planId : String) (now : DateTime) (l : Ledger) : Result (Option SendPlan) × Ledger :=
  projected (decodeOption (sendPlanFromOperation env)) (getOperation env planId now l) l

/-- `Outbox::list`; the summaries the caller sees are projections of these plans. -/
def list (accountId : Option String) (limit : Nat) (now : DateTime) (l : Ledger) :
    Result (List SendPlan) × Ledger :=
  if limit = 0 ∨ limit > 100 then
    (.error (.invalid "send plan limit must be between 1 and 100"), l)
  else if accountId.any String.isEmpty then (.error (.invalid "account id cannot be empty"), l)
  else projected (List.mapM (sendPlanFromOperation env))
    (listOperations env accountId (some "send") limit now l) l

/-- `Outbox::approve`. -/
def approve (planId : String) (now : DateTime) (l : Ledger) : Result SendPlan × Ledger :=
  projected (sendPlanFromOperation env) (approveOperation env planId now l) l

/-- `Outbox::claim`. -/
def claim (planId : String) (now : DateTime) (l : Ledger) : Result SendPlan × Ledger :=
  projected (sendPlanFromOperation env) (claimOperation env planId now l) l

/-- `Outbox::mark_sent`. -/
def markSent (planId : String) (receipt : SendReceipt) (l : Ledger) : Result SendPlan × Ledger :=
  match env.sendReceipt.encode receipt with
  | none => (.error storeWriteError, l)
  | some receiptJson =>
      projected (sendPlanFromOperation env)
        (succeedOperation env planId receiptJson receipt.sentAt l) l

/-- `Outbox::mark_failed`. -/
def markFailed (planId : String) (error : MailError) (now : DateTime) (l : Ledger) :
    Result SendPlan × Ledger :=
  projected (sendPlanFromOperation env) (failOperation env planId error now l) l

/-- `Outbox::mark_ambiguous`. -/
def markAmbiguous (planId : String) (error : MailError) (now : DateTime) (l : Ledger) :
    Result SendPlan × Ledger :=
  projected (sendPlanFromOperation env)
    (ambiguousOperation env planId { error with retryable := false } now l) l

end Outbox

end Kirje
