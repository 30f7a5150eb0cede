import Kirje.Ledger.Adapters

/-
  File:      Kirje/Ledger/Runtime.lean
  Subject:   The processes over one ledger (crates/kirje-runtime/src/lib.rs): any
             number of them run `KirjeRuntime`'s planning, approval, application
             and reading calls, in any interleaving.

  One ledger transaction is one step.  `apply_send` and `apply_mail_operation`
  are cut at their transactions and at every remote command and reply, so that
  other processes act in between; a process may stop anywhere.  The history
  records, newest first, what the claims are about: creations, committed
  approvals, adapter invocations, commands with their replies, adapter results.
-/

namespace Kirje

open Base

variable (env : External) (libs : MailLibraries)

/-! ## 1. Planning -/

/-- `SendPlan::create` on drawn identifiers. -/
def SendPlan.create (request : SendRequest) (now : DateTime) (id messageUuid : String) :
    Result SendPlan := do
  request.validate env
  let attachmentSummaries ← request.attachmentSummaries env
  let canonical ← orRefuse (env.sendRequest.encode request)
    (.new .internal "cannot serialize the send request" false)
  let domain := match request.toAddrs.head?.bind fun a => rsplitOnce '@' a.email.toList with
    | some (_, domain) => String.ofList domain
    | none => "kirje.local"
  pure {
    id := id
    request := request
    contentSha256 := env.payloadDigest canonical
    messageId := "<" ++ messageUuid ++ "@" ++ toAsciiLowercase domain ++ ">"
    attachmentSummaries := attachmentSummaries
    status := .planned
    createdAt := now
    expiresAt := now + DateTime.hours 24
    approvedAt := none
    updatedAt := now
    attemptCount := 0
    lastError := none
    receipt := none }

/-- `KirjeRuntime::plan_send`, with the account the repository returns for the request. -/
def planSend (account : Result MailAccountConfig) (request : SendRequest) (now : DateTime)
    (id messageUuid : String) (l : Ledger) : Result (SendPlan × Ledger) := do
  request.validate env
  let account ← account
  account.validate env
  ensure account.outgoing.isSome
    (.invalid "account has no SMTP endpoint; update its account configuration")
  let plan ← SendPlan.create env request now id messageUuid
  Outbox.create env plan l

/-- `operation_record`. -/
def operationRecord (id kind accountId payloadJson payloadSha256 : String) (now : DateTime) :
    OperationRecord := {
  id := id
  kind := kind
  accountId := accountId
  messageId := none
  payloadJson := payloadJson
  payloadSha256 := payloadSha256
  status := .planned
  createdAt := now
  expiresAt := some (now + DateTime.hours 24)
  approvedAt := none
  updatedAt := now
  attemptCount := 0
  lastError := none
  receiptJson := none }

/-- The destination of an archive or a delete without one is what the server declares. -/
def resolveDestination (special : Result (Option String)) (request : MailboxOperationRequest) :
    Result MailboxOperationRequest :=
  if request.destination.isNone ∧ (request.kind = .archive ∨ request.kind = .delete) then do
    let destination ← orRefuse (← special) (.invalid
      "server did not declare the requested special-use mailbox; provide --destination")
    pure { request with destination := some destination }
  else pure request

/-- `KirjeRuntime::plan_mail_operation`; `special` is the outcome of the account, secret and
    special-use lookups.  Returns the stored request with the record. -/
def planMailOperation (special : Result (Option String)) (request : MailboxOperationRequest)
    (now : DateTime) (id : String) (l : Ledger) :
    Result ((MailboxOperationRequest × OperationRecord) × Ledger) := do
  request.validate
  let request ← resolveDestination special request
  request.validate
  let (payloadJson, payloadSha256) ← Outbox.digestJson env env.mailOperation request
  let record := { operationRecord id (mailOperationKindName request.kind) request.accountId
    payloadJson payloadSha256 now with
    messageId := some (request.reference.mailbox ++ ":" ++ toString request.reference.uid) }
  let (record, l) ← createOperation env record l
  pure ((request, record), l)

/-! ## 2. Applying -/

/-- What an operation asks for. -/
inductive Request where
  | send (request : SendRequest)
  | mail (request : MailboxOperationRequest)
  deriving DecidableEq, Repr

/-- What an adapter returned. -/
inductive AdapterResult where
  | sent (result : Except SendAttemptError SendReceipt)
  | applied (result : Except RemoteAttemptError MailboxOperationReceipt)

/-- What a claimed call works on: the plan or the record the claim returned. -/
inductive Claimed where
  | plan (plan : SendPlan)
  | record (record : OperationRecord)

/-- The checks of `apply_mail_operation` between the claim and the credentials. -/
def claimedOperation (claimed : OperationRecord) : Result MailboxOperationRequest := do
  let operation ← orRefuse (env.mailOperation.decode claimed.payloadJson)
    (.new .storeRead "stored operation payload is invalid" false)
  ensure (claimed.kind = mailOperationKindName operation.kind ∧
      claimed.accountId = operation.accountId)
    (.new .storeRead "stored operation payload does not match its ledger record" false)
  pure operation

/-- The adapter call of a claimed operation: the request it receives and its program, or the
    error that ends the call before it.  `credentials` is what the account and secret stores
    return, `clock` the time at the adapter's end. -/
def invocation (operationId : String) (credentials : Result (MailAccountConfig × String))
    (clock : DateTime) : Claimed → Result (Request × Remote AdapterResult)
  | .plan plan => do
      let (account, _) ← credentials
      pure (.send plan.request,
        (smtpSend env libs account plan clock).bind fun r => .done (.sent r))
  | .record record => do
      let operation ← claimedOperation env record
      let (account, secret) ← credentials
      pure (.mail operation,
        (imapApply env libs account secret operationId operation clock).bind
          fun r => .done (.applied r))

/-- The error of a call that ends before its adapter is recorded as a failure. -/
def recordRefusal (operationId : String) (error : MailError) (now : DateTime) (l : Ledger) :
    Claimed → Ledger
  | .plan _ => (Outbox.markFailed env operationId error now l).2
  | .record _ => (projected pure (failOperation env operationId error now l) l).2

/-- The finalizing call that an adapter's result selects. -/
def recordResult (operationId : String) (now : DateTime) (l : Ledger) : AdapterResult → Ledger
  | .sent (.ok receipt) => (Outbox.markSent env operationId receipt l).2
  | .sent (.error ⟨error, true⟩) => (Outbox.markAmbiguous env operationId error now l).2
  | .sent (.error ⟨error, false⟩) => (Outbox.markFailed env operationId error now l).2
  | .applied (.ok receipt) =>
      match Outbox.digestJson env env.mailReceipt receipt with
      | .ok (receiptJson, _) =>
          (projected pure (succeedOperation env operationId receiptJson now l) l).2
      | .error _ => l
  | .applied (.error ⟨error, true⟩) =>
      (projected pure (ambiguousOperation env operationId error now l) l).2
  | .applied (.error ⟨error, false⟩) =>
      (projected pure (failOperation env operationId error now l) l).2

/-! ## 3. Processes -/

/-- Where a process stands.  Outside `apply_*` it is `idle`. -/
inductive Phase where
  | idle
  | pending (id : String)
  | claimed (id : String) (call : Claimed)
  | refused (id : String) (call : Claimed) (error : MailError)
  | running (id : String) (rest : Remote AdapterResult)
  | waiting (id : String) (c : RemoteCommand) (k : c.Reply → Remote AdapterResult)
  | returned (id : String) (result : AdapterResult)

/-- `apply_mail_operation` goes on with an operation that is neither a send nor a draft. -/
def Phase.afterRead (id : String) : Result (Option OperationRecord × Ledger) → Phase
  | .ok (some op, _) => if op.kind = "send" ∨ op.kind = "draft" then .idle else .pending id
  | .ok (none, _) => .idle
  | .error _ => .idle

/-- A call goes on with what its claim returned. -/
def Phase.afterClaim {α : Type} (id : String) (call : α → Claimed) : Result α → Phase
  | .ok a => .claimed id (call a)
  | .error _ => .idle

/-- The adapter runs, or the call is refused before it. -/
def Phase.afterInvocation (id : String) (call : Claimed) :
    Result (Request × Remote AdapterResult) → Phase
  | .ok (_, program) => .running id program
  | .error e => .refused id call e

/-- What a run leaves in the history. -/
inductive Entry where
  | created (id : String) (request : Request)
  | approved (id : String)
  | invoked (id : String) (request : Request)
  | issued (id : String) (c : RemoteCommand)
  | replied (id : String) (c : RemoteCommand) (reply : c.Reply)
  | result (id : String) (result : AdapterResult)

structure System where
  ledger : Ledger
  phase : Nat → Phase
  history : List Entry

/-- A fresh v2 store that no process has used. -/
def System.initial : System := ⟨.empty, fun _ => .idle, []⟩

/-- Process `p` moves to `ph`. -/
def System.goto (s : System) (p : Nat) (ph : Phase) : System :=
  { s with phase := fun q => if q = p then ph else s.phase q }

/-- The committed ledger of a transaction, or the old one after a rollback. -/
def committed {α : Type} (l : Ledger) : Result (α × Ledger) → Ledger
  | .ok (_, l') => l'
  | .error _ => l

/-- Record the entry of a committed call. -/
def recorded {α : Type} (f : α → Entry) (h : List Entry) : Result α → List Entry
  | .ok a => f a :: h
  | .error _ => h

/-- One step of one process. -/
inductive Step : System → System → Prop where
  /-- `plan_send`. -/
  | planSend (s : System) (p : Nat) (hp : s.phase p = .idle) (account : Result MailAccountConfig)
      (request : SendRequest) (now : DateTime) (id messageUuid : String)
      {call} (hcall : planSend env account request now id messageUuid s.ledger = call) :
      Step s { s with
        ledger := committed s.ledger call
        history := recorded (fun r => .created id (.send r.1.request)) s.history call }
  /-- `plan_mail_operation`. -/
  | planMail (s : System) (p : Nat) (hp : s.phase p = .idle) (special : Result (Option String))
      (request : MailboxOperationRequest) (now : DateTime) (id : String)
      {call} (hcall : planMailOperation env special request now id s.ledger = call) :
      Step s { s with
        ledger := committed s.ledger call
        history := recorded (fun r => .created id (.mail r.1.1)) s.history call }
  /-- `approve_send`: the approval is committed before the plan is projected. -/
  | approveSend (s : System) (p : Nat) (hp : s.phase p = .idle) (id : String) (now : DateTime) :
      Step s { s with
        ledger := (Outbox.approve env id now s.ledger).2
        history := recorded (fun _ => .approved id) s.history
          (approveOperation env id now s.ledger) }
  /-- `approve_operation`. -/
  | approveOperation (s : System) (p : Nat) (hp : s.phase p = .idle) (id : String)
      (now : DateTime)
      {call} (hcall : Kirje.approveOperation env id now s.ledger = call) :
      Step s { s with
        ledger := committed s.ledger call
        history := recorded (fun _ => .approved id) s.history call }
  /-- `send_plan`. -/
  | sendPlan (s : System) (p : Nat) (hp : s.phase p = .idle) (id : String) (now : DateTime) :
      Step s { s with ledger := (Outbox.get env id now s.ledger).2 }
  /-- `mail_operation`. -/
  | mailOperation (s : System) (p : Nat) (hp : s.phase p = .idle) (id : String)
      (now : DateTime) :
      Step s { s with ledger := committed s.ledger (getOperation env id now s.ledger) }
  /-- `list_send_plans`. -/
  | listSendPlans (s : System) (p : Nat) (hp : s.phase p = .idle) (accountId : Option String)
      (limit : Nat) (now : DateTime) :
      Step s { s with ledger := (Outbox.list env accountId limit now s.ledger).2 }
  /-- `list_operations`. -/
  | listOperations (s : System) (p : Nat) (hp : s.phase p = .idle)
      (accountId kind : Option String) (limit : Nat) (now : DateTime) :
      Step s { s with
        ledger := committed s.ledger (listOperations env accountId kind limit now s.ledger) }
  /-- `apply_send` claims its plan. -/
  | claimSend (s : System) (p : Nat) (hp : s.phase p = .idle) (id : String) (now : DateTime) :
      Step s ({ s with ledger := (Outbox.claim env id now s.ledger).2 }.goto p
        (.afterClaim id .plan (Outbox.claim env id now s.ledger).1))
  /-- `apply_mail_operation` reads the operation and looks at its kind. -/
  | readMail (s : System) (p : Nat) (hp : s.phase p = .idle) (id : String) (now : DateTime)
      {call} (hcall : getOperation env id now s.ledger = call) :
      Step s ({ s with ledger := committed s.ledger call }.goto p
        (.afterRead id call))
  /-- `apply_mail_operation` claims the operation. -/
  | claimMail (s : System) (p : Nat) (id : String) (hp : s.phase p = .pending id)
      (now : DateTime)
      {call} (hcall : claimOperation env id now s.ledger = call) :
      Step s ({ s with ledger := committed s.ledger call }.goto p
        (.afterClaim id (.record ∘ Prod.fst) call))
  /-- The claimed call checks its payload, gets the credentials and calls the adapter. -/
  | invoke (s : System) (p : Nat) (id : String) (call : Claimed)
      (hp : s.phase p = .claimed id call) (credentials : Result (MailAccountConfig × String))
      (clock : DateTime)
      {inv} (hinv : invocation env libs id credentials clock call = inv) :
      Step s ({ s with history := recorded (.invoked id ∘ Prod.fst) s.history inv }.goto p
        (.afterInvocation id call inv))
  /-- The call that did not get to its adapter records the failure. -/
  | refuse (s : System) (p : Nat) (id : String) (call : Claimed) (error : MailError)
      (hp : s.phase p = .refused id call error) (now : DateTime) :
      Step s ({ s with ledger := recordRefusal env id error now s.ledger call }.goto p .idle)
  /-- The adapter sends a command. -/
  | issue (s : System) (p : Nat) (id : String) (c : RemoteCommand)
      (k : c.Reply → Remote AdapterResult) (hp : s.phase p = .running id (.issue c k)) :
      Step s ({ s with history := .issued id c :: s.history }.goto p (.waiting id c k))
  /-- The server's reply, or the client's error, comes back. -/
  | reply (s : System) (p : Nat) (id : String) (c : RemoteCommand)
      (k : c.Reply → Remote AdapterResult) (hp : s.phase p = .waiting id c k) (r : c.Reply) :
      Step s ({ s with history := .replied id c r :: s.history }.goto p (.running id (k r)))
  /-- The adapter returns. -/
  | ret (s : System) (p : Nat) (id : String) (result : AdapterResult)
      (hp : s.phase p = .running id (.done result)) :
      Step s ({ s with history := .result id result :: s.history }.goto p (.returned id result))
  /-- The runtime records the adapter's result. -/
  | finish (s : System) (p : Nat) (id : String) (result : AdapterResult)
      (hp : s.phase p = .returned id result) (now : DateTime) :
      Step s ({ s with ledger := recordResult env id now s.ledger result }.goto p .idle)
  /-- A process stops: a crash, or a store error that ends its call. -/
  | stop (s : System) (p : Nat) : Step s (s.goto p .idle)

/-- The systems any interleaving gets to. -/
def Reachable : System → Prop := Reaches (· = System.initial) (Step env libs)

end Kirje
