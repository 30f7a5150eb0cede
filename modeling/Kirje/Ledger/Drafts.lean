import Kirje.Core.Draft
import Kirje.Ledger.Rows

/-
  File:      Kirje/Ledger/Drafts.lean
  Subject:   Drafts in the operation ledger (crates/kirje-store/src/outbox.rs) and
             the draft calls of `KirjeRuntime` (crates/kirje-runtime/src/lib.rs).

  A draft is a row of kind `draft` whose payload is the JSON of the draft; its status
  column stays `planned`, the draft's own status is in the payload.  A discard reads
  the draft in one transaction and writes it in another; both are functions of their
  own here (`readDiscard`, `writeDiscard`), and so are the two halves of a runtime
  update.
-/

namespace Kirje

open Base

variable (env : External) (json : Json Draft)

/-! ## 1. Ledger calls -/

/-- The draft in the payload of a record. -/
def decodeDraft (operation : OperationRecord) : Result Draft :=
  orRefuse (json.decode operation.payloadJson) storeReadError

/-- The draft of a record of kind `draft`. -/
def draftOf : Option OperationRecord → Result (Option Draft)
  | some operation =>
      if operation.kind = "draft" then do pure (some (← decodeDraft json operation)) else pure none
  | none => pure none

/-- `get_draft`: the read is committed before the payload is decoded. -/
def getDraft (draftId : String) (clock : DateTime) (l : Ledger) : Result (Option Draft) × Ledger :=
  projected (draftOf json) (getOperation env draftId clock l) l

/-- The active drafts among the records of a listing. -/
def activeDrafts (operations : List OperationRecord) : Result (List Draft) := do
  let drafts ← operations.mapM (decodeDraft json)
  pure (drafts.filter fun d => d.status = .draft)

/-- `list_drafts`. -/
def listDrafts (accountId : String) (limit : Nat) (clock : DateTime) (l : Ledger) :
    Result (List Draft) × Ledger :=
  projected (activeDrafts json)
    (listOperations env (some accountId) (some "draft") limit clock l) l

/-- The record a draft enters the ledger with. -/
def draftRecord (draft : Draft) (payloadJson payloadSha256 : String) : OperationRecord where
  id := draft.id
  kind := "draft"
  accountId := draft.accountId
  messageId := none
  payloadJson := payloadJson
  payloadSha256 := payloadSha256
  status := .planned
  createdAt := draft.createdAt
  expiresAt := none
  approvedAt := none
  updatedAt := draft.updatedAt
  attemptCount := 0
  lastError := none
  receiptJson := none

/-- The second transaction of `create_draft`, after the listing. -/
def insertDraft (draft : Draft) (l : Ledger) : Result (Draft × Ledger) := do
  let (payloadJson, payloadSha256) ← Outbox.digestJson env json draft
  let (_, l) ← createOperation env (draftRecord draft payloadJson payloadSha256) l
  pure (draft, l)

/-- The checks of `create_draft` before it touches the store. -/
def checkNewDraft (draft : Draft) : Result Unit := do
  ensure (draft.status = .draft) (stateError "only an active draft can be created")
  draft.request.validate env

/-- `create_draft`: the listing that counts the drafts commits on its own. -/
def createDraft (draft : Draft) (clock : DateTime) (l : Ledger) : Result Draft × Ledger :=
  match checkNewDraft env draft with
  | .error e => (.error e, l)
  | .ok () =>
      match listDrafts env json draft.accountId 100 clock l with
      | (.error e, l) => (.error e, l)
      | (.ok drafts, l) =>
          if 100 ≤ drafts.length then
            (.error (.new .resourceLimit "an account cannot have more than 100 active drafts" false),
              l)
          else projected pure (insertDraft env json draft l) l

/-- The rows a draft call may write. -/
def draftRow (draftId : String) (row : OperationRow) : Bool :=
  row.id = draftId && (row.kind = "draft" && row.status = .planned)

/-- `update_draft`. -/
def updateDraft (draft : Draft) (l : Ledger) : Result (Draft × Ledger) := do
  ensure (draft.status = .draft) (stateError "only an active draft can be updated")
  draft.request.validate env
  let (payloadJson, payloadSha256) ← Outbox.digestJson env json draft
  let existing ← orRefuse (← operationInTransaction env l draft.id) notFoundError
  ensure (¬(existing.kind ≠ "draft" ∨ existing.status ≠ .planned))
    (stateError "only an active draft can be updated")
  let l := { l with
    operations := update (draftRow draft.id)
      (fun row => { row with
        accountId := draft.accountId
        payloadJson := payloadJson
        payloadSha256 := payloadSha256
        updatedAt := env.timestamp draft.updatedAt })
      l.operations }
  let updated ← orRefuse (← operationInTransaction env l draft.id) notFoundError
  pure (draft, appendEvent env l updated "updated" (some .planned) none)

/-- The first transaction of `discard_draft` and its check: the draft that will be written. -/
def readDiscard (draftId : String) (clock now : DateTime) (l : Ledger) : Result Draft × Ledger :=
  let (read, l) := getDraft env json draftId clock l
  (do
    let current ← orRefuse (← read) notFoundError
    ensure (current.status = .draft) (stateError "draft is already discarded")
    pure { current with status := .discarded, updatedAt := now }, l)

/-- The second transaction of `discard_draft`; it does not look at the row it writes over. -/
def writeDiscard (draftId : String) (discarded : Draft) (now : DateTime) (l : Ledger) :
    Result (Draft × Ledger) := do
  let (payloadJson, payloadSha256) ← Outbox.digestJson env json discarded
  let l := { l with
    operations := update (draftRow draftId)
      (fun row => { row with
        payloadJson := payloadJson
        payloadSha256 := payloadSha256
        updatedAt := env.timestamp now })
      l.operations }
  let updated ← orRefuse (← operationInTransaction env l draftId) notFoundError
  pure (discarded, appendEvent env l updated "discarded" (some .planned) none)

/-- `discard_draft`. -/
def discardDraft (draftId : String) (clock now : DateTime) (l : Ledger) : Result Draft × Ledger :=
  match readDiscard env json draftId clock now l with
  | (.error e, l) => (.error e, l)
  | (.ok discarded, l) => projected pure (writeDiscard env json draftId discarded now l) l

/-! ## 2. Runtime calls -/

/-- `KirjeRuntime::draft`. -/
def runtimeDraft (draftId : String) (clock : DateTime) (l : Ledger) : Result Draft × Ledger :=
  let (read, l) := getDraft env json draftId clock l
  (do orRefuse (← read) (.new .sendPlanNotFound "draft was not found" false), l)

/-- `KirjeRuntime::update_draft` up to its write: the draft it will write.  `account` is what the
    account repository returns for the input. -/
def composeUpdate (account : Result MailAccountConfig) (draftId : String) (input : DraftInput)
    (clock now : DateTime) (l : Ledger) : Result Draft × Ledger :=
  match account with
  | .error e => (.error e, l)
  | .ok account =>
      let (read, l) := runtimeDraft env json draftId clock l
      (do
        let existing ← read
        ensure (existing.accountId = input.accountId)
          (.invalid "draft account does not match the configured account")
        existing.update env input account.email now, l)

/-- `KirjeRuntime::plan_send_from_draft`. -/
def planSendFromDraft (account : Result MailAccountConfig) (draftId : String) (clock now : DateTime)
    (id messageUuid : String) (l : Ledger) : Result SendPlan × Ledger :=
  match runtimeDraft env json draftId clock l with
  | (.error e, l) => (.error e, l)
  | (.ok draft, l) =>
      if draft.status ≠ .draft then
        (.error (.new .sendPlanState "discarded draft cannot become a send plan" false), l)
      else projected pure (planSend env account draft.request now id messageUuid l) l

end Kirje
