import Mathlib.Data.List.Forall2
import Kirje.Ledger.AtMostOnce

/-
  File:      Kirje/Ledger/Migration.lean
  Subject:   `migrate` (crates/kirje-store/src/outbox.rs): an outbox of schema 1
             becomes a ledger of schema 2.

  The version is read before the transaction opens; everything else happens in
  the transaction, so a statement that fails leaves the file alone.  Every
  statement of the model may fail.

  * `SendPlanRow.Becomes`, `SendPlanRow.Recorded`: what a legacy row turns into.
  * `legacyPlan`: the send plan a legacy row stands for, read off the row itself;
    **`plan_of_migrated`**: the facade reads the same plan off the migrated row.
  * **`opening_migrates`**: a faultless opening of schema 1; **`openings_settle`**: any
    openings, in any order of their steps, leave the file as it was or as one
    faultless opening leaves it.
-/

namespace Kirje

open Base

/-! ## 1. The outbox of schema 1 -/

/-- A row of the legacy table `send_plans`. -/
structure SendPlanRow where
  id : String
  accountId : String
  requestJson : String
  contentSha256 : String
  messageId : String
  status : String
  createdAt : String
  expiresAt : String
  approvedAt : Option String
  updatedAt : String
  attemptCount : Nat
  lastErrorJson : Option String
  receiptJson : Option String
  deriving DecidableEq, Repr

/-- The serialized name of a plan's status, which is what the legacy column holds. -/
def sendPlanStatusName : SendPlanStatus → String
  | .planned => "planned"
  | .approved => "approved"
  | .applying => "applying"
  | .sent => "sent"
  | .failed => "failed"
  | .ambiguous => "ambiguous"
  | .expired => "expired"

/-- The table `send_plans`, with the constraints of `LEGACY_SEND_SCHEMA`. -/
structure SendPlanTable where
  rows : List SendPlanRow
  ids : (rows.map (·.id)).Nodup
  messageIds : (rows.map (·.messageId)).Nodup
  statuses : ∀ row ∈ rows, ∃ status, sendPlanStatusName status = row.status

def SendPlanTable.empty : SendPlanTable where
  rows := []
  ids := List.nodup_nil
  messageIds := List.nodup_nil
  statuses := fun _ h => nomatch h

/-- The file of an outbox: `user_version` and the tables there are. -/
structure OutboxFile where
  userVersion : Int
  sendPlans : Option SendPlanTable
  ledger : Option Ledger

/-- The file of schema 1 with a given table. -/
def OutboxFile.v1 (table : SendPlanTable) : OutboxFile := ⟨1, some table, none⟩

/-! ## 2. The migration -/

/-- Where a migration can fail. -/
inductive MigrationStep where
  | readVersion | transaction | legacySendSchema | ledgerSchema | copy | setVersion | commit
  deriving DecidableEq, Repr

/-- Which steps fail in one opening. -/
abbrev Faults : Type := MigrationStep → Bool

def migrationError : MailError := .new .storeMigration "cannot migrate the local outbox" false

def newerSchemaError : MailError :=
  .new .storeMigration "outbox schema is newer than this Kirje version" false

def statement (faults : Faults) (step : MigrationStep) : Result Unit :=
  ensure (faults step = false) migrationError

/-- `parse_operation_status`; its names are those of the CHECK on `operations`. -/
def parseOperationStatus : String → Result OperationStatus
  | "planned" => pure .planned
  | "approved" => pure .approved
  | "applying" => pure .applying
  | "succeeded" => pure .succeeded
  | "failed" => pure .failed
  | "ambiguous" => pure .ambiguous
  | "expired" => pure .expired
  | _ => .error storeReadError

/-- `CASE status WHEN 'sent' THEN 'succeeded' ELSE status END`. -/
def migratedStatus (status : String) : String :=
  if status = "sent" then "succeeded" else status

/-- The row of `operations` selected from a legacy row. -/
def selectedOperation (status : OperationStatus) (row : SendPlanRow) : OperationRow where
  id := row.id
  kind := "send"
  accountId := row.accountId
  messageId := some row.messageId
  payloadJson := row.requestJson
  payloadSha256 := row.contentSha256
  status := status
  createdAt := row.createdAt
  expiresAt := some row.expiresAt
  approvedAt := row.approvedAt
  updatedAt := row.updatedAt
  attemptCount := row.attemptCount
  lastErrorJson := row.lastErrorJson
  receiptJson := row.receiptJson

/-- The row of `operation_events` selected from a legacy row. -/
def selectedEvent (sequence : Nat) (row : SendPlanRow) : OperationEventRow where
  sequence := sequence
  operationId := row.id
  event := "migrated"
  status := (parseOperationStatus (migratedStatus row.status)).toOption
  occurredAt := row.updatedAt
  payloadSha256 := row.contentSha256
  detail := some "migrated from legacy send_plans"

/-- One row of the first `INSERT … SELECT`: its key must be new, its status must pass the CHECK. -/
def copyOperation (l : Ledger) (row : SendPlanRow) : Result Ledger := do
  ensure (row.id ∉ l.operations.map (·.id)) migrationError
  let status ← orRefuse (parseOperationStatus (migratedStatus row.status)).toOption migrationError
  pure { l with operations := l.operations ++ [selectedOperation status row] }

/-- One row of the second `INSERT … SELECT`. -/
def copyEvent (l : Ledger) (row : SendPlanRow) : Ledger :=
  { l with
    sequence := l.sequence + 1
    events := l.events ++ [selectedEvent (l.sequence + 1) row] }

/-- Both copies, in the order of the batch. -/
def copySendPlans (file : OutboxFile) : Result OutboxFile := do
  let table ← orRefuse file.sendPlans migrationError
  let l ← orRefuse file.ledger migrationError
  let l ← table.rows.foldlM copyOperation l
  pure { file with ledger := some (table.rows.foldl copyEvent l) }

/-- `LEGACY_SEND_SCHEMA`, which a file of version 0 gets first. -/
def createSendPlans (faults : Faults) (version : Int) (file : OutboxFile) : Result OutboxFile :=
  if version = 0 then do
    statement faults .legacySendSchema
    pure { file with sendPlans := some (file.sendPlans.getD .empty) }
  else pure file

/-- `LEDGER_SCHEMA`. -/
def createLedger (faults : Faults) (file : OutboxFile) : Result OutboxFile := do
  statement faults .ledgerSchema
  pure { file with ledger := some (file.ledger.getD .empty) }

/-- The copies, for the versions that have no ledger yet. -/
def copyLegacy (faults : Faults) (version : Int) (file : OutboxFile) : Result OutboxFile :=
  if version ≤ 1 then do
    statement faults .copy
    copySendPlans file
  else pure file

/-- The transaction of `migrate`, for the version read before it. -/
def migrateTransaction (faults : Faults) (version : Int) (file : OutboxFile) :
    Result OutboxFile := do
  statement faults .transaction
  let file ← createSendPlans faults version file
  let file ← createLedger faults file
  let file ← copyLegacy faults version file
  statement faults .setVersion
  statement faults .commit
  pure { file with userVersion := 2 }

/-- `migrate` from the version on: what it returns, and the file it leaves. -/
def migrateFrom (faults : Faults) (version : Int) (file : OutboxFile) :
    Result Unit × OutboxFile :=
  if version > 2 then (.error newerSchemaError, file)
  else if version = 2 then (.ok (), file)
  else match migrateTransaction faults version file with
    | .ok file' => (.ok (), file')
    | .error e => (.error e, file)

/-- `migrate`. -/
def migrate (faults : Faults) (file : OutboxFile) : Result Unit × OutboxFile :=
  if faults .readVersion then (.error migrationError, file)
  else migrateFrom faults file.userVersion file

/-- An opening in which nothing fails. -/
def noFault : Faults := fun _ => false

/-! ## 3. What a legacy row becomes -/

/-- The operation of a legacy row. -/
structure SendPlanRow.Becomes (row : SendPlanRow) (operation : OperationRow) : Prop where
  id : operation.id = row.id
  kind : operation.kind = "send"
  accountId : operation.accountId = row.accountId
  messageId : operation.messageId = some row.messageId
  payloadJson : operation.payloadJson = row.requestJson
  payloadSha256 : operation.payloadSha256 = row.contentSha256
  status : operationStatusName operation.status =
    if row.status = "sent" then "succeeded" else row.status
  createdAt : operation.createdAt = row.createdAt
  expiresAt : operation.expiresAt = some row.expiresAt
  approvedAt : operation.approvedAt = row.approvedAt
  updatedAt : operation.updatedAt = row.updatedAt
  attemptCount : operation.attemptCount = row.attemptCount
  lastErrorJson : operation.lastErrorJson = row.lastErrorJson
  receiptJson : operation.receiptJson = row.receiptJson

/-- The event of a legacy row. -/
structure SendPlanRow.Recorded (row : SendPlanRow) (recorded : OperationEventRow) : Prop where
  operationId : recorded.operationId = row.id
  event : recorded.event = "migrated"
  status : recorded.status.map operationStatusName =
    some (if row.status = "sent" then "succeeded" else row.status)
  occurredAt : recorded.occurredAt = row.updatedAt
  payloadSha256 : recorded.payloadSha256 = row.contentSha256
  detail : recorded.detail = some "migrated from legacy send_plans"

/-- A file is the schema 2 of a legacy table: row by row, in the table's order. -/
structure SendPlanTable.MigratedTo (table : SendPlanTable) (file : OutboxFile) : Prop where
  version : file.userVersion = 2
  legacy : file.sendPlans = some table
  ledger : ∃ l, file.ledger = some l ∧ List.Forall₂ SendPlanRow.Becomes table.rows l.operations ∧
    List.Forall₂ SendPlanRow.Recorded table.rows l.events ∧
    l.events.map (·.sequence) = List.range' 1 table.rows.length

/-- A legal status passes the CHECK under its migrated name. -/
theorem migratedStatus_parses (status : SendPlanStatus) :
    ∃ migrated, parseOperationStatus (migratedStatus (sendPlanStatusName status)) = .ok migrated ∧
      operationStatusName migrated = migratedStatus (sendPlanStatusName status) ∧
      sendPlanStatus migrated = status := by
  cases status <;> exact ⟨_, rfl, rfl, rfl⟩

theorem selectedOperation_becomes {row : SendPlanRow} {migrated : OperationStatus}
    (h : operationStatusName migrated = migratedStatus row.status) :
    row.Becomes (selectedOperation migrated row) :=
  ⟨rfl, rfl, rfl, rfl, rfl, rfl, h, rfl, rfl, rfl, rfl, rfl, rfl, rfl⟩

theorem selectedEvent_recorded {row : SendPlanRow} {migrated : OperationStatus} (sequence : Nat)
    (hparse : parseOperationStatus (migratedStatus row.status) = .ok migrated)
    (hname : operationStatusName migrated = migratedStatus row.status) :
    row.Recorded (selectedEvent sequence row) := by
  have hstatus : (selectedEvent sequence row).status = some migrated := by
    simp only [selectedEvent, hparse, Except.toOption]
  refine ⟨rfl, rfl, ?_, rfl, rfl, rfl⟩
  rw [hstatus, Option.map_some, hname]
  rfl

/-- **The first copy adds the operation of each row**, if the keys are new. -/
theorem copyOperations_ok {rows : List SendPlanRow} (hids : (rows.map (·.id)).Nodup)
    (hstatus : ∀ row ∈ rows, ∃ status, sendPlanStatusName status = row.status) (l : Ledger)
    (hnew : ∀ row ∈ rows, row.id ∉ l.operations.map (·.id)) :
    ∃ operations, rows.foldlM copyOperation l =
        .ok { l with operations := l.operations ++ operations } ∧
      List.Forall₂ SendPlanRow.Becomes rows operations := by
  induction rows generalizing l with
  | nil => exact ⟨[], by rw [List.append_nil]; rfl, .nil⟩
  | cons row rows ih =>
      obtain ⟨status, hs⟩ := hstatus row List.mem_cons_self
      obtain ⟨migrated, hparse, hname, -⟩ := migratedStatus_parses status
      rw [hs] at hparse hname
      rw [List.map_cons, List.nodup_cons] at hids
      have hcopy : copyOperation l row =
          .ok { l with operations := l.operations ++ [selectedOperation migrated row] } := by
        simp only [copyOperation, bind_ok, ensure_ok, orRefuse_ok, hparse, Except.toOption]
        exact ⟨(), hnew row List.mem_cons_self, migrated, rfl, rfl⟩
      have hrest : ∀ row' ∈ rows,
          row'.id ∉ (l.operations ++ [selectedOperation migrated row]).map (·.id) := by
        intro row' hrow' hmem
        rw [List.map_append, List.mem_append, List.map_singleton, List.mem_singleton] at hmem
        rcases hmem with hold | hfirst
        · exact hnew row' (List.mem_cons_of_mem _ hrow') hold
        · exact hids.1 (List.mem_map.mpr ⟨row', hrow', hfirst⟩)
      obtain ⟨operations, hfold, hbecome⟩ :=
        ih hids.2 (fun row' h => hstatus row' (List.mem_cons_of_mem _ h))
          { l with operations := l.operations ++ [selectedOperation migrated row] } hrest
      refine ⟨selectedOperation migrated row :: operations, ?_,
        .cons (selectedOperation_becomes hname) hbecome⟩
      rw [List.foldlM_cons, hcopy]
      simpa using hfold

/-- **The second copy adds the event of each row**, numbered on from the last. -/
theorem copyEvents_eq {rows : List SendPlanRow}
    (hstatus : ∀ row ∈ rows, ∃ status, sendPlanStatusName status = row.status) (l : Ledger) :
    ∃ events, rows.foldl copyEvent l =
        { l with events := l.events ++ events, sequence := l.sequence + rows.length } ∧
      List.Forall₂ SendPlanRow.Recorded rows events ∧
      events.map (·.sequence) = List.range' (l.sequence + 1) rows.length := by
  induction rows generalizing l with
  | nil => exact ⟨[], by rw [List.append_nil]; rfl, .nil, rfl⟩
  | cons row rows ih =>
      obtain ⟨status, hs⟩ := hstatus row List.mem_cons_self
      obtain ⟨migrated, hparse, hname, -⟩ := migratedStatus_parses status
      rw [hs] at hparse hname
      obtain ⟨events, hfold, hrecorded, hseq⟩ :=
        ih (fun row' h => hstatus row' (List.mem_cons_of_mem _ h)) (copyEvent l row)
      refine ⟨selectedEvent (l.sequence + 1) row :: events, ?_,
        .cons (selectedEvent_recorded _ hparse hname) hrecorded, ?_⟩
      · rw [List.foldl_cons, hfold]
        simp [copyEvent, Nat.add_comm, Nat.add_left_comm]
      · rw [List.map_cons, hseq, List.length_cons, List.range'_succ]
        rfl

/-! ## 4. The transaction -/

/-- The tables a transaction finds after the schema statements. -/
def OutboxFile.prepared (version : Int) (file : OutboxFile) : OutboxFile :=
  { file with
    sendPlans := if version = 0 then some (file.sendPlans.getD .empty) else file.sendPlans
    ledger := some (file.ledger.getD .empty) }

/-- The copies of a file whose version asks for them. -/
def OutboxFile.copied (version : Int) (file : OutboxFile) : Result OutboxFile :=
  if version ≤ 1 then copySendPlans file else pure file

/-- The transaction meets no fault on its way. -/
def Unhindered (faults : Faults) (version : Int) : Prop :=
  faults .transaction = false ∧ (version = 0 → faults .legacySendSchema = false) ∧
    faults .ledgerSchema = false ∧ (version ≤ 1 → faults .copy = false) ∧
    faults .setVersion = false ∧ faults .commit = false

theorem unhindered_noFault (version : Int) : Unhindered noFault version :=
  ⟨rfl, fun _ => rfl, rfl, fun _ => rfl, rfl, rfl⟩

theorem createSendPlans_ok {faults : Faults} {version : Int} {file file' : OutboxFile} :
    createSendPlans faults version file = .ok file' ↔
      (version = 0 → faults .legacySendSchema = false) ∧
        { file with
          sendPlans := if version = 0 then some (file.sendPlans.getD .empty) else file.sendPlans } =
          file' := by
  unfold createSendPlans statement
  by_cases hv : version = 0
  · simp [hv]
  · simp [hv]

theorem copyLegacy_ok {faults : Faults} {version : Int} {file file' : OutboxFile} :
    copyLegacy faults version file = .ok file' ↔
      (version ≤ 1 → faults .copy = false) ∧ file.copied version = .ok file' := by
  unfold copyLegacy OutboxFile.copied statement
  by_cases hv : version ≤ 1
  · simp [hv]
  · simp [hv]

/-- **What the transaction commits**: the copies of the prepared file, as version 2. -/
theorem migrateTransaction_ok {faults : Faults} {version : Int} {file file' : OutboxFile} :
    migrateTransaction faults version file = .ok file' ↔ Unhindered faults version ∧
      ∃ copied, (file.prepared version).copied version = .ok copied ∧
        { copied with userVersion := 2 } = file' := by
  simp only [migrateTransaction, createLedger, statement, bind_ok, ensure_ok, pure_ok,
    createSendPlans_ok, copyLegacy_ok]
  constructor
  · rintro ⟨-, ht, _, ⟨hs, rfl⟩, _, ⟨-, hl, rfl⟩, copied, ⟨hf, hcopied⟩, -, hv, -, hc, rfl⟩
    exact ⟨⟨ht, hs, hl, hf, hv, hc⟩, copied, hcopied, rfl⟩
  · rintro ⟨⟨ht, hs, hl, hf, hv, hc⟩, copied, hcopied, rfl⟩
    exact ⟨(), ht, _, ⟨hs, rfl⟩, _, ⟨(), hl, rfl⟩, copied, ⟨hf, hcopied⟩, (), hv, (), hc, rfl⟩

/-- **A transaction that commits commits what a faultless one does.** -/
theorem migrateTransaction_noFault {faults : Faults} {version : Int} {file file' : OutboxFile}
    (h : migrateTransaction faults version file = .ok file') :
    migrateTransaction noFault version file = .ok file' :=
  migrateTransaction_ok.mpr ⟨unhindered_noFault version, (migrateTransaction_ok.mp h).2⟩

/-- **The transaction on schema 1.** -/
theorem migrateTransaction_v1 (table : SendPlanTable) :
    ∃ file, migrateTransaction noFault 1 (.v1 table) = .ok file ∧ table.MigratedTo file := by
  obtain ⟨operations, hcopy, hbecome⟩ :=
    copyOperations_ok table.ids table.statuses .empty (fun _ _ h => nomatch h)
  obtain ⟨events, hevents, hrecorded, hseq⟩ := copyEvents_eq table.statuses ⟨operations, [], 0⟩
  have hcopied : ((OutboxFile.v1 table).prepared 1).copied 1 = .ok
      ⟨1, some table, some ⟨operations, events, 0 + table.rows.length⟩⟩ := by
    unfold OutboxFile.copied
    rw [if_pos (le_refl 1)]
    simp only [copySendPlans, bind_ok, orRefuse_ok, pure_ok]
    refine ⟨table, rfl, .empty, rfl, _, hcopy, ?_⟩
    exact congrArg (fun l => OutboxFile.mk 1 (some table) (some l)) hevents
  refine ⟨_, migrateTransaction_ok.mpr ⟨unhindered_noFault 1, _, hcopied, rfl⟩, rfl, rfl, _, rfl, ?_⟩
  exact ⟨hbecome, hrecorded, hseq⟩

/-- **A transaction that comes second commits nothing new**: its first key is taken, or there
    is no row to copy. -/
theorem migrateTransaction_again {faults : Faults} {table : SendPlanTable} {file file' : OutboxFile}
    (hm : table.MigratedTo file) (h : migrateTransaction faults 1 file = .ok file') :
    file' = file := by
  obtain ⟨-, copied, hcopied, rfl⟩ := migrateTransaction_ok.mp h
  obtain ⟨l, hl, hbecome, -, -⟩ := hm.ledger
  obtain ⟨version, sendPlans, ledger⟩ := file
  obtain rfl : version = 2 := hm.version
  obtain rfl : sendPlans = some table := hm.legacy
  obtain rfl : ledger = some l := hl
  unfold OutboxFile.copied at hcopied
  rw [if_pos (le_refl 1)] at hcopied
  simp only [copySendPlans, bind_ok, orRefuse_ok, pure_ok] at hcopied
  obtain ⟨table', ht, l', hl', l₁, hcopy, rfl⟩ := hcopied
  obtain rfl : table = table' := Option.some.inj ht
  obtain rfl : l = l' := Option.some.inj hl'
  cases hrows : table.rows with
  | nil =>
      rw [hrows] at hcopy
      obtain rfl : l = l₁ := pure_ok.mp hcopy
      rfl
  | cons row rows =>
      rw [hrows] at hbecome hcopy
      obtain ⟨operation, operations, hrow, -, hops⟩ := List.forall₂_cons_left_iff.mp hbecome
      simp only [List.foldlM_cons, copyOperation, bind_ok, ensure_ok] at hcopy
      obtain ⟨_, ⟨-, hnew, -⟩, -⟩ := hcopy
      rw [hops, List.map_cons, hrow.id] at hnew
      exact absurd List.mem_cons_self hnew

/-! ## 5. Openings -/

/-- **What a migration returns and leaves**: an error and the file it found, or the file of a
    faultless transaction. -/
theorem migrateFrom_cases (faults : Faults) (version : Int) (file : OutboxFile) :
    (∃ e, migrateFrom faults version file = (.error e, file)) ∨
      (version = 2 ∧ migrateFrom faults version file = (.ok (), file)) ∨
      version < 2 ∧ ∃ file', migrateTransaction faults version file = .ok file' ∧
        migrateFrom faults version file = (.ok (), file') := by
  unfold migrateFrom
  by_cases hnew : version > 2
  · rw [if_pos hnew]
    exact .inl ⟨_, rfl⟩
  · rw [if_neg hnew]
    by_cases htwo : version = 2
    · rw [if_pos htwo]
      exact .inr (.inl ⟨htwo, rfl⟩)
    · rw [if_neg htwo]
      cases h : migrateTransaction faults version file with
      | error e => exact .inl ⟨e, rfl⟩
      | ok file' => exact .inr (.inr ⟨by omega, file', rfl, rfl⟩)

/-- An opening of a migrated file changes nothing. -/
theorem migrate_of_migrated {table : SendPlanTable} {file : OutboxFile}
    (hm : table.MigratedTo file) (faults : Faults) : (migrate faults file).2 = file := by
  unfold migrate
  cases faults .readVersion with
  | true => rfl
  | false =>
      rw [hm.version]
      rfl

/-- Where an opener is. -/
inductive Opener where
  | waiting
  | read (version : Int)
  | done (result : Result Unit)

/-- The file and the processes that open it. -/
structure Openings where
  file : OutboxFile
  openers : Nat → Opener

/-- A step of one opener: the read of the version, the rest of `migrate`, or a new opening. -/
inductive OpeningStep : Openings → Openings → Prop
  | read (s : Openings) (i : Nat) (fails : Bool) : s.openers i = .waiting →
      OpeningStep s ⟨s.file, Function.update s.openers i
        (if fails then .done (.error migrationError) else .read s.file.userVersion)⟩
  | migrate (s : Openings) (i : Nat) (version : Int) (faults : Faults) :
      s.openers i = .read version →
      OpeningStep s ⟨(migrateFrom faults version s.file).2,
        Function.update s.openers i (.done (migrateFrom faults version s.file).1)⟩
  | reopen (s : Openings) (i : Nat) (result : Result Unit) : s.openers i = .done result →
      OpeningStep s ⟨s.file, Function.update s.openers i .waiting⟩

/-- A file of schema 1 that nobody has opened yet. -/
def Unopened (table : SendPlanTable) (s : Openings) : Prop :=
  s.file = .v1 table ∧ ∀ i, s.openers i = .waiting

/-- The file is what it was or what one transaction makes of it, and each version read is one
    that the file has had. -/
structure Settled (table : SendPlanTable) (migrated : OutboxFile) (s : Openings) : Prop where
  file : s.file = .v1 table ∨ s.file = migrated
  versions : ∀ i version, s.openers i = .read version →
    version = 1 ∨ version = 2 ∧ s.file = migrated

theorem Settled.update {table : SendPlanTable} {migrated : OutboxFile} {s : Openings}
    (h : Settled table migrated s) {file : OutboxFile} (hfile : file = .v1 table ∨ file = migrated)
    (hkept : s.file = migrated → file = migrated) (i : Nat) {opener : Opener}
    (hopener : ∀ version, opener = .read version → version = 1 ∨ version = 2 ∧ file = migrated) :
    Settled table migrated ⟨file, Function.update s.openers i opener⟩ := by
  refine ⟨hfile, fun j version (hj : Function.update s.openers i opener j = _) => ?_⟩
  by_cases hji : j = i
  · subst hji
    rw [Function.update_self] at hj
    exact hopener version hj
  · rw [Function.update_of_ne hji] at hj
    exact (h.versions j version hj).imp_right fun h => ⟨h.1, hkept h.2⟩

/-- **A step of any opener keeps the file settled.** -/
theorem OpeningStep.settled {table : SendPlanTable} {migrated : OutboxFile}
    (hrun : migrateTransaction noFault 1 (.v1 table) = .ok migrated)
    (hm : table.MigratedTo migrated) {s s' : Openings} (hs : Settled table migrated s)
    (h : OpeningStep s s') : Settled table migrated s' := by
  cases h with
  | read i fails hi =>
      refine hs.update hs.file id i fun version hv => ?_
      cases fails with
      | true => cases hv
      | false =>
          obtain rfl : s.file.userVersion = version := Opener.read.inj hv
          rcases hs.file with hfile | hfile
          · rw [hfile]
            exact .inl rfl
          · rw [hfile]
            exact .inr ⟨hm.version, rfl⟩
  | migrate i version faults hi =>
      have hdone : ∀ result version', Opener.done result = .read version' →
          version' = 1 ∨ version' = 2 ∧ (migrateFrom faults version s.file).2 = migrated :=
        fun _ _ hv => nomatch hv
      rcases migrateFrom_cases faults version s.file with ⟨e, he⟩ | ⟨-, he⟩ | ⟨hlt, file', hok, he⟩
      · rw [he] at hdone ⊢
        exact hs.update hs.file id i (hdone _)
      · rw [he] at hdone ⊢
        exact hs.update hs.file id i (hdone _)
      · rw [he] at hdone ⊢
        -- only version 1 can have been read, now or before another opener migrated
        obtain rfl : version = 1 := (hs.versions i version hi).resolve_right (fun h => by omega)
        have hfile' : file' = migrated := by
          rcases hs.file with hfile | hfile
          · rw [hfile] at hok
            have := migrateTransaction_noFault hok
            rw [hrun] at this
            exact (Except.ok.inj this).symm
          · rw [hfile] at hok
            exact migrateTransaction_again hm hok
        exact hs.update (.inr hfile') (fun _ => hfile') i (hdone _)
  | reopen i result hi => exact hs.update hs.file id i fun _ hv => nomatch hv

/-- **Openings in any order of their steps**: the file is what it was or what one faultless
    opening makes of it. -/
theorem openings_settle {table : SendPlanTable} {migrated : OutboxFile}
    (hrun : migrateTransaction noFault 1 (.v1 table) = .ok migrated)
    (hm : table.MigratedTo migrated) {s : Openings}
    (h : Reaches (Unopened table) OpeningStep s) : s.file = .v1 table ∨ s.file = migrated := by
  have hsettled : Settled table migrated s := by
    refine h.invariant (fun s hs => ⟨.inl hs.1, fun i version hi => ?_⟩) fun _ _ hs hstep =>
      hstep.settled hrun hm hs
    rw [hs.2 i] at hi
    cases hi
  exact hsettled.file

/-! ## 6. Meaning -/

section Meaning

variable (env : External)

/-- The status a legacy column names. -/
def parseSendPlanStatus : String → Result SendPlanStatus
  | "planned" => pure .planned
  | "approved" => pure .approved
  | "applying" => pure .applying
  | "sent" => pure .sent
  | "failed" => pure .failed
  | "ambiguous" => pure .ambiguous
  | "expired" => pure .expired
  | _ => .error storeReadError

/-- The send plan a legacy row stands for, read off its own columns. -/
def legacyPlan (row : SendPlanRow) : Result SendPlan := do
  let status ← parseSendPlanStatus row.status
  let createdAt ← parseTimestamp env row.createdAt
  let expiresAt ← parseTimestamp env row.expiresAt
  let approvedAt ← decodeOption (parseTimestamp env) row.approvedAt
  let updatedAt ← parseTimestamp env row.updatedAt
  ensure (row.attemptCount < 2 ^ 32) storeReadError
  let lastError ←
    decodeOption (fun s => orRefuse (env.mailError.decode s) storeReadError) row.lastErrorJson
  let request ← orRefuse (env.sendRequest.decode row.requestJson) storeReadError
  let attachmentSummaries ← request.attachmentSummaries env
  let receipt ← decodeOption (fun s => orRefuse (env.sendReceipt.decode s) storeReadError)
    row.receiptJson
  pure {
    id := row.id
    request := request
    contentSha256 := row.contentSha256
    messageId := row.messageId
    attachmentSummaries := attachmentSummaries
    status := status
    createdAt := createdAt
    expiresAt := expiresAt
    approvedAt := approvedAt
    updatedAt := updatedAt
    attemptCount := row.attemptCount
    lastError := lastError
    receipt := receipt }

/-- Distinct statuses have distinct names. -/
theorem operationStatusName_injective : Function.Injective operationStatusName := by
  intro a b h
  cases a <;> cases b <;> first | rfl | exact absurd h (by decide)

variable {env}

/-- **The facade reads off the migrated row the plan that the legacy row stands for.** -/
theorem plan_of_migrated {row : SendPlanRow} {operation : OperationRow}
    (hrow : row.Becomes operation) (hstatus : ∃ status, sendPlanStatusName status = row.status)
    (hdigest : row.contentSha256 = env.payloadDigest row.requestJson) :
    (operationFromRow env operation >>= sendPlanFromOperation env) = legacyPlan env row := by
  obtain ⟨status, hs⟩ := hstatus
  obtain ⟨migrated, -, hname, hback⟩ := migratedStatus_parses status
  have hmigrated : operation.status = migrated :=
    operationStatusName_injective (by rw [hname, hs]; exact hrow.status)
  have hlegacy : parseSendPlanStatus row.status = .ok status := by
    rw [← hs]
    cases status <;> rfl
  have hkept : ∀ (h : Decidable True) (e : MailError), @ensure _ True h e = .ok () :=
    fun _ _ => ensure_ok.mpr trivial
  have hok : ensure (row.contentSha256 = env.payloadDigest row.requestJson) storeReadError = .ok () :=
    ensure_ok.mpr hdigest
  have hsome : ∀ (f : String → Result DateTime) (s : String),
      decodeOption f (some s) = f s >>= fun t => pure (some t) := fun _ _ => rfl
  have hgiven : ∀ {α : Type} (a : α) (e : MailError), orRefuse (some a) e = .ok a := fun _ _ => rfl
  have hbind : ∀ {α β : Type} (a : α) (f : α → Result β), (Except.ok a >>= f) = f a :=
    fun _ _ => rfl
  obtain ⟨hid, hkind, haccount, hmessage, hpayload, hsha, -, hcreated, hexpires, happroved,
    hupdated, hattempts, herror, hreceipt⟩ := hrow
  -- both sides read the same columns in the same order
  simp only [operationFromRow, sendPlanFromOperation, legacyPlan, hlegacy, hid, hkind, haccount,
    hmessage, hpayload, hsha, hcreated, hexpires, happroved, hupdated, hattempts, herror, hreceipt,
    hmigrated, hback, hok, hkept, hsome, hgiven, hbind, bind_assoc, pure_bind]

end Meaning

/-! ## 7. The whole migration -/

/-- **Opening an outbox of schema 1.** -/
theorem opening_migrates (env : External) (table : SendPlanTable)
    (hdigest : ∀ row ∈ table.rows, row.contentSha256 = env.payloadDigest row.requestJson) :
    ∃ migrated, migrate noFault (.v1 table) = (.ok (), migrated) ∧ table.MigratedTo migrated ∧
      (∀ row ∈ table.rows, ∀ operation, row.Becomes operation →
        (operationFromRow env operation >>= sendPlanFromOperation env) = legacyPlan env row) ∧
      (migrate noFault migrated = (.ok (), migrated) ∧ ∀ openings : List Faults,
        openings.foldl (fun file faults => (migrate faults file).2) migrated = migrated) ∧
      (∀ faults, migrate faults (.v1 table) = (.ok (), migrated) ∨
        ∃ e, migrate faults (.v1 table) = (.error e, .v1 table)) ∧
      ∀ s, Reaches (Unopened table) OpeningStep s → s.file = .v1 table ∨ s.file = migrated := by
  obtain ⟨migrated, hrun, hm⟩ := migrateTransaction_v1 table
  have hfirst : ∀ faults, migrate faults (.v1 table) = (.ok (), migrated) ∨
      ∃ e, migrate faults (.v1 table) = (.error e, .v1 table) := by
    intro faults
    unfold migrate
    cases faults .readVersion with
    | true => exact .inr ⟨_, rfl⟩
    | false =>
        rcases migrateFrom_cases faults 1 (.v1 table) with he | ⟨htwo, -⟩ | ⟨-, file', hok, he⟩
        · exact .inr he
        · cases htwo
        · have := migrateTransaction_noFault hok
          rw [hrun] at this
          obtain rfl := Except.ok.inj this
          exact .inl he
  refine ⟨migrated, ?_, hm, fun row hrow operation hbecome =>
    plan_of_migrated hbecome (table.statuses row hrow) (hdigest row hrow), ⟨?_, fun openings => ?_⟩,
    hfirst, fun s hs => openings_settle hrun hm hs⟩
  · change migrateFrom noFault 1 (.v1 table) = _
    unfold migrateFrom
    rw [if_neg (by decide), if_neg (by decide), hrun]
  · have hversion : migrate noFault migrated = migrateFrom noFault 2 migrated := by
      rw [← hm.version]
      rfl
    rw [hversion]
    rfl
  · induction openings with
    | nil => rfl
    | cons faults openings ih => rw [List.foldl_cons, migrate_of_migrated hm faults, ih]

namespace MigrationSample

def personalJson : String := "\x7b\"account_id\":\"personal\"\x7d"

def workJson : String := "\x7b\"account_id\":\"work\"\x7d"

def personalDigest : String := "ecb8a8e7de34d79797f0ef5b89304d3a8d942014ca334abd855ac28e121d4a9c"

def workDigest : String := "f455e0d1267f8abea4c9940518147053b79d5906d787927cffeb5837536c89db"

/-- A plan that was sent. -/
def sentRow : SendPlanRow where
  id := "5f0c1a52-6d6c-4c53-9a3e-0f6c6a1b2c3d"
  accountId := "personal"
  requestJson := personalJson
  contentSha256 := personalDigest
  messageId := "<5f0c1a52@example.com>"
  status := "sent"
  createdAt := "1970-01-01T00:00:00.000000Z"
  expiresAt := "1970-01-02T00:00:00.000000Z"
  approvedAt := some "1970-01-01T00:00:00.000000Z"
  updatedAt := "1970-01-01T00:00:00.000000Z"
  attemptCount := 1
  lastErrorJson := none
  receiptJson := none

/-- A plan that waits for its approval. -/
def plannedRow : SendPlanRow :=
  { sentRow with
    id := "0b7d3c14-1f7e-4a55-8f0e-2f6d9a7c5e21"
    accountId := "work"
    requestJson := workJson
    contentSha256 := workDigest
    messageId := "<0b7d3c14@example.com>"
    status := "planned"
    approvedAt := none
    attemptCount := 0 }

def table : SendPlanTable where
  rows := [sentRow, plannedRow]
  ids := by decide
  messageIds := by decide
  statuses := by
    intro row hrow
    rcases List.mem_pair.mp hrow with rfl | rfl
    · exact ⟨.sent, rfl⟩
    · exact ⟨.planned, rfl⟩

def env : External :=
  { Sample.env with
    payloadDigest := fun json => if json = personalJson then personalDigest else workDigest }

end MigrationSample

/-- The migration of the two plans: the sent one has succeeded, the other is still planned. -/
theorem opening_migrates_sample : ∃ migrated,
    migrate noFault (.v1 MigrationSample.table) = (.ok (), migrated) ∧
    ∃ l, migrated.ledger = some l ∧ l.operations.map (·.status) = [.succeeded, .planned] ∧
      l.events.map (·.sequence) = [1, 2] := by
  obtain ⟨migrated, hopen, hm, -⟩ := opening_migrates MigrationSample.env MigrationSample.table
    (by decide)
  obtain ⟨l, hl, hbecome, -, hseq⟩ := hm.ledger
  refine ⟨migrated, hopen, l, hl, ?_, hseq⟩
  obtain ⟨sent, rest, hsent, hrest, hops⟩ := List.forall₂_cons_left_iff.mp hbecome
  obtain ⟨planned, rest', hplanned, hnil, hrest'⟩ := List.forall₂_cons_left_iff.mp hrest
  rw [hops, hrest', List.forall₂_nil_left_iff.mp hnil]
  have h₁ : sent.status = .succeeded := operationStatusName_injective hsent.status
  have h₂ : planned.status = .planned := operationStatusName_injective hplanned.status
  simp [h₁, h₂]

end Kirje
