import Kirje.Authority.Transcripts

/-
  File:      Kirje/Authority/Queries.lean
  Subject:   The statements of the authority store: loads by key, the event log,
             the checked writes and the clock
             (crates/kirje-store/src/authority.rs).

  A load is the first row under its key.  Every key a load uses is unique, so under
  the constraints of the schema it is the row of the table that has the key: the
  `load…_iff` lemmas say so, and later proofs use only them.  A write that breaks a
  constraint is refused (`written`).
-/

namespace Kirje.Authority

open Base

/-! ## 1. Loads -/

def loadGrantUse (db : Db) (id : GrantId) : Option GrantUse :=
  db.grants.find? fun g => g.grantId = id

/-- `SELECT grant_id FROM grant_uses WHERE receipt_id=?1`, and the row of that grant. -/
def loadGrantUseByReceipt (db : Db) (id : ReceiptId) : Option GrantUse :=
  db.grants.find? fun g => g.receiptId = id

def loadReceiptById (db : Db) (id : ReceiptId) : Option Receipt :=
  db.receipts.find? fun r => r.receiptId = id

def loadReceiptForChallenge (db : Db) (id : Digest) : Option Receipt :=
  db.receipts.find? fun r => r.challengeId = id

def loadNonceUse (db : Db) (id : Digest) : Option NonceUse :=
  db.nonces.find? fun n => n.challengeId = id

def loadChallenge (db : Db) (id : Digest) : Option Challenge :=
  db.challenges.find? fun c => c.challengeId = id

def loadPendingChallenge (db : Db) (context : Digest) : Option Challenge :=
  db.challenges.find? fun c => c.contextSha256 = context ∧ c.state = .pending

def loadRegisteredStoreById (db : Db) (id : StoreId) : Option Store :=
  db.stores.find? fun s => s.storeId = id

def loadRegisteredStoreByReceipt (db : Db) (id : ReceiptId) : Option Store :=
  db.stores.find? fun s => s.enrolledReceiptId = id

def loadStoreVersionByReceipt (db : Db) (id : ReceiptId) : Option StoreVersion :=
  db.storeVersions.find? fun v => v.enrolledReceiptId = some id

def loadRegisteredAccount (db : Db) (id : AccountId) : Option Account :=
  db.accounts.find? fun a => a.accountId = id

def loadAccountVersion (db : Db) (id : AccountId) (generation : NonZeroU64) :
    Option AccountVersion :=
  db.accountVersions.find? fun v => (v.accountId, v.accountGeneration) = (id, generation)

def loadAccountVersionByTransition (db : Db) (id : TransitionId) : Option AccountVersion :=
  db.accountVersions.find? fun v => v.committedTransitionId = id

def loadAccountTransition (db : Db) (id : TransitionId) : Option Transition :=
  db.transitions.find? fun t => t.transitionId = id

def loadAccountTransitionByGrant (db : Db) (id : GrantId) : Option Transition :=
  db.transitions.find? fun t => t.grantId = id

def loadCredential (db : Db) (id : CredentialId) : Option Credential :=
  db.credentials.find? fun c => c.credentialId = id

def loadCredentialCleanup (db : Db) (id : CleanupId) : Option Cleanup :=
  db.cleanups.find? fun c => c.cleanupId = id

/-! ## 2. What a load finds -/

section Found

variable {db : Db} (h : TablesOk db)
include h

theorem loadGrantUse_iff {id : GrantId} {g : GrantUse} :
    loadGrantUse db id = some g ↔ g ∈ db.grants ∧ g.grantId = id :=
  find_key_iff h.grants.id_unique

theorem loadGrantUseByReceipt_iff {id : ReceiptId} {g : GrantUse} :
    loadGrantUseByReceipt db id = some g ↔ g ∈ db.grants ∧ g.receiptId = id :=
  find_key_iff h.grants.receipt_unique

theorem loadReceiptById_iff {id : ReceiptId} {r : Receipt} :
    loadReceiptById db id = some r ↔ r ∈ db.receipts ∧ r.receiptId = id :=
  find_key_iff h.receipts.id_unique

theorem loadReceiptForChallenge_iff {id : Digest} {r : Receipt} :
    loadReceiptForChallenge db id = some r ↔ r ∈ db.receipts ∧ r.challengeId = id :=
  find_key_iff h.receipts.challenge_unique

theorem loadNonceUse_iff {id : Digest} {n : NonceUse} :
    loadNonceUse db id = some n ↔ n ∈ db.nonces ∧ n.challengeId = id :=
  find_key_iff h.nonces.challenge_unique

theorem loadChallenge_iff {id : Digest} {c : Challenge} :
    loadChallenge db id = some c ↔ c ∈ db.challenges ∧ c.challengeId = id :=
  find_key_iff h.challenges.id_unique

theorem loadRegisteredStoreById_iff {id : StoreId} {s : Store} :
    loadRegisteredStoreById db id = some s ↔ s ∈ db.stores ∧ s.storeId = id :=
  find_key_iff h.stores.id_unique

theorem loadRegisteredStoreByReceipt_iff {id : ReceiptId} {s : Store} :
    loadRegisteredStoreByReceipt db id = some s ↔ s ∈ db.stores ∧ s.enrolledReceiptId = id :=
  find_key_iff h.stores.receipt_unique

theorem loadStoreVersionByReceipt_iff {id : ReceiptId} {v : StoreVersion} :
    loadStoreVersionByReceipt db id = some v ↔
      v ∈ db.storeVersions ∧ v.enrolledReceiptId = some id := by
  have hu := @find_iff_of_unique _ (fun v : StoreVersion => decide (v.enrolledReceiptId = some id))
    db.storeVersions v fun a ha b hb hpa hpb =>
      eq_of_some_key h.storeVersions.receipt_unique ha hb (by simpa using hpa) (by simpa using hpb)
  simpa [loadStoreVersionByReceipt] using hu

theorem loadRegisteredAccount_iff {id : AccountId} {a : Account} :
    loadRegisteredAccount db id = some a ↔ a ∈ db.accounts ∧ a.accountId = id :=
  find_key_iff h.accounts.id_unique

theorem loadAccountVersion_iff {id : AccountId} {generation : NonZeroU64} {v : AccountVersion} :
    loadAccountVersion db id generation = some v ↔
      v ∈ db.accountVersions ∧ v.accountId = id ∧ v.accountGeneration = generation := by
  have hk := @find_key_iff _ _ _ (fun v : AccountVersion => (v.accountId, v.accountGeneration)) _
    h.accountVersions.key_unique (id, generation) v
  rwa [Prod.mk.injEq] at hk

theorem loadAccountVersionByTransition_iff {id : TransitionId} {v : AccountVersion} :
    loadAccountVersionByTransition db id = some v ↔
      v ∈ db.accountVersions ∧ v.committedTransitionId = id :=
  find_key_iff h.accountVersions.transition_unique

theorem loadAccountTransition_iff {id : TransitionId} {t : Transition} :
    loadAccountTransition db id = some t ↔ t ∈ db.transitions ∧ t.transitionId = id :=
  find_key_iff h.transitions.id_unique

theorem loadAccountTransitionByGrant_iff {id : GrantId} {t : Transition} :
    loadAccountTransitionByGrant db id = some t ↔ t ∈ db.transitions ∧ t.grantId = id :=
  find_key_iff h.transitions.grant_unique

theorem loadCredential_iff {id : CredentialId} {c : Credential} :
    loadCredential db id = some c ↔ c ∈ db.credentials ∧ c.credentialId = id :=
  find_key_iff h.credentials.id_unique

theorem loadCredentialCleanup_iff {id : CleanupId} {c : Cleanup} :
    loadCredentialCleanup db id = some c ↔ c ∈ db.cleanups ∧ c.cleanupId = id :=
  find_key_iff h.cleanups.id_unique

end Found

/-! ## 3. The event log -/

/-- The events of an entity with a code, in order. -/
def eventsOf (db : Db) (entityKind : Nat) (entityId : Bytes) (eventCode : Nat) : List Event :=
  db.events.filter fun e =>
    e.entityKind = entityKind ∧ e.entityId = entityId ∧ e.eventCode = eventCode

/-- `load_single_entity_event`: there is exactly one. -/
def loadSingleEntityEvent (db : Db) (entityKind : Nat) (entityId : Bytes) (eventCode : Nat) :
    Option Event :=
  match eventsOf db entityKind entityId eventCode with
  | [e] => some e
  | _ => none

def loadEventBySequence (db : Db) (sequence : Nat) : Option Event :=
  db.events.find? fun e => e.sequence = sequence

theorem loadSingleEntityEvent_iff {db : Db} {k : Nat} {i : Bytes} {c : Nat} {e : Event} :
    loadSingleEntityEvent db k i c = some e ↔ eventsOf db k i c = [e] := by
  unfold loadSingleEntityEvent
  split
  · next e' he => simp [he]
  · next hne =>
      constructor
      · intro hn
        cases hn
      · intro he
        exact absurd he (hne e)

theorem loadEventBySequence_iff {db : Db} (h : TablesOk db) {n : Nat} {e : Event} :
    loadEventBySequence db n = some e ↔ e ∈ db.events ∧ e.sequence = n :=
  find_key_iff h.events.sequence_unique

/-! ## 4. Times -/

/-- `Utc.timestamp_millis_opt(value).single()` is some. -/
def Representable (value : Int) : Prop := -8334601228800000 ≤ value ∧ value ≤ 8210266876799999

instance (value : Int) : Decidable (Representable value) := inferInstanceAs (Decidable (_ ∧ _))

def utcMillis (value : Int) : Result Int := do
  ensure (Representable value) recoveryError
  pure value

def inputUtcMillis (value : Int) : Result Unit :=
  ensure (Representable value) (.invalid "authority timestamp is outside the contract")

/-- `checked_clock`: no more than the tolerance behind, and never backwards. -/
def checkedClock (last observed : Int) : Result Int := do
  ensure (last - 30000 ≤ observed)
    (.stable .clockRollbackDetected "authority clock moved beyond the accepted tolerance")
  pure (max last observed)

/-! ## 5. Writes -/

/-- A statement is refused if it leaves a constraint broken. -/
def written (db : Db) : Result Db := do
  ensure (SchemaOk db) storeWriteError
  pure db

/-- The same while the foreign keys are deferred. -/
def writtenDeferred (db : Db) : Result Db := do
  ensure (TablesOk db) storeWriteError
  pure db

/-- `observe_clock_pair`. -/
def observeClockPair (db : Db) (effective : Int) : Result Db :=
  written { db with
    metaRow := { db.metaRow with lastObservedAt := effective, updatedAt := effective } }

/-- `insert_typed_event`: the next row of the log. -/
def appendEvent (env : Platform) (db : Db) (e : EventSpec) : Db :=
  { db with
    events := db.events ++ [e.row env (db.sequenceHighWater + 1)]
    sequenceHighWater := db.sequenceHighWater + 1 }

def insertTypedEvent (env : Platform) (db : Db) (e : EventSpec) : Result Db :=
  written (appendEvent env db e)

end Kirje.Authority
