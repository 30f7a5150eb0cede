import Kirje.Ledger.Trail

/-
  File:      Kirje/Ledger/Facade.lean
  Subject:   Which errors of the send facade leave the ledger as it was.

  Each call of the facade commits a call of the ledger and then reads a send plan
  out of the record (`projected`).  The ledger's call is all or nothing, and when it
  is admitted is said exactly by `FacadeCall.Admits`; what is left is whether the
  row it wrote is a send plan.

  * `FacadeCall.call_ok_iff`: the ledger admits a call, and what it then returns.
  * **`facade_error_atomic_iff`**: the errors of a call are atomic if and only if
    the row it is admitted on is a send plan.
  * `claim_of_mailbox_operation`: a send claim that fails and takes the operation.
-/

namespace Kirje

open Base

section Calls

variable {env : External} {l l' : Ledger}

/-! ## 1. Reads -/

/-- The row can be read back. -/
def Readable (env : External) (r : OperationRow) : Prop := ∃ record, operationFromRow env r = .ok record

/-- In a ledger with distinct identifiers, what is read is the row. -/
theorem operationInTransaction_eq (hd : l.Distinct) {r : OperationRow} (hr : r ∈ l.operations) :
    operationInTransaction env l r.id = decodeOption (operationFromRow env) (some r) := by
  unfold operationInTransaction
  rw [(find_key_iff hd).mpr ⟨hr, rfl⟩]

theorem operationInTransaction_ok_iff {id : String} (hd : l.Distinct) {record : OperationRecord} :
    operationInTransaction env l id = .ok (some record) ↔
      ∃ r ∈ l.operations, r.id = id ∧ operationFromRow env r = .ok record := by
  constructor
  · intro h
    unfold operationInTransaction at h
    cases hf : l.operations.find? fun row => row.id = id with
    | none => rw [hf] at h; simp [decodeOption] at h
    | some r =>
        rw [hf] at h
        simp only [decodeOption, bind_ok, pure_ok, Option.some.injEq] at h
        obtain ⟨record, hr, rfl⟩ := h
        obtain ⟨hm, hid⟩ := (find_key_iff hd).mp hf
        exact ⟨r, hm, hid, hr⟩
  · rintro ⟨r, hr, rfl, hrec⟩
    rw [operationInTransaction_eq hd hr]
    simp only [decodeOption, bind_ok, pure_ok, Option.some.injEq]
    exact ⟨record, hrec, rfl⟩

/-- An update that keeps identifiers keeps them distinct. -/
theorem distinct_of_update {p : OperationRow → Bool} {g : OperationRow → OperationRow}
    (hg : ∀ r, (g r).id = r.id) (hd : l.Distinct) :
    Ledger.Distinct { l with operations := update p g l.operations } := by
  unfold Ledger.Distinct
  rw [map_update (g := fun r : OperationRow => r.id) hg]
  exact hd

/-- **Reading back the row just written.** -/
theorem read_written_iff {p : OperationRow → Bool} {g : OperationRow → OperationRow}
    (hg : ∀ r, (g r).id = r.id) (hd : l.Distinct) {r : OperationRow} (hr : r ∈ l.operations)
    (hp : p r = true) {record : OperationRecord} :
    operationInTransaction env { l with operations := update p g l.operations } r.id =
        .ok (some record) ↔ operationFromRow env (g r) = .ok record := by
  have hd' := distinct_of_update (p := p) hg hd
  have hm : g r ∈ update p g l.operations := mem_update.mpr ⟨r, hr, by rw [if_pos hp]⟩
  rw [operationInTransaction_ok_iff hd']
  constructor
  · rintro ⟨x, hx, hid, hrec⟩
    obtain rfl := eq_of_key_eq hd' hx hm (hid.trans (hg r).symm)
    exact hrec
  · exact fun hrec => ⟨g r, hm, hg r, hrec⟩

/-! ## 2. When reconciliation succeeds -/

theorem eventOfRow_ok_iff {p : OperationRow → Bool} {g : OperationRow → OperationRow}
    (hg : ∀ r, (g r).id = r.id) (hd : l.Distinct) {r : OperationRow} (hr : r ∈ l.operations)
    (hp : p r = true) (event : String) (status : OperationStatus) :
    (∃ l', eventOfRow env { l with operations := update p g l.operations } r.id event status =
      .ok l') ↔ Readable env (g r) := by
  unfold eventOfRow
  constructor
  · rintro ⟨l', h⟩
    obtain ⟨o, ho, -⟩ := bind_ok.mp h
    cases o with
    | none =>
        have hm : g r ∈ ({ l with operations := update p g l.operations } : Ledger).operations :=
          mem_update.mpr ⟨r, hr, by rw [if_pos hp]⟩
        rw [← hg r] at ho
        exact (operationInTransaction_none hm ho).elim
    | some record => exact ⟨record, (read_written_iff hg hd hr hp).mp ho⟩
  · rintro ⟨record, hrec⟩
    exact ⟨_, bind_ok.mpr ⟨some record, (read_written_iff hg hd hr hp).mpr hrec, rfl⟩⟩

/-- A fold of writes, each of a row of its own, succeeds where every row it writes can be read
    back. -/
theorem fold_ok_iff {f : Ledger → String → Result Ledger} {q : OperationRow → Bool}
    {g : OperationRow → OperationRow} (hg : ∀ r, (g r).id = r.id)
    (hf : ∀ l r, l.Distinct → r ∈ l.operations → q r = true →
      ((∃ l', f l r.id = .ok l') ↔ Readable env (g r)))
    (hrows : ∀ l i l', f l i = .ok l' →
      l'.operations = update (fun r => decide (r.id = i) && q r) g l.operations)
    {ids : List String} (hn : ids.Nodup) {l : Ledger} (hd : l.Distinct)
    (hids : ∀ i ∈ ids, ∃ r ∈ l.operations, r.id = i ∧ q r = true) :
    (∃ l', ids.foldlM f l = .ok l') ↔ ∀ r ∈ l.operations, r.id ∈ ids → Readable env (g r) := by
  induction ids generalizing l with
  | nil => simp [pure_ok]
  | cons i ids ih =>
      obtain ⟨hi, hrestn⟩ := List.nodup_cons.mp hn
      obtain ⟨r, hr, rfl, hq⟩ := hids _ List.mem_cons_self
      have hstep : (∃ l', (r.id :: ids).foldlM f l = .ok l') ↔
          ∃ l₁, f l r.id = .ok l₁ ∧ ∃ l', ids.foldlM f l₁ = .ok l' := by
        simp only [List.foldlM_cons, bind_ok]
        exact exists_comm.trans (exists_congr fun l₁ => exists_and_left)
      -- The rows still to come are the same before and after this one is written.
      have hrest : ∀ l₁, f l r.id = .ok l₁ → ((∃ l', ids.foldlM f l₁ = .ok l') ↔
          ∀ x ∈ l.operations, x.id ∈ ids → Readable env (g x)) := by
        intro l₁ h₁
        have hrows₁ := hrows l r.id l₁ h₁
        have hd₁ : l₁.Distinct := by
          have := distinct_of_update (p := fun x => decide (x.id = r.id) && q x) hg hd
          unfold Ledger.Distinct at this ⊢
          rw [hrows₁]
          exact this
        have hsame : ∀ x, x.id ∈ ids → (x ∈ l₁.operations ↔ x ∈ l.operations) := by
          intro x hx
          have hne : x.id ≠ r.id := fun h => hi (h ▸ hx)
          rw [hrows₁, mem_update]
          constructor
          · rintro ⟨y, hy, he⟩
            by_cases hp : (decide (y.id = r.id) && q y) = true
            · rw [if_pos hp] at he
              simp only [Bool.and_eq_true, decide_eq_true_eq] at hp
              exact absurd (he ▸ (hg y).trans hp.1) hne
            · rw [if_neg hp] at he
              exact he ▸ hy
          · intro hx
            exact ⟨x, hx, by rw [if_neg (by simp [hne])]⟩
        rw [ih hrestn hd₁]
        · exact ⟨fun h x hx hxi => h x ((hsame x hxi).mpr hx) hxi,
            fun h x hx hxi => h x ((hsame x hxi).mp hx) hxi⟩
        · intro j hj
          obtain ⟨x, hx, rfl, hqx⟩ := hids j (List.mem_cons_of_mem _ hj)
          exact ⟨x, (hsame x hj).mpr hx, rfl, hqx⟩
      rw [hstep]
      constructor
      · rintro ⟨l₁, h₁, h₂⟩ x hx hxi
        rcases List.mem_cons.mp hxi with hxi | hxi
        · obtain rfl := eq_of_key_eq hd hx hr hxi
          exact (hf l x hd hx hq).mp ⟨l₁, h₁⟩
        · exact (hrest l₁ h₁).mp h₂ x hx hxi
      · intro h
        obtain ⟨l₁, h₁⟩ := (hf l r hd hr hq).mpr (h r hr List.mem_cons_self)
        exact ⟨l₁, h₁, (hrest l₁ h₁).mpr fun x hx hxi => h x hx (List.mem_cons_of_mem _ hxi)⟩

/-- Reconciliation can write and read back every row it moves. -/
def Reconcilable (env : External) (now : DateTime) (l : Ledger) : Prop :=
  ∃ errorJson, env.mailError.encode staleError = some errorJson ∧ ∀ r ∈ l.operations,
    (r.due env now = true → Readable env (expiredRow env now r)) ∧
      (r.stale env now = true → Readable env (ambiguousRow env now errorJson r))

/-- A claim that is old is not due. -/
theorem not_due_of_stale {now : DateTime} {r : OperationRow} (h : r.stale env now = true) :
    r.due env now = false := by
  simp only [OperationRow.stale, Bool.and_eq_true, decide_eq_true_eq] at h
  simp [OperationRow.due, h.1.2, OperationStatus.unclaimed]

theorem mem_expired_of_stale {now : DateTime} {rows : List OperationRow} {r : OperationRow} :
    r ∈ update (·.due env now) (expiredRow env now) rows ∧ r.stale env now = true ↔
      r ∈ rows ∧ r.stale env now = true := by
  refine and_congr_left fun hst => ?_
  rw [mem_update]
  constructor
  · rintro ⟨y, hy, he⟩
    by_cases hdue : y.due env now = true
    · rw [if_pos hdue] at he
      rw [← he] at hst
      simp [OperationRow.stale, expiredRow] at hst
    · rw [if_neg hdue] at he
      exact he ▸ hy
  · exact fun hr => ⟨r, hr, by rw [if_neg (by simp [not_due_of_stale hst])]⟩

/-- The same for a fold over a selection of the table. -/
theorem selection_ok_iff (p : OperationRow → Bool) {f : Ledger → String → Result Ledger}
    (q : OperationRow → Bool) (g : OperationRow → OperationRow) (event : String)
    (status : OperationStatus) (hpq : ∀ r, p r = true → q r = true) (hg : ∀ r, (g r).id = r.id)
    (hf : ∀ l i, f l i = eventOfRow env
      { l with operations := update (fun r => decide (r.id = i) && q r) g l.operations }
      i event status) (hd : l.Distinct) :
    (∃ l', ((l.operations.filter p).map (·.id)).foldlM f l = .ok l') ↔
      ∀ r ∈ l.operations, p r = true → Readable env (g r) := by
  obtain ⟨hn, hids⟩ := ids_of_filter hd hpq
  rw [fold_ok_iff hg ?_ ?_ hn hd hids]
  · refine forall₂_congr fun r hr => ?_
    rw [mem_ids_of_filter hd hr]
  · intro l r hd hr hq
    rw [hf]
    exact eventOfRow_ok_iff hg hd hr (by simp [hq]) event status
  · intro l i l' h
    rw [hf] at h
    exact eventOfRow_rows h

/-- **When reconciliation succeeds.** -/
theorem reconcile_ok_iff {now : DateTime} (hd : l.Distinct) :
    (∃ l', reconcileOperations env now l = .ok l') ↔ Reconcilable env now l := by
  have hdue : ∀ r : OperationRow, r.due env now = true → r.status.unclaimed = true := by
    intro r hr
    simp only [OperationRow.due, Bool.and_eq_true] at hr
    exact hr.1
  have hstale : ∀ r : OperationRow, r.stale env now = true → decide (r.status = .applying) = true := by
    intro r hr
    simp only [OperationRow.stale, Bool.and_eq_true] at hr
    exact hr.1.2
  have hexpire : (∃ l', ((l.operations.filter (·.due env now)).map (·.id)).foldlM
      (expireOperation env now) l = .ok l') ↔
        ∀ r ∈ l.operations, r.due env now = true → Readable env (expiredRow env now r) :=
    selection_ok_iff _ (·.status.unclaimed) (expiredRow env now) "expired" .expired hdue
      (fun _ => rfl) (fun _ _ => rfl) hd
  have hrows : ∀ l₁, ((l.operations.filter (·.due env now)).map (·.id)).foldlM
      (expireOperation env now) l = .ok l₁ →
      l₁.operations = update (·.due env now) (expiredRow env now) l.operations := fun l₁ h₁ =>
    rows_of_selection (q := (·.status.unclaimed)) (g := expiredRow env now) hdue (fun _ => ⟨rfl, rfl⟩)
      (fun _ _ _ h => eventOfRow_rows h) hd h₁
  have hambiguate : ∀ (l₁ : Ledger) (errorJson : String), l₁.operations = update (·.due env now) (expiredRow env now)
      l.operations → ((∃ l', ((l₁.operations.filter (·.stale env now)).map (·.id)).foldlM
        (ambiguateOperation env now errorJson) l₁ = .ok l') ↔ ∀ r ∈ l.operations,
          r.stale env now = true → Readable env (ambiguousRow env now errorJson r)) := by
    intro l₁ errorJson hl₁
    have hd₁ : l₁.Distinct := by
      unfold Ledger.Distinct
      rw [hl₁]
      exact distinct_of_update (g := expiredRow env now) (fun _ => rfl) hd
    refine (selection_ok_iff _ (fun r => decide (r.status = .applying))
      (ambiguousRow env now errorJson) "reconciled_ambiguous" .ambiguous hstale (fun _ => rfl)
      (fun _ _ => rfl) hd₁).trans ?_
    rw [hl₁]
    constructor
    · exact fun h r hr hst => h r (mem_expired_of_stale.mpr ⟨hr, hst⟩).1 hst
    · exact fun h r hr hst => h r (mem_expired_of_stale.mp ⟨hr, hst⟩).1 hst
  unfold reconcileOperations
  simp only [bind_ok, orRefuse_ok]
  constructor
  · rintro ⟨l', l₁, h₁, errorJson, he, h₂⟩
    have hex := hexpire.mp ⟨l₁, h₁⟩
    have ham := (hambiguate l₁ errorJson (hrows l₁ h₁)).mp ⟨l', h₂⟩
    exact ⟨errorJson, he, fun r hr => ⟨hex r hr, ham r hr⟩⟩
  · rintro ⟨errorJson, he, h⟩
    obtain ⟨l₁, h₁⟩ := hexpire.mpr fun r hr => (h r hr).1
    obtain ⟨l', h₂⟩ := (hambiguate l₁ errorJson (hrows l₁ h₁)).mpr fun r hr => (h r hr).2
    exact ⟨l', l₁, h₁, errorJson, he, h₂⟩

/-! ## 3. When the ledger admits a call -/

/-- What a transition makes of its row. -/
def transitionedRow (env : External) (now : DateTime) (target : OperationStatus) (approve : Bool)
    (row : OperationRow) : OperationRow :=
  { row with
    status := target
    approvedAt := if approve then some (env.timestamp now) else row.approvedAt
    updatedAt := env.timestamp now
    attemptCount := row.attemptCount + if target = .applying then 1 else 0 }

/-- What a finish makes of its row. -/
def finishedRow (env : External) (now : DateTime) (status : OperationStatus)
    (errorJson receiptJson : Option String) (row : OperationRow) : OperationRow :=
  { row with
    status := status
    updatedAt := env.timestamp now
    lastErrorJson := errorJson
    receiptJson := receiptJson }

theorem reconcile_distinct {now : DateTime} (hd : l.Distinct)
    (h : reconcileOperations env now l = .ok l') : l'.Distinct :=
  Advances.distinct (reconcile_advances hd h : Advances (fun _ => True) none l l') hd

/-- Reconciliation leaves alone the rows that are unclaimed after it. -/
theorem reconciledRow_unclaimed {now : DateTime} (errorJson : String) {r : OperationRow}
    (h : (reconciledRow env now errorJson r).status.unclaimed = true) :
    r.due env now = false ∧ reconciledRow env now errorJson r = r := by
  unfold reconciledRow at h ⊢
  by_cases hdue : r.due env now = true
  · rw [if_pos hdue] at h
    exact absurd h (by simp [expiredRow, OperationStatus.unclaimed])
  · rw [if_neg hdue] at h ⊢
    by_cases hst : r.stale env now = true
    · rw [if_pos hst] at h
      exact absurd h (by simp [ambiguousRow, OperationStatus.unclaimed])
    · rw [if_neg hst]
      exact ⟨by simpa using hdue, rfl⟩

/-- **When a transition is admitted**, and the record it returns. -/
theorem transition_ok_iff {id : String} {now : DateTime} {source target : OperationStatus}
    {approve : Bool} {record : OperationRecord} (hs : source.unclaimed = true) (hd : l.Distinct) :
    (∃ l', operationTransition env id now source target approve l = .ok (record, l')) ↔
      env.parseUuid id = true ∧ Reconcilable env now l ∧ ∃ r ∈ l.operations, r.id = id ∧
        r.kind ≠ "draft" ∧ r.status = source ∧ r.due env now = false ∧ Readable env r ∧
        operationFromRow env (transitionedRow env now target approve r) = .ok record := by
  simp only [operationTransition, validateOperationId, bind_ok, pure_ok, ensure_ok, orRefuse_ok,
    Prod.mk.injEq]
  constructor
  · rintro ⟨l', _, hid, l₁, h₁, _, hx, existing, rfl, _, hk, _, hst, _, hy, updated, rfl, rfl, rfl⟩
    obtain ⟨errorJson, hrows⟩ := reconcile_rows hd h₁
    have hd₁ := reconcile_distinct hd h₁
    obtain ⟨x, hxm, rfl, hrec⟩ := (operationInTransaction_ok_iff hd₁).mp hx
    have hof := operationFromRow_of hrec
    have hxs : x.status = source := hof.status.symm.trans hst
    obtain ⟨r, hr, hrx⟩ := List.mem_map.mp (hrows ▸ hxm)
    obtain ⟨hdue, hself⟩ := reconciledRow_unclaimed errorJson (r := r)
      (by rw [hrx, hxs]; exact hs)
    obtain rfl : r = x := hself.symm.trans hrx
    refine ⟨hid, (reconcile_ok_iff hd).mp ⟨l₁, h₁⟩, r, hr, rfl, hof.kind ▸ hk, hxs, hdue,
      ⟨_, hrec⟩, ?_⟩
    exact (read_written_iff (g := transitionedRow env now target approve) (fun _ => rfl) hd₁ hxm
      (by simp [hxs])).mp hy
  · rintro ⟨hid, hrec, r, hr, rfl, hk, hst, hdue, ⟨existing, hread⟩, hwritten⟩
    obtain ⟨l₁, h₁⟩ := (reconcile_ok_iff hd).mpr hrec
    obtain ⟨errorJson, hrows⟩ := reconcile_rows hd h₁
    have hd₁ := reconcile_distinct hd h₁
    have hself : reconciledRow env now errorJson r = r :=
      reconciledRow_self errorJson (fun h => by rw [← hst, h] at hs; cases hs) hdue
    have hr₁ : r ∈ l₁.operations := by
      rw [hrows]
      exact List.mem_map.mpr ⟨r, hr, hself⟩
    have hof := operationFromRow_of hread
    have hy := (read_written_iff (p := fun row => decide (row.id = r.id) && decide (row.status = source))
      (g := transitionedRow env now target approve) (fun _ => rfl) hd₁ hr₁ (by simp [hst])).mpr hwritten
    exact ⟨_, (), hid, l₁, h₁, _, (operationInTransaction_ok_iff hd₁).mpr ⟨r, hr₁, rfl, hread⟩,
      existing, rfl, (), hof.kind ▸ hk, (), hof.status.trans hst, _, hy, record, rfl, rfl, rfl⟩

theorem encoded_ok_iff {error : Option MailError} {errorJson : Option String} :
    decodeOption (fun e => orRefuse (env.mailError.encode e) storeWriteError) error = .ok errorJson ↔
      error.all (fun e => (env.mailError.encode e).isSome) = true ∧
        errorJson = error.bind env.mailError.encode := by
  cases error with
  | none =>
      simp only [decodeOption, pure_ok, Option.all_none, Option.bind_none, true_and]
      exact eq_comm
  | some e =>
      simp only [decodeOption, bind_ok, orRefuse_ok, pure_ok, Option.all_some, Option.bind_some]
      constructor
      · rintro ⟨json, he, rfl⟩
        simp [he]
      · rintro ⟨hs, rfl⟩
        obtain ⟨json, he⟩ := Option.isSome_iff_exists.mp hs
        exact ⟨json, he, he.symm⟩

/-- **When a finish is admitted**, and the record it returns. -/
theorem finish_ok_iff {id : String} {now : DateTime} {status : OperationStatus}
    {error : Option MailError} {receiptJson : Option String} {record : OperationRecord}
    (hd : l.Distinct) :
    (∃ l', finishOperation env id now status error receiptJson l = .ok (record, l')) ↔
      env.parseUuid id = true ∧ error.all (fun e => (env.mailError.encode e).isSome) = true ∧
        ∃ r ∈ l.operations, r.id = id ∧ r.status = .applying ∧ Readable env r ∧
          operationFromRow env (finishedRow env now status (error.bind env.mailError.encode)
            receiptJson r) = .ok record := by
  simp only [finishOperation, validateOperationId, bind_ok, pure_ok, ensure_ok, orRefuse_ok,
    encoded_ok_iff, Prod.mk.injEq]
  constructor
  · rintro ⟨l', _, hid, _, ⟨he, rfl⟩, _, hx, existing, rfl, _, hst, _, hy, updated, rfl, rfl, rfl⟩
    obtain ⟨x, hxm, rfl, hrec⟩ := (operationInTransaction_ok_iff hd).mp hx
    have hxs : x.status = .applying := (operationFromRow_of hrec).status.symm.trans hst
    refine ⟨hid, he, x, hxm, rfl, hxs, ⟨_, hrec⟩, ?_⟩
    exact (read_written_iff (g := finishedRow env now status (error.bind env.mailError.encode)
      receiptJson) (fun _ => rfl) hd hxm (by simp [hxs])).mp hy
  · rintro ⟨hid, he, r, hr, rfl, hst, ⟨existing, hread⟩, hwritten⟩
    have hy := (read_written_iff (p := fun row => decide (row.id = r.id) && decide (row.status = .applying))
      (g := finishedRow env now status (error.bind env.mailError.encode) receiptJson)
      (fun _ => rfl) hd hr (by simp [hst])).mpr hwritten
    exact ⟨_, (), hid, _, ⟨he, rfl⟩, _, (operationInTransaction_ok_iff hd).mpr ⟨r, hr, rfl, hread⟩,
      existing, rfl, (), (operationFromRow_of hread).status.trans hst, _, hy, record, rfl, rfl, rfl⟩

/-! ## 4. The facade -/

/-- The calls of the facade that move a row. -/
inductive FacadeCall where
  | approve (planId : String) (now : DateTime)
  | claim (planId : String) (now : DateTime)
  | markSent (planId : String) (receipt : SendReceipt)
  | markFailed (planId : String) (error : MailError) (now : DateTime)
  | markAmbiguous (planId : String) (error : MailError) (now : DateTime)

def FacadeCall.planId : FacadeCall → String
  | .approve planId _ | .claim planId _ | .markSent planId _ | .markFailed planId _ _
  | .markAmbiguous planId _ _ => planId

/-- What a call returns and the ledger it leaves. -/
def FacadeCall.run (env : External) (l : Ledger) : FacadeCall → Result SendPlan × Ledger
  | .approve planId now => Outbox.approve env planId now l
  | .claim planId now => Outbox.claim env planId now l
  | .markSent planId receipt => Outbox.markSent env planId receipt l
  | .markFailed planId error now => Outbox.markFailed env planId error now l
  | .markAmbiguous planId error now => Outbox.markAmbiguous env planId error now l

/-- The call of the ledger behind it. -/
def FacadeCall.call (env : External) (l : Ledger) : FacadeCall → Result (OperationRecord × Ledger)
  | .approve planId now => approveOperation env planId now l
  | .claim planId now => claimOperation env planId now l
  | .markSent planId receipt => do
      let receiptJson ← orRefuse (env.sendReceipt.encode receipt) storeWriteError
      succeedOperation env planId receiptJson receipt.sentAt l
  | .markFailed planId error now => failOperation env planId error now l
  | .markAmbiguous planId error now =>
      ambiguousOperation env planId { error with retryable := false } now l

theorem FacadeCall.run_eq (c : FacadeCall) :
    c.run env l = projected (sendPlanFromOperation env) (c.call env l) l := by
  cases c with
  | markSent planId receipt =>
      simp only [FacadeCall.run, FacadeCall.call, Outbox.markSent]
      cases env.sendReceipt.encode receipt <;> rfl
  | _ => rfl

/-- What the ledger checks of the row a call names, on the ledger before the call. -/
def FacadeCall.Admits (env : External) (l : Ledger) (r : OperationRow) : FacadeCall → Prop
  | .approve planId now => env.parseUuid planId = true ∧ Reconcilable env now l ∧
      r.kind ≠ "draft" ∧ r.status = .planned ∧ r.due env now = false
  | .claim planId now => env.parseUuid planId = true ∧ Reconcilable env now l ∧
      r.kind ≠ "draft" ∧ r.status = .approved ∧ r.due env now = false
  | .markSent planId receipt => env.parseUuid planId = true ∧
      (env.sendReceipt.encode receipt).isSome = true ∧ r.status = .applying
  | .markFailed planId error _ => env.parseUuid planId = true ∧
      (env.mailError.encode error).isSome = true ∧ r.status = .applying
  | .markAmbiguous planId error _ => env.parseUuid planId = true ∧
      (env.mailError.encode { error with retryable := false }).isSome = true ∧ r.status = .applying

/-- The row a call writes in the place of the one it names. -/
def FacadeCall.written (env : External) (r : OperationRow) : FacadeCall → OperationRow
  | .approve _ now => transitionedRow env now .approved true r
  | .claim _ now => transitionedRow env now .applying false r
  | .markSent _ receipt =>
      finishedRow env receipt.sentAt .succeeded none (env.sendReceipt.encode receipt) r
  | .markFailed _ error now => finishedRow env now .failed (env.mailError.encode error) none r
  | .markAmbiguous _ error now =>
      finishedRow env now .ambiguous (env.mailError.encode { error with retryable := false }) none r

/-- **When the ledger admits a call**, and the record it then returns. -/
theorem FacadeCall.call_ok_iff (hd : l.Distinct) (c : FacadeCall) {record : OperationRecord} :
    (∃ l', c.call env l = .ok (record, l')) ↔ ∃ r ∈ l.operations, r.id = c.planId ∧
      c.Admits env l r ∧ Readable env r ∧ operationFromRow env (c.written env r) = .ok record := by
  cases c with
  | approve planId now =>
      refine (transition_ok_iff rfl hd).trans ⟨?_, ?_⟩
      · rintro ⟨hid, hrec, r, hr, hr', hk, hst, hdue, hread, hw⟩
        exact ⟨r, hr, hr', ⟨hid, hrec, hk, hst, hdue⟩, hread, hw⟩
      · rintro ⟨r, hr, hr', ⟨hid, hrec, hk, hst, hdue⟩, hread, hw⟩
        exact ⟨hid, hrec, r, hr, hr', hk, hst, hdue, hread, hw⟩
  | claim planId now =>
      refine (transition_ok_iff rfl hd).trans ⟨?_, ?_⟩
      · rintro ⟨hid, hrec, r, hr, hr', hk, hst, hdue, hread, hw⟩
        exact ⟨r, hr, hr', ⟨hid, hrec, hk, hst, hdue⟩, hread, hw⟩
      · rintro ⟨r, hr, hr', ⟨hid, hrec, hk, hst, hdue⟩, hread, hw⟩
        exact ⟨hid, hrec, r, hr, hr', hk, hst, hdue, hread, hw⟩
  | markSent planId receipt =>
      simp only [FacadeCall.call, bind_ok, orRefuse_ok]
      constructor
      · rintro ⟨l', json, he, h⟩
        obtain ⟨hid, -, r, hr, hr', hst, hread, hw⟩ := (finish_ok_iff hd).mp ⟨l', h⟩
        refine ⟨r, hr, hr', ⟨hid, by simp [he], hst⟩, hread, ?_⟩
        rw [FacadeCall.written, he]
        exact hw
      · rintro ⟨r, hr, hr', ⟨hid, hs, hst⟩, hread, hw⟩
        obtain ⟨json, he⟩ := Option.isSome_iff_exists.mp hs
        rw [FacadeCall.written, he] at hw
        have hfinish : ∃ l', succeedOperation env planId json receipt.sentAt l = .ok (record, l') :=
          (finish_ok_iff hd).mpr ⟨hid, rfl, r, hr, hr', hst, hread, hw⟩
        obtain ⟨l', h⟩ := hfinish
        exact ⟨l', json, he, h⟩
  | markFailed planId error now =>
      refine (finish_ok_iff hd).trans ⟨?_, ?_⟩
      · rintro ⟨hid, he, r, hr, hr', hst, hread, hw⟩
        exact ⟨r, hr, hr', ⟨hid, he, hst⟩, hread, hw⟩
      · rintro ⟨r, hr, hr', ⟨hid, he, hst⟩, hread, hw⟩
        exact ⟨hid, he, r, hr, hr', hst, hread, hw⟩
  | markAmbiguous planId error now =>
      refine (finish_ok_iff hd).trans ⟨?_, ?_⟩
      · rintro ⟨hid, he, r, hr, hr', hst, hread, hw⟩
        exact ⟨r, hr, hr', ⟨hid, he, hst⟩, hread, hw⟩
      · rintro ⟨r, hr, hr', ⟨hid, he, hst⟩, hread, hw⟩
        exact ⟨hid, he, r, hr, hr', hst, hread, hw⟩

/-- The row is a send plan. -/
def IsSendPlan (env : External) (r : OperationRow) : Prop :=
  r.kind = "send" ∧
    (∃ request, env.sendRequest.decode r.payloadJson = some request ∧
      ∃ summaries, request.attachmentSummaries env = .ok summaries) ∧
    r.messageId.isSome = true ∧ r.expiresAt.isSome = true ∧
    r.receiptJson.all (fun json => (env.sendReceipt.decode json).isSome) = true

/-- An optional column is read as an optional value. -/
theorem decodeOption_isSome {α β : Type} {f : α → Result β} {a : Option α} {b : Option β}
    (h : decodeOption f a = .ok b) : b.isSome = a.isSome := by
  cases a with
  | none => rw [← pure_ok.mp h]; rfl
  | some a =>
      simp only [decodeOption, bind_ok, pure_ok] at h
      obtain ⟨_, -, rfl⟩ := h
      rfl

theorem receipt_ok_iff {receiptJson : Option String} :
    (∃ receipt, decodeOption (fun s => orRefuse (env.sendReceipt.decode s) storeReadError)
      receiptJson = .ok receipt) ↔
      receiptJson.all (fun json => (env.sendReceipt.decode json).isSome) = true := by
  cases receiptJson with
  | none => simp [decodeOption, pure_ok]
  | some json =>
      simp only [decodeOption, bind_ok, orRefuse_ok, pure_ok, Option.all_some,
        Option.isSome_iff_exists]
      exact ⟨fun ⟨_, a, ha, _⟩ => ⟨a, ha⟩, fun ⟨a, ha⟩ => ⟨some a, a, ha, rfl⟩⟩

/-- **When the record of a row is a send plan.** -/
theorem sendPlan_ok_iff {r : OperationRow} {record : OperationRecord}
    (h : operationFromRow env r = .ok record) :
    (∃ plan, sendPlanFromOperation env record = .ok plan) ↔ IsSendPlan env r := by
  simp only [operationFromRow, bind_ok, pure_ok, ensure_ok] at h
  obtain ⟨_, -, _, -, expiresAt, hx, _, -, _, -, _, -, _, -, rfl⟩ := h
  simp only [sendPlanFromOperation, IsSendPlan, bind_ok, pure_ok, ensure_ok, orRefuse_ok,
    ← receipt_ok_iff, ← decodeOption_isSome hx, Option.isSome_iff_exists]
  constructor
  · rintro ⟨_, _, hk, request, hreq, messageId, hm, summaries, hs, time, ht, receipt, hr, -⟩
    exact ⟨hk, ⟨request, hreq, summaries, hs⟩, ⟨messageId, hm⟩, ⟨time, ht⟩, receipt, hr⟩
  · rintro ⟨hk, ⟨request, hreq, summaries, hs⟩, ⟨messageId, hm⟩, ⟨time, ht⟩, receipt, hr⟩
    exact ⟨_, (), hk, request, hreq, messageId, hm, summaries, hs, time, ht, receipt, hr, rfl⟩

theorem Advances.sequence_le {N : OperationRow → Prop} {named : Option String}
    (h : Advances N named l l') : l.sequence ≤ l'.sequence := by
  induction h with
  | refl => exact Nat.le_refl _
  | tail _ hs ih =>
      cases hs with
      | create => exact Nat.le_succ_of_le ih
      | move => exact Nat.le_succ_of_le ih

/-- An admitted call appends an event. -/
theorem FacadeCall.call_changes (hd : l.Distinct) {c : FacadeCall} {record : OperationRecord}
    (h : c.call env l = .ok (record, l')) : l' ≠ l := by
  suffices hlt : l.sequence < l'.sequence by
    rintro rfl
    exact Nat.lt_irrefl _ hlt
  have htransition : ∀ {id now source target approve},
      operationTransition env id now source target approve l = .ok (record, l') →
        l.sequence < l'.sequence := by
    intro id now source target approve h
    simp only [operationTransition, bind_ok, pure_ok, ensure_ok, orRefuse_ok, Prod.mk.injEq] at h
    obtain ⟨_, -, l₁, h₁, _, -, _, -, _, -, _, -, _, -, _, -, -, rfl⟩ := h
    have := Advances.sequence_le (reconcile_advances hd h₁ : Advances (fun _ => True) none l l₁)
    exact Nat.lt_succ_of_le this
  have hfinish : ∀ {id now status error receiptJson},
      finishOperation env id now status error receiptJson l = .ok (record, l') →
        l.sequence < l'.sequence := by
    intro id now status error receiptJson h
    simp only [finishOperation, bind_ok, pure_ok, ensure_ok, orRefuse_ok, Prod.mk.injEq] at h
    obtain ⟨_, -, _, -, _, -, _, -, _, -, _, -, _, -, -, rfl⟩ := h
    exact Nat.lt_succ_self _
  cases c with
  | approve planId now => exact htransition h
  | claim planId now => exact htransition h
  | markSent planId receipt =>
      simp only [FacadeCall.call, bind_ok] at h
      obtain ⟨json, -, h⟩ := h
      exact hfinish h
  | markFailed planId error now => exact hfinish h
  | markAmbiguous planId error now => exact hfinish h

/-- **The errors of a facade call are atomic if and only if every row the ledger admits it on is a
    send plan.**  The ledger commits before the record is read as a plan, and no call looks at the
    kind of the row before. -/
theorem facade_error_atomic_iff (hd : l.Distinct) (c : FacadeCall) :
    (∀ e, (c.run env l).1 = .error e → (c.run env l).2 = l) ↔
      ∀ r ∈ l.operations, r.id = c.planId → c.Admits env l r → Readable env r →
        Readable env (c.written env r) → IsSendPlan env (c.written env r) := by
  rw [c.run_eq]
  constructor
  · rintro h r hr hid hadm hread ⟨record, hw⟩
    obtain ⟨l', hcall⟩ := (c.call_ok_iff hd).mpr ⟨r, hr, hid, hadm, hread, hw⟩
    rw [← sendPlan_ok_iff hw]
    rw [hcall] at h
    cases hp : sendPlanFromOperation env record with
    | ok plan => exact ⟨plan, rfl⟩
    | error e => exact absurd (h e hp) (FacadeCall.call_changes hd hcall)
  · intro h e he
    cases hcall : c.call env l with
    | error _ => rfl
    | ok x =>
        obtain ⟨record, l'⟩ := x
        obtain ⟨r, hr, hid, hadm, hread, hw⟩ := (c.call_ok_iff hd).mp ⟨l', hcall⟩
        obtain ⟨plan, hp⟩ := (sendPlan_ok_iff hw).mpr (h r hr hid hadm hread ⟨record, hw⟩)
        rw [hcall] at he
        exact absurd (hp.symm.trans he) (by simp)

end Calls

namespace Sample

/-- The mailbox operation of the sample run, as a record. -/
def operation : OperationRecord where
  id := operationId
  kind := "set_read"
  accountId := "personal"
  messageId := none
  payloadJson := requestJson
  payloadSha256 := "1100c563b5eb5c430654ace75ca220459e0d17436065c9b66ed6688de640ab3c"
  status := .planned
  createdAt := 0
  expiresAt := some (DateTime.hours 24)
  approvedAt := none
  updatedAt := 0
  attemptCount := 0
  lastError := none
  receiptJson := none

set_option maxRecDepth 8000 in
/-- The operation entered and approved. -/
theorem approved_run : ∃ l, LedgerRun env noJson (fun _ _ => True) l ∧ l.Distinct ∧
    (∀ r ∈ l.operations, r.status = .approved) ∧
      (∃ e, (Outbox.claim env operationId 0 l).1 = .error e) ∧
      ∃ r ∈ (Outbox.claim env operationId 0 l).2.operations, r.status = .applying := by
  have h₀ : LedgerRun env noJson (fun _ _ => True) Ledger.empty := .start rfl
  have h₁ := h₀.next ⟨.createOperation operation, trivial, rfl⟩
  have h₂ := h₁.next ⟨.approve operationId 0, trivial, rfl⟩
  exact ⟨_, h₂, by unfold Ledger.Distinct; decide, by decide, ⟨_, rfl⟩, _, .head _, rfl⟩

end Sample

/-- Approving again what is approved is refused without a trace. -/
theorem facade_error_atomic_sample_run : ∃ l, LedgerRun Sample.env Sample.noJson (fun _ _ => True) l ∧
    l.Distinct ∧ ∀ e, ((FacadeCall.approve Sample.operationId 0).run Sample.env l).1 = .error e →
      ((FacadeCall.approve Sample.operationId 0).run Sample.env l).2 = l := by
  obtain ⟨l, hl, hd, hst, -⟩ := Sample.approved_run
  refine ⟨l, hl, hd, (facade_error_atomic_iff hd (.approve Sample.operationId 0)).mpr ?_⟩
  intro r hr _ hadm
  exact absurd ((hst r hr).symm.trans hadm.2.2.2.1) (by decide)

/-- **A send claim of an approved mailbox operation fails, and takes the operation.** -/
theorem claim_of_mailbox_operation : ∃ l, LedgerRun Sample.env Sample.noJson (fun _ _ => True) l ∧
    (∃ e, (Outbox.claim Sample.env Sample.operationId 0 l).1 = .error e) ∧
      (∀ r ∈ l.operations, r.status = .approved) ∧
      (∃ r ∈ (Outbox.claim Sample.env Sample.operationId 0 l).2.operations, r.status = .applying) ∧
      (Outbox.claim Sample.env Sample.operationId 0 l).2 ≠ l := by
  obtain ⟨l, hl, -, hst, he, r, hr, happ⟩ := Sample.approved_run
  refine ⟨l, hl, he, hst, ⟨r, hr, happ⟩, fun hsame => ?_⟩
  rw [hsame] at hr
  exact absurd ((hst r hr).symm.trans happ) (by decide)

end Kirje
