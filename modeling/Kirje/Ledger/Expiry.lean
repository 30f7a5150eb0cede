import Kirje.Base.Calendar
import Kirje.Ledger.Facade

/-
  File:      Kirje/Ledger/Expiry.lean
  Subject:   Expiry at the boundary: the instants that the ledger compares are texts
             (`timestamp`, crates/kirje-store/src/outbox.rs).

  `to_rfc3339_opts(SecondsFormat::Micros, true)` writes an instant of the years 0000
  to 9999 as `yyyy-mm-ddThh:mm:ss.ffffffZ`; what is below a microsecond is cut off.

  * `timestamp_le_iff`: such texts are ordered as the instants, cut to microseconds.
  * `NothingDue`: no row that may still be claimed is due; what reconciliation leaves.
  * **`expiry_enforced`**: no operation is approved or claimed at or after its expiry,
    and none is left waiting by a reconciling call that succeeds.
  * `failed_approval_leaves_expired`: a call that fails is rolled back, and its
    reconciliation with it.
-/

namespace Kirje

open Base

/-! ## 1. Instants and their texts -/

/-- The microseconds of an instant since the Unix epoch; the rest is cut off. -/
def DateTime.micros (t : DateTime) : Int := t / 1000

/-- The microseconds since 0000-01-01. -/
def DateTime.sinceZero (t : DateTime) : Int := DateTime.micros t + 719528 * 86400000000

/-- The instant is in one of the years 0000 to 9999. -/
def DateTime.InYears (t : DateTime) : Prop :=
  0 ≤ DateTime.sinceZero t ∧ DateTime.sinceZero t < daysBeforeYear 10000 * 86400000000

instance (t : DateTime) : Decidable (DateTime.InYears t) := by
  unfold DateTime.InYears
  infer_instance

/-- `to_rfc3339_opts(SecondsFormat::Micros, true)`, in these years. -/
def DateTime.rfc3339 (t : DateTime) : String :=
  String.ofList (Base.rfc3339 (DateTime.sinceZero t).toNat)

/-- `timestamp` formats the instants of these years so. -/
def External.Formats (env : External) : Prop :=
  ∀ t, DateTime.InYears t → env.timestamp t = DateTime.rfc3339 t

section Expiry

variable {env : External} {json : Json Draft} {l l' : Ledger} {now : DateTime}

/-- **The order of the texts is the order of the instants, cut to microseconds.** -/
theorem timestamp_le_iff (henv : env.Formats) {a b : DateTime} (ha : DateTime.InYears a)
    (hb : DateTime.InYears b) :
    env.timestamp a ≤ env.timestamp b ↔ DateTime.micros a ≤ DateTime.micros b := by
  have hday : ∀ t, DateTime.InYears t →
      (DateTime.sinceZero t).toNat / 86400000000 < daysBeforeYear 10000 := by
    intro t ht
    obtain ⟨hlow, hhigh⟩ := ht
    exact Nat.div_lt_of_lt_mul (by omega)
  have hlt := rfc3339_lt_iff (hday b hb) (hday a ha)
  rw [henv a ha, henv b hb, String.le_iff_toList_le, DateTime.rfc3339, DateTime.rfc3339,
    String.toList_ofList, String.toList_ofList, ← not_lt, hlt]
  obtain ⟨ha, -⟩ := ha
  obtain ⟨hb, -⟩ := hb
  unfold DateTime.sinceZero at ha hb ⊢
  omega

/-- An operation with an expiry is due from the microsecond of the expiry on. -/
theorem due_iff (henv : env.Formats) (hnow : DateTime.InYears now) {row : OperationRow} {e : DateTime}
    (he : DateTime.InYears e) (hrow : row.expiresAt = some (env.timestamp e)) :
    row.due env now = true ↔
      row.status.unclaimed = true ∧ DateTime.micros e ≤ DateTime.micros now := by
  rw [OperationRow.due, Bool.and_eq_true, hrow, Option.any_some, decide_eq_true_eq,
    timestamp_le_iff henv he hnow]

theorem lt_of_micros_lt {a b : DateTime} (h : DateTime.micros a < DateTime.micros b) : a < b := by
  by_contra hge
  exact absurd (Int.ediv_le_ediv (by decide : (0 : Int) < 1000) (not_lt.mp hge)) (not_le.mpr h)

/-! ## 2. What reconciliation leaves -/

/-- No row is due. -/
def NothingDue (env : External) (now : DateTime) (l : Ledger) : Prop :=
  ∀ row ∈ l.operations, row.due env now = false

theorem reconcile_nothingDue (hd : l.Distinct) (h : reconcileOperations env now l = .ok l') :
    NothingDue env now l' := by
  obtain ⟨errorJson, hrows⟩ := reconcile_rows hd h
  intro row hrow
  rw [hrows] at hrow
  obtain ⟨r, -, rfl⟩ := List.mem_map.mp hrow
  cases hdue : (reconciledRow env now errorJson r).due env now with
  | false => rfl
  | true =>
      have hun : (reconciledRow env now errorJson r).status.unclaimed = true := by
        rw [OperationRow.due, Bool.and_eq_true] at hdue
        exact hdue.1
      obtain ⟨hr, hself⟩ := reconciledRow_unclaimed errorJson hun
      rw [hself] at hdue
      rw [hdue] at hr
      exact hr

/-- A write that leaves the expiry and makes no row unclaimed. -/
theorem NothingDue.update (h : NothingDue env now l) {p : OperationRow → Bool}
    {g : OperationRow → OperationRow} (hx : ∀ row, (g row).expiresAt = row.expiresAt)
    (hs : ∀ row, p row = true → (g row).status.unclaimed = true → row.status.unclaimed = true)
    (hrows : l'.operations = update p g l.operations) : NothingDue env now l' := by
  intro row hrow
  rw [hrows] at hrow
  obtain ⟨r, hr, rfl⟩ := mem_update.mp hrow
  have hdue := h r hr
  by_cases hp : p r = true
  · rw [if_pos hp]
    unfold OperationRow.due at hdue ⊢
    rw [hx r]
    cases hun : (g r).status.unclaimed with
    | false => rfl
    | true => rwa [hs r hp hun] at hdue
  · rwa [if_neg hp]

theorem transition_nothingDue {id : String} {source target : OperationStatus} {approve : Bool}
    {record : OperationRecord} (hs : source.unclaimed = true) (hd : l.Distinct)
    (h : operationTransition env id now source target approve l = .ok (record, l')) :
    NothingDue env now l' := by
  simp only [operationTransition, bind_ok, pure_ok, Prod.mk.injEq] at h
  obtain ⟨_, -, l₁, hrec, _, -, _, -, _, -, _, -, _, -, _, -, -, rfl⟩ := h
  refine (reconcile_nothingDue hd hrec).update (g := transitionedRow env now target approve)
    (fun _ => rfl) ?_ rfl
  intro row hrow _
  simp only [Bool.and_eq_true, decide_eq_true_eq] at hrow
  rw [hrow.2]
  exact hs

/-! ## 3. Reconciling calls -/

/-- The instant at which a call reconciles. -/
def LedgerCall.clock : LedgerCall → Option DateTime
  | .createDraft _ clock | .discardDraft _ clock _ | .getDraft _ clock | .listDrafts _ _ clock =>
      some clock
  | .get _ now | .list _ _ _ now | .approve _ now | .claim _ now => some now
  | .create _ | .createOperation _ | .updateDraft _ | .succeed .. | .fail .. | .ambiguous .. => none

/-- A call that reconciles returns a result. -/
def LedgerCall.Succeeds (env : External) (json : Json Draft) (l : Ledger) : LedgerCall → Prop
  | .createDraft draft clock => ∃ d, (Kirje.createDraft env json draft clock l).1 = .ok d
  | .discardDraft draftId clock now => ∃ d, (Kirje.discardDraft env json draftId clock now l).1 = .ok d
  | .getDraft draftId clock => ∃ d, (Kirje.getDraft env json draftId clock l).1 = .ok d
  | .listDrafts accountId limit clock =>
      ∃ ds, (Kirje.listDrafts env json accountId limit clock l).1 = .ok ds
  | .get operationId now => ∃ r, getOperation env operationId now l = .ok r
  | .list accountId kind limit now => ∃ r, listOperations env accountId kind limit now l = .ok r
  | .approve operationId now => ∃ r, approveOperation env operationId now l = .ok r
  | .claim operationId now => ∃ r, claimOperation env operationId now l = .ok r
  | _ => False

theorem getOperation_nothingDue {id : String} {op : Option OperationRecord} (hd : l.Distinct)
    (h : getOperation env id now l = .ok (op, l')) : NothingDue env now l' := by
  simp only [getOperation, bind_ok, pure_ok, Prod.mk.injEq] at h
  obtain ⟨_, -, _, hrec, _, -, -, rfl⟩ := h
  exact reconcile_nothingDue hd hrec

theorem listOperations_nothingDue {accountId kind : Option String} {limit : Nat}
    {ops : List OperationRecord} (hd : l.Distinct)
    (h : listOperations env accountId kind limit now l = .ok (ops, l')) : NothingDue env now l' := by
  simp only [listOperations, bind_ok, pure_ok, Prod.mk.injEq] at h
  obtain ⟨_, -, _, -, _, hrec, _, -, -, rfl⟩ := h
  exact reconcile_nothingDue hd hrec

/-- A call that commits and then projects, and returns a result, has committed. -/
theorem projected_of_ok {α β : Type} {project : α → Result β} {call : Result (α × Ledger)} {b : β}
    {P : Ledger → Prop} (hok : (projected project call l).1 = .ok b)
    (h : ∀ a l', call = .ok (a, l') → P l') : P (projected project call l).2 := by
  cases call with
  | error e => cases hok
  | ok x => exact h x.1 x.2 rfl

theorem createDraft_nothingDue {draft d : Draft} (hd : l.Distinct)
    (h : (createDraft env json draft now l).1 = .ok d) :
    NothingDue env now (createDraft env json draft now l).2 := by
  unfold createDraft at h ⊢
  split at h
  · cases h
  · cases hlist : listDrafts env json draft.accountId 100 now l with
    | mk result l₁ =>
    cases result with
    | error e => simp [hlist] at h
    | ok drafts =>
        simp only [hlist] at h ⊢
        have hlisted : NothingDue env now (listDrafts env json draft.accountId 100 now l).2 :=
          projected_of_ok (show (listDrafts env json draft.accountId 100 now l).1 = .ok drafts by
            rw [hlist]) fun _ _ => listOperations_nothingDue hd
        rw [hlist] at hlisted
        by_cases hfull : 100 ≤ drafts.length
        · rw [if_pos hfull] at h
          cases h
        · rw [if_neg hfull] at h ⊢
          refine projected_of_ok h fun _ l₂ hinsert => ?_
          simp only [insertDraft, createOperation, bind_ok, pure_ok, Prod.mk.injEq] at hinsert
          obtain ⟨⟨_, _⟩, -, ⟨_, _⟩, ⟨_, -, _, -, _, -, -, rfl⟩, -, rfl⟩ := hinsert
          intro row hrow
          rcases List.mem_append.mp hrow with hrow | hrow
          · exact hlisted row hrow
          · obtain rfl := List.mem_singleton.mp hrow
            simp [OperationRow.due, draftRecord]

theorem discardDraft_nothingDue {id : String} {clock : DateTime} {d : Draft} (hd : l.Distinct)
    (h : (discardDraft env json id clock now l).1 = .ok d) :
    NothingDue env clock (discardDraft env json id clock now l).2 := by
  unfold discardDraft at h ⊢
  cases hread : readDiscard env json id clock now l with
  | mk result l₁ =>
  cases result with
  | error e => simp [hread] at h
  | ok discarded =>
      simp only [hread] at h ⊢
      obtain ⟨current, hget, -⟩ := readDiscard_some hread
      have hdue : NothingDue env clock l₁ := reconcile_nothingDue hd (getDraft_some hget).1
      refine projected_of_ok h fun _ l₂ hwrite => ?_
      simp only [writeDiscard, bind_ok, pure_ok, Prod.mk.injEq] at hwrite
      obtain ⟨⟨_, _⟩, -, _, -, _, -, -, rfl⟩ := hwrite
      refine hdue.update ?_ ?_ rfl
      · intro row
        rfl
      · intro row _ hun
        exact hun

/-- **What a reconciling call that succeeds leaves.** -/
theorem LedgerCall.nothingDue (hd : l.Distinct) {c : LedgerCall} (hc : c.clock = some now)
    (hok : c.Succeeds env json l) : NothingDue env now (c.run env json l) := by
  cases c with
  | createDraft draft clock =>
      obtain ⟨d, h⟩ := hok
      obtain rfl := Option.some.inj hc
      exact createDraft_nothingDue hd h
  | discardDraft id clock _ =>
      obtain ⟨d, h⟩ := hok
      obtain rfl := Option.some.inj hc
      exact discardDraft_nothingDue hd h
  | getDraft id clock =>
      obtain ⟨d, h⟩ := hok
      obtain rfl := Option.some.inj hc
      exact projected_of_ok h fun _ _ => getOperation_nothingDue hd
  | listDrafts accountId limit clock =>
      obtain ⟨ds, h⟩ := hok
      obtain rfl := Option.some.inj hc
      exact projected_of_ok h fun _ _ => listOperations_nothingDue hd
  | get id _ =>
      obtain ⟨⟨op, l'⟩, h⟩ := hok
      obtain rfl := Option.some.inj hc
      rw [LedgerCall.run, h]
      exact getOperation_nothingDue hd h
  | list accountId kind limit _ =>
      obtain ⟨⟨ops, l'⟩, h⟩ := hok
      obtain rfl := Option.some.inj hc
      rw [LedgerCall.run, h]
      exact listOperations_nothingDue hd h
  | approve id _ =>
      obtain ⟨⟨record, l'⟩, h⟩ := hok
      obtain rfl := Option.some.inj hc
      rw [LedgerCall.run, h]
      exact transition_nothingDue rfl hd h
  | claim id _ =>
      obtain ⟨⟨record, l'⟩, h⟩ := hok
      obtain rfl := Option.some.inj hc
      rw [LedgerCall.run, h]
      exact transition_nothingDue rfl hd h
  | _ => exact hok.elim

/-! ## 4. The boundary -/

/-- An operation that was approved or claimed was not due. -/
theorem transition_before_expiry {id : String} {source target : OperationStatus} {approve : Bool}
    {record : OperationRecord} (hs : source.unclaimed = true) (hd : l.Distinct)
    (h : operationTransition env id now source target approve l = .ok (record, l'))
    {row : OperationRow} (hrow : row ∈ l.operations) (hid : row.id = id) :
    row.status.unclaimed = true ∧ row.due env now = false := by
  obtain ⟨-, -, r, hr, hrid, -, hst, hdue, -⟩ := (transition_ok_iff hs hd).mp ⟨l', h⟩
  obtain rfl := eq_of_key_eq hd hrow hr (hid.trans hrid.symm)
  exact ⟨hst ▸ hs, hdue⟩

/-- **Expiry is enforced at the boundary.**  For instants of the years 0000 to 9999, the texts are
    compared as the instants cut to microseconds; an operation is approved or claimed only before
    it expires; and a reconciling call that succeeds leaves no planned or approved row whose expiry
    has been reached. -/
theorem expiry_enforced (henv : env.Formats) (hd : l.Distinct) (hnow : DateTime.InYears now) :
    (∀ e, DateTime.InYears e →
      (env.timestamp e ≤ env.timestamp now ↔ DateTime.micros e ≤ DateTime.micros now)) ∧
    (∀ id record l', approveOperation env id now l = .ok (record, l') ∨
        claimOperation env id now l = .ok (record, l') →
      ∀ row ∈ l.operations, row.id = id → ∀ e, DateTime.InYears e →
        row.expiresAt = some (env.timestamp e) → now < e) ∧
    ∀ (json : Json Draft) (c : LedgerCall), c.clock = some now → c.Succeeds env json l →
      ∀ row ∈ (c.run env json l).operations, row.status = .planned ∨ row.status = .approved →
        ∀ e, DateTime.InYears e → row.expiresAt = some (env.timestamp e) →
          ¬DateTime.micros e ≤ DateTime.micros now := by
  refine ⟨fun e he => timestamp_le_iff henv he hnow, ?_, ?_⟩
  · intro id record l' h row hrow hid e he hx
    have hboth : row.status.unclaimed = true ∧ row.due env now = false := by
      rcases h with h | h
      · exact transition_before_expiry rfl hd h hrow hid
      · exact transition_before_expiry rfl hd h hrow hid
    have hlt : DateTime.micros now < DateTime.micros e := by
      by_contra hge
      rw [(due_iff henv hnow he hx).mpr ⟨hboth.1, not_lt.mp hge⟩] at hboth
      exact absurd hboth.2 (by decide)
    exact lt_of_micros_lt hlt
  · intro json c hc hok row hrow hst e he hx hle
    have hdue := c.nothingDue hd hc hok row hrow
    have hun : row.status.unclaimed = true := by rcases hst with h | h <;> rw [h] <;> rfl
    rw [(due_iff henv hnow he hx).mpr ⟨hun, hle⟩] at hdue
    exact absurd hdue (by decide)

end Expiry

namespace Sample

/-- The environment of the sample run, with the texts of all instants. -/
def dated : External :=
  { env with timestamp := DateTime.rfc3339 }

theorem dated_formats : dated.Formats := fun _ _ => rfl

/-- The operation entered; it expires a day after the epoch. -/
def entered : Ledger := committed Ledger.empty (createOperation dated operation Ledger.empty)

theorem entered_distinct : entered.Distinct := by
  unfold Ledger.Distinct
  decide

theorem entered_run : LedgerRun dated noJson (fun _ _ => True) entered :=
  (show LedgerRun dated noJson (fun _ _ => True) Ledger.empty from .start rfl).next
    ⟨.createOperation operation, trivial, rfl⟩

end Sample

open Sample in
/-- The operation is approved at the epoch, before it expires. -/
theorem expiry_enforced_sample : LedgerRun dated noJson (fun _ _ => True) entered ∧
    (approveOperation dated operationId 0 entered).isOk ∧ (0 : Int) < DateTime.hours 24 := by
  have hok : (approveOperation dated operationId 0 entered).isOk ∧
      ∃ row ∈ entered.operations, row.id = operationId ∧
        row.expiresAt = some (dated.timestamp (DateTime.hours 24)) := by
    decide
  refine ⟨entered_run, hok.1, ?_⟩
  obtain ⟨hok, row, hrow, hid, hx⟩ := hok
  cases h : approveOperation dated operationId 0 entered with
  | error e =>
      rw [h] at hok
      cases hok
  | ok x =>
      exact (expiry_enforced dated_formats entered_distinct (by decide)).2.1 operationId x.1 x.2
        (Or.inl h) row hrow hid _ (by decide) hx

open Sample in
/-- **A call that fails leaves an expired operation planned**: the approval at the instant of the
    expiry reconciles, finds the operation expired, and is rolled back. -/
theorem failed_approval_leaves_expired : LedgerRun dated noJson (fun _ _ => True) entered ∧
    approveOperation dated operationId (DateTime.hours 24) entered =
      .error (stateError "operation is expired, expected planned") ∧
    ∃ row ∈ ((LedgerCall.approve operationId (DateTime.hours 24)).run dated noJson entered).operations,
      row.status = .planned ∧ row.expiresAt = some (dated.timestamp (DateTime.hours 24)) := by
  refine ⟨entered_run, ?_⟩
  decide

end Kirje
