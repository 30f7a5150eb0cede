import Mathlib.Data.List.Chain
import Mathlib.Logic.Relation
import Kirje.Ledger.Drafts

/-
  File:      Kirje/Ledger/Advances.lean
  Subject:   Every ledger call as a sequence of advances.

  An advance adds one row or moves one row along an edge, and appends the one event
  that says so (`Advance`).  Each call of the ledger is a sequence of advances
  (`LedgerCall.advances`), as long as the drafts are planned and never expire: a
  discard appends its event without looking at the row it did or did not write.
-/

namespace Kirje

open Base

variable {env : External} {json : Json Draft} {named : Option String} {N : OperationRow → Prop}

/-! ## 1. Edges of a row -/

/-- The columns an adapter's result is recorded in. -/
inductive Outcome : OperationStatus → Option String → Option String → Prop where
  | succeeded (receiptJson : String) : Outcome .succeeded none (some receiptJson)
  | failed (errorJson : String) : Outcome .failed (some errorJson) none
  | ambiguous (errorJson : String) : Outcome .ambiguous (some errorJson) none

/-- **The ways a row is written.** -/
inductive RowEdge (r : OperationRow) : OperationRow → Prop where
  | expire (now : String) (h : r.status.unclaimed) (hx : r.expiresAt.isSome) :
      RowEdge r { r with status := .expired, updatedAt := now }
  | ambiguate (now errorJson : String) (h : r.status = .applying) :
      RowEdge r { r with
        status := .ambiguous
        updatedAt := now
        lastErrorJson := some errorJson }
  | approve (now : String) (hk : r.kind ≠ "draft") (h : r.status = .planned) :
      RowEdge r { r with status := .approved, approvedAt := some now, updatedAt := now }
  | claim (now : String) (hk : r.kind ≠ "draft") (h : r.status = .approved) :
      RowEdge r { r with
        status := .applying
        updatedAt := now
        attemptCount := r.attemptCount + 1 }
  | finish (now : String) (status : OperationStatus) (errorJson receiptJson : Option String)
      (h : r.status = .applying) (ho : Outcome status errorJson receiptJson) :
      RowEdge r { r with
        status := status
        updatedAt := now
        lastErrorJson := errorJson
        receiptJson := receiptJson }
  | write (accountId payloadJson payloadSha256 now : String) (hk : r.kind = "draft")
      (h : r.status = .planned) :
      RowEdge r { r with
        accountId := accountId
        payloadJson := payloadJson
        payloadSha256 := payloadSha256
        updatedAt := now }

theorem RowEdge.id {r r' : OperationRow} (h : RowEdge r r') : r'.id = r.id := by cases h <;> rfl

/-- The row a creation adds. -/
structure NewRow (row : OperationRow) : Prop where
  status : row.status = .planned
  approved : row.approvedAt = none
  attempts : row.attemptCount = 0
  error : row.lastErrorJson = none
  receipt : row.receiptJson = none

/-- The event that says where a row stands now. -/
structure EventOf (sequence : Nat) (r : OperationRow) (e : OperationEventRow) : Prop where
  sequence : e.sequence = sequence
  id : e.operationId = r.id
  status : e.status = some r.status
  digest : e.payloadSha256 = r.payloadSha256

/-- The rows with one replaced, by its identifier. -/
def replaceRow (r r' : OperationRow) (rows : List OperationRow) : List OperationRow :=
  rows.map fun x => if x.id = r.id then r' else x

/-- **One row is added or moved, and one event says so**; a row that the call does not name moves
    only to another status.  `N` is what the call promises of a row it adds. -/
inductive Advance (N : OperationRow → Prop) (named : Option String) (l : Ledger) : Ledger → Prop where
  | create (row : OperationRow) (e : OperationEventRow) (hfresh : row.id ∉ l.operations.map (·.id))
      (hrow : NewRow row) (he : EventOf (l.sequence + 1) row e) (hname : e.event = "created")
      (hn : named = some row.id) (hN : N row) :
      Advance N named l ⟨l.operations ++ [row], l.events ++ [e], l.sequence + 1⟩
  | move (r r' : OperationRow) (e : OperationEventRow) (hr : r ∈ l.operations) (hedge : RowEdge r r')
      (he : EventOf (l.sequence + 1) r' e) (hn : named = some r.id ∨ r'.status ≠ r.status) :
      Advance N named l ⟨replaceRow r r' l.operations, l.events ++ [e], l.sequence + 1⟩

/-- Any number of advances. -/
abbrev Advances (N : OperationRow → Prop) (named : Option String) : Ledger → Ledger → Prop :=
  Relation.ReflTransGen (Advance N named)

/-- Identifiers are distinct. -/
def Ledger.Distinct (l : Ledger) : Prop := (l.operations.map (·.id)).Nodup

theorem mem_replaceRow {l : Ledger} {r r' x : OperationRow} (hr : r ∈ l.operations) :
    x ∈ replaceRow r r' l.operations ↔ (x ∈ l.operations ∧ x.id ≠ r.id) ∨ x = r' := by
  unfold replaceRow
  rw [List.mem_map]
  constructor
  · rintro ⟨y, hy, rfl⟩
    split
    · exact Or.inr rfl
    · next hne => exact Or.inl ⟨hy, hne⟩
  · rintro (⟨hx, hne⟩ | rfl)
    · exact ⟨x, hx, by simp [hne]⟩
    · exact ⟨r, hr, by simp⟩

theorem replaceRow_ids {r r' : OperationRow} (hid : r'.id = r.id) (rows : List OperationRow) :
    (replaceRow r r' rows).map (·.id) = rows.map (·.id) := by
  unfold replaceRow
  rw [List.map_map]
  refine List.map_congr_left fun x _ => ?_
  simp only [Function.comp_apply]
  split
  · next hx => rw [hid, hx]
  · rfl

/-- Identifiers stay distinct. -/
theorem Advance.distinct {l l' : Ledger} (h : Advance N named l l') (hd : l.Distinct) : l'.Distinct := by
  cases h with
  | create row e hfresh =>
      unfold Ledger.Distinct
      rw [List.map_append, List.nodup_append]
      refine ⟨hd, by simp, ?_⟩
      simp only [List.map_cons, List.map_nil, List.mem_singleton]
      rintro i hi j rfl rfl
      exact hfresh hi
  | move r r' e hr hedge =>
      unfold Ledger.Distinct
      rw [replaceRow_ids hedge.id]
      exact hd

theorem Advances.distinct {l l' : Ledger} (h : Advances N named l l') (hd : l.Distinct) : l'.Distinct := by
  induction h with
  | refl => exact hd
  | tail _ hs ih => exact hs.distinct ih

/-! ## 2. Writes as advances -/

/-- What a record read in a transaction says of its row. -/
theorem operationInTransaction_row {l : Ledger} {id : String} {record : OperationRecord}
    (h : operationInTransaction env l id = .ok (some record)) :
    ∃ r ∈ l.operations, r.id = id ∧ record.id = r.id ∧
      record.payloadSha256 = r.payloadSha256 ∧ record.Of r := by
  unfold operationInTransaction at h
  cases hf : l.operations.find? fun row => row.id = id with
  | none => rw [hf] at h; simp [decodeOption] at h
  | some r =>
      rw [hf] at h
      simp only [decodeOption, bind_ok, pure_ok, Option.some.injEq] at h
      obtain ⟨record, hr, rfl⟩ := h
      have hof := operationFromRow_of hr
      simp only [operationFromRow, bind_ok, pure_ok] at hr
      obtain ⟨_, -, _, -, _, -, _, -, _, -, _, -, _, -, rfl⟩ := hr
      exact ⟨r, List.mem_of_find?_eq_some hf, by simpa using List.find?_some hf, rfl, rfl, hof⟩

/-- An update that finds one row replaces it. -/
theorem update_eq_replaceRow {l : Ledger} (hd : l.Distinct) {r : OperationRow}
    (hr : r ∈ l.operations) {p : OperationRow → Bool} {f : OperationRow → OperationRow}
    (hp : p r = true) (hk : ∀ x, p x = true → x.id = r.id) :
    update p f l.operations = replaceRow r (f r) l.operations := by
  unfold update replaceRow
  refine List.map_congr_left fun x hx => ?_
  by_cases hid : x.id = r.id
  · obtain rfl := eq_of_key_eq hd hx hr hid
    rw [if_pos hp, if_pos rfl]
  · rw [if_neg fun hpx => hid (hk x hpx), if_neg hid]

/-- **A write of one row with its event is an advance.** -/
theorem advance_of_write {l : Ledger} (hd : l.Distinct) {r : OperationRow} (hr : r ∈ l.operations)
    {p : OperationRow → Bool} {f : OperationRow → OperationRow} (hp : p r = true)
    (hk : ∀ x, p x = true → x.id = r.id) (hedge : RowEdge r (f r)) {op : OperationRecord}
    (hop : operationInTransaction env { l with operations := update p f l.operations } r.id =
      .ok (some op)) (hn : named = some r.id ∨ (f r).status ≠ r.status) (event : String) :
    Advance N named l (appendEvent env { l with operations := update p f l.operations } op event
      (some (f r).status) none) := by
  obtain ⟨x, hx, hid, hopid, hsha, -⟩ := operationInTransaction_row hop
  have hx' : x = f r := by
    rw [show ({ l with operations := update p f l.operations } : Ledger).operations =
      update p f l.operations from rfl, update_eq_replaceRow hd hr hp hk,
      mem_replaceRow hr] at hx
    rcases hx with ⟨-, hne⟩ | hx
    · exact absurd hid hne
    · exact hx
  subst hx'
  have hadv : Advance N named l _ := .move r (f r) ⟨l.sequence + 1, op.id, event, some (f r).status,
    env.timestamp op.updatedAt, op.payloadSha256, none⟩ hr hedge ⟨rfl, hopid, rfl, hsha⟩ hn
  rw [← update_eq_replaceRow hd hr hp hk] at hadv
  exact hadv

/-- A row under the identifier is found. -/
theorem operationInTransaction_none {l : Ledger} {r : OperationRow} (hr : r ∈ l.operations)
    (h : operationInTransaction env l r.id = .ok none) : False := by
  unfold operationInTransaction at h
  cases hf : l.operations.find? fun row => row.id = r.id with
  | none =>
      have := List.find?_eq_none.mp hf r hr
      simp at this
  | some x =>
      rw [hf] at h
      simp only [decodeOption, bind_ok, pure_ok] at h
      obtain ⟨_, -, h⟩ := h
      cases h

/-- A write that reads its row back to report it is an advance. -/
theorem eventOfRow_advance {l l' : Ledger} (hd : l.Distinct) {r : OperationRow}
    (hr : r ∈ l.operations) {p : OperationRow → Bool} {f : OperationRow → OperationRow}
    (hp : p r = true) (hk : ∀ x, p x = true → x.id = r.id) (hedge : RowEdge r (f r))
    {event : String}
    (h : eventOfRow env { l with operations := update p f l.operations } r.id event (f r).status =
      .ok l') (hn : (f r).status ≠ r.status) : Advance N named l l' := by
  unfold eventOfRow at h
  obtain ⟨o, ho, h⟩ := bind_ok.mp h
  cases o with
  | none =>
      have hmem : f r ∈ ({ l with operations := update p f l.operations } : Ledger).operations :=
        mem_update.mpr ⟨r, hr, by simp [hp]⟩
      rw [← hedge.id] at ho
      exact (operationInTransaction_none hmem ho).elim
  | some op =>
      rw [← pure_ok.mp h]
      exact advance_of_write hd hr hp hk hedge ho (Or.inr hn) event

/-! ## 3. Transactions as advances -/

/-- A fold of writes, each of a row of its own, is a sequence of advances. -/
theorem advances_of_fold {f : Ledger → String → Result Ledger} {P : OperationRow → Prop}
    (hf : ∀ l r l', l.Distinct → r ∈ l.operations → P r → f l r.id = .ok l' →
      Advance N named l l' ∧ ∀ x ∈ l.operations, x.id ≠ r.id → x ∈ l'.operations)
    {ids : List String} {l l' : Ledger} (hn : ids.Nodup) (hd : l.Distinct)
    (hids : ∀ i ∈ ids, ∃ r ∈ l.operations, r.id = i ∧ P r) (h : ids.foldlM f l = .ok l') :
    Advances N named l l' := by
  induction ids generalizing l with
  | nil =>
      rw [List.foldlM_nil, pure_ok] at h
      exact h ▸ .refl
  | cons i ids ih =>
      rw [List.foldlM_cons, bind_ok] at h
      obtain ⟨l₁, h₁, h₂⟩ := h
      obtain ⟨r, hr, rfl, hP⟩ := hids i List.mem_cons_self
      obtain ⟨hadv, hkeep⟩ := hf l r l₁ hd hr hP h₁
      obtain ⟨hni, hn⟩ := List.nodup_cons.mp hn
      refine .head hadv (ih hn (hadv.distinct hd) (fun j hj => ?_) h₂)
      obtain ⟨x, hx, rfl, hPx⟩ := hids j (List.mem_cons_of_mem _ hj)
      exact ⟨x, hkeep x hx fun he => hni (he ▸ hj), rfl, hPx⟩

/-- A row that an update does not select stays. -/
theorem mem_update_other {p : OperationRow → Bool} {f : OperationRow → OperationRow}
    {rows : List OperationRow} {x : OperationRow} {id : String}
    (hk : ∀ x, p x = true → x.id = id) (hx : x ∈ rows) (hne : x.id ≠ id) :
    x ∈ update p f rows :=
  mem_update.mpr ⟨x, hx, by rw [if_neg fun hp => hne (hk x hp)]⟩

theorem expire_advance {now : DateTime} {l l' : Ledger} {r : OperationRow} (hd : l.Distinct)
    (hr : r ∈ l.operations) (hP : r.status.unclaimed ∧ r.expiresAt.isSome)
    (h : expireOperation env now l r.id = .ok l') :
    Advance N named l l' ∧ ∀ x ∈ l.operations, x.id ≠ r.id → x ∈ l'.operations := by
  have hk : ∀ x : OperationRow, (decide (x.id = r.id) && x.status.unclaimed) = true →
      x.id = r.id := by
    intro x hx
    simp only [Bool.and_eq_true, decide_eq_true_eq] at hx
    exact hx.1
  refine ⟨eventOfRow_advance hd hr (by simp [hP.1]) hk (.expire _ hP.1 hP.2) h ?_, fun x hx hne => ?_⟩
  · intro he
    have hu := hP.1
    rw [← show OperationStatus.expired = r.status from he] at hu
    cases hu
  · rw [eventOfRow_rows h]
    exact mem_update_other hk hx hne

theorem ambiguate_advance {now : DateTime} {errorJson : String} {l l' : Ledger} {r : OperationRow}
    (hd : l.Distinct) (hr : r ∈ l.operations) (hst : r.status = .applying)
    (h : ambiguateOperation env now errorJson l r.id = .ok l') :
    Advance N named l l' ∧ ∀ x ∈ l.operations, x.id ≠ r.id → x ∈ l'.operations := by
  have hk : ∀ x : OperationRow, (decide (x.id = r.id) && decide (x.status = .applying)) = true →
      x.id = r.id := by
    intro x hx
    simp only [Bool.and_eq_true, decide_eq_true_eq] at hx
    exact hx.1
  refine ⟨eventOfRow_advance hd hr (by simp [hst]) hk (.ambiguate _ _ hst) h ?_, fun x hx hne => ?_⟩
  · intro he
    exact absurd (show OperationStatus.ambiguous = .applying from he.trans hst) (by decide)
  · rw [eventOfRow_rows h]
    exact mem_update_other hk hx hne

/-- The identifiers of selected rows are distinct, and each is of a selected row. -/
theorem ids_of_filter {l : Ledger} (hd : l.Distinct) {q : OperationRow → Bool}
    {P : OperationRow → Prop} (hq : ∀ r, q r = true → P r) :
    ((l.operations.filter q).map (·.id)).Nodup ∧
      ∀ i ∈ (l.operations.filter q).map (·.id), ∃ r ∈ l.operations, r.id = i ∧ P r := by
  refine ⟨hd.sublist (List.filter_sublist.map _), fun i hi => ?_⟩
  obtain ⟨r, hr, rfl⟩ := List.mem_map.mp hi
  obtain ⟨hm, hqr⟩ := List.mem_filter.mp hr
  exact ⟨r, hm, rfl, hq r hqr⟩

/-- **Reconciliation is a sequence of advances.** -/
theorem reconcile_advances {now : DateTime} {l l' : Ledger} (hd : l.Distinct)
    (h : reconcileOperations env now l = .ok l') : Advances N named l l' := by
  unfold reconcileOperations at h
  simp only [bind_ok] at h
  obtain ⟨l₁, h₁, errorJson, -, h₂⟩ := h
  have hexp : ∀ r : OperationRow, (r.status.unclaimed &&
      r.expiresAt.any (· ≤ env.timestamp now)) = true →
      r.status.unclaimed ∧ r.expiresAt.isSome := by
    intro r hr
    simp only [Bool.and_eq_true, Option.any_eq_true] at hr
    obtain ⟨hu, x, hx, -⟩ := hr
    exact ⟨hu, by simp [hx]⟩
  obtain ⟨hn, hids⟩ := ids_of_filter hd hexp
  have ha₁ : Advances N named l l₁ := advances_of_fold (fun _ _ _ hd hr hP h => expire_advance hd hr hP h) hn hd hids h₁
  have hd₁ := ha₁.distinct hd
  have hstale : ∀ r : OperationRow, (decide (r.kind ≠ "draft") && decide (r.status = .applying) &&
      decide (r.updatedAt ≤ env.timestamp (now - DateTime.minutes 15))) = true →
      r.status = .applying := by
    intro r hr
    simp only [Bool.and_eq_true, decide_eq_true_eq] at hr
    exact hr.1.2
  obtain ⟨hn', hids'⟩ := ids_of_filter hd₁ hstale
  exact ha₁.trans
    (advances_of_fold (fun _ _ _ hd hr hP h => ambiguate_advance hd hr hP h) hn' hd₁ hids' h₂)

/-! The same, exactly: which row becomes which. -/

/-- A row that has reached its expiry. -/
def OperationRow.due (env : External) (now : DateTime) (r : OperationRow) : Bool :=
  r.status.unclaimed && r.expiresAt.any (· ≤ env.timestamp now)

/-- A claim that is fifteen minutes old. -/
def OperationRow.stale (env : External) (now : DateTime) (r : OperationRow) : Bool :=
  r.kind ≠ "draft" && r.status = .applying && r.updatedAt ≤ env.timestamp (now - DateTime.minutes 15)

/-- What an expiry makes of a row. -/
def expiredRow (env : External) (now : DateTime) (r : OperationRow) : OperationRow :=
  { r with status := .expired, updatedAt := env.timestamp now }

/-- What the end of a stale claim makes of a row. -/
def ambiguousRow (env : External) (now : DateTime) (errorJson : String) (r : OperationRow) :
    OperationRow :=
  { r with
    status := .ambiguous
    updatedAt := env.timestamp now
    lastErrorJson := some errorJson }

/-- What reconciliation makes of a row. -/
def reconciledRow (env : External) (now : DateTime) (errorJson : String) (r : OperationRow) :
    OperationRow :=
  if r.due env now then expiredRow env now r
  else if r.stale env now then ambiguousRow env now errorJson r
  else r

/-- A fold of updates by identifier is one update of the rows named. -/
theorem rows_of_fold {f : Ledger → String → Result Ledger} {q : OperationRow → Bool}
    {g : OperationRow → OperationRow}
    (hf : ∀ l i l', f l i = .ok l' →
      l'.operations = update (fun r => decide (r.id = i) && q r) g l.operations)
    (hg : ∀ r, (g r).id = r.id ∧ q (g r) = false) {ids : List String} {l l' : Ledger}
    (h : ids.foldlM f l = .ok l') :
    l'.operations = update (fun r => decide (r.id ∈ ids) && q r) g l.operations := by
  induction ids generalizing l with
  | nil =>
      rw [List.foldlM_nil, pure_ok] at h
      rw [← h]
      simp [update]
  | cons i ids ih =>
      rw [List.foldlM_cons, bind_ok] at h
      obtain ⟨l₁, h₁, h₂⟩ := h
      rw [ih h₂, hf l i l₁ h₁]
      unfold update
      rw [List.map_map]
      refine List.map_congr_left fun r _ => ?_
      obtain ⟨hid, hq⟩ := hg r
      by_cases hi : r.id = i <;> by_cases hr : q r <;> simp [hi, hr, hq]

/-- The rows that a selection of the table names are the rows selected. -/
theorem mem_ids_of_filter {l : Ledger} (hd : l.Distinct) {p : OperationRow → Bool}
    {r : OperationRow} (hr : r ∈ l.operations) :
    r.id ∈ (l.operations.filter p).map (·.id) ↔ p r = true := by
  rw [List.mem_map]
  constructor
  · rintro ⟨x, hx, hid⟩
    obtain ⟨hx, hp⟩ := List.mem_filter.mp hx
    obtain rfl := eq_of_key_eq hd hx hr hid
    exact hp
  · exact fun hp => ⟨r, List.mem_filter.mpr ⟨hr, hp⟩, rfl⟩

/-- A fold over a selection of the table is one update of the rows selected. -/
theorem rows_of_selection {f : Ledger → String → Result Ledger} {p q : OperationRow → Bool}
    {g : OperationRow → OperationRow} (hpq : ∀ r, p r = true → q r = true)
    (hg : ∀ r, (g r).id = r.id ∧ q (g r) = false)
    (hf : ∀ l i l', f l i = .ok l' →
      l'.operations = update (fun r => decide (r.id = i) && q r) g l.operations)
    {l l' : Ledger} (hd : l.Distinct)
    (h : ((l.operations.filter p).map (·.id)).foldlM f l = .ok l') :
    l'.operations = update p g l.operations := by
  rw [rows_of_fold hf hg h]
  refine List.map_congr_left fun r hr => ?_
  by_cases hp : p r = true
  · rw [if_pos hp, if_pos (by simp [hpq r hp, (mem_ids_of_filter hd hr).mpr hp])]
  · rw [if_neg hp, if_neg]
    intro h
    rw [Bool.and_eq_true, decide_eq_true_eq, mem_ids_of_filter hd hr] at h
    exact hp h.1

/-- **The rows after reconciliation.** -/
theorem reconcile_rows {now : DateTime} {l l' : Ledger} (hd : l.Distinct)
    (h : reconcileOperations env now l = .ok l') :
    ∃ errorJson, l'.operations = l.operations.map (reconciledRow env now errorJson) := by
  unfold reconcileOperations at h
  simp only [bind_ok] at h
  obtain ⟨l₁, h₁, errorJson, -, h₂⟩ := h
  refine ⟨errorJson, ?_⟩
  have hrows₁ : l₁.operations = update (·.due env now) (expiredRow env now) l.operations :=
    rows_of_selection (p := (·.due env now)) (q := fun r => r.status.unclaimed) (g := expiredRow env now)
      (fun r hr => by simp only [OperationRow.due, Bool.and_eq_true] at hr; exact hr.1) (fun _ => ⟨rfl, rfl⟩)
      (fun _ _ _ h => eventOfRow_rows h) hd h₁
  have hd₁ : l₁.Distinct := by
    unfold Ledger.Distinct
    rw [hrows₁, map_update (g := fun r : OperationRow => r.id) fun r => show (expiredRow env now r).id = r.id from rfl]
    exact hd
  have hrows₂ : l'.operations =
      update (·.stale env now) (ambiguousRow env now errorJson) l₁.operations :=
    rows_of_selection (p := (·.stale env now)) (q := fun r => decide (r.status = .applying))
      (g := ambiguousRow env now errorJson)
      (fun r hr => by simp only [OperationRow.stale, Bool.and_eq_true] at hr; exact hr.1.2) (fun _ => ⟨rfl, rfl⟩)
      (fun _ _ _ h => eventOfRow_rows h) hd₁ h₂
  rw [hrows₂, hrows₁]
  unfold update
  rw [List.map_map]
  refine List.map_congr_left fun r _ => ?_
  rw [Function.comp_apply, reconciledRow]
  by_cases hdue : r.due env now = true
  · rw [if_pos hdue, if_pos hdue, if_neg]
    simp [OperationRow.stale, expiredRow]
  · rw [if_neg hdue, if_neg hdue]

theorem create_advance {op op' : OperationRecord} {l l' : Ledger}
    (hN : ∀ row : OperationRow, row.kind = op.kind →
      row.expiresAt = op.expiresAt.map env.timestamp → N row)
    (h : createOperation env op l = .ok (op', l')) : Advance N (some op.id) l l' := by
  simp only [createOperation, bind_ok, pure_ok, ensure_ok, Prod.mk.injEq] at h
  obtain ⟨_, -, _, hplanned, _, hfresh, rfl, rfl⟩ := h
  exact .create _ _ hfresh ⟨hplanned.1, rfl, rfl, rfl, rfl⟩ ⟨rfl, rfl, rfl, rfl⟩ rfl rfl
    (hN _ rfl rfl)

/-- A transition reconciles and then moves the named row. -/
theorem transition_advances {id : String} {now : DateTime} {source target : OperationStatus}
    {approve : Bool} {l l' : Ledger} {record : OperationRecord} (hd : l.Distinct)
    (hedge : ∀ r : OperationRow, r.kind ≠ "draft" → r.status = source → RowEdge r { r with
      status := target
      approvedAt := if approve then some (env.timestamp now) else r.approvedAt
      updatedAt := env.timestamp now
      attemptCount := r.attemptCount + if target = .applying then 1 else 0 })
    (h : operationTransition env id now source target approve l = .ok (record, l')) :
    Advances N (some id) l l' := by
  simp only [operationTransition, bind_ok, pure_ok, ensure_ok, orRefuse_ok, Prod.mk.injEq] at h
  obtain ⟨_, -, l₁, h₁, _, hx, existing, rfl, _, hk, _, hst, _, hy, updated, rfl, rfl, rfl⟩ := h
  have ha : Advances N (some id) l l₁ := reconcile_advances hd h₁
  have hd₁ := ha.distinct hd
  obtain ⟨x, hxm, rfl, -, -, hxo⟩ := operationInTransaction_row hx
  have hxs : x.status = source := hxo.status.symm.trans hst
  refine ha.tail (advance_of_write hd₁ hxm (by simp [hxs]) ?_
    (hedge x (hxo.kind ▸ hk) hxs) hy (Or.inl rfl) "transitioned")
  intro y hy
  simp only [Bool.and_eq_true, decide_eq_true_eq] at hy
  exact hy.1

theorem approve_advances {id : String} {now : DateTime} {l l' : Ledger} {record : OperationRecord}
    (hd : l.Distinct) (h : approveOperation env id now l = .ok (record, l')) :
    Advances N (some id) l l' :=
  transition_advances hd (fun _ hk hs => .approve _ hk hs) h

theorem claim_advances {id : String} {now : DateTime} {l l' : Ledger} {record : OperationRecord}
    (hd : l.Distinct) (h : claimOperation env id now l = .ok (record, l')) :
    Advances N (some id) l l' :=
  transition_advances hd (fun _ hk hs => .claim _ hk hs) h

/-- A finish moves the named row. -/
theorem finish_advance {id : String} {now : DateTime} {status : OperationStatus}
    {error : Option MailError} {receiptJson : Option String} {l l' : Ledger}
    {record : OperationRecord} (hd : l.Distinct)
    (hout : ∀ errorJson, errorJson.isSome = error.isSome → Outcome status errorJson receiptJson)
    (h : finishOperation env id now status error receiptJson l = .ok (record, l')) :
    Advance N (some id) l l' := by
  simp only [finishOperation, bind_ok, pure_ok, ensure_ok, orRefuse_ok, Prod.mk.injEq] at h
  obtain ⟨_, -, errorJson, he, _, hx, existing, rfl, _, hst, _, hy, updated, rfl, rfl, rfl⟩ := h
  have hsome : errorJson.isSome = error.isSome := by
    cases error with
    | none =>
        rw [← pure_ok.mp he]
        rfl
    | some e =>
        simp only [decodeOption, bind_ok, pure_ok] at he
        obtain ⟨_, -, rfl⟩ := he
        rfl
  obtain ⟨x, hxm, rfl, -, -, hxo⟩ := operationInTransaction_row hx
  have hxs : x.status = .applying := hxo.status.symm.trans hst
  refine advance_of_write hd hxm (by simp [hxs]) ?_ (.finish _ _ _ _ hxs (hout _ hsome)) hy
    (Or.inl rfl) "finalized"
  intro y hy
  simp only [Bool.and_eq_true, decide_eq_true_eq] at hy
  exact hy.1

/-! ## 4. Calls as advances -/

/-- A draft comes without an expiry. -/
def LastingDraft (row : OperationRow) : Prop := row.kind = "draft" → row.expiresAt = none

/-- **Drafts are planned and never expire.** -/
def Ledger.DraftsOk (l : Ledger) : Prop :=
  ∀ r ∈ l.operations, r.kind = "draft" → r.status = .planned ∧ r.expiresAt = none

theorem Advance.draftsOk {l l' : Ledger} (h : Advance LastingDraft named l l') (hok : l.DraftsOk) :
    l'.DraftsOk := by
  cases h with
  | create row e hfresh hrow he hname hn hN =>
      intro r hr hk
      rcases List.mem_append.mp hr with hr | hr
      · exact hok r hr hk
      · obtain rfl := List.mem_singleton.mp hr
        exact ⟨hrow.status, hN hk⟩
  | move r r' e hr hedge =>
      intro x hx hk
      rcases (mem_replaceRow hr).mp hx with ⟨hx, -⟩ | rfl
      · exact hok x hx hk
      · cases hedge with
        | expire now hu hexp =>
            have := (hok r hr hk).2
            rw [this] at hexp
            cases hexp
        | ambiguate now errorJson hst => exact absurd ((hok r hr hk).1.symm.trans hst) (by decide)
        | approve now hne => exact absurd hk hne
        | claim now hne => exact absurd hk hne
        | finish now status errorJson receiptJson hst =>
            exact absurd ((hok r hr hk).1.symm.trans hst) (by decide)
        | write accountId payloadJson payloadSha256 now hd hst => exact hok r hr hd

theorem Advances.draftsOk {l l' : Ledger} (h : Advances LastingDraft named l l') (hok : l.DraftsOk) :
    l'.DraftsOk := by
  induction h with
  | refl => exact hok
  | tail _ hs ih => exact hs.draftsOk ih

theorem draftRow_iff {id : String} {r : OperationRow} :
    draftRow id r = true ↔ r.id = id ∧ r.kind = "draft" ∧ r.status = .planned := by
  simp [draftRow]

theorem updateDraft_advance {draft draft' : Draft} {l l' : Ledger} (hd : l.Distinct)
    (h : updateDraft env json draft l = .ok (draft', l')) : Advance N (some draft.id) l l' := by
  simp only [updateDraft, bind_ok, pure_ok, ensure_ok, orRefuse_ok, Prod.mk.injEq] at h
  obtain ⟨_, -, _, -, ⟨payloadJson, payloadSha256⟩, -, _, hx, existing, rfl, _, hg, _, hy, updated,
    rfl, rfl, rfl⟩ := h
  obtain ⟨x, hxm, hid, -, -, hxo⟩ := operationInTransaction_row hx
  rw [not_or, not_not, not_not, hxo.kind, hxo.status] at hg
  rw [← hid] at hy ⊢
  have hadv : Advance N _ l _ := advance_of_write hd hxm (draftRow_iff.mpr ⟨rfl, hg⟩)
    (fun y hy => (draftRow_iff.mp hy).1) (.write draft.accountId payloadJson payloadSha256
      (env.timestamp draft.updatedAt) hg.1 hg.2) hy (Or.inl rfl) "updated"
  simp only [hg.2] at hadv
  exact hadv

/-- The write of a discard moves the row, if the row is a planned draft. -/
theorem writeDiscard_advance {id : String} {discarded draft' : Draft} {now : DateTime}
    {l l' : Ledger} (hd : l.Distinct) {x : OperationRow} (hx : x ∈ l.operations) (hid : x.id = id)
    (hk : x.kind = "draft" ∧ x.status = .planned)
    (h : writeDiscard env json id discarded now l = .ok (draft', l')) :
    Advance N (some id) l l' := by
  simp only [writeDiscard, bind_ok, pure_ok, orRefuse_ok, Prod.mk.injEq] at h
  obtain ⟨⟨payloadJson, payloadSha256⟩, -, _, hy, updated, rfl, rfl, rfl⟩ := h
  subst hid
  have hadv : Advance N _ l _ := advance_of_write hd hx (draftRow_iff.mpr ⟨rfl, hk⟩)
    (fun y hy => (draftRow_iff.mp hy).1) (.write x.accountId payloadJson payloadSha256
      (env.timestamp now) hk.1 hk.2) hy (Or.inl rfl) "discarded"
  simp only [hk.2] at hadv
  exact hadv

theorem get_advances {id : String} {now : DateTime} {l l' : Ledger} {op : Option OperationRecord}
    (hd : l.Distinct) (h : getOperation env id now l = .ok (op, l')) : Advances N named l l' := by
  simp only [getOperation, bind_ok, pure_ok, Prod.mk.injEq] at h
  obtain ⟨_, -, l₁, h₁, _, -, -, rfl⟩ := h
  exact reconcile_advances hd h₁

theorem list_advances {accountId kind : Option String} {limit : Nat} {now : DateTime}
    {l l' : Ledger} {ops : List OperationRecord} (hd : l.Distinct)
    (h : listOperations env accountId kind limit now l = .ok (ops, l')) : Advances N named l l' := by
  simp only [listOperations, bind_ok, pure_ok, Prod.mk.injEq] at h
  obtain ⟨_, -, _, -, l₁, h₁, _, -, -, rfl⟩ := h
  exact reconcile_advances hd h₁

/-- A call that commits and then projects leaves what it committed, or nothing. -/
theorem projected_invariant {α β : Type} {project : α → Result β} {call : Result (α × Ledger)}
    {l : Ledger} {P : Ledger → Prop} (hl : P l) (h : ∀ a l', call = .ok (a, l') → P l') :
    P (projected project call l).2 := by
  cases call with
  | error e => exact hl
  | ok x => exact h x.1 x.2 rfl

/-- The draft that a read returned is the payload of a draft row after reconciliation. -/
theorem getDraft_some {id : String} {clock : DateTime} {l l' : Ledger} {d : Draft}
    (h : getDraft env json id clock l = (.ok (some d), l')) :
    reconcileOperations env clock l = .ok l' ∧
      ∃ r ∈ l'.operations, r.id = id ∧ r.kind = "draft" ∧ json.decode r.payloadJson = some d := by
  unfold getDraft projected at h
  split at h
  · next op l₁ hcall =>
      simp only [Prod.mk.injEq] at h
      obtain ⟨hof, rfl⟩ := h
      simp only [getOperation, bind_ok, pure_ok, Prod.mk.injEq] at hcall
      obtain ⟨_, -, l₂, hrec, _, hop, rfl, rfl⟩ := hcall
      refine ⟨hrec, ?_⟩
      unfold draftOf at hof
      split at hof
      · next operation =>
          split at hof
          · next hk =>
              simp only [decodeDraft, bind_ok, orRefuse_ok, pure_ok, Option.some.injEq] at hof
              obtain ⟨_, hdec, rfl⟩ := hof
              obtain ⟨r, hr, hid, -, -, hro⟩ := operationInTransaction_row hop
              exact ⟨r, hr, hid, hro.kind.symm.trans hk, hro.payloadJson ▸ hdec⟩
          · cases hof
      · cases hof
  · cases h

theorem readDiscard_some {id : String} {clock now : DateTime} {l l' : Ledger} {d : Draft}
    (h : readDiscard env json id clock now l = (.ok d, l')) :
    ∃ current, getDraft env json id clock l = (.ok (some current), l') ∧
      current.status = .draft ∧ d = { current with status := .discarded, updatedAt := now } := by
  unfold readDiscard at h
  obtain ⟨hread, rfl⟩ := Prod.mk.injEq .. ▸ h
  simp only [bind_ok, orRefuse_ok, ensure_ok, pure_ok] at hread
  obtain ⟨_, hr, current, rfl, _, hst, rfl⟩ := hread
  exact ⟨current, Prod.ext hr rfl, hst, rfl⟩

end Kirje
