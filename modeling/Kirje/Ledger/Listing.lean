import Kirje.Base.Calendar
import Kirje.Ledger.Facade

/-
  File:      Kirje/Ledger/Listing.lean
  Subject:   What `list_drafts` shows of the active drafts of an account, and the
             cap that `create_draft` takes from it.

  `list_operations` selects the draft rows of the account, takes the newest
  `limit`, and only then does `list_drafts` drop the discarded ones.  A discarded
  draft takes the place of an older active one (`Covered` is when none does).

  * **`list_drafts_complete_iff`**: the listing is the newest `limit` active drafts
    if and only if its rows can be read and they cover the account.
  * **`active_drafts_capped`**: the cap of 100 active drafts, in every run whose
    creations find a listing that covers the account and whose updates bring no
    draft into an account that is full.
  * `discarded_draft_hides_active`, `draft_moved_into_full_account`: without that,
    neither holds.
-/

namespace Kirje

open Base

/-! ## 1. The drafts of an account -/

/-- The draft rows of an account, the newest first. -/
def newestDrafts (accountId : String) (l : Ledger) : List OperationRow :=
  (l.operations.filter fun row => row.accountId = accountId && row.kind = "draft").insertionSort
    fun a b => b.createdAt ≤ a.createdAt

/-- The draft that a row stores, where it is active. -/
def activeDraft (json : Json Draft) (row : OperationRow) : Option Draft :=
  (json.decode row.payloadJson).filter (·.status = .draft)

/-- The `limit` newest active drafts of an account. -/
def latestDrafts (json : Json Draft) (accountId : String) (limit : Nat) (l : Ledger) : List Draft :=
  ((newestDrafts accountId l).filterMap (activeDraft json)).take limit

/-- The newest `limit` draft rows are all active, or no older one is. -/
def Covered (json : Json Draft) (accountId : String) (limit : Nat) (l : Ledger) : Prop :=
  (∀ row ∈ (newestDrafts accountId l).take limit, (activeDraft json row).isSome) ∨
    ∀ row ∈ (newestDrafts accountId l).drop limit, activeDraft json row = none

/-- The rows of a listing can be read: reconciliation goes through, every row it leaves alone is
    well formed and its payload is a draft. -/
def Listable (env : External) (json : Json Draft) (accountId : String) (limit : Nat)
    (clock : DateTime) (l : Ledger) : Prop :=
  accountId ≠ "" ∧ Reconcilable env clock l ∧ ∀ row ∈ (newestDrafts accountId l).take limit,
    (row.due env clock = false → Readable env row) ∧ (json.decode row.payloadJson).isSome

section Listing

variable {env : External} {json : Json Draft} {l l' : Ledger} {accountId : String} {limit : Nat}
  {clock : DateTime}

/-! ## 2. Reconciliation and the listing -/

theorem mem_newestDrafts {row : OperationRow} :
    row ∈ newestDrafts accountId l ↔
      row ∈ l.operations ∧ row.accountId = accountId ∧ row.kind = "draft" := by
  simp [newestDrafts, List.mem_insertionSort]

/-- What reconciliation makes of a draft row; a draft is never a stale claim. -/
def reconciledDraft (env : External) (clock : DateTime) (row : OperationRow) : OperationRow :=
  if row.due env clock then expiredRow env clock row else row

theorem reconciledRow_draft (errorJson : String) {row : OperationRow} (hk : row.kind = "draft") :
    reconciledRow env clock errorJson row = reconciledDraft env clock row := by
  have hstale : row.stale env clock = false := by simp [OperationRow.stale, hk]
  simp [reconciledRow, reconciledDraft, hstale]

/-- A column that reconciliation does not write. -/
theorem reconciledRow_createdAt (errorJson : String) (row : OperationRow) :
    (reconciledRow env clock errorJson row).createdAt = row.createdAt := by
  unfold reconciledRow
  split
  · rfl
  · split <;> rfl

/-- **Reconciliation keeps the draft rows of an account in their places.** -/
theorem newestDrafts_reconciled (hd : l.Distinct) (h : reconcileOperations env clock l = .ok l') :
    newestDrafts accountId l' = (newestDrafts accountId l).map (reconciledDraft env clock) := by
  obtain ⟨errorJson, hrows⟩ := reconcile_rows hd h
  have hsel : ∀ row, (decide ((reconciledRow env clock errorJson row).accountId = accountId) &&
      decide ((reconciledRow env clock errorJson row).kind = "draft")) =
        (decide (row.accountId = accountId) && decide (row.kind = "draft")) := by
    intro row
    have hsame := reconciledRow_same env clock errorJson row
    rw [hsame.accountId, hsame.kind]
  have hmap : (newestDrafts accountId l).map (reconciledRow env clock errorJson) =
      newestDrafts accountId l' := by
    unfold newestDrafts
    rw [hrows, List.filter_map, List.map_insertionSort _ (fun a b => b.createdAt ≤ a.createdAt)]
    · congr 2
      exact List.filter_congr fun row _ => (hsel row).symm
    · intro a _ b _
      rw [reconciledRow_createdAt, reconciledRow_createdAt]
  rw [← hmap]
  exact List.map_congr_left fun row hrow => reconciledRow_draft errorJson (mem_newestDrafts.mp hrow).2.2

theorem reconciledDraft_payloadJson (row : OperationRow) :
    (reconciledDraft env clock row).payloadJson = row.payloadJson := by
  unfold reconciledDraft
  split <;> rfl

theorem activeDraft_reconciled (row : OperationRow) :
    activeDraft json (reconciledDraft env clock row) = activeDraft json row := by
  unfold activeDraft
  rw [reconciledDraft_payloadJson]

/-- Reading rows and then their payloads. -/
theorem payloads_ok_iff {rows : List OperationRow} {drafts : List Draft} :
    (∃ operations, rows.mapM (operationFromRow env) = .ok operations ∧
      operations.mapM (decodeDraft json) = .ok drafts) ↔
      (∀ row ∈ rows, Readable env row ∧ (json.decode row.payloadJson).isSome) ∧
        drafts = rows.filterMap fun row => json.decode row.payloadJson := by
  induction rows generalizing drafts with
  | nil =>
      constructor
      · rintro ⟨operations, hrows, hdrafts⟩
        rw [List.mapM_nil, pure_ok] at hrows
        rw [← hrows, List.mapM_nil, pure_ok] at hdrafts
        exact ⟨fun _ h => (List.not_mem_nil h).elim, hdrafts.symm⟩
      · rintro ⟨-, rfl⟩
        exact ⟨[], rfl, rfl⟩
  | cons row rows ih =>
      constructor
      · rintro ⟨operations, hrows, hdrafts⟩
        simp only [List.mapM_cons, bind_ok, pure_ok] at hrows
        obtain ⟨record, hrecord, operations, hrows, rfl⟩ := hrows
        simp only [List.mapM_cons, bind_ok, pure_ok] at hdrafts
        obtain ⟨draft, hdraft, drafts, hdrafts, rfl⟩ := hdrafts
        obtain ⟨hall, rfl⟩ := ih.mp ⟨operations, hrows, hdrafts⟩
        have hdec : json.decode row.payloadJson = some draft := by
          rw [← (operationFromRow_of hrecord).payloadJson]
          exact orRefuse_ok.mp hdraft
        refine ⟨?_, by simp [hdec]⟩
        intro r hr
        rcases List.mem_cons.mp hr with rfl | hr
        · exact ⟨⟨record, hrecord⟩, by simp [hdec]⟩
        · exact hall r hr
      · rintro ⟨hall, rfl⟩
        obtain ⟨⟨record, hrecord⟩, hsome⟩ := hall row List.mem_cons_self
        obtain ⟨draft, hdec⟩ := Option.isSome_iff_exists.mp hsome
        obtain ⟨operations, hrows, hdrafts⟩ :=
          ih.mpr ⟨fun r hr => hall r (List.mem_cons_of_mem _ hr), rfl⟩
        have hdraft : decodeDraft json record = .ok draft := by
          unfold decodeDraft
          rw [(operationFromRow_of hrecord).payloadJson, hdec]
          rfl
        refine ⟨record :: operations, ?_, ?_⟩
        · simp only [List.mapM_cons, bind_ok, pure_ok]
          exact ⟨record, hrecord, operations, hrows, rfl⟩
        · simp only [List.mapM_cons, bind_ok, pure_ok]
          exact ⟨draft, hdraft, _, hdrafts, by simp [hdec]⟩

/-- The active drafts among the rows read. -/
theorem activeDrafts_ok_iff {rows : List OperationRow} {drafts : List Draft} :
    (∃ operations, rows.mapM (operationFromRow env) = .ok operations ∧
      activeDrafts json operations = .ok drafts) ↔
      (∀ row ∈ rows, Readable env row ∧ (json.decode row.payloadJson).isSome) ∧
        drafts = rows.filterMap (activeDraft json) := by
  have hfilter : (rows.filterMap fun row => json.decode row.payloadJson).filter
      (fun d => decide (d.status = .draft)) = rows.filterMap (activeDraft json) :=
    List.filter_filterMap
  constructor
  · rintro ⟨operations, hrows, hact⟩
    simp only [activeDrafts, bind_ok, pure_ok] at hact
    obtain ⟨all, hall, rfl⟩ := hact
    obtain ⟨hread, rfl⟩ := payloads_ok_iff.mp ⟨operations, hrows, hall⟩
    exact ⟨hread, hfilter⟩
  · rintro ⟨hread, rfl⟩
    obtain ⟨operations, hrows, hall⟩ := payloads_ok_iff.mpr ⟨hread, rfl⟩
    refine ⟨operations, hrows, ?_⟩
    simp only [activeDrafts, bind_ok, pure_ok]
    exact ⟨_, hall, hfilter⟩

theorem projected_ok_iff {α β : Type} {project : α → Result β} {call : Result (α × Ledger)}
    {b : β} : projected project call l = (.ok b, l') ↔
      ∃ a, call = .ok (a, l') ∧ project a = .ok b := by
  cases call with
  | error e => simp [projected]
  | ok x =>
      obtain ⟨a, l₁⟩ := x
      simp only [projected, Prod.mk.injEq, Except.ok.injEq]
      constructor
      · rintro ⟨h, rfl⟩
        exact ⟨a, ⟨rfl, rfl⟩, h⟩
      · rintro ⟨_, ⟨rfl, rfl⟩, h⟩
        exact ⟨h, rfl⟩

/-- A reconciled draft row can be read just if the row could, where reconciliation went through. -/
theorem readable_reconciled (hrec : Reconcilable env clock l) {row : OperationRow}
    (hrow : row ∈ l.operations) :
    Readable env (reconciledDraft env clock row) ↔ (row.due env clock = false → Readable env row) := by
  obtain ⟨errorJson, -, hall⟩ := hrec
  unfold reconciledDraft
  cases hdue : row.due env clock with
  | true => simpa using (hall row hrow).1 hdue
  | false => simp

theorem listOperations_draft_iff (hlimit : limit ≠ 0 ∧ limit ≤ 100)
    {operations : List OperationRecord} :
    listOperations env (some accountId) (some "draft") limit clock l = .ok (operations, l') ↔
      accountId ≠ "" ∧ reconcileOperations env clock l = .ok l' ∧
        ((newestDrafts accountId l').take limit).mapM (operationFromRow env) = .ok operations := by
  have hempty : ¬((some accountId).any String.isEmpty || (some "draft").any String.isEmpty) ↔
      accountId ≠ "" := by simp [show ("draft" : String) ≠ "" by decide]
  simp only [listOperations, bind_ok, ensure_ok, pure_ok, Prod.mk.injEq, hempty]
  constructor
  · rintro ⟨_, -, _, ha, l₁, hrec, _, hread, rfl, rfl⟩
    exact ⟨ha, hrec, hread⟩
  · rintro ⟨ha, hrec, hread⟩
    exact ⟨(), hlimit, (), ha, l', hrec, operations, hread, rfl, rfl⟩

/-- **What a listing returns.** -/
theorem listDrafts_ok_iff (hd : l.Distinct) (hlimit : limit ≠ 0 ∧ limit ≤ 100)
    {drafts : List Draft} :
    listDrafts env json accountId limit clock l = (.ok drafts, l') ↔
      reconcileOperations env clock l = .ok l' ∧ Listable env json accountId limit clock l ∧
        drafts = ((newestDrafts accountId l).take limit).filterMap (activeDraft json) := by
  unfold listDrafts
  simp only [projected_ok_iff, listOperations_draft_iff hlimit]
  constructor
  · rintro ⟨operations, ⟨ha, hrec, hread⟩, hact⟩
    obtain ⟨hall, rfl⟩ := activeDrafts_ok_iff.mp ⟨operations, hread, hact⟩
    rw [newestDrafts_reconciled hd hrec, ← List.map_take] at hall ⊢
    have hok : Reconcilable env clock l := (reconcile_ok_iff hd).mp ⟨l', hrec⟩
    refine ⟨hrec, ⟨ha, hok, ?_⟩, ?_⟩
    · intro row hrow
      obtain ⟨hr, hdec⟩ := hall _ (List.mem_map_of_mem hrow)
      have hmem := (mem_newestDrafts.mp (List.mem_of_mem_take hrow)).1
      rw [reconciledDraft_payloadJson] at hdec
      exact ⟨(readable_reconciled hok hmem).mp hr, hdec⟩
    · rw [List.filterMap_map]
      exact List.filterMap_congr fun row _ => activeDraft_reconciled row
  · rintro ⟨hrec, ⟨ha, hok, hall⟩, rfl⟩
    have hread : ∀ row ∈ (newestDrafts accountId l').take limit,
        Readable env row ∧ (json.decode row.payloadJson).isSome := by
      rw [newestDrafts_reconciled hd hrec, ← List.map_take]
      intro row hrow
      obtain ⟨r, hr, rfl⟩ := List.mem_map.mp hrow
      have hmem := (mem_newestDrafts.mp (List.mem_of_mem_take hr)).1
      rw [reconciledDraft_payloadJson]
      exact ⟨(readable_reconciled hok hmem).mpr (hall r hr).1, (hall r hr).2⟩
    obtain ⟨operations, hops, hact⟩ := activeDrafts_ok_iff.mpr ⟨hread, rfl⟩
    refine ⟨operations, ⟨ha, hrec, hops⟩, ?_⟩
    rw [hact, newestDrafts_reconciled hd hrec, ← List.map_take, List.filterMap_map]
    congr 1
    exact List.filterMap_congr fun row _ => activeDraft_reconciled row

/-- **A listing is complete if and only if its rows can be read and no discarded draft among them
    takes the place of an older active one.** -/
theorem list_drafts_complete_iff (hd : l.Distinct) (hlimit : limit ≠ 0 ∧ limit ≤ 100) :
    (listDrafts env json accountId limit clock l).1 = .ok (latestDrafts json accountId limit l) ↔
      Listable env json accountId limit clock l ∧ Covered json accountId limit l := by
  have hcovered : ((newestDrafts accountId l).take limit).filterMap (activeDraft json) =
      latestDrafts json accountId limit l ↔ Covered json accountId limit l := filterMap_take_iff
  constructor
  · intro h
    obtain ⟨-, hlist, hdrafts⟩ := (listDrafts_ok_iff hd hlimit).mp (Prod.ext h rfl)
    exact ⟨hlist, hcovered.mp hdrafts.symm⟩
  · rintro ⟨hlist, hcov⟩
    obtain ⟨l', hrec⟩ := (reconcile_ok_iff hd).mpr hlist.2.1
    have hok := (listDrafts_ok_iff hd hlimit).mpr ⟨hrec, hlist, (hcovered.mpr hcov).symm⟩
    rw [hok]

/-! ## 3. The number of active drafts -/

/-- The row stores an active draft of the account. -/
def activeIn (json : Json Draft) (accountId : String) (row : OperationRow) : Bool :=
  (row.accountId = accountId && row.kind = "draft") && (activeDraft json row).isSome

/-- How many drafts of an account are active. -/
def activeCount (json : Json Draft) (accountId : String) (l : Ledger) : Nat :=
  (l.operations.filter (activeIn json accountId)).length

theorem activeCount_eq : activeCount json accountId l =
    ((newestDrafts accountId l).filterMap (activeDraft json)).length := by
  have hperm : (newestDrafts accountId l).Perm (l.operations.filter fun row =>
      row.accountId = accountId && row.kind = "draft") := List.perm_insertionSort _ _
  rw [List.length_filterMap_eq_countP, hperm.countP_eq, List.countP_eq_length_filter,
    List.filter_filter]
  unfold activeCount
  congr 2
  funext row
  exact Bool.and_comm _ _

/-- The count depends on the account, the kind and the payload of the rows. -/
theorem activeCount_map {g : OperationRow → OperationRow}
    (hg : ∀ row, activeIn json accountId (g row) = activeIn json accountId row)
    (h : l'.operations = l.operations.map g) :
    activeCount json accountId l' = activeCount json accountId l := by
  unfold activeCount
  rw [h, List.filter_map, List.length_map]
  congr 2
  funext row
  exact hg row

theorem activeCount_reconciled (hd : l.Distinct) (h : reconcileOperations env clock l = .ok l') :
    activeCount json accountId l' = activeCount json accountId l := by
  obtain ⟨errorJson, hrows⟩ := reconcile_rows hd h
  refine activeCount_map (fun row => ?_) hrows
  have hsame := reconciledRow_same env clock errorJson row
  unfold activeIn activeDraft
  rw [hsame.accountId, hsame.kind, hsame.payloadJson]

/-- A listing that covers the account shows every active draft, up to the limit. -/
theorem Covered.length_eq (h : Covered json accountId limit l) :
    (((newestDrafts accountId l).take limit).filterMap (activeDraft json)).length =
      min limit (activeCount json accountId l) := by
  rw [filterMap_take_iff.mpr h, List.length_take, activeCount_eq]

/-- A row added to the table adds to its own account at most. -/
theorem activeCount_append {row : OperationRow} (h : l'.operations = l.operations ++ [row]) :
    activeCount json accountId l' ≤
      activeCount json accountId l + if row.accountId = accountId then 1 else 0 := by
  have hone : ([row].filter (activeIn json accountId)).length ≤
      if row.accountId = accountId then 1 else 0 := by
    by_cases ha : row.accountId = accountId
    · rw [if_pos ha]
      exact List.length_filter_le _ _
    · simp [activeIn, ha]
  unfold activeCount
  rw [h, List.filter_append, List.length_append]
  omega

/-- A row written over counts in an account just if it was active there before, or there is room. -/
theorem activeCount_update {p : OperationRow → Bool} {g : OperationRow → OperationRow}
    {row : OperationRow} (hrow : l.operations.filter p = [row])
    (h : l'.operations = update p g l.operations) {bound : Nat}
    (hle : activeCount json accountId l ≤ bound)
    (hroom : activeIn json accountId (g row) = true →
      activeIn json accountId row = true ∨ activeCount json accountId l < bound) :
    activeCount json accountId l' ≤ bound := by
  have hcount : activeCount json accountId l' + (if activeIn json accountId row then 1 else 0) =
      activeCount json accountId l + if activeIn json accountId (g row) then 1 else 0 := by
    unfold activeCount
    rw [h]
    exact length_filter_update hrow _
  by_cases hg : activeIn json accountId (g row) = true
  · rw [if_pos hg] at hcount
    rcases hroom hg with hr | hlt
    · rw [if_pos hr] at hcount
      omega
    · omega
  · rw [if_neg hg] at hcount
    omega

/-! ## 4. The cap -/

/-- The calls of the drafts. -/
def LedgerCall.OfDrafts : LedgerCall → Prop
  | .createDraft .. | .updateDraft .. | .discardDraft .. => True
  | _ => False

/-- A creation finds a listing that covers the account, or room in it; an update finds its row
    active in the account it writes, or room in that account. -/
def LedgerCall.KeepsCap (json : Json Draft) (l : Ledger) : LedgerCall → Prop
  | .createDraft draft _ => Covered json draft.accountId 100 l ∨
      activeCount json draft.accountId l < 100
  | .updateDraft draft => (∃ row ∈ l.operations, row.id = draft.id ∧
      activeIn json draft.accountId row = true) ∨ activeCount json draft.accountId l < 100
  | _ => True

/-- No account has more than 100 active drafts. -/
def Ledger.Capped (json : Json Draft) (l : Ledger) : Prop :=
  ∀ accountId, activeCount json accountId l ≤ 100

/-- The listing of a creation leaves every count. -/
theorem listDrafts_count (hd : l.Distinct) (a : String) :
    activeCount json a (listDrafts env json accountId limit clock l).2 = activeCount json a l := by
  refine projected_invariant (P := fun l' => activeCount json a l' = activeCount json a l) rfl ?_
  intro operations l' h
  simp only [listOperations, bind_ok, pure_ok, Prod.mk.injEq] at h
  obtain ⟨_, -, _, -, l₁, hrec, _, -, -, rfl⟩ := h
  exact activeCount_reconciled hd hrec

theorem createDraft_capped {draft : Draft} (hd : l.Distinct) (hcap : l.Capped json)
    (hroom : (LedgerCall.createDraft draft clock).KeepsCap json l) :
    (createDraft env json draft clock l).2.Capped json := by
  unfold createDraft
  split
  · exact hcap
  · have hcount : ∀ a, activeCount json a (listDrafts env json draft.accountId 100 clock l).2 =
        activeCount json a l := listDrafts_count hd
    cases hlist : listDrafts env json draft.accountId 100 clock l with
    | mk result l₁ =>
    simp only [hlist] at hcount
    have hcap₁ : l₁.Capped json := fun a => (hcount a).trans_le (hcap a)
    cases result with
    | error e => exact hcap₁
    | ok drafts =>
        dsimp only
        split
        · exact hcap₁
        · next hlt =>
            refine projected_invariant hcap₁ ?_
            intro _ l₂ h
            obtain ⟨-, -, rfl⟩ := (listDrafts_ok_iff hd (by decide)).mp hlist
            have hlt' : activeCount json draft.accountId l < 100 := by
              rcases hroom with hcov | hlt'
              · rw [hcov.length_eq] at hlt
                omega
              · exact hlt'
            simp only [insertDraft, bind_ok, pure_ok, Prod.mk.injEq] at h
            obtain ⟨⟨_, _⟩, -, ⟨_, _⟩, hc, -, rfl⟩ := h
            simp only [createOperation, bind_ok, pure_ok, Prod.mk.injEq] at hc
            obtain ⟨_, -, _, -, _, -, -, rfl⟩ := hc
            intro a
            refine (activeCount_append (l := l₁) rfl).trans ?_
            rw [hcount a]
            by_cases ha : draft.accountId = a
            · subst ha
              simp only [draftRecord, if_true]
              omega
            · simp only [draftRecord, ha, if_false]
              exact hcap a

theorem updateDraft_capped {draft draft' : Draft} (hd : l.Distinct) (hcap : l.Capped json)
    (hroom : (LedgerCall.updateDraft draft).KeepsCap json l)
    (h : updateDraft env json draft l = .ok (draft', l')) : l'.Capped json := by
  simp only [updateDraft, bind_ok, pure_ok, ensure_ok, orRefuse_ok, Prod.mk.injEq] at h
  obtain ⟨_, -, _, -, ⟨payloadJson, payloadSha256⟩, -, _, hx, existing, rfl, _, hg, _, -, _, -, -,
    rfl⟩ := h
  obtain ⟨row, hrow, hid, -, -, hof⟩ := operationInTransaction_row hx
  rw [not_or, not_not, not_not, hof.kind, hof.status] at hg
  have hone : l.operations.filter (draftRow draft.id) = [row] :=
    filter_eq_of_key hd hrow (draftRow_iff.mpr ⟨hid, hg⟩)
      fun r _ hr => (draftRow_iff.mp hr).1.trans hid.symm
  intro a
  refine activeCount_update (l := l) hone rfl (hcap a) fun hactive => ?_
  have ha : draft.accountId = a := by
    simp only [activeIn, Bool.and_eq_true, decide_eq_true_eq] at hactive
    exact hactive.1.1
  subst ha
  refine hroom.imp ?_ id
  rintro ⟨r, hr, hrid, hact⟩
  rwa [eq_of_key_eq hd hr hrow (hrid.trans hid.symm)] at hact

/-- A discard writes over a row that it has read as an active draft. -/
theorem discardDraft_capped {id : String} {now : DateTime} (hd : l.Distinct) (hcap : l.Capped json) :
    (discardDraft env json id clock now l).2.Capped json := by
  have hget : (readDiscard env json id clock now l).2.Capped json := by
    refine projected_invariant hcap fun _ l₁ h => ?_
    simp only [getOperation, bind_ok, pure_ok, Prod.mk.injEq] at h
    obtain ⟨_, -, _, hrec, _, -, -, rfl⟩ := h
    exact fun a => (activeCount_reconciled hd hrec).trans_le (hcap a)
  unfold discardDraft
  cases hread : readDiscard env json id clock now l with
  | mk result l₁ =>
  have hcap₁ : l₁.Capped json := by rwa [hread] at hget
  cases result with
  | error e => exact hcap₁
  | ok discarded =>
      obtain ⟨current, hcurrent, hst, -⟩ := readDiscard_some hread
      obtain ⟨hrec, row, hrow, hid, hk, hdec⟩ := getDraft_some hcurrent
      have hd₁ : l₁.Distinct := reconcile_distinct hd hrec
      refine projected_invariant hcap₁ fun _ l₂ h => ?_
      simp only [writeDiscard, bind_ok, pure_ok, orRefuse_ok, Prod.mk.injEq] at h
      obtain ⟨⟨payloadJson, payloadSha256⟩, -, _, -, updated, rfl, rfl, rfl⟩ := h
      have hactive : (activeDraft json row).isSome := by simp [activeDraft, hdec, hst]
      intro a
      by_cases hp : row.status = .planned
      · have hone : l₁.operations.filter (draftRow id) = [row] :=
          filter_eq_of_key hd₁ hrow (draftRow_iff.mpr ⟨hid, hk, hp⟩)
            fun r _ hr => (draftRow_iff.mp hr).1.trans hid.symm
        refine activeCount_update (l := l₁) hone rfl (hcap₁ a) fun h => Or.inl ?_
        simp only [activeIn, Bool.and_eq_true, decide_eq_true_eq] at h ⊢
        exact ⟨h.1, hactive⟩
      · have hnone : l₁.operations.filter (draftRow id) = [] := by
          refine List.filter_eq_nil_iff.mpr fun r hr hmatch => ?_
          obtain ⟨hrid, -, hrp⟩ := draftRow_iff.mp hmatch
          rw [eq_of_key_eq hd₁ hr hrow (hrid.trans hid.symm)] at hrp
          exact hp hrp
        show activeCount json a { l₁ with operations := update _ _ l₁.operations } ≤ 100
        rw [update_eq_self hnone]
        exact hcap₁ a

/-- **The cap of an account**, in every run of the draft calls in which each creation finds a
    listing that covers the account, or room in it, and each update that makes a draft active in an
    account finds room there. -/
theorem active_drafts_capped
    (h : LedgerRun env json (fun l c => c.OfDrafts ∧ c.KeepsCap json l) l) (a : String) :
    activeCount json a l ≤ 100 := by
  have hinv : (RowsOk l ∧ l.DraftsOk) ∧ l.Capped json := by
    refine Reaches.invariant (P := fun l => (RowsOk l ∧ l.DraftsOk) ∧ l.Capped json) ?_ ?_ h
    · rintro l rfl
      exact ⟨⟨.empty, fun r hr => (List.not_mem_nil hr).elim⟩, fun a => Nat.zero_le _⟩
    · rintro l l' ⟨⟨hrows, hdrafts⟩, hcap⟩ ⟨c, ⟨hof, hkeeps⟩, rfl⟩
      have hno : c.EntersNoDraft := by cases c <;> trivial
      have hadv : Advances LastingDraft c.target l (c.run env json l) :=
        c.advances hrows.distinct (hdrafts.discardsPlanned c) fun row ha => hno.adds ha
      refine ⟨⟨hadv.rowsOk hrows, hadv.draftsOk hdrafts⟩, ?_⟩
      cases c with
      | createDraft draft clock => exact createDraft_capped hrows.distinct hcap hkeeps
      | updateDraft draft =>
          exact committed_ledger hcap fun _ _ h => updateDraft_capped hrows.distinct hcap hkeeps h
      | discardDraft id clock now => exact discardDraft_capped hrows.distinct hcap
      | _ => exact hof.elim
  exact hinv.2 a

/-! ## 5. Calls that go through -/

/-- The row a draft enters the ledger with. -/
def draftEntry (env : External) (draft : Draft) (payloadJson : String) : OperationRow where
  id := draft.id
  kind := "draft"
  accountId := draft.accountId
  messageId := none
  payloadJson := payloadJson
  payloadSha256 := env.payloadDigest payloadJson
  status := .planned
  createdAt := env.timestamp draft.createdAt
  expiresAt := none
  approvedAt := none
  updatedAt := env.timestamp draft.updatedAt
  attemptCount := 0
  lastErrorJson := none
  receiptJson := none

theorem insertDraft_ok {draft : Draft} {payloadJson : String}
    (henc : json.encode draft = some payloadJson) (hne : payloadJson ≠ "")
    (huuid : env.parseUuid draft.id = true) (hfresh : draft.id ∉ l.operations.map (·.id)) :
    ∃ l', insertDraft env json draft l = .ok (draft, l') ∧
      l'.operations = l.operations ++ [draftEntry env draft payloadJson] := by
  have hdigest : Outbox.digestJson env json draft =
      .ok (payloadJson, env.payloadDigest payloadJson) := by
    simp [Outbox.digestJson, henc]
  have hcreate : ∃ op l', createOperation env (draftRecord draft payloadJson
      (env.payloadDigest payloadJson)) l = .ok (op, l') ∧
        l'.operations = l.operations ++ [draftEntry env draft payloadJson] := by
    simp only [createOperation, validateOperationId, bind_ok, ensure_ok, pure_ok, Prod.mk.injEq]
    exact ⟨_, _, ⟨(), huuid, (), ⟨rfl, hne, rfl⟩, (), hfresh, rfl, rfl⟩, rfl⟩
  obtain ⟨op, l', hop, hrows⟩ := hcreate
  refine ⟨l', ?_, hrows⟩
  simp only [insertDraft, bind_ok, pure_ok, Prod.mk.injEq]
  exact ⟨_, hdigest, _, hop, trivial, rfl⟩

/-- The rows of a ledger in which nothing is due: planned drafts that can be read. -/
structure Shelved (env : External) (json : Json Draft) (l : Ledger) : Prop where
  distinct : l.Distinct
  rows : ∀ row ∈ l.operations, row.status = .planned ∧ row.expiresAt = none ∧ Readable env row ∧
    (json.decode row.payloadJson).isSome

/-- Nothing of such a ledger is due. -/
theorem Shelved.quiet (h : Shelved env json l) (hstale : (env.mailError.encode staleError).isSome) :
    Reconcilable env clock l := by
  obtain ⟨errorJson, he⟩ := Option.isSome_iff_exists.mp hstale
  refine ⟨errorJson, he, fun row hrow => ?_⟩
  obtain ⟨hst, hx, -⟩ := h.rows row hrow
  constructor
  · intro hdue
    simp [OperationRow.due, hx] at hdue
  · intro hold
    simp [OperationRow.stale, hst] at hold

theorem Shelved.reconciled (h : Shelved env json l) (hrec : reconcileOperations env clock l = .ok l') :
    l'.operations = l.operations := by
  obtain ⟨errorJson, hrows⟩ := reconcile_rows h.distinct hrec
  rw [hrows]
  conv_rhs => rw [← List.map_id l.operations]
  refine List.map_congr_left fun row hrow => ?_
  obtain ⟨hst, hx, -⟩ := h.rows row hrow
  exact reconciledRow_self errorJson (by rw [hst]; decide) (by simp [OperationRow.due, hx])

/-- **A creation that goes through adds its row.** -/
theorem Shelved.createDraft (h : Shelved env json l)
    (hstale : (env.mailError.encode staleError).isSome) {draft : Draft} {payloadJson : String}
    (hcheck : checkNewDraft env draft = .ok ()) (ha : draft.accountId ≠ "")
    (henc : json.encode draft = some payloadJson) (hne : payloadJson ≠ "")
    (huuid : env.parseUuid draft.id = true) (hfresh : draft.id ∉ l.operations.map (·.id))
    (hroom : activeCount json draft.accountId l < 100) :
    (createDraft env json draft clock l).2.operations =
      l.operations ++ [draftEntry env draft payloadJson] := by
  have hok : Reconcilable env clock l := h.quiet hstale
  obtain ⟨l₁, hrec⟩ := (reconcile_ok_iff h.distinct).mpr hok
  have hrows := h.reconciled hrec
  have hread : ∀ row ∈ (newestDrafts draft.accountId l).take 100,
      (row.due env clock = false → Readable env row) ∧ (json.decode row.payloadJson).isSome := by
    intro row hrow
    obtain ⟨-, -, hr, hdec⟩ := h.rows row (mem_newestDrafts.mp (List.mem_of_mem_take hrow)).1
    exact ⟨fun _ => hr, hdec⟩
  have hlist : listDrafts env json draft.accountId 100 clock l =
      (.ok (((newestDrafts draft.accountId l).take 100).filterMap (activeDraft json)), l₁) :=
    (listDrafts_ok_iff h.distinct (by decide)).mpr ⟨hrec, ⟨ha, hok, hread⟩, rfl⟩
  have hlt : ¬100 ≤ (((newestDrafts draft.accountId l).take 100).filterMap
      (activeDraft json)).length := by
    have hle := ((List.take_sublist 100 (newestDrafts draft.accountId l)).filterMap
      (activeDraft json)).length_le
    rw [← activeCount_eq] at hle
    omega
  obtain ⟨l₂, hinsert, hrows₂⟩ := insertDraft_ok (l := l₁) henc hne huuid (by rwa [hrows])
  unfold Kirje.createDraft
  rw [hcheck, hlist]
  simp only [if_neg hlt, hinsert, projected]
  rw [hrows₂, hrows]

/-- What an update makes of the row of its draft. -/
def updatedRow (env : External) (draft : Draft) (payloadJson : String) (row : OperationRow) :
    OperationRow :=
  { row with
    accountId := draft.accountId
    payloadJson := payloadJson
    payloadSha256 := env.payloadDigest payloadJson
    updatedAt := env.timestamp draft.updatedAt }

/-- **An update that goes through writes its row.** -/
theorem Shelved.updateDraft (h : Shelved env json l) {draft : Draft} {payloadJson : String}
    (hstatus : draft.status = .draft) (hcheck : draft.request.validate env = .ok ())
    (henc : json.encode draft = some payloadJson) {row : OperationRow} (hrow : row ∈ l.operations)
    (hid : row.id = draft.id) (hk : row.kind = "draft")
    (hread : Readable env (updatedRow env draft payloadJson row)) :
    ∃ l', updateDraft env json draft l = .ok (draft, l') ∧
      l'.operations = update (draftRow draft.id) (updatedRow env draft payloadJson) l.operations := by
  have hdigest : Outbox.digestJson env json draft =
      .ok (payloadJson, env.payloadDigest payloadJson) := by
    simp [Outbox.digestJson, henc]
  obtain ⟨hst, -, ⟨record, hrecord⟩, -⟩ := h.rows row hrow
  have hof := operationFromRow_of hrecord
  have hguard : ¬(record.kind ≠ "draft" ∨ record.status ≠ .planned) := by
    rw [hof.kind, hof.status, hk, hst]
    simp
  have hexisting := (operationInTransaction_ok_iff h.distinct).mpr ⟨row, hrow, hid, hrecord⟩
  obtain ⟨updated, hupdated⟩ := hread
  have hwritten := (read_written_iff (p := draftRow draft.id) (g := updatedRow env draft payloadJson)
    (fun _ => rfl) h.distinct hrow (draftRow_iff.mpr ⟨hid, hk, hst⟩)).mpr hupdated
  rw [hid] at hwritten
  simp only [Kirje.updateDraft, bind_ok, pure_ok, ensure_ok, orRefuse_ok, Prod.mk.injEq]
  exact ⟨_, ⟨(), hstatus, (), hcheck, _, hdigest, _, hexisting, record, rfl, (), hguard, _, hwritten,
    updated, rfl, trivial, rfl⟩, rfl⟩

end Listing

/-! ## 6. Samples -/

namespace ListingSample

/-- The variable part of a draft, next to its identifier. -/
structure Label where
  accountId : String
  status : DraftStatus
  createdAt : DateTime
  deriving DecidableEq

def draft (label : Label) (id : String) : Draft where
  id := id
  accountId := label.accountId
  mode := .new
  source := none
  request := {
    accountId := label.accountId
    toAddrs := [⟨none, "ada@example.org"⟩]
    cc := []
    bcc := []
    subject := "Hello"
    text := some "First"
    html := none
    attachments := [] }
  attachmentSummaries := []
  status := label.status
  createdAt := label.createdAt
  updatedAt := 0

/-- The text of a draft after its identifier. -/
def rest (label : Label) : String :=
  "\",\"account_id\":\"" ++ label.accountId ++ "\",\"mode\":\"new\"," ++
  "\"source\":null,\"request\":\x7b\"account_id\":\"" ++ label.accountId ++ "\"," ++
  "\"to\":[\x7b\"name\":null,\"email\":\"ada@example.org\"\x7d],\"cc\":[],\"bcc\":[]," ++
  "\"subject\":\"Hello\",\"text\":\"First\",\"html\":null,\"attachments\":[]\x7d," ++
  "\"attachment_summaries\":[],\"status\":\"" ++
  (if label.status = .draft then "draft" else "discarded") ++ "\",\"created_at\":\"" ++
  (if label.createdAt = 0 then "1970-01-01T00:00:00Z" else "1970-01-02T00:00:00Z") ++
  "\",\"updated_at\":\"1970-01-01T00:00:00Z\"\x7d"

def start : String := "\x7b\"id\":\""

def text (label : Label) (id : String) : String := start ++ id ++ rest label

def personal : Label := ⟨"personal", .draft, 0⟩

def work : Label := ⟨"work", .draft, 0⟩

def later : Label := ⟨"personal", .draft, DateTime.hours 24⟩

def discarded : Label := ⟨"personal", .discarded, DateTime.hours 24⟩

def labels : List Label := [personal, work, later, discarded]

/-- The encoding of the drafts with these labels; an identifier has 36 characters. -/
def json : Json Draft where
  encode d := some (text ⟨d.accountId, d.status, d.createdAt⟩ d.id)
  decode s :=
    let tail := s.toList.drop start.toList.length
    (labels.find? fun label => String.ofList (tail.drop 36) = rest label).map fun label =>
      draft label (String.ofList (tail.take 36))

theorem encode_draft (label : Label) (id : String) :
    json.encode (draft label id) = some (text label id) := rfl

theorem find_label : ∀ label ∈ labels,
    labels.find? (fun x => rest label = rest x) = some label := by
  decide +kernel

theorem decode_text {label : Label} (hl : label ∈ labels) {id : String} (hid : id.length = 36) :
    json.decode (text label id) = some (draft label id) := by
  have htail : (text label id).toList.drop start.toList.length =
      id.toList ++ (rest label).toList := by
    simp [text]
  have hlen : id.toList.length = 36 := by rw [String.length_toList, hid]
  have hdrop : (id.toList ++ (rest label).toList).drop 36 = (rest label).toList := by
    rw [← hlen, List.drop_left]
  have htake : (id.toList ++ (rest label).toList).take 36 = id.toList := by
    rw [← hlen, List.take_left]
  simp only [json, htail, hdrop, htake, String.ofList_toList, find_label label hl, Option.map_some]

/-- The environment of the sample run, with a digest that has no collisions. -/
def env : External :=
  { Sample.env with
    payloadDigest := fun s => s
    parseUuid := fun s => s.length = 36 }

def idStart : String := "8b1f8a3e-52c4-4f0e-9d3b-6a7c1e2f4"

def draftId (n : Nat) : String := idStart ++ String.ofList (pad 3 n)

theorem draftId_length (n : Nat) : (draftId n).length = 36 := by
  have hstart : idStart.length = 33 := by decide
  rw [draftId, String.length_append, hstart, String.length_ofList, length_pad]

/-- Below a thousand, a number is its three digits. -/
theorem draftId_inj {m n : Nat} (hm : m < 1000) (hn : n < 1000) (h : draftId m = draftId n) :
    m = n := by
  have hdigits : pad 3 m = pad 3 n := by
    have := congrArg (fun s => s.toList.drop idStart.toList.length) h
    simpa [draftId] using this
  exact pad_inj hm hn hdigits

/-- The row of a draft with a label and a number. -/
def row (item : Label × Nat) : OperationRow :=
  draftEntry env (draft item.1 (draftId item.2)) (text item.1 (draftId item.2))

theorem row_readable : ∀ label ∈ labels, ∀ n, Readable env (row (label, n)) := by
  have hcreated : ∀ label ∈ labels, (env.parseTimestamp (env.timestamp label.createdAt)).isSome := by
    decide
  intro label hl n
  obtain ⟨t, ht⟩ := Option.isSome_iff_exists.mp (hcreated label hl)
  have hcol : (row (label, n)).createdAt = env.timestamp label.createdAt := rfl
  simp only [Readable, operationFromRow, parseTimestamp, bind_ok, ensure_ok, orRefuse_ok, pure_ok, hcol]
  exact ⟨_, (), rfl, t, ht, none, rfl, none, rfl, 0, rfl, (), Nat.two_pow_pos 32, none, rfl, rfl⟩

/-- A ledger of such rows. -/
theorem shelved {l : Ledger} {items : List (Label × Nat)} (h : l.operations = items.map row)
    (hn : (items.map (·.2)).Nodup) (hall : ∀ item ∈ items, item.1 ∈ labels ∧ item.2 < 1000) :
    Shelved env json l := by
  constructor
  · unfold Ledger.Distinct
    rw [h, List.map_map]
    refine List.Nodup.map_on ?_ (List.Nodup.of_map _ hn)
    intro a ha b hb hid
    have hnum : a.2 = b.2 := draftId_inj (hall a ha).2 (hall b hb).2 hid
    exact List.inj_on_of_nodup_map hn ha hb hnum
  · intro r hr
    rw [h] at hr
    obtain ⟨⟨label, n⟩, hitem, rfl⟩ := List.mem_map.mp hr
    refine ⟨rfl, rfl, row_readable label (hall _ hitem).1 n, ?_⟩
    have hdec := decode_text (hall _ hitem).1 (draftId_length n)
    simp only [row, draftEntry, hdec, Option.isSome_some]

theorem stale_encodes : (env.mailError.encode staleError).isSome := by decide

theorem personal_valid (id : String) : (draft personal id).request.validate env = .ok () :=
  (by decide : (draft personal "").request.validate env = .ok ())

theorem work_valid (id : String) : (draft work id).request.validate env = .ok () :=
  (by decide : (draft work "").request.validate env = .ok ())

/-- A draft with a new number can be created, where the account has room. -/
theorem create_next {l : Ledger} {items : List (Label × Nat)} (h : l.operations = items.map row)
    (hn : (items.map (·.2)).Nodup) (hall : ∀ item ∈ items, item.1 ∈ labels ∧ item.2 < 1000)
    {label : Label} (hl : label = personal ∨ label = work) {n : Nat} (hlt : n < 1000)
    (hfresh : n ∉ items.map (·.2)) (hroom : activeCount json label.accountId l < 100) :
    (createDraft env json (draft label (draftId n)) 0 l).2.operations =
      (items ++ [(label, n)]).map row := by
  have hcheck : checkNewDraft env (draft label (draftId n)) = .ok () := by
    simp only [checkNewDraft, bind_ok, ensure_ok]
    rcases hl with rfl | rfl
    · exact ⟨(), rfl, personal_valid _⟩
    · exact ⟨(), rfl, work_valid _⟩
  have hnonempty : (draft label (draftId n)).accountId ≠ "" := by
    rcases hl with rfl | rfl
    · exact (by decide : personal.accountId ≠ "")
    · exact (by decide : work.accountId ≠ "")
  have hid : (draft label (draftId n)).id ∉ l.operations.map (·.id) := by
    rw [h, List.map_map, List.mem_map]
    rintro ⟨item, hitem, heq⟩
    have hnum : item.2 = n := draftId_inj (hall item hitem).2 hlt heq
    exact hfresh (List.mem_map.mpr ⟨item, hitem, hnum⟩)
  have hne : text label (draftId n) ≠ "" := by
    intro he
    have := congrArg String.length he
    simp [text, draftId_length] at this
  rw [(shelved h hn hall).createDraft stale_encodes hcheck hnonempty
    (encode_draft _ _) hne (by simp [env, draft, draftId_length]) hid hroom, h, List.map_append]
  rfl

theorem activeIn_row {item : Label × Nat} (hl : item.1 ∈ labels) (a : String) :
    activeIn json a (row item) = (decide (item.1.accountId = a) && decide (item.1.status = .draft)) := by
  have hdec : json.decode (row item).payloadJson = some (draft item.1 (draftId item.2)) :=
    decode_text hl (draftId_length item.2)
  have hacc : (row item).accountId = item.1.accountId := rfl
  have hkind : (row item).kind = "draft" := rfl
  have hst : (draft item.1 (draftId item.2)).status = item.1.status := rfl
  unfold activeIn activeDraft
  rw [hdec, hacc, hkind]
  by_cases hs : item.1.status = .draft <;> simp [Option.filter, hst, hs]

/-- The count of such rows is a count of labels. -/
theorem activeCount_rows {l : Ledger} {items : List (Label × Nat)} (h : l.operations = items.map row)
    (hall : ∀ item ∈ items, item.1 ∈ labels) (a : String) :
    activeCount json a l = (items.filter fun item =>
      decide (item.1.accountId = a) && decide (item.1.status = .draft)).length := by
  unfold activeCount
  rw [h, List.filter_map, List.length_map]
  congr 1
  exact List.filter_congr fun item hitem => activeIn_row (hall item hitem) a

/-- The first drafts of one account. -/
def stock (n : Nat) : List (Label × Nat) := (List.range n).map (Prod.mk personal)

theorem stock_numbers (n : Nat) : (stock n).map (·.2) = List.range n := by
  simp [stock, Function.comp_def]

theorem stock_all {n : Nat} (hn : n ≤ 100) : ∀ item ∈ stock n, item.1 ∈ labels ∧ item.2 < 1000 := by
  intro item hitem
  obtain ⟨k, hk, rfl⟩ := List.mem_map.mp hitem
  rw [List.mem_range] at hk
  exact ⟨List.mem_cons_self, by show k < 1000; omega⟩

theorem stock_count {n : Nat} {l : Ledger} (h : l.operations = (stock n).map row) (a : String) :
    activeCount json a l ≤ n := by
  refine (List.length_filter_le _ _).trans_eq ?_
  simp [h, stock]

/-- As many drafts as there is room for, one creation after the other. -/
theorem stocked {P : Ledger → LedgerCall → Prop}
    (hP : ∀ l c, LedgerCall.OfDrafts c → c.KeepsCap json l → P l c) {n : Nat} (hn : n ≤ 100) :
    ∃ l, LedgerRun env json P l ∧ l.operations = (stock n).map row := by
  induction n with
  | zero => exact ⟨Ledger.empty, .start rfl, rfl⟩
  | succ n ih =>
      obtain ⟨l, hrun, hl⟩ := ih (by omega)
      have hroom : activeCount json personal.accountId l < 100 := by
        have := stock_count hl personal.accountId
        omega
      have hcall := hP l (.createDraft (draft personal (draftId n)) 0) trivial (Or.inr hroom)
      refine ⟨_, hrun.next ⟨_, hcall, rfl⟩, ?_⟩
      have hfresh : n ∉ (stock n).map (·.2) := by simp [stock_numbers]
      have hrows := create_next hl (by rw [stock_numbers]; exact List.nodup_range)
        (stock_all (by omega)) (Or.inl rfl) (by omega : n < 1000) hfresh hroom
      rw [show stock (n + 1) = stock n ++ [(personal, n)] by simp [stock, List.range_succ]]
      exact hrows

/-- The account `personal` is full and `work` has a draft. -/
def filled : List (Label × Nat) := stock 100 ++ [(work, 100)]

theorem filled_numbers : (filled.map (·.2)).Nodup := by
  rw [filled, List.map_append, stock_numbers]
  exact List.range_succ ▸ List.nodup_range (n := 101)

theorem filled_all : ∀ item ∈ filled, item.1 ∈ labels ∧ item.2 < 1000 := by
  intro item hitem
  rcases List.mem_append.mp hitem with h | h
  · exact stock_all le_rfl item h
  · rw [List.mem_singleton] at h
    subst h
    decide

theorem filled_run : ∃ l, LedgerRun env json (fun _ c => c.OfDrafts) l ∧
    l.operations = filled.map row := by
  obtain ⟨l, hrun, hl⟩ := stocked (fun _ _ h _ => h) (le_refl 100)
  have hroom : activeCount json work.accountId l < 100 := by
    rw [activeCount_rows hl (fun item h => (stock_all le_rfl item h).1)]
    decide
  refine ⟨_, hrun.next ⟨.createDraft (draft work (draftId 100)) 0, trivial, rfl⟩, ?_⟩
  exact create_next hl (by rw [stock_numbers]; exact List.nodup_range) (stock_all le_rfl)
    (Or.inr rfl) (by decide) (by simp [stock_numbers]) hroom

end ListingSample

open ListingSample in
/-- An account filled up to the cap. -/
theorem active_drafts_capped_sample_run : ∃ l,
    LedgerRun ListingSample.env ListingSample.json
        (fun l c => c.OfDrafts ∧ c.KeepsCap ListingSample.json l) l ∧
      l.operations.length = 100 ∧ activeCount ListingSample.json "personal" l ≤ 100 := by
  obtain ⟨l, hrun, hl⟩ := stocked (P := fun l c => c.OfDrafts ∧ c.KeepsCap json l)
    (fun _ _ hof hkeeps => ⟨hof, hkeeps⟩) (le_refl 100)
  exact ⟨l, hrun, by simp [hl, stock], active_drafts_capped hrun "personal"⟩

open ListingSample in
/-- **An account filled up to the cap, and a draft of another account moved into it.** -/
theorem draft_moved_into_full_account : ∃ l,
    LedgerRun ListingSample.env ListingSample.json (fun _ c => c.OfDrafts) l ∧
      activeCount ListingSample.json "personal" l = 101 := by
  obtain ⟨l, hrun, hl⟩ := filled_run
  have hshelf := shelved hl filled_numbers filled_all
  have hrow : row (work, 100) ∈ l.operations := by
    rw [hl]
    exact List.mem_map_of_mem (List.mem_append_right _ (List.mem_singleton_self _))
  have hwritten : updatedRow env (draft personal (draftId 100)) (text personal (draftId 100))
      (row (work, 100)) = row (personal, 100) := rfl
  obtain ⟨l', hup, hl'⟩ := hshelf.updateDraft rfl (personal_valid _)
    (encode_draft personal (draftId 100)) hrow rfl rfl
    (hwritten ▸ row_readable personal List.mem_cons_self 100)
  refine ⟨l', hrun.next ⟨.updateDraft (draft personal (draftId 100)), trivial, ?_⟩, ?_⟩
  · show committed l (updateDraft env json (draft personal (draftId 100)) l) = l'
    rw [hup]
    rfl
  · have hone : l.operations.filter (draftRow (draft personal (draftId 100)).id) = [row (work, 100)] :=
      filter_eq_of_key hshelf.distinct hrow (draftRow_iff.mpr ⟨rfl, rfl, rfl⟩)
        fun r _ hr => (draftRow_iff.mp hr).1
    have hcount := length_filter_update (f := updatedRow env (draft personal (draftId 100))
      (text personal (draftId 100))) hone (activeIn json "personal")
    have hbefore : activeCount json "personal" l = 100 := by
      rw [activeCount_rows hl (fun item h => (filled_all item h).1)]
      decide
    rw [hwritten, activeIn_row (by decide), activeIn_row (by decide), ← hl'] at hcount
    unfold activeCount at hbefore ⊢
    rw [hbefore] at hcount
    simpa [work, personal] using hcount

namespace ListingSample

/-- The encoding of two drafts, the second created a day later and then discarded. -/
def pair : Json Draft := Json.ofTable
  [(draft personal (draftId 0), text personal (draftId 0)),
    (draft later (draftId 1), text later (draftId 1)),
    (draft discarded (draftId 1), text discarded (draftId 1))]

def two : Ledger :=
  (createDraft env pair (draft later (draftId 1)) 0
    (createDraft env pair (draft personal (draftId 0)) 0 Ledger.empty).2).2

/-- The later one discarded. -/
def older : Ledger := (discardDraft env pair (draftId 1) 0 0 two).2

theorem older_run : LedgerRun env pair (fun _ c => c.OfDrafts) older :=
  (((show LedgerRun env pair (fun _ c => c.OfDrafts) Ledger.empty from .start rfl).next
    ⟨.createDraft (draft personal (draftId 0)) 0, trivial, rfl⟩).next
    ⟨.createDraft (draft later (draftId 1)) 0, trivial, rfl⟩).next
    ⟨.discardDraft (draftId 1) 0 0, trivial, rfl⟩

end ListingSample

open ListingSample in
/-- While both drafts are active, the listing shows the newer. -/
theorem list_drafts_complete_sample :
    (listDrafts env pair "personal" 1 0 two).1 = .ok (latestDrafts pair "personal" 1 two) ∧
      Listable env pair "personal" 1 0 two ∧ Covered pair "personal" 1 two := by
  have hlist : (listDrafts env pair "personal" 1 0 two).1 =
      .ok (latestDrafts pair "personal" 1 two) := by
    decide +kernel
  have hd : two.Distinct := by
    unfold Ledger.Distinct
    decide +kernel
  exact ⟨hlist, (list_drafts_complete_iff hd (by decide)).mp hlist⟩

open ListingSample in
/-- **A discarded draft hides the active one**: the listing is empty, and there is an active
    draft. -/
theorem discarded_draft_hides_active :
    LedgerRun env pair (fun _ c => c.OfDrafts) older ∧
      (listDrafts env pair "personal" 1 0 older).1 = .ok [] ∧
      latestDrafts pair "personal" 1 older = [draft personal (draftId 0)] := by
  refine ⟨older_run, ?_⟩
  decide +kernel

end Kirje
