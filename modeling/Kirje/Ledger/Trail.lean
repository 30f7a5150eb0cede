import Kirje.Ledger.Advances
import Kirje.Ledger.AtMostOnce

/-
  File:      Kirje/Ledger/Trail.lean
  Subject:   The state machine of the ledger rows and the audit trail behind it,
             over every sequence of ledger calls.

  * `ColumnsOk`: the columns of a row agree with its status.
  * `TrailOk`: the events of a row lead from its creation to where it stands.
  * **`ledger_state_machine`**: both rows and steps, for every sequence of calls.
  * **`audit_trail_of_planned_discards`**: the trail, for every sequence of calls
    whose discards find their draft planned; on one that has expired,
    `discard_draft` reports a move that did not happen
    (`discard_of_expired_draft`).
-/

namespace Kirje

open Base

section Runs

variable {env : External} {json : Json Draft} {N : OperationRow → Prop}

/-! ## 1. Calls -/

/-- The calls of `OperationLedger` and `Outbox::create`. -/
inductive LedgerCall where
  | create (plan : SendPlan)
  | createOperation (operation : OperationRecord)
  | createDraft (draft : Draft) (clock : DateTime)
  | updateDraft (draft : Draft)
  | discardDraft (draftId : String) (clock now : DateTime)
  | getDraft (draftId : String) (clock : DateTime)
  | listDrafts (accountId : String) (limit : Nat) (clock : DateTime)
  | get (operationId : String) (now : DateTime)
  | list (accountId kind : Option String) (limit : Nat) (now : DateTime)
  | approve (operationId : String) (now : DateTime)
  | claim (operationId : String) (now : DateTime)
  | succeed (operationId receiptJson : String) (now : DateTime)
  | fail (operationId : String) (error : MailError) (now : DateTime)
  | ambiguous (operationId : String) (error : MailError) (now : DateTime)

/-- The ledger a call leaves. -/
def LedgerCall.run (env : External) (json : Json Draft) (l : Ledger) : LedgerCall → Ledger
  | .create plan => committed l (Outbox.create env plan l)
  | .createOperation operation => committed l (Kirje.createOperation env operation l)
  | .createDraft draft clock => (Kirje.createDraft env json draft clock l).2
  | .updateDraft draft => committed l (Kirje.updateDraft env json draft l)
  | .discardDraft draftId clock now => (Kirje.discardDraft env json draftId clock now l).2
  | .getDraft draftId clock => (Kirje.getDraft env json draftId clock l).2
  | .listDrafts accountId limit clock => (Kirje.listDrafts env json accountId limit clock l).2
  | .get operationId now => committed l (getOperation env operationId now l)
  | .list accountId kind limit now => committed l (listOperations env accountId kind limit now l)
  | .approve operationId now => committed l (approveOperation env operationId now l)
  | .claim operationId now => committed l (claimOperation env operationId now l)
  | .succeed operationId receiptJson now =>
      committed l (succeedOperation env operationId receiptJson now l)
  | .fail operationId error now => committed l (failOperation env operationId error now l)
  | .ambiguous operationId error now => committed l (ambiguousOperation env operationId error now l)

/-- The operation a call names. -/
def LedgerCall.target : LedgerCall → Option String
  | .create plan => some plan.id
  | .createOperation operation => some operation.id
  | .createDraft draft _ | .updateDraft draft => some draft.id
  | .discardDraft id _ _ | .approve id _ | .claim id _ | .succeed id _ _ | .fail id _ _
  | .ambiguous id _ _ => some id
  | .getDraft .. | .listDrafts .. | .get .. | .list .. => none

/-- `create_operation` enters no draft. -/
def LedgerCall.EntersNoDraft : LedgerCall → Prop
  | .createOperation operation => operation.kind ≠ "draft"
  | _ => True

instance (c : LedgerCall) : Decidable c.EntersNoDraft := by
  cases c <;> unfold LedgerCall.EntersNoDraft <;> infer_instance

/-- `discard_draft` finds no active draft in a row that has expired or is due to. -/
def LedgerCall.DiscardsPlanned (env : External) (json : Json Draft) (l : Ledger) : LedgerCall → Prop
  | .discardDraft draftId clock _ => ∀ r ∈ l.operations, r.id = draftId → r.kind = "draft" →
      (json.decode r.payloadJson).any (·.status = .draft) →
      r.status = .planned ∧ r.due env clock = false
  | _ => True

/-- The ledgers that calls lead to from an empty store, each with a property at the ledger it is
    made on. -/
def LedgerRun (env : External) (json : Json Draft) (P : Ledger → LedgerCall → Prop) :
    Ledger → Prop :=
  Reaches (· = Ledger.empty) fun l l' => ∃ c, P l c ∧ c.run env json l = l'

theorem committed_ledger {α : Type} {call : Result (α × Ledger)} {l : Ledger} {P : Ledger → Prop}
    (hl : P l) (h : ∀ a l', call = .ok (a, l') → P l') : P (committed l call) := by
  cases call with
  | error e => exact hl
  | ok x => exact h x.1 x.2 rfl

/-- The listing of a creation is a sequence of advances, and so is the creation. -/
theorem createDraft_advances {draft : Draft} {clock : DateTime} {l : Ledger}
    (hN : ∀ row, LastingDraft row → N row) (hd : l.Distinct) :
    Advances N (some draft.id) l (createDraft env json draft clock l).2 := by
  unfold createDraft
  split
  · exact .refl
  · have hlist : Advances N (some draft.id) l (listDrafts env json draft.accountId 100 clock l).2 :=
      projected_invariant (P := fun l' => Advances N (some draft.id) l l') .refl fun _ _ h =>
        list_advances hd h
    generalize listDrafts env json draft.accountId 100 clock l = r at hlist ⊢
    obtain ⟨drafts, l₁⟩ := r
    cases drafts with
    | error e => exact hlist
    | ok drafts =>
        dsimp only
        split
        · exact hlist
        · refine projected_invariant (P := fun l' => Advances N (some draft.id) l l') hlist
            fun _ l₂ h => ?_
          simp only [insertDraft, bind_ok, pure_ok, Prod.mk.injEq] at h
          obtain ⟨⟨_, _⟩, -, ⟨_, _⟩, hc, -, rfl⟩ := h
          refine hlist.tail (create_advance ?_ hc)
          intro row _ hx
          exact hN row fun _ => hx

/-- A row that is planned and not due is left alone, and so is a draft that is not due. -/
theorem reconciledRow_self {now : DateTime} (errorJson : String) {r : OperationRow}
    (hs : r.status ≠ .applying) (hdue : r.due env now = false) :
    reconciledRow env now errorJson r = r := by
  have hstale : r.stale env now = false := by simp [OperationRow.stale, hs]
  simp [reconciledRow, hdue, hstale]

theorem reconciledRow_same (env : External) (now : DateTime) (errorJson : String) (r : OperationRow) :
    r.Same (reconciledRow env now errorJson r) := by
  unfold reconciledRow
  split
  · exact ⟨rfl, rfl, rfl, rfl⟩
  · split <;> exact ⟨rfl, rfl, rfl, rfl⟩

/-- Under its guard, a discard finds a planned row. -/
theorem readDiscard_planned {id : String} {clock now : DateTime} {l l₁ : Ledger} {d : Draft}
    (hd : l.Distinct) (hg : (LedgerCall.discardDraft id clock now).DiscardsPlanned env json l)
    (h : readDiscard env json id clock now l = (.ok d, l₁)) :
    ∃ x ∈ l₁.operations, x.id = id ∧ x.kind = "draft" ∧ x.status = .planned := by
  obtain ⟨current, hget, hst, -⟩ := readDiscard_some h
  obtain ⟨hrec, x, hx, hid, hk, hdec⟩ := getDraft_some hget
  obtain ⟨errorJson, hrows⟩ := reconcile_rows hd hrec
  obtain ⟨r, hr, rfl⟩ := List.mem_map.mp (hrows ▸ hx)
  have hsame := reconciledRow_same env clock errorJson r
  rw [hsame.payloadJson] at hdec
  obtain ⟨hp, hdue⟩ := hg r hr (hsame.id.symm.trans hid) (hsame.kind.symm.trans hk)
    (by simp [hdec, hst])
  have hself := reconciledRow_self errorJson (by rw [hp]; decide) hdue
  exact ⟨_, hx, hid, hk, by rw [hself]; exact hp⟩

/-- The read of a discard is a sequence of advances, and its write is one. -/
theorem discardDraft_advances {id : String} {clock now : DateTime} {l : Ledger} (hd : l.Distinct)
    (hg : (LedgerCall.discardDraft id clock now).DiscardsPlanned env json l) :
    Advances N (some id) l (discardDraft env json id clock now l).2 := by
  have hget : Advances N (some id) l (getDraft env json id clock l).2 :=
    projected_invariant (P := fun l' => Advances N (some id) l l') .refl fun _ _ h =>
      get_advances hd h
  have hread : Advances N (some id) l (readDiscard env json id clock now l).2 := hget
  unfold discardDraft
  generalize hr : readDiscard env json id clock now l = r at hread ⊢
  obtain ⟨discarded, l₁⟩ := r
  cases discarded with
  | error e => exact hread
  | ok discarded =>
      refine projected_invariant (P := fun l' => Advances N (some id) l l') hread fun _ l₂ h => ?_
      obtain ⟨x, hx, hid, hk⟩ := readDiscard_planned hd hg hr
      exact hread.tail (writeDiscard_advance (hread.distinct hd) hx hid hk h)

/-- What a call promises of a row it adds. -/
def LedgerCall.Adds (row : OperationRow) : LedgerCall → Prop
  | .createOperation operation => row.kind = operation.kind
  | _ => LastingDraft row

/-- **Every call is a sequence of advances.** -/
theorem LedgerCall.advances {l : Ledger} (hd : l.Distinct) {c : LedgerCall}
    (hg : c.DiscardsPlanned env json l) (hN : ∀ row, c.Adds row → N row) :
    Advances N c.target l (c.run env json l) := by
  cases c with
  | create plan =>
      refine committed_ledger (P := fun l' => Advances N _ l l') .refl fun _ _ h => ?_
      simp only [Outbox.create, bind_ok, pure_ok, Prod.mk.injEq] at h
      obtain ⟨_, -, _, -, ⟨_, _⟩, -, ⟨_, _⟩, hcreate, -, rfl⟩ := h
      refine .single (create_advance (fun row hk _ => hN row fun hdraft => ?_) hcreate)
      exact absurd (hk.symm.trans hdraft) (show "send" ≠ "draft" by decide)
  | createOperation operation =>
      exact committed_ledger (P := fun l' => Advances N _ l l') .refl fun _ _ h =>
        .single (create_advance (fun row hk _ => hN row hk) h)
  | createDraft draft clock => exact createDraft_advances hN hd
  | updateDraft draft =>
      exact committed_ledger (P := fun l' => Advances N _ l l') .refl fun _ _ h =>
        .single (updateDraft_advance hd h)
  | discardDraft id clock now => exact discardDraft_advances hd hg
  | getDraft id clock =>
      exact projected_invariant (P := fun l' => Advances N _ l l') .refl fun _ _ h => get_advances hd h
  | listDrafts accountId limit clock =>
      exact projected_invariant (P := fun l' => Advances N _ l l') .refl fun _ _ h => list_advances hd h
  | get id now =>
      exact committed_ledger (P := fun l' => Advances N _ l l') .refl fun _ _ h => get_advances hd h
  | list accountId kind limit now =>
      exact committed_ledger (P := fun l' => Advances N _ l l') .refl fun _ _ h => list_advances hd h
  | approve id now =>
      exact committed_ledger (P := fun l' => Advances N _ l l') .refl fun _ _ h =>
        approve_advances hd h
  | claim id now =>
      exact committed_ledger (P := fun l' => Advances N _ l l') .refl fun _ _ h => claim_advances hd h
  | succeed id receiptJson now =>
      refine committed_ledger (P := fun l' => Advances N _ l l') .refl fun _ _ h =>
        .single (finish_advance hd (fun errorJson he => ?_) h)
      obtain rfl : errorJson = none := by simpa using he
      exact .succeeded receiptJson
  | fail id error now =>
      refine committed_ledger (P := fun l' => Advances N _ l l') .refl fun _ _ h =>
        .single (finish_advance hd (fun errorJson he => ?_) h)
      obtain ⟨e, rfl⟩ := Option.isSome_iff_exists.mp he
      exact .failed e
  | ambiguous id error now =>
      refine committed_ledger (P := fun l' => Advances N _ l l') .refl fun _ _ h =>
        .single (finish_advance hd (fun errorJson he => ?_) h)
      obtain ⟨e, rfl⟩ := Option.isSome_iff_exists.mp he
      exact .ambiguous e

/-! ## 2. Rows -/

/-- The statuses a status may be followed by. -/
def OperationStatus.next : OperationStatus → List OperationStatus
  | .planned => [.approved, .expired]
  | .approved => [.applying, .expired]
  | .applying => [.succeeded, .failed, .ambiguous]
  | _ => []

/-- **The columns of a row agree with its status.** -/
structure ColumnsOk (r : OperationRow) : Prop where
  attempts : r.attemptCount = if r.status.claimed then 1 else 0
  unapproved : r.status = .planned → r.approvedAt = none
  approved : r.status = .approved ∨ r.status.claimed → r.approvedAt.isSome
  receipt : r.receiptJson.isSome ↔ r.status = .succeeded
  error : r.lastErrorJson.isSome ↔ r.status = .failed ∨ r.status = .ambiguous

theorem NewRow.columnsOk {row : OperationRow} (h : NewRow row) : ColumnsOk row := by
  obtain ⟨hst, ha, hn, he, hr⟩ := h
  exact ⟨by simp [hst, hn, OperationStatus.claimed], fun _ => ha,
    by simp [hst, OperationStatus.claimed], by simp [hst, hr], by simp [hst, he]⟩

/-- Every edge keeps the columns in step with the status. -/
theorem RowEdge.columnsOk {r r' : OperationRow} (h : RowEdge r r') (hok : ColumnsOk r) : ColumnsOk r' := by
  obtain ⟨ha, hu, hap, hr, he⟩ := hok
  cases h with
  | expire now hun hx =>
      have hst : r.status = .planned ∨ r.status = .approved := by
        cases hst : r.status <;> simp_all [OperationStatus.unclaimed]
      rcases hst with hst | hst <;>
        exact ⟨by simpa [hst, OperationStatus.claimed] using ha, by simp,
          by simp [OperationStatus.claimed], by simpa [hst] using hr, by simpa [hst] using he⟩
  | ambiguate now errorJson hst =>
      exact ⟨by simpa [hst, OperationStatus.claimed] using ha, by simp,
        fun _ => hap (by simp [hst, OperationStatus.claimed]), by simpa [hst] using hr, by simp⟩
  | approve now hk hst =>
      exact ⟨by simpa [hst, OperationStatus.claimed] using ha, by simp, by simp,
        by simpa [hst] using hr, by simpa [hst] using he⟩
  | claim now hk hst =>
      exact ⟨by simpa [hst, OperationStatus.claimed] using ha, by simp,
        fun _ => hap (Or.inl hst), by simpa [hst] using hr, by simpa [hst] using he⟩
  | finish now status errorJson receiptJson hst ho =>
      have hap' := hap (by simp [hst, OperationStatus.claimed])
      rw [hst] at ha
      cases ho with
      | succeeded receiptJson => exact ⟨ha, by simp, fun _ => hap', by simp, by simp⟩
      | failed errorJson => exact ⟨ha, by simp, fun _ => hap', by simp, by simp⟩
      | ambiguous errorJson => exact ⟨ha, by simp, fun _ => hap', by simp, by simp⟩
  | write accountId payloadJson payloadSha256 now hk hst => exact ⟨ha, hu, hap, hr, he⟩

/-- The columns of a row that is not a draft stay, and every row keeps its identifier and kind. -/
structure Fixed (r r' : OperationRow) : Prop where
  id : r'.id = r.id
  kind : r'.kind = r.kind
  request : r.kind ≠ "draft" → r'.accountId = r.accountId ∧ r'.messageId = r.messageId ∧
    r'.payloadJson = r.payloadJson ∧ r'.payloadSha256 = r.payloadSha256 ∧
    r'.createdAt = r.createdAt ∧ r'.expiresAt = r.expiresAt

theorem Fixed.refl (r : OperationRow) : Fixed r r := ⟨rfl, rfl, fun _ => ⟨rfl, rfl, rfl, rfl, rfl, rfl⟩⟩

theorem Fixed.trans {a b c : OperationRow} (h : Fixed a b) (k : Fixed b c) : Fixed a c := by
  refine ⟨k.id.trans h.id, k.kind.trans h.kind, fun hk => ?_⟩
  obtain ⟨h1, h2, h3, h4, h5, h6⟩ := h.request hk
  obtain ⟨k1, k2, k3, k4, k5, k6⟩ := k.request (h.kind ▸ hk)
  exact ⟨k1.trans h1, k2.trans h2, k3.trans h3, k4.trans h4, k5.trans h5, k6.trans h6⟩

theorem RowEdge.fixed {r r' : OperationRow} (h : RowEdge r r') : Fixed r r' := by
  cases h with
  | write accountId payloadJson payloadSha256 now hk => exact ⟨rfl, rfl, fun hne => absurd hk hne⟩
  | _ => exact ⟨rfl, rfl, fun _ => ⟨rfl, rfl, rfl, rfl, rfl, rfl⟩⟩

theorem Advances.fixed {named : Option String} {l l' : Ledger} (h : Advances N named l l')
    (hd : l.Distinct) : ∀ r ∈ l.operations, ∃ r' ∈ l'.operations, Fixed r r' := by
  induction h with
  | refl => exact fun r hr => ⟨r, hr, .refl r⟩
  | tail hprev hs ih =>
      intro r hr
      obtain ⟨x, hx, hf⟩ := ih r hr
      cases hs with
      | create row => exact ⟨x, List.mem_append_left _ hx, hf⟩
      | move y y' e hy hedge =>
          by_cases hxy : x.id = y.id
          · obtain rfl := eq_of_key_eq (Advances.distinct hprev hd) hx hy hxy
            exact ⟨y', (mem_replaceRow hy).mpr (Or.inr rfl), hf.trans hedge.fixed⟩
          · exact ⟨x, (mem_replaceRow hy).mpr (Or.inl ⟨hx, hxy⟩), hf⟩

/-! ## 3. Steps of the status -/

/-- A row keeps its status or goes to a next one. -/
def StatusStep (r r' : OperationRow) : Prop :=
  r'.id = r.id ∧ (r'.status = r.status ∨ r'.status ∈ r.status.next)

theorem StatusStep.refl (r : OperationRow) : StatusStep r r := ⟨rfl, Or.inl rfl⟩

/-- A quiet move is a step. -/
theorem QuietRow.statusStep {r r' : OperationRow} (h : QuietRow r r') : StatusStep r r' := by
  refine ⟨h.same.id, ?_⟩
  rcases h.status with he | ⟨hu, he⟩ | ⟨hu, he⟩
  · exact Or.inl he.symm
  · right
    rw [he]
    cases hst : r.status <;> simp_all [OperationStatus.unclaimed, OperationStatus.next]
  · right
    rw [he, hu]
    decide

/-- The rows after a call, each a step from before. -/
def Stepped (l l' : Ledger) : Prop :=
  ∀ r ∈ l.operations, ∃ r' ∈ l'.operations, StatusStep r r'

theorem Stepped.refl (l : Ledger) : Stepped l l := fun r hr => ⟨r, hr, .refl r⟩

theorem Stepped.of_quiet {l l' : Ledger} (h : Evolves QuietRow l l') : Stepped l l' := by
  intro r hr
  obtain ⟨r', hr', hq⟩ := h.new hr
  exact ⟨r', hr', hq.statusStep⟩

/-- What follows and keeps every status leaves steps steps. -/
theorem Stepped.tail {l l₁ l' : Ledger} (h : Stepped l l₁)
    (hk : ∀ r ∈ l₁.operations, ∃ r' ∈ l'.operations, r'.id = r.id ∧ r'.status = r.status) :
    Stepped l l' := by
  intro r hr
  obtain ⟨x, hx, hid, hst⟩ := h r hr
  obtain ⟨x', hx', hid', hst'⟩ := hk x hx
  exact ⟨x', hx', hid'.trans hid, by rw [hst']; exact hst⟩

theorem Stepped.of_transition {id : String} {now : DateTime} {source target : OperationStatus}
    {approve : Bool} {l l' : Ledger} {record : OperationRecord} (hs : source.unclaimed)
    (ht : target ∈ source.next) (hd : l.Distinct)
    (h : operationTransition env id now source target approve l = .ok (record, l')) :
    Stepped l l' := by
  obtain ⟨hev, x, hx, hxid, hxs, -⟩ := transition_spec hs hd h
  intro r hr
  obtain ⟨r', hr', hm⟩ := hev.new hr
  refine ⟨r', hr', ?_⟩
  unfold MovesTo at hm
  split at hm
  · next hid =>
      obtain rfl := eq_of_key_eq hd hr hx (hid.trans hxid.symm)
      exact ⟨hm.1.id, Or.inr (by rw [hm.2.2, hxs]; exact ht)⟩
  · exact hm.statusStep

theorem Stepped.of_finish {id : String} {now : DateTime} {status : OperationStatus}
    {error : Option MailError} {receiptJson : Option String} {l l' : Ledger}
    {record : OperationRecord} (hst : status ∈ OperationStatus.applying.next) (hd : l.Distinct)
    (h : finishOperation env id now status error receiptJson l = .ok (record, l')) :
    Stepped l l' := by
  intro r hr
  obtain ⟨r', hr', hf⟩ := (finish_spec hd h).new hr
  refine ⟨r', hr', ?_⟩
  unfold Finishes at hf
  split at hf
  · obtain ⟨hap, hsame, -, hs⟩ := hf
    exact ⟨hsame.id, Or.inr (by rw [hs, hap]; exact hst)⟩
  · rw [hf]
    exact .refl r

/-- A creation keeps the rows there are. -/
theorem keeps_of_create {op op' : OperationRecord} {l l' : Ledger}
    (h : createOperation env op l = .ok (op', l')) :
    ∀ r ∈ l.operations, ∃ r' ∈ l'.operations, r'.id = r.id ∧ r'.status = r.status := by
  obtain ⟨-, row, hrows, -⟩ := create_spec h
  exact fun r hr => ⟨r, hrows ▸ List.mem_append_left _ hr, rfl, rfl⟩

/-- An update that writes neither the identifier nor the status keeps both. -/
theorem keeps_of_update {p : OperationRow → Bool} {f : OperationRow → OperationRow}
    (hf : ∀ r, (f r).id = r.id ∧ (f r).status = r.status) {rows : List OperationRow} :
    ∀ r ∈ rows, ∃ r' ∈ update p f rows, r'.id = r.id ∧ r'.status = r.status := by
  intro r hr
  refine ⟨_, mem_update.mpr ⟨r, hr, rfl⟩, ?_⟩
  split
  · exact hf r
  · exact ⟨rfl, rfl⟩

theorem Stepped.createDraft {draft : Draft} {clock : DateTime} {l : Ledger} :
    Stepped l (createDraft env json draft clock l).2 := by
  unfold Kirje.createDraft
  split
  · exact .refl l
  · have hlist : Stepped l (listDrafts env json draft.accountId 100 clock l).2 :=
      projected_invariant (P := Stepped l) (.refl l) fun _ _ h => .of_quiet (list_spec h)
    generalize listDrafts env json draft.accountId 100 clock l = r at hlist ⊢
    obtain ⟨drafts, l₁⟩ := r
    cases drafts with
    | error e => exact hlist
    | ok drafts =>
        dsimp only
        split
        · exact hlist
        · refine projected_invariant (P := Stepped l) hlist fun _ l₂ h => ?_
          simp only [insertDraft, bind_ok, pure_ok, Prod.mk.injEq] at h
          obtain ⟨⟨_, _⟩, -, ⟨_, _⟩, hc, -, rfl⟩ := h
          exact hlist.tail (keeps_of_create hc)

theorem Stepped.updateDraft {draft draft' : Draft} {l l' : Ledger}
    (h : updateDraft env json draft l = .ok (draft', l')) : Stepped l l' := by
  simp only [Kirje.updateDraft, bind_ok, pure_ok, ensure_ok, orRefuse_ok, Prod.mk.injEq] at h
  obtain ⟨_, -, _, -, ⟨_, _⟩, -, _, -, _, -, _, -, _, -, _, -, -, rfl⟩ := h
  refine (Stepped.refl l).tail ?_
  refine keeps_of_update ?_
  intro r
  exact ⟨rfl, rfl⟩

theorem Stepped.discardDraft {id : String} {clock now : DateTime} {l : Ledger} :
    Stepped l (discardDraft env json id clock now l).2 := by
  have hget : Stepped l (getDraft env json id clock l).2 :=
    projected_invariant (P := Stepped l) (.refl l) fun _ _ h => .of_quiet (get_spec h)
  have hread : Stepped l (readDiscard env json id clock now l).2 := hget
  unfold Kirje.discardDraft
  generalize readDiscard env json id clock now l = r at hread ⊢
  obtain ⟨discarded, l₁⟩ := r
  cases discarded with
  | error e => exact hread
  | ok discarded =>
      refine projected_invariant (P := Stepped l) hread fun _ l₂ h => ?_
      simp only [writeDiscard, bind_ok, pure_ok, orRefuse_ok, Prod.mk.injEq] at h
      obtain ⟨⟨_, _⟩, -, _, -, _, -, -, rfl⟩ := h
      refine hread.tail ?_
      refine keeps_of_update ?_
      intro r
      exact ⟨rfl, rfl⟩

/-- **A call moves each row by one step at most.** -/
theorem LedgerCall.stepped {l : Ledger} (hd : l.Distinct) (c : LedgerCall) :
    Stepped l (c.run env json l) := by
  have hl := Stepped.refl l
  cases c with
  | create plan =>
      refine committed_ledger hl fun _ _ h => ?_
      simp only [Outbox.create, bind_ok, pure_ok, Prod.mk.injEq] at h
      obtain ⟨_, -, _, -, ⟨_, _⟩, -, ⟨_, _⟩, hcreate, -, rfl⟩ := h
      exact hl.tail (keeps_of_create hcreate)
  | createOperation operation => exact committed_ledger hl fun _ _ h => hl.tail (keeps_of_create h)
  | createDraft draft clock => exact .createDraft
  | updateDraft draft => exact committed_ledger hl fun _ _ h => .updateDraft h
  | discardDraft id clock now => exact .discardDraft
  | getDraft id clock => exact projected_invariant hl fun _ _ h => .of_quiet (get_spec h)
  | listDrafts accountId limit clock =>
      exact projected_invariant hl fun _ _ h => .of_quiet (list_spec h)
  | get id now => exact committed_ledger hl fun _ _ h => .of_quiet (get_spec h)
  | list accountId kind limit now => exact committed_ledger hl fun _ _ h => .of_quiet (list_spec h)
  | approve id now =>
      exact committed_ledger hl fun _ _ h => .of_transition (by decide) (by decide) hd h
  | claim id now =>
      exact committed_ledger hl fun _ _ h => .of_transition (by decide) (by decide) hd h
  | succeed id receiptJson now =>
      exact committed_ledger hl fun _ _ h => .of_finish (by decide) hd h
  | fail id error now => exact committed_ledger hl fun _ _ h => .of_finish (by decide) hd h
  | ambiguous id error now => exact committed_ledger hl fun _ _ h => .of_finish (by decide) hd h

/-! ## 4. The state machine -/

/-- What every advance keeps of the rows. -/
structure RowsOk (l : Ledger) : Prop where
  distinct : l.Distinct
  rows : ∀ r ∈ l.operations, ColumnsOk r

theorem RowsOk.empty : RowsOk Ledger.empty := ⟨List.nodup_nil, fun _ h => absurd h List.not_mem_nil⟩

theorem Advance.rowsOk {named : Option String} {l l' : Ledger} (h : Advance N named l l')
    (hok : RowsOk l) : RowsOk l' := by
  refine ⟨h.distinct hok.distinct, fun x hx => ?_⟩
  cases h with
  | create row e hfresh hrow =>
      rcases List.mem_append.mp hx with hx | hx
      · exact hok.rows x hx
      · obtain rfl := List.mem_singleton.mp hx
        exact hrow.columnsOk
  | move r r' e hr hedge =>
      rcases (mem_replaceRow hr).mp hx with ⟨hx, -⟩ | rfl
      · exact hok.rows x hx
      · exact hedge.columnsOk (hok.rows r hr)

theorem Advances.rowsOk {named : Option String} {l l' : Ledger} (h : Advances N named l l')
    (hok : RowsOk l) : RowsOk l' := by
  induction h with
  | refl => exact hok
  | tail _ hs ih => exact hs.rowsOk ih

/-- Where drafts are planned and never expire, every discard finds its row planned. -/
theorem Ledger.DraftsOk.discardsPlanned {l : Ledger} (h : l.DraftsOk) (c : LedgerCall) :
    c.DiscardsPlanned env json l := by
  cases c with
  | discardDraft id clock now =>
      intro r hr _ hk _
      obtain ⟨hst, hx⟩ := h r hr hk
      exact ⟨hst, by simp [OperationRow.due, hx]⟩
  | _ => trivial

/-- A call that enters no draft by hand adds only drafts that last. -/
theorem LedgerCall.EntersNoDraft.adds {c : LedgerCall} (h : c.EntersNoDraft) {row : OperationRow}
    (ha : c.Adds row) : LastingDraft row := by
  cases c with
  | createOperation operation => exact fun hk => absurd (ha.symm.trans hk) h
  | _ => exact ha

theorem LedgerRun.rowsOk {l : Ledger} (h : LedgerRun env json (fun _ c => c.EntersNoDraft) l) :
    RowsOk l ∧ l.DraftsOk := by
  refine Reaches.invariant (P := fun l => RowsOk l ∧ l.DraftsOk) ?_ ?_ h
  · rintro l rfl
    exact ⟨.empty, fun _ h => absurd h List.not_mem_nil⟩
  · rintro l l' ⟨hok, hdrafts⟩ ⟨c, hc, rfl⟩
    have hadv : Advances LastingDraft c.target l (c.run env json l) :=
      LedgerCall.advances hok.distinct (hdrafts.discardsPlanned c) fun _ => hc.adds
    exact ⟨hadv.rowsOk hok, hadv.draftsOk hdrafts⟩

/-- **The state machine of the ledger.**  After any sequence of calls the columns of every row
    agree with its status and every draft is planned; and whatever call comes next, every row
    stays, keeps what it was created with, and keeps its status or takes one edge. -/
theorem ledger_state_machine {l : Ledger}
    (h : LedgerRun env json (fun _ c => c.EntersNoDraft) l) :
    (∀ r ∈ l.operations, ColumnsOk r ∧ (r.kind = "draft" → r.status = .planned)) ∧
      ∀ c : LedgerCall, c.EntersNoDraft → ∀ r ∈ l.operations,
        ∃ r' ∈ (c.run env json l).operations, Fixed r r' ∧
          (r'.status = r.status ∨ r'.status ∈ r.status.next) := by
  obtain ⟨hok, hdrafts⟩ := h.rowsOk
  refine ⟨fun r hr => ⟨hok.rows r hr, fun hk => (hdrafts r hr hk).1⟩, fun c hc r hr => ?_⟩
  have hadv : Advances LastingDraft c.target l (c.run env json l) :=
    LedgerCall.advances hok.distinct (hdrafts.discardsPlanned c) fun _ => hc.adds
  obtain ⟨r', hr', hf⟩ := hadv.fixed hok.distinct r hr
  have hstep : Stepped l (c.run env json l) := LedgerCall.stepped hok.distinct c
  obtain ⟨x, hx, hid, hst⟩ := hstep r hr
  obtain rfl := eq_of_key_eq (hadv.distinct hok.distinct) hr' hx (hf.id.trans hid.symm)
  exact ⟨r', hr', hf, hst⟩

/-! ## 5. The audit trail -/

/-- The events of an operation, in the order of their sequence. -/
def Ledger.trail (l : Ledger) (id : String) : List OperationEventRow :=
  l.events.filter (·.operationId = id)

/-- Two consecutive events: a draft written again, or an edge of the state machine. -/
def EventEdge (kind : String) (e e' : OperationEventRow) : Prop :=
  (kind = "draft" ∧ e.status = some .planned ∧ e'.status = some .planned) ∨
    ∃ s s', e.status = some s ∧ e'.status = some s' ∧ s' ∈ s.next

/-- The events with a status. -/
def eventsOf (status : OperationStatus) (events : List OperationEventRow) :
    List OperationEventRow :=
  events.filter (·.status = some status)

/-- **The events of a row lead from its creation to where it stands.** -/
structure TrailOk (r : OperationRow) (events : List OperationEventRow) : Prop where
  created : ∃ e, events.head? = some e ∧ e.event = "created" ∧ e.status = some .planned
  chain : events.IsChain (EventEdge r.kind)
  claims : (eventsOf .applying events).length = r.attemptCount
  last : ∃ e, events.getLast? = some e ∧ e.status = some r.status ∧
    e.payloadSha256 = r.payloadSha256

theorem TrailOk.new {row : OperationRow} {e : OperationEventRow} {n : Nat} (hrow : NewRow row)
    (he : EventOf n row e) (hname : e.event = "created") : TrailOk row [e] where
  created := ⟨e, rfl, hname, by rw [he.status, hrow.status]⟩
  chain := List.isChain_singleton e
  claims := by simp [eventsOf, he.status, hrow.status, hrow.attempts]
  last := ⟨e, rfl, he.status, he.digest⟩

/-- An edge of a row is an edge of its trail. -/
theorem RowEdge.eventEdge {r r' : OperationRow} {e e' : OperationEventRow} (h : RowEdge r r')
    (he : e.status = some r.status) (he' : e'.status = some r'.status) :
    EventEdge r.kind e e' := by
  cases h with
  | expire now hu =>
      right
      refine ⟨r.status, .expired, he, he', ?_⟩
      cases hst : r.status <;> simp_all [OperationStatus.unclaimed, OperationStatus.next]
  | ambiguate now errorJson hst =>
      right
      exact ⟨.applying, .ambiguous, hst ▸ he, he', by decide⟩
  | approve now hk hst =>
      right
      exact ⟨.planned, .approved, hst ▸ he, he', by decide⟩
  | claim now hk hst =>
      right
      exact ⟨.approved, .applying, hst ▸ he, he', by decide⟩
  | finish now status errorJson receiptJson hst ho =>
      right
      refine ⟨.applying, status, hst ▸ he, he', ?_⟩
      cases ho <;> decide
  | write accountId payloadJson payloadSha256 now hk hst =>
      left
      exact ⟨hk, hst ▸ he, hst ▸ he'⟩

/-- An edge counts one more attempt exactly where it leads into `applying`. -/
theorem RowEdge.attempts {r r' : OperationRow} (h : RowEdge r r') :
    r'.attemptCount = r.attemptCount + if r'.status = .applying then 1 else 0 := by
  cases h with
  | claim now hk hst => rfl
  | finish now status errorJson receiptJson hst ho => cases ho <;> rfl
  | write accountId payloadJson payloadSha256 now hk hst => simp [hst]
  | _ => rfl

/-- **One edge appends one event.** -/
theorem TrailOk.append {r r' : OperationRow} {e : OperationEventRow} {n : Nat}
    {events : List OperationEventRow} (h : TrailOk r events) (hedge : RowEdge r r')
    (he : EventOf n r' e) : TrailOk r' (events ++ [e]) := by
  obtain ⟨first, hfirst, hname, hplanned⟩ := h.created
  obtain ⟨previous, hlast, hst, -⟩ := h.last
  refine ⟨⟨first, ?_, hname, hplanned⟩, ?_, ?_, e, ?_, he.status, he.digest⟩
  · rw [List.head?_append, hfirst]
    rfl
  · rw [hedge.fixed.kind]
    refine List.isChain_append.mpr ⟨h.chain, List.isChain_singleton e, fun x hx y hy => ?_⟩
    obtain rfl := Option.some.inj (hlast.symm.trans hx)
    obtain rfl := Option.some.inj hy
    exact hedge.eventEdge hst he.status
  · have hclaims := h.claims
    rw [hedge.attempts, ← hclaims]
    unfold eventsOf
    rw [List.filter_append, List.length_append, Nat.add_right_inj]
    by_cases hs : r'.status = .applying <;> simp [he.status, hs]
  · simp

/-- What every advance keeps of the rows and the events. -/
structure TrailsOk (l : Ledger) : Prop where
  rows : RowsOk l
  highWater : ∀ e ∈ l.events, e.sequence ≤ l.sequence
  ordered : (l.events.map (·.sequence)).Pairwise (· < ·)
  known : ∀ e ∈ l.events, e.operationId ∈ l.operations.map (·.id)
  trails : ∀ r ∈ l.operations, TrailOk r (l.trail r.id)

theorem TrailsOk.empty : TrailsOk Ledger.empty :=
  ⟨.empty, fun _ h => absurd h List.not_mem_nil, .nil, fun _ h => absurd h List.not_mem_nil,
    fun _ h => absurd h List.not_mem_nil⟩

/-- No row, no events. -/
theorem TrailsOk.trail_nil {l : Ledger} (h : TrailsOk l) {id : String}
    (hid : id ∉ l.operations.map (·.id)) : l.trail id = [] := by
  refine List.filter_eq_nil_iff.mpr fun e he => ?_
  simp only [decide_eq_true_eq]
  rintro rfl
  exact hid (h.known e he)

/-- One more event is appended to the trail it names, and to no other. -/
theorem trail_append (rows : List OperationRow) (events : List OperationEventRow)
    (e : OperationEventRow) (n : Nat) (id : String) :
    Ledger.trail ⟨rows, events ++ [e], n⟩ id =
      events.filter (·.operationId = id) ++ if e.operationId = id then [e] else [] := by
  unfold Ledger.trail
  rw [List.filter_append]
  by_cases h : e.operationId = id <;> simp [h]

theorem Advance.trailsOk {named : Option String} {l l' : Ledger} (h : Advance N named l l')
    (hok : TrailsOk l) : TrailsOk l' := by
  have hrows := h.rowsOk hok.rows
  have hsequence : ∀ e, e.sequence = l.sequence + 1 →
      (∀ x ∈ l.events ++ [e], x.sequence ≤ l.sequence + 1) ∧
        ((l.events ++ [e]).map (·.sequence)).Pairwise (· < ·) := by
    intro e he
    constructor
    · intro x hx
      rcases List.mem_append.mp hx with hx | hx
      · exact Nat.le_succ_of_le (hok.highWater x hx)
      · rw [List.mem_singleton.mp hx, he]
    · rw [List.map_append, List.pairwise_append]
      refine ⟨hok.ordered, List.pairwise_singleton .., ?_⟩
      simp only [List.mem_map, List.map_cons, List.map_nil, List.mem_singleton]
      rintro _ ⟨x, hx, rfl⟩ _ rfl
      have := hok.highWater x hx
      omega
  cases h with
  | create row e hfresh hrow he hname =>
      obtain ⟨hw, hord⟩ := hsequence e he.sequence
      refine ⟨hrows, hw, hord, ?_, ?_⟩
      · intro x hx
        rw [List.map_append, List.mem_append]
        rcases List.mem_append.mp hx with hx | hx
        · exact Or.inl (hok.known x hx)
        · rw [List.mem_singleton.mp hx, he.id]
          simp
      · intro r hr
        rw [trail_append, he.id]
        rcases List.mem_append.mp hr with hr | hr
        · have hne : row.id ≠ r.id := fun h => hfresh (h ▸ List.mem_map_of_mem hr)
          rw [if_neg hne, List.append_nil]
          exact hok.trails r hr
        · obtain rfl := List.mem_singleton.mp hr
          rw [if_pos rfl, show l.events.filter (·.operationId = r.id) = [] from hok.trail_nil hfresh]
          exact .new hrow he hname
  | move r r' e hr hedge he =>
      obtain ⟨hw, hord⟩ := hsequence e he.sequence
      refine ⟨hrows, hw, hord, ?_, ?_⟩
      · intro x hx
        rw [replaceRow_ids hedge.id]
        rcases List.mem_append.mp hx with hx | hx
        · exact hok.known x hx
        · rw [List.mem_singleton.mp hx, he.id, hedge.id]
          exact List.mem_map_of_mem hr
      · intro x hx
        rw [trail_append, he.id]
        rcases (mem_replaceRow hr).mp hx with ⟨hx, hne⟩ | rfl
        · rw [if_neg fun h => hne (h.symm.trans hedge.id), List.append_nil]
          exact hok.trails x hx
        · rw [if_pos rfl, hedge.id]
          exact (hok.trails r hr).append hedge he

theorem Advances.trailsOk {named : Option String} {l l' : Ledger} (h : Advances N named l l')
    (hok : TrailsOk l) : TrailsOk l' := by
  induction h with
  | refl => exact hok
  | tail _ hs ih => exact hs.trailsOk ih

/-- **No event is changed or removed.** -/
theorem Advances.trail_le {named : Option String} {l l' : Ledger} (h : Advances N named l l')
    (id : String) : l.trail id <+: l'.trail id := by
  induction h with
  | refl => exact List.prefix_rfl
  | tail _ hs ih =>
      refine ih.trans ?_
      cases hs with
      | create row e => exact trail_append .. ▸ List.prefix_append ..
      | move r r' e => exact trail_append .. ▸ List.prefix_append ..

/-! Statuses only rise, so a row that stands where it stood has not moved. -/

def OperationStatus.rank : OperationStatus → Nat
  | .planned => 0
  | .approved => 1
  | .applying => 2
  | _ => 3

theorem RowEdge.rank_lt {r r' : OperationRow} (h : RowEdge r r') (hne : r'.status ≠ r.status) :
    r.status.rank < r'.status.rank := by
  cases h with
  | expire now hu => cases hst : r.status <;> simp_all [OperationStatus.unclaimed, OperationStatus.rank]
  | ambiguate now errorJson hst => simp [hst, OperationStatus.rank]
  | approve now hk hst => simp [hst, OperationStatus.rank]
  | claim now hk hst => simp [hst, OperationStatus.rank]
  | finish now status errorJson receiptJson hst ho => cases ho <;> simp [hst, OperationStatus.rank]
  | write => exact absurd rfl hne

/-- **A row that a call does not name gets events only by moving to another status.** -/
theorem Advances.quiet {named : Option String} {l l' : Ledger} (h : Advances N named l l')
    (hd : l.Distinct) {id : String} (hid : named ≠ some id) :
    (l'.trail id = l.trail id ∧ ∀ r' ∈ l'.operations, r'.id = id → r' ∈ l.operations) ∨
      ∃ r ∈ l.operations, ∃ r' ∈ l'.operations,
        r.id = id ∧ r'.id = id ∧ r.status.rank < r'.status.rank := by
  induction h with
  | refl => exact Or.inl ⟨rfl, fun _ hr _ => hr⟩
  | tail hprev hs ih =>
      have hd₁ := Advances.distinct hprev hd
      cases hs with
      | create row e hfresh hrow he hname hn =>
          have hne : row.id ≠ id := fun h => hid (h ▸ hn)
          rw [trail_append, he.id, if_neg hne, List.append_nil]
          rcases ih with ⟨ht, hrows⟩ | ⟨r, hr, r', hr', hri, hri', hlt⟩
          · refine Or.inl ⟨ht, fun r' hr' hi => ?_⟩
            rcases List.mem_append.mp hr' with hr' | hr'
            · exact hrows r' hr' hi
            · exact absurd (List.mem_singleton.mp hr' ▸ hi) hne
          · exact Or.inr ⟨r, hr, r', List.mem_append_left _ hr', hri, hri', hlt⟩
      | move y y' e hy hedge he hn =>
          by_cases hyi : y.id = id
          · have hne : y'.status ≠ y.status := by
              rcases hn with hn | hn
              · exact absurd (hyi ▸ hn) hid
              · exact hn
            have hup := hedge.rank_lt hne
            have hy' := (mem_replaceRow hy).mpr (Or.inr (rfl : y' = y'))
            refine Or.inr ?_
            rcases ih with ⟨-, hrows⟩ | ⟨r, hr, x, hx, hri, hxi, hlt⟩
            · exact ⟨y, hrows y hy hyi, y', hy', hyi, hedge.id.trans hyi, hup⟩
            · obtain rfl := eq_of_key_eq hd₁ hx hy (hxi.trans hyi.symm)
              exact ⟨r, hr, y', hy', hri, hedge.id.trans hyi, hlt.trans hup⟩
          · rw [trail_append, he.id, hedge.id, if_neg hyi, List.append_nil]
            rcases ih with ⟨ht, hrows⟩ | ⟨r, hr, x, hx, hri, hxi, hlt⟩
            · refine Or.inl ⟨ht, fun x hx hi => ?_⟩
              rcases (mem_replaceRow hy).mp hx with ⟨hx, -⟩ | rfl
              · exact hrows x hx hi
              · exact absurd (hedge.id.symm.trans hi) hyi
            · refine Or.inr ⟨r, hr, x, (mem_replaceRow hy).mpr (Or.inl ⟨hx, ?_⟩), hri, hxi, hlt⟩
              exact fun h => hyi (h.symm.trans hxi)

theorem LedgerRun.trailsOk {l : Ledger}
    (h : LedgerRun env json (LedgerCall.DiscardsPlanned env json) l) : TrailsOk l := by
  refine Reaches.invariant (P := TrailsOk) ?_ ?_ h
  · rintro l rfl
    exact .empty
  · rintro l l' hok ⟨c, hc, rfl⟩
    have hadv : Advances (fun _ => True) c.target l (c.run env json l) :=
      LedgerCall.advances hok.rows.distinct hc fun _ _ => trivial
    exact hadv.trailsOk hok

/-- **The audit trail**, of every run whose discards find their row planned.  The events are in
    order of their sequence; those of a row lead from its creation to where it stands, with one
    claim at most; there are no others; and a further call only appends, and to a row that it
    does not name only when the row goes to another status. -/
theorem audit_trail_of_planned_discards {l : Ledger}
    (h : LedgerRun env json (LedgerCall.DiscardsPlanned env json) l) :
    (l.events.map (·.sequence)).Pairwise (· < ·) ∧
      (∀ r ∈ l.operations,
        TrailOk r (l.trail r.id) ∧ (eventsOf .applying (l.trail r.id)).length ≤ 1) ∧
      (∀ id, id ∉ l.operations.map (·.id) → l.trail id = []) ∧
      ∀ c : LedgerCall, c.DiscardsPlanned env json l → ∀ id,
        l.trail id <+: (c.run env json l).trail id ∧
          (c.target ≠ some id →
            (∀ r ∈ l.operations, ∀ r' ∈ (c.run env json l).operations,
              r.id = id → r'.id = id → r'.status = r.status) →
            (c.run env json l).trail id = l.trail id) := by
  have hok := h.trailsOk
  refine ⟨hok.ordered, fun r hr => ⟨hok.trails r hr, ?_⟩, fun id => hok.trail_nil, fun c hc id => ?_⟩
  · rw [(hok.trails r hr).claims, (hok.rows.rows r hr).attempts]
    split <;> decide
  · have hadv : Advances (fun _ => True) c.target l (c.run env json l) :=
      LedgerCall.advances hok.rows.distinct hc fun _ _ => trivial
    refine ⟨hadv.trail_le id, fun ht hsame => ?_⟩
    rcases hadv.quiet hok.rows.distinct ht with ⟨htrail, -⟩ | ⟨r, hr, r', hr', hi, hi', hlt⟩
    · exact htrail
    · rw [hsame r hr r' hr' hi hi'] at hlt
      exact absurd hlt (Nat.lt_irrefl _)

end Runs

/-! ## 6. Samples

One draft and its edit, with the texts and digests the real encodings give them. -/

namespace DraftSample

def draftId : String := "8b1f8a3e-52c4-4f0e-9d3b-6a7c1e2f4d50"

def draft (text : String) (status : DraftStatus) : Draft where
  id := draftId
  accountId := "personal"
  mode := .new
  source := none
  request := {
    accountId := "personal"
    toAddrs := [⟨none, "ada@example.org"⟩]
    cc := []
    bcc := []
    subject := "Hello"
    text := some text
    html := none
    attachments := [] }
  attachmentSummaries := []
  status := status
  createdAt := 0
  updatedAt := 0

def draftJson (text status : String) : String :=
  "\x7b\"id\":\"8b1f8a3e-52c4-4f0e-9d3b-6a7c1e2f4d50\",\"account_id\":\"personal\",\"mode\":\"new\"," ++
  "\"source\":null,\"request\":\x7b\"account_id\":\"personal\"," ++
  "\"to\":[\x7b\"name\":null,\"email\":\"ada@example.org\"\x7d],\"cc\":[],\"bcc\":[]," ++
  "\"subject\":\"Hello\",\"text\":\"" ++ text ++ "\",\"html\":null,\"attachments\":[]\x7d," ++
  "\"attachment_summaries\":[],\"status\":\"" ++ status ++ "\"," ++
  "\"created_at\":\"1970-01-01T00:00:00Z\",\"updated_at\":\"1970-01-01T00:00:00Z\"\x7d"

/-- The drafts of the runs, with their texts. -/
def table : List (Draft × String) :=
  [(draft "First" .draft, draftJson "First" "draft"),
    (draft "First" .discarded, draftJson "First" "discarded"),
    (draft "Second" .draft, draftJson "Second" "draft"),
    (draft "Second" .discarded, draftJson "Second" "discarded")]

/-- The digests of these texts. -/
def digests : List String :=
  ["2048dc9dfd8ed220169723f9cd3c57b059840747eb70b29047a53b2a63943fe1",
    "329b90abb0d645a6bd24151227c38cb2594f9f71a829901d23cc5edba7e6474a",
    "9be401ddd7210f5c3cbd1d9a9138b87b21d12a242197c5af6b249e92cc7f49c5",
    "3138702ca1ac87a301b2eda1f63b7eb44039ffbc73a620c96f63172c5220a563"]

def json : Json Draft := Json.ofTable table

def env : External where
  payloadDigest s := (((table.map (·.2)).zip digests).find? (·.1 = s)).elim "" (·.2)
  bytesDigest _ := ""
  timestamp t := if t = 0 then "1970-01-01T00:00:00.000000Z" else "1969-12-31T23:45:00.000000Z"
  parseTimestamp s := if s = "1970-01-01T00:00:00.000000Z" then some 0 else none
  parseUuid s := s = draftId
  sendRequest := ⟨fun _ => none, fun _ => none⟩
  mailOperation := ⟨fun _ => none, fun _ => none⟩
  mailError := {
    encode := fun e => if e = staleError then
      some ("\x7b\"code\":\"send_plan_state\",\"message\":\"previous remote operation ended " ++
        "without a final result\",\"retryable\":false\x7d") else none
    decode := fun _ => none }
  sendReceipt := ⟨fun _ => none, fun _ => none⟩
  mailReceipt := ⟨fun _ => none, fun _ => none⟩
  base64 _ := none
  utf8 _ := none
  parseIpAddr _ := false

/-- The draft entered as an operation that expires at once. -/
def expiring : OperationRecord where
  id := draftId
  kind := "draft"
  accountId := "personal"
  messageId := none
  payloadJson := draftJson "First" "draft"
  payloadSha256 := "2048dc9dfd8ed220169723f9cd3c57b059840747eb70b29047a53b2a63943fe1"
  status := .planned
  createdAt := 0
  expiresAt := some 0
  approvedAt := none
  updatedAt := 0
  attemptCount := 0
  lastError := none
  receiptJson := none

set_option maxRecDepth 8000 in
/-- A draft created, edited and discarded. -/
theorem discarded_run (P : Ledger → LedgerCall → Prop)
    (hP : ∀ l, (∀ r ∈ l.operations, r.status = .planned ∧ r.expiresAt = none) →
      ∀ c : LedgerCall, c.EntersNoDraft → P l c) :
    ∃ l, LedgerRun env json P l ∧ ∃ r ∈ l.operations, r.kind = "draft" ∧
      r.payloadJson = draftJson "Second" "discarded" ∧
        (l.trail r.id).map (·.event) = ["created", "updated", "discarded"] := by
  have h₀ : LedgerRun env json P Ledger.empty := .start rfl
  have h₁ := h₀.next ⟨.createDraft (draft "First" .draft) 0, hP _ (by decide) _ trivial, rfl⟩
  have h₂ := h₁.next ⟨.updateDraft (draft "Second" .draft), hP _ (by decide) _ trivial, rfl⟩
  have h₃ := h₂.next ⟨.discardDraft draftId 0 0, hP _ (by decide) _ trivial, rfl⟩
  exact ⟨_, h₃, _, .head _, rfl, rfl, rfl⟩

set_option maxRecDepth 8000 in
/-- A draft that has expired before it is discarded. -/
theorem expired_run : ∃ l, LedgerRun env json (fun _ _ => True) l ∧ ∃ r ∈ l.operations,
    r.status = .expired ∧
      (l.trail r.id).map (·.status) = [some .planned, some .expired, some .planned] := by
  have h₀ : LedgerRun env json (fun _ _ => True) Ledger.empty := .start rfl
  have h₁ := h₀.next ⟨.createOperation expiring, trivial, rfl⟩
  have h₂ := h₁.next ⟨.discardDraft draftId 0 0, trivial, rfl⟩
  exact ⟨_, h₂, _, .head _, rfl, rfl⟩

end DraftSample

/-- The state machine on the run of a draft. -/
theorem ledger_state_machine_sample_run : ∃ l,
    LedgerRun DraftSample.env DraftSample.json (fun _ c => c.EntersNoDraft) l ∧
      ∃ r ∈ l.operations, r.kind = "draft" ∧ ColumnsOk r ∧ r.status = .planned := by
  obtain ⟨l, hl, r, hr, hk, -⟩ :=
    DraftSample.discarded_run (fun _ c => c.EntersNoDraft) fun _ _ _ hc => hc
  obtain ⟨hok, hdraft⟩ := (ledger_state_machine hl).1 r hr
  exact ⟨l, hl, r, hr, hk, hok, hdraft hk⟩

/-- The trail on the run of a draft. -/
theorem audit_trail_sample_run : ∃ l,
    LedgerRun DraftSample.env DraftSample.json
        (LedgerCall.DiscardsPlanned DraftSample.env DraftSample.json) l ∧
      ∃ r ∈ l.operations, TrailOk r (l.trail r.id) ∧
        (l.trail r.id).map (·.event) = ["created", "updated", "discarded"] := by
  obtain ⟨l, hl, r, hr, -, -, hevents⟩ := DraftSample.discarded_run
    (LedgerCall.DiscardsPlanned DraftSample.env DraftSample.json) fun l hl c _ => by
      cases c with
      | discardDraft id clock now =>
          intro r hr _ _ _
          obtain ⟨hst, hx⟩ := hl r hr
          exact ⟨hst, by simp [OperationRow.due, hx]⟩
      | _ => trivial
  exact ⟨l, hl, r, hr, ((audit_trail_of_planned_discards hl).2.1 r hr).1, hevents⟩

/-- **A discard of an expired draft reports a move that did not happen**: the last event says
    `planned` of a row that is `expired`. -/
theorem discard_of_expired_draft : ∃ l,
    LedgerRun DraftSample.env DraftSample.json (fun _ _ => True) l ∧
      ∃ r ∈ l.operations, r.status = .expired ∧
        (l.trail r.id).map (·.status) = [some .planned, some .expired, some .planned] ∧
        ¬TrailOk r (l.trail r.id) := by
  obtain ⟨l, hl, r, hr, hst, htrail⟩ := DraftSample.expired_run
  refine ⟨l, hl, r, hr, hst, htrail, fun hok => ?_⟩
  obtain ⟨e, hlast, he, -⟩ := hok.last
  have hmap : ((l.trail r.id).map (·.status)).getLast? = some e.status := by
    rw [List.getLast?_map, hlast]
    rfl
  rw [htrail, he, hst] at hmap
  exact absurd hmap (by decide)

end Kirje
