import Kirje.Ledger.Runtime

/-
  File:      Kirje/Ledger/Rows.lean
  Subject:   What each ledger call does to the rows, once and for all.

  A call either adds one row or rewrites rows in place.  `Evolves R` says the
  second: the new rows are the old ones, each moved along `R`.  Reconciliation
  moves rows only along `Quiet` edges (`reconcile_spec`); a transition moves the
  named row from its source to its target status and the others quietly
  (`transition_spec`); a finish moves the named row out of `applying` and leaves
  the others alone (`finish_spec`).
-/

namespace Kirje

open Base

/-! ## 1. Rewriting rows -/

/-- The columns no call ever rewrites. -/
structure OperationRow.Same (r r' : OperationRow) : Prop where
  id : r'.id = r.id
  kind : r'.kind = r.kind
  accountId : r'.accountId = r.accountId
  payloadJson : r'.payloadJson = r.payloadJson

theorem OperationRow.Same.refl (r : OperationRow) : r.Same r := ⟨rfl, rfl, rfl, rfl⟩

theorem OperationRow.Same.trans {a b c : OperationRow} (h : a.Same b) (k : b.Same c) : a.Same c :=
  ⟨k.id.trans h.id, k.kind.trans h.kind, k.accountId.trans h.accountId,
    k.payloadJson.trans h.payloadJson⟩

/-- The new rows are the old ones, each moved along `R`. -/
def Evolves (R : OperationRow → OperationRow → Prop) (l l' : Ledger) : Prop :=
  ∃ g : OperationRow → OperationRow, l'.operations = l.operations.map g ∧
    ∀ r ∈ l.operations, R r (g r)

theorem Evolves.comp {R S T : OperationRow → OperationRow → Prop} {a b c : Ledger}
    (hRS : ∀ x y z, R x y → S y z → T x z) (h : Evolves R a b) (k : Evolves S b c) :
    Evolves T a c := by
  obtain ⟨f, hf, hR⟩ := h
  obtain ⟨g, hg, hS⟩ := k
  refine ⟨g ∘ f, by rw [hg, hf, List.map_map], fun r hr => ?_⟩
  have hfr : f r ∈ b.operations := hf ▸ List.mem_map_of_mem hr
  exact hRS _ _ _ (hR r hr) (hS _ hfr)

theorem Evolves.mono {R S : OperationRow → OperationRow → Prop} {l l' : Ledger}
    (hRS : ∀ r ∈ l.operations, ∀ r', R r r' → S r r') (h : Evolves R l l') : Evolves S l l' := by
  obtain ⟨g, hg, hR⟩ := h
  exact ⟨g, hg, fun r hr => hRS r hr _ (hR r hr)⟩

theorem Evolves.old {R : OperationRow → OperationRow → Prop} {l l' : Ledger} (h : Evolves R l l')
    {r' : OperationRow} (hr : r' ∈ l'.operations) : ∃ r ∈ l.operations, R r r' := by
  obtain ⟨g, hg, hR⟩ := h
  rw [hg] at hr
  obtain ⟨r, hmem, rfl⟩ := List.mem_map.mp hr
  exact ⟨r, hmem, hR r hmem⟩

theorem Evolves.new {R : OperationRow → OperationRow → Prop} {l l' : Ledger} (h : Evolves R l l')
    {r : OperationRow} (hr : r ∈ l.operations) : ∃ r' ∈ l'.operations, R r r' := by
  obtain ⟨g, hg, hR⟩ := h
  exact ⟨g r, hg ▸ List.mem_map_of_mem hr, hR r hr⟩

theorem Evolves.ids {R : OperationRow → OperationRow → Prop} {l l' : Ledger} (h : Evolves R l l')
    (hR : ∀ r r', R r r' → r'.id = r.id) :
    l'.operations.map (·.id) = l.operations.map (·.id) := by
  obtain ⟨g, hg, hg'⟩ := h
  rw [hg, List.map_map]
  exact List.map_congr_left fun r hr => hR _ _ (hg' r hr)

/-- An update moves exactly the rows its condition selects. -/
theorem evolves_update {R : OperationRow → OperationRow → Prop} {p : OperationRow → Bool}
    {f : OperationRow → OperationRow} {l l' : Ledger} (hl : l'.operations = update p f l.operations)
    (h : ∀ r ∈ l.operations, R r (if p r then f r else r)) : Evolves R l l' :=
  ⟨fun r => if p r then f r else r, hl, h⟩

/-! ## 2. Reconciliation -/

/-- The edges reconciliation may take: none, an expiry, the end of a stale claim. -/
def Quiet (a b : OperationStatus) : Prop :=
  a = b ∨ (a.unclaimed ∧ b = .expired) ∨ (a = .applying ∧ b = .ambiguous)

theorem Quiet.trans {a b c : OperationStatus} (h : Quiet a b) (k : Quiet b c) : Quiet a c := by
  unfold Quiet at *
  cases a <;> cases b <;> cases c <;> simp_all [OperationStatus.unclaimed]

/-- No quiet edge leads into an unclaimed status. -/
theorem Quiet.eq_of_unclaimed {a b : OperationStatus} (h : Quiet a b) (hb : b.unclaimed) :
    a = b := by
  rcases h with h | ⟨-, rfl⟩ | ⟨-, rfl⟩
  · exact h
  · cases hb
  · cases hb

/-- A row moved by reconciliation. -/
structure QuietRow (r r' : OperationRow) : Prop where
  same : r.Same r'
  receipt : r'.receiptJson = r.receiptJson
  status : Quiet r.status r'.status

theorem QuietRow.refl (r : OperationRow) : QuietRow r r := ⟨.refl r, rfl, .inl rfl⟩

theorem QuietRow.trans {a b c : OperationRow} (h : QuietRow a b) (k : QuietRow b c) :
    QuietRow a c :=
  ⟨h.same.trans k.same, k.receipt.trans h.receipt, h.status.trans k.status⟩

theorem Evolves.refl_quiet (l : Ledger) : Evolves QuietRow l l :=
  ⟨id, (List.map_id _).symm, fun r _ => .refl r⟩

theorem Evolves.trans_quiet {a b c : Ledger} (h : Evolves QuietRow a b) (k : Evolves QuietRow b c) :
    Evolves QuietRow a c := h.comp (fun _ _ _ h k => h.trans k) k

variable {env : External}

/-- Appending an event leaves the rows alone. -/
theorem eventOfRow_rows {l l' : Ledger} {id event : String} {status : OperationStatus}
    (h : eventOfRow env l id event status = .ok l') : l'.operations = l.operations := by
  unfold eventOfRow at h
  obtain ⟨o, -, h⟩ := bind_ok.mp h
  cases o with
  | none => exact congrArg Ledger.operations (pure_ok.mp h).symm
  | some op => rw [← pure_ok.mp h]; rfl

theorem expire_quiet {now : DateTime} {l l' : Ledger} {id : String}
    (h : expireOperation env now l id = .ok l') : Evolves QuietRow l l' := by
  refine evolves_update (eventOfRow_rows h) fun r _ => ?_
  split
  · rename_i hp
    simp only [Bool.and_eq_true] at hp
    exact ⟨⟨rfl, rfl, rfl, rfl⟩, rfl, .inr (.inl ⟨hp.2, rfl⟩)⟩
  · exact .refl r

theorem ambiguate_quiet {now : DateTime} {errorJson : String} {l l' : Ledger} {id : String}
    (h : ambiguateOperation env now errorJson l id = .ok l') : Evolves QuietRow l l' := by
  refine evolves_update (eventOfRow_rows h) fun r _ => ?_
  split
  · rename_i hp
    simp only [Bool.and_eq_true, decide_eq_true_eq] at hp
    exact ⟨⟨rfl, rfl, rfl, rfl⟩, rfl, .inr (.inr ⟨hp.2, rfl⟩)⟩
  · exact .refl r

/-- **Reconciliation moves rows only along quiet edges.** -/
theorem reconcile_spec {now : DateTime} {l l' : Ledger}
    (h : reconcileOperations env now l = .ok l') : Evolves QuietRow l l' := by
  unfold reconcileOperations at h
  simp only [bind_ok] at h
  obtain ⟨l₁, h₁, errorJson, -, h₂⟩ := h
  have quiet : ∀ {α : Type} {f : Ledger → α → Result Ledger} {as : List α} {a b : Ledger},
      (∀ l x l', f l x = .ok l' → Evolves QuietRow l l') → as.foldlM f a = .ok b →
        Evolves QuietRow a b := fun hf h =>
    foldlM_rel Evolves.refl_quiet (fun _ _ _ h k => h.trans_quiet k) hf _ h
  exact (quiet (fun _ _ _ => expire_quiet) h₁).trans_quiet (quiet (fun _ _ _ => ambiguate_quiet) h₂)

/-! ## 3. Calls -/

/-- A record shows the row it was read from. -/
structure OperationRecord.Of (record : OperationRecord) (r : OperationRow) : Prop where
  kind : record.kind = r.kind
  accountId : record.accountId = r.accountId
  payloadJson : record.payloadJson = r.payloadJson
  status : record.status = r.status

theorem operationFromRow_of {r : OperationRow} {record : OperationRecord}
    (h : operationFromRow env r = .ok record) : record.Of r := by
  simp only [operationFromRow, bind_ok, pure_ok] at h
  obtain ⟨_, -, _, -, _, -, _, -, _, -, _, -, _, -, rfl⟩ := h
  exact ⟨rfl, rfl, rfl, rfl⟩

theorem operationInTransaction_some {l : Ledger} {id : String} {record : OperationRecord}
    (h : operationInTransaction env l id = .ok (some record)) :
    ∃ r ∈ l.operations, r.id = id ∧ record.Of r := by
  unfold operationInTransaction at h
  cases hf : l.operations.find? fun row => row.id = id with
  | none => rw [hf] at h; simp [decodeOption] at h
  | some r =>
      rw [hf] at h
      simp only [decodeOption, bind_ok, pure_ok, Option.some.injEq] at h
      obtain ⟨record, hr, rfl⟩ := h
      exact ⟨r, List.mem_of_find?_eq_some hf, by simpa using List.find?_some hf,
        operationFromRow_of hr⟩

/-- **A creation adds one planned row under a fresh id.** -/
theorem create_spec {op op' : OperationRecord} {l l' : Ledger}
    (h : createOperation env op l = .ok (op', l')) :
    op.id ∉ l.operations.map (·.id) ∧
      ∃ row, l'.operations = l.operations ++ [row] ∧ row.id = op.id ∧ row.kind = op.kind ∧
        row.accountId = op.accountId ∧ row.payloadJson = op.payloadJson ∧
        row.status = .planned := by
  simp only [createOperation, bind_ok, pure_ok, ensure_ok, Prod.mk.injEq] at h
  obtain ⟨_, -, _, hplanned, _, hfresh, rfl, rfl⟩ := h
  exact ⟨hfresh, _, rfl, rfl, rfl, rfl, rfl, hplanned.1⟩

theorem get_spec {id : String} {now : DateTime} {l l' : Ledger} {op : Option OperationRecord}
    (h : getOperation env id now l = .ok (op, l')) : Evolves QuietRow l l' := by
  simp only [getOperation, bind_ok, pure_ok, Prod.mk.injEq] at h
  obtain ⟨_, -, l₁, h₁, _, -, -, rfl⟩ := h
  exact reconcile_spec h₁

theorem list_spec {accountId kind : Option String} {limit : Nat} {now : DateTime} {l l' : Ledger}
    {ops : List OperationRecord}
    (h : listOperations env accountId kind limit now l = .ok (ops, l')) :
    Evolves QuietRow l l' := by
  simp only [listOperations, bind_ok, pure_ok, Prod.mk.injEq] at h
  obtain ⟨_, -, _, -, l₁, h₁, _, -, -, rfl⟩ := h
  exact reconcile_spec h₁

/-- The rows of a transition of `id` into `target`. -/
def MovesTo (id : String) (target : OperationStatus) (r r' : OperationRow) : Prop :=
  if r.id = id then r.Same r' ∧ r'.receiptJson = r.receiptJson ∧ r'.status = target
  else QuietRow r r'

/-- **A transition moves the named row from its source to its target status, and every other
    row quietly.**  Reconciliation cannot lead into an unclaimed status, so the named row had
    the source status before the call. -/
theorem transition_spec {id : String} {now : DateTime} {source target : OperationStatus}
    {approve : Bool} {l l' : Ledger} {record : OperationRecord} (hs : source.unclaimed)
    (hid : (l.operations.map (·.id)).Nodup)
    (h : operationTransition env id now source target approve l = .ok (record, l')) :
    Evolves (MovesTo id target) l l' ∧
      ∃ r ∈ l.operations, r.id = id ∧ r.status = source ∧ record.kind = r.kind ∧
        record.accountId = r.accountId ∧ record.payloadJson = r.payloadJson := by
  simp only [operationTransition, bind_ok, pure_ok, ensure_ok, orRefuse_ok, Prod.mk.injEq] at h
  obtain ⟨_, -, l₁, h₁, _, hx, existing, rfl, _, -, _, hst, _, hy, updated, rfl, rfl, rfl⟩ := h
  have hq := reconcile_spec h₁
  have hid₁ : (l₁.operations.map (·.id)).Nodup := by
    rw [hq.ids fun _ _ h => h.same.id]; exact hid
  obtain ⟨x, hxm, rfl, hxo⟩ := operationInTransaction_some hx
  have hxs : x.status = source := hxo.status.symm.trans hst
  -- the named row is the only one under its id, so the update moves it and no other
  have named : ∀ r ∈ l₁.operations, r.id = x.id → r = x := fun r hr h =>
    eq_of_key_eq hid₁ hr hxm h
  refine ⟨hq.comp (S := fun r r' => if r.id = x.id then
      r.Same r' ∧ r'.receiptJson = r.receiptJson ∧ r'.status = target else r' = r) ?_
      (evolves_update rfl fun r hr => ?_), ?_⟩
  · intro a b c hab hbc
    unfold MovesTo
    rw [← hab.same.id]
    split
    · rename_i hb
      rw [if_pos hb] at hbc
      exact ⟨hab.same.trans hbc.1, hbc.2.1.trans hab.receipt, hbc.2.2⟩
    · rename_i hb
      rw [if_neg hb] at hbc
      exact hbc ▸ hab
  · by_cases hr' : r.id = x.id
    · obtain rfl := named r hr hr'
      simp only [hxs, decide_true, Bool.and_self, ↓reduceIte]
      exact ⟨⟨rfl, rfl, rfl, rfl⟩, trivial, trivial⟩
    · simp [hr']
  · obtain ⟨r, hr, hrx⟩ := hq.old hxm
    obtain ⟨y, hym, hyid, hyo⟩ := operationInTransaction_some hy
    obtain ⟨z, hz, rfl⟩ := mem_update.mp hym
    have hzx : z = x := named z hz (by split at hyid <;> exact hyid)
    subst hzx
    simp only [hxs, decide_true, Bool.and_self, ↓reduceIte] at hyo
    exact ⟨r, hr, hrx.same.id.symm, (hrx.status.eq_of_unclaimed (hxs ▸ hs)).trans hxs,
      hyo.kind.trans hrx.same.kind, hyo.accountId.trans hrx.same.accountId,
      hyo.payloadJson.trans hrx.same.payloadJson⟩

/-- The rows of a finish of `id`: the named row leaves `applying` with the given receipt. -/
def Finishes (id : String) (status : OperationStatus) (receiptJson : Option String)
    (r r' : OperationRow) : Prop :=
  if r.id = id then
    r.status = .applying ∧ r.Same r' ∧ r'.receiptJson = receiptJson ∧ r'.status = status
  else r' = r

/-- **A finish moves the named row out of `applying` and leaves the others alone.** -/
theorem finish_spec {id : String} {now : DateTime} {status : OperationStatus}
    {error : Option MailError} {receiptJson : Option String} {l l' : Ledger}
    {record : OperationRecord} (hid : (l.operations.map (·.id)).Nodup)
    (h : finishOperation env id now status error receiptJson l = .ok (record, l')) :
    Evolves (Finishes id status receiptJson) l l' := by
  simp only [finishOperation, bind_ok, pure_ok, ensure_ok, orRefuse_ok, Prod.mk.injEq] at h
  obtain ⟨_, -, errorJson, -, _, hx, existing, rfl, _, hst, _, hy, updated, rfl, rfl, rfl⟩ := h
  obtain ⟨x, hxm, rfl, hxo⟩ := operationInTransaction_some hx
  have hxs : x.status = .applying := hxo.status.symm.trans hst
  refine evolves_update rfl fun r hr => ?_
  unfold Finishes
  by_cases hr' : r.id = x.id
  · obtain rfl := eq_of_key_eq hid hr hxm hr'
    simp only [hxs, decide_true, Bool.and_self, ↓reduceIte]
    exact ⟨trivial, ⟨rfl, rfl, rfl, rfl⟩, trivial, trivial⟩
  · simp [hr']

end Kirje
