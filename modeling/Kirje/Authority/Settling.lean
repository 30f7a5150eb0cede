import Kirje.Authority.Stopping

/-
  File:      Kirje/Authority/Settling.lean
  Subject:   How an open transition is settled: it is finalized or aborted.

  A finalize keeps acceptance.  An abort keeps it while nothing else has happened
  since the preparation, for the validator demands the abort right after it.

  * `Observed.finalized_accepted`: **a finalize keeps acceptance.**
  * `Observed.aborted_accepted_iff`: **an abort keeps acceptance exactly when its
    transition was the last thing to happen.**
-/

namespace Kirje.Authority

open Base

variable {env : Platform} {codec : ManifestCodec} {s : Snapshot} {db db' : Db} {new : List Event}

/-! ## 1. Counts -/

/-- Appended events are counted by their specifications. -/
theorem length_filter_eventRows (q : Nat → Bytes → Nat → Bool) (n : Nat) (specs : List EventSpec) :
    ((eventRows env n specs).filter fun e => q e.entityKind e.entityId e.eventCode).length =
      (specs.filter fun e => q e.entityKind e.entityId e.eventCode).length := by
  induction specs generalizing n with
  | nil => rfl
  | cons a specs ih =>
      simp only [eventRows, length_filter_cons, ih]
      rfl

/-! ## 2. Finalized transitions -/

/-- The row of a finalized transition. -/
def finalizedRow (at' : Int) (t : Transition) : Transition :=
  { t with state := .finalized, finalizedAt := some at' }

/-- The row of the store of a settled transition. -/
def releasedStore (at' : Int) (x : Store) : Store := { x with state := .active, updatedAt := at' }

/-- The row of a cleanup of a finalized transition. -/
def readyRow (x : Cleanup) : Cleanup := { x with state := .ready }

/-- The events of a finalize. -/
def finalizeSpecs (db : Db) (t : Transition) (receiptId : ReceiptId) (at' : Int) :
    List EventSpec :=
  [finalizedEvent t receiptId at', storeEvent t.storeId 4 t.transitionId 0x0402 0x0401
      t.transitionSha256 receiptId at'] ++
    (readyCleanups { db with cleanups := cleanupsReady db t } t).map fun id =>
      cleanupReadyEvent id t receiptId at'

/-- The events of ready cleanups are of no other kind. -/
theorem filter_readyEvents {t : Transition} {receiptId : ReceiptId} {at' : Int} {n : Nat}
    {ids : List CleanupId} {q : Event → Bool} (hq : ∀ e : Event, e.entityKind = 7 → q e = false) :
    (eventRows env n (ids.map fun id => cleanupReadyEvent id t receiptId at')).filter q = [] := by
  rw [List.filter_eq_nil_iff]
  intro e he
  obtain ⟨spec, hspec, -, heq, -⟩ := mem_eventRows he
  obtain ⟨id, -, rfl⟩ := List.mem_map.mp hspec
  rw [hq e (by rw [heq]; rfl)]
  decide

/-- A finalized transition, table by table. -/
def finalizedTables (env : Platform) (db : Db) (t : Transition) (receiptId : ReceiptId) (at' : Int) :
    Db :=
  { db.clocked at' with
    accounts := update (fun a => decide (heldAccount t (openAccountState t.kind) a))
      (finalizedAccount t at') db.accounts
    transitions := update (transitionIn t .configCommitted) (finalizedRow at') db.transitions
    stores := update (blockedWith t t.nextGeneration t.afterConfigSha256) (releasedStore at')
      db.stores
    cleanups := cleanupsReady db t
    events := db.events ++
      eventRows env db.sequenceHighWater (finalizeSpecs db t receiptId at')
    sequenceHighWater := db.sequenceHighWater + (finalizeSpecs db t receiptId at').length }

theorem transitionFinalized_eq (t : Transition) (receiptId : ReceiptId) (at' : Int) :
    transitionFinalized env db t receiptId at' = finalizedTables env db t receiptId at' := by
  rw [transitionFinalized, appendEvents_eq]
  rfl

theorem mem_finalizeSpecs {t : Transition} {receiptId : ReceiptId} {at' : Int} {e : Event} {n : Nat}
    (he : e ∈ eventRows env n (finalizeSpecs db t receiptId at')) :
    e = (finalizedEvent t receiptId at').row env (n + 1) ∨
    e = (storeEvent t.storeId 4 t.transitionId 0x0402 0x0401 t.transitionSha256 receiptId at').row
      env (n + 2) ∨
    ∃ id ∈ readyCleanups { db with cleanups := cleanupsReady db t } t,
      ∃ m, e = (cleanupReadyEvent id t receiptId at').row env m := by
  simp only [finalizeSpecs, List.cons_append, List.nil_append, eventRows, List.mem_cons] at he
  rcases he with rfl | rfl | he
  · exact Or.inl rfl
  · exact Or.inr (Or.inl rfl)
  · obtain ⟨spec, hspec, -, heq, -⟩ := mem_eventRows he
    obtain ⟨id, hid, rfl⟩ := List.mem_map.mp hspec
    exact Or.inr (Or.inr ⟨id, hid, e.sequence, heq⟩)

section Finalize

variable {t : Transition} {o : Origin} {value : AccountMutationManifest}
  {account : AccountSnapshot} {a : Account} {x : Store} {at' : Int}
  (ho : Observed env codec s db t o value account a x at')
include ho

/-- An open transition has reserved its cleanups, and no more. -/
theorem Observed.provisional {c : Cleanup} (hc : c ∈ db.cleanups)
    (ht : c.transitionId = some t.transitionId) : c.state = .provisional := by
  obtain ⟨u, o', value', account', a', before, d, hchain⟩ := ho.accepted.cleanupChain hc
  have hut : u = t := by
    refine eq_of_key_eq ho.accepted.tables.transitions.id_unique hchain.transition_mem ho.mem ?_
    exact Option.some.inj (hchain.row.transition.symm.trans ht)
  by_contra hne
  have hfin := hchain.row.finalized hne
  rw [hut] at hfin
  rcases ho.opened with hopen | hopen <;> simp [hfin] at hopen

/-- The cleanups after a finalize. -/
theorem Observed.mem_ready (y : Cleanup) : y ∈ cleanupsReady db t ↔
    (y ∈ db.cleanups ∧ y.transitionId ≠ some t.transitionId) ∨
      ∃ z ∈ db.cleanups, z.transitionId = some t.transitionId ∧ y = readyRow z := by
  rw [cleanupsReady, mem_update]
  constructor
  · rintro ⟨z, hz, rfl⟩
    by_cases hzt : z.transitionId = some t.transitionId
    · exact Or.inr ⟨z, hz, hzt, by simp [hzt, ho.provisional hz hzt, readyRow]⟩
    · exact Or.inl (by simpa [hzt] using hz)
  · rintro (⟨hy, hne⟩ | ⟨z, hz, hzt, rfl⟩)
    · exact ⟨y, hy, by simp [hne]⟩
    · exact ⟨z, hz, by simp [hzt, ho.provisional hz hzt, readyRow]⟩

theorem Observed.mem_readyCleanups {id : CleanupId} :
    id ∈ readyCleanups { db with cleanups := cleanupsReady db t } t ↔
      ∃ c ∈ db.cleanups, c.transitionId = some t.transitionId ∧ c.state = .provisional ∧
        c.cleanupId = id := by
  simp only [readyCleanups, List.mem_insertionSort, List.mem_map, List.mem_filter,
    decide_eq_true_eq, cleanupsReady, mem_update]
  constructor
  · rintro ⟨y, ⟨⟨c, hc, rfl⟩, hy⟩, rfl⟩
    have htc : c.transitionId = some t.transitionId := by
      split at hy
      · exact hy.1
      · exact hy.1
    refine ⟨c, hc, htc, ho.provisional hc htc, ?_⟩
    split <;> rfl
  · rintro ⟨c, hc, htc, hst, rfl⟩
    exact ⟨{ c with state := .ready }, ⟨⟨c, hc, by simp [htc, hst]⟩, htc, rfl⟩, rfl⟩

theorem Observed.nodup_readyCleanups :
    (readyCleanups { db with cleanups := cleanupsReady db t } t).Nodup := by
  rw [readyCleanups, (List.perm_insertionSort _ _).nodup_iff]
  have hids : ((cleanupsReady db t).map Cleanup.cleanupId).Nodup := by
    rw [cleanupsReady, map_update]
    · exact ho.accepted.tables.cleanups.id_unique
    · exact fun _ => rfl
  exact hids.sublist (List.filter_sublist.map _)

/-- A finalize frees its store with one event. -/
theorem Observed.finalize_storeEvents :
    ((eventRows env db.sequenceHighWater (finalizeSpecs db t o.receipt.receiptId at')).filter
      fun e => decide (e.entityKind = 4 ∧ e.entityId = x.storeId.bytes)) =
    [(storeEvent t.storeId 4 t.transitionId 0x0402 0x0401 t.transitionSha256 o.receipt.receiptId
      at').row env (db.sequenceHighWater + 2)] := by
  simp only [finalizeSpecs, List.cons_append, List.nil_append, eventRows, List.filter_cons]
  rw [filter_readyEvents fun e hk => decide_eq_false fun h => absurd (h.1.symm.trans hk) (by decide)]
  simp [EventSpec.row, finalizedEvent, transitionEvent, storeEvent, ho.holds.store.2.1]

/-- A finalize reports each of its cleanups once. -/
theorem Observed.ready_once {i : CleanupId}
    (hi : i ∈ readyCleanups { db with cleanups := cleanupsReady db t } t) :
    ((finalizeSpecs db t o.receipt.receiptId at').filter fun e =>
      decide (e.entityKind = 7 ∧ e.entityId = i.bytes ∧ e.eventCode = 15)).length = 1 := by
  have hone : ((readyCleanups { db with cleanups := cleanupsReady db t } t).filter fun j =>
      decide (j.bytes = i.bytes)).length = 1 := by
    have hcount := List.count_eq_one_of_mem ho.nodup_readyCleanups hi
    rw [List.count_eq_length_filter] at hcount
    rw [← hcount]
    refine congrArg List.length (List.filter_congr fun j _ => ?_)
    rw [Bool.eq_iff_iff, decide_eq_true_eq, beq_iff_eq]
    exact ⟨Uuid.eq_of_bytes, congrArg Uuid.bytes⟩
  rw [← hone, finalizeSpecs, List.filter_append, List.length_append, List.filter_map,
    List.length_map]
  simp [finalizedEvent, transitionEvent, storeEvent, cleanupReadyEvent, Function.comp_def]

variable (hst : t.state = .configCommitted)
include hst

theorem Observed.finalized_blocked :
    blockedWith t t.nextGeneration t.afterConfigSha256 x = true := by
  rcases ho.holds.pair with ⟨hp, -⟩ | ⟨-, hg, hs⟩
  · exact absurd (hst.symm.trans hp) (by decide)
  · simp [blockedWith, ho.holds.store.2.1, ho.holds.store.2.2, hg, hs]

theorem Observed.finalizeMove :
    TransitionMove db (finalizedTables env db t o.receipt.receiptId at')
      (eventRows env db.sequenceHighWater (finalizeSpecs db t o.receipt.receiptId at')) t
      (finalizedRow at' t) a (finalizedAccount t at' a) x (releasedStore at' x) := by
  refine ⟨ho.mem, ho.opened, ⟨ho.chain.account_mem, ho.chain.account_id⟩, ho.holds.store,
    ho.mem_transitions hst (finalizedRow at'), ho.mem_accounts ho.accountState (finalizedAccount t at'),
    ho.mem_stores (ho.finalized_blocked hst) (fun y hy => (of_decide_eq_true hy).1)
      (releasedStore at'),
    ⟨⟨.finalized, t.configCommittedAt, some at', t.resolvedAt, rfl, fun _ h => h, ?_⟩,
      ⟨rfl, rfl, rfl, rfl⟩, _, _, _, _, rfl⟩, fun _ _ => rfl, fun _ _ => rfl, fun i => ?_,
    fun y hy hyt => (ho.mem_ready y).mpr (Or.inl ⟨hy, hyt⟩), ?_⟩
  · intro code hcode
    simp only [reachableEvent, hst] at hcode
    simp [reachableEvent, finalizedRow]
    simp at hcode
    tauto
  · exact length_filter_update_same (f := readyRow) (fun _ _ => rfl) _
  · intro e he
    rcases mem_finalizeSpecs he with rfl | rfl | ⟨id, hid, m, rfl⟩
    · exact Or.inl ⟨rfl, rfl, show (12 : Nat) ≠ 10 by decide⟩
    · exact Or.inr (Or.inl ⟨rfl, congrArg Uuid.bytes ho.holds.store.2.1.symm, rfl⟩)
    · obtain ⟨y, hy, hyt, -, rfl⟩ := ho.mem_readyCleanups.mp hid
      exact Or.inr (Or.inr ⟨rfl, y, hy, hyt, rfl⟩)

variable (hs : SchemaOk (finalizedTables env db t o.receipt.receiptId at'))
include hs

theorem Observed.finalizeFrame :
    Frame db (finalizedTables env db t o.receipt.receiptId at')
      (eventRows env db.sequenceHighWater (finalizeSpecs db t o.receipt.receiptId at')) := by
  refine (ho.finalizeMove hst).frame ho.accepted.tables hs.tables ⟨rfl, rfl, rfl⟩
    ⟨at', ho.time.monotone, rfl⟩ ⟨rfl, rfl, rfl, rfl, rfl⟩ (List.Subset.refl _) (List.Subset.refl _)
    (exists_mem_update Cleanup.Continues.refl fun y hy => ?_) rfl
  obtain ⟨-, hprov⟩ := of_decide_eq_true hy
  exact ⟨.ready, y.claimGrantId, y.deletedAt, rfl, by simp, fun _ h => h, by simp [hprov],
    by simp [hprov]⟩

theorem Observed.finalizeEvent :
    loadSingleEntityEvent (finalizedTables env db t o.receipt.receiptId at') 6
        t.transitionId.bytes 12 =
      some ((finalizedEvent t o.receipt.receiptId at').row env (db.sequenceHighWater + 1)) := by
  refine (ho.finalizeFrame hst hs).singleEvent_new (ho.no_event (by simp [reachableEvent, hst])) ?_
  simp only [finalizeSpecs, List.cons_append, List.nil_append, eventRows, List.filter_cons]
  rw [filter_readyEvents fun e hk => decide_eq_false fun h => absurd (h.1.symm.trans hk) (by decide)]
  simp [EventSpec.row, finalizedEvent, transitionEvent, storeEvent]

theorem Observed.finalizeEvents :
    TransitionEvents env (finalizedTables env db t o.receipt.receiptId at') (finalizedRow at' t)
      o.receipt.receiptId := by
  have f := ho.finalizeFrame hst hs
  refine (ho.finalizeMove hst).eventsOk f ho.chain.checks.events fun prepared previous hp hprev => ?_
  have hle := (committedSequence_le ho.accepted hp hprev).2
  refine ⟨previous, ?_, at', rfl, _, ho.finalizeEvent hst hs, _, f.eventBySequence_new
    (e := (storeEvent t.storeId 4 t.transitionId 0x0402 0x0401 t.transitionSha256
      o.receipt.receiptId at').row env (db.sequenceHighWater + 2)) ?_, ?_, rfl, rfl⟩
  · rw [f.committedSequence_eq t (finalizedRow at' t) ⟨rfl, rfl, fun _ => rfl⟩, hprev]
    intro e he
    rcases mem_finalizeSpecs he with rfl | rfl | ⟨id, -, m, rfl⟩
    · exact fun h => absurd h.2.2 (show (12 : Nat) ≠ 11 by decide)
    · exact fun h => absurd h.1 (show (4 : Nat) ≠ 6 by decide)
    · exact fun h => absurd h.1 (show (7 : Nat) ≠ 6 by decide)
  · exact List.mem_cons_of_mem _ List.mem_cons_self
  · show previous < db.sequenceHighWater + 1
    omega

/-- The cleanups of a finalized transition are ready, each with its event. -/
theorem Observed.finalizeCleanups :
    TransitionCleanups env (finalizedTables env db t o.receipt.receiptId at')
      (finalizedRow at' t) value := by
  have f := ho.finalizeFrame hst hs
  have hnot : t.state ≠ .finalized := by simp [hst]
  refine ⟨((ho.finalizeMove hst).cleanup_counts t.transitionId).trans ho.chain.checks.cleanups.1,
    fun d hd => ?_⟩
  obtain ⟨before, hb, c, hc, hr⟩ := ho.chain.checks.cleanups.2 d hd
  rw [Option.mem_def, loadCredentialCleanup_iff f.tables] at hc
  have hprov := ho.provisional hc.1 hr.transition
  have hshape := hr.lifecycle.2
  simp only [cleanupShape, hprov, Option.isNone_iff_eq_none] at hshape
  have hid : d.cleanupId ∈ readyCleanups { db with cleanups := cleanupsReady db t } t :=
    ho.mem_readyCleanups.mpr ⟨c, hc.1, hr.transition, hprov, hc.2⟩
  refine ⟨before, hb, readyRow c, ?_, hr.transition, hr.provisional, hr.kind, hr.sha256, ?_,
    hr.digest, ⟨by simp [finalizedRow, readyRow], by simp [cleanupShape, readyRow, hshape]⟩,
    hr.created_at, by simp [CleanupClaim, readyRow, hshape], ?_, ?_, ?_⟩
  · exact (loadCredentialCleanup_iff f.tables').mpr
      ⟨(ho.mem_ready _).mpr (Or.inr ⟨c, hc.1, hr.transition, rfl⟩), hc.2⟩
  · rw [f.realm]
    exact hr.material
  · have hnone := hr.ready_events
    rw [if_neg hnot] at hnone
    rw [f.eventsOf_append, List.length_append, hnone, Nat.zero_add,
      length_filter_eventRows fun k i code => decide (k = 7 ∧ i = d.cleanupId.bytes ∧ code = 15)]
    exact ho.ready_once hid
  · rw [f.eventsOf_eq]
    · exact hr.claimed_events
    · intro e he
      rcases mem_finalizeSpecs he with rfl | rfl | ⟨id, -, m, rfl⟩
      · exact fun h => absurd h.1 (show (6 : Nat) ≠ 7 by decide)
      · exact fun h => absurd h.1 (show (4 : Nat) ≠ 7 by decide)
      · exact fun h => absurd h.2.2 (show (15 : Nat) ≠ 16 by decide)
  · rw [f.eventsOf_eq]
    · exact hr.deleted_events
    · intro e he
      rcases mem_finalizeSpecs he with rfl | rfl | ⟨id, -, m, rfl⟩
      · exact fun h => absurd h.1 (show (6 : Nat) ≠ 7 by decide)
      · exact fun h => absurd h.1 (show (4 : Nat) ≠ 7 by decide)
      · exact fun h => absurd h.2.2 (show (15 : Nat) ≠ 17 by decide)

theorem Observed.finalizeOk :
    TransitionOk env codec (finalizedTables env db t o.receipt.receiptId at')
      (finalizedRow at' t) := by
  have f := ho.finalizeFrame hst hs
  have hm := ho.finalizeMove hst
  have hoa := ho.openAccount
  refine hm.movedOk f ho.accepted ho.chain ?_
    (f.versionsStay t (finalizedRow at' t) rfl rfl ⟨rfl, rfl, rfl, rfl, rfl⟩ ho.chain.checks.versions)
    (ho.finalizeCleanups hst hs) ?_ (ho.finalizeEvents hst hs)
  · refine currentAccount_of hoa.current_eq (by simp [restoredPredecessor, finalizedRow]) hoa.row ?_
    simp only [currentColumns, finalizedRow, finalizedAccount, Option.map_some]
    rfl
  · obtain ⟨hload, hids⟩ := ho.account_loads hs.tables ((hm.accounts _).mpr (Or.inr rfl))
      hm.continues.2.1
    obtain ⟨y, hy⟩ := @Mutates.projectedSnapshot (finalizedRow at' t) _ _ _ ho.chain.mutates .finalized
    exact projection_settled (Or.inl rfl) hload hids (f.origin ho.accepted ho.chain.load)
      ho.chain.mutation hy ho.chain.checks.row.prepared_utc

/-- The store of a finalized transition is free again, with the pair it committed. -/
theorem Observed.finalizeStoreOk :
    StoreOk env codec (finalizedTables env db t o.receipt.receiptId at') (releasedStore at' x) := by
  have f := ho.finalizeFrame hst hs
  have hm := ho.finalizeMove hst
  have hx' := (hm.stores (releasedStore at' x)).mpr (Or.inr rfl)
  have ht' := (hm.transitions (finalizedRow at' t)).mpr (Or.inr rfl)
  refine hm.storeOk f ho.accepted (by simp [releasedStore])
    ⟨ho.time.utc, (hs.tables.stores.checks _ hx').2.1⟩ fun m m' hsaw hblock => ?_
  obtain ⟨-, rfl⟩ := StoreWalk.block_some.mp hblock
  have hrow := storeEventRow_of (e := (storeEvent t.storeId 4 t.transitionId 0x0402 0x0401
    t.transitionSha256 o.receipt.receiptId at').row env (db.sequenceHighWater + 2)) true
    hs.tables ht' (f.receiptId ho.receiptId) rfl (by decide) (by decide) (by decide) ho.time.utc rfl
    (ho.finalizeEvent hst hs) rfl
  have hid : (finalizedRow at' t).storeId = (releasedStore at' x).storeId := ho.holds.store.2.1.symm
  rw [hid] at hrow
  rw [ho.finalize_storeEvents]
  have hrelease := (StoreWalk.release_some (w := m.blockedBy (finalizedRow at' t))
    (t := finalizedRow at' t)).mpr ⟨⟨rfl, rfl⟩, at', rfl, rfl⟩
  have hc : t.configCommittedAt.isSome := by
    have h := ho.chain.checks.row.timestamps
    unfold timestampShape at h
    rw [hst] at h
    exact h.1
  rcases ho.holds.pair with ⟨hp, -⟩ | ⟨-, hg, hsha⟩
  · exact absurd (hst.symm.trans hp) (by decide)
  · refine ⟨_, replay_cons.mpr ⟨_, storeWalkStep_iff.mpr (.release rfl hsaw hrow rfl rfl hrelease),
      rfl⟩, hsaw, rfl, ?_, ?_, rfl⟩
    · simpa [StoreWalk.blockedBy, finalizedRow, releasedStore, hc] using hg.symm
    · simpa [StoreWalk.blockedBy, finalizedRow, releasedStore, hc] using hsha.symm

/-- **A finalize keeps acceptance.** -/
theorem Observed.finalized_accepted :
    Accepted env codec s (finalizedTables env db t o.receipt.receiptId at') := by
  have f := ho.finalizeFrame hst hs
  have hm := ho.finalizeMove hst
  have ht' := (hm.transitions (finalizedRow at' t)).mpr (Or.inr rfl)
  have hx' := (hm.stores (releasedStore at' x)).mpr (Or.inr rfl)
  refine hm.accepted f ho.accepted hs rfl rfl ⟨rfl, rfl, rfl, rfl⟩ ?_ (fun v hv => Or.inl hv)
    (ho.finalizeStoreOk hst hs) (ho.finalizeOk hst hs) ?_
  · refine ho.accepted.history.counts.moved (g := finalizedRow at') (ho.filter_transition hst) rfl rfl
      ⟨rfl, rfl⟩ ⟨length_update, length_update⟩ ⟨?_, ?_⟩ ?_ ?_
    · refine length_filter_update_same (f := readyRow) (fun y hy => ?_) _
      obtain ⟨-, hprov⟩ := of_decide_eq_true hy
      simp [readyRow, hprov]
    · rw [List.filter_eq_nil_iff]
      intro y hy
      have hnone := List.filter_eq_nil_iff.mp ho.accepted.history.counts.attached
      rcases (ho.mem_ready y).mp hy with ⟨hy, -⟩ | ⟨z, hz, -, rfl⟩
      · exact hnone y hy
      · exact hnone z hz
    · simp [Transition.committed, finalizedRow, hst]
      rfl
    · simp [Transition.committed, finalizedRow, hst]
      rfl
  · intro e he
    rcases mem_finalizeSpecs he with rfl | rfl | ⟨id, hid, m, rfl⟩
    · exact transitionRow_of hs.tables ht' (ho.finalizeOk hst hs) rfl ⟨by decide, by decide⟩ rfl
    · have hid : t.storeId = (releasedStore at' x).storeId := ho.holds.store.2.1.symm
      rw [hid]
      exact storeRow_of hs.tables hx' rfl (show (4 : Nat) < 256 by decide)
        (show 0x0402 < 65536 by decide) (show 0x0401 < 65536 by decide) ho.time.utc
    · obtain ⟨y, hy, hyt, -, rfl⟩ := ho.mem_readyCleanups.mp hid
      show CleanupReadyEventOk env _ _
      exact ⟨y.cleanupId, Uuid.ofBytes?_bytes _, readyRow y, (loadCredentialCleanup_iff hs.tables).mpr
        ⟨(ho.mem_ready _).mpr (Or.inr ⟨y, hy, hyt, rfl⟩), rfl⟩, t.transitionId, hyt, finalizedRow at' t,
        (loadAccountTransition_iff hs.tables).mpr ⟨ht', rfl⟩, o.receipt.receiptId,
        f.receiptId ho.receiptId, at', rfl, by simp [readyRow], rfl, rfl⟩

end Finalize

/-! ## 3. Aborted transitions -/

/-- The row of an aborted transition. -/
def abortedRow (at' : Int) (t : Transition) : Transition :=
  { t with state := .aborted, resolvedAt := some at' }

/-- The events of an abort. -/
def abortSpecs (t : Transition) (receiptId : ReceiptId) (at' : Int) : List EventSpec :=
  [transitionEvent t 13 6 TransitionState.prepared.eventState .aborted t.transitionSha256 receiptId
      at',
    storeEvent t.storeId 6 t.transitionId 0x0402 0x0401 t.transitionSha256 receiptId at']

/-- The log ends with the preparation of a transition. -/
def PreparedLast (db : Db) (t : Transition) : Prop :=
  ∃ e ∈ db.events, e.sequence = db.sequenceHighWater ∧ e.entityKind = 6 ∧
    e.entityId = t.transitionId.bytes ∧ e.eventCode = 10

instance (db : Db) (t : Transition) : Decidable (PreparedLast db t) := by
  unfold PreparedLast
  infer_instance

/-- **The account an abort leaves** is the one its transition found. -/
structure Restores (db : Db) (t : Transition) (value : AccountMutationManifest)
    (receiptId : ReceiptId) (at' : Int) (a a' : Account) (accounts : List Account) : Prop where
  continues : a.Continues a'
  mem : ∀ b, b ∈ accounts ↔ (b ∈ db.accounts ∧ b.accountId ≠ a.accountId) ∨ b = a'
  length : accounts.length = db.accounts.length
  current : CurrentAccount db a' (abortedRow at' t) value receiptId

/-- The pair of events of an abort: the transition ends right after its preparation. -/
theorem TerminalPair.abort {t : Transition} {receiptId : ReceiptId} {previous : Nat}
    {context : Digest} {prior : TransitionState} {at' : Int} {e st : Event}
    (he : loadSingleEntityEvent db 6 t.transitionId.bytes 13 = some e)
    (hst : loadEventBySequence db st.sequence = some st) (hnext : st.sequence = e.sequence + 1)
    (heq : e.sequence = previous + 1)
    (hspells : e.Says env (transitionEvent t 13 6 prior.eventState .aborted context receiptId at'))
    (his : st.Is env (storeEvent t.storeId 6 t.transitionId 0x0402 0x0401 context receiptId at')) :
    TerminalPair env db t receiptId previous 13 6 prior .aborted 0x0401 context at' := by
  refine ⟨e, he, st, ?_, ?_, hspells, his⟩
  · rw [if_neg (by decide), ← hnext]
    exact hst
  · rw [if_pos rfl]
    exact ⟨heq, hnext⟩

theorem TerminalPair.abort_next {t : Transition} {receiptId : ReceiptId} {previous source n : Nat}
    {prior next : TransitionState} {context : Digest} {at' : Int}
    (h : TerminalPair env db t receiptId previous 13 source prior next n context at') :
    ∃ e, loadSingleEntityEvent db 6 t.transitionId.bytes 13 = some e ∧ e.sequence = previous + 1 := by
  obtain ⟨e, he, _, -, hseq, -⟩ := h
  rw [if_pos rfl] at hseq
  exact ⟨e, he, hseq.1⟩

/-- The preparation of a transition is the last event exactly when its event is. -/
theorem preparedLast_iff {t : Transition} {prepared : Event}
    (hp : loadSingleEntityEvent db 6 t.transitionId.bytes 10 = some prepared) :
    PreparedLast db t ↔ prepared.sequence = db.sequenceHighWater := by
  have heq := loadSingleEntityEvent_iff.mp hp
  have hmem : prepared ∈ eventsOf db 6 t.transitionId.bytes 10 := heq ▸ List.mem_singleton_self _
  have hfilter := List.mem_filter.mp hmem
  constructor
  · rintro ⟨e, he, hseq, hkind⟩
    have hin : e ∈ eventsOf db 6 t.transitionId.bytes 10 :=
      List.mem_filter.mpr ⟨he, decide_eq_true hkind⟩
    rw [heq, List.mem_singleton] at hin
    exact hin ▸ hseq
  · intro hseq
    exact ⟨prepared, hfilter.1, hseq, of_decide_eq_true hfilter.2⟩

section Abort

variable {t : Transition} {o : Origin} {value : AccountMutationManifest}
  {account : AccountSnapshot} {a : Account} {x : Store} {at' : Int}
  (ho : Observed env codec s db t o value account a x at')
include ho

/-- An aborted creation leaves a removed account. -/
theorem Observed.restores_created {accounts : List Account} (hk : t.kind = .accountCreate)
    (ha : abortedAccounts env codec db t at' = .ok accounts) :
    Restores db t value o.receipt.receiptId at' a (abortCreated at' a) accounts := by
  simp only [abortedAccounts, hk, if_true, updateOne_ok] at ha
  have hstate : a.state = .proposed := by
    have := ho.accountState
    simpa [openAccountState, hk] using this
  have hoa := ho.openAccount
  refine ⟨⟨rfl, rfl, rfl, rfl⟩, ?_, ?_, ?_⟩
  · rw [← ha.2]
    exact ho.mem_accounts hstate (abortCreated at')
  · rw [← ha.2]
    exact length_update
  · refine currentAccount_of hoa.current_eq (by simp [restoredPredecessor, abortedRow, hk]) hoa.row ?_
    simp [currentColumns, abortedRow, abortCreated, abortedAccountState, hk]

/-- Any other aborted transition leaves the account of the version before it. -/
theorem Observed.restores_version {accounts : List Account} (hk : t.kind ≠ .accountCreate)
    (ha : abortedAccounts env codec db t at' = .ok accounts) :
    ∃ a', Restores db t value o.receipt.receiptId at' a a' accounts := by
  obtain ⟨before, hb, v, hv, -, hcred, hbind, -, -⟩ := ho.chain.checks.parent hk
  have hproj : projectedSnapshot t .aborted value = some before := by
    simpa [projectedSnapshot, hk] using hb
  have hgen := projectionAccountGeneration_ok ho.chain.load ho.chain.mutation hproj
  simp only [abortedAccounts, hk, if_false, restoredAccounts, hgen, bind_ok, orRefuse_ok,
    updateOne_ok, Except.ok.injEq] at ha
  obtain ⟨_, rfl, w, hw, parent, hparent, j, hj, -, hacc⟩ := ha
  obtain rfl : v = w := Option.some.inj (hv.symm.trans hw)
  have hstate : a.state = .blocked := by
    have := ho.accountState
    simpa [openAccountState, hk] using this
  have hres : restoredPredecessor (abortedRow at' t) = true := by
    simp [restoredPredecessor, abortedRow, hk]
  refine ⟨abortRestored before.generation v j at' a, ⟨rfl, rfl, rfl, rfl⟩, ?_, ?_, before, ?_, j, ?_,
    ⟨rfl, hcred, hbind, rfl⟩, ?_⟩
  · rw [← hacc]
    exact ho.mem_accounts hstate (abortRestored before.generation v j at')
  · rw [← hacc]
    exact length_update
  · simpa [currentSnapshot, hres] using hb
  · have hw' : loadAccountVersion db (abortedRow at' t).accountId before.generation = some v := hw
    simp [currentReceipt, hres, hw', hparent, hj]
  · simp [currentColumns, abortedRow, abortRestored, abortedAccountState, hk]

theorem Observed.restores {accounts : List Account}
    (ha : abortedAccounts env codec db t at' = .ok accounts) :
    ∃ a', Restores db t value o.receipt.receiptId at' a a' accounts := by
  by_cases hk : t.kind = .accountCreate
  · exact ⟨_, ho.restores_created hk ha⟩
  · exact ho.restores_version hk ha

/-- An abort ends what only was prepared. -/
theorem Observed.abort_committedSequence (hst : t.state = .prepared) (prepared : Event) :
    committedSequence env db' (abortedRow at' t) o.receipt.receiptId prepared =
      some prepared.sequence := by
  simp only [committedSequence, abortedRow, ho.uncommitted hst]

variable (hst : t.state = .prepared) {accounts : List Account} {a' : Account}
  (hr : Restores db t value o.receipt.receiptId at' a a' accounts)
include hst hr

theorem Observed.abortMove :
    TransitionMove db (transitionAborted env db t accounts o.receipt.receiptId at')
      (eventRows env db.sequenceHighWater (abortSpecs t o.receipt.receiptId at')) t
      (abortedRow at' t) a a' x (releasedStore at' x) := by
  refine ⟨ho.mem, ho.opened, ⟨ho.chain.account_mem, ho.chain.account_id⟩, ho.holds.store,
    ho.mem_transitions hst (abortedRow at'), hr.mem,
    ho.mem_stores (ho.committed_blocked hst) (fun y hy => (of_decide_eq_true hy).1)
      (releasedStore at'),
    ⟨⟨.aborted, t.configCommittedAt, t.finalizedAt, some at', rfl, fun _ h => h, ?_⟩,
      hr.continues, _, _, _, _, rfl⟩, fun _ _ => rfl, fun _ _ => rfl, fun _ => rfl,
    fun y hy _ => hy, ?_⟩
  · intro code hcode
    simp only [reachableEvent, hst] at hcode
    simp [reachableEvent, abortedRow]
    simp at hcode
    tauto
  · intro e he
    simp only [eventRows, abortSpecs, List.mem_cons, List.not_mem_nil, or_false] at he
    rcases he with rfl | rfl
    · exact Or.inl ⟨rfl, rfl, show (13 : Nat) ≠ 10 by decide⟩
    · exact Or.inr (Or.inl ⟨rfl, congrArg Uuid.bytes ho.holds.store.2.1.symm, rfl⟩)

variable (hs : SchemaOk (transitionAborted env db t accounts o.receipt.receiptId at'))
include hs

theorem Observed.abortFrame :
    Frame db (transitionAborted env db t accounts o.receipt.receiptId at')
      (eventRows env db.sequenceHighWater (abortSpecs t o.receipt.receiptId at')) :=
  (ho.abortMove hst hr).frame ho.accepted.tables hs.tables ⟨rfl, rfl, rfl⟩
    ⟨at', ho.time.monotone, rfl⟩ ⟨rfl, rfl, rfl, rfl, rfl⟩ (List.Subset.refl _) (List.Subset.refl _)
    (fun y hy => ⟨y, hy, Cleanup.Continues.refl y⟩) (by rw [transitionAborted, appendEvents_eq]; rfl)

/-- The two events of an abort. -/
theorem Observed.abortEvents_load :
    loadSingleEntityEvent (transitionAborted env db t accounts o.receipt.receiptId at') 6
        t.transitionId.bytes 13 =
      some ((transitionEvent t 13 6 TransitionState.prepared.eventState .aborted t.transitionSha256
        o.receipt.receiptId at').row env (db.sequenceHighWater + 1)) := by
  refine (ho.abortFrame hst hr hs).singleEvent_new (ho.no_event (by simp [reachableEvent, hst])) ?_
  simp [eventRows, abortSpecs, EventSpec.row, storeEvent, transitionEvent]

theorem Observed.abortEvents {prepared : Event}
    (hp : loadSingleEntityEvent db 6 t.transitionId.bytes 10 = some prepared)
    (hlast : prepared.sequence = db.sequenceHighWater) :
    TransitionEvents env (transitionAborted env db t accounts o.receipt.receiptId at')
      (abortedRow at' t) o.receipt.receiptId := by
  have f := ho.abortFrame hst hr hs
  refine (ho.abortMove hst hr).eventsOk f ho.chain.checks.events fun e previous he _ => ?_
  obtain rfl : prepared = e := Option.some.inj (hp.symm.trans he)
  have hmem : (storeEvent t.storeId 6 t.transitionId 0x0402 0x0401 t.transitionSha256
      o.receipt.receiptId at').row env (db.sequenceHighWater + 2) ∈
        eventRows env db.sequenceHighWater (abortSpecs t o.receipt.receiptId at') :=
    List.mem_cons_of_mem _ List.mem_cons_self
  refine ⟨prepared.sequence, ho.abort_committedSequence hst prepared, at', rfl, ?_⟩
  exact TerminalPair.abort (ho.abortEvents_load hst hr hs) (f.eventBySequence_new hmem) rfl
    (by rw [hlast]; rfl) ⟨rfl, rfl⟩ rfl

theorem Observed.abortOk {prepared : Event}
    (hp : loadSingleEntityEvent db 6 t.transitionId.bytes 10 = some prepared)
    (hlast : prepared.sequence = db.sequenceHighWater) :
    TransitionOk env codec (transitionAborted env db t accounts o.receipt.receiptId at')
      (abortedRow at' t) := by
  have f := ho.abortFrame hst hr hs
  have hm := ho.abortMove hst hr
  refine hm.movedOk f ho.accepted ho.chain (f.currentAccount ho.chain.checks.parent hr.current)
    (f.versionsStay t (abortedRow at' t) rfl rfl ⟨rfl, rfl, rfl, rfl, rfl⟩ ho.chain.checks.versions)
    ?_ ?_ (ho.abortEvents hst hr hs hp hlast)
  · refine f.cleanupsStay t (abortedRow at' t) rfl ⟨rfl, rfl, rfl⟩ (by simp [hst])
      (by simp [abortedRow]) ?_ ho.chain.checks.cleanups
    intro e he
    simp only [eventRows, abortSpecs, List.mem_cons, List.not_mem_nil, or_false] at he
    rcases he with rfl | rfl
    · exact show (6 : Nat) ≠ 7 by decide
    · exact show (4 : Nat) ≠ 7 by decide
  · obtain ⟨hload, hids⟩ := ho.account_loads hs.tables ((hm.accounts _).mpr (Or.inr rfl))
      hm.continues.2.1
    obtain ⟨y, hy⟩ := @Mutates.projectedSnapshot (abortedRow at' t) _ _ _ ho.chain.mutates .aborted
    exact projection_settled (Or.inr rfl) hload hids (f.origin ho.accepted ho.chain.load)
      ho.chain.mutation hy ho.chain.checks.row.prepared_utc

/-- The store of an aborted transition is free again, with the pair it had. -/
theorem Observed.abortStoreOk :
    StoreOk env codec (transitionAborted env db t accounts o.receipt.receiptId at')
      (releasedStore at' x) := by
  have f := ho.abortFrame hst hr hs
  have hm := ho.abortMove hst hr
  have hx' := (hm.stores (releasedStore at' x)).mpr (Or.inr rfl)
  have ht' := (hm.transitions (abortedRow at' t)).mpr (Or.inr rfl)
  refine hm.storeOk f ho.accepted (by simp [releasedStore])
    ⟨ho.time.utc, (hs.tables.stores.checks _ hx').2.1⟩ fun m m' hsaw hblock => ?_
  obtain ⟨⟨-, -, hgen, hsha⟩, rfl⟩ := StoreWalk.block_some.mp hblock
  have hrow := storeEventRow_of (e := (storeEvent t.storeId 6 t.transitionId 0x0402 0x0401
    t.transitionSha256 o.receipt.receiptId at').row env (db.sequenceHighWater + 2)) true
    hs.tables ht' (f.receiptId ho.receiptId) rfl (by decide) (by decide) (by decide) ho.time.utc rfl
    (ho.abortEvents_load hst hr hs) rfl
  have hid : (abortedRow at' t).storeId = (releasedStore at' x).storeId := ho.holds.store.2.1.symm
  rw [hid] at hrow
  have hfilter : (eventRows env db.sequenceHighWater
      (abortSpecs t o.receipt.receiptId at')).filter
        (fun e => decide (e.entityKind = 4 ∧ e.entityId = x.storeId.bytes)) =
      [(storeEvent t.storeId 6 t.transitionId 0x0402 0x0401 t.transitionSha256
        o.receipt.receiptId at').row env (db.sequenceHighWater + 2)] := by
    simp [eventRows, abortSpecs, EventSpec.row, storeEvent, transitionEvent, ho.holds.store.2.1]
  rw [hfilter]
  have hrelease := (StoreWalk.release_some (w := m.blockedBy (abortedRow at' t))
    (t := abortedRow at' t)).mpr ⟨⟨rfl, rfl⟩, at', rfl, rfl⟩
  have hc := ho.uncommitted hst
  rcases ho.holds.pair with ⟨-, hg, hx⟩ | ⟨hp, -⟩
  · refine ⟨_, replay_cons.mpr ⟨_, storeWalkStep_iff.mpr (.release rfl hsaw hrow rfl rfl hrelease),
      rfl⟩, hsaw, rfl, ?_, ?_, rfl⟩
    · simpa [StoreWalk.blockedBy, abortedRow, releasedStore, hc] using hgen.symm.trans hg.symm
    · simpa [StoreWalk.blockedBy, abortedRow, releasedStore, hc] using hsha.symm.trans hx.symm
  · exact absurd (hst.symm.trans hp) (by decide)

/-- An abort right after the preparation keeps acceptance. -/
theorem Observed.aborted_accepted {prepared : Event}
    (hp : loadSingleEntityEvent db 6 t.transitionId.bytes 10 = some prepared)
    (hlast : prepared.sequence = db.sequenceHighWater) :
    Accepted env codec s (transitionAborted env db t accounts o.receipt.receiptId at') := by
  have f := ho.abortFrame hst hr hs
  have hm := ho.abortMove hst hr
  have ht' := (hm.transitions (abortedRow at' t)).mpr (Or.inr rfl)
  have hx' := (hm.stores (releasedStore at' x)).mpr (Or.inr rfl)
  refine hm.accepted f ho.accepted hs rfl ?_ ⟨rfl, rfl, rfl, rfl⟩ ?_ (fun v hv => Or.inl hv)
    (ho.abortStoreOk hst hr hs) (ho.abortOk hst hr hs hp hlast) ?_
  · rw [transitionAborted, appendEvents_eq]
    rfl
  · refine ho.accepted.history.counts.moved (g := abortedRow at') (ho.filter_transition hst) rfl rfl
      ⟨rfl, rfl⟩ ⟨length_update, hr.length⟩ ⟨rfl, ho.accepted.history.counts.attached⟩ ?_ ?_
    · show db.storeVersions.length + _ = _
      simp [Transition.committed, abortedRow, hst]
    · show db.accountVersions.length + _ = _
      simp [Transition.committed, abortedRow, hst]
  · intro e he
    simp only [eventRows, abortSpecs, List.mem_cons, List.not_mem_nil, or_false] at he
    rcases he with rfl | rfl
    · exact transitionRow_of hs.tables ht' (ho.abortOk hst hr hs hp hlast) rfl
        ⟨by decide, by decide⟩ rfl
    · have hid : t.storeId = (releasedStore at' x).storeId := ho.holds.store.2.1.symm
      rw [hid]
      exact storeRow_of hs.tables hx' rfl (show (6 : Nat) < 256 by decide)
        (show 0x0402 < 65536 by decide) (show 0x0401 < 65536 by decide) ho.time.utc

/-- **An abort keeps acceptance exactly when its transition was the last thing to happen.** -/
theorem Observed.aborted_accepted_iff :
    Accepted env codec s (transitionAborted env db t accounts o.receipt.receiptId at') ↔
      PreparedLast db t := by
  obtain ⟨_, -, _, -, prepared, hp, -⟩ := ho.chain.checks.events
  rw [preparedLast_iff hp]
  constructor
  · intro h
    have f := ho.abortFrame hst hr hs
    have ht' := ((ho.abortMove hst hr).transitions (abortedRow at' t)).mpr (Or.inr rfl)
    obtain ⟨_, _, _, _, hc⟩ := h.transitionChain ht'
    obtain ⟨_, -, _, -, e, he, _, -, -, previous, hprev, hterm⟩ := hc.checks.events
    have hsame : loadSingleEntityEvent (transitionAborted env db t accounts o.receipt.receiptId at') 6
        t.transitionId.bytes 10 = loadSingleEntityEvent db 6 t.transitionId.bytes 10 := by
      refine f.singleEvent fun y hy => ?_
      simp only [eventRows, abortSpecs, List.mem_cons, List.not_mem_nil, or_false] at hy
      rcases hy with rfl | rfl
      · exact fun hk => absurd hk.2.2 (show (13 : Nat) ≠ 10 by decide)
      · exact fun hk => absurd hk.1 (show (4 : Nat) ≠ 6 by decide)
    obtain rfl : e = prepared := Option.some.inj (Eq.trans (Eq.symm he) (hsame.trans hp))
    have hprevious : previous = e.sequence := by
      have hnone := ho.uncommitted hst
      simp only [committedSequence, abortedRow, hnone, Option.mem_def, Option.some.injEq] at hprev
      exact hprev.symm
    obtain ⟨_, -, hpair⟩ := hterm
    obtain ⟨y, hy, hseq⟩ := hpair.abort_next
    obtain rfl := Option.some.inj ((ho.abortEvents_load hst hr hs).symm.trans hy)
    have hnext : db.sequenceHighWater + 1 = previous + 1 := hseq
    omega
  · exact ho.aborted_accepted hst hr hs hp

end Abort

end Kirje.Authority
