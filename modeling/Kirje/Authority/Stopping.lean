import Kirje.Authority.Observing

/-
  File:      Kirje/Authority/Stopping.lean
  Subject:   A stop of an open transition keeps acceptance.

  The store keeps the pair that stopped it, which the validator reads back: the
  event of the stop is checked against whatever pair the row holds.

  * `Observed.stopped_accepted`: **a stop keeps acceptance.**
-/

namespace Kirje.Authority

open Base

variable {env : Platform} {codec : ManifestCodec} {s : Snapshot} {db db' : Db} {new : List Event}

/-! ## 1. The events before the end -/

/-- The last event before the end is an event of the log. -/
theorem committedSequence_le (h : Accepted env codec s db) {t : Transition} {receiptId : ReceiptId}
    {prepared : Event} {previous : Nat}
    (hp : loadSingleEntityEvent db 6 t.transitionId.bytes 10 = some prepared)
    (hs : committedSequence env db t receiptId prepared = some previous) :
    prepared.sequence ≤ previous ∧ previous ≤ db.sequenceHighWater := by
  have hle : ∀ {code : Nat} {e : Event}, loadSingleEntityEvent db 6 t.transitionId.bytes code = some e →
      e.sequence ≤ db.sequenceHighWater := by
    intro code e he
    rw [loadSingleEntityEvent_iff] at he
    have hmem : e ∈ eventsOf db 6 t.transitionId.bytes code := he ▸ List.mem_singleton_self e
    exact (h.sequence_le (List.mem_filter.mp hmem).1).2
  unfold committedSequence at hs
  split at hs
  · obtain rfl := Option.some.inj hs
    exact ⟨le_refl _, hle hp⟩
  · simp only [Option.bind_eq_bind, Option.bind_eq_some_iff, guard_some, Option.some.injEq] at hs
    obtain ⟨e, he, _, ⟨-, hlt⟩, rfl⟩ := hs
    exact ⟨le_of_lt hlt, hle he⟩

/-- Without a new config commit, the last event before the end is the same. -/
theorem Frame.committedSequence_eq (f : Frame db db' new) (t t' : Transition) {receiptId : ReceiptId}
    (hsame : t'.configCommittedAt = t.configCommittedAt ∧ t'.transitionId = t.transitionId ∧
      ∀ at', committedEvent t' receiptId at' = committedEvent t receiptId at')
    (hq : ∀ e ∈ new, ¬(e.entityKind = 6 ∧ e.entityId = t.transitionId.bytes ∧ e.eventCode = 11))
    (prepared : Event) :
    committedSequence env db' t' receiptId prepared = committedSequence env db t receiptId prepared := by
  obtain ⟨hc, hi, hev⟩ := hsame
  unfold committedSequence
  rw [hc, hi, f.singleEvent hq]
  simp only [hev]

/-- An appended event is found at its sequence. -/
theorem Frame.eventBySequence_new (f : Frame db db' new) {e : Event} (he : e ∈ new) :
    loadEventBySequence db' e.sequence = some e := by
  refine (loadEventBySequence_iff f.tables').mpr ⟨?_, rfl⟩
  rw [f.events]
  exact List.mem_append_right _ he

/-- The pair of events of a stop: the store is stopped first. -/
theorem TerminalPair.stop {t : Transition} {receiptId : ReceiptId} {previous : Nat} {context : Digest}
    {prior : TransitionState} {at' : Int} {e st : Event}
    (he : loadSingleEntityEvent db 6 t.transitionId.bytes 14 = some e)
    (hst : loadEventBySequence db st.sequence = some st) (hnext : e.sequence = st.sequence + 1)
    (hlt : previous < st.sequence)
    (hspells : e.Says env
      (transitionEvent t 14 5 prior.eventState .recoveryRequired context receiptId at'))
    (his : st.Is env (storeEvent t.storeId 5 t.transitionId 0x0402 0x0404 context receiptId at')) :
    TerminalPair env db t receiptId previous 14 5 prior .recoveryRequired 0x0404 context at' := by
  have hsub : e.sequence - 1 = st.sequence := by omega
  refine ⟨e, he, st, ?_, ?_, hspells, his⟩
  · rw [if_pos rfl, hsub]
    exact hst
  · rw [if_neg (by decide)]
    exact ⟨hlt, hnext⟩

/-- A stopped transition that holds its account and its store shows its projection. -/
theorem projection_stopped {t : Transition} {a : Account} {x : Store} {o : Origin}
    {value : AccountMutationManifest} {y : AccountSnapshot} (hst : t.state = .recoveryRequired)
    (ha : loadRegisteredAccount db t.accountId = some a)
    (hids : a.accountId = t.accountId ∧ a.storeId = t.storeId)
    (hheld : a.state = .blocked ∧ a.activeTransitionId = some t.transitionId)
    (hx : loadRegisteredStoreById db t.storeId = some x) (hxs : x.state = .recoveryRequired)
    (ho : loadOrigin env codec db t.grantId = some o)
    (hv : mutationOf t.kind o.manifest.payload = some value)
    (hy : projectedSnapshot t t.state value = some y) (hutc : Representable t.preparedAt) :
    (transitionProjection env codec db t).isOk := by
  rw [isOk_iff]
  have hgen := projectionAccountGeneration_ok ho hv hy
  rw [hst] at hgen
  simp [transitionProjection, ha, hids, hgen, hst, orRefuse, recoveryProjection, hx, hheld, hxs,
    projectionForState, utcMillis_ok hutc, ensure]

/-! ## 2. Stops -/

/-- The row of a stopped transition. -/
def stoppedRow (at' : Int) (t : Transition) : Transition :=
  { t with state := .recoveryRequired, resolvedAt := some at' }

/-- The row of the account of a stopped transition. -/
def stoppedAccount (at' : Int) (a : Account) : Account :=
  { a with state := .blocked, updatedAt := at' }

/-- The row of the store of a stopped transition. -/
def stoppedStore (r : ObservationRequest) (at' : Int) (x : Store) : Store :=
  { x with
    state := .recoveryRequired
    configGeneration := r.actualConfigGeneration
    configSha256 := r.actualConfigSha256
    updatedAt := at' }

/-- The events of a stop. -/
def stopSpecs (env : Platform) (t : Transition) (r : ObservationRequest) (receiptId : ReceiptId)
    (at' : Int) : List EventSpec :=
  [storeEvent t.storeId 5 t.transitionId 0x0402 0x0404 (recoveryContext env t r) receiptId at',
    transitionEvent t 14 5 t.state.eventState .recoveryRequired (recoveryContext env t r) receiptId
      at']

section Stop

variable {t : Transition} {o : Origin} {value : AccountMutationManifest}
  {account : AccountSnapshot} {a : Account} {x : Store} {at' : Int}
  (ho : Observed env codec s db t o value account a x at') (r : ObservationRequest)
include ho

/-- The phase of an open transition is its state. -/
theorem Observed.phase : priorPhase t = t.state := by
  have h := ho.chain.checks.row.timestamps
  unfold timestampShape at h
  unfold priorPhase
  rcases ho.opened with hst | hst <;> rw [hst] at h ⊢ <;> simp at h
  · simp [h.1]
  · simp [h.1]

/-- A stop keeps what a transition has committed. -/
theorem Observed.stopped_committed : (stoppedRow at' t).committed = t.committed := by
  have h := ho.chain.checks.row.timestamps
  unfold timestampShape at h
  rcases ho.opened with hst | hst <;> rw [hst] at h <;> simp at h
  · simp [Transition.committed, stoppedRow, hst, h.1]
  · simp [Transition.committed, stoppedRow, hst, h.1]

theorem Observed.accountState : a.state = openAccountState t.kind := ho.openAccount.state.1

theorem Observed.stopMove :
    TransitionMove db (transitionStopped env db t r o.receipt.receiptId at')
      (eventRows env db.sequenceHighWater (stopSpecs env t r o.receipt.receiptId at')) t
      (stoppedRow at' t) a (stoppedAccount at' a) x (stoppedStore r at' x) := by
  refine ⟨ho.mem, ho.opened, ⟨ho.chain.account_mem, ho.chain.account_id⟩, ho.holds.store,
    ho.mem_transitions rfl (stoppedRow at'), ho.mem_accounts ho.accountState (stoppedAccount at'),
    ho.mem_stores (p := blockedStore t) (by simp [blockedStore, ho.holds.store])
      (fun y hy => (of_decide_eq_true hy).1) (stoppedStore r at'),
    ⟨⟨.recoveryRequired, t.configCommittedAt, t.finalizedAt, some at', rfl, fun _ h => h, ?_⟩,
      ⟨rfl, rfl, rfl, rfl⟩, _, _, _, _, rfl⟩, fun _ _ => rfl, fun _ _ => rfl, fun _ => rfl,
    fun y hy _ => hy, ?_⟩
  · intro code hcode
    have hphase := ho.chain.checks.row.timestamps
    unfold timestampShape at hphase
    rcases ho.opened with hst | hst <;> simp only [hst] at hphase <;>
      simp only [reachableEvent, hst] at hcode <;> simp [reachableEvent, stoppedRow] <;>
        simp at hcode hphase <;> tauto
  · intro e he
    simp only [eventRows, stopSpecs, List.mem_cons, List.not_mem_nil, or_false] at he
    rcases he with rfl | rfl
    · exact Or.inr (Or.inl ⟨rfl, congrArg Uuid.bytes ho.holds.store.2.1.symm, rfl⟩)
    · exact Or.inl ⟨rfl, rfl, show (14 : Nat) ≠ 10 by decide⟩

variable (hs : SchemaOk (transitionStopped env db t r o.receipt.receiptId at'))
include hs

theorem Observed.stopFrame :
    Frame db (transitionStopped env db t r o.receipt.receiptId at')
      (eventRows env db.sequenceHighWater (stopSpecs env t r o.receipt.receiptId at')) := by
  refine (ho.stopMove r).frame ho.accepted.tables hs.tables ⟨rfl, rfl, rfl⟩
    ⟨at', ho.time.monotone, rfl⟩ ⟨rfl, rfl, rfl, rfl, rfl⟩ (List.Subset.refl _) (List.Subset.refl _)
    (fun y hy => ⟨y, hy, Cleanup.Continues.refl y⟩) ?_
  rw [transitionStopped, appendEvents_eq]
  rfl

/-- The two events of a stop. -/
theorem Observed.stopEvents_mem :
    (storeEvent t.storeId 5 t.transitionId 0x0402 0x0404 (recoveryContext env t r) o.receipt.receiptId
        at').row env (db.sequenceHighWater + 1) ∈
      eventRows env db.sequenceHighWater (stopSpecs env t r o.receipt.receiptId at') ∧
    loadSingleEntityEvent (transitionStopped env db t r o.receipt.receiptId at') 6
        t.transitionId.bytes 14 =
      some ((transitionEvent t 14 5 t.state.eventState .recoveryRequired (recoveryContext env t r)
        o.receipt.receiptId at').row env (db.sequenceHighWater + 2)) := by
  refine ⟨List.mem_cons_self, (ho.stopFrame r hs).singleEvent_new (ho.no_event ?_) ?_⟩
  · rcases ho.opened with hst | hst <;> simp [reachableEvent, hst]
  · simp [eventRows, stopSpecs, EventSpec.row, storeEvent, transitionEvent]

/-- The store of a stopped transition, loaded. -/
theorem Observed.stopStore_loads :
    loadRegisteredStoreById (transitionStopped env db t r o.receipt.receiptId at') t.storeId =
      some (stoppedStore r at' x) :=
  (loadRegisteredStoreById_iff hs.tables).mpr
    ⟨((ho.stopMove r).stores _).mpr (Or.inr rfl), ho.holds.store.2.1⟩

theorem Observed.stopEvents :
    TransitionEvents env (transitionStopped env db t r o.receipt.receiptId at') (stoppedRow at' t)
      o.receipt.receiptId := by
  have f := ho.stopFrame r hs
  obtain ⟨hmem, hload⟩ := ho.stopEvents_mem r hs
  refine (ho.stopMove r).eventsOk f ho.chain.checks.events fun prepared previous hp hprev => ?_
  have hle := (committedSequence_le ho.accepted hp hprev).2
  refine ⟨previous, ?_, ?_⟩
  · rw [f.committedSequence_eq t (stoppedRow at' t) ⟨rfl, rfl, fun _ => rfl⟩, hprev]
    intro e he
    simp only [eventRows, stopSpecs, List.mem_cons, List.not_mem_nil, or_false] at he
    rcases he with rfl | rfl
    · exact fun h => absurd h.1 (show (4 : Nat) ≠ 6 by decide)
    · exact fun h => absurd h.2.2 (show (14 : Nat) ≠ 11 by decide)
  · have hcontext : accountRecoveryDigest env (stoppedRow at' t) (priorPhase (stoppedRow at' t))
        (stoppedStore r at' x).configGeneration (stoppedStore r at' x).configSha256 =
          recoveryContext env t r := by
      have hphase : priorPhase (stoppedRow at' t) = t.state := ho.phase
      rw [hphase]
      rfl
    refine ⟨at', rfl, stoppedStore r at' x, ho.stopStore_loads r hs, ?_⟩
    rw [hcontext]
    have hphase : priorPhase (stoppedRow at' t) = t.state := ho.phase
    rw [hphase]
    exact TerminalPair.stop hload (f.eventBySequence_new hmem) rfl
      (by simp only [EventSpec.row]; omega) ⟨rfl, rfl⟩ rfl

theorem Observed.stopOk :
    TransitionOk env codec (transitionStopped env db t r o.receipt.receiptId at')
      (stoppedRow at' t) := by
  have f := ho.stopFrame r hs
  have hm := ho.stopMove r
  have hoa := ho.openAccount
  obtain ⟨-, hact, -, hrem⟩ := hoa.state
  refine hm.movedOk f ho.accepted ho.chain ?_
    (f.versionsStay t (stoppedRow at' t) rfl rfl ⟨rfl, rfl, rfl, rfl, rfl⟩ ho.chain.checks.versions)
    ?_ ?_ (ho.stopEvents r hs)
  · refine currentAccount_of hoa.current_eq (by simp [restoredPredecessor, stoppedRow]) hoa.row ?_
    simp [currentColumns, stoppedRow, stoppedAccount, hact, hrem]
  · refine f.cleanupsStay t (stoppedRow at' t) rfl ⟨rfl, rfl, rfl⟩ ?_ (by simp [stoppedRow]) ?_
      ho.chain.checks.cleanups
    · rcases ho.opened with hst | hst <;> simp [hst]
    · intro e he
      simp only [eventRows, stopSpecs, List.mem_cons, List.not_mem_nil, or_false] at he
      rcases he with rfl | rfl
      · exact show (4 : Nat) ≠ 7 by decide
      · exact show (6 : Nat) ≠ 7 by decide
  · obtain ⟨hload, hids⟩ := ho.account_loads hs.tables ((hm.accounts _).mpr (Or.inr rfl))
      hm.continues.2.1
    obtain ⟨y, hy⟩ := @Mutates.projectedSnapshot (stoppedRow at' t) _ _ _ ho.chain.mutates
      .recoveryRequired
    exact projection_stopped rfl hload hids ⟨rfl, hact⟩ (ho.stopStore_loads r hs) rfl
      (f.origin ho.accepted ho.chain.load) ho.chain.mutation hy ho.chain.checks.row.prepared_utc

/-- The store of a stopped transition is replayed to the pair that stopped it. -/
theorem Observed.stopStoreOk :
    StoreOk env codec (transitionStopped env db t r o.receipt.receiptId at') (stoppedStore r at' x) := by
  have f := ho.stopFrame r hs
  have hm := ho.stopMove r
  have hx' := (hm.stores (stoppedStore r at' x)).mpr (Or.inr rfl)
  have ht' := (hm.transitions (stoppedRow at' t)).mpr (Or.inr rfl)
  obtain ⟨-, hload⟩ := ho.stopEvents_mem r hs
  refine hm.storeOk f ho.accepted (by simp [stoppedStore])
    ⟨ho.time.utc, (hs.tables.stores.checks _ hx').2.1⟩ fun m m' hsaw hblock => ?_
  obtain ⟨-, rfl⟩ := StoreWalk.block_some.mp hblock
  have hphase : priorPhase (stoppedRow at' t) = t.state := ho.phase
  have hexp : expectedStoreEvent env (transitionStopped env db t r o.receipt.receiptId at')
      (stoppedRow at' t) o.receipt.receiptId 0x0402 0x0404 =
        some (storeEvent t.storeId 5 t.transitionId 0x0402 0x0404 (recoveryContext env t r)
          o.receipt.receiptId at', 14, false) := by
    have hstore : loadRegisteredStoreById (transitionStopped env db t r o.receipt.receiptId at')
        (stoppedRow at' t).storeId = some (stoppedStore r at' x) := ho.stopStore_loads r hs
    simp only [expectedStoreEvent, hstore, hphase]
    rfl
  have hrow := storeEventRow_of (e := (storeEvent t.storeId 5 t.transitionId 0x0402 0x0404
    (recoveryContext env t r) o.receipt.receiptId at').row env (db.sequenceHighWater + 1)) false
    hs.tables ht' (f.receiptId ho.receiptId) hexp (by decide) (by decide) (by decide) ho.time.utc rfl
    hload rfl
  have hid : (stoppedRow at' t).storeId = (stoppedStore r at' x).storeId := ho.holds.store.2.1.symm
  rw [hid] at hrow
  have hfilter : (eventRows env db.sequenceHighWater
      (stopSpecs env t r o.receipt.receiptId at')).filter
        (fun e => decide (e.entityKind = 4 ∧ e.entityId = x.storeId.bytes)) =
      [(storeEvent t.storeId 5 t.transitionId 0x0402 0x0404 (recoveryContext env t r)
        o.receipt.receiptId at').row env (db.sequenceHighWater + 1)] := by
    simp [eventRows, stopSpecs, EventSpec.row, storeEvent, transitionEvent, ho.holds.store.2.1]
  rw [hfilter]
  have hstop := (StoreWalk.stop_some (w := m.blockedBy (stoppedRow at' t)) (x := stoppedStore r at' x)
    (t := stoppedRow at' t)).mpr ⟨⟨rfl, rfl, rfl⟩, at', rfl, rfl⟩
  refine ⟨_, replay_cons.mpr ⟨_, storeWalkStep_iff.mpr (.stop rfl ?_ hrow rfl rfl hstop), rfl⟩,
    ?_, rfl, rfl, rfl, rfl⟩
  · exact hsaw
  · exact hsaw

/-- **A stop keeps acceptance.** -/
theorem Observed.stopped_accepted :
    Accepted env codec s (transitionStopped env db t r o.receipt.receiptId at') := by
  have f := ho.stopFrame r hs
  have hm := ho.stopMove r
  have ht' := (hm.transitions (stoppedRow at' t)).mpr (Or.inr rfl)
  have hx' := (hm.stores (stoppedStore r at' x)).mpr (Or.inr rfl)
  refine hm.accepted f ho.accepted hs rfl ?_ ⟨rfl, rfl, rfl, rfl⟩ ?_ (fun v hv => Or.inl hv)
    (ho.stopStoreOk r hs) (ho.stopOk r hs) ?_
  · rw [transitionStopped, appendEvents_eq]
    rfl
  · refine ho.accepted.history.counts.moved (g := stoppedRow at') (ho.filter_transition rfl) rfl rfl
      ⟨rfl, rfl⟩ ⟨length_update, length_update⟩ ⟨rfl, ho.accepted.history.counts.attached⟩ ?_ ?_
    · show db.storeVersions.length + _ = _
      rw [ho.stopped_committed]
    · show db.accountVersions.length + _ = _
      rw [ho.stopped_committed]
  · intro e he
    simp only [eventRows, stopSpecs, List.mem_cons, List.not_mem_nil, or_false] at he
    rcases he with rfl | rfl
    · have hid : t.storeId = (stoppedStore r at' x).storeId := ho.holds.store.2.1.symm
      rw [hid]
      exact storeRow_of hs.tables hx' rfl (show (5 : Nat) < 256 by decide)
        (show 0x0402 < 65536 by decide) (show 0x0404 < 65536 by decide) ho.time.utc
    · exact transitionRow_of hs.tables ht' (ho.stopOk r hs) rfl ⟨by decide, by decide⟩ rfl

end Stop

end Kirje.Authority
