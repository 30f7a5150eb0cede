import Kirje.Authority.Moving

/-
  File:      Kirje/Authority/Observing.lean
  Subject:   An open transition of an accepted state, and its config commit.

  What an observation finds is collected once (`Observed`): the transition with its
  origin, its account and its store.

  * `Observed.committed_accepted`: **a config commit keeps acceptance.**
-/

namespace Kirje.Authority

open Base

variable {env : Platform} {codec : ManifestCodec} {s : Snapshot} {db db' : Db} {new : List Event}

/-! ## 1. Open transitions of accepted states -/

/-- **An open transition of an accepted state**, with what stands behind it, at the time of a
    call. -/
structure Observed (env : Platform) (codec : ManifestCodec) (s : Snapshot) (db : Db)
    (t : Transition) (o : Origin) (value : AccountMutationManifest) (account : AccountSnapshot)
    (a : Account) (x : Store) (at' : Int) : Prop where
  accepted : Accepted env codec s db
  mem : t ∈ db.transitions
  opened : t.Open
  chain : TransitionChain env codec db t o value account a
  holds : Holds db t a x
  time : TimeOk db at'

theorem Accepted.observed (h : Accepted env codec s db) {t : Transition} (ht : t ∈ db.transitions)
    (hopen : t.Open) {at' : Int} (htime : TimeOk db at') :
    ∃ o value account a x, Observed env codec s db t o value account a x at' := by
  obtain ⟨o, value, account, a, hc⟩ := h.transitionChain ht
  obtain ⟨x, hx⟩ := hc.holds h.tables hopen
  exact ⟨o, value, account, a, x, h, ht, hopen, hc, hx, htime⟩

/-- A row of a table is the row with its key. -/
theorem mem_iff_key {α κ : Type} {key : α → κ} {rows : List α} {r : α} (h : (rows.map key).Nodup)
    (hr : r ∈ rows) (x : α) : x ∈ rows ↔ (x ∈ rows ∧ key x ≠ key r) ∨ x = r := by
  constructor
  · intro hx
    by_cases hk : key x = key r
    · exact Or.inr (eq_of_key_eq h hx hr hk)
    · exact Or.inl ⟨hx, hk⟩
  · rintro (⟨hx, -⟩ | rfl)
    · exact hx
    · exact hr

section Observed

variable {t t' : Transition} {o : Origin} {value : AccountMutationManifest}
  {account : AccountSnapshot} {a a' : Account} {x x' : Store} {at' : Int}
  (ho : Observed env codec s db t o value account a x at')
include ho

theorem Observed.receiptId : transitionReceiptId db t = some o.receipt.receiptId :=
  receiptId_of_origin ho.accepted.tables ho.chain.load

theorem Observed.openAccount : OpenAccount t value o.receipt.receiptId a account :=
  ho.chain.openAccount ho.opened

/-- The row of the transition, its store and its account are the only ones an update finds. -/
theorem Observed.filter_transition {state : TransitionState} (hst : t.state = state) :
    db.transitions.filter (transitionIn t state) = [t] :=
  filter_eq_of_key ho.accepted.tables.transitions.id_unique ho.mem (by simp [transitionIn, hst])
    (fun _ _ hu => (of_decide_eq_true hu).1)

theorem Observed.filter_store {p : Store → Bool} (hp : p x = true)
    (hk : ∀ y, p y = true → y.storeId = t.storeId) : db.stores.filter p = [x] :=
  filter_eq_of_key ho.accepted.tables.stores.id_unique ho.holds.store.1 hp
    (fun y _ hy => (hk y hy).trans ho.holds.store.2.1.symm)

theorem Observed.filter_account {state : AccountState} (hst : a.state = state) :
    (db.accounts.filter fun b => heldAccount t state b) = [a] :=
  filter_eq_of_key ho.accepted.tables.accounts.id_unique ho.chain.account_mem
    (by simp [heldAccount, hst, ho.chain.account_id, ho.holds.account.2])
    (fun _ _ hb => (of_decide_eq_true hb).1.trans ho.chain.account_id.symm)

theorem Observed.mem_transitions {state : TransitionState} (hst : t.state = state)
    (g : Transition → Transition) (u : Transition) :
    u ∈ update (transitionIn t state) g db.transitions ↔
      (u ∈ db.transitions ∧ u.transitionId ≠ t.transitionId) ∨ u = g t :=
  mem_update_key ho.accepted.tables.transitions.id_unique (ho.filter_transition hst)
    (fun _ _ hu => (of_decide_eq_true hu).1) u

theorem Observed.mem_stores {p : Store → Bool} (hp : p x = true)
    (hk : ∀ y, p y = true → y.storeId = t.storeId) (g : Store → Store) (y : Store) :
    y ∈ update p g db.stores ↔ (y ∈ db.stores ∧ y.storeId ≠ x.storeId) ∨ y = g x :=
  mem_update_key ho.accepted.tables.stores.id_unique (ho.filter_store hp hk)
    (fun z _ hz => (hk z hz).trans ho.holds.store.2.1.symm) y

theorem Observed.mem_accounts {state : AccountState} (hst : a.state = state)
    (g : Account → Account) (b : Account) :
    b ∈ update (fun b => decide (heldAccount t state b)) g db.accounts ↔
      (b ∈ db.accounts ∧ b.accountId ≠ a.accountId) ∨ b = g a :=
  mem_update_key ho.accepted.tables.accounts.id_unique (ho.filter_account hst)
    (fun _ _ hb => (of_decide_eq_true hb).1.trans ho.chain.account_id.symm) b

/-- The transition has none of the events its state does not admit. -/
theorem Observed.no_event {code : Nat} (hcode : reachableEvent t code = false) :
    ∀ e ∈ db.events, ¬(e.entityKind = 6 ∧ e.entityId = t.transitionId.bytes ∧
      e.eventCode = code) := by
  rintro e he ⟨hk, hi, rfl⟩
  have := ho.accepted.reachable ho.mem he hk hi
  rw [hcode] at this
  exact absurd this (by decide)

/-- A prepared transition has no version yet. -/
theorem Observed.uncommitted (hst : t.state = .prepared) : t.configCommittedAt = none := by
  have h := ho.chain.checks.row.timestamps
  unfold timestampShape at h
  rw [hst] at h
  simpa using h.1

theorem Observed.prepared_le {prepared : Event}
    (hp : loadSingleEntityEvent db 6 t.transitionId.bytes 10 = some prepared) :
    prepared ∈ db.events ∧ prepared.sequence ≤ db.sequenceHighWater := by
  rw [loadSingleEntityEvent_iff] at hp
  have hmem : prepared ∈ db.events :=
    (List.mem_filter.mp (show prepared ∈ eventsOf db 6 t.transitionId.bytes 10 from
      hp ▸ List.mem_singleton_self prepared)).1
  exact ⟨hmem, (ho.accepted.sequence_le hmem).2⟩

/-- The account of the transition, after an effect that keeps its names. -/
theorem Observed.account_loads (htab' : TablesOk db') (ha' : a' ∈ db'.accounts)
    (hc : a.Continues a') : loadRegisteredAccount db' t.accountId = some a' ∧
      a'.accountId = t.accountId ∧ a'.storeId = t.storeId := by
  have hid : a'.accountId = t.accountId := hc.1.trans ho.chain.account_id
  exact ⟨(loadRegisteredAccount_iff htab').mpr ⟨ha', hid⟩, hid, hc.2.1.trans ho.chain.account_store⟩

/-! ## 2. Config commits -/

end Observed

/-- The row of a committed transition. -/
def committedRow (at' : Int) (t : Transition) : Transition :=
  { t with state := .configCommitted, configCommittedAt := some at' }

/-- The row of the store of a committed transition. -/
def committedStore (t : Transition) (at' : Int) (x : Store) : Store :=
  { x with
    configGeneration := t.nextGeneration
    configSha256 := t.afterConfigSha256
    updatedAt := at' }

section Commit

variable {t : Transition} {o : Origin} {value : AccountMutationManifest}
  {account : AccountSnapshot} {a : Account} {x : Store} {at' : Int}
  (ho : Observed env codec s db t o value account a x at') (hst : t.state = .prepared)
include ho hst

theorem Observed.committed_blocked :
    blockedWith t t.expectedGeneration t.beforeConfigSha256 x = true := by
  rcases ho.holds.pair with ⟨-, hg, hs⟩ | ⟨hc, -⟩
  · simp [blockedWith, ho.holds.store.2.1, ho.holds.store.2.2, hg, hs]
  · exact absurd (hst.symm.trans hc) (by decide)

theorem Observed.commitMove :
    TransitionMove db (configCommitted env db t a x o.receipt.receiptId at')
      (eventRows env db.sequenceHighWater [committedEvent t o.receipt.receiptId at']) t
      (committedRow at' t) a a x (committedStore t at' x) := by
  refine ⟨ho.mem, ho.opened, ⟨ho.chain.account_mem, ho.chain.account_id⟩, ho.holds.store,
    ho.mem_transitions hst (committedRow at'),
    mem_iff_key ho.accepted.tables.accounts.id_unique ho.chain.account_mem,
    ho.mem_stores (ho.committed_blocked hst) (fun y hy => (of_decide_eq_true hy).1)
      (committedStore t at'),
    ⟨⟨.configCommitted, some at', t.finalizedAt, t.resolvedAt, rfl, ?_, ?_⟩,
      Account.Continues.refl a, _, _, _, _, rfl⟩, ?_, ?_, fun _ => rfl, fun y hy _ => hy, ?_⟩
  · simp [ho.uncommitted hst]
  · intro code hcode
    simp only [reachableEvent, hst] at hcode
    simp [reachableEvent, committedRow, hcode]
  · intro i hi
    show ((db.storeVersions ++ [committedStoreVersion t x at']).filter _).length = _
    simp [List.filter_append, committedStoreVersion, Ne.symm hi]
  · intro i hi
    show ((db.accountVersions ++ committedAccountVersions t a at').filter _).length = _
    unfold committedAccountVersions
    split <;> simp [Ne.symm hi]
  · intro e he
    obtain rfl := List.mem_singleton.mp he
    exact Or.inl ⟨rfl, rfl, show (11 : Nat) ≠ 10 by decide⟩

variable (hs : SchemaOk (configCommitted env db t a x o.receipt.receiptId at'))
include hs

theorem Observed.commitFrame :
    Frame db (configCommitted env db t a x o.receipt.receiptId at')
      (eventRows env db.sequenceHighWater [committedEvent t o.receipt.receiptId at']) :=
  (ho.commitMove hst).frame ho.accepted.tables hs.tables ⟨rfl, rfl, rfl⟩
    ⟨at', ho.time.monotone, rfl⟩ ⟨rfl, rfl, rfl, rfl, rfl⟩ (List.subset_append_left _ _)
    (List.subset_append_left _ _) (fun y hy => ⟨y, hy, Cleanup.Continues.refl y⟩) rfl

theorem Observed.commitVersions :
    TransitionVersions (configCommitted env db t a x o.receipt.receiptId at') (committedRow at' t)
      account := by
  have hv := ho.chain.checks.versions
  have hnone := ho.uncommitted hst
  obtain ⟨-, ⟨hgen, hcred, hbind, -⟩, -⟩ := ho.openAccount
  refine ⟨?_, ?_, ?_⟩
  · have h0 := hv.store_versions
    rw [hnone] at h0
    show ((db.storeVersions ++ [committedStoreVersion t x at']).filter fun v =>
      v.committedTransitionId = some t.transitionId).length = 1
    rw [List.filter_append, List.length_append, h0]
    simp [committedStoreVersion]
  · have h0 := hv.account_versions
    rw [hnone] at h0
    show ((db.accountVersions ++ committedAccountVersions t a at').filter fun v =>
      v.committedTransitionId = t.transitionId).length = _
    rw [List.filter_append, List.length_append, h0]
    by_cases hk : t.kind = .accountRemove <;>
      simp [committedAccountVersions, committedRow, hk]
  · intro hk at'' hat
    obtain rfl : at' = at'' := Option.some.inj hat
    have hk' : t.kind ≠ .accountRemove := hk
    refine ⟨⟨a.accountId, a.storeId, a.accountGeneration, a.credentialId, a.bindingSha256,
      t.transitionId, at'⟩, (loadAccountVersionByTransition_iff hs.tables).mpr ⟨?_, rfl⟩,
      ho.chain.account_id, ho.chain.account_store, hgen, hcred, hbind, rfl⟩
    show _ ∈ db.accountVersions ++ committedAccountVersions t a at'
    simp [committedAccountVersions, hk']

theorem Observed.commitEvents :
    TransitionEvents env (configCommitted env db t a x o.receipt.receiptId at') (committedRow at' t)
      o.receipt.receiptId := by
  have f := ho.commitFrame hst hs
  refine (ho.commitMove hst).eventsOk f ho.chain.checks.events fun prepared _ hp _ => ?_
  have hload : loadSingleEntityEvent (configCommitted env db t a x o.receipt.receiptId at') 6
      t.transitionId.bytes 11 =
        some ((committedEvent t o.receipt.receiptId at').row env (db.sequenceHighWater + 1)) :=
    f.singleEvent_new (ho.no_event (by simp [reachableEvent, hst]))
      (by simp [eventRows, EventSpec.row, committedEvent, transitionEvent])
  refine ⟨db.sequenceHighWater + 1, ?_, trivial⟩
  have hle := (ho.prepared_le hp).2
  simp only [committedSequence, committedRow]
  rw [hload]
  have hlt : prepared.sequence < db.sequenceHighWater + 1 := by omega
  simp [Event.Says, EventSpec.row, committedEvent, transitionEvent, hlt, EventSpec.detail]

theorem Observed.commitOk :
    TransitionOk env codec (configCommitted env db t a x o.receipt.receiptId at')
      (committedRow at' t) := by
  have f := ho.commitFrame hst hs
  have hm := ho.commitMove hst
  have hoa := ho.openAccount
  obtain ⟨hstate, hact, hupd, hrem⟩ := hoa.state
  refine hm.movedOk f ho.accepted ho.chain ?_ (ho.commitVersions hst hs) ?_ ?_
    (ho.commitEvents hst hs)
  · refine currentAccount_of hoa.current_eq (by simp [restoredPredecessor, committedRow]) hoa.row ?_
    simp [currentColumns, committedRow, hstate, hact, hupd, hrem]
  · refine f.cleanupsStay t (committedRow at' t) rfl ⟨rfl, rfl, rfl⟩ (by simp [hst])
      (by simp [committedRow]) ?_
      ho.chain.checks.cleanups
    intro e he
    obtain rfl := List.mem_singleton.mp he
    exact show (6 : Nat) ≠ 7 by decide
  · obtain ⟨hload, hids⟩ := ho.account_loads hs.tables ((hm.accounts a).mpr (Or.inr rfl))
      (Account.Continues.refl a)
    have hheld : Holds (configCommitted env db t a x o.receipt.receiptId at') (committedRow at' t) a
        (committedStore t at' x) :=
      ⟨⟨hstate, hact⟩, ⟨(hm.stores _).mpr (Or.inr rfl), ho.holds.store.2⟩, Or.inr ⟨rfl, rfl, rfl⟩⟩
    exact projection_open hs.tables hheld (Or.inr rfl) hload
      hids (f.origin ho.accepted ho.chain.load) ho.chain.mutation hoa.current_eq hoa.row.1
      ho.chain.checks.row.prepared_utc

/-- The store of a committed transition is replayed to the new pair. -/
theorem Observed.commitStoreOk :
    StoreOk env codec (configCommitted env db t a x o.receipt.receiptId at')
      (committedStore t at' x) := by
  have hm := ho.commitMove hst
  have hx' := (hm.stores (committedStore t at' x)).mpr (Or.inr rfl)
  have hstate := ho.holds.store.2.2
  refine hm.storeOk (ho.commitFrame hst hs) ho.accepted ?_
    ⟨ho.time.utc, (hs.tables.stores.checks _ hx').2.1⟩ fun m m' hsaw hblock => ?_
  · simp [committedStore, hstate]
  · obtain ⟨-, rfl⟩ := StoreWalk.block_some.mp hblock
    exact ⟨_, rfl, hsaw, hstate.symm, rfl, rfl, rfl⟩

/-- **A config commit keeps acceptance.** -/
theorem Observed.committed_accepted :
    Accepted env codec s (configCommitted env db t a x o.receipt.receiptId at') := by
  have f := ho.commitFrame hst hs
  have hm := ho.commitMove hst
  have ht' := (hm.transitions (committedRow at' t)).mpr (Or.inr rfl)
  refine hm.accepted f ho.accepted hs rfl ?_ ⟨rfl, rfl, rfl, rfl⟩ ?_ ?_ (ho.commitStoreOk hst hs)
    (ho.commitOk hst hs) ?_
  · rw [configCommitted, appendEvents_eq]
    rfl
  · refine ho.accepted.history.counts.moved (ho.filter_transition hst) rfl rfl ⟨rfl, rfl⟩
      ⟨length_update, rfl⟩ ⟨rfl, ho.accepted.history.counts.attached⟩ ?_ ?_
    · show (db.storeVersions ++ [committedStoreVersion t x at']).length + _ = _
      simp [Transition.committed, hst]
    · show (db.accountVersions ++ committedAccountVersions t a at').length + _ = _
      by_cases hk : t.kind = .accountRemove <;>
        simp [Transition.committed, committedAccountVersions, hst, hk]
  · intro v hv
    rcases List.mem_append.mp (show v ∈ db.storeVersions ++ [committedStoreVersion t x at'] from hv)
      with hv | hv
    · exact Or.inl hv
    · obtain rfl := List.mem_singleton.mp hv
      exact Or.inr ⟨rfl, committedRow at' t, (loadAccountTransition_iff hs.tables).mpr ⟨ht', rfl⟩,
        rfl, rfl, rfl, rfl⟩
  · intro e he
    obtain rfl := List.mem_singleton.mp he
    exact transitionRow_of hs.tables ht' (ho.commitOk hst hs) rfl ⟨by decide, by decide⟩ rfl

end Commit

end Kirje.Authority
