import Kirje.Authority.Cleaning

/-
  File:      Kirje/Authority/Moving.lean
  Subject:   What the four observations of a transition have in common.

  Each moves one open transition with its account and its store
  (`TransitionMove`).  Every other transition and every other store stays valid; of the
  moved transition the columns that were signed do not change, so what is left to
  check is what the effect wrote (`TransitionMove.movedOk`).
-/

namespace Kirje.Authority

open Base

variable {env : Platform} {codec : ManifestCodec} {s : Snapshot} {db db' : Db} {new : List Event}

/-! ## 1. Moves -/

/-- **The effect moves one open transition, its account and its store.** -/
structure TransitionMove (db db' : Db) (new : List Event) (t t' : Transition) (a a' : Account)
    (x x' : Store) : Prop where
  mem : t ∈ db.transitions
  opened : t.Open
  account : a ∈ db.accounts ∧ a.accountId = t.accountId
  store : x ∈ db.stores ∧ x.storeId = t.storeId ∧ x.state = .blocked
  transitions : ∀ u, u ∈ db'.transitions ↔
    (u ∈ db.transitions ∧ u.transitionId ≠ t.transitionId) ∨ u = t'
  accounts : ∀ b, b ∈ db'.accounts ↔ (b ∈ db.accounts ∧ b.accountId ≠ a.accountId) ∨ b = a'
  stores : ∀ y, y ∈ db'.stores ↔ (y ∈ db.stores ∧ y.storeId ≠ x.storeId) ∨ y = x'
  continues : t.Continues t' ∧ a.Continues a' ∧ x.Continues x'
  storeVersions : ∀ i, i ≠ t.transitionId →
    (db'.storeVersions.filter fun v => v.committedTransitionId = some i).length =
      (db.storeVersions.filter fun v => v.committedTransitionId = some i).length
  accountVersions : ∀ i, i ≠ t.transitionId →
    (db'.accountVersions.filter fun v => v.committedTransitionId = i).length =
      (db.accountVersions.filter fun v => v.committedTransitionId = i).length
  cleanup_counts : ∀ i : TransitionId,
    (db'.cleanups.filter fun y => y.transitionId = some i).length =
      (db.cleanups.filter fun y => y.transitionId = some i).length
  cleanups : ∀ y ∈ db.cleanups, y.transitionId ≠ some t.transitionId → y ∈ db'.cleanups
  events : ∀ e ∈ new, (e.entityKind = 6 ∧ e.entityId = t.transitionId.bytes ∧ e.eventCode ≠ 10) ∨
    (e.entityKind = 4 ∧ e.entityId = x.storeId.bytes ∧ e.eventCode = 9) ∨
    (e.entityKind = 7 ∧ ∃ y ∈ db.cleanups, y.transitionId = some t.transitionId ∧
      e.entityId = y.cleanupId.bytes)

theorem successors_eq_nil {t : Transition} : successors db t = [] ↔ ∀ u ∈ db.transitions,
    u.accountId = t.accountId → u.transitionId ≠ t.transitionId →
      ¬t.nextGeneration.val ≤ u.expectedGeneration.val := by
  rw [successors, List.filter_eq_nil_iff]
  simp

/-- The replay of a store after a transition has blocked it. -/
def StoreWalk.blockedBy (m : StoreWalk) (t : Transition) : StoreWalk :=
  { m with
    state := .blocked
    generation := if t.configCommittedAt.isSome then t.nextGeneration else m.generation
    configSha256 := if t.configCommittedAt.isSome then t.afterConfigSha256 else m.configSha256
    updatedAt := t.configCommittedAt.getD t.preparedAt
    activeTransition := some t.transitionId }

/-- A replay goes on over the events and ends at the row of the store. -/
def StoreEnds (env : Platform) (db : Db) (x : Store) (l : List Event) (m : StoreWalk) : Prop :=
  ∃ w, l.foldlM (storeWalkStep env db x) m = some w ∧ w.sawEnrollment = true ∧
    w.state = x.state ∧ w.generation = x.configGeneration ∧ w.configSha256 = x.configSha256 ∧
    w.updatedAt = x.updatedAt

section Move

variable {t t' : Transition} {a a' : Account} {x x' : Store}

/-- A transition keeps its successors when a transition moves. -/
theorem TransitionMove.successors_nil (hm : TransitionMove db db' new t t' a a' x x')
    (htab : TablesOk db) (u : Transition) : successors db' u = [] ↔ successors db u = [] := by
  obtain ⟨_, _, _, _, ht', -, -⟩ := hm.continues.1
  rw [successors_eq_nil, successors_eq_nil]
  constructor
  · intro hn v hv
    by_cases hvt : v.transitionId = t.transitionId
    · rw [eq_of_key_eq htab.transitions.id_unique hv hm.mem hvt]
      have := hn t' ((hm.transitions t').mpr (Or.inr rfl))
      rw [ht'] at this
      exact this
    · exact hn v ((hm.transitions v).mpr (Or.inl ⟨hv, hvt⟩))
  · intro hn v hv
    rcases (hm.transitions v).mp hv with ⟨hv, -⟩ | rfl
    · exact hn v hv
    · rw [ht']
      exact hn t hm.mem

/-- The successors do not depend on the lifecycle columns. -/
theorem Transition.Continues.successors_eq (hc : t.Continues t') : successors db t' = successors db t := by
  obtain ⟨_, _, _, _, rfl, -, -⟩ := hc
  rfl

/-! ## 2. Bystanders -/

section Bystanders

variable (f : Frame db db' new) (h : Accepted env codec s db)
  (hm : TransitionMove db db' new t t' a a' x x')
include f h hm

theorem TransitionMove.bystanderOk {u : Transition} (hu : u ∈ db.transitions)
    (hne : u.transitionId ≠ t.transitionId) : TransitionOk env codec db' u := by
  obtain ⟨o, value, account, b, hc⟩ := h.transitionChain hu
  have hsucc := hm.successors_nil h.tables u
  refine f.bystanderOk h hc ⟨(hm.transitions u).mpr (Or.inl ⟨hu, hne⟩), ?_, ?_,
    hm.storeVersions _ hne, hm.accountVersions _ hne, fun v hv => ?_⟩
  · by_cases hacc : u.accountId = t.accountId
    · -- the moved transition speaks for the account, so this one has a successor
      obtain ⟨hset, hs⟩ := h.open_speaks hm.mem hu hacc (fun he => hne (he ▸ rfl)) hm.opened
      exact Or.inr ⟨hset, fun hn => hs (hsucc.mp hn)⟩
    · refine Or.inl ⟨(hm.accounts b).mpr (Or.inl ⟨hc.account_mem, ?_⟩), hsucc, fun hns y hy hyid => ?_⟩
      · rw [hc.account_id, hm.account.2]
        exact hacc
      · refine (hm.stores y).mpr (Or.inl ⟨hy, fun hyx => hns ?_⟩)
        -- on the blocked store only the moved transition is not settled
        have hux : u.storeId = x.storeId := hyid.symm.trans hyx
        have hstop := h.not_stopped hm.store.1 (by simp [hm.store.2.2]) hu hux
        cases hst : u.state with
        | prepared => exact absurd (h.open_unique hu hm.mem (hux.trans hm.store.2.1) (Or.inl hst)
            hm.opened) (fun he => hne (he ▸ rfl))
        | configCommitted => exact absurd (h.open_unique hu hm.mem (hux.trans hm.store.2.1)
            (Or.inr hst) hm.opened) (fun he => hne (he ▸ rfl))
        | finalized => exact Or.inl hst
        | aborted => exact Or.inr hst
        | recoveryRequired => exact absurd hst hstop
  · rintro e he ⟨hk, hi⟩
    rcases hm.events e he with ⟨-, hi', -⟩ | ⟨hk', -⟩ | ⟨hk', -⟩
    · exact hne (Uuid.eq_of_bytes (hi.symm.trans hi'))
    · omega
    · omega
  · refine f.transitionCleanups (hm.cleanup_counts _) (fun y hy hyu => hm.cleanups y hy ?_) ?_ hv
    · rw [hyu]
      exact fun he => hne (Option.some.inj he)
    · intro e he hk y hy hyu hi
      rcases hm.events e he with ⟨hk', -⟩ | ⟨hk', -⟩ | ⟨-, z, hz, hzt, hi'⟩
      · omega
      · omega
      · have hyz : y = z := eq_of_key_eq h.tables.cleanups.id_unique hy hz
          (Uuid.eq_of_bytes (hi.symm.trans hi'))
        rw [hyz, hzt] at hyu
        exact hne (Option.some.inj hyu).symm

theorem TransitionMove.storeStays {y : Store} (hy : y ∈ db.stores) (hne : y.storeId ≠ x.storeId) :
    StoreOk env codec db' y := by
  have hnot : ∀ u ∈ db.transitions, u.storeId = y.storeId → u.transitionId ≠ t.transitionId := by
    intro u hu huy he
    rw [eq_of_key_eq h.tables.transitions.id_unique hu hm.mem he] at huy
    exact hne (huy.symm.trans hm.store.2.1.symm)
  refine f.storeStays h hy ((hm.stores y).mpr (Or.inl ⟨hy, hne⟩)) (fun u hu huy =>
    ⟨(hm.transitions u).mpr (Or.inl ⟨hu, hnot u hu huy⟩), ?_⟩) ?_
  · rintro e he ⟨hk, hi⟩
    rcases hm.events e he with ⟨-, hi', -⟩ | ⟨hk', -⟩ | ⟨hk', -⟩
    · exact hnot u hu huy (Uuid.eq_of_bytes (hi.symm.trans hi'))
    · omega
    · omega
  · rintro e he ⟨hk, hi⟩
    rcases hm.events e he with ⟨hk', -⟩ | ⟨-, hi', -⟩ | ⟨hk', -⟩
    · omega
    · exact hne (Uuid.eq_of_bytes (hi.symm.trans hi'))
    · omega

/-! ## 3. The moved transition -/

omit f in
/-- An open transition has no successor. -/
theorem TransitionMove.last {o : Origin} {value : AccountMutationManifest}
    {account : AccountSnapshot} {b : Account}
    (hc : TransitionChain env codec db t o value account b) :
    successors db t = [] ∧ successors db' t' = [] := by
  have hnil : successors db t = [] := by
    by_contra hne
    exact hm.opened.not_settled (hc.checks.account.settled hne)
  refine ⟨hnil, ?_⟩
  rw [hm.continues.1.successors_eq]
  exact (hm.successors_nil h.tables t).mpr hnil

/-- **What is left to check of the moved transition.** -/
theorem TransitionMove.movedOk {o : Origin} {value : AccountMutationManifest}
    {account : AccountSnapshot} (hc : TransitionChain env codec db t o value account a)
    (hcurrent : CurrentAccount db' a' t' value o.receipt.receiptId)
    (hversions : TransitionVersions db' t' account)
    (hcleanups : TransitionCleanups env db' t' value)
    (hprojection : (transitionProjection env codec db' t').isOk)
    (hevents : TransitionEvents env db' t' o.receipt.receiptId) :
    TransitionOk env codec db' t' := by
  have hk := hc.checks
  have hlast := (hm.last h hc).2
  have htimes := (f.tables'.transitions.checks t' ((hm.transitions t').mpr (Or.inr rfl))).2.2.2.1
  have ha' : loadRegisteredAccount db' t.accountId = some a' :=
    (loadRegisteredAccount_iff f.tables').mpr ⟨(hm.accounts a').mpr (Or.inr rfl),
      hm.continues.2.1.1.trans hc.account_id⟩
  have hcont := hm.continues.2.1
  obtain ⟨_, _, _, _, rfl, -, -⟩ := hm.continues.1
  refine ⟨o, f.origin h hc.load, value, hc.mutation, account, hc.mutates.snapshot, a', ha',
    ⟨hk.row.prepared_utc, hk.row.increment, hk.row.config_changes, hk.row.sha256, htimes⟩, ?_, ?_,
    f.transitionCredential hk.credential, hversions, fun hne => f.mutationParent (hk.parent hne),
    hcleanups, hprojection, hevents⟩
  · have hs := hk.signed
    exact ⟨hs.action, hs.target_kind, hs.target_id, hs.transition_id, hs.store_id, hs.account_id,
      hs.expected_generation, hs.before_config, hs.next_generation, hs.after_config⟩
  · refine ⟨hk.account.display_id.trans hcont.2.2.1.symm, fun hne => absurd hlast hne, fun hcr =>
      hcont.2.2.2.trans (hk.account.created_at hcr), fun _ => hcurrent⟩

omit h in
/-- The events of the moved transition: those of its preparation are the same. -/
theorem TransitionMove.eventsOk {receiptId : ReceiptId}
    (hev : TransitionEvents env db t receiptId)
    (hterm : ∀ prepared previous, loadSingleEntityEvent db 6 t.transitionId.bytes 10 =
        some prepared → committedSequence env db t receiptId prepared = some previous →
      ∃ previous', committedSequence env db' t' receiptId prepared = some previous' ∧
        TerminalEvents env db' t' receiptId previous') :
    TransitionEvents env db' t' receiptId := by
  obtain ⟨g, hg, ge, hge, pe, hpe, se, hse, hprep, previous, hprev, -⟩ := hev
  obtain ⟨previous', hprev', hterm'⟩ := hterm pe previous hpe hprev
  have hgm := (loadGrantUse_iff f.tables).mp hg
  obtain ⟨_, _, _, _, rfl, -, -⟩ := hm.continues.1
  refine ⟨g, f.grantUse hg, ge, ?_, pe, ?_, se, f.eventBySequence hse,
    ⟨hprep.grant_next, hprep.store_next, hprep.used_at, hprep.store_is, hprep.prepared_says⟩,
    previous', hprev', hterm'⟩
  · rw [Option.mem_def, f.grantEvent hgm.1 hgm.2]
    exact hge
  · rw [Option.mem_def]
    refine (f.singleEvent ?_).trans hpe
    rintro e he ⟨hk, -, hcode⟩
    rcases hm.events e he with ⟨-, -, hne⟩ | ⟨hk', -⟩ | ⟨hk', -⟩
    · exact hne hcode
    · omega
    · omega

/-! ## 4. The moved store -/

omit h in
/-- The blocking event still reads, and names the moved transition. -/
theorem TransitionMove.blocks {receiptId : ReceiptId} {e prepared : Event}
    (hb : Blocks env db t receiptId e prepared) : Blocks env db' t' receiptId e prepared := by
  obtain ⟨_, _, _, _, rfl, -, -⟩ := hm.continues.1
  refine ⟨?_, hb.is, ?_, hb.next⟩
  · rw [f.storeEvents_append]
    exact List.mem_append_left _ hb.mem
  · refine (f.singleEvent ?_).trans hb.load
    rintro y hy ⟨hk, -, hcode⟩
    rcases hm.events y hy with ⟨-, -, hne⟩ | ⟨hk', -⟩ | ⟨hk', -⟩
    · exact hne hcode
    · omega
    · omega

/-- **The moved store is valid** if its replay goes on from the block to the new row. -/
theorem TransitionMove.storeOk (hst : x'.state ≠ .removed)
    (hupd : Representable x'.updatedAt ∧ x'.createdAt ≤ x'.updatedAt)
    (hrest : ∀ m m' : StoreWalk, m.sawEnrollment = true → m.block t' = some m' →
      StoreEnds env db' x' (new.filter fun e => e.entityKind = 4 ∧ e.entityId = x.storeId.bytes) m') :
    StoreOk env codec db' x' := by
  obtain ⟨v₀, m, receiptId, pre, e, prepared, hl⟩ :=
    h.lastBlock hm.store.1 hm.mem hm.store.2.1.symm hm.opened
  have ht' : t' ∈ db'.transitions := (hm.transitions t').mpr (Or.inr rfl)
  have hsame : t'.transitionId = t.transitionId ∧ t'.storeId = t.storeId ∧
      t'.expectedGeneration = t.expectedGeneration ∧
      t'.beforeConfigSha256 = t.beforeConfigSha256 ∧ t'.preparedAt = t.preparedAt ∧
      t'.grantId = t.grantId := by
    obtain ⟨_, _, _, _, rfl, -, -⟩ := hm.continues.1
    exact ⟨rfl, rfl, rfl, rfl, rfl, rfl⟩
  have hid : x'.storeId = x.storeId := by
    obtain ⟨_, _, _, _, rfl⟩ := hm.continues.2.2
    rfl
  refine f.storeOk h hm.store.1 hm.continues.2.2 hst hupd
    (Or.inr ⟨t', ht', hsame.2.1.trans (hm.store.2.1.symm.trans hid.symm)⟩) fun v hv _ => ?_
  obtain rfl : v₀ = v := Option.some.inj (hl.version.symm.trans hv)
  -- up to the block nothing has changed
  have hpre : pre.foldlM (storeWalkStep env db' x') (storeWalkStart x v₀) = some m := by
    refine replay_carries hid (fun y hy d u hrow => ?_) (Or.inr (by simp [hl.free.1])) hl.fold
    obtain ⟨hum, hus⟩ := storeEventRow_mem h.tables hrow
    have hne : u.transitionId ≠ t.transitionId := fun he => hl.others y hy d u hrow
      (eq_of_key_eq h.tables.transitions.id_unique hum hm.mem he)
    refine f.storeRow ((hm.transitions u).mpr (Or.inl ⟨hum, hne⟩)) (fun hst' => ?_) ?_ hrow
    · exact absurd hst' (h.not_stopped hm.store.1 (by simp [hm.store.2.2]) hum hus)
    · rintro z hz ⟨hk, hi⟩
      rcases hm.events z hz with ⟨-, hi', -⟩ | ⟨hk', -⟩ | ⟨hk', -⟩
      · exact hne (Uuid.eq_of_bytes (hi.symm.trans hi'))
      · omega
      · omega
  have hblock : m.block t' = some (m.blockedBy t') :=
    StoreWalk.block_some.mpr ⟨⟨hl.free.1, hl.free.2, hsame.2.2.1.trans hl.pair.1,
      hsame.2.2.2.1.trans hl.pair.2⟩, rfl⟩
  have hstep : storeWalkStep env db' x' m e = some (m.blockedBy t') := by
    obtain ⟨_, _, _, _, hc⟩ := h.transitionChain hm.mem
    have hb := hm.blocks f hl.blocks
    have hr : transitionReceiptId db' t' = some receiptId := by
      have := f.receiptId hl.receipt
      simp only [transitionReceiptId, hsame.2.2.2.2.2] at this ⊢
      exact this
    have hrow := hb.row f.tables' ht' hr (hsame.2.2.2.2.1 ▸ hc.checks.row.prepared_utc)
    rw [hsame.2.1, ← hm.store.2.1, ← hid] at hrow
    exact storeWalkStep_iff.mpr (.block hb.code hl.saw hrow rfl rfl hblock)
  obtain ⟨w, hw, hends⟩ := hrest m _ hl.saw hblock
  refine ⟨w, ?_, hends⟩
  have hstart : storeWalkStart x' v₀ = storeWalkStart x v₀ := by
    obtain ⟨_, _, _, _, rfl⟩ := hm.continues.2.2
    rfl
  rw [Option.mem_def, hstart, hid, f.storeEvents_append, hl.events, List.append_assoc, replay_append]
  exact ⟨m, hpre, replay_cons.mpr ⟨_, hstep, hw⟩⟩

end Bystanders

/-! ## 5. Frames of moves -/

/-- The frame of a move. -/
theorem TransitionMove.frame (hm : TransitionMove db db' new t t' a a' x x') (htab : TablesOk db)
    (htab' : TablesOk db')
    (htrust : db'.keys = db.keys ∧ db'.epochs = db.epochs ∧ db'.effectRows = db.effectRows)
    (hclock : ∃ at', db.metaRow.lastObservedAt ≤ at' ∧ db'.metaRow = (db.clocked at').metaRow)
    (hauth : db'.challenges = db.challenges ∧ db'.receipts = db.receipts ∧
      db'.nonces = db.nonces ∧ db'.grants = db.grants ∧ db'.credentials = db.credentials)
    (hsv : db.storeVersions ⊆ db'.storeVersions)
    (hav : db.accountVersions ⊆ db'.accountVersions)
    (hcl : ∀ y ∈ db.cleanups, ∃ y' ∈ db'.cleanups, y.Continues y')
    (hev : db'.events = db.events ++ new) : Frame db db' new := by
  obtain ⟨hch, hre, hno, hgr, hcr⟩ := hauth
  refine ⟨htab, htab', htrust, hclock, ?_, ?_, ?_, ?_, ?_, ?_, ?_, ?_, hsv, ?_, hav, ?_, ?_, ?_, hcl,
    hev, ?_, ?_⟩
  · rw [hch]
    exact fun c hc => ⟨c, hc, Challenge.Continues.refl c⟩
  · rw [hch]
    exact fun c hc _ => hc
  · rw [hre]
    exact List.Subset.refl _
  · rw [hre]
    exact fun r hr => Or.inl hr
  · rw [hno]
    exact List.Subset.refl _
  · rw [hgr]
    exact List.Subset.refl _
  · rw [hgr]
    exact fun g hg => Or.inl hg
  · intro y hy
    by_cases hyx : y.storeId = x.storeId
    · rw [eq_of_key_eq htab.stores.id_unique hy hm.store.1 hyx]
      exact ⟨x', (hm.stores x').mpr (Or.inr rfl), hm.continues.2.2⟩
    · exact ⟨y, (hm.stores y).mpr (Or.inl ⟨hy, hyx⟩), Store.Continues.refl y⟩
  · intro b hb
    by_cases hba : b.accountId = a.accountId
    · rw [eq_of_key_eq htab.accounts.id_unique hb hm.account.1 hba]
      exact ⟨a', (hm.accounts a').mpr (Or.inr rfl), hm.continues.2.1⟩
    · exact ⟨b, (hm.accounts b).mpr (Or.inl ⟨hb, hba⟩), Account.Continues.refl b⟩
  · intro u hu
    by_cases hut : u.transitionId = t.transitionId
    · rw [eq_of_key_eq htab.transitions.id_unique hu hm.mem hut]
      exact ⟨t', (hm.transitions t').mpr (Or.inr rfl), hm.continues.1⟩
    · exact ⟨u, (hm.transitions u).mpr (Or.inl ⟨hu, hut⟩), Transition.Continues.refl u⟩
  · intro u hu hset
    refine (hm.transitions u).mpr (Or.inl ⟨hu, fun hut => ?_⟩)
    rw [eq_of_key_eq htab.transitions.id_unique hu hm.mem hut] at hset
    exact hm.opened.not_settled hset
  · rw [hcr]
    exact List.Subset.refl _
  · intro e he hk
    rcases hm.events e he with ⟨hk', -⟩ | ⟨hk', -⟩ | ⟨hk', -⟩ <;> omega
  · intro e he hk hcode
    rcases hm.events e he with ⟨hk', -⟩ | ⟨-, -, hcode'⟩ | ⟨hk', -⟩ <;> omega

end Move

/-! ## 6. What an open transition says of its account -/

/-- The snapshot of an open transition, and its account row. -/
structure OpenAccount (t : Transition) (value : AccountMutationManifest) (receiptId : ReceiptId)
    (a : Account) (current : AccountSnapshot) : Prop where
  current_eq : (if t.kind = .accountRemove then value.before else value.after) = some current
  row : a.accountGeneration = current.generation ∧ a.credentialId = current.credentialId ∧
    a.bindingSha256 = current.bindingSha256 ∧ a.authorizedReceiptId = receiptId
  state : a.state = openAccountState t.kind ∧ a.activeTransitionId = some t.transitionId ∧
    a.updatedAt = t.preparedAt ∧ a.removedAt = none

theorem Transition.Open.restored {t : Transition} (h : t.Open) : restoredPredecessor t = false := by
  rcases h with h | h <;> simp [restoredPredecessor, h]

theorem TransitionChain.openAccount {t : Transition} {o : Origin} {value : AccountMutationManifest}
    {account : AccountSnapshot} {a : Account}
    (hc : TransitionChain env codec db t o value account a) (hopen : t.Open) :
    OpenAccount t value o.receipt.receiptId a account := by
  have hnil : successors db t = [] := by
    by_contra hne
    exact hopen.not_settled (hc.checks.account.settled hne)
  obtain ⟨current, hcur, expected, hexp, hrow, hcols⟩ := hc.checks.account.current hnil
  have hcur' : (if t.kind = .accountRemove then value.before else value.after) = some current := by
    simpa [currentSnapshot, hopen.restored] using hcur
  have hca : current = account := by
    have hs := hc.mutates.snapshot
    unfold accountSnapshotOf at hs
    exact Option.some.inj (hcur'.symm.trans hs)
  have he : o.receipt.receiptId = expected := by
    simpa [currentReceipt, hopen.restored] using hexp
  subst hca he
  refine ⟨hcur', hrow, ?_⟩
  rcases hopen with hst | hst <;>
  · simp only [currentColumns, hst, Option.some.injEq, Prod.mk.injEq] at hcols
    exact ⟨hcols.1.symm, hcols.2.1.symm, hcols.2.2.1.symm, hcols.2.2.2.symm⟩

/-- The row of the account of a transition that restores nothing. -/
theorem currentAccount_of {t : Transition} {value : AccountMutationManifest} {i : ReceiptId}
    {a : Account} {current : AccountSnapshot}
    (hcur : (if t.kind = .accountRemove then value.before else value.after) = some current)
    (hres : restoredPredecessor t = false)
    (hrow : a.accountGeneration = current.generation ∧ a.credentialId = current.credentialId ∧
      a.bindingSha256 = current.bindingSha256 ∧ a.authorizedReceiptId = i)
    (hcols : currentColumns t = some (a.state, a.activeTransitionId, a.updatedAt, a.removedAt)) :
    CurrentAccount db a t value i := by
  refine ⟨current, ?_, i, ?_, hrow, hcols⟩
  · simpa [currentSnapshot, hres] using hcur
  · simp [currentReceipt, hres]

/-! ## 7. Parts the moves share -/

section Shared

variable {t t' : Transition} {a a' : Account} {x x' : Store}

/-- The versions of a transition, when none is added. -/
theorem Frame.versionsStay (f : Frame db db' new) (t t' : Transition)
    (hsv : db'.storeVersions = db.storeVersions) (hav : db'.accountVersions = db.accountVersions)
    (hsame : t'.transitionId = t.transitionId ∧ t'.accountId = t.accountId ∧
      t'.storeId = t.storeId ∧ t'.kind = t.kind ∧ t'.configCommittedAt = t.configCommittedAt)
    {account : AccountSnapshot} (h : TransitionVersions db t account) :
    TransitionVersions db' t' account := by
  obtain ⟨h1, h2, h3, h4, h5⟩ := hsame
  refine ⟨?_, ?_, ?_⟩
  · rw [hsv, h1, h5]
    exact h.store_versions
  · rw [hav, h1, h4, h5]
    exact h.account_versions
  · rw [h1, h2, h3, h4, h5]
    intro hk at' hat
    obtain ⟨v, hv, hrest⟩ := h.account_version hk at' hat
    exact ⟨v, f.accountVersionByTransition hv, hrest⟩

/-- The cleanups of a transition that was not finalized and is not. -/
theorem Frame.cleanupsStay (f : Frame db db' new) (t t' : Transition)
    (hcl : db'.cleanups = db.cleanups)
    (hsame : t'.transitionId = t.transitionId ∧ t'.storeId = t.storeId ∧
      t'.preparedAt = t.preparedAt)
    (hst : t.state ≠ .finalized) (hst' : t'.state ≠ .finalized)
    (hq : ∀ e ∈ new, e.entityKind ≠ 7) {value : AccountMutationManifest}
    (h : TransitionCleanups env db t value) : TransitionCleanups env db' t' value := by
  obtain ⟨h1, h2, h3⟩ := hsame
  refine ⟨by rw [hcl, h1]; exact h.1, fun d hd => ?_⟩
  obtain ⟨before, hb, c, hc, hr⟩ := h.2 d hd
  have hprov : c.state = .provisional := by
    by_contra hne
    exact hst (hr.lifecycle.1.mpr hne)
  have hclaim : c.claimGrantId = none := by
    have := hr.lifecycle.2
    unfold cleanupShape at this
    rw [hprov] at this
    simpa using this.1
  have hev : ∀ code, eventsOf db' 7 d.cleanupId.bytes code = eventsOf db 7 d.cleanupId.bytes code :=
    fun code => f.eventsOf_eq fun e he hk => hq e he hk.1
  refine ⟨before, hb, c, ?_, ?_⟩
  · rw [Option.mem_def, loadCredentialCleanup_iff f.tables] at hc
    exact (loadCredentialCleanup_iff f.tables').mpr ⟨hcl ▸ hc.1, hc.2⟩
  · refine ⟨by rw [h1]; exact hr.transition, hr.provisional, hr.kind, hr.sha256, ?_, hr.digest,
      ⟨⟨fun hf => absurd hf hst', fun hne => absurd hprov hne⟩, hr.lifecycle.2⟩,
      hr.created_at.trans h3.symm, by simp [CleanupClaim, hclaim], ?_, ?_, ?_⟩
    · rw [f.realm, h2]
      exact hr.material
    · rw [hev, if_neg hst']
      simpa [hst] using hr.ready_events
    · rw [hev]
      exact hr.claimed_events
    · rw [hev]
      exact hr.deleted_events

/-- A settled transition shows its projection. -/
theorem projection_settled {o : Origin} {value : AccountMutationManifest} {y : AccountSnapshot}
    (hst : t'.Settled) (ha : loadRegisteredAccount db' t'.accountId = some a')
    (hids : a'.accountId = t'.accountId ∧ a'.storeId = t'.storeId)
    (ho : loadOrigin env codec db' t'.grantId = some o)
    (hv : mutationOf t'.kind o.manifest.payload = some value)
    (hy : projectedSnapshot t' t'.state value = some y) (hutc : Representable t'.preparedAt) :
    (transitionProjection env codec db' t').isOk := by
  rw [isOk_iff]
  have hgen := projectionAccountGeneration_ok ho hv hy
  rcases hst with hst | hst <;>
  · rw [hst] at hgen
    simp [transitionProjection, ha, hids, hgen, hst, orRefuse, projectionForState,
      utcMillis_ok hutc, ensure]

/-- An open transition that holds its account and its store shows its projection. -/
theorem projection_open (htab : TablesOk db') {o : Origin} {value : AccountMutationManifest}
    {y : AccountSnapshot} (hh : Holds db' t' a' x') (hopen : t'.Open)
    (ha : loadRegisteredAccount db' t'.accountId = some a')
    (hids : a'.accountId = t'.accountId ∧ a'.storeId = t'.storeId)
    (ho : loadOrigin env codec db' t'.grantId = some o)
    (hv : mutationOf t'.kind o.manifest.payload = some value)
    (hy : (if t'.kind = .accountRemove then value.before else value.after) = some y)
    (hgen : a'.accountGeneration = y.generation) (hutc : Representable t'.preparedAt) :
    (transitionProjection env codec db' t').isOk := by
  rw [isOk_iff]
  have hx : loadRegisteredStoreById db' t'.storeId = some x' :=
    (loadRegisteredStoreById_iff htab).mpr ⟨hh.store.1, hh.store.2.1⟩
  have hproj : projectedSnapshot t' t'.state value = some y := by
    rcases hopen with hst | hst <;> simpa [projectedSnapshot, hst] using hy
  have hg := projectionAccountGeneration_ok ho hv hproj
  obtain ⟨hst, hact⟩ := hh.account
  rcases hh.pair with ⟨hs, hpair⟩ | ⟨hs, hpair⟩ <;>
  · rw [hs] at hg
    simp [transitionProjection, ha, hids, hg, hs, orRefuse, openProjection, hx, projectionForState,
      utcMillis_ok hutc, ensure, hst, hact, hgen, hh.store.2.2, hpair]

/-- An event of a valid transition is a valid row. -/
theorem transitionRow_of (htab : TablesOk db') (ht : t' ∈ db'.transitions)
    (hok : TransitionOk env codec db' t') {e : Event} {code source prior : Nat}
    {next : TransitionState} {context : Digest} {receiptId : ReceiptId} {at' : Int} {n : Nat}
    (he : e = (transitionEvent t' code source prior next context receiptId at').row env n)
    (hcode : 10 ≤ code ∧ code ≤ 14) (hreach : reachableEvent t' code) :
    EventRowOk env codec db' e := by
  have hrow : TransitionEventOk env db' e := by
    obtain ⟨o, ho, value, -, account, -, a, -, hchecks⟩ := hok
    subst he
    exact ⟨t'.transitionId, Uuid.ofBytes?_bytes _, t', (loadAccountTransition_iff htab).mpr ⟨ht, rfl⟩,
      o.receipt.receiptId, receiptId_of_origin htab ho, hchecks.events, hreach, rfl⟩
  have hk : e.entityKind = 6 ∧ e.eventCode = code := by
    subst he
    exact ⟨rfl, rfl⟩
  unfold EventRowOk
  rw [hk.1, hk.2]
  obtain rfl | rfl | rfl | rfl | rfl : code = 10 ∨ code = 11 ∨ code = 12 ∨ code = 13 ∨ code = 14 := by
    omega
  all_goals exact hrow

/-- An event of a store that a transition moves is a valid row. -/
theorem storeRow_of (htab : TablesOk db') (hx : x' ∈ db'.stores) {e : Event} {source prior next : Nat}
    {transitionId : TransitionId} {context : Digest} {receiptId : ReceiptId} {at' : Int} {n : Nat}
    (he : e = (storeEvent x'.storeId source transitionId prior next context receiptId at').row env n)
    (hs : source < 256) (hp : prior < 65536) (hn : next < 65536) (hat : Representable at') :
    EventRowOk env codec db' e := by
  have his : e.Is env (storeEvent x'.storeId source transitionId prior next context receiptId at') := by
    subst he
    rfl
  have hparse := parse_storeEvent hs hp hn hat his
  have hrow : StoreEventOk env db' e := by
    refine ⟨x'.storeId, ?_, ?_, by rw [hparse]; rfl, ?_⟩
    · subst he
      exact Uuid.ofBytes?_bytes _
    · rw [(loadRegisteredStoreById_iff htab).mpr ⟨hx, rfl⟩]
      rfl
    · subst he
      rfl
  have hk : e.entityKind = 4 ∧ e.eventCode = 9 := by
    subst he
    exact ⟨rfl, rfl⟩
  unfold EventRowOk
  rw [hk.1, hk.2]
  exact hrow

/-- The events of an accepted transition are those its state admits. -/
theorem Accepted.reachable (h : Accepted env codec s db) (ht : t ∈ db.transitions) {e : Event}
    (he : e ∈ db.events) (hk : e.entityKind = 6) (hi : e.entityId = t.transitionId.bytes) :
    reachableEvent t e.eventCode := by
  have hrow := h.eventRow he (by omega)
  have hok : TransitionEventOk env db e := by
    unfold EventRowOk at hrow
    rw [hk] at hrow
    split at hrow <;> first | exact hrow | omega | cases hrow
  obtain ⟨i, hi', u, hu, _, -, -, hreach, -⟩ := hok
  rw [Option.mem_def, loadAccountTransition_iff h.tables] at hu
  have hut : u = t := eq_of_key_eq h.tables.transitions.id_unique hu.1 ht (Uuid.eq_of_bytes (by
    rw [hu.2, Uuid.ofBytes?_eq_some.mp hi', hi]))
  exact hut ▸ hreach

/-! ## 8. Acceptance after a move -/

/-- Whether a transition got past its config commit. -/
def Transition.committed (t : Transition) : Bool :=
  decide (t.state = .configCommitted ∨ t.state = .finalized ∨
    (t.state = .recoveryRequired ∧ t.configCommittedAt.isSome))

/-- The counts of the registry after a transition has moved. -/
theorem RegistryCounts.moved {p : Transition → Bool} {g : Transition → Transition}
    (h : RegistryCounts db) (hp : db.transitions.filter p = [t])
    (htr : db'.transitions = update p g db.transitions) (hk : (g t).kind = t.kind)
    (hsame : db'.grants = db.grants ∧ db'.credentials = db.credentials)
    (hlen : db'.stores.length = db.stores.length ∧ db'.accounts.length = db.accounts.length)
    (hcleanups : (db'.cleanups.filter fun c => c.state = .claimed ∨ c.state = .deleted).length =
        (db.cleanups.filter fun c => c.state = .claimed ∨ c.state = .deleted).length ∧
      (db'.cleanups.filter fun c => c.transitionId = none) = [])
    (hsv : db'.storeVersions.length + (if t.committed then 1 else 0) =
      db.storeVersions.length + (if (g t).committed then 1 else 0))
    (hav : db'.accountVersions.length +
        (if t.committed && decide (t.kind ≠ .accountRemove) then 1 else 0) =
      db.accountVersions.length +
        (if (g t).committed && decide (t.kind ≠ .accountRemove) then 1 else 0)) :
    RegistryCounts db' := by
  obtain ⟨h1, h2, h3, h4, h5, -⟩ := h
  have hcount := length_filter_update (f := g) hp
  rw [← htr] at hcount
  have hlent : db'.transitions.length = db.transitions.length := by rw [htr, length_update]
  refine ⟨?_, ?_, ?_, ?_, ?_, hcleanups.2⟩
  · rw [hsame.1, hlen.1, hlent, hcleanups.1]
    exact h1
  · have := hcount fun u => decide (u.kind = .accountCreate ∨ u.kind = .accountUpdate)
    rw [hk] at this
    rw [hsame.2]
    omega
  · have := hcount fun u => decide (u.kind = .accountCreate)
    rw [hk] at this
    omega
  · have := hcount Transition.committed
    have h4' : db.storeVersions.length = db.stores.length +
      (db.transitions.filter Transition.committed).length := h4
    show db'.storeVersions.length = db'.stores.length +
      (db'.transitions.filter Transition.committed).length
    omega
  · have := hcount fun u => u.committed && decide (u.kind ≠ .accountRemove)
    rw [hk] at this
    have hfilter : ∀ d : Db, ((committedTransitions d).filter fun u => u.kind ≠ .accountRemove) =
        d.transitions.filter fun u => u.committed && decide (u.kind ≠ .accountRemove) := by
      intro d
      simp only [committedTransitions, List.filter_filter, Transition.committed, Bool.and_comm]
    rw [hfilter] at h5 ⊢
    omega

/-- **What is left to prove of a move**: its counts, its versions, its store, its transition and
    its events. -/
theorem TransitionMove.accepted (f : Frame db db' new) (h : Accepted env codec s db)
    (hm : TransitionMove db db' new t t' a a' x x') (hs : SchemaOk db') {specs : List EventSpec}
    (hnew : new = eventRows env db.sequenceHighWater specs)
    (hwater : db'.sequenceHighWater = db.sequenceHighWater + specs.length)
    (hauth : db'.challenges = db.challenges ∧ db'.receipts = db.receipts ∧
      db'.nonces = db.nonces ∧ db'.grants = db.grants)
    (hcounts : RegistryCounts db')
    (hversions : ∀ v ∈ db'.storeVersions, v ∈ db.storeVersions ∨ StoreVersionOk env codec db' v)
    (hstore : StoreOk env codec db' x') (hmoved : TransitionOk env codec db' t')
    (hrows : ∀ e ∈ new, EventRowOk env codec db' e) : Accepted env codec s db' := by
  obtain ⟨hch, hre, hno, hgr⟩ := hauth
  have hq8 : ∀ e ∈ new, e.entityKind ≠ 8 := by
    intro e he
    rcases hm.events e he with ⟨hk, -⟩ | ⟨hk, -⟩ | ⟨hk, -⟩ <;> omega
  refine f.accepted h hs hnew hwater (f.challengesStay h hch hre hno) ?_ hcounts ?_ ?_ hversions ?_
    hrows (f.lifecyclesStay h hch hq8)
  · rw [hre, hno]
    exact h.history.nonces
  · rw [hgr]
    exact fun g hg => Or.inl hg
  · intro y hy
    rcases (hm.stores y).mp hy with ⟨hy, hne⟩ | rfl
    · exact hm.storeStays f h hy hne
    · exact hstore
  · intro u hu
    rcases (hm.transitions u).mp hu with ⟨hu, hne⟩ | rfl
    · exact hm.bystanderOk f h hu hne
    · exact hmoved

end Shared

end Kirje.Authority
