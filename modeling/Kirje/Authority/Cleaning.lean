import Kirje.Authority.Enrolling

/-
  File:      Kirje/Authority/Cleaning.lean
  Subject:   The claim and the deletion of a credential cleanup.

  Both move one cleanup of a finalized transition and append an event of it
  (`CleanupMove`).
-/

namespace Kirje.Authority

open Base

variable {env : Platform} {codec : ManifestCodec} {s : Snapshot} {db db' : Db} {new : List Event}

/-! ## 1. A cleanup that moves -/

/-- **The effect moves one cleanup** and touches nothing else of the registry but the grants. -/
structure CleanupMove (db db' : Db) (new : List Event) (x x' : Cleanup) : Prop where
  mem : x ∈ db.cleanups
  rows : ∀ y, y ∈ db'.cleanups ↔ (y ∈ db.cleanups ∧ y.cleanupId ≠ x.cleanupId) ∨ y = x'
  same : x'.cleanupId = x.cleanupId ∧ x'.transitionId = x.transitionId
  counts : ∀ i : TransitionId, (db'.cleanups.filter fun y => y.transitionId = some i).length =
    (db.cleanups.filter fun y => y.transitionId = some i).length
  registry : db'.stores = db.stores ∧ db'.storeVersions = db.storeVersions ∧
    db'.accounts = db.accounts ∧ db'.accountVersions = db.accountVersions ∧
    db'.transitions = db.transitions
  events : ∀ e ∈ new, e.entityKind = 10 ∨ (e.entityKind = 7 ∧ e.entityId = x.cleanupId.bytes)

section Move

variable {x x' : Cleanup} (f : Frame db db' new) (h : Accepted env codec s db)
  (hm : CleanupMove db db' new x x')
include f h hm

theorem CleanupMove.storesStay : ∀ y ∈ db'.stores, StoreOk env codec db' y := by
  intro y hy
  have hy' := hy
  rw [hm.registry.1] at hy
  refine f.storeStays h hy hy' (fun u hu _ => ⟨hm.registry.2.2.2.2 ▸ hu, ?_⟩) ?_
  · rintro e he ⟨hk, -⟩
    rcases hm.events e he with hk' | ⟨hk', -⟩ <;> omega
  · rintro e he ⟨hk, -⟩
    rcases hm.events e he with hk' | ⟨hk', -⟩ <;> omega

/-- **The transitions stay valid** if the moved cleanup is valid for its own. -/
theorem CleanupMove.transitionOk
    (hrow : ∀ t ∈ db.transitions, ∀ before d, CleanupRow env db t before d x →
      d.cleanupId = x.cleanupId → CleanupRow env db' t before d x') :
    ∀ t ∈ db'.transitions, TransitionOk env codec db' t := by
  obtain ⟨hst, hsv, hac, hav, htr⟩ := hm.registry
  intro t ht
  rw [htr] at ht
  obtain ⟨o, value, account, a, hc⟩ := h.transitionChain ht
  refine f.bystanderOk h hc ⟨htr ▸ ht, Or.inl ⟨hac ▸ hc.account_mem, ?_, ?_⟩, ?_, by rw [hsv],
    by rw [hav], fun v hv => ⟨(hm.counts _).trans hv.1, fun d hd => ?_⟩⟩
  · simp only [successors, htr]
  · intro _ y hy _
    exact hst ▸ hy
  · rintro e he ⟨hk, -⟩
    rcases hm.events e he with hk' | ⟨hk', -⟩ <;> omega
  · obtain ⟨before, hb, y, hy, hr⟩ := hv.2 d hd
    rw [Option.mem_def, loadCredentialCleanup_iff f.tables] at hy
    by_cases hyx : y.cleanupId = x.cleanupId
    · obtain rfl : y = x := eq_of_key_eq f.tables.cleanups.id_unique hy.1 hm.mem hyx
      refine ⟨before, hb, x', ?_, hrow t ht before d hr hy.2.symm⟩
      exact (loadCredentialCleanup_iff f.tables').mpr
        ⟨(hm.rows x').mpr (Or.inr rfl), hm.same.1.trans hy.2⟩
    · refine ⟨before, hb, y, ?_, f.cleanupRow ?_ hr⟩
      · exact (loadCredentialCleanup_iff f.tables').mpr
          ⟨(hm.rows y).mpr (Or.inl ⟨hy.1, hyx⟩), hy.2⟩
      · rintro e he ⟨hk, hi⟩
        rcases hm.events e he with hk' | ⟨-, hi'⟩
        · omega
        · refine hyx (Uuid.eq_of_bytes ?_)
          rw [hy.2, ← hi, hi']

end Move

/-- The finalized transition of a cleanup that is past its reservation. -/
theorem CleanupRow.finalized {t : Transition} {before : AccountSnapshot} {d : CleanupDescriptor}
    {x : Cleanup} (h : CleanupRow env db t before d x) (hx : x.state ≠ .provisional) :
    t.state = .finalized := h.lifecycle.1.mpr hx

/-! ## 2. The claim -/

/-- **What stands behind a claim.** -/
structure Claims (env : Platform) (codec : ManifestCodec) (db : Db) (r : CleanupClaimRequest)
    (receipt : Receipt) (c : Challenge) (m : ActionManifest) (value : CredentialCleanupManifest)
    (x : Cleanup) : Prop where
  authorizes : Authorizes db r.grantUse receipt c
  action : r.grantUse.action = .credentialCleanup
  target : r.grantUse.targetKind = .cleanup ∧ r.grantUse.targetBytes = r.cleanupId.bytes
  manifest : manifestOf env codec c = some m
  cleanup : cleanupManifest m = some value
  found : db.cleanups.filter (claimable r.cleanupId) = [x]
  names : x.cleanupId = value.cleanupId ∧ (∃ i ∈ value.transitionId, x.transitionId = some i) ∧
    x.locatorKind = value.locatorKind ∧ x.locatorSha256 = value.locatorSha256

/-- The row of a claimed cleanup. -/
def claimedRow (r : CleanupClaimRequest) (x : Cleanup) : Cleanup :=
  { x with state := .claimed, claimGrantId := some r.grantUse.grantId }

/-- The two events of a claim. -/
def claimSpecs (env : Platform) (r : CleanupClaimRequest) (receiptId : ReceiptId) (at' : Int) :
    List EventSpec :=
  [useEvent env r.grantUse receiptId at', cleanupEvent r.cleanupId 16 r.grantUse.grantId receiptId
    0x0702 0x0703 (grantUseRow env r.grantUse at').useSha256 at']

/-- The transition that reserved a cleanup was finalized by a time. -/
def FinalizedBy (db : Db) (x : Cleanup) (at' : Int) : Prop :=
  ∃ t ∈ db.transitions, x.transitionId = some t.transitionId ∧ ∃ f ∈ t.finalizedAt, f ≤ at'

section Claim

variable {r : CleanupClaimRequest} {receipt : Receipt} {c : Challenge} {m : ActionManifest}
  {value : CredentialCleanupManifest} {x : Cleanup} {at' : Int}

theorem mem_claimSpecs {receiptId : ReceiptId} {n : Nat} {e : Event}
    (he : e ∈ eventRows env n (claimSpecs env r receiptId at')) :
    e = (useEvent env r.grantUse receiptId at').row env (n + 1) ∨
      e = (cleanupEvent r.cleanupId 16 r.grantUse.grantId receiptId 0x0702 0x0703
        (grantUseRow env r.grantUse at').useSha256 at').row env (n + 2) := by
  simpa [eventRows, claimSpecs] using he

theorem Claims.row (hc : Claims env codec db r receipt c m value x) : x ∈ db.cleanups ∧
    x.cleanupId = r.cleanupId ∧ x.state = .ready ∧ x.claimGrantId = none ∧ x.deletedAt = none := by
  have hx := List.mem_filter.mp (hc.found ▸ List.mem_singleton_self x)
  exact ⟨hx.1, of_decide_eq_true hx.2⟩

theorem Claims.cleanups (hc : Claims env codec db r receipt c m value x) (htab : TablesOk db)
    (y : Cleanup) : y ∈ (cleanupClaimed env db r receipt.receiptId at').cleanups ↔
      (y ∈ db.cleanups ∧ y.cleanupId ≠ x.cleanupId) ∨ y = claimedRow r x :=
  mem_update_key htab.cleanups.id_unique hc.found
    (fun _ _ hy => (of_decide_eq_true hy).1.trans hc.row.2.1.symm) y

theorem Claims.frame (hc : Claims env codec db r receipt c m value x) (h : SchemaOk db)
    (ht : TimeOk db at') (hs : SchemaOk (cleanupClaimed env db r receipt.receiptId at')) :
    Frame db (cleanupClaimed env db r receipt.receiptId at')
      (eventRows env db.sequenceHighWater (claimSpecs env r receipt.receiptId at')) where
  tables := h.tables
  tables' := hs.tables
  clock := ⟨at', ht.monotone, rfl⟩
  grants := List.subset_append_left _ _
  uses := hc.authorizes.uses at'
  cleanups := by
    obtain ⟨-, -, hst, hcl, -⟩ := hc.row
    intro y hy
    by_cases hyx : y.cleanupId = x.cleanupId
    · rw [eq_of_key_eq h.tables.cleanups.id_unique hy hc.row.1 hyx]
      refine ⟨claimedRow r x, (hc.cleanups h.tables _).mpr (Or.inr rfl), .claimed,
        some r.grantUse.grantId, x.deletedAt, rfl, ?_, ?_, ?_, ?_⟩
      · simp
      · simp [hcl]
      · simp
      · simp [hst]
    · exact ⟨y, (hc.cleanups h.tables _).mpr (Or.inl ⟨hy, hyx⟩), Cleanup.Continues.refl y⟩
  events := by
    rw [cleanupClaimed, appendEvents_eq]
    rfl
  fresh_grant := by
    intro e he hk g hg hid
    rcases mem_claimSpecs he with rfl | rfl
    · exact hc.authorizes.unused g hg (Uuid.eq_of_bytes hid).symm
    · exact absurd (show (7 : Nat) = 10 from hk) (by decide)
  fresh_store := by
    intro e he hk
    rcases mem_claimSpecs he with rfl | rfl
    · exact absurd (show (10 : Nat) = 4 from hk) (by decide)
    · exact absurd (show (7 : Nat) = 4 from hk) (by decide)

theorem Claims.move (hc : Claims env codec db r receipt c m value x) (htab : TablesOk db) :
    CleanupMove db (cleanupClaimed env db r receipt.receiptId at')
      (eventRows env db.sequenceHighWater (claimSpecs env r receipt.receiptId at')) x
      (claimedRow r x) := by
  refine ⟨hc.row.1, hc.cleanups htab, ⟨rfl, rfl⟩, ?_, ⟨rfl, rfl, rfl, rfl, rfl⟩, fun e he => ?_⟩
  · exact fun i => @length_filter_update_same _ (claimable r.cleanupId) (fun y => y.transitionId = some i)
      (claimedRow r) (fun _ _ => rfl) db.cleanups
  · rcases mem_claimSpecs he with rfl | rfl
    · exact Or.inl rfl
    · exact Or.inr ⟨rfl, by rw [hc.row.2.1]; rfl⟩

section Parts

variable (hc : Claims env codec db r receipt c m value x) (h : Accepted env codec s db)
  (ht : TimeOk db at') (hs : SchemaOk (cleanupClaimed env db r receipt.receiptId at'))
include hc h ht hs

omit ht in
theorem Claims.loads :
    loadGrantUse (cleanupClaimed env db r receipt.receiptId at') r.grantUse.grantId =
        some (grantUseRow env r.grantUse at') ∧
      loadCredentialCleanup (cleanupClaimed env db r receipt.receiptId at') r.cleanupId =
        some (claimedRow r x) :=
  ⟨(loadGrantUse_iff hs.tables).mpr
      ⟨List.mem_append_right db.grants (List.mem_singleton_self _), rfl⟩,
    (loadCredentialCleanup_iff hs.tables).mpr
      ⟨(hc.cleanups h.tables _).mpr (Or.inr rfl), hc.row.2.1⟩⟩

/-- A claimed cleanup is valid for a transition finalized by then. -/
theorem Claims.cleanupRow {t : Transition} {before : AccountSnapshot} {d : CleanupDescriptor}
    (hrow : CleanupRow env db t before d x) (hid : d.cleanupId = x.cleanupId)
    (hfin : ∃ f ∈ t.finalizedAt, f ≤ at') :
    CleanupRow env (cleanupClaimed env db r receipt.receiptId at') t before d (claimedRow r x) := by
  have f := hc.frame h.schema ht hs
  obtain ⟨-, hxid, hst, hcl, hdel⟩ := hc.row
  have hready := hrow.finalized (by simp [hst])
  refine ⟨hrow.transition, hrow.provisional, hrow.kind, hrow.sha256, ?_, hrow.digest,
    ⟨⟨fun _ => by simp [claimedRow], fun _ => hready⟩, by simp [cleanupShape, claimedRow, hdel]⟩,
    hrow.created_at, ?_, ?_, ?_, ?_⟩
  · rw [f.realm]
    exact hrow.material
  · intro i hi
    obtain rfl : r.grantUse.grantId = i := Option.some.inj hi
    refine ⟨_, (hc.loads h hs).1, hc.action, hc.target.1, ?_, hfin, ?_⟩
    · show r.grantUse.targetBytes = x.cleanupId.bytes
      rw [hc.target.2, hxid]
    · simp [claimedRow, hdel]
  · rw [f.eventsOf_eq]
    · exact hrow.ready_events
    · rintro e he ⟨hk, -, hcode⟩
      rcases mem_claimSpecs he with rfl | rfl
      · exact absurd (show (10 : Nat) = 7 from hk) (by decide)
      · exact absurd (show (16 : Nat) = 15 from hcode) (by decide)
  · rw [f.eventsOf_append, List.length_append, hrow.claimed_events, hcl, hid, hxid]
    simp [eventRows, claimSpecs, EventSpec.row, useEvent, grantUsedEvent, cleanupEvent, claimedRow]
  · rw [f.eventsOf_eq]
    · exact hrow.deleted_events
    · rintro e he ⟨hk, -, hcode⟩
      rcases mem_claimSpecs he with rfl | rfl
      · exact absurd (show (10 : Nat) = 7 from hk) (by decide)
      · exact absurd (show (16 : Nat) = 17 from hcode) (by decide)

omit ht hs in
theorem Claims.counts : RegistryCounts (cleanupClaimed env db r receipt.receiptId at') := by
  obtain ⟨h1, h2, h3, h4, h5, h6⟩ := h.history.counts
  obtain ⟨-, -, hst, -⟩ := hc.row
  refine ⟨?_, h2, h3, h4, h5, ?_⟩
  · have hcount := length_filter_update (f := claimedRow r) hc.found
      (fun y => decide (y.state = .claimed ∨ y.state = .deleted))
    simp only [claimedRow, hst, reduceCtorEq, or_self, decide_false, Bool.false_eq_true, if_false,
      true_or, decide_true, if_true] at hcount
    show (db.grants ++ [_]).length = db.stores.length + db.transitions.length +
      ((update (claimable r.cleanupId) (claimedRow r) db.cleanups).filter
        fun y => y.state = .claimed ∨ y.state = .deleted).length
    rw [List.length_append, List.length_singleton]
    omega
  · rw [List.filter_eq_nil_iff] at h6 ⊢
    intro y hy
    rcases (hc.cleanups h.tables y).mp hy with ⟨hy, -⟩ | rfl
    · exact h6 y hy
    · exact h6 x hc.row.1

/-- **A claim keeps acceptance** exactly when its receipt is not from later, nor is the end of the
    transition that reserved the cleanup. -/
theorem Claims.accepted_iff (hexp : at' ≤ receipt.expiresAt) :
    Accepted env codec s (cleanupClaimed env db r receipt.receiptId at') ↔
      receipt.verifiedAt ≤ at' ∧ FinalizedBy db x at' := by
  have f := hc.frame h.schema ht hs
  have hmem : grantUseRow env r.grantUse at' ∈ db.grants ++ [grantUseRow env r.grantUse at'] := by simp
  obtain ⟨hgl, hxl⟩ := hc.loads h hs
  constructor
  · intro ha
    refine ⟨hc.authorizes.verified_le f (ha.history.grants _ hmem), ?_⟩
    obtain ⟨t, o, v, account, a, before, d, hch⟩ :=
      ha.cleanupChain ((loadCredentialCleanup_iff hs.tables).mp hxl).1
    obtain ⟨g, hg, -, -, -, hfin, -⟩ := hch.row.claim _ rfl
    have hgg : grantUseRow env r.grantUse at' = g := Option.some.inj (hgl.symm.trans hg)
    subst hgg
    exact ⟨t, hch.transition_mem, hch.row.transition, hfin⟩
  · rintro ⟨hver, t, htm, hxt, hfin⟩
    have hq8 : ∀ e ∈ eventRows env db.sequenceHighWater (claimSpecs env r receipt.receiptId at'),
        e.entityKind ≠ 8 := by
      intro e he
      rcases mem_claimSpecs he with rfl | rfl
      · exact fun hk => absurd (show (10 : Nat) = 8 from hk) (by decide)
      · exact fun hk => absurd (show (7 : Nat) = 8 from hk) (by decide)
    refine f.accepted h hs rfl ?_ (f.challengesStay h rfl rfl rfl) h.history.nonces (hc.counts h) ?_
      ((hc.move h.tables).storesStay f h) (fun v hv => Or.inl hv)
      ((hc.move h.tables).transitionOk f h ?_) ?_ (f.lifecyclesStay h rfl hq8)
    · rw [cleanupClaimed, appendEvents_eq]
      rfl
    · intro g hg
      rcases List.mem_append.mp (show g ∈ db.grants ++ [_] from hg) with hg | hg
      · exact Or.inl hg
      · rw [List.mem_singleton.mp hg]
        refine Or.inr (hc.authorizes.grantOk f rfl ht hver hexp (grantLeft_iff.mpr (Or.inr (Or.inl
          ⟨hc.action, m, hc.manifest, r.cleanupId, ?_, claimedRow r x, hxl, value, hc.cleanup,
            hc.names.1, hc.names.2.1, hc.names.2.2.1, hc.names.2.2.2, rfl, Or.inl rfl⟩))))
        exact Uuid.ofBytes?_eq_some.mpr hc.target.2.symm
    · intro t' ht' before d hrow hid
      have htt : t' = t := eq_of_key_eq h.tables.transitions.id_unique ht' htm
        (Option.some.inj (hrow.transition.symm.trans hxt))
      exact hc.cleanupRow h ht hs hrow hid (htt ▸ hfin)
    · intro e he
      rcases mem_claimSpecs he with rfl | rfl
      · exact grantEventOk_of hs.tables hmem hc.authorizes.receipt_id.symm
      · show CleanupClaimedEventOk env _ _
        refine ⟨r.cleanupId, Uuid.ofBytes?_bytes _, _, hxl, _, rfl, _, hgl, Or.inl rfl, ?_⟩
        rw [hc.authorizes.receipt_id]
        rfl

end Parts

end Claim

/-! ## 3. The deletion -/

/-- **What stands behind a deletion.** -/
structure Deletes (db : Db) (permit : CleanupDeletePermit) (x : Cleanup) (g : GrantUse) : Prop where
  found : db.cleanups.filter (deletable permit) = [x]
  grant : g ∈ db.grants ∧ g.grantId = permit.grantId
  same : g.receiptId = permit.receiptId ∧ g.useSha256 = permit.useSha256

/-- The row of a deleted cleanup. -/
def deletedRow (at' : Int) (x : Cleanup) : Cleanup :=
  { x with state := .deleted, deletedAt := some at' }

/-- The event of a deletion. -/
def deletionSpecs (permit : CleanupDeletePermit) (at' : Int) : List EventSpec :=
  [cleanupEvent permit.cleanupId 17 permit.grantId permit.receiptId 0x0703 0x0704 permit.useSha256
    at']

section Delete

variable {permit : CleanupDeletePermit} {x : Cleanup} {g : GrantUse} {at' : Int}

theorem mem_deletionSpecs {n : Nat} {e : Event}
    (he : e ∈ eventRows env n (deletionSpecs permit at')) :
    e = (cleanupEvent permit.cleanupId 17 permit.grantId permit.receiptId 0x0703 0x0704
      permit.useSha256 at').row env (n + 1) := by
  simpa [eventRows, deletionSpecs] using he

theorem Deletes.row (hd : Deletes db permit x g) : x ∈ db.cleanups ∧
    x.cleanupId = permit.cleanupId ∧ x.state = .claimed ∧ x.claimGrantId = some permit.grantId ∧
    x.deletedAt = none := by
  have hx := List.mem_filter.mp (hd.found ▸ List.mem_singleton_self x)
  exact ⟨hx.1, of_decide_eq_true hx.2⟩

theorem Deletes.cleanups (hd : Deletes db permit x g) (htab : TablesOk db) (y : Cleanup) :
    y ∈ (cleanupDeleted env db permit at').cleanups ↔
      (y ∈ db.cleanups ∧ y.cleanupId ≠ x.cleanupId) ∨ y = deletedRow at' x :=
  mem_update_key htab.cleanups.id_unique hd.found
    (fun _ _ hy => (of_decide_eq_true hy).1.trans hd.row.2.1.symm) y

theorem Deletes.frame (hd : Deletes db permit x g) (h : SchemaOk db) (ht : TimeOk db at')
    (hs : SchemaOk (cleanupDeleted env db permit at')) :
    Frame db (cleanupDeleted env db permit at')
      (eventRows env db.sequenceHighWater (deletionSpecs permit at')) where
  tables := h.tables
  tables' := hs.tables
  clock := ⟨at', ht.monotone, rfl⟩
  cleanups := by
    obtain ⟨-, -, hst, hcl, -⟩ := hd.row
    intro y hy
    by_cases hyx : y.cleanupId = x.cleanupId
    · rw [eq_of_key_eq h.tables.cleanups.id_unique hy hd.row.1 hyx]
      refine ⟨deletedRow at' x, (hd.cleanups h.tables _).mpr (Or.inr rfl), .deleted, x.claimGrantId,
        some at', rfl, ?_, ?_, ?_, ?_⟩
      · simp
      · exact fun _ hi => hi
      · simp
      · simp [hst]
    · exact ⟨y, (hd.cleanups h.tables _).mpr (Or.inl ⟨hy, hyx⟩), Cleanup.Continues.refl y⟩
  events := by
    rw [cleanupDeleted, appendEvents_eq]
    rfl
  fresh_grant := by
    intro e he hk
    rw [mem_deletionSpecs he] at hk
    exact absurd (show (7 : Nat) = 10 from hk) (by decide)
  fresh_store := by
    intro e he hk
    rw [mem_deletionSpecs he] at hk
    exact absurd (show (7 : Nat) = 4 from hk) (by decide)

theorem Deletes.move (hd : Deletes db permit x g) (htab : TablesOk db) :
    CleanupMove db (cleanupDeleted env db permit at')
      (eventRows env db.sequenceHighWater (deletionSpecs permit at')) x (deletedRow at' x) := by
  refine ⟨hd.row.1, hd.cleanups htab, ⟨rfl, rfl⟩, ?_, ⟨rfl, rfl, rfl, rfl, rfl⟩, fun e he => ?_⟩
  · exact fun i => @length_filter_update_same _ (deletable permit) (fun y => y.transitionId = some i)
      (deletedRow at') (fun _ _ => rfl) db.cleanups
  · rw [mem_deletionSpecs he]
    exact Or.inr ⟨rfl, by rw [hd.row.2.1]; rfl⟩

section Parts

variable (hd : Deletes db permit x g) (h : Accepted env codec s db) (ht : TimeOk db at')
  (hs : SchemaOk (cleanupDeleted env db permit at'))
include hd h

theorem Deletes.counts : RegistryCounts (cleanupDeleted env db permit at') := by
  obtain ⟨h1, h2, h3, h4, h5, h6⟩ := h.history.counts
  obtain ⟨-, -, hst, -⟩ := hd.row
  refine ⟨?_, h2, h3, h4, h5, ?_⟩
  · have hcount := length_filter_update (f := deletedRow at') hd.found
      (fun y => decide (y.state = .claimed ∨ y.state = .deleted))
    simp only [deletedRow, hst, reduceCtorEq, true_or, or_true, decide_true, if_true] at hcount
    show db.grants.length = db.stores.length + db.transitions.length +
      ((update (deletable permit) (deletedRow at') db.cleanups).filter
        fun y => y.state = .claimed ∨ y.state = .deleted).length
    omega
  · rw [List.filter_eq_nil_iff] at h6 ⊢
    intro y hy
    rcases (hd.cleanups h.tables y).mp hy with ⟨hy, -⟩ | rfl
    · exact h6 y hy
    · exact h6 x hd.row.1

include ht hs

/-- A deleted cleanup is valid if its claim is not from later. -/
theorem Deletes.cleanupRow {t : Transition} {before : AccountSnapshot} {d : CleanupDescriptor}
    (hrow : CleanupRow env db t before d x) (hid : d.cleanupId = x.cleanupId)
    (hused : g.usedAt ≤ at') :
    CleanupRow env (cleanupDeleted env db permit at') t before d (deletedRow at' x) := by
  have f := hd.frame h.schema ht hs
  obtain ⟨-, hxid, hst, hcl, hdel⟩ := hd.row
  have hready := hrow.finalized (by simp [hst])
  refine ⟨hrow.transition, hrow.provisional, hrow.kind, hrow.sha256, ?_, hrow.digest,
    ⟨⟨fun _ => by simp [deletedRow], fun _ => hready⟩, by simp [cleanupShape, deletedRow, hcl]⟩,
    hrow.created_at, ?_, ?_, ?_, ?_⟩
  · rw [f.realm]
    exact hrow.material
  · intro i hi
    obtain ⟨g', hg', hact, hkind, htarget, hfin, -⟩ := hrow.claim i hi
    refine ⟨g', f.grantUse hg', hact, hkind, htarget, hfin, fun a ha => ?_⟩
    obtain rfl : at' = a := Option.some.inj ha
    rw [Option.mem_def, loadGrantUse_iff h.tables] at hg'
    have hgg : g' = g := eq_of_key_eq h.tables.grants.id_unique hg'.1 hd.grant.1 (by
      rw [hg'.2, hd.grant.2]
      exact Option.some.inj (hi.symm.trans hcl))
    exact hgg ▸ hused
  · rw [f.eventsOf_eq]
    · exact hrow.ready_events
    · rintro e he ⟨-, -, hcode⟩
      rw [mem_deletionSpecs he] at hcode
      exact absurd (show (17 : Nat) = 15 from hcode) (by decide)
  · rw [f.eventsOf_eq]
    · exact hrow.claimed_events
    · rintro e he ⟨-, -, hcode⟩
      rw [mem_deletionSpecs he] at hcode
      exact absurd (show (17 : Nat) = 16 from hcode) (by decide)
  · rw [f.eventsOf_append, List.length_append, hrow.deleted_events, hdel, hid, hxid]
    simp [eventRows, deletionSpecs, EventSpec.row, cleanupEvent, deletedRow]

/-- **A deletion keeps acceptance** exactly when its claim is not from later. -/
theorem Deletes.accepted_iff :
    Accepted env codec s (cleanupDeleted env db permit at') ↔ g.usedAt ≤ at' := by
  have f := hd.frame h.schema ht hs
  have hxm : deletedRow at' x ∈ (cleanupDeleted env db permit at').cleanups :=
    (hd.cleanups h.tables _).mpr (Or.inr rfl)
  have hgl : loadGrantUse (cleanupDeleted env db permit at') permit.grantId = some g :=
    f.grantUse ((loadGrantUse_iff h.tables).mpr hd.grant)
  constructor
  · intro ha
    obtain ⟨t, o, v, account, a, before, d, hch⟩ := ha.cleanupChain hxm
    obtain ⟨g', hg', -, -, -, -, hdel⟩ := hch.row.claim permit.grantId hd.row.2.2.2.1
    have hgg : g' = g := Option.some.inj (hg'.symm.trans hgl)
    exact hgg ▸ hdel at' rfl
  · intro hused
    have hq8 : ∀ e ∈ eventRows env db.sequenceHighWater (deletionSpecs permit at'),
        e.entityKind ≠ 8 := by
      intro e he
      rw [mem_deletionSpecs he]
      exact fun hk => absurd (show (7 : Nat) = 8 from hk) (by decide)
    refine f.accepted h hs rfl ?_ (f.challengesStay h rfl rfl rfl) h.history.nonces (hd.counts h)
      (fun g hg => Or.inl hg) ((hd.move h.tables).storesStay f h) (fun v hv => Or.inl hv)
      ((hd.move h.tables).transitionOk f h fun t _ before d hrow hid =>
        hd.cleanupRow h ht hs hrow hid hused) ?_ (f.lifecyclesStay h rfl hq8)
    · rw [cleanupDeleted, appendEvents_eq]
      rfl
    · intro e he
      rw [mem_deletionSpecs he]
      show CleanupDeletedEventOk env _ _
      refine ⟨permit.cleanupId, Uuid.ofBytes?_bytes _, deletedRow at' x,
        (loadCredentialCleanup_iff hs.tables).mpr ⟨hxm, hd.row.2.1⟩, permit.grantId, hd.row.2.2.2.1, g,
        hgl, at', rfl, rfl, ?_⟩
      rw [hd.same.1, hd.same.2]
      rfl

end Parts

end Delete

end Kirje.Authority
