import Kirje.Authority.Challenges

/-
  File:      Kirje/Authority/Enrolling.lean
  Subject:   The use of a grant, and the enrollment of a store.

  A grant used for the first time is valid when its receipt was not verified after the
  time of use, and what it left behind is valid (`Authorizes.grantOk`).
-/

namespace Kirje.Authority

open Base

variable {env : Platform} {codec : ManifestCodec} {s : Snapshot} {db db' : Db} {new : List Event}

/-! ## 1. The use of a grant -/

/-- **A receipt and a challenge stand behind a first use of a grant.** -/
structure Authorizes (db : Db) (r : GrantUseRequest) (receipt : Receipt) (c : Challenge) :
    Prop where
  receipt_mem : receipt ∈ db.receipts
  receipt_id : receipt.receiptId = r.receiptId
  challenge_mem : c ∈ db.challenges
  challenge_id : receipt.challengeId = c.challengeId
  state : c.state = .authorized
  grant_id : r.grantId = c.grantId
  action : r.action = c.action
  target : r.targetKind = c.targetKind ∧ r.targetBytes = c.targetId
  manifest : r.manifestSha256 = c.manifestSha256
  unused : ∀ g ∈ db.grants, g.grantId ≠ r.grantId

theorem Authorizes.uses {r : GrantUseRequest} {receipt : Receipt} {c : Challenge}
    (ha : Authorizes db r receipt c) (at' : Int) :
    ∀ g ∈ db.grants ++ [grantUseRow env r at'], g ∈ db.grants ∨
      ∃ x ∈ db.receipts, x.receiptId = g.receiptId ∧
        ∃ c ∈ db.challenges, c.challengeId = x.challengeId ∧ c.state = .authorized := by
  intro g hg
  rcases List.mem_append.mp hg with hg | hg
  · exact Or.inl hg
  · rw [List.mem_singleton.mp hg]
    exact Or.inr ⟨receipt, ha.receipt_mem, ha.receipt_id, c, ha.challenge_mem,
      ha.challenge_id.symm, ha.state⟩

/-- **A first use leaves a valid grant**, if what it left behind is valid and the receipt is not
    from later. -/
theorem Authorizes.grantOk {r : GrantUseRequest} {receipt : Receipt} {c : Challenge} {at' : Int}
    (ha : Authorizes db r receipt c) (f : Frame db db' new) (hc : db'.challenges = db.challenges)
    (ht : TimeOk db at') (hver : receipt.verifiedAt ≤ at') (hexp : at' ≤ receipt.expiresAt)
    (hleft : GrantLeft env codec db' (grantUseRow env r at') receipt c) :
    GrantOk env codec db' (grantUseRow env r at') := by
  refine ⟨ht.utc, r.valid.1.symm, r.valid.2, rfl, rfl, receipt, ?_, c, ?_, ?_, hleft⟩
  · exact (loadReceiptById_iff f.tables').mpr ⟨f.receipts ha.receipt_mem, ha.receipt_id⟩
  · exact (loadChallenge_iff f.tables').mpr ⟨hc ▸ ha.challenge_mem, ha.challenge_id.symm⟩
  · exact ⟨ha.state, ha.grant_id, ha.action, ha.target, ha.manifest, hver, hexp⟩

/-- The other way round: a valid first use was not before the proof. -/
theorem Authorizes.verified_le {r : GrantUseRequest} {receipt : Receipt} {c : Challenge} {at' : Int}
    (ha : Authorizes db r receipt c) (f : Frame db db' new)
    (hok : GrantOk env codec db' (grantUseRow env r at')) : receipt.verifiedAt ≤ at' := by
  obtain ⟨x, hx, _, _, hs, -⟩ := hok.chain
  rw [Option.mem_def, loadReceiptById_iff f.tables'] at hx
  have hxr : x = receipt := eq_of_key_eq f.tables'.receipts.id_unique hx.1
    (f.receipts ha.receipt_mem) (hx.2.trans ha.receipt_id.symm)
  exact hxr ▸ hs.times.1

/-! ## 2. New events -/

/-- The only event of an entity and code, where there was none before. -/
theorem Frame.singleEvent_new (f : Frame db db' new) {k code : Nat} {id : Bytes} {e : Event}
    (hold : ∀ x ∈ db.events, ¬(x.entityKind = k ∧ x.entityId = id ∧ x.eventCode = code))
    (hnew : (new.filter fun x => x.entityKind = k ∧ x.entityId = id ∧ x.eventCode = code) = [e]) :
    loadSingleEntityEvent db' k id code = some e := by
  have hnil : eventsOf db k id code = [] :=
    List.filter_eq_nil_iff.mpr (by simpa using hold)
  simp only [loadSingleEntityEvent, f.eventsOf_append, hnil, hnew, List.nil_append]

/-- The event of a first use. -/
theorem Frame.useEvent (f : Frame db db' new) (h : Accepted env codec s db) {r : GrantUseRequest}
    {receipt : Receipt} {c : Challenge} (ha : Authorizes db r receipt c) {e : Event}
    (hnew : (new.filter fun x => x.entityKind = 10 ∧ x.entityId = r.grantId.bytes ∧
      x.eventCode = 7) = [e]) : loadSingleEntityEvent db' 10 r.grantId.bytes 7 = some e := by
  refine f.singleEvent_new (fun x hx hk => ?_) hnew
  exact h.no_grantEvent ha.unused x hx ⟨hk.1, hk.2.1⟩

/-- The row of the event of a first use. -/
theorem grantEventOk_of {r : GrantUseRequest} {receiptId : ReceiptId} {at' : Int} {n : Nat}
    (htab : TablesOk db') (hmem : grantUseRow env r at' ∈ db'.grants)
    (hr : r.receiptId = receiptId) :
    EventRowOk env codec db' ((useEvent env r receiptId at').row env n) := by
  show GrantEventOk env db' _
  refine ⟨r.grantId, Uuid.ofBytes?_bytes _, grantUseRow env r at',
    (loadGrantUse_iff htab).mpr ⟨hmem, rfl⟩, ?_⟩
  subst hr
  rfl

/-! ## 3. Enrollment -/

/-- **What stands behind an enrollment.** -/
structure Enrolls (env : Platform) (codec : ManifestCodec) (db : Db) (r : EnrollStoreRequest)
    (receipt : Receipt) (c : Challenge) (m : ActionManifest) (e : StoreEnrollmentContext) :
    Prop where
  authorizes : Authorizes db r.grantUse receipt c
  action : r.grantUse.action = .storeEnroll
  manifest : manifestOf env codec c = some m
  context : storeEnrollmentContext m = some e
  ids : r.storeId = e.storeId ∧ r.locationSha256 = e.locationSha256 ∧
    r.configGeneration = e.configGeneration ∧ r.configSha256 = e.configSha256
  location : env.sha256 r.locationBytes = r.locationSha256
  fresh : ∀ x ∈ db.stores, x.storeId ≠ r.storeId

section Enroll

variable {r : EnrollStoreRequest} {receipt : Receipt} {c : Challenge} {m : ActionManifest}
  {e : StoreEnrollmentContext} {at' : Int}

/-- The two events of an enrollment. -/
def enrollmentSpecs (env : Platform) (r : EnrollStoreRequest) (receiptId : ReceiptId) (at' : Int) :
    List EventSpec :=
  [useEvent env r.grantUse receiptId at', storeEnrolledEvent r.storeId r.grantUse.grantId receiptId
    (grantUseRow env r.grantUse at').useSha256 at']

theorem mem_enrollmentSpecs {receiptId : ReceiptId} {n : Nat} {x : Event}
    (hx : x ∈ eventRows env n (enrollmentSpecs env r receiptId at')) :
    x = (useEvent env r.grantUse receiptId at').row env (n + 1) ∨
      x = (storeEnrolledEvent r.storeId r.grantUse.grantId receiptId
        (grantUseRow env r.grantUse at').useSha256 at').row env (n + 2) := by
  simpa [eventRows, enrollmentSpecs] using hx

theorem Enrolls.frame (he : Enrolls env codec db r receipt c m e) (h : SchemaOk db)
    (ht : TimeOk db at') (hs : SchemaOk (storeEnrolled env db r receipt.receiptId at')) :
    Frame db (storeEnrolled env db r receipt.receiptId at')
      (eventRows env db.sequenceHighWater (enrollmentSpecs env r receipt.receiptId at')) where
  tables := h.tables
  tables' := hs.tables
  clock := ⟨at', ht.monotone, rfl⟩
  grants := List.subset_append_left _ _
  uses := he.authorizes.uses at'
  stores := fun x hx => ⟨x, List.mem_append_left _ hx, Store.Continues.refl x⟩
  storeVersions := List.subset_append_left _ _
  events := by
    rw [storeEnrolled, appendEvents_eq]
    rfl
  fresh_grant := by
    intro x hx hk g hg hid
    rcases mem_enrollmentSpecs hx with rfl | rfl
    · exact he.authorizes.unused g hg (Uuid.eq_of_bytes hid).symm
    · exact absurd (show (4 : Nat) = 10 from hk) (by decide)
  fresh_store := by
    intro x hx hk _ y hy hid
    rcases mem_enrollmentSpecs hx with rfl | rfl
    · exact absurd (show (10 : Nat) = 4 from hk) (by decide)
    · exact he.fresh y hy (Uuid.eq_of_bytes hid).symm

theorem storeEnrolled_counts (h : RegistryCounts db) (receiptId : ReceiptId) :
    RegistryCounts (storeEnrolled env db r receiptId at') := by
  obtain ⟨h1, h2, h3, h4, h5, h6⟩ := h
  refine ⟨?_, h2, h3, ?_, h5, h6⟩
  · show (db.grants ++ [_]).length = (db.stores ++ [_]).length + db.transitions.length +
      (db.cleanups.filter fun x => x.state = .claimed ∨ x.state = .deleted).length
    simp only [List.length_append, List.length_singleton]
    omega
  · show (db.storeVersions ++ [_]).length = (db.stores ++ [_]).length + (committedTransitions db).length
    simp only [List.length_append, List.length_singleton]
    omega

section Parts

variable (he : Enrolls env codec db r receipt c m e) (h : Accepted env codec s db)
  (ht : TimeOk db at') (hs : SchemaOk (storeEnrolled env db r receipt.receiptId at'))
include he h ht hs

omit h ht in
theorem Enrolls.loads :
    loadRegisteredStoreByReceipt (storeEnrolled env db r receipt.receiptId at')
        receipt.receiptId = some (storeRow r receipt.receiptId at') ∧
      loadStoreVersionByReceipt (storeEnrolled env db r receipt.receiptId at')
        receipt.receiptId = some (storeVersionRow r receipt.receiptId at') ∧
      loadGrantUseByReceipt (storeEnrolled env db r receipt.receiptId at')
        receipt.receiptId = some (grantUseRow env r.grantUse at') ∧
      loadRegisteredStoreById (storeEnrolled env db r receipt.receiptId at') r.storeId =
        some (storeRow r receipt.receiptId at') := by
  refine ⟨(loadRegisteredStoreByReceipt_iff hs.tables).mpr ⟨List.mem_append_right db.stores ?_, rfl⟩,
    (loadStoreVersionByReceipt_iff hs.tables).mpr ⟨List.mem_append_right db.storeVersions ?_, rfl⟩,
    (loadGrantUseByReceipt_iff hs.tables).mpr ⟨List.mem_append_right db.grants ?_,
      he.authorizes.receipt_id.symm⟩,
    (loadRegisteredStoreById_iff hs.tables).mpr ⟨List.mem_append_right db.stores ?_, rfl⟩⟩ <;>
  exact List.mem_singleton_self _

omit h hs in
theorem Enrolls.initial : InitialVersion (storeVersionRow r receipt.receiptId at')
    (storeRow r receipt.receiptId at') e receipt.receiptId :=
  ⟨ht.utc, ⟨rfl, he.ids.1⟩, ⟨rfl, he.ids.2.1⟩, he.ids.2.2, ⟨rfl, rfl⟩, rfl⟩

omit h ht in
theorem Enrolls.chainLoads :
    loadReceiptById (storeEnrolled env db r receipt.receiptId at') receipt.receiptId =
        some receipt ∧
      loadChallenge (storeEnrolled env db r receipt.receiptId at') receipt.challengeId = some c :=
  ⟨(loadReceiptById_iff hs.tables).mpr ⟨he.authorizes.receipt_mem, rfl⟩,
    (loadChallenge_iff hs.tables).mpr ⟨he.authorizes.challenge_mem,
      he.authorizes.challenge_id.symm⟩⟩

/-- No event of the new store was in the log. -/
theorem Enrolls.storeEvents : storeEvents (storeEnrolled env db r receipt.receiptId at') r.storeId =
    [(storeEnrolledEvent r.storeId r.grantUse.grantId receipt.receiptId
      (grantUseRow env r.grantUse at').useSha256 at').row env (db.sequenceHighWater + 2)] := by
  have f := he.frame h.schema ht hs
  have hnil : Authority.storeEvents db r.storeId = [] := by
    refine List.filter_eq_nil_iff.mpr fun x hx hk => ?_
    exact h.no_storeEvent he.fresh x hx (of_decide_eq_true hk)
  rw [f.storeEvents_append, hnil]
  simp [eventRows, enrollmentSpecs, EventSpec.row, useEvent, grantUsedEvent, storeEnrolledEvent]

theorem Enrolls.storeOk : StoreOk env codec (storeEnrolled env db r receipt.receiptId at')
    (storeRow r receipt.receiptId at') := by
  obtain ⟨-, hv, hg, -⟩ := he.loads hs
  obtain ⟨hr, hc⟩ := he.chainLoads hs
  refine ⟨⟨ht.utc, ht.utc⟩, ⟨by simp [storeRow], rfl, le_refl _, he.location⟩, receipt, hr,
    ⟨_, hg, rfl⟩, _, hv, ⟨c, hc, m, he.manifest, e, he.context, he.initial ht, fun _ => ?_⟩, ?_⟩
  · exact ⟨rfl, he.ids.2.2.1, he.ids.2.2.2, rfl⟩
  · refine ⟨⟨true, .active, r.configGeneration, r.configSha256, at', none⟩, ?_, rfl, rfl, rfl, rfl,
      rfl⟩
    show List.foldlM _ _ (Authority.storeEvents (storeEnrolled env db r receipt.receiptId at')
      r.storeId) = _
    rw [he.storeEvents h ht hs]
    rfl

theorem Enrolls.grantLeft : GrantLeft env codec (storeEnrolled env db r receipt.receiptId at')
    (grantUseRow env r.grantUse at') receipt c := by
  have f := he.frame h.schema ht hs
  obtain ⟨hx, hv, -, -⟩ := he.loads hs
  refine grantLeft_iff.mpr (Or.inr (Or.inr ⟨he.action, m, he.manifest, e, he.context, _, hx, _, hv,
    ⟨he.ids.1, he.ids.2.1, rfl⟩, he.initial ht, ?_⟩))
  refine ⟨(useEvent env r.grantUse receipt.receiptId at').row env (db.sequenceHighWater + 1), ?_,
    (storeEnrolledEvent r.storeId r.grantUse.grantId receipt.receiptId
      (grantUseRow env r.grantUse at').useSha256 at').row env (db.sequenceHighWater + 2), ?_, rfl, ?_,
    ?_⟩
  · refine f.useEvent h he.authorizes ?_
    simp [eventRows, enrollmentSpecs, EventSpec.row, useEvent, grantUsedEvent, storeEnrolledEvent]
  · refine f.singleEvent_new (fun x hx hk => h.no_storeEvent he.fresh x hx ⟨hk.1, hk.2.1⟩) ?_
    simp [eventRows, enrollmentSpecs, EventSpec.row, useEvent, grantUsedEvent, storeEnrolledEvent,
      storeRow]
  · show _ = (grantUsedEvent _ r.grantUse.receiptId _ _).row env _
    rw [← he.authorizes.receipt_id]
    rfl
  · show _ = (storeEnrolledEvent _ _ r.grantUse.receiptId _ _).row env _
    rw [← he.authorizes.receipt_id]
    rfl

theorem Enrolls.transitionOk : ∀ t ∈ db.transitions,
    TransitionOk env codec (storeEnrolled env db r receipt.receiptId at') t := by
  have f := he.frame h.schema ht hs
  intro t htm
  obtain ⟨o, value, account, a, hc⟩ := h.transitionChain htm
  have hquiet : ∀ k, k ≠ 10 → k ≠ 4 → ∀ x ∈ eventRows env db.sequenceHighWater
      (enrollmentSpecs env r receipt.receiptId at'), x.entityKind ≠ k := by
    intro k h10 h4 x hx hk
    rcases mem_enrollmentSpecs hx with rfl | rfl
    · exact h10 hk.symm
    · exact h4 hk.symm
  refine f.bystanderOk h hc ⟨htm, Or.inl ⟨hc.account_mem, Iff.rfl, fun _ x hx _ =>
    List.mem_append_left _ hx⟩, ?_, ?_, rfl, fun v hv => ?_⟩
  · intro x hx hk
    exact hquiet 6 (by decide) (by decide) x hx hk.1
  · show ((db.storeVersions ++ [storeVersionRow r receipt.receiptId at']).filter _).length = _
    rw [List.filter_append]
    simp [storeVersionRow]
  · refine f.transitionCleanups rfl (fun x hx _ => hx) ?_ hv
    intro x hx hk
    exact absurd hk (hquiet 7 (by decide) (by decide) x hx)

/-- **An enrollment keeps acceptance** exactly when its receipt is not from later. -/
theorem Enrolls.accepted_iff (hexp : at' ≤ receipt.expiresAt) :
    Accepted env codec s (storeEnrolled env db r receipt.receiptId at') ↔
      receipt.verifiedAt ≤ at' := by
  have f := he.frame h.schema ht hs
  have hmem : grantUseRow env r.grantUse at' ∈ db.grants ++ [grantUseRow env r.grantUse at'] := by simp
  constructor
  · intro ha
    exact he.authorizes.verified_le f (ha.history.grants _ hmem)
  · intro hver
    have hq8 : ∀ x ∈ eventRows env db.sequenceHighWater (enrollmentSpecs env r receipt.receiptId at'),
        x.entityKind ≠ 8 := by
      intro x hx
      rcases mem_enrollmentSpecs hx with rfl | rfl
      · exact fun hk => absurd (show (10 : Nat) = 8 from hk) (by decide)
      · exact fun hk => absurd (show (4 : Nat) = 8 from hk) (by decide)
    refine f.accepted h hs rfl ?_ (f.challengesStay h rfl rfl rfl) h.history.nonces
      (storeEnrolled_counts h.history.counts _) ?_ ?_ ?_ (he.transitionOk h ht hs) ?_ (f.lifecyclesStay h rfl hq8)
    · rw [storeEnrolled, appendEvents_eq]
      rfl
    · intro g hg
      rcases List.mem_append.mp (show g ∈ db.grants ++ [_] from hg) with hg | hg
      · exact Or.inl hg
      · rw [List.mem_singleton.mp hg]
        exact Or.inr (he.authorizes.grantOk f rfl ht hver hexp (he.grantLeft h ht hs))
    · intro x hx
      rcases List.mem_append.mp (show x ∈ db.stores ++ [_] from hx) with hx' | hx'
      · refine f.storeStays h hx' hx (fun u hu _ => ⟨hu, ?_⟩) ?_
        · rintro y hy ⟨hk, -⟩
          rcases mem_enrollmentSpecs hy with rfl | rfl
          · exact absurd (show (10 : Nat) = 6 from hk) (by decide)
          · exact absurd (show (4 : Nat) = 6 from hk) (by decide)
        · rintro y hy ⟨hk, hi⟩
          rcases mem_enrollmentSpecs hy with rfl | rfl
          · exact absurd (show (10 : Nat) = 4 from hk) (by decide)
          · exact he.fresh x hx' (Uuid.eq_of_bytes hi).symm
      · rw [List.mem_singleton.mp hx']
        exact he.storeOk h ht hs
    · intro v hv
      rcases List.mem_append.mp (show v ∈ db.storeVersions ++ [_] from hv) with hv | hv
      · exact Or.inl hv
      · rw [List.mem_singleton.mp hv]
        obtain ⟨-, -, hg, hx⟩ := he.loads hs
        obtain ⟨hr, hc⟩ := he.chainLoads hs
        exact Or.inr ⟨_, rfl, receipt, hr, c, hc, m, he.manifest, e, he.context, _, hx, _, hg, rfl,
          he.initial ht⟩
    · intro x hx
      rcases mem_enrollmentSpecs hx with rfl | rfl
      · exact grantEventOk_of hs.tables hmem he.authorizes.receipt_id.symm
      · obtain ⟨-, -, hg, hx⟩ := he.loads hs
        obtain ⟨hr, -⟩ := he.chainLoads hs
        show EnrolledEventOk env _ _
        exact ⟨r.storeId, Uuid.ofBytes?_bytes _, _, hx, receipt, hr, _, hg, rfl⟩

end Parts

end Enroll

end Kirje.Authority
