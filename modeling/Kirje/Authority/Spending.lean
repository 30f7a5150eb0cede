import Kirje.Authority.Refining
import Kirje.Authority.Signed

/-
  File:      Kirje/Authority/Spending.lean
  Subject:   What the owner signs is used once, over every run.

  A manifest may be challenged and authorized any number of times, so nothing in the
  log of grants makes it unique.  It is what a use leaves behind that does: a store, a
  transition or a claim under the identifier the manifest names, which no later use may
  name again.

  * `Run.trust`: one anchor for a whole run.
  * `Redeemed`: the signature behind a used grant, and the row its use left.
  * `signed_once`: **in every state of every run each used grant is redeemed**, two of them
    never for one manifest, and a grant that was used changes nothing any more.
-/

namespace Kirje.Authority

open Base

variable {env : Platform} {codec : ManifestCodec} {s s' : Snapshot} {start db db' : Db}

/-! ## 1. The anchor of a run -/

/-- The rows the snapshot of a database is read from. -/
def Db.anchor (db : Db) :
    List KeyRow × List EpochRow × Nat × JournalId × RealmId × Digest × Digest :=
  (db.keys, db.epochs, db.metaRow.activeEpoch, db.metaRow.journalId, db.metaRow.realmId,
    db.metaRow.journalLocationSha256, db.metaRow.trustBundleSha256)

/-- From one anchor one snapshot is read. -/
theorem trust_unique (ha : db'.anchor = db.anchor) (h : loadTrust env db = .ok s)
    (h' : loadTrust env db' = .ok s') : s' = s := by
  simp only [Db.anchor, Prod.mk.injEq] at ha
  obtain ⟨hkeys, hepochs, hepoch, hjournal, hrealm, hplace, hbundle⟩ := ha
  simp only [loadTrust, hkeys, hepochs, hepoch, bind_ok, orRefuse_ok, ensure_ok, pure_ok] at h h'
  obtain ⟨e, he, ok, hok, rk, hrk, _, _, rfl⟩ := h
  obtain ⟨e', he', ok', hok', rk', hrk', _, _, rfl⟩ := h'
  obtain rfl : e' = e := Option.some.inj (he'.symm.trans he)
  obtain rfl : ok' = ok := Option.some.inj (hok'.symm.trans hok)
  obtain rfl : rk' = rk := Option.some.inj (hrk'.symm.trans hrk)
  simp only [snapshotOf, hjournal, hrealm, hplace, hbundle]

theorem step_anchor (h : Step env codec s db db') : db'.anchor = db.anchor := by
  cases h with
  | transitionFinalized ho hst hs =>
      rw [transitionFinalized_eq]
      rfl
  | _ => rfl

theorem Operates.anchor (h : Operates env codec db db') : db'.anchor = db.anchor := by
  cases h with
  | call s call =>
      rcases @runCall_steps env codec s db call with h | ⟨-, h⟩
      · rw [h]
      · cases h with
        | one h => exact step_anchor h
        | two h _ h' => exact (step_anchor h').trans (step_anchor h)
  | prepare host handle input h =>
      rcases prepareBootstrap_authority h with rfl | ⟨x, h⟩
      · rfl
      · simp only [retryExistingBootstrap, observeExistingBootstrap, bind_ok, ensure_ok, written_ok,
          pure_ok, Prod.mk.injEq] at h
        obtain ⟨loaded, -, _, -, _, ⟨at', -, -, rfl⟩, rfl, -⟩ := h
        rfl
  | confirm secured handle anchor observed h =>
      rcases confirmAnchor_authority h with rfl | ⟨opened, x, h⟩
      · rfl
      · simp only [confirmDb, bind_ok, ensure_ok, written_ok, insertTypedEvent_ok, pure_ok,
          Prod.mk.injEq] at h
        obtain ⟨loaded, -, _, -, at', -, _, ⟨-, rfl⟩, _, ⟨-, rfl⟩, rfl, -⟩ := h
        rfl

/-- **A run has one anchor**: every state of it is accepted for the snapshot of its start only. -/
theorem Run.trust (h : Run env codec start db) (hs : loadTrust env start = .ok s)
    (ha : Accepted env codec s' db) : s' = s := by
  have hanchor : db.anchor = start.anchor := by
    clear ha
    induction h with
    | refl => rfl
    | tail _ hop ih => exact hop.anchor.trans ih
  exact trust_unique hanchor hs ha.trust

/-- **An invariant of the tables over a run from a bootstrap**: a step is taken on a state that is
    accepted for the snapshot of the start, and whose times are not after its clock. -/
theorem Run.invariant_from {P : Db → Prop} (hstart : Bootstraps env start)
    (htrust : loadTrust env start = .ok s)
    (hsame : ∀ {x y : Db}, SameTables x y → P x → P y)
    (hstep : ∀ {x y : Db}, Accepted env codec s x → TimesBounded x → Step env codec s x y →
      P x → P y)
    (h : Run env codec start db) (h0 : P start) : P db := by
  induction h with
  | refl => exact h0
  | tail hrun hop ih =>
      obtain ⟨htimes, hlog⟩ := hstart.times
      have ht := (stamps_times (Run.stamps hrun) htimes hlog).1
      rcases hop.cases with hs | ⟨x, ha, hsteps⟩
      · exact hsame hs ih
      · obtain rfl := Run.trust hrun htrust ha
        cases hsteps with
        | one h => exact hstep ha ht h ih
        | two h ha₁ h' =>
            obtain ⟨at', specs, hstamped⟩ := step_stamped ha h
            exact hstep ha₁ (hstamped.times ht) h' (hstep ha ht h ih)

theorem SameTables.lasts (h : SameTables db db') : Lasts db db' where
  challenges c hc := ⟨c, h.challenges ▸ hc, Challenge.Continues.refl c⟩
  receipts := h.receipts ▸ List.Subset.refl _
  grants := h.registry.grants ▸ List.Subset.refl _
  stores x hx := ⟨x, h.registry.stores ▸ hx, Store.Advances.refl x⟩
  storeVersions := h.registry.storeVersions ▸ List.Subset.refl _
  transitions t ht := ⟨t, h.registry.transitions ▸ ht, Transition.Advances.refl t⟩
  cleanups x hx := ⟨x, h.registry.cleanups ▸ hx, Cleanup.Advances.refl x⟩

theorem Bootstraps.trust (h : Bootstraps env start) : ∃ s, loadTrust env start = .ok s := by
  obtain ⟨host, handle, input, s, ha, hf⟩ := h
  exact ⟨s, (firstBootstrap_ok ha hf).1.loadTrust⟩

theorem Bootstraps.grants (h : Bootstraps env start) : start.grants = [] := by
  obtain ⟨host, handle, input, s, ha, hf⟩ := h
  obtain ⟨hboot, -⟩ := firstBootstrap_ok ha hf
  obtain ⟨created, last, confirmed, rfl, -⟩ := hboot.rows
  cases confirmed <;> rfl

/-! ## 2. What a grant is used for -/

/-- **What the use of a grant left**: the row of the entity its manifest names, as it was signed. -/
inductive Bought (db : Db) (g : GrantUse) (m : ActionManifest) : Prop where
  | store {value : StoreEnrollManifest} {x : Store} {v : StoreVersion}
      (hp : m.payload = .storeEnroll value)
      (hx : x ∈ db.stores ∧ x.enrolledReceiptId = g.receiptId)
      (hids : x.storeId = value.configCas.storeId ∧
        x.locationSha256 = value.configCas.locationSha256)
      (hv : v ∈ db.storeVersions ∧ v.enrolledReceiptId = some g.receiptId ∧
        v.configGeneration = value.configCas.generation ∧
        v.configSha256 = value.configCas.exactContentSha256)
  | transition {t : Transition} {value : AccountMutationManifest} {account : AccountSnapshot}
      (hm : mutationOf t.kind m.payload = some value)
      (hacc : accountSnapshotOf t.kind value = some account)
      (ht : t ∈ db.transitions ∧ t.grantId = g.grantId)
      (hids : t.transitionId = value.transitionId ∧ t.storeId = value.configCas.storeId ∧
        t.accountId = account.accountId)
      (hpairs : t.expectedGeneration = value.configCas.generation ∧
        t.beforeConfigSha256 = value.configCas.exactContentSha256 ∧
        t.nextGeneration = value.nextConfigGeneration ∧
        t.afterConfigSha256 = value.afterConfigSha256)
      (hcleanups : ∀ d ∈ value.cleanup, ∃ x ∈ db.cleanups, x.transitionId = some t.transitionId ∧
        x.cleanupId = d.cleanupId ∧ x.locatorKind = d.locatorKind ∧
        x.locatorSha256 = d.locatorSha256)
  | cleanup {value : CredentialCleanupManifest} {x : Cleanup}
      (hp : m.payload = .credentialCleanup value)
      (hx : x ∈ db.cleanups ∧ x.claimGrantId = some g.grantId)
      (hids : x.cleanupId = value.cleanupId ∧ x.locatorKind = value.locatorKind ∧
        x.locatorSha256 = value.locatorSha256)

/-- **A used grant with what stands behind it**: its manifest was signed under the anchor, it was used
    while its receipt lasted, and its use left what was signed. -/
structure Redeemed (env : Platform) (codec : ManifestCodec) (s : Snapshot) (db : Db) (g : GrantUse)
    (m : ActionManifest) : Prop where
  signed : SignedFor env codec s db g m
  same : g.action = m.action ∧ g.manifestSha256 = env.sha256 m.canonicalBytes
  in_time : ∃ r ∈ db.receipts, r.receiptId = g.receiptId ∧ r.verifiedAt ≤ g.usedAt ∧
    g.usedAt ≤ r.expiresAt
  bought : Bought db g m

/-! ## 3. It lasts -/

theorem SignedFor.lasts {g : GrantUse} {m : ActionManifest} (h : SignedFor env codec s db g m)
    (hl : Lasts db db') : SignedFor env codec s db' g m := by
  obtain ⟨r, hr, c, hc, p, hrest⟩ := h
  obtain ⟨c', hc', state, rfl⟩ := hl.challenges c hc
  exact ⟨r, hl.receipts hr, _, hc', p, hrest⟩

theorem Bought.lasts {g : GrantUse} {m : ActionManifest} (h : Bought db g m) (hl : Lasts db db') :
    Bought db' g m := by
  cases h with
  | @store value x v hp hx hids hv =>
      obtain ⟨x', hx', hadv⟩ := hl.stores x hx.1
      obtain ⟨_, _, _, _, rfl⟩ := hadv.same
      exact .store hp ⟨hx', hx.2⟩ hids ⟨hl.storeVersions hv.1, hv.2⟩
  | @transition t value account hm hacc ht hids hpairs hcleanups =>
      obtain ⟨t', ht', hadv⟩ := hl.transitions t ht.1
      obtain ⟨_, _, _, _, heq⟩ := hadv.same
      have hkept : ∀ d ∈ value.cleanup, ∃ x ∈ db'.cleanups, x.transitionId = some t.transitionId ∧
          x.cleanupId = d.cleanupId ∧ x.locatorKind = d.locatorKind ∧
          x.locatorSha256 = d.locatorSha256 := by
        intro d hd
        obtain ⟨x, hx, hsays⟩ := hcleanups d hd
        obtain ⟨x', hx', hadv'⟩ := hl.cleanups x hx
        obtain ⟨_, _, _, rfl⟩ := hadv'.same
        exact ⟨_, hx', hsays⟩
      refine @Bought.transition _ _ _ t' value account ?_ ?_ ⟨ht', ?_⟩ ?_ ?_ ?_ <;> subst heq
      · exact hm
      · exact hacc
      · exact ht.2
      · exact hids
      · exact hpairs
      · exact hkept
  | @cleanup value x hp hx hids =>
      obtain ⟨x', hx', hadv⟩ := hl.cleanups x hx.1
      have hclaim := hadv.claim g.grantId hx.2
      obtain ⟨_, _, _, rfl⟩ := hadv.same
      exact .cleanup hp ⟨hx', hclaim⟩ hids

theorem Redeemed.lasts {g : GrantUse} {m : ActionManifest} (h : Redeemed env codec s db g m)
    (hl : Lasts db db') : Redeemed env codec s db' g m := by
  obtain ⟨r, hr, htimes⟩ := h.in_time
  exact ⟨h.signed.lasts hl, h.same, ⟨r, hl.receipts hr, htimes⟩, h.bought.lasts hl⟩

/-! ## 4. A first use -/

/-- A grant that is used is signed. -/
theorem Authorizes.signedFor (ha : Accepted env codec s db) {r : GrantUseRequest} {receipt : Receipt}
    {c : Challenge} {m : ActionManifest} (hauth : Authorizes db r receipt c)
    (hm : manifestOf env codec c = some m) (at' : Int) :
    SignedFor env codec s db (grantUseRow env r at') m ∧ r.action = m.action ∧
      r.manifestSha256 = env.sha256 m.canonicalBytes := by
  have hcok := ha.history.challenges c hauth.challenge_mem
  obtain ⟨m', p, hch⟩ := hcok.chain
  obtain rfl : m' = m := Option.some.inj (hch.manifest.symm.trans hm)
  have hsigned := hch.signed
  rcases challengeReceipt_iff.mp hcok.receipt with ⟨hst, -⟩ | ⟨x, n, hx, -, hok, -⟩
  · simp [hauth.state] at hst
  · rw [loadReceiptForChallenge_iff ha.tables] at hx
    obtain rfl : x = receipt := eq_of_key_eq ha.tables.receipts.challenge_unique hx.1
      hauth.receipt_mem (hx.2.trans hauth.challenge_id.symm)
    have hpay : AuthorizationPayload.parse env c.signingPayload = .ok p := by
      have hp := hch.payload
      unfold payloadOf at hp
      exact toOption_eq_some.mp hp
    have hgrant : c.grantId = (grantUseRow env r at').grantId := hauth.grant_id.symm
    have hsha := hsigned.manifest.2.1
    refine ⟨⟨x, hauth.receipt_mem, c, hauth.challenge_mem, p, ⟨hauth.receipt_id, ?_,
      hauth.challenge_id.symm, hgrant⟩, ⟨parse_of_manifestOf hm, hpay, ?_, ?_, ?_⟩, ?_⟩, ?_, ?_⟩
    · exact hok.challenge.2.1.trans hgrant
    · rw [hsigned.target.1, hsigned.manifest.2.2]
    · exact hsigned.signer.2.2.2.1.trans hgrant
    · rw [hsigned.context.2.2.1, ← hsha, hch.valid.sha256_eq]
    · rw [hsigned.manifest.2.2]
      exact isOk_unit hok.signature
    · exact hauth.action.trans hsigned.manifest.2.2.symm
    · rw [hauth.manifest, ← hsha, hch.valid.sha256_eq]

/-- **A first use redeems the grant**, once what it left is there. -/
theorem Authorizes.redeemed (ha : Accepted env codec s db) (ht : TimesBounded db)
    {r : GrantUseRequest} {receipt : Receipt} {c : Challenge} {m : ActionManifest} {at' : Int}
    (hauth : Authorizes db r receipt c) (hm : manifestOf env codec c = some m)
    (htime : TimeOk db at') (hexp : at' ≤ receipt.expiresAt) (hl : Lasts db db')
    (hbought : Bought db' (grantUseRow env r at') m) :
    Redeemed env codec s db' (grantUseRow env r at') m := by
  obtain ⟨hsigned, haction, hsha⟩ := hauth.signedFor ha hm at'
  refine ⟨hsigned.lasts hl, ⟨haction, hsha⟩, ⟨receipt, hl.receipts hauth.receipt_mem,
    hauth.receipt_id, ?_, hexp⟩, hbought⟩
  exact (ht.verified receipt hauth.receipt_mem).trans htime.monotone

/-- The descriptor of a cleanup is answered by a reservation. -/
theorem exists_reservation {rs : List Reservation} {ds : List CleanupDescriptor}
    (h : cleanupReservationsMatch rs ds) : ∀ d ∈ ds, ∃ x ∈ rs, reservationMatches x d := by
  induction h with
  | nil => exact fun d hd => absurd hd List.not_mem_nil
  | @cons x d rs ds hm _ ih =>
      intro e he
      rcases List.mem_cons.mp he with rfl | he
      · exact ⟨x, List.mem_cons_self, hm⟩
      · obtain ⟨y, hy, hym⟩ := ih e he
        exact ⟨y, List.mem_cons_of_mem _ hy, hym⟩

/-- An enrollment leaves the store of its manifest. -/
theorem Enrolls.bought {r : EnrollStoreRequest} {receipt : Receipt} {c : Challenge}
    {m : ActionManifest} {e : StoreEnrollmentContext} {at' : Int}
    (he : Enrolls env codec db r receipt c m e) :
    Bought (storeEnrolled env db r receipt.receiptId at') (grantUseRow env r.grantUse at') m := by
  have hctx := he.context
  unfold storeEnrollmentContext at hctx
  split at hctx
  · next value hp =>
      obtain rfl := Option.some.inj hctx
      obtain ⟨hid, hloc, hgen, hsha⟩ := he.ids
      have hreceipt : receipt.receiptId = r.grantUse.receiptId := he.authorizes.receipt_id
      refine .store (x := storeRow r receipt.receiptId at') (v := storeVersionRow r receipt.receiptId at')
        hp ⟨?_, hreceipt⟩ ⟨hid, hloc⟩ ⟨?_, congrArg some hreceipt, hgen, hsha⟩
      · exact List.mem_append_right _ (List.mem_singleton_self _)
      · exact List.mem_append_right _ (List.mem_singleton_self _)
  · cases hctx

/-- A claim leaves the cleanup of its manifest claimed. -/
theorem Claims.bought (htab : TablesOk db) {r : CleanupClaimRequest} {receipt : Receipt}
    {c : Challenge} {m : ActionManifest} {value : CredentialCleanupManifest} {x : Cleanup}
    {at' : Int} (hc : Claims env codec db r receipt c m value x) :
    Bought (cleanupClaimed env db r receipt.receiptId at') (grantUseRow env r.grantUse at') m := by
  have hval := hc.cleanup
  unfold cleanupManifest at hval
  split at hval
  · next hp =>
      obtain rfl := Option.some.inj hval
      obtain ⟨hid, -, hkind, hsha⟩ := hc.names
      refine .cleanup (x := claimedRow r x) hp ⟨?_, rfl⟩ ⟨hid, hkind, hsha⟩
      exact (hc.cleanups htab (claimedRow r x)).mpr (Or.inr rfl)
  · cases hval

/-- A preparation leaves the transition of its manifest, with its cleanups reserved. -/
theorem Prepares.bought (ha : Accepted env codec s db) {r : PrepareRequest} {receipt : Receipt}
    {c : Challenge} {accounts : List Account} {location : Digest} {x : Store} {at' : Int}
    (hp : Prepares env codec s db r receipt c accounts location x at') :
    ∃ m, manifestOf env codec c = some m ∧
      Bought (transitionPrepared env db r accounts location receipt.receiptId at')
        (grantUseRow env r.grantUse at') m := by
  obtain ⟨m, value, account, target, hpr⟩ := hp.proposal ha
  have hsame := hpr.same
  refine ⟨m, hpr.manifest, .transition (t := transitionRow env r at') hpr.mutation
    hpr.mutates.snapshot ⟨?_, rfl⟩ ⟨hsame.transition_id, hsame.store_id, hsame.account_id⟩
    ⟨hsame.expected_generation, hsame.before_config, hsame.next_generation, hsame.after_config⟩
    fun d hd => ?_⟩
  · exact List.mem_append_right _ (List.mem_singleton_self _)
  · obtain ⟨y, hy, -, hid, hkind, hsha⟩ := exists_reservation hsame.cleanup d hd
    exact ⟨cleanupRow r.transitionId at' y, List.mem_append_right _ (List.mem_map_of_mem hy), rfl, hid,
      hkind, hsha⟩

/-! ## 5. Every step -/

/-- **A grant of a database after a step was there before, or is one a first use redeemed.** -/
theorem step_redeemed (ha : Accepted env codec s db) (ht : TimesBounded db)
    (h : Step env codec s db db') :
    ∀ g ∈ db'.grants, g ∈ db.grants ∨ ∃ m, Redeemed env codec s db' g m := by
  have hl := step_lasts h
  cases h with
  | @storeEnrolled r receipt c m e at' he hexp htime hs =>
      intro g hg
      rcases List.mem_append.mp hg with hg | hg
      · exact Or.inl hg
      · rw [List.mem_singleton.mp hg]
        exact Or.inr ⟨m, he.authorizes.redeemed ha ht he.manifest htime hexp hl he.bought⟩
  | @cleanupClaimed r receipt c m value x at' hc hexp htime hs =>
      intro g hg
      rcases List.mem_append.mp hg with hg | hg
      · exact Or.inl hg
      · rw [List.mem_singleton.mp hg]
        exact Or.inr ⟨m, hc.authorizes.redeemed ha ht hc.manifest htime hexp hl
          (hc.bought ha.tables)⟩
  | @transitionPrepared r receipt c accounts location x at' hp hexp htime hs =>
      obtain ⟨m, hm, hbought⟩ := hp.bought ha
      intro g hg
      rw [transitionPrepared, appendEvents_eq] at hg
      rcases List.mem_append.mp hg with hg | hg
      · exact Or.inl hg
      · rw [List.mem_singleton.mp hg]
        exact Or.inr ⟨m, hp.authorizes.redeemed ha ht hm htime hexp hl hbought⟩
  | transitionFinalized ho hst hs =>
      rw [transitionFinalized_eq]
      exact fun g hg => Or.inl hg
  | _ => exact fun g hg => Or.inl hg

/-! ## 6. One use -/

/-- Two manifests of one digest with different bytes. -/
def Collides (env : Platform) (db : Db) : Prop :=
  ∃ c ∈ db.challenges, ∃ c' ∈ db.challenges, c.manifest ≠ c'.manifest ∧
    env.sha256 c.manifest = env.sha256 c'.manifest

/-- The bytes of a manifest that was read. -/
theorem canonicalBytes_of_parse {bytes : Bytes} {m : ActionManifest}
    (h : ActionManifest.parse env codec bytes = .ok m) : m.canonicalBytes = bytes := by
  simp only [ActionManifest.parse, bind_ok, ensure_ok, pure_ok] at h
  obtain ⟨_, -, _, -, result, -, _, hbytes, rfl⟩ := h
  exact hbytes

/-- Two grants redeemed for one digest are redeemed for one manifest, unless the digest collides. -/
theorem Redeemed.manifest_eq {g g' : GrantUse} {m m' : ActionManifest}
    (h : Redeemed env codec s db g m) (h' : Redeemed env codec s db g' m')
    (hsha : g.manifestSha256 = g'.manifestSha256) (hfree : ¬Collides env db) : m = m' := by
  obtain ⟨-, -, c, hc, -, -, ⟨hm, -⟩, -⟩ := h.signed
  obtain ⟨-, -, c', hc', -, -, ⟨hm', -⟩, -⟩ := h'.signed
  have hbytes := canonicalBytes_of_parse hm
  have hbytes' := canonicalBytes_of_parse hm'
  rw [h.same.2, h'.same.2, hbytes, hbytes'] at hsha
  have heq : c.manifest = c'.manifest := by
    by_contra hne
    exact hfree ⟨c, hc, c', hc', hne, hsha⟩
  rw [heq, hm'] at hm
  exact (Except.ok.inj hm).symm

/-- A manifest is of one kind of transition at most. -/
theorem kind_of_mutationOf {k k' : TransitionKind} {p : ManifestPayload}
    {value value' : AccountMutationManifest} (h : mutationOf k p = some value)
    (h' : mutationOf k' p = some value') : k = k' ∧ value = value' := by
  cases k <;> cases p <;> cases h <;> cases k' <;> cases h' <;> exact ⟨rfl, rfl⟩

/-- A manifest of a transition neither enrolls a store nor claims a cleanup. -/
theorem ne_of_mutationOf {k : TransitionKind} {p : ManifestPayload} {value : AccountMutationManifest}
    (h : mutationOf k p = some value) :
    (∀ v, p ≠ .storeEnroll v) ∧ ∀ v, p ≠ .credentialCleanup v := by
  cases k <;> cases p <;> cases h <;> exact ⟨fun v hv => (by cases hv), fun v hv => (by cases hv)⟩

/-- **What a manifest buys is bought with one grant.** -/
theorem Bought.eq {g g' : GrantUse} {m : ActionManifest} (ht : TablesOk db) (hg : g ∈ db.grants)
    (hg' : g' ∈ db.grants) (h : Bought db g m) (h' : Bought db g' m) : g = g' := by
  cases h with
  | @store value x v hp hx hids hv =>
      cases h' with
      | @store value' x' v' hp' hx' hids' hv' =>
          rw [hp] at hp'
          cases hp'
          have heq : x = x' := eq_of_key_eq ht.stores.id_unique hx.1 hx'.1 (hids.1.trans hids'.1.symm)
          exact eq_of_key_eq ht.grants.receipt_unique hg hg' (hx.2.symm.trans (heq ▸ hx'.2))
      | transition hm' hacc ht' hids' hpairs hcleanups =>
          exact absurd hp ((ne_of_mutationOf hm').1 value)
      | cleanup hp' hx' hids' =>
          rw [hp] at hp'
          cases hp'
  | @transition t value account hm hacc hmem hids hpairs hcleanups =>
      cases h' with
      | store hp' hx' hids' hv' => exact absurd hp' ((ne_of_mutationOf hm).1 _)
      | @transition t' value' account' hm' hacc' hmem' hids' hpairs' hcleanups' =>
          obtain ⟨-, rfl⟩ := kind_of_mutationOf hm hm'
          have heq : t = t' := eq_of_key_eq ht.transitions.id_unique hmem.1 hmem'.1
            (hids.1.trans hids'.1.symm)
          exact eq_of_key_eq ht.grants.id_unique hg hg' (hmem.2.symm.trans (heq ▸ hmem'.2))
      | cleanup hp' hx' hids' => exact absurd hp' ((ne_of_mutationOf hm).2 _)
  | @cleanup value x hp hx hids =>
      cases h' with
      | store hp' hx' hids' hv' =>
          rw [hp] at hp'
          cases hp'
      | transition hm' hacc ht' hids' hpairs hcleanups =>
          exact absurd hp ((ne_of_mutationOf hm').2 value)
      | @cleanup value' x' hp' hx' hids' =>
          rw [hp] at hp'
          cases hp'
          have heq : x = x' := eq_of_key_eq ht.cleanups.id_unique hx.1 hx'.1
            (hids.1.trans hids'.1.symm)
          have hclaim := heq ▸ hx.2
          exact eq_of_key_eq ht.grants.id_unique hg hg' (Option.some.inj (hclaim.symm.trans hx'.2))

/-! ## 7. Runs -/

/-- The use of a grant a call asks for. -/
def Call.use : Call → Option GrantUseRequest
  | .enrollStore r => some r.grantUse
  | .prepareAccountTransition r => some r.grantUse
  | .claimCredentialCleanup r => some r.grantUse
  | .createChallenge _ _ | .verifyProof _ _ | .observe _ _ | .applyCredentialCleanupDelete _ _ _ =>
      none

theorem Quiet.registry (h : Quiet env codec s db db') : SameRegistry db db' := by
  cases h <;> exact ⟨rfl, rfl, rfl, rfl, rfl, rfl, rfl, rfl⟩

theorem settle_registry {α : Type} {x : Result (Commit α)}
    (h : ∀ k, x = .ok k → SameRegistry db k.db) : SameRegistry db (settle db x).1 := by
  cases x with
  | error e => exact ⟨rfl, rfl, rfl, rfl, rfl, rfl, rfl, rfl⟩
  | ok k =>
      have hk := h k rfl
      obtain ⟨db', reply⟩ := k
      cases reply <;> exact hk

/-- **A call that asks for a use of a used grant leaves the registry alone.** -/
theorem runCall_used {call : Call} {use : GrantUseRequest} (hcall : call.use = some use)
    (hused : ∃ g ∈ db.grants, g.grantId = use.grantId) :
    SameRegistry db (runCall env codec s db call).1 := by
  obtain ⟨g, hg, hid⟩ := hused
  cases call with
  | enrollStore r =>
      obtain rfl := Option.some.inj hcall
      refine settle_registry fun k hk => ?_
      obtain ⟨-, at', -, hspent | ⟨receipt, c, m, e, he, -⟩⟩ := enrollStore_effect hk
      · exact hspent.quiet.registry
      · exact absurd hid (he.authorizes.unused g hg)
  | prepareAccountTransition r =>
      obtain rfl := Option.some.inj hcall
      refine settle_registry fun k hk => ?_
      obtain ⟨-, at', -, hspent | ⟨receipt, c, accounts, location, x, hp, -⟩⟩ :=
        prepareAccountTransition_effect hk
      · exact hspent.quiet.registry
      · exact absurd hid (hp.authorizes.unused g hg)
  | claimCredentialCleanup r =>
      obtain rfl := Option.some.inj hcall
      refine settle_registry fun k hk => ?_
      obtain ⟨-, at', -, hspent | ⟨receipt, c, m, value, x, hc, -⟩⟩ := claimCredentialCleanup_effect hk
      · exact hspent.quiet.registry
      · exact absurd hid (hc.authorizes.unused g hg)
  | _ => cases hcall

/-- In a run from a bootstrap every used grant is redeemed. -/
theorem Run.redeemed (hstart : Bootstraps env start) (htrust : loadTrust env start = .ok s)
    (hrun : Run env codec start db) : ∀ g ∈ db.grants, ∃ m, Redeemed env codec s db g m := by
  refine Run.invariant_from (P := fun db => ∀ g ∈ db.grants, ∃ m, Redeemed env codec s db g m)
    hstart htrust (fun {x y} hs hx g hg => ?_) (fun {x y} ha ht hstep hx g hg => ?_) hrun
    fun g hg => ?_
  · rw [hs.registry.grants] at hg
    obtain ⟨m, hm⟩ := hx g hg
    exact ⟨m, hm.lasts hs.lasts⟩
  · rcases step_redeemed ha ht hstep g hg with hg | hm
    · obtain ⟨m, hm⟩ := hx g hg
      exact ⟨m, hm.lasts (step_lasts hstep)⟩
    · exact hm
  · rw [hstart.grants] at hg
    cases hg

/-- **What the owner signs is used once.**  In every state of every run from a bootstrap: each used
    grant is redeemed under the anchor of the bootstrap; two used grants are never of one manifest,
    unless two manifests have one digest; and a call that asks for the use of a used grant changes
    nothing but challenges and the clock. -/
theorem signed_once (hstart : Bootstraps env start) (hrun : Run env codec start db) :
    ∃ s, loadTrust env start = .ok s ∧ (∀ g ∈ db.grants, ∃ m, Redeemed env codec s db g m) ∧
      (∀ g ∈ db.grants, ∀ g' ∈ db.grants, g.manifestSha256 = g'.manifestSha256 →
        g = g' ∨ Collides env db) ∧
      ∀ (s' : Snapshot) (call : Call) (use : GrantUseRequest), call.use = some use →
        (∃ g ∈ db.grants, g.grantId = use.grantId) →
        SameRegistry db (runCall env codec s' db call).1 := by
  obtain ⟨s, htrust⟩ := hstart.trust
  have hredeemed := Run.redeemed hstart htrust hrun
  have htables := (Run.logged hrun hstart.logged).tables
  refine ⟨s, htrust, hredeemed, fun g hg g' hg' hsha => ?_, fun s' call use hcall hused =>
    runCall_used hcall hused⟩
  obtain ⟨m, hm⟩ := hredeemed g hg
  obtain ⟨m', hm'⟩ := hredeemed g' hg'
  by_cases hfree : Collides env db
  · exact Or.inr hfree
  · obtain rfl := hm.manifest_eq hm' hsha hfree
    exact Or.inl (hm.bought.eq htables hg hg' hm'.bought)

namespace Sample

/-- The enrollment and the creation, each signed and used. -/
theorem prepared_once :
    ((play ready creationCalls).grants.length = 2 ∧
      ∀ g ∈ (play ready creationCalls).grants,
        ∃ m, Redeemed platform listCodec realm (play ready creationCalls) g m) := by
  obtain ⟨s, hs, hredeemed, -⟩ := signed_once bootstraps prepared_run
  obtain rfl : realm = s := by
    have h : loadTrust platform (bootstrapRows platform realm 5) = .ok realm := by decide +kernel
    exact Except.ok.inj (h.symm.trans hs)
  exact ⟨prepared_outline.2.1, hredeemed⟩

end Sample

end Kirje.Authority
