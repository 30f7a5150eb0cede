import Kirje.Authority.Aborting

/-
  File:      Kirje/Authority/Trying.lean
  Subject:   A mutation tried again after its abort.

  An abort leaves the store and the account as they were, so that the same change could
  be made again.  The cleanups the first attempt reserved stay, though, and a locator is
  reserved once.  Which locators a mutation reserves follows from the snapshot before it
  and from their kinds; a second attempt with the same kinds is always refused.
-/

namespace Kirje.Authority

open Base

variable {env : Platform} {codec : ManifestCodec} {s s' : Snapshot} {db₀ db db' : Db}

/-! ## 1. The second attempt -/

/-- The snapshot with another credential. -/
def Renewed (account account' : AccountSnapshot) : Prop :=
  ∃ credentialId cleanupIds,
    account' = { account with credentialId := credentialId, cleanupIds := cleanupIds }

/-- **The same change to the same account**, with identifiers that were never used. -/
structure TriedAgain (db : Db) (value value' : AccountMutationManifest) : Prop where
  configCas : value'.configCas = value.configCas
  before : value'.before = value.before
  after : Option.Rel Renewed value.after value'.after
  transition_fresh : ∀ t ∈ db.transitions, t.transitionId ≠ value'.transitionId
  credential_fresh : ∀ account ∈ value'.after, ∀ y ∈ db.credentials,
    y.credentialId ≠ account.credentialId
  cleanups_fresh : ∀ d ∈ value'.cleanup, ∀ x ∈ db.cleanups, x.cleanupId ≠ d.cleanupId

/-- The kinds and the locators a mutation reserves. -/
def locators (value : AccountMutationManifest) : List (LocatorKind × Digest) :=
  value.cleanup.map fun d => (d.locatorKind, d.locatorSha256)

/-- No cleanup holds a locator of the mutation. -/
def LocatorsFree (db : Db) (value : AccountMutationManifest) : Prop :=
  ∀ d ∈ value.cleanup, ∀ x ∈ db.cleanups, x.locatorSha256 ≠ d.locatorSha256

instance (db : Db) (value : AccountMutationManifest) : Decidable (LocatorsFree db value) := by
  unfold LocatorsFree
  infer_instance

/-- **The store and the account are as the mutation expects them.** -/
structure Expected (env : Platform) (db : Db) (value : AccountMutationManifest)
    (before : AccountSnapshot) (x : Store) (a : Account) : Prop where
  before_eq : value.before = some before
  store : x ∈ db.stores ∧ x.storeId = value.configCas.storeId
  location : x.locationSha256 = value.configCas.locationSha256
  active : x.state = .active
  pair : x.configGeneration = value.configCas.generation ∧
    x.configSha256 = value.configCas.exactContentSha256
  closed : openTransitions db value.configCas.storeId = []
  account : a ∈ db.accounts ∧ a.accountId = before.accountId
  free : a.state = .active ∧ a.activeTransitionId = none ∧ a.removedAt = none
  names : a.storeId = value.configCas.storeId ∧
    a.displayIdSha256 = displayIdDigest env before.displayId
  stands : a.accountGeneration = before.generation ∧ a.credentialId = before.credentialId ∧
    a.bindingSha256 = before.bindingSha256

theorem ensure_bind {α : Type} {c : Prop} [Decidable c] {e : MailError} {f : Unit → Result α}
    (h : c) : (ensure c e >>= f) = f () := by
  simp [ensure, h, bind, Except.bind]

theorem orRefuse_bind {α β : Type} {x : Option α} {y : α} {e : MailError} {f : α → Result β}
    (h : x = some y) : (orRefuse x e >>= f) = f y := by
  simp [orRefuse, h, bind, Except.bind]

theorem ensure_congr {c c' : Prop} [Decidable c] [Decidable c'] {e : MailError} (h : c ↔ c') :
    ensure c e = ensure c' e := by
  simp only [ensure, h]

theorem isNone_of_fresh {α κ : Type} [DecidableEq κ] {key : α → κ} {rows : List α} {k : κ}
    (h : ∀ x ∈ rows, key x ≠ k) : (rows.find? fun x => key x = k).isNone := by
  rw [Option.isNone_iff_eq_none, List.find?_eq_none]
  intro x hx
  simpa using h x hx

/-- What holds of the reservations of a request holds of the descriptors they match. -/
theorem reservations_iff {P : CleanupId → Digest → Prop} {rs : List Reservation}
    {ds : List CleanupDescriptor} (h : cleanupReservationsMatch rs ds) :
    (∀ x ∈ rs, P x.cleanupId x.locatorSha256) ↔ ∀ d ∈ ds, P d.cleanupId d.locatorSha256 := by
  induction h with
  | nil => simp
  | cons hm _ ih =>
      obtain ⟨-, hid, -, hsha⟩ := hm
      simp only [List.forall_mem_cons, hid, hsha, ih]

section Checks

variable {value value' : AccountMutationManifest} {before : AccountSnapshot} {x : Store}
  {a : Account} (htab : TablesOk db) (he : Expected env db value before x a)
  (ht : TriedAgain db value value')
include htab he ht

omit htab he in
/-- With fresh cleanups only the locators may collide. -/
theorem TriedAgain.collisions : (∀ d ∈ value'.cleanup, (db.cleanups.filter fun c =>
    c.cleanupId = d.cleanupId ∨ c.locatorSha256 = d.locatorSha256) = []) ↔
      LocatorsFree db value' := by
  refine forall₂_congr fun d hd => ?_
  rw [List.filter_eq_nil_iff]
  refine forall₂_congr fun y hy => ?_
  simp [ht.cleanups_fresh d hd y hy]

/-- The check of a new challenge. -/
theorem TriedAgain.freshContext : validateFreshAccountMutationContext env db value' =
    ensure (LocatorsFree db value') accountIdentityConflictError := by
  have hb := ht.before.trans he.before_eq
  have hstore : loadRegisteredStoreById db value.configCas.storeId = some x :=
    (loadRegisteredStoreById_iff htab).mpr he.store
  have hacc : loadRegisteredAccount db before.accountId = some a :=
    (loadRegisteredAccount_iff htab).mpr he.account
  have hfresh : validateFreshStore db value'.configCas = .ok () := by
    simp only [validateFreshStore, bind_ok, orRefuse_ok, ensure_ok, ht.configCas]
    exact ⟨x, hstore, (), he.location, (), by simp [he.active], (), by simp [he.active], (),
      he.active, (), he.pair, he.closed⟩
  rw [validateFreshAccountMutationContext, orRefuse_bind hb, hfresh]
  show (orRefuse (loadRegisteredAccount db before.accountId) _ >>= _) = _
  rw [orRefuse_bind hacc, ensure_bind ⟨by simp [he.free.1], by simp [he.free.1]⟩,
    ensure_bind ⟨he.free.1, he.free.2.1⟩, ht.configCas, ensure_bind ⟨he.names.1, he.names.2, he.stands⟩]
  refine ensure_congr ?_
  rw [ht.collisions]
  have htrans : (loadAccountTransition db value'.transitionId).isNone :=
    isNone_of_fresh ht.transition_fresh
  have hcred : ∀ account ∈ value'.after, (loadCredential db account.credentialId).isNone :=
    fun account hm => isNone_of_fresh (ht.credential_fresh account hm)
  exact ⟨fun h => h.2.2, fun h => ⟨htrans, fun account hm _ => hcred account hm, h⟩⟩

/-- The check of a new preparation. -/
theorem TriedAgain.occupancy {r : PrepareRequest} {c : Challenge} {account : AccountSnapshot}
    (hk : r.kind ≠ .accountCreate) (hm : accountMutationManifest env codec c r.kind = .ok value')
    (hp : PrepareValue env r value' account) (hid : account.accountId = before.accountId)
    (hnew : r.kind = .accountUpdate → value'.after = some account) :
    validatePrepareOccupancy env codec db r c =
      ensure (LocatorsFree db value') accountIdentityConflictError := by
  have hb := ht.before.trans he.before_eq
  have hstore : loadRegisteredStoreById db r.storeId = some x := by
    rw [hp.store_id, ht.configCas]
    exact (loadRegisteredStoreById_iff htab).mpr he.store
  have hacc : loadRegisteredAccount db r.accountId = some a := by
    rw [hp.account_id, hid]
    exact (loadRegisteredAccount_iff htab).mpr he.account
  have hpair : x.configGeneration = r.expectedGeneration ∧ x.configSha256 = r.beforeConfigSha256 := by
    rw [hp.expected_generation, hp.before_config, ht.configCas]
    exact he.pair
  have hopen : openTransitions db r.storeId = [] := by
    rw [hp.store_id, ht.configCas]
    exact he.closed
  have hrow : a.state = .active ∧ a.storeId = r.storeId ∧
      a.displayIdSha256 = displayIdDigest env before.displayId ∧
      a.accountGeneration = before.generation ∧ a.credentialId = before.credentialId ∧
      a.bindingSha256 = before.bindingSha256 ∧ a.activeTransitionId = none ∧ a.removedAt = none := by
    refine ⟨he.free.1, ?_, he.names.2, he.stands.1, he.stands.2.1, he.stands.2.2, he.free.2⟩
    rw [hp.store_id, ht.configCas]
    exact he.names.1
  have hfresh : (r.kind = .accountUpdate → (loadCredential db r.credentialId).isNone) ∧
      (loadAccountTransition db r.transitionId).isNone := by
    rw [hp.credential_id, hp.transition_id]
    exact ⟨fun hu => isNone_of_fresh (ht.credential_fresh account (hnew hu)),
      isNone_of_fresh ht.transition_fresh⟩
  rw [validatePrepareOccupancy, orRefuse_bind hstore, ensure_bind (by simp [he.active]),
    ensure_bind he.active, ensure_bind hpair, ensure_bind hopen, if_neg hk, mutationOccupancy, hm]
  show (orRefuse value'.before _ >>= _) = _
  rw [orRefuse_bind hb, orRefuse_bind hacc, ensure_bind hrow, ensure_bind hfresh]
  refine ensure_congr ?_
  rw [← ht.collisions]
  exact reservations_iff (P := fun i sha => (db.cleanups.filter fun y =>
    y.cleanupId = i ∨ y.locatorSha256 = sha) = []) hp.cleanup

end Checks

/-! ## 2. The state after the abort -/

/-- An update or a removal reserves at least one cleanup. -/
theorem cleanup_ne_nil {kind : TransitionKind} {p : ManifestPayload}
    {value : AccountMutationManifest} (hk : kind = .accountUpdate ∨ kind = .accountRemove)
    (hm : mutationOf kind p = some value) (hi : intrinsic env s p) : value.cleanup ≠ [] := by
  have hunique : provisionalCleanupIsUnique value.cleanup = true := by
    rcases hk with rfl | rfl
    · cases p <;> simp only [mutationOf, reduceCtorEq, Option.some.injEq] at hm
      subst hm
      simp only [intrinsic, accountUpdateIntrinsic] at hi
      split at hi
      · simp only [Bool.and_eq_true] at hi
        exact hi.1.1.2
      · cases hi
    · cases p <;> simp only [mutationOf, reduceCtorEq, Option.some.injEq] at hm
      subst hm
      simp only [intrinsic, accountRemoveIntrinsic, Bool.and_eq_true] at hi
      exact hi.2
  intro hnil
  rw [hnil] at hunique
  cases hunique

section Attempt

variable {r : PrepareRequest} {receipt : Receipt} {c : Challenge} {accounts : List Account}
  {location : Digest} {x : Store} {at₀ : Int} (h : Accepted env codec s db₀)
  (hp : Prepares env codec s db₀ r receipt c accounts location x at₀)
  {m : ActionManifest} {value : AccountMutationManifest} {account : AccountSnapshot}
  {target : Bytes} (hpr : Proposal env codec r receipt c m value account target)
include h hp hpr

/-- **After an attempt that was given up the mutation finds what it expects.** -/
theorem Prepares.expected (hk : r.kind ≠ .accountCreate)
    (hu : Undone r db₀ (transitionPrepared env db₀ r accounts location receipt.receiptId at₀) db db')
    (hclosed : ∀ u ∈ db'.transitions, u ∈ db₀.transitions ∨ u.Settled) :
    ∃ before y a, Expected env db' value before y a := by
  obtain ⟨before, a, hf, -⟩ := hp.found_account h.tables hk hpr
  obtain ⟨hx, hblock, hopen⟩ := hp.store
  obtain ⟨hxid, hxst, hxgen, hxsha, hxloc⟩ := of_decide_eq_true hblock
  obtain ⟨y, hy, hyid, at', hym⟩ := hu.store
  obtain rfl : y = x := eq_of_key_eq h.tables.stores.id_unique hy hx (hyid.trans hxid.symm)
  obtain ⟨b, hb, hbid, at₂, hbm⟩ := hu.account hk
  obtain rfl : b = a := eq_of_key_eq h.tables.accounts.id_unique hb hf.mem
    (hbid.trans hf.key.1.symm)
  obtain ⟨hid, hstore, hname, hgen, hcred, hbind, hst, hact, hrem⟩ := hf.key
  obtain ⟨before', hb', hrep⟩ := hpr.mutates.replaces hk
  obtain rfl : before' = before := Option.some.inj (Eq.trans (Eq.symm hb') hf.before_eq)
  have hloc : location = value.configCas.locationSha256 := by
    have hl := hp.location_eq
    rw [accountManifestLocationSha256, orRefuse_bind hpr.manifest,
      orRefuse_bind (anyMutationOf_of_mutationOf hpr.mutation), pure_ok] at hl
    exact hl.symm
  refine ⟨before', _, _,
    { before_eq := hf.before_eq
      store := ⟨hym, hyid.trans hpr.same.store_id⟩
      location := hxloc.trans hloc
      active := hxst
      pair := ⟨hxgen.trans hpr.same.expected_generation, hxsha.trans hpr.same.before_config⟩
      closed := ?_
      account := ⟨hbm, hid.trans (hpr.same.account_id.trans hrep.account_id.symm)⟩
      free := ⟨hst, hact, hrem⟩
      names := ⟨hstore.trans hpr.same.store_id, hname.trans ?_⟩
      stands := ⟨hgen, hcred, hbind⟩ }⟩
  · rw [← hpr.same.store_id, openTransitions, List.filter_eq_nil_iff]
    rw [openTransitions, List.filter_eq_nil_iff] at hopen
    intro u hum
    rcases hclosed u hum with hold | hset
    · exact hopen u hold
    · have hnot := mt Transition.Open.not_settled (not_not.mpr hset)
      simp only [decide_eq_true_eq]
      exact fun ho => hnot ho.2
  · rw [hpr.same.display_id, hrep.display_id]

omit h hp in
/-- The locators of the attempt stay reserved. -/
theorem Proposal.locators_reserved {d : CleanupDescriptor} (hd : d ∈ value.cleanup)
    (hl : Lasts (transitionPrepared env db₀ r accounts location receipt.receiptId at₀) db') :
    ∃ y ∈ db'.cleanups, y.locatorSha256 = d.locatorSha256 := by
  have hex : ∃ z ∈ r.cleanupReservations, z.locatorSha256 = d.locatorSha256 := by
    by_contra hnone
    have hall : ∀ z ∈ r.cleanupReservations, z.locatorSha256 ≠ d.locatorSha256 :=
      fun z hz he => hnone ⟨z, hz, he⟩
    exact (reservations_iff (P := fun _ sha => sha ≠ d.locatorSha256) hpr.same.cleanup).mp hall d hd
      rfl
  obtain ⟨z, hz, hsha⟩ := hex
  have hrow : cleanupRow r.transitionId at₀ z ∈
      (transitionPrepared env db₀ r accounts location receipt.receiptId at₀).cleanups :=
    List.mem_append_right db₀.cleanups (List.mem_map_of_mem hz)
  obtain ⟨y, hy, hadv⟩ := hl.cleanups _ hrow
  obtain ⟨_, _, _, rfl⟩ := hadv.same
  exact ⟨_, hy, hsha⟩

end Attempt

/-- The snapshot a second attempt registers is one of the same account. -/
theorem TriedAgain.account_id {kind : TransitionKind} {m : ActionManifest}
    {value value' : AccountMutationManifest} {account account' before : AccountSnapshot}
    (ht : TriedAgain db value value') (hm : Mutates kind m value account)
    (hk : kind ≠ .accountCreate) (hb : value.before = some before)
    (hacc : accountSnapshotOf kind value' = some account') :
    account'.accountId = before.accountId := by
  obtain ⟨b, hb', hrep⟩ := hm.replaces hk
  obtain rfl : b = before := Option.some.inj (Eq.trans (Eq.symm hb') hb)
  have hsnap := hm.snapshot
  by_cases hr : kind = .accountRemove
  · simp only [accountSnapshotOf, hr, if_true, ht.before, hb, Option.some.injEq] at hacc
    rw [hacc]
  · simp only [accountSnapshotOf, hr, if_false] at hacc hsnap
    have hrel := ht.after
    rw [hacc, hsnap] at hrel
    obtain ⟨_, _, rfl⟩ := Option.rel_some_some.mp hrel
    exact hrep.account_id.symm

/-- What a first preparation registers is prepared. -/
theorem first_prepared {r : PrepareRequest} {k₁ : Commit TransitionProjection}
    (hprepare : prepareAccountTransition env codec s r db₀ = .ok k₁)
    (hnew : ∀ t ∈ db₀.transitions, t.transitionId ≠ r.transitionId)
    (hprepared : ∃ t ∈ k₁.db.transitions, t.transitionId = r.transitionId) :
    ∃ t ∈ k₁.db.transitions, t.transitionId = r.transitionId ∧ t.state = .prepared := by
  obtain ⟨-, at₀, -, hspent | ⟨receipt, c, accounts, location, x, -, -, -, hk₁⟩⟩ :=
    prepareAccountTransition_effect hprepare
  · obtain ⟨t, ht, hid⟩ := hprepared
    rw [hspent.quiet.transitions_eq] at ht
    exact absurd hid (hnew t ht)
  · rw [hk₁]
    exact ⟨transitionRow env r at₀, List.mem_append_right db₀.transitions List.mem_cons_self, rfl, rfl⟩

/-- **After an aborted attempt the mutation can be tried again with other locators only.**  The
    abort leaves everything else as the mutation expects it, so that a challenge and a preparation
    for the same change with fresh identifiers pass their checks exactly when no cleanup holds one
    of its locators.  The cleanups of the first attempt do hold them, if the kinds are the same. -/
theorem aborted_mutation_needs_other_locators {r : PrepareRequest}
    {k₁ k₂ : Commit TransitionProjection} {q : ObservationRequest} {c : Challenge}
    {value value' : AccountMutationManifest}
    (hk : r.kind = .accountUpdate ∨ r.kind = .accountRemove)
    (hprepare : prepareAccountTransition env codec s r db₀ = .ok k₁)
    (hnew : ∀ t ∈ db₀.transitions, t.transitionId ≠ r.transitionId)
    (hprepared : ∃ t ∈ k₁.db.transitions, t.transitionId = r.transitionId)
    (hq : q.transitionId = r.transitionId ∧ q.actualConfigGeneration = r.expectedGeneration ∧
      q.actualConfigSha256 = r.beforeConfigSha256)
    (habort : applyAccountObservation env codec s .abort q k₁.db = .ok k₂)
    (hc : c ∈ db₀.challenges ∧ c.grantId = r.grantUse.grantId)
    (hvalue : accountMutationManifest env codec c r.kind = .ok value)
    (ht : TriedAgain k₂.db value value') :
    validateFreshAccountMutationContext env k₂.db value' =
        ensure (LocatorsFree k₂.db value') accountIdentityConflictError ∧
    (∀ (r' : PrepareRequest) (c' : Challenge) (account' : AccountSnapshot), r'.kind = r.kind →
      accountMutationManifest env codec c' r'.kind = .ok value' →
      accountSnapshotOf r.kind value' = some account' → PrepareValue env r' value' account' →
      validatePrepareOccupancy env codec k₂.db r' c' =
        ensure (LocatorsFree k₂.db value') accountIdentityConflictError) ∧
    (locators value' = locators value → ¬LocatorsFree k₂.db value') := by
  have hcreate : r.kind ≠ .accountCreate := by
    rcases hk with hk | hk <;> simp [hk]
  have hopen := first_prepared hprepare hnew hprepared
  obtain ⟨⟨h, receipt, c₁, accounts, location, x, at₀, hp, hstep, hk₁⟩, t, o, v, account₁, a, y, at',
    accounts', ho, hid, hst, hacc, hs, hk₂⟩ :=
    attempt_spelt hprepare hnew hprepared Relation.ReflTransGen.refl hopen hq habort
  obtain ⟨m, value₁, account, target, hpr⟩ := hp.proposal h
  obtain rfl : c₁ = c := eq_of_key_eq h.tables.challenges.grant_unique hp.authorizes.challenge_mem
    hc.1 (hp.authorizes.grant_id.symm.trans hc.2.symm)
  obtain rfl : value₁ = value := by
    simp only [accountMutationManifest, bind_ok, orRefuse_ok] at hvalue
    obtain ⟨m', hm', hv⟩ := hvalue
    obtain rfl : m' = m := Option.some.inj (hm'.symm.trans hpr.manifest)
    exact Option.some.inj (hpr.mutation.symm.trans hv)
  rw [hk₁] at ho hacc hstep
  have hundone := hp.undone h Relation.ReflTransGen.refl ho hid hst hstep hacc
  have hlasts : Lasts (transitionPrepared env db₀ r accounts location receipt.receiptId at₀) k₂.db := by
    rw [hk₂, hk₁]
    exact step_lasts (.transitionAborted ho hst hacc (hk₁ ▸ hk₂ ▸ hs))
  rw [hk₁] at hk₂
  rw [← hk₂] at hundone
  obtain ⟨a', hres⟩ := ho.restores hacc
  have hclosed : ∀ u ∈ k₂.db.transitions, u ∈ db₀.transitions ∨ u.Settled := by
    intro u hu
    rw [hk₂, (ho.abortMove hst hres).transitions] at hu
    rcases hu with ⟨hold, hne⟩ | rfl
    · rcases List.mem_append.mp hold with hold | hnew
      · exact Or.inl hold
      · rw [List.mem_singleton.mp hnew] at hne
        exact absurd hid.symm hne
    · exact Or.inr (Or.inr rfl)
  obtain ⟨before, y', b, he⟩ := hp.expected h hpr hcreate hundone hclosed
  refine ⟨ht.freshContext hs.tables he, ?_, ?_⟩
  · intro r' c' account' hkind hm' hacc' hval
    refine ht.occupancy hs.tables he (hkind ▸ hcreate) hm' hval
      (ht.account_id hpr.mutates hcreate he.before_eq hacc') fun hup => ?_
    rw [hkind] at hup
    simpa [accountSnapshotOf, hup] using hacc'
  · intro hloc hfree
    obtain ⟨_, _, hch⟩ := (h.history.challenges _ hp.authorizes.challenge_mem).chain
    have hmm := Option.some.inj (hch.manifest.symm.trans hpr.manifest)
    have hne := cleanup_ne_nil hk hpr.mutation (hmm ▸ hch.signed.intrinsic)
    obtain ⟨d, hd⟩ := List.exists_mem_of_ne_nil _ hne
    have hd' : (d.locatorKind, d.locatorSha256) ∈ locators value' := by
      rw [hloc]
      exact List.mem_map_of_mem hd
    obtain ⟨d', hd', hsame⟩ := List.mem_map.mp hd'
    obtain ⟨z, hz, hsha⟩ := hpr.locators_reserved hd hlasts
    exact hfree d' hd' z hz (hsha.trans (congrArg Prod.snd hsame).symm)

/-- A reserved locator refuses a new challenge. -/
theorem reserved_refuses {value : AccountMutationManifest} {d : CleanupDescriptor} {x : Cleanup}
    (hd : d ∈ value.cleanup) (hx : x ∈ db.cleanups) (hsame : x.locatorSha256 = d.locatorSha256) :
    validateFreshAccountMutationContext env db value ≠ .ok () := by
  intro h
  simp only [validateFreshAccountMutationContext, bind_ok, ensure_ok] at h
  obtain ⟨_, -, _, -, _, -, _, -, _, -, _, -, -, -, hfree⟩ := h
  have := List.filter_eq_nil_iff.mp (hfree d hd) x hx
  simp [hsame] at this

namespace Sample

/-- The removal, tried again. -/
def removalAgain : AccountMutationManifest :=
  { removal with
    transitionId := uuid 84
    cleanup := [⟨uuid 76, .activeV2, platform.sha256 locator, .provisional⟩] }

theorem removalAgain_fresh {db : Db}
    (ht : db.transitions.map Transition.transitionId = [uuid 80, uuid 83])
    (hc : db.cleanups.map (fun x => (x.cleanupId, x.locatorSha256)) =
      [(uuid 75, platform.sha256 locator)]) : TriedAgain db removal removalAgain := by
  refine ⟨rfl, rfl, Option.Rel.none, fun t hm => ?_, fun _ h => (nomatch h), fun d hd x hm => ?_⟩
  · have hid : t.transitionId ∈ [uuid 80, uuid 83] := ht ▸ List.mem_map_of_mem hm
    intro he
    rw [he] at hid
    exact absurd hid (by decide +kernel)
  · have hid : x.cleanupId ∈ [(uuid 75 : CleanupId)] := by
      have hmem : (x.cleanupId, x.locatorSha256) ∈ [((uuid 75 : CleanupId), platform.sha256 locator)] :=
        hc ▸ List.mem_map_of_mem (f := fun x : Cleanup => (x.cleanupId, x.locatorSha256)) hm
      exact List.mem_singleton.mpr (Prod.mk.inj (List.mem_singleton.mp hmem)).1
    rw [List.mem_singleton.mp hd]
    intro he
    rw [he] at hid
    exact absurd hid (by decide +kernel)

/-- What was signed is the removal, and it passed the check of a new challenge. -/
theorem removal_signed :
    (∃ c ∈ beforeRemoval.challenges, c.grantId = remove.grantUse.grantId ∧
      (accountMutationManifest platform listCodec c .accountRemove).toOption = some removal) ∧
    (validateFreshAccountMutationContext platform beforeRemoval removal).toOption = some () := by
  decide +kernel

/-- The removal, prepared and aborted, cannot be challenged again. -/
theorem removal_refused : ∃ k₁ k₂,
    validateFreshAccountMutationContext platform beforeRemoval removal = .ok () ∧
    prepareAccountTransition platform listCodec realm remove beforeRemoval = .ok k₁ ∧
    applyAccountObservation platform listCodec realm .abort keep k₁.db = .ok k₂ ∧
    TriedAgain k₂.db removal removalAgain ∧ locators removalAgain = locators removal ∧
    validateFreshAccountMutationContext platform k₂.db removalAgain ≠ .ok () := by
  obtain ⟨k₁, hk₁, -, k₂, hk₂, ht, hc⟩ := removal_runs
  refine ⟨k₁, k₂, toOption_eq_some.mp removal_signed.2, hk₁, hk₂, removalAgain_fresh ht hc, rfl, ?_⟩
  have hmem : (uuid 75, platform.sha256 locator) ∈
      k₂.db.cleanups.map fun x => (x.cleanupId, x.locatorSha256) := hc ▸ List.mem_singleton_self _
  obtain ⟨x, hx, hpair⟩ := List.mem_map.mp hmem
  exact reserved_refuses List.mem_cons_self hx (Prod.mk.inj hpair).2

/-- Its challenge is refused for the locator, and for nothing else. -/
theorem removal_needs_another_locator : ∃ k₁ k₂,
    prepareAccountTransition platform listCodec realm remove beforeRemoval = .ok k₁ ∧
    applyAccountObservation platform listCodec realm .abort keep k₁.db = .ok k₂ ∧
    validateFreshAccountMutationContext platform k₂.db removalAgain =
      ensure (LocatorsFree k₂.db removalAgain) accountIdentityConflictError ∧
    ¬LocatorsFree k₂.db removalAgain := by
  obtain ⟨k₁, hk₁, ⟨t, htm, hid, -⟩, k₂, hk₂, ht, hc⟩ := removal_runs
  obtain ⟨⟨c, hcm, hcg, hvalue⟩, -⟩ := removal_signed
  obtain ⟨hcheck, -, hreserved⟩ := aborted_mutation_needs_other_locators (Or.inr rfl) hk₁ removal_new
    ⟨t, htm, hid⟩ ⟨rfl, rfl, rfl⟩ hk₂ ⟨hcm, hcg⟩ (toOption_eq_some.mp hvalue)
    (removalAgain_fresh ht hc)
  exact ⟨k₁, k₂, hk₁, hk₂, hcheck, hreserved rfl⟩

end Sample

end Kirje.Authority
