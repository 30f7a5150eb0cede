import Kirje.Authority.Locators

/-
  File:      Kirje/Authority/Frame.lean
  Subject:   What every committed effect keeps, and what the validator's checks of
             the untouched rows make of it.

  Rows are only added, or change the few columns of their own lifecycle
  (`Continues`).  `Frame` says so for all tables at once; every effect has one.
  From a frame, whatever was loaded before is loaded after, and the checks that read
  nothing but loaded rows keep holding.
-/

namespace Kirje.Authority

open Base

/-! ## 1. How a row may change -/

/-- The transition was finalized or aborted. -/
def Transition.Settled (t : Transition) : Prop := t.state = .finalized ∨ t.state = .aborted

instance (t : Transition) : Decidable t.Settled := inferInstanceAs (Decidable (_ ∨ _))

/-- A transition keeps what was signed, the time of its config commit, and its events. -/
def Transition.Continues (t t' : Transition) : Prop :=
  ∃ state committed finalized resolved,
    t' = { t with
      state := state
      configCommittedAt := committed
      finalizedAt := finalized
      resolvedAt := resolved } ∧
    (∀ at' ∈ t.configCommittedAt, committed = some at') ∧
    ∀ code, reachableEvent t code → reachableEvent t' code

/-- A cleanup keeps what was reserved, and goes on from its state. -/
structure Cleanup.Progress (x : Cleanup) (state : CleanupState) (claim : Option GrantId)
    (deleted : Option Int) : Prop where
  ready : x.state ≠ .provisional → state ≠ .provisional
  claim : ∀ g ∈ x.claimGrantId, claim = some g
  claimed : x.state = .claimed ∨ x.state = .deleted → state = .claimed ∨ state = .deleted
  deleted : x.state = .deleted → state = .deleted ∧ deleted = x.deletedAt

def Cleanup.Continues (x x' : Cleanup) : Prop :=
  ∃ state claim deleted,
    x' = { x with state := state, claimGrantId := claim, deletedAt := deleted } ∧
    x.Progress state claim deleted

/-- A store keeps its place and its enrollment. -/
def Store.Continues (x x' : Store) : Prop :=
  ∃ generation sha256 state updatedAt,
    x' = { x with
      configGeneration := generation
      configSha256 := sha256
      state := state
      updatedAt := updatedAt }

/-- An account keeps its names. -/
def Account.Continues (a a' : Account) : Prop :=
  a'.accountId = a.accountId ∧ a'.storeId = a.storeId ∧ a'.displayIdSha256 = a.displayIdSha256 ∧
    a'.createdAt = a.createdAt

/-- A challenge keeps everything but its state. -/
def Challenge.Continues (c c' : Challenge) : Prop := ∃ state, c' = { c with state := state }

theorem Transition.Continues.refl (t : Transition) : t.Continues t :=
  ⟨t.state, t.configCommittedAt, t.finalizedAt, t.resolvedAt, rfl, fun _ h => h, fun _ h => h⟩

theorem Cleanup.Continues.refl (x : Cleanup) : x.Continues x :=
  ⟨x.state, x.claimGrantId, x.deletedAt, rfl, fun h => h, fun _ h => h, fun h => h,
    fun h => ⟨h, rfl⟩⟩

theorem Store.Continues.refl (x : Store) : x.Continues x :=
  ⟨x.configGeneration, x.configSha256, x.state, x.updatedAt, rfl⟩

theorem Account.Continues.refl (a : Account) : a.Continues a := ⟨rfl, rfl, rfl, rfl⟩

theorem Challenge.Continues.refl (c : Challenge) : c.Continues c := ⟨c.state, rfl⟩

/-! ## 2. Frames -/

/-- **What every effect keeps**; `new` are the events it appends.  What an effect leaves alone is
    filled in by default. -/
structure Frame (db db' : Db) (new : List Event) : Prop where
  tables : TablesOk db
  tables' : TablesOk db'
  trust : db'.keys = db.keys ∧ db'.epochs = db.epochs ∧ db'.effectRows = db.effectRows := by
    exact ⟨rfl, rfl, rfl⟩
  clock : ∃ at', db.metaRow.lastObservedAt ≤ at' ∧ db'.metaRow = (db.clocked at').metaRow
  challenges : ∀ c ∈ db.challenges, ∃ c' ∈ db'.challenges, c.Continues c' := by
    exact fun c hc => ⟨c, hc, Challenge.Continues.refl c⟩
  granted : ∀ c ∈ db.challenges, (∃ g ∈ db.grants, g.grantId = c.grantId) →
      c ∈ db'.challenges := by
    exact fun c hc _ => hc
  receipts : db.receipts ⊆ db'.receipts := by exact List.Subset.refl _
  proofs : ∀ r ∈ db'.receipts, r ∈ db.receipts ∨
      ∃ c ∈ db.challenges, c.challengeId = r.challengeId ∧ c.state = .pending := by
    exact fun r hr => Or.inl hr
  nonces : db.nonces ⊆ db'.nonces := by exact List.Subset.refl _
  grants : db.grants ⊆ db'.grants := by exact List.Subset.refl _
  uses : ∀ g ∈ db'.grants, g ∈ db.grants ∨ ∃ r ∈ db.receipts, r.receiptId = g.receiptId ∧
      ∃ c ∈ db.challenges, c.challengeId = r.challengeId ∧ c.state = .authorized := by
    exact fun g hg => Or.inl hg
  stores : ∀ x ∈ db.stores, ∃ x' ∈ db'.stores, x.Continues x' := by
    exact fun x hx => ⟨x, hx, Store.Continues.refl x⟩
  storeVersions : db.storeVersions ⊆ db'.storeVersions := by exact List.Subset.refl _
  accounts : ∀ a ∈ db.accounts, ∃ a' ∈ db'.accounts, a.Continues a' := by
    exact fun a ha => ⟨a, ha, Account.Continues.refl a⟩
  accountVersions : db.accountVersions ⊆ db'.accountVersions := by exact List.Subset.refl _
  transitions : ∀ t ∈ db.transitions, ∃ t' ∈ db'.transitions, t.Continues t' := by
    exact fun t ht => ⟨t, ht, Transition.Continues.refl t⟩
  settled : ∀ t ∈ db.transitions, t.Settled → t ∈ db'.transitions := by exact fun t ht _ => ht
  credentials : db.credentials ⊆ db'.credentials := by exact List.Subset.refl _
  cleanups : ∀ x ∈ db.cleanups, ∃ x' ∈ db'.cleanups, x.Continues x' := by
    exact fun x hx => ⟨x, hx, Cleanup.Continues.refl x⟩
  events : db'.events = db.events ++ new := by rfl
  fresh_grant : ∀ e ∈ new, e.entityKind = 10 → ∀ g ∈ db.grants, e.entityId ≠ g.grantId.bytes
  fresh_store : ∀ e ∈ new, e.entityKind = 4 → e.eventCode = 8 →
    ∀ x ∈ db.stores, e.entityId ≠ x.storeId.bytes

/-- An update that continues the rows it changes continues every row. -/
theorem exists_mem_update {α : Type} {R : α → α → Prop} {p : α → Bool} {f : α → α} {rows : List α}
    (hr : ∀ x, R x x) (hf : ∀ x, p x = true → R x (f x)) :
    ∀ x ∈ rows, ∃ x' ∈ update p f rows, R x x' := by
  intro x hx
  by_cases hp : p x = true
  · exact ⟨f x, mem_update.mpr ⟨x, hx, by simp [hp]⟩, hf x hp⟩
  · exact ⟨x, mem_update.mpr ⟨x, hx, by simp [hp]⟩, hr x⟩

/-- A row the update does not match is still there. -/
theorem mem_update_of_not {α : Type} {p : α → Bool} {f : α → α} {rows : List α} {x : α}
    (hx : x ∈ rows) (hp : p x = false) : x ∈ update p f rows :=
  mem_update.mpr ⟨x, hx, by simp [hp]⟩

variable {env : Platform} {codec : ManifestCodec} {s : Snapshot} {db db' : Db} {new : List Event}

/-! ## 3. Loads -/

section Loads

variable (f : Frame db db' new)
include f

theorem Frame.realm : db'.metaRow.realmId = db.metaRow.realmId := by
  obtain ⟨at', -, h⟩ := f.clock
  rw [h]
  rfl

theorem Frame.grantUse {id : GrantId} {g : GrantUse} (h : loadGrantUse db id = some g) :
    loadGrantUse db' id = some g := by
  rw [loadGrantUse_iff f.tables] at h
  exact (loadGrantUse_iff f.tables').mpr ⟨f.grants h.1, h.2⟩

theorem Frame.grantUseByReceipt {id : ReceiptId} {g : GrantUse}
    (h : loadGrantUseByReceipt db id = some g) : loadGrantUseByReceipt db' id = some g := by
  rw [loadGrantUseByReceipt_iff f.tables] at h
  exact (loadGrantUseByReceipt_iff f.tables').mpr ⟨f.grants h.1, h.2⟩

theorem Frame.receipt {id : ReceiptId} {r : Receipt} (h : loadReceiptById db id = some r) :
    loadReceiptById db' id = some r := by
  rw [loadReceiptById_iff f.tables] at h
  exact (loadReceiptById_iff f.tables').mpr ⟨f.receipts h.1, h.2⟩

theorem Frame.receiptForChallenge {id : Digest} {r : Receipt}
    (h : loadReceiptForChallenge db id = some r) : loadReceiptForChallenge db' id = some r := by
  rw [loadReceiptForChallenge_iff f.tables] at h
  exact (loadReceiptForChallenge_iff f.tables').mpr ⟨f.receipts h.1, h.2⟩

theorem Frame.nonceUse {id : Digest} {n : NonceUse} (h : loadNonceUse db id = some n) :
    loadNonceUse db' id = some n := by
  rw [loadNonceUse_iff f.tables] at h
  exact (loadNonceUse_iff f.tables').mpr ⟨f.nonces h.1, h.2⟩

theorem Frame.challenge {id : Digest} {c : Challenge} (h : loadChallenge db id = some c) :
    ∃ c', loadChallenge db' id = some c' ∧ c.Continues c' := by
  rw [loadChallenge_iff f.tables] at h
  obtain ⟨c', hc', state, rfl⟩ := f.challenges c h.1
  exact ⟨_, (loadChallenge_iff f.tables').mpr ⟨hc', h.2⟩, state, rfl⟩

theorem Frame.store {id : StoreId} {x : Store} (h : loadRegisteredStoreById db id = some x) :
    ∃ x', loadRegisteredStoreById db' id = some x' ∧ x.Continues x' := by
  rw [loadRegisteredStoreById_iff f.tables] at h
  obtain ⟨x', hx', _, _, _, _, rfl⟩ := f.stores x h.1
  exact ⟨_, (loadRegisteredStoreById_iff f.tables').mpr ⟨hx', h.2⟩, _, _, _, _, rfl⟩

theorem Frame.storeByReceipt {id : ReceiptId} {x : Store}
    (h : loadRegisteredStoreByReceipt db id = some x) :
    ∃ x', loadRegisteredStoreByReceipt db' id = some x' ∧ x.Continues x' := by
  rw [loadRegisteredStoreByReceipt_iff f.tables] at h
  obtain ⟨x', hx', _, _, _, _, rfl⟩ := f.stores x h.1
  exact ⟨_, (loadRegisteredStoreByReceipt_iff f.tables').mpr ⟨hx', h.2⟩, _, _, _, _, rfl⟩

theorem Frame.storeVersionByReceipt {id : ReceiptId} {v : StoreVersion}
    (h : loadStoreVersionByReceipt db id = some v) : loadStoreVersionByReceipt db' id = some v := by
  rw [loadStoreVersionByReceipt_iff f.tables] at h
  exact (loadStoreVersionByReceipt_iff f.tables').mpr ⟨f.storeVersions h.1, h.2⟩

theorem Frame.account {id : AccountId} {a : Account} (h : loadRegisteredAccount db id = some a) :
    ∃ a', loadRegisteredAccount db' id = some a' ∧ a.Continues a' := by
  rw [loadRegisteredAccount_iff f.tables] at h
  obtain ⟨a', ha', hc⟩ := f.accounts a h.1
  exact ⟨a', (loadRegisteredAccount_iff f.tables').mpr ⟨ha', hc.1.trans h.2⟩, hc⟩

theorem Frame.accountVersion {id : AccountId} {n : NonZeroU64} {v : AccountVersion}
    (h : loadAccountVersion db id n = some v) : loadAccountVersion db' id n = some v := by
  rw [loadAccountVersion_iff f.tables] at h
  exact (loadAccountVersion_iff f.tables').mpr ⟨f.accountVersions h.1, h.2⟩

theorem Frame.accountVersionByTransition {id : TransitionId} {v : AccountVersion}
    (h : loadAccountVersionByTransition db id = some v) :
    loadAccountVersionByTransition db' id = some v := by
  rw [loadAccountVersionByTransition_iff f.tables] at h
  exact (loadAccountVersionByTransition_iff f.tables').mpr ⟨f.accountVersions h.1, h.2⟩

theorem Frame.transition {id : TransitionId} {t : Transition}
    (h : loadAccountTransition db id = some t) :
    ∃ t', loadAccountTransition db' id = some t' ∧ t.Continues t' := by
  rw [loadAccountTransition_iff f.tables] at h
  obtain ⟨t', ht', _, _, _, _, rfl, hc⟩ := f.transitions t h.1
  exact ⟨_, (loadAccountTransition_iff f.tables').mpr ⟨ht', h.2⟩, _, _, _, _, rfl, hc⟩

theorem Frame.settledTransition {id : TransitionId} {t : Transition}
    (h : loadAccountTransition db id = some t) (hs : t.Settled) :
    loadAccountTransition db' id = some t := by
  rw [loadAccountTransition_iff f.tables] at h
  exact (loadAccountTransition_iff f.tables').mpr ⟨f.settled t h.1 hs, h.2⟩

theorem Frame.credential {id : CredentialId} {c : Credential} (h : loadCredential db id = some c) :
    loadCredential db' id = some c := by
  rw [loadCredential_iff f.tables] at h
  exact (loadCredential_iff f.tables').mpr ⟨f.credentials h.1, h.2⟩

theorem Frame.cleanup {id : CleanupId} {x : Cleanup} (h : loadCredentialCleanup db id = some x) :
    ∃ x', loadCredentialCleanup db' id = some x' ∧ x.Continues x' := by
  rw [loadCredentialCleanup_iff f.tables] at h
  obtain ⟨x', hx', _, _, _, rfl, hc⟩ := f.cleanups x h.1
  exact ⟨_, (loadCredentialCleanup_iff f.tables').mpr ⟨hx', h.2⟩, _, _, _, rfl, hc⟩

theorem Frame.eventBySequence {n : Nat} {e : Event} (h : loadEventBySequence db n = some e) :
    loadEventBySequence db' n = some e := by
  rw [loadEventBySequence_iff f.tables] at h
  refine (loadEventBySequence_iff f.tables').mpr ⟨?_, h.2⟩
  rw [f.events]
  exact List.mem_append_left _ h.1

theorem Frame.receiptId {t : Transition} {i : ReceiptId} (h : transitionReceiptId db t = some i) :
    transitionReceiptId db' t = some i := by
  simp only [transitionReceiptId, Option.map_eq_some_iff] at h ⊢
  obtain ⟨g, hg, rfl⟩ := h
  exact ⟨g, f.grantUse hg, rfl⟩

theorem Frame.eventsOf_append (k : Nat) (i : Bytes) (c : Nat) :
    eventsOf db' k i c = eventsOf db k i c ++
      new.filter fun e => e.entityKind = k ∧ e.entityId = i ∧ e.eventCode = c := by
  simp only [eventsOf, f.events, List.filter_append]

/-- Without a new event of the entity and code, the events of it are the same. -/
theorem Frame.eventsOf_eq {k : Nat} {i : Bytes} {c : Nat}
    (h : ∀ e ∈ new, ¬(e.entityKind = k ∧ e.entityId = i ∧ e.eventCode = c)) :
    eventsOf db' k i c = eventsOf db k i c := by
  rw [f.eventsOf_append, List.filter_eq_nil_iff.mpr (by simpa using h), List.append_nil]

theorem Frame.singleEvent {k : Nat} {i : Bytes} {c : Nat}
    (h : ∀ e ∈ new, ¬(e.entityKind = k ∧ e.entityId = i ∧ e.eventCode = c)) :
    loadSingleEntityEvent db' k i c = loadSingleEntityEvent db k i c := by
  simp only [loadSingleEntityEvent, f.eventsOf_eq h]

/-- A grant keeps its origin: the challenge of a used grant is not touched. -/
theorem Frame.origin (h : Accepted env codec s db) {id : GrantId} {o : Origin}
    (ho : loadOrigin env codec db id = some o) : loadOrigin env codec db' id = some o := by
  obtain ⟨p, n, hg⟩ := h.originChain ho
  obtain ⟨hgm, hr, hc, hm⟩ := (loadOrigin_iff env codec f.tables).mp ho
  refine (loadOrigin_iff env codec f.tables').mpr ⟨⟨f.grants hgm.1, hgm.2⟩, ⟨f.receipts hr.1, hr.2⟩,
    ⟨f.granted o.challenge hc.1 ⟨o.grant, hgm.1, hg.signed.grant_id⟩, hc.2⟩, hm⟩

theorem Frame.lastObserved : db.metaRow.lastObservedAt ≤ db'.metaRow.lastObservedAt := by
  obtain ⟨at', hle, h⟩ := f.clock
  rw [h]
  exact hle

/-- The trust rows spell out the same snapshot. -/
theorem Frame.trustLoads (h : loadTrust env db = .ok s) :
    loadTrust env db' = .ok s := by
  obtain ⟨hk, he, hf⟩ := f.trust
  obtain ⟨at', hle, hm⟩ := f.clock
  simp only [loadTrust, bind_ok, orRefuse_ok, ensure_ok, pure_ok] at h ⊢
  obtain ⟨e, hfe, ok, hfo, rk, hfr, _, hok, rfl⟩ := h
  refine ⟨e, by rw [he, hm]; exact hfe, ok, by rw [hk]; exact hfo, rk, by rw [hk]; exact hfr, (), ?_,
    by rw [hm]; rfl⟩
  obtain ⟨hrows, hactive, hepoch, howner, hrec, hclock, hconf, hpub, hids, hbundle⟩ := hok
  refine ⟨by rw [hk, he, hf]; exact hrows, ?_, ?_, ?_, ?_, ?_, ?_, hpub, hids, ?_⟩
  · rw [hm]; exact hactive
  · rw [hm]; exact hepoch
  · rw [hm]; exact howner
  · rw [hm]; exact hrec
  · rw [hm]; exact ⟨hclock.1, hclock.2.1.trans hle, rfl⟩
  · intro t ht
    rw [hm] at ht ⊢
    exact ⟨(hconf t ht).1, (hconf t ht).2.trans hle⟩
  · rw [hm]; exact hbundle

end Loads

/-! ## 4. Checks of the registry -/

theorem InitialVersion.continues {v : StoreVersion} {x x' : Store} {e : StoreEnrollmentContext}
    {i : ReceiptId} (h : InitialVersion v x e i) (hc : x.Continues x') : InitialVersion v x' e i := by
  obtain ⟨_, _, _, _, rfl⟩ := hc
  exact ⟨h.utc, h.store_id, h.location, h.pair, h.receipt, h.created_at⟩

section Checks

variable (f : Frame db db' new)
include f

theorem Frame.cleanupContext (h : Accepted env codec s db) {m : ActionManifest}
    (hc : validateCredentialCleanupContext env codec db s m false = .ok ()) :
    validateCredentialCleanupContext env codec db' s m false = .ok () := by
  simp only [validateCredentialCleanupContext, loadCleanupOrigin, loadCleanupTransition, bind_ok,
    orRefuse_ok, ensure_ok, pure_ok, Bool.false_eq_true, false_implies, exists_const, and_true]
    at hc ⊢
  obtain ⟨value, hv, x, ⟨⟨c, t⟩, ⟨i, hi, hready, c₀, hc₀, j, hj, hji, t₀, ht₀, hst, hpair⟩, o, ho,
    mutation, hmut, before, hb, hids, d, hd, rfl⟩, hdesc, hmat, hver, htomb⟩ := hc
  obtain ⟨rfl, rfl⟩ := Prod.mk.inj hpair
  obtain ⟨c', hc', state, claim, deleted, rfl, -⟩ := f.cleanup hc₀
  refine ⟨value, hv, ⟨{ c₀ with state := state, claimGrantId := claim, deletedAt := deleted }, t₀, o,
    mutation, before, d⟩, ⟨(_, t₀), ⟨i, hi, hready, _, hc', j, hj, hji, t₀,
    f.settledTransition ht₀ (Or.inl hst.1), hst, rfl⟩, o, f.origin h ho, mutation, hmut, before, hb,
    hids, d, hd, rfl⟩, hdesc, hmat, ?_, htomb⟩
  -- the version is still there, and there is never a second one under its key
  obtain ⟨v, hv⟩ := List.length_eq_one_iff.mp hver
  have hvm := List.mem_filter.mp (hv ▸ List.mem_singleton_self v)
  refine length_filter_eq_one f.tables'.accountVersions.key_unique (f.accountVersions hvm.1) hvm.2 ?_
  intro w _ hw
  have hvp := hvm.2
  simp only [decide_eq_true_eq] at hw hvp
  rw [Prod.mk.injEq]
  exact ⟨hw.1.trans hvp.1.symm, hw.2.2.1.trans hvp.2.2.1.symm⟩

theorem Frame.committedVersion {v : StoreVersion} {i : TransitionId}
    (h : CommittedVersion db v i) : CommittedVersion db' v i := by
  obtain ⟨he, t, ht, hs, hg, hc, hcom⟩ := h
  obtain ⟨t', ht', _, c, _, _, rfl, hcc, -⟩ := f.transition ht
  exact ⟨he, _, ht', hs, hg, hc, hcc _ hcom⟩

theorem Frame.enrolledVersion {v : StoreVersion} (hv : EnrolledVersion env codec db v) :
    EnrolledVersion env codec db' v := by
  obtain ⟨i, hi, r, hr, c, hc, m, hm, e, he, x, hx, g, hg, hu, hinit⟩ := hv
  obtain ⟨c', hc', state, rfl⟩ := f.challenge hc
  obtain ⟨x', hx', hcont⟩ := f.store hx
  exact ⟨i, hi, r, f.receipt hr, _, hc', m, hm, e, he, x', hx', g, f.grantUseByReceipt hg, hu,
    hinit.continues hcont⟩

theorem Frame.storeVersionOk {v : StoreVersion} (hv : StoreVersionOk env codec db v) :
    StoreVersionOk env codec db' v := by
  unfold StoreVersionOk at hv ⊢
  split at hv
  · exact f.committedVersion hv
  · exact f.enrolledVersion hv

theorem Frame.registryEvents {g : GrantUse} {x x' : Store} (hg : g ∈ db.grants)
    (hx : x ∈ db.stores) (hid : x'.storeId = x.storeId) (h : RegistryEvents env db g x) :
    RegistryEvents env db' g x' := by
  obtain ⟨a, ha, b, hb, hseq, hsa, hsb⟩ := h
  refine ⟨a, ?_, b, ?_, hseq, hsa, by rw [hid]; exact hsb⟩
  · rw [Option.mem_def, f.singleEvent]
    · exact ha
    · rintro e he ⟨hk, hi, -⟩
      exact f.fresh_grant e he hk g hg hi
  · rw [Option.mem_def, hid, f.singleEvent]
    · exact hb
    · rintro e he ⟨hk, hi, hc⟩
      exact f.fresh_store e he hk hc x hx hi

theorem Frame.enrollmentLeft {g : GrantUse} {r : Receipt} {m : ActionManifest}
    (hg : g ∈ db.grants) (h : EnrollmentLeft env db g r m) : EnrollmentLeft env db' g r m := by
  obtain ⟨e, he, x, hx, v, hv, hids, hinit, hev⟩ := h
  obtain ⟨x', hx', hcont⟩ := f.storeByReceipt hx
  have hxm := (loadRegisteredStoreByReceipt_iff f.tables).mp hx
  refine ⟨e, he, x', hx', v, f.storeVersionByReceipt hv, ?_, hinit.continues hcont, ?_⟩
  · obtain ⟨_, _, _, _, rfl⟩ := hcont
    exact hids
  · obtain ⟨_, _, _, _, rfl⟩ := hcont
    exact f.registryEvents hg hxm.1 rfl hev

theorem Frame.cleanupLeft {g : GrantUse} {m : ActionManifest} (h : CleanupLeft db g m) :
    CleanupLeft db' g m := by
  obtain ⟨i, hi, x, hx, value, hv, hid, ht, hk, hsha, hclaim, hst⟩ := h
  obtain ⟨x', hx', state, claim, deleted, rfl, hp⟩ := f.cleanup hx
  exact ⟨i, hi, _, hx', value, hv, hid, ht, hk, hsha, hp.claim _ hclaim, hp.claimed hst⟩

/-- **A used grant stays valid**, if every transition does. -/
theorem Frame.grantOk (h : Accepted env codec s db) {g : GrantUse} (hg : g ∈ db.grants)
    (ht : ∀ t ∈ db'.transitions, TransitionOk env codec db' t) : GrantOk env codec db' g := by
  have hok := h.history.grants g hg
  obtain ⟨o, p, n, hc⟩ := h.grantChain hg
  have ho := (loadOrigin_iff env codec f.tables').mp (f.origin h hc.load)
  refine ⟨hok.utc, hok.kind, hok.shape, hok.transcript, hok.sha256, o.receipt, ?_, o.challenge, ?_,
    hc.signed, ?_⟩
  · exact (loadReceiptById_iff f.tables').mpr ⟨ho.2.1.1, hc.link.1⟩
  · exact (loadChallenge_iff f.tables').mpr ho.2.2.1
  · rcases grantLeft_iff.mp hc.left with ⟨kind, hk, t, htm, -⟩ | ⟨hk, m, hm, hl⟩ | ⟨hk, m, hm, hl⟩
    · rw [Option.mem_def, loadAccountTransitionByGrant_iff f.tables] at htm
      obtain ⟨t', ht', _, _, _, _, rfl, -⟩ := f.transitions t htm.1
      exact grantLeft_iff.mpr (Or.inl ⟨kind, hk, _,
        (loadAccountTransitionByGrant_iff f.tables').mpr ⟨ht', htm.2⟩, ht _ ht'⟩)
    · exact grantLeft_iff.mpr (Or.inr (Or.inl ⟨hk, m, hm, f.cleanupLeft hl⟩))
    · exact grantLeft_iff.mpr (Or.inr (Or.inr ⟨hk, m, hm, f.enrollmentLeft hg hl⟩))

/-- No grant is used for the receipt of an expired challenge. -/
theorem Frame.unused {c : Challenge} {r : Receipt} (hc : c ∈ db.challenges) (hr : r ∈ db.receipts)
    (hcr : c.challengeId = r.challengeId) (hst : c.state = .expired)
    (h : (db.grants.filter fun g => g.receiptId = r.receiptId) = []) :
    (db'.grants.filter fun g => g.receiptId = r.receiptId) = [] := by
  rw [List.filter_eq_nil_iff] at h ⊢
  intro g hg
  rcases f.uses g hg with hold | ⟨r', hr', hid, c', hc', hcid, hauth⟩
  · exact h g hold
  · simp only [decide_eq_true_eq]
    intro he
    have hrr : r' = r := eq_of_key_eq f.tables.receipts.id_unique hr' hr (hid.trans he)
    have hcc : c' = c := eq_of_key_eq f.tables.challenges.id_unique hc' hc
      (hcid.trans (hrr ▸ hcr.symm))
    rw [hcc, hst] at hauth
    cases hauth

/-- Without a new receipt of it, a challenge stands with its receipt as before. -/
theorem Frame.challengeReceipt {c : Challenge} (hc : c ∈ db.challenges)
    (hr : ∀ r ∈ db'.receipts, r.challengeId = c.challengeId → r ∈ db.receipts)
    (hn : ∀ n ∈ db'.nonces, n.challengeId = c.challengeId → n ∈ db.nonces)
    (h : ChallengeReceipt env db s c) : ChallengeReceipt env db' s c := by
  rw [challengeReceipt_iff] at h ⊢
  rcases h with ⟨hst, hlr, hln⟩ | ⟨r, n, hlr, hln, hok, hst⟩
  · refine Or.inl ⟨hst, ?_, ?_⟩
    · by_contra hne
      obtain ⟨r, hr'⟩ := Option.ne_none_iff_exists'.mp hne
      rw [loadReceiptForChallenge_iff f.tables'] at hr'
      have := (loadReceiptForChallenge_iff f.tables).mpr ⟨hr r hr'.1 hr'.2, hr'.2⟩
      rw [hlr] at this
      cases this
    · by_contra hne
      obtain ⟨n, hn'⟩ := Option.ne_none_iff_exists'.mp hne
      rw [loadNonceUse_iff f.tables'] at hn'
      have := (loadNonceUse_iff f.tables).mpr ⟨hn n hn'.1 hn'.2, hn'.2⟩
      rw [hln] at this
      cases this
  · refine Or.inr ⟨r, n, f.receiptForChallenge hlr, f.nonceUse hln, hok,
      hst.imp id fun hexp => ⟨hexp.1, ?_⟩⟩
    rw [loadReceiptForChallenge_iff f.tables] at hlr
    exact f.unused hc hlr.1 hlr.2.symm hexp.1 hexp.2

/-- **A challenge stays valid**, in whatever state it is left with its receipt. -/
theorem Frame.challengeOk (h : Accepted env codec s db) {c c' : Challenge}
    (hc : c ∈ db.challenges) (hcont : c.Continues c') (hne : c'.state ≠ .invalidated)
    (hr : ChallengeReceipt env db' s c') : ChallengeOk env codec db' s c' := by
  obtain ⟨state, rfl⟩ := hcont
  have hok := h.history.challenges c hc
  obtain ⟨m, p, hch⟩ := hok.chain
  have hs := hch.signed
  refine ⟨hok.utc, ⟨hne, hok.state.2⟩, hok.lifetime, hok.issued.trans f.lastObserved, hok.supported,
    ⟨m, hch.manifest, ⟨p, hch.payload, ?_⟩, fun ha => ?_⟩, hr⟩
  · exact ⟨hs.manifest, hs.payload, hs.realm, hs.target, hs.context, hs.signer, hs.times, hs.effects,
      hs.trust, hs.context_sha, hs.intrinsic⟩
  · rw [f.cleanupContext h (hch.cleanup ha)]
    rfl

/-- **A store stays valid** if its row and its replay do. -/
theorem Frame.storeOk (h : Accepted env codec s db) {x x' : Store} (hx : x ∈ db.stores)
    (hcont : x.Continues x') (hst : x'.state ≠ .removed)
    (hupd : Representable x'.updatedAt ∧ x'.createdAt ≤ x'.updatedAt)
    (htouched : x' = x ∨ ∃ t ∈ db'.transitions, t.storeId = x'.storeId)
    (hex : ∀ v, loadStoreVersionByReceipt db x.enrolledReceiptId = some v →
      StoreEventsExact env db x v → StoreEventsExact env db' x' v) :
    StoreOk env codec db' x' := by
  obtain ⟨generation, sha, state, updatedAt, rfl⟩ := hcont
  have hok := h.history.stores x hx
  obtain ⟨r, hr, ⟨g, hg, hgu⟩, v, hv, ⟨c, hc, m, hm, e, he, hinit, hun⟩, hev⟩ := hok.chain
  obtain ⟨c', hc', cstate, rfl⟩ := f.challenge hc
  have hrid := ((loadReceiptById_iff f.tables).mp hr).2
  refine ⟨⟨hok.utc.1, hupd.1⟩, ⟨hst, hok.row.2.1, hupd.2, hok.row.2.2.2⟩, r, f.receipt hr,
    ⟨g, f.grantUseByReceipt hg, hgu⟩, v, f.storeVersionByReceipt hv, ⟨_, hc', m, hm, e, he,
    hinit.continues ⟨_, _, _, _, rfl⟩, ?_⟩, hex v (hrid ▸ hv) hev⟩
  intro hnone
  rcases htouched with hsame | ⟨t, ht, hts⟩
  · -- an untouched row was untouched before
    rw [hsame] at hnone ⊢
    refine hun (List.filter_eq_nil_iff.mpr fun t ht => ?_)
    obtain ⟨t', ht', _, _, _, _, rfl, -⟩ := f.transitions t ht
    have hnot := List.filter_eq_nil_iff.mp hnone _ ht'
    simpa using hnot
  · exact absurd hts (by simpa using List.filter_eq_nil_iff.mp hnone t ht)

end Checks

/-! ## 5. The log -/

/-- The receipt of an accepted transition. -/
theorem receiptId_of_origin {db : Db} {t : Transition} {o : Origin} (h : TablesOk db)
    (ho : loadOrigin env codec db t.grantId = some o) :
    transitionReceiptId db t = some o.receipt.receiptId := by
  obtain ⟨hg, hr, -⟩ := (loadOrigin_iff env codec h).mp ho
  simp only [transitionReceiptId, Option.map_eq_some_iff]
  exact ⟨o.grant, (loadGrantUse_iff h).mpr hg, hr.2.symm⟩

theorem challengeSlot_eq_none {c : Challenge} {code : Nat} :
    challengeSlot db c code = some none ↔ eventsOf db 8 c.challengeId.bytes code = [] := by
  unfold challengeSlot
  split <;> simp_all

/-- A pending challenge has neither of the later events. -/
theorem Accepted.pending_events (h : Accepted env codec s db) {c : Challenge}
    (hc : c ∈ db.challenges) (hst : c.state = .pending) :
    eventsOf db 8 c.challengeId.bytes 4 = [] ∧ eventsOf db 8 c.challengeId.bytes 5 = [] := by
  have hg := (h.log.lifecycles c hc).1
  simp only [challengeEventGraph, hst, Option.isSome_iff_exists, Option.bind_eq_bind,
    Option.bind_eq_some_iff] at hg
  obtain ⟨_, created, -, authorized, ha, expired, he, _, -, terminal, ht, -⟩ := hg
  cases authorized <;> cases expired <;> simp only [terminalSequence, reduceCtorEq] at ht
  exact ⟨challengeSlot_eq_none.mp ha, challengeSlot_eq_none.mp he⟩

section Log

variable (f : Frame db db' new)
include f

theorem Frame.challengeEvent (h : Accepted env codec s db) {e : Event} (he : e ∈ db.events)
    (hk : e.entityKind = 8) (hok : ChallengeEventOk env codec db e) :
    ChallengeEventOk env codec db' e := by
  obtain ⟨i, hi, c, hc, spec, hspec, his, hseq⟩ := hok
  obtain ⟨c', hc', state, rfl⟩ := f.challenge hc
  refine ⟨i, hi, _, hc', spec, ?_, his, hseq⟩
  have hlast := f.lastObserved
  rw [Option.mem_def] at hspec ⊢
  unfold challengeEventSpec at hspec ⊢
  split at hspec
  · exact hspec
  · rw [Option.map_eq_some_iff] at hspec ⊢
    obtain ⟨r, hr, hs⟩ := hspec
    exact ⟨r, f.receiptForChallenge hr, hs⟩
  · next hcode =>
      simp only [Option.bind_eq_bind, Option.bind_eq_some_iff, guard_some] at hspec ⊢
      obtain ⟨_, ⟨hexp, hle⟩, hs⟩ := hspec
      refine ⟨(), ⟨hexp, hle.trans hlast⟩, ?_⟩
      cases hr : loadReceiptForChallenge db c.challengeId with
      | some r =>
          rw [hr] at hs
          rw [show loadReceiptForChallenge db' c.challengeId = some r from f.receiptForChallenge hr]
          exact hs
      | none =>
          rw [hr] at hs
          -- a receipt that came since proves a challenge that was pending, without this event
          have hnone : loadReceiptForChallenge db' c.challengeId = none := by
            by_contra hne
            obtain ⟨r, hr'⟩ := Option.ne_none_iff_exists'.mp hne
            rw [loadReceiptForChallenge_iff f.tables'] at hr'
            rcases f.proofs r hr'.1 with hold | ⟨x, hx, hxid, hpend⟩
            · have := (loadReceiptForChallenge_iff f.tables).mpr ⟨hold, hr'.2⟩
              rw [hr] at this
              cases this
            · have hcm := (loadChallenge_iff f.tables).mp hc
              have hxc : x = c := eq_of_key_eq f.tables.challenges.id_unique hx hcm.1
                (hxid.trans hr'.2)
              have hnil := (h.pending_events hcm.1 (hxc ▸ hpend)).2
              rw [eventsOf, List.filter_eq_nil_iff] at hnil
              have hid : e.entityId = c.challengeId.bytes := by
                rw [hcm.2, Digest.ofBytes?_eq_some.mp hi]
              exact hnil e he (by simp [hk, hid, hcode])
          rw [show loadReceiptForChallenge db' c.challengeId = none from hnone]
          exact hs
  · cases hspec

theorem Frame.cleanupEvents {e : Event} :
    (CleanupReadyEventOk env db e → CleanupReadyEventOk env db' e) ∧
    (CleanupClaimedEventOk env db e → CleanupClaimedEventOk env db' e) ∧
    (CleanupDeletedEventOk env db e → CleanupDeletedEventOk env db' e) := by
  refine ⟨?_, ?_, ?_⟩
  · rintro ⟨i, hi, x, hx, j, hj, t, ht, r, hr, at', hat, hst, hfin, his⟩
    obtain ⟨x', hx', state, claim, deleted, rfl, hp⟩ := f.cleanup hx
    exact ⟨i, hi, _, hx', j, hj, t, f.settledTransition ht (Or.inl hfin), r, f.receiptId hr, at', hat,
      hp.ready hst, hfin, his⟩
  · rintro ⟨i, hi, x, hx, gi, hgi, g, hg, hst, his⟩
    obtain ⟨x', hx', state, claim, deleted, rfl, hp⟩ := f.cleanup hx
    exact ⟨i, hi, _, hx', gi, hp.claim gi hgi, g, f.grantUse hg, hp.claimed hst, his⟩
  · rintro ⟨i, hi, x, hx, gi, hgi, g, hg, at', hat, hst, his⟩
    obtain ⟨x', hx', state, claim, deleted, rfl, hp⟩ := f.cleanup hx
    obtain ⟨hdel, hat'⟩ := hp.deleted hst
    exact ⟨i, hi, _, hx', gi, hp.claim gi hgi, g, f.grantUse hg, at', hat' ▸ hat, hdel, his⟩

theorem Frame.transitionEvent {e : Event}
    (ht : ∀ t ∈ db'.transitions, TransitionOk env codec db' t) (hok : TransitionEventOk env db e) :
    TransitionEventOk env db' e := by
  obtain ⟨i, hi, t, hload, r, hr, -, hreach, hsha⟩ := hok
  obtain ⟨t', ht', hcont⟩ := f.transition hload
  have htm := (loadAccountTransition_iff f.tables').mp ht'
  obtain ⟨o, ho, value, -, account, -, a, -, hchecks⟩ := ht t' htm.1
  obtain ⟨_, _, _, _, rfl, -, hmono⟩ := hcont
  exact ⟨i, hi, _, ht', o.receipt.receiptId, receiptId_of_origin f.tables' ho, hchecks.events,
    hmono _ hreach, hsha⟩

theorem Frame.registryEvent {e : Event} :
    (StoreEventOk env db e → StoreEventOk env db' e) ∧
    (GrantEventOk env db e → GrantEventOk env db' e) ∧
    (EnrolledEventOk env db e → EnrolledEventOk env db' e) := by
  refine ⟨?_, ?_, ?_⟩
  · rintro ⟨i, hi, hx, hd, hsha⟩
    obtain ⟨x, hx⟩ := Option.isSome_iff_exists.mp hx
    obtain ⟨x', hx', -⟩ := f.store hx
    exact ⟨i, hi, by simp [hx'], hd, hsha⟩
  · rintro ⟨i, hi, g, hg, his⟩
    exact ⟨i, hi, g, f.grantUse hg, his⟩
  · rintro ⟨i, hi, x, hx, r, hr, g, hg, his⟩
    obtain ⟨x', hx', _, _, _, _, rfl⟩ := f.store hx
    exact ⟨i, hi, _, hx', r, f.receipt hr, g, f.grantUseByReceipt hg, his⟩

/-- **The rows of the log stay valid**, if every transition does. -/
theorem Frame.logRow (h : Accepted env codec s db)
    (ht : ∀ t ∈ db'.transitions, TransitionOk env codec db' t) {e : Event} (he : e ∈ db.events) :
    LogRowOk env codec db' e := by
  have hok := h.log.rows e he
  obtain ⟨at', -, hm⟩ := f.clock
  unfold LogRowOk at hok ⊢
  split at hok
  · rw [hm]
    exact hok
  · rw [hm]
    exact hok
  · unfold EventRowOk at hok ⊢
    split at hok
    · next hk => exact f.challengeEvent h he hk hok
    · exact f.cleanupEvents.1 hok
    · exact f.cleanupEvents.2.1 hok
    · exact f.cleanupEvents.2.2 hok
    · exact f.transitionEvent ht hok
    · exact f.transitionEvent ht hok
    · exact f.transitionEvent ht hok
    · exact f.transitionEvent ht hok
    · exact f.transitionEvent ht hok
    · exact f.registryEvent.1 hok
    · exact f.registryEvent.2.1 hok
    · exact f.registryEvent.2.2 hok
    · cases hok

end Log

end Kirje.Authority
