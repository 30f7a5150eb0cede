import Kirje.Authority.Mutations

/-
  File:      Kirje/Authority/Chain.lean
  Subject:   What acceptance says of each row, with its chain of origin spelt out.

  * `Accepted.grantChain`: a grant, its receipt, its challenge and the manifest.
  * `Accepted.transitionChain`: a transition, its grant's chain, its mutation and
    its account.
  * `Accepted.cleanupChain`: a cleanup and the descriptor that reserved it.

  Later proofs use these and do not unfold the validator.
-/

namespace Kirje.Authority

open Base

variable {env : Platform} {codec : ManifestCodec} {s : Snapshot} {db : Db}

/-! ## 1. Parts of acceptance -/

section Parts

variable (h : Accepted env codec s db)
include h

theorem Accepted.schema : SchemaOk db := ((accepted_iff env codec).mp h).1

theorem Accepted.tables : TablesOk db := h.schema.tables

theorem Accepted.trust : loadTrust env db = .ok s := ((accepted_iff env codec).mp h).2.2.1

theorem Accepted.history : HistoryOk env codec db s :=
  ((accepted_iff env codec).mp h).2.2.2.2.1

theorem Accepted.log : LogOk env codec db := ((accepted_iff env codec).mp h).2.2.2.2.2

/-- The trust rows behind the snapshot. -/
theorem Accepted.trustOk : ∃ e ok rk, TrustOk env db e ok rk ∧ s = snapshotOf db.metaRow ok rk := by
  have ht := h.trust
  simp only [loadTrust, bind_ok, orRefuse_ok, ensure_ok, pure_ok] at ht
  obtain ⟨e, _, ok, _, rk, _, _, hok, rfl⟩ := ht
  exact ⟨e, ok, rk, hok, rfl⟩

theorem Accepted.realm : db.metaRow.realmId = s.realmId := by
  obtain ⟨e, ok, rk, _, rfl⟩ := h.trustOk
  rfl

/-- The clock pair is one value. -/
theorem Accepted.clock : db.metaRow.updatedAt = db.metaRow.lastObservedAt := by
  obtain ⟨e, ok, rk, hok, _⟩ := h.trustOk
  exact hok.clock.2.2

end Parts

/-! ## 2. Challenges and receipts -/

/-- **The four ways a challenge goes with its receipt.** -/
theorem challengeReceipt_iff {c : Challenge} : ChallengeReceipt env db s c ↔
    ((c.state = .pending ∨ c.state = .expired) ∧ loadReceiptForChallenge db c.challengeId = none ∧
      loadNonceUse db c.challengeId = none) ∨
    ∃ r n, loadReceiptForChallenge db c.challengeId = some r ∧
      loadNonceUse db c.challengeId = some n ∧ ReceiptOk env s c r n ∧
      (c.state = .authorized ∨
        c.state = .expired ∧ (db.grants.filter fun g => g.receiptId = r.receiptId) = []) := by
  unfold ChallengeReceipt
  cases c.state <;> cases loadReceiptForChallenge db c.challengeId <;>
    cases loadNonceUse db c.challengeId <;> simp

/-- A stored challenge reads back as the manifest and the transcript it is checked against. -/
structure ChallengeChain (env : Platform) (codec : ManifestCodec) (db : Db) (s : Snapshot)
    (c : Challenge) (m : ActionManifest) (p : AuthorizationPayload) : Prop where
  manifest : manifestOf env codec c = some m
  payload : payloadOf env c = some p
  valid : m.Valid env
  signed : ChallengeSigned env s c m p
  cleanup : c.action = .credentialCleanup →
    validateCredentialCleanupContext env codec db s m false = .ok ()

theorem parse_of_manifestOf {c : Challenge} {m : ActionManifest}
    (h : manifestOf env codec c = some m) : ActionManifest.parse env codec c.manifest = .ok m := by
  unfold manifestOf at h
  cases hp : ActionManifest.parse env codec c.manifest with
  | error e => simp [hp, Except.toOption] at h
  | ok m' =>
      rw [hp] at h
      rw [Option.some.inj h]

theorem valid_of_manifestOf {c : Challenge} {m : ActionManifest}
    (h : manifestOf env codec c = some m) : m.Valid env :=
  (ActionManifest.parse_ok env codec (parse_of_manifestOf h)).1

theorem isOk_unit {ε : Type} {x : Except ε Unit} (h : x.isOk) : x = .ok () := by
  cases x with
  | error e => simp [Except.isOk, Except.toBool] at h
  | ok u => rfl

theorem ChallengeOk.chain {c : Challenge} (h : ChallengeOk env codec db s c) :
    ∃ m p, ChallengeChain env codec db s c m p := by
  obtain ⟨m, hm, ⟨p, hp, hs⟩, hc⟩ := h.signed
  exact ⟨m, p, hm, hp, valid_of_manifestOf hm, hs, fun ha => isOk_unit (hc ha)⟩

/-- **A grant with its origin**: the receipt proves the challenge, the challenge signs the
    manifest. -/
structure GrantChain (env : Platform) (codec : ManifestCodec) (s : Snapshot) (db : Db)
    (g : GrantUse) (o : Origin) (p : AuthorizationPayload) (n : NonceUse) : Prop where
  load : loadOrigin env codec db g.grantId = some o
  grant : o.grant = g
  receipt_mem : o.receipt ∈ db.receipts
  challenge_mem : o.challenge ∈ db.challenges
  link : o.receipt.receiptId = g.receiptId ∧ o.challenge.challengeId = o.receipt.challengeId
  ok : GrantOk env codec db g
  signed : GrantSigned g o.receipt o.challenge
  challenge : ChallengeChain env codec db s o.challenge o.manifest p
  receipt : ReceiptOk env s o.challenge o.receipt n
  left : GrantLeft env codec db g o.receipt o.challenge

theorem Accepted.grantChain (h : Accepted env codec s db) {g : GrantUse} (hg : g ∈ db.grants) :
    ∃ o p n, GrantChain env codec s db g o p n := by
  have hok := h.history.grants g hg
  obtain ⟨r, hr, c, hc, hs, hl⟩ := hok.chain
  rw [Option.mem_def, loadReceiptById_iff h.tables] at hr
  rw [Option.mem_def, loadChallenge_iff h.tables] at hc
  have hcok := h.history.challenges c hc.1
  obtain ⟨m, p, hch⟩ := hcok.chain
  -- the challenge of a used grant is authorized, so its receipt is the proved one
  rcases challengeReceipt_iff.mp hcok.receipt with ⟨hst, -⟩ | ⟨r', n, hr', -, hrok, -⟩
  · rw [hs.state] at hst
    simp at hst
  · rw [loadReceiptForChallenge_iff h.tables] at hr'
    have hrr : r' = r := eq_of_key_eq h.tables.receipts.challenge_unique hr'.1 hr.1
      (hr'.2.trans hc.2)
    subst hrr
    refine ⟨⟨g, r', c, m⟩, p, n, ?_, rfl, hr.1, hc.1, ⟨hr.2, hc.2⟩, hok, hs, hch, hrok, hl⟩
    exact (loadOrigin_iff env codec h.tables).mpr ⟨⟨hg, rfl⟩, hr, hc, hch.manifest⟩

/-- The grant of an origin. -/
theorem Accepted.grant_of_origin (h : Accepted env codec s db) {id : GrantId} {o : Origin}
    (ho : loadOrigin env codec db id = some o) :
    o.grant ∈ db.grants ∧ o.grant.grantId = id :=
  ((loadOrigin_iff env codec h.tables).mp ho).1

/-- An origin that loads is that of its grant's chain. -/
theorem Accepted.originChain (h : Accepted env codec s db) {id : GrantId} {o : Origin}
    (ho : loadOrigin env codec db id = some o) :
    ∃ p n, GrantChain env codec s db o.grant o p n := by
  have hg := h.grant_of_origin ho
  obtain ⟨o', p, n, hc⟩ := h.grantChain hg.1
  have hoo : o' = o := by
    have := hc.load
    rw [hg.2, ho] at this
    exact (Option.some.inj this).symm
  subst hoo
  exact ⟨p, n, hc.grant.symm ▸ hc⟩

/-! ## 3. What a grant left behind -/

/-- **The three kinds of traces.** -/
theorem grantLeft_iff {g : GrantUse} {r : Receipt} {c : Challenge} :
    GrantLeft env codec db g r c ↔
      (∃ kind : TransitionKind, g.action = kind.action ∧
        ∃ t ∈ loadAccountTransitionByGrant db g.grantId, TransitionOk env codec db t) ∨
      (g.action = .credentialCleanup ∧ ∃ m ∈ manifestOf env codec c, CleanupLeft db g m) ∨
      (g.action = .storeEnroll ∧ ∃ m ∈ manifestOf env codec c, EnrollmentLeft env db g r m) := by
  have hkind : ∀ action : SensitiveAction, (∃ kind : TransitionKind, action = kind.action) ↔
      action = .accountCreate ∨ action = .accountUpdate ∨ action = .accountRemove ∨
        action = .credentialSet ∨ action = .credentialDelete := by
    intro action
    constructor
    · rintro ⟨kind, rfl⟩
      cases kind <;> simp [TransitionKind.action]
    · rintro (rfl | rfl | rfl | rfl | rfl)
      · exact ⟨.accountCreate, rfl⟩
      · exact ⟨.accountUpdate, rfl⟩
      · exact ⟨.accountRemove, rfl⟩
      · exact ⟨.credentialSet, rfl⟩
      · exact ⟨.credentialDelete, rfl⟩
  rw [show (∃ kind : TransitionKind, g.action = kind.action ∧
      ∃ t ∈ loadAccountTransitionByGrant db g.grantId, TransitionOk env codec db t) ↔
    (∃ kind : TransitionKind, g.action = kind.action) ∧
      ∃ t ∈ loadAccountTransitionByGrant db g.grantId, TransitionOk env codec db t
    from exists_and_right, hkind]
  unfold GrantLeft
  cases g.action <;> simp

theorem GrantLeft.transition {g : GrantUse} {r : Receipt} {c : Challenge} {kind : TransitionKind}
    (h : GrantLeft env codec db g r c) (hk : g.action = kind.action) :
    ∃ t ∈ loadAccountTransitionByGrant db g.grantId, TransitionOk env codec db t := by
  rcases grantLeft_iff.mp h with ⟨-, -, ht⟩ | ⟨ha, -⟩ | ⟨ha, -⟩
  · exact ht
  · cases kind <;> simp [TransitionKind.action, ha] at hk
  · cases kind <;> simp [TransitionKind.action, ha] at hk

theorem GrantLeft.enrollment {g : GrantUse} {r : Receipt} {c : Challenge}
    (h : GrantLeft env codec db g r c) (hk : g.action = .storeEnroll) :
    ∃ m ∈ manifestOf env codec c, EnrollmentLeft env db g r m := by
  unfold GrantLeft at h
  rwa [hk] at h

theorem GrantLeft.cleanup {g : GrantUse} {r : Receipt} {c : Challenge}
    (h : GrantLeft env codec db g r c) (hk : g.action = .credentialCleanup) :
    ∃ m ∈ manifestOf env codec c, CleanupLeft db g m := by
  unfold GrantLeft at h
  rwa [hk] at h

/-! ## 4. Transitions -/

/-- **A transition with its origin**: what its owner signed, and the account it changes. -/
structure TransitionChain (env : Platform) (codec : ManifestCodec) (db : Db) (t : Transition)
    (o : Origin) (value : AccountMutationManifest) (account : AccountSnapshot) (a : Account) :
    Prop where
  load : loadOrigin env codec db t.grantId = some o
  mutation : mutationOf t.kind o.manifest.payload = some value
  mutates : Mutates t.kind o.manifest value account
  account_mem : a ∈ db.accounts
  account_id : a.accountId = t.accountId
  account_store : a.storeId = t.storeId
  checks : TransitionChecks env codec db t o value account a

theorem Accepted.transitionChain (h : Accepted env codec s db) {t : Transition}
    (ht : t ∈ db.transitions) : ∃ o value account a,
      TransitionChain env codec db t o value account a := by
  obtain ⟨o, ho, value, hv, account, ha, a, hacc, hc⟩ := h.history.transitions t ht
  obtain ⟨p, n, hg⟩ := h.originChain ho
  obtain ⟨account', hm⟩ :=
    mutates_of_mutationOf hg.challenge.valid hg.challenge.signed.intrinsic hv
  have haa : account' = account := Option.some.inj (hm.snapshot.symm.trans ha)
  rw [Option.mem_def, loadRegisteredAccount_iff h.tables] at hacc
  obtain ⟨a', ha', hid, hst⟩ := h.schema.foreignKeys.account.transition_account t ht
  have : a' = a := eq_of_key_eq h.tables.accounts.id_unique ha' hacc.1 (hid.trans hacc.2.symm)
  exact ⟨o, value, account, a, ho, hv, haa ▸ hm, hacc.1, hacc.2, this ▸ hst, hc⟩

/-- Two accepted transitions of one account stand with the same row of it. -/
theorem TransitionChain.account_eq (h : TablesOk db) {t u : Transition} {o o' : Origin}
    {v v' : AccountMutationManifest} {x x' : AccountSnapshot} {a b : Account}
    (ht : TransitionChain env codec db t o v x a) (hu : TransitionChain env codec db u o' v' x' b)
    (he : t.accountId = u.accountId) : a = b :=
  eq_of_key_eq h.accounts.id_unique ht.account_mem hu.account_mem
    (ht.account_id.trans (he.trans hu.account_id.symm))

/-! ## 5. Cleanups -/

/-- **A cleanup with its origin**: the transition that reserved it and the descriptor. -/
structure CleanupChain (env : Platform) (codec : ManifestCodec) (db : Db) (x : Cleanup)
    (t : Transition) (o : Origin) (value : AccountMutationManifest) (account : AccountSnapshot)
    (a : Account) (before : AccountSnapshot) (d : CleanupDescriptor) : Prop where
  transition_mem : t ∈ db.transitions
  transition : TransitionChain env codec db t o value account a
  before_eq : value.before = some before
  descriptor : d ∈ value.cleanup
  cleanup_id : d.cleanupId = x.cleanupId
  row : CleanupRow env db t before d x

theorem Accepted.cleanupChain (h : Accepted env codec s db) {x : Cleanup} (hx : x ∈ db.cleanups) :
    ∃ t o value account a before d,
      CleanupChain env codec db x t o value account a before d := by
  -- no cleanup is without its transition, so the transition's descriptors account for it
  have hattached : x.transitionId ≠ none := by
    intro hn
    have := h.history.counts.attached
    rw [List.filter_eq_nil_iff] at this
    exact this x hx (by simpa using hn)
  obtain ⟨i, hi⟩ := Option.ne_none_iff_exists'.mp hattached
  obtain ⟨t, ht, hti⟩ := h.schema.foreignKeys.credential.cleanup_transition x hx i hi
  obtain ⟨o, value, account, a, hc⟩ := h.transitionChain ht
  obtain ⟨hlen, hrows⟩ := hc.checks.cleanups
  have hrow : ∀ d ∈ value.cleanup, ∃ before ∈ value.before,
      ∃ c ∈ db.cleanups, c.cleanupId = d.cleanupId ∧ CleanupRow env db t before d c := by
    intro d hd
    obtain ⟨before, hb, c, hcl, hr⟩ := hrows d hd
    rw [Option.mem_def, loadCredentialCleanup_iff h.tables] at hcl
    exact ⟨before, hb, c, hcl.1, hcl.2, hr⟩
  obtain ⟨d, hd, hdx⟩ := described_of_length_eq hc.mutates.cleanup_ids hlen
    (fun d hd => by
      obtain ⟨before, _, c, hcm, hid, hr⟩ := hrow d hd
      exact ⟨c, List.mem_filter.mpr ⟨hcm, by simpa using hr.transition⟩, hid⟩)
    x (List.mem_filter.mpr ⟨hx, by simp [hi, hti]⟩)
  obtain ⟨before, hb, c, hcm, hid, hr⟩ := hrow d hd
  have hcx : c = x := eq_of_key_eq h.tables.cleanups.id_unique hcm hx (hid.trans hdx)
  subst hcx
  exact ⟨t, o, value, account, a, before, d, ht, hc, hb, hd, hdx, hr⟩

end Kirje.Authority
