import Kirje.Authority.Chain

/-
  File:      Kirje/Authority/Signed.lean
  Subject:   No unsigned authority survives validation.

  Whatever wrote the database, an accepted content has for every store, transition
  and claimed cleanup exactly one grant, signed for exactly that, and every account
  is what such a signed manifest says.  Uniqueness comes from what each grant left
  behind; the account comes from its last transition, which has no successors.
-/

namespace Kirje.Authority

open Base

variable (env : Platform) (codec : ManifestCodec)

/-! ## 1. Signed manifests -/

/-- The grant was given for the manifest: its receipt's signature verifies, under the anchor's key
    of the role the action requires, over a stored transcript that binds the manifest's digest. -/
def SignedFor (s : Snapshot) (db : Db) (g : GrantUse) (m : ActionManifest) : Prop :=
  ∃ r ∈ db.receipts, ∃ c ∈ db.challenges, ∃ p : AuthorizationPayload,
    (r.receiptId = g.receiptId ∧ r.grantId = g.grantId ∧ c.challengeId = r.challengeId ∧
      c.grantId = g.grantId) ∧
    (ActionManifest.parse env codec c.manifest = .ok m ∧
      AuthorizationPayload.parse env c.signingPayload = .ok p ∧
      p.fields.action = m.action ∧ p.fields.grantId = g.grantId ∧
      p.fields.manifestSha256 = env.sha256 m.canonicalBytes) ∧
    verifyAuthorizationSignature env (s.publicKey m.action.requiredRole).bytes c.signingPayload
      r.signature.bytes = .ok ()

/-- The manifest enrolls the store. -/
def NamesStore (m : ActionManifest) (store : Store) : Prop :=
  ∃ value, m.payload = .storeEnroll value ∧ value.configCas.storeId = store.storeId ∧
    value.configCas.locationSha256 = store.locationSha256

/-- The manifest mutates an account through the transition. -/
def NamesTransition (m : ActionManifest) (t : Transition) : Prop :=
  ∃ value, mutationOf t.kind m.payload = some value ∧ value.transitionId = t.transitionId ∧
    value.configCas.storeId = t.storeId ∧
    ∃ account ∈ accountSnapshotOf t.kind value, account.accountId = t.accountId

/-- The manifest claims the cleanup. -/
def NamesCleanup (m : ActionManifest) (x : Cleanup) : Prop :=
  ∃ value, m.payload = .credentialCleanup value ∧ value.cleanupId = x.cleanupId ∧
    value.locatorSha256 = x.locatorSha256

/-- The account is what the manifest of a transition says: the snapshot after it, or the one
    before it if it removes the account or was aborted without creating it. -/
def AccountSays (m : ActionManifest) (t : Transition) (a : Account) : Prop :=
  ∃ value, mutationOf t.kind m.payload = some value ∧
    ∃ x ∈ (if t.kind = .accountRemove ∨ t.kind ≠ .accountCreate ∧ t.state = .aborted
        then value.before else value.after),
      a.accountId = x.accountId ∧ a.storeId = value.configCas.storeId ∧
      a.accountGeneration = x.generation ∧ a.credentialId = x.credentialId ∧
      a.bindingSha256 = x.bindingSha256

variable {env codec} {s : Snapshot} {db : Db}

theorem GrantChain.signedFor {g : GrantUse} {o : Origin} {p : AuthorizationPayload} {n : NonceUse}
    (h : GrantChain env codec s db g o p n) : SignedFor env codec s db g o.manifest := by
  have hr := h.receipt.challenge
  have hs := h.challenge.signed
  refine ⟨o.receipt, h.receipt_mem, o.challenge, h.challenge_mem, p, ⟨h.link.1, ?_, h.link.2, ?_⟩,
    ⟨parse_of_manifestOf h.challenge.manifest, ?_, ?_, ?_, ?_⟩, ?_⟩
  · rw [hr.2.1, h.signed.grant_id]
  · rw [h.signed.grant_id]
  · have hp := h.challenge.payload
    unfold payloadOf at hp
    cases hpp : AuthorizationPayload.parse env o.challenge.signingPayload with
    | error e => simp [hpp, Except.toOption] at hp
    | ok p' =>
        rw [hpp] at hp
        rw [Option.some.inj hp]
  · rw [hs.target.1, hs.manifest.2.2]
  · rw [hs.signer.2.2.2.1, h.signed.grant_id]
  · rw [hs.context.2.2.1, ← hs.manifest.2.1, h.challenge.valid.sha256_eq]
  · rw [hs.manifest.2.2]
    exact isOk_unit h.receipt.signature

/-- The manifest a grant is signed for is that of its chain. -/
theorem GrantChain.manifest_eq (ht : TablesOk db) {g : GrantUse} {o : Origin}
    {p : AuthorizationPayload} {n : NonceUse} {m : ActionManifest}
    (h : GrantChain env codec s db g o p n) (hs : SignedFor env codec s db g m) :
    o.manifest = m := by
  obtain ⟨r, hr, c, hc, p', ⟨hrg, -, hcr, -⟩, ⟨hm, -⟩, -⟩ := hs
  have hrr : r = o.receipt := eq_of_key_eq ht.receipts.id_unique hr h.receipt_mem
    (hrg.trans h.link.1.symm)
  have hcc : c = o.challenge := by
    apply eq_of_key_eq ht.challenges.id_unique hc h.challenge_mem
    rw [hcr, hrr, h.link.2]
  have hm' := parse_of_manifestOf h.challenge.manifest
  rw [← hcc, hm] at hm'
  exact (Except.ok.inj hm').symm

/-- The action of a used grant is that of its manifest. -/
theorem GrantChain.action_eq {g : GrantUse} {o : Origin} {p : AuthorizationPayload} {n : NonceUse}
    (h : GrantChain env codec s db g o p n) : g.action = o.manifest.payload.action :=
  h.signed.action.trans h.challenge.signed.manifest.2.2.symm

/-! ## 2. Stores -/

/-- What an enrollment grant left is the store its manifest names. -/
theorem GrantChain.store (ht : TablesOk db) {g : GrantUse} {o : Origin}
    {p : AuthorizationPayload} {n : NonceUse} (h : GrantChain env codec s db g o p n)
    {value : StoreEnrollManifest} (hp : o.manifest.payload = .storeEnroll value) :
    ∃ store ∈ db.stores, store.enrolledReceiptId = g.receiptId ∧
      store.storeId = value.configCas.storeId ∧
      store.locationSha256 = value.configCas.locationSha256 := by
  have hact : g.action = .storeEnroll := by rw [h.action_eq, hp]; rfl
  obtain ⟨m, hm, e, he, store, hst, v, -, hmatch, -⟩ := h.left.enrollment hact
  rw [Option.mem_def, h.challenge.manifest] at hm
  rw [← Option.some.inj hm, Option.mem_def] at he
  simp only [storeEnrollmentContext, hp, Option.some.injEq] at he
  rw [Option.mem_def, loadRegisteredStoreByReceipt_iff ht] at hst
  subst he
  exact ⟨store, hst.1, by rw [hst.2, h.link.1], hmatch.1, hmatch.2.1⟩

/-- The grant that enrolled a store. -/
theorem Accepted.enrollment (h : Accepted env codec s db) {store : Store}
    (hst : store ∈ db.stores) : ∃ g ∈ db.grants, ∃ o p n, GrantChain env codec s db g o p n ∧
      g.receiptId = store.enrolledReceiptId ∧ NamesStore o.manifest store := by
  obtain ⟨r, hr, ⟨g, hg, -⟩, v, hv, ⟨c, hc, m, hm, e, he, hinit, -⟩, -⟩ :=
    (h.history.stores store hst).chain
  rw [Option.mem_def, loadGrantUseByReceipt_iff h.tables] at hg
  rw [Option.mem_def, loadReceiptById_iff h.tables] at hr
  rw [Option.mem_def, loadChallenge_iff h.tables] at hc
  obtain ⟨o, p, n, hgc⟩ := h.grantChain hg.1
  have hrr : o.receipt = r := eq_of_key_eq h.tables.receipts.id_unique hgc.receipt_mem hr.1
    (by rw [hgc.link.1, hg.2])
  have hcc : o.challenge = c := eq_of_key_eq h.tables.challenges.id_unique hgc.challenge_mem hc.1
    (by rw [hgc.link.2, hrr, hc.2])
  have hmm : o.manifest = m := by
    have hmo := hgc.challenge.manifest
    rw [hcc] at hmo
    exact Option.some.inj (hmo.symm.trans hm)
  refine ⟨g, hg.1, o, p, n, hgc, hg.2.trans hr.2, ?_⟩
  cases hp : m.payload <;> simp only [storeEnrollmentContext, hp, Option.mem_def, Option.some.injEq,
    reduceCtorEq] at he
  next value =>
    subst he
    refine ⟨value, hmm ▸ hp, ?_, ?_⟩
    · exact hinit.store_id.2.symm.trans hinit.store_id.1
    · exact hinit.location.2.symm.trans hinit.location.1

theorem Accepted.store_signed_once (h : Accepted env codec s db) {store : Store}
    (hst : store ∈ db.stores) :
    ∃! g, g ∈ db.grants ∧ ∃ m, SignedFor env codec s db g m ∧ NamesStore m store := by
  obtain ⟨g, hg, o, p, n, hc, hgr, hn⟩ := h.enrollment hst
  refine ⟨g, ⟨hg, o.manifest, hc.signedFor, hn⟩, ?_⟩
  rintro g' ⟨hg', m', hs', value, hp, hid, hloc⟩
  obtain ⟨o', p', n', hc'⟩ := h.grantChain hg'
  obtain ⟨store', hst', hr', hid', -⟩ := hc'.store h.tables (hc'.manifest_eq h.tables hs' ▸ hp)
  have hss : store' = store := eq_of_key_eq h.tables.stores.id_unique hst' hst (hid'.trans hid)
  apply eq_of_key_eq h.tables.grants.receipt_unique hg' hg
  rw [← hr', hss, hgr]

/-! ## 3. Transitions -/

/-- A grant signed for an account mutation left its transition. -/
theorem GrantChain.transition (h : Accepted env codec s db) {g : GrantUse} {o : Origin}
    {p : AuthorizationPayload} {n : NonceUse} (hc : GrantChain env codec s db g o p n)
    {kind : TransitionKind} {value : AccountMutationManifest}
    (hv : mutationOf kind o.manifest.payload = some value) :
    ∃ t ∈ db.transitions, t.grantId = g.grantId ∧ t.transitionId = value.transitionId := by
  have hact : g.action = kind.action := hc.action_eq.trans (action_of_mutationOf hv)
  obtain ⟨t, ht, -⟩ := hc.left.transition hact
  rw [Option.mem_def, loadAccountTransitionByGrant_iff h.tables] at ht
  obtain ⟨o', value', account, a, htc⟩ := h.transitionChain ht.1
  have hoo : o' = o := by
    have hl := htc.load
    rw [ht.2, hc.load] at hl
    exact (Option.some.inj hl).symm
  have hvv : value' = value := by
    have h1 := anyMutationOf_of_mutationOf htc.mutation
    rw [hoo, anyMutationOf_of_mutationOf hv] at h1
    exact (Option.some.inj h1).symm
  exact ⟨t, ht.1, ht.2, by rw [← htc.checks.signed.transition_id, hvv]⟩

theorem TransitionChain.namesTransition {t : Transition} {o : Origin}
    {value : AccountMutationManifest} {account : AccountSnapshot} {a : Account}
    (h : TransitionChain env codec db t o value account a) : NamesTransition o.manifest t :=
  ⟨value, h.mutation, h.checks.signed.transition_id, h.checks.signed.store_id, account,
    h.mutates.snapshot, h.checks.signed.account_id⟩

theorem Accepted.transition_signed_once (h : Accepted env codec s db) {t : Transition}
    (ht : t ∈ db.transitions) :
    ∃! g, g ∈ db.grants ∧ ∃ m, SignedFor env codec s db g m ∧ NamesTransition m t := by
  obtain ⟨o, value, account, a, hc⟩ := h.transitionChain ht
  obtain ⟨p, n, hg⟩ := h.originChain hc.load
  have hid := h.grant_of_origin hc.load
  refine ⟨o.grant, ⟨hid.1, o.manifest, hg.signedFor, hc.namesTransition⟩, ?_⟩
  rintro g' ⟨hg', m', hs', value', hv', htr', -⟩
  obtain ⟨o', p', n', hc'⟩ := h.grantChain hg'
  obtain ⟨t', ht', hgt, htt⟩ := hc'.transition h (hc'.manifest_eq h.tables hs' ▸ hv')
  have : t' = t := eq_of_key_eq h.tables.transitions.id_unique ht' ht (htt.trans htr')
  apply eq_of_key_eq h.tables.grants.id_unique hg' hid.1
  rw [hid.2, ← hgt, this]

/-! ## 4. Cleanups -/

/-- What a cleanup grant left is the cleanup its manifest names. -/
theorem GrantChain.cleanup (ht : TablesOk db) {g : GrantUse} {o : Origin}
    {p : AuthorizationPayload} {n : NonceUse} (h : GrantChain env codec s db g o p n)
    (hact : g.action = .credentialCleanup) : ∃ value, o.manifest.payload = .credentialCleanup value ∧
      ∃ x ∈ db.cleanups, x.cleanupId.bytes = g.targetId ∧ x.cleanupId = value.cleanupId ∧
        x.locatorSha256 = value.locatorSha256 ∧ x.claimGrantId = some g.grantId := by
  obtain ⟨m, hm, i, hi, x, hx, value, hv, hid, -, -, hloc, hclaim, -⟩ := h.left.cleanup hact
  rw [Option.mem_def, h.challenge.manifest] at hm
  rw [← Option.some.inj hm] at hv
  rw [Option.mem_def, loadCredentialCleanup_iff ht] at hx
  cases hp : o.manifest.payload <;> simp only [cleanupManifest, hp, Option.mem_def,
    Option.some.injEq, reduceCtorEq] at hv
  subst hv
  refine ⟨_, rfl, x, hx.1, ?_, hid, hloc, hclaim⟩
  rw [hx.2]
  exact Uuid.ofBytes?_eq_some.mp hi

theorem Accepted.cleanup_signed_once (h : Accepted env codec s db) {x : Cleanup}
    (hx : x ∈ db.cleanups) (hst : x.state = .claimed ∨ x.state = .deleted) :
    ∃! g, g ∈ db.grants ∧ ∃ m, SignedFor env codec s db g m ∧ NamesCleanup m x := by
  have hshape := (h.tables.cleanups.checks x hx).2.1
  have hsome : x.claimGrantId.isSome := by
    unfold cleanupShape at hshape
    rcases hst with hst | hst <;> rw [hst] at hshape <;> exact hshape.1
  obtain ⟨i, hi⟩ := Option.isSome_iff_exists.mp hsome
  obtain ⟨t, o, value, account, a, before, d, hc⟩ := h.cleanupChain hx
  obtain ⟨g, hg, hact, -, htarget, -⟩ := hc.row.claim i hi
  rw [Option.mem_def, loadGrantUse_iff h.tables] at hg
  obtain ⟨o', p', n', hgc⟩ := h.grantChain hg.1
  obtain ⟨value', hp', x', hx', hxt, hxv, hxl, -⟩ := hgc.cleanup h.tables hact
  have hxx : x' = x := eq_of_key_eq h.tables.cleanups.id_unique hx' hx
    (Uuid.eq_of_bytes (hxt.trans htarget))
  refine ⟨g, ⟨hg.1, o'.manifest, hgc.signedFor, value', hp', ?_, ?_⟩, ?_⟩
  · rw [← hxv, hxx]
  · rw [← hxl, hxx]
  -- any other grant for this cleanup left it claimed by itself
  rintro g₂ ⟨hg₂, m₂, hs₂, value₂, hp₂, hid₂, -⟩
  obtain ⟨o₂, p₂, n₂, hgc₂⟩ := h.grantChain hg₂
  rw [← hgc₂.manifest_eq h.tables hs₂] at hp₂
  have hact₂ : g₂.action = .credentialCleanup := by rw [hgc₂.action_eq, hp₂]; rfl
  obtain ⟨value₂', hp₂', x₂, hx₂, -, hxv₂, -, hclaim₂⟩ := hgc₂.cleanup h.tables hact₂
  rw [hp₂] at hp₂'
  obtain rfl := ManifestPayload.credentialCleanup.inj hp₂'
  have hxx₂ : x₂ = x := eq_of_key_eq h.tables.cleanups.id_unique hx₂ hx (hxv₂.trans hid₂)
  rw [hxx₂, hi] at hclaim₂
  exact eq_of_key_eq h.tables.grants.id_unique hg₂ hg.1
    ((Option.some.inj hclaim₂).symm.trans hg.2.symm)

/-! ## 5. Accounts -/

/-- Every account has a transition. -/
theorem Accepted.account_transition (h : Accepted env codec s db) {a : Account}
    (ha : a ∈ db.accounts) : ∃ t ∈ db.transitions, t.accountId = a.accountId := by
  obtain ⟨c, hc, -, hca, -⟩ := h.schema.foreignKeys.account.account_credential a ha
  obtain ⟨t, ht, -, hta, -⟩ := h.schema.foreignKeys.credential.credential_transition c hc
  exact ⟨t, ht, hta.trans hca⟩

theorem exists_max_of_ne_nil {α : Type} (f : α → Nat) {l : List α} (h : l ≠ []) :
    ∃ a ∈ l, ∀ b ∈ l, f b ≤ f a := by
  induction l with
  | nil => exact absurd rfl h
  | cons x l ih =>
      cases l with
      | nil => exact ⟨x, by simp, by simp⟩
      | cons y l =>
          obtain ⟨a, ha, hmax⟩ := ih (by simp)
          by_cases hx : f a ≤ f x
          · refine ⟨x, by simp, fun b hb => ?_⟩
            rcases List.mem_cons.mp hb with rfl | hb
            · exact le_refl _
            · exact (hmax b hb).trans hx
          · refine ⟨a, List.mem_cons_of_mem _ ha, fun b hb => ?_⟩
            rcases List.mem_cons.mp hb with rfl | hb
            · omega
            · exact hmax b hb

/-- **The last transition of an account has no successor.** -/
theorem Accepted.last_transition (h : Accepted env codec s db) {a : Account}
    (ha : a ∈ db.accounts) :
    ∃ t ∈ db.transitions, t.accountId = a.accountId ∧ successors db t = [] := by
  obtain ⟨u, hu, hua⟩ := h.account_transition ha
  have hne : (db.transitions.filter fun t => t.accountId = a.accountId) ≠ [] :=
    List.ne_nil_of_mem (List.mem_filter.mpr ⟨hu, by simpa using hua⟩)
  obtain ⟨t, ht, hmax⟩ := exists_max_of_ne_nil (fun t => t.expectedGeneration.val) hne
  simp only [List.mem_filter, decide_eq_true_eq] at ht hmax
  refine ⟨t, ht.1, ht.2, List.filter_eq_nil_iff.mpr fun v hv => ?_⟩
  simp only [decide_eq_true_eq, not_and]
  intro hva _
  have hle := hmax v ⟨hv, hva.trans ht.2⟩
  have hinc := (h.tables.transitions.checks t ht.1).2.1
  simp only [NonZeroU64.exactIncrement, beq_iff_eq] at hinc
  omega

theorem Accepted.account_stated (h : Accepted env codec s db) {a : Account} (ha : a ∈ db.accounts) :
    ∃ t ∈ db.transitions, ∃ g ∈ db.grants, ∃ m, g.grantId = t.grantId ∧
      SignedFor env codec s db g m ∧ NamesTransition m t ∧ AccountSays m t a := by
  obtain ⟨t, ht, hta, hsucc⟩ := h.last_transition ha
  obtain ⟨o, value, account, b, hc⟩ := h.transitionChain ht
  have hab : b = a := eq_of_key_eq h.tables.accounts.id_unique hc.account_mem ha
    (hc.account_id.trans hta)
  subst hab
  obtain ⟨p, n, hg⟩ := h.originChain hc.load
  obtain ⟨hgm, hgi⟩ := h.grant_of_origin hc.load
  refine ⟨t, ht, o.grant, hgm, o.manifest, hgi, hg.signedFor, hc.namesTransition, value,
    hc.mutation, ?_⟩
  obtain ⟨x, hx, i, -, ⟨hgen, hcred, hbind, -⟩, -⟩ := hc.checks.account.current hsucc
  refine ⟨x, ?_, ?_, ?_, hgen, hcred, hbind⟩
  · simpa [currentSnapshot, restoredPredecessor] using hx
  · rw [hc.account_id, ← hc.checks.signed.account_id]
    exact (hc.mutates.currentSnapshot_account hx).symm
  · rw [hc.account_store, hc.checks.signed.store_id]

/-! ## 6. The registry as a whole -/

/-- **No unsigned authority survives validation.**  In every content that loads for an anchor,
    however it was produced, each store, each transition and each claimed or deleted cleanup has
    exactly one grant signed for it, and each account is what one such signed manifest says. -/
theorem loaded_authority_is_signed (h : loadSnapshot env codec db = .ok s) :
    (∀ store ∈ db.stores,
      ∃! g, g ∈ db.grants ∧ ∃ m, SignedFor env codec s db g m ∧ NamesStore m store) ∧
    (∀ t ∈ db.transitions,
      ∃! g, g ∈ db.grants ∧ ∃ m, SignedFor env codec s db g m ∧ NamesTransition m t) ∧
    (∀ x ∈ db.cleanups, x.state = .claimed ∨ x.state = .deleted →
      ∃! g, g ∈ db.grants ∧ ∃ m, SignedFor env codec s db g m ∧ NamesCleanup m x) ∧
    ∀ a ∈ db.accounts, ∃ t ∈ db.transitions, ∃ g ∈ db.grants, ∃ m, g.grantId = t.grantId ∧
      SignedFor env codec s db g m ∧ NamesTransition m t ∧ AccountSays m t a := by
  have ha : Accepted env codec s db := by
    simp [Accepted, validateReadyTransaction, h]
  refine ⟨?_, ?_, ?_, ?_⟩
  · exact fun _ hst => ha.store_signed_once hst
  · exact fun _ ht => ha.transition_signed_once ht
  · exact fun _ hx hst => ha.cleanup_signed_once hx hst
  · exact fun _ hacc => ha.account_stated hacc

end Kirje.Authority
