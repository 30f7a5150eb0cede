import Kirje.Authority.Transitions

/-
  File:      Kirje/Authority/Mutations.lean
  Subject:   What a valid account manifest says, for the five kinds at once.

  The checks of a manifest (`ActionManifest.new`) and the intrinsic rules of the
  store speak of five payloads.  `Mutates` is what they have in common, in terms of
  the transition kind: which snapshot is registered, which one it replaces, and
  what is reserved for cleanup.
-/

namespace Kirje.Authority

open Base

variable {env : Platform}

/-! ## 1. The common shape -/

/-- How the registered snapshot of a mutation follows from the one before it. -/
structure Replaces (kind : TransitionKind) (before account : AccountSnapshot) : Prop where
  account_id : before.accountId = account.accountId
  display_id : before.displayId = account.displayId
  removed : kind = .accountRemove → account = before
  generation : kind ≠ .accountRemove → before.generation.exactIncrement account.generation
  credential : kind = .accountUpdate → before.credentialId ≠ account.credentialId
  kept : kind = .credentialSet ∨ kind = .credentialDelete →
    before.credentialId = account.credentialId ∧ before.bindingSha256 = account.bindingSha256

/-- What a valid manifest of a kind says; `account` is the snapshot it registers. -/
structure Mutates (kind : TransitionKind) (m : ActionManifest) (value : AccountMutationManifest)
    (account : AccountSnapshot) : Prop where
  snapshot : accountSnapshotOf kind value = some account
  action : m.action = kind.action
  store : m.context.storeId = some value.configCas.storeId
  account_id : m.context.accountId = some account.accountId
  binding : m.context.accountBindingSha256 = some account.bindingSha256
  target : expectedTargetId kind account.accountId value account = some m.context.target.bytes
  increment : value.configCas.generation.exactIncrement value.nextConfigGeneration
  created : kind = .accountCreate → value.before = none ∧ account.generation.val = 1
  replaces : kind ≠ .accountCreate → ∃ before ∈ value.before, Replaces kind before account
  config_changes : value.configCas.exactContentSha256 ≠ value.afterConfigSha256
  cleanup_free : kind ≠ .accountUpdate → kind ≠ .accountRemove → value.cleanup = []
  cleanup_ids : (value.cleanup.map CleanupDescriptor.cleanupId).Nodup
  cleanup_provisional : ∀ d ∈ value.cleanup, d.expectedState = .provisional
  before_ok : ∀ b ∈ value.before, validAccountId b.displayId

theorem provisionalCleanupIsUnique_ok {items : List CleanupDescriptor}
    (h : provisionalCleanupIsUnique items) :
    (items.map CleanupDescriptor.cleanupId).Nodup ∧ ∀ d ∈ items, d.expectedState = .provisional := by
  simp only [provisionalCleanupIsUnique, Bool.and_eq_true, decide_eq_true_eq, List.all_eq_true,
    beq_iff_eq] at h
  exact ⟨h.1.2, h.1.1.2⟩

/-! ## 2. The five kinds -/

section Kinds

variable {s : Snapshot} {m : ActionManifest} (hv : m.Valid env) (hi : intrinsic env s m.payload)

/-- The two credential kinds differ only in the action. -/
theorem mutates_credential {kind : TransitionKind} {value : CredentialMutationManifest}
    (hk : kind = .credentialSet ∨ kind = .credentialDelete) (haction : m.action = kind.action)
    (hok : validateCredentialMutationContext env m.context kind.action value = .ok ())
    (hintr : credentialMutationIntrinsic value) : ∃ a, Mutates kind m value.account a := by
  obtain ⟨before, after, ht⟩ := validateCredentialMutationContext_ok env hok
  have hm := ht.same_material
  simp only [sameAccountBindingMaterial, Bool.and_eq_true, beq_iff_eq] at hm
  simp only [credentialMutationIntrinsic, ht.after_eq, Bool.and_eq_true, bne_iff_ne,
    List.isEmpty_iff] at hintr
  have hne : kind ≠ .accountRemove ∧ kind ≠ .accountCreate ∧ kind ≠ .accountUpdate := by
    rcases hk with rfl | rfl <;> decide
  refine ⟨after, by simp [accountSnapshotOf, hne.1, ht.after_eq], haction, ht.store_eq,
    ht.account_eq, ht.binding_eq, ?_, ht.increment, fun h => absurd h hne.2.1,
    fun _ => ⟨before, by simp [ht.before_eq], ?_⟩, hintr.1.1, fun _ _ => hintr.1.2, ?_, ?_, ?_⟩
  · rcases hk with rfl | rfl <;>
      simp [expectedTargetId, ht.target_eq, ManifestTarget.bytes, ht.before_eq, hm.1.1.1.1.1.2]
  · exact ⟨ht.same_account, ht.same_display, fun h => absurd h hne.1, fun _ => ht.generation,
      fun h => absurd h hne.2.2, fun _ => ⟨hm.1.1.1.1.1.2, hm.1.1.1.2⟩⟩
  · simp [hintr.1.2]
  · simp [hintr.1.2]
  · intro b hb
    rw [ht.before_eq] at hb
    cases hb
    exact validateAccountSnapshot_displayId env ht.before_ok

include hv hi


theorem mutates_accountCreate {value : AccountMutationManifest}
    (hp : m.payload = .accountCreate value) : ∃ a, Mutates .accountCreate m value a := by
  have hok := hv.payload_ok
  rw [hp] at hok hi
  obtain ⟨target, ht⟩ := validateAccountMutationContext_ok env hok
  have hs := ht.shape
  simp only [intrinsic, accountCreateIntrinsic] at hi
  cases hb : value.before <;> cases ha : value.after <;>
    simp only [accountMutationShape, hb, ha, Bool.and_eq_true, beq_iff_eq, Bool.false_eq_true,
      Option.isNone_none, bne_iff_ne, List.isEmpty_iff, true_and] at hs hi
  next after =>
    have hid := ht.after_id after (by simp [ha])
    refine ⟨after, by simp [accountSnapshotOf, ha], by simp [ActionManifest.action, hp,
      ManifestPayload.action, TransitionKind.action], ht.store_eq, by rw [ht.account_eq, hid],
      ?_, by simp [expectedTargetId, ht.target_eq, hid, ManifestTarget.bytes], ht.increment,
      fun _ => ⟨hb, hs.1.1⟩, fun h => absurd rfl h, hi.1.2, fun _ _ => hi.1.1.1.1, ?_, ?_, ?_⟩
    · simp [ht.binding_eq, signedBinding, ha]
    · simp [hi.1.1.1.1]
    · simp [hi.1.1.1.1]
    · simp [hb]

theorem mutates_accountUpdate {value : AccountMutationManifest}
    (hp : m.payload = .accountUpdate value) : ∃ a, Mutates .accountUpdate m value a := by
  have hok := hv.payload_ok
  rw [hp] at hok hi
  obtain ⟨target, ht⟩ := validateAccountMutationContext_ok env hok
  have hs := ht.shape
  simp only [intrinsic, accountUpdateIntrinsic] at hi
  cases hb : value.before <;> cases ha : value.after <;>
    simp only [accountMutationShape, hb, ha, Bool.and_eq_true, beq_iff_eq, Bool.false_eq_true,
      bne_iff_ne] at hs hi
  next before after =>
    have hid := ht.after_id after (by simp [ha])
    have hid' := ht.before_id before (by simp [hb])
    obtain ⟨hn, hprov⟩ := provisionalCleanupIsUnique_ok hi.1.1.2
    refine ⟨after, by simp [accountSnapshotOf, ha], by simp [ActionManifest.action, hp,
      ManifestPayload.action, TransitionKind.action], ht.store_eq, by rw [ht.account_eq, hid],
      ?_, by simp [expectedTargetId, ht.target_eq, hid, ManifestTarget.bytes], ht.increment,
      by simp, fun _ => ⟨before, by simp [hb], ?_⟩, hi.1.1.1, fun h => absurd rfl h, hn, hprov, ?_⟩
    · simp [ht.binding_eq, signedBinding, ha]
    · exact ⟨by rw [hid, hid'], hs.1.1.1.1.1, by simp, fun _ => hs.1.1.1.1.2,
        fun _ => hs.1.1.1.2, by simp⟩
    · intro b hb'
      exact validateAccountSnapshot_displayId env (ht.before_ok b hb')

theorem mutates_accountRemove {value : AccountMutationManifest}
    (hp : m.payload = .accountRemove value) : ∃ a, Mutates .accountRemove m value a := by
  have hok := hv.payload_ok
  rw [hp] at hok hi
  obtain ⟨target, ht⟩ := validateAccountMutationContext_ok env hok
  have hs := ht.shape
  simp only [intrinsic, accountRemoveIntrinsic, Bool.and_eq_true, bne_iff_ne] at hi
  cases hb : value.before <;> cases ha : value.after <;>
    simp only [accountMutationShape, hb, ha, Bool.false_eq_true] at hs
  next before =>
    have hid := ht.before_id before (by simp [hb])
    obtain ⟨hn, hprov⟩ := provisionalCleanupIsUnique_ok hi.2
    refine ⟨before, by simp [accountSnapshotOf, hb], by simp [ActionManifest.action, hp,
      ManifestPayload.action, TransitionKind.action], ht.store_eq, by rw [ht.account_eq, hid],
      ?_, by simp [expectedTargetId, ht.target_eq, hid, ManifestTarget.bytes], ht.increment,
      by simp, fun _ => ⟨before, by simp [hb], ?_⟩, hi.1, fun _ h => absurd rfl h, hn, hprov, ?_⟩
    · simp [ht.binding_eq, signedBinding, hb]
    · exact ⟨rfl, rfl, fun _ => rfl, fun h => absurd rfl h, by simp, by simp⟩
    · intro b hb'
      exact validateAccountSnapshot_displayId env (ht.before_ok b hb')

/-- **A valid manifest with a mutation of a kind has the common shape.** -/
theorem mutates_of_mutationOf {kind : TransitionKind} {value : AccountMutationManifest}
    (h : mutationOf kind m.payload = some value) : ∃ a, Mutates kind m value a := by
  have hok := hv.payload_ok
  cases kind <;> cases hp : m.payload <;> simp only [mutationOf, hp, Option.some.injEq,
    reduceCtorEq] at h <;> subst h
  · exact mutates_accountCreate hv hi hp
  · exact mutates_accountUpdate hv hi hp
  · exact mutates_accountRemove hv hi hp
  · rw [hp] at hok hi
    refine mutates_credential (Or.inl rfl) ?_ hok hi
    simp [ActionManifest.action, hp, ManifestPayload.action, TransitionKind.action]
  · rw [hp] at hok hi
    refine mutates_credential (Or.inr rfl) ?_ hok hi
    simp [ActionManifest.action, hp, ManifestPayload.action, TransitionKind.action]

end Kinds

/-- The snapshot a current transition leaves is one of its account. -/
theorem Mutates.currentSnapshot_account {t : Transition} {m : ActionManifest}
    {value : AccountMutationManifest} {account x : AccountSnapshot}
    (h : Mutates t.kind m value account) (hx : currentSnapshot t value = some x) :
    x.accountId = account.accountId := by
  have hs := h.snapshot
  unfold currentSnapshot restoredPredecessor at hx
  unfold accountSnapshotOf at hs
  by_cases hr : t.kind = .accountRemove
  · rw [if_pos hr] at hs
    rw [if_pos (Or.inl hr), hs] at hx
    rw [Option.some.inj hx]
  · rw [if_neg hr] at hs
    split at hx
    · next hc =>
        have hk : t.kind ≠ .accountCreate := by
          rcases hc with hc | hc
          · exact absurd hc hr
          · simp only [Bool.and_eq_true, bne_iff_ne] at hc
            exact hc.1
        obtain ⟨before, hb, hrep⟩ := h.replaces hk
        rw [Option.mem_def, hx] at hb
        rw [Option.some.inj hb, hrep.account_id]
    · rw [hs] at hx
      rw [Option.some.inj hx]

theorem anyMutationOf_of_mutationOf {kind : TransitionKind} {p : ManifestPayload}
    {value : AccountMutationManifest} (h : mutationOf kind p = some value) :
    anyMutationOf p = some value := by
  cases kind <;> cases p <;> simp_all [mutationOf, anyMutationOf]

/-- The kind of a mutation is that of the manifest's action. -/
theorem action_of_mutationOf {kind : TransitionKind} {p : ManifestPayload}
    {value : AccountMutationManifest} (h : mutationOf kind p = some value) :
    p.action = kind.action := by
  cases kind <;> cases p <;> simp_all [mutationOf, ManifestPayload.action, TransitionKind.action]

end Kirje.Authority
