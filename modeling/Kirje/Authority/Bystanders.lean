import Kirje.Authority.Frame

/-
  File:      Kirje/Authority/Bystanders.lean
  Subject:   A transition that an effect is not about stays valid.

  An effect is about at most one transition.  Any other one keeps its row; either
  its account and its store are as they were, or it is settled and a later
  transition of its account speaks for the account now (`Bystander`).
-/

namespace Kirje.Authority

open Base

variable {env : Platform} {codec : ManifestCodec} {s : Snapshot} {db db' : Db} {new : List Event}

/-- **A transition an effect is not about.**  `a` is its account before the effect. -/
structure Bystander (env : Platform) (db db' : Db) (new : List Event) (t : Transition)
    (a : Account) : Prop where
  mem : t ∈ db'.transitions
  undisturbed : (a ∈ db'.accounts ∧ (successors db' t = [] ↔ successors db t = []) ∧
      (¬t.Settled → ∀ x ∈ db.stores, x.storeId = t.storeId → x ∈ db'.stores)) ∨
    (t.Settled ∧ successors db' t ≠ [])
  quiet : ∀ e ∈ new, ¬(e.entityKind = 6 ∧ e.entityId = t.transitionId.bytes)
  store_versions : (db'.storeVersions.filter fun v =>
      v.committedTransitionId = some t.transitionId).length =
    (db.storeVersions.filter fun v => v.committedTransitionId = some t.transitionId).length
  account_versions : (db'.accountVersions.filter fun v =>
      v.committedTransitionId = t.transitionId).length =
    (db.accountVersions.filter fun v => v.committedTransitionId = t.transitionId).length
  cleanups : ∀ value, TransitionCleanups env db t value → TransitionCleanups env db' t value

/-! ## 1. Parts that read loaded rows only -/

section Parts

variable (f : Frame db db' new)
include f

theorem Frame.transitionCredential {t : Transition} {x : AccountSnapshot}
    (h : TransitionCredential db t x) : TransitionCredential db' t x := by
  intro hk
  obtain ⟨c, hc, hids⟩ := h hk
  exact ⟨c, f.credential hc, hids⟩

theorem Frame.mutationParent {t : Transition} {value : AccountMutationManifest}
    (h : MutationParent db t value) : MutationParent db' t value := by
  obtain ⟨before, hb, v, hv, hs, hc, hbind, ⟨parent, hp, hfin, hpa⟩, hlen⟩ := h
  refine ⟨before, hb, v, f.accountVersion hv, hs, hc, hbind,
    ⟨parent, f.settledTransition hp (Or.inl hfin), hfin, hpa⟩, ?_⟩
  obtain ⟨w, hw⟩ := List.length_eq_one_iff.mp hlen
  have hwm := List.mem_filter.mp (hw ▸ List.mem_singleton_self w)
  refine length_filter_eq_one f.tables'.storeVersions.key_unique (f.storeVersions hwm.1) hwm.2 ?_
  intro u _ hu
  have hwp := hwm.2
  simp only [decide_eq_true_eq] at hu hwp
  rw [Prod.mk.injEq]
  exact ⟨hu.1.trans hwp.1.symm, hu.2.1.trans hwp.2.1.symm⟩

theorem Frame.currentAccount {a : Account} {t : Transition} {value : AccountMutationManifest}
    {i : ReceiptId} (hparent : t.kind ≠ .accountCreate → MutationParent db t value)
    (h : CurrentAccount db a t value i) : CurrentAccount db' a t value i := by
  obtain ⟨x, hx, j, hj, hrow, hcols⟩ := h
  refine ⟨x, hx, j, ?_, hrow, hcols⟩
  rw [Option.mem_def] at hj ⊢
  unfold currentReceipt at hj ⊢
  split at hj
  · next hr =>
      rw [if_pos hr]
      simp only [Option.bind_eq_bind, Option.bind_eq_some_iff] at hj ⊢
      obtain ⟨v, hv, p, hp, hpr⟩ := hj
      -- the version restored is that of the parent, which is finalized
      have hne : t.kind ≠ .accountCreate := by
        simp only [restoredPredecessor, Bool.and_eq_true, bne_iff_ne] at hr
        exact hr.1
      obtain ⟨before, hb, v', hv', -, -, -, ⟨p', hp', hfin, -⟩, -⟩ := hparent hne
      have hxb : x = before := by
        have hcur : currentSnapshot t value = value.before := by
          simp [currentSnapshot, hr]
        rw [Option.mem_def, hcur] at hx
        exact Option.some.inj (hx.symm.trans hb)
      rw [hxb] at hv ⊢
      have hvv : v' = v := Option.some.inj (hv'.symm.trans hv)
      rw [hvv] at hp'
      have hpp : p' = p := Option.some.inj (Eq.trans (Eq.symm hp') hp)
      exact ⟨v, f.accountVersion hv, p, f.settledTransition hp (Or.inl (hpp ▸ hfin)),
        f.receiptId hpr⟩
  · next hr =>
      rw [if_neg hr]
      exact hj

theorem Frame.cleanupRow {t : Transition} {before : AccountSnapshot} {d : CleanupDescriptor}
    {x : Cleanup} (hq : ∀ e ∈ new, ¬(e.entityKind = 7 ∧ e.entityId = d.cleanupId.bytes))
    (h : CleanupRow env db t before d x) : CleanupRow env db' t before d x := by
  have hevents : ∀ code, eventsOf db' 7 d.cleanupId.bytes code =
      eventsOf db 7 d.cleanupId.bytes code :=
    fun code => f.eventsOf_eq fun e he hk => hq e he ⟨hk.1, hk.2.1⟩
  refine ⟨h.transition, h.provisional, h.kind, h.sha256, ?_, h.digest, h.lifecycle, h.created_at,
    ?_, ?_, ?_, ?_⟩
  · rw [f.realm]
    exact h.material
  · intro i hi
    obtain ⟨g, hg, hrest⟩ := h.claim i hi
    exact ⟨g, f.grantUse hg, hrest⟩
  · rw [hevents]
    exact h.ready_events
  · rw [hevents]
    exact h.claimed_events
  · rw [hevents]
    exact h.deleted_events

/-- The cleanups of a transition stay valid if none of them is touched. -/
theorem Frame.transitionCleanups {t : Transition} {value : AccountMutationManifest}
    (hcount : (db'.cleanups.filter fun c => c.transitionId = some t.transitionId).length =
      (db.cleanups.filter fun c => c.transitionId = some t.transitionId).length)
    (hrow : ∀ x ∈ db.cleanups, x.transitionId = some t.transitionId → x ∈ db'.cleanups)
    (hq : ∀ e ∈ new, e.entityKind = 7 → ∀ x ∈ db.cleanups,
      x.transitionId = some t.transitionId → e.entityId ≠ x.cleanupId.bytes)
    (h : TransitionCleanups env db t value) : TransitionCleanups env db' t value := by
  refine ⟨hcount.trans h.1, fun d hd => ?_⟩
  obtain ⟨before, hb, x, hx, hr⟩ := h.2 d hd
  rw [Option.mem_def, loadCredentialCleanup_iff f.tables] at hx
  refine ⟨before, hb, x, ?_, f.cleanupRow ?_ hr⟩
  · exact (loadCredentialCleanup_iff f.tables').mpr ⟨hrow x hx.1 hr.transition, hx.2⟩
  · rintro e he ⟨hk, hi⟩
    exact hq e he hk x hx.1 hr.transition (hi.trans (by rw [hx.2]))

/-- The grant event of a transition is the same. -/
theorem Frame.grantEvent {t : Transition} {g : GrantUse} (hg : g ∈ db.grants)
    (ht : g.grantId = t.grantId) :
    loadSingleEntityEvent db' 10 t.grantId.bytes 7 =
      loadSingleEntityEvent db 10 t.grantId.bytes 7 := by
  refine f.singleEvent ?_
  rintro e he ⟨hk, hi, -⟩
  exact f.fresh_grant e he hk g hg (by rw [ht, hi])

/-- The events of a transition stay valid without a new one. -/
theorem Frame.transitionEvents {t : Transition} {i : ReceiptId}
    (hq : ∀ e ∈ new, ¬(e.entityKind = 6 ∧ e.entityId = t.transitionId.bytes))
    (hstore : t.state = .recoveryRequired →
      ∀ x, loadRegisteredStoreById db t.storeId = some x →
        loadRegisteredStoreById db' t.storeId = some x)
    (h : TransitionEvents env db t i) : TransitionEvents env db' t i := by
  have hsingle : ∀ code, loadSingleEntityEvent db' 6 t.transitionId.bytes code =
      loadSingleEntityEvent db 6 t.transitionId.bytes code :=
    fun code => f.singleEvent fun e he hk => hq e he ⟨hk.1, hk.2.1⟩
  obtain ⟨g, hg, ge, hge, pe, hpe, se, hse, hprep, previous, hprev, hterm⟩ := h
  have hgm := (loadGrantUse_iff f.tables).mp hg
  refine ⟨g, f.grantUse hg, ge, ?_, pe, ?_, se, f.eventBySequence hse, ?_, previous, ?_, ?_⟩
  · rw [Option.mem_def, f.grantEvent hgm.1 hgm.2]
    exact hge
  · rw [Option.mem_def, hsingle]
    exact hpe
  · exact ⟨hprep.grant_next, hprep.store_next, hprep.used_at, hprep.store_is, hprep.prepared_says⟩
  · rw [Option.mem_def] at hprev ⊢
    unfold committedSequence at hprev ⊢
    rw [hsingle]
    exact hprev
  · have hpair : ∀ previous code source prior next storeNext context at',
        TerminalPair env db t i previous code source prior next storeNext context at' →
        TerminalPair env db' t i previous code source prior next storeNext context at' := by
      rintro previous code source prior next storeNext context at' ⟨e, he, x, hx, hrest⟩
      exact ⟨e, by rw [Option.mem_def, hsingle]; exact he, x, f.eventBySequence hx, hrest⟩
    unfold TerminalEvents at hterm ⊢
    split at hterm
    · trivial
    · trivial
    · obtain ⟨at', hat, e, he, x, hx, hrest⟩ := hterm
      exact ⟨at', hat, e, by rw [Option.mem_def, hsingle]; exact he, x, f.eventBySequence hx, hrest⟩
    · obtain ⟨at', hat, hp⟩ := hterm
      exact ⟨at', hat, hpair _ _ _ _ _ _ _ _ hp⟩
    · next hst =>
        obtain ⟨at', hat, x, hx, hp⟩ := hterm
        exact ⟨at', hat, x, hstore hst x hx, hpair _ _ _ _ _ _ _ _ hp⟩

end Parts

/-! ## 2. Projections -/

theorem isOk_iff {ε α : Type} {x : Except ε α} : x.isOk = true ↔ ∃ a, x = .ok a := by
  cases x <;> simp [Except.isOk, Except.toBool]

/-- The generation a transition shows can be read from its chain. -/
theorem projectionAccountGeneration_ok {t : Transition} {state : TransitionState} {o : Origin}
    {value : AccountMutationManifest} {x : AccountSnapshot}
    (ho : loadOrigin env codec db t.grantId = some o)
    (hv : mutationOf t.kind o.manifest.payload = some value)
    (hx : projectedSnapshot t state value = some x) :
    projectionAccountGeneration env codec db t state = .ok x.generation := by
  simp [projectionAccountGeneration, ho, hv, hx, orRefuse]

/-- Every mutation shows a snapshot in every state. -/
theorem Mutates.projectedSnapshot {t : Transition} {m : ActionManifest}
    {value : AccountMutationManifest} {account : AccountSnapshot}
    (h : Mutates t.kind m value account) (state : TransitionState) :
    ∃ x, Authority.projectedSnapshot t state value = some x := by
  have hs := h.snapshot
  unfold accountSnapshotOf at hs
  unfold Authority.projectedSnapshot
  split
  · next hc =>
      rcases hc with hr | ⟨hk, -⟩
      · rw [if_pos hr] at hs
        exact ⟨account, hs⟩
      · obtain ⟨before, hb, -⟩ := h.replaces hk
        exact ⟨before, hb⟩
  · next hc =>
      rw [if_neg (not_or.mp hc).1] at hs
      exact ⟨account, hs⟩

section Projection

variable (f : Frame db db' new)
include f

theorem Frame.projection (h : Accepted env codec s db) {t : Transition} {o : Origin}
    {value : AccountMutationManifest} {account : AccountSnapshot} {a a' : Account}
    (hc : TransitionChain env codec db t o value account a)
    (ha' : loadRegisteredAccount db' t.accountId = some a') (hcont : a.Continues a')
    (hopen : ¬t.Settled → a' = a ∧ ∀ x, loadRegisteredStoreById db t.storeId = some x →
      loadRegisteredStoreById db' t.storeId = some x) :
    (transitionProjection env codec db' t).isOk := by
  have hold := hc.checks.projection
  rw [isOk_iff] at hold ⊢
  obtain ⟨y, hy⟩ := hold
  have ha : loadRegisteredAccount db t.accountId = some a :=
    (loadRegisteredAccount_iff f.tables).mpr ⟨hc.account_mem, hc.account_id⟩
  obtain ⟨x, hx⟩ := hc.mutates.projectedSnapshot t.state
  have hgen := projectionAccountGeneration_ok hc.load hc.mutation hx
  have hgen' := projectionAccountGeneration_ok (f.origin h hc.load) hc.mutation hx
  refine ⟨y, ?_⟩
  simp only [transitionProjection, ha, ha', hgen, hgen', orRefuse_ok, bind_ok, ensure_ok,
    Option.some.injEq, Except.ok.injEq] at hy ⊢
  obtain ⟨_, rfl, _, rfl, _, hids, hy⟩ := hy
  refine ⟨a', rfl, _, rfl, (), ⟨hcont.1.trans hids.1, hcont.2.1.trans hids.2⟩, ?_⟩
  split at hy
  · next hst =>
      obtain ⟨rfl, hload⟩ := hopen (by simp [Transition.Settled, hst])
      simp only [bind_ok, orRefuse_ok] at hy ⊢
      obtain ⟨x, hx, hy⟩ := hy
      exact ⟨x, hload x hx, hy⟩
  · next hst =>
      obtain ⟨rfl, hload⟩ := hopen (by simp [Transition.Settled, hst])
      simp only [bind_ok, orRefuse_ok] at hy ⊢
      obtain ⟨x, hx, hy⟩ := hy
      exact ⟨x, hload x hx, hy⟩
  · exact hy
  · exact hy
  · next hst =>
      obtain ⟨rfl, hload⟩ := hopen (by simp [Transition.Settled, hst])
      simp only [bind_ok, orRefuse_ok] at hy ⊢
      obtain ⟨x, hx, hy⟩ := hy
      exact ⟨x, hload x hx, hy⟩

/-- **A bystander stays valid.** -/
theorem Frame.bystanderOk (h : Accepted env codec s db) {t : Transition} {o : Origin}
    {value : AccountMutationManifest} {account : AccountSnapshot} {a : Account}
    (hc : TransitionChain env codec db t o value account a)
    (hb : Bystander env db db' new t a) : TransitionOk env codec db' t := by
  have hk := hc.checks
  obtain ⟨a', ha', hcont⟩ := f.account
    ((loadRegisteredAccount_iff f.tables).mpr ⟨hc.account_mem, hc.account_id⟩)
  -- an undisturbed account is the same row
  have hsame : a ∈ db'.accounts → a' = a := by
    intro ham
    have hm := (loadRegisteredAccount_iff f.tables').mp ha'
    exact eq_of_key_eq f.tables'.accounts.id_unique hm.1 ham (hm.2.trans hc.account_id.symm)
  have hstore : ¬t.Settled → ∀ x, loadRegisteredStoreById db t.storeId = some x →
      loadRegisteredStoreById db' t.storeId = some x := by
    intro hns x hx
    rw [loadRegisteredStoreById_iff f.tables] at hx
    rcases hb.undisturbed with ⟨-, -, hst⟩ | ⟨hset, -⟩
    · exact (loadRegisteredStoreById_iff f.tables').mpr ⟨hst hns x hx.1 hx.2, hx.2⟩
    · exact absurd hset hns
  refine ⟨o, f.origin h hc.load, value, hc.mutation, account, hc.mutates.snapshot, a', ha', hk.row,
    hk.signed, ?_, f.transitionCredential hk.credential, ?_, fun hne => f.mutationParent (hk.parent hne),
    hb.cleanups value hk.cleanups, f.projection h hc ha' hcont ?_, f.transitionEvents hb.quiet ?_ hk.events⟩
  · refine ⟨hk.account.display_id.trans hcont.2.2.1.symm, ?_, ?_, ?_⟩
    · intro hne
      rcases hb.undisturbed with ⟨-, hiff, -⟩ | ⟨hset, -⟩
      · exact hk.account.settled fun hn => hne (hiff.mpr hn)
      · exact hset
    · intro hcr
      exact hcont.2.2.2.trans (hk.account.created_at hcr)
    · intro hn
      rcases hb.undisturbed with ⟨ham, hiff, -⟩ | ⟨-, hne⟩
      · rw [hsame ham]
        exact f.currentAccount hk.parent (hk.account.current (hiff.mp hn))
      · exact absurd hn hne
  · refine ⟨hb.store_versions.trans hk.versions.store_versions,
      hb.account_versions.trans hk.versions.account_versions, fun hr at' hat => ?_⟩
    obtain ⟨v, hv, hrest⟩ := hk.versions.account_version hr at' hat
    exact ⟨v, f.accountVersionByTransition hv, hrest⟩
  · intro hns
    refine ⟨?_, hstore hns⟩
    rcases hb.undisturbed with ⟨ham, -⟩ | ⟨hset, -⟩
    · exact hsame ham
    · exact absurd hset hns
  · intro hst
    exact hstore (by simp [Transition.Settled, hst])

end Projection

end Kirje.Authority
