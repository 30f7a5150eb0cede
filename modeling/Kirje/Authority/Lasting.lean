import Kirje.Authority.Clock

/-
  File:      Kirje/Authority/Lasting.lean
  Subject:   What a run keeps of the rows it finds.

  No row is deleted.  A challenge changes its state, a store its pair and state, a
  transition goes on to a terminal state and stays there, a claimed cleanup is at
  most deleted.  `Lasts` says so of one change of the database; it is reflexive and
  transitive, so it holds over every run (`Run.lasts`).
-/

namespace Kirje.Authority

open Base

variable {env : Platform} {codec : ManifestCodec} {s : Snapshot} {db db' db'' : Db}

/-! ## 1. Rows -/

/-- A transition keeps what was signed and its config commit; once committed it is not aborted, and
    a terminal state is the last. -/
structure Transition.Advances (t t' : Transition) : Prop where
  same : ∃ state committed finalized resolved, t' = { t with
    state := state
    configCommittedAt := committed
    finalizedAt := finalized
    resolvedAt := resolved }
  committed : ∀ at' ∈ t.configCommittedAt, t'.configCommittedAt = some at'
  forward : t.state = .configCommitted → t'.state ≠ .prepared ∧ t'.state ≠ .aborted
  last : t.state ≠ .prepared → t.state ≠ .configCommitted → t' = t

theorem Transition.Advances.refl (t : Transition) : t.Advances t where
  same := ⟨t.state, t.configCommittedAt, t.finalizedAt, t.resolvedAt, rfl⟩
  committed _ h := h
  forward h := by simp [h]
  last _ _ := rfl

theorem Transition.Advances.trans {t t' t'' : Transition} (h : t.Advances t')
    (h' : t'.Advances t'') : t.Advances t'' where
  same := by
    obtain ⟨_, _, _, _, rfl⟩ := h.same
    obtain ⟨_, _, _, _, rfl⟩ := h'.same
    exact ⟨_, _, _, _, rfl⟩
  committed at' hat := h'.committed at' (h.committed at' hat)
  forward hst := by
    have hmid := h.forward hst
    by_cases hc : t'.state = .configCommitted
    · exact h'.forward hc
    · rw [h'.last hmid.1 hc]
      exact hmid
  last hp hc := by
    have heq := h.last hp hc
    rw [h'.last (heq ▸ hp) (heq ▸ hc), heq]

/-- A cleanup keeps what was reserved and its claim; a claimed one is at most deleted, at a time that
    can be read, and a deleted one is done. -/
structure Cleanup.Advances (x x' : Cleanup) : Prop where
  same : ∃ state claim deleted, x' = { x with
    state := state
    claimGrantId := claim
    deletedAt := deleted }
  claim : ∀ g ∈ x.claimGrantId, x'.claimGrantId = some g
  claimed : x.state = .claimed → x' = x ∨ x'.state = .deleted ∧
    ∃ d, x'.deletedAt = some d ∧ Representable d
  deleted : x.state = .deleted → x' = x

theorem Cleanup.Advances.refl (x : Cleanup) : x.Advances x where
  same := ⟨x.state, x.claimGrantId, x.deletedAt, rfl⟩
  claim _ h := h
  claimed _ := .inl rfl
  deleted _ := rfl

theorem Cleanup.Advances.trans {x x' x'' : Cleanup} (h : x.Advances x') (h' : x'.Advances x'') :
    x.Advances x'' where
  same := by
    obtain ⟨_, _, _, rfl⟩ := h.same
    obtain ⟨_, _, _, rfl⟩ := h'.same
    exact ⟨_, _, _, rfl⟩
  claim g hg := h'.claim g (h.claim g hg)
  claimed hst := by
    rcases h.claimed hst with heq | ⟨hdel, hd⟩
    · rw [heq] at h'
      exact h'.claimed hst
    · rw [h'.deleted hdel]
      exact .inr ⟨hdel, hd⟩
  deleted hst := by
    have heq := h.deleted hst
    rw [h'.deleted (heq ▸ hst), heq]

/-- A store keeps its place and enrollment, and everything once it requires recovery. -/
structure Store.Advances (x x' : Store) : Prop where
  same : x.Continues x'
  stopped : x.state = .recoveryRequired → x' = x

theorem Store.Advances.refl (x : Store) : x.Advances x := ⟨Store.Continues.refl x, fun _ => rfl⟩

theorem Store.Advances.trans {x x' x'' : Store} (h : x.Advances x') (h' : x'.Advances x'') :
    x.Advances x'' where
  same := by
    obtain ⟨_, _, _, _, rfl⟩ := h.same
    obtain ⟨_, _, _, _, rfl⟩ := h'.same
    exact ⟨_, _, _, _, rfl⟩
  stopped hst := by
    have heq := h.stopped hst
    rw [h'.stopped (heq ▸ hst), heq]

theorem Challenge.Continues.trans {c c' c'' : Challenge} (h : c.Continues c')
    (h' : c'.Continues c'') : c.Continues c'' := by
  obtain ⟨_, rfl⟩ := h
  obtain ⟨_, rfl⟩ := h'
  exact ⟨_, rfl⟩

/-! ## 2. Changes of the database -/

/-- **What every change keeps.**  What a change leaves alone is filled in by default. -/
structure Lasts (db db' : Db) : Prop where
  challenges : ∀ c ∈ db.challenges, ∃ c' ∈ db'.challenges, c.Continues c' := by
    exact fun c hc => ⟨c, hc, Challenge.Continues.refl c⟩
  receipts : db.receipts ⊆ db'.receipts := by exact List.Subset.refl _
  grants : db.grants ⊆ db'.grants := by exact List.Subset.refl _
  stores : ∀ x ∈ db.stores, ∃ x' ∈ db'.stores, x.Advances x' := by
    exact fun x hx => ⟨x, hx, Store.Advances.refl x⟩
  storeVersions : db.storeVersions ⊆ db'.storeVersions := by exact List.Subset.refl _
  transitions : ∀ t ∈ db.transitions, ∃ t' ∈ db'.transitions, t.Advances t' := by
    exact fun t ht => ⟨t, ht, Transition.Advances.refl t⟩
  cleanups : ∀ x ∈ db.cleanups, ∃ x' ∈ db'.cleanups, x.Advances x' := by
    exact fun x hx => ⟨x, hx, Cleanup.Advances.refl x⟩

theorem Lasts.refl (db : Db) : Lasts db db := {}

theorem Lasts.trans (h : Lasts db db') (h' : Lasts db' db'') : Lasts db db'' where
  challenges c hc := by
    obtain ⟨c', hc', hcont⟩ := h.challenges c hc
    obtain ⟨c'', hc'', hcont'⟩ := h'.challenges c' hc'
    exact ⟨c'', hc'', hcont.trans hcont'⟩
  receipts := List.Subset.trans h.receipts h'.receipts
  grants := List.Subset.trans h.grants h'.grants
  stores x hx := by
    obtain ⟨x', hx', hadv⟩ := h.stores x hx
    obtain ⟨x'', hx'', hadv'⟩ := h'.stores x' hx'
    exact ⟨x'', hx'', hadv.trans hadv'⟩
  storeVersions := List.Subset.trans h.storeVersions h'.storeVersions
  transitions t ht := by
    obtain ⟨t', ht', hadv⟩ := h.transitions t ht
    obtain ⟨t'', ht'', hadv'⟩ := h'.transitions t' ht'
    exact ⟨t'', ht'', hadv.trans hadv'⟩
  cleanups x hx := by
    obtain ⟨x', hx', hadv⟩ := h.cleanups x hx
    obtain ⟨x'', hx'', hadv'⟩ := h'.cleanups x' hx'
    exact ⟨x'', hx'', hadv.trans hadv'⟩

/-- An update that relates each row it changes to what it makes of it relates every row. -/
theorem update_lasts {α : Type} {R : α → α → Prop} {p : α → Bool} {f : α → α} {rows : List α}
    (hr : ∀ x, R x x) (hf : ∀ x ∈ rows, p x = true → R x (f x)) :
    ∀ x ∈ rows, ∃ x' ∈ update p f rows, R x x' := by
  intro x hx
  refine ⟨if p x = true then f x else x, mem_update.mpr ⟨x, hx, rfl⟩, ?_⟩
  split
  · exact hf x hx ‹_›
  · exact hr x

/-- A store that is not stopped advances to any pair and state. -/
theorem stores_last {p : Store → Bool} {f : Store → Store} {rows : List Store}
    (hf : ∀ x : Store, x.Continues (f x)) (hp : ∀ x, p x = true → x.state ≠ .recoveryRequired) :
    ∀ x ∈ rows, ∃ x' ∈ update p f rows, x.Advances x' :=
  update_lasts Store.Advances.refl fun x _ hx => ⟨hf x, fun hst => absurd hst (hp x hx)⟩

section Observed

variable {t : Transition} {o : Origin} {value : AccountMutationManifest}
  {account : AccountSnapshot} {a : Account} {x : Store} {at' : Int}
  (ho : Observed env codec s db t o value account a x at')
include ho

/-- An open transition goes on to a state. -/
theorem Observed.transitions_last {state : TransitionState} {f : Transition → Transition}
    (hf : t.Advances (f t)) :
    ∀ u ∈ db.transitions, ∃ u' ∈ update (transitionIn t state) f db.transitions,
      u.Advances u' := by
  refine update_lasts Transition.Advances.refl fun u hu hp => ?_
  have hut : u = t :=
    eq_of_key_eq ho.accepted.tables.transitions.id_unique hu ho.mem (of_decide_eq_true hp).1
  rw [hut]
  exact hf

/-- An open transition stops or is finalized with the config commit it has. -/
theorem Observed.advances {state : TransitionState} {finalized resolved : Option Int}
    (hne : t.state = .configCommitted → state ≠ .prepared ∧ state ≠ .aborted) :
    t.Advances { t with state := state, finalizedAt := finalized, resolvedAt := resolved } where
  same := ⟨_, _, _, _, rfl⟩
  committed _ h := h
  forward := hne
  last hp hc := by
    rcases ho.opened with h | h
    · exact absurd h hp
    · exact absurd h hc

end Observed

/-- **Every step keeps the rows.** -/
theorem step_lasts (h : Step env codec s db db') : Lasts db db' := by
  cases h with
  | @clocked at' ht hs => exact {}
  | @pendingExpired c at' hc hst ht hexp hs =>
      exact { challenges := (challengeMoved_from db c.challengeId .pending .expired).1 }
  | @receiptExpired c r m intent at' hc hst hfree hr hrc hm hi ht hexp hs =>
      exact { challenges := (challengeMoved_from db c.challengeId .authorized .expired).1 }
  | @challengeCreated c at' hi ht hs =>
      exact
        { challenges := fun x hx => ⟨x, List.mem_append_left _ hx, Challenge.Continues.refl x⟩ }
  | @challengeProved c r at' hc hst ht hrc hrat hrok hs =>
      exact
        { challenges := (challengeMoved_from db c.challengeId .pending .authorized).1
          receipts := List.subset_append_left _ _ }
  | @storeEnrolled r receipt c m e at' he hexp ht hs =>
      rw [storeEnrolled, appendEvents_eq]
      exact
        { grants := List.subset_append_left _ _
          stores := fun x hx => ⟨x, List.mem_append_left _ hx, Store.Advances.refl x⟩
          storeVersions := List.subset_append_left _ _ }
  | @cleanupClaimed r receipt c m value x at' hc hexp ht hs =>
      rw [cleanupClaimed, appendEvents_eq]
      refine
        { grants := List.subset_append_left _ _
          cleanups := update_lasts Cleanup.Advances.refl fun y _ hp => ?_ }
      obtain ⟨-, hst, hclaim, -⟩ := of_decide_eq_true hp
      exact ⟨⟨_, _, _, rfl⟩, by simp [hclaim], by simp [hst], by simp [hst]⟩
  | @cleanupDeleted permit x g at' hd ht hs =>
      rw [cleanupDeleted, appendEvents_eq]
      refine { cleanups := update_lasts Cleanup.Advances.refl fun y _ hp => ?_ }
      obtain ⟨-, hst, -⟩ := of_decide_eq_true hp
      exact ⟨⟨_, _, _, rfl⟩, fun _ h => h, fun _ => .inr ⟨rfl, at', rfl, ht.utc⟩, by simp [hst]⟩
  | @transitionPrepared r receipt c accounts location x at' hp hexp ht hs =>
      rw [transitionPrepared, appendEvents_eq]
      refine
        { grants := List.subset_append_left _ _
          stores := stores_last (fun _ => ⟨_, _, _, _, rfl⟩) fun y hy => ?_
          transitions := fun t ht => ⟨t, List.mem_append_left _ ht, Transition.Advances.refl t⟩
          cleanups := fun y hy => ⟨y, List.mem_append_left _ hy, Cleanup.Advances.refl y⟩ }
      simp [(of_decide_eq_true hy).2.1]
  | @configCommitted t o value account a x at' ho hst hs =>
      rw [configCommitted, appendEvents_eq]
      refine
        { stores := stores_last (fun _ => ⟨_, _, _, _, rfl⟩) fun y hy => ?_
          storeVersions := List.subset_append_left _ _
          transitions := ho.transitions_last ⟨⟨_, _, _, _, rfl⟩, ?_, ?_, ?_⟩ }
      · simp [(of_decide_eq_true hy).2.1]
      · simp [ho.uncommitted hst]
      · simp
      · simp [hst]
  | @transitionFinalized t o value account a x at' ho hst hs =>
      rw [transitionFinalized, appendEvents_eq]
      refine
        { stores := stores_last (fun _ => ⟨_, _, _, _, rfl⟩) fun y hy => ?_
          transitions := ho.transitions_last (ho.advances (by simp))
          cleanups := update_lasts Cleanup.Advances.refl fun y _ hp => ?_ }
      · simp [(of_decide_eq_true hy).2.1]
      · obtain ⟨-, hpr⟩ := of_decide_eq_true hp
        exact ⟨⟨_, _, _, rfl⟩, fun _ h => h, by simp [hpr], by simp [hpr]⟩
  | @transitionAborted t o value account a x accounts at' ho hst hacc hs =>
      rw [transitionAborted, appendEvents_eq]
      refine
        { stores := stores_last (fun _ => ⟨_, _, _, _, rfl⟩) fun y hy => ?_
          transitions := ho.transitions_last (ho.advances (by simp [hst])) }
      simp [(of_decide_eq_true hy).2.1]
  | @transitionStopped t o value account a x r at' ho hunsafe hs =>
      rw [transitionStopped, appendEvents_eq]
      refine
        { stores := stores_last (fun _ => ⟨_, _, _, _, rfl⟩) fun y hy => ?_
          transitions := ho.transitions_last (ho.advances (by simp)) }
      simp [(of_decide_eq_true hy).2]

theorem Operates.lasts (h : Operates env codec db db') : Lasts db db' := by
  cases h with
  | call s call =>
      rcases @runCall_steps env codec s db call with h | ⟨ha, h⟩
      · rw [h]
        exact Lasts.refl db
      · cases h with
        | one h => exact step_lasts h
        | two h ha₁ h' => exact (step_lasts h).trans (step_lasts h')
  | prepare host handle input h =>
      rcases prepareBootstrap_authority h with rfl | ⟨x, h⟩
      · exact Lasts.refl _
      · simp only [retryExistingBootstrap, observeExistingBootstrap, bind_ok, ensure_ok, written_ok,
          pure_ok, Prod.mk.injEq] at h
        obtain ⟨loaded, -, _, -, _, ⟨at', -, -, rfl⟩, rfl, -⟩ := h
        exact {}
  | confirm secured handle anchor observed h =>
      rcases confirmAnchor_authority h with rfl | ⟨opened, x, h⟩
      · exact Lasts.refl _
      · simp only [confirmDb, bind_ok, ensure_ok, written_ok, insertTypedEvent_ok, pure_ok,
          Prod.mk.injEq] at h
        obtain ⟨loaded, -, _, -, at', -, _, ⟨-, rfl⟩, _, ⟨-, rfl⟩, rfl, -⟩ := h
        exact {}

/-- **Every run keeps the rows.** -/
theorem Run.lasts (h : Run env codec db db') : Lasts db db' := by
  induction h with
  | refl => exact Lasts.refl _
  | tail _ hop ih => exact ih.trans hop.lasts

end Kirje.Authority
