import Kirje.Authority.Aborting
import Kirje.Authority.Registry

/-
  File:      Kirje/Authority/Refining.lean
  Subject:   The calls of the authority store move the registry as its machine does.

  Every step on an accepted database leaves the registry alone or is one of its moves
  (`step_refines`).  So the chains, which the machine keeps, hold after every run from
  a bootstrap, in the rows of the code.

  * `registry_chained`: **in every state of every run the registry is chained**, and what
    ended stays as it is.
-/

namespace Kirje.Authority

open Base Registry

variable {env : Platform} {codec : ManifestCodec} {s : Snapshot} {start db db' : Db}

/-! ## 1. Observations -/

theorem TransitionMove.exchange {new : List Event} {t t' : Transition} {a a' : Account} {x x' : Store}
    (h : TransitionMove db db' new t t' a a' x x') :
    Exchange db.registry db'.registry t t' a a' x x' where
  mem := ⟨h.mem, h.account.1, h.store.1⟩
  opened := h.opened
  ids := ⟨h.account.2, h.store.2.1⟩
  transitions := h.transitions
  accounts := h.accounts
  stores := h.stores
  continues := h.continues

section Observed

variable {t : Transition} {o : Origin} {value : AccountMutationManifest}
  {account : AccountSnapshot} {a : Account} {x : Store} {at' : Int}
  (ho : Observed env codec s db t o value account a x at')
include ho

theorem Observed.commits (hst : t.state = .prepared) :
    Move db.registry (configCommitted env db t a x o.receipt.receiptId at').registry := by
  have hinc := (ho.accepted.tables.transitions.checks t ho.mem).2.1
  refine .commits (ho.commitMove hst).exchange ⟨hst, ho.uncommitted hst⟩ ?_ hinc rfl rfl
  rcases ho.holds.pair with ⟨-, hgen, hsha⟩ | ⟨hst', -⟩
  · rw [Store.pair, hgen, hsha, Transition.beforePair]
  · exact absurd (hst.symm.trans hst') (by decide)

theorem Observed.finalizes (hst : t.state = .configCommitted) :
    Move db.registry (transitionFinalized env db t o.receipt.receiptId at').registry := by
  have htime := ho.chain.checks.row.timestamps
  simp only [timestampShape, hst] at htime
  rw [transitionFinalized_eq]
  refine .finalizes (ho.finalizeMove hst).exchange ?_ rfl rfl
  exact Option.isSome_iff_ne_none.mp htime.1

/-- What a transition adds to the generation of its account. -/
theorem Observed.proposed (hst : t.state = .prepared) (hk : t.kind ≠ .accountCreate)
    {before : AccountSnapshot} (hb : value.before = some before) :
    a.accountGeneration.val = before.generation.val + t.proposes := by
  obtain ⟨-, ⟨hgen, -⟩, -⟩ := ho.openAccount
  obtain ⟨before', hb', hreplaces⟩ := ho.chain.mutates.replaces hk
  obtain rfl : before = before' := Option.some.inj (hb.symm.trans hb')
  rw [hgen]
  by_cases hr : t.kind = .accountRemove
  · simp [Transition.proposes, hr, hreplaces.removed hr]
  · have hinc := hreplaces.generation hr
    simp only [NonZeroU64.exactIncrement, beq_iff_eq] at hinc
    simp [Transition.proposes, hr, ho.uncommitted hst, ← hinc]

theorem Observed.aborts (hst : t.state = .prepared) {accounts : List Account}
    (hacc : abortedAccounts env codec db t at' = .ok accounts) :
    Move db.registry (transitionAborted env db t accounts o.receipt.receiptId at').registry := by
  obtain ⟨a', hr⟩ := ho.restores hacc
  obtain ⟨current, hcur, -, -, ⟨hgen, -⟩, hcols⟩ := hr.current
  simp only [currentColumns, abortedRow, Option.map_some, Option.some.injEq, Prod.mk.injEq] at hcols
  obtain ⟨hstate, hnone, -⟩ := hcols
  refine .aborts (ho.abortMove hst hr).exchange hnone.symm (fun hactive => ?_) rfl rfl
  have hk : t.kind ≠ .accountCreate := by
    intro hk
    rw [← hstate, abortedAccountState, if_pos hk] at hactive
    cases hactive
  have hb : value.before = some current := by
    simpa [currentSnapshot, restoredPredecessor, abortedRow, hk] using hcur
  rw [hgen]
  exact ho.proposed hst hk hb

theorem Observed.stops (r : ObservationRequest) :
    Move db.registry (transitionStopped env db t r o.receipt.receiptId at').registry :=
  .stops (ho.stopMove r).exchange rfl rfl

end Observed

/-! ## 2. Preparations -/

section Prepares

variable {r : PrepareRequest} {receipt : Receipt} {c : Challenge} {accounts : List Account}
  {location : Digest} {x : Store} {at' : Int} (ha : Accepted env codec s db)
  (hp : Prepares env codec s db r receipt c accounts location x at')
include ha hp

/-- The account a preparation writes is new, or was active. -/
theorem Prepares.enters : Enters db.registry (transitionRow env r at') accounts := by
  obtain ⟨m, value, account, target, hpr⟩ := hp.proposal ha
  have hgen := hpr.same.account_generation
  by_cases hk : r.kind = .accountCreate
  · obtain ⟨rfl, hfresh, -⟩ := hp.created ha.tables hk
    refine @Enters.created _ _ (accountRow r receipt.receiptId at') hk hfresh ⟨rfl, rfl⟩ ?_ ⟨rfl, rfl⟩
    exact (congrArg NonZeroU64.val hgen).trans (hpr.mutates.created hk).2
  · obtain ⟨before, a, hf, hmem⟩ := hp.found_account ha.tables hk hpr
    obtain ⟨hid, hstore, -, hbefore, -, -, hst, -⟩ := hf.key
    obtain ⟨before', hb', hreplaces⟩ := hpr.mutates.replaces hk
    obtain rfl : before = before' := Option.some.inj (hf.before_eq.symm.trans hb')
    refine @Enters.blocked _ _ a (blockAccount r receipt.receiptId at' a) accounts hf.mem hst
      ⟨hid, hstore.symm⟩ ⟨rfl, rfl⟩ ?_ ⟨rfl, rfl⟩ fun b => ?_
    · show r.accountGeneration.val = _
      rw [hgen, hbefore]
      by_cases hr : r.kind = .accountRemove
      · simp [Transition.proposes, transitionRow, hr, hreplaces.removed hr]
      · have hinc := hreplaces.generation hr
        simp only [NonZeroU64.exactIncrement, beq_iff_eq] at hinc
        simp [Transition.proposes, transitionRow, hr, ← hinc]
    · rw [hid]
      exact hmem b

theorem Prepares.begins : Move db.registry
    (transitionPrepared env db r accounts location receipt.receiptId at').registry := by
  obtain ⟨hx, hb, -⟩ := hp.store
  obtain ⟨hid, hst, -⟩ := of_decide_eq_true hb
  have hrows := hp.mem_stores ha.tables
  rw [transitionPrepared, appendEvents_eq] at hrows ⊢
  exact .begins (hp.fresh ha.tables) ⟨rfl, rfl⟩ hx hst hid hrows (hp.enters ha)

end Prepares

/-! ## 3. Runs -/

/-- **Every step on an accepted database leaves the registry alone, or is one of its moves.** -/
theorem step_refines (ha : Accepted env codec s db) (h : Step env codec s db db') :
    db'.registry = db.registry ∨ Move db.registry db'.registry := by
  cases h with
  | clocked ht hs => exact Or.inl rfl
  | pendingExpired hc hst ht hexp hs => exact Or.inl rfl
  | receiptExpired hc hst hfree hr hrc hm hi ht hexp hs => exact Or.inl rfl
  | challengeCreated hi ht hs => exact Or.inl rfl
  | challengeProved hc hst ht hrc hrat hrok hs => exact Or.inl rfl
  | storeEnrolled he hexp ht hs => exact Or.inr (.enrolls he.fresh rfl ⟨rfl, rfl, rfl, rfl⟩)
  | cleanupClaimed hc hexp ht hs => exact Or.inl rfl
  | cleanupDeleted hd ht hs => exact Or.inl rfl
  | transitionPrepared hp hexp ht hs => exact Or.inr (hp.begins ha)
  | configCommitted ho hst hs => exact Or.inr (ho.commits hst)
  | transitionFinalized ho hst hs => exact Or.inr (ho.finalizes hst)
  | transitionAborted ho hst hacc hs => exact Or.inr (ho.aborts hst hacc)
  | transitionStopped ho hunsafe hs => exact Or.inr (ho.stops _)

/-- A bootstrap leaves the registry empty. -/
theorem Bootstraps.registry (h : Bootstraps env start) : start.registry = ⟨[], [], [], [], []⟩ := by
  obtain ⟨host, handle, input, s, ha, hf⟩ := h
  obtain ⟨hboot, -⟩ := firstBootstrap_ok ha hf
  obtain ⟨created, last, confirmed, rfl, -⟩ := hboot.rows
  cases confirmed <;> rfl

/-- **In every state of every run from a bootstrap the registry is chained**, and a transition that
    ended never changes again. -/
theorem registry_chained (hstart : Bootstraps env start) (hrun : Run env codec start db) :
    db.registry.Chained ∧ ∀ db', Run env codec db db' →
      ∀ t ∈ db.transitions, ¬t.Open → t ∈ db'.transitions := by
  refine ⟨?_, fun db' hrun' t ht hended => ?_⟩
  · refine hrun.invariant (P := fun db => db.registry.Chained) (fun {x y} hs hx => ?_)
      (fun {_ x y} ha hstep hx => ?_) ?_
    · have heq : y.registry = x.registry := by
        have h := hs.registry
        simp only [Db.registry, h.stores, h.storeVersions, h.accounts, h.accountVersions,
          h.transitions]
      rw [heq]
      exact hx
    · rcases step_refines ha hstep with heq | hmove
      · rw [heq]
        exact hx
      · exact hmove.chained hx
    · rw [hstart.registry]
      exact Registry.chained_nil
  · obtain ⟨t', ht', hadv⟩ := hrun'.lasts.transitions t ht
    have heq : t' = t := hadv.last (fun hst => hended (Or.inl hst)) fun hst => hended (Or.inr hst)
    exact heq ▸ ht'

namespace Sample

/-- The calls of a process, each chosen in the state it finds. -/
def play (db : Db) (calls : List (Db → Call)) : Db :=
  calls.foldl (fun db call => (runCall platform listCodec realm db (call db)).1) db

theorem run_play (calls : List (Db → Call)) (db : Db) : Run platform listCodec db (play db calls) := by
  induction calls generalizing db with
  | nil => exact .refl
  | cons call calls ih => exact .head (.call realm (call db)) (ih _)

/-- A challenge for the manifest at a place of the list. -/
def issues (i : Nat) (at' : Int) (_ : Db) : Call :=
  .createChallenge (some (uuid (100 + i), digest (100 + i))) ⟨manifestAt i, at', at' + 1000⟩

/-- Its proof. -/
def proves (i : Nat) (at' : Int) (db : Db) : Call :=
  ((db.challenges.find? fun c => c.grantId = uuid (100 + i)).map fun c =>
    Call.verifyProof (some (uuid (120 + i))) ⟨proofOf c, at'⟩).getD (issues i at' db)

/-- A store is enrolled, and the creation of an account in it prepared. -/
def creationCalls : List (Db → Call) :=
  [issues 0 100, proves 0 101, fun _ => .enrollStore enrollRequest, issues 1 400, proves 1 401,
    fun _ => .prepareAccountTransition create]

theorem confirmed : Run platform listCodec (bootstrapRows platform realm 5) ready := by
  refine .single (.confirm true ⟨⟨some realm, digest 1⟩, .confirmationRequired realm⟩ realm 6 ?_)
  decide +kernel

/-- The stores with their pairs, the pairs of their versions, and where the accounts stand. -/
def outline (R : Registry) : List (StoreState × NonZeroU64 × Digest) × List (NonZeroU64 × Digest) ×
    List (AccountState × Option TransitionId) :=
  (R.stores.map fun x => (x.state, x.pair), R.storeVersions.map StoreVersion.pair,
    R.accounts.map fun a => (a.state, a.activeTransitionId))

/-- After that run the store is blocked and the account proposed, both grants are used, and nothing
    is to be cleaned up. -/
theorem prepared_outline : outline (play ready creationCalls).registry =
      ([(.blocked, one, digest 42)], [(one, digest 42)], [(.proposed, some (uuid 80))]) ∧
    (play ready creationCalls).grants.length = 2 ∧ (play ready creationCalls).cleanups = [] := by
  decide +kernel

theorem prepared_run : Run platform listCodec (bootstrapRows platform realm 5)
    (play ready creationCalls) :=
  confirmed.trans (run_play creationCalls ready)

/-- Its registry is chained. -/
theorem prepared_registry :
    (play ready creationCalls).registry.Chained ∧
    outline (play ready creationCalls).registry =
      ([(.blocked, one, digest 42)], [(one, digest 42)], [(.proposed, some (uuid 80))]) :=
  ⟨(registry_chained bootstraps prepared_run).1, prepared_outline.1⟩

end Sample

end Kirje.Authority
