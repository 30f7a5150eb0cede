import Kirje.Authority.Preparing
import Kirje.Authority.Retries
import Kirje.Authority.Runs

/-
  File:      Kirje/Authority/Aborting.lean
  Subject:   An abort leaves the registry as its preparation found it.

  The row of the account was overwritten by the preparation.  The abort rebuilds it
  from the signed snapshot, from the version table and from the receipt of the
  transition that committed the version; these agree with the overwritten row because
  an active account stands on its version, and versions are kept over every run.

  * `Run.accounts`: a run keeps the names of the accounts and all their versions.
  * `abort_restores_the_registry`: **after the abort the store and the account are what
    they were before the preparation**, whatever was committed in between.
-/

namespace Kirje.Authority

open Base

variable {env : Platform} {codec : ManifestCodec} {s s' : Snapshot} {db₀ db db' db'' : Db}

/-! ## 1. Accounts over runs -/

theorem Account.Continues.trans {a a' a'' : Account} (h : a.Continues a') (h' : a'.Continues a'') :
    a.Continues a'' :=
  ⟨h'.1.trans h.1, h'.2.1.trans h.2.1, h'.2.2.1.trans h.2.2.1, h'.2.2.2.trans h.2.2.2⟩

/-- **What every change keeps of the accounts.** -/
structure AccountsLast (db db' : Db) : Prop where
  accounts : ∀ a ∈ db.accounts, ∃ a' ∈ db'.accounts, a.Continues a' := by
    exact fun a ha => ⟨a, ha, Account.Continues.refl a⟩
  versions : db.accountVersions ⊆ db'.accountVersions := by exact List.Subset.refl _

theorem AccountsLast.trans (h : AccountsLast db db') (h' : AccountsLast db' db'') :
    AccountsLast db db'' where
  accounts a ha := by
    obtain ⟨a', ha', hcont⟩ := h.accounts a ha
    obtain ⟨a'', ha'', hcont'⟩ := h'.accounts a' ha'
    exact ⟨a'', ha'', hcont.trans hcont'⟩
  versions := List.Subset.trans h.versions h'.versions

/-- One row is exchanged for one that goes on from it. -/
theorem accounts_exchanged {rows : List Account} {a a' : Account}
    (hrows : (rows.map Account.accountId).Nodup) (ha : a ∈ rows) {rows' : List Account}
    (h : ∀ b, b ∈ rows' ↔ (b ∈ rows ∧ b.accountId ≠ a.accountId) ∨ b = a')
    (hcont : a.Continues a') :
    ∀ b ∈ rows, ∃ b' ∈ rows', b.Continues b' := by
  intro b hb
  by_cases hid : b.accountId = a.accountId
  · rw [eq_of_key_eq hrows hb ha hid]
    exact ⟨a', (h a').mpr (Or.inr rfl), hcont⟩
  · exact ⟨b, (h b).mpr (Or.inl ⟨hb, hid⟩), Account.Continues.refl b⟩

theorem step_accounts (ha : Accepted env codec s db) (h : Step env codec s db db') :
    AccountsLast db db' := by
  cases h with
  | clocked ht hs => exact {}
  | pendingExpired hc hst ht hexp hs => exact {}
  | receiptExpired hc hst hfree hr hrc hm hi ht hexp hs => exact {}
  | challengeCreated hi ht hs => exact {}
  | challengeProved hc hst ht hrc hrat hrok hs => exact {}
  | storeEnrolled he hexp ht hs => exact {}
  | cleanupClaimed hc hexp ht hs => exact {}
  | cleanupDeleted hd ht hs => exact {}
  | @transitionPrepared r receipt c accounts location x at' hp hexp ht hs =>
      have hacc : ∀ b ∈ db.accounts, ∃ b' ∈ accounts, b.Continues b' := by
        by_cases hk : r.kind = .accountCreate
        · obtain ⟨rfl, -⟩ := hp.created ha.tables hk
          exact fun a hm => ⟨a, List.mem_append_left _ hm, Account.Continues.refl a⟩
        · obtain ⟨m, value, account, target, hpr⟩ := hp.proposal ha
          obtain ⟨before, a, hf, hmem⟩ := hp.found_account ha.tables hk hpr
          rw [← hf.key.1] at hmem
          exact accounts_exchanged ha.tables.accounts.id_unique hf.mem hmem ⟨rfl, rfl, rfl, rfl⟩
      rw [transitionPrepared, appendEvents_eq]
      exact { accounts := hacc }
  | @configCommitted t o value account a x at' ho hst hs =>
      rw [configCommitted, appendEvents_eq]
      exact { versions := List.subset_append_left _ _ }
  | transitionFinalized ho hst hs =>
      rw [transitionFinalized, appendEvents_eq]
      exact { accounts := exists_mem_update Account.Continues.refl fun _ _ => ⟨rfl, rfl, rfl, rfl⟩ }
  | @transitionAborted t o value account a x accounts at' ho hst hacc hs =>
      rw [transitionAborted, appendEvents_eq]
      obtain ⟨a', hr⟩ := ho.restores hacc
      exact { accounts := accounts_exchanged ha.tables.accounts.id_unique ho.chain.account_mem
                hr.mem hr.continues }
  | transitionStopped ho hunsafe hs =>
      rw [transitionStopped, appendEvents_eq]
      exact { accounts := exists_mem_update Account.Continues.refl fun _ _ => ⟨rfl, rfl, rfl, rfl⟩ }

/-- **A run keeps the names of the accounts, and their versions.** -/
theorem Run.accounts (h : Run env codec db db') : AccountsLast db db' := by
  refine h.invariant (P := AccountsLast db) ?_ ?_ {}
  · intro x y hs hx
    refine hx.trans ⟨?_, ?_⟩
    · rw [hs.registry.accounts]
      exact fun a ha => ⟨a, ha, Account.Continues.refl a⟩
    · rw [hs.registry.accountVersions]
      exact List.Subset.refl _
  · intro _ x y ha hstep hx
    exact hx.trans (step_accounts ha hstep)

/-! ## 2. The account an abort rebuilds -/

/-- The version an account stands on lasts, with the receipt it names. -/
theorem StandsOn.lasts {a : Account} {v : AccountVersion} {parent : Transition}
    (h : StandsOn db a v parent) (hl : Lasts db db') (hacc : AccountsLast db db')
    (htab : TablesOk db) (htab' : TablesOk db') : StandsOn db' a v parent := by
  obtain ⟨p, hp, hadv⟩ := hl.transitions parent h.committed.1
  obtain rfl : p = parent := hadv.last (by simp [h.finalized.1]) (by simp [h.finalized.1])
  refine ⟨⟨hacc.versions h.version.1, h.version.2⟩, h.same, ⟨hp, h.committed.2⟩, h.finalized, ?_⟩
  have hr := h.receipt
  simp only [transitionReceiptId, Option.map_eq_some_iff] at hr ⊢
  obtain ⟨g, hg, hgr⟩ := hr
  rw [loadGrantUse_iff htab] at hg
  exact ⟨g, (loadGrantUse_iff htab').mpr ⟨hl.grants hg.1, hg.2⟩, hgr⟩

/-- The origin of a transition is the chain of rows its preparation was answered from. -/
theorem PreparedBy.origin {r : PrepareRequest} {g : GrantUse} {receipt : Receipt} {c : Challenge}
    {t : Transition} (h : PreparedBy env codec db r g receipt c t) (htab : TablesOk db)
    {o : Origin} (ho : loadOrigin env codec db t.grantId = some o) :
    o.receipt = receipt ∧ manifestOf env codec c = some o.manifest := by
  have hid := h.identity
  simp only [validateAccountPrepareIdentity, accountMutationManifest, bind_ok, orRefuse_ok,
    ensure_ok] at hid
  obtain ⟨value, ⟨m, hm, -⟩, -⟩ := hid
  have hload : loadOrigin env codec db t.grantId = some ⟨g, receipt, c, m⟩ := by
    refine (loadOrigin_iff env codec htab).mpr ⟨⟨h.of_grant.1, ?_⟩, h.of_receipt, h.of_challenge, hm⟩
    exact h.of_grant.2.1.trans h.same.2.1.symm
  obtain rfl : o = ⟨g, receipt, c, m⟩ := Option.some.inj (ho.symm.trans hload)
  exact ⟨rfl, hm⟩

/-- **The account an abort leaves is the row its preparation overwrote**, but for the time. -/
theorem Restores.eq_row {r : PrepareRequest} {t : Transition} {value : AccountMutationManifest}
    {before : AccountSnapshot} {receiptId : ReceiptId} {at' : Int} {a₀ a a' : Account}
    {v : AccountVersion} {parent : Transition} {accounts : List Account}
    (hr : Restores db t value receiptId at' a a' accounts) (htab : TablesOk db)
    (hk : t.kind ≠ .accountCreate) (hb : value.before = some before)
    (ht : t.accountId = a₀.accountId) (hkey : prepareAccountKey r before a₀)
    (hstands : StandsOn db a₀ v parent) (hcont : a₀.Continues a) :
    a' = { a₀ with updatedAt := at' } := by
  have hres : restoredPredecessor (abortedRow at' t) = true := by
    simp [restoredPredecessor, abortedRow, hk]
  obtain ⟨current, hcur, expected, hexp, ⟨hgen, hcred, hbind, hrec⟩, hcols⟩ := hr.current
  obtain rfl : before = current := by
    simp only [currentSnapshot, hres, or_true, if_true] at hcur
    exact Option.some.inj (hb.symm.trans hcur)
  obtain ⟨-, -, -, hgen₀, hcred₀, hbind₀, hst₀, hact₀, hrem₀⟩ := hkey
  have hversion : loadAccountVersion db (abortedRow at' t).accountId before.generation = some v :=
    (loadAccountVersion_iff htab).mpr
      ⟨hstands.version.1, hstands.version.2.1.trans ht.symm, hstands.version.2.2.trans hgen₀⟩
  have hparent : loadAccountTransition db v.committedTransitionId = some parent :=
    (loadAccountTransition_iff htab).mpr hstands.committed
  have hreceipt : expected = a₀.authorizedReceiptId := by
    simpa [currentReceipt, hres, hversion, hparent, hstands.receipt, eq_comm] using hexp
  simp only [currentColumns, abortedRow, abortedAccountState, hk, if_false, Option.map_some,
    Option.some.injEq, Prod.mk.injEq] at hcols
  obtain ⟨hid, hstore, hname, hcreated⟩ := hcont.trans hr.continues
  obtain ⟨hst, hact, hupd, hrem⟩ := hcols
  cases a'
  cases a₀
  simp_all

/-! ## 3. A preparation and its abort -/

/-- **The registry is as it was** for a preparation and its abort: `db₀` and `db₁` are the database
    before and after the preparation, `db` and `db'` before and after the abort. -/
structure Undone (r : PrepareRequest) (db₀ db₁ db db' : Db) : Prop where
  store : ∃ x ∈ db₀.stores, x.storeId = r.storeId ∧
    ∃ at', { x with updatedAt := at' } ∈ db'.stores
  account : r.kind ≠ .accountCreate → ∃ a ∈ db₀.accounts, a.accountId = r.accountId ∧
    ∃ at', { a with updatedAt := at' } ∈ db'.accounts
  created : r.kind = .accountCreate → (∀ a ∈ db₀.accounts, a.accountId ≠ r.accountId) ∧
    ∃ a ∈ db'.accounts, a.accountId = r.accountId ∧ a.state = .removed ∧
      a.activeTransitionId = none
  versions : (db₁.storeVersions = db₀.storeVersions ∧ db₁.accountVersions = db₀.accountVersions) ∧
    db'.storeVersions = db.storeVersions ∧ db'.accountVersions = db.accountVersions
  other_stores : ∀ y : Store, y.storeId ≠ r.storeId →
    (y ∈ db₁.stores ↔ y ∈ db₀.stores) ∧ (y ∈ db'.stores ↔ y ∈ db.stores)
  other_accounts : ∀ b : Account, b.accountId ≠ r.accountId →
    (b ∈ db₁.accounts ↔ b ∈ db₀.accounts) ∧ (b ∈ db'.accounts ↔ b ∈ db.accounts)

section Pair

variable {r : PrepareRequest} {receipt : Receipt} {c : Challenge} {accounts : List Account}
  {location : Digest} {x : Store} {at₀ : Int} (h : Accepted env codec s db₀)
  (hp : Prepares env codec s db₀ r receipt c accounts location x at₀)
include h hp

/-- The accounts of others are not touched by a preparation. -/
theorem Prepares.other_accounts {b : Account} (hb : b.accountId ≠ r.accountId) :
    b ∈ accounts ↔ b ∈ db₀.accounts := by
  by_cases hk : r.kind = .accountCreate
  · obtain ⟨rfl, -⟩ := hp.created h.tables hk
    rw [List.mem_append, List.mem_singleton, or_iff_left]
    rintro rfl
    exact hb rfl
  · obtain ⟨m, value, account, target, hpr⟩ := hp.proposal h
    obtain ⟨before, a, hf, hmem⟩ := hp.found_account h.tables hk hpr
    exact mem_other Account.accountId hmem hf.key.1 hb

variable (hrun : Run env codec
    (transitionPrepared env db₀ r accounts location receipt.receiptId at₀) db)
  {t : Transition} {o : Origin} {value : AccountMutationManifest} {account : AccountSnapshot}
  {a : Account} {y : Store} {at' : Int} (ho : Observed env codec s' db t o value account a y at')
  (hid : t.transitionId = r.transitionId) (hst : t.state = .prepared)
include hrun ho hid

omit h in
/-- The transition is the one that was prepared. -/
theorem Prepares.same_transition : ∃ c' g, PreparedBy env codec db r g receipt c' t ∧
    c.Continues c' := by
  have hrows : PreparedBy env codec
      (transitionPrepared env db₀ r accounts location receipt.receiptId at₀) r
      (grantUseRow env r.grantUse at₀) receipt c (transitionRow env r at₀) :=
    prepared_rows ⟨hp.authorizes.receipt_mem, hp.authorizes.receipt_id⟩
      ⟨hp.authorizes.challenge_mem, hp.authorizes.challenge_id.symm⟩ hp.identity
  have hl := Run.lasts hrun
  obtain ⟨c', t', hby⟩ := hrows.lasts hl
  have htab := ho.accepted.tables
  obtain rfl : t' = t := eq_of_key_eq htab.transitions.id_unique hby.of_transition ho.mem
    (hby.same.1.trans hid.symm)
  obtain ⟨c'', hc'', hcont⟩ := hl.challenges c hp.authorizes.challenge_mem
  have hcc : c'' = c' := by
    refine eq_of_key_eq htab.challenges.id_unique hc'' hby.of_challenge.1 ?_
    obtain ⟨_, rfl⟩ := hcont
    exact hp.authorizes.challenge_id.symm.trans hby.of_challenge.2.symm
  exact ⟨c', _, hby, hcc ▸ hcont⟩

include hst

/-- **The store an abort leaves is the row its preparation blocked**, but for the time. -/
theorem Prepares.store_restored : releasedStore at' y = { x with updatedAt := at' } := by
  obtain ⟨c', g, hby, -⟩ := hp.same_transition hrun ho hid
  obtain ⟨hx, hblock, -⟩ := hp.store
  obtain ⟨hxid, hxst, hxgen, hxsha, -⟩ := of_decide_eq_true hblock
  obtain ⟨y', hy', hadv⟩ := (Run.lasts hrun).stores (blockedRow at₀ x)
    ((hp.mem_stores h.tables _).mpr (Or.inr rfl))
  obtain ⟨_, _, _, _, hsame⟩ := hadv.same
  obtain ⟨hym, hyid, -⟩ := ho.holds.store
  obtain rfl : y' = y := by
    refine eq_of_key_eq ho.accepted.tables.stores.id_unique hy' hym ?_
    rw [hsame, hyid, hby.same.2.2.1]
    exact hxid
  rcases ho.holds.pair with ⟨-, hgen, hsha⟩ | ⟨hc, -⟩
  · have hgen' := hgen.trans (hby.same.2.2.2.2.2.2.2.1.trans hxgen.symm)
    have hsha' := hsha.trans (hby.same.2.2.2.2.2.1.trans hxsha.symm)
    rw [hsame] at hgen' hsha'
    rw [hsame, releasedStore, blockedRow]
    cases x
    simp_all
  · exact absurd (hst.symm.trans hc) (by decide)

omit hst in
/-- **The account an abort leaves is the row its preparation blocked**, but for the time. -/
theorem Prepares.account_restored (hstep : Step env codec s db₀
      (transitionPrepared env db₀ r accounts location receipt.receiptId at₀))
    (hk : r.kind ≠ .accountCreate) {a' : Account} {accounts' : List Account}
    (hr : Restores db t value o.receipt.receiptId at' a a' accounts') :
    ∃ a₀ ∈ db₀.accounts, a₀.accountId = r.accountId ∧ a' = { a₀ with updatedAt := at' } := by
  obtain ⟨m, value₀, account₀, target, hpr⟩ := hp.proposal h
  obtain ⟨before, a₀, hf, hmem⟩ := hp.found_account h.tables hk hpr
  obtain ⟨c', g, hby, _, rfl⟩ := hp.same_transition hrun ho hid
  obtain ⟨-, -, -, htacc, hkind, -⟩ := hby.same
  -- the signed snapshot is the one the preparation compared the row with
  obtain ⟨-, hm⟩ := hby.origin ho.accepted.tables ho.chain.load
  have hmo : o.manifest = m := Option.some.inj (hm.symm.trans hpr.manifest)
  have hvalue : value = value₀ := by
    have hmut := ho.chain.mutation
    rw [hmo, hkind] at hmut
    exact Option.some.inj (hmut.symm.trans hpr.mutation)
  -- the version and the names last from before the preparation
  obtain ⟨v, parent, hstands⟩ := h.standsOn hf.mem hf.key.2.2.2.2.2.2.1
  have hacc := (step_accounts h hstep).trans (Run.accounts hrun)
  have hl := (step_lasts hstep).trans (Run.lasts hrun)
  obtain ⟨b, hb, hcont⟩ := hacc.accounts a₀ hf.mem
  obtain rfl : b = a := by
    refine eq_of_key_eq ho.accepted.tables.accounts.id_unique hb ho.chain.account_mem ?_
    rw [hcont.1, hf.key.1, ho.chain.account_id, htacc]
  refine ⟨a₀, hf.mem, hf.key.1, ?_⟩
  exact hr.eq_row ho.accepted.tables (hkind ▸ hk) (hvalue ▸ hf.before_eq)
    (htacc.trans hf.key.1.symm) hf.key (hstands.lasts hl hacc h.tables ho.accepted.tables) hcont

/-- **The registry is as it was** after a preparation and its abort. -/
theorem Prepares.undone (hstep : Step env codec s db₀
      (transitionPrepared env db₀ r accounts location receipt.receiptId at₀))
    {accounts' : List Account} (hacc : abortedAccounts env codec db t at' = .ok accounts') :
    Undone r db₀ (transitionPrepared env db₀ r accounts location receipt.receiptId at₀) db
      (transitionAborted env db t accounts' o.receipt.receiptId at') := by
  obtain ⟨a', hr⟩ := ho.restores hacc
  have hm := ho.abortMove hst hr
  obtain ⟨c', g, hby, -⟩ := hp.same_transition hrun ho hid
  obtain ⟨-, -, htstore, htacc, hkind, -⟩ := hby.same
  obtain ⟨hx, hblock, -⟩ := hp.store
  have hxid := (of_decide_eq_true hblock).1
  have hyid := ho.holds.store.2.1.trans htstore
  have haid := ho.chain.account_id.trans htacc
  refine
    { store := ⟨x, hx, hxid, at', ?_⟩
      account := fun hk => ?_
      created := fun hk => ⟨(hp.created h.tables hk).2.1, ?_⟩
      versions := ⟨⟨rfl, rfl⟩, rfl, rfl⟩
      other_stores := fun z hz => ⟨?_, ?_⟩
      other_accounts := fun b hb => ⟨hp.other_accounts h hb, ?_⟩ }
  · rw [← hp.store_restored h hrun ho hid hst]
    exact (hm.stores _).mpr (Or.inr rfl)
  · obtain ⟨a₀, ha₀, hid₀, rfl⟩ := hp.account_restored h hrun ho hid hstep hk hr
    exact ⟨a₀, ha₀, hid₀, at', (hm.accounts _).mpr (Or.inr rfl)⟩
  · have hcreated := ho.restores_created (hkind.trans hk) hacc
    exact ⟨_, (hcreated.mem _).mpr (Or.inr rfl), haid, rfl, rfl⟩
  · rw [← hxid] at hz
    exact mem_other Store.storeId (hp.mem_stores h.tables) rfl hz
  · rw [← hyid] at hz
    exact mem_other Store.storeId hm.stores rfl hz
  · rw [← haid] at hb
    exact mem_other Account.accountId hm.accounts (hr.continues.1) hb

end Pair

/-- A quiet step prepares nothing. -/
theorem Quiet.transitions_eq (h : Quiet env codec s db db') : db'.transitions = db.transitions := by
  cases h <;> rfl

/-- **An attempt that was given up**: a preparation, and the abort of its transition after a run. -/
theorem attempt_spelt {r : PrepareRequest} {k₁ k₂ : Commit TransitionProjection}
    (hprepare : prepareAccountTransition env codec s r db₀ = .ok k₁)
    (hnew : ∀ t ∈ db₀.transitions, t.transitionId ≠ r.transitionId)
    (hprepared : ∃ t ∈ k₁.db.transitions, t.transitionId = r.transitionId)
    (hrun : Run env codec k₁.db db) {q : ObservationRequest}
    (hopen : ∃ t ∈ db.transitions, t.transitionId = r.transitionId ∧ t.state = .prepared)
    (hq : q.transitionId = r.transitionId ∧ q.actualConfigGeneration = r.expectedGeneration ∧
      q.actualConfigSha256 = r.beforeConfigSha256)
    (habort : applyAccountObservation env codec s' .abort q db = .ok k₂) :
    (Accepted env codec s db₀ ∧ ∃ receipt c accounts location x at₀,
      Prepares env codec s db₀ r receipt c accounts location x at₀ ∧
      Step env codec s db₀ k₁.db ∧
      k₁.db = transitionPrepared env db₀ r accounts location receipt.receiptId at₀) ∧
    ∃ t o value account a y at' accounts,
      Observed env codec s' db t o value account a y at' ∧ t.transitionId = r.transitionId ∧
      t.state = .prepared ∧ abortedAccounts env codec db t at' = .ok accounts ∧
      SchemaOk k₂.db ∧ k₂.db = transitionAborted env db t accounts o.receipt.receiptId at' := by
  obtain ⟨h, at₀, hat₀, hspent | ⟨receipt, c, accounts, location, x, hp, hexp, hs, hk₁⟩⟩ :=
    prepareAccountTransition_effect hprepare
  · obtain ⟨t, ht, hid⟩ := hprepared
    rw [hspent.quiet.transitions_eq] at ht
    exact absurd hid (hnew t ht)
  have hstep : Step env codec s db₀ k₁.db := by
    rw [hk₁]
    exact .transitionPrepared hp hexp (timeOk_of_effectiveTime hat₀) hs
  refine ⟨⟨h, receipt, c, accounts, location, x, at₀, hp, hstep, hk₁⟩, ?_⟩
  rw [hk₁] at hrun
  obtain ⟨h', at', t, hat', ⟨ht, htid⟩, hmoves⟩ := applyAccountObservation_effect habort
  have hid := htid.trans hq.1
  obtain ⟨u, hu, huid, hst⟩ := hopen
  obtain rfl : u = t := eq_of_key_eq h'.tables.transitions.id_unique hu ht (huid.trans hid.symm)
  have haborts : Aborts .abort u q := by
    refine ⟨rfl, hst, ?_⟩
    obtain ⟨o, value, account, a, y, ho⟩ := h'.observed hu (Or.inl hst) (timeOk_of_effectiveTime hat')
    obtain ⟨c', g, hby, -⟩ := hp.same_transition hrun ho hid
    obtain ⟨-, -, -, -, -, hbefore, -, hgen, -⟩ := hby.same
    rw [classifyObservedPair, if_pos ⟨hq.2.1.trans hgen.symm, hq.2.2.trans hbefore.symm⟩]
  generalize k₂.db = db' at hmoves ⊢
  cases hmoves with
  | unchanged hno hs => exact absurd haborts hno
  | committed hno ho hst hs => exact absurd haborts hno
  | finalized hno ho hst hs => exact absurd haborts hno
  | stopped hno ho hunsafe hs => exact absurd haborts hno
  | @aborted o value account a y accounts' _ ho hacc hs' =>
      exact ⟨u, o, value, account, a, y, at', accounts', ho, hid, hst, hacc, hs', rfl⟩

/-- **An abort restores the registry.**  Whatever was committed between the preparation of a
    transition and its abort, the store and the account are what they were before, but for the time
    of their rows; a created account ends removed.  The pair leaves the versions alone, and all
    other stores and accounts. -/
theorem abort_restores_the_registry {r : PrepareRequest} {k₁ k₂ : Commit TransitionProjection}
    (hprepare : prepareAccountTransition env codec s r db₀ = .ok k₁)
    (hnew : ∀ t ∈ db₀.transitions, t.transitionId ≠ r.transitionId)
    (hprepared : ∃ t ∈ k₁.db.transitions, t.transitionId = r.transitionId)
    (hrun : Run env codec k₁.db db) {q : ObservationRequest}
    (hopen : ∃ t ∈ db.transitions, t.transitionId = r.transitionId ∧ t.state = .prepared)
    (hq : q.transitionId = r.transitionId ∧ q.actualConfigGeneration = r.expectedGeneration ∧
      q.actualConfigSha256 = r.beforeConfigSha256)
    (habort : applyAccountObservation env codec s' .abort q db = .ok k₂) :
    Undone r db₀ k₁.db db k₂.db := by
  obtain ⟨⟨h, receipt, c, accounts, location, x, at₀, hp, hstep, hk₁⟩, t, o, value, account, a, y,
    at', accounts', ho, hid, hst, hacc, -, hk₂⟩ :=
    attempt_spelt hprepare hnew hprepared hrun hopen hq habort
  rw [hk₁] at hrun hstep ⊢
  rw [hk₂]
  exact hp.undone h hrun ho hid hst hstep hacc

namespace Sample

/-- The account is about to be removed. -/
def beforeRemoval : Db := signed withAccount 4 800

/-- Its removal is given up. -/
def keep : ObservationRequest := ⟨uuid 83, .prepared, two, digest 43, 1000⟩

/-- The removal is prepared, and its abort answered; the reserved cleanup stays. -/
theorem removal_runs :
    ∃ k₁, prepareAccountTransition platform listCodec realm remove beforeRemoval = .ok k₁ ∧
      (∃ t ∈ k₁.db.transitions, t.transitionId = remove.transitionId ∧ t.state = .prepared) ∧
      ∃ k₂, applyAccountObservation platform listCodec realm .abort keep k₁.db = .ok k₂ ∧
        k₂.db.transitions.map Transition.transitionId = [uuid 80, uuid 83] ∧
        k₂.db.cleanups.map (fun x => (x.cleanupId, x.locatorSha256)) =
          [(uuid 75, platform.sha256 locator)] := by
  have hrun : ((prepareAccountTransition platform listCodec realm remove beforeRemoval).toOption.bind
      fun k₁ => if ∃ t ∈ k₁.db.transitions, t.transitionId = remove.transitionId ∧
          t.state = .prepared then
        (applyAccountObservation platform listCodec realm .abort keep k₁.db).toOption.filter fun k₂ =>
          k₂.db.transitions.map Transition.transitionId = [uuid 80, uuid 83] ∧
          k₂.db.cleanups.map (fun x => (x.cleanupId, x.locatorSha256)) =
          [(uuid 75, platform.sha256 locator)]
      else none).isSome := by decide +kernel
  obtain ⟨k₂, hk⟩ := Option.isSome_iff_exists.mp hrun
  obtain ⟨k₁, hk₁, hk₂⟩ := Option.bind_eq_some_iff.mp hk
  rw [toOption_eq_some] at hk₁
  split at hk₂
  · next h =>
      rw [Option.filter_eq_some_iff, toOption_eq_some] at hk₂
      exact ⟨k₁, hk₁, h, k₂, hk₂.1, of_decide_eq_true hk₂.2⟩
  · cases hk₂

/-- No transition of the removal was there. -/
theorem removal_new : ∀ t ∈ beforeRemoval.transitions, t.transitionId ≠ remove.transitionId := by
  decide +kernel

/-- The account that was to be removed is as it was. -/
theorem removal_undone : ∃ k₁ k₂,
    prepareAccountTransition platform listCodec realm remove beforeRemoval = .ok k₁ ∧
    applyAccountObservation platform listCodec realm .abort keep k₁.db = .ok k₂ ∧
    Undone remove beforeRemoval k₁.db k₁.db k₂.db := by
  obtain ⟨k₁, hk₁, hopen, k₂, hk₂, -⟩ := removal_runs
  have hprepared := hopen
  obtain ⟨t, ht, hid, -⟩ := hprepared
  refine ⟨k₁, k₂, hk₁, hk₂, ?_⟩
  exact abort_restores_the_registry hk₁ removal_new ⟨t, ht, hid⟩ Relation.ReflTransGen.refl hopen
    ⟨rfl, rfl, rfl⟩ hk₂

end Sample

end Kirje.Authority
