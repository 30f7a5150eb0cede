import Kirje.Authority.Settling
import Kirje.Authority.Steps

/-
  File:      Kirje/Authority/Preparing.lean
  Subject:   What the preparation of a transition finds, and the rows it leaves.

  Only an active account is mutated, and an active account stands on a version: it
  repeats a row that a finalized transition committed, and names that transition's
  receipt (`Accepted.standsOn`).  Which one it is depends on how the last transition of
  the account ended.

  * `Prepares.spelt`: the manifest behind a preparation and what it says.
  * `Prepares.mem_accounts`, `Prepares.mem_stores`: the one row each that it writes.
-/

namespace Kirje.Authority

open Base

variable {env : Platform} {codec : ManifestCodec} {s : Snapshot} {db db' : Db}

/-! ## 1. The version of an active account -/

/-- **The version an account stands on**: the committed row it repeats, and the finalized
    transition that committed it. -/
structure StandsOn (db : Db) (a : Account) (v : AccountVersion) (parent : Transition) : Prop where
  version : v ∈ db.accountVersions ∧ v.accountId = a.accountId ∧
    v.accountGeneration = a.accountGeneration
  same : v.storeId = a.storeId ∧ v.credentialId = a.credentialId ∧
    v.bindingSha256 = a.bindingSha256
  committed : parent ∈ db.transitions ∧ parent.transitionId = v.committedTransitionId
  finalized : parent.state = .finalized ∧ parent.accountId = a.accountId
  receipt : transitionReceiptId db parent = some a.authorizedReceiptId

/-- A finalized transition leaves the account on the version it committed. -/
theorem TransitionChain.standsOn_finalized (htab : TablesOk db) {t : Transition} {o : Origin}
    {value : AccountMutationManifest} {account : AccountSnapshot} {a : Account}
    (hc : TransitionChain env codec db t o value account a) (ht : t ∈ db.transitions)
    (hst : t.state = .finalized) (hk : t.kind ≠ .accountRemove)
    (hcurrent : CurrentAccount db a t value o.receipt.receiptId) :
    ∃ v, StandsOn db a v t := by
  obtain ⟨current, hcur, expected, hexp, ⟨hgen, hcred, hbind, hrec⟩, -⟩ := hcurrent
  have hres : restoredPredecessor t = false := by simp [restoredPredecessor, hst]
  have hsnap : account = current := by
    have hm := hc.mutates.snapshot
    simp only [currentSnapshot, hk, hres, false_or, Bool.false_eq_true, if_false,
      Option.mem_def] at hcur
    simp only [accountSnapshotOf, hk, if_false] at hm
    exact Option.some.inj (hm.symm.trans hcur)
  have htime := hc.checks.row.timestamps
  simp only [timestampShape, hst] at htime
  obtain ⟨at', hat⟩ := Option.isSome_iff_exists.mp htime.1
  obtain ⟨v, hv, hid, hstore, hvgen, hvcred, hvbind, -⟩ :=
    hc.checks.versions.account_version hk at' hat
  rw [Option.mem_def, loadAccountVersionByTransition_iff htab] at hv
  simp only [currentReceipt, hres, Bool.false_eq_true, if_false, Option.mem_def,
    Option.some.injEq] at hexp
  refine ⟨v, ⟨hv.1, hid.trans hc.account_id.symm, ?_⟩, ⟨hstore.trans hc.account_store.symm, ?_, ?_⟩,
    ⟨ht, hv.2.symm⟩, ⟨hst, hc.account_id.symm⟩, ?_⟩
  · rw [hvgen, hgen, hsnap]
  · rw [hvcred, hcred, hsnap]
  · rw [hvbind, hbind, hsnap]
  · rw [receiptId_of_origin htab hc.load, hexp, hrec]

/-- An aborted transition leaves the account on the version it found. -/
theorem TransitionChain.standsOn_aborted (htab : TablesOk db) {t : Transition} {o : Origin}
    {value : AccountMutationManifest} {account : AccountSnapshot} {a : Account}
    (hc : TransitionChain env codec db t o value account a)
    (hst : t.state = .aborted) (hk : t.kind ≠ .accountCreate)
    (hcurrent : CurrentAccount db a t value o.receipt.receiptId) :
    ∃ v parent, StandsOn db a v parent := by
  obtain ⟨current, hcur, expected, hexp, ⟨hgen, hcred, hbind, hrec⟩, -⟩ := hcurrent
  obtain ⟨before, hb, v, hv, hstore, hvcred, hvbind, ⟨parent, hp, hfin, hpid⟩, -⟩ :=
    hc.checks.parent hk
  have hres : restoredPredecessor t = true := by simp [restoredPredecessor, hst, hk]
  have hsnap : before = current := by
    simp only [currentSnapshot, hres, or_true, if_true] at hcur
    exact Option.some.inj (hb.symm.trans hcur)
  subst hsnap
  have hp' : loadAccountTransition db v.committedTransitionId = some parent := hp
  have hv' : loadAccountVersion db t.accountId before.generation = some v := hv
  have hreceipt : transitionReceiptId db parent = some expected := by
    simpa [currentReceipt, hres, hv', hp'] using hexp
  rw [loadAccountVersion_iff htab] at hv'
  rw [loadAccountTransition_iff htab] at hp'
  refine ⟨v, parent, ⟨hv'.1, hv'.2.1.trans hc.account_id.symm, hv'.2.2.trans hgen.symm⟩,
    ⟨hstore.trans hc.account_store.symm, hvcred.trans hcred.symm, hvbind.trans hbind.symm⟩,
    hp', ⟨hfin, hpid.trans hc.account_id.symm⟩, ?_⟩
  rw [hreceipt, hrec]

theorem openAccountState_ne_active (kind : TransitionKind) : openAccountState kind ≠ .active := by
  cases kind <;> decide

/-- **An active account stands on a version.** -/
theorem Accepted.standsOn (h : Accepted env codec s db) {a : Account} (ha : a ∈ db.accounts)
    (hst : a.state = .active) : ∃ v parent, StandsOn db a v parent := by
  obtain ⟨t, ht, hta, hlast⟩ := h.last_transition ha
  obtain ⟨o, value, account, b, hc⟩ := h.transitionChain ht
  obtain rfl : b = a := eq_of_key_eq h.tables.accounts.id_unique hc.account_mem ha
    (hc.account_id.trans hta)
  have hcurrent := hc.checks.account.current hlast
  obtain ⟨_, -, _, -, -, hcols⟩ := hc.checks.account.current hlast
  rw [currentColumns, hst] at hcols
  cases hs : t.state with
  | prepared | configCommitted =>
      rw [hs] at hcols
      exact absurd (congrArg Prod.fst (Option.some.inj hcols)) (openAccountState_ne_active t.kind)
  | recoveryRequired =>
      rw [hs] at hcols
      simp at hcols
  | finalized =>
      have hk : t.kind ≠ .accountRemove := by
        intro hk
        rw [hs] at hcols
        simp [finalAccountState, hk] at hcols
      obtain ⟨v, hv⟩ := hc.standsOn_finalized h.tables ht hs hk hcurrent
      exact ⟨v, t, hv⟩
  | aborted =>
      have hk : t.kind ≠ .accountCreate := by
        intro hk
        rw [hs] at hcols
        simp [abortedAccountState, hk] at hcols
      exact hc.standsOn_aborted h.tables hs hk hcurrent

/-! ## 2. What a preparation finds -/

/-- **The manifest behind a preparation**, and the snapshot it registers. -/
structure Proposal (env : Platform) (codec : ManifestCodec) (r : PrepareRequest)
    (receipt : Receipt) (c : Challenge) (m : ActionManifest) (value : AccountMutationManifest)
    (account : AccountSnapshot) (target : Bytes) : Prop where
  manifest : manifestOf env codec c = some m
  mutation : mutationOf r.kind m.payload = some value
  mutates : Mutates r.kind m value account
  target_eq : expectedTargetId r.kind account.accountId value account = some target
  grant : PrepareGrant r c receipt target
  same : PrepareValue env r value account

/-- **What a mutation of an existing account finds.** -/
structure Finds (db : Db) (r : PrepareRequest) (value : AccountMutationManifest)
    (before : AccountSnapshot) (a : Account) : Prop where
  before_eq : value.before = some before
  mem : a ∈ db.accounts
  key : prepareAccountKey r before a
  credential_fresh : r.kind = .accountUpdate → ∀ y ∈ db.credentials, y.credentialId ≠ r.credentialId
  cleanups_fresh : ∀ d ∈ r.cleanupReservations, ∀ y ∈ db.cleanups,
    y.cleanupId ≠ d.cleanupId ∧ y.locatorSha256 ≠ d.locatorSha256

/-- The row of a blocked store. -/
def blockedRow (at' : Int) (x : Store) : Store := { x with state := .blocked, updatedAt := at' }

section Prepares

variable {r : PrepareRequest} {receipt : Receipt} {c : Challenge} {accounts : List Account}
  {location : Digest} {x : Store} {at' : Int}
  (hp : Prepares env codec s db r receipt c accounts location x at')
include hp

theorem Prepares.proposal (h : Accepted env codec s db) :
    ∃ m value account target, Proposal env codec r receipt c m value account target := by
  have hid := hp.identity
  simp only [validateAccountPrepareIdentity, accountMutationManifest, bind_ok, orRefuse_ok,
    ensure_ok] at hid
  obtain ⟨value, ⟨m, hm, hv⟩, account, hacc, target, ht, _, hg, hval⟩ := hid
  obtain ⟨m', _, hch⟩ := (h.history.challenges c hp.authorizes.challenge_mem).chain
  obtain rfl : m' = m := Option.some.inj (hch.manifest.symm.trans hm)
  obtain ⟨account', hmut⟩ := mutates_of_mutationOf hch.valid hch.signed.intrinsic hv
  obtain rfl : account' = account := Option.some.inj (hmut.snapshot.symm.trans hacc)
  exact ⟨m', value, account', target, hm, hv, hmut, ht, hg, hval⟩

/-- The store of a preparation is active, with the pair the request expects and no open
    transition. -/
theorem Prepares.store : x ∈ db.stores ∧ blockable r location x = true ∧
    openTransitions db r.storeId = [] := by
  obtain ⟨hx, hb⟩ := List.mem_filter.mp (hp.found ▸ List.mem_singleton_self x)
  have hocc := hp.occupancy
  simp only [validatePrepareOccupancy, bind_ok, ensure_ok] at hocc
  obtain ⟨_, -, _, -, _, -, _, -, _, hopen, -⟩ := hocc
  exact ⟨hx, hb, hopen⟩

theorem Prepares.mem_stores (htab : TablesOk db) (y : Store) :
    y ∈ (transitionPrepared env db r accounts location receipt.receiptId at').stores ↔
      (y ∈ db.stores ∧ y.storeId ≠ x.storeId) ∨ y = blockedRow at' x := by
  have hx := of_decide_eq_true hp.store.2.1
  exact mem_update_key htab.stores.id_unique hp.found
    (fun _ _ hy => (of_decide_eq_true hy).1.trans hx.1.symm) y

/-- The transition of a preparation is new. -/
theorem Prepares.fresh (htab : TablesOk db) :
    ∀ t ∈ db.transitions, t.transitionId ≠ r.transitionId := by
  have hocc := hp.occupancy
  simp only [validatePrepareOccupancy, bind_ok, ensure_ok] at hocc
  obtain ⟨_, -, _, -, _, -, _, -, _, -, hocc⟩ := hocc
  have hnone : loadAccountTransition db r.transitionId = none := by
    split at hocc
    · simp only [createOccupancy, bind_ok, ensure_ok] at hocc
      exact Option.isNone_iff_eq_none.mp hocc.choose_spec.1.2.2
    · simp only [mutationOccupancy, bind_ok, ensure_ok] at hocc
      obtain ⟨_, -, _, -, _, -, _, -, _, ⟨-, hnone⟩, -⟩ := hocc
      exact Option.isNone_iff_eq_none.mp hnone
  intro t ht hid
  have := (loadAccountTransition_iff htab).mpr ⟨ht, hid⟩
  rw [hnone] at this
  cases this

/-- A creation adds an account with a new credential. -/
theorem Prepares.created (htab : TablesOk db) (hk : r.kind = .accountCreate) :
    accounts = db.accounts ++ [accountRow r receipt.receiptId at'] ∧
    (∀ a ∈ db.accounts, a.accountId ≠ r.accountId) ∧
    ∀ y ∈ db.credentials, y.credentialId ≠ r.credentialId := by
  have hacc := hp.accounts_eq
  simp only [preparedAccounts, hk, if_true, pure_ok] at hacc
  have hocc := hp.occupancy
  simp only [validatePrepareOccupancy, createOccupancy, hk, if_true, bind_ok, ensure_ok] at hocc
  obtain ⟨_, -, _, -, _, -, _, -, _, -, _, ⟨hnone, hcred, -⟩, -⟩ := hocc
  rw [Option.isNone_iff_eq_none] at hnone hcred
  refine ⟨hacc.symm, fun a ha hid => ?_, fun y hy hid => ?_⟩
  · have := (loadRegisteredAccount_iff htab).mpr ⟨ha, hid⟩
    rw [hnone] at this
    cases this
  · have := (loadCredential_iff htab).mpr ⟨hy, hid⟩
    rw [hcred] at this
    cases this

theorem Prepares.found_account (htab : TablesOk db) (hk : r.kind ≠ .accountCreate)
    {m : ActionManifest} {value : AccountMutationManifest} {account : AccountSnapshot}
    {target : Bytes} (hpr : Proposal env codec r receipt c m value account target) :
    ∃ before a, Finds db r value before a ∧
      ∀ b, b ∈ accounts ↔ (b ∈ db.accounts ∧ b.accountId ≠ r.accountId) ∨
        b = blockAccount r receipt.receiptId at' a := by
  have hmut : accountMutationManifest env codec c r.kind = .ok value := by
    simp [accountMutationManifest, hpr.manifest, hpr.mutation, orRefuse]
  have hacc := hp.accounts_eq
  simp only [preparedAccounts, hk, if_false, blockedAccounts, hmut, bind_ok, orRefuse_ok,
    updateOne_ok, Except.ok.injEq] at hacc
  obtain ⟨_, rfl, before, hb, hone, rfl⟩ := hacc
  obtain ⟨a, ha⟩ := filter_eq_singleton hone
  obtain ⟨ham, hkey⟩ := List.mem_filter.mp (ha ▸ List.mem_singleton_self a)
  have hkey := of_decide_eq_true hkey
  have hocc := hp.occupancy
  simp only [validatePrepareOccupancy, mutationOccupancy, hk, if_false, bind_ok, ensure_ok] at hocc
  obtain ⟨_, -, _, -, _, -, _, -, _, -, _, -, _, -, _, -, _, -, _, ⟨hcred, -⟩, hclean⟩ := hocc
  refine ⟨before, a, ⟨hb, ham, hkey, fun hu y hy hid => ?_, fun d hd y hy => ?_⟩, fun b => ?_⟩
  · have := (loadCredential_iff htab).mpr ⟨hy, hid⟩
    rw [Option.isNone_iff_eq_none.mp (hcred hu)] at this
    cases this
  · have := List.filter_eq_nil_iff.mp (hclean d hd) y hy
    simpa using this
  · have := mem_update_key (f := blockAccount r receipt.receiptId at') htab.accounts.id_unique ha
      (fun _ _ hy => (of_decide_eq_true hy).1.trans hkey.1.symm) b
    rw [hkey.1] at this
    exact this

end Prepares

end Kirje.Authority
