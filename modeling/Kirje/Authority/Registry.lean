import Mathlib.Data.List.Chain
import Mathlib.Data.Set.Insert
import Kirje.Authority.Preparing
import Kirje.Authority.Runs

/-
  File:      Kirje/Authority/Registry.lean
  Subject:   The registry as a machine of its own: stores, accounts, their versions
             and the transitions that lead from one version to the next.

  Of the database only five tables say what a store or an account is.  What the calls
  do to them is an enrollment or one of five moves of one transition (`Registry.Move`).
  A store and its versions are chained by the transitions that committed them, an
  account numbers its versions, and at most one transition is not settled.

  * `StoreChain`, `AccountChain`: the invariant of one store and of one account.
  * `Registry.Move.chained`: **every move keeps the chains.**
-/

namespace Kirje.Authority

open Base

/-! ## 1. The registry -/

/-- **The tables that say what each store and each account is.** -/
structure Registry where
  stores : List Store
  storeVersions : List StoreVersion
  accounts : List Account
  accountVersions : List AccountVersion
  transitions : List Transition

def Db.registry (db : Db) : Registry :=
  ⟨db.stores, db.storeVersions, db.accounts, db.accountVersions, db.transitions⟩

/-- The transitions of a store. -/
def Registry.ofStore (R : Registry) (id : StoreId) : Set Transition :=
  {t | t ∈ R.transitions ∧ t.storeId = id}

/-- The transitions of an account. -/
def Registry.ofAccount (R : Registry) (id : AccountId) : Set Transition :=
  {t | t ∈ R.transitions ∧ t.accountId = id}

/-- The versions of a store, in the order of their commits. -/
def Registry.versionsOf (R : Registry) (id : StoreId) : List StoreVersion :=
  R.storeVersions.filter fun v => v.storeId = id

/-- The versions of an account, in the order of their commits. -/
def Registry.accountVersionsOf (R : Registry) (id : AccountId) : List AccountVersion :=
  R.accountVersions.filter fun v => v.accountId = id

/-- The config pair of a store. -/
def Store.pair (x : Store) : NonZeroU64 × Digest := (x.configGeneration, x.configSha256)

def StoreVersion.pair (v : StoreVersion) : NonZeroU64 × Digest := (v.configGeneration, v.configSha256)

/-- The pair a transition starts from. -/
def Transition.beforePair (t : Transition) : NonZeroU64 × Digest :=
  (t.expectedGeneration, t.beforeConfigSha256)

/-- The pair a transition leads to. -/
def Transition.afterPair (t : Transition) : NonZeroU64 × Digest :=
  (t.nextGeneration, t.afterConfigSha256)

/-! ## 2. Chains -/

/-- At most one transition is not settled. -/
def Alone (ts : Set Transition) : Prop :=
  ∀ t ∈ ts, ∀ u ∈ ts, ¬t.Settled → ¬u.Settled → t = u

/-- A version is what a transition made of the one before it. -/
def Follows (ts : Set Transition) (v w : StoreVersion) : Prop :=
  ∃ t ∈ ts, w.committedTransitionId = some t.transitionId ∧ t.beforePair = v.pair ∧
    t.afterPair = w.pair ∧ v.configGeneration.val + 1 = w.configGeneration.val

/-- **The chain of a store**: its transitions, its versions and its row. -/
structure StoreChain (ts : Set Transition) (vs : List StoreVersion) (x : Store) : Prop where
  alone : Alone ts
  blocked : x.state = .blocked ↔ ∃ t ∈ ts, t.Open
  stopped : x.state = .recoveryRequired ↔ ∃ t ∈ ts, t.state = .recoveryRequired
  kept : x.state ≠ .removed
  enrolled : ∃ v ∈ vs.head?, v.committedTransitionId = none ∧
    v.enrolledReceiptId = some x.enrolledReceiptId
  follows : vs.IsChain (Follows ts)
  current : x.state ≠ .recoveryRequired → vs.getLast?.map StoreVersion.pair = some x.pair

/-- What an open transition adds to the versions of its account once it commits. -/
def Transition.proposes (t : Transition) : Nat :=
  if t.configCommittedAt = none ∧ t.kind ≠ .accountRemove then 1 else 0

/-- **The chain of an account**: its transitions, its versions and its row. -/
structure AccountChain (ts : Set Transition) (vs : List AccountVersion) (a : Account) : Prop where
  alone : Alone ts
  active : ∀ id, a.activeTransitionId = some id ↔ ∃ t ∈ ts, t.transitionId = id ∧ ¬t.Settled
  stopped : ∀ t ∈ ts, t.state = .recoveryRequired → a.state = .blocked
  store : ∀ t ∈ ts, t.storeId = a.storeId
  numbered : vs.map (fun v => v.accountGeneration.val) = List.range' 1 vs.length
  standing : a.state = .active → a.activeTransitionId = none ∧ a.accountGeneration.val = vs.length
  opened : ∀ t ∈ ts, t.Open → a.accountGeneration.val = vs.length + t.proposes

/-- **The registry is chained**: every store and every account is, nothing belongs to a store or an
    account that is not there, and a transition is known by its identifier. -/
structure Registry.Chained (R : Registry) : Prop where
  stores : ∀ x ∈ R.stores, StoreChain (R.ofStore x.storeId) (R.versionsOf x.storeId) x
  accounts : ∀ a ∈ R.accounts,
    AccountChain (R.ofAccount a.accountId) (R.accountVersionsOf a.accountId) a
  no_store : ∀ id, (∀ x ∈ R.stores, x.storeId ≠ id) → R.ofStore id = ∅ ∧ R.versionsOf id = []
  no_account : ∀ id, (∀ a ∈ R.accounts, a.accountId ≠ id) →
    R.ofAccount id = ∅ ∧ R.accountVersionsOf id = []
  keyed : ∀ t ∈ R.transitions, ∀ u ∈ R.transitions, t.transitionId = u.transitionId → t = u

/-- An empty registry is chained. -/
theorem Registry.chained_nil : Registry.Chained ⟨[], [], [], [], []⟩ where
  stores x hx := by cases hx
  accounts a ha := by cases ha
  no_store id _ := ⟨Set.eq_empty_of_forall_notMem fun t ht => (by cases ht.1), rfl⟩
  no_account id _ := ⟨Set.eq_empty_of_forall_notMem fun t ht => (by cases ht.1), rfl⟩
  keyed t ht := by cases ht

/-! ## 3. One row for another -/

/-- **One row of a table is exchanged for another**, by its key. -/
def Exchanged {α κ : Type} (key : α → κ) (r r' : α) (rows rows' : List α) : Prop :=
  ∀ y, y ∈ rows' ↔ (y ∈ rows ∧ key y ≠ key r) ∨ y = r'

/-- A group of rows of a table, after one of them was exchanged within the group. -/
theorem Exchanged.group {α κ γ : Type} {key : α → κ} {group : α → γ} {r r' : α} {rows rows' : List α}
    (h : Exchanged key r r' rows rows')
    (hkeyed : ∀ y ∈ rows, key y = key r → y = r) (hsame : group r' = group r) (g : γ) (y : α) :
    (y ∈ rows' ∧ group y = g) ↔ (y ∈ rows ∧ group y = g ∧ y ≠ r) ∨ (y = r' ∧ group r = g) := by
  rw [h y]
  constructor
  · intro hy
    obtain ⟨⟨hy, hne⟩ | rfl, hg⟩ := hy
    · exact Or.inl ⟨hy, hg, fun he => hne (he ▸ rfl)⟩
    · exact Or.inr ⟨rfl, hsame.symm.trans hg⟩
  · intro hy
    obtain ⟨hy, hg, hne⟩ | ⟨rfl, hg⟩ := hy
    · exact ⟨Or.inl ⟨hy, fun he => hne (hkeyed y hy he)⟩, hg⟩
    · exact ⟨Or.inr rfl, hsame.trans hg⟩

/-- A group of rows of a table, after one row was added. -/
theorem mem_group_append {α γ : Type} (group : α → γ) {r : α} {rows : List α} (g : γ) (y : α) :
    (y ∈ rows ++ [r] ∧ group y = g) ↔ (y = r ∧ group r = g) ∨ (y ∈ rows ∧ group y = g) := by
  rw [List.mem_append, List.mem_singleton]
  constructor
  · intro h
    obtain ⟨hy | rfl, hg⟩ := h
    · exact Or.inr ⟨hy, hg⟩
    · exact Or.inl ⟨rfl, hg⟩
  · intro h
    obtain ⟨rfl, hg⟩ | ⟨hy, hg⟩ := h
    · exact ⟨Or.inr rfl, hg⟩
    · exact ⟨Or.inl hy, hg⟩

/-- A set with one transition in the place of another. -/
def swap (t t' : Transition) (ts : Set Transition) : Set Transition :=
  {u | (u ∈ ts ∧ u ≠ t) ∨ u = t'}

section Swap

variable {ts : Set Transition} {t t' u : Transition}

theorem mem_swap : u ∈ swap t t' ts ↔ (u ∈ ts ∧ u ≠ t) ∨ u = t' := Iff.rfl

theorem self_mem_swap : t' ∈ swap t t' ts := Or.inr rfl

/-- Where one transition was not settled, only what takes its place may be so. -/
theorem Alone.swapped (h : Alone ts) (ht : t ∈ ts) (hopen : t.Open) (hu : u ∈ swap t t' ts)
    (hns : ¬u.Settled) : u = t' := by
  rcases mem_swap.mp hu with ⟨hu, hne⟩ | rfl
  · exact absurd (h u hu t ht hns hopen.not_settled) hne
  · rfl

theorem Alone.swap (h : Alone ts) (ht : t ∈ ts) (hopen : t.Open) : Alone (swap t t' ts) := by
  intro u hu w hw hus hws
  rw [h.swapped ht hopen hu hus, h.swapped ht hopen hw hws]

theorem Follows.swap {v w : StoreVersion} (hid : t'.transitionId = t.transitionId)
    (hpairs : t'.beforePair = t.beforePair ∧ t'.afterPair = t.afterPair)
    (h : Follows ts v w) : Follows (swap t t' ts) v w := by
  obtain ⟨u, hu, hcommitted, hbefore, hafter, hnext⟩ := h
  by_cases hut : u = t
  · subst hut
    exact ⟨t', self_mem_swap, hid ▸ hcommitted, hpairs.1.trans hbefore, hpairs.2.trans hafter, hnext⟩
  · exact ⟨u, Or.inl ⟨hu, hut⟩, hcommitted, hbefore, hafter, hnext⟩

theorem Follows.mono {ts' : Set Transition} {v w : StoreVersion} (hsub : ts ⊆ ts')
    (h : Follows ts v w) : Follows ts' v w := by
  obtain ⟨u, hu, hrest⟩ := h
  exact ⟨u, hsub hu, hrest⟩

end Swap

/-! ## 4. The chain of a store -/

section Stores

variable {ts : Set Transition} {vs : List StoreVersion} {x : Store} {t t' : Transition} {at' : Int}

/-- A new store. -/
theorem StoreChain.enroll {v : StoreVersion} (hst : x.state = .active)
    (hv : v.committedTransitionId = none ∧ v.enrolledReceiptId = some x.enrolledReceiptId)
    (hpair : v.pair = x.pair) : StoreChain ∅ [v] x where
  alone t ht := absurd ht (Set.notMem_empty t)
  blocked := by simp [hst]
  stopped := by simp [hst]
  kept := by simp [hst]
  enrolled := ⟨v, rfl, hv⟩
  follows := List.isChain_singleton v
  current _ := by simp [hpair]

/-- A transition begins on an active store. -/
theorem StoreChain.block (h : StoreChain ts vs x) (hst : x.state = .active) (ht : t.state = .prepared) :
    StoreChain (insert t ts) vs (blockedRow at' x) where
  alone := by
    have hnone : ∀ u ∈ ts, u.Settled := by
      intro u hu
      by_contra hns
      have hno : ¬∃ u ∈ ts, u.Open := fun he => by simp [h.blocked.mpr he] at hst
      have hns' : ¬∃ u ∈ ts, u.state = .recoveryRequired := fun he => by
        simp [h.stopped.mpr he] at hst
      cases hs : u.state with
      | prepared => exact hno ⟨u, hu, Or.inl hs⟩
      | configCommitted => exact hno ⟨u, hu, Or.inr hs⟩
      | finalized => exact hns (Or.inl hs)
      | aborted => exact hns (Or.inr hs)
      | recoveryRequired => exact hns' ⟨u, hu, hs⟩
    intro u hu w hw hus hws
    obtain rfl : u = t := hu.resolve_right fun hu => hus (hnone u hu)
    exact (hw.resolve_right fun hw => hws (hnone w hw)).symm
  blocked := ⟨fun _ => ⟨t, Set.mem_insert t ts, Or.inl ht⟩, fun _ => rfl⟩
  stopped := by
    refine ⟨fun he => (by cases he), fun he => ?_⟩
    obtain ⟨u, hu, hs⟩ := he
    rcases hu with rfl | hu
    · rw [ht] at hs
      cases hs
    · have := h.stopped.mpr ⟨u, hu, hs⟩
      rw [hst] at this
      cases this
  kept := by simp [blockedRow]
  enrolled := h.enrolled
  follows := h.follows.imp fun _ _ hf => hf.mono (Set.subset_insert t ts)
  current _ := h.current (by simp [hst])

variable (h : StoreChain ts vs x) (ht : t ∈ ts) (hopen : t.Open)
  (hid : t'.transitionId = t.transitionId)
  (hpairs : t'.beforePair = t.beforePair ∧ t'.afterPair = t.afterPair)
include h ht hopen

/-- The store of an open transition is blocked. -/
theorem StoreChain.isBlocked : x.state = .blocked := h.blocked.mpr ⟨t, ht, hopen⟩

/-- Only the open transition is not settled. -/
theorem StoreChain.not_stopped {u : Transition} (hu : u ∈ ts) : u.state ≠ .recoveryRequired := by
  intro hs
  have := h.stopped.mpr ⟨u, hu, hs⟩
  rw [h.isBlocked ht hopen] at this
  cases this

include hid hpairs

/-- The config of the transition is committed. -/
theorem StoreChain.commit {y : Store} (hst : t'.state = .configCommitted)
    (hpair : x.pair = t.beforePair) (hinc : t.expectedGeneration.exactIncrement t.nextGeneration) :
    StoreChain (swap t t' ts) (vs ++ [committedStoreVersion t y at']) (committedStore t at' x) where
  alone := h.alone.swap ht hopen
  blocked := ⟨fun _ => ⟨t', self_mem_swap, Or.inr hst⟩, fun _ => h.isBlocked ht hopen⟩
  stopped := by
    refine ⟨fun he => ?_, fun he => ?_⟩
    · have hblocked : (committedStore t at' x).state = .blocked := h.isBlocked ht hopen
      rw [hblocked] at he
      cases he
    · obtain ⟨u, hu, hs⟩ := he
      rcases hu with ⟨hu, -⟩ | rfl
      · exact absurd hs (h.not_stopped ht hopen hu)
      · rw [hst] at hs
        cases hs
  kept := h.kept
  enrolled := by
    obtain ⟨v, hv, hrest⟩ := h.enrolled
    exact ⟨v, by simp [List.head?_append, Option.mem_def.mp hv], hrest⟩
  follows := by
    refine (h.follows.imp fun _ _ hf => hf.swap hid hpairs).append (List.isChain_singleton _)
      fun v hv w hw => ?_
    obtain rfl : w = committedStoreVersion t y at' := by simpa [eq_comm] using hw
    have hlast := h.current (by simp [h.isBlocked ht hopen])
    rw [Option.mem_def.mp hv, Option.map_some, Option.some.injEq] at hlast
    have hv' : v.pair = t.beforePair := hlast.trans hpair
    have hgen : v.configGeneration = t.expectedGeneration := congrArg Prod.fst hv'
    refine ⟨t', self_mem_swap, congrArg some hid.symm, hpairs.1.trans hv'.symm, hpairs.2, ?_⟩
    rw [hgen]
    exact eq_of_beq hinc
  current _ := by simp [committedStoreVersion, committedStore, StoreVersion.pair, Store.pair]

/-- The transition is settled, and the store free. -/
theorem StoreChain.release (hst : t'.Settled) :
    StoreChain (swap t t' ts) vs (releasedStore at' x) where
  alone := h.alone.swap ht hopen
  blocked := by
    refine ⟨fun he => (by cases he), fun he => ?_⟩
    obtain ⟨u, hu, ho⟩ := he
    rw [h.alone.swapped ht hopen hu ho.not_settled] at ho
    exact absurd hst ho.not_settled
  stopped := by
    refine ⟨fun he => (by cases he), fun he => ?_⟩
    obtain ⟨u, hu, hs⟩ := he
    rcases hu with ⟨hu, -⟩ | rfl
    · exact absurd hs (h.not_stopped ht hopen hu)
    · rcases hst with hst | hst <;> simp [hst] at hs
  kept := by simp [releasedStore]
  enrolled := h.enrolled
  follows := h.follows.imp fun _ _ hf => hf.swap hid hpairs
  current _ := h.current (by simp [h.isBlocked ht hopen])

/-- The transition is stopped, and the store with it. -/
theorem StoreChain.stop {r : ObservationRequest} (hst : t'.state = .recoveryRequired) :
    StoreChain (swap t t' ts) vs (stoppedStore r at' x) where
  alone := h.alone.swap ht hopen
  blocked := by
    refine ⟨fun he => (by cases he), fun he => ?_⟩
    obtain ⟨u, hu, ho⟩ := he
    rw [h.alone.swapped ht hopen hu ho.not_settled] at ho
    rcases ho with ho | ho <;> simp [hst] at ho
  stopped := ⟨fun _ => ⟨t', self_mem_swap, hst⟩, fun _ => rfl⟩
  kept := by simp [stoppedStore]
  enrolled := h.enrolled
  follows := h.follows.imp fun _ _ hf => hf.swap hid hpairs
  current hne := absurd rfl hne

end Stores

/-! ## 5. The chain of an account -/

section Accounts

variable {ts : Set Transition} {vs : List AccountVersion} {a a' : Account} {t t' : Transition}
  {at' : Int}

/-- An account that is created. -/
theorem AccountChain.create (ht : t.state = .prepared ∧ t.configCommittedAt = none)
    (hkind : t.kind = .accountCreate) (hstore : t.storeId = a.storeId)
    (hgen : a.accountGeneration.val = 1)
    (hst : a.state = .proposed ∧ a.activeTransitionId = some t.transitionId) :
    AccountChain {t} [] a where
  alone := by
    rintro u rfl w rfl - -
    rfl
  active id := by
    have hns : ¬t.Settled := by simp [Transition.Settled, ht.1]
    simp [hst.2, hns]
  stopped := by
    rintro u rfl hs
    simp [ht.1] at hs
  store := by
    rintro u rfl
    exact hstore
  numbered := rfl
  standing he := by simp [hst.1] at he
  opened := by
    rintro u rfl -
    simp [hgen, Transition.proposes, ht.2, hkind]

/-- An account that points to no transition has none that is not settled. -/
theorem AccountChain.all_settled (h : AccountChain ts vs a) (hnone : a.activeTransitionId = none) :
    ∀ u ∈ ts, u.Settled := by
  intro u hu
  by_contra hns
  have := (h.active u.transitionId).mpr ⟨u, hu, rfl, hns⟩
  rw [hnone] at this
  cases this

/-- A transition begins on an active account. -/
theorem AccountChain.block (h : AccountChain ts vs a)
    (hst : a.state = .active) (ht : t.state = .prepared ∧ t.configCommittedAt = none)
    (hstore : t.storeId = a'.storeId)
    (hsame : a'.storeId = a.storeId)
    (hgen : a'.accountGeneration.val = a.accountGeneration.val + t.proposes)
    (hst' : a'.state = .blocked ∧ a'.activeTransitionId = some t.transitionId) :
    AccountChain (insert t ts) vs a' where
  alone := by
    have hsettled := h.all_settled (h.standing hst).1
    intro u hu w hw hus hws
    obtain rfl : u = t := hu.resolve_right fun hu => hus (hsettled u hu)
    exact (hw.resolve_right fun hw => hws (hsettled w hw)).symm
  active id := by
    have hns : ¬t.Settled := by simp [Transition.Settled, ht.1]
    rw [hst'.2, Option.some.injEq]
    constructor
    · rintro rfl
      exact ⟨t, Set.mem_insert t ts, rfl, hns⟩
    · rintro ⟨u, hu, hid, hus⟩
      rcases hu with rfl | hu
      · exact hid
      · exact absurd (h.all_settled (h.standing hst).1 u hu) hus
  stopped _ _ _ := hst'.1
  store u hu := by
    rcases hu with rfl | hu
    · exact hstore
    · exact (h.store u hu).trans hsame.symm
  numbered := h.numbered
  standing he := by simp [hst'.1] at he
  opened u hu ho := by
    rcases hu with rfl | hu
    · rw [hgen, (h.standing hst).2]
    · exact absurd (h.all_settled (h.standing hst).1 u hu) ho.not_settled

variable (h : AccountChain ts vs a) (ht : t ∈ ts) (hopen : t.Open)
  (hid : t'.transitionId = t.transitionId) (hstore : t'.storeId = t.storeId)
  (hsame : a'.storeId = a.storeId)
include h ht hopen

/-- The account of an open transition points to it. -/
theorem AccountChain.points : a.activeTransitionId = some t.transitionId :=
  (h.active _).mpr ⟨t, ht, rfl, hopen.not_settled⟩

include hstore hsame

omit hopen in
/-- The transitions of the account stay with its store. -/
theorem AccountChain.store_swap : ∀ u ∈ swap t t' ts, u.storeId = a'.storeId := by
  intro u hu
  obtain ⟨hu, -⟩ | rfl := hu
  · exact (h.store u hu).trans hsame.symm
  · exact (hstore.trans (h.store t ht)).trans hsame.symm

/-- The transition is settled, and the account free. -/
theorem AccountChain.release (hst : t'.Settled) (hnone : a'.activeTransitionId = none)
    (hgen : a'.state = .active → a'.accountGeneration.val = vs.length) :
    AccountChain (swap t t' ts) vs a' where
  alone := h.alone.swap ht hopen
  active id := by
    rw [hnone]
    refine ⟨fun he => (by cases he), fun he => ?_⟩
    obtain ⟨u, hu, -, hns⟩ := he
    rw [h.alone.swapped ht hopen hu hns] at hns
    exact absurd hst hns
  stopped u hu hs := by
    have hns : ¬u.Settled := by simp [Transition.Settled, hs]
    rw [h.alone.swapped ht hopen hu hns] at hns
    exact absurd hst hns
  store := h.store_swap ht hstore hsame
  numbered := h.numbered
  standing hst' := ⟨hnone, hgen hst'⟩
  opened u hu ho := by
    rw [h.alone.swapped ht hopen hu ho.not_settled] at ho
    exact absurd hst ho.not_settled

include hid

omit hstore hsame in
/-- The transition goes on, and the account still points to it. -/
theorem AccountChain.active_swap (hns' : ¬t'.Settled) (hpoint : a'.activeTransitionId = a.activeTransitionId)
    (id : TransitionId) :
    a'.activeTransitionId = some id ↔ ∃ u ∈ swap t t' ts, u.transitionId = id ∧ ¬u.Settled := by
  rw [hpoint, h.points ht hopen, Option.some.injEq]
  constructor
  · rintro rfl
    exact ⟨t', self_mem_swap, hid, hns'⟩
  · rintro ⟨u, hu, hui, hus⟩
    rw [← hui, h.alone.swapped ht hopen hu hus, hid]

/-- The transition is stopped, and the account blocked. -/
theorem AccountChain.stop (hst : t'.state = .recoveryRequired) (hblocked : a'.state = .blocked)
    (hpoint : a'.activeTransitionId = a.activeTransitionId) :
    AccountChain (swap t t' ts) vs a' where
  alone := h.alone.swap ht hopen
  active := h.active_swap ht hopen hid (by simp [Transition.Settled, hst]) hpoint
  stopped _ _ _ := hblocked
  store := h.store_swap ht hstore hsame
  numbered := h.numbered
  standing he := by simp [hblocked] at he
  opened u hu ho := by
    rw [h.alone.swapped ht hopen hu ho.not_settled] at ho
    rcases ho with ho | ho <;> simp [hst] at ho

end Accounts

/-- The config of the transition is committed, and the account it proposes with it. -/
theorem AccountChain.commit {ts : Set Transition} {vs : List AccountVersion} {a : Account}
    {t : Transition} {at' : Int} (h : AccountChain ts vs a) (ht : t ∈ ts) (hst : t.state = .prepared)
    (hnone : t.configCommittedAt = none) :
    AccountChain (swap t (committedRow at' t) ts) (vs ++ committedAccountVersions t a at') a where
  alone := h.alone.swap ht (Or.inl hst)
  active := h.active_swap ht (Or.inl hst) rfl (by simp [Transition.Settled, committedRow]) rfl
  stopped u hu hs := by
    have hns : ¬u.Settled := by simp [Transition.Settled, hs]
    rw [h.alone.swapped ht (Or.inl hst) hu hns] at hs
    cases hs
  store := h.store_swap ht rfl rfl
  numbered := by
    by_cases hk : t.kind = .accountRemove
    · simpa [committedAccountVersions, hk] using h.numbered
    · have hgen := h.opened t ht (Or.inl hst)
      simp only [Transition.proposes, hnone, hk, ne_eq, not_false_eq_true, and_self, if_true] at hgen
      simp [committedAccountVersions, hk, h.numbered, hgen, List.range'_concat, Nat.add_comm]
  standing he := by
    have hpoint := h.points ht (Or.inl hst)
    rw [(h.standing he).1] at hpoint
    cases hpoint
  opened u hu ho := by
    rw [h.alone.swapped ht (Or.inl hst) hu ho.not_settled]
    have hgen := h.opened t ht (Or.inl hst)
    by_cases hk : t.kind = .accountRemove <;>
      simpa [Transition.proposes, committedAccountVersions, committedRow, hnone, hk] using hgen

/-! ## 6. Moves -/

namespace Registry

/-- The account a transition begins with: a new one, or an active one. -/
inductive Enters (R : Registry) (t : Transition) : List Account → Prop where
  | created {a : Account} (hkind : t.kind = .accountCreate)
      (hfresh : ∀ b ∈ R.accounts, b.accountId ≠ a.accountId)
      (hids : a.accountId = t.accountId ∧ t.storeId = a.storeId)
      (hgen : a.accountGeneration.val = 1)
      (hst : a.state = .proposed ∧ a.activeTransitionId = some t.transitionId) :
      Enters R t (R.accounts ++ [a])
  | blocked {a a' : Account} {accounts : List Account} (ha : a ∈ R.accounts) (hst : a.state = .active)
      (hids : a.accountId = t.accountId ∧ t.storeId = a'.storeId)
      (hsame : a'.accountId = a.accountId ∧ a'.storeId = a.storeId)
      (hgen : a'.accountGeneration.val = a.accountGeneration.val + t.proposes)
      (hst' : a'.state = .blocked ∧ a'.activeTransitionId = some t.transitionId)
      (hrows : Exchanged Account.accountId a a' R.accounts accounts) : Enters R t accounts

/-- **An open transition goes on** with its account and its store. -/
structure Exchange (R R' : Registry) (t t' : Transition) (a a' : Account) (x x' : Store) : Prop where
  mem : t ∈ R.transitions ∧ a ∈ R.accounts ∧ x ∈ R.stores
  opened : t.Open
  ids : a.accountId = t.accountId ∧ x.storeId = t.storeId
  transitions : Exchanged Transition.transitionId t t' R.transitions R'.transitions
  accounts : Exchanged Account.accountId a a' R.accounts R'.accounts
  stores : Exchanged Store.storeId x x' R.stores R'.stores
  continues : t.Continues t' ∧ a.Continues a' ∧ x.Continues x'

/-- **What a call may do to the registry.** -/
inductive Move (R : Registry) : Registry → Prop where
  | enrolls {x : Store} {v : StoreVersion} (hfresh : ∀ y ∈ R.stores, y.storeId ≠ x.storeId)
      (hst : x.state = .active)
      (hv : v.storeId = x.storeId ∧ v.pair = x.pair ∧ v.committedTransitionId = none ∧
        v.enrolledReceiptId = some x.enrolledReceiptId) :
      Move R { R with stores := R.stores ++ [x], storeVersions := R.storeVersions ++ [v] }
  | begins {t : Transition} {x : Store} {stores : List Store} {accounts : List Account} {at' : Int}
      (hfresh : ∀ u ∈ R.transitions, u.transitionId ≠ t.transitionId)
      (ht : t.state = .prepared ∧ t.configCommittedAt = none) (hx : x ∈ R.stores)
      (hst : x.state = .active) (hid : x.storeId = t.storeId)
      (hrows : Exchanged Store.storeId x (blockedRow at' x) R.stores stores)
      (haccounts : Enters R t accounts) :
      Move R { R with
        stores := stores
        accounts := accounts
        transitions := R.transitions ++ [t] }
  | commits {R' : Registry} {t : Transition} {a : Account} {x y : Store} {at' : Int}
      (he : Exchange R R' t (committedRow at' t) a a x (committedStore t at' x))
      (hst : t.state = .prepared ∧ t.configCommittedAt = none) (hpair : x.pair = t.beforePair)
      (hinc : t.expectedGeneration.exactIncrement t.nextGeneration)
      (hsv : R'.storeVersions = R.storeVersions ++ [committedStoreVersion t y at'])
      (hav : R'.accountVersions = R.accountVersions ++ committedAccountVersions t a at') : Move R R'
  | finalizes {R' : Registry} {t : Transition} {a : Account} {x : Store} {at' : Int}
      (he : Exchange R R' t (finalizedRow at' t) a (finalizedAccount t at' a) x (releasedStore at' x))
      (hst : t.configCommittedAt ≠ none) (hsv : R'.storeVersions = R.storeVersions)
      (hav : R'.accountVersions = R.accountVersions) : Move R R'
  | aborts {R' : Registry} {t : Transition} {a a' : Account} {x : Store} {at' : Int}
      (he : Exchange R R' t (abortedRow at' t) a a' x (releasedStore at' x))
      (hnone : a'.activeTransitionId = none)
      (hgen : a'.state = .active → a.accountGeneration.val = a'.accountGeneration.val + t.proposes)
      (hsv : R'.storeVersions = R.storeVersions) (hav : R'.accountVersions = R.accountVersions) :
      Move R R'
  | stops {R' : Registry} {t : Transition} {a : Account} {x : Store} {r : ObservationRequest}
      {at' : Int}
      (he : Exchange R R' t (stoppedRow at' t) a (stoppedAccount at' a) x (stoppedStore r at' x))
      (hsv : R'.storeVersions = R.storeVersions) (hav : R'.accountVersions = R.accountVersions) :
      Move R R'

variable {R R' : Registry}

section Exchange

variable {t t' : Transition} {a a' : Account} {x x' : Store}
  (hR : R.Chained) (he : Exchange R R' t t' a a' x x')
include he

theorem Exchange.same : t'.transitionId = t.transitionId ∧ t'.storeId = t.storeId ∧
    t'.accountId = t.accountId ∧ t'.beforePair = t.beforePair ∧ t'.afterPair = t.afterPair := by
  obtain ⟨_, _, _, _, rfl, -⟩ := he.continues.1
  exact ⟨rfl, rfl, rfl, rfl, rfl⟩

theorem Exchange.store_id : x'.storeId = x.storeId := by
  obtain ⟨_, _, _, _, rfl⟩ := he.continues.2.2
  rfl

include hR

/-- Of the store, one transition stands in the place of another. -/
theorem Exchange.ofStore : R'.ofStore x.storeId = swap t t' (R.ofStore x.storeId) := by
  ext u
  refine (Exchanged.group he.transitions (fun y hy => hR.keyed y hy t he.mem.1)
    he.same.2.1 x.storeId u).trans ?_
  simp only [Registry.ofStore, mem_swap, Set.mem_ofPred_eq, he.ids.2, and_true, and_assoc]

theorem Exchange.ofAccount : R'.ofAccount a.accountId = swap t t' (R.ofAccount a.accountId) := by
  ext u
  refine (Exchanged.group he.transitions (fun y hy => hR.keyed y hy t he.mem.1)
    he.same.2.2.1 a.accountId u).trans ?_
  simp only [Registry.ofAccount, mem_swap, Set.mem_ofPred_eq, he.ids.1, and_true, and_assoc]

/-- Of another store, nothing has changed. -/
theorem Exchange.ofStore_other {id : StoreId} (hne : id ≠ x.storeId) : R'.ofStore id = R.ofStore id := by
  ext u
  refine (Exchanged.group he.transitions (fun y hy => hR.keyed y hy t he.mem.1)
    he.same.2.1 id u).trans ?_
  have ht : t.storeId ≠ id := fun h => hne (h.symm.trans he.ids.2.symm)
  simp only [Registry.ofStore, Set.mem_ofPred_eq, ht, and_false, or_false]
  exact ⟨fun h => ⟨h.1, h.2.1⟩, fun h => ⟨h.1, h.2, fun hu => ht (hu ▸ h.2)⟩⟩

theorem Exchange.ofAccount_other {id : AccountId} (hne : id ≠ a.accountId) :
    R'.ofAccount id = R.ofAccount id := by
  ext u
  refine (Exchanged.group he.transitions (fun y hy => hR.keyed y hy t he.mem.1)
    he.same.2.2.1 id u).trans ?_
  have ht : t.accountId ≠ id := fun h => hne (h.symm.trans he.ids.1.symm)
  simp only [Registry.ofAccount, Set.mem_ofPred_eq, ht, and_false, or_false]
  exact ⟨fun h => ⟨h.1, h.2.1⟩, fun h => ⟨h.1, h.2, fun hu => ht (hu ▸ h.2)⟩⟩

/-- **An exchange keeps the chains** if it keeps those of the store and the account it is about. -/
theorem Exchange.chained
    (hstore : StoreChain (swap t t' (R.ofStore x.storeId)) (R'.versionsOf x.storeId) x')
    (haccount : AccountChain (swap t t' (R.ofAccount a.accountId)) (R'.accountVersionsOf a.accountId) a')
    (hsv : ∀ id, id ≠ x.storeId → R'.versionsOf id = R.versionsOf id)
    (hav : ∀ id, id ≠ a.accountId → R'.accountVersionsOf id = R.accountVersionsOf id) :
    R'.Chained where
  stores y hy := by
    rcases (he.stores y).mp hy with ⟨hy, hne⟩ | hx'
    · rw [he.ofStore_other hR hne, hsv _ hne]
      exact hR.stores y hy
    · rw [hx', he.store_id, he.ofStore hR]
      exact hstore
  accounts b hb := by
    rcases (he.accounts b).mp hb with ⟨hb, hne⟩ | rfl
    · rw [he.ofAccount_other hR hne, hav _ hne]
      exact hR.accounts b hb
    · rw [he.continues.2.1.1, he.ofAccount hR]
      exact haccount
  no_store id hid := by
    have hne : id ≠ x.storeId := fun h =>
      hid x' ((he.stores x').mpr (Or.inr rfl)) (he.store_id.trans h.symm)
    rw [he.ofStore_other hR hne, hsv id hne]
    refine hR.no_store id fun y hy hyid => ?_
    exact hid y ((he.stores y).mpr (Or.inl ⟨hy, fun h => hne (hyid.symm.trans h)⟩)) hyid
  no_account id hid := by
    have hne : id ≠ a.accountId := fun h =>
      hid a' ((he.accounts a').mpr (Or.inr rfl)) (he.continues.2.1.1.trans h.symm)
    rw [he.ofAccount_other hR hne, hav id hne]
    refine hR.no_account id fun b hb hbid => ?_
    exact hid b ((he.accounts b).mpr (Or.inl ⟨hb, fun h => hne (hbid.symm.trans h)⟩)) hbid
  keyed u hu w hw hid := by
    have hsame := he.same.1
    rcases (he.transitions u).mp hu with ⟨hu, hune⟩ | rfl <;>
      rcases (he.transitions w).mp hw with ⟨hw, hwne⟩ | rfl
    · exact hR.keyed u hu w hw hid
    · exact absurd (hid.trans hsame) hune
    · exact absurd (hid.symm.trans hsame) hwne
    · rfl

/-- The chains of the store and of the account before the exchange. -/
theorem Exchange.chains :
    StoreChain (R.ofStore x.storeId) (R.versionsOf x.storeId) x ∧ t ∈ R.ofStore x.storeId ∧
    AccountChain (R.ofAccount a.accountId) (R.accountVersionsOf a.accountId) a ∧
    t ∈ R.ofAccount a.accountId :=
  ⟨hR.stores x he.mem.2.2, ⟨he.mem.1, he.ids.2.symm⟩, hR.accounts a he.mem.2.1,
    he.mem.1, he.ids.1.symm⟩

end Exchange

theorem versionsOf_append {vs : List StoreVersion} (h : R'.storeVersions = R.storeVersions ++ vs)
    (id : StoreId) : R'.versionsOf id = R.versionsOf id ++ vs.filter fun v => v.storeId = id := by
  rw [versionsOf, h, List.filter_append]
  rfl

theorem accountVersionsOf_append {vs : List AccountVersion}
    (h : R'.accountVersions = R.accountVersions ++ vs) (id : AccountId) :
    R'.accountVersionsOf id = R.accountVersionsOf id ++ vs.filter fun v => v.accountId = id := by
  rw [accountVersionsOf, h, List.filter_append]
  rfl

/-- A settled transition leaves the versions as they are. -/
theorem Exchange.settled {t t' : Transition} {a a' : Account} {x : Store} {at' : Int} (hR : R.Chained)
    (he : Exchange R R' t t' a a' x (releasedStore at' x)) (hst : t'.Settled)
    (hnone : a'.activeTransitionId = none)
    (hgen : a'.state = .active → a.accountGeneration.val = a'.accountGeneration.val + t.proposes)
    (hsv : R'.storeVersions = R.storeVersions) (hav : R'.accountVersions = R.accountVersions) :
    R'.Chained := by
  obtain ⟨hstore, hts, haccount, hta⟩ := he.chains hR
  obtain ⟨hid, hsid, -, hpairs⟩ := he.same
  have hversions : ∀ id, R'.versionsOf id = R.versionsOf id := fun id => by
    rw [versionsOf, versionsOf, hsv]
  have haversions : ∀ id, R'.accountVersionsOf id = R.accountVersionsOf id := fun id => by
    rw [accountVersionsOf, accountVersionsOf, hav]
  refine he.chained hR ?_ ?_ (fun id _ => hversions id) fun id _ => haversions id
  · rw [hversions]
    exact hstore.release hts he.opened hid hpairs hst
  · rw [haversions]
    refine haccount.release hta he.opened hsid he.continues.2.1.2.1 hst hnone fun hactive => ?_
    have hopened := haccount.opened t hta he.opened
    have := hgen hactive
    omega

/-- A stopped transition leaves the versions as they are. -/
theorem Exchange.stopped {t : Transition} {a : Account} {x : Store} {r : ObservationRequest} {at' : Int}
    (hR : R.Chained)
    (he : Exchange R R' t (stoppedRow at' t) a (stoppedAccount at' a) x (stoppedStore r at' x))
    (hsv : R'.storeVersions = R.storeVersions) (hav : R'.accountVersions = R.accountVersions) :
    R'.Chained := by
  obtain ⟨hstore, hts, haccount, hta⟩ := he.chains hR
  have hid := he.same.1
  have hversions : ∀ id, R'.versionsOf id = R.versionsOf id := fun id => by
    rw [versionsOf, versionsOf, hsv]
  have haversions : ∀ id, R'.accountVersionsOf id = R.accountVersionsOf id := fun id => by
    rw [accountVersionsOf, accountVersionsOf, hav]
  refine he.chained hR ?_ ?_ (fun id _ => hversions id) fun id _ => haversions id
  · rw [hversions]
    exact hstore.stop hts he.opened hid ⟨rfl, rfl⟩ rfl
  · rw [haversions]
    exact haccount.stop hta he.opened hid rfl rfl rfl rfl rfl

/-- A committed transition adds a version to its store, and one to its account unless it removes it. -/
theorem Exchange.committed {t : Transition} {a : Account} {x y : Store} {at' : Int} (hR : R.Chained)
    (he : Exchange R R' t (committedRow at' t) a a x (committedStore t at' x))
    (hst : t.state = .prepared ∧ t.configCommittedAt = none) (hpair : x.pair = t.beforePair)
    (hinc : t.expectedGeneration.exactIncrement t.nextGeneration)
    (hsv : R'.storeVersions = R.storeVersions ++ [committedStoreVersion t y at'])
    (hav : R'.accountVersions = R.accountVersions ++ committedAccountVersions t a at') :
    R'.Chained := by
  obtain ⟨hstore, hts, haccount, hta⟩ := he.chains hR
  have hid := he.same.1
  have hown : ∀ v ∈ committedAccountVersions t a at', v.accountId = a.accountId := by
    intro v hv
    unfold committedAccountVersions at hv
    split at hv
    · cases hv
    · rw [List.mem_singleton.mp hv]
  refine he.chained hR ?_ ?_ (fun id hne => ?_) fun id hne => ?_
  · have hself : (committedStoreVersion t y at').storeId = x.storeId := he.ids.2.symm
    rw [versionsOf_append hsv, List.filter_cons_of_pos (by simpa using hself), List.filter_nil]
    exact hstore.commit hts he.opened hid ⟨rfl, rfl⟩ rfl hpair hinc
  · rw [accountVersionsOf_append hav, List.filter_eq_self.mpr fun v hv => by simpa using hown v hv]
    exact haccount.commit hta hst.1 hst.2
  · have hother : (committedStoreVersion t y at').storeId ≠ id := fun h => hne (h.symm.trans he.ids.2.symm)
    rw [versionsOf_append hsv, List.filter_cons_of_neg (by simpa using hother), List.filter_nil,
      List.append_nil]
  · rw [accountVersionsOf_append hav, List.filter_eq_nil_iff.mpr, List.append_nil]
    intro v hv
    rw [hown v hv]
    simpa using Ne.symm hne

/-- An enrollment adds a store with its first version. -/
theorem chained_enrolled {x : Store} {v : StoreVersion} (hR : R.Chained)
    (hfresh : ∀ y ∈ R.stores, y.storeId ≠ x.storeId) (hst : x.state = .active)
    (hv : v.storeId = x.storeId ∧ v.pair = x.pair ∧ v.committedTransitionId = none ∧
      v.enrolledReceiptId = some x.enrolledReceiptId) :
    Chained { R with stores := R.stores ++ [x], storeVersions := R.storeVersions ++ [v] } := by
  obtain ⟨hnone, hnil⟩ := hR.no_store x.storeId hfresh
  have hself : versionsOf { R with stores := R.stores ++ [x], storeVersions := R.storeVersions ++ [v] }
      x.storeId = [v] := by
    rw [versionsOf_append rfl, hnil]
    simp [hv.1]
  have hother : ∀ id, id ≠ x.storeId → versionsOf
      { R with stores := R.stores ++ [x], storeVersions := R.storeVersions ++ [v] } id =
        R.versionsOf id := fun id hne => by
    have hne' : ¬x.storeId = id := Ne.symm hne
    rw [versionsOf_append rfl]
    simp [hv.1, hne']
  refine ⟨fun y hy => ?_, hR.accounts, fun id hid => ?_, hR.no_account, hR.keyed⟩
  · rcases List.mem_append.mp hy with hy | hy
    · rw [hother _ (hfresh y hy)]
      exact hR.stores y hy
    · obtain rfl := List.mem_singleton.mp hy
      rw [hself]
      exact hnone.symm ▸ StoreChain.enroll hst hv.2.2 hv.2.1
  · have hne : id ≠ x.storeId := fun h => hid x (List.mem_append_right _ (List.mem_singleton_self x)) h.symm
    rw [hother id hne]
    exact hR.no_store id fun y hy => hid y (List.mem_append_left _ hy)

section Begin

variable {t : Transition} {x : Store} {stores : List Store} {accounts : List Account} {at' : Int}

theorem ofStore_begun (h : R'.transitions = R.transitions ++ [t]) :
    R'.ofStore t.storeId = insert t (R.ofStore t.storeId) := by
  ext u
  rw [ofStore, h]
  refine (mem_group_append Transition.storeId t.storeId u).trans ?_
  simp only [and_true, Set.mem_insert_iff, ofStore, Set.mem_ofPred_eq]

theorem ofStore_begun_other (h : R'.transitions = R.transitions ++ [t]) {id : StoreId}
    (hne : t.storeId ≠ id) : R'.ofStore id = R.ofStore id := by
  ext u
  rw [ofStore, h]
  refine (mem_group_append Transition.storeId id u).trans ?_
  simp only [hne, and_false, false_or, ofStore, Set.mem_ofPred_eq]

theorem ofAccount_begun (h : R'.transitions = R.transitions ++ [t]) :
    R'.ofAccount t.accountId = insert t (R.ofAccount t.accountId) := by
  ext u
  rw [ofAccount, h]
  refine (mem_group_append Transition.accountId t.accountId u).trans ?_
  simp only [and_true, Set.mem_insert_iff, ofAccount, Set.mem_ofPred_eq]

theorem ofAccount_begun_other (h : R'.transitions = R.transitions ++ [t]) {id : AccountId}
    (hne : t.accountId ≠ id) : R'.ofAccount id = R.ofAccount id := by
  ext u
  rw [ofAccount, h]
  refine (mem_group_append Transition.accountId id u).trans ?_
  simp only [hne, and_false, false_or, ofAccount, Set.mem_ofPred_eq]

/-- The accounts after a beginning: the one of the transition, and the others. -/
theorem Enters.chained (hR : R.Chained) (ht : t.state = .prepared ∧ t.configCommittedAt = none)
    (h : Enters R t accounts) :
    (∀ a ∈ accounts, (a.accountId ≠ t.accountId ∧ a ∈ R.accounts) ∨ (a.accountId = t.accountId ∧
      AccountChain (insert t (R.ofAccount t.accountId)) (R.accountVersionsOf t.accountId) a)) ∧
    (∃ a ∈ accounts, a.accountId = t.accountId) ∧
    ∀ b ∈ R.accounts, ∃ a ∈ accounts, a.accountId = b.accountId := by
  cases h with
  | @created a hkind hfresh hids hgen hst =>
      refine ⟨fun b hb => ?_, ⟨a, by simp, hids.1⟩, fun b hb => ⟨b, by simp [hb], rfl⟩⟩
      rcases List.mem_append.mp hb with hb | hb
      · exact Or.inl ⟨fun h => hfresh b hb (h.trans hids.1.symm), hb⟩
      · obtain rfl := List.mem_singleton.mp hb
        obtain ⟨hnone, hnil⟩ := hR.no_account b.accountId hfresh
        rw [hids.1] at hnone hnil
        rw [hnone, hnil, insert_empty_eq]
        exact Or.inr ⟨hids.1, AccountChain.create ht hkind hids.2 hgen hst⟩
  | @blocked a a' _ ha hst hids hsame hgen hst' hrows =>
      have ha' : a'.accountId = t.accountId := hsame.1.trans hids.1
      refine ⟨fun b hb => ?_, ⟨a', (hrows a').mpr (Or.inr rfl), ha'⟩, fun b hb => ?_⟩
      · rcases (hrows b).mp hb with ⟨hb, hne⟩ | rfl
        · exact Or.inl ⟨fun h => hne (h.trans hids.1.symm), hb⟩
        · have hchain := hR.accounts a ha
          rw [hids.1] at hchain
          exact Or.inr ⟨ha', hchain.block hst ht hids.2 hsame.2 hgen hst'⟩
      · by_cases hba : b.accountId = a.accountId
        · exact ⟨a', (hrows a').mpr (Or.inr rfl), hsame.1.trans hba.symm⟩
        · exact ⟨b, (hrows b).mpr (Or.inl ⟨hb, hba⟩), rfl⟩

theorem chained_begun (hR : R.Chained) (hfresh : ∀ u ∈ R.transitions, u.transitionId ≠ t.transitionId)
    (ht : t.state = .prepared ∧ t.configCommittedAt = none) (hx : x ∈ R.stores)
    (hst : x.state = .active) (hid : x.storeId = t.storeId)
    (hrows : Exchanged Store.storeId x (blockedRow at' x) R.stores stores)
    (haccounts : Enters R t accounts) :
    Chained { R with
      stores := stores
      accounts := accounts
      transitions := R.transitions ++ [t] } := by
  obtain ⟨hchains, hentered, hkept⟩ := haccounts.chained hR ht
  refine ⟨fun y hy => ?_, fun b hb => ?_, fun id hnone => ?_, fun id hnone => ?_, ?_⟩
  · rcases (hrows y).mp hy with ⟨hy, hne⟩ | rfl
    · rw [ofStore_begun_other rfl fun h => hne (h.symm.trans hid.symm)]
      exact hR.stores y hy
    · have hid' : (blockedRow at' x).storeId = t.storeId := hid
      have hchain := hR.stores x hx
      rw [hid] at hchain
      rw [hid', ofStore_begun rfl]
      exact hchain.block hst ht.1
  · rcases hchains b hb with ⟨hne, hb⟩ | ⟨hb', hchain⟩
    · rw [ofAccount_begun_other rfl (Ne.symm hne)]
      exact hR.accounts b hb
    · rw [hb', ofAccount_begun rfl]
      exact hchain
  · have hne : id ≠ t.storeId := fun h =>
      hnone (blockedRow at' x) ((hrows _).mpr (Or.inr rfl)) (hid.trans h.symm)
    rw [ofStore_begun_other rfl (Ne.symm hne)]
    refine hR.no_store id fun y hy hyid => ?_
    exact hnone y ((hrows y).mpr (Or.inl ⟨hy, fun h => hne (hyid.symm.trans (h.trans hid))⟩)) hyid
  · have hne : id ≠ t.accountId := fun h => by
      obtain ⟨a, ha, hat⟩ := hentered
      exact hnone a ha (hat.trans h.symm)
    rw [ofAccount_begun_other rfl (Ne.symm hne)]
    refine hR.no_account id fun b hb hbid => ?_
    obtain ⟨a, ha, hab⟩ := hkept b hb
    exact hnone a ha (hab.trans hbid)
  · intro u hu w hw huw
    rcases List.mem_append.mp hu with hu | hu <;> rcases List.mem_append.mp hw with hw | hw
    · exact hR.keyed u hu w hw huw
    · rw [List.mem_singleton.mp hw] at huw
      exact absurd huw (hfresh u hu)
    · rw [List.mem_singleton.mp hu] at huw
      exact absurd huw.symm (hfresh w hw)
    · rw [List.mem_singleton.mp hu, List.mem_singleton.mp hw]

end Begin

/-- **Every move keeps the chains.** -/
theorem Move.chained (hR : R.Chained) (h : Move R R') : R'.Chained := by
  cases h with
  | enrolls hfresh hst hv => exact chained_enrolled hR hfresh hst hv
  | begins hfresh ht hx hst hid hrows haccounts =>
      exact chained_begun hR hfresh ht hx hst hid hrows haccounts
  | commits he hst hpair hinc hsv hav => exact he.committed hR hst hpair hinc hsv hav
  | @finalizes _ t a x at' he hst hsv hav =>
      refine he.settled hR (Or.inl rfl) rfl (fun _ => ?_) hsv hav
      simp [finalizedAccount, Transition.proposes, hst]
  | aborts he hnone hgen hsv hav => exact he.settled hR (Or.inr rfl) hnone hgen hsv hav
  | stops he hsv hav => exact he.stopped hR hsv hav

end Registry

end Kirje.Authority
