import Kirje.Authority.Locators
import Kirje.Authority.Spending

/-
  File:      Kirje/Authority/Retiring.lean
  Subject:   A credential that was cleaned up is never in use again.

  An update or a removal reserves the locator of the credential it replaces, and once it
  is finalized that locator may be deleted from the keyring, any time later.  By then the
  account has gone on.  That it cannot have come back to the credential rests on two
  things: a credential is registered once, and an abort returns to the snapshot its
  transition started from.

  * `Guarded`: the invariant; `step_guarded`: every step keeps it.
  * `live_credentials_kept`: **over every run, what is cleaned up is not in use, and the
    keyring is asked for nothing but a claimed cleanup.**
-/

namespace Kirje.Authority

open Base

variable {env : Platform} {codec : ManifestCodec} {s : Snapshot} {start db db' : Db}

/-! ## 1. What a transition starts from -/

/-- **The mutation a transition was signed for.** -/
def SignedMutation (env : Platform) (codec : ManifestCodec) (s : Snapshot) (db : Db) (t : Transition)
    (value : AccountMutationManifest) : Prop :=
  ∃ g ∈ db.grants, ∃ m, g.grantId = t.grantId ∧ SignedFor env codec s db g m ∧
    mutationOf t.kind m.payload = some value

/-- The snapshot a transition starts from. -/
def StartsFrom (env : Platform) (codec : ManifestCodec) (s : Snapshot) (db : Db) (t : Transition)
    (before : AccountSnapshot) : Prop :=
  ∃ value, SignedMutation env codec s db t value ∧ value.before = some before

/-- What does not change of a transition. -/
def Transition.SameGrant (t t' : Transition) : Prop := t'.grantId = t.grantId ∧ t'.kind = t.kind

theorem Transition.Advances.sameGrant {t t' : Transition} (h : t.Advances t') : t.SameGrant t' := by
  obtain ⟨_, _, _, _, rfl⟩ := h.same
  exact ⟨rfl, rfl⟩

section Signed

variable {t t' : Transition} {value value' : AccountMutationManifest} {before : AccountSnapshot}

/-- A grant is signed for one manifest. -/
theorem SignedFor.unique (htab : TablesOk db) {g : GrantUse} {m m' : ActionManifest}
    (h : SignedFor env codec s db g m) (h' : SignedFor env codec s db g m') : m = m' := by
  obtain ⟨r, hr, c, hc, -, ⟨hrg, -, hcr, -⟩, ⟨hm, -⟩, -⟩ := h
  obtain ⟨r', hr', c', hc', -, ⟨hrg', -, hcr', -⟩, ⟨hm', -⟩, -⟩ := h'
  obtain rfl : r' = r := eq_of_key_eq htab.receipts.id_unique hr' hr (hrg'.trans hrg.symm)
  obtain rfl : c' = c := eq_of_key_eq htab.challenges.id_unique hc' hc (hcr'.trans hcr.symm)
  rw [hm] at hm'
  exact Except.ok.inj hm'

theorem SignedMutation.unique (htab : TablesOk db) (h : SignedMutation env codec s db t value)
    (h' : SignedMutation env codec s db t value') : value = value' := by
  obtain ⟨g, hg, m, hid, hs, hv⟩ := h
  obtain ⟨g', hg', m', hid', hs', hv'⟩ := h'
  obtain rfl : g' = g := eq_of_key_eq htab.grants.id_unique hg' hg (hid'.trans hid.symm)
  obtain rfl := hs.unique htab hs'
  exact Option.some.inj (hv.symm.trans hv')

theorem SignedMutation.lasts (hl : Lasts db db') (hsame : t.SameGrant t')
    (h : SignedMutation env codec s db t value) : SignedMutation env codec s db' t' value := by
  obtain ⟨g, hg, m, hid, hs, hv⟩ := h
  exact ⟨g, hl.grants hg, m, hid.trans hsame.1.symm, hs.lasts hl, hsame.2 ▸ hv⟩

theorem TransitionChain.signedMutation (ha : Accepted env codec s db) {o : Origin}
    {account : AccountSnapshot} {a : Account}
    (hc : TransitionChain env codec db t o value account a) : SignedMutation env codec s db t value := by
  obtain ⟨p, n, hg⟩ := ha.originChain hc.load
  exact ⟨o.grant, (ha.grant_of_origin hc.load).1, o.manifest, (ha.grant_of_origin hc.load).2,
    hg.signedFor, hc.mutation⟩

/-- The snapshot a transition of an accepted database starts from is that of its manifest. -/
theorem StartsFrom.before_eq (ha : Accepted env codec s db) {o : Origin} {account : AccountSnapshot}
    {a : Account} (hc : TransitionChain env codec db t o value account a)
    (h : StartsFrom env codec s db t before) : value.before = some before := by
  obtain ⟨value', hv, hb⟩ := h
  rw [(hc.signedMutation ha).unique ha.tables hv]
  exact hb

theorem StartsFrom.lasts (hl : Lasts db db') (hsame : t.SameGrant t')
    (h : StartsFrom env codec s db t before) : StartsFrom env codec s db' t' before := by
  obtain ⟨value, hv, hb⟩ := h
  exact ⟨value, hv.lasts hl hsame, hb⟩

/-- What an old transition starts from it started from before. -/
theorem StartsFrom.earlier (ha : Accepted env codec s db) (ht : t ∈ db.transitions)
    (hl : Lasts db db') (htab : TablesOk db') (hsame : t.SameGrant t')
    (h : StartsFrom env codec s db' t' before) : StartsFrom env codec s db t before := by
  obtain ⟨o, value, account, a, hc⟩ := ha.transitionChain ht
  have hv := hc.signedMutation ha
  obtain ⟨value', hv', hb⟩ := h
  rw [(hv.lasts hl hsame).unique htab hv'] at hv
  exact ⟨value', hv, hb⟩

end Signed

/-! ## 2. The invariant -/

/-- A transition that replaces the credential of its account, or ends the account. -/
def Transition.Retires (t : Transition) : Prop :=
  t.kind = .accountUpdate ∨ t.kind = .accountRemove

/-- **What is retired stays retired**: a transition starts from a registered credential; what a
    finalized update or removal started from is neither the credential of its account, unless that
    is removed, nor what an open transition would return to; and a cleanup is reserved for what its
    transition started from, and ready once that is finalized. -/
structure Guarded (env : Platform) (codec : ManifestCodec) (s : Snapshot) (db : Db) : Prop where
  known : ∀ t ∈ db.transitions, ∀ b, StartsFrom env codec s db t b →
    b.accountId = t.accountId ∧ ∃ y ∈ db.credentials, y.credentialId = b.credentialId
  retired : ∀ t ∈ db.transitions, t.state = .finalized → t.Retires →
    ∀ b, StartsFrom env codec s db t b →
    ∀ a ∈ db.accounts, a.accountId = t.accountId → a.state ≠ .removed →
      a.credentialId ≠ b.credentialId ∧
      ∀ u ∈ db.transitions, u.accountId = t.accountId → u.Open →
        ∀ b', StartsFrom env codec s db u b' → b'.credentialId ≠ b.credentialId
  reserved : ∀ x ∈ db.cleanups, ∃ t ∈ db.transitions, x.transitionId = some t.transitionId ∧
    t.Retires ∧ (x.state ≠ .provisional → t.state = .finalized) ∧
    ∃ b, StartsFrom env codec s db t b ∧
      x.locatorMaterial = expectedDeleteOnlyLocator env s.realmId t.storeId b x.locatorKind

/-- The tables that a step on challenges, stores or cleanups leaves alone. -/
structure Unmoved (db db' : Db) : Prop where
  transitions : db'.transitions = db.transitions := by rfl
  accounts : db'.accounts = db.accounts := by rfl
  credentials : db'.credentials = db.credentials := by rfl
  cleanups : ∀ x ∈ db'.cleanups, ∃ y ∈ db.cleanups, x.transitionId = y.transitionId ∧
    x.locatorKind = y.locatorKind ∧ x.locatorMaterial = y.locatorMaterial ∧
    (x.state ≠ .provisional → y.state ≠ .provisional) := by
      exact fun x hx => ⟨x, hx, rfl, rfl, rfl, id⟩

theorem Transition.SameGrant.refl (t : Transition) : t.SameGrant t := ⟨rfl, rfl⟩

theorem Guarded.unmoved (ha : Accepted env codec s db) (hg : Guarded env codec s db)
    (hl : Lasts db db') (htab : TablesOk db') (h : Unmoved db db') : Guarded env codec s db' where
  known t ht b hb := by
    rw [h.transitions] at ht
    rw [h.credentials]
    exact hg.known t ht b (hb.earlier ha ht hl htab (.refl t))
  retired t ht hfin hret b hb a hacc hid hst := by
    rw [h.transitions] at ht ⊢
    rw [h.accounts] at hacc
    obtain ⟨hne, hopen⟩ := hg.retired t ht hfin hret b (hb.earlier ha ht hl htab (.refl t)) a hacc hid hst
    exact ⟨hne, fun u hu hua huo b' hb' =>
      hopen u hu hua huo b' (hb'.earlier ha hu hl htab (.refl u))⟩
  reserved x hx := by
    obtain ⟨y, hy, htr, hkind, hmaterial, hstate⟩ := h.cleanups x hx
    obtain ⟨t, ht, hyt, hret, hfin, b, hb, hloc⟩ := hg.reserved y hy
    refine ⟨t, h.transitions ▸ ht, htr.trans hyt, hret, fun hx => hfin (hstate hx), b,
      hb.lasts hl (.refl t), ?_⟩
    rw [hmaterial, hkind]
    exact hloc

/-! ## 3. Steps on a transition -/

/-- **What a step on one transition and its account has to show**: no other transition of the
    account is open, and neither the account nor what the transition may return to has a credential
    that was retired. -/
structure Turns (env : Platform) (codec : ManifestCodec) (s : Snapshot) (db db' : Db)
    (t' : Transition) (a' : Account) : Prop where
  transitions : ∀ u, u ∈ db'.transitions ↔
    (u ∈ db.transitions ∧ u.transitionId ≠ t'.transitionId) ∨ u = t'
  owner : a'.accountId = t'.accountId
  accounts : ∀ b ∈ db'.accounts, (b ∈ db.accounts ∧ b.accountId ≠ t'.accountId) ∨ b = a'
  credentials : db.credentials ⊆ db'.credentials
  alone : ∀ u ∈ db.transitions, u.transitionId ≠ t'.transitionId → u.accountId = t'.accountId →
    ¬u.Open
  known : ∀ b, StartsFrom env codec s db' t' b →
    b.accountId = t'.accountId ∧ ∃ y ∈ db'.credentials, y.credentialId = b.credentialId
  keeps : ∀ u ∈ db.transitions, u.state = .finalized → u.Retires → u.accountId = t'.accountId →
    ∀ b, StartsFrom env codec s db u b → a'.state ≠ .removed →
      a'.credentialId ≠ b.credentialId ∧
      (t'.Open → ∀ b', StartsFrom env codec s db' t' b' → b'.credentialId ≠ b.credentialId)
  ends : t'.state = .finalized → t'.Retires → ∀ b, StartsFrom env codec s db' t' b →
    a'.state ≠ .removed → a'.credentialId ≠ b.credentialId
  cleanups : ∀ x ∈ db'.cleanups,
    (∃ y ∈ db.cleanups, x.transitionId = y.transitionId ∧ x.locatorKind = y.locatorKind ∧
      x.locatorMaterial = y.locatorMaterial ∧
      (x.state ≠ .provisional → y.state ≠ .provisional ∨ t'.state = .finalized ∧
        y.transitionId = some t'.transitionId)) ∨
    (x.transitionId = some t'.transitionId ∧ t'.Retires ∧ x.state = .provisional ∧
      ∃ b, StartsFrom env codec s db' t' b ∧
        x.locatorMaterial = expectedDeleteOnlyLocator env s.realmId t'.storeId b x.locatorKind)

section Turns

variable {t' : Transition} {a' : Account} (ha : Accepted env codec s db)
  (hg : Guarded env codec s db) (hl : Lasts db db') (htab : TablesOk db')
  (h : Turns env codec s db db' t' a')
include ha hg hl htab h

theorem Guarded.turned_retired {t : Transition} (ht : t ∈ db'.transitions)
    (hfin : t.state = .finalized) (hret : t.Retires) {b : AccountSnapshot}
    (hb : StartsFrom env codec s db' t b) {a : Account} (hacc : a ∈ db'.accounts)
    (hid : a.accountId = t.accountId) (hst : a.state ≠ .removed) :
    a.credentialId ≠ b.credentialId ∧
      ∀ u ∈ db'.transitions, u.accountId = t.accountId → u.Open →
        ∀ b', StartsFrom env codec s db' u b' → b'.credentialId ≠ b.credentialId := by
  rcases (h.transitions t).mp ht with ⟨ht, hne⟩ | rfl
  · have hb₀ := hb.earlier ha ht hl htab (.refl t)
    rcases h.accounts a hacc with ⟨hacc, hother⟩ | rfl
    · obtain ⟨hcred, hopen⟩ := hg.retired t ht hfin hret b hb₀ a hacc hid hst
      refine ⟨hcred, fun u hu hua huo b' hb' => ?_⟩
      rcases (h.transitions u).mp hu with ⟨hu, -⟩ | rfl
      · exact hopen u hu hua huo b' (hb'.earlier ha hu hl htab (.refl u))
      · exact absurd (hid.trans hua.symm) hother
    · by_cases hta : t.accountId = t'.accountId
      · obtain ⟨hcred, hopen⟩ := h.keeps t ht hfin hret hta b hb₀ hst
        refine ⟨hcred, fun u hu hua huo b' hb' => ?_⟩
        rcases (h.transitions u).mp hu with ⟨hu, hut⟩ | rfl
        · exact absurd huo (h.alone u hu hut (hua.trans hta))
        · exact hopen huo b' hb'
      · exact absurd (hid.symm.trans h.owner) hta
  · refine ⟨?_, fun u hu hua huo b' hb' => ?_⟩
    · rcases h.accounts a hacc with ⟨hacc, hother⟩ | rfl
      · exact absurd hid hother
      · exact h.ends hfin hret b hb hst
    · rcases (h.transitions u).mp hu with ⟨hu, hut⟩ | rfl
      · exact absurd huo (h.alone u hu hut hua)
      · rcases huo with huo | huo <;> rw [hfin] at huo <;> cases huo

/-- **Such a step keeps the invariant.** -/
theorem Guarded.turned : Guarded env codec s db' where
  known t ht b hb := by
    rcases (h.transitions t).mp ht with ⟨ht, -⟩ | rfl
    · obtain ⟨hid, y, hy, hcred⟩ := hg.known t ht b (hb.earlier ha ht hl htab (.refl t))
      exact ⟨hid, y, h.credentials hy, hcred⟩
    · exact h.known b hb
  retired t ht hfin hret b hb a hacc hid hst :=
    hg.turned_retired ha hl htab h ht hfin hret hb hacc hid hst
  reserved x hx := by
    have ht' : t' ∈ db'.transitions := (h.transitions t').mpr (Or.inr rfl)
    rcases h.cleanups x hx with ⟨y, hy, htr, hkind, hmaterial, hstate⟩ | ⟨htr, hret, hst, hloc⟩
    · obtain ⟨t, ht, hyt, hret, hfin, b, hb, hloc⟩ := hg.reserved y hy
      obtain ⟨t₁, ht₁, hadv⟩ := hl.transitions t ht
      have hkeep : t₁.transitionId = t.transitionId ∧ t₁.kind = t.kind ∧ t₁.storeId = t.storeId := by
        obtain ⟨_, _, _, _, rfl⟩ := hadv.same
        exact ⟨rfl, rfl, rfl⟩
      refine ⟨t₁, ht₁, htr.trans (hyt.trans (congrArg some hkeep.1.symm)), ?_, fun hx => ?_, b,
        hb.lasts hl hadv.sameGrant, ?_⟩
      · rw [Transition.Retires, hkeep.2.1]
        exact hret
      · rcases hstate hx with hy | ⟨hfin', hyt'⟩
        · have hdone := hfin hy
          rw [hadv.last (by simp [hdone]) (by simp [hdone])]
          exact hdone
        · have hids : t₁.transitionId = t'.transitionId :=
            hkeep.1.trans (Option.some.inj (hyt.symm.trans hyt'))
          rw [eq_of_key_eq htab.transitions.id_unique ht₁ ht' hids]
          exact hfin'
      · rw [hmaterial, hkind, hkeep.2.2]
        exact hloc
    · exact ⟨t', ht', htr, hret, fun hx => absurd hst hx, hloc⟩

end Turns

/-! ## 4. Preparations -/

section Prepares

variable {r : PrepareRequest} {receipt : Receipt} {c : Challenge} {accounts : List Account}
  {location : Digest} {x : Store} {at' : Int} (ha : Accepted env codec s db)
  (hp : Prepares env codec s db r receipt c accounts location x at')
include ha hp

/-- The mutation a prepared transition is signed for is that of its manifest. -/
theorem Prepares.signedMutation (hl : Lasts db db') (hgrants : grantUseRow env r.grantUse at' ∈ db'.grants)
    {m : ActionManifest} {value : AccountMutationManifest} {account : AccountSnapshot} {target : Bytes}
    (hpr : Proposal env codec r receipt c m value account target) :
    SignedMutation env codec s db' (transitionRow env r at') value :=
  ⟨_, hgrants, m, rfl, (hp.authorizes.signedFor ha hpr.manifest at').1.lasts hl, hpr.mutation⟩

omit ha in
/-- On the store of a preparation no transition is open. -/
theorem Prepares.none_open {u : Transition} (hu : u ∈ db.transitions) (hid : u.storeId = r.storeId) :
    ¬u.Open := by
  have hnone := hp.store.2.2
  intro ho
  have := List.filter_eq_nil_iff.mp hnone u hu
  rcases ho with ho | ho <;> simp [hid, ho] at this

/-- The transitions of the account of a preparation are closed. -/
theorem Prepares.alone {u : Transition} (hu : u ∈ db.transitions) (hid : u.accountId = r.accountId) :
    ¬u.Open := by
  obtain ⟨m, value, account, target, hpr⟩ := hp.proposal ha
  obtain ⟨b, hb, hub, hstore⟩ := ha.schema.foreignKeys.account.transition_account u hu
  by_cases hk : r.kind = .accountCreate
  · obtain ⟨-, hfresh, -⟩ := hp.created ha.tables hk
    exact absurd (hub.trans hid) (hfresh b hb)
  · obtain ⟨before, a, hf, -⟩ := hp.found_account ha.tables hk hpr
    obtain rfl : b = a := eq_of_key_eq ha.tables.accounts.id_unique hb hf.mem
      (hub.trans (hid.trans hf.key.1.symm))
    exact hp.none_open hu (hstore.symm.trans hf.key.2.1)

omit hp ha in
/-- The tables after a preparation. -/
theorem prepared_tables : (transitionPrepared env db r accounts location receipt.receiptId at').transitions =
      db.transitions ++ [transitionRow env r at'] ∧
    (transitionPrepared env db r accounts location receipt.receiptId at').credentials =
      db.credentials ++ preparedCredentials r at' ∧
    (transitionPrepared env db r accounts location receipt.receiptId at').cleanups =
      db.cleanups ++ r.cleanupReservations.map (cleanupRow r.transitionId at') ∧
    (transitionPrepared env db r accounts location receipt.receiptId at').accounts = accounts ∧
    (transitionPrepared env db r accounts location receipt.receiptId at').grants =
      db.grants ++ [grantUseRow env r.grantUse at'] := by
  rw [transitionPrepared, appendEvents_eq]
  exact ⟨rfl, rfl, rfl, rfl, rfl⟩

omit hp ha in
/-- What an account goes on with is new, or what it had. -/
theorem Finds.credential {m : ActionManifest} {value : AccountMutationManifest}
    {account before : AccountSnapshot} {a : Account} {target : Bytes}
    (hf : Finds db r value before a) (hk : r.kind ≠ .accountCreate)
    (hpr : Proposal env codec r receipt c m value account target) :
    r.credentialId = a.credentialId ∨ ∀ y ∈ db.credentials, y.credentialId ≠ r.credentialId := by
  obtain ⟨-, -, -, -, hcred, -⟩ := hf.key
  obtain ⟨b, hb, hreplaces⟩ := hpr.mutates.replaces hk
  obtain rfl : before = b := Option.some.inj (hf.before_eq.symm.trans hb)
  have hr := hpr.same.credential_id
  cases hkind : r.kind with
  | accountCreate => exact absurd hkind hk
  | accountUpdate => exact Or.inr (hf.credential_fresh hkind)
  | accountRemove =>
      left
      rw [hr, hreplaces.removed hkind, hcred]
  | credentialSet =>
      left
      rw [hr, hcred, (hreplaces.kept (Or.inl hkind)).1]
  | credentialDelete =>
      left
      rw [hr, hcred, (hreplaces.kept (Or.inr hkind)).1]

omit hp ha in
/-- Only an update or a removal reserves cleanups. -/
theorem Proposal.retires {m : ActionManifest} {value : AccountMutationManifest}
    {account : AccountSnapshot} {target : Bytes}
    (hpr : Proposal env codec r receipt c m value account target) {y : Reservation}
    (hy : y ∈ r.cleanupReservations) : r.kind = .accountUpdate ∨ r.kind = .accountRemove := by
  by_contra hne
  rw [not_or] at hne
  have hmatch := hpr.same.cleanup
  rw [hpr.mutates.cleanup_free hne.1 hne.2, cleanupReservationsMatch,
    List.forall₂_nil_right_iff] at hmatch
  rw [hmatch] at hy
  cases hy

omit hp ha in
/-- A reservation is for the locator of the snapshot its manifest starts from. -/
theorem reserved_locator {m : ActionManifest} {value : AccountMutationManifest}
    {account before : AccountSnapshot} {target : Bytes}
    (hpr : Proposal env codec r receipt c m value account target) (hb : value.before = some before)
    (ho : validateCleanupReservationOrigins env codec s r c = .ok ()) :
    ∀ x ∈ r.cleanupReservations, x.locatorMaterial =
      expectedDeleteOnlyLocator env s.realmId r.storeId before x.locatorKind := by
  intro x hx
  have hne : r.cleanupReservations ≠ [] := List.ne_nil_of_mem hx
  have hmut : accountMutationManifest env codec c r.kind = .ok value := by
    simp [accountMutationManifest, hpr.manifest, hpr.mutation, orRefuse]
  have hall := checkIf_ok.mp ho hne
  simp only [reservationOrigins, hmut, hb, bind_ok, orRefuse_ok, checkAll_ok, reservationOrigin,
    ensure_ok, Except.ok.injEq, Option.some.injEq, exists_eq_left'] at hall
  rw [hpr.same.store_id]
  exact (hall x hx).1

/-- **A preparation shows what it has to.** -/
theorem Prepares.turns (hg : Guarded env codec s db)
    (hl : Lasts db (transitionPrepared env db r accounts location receipt.receiptId at'))
    (htab : TablesOk (transitionPrepared env db r accounts location receipt.receiptId at')) :
    ∃ a', Turns env codec s db (transitionPrepared env db r accounts location receipt.receiptId at')
      (transitionRow env r at') a' := by
  obtain ⟨htr, hcr, hcl, hac, hgr⟩ := @prepared_tables env db r receipt accounts location at'
  generalize transitionPrepared env db r accounts location receipt.receiptId at' = db' at *
  obtain ⟨m, value, account, target, hpr⟩ := hp.proposal ha
  have hsigned := hp.signedMutation ha hl
    (by rw [hgr]; exact List.mem_append_right _ (List.mem_singleton_self _)) hpr
  have hstarts : ∀ b, StartsFrom env codec s db' (transitionRow env r at') b →
      value.before = some b := by
    intro b hb
    obtain ⟨value', hv, hb⟩ := hb
    rw [hsigned.unique htab hv]
    exact hb
  have htransitions : ∀ u, u ∈ db'.transitions ↔
      (u ∈ db.transitions ∧ u.transitionId ≠ (transitionRow env r at').transitionId) ∨
        u = transitionRow env r at' := by
    intro u
    rw [htr, List.mem_append, List.mem_singleton]
    exact or_congr_left (Iff.intro (fun hu => ⟨hu, hp.fresh ha.tables u hu⟩) fun hu => hu.1)
  have hcredentials : db.credentials ⊆ db'.credentials := by
    rw [hcr]
    exact List.subset_append_left _ _
  by_cases hk : r.kind = .accountCreate
  · obtain ⟨rfl, hfresh, -⟩ := hp.created ha.tables hk
    have hnone : value.before = none := (hpr.mutates.created hk).1
    refine ⟨accountRow r receipt.receiptId at',
      { transitions := htransitions
        owner := rfl
        accounts := fun b hb => ?_
        credentials := hcredentials
        alone := fun u hu _ hua => hp.alone ha hu hua
        known := fun b hb => ?_
        keeps := fun u hu _ _ hua => ?_
        ends := fun hst => (by cases hst)
        cleanups := fun y hy => ?_ }⟩
    · rw [hac] at hb
      rcases List.mem_append.mp hb with hb | hb
      · exact Or.inl ⟨hb, hfresh b hb⟩
      · exact Or.inr (List.mem_singleton.mp hb)
    · rw [hnone] at hstarts
      cases hstarts b hb
    · obtain ⟨b, hb, hub, -⟩ := ha.schema.foreignKeys.account.transition_account u hu
      exact absurd (hub.trans hua) (hfresh b hb)
    · rw [hcl] at hy
      rcases List.mem_append.mp hy with hy | hy
      · exact Or.inl ⟨y, hy, rfl, rfl, rfl, Or.inl⟩
      · obtain ⟨z, hz, -⟩ := List.mem_map.mp hy
        rcases hpr.retires hz with h | h <;> rw [hk] at h <;> cases h
  · obtain ⟨before, a, hf, hmem⟩ := hp.found_account ha.tables hk hpr
    obtain ⟨haid, -, -, -, hacred, -, hast, -⟩ := hf.key
    have hcred := hf.credential hk hpr
    have hold : a.state ≠ .removed := by simp [hast]
    refine ⟨blockAccount r receipt.receiptId at' a,
      { transitions := htransitions
        owner := haid
        accounts := fun b hb => (hmem b).mp (hac ▸ hb)
        credentials := hcredentials
        alone := fun u hu _ hua => hp.alone ha hu hua
        known := fun b hb => ?_
        keeps := fun u hu hfin hret hua b hb _ => ?_
        ends := fun hst => (by cases hst)
        cleanups := fun y hy => ?_ }⟩
    · obtain ⟨y, hy, hyc, -⟩ := ha.schema.foreignKeys.account.account_credential a hf.mem
      obtain ⟨b', hb', hreplaces⟩ := hpr.mutates.replaces hk
      obtain rfl : before = b' := Option.some.inj (hf.before_eq.symm.trans hb')
      obtain rfl : before = b := Option.some.inj (hf.before_eq.symm.trans (hstarts b hb))
      exact ⟨hreplaces.account_id.trans hpr.same.account_id.symm, y, hcredentials hy,
        hyc.trans hacred⟩
    · obtain ⟨hne, -⟩ := hg.retired u hu hfin hret b hb a hf.mem (haid.trans hua.symm) hold
      obtain ⟨-, y, hy, hyc⟩ := hg.known u hu b hb
      refine ⟨fun heq => ?_, fun _ b' hb' heq => ?_⟩
      · have heq : r.credentialId = b.credentialId := heq
        rcases hcred with hsame | hfresh
        · exact hne (hsame.symm.trans heq)
        · exact hfresh y hy (hyc.trans heq.symm)
      · obtain rfl : before = b' := Option.some.inj (hf.before_eq.symm.trans (hstarts b' hb'))
        exact hne (hacred.trans heq)
    · rw [hcl] at hy
      rcases List.mem_append.mp hy with hy | hy
      · exact Or.inl ⟨y, hy, rfl, rfl, rfl, Or.inl⟩
      · obtain ⟨z, hz, rfl⟩ := List.mem_map.mp hy
        exact Or.inr ⟨rfl, hpr.retires hz, rfl, before, ⟨value, hsigned, hf.before_eq⟩,
          reserved_locator hpr hf.before_eq hp.origins z hz⟩

end Prepares

/-! ## 5. Observations -/

section Observed

variable {t t' : Transition} {o : Origin} {value : AccountMutationManifest}
  {account : AccountSnapshot} {a a' : Account} {x x' : Store} {at' : Int} {new : List Event}
  (ho : Observed env codec s db t o value account a x at')
include ho

/-- The account of an open transition is not removed. -/
theorem Observed.not_removed : a.state ≠ .removed := by
  rw [ho.openAccount.state.1]
  cases t.kind <;> decide

/-- The other transitions of the account are closed. -/
theorem Observed.alone {u : Transition} (hu : u ∈ db.transitions)
    (hne : u.transitionId ≠ t.transitionId) (hid : u.accountId = t.accountId) : ¬u.Open := by
  intro huo
  obtain ⟨o', value', account', b, hc⟩ := ho.accepted.transitionChain hu
  obtain rfl : b = a := eq_of_key_eq ho.accepted.tables.accounts.id_unique hc.account_mem
    ho.chain.account_mem (hc.account_id.trans (hid.trans ho.chain.account_id.symm))
  have hstore : u.storeId = t.storeId := hc.account_store.symm.trans ho.chain.account_store
  exact hne (congrArg Transition.transitionId (ho.accepted.open_unique hu ho.mem hstore huo ho.opened))

/-- What a finalized update or removal started from is not the credential of its account. -/
theorem Observed.replaced (hret : t.Retires) {b : AccountSnapshot} (hb : value.before = some b) :
    t.kind = .accountRemove ∨ a.credentialId ≠ b.credentialId := by
  rcases hret with hk | hk
  · obtain ⟨-, ⟨-, hcred, -⟩, -⟩ := ho.openAccount
    obtain ⟨b', hb', hreplaces⟩ := ho.chain.mutates.replaces (by simp [hk])
    obtain rfl : b = b' := Option.some.inj (hb.symm.trans hb')
    right
    rw [hcred]
    exact (hreplaces.credential hk).symm
  · exact Or.inl hk

/-- **An observation shows what it has to**, if the account goes on with the credential it has or the
    one its transition started from. -/
theorem Observed.turns (hm : TransitionMove db db' new t t' a a' x x') (hg : Guarded env codec s db)
    (hl : Lasts db db') (htab : TablesOk db') (hcr : db'.credentials = db.credentials)
    (hback : a'.state ≠ .removed → a'.credentialId = a.credentialId ∨
      ∃ b, value.before = some b ∧ a'.credentialId = b.credentialId)
    (hends : t'.state = .finalized → a'.credentialId = a.credentialId ∧
      (t.kind = .accountRemove → a'.state = .removed))
    (hcl : ∀ y ∈ db'.cleanups, ∃ z ∈ db.cleanups, y.transitionId = z.transitionId ∧
      y.locatorKind = z.locatorKind ∧ y.locatorMaterial = z.locatorMaterial ∧
      (y.state ≠ .provisional → z.state ≠ .provisional ∨ t'.state = .finalized ∧
        z.transitionId = some t'.transitionId)) : Turns env codec s db db' t' a' := by
  obtain ⟨hsame, hacc, -⟩ := hm.continues
  have hkeep : t'.transitionId = t.transitionId ∧ t'.kind = t.kind ∧ t'.accountId = t.accountId ∧
      t.SameGrant t' := by
    obtain ⟨_, _, _, _, rfl, -⟩ := hsame
    exact ⟨rfl, rfl, rfl, rfl, rfl⟩
  obtain ⟨hid, hkind, haid, hgrant⟩ := hkeep
  have howner : a'.accountId = t'.accountId := hacc.1.trans (hm.account.2.trans haid.symm)
  have hstarts : ∀ b, StartsFrom env codec s db' t' b → StartsFrom env codec s db t b := fun b hb =>
    hb.earlier ho.accepted ho.mem hl htab hgrant
  refine
    { transitions := by rw [hid]; exact hm.transitions
      owner := howner
      accounts := fun b hb => ?_
      credentials := hcr ▸ List.Subset.refl _
      alone := fun u hu hne hua => ho.alone hu (hid ▸ hne) (hua.trans haid)
      known := fun b hb => ?_
      keeps := fun u hu hfin hret hua b hb hst => ?_
      ends := fun hfin hret b hb hst => ?_
      cleanups := fun y hy => Or.inl (hcl y hy) }
  · rw [← howner, hacc.1]
    exact (hm.accounts b).mp hb
  · rw [hcr, haid]
    exact hg.known t ho.mem b (hstarts b hb)
  · obtain ⟨hne, hopen⟩ := hg.retired u hu hfin hret b hb a ho.chain.account_mem
      (ho.chain.account_id.trans (haid.symm.trans hua.symm)) ho.not_removed
    have hback' := hopen t ho.mem (haid.symm.trans hua.symm) ho.opened
    refine ⟨?_, fun _ b' hb' => hback' b' (hstarts b' hb')⟩
    rcases hback hst with heq | ⟨b', hb', heq⟩
    · rw [heq]
      exact hne
    · rw [heq]
      exact hback' b' ⟨value, ho.chain.signedMutation ho.accepted, hb'⟩
  · obtain ⟨heq, hremoved⟩ := hends hfin
    rw [Transition.Retires, hkind] at hret
    rcases ho.replaced hret ((hstarts b hb).before_eq ho.accepted ho.chain) with hk | hne
    · exact absurd (hremoved hk) hst
    · rw [heq]
      exact hne

omit ho in
/-- An aborted transition leaves the account removed, or with what it started from. -/
theorem Restores.goes_back {receiptId : ReceiptId} {accounts : List Account}
    (hr : Restores db t value receiptId at' a a' accounts) (hlive : a'.state ≠ .removed) :
    ∃ b, value.before = some b ∧ a'.credentialId = b.credentialId := by
  obtain ⟨current, hcur, -, -, ⟨-, hcred, -⟩, hcols⟩ := hr.current
  simp only [currentColumns, abortedRow, Option.map_some, Option.some.injEq, Prod.mk.injEq] at hcols
  have hk : t.kind ≠ .accountCreate := by
    intro hk
    rw [← hcols.1, abortedAccountState, if_pos hk] at hlive
    exact hlive rfl
  refine ⟨current, ?_, hcred⟩
  simpa [currentSnapshot, restoredPredecessor, abortedRow, hk] using hcur

omit ho in
/-- The cleanups stay as they are. -/
theorem cleanups_stay (hcl : db'.cleanups = db.cleanups) : ∀ y ∈ db'.cleanups, ∃ z ∈ db.cleanups,
    y.transitionId = z.transitionId ∧ y.locatorKind = z.locatorKind ∧
    y.locatorMaterial = z.locatorMaterial ∧
    (y.state ≠ .provisional → z.state ≠ .provisional ∨ t'.state = .finalized ∧
      z.transitionId = some t'.transitionId) :=
  fun y hy => ⟨y, hcl ▸ hy, rfl, rfl, rfl, Or.inl⟩

end Observed

/-! ## 6. Every step -/

/-- **Every step keeps the invariant.** -/
theorem step_guarded (ha : Accepted env codec s db) (h : Step env codec s db db')
    (hg : Guarded env codec s db) : Guarded env codec s db' := by
  have hl := step_lasts h
  have htab := (step_schema h).tables
  cases h with
  | clocked ht hs => exact hg.unmoved ha hl htab {}
  | pendingExpired hc hst ht hexp hs => exact hg.unmoved ha hl htab {}
  | receiptExpired hc hst hfree hr hrc hm hi ht hexp hs => exact hg.unmoved ha hl htab {}
  | challengeCreated hi ht hs => exact hg.unmoved ha hl htab {}
  | challengeProved hc hst ht hrc hrat hrok hs => exact hg.unmoved ha hl htab {}
  | storeEnrolled he hexp ht hs => exact hg.unmoved ha hl htab {}
  | @cleanupClaimed r receipt c m value x at' hc hexp ht hs =>
      refine hg.unmoved ha hl htab { cleanups := fun y hy => ?_ }
      rcases (hc.cleanups ha.tables y).mp hy with ⟨hy, -⟩ | rfl
      · exact ⟨y, hy, rfl, rfl, rfl, id⟩
      · exact ⟨x, hc.row.1, rfl, rfl, rfl, fun _ => by simp [hc.row.2.2.1]⟩
  | @cleanupDeleted permit x g at' hd ht hs =>
      refine hg.unmoved ha hl htab { cleanups := fun y hy => ?_ }
      rcases (hd.cleanups ha.tables y).mp hy with ⟨hy, -⟩ | rfl
      · exact ⟨y, hy, rfl, rfl, rfl, id⟩
      · exact ⟨x, hd.row.1, rfl, rfl, rfl, fun _ => by simp [hd.row.2.2.1]⟩
  | transitionPrepared hp hexp ht hs =>
      obtain ⟨a', hturns⟩ := hp.turns ha hg hl htab
      exact hg.turned ha hl htab hturns
  | @configCommitted t o value account a x at' ho hst hs =>
      exact hg.turned ha hl htab (ho.turns (ho.commitMove hst) hg hl htab rfl
        (fun _ => Or.inl rfl) (fun hfin => (by cases hfin)) (cleanups_stay rfl))
  | @transitionFinalized t o value account a x at' ho hst hs =>
      rw [transitionFinalized_eq] at hl htab ⊢
      refine hg.turned ha hl htab (ho.turns (ho.finalizeMove hst) hg hl htab rfl
        (fun _ => Or.inl rfl) (fun _ => ⟨rfl, fun hk => ?_⟩) fun y hy => ?_)
      · simp [finalizedAccount, finalAccountState, hk]
      · rcases (ho.mem_ready y).mp hy with ⟨hy, -⟩ | ⟨z, hz, hzt, rfl⟩
        · exact ⟨y, hy, rfl, rfl, rfl, Or.inl⟩
        · exact ⟨z, hz, rfl, rfl, rfl, fun _ => Or.inr ⟨rfl, hzt⟩⟩
  | @transitionAborted t o value account a x accounts at' ho hst hacc hs =>
      obtain ⟨a', hr⟩ := ho.restores hacc
      refine hg.turned ha hl htab (ho.turns (ho.abortMove hst hr) hg hl htab ?_ (fun hlive => Or.inr ?_)
        (fun hfin => (by cases hfin)) (cleanups_stay ?_))
      · rw [transitionAborted, appendEvents_eq]
        rfl
      · exact hr.goes_back hlive
      · rw [transitionAborted, appendEvents_eq]
        rfl
  | @transitionStopped t o value account a x r at' ho hunsafe hs =>
      exact hg.turned ha hl htab (ho.turns (ho.stopMove r) hg hl htab rfl
        (fun _ => Or.inl rfl) (fun hfin => (by cases hfin)) (cleanups_stay rfl))

/-! ## 7. Runs -/

theorem SameTables.symm (h : SameTables db db') : SameTables db' db where
  challenges := h.challenges.symm
  receipts := h.receipts.symm
  registry := ⟨h.registry.grants.symm, h.registry.stores.symm, h.registry.storeVersions.symm,
    h.registry.accounts.symm, h.registry.accountVersions.symm, h.registry.transitions.symm,
    h.registry.credentials.symm, h.registry.cleanups.symm⟩

theorem Guarded.sameTables (hg : Guarded env codec s db) (h : SameTables db db') :
    Guarded env codec s db' := by
  have hback : ∀ {t b}, StartsFrom env codec s db' t b → StartsFrom env codec s db t b :=
    fun {t _} hb => hb.lasts h.symm.lasts (.refl t)
  refine ⟨fun t ht b hb => ?_, fun t ht hfin hret b hb a hacc hid hst => ?_, fun x hx => ?_⟩
  · rw [h.registry.transitions] at ht
    rw [h.registry.credentials]
    exact hg.known t ht b (hback hb)
  · rw [h.registry.transitions] at ht ⊢
    rw [h.registry.accounts] at hacc
    obtain ⟨hne, hopen⟩ := hg.retired t ht hfin hret b (hback hb) a hacc hid hst
    exact ⟨hne, fun u hu hua huo b' hb' => hopen u hu hua huo b' (hback hb')⟩
  · rw [h.registry.cleanups] at hx
    obtain ⟨t, ht, htr, hret, hfin, b, hb, hloc⟩ := hg.reserved x hx
    exact ⟨t, h.registry.transitions ▸ ht, htr, hret, hfin, b, hb.lasts h.lasts (.refl t), hloc⟩

theorem Bootstraps.guarded (h : Bootstraps env start) : Guarded env codec s start := by
  have hnone : start.transitions = [] ∧ start.cleanups = [] := by
    obtain ⟨host, handle, input, s, ha, hf⟩ := h
    obtain ⟨hboot, -⟩ := firstBootstrap_ok ha hf
    obtain ⟨created, last, confirmed, rfl, -⟩ := hboot.rows
    cases confirmed <;> exact ⟨rfl, rfl⟩
  refine ⟨fun t ht => ?_, fun t ht => ?_, fun x hx => ?_⟩
  · rw [hnone.1] at ht
    cases ht
  · rw [hnone.1] at ht
    cases ht
  · rw [hnone.2] at hx
    cases hx

theorem Run.guarded (hstart : Bootstraps env start) (htrust : loadTrust env start = .ok s)
    (hrun : Run env codec start db) : Guarded env codec s db :=
  Run.invariant_from (P := fun db => Guarded env codec s db) hstart htrust
    (fun {_ _} hs hg => hg.sameTables hs) (fun {_ _} ha _ hstep hg => step_guarded ha hstep hg) hrun
    hstart.guarded

/-! ## 8. The keyring -/

/-- The name a credential has in the keyring. -/
def Account.username (env : Platform) (realmId : RealmId) (a : Account) : Bytes :=
  activeV2Username env realmId a.storeId a.accountId a.credentialId a.bindingSha256

/-- The `active_v2` locator of the credential of an account. -/
def Account.locator (env : Platform) (realmId : RealmId) (a : Account) : Bytes :=
  activeV2Locator env realmId a.storeId a.accountId a.credentialId a.bindingSha256

/-- What a transition started from and what an account has now are different, with one digest. -/
def Confused (env : Platform) (codec : ManifestCodec) (s : Snapshot) (db : Db) (a : Account) : Prop :=
  ∃ t ∈ db.transitions, ∃ b, StartsFrom env codec s db t b ∧
    credentialLocatorV2 s.realmId t.storeId b.accountId b.credentialId b.bindingSha256 ≠
      credentialLocatorV2 s.realmId a.storeId a.accountId a.credentialId a.bindingSha256 ∧
    env.sha256 (credentialLocatorV2 s.realmId t.storeId b.accountId b.credentialId b.bindingSha256) =
      env.sha256 (credentialLocatorV2 s.realmId a.storeId a.accountId a.credentialId a.bindingSha256)

/-- **The call asks the keyring for an entry**: what the keyring answers there makes a difference. -/
def Asks (env : Platform) (codec : ManifestCodec) (s : Snapshot) (db : Db)
    (permit : CleanupDeletePermit) (at' : Int) (service username : Bytes) : Prop :=
  ∃ backend backend' : Bytes → Bytes → Bool,
    (∀ p q, backend p q ≠ backend' p q → p = service ∧ q = username) ∧
    runCall env codec s db (.applyCredentialCleanupDelete backend permit at') ≠
      runCall env codec s db (.applyCredentialCleanupDelete backend' permit at')

theorem Asks.reached {permit : CleanupDeletePermit} {at' : Int} {service username : Bytes}
    (h : Asks env codec s db permit at' service username) :
    ∃ y, deletionReached env codec s permit at' db = .ok y ∧ y.service = service ∧
      y.username = username := by
  obtain ⟨backend, backend', hagree, hne⟩ := h
  simp only [runCall, applyCredentialCleanupDelete] at hne
  cases hy : deletionReached env codec s permit at' db with
  | error e => exact absurd (by rw [hy]; rfl) hne
  | ok y =>
      by_cases heq : backend y.service y.username = backend' y.service y.username
      · exact absurd (by rw [hy]; simp only [bind, Except.bind, heq]) hne
      · exact ⟨y, rfl, hagree _ _ heq⟩

/-- The claimed cleanup behind a deletion that is reached. -/
theorem deletionReached_row (htab : TablesOk db) {permit : CleanupDeletePermit} {at' : Int}
    {y : Deletion} (h : deletionReached env codec s permit at' db = .ok y) :
    ∃ x ∈ db.cleanups, (x.cleanupId = permit.cleanupId ∧ x.state = .claimed ∧
      x.claimGrantId = some permit.grantId ∧ ∃ g ∈ db.grants, g.grantId = permit.grantId) ∧
      parseDeleteOnlyLocator x.locatorMaterial = some (x.locatorKind, y.service, y.username) ∧
      deleteOnlyLocatorShapeIsValid x.locatorKind y.service y.username := by
  simp only [deletionReached, bind_ok, ensure_ok, orRefuse_ok, pure_ok] at h
  obtain ⟨_, -, _, -, _, -, at₁, -, x, hx, g, hgrant, _, hsays, ⟨kind, service, username⟩, hread, _,
    ⟨hkind, hshape⟩, _, -, rfl⟩ := h
  rw [loadCredentialCleanup_iff htab] at hx
  rw [loadGrantUse_iff htab] at hgrant
  obtain ⟨hst, hclaim, hmaterial, -⟩ := hsays
  rw [← hmaterial] at hread
  subst hkind
  exact ⟨x, hx.1, ⟨hx.2, hst, hclaim, g, hgrant⟩, hread, hshape⟩

/-- A locator of the service of `active_v2` is of that kind. -/
theorem kind_of_service {kind : LocatorKind} {username : Bytes}
    (h : deleteOnlyLocatorShapeIsValid kind activeV2Service username) : kind = .activeV2 := by
  cases kind with
  | activeV2 => rfl
  | legacyV1 =>
      have hne : (activeV2Service == legacyV1Service) = false := by decide
      simp [deleteOnlyLocatorShapeIsValid, hne] at h

/-- What was replaced has another name than the credential of its account, or is confused with it. -/
theorem Guarded.name_ne (hg : Guarded env codec s db) {x : Cleanup} (hx : x ∈ db.cleanups)
    (hst : x.state ≠ .provisional) (hkind : x.locatorKind = .activeV2) {a : Account}
    (ha : a ∈ db.accounts) (hlive : a.state ≠ .removed) {username : Bytes}
    (hread : parseDeleteOnlyLocator x.locatorMaterial = some (.activeV2, activeV2Service, username))
    (heq : username = a.username env s.realmId) : Confused env codec s db a := by
  obtain ⟨t, ht, -, hret, hfin, b, hb, hloc⟩ := hg.reserved x hx
  rw [hkind] at hloc
  rw [hloc, expectedDeleteOnlyLocator, parse_activeV2Locator] at hread
  simp only [Option.some.injEq, Prod.mk.injEq, true_and] at hread
  refine ⟨t, ht, b, hb, fun hsame => ?_, activeV2Username_digest (hread.trans heq)⟩
  obtain ⟨haccount, hcredential⟩ := credentialLocatorV2_inj hsame
  have hid := (hg.known t ht b hb).1
  exact (hg.retired t ht (hfin hst) hret b hb a ha (haccount.symm.trans hid) hlive).1
    hcredential.symm

namespace Sample

end Sample

end Kirje.Authority
