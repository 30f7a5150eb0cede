import Kirje.Authority.Preserved

/-
  File:      Kirje/Authority/Lifecycles.lean
  Subject:   Effects on challenges: the events of a challenge and the order of the
             challenges of one context.

  Such an effect is about one challenge and appends one event of it, or only moves the
  clock (`challengeEffect`).
-/

namespace Kirje.Authority

open Base

variable {env : Platform} {codec : ManifestCodec} {s : Snapshot} {db db' : Db} {new : List Event}

/-! ## 1. The event graph -/

/-- **The event graph of a challenge, inverted.** -/
theorem challengeEventGraph_some {c : Challenge} {terminal : Option Nat} :
    challengeEventGraph db c = some terminal ↔ ∃ authorized expired,
      challengeSlot db c 3 = some (some c.createdEventSequence) ∧
      challengeSlot db c 4 = some authorized ∧ challengeSlot db c 5 = some expired ∧
      terminalSequence c.state authorized expired = some terminal ∧
      ∀ n ∈ terminal, c.createdEventSequence < n := by
  simp only [challengeEventGraph, Option.bind_eq_bind, Option.bind_eq_some_iff, guard_some,
    Option.some.injEq]
  constructor
  · rintro ⟨created, h3, authorized, h4, expired, h5, _, rfl, terminal', ht, _, hlt, rfl⟩
    exact ⟨authorized, expired, h3, h4, h5, ht, hlt⟩
  · rintro ⟨authorized, expired, h3, h4, h5, ht, hlt⟩
    exact ⟨_, h3, authorized, h4, expired, h5, (), rfl, terminal, ht, (), hlt, rfl⟩

theorem challengeSlot_some {c : Challenge} {code n : Nat} :
    challengeSlot db c code = some (some n) ↔
      ∃ e, eventsOf db 8 c.challengeId.bytes code = [e] ∧ e.sequence = n := by
  unfold challengeSlot
  split <;> simp_all

theorem slot_mem {c : Challenge} {code n : Nat} (h : challengeSlot db c code = some (some n)) :
    ∃ e ∈ db.events, e.sequence = n := by
  obtain ⟨e, he, hn⟩ := challengeSlot_some.mp h
  have hm : e ∈ eventsOf db 8 c.challengeId.bytes code := he ▸ List.mem_singleton_self e
  exact ⟨e, (List.mem_filter.mp hm).1, hn⟩

/-- The created event of an accepted challenge is in the log. -/
theorem Accepted.created_le (h : Accepted env codec s db) {c : Challenge}
    (hc : c ∈ db.challenges) : c.createdEventSequence ≤ db.sequenceHighWater := by
  obtain ⟨terminal, hg⟩ := Option.isSome_iff_exists.mp (h.log.lifecycles c hc).1
  obtain ⟨_, _, h3, -⟩ := challengeEventGraph_some.mp hg
  obtain ⟨e, he, hn⟩ := slot_mem h3
  rw [← hn]
  exact (h.sequence_le he).2

theorem Accepted.pending_slots (h : Accepted env codec s db) {c : Challenge}
    (hc : c ∈ db.challenges) (hst : c.state = .pending) :
    challengeSlot db c 3 = some (some c.createdEventSequence) ∧ challengeSlot db c 4 = some none ∧
      challengeSlot db c 5 = some none := by
  obtain ⟨terminal, hg⟩ := Option.isSome_iff_exists.mp (h.log.lifecycles c hc).1
  obtain ⟨authorized, expired, h3, h4, h5, ht, -⟩ := challengeEventGraph_some.mp hg
  rw [hst] at ht
  cases authorized <;> cases expired <;> simp only [terminalSequence, reduceCtorEq] at ht
  exact ⟨h3, h4, h5⟩

theorem Accepted.authorized_slots (h : Accepted env codec s db) {c : Challenge}
    (hc : c ∈ db.challenges) (hst : c.state = .authorized) :
    ∃ n, challengeSlot db c 3 = some (some c.createdEventSequence) ∧
      challengeSlot db c 4 = some (some n) ∧ challengeSlot db c 5 = some none ∧
      c.createdEventSequence < n ∧ n ≤ db.sequenceHighWater ∧
      challengeEventGraph db c = some (some n) := by
  obtain ⟨terminal, hg⟩ := Option.isSome_iff_exists.mp (h.log.lifecycles c hc).1
  obtain ⟨authorized, expired, h3, h4, h5, ht, hlt⟩ := challengeEventGraph_some.mp hg
  rw [hst] at ht
  cases authorized <;> cases expired <;>
    simp only [terminalSequence, reduceCtorEq, Option.some.injEq] at ht
  next n =>
    subst ht
    obtain ⟨e, he, hn⟩ := slot_mem h4
    exact ⟨n, h3, h4, h5, hlt n rfl, hn ▸ (h.sequence_le he).2, hg⟩

/-- A challenge that is settled has its last event in the log. -/
theorem Accepted.terminal_le (h : Accepted env codec s db) {c : Challenge}
    (hc : c ∈ db.challenges) (hst : c.state = .authorized ∨ c.state = .expired) :
    ∃ n, challengeEventGraph db c = some (some n) ∧ n ≤ db.sequenceHighWater := by
  obtain ⟨terminal, hg⟩ := Option.isSome_iff_exists.mp (h.log.lifecycles c hc).1
  obtain ⟨authorized, expired, h3, h4, h5, ht, -⟩ := challengeEventGraph_some.mp hg
  have hin : ∀ {code n}, challengeSlot db c code = some (some n) → n ≤ db.sequenceHighWater := by
    intro code n hn
    obtain ⟨e, he, rfl⟩ := slot_mem hn
    exact (h.sequence_le he).2
  rcases hst with hst | hst
  · obtain ⟨n, -, h4, -, -, hle, hg⟩ := h.authorized_slots hc hst
    exact ⟨n, hg, hle⟩
  · rw [hst] at ht
    cases authorized <;> cases expired <;>
      simp only [terminalSequence, reduceCtorEq, Option.some.injEq] at ht
    · subst ht
      exact ⟨_, hg, hin h5⟩
    · split at ht
      · simp only [Option.some.injEq] at ht
        subst ht
        exact ⟨_, hg, hin h4⟩
      · cases ht

/-! ## 2. One new event of one challenge -/

section OneEvent

variable {c : Challenge} {spec : EventSpec} {n : Nat}
  (f : Frame db db' (eventRows env n [spec]))
  (hspec : spec.entityKind = 8 ∧ spec.entityId = c.challengeId.bytes)
include f hspec

theorem Frame.slot_new (state : ChallengeState)
    (h : challengeSlot db c spec.eventCode = some none) :
    challengeSlot db' { c with state := state } spec.eventCode = some (some (n + 1)) := by
  refine challengeSlot_some.mpr ⟨spec.row env (n + 1), ?_, rfl⟩
  have hnil := challengeSlot_eq_none.mp h
  show eventsOf db' 8 c.challengeId.bytes spec.eventCode = _
  rw [f.eventsOf_append, hnil]
  simp [eventRows, EventSpec.row, hspec]

omit hspec in
theorem Frame.slot_old (state : ChallengeState) {code : Nat} (hcode : code ≠ spec.eventCode) :
    challengeSlot db' { c with state := state } code = challengeSlot db c code := by
  have hsame : eventsOf db' 8 c.challengeId.bytes code = eventsOf db 8 c.challengeId.bytes code := by
    refine f.eventsOf_eq ?_
    intro e he ⟨_, _, hc⟩
    simp only [eventRows, List.mem_singleton] at he
    subst he
    exact hcode hc.symm
  simp only [challengeSlot, hsame]

theorem Frame.graph_other {x : Challenge} (hne : x.challengeId ≠ c.challengeId) :
    challengeEventGraph db' x = challengeEventGraph db x := by
  refine f.graph_eq ?_
  intro e he ⟨_, hi⟩
  simp only [eventRows, List.mem_singleton] at he
  subst he
  exact hne (Digest.eq_of_bytes (hi.symm.trans hspec.2))

end OneEvent

/-! ## 3. Effects on challenges -/

/-- What an effect on challenges leaves: rows, the clock and events. -/
def challengeEffect (env : Platform) (db : Db) (challenges : List Challenge)
    (receipts : List Receipt) (nonces : List NonceUse) (at' : Int) (specs : List EventSpec) : Db :=
  appendEvents env ({ db with
    challenges := challenges
    receipts := receipts
    nonces := nonces }.clocked at') specs

/-- What the rows of an effect on challenges keep. -/
structure ChallengeEffect (db : Db) (challenges : List Challenge) (receipts : List Receipt)
    (nonces : List NonceUse) (at' : Int) : Prop where
  time : db.metaRow.lastObservedAt ≤ at'
  moved : ∀ c ∈ db.challenges, ∃ c' ∈ challenges, c.Continues c'
  granted : ∀ c ∈ db.challenges, (∃ g ∈ db.grants, g.grantId = c.grantId) → c ∈ challenges
  receipts_kept : db.receipts ⊆ receipts
  proofs : ∀ r ∈ receipts, r ∈ db.receipts ∨
    ∃ c ∈ db.challenges, c.challengeId = r.challengeId ∧ c.state = .pending
  nonces_kept : db.nonces ⊆ nonces

section Effect

variable {challenges : List Challenge} {receipts : List Receipt} {nonces : List NonceUse} {at' : Int}
  {specs : List EventSpec}

theorem challengeEffect_registry :
    SameRegistry db (challengeEffect env db challenges receipts nonces at' specs) := by
  rw [challengeEffect, appendEvents_eq]
  exact ⟨rfl, rfl, rfl, rfl, rfl, rfl, rfl, rfl⟩

theorem ChallengeEffect.frame (he : ChallengeEffect db challenges receipts nonces at')
    (hs : SchemaOk db) (hs' : SchemaOk (challengeEffect env db challenges receipts nonces at' specs))
    (hk : ∀ spec ∈ specs, spec.entityKind = 8) :
    Frame db (challengeEffect env db challenges receipts nonces at' specs)
      (eventRows env db.sequenceHighWater specs) := by
  have hkind : ∀ e ∈ eventRows env db.sequenceHighWater specs, e.entityKind = 8 := by
    intro e hm
    obtain ⟨spec, hsp, -, heq, -⟩ := mem_eventRows hm
    rw [heq]
    exact hk spec hsp
  have htab' := hs'.tables
  rw [challengeEffect, appendEvents_eq] at htab' ⊢
  exact {
    tables := hs.tables
    tables' := htab'
    clock := ⟨at', he.time, rfl⟩
    challenges := he.moved
    granted := he.granted
    receipts := he.receipts_kept
    proofs := he.proofs
    nonces := he.nonces_kept
    fresh_grant := fun e hm hk' => absurd ((hkind e hm).symm.trans hk') (by decide)
    fresh_store := fun e hm hk' => absurd ((hkind e hm).symm.trans hk') (by decide) }

/-- **What is left to prove of an effect on challenges.** -/
theorem ChallengeEffect.accepted (he : ChallengeEffect db challenges receipts nonces at')
    (h : Accepted env codec s db)
    (hs' : SchemaOk (challengeEffect env db challenges receipts nonces at' specs))
    (hk : ∀ spec ∈ specs, spec.entityKind = 8) (hlen : receipts.length = nonces.length)
    (hchallenges : ∀ c ∈ challenges, ChallengeOk env codec
      (challengeEffect env db challenges receipts nonces at' specs) s c)
    (hrows : ∀ e ∈ eventRows env db.sequenceHighWater specs, ChallengeEventOk env codec
      (challengeEffect env db challenges receipts nonces at' specs) e)
    (hlife : ∀ c ∈ challenges, LifecycleOk
      (challengeEffect env db challenges receipts nonces at' specs) c) :
    Accepted env codec s (challengeEffect env db challenges receipts nonces at' specs) := by
  have f := he.frame h.schema hs' hk
  have hreg : SameRegistry db (challengeEffect env db challenges receipts nonces at' specs) :=
    challengeEffect_registry
  have hkind : ∀ e ∈ eventRows env db.sequenceHighWater specs, e.entityKind = 8 := by
    intro e hm
    obtain ⟨spec, hsp, -, heq, -⟩ := mem_eventRows hm
    rw [heq]
    exact hk spec hsp
  obtain ⟨hstores, htrans⟩ := f.registryStays h hreg hkind
  have htables : (challengeEffect env db challenges receipts nonces at' specs).challenges =
      challenges ∧ (challengeEffect env db challenges receipts nonces at' specs).receipts =
        receipts ∧ (challengeEffect env db challenges receipts nonces at' specs).nonces = nonces ∧
      (challengeEffect env db challenges receipts nonces at' specs).sequenceHighWater =
        db.sequenceHighWater + specs.length := by
    rw [challengeEffect, appendEvents_eq]
    exact ⟨rfl, rfl, rfl, rfl⟩
  refine f.accepted h hs' rfl htables.2.2.2 ?_ ?_ (hreg.counts h.history.counts) ?_ hstores ?_ htrans
    ?_ ?_
  · rw [htables.1]
    exact hchallenges
  · rw [htables.2.1, htables.2.2.1]
    exact hlen
  · rw [hreg.grants]
    exact fun g hg => Or.inl hg
  · rw [hreg.storeVersions]
    exact fun v hv => Or.inl hv
  · intro e hm
    unfold EventRowOk
    rw [hkind e hm]
    exact hrows e hm
  · rw [htables.1]
    exact hlife

end Effect

/-! ## 4. A challenge that moves -/

theorem mem_moved (htab : TablesOk db) {c : Challenge} (hc : c ∈ db.challenges)
    {next : ChallengeState} {x : Challenge} :
    x ∈ (db.challengeMoved c.challengeId c.state next).challenges ↔
      (x ∈ db.challenges ∧ x.challengeId ≠ c.challengeId) ∨ x = { c with state := next } := by
  refine mem_update_key htab.challenges.id_unique (filter_eq_of_key htab.challenges.id_unique hc
    (by simp) ?_) ?_ x
  · exact fun y _ hy => (of_decide_eq_true hy).1
  · exact fun y _ hy => (of_decide_eq_true hy).1

/-- The challenge of a used grant is authorized. -/
theorem Accepted.granted_authorized (h : Accepted env codec s db) {c : Challenge}
    (hc : c ∈ db.challenges) {g : GrantUse} (hg : g ∈ db.grants) (hid : g.grantId = c.grantId) :
    c.state = .authorized := by
  obtain ⟨o, p, n, hch⟩ := h.grantChain hg
  have hoc : o.challenge = c := eq_of_key_eq h.tables.challenges.grant_unique hch.challenge_mem hc
    (hch.signed.grant_id.symm.trans hid)
  rw [← hoc]
  exact hch.signed.state

/-- The rows of a moved challenge, if no grant of it was used. -/
theorem moved_effect (h : Accepted env codec s db) {c : Challenge} (hc : c ∈ db.challenges)
    (hfree : ∀ g ∈ db.grants, g.grantId ≠ c.grantId) {at' : Int} (ht : TimeOk db at')
    (next : ChallengeState) {receipts : List Receipt} {nonces : List NonceUse}
    (hr : db.receipts ⊆ receipts) (hproofs : ∀ r ∈ receipts, r ∈ db.receipts ∨
      ∃ c ∈ db.challenges, c.challengeId = r.challengeId ∧ c.state = .pending)
    (hn : db.nonces ⊆ nonces) :
    ChallengeEffect db (db.challengeMoved c.challengeId c.state next).challenges receipts nonces
      at' := by
  refine ⟨ht.monotone, fun x hx => ?_, fun x hx hg => ?_, hr, hproofs, hn⟩
  · by_cases he : x.challengeId = c.challengeId
    · rw [eq_of_key_eq h.tables.challenges.id_unique hx hc he]
      exact ⟨_, (mem_moved h.tables hc).mpr (Or.inr rfl), next, rfl⟩
    · exact ⟨x, (mem_moved h.tables hc).mpr (Or.inl ⟨hx, he⟩), Challenge.Continues.refl x⟩
  · obtain ⟨g, hg, hid⟩ := hg
    refine (mem_moved h.tables hc).mpr (Or.inl ⟨hx, fun he => ?_⟩)
    rw [eq_of_key_eq h.tables.challenges.id_unique hx hc he] at hid
    exact hfree g hg hid

theorem Challenge.Continues.before {p p' c c' : Challenge} (hp : p.Continues p')
    (hc : c.Continues c') : p'.Before c' ↔ p.Before c := by
  obtain ⟨_, rfl⟩ := hp
  obtain ⟨_, rfl⟩ := hc
  exact Iff.rfl

theorem Frame.isPrevious (f : Frame db db' new) {p p' c c' : Challenge} (hp : p.Continues p')
    (hc : c.Continues c') (h : IsPrevious db'.challenges p' c') :
    IsPrevious db.challenges p c := by
  obtain ⟨hctx, hbef, hnone⟩ := h
  refine ⟨?_, (hp.before hc).mp hbef, fun q hq hqc hbetween => ?_⟩
  · obtain ⟨_, rfl⟩ := hp
    obtain ⟨_, rfl⟩ := hc
    exact hctx
  · obtain ⟨q', hq', hcont⟩ := f.challenges q hq
    refine hnone q' hq' ?_ ⟨(hp.before hcont).mpr hbetween.1, (hcont.before hc).mpr hbetween.2⟩
    obtain ⟨_, rfl⟩ := hcont
    obtain ⟨_, rfl⟩ := hc
    exact hqc

/-- **The order of the challenges of a context outlives a move** of one of them: a pending
    challenge has none after it, and a challenge that expires after its proof keeps its place. -/
theorem Frame.lifecycles_moved {c : Challenge} {next : ChallengeState} {spec : EventSpec} {n : Nat}
    (f : Frame db db' (eventRows env n [spec])) (h : Accepted env codec s db)
    (hc : c ∈ db.challenges) (hspec : spec.entityKind = 8 ∧ spec.entityId = c.challengeId.bytes)
    (hrows : db'.challenges = (db.challengeMoved c.challengeId c.state next).challenges)
    (hgraph : (challengeEventGraph db' { c with state := next }).isSome)
    (hprior : c.state = .pending ∨ (next = .expired ∧
      challengeEventGraph db' { c with state := next } = challengeEventGraph db c)) :
    ∀ x ∈ db'.challenges, LifecycleOk db' x := by
  have hmem : ∀ x ∈ db'.challenges, ∃ y ∈ db.challenges, y.Continues x ∧
      (x.challengeId ≠ c.challengeId → x = y) ∧ (x.challengeId = c.challengeId →
        y = c ∧ x = { c with state := next }) := by
    intro x hx
    rw [hrows, mem_moved h.tables hc] at hx
    rcases hx with ⟨hx, hne⟩ | rfl
    · exact ⟨x, hx, Challenge.Continues.refl x, fun _ => rfl, fun he => absurd he hne⟩
    · exact ⟨c, hc, ⟨next, rfl⟩, fun hne => absurd rfl hne, fun _ => ⟨rfl, rfl⟩⟩
  have hsome : ∀ x ∈ db'.challenges, (challengeEventGraph db' x).isSome := by
    intro x hx
    obtain ⟨y, hy, -, hother, hsame⟩ := hmem x hx
    by_cases he : x.challengeId = c.challengeId
    · rw [(hsame he).2]
      exact hgraph
    · rw [f.graph_other hspec he, hother he]
      exact (h.log.lifecycles y hy).1
  intro x hx
  refine ⟨hsome x hx, fun p hp hprev => ?_⟩
  obtain ⟨y, hy, hyx, -⟩ := hmem x hx
  obtain ⟨q, hq, hqp, hother, hsame⟩ := hmem p hp
  obtain ⟨hst, n', hn', hlt⟩ := (h.log.lifecycles y hy).2 q hq (f.isPrevious hqp hyx hprev)
  have hcreated : x.createdEventSequence = y.createdEventSequence := by
    obtain ⟨_, rfl⟩ := hyx
    rfl
  rw [hcreated]
  by_cases he : p.challengeId = c.challengeId
  · obtain ⟨rfl, rfl⟩ := hsame he
    rcases hprior with hpend | ⟨rfl, hsamegraph⟩
    · rw [hpend] at hst
      simp at hst
    · exact ⟨Or.inr rfl, n', hsamegraph ▸ hn', hlt⟩
  · obtain rfl := hother he
    exact ⟨hst, n', by rw [f.graph_other hspec he]; exact hn', hlt⟩

end Kirje.Authority
