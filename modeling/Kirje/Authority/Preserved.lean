import Kirje.Authority.Walk

/-
  File:      Kirje/Authority/Preserved.lean
  Subject:   From the parts to acceptance: what is left to prove of an effect once its
             frame is known.

  `Frame.accepted` is the one place where acceptance is put together again.  An
  effect on challenges leaves the registry alone (`SameRegistry`), an effect on the
  registry leaves the challenges alone (`Frame.challengesStay`).
-/

namespace Kirje.Authority

open Base

variable {env : Platform} {codec : ManifestCodec} {s : Snapshot} {db db' : Db} {new : List Event}

/-! ## 1. Appended events -/

/-- The rows of events appended after a sequence. -/
def eventRows (env : Platform) : Nat → List EventSpec → List Event
  | _, [] => []
  | n, e :: es => e.row env (n + 1) :: eventRows env (n + 1) es

theorem appendEvents_eq (specs : List EventSpec) (db : Db) :
    appendEvents env db specs = { db with
      events := db.events ++ eventRows env db.sequenceHighWater specs
      sequenceHighWater := db.sequenceHighWater + specs.length } := by
  induction specs generalizing db with
  | nil => simp [appendEvents, eventRows]
  | cons e es ih =>
      show appendEvents env (appendEvent env db e) es = _
      rw [ih]
      simp only [appendEvent, eventRows, List.append_assoc, List.singleton_append, List.length_cons]
      congr 1
      omega

theorem length_eventRows (n : Nat) (specs : List EventSpec) :
    (eventRows env n specs).length = specs.length := by
  induction specs generalizing n with
  | nil => rfl
  | cons e es ih => simp [eventRows, ih]

theorem sequence_eventRows (n : Nat) (specs : List EventSpec) :
    (eventRows env n specs).map Event.sequence =
      (List.range specs.length).map fun i => n + i + 1 := by
  induction specs generalizing n with
  | nil => rfl
  | cons e es ih =>
      simp only [eventRows, List.map_cons, ih, List.length_cons, List.range_succ_eq_map,
        List.map_map]
      refine List.cons_eq_cons.mpr ⟨rfl, List.map_congr_left fun i _ => ?_⟩
      simp only [Function.comp_apply]
      omega

/-- An appended row is a specification at a later sequence. -/
theorem mem_eventRows {n : Nat} {specs : List EventSpec} {e : Event}
    (h : e ∈ eventRows env n specs) :
    ∃ spec ∈ specs, e.Is env spec ∧ e = spec.row env e.sequence ∧ n < e.sequence := by
  induction specs generalizing n with
  | nil => cases h
  | cons x xs ih =>
      rcases List.mem_cons.mp h with rfl | h
      · exact ⟨x, List.mem_cons_self, rfl, rfl, Nat.lt_succ_self n⟩
      · obtain ⟨spec, hs, his, heq, hlt⟩ := ih h
        exact ⟨spec, List.mem_cons_of_mem _ hs, his, heq, by omega⟩

/-! ## 2. The sequence of the log -/

theorem Accepted.sequence_le (h : Accepted env codec s db) {e : Event} (he : e ∈ db.events) :
    1 ≤ e.sequence ∧ e.sequence ≤ db.sequenceHighWater := by
  have hm : e.sequence ∈ db.events.map Event.sequence := List.mem_map_of_mem he
  rw [h.log.contiguous] at hm
  obtain ⟨i, hi, hie⟩ := List.mem_map.mp hm
  have := List.mem_range.mp hi
  rw [h.log.high_water, ← hie]
  omega

theorem contiguous_append {l : List Event} {specs : List EventSpec} {n : Nat} (hn : n = l.length)
    (hl : l.map Event.sequence = (List.range l.length).map (· + 1)) :
    (l ++ eventRows env n specs).map Event.sequence =
      (List.range (l ++ eventRows env n specs).length).map (· + 1) := by
  rw [List.map_append, hl, sequence_eventRows, List.length_append, length_eventRows, List.range_add,
    List.map_append, List.map_map, hn]
  rfl

/-- An event that is not of the bootstrap gets the check of its kind. -/
theorem Accepted.eventRow (h : Accepted env codec s db) {e : Event} (he : e ∈ db.events)
    (hk : e.entityKind ≠ 1) : EventRowOk env codec db e := by
  have hrow := h.log.rows e he
  unfold LogRowOk at hrow
  split at hrow
  · rw [Event.Is] at hrow
    rw [hrow] at hk
    exact absurd rfl hk
  · obtain ⟨_, -, hrow⟩ := hrow
    rw [Event.Is] at hrow
    rw [hrow] at hk
    exact absurd rfl hk
  · exact hrow

/-- **An event is of a row**: the kinds a checked event may have. -/
theorem eventRow_entity (htab : TablesOk db) {e : Event} (h : EventRowOk env codec db e) :
    (e.entityKind = 8 ∧ ∃ c ∈ db.challenges, c.challengeId.bytes = e.entityId) ∨
    (e.entityKind = 7 ∧ ∃ x ∈ db.cleanups, x.cleanupId.bytes = e.entityId) ∨
    (e.entityKind = 6 ∧ ∃ t ∈ db.transitions, t.transitionId.bytes = e.entityId) ∨
    (e.entityKind = 4 ∧ ∃ x ∈ db.stores, x.storeId.bytes = e.entityId) ∨
    (e.entityKind = 10 ∧ ∃ g ∈ db.grants, g.grantId.bytes = e.entityId) := by
  have hcleanup : ∀ {i : CleanupId} {x : Cleanup}, i ∈ Uuid.ofBytes? e.entityId →
      x ∈ loadCredentialCleanup db i → ∃ x ∈ db.cleanups, x.cleanupId.bytes = e.entityId := by
    intro i x hi hx
    obtain ⟨hm, rfl⟩ := (loadCredentialCleanup_iff htab).mp hx
    exact ⟨x, hm, Uuid.ofBytes?_eq_some.mp hi⟩
  have htransition : TransitionEventOk env db e →
      ∃ t ∈ db.transitions, t.transitionId.bytes = e.entityId := by
    rintro ⟨i, hi, t, ht, -⟩
    obtain ⟨hm, rfl⟩ := (loadAccountTransition_iff htab).mp ht
    exact ⟨t, hm, Uuid.ofBytes?_eq_some.mp hi⟩
  unfold EventRowOk at h
  split at h
  · next hk =>
      obtain ⟨i, hi, c, hc, -⟩ := h
      obtain ⟨hm, rfl⟩ := (loadChallenge_iff htab).mp hc
      exact Or.inl ⟨hk, c, hm, Digest.ofBytes?_eq_some.mp hi⟩
  · next hk _ =>
      obtain ⟨i, hi, x, hx, -⟩ := h
      exact Or.inr (Or.inl ⟨hk, hcleanup hi hx⟩)
  · next hk _ =>
      obtain ⟨i, hi, x, hx, -⟩ := h
      exact Or.inr (Or.inl ⟨hk, hcleanup hi hx⟩)
  · next hk _ =>
      obtain ⟨i, hi, x, hx, -⟩ := h
      exact Or.inr (Or.inl ⟨hk, hcleanup hi hx⟩)
  · next hk _ => exact Or.inr (Or.inr (Or.inl ⟨hk, htransition h⟩))
  · next hk _ => exact Or.inr (Or.inr (Or.inl ⟨hk, htransition h⟩))
  · next hk _ => exact Or.inr (Or.inr (Or.inl ⟨hk, htransition h⟩))
  · next hk _ => exact Or.inr (Or.inr (Or.inl ⟨hk, htransition h⟩))
  · next hk _ => exact Or.inr (Or.inr (Or.inl ⟨hk, htransition h⟩))
  · next hk _ =>
      obtain ⟨i, hi, hx, -⟩ := h
      obtain ⟨x, hx⟩ := Option.isSome_iff_exists.mp hx
      obtain ⟨hm, rfl⟩ := (loadRegisteredStoreById_iff htab).mp hx
      exact Or.inr (Or.inr (Or.inr (Or.inl ⟨hk, x, hm, Uuid.ofBytes?_eq_some.mp hi⟩)))
  · next hk _ =>
      obtain ⟨i, hi, g, hg, -⟩ := h
      obtain ⟨hm, rfl⟩ := (loadGrantUse_iff htab).mp hg
      exact Or.inr (Or.inr (Or.inr (Or.inr ⟨hk, g, hm, Uuid.ofBytes?_eq_some.mp hi⟩)))
  · next hk _ =>
      obtain ⟨i, hi, x, hx, -⟩ := h
      obtain ⟨hm, rfl⟩ := (loadRegisteredStoreById_iff htab).mp hx
      exact Or.inr (Or.inr (Or.inr (Or.inl ⟨hk, x, hm, Uuid.ofBytes?_eq_some.mp hi⟩)))
  · cases h

section Fresh

variable (h : Accepted env codec s db)
include h

/-- Without its row, an entity has no event. -/
theorem Accepted.no_challengeEvent {id : Digest} (hid : ∀ c ∈ db.challenges, c.challengeId ≠ id) :
    ∀ e ∈ db.events, ¬(e.entityKind = 8 ∧ e.entityId = id.bytes) := by
  rintro e he ⟨hk, hi⟩
  rcases eventRow_entity h.tables (h.eventRow he (by omega)) with ⟨-, c, hc, hb⟩ | ⟨hk', -⟩ |
    ⟨hk', -⟩ | ⟨hk', -⟩ | ⟨hk', -⟩
  · exact hid c hc (Digest.eq_of_bytes (hb.trans hi))
  all_goals omega

theorem Accepted.no_cleanupEvent {id : CleanupId} (hid : ∀ x ∈ db.cleanups, x.cleanupId ≠ id) :
    ∀ e ∈ db.events, ¬(e.entityKind = 7 ∧ e.entityId = id.bytes) := by
  rintro e he ⟨hk, hi⟩
  rcases eventRow_entity h.tables (h.eventRow he (by omega)) with ⟨hk', -⟩ | ⟨-, x, hx, hb⟩ |
    ⟨hk', -⟩ | ⟨hk', -⟩ | ⟨hk', -⟩
  · omega
  · exact hid x hx (Uuid.eq_of_bytes (hb.trans hi))
  all_goals omega

theorem Accepted.no_transitionEvent {id : TransitionId}
    (hid : ∀ t ∈ db.transitions, t.transitionId ≠ id) :
    ∀ e ∈ db.events, ¬(e.entityKind = 6 ∧ e.entityId = id.bytes) := by
  rintro e he ⟨hk, hi⟩
  rcases eventRow_entity h.tables (h.eventRow he (by omega)) with ⟨hk', -⟩ | ⟨hk', -⟩ |
    ⟨-, t, ht, hb⟩ | ⟨hk', -⟩ | ⟨hk', -⟩
  · omega
  · omega
  · exact hid t ht (Uuid.eq_of_bytes (hb.trans hi))
  all_goals omega

theorem Accepted.no_storeEvent {id : StoreId} (hid : ∀ x ∈ db.stores, x.storeId ≠ id) :
    ∀ e ∈ db.events, ¬(e.entityKind = 4 ∧ e.entityId = id.bytes) := by
  rintro e he ⟨hk, hi⟩
  rcases eventRow_entity h.tables (h.eventRow he (by omega)) with ⟨hk', -⟩ | ⟨hk', -⟩ |
    ⟨hk', -⟩ | ⟨-, x, hx, hb⟩ | ⟨hk', -⟩
  · omega
  · omega
  · omega
  · exact hid x hx (Uuid.eq_of_bytes (hb.trans hi))
  · omega

theorem Accepted.no_grantEvent {id : GrantId} (hid : ∀ g ∈ db.grants, g.grantId ≠ id) :
    ∀ e ∈ db.events, ¬(e.entityKind = 10 ∧ e.entityId = id.bytes) := by
  rintro e he ⟨hk, hi⟩
  rcases eventRow_entity h.tables (h.eventRow he (by omega)) with ⟨hk', -⟩ | ⟨hk', -⟩ |
    ⟨hk', -⟩ | ⟨hk', -⟩ | ⟨-, g, hg, hb⟩
  · omega
  · omega
  · omega
  · omega
  · exact hid g hg (Uuid.eq_of_bytes (hb.trans hi))

end Fresh

/-! ## 3. Acceptance -/

/-- **The one place where acceptance is put together again.** -/
theorem Frame.accepted (f : Frame db db' new) (h : Accepted env codec s db) (hs : SchemaOk db')
    {specs : List EventSpec} (hnew : new = eventRows env db.sequenceHighWater specs)
    (hwater : db'.sequenceHighWater = db.sequenceHighWater + specs.length)
    (hchallenges : ∀ c ∈ db'.challenges, ChallengeOk env codec db' s c)
    (hnonces : db'.receipts.length = db'.nonces.length)
    (hcounts : RegistryCounts db')
    (hgrants : ∀ g ∈ db'.grants, g ∈ db.grants ∨ GrantOk env codec db' g)
    (hstores : ∀ x ∈ db'.stores, StoreOk env codec db' x)
    (hversions : ∀ v ∈ db'.storeVersions, v ∈ db.storeVersions ∨ StoreVersionOk env codec db' v)
    (htransitions : ∀ t ∈ db'.transitions, TransitionOk env codec db' t)
    (hrows : ∀ e ∈ new, EventRowOk env codec db' e)
    (hlife : ∀ c ∈ db'.challenges, LifecycleOk db' c) : Accepted env codec s db' := by
  obtain ⟨-, hstaged, htrust, hready, -, -⟩ := (accepted_iff env codec).mp h
  obtain ⟨hkeys, hepochs, -⟩ := f.trust
  refine (accepted_iff env codec).mpr ⟨hs, ?_, f.trustLoads htrust, ?_, ?_, ?_⟩
  · rw [hkeys, hepochs]
    exact hstaged
  · obtain ⟨at', -, hm⟩ := f.clock
    rw [hm]
    exact hready
  · refine ⟨hchallenges, hnonces, hcounts, fun g hg => ?_, hstores, fun v hv => ?_, htransitions⟩
    · rcases hgrants g hg with hold | hok
      · exact f.grantOk h hold htransitions
      · exact hok
    · rcases hversions v hv with hold | hok
      · exact f.storeVersionOk (h.history.storeVersions v hold)
      · exact hok
  · have hlen : db'.events.length = db.events.length + specs.length := by
      rw [f.events, List.length_append, hnew, length_eventRows]
    have hboot := h.log.bootstrapped
    refine ⟨?_, fun e he => ?_, by omega, by rw [hwater, hlen, h.log.high_water], hlife⟩
    · rw [f.events, hnew]
      exact contiguous_append h.log.high_water h.log.contiguous
    · rw [f.events] at he
      rcases List.mem_append.mp he with hold | hn
      · exact f.logRow h htransitions hold
      · -- the two events of the bootstrap come before every appended one
        have hseq : 2 < e.sequence := by
          rw [hnew] at hn
          obtain ⟨_, _, _, _, hlt⟩ := mem_eventRows hn
          rw [h.log.high_water] at hlt
          omega
        unfold LogRowOk
        split
        · omega
        · omega
        · exact hrows e hn

/-! ## 4. Effects on the registry leave the challenges alone -/

theorem Frame.challengesStay (f : Frame db db' new) (h : Accepted env codec s db)
    (hc : db'.challenges = db.challenges) (hr : db'.receipts = db.receipts)
    (hn : db'.nonces = db.nonces) : ∀ c ∈ db'.challenges, ChallengeOk env codec db' s c := by
  intro c hmem
  rw [hc] at hmem
  have hok := h.history.challenges c hmem
  exact f.challengeOk h hmem (Challenge.Continues.refl c) hok.state.1
    (f.challengeReceipt hmem (fun r hm _ => hr ▸ hm) (fun n hm _ => hn ▸ hm) hok.receipt)

theorem Frame.graph_eq (f : Frame db db' new) {c : Challenge}
    (hq : ∀ e ∈ new, ¬(e.entityKind = 8 ∧ e.entityId = c.challengeId.bytes)) :
    challengeEventGraph db' c = challengeEventGraph db c := by
  have hslot : ∀ code, challengeSlot db' c code = challengeSlot db c code := by
    intro code
    unfold challengeSlot
    rw [f.eventsOf_eq fun e he hk => hq e he ⟨hk.1, hk.2.1⟩]
  simp only [challengeEventGraph, hslot]

theorem Frame.lifecyclesStay (f : Frame db db' new) (h : Accepted env codec s db)
    (hc : db'.challenges = db.challenges) (hq : ∀ e ∈ new, e.entityKind ≠ 8) :
    ∀ c ∈ db'.challenges, LifecycleOk db' c := by
  have hgraph : ∀ c, challengeEventGraph db' c = challengeEventGraph db c :=
    fun c => f.graph_eq fun e he hk => hq e he hk.1
  intro c hmem
  rw [hc] at hmem
  have hl := h.log.lifecycles c hmem
  refine ⟨by rw [hgraph]; exact hl.1, ?_⟩
  rw [hc]
  intro p hp hprev
  rw [hgraph]
  exact hl.2 p hp hprev

/-! ## 5. Effects on challenges leave the registry alone -/

/-- The registry tables are the same. -/
structure SameRegistry (db db' : Db) : Prop where
  grants : db'.grants = db.grants
  stores : db'.stores = db.stores
  storeVersions : db'.storeVersions = db.storeVersions
  accounts : db'.accounts = db.accounts
  accountVersions : db'.accountVersions = db.accountVersions
  transitions : db'.transitions = db.transitions
  credentials : db'.credentials = db.credentials
  cleanups : db'.cleanups = db.cleanups

theorem SameRegistry.counts (hr : SameRegistry db db') (h : RegistryCounts db) :
    RegistryCounts db' := by
  obtain ⟨h1, h2, h3, h4, h5, h6⟩ := h
  have hcom : committedTransitions db' = committedTransitions db := by
    simp only [committedTransitions, hr.transitions]
  exact ⟨by rw [hr.grants, hr.stores, hr.transitions, hr.cleanups]; exact h1,
    by rw [hr.credentials, hr.transitions]; exact h2,
    by rw [hr.accounts, hr.transitions]; exact h3,
    by rw [hr.storeVersions, hr.stores, hcom]; exact h4,
    by rw [hr.accountVersions, hcom]; exact h5, by rw [hr.cleanups]; exact h6⟩

theorem Frame.storeEvents_append (f : Frame db db' new) (id : StoreId) :
    storeEvents db' id = storeEvents db id ++
      new.filter fun e => e.entityKind = 4 ∧ e.entityId = id.bytes := by
  simp only [storeEvents, f.events, List.filter_append]

theorem Frame.storeEvents_eq (f : Frame db db' new) {id : StoreId}
    (hq : ∀ e ∈ new, ¬(e.entityKind = 4 ∧ e.entityId = id.bytes)) :
    storeEvents db' id = storeEvents db id := by
  have hnil : (new.filter fun e => e.entityKind = 4 ∧ e.entityId = id.bytes) = [] :=
    List.filter_eq_nil_iff.mpr (by simpa using hq)
  rw [f.storeEvents_append, hnil, List.append_nil]

/-- **A store an effect is not about stays valid.** -/
theorem Frame.storeStays (f : Frame db db' new) (h : Accepted env codec s db) {x : Store}
    (hx : x ∈ db.stores) (hx' : x ∈ db'.stores)
    (hkeep : ∀ u ∈ db.transitions, u.storeId = x.storeId → u ∈ db'.transitions ∧
      ∀ e ∈ new, ¬(e.entityKind = 6 ∧ e.entityId = u.transitionId.bytes))
    (hq : ∀ e ∈ new, ¬(e.entityKind = 4 ∧ e.entityId = x.storeId.bytes)) :
    StoreOk env codec db' x := by
  have hok := h.history.stores x hx
  refine f.storeOk h hx (Store.Continues.refl x) hok.row.1 ⟨hok.utc.2, hok.row.2.2.1⟩ (Or.inl rfl) ?_
  rintro v - ⟨w, hw, hrest⟩
  refine ⟨w, ?_, hrest⟩
  rw [Option.mem_def] at hw ⊢
  rw [f.storeEvents_eq hq]
  refine replay_carries rfl (fun e he d t hrow => ?_) (Or.inl ⟨rfl, rfl⟩) hw
  obtain ⟨htm, hts⟩ := storeEventRow_mem h.tables hrow
  obtain ⟨hkt, hkq⟩ := hkeep t htm hts
  refine f.storeRow hkt (fun _ y hy => ?_) hkq hrow
  obtain ⟨hym, hyid⟩ := (loadRegisteredStoreById_iff f.tables).mp hy
  have hyx : y = x := eq_of_key_eq f.tables.stores.id_unique hym hx (hyid.trans hts)
  exact (loadRegisteredStoreById_iff f.tables').mpr ⟨hyx ▸ hx', hyid⟩

/-- A registry that is left alone stays valid. -/
theorem Frame.registryStays (f : Frame db db' new) (h : Accepted env codec s db)
    (hr : SameRegistry db db') (hq : ∀ e ∈ new, e.entityKind = 8) :
    (∀ x ∈ db'.stores, StoreOk env codec db' x) ∧
      ∀ t ∈ db'.transitions, TransitionOk env codec db' t := by
  have hother : ∀ k i, k ≠ 8 → ∀ e ∈ new, ¬(e.entityKind = k ∧ e.entityId = i) := by
    rintro k i hk e he ⟨he', -⟩
    exact hk (he'.symm.trans (hq e he))
  constructor
  · intro x hx
    have hx' := hx
    rw [hr.stores] at hx
    refine f.storeStays h hx hx' (fun u hu _ => ⟨hr.transitions ▸ hu, ?_⟩) ?_
    · exact hother 6 _ (by decide)
    · exact hother 4 _ (by decide)
  · intro t ht
    rw [hr.transitions] at ht
    obtain ⟨o, value, account, a, hc⟩ := h.transitionChain ht
    refine f.bystanderOk h hc ⟨hr.transitions ▸ ht, Or.inl ⟨hr.accounts ▸ hc.account_mem, ?_, ?_⟩,
      hother 6 _ (by decide), by rw [hr.storeVersions], by rw [hr.accountVersions], ?_⟩
    · simp only [successors, hr.transitions]
    · intro _ x hx _
      exact hr.stores ▸ hx
    · intro v hv
      refine f.transitionCleanups (by rw [hr.cleanups]) (fun x hx _ => hr.cleanups ▸ hx) ?_ hv
      intro e he hk
      exact absurd ((hq e he).symm.trans hk) (by decide)

end Kirje.Authority
