import Kirje.Base.Replay
import Kirje.Authority.Bystanders

/-
  File:      Kirje/Authority/Walk.lean
  Subject:   The replay of a store's events.

  The validator replays the events of a store from its enrollment: each transition
  blocks it once, at the generation the store then has, and frees or stops it.
  A store that is not stopped has never been; its generation only grows; a
  transition that is still open was the last to block it.
-/

namespace Kirje.Authority

open Base

variable {env : Platform} {codec : ManifestCodec} {s : Snapshot} {db db' : Db} {new : List Event}

/-! ## 1. Steps -/

@[simp] theorem StoreWalk.block_some {w w' : StoreWalk} {t : Transition} :
    w.block t = some w' ↔ (w.state = .active ∧ w.activeTransition = none ∧
      t.expectedGeneration = w.generation ∧ t.beforeConfigSha256 = w.configSha256) ∧
      { w with
        state := .blocked
        generation := if t.configCommittedAt.isSome then t.nextGeneration else w.generation
        configSha256 := if t.configCommittedAt.isSome then t.afterConfigSha256 else w.configSha256
        updatedAt := t.configCommittedAt.getD t.preparedAt
        activeTransition := some t.transitionId } = w' := by
  simp only [StoreWalk.block, Option.bind_eq_bind, Option.bind_eq_some_iff, guard_some,
    Option.some.injEq]
  refine ⟨fun h => ?_, fun h => ?_⟩
  · obtain ⟨-, hguard, he⟩ := h
    exact ⟨hguard, he⟩
  · obtain ⟨hguard, he⟩ := h
    exact ⟨(), hguard, he⟩

@[simp] theorem StoreWalk.release_some {w w' : StoreWalk} {t : Transition} :
    w.release t = some w' ↔ (w.state = .blocked ∧ w.activeTransition = some t.transitionId) ∧
      ∃ at', releasedAt t = some at' ∧
        { w with state := .active, updatedAt := at', activeTransition := none } = w' := by
  simp only [StoreWalk.release, Option.bind_eq_bind, Option.bind_eq_some_iff, guard_some,
    Option.some.injEq]
  refine ⟨fun h => ?_, fun h => ?_⟩
  · obtain ⟨-, hguard, he⟩ := h
    exact ⟨hguard, he⟩
  · obtain ⟨hguard, he⟩ := h
    exact ⟨(), hguard, he⟩

@[simp] theorem StoreWalk.stop_some {w w' : StoreWalk} {x : Store} {t : Transition} :
    w.stop x t = some w' ↔ (w.state = .blocked ∧ w.activeTransition = some t.transitionId ∧
        t.state = .recoveryRequired) ∧
      ∃ at', t.resolvedAt = some at' ∧
        { w with
          state := .recoveryRequired
          generation := x.configGeneration
          configSha256 := x.configSha256
          updatedAt := at' } = w' := by
  simp only [StoreWalk.stop, Option.bind_eq_bind, Option.bind_eq_some_iff, guard_some,
    Option.some.injEq]
  refine ⟨fun h => ?_, fun h => ?_⟩
  · obtain ⟨-, hguard, he⟩ := h
    exact ⟨hguard, he⟩
  · obtain ⟨hguard, he⟩ := h
    exact ⟨(), hguard, he⟩

/-- What one event of a store does to the replay. -/
inductive Walks (env : Platform) (db : Db) (x : Store) (w : StoreWalk) (e : Event) :
    StoreWalk → Prop where
  | enroll : e.eventCode = 8 → w.sawEnrollment = false → w.activeTransition = none →
      Walks env db x w e { w with sawEnrollment := true }
  | block {d t w'} : e.eventCode = 9 → w.sawEnrollment = true →
      storeEventRow env db x.storeId e = some (d, t) → d.priorState = 0x0401 →
      d.nextState = 0x0402 → w.block t = some w' → Walks env db x w e w'
  | release {d t w'} : e.eventCode = 9 → w.sawEnrollment = true →
      storeEventRow env db x.storeId e = some (d, t) → d.priorState = 0x0402 →
      d.nextState = 0x0401 → w.release t = some w' → Walks env db x w e w'
  | stop {d t w'} : e.eventCode = 9 → w.sawEnrollment = true →
      storeEventRow env db x.storeId e = some (d, t) → d.priorState = 0x0402 →
      d.nextState = 0x0404 → w.stop x t = some w' → Walks env db x w e w'

/-- **One step of the replay, inverted.** -/
theorem storeWalkStep_iff {x : Store} {w w' : StoreWalk} {e : Event} :
    storeWalkStep env db x w e = some w' ↔ Walks env db x w e w' := by
  constructor
  · intro h
    unfold storeWalkStep at h
    split at h
    · next hc =>
        simp only [Option.bind_eq_bind, Option.bind_eq_some_iff, guard_some,
          Option.some.injEq] at h
        obtain ⟨_, ⟨h1, h2⟩, rfl⟩ := h
        exact .enroll hc h1 h2
    split at h
    · next hc =>
        simp only [Option.bind_eq_bind, Option.bind_eq_some_iff, guard_some] at h
        obtain ⟨_, hsaw, ⟨d, t⟩, hrow, h⟩ := h
        split at h
        · next hd => exact .block hc hsaw hrow hd.1 hd.2 h
        split at h
        · next hd => exact .release hc hsaw hrow hd.1 hd.2 h
        split at h
        · next hd => exact .stop hc hsaw hrow hd.1 hd.2 h
        · cases h
    · cases h
  · intro h
    unfold storeWalkStep
    cases h with
    | enroll hc h1 h2 => simp [hc, h1, h2]
    | block hc hsaw hrow hp hn h => simp [hc, hsaw, hrow, hp, hn, h]
    | release hc hsaw hrow hp hn h => simp [hc, hsaw, hrow, hp, hn, h]
    | stop hc hsaw hrow hp hn h => simp [hc, hsaw, hrow, hp, hn, h]

/-- A stopped store is not left. -/
theorem Walks.stopped {x : Store} {w w' : StoreWalk} {e : Event}
    (hw : w.state = .recoveryRequired) (h : Walks env db x w e w') :
    w'.state = .recoveryRequired := by
  cases h with
  | enroll hc h1 h2 => exact hw
  | block hc hsaw hrow hp hn h => simp [hw] at h
  | release hc hsaw hrow hp hn h => simp [hw] at h
  | stop hc hsaw hrow hp hn h => simp [hw] at h

/-! ## 2. Rows -/

/-- **The row of a store event, inverted.** -/
structure StoreRow (env : Platform) (db : Db) (storeId : StoreId) (row : Event)
    (d : StoreEventDetail) (t : Transition) (receiptId : ReceiptId) (spec : EventSpec) (code : Nat)
    (follows : Bool) (beside : Event) : Prop where
  parsed : parseStoreEventDetail row storeId = some d
  load : loadAccountTransition db d.transitionId = some t
  receipt : transitionReceiptId db t = some receiptId
  columns : t.storeId = storeId ∧ d.receiptId = receiptId ∧ row.source = d.source ∧
    row.occurredAt = d.occurredAt ∧ row.detailSha256 = env.sha256 row.detail
  expected : expectedStoreEvent env db t receiptId d.priorState d.nextState =
    some (spec, code, follows)
  beside_load : loadSingleEntityEvent db 6 t.transitionId.bytes code = some beside
  content : d.source = spec.source ∧ d.context = spec.context ∧ d.occurredAt = spec.occurredAt ∧
    row.detail = spec.detail
  place : if follows then beside.sequence + 1 = row.sequence else row.sequence + 1 = beside.sequence

theorem storeEventRow_iff {storeId : StoreId} {row : Event} {d : StoreEventDetail}
    {t : Transition} : storeEventRow env db storeId row = some (d, t) ↔
      ∃ receiptId spec code follows beside,
        StoreRow env db storeId row d t receiptId spec code follows beside := by
  simp only [storeEventRow, Option.bind_eq_bind, Option.bind_eq_some_iff, guard_some,
    Option.some.injEq, Prod.mk.injEq]
  constructor
  · rintro ⟨d, hd, t, ht, r, hr, _, hcols, ⟨spec, code, follows⟩, hexp, beside, hb, _, hstated, rfl,
      rfl⟩
    exact ⟨r, spec, code, follows, beside, hd, ht, hr, hcols, hexp, hb,
      ⟨hstated.1, hstated.2.1, hstated.2.2.1, hstated.2.2.2.1⟩, hstated.2.2.2.2⟩
  · rintro ⟨r, spec, code, follows, beside, hd, ht, hr, hcols, hexp, hb, hstated, hplace⟩
    exact ⟨d, hd, t, ht, r, hr, (), hcols, ⟨spec, code, follows⟩, hexp, beside, hb, (),
      ⟨hstated.1, hstated.2.1, hstated.2.2.1, hstated.2.2.2, hplace⟩, rfl, rfl⟩

/-- A store event keeps its reading while its transition and the store it names do. -/
theorem Frame.storeRow (f : Frame db db' new) {storeId : StoreId} {row : Event}
    {d : StoreEventDetail} {t : Transition} (hkeep : t ∈ db'.transitions)
    (hstore : t.state = .recoveryRequired → ∀ x, loadRegisteredStoreById db t.storeId = some x →
      loadRegisteredStoreById db' t.storeId = some x)
    (hq : ∀ e ∈ new, ¬(e.entityKind = 6 ∧ e.entityId = t.transitionId.bytes))
    (h : storeEventRow env db storeId row = some (d, t)) :
    storeEventRow env db' storeId row = some (d, t) := by
  obtain ⟨r, spec, code, follows, beside, hr⟩ := storeEventRow_iff.mp h
  have htm := (loadAccountTransition_iff f.tables).mp hr.load
  refine storeEventRow_iff.mpr ⟨r, spec, code, follows, beside, hr.parsed, ?_, f.receiptId hr.receipt,
    hr.columns, ?_, ?_, hr.content, hr.place⟩
  · exact (loadAccountTransition_iff f.tables').mpr ⟨hkeep, htm.2⟩
  · have hexp := hr.expected
    unfold expectedStoreEvent at hexp ⊢
    split_ifs at hexp ⊢ with h1 h2 h3 h4
    · exact hexp
    · exact hexp
    · exact hexp
    · simp only [Option.bind_eq_bind, Option.bind_eq_some_iff] at hexp ⊢
      obtain ⟨x, hx, hrest⟩ := hexp
      exact ⟨x, hstore h4.2.2 x hx, hrest⟩
  · rw [f.singleEvent]
    · exact hr.beside_load
    · rintro e he ⟨hk, hi, -⟩
      exact hq e he ⟨hk, hi⟩

/-- **The replay of a list of events carries over** to a database where they read the same, and to
    a row of the store with the same pair unless the replay ends stopped. -/
theorem replay_carries {x x' : Store} (hid : x'.storeId = x.storeId) {l : List Event}
    {w w' : StoreWalk}
    (hrow : ∀ e ∈ l, ∀ d t, storeEventRow env db x.storeId e = some (d, t) →
      storeEventRow env db' x.storeId e = some (d, t))
    (hpair : (x'.configGeneration = x.configGeneration ∧ x'.configSha256 = x.configSha256) ∨
      w'.state ≠ .recoveryRequired)
    (h : l.foldlM (storeWalkStep env db x) w = some w') :
    l.foldlM (storeWalkStep env db' x') w = some w' := by
  refine @replay_congr _ _ (storeWalkStep env db x) (storeWalkStep env db' x')
    (fun w => w.state = .recoveryRequired ∧
      ¬(x'.configGeneration = x.configGeneration ∧ x'.configSha256 = x.configSha256))
    ?_ l ?_ w w' h ?_
  · rintro w e w' ⟨hw, hne⟩ hs
    exact ⟨(storeWalkStep_iff.mp hs).stopped hw, hne⟩
  · intro e he w w' hs hgood
    rw [storeWalkStep_iff] at hs ⊢
    cases hs with
    | enroll hc h1 h2 => exact .enroll hc h1 h2
    | block hc hsaw hr hp hn hb => exact .block hc hsaw (hid ▸ hrow e he _ _ hr) hp hn hb
    | release hc hsaw hr hp hn hb => exact .release hc hsaw (hid ▸ hrow e he _ _ hr) hp hn hb
    | stop hc hsaw hr hp hn hb =>
        refine .stop hc hsaw (hid ▸ hrow e he _ _ hr) hp hn ?_
        -- a stop reads the pair of the store, which is then the same
        obtain ⟨hg, at', hat, rfl⟩ := StoreWalk.stop_some.mp hb
        have hsame : x'.configGeneration = x.configGeneration ∧ x'.configSha256 = x.configSha256 := by
          by_contra hne
          exact hgood ⟨rfl, hne⟩
        refine StoreWalk.stop_some.mpr ⟨hg, at', hat, ?_⟩
        rw [hsame.1, hsame.2]
  · rintro ⟨hst, hne⟩
    rcases hpair with hp | hp
    · exact hne hp
    · exact hp hst

/-! ## 3. Reading an event back -/

/-- **A store event reads back as it was written.** -/
theorem parse_storeEvent {storeId : StoreId} {source : Nat} {transitionId : TransitionId}
    {prior next : Nat} {context : Digest} {receiptId : ReceiptId} {at' : Int} {e : Event}
    (hs : source < 256) (hp : prior < 65536) (hn : next < 65536) (hat : Representable at')
    (he : e.Is env (storeEvent storeId source transitionId prior next context receiptId at')) :
    parseStoreEventDetail e storeId =
      some ⟨source, transitionId, prior, next, context, receiptId, at'⟩ := by
  rw [Event.Is] at he
  have hread : readTranscript eventDetailDomain 11 e.detail =
      some (storeEvent storeId source transitionId prior next context receiptId at').fields := by
    rw [he]
    refine readTranscript_encode (by simp [EventSpec.fields]) ?_
    intro f hf
    simp only [EventSpec.fields, storeEvent, List.mem_cons, List.not_mem_nil, or_false] at hf
    rcases hf with rfl | rfl | rfl | rfl | rfl | rfl | rfl | rfl | rfl | rfl | rfl <;>
      simp [Uuid.optBytes, transitionId.length_eq, storeId.length_eq, context.length_eq,
        receiptId.length_eq]
  have hcols : e.entityKind = 4 ∧ e.eventCode = 9 ∧ e.entityId = storeId.bytes := by
    rw [he]
    exact ⟨rfl, rfl, rfl⟩
  have hbe : ∀ n v, v < 256 ^ n → exactNat n (be n v) = some v := by
    intro n v hv
    rw [exactNat, if_pos (length_be n v), ofBe_be hv]
  have hi64 : exactI64 (beI64 at') = some at' := by
    rw [exactI64, if_pos (length_beI64 at'), ofBeI64_beI64]
    · exact le_trans (by decide) hat.1
    · exact lt_of_le_of_lt hat.2 (by decide)
  simp only [parseStoreEventDetail, hread, hcols, storeEventFields, EventSpec.fields, storeEvent,
    Option.bind_eq_bind, Option.bind_some, hbe 2 9 (by decide), hbe 2 4 (by decide),
    hbe 2 6 (by decide), hbe 1 source hs, hbe 2 prior hp, hbe 2 next hn, Uuid.optBytes,
    Option.map_some, Option.getD_some, Uuid.ofBytes?_bytes, Digest.ofBytes?_bytes, hi64]
  rfl

/-- **An event that says what it must, beside the event it must stand beside, is a row of the
    replay.** -/
theorem storeEventRow_of {t : Transition} {receiptId : ReceiptId} {e beside : Event}
    {source prior next code : Nat} {context : Digest} {at' : Int} (follows : Bool)
    (htab : TablesOk db) (ht : t ∈ db.transitions)
    (hr : transitionReceiptId db t = some receiptId)
    (hexp : expectedStoreEvent env db t receiptId prior next = some
      (storeEvent t.storeId source t.transitionId prior next context receiptId at', code, follows))
    (hs : source < 256) (hp : prior < 65536) (hn : next < 65536) (hat : Representable at')
    (he : e.Is env (storeEvent t.storeId source t.transitionId prior next context receiptId at'))
    (hb : loadSingleEntityEvent db 6 t.transitionId.bytes code = some beside)
    (hplace : if follows then beside.sequence + 1 = e.sequence
      else e.sequence + 1 = beside.sequence) :
    storeEventRow env db t.storeId e =
      some (⟨source, t.transitionId, prior, next, context, receiptId, at'⟩, t) := by
  refine storeEventRow_iff.mpr ⟨receiptId, _, code, follows, beside, parse_storeEvent hs hp hn hat he,
    (loadAccountTransition_iff htab).mpr ⟨ht, rfl⟩, hr, ?_, hexp, hb, ?_, hplace⟩
  · rw [Event.Is] at he
    rw [he]
    exact ⟨rfl, rfl, rfl, rfl, rfl⟩
  · rw [Event.Is] at he
    rw [he]
    exact ⟨rfl, rfl, rfl, rfl⟩

/-! ## 4. The event that blocks -/

/-- **The event with which a transition blocked its store.** -/
structure Blocks (env : Platform) (db : Db) (t : Transition) (receiptId : ReceiptId)
    (e prepared : Event) : Prop where
  mem : e ∈ storeEvents db t.storeId
  is : e.Is env (prepareStoreEvent t receiptId)
  load : loadSingleEntityEvent db 6 t.transitionId.bytes 10 = some prepared
  next : e.sequence + 1 = prepared.sequence

theorem mem_storeEvents {id : StoreId} {e : Event} :
    e ∈ storeEvents db id ↔ e ∈ db.events ∧ e.entityKind = 4 ∧ e.entityId = id.bytes := by
  simp [storeEvents]

theorem TransitionChain.blocks (h : Accepted env codec s db) {t : Transition} {o : Origin}
    {value : AccountMutationManifest} {account : AccountSnapshot} {a : Account}
    (hc : TransitionChain env codec db t o value account a) :
    ∃ e prepared, Blocks env db t o.receipt.receiptId e prepared := by
  obtain ⟨_, _, _, _, prepared, hp, e, he, hprep, -⟩ := hc.checks.events
  have hem := (loadEventBySequence_iff h.tables).mp he
  have his := hprep.store_is
  refine ⟨e, prepared, mem_storeEvents.mpr ⟨hem.1, ?_⟩, his, hp, hprep.store_next⟩
  rw [Event.Is] at his
  rw [his]
  exact ⟨rfl, rfl⟩

theorem Blocks.row (htab : TablesOk db) {t : Transition} {receiptId : ReceiptId}
    {e prepared : Event} (hb : Blocks env db t receiptId e prepared) (ht : t ∈ db.transitions)
    (hr : transitionReceiptId db t = some receiptId) (hat : Representable t.preparedAt) :
    storeEventRow env db t.storeId e = some (⟨4, t.transitionId, 0x0401, 0x0402, t.transitionSha256,
      receiptId, t.preparedAt⟩, t) :=
  storeEventRow_of false htab ht hr (by simp [expectedStoreEvent, prepareStoreEvent])
    (by decide) (by decide) (by decide) hat hb.is hb.load (by simpa using hb.next)

theorem Blocks.code {t : Transition} {receiptId : ReceiptId} {e prepared : Event}
    (hb : Blocks env db t receiptId e prepared) : e.eventCode = 9 := by
  have his := hb.is
  rw [Event.Is] at his
  rw [his]
  rfl

/-- A transition blocks its store once. -/
theorem Blocks.unique (htab : TablesOk db) {t : Transition} {receiptId : ReceiptId}
    {e prepared : Event} (hb : Blocks env db t receiptId e prepared) {e' : Event}
    (hmem : e' ∈ db.events) {storeId : StoreId} {d : StoreEventDetail}
    (hrow : storeEventRow env db storeId e' = some (d, t)) (hp : d.priorState = 0x0401)
    (hn : d.nextState = 0x0402) : e' = e := by
  obtain ⟨_, _, _, _, beside, hr⟩ := storeEventRow_iff.mp hrow
  have hexp := hr.expected
  rw [hp, hn] at hexp
  simp only [expectedStoreEvent, and_self, if_true, Option.some.injEq, Prod.mk.injEq] at hexp
  obtain ⟨-, rfl, rfl⟩ := hexp
  have hbeside : beside = prepared := Option.some.inj (hr.beside_load.symm.trans hb.load)
  have hplace := hr.place
  simp only [Bool.false_eq_true, if_false] at hplace
  have hseq : e'.sequence = e.sequence := by
    have := hb.next
    rw [hbeside] at hplace
    omega
  exact eq_of_key_eq htab.events.sequence_unique hmem (mem_storeEvents.mp hb.mem).1 hseq

/-- An open transition has no other event of its store. -/
theorem storeEventRow_open {t : Transition} {storeId : StoreId} {e : Event} {d : StoreEventDetail}
    (hopen : t.state = .prepared ∨ t.state = .configCommitted)
    (hrow : storeEventRow env db storeId e = some (d, t)) :
    d.priorState = 0x0401 ∧ d.nextState = 0x0402 := by
  obtain ⟨_, _, _, _, _, hr⟩ := storeEventRow_iff.mp hrow
  have hexp := hr.expected
  unfold expectedStoreEvent at hexp
  split_ifs at hexp with h1 h2 h3 h4
  · exact h1
  · rcases hopen with ho | ho <;> simp [ho] at h2
  · rcases hopen with ho | ho <;> simp [ho] at h3
  · rcases hopen with ho | ho <;> simp [ho] at h4

/-- The step of a blocking event. -/
theorem Walks.block_of {x : Store} {w w' : StoreWalk} {e : Event} {d : StoreEventDetail}
    {t : Transition} (hw : Walks env db x w e w') (hcode : e.eventCode = 9)
    (hrow : storeEventRow env db x.storeId e = some (d, t)) (hp : d.priorState = 0x0401) :
    w.sawEnrollment = true ∧ w.block t = some w' := by
  have hdt : ∀ {d' t'}, storeEventRow env db x.storeId e = some (d', t') → d' = d ∧ t' = t := by
    intro d' t' hrow'
    have := hrow'.symm.trans hrow
    simpa using this
  cases hw with
  | enroll hc _ _ => omega
  | block _ hsaw hr _ _ hb => exact ⟨hsaw, (hdt hr).2 ▸ hb⟩
  | release _ _ hr hp' _ _ =>
      rw [(hdt hr).1, hp] at hp'
      cases hp'
  | stop _ _ hr hp' _ _ =>
      rw [(hdt hr).1, hp] at hp'
      cases hp'

/-! ## 5. The walk of an accepted store -/

/-- What the replay of an accepted store found. -/
structure Replayed (env : Platform) (db : Db) (x : Store) (v : StoreVersion) (w : StoreWalk) :
    Prop where
  version : loadStoreVersionByReceipt db x.enrolledReceiptId = some v
  fold : (storeEvents db x.storeId).foldlM (storeWalkStep env db x) (storeWalkStart x v) = some w
  saw : w.sawEnrollment = true
  state : w.state = x.state
  pair : w.generation = x.configGeneration ∧ w.configSha256 = x.configSha256
  updated_at : w.updatedAt = x.updatedAt

theorem Accepted.replayed (h : Accepted env codec s db) {x : Store} (hx : x ∈ db.stores) :
    ∃ v w, Replayed env db x v w := by
  obtain ⟨r, hr, -, v, hv, -, w, hw, hsaw, hst, hgen, hsha, hupd⟩ := (h.history.stores x hx).chain
  have hid := ((loadReceiptById_iff h.tables).mp hr).2
  exact ⟨v, w, hid ▸ hv, hw, hsaw, hst, ⟨hgen, hsha⟩, hupd⟩

/-- A replay is idle exactly while no transition blocks the store. -/
def StoreWalk.Idle (w : StoreWalk) : Prop := w.state = .active ↔ w.activeTransition = none

theorem Walks.idle {x : Store} {w w' : StoreWalk} {e : Event} (hw : w.Idle)
    (h : Walks env db x w e w') : w'.Idle := by
  unfold StoreWalk.Idle at hw ⊢
  cases h with
  | enroll _ _ _ => exact hw
  | block _ _ _ _ _ hb =>
      obtain ⟨-, rfl⟩ := StoreWalk.block_some.mp hb
      simp
  | release _ _ _ _ _ hb =>
      obtain ⟨-, _, -, rfl⟩ := StoreWalk.release_some.mp hb
      simp
  | stop _ _ _ _ _ hb =>
      obtain ⟨⟨_, ha, -⟩, _, -, rfl⟩ := StoreWalk.stop_some.mp hb
      simp [ha]

theorem storeEventRow_mem (htab : TablesOk db) {storeId : StoreId} {e : Event}
    {d : StoreEventDetail} {t : Transition} (hrow : storeEventRow env db storeId e = some (d, t)) :
    t ∈ db.transitions ∧ t.storeId = storeId := by
  obtain ⟨_, _, _, _, _, hr⟩ := storeEventRow_iff.mp hrow
  exact ⟨((loadAccountTransition_iff htab).mp hr.load).1, hr.columns.1⟩

/-- The generation of a replay only grows, unless the store is stopped. -/
theorem Walks.generation_le (htab : TablesOk db) {x : Store} {w w' : StoreWalk} {e : Event}
    (h : Walks env db x w e w') :
    w.generation.val ≤ w'.generation.val ∨ w'.state = .recoveryRequired := by
  cases h with
  | enroll _ _ _ => exact Or.inl le_rfl
  | @block d t _ _ _ hr _ _ hb =>
      obtain ⟨⟨-, -, hgen, -⟩, rfl⟩ := StoreWalk.block_some.mp hb
      have hinc := (htab.transitions.checks t (storeEventRow_mem htab hr).1).2.1
      simp only [NonZeroU64.exactIncrement, beq_iff_eq] at hinc
      refine Or.inl ?_
      show w.generation.val ≤ NonZeroU64.val (if _ then _ else _)
      split
      · rw [← hgen]
        omega
      · exact le_rfl
  | release _ _ _ _ _ hb =>
      obtain ⟨-, _, -, rfl⟩ := StoreWalk.release_some.mp hb
      exact Or.inl le_rfl
  | stop _ _ _ _ _ hb =>
      obtain ⟨-, _, -, rfl⟩ := StoreWalk.stop_some.mp hb
      exact Or.inr rfl

theorem replay_generation_le (htab : TablesOk db) {x : Store} {l : List Event} {w w' : StoreWalk}
    (h : l.foldlM (storeWalkStep env db x) w = some w') :
    w.generation.val ≤ w'.generation.val ∨ w'.state = .recoveryRequired := by
  refine replay_invariant (P := fun y => w.generation.val ≤ y.generation.val ∨
    y.state = .recoveryRequired) ?_ (Or.inl le_rfl) h
  intro y e y' hy hs
  have hw := storeWalkStep_iff.mp hs
  rcases hy with hy | hy
  · exact (hw.generation_le htab).imp_left fun hle => hy.trans hle
  · exact Or.inr (hw.stopped hy)

/-- A stopped transition has stopped its store. -/
theorem TransitionChain.stopped_store {t : Transition} {o : Origin}
    {value : AccountMutationManifest} {account : AccountSnapshot} {a : Account}
    (hc : TransitionChain env codec db t o value account a) (hst : t.state = .recoveryRequired) :
    ∃ x, loadRegisteredStoreById db t.storeId = some x ∧ x.state = .recoveryRequired ∧
      a.state = .blocked ∧ a.activeTransitionId = some t.transitionId := by
  obtain ⟨y, hy⟩ := isOk_iff.mp hc.checks.projection
  simp only [transitionProjection, hst, bind_ok, orRefuse_ok, ensure_ok] at hy
  obtain ⟨a', ha', _, -, _, -, x, hx, hy⟩ := hy
  simp only [recoveryProjection, bind_ok, ensure_ok] at hy
  obtain ⟨_, ⟨hs, hact, hxs⟩, -⟩ := hy
  have hsucc : successors db t = [] := by
    by_contra hne
    have := hc.checks.account.settled hne
    rw [hst] at this
    simp at this
  obtain ⟨_, -, _, -, -, hcols⟩ := hc.checks.account.current hsucc
  simp only [currentColumns, hst, Option.map_eq_some_iff, Prod.mk.injEq] at hcols
  obtain ⟨_, -, hcs, hca, -⟩ := hcols
  exact ⟨x, hx, hxs, hcs.symm, hca.symm⟩

/-- **An open transition holds its account and its store**, with the pair of its phase. -/
structure Holds (db : Db) (t : Transition) (a : Account) (x : Store) : Prop where
  account : a.state = openAccountState t.kind ∧ a.activeTransitionId = some t.transitionId
  store : x ∈ db.stores ∧ x.storeId = t.storeId ∧ x.state = .blocked
  pair : (t.state = .prepared ∧ x.configGeneration = t.expectedGeneration ∧
      x.configSha256 = t.beforeConfigSha256) ∨
    (t.state = .configCommitted ∧ x.configGeneration = t.nextGeneration ∧
      x.configSha256 = t.afterConfigSha256)

/-- Open: prepared or committed. -/
def Transition.Open (t : Transition) : Prop := t.state = .prepared ∨ t.state = .configCommitted

theorem Transition.Open.not_settled {t : Transition} (h : t.Open) : ¬t.Settled := by
  rcases h with h | h <;> simp [Transition.Settled, h]

theorem TransitionChain.holds (htab : TablesOk db) {t : Transition} {o : Origin}
    {value : AccountMutationManifest} {account : AccountSnapshot} {a : Account}
    (hc : TransitionChain env codec db t o value account a) (hopen : t.Open) :
    ∃ x, Holds db t a x := by
  have hload : loadRegisteredAccount db t.accountId = some a :=
    (loadRegisteredAccount_iff htab).mpr ⟨hc.account_mem, hc.account_id⟩
  obtain ⟨y, hy⟩ := isOk_iff.mp hc.checks.projection
  rcases hopen with hst | hst
  · simp only [transitionProjection, hload, hst, bind_ok, orRefuse_ok, ensure_ok,
      Option.some.injEq] at hy
    obtain ⟨_, rfl, _, -, _, -, x, hx, hy⟩ := hy
    simp only [openProjection, bind_ok, ensure_ok] at hy
    obtain ⟨_, ⟨hs, hact, -, hxs, hg, hsha⟩, -⟩ := hy
    obtain ⟨hxm, hxid⟩ := (loadRegisteredStoreById_iff htab).mp hx
    exact ⟨x, ⟨hs, hact⟩, ⟨hxm, hxid, hxs⟩, Or.inl ⟨hst, hg, hsha⟩⟩
  · simp only [transitionProjection, hload, hst, bind_ok, orRefuse_ok, ensure_ok,
      Option.some.injEq] at hy
    obtain ⟨_, rfl, _, -, _, -, x, hx, hy⟩ := hy
    simp only [openProjection, bind_ok, ensure_ok] at hy
    obtain ⟨_, ⟨hs, hact, -, hxs, hg, hsha⟩, -⟩ := hy
    obtain ⟨hxm, hxid⟩ := (loadRegisteredStoreById_iff htab).mp hx
    exact ⟨x, ⟨hs, hact⟩, ⟨hxm, hxid, hxs⟩, Or.inr ⟨hst, hg, hsha⟩⟩

/-! ## 6. What the replay says of the transitions -/

/-- The receipt and the time of an accepted transition, and its blocking event as a row. -/
theorem Accepted.blockRow (h : Accepted env codec s db) {t : Transition} (ht : t ∈ db.transitions) :
    ∃ e prepared receiptId d, Blocks env db t receiptId e prepared ∧
      transitionReceiptId db t = some receiptId ∧
      storeEventRow env db t.storeId e = some (d, t) ∧ d.priorState = 0x0401 ∧
      d.nextState = 0x0402 := by
  obtain ⟨o, value, account, a, hc⟩ := h.transitionChain ht
  obtain ⟨e, prepared, hb⟩ := hc.blocks h
  have hr := receiptId_of_origin h.tables hc.load
  exact ⟨e, prepared, _, _, hb, hr, hb.row h.tables ht hr hc.checks.row.prepared_utc, rfl, rfl⟩

/-- The replay up to the event with which a transition blocked the store, and from there. -/
theorem Accepted.replay_at (h : Accepted env codec s db) {x : Store} {v : StoreVersion}
    {w : StoreWalk} (hr : Replayed env db x v w) {t : Transition} (ht : t ∈ db.transitions)
    (hid : t.storeId = x.storeId) : ∃ e prepared receiptId pre post m m',
      Blocks env db t receiptId e prepared ∧ transitionReceiptId db t = some receiptId ∧
      storeEvents db x.storeId = pre ++ e :: post ∧
      pre.foldlM (storeWalkStep env db x) (storeWalkStart x v) = some m ∧
      m.sawEnrollment = true ∧ m.block t = some m' ∧
      post.foldlM (storeWalkStep env db x) m' = some w := by
  obtain ⟨e, prepared, receiptId, d, hb, hri, hrow, hp, -⟩ := h.blockRow ht
  have hmem : e ∈ storeEvents db x.storeId := hid ▸ hb.mem
  obtain ⟨pre, post, m, m', heq, hpre, hstep, hpost⟩ := replay_split hmem hr.fold
  rw [hid] at hrow
  obtain ⟨hsaw, hblock⟩ := (storeWalkStep_iff.mp hstep).block_of hb.code hrow hp
  exact ⟨e, prepared, receiptId, pre, post, m, m', hb, hri, heq, hpre, hsaw, hblock, hpost⟩

/-- **A transition started at a generation the store has reached, and ended at one if it
    committed**, unless the store is stopped. -/
theorem Accepted.generation_le (h : Accepted env codec s db) {x : Store} (hx : x ∈ db.stores)
    (hst : x.state ≠ .recoveryRequired) {t : Transition} (ht : t ∈ db.transitions)
    (hid : t.storeId = x.storeId) :
    t.expectedGeneration.val ≤ x.configGeneration.val ∧
      (t.configCommittedAt.isSome → t.nextGeneration.val ≤ x.configGeneration.val) := by
  obtain ⟨v, w, hr⟩ := h.replayed hx
  obtain ⟨_, _, _, _, _, m, m', _, _, _, _, _, hblock, hpost⟩ := h.replay_at hr ht hid
  obtain ⟨⟨-, -, hgen, -⟩, rfl⟩ := StoreWalk.block_some.mp hblock
  have hinc := (h.tables.transitions.checks t ht).2.1
  simp only [NonZeroU64.exactIncrement, beq_iff_eq] at hinc
  rcases replay_generation_le h.tables hpost with hle | hbad
  · rw [hr.pair.1] at hle
    by_cases hcom : t.configCommittedAt.isSome
    · simp only [hcom, if_true] at hle
      exact ⟨by omega, fun _ => hle⟩
    · simp only [hcom, Bool.false_eq_true, if_false] at hle
      rw [hgen]
      exact ⟨hle, fun hc => absurd hc (by simp [hcom])⟩
  · rw [hr.state] at hbad
    exact absurd hbad hst

/-- **An open transition was the last to block its store.** -/
structure LastBlock (env : Platform) (db : Db) (x : Store) (t : Transition) (v : StoreVersion)
    (m : StoreWalk) (receiptId : ReceiptId) (pre : List Event) (e prepared : Event) : Prop where
  version : loadStoreVersionByReceipt db x.enrolledReceiptId = some v
  blocks : Blocks env db t receiptId e prepared
  receipt : transitionReceiptId db t = some receiptId
  events : storeEvents db x.storeId = pre ++ [e]
  fold : pre.foldlM (storeWalkStep env db x) (storeWalkStart x v) = some m
  saw : m.sawEnrollment = true
  free : m.state = .active ∧ m.activeTransition = none
  pair : t.expectedGeneration = m.generation ∧ t.beforeConfigSha256 = m.configSha256
  others : ∀ e' ∈ pre, ∀ d u, storeEventRow env db x.storeId e' = some (d, u) → u ≠ t

theorem Accepted.lastBlock (h : Accepted env codec s db) {x : Store} (hx : x ∈ db.stores)
    {t : Transition} (ht : t ∈ db.transitions) (hid : t.storeId = x.storeId) (hopen : t.Open) :
    ∃ v m receiptId pre e prepared, LastBlock env db x t v m receiptId pre e prepared := by
  obtain ⟨v, w, hr⟩ := h.replayed hx
  obtain ⟨e, prepared, receiptId, pre, post, m, m', hb, hri, heq, hpre, hsaw, hblock, hpost⟩ :=
    h.replay_at hr ht hid
  obtain ⟨⟨hact, hnone, hgen, hsha⟩, hm'⟩ := StoreWalk.block_some.mp hblock
  have hactive : m'.activeTransition = some t.transitionId := by rw [← hm']
  have hstate : m'.state = .blocked := by rw [← hm']
  have hsaw' : m'.sawEnrollment = true := by rw [← hm']; exact hsaw
  -- the next event would have to free or stop the store for this transition
  have hend : post = [] := by
    cases post with
    | nil => rfl
    | cons e' post =>
        obtain ⟨m'', hstep, -⟩ := replay_cons.mp hpost
        cases storeWalkStep_iff.mp hstep with
        | enroll _ h1 _ => simp [hsaw'] at h1
        | block _ _ _ _ _ hb' => simp [hstate] at hb'
        | @release d u _ _ _ hrow hp hn hb' =>
            obtain ⟨⟨-, hact'⟩, at', hrel, -⟩ := StoreWalk.release_some.mp hb'
            rw [hactive] at hact'
            have hut : u = t := eq_of_key_eq h.tables.transitions.id_unique
              (storeEventRow_mem h.tables hrow).1 ht (Option.some.inj hact').symm
            subst hut
            rcases hopen with ho | ho <;> simp [releasedAt, ho] at hrel
        | @stop d u _ _ _ hrow hp hn hb' =>
            obtain ⟨⟨-, hact', hst⟩, -⟩ := StoreWalk.stop_some.mp hb'
            rw [hactive] at hact'
            have hut : u = t := eq_of_key_eq h.tables.transitions.id_unique
              (storeEventRow_mem h.tables hrow).1 ht (Option.some.inj hact').symm
            subst hut
            rcases hopen with ho | ho <;> simp [ho] at hst
  subst hend
  refine ⟨v, m, receiptId, pre, e, prepared, hr.version, hb, hri, heq, hpre, hsaw, ⟨hact, hnone⟩,
    ⟨hgen, hsha⟩, ?_⟩
  rintro e' he' d u hrow rfl
  have hmem' : e' ∈ storeEvents db x.storeId := heq ▸ List.mem_append_left _ he'
  obtain ⟨hp, hn⟩ := storeEventRow_open hopen hrow
  have hee := hb.unique h.tables (mem_storeEvents.mp hmem').1 hrow hp hn
  have hnd : (storeEvents db x.storeId).Nodup :=
    (List.Nodup.of_map _ h.tables.events.sequence_unique).filter _
  rw [heq, List.nodup_append] at hnd
  exact hnd.2.2 e' he' e (by simp) hee

/-- **A store has one open transition at a time.** -/
theorem Accepted.open_unique (h : Accepted env codec s db) {t u : Transition}
    (ht : t ∈ db.transitions) (hu : u ∈ db.transitions) (hid : t.storeId = u.storeId)
    (hto : t.Open) (huo : u.Open) : t = u := by
  obtain ⟨x, hx, hxid⟩ := h.schema.foreignKeys.account.transition_store t ht
  obtain ⟨v, m, r, pre, e, p, hl⟩ := h.lastBlock hx ht hxid.symm hto
  obtain ⟨v', m', r', pre', e', p', hl'⟩ := h.lastBlock hx hu (hid.symm.trans hxid.symm) huo
  have hee : e = e' := by
    have := hl.events.symm.trans hl'.events
    exact List.singleton_inj.mp (List.append_inj' this rfl).2
  obtain ⟨_, _, _, _, ht'⟩ := h.transitionChain ht
  obtain ⟨_, _, _, _, hu'⟩ := h.transitionChain hu
  have hrow := hl.blocks.row h.tables ht hl.receipt ht'.checks.row.prepared_utc
  have hrow' := hl'.blocks.row h.tables hu hl'.receipt hu'.checks.row.prepared_utc
  rw [hid, hee, hrow'] at hrow
  simp only [Option.some.injEq, Prod.mk.injEq] at hrow
  exact hrow.2.symm

/-- **An open transition speaks alone for its account**: every other one has a successor. -/
theorem Accepted.open_speaks (h : Accepted env codec s db) {t u : Transition}
    (ht : t ∈ db.transitions) (hu : u ∈ db.transitions) (hacc : u.accountId = t.accountId)
    (hne : u ≠ t) (hopen : t.Open) : u.Settled ∧ successors db u ≠ [] := by
  obtain ⟨o, v, x, a, hc⟩ := h.transitionChain ht
  obtain ⟨o', v', x', b, hc'⟩ := h.transitionChain hu
  obtain rfl : b = a := hc'.account_eq h.tables hc hacc
  obtain ⟨y, hh⟩ := hc.holds h.tables hopen
  have hsucc : successors db u ≠ [] := by
    intro hn
    obtain ⟨_, -, _, -, -, hcols⟩ := hc'.checks.account.current hn
    rw [hh.account.2] at hcols
    -- a settled transition leaves no active one, an open one leaves itself
    have hid : u.transitionId ≠ t.transitionId := fun he =>
      hne (eq_of_key_eq h.tables.transitions.id_unique hu ht he)
    unfold currentColumns at hcols
    split at hcols <;> simp_all
  exact ⟨hc'.checks.account.settled hsucc, hsucc⟩

/-- A store that is not stopped has no stopped transition. -/
theorem Accepted.not_stopped (h : Accepted env codec s db) {x : Store} (hx : x ∈ db.stores)
    (hst : x.state ≠ .recoveryRequired) {t : Transition} (ht : t ∈ db.transitions)
    (hid : t.storeId = x.storeId) : t.state ≠ .recoveryRequired := by
  intro hs
  obtain ⟨_, _, _, _, hc⟩ := h.transitionChain ht
  obtain ⟨y, hy, hys, -⟩ := hc.stopped_store hs
  obtain ⟨hym, hyid⟩ := (loadRegisteredStoreById_iff h.tables).mp hy
  have hyx : y = x := eq_of_key_eq h.tables.stores.id_unique hym hx (hyid.trans hid)
  exact hst (hyx ▸ hys)

end Kirje.Authority
