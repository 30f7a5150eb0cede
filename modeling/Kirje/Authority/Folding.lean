import Kirje.Authority.Clock
import Kirje.Authority.Settling
import Kirje.Base.Codes

/-
  File:      Kirje/Authority/Folding.lean
  Subject:   The event log determines the state.

  The detail of an event names the state its entity leaves and the one it enters.
  Read as a change of that entity and replayed from the first, the log of a run ends
  in the states the tables hold (`Recorded` says what one change of the database adds
  to the log).  The codes are those of contracts/authority-store.md.

  * `Recorded.fold`: a recorded change keeps the replay in step with the tables.
  * `log_determines_state`: so does every run.
-/

namespace Kirje.Authority

open Base

variable {env : Platform} {codec : ManifestCodec} {s : Snapshot} {db db' : Db}

/-! ## 1. State codes -/

def BootstrapState.eventState : BootstrapState → Nat
  | pendingAnchor => 0x0101
  | ready => 0x0102

def StoreState.eventState : StoreState → Nat
  | active => 0x0401
  | blocked => 0x0402
  | removed => 0x0403
  | recoveryRequired => 0x0404

def ChallengeState.eventState : ChallengeState → Nat
  | pending => 0x0801
  | authorized => 0x0802
  | expired => 0x0803
  | invalidated => 0x0804

def cleanupEventState : CleanupState → Nat
  | .provisional => 0x0701
  | .ready => 0x0702
  | .claimed => 0x0703
  | .deleted => 0x0704

/-- The kind and the identifier of what an event is about. -/
abbrev Entity := Nat × Bytes

/-- The code of an entity that no event names: a cleanup is provisional and a grant unclaimed
    without one. -/
def unrecorded : Entity → Nat
  | (7, _) => 0x0701
  | (10, _) => 0x0901
  | _ => 0

/-- The code of a grant: used where it has a row. -/
def grantCode (grants : List GrantUse) : Bytes → Nat :=
  codeIn (fun g => g.grantId.bytes) (fun _ => 0x0902) 0x0901 grants

def storeCode (stores : List Store) : Bytes → Nat :=
  codeIn (fun x => x.storeId.bytes) (fun x => x.state.eventState) 0 stores

def transitionCode (transitions : List Transition) : Bytes → Nat :=
  codeIn (fun t => t.transitionId.bytes) (fun t => t.state.eventState) 0 transitions

def cleanupCode (cleanups : List Cleanup) : Bytes → Nat :=
  codeIn (fun x => x.cleanupId.bytes) (fun x => cleanupEventState x.state) 0x0701 cleanups

def challengeCode (challenges : List Challenge) : Bytes → Nat :=
  codeIn (fun c => c.challengeId.bytes) (fun c => c.state.eventState) 0 challenges

def realmCode (m : Meta) (id : Bytes) : Nat :=
  if id = m.realmId.bytes then m.bootstrapState.eventState else 0

/-- **The stored state of every entity.** -/
def Db.codes (db : Db) : Entity → Nat
  | (1, id) => realmCode db.metaRow id
  | (4, id) => storeCode db.stores id
  | (6, id) => transitionCode db.transitions id
  | (7, id) => cleanupCode db.cleanups id
  | (8, id) => challengeCode db.challenges id
  | (10, id) => grantCode db.grants id
  | _ => 0

/-! ## 2. The replay -/

/-- The change an event row tells. -/
def Event.change (e : Event) : Option (Change Entity) := do
  let fields ← readTranscript eventDetailDomain 11 e.detail
  match fields with
  | [_, _, _, _, _, _, prior, next, _, _, _] => do
      let prior ← exactNat 2 prior
      let next ← exactNat 2 next
      some ⟨(e.entityKind, e.entityId), prior, next⟩
  | _ => none

/-- One event, refused where it meets another prior state. -/
def foldEvent (codes : Entity → Nat) (e : Event) : Option (Entity → Nat) := do
  let c ← e.change
  c.apply codes

/-- The log, in order. -/
def foldEvents (events : List Event) : Option (Entity → Nat) := events.foldlM foldEvent unrecorded

def EventSpec.entity (e : EventSpec) : Entity := (e.entityKind, e.entityId)

/-- The change a specification writes. -/
def EventSpec.change (e : EventSpec) : Change Entity := ⟨e.entity, e.priorState, e.nextState⟩

/-- Fields that fit their widths. -/
structure EventSpec.Plain (e : EventSpec) : Prop where
  ids : e.entityId.length ≤ 32 ∧ e.relatedId.length ≤ 32
  states : e.priorState < 65536 ∧ e.nextState < 65536

/-- **An event reads back as the change that was written.** -/
theorem EventSpec.Plain.change_row {e : EventSpec} (h : e.Plain) (n : Nat) :
    (e.row env n).change = some e.change := by
  have hread : readTranscript eventDetailDomain 11 e.detail = some e.fields := by
    refine readTranscript_encode (by simp [EventSpec.fields]) ?_
    intro f hf
    have hreceipt : (Uuid.optBytes e.receiptId).length ≤ 16 := by
      cases e.receiptId with
      | none => simp [Uuid.optBytes]
      | some id => simp [Uuid.optBytes, id.length_eq]
    have h₁ := h.ids
    simp only [EventSpec.fields, List.mem_cons, List.not_mem_nil, or_false] at hf
    rcases hf with rfl | rfl | rfl | rfl | rfl | rfl | rfl | rfl | rfl | rfl | rfl <;>
      simp <;> omega
  have hbe : ∀ v, v < 65536 → exactNat 2 (be 2 v) = some v := by
    intro v hv
    rw [exactNat, if_pos (length_be 2 v), ofBe_be hv]
  simp only [Event.change, EventSpec.row, hread, EventSpec.fields, Option.bind_eq_bind,
    Option.bind_some, hbe _ h.states.1, hbe _ h.states.2]
  rfl

theorem foldlM_eventRows {specs : List EventSpec} (h : ∀ e ∈ specs, e.Plain) (n : Nat)
    (codes : Entity → Nat) : (eventRows env n specs).foldlM foldEvent codes =
      (specs.map EventSpec.change).foldlM Change.apply codes := by
  induction specs generalizing n codes with
  | nil => rfl
  | cons e specs ih =>
      have hstep : foldEvent codes (e.row env (n + 1)) = e.change.apply codes := by
        rw [foldEvent, (h e List.mem_cons_self).change_row]
        rfl
      simp only [eventRows, List.map_cons, List.foldlM_cons, hstep,
        ih fun x hx => h x (List.mem_cons_of_mem _ hx)]

/-! ## 3. Recorded changes -/

/-- The event ends the wait of a challenge: it is authorized or has expired. -/
def EventSpec.Closes (e : EventSpec) (c : Challenge) : Prop :=
  e.entity = (8, c.challengeId.bytes) ∧ (e.eventCode = 4 ∨ e.eventCode = 5)

/-- A challenge of the state before a change, in another state only with its event. -/
def Stays (db : Db) (specs : List EventSpec) (c : Challenge) : Prop :=
  ∃ c₀ ∈ db.challenges, c₀.Continues c ∧ (c.state = c₀.state ∨ ∃ e ∈ specs, e.Closes c)

/-- A challenge the one event of a change creates, where no other waits in its context. -/
def Opens (db : Db) (specs : List EventSpec) (c : Challenge) : Prop :=
  c.createdEventSequence = db.sequenceHighWater + 1 ∧
    (∃ e, specs = [e] ∧ e.entity = (8, c.challengeId.bytes) ∧ e.eventCode = 3) ∧
    c.state = .pending ∧
    ∀ x ∈ db.challenges, x.contextSha256 = c.contextSha256 → x.state ≠ .pending

/-- **A change the log records**: the events it appends are of different entities, each finds its
    prior state stored before and leaves its next state stored after, and the state of every other
    entity stays. -/
structure Recorded (env : Platform) (db db' : Db) (specs : List EventSpec) : Prop where
  events : db'.events = db.events ++ eventRows env db.sequenceHighWater specs := by rfl
  high_water : db'.sequenceHighWater = db.sequenceHighWater + specs.length := by rfl
  plain : ∀ e ∈ specs, e.Plain
  distinct : (specs.map EventSpec.entity).Nodup
  prior : ∀ e ∈ specs, db.codes e.entity = e.priorState
  next : ∀ e ∈ specs, db'.codes e.entity = e.nextState
  realms : ∀ id, (1, id) ∉ specs.map EventSpec.entity →
      realmCode db'.metaRow id = realmCode db.metaRow id := by
    exact fun _ _ => rfl
  stores : ∀ id, (4, id) ∉ specs.map EventSpec.entity →
      storeCode db'.stores id = storeCode db.stores id := by
    exact fun _ _ => rfl
  transitions : ∀ id, (6, id) ∉ specs.map EventSpec.entity →
      transitionCode db'.transitions id = transitionCode db.transitions id := by
    exact fun _ _ => rfl
  cleanups : ∀ id, (7, id) ∉ specs.map EventSpec.entity →
      cleanupCode db'.cleanups id = cleanupCode db.cleanups id := by
    exact fun _ _ => rfl
  challenges : ∀ id, (8, id) ∉ specs.map EventSpec.entity →
      challengeCode db'.challenges id = challengeCode db.challenges id := by
    exact fun _ _ => rfl
  grants : ∀ id, (10, id) ∉ specs.map EventSpec.entity →
      grantCode db'.grants id = grantCode db.grants id := by
    exact fun _ _ => rfl
  lives : ∀ c ∈ db'.challenges, Stays db specs c ∨ Opens db specs c := by
    exact fun c hc => .inl ⟨c, hc, Challenge.Continues.refl c, .inl rfl⟩

theorem Recorded.rest {specs : List EventSpec} (h : Recorded env db db' specs) (k : Entity)
    (hk : k ∉ specs.map EventSpec.entity) : db'.codes k = db.codes k := by
  unfold Db.codes
  split
  · exact h.realms _ hk
  · exact h.stores _ hk
  · exact h.transitions _ hk
  · exact h.cleanups _ hk
  · exact h.challenges _ hk
  · exact h.grants _ hk
  · rfl

/-- **A recorded change keeps the replay in step with the tables.** -/
theorem Recorded.fold {specs : List EventSpec} (h : Recorded env db db' specs)
    (hf : foldEvents db.events = some db.codes) : foldEvents db'.events = some db'.codes := by
  have hkeys : (specs.map EventSpec.change).map Change.key = specs.map EventSpec.entity := by
    simp [EventSpec.change]
  rw [foldEvents, h.events, replay_append]
  refine ⟨db.codes, hf, ?_⟩
  rw [foldlM_eventRows h.plain]
  refine replay_changes (hkeys ▸ h.distinct) ?_ ?_ ?_
  · intro c hc
    obtain ⟨e, he, rfl⟩ := List.mem_map.mp hc
    exact h.prior e he
  · intro c hc
    obtain ⟨e, he, rfl⟩ := List.mem_map.mp hc
    exact h.next e he
  · rw [hkeys]
    exact h.rest

/-! ## 4. The codes of a table -/

theorem nodup_uuid {α : Type} {key : α → Uuid} {rows : List α} (h : (rows.map key).Nodup) :
    (rows.map fun x => (key x).bytes).Nodup := by
  have := h.map fun _ _ heq => Uuid.eq_of_bytes heq
  rwa [List.map_map] at this

theorem nodup_digest {α : Type} {key : α → Digest} {rows : List α} (h : (rows.map key).Nodup) :
    (rows.map fun x => (key x).bytes).Nodup := by
  have := h.map fun _ _ heq => Digest.eq_of_bytes heq
  rwa [List.map_map] at this

section Tables

variable (htab : TablesOk db)
include htab

theorem TablesOk.challengeCode {c : Challenge} (hc : c ∈ db.challenges) :
    db.codes (8, c.challengeId.bytes) = c.state.eventState :=
  codeIn_mem (nodup_digest htab.challenges.id_unique) hc

theorem TablesOk.storeCode {x : Store} (hx : x ∈ db.stores) :
    db.codes (4, x.storeId.bytes) = x.state.eventState :=
  codeIn_mem (nodup_uuid htab.stores.id_unique) hx

theorem TablesOk.transitionCode {t : Transition} (ht : t ∈ db.transitions) :
    db.codes (6, t.transitionId.bytes) = t.state.eventState :=
  codeIn_mem (nodup_uuid htab.transitions.id_unique) ht

theorem TablesOk.cleanupCode {x : Cleanup} (hx : x ∈ db.cleanups) :
    db.codes (7, x.cleanupId.bytes) = cleanupEventState x.state :=
  codeIn_mem (nodup_uuid htab.cleanups.id_unique) hx

theorem TablesOk.grantCode {g : GrantUse} (hg : g ∈ db.grants) :
    db.codes (10, g.grantId.bytes) = 0x0902 :=
  codeIn_mem (nodup_uuid htab.grants.id_unique) hg

end Tables

/-! ## 5. The events of a step -/

theorem eventState_lt (state : TransitionState) : state.eventState < 65536 := by
  cases state <;> decide

section Plain

variable (c : Challenge) (r : Receipt) (t : Transition) (receiptId : ReceiptId) (grantId : GrantId)
  (context : Digest) (at' : Int)

theorem plain_challengeCreated : (challengeCreatedEvent c at').Plain := by
  constructor <;> simp [challengeCreatedEvent, Uuid.length_eq, Digest.length_eq]

theorem plain_challengeAuthorized : (challengeAuthorizedEvent c r at').Plain := by
  constructor <;> simp [challengeAuthorizedEvent, Uuid.length_eq, Digest.length_eq]

theorem plain_challengeExpired : (challengeExpiredEvent c at').Plain := by
  constructor <;> simp [challengeExpiredEvent, Digest.length_eq]

theorem plain_receiptExpired : (receiptExpiredEvent c r context at').Plain := by
  constructor <;> simp [receiptExpiredEvent, Uuid.length_eq, Digest.length_eq]

theorem plain_grantUsed : (grantUsedEvent grantId receiptId context at').Plain := by
  constructor <;> simp [grantUsedEvent, Uuid.length_eq]

theorem plain_storeEnrolled (storeId : StoreId) :
    (storeEnrolledEvent storeId grantId receiptId context at').Plain := by
  constructor <;> simp [storeEnrolledEvent, Uuid.length_eq]

theorem plain_storeEvent (storeId : StoreId) (source : Nat) (transitionId : TransitionId)
    {prior next : Nat} (hp : prior < 65536) (hn : next < 65536) :
    (storeEvent storeId source transitionId prior next context receiptId at').Plain := by
  constructor <;> simp [storeEvent, Uuid.length_eq, hp, hn]

theorem plain_transitionEvent (code source : Nat) {prior : Nat} (hp : prior < 65536)
    (next : TransitionState) :
    (transitionEvent t code source prior next context receiptId at').Plain := by
  constructor <;> simp [transitionEvent, Uuid.length_eq, hp, eventState_lt]

theorem plain_cleanupReady (id : CleanupId) : (cleanupReadyEvent id t receiptId at').Plain := by
  constructor <;> simp [cleanupReadyEvent, Uuid.length_eq]

theorem plain_cleanupEvent (id : CleanupId) (code : Nat) {prior next : Nat} (hp : prior < 65536)
    (hn : next < 65536) :
    (cleanupEvent id code grantId receiptId prior next context at').Plain := by
  constructor <;> simp [cleanupEvent, Uuid.length_eq, hp, hn]

end Plain

/-- The codes after a challenge moved. -/
theorem moved_codes (htab : TablesOk db) {c : Challenge} (hc : c ∈ db.challenges)
    {prior : ChallengeState} (hst : c.state = prior) (next : ChallengeState) :
    challengeCode (db.challengeMoved c.challengeId prior next).challenges c.challengeId.bytes =
      next.eventState ∧
    ∀ id, id ≠ c.challengeId.bytes →
      challengeCode (db.challengeMoved c.challengeId prior next).challenges id =
        challengeCode db.challenges id := by
  have hfound : db.challenges.filter (fun x => decide (x.challengeId = c.challengeId ∧
      x.state = prior)) = [c] := by
    refine filter_eq_of_key htab.challenges.id_unique hc (by simp [hst]) fun x _ hx => ?_
    exact (of_decide_eq_true hx).1
  exact codeIn_update_one (nodup_digest htab.challenges.id_unique) (fun _ => rfl) hfound

/-- The codes after a grant was used. -/
theorem used_codes {r : GrantUseRequest} {at' : Int} (hfree : ∀ g ∈ db.grants, g.grantId ≠ r.grantId) :
    grantCode db.grants r.grantId.bytes = 0x0901 ∧
    grantCode (db.grants ++ [grantUseRow env r at']) r.grantId.bytes = 0x0902 ∧
    ∀ id, id ≠ r.grantId.bytes →
      grantCode (db.grants ++ [grantUseRow env r at']) id = grantCode db.grants id := by
  have hbytes : ∀ g ∈ db.grants, g.grantId.bytes ≠ r.grantId.bytes :=
    fun g hg heq => hfree g hg (Uuid.eq_of_bytes heq)
  refine ⟨codeIn_absent hbytes, ?_, fun id hid => ?_⟩
  · have hnone : db.grants.find? (fun g => decide (g.grantId.bytes = r.grantId.bytes)) = none := by
      simpa using hbytes
    simp [grantCode, codeIn, List.find?_append, hnone, grantUseRow]
  · refine codeIn_append fun g hg hk => ?_
    rw [List.mem_singleton.mp hg] at hk
    exact absurd hk.symm hid

/-- The move of a challenge, recorded by one event. -/
theorem recorded_move (htab : TablesOk db) {c : Challenge} (hc : c ∈ db.challenges)
    {prior next : ChallengeState} (hst : c.state = prior) {e : EventSpec}
    (hentity : e.entity = (8, c.challengeId.bytes)) (hcode : e.eventCode = 4 ∨ e.eventCode = 5)
    (hplain : e.Plain) (hprior : e.priorState = prior.eventState)
    (hnext : e.nextState = next.eventState) {receipts : List Receipt} {nonces : List NonceUse} {at' : Int} :
    Recorded env db (appendEvent env (({ db with
      receipts := receipts
      nonces := nonces }.challengeMoved c.challengeId prior next).clocked at') e) [e] := by
  obtain ⟨hmoved, hrest⟩ := moved_codes htab hc hst next
  refine
    { events := rfl
      high_water := rfl
      plain := ?_
      distinct := by simp
      prior := ?_
      next := ?_
      realms := fun _ _ => rfl
      stores := fun _ _ => rfl
      transitions := fun _ _ => rfl
      cleanups := fun _ _ => rfl
      challenges := ?_
      grants := fun _ _ => rfl
      lives := ?_ }
  · simpa using hplain
  · simp only [List.mem_singleton, forall_eq, hentity]
    rw [htab.challengeCode hc, hst, hprior]
  · simp only [List.mem_singleton, forall_eq, hentity]
    exact hmoved.trans hnext.symm
  · intro id hid
    exact hrest id (by simpa [hentity] using hid)
  · intro x hx
    obtain ⟨x₀, hx₀, rfl⟩ := mem_update.mp hx
    refine .inl ⟨x₀, hx₀, ?_⟩
    split
    · rename_i hp
      have hid : x₀.challengeId = c.challengeId := (of_decide_eq_true hp).1
      exact ⟨⟨next, rfl⟩, .inr ⟨e, List.mem_cons_self, hentity.trans (by rw [hid]), hcode⟩⟩
    · exact ⟨Challenge.Continues.refl x₀, .inl rfl⟩

theorem recorded_clocked (db : Db) (at' : Int) : Recorded env db (db.clocked at') [] where
  events := (List.append_nil db.events).symm
  high_water := rfl
  plain := by simp
  distinct := by simp
  prior := by simp
  next := by simp
  realms := fun _ _ => rfl
  stores := fun _ _ => rfl
  transitions := fun _ _ => rfl
  cleanups := fun _ _ => rfl
  challenges := fun _ _ => rfl
  grants := fun _ _ => rfl
  lives := fun x hx => .inl ⟨x, hx, Challenge.Continues.refl x, .inl rfl⟩

theorem recorded_created {c : Challenge} {at' : Int} (hi : Issued env codec s db c at')
    (hs : SchemaOk (challengeCreated env db c at')) :
    Recorded env db (challengeCreated env db c at') [challengeCreatedEvent c at'] := by
  have hfresh : ∀ x ∈ db.challenges, x.challengeId.bytes ≠ c.challengeId.bytes :=
    fun x hx heq => (created_fresh hi.pending.1 hs hx).1 (Digest.eq_of_bytes heq)
  refine
    { events := rfl
      high_water := rfl
      plain := ?_
      distinct := by simp
      prior := ?_
      next := ?_
      realms := fun _ _ => rfl
      stores := fun _ _ => rfl
      transitions := fun _ _ => rfl
      cleanups := fun _ _ => rfl
      challenges := ?_
      grants := fun _ _ => rfl
      lives := ?_ }
  · simpa using plain_challengeCreated c at'
  · simp only [List.mem_singleton, forall_eq]
    exact codeIn_absent hfresh
  · simp only [List.mem_singleton, forall_eq]
    have hrow : linked db c ∈ (challengeCreated env db c at').challenges :=
      List.mem_append_right _ List.mem_cons_self
    exact (hs.tables.challengeCode hrow).trans (congrArg ChallengeState.eventState hi.pending.1)
  · intro id hid
    refine codeIn_append fun x hx hk => absurd ?_ hid
    rw [List.mem_singleton.mp hx] at hk
    simp [EventSpec.entity, challengeCreatedEvent, hk.symm]
  · intro x hx
    rcases List.mem_append.mp hx with hx | hx
    · exact .inl ⟨x, hx, Challenge.Continues.refl x, .inl rfl⟩
    · rw [List.mem_singleton.mp hx]
      refine .inr ⟨rfl, ⟨_, rfl, rfl, rfl⟩, hi.pending.1, fun y hy hctx hpend => ?_⟩
      exact (created_fresh hi.pending.1 hs hy).2 hpend hctx

theorem recorded_enrolled {r : EnrollStoreRequest} {receipt : Receipt} {c : Challenge}
    {m : ActionManifest} {e : StoreEnrollmentContext} {at' : Int}
    (he : Enrolls env codec db r receipt c m e)
    (hs : SchemaOk (storeEnrolled env db r receipt.receiptId at')) :
    Recorded env db (storeEnrolled env db r receipt.receiptId at')
      (enrollmentSpecs env r receipt.receiptId at') := by
  obtain ⟨hfree, hused, hgrants⟩ := @used_codes env db _ at' he.authorizes.unused
  have hstore : storeRow r receipt.receiptId at' ∈
      (storeEnrolled env db r receipt.receiptId at').stores := by
    rw [storeEnrolled, appendEvents_eq]
    exact List.mem_append_right _ List.mem_cons_self
  have hcode := hs.tables.storeCode hstore
  rw [storeEnrolled, appendEvents_eq] at hcode ⊢
  refine
    { events := rfl
      high_water := rfl
      plain := ?_
      distinct := ?_
      prior := ?_
      next := ?_
      realms := fun _ _ => rfl
      stores := ?_
      transitions := fun _ _ => rfl
      cleanups := fun _ _ => rfl
      challenges := fun _ _ => rfl
      grants := ?_
      lives := fun x hx => .inl ⟨x, hx, Challenge.Continues.refl x, .inl rfl⟩ }
  · simp only [enrollmentSpecs, List.mem_cons, List.not_mem_nil, or_false, forall_eq_or_imp,
      forall_eq]
    exact ⟨plain_grantUsed _ _ _ _, plain_storeEnrolled _ _ _ _ _⟩
  · simp [enrollmentSpecs, EventSpec.entity, useEvent, grantUsedEvent, storeEnrolledEvent]
  · simp only [enrollmentSpecs, List.mem_cons, List.not_mem_nil, or_false, forall_eq_or_imp,
      forall_eq]
    exact ⟨hfree, codeIn_absent fun x hx heq => he.fresh x hx (Uuid.eq_of_bytes heq)⟩
  · simp only [enrollmentSpecs, List.mem_cons, List.not_mem_nil, or_false, forall_eq_or_imp,
      forall_eq]
    exact ⟨hused, hcode⟩
  · intro id hid
    refine codeIn_append fun x hx hk => absurd ?_ hid
    rw [List.mem_singleton.mp hx] at hk
    simp [enrollmentSpecs, EventSpec.entity, storeEnrolledEvent, storeRow, hk.symm]
  · intro id hid
    refine hgrants id fun heq => hid ?_
    simp [enrollmentSpecs, EventSpec.entity, useEvent, grantUsedEvent, heq]

/-- The codes after one cleanup moved. -/
theorem cleanup_codes (htab : TablesOk db) {p : Cleanup → Bool} {f : Cleanup → Cleanup} {x : Cleanup}
    (hfound : db.cleanups.filter p = [x]) (hf : ∀ y, (f y).cleanupId = y.cleanupId) :
    cleanupCode db.cleanups x.cleanupId.bytes = cleanupEventState x.state ∧
    cleanupCode (update p f db.cleanups) x.cleanupId.bytes = cleanupEventState (f x).state ∧
    ∀ id, id ≠ x.cleanupId.bytes →
      cleanupCode (update p f db.cleanups) id = cleanupCode db.cleanups id := by
  have hx : x ∈ db.cleanups.filter p := by
    rw [hfound]
    exact List.mem_cons_self
  refine ⟨htab.cleanupCode (List.mem_filter.mp hx).1, ?_⟩
  exact codeIn_update_one (nodup_uuid htab.cleanups.id_unique)
    (fun y => congrArg Uuid.bytes (hf y)) hfound

/-- The codes after one store moved. -/
theorem store_codes (htab : TablesOk db) {p : Store → Bool} {f : Store → Store} {x : Store}
    (hfound : db.stores.filter p = [x]) (hf : ∀ y, (f y).storeId = y.storeId) :
    storeCode db.stores x.storeId.bytes = x.state.eventState ∧
    storeCode (update p f db.stores) x.storeId.bytes = (f x).state.eventState ∧
    ∀ id, id ≠ x.storeId.bytes →
      storeCode (update p f db.stores) id = storeCode db.stores id := by
  have hx : x ∈ db.stores.filter p := by
    rw [hfound]
    exact List.mem_cons_self
  refine ⟨htab.storeCode (List.mem_filter.mp hx).1, ?_⟩
  exact codeIn_update_one (nodup_uuid htab.stores.id_unique) (fun y => congrArg Uuid.bytes (hf y))
    hfound

/-- The codes after one transition moved. -/
theorem transition_codes (htab : TablesOk db) {p : Transition → Bool}
    {f : Transition → Transition} {t : Transition} (hfound : db.transitions.filter p = [t])
    (hf : ∀ u, (f u).transitionId = u.transitionId) :
    transitionCode db.transitions t.transitionId.bytes = t.state.eventState ∧
    transitionCode (update p f db.transitions) t.transitionId.bytes = (f t).state.eventState ∧
    ∀ id, id ≠ t.transitionId.bytes →
      transitionCode (update p f db.transitions) id = transitionCode db.transitions id := by
  have ht : t ∈ db.transitions.filter p := by
    rw [hfound]
    exact List.mem_cons_self
  refine ⟨htab.transitionCode (List.mem_filter.mp ht).1, ?_⟩
  exact codeIn_update_one (nodup_uuid htab.transitions.id_unique)
    (fun u => congrArg Uuid.bytes (hf u)) hfound

theorem recorded_claimed (ha : Accepted env codec s db) {r : CleanupClaimRequest} {receipt : Receipt}
    {c : Challenge} {m : ActionManifest} {value : CredentialCleanupManifest} {x : Cleanup} {at' : Int}
    (hc : Claims env codec db r receipt c m value x) :
    Recorded env db (cleanupClaimed env db r receipt.receiptId at')
      (claimSpecs env r receipt.receiptId at') := by
  obtain ⟨hfree, hused, hgrants⟩ := @used_codes env db _ at' hc.authorizes.unused
  obtain ⟨hprior, hnext, hrest⟩ := cleanup_codes ha.tables hc.found
    (f := fun c => { c with state := .claimed, claimGrantId := some r.grantUse.grantId })
    (fun _ => rfl)
  have hx : claimable r.cleanupId x = true := by
    have hmem : x ∈ db.cleanups.filter (claimable r.cleanupId) := hc.found ▸ List.mem_cons_self
    exact (List.mem_filter.mp hmem).2
  obtain ⟨hid, hst, -⟩ := of_decide_eq_true hx
  rw [hid] at hprior hnext hrest
  rw [hst] at hprior
  rw [cleanupClaimed, appendEvents_eq]
  refine
    { events := rfl
      high_water := rfl
      plain := ?_
      distinct := ?_
      prior := ?_
      next := ?_
      realms := fun _ _ => rfl
      stores := fun _ _ => rfl
      transitions := fun _ _ => rfl
      cleanups := ?_
      challenges := fun _ _ => rfl
      grants := ?_
      lives := fun x hx => .inl ⟨x, hx, Challenge.Continues.refl x, .inl rfl⟩ }
  · simp only [claimSpecs, List.mem_cons, List.not_mem_nil, or_false, forall_eq_or_imp, forall_eq]
    exact ⟨plain_grantUsed _ _ _ _, plain_cleanupEvent _ _ _ _ _ _ (by decide) (by decide)⟩
  · simp [claimSpecs, EventSpec.entity, useEvent, grantUsedEvent, cleanupEvent]
  · simp only [claimSpecs, List.mem_cons, List.not_mem_nil, or_false, forall_eq_or_imp, forall_eq]
    exact ⟨hfree, hprior⟩
  · simp only [claimSpecs, List.mem_cons, List.not_mem_nil, or_false, forall_eq_or_imp, forall_eq]
    exact ⟨hused, hnext⟩
  · intro id hid
    refine hrest id fun heq => hid ?_
    simp [claimSpecs, EventSpec.entity, cleanupEvent, heq]
  · intro id hid
    refine hgrants id fun heq => hid ?_
    simp [claimSpecs, EventSpec.entity, useEvent, grantUsedEvent, heq]

theorem recorded_deleted (ha : Accepted env codec s db) {permit : CleanupDeletePermit} {x : Cleanup}
    {g : GrantUse} {at' : Int} (hd : Deletes db permit x g) :
    Recorded env db (cleanupDeleted env db permit at') (deletionSpecs permit at') := by
  obtain ⟨hprior, hnext, hrest⟩ := cleanup_codes ha.tables hd.found
    (f := fun c => { c with state := .deleted, deletedAt := some at' }) (fun _ => rfl)
  have hx : deletable permit x = true := by
    have hmem : x ∈ db.cleanups.filter (deletable permit) := hd.found ▸ List.mem_cons_self
    exact (List.mem_filter.mp hmem).2
  obtain ⟨hid, hst, -⟩ := of_decide_eq_true hx
  rw [hid] at hprior hnext hrest
  rw [hst] at hprior
  rw [cleanupDeleted, appendEvents_eq]
  refine
    { events := rfl
      high_water := rfl
      plain := ?_
      distinct := by simp [deletionSpecs]
      prior := ?_
      next := ?_
      realms := fun _ _ => rfl
      stores := fun _ _ => rfl
      transitions := fun _ _ => rfl
      cleanups := ?_
      challenges := fun _ _ => rfl
      grants := fun _ _ => rfl
      lives := fun x hx => .inl ⟨x, hx, Challenge.Continues.refl x, .inl rfl⟩ }
  · simp only [deletionSpecs, List.mem_singleton, forall_eq]
    exact plain_cleanupEvent _ _ _ _ _ _ (by decide) (by decide)
  · simp only [deletionSpecs, List.mem_singleton, forall_eq]
    exact hprior
  · simp only [deletionSpecs, List.mem_singleton, forall_eq]
    exact hnext
  · intro id hid
    refine hrest id fun heq => hid ?_
    simp [deletionSpecs, EventSpec.entity, cleanupEvent, heq]

/-- The specifications of a preparation. -/
def prepareSpecs (env : Platform) (r : PrepareRequest) (receiptId : ReceiptId) (at' : Int) :
    List EventSpec :=
  [useEvent env r.grantUse receiptId at', prepareStoreEvent (transitionRow env r at') receiptId,
    preparedEvent (transitionRow env r at') receiptId]

theorem recorded_prepared (ha : Accepted env codec s db) {r : PrepareRequest} {receipt : Receipt}
    {c : Challenge} {accounts : List Account} {location : Digest} {x : Store} {at' : Int}
    (hp : Prepares env codec s db r receipt c accounts location x at')
    (hs : SchemaOk (transitionPrepared env db r accounts location receipt.receiptId at')) :
    Recorded env db (transitionPrepared env db r accounts location receipt.receiptId at')
      (prepareSpecs env r receipt.receiptId at') := by
  obtain ⟨hfree, hused, hgrants⟩ := @used_codes env db _ at' hp.authorizes.unused
  have hmem : x ∈ db.stores.filter (blockable r location) := hp.found ▸ List.mem_cons_self
  obtain ⟨hid, hst, -⟩ := of_decide_eq_true (List.mem_filter.mp hmem).2
  obtain ⟨hprior, hnext, hrest⟩ := store_codes ha.tables hp.found
    (f := fun x => { x with state := .blocked, updatedAt := at' }) (fun _ => rfl)
  have hrow : transitionRow env r at' ∈
      (transitionPrepared env db r accounts location receipt.receiptId at').transitions := by
    rw [transitionPrepared, appendEvents_eq]
    exact List.mem_append_right _ List.mem_cons_self
  have hcode := hs.tables.transitionCode hrow
  have hnew : ∀ t ∈ db.transitions, t.transitionId.bytes ≠ r.transitionId.bytes := by
    have hn := hs.tables.transitions.id_unique
    rw [transitionPrepared, appendEvents_eq] at hn
    have hn' : ((db.transitions ++ [transitionRow env r at']).map Transition.transitionId).Nodup := hn
    rw [List.map_append, List.nodup_append] at hn'
    intro t ht heq
    exact hn'.2.2 t.transitionId (List.mem_map_of_mem ht) r.transitionId (by simp [transitionRow])
      (Uuid.eq_of_bytes heq)
  rw [hid] at hprior hnext hrest
  rw [hst] at hprior
  rw [transitionPrepared, appendEvents_eq] at hcode ⊢
  refine
    { events := rfl
      high_water := rfl
      plain := ?_
      distinct := ?_
      prior := ?_
      next := ?_
      realms := fun _ _ => rfl
      stores := ?_
      transitions := ?_
      cleanups := ?_
      challenges := fun _ _ => rfl
      grants := ?_
      lives := fun x hx => .inl ⟨x, hx, Challenge.Continues.refl x, .inl rfl⟩ }
  · simp only [prepareSpecs, List.mem_cons, List.not_mem_nil, or_false, forall_eq_or_imp, forall_eq]
    exact ⟨plain_grantUsed _ _ _ _, plain_storeEvent _ _ _ _ _ _ (by decide) (by decide),
      plain_transitionEvent _ _ _ _ _ _ (by decide) _⟩
  · simp [prepareSpecs, EventSpec.entity, useEvent, grantUsedEvent, prepareStoreEvent, storeEvent,
      preparedEvent, transitionEvent]
  · simp only [prepareSpecs, List.mem_cons, List.not_mem_nil, or_false, forall_eq_or_imp, forall_eq]
    exact ⟨hfree, hprior, codeIn_absent hnew⟩
  · simp only [prepareSpecs, List.mem_cons, List.not_mem_nil, or_false, forall_eq_or_imp, forall_eq]
    exact ⟨hused, hnext, hcode⟩
  · intro id hne
    refine hrest id fun heq => hne ?_
    simp [prepareSpecs, EventSpec.entity, prepareStoreEvent, storeEvent, transitionRow, heq]
  · intro id hne
    refine codeIn_append fun t ht hk => absurd ?_ hne
    rw [List.mem_singleton.mp ht] at hk
    simp [prepareSpecs, EventSpec.entity, preparedEvent, transitionEvent, hk.symm]
  · intro id hne
    refine codeIn_append fun y hy _ => ?_
    obtain ⟨_, -, rfl⟩ := List.mem_map.mp hy
    rfl
  · intro id hne
    refine hgrants id fun heq => hne ?_
    simp [prepareSpecs, EventSpec.entity, useEvent, grantUsedEvent, heq]

section Observed

variable {t : Transition} {o : Origin} {value : AccountMutationManifest}
  {account : AccountSnapshot} {a : Account} {x : Store} {at' : Int}
  (ho : Observed env codec s db t o value account a x at')
include ho

/-- The codes of the store of an open transition, before and after it moves. -/
theorem Observed.store_codes {p : Store → Bool} (hp : p x = true)
    (hk : ∀ y, p y = true → y.storeId = t.storeId) {f : Store → Store}
    (hf : ∀ y, (f y).storeId = y.storeId) :
    storeCode db.stores t.storeId.bytes = 0x0402 ∧
    storeCode (update p f db.stores) t.storeId.bytes = (f x).state.eventState ∧
    ∀ id, id ≠ t.storeId.bytes →
      storeCode (update p f db.stores) id = storeCode db.stores id := by
  have h := Authority.store_codes ho.accepted.tables (ho.filter_store hp hk) hf
  rw [ho.holds.store.2.1, ho.holds.store.2.2] at h
  exact h

theorem Observed.blocked {generation : NonZeroU64} {configSha256 : Digest}
    (hg : x.configGeneration = generation) (hd : x.configSha256 = configSha256) :
    blockedWith t generation configSha256 x = true := by
  simp [blockedWith, ho.holds.store, hg, hd]

theorem recorded_committed (hst : t.state = .prepared) :
    Recorded env db (configCommitted env db t a x o.receipt.receiptId at')
      [committedEvent t o.receipt.receiptId at'] := by
  obtain ⟨hprior, hnext, hrest⟩ := transition_codes ho.accepted.tables (ho.filter_transition hst)
    (f := fun u => { u with state := .configCommitted, configCommittedAt := some at' })
    (fun _ => rfl)
  rw [hst] at hprior
  rw [configCommitted, appendEvents_eq]
  refine
    { events := rfl
      high_water := rfl
      plain := ?_
      distinct := by simp
      prior := ?_
      next := ?_
      realms := fun _ _ => rfl
      stores := ?_
      transitions := ?_
      cleanups := fun _ _ => rfl
      challenges := fun _ _ => rfl
      grants := fun _ _ => rfl
      lives := fun x hx => .inl ⟨x, hx, Challenge.Continues.refl x, .inl rfl⟩ }
  · simp only [List.mem_singleton, forall_eq]
    exact plain_transitionEvent _ _ _ _ _ _ (by decide) _
  · simp only [List.mem_singleton, forall_eq]
    exact hprior
  · simp only [List.mem_singleton, forall_eq]
    exact hnext
  · intro id _
    exact codeIn_update (fun _ => rfl) fun _ _ _ _ => rfl
  · intro id hid
    refine hrest id fun heq => hid ?_
    simp [EventSpec.entity, committedEvent, transitionEvent, heq]

theorem recorded_aborted (hst : t.state = .prepared) {accounts : List Account} :
    Recorded env db (transitionAborted env db t accounts o.receipt.receiptId at')
      [transitionEvent t 13 6 TransitionState.prepared.eventState .aborted t.transitionSha256
          o.receipt.receiptId at',
        storeEvent t.storeId 6 t.transitionId 0x0402 0x0401 t.transitionSha256
          o.receipt.receiptId at'] := by
  obtain ⟨hprior, hnext, hrest⟩ := transition_codes ho.accepted.tables (ho.filter_transition hst)
    (f := fun u => { u with state := .aborted, resolvedAt := some at' }) (fun _ => rfl)
  rw [hst] at hprior
  obtain ⟨hblocked, hfreed, hothers⟩ := ho.store_codes (ho.committed_blocked hst)
    (fun y hy => (of_decide_eq_true hy).1)
    (f := fun y => { y with state := .active, updatedAt := at' }) (fun _ => rfl)
  rw [transitionAborted, appendEvents_eq]
  refine
    { events := rfl
      high_water := rfl
      plain := ?_
      distinct := by simp [EventSpec.entity, transitionEvent, storeEvent]
      prior := ?_
      next := ?_
      realms := fun _ _ => rfl
      stores := ?_
      transitions := ?_
      cleanups := fun _ _ => rfl
      challenges := fun _ _ => rfl
      grants := fun _ _ => rfl
      lives := fun x hx => .inl ⟨x, hx, Challenge.Continues.refl x, .inl rfl⟩ }
  · simp only [List.mem_cons, List.not_mem_nil, or_false, forall_eq_or_imp, forall_eq]
    exact ⟨plain_transitionEvent _ _ _ _ _ _ (by decide) _,
      plain_storeEvent _ _ _ _ _ _ (by decide) (by decide)⟩
  · simp only [List.mem_cons, List.not_mem_nil, or_false, forall_eq_or_imp, forall_eq]
    exact ⟨hprior, hblocked⟩
  · simp only [List.mem_cons, List.not_mem_nil, or_false, forall_eq_or_imp, forall_eq]
    exact ⟨hnext, hfreed⟩
  · intro id hid
    refine hothers id fun heq => hid ?_
    simp [EventSpec.entity, transitionEvent, storeEvent, heq]
  · intro id hid
    refine hrest id fun heq => hid ?_
    simp [EventSpec.entity, transitionEvent, heq]

theorem recorded_stopped {r : ObservationRequest} :
    Recorded env db (transitionStopped env db t r o.receipt.receiptId at')
      [storeEvent t.storeId 5 t.transitionId 0x0402 0x0404 (recoveryContext env t r)
          o.receipt.receiptId at',
        transitionEvent t 14 5 t.state.eventState .recoveryRequired (recoveryContext env t r)
          o.receipt.receiptId at'] := by
  obtain ⟨hprior, hnext, hrest⟩ := transition_codes ho.accepted.tables (ho.filter_transition rfl)
    (f := fun u => { u with state := .recoveryRequired, resolvedAt := some at' }) (fun _ => rfl)
  obtain ⟨hblocked, hstopped, hothers⟩ := ho.store_codes (p := blockedStore t)
    (by simp [blockedStore, ho.holds.store]) (fun y hy => (of_decide_eq_true hy).1)
    (f := fun y => { y with
      state := .recoveryRequired
      configGeneration := r.actualConfigGeneration
      configSha256 := r.actualConfigSha256
      updatedAt := at' }) (fun _ => rfl)
  rw [transitionStopped, appendEvents_eq]
  refine
    { events := rfl
      high_water := rfl
      plain := ?_
      distinct := by simp [EventSpec.entity, transitionEvent, storeEvent]
      prior := ?_
      next := ?_
      realms := fun _ _ => rfl
      stores := ?_
      transitions := ?_
      cleanups := fun _ _ => rfl
      challenges := fun _ _ => rfl
      grants := fun _ _ => rfl
      lives := fun x hx => .inl ⟨x, hx, Challenge.Continues.refl x, .inl rfl⟩ }
  · simp only [List.mem_cons, List.not_mem_nil, or_false, forall_eq_or_imp, forall_eq]
    exact ⟨plain_storeEvent _ _ _ _ _ _ (by decide) (by decide),
      plain_transitionEvent _ _ _ _ _ _ (eventState_lt _) _⟩
  · simp only [List.mem_cons, List.not_mem_nil, or_false, forall_eq_or_imp, forall_eq]
    exact ⟨hblocked, hprior⟩
  · simp only [List.mem_cons, List.not_mem_nil, or_false, forall_eq_or_imp, forall_eq]
    exact ⟨hstopped, hnext⟩
  · intro id hid
    refine hothers id fun heq => hid ?_
    simp [EventSpec.entity, storeEvent, heq]
  · intro id hid
    refine hrest id fun heq => hid ?_
    simp [EventSpec.entity, transitionEvent, storeEvent, heq]

omit ho in
theorem forall_finalizeSpecs {receiptId : ReceiptId} {P : EventSpec → Prop} :
    (∀ e ∈ finalizeSpecs db t receiptId at', P e) ↔ P (finalizedEvent t receiptId at') ∧
      P (storeEvent t.storeId 4 t.transitionId 0x0402 0x0401 t.transitionSha256 receiptId at') ∧
      ∀ id ∈ readyCleanups { db with cleanups := cleanupsReady db t } t,
        P (cleanupReadyEvent id t receiptId at') := by
  simp [finalizeSpecs, or_imp, forall_and]

theorem Observed.distinct_finalizeSpecs {receiptId : ReceiptId} :
    ((finalizeSpecs db t receiptId at').map EventSpec.entity).Nodup := by
  have hready : (((readyCleanups { db with cleanups := cleanupsReady db t } t).map
      fun id => cleanupReadyEvent id t receiptId at').map EventSpec.entity).Nodup := by
    rw [List.map_map]
    refine ho.nodup_readyCleanups.map fun id id' heq => ?_
    exact Uuid.eq_of_bytes (congrArg Prod.snd heq)
  rw [finalizeSpecs, List.map_append, List.nodup_append]
  refine ⟨?_, hready, ?_⟩
  · simp [EventSpec.entity, finalizedEvent, transitionEvent, storeEvent]
  · simp [EventSpec.entity, finalizedEvent, transitionEvent, storeEvent, cleanupReadyEvent]

theorem recorded_finalized (hst : t.state = .configCommitted)
    (hs : SchemaOk (transitionFinalized env db t o.receipt.receiptId at')) :
    Recorded env db (transitionFinalized env db t o.receipt.receiptId at')
      (finalizeSpecs db t o.receipt.receiptId at') := by
  obtain ⟨hprior, hnext, hrest⟩ := transition_codes ho.accepted.tables (ho.filter_transition hst)
    (f := fun u => { u with state := .finalized, finalizedAt := some at' }) (fun _ => rfl)
  rw [hst] at hprior
  have hpair : x.configGeneration = t.nextGeneration ∧ x.configSha256 = t.afterConfigSha256 := by
    rcases ho.holds.pair with ⟨hp, -⟩ | ⟨-, hpair⟩
    · simp [hst] at hp
    · exact hpair
  obtain ⟨hblocked, hfreed, hothers⟩ := ho.store_codes (ho.blocked hpair.1 hpair.2)
    (fun y hy => (of_decide_eq_true hy).1)
    (f := fun y => { y with state := .active, updatedAt := at' }) (fun _ => rfl)
  have htab := hs.tables
  rw [transitionFinalized, appendEvents_eq] at htab ⊢
  refine
    { events := rfl
      high_water := rfl
      plain := ?_
      distinct := ho.distinct_finalizeSpecs
      prior := ?_
      next := ?_
      realms := fun _ _ => rfl
      stores := ?_
      transitions := ?_
      cleanups := ?_
      challenges := fun _ _ => rfl
      grants := fun _ _ => rfl
      lives := fun x hx => .inl ⟨x, hx, Challenge.Continues.refl x, .inl rfl⟩ }
  · refine forall_finalizeSpecs.mpr ⟨plain_transitionEvent _ _ _ _ _ _ (by decide) _,
      plain_storeEvent _ _ _ _ _ _ (by decide) (by decide), fun id _ => plain_cleanupReady _ _ _ _⟩
  · refine forall_finalizeSpecs.mpr ⟨hprior, hblocked, fun id hid => ?_⟩
    obtain ⟨c, hc, -, hpr, rfl⟩ := ho.mem_readyCleanups.mp hid
    exact (ho.accepted.tables.cleanupCode hc).trans (congrArg cleanupEventState hpr)
  · refine forall_finalizeSpecs.mpr ⟨hnext, hfreed, fun id hid => ?_⟩
    obtain ⟨c, hc, htc, hpr, rfl⟩ := ho.mem_readyCleanups.mp hid
    refine htab.cleanupCode (x := { c with state := .ready }) (mem_update.mpr ⟨c, hc, ?_⟩)
    simp [htc, hpr]
  · intro id hid
    refine hothers id fun heq => hid ?_
    simp [finalizeSpecs, EventSpec.entity, storeEvent, heq]
  · intro id hid
    refine hrest id fun heq => hid ?_
    simp [finalizeSpecs, EventSpec.entity, finalizedEvent, transitionEvent, heq]
  · intro id hid
    refine codeIn_update (fun _ => rfl) fun c hc hp hk => absurd ?_ hid
    obtain ⟨htc, hpr⟩ := of_decide_eq_true hp
    refine List.mem_map.mpr ⟨cleanupReadyEvent c.cleanupId t o.receipt.receiptId at', ?_,
      Prod.ext rfl hk⟩
    exact List.mem_append_right _
      (List.mem_map_of_mem (ho.mem_readyCleanups.mpr ⟨c, hc, htc, hpr, rfl⟩))

end Observed

/-- **Every step is recorded.** -/
theorem step_recorded (ha : Accepted env codec s db) (h : Step env codec s db db') :
    ∃ specs, Recorded env db db' specs := by
  cases h with
  | @clocked at' ht hs => exact ⟨[], recorded_clocked db at'⟩
  | @pendingExpired c at' hc hst ht hexp hs =>
      exact ⟨_, recorded_move ha.tables hc hst rfl (.inr rfl) (plain_challengeExpired c at') rfl rfl⟩
  | @receiptExpired c r m intent at' hc hst hfree hr hrc hm hi ht hexp hs =>
      exact ⟨_, recorded_move ha.tables hc hst rfl (.inr rfl) (plain_receiptExpired c r intent at')
        rfl rfl⟩
  | @challengeProved c r at' hc hst ht hrc hrat hrok hs =>
      exact ⟨_, recorded_move ha.tables hc hst rfl (.inl rfl) (plain_challengeAuthorized c r at')
        rfl rfl⟩
  | challengeCreated hi ht hs => exact ⟨_, recorded_created hi hs⟩
  | storeEnrolled he hexp ht hs => exact ⟨_, recorded_enrolled he hs⟩
  | cleanupClaimed hc hexp ht hs => exact ⟨_, recorded_claimed ha hc⟩
  | cleanupDeleted hd ht hs => exact ⟨_, recorded_deleted ha hd⟩
  | transitionPrepared hp hexp ht hs => exact ⟨_, recorded_prepared ha hp hs⟩
  | configCommitted ho hst hs => exact ⟨_, recorded_committed ho hst⟩
  | transitionFinalized ho hst hs => exact ⟨_, recorded_finalized ho hst hs⟩
  | transitionAborted ho hst hacc hs => exact ⟨_, recorded_aborted ho hst⟩
  | transitionStopped ho hunsafe hs => exact ⟨_, recorded_stopped ho⟩

theorem step_schema (h : Step env codec s db db') : SchemaOk db' := by
  cases h <;> assumption

/-! ## 6. The log of a run -/

/-- The event creates a challenge. -/
def Event.Creates (e : Event) (c : Challenge) : Prop :=
  e.entityKind = 8 ∧ e.entityId = c.challengeId.bytes ∧ e.eventCode = 3

/-- The event authorizes a challenge or lets it expire. -/
def Event.Closes (e : Event) (c : Challenge) : Prop :=
  e.entityKind = 8 ∧ e.entityId = c.challengeId.bytes ∧ (e.eventCode = 4 ∨ e.eventCode = 5)

/-- **What the log of a run says of the tables.** -/
structure Logged (db : Db) : Prop where
  tables : TablesOk db
  contiguous : db.events.map Event.sequence = (List.range db.events.length).map (· + 1)
  high_water : db.sequenceHighWater = db.events.length
  fold : foldEvents db.events = some db.codes
  created : ∀ c ∈ db.challenges, ∃ e ∈ db.events, e.Creates c ∧ e.sequence = c.createdEventSequence
  closed : ∀ c ∈ db.challenges, c.state ≠ .pending →
    ∃ e ∈ db.events, e.Closes c ∧ c.createdEventSequence < e.sequence
  apart : ∀ c ∈ db.challenges, ∀ c' ∈ db.challenges, c.contextSha256 = c'.contextSha256 →
    c.createdEventSequence < c'.createdEventSequence →
    ∃ e ∈ db.events, e.Closes c ∧ e.sequence < c'.createdEventSequence

theorem Logged.sequence_le (hl : Logged db) {e : Event} (he : e ∈ db.events) :
    e.sequence ≤ db.sequenceHighWater := by
  have hm : e.sequence ∈ db.events.map Event.sequence := List.mem_map_of_mem he
  rw [hl.contiguous] at hm
  obtain ⟨i, hi, heq⟩ := List.mem_map.mp hm
  have := List.mem_range.mp hi
  have := hl.high_water
  omega

/-- A created challenge is older than the next event. -/
theorem Logged.created_le (hl : Logged db) {c : Challenge} (hc : c ∈ db.challenges) :
    c.createdEventSequence ≤ db.sequenceHighWater := by
  obtain ⟨e, he, -, hseq⟩ := hl.created c hc
  exact hseq ▸ hl.sequence_le he

section Logged

variable {specs : List EventSpec} (h : Recorded env db db' specs) (hl : Logged db)
include h hl

omit hl in
theorem Recorded.mem_events {e : Event} (he : e ∈ db.events) : e ∈ db'.events := by
  rw [h.events]
  exact List.mem_append_left _ he

omit hl in
/-- A specification is a row of the log, after what was there. -/
theorem Recorded.mem_spec {e : EventSpec} (he : e ∈ specs) :
    ∃ n, db.sequenceHighWater < n ∧ e.row env n ∈ db'.events := by
  have hrow : ∀ (l : List EventSpec) (n : Nat), e ∈ l → ∃ k, n < k ∧ e.row env k ∈ eventRows env n l := by
    intro l
    induction l with
    | nil => intro n hm; cases hm
    | cons x l ih =>
        intro n hm
        rcases List.mem_cons.mp hm with rfl | hm
        · exact ⟨n + 1, by omega, List.mem_cons_self⟩
        · obtain ⟨k, hk, hm⟩ := ih (n + 1) hm
          exact ⟨k, by omega, List.mem_cons_of_mem _ hm⟩
  obtain ⟨k, hk, hm⟩ := hrow specs db.sequenceHighWater he
  refine ⟨k, hk, ?_⟩
  rw [h.events]
  exact List.mem_append_right _ hm

theorem Recorded.created : ∀ c ∈ db'.challenges, ∃ e ∈ db'.events, e.Creates c ∧
    e.sequence = c.createdEventSequence := by
  intro c hc
  rcases h.lives c hc with ⟨c₀, hc₀, ⟨_, rfl⟩, -⟩ | ⟨hseq, ⟨e, rfl, hentity, hcode⟩, -, -⟩
  · obtain ⟨e, he, hcreates, hseq⟩ := hl.created c₀ hc₀
    exact ⟨e, h.mem_events he, hcreates, hseq⟩
  · refine ⟨e.row env (db.sequenceHighWater + 1), ?_,
      ⟨congrArg Prod.fst hentity, congrArg Prod.snd hentity, hcode⟩, hseq.symm⟩
    rw [h.events]
    exact List.mem_append_right _ List.mem_cons_self

theorem Recorded.closed : ∀ c ∈ db'.challenges, c.state ≠ .pending →
    ∃ e ∈ db'.events, e.Closes c ∧ c.createdEventSequence < e.sequence := by
  intro c hc hst
  rcases h.lives c hc with ⟨c₀, hc₀, hcont, hsame | ⟨e, he, hentity, hcode⟩⟩ | ⟨-, -, hpend, -⟩
  · obtain ⟨e, he, hcloses, hlt⟩ := hl.closed c₀ hc₀ (hsame ▸ hst)
    obtain ⟨_, rfl⟩ := hcont
    exact ⟨e, h.mem_events he, hcloses, hlt⟩
  · obtain ⟨n, hn, hm⟩ := h.mem_spec he
    have hle := hl.created_le hc₀
    obtain ⟨_, rfl⟩ := hcont
    exact ⟨_, hm, ⟨congrArg Prod.fst hentity, congrArg Prod.snd hentity, hcode⟩, by
      show c₀.createdEventSequence < n
      omega⟩
  · exact absurd hpend hst

theorem Recorded.apart : ∀ c ∈ db'.challenges, ∀ c' ∈ db'.challenges,
    c.contextSha256 = c'.contextSha256 → c.createdEventSequence < c'.createdEventSequence →
    ∃ e ∈ db'.events, e.Closes c ∧ e.sequence < c'.createdEventSequence := by
  intro c hc c' hc' hctx hlt
  rcases h.lives c hc with ⟨c₀, hc₀, ⟨_, rfl⟩, -⟩ | ⟨hseq, -, -, -⟩ <;>
    rcases h.lives c' hc' with ⟨d₀, hd₀, ⟨_, rfl⟩, -⟩ | ⟨hseq', -, -, halone⟩
  · obtain ⟨e, he, hcloses, hlt'⟩ := hl.apart c₀ hc₀ d₀ hd₀ hctx hlt
    exact ⟨e, h.mem_events he, hcloses, hlt'⟩
  · -- the context of a new challenge holds only closed ones
    obtain ⟨e, he, hcloses, -⟩ := hl.closed c₀ hc₀ (halone c₀ hc₀ hctx)
    have := hl.sequence_le he
    exact ⟨e, h.mem_events he, hcloses, by omega⟩
  · have := hl.created_le hd₀
    simp only at hlt
    omega
  · omega

/-- **A recorded change keeps the log.** -/
theorem Recorded.logged (htab : TablesOk db') : Logged db' where
  tables := htab
  contiguous := by
    rw [h.events]
    exact contiguous_append hl.high_water hl.contiguous
  high_water := by
    rw [h.high_water, h.events, List.length_append, length_eventRows, hl.high_water]
  fold := h.fold hl.fold
  created := h.created hl
  closed := h.closed hl
  apart := h.apart hl

end Logged

theorem retryExistingBootstrap_logged {handle : Handle} {input : BootstrapInput env} {x : Snapshot}
    (h : retryExistingBootstrap codec handle input db = .ok (db', x)) (hl : Logged db) :
    Logged db' := by
  simp only [retryExistingBootstrap, observeExistingBootstrap, bind_ok, ensure_ok, written_ok,
    pure_ok, Prod.mk.injEq] at h
  obtain ⟨loaded, -, _, -, _, ⟨at', -, hs, rfl⟩, rfl, -⟩ := h
  have hr : Recorded env db { db with metaRow := { db.metaRow with
      lastObservedAt := at'
      updatedAt := max db.metaRow.updatedAt at' } } [] :=
    { events := (List.append_nil db.events).symm
      high_water := rfl
      plain := by simp
      distinct := by simp
      prior := by simp
      next := by simp
      realms := fun _ _ => rfl
      stores := fun _ _ => rfl
      transitions := fun _ _ => rfl
      cleanups := fun _ _ => rfl
      challenges := fun _ _ => rfl
      grants := fun _ _ => rfl
      lives := fun x hx => .inl ⟨x, hx, Challenge.Continues.refl x, .inl rfl⟩ }
  exact hr.logged hl hs.tables

theorem loadTrust_realm (h : loadTrust env db = .ok s) : s.realmId = db.metaRow.realmId := by
  simp only [loadTrust, bind_ok, ensure_ok, orRefuse_ok, pure_ok] at h
  obtain ⟨e, -, ok, -, rk, -, _, -, rfl⟩ := h
  rfl

theorem confirmDb_logged {handle : Handle} {opened anchor x : Snapshot} {observed : Int}
    (h : confirmDb env codec handle opened anchor observed db = .ok (db', x)) (hl : Logged db) :
    Logged db' := by
  simp only [confirmDb, loadHome, bind_ok, ensure_ok, written_ok, insertTypedEvent_ok, pure_ok,
    Prod.mk.injEq] at h
  obtain ⟨_, ⟨_, -, _, -, s, hs, _, -, rfl⟩, _, ⟨hst, -⟩, at', -, _, ⟨-, rfl⟩, _, ⟨hs', rfl⟩, rfl, -⟩ := h
  have hrealm := loadTrust_realm hs
  have hr : Recorded env db (appendEvent env (db.confirmedAt at') (confirmedEvent s at'))
      [confirmedEvent s at'] := by
    refine
      { events := rfl
        high_water := rfl
        plain := ?_
        distinct := by simp
        prior := ?_
        next := ?_
        realms := ?_
        stores := fun _ _ => rfl
        transitions := fun _ _ => rfl
        cleanups := fun _ _ => rfl
        challenges := fun _ _ => rfl
        grants := fun _ _ => rfl
        lives := fun x hx => .inl ⟨x, hx, Challenge.Continues.refl x, .inl rfl⟩ }
    · simp only [List.mem_singleton, forall_eq]
      constructor <;> simp [confirmedEvent, bootstrapEvent, Digest.length_eq]
    · simp only [List.mem_singleton, forall_eq]
      show realmCode db.metaRow s.realmId.bytes = 0x0101
      simp only at hst
      simp [realmCode, hrealm, hst, BootstrapState.eventState]
    · simp only [List.mem_singleton, forall_eq]
      show realmCode (db.confirmedAt at').metaRow s.realmId.bytes = 0x0102
      simp [realmCode, hrealm, Db.confirmedAt, BootstrapState.eventState]
    · intro id hid
      have hne : id ≠ db.metaRow.realmId.bytes := by
        simpa [EventSpec.entity, confirmedEvent, bootstrapEvent, hrealm] using hid
      show realmCode (db.confirmedAt at').metaRow id = realmCode db.metaRow id
      simp [realmCode, Db.confirmedAt, hne]
  exact hr.logged hl hs'.tables

theorem Operates.logged (h : Operates env codec db db') (hl : Logged db) : Logged db' := by
  cases h with
  | call s call =>
      rcases @runCall_steps env codec s db call with h | ⟨ha, h⟩
      · rw [h]
        exact hl
      · cases h with
        | one h =>
            obtain ⟨specs, hr⟩ := step_recorded ha h
            exact hr.logged hl (step_schema h).tables
        | two h ha₁ h' =>
            obtain ⟨specs, hr⟩ := step_recorded ha h
            obtain ⟨specs', hr'⟩ := step_recorded ha₁ h'
            exact hr'.logged (hr.logged hl (step_schema h).tables) (step_schema h').tables
  | prepare host handle input h =>
      rcases prepareBootstrap_authority h with rfl | ⟨x, h⟩
      · exact hl
      · exact retryExistingBootstrap_logged h hl
  | confirm secured handle anchor observed h =>
      rcases confirmAnchor_authority h with rfl | ⟨opened, x, h⟩
      · exact hl
      · exact confirmDb_logged h hl

theorem Run.logged (h : Run env codec db db') (hl : Logged db) : Logged db' := by
  induction h with
  | refl => exact hl
  | tail _ hop ih => exact hop.logged ih

/-- The log of a first preparation: the realm awaits its anchor. -/
theorem Bootstraps.logged (h : Bootstraps env db) : Logged db := by
  obtain ⟨host, handle, input, s, -, h⟩ := h
  simp only [firstBootstrap, bind_ok, written_ok, pure_ok, Prod.mk.injEq] at h
  obtain ⟨s', -, _, ⟨hs, rfl⟩, rfl, rfl⟩ := h
  have hplain : (createdEvent s' input.observedAt).Plain := by
    constructor <;> simp [createdEvent, bootstrapEvent, Digest.length_eq]
  refine
    { tables := hs.tables
      contiguous := rfl
      high_water := rfl
      fold := ?_
      created := by simp [bootstrapRows]
      closed := by simp [bootstrapRows]
      apart := by simp [bootstrapRows] }
  have hrows : (bootstrapRows env s' input.observedAt).events =
      eventRows env 0 [createdEvent s' input.observedAt] := rfl
  rw [foldEvents, hrows, foldlM_eventRows (by simpa using hplain)]
  refine replay_changes (by simp) ?_ ?_ ?_
  · simp [EventSpec.change, EventSpec.entity, createdEvent, bootstrapEvent, unrecorded]
  · simp [EventSpec.change, EventSpec.entity, createdEvent, bootstrapEvent, Db.codes, realmCode,
      bootstrapRows, BootstrapState.eventState]
  · intro k hk
    have hne : k ≠ (1, s'.realmId.bytes) := by
      simpa [EventSpec.change, EventSpec.entity, createdEvent, bootstrapEvent] using hk
    unfold Db.codes
    split
    · exact if_neg fun heq => hne (by rw [heq]; rfl)
    · rfl
    · rfl
    · rfl
    · rfl
    · rfl
    · rename_i h₁ h₂ h₃ h₄ h₅ h₆
      unfold unrecorded
      split
      · exact absurd rfl (h₄ _)
      · exact absurd rfl (h₆ _)
      · rfl

/-- The sequences at which a challenge waits: from its creation to the first event that authorizes
    it or lets it expire. -/
def Challenge.Waits (db : Db) (c : Challenge) (n : Nat) : Prop :=
  c.createdEventSequence ≤ n ∧ ∀ e ∈ db.events, e.Closes c → n ≤ e.sequence

theorem Logged.disjoint (hl : Logged db) {c c' : Challenge} (hc : c ∈ db.challenges)
    (hc' : c' ∈ db.challenges) (hctx : c.contextSha256 = c'.contextSha256) (hne : c ≠ c') (n : Nat) :
    ¬(c.Waits db n ∧ c'.Waits db n) := by
  rintro ⟨⟨h₁, h₂⟩, ⟨h₁', h₂'⟩⟩
  rcases Nat.lt_trichotomy c.createdEventSequence c'.createdEventSequence with hlt | heq | hlt
  · obtain ⟨e, he, hcloses, hseq⟩ := hl.apart c hc c' hc' hctx hlt
    have := h₂ e he hcloses
    omega
  · -- one event creates one challenge
    obtain ⟨e, he, hcr, hseq⟩ := hl.created c hc
    obtain ⟨e', he', hcr', hseq'⟩ := hl.created c' hc'
    have hsame : e = e' := by
      refine eq_of_key_eq ?_ he he' (hseq.trans (heq.trans hseq'.symm))
      rw [hl.contiguous]
      exact List.nodup_range.map fun _ _ h => Nat.succ_injective h
    subst hsame
    refine hne (eq_of_key_eq hl.tables.challenges.id_unique hc hc' (Digest.eq_of_bytes ?_))
    exact hcr.2.1.symm.trans hcr'.2.1
  · obtain ⟨e, he, hcloses, hseq⟩ := hl.apart c' hc' c hc hctx.symm hlt
    have := h₂' e he hcloses
    omega

theorem Logged.one_pending (hl : Logged db) {c c' : Challenge} (hc : c ∈ db.challenges)
    (hc' : c' ∈ db.challenges) (hctx : c.contextSha256 = c'.contextSha256)
    (hst : c.state = .pending) (hst' : c'.state = .pending) : c = c' :=
  eq_of_key_eq hl.tables.challenges.one_pending (List.mem_filter.mpr ⟨hc, by simpa using hst⟩)
    (List.mem_filter.mpr ⟨hc', by simpa using hst'⟩) hctx

theorem Logged.used (hl : Logged db) (id : GrantId) :
    db.codes (10, id.bytes) = 0x0902 ↔ ∃ g ∈ db.grants, g.grantId = id := by
  constructor
  · intro hcode
    by_contra hnone
    have habsent : db.codes (10, id.bytes) = 0x0901 :=
      codeIn_absent fun g hg heq => hnone ⟨g, hg, Uuid.eq_of_bytes heq⟩
    omega
  · rintro ⟨g, hg, rfl⟩
    exact hl.tables.grantCode hg

/-- **The event log determines the state.**  In every state a run of operations gets to from a
    bootstrap: the sequences of the events are contiguous from 1; replayed in order, no event meets
    a state other than its prior one, and the replay ends in the stored state of every challenge,
    store, transition and cleanup and in the used grants; a challenge waits from its created event
    to the first that closes it, no two challenges of a context wait at one sequence, and at most
    one of them is pending. -/
theorem log_determines_state {start : Db} (h0 : Bootstraps env start)
    (h : Run env codec start db) :
    db.events.map Event.sequence = (List.range db.events.length).map (· + 1) ∧
    (∃ codes, foldEvents db.events = some codes ∧
      (∀ c ∈ db.challenges, codes (8, c.challengeId.bytes) = c.state.eventState) ∧
      (∀ x ∈ db.stores, codes (4, x.storeId.bytes) = x.state.eventState) ∧
      (∀ t ∈ db.transitions, codes (6, t.transitionId.bytes) = t.state.eventState) ∧
      (∀ x ∈ db.cleanups, codes (7, x.cleanupId.bytes) = cleanupEventState x.state) ∧
      (∀ id : GrantId, codes (10, id.bytes) = 0x0902 ↔ ∃ g ∈ db.grants, g.grantId = id) ∧
      codes = db.codes) ∧
    (∀ c ∈ db.challenges,
      (∃ e ∈ db.events, e.Creates c ∧ e.sequence = c.createdEventSequence) ∧
      (c.state ≠ .pending → ∃ e ∈ db.events, e.Closes c ∧ c.createdEventSequence < e.sequence)) ∧
    ∀ c ∈ db.challenges, ∀ c' ∈ db.challenges, c.contextSha256 = c'.contextSha256 → c ≠ c' →
      (∀ n, ¬(c.Waits db n ∧ c'.Waits db n)) ∧ ¬(c.state = .pending ∧ c'.state = .pending) := by
  have hl := Run.logged h h0.logged
  refine ⟨hl.contiguous, ⟨db.codes, hl.fold, ?_⟩, fun c hc => ⟨hl.created c hc, hl.closed c hc⟩, ?_⟩
  · exact ⟨fun c hc => hl.tables.challengeCode hc, fun x hx => hl.tables.storeCode hx,
      fun t ht => hl.tables.transitionCode ht, fun x hx => hl.tables.cleanupCode hx, hl.used, rfl⟩
  · intro c hc c' hc' hctx hne
    refine ⟨hl.disjoint hc hc' hctx hne, ?_⟩
    rintro ⟨hst, hst'⟩
    exact hne (hl.one_pending hc hc' hctx hst hst')

namespace Sample

def issued : Db := after ready (issue 50 100 1000)

/-- The owner's proof of the first challenge of a state. -/
def prove (db : Db) : Call :=
  match db.challenges.head? with
  | some c => .verifyProof (some (uuid 60)) ⟨proofOf c, 200⟩
  | none => issue 50 100 1000

def proved : Db := after issued (prove issued)

def grantUse : GrantUseRequest :=
  ⟨uuid 50, uuid 60, .storeEnroll, .store, (uuid 40).bytes, platform.sha256 [1], storeTarget⟩

def enroll (observed : Int) : EnrollStoreRequest :=
  ⟨grantUse, uuid 40, location, locationBytes, platform.sha256 locationBytes,
    ⟨1, Nat.one_pos, one_lt_u64⟩, digest 42, observed⟩

def enrolled : Db := after proved (.enrollStore (enroll 300))

theorem enrolled_run : Run platform oneCodec (bootstrapRows platform realm 5) enrolled :=
  ((confirmed_run.tail (operates_after _ _)).tail (operates_after _ _)).tail (operates_after _ _)

/-- The state after the enrollment, computed once. -/
theorem enrolled_state :
    (enrolled.events.map fun e => (e.sequence, e.eventCode)) =
      [(1, 1), (2, 2), (3, 3), (4, 4), (5, 7), (6, 8)] ∧
    (∃ x ∈ enrolled.stores, x.storeId = uuid 40 ∧ x.state = .active) ∧
    (∃ g ∈ enrolled.grants, g.grantId = uuid 50) ∧
    loadSnapshot platform oneCodec enrolled = .ok realm ∧ effectiveTime enrolled 5000 = .ok 5000 := by
  decide +kernel

/-- The log of an enrollment: six events, and the store and the grant they tell of. -/
theorem log_of_an_enrollment :
    (enrolled.events.map fun e => (e.sequence, e.eventCode)) =
      [(1, 1), (2, 2), (3, 3), (4, 4), (5, 7), (6, 8)] ∧
    ∃ codes, foldEvents enrolled.events = some codes ∧ codes (4, (uuid 40).bytes) = 0x0401 ∧
      codes (10, (uuid 50).bytes) = 0x0902 := by
  obtain ⟨hlog, ⟨x, hx, hid, hst⟩, hg, -⟩ := enrolled_state
  obtain ⟨-, ⟨codes, hfold, -, hstores, -, -, hgrants, -⟩, -⟩ :=
    log_determines_state bootstraps enrolled_run
  refine ⟨hlog, codes, hfold, ?_, (hgrants (uuid 50)).mpr hg⟩
  have hcode := hstores x hx
  rwa [hid, hst] at hcode

/-- The store of an enrollment is the one a single signed grant names. -/
theorem signed_enrollment : loadSnapshot platform oneCodec enrolled = .ok realm ∧
    ∃ store ∈ enrolled.stores, store.storeId = uuid 40 ∧ ∃! g, g ∈ enrolled.grants ∧
      ∃ m, SignedFor platform oneCodec realm enrolled g m ∧ NamesStore m store := by
  obtain ⟨-, ⟨store, hst, hid, -⟩, -, hload, -⟩ := enrolled_state
  exact ⟨hload, store, hst, hid, (loaded_authority_is_signed hload).1 store hst⟩

end Sample

end Kirje.Authority
