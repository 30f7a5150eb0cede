import Mathlib.Logic.Relation
import Kirje.Authority.Bootstrap
import Kirje.Authority.Steps

/-
  File:      Kirje/Authority/Clock.lean
  Subject:   The high-water mark of the clock over whole runs.

  A caller brings its own time and may be up to thirty seconds behind.  Every
  operation raises that time to the last one observed, writes nothing but the raised
  time, and compares expiries with it.  `Stamped` says so of one change of the
  database; whatever it keeps, a run keeps.

  * `Operates.stamps`: every operation is a chain of stamped changes.
  * `clock_high_water`: the clock of a run, and what it rules out.
-/

namespace Kirje.Authority

open Base

/-! ## 1. Runs -/

/-- One operation on an authority database: a call by a handle opened on some snapshot, a repeated
    preparation, or a confirmation. -/
inductive Operates (env : Platform) (codec : ManifestCodec) (db : Db) : Db → Prop where
  | call (s : Snapshot) (call : Call) : Operates env codec db (runCall env codec s db call).1
  | prepare {db' : Db} (host : Host) (handle : Handle) (input : BootstrapInput env)
      (h : (prepareBootstrap codec host handle input (.authority db)).1 = .authority db') :
      Operates env codec db db'
  | confirm {db' : Db} (secured : Bool) (handle : Handle) (anchor : Snapshot) (observed : Int)
      (h : (confirmAnchor env codec secured handle anchor observed (.authority db)).1 =
        .authority db') : Operates env codec db db'

/-- Any sequence of operations. -/
abbrev Run (env : Platform) (codec : ManifestCodec) : Db → Db → Prop :=
  Relation.ReflTransGen (Operates env codec)

/-- The database a first preparation commits. -/
def Bootstraps (env : Platform) (db : Db) : Prop :=
  ∃ host handle input s, admitPrepare handle input = .ok () ∧
    firstBootstrap env host input = .ok (db, s)

variable {env : Platform} {codec : ManifestCodec} {s : Snapshot} {db db' : Db}

/-- What a repeated preparation does to a database. -/
theorem prepareBootstrap_authority {host : Host} {handle : Handle} {input : BootstrapInput env}
    (h : (prepareBootstrap codec host handle input (.authority db)).1 = .authority db') :
    db' = db ∨ ∃ x, retryExistingBootstrap codec handle input db = .ok (db', x) := by
  unfold prepareBootstrap at h
  split at h
  · cases h
    exact .inl rfl
  · simp only [prepareOn] at h
    cases hr : retryExistingBootstrap codec handle input db with
    | error e =>
        simp only [hr, commitBootstrap] at h
        cases h
        exact .inl rfl
    | ok done =>
        simp only [hr, commitBootstrap] at h
        cases h
        exact .inr ⟨done.2, rfl⟩

/-- What a confirmation does to a database. -/
theorem confirmAnchor_authority {secured : Bool} {handle : Handle} {anchor : Snapshot}
    {observed : Int}
    (h : (confirmAnchor env codec secured handle anchor observed (.authority db)).1 =
      .authority db') :
    db' = db ∨ ∃ opened x, confirmDb env codec handle opened anchor observed db = .ok (db', x) := by
  unfold confirmAnchor at h
  cases ha : admitConfirm handle anchor observed with
  | error e =>
      simp only [ha] at h
      cases h
      exact .inl rfl
  | ok opened =>
      simp only [ha] at h
      cases hr : confirmDb env codec handle opened anchor observed db with
      | error e =>
          simp only [hr, commitBootstrap] at h
          cases h
          exact .inl rfl
      | ok done =>
          simp only [hr, commitBootstrap] at h
          cases h
          exact .inr ⟨opened, done.2, hr⟩

/-! ## 2. Stamped changes -/

/-- The times of a transition are those it had, or the time of the change. -/
structure Transition.StampedFrom (t₀ t : Transition) (at' : Int) : Prop where
  prepared : t.preparedAt = t₀.preparedAt
  committed : ∀ x ∈ t.configCommittedAt, t₀.configCommittedAt = some x ∨ x = at'
  finalized : ∀ x ∈ t.finalizedAt, t₀.finalizedAt = some x ∨ x = at'
  resolved : ∀ x ∈ t.resolvedAt, t₀.resolvedAt = some x ∨ x = at'

theorem Transition.StampedFrom.refl (t : Transition) (at' : Int) : t.StampedFrom t at' :=
  ⟨rfl, fun _ h => .inl h, fun _ h => .inl h, fun _ h => .inl h⟩

/-- **A change whose every time is one time**, not before the clock; a proof or a use is recorded
    only while its challenge lasts.  What a change leaves alone is filled in by default. -/
structure Stamped (env : Platform) (db db' : Db) (at' : Int) (specs : List EventSpec) : Prop where
  tables : TablesOk db
  monotone : db.metaRow.lastObservedAt ≤ at'
  clock : db'.metaRow.lastObservedAt = at' := by rfl
  kept : ∀ c ∈ db.challenges, ∃ c' ∈ db'.challenges, c.Continues c' := by
    exact fun c hc => ⟨c, hc, Challenge.Continues.refl c⟩
  challenges : ∀ c ∈ db'.challenges, (∃ c₀ ∈ db.challenges, c₀.Continues c) ∨ c.issuedAt = at' := by
    exact fun c hc => .inl ⟨c, hc, Challenge.Continues.refl c⟩
  receipts : ∀ r ∈ db'.receipts, r ∈ db.receipts ∨ r.verifiedAt = at' ∧
      ∃ c ∈ db.challenges, c.challengeId = r.challengeId ∧ at' ≤ c.expiresAt := by
    exact fun r hr => .inl hr
  nonces : ∀ n ∈ db'.nonces, n ∈ db.nonces ∨ n.consumedAt = at' := by exact fun n hn => .inl hn
  grants : ∀ g ∈ db'.grants, g ∈ db.grants ∨ g.usedAt = at' ∧
      ∃ c ∈ db.challenges, c.grantId = g.grantId ∧ at' ≤ c.expiresAt := by
    exact fun g hg => .inl hg
  transitions : ∀ t ∈ db'.transitions, (∃ t₀ ∈ db.transitions, t₀.StampedFrom t at') ∨
      (t.preparedAt = at' ∧ t.configCommittedAt = none ∧ t.finalizedAt = none ∧
        t.resolvedAt = none) := by
    exact fun t ht => .inl ⟨t, ht, Transition.StampedFrom.refl t _⟩
  cleanups : ∀ x ∈ db'.cleanups, ∀ d ∈ x.deletedAt, (∃ x₀ ∈ db.cleanups, x₀.deletedAt = some d) ∨
      d = at' := by
    exact fun x hx d hd => .inl ⟨x, hx, hd⟩
  events : db'.events = db.events ++ eventRows env db.sequenceHighWater specs := by rfl
  high_water : db'.sequenceHighWater = db.sequenceHighWater + specs.length := by rfl
  occurred : ∀ e ∈ specs, e.occurredAt = at'

/-- A row after an update comes from the row it was. -/
theorem update_from {α : Type} {R : α → α → Prop} {p : α → Bool} {f : α → α} {rows : List α}
    (hr : ∀ x, R x x) (hf : ∀ x, R x (f x)) : ∀ x ∈ update p f rows, ∃ x₀ ∈ rows, R x₀ x := by
  intro x hx
  obtain ⟨x₀, hx₀, rfl⟩ := mem_update.mp hx
  refine ⟨x₀, hx₀, ?_⟩
  split
  · exact hf x₀
  · exact hr x₀

theorem transitions_from {p : Transition → Bool} {f : Transition → Transition}
    {rows : List Transition} {at' : Int} (hf : ∀ u : Transition, u.StampedFrom (f u) at') :
    ∀ u ∈ update p f rows, ∃ u₀ ∈ rows, u₀.StampedFrom u at' :=
  update_from (fun u => Transition.StampedFrom.refl u at') hf

/-- A challenge moved to a state continues. -/
theorem challengeMoved_from (db : Db) (id : Digest) (prior next : ChallengeState) :
    (∀ c ∈ db.challenges, ∃ c' ∈ (db.challengeMoved id prior next).challenges, c.Continues c') ∧
      ∀ c ∈ (db.challengeMoved id prior next).challenges, ∃ c₀ ∈ db.challenges, c₀.Continues c :=
  ⟨exists_mem_update Challenge.Continues.refl fun _ _ => ⟨next, rfl⟩,
    update_from Challenge.Continues.refl fun _ => ⟨next, rfl⟩⟩

/-- The grant a request uses, while its challenge lasts. -/
theorem Authorizes.stamped {r : GrantUseRequest} {receipt : Receipt} {c : Challenge} {at' : Int}
    (ha : Accepted env codec s db) (hauth : Authorizes db r receipt c)
    (hexp : at' ≤ receipt.expiresAt) :
    ∀ g ∈ db.grants ++ [grantUseRow env r at'], g ∈ db.grants ∨ g.usedAt = at' ∧
      ∃ c ∈ db.challenges, c.grantId = g.grantId ∧ at' ≤ c.expiresAt := by
  intro g hg
  rcases List.mem_append.mp hg with hg | hg
  · exact .inl hg
  · rw [List.mem_singleton.mp hg]
    refine .inr ⟨rfl, c, hauth.challenge_mem, hauth.grant_id.symm, ?_⟩
    rw [← ha.receipt_expires hauth.receipt_mem hauth.challenge_mem hauth.challenge_id]
    exact hexp

/-- **Every step is stamped with its time.** -/
theorem step_stamped (ha : Accepted env codec s db) (h : Step env codec s db db') :
    ∃ at' specs, Stamped env db db' at' specs := by
  cases h with
  | @clocked at' ht hs =>
      exact ⟨at', [],
        { tables := ha.tables
          monotone := ht.monotone
          events := (List.append_nil db.events).symm
          occurred := by simp }⟩
  | @pendingExpired c at' hc hst ht hexp hs =>
      obtain ⟨hkept, hfrom⟩ := challengeMoved_from db c.challengeId .pending .expired
      exact ⟨at', [challengeExpiredEvent c at'],
        { tables := ha.tables
          monotone := ht.monotone
          kept := hkept
          challenges := fun x hx => .inl (hfrom x hx)
          occurred := by simp [challengeExpiredEvent] }⟩
  | @receiptExpired c r m intent at' hc hst hfree hr hrc hm hi ht hexp hs =>
      obtain ⟨hkept, hfrom⟩ := challengeMoved_from db c.challengeId .authorized .expired
      exact ⟨at', [receiptExpiredEvent c r intent at'],
        { tables := ha.tables
          monotone := ht.monotone
          kept := hkept
          challenges := fun x hx => .inl (hfrom x hx)
          occurred := by simp [receiptExpiredEvent] }⟩
  | @challengeCreated c at' hi ht hs =>
      refine ⟨at', [challengeCreatedEvent c at'],
        { tables := ha.tables
          monotone := ht.monotone
          kept := fun x hx => ⟨x, List.mem_append_left _ hx, Challenge.Continues.refl x⟩
          challenges := fun x hx => ?_
          occurred := by simp [challengeCreatedEvent] }⟩
      rcases List.mem_append.mp hx with hx | hx
      · exact .inl ⟨x, hx, Challenge.Continues.refl x⟩
      · rw [List.mem_singleton.mp hx]
        exact .inr hi.issued_at
  | @challengeProved c r at' hc hst ht hrc hrat hrok hs =>
      obtain ⟨hkept, hfrom⟩ := challengeMoved_from db c.challengeId .pending .authorized
      refine ⟨at', [challengeAuthorizedEvent c r at'],
        { tables := ha.tables
          monotone := ht.monotone
          kept := hkept
          challenges := fun x hx => .inl (hfrom x hx)
          receipts := fun x hx => ?_
          nonces := fun n hn => ?_
          occurred := by simp [challengeAuthorizedEvent] }⟩
      · rcases List.mem_append.mp hx with hx | hx
        · exact .inl hx
        · rw [List.mem_singleton.mp hx]
          exact .inr ⟨hrat, c, hc, hrc.symm, hrat ▸ hrok.times.2.1⟩
      · rcases List.mem_append.mp hn with hn | hn
        · exact .inl hn
        · rw [List.mem_singleton.mp hn]
          exact .inr rfl
  | @storeEnrolled r receipt c m e at' he hexp ht hs =>
      rw [storeEnrolled, appendEvents_eq]
      exact ⟨at', _,
        { tables := ha.tables
          monotone := ht.monotone
          grants := he.authorizes.stamped ha hexp
          occurred := by simp [useEvent, grantUsedEvent, storeEnrolledEvent] }⟩
  | @cleanupClaimed r receipt c m value x at' hc hexp ht hs =>
      rw [cleanupClaimed, appendEvents_eq]
      refine ⟨at', _,
        { tables := ha.tables
          monotone := ht.monotone
          grants := hc.authorizes.stamped ha hexp
          cleanups := fun y hy d hd => ?_
          occurred := by simp [useEvent, grantUsedEvent, cleanupEvent] }⟩
      obtain ⟨y₀, hy₀, rfl⟩ := mem_update.mp hy
      split at hd <;> exact .inl ⟨y₀, hy₀, hd⟩
  | @cleanupDeleted permit x g at' hd ht hs =>
      rw [cleanupDeleted, appendEvents_eq]
      refine ⟨at', _,
        { tables := ha.tables
          monotone := ht.monotone
          cleanups := fun y hy d hdel => ?_
          occurred := by simp [cleanupEvent] }⟩
      obtain ⟨y₀, hy₀, rfl⟩ := mem_update.mp hy
      split at hdel
      · exact .inr (Option.some.inj hdel).symm
      · exact .inl ⟨y₀, hy₀, hdel⟩
  | @transitionPrepared r receipt c accounts location x at' hp hexp ht hs =>
      rw [transitionPrepared, appendEvents_eq]
      refine ⟨at', _,
        { tables := ha.tables
          monotone := ht.monotone
          grants := hp.authorizes.stamped ha hexp
          transitions := fun t ht => ?_
          cleanups := fun y hy d hd => ?_
          occurred := ?_ }⟩
      · rcases List.mem_append.mp ht with ht | ht
        · exact .inl ⟨t, ht, Transition.StampedFrom.refl t at'⟩
        · rw [List.mem_singleton.mp ht]
          exact .inr ⟨rfl, rfl, rfl, rfl⟩
      · rcases List.mem_append.mp hy with hy | hy
        · exact .inl ⟨y, hy, hd⟩
        · obtain ⟨_, -, rfl⟩ := List.mem_map.mp hy
          cases hd
      · simp [useEvent, grantUsedEvent, prepareStoreEvent, preparedEvent, storeEvent,
          transitionEvent, transitionRow]
  | @configCommitted t o value account a x at' ho hst hs =>
      rw [configCommitted, appendEvents_eq]
      refine ⟨at', _,
        { tables := ha.tables
          monotone := ho.time.monotone
          transitions := fun u hu => .inl ?_
          occurred := by simp [committedEvent, transitionEvent] }⟩
      refine transitions_from ?_ u hu
      exact fun u => ⟨rfl, fun _ h => .inr (Option.some.inj h).symm, fun _ h => .inl h,
        fun _ h => .inl h⟩
  | @transitionFinalized t o value account a x at' ho hst hs =>
      rw [transitionFinalized, appendEvents_eq]
      refine ⟨at', _,
        { tables := ha.tables
          monotone := ho.time.monotone
          transitions := fun u hu => .inl ?_
          cleanups := fun y hy d hd => ?_
          occurred := ?_ }⟩
      · refine transitions_from ?_ u hu
        exact fun u => ⟨rfl, fun _ h => .inl h, fun _ h => .inr (Option.some.inj h).symm,
          fun _ h => .inl h⟩
      · obtain ⟨y₀, hy₀, rfl⟩ := mem_update.mp hy
        split at hd <;> exact .inl ⟨y₀, hy₀, hd⟩
      · simp [finalizedEvent, transitionEvent, storeEvent, cleanupReadyEvent]
  | @transitionAborted t o value account a x accounts at' ho hst hacc hs =>
      rw [transitionAborted, appendEvents_eq]
      refine ⟨at', _,
        { tables := ha.tables
          monotone := ho.time.monotone
          transitions := fun u hu => .inl ?_
          occurred := by simp [transitionEvent, storeEvent] }⟩
      refine transitions_from ?_ u hu
      exact fun u => ⟨rfl, fun _ h => .inl h, fun _ h => .inl h,
        fun _ h => .inr (Option.some.inj h).symm⟩
  | @transitionStopped t o value account a x r at' ho hunsafe hs =>
      rw [transitionStopped, appendEvents_eq]
      refine ⟨at', _,
        { tables := ha.tables
          monotone := ho.time.monotone
          transitions := fun u hu => .inl ?_
          occurred := by simp [transitionEvent, storeEvent] }⟩
      refine transitions_from ?_ u hu
      exact fun u => ⟨rfl, fun _ h => .inl h, fun _ h => .inl h,
        fun _ h => .inr (Option.some.inj h).symm⟩

/-- A stamped change, at some time and with some events. -/
def Stamps (env : Platform) (db db' : Db) : Prop := ∃ at' specs, Stamped env db db' at' specs

theorem loadHome_tables {loaded : LoadedSnapshot} (h : loadHome env codec db = .ok loaded) :
    TablesOk db ∧ loaded.lastObservedAt = db.metaRow.lastObservedAt := by
  simp only [loadHome, bind_ok, ensure_ok, pure_ok] at h
  obtain ⟨_, hs, _, -, _, -, _, -, rfl⟩ := h
  exact ⟨hs.tables, rfl⟩

theorem retryExistingBootstrap_stamps {handle : Handle} {input : BootstrapInput env} {x : Snapshot}
    (h : retryExistingBootstrap codec handle input db = .ok (db', x)) : Stamps env db db' := by
  simp only [retryExistingBootstrap, observeExistingBootstrap, checkedClock, bind_ok, ensure_ok,
    written_ok, pure_ok, Prod.mk.injEq] at h
  obtain ⟨loaded, hl, _, -, _, ⟨at', ⟨_, -, rfl⟩, -, rfl⟩, rfl, -⟩ := h
  obtain ⟨htab, hlast⟩ := loadHome_tables hl
  exact ⟨max loaded.lastObservedAt input.observedAt, [],
    { tables := htab
      monotone := by omega
      events := (List.append_nil db.events).symm
      occurred := by simp }⟩

theorem confirmDb_stamps {handle : Handle} {opened anchor x : Snapshot} {observed : Int}
    (h : confirmDb env codec handle opened anchor observed db = .ok (db', x)) :
    Stamps env db db' := by
  simp only [confirmDb, checkedClock, bind_ok, ensure_ok, written_ok, insertTypedEvent_ok, pure_ok,
    Prod.mk.injEq] at h
  obtain ⟨loaded, hl, _, -, at', ⟨_, -, rfl⟩, _, ⟨-, rfl⟩, _, ⟨-, rfl⟩, rfl, -⟩ := h
  obtain ⟨htab, hlast⟩ := loadHome_tables hl
  exact ⟨max loaded.lastObservedAt observed,
    [confirmedEvent loaded.snapshot (max loaded.lastObservedAt observed)],
    { tables := htab
      monotone := by omega
      occurred := by simp [confirmedEvent, bootstrapEvent] }⟩

/-- **Every operation is a chain of stamped changes.** -/
theorem Operates.stamps (h : Operates env codec db db') :
    Relation.ReflTransGen (Stamps env) db db' := by
  cases h with
  | call s call =>
      rcases @runCall_steps env codec s db call with h | ⟨ha, h⟩
      · rw [h]
      · cases h with
        | one h => exact .single (step_stamped ha h)
        | two h ha₁ h' => exact .tail (.single (step_stamped ha h)) (step_stamped ha₁ h')
  | prepare host handle input h =>
      rcases prepareBootstrap_authority h with rfl | ⟨x, h⟩
      · exact .refl
      · exact .single (retryExistingBootstrap_stamps h)
  | confirm secured handle anchor observed h =>
      rcases confirmAnchor_authority h with rfl | ⟨opened, x, h⟩
      · exact .refl
      · exact .single (confirmDb_stamps h)

theorem Run.stamps (h : Run env codec db db') : Relation.ReflTransGen (Stamps env) db db' := by
  induction h with
  | refl => exact .refl
  | tail _ hop ih => exact ih.trans hop.stamps

/-! ## 3. The high-water mark -/

/-- **No time is later than the last one observed.** -/
structure TimesBounded (db : Db) : Prop where
  issued : ∀ c ∈ db.challenges, c.issuedAt ≤ db.metaRow.lastObservedAt
  verified : ∀ r ∈ db.receipts, r.verifiedAt ≤ db.metaRow.lastObservedAt
  consumed : ∀ n ∈ db.nonces, n.consumedAt ≤ db.metaRow.lastObservedAt
  used : ∀ g ∈ db.grants, g.usedAt ≤ db.metaRow.lastObservedAt
  prepared : ∀ t ∈ db.transitions, t.preparedAt ≤ db.metaRow.lastObservedAt
  committed : ∀ t ∈ db.transitions, ∀ x ∈ t.configCommittedAt, x ≤ db.metaRow.lastObservedAt
  finalized : ∀ t ∈ db.transitions, ∀ x ∈ t.finalizedAt, x ≤ db.metaRow.lastObservedAt
  resolved : ∀ t ∈ db.transitions, ∀ x ∈ t.resolvedAt, x ≤ db.metaRow.lastObservedAt
  deleted : ∀ x ∈ db.cleanups, ∀ d ∈ x.deletedAt, d ≤ db.metaRow.lastObservedAt
  occurred : ∀ e ∈ db.events, e.occurredAt ≤ db.metaRow.lastObservedAt

/-- The log in order: sequences rise up to the high water, and times do not fall. -/
structure LogOrdered (db : Db) : Prop where
  ordered : db.events.Pairwise fun e e' => e.sequence < e'.sequence ∧ e.occurredAt ≤ e'.occurredAt
  sequences : ∀ e ∈ db.events, e.sequence ≤ db.sequenceHighWater

section Stamped

variable {at' : Int} {specs : List EventSpec} (h : Stamped env db db' at' specs)
include h

theorem Stamped.last_le : db.metaRow.lastObservedAt ≤ db'.metaRow.lastObservedAt := by
  rw [h.clock]
  exact h.monotone

/-- A time of the change, or one that was bounded before, is bounded after it. -/
theorem Stamped.le_of {x : Int} (hx : x ≤ db.metaRow.lastObservedAt ∨ x = at') :
    x ≤ db'.metaRow.lastObservedAt := by
  have := h.monotone
  rw [h.clock]
  omega

theorem Stamped.times (ht : TimesBounded db) : TimesBounded db' where
  issued c hc := by
    refine h.le_of ?_
    rcases h.challenges c hc with ⟨c₀, hc₀, _, rfl⟩ | hat
    · exact .inl (ht.issued c₀ hc₀)
    · exact .inr hat
  verified r hr := h.le_of ((h.receipts r hr).imp (ht.verified r) And.left)
  consumed n hn := h.le_of ((h.nonces n hn).imp_left (ht.consumed n))
  used g hg := h.le_of ((h.grants g hg).imp (ht.used g) And.left)
  prepared t hm := by
    refine h.le_of ?_
    rcases h.transitions t hm with ⟨t₀, ht₀, hf⟩ | ⟨hat, -⟩
    · rw [hf.prepared]
      exact .inl (ht.prepared t₀ ht₀)
    · exact .inr hat
  committed t hm x hx := by
    refine h.le_of ?_
    rcases h.transitions t hm with ⟨t₀, ht₀, hf⟩ | ⟨-, hnone, -⟩
    · exact (hf.committed x hx).imp_left (ht.committed t₀ ht₀ x)
    · rw [hnone] at hx
      cases hx
  finalized t hm x hx := by
    refine h.le_of ?_
    rcases h.transitions t hm with ⟨t₀, ht₀, hf⟩ | ⟨-, -, hnone, -⟩
    · exact (hf.finalized x hx).imp_left (ht.finalized t₀ ht₀ x)
    · rw [hnone] at hx
      cases hx
  resolved t hm x hx := by
    refine h.le_of ?_
    rcases h.transitions t hm with ⟨t₀, ht₀, hf⟩ | ⟨-, -, -, hnone⟩
    · exact (hf.resolved x hx).imp_left (ht.resolved t₀ ht₀ x)
    · rw [hnone] at hx
      cases hx
  deleted x hm d hd := by
    refine h.le_of ?_
    rcases h.cleanups x hm d hd with ⟨x₀, hx₀, hd₀⟩ | hat
    · exact .inl (ht.deleted x₀ hx₀ d hd₀)
    · exact .inr hat
  occurred e he := by
    refine h.le_of ?_
    rw [h.events] at he
    rcases List.mem_append.mp he with he | he
    · exact .inl (ht.occurred e he)
    · obtain ⟨spec, hs, -, heq, -⟩ := mem_eventRows he
      rw [heq]
      exact .inr (h.occurred spec hs)

theorem Stamped.ordered (ht : TimesBounded db) (ho : LogOrdered db) : LogOrdered db' := by
  have hnew : ∀ e ∈ eventRows env db.sequenceHighWater specs, e.occurredAt = at' ∧
      db.sequenceHighWater < e.sequence := by
    intro e he
    obtain ⟨spec, hs, -, heq, hlt⟩ := mem_eventRows he
    refine ⟨?_, hlt⟩
    rw [heq]
    exact h.occurred spec hs
  constructor
  · rw [h.events, List.pairwise_append]
    refine ⟨ho.ordered, ?_, fun e he e' he' => ?_⟩
    · have hseq : ((eventRows env db.sequenceHighWater specs).map Event.sequence).Pairwise (· < ·) := by
        rw [sequence_eventRows]
        refine List.pairwise_map.mpr (List.pairwise_lt_range.imp fun hlt => ?_)
        omega
      refine (List.pairwise_map.mp hseq).imp_of_mem fun he he' hlt => ⟨hlt, ?_⟩
      rw [(hnew _ he).1, (hnew _ he').1]
    · have h₁ := ho.sequences e he
      have h₂ := ht.occurred e he
      obtain ⟨h₃, h₄⟩ := hnew e' he'
      have h₅ := h.monotone
      omega
  · intro e he
    rw [h.events] at he
    rw [h.high_water]
    rcases List.mem_append.mp he with he | he
    · have := ho.sequences e he
      omega
    · have hm : e.sequence ∈ (eventRows env db.sequenceHighWater specs).map Event.sequence :=
        List.mem_map_of_mem he
      rw [sequence_eventRows] at hm
      obtain ⟨i, hi, heq⟩ := List.mem_map.mp hm
      have := List.mem_range.mp hi
      omega

/-- **After its expiry a challenge is neither proved nor used for the first time.** -/
theorem Stamped.expired {c : Challenge} (hc : c ∈ db.challenges)
    (hexp : c.expiresAt < db.metaRow.lastObservedAt) :
    (∀ r ∈ db'.receipts, r.challengeId = c.challengeId → r ∈ db.receipts) ∧
      ∀ g ∈ db'.grants, g.grantId = c.grantId → g ∈ db.grants := by
  have hlast := h.monotone
  constructor
  · intro r hr hid
    rcases h.receipts r hr with hold | ⟨-, c₀, hc₀, hid₀, hlive⟩
    · exact hold
    · obtain rfl : c₀ = c := eq_of_key_eq h.tables.challenges.id_unique hc₀ hc (hid₀.trans hid)
      omega
  · intro g hg hid
    rcases h.grants g hg with hold | ⟨-, c₀, hc₀, hid₀, hlive⟩
    · exact hold
    · obtain rfl : c₀ = c := eq_of_key_eq h.tables.challenges.grant_unique hc₀ hc (hid₀.trans hid)
      omega

end Stamped

theorem stamps_times (h : Relation.ReflTransGen (Stamps env) db db') (ht : TimesBounded db)
    (ho : LogOrdered db) : TimesBounded db' ∧ LogOrdered db' ∧
      db.metaRow.lastObservedAt ≤ db'.metaRow.lastObservedAt := by
  induction h with
  | refl => exact ⟨ht, ho, Int.le_refl _⟩
  | tail _ hs ih =>
      obtain ⟨at', specs, hs⟩ := hs
      exact ⟨hs.times ih.1, hs.ordered ih.1 ih.2.1, ih.2.2.trans hs.last_le⟩

/-- The same challenge, in any state. -/
theorem stamps_kept (h : Relation.ReflTransGen (Stamps env) db db') {c : Challenge}
    (hc : c ∈ db.challenges) : ∃ c' ∈ db'.challenges, c.Continues c' := by
  induction h with
  | refl => exact ⟨c, hc, Challenge.Continues.refl c⟩
  | tail _ hs ih =>
      obtain ⟨at', specs, hs⟩ := hs
      obtain ⟨c₁, hc₁, _, rfl⟩ := ih
      obtain ⟨c₂, hc₂, state, rfl⟩ := hs.kept _ hc₁
      exact ⟨_, hc₂, state, rfl⟩

theorem stamps_expired (h : Relation.ReflTransGen (Stamps env) db db') {c : Challenge}
    (hc : c ∈ db.challenges) (hexp : c.expiresAt < db.metaRow.lastObservedAt) :
    db.metaRow.lastObservedAt ≤ db'.metaRow.lastObservedAt ∧
      (∀ r ∈ db'.receipts, r.challengeId = c.challengeId → r ∈ db.receipts) ∧
      ∀ g ∈ db'.grants, g.grantId = c.grantId → g ∈ db.grants := by
  induction h with
  | refl => exact ⟨Int.le_refl _, fun r hr _ => hr, fun g hg _ => hg⟩
  | tail hrun hs ih =>
      obtain ⟨at', specs, hs⟩ := hs
      obtain ⟨hle, hr, hg⟩ := ih
      obtain ⟨c₁, hc₁, _, rfl⟩ := stamps_kept hrun hc
      obtain ⟨hr', hg'⟩ := hs.expired hc₁ (lt_of_lt_of_le hexp hle)
      exact ⟨hle.trans hs.last_le, fun r hm hid => hr r (hr' r hm hid) hid,
        fun g hm hid => hg g (hg' g hm hid) hid⟩

theorem Bootstraps.times (h : Bootstraps env db) : TimesBounded db ∧ LogOrdered db := by
  obtain ⟨host, handle, input, s, -, h⟩ := h
  simp only [firstBootstrap, bind_ok, written_ok, pure_ok, Prod.mk.injEq] at h
  obtain ⟨s', -, _, ⟨-, rfl⟩, rfl, rfl⟩ := h
  constructor
  · constructor <;> simp [bootstrapRows, createdEvent, bootstrapEvent, EventSpec.row]
  · constructor <;> simp [bootstrapRows, EventSpec.row]

/-- **The clock is a high-water mark.**  Over every run of operations from the first bootstrap of a
    database, with whatever times the callers present: the last observed time never decreases; no
    stored time is later than it; the times of the events do not decrease along the log; and once it
    is past the expiry of a challenge, no proof of the challenge and no use of its grant is recorded
    that was not there. -/
theorem clock_high_water {start db db' : Db} (h0 : Bootstraps env start)
    (h : Run env codec start db) (h' : Run env codec db db') :
    db.metaRow.lastObservedAt ≤ db'.metaRow.lastObservedAt ∧ TimesBounded db' ∧
      (db'.events.Pairwise fun e e' => e.sequence < e'.sequence ∧ e.occurredAt ≤ e'.occurredAt) ∧
      ∀ c ∈ db.challenges, c.expiresAt < db.metaRow.lastObservedAt →
        (∀ r ∈ db'.receipts, r.challengeId = c.challengeId → r ∈ db.receipts) ∧
        ∀ g ∈ db'.grants, g.grantId = c.grantId → g ∈ db.grants := by
  obtain ⟨ht, ho⟩ := h0.times
  obtain ⟨ht, ho, -⟩ := stamps_times (Run.stamps h) ht ho
  obtain ⟨ht', ho', hle⟩ := stamps_times (Run.stamps h') ht ho
  exact ⟨hle, ht', ho'.ordered, fun c hc hexp => (stamps_expired (Run.stamps h') hc hexp).2⟩

/-! ## 5. A run -/

namespace Sample

/-- A codec that knows one manifest. -/
def oneCodec : ManifestCodec where
  encode c p := if (c, p) = enrollment then .ok [1] else .error recoveryError
  decode b := if b = [1] then .ok enrollment else .error recoveryError

def manifest : ActionManifest := ⟨enrollment.1, enrollment.2, [1], platform.sha256 [1]⟩

/-- A challenge for the enrollment, with drawn identities. -/
def issue (draw : Nat) (observed expires : Int) : Call :=
  .createChallenge (some (uuid draw, digest draw)) ⟨manifest, observed, expires⟩

/-- The state after a call. -/
def after (db : Db) (call : Call) : Db := (runCall platform oneCodec realm db call).1

/-- A challenge issued at 100 and one issued at 1001, after the first has expired. -/
def reissued : Db := after (after ready (issue 50 100 1000)) (issue 51 1001 2000)

/-- The proof of a challenge of that state, presented at 990. -/
def late (c : Challenge) : Call := .verifyProof (some (uuid 60)) ⟨proofOf c, 990⟩

theorem bootstraps : Bootstraps platform (bootstrapRows platform realm 5) := by
  refine ⟨⟨some (digest 10, uuid 11), true⟩, ⟨⟨none, digest 1⟩, .unconfigured⟩, input 5, realm, ?_, ?_⟩
  · decide
  · simp only [firstBootstrap, bind_ok, written_ok, pure_ok, Prod.mk.injEq]
    exact ⟨realm, rfl, _, ⟨by decide +kernel, rfl⟩, rfl, rfl⟩

/-- The run that confirms the home. -/
theorem confirmed_run : Run platform oneCodec (bootstrapRows platform realm 5) ready := by
  refine .single (.confirm true ⟨⟨some realm, digest 1⟩, .confirmationRequired realm⟩ realm 6 ?_)
  decide +kernel

theorem operates_after (db : Db) (call : Call) : Operates platform oneCodec db (after db call) :=
  .call realm call

theorem reissued_run : Run platform oneCodec (bootstrapRows platform realm 5) reissued :=
  (confirmed_run.tail (operates_after _ _)).tail (operates_after _ _)

/-- At 990 the proof of the first challenge is within the tolerance and before its expiry; it is not
    accepted, and the clock stays at 1001. -/
theorem late_proof_of_a_run :
    ∃ c ∈ reissued.challenges, (c.expiresAt = 1000 ∧ reissued.metaRow.lastObservedAt = 1001 ∧
      (runCall platform oneCodec realm reissued (late c)).2 = some expiredError) ∧
      1001 ≤ (after reissued (late c)).metaRow.lastObservedAt ∧
      TimesBounded (after reissued (late c)) ∧
      ∀ r ∈ (after reissued (late c)).receipts, r.challengeId = c.challengeId →
        r ∈ reissued.receipts := by
  have hfirst : ∃ c ∈ reissued.challenges, c.expiresAt = 1000 ∧
      reissued.metaRow.lastObservedAt = 1001 ∧
      (runCall platform oneCodec realm reissued (late c)).2 = some expiredError := by decide +kernel
  obtain ⟨c, hc, hexp, hlast, hrefused⟩ := hfirst
  obtain ⟨hle, ht, -, hkept⟩ := clock_high_water bootstraps reissued_run
    (.single (operates_after reissued (late c)))
  refine ⟨c, hc, ⟨hexp, hlast, hrefused⟩, hlast ▸ hle, ht, ?_⟩
  exact (hkept c hc (by omega)).1

end Sample

end Kirje.Authority
