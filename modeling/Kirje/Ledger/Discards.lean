import Kirje.Ledger.Trail

/-
  File:      Kirje/Ledger/Discards.lean
  Subject:   Processes that update and discard one draft.

  Both calls read the draft in one transaction and write it in another, and the
  guard inside the write looks at the status of the row, which is `planned` for
  every draft; only the payload says whether the draft is discarded.  So a run
  decides what becomes of the draft (`DraftSystem.step`):

  * **`discard_is_terminal`**: if no discard commits between the read and the write
    of an update, a discarded draft stays discarded.
  * **`discard_keeps_content`**: if no update commits between the read and the write
    of a discard, the discard changes the status and the time only.
  * `updated_after_discard`, `discarded_over_update`: without that, neither holds.
-/

namespace Kirje

open Base

/-! ## 1. Processes -/

/-- Where a process is: outside a call, in `update_draft` after its read, in `discard_draft` before
    and after the read of the ledger.  `seen` is how many writes of the other kind had been
    committed at that read. -/
inductive DraftPhase where
  | idle
  | composed (draft : Draft) (seen : Nat)
  | opened
  | discarding (discarded : Draft) (now : DateTime) (seen : Nat)
  deriving DecidableEq

/-- The store, the processes, and how many updates and discards have been committed. -/
structure DraftSystem where
  ledger : Ledger
  phase : Nat → DraftPhase
  updates : Nat
  discards : Nat

def DraftSystem.goto (s : DraftSystem) (p : Nat) (ph : DraftPhase) : DraftSystem :=
  { s with phase := fun q => if q = p then ph else s.phase q }

/-- The transactions of both calls; a process may also stop anywhere. -/
inductive DraftMove where
  | readUpdate (p : Nat) (account : Result MailAccountConfig) (input : DraftInput)
      (clock now : DateTime)
  | writeUpdate (p : Nat)
  | readDraft (p : Nat) (clock : DateTime)
  | readDiscard (p : Nat) (clock now : DateTime)
  | writeDiscard (p : Nat)
  | stop (p : Nat)

/-- One transaction of one process, on the draft `id`. -/
def DraftSystem.step (env : External) (json : Json Draft) (id : String) (s : DraftSystem) :
    DraftMove → DraftSystem
  | .readUpdate p account input clock now =>
      match s.phase p with
      | .idle =>
          match composeUpdate env json account id input clock now s.ledger with
          | (.ok draft, l) => { s with ledger := l }.goto p (.composed draft s.discards)
          | (.error _, l) => { s with ledger := l }
      | _ => s
  | .writeUpdate p =>
      match s.phase p with
      | .composed draft _ =>
          match updateDraft env json draft s.ledger with
          | .ok (_, l) => { s with ledger := l, updates := s.updates + 1 }.goto p .idle
          | .error _ => s.goto p .idle
      | _ => s
  | .readDraft p clock =>
      match s.phase p with
      | .idle =>
          match runtimeDraft env json id clock s.ledger with
          | (.ok _, l) => { s with ledger := l }.goto p .opened
          | (.error _, l) => { s with ledger := l }
      | _ => s
  | .readDiscard p clock now =>
      match s.phase p with
      | .opened =>
          match readDiscard env json id clock now s.ledger with
          | (.ok discarded, l) => { s with ledger := l }.goto p (.discarding discarded now s.updates)
          | (.error _, l) => { s with ledger := l }.goto p .idle
      | _ => s
  | .writeDiscard p =>
      match s.phase p with
      | .discarding discarded now _ =>
          match writeDiscard env json id discarded now s.ledger with
          | .ok (_, l) => { s with ledger := l, discards := s.discards + 1 }.goto p .idle
          | .error _ => s.goto p .idle
      | _ => s
  | .stop p => s.goto p .idle

/-- The store as `create_draft` leaves it, and no process in a call. -/
def DraftSystem.Initial (env : External) (json : Json Draft) (id : String) (s : DraftSystem) : Prop :=
  (∃ l draft clock, LedgerRun env json (fun _ c => c.EntersNoDraft) l ∧ draft.id = id ∧
    createDraft env json draft clock l = (.ok draft, s.ledger)) ∧
    (∀ p, s.phase p = .idle) ∧ s.updates = 0 ∧ s.discards = 0

/-- The states that moves with a property lead to. -/
def DraftRun (env : External) (json : Json Draft) (id : String)
    (P : DraftSystem → DraftMove → Prop) : DraftSystem → Prop :=
  Reaches (DraftSystem.Initial env json id) fun s s' => ∃ m, P s m ∧ s.step env json id m = s'

/-- No discard has been committed since the read of an update about to be written. -/
def DraftSystem.UpdateFresh (s : DraftSystem) : DraftMove → Prop
  | .writeUpdate p => ∀ draft seen, s.phase p = .composed draft seen → seen = s.discards
  | _ => True

/-- No update has been committed since the read of a discard about to be written. -/
def DraftSystem.DiscardFresh (s : DraftSystem) : DraftMove → Prop
  | .writeDiscard p => ∀ discarded now seen,
      s.phase p = .discarding discarded now seen → seen = s.updates
  | _ => True

/-- The draft stored under an identifier. -/
def storedDraft (json : Json Draft) (l : Ledger) (id : String) : Option Draft :=
  (l.operations.find? (·.id = id)).bind fun r =>
    if r.kind = "draft" then json.decode r.payloadJson else none

section Runs

variable {env : External} {json : Json Draft} {id : String}

/-! ## 2. What the transactions do to the stored draft -/

theorem stored_iff {l : Ledger} (hd : l.Distinct) {d : Draft} :
    storedDraft json l id = some d ↔ ∃ r ∈ l.operations, r.id = id ∧ r.kind = "draft" ∧
      json.decode r.payloadJson = some d := by
  unfold storedDraft
  rw [Option.bind_eq_some_iff]
  constructor
  · rintro ⟨r, hf, h⟩
    obtain ⟨hr, hid⟩ := (find_key_iff hd).mp hf
    split at h
    · next hk => exact ⟨r, hr, hid, hk, h⟩
    · cases h
  · rintro ⟨r, hr, hid, hk, h⟩
    exact ⟨r, (find_key_iff hd).mpr ⟨hr, hid⟩, by rw [if_pos hk, h]⟩

/-- The ledger is in order and stores the draft. -/
structure Holds (json : Json Draft) (id : String) (l : Ledger) (d : Draft) : Prop where
  distinct : l.Distinct
  drafts : l.DraftsOk
  stored : storedDraft json l id = some d

/-- The row of the stored draft. -/
theorem Holds.row {l : Ledger} {d : Draft} (h : Holds json id l d) :
    ∃ r ∈ l.operations, r.id = id ∧ r.kind = "draft" ∧ r.status = .planned ∧
      r.expiresAt = none ∧ json.decode r.payloadJson = some d := by
  obtain ⟨r, hr, hid, hk, hdec⟩ := (stored_iff h.distinct).mp h.stored
  obtain ⟨hst, hx⟩ := h.drafts r hr hk
  exact ⟨r, hr, hid, hk, hst, hx, hdec⟩

/-- Reconciliation leaves the stored draft alone. -/
theorem Holds.reconcile {l l' : Ledger} {d : Draft} {clock : DateTime} (h : Holds json id l d)
    (hrec : reconcileOperations env clock l = .ok l') : Holds json id l' d := by
  have hadv : Advances LastingDraft none l l' := reconcile_advances h.distinct hrec
  obtain ⟨r, hr, hid, hk, hst, hx, hdec⟩ := h.row
  obtain ⟨errorJson, hrows⟩ := reconcile_rows h.distinct hrec
  have hself : reconciledRow env clock errorJson r = r :=
    reconciledRow_self errorJson (by rw [hst]; decide) (by simp [OperationRow.due, hx])
  have hr' : r ∈ l'.operations := by
    rw [hrows]
    exact List.mem_map.mpr ⟨r, hr, hself⟩
  have hd' := hadv.distinct h.distinct
  exact ⟨hd', hadv.draftsOk h.drafts, (stored_iff hd').mpr ⟨r, hr', hid, hk, hdec⟩⟩

theorem Holds.getDraft {l : Ledger} {d : Draft} {clock : DateTime} (h : Holds json id l d)
    (key : String) : Holds json id (getDraft env json key clock l).2 d := by
  refine projected_invariant (P := fun l' => Holds json id l' d) h fun _ l' hget => ?_
  simp only [getOperation, bind_ok, pure_ok, Prod.mk.injEq] at hget
  obtain ⟨_, -, _, hrec, _, -, -, rfl⟩ := hget
  exact h.reconcile hrec

/-- What a read returns is the stored draft. -/
theorem Holds.read_eq {l l' : Ledger} {d d' : Draft} {clock : DateTime} (h : Holds json id l d)
    (hget : Kirje.getDraft env json id clock l = (.ok (some d'), l')) : d' = d := by
  obtain ⟨hrec, r, hr, hid, hk, hdec⟩ := getDraft_some hget
  have h' := h.reconcile hrec
  exact Option.some.inj (((stored_iff h'.distinct).mpr ⟨r, hr, hid, hk, hdec⟩).symm.trans h'.stored)

theorem Holds.updateDraft {l l' : Ledger} {d draft draft' : Draft} (hjson : json.Faithful)
    (h : Holds json draft.id l d)
    (hup : updateDraft env json draft l = .ok (draft', l')) : Holds json draft.id l' draft := by
  have hadv : Advance LastingDraft (some draft.id) l l' := updateDraft_advance h.distinct hup
  have hd' := hadv.distinct h.distinct
  refine ⟨hd', hadv.draftsOk h.drafts, (stored_iff hd').mpr ?_⟩
  obtain ⟨r, hr, hid, hk, hst, -, -⟩ := h.row
  simp only [Kirje.updateDraft, Outbox.digestJson, bind_ok, pure_ok, ensure_ok, orRefuse_ok,
    Prod.mk.injEq] at hup
  obtain ⟨_, -, _, -, _, ⟨payload, henc, rfl⟩, _, -, _, -, _, -, _, -, _, -, -, rfl⟩ := hup
  refine ⟨_, mem_update.mpr ⟨r, hr, rfl⟩, ?_⟩
  rw [if_pos (draftRow_iff.mpr ⟨hid, hk, hst⟩)]
  exact ⟨hid, hk, hjson _ _ henc⟩

theorem Holds.writeDiscard {l l' : Ledger} {d discarded draft' : Draft} {now : DateTime}
    (hjson : json.Faithful) (h : Holds json id l d)
    (hw : writeDiscard env json id discarded now l = .ok (draft', l')) :
    Holds json id l' discarded := by
  obtain ⟨r, hr, hid, hk, hst, -, -⟩ := h.row
  have hadv : Advance LastingDraft (some id) l l' :=
    writeDiscard_advance h.distinct hr hid ⟨hk, hst⟩ hw
  have hd' := hadv.distinct h.distinct
  refine ⟨hd', hadv.draftsOk h.drafts, (stored_iff hd').mpr ?_⟩
  simp only [Kirje.writeDiscard, Outbox.digestJson, bind_ok, pure_ok, orRefuse_ok,
    Prod.mk.injEq] at hw
  obtain ⟨_, ⟨payload, henc, rfl⟩, _, -, _, -, -, rfl⟩ := hw
  refine ⟨_, mem_update.mpr ⟨r, hr, rfl⟩, ?_⟩
  rw [if_pos (draftRow_iff.mpr ⟨hid, hk, hst⟩)]
  exact ⟨hid, hk, hjson _ _ henc⟩

/-! ## 3. What a move does -/

/-- What a process knows after a read that found the draft `d`. -/
def ReadOf (id : String) (d : Draft) (updates discards : Nat) : DraftPhase → Prop
  | .composed draft seen => draft.id = id ∧ d.status = .draft ∧ seen = discards
  | .discarding discarded now seen =>
      discarded = { d with status := .discarded, updatedAt := now } ∧ seen = updates
  | _ => True

/-- **The effects of a move**: a read, or the write of an update or of a discard. -/
inductive DraftEffect (json : Json Draft) (id : String) (s : DraftSystem) (d : Draft) :
    DraftMove → DraftSystem → Prop where
  | read (m : DraftMove) (l : Ledger) (ph : Nat → DraftPhase) (hl : Holds json id l d)
      (hph : ∀ q, ph q = s.phase q ∨ ReadOf id d s.updates s.discards (ph q)) :
      DraftEffect json id s d m ⟨l, ph, s.updates, s.discards⟩
  | update (p : Nat) (draft : Draft) (seen : Nat) (l : Ledger)
      (hp : s.phase p = .composed draft seen) (hl : Holds json id l draft) :
      DraftEffect json id s d (.writeUpdate p)
        ({ s with ledger := l, updates := s.updates + 1 }.goto p .idle)
  | discard (p : Nat) (discarded : Draft) (now : DateTime) (seen : Nat) (l : Ledger)
      (hp : s.phase p = .discarding discarded now seen) (hl : Holds json id l discarded) :
      DraftEffect json id s d (.writeDiscard p)
        ({ s with ledger := l, discards := s.discards + 1 }.goto p .idle)

variable {s s' : DraftSystem} {d : Draft} {m : DraftMove}

/-- A move of one process that only reads. -/
theorem DraftEffect.goto {l : Ledger} {p : Nat} {ph : DraftPhase} (hl : Holds json id l d)
    (hph : ReadOf id d s.updates s.discards ph) :
    DraftEffect json id s d m ({ s with ledger := l }.goto p ph) := by
  refine .read m l _ hl fun q => ?_
  by_cases hq : q = p
  · right
    rw [if_pos hq]
    exact hph
  · left
    rw [if_neg hq]

theorem DraftEffect.stay {l : Ledger} (hl : Holds json id l d) :
    DraftEffect json id s d m { s with ledger := l } :=
  .read m l _ hl fun _ => Or.inl rfl

theorem Holds.runtimeDraft {l : Ledger} {clock : DateTime} (h : Holds json id l d) (key : String) :
    Holds json id (runtimeDraft env json key clock l).2 d :=
  h.getDraft key

theorem Holds.composeUpdate {l l' : Ledger} {account : Result MailAccountConfig} {input : DraftInput}
    {clock now : DateTime} {r : Result Draft} (h : Holds json id l d) (hid : d.id = id)
    (hc : composeUpdate env json account id input clock now l = (r, l')) :
    Holds json id l' d ∧ ∀ draft, r = .ok draft → draft.id = id ∧ d.status = .draft := by
  cases account with
  | error e =>
      obtain ⟨rfl, rfl⟩ := Prod.mk.inj hc
      exact ⟨h, fun _ hr => by cases hr⟩
  | ok account =>
      obtain ⟨hr, rfl⟩ := Prod.mk.inj hc
      refine ⟨h.runtimeDraft id, fun draft he => ?_⟩
      rw [← hr] at he
      simp only [bind_ok, ensure_ok] at he
      obtain ⟨existing, hread, _, -, hup⟩ := he
      obtain ⟨_, hget, hsome⟩ := hread
      obtain rfl := orRefuse_ok.mp hsome
      obtain rfl := h.read_eq (Prod.ext hget rfl)
      obtain ⟨hst, hid', -, -⟩ := Draft.update_ok hup
      exact ⟨hid'.trans hid, hst⟩

theorem Holds.readDiscard {l l' : Ledger} {clock now : DateTime} {r : Result Draft}
    (h : Holds json id l d) (hr : readDiscard env json id clock now l = (r, l')) :
    Holds json id l' d ∧ ∀ discarded, r = .ok discarded →
      discarded = { d with status := .discarded, updatedAt := now } := by
  refine ⟨?_, fun discarded he => ?_⟩
  · have hl' : l' = (Kirje.getDraft env json id clock l).2 := by
      rw [← show (Kirje.readDiscard env json id clock now l).2 =
        (Kirje.getDraft env json id clock l).2 from rfl, hr]
    exact hl' ▸ h.getDraft id
  · subst he
    obtain ⟨current, hget, -, rfl⟩ := readDiscard_some hr
    obtain rfl := h.read_eq hget
    rfl

/-- **Every move has one of these effects.** -/
theorem step_effect (hjson : json.Faithful) (h : Holds json id s.ledger d) (hid : d.id = id)
    (hcomposed : ∀ p draft seen, s.phase p = .composed draft seen → draft.id = id) (m : DraftMove) :
    DraftEffect json id s d m (s.step env json id m) := by
  cases m with
  | readUpdate p account input clock now =>
      simp only [DraftSystem.step]
      split
      · generalize hc : composeUpdate env json account id input clock now s.ledger = r
        obtain ⟨r, l⟩ := r
        obtain ⟨hl, hok⟩ := h.composeUpdate hid hc
        cases r with
        | error e => exact .stay hl
        | ok draft =>
            obtain ⟨hi, hst⟩ := hok draft rfl
            exact .goto hl ⟨hi, hst, rfl⟩
      · exact .stay h
  | writeUpdate p =>
      simp only [DraftSystem.step]
      split
      · next draft seen hp =>
          obtain rfl := hcomposed p draft seen hp
          split
          · next l hup => exact .update p draft seen l hp (h.updateDraft hjson hup)
          · exact .goto h trivial
      · exact .stay h
  | readDraft p clock =>
      simp only [DraftSystem.step]
      split
      · generalize hc : runtimeDraft env json id clock s.ledger = r
        have hl : Holds json id r.2 d := hc ▸ h.runtimeDraft id
        obtain ⟨r, l⟩ := r
        cases r with
        | error e => exact .stay hl
        | ok _ => exact .goto hl trivial
      · exact .stay h
  | readDiscard p clock now =>
      simp only [DraftSystem.step]
      split
      · generalize hc : readDiscard env json id clock now s.ledger = r
        obtain ⟨r, l⟩ := r
        obtain ⟨hl, hok⟩ := h.readDiscard hc
        cases r with
        | error e => exact .goto hl trivial
        | ok discarded => exact .goto hl ⟨hok discarded rfl, rfl⟩
      · exact .stay h
  | writeDiscard p =>
      simp only [DraftSystem.step]
      split
      · next discarded now seen hp =>
          split
          · next l hw => exact .discard p discarded now seen l hp (h.writeDiscard hjson hw)
          · exact .goto h trivial
      · exact .stay h
  | stop p => exact .goto h trivial

/-! ## 4. Runs -/

/-- The ledger is in order, and what processes are about to write belongs to the draft. -/
structure DraftInv (json : Json Draft) (id : String) (s : DraftSystem) (d : Draft) : Prop where
  holds : Holds json id s.ledger d
  stored : d.id = id
  composed : ∀ p draft seen, s.phase p = .composed draft seen → draft.id = id
  discarding : ∀ p discarded now seen, s.phase p = .discarding discarded now seen →
    discarded.id = id ∧ discarded.status = .discarded

theorem goto_cases {p q : Nat} {ph : DraftPhase} {Q : DraftPhase → Prop} (hph : Q ph)
    (hs : Q (s.phase q)) : Q ((s.goto p ph).phase q) := by
  unfold DraftSystem.goto
  dsimp only
  split
  · exact hph
  · exact hs

/-- What every state of every run keeps. -/
theorem DraftEffect.inv (h : DraftEffect json id s d m s') (hinv : DraftInv json id s d) :
    ∃ d', DraftInv json id s' d' := by
  cases h with
  | read m l ph hl hph =>
      refine ⟨d, hl, hinv.stored, fun p draft seen hp => ?_, fun p discarded now seen hp => ?_⟩
      · rcases hph p with he | hr
        · exact hinv.composed p draft seen (he ▸ hp)
        · rw [show ph p = _ from hp] at hr
          exact hr.1
      · rcases hph p with he | hr
        · exact hinv.discarding p discarded now seen (he ▸ hp)
        · rw [show ph p = _ from hp] at hr
          rw [hr.1]
          exact ⟨hinv.stored, rfl⟩
  | update p draft seen l hp hl =>
      refine ⟨draft, hl, hinv.composed p draft seen hp, fun q => ?_, fun q => ?_⟩
      · exact goto_cases (Q := fun ph => ∀ draft seen, ph = .composed draft seen → draft.id = id)
          (by simp) (hinv.composed q)
      · exact goto_cases (Q := fun ph => ∀ discarded now seen, ph = .discarding discarded now seen →
          discarded.id = id ∧ discarded.status = .discarded) (by simp) (hinv.discarding q)
  | discard p discarded now seen l hp hl =>
      refine ⟨discarded, hl, (hinv.discarding p discarded now seen hp).1, fun q => ?_, fun q => ?_⟩
      · exact goto_cases (Q := fun ph => ∀ draft seen, ph = .composed draft seen → draft.id = id)
          (by simp) (hinv.composed q)
      · exact goto_cases (Q := fun ph => ∀ discarded now seen, ph = .discarding discarded now seen →
          discarded.id = id ∧ discarded.status = .discarded) (by simp) (hinv.discarding q)

/-- What `create_draft` leaves. -/
theorem Holds.createDraft {l l' : Ledger} {clock : DateTime} (hjson : json.Faithful)
    (hl : LedgerRun env json (fun _ c => c.EntersNoDraft) l)
    (hc : createDraft env json d clock l = (.ok d, l')) : Holds json d.id l' d := by
  have hrun : LedgerRun env json (fun _ c => c.EntersNoDraft) l' :=
    hl.next ⟨.createDraft d clock, trivial, by rw [LedgerCall.run, hc]⟩
  obtain ⟨hok, hdrafts⟩ := hrun.rowsOk
  refine ⟨hok.distinct, hdrafts, (stored_iff hok.distinct).mpr ?_⟩
  unfold Kirje.createDraft at hc
  split at hc
  · cases hc
  · split at hc
    · cases hc
    · split at hc
      · cases hc
      · unfold projected at hc
        split at hc
        · next a l₂ hins =>
            obtain ⟨-, rfl⟩ := Prod.mk.inj hc
            simp only [insertDraft, Outbox.digestJson, bind_ok, orRefuse_ok, pure_ok,
              Prod.mk.injEq] at hins
            obtain ⟨_, ⟨payload, henc, rfl⟩, ⟨_, _⟩, hcreate, -, rfl⟩ := hins
            obtain ⟨-, row, hrows, hid, hk, -, hp, -⟩ := create_spec hcreate
            refine ⟨row, by rw [hrows]; simp, hid, hk, ?_⟩
            rw [hp]
            exact hjson _ _ henc
        · cases hc

theorem DraftSystem.Initial.inv (hjson : json.Faithful) (h : s.Initial env json id) :
    ∃ d, DraftInv json id s d := by
  obtain ⟨⟨l, d, clock, hl, rfl, hc⟩, hidle, -, -⟩ := h
  refine ⟨d, .createDraft hjson hl hc, rfl, fun p _ _ hp => ?_, fun p _ _ _ hp => ?_⟩
  · cases (hidle p).symm.trans hp
  · cases (hidle p).symm.trans hp

/-- Once a discard has been committed the draft is discarded, and every update still to be written
    was read before the first. -/
structure Terminal (json : Json Draft) (id : String) (s : DraftSystem) (d : Draft) : Prop where
  inv : DraftInv json id s d
  discarded : 0 < s.discards → d.status = .discarded
  first : ∀ p draft seen, s.phase p = .composed draft seen → seen = 0

theorem Terminal.step (hjson : json.Faithful) (h : Terminal json id s d) (hm : s.UpdateFresh m) :
    ∃ d', Terminal json id (s.step env json id m) d' := by
  have heff : DraftEffect json id s d m (s.step env json id m) :=
    step_effect hjson h.inv.holds h.inv.stored h.inv.composed m
  obtain ⟨d', hinv⟩ := heff.inv h.inv
  generalize s.step env json id m = s' at heff hinv
  cases heff with
  | read m l ph hl hph =>
      obtain rfl : d' = d := Option.some.inj (hinv.holds.stored.symm.trans hl.stored)
      refine ⟨d', hinv, h.discarded, fun p draft seen hp => ?_⟩
      rcases hph p with he | hr
      · exact h.first p draft seen (he ▸ hp)
      · rw [show ph p = _ from hp] at hr
        obtain ⟨-, hst, rfl⟩ := hr
        by_contra hne
        have := h.discarded (Nat.pos_of_ne_zero hne)
        rw [hst] at this
        cases this
  | update p draft seen l hp hl =>
      refine ⟨d', hinv, fun hpos => ?_, fun q => ?_⟩
      · have hseen : seen = s.discards := hm draft seen hp
        have hzero := h.first p draft seen hp
        exact absurd hpos (by show ¬0 < s.discards; omega)
      · exact goto_cases (Q := fun ph => ∀ draft seen, ph = .composed draft seen → seen = 0)
          (by simp) (h.first q)
  | discard p discarded now seen l hp hl =>
      obtain rfl : d' = discarded := Option.some.inj (hinv.holds.stored.symm.trans hl.stored)
      refine ⟨d', hinv, fun _ => (h.inv.discarding p d' now seen hp).2, fun q => ?_⟩
      exact goto_cases (Q := fun ph => ∀ draft seen, ph = .composed draft seen → seen = 0)
        (by simp) (h.first q)

/-- Every discard about to be written is of the stored draft, as long as no update came after its
    read. -/
structure Current (json : Json Draft) (id : String) (s : DraftSystem) (d : Draft) : Prop where
  inv : DraftInv json id s d
  current : ∀ p discarded now seen, s.phase p = .discarding discarded now seen →
    seen ≤ s.updates ∧
      (seen = s.updates → discarded = { d with status := .discarded, updatedAt := now })

theorem Current.step (hjson : json.Faithful) (h : Current json id s d) (hm : s.DiscardFresh m) :
    ∃ d', Current json id (s.step env json id m) d' := by
  have heff : DraftEffect json id s d m (s.step env json id m) :=
    step_effect hjson h.inv.holds h.inv.stored h.inv.composed m
  obtain ⟨d', hinv⟩ := heff.inv h.inv
  generalize s.step env json id m = s' at heff hinv
  cases heff with
  | read m l ph hl hph =>
      obtain rfl : d' = d := Option.some.inj (hinv.holds.stored.symm.trans hl.stored)
      refine ⟨d', hinv, fun p discarded now seen hp => ?_⟩
      rcases hph p with he | hr
      · exact h.current p discarded now seen (he ▸ hp)
      · rw [show ph p = _ from hp] at hr
        exact ⟨Nat.le_of_eq hr.2, fun _ => hr.1⟩
  | update p draft seen l hp hl =>
      refine ⟨d', hinv, fun q => ?_⟩
      refine goto_cases (Q := fun ph => ∀ discarded now seen, ph = .discarding discarded now seen →
        seen ≤ s.updates + 1 ∧ (seen = s.updates + 1 →
          discarded = { d' with status := .discarded, updatedAt := now })) (by simp) ?_
      intro discarded now seen hq
      have hle := (h.current q discarded now seen hq).1
      exact ⟨by omega, fun he => by omega⟩
  | discard p discarded now seen l hp hl =>
      obtain rfl : d' = discarded := Option.some.inj (hinv.holds.stored.symm.trans hl.stored)
      have hfresh : seen = s.updates := hm d' now seen hp
      have hsame := (h.current p d' now seen hp).2 hfresh
      refine ⟨d', hinv, fun q => ?_⟩
      refine goto_cases (Q := fun ph => ∀ discarded now seen, ph = .discarding discarded now seen →
        seen ≤ s.updates ∧ (seen = s.updates →
          discarded = { d' with status := .discarded, updatedAt := now })) (by simp) ?_
      intro discarded now' seen' hq
      obtain ⟨hle, heq⟩ := h.current q discarded now' seen' hq
      refine ⟨hle, fun he => ?_⟩
      rw [heq he, hsame]

theorem DraftRun.terminal (hjson : json.Faithful)
    (h : DraftRun env json id (fun s m => s.UpdateFresh m) s) : ∃ d, Terminal json id s d := by
  refine Reaches.invariant (P := fun s => ∃ d, Terminal json id s d) ?_ ?_ h
  · intro s hs
    obtain ⟨d, hinv⟩ := hs.inv hjson
    refine ⟨d, hinv, fun hpos => absurd hpos (by rw [hs.2.2.2]; decide), fun p _ _ hp => ?_⟩
    cases (hs.2.1 p).symm.trans hp
  · rintro s _ ⟨d, hd⟩ ⟨m, hm, rfl⟩
    exact hd.step hjson hm

theorem DraftRun.current (hjson : json.Faithful)
    (h : DraftRun env json id (fun s m => s.DiscardFresh m) s) : ∃ d, Current json id s d := by
  refine Reaches.invariant (P := fun s => ∃ d, Current json id s d) ?_ ?_ h
  · intro s hs
    obtain ⟨d, hinv⟩ := hs.inv hjson
    refine ⟨d, hinv, fun p _ _ _ hp => ?_⟩
    cases (hs.2.1 p).symm.trans hp
  · rintro s _ ⟨d, hd⟩ ⟨m, hm, rfl⟩
    exact hd.step hjson hm

/-- A listing shows drafts of rows that are active. -/
theorem listDrafts_row {l l' : Ledger} {accountId : String} {limit : Nat} {clock : DateTime}
    {drafts : List Draft} (hl : listDrafts env json accountId limit clock l = (.ok drafts, l'))
    (hmem : d ∈ drafts) : reconcileOperations env clock l = .ok l' ∧ d.status = .draft ∧
      ∃ r ∈ l'.operations, r.kind = "draft" ∧ json.decode r.payloadJson = some d := by
  unfold listDrafts projected at hl
  split at hl
  · next ops l₁ hcall =>
      obtain ⟨hact, rfl⟩ := Prod.mk.inj hl
      simp only [activeDrafts, bind_ok, pure_ok] at hact
      obtain ⟨all, hall, rfl⟩ := hact
      obtain ⟨hd, hst⟩ := List.mem_filter.mp hmem
      simp only [listOperations, bind_ok, pure_ok, Prod.mk.injEq] at hcall
      obtain ⟨_, -, _, -, _, hrec, _, hrows, rfl, rfl⟩ := hcall
      refine ⟨hrec, by simpa using hst, ?_⟩
      obtain ⟨op, hop, hdec⟩ := mem_of_mapM hall hd
      obtain ⟨r, hr, hrow⟩ := mem_of_mapM hrows hop
      have hof := operationFromRow_of hrow
      have hsel := (List.mem_insertionSort _).mp (List.mem_of_mem_take hr)
      obtain ⟨hr, hsel⟩ := List.mem_filter.mp hsel
      simp only [Bool.and_eq_true, Option.all_some, decide_eq_true_eq] at hsel
      refine ⟨r, hr, hsel.2, ?_⟩
      rw [← hof.payloadJson]
      exact orRefuse_ok.mp hdec
  · cases hl

/-- **Discard is terminal**, in every run in which no discard commits between the read and the
    write of an update: once a discard has returned, the stored draft is discarded, no listing
    shows it and no send plan comes of it. -/
theorem discard_is_terminal (hjson : json.Faithful)
    (h : DraftRun env json id (fun s m => s.UpdateFresh m) s) (hdone : 0 < s.discards) :
    (∃ d, storedDraft json s.ledger id = some d ∧ d.status = .discarded) ∧
      (∀ accountId limit clock drafts l,
        listDrafts env json accountId limit clock s.ledger = (.ok drafts, l) →
          ∀ d ∈ drafts, ∃ r ∈ l.operations, r.id ≠ id ∧ json.decode r.payloadJson = some d) ∧
      ∀ account clock now planId messageUuid, ∃ e,
        (planSendFromDraft env json account id clock now planId messageUuid s.ledger).1 =
          .error e := by
  obtain ⟨d, ht⟩ := h.terminal hjson
  have hst := ht.discarded hdone
  have hholds := ht.inv.holds
  refine ⟨⟨d, hholds.stored, hst⟩, ?_, ?_⟩
  · intro accountId limit clock drafts l hl d' hd'
    obtain ⟨hrec, hact, r, hr, hk, hdec⟩ := listDrafts_row hl hd'
    refine ⟨r, hr, fun hid => ?_, hdec⟩
    have hl' := hholds.reconcile hrec
    have hstored := (stored_iff hl'.distinct).mpr ⟨r, hr, hid, hk, hdec⟩
    obtain rfl := Option.some.inj (hstored.symm.trans hl'.stored)
    rw [hst] at hact
    cases hact
  · intro account clock now planId messageUuid
    unfold planSendFromDraft
    generalize hr : runtimeDraft env json id clock s.ledger = r
    obtain ⟨r, l⟩ := r
    cases r with
    | error e => exact ⟨e, rfl⟩
    | ok draft =>
        obtain ⟨hread, rfl⟩ := Prod.mk.inj hr
        obtain ⟨o, hget, hsome⟩ := bind_ok.mp hread
        obtain rfl := orRefuse_ok.mp hsome
        obtain rfl := hholds.read_eq (Prod.ext hget rfl)
        dsimp only
        rw [if_pos (by rw [hst]; decide)]
        exact ⟨_, rfl⟩

/-- **A discard keeps the content of the draft**, in every run in which no update commits between
    the read and the write of a discard: what it writes is the draft stored before, with another
    status and time. -/
theorem discard_keeps_content (hjson : json.Faithful)
    (h : DraftRun env json id (fun s m => s.DiscardFresh m) s) (p : Nat)
    (hfresh : s.DiscardFresh (.writeDiscard p))
    (hdone : (s.step env json id (.writeDiscard p)).discards = s.discards + 1) :
    ∃ d now, storedDraft json s.ledger id = some d ∧
      storedDraft json (s.step env json id (.writeDiscard p)).ledger id =
        some { d with status := .discarded, updatedAt := now } := by
  obtain ⟨d, hcur⟩ := h.current hjson
  have hinv := hcur.inv
  have heff : DraftEffect json id s d (.writeDiscard p) (s.step env json id (.writeDiscard p)) :=
    step_effect hjson hinv.holds hinv.stored hinv.composed _
  generalize s.step env json id (.writeDiscard p) = s' at heff hdone ⊢
  cases heff with
  | read m l ph hl hph => exact absurd hdone (by show s.discards ≠ s.discards + 1; omega)
  | discard p discarded now seen l hp hl =>
      refine ⟨d, now, hinv.holds.stored, ?_⟩
      rw [← (hcur.current p discarded now seen hp).2 (hfresh discarded now seen hp)]
      exact hl.stored

end Runs

/-! ## 5. Samples -/

namespace DraftSample

theorem json_faithful : json.Faithful := Json.ofTable_faithful (by decide +kernel)

def account : MailAccountConfig where
  id := "personal"
  email := "agent@example.com"
  username := "agent@example.com"
  incoming := ⟨.imap, "imap.example.com", 993, .implicitTls⟩
  outgoing := none
  credentialKind := .appPassword

/-- The input that makes the first text the second. -/
def edit : DraftInput where
  accountId := "personal"
  mode := .new
  source := none
  toAddrs := [⟨none, "ada@example.org"⟩]
  cc := []
  bcc := []
  subject := some "Hello"
  text := some "Second"
  html := none
  attachments := []

/-- The store after `create_draft`. -/
def created : DraftSystem where
  ledger := (createDraft env json (draft "First" .draft) 0 Ledger.empty).2
  phase _ := .idle
  updates := 0
  discards := 0

set_option maxRecDepth 8000 in
theorem created_initial : created.Initial env json draftId :=
  ⟨⟨Ledger.empty, draft "First" .draft, 0, .start rfl, rfl, rfl⟩, fun _ => rfl, rfl, rfl⟩

def readEdit : DraftMove := .readUpdate 0 (.ok account) edit 0 0

/-- The states along a list of moves. -/
def after (moves : List DraftMove) : DraftSystem :=
  moves.foldl (fun s m => s.step env json draftId m) created

theorem after_run {P : DraftSystem → DraftMove → Prop} (moves : List DraftMove)
    (h : ∀ n m, moves[n]? = some m → P (after (moves.take n)) m) :
    DraftRun env json draftId P (after moves) :=
  Reaches.of_moves created_initial moves h

end DraftSample

/-- The discard of the draft is terminal on the run without the edit. -/
theorem discard_is_terminal_sample_run : ∃ s,
    DraftRun DraftSample.env DraftSample.json DraftSample.draftId (fun s m => s.UpdateFresh m) s ∧
      0 < s.discards ∧ ∃ d, storedDraft DraftSample.json s.ledger DraftSample.draftId = some d ∧
        d.status = .discarded := by
  have hrun := DraftSample.after_run (P := fun s m => s.UpdateFresh m)
    [.readDraft 1 0, .readDiscard 1 0 0, .writeDiscard 1] fun n m hn => by
      rcases n with _ | _ | _ | n <;> cases hn <;> trivial
  have hdone : 0 < (DraftSample.after
      [.readDraft 1 0, .readDiscard 1 0 0, .writeDiscard 1]).discards := by decide +kernel
  exact ⟨_, hrun, hdone, (discard_is_terminal DraftSample.json_faithful hrun hdone).1⟩

/-- **An update that was read before a discard and is written after it brings the draft back.** -/
theorem updated_after_discard : ∃ s,
    DraftRun DraftSample.env DraftSample.json DraftSample.draftId (fun _ _ => True) s ∧
      0 < s.discards ∧ storedDraft DraftSample.json s.ledger DraftSample.draftId =
        some (DraftSample.draft "Second" .draft) := by
  refine ⟨_, DraftSample.after_run [DraftSample.readEdit, .readDraft 1 0, .readDiscard 1 0 0,
    .writeDiscard 1, .writeUpdate 0] fun _ _ _ => trivial, ?_⟩
  decide +kernel

/-- The discard of the edited draft keeps the edit, where the edit came first. -/
theorem discard_keeps_content_sample_run : ∃ s,
    DraftRun DraftSample.env DraftSample.json DraftSample.draftId (fun s m => s.DiscardFresh m) s ∧
      storedDraft DraftSample.json s.ledger DraftSample.draftId =
        some (DraftSample.draft "Second" .draft) ∧
      ∃ d now, storedDraft DraftSample.json s.ledger DraftSample.draftId = some d ∧
        storedDraft DraftSample.json (s.step DraftSample.env DraftSample.json DraftSample.draftId
          (.writeDiscard 1)).ledger DraftSample.draftId =
            some { d with status := .discarded, updatedAt := now } := by
  have hrun := DraftSample.after_run (P := fun s m => s.DiscardFresh m)
    [DraftSample.readEdit, .writeUpdate 0, .readDraft 1 0, .readDiscard 1 0 0] fun n m hn => by
      rcases n with _ | _ | _ | _ | n <;> cases hn <;> trivial
  have hstate : storedDraft DraftSample.json (DraftSample.after [DraftSample.readEdit, .writeUpdate 0,
        .readDraft 1 0, .readDiscard 1 0 0]).ledger DraftSample.draftId =
          some (DraftSample.draft "Second" .draft) ∧
      (DraftSample.after [DraftSample.readEdit, .writeUpdate 0, .readDraft 1 0,
        .readDiscard 1 0 0]).phase 1 = .discarding (DraftSample.draft "Second" .discarded) 0 1 ∧
      (DraftSample.after [DraftSample.readEdit, .writeUpdate 0, .readDraft 1 0,
        .readDiscard 1 0 0]).updates = 1 ∧
      ((DraftSample.after [DraftSample.readEdit, .writeUpdate 0, .readDraft 1 0,
        .readDiscard 1 0 0]).step DraftSample.env DraftSample.json DraftSample.draftId
          (.writeDiscard 1)).discards = (DraftSample.after [DraftSample.readEdit, .writeUpdate 0,
            .readDraft 1 0, .readDiscard 1 0 0]).discards + 1 := by
    decide +kernel
  obtain ⟨hstored, hphase, hupdates, hdone⟩ := hstate
  refine ⟨_, hrun, hstored, discard_keeps_content DraftSample.json_faithful hrun 1 ?_ hdone⟩
  intro discarded now seen hp
  cases hphase.symm.trans hp
  exact hupdates.symm

/-- **A discard that was read before an update and is written after it takes the edit back.** -/
theorem discarded_over_update : ∃ s,
    DraftRun DraftSample.env DraftSample.json DraftSample.draftId (fun _ _ => True) s ∧
      (s.step DraftSample.env DraftSample.json DraftSample.draftId (.writeDiscard 1)).discards =
        s.discards + 1 ∧
      storedDraft DraftSample.json s.ledger DraftSample.draftId =
        some (DraftSample.draft "Second" .draft) ∧
      storedDraft DraftSample.json (s.step DraftSample.env DraftSample.json DraftSample.draftId
        (.writeDiscard 1)).ledger DraftSample.draftId =
          some (DraftSample.draft "First" .discarded) ∧
      ∀ now, DraftSample.draft "First" .discarded ≠
        { DraftSample.draft "Second" .draft with status := .discarded, updatedAt := now } := by
  refine ⟨_, DraftSample.after_run [.readDraft 1 0, .readDiscard 1 0 0, DraftSample.readEdit,
    .writeUpdate 0] fun _ _ _ => trivial, ?_⟩
  have hother : ∀ now, DraftSample.draft "First" .discarded ≠
      { DraftSample.draft "Second" .draft with status := .discarded, updatedAt := now } := by
    intro now h
    have htext : (some "First" : Option String) = some "Second" := congrArg (·.request.text) h
    exact absurd htext (by decide)
  have hstate : ((DraftSample.after [.readDraft 1 0, .readDiscard 1 0 0, DraftSample.readEdit,
          .writeUpdate 0]).step DraftSample.env DraftSample.json DraftSample.draftId
            (.writeDiscard 1)).discards = (DraftSample.after [.readDraft 1 0, .readDiscard 1 0 0,
              DraftSample.readEdit, .writeUpdate 0]).discards + 1 ∧
      storedDraft DraftSample.json (DraftSample.after [.readDraft 1 0, .readDiscard 1 0 0,
        DraftSample.readEdit, .writeUpdate 0]).ledger DraftSample.draftId =
          some (DraftSample.draft "Second" .draft) ∧
      storedDraft DraftSample.json ((DraftSample.after [.readDraft 1 0, .readDiscard 1 0 0,
        DraftSample.readEdit, .writeUpdate 0]).step DraftSample.env DraftSample.json DraftSample.draftId
          (.writeDiscard 1)).ledger DraftSample.draftId =
            some (DraftSample.draft "First" .discarded) := by
    decide +kernel
  exact ⟨hstate.1, hstate.2.1, hstate.2.2, hother⟩

end Kirje
