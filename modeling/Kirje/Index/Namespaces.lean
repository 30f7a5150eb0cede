import Kirje.Index.Store

/-
  File:      Kirje/Index/Namespaces.lean
  Subject:   The UID namespace of each mailbox in the message index.

  * `Applied`: what a batch that is applied leaves of both tables, as sets of keys.
  * `NamespaceOk`: all rows of a mailbox have the UIDVALIDITY of its state and a UID
    up to its highest, and no two have one UID.
  * **`message_index_invariant`**: this holds of every mailbox of every index that
    batches lead to; a batch touches its own mailbox only, never takes the highest UID
    back without a reset, and changes nothing where it fails.
-/

namespace Kirje

open Base

namespace MessageIndex

/-! ## 1. Keys -/

/-- The keys of the message rows. -/
def keys (ix : Index) : List (String × String × Nat × Nat) := ix.messages.map MessageRow.key

/-- The UIDs of a mailbox. -/
def indexedUids (accountId mailbox : String) (ix : Index) : List Nat :=
  (rowsOf accountId mailbox ix).map (·.uid)

theorem mem_rowsOf {accountId mailbox : String} {ix : Index} {r : MessageRow} :
    r ∈ rowsOf accountId mailbox ix ↔
      r ∈ ix.messages ∧ r.accountId = accountId ∧ r.mailbox = mailbox := by
  simp [rowsOf, MessageRow.of]

/-- A row of a mailbox, by its key. -/
theorem key_mem_iff {accountId mailbox : String} {ix : Index} {v u : Nat} :
    (accountId, mailbox, v, u) ∈ keys ix ↔
      ∃ r ∈ rowsOf accountId mailbox ix, r.uidValidity = v ∧ r.uid = u := by
  rw [keys, List.mem_map]
  constructor
  · rintro ⟨r, hr, hk⟩
    simp only [MessageRow.key, Prod.mk.injEq] at hk
    exact ⟨r, mem_rowsOf.mpr ⟨hr, hk.1, hk.2.1⟩, hk.2.2⟩
  · rintro ⟨r, hr, rfl, rfl⟩
    obtain ⟨hmem, rfl, rfl⟩ := mem_rowsOf.mp hr
    exact ⟨r, hmem, rfl⟩

/-! ## 2. The batch -/

/-- The messages of a batch that passed its checks are messages of its namespace. -/
theorem validateBatch_ok {batch : MailboxSyncBatch} (h : validateBatch batch = .ok ()) :
    batch.uidValidity ≠ 0 ∧ ∀ message ∈ batch.messages,
      message.reference.accountId = batch.accountId ∧ message.reference.mailbox = batch.mailbox ∧
        message.reference.uidValidity = some batch.uidValidity ∧ message.reference.uid ≠ 0 := by
  simp only [validateBatch, MessageReference.validate, bind_ok, ensure_ok, checkAll_ok] at h
  obtain ⟨_, -, _, hbatch, hall⟩ := h
  refine ⟨fun h => hbatch (Or.inl h), fun message hm => ?_⟩
  obtain ⟨_, hvalid, hof⟩ := hall message hm
  simp only [not_or, not_not] at hof
  refine ⟨hof.1, hof.2.1, hof.2.2, fun hz => hvalid ?_⟩
  simp [hz]

section Batches

variable {env : IndexExternal}

/-- What upserts of rows of one namespace, with these UIDs, do to the tables. -/
structure Upserted (accountId mailbox : String) (v : Nat) (uids : List Nat) (ix ix' : Index) :
    Prop where
  states : ix'.states = ix.states
  others : ∀ a m, (a, m) ≠ (accountId, mailbox) → rowsOf a m ix' = rowsOf a m ix
  nodup : (keys ix).Nodup → (keys ix').Nodup
  keys : ∀ k, k ∈ keys ix' ↔ k ∈ keys ix ∨ ∃ u ∈ uids, k = (accountId, mailbox, v, u)

/-- One upsert. -/
theorem upsertMessage_upserted {accountId mailbox indexedAt : String} {v : Nat} {ix ix' : Index}
    {message : MessageEnvelope} (ha : message.reference.accountId = accountId)
    (hm : message.reference.mailbox = mailbox) (hv : message.reference.uidValidity = some v)
    (h : upsertMessage env indexedAt ix message = .ok ix') :
    Upserted accountId mailbox v [message.reference.uid] ix ix' := by
  simp only [upsertMessage, messageRow, bind_ok, pure_ok, ensure_ok, orRefuse_ok] at h
  obtain ⟨row, ⟨_, -, _, -, _, -, v', hv', _, -, rfl⟩, rfl⟩ := h
  obtain rfl : v = v' := Option.some.inj (hv.symm.trans hv')
  subst ha hm
  refine ⟨rfl, ?_, nodup_upsert, ?_⟩
  · intro a m hne
    refine filter_upsert fun r hk => ?_
    simp only [MessageRow.key, Prod.mk.injEq] at hk
    simp only [ne_eq, Prod.mk.injEq] at hne
    simp only [MessageRow.of, Bool.and_eq_false_iff, decide_eq_false_iff_not, hk.1, hk.2.1]
    by_cases haa : message.reference.accountId = a
    · exact Or.inr fun hmm => hne ⟨haa.symm, hmm.symm⟩
    · exact Or.inl haa
  · intro k
    rw [MessageIndex.keys, mem_keys_upsert, or_comm]
    simp only [List.mem_singleton, exists_eq_left]
    rfl

theorem Upserted.trans {accountId mailbox : String} {v : Nat} {us us' : List Nat}
    {ix ix₁ ix₂ : Index} (h : Upserted accountId mailbox v us ix ix₁)
    (h' : Upserted accountId mailbox v us' ix₁ ix₂) :
    Upserted accountId mailbox v (us ++ us') ix ix₂ := by
  refine ⟨h'.states.trans h.states, fun a m hne => (h'.others a m hne).trans (h.others a m hne),
    fun hn => h'.nodup (h.nodup hn), fun k => ?_⟩
  rw [h'.keys, h.keys, or_assoc]
  simp only [List.mem_append, or_and_right, exists_or]

/-- All upserts of a batch. -/
theorem upsertAll_upserted {accountId mailbox indexedAt : String} {v : Nat}
    {messages : List MessageEnvelope} {ix ix' : Index}
    (hof : ∀ message ∈ messages, message.reference.accountId = accountId ∧
      message.reference.mailbox = mailbox ∧ message.reference.uidValidity = some v)
    (h : messages.foldlM (upsertMessage env indexedAt) ix = .ok ix') :
    Upserted accountId mailbox v (messages.map (·.reference.uid)) ix ix' := by
  induction messages generalizing ix with
  | nil =>
      rw [List.foldlM_nil, pure_ok] at h
      subst h
      exact ⟨rfl, fun _ _ _ => rfl, id, fun k => by simp⟩
  | cons message messages ih =>
      rw [List.foldlM_cons, bind_ok] at h
      obtain ⟨ix₁, h₁, h₂⟩ := h
      obtain ⟨ha, hm, hv⟩ := hof message List.mem_cons_self
      have hone := upsertMessage_upserted ha hm hv h₁
      exact hone.trans (ih (fun m h => hof m (List.mem_cons_of_mem _ h)) h₂)

/-! ## 3. What a batch leaves -/

/-- **A batch that was applied.** -/
structure Applied (batch : MailboxSyncBatch) (reset : Bool) (next : SyncStateRow) (ix ix' : Index) :
    Prop where
  others : ∀ a m, (a, m) ≠ (batch.accountId, batch.mailbox) →
    rowsOf a m ix' = rowsOf a m ix ∧ stateRow a m ix' = stateRow a m ix
  state : stateRow batch.accountId batch.mailbox ix' = some next
  nodup : (keys ix).Nodup → (keys ix').Nodup
  keys : ∀ v u, (batch.accountId, batch.mailbox, v, u) ∈ keys ix' ↔
    (reset = false ∧ (batch.accountId, batch.mailbox, v, u) ∈ keys ix) ∨
      (v = batch.uidValidity ∧ u ∈ batch.messages.map (·.reference.uid))

/-- What the transaction reads of the state of a mailbox. -/
theorem stateInTransaction_ok {accountId mailbox : String} {ix : Index}
    {previous : Option MailboxSyncState}
    (h : stateInTransaction env accountId mailbox ix = .ok previous) :
    (previous.isNone ↔ stateRow accountId mailbox ix = none) ∧
      ∀ s, stateRow accountId mailbox ix = some s → ∃ p, previous = some p ∧
        p.uidValidity = s.uidValidity ∧ p.highestUid = s.highestUid ∧
        p.initialWindowComplete = s.initialWindowComplete := by
  unfold stateInTransaction at h
  split at h
  · rename_i hs
    rw [pure_ok] at h
    subst h
    rw [hs]
    exact ⟨by simp, fun s hs => by cases hs⟩
  · rename_i s hs
    simp only [bind_ok, pure_ok] at h
    obtain ⟨_, -, rfl⟩ := h
    rw [hs]
    refine ⟨by simp, fun s' hs' => ?_⟩
    obtain rfl := Option.some.inj hs'
    exact ⟨_, rfl, rfl, rfl, rfl⟩

/-- Deleting the rows of a mailbox. -/
def deleteRows (accountId mailbox : String) (ix : Index) : Index :=
  { ix with messages := ix.messages.filter fun r => !MessageRow.of accountId mailbox r }

theorem rowsOf_deleteRows {accountId mailbox a m : String} (ix : Index)
    (h : (a, m) ≠ (accountId, mailbox)) :
    rowsOf a m (deleteRows accountId mailbox ix) = rowsOf a m ix := by
  unfold rowsOf deleteRows
  rw [List.filter_filter]
  refine List.filter_congr fun r _ => ?_
  by_cases hr : MessageRow.of a m r = true
  · have hno : MessageRow.of accountId mailbox r = false := by
      simp only [MessageRow.of, Bool.and_eq_true, decide_eq_true_eq] at hr
      simp only [MessageRow.of, Bool.and_eq_false_iff, decide_eq_false_iff_not, hr.1, hr.2]
      simp only [ne_eq, Prod.mk.injEq] at h
      by_cases ha : a = accountId
      · exact Or.inr fun hm => h ⟨ha, hm⟩
      · exact Or.inl ha
    simp [hr, hno]
  · simp [hr]

theorem keys_deleteRows {accountId mailbox : String} {ix : Index} {v u : Nat} :
    (accountId, mailbox, v, u) ∉ keys (deleteRows accountId mailbox ix) := by
  rw [key_mem_iff]
  rintro ⟨r, hr, -⟩
  rw [mem_rowsOf] at hr
  simp [deleteRows, MessageRow.of, hr.2.1, hr.2.2] at hr

/-- **What the transaction of a batch does.** -/
theorem applyInTransaction_applied {clock : DateTime} {batch : MailboxSyncBatch} {replace : Bool}
    {ix ix' : Index} {reset : Bool} {next : SyncStateRow}
    (h : applyInTransaction env clock batch replace ix = .ok ((reset, next), ix')) :
    validateBatch batch = .ok () ∧ Applied batch reset next ix ix' ∧
      ∃ previous, stateInTransaction env batch.accountId batch.mailbox ix = .ok previous ∧
        reset = resets batch replace previous ∧
        next = nextState batch reset previous (env.timestamp clock) := by
  simp only [applyInTransaction, bind_ok, pure_ok, ensure_ok, Prod.mk.injEq] at h
  obtain ⟨_, hvalid, previous, hprev, ix₁, hall, _, -, ⟨rfl, rfl⟩, rfl⟩ := h
  obtain ⟨-, hof⟩ := validateBatch_ok hvalid
  have hup := upsertAll_upserted (fun message hm => ⟨(hof message hm).1, (hof message hm).2.1,
    (hof message hm).2.2.1⟩) hall
  refine ⟨hvalid, ?_, previous, hprev, rfl, rfl⟩
  generalize resets batch replace previous = reset at hup ⊢
  have hbase : (if reset = true then deleteRows batch.accountId batch.mailbox ix else ix).states =
      ix.states := by
    split <;> rfl
  have hstates : ∀ k, (upsert SyncStateRow.key
      (nextState batch reset previous (env.timestamp clock)) ix₁.states).find? (fun s => s.key = k) =
        if (batch.accountId, batch.mailbox) = k then
          some (nextState batch reset previous (env.timestamp clock))
        else ix.states.find? (fun s => s.key = k) := by
    intro k
    rw [find_upsert, hup.states.trans hbase]
    rfl
  refine ⟨?_, ?_, ?_, ?_⟩
  · intro a m hne
    refine ⟨(hup.others a m hne).trans ?_, (hstates (a, m)).trans (if_neg hne.symm)⟩
    split
    · exact rowsOf_deleteRows ix hne
    · rfl
  · exact (hstates _).trans (if_pos rfl)
  · intro hn
    refine hup.nodup ?_
    split
    · exact hn.sublist (List.filter_sublist.map _)
    · exact hn
  · intro v u
    show (batch.accountId, batch.mailbox, v, u) ∈ keys ix₁ ↔ _
    rw [hup.keys]
    have hnew : (∃ x ∈ batch.messages.map (·.reference.uid), (batch.accountId, batch.mailbox, v, u) =
        (batch.accountId, batch.mailbox, batch.uidValidity, x)) ↔
          v = batch.uidValidity ∧ u ∈ batch.messages.map (·.reference.uid) := by
      simp only [Prod.mk.injEq, true_and]
      constructor
      · rintro ⟨x, hx, hv, rfl⟩
        exact ⟨hv, hx⟩
      · rintro ⟨hv, hu⟩
        exact ⟨u, hu, hv, rfl⟩
    rw [hnew]
    refine or_congr_left ?_
    cases reset with
    | true =>
        constructor
        · intro h
          exact absurd h keys_deleteRows
        · rintro ⟨h, -⟩
          cases h
    | false => simp

/-! ## 4. The invariant -/

/-- **The namespace of a mailbox**: its rows and its state. -/
structure NamespaceOk (rows : List MessageRow) (state : Option SyncStateRow) : Prop where
  owned : ∀ r ∈ rows, ∃ s, state = some s ∧ r.uidValidity = s.uidValidity ∧
    ∃ highest, s.highestUid = some highest ∧ r.uid ≤ highest
  distinct : (rows.map (·.uid)).Nodup

structure IndexOk (ix : Index) : Prop where
  keys : (keys ix).Nodup
  namespaces : ∀ accountId mailbox,
    NamespaceOk (rowsOf accountId mailbox ix) (stateRow accountId mailbox ix)

theorem IndexOk.empty : IndexOk Index.empty := by
  refine ⟨List.nodup_nil, fun a m => ⟨fun r hr => ?_, List.nodup_nil⟩⟩
  exact absurd (mem_rowsOf.mp hr).1 List.not_mem_nil

/-- Rows of one UIDVALIDITY have distinct UIDs, where keys are distinct. -/
theorem uids_nodup {accountId mailbox : String} {ix : Index} (h : (keys ix).Nodup) {v : Nat}
    (hv : ∀ r ∈ rowsOf accountId mailbox ix, r.uidValidity = v) :
    ((rowsOf accountId mailbox ix).map (·.uid)).Nodup := by
  have hrows : ((rowsOf accountId mailbox ix).map MessageRow.key).Nodup :=
    h.sublist (List.filter_sublist.map _)
  have hkey : (rowsOf accountId mailbox ix).map MessageRow.key =
      ((rowsOf accountId mailbox ix).map (·.uid)).map fun u => (accountId, mailbox, v, u) := by
    rw [List.map_map]
    refine List.map_congr_left fun r hr => ?_
    obtain ⟨-, ha, hm⟩ := mem_rowsOf.mp hr
    simp only [MessageRow.key, Function.comp, ha, hm, hv r hr]
  rw [hkey] at hrows
  exact List.Nodup.of_map _ hrows

/-- An element is at most the maximum. -/
theorem le_max? {l : List Nat} {a : Nat} (h : a ∈ l) : ∃ m, l.max? = some m ∧ a ≤ m := by
  obtain ⟨m, hm⟩ := Option.isSome_iff_exists.mp (List.isSome_max?_of_mem h)
  exact ⟨m, hm, (List.max?_le_iff hm).mp (Nat.le_refl m) a h⟩

/-- The highest UID after a batch bounds the UIDs of the batch. -/
theorem nextState_batch {batch : MailboxSyncBatch} {reset : Bool}
    {previous : Option MailboxSyncState} {indexedAt : String} {u : Nat}
    (hu : u ∈ batch.messages.map (·.reference.uid)) :
    ∃ highest, (nextState batch reset previous indexedAt).highestUid = some highest ∧ u ≤ highest := by
  obtain ⟨b, hb, hub⟩ := le_max? hu
  have hbatch : batchHighest batch = some b := hb
  cases reset with
  | true => exact ⟨b, by simp [nextState, hbatch], hub⟩
  | false =>
      obtain ⟨m, hm, hbm⟩ := le_max? (a := b)
        (l := (previous.bind (·.highestUid)).toList ++ (batchHighest batch).toList) (by simp [hbatch])
      exact ⟨m, by simp [nextState, hm], Nat.le_trans hub hbm⟩

/-- And, where the mailbox is not started anew, the highest UID before. -/
theorem nextState_previous (batch : MailboxSyncBatch) (indexedAt : String) {p : MailboxSyncState}
    {h : Nat} (hp : p.highestUid = some h) :
    ∃ highest, (nextState batch false (some p) indexedAt).highestUid = some highest ∧ h ≤ highest := by
  obtain ⟨m, hm, hle⟩ := le_max? (a := h)
    (l := ((some p).bind (·.highestUid)).toList ++ (batchHighest batch).toList) (by simp [hp])
  exact ⟨m, hm, hle⟩

/-- **Every batch keeps every namespace.** -/
theorem IndexOk.applied {clock : DateTime} {batch : MailboxSyncBatch} {replace : Bool}
    {ix ix' : Index} {reset : Bool} {next : SyncStateRow} (hok : IndexOk ix)
    (h : applyInTransaction env clock batch replace ix = .ok ((reset, next), ix')) : IndexOk ix' := by
  obtain ⟨-, happ, previous, hprev, hreset, hnext⟩ := applyInTransaction_applied h
  obtain ⟨hnone, hsome⟩ := stateInTransaction_ok hprev
  have hkeys := happ.nodup hok.keys
  refine ⟨hkeys, fun a m => ?_⟩
  by_cases hscope : (a, m) = (batch.accountId, batch.mailbox)
  · obtain ⟨rfl, rfl⟩ := Prod.mk.inj hscope
    have howned : ∀ r ∈ rowsOf batch.accountId batch.mailbox ix', r.uidValidity = next.uidValidity ∧
        ∃ highest, next.highestUid = some highest ∧ r.uid ≤ highest := by
      intro r hr
      subst hnext
      rcases (happ.keys r.uidValidity r.uid).mp (key_mem_iff.mpr ⟨r, hr, rfl, rfl⟩) with
        ⟨hno, hold⟩ | ⟨hv, hu⟩
      · subst hno
        obtain ⟨r', hr', hv', hu'⟩ := key_mem_iff.mp hold
        obtain ⟨s, hs, hsv, highest, hh, hle⟩ :=
          (hok.namespaces batch.accountId batch.mailbox).owned r' hr'
        obtain ⟨p, rfl, hpv, hph, -⟩ := hsome s hs
        have hsame : p.uidValidity = batch.uidValidity := by
          by_contra hne
          simp [resets, hne] at hreset
        obtain ⟨top, htop, hle'⟩ := nextState_previous batch (env.timestamp clock)
          (hph.trans hh)
        rw [hv'] at hsv
        rw [hu'] at hle
        exact ⟨hsv.trans (hpv.symm.trans hsame), top, htop, Nat.le_trans hle hle'⟩
      · exact ⟨hv, nextState_batch hu⟩
    refine ⟨fun r hr => ⟨next, happ.state, howned r hr⟩, ?_⟩
    exact uids_nodup hkeys fun r hr => (howned r hr).1
  · obtain ⟨hrows, hstate⟩ := happ.others a m hscope
    rw [hrows, hstate]
    exact hok.namespaces a m

/-! ## 5. Every run -/

/-- The indexes that batches lead to from an empty store. -/
def IndexRun (env : IndexExternal) : Index → Prop :=
  Reaches (· = Index.empty) fun ix ix' => ∃ clock batch replace,
    (applySync env clock batch replace ix).2 = ix'

/-- A call commits its transaction and reports on it, or leaves the index. -/
theorem applySync_cases (env : IndexExternal) (clock : DateTime) (batch : MailboxSyncBatch)
    (replace : Bool) (ix : Index) :
    (∃ reset next ix', applyInTransaction env clock batch replace ix = .ok ((reset, next), ix') ∧
      (applySync env clock batch replace ix).2 = ix' ∧
      (∀ report, (applySync env clock batch replace ix).1 = .ok report → report.reset = reset) ∧
      ((env.parseTimestamp next.lastSyncedAt).isSome →
        ∃ report, (applySync env clock batch replace ix).1 = .ok report)) ∨
    ∃ e, applySync env clock batch replace ix = (.error e, ix) := by
  unfold applySync
  cases h : applyInTransaction env clock batch replace ix with
  | error e => exact Or.inr ⟨e, rfl⟩
  | ok x =>
      obtain ⟨⟨reset, next⟩, ix'⟩ := x
      refine Or.inl ⟨reset, next, ix', rfl, rfl, fun report hr => ?_, fun hread => ?_⟩
      · simp only [bind_ok, pure_ok] at hr
        obtain ⟨_, -, rfl⟩ := hr
        rfl
      · obtain ⟨t, ht⟩ := Option.isSome_iff_exists.mp hread
        simp only [parseTimestamp, ht, bind_ok, orRefuse_ok, pure_ok]
        exact ⟨_, t, rfl, rfl⟩

theorem IndexRun.ok {ix : Index} (h : IndexRun env ix) : IndexOk ix := by
  refine Reaches.invariant (P := IndexOk) ?_ ?_ h
  · rintro ix rfl
    exact .empty
  · rintro ix ix' hok ⟨clock, batch, replace, rfl⟩
    rcases applySync_cases env clock batch replace ix with
      ⟨reset, next, ix', happ, hix, -⟩ | ⟨e, he⟩
    · rw [hix]
      exact hok.applied happ
    · rw [he]
      exact hok

/-- A batch that does not start the mailbox anew keeps its highest UID, or raises it. -/
theorem highest_of_applied {clock : DateTime} {batch : MailboxSyncBatch} {replace : Bool}
    {ix ix' : Index} {next : SyncStateRow}
    (h : applyInTransaction env clock batch replace ix = .ok ((false, next), ix'))
    {s : SyncStateRow} (hs : stateRow batch.accountId batch.mailbox ix = some s) {old : Nat}
    (hold : s.highestUid = some old) : ∃ new, next.highestUid = some new ∧ old ≤ new := by
  obtain ⟨-, -, previous, hprev, -, rfl⟩ := applyInTransaction_applied h
  obtain ⟨p, rfl, -, hph, -⟩ := (stateInTransaction_ok hprev).2 s hs
  exact nextState_previous batch _ (hph.trans hold)

/-- **The message index**, in every index that batches lead to from an empty store.  The rows of
    each mailbox have its UIDVALIDITY and UIDs up to its highest, no two with one UID; and whatever
    batch comes next, it leaves every other mailbox, it takes the highest UID of its own back only
    where it reports a reset, and where it fails it leaves the index. -/
theorem message_index_invariant {ix : Index} (h : IndexRun env ix) :
    (∀ accountId mailbox,
      NamespaceOk (rowsOf accountId mailbox ix) (stateRow accountId mailbox ix)) ∧
    ∀ clock batch replace,
      (∀ a m, (a, m) ≠ (batch.accountId, batch.mailbox) →
        rowsOf a m (applySync env clock batch replace ix).2 = rowsOf a m ix ∧
          stateRow a m (applySync env clock batch replace ix).2 = stateRow a m ix) ∧
      (∀ report, (applySync env clock batch replace ix).1 = .ok report → report.reset = false →
        ∀ s, stateRow batch.accountId batch.mailbox ix = some s →
          ∀ old, s.highestUid = some old →
            ∃ s' new, stateRow batch.accountId batch.mailbox
                (applySync env clock batch replace ix).2 = some s' ∧
              s'.highestUid = some new ∧ old ≤ new) ∧
      ((env.parseTimestamp (env.timestamp clock)).isSome →
        ∀ e, (applySync env clock batch replace ix).1 = .error e →
          (applySync env clock batch replace ix).2 = ix) := by
  refine ⟨h.ok.namespaces, fun clock batch replace => ?_⟩
  rcases applySync_cases env clock batch replace ix with
    ⟨reset, next, ix', happ, hix, hreset, hreport⟩ | ⟨e, he⟩
  · obtain ⟨-, happlied, _, -, -, hnext⟩ := applyInTransaction_applied happ
    rw [hix]
    refine ⟨happlied.others, ?_, ?_⟩
    · intro report hok hno s hs old hold
      obtain rfl : reset = false := (hreset report hok).symm.trans hno
      obtain ⟨new, hnew, hle⟩ := highest_of_applied happ hs hold
      exact ⟨next, new, happlied.state, hnew, hle⟩
    · intro hread e he
      obtain ⟨report, hok⟩ := hreport (by rw [hnext]; exact hread)
      cases hok.symm.trans he
  · rw [he]
    refine ⟨fun _ _ _ => ⟨rfl, rfl⟩, fun report hr => ?_, fun _ _ _ => rfl⟩
    cases hr

end Batches

namespace IndexSample

def env : IndexExternal where
  messageIds := ⟨fun ids => if ids = [] then some "[]" else none, fun _ => none⟩
  addresses := ⟨fun addresses => if addresses = [] then some "[]" else none, fun _ => none⟩
  timestamp t := if t = 0 then "1970-01-01T00:00:00Z" else ""
  parseTimestamp s := if s = "1970-01-01T00:00:00Z" then some 0 else none

def message (v uid : Nat) : MessageEnvelope where
  reference := ⟨"personal", "INBOX", some v, uid⟩
  messageId := none
  inReplyTo := []
  subject := "Hello"
  fromAddrs := []
  toAddrs := []
  sentAt := none
  size := 100
  isRead := false
  isStarred := false
  hasAttachment := none
  truncated := false

def batch (v : Nat) (uids : List Nat) : MailboxSyncBatch where
  accountId := "personal"
  mailbox := "INBOX"
  uidValidity := v
  messages := uids.map (message v)
  remoteTotal := some uids.length
  hasMore := false
  resetRequired := false

/-- The index after two batches of one namespace. -/
def index : Index :=
  (applySync env 0 (batch 7 [4, 5]) false (applySync env 0 (batch 7 [3, 2]) false Index.empty).2).2

theorem index_run : IndexRun env index :=
  ((show IndexRun env Index.empty from .start rfl).next ⟨0, batch 7 [3, 2], false, rfl⟩).next
    ⟨0, batch 7 [4, 5], false, rfl⟩

end IndexSample

/-- Four messages of one namespace, and a batch of the next one that takes their place. -/
theorem message_index_invariant_sample_run :
    (indexedUids "personal" "INBOX" IndexSample.index = [3, 2, 4, 5] ∧
      NamespaceOk (rowsOf "personal" "INBOX" IndexSample.index)
        (stateRow "personal" "INBOX" IndexSample.index)) ∧
    indexedUids "personal" "INBOX"
      (applySync IndexSample.env 0 (IndexSample.batch 8 [1]) false IndexSample.index).2 = [1] :=
  ⟨⟨by decide, (message_index_invariant IndexSample.index_run).1 _ _⟩, by decide⟩

end MessageIndex

end Kirje
