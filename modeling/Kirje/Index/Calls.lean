import Kirje.Index.Namespaces
import Kirje.Index.Sync

/-
  File:      Kirje/Index/Calls.lean
  Subject:   What one synchronization does to its mailbox, against an honest server.

  A call without a highest UID selects the newest UIDs of the mailbox, a call with one
  the oldest above it (`selected_newest`, `selected_oldest`).

  * `readerSyncMailbox_brings`: the messages of the batch are those selected.
  * **`syncMailbox_synced`**: a call that does not leave the index leaves its mailbox
    with what it selected, and with the state that follows from it (`Synced`).
-/

namespace Kirje

open Base MessageIndex

/-! ## 1. Selections of a sorted list -/

/-- The first entries of a list in descending order are its entries from one on. -/
theorem mem_take_desc {l : List Nat} (hl : l.Pairwise (· > ·)) (n : Nat) :
    ∃ low, ∀ u, u ∈ l.take n ↔ u ∈ l ∧ low ≤ u := by
  have hsplit : ∀ u, u ∈ l ↔ u ∈ l.take n ∨ u ∈ l.drop n := by
    intro u
    rw [← List.mem_append, List.take_append_drop]
  rw [← List.take_append_drop n l] at hl
  obtain ⟨-, hdrop, hacross⟩ := List.pairwise_append.mp hl
  cases hd : l.drop n with
  | nil =>
      refine ⟨0, fun u => ?_⟩
      rw [hsplit, hd]
      simp
  | cons d ds =>
      rw [hd] at hdrop hacross
      refine ⟨d + 1, fun u => ?_⟩
      constructor
      · intro hu
        exact ⟨(hsplit u).mpr (Or.inl hu), hacross u hu d List.mem_cons_self⟩
      · rintro ⟨hu, hle⟩
        rcases (hsplit u).mp hu with hu | hu
        · exact hu
        · rw [hd] at hu
          rcases List.mem_cons.mp hu with rfl | hu
          · omega
          · have := (List.pairwise_cons.mp hdrop).1 u hu
            omega

/-- The first entries of a list in ascending order are closed downwards. -/
theorem mem_take_asc {l : List Nat} (hl : l.Pairwise (· < ·)) {n u u' : Nat} (hu' : u' ∈ l.take n)
    (hu : u ∈ l) (hle : u ≤ u') : u ∈ l.take n := by
  rw [← List.take_append_drop n l] at hl hu
  rcases List.mem_append.mp hu with hu | hu
  · exact hu
  · have := (List.pairwise_append.mp hl).2.2 u' hu' u hu
    omega

/-- **The selection of a synchronization**: the first `limit` in the order, and whether there are
    more. -/
theorem selectSyncUids_eq (uids : List Nat) (limit : Nat) (incremental : Bool) :
    selectSyncUids uids limit incremental =
      ((if incremental then uids.insertionSort (· ≤ ·) else uids.insertionSort (· ≥ ·)).take limit,
        decide (limit < uids.length)) := by
  have hlen : (if incremental then uids.insertionSort (· ≤ ·)
      else uids.insertionSort (· ≥ ·)).length = uids.length := by
    split <;> exact List.length_insertionSort _ _
  unfold selectSyncUids
  simp only
  generalize (if incremental = true then uids.insertionSort (· ≤ ·)
    else uids.insertionSort (· ≥ ·)) = sorted at hlen ⊢
  have hmore : limit < (sorted.take (limit + 1)).length ↔ limit < uids.length := by
    rw [List.length_take]
    omega
  by_cases h : limit < uids.length
  · rw [decide_eq_true (hmore.mpr h), decide_eq_true h, if_pos rfl, List.dropLast_eq_take,
      List.take_take, List.length_take]
    congr 2
    omega
  · rw [decide_eq_false (mt hmore.mp h), decide_eq_false h, if_neg (by decide)]
    rw [List.take_of_length_le (by omega), List.take_of_length_le (by omega)]

/-! ## 2. The messages of a batch -/

theorem mem_byUid {envelopes : List MessageEnvelope} {u : Nat} :
    u ∈ (byUid envelopes).map (·.reference.uid) ↔ u ∈ envelopes.map (·.reference.uid) := by
  have hfold : ∀ (es map : List MessageEnvelope),
      u ∈ (es.foldl (fun map e => upsert (·.reference.uid) e map) map).map (·.reference.uid) ↔
        u ∈ es.map (·.reference.uid) ∨ u ∈ map.map (·.reference.uid) := by
    intro es
    induction es with
    | nil => simp
    | cons e es ih =>
        intro map
        rw [List.foldl_cons, ih, mem_keys_upsert, List.map_cons, List.mem_cons]
        tauto
  rw [byUid, hfold]
  simp

/-- Where every UID has an envelope, each takes its own. -/
theorem takeByUid_uids {map : List MessageEnvelope} {uids : List Nat} (hn : uids.Nodup)
    (h : ∀ u ∈ uids, u ∈ map.map (·.reference.uid)) :
    (takeByUid map uids).map (·.reference.uid) = uids := by
  induction uids generalizing map with
  | nil => rfl
  | cons u uids ih =>
      obtain ⟨e, he, hu⟩ := List.mem_map.mp (h u List.mem_cons_self)
      have hsome : (map.find? fun e => e.reference.uid = u).isSome :=
        List.find?_isSome.mpr ⟨e, he, by simpa using hu⟩
      obtain ⟨x, hx⟩ := Option.isSome_iff_exists.mp hsome
      have hxu : x.reference.uid = u := by simpa using List.find?_some hx
      rw [List.nodup_cons] at hn
      have hrest : ∀ w ∈ uids,
          w ∈ (map.filter fun e => e.reference.uid ≠ u).map (·.reference.uid) := by
        intro w hw
        obtain ⟨y, hy, rfl⟩ := List.mem_map.mp (h w (List.mem_cons_of_mem _ hw))
        refine List.mem_map.mpr ⟨y, List.mem_filter.mpr ⟨hy, ?_⟩, rfl⟩
        have hne : y.reference.uid ≠ u := fun hyu => hn.1 (hyu ▸ hw)
        simpa using hne
      rw [takeByUid, hx, List.map_cons, ih hn.2 hrest, hxu]

/-- The highest UID that a call goes on from. -/
def startUid (server : ServerMailbox) (previous : Option MailboxSyncState) : Option Nat :=
  if previous.any fun p => p.uidValidity ≠ server.uidValidity then none
  else previous.bind (·.highestUid)

/-- What a search from this UID finds, in some order. -/
def Found (server : ServerMailbox) (start : Option Nat) (found : List Nat) : Prop :=
  if start = some (2 ^ 32 - 1) then found = []
  else found.Perm (searchAnswer (server.uids server.uidValidity) (syncSearchKeys start))

/-- **What a call brings from an honest server.** -/
structure Brings (c : SyncCall) (server : ServerMailbox) (previous : Option MailboxSyncState)
    (batch : MailboxSyncBatch) : Prop where
  scope : (batch.accountId, batch.mailbox) = (c.accountId, c.mailbox)
  uidValidity : batch.uidValidity = server.uidValidity
  reset : batch.resetRequired = previous.any fun p => p.uidValidity ≠ server.uidValidity
  messages : ∃ found, Found server (startUid server previous) found ∧
    batch.messages.map (·.reference.uid) =
      (selectSyncUids found c.limit (startUid server previous).isSome).1 ∧
    batch.hasMore = (selectSyncUids found c.limit (startUid server previous).isSome).2

section Calls

variable {env : External} {libs : MailLibraries} {ixEnv : IndexExternal}

/-- The messages fetched are those selected. -/
theorem fetched_uids {server : ServerMailbox} {session : ImapSession} (hon : Honest server session)
    {uids : List Nat} (hn : uids.Nodup) (hsub : uids ⊆ server.uids server.uidValidity)
    {responses : List FetchResponse} (h : session.fetch uids = .ok responses)
    (account : MailAccountConfig) (mailbox : String) (v : Option Nat) :
    (takeByUid (byUid (responses.map (envelopeFrom account mailbox v))) uids).map
      (·.reference.uid) = uids := by
  refine takeByUid_uids hn fun u hu => ?_
  rw [mem_byUid, List.map_map]
  exact (hon.fetch uids responses h hsub).mem_iff.mpr hu

theorem received_ok {α : Type} {reply : Except ImapClientError α} {a : α} :
    received reply = .ok a ↔ reply = .ok a := by
  cases reply <;> simp [received]

theorem searchAnswer_subset (uids : List Nat) (key : SyncSearchKey) : searchAnswer uids key ⊆ uids := by
  cases key with
  | all => exact List.Subset.refl _
  | uidFrom start =>
      unfold searchAnswer
      simp only
      split
      · exact List.filter_subset_self _
      · intro u hu
        exact List.max?_mem (by simpa using hu)

theorem searchAnswer_nodup {uids : List Nat} (hn : uids.Nodup) (key : SyncSearchKey) :
    (searchAnswer uids key).Nodup := by
  cases key with
  | all => exact hn
  | uidFrom start =>
      unfold searchAnswer
      simp only
      split
      · exact hn.filter _
      · cases uids.max? <;> simp

/-- What a search finds is there. -/
theorem Found.subset {server : ServerMailbox} {start : Option Nat} {found : List Nat}
    (h : Found server start found) : found ⊆ server.uids server.uidValidity := by
  unfold Found at h
  split at h
  · rw [h]
    exact List.nil_subset _
  · exact fun u hu => searchAnswer_subset _ _ (h.mem_iff.mp hu)

theorem Found.nodup {server : ServerMailbox} {start : Option Nat} {found : List Nat}
    (hn : (server.uids server.uidValidity).Nodup) (h : Found server start found) : found.Nodup := by
  unfold Found at h
  split at h
  · rw [h]
    exact List.nodup_nil
  · exact h.nodup_iff.mpr (searchAnswer_nodup hn _)

/-- The list that a selection is taken from, in its order. -/
def ordered (found : List Nat) (incremental : Bool) : List Nat :=
  if incremental then found.insertionSort (· ≤ ·) else found.insertionSort (· ≥ ·)

theorem ordered_perm (found : List Nat) (incremental : Bool) : (ordered found incremental).Perm found := by
  unfold ordered
  split <;> exact List.perm_insertionSort _ _

theorem selected_subset (found : List Nat) (limit : Nat) (incremental : Bool) :
    (selectSyncUids found limit incremental).1 ⊆ found := by
  rw [selectSyncUids_eq]
  exact fun u hu => (ordered_perm found incremental).mem_iff.mp (List.mem_of_mem_take hu)

theorem selected_nodup {found : List Nat} (hn : found.Nodup) (limit : Nat) (incremental : Bool) :
    (selectSyncUids found limit incremental).1.Nodup := by
  rw [selectSyncUids_eq]
  exact ((ordered_perm found incremental).nodup_iff.mpr hn).sublist (List.take_sublist _ _)

/-- A selection that leaves nothing out. -/
theorem selected_all {uids found : List Nat} (hf : found.Perm uids) {limit : Nat}
    (hle : uids.length ≤ limit) {u : Nat} (hu : u ∈ uids) (incremental : Bool) :
    u ∈ (selectSyncUids found limit incremental).1 := by
  have hlen : (ordered found incremental).length ≤ limit := by
    rw [(ordered_perm found incremental).length_eq, hf.length_eq]
    exact hle
  rw [selectSyncUids_eq]
  show u ∈ (ordered found incremental).take limit
  rw [List.take_of_length_le hlen]
  exact (ordered_perm found incremental).mem_iff.mpr (hf.mem_iff.mpr hu)

/-- The selection of a first call: the newest UIDs. -/
theorem selected_newest {uids found : List Nat} (hf : found.Perm uids) (hn : uids.Nodup)
    (limit : Nat) :
    ∃ low, ∀ u, u ∈ (selectSyncUids found limit false).1 ↔ u ∈ uids ∧ low ≤ u := by
  have hsorted : (found.insertionSort (· ≥ ·)).Pairwise (· > ·) := by
    have hge := List.pairwise_insertionSort (· ≥ ·) found
    have hne := (List.perm_insertionSort (· ≥ ·) found).nodup_iff.mpr (hf.nodup_iff.mpr hn)
    exact hge.imp₂ (fun a b hle hne => lt_of_le_of_ne hle (Ne.symm hne)) hne
  obtain ⟨low, hlow⟩ := mem_take_desc hsorted limit
  refine ⟨low, fun u => ?_⟩
  rw [selectSyncUids_eq]
  simp only [Bool.false_eq_true, if_false]
  rw [hlow, (List.perm_insertionSort _ _).mem_iff, hf.mem_iff]

/-- The selection of a later call is closed downwards. -/
theorem selected_oldest {found : List Nat} (hn : found.Nodup) {limit u u' : Nat} (hu : u ∈ found)
    (hu' : u' ∈ (selectSyncUids found limit true).1) (hle : u ≤ u') :
    u ∈ (selectSyncUids found limit true).1 := by
  have hsorted : (found.insertionSort (· ≤ ·)).Pairwise (· < ·) := by
    have hle := List.pairwise_insertionSort (· ≤ ·) found
    have hne := (List.perm_insertionSort (· ≤ ·) found).nodup_iff.mpr hn
    exact hle.imp₂ (fun a b hle hne => lt_of_le_of_ne hle hne) hne
  rw [selectSyncUids_eq] at hu' ⊢
  simp only [if_true] at hu' ⊢
  exact mem_take_asc hsorted hu' ((List.perm_insertionSort _ _).mem_iff.mpr hu) hle

/-- What the search of a call finds. -/
theorem searchUids_found {server : ServerMailbox} {session : ImapSession}
    (hon : Honest server session) {start : Option Nat} {found : List Nat}
    (h : searchUids session start = .ok found) : Found server start found := by
  unfold searchUids at h
  unfold Found
  split at h
  next hmax =>
    rw [if_pos hmax]
    exact (pure_ok.mp h).symm
  next hmax =>
    rw [if_neg hmax]
    exact hon.search _ found (received_ok.mp h)

/-- What the fetch of a call brings. -/
theorem fetchUids_uids {server : ServerMailbox} {session : ImapSession}
    (hon : Honest server session) {uids : List Nat} (hn : uids.Nodup)
    (hsub : uids ⊆ server.uids server.uidValidity) {account : MailAccountConfig} {mailbox : String}
    {v : Nat} {messages : List MessageEnvelope}
    (h : fetchUids session account mailbox v uids = .ok messages) :
    messages.map (·.reference.uid) = uids := by
  unfold fetchUids at h
  split at h
  next hempty =>
    obtain rfl : messages = [] := (pure_ok.mp h).symm
    rw [List.isEmpty_iff.mp hempty, List.map_nil]
  next =>
    simp only [bind_ok, pure_ok, received_ok] at h
    obtain ⟨responses, hfetch, rfl⟩ := h
    exact fetched_uids hon hn hsub hfetch account mailbox (some v)

/-- **The batch of an honest server.** -/
theorem readerSyncMailbox_brings {c : SyncCall} {server : ServerMailbox}
    (hon : Honest server c.session) (hn : (server.uids server.uidValidity).Nodup)
    {account : MailAccountConfig} {previous : Option MailboxSyncState} {batch : MailboxSyncBatch}
    (h : readerSyncMailbox env libs c.session account {
      accountId := c.accountId
      mailbox := c.mailbox
      cursor := previous.map fun state => ⟨state.uidValidity, state.highestUid⟩
      limit := c.limit } = .ok batch) : Brings c server previous batch := by
  simp only [readerSyncMailbox, bind_ok, pure_ok, received_ok, orRefuse_ok, Prod.exists] at h
  obtain ⟨_, -, _, -, _, -, _, -, _, -, _, -, v, total, hexamine, v', rfl, found, hfound, messages,
    hmessages, rfl⟩ := h
  obtain rfl := hon.examine v' total hexamine
  have hany : (Option.any (fun cursor : SyncCursor => cursor.uidValidity ≠ server.uidValidity)
      (previous.map fun state => ⟨state.uidValidity, state.highestUid⟩)) =
        previous.any fun p => p.uidValidity ≠ server.uidValidity := by
    cases previous <;> rfl
  have hbind : (Option.map (fun state => (⟨state.uidValidity, state.highestUid⟩ : SyncCursor))
      previous).bind (·.highestUid) = previous.bind (·.highestUid) := by
    cases previous <;> rfl
  simp only [hany, hbind] at hfound hmessages ⊢
  have hstart : (if previous.any fun p => p.uidValidity ≠ server.uidValidity then none
      else previous.bind (·.highestUid)) = startUid server previous := rfl
  rw [hstart] at hfound hmessages ⊢
  have hFound : Found server (startUid server previous) found := searchUids_found hon hfound
  refine ⟨rfl, rfl, rfl, found, hFound, ?_, rfl⟩
  exact fetchUids_uids hon (selected_nodup (hFound.nodup hn) _ _)
    (fun u hu => hFound.subset (selected_subset _ _ _ hu)) hmessages

/-! ## 3. One call -/

/-- Whether a call starts its mailbox anew. -/
def SyncCall.anew (c : SyncCall) (server : ServerMailbox) (ix : Index) : Bool :=
  c.refresh || (stateRow c.accountId c.mailbox ix).all (·.uidValidity ≠ server.uidValidity)

/-- The highest UID that a call goes on from. -/
def SyncCall.start (c : SyncCall) (server : ServerMailbox) (ix : Index) : Option Nat :=
  if c.anew server ix then none else (stateRow c.accountId c.mailbox ix).bind (·.highestUid)

/-- The UIDs that a call selects of those found, and whether there are more. -/
def SyncCall.selected (c : SyncCall) (server : ServerMailbox) (ix : Index) (found : List Nat) :
    List Nat × Bool :=
  selectSyncUids found c.limit (c.start server ix).isSome

/-- **What a call that completes does to its mailbox.** -/
structure Synced (c : SyncCall) (server : ServerMailbox) (found : List Nat) (next : SyncStateRow)
    (ix ix' : Index) : Prop where
  limit : 0 < c.limit
  others : ∀ a m, (a, m) ≠ (c.accountId, c.mailbox) →
    rowsOf a m ix' = rowsOf a m ix ∧ stateRow a m ix' = stateRow a m ix
  search : Found server (c.start server ix) found
  state : stateRow c.accountId c.mailbox ix' = some next
  uidValidity : next.uidValidity = server.uidValidity
  indexed : ∀ u, u ∈ indexedUids c.accountId c.mailbox ix' ↔
    (c.anew server ix = false ∧ u ∈ indexedUids c.accountId c.mailbox ix) ∨
      u ∈ (c.selected server ix found).1
  highest : next.highestUid =
    ((c.start server ix).toList ++ (c.selected server ix found).1.max?.toList).max?
  complete : next.initialWindowComplete =
    if c.anew server ix then !(c.selected server ix found).2
    else (stateRow c.accountId c.mailbox ix).any (·.initialWindowComplete)

theorem mem_indexedUids {accountId mailbox : String} {ix : Index} {u : Nat} :
    u ∈ indexedUids accountId mailbox ix ↔ ∃ v, (accountId, mailbox, v, u) ∈ keys ix := by
  simp only [indexedUids, List.mem_map, key_mem_iff]
  constructor
  · rintro ⟨r, hr, rfl⟩
    exact ⟨r.uidValidity, r, hr, rfl, rfl⟩
  · rintro ⟨v, r, hr, -, rfl⟩
    exact ⟨r, hr, rfl⟩

/-- A mailbox without a state, or without a highest UID, has no rows. -/
theorem indexedUids_nil {accountId mailbox : String} {ix : Index} (hok : IndexOk ix)
    (h : (stateRow accountId mailbox ix).bind (·.highestUid) = none) :
    indexedUids accountId mailbox ix = [] := by
  rw [indexedUids, List.map_eq_nil_iff, List.eq_nil_iff_forall_not_mem]
  intro r hr
  obtain ⟨s, hs, -, highest, hh, -⟩ := (hok.namespaces accountId mailbox).owned r hr
  rw [hs, Option.bind_some, hh] at h
  cases h

/-- A call applies a batch, or leaves the index. -/
theorem syncMailbox_cases (env : External) (libs : MailLibraries) (ixEnv : IndexExternal)
    (c : SyncCall) (ix : Index) :
    (∃ previous batch reset next ix', c.previous ixEnv ix = .ok previous ∧ 0 < c.limit ∧
      (∃ account, readerSyncMailbox env libs c.session account {
        accountId := c.accountId
        mailbox := c.mailbox
        cursor := previous.map fun state => ⟨state.uidValidity, state.highestUid⟩
        limit := c.limit } = .ok batch) ∧
      applyInTransaction ixEnv c.clock batch (c.refresh || batch.resetRequired) ix =
        .ok ((reset, next), ix') ∧ (syncMailbox env libs ixEnv c ix).2 = ix') ∨
    ∃ e, syncMailbox env libs ixEnv c ix = (.error e, ix) := by
  unfold syncMailbox
  cases hbatch : c.batch env libs ixEnv ix with
  | error e => exact Or.inr ⟨e, rfl⟩
  | ok batch =>
      simp only [SyncCall.batch, MailboxSyncRequest.validate, bind_ok, ensure_ok] at hbatch
      obtain ⟨previous, hprevious, _, ⟨_, -, hlimit⟩, account, -, hread⟩ := hbatch
      rcases applySync_cases ixEnv c.clock batch (c.refresh || batch.resetRequired) ix with
        ⟨reset, next, ix', happ, hix, -⟩ | ⟨e, he⟩
      · refine Or.inl ⟨previous, batch, reset, next, ix', hprevious, ?_, ⟨account, hread⟩, happ, hix⟩
        omega
      · exact Or.inr ⟨e, he⟩

/-- The state that a call goes on from, in the words of the row. -/
theorem SyncCall.previous_ok {c : SyncCall} {ix : Index} {previous : Option MailboxSyncState}
    (h : c.previous ixEnv ix = .ok previous) (server : ServerMailbox) :
    (c.refresh || previous.any fun p => p.uidValidity ≠ server.uidValidity) =
        (c.refresh || (stateRow c.accountId c.mailbox ix).any (·.uidValidity ≠ server.uidValidity)) ∧
      startUid server previous = c.start server ix := by
  unfold SyncCall.previous at h
  unfold startUid SyncCall.start SyncCall.anew
  split at h
  next hrefresh =>
    rw [pure_ok] at h
    subst h
    simp [hrefresh]
  next hrefresh =>
    simp only [state, bind_ok] at h
    obtain ⟨_, -, hstate⟩ := h
    obtain ⟨hnone, hsome⟩ := stateInTransaction_ok hstate
    cases hs : stateRow c.accountId c.mailbox ix with
    | none =>
        obtain rfl : previous = none := by simpa using hnone.mpr hs
        simp [hrefresh]
    | some s =>
        obtain ⟨p, rfl, hv, hh, -⟩ := hsome s hs
        simp [hrefresh, hv, hh]

/-- **A call that completes, against an honest server.** -/
theorem syncMailbox_synced (env : External) (libs : MailLibraries) (ixEnv : IndexExternal)
    {c : SyncCall} {server : ServerMailbox} {ix : Index} (hok : IndexOk ix)
    (hon : Honest server c.session) (hn : (server.uids server.uidValidity).Nodup) :
    (∃ found next, Synced c server found next ix (syncMailbox env libs ixEnv c ix).2) ∨
      ∃ e, syncMailbox env libs ixEnv c ix = (.error e, ix) := by
  rcases syncMailbox_cases env libs ixEnv c ix with
    ⟨previous, batch, reset, next, ix', hprevious, hlimit, ⟨account, hread⟩, happ, hix⟩ | he
  · refine Or.inl ?_
    obtain ⟨hscope, hv, hreset, found, hfound, hmessages, hmore⟩ :=
      readerSyncMailbox_brings hon hn hread
    obtain ⟨ha, hm⟩ := Prod.mk.inj hscope
    obtain ⟨hany, hstart⟩ := SyncCall.previous_ok hprevious server
    obtain ⟨-, happlied, previous', hprev', hresets, hnext⟩ := applyInTransaction_applied happ
    obtain ⟨hnone, hsome⟩ := stateInTransaction_ok hprev'
    rw [ha, hm] at hnone hsome
    rw [hstart] at hfound hmessages hmore
    rw [hix]
    have hanew : (reset || previous'.isNone) = c.anew server ix ∧
        previous'.any (·.initialWindowComplete) =
          (stateRow c.accountId c.mailbox ix).any (·.initialWindowComplete) ∧
        (reset = false → previous'.bind (·.highestUid) = c.start server ix) := by
      have hrefresh : reset =
          (c.refresh || (previous.any fun p => p.uidValidity ≠ server.uidValidity) ||
            previous'.any fun p => p.uidValidity ≠ server.uidValidity) := by
        rw [hresets, resets, hreset, hv, Bool.or_assoc c.refresh, Bool.or_self]
      rw [hany] at hrefresh
      unfold SyncCall.start SyncCall.anew
      cases hs : stateRow c.accountId c.mailbox ix with
      | none =>
          obtain rfl : previous' = none := by simpa using hnone.mpr hs
          simp
      | some s =>
          obtain ⟨p, rfl, hpv, hph, hpc⟩ := hsome s hs
          simp only [hs, Option.any_some, hpv, Bool.or_assoc, Bool.or_self] at hrefresh
          subst hrefresh
          simp only [Option.isNone_some, Bool.or_false, Option.any_some, Option.all_some,
            Option.bind_some, hpc, hph, true_and]
          intro hno
          rw [hno]
          rfl
    obtain ⟨hanew, hcomplete, hprevious'⟩ := hanew
    have huids : batch.messages.map (·.reference.uid) = (c.selected server ix found).1 := hmessages
    refine ⟨found, next, hlimit, ?_, hfound, ?_, ?_, ?_, ?_, ?_⟩
    · rw [← ha, ← hm]
      exact happlied.others
    · rw [← ha, ← hm]
      exact happlied.state
    · rw [hnext, ← hv]
      rfl
    · intro u
      rw [← huids, ← hanew, mem_indexedUids, ← ha, ← hm]
      simp only [happlied.keys]
      constructor
      · rintro ⟨v, ⟨hno, hk⟩ | ⟨-, hu⟩⟩
        · refine Or.inl ⟨?_, mem_indexedUids.mpr ⟨v, hk⟩⟩
          by_contra hfresh
          have hrow : stateRow c.accountId c.mailbox ix = none := hnone.mp (by simpa [hno] using hfresh)
          have hnil : indexedUids c.accountId c.mailbox ix = [] :=
            indexedUids_nil hok (by rw [hrow]; rfl)
          rw [ha, hm] at hk
          exact absurd (mem_indexedUids.mpr ⟨v, hk⟩) (by rw [hnil]; exact List.not_mem_nil)
        · exact Or.inr hu
      · rintro (⟨hno, hu⟩ | hu)
        · obtain ⟨v, hk⟩ := mem_indexedUids.mp hu
          exact ⟨v, Or.inl ⟨(Bool.or_eq_false_iff.mp hno).1, hk⟩⟩
        · exact ⟨batch.uidValidity, Or.inr ⟨rfl, hu⟩⟩
    · rw [hnext, ← huids]
      show (if reset = true then _ else _) = _
      by_cases hr : reset = true
      · have hstart' : c.start server ix = none := by
          rw [SyncCall.start, ← hanew, hr, Bool.true_or, if_pos rfl]
        rw [if_pos hr, hstart', batchHighest]
        cases (batch.messages.map (·.reference.uid)).max? <;> rfl
      · rw [if_neg hr, hprevious' (by simpa using hr)]
        rfl
    · rw [hnext, ← hanew, ← hcomplete]
      show (if (reset || previous'.isNone) = true then !batch.hasMore else _) = _
      rw [hmore]
      rfl
  · exact Or.inr he

/-- The state that a call goes on with is of the UIDVALIDITY of the server. -/
theorem SyncCall.anew_false {c : SyncCall} {server : ServerMailbox} {ix : Index}
    (h : c.anew server ix = false) : ∃ row, stateRow c.accountId c.mailbox ix = some row ∧
      row.uidValidity = server.uidValidity := by
  rw [SyncCall.anew] at h
  obtain ⟨-, hall⟩ := Bool.or_eq_false_iff.mp h
  cases hrow : stateRow c.accountId c.mailbox ix with
  | none =>
      rw [hrow] at hall
      cases hall
  | some row => exact ⟨row, rfl, by simpa [hrow] using hall⟩

/-- A call starts from no highest UID, and what it indexes is what it selects; or it goes on from the
    highest UID of the state. -/
theorem Synced.start_cases {c : SyncCall} {server : ServerMailbox} {found : List Nat}
    {next : SyncStateRow} {ix ix' : Index} (hok : IndexOk ix) (hs : Synced c server found next ix ix') :
    (c.start server ix = none ∧
      (∀ u, u ∈ indexedUids c.accountId c.mailbox ix' ↔ u ∈ (c.selected server ix found).1)) ∨
    ∃ row h, stateRow c.accountId c.mailbox ix = some row ∧ row.uidValidity = server.uidValidity ∧
      row.highestUid = some h ∧ c.start server ix = some h ∧ c.anew server ix = false := by
  have hstart : c.start server ix =
      if c.anew server ix then none else (stateRow c.accountId c.mailbox ix).bind (·.highestUid) := rfl
  by_cases hanew : c.anew server ix = true
  · rw [if_pos hanew] at hstart
    refine Or.inl ⟨hstart, fun u => ?_⟩
    rw [hs.indexed, hanew]
    simp
  · rw [if_neg hanew] at hstart
    rw [Bool.not_eq_true] at hanew
    cases hhigh : (stateRow c.accountId c.mailbox ix).bind (·.highestUid) with
    | none =>
        refine Or.inl ⟨hstart.trans hhigh, fun u => ?_⟩
        rw [hs.indexed, indexedUids_nil hok hhigh]
        simp
    | some h =>
        obtain ⟨row, hrow, hh⟩ := Option.bind_eq_some_iff.mp hhigh
        refine Or.inr ⟨row, h, hrow, ?_, hh, hstart.trans hhigh, hanew⟩
        rw [SyncCall.anew, hrow] at hanew
        simpa using (Bool.or_eq_false_iff.mp hanew).2

end Calls

end Kirje
