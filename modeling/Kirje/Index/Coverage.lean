import Kirje.Index.Windows

/-
  File:      Kirje/Index/Coverage.lean
  Subject:   The flag of the initial window: whether a mailbox is indexed from its
             start.

  The flag is computed by the first call on a mailbox and kept by the later ones.  A
  first call on an empty mailbox sets it and leaves no highest UID, so the next call
  selects the newest UIDs again, and may leave older ones out.

  * **`initial_window_honest`**: the flag is right in every run in which no call finds
    the state of an empty mailbox and more messages than its limit, and wrong after
    each such call; `first_window_after_empty` is one.
-/

namespace Kirje

open Base MessageIndex

section Calls

variable {env : External} {libs : MailLibraries} {ixEnv : IndexExternal}

/-! ## 1. The flag of the initial window -/

/-- The move is no call that finds the state of an empty mailbox, said to be complete, and more
    messages than its limit. -/
def WindowFits (s : SyncSystem) : SyncMove → Prop
  | .sync c =>
      ∀ row, stateRow c.accountId c.mailbox s.index = some row →
        c.anew (s.server c.accountId c.mailbox) s.index = false → row.highestUid = none →
        row.initialWindowComplete = true →
        ((s.server c.accountId c.mailbox).uids row.uidValidity).length ≤ c.limit
  | _ => True

/-- The UIDs up to the highest are all indexed. -/
def IndexedUpTo (uids indexed : List Nat) (highest : Option Nat) : Prop :=
  ∀ u ∈ uids, ∀ h, highest = some h → u ≤ h → u ∈ indexed

/-- A mailbox said to be indexed from its start is. -/
def FlagHonest (s : SyncSystem) : Prop :=
  ∀ a m row, stateRow a m s.index = some row → row.initialWindowComplete = true →
    IndexedUpTo ((s.server a m).uids row.uidValidity) (indexedUids a m s.index) row.highestUid

/-- **A call that fits keeps the flag honest.** -/
theorem Synced.covered {c : SyncCall} {server : ServerMailbox} {found : List Nat}
    {next : SyncStateRow} {ix ix' : Index} (hok : IndexOk ix)
    (hw : Window (server.uids server.uidValidity) (indexedUids c.accountId c.mailbox ix')
      next.highestUid)
    (hwin : ∀ row, stateRow c.accountId c.mailbox ix = some row →
      Window (server.uids row.uidValidity) (indexedUids c.accountId c.mailbox ix) row.highestUid)
    (hflag : ∀ row, stateRow c.accountId c.mailbox ix = some row → row.initialWindowComplete = true →
      IndexedUpTo (server.uids row.uidValidity) (indexedUids c.accountId c.mailbox ix) row.highestUid)
    (hfits : ∀ row, stateRow c.accountId c.mailbox ix = some row → c.anew server ix = false →
      row.highestUid = none → row.initialWindowComplete = true →
      (server.uids row.uidValidity).length ≤ c.limit)
    (hs : Synced c server found next ix ix') (hcomplete : next.initialWindowComplete = true) :
    IndexedUpTo (server.uids server.uidValidity) (indexedUids c.accountId c.mailbox ix')
      next.highestUid := by
  have hsearch := hs.search
  rw [hs.complete] at hcomplete
  rcases hs.start_cases hok with ⟨hstart, hindexed⟩ | ⟨row, h, hrow, hv, hh, hstart, hanew⟩
  · rw [hstart] at hsearch
    have hfew : (server.uids server.uidValidity).length ≤ c.limit := by
      by_cases hanew : c.anew server ix = true
      · rw [if_pos hanew, SyncCall.selected, selectSyncUids_eq, hsearch.all.length_eq] at hcomplete
        simpa using hcomplete
      · rw [if_neg hanew] at hcomplete
        rw [Bool.not_eq_true] at hanew
        obtain ⟨row, hrow, hv⟩ := SyncCall.anew_false hanew
        rw [hrow, Option.any_some] at hcomplete
        rw [SyncCall.start, hanew, hrow] at hstart
        rw [← hv]
        exact hfits row hrow hanew hstart hcomplete
    intro u hu _ _ _
    exact (hindexed u).mpr (selected_all hsearch.all hfew hu _)
  · rw [hanew, if_neg (by decide), hrow, Option.any_some] at hcomplete
    have hcov := hflag row hrow hcomplete
    have hwrow := hwin row hrow
    rw [hv, hh] at hcov hwrow
    have hkept : ∀ u ∈ indexedUids c.accountId c.mailbox ix, u ∈ indexedUids c.accountId c.mailbox ix' :=
      fun u hu => (hs.indexed u).mpr (Or.inl ⟨hanew, hu⟩)
    intro u hu top htop hle
    by_cases hold : u ≤ h
    · exact hkept u (hcov u hu h rfl hold)
    · exact hw.between (hkept h (hwrow.top h rfl)) (hw.top top htop) (by omega) hle hu

/-- **Every move that fits keeps the flags honest.** -/
theorem FlagHonest.step {s : SyncSystem} (hok : SyncOk s) (hflag : FlagHonest s) {m : SyncMove}
    (hm : s.Admits m) (hfits : WindowFits s m) : FlagHonest (s.step env libs ixEnv m) := by
  cases m with
  | gain accountId mailbox v uid =>
      intro a m row hrow hcomplete u hu h hh hle
      have hcov := hflag a m row hrow hcomplete
      rcases gain_uids s accountId mailbox v uid a m row.uidValidity with heq | ⟨rfl, rfl, rfl, heq⟩
      · rw [heq] at hu
        exact hcov u hu h hh hle
      · rw [heq] at hu
        rcases List.mem_append.mp hu with hu | hu
        · exact hcov u hu h hh hle
        · have hw := hok.windows a m row hrow
          have hlt := hm.1 h (hw.subset (hw.top h hh))
          rw [List.mem_singleton] at hu
          omega
  | revalidate accountId mailbox v =>
      intro a m row hrow hcomplete
      rw [revalidate_uids]
      exact hflag a m row hrow hcomplete
  | sync c =>
      obtain ⟨hn, -⟩ := hok.server c.accountId c.mailbox (s.server c.accountId c.mailbox).uidValidity
      have hafter : SyncOk (s.step env libs ixEnv (.sync c)) := hok.sync hm
      rcases syncMailbox_synced env libs ixEnv hok.index hm hn with ⟨found, next, hs⟩ | ⟨e, he⟩
      · intro a m row hrow hcomplete
        by_cases hscope : (a, m) = (c.accountId, c.mailbox)
        · obtain ⟨rfl, rfl⟩ := Prod.mk.inj hscope
          obtain rfl : next = row := Option.some.inj (hs.state.symm.trans hrow)
          have hw := hafter.windows c.accountId c.mailbox next hrow
          rw [hs.uidValidity] at hw ⊢
          exact hs.covered hok.index hw (hok.windows c.accountId c.mailbox)
            (hflag c.accountId c.mailbox) hfits hcomplete
        · obtain ⟨hrows, hstate⟩ := hs.others a m hscope
          have hsame : indexedUids a m (s.step env libs ixEnv (.sync c)).index =
              indexedUids a m s.index := congrArg (List.map MessageRow.uid) hrows
          rw [hsame]
          exact hflag a m row (hstate.symm.trans hrow) hcomplete
      · have hsame : (s.step env libs ixEnv (.sync c)).index = s.index := congrArg Prod.snd he
        intro a m row hrow hcomplete
        rw [hsame] at hrow ⊢
        exact hflag a m row hrow hcomplete

/-- **A call that does not fit leaves a flag that is wrong.** -/
theorem Synced.uncovered {c : SyncCall} {server : ServerMailbox} {found : List Nat}
    {next : SyncStateRow} {ix ix' : Index} (hok : IndexOk ix)
    (hn : (server.uids server.uidValidity).Nodup) {row : SyncStateRow}
    (hrow : stateRow c.accountId c.mailbox ix = some row) (hanew : c.anew server ix = false)
    (hnone : row.highestUid = none) (hcomplete : row.initialWindowComplete = true)
    (hmany : c.limit < (server.uids server.uidValidity).length)
    (hs : Synced c server found next ix ix') :
    next.initialWindowComplete = true ∧
      ¬IndexedUpTo (server.uids server.uidValidity) (indexedUids c.accountId c.mailbox ix')
        next.highestUid := by
  have hstart : c.start server ix = none := by
    rw [SyncCall.start, hanew, hrow, Option.bind_some, hnone]
    rfl
  have hsearch := hs.search
  have hhighest := hs.highest
  have hindexed : ∀ u, u ∈ indexedUids c.accountId c.mailbox ix' ↔
      u ∈ (selectSyncUids found c.limit false).1 := by
    intro u
    rw [hs.indexed, indexedUids_nil hok (by rw [hrow, Option.bind_some, hnone]), SyncCall.selected,
      hstart]
    simp
  rw [hstart] at hsearch
  rw [SyncCall.selected, hstart] at hhighest
  obtain ⟨low, hlow⟩ := selected_newest hsearch.all hn c.limit
  have hlen : (selectSyncUids found c.limit false).1.length = c.limit := by
    rw [selectSyncUids_eq]
    show ((ordered found false).take c.limit).length = c.limit
    rw [List.length_take, (ordered_perm found false).length_eq, hsearch.all.length_eq]
    omega
  constructor
  · rw [hs.complete, hanew, hrow]
    exact hcomplete
  · intro hcov
    -- The newest UID selected is the highest; a UID below the selection is missing.
    obtain ⟨x, hx⟩ : ∃ x, x ∈ (selectSyncUids found c.limit false).1 :=
      List.exists_mem_of_length_pos (by rw [hlen]; exact hs.limit)
    obtain ⟨top, htop, hxtop⟩ := le_max? hx
    have hnext : next.highestUid = some top := by
      rw [hhighest]
      show ([] ++ (selectSyncUids found c.limit false).1.max?.toList).max? = some top
      rw [htop]
      rfl
    have hall : server.uids server.uidValidity ⊆ (selectSyncUids found c.limit false).1 := by
      intro u hu
      by_cases hle : low ≤ u
      · exact (hlow u).mpr ⟨hu, hle⟩
      · have hxlow := ((hlow x).mp hx).2
        exact (hindexed u).mp (hcov u hu top hnext (by omega))
    have := (hn.subperm hall).length_le
    omega

/-- **The flag of the initial window**, in every run in which each call fits: a mailbox said to be
    indexed from its start has every UID up to the highest.  After such a run, a call that does not
    fit and completes leaves a mailbox said to be so that is not. -/
theorem initial_window_honest {s : SyncSystem} (h : SyncRun env libs ixEnv WindowFits s) :
    FlagHonest s ∧
    ∀ c : SyncCall, Honest (s.server c.accountId c.mailbox) c.session → ¬WindowFits s (.sync c) →
      ∀ report, (syncMailbox env libs ixEnv c s.index).1 = .ok report →
        ¬FlagHonest (s.step env libs ixEnv (.sync c)) := by
  constructor
  · refine (Reaches.invariant (P := fun s => SyncOk s ∧ FlagHonest s) ?_ ?_ h).2
    · intro s hs
      refine ⟨.initial hs, fun a m row hrow => ?_⟩
      rw [hs.1] at hrow
      cases hrow
    · rintro s s' ⟨hok, hflag⟩ ⟨m, hm, hfits, rfl⟩
      exact ⟨hok.step hm, hflag.step hok hm hfits⟩
  · intro c hon hno report hreport hflag
    have hok := h.ok
    have hn := (hok.server c.accountId c.mailbox (s.server c.accountId c.mailbox).uidValidity).1
    unfold WindowFits at hno
    push Not at hno
    obtain ⟨row, hrow, hanew, hnone, hcomplete, hmany⟩ := hno
    obtain ⟨row', hrow', hv⟩ := SyncCall.anew_false hanew
    obtain rfl : row = row' := Option.some.inj (hrow.symm.trans hrow')
    rw [hv] at hmany
    rcases syncMailbox_synced env libs ixEnv hok.index hon hn with ⟨found, next, hs⟩ | ⟨e, he⟩
    · obtain ⟨htrue, hgap⟩ := hs.uncovered hok.index hn hrow hanew hnone hcomplete hmany
      have hcov := hflag c.accountId c.mailbox next hs.state htrue
      rw [hs.uidValidity] at hcov
      exact hgap hcov
    · rw [he] at hreport
      cases hreport

end Calls

/-! ## 2. Samples -/

namespace SyncSample

/-- The mailbox has a highest UID, or no state. -/
def started (s : SyncSystem) : Bool :=
  (stateRow "personal" "INBOX" s.index).all (·.highestUid.isSome)

theorem started_fits {s : SyncSystem} {limit : Nat} (h : started s) :
    WindowFits s (.sync (call s limit)) := by
  intro row hrow _ hnone _
  have hrow' : stateRow "personal" "INBOX" s.index = some row := hrow
  rw [started, hrow', Option.all_some, hnone] at h
  cases h

/-- Two messages, a call that indexes both, another message, and a call that goes on. -/
def covered : SyncSystem := after [.inl 1, .inl 2, .inr 2, .inl 3, .inr 1] start

theorem covered_run : SyncRun env libs IndexSample.env WindowFits covered :=
  after_run (fun _ _ => trivial) (fun _ _ h => started_fits h) (.start start_initial)
    (show fair started _ _ by decide)

/-- A call on the empty mailbox, three messages, and a call with room for one. -/
def uncovered : SyncSystem := after [.inr 1, .inl 1, .inl 2, .inl 3, .inr 1] start

end SyncSample

/-- All three messages are indexed. -/
theorem initial_window_honest_sample_run :
    (∃ row, stateRow "personal" "INBOX" SyncSample.covered.index = some row ∧
      row.initialWindowComplete = true ∧ row.highestUid = some 3) ∧
    FlagHonest SyncSample.covered :=
  ⟨⟨_, rfl, by decide, by decide⟩, (initial_window_honest SyncSample.covered_run).1⟩

/-- **The call that finds an empty mailbox first**: the flag stays set, and the two older of the
    messages that follow are not indexed. -/
theorem first_window_after_empty : ∃ s row,
    SyncRun SyncSample.env SyncSample.libs IndexSample.env (fun _ _ => True) s ∧
      stateRow "personal" "INBOX" s.index = some row ∧ row.initialWindowComplete = true ∧
      row.highestUid = some 3 ∧ (s.server "personal" "INBOX").uids row.uidValidity = [1, 2, 3] ∧
      indexedUids "personal" "INBOX" s.index = [3] := by
  have hrun : SyncRun SyncSample.env SyncSample.libs IndexSample.env (fun _ _ => True)
      SyncSample.uncovered :=
    SyncSample.after_run (fun _ _ => trivial) (fun _ _ _ => trivial) (.start SyncSample.start_initial)
      (show SyncSample.fair (fun _ => true) _ _ by decide)
  exact ⟨_, _, hrun, rfl, by decide, by decide, by decide, by decide⟩

end Kirje
