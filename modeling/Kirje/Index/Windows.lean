import Kirje.Index.Calls

/-
  File:      Kirje/Index/Windows.lean
  Subject:   What repeated synchronization leaves in the index, against an honest
             server whose mailboxes only gain messages.

  What is indexed of a mailbox stays a window of it (`Window`): the UIDs from some
  lowest to the highest.  The newest UIDs are one, and the oldest above a window
  extend it.

  * **`sync_leaves_no_gap`**: so it is after every run.
-/

namespace Kirje

open Base MessageIndex

section Calls

variable {env : External} {libs : MailLibraries} {ixEnv : IndexExternal}

/-! ## 1. Windows -/

/-- **A window of the UIDs of a mailbox**: those from some lowest to the highest, which is one of
    them. -/
structure Window (uids indexed : List Nat) (highest : Option Nat) : Prop where
  top : ∀ h, highest = some h → h ∈ indexed
  window : ∃ low, ∀ u, u ∈ indexed ↔ u ∈ uids ∧ low ≤ u ∧ ∃ h, highest = some h ∧ u ≤ h

theorem Window.nil (uids : List Nat) : Window uids [] none := by
  refine ⟨fun h hh => ?_, 0, fun u => ?_⟩
  · cases hh
  · simp

theorem Window.subset {uids indexed : List Nat} {highest : Option Nat}
    (h : Window uids indexed highest) : indexed ⊆ uids := by
  obtain ⟨low, hlow⟩ := h.window
  exact fun u hu => ((hlow u).mp hu).1

theorem Window.le {uids indexed : List Nat} {h : Nat} (hw : Window uids indexed (some h)) {u : Nat}
    (hu : u ∈ indexed) : u ≤ h := by
  obtain ⟨low, hlow⟩ := hw.window
  obtain ⟨-, -, h', hh, hle⟩ := (hlow u).mp hu
  obtain rfl := Option.some.inj hh
  exact hle

/-- No UID between two of a window is missing. -/
theorem Window.between {uids indexed : List Nat} {highest : Option Nat}
    (hw : Window uids indexed highest) {u u₁ u₂ : Nat} (h₁ : u₁ ∈ indexed) (h₂ : u₂ ∈ indexed)
    (hle₁ : u₁ ≤ u) (hle₂ : u ≤ u₂) (hu : u ∈ uids) : u ∈ indexed := by
  obtain ⟨low, hlow⟩ := hw.window
  obtain ⟨-, hl, -⟩ := (hlow u₁).mp h₁
  obtain ⟨-, -, h, hh, hle⟩ := (hlow u₂).mp h₂
  exact (hlow u).mpr ⟨hu, by omega, h, hh, by omega⟩

/-- New UIDs above the highest leave a window. -/
theorem Window.gain {uids indexed : List Nat} {highest : Option Nat}
    (hw : Window uids indexed highest) {uid : Nat} (habove : ∀ u ∈ uids, u < uid) :
    Window (uids ++ [uid]) indexed highest := by
  obtain ⟨low, hlow⟩ := hw.window
  refine ⟨hw.top, low, fun u => ?_⟩
  rw [hlow, List.mem_append, List.mem_singleton]
  constructor
  · rintro ⟨hu, hrest⟩
    exact ⟨Or.inl hu, hrest⟩
  · rintro ⟨hu | rfl, hle, h, hh, huh⟩
    · exact ⟨hu, hle, h, hh, huh⟩
    · have hmem : h ∈ uids := hw.subset (hw.top h hh)
      have := habove h hmem
      omega

/-- **The newest UIDs are a window.** -/
theorem Window.newest {uids batch : List Nat} {low : Nat}
    (hbatch : ∀ u, u ∈ batch ↔ u ∈ uids ∧ low ≤ u) {indexed : List Nat}
    (hindexed : ∀ u, u ∈ indexed ↔ u ∈ batch) : Window uids indexed batch.max? := by
  refine ⟨fun h hh => (hindexed h).mpr (List.max?_mem hh), low, fun u => ?_⟩
  rw [hindexed, hbatch]
  constructor
  · rintro ⟨hu, hle⟩
    exact ⟨hu, hle, le_max? ((hbatch u).mpr ⟨hu, hle⟩)⟩
  · rintro ⟨hu, hle, -⟩
    exact ⟨hu, hle⟩

/-- **The oldest UIDs above a window, with it, are a window**, also where the batch is the highest
    UID again. -/
theorem Window.oldest {uids indexed batch indexed' : List Nat} {h : Nat}
    (hw : Window uids indexed (some h)) (hbatch : ∀ u ∈ batch, u ∈ uids ∧ h ≤ u)
    (hclosed : ∀ u ∈ uids, h < u → ∀ u' ∈ batch, u ≤ u' → u ∈ batch)
    (hindexed : ∀ u, u ∈ indexed' ↔ u ∈ indexed ∨ u ∈ batch) :
    Window uids indexed' ((some h).toList ++ batch.max?.toList).max? := by
  obtain ⟨m, hm⟩ : ∃ m, ((some h).toList ++ batch.max?.toList).max? = some m :=
    Option.isSome_iff_exists.mp (List.isSome_max?_of_mem (a := h) (by simp))
  have hmem : m = h ∨ m ∈ batch := by
    rcases List.mem_append.mp (List.max?_mem hm) with hx | hx
    · exact Or.inl (by simpa using hx)
    · exact Or.inr (List.max?_mem (by simpa using hx))
  have hge : h ≤ m := (List.max?_le_iff hm).mp (Nat.le_refl m) h (by simp)
  have hbound : ∀ u ∈ batch, u ≤ m := by
    intro u hu
    obtain ⟨b, hb, hub⟩ := le_max? hu
    exact Nat.le_trans hub ((List.max?_le_iff hm).mp (Nat.le_refl m) b (by simp [hb]))
  obtain ⟨low, hlow⟩ := hw.window
  have hlowh : low ≤ h := ((hlow h).mp (hw.top h rfl)).2.1
  rw [hm]
  refine ⟨?_, low, fun u => ?_⟩
  · rintro x hx
    obtain rfl := Option.some.inj hx
    rw [hindexed]
    rcases hmem with rfl | hmem
    · exact Or.inl (hw.top _ rfl)
    · exact Or.inr hmem
  · rw [hindexed]
    constructor
    · rintro (hu | hu)
      · have := hw.le hu
        exact ⟨hw.subset hu, ((hlow u).mp hu).2.1, m, rfl, by omega⟩
      · obtain ⟨hmemu, hle⟩ := hbatch u hu
        exact ⟨hmemu, by omega, m, rfl, hbound u hu⟩
    · rintro ⟨hu, hle, x, hx, hux⟩
      obtain rfl := Option.some.inj hx
      by_cases hold : u ≤ h
      · exact Or.inl ((hlow u).mpr ⟨hu, hle, h, rfl, hold⟩)
      · rcases hmem with rfl | hmem
        · omega
        · exact Or.inr (hclosed u hu (by omega) m hmem hux)

/-! ## 2. The window after a call -/

/-- What a search without a highest UID finds. -/
theorem Found.all {server : ServerMailbox} {found : List Nat} (h : Found server none found) :
    found.Perm (server.uids server.uidValidity) := by
  unfold Found at h
  rw [if_neg (by simp)] at h
  exact h

/-- What a search from above the highest UID of a window finds: what is above it, or, where nothing
    is, the highest UID. -/
theorem Found.above {server : ServerMailbox} {found indexed : List Nat} {h : Nat}
    (hbits : ∀ u ∈ server.uids server.uidValidity, u < 2 ^ 32)
    (hw : Window (server.uids server.uidValidity) indexed (some h))
    (hf : Found server (some h) found) :
    (∀ u ∈ found, h ≤ u) ∧ ∀ u ∈ server.uids server.uidValidity, h < u → u ∈ found := by
  have hmem : h ∈ server.uids server.uidValidity := hw.subset (hw.top h rfl)
  unfold Found at hf
  split at hf
  next hmax =>
    obtain rfl := Option.some.inj hmax
    subst hf
    refine ⟨by simp, fun u hu hlt => ?_⟩
    have := hbits u hu
    omega
  next hmax =>
    have hlt : h + 1 ≤ 2 ^ 32 - 1 := by
      have := hbits h hmem
      have : h ≠ 2 ^ 32 - 1 := fun he => hmax (by rw [he])
      omega
    rw [syncSearchKeys, Nat.min_eq_left hlt] at hf
    unfold searchAnswer at hf
    simp only at hf
    split at hf
    next hany =>
      constructor
      · intro u hu
        have := (List.mem_filter.mp (hf.mem_iff.mp hu)).2
        simp only [decide_eq_true_eq] at this
        omega
      · intro u hu hlt
        exact hf.mem_iff.mpr (List.mem_filter.mpr ⟨hu, decide_eq_true hlt⟩)
    next hany =>
      have hno : ∀ u ∈ server.uids server.uidValidity, ¬h + 1 ≤ u := by
        intro u hu hle
        exact hany (List.any_eq_true.mpr ⟨u, hu, decide_eq_true hle⟩)
      constructor
      · intro u hu
        have hmaxu : (server.uids server.uidValidity).max? = some u := by
          simpa using hf.mem_iff.mp hu
        exact (List.max?_le_iff hmaxu).mp (Nat.le_refl u) h hmem
      · intro u hu hlt
        exact absurd hlt (hno u hu)

/-- **After a call the index has a window of the mailbox.** -/
theorem Synced.window {c : SyncCall} {server : ServerMailbox} {found : List Nat} {next : SyncStateRow}
    {ix ix' : Index} (hok : IndexOk ix) (hn : (server.uids server.uidValidity).Nodup)
    (hbits : ∀ u ∈ server.uids server.uidValidity, u < 2 ^ 32)
    (hwin : ∀ row, stateRow c.accountId c.mailbox ix = some row →
      Window (server.uids row.uidValidity) (indexedUids c.accountId c.mailbox ix) row.highestUid)
    (hs : Synced c server found next ix ix') :
    Window (server.uids server.uidValidity) (indexedUids c.accountId c.mailbox ix')
      next.highestUid := by
  have hsearch := hs.search
  have hhighest := hs.highest
  rcases hs.start_cases hok with ⟨hstart, hindexed⟩ | ⟨row, h, hrow, hv, hh, hstart, hanew⟩
  · rw [hstart] at hsearch hhighest
    obtain ⟨low, hlow⟩ := selected_newest hsearch.all hn c.limit
    have hsel : c.selected server ix found = selectSyncUids found c.limit false := by
      rw [SyncCall.selected, hstart]
      rfl
    rw [hsel] at hindexed hhighest
    have hmax : next.highestUid = (selectSyncUids found c.limit false).1.max? := by
      rw [hhighest]
      cases (selectSyncUids found c.limit false).1.max? <;> rfl
    rw [hmax]
    exact Window.newest hlow hindexed
  · have hw := hwin row hrow
    rw [hv, hh] at hw
    have hindexed := hs.indexed
    have hsel : c.selected server ix found = selectSyncUids found c.limit true := by
      rw [SyncCall.selected, hstart]
      rfl
    rw [hstart, hsel] at hhighest
    rw [hstart] at hsearch
    rw [hhighest]
    obtain ⟨hge, habove⟩ := hsearch.above hbits hw
    have hbatch : ∀ u ∈ (selectSyncUids found c.limit true).1,
        u ∈ server.uids server.uidValidity ∧ h ≤ u := by
      intro u hu
      have hmem := selected_subset found c.limit true hu
      exact ⟨hsearch.subset hmem, hge u hmem⟩
    refine hw.oldest hbatch ?_ ?_
    · intro u hu hlt u' hu' hle
      exact selected_oldest (hsearch.nodup hn) (habove u hu hlt) hu' hle
    · intro u
      rw [hindexed, hsel, hanew]
      simp

/-! ## 3. Every run -/

/-- **What holds of every system.** -/
structure SyncOk (s : SyncSystem) : Prop where
  index : IndexOk s.index
  server : ∀ a m v, ((s.server a m).uids v).Nodup ∧ ∀ u ∈ (s.server a m).uids v, u < 2 ^ 32
  windows : ∀ a m row, stateRow a m s.index = some row →
    Window ((s.server a m).uids row.uidValidity) (indexedUids a m s.index) row.highestUid

theorem SyncOk.initial {s : SyncSystem} (h : s.Initial) : SyncOk s := by
  obtain ⟨hindex, hserver⟩ := h
  refine ⟨hindex ▸ .empty, hserver, fun a m row hrow => ?_⟩
  rw [hindex] at hrow
  cases hrow

/-- What a move does not reach. -/
theorem onServer_server (s : SyncSystem) (accountId mailbox : String)
    (f : ServerMailbox → ServerMailbox) (a m : String) :
    ((s.onServer accountId mailbox f).server a m = f (s.server a m) ∧ a = accountId ∧ m = mailbox) ∨
      (s.onServer accountId mailbox f).server a m = s.server a m := by
  unfold SyncSystem.onServer
  simp only
  by_cases h : a = accountId ∧ m = mailbox
  · exact Or.inl ⟨if_pos h, h⟩
  · exact Or.inr (if_neg h)

/-- What a gain does to the UIDs of the server. -/
theorem gain_uids (s : SyncSystem) (accountId mailbox : String) (v uid : Nat) (a m : String)
    (w : Nat) :
    ((s.step env libs ixEnv (.gain accountId mailbox v uid)).server a m).uids w =
        (s.server a m).uids w ∨
      (a = accountId ∧ m = mailbox ∧ w = v ∧
        ((s.step env libs ixEnv (.gain accountId mailbox v uid)).server a m).uids w =
          (s.server a m).uids w ++ [uid]) := by
  rcases onServer_server s accountId mailbox (fun server => {
    server with uids := fun w => if w = v then server.uids v ++ [uid] else server.uids w }) a m with
    ⟨heq, ha, hm⟩ | heq
  · by_cases hw : w = v
    · refine Or.inr ⟨ha, hm, hw, ?_⟩
      rw [SyncSystem.step, heq]
      simp [hw]
    · refine Or.inl ?_
      rw [SyncSystem.step, heq]
      simp [hw]
  · exact Or.inl (by rw [SyncSystem.step, heq])

/-- Renaming the UIDs of a mailbox changes none of them. -/
theorem revalidate_uids (s : SyncSystem) (accountId mailbox : String) (v : Nat) (a m : String)
    (w : Nat) :
    ((s.step env libs ixEnv (.revalidate accountId mailbox v)).server a m).uids w =
      (s.server a m).uids w := by
  rcases onServer_server s accountId mailbox (fun server => { server with uidValidity := v }) a m with
    ⟨heq, -⟩ | heq
  · rw [SyncSystem.step, heq]
  · rw [SyncSystem.step, heq]

/-- A gain keeps the windows, whichever UIDVALIDITY it is under. -/
theorem SyncOk.gain {s : SyncSystem} (hok : SyncOk s) {accountId mailbox : String} {v uid : Nat}
    (habove : ∀ u ∈ (s.server accountId mailbox).uids v, u < uid) (hbits : uid < 2 ^ 32) :
    SyncOk (s.step env libs ixEnv (.gain accountId mailbox v uid)) := by
  refine ⟨hok.index, fun a m w => ?_, fun a m row hrow => ?_⟩
  · obtain ⟨hn, hb⟩ := hok.server a m w
    rcases gain_uids s accountId mailbox v uid a m w with heq | ⟨rfl, rfl, rfl, heq⟩
    · rw [heq]
      exact ⟨hn, hb⟩
    · rw [heq]
      constructor
      · refine List.nodup_append.mpr ⟨hn, List.nodup_singleton uid, fun u hu x hx hux => ?_⟩
        have hlt := habove u hu
        rw [List.mem_singleton] at hx
        omega
      · intro u hu
        rcases List.mem_append.mp hu with hu | hu
        · exact hb u hu
        · rw [List.mem_singleton] at hu
          omega
  · have hw := hok.windows a m row hrow
    rcases gain_uids s accountId mailbox v uid a m row.uidValidity with heq | ⟨rfl, rfl, rfl, heq⟩
    · rw [heq]
      exact hw
    · rw [heq]
      exact hw.gain habove

theorem SyncOk.revalidate {s : SyncSystem} (hok : SyncOk s) (accountId mailbox : String) (v : Nat) :
    SyncOk (s.step env libs ixEnv (.revalidate accountId mailbox v)) := by
  refine ⟨hok.index, fun a m w => ?_, fun a m row hrow => ?_⟩
  · rw [revalidate_uids]
    exact hok.server a m w
  · rw [revalidate_uids]
    exact hok.windows a m row hrow

/-- The index after a call is the index of a run of batches. -/
theorem syncMailbox_indexOk (c : SyncCall) {ix : Index} (hok : IndexOk ix) :
    IndexOk (syncMailbox env libs ixEnv c ix).2 := by
  rcases syncMailbox_cases env libs ixEnv c ix with ⟨_, batch, reset, next, ix', -, -, -, happ, hix⟩ | ⟨e, he⟩
  · rw [hix]
    exact hok.applied happ
  · rw [he]
    exact hok

theorem SyncOk.sync {s : SyncSystem} (hok : SyncOk s) {c : SyncCall}
    (hon : Honest (s.server c.accountId c.mailbox) c.session) :
    SyncOk (s.step env libs ixEnv (.sync c)) := by
  obtain ⟨hn, hbits⟩ := hok.server c.accountId c.mailbox (s.server c.accountId c.mailbox).uidValidity
  refine ⟨syncMailbox_indexOk c hok.index, hok.server, ?_⟩
  show ∀ a m row, stateRow a m (syncMailbox env libs ixEnv c s.index).2 = some row →
    Window ((s.server a m).uids row.uidValidity)
      (indexedUids a m (syncMailbox env libs ixEnv c s.index).2) row.highestUid
  rcases syncMailbox_synced env libs ixEnv hok.index hon hn with ⟨found, next, hs⟩ | ⟨e, he⟩
  · intro a m row hrow
    by_cases hscope : (a, m) = (c.accountId, c.mailbox)
    · obtain ⟨rfl, rfl⟩ := Prod.mk.inj hscope
      obtain rfl : next = row := Option.some.inj (hs.state.symm.trans hrow)
      rw [hs.uidValidity]
      exact hs.window hok.index hn hbits (hok.windows c.accountId c.mailbox)
    · obtain ⟨hrows, hstate⟩ := hs.others a m hscope
      rw [hstate] at hrow
      rw [indexedUids, hrows]
      exact hok.windows a m row hrow
  · rw [he]
    exact hok.windows

/-- **Every move keeps the windows.** -/
theorem SyncOk.step {s : SyncSystem} (hok : SyncOk s) {m : SyncMove} (hm : s.Admits m) :
    SyncOk (s.step env libs ixEnv m) := by
  cases m with
  | gain accountId mailbox v uid => exact hok.gain hm.1 hm.2.2
  | revalidate accountId mailbox v => exact hok.revalidate accountId mailbox v
  | sync c => exact hok.sync hm

theorem SyncRun.ok {P : SyncSystem → SyncMove → Prop} {s : SyncSystem}
    (h : SyncRun env libs ixEnv P s) : SyncOk s := by
  refine Reaches.invariant (P := SyncOk) ?_ ?_ h
  · intro s hs
    exact .initial hs
  · rintro s s' hok ⟨m, hm, -, rfl⟩
    exact hok.step hm

/-- **No gaps**, in every run of synchronizations against a server whose mailboxes only gain
    messages.  What is indexed of a mailbox are the UIDs of one UIDVALIDITY from some lowest to the
    highest, so none between two of them is missing; and after a call that completes, that
    UIDVALIDITY is the one of the server. -/
theorem sync_leaves_no_gap {s : SyncSystem} (h : SyncRun env libs ixEnv (fun _ _ => True) s) :
    (∀ a m, stateRow a m s.index = none → indexedUids a m s.index = []) ∧
    (∀ a m row, stateRow a m s.index = some row →
      (∀ r ∈ rowsOf a m s.index, r.uidValidity = row.uidValidity) ∧
      Window ((s.server a m).uids row.uidValidity) (indexedUids a m s.index) row.highestUid ∧
      ∀ u₁ ∈ indexedUids a m s.index, ∀ u₂ ∈ indexedUids a m s.index,
        ∀ u ∈ (s.server a m).uids row.uidValidity, u₁ ≤ u → u ≤ u₂ →
          u ∈ indexedUids a m s.index) ∧
    ∀ c : SyncCall, Honest (s.server c.accountId c.mailbox) c.session →
      ∀ report, (syncMailbox env libs ixEnv c s.index).1 = .ok report →
        ∃ row, stateRow c.accountId c.mailbox (syncMailbox env libs ixEnv c s.index).2 = some row ∧
          row.uidValidity = (s.server c.accountId c.mailbox).uidValidity := by
  have hok := h.ok
  refine ⟨fun a m hnone => ?_, fun a m row hrow => ⟨?_, hok.windows a m row hrow, ?_⟩, ?_⟩
  · exact indexedUids_nil hok.index (by rw [hnone]; rfl)
  · intro r hr
    obtain ⟨row', hrow', hv, -⟩ := (hok.index.namespaces a m).owned r hr
    obtain rfl := Option.some.inj (hrow.symm.trans hrow')
    exact hv
  · intro u₁ h₁ u₂ h₂ u hu hle₁ hle₂
    exact (hok.windows a m row hrow).between h₁ h₂ hle₁ hle₂ hu
  · intro c hon report hreport
    have hn := (hok.server c.accountId c.mailbox (s.server c.accountId c.mailbox).uidValidity).1
    rcases syncMailbox_synced env libs ixEnv hok.index hon hn with ⟨found, next, hs⟩ | ⟨e, he⟩
    · exact ⟨next, hs.state, hs.uidValidity⟩
    · rw [he] at hreport
      cases hreport

end Calls

/-! ## 4. Samples -/

namespace SyncSample

def env : External where
  payloadDigest _ := ""
  bytesDigest _ := ""
  timestamp _ := ""
  parseTimestamp _ := none
  parseUuid _ := false
  sendRequest := ⟨fun _ => none, fun _ => none⟩
  mailOperation := ⟨fun _ => none, fun _ => none⟩
  mailError := ⟨fun _ => none, fun _ => none⟩
  sendReceipt := ⟨fun _ => none, fun _ => none⟩
  mailReceipt := ⟨fun _ => none, fun _ => none⟩
  base64 _ := none
  utf8 _ := none
  parseIpAddr _ := false

def libs : MailLibraries where
  parseIpv6 _ := false
  parseUrl _ := true
  clientId := .ok ()
  parseMailbox _ := true
  sequenceSet _ := true
  parseAddress _ := true
  contentType _ := true
  assemble _ := true
  relay _ _ := .ok ()

def account : MailAccountConfig where
  id := "personal"
  email := "agent@example.com"
  username := "agent@example.com"
  incoming := ⟨.imap, "imap.example.com", 993, .implicitTls⟩
  outgoing := none
  credentialKind := .appPassword

/-- The response to the fetch of one UID. -/
def response (uid : Nat) : FetchResponse where
  sequence := 1
  uidItems := [uid]
  columns := {
    messageId := none
    inReplyTo := []
    subject := "Hello"
    fromAddrs := []
    toAddrs := []
    sentAt := none
    size := 100
    isRead := false
    isStarred := false
    hasAttachment := none
    truncated := false }

/-- The replies of a server on which every command succeeds. -/
def session (server : ServerMailbox) : ImapSession where
  connect := .ok ()
  examine := .ok (some server.uidValidity, none)
  search key := .ok (searchAnswer (server.uids server.uidValidity) key)
  fetch asked := .ok (asked.map response)

theorem session_honest (server : ServerMailbox) : Honest server (session server) := by
  refine ⟨fun v total h => ?_, fun key found h => ?_, fun asked responses h _ => ?_⟩
  · cases h
    rfl
  · cases h
    exact .refl _
  · cases h
    rw [List.map_map]
    exact .of_eq (List.map_id' asked)

/-- A mailbox without messages on the server, and an empty index. -/
def start : SyncSystem := ⟨Index.empty, fun _ _ => ⟨7, fun _ => []⟩⟩

theorem start_initial : start.Initial :=
  ⟨rfl, fun _ _ _ => ⟨List.nodup_nil, fun _ h => absurd h List.not_mem_nil⟩⟩

def gain (uid : Nat) : SyncMove := .gain "personal" "INBOX" 7 uid

/-- A call with this limit, on the server as it is. -/
def call (s : SyncSystem) (limit : Nat) : SyncCall where
  accountId := "personal"
  mailbox := "INBOX"
  limit := limit
  refresh := false
  credentials := .ok account
  session := session (s.server "personal" "INBOX")
  clock := 0

/-- Messages that arrive, and calls with a limit. -/
def after : List (Nat ⊕ Nat) → SyncSystem → SyncSystem
  | [], s => s
  | .inl uid :: moves, s => after moves (s.step env libs IndexSample.env (gain uid))
  | .inr limit :: moves, s => after moves (s.step env libs IndexSample.env (.sync (call s limit)))

/-- Each message has a UID above the others, and each call comes on a state that passes. -/
def fair (check : SyncSystem → Bool) : List (Nat ⊕ Nat) → SyncSystem → Bool
  | [], _ => true
  | .inl uid :: moves, s =>
      ((s.server "personal" "INBOX").uids 7).all (· < uid) && 0 < uid && uid < 2 ^ 32 &&
        fair check moves (s.step env libs IndexSample.env (gain uid))
  | .inr limit :: moves, s =>
      check s && fair check moves (s.step env libs IndexSample.env (.sync (call s limit)))

theorem after_run {P : SyncSystem → SyncMove → Prop} {check : SyncSystem → Bool}
    (hgain : ∀ s uid, P s (gain uid)) (hcall : ∀ s limit, check s → P s (.sync (call s limit)))
    {moves : List (Nat ⊕ Nat)} {s : SyncSystem} (hs : SyncRun env libs IndexSample.env P s)
    (hfair : fair check moves s) : SyncRun env libs IndexSample.env P (after moves s) := by
  induction moves generalizing s with
  | nil => exact hs
  | cons m moves ih =>
      cases m with
      | inl uid =>
          simp only [fair, Bool.and_eq_true, List.all_eq_true, decide_eq_true_eq] at hfair
          obtain ⟨⟨⟨habove, hpos⟩, hbits⟩, hrest⟩ := hfair
          exact ih (hs.next ⟨gain uid, ⟨habove, hpos, hbits⟩, hgain s uid, rfl⟩) hrest
      | inr limit =>
          simp only [fair, Bool.and_eq_true] at hfair
          exact ih (hs.next ⟨.sync (call s limit), session_honest _, hcall s limit hfair.1, rfl⟩) hfair.2

/-- Three messages, a call with room for two, two more messages, and a call that goes on. -/
def synced : SyncSystem := after [.inl 1, .inl 2, .inl 3, .inr 2, .inl 4, .inl 5, .inr 500] start

theorem synced_run : SyncRun env libs IndexSample.env (fun _ _ => True) synced :=
  after_run (fun _ _ => trivial) (fun _ _ _ => trivial) (.start start_initial)
    (show fair (fun _ => true) _ _ by decide)

end SyncSample

/-- The two newest of three messages and the two after them; the first one stays out, and no other
    does. -/
theorem sync_leaves_no_gap_sample_run :
    indexedUids "personal" "INBOX" SyncSample.synced.index = [3, 2, 4, 5] ∧
    ∀ row, stateRow "personal" "INBOX" SyncSample.synced.index = some row →
      Window ((SyncSample.synced.server "personal" "INBOX").uids row.uidValidity)
        (indexedUids "personal" "INBOX" SyncSample.synced.index) row.highestUid :=
  ⟨by decide, fun row hrow =>
    ((sync_leaves_no_gap SyncSample.synced_run).2.1 "personal" "INBOX" row hrow).2.1⟩

end Kirje
