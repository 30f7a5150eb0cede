import Mathlib.Logic.Relation
import Kirje.Base.Lineage
import Kirje.Base.Rely
import Kirje.Ledger.Adapters

/-
  File:      Kirje/Protocol/Mailboxes.lean
  Subject:   The mailboxes of one account on its server, and what the commands of
             `PimalayaImapReader::apply` (crates/kirje-protocol/src/imap.rs) do to them.

  The server follows RFC 3501 and RFC 6851: a UID is given once, a command on a UID without a
  message succeeds and does nothing, COPY keeps the flags, MOVE takes effect as a whole.  A
  command may take effect although its reply is lost.  Other clients deliver, copy, move and
  flag messages, and expunge those flagged as deleted.

  * `Custody`: the invariant.  Every message that arrived without the deleted flag has a copy
    without it, or one that another client deleted.
  * `Others.custody`, `Mutates.custody`: other clients keep it, and so do the commands, except
    for the deleted flag on a message that was not copied before.
  * `Mutates.doomed`: that is what COPY is for.
-/

namespace Kirje.Mailboxes

open Base

/-! ## 1. The server -/

/-- Where a message is: a mailbox, the UIDVALIDITY of its UIDs, and a UID. -/
structure Place where
  mailbox : String
  uidValidity : Nat
  uid : Nat
  deriving DecidableEq, Repr

/-- A message with its flags. -/
structure Stored (μ : Type) where
  content : μ
  flags : ImapFlag → Bool

/-- A message came to a place: from outside, or from another place. -/
structure Arrival (μ : Type) where
  place : Place
  source : Option Place
  content : μ
  deleted : Bool

/-- A call of `apply`. -/
structure Job where
  account : MailAccountConfig
  secret : String
  operationId : String
  operation : MailboxOperationRequest
  appliedAt : DateTime

/-- A mutating command that the server carried out for a call. -/
structure Effect where
  call : Nat
  job : Job
  place : Place
  command : RemoteCommand

/-- The server: its messages, the UIDVALIDITY of each mailbox and the mailbox each session has
    selected; everything that ever arrived, the places whose message another client flagged as
    deleted, the places a COPY asked for before anything arrived there, and the commands carried
    out, the newest first. -/
structure Server (μ : Type) where
  stored : Place → Option (Stored μ)
  uidValidity : String → Nat
  selected : Nat → Option (String × Nat)
  arrivals : List (Arrival μ)
  discarded : List Place
  foreseen : List Place
  effects : List Effect

variable {μ : Type}

def Stored.flag (m : Stored μ) (flag : ImapFlag) (value : Bool) : Stored μ :=
  { m with flags := Function.update m.flags flag value }

/-- Nothing ever arrived at the place. -/
def Server.Unused (s : Server μ) (p : Place) : Prop := p ∉ s.arrivals.map Arrival.place

def Server.put (s : Server μ) (p : Place) (m : Option (Stored μ)) : Server μ :=
  { s with stored := Function.update s.stored p m }

def Server.arrive (s : Server μ) (p : Place) (source : Option Place) (m : Stored μ) : Server μ :=
  { s with
    stored := Function.update s.stored p (some m)
    arrivals := ⟨p, source, m.content, m.flags .deleted⟩ :: s.arrivals }

def Server.select (s : Server μ) (n : Nat) (mailbox : Option (String × Nat)) : Server μ :=
  { s with selected := Function.update s.selected n mailbox }

/-- A step of another client, or of the server itself. -/
inductive Others : Server μ → Server μ → Prop where
  | deliver (s) (p) (m : Stored μ) (hp : s.Unused p) : Others s (s.arrive p none m)
  | flag (s) (p) (m : Stored μ) (h : s.stored p = some m) (flag : ImapFlag) (value : Bool) :
      Others s { s.put p (some (m.flag flag value)) with
        discarded := if flag = .deleted ∧ value = true then p :: s.discarded else s.discarded }
  | copy (s) (p q) (m : Stored μ) (h : s.stored p = some m) (hq : s.Unused q) :
      Others s (s.arrive q (some p) m)
  | move (s) (p q) (m : Stored μ) (h : s.stored p = some m) (hq : s.Unused q) :
      Others s ((s.arrive q (some p) m).put p none)
  | expunge (s) (p) (m : Stored μ) (h : s.stored p = some m) (hd : m.flags .deleted = true) :
      Others s (s.put p none)
  | revalidate (s : Server μ) (mailbox) (v : Nat) :
      Others s { s with uidValidity := Function.update s.uidValidity mailbox v }

/-- The UID a mutating command of IMAP is about. -/
def targetUid : RemoteCommand → Option Nat
  | .uidStore uid _ _ | .uidMove uid _ | .uidCopy uid _ => some uid
  | .connect .. | .select .. | .smtpSend .. => none

/-- What a command does to the message at a place; `resolve` tells which mailbox a name names. -/
inductive Mutates (resolve : String → String) (s : Server μ) (p : Place) :
    RemoteCommand → Server μ → Prop where
  | store (m : Stored μ) (h : s.stored p = some m) (uid : Nat) (add : Bool) (flag : ImapFlag) :
      Mutates resolve s p (.uidStore uid add flag) (s.put p (some (m.flag flag add)))
  | move (m : Stored μ) (h : s.stored p = some m) (uid : Nat) (destination : String) (q : Place)
      (hq : s.Unused q) (hm : q.mailbox = resolve destination) :
      Mutates resolve s p (.uidMove uid destination) ((s.arrive q (some p) m).put p none)
  | copy (m : Stored μ) (h : s.stored p = some m) (uid : Nat) (destination : String) (q : Place)
      (hq : s.Unused q) (hm : q.mailbox = resolve destination) :
      Mutates resolve s p (.uidCopy uid destination) (s.arrive q (some p) m)
  | foreseen (h : s.Unused p) (uid : Nat) (destination : String) :
      Mutates resolve s p (.uidCopy uid destination) { s with foreseen := p :: s.foreseen }
  | nothing (h : s.stored p = none) (c : RemoteCommand)
      (hc : ∀ uid destination, c = .uidCopy uid destination → ¬s.Unused p) : Mutates resolve s p c s

/-- The server carries out a command of call `n`, or refuses it; the reply to a command that it
    carried out may get lost. -/
inductive Perform (resolve : String → String) (n : Nat) (j : Job) :
    Server μ → (c : RemoteCommand) → c.Reply → Server μ → Prop where
  | failed (s) (c : RemoteCommand) (r : c.Reply) (h : c.answeredOk r = false) :
      Perform resolve n j s c r s
  | connected (s) (account : MailAccountConfig) (secret : String) (capabilities : List Capability) :
      Perform resolve n j s (.connect account secret) (Except.ok capabilities) (s.select n none)
  | selected (s) (mailbox : String) (reported : Option Nat)
      (h : ∀ v ∈ reported, v = s.uidValidity (resolve mailbox)) :
      Perform resolve n j s (.select mailbox) (Except.ok reported)
        (s.select n (some (resolve mailbox, s.uidValidity (resolve mailbox))))
  | mutated (s) (mailbox : String) (v uid : Nat) (hs : s.selected n = some (mailbox, v))
      (c : RemoteCommand) (hc : targetUid c = some uid) (r : c.Reply) (s')
      (h : Mutates resolve s ⟨mailbox, v, uid⟩ c s') :
      Perform resolve n j s c r { s' with effects := ⟨n, j, ⟨mailbox, v, uid⟩, c⟩ :: s'.effects }

/-! ## 2. Custody -/

/-- The place has a message that is not flagged as deleted. -/
def Server.Live (s : Server μ) (p : Place) : Prop :=
  ∃ m, s.stored p = some m ∧ m.flags .deleted = false

/-- The message of the place may go: another client deleted it, a COPY asked for it before it came,
    or it was copied. -/
def Server.Spent (s : Server μ) (p : Place) : Prop :=
  p ∈ s.discarded ∨ p ∈ s.foreseen ∨ ∃ a ∈ s.arrivals, a.source = some p ∧ a.deleted = false

/-- The same, or the message came flagged as deleted. -/
def Server.Doomed (s : Server μ) (p : Place) : Prop :=
  (∃ a ∈ s.arrivals, a.place = p ∧ a.deleted = true) ∨ s.Spent p

/-- The message is there, or it is gone for a reason that is not a call's. -/
def Server.Safe (s : Server μ) (p : Place) : Prop := s.Live p ∨ p ∈ s.discarded ∨ p ∈ s.foreseen

/-- **Nothing is lost.** -/
structure Custody (s : Server μ) : Prop where
  lineage : Lineage Arrival.place Arrival.source s.arrivals
  recorded : ∀ p m, s.stored p = some m → ∃ a ∈ s.arrivals, a.place = p ∧ a.content = m.content
  inherited : ∀ a ∈ s.arrivals, ∀ p, a.source = some p →
    ∃ b ∈ s.arrivals, b.place = p ∧ b.content = a.content
  spent : ∀ a ∈ s.arrivals, a.deleted = false → s.Live a.place ∨ s.Spent a.place
  kept : Kept Arrival.place Arrival.source (fun a => a.deleted = false) s.Safe s.arrivals

/-- What grows only. -/
structure Grows (s s' : Server μ) : Prop where
  arrivals : s.arrivals <:+ s'.arrivals
  discarded : s.discarded ⊆ s'.discarded
  foreseen : s.foreseen ⊆ s'.foreseen

section Custody

variable {s s' s'' : Server μ} {p q : Place} {m : Stored μ}

theorem Grows.refl (s : Server μ) : Grows s s :=
  ⟨List.suffix_refl _, List.Subset.refl _, List.Subset.refl _⟩

/-- An arrival is all that happens to the record. -/
theorem Grows.arrive {source : Option Place} : Grows s (s.arrive q source m) :=
  ⟨List.suffix_cons _ _, List.Subset.refl _, List.Subset.refl _⟩

theorem Grows.trans (h : Grows s s') (h' : Grows s' s'') : Grows s s'' :=
  ⟨h.arrivals.trans h'.arrivals, List.Subset.trans h.discarded h'.discarded,
    List.Subset.trans h.foreseen h'.foreseen⟩

theorem Grows.doomed (h : Grows s s') (hp : s.Doomed p) : s'.Doomed p := by
  rcases hp with ⟨a, ha, hd⟩ | hp | hp | ⟨a, ha, hs⟩
  · exact .inl ⟨a, h.arrivals.subset ha, hd⟩
  · exact .inr (.inl (h.discarded hp))
  · exact .inr (.inr (.inl (h.foreseen hp)))
  · exact .inr (.inr (.inr ⟨a, h.arrivals.subset ha, hs⟩))

theorem Custody.mem_places (h : Custody s) (hm : s.stored p = some m) :
    p ∈ s.arrivals.map Arrival.place := by
  obtain ⟨a, ha, rfl, -⟩ := h.recorded p m hm
  exact List.mem_map_of_mem ha

/-- A message flagged as deleted is not live. -/
theorem Server.not_live (hm : s.stored p = some m) (hd : m.flags .deleted = true) : ¬s.Live p := by
  intro hl
  obtain ⟨m', hm', hlive⟩ := hl
  obtain rfl : m = m' := Option.some.inj (hm.symm.trans hm')
  exact absurd (hlive.symm.trans hd) Bool.false_ne_true

theorem Custody.ne (h : Custody s) (hm : s.stored p = some m) (hq : s.Unused q) : p ≠ q := by
  intro he
  subst he
  exact hq (h.mem_places hm)

theorem Server.stored_put_self {o : Option (Stored μ)} : (s.put p o).stored p = o := by
  simp only [Server.put, Function.update_self]

theorem Server.stored_put_of_ne (hne : p ≠ q) {o : Option (Stored μ)} :
    (s.put q o).stored p = s.stored p := by
  simp only [Server.put, Function.update_of_ne hne]

theorem Server.stored_arrive_self {source : Option Place} :
    (s.arrive p source m).stored p = some m := by
  simp only [Server.arrive, Function.update_self]

theorem Server.stored_arrive_of_ne (hne : p ≠ q) {source : Option Place} :
    (s.arrive q source m).stored p = s.stored p := by
  simp only [Server.arrive, Function.update_of_ne hne]

theorem Server.live_put_of_ne (hne : p ≠ q) {o : Option (Stored μ)} :
    (s.put q o).Live p ↔ s.Live p := by
  simp only [Server.Live, Server.stored_put_of_ne hne]

theorem Server.live_arrive_of_ne (hne : p ≠ q) {source : Option Place} :
    (s.arrive q source m).Live p ↔ s.Live p := by
  simp only [Server.Live, Server.stored_arrive_of_ne hne]

theorem Server.Spent.arrive (h : s.Spent p) {source : Option Place} :
    (s.arrive q source m).Spent p := by
  rcases h with h | h | ⟨a, ha, hs⟩
  · exact .inl h
  · exact .inr (.inl h)
  · exact .inr (.inr ⟨a, .tail _ ha, hs⟩)

/-- A message arrives where none ever was. -/
theorem Custody.arrive (h : Custody s) (hq : s.Unused q) {source : Option Place}
    (hsource : ∀ p, source = some p → s.stored p = some m) : Custody (s.arrive q source m) := by
  have hold : ∀ a ∈ s.arrivals, a.place ≠ q := by
    intro a ha he
    exact hq (he ▸ List.mem_map_of_mem ha)
  have hlive : (m.flags .deleted = false) → (s.arrive q source m).Live q := fun hd =>
    ⟨m, Server.stored_arrive_self, hd⟩
  refine ⟨⟨hq, fun p hp => h.mem_places (hsource p hp), h.lineage⟩, fun p m' hm' => ?_,
    fun a ha p hp => ?_, fun a ha hd => ?_, ?_⟩
  · by_cases hpq : p = q
    · subst hpq
      obtain rfl : m = m' := Option.some.inj (Server.stored_arrive_self.symm.trans hm')
      exact ⟨_, .head _, rfl, rfl⟩
    · obtain ⟨a, ha, hap, hac⟩ := h.recorded p m' ((Server.stored_arrive_of_ne hpq).symm.trans hm')
      exact ⟨a, .tail _ ha, hap, hac⟩
  · rcases List.mem_cons.mp ha with rfl | ha
    · obtain ⟨b, hb, hbp, hbc⟩ := h.recorded p m (hsource p hp)
      exact ⟨b, .tail _ hb, hbp, hbc⟩
    · obtain ⟨b, hb, hbp, hbc⟩ := h.inherited a ha p hp
      exact ⟨b, .tail _ hb, hbp, hbc⟩
  · rcases List.mem_cons.mp ha with rfl | ha
    · exact .inl (hlive hd)
    · rcases h.spent a ha hd with hl | hs
      · exact .inl ((Server.live_arrive_of_ne (hold a ha)).mpr hl)
      · exact .inr hs.arrive
  · refine (h.kept.mono fun c hc _ hs => ?_).birth fun hd => .inl (hlive hd)
    rcases hs with hl | hs
    · exact .inl ((Server.live_arrive_of_ne (hold c hc)).mpr hl)
    · exact .inr hs

/-- **A message changes its flags or goes**; unless it stays live, it has to be doomed. -/
theorem Custody.put (h : Custody s) {o : Option (Stored μ)}
    (ho : ∀ m', o = some m' → ∃ m, s.stored p = some m ∧ m.content = m'.content)
    (hdoomed : s.Live p → (s.put p o).Live p ∨ s.Doomed p) : Custody (s.put p o) := by
  have hborn : ∀ a ∈ s.arrivals, a.deleted = false → a.place = p →
      (s.Live p → (s.put p o).Live p ∨ s.Spent p) := by
    intro a ha hd hap hl
    rcases hdoomed hl with hl | ⟨b, hb, hbp, hbd⟩ | hs
    · exact .inl hl
    · obtain rfl := h.lineage.item_inj ha hb (hap.trans hbp.symm)
      exact absurd (hd.symm.trans hbd) Bool.false_ne_true
    · exact .inr hs
  refine ⟨h.lineage, fun p' m' hm' => ?_, h.inherited, fun a ha hd => ?_, ?_⟩
  · by_cases hp : p' = p
    · subst hp
      obtain ⟨m, hm, hc⟩ := ho m' (Server.stored_put_self.symm.trans hm')
      obtain ⟨a, ha, hap, hac⟩ := h.recorded p' m hm
      exact ⟨a, ha, hap, hac.trans hc⟩
    · exact h.recorded p' m' ((Server.stored_put_of_ne hp).symm.trans hm')
  · by_cases hp : a.place = p
    · rcases h.spent a ha hd with hl | hs
      · rw [hp] at hl ⊢
        exact hborn a ha hd hp hl
      · exact .inr hs
    · exact (h.spent a ha hd).imp (Server.live_put_of_ne hp).mpr id
  · have hother : ∀ c : Arrival μ, c.place ≠ p → s.Safe c.place → (s.put p o).Safe c.place :=
      fun c hc hs => hs.imp (Server.live_put_of_ne hc).mpr id
    by_cases hl : s.Live p → (s.put p o).Live p ∨ p ∈ s.discarded ∨ p ∈ s.foreseen
    · refine h.kept.mono fun c _ _ hs => ?_
      by_cases hc : c.place = p
      · rw [hc] at hs ⊢
        rcases hs with hs | hs
        · exact hl hs
        · exact .inr hs
      · exact hother c hc hs
    · -- The message was live and is not any more: it was copied, or it came flagged as deleted.
      obtain ⟨hlive, hgone⟩ := Classical.not_imp.mp hl
      rcases hdoomed hlive with hs | ⟨b, hb, hbp, hbd⟩ | hs | hs | ⟨b, hb, hbs, hbd⟩
      · exact absurd (.inl hs) hgone
      · refine h.kept.mono fun c hc hd hs => hother c (fun he => ?_) hs
        obtain rfl := h.lineage.item_inj hc hb (he.trans hbp.symm)
        exact absurd (hd.symm.trans hbd) Bool.false_ne_true
      · exact absurd (.inr (.inl hs)) hgone
      · exact absurd (.inr (.inr hs)) hgone
      · exact h.kept.retire h.lineage hb hbd hbs fun c _ _ hc hs => hother c hc hs

/-- More places are excused. -/
theorem Custody.excuse (h : Custody s) {discarded foreseen : List Place}
    (hd : s.discarded ⊆ discarded) (hf : s.foreseen ⊆ foreseen) :
    Custody { s with discarded := discarded, foreseen := foreseen } := by
  refine ⟨h.lineage, h.recorded, h.inherited, fun a ha hlive => (h.spent a ha hlive).imp_right ?_,
    h.kept.mono fun c _ _ hs => hs.imp_right ?_⟩
  · exact fun hs => hs.imp (fun h => hd h) (.imp_left fun h => hf h)
  · exact fun hs => hs.imp (fun h => hd h) fun h => hf h

/-- A message moves to a place where none ever was. -/
theorem Custody.move (h : Custody s) (hm : s.stored p = some m) (hq : s.Unused q) :
    Custody ((s.arrive q (some p) m).put p none) := by
  have hstill : (s.arrive q (some p) m).stored p = some m :=
    (Server.stored_arrive_of_ne (h.ne hm hq)).trans hm
  have harrived : Custody (s.arrive q (some p) m) := h.arrive hq fun p' hp' => Option.some.inj hp' ▸ hm
  refine harrived.put (fun _ he => by cases he) fun hl => ?_
  obtain ⟨m', hm', hd⟩ := hl
  obtain rfl : m = m' := Option.some.inj (hstill.symm.trans hm')
  exact .inr (.inr (.inr (.inr ⟨_, .head _, rfl, hd⟩)))

theorem Stored.flag_live {flag : ImapFlag} {value : Bool} (h : ¬(flag = .deleted ∧ value = true))
    (hd : m.flags .deleted = false) : (m.flag flag value).flags .deleted = false := by
  by_cases hf : ImapFlag.deleted = flag
  · subst hf
    obtain rfl : value = false := by simpa using h
    simp only [Stored.flag, Function.update_self]
  · simp only [Stored.flag, Function.update_of_ne hf, hd]

/-- A flag of a message; the deleted flag needs a reason. -/
theorem Custody.flag (h : Custody s) (hm : s.stored p = some m) {flag : ImapFlag} {value : Bool}
    (hdoomed : flag = .deleted ∧ value = true → s.Doomed p) :
    Custody (s.put p (some (m.flag flag value))) := by
  refine h.put (fun m' he => ⟨m, hm, ?_⟩) fun hl => ?_
  · exact Option.some.inj he ▸ rfl
  · by_cases hf : flag = .deleted ∧ value = true
    · exact .inr (hdoomed hf)
    · obtain ⟨m', hm', hd⟩ := hl
      obtain rfl : m = m' := Option.some.inj (hm.symm.trans hm')
      exact .inl ⟨_, Server.stored_put_self, Stored.flag_live hf hd⟩

/-! ## 3. Steps -/

/-- **Whatever other clients do, nothing is lost but what they delete.** -/
theorem Others.custody (hs : Others s s') (h : Custody s) : Custody s' := by
  cases hs with
  | deliver p m hp => exact h.arrive hp fun _ he => by cases he
  | flag p m hm flag value =>
      by_cases hf : flag = .deleted ∧ value = true
      · rw [if_pos hf]
        have hexcused := h.excuse (List.subset_cons_self p s.discarded) (List.Subset.refl s.foreseen)
        exact hexcused.flag hm fun _ => .inr (.inl (.head _))
      · rw [if_neg hf]
        exact h.flag hm fun hd => absurd hd hf
  | copy p q m hm hq => exact h.arrive hq fun _ he => Option.some.inj he ▸ hm
  | move p q m hm hq => exact h.move hm hq
  | expunge p m hm hd =>
      exact h.put (fun _ he => by cases he) fun hl => absurd hl (Server.not_live hm hd)
  | revalidate mailbox v => exact ⟨h.lineage, h.recorded, h.inherited, h.spent, h.kept⟩

theorem Others.grows (hs : Others s s') : Grows s s' := by
  cases hs with
  | deliver => exact .arrive
  | flag p m hm flag value =>
      refine ⟨List.suffix_refl _, ?_, List.Subset.refl _⟩
      by_cases hf : flag = .deleted ∧ value = true
      · rw [if_pos hf]
        exact List.subset_cons_self _ _
      · rw [if_neg hf]
        exact List.Subset.refl _
  | copy => exact .arrive
  | move => exact ⟨List.suffix_cons _ _, List.Subset.refl _, List.Subset.refl _⟩
  | expunge => exact ⟨List.suffix_refl _, List.Subset.refl _, List.Subset.refl _⟩
  | revalidate => exact ⟨List.suffix_refl _, List.Subset.refl _, List.Subset.refl _⟩

variable {resolve : String → String} {c : RemoteCommand}

/-- **A command loses nothing** if the deleted flag is only set where the message is doomed. -/
theorem Mutates.custody (hs : Mutates resolve s p c s') (h : Custody s)
    (hdoomed : ∀ uid, c = .uidStore uid true .deleted → s.Doomed p) : Custody s' := by
  cases hs with
  | store m hm uid add flag =>
      refine h.flag hm fun hf => hdoomed uid ?_
      obtain ⟨rfl, rfl⟩ := hf
      rfl
  | move m hm uid destination q hq => exact h.move hm hq
  | copy m hm uid destination q hq => exact h.arrive hq fun _ he => Option.some.inj he ▸ hm
  | foreseen hu uid destination =>
      exact h.excuse (List.Subset.refl s.discarded) (List.subset_cons_self p s.foreseen)
  | nothing => exact h

theorem Mutates.grows (hs : Mutates resolve s p c s') : Grows s s' := by
  cases hs with
  | store => exact ⟨List.suffix_refl _, List.Subset.refl _, List.Subset.refl _⟩
  | move => exact ⟨List.suffix_cons _ _, List.Subset.refl _, List.Subset.refl _⟩
  | copy => exact .arrive
  | foreseen => exact ⟨List.suffix_refl _, List.Subset.refl _, List.subset_cons_self _ _⟩
  | nothing => exact .refl _

/-- **After a COPY the message is doomed**: it was copied, or there was nothing to copy. -/
theorem Mutates.doomed (h : Custody s) {uid : Nat} {destination : String}
    (hs : Mutates resolve s p (.uidCopy uid destination) s') : s'.Doomed p := by
  have hgone : ¬s.Live p → ¬s.Unused p → s.Doomed p := by
    intro hl hu
    obtain ⟨a, ha, rfl⟩ := List.mem_map.mp (not_not.mp hu)
    cases hd : a.deleted with
    | true => exact .inl ⟨a, ha, rfl, hd⟩
    | false => exact .inr ((h.spent a ha hd).resolve_left hl)
  cases hs with
  | copy m hm _ _ q hq _ =>
      cases hd : m.flags .deleted with
      | false => exact .inr (.inr (.inr ⟨_, .head _, rfl, hd⟩))
      | true =>
          exact Grows.arrive.doomed (hgone (Server.not_live hm hd) fun hu => hu (h.mem_places hm))
  | foreseen hu => exact .inr (.inr (.inl (.head _)))
  | nothing hn _ hc =>
      refine hgone ?_ (hc uid destination rfl)
      intro hl
      obtain ⟨m, hm, -⟩ := hl
      rw [hn] at hm
      cases hm

end Custody

end Kirje.Mailboxes
