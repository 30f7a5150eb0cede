import Kirje.Ledger.AtMostOnce
import Kirje.Protocol.Mailboxes

/-
  File:      Kirje/Protocol/Safekeeping.lean
  Subject:   `PimalayaImapReader::apply` (crates/kirje-protocol/src/imap.rs) beside other
             clients: any number of calls on one account, each at any of its commands.

  Archive and delete without the MOVE extension are two commands, COPY and STORE of the
  deleted flag, and between them the mailbox may change in any way.  The calls rely on one
  another for no more than that nothing is taken back from what `Custody` records.

  * `does_imapApply`: one call, whatever happens between its commands.
  * **`no_message_lost`**: on every run no message is lost, every change hits the message that
    the operation names, and the result of a call says what was carried out.
-/

namespace Kirje.Mailboxes

open Base

variable {μ : Type} (env : External) (libs : MailLibraries) (resolve : String → String)

/-! ## 1. What a call is for -/

/-- The mutating commands that an operation may send. -/
def commands (operation : MailboxOperationRequest) : List RemoteCommand :=
  let uid := operation.reference.uid
  match operation.kind with
  | .setRead => [.uidStore uid (operation.value == some true) .seen]
  | .setStarred => [.uidStore uid (operation.value == some true) .flagged]
  | .move | .archive | .delete =>
      operation.destination.toList.flatMap fun destination =>
        [.uidMove uid destination, .uidCopy uid destination, .uidStore uid true .deleted]

/-- The commands of a whole call, the newest first. -/
def Completes (operation : MailboxOperationRequest) (sent : List RemoteCommand) : Prop :=
  let uid := operation.reference.uid
  match operation.kind with
  | .setRead => sent = [.uidStore uid (operation.value == some true) .seen]
  | .setStarred => sent = [.uidStore uid (operation.value == some true) .flagged]
  | .move | .archive | .delete => ∃ destination ∈ operation.destination,
      if destination = operation.reference.mailbox then sent = []
      else sent = [.uidMove uid destination] ∨
        sent = [.uidStore uid true .deleted, .uidCopy uid destination]

/-- The place an operation names, where its reference is pinned. -/
def Names (operation : MailboxOperationRequest) (p : Place) : Prop :=
  p.mailbox = resolve operation.reference.mailbox ∧ p.uid = operation.reference.uid ∧
    operation.reference.uidValidity = some p.uidValidity

/-- The effect is on the message that its operation names, by a command of the operation. -/
def Effect.Aims (e : Effect) : Prop :=
  Names resolve e.job.operation e.place ∧ e.command ∈ commands e.job.operation

/-- The commands carried out for a call, the newest first. -/
def Server.sent (s : Server μ) (n : Nat) : List RemoteCommand :=
  (s.effects.filter fun e => e.call = n).map Effect.command

/-- What the result of a call says: nothing was carried out, or everything was. -/
def Ended (n : Nat) (j : Job) (s : Server μ) :
    Except RemoteAttemptError MailboxOperationReceipt → Prop
  | .error e => e.mutationStarted = false → s.sent n = []
  | .ok _ => Completes j.operation (s.sent n)

/-! ## 2. Calls side by side -/

/-- What a call relies on. -/
structure Rely (n : Nat) (s s' : Server μ) : Prop where
  grows : Grows s s'
  session : s'.selected n = s.selected n
  own : s'.sent n = s.sent n

/-- What always holds. -/
structure Inv (s : Server μ) : Prop where
  custody : Custody s
  aimed : ∀ e ∈ s.effects, e.Aims resolve

variable (μ) in
/-- The calls share the server; other clients act before and after every command. -/
def mailSharing : Sharing RemoteCommand RemoteCommand.Reply (Server μ) Job where
  exec n j s c r s' := ∃ s₁ s₂, Relation.ReflTransGen Others s s₁ ∧ Perform resolve n j s₁ c r s₂ ∧
    Relation.ReflTransGen Others s₂ s'
  leave _ s := s
  rely := Rely
  inv := Inv resolve

/-- The program of a call. -/
def Job.body (j : Job) : Remote (Except RemoteAttemptError MailboxOperationReceipt) :=
  imapApply env libs j.account j.secret j.operationId j.operation j.appliedAt

variable {env libs resolve} {s s' s'' : Server μ} {n m : Nat} {j : Job}

theorem Rely.refl (n : Nat) (s : Server μ) : Rely n s s := ⟨.refl s, rfl, rfl⟩

theorem Rely.trans (h : Rely n s s') (h' : Rely n s' s'') : Rely n s s'' :=
  ⟨h.grows.trans h'.grows, h'.session.trans h.session, h'.own.trans h.own⟩

theorem mail_lawful : (mailSharing μ resolve).Lawful where
  refl := Rely.refl
  trans _ _ _ _ h h' := h.trans h'
  leave _ _ _ _ := .refl _ _
  inv_leave _ _ h := h

/-! ## 3. One command -/

/-- Other clients change neither the sessions of the calls nor what was carried out for them. -/
theorem Others.keeps (h : Others s s') : s'.selected = s.selected ∧ s'.effects = s.effects := by
  cases h <;> exact ⟨rfl, rfl⟩

theorem others_effects (h : Relation.ReflTransGen Others s s') : s'.effects = s.effects := by
  induction h with
  | refl => rfl
  | tail _ hs ih => exact hs.keeps.2.trans ih

theorem others_rely (h : Relation.ReflTransGen Others s s') : Rely n s s' := by
  induction h with
  | refl => exact .refl n s
  | tail _ hs ih =>
      refine ih.trans ⟨hs.grows, congrFun hs.keeps.1 n, ?_⟩
      rw [Server.sent, Server.sent, hs.keeps.2]

theorem others_inv (h : Relation.ReflTransGen Others s s') (hi : Inv resolve s) :
    Inv resolve s' := by
  induction h with
  | refl => exact hi
  | tail _ hs ih => exact ⟨hs.custody ih.custody, hs.keeps.2.symm ▸ ih.aimed⟩

theorem Mutates.keeps {p : Place} {c : RemoteCommand} (h : Mutates resolve s p c s') :
    s'.selected = s.selected ∧ s'.effects = s.effects := by
  cases h <;> exact ⟨rfl, rfl⟩

/-- A command of a call changes nothing that another call relies on. -/
theorem Perform.rely {c : RemoteCommand} {r : c.Reply} (h : Perform resolve n j s c r s')
    (hm : m ≠ n) : Rely m s s' := by
  cases h with
  | failed => exact .refl m s
  | connected =>
      exact ⟨⟨List.suffix_refl _, List.Subset.refl _, List.Subset.refl _⟩,
        Function.update_of_ne hm _ _, rfl⟩
  | selected =>
      exact ⟨⟨List.suffix_refl _, List.Subset.refl _, List.Subset.refl _⟩,
        Function.update_of_ne hm _ _, rfl⟩
  | mutated mailbox v uid hs _ _ _ s₁ hmut =>
      refine ⟨⟨hmut.grows.1, hmut.grows.2, hmut.grows.3⟩, congrFun hmut.keeps.1 m, ?_⟩
      have hne : ¬n = m := fun he => hm he.symm
      simp only [Server.sent, List.filter_cons, hne, decide_false, hmut.keeps.2]
      rfl

/-- What the server has when it carries out a mutating command of a call. -/
structure Sends (resolve : String → String) (n : Nat) (j : Job) (c : RemoteCommand) (s : Server μ) :
    Prop where
  target : targetUid c = some j.operation.reference.uid
  listed : c ∈ commands j.operation
  session : ∃ v, s.selected n = some (resolve j.operation.reference.mailbox, v) ∧
    j.operation.reference.uidValidity = some v
  doomed : c = .uidStore j.operation.reference.uid true .deleted →
    ∀ p, Names resolve j.operation p → s.Doomed p

theorem Perform.inv {c : RemoteCommand} {r : c.Reply} (h : Perform resolve n j s c r s')
    (hi : Inv resolve s) (hsends : c.mutating = true → Sends resolve n j c s) : Inv resolve s' := by
  cases h with
  | failed => exact hi
  | connected => exact ⟨⟨hi.1.1, hi.1.2, hi.1.3, hi.1.4, hi.1.5⟩, hi.2⟩
  | selected => exact ⟨⟨hi.1.1, hi.1.2, hi.1.3, hi.1.4, hi.1.5⟩, hi.2⟩
  | mutated mailbox v uid hs _ hc _ s₁ hmut =>
      have hsend := hsends (by cases c <;> first | rfl | cases hc)
      obtain ⟨w, hw, hpin⟩ := hsend.session
      obtain rfl : j.operation.reference.uid = uid := Option.some.inj (hsend.target.symm.trans hc)
      obtain ⟨rfl, rfl⟩ : resolve j.operation.reference.mailbox = mailbox ∧ w = v := by
        simpa using hw.symm.trans hs
      have hnames : Names resolve j.operation
          ⟨resolve j.operation.reference.mailbox, w, j.operation.reference.uid⟩ := ⟨rfl, rfl, hpin⟩
      have hcustody : Custody s₁ := by
        refine hmut.custody hi.custody fun uid' hstore => ?_
        refine hsend.doomed ?_ _ hnames
        rw [hstore] at hc ⊢
        obtain rfl : uid' = j.operation.reference.uid := Option.some.inj hc
        rfl
      refine ⟨⟨hcustody.1, hcustody.2, hcustody.3, hcustody.4, hcustody.5⟩, fun e he => ?_⟩
      rcases List.mem_cons.mp he with rfl | he
      · exact ⟨hnames, hsend.listed⟩
      · exact hi.aimed e (hmut.keeps.2 ▸ he)

/-- **A command, with other clients before and after it.** -/
theorem exec_spec {c : RemoteCommand} {r : c.Reply} (hi : Inv resolve s)
    (h : (mailSharing μ resolve).exec n j s c r s')
    (hsends : c.mutating = true → ∀ s₁, Rely n s s₁ → Sends resolve n j c s₁) :
    (mailSharing μ resolve).Allowed n s s' ∧
      ∃ s₁ s₂, Rely n s s₁ ∧ Inv resolve s₁ ∧ Perform resolve n j s₁ c r s₂ ∧ Rely n s₂ s' := by
  obtain ⟨s₁, s₂, hbefore, hperform, hafter⟩ := h
  have hi₁ := others_inv hbefore hi
  have hi₂ := hperform.inv hi₁ fun hm => hsends hm s₁ (others_rely hbefore)
  refine ⟨⟨fun m hm => ?_, others_inv hafter hi₂⟩, s₁, s₂, others_rely hbefore, hi₁, hperform,
    others_rely hafter⟩
  exact ((others_rely hbefore).trans (hperform.rely hm)).trans (others_rely hafter)

/-! ## 4. One call -/

variable {α β ε ε' : Type}

theorem does_attempt {pre : Server μ → Prop} {post : Server μ → Except ε' β → Prop} {wrap : ε → ε'}
    {r : Except ε α} {k : α → Remote (Except ε' β)}
    (he : ∀ e, r = .error e → (mailSharing μ resolve).Does n j pre (.done (.error (wrap e))) post)
    (hk : ∀ a, r = .ok a → (mailSharing μ resolve).Does n j pre (k a) post) :
    (mailSharing μ resolve).Does n j pre (attempt wrap r k) post := by
  cases r with
  | ok a => exact hk a rfl
  | error e => exact he e rfl

theorem completes_of_eq (he : s'.sent n = s.sent n) (h : Completes j.operation (s.sent n)) :
    Completes j.operation (s'.sent n) := by
  rw [he]
  exact h

/-- Nothing was carried out for the call. -/
def Idle (n : Nat) (s : Server μ) : Prop := s.sent n = []

theorem Idle.rely (h : Idle n s) (hr : Rely n s s') : Idle n s' := hr.own.trans h

/-- What the mutation step of a call returns. -/
def Mutated (n : Nat) (j : Job) (s : Server μ) : Except RemoteAttemptError Bool → Prop
  | .error e => e.mutationStarted = false → s.sent n = []
  | .ok _ => Completes j.operation (s.sent n)

theorem Mutated.rely {r : Except RemoteAttemptError Bool} (h : Mutated n j s r) (hr : Rely n s s') :
    Mutated n j s' r := by
  cases r with
  | error e => exact fun he => hr.own.trans (h he)
  | ok a => exact completes_of_eq hr.own h

theorem Ended.rely {r : Except RemoteAttemptError MailboxOperationReceipt} (h : Ended n j s r)
    (hr : Rely n s s') : Ended n j s' r := by
  cases r with
  | error e => exact fun he => hr.own.trans (h he)
  | ok a => exact completes_of_eq hr.own h

/-- The call may end with this result from here. -/
theorem does_ended {pre : Server μ → Prop} {r : Except RemoteAttemptError MailboxOperationReceipt}
    (h : ∀ s, pre s → Ended n j s r) :
    (mailSharing μ resolve).Does n j pre (.done r) (Ended n j) :=
  Sharing.Does.done (fun _ _ hs hr => hs.rely hr) h

theorem does_mutated {pre : Server μ → Prop} {r : Except RemoteAttemptError Bool}
    (h : ∀ s, pre s → Mutated n j s r) :
    (mailSharing μ resolve).Does n j pre (.done r) (Mutated n j) :=
  Sharing.Does.done (fun _ _ hs hr => hs.rely hr) h

/-- Before the first mutating command every refusal is certain. -/
theorem does_before {pre : Server μ → Prop} {wrap : ε → RemoteAttemptError} {r : Except ε α}
    {k : α → Remote (Except RemoteAttemptError MailboxOperationReceipt)}
    (hpre : ∀ s, pre s → Idle n s)
    (hk : ∀ a, r = .ok a → (mailSharing μ resolve).Does n j pre (k a) (Ended n j)) :
    (mailSharing μ resolve).Does n j pre (attempt wrap r k) (Ended n j) :=
  does_attempt (fun _ _ => does_ended fun s hs _ => hpre s hs) hk

/-- The call has selected the mailbox that its operation names, and sent so much. -/
structure Opened (resolve : String → String) (n : Nat) (j : Job) (sent : List RemoteCommand)
    (s : Server μ) : Prop where
  sent : s.sent n = sent
  session : ∃ v, s.selected n = some (resolve j.operation.reference.mailbox, v) ∧
    j.operation.reference.uidValidity = some v

theorem Opened.rely {sent : List RemoteCommand} (h : Opened resolve n j sent s) (hr : Rely n s s') :
    Opened resolve n j sent s' :=
  ⟨hr.own.trans h.sent, hr.session ▸ h.session⟩

/-- The message that the operation names is doomed. -/
def Copied (resolve : String → String) (j : Job) (s : Server μ) : Prop :=
  ∀ p, Names resolve j.operation p → s.Doomed p

theorem Copied.rely (h : Copied resolve j s) (hr : Rely n s s') : Copied resolve j s' :=
  fun p hp => hr.grows.doomed (h p hp)

/-- **A mutating command of a call.**  Where it is answered `ok` it was carried out. -/
theorem does_command {sent : List RemoteCommand} {c : RemoteCommand} {pre : Server μ → Prop}
    {post : Server μ → α → Prop} {k : c.Reply → Remote α}
    (hc : c.mutating = true) (htarget : targetUid c = some j.operation.reference.uid)
    (hlisted : c ∈ commands j.operation)
    (hpre : ∀ s, pre s → Opened resolve n j sent s ∧
      (c = .uidStore j.operation.reference.uid true .deleted → Copied resolve j s))
    (hstable : ∀ s s', pre s → Rely n s s' → pre s')
    (hk : ∀ r, (mailSharing μ resolve).Does n j (fun s => c.answeredOk r = true →
      Opened resolve n j (c :: sent) s ∧
        ((∃ uid destination, c = .uidCopy uid destination) → Copied resolve j s)) (k r) post) :
    (mailSharing μ resolve).Does n j pre (.issue c k) post := by
  refine Sharing.Does.issue _ hstable (fun s r s' hs hi hx => ?_) hk
  obtain ⟨hallowed, s₁, s₂, hbefore, hi₁, hperform, hafter⟩ := exec_spec hi hx fun _ s₁ hr => by
    obtain ⟨hopened, hcopied⟩ := hpre s₁ (hstable s s₁ hs hr)
    exact ⟨htarget, hlisted, hopened.session, hcopied⟩
  refine ⟨hallowed, fun hok => ?_⟩
  obtain ⟨hopened, -⟩ := hpre s₁ (hstable s s₁ hs hbefore)
  cases hperform with
  | failed _ _ hfail => exact absurd (hfail.symm.trans hok) Bool.false_ne_true
  | connected => cases hc
  | selected => cases hc
  | mutated mailbox v uid hsession _ htarget' _ s₃ hmut =>
      obtain ⟨w, hw, hpin⟩ := hopened.session
      obtain ⟨rfl, rfl⟩ : resolve j.operation.reference.mailbox = mailbox ∧ w = v := by
        simpa using hw.symm.trans hsession
      obtain rfl : j.operation.reference.uid = uid := Option.some.inj (htarget.symm.trans htarget')
      have hown : Server.sent { s₃ with effects := ⟨n, j, ⟨resolve j.operation.reference.mailbox, w,
          j.operation.reference.uid⟩, c⟩ :: s₃.effects } n = c :: sent := by
        simp only [Server.sent, List.filter_cons, decide_true, if_true, List.map_cons, hmut.keeps.2]
        exact congrArg (c :: ·) hopened.sent
      refine ⟨Opened.rely ⟨hown, w, (congrFun hmut.keeps.1 n).trans hsession, hpin⟩ hafter, ?_⟩
      intro hcopy
      obtain ⟨uid', destination, rfl⟩ := hcopy
      intro p hp
      obtain ⟨hmailbox, huid, hvalidity⟩ := hp
      obtain rfl : p = ⟨resolve j.operation.reference.mailbox, w, j.operation.reference.uid⟩ := by
        obtain rfl : w = p.uidValidity := Option.some.inj (hpin.symm.trans hvalidity)
        rw [← hmailbox, ← huid]
      have hdoomed := hmut.doomed hi₁.custody
      exact hafter.grows.doomed hdoomed

theorem Perform.sent {c : RemoteCommand} {r : c.Reply} (h : Perform resolve n j s c r s')
    (hc : c.mutating = false) : s'.sent n = s.sent n := by
  cases h with
  | failed => rfl
  | connected => rfl
  | selected => rfl
  | mutated _ _ uid _ _ htarget =>
      cases c with
      | connect | select | smtpSend => cases htarget
      | uidStore | uidMove | uidCopy => cases hc

/-- A command that changes no message. -/
theorem does_session {c : RemoteCommand} (mid : c.Reply → Server μ → Prop)
    {k : c.Reply → Remote (Except RemoteAttemptError MailboxOperationReceipt)}
    (hc : c.mutating = false)
    (hmid : ∀ r s s', Perform resolve n j s c r s' → Idle n s' → mid r s')
    (hstable : ∀ r s s', mid r s → Rely n s s' → mid r s')
    (hk : ∀ r, (mailSharing μ resolve).Does n j (mid r) (k r) (Ended n j)) :
    (mailSharing μ resolve).Does n j (Idle n) (.issue c k) (Ended n j) := by
  refine Sharing.Does.issue mid (fun s s' hs hr => hs.rely hr) (fun s r s' hs hi hx => ?_) hk
  obtain ⟨hallowed, s₁, s₂, hbefore, -, hperform, hafter⟩ := exec_spec hi hx fun hm => by
    rw [hc] at hm
    cases hm
  have hidle : Idle n s₂ := (hperform.sent hc).trans (hs.rely hbefore)
  exact ⟨hallowed, hstable r s₂ s' (hmid r s₁ s₂ hperform hidle) hafter⟩

/-- The reply to the last command of a call. -/
theorem does_last {pre : Server μ → Prop} {r : Except ImapClientError Unit}
    (h : ∀ s, r.isOk = true → pre s → Completes j.operation (s.sent n)) :
    (mailSharing μ resolve).Does n j pre
      (attempt (.afterMutation ∘ classifyError) r fun _ => .done (.ok true)) (Mutated n j) := by
  refine does_attempt (fun e _ => does_mutated fun s _ he => by cases he) fun a ha => ?_
  subst ha
  exact does_mutated fun s hs => h s rfl hs

theorem parseMailbox_ok {name mailbox : String} (h : parseMailbox libs name = .ok mailbox) :
    mailbox = name := by
  simp only [parseMailbox, bind_ok, pure_ok] at h
  obtain ⟨_, -, h⟩ := h
  exact h.symm

/-- **The mutation step**, from the selected mailbox on. -/
theorem does_imapMutate (capabilities : List Capability) :
    (mailSharing μ resolve).Does n j (Opened resolve n j [])
      (imapMutate libs capabilities j.operation) (Mutated n j) := by
  have hstable : ∀ s s' : Server μ, Opened resolve n j [] s → Rely n s s' →
      Opened resolve n j [] s' := fun _ _ h hr => h.rely hr
  unfold imapMutate
  cases hkind : j.operation.kind with
  | setRead =>
      refine does_command rfl rfl ?_ (fun s hs => ⟨hs, fun h => by simp at h⟩) hstable fun r =>
        does_last fun s hr hs => ?_
      · simp only [commands, hkind, List.mem_singleton, if_true]
      · simp only [Completes, hkind]
        exact (hs hr).1.sent
  | setStarred =>
      refine does_command rfl rfl ?_ (fun s hs => ⟨hs, fun h => by simp at h⟩) hstable fun r =>
        does_last fun s hr hs => ?_
      · simp only [commands, hkind, List.mem_singleton, reduceCtorEq, if_false]
      · simp only [Completes, hkind]
        exact (hs hr).1.sent
  | move | archive | delete =>
      refine does_attempt (fun e _ => does_mutated fun s hs _ => hs.sent) fun destination hd => ?_
      have hdestination : j.operation.destination = some destination := orRefuse_ok.mp hd
      have hlisted : commands j.operation = [.uidMove j.operation.reference.uid destination,
          .uidCopy j.operation.reference.uid destination,
          .uidStore j.operation.reference.uid true .deleted] := by
        simp [commands, hkind, hdestination]
      have hcompletes : ∀ {cs : List RemoteCommand}, (if destination = j.operation.reference.mailbox
          then cs = [] else cs = [.uidMove j.operation.reference.uid destination] ∨
            cs = [.uidStore j.operation.reference.uid true .deleted,
              .uidCopy j.operation.reference.uid destination]) → Completes j.operation cs := by
        intro cs h
        simp only [Completes, hkind]
        exact ⟨destination, hdestination, h⟩
      split
      · rename_i hsame
        refine does_mutated fun s hs => hcompletes ?_
        rw [if_pos hsame]
        exact hs.sent
      · rename_i hother
        split
        · refine does_attempt (fun e _ => does_mutated fun s hs _ => hs.sent) fun mailbox hp => ?_
          obtain rfl := parseMailbox_ok hp
          refine does_command rfl rfl (hlisted ▸ .head _) (fun s hs => ⟨hs, fun h => by cases h⟩)
            hstable fun r => does_last fun s hr hs => hcompletes ?_
          rw [if_neg hother]
          exact .inl (hs hr).1.sent
        · refine does_attempt (fun e _ => does_mutated fun s hs _ => hs.sent) fun mailbox hp => ?_
          obtain rfl := parseMailbox_ok hp
          refine does_command rfl rfl (hlisted ▸ .tail _ (.head _))
            (fun s hs => ⟨hs, fun h => by cases h⟩) hstable fun r => ?_
          refine does_attempt (fun e _ => does_mutated fun s _ he => by cases he) fun a ha => ?_
          -- The copy was carried out, so the message may be flagged as deleted from now on.
          subst ha
          refine does_command rfl rfl (hlisted ▸ .tail _ (.tail _ (.head _)))
            (fun s hs => ⟨(hs rfl).1, fun _ => (hs rfl).2 ⟨_, _, rfl⟩⟩)
            (fun s s' hs hr hok => ⟨(hs hok).1.rely hr, fun h => ((hs hok).2 h).rely hr⟩)
            fun r => does_last fun s hr hs => hcompletes ?_
          rw [if_neg hother]
          exact .inr (hs hr).1.sent

theorem validate_pinned {operation : MailboxOperationRequest} (h : operation.validate = .ok ()) :
    ∃ v, operation.reference.uidValidity = some v := by
  simp only [MailboxOperationRequest.validate, bind_ok, ensure_ok] at h
  obtain ⟨_, -, _, -, _, hsome, -⟩ := h
  exact Option.isSome_iff_exists.mp hsome

/-- A call that has its reply to SELECT. -/
def Answered (resolve : String → String) (n : Nat) (j : Job)
    (r : Except ImapClientError (Option Nat)) (s : Server μ) : Prop :=
  Idle n s ∧ ∀ reported, r = .ok reported → ∃ w,
    s.selected n = some (resolve j.operation.reference.mailbox, w) ∧ ∀ u ∈ reported, u = w

/-- **One call of `apply`**, whatever other clients do between its commands. -/
theorem does_imapApply (j : Job) :
    (mailSharing μ resolve).Does n j (Idle n) (j.body env libs) (Ended n j) := by
  have hidle : ∀ s : Server μ, Idle n s → Idle n s := fun _ h => h
  unfold Job.body imapApply
  refine does_before hidle fun _ hvalid => ?_
  obtain ⟨v, hpin⟩ := validate_pinned hvalid
  refine does_before hidle fun _ _ => ?_
  refine does_before hidle fun _ _ => ?_
  refine does_before hidle fun _ _ => ?_
  refine does_session (fun _ => Idle n) rfl (fun _ _ _ _ h => h) (fun _ _ _ h hr => h.rely hr)
    fun r => ?_
  refine does_before hidle fun capabilities _ => ?_
  refine does_before hidle fun mailbox hp => ?_
  obtain rfl := parseMailbox_ok hp
  refine does_session (c := .select j.operation.reference.mailbox) (Answered resolve n j) rfl
    (fun r s s' hperform h => ⟨h, ?_⟩)
    (fun r s s' h hr => ⟨h.1.rely hr, fun reported he => hr.session ▸ h.2 reported he⟩) fun r => ?_
  · intro reported he
    subst he
    cases hperform with
    | failed _ _ hfail => cases hfail
    | selected _ _ hreported => exact ⟨_, Function.update_self n _ s.selected, hreported⟩
    | mutated _ _ _ _ _ htarget => cases htarget
  · refine does_before (fun s h => h.1) fun selected hr => ?_
    refine does_before (fun s h => h.1) fun _ hmatch => ?_
    refine does_before (fun s h => h.1) fun _ _ => ?_
    refine does_before (fun s h => h.1) fun _ _ => ?_
    have hreported : selected = some v := by
      simp only [ensureUidValidity, ensure_ok, hpin, Option.isNone_some, Bool.false_eq_true,
        false_or] at hmatch
      exact hmatch.symm
    refine Sharing.Does.mono (Sharing.Does.bind mail_lawful (does_imapMutate capabilities)
      fun changed => ?_) (fun s h => ⟨h.1, ?_⟩) fun _ _ h => h
    · cases changed with
      | error e => exact does_ended fun s hs => hs
      | ok a => exact does_ended fun s hs => hs
    · obtain ⟨w, hw, hu⟩ := h.2 selected hr
      exact ⟨w, hw, hpin.trans (congrArg some (hu v hreported))⟩

/-! ## 5. Every call -/

/-- The server before the first call: every message came from outside. -/
structure Server.Initial (s : Server μ) : Prop where
  places : (s.arrivals.map Arrival.place).Nodup
  original : ∀ a ∈ s.arrivals, a.source = none ∧ ∃ m, s.stored a.place = some m ∧
    m.content = a.content ∧ m.flags .deleted = a.deleted
  all : ∀ p m, s.stored p = some m → p ∈ s.arrivals.map Arrival.place
  fresh : s.effects = []

/-- Any number of calls on one account, each at any of its commands. -/
abbrev Calls (μ : Type) : Type :=
  Pool RemoteCommand RemoteCommand.Reply (Server μ) Job
    (Except RemoteAttemptError MailboxOperationReceipt)

/-- No call has started. -/
def Begins (d : Calls μ) : Prop := d.shared.Initial ∧ ∀ n, d.task n = .waiting

variable (env libs resolve) in
/-- The states that calls and other clients lead to. -/
def MailboxRun : Calls μ → Prop :=
  Reaches Begins (Pool.Step (mailSharing μ resolve) (Job.body env libs))

theorem Server.Initial.custody (h : s.Initial) : Custody s := by
  have hlive : ∀ a ∈ s.arrivals, a.deleted = false → s.Live a.place := by
    intro a ha hd
    obtain ⟨-, m, hm, -, hf⟩ := h.original a ha
    exact ⟨m, hm, hf.trans hd⟩
  refine ⟨lineage_of_nodup h.places fun a ha => (h.original a ha).1, fun p m hm => ?_,
    fun a ha p hp => ?_, fun a ha hd => .inl (hlive a ha hd), fun a ha hd => ?_⟩
  · obtain ⟨a, ha, rfl⟩ := List.mem_map.mp (h.all p m hm)
    obtain ⟨-, m', hm', hc, -⟩ := h.original a ha
    obtain rfl : m = m' := Option.some.inj (hm.symm.trans hm')
    exact ⟨a, ha, rfl, hc.symm⟩
  · rw [(h.original a ha).1] at hp
    cases hp
  · exact ⟨a, ha, hd, heirs_self (List.mem_map_of_mem ha), .inl (hlive a ha hd)⟩

theorem mail_specified :
    Specified (mailSharing μ resolve) (Job.body env libs) Idle Ended where
  pre_stable _ _ _ h hr := h.rely hr
  post_stable _ _ _ _ _ h hr := h.rely hr
  post_leave _ _ _ _ h := h
  body _ j := does_imapApply j

theorem MailboxRun.sound {d : Calls μ} (h : MailboxRun env libs resolve d) :
    Inv resolve d.shared ∧ ∀ n, (d.task n).Meets (mailSharing μ resolve) Idle Ended d.shared n := by
  refine Pool.sound mail_lawful mail_specified (fun d hd => ⟨⟨hd.1.custody, fun e he => ?_⟩,
    fun n => ⟨hd.2 n, ?_⟩⟩) h
  · rw [hd.1.fresh] at he
    cases he
  · simp only [Idle, Server.sent, hd.1.fresh, List.filter_nil, List.map_nil]

theorem MailboxRun.attributed {d : Calls μ} (h : MailboxRun env libs resolve d) :
    ∀ e ∈ d.shared.effects, (d.task e.call).job = some e.job := by
  refine Pool.attributed Server.effects (fun e => (e.call, e.job)) (fun n j s c r s' hx e he => ?_)
    (fun _ _ _ he => he) (fun d hd => hd.1.fresh) h
  obtain ⟨s₁, s₂, hbefore, hperform, hafter⟩ := hx
  rw [others_effects hafter] at he
  rw [← others_effects hbefore]
  cases hperform with
  | failed => exact .inl he
  | connected => exact .inl he
  | selected => exact .inl he
  | mutated _ _ _ _ _ _ _ _ hmut =>
      rcases List.mem_cons.mp he with rfl | he
      · exact .inr rfl
      · exact .inl (hmut.keeps.2 ▸ he)

/-- A copy has the content of what it was copied from. -/
theorem Custody.same_content (h : Custody s) {a b : Arrival μ} (ha : a ∈ s.arrivals)
    (hb : b ∈ s.arrivals)
    (hheir : b.place ∈ heirs Arrival.place Arrival.source a.place s.arrivals) :
    b.content = a.content := by
  refine heirs_inherit (P := fun p => ∀ b ∈ s.arrivals, b.place = p → b.content = a.content)
    (fun c hc p hp hrest d hd hplace => ?_) (fun c hc hplace => ?_) hheir b hb rfl
  · obtain rfl := h.lineage.item_inj hd hc hplace
    obtain ⟨o, ho, hop, hoc⟩ := h.inherited d hd p hp
    exact hoc.symm.trans (hrest o ho hop)
  · rw [h.lineage.item_inj hc ha hplace]

/-- **No message is lost.**  On every run of any number of calls of `apply` beside other clients:
    (1) a message that was not flagged as deleted when it came is stored somewhere without that
    flag, itself or a copy, unless another client deleted a copy, or the place of a copy is one that
    an operation named before anything was there; (2) every command carried out was on the message
    that the operation of its call names, and is one of its commands; (3) an error that says that
    nothing was started is right, and after `ok` every command of the operation was carried out. -/
theorem no_message_lost {d : Calls μ} (hrun : MailboxRun env libs resolve d) :
    (∀ a ∈ d.shared.arrivals, a.deleted = false → ∃ c ∈ d.shared.arrivals,
      c.place ∈ heirs Arrival.place Arrival.source a.place d.shared.arrivals ∧
        c.content = a.content ∧
        ((∃ m, d.shared.stored c.place = some m ∧ m.content = a.content ∧
            m.flags .deleted = false) ∨
          c.place ∈ d.shared.discarded ∨ c.place ∈ d.shared.foreseen)) ∧
    (∀ e ∈ d.shared.effects, (d.task e.call).job = some e.job ∧ e.Aims resolve) ∧
    ∀ n j r, d.task n = .returned j r → Ended n j d.shared r := by
  obtain ⟨hinv, hmeets⟩ := hrun.sound
  have hcustody := hinv.custody
  refine ⟨fun a ha hd => ?_, fun e he => ⟨hrun.attributed e he, hinv.aimed e he⟩,
    fun n j r hr => ?_⟩
  · obtain ⟨c, hc, -, hheir, hsafe⟩ := hcustody.kept a ha hd
    refine ⟨c, hc, hheir, hcustody.same_content ha hc hheir, hsafe.imp_left fun hl => ?_⟩
    obtain ⟨m, hm, hlive⟩ := hl
    obtain ⟨b, hb, hplace, hcontent⟩ := hcustody.recorded c.place m hm
    obtain rfl := hcustody.lineage.item_inj hb hc hplace
    exact ⟨m, hm, hcontent.symm.trans (hcustody.same_content ha hb hheir), hlive⟩
  · have hmeet := hmeets n
    rw [hr] at hmeet
    exact hmeet

namespace Sample

/-- Where the only message is, and where its copy will be. -/
def inbox : Place := ⟨"INBOX", 7, 3⟩
def trash : Place := ⟨"Trash", 1, 9⟩

def message : Stored Nat := ⟨42, fun _ => false⟩

/-- A mailbox with one message. -/
def server : Server Nat where
  stored p := if p = inbox then some message else none
  uidValidity mailbox := if mailbox = "INBOX" then 7 else 1
  selected _ := none
  arrivals := [⟨inbox, none, 42, false⟩]
  discarded := []
  foreseen := []
  effects := []

/-- Delete the message. -/
def job : Job where
  account := Kirje.Sample.account
  secret := "secret"
  operationId := "op"
  operation := ⟨"personal", .delete, ⟨"personal", "INBOX", some 7, 3⟩, none, some "Trash"⟩
  appliedAt := 0

theorem server_initial : server.Initial where
  places := List.nodup_singleton inbox
  original a ha := by
    obtain rfl := List.mem_singleton.mp ha
    exact ⟨rfl, message, rfl, rfl, rfl⟩
  all p m h := by
    by_cases hp : p = inbox
    · subst hp
      exact .head _
    · simp [server, hp] at h
  fresh := rfl

/-- Call 0 gets to `p` with the server in `s`. -/
def Gets (s : Server Nat) (p : Remote (Except RemoteAttemptError MailboxOperationReceipt)) : Prop :=
  ∃ d, MailboxRun Kirje.Sample.env Kirje.Sample.libs id d ∧ d.shared = s ∧ d.task 0 = .running job p

theorem Gets.act {s s₁ s₂ : Server Nat} {c : RemoteCommand}
    {k : c.Reply → Remote (Except RemoteAttemptError MailboxOperationReceipt)}
    (h : Gets s (.issue c k)) (r : c.Reply) (hperform : Perform id 0 job s c r s₁)
    (hafter : Relation.ReflTransGen Others s₁ s₂) :
    Gets s₂ (k r) := by
  obtain ⟨d, hd, rfl, ht⟩ := h
  exact ⟨_, hd.next (.act d 0 _ _ _ ht r s₂ ⟨_, _, .refl, hperform, hafter⟩), rfl,
    Function.update_self 0 _ d.task⟩

theorem Gets.start : Gets server (job.body Kirje.Sample.env Kirje.Sample.libs) := by
  have hstart : MailboxRun Kirje.Sample.env Kirje.Sample.libs id ⟨server, fun _ => .waiting⟩ :=
    .start ⟨server_initial, fun _ => rfl⟩
  exact ⟨_, hstart.next (.start _ 0 job rfl), rfl, rfl⟩

set_option maxRecDepth 8000 in
/-- The message is copied and flagged as deleted, and another client expunges it. -/
theorem deleted_run : ∃ d, MailboxRun Kirje.Sample.env Kirje.Sample.libs id d ∧
    d.shared.stored inbox = none ∧ d.shared.discarded = [] ∧ d.shared.foreseen = [] ∧
    ⟨inbox, none, 42, false⟩ ∈ d.shared.arrivals := by
  have h₁ := Gets.start.act (Except.ok []) (.connected _ _ _ _) .refl
  have h₂ := h₁.act (Except.ok (some 7))
    (.selected _ _ _ fun v hv => (Option.some.inj hv).symm) .refl
  have hunused : server.Unused trash := by
    unfold Server.Unused
    decide
  have h₃ := h₂.act (Except.ok ()) (.mutated _ "INBOX" 7 3 rfl _ rfl _ _
    (.copy message rfl 3 "Trash" trash hunused rfl)) .refl
  have h₄ := h₃.act (Except.ok ())
    (.mutated _ "INBOX" 7 3 rfl _ rfl _ _ (.store message rfl 3 true .deleted))
    (.single (.expunge _ inbox (message.flag .deleted true) rfl rfl))
  obtain ⟨d, hd, hs, -⟩ := h₄
  refine ⟨d, hd, ?_⟩
  rw [hs]
  exact ⟨rfl, rfl, rfl, .tail _ (.head _)⟩

end Sample

/-- The theorem on the run: the message is not where it was, and it is stored. -/
theorem no_message_lost_sample : ∃ d, MailboxRun Kirje.Sample.env Kirje.Sample.libs id d ∧
    d.shared.stored Sample.inbox = none ∧
    ∃ p m, d.shared.stored p = some m ∧ m.content = 42 ∧ m.flags .deleted = false := by
  obtain ⟨d, hd, hgone, hdiscarded, hforeseen, harrived⟩ := Sample.deleted_run
  obtain ⟨c, -, -, -, ⟨m, hm⟩ | hc | hc⟩ := (no_message_lost hd).1 _ harrived rfl
  · exact ⟨d, hd, hgone, c.place, m, hm⟩
  · rw [hdiscarded] at hc
    cases hc
  · rw [hforeseen] at hc
    cases hc

end Kirje.Mailboxes
