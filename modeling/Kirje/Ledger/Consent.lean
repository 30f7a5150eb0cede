import Kirje.Ledger.AtMostOnce

/-
  File:      Kirje/Ledger/Consent.lean
  Subject:   Who approves: the `approve` commands of the command line
             (crates/kirje-cli/src/main.rs) beside the MCP server, which has none
             (crates/kirje-mcp/src/lib.rs), over the processes of `Runtime`.

  A session at a terminal reads an operation, prints it, waits for the typed id and
  only then calls the runtime.  Any process may act between two of its steps, and the
  server's processes take any step that commits no approval.

  * `DeskStep.runs`: sessions and server are processes of the system, no more.
  * **`no_effect_without_consent`**: whatever the agents do, every remote command belongs
    to an operation whose id a person typed, after reading the very request that the
    adapter was given.
-/

namespace Kirje

open Base

section Desks

variable {env : External} {libs : MailLibraries}

/-! ## 1. Sessions -/

/-- What `send approve` prints. -/
structure SendReview where
  accountId : String
  toAddrs : List MailAddress
  cc : List MailAddress
  bcc : List MailAddress
  subject : String
  text : Option String
  html : Option String
  attachmentSummaries : List AttachmentSummary
  contentSha256 : String
  deriving DecidableEq, Repr

def SendPlan.review (plan : SendPlan) : SendReview where
  accountId := plan.request.accountId
  toAddrs := plan.request.toAddrs
  cc := plan.request.cc
  bcc := plan.request.bcc
  subject := plan.request.subject
  text := plan.request.text
  html := plan.request.html
  attachmentSummaries := plan.attachmentSummaries
  contentSha256 := plan.contentSha256

/-- What a session has on its screen; `operation approve` prints the whole record. -/
inductive Shown where
  | plan (review : SendReview)
  | record (record : OperationRecord)
  deriving DecidableEq, Repr

/-- Where a session stands: it waits for `expected` to be typed, or is about to approve `id`. -/
inductive Session where
  | idle
  | reviewing (id expected : String) (shown : Shown)
  | confirmed (id : String) (shown : Shown)
  deriving DecidableEq, Repr

/-- `send approve` goes on with a plan it found. -/
def Session.afterPlan (id : String) : Result (Option SendPlan) → Session
  | .ok (some plan) => .reviewing id plan.id (.plan plan.review)
  | .ok none => .idle
  | .error _ => .idle

/-- `operation approve` goes on with an operation it found. -/
def Session.afterOperation (id : String) : Result (Option OperationRecord × Ledger) → Session
  | .ok (some record, _) => .reviewing id record.id (.record record)
  | .ok (none, _) => .idle
  | .error _ => .idle

/-- The processes, the sessions some of them run, and the confirmations typed so far. -/
structure Desk where
  system : System
  session : Nat → Session
  consents : List (String × Shown)

def Desk.initial : Desk := ⟨.initial, fun _ => .idle, []⟩

/-- Session `q` moves to `se`. -/
def Desk.goto (d : Desk) (q : Nat) (se : Session) : Desk :=
  { d with session := fun p => if p = q then se else d.session p }

@[simp] theorem desk_goto_system (d : Desk) (q : Nat) (se : Session) :
    (d.goto q se).system = d.system := rfl

@[simp] theorem desk_goto_consents (d : Desk) (q : Nat) (se : Session) :
    (d.goto q se).consents = d.consents := rfl

theorem desk_goto_session (d : Desk) {q p : Nat} {se : Session} :
    (d.goto q se).session p = se ∨ (d.goto q se).session p = d.session p := by
  by_cases h : p = q
  · exact .inl (if_pos h)
  · exact .inr (if_neg h)

/-- One step of a session, or of a process of the server. -/
inductive DeskStep (env : External) (libs : MailLibraries) : Desk → Desk → Prop where
  /-- A tool call, a command other than the approving ones, or a crash. -/
  | serve (d : Desk) {s : System} (hs : Step env libs d.system s)
      (hquiet : ∀ id, .approved id ∈ s.history → .approved id ∈ d.system.history) :
      DeskStep env libs d { d with system := s }
  /-- `send approve` reads the plan and prints its review. -/
  | showPlan (d : Desk) (q : Nat) (hq : d.session q = .idle) (hp : d.system.phase q = .idle)
      (id : String) (now : DateTime)
      {call} (hcall : Outbox.get env id now d.system.ledger = call) :
      DeskStep env libs d ({ d with system := { d.system with ledger := call.2 } }.goto q
        (.afterPlan id call.1))
  /-- `operation approve` reads the operation and prints it. -/
  | showOperation (d : Desk) (q : Nat) (hq : d.session q = .idle) (hp : d.system.phase q = .idle)
      (id : String) (now : DateTime)
      {call} (hcall : getOperation env id now d.system.ledger = call) :
      DeskStep env libs d
        ({ d with system := { d.system with ledger := committed d.system.ledger call } }.goto q
          (.afterOperation id call))
  /-- The text typed is the id that was printed. -/
  | confirm (d : Desk) (q : Nat) (id expected : String) (shown : Shown)
      (hq : d.session q = .reviewing id expected shown) (typed : String) (ht : typed = expected) :
      DeskStep env libs d
        ({ d with consents := (typed, shown) :: d.consents }.goto q (.confirmed id shown))
  /-- Another text was typed, or the session ends. -/
  | leave (d : Desk) (q : Nat) : DeskStep env libs d (d.goto q .idle)
  /-- `approve_send`. -/
  | approveSend (d : Desk) (q : Nat) (id : String) (review : SendReview)
      (hq : d.session q = .confirmed id (.plan review)) (hp : d.system.phase q = .idle)
      (now : DateTime) :
      DeskStep env libs d
        ({ d with system := { d.system with
            ledger := (Outbox.approve env id now d.system.ledger).2
            history := recorded (fun _ => .approved id) d.system.history
              (approveOperation env id now d.system.ledger) } }.goto q .idle)
  /-- `approve_operation`. -/
  | approveOperation (d : Desk) (q : Nat) (id : String) (record : OperationRecord)
      (hq : d.session q = .confirmed id (.record record)) (hp : d.system.phase q = .idle)
      (now : DateTime)
      {call} (hcall : Kirje.approveOperation env id now d.system.ledger = call) :
      DeskStep env libs d
        ({ d with system := { d.system with
            ledger := committed d.system.ledger call
            history := recorded (fun _ => .approved id) d.system.history call } }.goto q .idle)

/-- The desks any interleaving of sessions and server gets to. -/
def DeskReachable (env : External) (libs : MailLibraries) : Desk → Prop :=
  Reaches (· = Desk.initial) (DeskStep env libs)

/-- **Sessions and server are processes of the system.** -/
theorem DeskStep.runs {d d' : Desk} (h : DeskStep env libs d d') :
    d'.system = d.system ∨ Step env libs d.system d'.system := by
  cases h with
  | serve hs hquiet => exact .inr hs
  | showPlan q hq hp id now hcall =>
      subst hcall
      exact .inr (.sendPlan d.system q hp id now)
  | showOperation q hq hp id now hcall =>
      subst hcall
      exact .inr (.mailOperation d.system q hp id now)
  | confirm q id expected shown hq typed ht => exact .inl rfl
  | leave q => exact .inl rfl
  | approveSend q id review hq hp now => exact .inr (.approveSend d.system q hp id now)
  | approveOperation q id record hq hp now hcall =>
      exact .inr (.approveOperation d.system q hp id now hcall)

theorem DeskReachable.reachable {d : Desk} (h : DeskReachable env libs d) :
    Reachable env libs d.system := by
  refine h.invariant (P := fun d => Reachable env libs d.system) (fun d hd => ?_)
    fun d d' hr hs => ?_
  · exact hd ▸ Reaches.start rfl
  · rcases hs.runs with heq | hstep
    · exact heq ▸ hr
    · exact hr.next hstep

/-! ## 2. What a session shows -/

/-- The review prints the request: of an attachment, its summary. -/
structure SendReview.Shows (env : External) (review : SendReview) (q : SendRequest) : Prop where
  accountId : review.accountId = q.accountId
  toAddrs : review.toAddrs = q.toAddrs
  cc : review.cc = q.cc
  bcc : review.bcc = q.bcc
  subject : review.subject = q.subject
  text : review.text = q.text
  html : review.html = q.html
  attachments : q.attachmentSummaries env = .ok review.attachmentSummaries

/-- What was printed is read from the row. -/
def ShownOf (env : External) (r : OperationRow) : Shown → Prop
  | .plan review => r.kind = "send" ∧
      ∃ q, env.sendRequest.decode r.payloadJson = some q ∧ review.Shows env q
  | .record record => record.kind = r.kind ∧ record.accountId = r.accountId ∧
      record.payloadJson = r.payloadJson

/-- **What was printed is the request**: a send by its review, anything by its JSON. -/
def Displays (env : External) : Shown → Request → Prop
  | .plan review, .send q => review.Shows env q
  | .plan _, .mail _ => False
  | .record record, .send q =>
      record.kind = "send" ∧ env.sendRequest.encode q = some record.payloadJson
  | .record record, .mail q =>
      record.kind = mailOperationKindName q.kind ∧ record.accountId = q.accountId ∧
        env.mailOperation.encode q = some record.payloadJson

theorem ShownOf.same {r r' : OperationRow} {shown : Shown} (h : ShownOf env r shown)
    (hs : r.Same r') : ShownOf env r' shown := by
  cases shown with
  | plan review => exact ⟨hs.kind.trans h.1, hs.payloadJson ▸ h.2⟩
  | record record =>
      exact ⟨h.1.trans hs.kind.symm, h.2.1.trans hs.accountId.symm, h.2.2.trans hs.payloadJson.symm⟩

/-- What was read from the row of a request displays the request. -/
theorem ShownOf.displays (hsend : env.sendRequest.Faithful) {r : OperationRow} {shown : Shown}
    {request : Request} (h : ShownOf env r shown) (hst : Stores env r request) :
    Displays env shown request := by
  cases shown with
  | plan review =>
      obtain ⟨hkind, q, hdecode, hshows⟩ := h
      cases request with
      | send q' =>
          have hq := hsend _ _ hst.2
          obtain rfl : q' = q := Option.some.inj (hq.symm.trans hdecode)
          exact hshows
      | mail q' =>
          have hname := hkind.symm.trans hst.1
          cases hk : q'.kind <;> rw [hk] at hname <;> exact absurd hname (by decide)
  | record record =>
      obtain ⟨hkind, haccount, hpayload⟩ := h
      cases request with
      | send q => exact ⟨hkind.trans hst.1, hpayload ▸ hst.2⟩
      | mail q => exact ⟨hkind.trans hst.1, haccount.trans hst.2.1, hpayload ▸ hst.2.2⟩

/-- Some row of `id` is what `shown` was read from. -/
def Keeps (env : External) (l : Ledger) (id : String) (shown : Shown) : Prop :=
  ∃ r ∈ l.operations, r.id = id ∧ ShownOf env r shown

/-- An operation is shown with its own id. -/
theorem getOperation_shown {id : String} {now : DateTime} {l l' : Ledger} {record : OperationRecord}
    (h : getOperation env id now l = .ok (some record, l')) :
    record.id = id ∧ Keeps env l' id (.record record) := by
  simp only [getOperation, bind_ok, pure_ok, Prod.mk.injEq] at h
  obtain ⟨_, -, l₁, -, _, hread, rfl, rfl⟩ := h
  obtain ⟨r, hr, hid, hof⟩ := operationInTransaction_some hread
  refine ⟨?_, r, hr, hid, hof.kind, hof.accountId, hof.payloadJson⟩
  unfold operationInTransaction at hread
  cases hf : l₁.operations.find? fun row => row.id = id with
  | none => rw [hf] at hread; simp [decodeOption] at hread
  | some x =>
      rw [hf] at hread
      simp only [decodeOption, operationFromRow, bind_ok, pure_ok, Option.some.injEq] at hread
      obtain ⟨_, ⟨_, -, _, -, _, -, _, -, _, -, _, -, _, -, rfl⟩, rfl⟩ := hread
      simpa using List.find?_some hf

/-- A plan is shown with its own id, and with the request its row stores. -/
theorem get_shown {id : String} {now : DateTime} {l : Ledger} {plan : SendPlan}
    (h : (Outbox.get env id now l).1 = .ok (some plan)) :
    plan.id = id ∧ Keeps env (Outbox.get env id now l).2 id (.plan plan.review) := by
  obtain ⟨op, l', hget, hplan⟩ := projected_ok h
  have hl : (Outbox.get env id now l).2 = l' := by
    rw [Outbox.get, projected_ledger, hget]
    rfl
  cases op with
  | none => simp [decodeOption] at hplan
  | some record =>
      obtain ⟨hid, r, hr, hrid, hkind, -, hpayload⟩ := getOperation_shown hget
      simp only [decodeOption, sendPlanFromOperation, bind_ok, ensure_ok, orRefuse_ok, pure_ok,
        Option.some.injEq] at hplan
      obtain ⟨_, ⟨_, hsend, request, hrequest, _, -, summaries, hsummaries, _, -, _, -, rfl⟩, rfl⟩ := hplan
      rw [hl]
      refine ⟨hid, r, hr, hrid, hkind ▸ hsend, request, hpayload ▸ hrequest, ?_⟩
      exact ⟨rfl, rfl, rfl, rfl, rfl, rfl, rfl, hsummaries⟩

/-! ## 3. The invariant -/

/-- Every move keeps the stored requests of the rows. -/
theorem Move.same {s s' : System} (h : Move env libs s s') {r : OperationRow}
    (hr : r ∈ s.ledger.operations) : ∃ r' ∈ s'.ledger.operations, r.Same r' := by
  cases h with
  | read l ph hl hph =>
      obtain ⟨r', hr', hq⟩ := hl.new hr
      exact ⟨r', hr', hq.same⟩
  | create l row request hl hfresh hplanned hst =>
      exact ⟨r, hl ▸ List.mem_append_left _ hr, .refl r⟩
  | approve l x hx hs hl =>
      obtain ⟨r', hr', hm⟩ := hl.new hr
      exact ⟨r', hr', hm.same⟩
  | claim l p ph x hx hs hl hp hph =>
      obtain ⟨r', hr', hm⟩ := hl.new hr
      exact ⟨r', hr', hm.same⟩
  | finish l p id status json hp hv hl =>
      obtain ⟨r', hr', hm⟩ := hl.new hr
      exact ⟨r', hr', hm.same⟩
  | _ => exact ⟨r, hr, .refl r⟩

theorem Keeps.step {s s' : System} {id : String} {shown : Shown}
    (hid : (s.ledger.operations.map (·.id)).Nodup) (h : Step env libs s s')
    (hk : Keeps env s.ledger id shown) : Keeps env s'.ledger id shown := by
  obtain ⟨r, hr, hrid, hshown⟩ := hk
  obtain ⟨r', hr', hsame⟩ := (step_move hid h).same hr
  exact ⟨r', hr', hsame.id.trans hrid, hshown.same hsame⟩

/-- **The invariant of a desk.** -/
structure ConsentInv (env : External) (d : Desk) : Prop where
  reviewing : ∀ q id expected shown, d.session q = .reviewing id expected shown →
    expected = id ∧ Keeps env d.system.ledger id shown
  confirmed : ∀ q id shown, d.session q = .confirmed id shown → (id, shown) ∈ d.consents
  consents : ∀ id shown, (id, shown) ∈ d.consents → Keeps env d.system.ledger id shown
  approved : ∀ id, .approved id ∈ d.system.history → ∃ shown, (id, shown) ∈ d.consents

theorem ConsentInv.goto {d : Desk} (hI : ConsentInv env d) (q : Nat) {se : Session}
    (hreviewing : ∀ id expected shown, se = .reviewing id expected shown →
      expected = id ∧ Keeps env d.system.ledger id shown)
    (hconfirmed : ∀ id shown, se = .confirmed id shown → (id, shown) ∈ d.consents) :
    ConsentInv env (d.goto q se) where
  reviewing p id expected shown hp := by
    rcases desk_goto_session d with h | h
    · exact hreviewing id expected shown (h.symm.trans hp)
    · exact hI.reviewing p id expected shown (h.symm.trans hp)
  confirmed p id shown hp := by
    rcases desk_goto_session d with h | h
    · exact hconfirmed id shown (h.symm.trans hp)
    · exact hI.confirmed p id shown (h.symm.trans hp)
  consents := hI.consents
  approved := hI.approved

/-- A step of the processes keeps what was shown; its approvals must have been confirmed. -/
theorem ConsentInv.steps {d : Desk} (hI : ConsentInv env d) {s : System}
    (hid : (d.system.ledger.operations.map (·.id)).Nodup) (h : Step env libs d.system s)
    (happroved : ∀ id, .approved id ∈ s.history →
      .approved id ∈ d.system.history ∨ ∃ shown, (id, shown) ∈ d.consents) :
    ConsentInv env { d with system := s } where
  reviewing q id expected shown hq := by
    obtain ⟨heq, hk⟩ := hI.reviewing q id expected shown hq
    exact ⟨heq, hk.step hid h⟩
  confirmed := hI.confirmed
  consents id shown hc := (hI.consents id shown hc).step hid h
  approved id hmem := by
    rcases happroved id hmem with hold | hnew
    · exact hI.approved id hold
    · exact hnew

theorem approved_of_recorded {α : Type} {id id' : String} {history : List Entry} {call : Result α}
    (h : .approved id ∈ recorded (fun _ => .approved id') history call) :
    .approved id ∈ history ∨ id = id' := by
  cases call with
  | error e => exact .inl h
  | ok a =>
      rcases List.mem_cons.mp h with heq | hold
      · exact .inr (Entry.approved.inj heq)
      · exact .inl hold

theorem consentInv_initial : ConsentInv env Desk.initial := by
  constructor <;> simp [Desk.initial, System.initial]

/-- **Every step of a desk keeps the invariant.** -/
theorem ConsentInv.step {d d' : Desk} (hI : ConsentInv env d)
    (hid : (d.system.ledger.operations.map (·.id)).Nodup) (h : DeskStep env libs d d') :
    ConsentInv env d' := by
  cases h with
  | serve hs hquiet => exact hI.steps hid hs fun id hmem => .inl (hquiet id hmem)
  | showPlan q hq hp id now hcall =>
      subst hcall
      have hstep : Step env libs d.system
          { d.system with ledger := (Outbox.get env id now d.system.ledger).2 } :=
        .sendPlan d.system q hp id now
      refine (hI.steps hid hstep fun id' hmem => .inl hmem).goto q ?_ ?_
      · intro id' expected shown hse
        cases hcall : (Outbox.get env id now d.system.ledger).1 with
        | error e => rw [hcall] at hse; cases hse
        | ok plan =>
            cases plan with
            | none => rw [hcall] at hse; cases hse
            | some plan =>
                rw [hcall] at hse
                cases hse
                exact get_shown hcall
      · intro id' shown hse
        cases hcall : (Outbox.get env id now d.system.ledger).1 with
        | error e => rw [hcall] at hse; cases hse
        | ok plan => cases plan <;> rw [hcall] at hse <;> cases hse
  | showOperation q hq hp id now hcall =>
      rename_i call
      have hstep : Step env libs _ _ := .mailOperation d.system q hp id now
      rw [hcall] at hstep
      refine (hI.steps hid hstep fun id' hmem => .inl hmem).goto q ?_ ?_
      · intro id' expected shown hse
        rcases call with e | ⟨record | record, l⟩
        · cases hse
        · cases hse
        · cases hse
          exact getOperation_shown hcall
      · intro id' shown hse
        rcases call with e | ⟨record | record, l⟩ <;> cases hse
  | confirm q id expected shown hq typed ht =>
      obtain ⟨heq, hk⟩ := hI.reviewing q id expected shown hq
      have hI' : ConsentInv env { d with consents := (typed, shown) :: d.consents } := by
        refine ⟨hI.reviewing, fun p id' shown' hp => .tail _ (hI.confirmed p id' shown' hp), ?_, ?_⟩
        · intro id' shown' hmem
          rcases List.mem_cons.mp hmem with hnew | hold
          · cases hnew
            rw [ht, heq]
            exact hk
          · exact hI.consents id' shown' hold
        · intro id' hmem
          obtain ⟨shown', hold⟩ := hI.approved id' hmem
          exact ⟨shown', .tail _ hold⟩
      refine hI'.goto q (fun _ _ _ hse => by cases hse) fun id' shown' hse => ?_
      cases hse
      rw [ht, heq]
      exact List.mem_cons_self
  | leave q => exact hI.goto q (fun _ _ _ hse => by cases hse) fun _ _ hse => by cases hse
  | approveSend q id review hq hp now =>
      have hstep : Step env libs _ _ := .approveSend d.system q hp id now
      refine (hI.steps hid hstep fun id' hmem => ?_).goto q (fun _ _ _ hse => by cases hse)
        fun _ _ hse => by cases hse
      rcases approved_of_recorded hmem with hold | rfl
      · exact .inl hold
      · exact .inr ⟨_, hI.confirmed q id' _ hq⟩
  | approveOperation q id record hq hp now hcall =>
      have hstep : Step env libs _ _ := .approveOperation d.system q hp id now hcall
      refine (hI.steps hid hstep fun id' hmem => ?_).goto q (fun _ _ _ hse => by cases hse)
        fun _ _ hse => by cases hse
      rcases approved_of_recorded hmem with hold | rfl
      · exact .inl hold
      · exact .inr ⟨_, hI.confirmed q id' _ hq⟩

theorem consentInv_reachable {d : Desk} (h : DeskReachable env libs d) : ConsentInv env d := by
  induction h with
  | start hd => exact hd ▸ consentInv_initial
  | next hr hs ih => exact ih.step (claimInv_reachable (DeskReachable.reachable hr)).ids hs

/-! ## 4. Commands -/

/-- The operation whose adapter a process has called. -/
def Phase.calls : Phase → Option String
  | .running id _ | .waiting id _ _ | .returned id _ => some id
  | _ => none

/-- Commands come from adapters that were called. -/
structure Commanded (s : System) : Prop where
  calls : ∀ p id, (s.phase p).calls = some id → ∃ request, .invoked id request ∈ s.history
  issued : ∀ id c, .issued id c ∈ s.history → ∃ request, .invoked id request ∈ s.history

theorem Commanded.goto {s : System} (hI : Commanded s) {p : Nat} {ph : Phase} (l : Ledger)
    (entries : List Entry)
    (hcalls : ∀ id, ph.calls = some id → ∃ request, .invoked id request ∈ entries ++ s.history)
    (hissued : ∀ id c, .issued id c ∈ entries →
      ∃ request, .invoked id request ∈ entries ++ s.history) :
    Commanded ((⟨l, s.phase, entries ++ s.history⟩ : System).goto p ph) where
  calls q id hq := by
    by_cases hqp : q = p
    · subst hqp
      rw [goto_self] at hq
      exact hcalls id hq
    · rw [goto_other _ _ hqp] at hq
      obtain ⟨request, hmem⟩ := hI.calls q id hq
      exact ⟨request, List.mem_append_right _ hmem⟩
  issued id c hmem := by
    rcases List.mem_append.mp hmem with hnew | hold
    · exact hissued id c hnew
    · obtain ⟨request, hinv⟩ := hI.issued id c hold
      exact ⟨request, List.mem_append_right _ hinv⟩

/-- A call that holds nothing has not called an adapter. -/
theorem calls_of_holds {ph : Phase} (h : ph.holds = none) : ph.calls = none := by
  cases ph <;> first | rfl | cases h

theorem Commanded.move {s s' : System} (hI : Commanded s) (h : Move env libs s s') :
    Commanded s' := by
  cases h with
  | read l ph hl hph =>
      refine ⟨fun q id hq => ?_, hI.issued⟩
      rcases hph q with heq | hnone
      · exact hI.calls q id (heq ▸ hq)
      · have hq' : (ph q).calls = some id := hq
        rw [calls_of_holds hnone] at hq'
        cases hq'
  | create l row request hl hfresh hplanned hst =>
      refine ⟨fun q id hq => ?_, fun id c hmem => ?_⟩
      · obtain ⟨request', hmem⟩ := hI.calls q id hq
        exact ⟨request', .tail _ hmem⟩
      · obtain ⟨request', hinv⟩ := hI.issued id c (by simpa using hmem)
        exact ⟨request', .tail _ hinv⟩
  | approve l r hr hs hl =>
      refine ⟨fun q id hq => ?_, fun id c hmem => ?_⟩
      · obtain ⟨request', hmem⟩ := hI.calls q id hq
        exact ⟨request', .tail _ hmem⟩
      · obtain ⟨request', hinv⟩ := hI.issued id c (by simpa using hmem)
        exact ⟨request', .tail _ hinv⟩
  | claim l p ph r hr hs hl hp hph =>
      refine hI.goto l [] (fun id hcalls => ?_) fun _ _ hmem => by cases hmem
      rcases hph with rfl | ⟨call, rfl, -⟩ <;> cases hcalls
  | invoke p id call hp credentials clock request program hinv =>
      refine hI.goto s.ledger [.invoked id request] (fun id' hcalls => ?_)
        fun _ _ hmem => by simp at hmem
      cases hcalls
      exact ⟨request, List.mem_cons_self⟩
  | refuse p id call hp error =>
      exact hI.goto s.ledger [] (fun _ hcalls => by cases hcalls) fun _ _ hmem => by cases hmem
  | issue p id c k hp =>
      obtain ⟨request, hinv⟩ := hI.calls p id (by rw [hp]; rfl)
      refine hI.goto s.ledger [.issued id c] (fun id' hcalls => ?_) fun id' c' hmem => ?_
      · cases hcalls
        exact ⟨request, .tail _ hinv⟩
      · cases List.mem_singleton.mp hmem
        exact ⟨request, .tail _ hinv⟩
  | reply p id c k hp r =>
      obtain ⟨request, hinv⟩ := hI.calls p id (by rw [hp]; rfl)
      refine hI.goto s.ledger [.replied id c r] (fun id' hcalls => ?_)
        fun _ _ hmem => by simp at hmem
      cases hcalls
      exact ⟨request, .tail _ hinv⟩
  | ret p id result hp =>
      obtain ⟨request, hinv⟩ := hI.calls p id (by rw [hp]; rfl)
      refine hI.goto s.ledger [.result id result] (fun id' hcalls => ?_)
        fun _ _ hmem => by simp at hmem
      cases hcalls
      exact ⟨request, .tail _ hinv⟩
  | finish l p id status json hp hv hl =>
      exact hI.goto l [] (fun _ hcalls => by cases hcalls) fun _ _ hmem => by cases hmem

theorem commanded_reachable {s : System} (h : Reachable env libs s) : Commanded s := by
  have hboth : ClaimInv env s ∧ Commanded s := by
    refine h.invariant (P := fun s => ClaimInv env s ∧ Commanded s) (fun s hs => ?_)
      fun s s' hI hs => ?_
    · rw [hs]
      exact ⟨claimInv_initial, by constructor <;> simp [System.initial, Phase.calls]⟩
    · have hm := step_move hI.1.ids hs
      exact ⟨claimInv_move hI.1 hm, hI.2.move hm⟩
  exact hboth.2

/-- **No effect without consent.**  Let any number of agents plan, read, list and apply through the
    server, in any interleaving with each other and with the sessions of the command line.  Then each
    invocation of an adapter, and each remote command, is for an id that was typed in a session
    after the request the adapter received was printed there. -/
theorem no_effect_without_consent (hsend : env.sendRequest.Faithful)
    (hmail : env.mailOperation.Faithful) {d : Desk} (h : DeskReachable env libs d) (id : String) :
    (∀ request, .invoked id request ∈ d.system.history →
      ∃ shown, (id, shown) ∈ d.consents ∧ Displays env shown request) ∧
    ∀ c, .issued id c ∈ d.system.history → ∃ request shown,
      .invoked id request ∈ d.system.history ∧ (id, shown) ∈ d.consents ∧
        Displays env shown request := by
  have hreach := h.reachable
  obtain ⟨hI, hreq⟩ := requested_reachable hsend hmail hreach
  have hdesk := consentInv_reachable h
  have hinvoked : ∀ request, .invoked id request ∈ d.system.history →
      ∃ shown, (id, shown) ∈ d.consents ∧ Displays env shown request := by
    intro request hinv
    obtain ⟨later, earlier, hh⟩ := List.append_of_mem hinv
    have hordered := hI.ordered
    rw [hh] at hordered hreq
    have hcreated : .created id request ∈ d.system.history := by
      rw [hh]
      exact List.mem_append_right _ (.tail _ hreq.split)
    have happroved : .approved id ∈ d.system.history := by
      rw [hh]
      exact List.mem_append_right _ (.tail _ hordered.split)
    obtain ⟨shown, hconsent⟩ := hdesk.approved id happroved
    obtain ⟨r, hr, hrid, hshown⟩ := hdesk.consents id shown hconsent
    obtain ⟨r', hr', hrid', hstores⟩ := hI.createdRow id request hcreated
    obtain rfl := eq_of_key_eq hI.ids hr hr' (hrid.trans hrid'.symm)
    exact ⟨shown, hconsent, hshown.displays hsend hstores⟩
  refine ⟨hinvoked, fun c hc => ?_⟩
  obtain ⟨request, hinv⟩ := (commanded_reachable hreach).issued id c hc
  obtain ⟨shown, hconsent, hdisplays⟩ := hinvoked request hinv
  exact ⟨request, shown, hinv, hconsent, hdisplays⟩

end Desks

namespace Sample

/-- The planned operation as the session prints it. -/
def printed : OperationRecord where
  id := operationId
  kind := "set_read"
  accountId := "personal"
  messageId := some "INBOX:3"
  payloadJson := requestJson
  payloadSha256 := env.payloadDigest requestJson
  status := .planned
  createdAt := 0
  expiresAt := some (DateTime.hours 24)
  approvedAt := none
  updatedAt := 0
  attemptCount := 0
  lastError := none
  receiptJson := none

set_option maxRecDepth 8000 in
/-- The agent of process 1 applies what a session of process 0 approved. -/
theorem consented_run : ∃ d, DeskReachable env libs d ∧
    .issued operationId (.connect account "secret") ∈ d.system.history := by
  have h₀ : DeskReachable env libs Desk.initial := .start rfl
  have h₁ := h₀.next (.serve _ (.planMail _ 1 rfl (.ok none) request 0 operationId rfl)
    (fun _ h => absurd (List.mem_singleton.mp h) Entry.noConfusion))
  have h₂ := h₁.next (.showOperation _ 0 rfl rfl operationId 0 rfl)
  have h₃ := h₂.next (.confirm _ 0 operationId operationId (.record printed) rfl operationId rfl)
  have h₄ := h₃.next (.approveOperation _ 0 operationId printed rfl rfl 0 rfl)
  have h₅ := h₄.next (.serve _ (.readMail _ 1 rfl operationId 0 rfl) (fun _ h => h))
  have h₆ := h₅.next (.serve _ (.claimMail _ 1 operationId rfl 0 rfl) (fun _ h => h))
  have h₇ := h₆.next (.serve _ (.invoke _ 1 operationId _ rfl (.ok (account, "secret")) 0 rfl)
    (fun _ h => (List.mem_cons.mp h).resolve_left Entry.noConfusion))
  have h₈ := h₇.next (.serve _ (.issue _ 1 operationId (.connect account "secret") _ rfl)
    (fun _ h => (List.mem_cons.mp h).resolve_left Entry.noConfusion))
  exact ⟨_, h₈, List.mem_cons_self⟩

end Sample

/-- The theorem on the run: the account was reached for the request that was printed. -/
theorem consent_sample_run : ∃ d, DeskReachable Sample.env Sample.libs d ∧
    ∃ request shown, .invoked Sample.operationId request ∈ d.system.history ∧
      (Sample.operationId, shown) ∈ d.consents ∧ Displays Sample.env shown request := by
  obtain ⟨d, hd, hissued⟩ := Sample.consented_run
  have hsend : Sample.env.sendRequest.Faithful := fun _ _ h => by cases h
  have hmail : Sample.env.mailOperation.Faithful := Sample.oneJson_faithful _ _
  obtain ⟨-, h⟩ := no_effect_without_consent hsend hmail hd Sample.operationId
  exact ⟨d, hd, h _ hissued⟩

end Kirje
