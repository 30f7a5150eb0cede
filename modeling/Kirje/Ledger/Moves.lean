import Kirje.Ledger.Rows

/-
  File:      Kirje/Ledger/Moves.lean
  Subject:   Every step of a process, classified by what it does to the rows, to
             the processes that hold a claim, and to the history.

  `step_move` is the only place where the calls of the runtime are taken apart;
  the invariants of the ledger are proved on `Move`.
-/

namespace Kirje

open Base

variable {env : External} {libs : MailLibraries}

/-! ## 1. Claims and what they carry -/

/-- The operation a process has claimed and not yet recorded. -/
def Phase.holds : Phase → Option String
  | .idle | .pending _ => none
  | .claimed id _ | .refused id _ _ | .running id _ | .waiting id _ _ | .returned id _ => some id

/-- The row stores the JSON of the request, under the kind of its planner. -/
def Stores (env : External) (r : OperationRow) : Request → Prop
  | .send q => r.kind = "send" ∧ env.sendRequest.encode q = some r.payloadJson
  | .mail q => r.kind = mailOperationKindName q.kind ∧ r.accountId = q.accountId ∧
      env.mailOperation.encode q = some r.payloadJson

/-- What a claim returned is read from the row. -/
def CallOf (env : External) (r : OperationRow) : Claimed → Prop
  | .plan plan => r.kind = "send" ∧ env.sendRequest.decode r.payloadJson = some plan.request
  | .record record => record.kind = r.kind ∧ record.payloadJson = r.payloadJson

/-- What a process about to finish will write. -/
def Verdict (env : External) : Phase → OperationStatus → Option String → Prop
  | .refused .., status, receipt => status = .failed ∧ receipt = none
  | .returned _ (.sent (.ok receipt)), status, json =>
      status = .succeeded ∧ json = env.sendReceipt.encode receipt
  | .returned _ (.applied (.ok receipt)), status, json =>
      status = .succeeded ∧ json = env.mailReceipt.encode receipt
  | .returned _ (.sent (.error e)), status, json =>
      status = (if e.deliveryStarted then .ambiguous else .failed) ∧ json = none
  | .returned _ (.applied (.error e)), status, json =>
      status = (if e.mutationStarted then .ambiguous else .failed) ∧ json = none
  | _, _, _ => False

@[simp] theorem goto_ledger (s : System) (p : Nat) (ph : Phase) :
    (s.goto p ph).ledger = s.ledger := rfl

@[simp] theorem goto_history (s : System) (p : Nat) (ph : Phase) :
    (s.goto p ph).history = s.history := rfl

@[simp] theorem goto_self (s : System) (p : Nat) (ph : Phase) : (s.goto p ph).phase p = ph := by
  simp [System.goto]

theorem goto_other (s : System) {p q : Nat} (ph : Phase) (h : q ≠ p) :
    (s.goto p ph).phase q = s.phase q := by simp [System.goto, h]

/-! ## 2. The classification -/

/-- What a step does. -/
inductive Move (env : External) (libs : MailLibraries) (s : System) : System → Prop where
  /-- A read, a call without effect or a stop: no claim is taken, no entry is written. -/
  | read (l : Ledger) (ph : Nat → Phase) (hl : Evolves QuietRow s.ledger l)
      (hph : ∀ q, ph q = s.phase q ∨ (ph q).holds = none) : Move env libs s ⟨l, ph, s.history⟩
  | create (l : Ledger) (row : OperationRow) (request : Request)
      (hl : l.operations = s.ledger.operations ++ [row])
      (hfresh : row.id ∉ s.ledger.operations.map (·.id)) (hplanned : row.status = .planned)
      (hst : Stores env row request) :
      Move env libs s ⟨l, s.phase, .created row.id request :: s.history⟩
  | approve (l : Ledger) (r : OperationRow) (hr : r ∈ s.ledger.operations)
      (hs : r.status = .planned) (hl : Evolves (MovesTo r.id .approved) s.ledger l) :
      Move env libs s ⟨l, s.phase, .approved r.id :: s.history⟩
  /-- A claim; a send claim whose projection fails leaves the row claimed by nobody. -/
  | claim (l : Ledger) (p : Nat) (ph : Phase) (r : OperationRow) (hr : r ∈ s.ledger.operations)
      (hs : r.status = .approved) (hl : Evolves (MovesTo r.id .applying) s.ledger l)
      (hp : (s.phase p).holds = none)
      (hph : ph = .idle ∨ ∃ call, ph = .claimed r.id call ∧ CallOf env r call) :
      Move env libs s ({ s with ledger := l }.goto p ph)
  | invoke (p : Nat) (id : String) (call : Claimed) (hp : s.phase p = .claimed id call)
      (credentials : Result (MailAccountConfig × String)) (clock : DateTime) (request : Request)
      (program : Remote AdapterResult)
      (hinv : invocation env libs id credentials clock call = .ok (request, program)) :
      Move env libs s
        ({ s with history := .invoked id request :: s.history }.goto p (.running id program))
  | refuse (p : Nat) (id : String) (call : Claimed) (hp : s.phase p = .claimed id call)
      (error : MailError) : Move env libs s (s.goto p (.refused id call error))
  | issue (p : Nat) (id : String) (c : RemoteCommand) (k : c.Reply → Remote AdapterResult)
      (hp : s.phase p = .running id (.issue c k)) :
      Move env libs s ({ s with history := .issued id c :: s.history }.goto p (.waiting id c k))
  | reply (p : Nat) (id : String) (c : RemoteCommand) (k : c.Reply → Remote AdapterResult)
      (hp : s.phase p = .waiting id c k) (r : c.Reply) :
      Move env libs s
        ({ s with history := .replied id c r :: s.history }.goto p (.running id (k r)))
  | ret (p : Nat) (id : String) (result : AdapterResult)
      (hp : s.phase p = .running id (.done result)) :
      Move env libs s
        ({ s with history := .result id result :: s.history }.goto p (.returned id result))
  /-- A finish that was committed; one that was not is a `read`. -/
  | finish (l : Ledger) (p : Nat) (id : String) (status : OperationStatus) (json : Option String)
      (hp : (s.phase p).holds = some id) (hv : Verdict env (s.phase p) status json)
      (hl : Evolves (Finishes id status json) s.ledger l) :
      Move env libs s ({ s with ledger := l }.goto p .idle)

/-- A change of one process that holds nothing afterwards, without effect on the rows. -/
theorem Move.drop (s : System) (p : Nat) (ph : Phase) (hph : ph.holds = none) :
    Move env libs s (s.goto p ph) := by
  refine .read s.ledger _ (.refl_quiet _) fun q => ?_
  by_cases hq : q = p
  · subst hq; exact .inr (by simpa using hph)
  · exact .inl (goto_other s ph hq)

theorem Move.quiet {s : System} {l : Ledger} (hl : Evolves QuietRow s.ledger l) :
    Move env libs s { s with ledger := l } := .read l s.phase hl fun _ => .inl rfl

/-! ## 3. The calls -/

theorem committed_quiet {α : Type} {l : Ledger} {call : Result (α × Ledger)}
    (h : ∀ a l', call = .ok (a, l') → Evolves QuietRow l l') :
    Evolves QuietRow l (committed l call) := by
  cases call with
  | error e => exact .refl_quiet l
  | ok r => exact h r.1 r.2 rfl

theorem projected_ledger {α β : Type} (project : α → Result β) (call : Result (α × Ledger))
    (l : Ledger) : (projected project call l).2 = committed l call := by
  cases call <;> rfl

theorem projected_ok {α β : Type} {project : α → Result β} {call : Result (α × Ledger)}
    {l : Ledger} {b : β} (h : (projected project call l).1 = .ok b) :
    ∃ a l', call = .ok (a, l') ∧ project a = .ok b := by
  cases call with
  | error e => simp [projected] at h
  | ok r => exact ⟨r.1, r.2, rfl, h⟩

theorem planSend_spec {account : Result MailAccountConfig} {request : SendRequest}
    {now : DateTime} {id messageUuid : String} {l l' : Ledger} {plan : SendPlan}
    (h : planSend env account request now id messageUuid l = .ok (plan, l')) :
    ∃ row, l'.operations = l.operations ++ [row] ∧ row.id = id ∧
      id ∉ l.operations.map (·.id) ∧ row.status = .planned ∧
      Stores env row (.send plan.request) := by
  simp only [planSend, bind_ok, ensure_ok, SendPlan.create, Outbox.create, Outbox.digestJson,
    pure_ok, orRefuse_ok, Prod.mk.injEq] at h
  obtain ⟨_, -, _, -, _, -, _, -, plan', ⟨_, -, _, -, _, -, rfl⟩, _, -, _, -, _,
    ⟨json, hjson, rfl⟩, ⟨_, l₁⟩, hc, rfl, rfl⟩ := h
  obtain ⟨hfresh, row, hl, hid, hkind, -, hpay, hst⟩ := create_spec hc
  refine ⟨row, hl, hid, hfresh, hst, hkind, ?_⟩
  rw [hpay]
  exact hjson

theorem planMail_spec {special : Result (Option String)} {request stored : MailboxOperationRequest}
    {now : DateTime} {id : String} {l l' : Ledger} {record : OperationRecord}
    (h : planMailOperation env special request now id l = .ok ((stored, record), l')) :
    ∃ row, l'.operations = l.operations ++ [row] ∧ row.id = id ∧
      id ∉ l.operations.map (·.id) ∧ row.status = .planned ∧ Stores env row (.mail stored) := by
  simp only [planMailOperation, bind_ok, Outbox.digestJson, pure_ok, orRefuse_ok,
    Prod.mk.injEq] at h
  obtain ⟨_, -, request', -, _, -, _, ⟨json, hjson, rfl⟩, ⟨record', l₁⟩, hc, ⟨rfl, rfl⟩, rfl⟩ := h
  obtain ⟨hfresh, row, hl, hid, hkind, hacc, hpay, hst⟩ := create_spec hc
  refine ⟨row, hl, hid, hfresh, hst, hkind, hacc, ?_⟩
  rw [hpay]
  exact hjson

theorem sendPlan_of {record : OperationRecord} {plan : SendPlan}
    (h : sendPlanFromOperation env record = .ok plan) :
    record.kind = "send" ∧ env.sendRequest.decode record.payloadJson = some plan.request := by
  simp only [sendPlanFromOperation, bind_ok, ensure_ok, orRefuse_ok, pure_ok] at h
  obtain ⟨_, hkind, request, hreq, _, -, _, -, _, -, _, -, rfl⟩ := h
  exact ⟨hkind, hreq⟩

/-- A transition is rolled back, or moves the row it names. -/
theorem transition_cases (env : External) (id : String) (now : DateTime)
    (source target : OperationStatus) (approve : Bool) {l : Ledger} (hs : source.unclaimed)
    (hid : (l.operations.map (·.id)).Nodup) :
    (∃ e, operationTransition env id now source target approve l = .error e) ∨
      ∃ r ∈ l.operations, r.id = id ∧ r.status = source ∧ ∃ record l',
        operationTransition env id now source target approve l = .ok (record, l') ∧
        Evolves (MovesTo id target) l l' ∧ record.kind = r.kind ∧
        record.payloadJson = r.payloadJson := by
  cases hc : operationTransition env id now source target approve l with
  | error e => exact .inl ⟨e, rfl⟩
  | ok v =>
      obtain ⟨hl, r, hr, hrid, hrs, hk, -, hp⟩ := transition_spec hs hid hc
      exact .inr ⟨r, hr, hrid, hrs, v.1, v.2, rfl, hl, hk, hp⟩

/-- Both approving calls leave the ledger and the history as `approve_operation` does. -/
theorem approve_move {s : System} (hid : (s.ledger.operations.map (·.id)).Nodup) (id : String)
    (now : DateTime) :
    Move env libs s { s with
      ledger := committed s.ledger (approveOperation env id now s.ledger)
      history := recorded (fun _ => .approved id) s.history
        (approveOperation env id now s.ledger) } := by
  rcases transition_cases env id now .planned .approved true rfl hid with
    ⟨e, he⟩ | ⟨r, hr, rfl, hs, _, l, hc, hl, -⟩
  · have he' : approveOperation env id now s.ledger = .error e := he
    rw [he']
    exact .quiet (.refl_quiet _)
  · have hc' : approveOperation env r.id now s.ledger = .ok (_, l) := hc
    rw [hc']
    exact .approve l r hr hs hl

/-- What a finishing call does: nothing, or a committed finish. -/
theorem finish_cases (env : External) (id : String) (now : DateTime) (status : OperationStatus)
    (error : Option MailError) (json : Option String) {l : Ledger}
    (hid : (l.operations.map (·.id)).Nodup) :
    committed l (finishOperation env id now status error json l) = l ∨
      Evolves (Finishes id status json) l
        (committed l (finishOperation env id now status error json l)) := by
  cases hc : finishOperation env id now status error json l with
  | error e => exact .inl rfl
  | ok v => exact .inr (finish_spec hid hc)

theorem recordRefusal_cases (env : External) (id : String) (error : MailError) (now : DateTime)
    (call : Claimed) {l : Ledger} (hid : (l.operations.map (·.id)).Nodup) :
    recordRefusal env id error now l call = l ∨
      Evolves (Finishes id .failed none) l (recordRefusal env id error now l call) := by
  have hcall : recordRefusal env id error now l call =
      committed l (failOperation env id error now l) := by
    cases call <;> exact projected_ledger _ _ _
  rw [hcall]
  exact finish_cases env id now .failed (some error) none hid

/-- **The finalizing call writes the verdict of the adapter's result, or nothing.** -/
theorem recordResult_cases (env : External) (id : String) (now : DateTime)
    (result : AdapterResult) {l : Ledger} (hid : (l.operations.map (·.id)).Nodup) :
    recordResult env id now l result = l ∨
      ∃ status json, Verdict env (.returned id result) status json ∧
        Evolves (Finishes id status json) l (recordResult env id now l result) := by
  have fin : ∀ {l' : Ledger} {now status error json},
      l' = committed l (finishOperation env id now status error json l) →
      Verdict env (.returned id result) status json →
      l' = l ∨ ∃ status json, Verdict env (.returned id result) status json ∧
        Evolves (Finishes id status json) l l' := by
    rintro l' now status error json rfl hv
    rcases finish_cases env id now status error json hid with h | h
    · exact .inl h
    · exact .inr ⟨status, json, hv, h⟩
  rcases result with ((e | receipt) | (e | receipt))
  · obtain ⟨e, started⟩ := e
    cases started <;> exact fin (projected_ledger _ _ _) ⟨rfl, rfl⟩
  · simp only [recordResult, Outbox.markSent]
    cases hj : env.sendReceipt.encode receipt with
    | none => exact .inl rfl
    | some json => exact fin (projected_ledger _ _ _) ⟨rfl, hj.symm⟩
  · obtain ⟨e, started⟩ := e
    cases started <;> exact fin (projected_ledger _ _ _) ⟨rfl, rfl⟩
  · simp only [recordResult, Outbox.digestJson]
    cases hj : env.mailReceipt.encode receipt with
    | none => exact .inl rfl
    | some json => exact fin (projected_ledger _ _ _) ⟨rfl, hj.symm⟩

/-- Reading claims nothing. -/
theorem afterRead_holds (id : String) (call : Result (Option OperationRecord × Ledger)) :
    (Phase.afterRead id call).holds = none := by
  rcases call with e | ⟨op | op, l⟩
  · rfl
  · rfl
  · simp only [Phase.afterRead]
    split <;> rfl

/-! ## 4. Every step is a move -/

/-- **Every step of a process is one of the moves.** -/
theorem step_move {s s' : System} (hid : (s.ledger.operations.map (·.id)).Nodup)
    (h : Step env libs s s') : Move env libs s s' := by
  cases h with
  | planSend p hp account request now id messageUuid hcall =>
      rename_i call
      cases call with
      | error e => exact .quiet (.refl_quiet _)
      | ok v =>
          obtain ⟨row, hl, rfl, hfresh, hst, hstores⟩ := planSend_spec hcall
          exact .create _ row _ hl hfresh hst hstores
  | planMail p hp special request now id hcall =>
      rename_i call
      cases call with
      | error e => exact .quiet (.refl_quiet _)
      | ok v =>
          obtain ⟨row, hl, rfl, hfresh, hst, hstores⟩ := planMail_spec hcall
          exact .create _ row _ hl hfresh hst hstores
  | approveSend p hp id now =>
      have hl : (Outbox.approve env id now s.ledger).2 =
          committed s.ledger (approveOperation env id now s.ledger) := projected_ledger _ _ _
      rw [hl]
      exact approve_move hid id now
  | approveOperation p hp id now hcall => exact hcall ▸ approve_move hid id now
  | sendPlan p hp id now =>
      simp only [Outbox.get, projected_ledger]
      exact .quiet (committed_quiet fun _ _ => get_spec)
  | mailOperation p hp id now => exact .quiet (committed_quiet fun _ _ => get_spec)
  | listSendPlans p hp accountId limit now =>
      refine .quiet ?_
      unfold Outbox.list
      split
      · exact .refl_quiet _
      · split
        · exact .refl_quiet _
        · simp only [projected_ledger]
          exact committed_quiet fun _ _ => list_spec
  | listOperations p hp accountId kind limit now =>
      exact .quiet (committed_quiet fun _ _ => list_spec)
  | claimSend p hp id now =>
      have hold : (s.phase p).holds = none := by rw [hp]; rfl
      rcases transition_cases env id now .approved .applying false rfl hid with
        ⟨e, he⟩ | ⟨r, hr, rfl, hs, record, l, hc, hl, hkind, hpay⟩
      · simp only [Outbox.claim, claimOperation, he, projected, Phase.afterClaim]
        exact .drop s p .idle rfl
      · simp only [Outbox.claim, claimOperation, hc, projected]
        refine .claim l p _ r hr hs hl hold ?_
        cases hplan : sendPlanFromOperation env record with
        | error e => exact .inl rfl
        | ok plan =>
            obtain ⟨hk, hd⟩ := sendPlan_of hplan
            exact .inr ⟨_, rfl, hkind ▸ hk, hpay ▸ hd⟩
  | readMail p hp id now hcall =>
      rename_i call
      refine .read _ _ (committed_quiet fun _ _ h => get_spec (hcall.trans h)) fun q => ?_
      by_cases hq : q = p
      · subst hq
        refine .inr ?_
        rw [if_pos rfl]
        exact afterRead_holds id call
      · exact .inl (goto_other _ _ hq)
  | claimMail p id hp now hcall =>
      subst hcall
      have hold : (s.phase p).holds = none := by rw [hp]; rfl
      rcases transition_cases env id now .approved .applying false rfl hid with
        ⟨e, he⟩ | ⟨r, hr, rfl, hs, record, l, hc, hl, hkind, hpay⟩
      · simp only [claimOperation, he, committed, Phase.afterClaim]
        exact .drop s p .idle rfl
      · simp only [claimOperation, hc, committed, Phase.afterClaim]
        exact .claim l p _ r hr hs hl hold (.inr ⟨_, rfl, hkind, hpay⟩)
  | invoke p id call hp credentials clock hinv =>
      rename_i inv
      cases inv with
      | error e => exact .refuse p id call hp e
      | ok v => exact .invoke p id call hp credentials clock v.1 v.2 hinv
  | refuse p id call error hp now =>
      rcases recordRefusal_cases env id error now call hid with h | h
      · rw [h]; exact .drop s p .idle rfl
      · exact .finish _ p id .failed none (by rw [hp]; rfl) (by rw [hp]; exact ⟨rfl, rfl⟩) h
  | issue p id c k hp => exact .issue p id c k hp
  | reply p id c k hp r => exact .reply p id c k hp r
  | ret p id result hp => exact .ret p id result hp
  | finish p id result hp now =>
      rcases recordResult_cases env id now result hid with h | ⟨status, json, hv, h⟩
      · rw [h]; exact .drop s p .idle rfl
      · exact .finish _ p id status json (by rw [hp]; rfl) (by rw [hp]; exact hv) h
  | stop p => exact .drop s p .idle rfl

end Kirje
