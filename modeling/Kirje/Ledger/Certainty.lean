import Kirje.Ledger.AtMostOnce

/-
  File:      Kirje/Ledger/Certainty.lean
  Subject:   Outcome certainty: what the final status of a row says about the
             commands that were sent for it.

  **The invariant** `OutcomeInv` follows the claim through its call: the wire
  seen by the adapter's program so far agrees with the history, and the rest of
  the program will judge it rightly (`imapApply_certain`, `smtpSend_certain`).
  A finish can only write what the adapter's verdict says, and a claim that lost
  its finish to reconciliation stays `ambiguous`.

  * `outcomeInv_reachable`: the invariant holds in every reachable system.
  * `outcome_certainty`: the three facts about `failed`, `succeeded` and
    unanswered commands.
-/

namespace Kirje

open Base

variable {env : External} {libs : MailLibraries}

/-! ## 1. Counting commands -/

/-- The mutating commands issued for `id`. -/
def mutations (id : String) : List Entry → Nat
  | [] => 0
  | .issued id' c :: h => mutations id h + if id' = id ∧ c.mutating then 1 else 0
  | _ :: h => mutations id h

/-- The mutating commands for `id` that returned `Ok`. -/
def answered (id : String) : List Entry → Nat
  | [] => 0
  | .replied id' c r :: h =>
      answered id h + if id' = id ∧ c.mutating ∧ c.answeredOk r then 1 else 0
  | _ :: h => answered id h

/-- What the adapters returned for `id`, newest first. -/
def results (id : String) : List Entry → List AdapterResult
  | [] => []
  | .result id' r :: h => if id' = id then r :: results id h else results id h
  | _ :: h => results id h

/-- The operation an entry is about. -/
def Entry.id : Entry → String
  | .created id _ | .approved id | .invoked id _ | .issued id _ | .replied id _ _ | .result id _ => id

/-- An entry about another operation counts for nothing. -/
theorem counts_other {id : String} {e : Entry} (he : e.id ≠ id) (h : List Entry) :
    mutations id (e :: h) = mutations id h ∧ answered id (e :: h) = answered id h ∧
      results id (e :: h) = results id h := by
  cases e <;> simp_all [mutations, answered, results, Entry.id]

/-! ## 2. The invariant -/

/-- Nothing was sent for `id` and nothing came back. -/
structure Untouched (id : String) (h : List Entry) : Prop where
  mutations : mutations id h = 0
  answered : answered id h = 0
  results : results id h = []

/-- The wire a program has seen agrees with the history. -/
def Tracks (id : String) (h : List Entry) (w : Wire) : Prop :=
  (w.issued = false → mutations id h = 0 ∧ answered id h = 0) ∧
    (w.refused = false → answered id h = mutations id h)

/-- The same while the reply to `c` is outstanding. -/
def Waits (id : String) (c : RemoteCommand) (h : List Entry) (w : Wire) : Prop :=
  (w.issued = false → mutations id h = (if c.mutating then 1 else 0) ∧ answered id h = 0) ∧
    (w.refused = false → mutations id h = answered id h + if c.mutating then 1 else 0)

/-- The result judges the wire rightly. -/
def Judged (w : Wire) : AdapterResult → Prop
  | .sent r => Certain SendAttemptError.deliveryStarted w r
  | .applied r => Certain RemoteAttemptError.mutationStarted w r

/-- What the history holds for the operation a process has claimed. -/
def PhaseOk (h : List Entry) : Phase → Prop
  | .idle | .pending _ => True
  | .claimed id _ | .refused id _ _ => Untouched id h
  | .running id rest =>
      results id h = [] ∧ ∃ w, Tracks id h w ∧ rest.Post Wire.see Judged w
  | .waiting id c k =>
      results id h = [] ∧ ∃ w, Waits id c h w ∧ ∀ r, (k r).Post Wire.see Judged (w.see c r)
  | .returned id result => results id h = [result] ∧ ∃ w, Tracks id h w ∧ Judged w result

/-- The stored text is the receipt of an adapter that returned `Ok`. -/
def ReceiptOf (env : External) (json : Option String) : AdapterResult → Prop
  | .sent (.ok receipt) => json = env.sendReceipt.encode receipt
  | .applied (.ok receipt) => json = env.mailReceipt.encode receipt
  | _ => False

/-- What the status of a row says about its commands. -/
def RowOk (env : External) (h : List Entry) (r : OperationRow) : Prop :=
  (r.status.claimed = false → Untouched r.id h) ∧
  (r.status = .failed → mutations r.id h = 0 ∧ answered r.id h = 0) ∧
  (r.status = .succeeded → answered r.id h = mutations r.id h ∧
    ∃ result, results r.id h = [result] ∧ ReceiptOf env r.receiptJson result)

structure OutcomeInv (env : External) (s : System) : Prop where
  claim : ClaimInv env s
  rows : ∀ r ∈ s.ledger.operations, RowOk env s.history r
  phases : ∀ p, PhaseOk s.history (s.phase p)
  absent : ∀ id, id ∉ s.ledger.operations.map (·.id) → Untouched id s.history

/-! ## 3. Frame facts -/

/-- A phase only depends on the counts of the operation it holds. -/
theorem PhaseOk.congr {h h' : List Entry} {ph : Phase} (hok : PhaseOk h ph)
    (hc : ∀ id, ph.holds = some id → mutations id h' = mutations id h ∧
      answered id h' = answered id h ∧ results id h' = results id h) : PhaseOk h' ph := by
  cases ph with
  | idle => trivial
  | pending id => trivial
  | claimed id call =>
      obtain ⟨h₁, h₂, h₃⟩ := hc id rfl
      exact ⟨h₁.trans hok.1, h₂.trans hok.2, h₃.trans hok.3⟩
  | refused id call e =>
      obtain ⟨h₁, h₂, h₃⟩ := hc id rfl
      exact ⟨h₁.trans hok.1, h₂.trans hok.2, h₃.trans hok.3⟩
  | running id rest =>
      obtain ⟨h₁, h₂, h₃⟩ := hc id rfl
      simpa only [PhaseOk, Tracks, h₁, h₂, h₃] using hok
  | waiting id c k =>
      obtain ⟨h₁, h₂, h₃⟩ := hc id rfl
      simpa only [PhaseOk, Waits, h₁, h₂, h₃] using hok
  | returned id result =>
      obtain ⟨h₁, h₂, h₃⟩ := hc id rfl
      simpa only [PhaseOk, Tracks, h₁, h₂, h₃] using hok

theorem RowOk.congr {h h' : List Entry} {r : OperationRow} (hok : RowOk env h r)
    (h₁ : mutations r.id h' = mutations r.id h) (h₂ : answered r.id h' = answered r.id h)
    (h₃ : results r.id h' = results r.id h) : RowOk env h' r := by
  refine ⟨fun hs => ?_, by rw [h₁, h₂]; exact hok.2.1, by rw [h₁, h₂, h₃]; exact hok.2.2⟩
  have hu := hok.1 hs
  exact ⟨h₁.trans hu.1, h₂.trans hu.2, h₃.trans hu.3⟩

/-- A row whose claim is not finished promises nothing yet. -/
theorem RowOk.of_unfinished {h : List Entry} {r : OperationRow}
    (hs : r.status = .applying ∨ r.status = .ambiguous) : RowOk env h r := by
  rcases hs with hs | hs <;> simp [RowOk, hs, OperationStatus.claimed]

/-- Quiet edges lead to no promise that the row did not make before. -/
theorem RowOk.quiet {h : List Entry} {r r' : OperationRow} (hok : RowOk env h r)
    (hq : QuietRow r r') : RowOk env h r' := by
  obtain ⟨hsame, hrec, hst⟩ := hq
  rcases hst with he | ⟨hu, he⟩ | ⟨-, he⟩
  · simpa only [RowOk, hsame.id, hrec, ← he] using hok
  · have hc : r.status.claimed = false := by
      cases hs : r.status <;> simp_all [OperationStatus.unclaimed, OperationStatus.claimed]
    refine ⟨fun _ => hsame.id ▸ hok.1 hc, fun hf => ?_, fun hf => ?_⟩ <;> rw [he] at hf <;> cases hf
  · exact .of_unfinished (.inr he)

/-- A process that holds nothing promises nothing. -/
theorem PhaseOk.of_free {h : List Entry} {ph : Phase} (hf : ph.holds = none) : PhaseOk h ph := by
  cases ph with
  | idle | pending => trivial
  | claimed | refused | running | waiting | returned => cases hf

/-! ## 4. One move -/

section Moves

variable {s : System}

/-- An entry about the operation `p` holds, written while `p` goes on to `ph`. -/
theorem OutcomeInv.talk (hI : OutcomeInv env s) {p : Nat} {e : Entry} {ph : Phase}
    (hold : (s.phase p).holds = some e.id) (hph : PhaseOk (e :: s.history) ph)
    (hC : ClaimInv env ({ s with history := e :: s.history }.goto p ph)) :
    OutcomeInv env ({ s with history := e :: s.history }.goto p ph) := by
  obtain ⟨x, hx, hxid, hxs⟩ := hI.claim.held p _ hold
  refine ⟨hC, fun r hr => ?_, fun q => ?_, fun id hid => ?_⟩
  · by_cases he : e.id = r.id
    · obtain rfl := eq_of_key_eq hI.claim.ids hr hx (he.symm.trans hxid.symm)
      exact .of_unfinished hxs
    · obtain ⟨h₁, h₂, h₃⟩ := counts_other he s.history
      exact (hI.rows r hr).congr h₁ h₂ h₃
  · by_cases hq : q = p
    · subst hq; rw [goto_self]; exact hph
    · rw [goto_other _ _ hq]
      -- no other process holds the operation the entry is about
      refine (hI.phases q).congr fun id hid => counts_other ?_ s.history
      rintro rfl
      exact hq (hI.claim.unique q p _ hid hold)
  · have he : e.id ≠ id := by
      rintro rfl
      exact hid (hxid ▸ List.mem_map_of_mem hx)
    obtain ⟨h₁, h₂, h₃⟩ := counts_other he s.history
    have hu := hI.absent id hid
    exact ⟨h₁.trans hu.1, h₂.trans hu.2, h₃.trans hu.3⟩

theorem OutcomeInv.read (hI : OutcomeInv env s) {l : Ledger} {ph : Nat → Phase}
    (hl : Evolves QuietRow s.ledger l) (hph : ∀ q, ph q = s.phase q ∨ (ph q).holds = none) :
    OutcomeInv env ⟨l, ph, s.history⟩ := by
  refine ⟨hI.claim.read hl hph, fun r' hr' => ?_, fun q => ?_, fun id hid => ?_⟩
  · obtain ⟨r, hr, h⟩ := hl.old hr'
    exact (hI.rows r hr).quiet h
  · rcases hph q with h | h
    · simp only [h]; exact hI.phases q
    · exact .of_free h
  · exact hI.absent id (hl.ids (fun _ _ h => h.same.id) ▸ hid)

theorem OutcomeInv.create (hI : OutcomeInv env s) {l : Ledger} {row : OperationRow}
    {request : Request} (hl : l.operations = s.ledger.operations ++ [row])
    (hfresh : row.id ∉ s.ledger.operations.map (·.id)) (hplanned : row.status = .planned)
    (hst : Stores env row request) :
    OutcomeInv env ⟨l, s.phase, .created row.id request :: s.history⟩ := by
  refine ⟨hI.claim.create hl hfresh hplanned hst, fun r hr => ?_,
    fun q => (hI.phases q).congr fun _ _ => ⟨rfl, rfl, rfl⟩, fun id hid => ?_⟩
  · simp only [hl, List.mem_append, List.mem_singleton] at hr
    rcases hr with hr | rfl
    · exact (hI.rows r hr).congr rfl rfl rfl
    · have hu := hI.absent r.id hfresh
      refine ⟨fun _ => ⟨hu.1, hu.2, hu.3⟩, fun hf => ?_, fun hf => ?_⟩ <;> rw [hplanned] at hf <;>
        cases hf
  · simp only [hl, List.map_append, List.mem_append, not_or] at hid
    have hu := hI.absent id hid.1
    exact ⟨hu.1, hu.2, hu.3⟩

/-- The rows after a transition into a status that promises nothing. -/
theorem OutcomeInv.moved (hI : OutcomeInv env s) {l : Ledger} {r : OperationRow}
    {target : OperationStatus} (hr : r ∈ s.ledger.operations) (hs : r.status.claimed = false)
    (ht : target = .approved ∨ target = .applying)
    (hl : Evolves (MovesTo r.id target) s.ledger l) : ∀ x ∈ l.operations, RowOk env s.history x := by
  intro x' hx'
  obtain ⟨x, hx, h⟩ := hl.old hx'
  unfold MovesTo at h
  split at h
  · rename_i hid
    obtain rfl := eq_of_key_eq hI.claim.ids hx hr hid
    rcases ht with rfl | rfl
    · refine ⟨fun _ => h.1.id ▸ (hI.rows x hx).1 hs, fun hf => ?_, fun hf => ?_⟩ <;>
        rw [h.2.2] at hf <;> cases hf
    · exact .of_unfinished (.inl h.2.2)
  · exact (hI.rows x hx).quiet h

theorem OutcomeInv.approve (hI : OutcomeInv env s) {l : Ledger} {r : OperationRow}
    (hr : r ∈ s.ledger.operations) (hs : r.status = .planned)
    (hl : Evolves (MovesTo r.id .approved) s.ledger l) :
    OutcomeInv env ⟨l, s.phase, .approved r.id :: s.history⟩ := by
  refine ⟨hI.claim.approve hr hs hl, fun x hx => ?_,
    fun q => (hI.phases q).congr fun _ _ => ⟨rfl, rfl, rfl⟩, fun id hid => ?_⟩
  · exact (hI.moved hr (by rw [hs]; rfl) (.inl rfl) hl x hx).congr rfl rfl rfl
  · have hu := hI.absent id (hl.ids (fun _ _ h => h.same.id) ▸ hid)
    exact ⟨hu.1, hu.2, hu.3⟩

theorem OutcomeInv.claimed (hI : OutcomeInv env s) {l : Ledger} {p : Nat} {ph : Phase}
    {r : OperationRow} (hr : r ∈ s.ledger.operations) (hs : r.status = .approved)
    (hl : Evolves (MovesTo r.id .applying) s.ledger l)
    (hph : ph = .idle ∨ ∃ call, ph = .claimed r.id call ∧ CallOf env r call) :
    OutcomeInv env ({ s with ledger := l }.goto p ph) := by
  have hopen : r.status.claimed = false := by rw [hs]; rfl
  refine ⟨hI.claim.claim hr hs hl hph, hI.moved hr hopen (.inr rfl) hl, fun q => ?_,
    fun id hid => hI.absent id (hl.ids (fun _ _ h => h.same.id) ▸ hid)⟩
  by_cases hq : q = p
  · subst hq
    rw [goto_self]
    rcases hph with rfl | ⟨call, rfl, -⟩
    · trivial
    · exact (hI.rows r hr).1 hopen
  · rw [goto_other _ _ hq]
    exact hI.phases q

/-- The program of an invocation judges every reply sequence rightly. -/
theorem invocation_judged {id : String} {credentials : Result (MailAccountConfig × String)}
    {clock : DateTime} {call : Claimed} {request : Request} {program : Remote AdapterResult}
    (h : invocation env libs id credentials clock call = .ok (request, program)) :
    program.Post Wire.see Judged .quiet := by
  cases call with
  | plan plan =>
      simp only [invocation, bind_ok, pure_ok, Prod.mk.injEq] at h
      obtain ⟨account, -, -, rfl⟩ := h
      exact Program.post_bind.mpr (smtpSend_certain env libs account.1 plan clock)
  | record record =>
      simp only [invocation, bind_ok, pure_ok, Prod.mk.injEq] at h
      obtain ⟨op, -, account, -, -, rfl⟩ := h
      exact Program.post_bind.mpr (imapApply_certain env libs account.1 account.2 id op clock)

theorem RowOk.of_failed {h : List Entry} {r : OperationRow} (hs : r.status = .failed)
    (hm : mutations r.id h = 0 ∧ answered r.id h = 0) : RowOk env h r := by
  simp [RowOk, hs, OperationStatus.claimed, hm]

theorem RowOk.of_succeeded {h : List Entry} {r : OperationRow} (hs : r.status = .succeeded)
    (ha : answered r.id h = mutations r.id h) {result : AdapterResult}
    (hr : results r.id h = [result]) (hj : ReceiptOf env r.receiptJson result) :
    RowOk env h r := by
  refine ⟨fun hc => ?_, fun hf => ?_, fun _ => ⟨ha, result, hr, hj⟩⟩
  · rw [hs] at hc; cases hc
  · rw [hs] at hf; cases hf

/-- A verdict that is certain of a failure, or not certain, is what the row may say. -/
theorem RowOk.of_error {h : List Entry} {r : OperationRow} {w : Wire} {started : Bool}
    (htr : Tracks r.id h w) (hc : started = false → w.issued = false)
    (hs : r.status = if started then .ambiguous else .failed) : RowOk env h r := by
  cases started with
  | true => exact .of_unfinished (.inr hs)
  | false => exact .of_failed hs (htr.1 (hc rfl))

/-- **What a finish writes is what the status of the row promises.** -/
theorem verdict_row {h : List Entry} {r : OperationRow} {ph : Phase} {status : OperationStatus}
    {json : Option String} (hok : PhaseOk h ph) (hp : ph.holds = some r.id)
    (hv : Verdict env ph status json) (hs : r.status = status) (hj : r.receiptJson = json) :
    RowOk env h r := by
  cases ph with
  | idle | pending | claimed | running | waiting => exact hv.elim
  | refused id call e =>
      cases hp
      exact .of_failed (hs.trans hv.1) ⟨hok.mutations, hok.answered⟩
  | returned id result =>
      cases hp
      obtain ⟨hres, w, htr, hjd⟩ := hok
      rcases result with ((e | receipt) | (e | receipt))
      · exact .of_error htr hjd (hs.trans hv.1)
      · exact .of_succeeded (hs.trans hv.1) (htr.2 hjd) hres (hj.trans hv.2)
      · exact .of_error htr hjd (hs.trans hv.1)
      · exact .of_succeeded (hs.trans hv.1) (htr.2 hjd) hres (hj.trans hv.2)

theorem OutcomeInv.finish (hI : OutcomeInv env s) {l : Ledger} {p : Nat} {id : String}
    {status : OperationStatus} {json : Option String} (hp : (s.phase p).holds = some id)
    (hv : Verdict env (s.phase p) status json)
    (hl : Evolves (Finishes id status json) s.ledger l) :
    OutcomeInv env ({ s with ledger := l }.goto p .idle) := by
  refine ⟨hI.claim.finish hp hv.claimed hl, fun r' hr' => ?_, fun q => ?_,
    fun id' hid => hI.absent id' (hl.ids (fun _ _ h => h.same.id) ▸ hid)⟩
  · obtain ⟨r, hr, h⟩ := hl.old hr'
    unfold Finishes at h
    split at h
    · rename_i hid
      obtain ⟨-, hsame, hjson, hst⟩ := h
      rw [goto_history]
      exact verdict_row (hI.phases p) (by rw [hsame.id, hid]; exact hp) hv hst hjson
    · rw [h]
      exact hI.rows r hr
  · by_cases hq : q = p
    · subst hq; rw [goto_self]; trivial
    · rw [goto_other _ _ hq]; exact hI.phases q

end Moves

/-! ## 5. Every run -/

/-- **Every move keeps the invariant.** -/
theorem outcomeInv_move {s s' : System} (hI : OutcomeInv env s) (h : Move env libs s s') :
    OutcomeInv env s' := by
  have hC := claimInv_move hI.claim h
  cases h with
  | read l ph hl hph => exact hI.read hl hph
  | create l row request hl hfresh hplanned hst => exact hI.create hl hfresh hplanned hst
  | approve l r hr hs hl => exact hI.approve hr hs hl
  | claim l p ph r hr hs hl hp hph => exact hI.claimed hr hs hl hph
  | invoke p id call hp credentials clock request program hinv =>
      have hu : Untouched id s.history := by have := hI.phases p; rwa [hp] at this
      refine hI.talk (by rw [hp]; rfl) ⟨hu.results, .quiet, ⟨fun _ => ⟨hu.mutations, hu.answered⟩, fun _ => ?_⟩,
        invocation_judged hinv⟩ hC
      exact hu.answered.trans hu.mutations.symm
  | refuse p id call hp error =>
      have hu : Untouched id s.history := by have := hI.phases p; rwa [hp] at this
      refine ⟨hC, hI.rows, fun q => ?_, hI.absent⟩
      by_cases hq : q = p
      · subst hq; rw [goto_self]; exact hu
      · rw [goto_other _ _ hq]; exact hI.phases q
  | issue p id c k hp =>
      have hok := hI.phases p
      rw [hp] at hok
      obtain ⟨hres, w, ⟨h₁, h₂⟩, hpost⟩ := hok
      refine hI.talk (by rw [hp]; rfl) ⟨hres, w, ⟨fun hw => ?_, fun hw => ?_⟩, hpost⟩ hC
      · simp [mutations, answered, h₁ hw]
      · simp [mutations, answered, h₂ hw]
  | reply p id c k hp r =>
      have hok := hI.phases p
      rw [hp] at hok
      obtain ⟨hres, w, ⟨h₁, h₂⟩, hpost⟩ := hok
      refine hI.talk (by rw [hp]; rfl) ⟨hres, w.see c r, ⟨fun hw => ?_, fun hw => ?_⟩, hpost r⟩ hC
      · simp only [Wire.see, Bool.or_eq_false_iff] at hw
        simp [mutations, answered, h₁ hw.1, hw.2]
      · simp only [Wire.see, Bool.or_eq_false_iff, Bool.and_eq_false_iff, Bool.not_eq_false'] at hw
        rcases hw.2 with hm | hok <;> simp_all [mutations, answered]
  | ret p id result hp =>
      have hok := hI.phases p
      rw [hp] at hok
      obtain ⟨hres, w, htr, hpost⟩ := hok
      exact hI.talk (by rw [hp]; rfl) ⟨by simp [results, hres], w, htr, hpost⟩ hC
  | finish l p id status json hp hv hl => exact hI.finish hp hv hl

theorem outcomeInv_initial : OutcomeInv env System.initial :=
  ⟨claimInv_initial, by simp [System.initial, Ledger.empty], fun _ => trivial,
    fun _ _ => ⟨rfl, rfl, rfl⟩⟩

/-- **The invariant holds in every state any interleaving reaches.** -/
theorem outcomeInv_reachable {s : System} (h : Reachable env libs s) : OutcomeInv env s := by
  refine h.invariant (fun _ hs => ?_)
    fun _ _ hI hs => outcomeInv_move hI (step_move hI.claim.ids hs)
  rw [hs]
  exact outcomeInv_initial

/-- **Outcome certainty.**  In every interleaving and for every reply sequence: a row is `failed`
    only if no mutating command was issued for it; it is `succeeded` only if its adapter returned
    `Ok`, once, and the stored receipt is that adapter's; and while some mutating command for it was
    not answered `Ok`, it is `applying` or `ambiguous`. -/
theorem outcome_certainty {s : System} (h : Reachable env libs s) {r : OperationRow}
    (hr : r ∈ s.ledger.operations) :
    (r.status = .failed → mutations r.id s.history = 0) ∧
    (r.status = .succeeded →
      ∃ result, results r.id s.history = [result] ∧ ReceiptOf env r.receiptJson result) ∧
    (answered r.id s.history ≠ mutations r.id s.history →
      r.status = .applying ∨ r.status = .ambiguous) := by
  obtain ⟨hopen, hfail, hsucc⟩ := (outcomeInv_reachable h).rows r hr
  refine ⟨fun hs => (hfail hs).1, fun hs => (hsucc hs).2, fun hne => ?_⟩
  have untouched : r.status.claimed = false → False := fun hc =>
    hne ((hopen hc).answered.trans (hopen hc).mutations.symm)
  cases hs : r.status with
  | applying => exact .inl rfl
  | ambiguous => exact .inr rfl
  | succeeded => exact absurd (hsucc hs).1 hne
  | failed => exact absurd ((hfail hs).2.trans (hfail hs).1.symm) hne
  | planned | approved | expired => exact (untouched (by rw [hs]; rfl)).elim

/-- The theorem on the run: the row has succeeded with its adapter's receipt. -/
theorem outcome_certainty_sample_run : ∃ s, Reachable Sample.env Sample.libs s ∧
    ∃ r ∈ s.ledger.operations, r.status = .succeeded ∧
      ∃ result, results r.id s.history = [result] ∧
        ReceiptOf Sample.env r.receiptJson result := by
  obtain ⟨s, hs, -, r, hr, hst, -⟩ := Sample.succeeded_run
  exact ⟨s, hs, r, hr, hst, (outcome_certainty hs hr).2.1 hst⟩

end Kirje
