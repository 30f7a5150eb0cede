import Kirje.Ledger.Moves

/-
  File:      Kirje/Ledger/AtMostOnce.lean
  Subject:   At most one remote effect for each operation id, in every
             interleaving.

  **The invariant** `ClaimInv`: ids are distinct; every row stores the request it
  was created with, and every creation has its row; a row past `planned` was
  approved; a claimed operation is held by at most one process, its row is
  `applying` or `ambiguous`, and its adapter is invoked only out of the claim.
  Since no call leads back from a claimed status to `approved`, a second claim,
  and with it a second invocation, cannot happen.

  * `claimInv_reachable`: the invariant holds in every reachable system.
  * `remote_effect_at_most_once`: one invocation at most, after an approval of
    the same id, with the request the id was created with.
-/

namespace Kirje

open Base

section Claims

variable {env : External} {libs : MailLibraries}

/-! ## 1. The invariant -/

/-- A status only a claim leads to. -/
def OperationStatus.claimed : OperationStatus → Bool
  | .planned | .approved | .expired => false
  | .applying | .succeeded | .failed | .ambiguous => true

/-- The number of adapter invocations of `id`. -/
def invocations (id : String) : List Entry → Nat
  | [] => 0
  | .invoked id' _ :: h => invocations id h + if id' = id then 1 else 0
  | _ :: h => invocations id h

/-- Each invocation comes after what `P` asks of the history before it. -/
def Preceded (P : String → Request → List Entry → Prop) : List Entry → Prop
  | [] => True
  | .invoked id request :: h => P id request h ∧ Preceded P h
  | _ :: h => Preceded P h

/-- Each invocation comes after an approval of the same id. -/
def Ordered : List Entry → Prop := Preceded fun id _ h => .approved id ∈ h

/-- Each invocation receives the request its id was created with. -/
def Requested : List Entry → Prop := Preceded fun id request h => .created id request ∈ h

/-- A process that holds `id` and has not yet called the adapter. -/
def Phase.uninvoked : Phase → Option String
  | .claimed id _ | .refused id _ _ => some id
  | _ => none

structure ClaimInv (env : External) (s : System) : Prop where
  ids : (s.ledger.operations.map (·.id)).Nodup
  rowCreated : ∀ r ∈ s.ledger.operations, ∃ q, .created r.id q ∈ s.history ∧ Stores env r q
  createdRow : ∀ id q, .created id q ∈ s.history →
    ∃ r ∈ s.ledger.operations, r.id = id ∧ Stores env r q
  approved : ∀ r ∈ s.ledger.operations, r.status = .approved ∨ r.status.claimed →
    .approved r.id ∈ s.history
  invoked : ∀ id, invocations id s.history ≠ 0 →
    ∃ r ∈ s.ledger.operations, r.id = id ∧ r.status.claimed
  once : ∀ id, invocations id s.history ≤ 1
  ordered : Ordered s.history
  held : ∀ p id, (s.phase p).holds = some id →
    ∃ r ∈ s.ledger.operations, r.id = id ∧ (r.status = .applying ∨ r.status = .ambiguous)
  unique : ∀ p q id, (s.phase p).holds = some id → (s.phase q).holds = some id → p = q
  fresh : ∀ p id, (s.phase p).uninvoked = some id → invocations id s.history = 0
  call : ∀ p id c, s.phase p = .claimed id c →
    ∃ r ∈ s.ledger.operations, r.id = id ∧ CallOf env r c

/-! ## 2. Rows along a move -/

/-- The row keeps its stored request. -/
theorem Stores.same {r r' : OperationRow} {q : Request} (h : Stores env r q) (hs : r.Same r') :
    Stores env r' q := by
  cases q with
  | send q => exact ⟨hs.kind.trans h.1, hs.payloadJson ▸ h.2⟩
  | mail q => exact ⟨hs.kind.trans h.1, hs.accountId.trans h.2.1, hs.payloadJson ▸ h.2.2⟩

theorem CallOf.same {r r' : OperationRow} {c : Claimed} (h : CallOf env r c) (hs : r.Same r') :
    CallOf env r' c := by
  cases c with
  | plan plan => exact ⟨hs.kind.trans h.1, hs.payloadJson ▸ h.2⟩
  | record record => exact ⟨h.1.trans hs.kind.symm, h.2.trans hs.payloadJson.symm⟩

theorem Quiet.claimed {a b : OperationStatus} (h : Quiet a b) : b.claimed = a.claimed := by
  rcases h with rfl | ⟨ha, rfl⟩ | ⟨rfl, rfl⟩
  · rfl
  · cases a <;> simp_all [OperationStatus.unclaimed, OperationStatus.claimed]
  · rfl

/-- A claimed row cannot be the one a transition moves. -/
theorem MovesTo.claimed {id : String} {target : OperationStatus} {r r' : OperationRow}
    (h : MovesTo id target r r') (hr : r.status.claimed) (hid : r.id = id → r.status.claimed = false) :
    QuietRow r r' := by
  unfold MovesTo at h
  split at h
  · rename_i he
    rw [hid he] at hr
    cases hr
  · exact h

theorem MovesTo.same {id : String} {target : OperationStatus} {r r' : OperationRow}
    (h : MovesTo id target r r') : r.Same r' := by
  unfold MovesTo at h
  split at h
  · exact h.1
  · exact h.same

theorem Finishes.same {id : String} {status : OperationStatus} {json : Option String}
    {r r' : OperationRow} (h : Finishes id status json r r') : r.Same r' := by
  unfold Finishes at h
  split at h
  · exact h.2.1
  · exact h ▸ .refl r

/-- What every move of the rows keeps, whichever edge it takes. -/
theorem ClaimInv.rows {s : System} (hI : ClaimInv env s) {R : OperationRow → OperationRow → Prop}
    {l : Ledger} (hl : Evolves R s.ledger l) (hR : ∀ r r', R r r' → r.Same r') :
    (l.operations.map (·.id)).Nodup ∧
    (∀ r ∈ l.operations, ∃ q, .created r.id q ∈ s.history ∧ Stores env r q) ∧
    (∀ id q, .created id q ∈ s.history → ∃ r ∈ l.operations, r.id = id ∧ Stores env r q) ∧
    (∀ p id c, s.phase p = .claimed id c → ∃ r ∈ l.operations, r.id = id ∧ CallOf env r c) := by
  refine ⟨?_, fun r' hr' => ?_, fun id q hq => ?_, fun p id c hp => ?_⟩
  · rw [hl.ids fun r r' h => (hR r r' h).id]
    exact hI.ids
  · obtain ⟨r, hr, h⟩ := hl.old hr'
    obtain ⟨q, hq, hst⟩ := hI.rowCreated r hr
    exact ⟨q, (hR _ _ h).id ▸ hq, hst.same (hR _ _ h)⟩
  · obtain ⟨r, hr, hid, hst⟩ := hI.createdRow id q hq
    obtain ⟨r', hr', h⟩ := hl.new hr
    exact ⟨r', hr', (hR _ _ h).id.trans hid, hst.same (hR _ _ h)⟩
  · obtain ⟨r, hr, hid, hc⟩ := hI.call p id c hp
    obtain ⟨r', hr', h⟩ := hl.new hr
    exact ⟨r', hr', (hR _ _ h).id.trans hid, hc.same (hR _ _ h)⟩

/-- A row stores one request. -/
theorem Stores.unique (hsend : env.sendRequest.Faithful) (hmail : env.mailOperation.Faithful)
    {r : OperationRow} {a b : Request} (ha : Stores env r a) (hb : Stores env r b) : a = b := by
  have kinds : ∀ k, mailOperationKindName k ≠ "send" := by intro k; cases k <;> decide
  cases a with
  | send a =>
      cases b with
      | send b =>
          exact congrArg _ (Option.some.inj ((hsend _ _ ha.2).symm.trans (hsend _ _ hb.2)))
      | mail b => exact absurd (hb.1.symm.trans ha.1) (kinds _)
  | mail a =>
      cases b with
      | send b => exact absurd (ha.1.symm.trans hb.1) (kinds _)
      | mail b =>
          exact congrArg _ (Option.some.inj ((hmail _ _ ha.2.2).symm.trans (hmail _ _ hb.2.2)))

/-! ## 3. One move -/

/-- A quiet edge keeps an unfinished claim unfinished. -/
theorem Quiet.unfinished {a b : OperationStatus} (h : Quiet a b)
    (ha : a = .applying ∨ a = .ambiguous) : b = .applying ∨ b = .ambiguous := by
  rcases h with rfl | ⟨hu, rfl⟩ | ⟨-, rfl⟩
  · exact ha
  · rcases ha with rfl | rfl <;> cases hu
  · exact .inr rfl

theorem Quiet.approved {a b : OperationStatus} (h : Quiet a b)
    (hb : b = .approved ∨ b.claimed) : a = .approved ∨ a.claimed := by
  rcases hb with rfl | hb
  · exact .inl (h.eq_of_unclaimed rfl)
  · exact .inr (h.claimed ▸ hb)

theorem unfinished_claimed {a : OperationStatus} (h : a = .applying ∨ a = .ambiguous) :
    a.claimed := by
  rcases h with rfl | rfl <;> rfl

theorem uninvoked_holds {ph : Phase} {id : String} (h : ph.uninvoked = some id) :
    ph.holds = some id := by
  cases ph <;> simp_all [Phase.uninvoked, Phase.holds]

theorem ClaimInv.read {s : System} (hI : ClaimInv env s) {l : Ledger} {ph : Nat → Phase}
    (hl : Evolves QuietRow s.ledger l) (hph : ∀ q, ph q = s.phase q ∨ (ph q).holds = none) :
    ClaimInv env ⟨l, ph, s.history⟩ := by
  obtain ⟨hids, hrc, hcr, hcall⟩ := hI.rows hl fun _ _ h => h.same
  -- a process that holds something afterwards is where it was
  have old : ∀ q id, (ph q).holds = some id → ph q = s.phase q := by
    intro q id hq
    rcases hph q with h | h
    · exact h
    · rw [h] at hq; cases hq
  refine ⟨hids, hrc, hcr, fun r' hr' hs => ?_, fun id hi => ?_, hI.once, hI.ordered,
    fun p id hp => ?_, fun p q id hp hq => ?_, fun p id hp => ?_, fun p id c hp => ?_⟩
  · obtain ⟨r, hr, h⟩ := hl.old hr'
    exact h.same.id ▸ hI.approved r hr (h.status.approved hs)
  · obtain ⟨r, hr, hid, hc⟩ := hI.invoked id hi
    obtain ⟨r', hr', h⟩ := hl.new hr
    exact ⟨r', hr', h.same.id.trans hid, h.status.claimed ▸ hc⟩
  · obtain ⟨r, hr, hid, hc⟩ := hI.held p id (old p id hp ▸ hp)
    obtain ⟨r', hr', h⟩ := hl.new hr
    exact ⟨r', hr', h.same.id.trans hid, h.status.unfinished hc⟩
  · exact hI.unique p q id (old p id hp ▸ hp) (old q id hq ▸ hq)
  · exact hI.fresh p id (old p id (uninvoked_holds hp) ▸ hp)
  · have hold : (ph p).holds = some id := by rw [show ph p = _ from hp]; rfl
    exact hcall p id c ((old p id hold).symm.trans hp)

theorem ClaimInv.create {s : System} (hI : ClaimInv env s) {l : Ledger} {row : OperationRow}
    {request : Request} (hl : l.operations = s.ledger.operations ++ [row])
    (hfresh : row.id ∉ s.ledger.operations.map (·.id)) (hplanned : row.status = .planned)
    (hst : Stores env row request) :
    ClaimInv env ⟨l, s.phase, .created row.id request :: s.history⟩ := by
  have mem : ∀ r, r ∈ l.operations ↔ r ∈ s.ledger.operations ∨ r = row := by
    intro r; rw [hl]; simp
  refine ⟨?_, fun r hr => ?_, fun id q hq => ?_, fun r hr hs => ?_, fun id hi => ?_, hI.once,
    hI.ordered, fun p id hp => ?_, hI.unique, hI.fresh, fun p id c hp => ?_⟩
  · rw [hl, List.map_append, List.nodup_append]
    refine ⟨hI.ids, by simp, ?_⟩
    rintro a ha b hb rfl
    simp only [List.map_cons, List.map_nil, List.mem_singleton] at hb
    exact hfresh (hb ▸ ha)
  · rcases (mem r).mp hr with hr | rfl
    · obtain ⟨q, hq, h⟩ := hI.rowCreated r hr
      exact ⟨q, .tail _ hq, h⟩
    · exact ⟨request, .head _, hst⟩
  · rcases List.mem_cons.mp hq with h | hq
    · cases h
      exact ⟨row, (mem row).mpr (.inr rfl), rfl, hst⟩
    · obtain ⟨r, hr, h⟩ := hI.createdRow id q hq
      exact ⟨r, (mem r).mpr (.inl hr), h⟩
  · rcases (mem r).mp hr with hr | rfl
    · exact .tail _ (hI.approved r hr hs)
    · rw [hplanned] at hs
      rcases hs with h | h <;> cases h
  · obtain ⟨r, hr, h⟩ := hI.invoked id hi
    exact ⟨r, (mem r).mpr (.inl hr), h⟩
  · obtain ⟨r, hr, h⟩ := hI.held p id hp
    exact ⟨r, (mem r).mpr (.inl hr), h⟩
  · obtain ⟨r, hr, h⟩ := hI.call p id c hp
    exact ⟨r, (mem r).mpr (.inl hr), h⟩

/-- The rows a transition of an unclaimed row does not move stay where quiet edges lead. -/
theorem ClaimInv.others {s : System} (hI : ClaimInv env s) {l : Ledger} {r : OperationRow}
    {target : OperationStatus} (hr : r ∈ s.ledger.operations) (hs : r.status.claimed = false)
    (hl : Evolves (MovesTo r.id target) s.ledger l) :
    (∀ id, invocations id s.history ≠ 0 → ∃ r' ∈ l.operations, r'.id = id ∧ r'.status.claimed) ∧
    (∀ p id, (s.phase p).holds = some id → id ≠ r.id ∧
      ∃ r' ∈ l.operations, r'.id = id ∧ (r'.status = .applying ∨ r'.status = .ambiguous)) := by
  have quiet : ∀ x ∈ s.ledger.operations, x.status.claimed → x.id ≠ r.id ∧
      ∃ x' ∈ l.operations, QuietRow x x' := by
    intro x hx hc
    have hne : x.id ≠ r.id := by
      intro he
      rw [eq_of_key_eq hI.ids hx hr he, hs] at hc
      cases hc
    obtain ⟨x', hx', h⟩ := hl.new hx
    exact ⟨hne, x', hx', h.claimed hc fun he => absurd he hne⟩
  refine ⟨fun id hi => ?_, fun p id hp => ?_⟩
  · obtain ⟨x, hx, hid, hc⟩ := hI.invoked id hi
    obtain ⟨-, x', hx', h⟩ := quiet x hx hc
    exact ⟨x', hx', h.same.id.trans hid, h.status.claimed ▸ hc⟩
  · obtain ⟨x, hx, hid, hc⟩ := hI.held p id hp
    obtain ⟨hne, x', hx', h⟩ := quiet x hx (unfinished_claimed hc)
    exact ⟨hid ▸ hne, x', hx', h.same.id.trans hid, h.status.unfinished hc⟩

theorem ClaimInv.approve {s : System} (hI : ClaimInv env s) {l : Ledger} {r : OperationRow}
    (hr : r ∈ s.ledger.operations) (hs : r.status = .planned)
    (hl : Evolves (MovesTo r.id .approved) s.ledger l) :
    ClaimInv env ⟨l, s.phase, .approved r.id :: s.history⟩ := by
  obtain ⟨hids, hrc, hcr, hcall⟩ := hI.rows hl fun _ _ h => h.same
  obtain ⟨hinv, hheld⟩ := hI.others hr (by rw [hs]; rfl) hl
  refine ⟨hids, fun x hx => ?_, fun id q hq => ?_, fun x' hx' hs' => ?_, hinv, hI.once,
    hI.ordered, fun p id hp => (hheld p id hp).2, hI.unique, hI.fresh, hcall⟩
  · obtain ⟨q, hq, h⟩ := hrc x hx
    exact ⟨q, .tail _ hq, h⟩
  · rcases List.mem_cons.mp hq with h | hq
    · cases h
    · exact hcr id q hq
  · obtain ⟨x, hx, h⟩ := hl.old hx'
    by_cases hid : x.id = r.id
    · rw [h.same.id, hid]
      exact .head _
    · unfold MovesTo at h
      rw [if_neg hid] at h
      exact .tail _ (h.same.id ▸ hI.approved x hx (h.status.approved hs'))

theorem ClaimInv.claim {s : System} (hI : ClaimInv env s) {l : Ledger} {p : Nat} {ph : Phase}
    {r : OperationRow} (hr : r ∈ s.ledger.operations) (hs : r.status = .approved)
    (hl : Evolves (MovesTo r.id .applying) s.ledger l)
    (hph : ph = .idle ∨ ∃ call, ph = .claimed r.id call ∧ CallOf env r call) :
    ClaimInv env ({ s with ledger := l }.goto p ph) := by
  obtain ⟨hids, hrc, hcr, hcall⟩ := hI.rows hl fun _ _ h => h.same
  obtain ⟨hinv, hheld⟩ := hI.others hr (by rw [hs]; rfl) hl
  obtain ⟨r', hr', hm⟩ := hl.new hr
  unfold MovesTo at hm
  rw [if_pos rfl] at hm
  -- the claim is the only new holding, and nobody held the row before
  have holds : ∀ q id, (({ s with ledger := l }.goto p ph).phase q).holds = some id →
      (q = p ∧ id = r.id) ∨ (q ≠ p ∧ (s.phase q).holds = some id) := by
    intro q id hq
    by_cases hqp : q = p
    · subst hqp
      rw [goto_self] at hq
      rcases hph with rfl | ⟨call, rfl, -⟩
      · cases hq
      · exact .inl ⟨rfl, (Option.some.inj hq).symm⟩
    · rw [goto_other _ _ hqp] at hq
      exact .inr ⟨hqp, hq⟩
  refine ⟨hids, hrc, hcr, fun x' hx' hs' => ?_, hinv, hI.once, hI.ordered, fun q id hq => ?_,
    fun q q' id hq hq' => ?_, fun q id hq => ?_, fun q id c hq => ?_⟩
  · obtain ⟨x, hx, h⟩ := hl.old hx'
    by_cases hid : x.id = r.id
    · rw [h.same.id]
      exact hI.approved x hx (.inl (eq_of_key_eq hI.ids hx hr hid ▸ hs))
    · unfold MovesTo at h
      rw [if_neg hid] at h
      exact h.same.id ▸ hI.approved x hx (h.status.approved hs')
  · rcases holds q id hq with ⟨-, rfl⟩ | ⟨-, hq⟩
    · exact ⟨r', hr', hm.1.id, .inl hm.2.2⟩
    · exact (hheld q id hq).2
  · rcases holds q id hq with ⟨hp₁, h₁⟩ | ⟨-, h₁⟩ <;>
      rcases holds q' id hq' with ⟨hp₂, h₂⟩ | ⟨-, h₂⟩
    · exact hp₁.trans hp₂.symm
    · exact absurd h₁ (hheld q' id h₂).1
    · exact absurd h₂ (hheld q id h₁).1
    · exact hI.unique q q' id h₁ h₂
  · rcases holds q id (uninvoked_holds hq) with ⟨rfl, rfl⟩ | ⟨hqp, -⟩
    · -- an invocation would have left the row claimed, but it was approved
      by_contra hne
      obtain ⟨x, hx, hid, hc⟩ := hI.invoked _ hne
      rw [eq_of_key_eq hI.ids hx hr hid, hs] at hc
      cases hc
    · rw [goto_other _ _ hqp] at hq
      exact hI.fresh q id hq
  · by_cases hqp : q = p
    · subst hqp
      rw [goto_self] at hq
      subst hq
      rcases hph with h | ⟨call, h, hc⟩
      · cases h
      · cases h
        exact ⟨r', hr', hm.1.id, hc.same hm.1⟩
    · rw [goto_other _ _ hqp] at hq
      exact hcall q id c hq

/-- A move of a holding process past its claim: rows stay, and neither creations nor
    invocations enter the history. -/
theorem ClaimInv.keep {s : System} (hI : ClaimInv env s) {p : Nat} {ph : Phase}
    {h' : List Entry} (hp : ph.holds = (s.phase p).holds)
    (hu : ∀ id, ph.uninvoked = some id → (s.phase p).uninvoked = some id)
    (hc : ∀ id c, ph ≠ .claimed id c) (hmem : ∀ e ∈ s.history, e ∈ h')
    (hcr : ∀ id q, .created id q ∈ h' → .created id q ∈ s.history)
    (hin : ∀ id, invocations id h' = invocations id s.history) (hord : Ordered h') :
    ClaimInv env ({ s with history := h' }.goto p ph) := by
  have holds : ∀ q, (({ s with history := h' }.goto p ph).phase q).holds = (s.phase q).holds := by
    intro q
    by_cases hqp : q = p
    · subst hqp; rw [goto_self, hp]
    · rw [goto_other _ _ hqp]
  refine ⟨hI.ids, fun r hr => ?_, fun id q hq => hI.createdRow id q (hcr id q hq),
    fun r hr hs => hmem _ (hI.approved r hr hs), fun id hi => hI.invoked id (hin id ▸ hi),
    fun id => Nat.le_trans (Nat.le_of_eq (hin id)) (hI.once id), hord, fun q id hq => hI.held q id (holds q ▸ hq),
    fun q q' id hq hq' => hI.unique q q' id (holds q ▸ hq) (holds q' ▸ hq'), fun q id hq => ?_,
    fun q id c hq => ?_⟩
  · obtain ⟨q, hq, h⟩ := hI.rowCreated r hr
    exact ⟨q, hmem _ hq, h⟩
  · refine (hin id).trans (hI.fresh q id ?_)
    by_cases hqp : q = p
    · subst hqp; rw [goto_self] at hq; exact hu id hq
    · rw [goto_other _ _ hqp] at hq; exact hq
  · by_cases hqp : q = p
    · subst hqp; rw [goto_self] at hq; exact absurd hq (hc id c)
    · rw [goto_other _ _ hqp] at hq; exact hI.call q id c hq

/-- The request an adapter receives is the one its operation was created with. -/
theorem ClaimInv.invoked_request {s : System} (hI : ClaimInv env s)
    (hsend : env.sendRequest.Faithful) (hmail : env.mailOperation.Faithful) {p : Nat} {id : String}
    {call : Claimed} (hp : s.phase p = .claimed id call)
    {credentials : Result (MailAccountConfig × String)} {clock : DateTime} {request : Request}
    {program : Remote AdapterResult}
    (hinv : invocation env libs id credentials clock call = .ok (request, program)) :
    .created id request ∈ s.history := by
  obtain ⟨r, hr, rfl, hcall⟩ := hI.call p id call hp
  obtain ⟨q, hq, hst⟩ := hI.rowCreated r hr
  suffices hqr : q = request from hqr ▸ hq
  have kinds : ∀ k, mailOperationKindName k ≠ "send" := by intro k; cases k <;> decide
  cases call with
  | plan plan =>
      simp only [invocation, bind_ok, pure_ok, Prod.mk.injEq] at hinv
      obtain ⟨-, -, rfl, -⟩ := hinv
      cases q with
      | send q => exact congrArg _ (Option.some.inj ((hsend _ _ hst.2).symm.trans hcall.2))
      | mail q => exact absurd (hst.1.symm.trans hcall.1) (kinds _)
  | record record =>
      simp only [invocation, claimedOperation, bind_ok, pure_ok, ensure_ok, orRefuse_ok,
        Prod.mk.injEq] at hinv
      obtain ⟨op, ⟨op', hd, _, ⟨hk, -⟩, rfl⟩, -, -, rfl, -⟩ := hinv
      cases q with
      | send q => exact absurd (hk.symm.trans (hcall.1.trans hst.1)) (kinds _)
      | mail q =>
          rw [hcall.2] at hd
          exact congrArg _ (Option.some.inj ((hmail _ _ hst.2.2).symm.trans hd))

theorem ClaimInv.invoke {s : System} (hI : ClaimInv env s) {p : Nat} {id : String}
    {call : Claimed} (hp : s.phase p = .claimed id call) {request : Request}
    {program : Remote AdapterResult} :
    ClaimInv env
      ({ s with history := .invoked id request :: s.history }.goto p (.running id program)) := by
  have hold : (s.phase p).holds = some id := by rw [hp]; rfl
  have hnone : invocations id s.history = 0 := hI.fresh p id (by rw [hp]; rfl)
  obtain ⟨r, hr, hrid, hrs⟩ := hI.held p id hold
  have happ : .approved id ∈ s.history := hrid ▸ hI.approved r hr (.inr (unfinished_claimed hrs))
  have holds : ∀ q, (({ s with history := .invoked id request :: s.history }.goto p
      (.running id program)).phase q).holds = (s.phase q).holds := by
    intro q
    by_cases hqp : q = p
    · subst hqp; rw [goto_self, hold]; rfl
    · rw [goto_other _ _ hqp]
  refine ⟨hI.ids, fun r hr => ?_, fun id' q hq => ?_, fun r hr hs => .tail _ (hI.approved r hr hs),
    fun id' hi => ?_, fun id' => ?_, ⟨happ, hI.ordered⟩,
    fun q id' hq => hI.held q id' (holds q ▸ hq),
    fun q q' id' hq hq' => hI.unique q q' id' (holds q ▸ hq) (holds q' ▸ hq'), fun q id' hq => ?_,
    fun q id' c hq => ?_⟩
  · obtain ⟨q, hq, h⟩ := hI.rowCreated r hr
    exact ⟨q, .tail _ hq, h⟩
  · rcases List.mem_cons.mp hq with h | hq
    · cases h
    · exact hI.createdRow id' q hq
  · by_cases hid : id = id'
    · subst hid
      exact ⟨r, hr, hrid, unfinished_claimed hrs⟩
    · exact hI.invoked id' (by simpa [invocations, hid] using hi)
  · simp only [goto_history, invocations]
    split
    · rename_i hid
      subst hid
      omega
    · exact hI.once id'
  · by_cases hqp : q = p
    · subst hqp; rw [goto_self] at hq; cases hq
    · rw [goto_other _ _ hqp] at hq
      -- another process cannot hold the operation this one has claimed
      have hne : id ≠ id' := by
        rintro rfl
        exact hqp (hI.unique q p id (uninvoked_holds hq) hold)
      simpa [invocations, hne] using hI.fresh q id' hq
  · by_cases hqp : q = p
    · subst hqp; rw [goto_self] at hq; cases hq
    · rw [goto_other _ _ hqp] at hq
      exact hI.call q id' c hq

theorem ClaimInv.finish {s : System} (hI : ClaimInv env s) {l : Ledger} {p : Nat} {id : String}
    {status : OperationStatus} {json : Option String} (hp : (s.phase p).holds = some id)
    (hst : status.claimed) (hl : Evolves (Finishes id status json) s.ledger l) :
    ClaimInv env ({ s with ledger := l }.goto p .idle) := by
  obtain ⟨hids, hrc, hcr, hcall⟩ := hI.rows hl fun _ _ h => h.same
  have other : ∀ q id', (({ s with ledger := l }.goto p .idle).phase q).holds = some id' →
      q ≠ p ∧ id' ≠ id ∧ (s.phase q).holds = some id' := by
    intro q id' hq
    have hqp : q ≠ p := by rintro rfl; rw [goto_self] at hq; cases hq
    rw [goto_other _ _ hqp] at hq
    exact ⟨hqp, fun he => hqp (hI.unique q p id (he ▸ hq) hp), hq⟩
  refine ⟨hids, hrc, hcr, fun x' hx' hs => ?_, fun id' hi => ?_, hI.once, hI.ordered,
    fun q id' hq => ?_, fun q q' id' hq hq' => ?_, fun q id' hq => ?_, fun q id' c hq => ?_⟩
  · obtain ⟨x, hx, h⟩ := hl.old hx'
    rw [h.same.id]
    unfold Finishes at h
    split at h
    · exact hI.approved x hx (.inr (by rw [h.1]; rfl))
    · exact hI.approved x hx (h ▸ hs)
  · obtain ⟨x, hx, hid, hc⟩ := hI.invoked id' hi
    obtain ⟨x', hx', h⟩ := hl.new hx
    refine ⟨x', hx', h.same.id.trans hid, ?_⟩
    unfold Finishes at h
    split at h
    · rw [h.2.2.2]; exact hst
    · rw [h]; exact hc
  · obtain ⟨-, hne, hq⟩ := other q id' hq
    obtain ⟨x, hx, hid, hc⟩ := hI.held q id' hq
    obtain ⟨x', hx', h⟩ := hl.new hx
    unfold Finishes at h
    rw [if_neg (by rw [hid]; exact hne)] at h
    subst h
    exact ⟨x', hx', hid, hc⟩
  · exact hI.unique q q' id' (other q id' hq).2.2 (other q' id' hq').2.2
  · obtain ⟨hqp, -⟩ := other q id' (uninvoked_holds hq)
    rw [goto_other _ _ hqp] at hq
    exact hI.fresh q id' hq
  · have hqp : q ≠ p := by rintro rfl; rw [goto_self] at hq; cases hq
    rw [goto_other _ _ hqp] at hq
    exact hcall q id' c hq

theorem Verdict.claimed {ph : Phase} {status : OperationStatus} {json : Option String}
    (h : Verdict env ph status json) : status.claimed := by
  unfold Verdict at h
  split at h
  · rw [h.1]; rfl
  · rw [h.1]; rfl
  · rw [h.1]; rfl
  · rw [h.1]; split <;> rfl
  · rw [h.1]; split <;> rfl
  · cases h

/-! ## 4. Every run -/

/-- **Every move keeps the invariant.** -/
theorem claimInv_move {s s' : System} (hI : ClaimInv env s) (h : Move env libs s s') : ClaimInv env s' := by
  cases h with
  | read l ph hl hph => exact hI.read hl hph
  | create l row request hl hfresh hplanned hst => exact hI.create hl hfresh hplanned hst
  | approve l r hr hs hl => exact hI.approve hr hs hl
  | claim l p ph r hr hs hl hp hph => exact hI.claim hr hs hl hph
  | invoke p id call hp credentials clock request program hinv => exact hI.invoke hp
  | refuse p id call hp error =>
      refine hI.keep (by rw [hp]; rfl) (fun id' h => ?_) (by simp) (fun _ h => h) (fun _ _ h => h)
        (fun _ => rfl) hI.ordered
      rw [hp]; exact h
  | issue p id c k hp | reply p id c k hp r | ret p id result hp =>
      exact hI.keep (by rw [hp]; rfl) (by simp [Phase.uninvoked]) (by simp) (fun _ => .tail _)
        (by simp) (fun _ => rfl) hI.ordered
  | finish l p id status json hp hv hl => exact hI.finish hp hv.claimed hl

theorem claimInv_initial : ClaimInv env System.initial := by
  constructor <;> simp [System.initial, Ledger.empty, Phase.holds, Phase.uninvoked, invocations,
    Ordered, Preceded]

/-- **The invariant holds in every state any interleaving reaches.** -/
theorem claimInv_reachable {s : System} (h : Reachable env libs s) : ClaimInv env s := by
  refine h.invariant (fun _ hs => ?_) fun _ _ hI hs => claimInv_move hI (step_move hI.ids hs)
  rw [hs]
  exact claimInv_initial

/-- **Every invocation in a run receives the request stored at the creation of its id.** -/
theorem requested_reachable (hsend : env.sendRequest.Faithful)
    (hmail : env.mailOperation.Faithful) {s : System} (h : Reachable env libs s) :
    ClaimInv env s ∧ Requested s.history := by
  refine h.invariant (P := fun s => ClaimInv env s ∧ Requested s.history)
    (fun _ hs => by rw [hs]; exact ⟨claimInv_initial, trivial⟩) fun s s' ⟨hI, hreq⟩ hs => ?_
  have hm := step_move hI.ids hs
  refine ⟨claimInv_move hI hm, ?_⟩
  cases hm with
  | invoke p id call hp credentials clock request program hinv =>
      exact ⟨hI.invoked_request hsend hmail hp hinv, hreq⟩
  | _ => exact hreq

theorem Preceded.split {P : String → Request → List Entry → Prop} {id : String}
    {request : Request} {later earlier : List Entry}
    (h : Preceded P (later ++ .invoked id request :: earlier)) : P id request earlier := by
  induction later with
  | nil => exact h.1
  | cons e later ih =>
      cases e with
      | invoked id' request' => exact ih h.2
      | _ => exact ih h

/-- **At-most-once remote effect.**  In every interleaving the adapter is invoked at most once for
    an operation id, only after a committed approval of that id, and with the request whose JSON
    the row of the id stores, the only one the id was ever created with. -/
theorem remote_effect_at_most_once (hsend : env.sendRequest.Faithful)
    (hmail : env.mailOperation.Faithful) {s : System} (h : Reachable env libs s) (id : String) :
    invocations id s.history ≤ 1 ∧
    ∀ later earlier request, s.history = later ++ .invoked id request :: earlier →
      .approved id ∈ earlier ∧ .created id request ∈ earlier ∧
        (∃ r ∈ s.ledger.operations, r.id = id ∧ Stores env r request) ∧
        ∀ request', .created id request' ∈ s.history → request' = request := by
  obtain ⟨hI, hreq⟩ := requested_reachable hsend hmail h
  refine ⟨hI.once id, fun later earlier request hh => ?_⟩
  have hord := hI.ordered
  rw [hh] at hord hreq
  have hcr : .created id request ∈ earlier := hreq.split
  obtain ⟨r, hr, hid, hst⟩ := hI.createdRow id request
    (by rw [hh]; exact List.mem_append_right _ (.tail _ hcr))
  refine ⟨hord.split, hcr, ⟨r, hr, hid, hst⟩, fun request' hcr' => ?_⟩
  obtain ⟨r', hr', hid', hst'⟩ := hI.createdRow id request' hcr'
  obtain rfl := eq_of_key_eq hI.ids hr hr' (hid.trans hid'.symm)
  exact hst'.unique hsend hmail hst

end Claims

/-! ## 5. A run

Process 0 plans and approves that one message is marked read, process 1 applies it; the
functions of `env` are the real ones at the texts this run needs. -/

namespace Sample

def operationId : String := "5f0c1a52-6d6c-4c53-9a3e-0f6c6a1b2c3d"

def request : MailboxOperationRequest where
  accountId := "personal"
  kind := .setRead
  reference := ⟨"personal", "INBOX", some 7, 3⟩
  value := some true
  destination := none

def requestJson : String :=
  "\x7b\"account_id\":\"personal\",\"kind\":\"set_read\",\"reference\":\x7b\"account_id\":\"personal\"," ++
  "\"mailbox\":\"INBOX\",\"uid_validity\":7,\"uid\":3\x7d,\"value\":true,\"destination\":null\x7d"

def staleJson : String :=
  "\x7b\"code\":\"send_plan_state\",\"message\":\"previous remote operation ended without a final " ++
  "result\",\"retryable\":false\x7d"

def receipt : MailboxOperationReceipt where
  operationId := operationId
  kind := .setRead
  accountId := "personal"
  reference := request.reference
  destination := none
  changed := true
  appliedAt := 0
  untrusted := true

def receiptJson : String :=
  "\x7b\"operation_id\":\"5f0c1a52-6d6c-4c53-9a3e-0f6c6a1b2c3d\",\"kind\":\"set_read\"," ++
  "\"account_id\":\"personal\",\"reference\":\x7b\"account_id\":\"personal\",\"mailbox\":\"INBOX\"," ++
  "\"uid_validity\":7,\"uid\":3\x7d,\"destination\":null,\"changed\":true," ++
  "\"applied_at\":\"1970-01-01T00:00:00Z\",\"untrusted\":true\x7d"

/-- An encoding that knows one value and its text. -/
def oneJson {α : Type} [DecidableEq α] (a : α) (text : String) : Json α where
  encode x := if x = a then some text else none
  decode s := if s = text then some a else none

theorem oneJson_faithful {α : Type} [DecidableEq α] (a : α) (text : String) :
    (oneJson a text).Faithful := by
  intro x s h
  simp only [oneJson] at h ⊢
  split at h
  · rename_i hx
    obtain rfl := Option.some.inj h
    simp [hx]
  · cases h

def noJson {α : Type} : Json α := ⟨fun _ => none, fun _ => none⟩

def epoch : String := "1970-01-01T00:00:00.000000Z"

def nextDay : String := "1970-01-02T00:00:00.000000Z"

def env : External where
  payloadDigest _ := "1100c563b5eb5c430654ace75ca220459e0d17436065c9b66ed6688de640ab3c"
  bytesDigest _ := ""
  timestamp t := if t = 0 then epoch else if t = DateTime.hours 24 then nextDay
    else "1969-12-31T23:45:00.000000Z"
  parseTimestamp s := if s = epoch then some 0 else if s = nextDay then some (DateTime.hours 24)
    else none
  parseUuid s := s = operationId
  sendRequest := noJson
  mailOperation := oneJson request requestJson
  mailError := oneJson staleError staleJson
  sendReceipt := noJson
  mailReceipt := oneJson receipt receiptJson
  base64 _ := none
  utf8 _ := none
  parseIpAddr _ := false

def libs : MailLibraries where
  parseIpv6 _ := false
  parseUrl _ := true
  clientId := .ok ()
  parseMailbox _ := true
  sequenceSet _ := true
  parseAddress _ := true
  contentType _ := true
  assemble _ := true
  relay _ _ := .ok ()

def account : MailAccountConfig where
  id := "personal"
  email := "agent@example.com"
  username := "agent@example.com"
  incoming := ⟨.imap, "imap.example.com", 993, .implicitTls⟩
  outgoing := none
  credentialKind := .appPassword

set_option maxRecDepth 8000 in
/-- The whole call, from planning to the recorded receipt. -/
theorem succeeded_run : ∃ s, Reachable env libs s ∧ invocations operationId s.history = 1 ∧
    ∃ r ∈ s.ledger.operations, r.status = .succeeded ∧ r.receiptJson = some receiptJson := by
  have h₀ : Reachable env libs System.initial := .start rfl
  have h₁ := h₀.next (.planMail _ 0 rfl (.ok none) request 0 operationId rfl)
  have h₂ := h₁.next (.approveOperation _ 0 rfl operationId 0 rfl)
  have h₃ := h₂.next (.readMail _ 1 rfl operationId 0 rfl)
  have h₄ := h₃.next (.claimMail _ 1 operationId rfl 0 rfl)
  have h₅ := h₄.next (.invoke _ 1 operationId _ rfl (.ok (account, "secret")) 0 rfl)
  have h₆ := h₅.next (.issue _ 1 operationId (.connect account "secret") _ rfl)
  have h₇ := h₆.next (.reply _ 1 operationId (.connect account "secret") _ rfl (Except.ok []))
  have h₈ := h₇.next (.issue _ 1 operationId (.select "INBOX") _ rfl)
  have h₉ := h₈.next (.reply _ 1 operationId (.select "INBOX") _ rfl (Except.ok (some 7)))
  have h₁₀ := h₉.next (.issue _ 1 operationId (.uidStore 3 true .seen) _ rfl)
  have h₁₁ := h₁₀.next (.reply _ 1 operationId (.uidStore 3 true .seen) _ rfl (Except.ok ()))
  have h₁₂ := h₁₁.next (.ret _ 1 operationId _ rfl)
  have h₁₃ := h₁₂.next (.finish _ 1 operationId _ rfl 0)
  exact ⟨_, h₁₃, rfl, _, .head _, rfl, rfl⟩

end Sample

/-- The theorem on the run: the adapter was invoked, once, with the planned request. -/
theorem remote_effect_sample_run : ∃ s, Reachable Sample.env Sample.libs s ∧
    invocations Sample.operationId s.history = 1 ∧
    ∀ later earlier request, s.history = later ++ .invoked Sample.operationId request :: earlier →
      .approved Sample.operationId ∈ earlier ∧ .created Sample.operationId request ∈ earlier := by
  obtain ⟨s, hs, hone, -⟩ := Sample.succeeded_run
  have hsend : Sample.env.sendRequest.Faithful := fun _ _ h => by cases h
  have hmail : Sample.env.mailOperation.Faithful := Sample.oneJson_faithful _ _
  obtain ⟨-, h⟩ := remote_effect_at_most_once hsend hmail hs Sample.operationId
  exact ⟨s, hs, hone, fun later earlier request hh => ⟨(h _ _ _ hh).1, (h _ _ _ hh).2.1⟩⟩

end Kirje
