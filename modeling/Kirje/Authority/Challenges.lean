import Kirje.Authority.Atomicity
import Kirje.Authority.Lifecycles

/-
  File:      Kirje/Authority/Challenges.lean
  Subject:   The clock, a new challenge, a proof and the two expiries keep acceptance.
-/

namespace Kirje.Authority

open Base

variable {env : Platform} {codec : ManifestCodec} {s : Snapshot} {db : Db}

/-! ## 1. What the event of a challenge must say -/

theorem challengeEventSpec_created {c : Challenge} {row : Event} {last : Int}
    (hc : row.eventCode = 3) :
    challengeEventSpec env codec db last c row = some (challengeCreatedEvent c c.issuedAt) := by
  simp [challengeEventSpec, hc]

theorem challengeEventSpec_authorized {c : Challenge} {r : Receipt} {row : Event} {last : Int}
    (hc : row.eventCode = 4) (hr : loadReceiptForChallenge db c.challengeId = some r) :
    challengeEventSpec env codec db last c row =
      some (challengeAuthorizedEvent c r r.verifiedAt) := by
  simp [challengeEventSpec, hc, hr]

theorem challengeEventSpec_expired {c : Challenge} {row : Event} {last : Int}
    (hc : row.eventCode = 5) (hr : loadReceiptForChallenge db c.challengeId = none)
    (ht : c.expiresAt < row.occurredAt ∧ row.occurredAt ≤ last) :
    challengeEventSpec env codec db last c row = some (challengeExpiredEvent c row.occurredAt) := by
  simp [challengeEventSpec, hc, hr, ht]

theorem challengeEventSpec_receiptExpired {c : Challenge} {r : Receipt} {m : ActionManifest}
    {intent : Digest} {row : Event} {last : Int} (hc : row.eventCode = 5)
    (hr : loadReceiptForChallenge db c.challengeId = some r)
    (hm : manifestOf env codec c = some m) (hi : expiryIntent env c r m = some intent)
    (ht : c.expiresAt < row.occurredAt ∧ row.occurredAt ≤ last) :
    challengeEventSpec env codec db last c row =
      some (receiptExpiredEvent c r intent row.occurredAt) := by
  simp [challengeEventSpec, hc, hr, ht, hm, hi]

/-! ## 2. The clock -/

/-- **The clock alone keeps acceptance.** -/
theorem Accepted.clocked (h : Accepted env codec s db) {at' : Int} (ht : TimeOk db at')
    (hs : SchemaOk (db.clocked at')) : Accepted env codec s (db.clocked at') := by
  have he : ChallengeEffect db db.challenges db.receipts db.nonces at' :=
    ⟨ht.monotone, fun c hc => ⟨c, hc, Challenge.Continues.refl c⟩, fun c hc _ => hc,
      List.Subset.refl _, fun r hr => Or.inl hr, List.Subset.refl _⟩
  have hs' : SchemaOk (challengeEffect env db db.challenges db.receipts db.nonces at' []) := hs
  have f := he.frame h.schema hs' (by simp)
  refine he.accepted h hs' (by simp) h.history.nonces (fun c hc => ?_) (by simp [eventRows]) ?_
  · have hok := h.history.challenges c hc
    exact f.challengeOk h hc (Challenge.Continues.refl c) hok.state.1
      (f.challengeReceipt hc (fun _ hm _ => hm) (fun _ hm _ => hm) hok.receipt)
  · exact f.lifecyclesStay h rfl (by simp [eventRows])

/-! ## 3. Expiry -/

/-- A pending challenge has no grant. -/
theorem Accepted.pending_free (h : Accepted env codec s db) {c : Challenge}
    (hc : c ∈ db.challenges) (hst : c.state = .pending) : ∀ g ∈ db.grants, g.grantId ≠ c.grantId := by
  intro g hg hid
  have := h.granted_authorized hc hg hid
  rw [hst] at this
  cases this

/-- **A pending challenge that expires keeps acceptance.** -/
theorem Accepted.pendingExpired (h : Accepted env codec s db) {c : Challenge}
    (hc : c ∈ db.challenges) (hst : c.state = .pending) {at' : Int} (ht : TimeOk db at')
    (hexp : c.expiresAt < at') (hs : SchemaOk (pendingExpired env db c at')) :
    Accepted env codec s (Authority.pendingExpired env db c at') := by
  have he := moved_effect h hc (h.pending_free hc hst) ht .expired (List.Subset.refl _)
    (fun r hr => Or.inl hr) (List.Subset.refl db.nonces)
  have heq : Authority.pendingExpired env db c at' = challengeEffect env db
      (db.challengeMoved c.challengeId c.state .expired).challenges db.receipts db.nonces at'
      [challengeExpiredEvent c at'] := by
    rw [hst]
    rfl
  rw [heq] at hs ⊢
  have f := he.frame h.schema hs (by simp [challengeExpiredEvent])
  have hnone : loadReceiptForChallenge db c.challengeId = none ∧
      loadNonceUse db c.challengeId = none := by
    rcases challengeReceipt_iff.mp (h.history.challenges c hc).receipt with
      ⟨-, hr, hn⟩ | ⟨_, _, _, _, _, ha | ⟨ha, -⟩⟩
    · exact ⟨hr, hn⟩
    · rw [hst] at ha
      cases ha
    · rw [hst] at ha
      cases ha
  refine he.accepted h hs (by simp [challengeExpiredEvent]) h.history.nonces ?_ ?_ ?_
  · intro x hx
    rcases (mem_moved h.tables hc).mp hx with ⟨hx, -⟩ | rfl
    · have hok := h.history.challenges x hx
      exact f.challengeOk h hx (Challenge.Continues.refl x) hok.state.1
        (f.challengeReceipt hx (fun _ hm _ => hm) (fun _ hm _ => hm) hok.receipt)
    · exact f.challengeOk h hc ⟨_, rfl⟩ (by simp)
        (challengeReceipt_iff.mpr (Or.inl ⟨Or.inr rfl, hnone.1, hnone.2⟩))
  · intro e hm
    simp only [eventRows, List.mem_singleton] at hm
    subst hm
    refine ⟨c.challengeId, Digest.ofBytes?_bytes _, { c with state := .expired }, ?_, ?_⟩
    · exact (loadChallenge_iff hs.tables).mpr ⟨(mem_moved h.tables hc).mpr (Or.inr rfl), rfl⟩
    · exact ⟨challengeExpiredEvent c at', challengeEventSpec_expired rfl hnone.1 ⟨hexp, le_refl _⟩,
        rfl, fun hcode => absurd (show 5 = 3 from hcode) (by decide)⟩
  · obtain ⟨h3, h4, h5⟩ := h.pending_slots hc hst
    refine f.lifecycles_moved h hc ⟨rfl, rfl⟩ rfl ?_ (Or.inl hst)
    rw [Option.isSome_iff_exists]
    refine ⟨some (db.sequenceHighWater + 1), challengeEventGraph_some.mpr ⟨none,
      some (db.sequenceHighWater + 1), ?_, ?_, ?_, rfl, ?_⟩⟩
    · rw [f.slot_old _ (by simp [challengeExpiredEvent])]
      exact h3
    · rw [f.slot_old _ (by simp [challengeExpiredEvent])]
      exact h4
    · exact f.slot_new ⟨rfl, rfl⟩ _ h5
    · have hle := h.created_le hc
      intro n hn
      cases hn
      exact Nat.lt_succ_of_le hle

theorem ReceiptOk.continues {c : Challenge} {r : Receipt} {n : NonceUse}
    (h : ReceiptOk env s c r n) (state : ChallengeState) :
    ReceiptOk env s { c with state := state } r n :=
  ⟨h.verified_utc, h.expires_utc, h.proof, h.challenge, h.receipt, h.times, h.nonce, h.signature⟩

/-- **An authorized challenge that expires before its grant is used keeps acceptance.** -/
theorem Accepted.receiptExpired (h : Accepted env codec s db) {c : Challenge} {r : Receipt}
    {m : ActionManifest} {intent : Digest} (hc : c ∈ db.challenges) (hst : c.state = .authorized)
    (hfree : ∀ g ∈ db.grants, g.grantId ≠ c.grantId) (hr : r ∈ db.receipts)
    (hrc : r.challengeId = c.challengeId) (hm : manifestOf env codec c = some m)
    (hi : expiryIntent env c r m = some intent) {at' : Int} (ht : TimeOk db at')
    (hexp : c.expiresAt < at') (hs : SchemaOk (receiptExpired env db c r intent at')) :
    Accepted env codec s (Authority.receiptExpired env db c r intent at') := by
  have he := moved_effect h hc hfree ht .expired (List.Subset.refl _) (fun r hr => Or.inl hr)
    (List.Subset.refl db.nonces)
  have heq : Authority.receiptExpired env db c r intent at' = challengeEffect env db
      (db.challengeMoved c.challengeId c.state .expired).challenges db.receipts db.nonces at'
      [receiptExpiredEvent c r intent at'] := by
    rw [hst]
    rfl
  rw [heq] at hs ⊢
  have f := he.frame h.schema hs (by simp [receiptExpiredEvent])
  have hload : loadReceiptForChallenge db c.challengeId = some r :=
    (loadReceiptForChallenge_iff h.tables).mpr ⟨hr, hrc⟩
  obtain ⟨n, hn, hrok⟩ : ∃ n, loadNonceUse db c.challengeId = some n ∧ ReceiptOk env s c r n := by
    rcases challengeReceipt_iff.mp (h.history.challenges c hc).receipt with
      ⟨-, hnone, -⟩ | ⟨r', n, hr', hn, hrok, -⟩
    · rw [hload] at hnone
      cases hnone
    · rw [hload] at hr'
      exact ⟨n, hn, Option.some.inj hr' ▸ hrok⟩
  -- a grant of this receipt would be a grant of this challenge
  have hunused : (db.grants.filter fun g => g.receiptId = r.receiptId) = [] := by
    refine List.filter_eq_nil_iff.mpr fun g hg hgr => ?_
    obtain ⟨r', hr', hgid, hrid⟩ := h.schema.foreignKeys.authorization.grant_receipt g hg
    have hrr : r' = r := eq_of_key_eq h.tables.receipts.id_unique hr' hr
      (hrid.trans (of_decide_eq_true hgr))
    exact hfree g hg (hgid.symm.trans (hrr ▸ hrok.challenge.2.1))
  refine he.accepted h hs (by simp [receiptExpiredEvent]) h.history.nonces ?_ ?_ ?_
  · intro x hx
    rcases (mem_moved h.tables hc).mp hx with ⟨hx, -⟩ | rfl
    · have hok := h.history.challenges x hx
      exact f.challengeOk h hx (Challenge.Continues.refl x) hok.state.1
        (f.challengeReceipt hx (fun _ hm _ => hm) (fun _ hm _ => hm) hok.receipt)
    · exact f.challengeOk h hc ⟨_, rfl⟩ (by simp) (challengeReceipt_iff.mpr
        (Or.inr ⟨r, n, hload, hn, hrok.continues _, Or.inr ⟨rfl, hunused⟩⟩))
  · intro e hm'
    simp only [eventRows, List.mem_singleton] at hm'
    subst hm'
    refine ⟨c.challengeId, Digest.ofBytes?_bytes _, { c with state := .expired }, ?_, ?_⟩
    · exact (loadChallenge_iff hs.tables).mpr ⟨(mem_moved h.tables hc).mpr (Or.inr rfl), rfl⟩
    · exact ⟨receiptExpiredEvent c r intent at',
        challengeEventSpec_receiptExpired rfl hload hm hi ⟨hexp, le_refl _⟩, rfl,
        fun hcode => absurd (show 5 = 3 from hcode) (by decide)⟩
  · obtain ⟨a, h3, h4, h5, hlt, hle, hg⟩ := h.authorized_slots hc hst
    have hgraph : challengeEventGraph (challengeEffect env db
        (db.challengeMoved c.challengeId c.state .expired).challenges db.receipts db.nonces at'
        [receiptExpiredEvent c r intent at']) { c with state := .expired } = some (some a) := by
      refine challengeEventGraph_some.mpr ⟨some a, some (db.sequenceHighWater + 1), ?_, ?_, ?_, ?_, ?_⟩
      · rw [f.slot_old _ (by simp [receiptExpiredEvent])]
        exact h3
      · rw [f.slot_old _ (by simp [receiptExpiredEvent])]
        exact h4
      · exact f.slot_new ⟨rfl, rfl⟩ _ h5
      · show (if a < db.sequenceHighWater + 1 then some (some a) else none) = some (some a)
        rw [if_pos (by omega)]
      · intro n' hn'
        cases hn'
        exact hlt
    refine f.lifecycles_moved h hc ⟨rfl, rfl⟩ rfl (by rw [hgraph]; rfl)
      (Or.inr ⟨rfl, hgraph.trans hg.symm⟩)

/-! ## 4. Proofs -/

/-- **A proof keeps acceptance.** -/
theorem Accepted.challengeProved (h : Accepted env codec s db) {c : Challenge} {r : Receipt}
    (hc : c ∈ db.challenges) (hst : c.state = .pending) {at' : Int} (ht : TimeOk db at')
    (hrc : r.challengeId = c.challengeId) (hrat : r.verifiedAt = at')
    (hrok : ReceiptOk env s c r ⟨c.nonce, c.challengeId, r.receiptId, at'⟩)
    (hs : SchemaOk (challengeProved env db c r at')) :
    Accepted env codec s (Authority.challengeProved env db c r at') := by
  have he := moved_effect h hc (h.pending_free hc hst) ht .authorized
    (List.subset_append_left db.receipts [r]) (fun x hx => by
      rcases List.mem_append.mp hx with hx | hx
      · exact Or.inl hx
      · exact Or.inr ⟨c, hc, by rw [List.mem_singleton.mp hx, hrc], hst⟩)
    (List.subset_append_left db.nonces [NonceUse.mk c.nonce c.challengeId r.receiptId at'])
  have heq : Authority.challengeProved env db c r at' = challengeEffect env db
      (db.challengeMoved c.challengeId c.state .authorized).challenges (db.receipts ++ [r])
      (db.nonces ++ [NonceUse.mk c.nonce c.challengeId r.receiptId at']) at'
      [challengeAuthorizedEvent c r at'] := by
    rw [hst]
    rfl
  rw [heq] at hs ⊢
  have f := he.frame h.schema hs (by simp [challengeAuthorizedEvent])
  have hload : loadReceiptForChallenge (challengeEffect env db
      (db.challengeMoved c.challengeId c.state .authorized).challenges (db.receipts ++ [r])
      (db.nonces ++ [NonceUse.mk c.nonce c.challengeId r.receiptId at']) at'
      [challengeAuthorizedEvent c r at']) c.challengeId = some r :=
    (loadReceiptForChallenge_iff hs.tables).mpr
      ⟨List.mem_append_right db.receipts (List.mem_singleton_self r), hrc⟩
  have hnonce : loadNonceUse (challengeEffect env db
      (db.challengeMoved c.challengeId c.state .authorized).challenges (db.receipts ++ [r])
      (db.nonces ++ [NonceUse.mk c.nonce c.challengeId r.receiptId at']) at'
      [challengeAuthorizedEvent c r at']) c.challengeId =
        some ⟨c.nonce, c.challengeId, r.receiptId, at'⟩ :=
    (loadNonceUse_iff hs.tables).mpr
      ⟨List.mem_append_right db.nonces (List.mem_singleton_self _), rfl⟩
  refine he.accepted h hs (by simp [challengeAuthorizedEvent]) (by simp [h.history.nonces]) ?_ ?_ ?_
  · intro x hx
    rcases (mem_moved h.tables hc).mp hx with ⟨hx, hne⟩ | rfl
    · have hok := h.history.challenges x hx
      refine f.challengeOk h hx (Challenge.Continues.refl x) hok.state.1
        (f.challengeReceipt hx (fun y hy hyx => ?_) (fun y hy hyx => ?_) hok.receipt)
      · rcases List.mem_append.mp (show y ∈ db.receipts ++ [r] from hy) with hy | hy
        · exact hy
        · rw [List.mem_singleton.mp hy, hrc] at hyx
          exact absurd hyx.symm hne
      · rcases List.mem_append.mp (show y ∈ db.nonces ++ [_] from hy) with hy | hy
        · exact hy
        · rw [List.mem_singleton.mp hy] at hyx
          exact absurd hyx.symm hne
    · exact f.challengeOk h hc ⟨_, rfl⟩ (by simp) (challengeReceipt_iff.mpr
        (Or.inr ⟨r, _, hload, hnonce, hrok.continues _, Or.inl rfl⟩))
  · intro e hm
    simp only [eventRows, List.mem_singleton] at hm
    subst hm
    refine ⟨c.challengeId, Digest.ofBytes?_bytes _, { c with state := .authorized }, ?_, ?_⟩
    · exact (loadChallenge_iff hs.tables).mpr ⟨(mem_moved h.tables hc).mpr (Or.inr rfl), rfl⟩
    · refine ⟨_, challengeEventSpec_authorized rfl hload, ?_,
        fun hcode => absurd (show 4 = 3 from hcode) (by decide)⟩
      rw [hrat]
      rfl
  · obtain ⟨h3, h4, h5⟩ := h.pending_slots hc hst
    refine f.lifecycles_moved h hc ⟨rfl, rfl⟩ rfl ?_ (Or.inl hst)
    rw [Option.isSome_iff_exists]
    refine ⟨some (db.sequenceHighWater + 1), challengeEventGraph_some.mpr
      ⟨some (db.sequenceHighWater + 1), none, ?_, ?_, ?_, rfl, ?_⟩⟩
    · rw [f.slot_old _ (by simp [challengeAuthorizedEvent])]
      exact h3
    · exact f.slot_new ⟨rfl, rfl⟩ _ h4
    · rw [f.slot_old _ (by simp [challengeAuthorizedEvent])]
      exact h5
    · have hle := h.created_le hc
      intro n hn
      cases hn
      exact Nat.lt_succ_of_le hle

/-! ## 5. New challenges -/

/-- What a new challenge brings. -/
structure Issued (env : Platform) (codec : ManifestCodec) (s : Snapshot) (db : Db) (c : Challenge)
    (at' : Int) : Prop where
  pending : c.state = .pending ∧ c.invalidatedAt = none
  utc : Representable c.issuedAt ∧ Representable c.expiresAt
  issued_at : c.issuedAt = at'
  lifetime : 0 ≤ c.issuedAt ∧ c.issuedAt < c.expiresAt ∧ c.expiresAt - c.issuedAt ≤ 900000
  supported : supportedChallengeAction c.action
  signed : ∃ m p, ChallengeChain env codec db s c m p

/-- The challenge that was issued, linked to its event. -/
def linked (db : Db) (c : Challenge) : Challenge :=
  { c with createdEventSequence := db.sequenceHighWater + 1 }

theorem challengeCreated_eq (c : Challenge) (at' : Int) :
    challengeCreated env db c at' = challengeEffect env db (db.challenges ++ [linked db c])
      db.receipts db.nonces at' [challengeCreatedEvent c at'] := rfl

theorem created_effect {c : Challenge} {at' : Int} (ht : TimeOk db at') :
    ChallengeEffect db (db.challenges ++ [linked db c]) db.receipts db.nonces at' :=
  ⟨ht.monotone, fun x hx => ⟨x, List.mem_append_left _ hx, Challenge.Continues.refl x⟩,
    fun _ hx _ => List.mem_append_left _ hx, List.Subset.refl _, fun _ hr => Or.inl hr,
    List.Subset.refl _⟩

/-- A new challenge has an identifier and, as it is pending, a context of its own. -/
theorem created_fresh {c : Challenge} {at' : Int} (hc : c.state = .pending)
    (hs : SchemaOk (challengeCreated env db c at')) {x : Challenge} (hx : x ∈ db.challenges) :
    x.challengeId ≠ c.challengeId ∧
      (x.state = .pending → x.contextSha256 ≠ c.contextSha256) := by
  have hrows : (challengeCreated env db c at').challenges = db.challenges ++ [linked db c] := rfl
  have hid := hs.tables.challenges.id_unique
  have hone := hs.tables.challenges.one_pending
  rw [hrows, List.map_append, List.nodup_append] at hid
  rw [hrows, List.filter_append, List.map_append, List.nodup_append] at hone
  constructor
  · exact hid.2.2 _ (List.mem_map_of_mem hx) _ (by simp [linked])
  · intro hp
    refine hone.2.2 _ (List.mem_map_of_mem (List.mem_filter.mpr ⟨hx, by simpa using hp⟩)) _ ?_
    exact List.mem_map.mpr ⟨linked db c, List.mem_filter.mpr ⟨by simp, by simp [linked, hc]⟩, rfl⟩

/-- **The order of the challenges of a context takes one more at its end.** -/
theorem lifecycles_created (h : Accepted env codec s db) {c : Challenge} {at' : Int}
    (hc : c.state = .pending) (ht : TimeOk db at')
    (hs : SchemaOk (challengeCreated env db c at')) :
    ∀ x ∈ db.challenges ++ [linked db c], LifecycleOk (challengeCreated env db c at') x := by
  have f : Frame db (challengeCreated env db c at')
      (eventRows env db.sequenceHighWater [challengeCreatedEvent c at']) := by
    rw [challengeCreated_eq] at hs ⊢
    exact (created_effect ht).frame h.schema hs (by simp [challengeCreatedEvent])
  have hspec : (challengeCreatedEvent c at').entityKind = 8 ∧
      (challengeCreatedEvent c at').entityId = c.challengeId.bytes := ⟨rfl, rfl⟩
  have hold : ∀ x ∈ db.challenges, challengeEventGraph (challengeCreated env db c at') x =
      challengeEventGraph db x := fun x hx => f.graph_other hspec (created_fresh hc hs hx).1
  intro x hx
  rcases List.mem_append.mp hx with hx | hx
  · -- the new challenge is after every other one
    have hlast : ¬(linked db c).Before x := by
      have hle := h.created_le hx
      simp only [Challenge.Before, linked, not_or, not_and]
      omega
    refine ⟨by rw [hold x hx]; exact (h.log.lifecycles x hx).1, fun p hp hprev => ?_⟩
    rcases List.mem_append.mp (show p ∈ db.challenges ++ [linked db c] from hp) with hp | hp
    · rw [hold p hp]
      refine (h.log.lifecycles x hx).2 p hp ⟨hprev.1, hprev.2.1, fun q hq => ?_⟩
      exact hprev.2.2 q (List.mem_append_left _ hq)
    · rw [List.mem_singleton.mp hp] at hprev
      exact absurd hprev.2.1 hlast
  · rw [List.mem_singleton.mp hx]
    -- no event of the new identifier was in the log
    have hnone : ∀ code, eventsOf db 8 c.challengeId.bytes code = [] := by
      intro code
      refine List.filter_eq_nil_iff.mpr fun e he hk => ?_
      obtain ⟨hk, hi, -⟩ := of_decide_eq_true hk
      exact h.no_challengeEvent (fun x hx => (created_fresh hc hs hx).1) e he ⟨hk, hi⟩
    have h3 : challengeSlot (challengeCreated env db c at') (linked db c) 3 =
        some (some (db.sequenceHighWater + 1)) :=
      f.slot_new (c := c) hspec c.state (challengeSlot_eq_none.mpr (hnone 3))
    have hother : ∀ code, code ≠ 3 → challengeSlot (challengeCreated env db c at') (linked db c)
        code = some none := by
      intro code hcode
      have hslot : challengeSlot (challengeCreated env db c at') (linked db c) code =
        challengeSlot db c code := f.slot_old (c := c) c.state hcode
      rw [hslot]
      exact challengeSlot_eq_none.mpr (hnone code)
    refine ⟨?_, fun p hp hprev => ?_⟩
    · rw [Option.isSome_iff_exists]
      refine ⟨none, challengeEventGraph_some.mpr ⟨none, none, h3, hother 4 (by decide),
        hother 5 (by decide), ?_, by simp⟩⟩
      show terminalSequence c.state none none = some none
      rw [hc]
      rfl
    · rcases List.mem_append.mp (show p ∈ db.challenges ++ [linked db c] from hp) with hp | hp
      · have hctx : p.contextSha256 = c.contextSha256 := hprev.1
        have hst : p.state = .authorized ∨ p.state = .expired := by
          cases hps : p.state with
          | pending => exact absurd hctx ((created_fresh hc hs hp).2 hps)
          | authorized => exact Or.inl rfl
          | expired => exact Or.inr rfl
          | invalidated => exact absurd hps (h.history.challenges p hp).state.1
        obtain ⟨n, hg, hle⟩ := h.terminal_le hp hst
        refine ⟨hst, n, ?_, Nat.lt_succ_of_le hle⟩
        rw [hold p hp, hg]
        rfl
      · rw [List.mem_singleton.mp hp] at hprev
        rcases hprev.2.1 with hlt | ⟨-, hlt⟩
        · exact absurd hlt (lt_irrefl _)
        · exact absurd hlt (List.lt_irrefl _)

/-- **A new challenge keeps acceptance.** -/
theorem Accepted.challengeCreated (h : Accepted env codec s db) {c : Challenge} {at' : Int}
    (hi : Issued env codec s db c at') (ht : TimeOk db at')
    (hs : SchemaOk (challengeCreated env db c at')) :
    Accepted env codec s (Authority.challengeCreated env db c at') := by
  have he := @created_effect db c at' ht
  have hlife := lifecycles_created h hi.pending.1 ht hs
  have hfresh := fun x hx => @created_fresh env db c at' hi.pending.1 hs x hx
  rw [challengeCreated_eq] at hs hlife ⊢
  have f := he.frame h.schema hs (by simp [challengeCreatedEvent])
  have hmem : linked db c ∈ db.challenges ++ [linked db c] := by simp
  refine he.accepted h hs (by simp [challengeCreatedEvent]) h.history.nonces ?_ ?_ hlife
  · intro x hx
    rcases List.mem_append.mp hx with hx | hx
    · have hok := h.history.challenges x hx
      exact f.challengeOk h hx (Challenge.Continues.refl x) hok.state.1
        (f.challengeReceipt hx (fun _ hm _ => hm) (fun _ hm _ => hm) hok.receipt)
    · rw [List.mem_singleton.mp hx]
      obtain ⟨m, p, hch⟩ := hi.signed
      have hsg := hch.signed
      refine ⟨hi.utc, ⟨by simp [linked, hi.pending.1], hi.pending.2⟩, hi.lifetime,
        le_of_eq hi.issued_at, hi.supported, ⟨m, hch.manifest, ⟨p, hch.payload, ?_⟩, fun ha => ?_⟩, ?_⟩
      · exact ⟨hsg.manifest, hsg.payload, hsg.realm, hsg.target, hsg.context, hsg.signer, hsg.times,
          hsg.effects, hsg.trust, hsg.context_sha, hsg.intrinsic⟩
      · rw [f.cleanupContext h (hch.cleanup ha)]
        rfl
      · refine challengeReceipt_iff.mpr (Or.inl ⟨Or.inl hi.pending.1, ?_, ?_⟩)
        · by_contra hne
          obtain ⟨r, hr⟩ := Option.ne_none_iff_exists'.mp hne
          rw [loadReceiptForChallenge_iff f.tables'] at hr
          obtain ⟨x, hx, hid, -⟩ := h.schema.foreignKeys.authorization.receipt_challenge r hr.1
          exact (hfresh x hx).1 (hid.trans hr.2)
        · by_contra hne
          obtain ⟨n, hn⟩ := Option.ne_none_iff_exists'.mp hne
          rw [loadNonceUse_iff f.tables'] at hn
          obtain ⟨x, hx, -, hid⟩ := h.schema.foreignKeys.authorization.nonce_challenge n hn.1
          exact (hfresh x hx).1 (hid.trans hn.2)
  · intro e hm
    simp only [eventRows, List.mem_singleton] at hm
    subst hm
    refine ⟨c.challengeId, Digest.ofBytes?_bytes _, linked db c, ?_, ?_⟩
    · exact (loadChallenge_iff hs.tables).mpr ⟨hmem, rfl⟩
    · refine ⟨_, challengeEventSpec_created rfl, ?_, fun _ => rfl⟩
      rw [show (linked db c).issuedAt = at' from hi.issued_at]
      rfl

end Kirje.Authority
