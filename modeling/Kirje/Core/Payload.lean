import Kirje.Core.Manifest

/-
  File:      Kirje/Core/Payload.lean
  Subject:   The transcript an owner key signs, and the proof that comes back
             (crates/kirje-core/src/authorization.rs).

  * `AuthorizationPayload.parse_new`: the transcript built for a control action
    reads back as itself.
  * `AuthorizationProof.parse_canonicalBytes`: so does a proof.
-/

namespace Kirje

open Base

/-! ## 1. Reading fixed-width fields -/

/-- The refusal of a field of the wrong width. -/
def wrongLength : MailError := malformed "transcript fixed-width field has the wrong length"

def parseUuid (bs : Bytes) : Result Uuid := orRefuse (Uuid.ofBytes? bs) wrongLength

def parseDigest (bs : Bytes) : Result Digest := orRefuse (Digest.ofBytes? bs) wrongLength

def parseOptional {α : Type} (parse : Bytes → Result α) (bs : Bytes) : Result (Option α) :=
  if bs = [] then pure none else some <$> parse bs

/-- A big-endian number of exactly `n` bytes. -/
def parseNat (n : Nat) (bs : Bytes) : Result Nat := do
  ensure (bs.length = n) wrongLength
  pure (ofBe bs)

def parseI64 (bs : Bytes) : Result Int := do
  ensure (bs.length = 8) wrongLength
  pure (ofBeI64 bs)

def parseNonzeroU64 (bs : Bytes) : Result NonZeroU64 := do
  let n ← parseNat 8 bs
  orRefuse (NonZeroU64.new? n) (malformed "positive u64 field cannot be zero")

/-- `parse_target`. -/
def parseTarget (kind : TargetKind) (bs : Bytes) : Result ManifestTarget :=
  match kind with
  | .operation => ManifestTarget.operation <$> parseUuid bs
  | .store => ManifestTarget.store <$> parseUuid bs
  | .account => ManifestTarget.account <$> parseUuid bs
  | .credential => ManifestTarget.credential <$> parseUuid bs
  | .cleanup => ManifestTarget.cleanup <$> parseUuid bs
  | .policy => do
      ensure (bs = []) (malformed "zero-length target contains bytes")
      pure .policy
  | .assurance => do
      ensure (bs = []) (malformed "zero-length target contains bytes")
      pure .assurance
  | .trustEpoch => ManifestTarget.trustEpoch <$> parseNonzeroU64 bs
  | .remoteEffect => ManifestTarget.remoteEffect <$> parseUuid bs

@[simp] theorem parseUuid_bytes (u : Uuid) : parseUuid u.bytes = .ok u := by simp [parseUuid]

@[simp] theorem parseDigest_bytes (d : Digest) : parseDigest d.bytes = .ok d := by
  simp [parseDigest]

@[simp] theorem parseOptional_uuid (u : Option Uuid) :
    parseOptional parseUuid (Uuid.optBytes u) = .ok u := by
  cases u with
  | none => simp [parseOptional, Uuid.optBytes]
  | some u =>
      have hne : u.bytes ≠ [] := by
        intro h
        simpa [h] using u.length_eq
      simp [parseOptional, Uuid.optBytes, hne]

@[simp] theorem parseOptional_digest (d : Option Digest) :
    parseOptional parseDigest (Digest.optBytes d) = .ok d := by
  cases d with
  | none => simp [parseOptional, Digest.optBytes]
  | some d =>
      have hne : d.bytes ≠ [] := by
        intro h
        simpa [h] using d.length_eq
      simp [parseOptional, Digest.optBytes, hne]

theorem parseNat_be {n v : Nat} (h : v < 256 ^ n) : parseNat n (be n v) = .ok v := by
  simp [parseNat, ofBe_be h]

theorem parseI64_beI64 {v : Int} (hl : -2 ^ 63 ≤ v) (hu : v < 2 ^ 63) :
    parseI64 (beI64 v) = .ok v := by
  simp [parseI64, ofBeI64_beI64 hl hu]

@[simp] theorem parseNonzeroU64_beBytes (n : NonZeroU64) :
    parseNonzeroU64 n.beBytes = .ok n := by
  have h : n.val < 256 ^ 8 := by
    have := n.lt
    omega
  have hn : NonZeroU64.new? n.val = some n := by
    rw [NonZeroU64.new?, dif_pos ⟨n.pos, n.lt⟩]
  simp [parseNonzeroU64, NonZeroU64.beBytes, parseNat_be h, hn]

@[simp] theorem parseTarget_bytes (t : ManifestTarget) : parseTarget t.kind t.bytes = .ok t := by
  cases t <;> simp [parseTarget, ManifestTarget.kind, ManifestTarget.bytes]

/-! ## 2. The transcript -/

/-- `AuthorizationContext`. -/
structure AuthorizationContext where
  ownerRealm : RealmId
  trustBundleSha256 : Digest
  signerKeyId : Digest
  trustEpoch : NonZeroU64
  grantId : GrantId
  nonce : Digest
  issuedAt : Int
  expiresAt : Int
  deriving DecidableEq, Repr

/-- What the transcript says. -/
structure AuthorizationFields where
  ownerRealm : RealmId
  action : SensitiveAction
  target : ManifestTarget
  storeId : Option StoreId
  accountId : Option AccountId
  manifestSha256 : Digest
  bindingSha256 : Option Digest
  policySha256 : Option Digest
  bundleSha256 : Digest
  signerKeyId : Digest
  trustEpoch : NonZeroU64
  grantId : GrantId
  nonce : Digest
  issuedAt : Int
  expiresAt : Int
  effects : List (RemoteEffectId × EffectKind)
  deriving DecidableEq, Repr

structure AuthorizationPayload where
  fields : AuthorizationFields
  canonicalBytes : Bytes
  challengeId : Digest
  deriving DecidableEq, Repr

/-- `encode_list` of the effects. -/
def encodeEffects (effects : List (RemoteEffectId × EffectKind)) : Result Bytes := do
  ensure (effects.length < 2 ^ 16) (limit "canonical list contains too many items")
  let encoded ← effects.mapM fun e =>
    encodeFields (ascii "KIRJE-EFFECT-V1\x00") [(1, e.1.bytes), (2, be 2 e.2.code)]
  pure (be 2 effects.length ++ items (encoded.mapIdx fun i e => (i, e)))

/-- `parse_authorization_effect`. -/
def parseAuthorizationEffect (bs : Bytes) : Result (RemoteEffectId × EffectKind) := do
  let fields ← parseFieldsAny bs (ascii "KIRJE-EFFECT-V1\x00")
  match fields with
  | [(1, id), (2, code)] => do
      let n ← parseNat 2 code
      let kind ← orRefuse (EffectKind.fromCode n) (malformed "unknown effect kind")
      ensure (kind ≠ .none) (malformed "authorization effect cannot be none")
      let id ← parseUuid id
      pure (id, kind)
  | _ => .error (malformed "transcript tag set is invalid")

/-- `parse_list` of the effects. -/
def parseEffects (bs : Bytes) : Result (List (RemoteEffectId × EffectKind)) := do
  let (count, rest) ← orRefuse (split 2 bs) (malformed "transcript is truncated")
  ensure (ofBe count ≤ 8) (limit "canonical list contains too many items")
  let (entries, rest) ← orRefuse (readItems (ofBe count) rest) (malformed "transcript is truncated")
  ensure (entries.map Prod.fst = List.range (ofBe count))
    (malformed "canonical list ordinals are not contiguous")
  ensure (rest = []) (malformed "canonical list contains trailing bytes")
  entries.mapM fun e => parseAuthorizationEffect e.2

/-- The seventeen tagged fields of the transcript. -/
def authorizationFields (f : AuthorizationFields) (effects : Bytes) : List (Nat × Bytes) :=
  [(1, f.ownerRealm.bytes), (2, be 2 f.action.code), (3, be 2 f.target.kind.code),
    (4, f.target.bytes), (5, Uuid.optBytes f.storeId), (6, Uuid.optBytes f.accountId),
    (7, f.manifestSha256.bytes), (8, Digest.optBytes f.bindingSha256),
    (9, Digest.optBytes f.policySha256), (10, f.bundleSha256.bytes), (11, f.signerKeyId.bytes),
    (12, f.trustEpoch.beBytes), (13, f.grantId.bytes), (14, f.nonce.bytes),
    (15, beI64 f.issuedAt), (16, beI64 f.expiresAt), (17, effects)]

def authorizationDomain : Bytes := ascii "KIRJE-AUTHORIZATION-V1\x00"

/-- `encode_authorization`. -/
def encodeAuthorization (f : AuthorizationFields) : Result Bytes := do
  let effects ← encodeEffects f.effects
  encodeFields authorizationDomain (authorizationFields f effects)

/-- `validate_authorization_time`. -/
def validateAuthorizationTime (issued expires : Int) : Result Unit := do
  ensure (-2 ^ 63 ≤ expires - issued ∧ expires - issued < 2 ^ 63)
    (malformed "authorization time range overflowed")
  ensure (0 < expires - issued ∧ expires - issued ≤ 900000)
    (malformed "authorization lifetime is outside the contract")

/-- The presence of the common context of an action. -/
def presenceOk (action : SensitiveAction) (store account binding policy : Bool) : Bool :=
  match action with
  | .sendSubmit | .mailSeen | .mailStarred | .mailMove | .mailArchive | .mailSafeDelete
  | .ambiguousClose => store && account && binding && policy
  | .storeEnroll => store && !account && !binding && !policy
  | .accountCreate | .accountUpdate | .accountRemove | .credentialSet | .credentialDelete
  | .credentialCleanup => store && account && binding && !policy
  | .ownerRotate | .recoveryRotate | .ownerRecover => !store && !account && !binding && !policy
  | .policyUpdate | .assuranceUpdate => false

/-- `validate_authorization_presence`. -/
def validateAuthorizationPresence (f : AuthorizationFields) : Result Unit := do
  ensure (f.target.kind = f.action.targetKind)
    (malformed "authorization target does not match action")
  ensure (presenceOk f.action f.storeId.isSome f.accountId.isSome f.bindingSha256.isSome
      f.policySha256.isSome)
    (malformed "authorization common context is inconsistent")

/-- `validate_authorization_effects`. -/
def validateAuthorizationEffects (action : SensitiveAction)
    (effects : List (RemoteEffectId × EffectKind)) : Result Unit :=
  if action.effectKind = .none then
    ensure (effects = []) (malformed "control authorization has remote effects")
  else
    ensure (effects.map Prod.snd = [action.effectKind])
      (malformed "authorization effects do not match action")

namespace AuthorizationPayload

variable (env : Platform)

/-- The effects of a manifest: one for a remote action, none for a control action. -/
def manifestEffects (manifest : ActionManifest) : Result (List (RemoteEffectId × EffectKind)) :=
  match manifest.context.effectId, decide (manifest.action.effectKind = .none) with
  | some id, false => pure [(id, manifest.action.effectKind)]
  | none, true => pure []
  | _, _ => .error (malformed "authorization effect context is malformed")

/-- `AuthorizationPayload::new`. -/
def new (manifest : ActionManifest) (context : AuthorizationContext) :
    Result AuthorizationPayload := do
  validateAuthorizationTime context.issuedAt context.expiresAt
  let effects ← manifestEffects manifest
  let fields : AuthorizationFields := {
    ownerRealm := context.ownerRealm
    action := manifest.action
    target := manifest.context.target
    storeId := manifest.context.storeId
    accountId := manifest.context.accountId
    manifestSha256 := manifest.sha256
    bindingSha256 := manifest.context.accountBindingSha256
    policySha256 := manifest.context.policySha256
    bundleSha256 := context.trustBundleSha256
    signerKeyId := context.signerKeyId
    trustEpoch := context.trustEpoch
    grantId := context.grantId
    nonce := context.nonce
    issuedAt := context.issuedAt
    expiresAt := context.expiresAt
    effects := effects }
  let bytes ← encodeAuthorization fields
  pure ⟨fields, bytes, env.sha256 bytes⟩

/-- The typed reading of the seventeen fields. -/
def parseFields : List (Nat × Bytes) → Result AuthorizationFields
  | [(1, realm), (2, action), (3, kind), (4, target), (5, store), (6, account), (7, manifest),
      (8, binding), (9, policy), (10, bundle), (11, signer), (12, epoch), (13, grant),
      (14, nonce), (15, issued), (16, expires), (17, effects)] => do
      let ownerRealm ← parseDigest realm
      let actionCode ← parseNat 2 action
      let action ← orRefuse (SensitiveAction.fromCode actionCode) unsupportedAction
      let kindCode ← parseNat 2 kind
      let kind ← orRefuse (TargetKind.fromCode kindCode) (malformed "unknown target kind")
      ensure (kind = action.targetKind) (malformed "authorization target does not match action")
      let target ← parseTarget kind target
      let storeId ← parseOptional parseUuid store
      let accountId ← parseOptional parseUuid account
      let manifestSha256 ← parseDigest manifest
      let bindingSha256 ← parseOptional parseDigest binding
      let policySha256 ← parseOptional parseDigest policy
      let bundleSha256 ← parseDigest bundle
      let signerKeyId ← parseDigest signer
      let trustEpoch ← parseNonzeroU64 epoch
      let grantId ← parseUuid grant
      let nonce ← parseDigest nonce
      let issuedAt ← parseI64 issued
      let expiresAt ← parseI64 expires
      let effects ← parseEffects effects
      pure ⟨ownerRealm, action, target, storeId, accountId, manifestSha256, bindingSha256,
        policySha256, bundleSha256, signerKeyId, trustEpoch, grantId, nonce, issuedAt, expiresAt,
        effects⟩
  | _ => .error (malformed "transcript tag set is invalid")

/-- `AuthorizationPayload::parse`. -/
def parse (bytes : Bytes) : Result AuthorizationPayload := do
  ensure (bytes.length ≤ 4194304) (limit "authorization transcript is too large")
  let raw ← parseFieldsAny bytes authorizationDomain
  let fields ← parseFields raw
  validateAuthorizationPresence fields
  validateAuthorizationTime fields.issuedAt fields.expiresAt
  validateAuthorizationEffects fields.action fields.effects
  let canonical ← encodeAuthorization fields
  ensure (canonical = bytes) (malformed "authorization transcript is not canonical")
  pure ⟨fields, canonical, env.sha256 canonical⟩

/-- **The bytes of a parsed transcript are the parsed ones, and its digest names it.** -/
theorem parse_ok {bytes : Bytes} {p : AuthorizationPayload} (h : parse env bytes = .ok p) :
    p.canonicalBytes = bytes ∧ p.challengeId = env.sha256 bytes ∧
      encodeAuthorization p.fields = .ok bytes := by
  simp only [parse, bind_ok, ensure_ok, pure_ok] at h
  obtain ⟨_, _, raw, _, fields, _, _, _, _, _, _, _, canonical, hc, _, rfl, rfl⟩ := h
  exact ⟨rfl, rfl, hc⟩

end AuthorizationPayload

/-! ## 3. The transcript of a manifest reads back -/

def effectDomain : Bytes := ascii "KIRJE-EFFECT-V1\x00"

theorem parseAuthorizationEffect_fieldBytes (id : RemoteEffectId) {kind : EffectKind} (h : kind ≠ .none) :
    parseAuthorizationEffect (fieldBytes effectDomain [(1, id.bytes), (2, be 2 kind.code)]) =
      .ok (id, kind) := by
  have hraw : parseFieldsAny (fieldBytes effectDomain [(1, id.bytes), (2, be 2 kind.code)]) effectDomain =
      .ok [(1, id.bytes), (2, be 2 kind.code)] :=
    parseFieldsAny_fieldBytes (by simp) (by simp) (by simp [Fits])
  have hcode : parseNat 2 (be 2 kind.code) = .ok kind.code := parseNat_be (by simpa using kind.code_lt)
  simp only [parseAuthorizationEffect, bind_ok]
  refine ⟨_, hraw, ?_⟩
  simp [hcode, bind, Except.bind, orRefuse, EffectKind.fromCode_code, ensure, h, pure, Except.pure]

/-- The effects of a manifest, one or none, read back. -/
theorem effects_read_back {effects : List (RemoteEffectId × EffectKind)} (hn : effects.length ≤ 1)
    (hkind : ∀ e ∈ effects, e.2 ≠ .none) :
    ∃ bytes, encodeEffects effects = .ok bytes ∧ bytes.length ≤ 64 ∧ parseEffects bytes = .ok effects := by
  cases effects with
  | nil => exact ⟨be 2 0, rfl, by simp, by decide⟩
  | cons e rest =>
      obtain rfl : rest = [] := List.eq_nil_of_length_eq_zero (by simpa using hn)
      obtain ⟨id, kind⟩ := e
      have hne : kind ≠ .none := hkind _ List.mem_cons_self
      let entry := fieldBytes effectDomain [(1, id.bytes), (2, be 2 kind.code)]
      have hentry : encodeFields (ascii "KIRJE-EFFECT-V1\x00") [(1, id.bytes), (2, be 2 kind.code)] =
          .ok entry := encodeFields_ok (by simp) (by simp) (by simp)
      have hdomain : effectDomain.length = 16 := by decide
      have hlength : entry.length = 48 := by
        simp [entry, fieldBytes, items, length_item, hdomain]
      have hfits : ∀ x ∈ [(0, entry)], Fits x := by simp [Fits, hlength]
      have hitems : readItems 1 (items [(0, entry)] ++ []) = some ([(0, entry)], []) :=
        readItems_items hfits []
      refine ⟨be 2 1 ++ items [(0, entry)], ?_, ?_, ?_⟩
      · simp [encodeEffects, hentry, bind, Except.bind, ensure, pure, Except.pure]
      · simp [items, length_item, hlength]
      · have hsplit : split 2 (be 2 1 ++ items [(0, entry)]) = some (be 2 1, items [(0, entry)]) :=
          split_append_of_length (length_be _ _)
        have hcount : ofBe (be 2 1) = 1 := ofBe_be (by decide)
        rw [List.append_nil] at hitems
        simp [parseEffects, hsplit, hcount, hitems, bind, Except.bind, orRefuse, ensure, pure, Except.pure,
          entry, parseAuthorizationEffect_fieldBytes id hne]

theorem length_optBytes_uuid (u : Option Uuid) : (Uuid.optBytes u).length ≤ 16 := by
  cases u <;> simp [Uuid.optBytes]

theorem length_optBytes_digest (d : Option Digest) : (Digest.optBytes d).length ≤ 32 := by
  cases d <;> simp [Digest.optBytes]

theorem length_target_bytes (t : ManifestTarget) : t.bytes.length ≤ 16 := by
  cases t <;> simp [ManifestTarget.bytes]

/-- No field of a transcript is longer than 64 bytes. -/
theorem length_authorizationFields {f : AuthorizationFields} {effects : Bytes} (he : effects.length ≤ 64)
    {x : Nat × Bytes} (hx : x ∈ authorizationFields f effects) : x.1 ≤ 17 ∧ x.2.length ≤ 64 := by
  have ht := length_target_bytes f.target
  have hs := length_optBytes_uuid f.storeId
  have ha := length_optBytes_uuid f.accountId
  have hb := length_optBytes_digest f.bindingSha256
  have hp := length_optBytes_digest f.policySha256
  simp only [authorizationFields, List.mem_cons, List.not_mem_nil, or_false] at hx
  rcases hx with rfl | rfl | rfl | rfl | rfl | rfl | rfl | rfl | rfl | rfl | rfl | rfl | rfl |
    rfl | rfl | rfl | rfl <;> simp <;> omega

theorem tags_authorizationFields (f : AuthorizationFields) (effects : Bytes) :
    ((authorizationFields f effects).map Prod.fst).Pairwise (· < ·) := by
  simp [authorizationFields]

theorem fits_authorizationFields {f : AuthorizationFields} {effects : Bytes} (he : effects.length ≤ 64)
    {x : Nat × Bytes} (hx : x ∈ authorizationFields f effects) : Fits x := by
  obtain ⟨h1, h2⟩ := length_authorizationFields he hx
  unfold Fits
  omega

theorem length_items_le {fields : List (Nat × Bytes)} {n : Nat}
    (h : ∀ f ∈ fields, f.2.length ≤ n) : (items fields).length ≤ fields.length * (6 + n) := by
  induction fields with
  | nil => simp [items]
  | cons f fields ih =>
      have hf := h f List.mem_cons_self
      have ht := ih fun g hg => h g (List.mem_cons_of_mem _ hg)
      rw [items, List.flatMap_cons, List.length_append, length_item, List.length_cons]
      rw [items] at ht
      have : (fields.length + 1) * (6 + n) = fields.length * (6 + n) + (6 + n) := by ring
      omega

theorem encodeAuthorization_eq {f : AuthorizationFields} {effects : Bytes}
    (he : encodeEffects f.effects = .ok effects) (hn : effects.length ≤ 64) :
    encodeAuthorization f = .ok (fieldBytes authorizationDomain (authorizationFields f effects)) := by
  have hl : ∀ x ∈ authorizationFields f effects, x.2.length < 2 ^ 32 := by
    intro x hx
    have := (length_authorizationFields hn hx).2
    omega
  have h := @encodeFields_ok authorizationDomain (authorizationFields f effects)
    (by simp [authorizationFields]) (tags_authorizationFields f effects) hl
  rw [encodeAuthorization, he]
  exact h

theorem length_fieldBytes_authorization (f : AuthorizationFields) {effects : Bytes}
    (he : effects.length ≤ 64) :
    (fieldBytes authorizationDomain (authorizationFields f effects)).length ≤ 4194304 := by
  have hi := length_items_le fun x hx => (@length_authorizationFields f effects he x hx).2
  have hn : (authorizationFields f effects).length = 17 := rfl
  have hd : authorizationDomain.length = 23 := by decide
  rw [fieldBytes, List.length_append, List.length_append, length_be, hd]
  omega

/-- The typed fields of a transcript read back. -/
theorem parseFields_authorization {f : AuthorizationFields} {effects : Bytes}
    (he : parseEffects effects = .ok f.effects)
    (hk : f.target.kind = f.action.targetKind) (hi : -2 ^ 63 ≤ f.issuedAt ∧ f.issuedAt < 2 ^ 63)
    (hx : -2 ^ 63 ≤ f.expiresAt ∧ f.expiresAt < 2 ^ 63) :
    AuthorizationPayload.parseFields (authorizationFields f effects) = .ok f := by
  have hcode : parseNat 2 (be 2 f.action.code) = .ok f.action.code :=
    parseNat_be (by simpa using f.action.code_lt)
  have hkind : parseNat 2 (be 2 f.target.kind.code) = .ok f.target.kind.code :=
    parseNat_be (by simpa using f.target.kind.code_lt)
  have hissued := parseI64_beI64 hi.1 hi.2
  have hexpires := parseI64_beI64 hx.1 hx.2
  obtain ⟨⟩ := f
  simp only at he hk hcode hkind hissued hexpires
  simp only [authorizationFields, AuthorizationPayload.parseFields, bind_ok,
    parseDigest_bytes, Except.ok.injEq, exists_eq_left', hcode, hkind, orRefuse_ok,
    SensitiveAction.fromCode_code, TargetKind.fromCode_code, Option.some.injEq, ensure_ok,
    parseTarget_bytes, parseOptional_uuid, parseOptional_digest, parseNonzeroU64_beBytes,
    parseUuid_bytes, hissued, hexpires, he, pure_ok, and_true]
  exact ⟨(), hk⟩

namespace AuthorizationPayload

/-- The context of a remote action is complete. -/
theorem validateManifestContext_remote {context : ManifestContext} {action : SensitiveAction}
    (h : validateManifestContext context action = .ok ()) (hremote : action.effectKind ≠ .none) :
    context.storeId.isSome ∧ context.accountId.isSome ∧ context.accountBindingSha256.isSome ∧
      context.policySha256.isSome := by
  simp only [validateManifestContext, if_pos hremote, bind_ok, ensure_ok] at h
  obtain ⟨_, -, _, -, h1, h2, h3, h4, -⟩ := h
  exact ⟨h1, h2, h3, h4⟩

/-- The presence rule follows from the checks of the manifest. -/
theorem presence_of_valid {env : Platform} {m : ActionManifest} (h : m.Valid env) :
    presenceOk m.action m.context.storeId.isSome m.context.accountId.isSome
      m.context.accountBindingSha256.isSome m.context.policySha256.isSome := by
  have hp := h.payload_ok
  have hc := h.context_ok
  obtain ⟨context, payload, bytes, sha⟩ := m
  simp only [ActionManifest.action] at hp hc ⊢
  cases payload with
  | sendSubmit | mailSeen | mailStarred | mailMove | mailArchive | mailSafeDelete =>
      obtain ⟨h1, h2, h3, h4⟩ := validateManifestContext_remote hc
        (by simp [ManifestPayload.action, SensitiveAction.effectKind])
      simp [presenceOk, ManifestPayload.action, h1, h2, h3, h4]
  | accountCreate value | accountUpdate value | accountRemove value =>
      obtain ⟨target, hok⟩ := validateAccountMutationContext_ok env hp
      have hb := hok.binding_some
      simp [presenceOk, ManifestPayload.action, hok.store_eq, hok.account_eq, hok.policy_eq, hb]
  | credentialSet value | credentialDelete value =>
      obtain ⟨before, after, hok⟩ := validateCredentialMutationContext_ok env hp
      simp [presenceOk, ManifestPayload.action, hok.store_eq, hok.account_eq, hok.policy_eq,
        hok.binding_eq]
  | storeEnroll value | credentialCleanup value =>
      simp only [validatePayloadContext, bind_ok, orRefuse_ok, ensure_ok] at hp
      obtain ⟨target, _, h1, h2, h3, h4, h5⟩ := hp
      simp_all [presenceOk, ManifestPayload.action]
  | ownerRotate value | recoveryRotate value =>
      simp only [validatePayloadContext, validateTrustRotationContext, bind_ok, orRefuse_ok,
        ensure_ok] at hp
      obtain ⟨target, _, _, _, _, _, _, _, _, h1, h2, h3, h4⟩ := hp
      simp_all [presenceOk, ManifestPayload.action]
  | ownerRecover value =>
      simp only [validatePayloadContext, validateOwnerRecoverContext, bind_ok, orRefuse_ok,
        ensure_ok] at hp
      obtain ⟨target, _, _, _, _, _, h1, h2, h3, h4⟩ := hp
      simp_all [presenceOk, ManifestPayload.action]
  | ambiguousClose value =>
      simp only [validatePayloadContext, validateAmbiguousContext, ensure_ok] at hp
      obtain ⟨h1, h2, h3, h4, _⟩ := hp
      simp [presenceOk, ManifestPayload.action, h1, h2, h3, h4]

/-- What a built transcript is made of. -/
theorem new_ok {env : Platform} {m : ActionManifest} {c : AuthorizationContext}
    {p : AuthorizationPayload} (h : new env m c = .ok p) :
    validateAuthorizationTime c.issuedAt c.expiresAt = .ok () ∧
      (∃ effects, manifestEffects m = .ok effects ∧
        p.fields = ⟨c.ownerRealm, m.action, m.context.target, m.context.storeId,
          m.context.accountId, m.sha256, m.context.accountBindingSha256, m.context.policySha256,
          c.trustBundleSha256, c.signerKeyId, c.trustEpoch, c.grantId, c.nonce, c.issuedAt,
          c.expiresAt, effects⟩) ∧
      encodeAuthorization p.fields = .ok p.canonicalBytes ∧
      p.challengeId = env.sha256 p.canonicalBytes := by
  simp only [new, bind_ok, pure_ok] at h
  obtain ⟨_, htime, effects, heff, bytes, henc, rfl⟩ := h
  exact ⟨htime, ⟨effects, heff, rfl⟩, henc, rfl⟩

/-- The effects of a manifest are those of its action. -/
theorem manifestEffects_ok {m : ActionManifest} {effects : List (RemoteEffectId × EffectKind)}
    (h : manifestEffects m = .ok effects) :
    effects.length ≤ 1 ∧ (∀ e ∈ effects, e.2 ≠ .none) ∧
      validateAuthorizationEffects m.action effects = .ok () := by
  unfold manifestEffects at h
  by_cases hnone : m.action.effectKind = .none
  · cases hid : m.context.effectId with
    | none =>
        simp only [hid, hnone, decide_true, pure_ok] at h
        subst h
        simp [validateAuthorizationEffects, hnone]
    | some id => simp [hid, hnone] at h
  · cases hid : m.context.effectId with
    | none => simp [hid, hnone] at h
    | some id =>
        simp only [hid, hnone, decide_false, pure_ok] at h
        subst h
        simp [validateAuthorizationEffects, hnone]

/-- A control action has no effects. -/
theorem manifestEffects_control {m : ActionManifest} (hnone : m.action.effectKind = .none)
    {effects : List (RemoteEffectId × EffectKind)} (h : manifestEffects m = .ok effects) : effects = [] := by
  cases hid : m.context.effectId <;> simp_all [manifestEffects]

/-- **The transcript built for a manifest reads back as itself**, whatever the action. -/
theorem parse_new {env : Platform} {m : ActionManifest} {c : AuthorizationContext}
    {p : AuthorizationPayload} (hm : m.Valid env)
    (hi : -2 ^ 63 ≤ c.issuedAt ∧ c.issuedAt < 2 ^ 63)
    (hx : -2 ^ 63 ≤ c.expiresAt ∧ c.expiresAt < 2 ^ 63)
    (h : new env m c = .ok p) : parse env p.canonicalBytes = .ok p := by
  obtain ⟨htime, ⟨effects, heff, hf⟩, henc, hid⟩ := new_ok h
  obtain ⟨hone, hkinds, hvalid⟩ := manifestEffects_ok heff
  obtain ⟨raw, hraw, hlength, hread⟩ := effects_read_back hone hkinds
  have hpres := presence_of_valid hm
  have he : p.fields.effects = effects := by rw [hf]
  have hkind : p.fields.target.kind = p.fields.action.targetKind := by
    have hc := hm.context_ok
    simp only [validateManifestContext, bind_ok, ensure_ok] at hc
    obtain ⟨_, _, _, hc, _⟩ := hc
    rw [hf]
    exact hc
  have hbytes : p.canonicalBytes = fieldBytes authorizationDomain (authorizationFields p.fields raw) := by
    rw [encodeAuthorization_eq (he ▸ hraw) hlength, Except.ok.injEq] at henc
    exact henc.symm
  have hfields : parseFieldsAny p.canonicalBytes authorizationDomain =
      .ok (authorizationFields p.fields raw) := by
    rw [hbytes]
    exact parseFieldsAny_fieldBytes (by simp [authorizationFields]) (tags_authorizationFields _ _)
      fun x hx => fits_authorizationFields hlength hx
  have htyped : parseFields (authorizationFields p.fields raw) = .ok p.fields :=
    parseFields_authorization (he ▸ hread) hkind (by rw [hf]; exact hi) (by rw [hf]; exact hx)
  simp only [parse, bind_ok, ensure_ok, pure_ok]
  refine ⟨(), by rw [hbytes]; exact length_fieldBytes_authorization _ hlength, _, hfields, p.fields, htyped,
    (), ?_, (), by rw [hf]; exact htime, (), by rw [hf]; exact hvalid, _, henc, (), rfl, ?_⟩
  · simp only [validateAuthorizationPresence, bind_ok, ensure_ok]
    exact ⟨(), hkind, by rw [hf]; exact hpres⟩
  · rw [← hid]

end AuthorizationPayload

/-! ## 4. Proofs -/

/-- A detached Ed25519 signature. -/
structure Signature where
  bytes : Bytes
  length_eq : bytes.length = 64
  deriving DecidableEq, Repr

attribute [simp] Signature.length_eq

def Signature.ofBytes? (bs : Bytes) : Option Signature :=
  if h : bs.length = 64 then some ⟨bs, h⟩ else none

/-- `AuthorizationProof`; its text form holds the same signature in Base64url. -/
structure AuthorizationProof where
  challengeId : Digest
  keyId : Digest
  signingPayloadSha256 : Digest
  signature : Signature
  deriving DecidableEq, Repr

namespace AuthorizationProof

def fields (p : AuthorizationProof) : List (Nat × Bytes) :=
  [(1, p.challengeId.bytes), (2, p.keyId.bytes), (3, p.signingPayloadSha256.bytes),
    (4, p.signature.bytes)]

def domain : Bytes := ascii "KIRJE-AUTHORIZATION-PROOF-V1\x00"

/-- `encode_proof`. -/
def canonicalBytes (p : AuthorizationProof) : Bytes := fieldBytes domain p.fields

/-- `proof_sha256`. -/
def proofSha256 (env : Platform) (p : AuthorizationProof) : Digest := env.sha256 p.canonicalBytes

/-- `parse_canonical`. -/
def parseCanonical (bytes : Bytes) : Result AuthorizationProof := do
  ensure (bytes.length ≤ 4096) (limit "authorization proof transcript is too large")
  let fields ← parseFieldsAny bytes domain
  match fields with
  | [(1, challenge), (2, key), (3, signing), (4, signature)] => do
      let challengeId ← parseDigest challenge
      let keyId ← parseDigest key
      let signingPayloadSha256 ← parseDigest signing
      let signature ← orRefuse (Signature.ofBytes? signature) wrongLength
      let proof : AuthorizationProof := ⟨challengeId, keyId, signingPayloadSha256, signature⟩
      ensure (proof.canonicalBytes = bytes)
        (malformed "authorization proof transcript is not canonical")
      pure proof
  | _ => .error (malformed "transcript tag set is invalid")

theorem length_canonicalBytes (p : AuthorizationProof) : p.canonicalBytes.length = 215 := by
  have hd : domain.length = 29 := by decide
  simp [canonicalBytes, fieldBytes, fields, items, length_item, hd]

/-- **A proof reads back from its canonical bytes.** -/
theorem parse_canonicalBytes (p : AuthorizationProof) :
    parseCanonical p.canonicalBytes = .ok p := by
  have hfits : ∀ f ∈ p.fields, Fits f := by
    intro f hf
    simp only [fields, List.mem_cons, List.not_mem_nil, or_false] at hf
    rcases hf with rfl | rfl | rfl | rfl <;> simp [Fits]
  have hraw : parseFieldsAny p.canonicalBytes domain = .ok p.fields :=
    parseFieldsAny_fieldBytes (by simp [fields]) (by simp [fields]) hfits
  have hsig : Signature.ofBytes? p.signature.bytes = some p.signature := by
    rw [Signature.ofBytes?, dif_pos p.signature.length_eq]
  simp only [parseCanonical, bind_ok, ensure_ok]
  refine ⟨(), by rw [length_canonicalBytes]; omega, p.fields, hraw, ?_⟩
  simp only [fields, bind_ok, parseDigest_bytes, Except.ok.injEq, exists_eq_left', orRefuse_ok,
    hsig, Option.some.injEq, ensure_ok, pure_ok]
  exact ⟨(), trivial, trivial⟩

end AuthorizationProof

end Kirje
