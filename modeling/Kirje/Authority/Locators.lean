import Kirje.Authority.Effects

/-
  File:      Kirje/Authority/Locators.lean
  Subject:   The locator of a credential that is to be deleted reads back, and two
             `active_v2` locators are the same only for the same identity.

  The username of an `active_v2` locator is the digest of the identity in
  hexadecimal; that of a `legacy_v1` locator is the display name.  Both are ASCII
  of bounded length, so the locator fits its table and its own reader.
-/

namespace Kirje.Authority

open Base

variable (env : Platform)

/-! ## 1. Hexadecimal -/

/-- The bytes `delete_only_locator_shape_is_valid` admits in a digest. -/
def isLowerHex (b : UInt8) : Bool := (48 ≤ b && b ≤ 57) || (97 ≤ b && b ≤ 102)

theorem lowerHex_isLowerHex : ∀ n < 16, isLowerHex (lowerHex n) := by decide

theorem lowerHex_injective : ∀ m < 16, ∀ n < 16, lowerHex m = lowerHex n → m = n := by decide

theorem length_hexBytes (bs : Bytes) : (hexBytes bs).length = 2 * bs.length := by
  simp [hexBytes, List.length_flatMap, Nat.mul_comm]

theorem hexBytes_isLowerHex (bs : Bytes) : (hexBytes bs).all isLowerHex := by
  simp only [hexBytes, List.all_flatMap, List.all_eq_true, List.mem_cons, List.not_mem_nil, or_false]
  rintro b - x (rfl | rfl)
  · exact lowerHex_isLowerHex _ (by have := b.toNat_lt; omega)
  · exact lowerHex_isLowerHex _ (Nat.mod_lt _ (by decide))

/-- **Hexadecimal reads back.** -/
theorem hexBytes_injective {as bs : Bytes} (h : hexBytes as = hexBytes bs) : as = bs := by
  induction as generalizing bs with
  | nil =>
      cases bs with
      | nil => rfl
      | cons b bs => simp [hexBytes] at h
  | cons a as ih =>
      cases bs with
      | nil => simp [hexBytes] at h
      | cons b bs =>
          simp only [hexBytes, List.flatMap_cons, List.cons_append, List.nil_append,
            List.cons.injEq] at h
          have hhi := lowerHex_injective _ (by have := a.toNat_lt; omega) _
            (by have := b.toNat_lt; omega) h.1
          have hlo := lowerHex_injective _ (Nat.mod_lt _ (by decide)) _ (Nat.mod_lt _ (by decide))
            h.2.1
          have hab : a = b := UInt8.toNat_inj.mp (by omega)
          rw [hab, ih h.2.2]

/-! ## 2. Display names -/

/-- The bytes `delete_only_locator_shape_is_valid` admits in a display name. -/
def isNameByte (b : UInt8) : Bool :=
  (48 ≤ b && b ≤ 57) || (65 ≤ b && b ≤ 90) || (97 ≤ b && b ≤ 122) || b == 45 || b == 95

theorem nameByte_of_nat : ∀ n < 128,
    (48 ≤ n ∧ n ≤ 57) ∨ (65 ≤ n ∧ n ≤ 90) ∨ (97 ≤ n ∧ n ≤ 122) ∨ n = 45 ∨ n = 95 →
      isNameByte (UInt8.ofNat n) := by decide

/-- A character of a display name is one byte of a display name. -/
theorem utf8EncodeChar_name {c : Char} (h : c.isAlphanum || c == '-' || c == '_') :
    ∃ b, String.utf8EncodeChar c = [b] ∧ isNameByte b := by
  have hn : (48 ≤ c.toNat ∧ c.toNat ≤ 57) ∨ (65 ≤ c.toNat ∧ c.toNat ≤ 90) ∨
      (97 ≤ c.toNat ∧ c.toNat ≤ 122) ∨ c.toNat = 45 ∨ c.toNat = 95 := by
    simp only [Bool.or_eq_true, beq_iff_eq] at h
    rcases h with (h | rfl) | rfl
    · have hrange := isAlphanum_toNat h
      omega
    · right; right; right; left; rfl
    · right; right; right; right; rfl
  have hlt : c.toNat < 128 := by omega
  have hone : c.utf8Size = 1 := by
    have hle : c.val ≤ 0x7f := by
      rw [UInt32.le_iff_toNat_le]
      have : c.val.toNat = c.toNat := rfl
      simp only [this, UInt32.reduceToNat]
      omega
    exact Char.utf8Size_eq_one_iff.mpr hle
  refine ⟨_, String.utf8EncodeChar_eq_singleton hone, ?_⟩
  have : c.val.toUInt8 = UInt8.ofNat c.toNat := rfl
  rw [this]
  exact nameByte_of_nat _ hlt hn

theorem utf8_name {s : String} (h : validAccountId s) :
    utf8 s ≠ [] ∧ (utf8 s).length ≤ 64 ∧ (utf8 s).all isNameByte := by
  simp only [validAccountId, Bool.and_eq_true, Bool.not_eq_true', decide_eq_true_eq] at h
  obtain ⟨⟨hne, hlen⟩, hall⟩ := h
  have hsize : (utf8 s).length = s.utf8ByteSize := by
    rw [← String.size_toByteArray, ← String.utf8Encode_toList, List.utf8Encode]
    simp [utf8, List.size_toByteArray]
  refine ⟨?_, by omega, ?_⟩
  · intro h0
    rw [h0, List.length_nil] at hsize
    have := String.utf8ByteSize_eq_zero_iff.mp hsize.symm
    rw [this] at hne
    simp at hne
  · simp only [utf8, List.all_flatMap, List.all_eq_true]
    intro c hc
    obtain ⟨b, hb, hname⟩ := utf8EncodeChar_name (List.all_eq_true.mp hall c hc)
    rw [hb]
    simpa using hname

/-! ## 3. Reading a locator -/

theorem length_encodeTranscript {domain : Bytes} {fields : List Bytes}
    (hn : fields.length ≤ 65535) (hl : ∀ f ∈ fields, f.length < 2 ^ 32) :
    (encodeTranscript domain fields).length =
      domain.length + 2 + (fields.map fun f => 6 + f.length).sum := by
  rw [encodeTranscript_eq hn hl]
  simp only [List.length_append, length_be, items, List.length_flatMap, length_item]
  congr 2
  apply List.ext_getElem
  · simp
  · intro i h1 h2
    simp

/-- **A locator that fits reads back.** -/
theorem parseDeleteOnlyLocator_deleteOnlyLocator {kind : LocatorKind} {service username : Bytes}
    (hs : service.length ≤ 255) (hu : username.length ≤ 1024) :
    parseDeleteOnlyLocator (deleteOnlyLocator kind service username) =
      some (kind, service, username) := by
  have hl : ∀ f ∈ [be 1 (locatorKindCode kind), service, username], f.length < 2 ^ 32 := by
    intro f hf
    simp only [List.mem_cons, List.not_mem_nil, or_false] at hf
    rcases hf with rfl | rfl | rfl
    · simp
    · omega
    · omega
  have hlen := @length_encodeTranscript deleteOnlyLocatorDomain _ (by simp) hl
  have hdomain : deleteOnlyLocatorDomain.length = 29 := by decide
  simp only [hdomain, List.map_cons, List.map_nil, List.sum_cons, List.sum_nil, length_be] at hlen
  have hread := @readTranscript_encode deleteOnlyLocatorDomain _ (by simp) hl
  simp only [List.length_cons, List.length_nil] at hread
  unfold parseDeleteOnlyLocator deleteOnlyLocator
  have hguard : (1 ≤ (encodeTranscript deleteOnlyLocatorDomain
      [be 1 (locatorKindCode kind), service, username]).length ∧
    (encodeTranscript deleteOnlyLocatorDomain
      [be 1 (locatorKindCode kind), service, username]).length ≤ 4096) := by omega
  have hcode : exactNat 1 (be 1 (locatorKindCode kind)) = some (locatorKindCode kind) := by
    cases kind <;> decide
  simp only [hguard, hread, guard, Option.bind_eq_bind, Option.bind_some, if_true, hcode, and_self]
  cases kind <;> rfl

/-- The locator a snapshot reserves reads back, in the shape its kind has. -/
theorem parse_expectedDeleteOnlyLocator {realmId : RealmId} {storeId : StoreId}
    {before : AccountSnapshot} {kind : LocatorKind} (h : validAccountId before.displayId) :
    ∃ service username, parseDeleteOnlyLocator
        (expectedDeleteOnlyLocator env realmId storeId before kind) = some (kind, service, username) ∧
      deleteOnlyLocatorShapeIsValid kind service username := by
  cases kind with
  | activeV2 =>
      have hlen : (activeV2Username env realmId storeId before.accountId before.credentialId
          before.bindingSha256).length = 67 := by
        simp only [activeV2Username, List.length_append, length_hexBytes, Digest.length_eq]
        decide
      refine ⟨activeV2Service, activeV2Username env realmId storeId before.accountId
        before.credentialId before.bindingSha256, ?_, ?_⟩
      · exact parseDeleteOnlyLocator_deleteOnlyLocator (by decide) (by omega)
      · have hdrop : (activeV2Username env realmId storeId before.accountId before.credentialId
            before.bindingSha256).drop 3 = hexBytes (env.sha256 (credentialLocatorV2 realmId storeId
              before.accountId before.credentialId before.bindingSha256)).bytes := by
          have h3 : (ascii "v2:").length = 3 := by decide
          rw [activeV2Username, ← h3, List.drop_left]
        simp only [deleteOnlyLocatorShapeIsValid, hlen, hdrop, Bool.and_eq_true, beq_iff_eq,
          true_and, List.isPrefixOf_iff_prefix]
        exact ⟨List.prefix_append _ _, hexBytes_isLowerHex _⟩
  | legacyV1 =>
      obtain ⟨hne, hlen, hall⟩ := utf8_name h
      refine ⟨legacyV1Service, utf8 before.displayId, ?_, ?_⟩
      · exact parseDeleteOnlyLocator_deleteOnlyLocator (by decide) (by omega)
      · simp only [deleteOnlyLocatorShapeIsValid, Bool.and_eq_true, beq_iff_eq, decide_eq_true_eq,
          true_and, Bool.not_eq_true', List.isEmpty_eq_false_iff]
        exact ⟨⟨hne, hlen⟩, hall⟩

/-! ## 4. Identities -/

variable {env}

theorem length_activeV2Username (realmId : RealmId) (storeId : StoreId) (accountId : AccountId)
    (credentialId : CredentialId) (bindingSha256 : Digest) :
    (activeV2Username env realmId storeId accountId credentialId bindingSha256).length = 67 := by
  simp only [activeV2Username, List.length_append, length_hexBytes, Digest.length_eq]
  decide

/-- An `active_v2` locator reads back. -/
theorem parse_activeV2Locator (realmId : RealmId) (storeId : StoreId) (accountId : AccountId)
    (credentialId : CredentialId) (bindingSha256 : Digest) :
    parseDeleteOnlyLocator
        (activeV2Locator env realmId storeId accountId credentialId bindingSha256) =
      some (.activeV2, activeV2Service,
        activeV2Username env realmId storeId accountId credentialId bindingSha256) :=
  parseDeleteOnlyLocator_deleteOnlyLocator (by decide)
    (by rw [length_activeV2Username]; decide)

/-- One username has one digest. -/
theorem activeV2Username_digest {realmId realmId' : RealmId} {storeId storeId' : StoreId}
    {accountId accountId' : AccountId} {credentialId credentialId' : CredentialId}
    {bindingSha256 bindingSha256' : Digest}
    (h : activeV2Username env realmId storeId accountId credentialId bindingSha256 =
      activeV2Username env realmId' storeId' accountId' credentialId' bindingSha256') :
    env.sha256 (credentialLocatorV2 realmId storeId accountId credentialId bindingSha256) =
      env.sha256 (credentialLocatorV2 realmId' storeId' accountId' credentialId' bindingSha256') :=
  Digest.eq_of_bytes (hexBytes_injective (List.append_cancel_left h))

/-- **What is hashed says who it is.** -/
theorem credentialLocatorV2_inj {realmId realmId' : RealmId} {storeId storeId' : StoreId}
    {accountId accountId' : AccountId} {credentialId credentialId' : CredentialId}
    {bindingSha256 bindingSha256' : Digest}
    (h : credentialLocatorV2 realmId storeId accountId credentialId bindingSha256 =
      credentialLocatorV2 realmId' storeId' accountId' credentialId' bindingSha256') :
    accountId = accountId' ∧ credentialId = credentialId' := by
  simp only [credentialLocatorV2] at h
  obtain ⟨h, -⟩ := List.append_inj' h (by simp)
  obtain ⟨h, hcredential⟩ := List.append_inj' h (by simp)
  obtain ⟨-, haccount⟩ := List.append_inj' h (by simp)
  exact ⟨Uuid.eq_of_bytes haccount, Uuid.eq_of_bytes hcredential⟩

end Kirje.Authority
