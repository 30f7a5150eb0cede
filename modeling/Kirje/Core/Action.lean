import Kirje.Base.Bytes
import Kirje.Core.Mail

/-
  File:      Kirje/Core/Action.lean
  Subject:   Identifiers, digests and the table of sensitive actions
             (crates/kirje-core/src/account.rs, authorization.rs).

  Identifiers and digests carry their width, so that a value of the wrong length
  cannot be built.  `Platform` collects what the code takes from other crates;
  nothing is assumed of it here.
-/

namespace Kirje

open Base

/-! ## 1. Identifiers, digests, counters -/

/-- A UUID of version 4: sixteen bytes whose version nibble is four. -/
structure Uuid where
  bytes : Bytes
  length_eq : bytes.length = 16
  version_eq : (bytes.getD 6 0).toNat / 16 = 4
  deriving DecidableEq, Repr

/-- A SHA-256 digest, or any other identity of 32 bytes. -/
structure Digest where
  bytes : Bytes
  length_eq : bytes.length = 32
  deriving DecidableEq, Repr

/-- `NonZeroU64`. -/
structure NonZeroU64 where
  val : Nat
  pos : 0 < val
  lt : val < 2 ^ 64
  deriving DecidableEq, Repr

attribute [simp] Uuid.length_eq Digest.length_eq

/-- Small counters, and numbers spelled as digests. -/
theorem one_lt_u64 : 1 < 2 ^ 64 := by decide

theorem two_lt_u64 : 2 < 2 ^ 64 := by decide

theorem length_digest (n : Nat) : (be 32 n).length = 32 := length_be 32 n

abbrev StoreId := Uuid
abbrev AccountId := Uuid
abbrev CredentialId := Uuid
abbrev CleanupId := Uuid
abbrev TransitionId := Uuid
abbrev OperationId := Uuid
abbrev InvocationId := Uuid
abbrev RemoteEffectId := Uuid
abbrev JournalId := Uuid
abbrev GrantId := Uuid
abbrev ReceiptId := Uuid
abbrev RealmId := Digest

/-- `uuid_from_blob_sql`, `parse_uuid`: sixteen bytes of version 4. -/
def Uuid.ofBytes? (bs : Bytes) : Option Uuid :=
  if h : bs.length = 16 ∧ (bs.getD 6 0).toNat / 16 = 4 then some ⟨bs, h.1, h.2⟩ else none

/-- `digest_from_blob`, `parse_digest`. -/
def Digest.ofBytes? (bs : Bytes) : Option Digest :=
  if h : bs.length = 32 then some ⟨bs, h⟩ else none

/-- `NonZeroU64::new`. -/
def NonZeroU64.new? (n : Nat) : Option NonZeroU64 :=
  if h : 0 < n ∧ n < 2 ^ 64 then some ⟨n, h.1, h.2⟩ else none

/-- `i64::MAX`. -/
def i64Max : Nat := 2 ^ 63 - 1

namespace NonZeroU64

/-- `to_be_bytes`. -/
def beBytes (n : NonZeroU64) : Bytes := be 8 n.val

/-- `previous.checked_add(1) == Some(next)`. -/
def exactIncrement (previous next : NonZeroU64) : Bool := previous.val + 1 == next.val

theorem eq_of_val {a b : NonZeroU64} (h : a.val = b.val) : a = b := by
  cases a
  cases b
  simpa using h

@[simp] theorem length_beBytes (n : NonZeroU64) : n.beBytes.length = 8 := length_be _ _

end NonZeroU64

@[simp] theorem Uuid.ofBytes?_bytes (u : Uuid) : Uuid.ofBytes? u.bytes = some u := by
  rw [Uuid.ofBytes?, dif_pos ⟨u.length_eq, u.version_eq⟩]

@[simp] theorem Digest.ofBytes?_bytes (d : Digest) : Digest.ofBytes? d.bytes = some d := by
  simp [Digest.ofBytes?, d.length_eq]

theorem Uuid.ofBytes?_eq_some {bs : Bytes} {u : Uuid} : Uuid.ofBytes? bs = some u ↔ u.bytes = bs := by
  constructor
  · intro h
    unfold Uuid.ofBytes? at h
    split at h
    · rw [← Option.some.inj h]
    · cases h
  · rintro rfl
    exact Uuid.ofBytes?_bytes u

theorem Digest.ofBytes?_eq_some {bs : Bytes} {d : Digest} :
    Digest.ofBytes? bs = some d ↔ d.bytes = bs := by
  constructor
  · intro h
    unfold Digest.ofBytes? at h
    split at h
    · rw [← Option.some.inj h]
    · cases h
  · rintro rfl
    exact Digest.ofBytes?_bytes d

theorem Uuid.eq_of_bytes {a b : Uuid} (h : a.bytes = b.bytes) : a = b := by
  cases a
  cases b
  simpa using h

theorem Digest.eq_of_bytes {a b : Digest} (h : a.bytes = b.bytes) : a = b := by
  cases a
  cases b
  simpa using h

/-- The bytes of an optional identifier, empty when it is absent. -/
def Uuid.optBytes (u : Option Uuid) : Bytes := (u.map Uuid.bytes).getD []

/-- The bytes of an optional digest, empty when it is absent. -/
def Digest.optBytes (d : Option Digest) : Bytes := (d.map Digest.bytes).getD []

/-! ## 2. What comes from other crates -/

/-- `sha2`, `ed25519_dalek` and the address types of `std::net`: a digest, whether 32 bytes are a
    point of the curve and of small order, the strict verification of a signature, the canonical
    text of an address of either family, and what the mail types use. -/
structure Platform where
  sha256 : Bytes → Digest
  isPoint : Bytes → Bool
  isWeak : Bytes → Bool
  verifyStrict : Bytes → Bytes → Bytes → Bool
  parseIpv4 : String → Option String
  parseIpv6 : String → Option String
  mail : External

/-! ## 3. Actions -/

inductive SensitiveAction where
  | sendSubmit | mailSeen | mailStarred | mailMove | mailArchive | mailSafeDelete
  | storeEnroll | accountCreate | accountUpdate | accountRemove | credentialSet
  | credentialDelete | credentialCleanup | policyUpdate | assuranceUpdate | ownerRotate
  | recoveryRotate | ownerRecover | ambiguousClose
  deriving DecidableEq, Repr

inductive TargetKind where
  | operation | store | account | credential | cleanup | policy | assurance | trustEpoch
  | remoteEffect
  deriving DecidableEq, Repr

inductive EffectKind where
  | none | smtpSubmit | imapSeen | imapStarred | imapMove | imapArchive | imapSafeDelete
  deriving DecidableEq, Repr

inductive OwnerKeyRole where
  | owner | recovery
  deriving DecidableEq, Repr

namespace SensitiveAction

/-- `ALL`. -/
def all : List SensitiveAction :=
  [.sendSubmit, .mailSeen, .mailStarred, .mailMove, .mailArchive, .mailSafeDelete, .storeEnroll,
    .accountCreate, .accountUpdate, .accountRemove, .credentialSet, .credentialDelete,
    .credentialCleanup, .policyUpdate, .assuranceUpdate, .ownerRotate, .recoveryRotate,
    .ownerRecover, .ambiguousClose]

def code : SensitiveAction → Nat
  | sendSubmit => 0x0001
  | mailSeen => 0x0010
  | mailStarred => 0x0011
  | mailMove => 0x0012
  | mailArchive => 0x0013
  | mailSafeDelete => 0x0014
  | storeEnroll => 0x0100
  | accountCreate => 0x0110
  | accountUpdate => 0x0111
  | accountRemove => 0x0112
  | credentialSet => 0x0120
  | credentialDelete => 0x0121
  | credentialCleanup => 0x0122
  | policyUpdate => 0x0200
  | assuranceUpdate => 0x0201
  | ownerRotate => 0x0210
  | recoveryRotate => 0x0211
  | ownerRecover => 0x0212
  | ambiguousClose => 0x0220

/-- `policy().target_kind`. -/
def targetKind : SensitiveAction → TargetKind
  | sendSubmit | mailSeen | mailStarred | mailMove | mailArchive | mailSafeDelete => .operation
  | storeEnroll => .store
  | accountCreate | accountUpdate | accountRemove => .account
  | credentialSet | credentialDelete => .credential
  | credentialCleanup => .cleanup
  | policyUpdate => .policy
  | assuranceUpdate => .assurance
  | ownerRotate | recoveryRotate | ownerRecover => .trustEpoch
  | ambiguousClose => .remoteEffect

/-- `policy().effect_kind`. -/
def effectKind : SensitiveAction → EffectKind
  | sendSubmit => .smtpSubmit
  | mailSeen => .imapSeen
  | mailStarred => .imapStarred
  | mailMove => .imapMove
  | mailArchive => .imapArchive
  | mailSafeDelete => .imapSafeDelete
  | _ => .none

/-- `policy().required_role`. -/
def requiredRole : SensitiveAction → OwnerKeyRole
  | ownerRecover => .recovery
  | _ => .owner

/-- `policy().manifest_support == Supported`. -/
def supported : SensitiveAction → Bool
  | policyUpdate | assuranceUpdate => false
  | _ => true

/-- `from_code`. -/
def fromCode (code : Nat) : Option SensitiveAction := all.find? fun a => a.code == code

theorem fromCode_code (a : SensitiveAction) : fromCode a.code = some a := by
  cases a <;> rfl

theorem code_lt (a : SensitiveAction) : a.code < 2 ^ 16 := by
  cases a <;> decide

end SensitiveAction

namespace TargetKind

def code : TargetKind → Nat
  | operation => 1
  | store => 2
  | account => 3
  | credential => 4
  | cleanup => 5
  | policy => 6
  | assurance => 7
  | trustEpoch => 8
  | remoteEffect => 9

def fromCode : Nat → Option TargetKind
  | 1 => some .operation
  | 2 => some .store
  | 3 => some .account
  | 4 => some .credential
  | 5 => some .cleanup
  | 6 => some .policy
  | 7 => some .assurance
  | 8 => some .trustEpoch
  | 9 => some .remoteEffect
  | _ => none

theorem fromCode_code (k : TargetKind) : fromCode k.code = some k := by
  cases k <;> rfl

theorem code_lt (k : TargetKind) : k.code < 2 ^ 16 := by
  cases k <;> decide

theorem code_injective {k l : TargetKind} (h : k.code = l.code) : k = l := by
  have := congrArg fromCode h
  rw [fromCode_code, fromCode_code] at this
  exact Option.some.inj this

end TargetKind

def EffectKind.code : EffectKind → Nat
  | none => 0
  | smtpSubmit => 1
  | imapSeen => 2
  | imapStarred => 3
  | imapMove => 4
  | imapArchive => 5
  | imapSafeDelete => 6

def EffectKind.fromCode : Nat → Option EffectKind
  | 0 => some .none
  | 1 => some .smtpSubmit
  | 2 => some .imapSeen
  | 3 => some .imapStarred
  | 4 => some .imapMove
  | 5 => some .imapArchive
  | 6 => some .imapSafeDelete
  | _ => Option.none

theorem EffectKind.fromCode_code (k : EffectKind) : EffectKind.fromCode k.code = some k := by
  cases k <;> rfl

theorem EffectKind.code_lt (k : EffectKind) : k.code < 2 ^ 16 := by
  cases k <;> decide

def OwnerKeyRole.code : OwnerKeyRole → Nat
  | owner => 1
  | recovery => 2

/-! ## 4. Errors and keys -/

/-- `malformed`. -/
def malformed (message : String) : MailError := .stable .authorizationMalformed message

/-- `limit`. -/
def limit (message : String) : MailError := .stable .resourceLimit message

/-- `unsupported_action`. -/
def unsupportedAction : MailError :=
  .stable .unsupportedCapability "sensitive action has no supported manifest contract"

/-- The bytes of an ASCII literal. -/
def ascii (s : String) : Bytes := s.toList.map fun c => UInt8.ofNat c.toNat

/-- `as_bytes`: the UTF-8 bytes of a text. -/
def utf8 (s : String) : Bytes := s.toList.flatMap String.utf8EncodeChar

variable (env : Platform)

/-- `owner_key_id`. -/
def ownerKeyId (role : OwnerKeyRole) (publicKey : Bytes) : Digest :=
  env.sha256 (ascii "KIRJE-OWNER-KEY-V1\x00" ++ be 1 role.code ++ publicKey)

/-- `OwnerPublicKey::try_from`. -/
def ownerPublicKeyOk (key : Bytes) : Bool := env.isPoint key && !env.isWeak key

/-- `verify_authorization_signature`. -/
def verifyAuthorizationSignature (publicKey payload signature : Bytes) : Result Unit := do
  ensure (env.isPoint publicKey)
    (.stable .authorizationSignatureInvalid "owner public key is malformed")
  ensure (env.verifyStrict publicKey payload signature)
    (.stable .authorizationSignatureInvalid "authorization signature is invalid")

end Kirje
