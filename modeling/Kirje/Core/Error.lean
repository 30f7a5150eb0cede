import Kirje.Base.Check

/-
  File:      Kirje/Core/Error.lean
  Subject:   `MailError`, the one error type of every crate
             (crates/kirje-core/src/mail.rs).
-/

namespace Kirje

/-- The stable error codes. -/
inductive MailErrorCode where
  | invalidInput | accountNotFound | accountAlreadyExists | accountIdentityConflict
  | accountUpdateConflict | configRead | configWrite | configStoreIdentityConflict
  | configMigrationFailed | configVersionUnsupported | configConcurrentUpdate | secretMissing
  | secretStoreUnavailable | credentialLegacyQuarantined | credentialReentryRequired
  | credentialBindingInvalid | credentialCleanupInvalid | secureFileSemanticsUnsupported
  | ownerAuthorizationRequired | ownerTrustNotConfigured | ownerRecoveryRequired
  | ownerKeyInactive | trustEpochStale | trustBundleMismatch | clockRollbackDetected
  | authorizationRequired | authorizationExpired | authorizationInvalidated
  | authorizationMalformed | authorizationSignatureInvalid | authorizationReplayed
  | authorizationContextStale | grantAlreadyUsed | effectAlreadyClaimed | effectAlreadyInvoked
  | authorityProjectionConflict | unsupportedCapability | inputNotRegularFile
  | inputLinkRejected | inputDocumentIncomplete | inputNestingLimit | mcpFrameTooLarge
  | mcpRequestIdInvalid | mcpDuplicateRequestId | mcpSessionBusy | mcpOutputTooLarge
  | remoteResponseTooLarge | remoteCapabilityIncomplete | network | tls | authentication
  | protocol | messageNotFound | attachmentNotFound | resourceLimit | storeRead | storeWrite
  | storeMigration | sendPlanNotFound | sendPlanState | internal
  deriving DecidableEq, Repr

/-- Whether a caller may retry unless told otherwise. -/
def MailErrorCode.retryableByDefault : MailErrorCode → Bool
  | .network | .tls | .protocol | .storeRead | .storeWrite | .secretStoreUnavailable => true
  | _ => false

/-- A stable error with its text. -/
structure MailError where
  code : MailErrorCode
  message : String
  retryable : Bool
  deriving DecidableEq, Repr

namespace MailError

def new (code : MailErrorCode) (message : String) (retryable : Bool) : MailError :=
  ⟨code, message, retryable && code.retryableByDefault⟩

def stable (code : MailErrorCode) (message : String) : MailError :=
  new code message code.retryableByDefault

def invalid (message : String) : MailError := new .invalidInput message false

end MailError

/-- The result type of the code. -/
abbrev Result (α : Type) := Except MailError α

end Kirje
