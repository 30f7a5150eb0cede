import Kirje.Base.Utf8
import Kirje.Core.Error

/-
  File:      Kirje/Core/Input.lean
  Subject:   Bounded JSON input (crates/kirje-core/src/input.rs): the lexical
             pass over the bytes of a request, and `parse_bounded_json`.

  The source moves a cursor over the document; here each function takes the bytes
  from the cursor on and returns those after what it read.  The counters of the
  pass stay below the length of the document, so its overflow checks never fail and
  are left out.  `serde_json` comes in as two functions: the decoding of a field
  name and of the request.
-/

namespace Kirje

open Base

/-! ## 1. Strings -/

inductive InputShape where
  | send | draft | search | sync | localSearch | mailboxOperation | attachmentRead | messageRead
  | authorizationProof
  deriving DecidableEq, Repr

/-- The two search requests. -/
def InputShape.searches : InputShape → Bool
  | .search | .localSearch => true
  | _ => false

/-- `resource`. -/
def resource (message : String) : MailError := .stable .resourceLimit message

def incompleteError (message : String) : MailError := .stable .inputDocumentIncomplete message

/-- `skip_whitespace`. -/
def skipWhitespace (bytes : Bytes) : Bytes :=
  bytes.dropWhile fun b => b = byte ' ' ∨ b = byte '\n' ∨ b = byte '\r' ∨ b = byte '\t'

/-- `scan_json_string`, from behind the opening quote: the raw content, whether it has an escape,
    and what follows the closing quote. -/
def scanJsonString (escaped hasEscape : Bool) : Bytes → Result (Bytes × Bool × Bytes)
  | [] => .error (incompleteError "JSON string is incomplete")
  | b :: bytes =>
      if escaped then
        (scanJsonString false true bytes).map fun (raw, result) => (b :: raw, result)
      else if b = byte '\\' then
        (scanJsonString true hasEscape bytes).map fun (raw, result) => (b :: raw, result)
      else if b = byte '"' then .ok ([], hasEscape, bytes)
      else if b < 0x20 then .error (.invalid "JSON strings cannot contain control bytes")
      else (scanJsonString false hasEscape bytes).map fun (raw, result) => (b :: raw, result)

def isHexDigit (b : UInt8) : Bool :=
  (byte '0' ≤ b && b ≤ byte '9') || (byte 'a' ≤ b && b ≤ byte 'f') || (byte 'A' ≤ b && b ≤ byte 'F')

def hexValue (b : UInt8) : Nat :=
  if b ≤ byte '9' then b.toNat - 48 else if b ≤ byte 'F' then b.toNat - 55 else b.toNat - 87

/-- `parse_hex_unit`. -/
def parseHexUnit (digits : Bytes) : Result Nat := do
  ensure (digits.length = 4 ∧ digits.all isHexDigit) (.invalid "JSON Unicode escape is malformed")
  pure (digits.foldl (fun value digit => value * 16 + hexValue digit) 0)

/-- What follows a Unicode escape, from behind its letter. -/
def skipUnicodeEscape (bytes : Bytes) : Result Bytes := do
  ensure (4 ≤ bytes.length) (.invalid "JSON Unicode escape is incomplete")
  let unit ← parseHexUnit (bytes.take 4)
  let bytes := bytes.drop 4
  if 0xd800 ≤ unit ∧ unit ≤ 0xdbff then do
    ensure (6 ≤ bytes.length) (.invalid "JSON surrogate pair is incomplete")
    ensure (bytes.take 2 = [byte '\\', byte 'u']) (.invalid "JSON high surrogate is not paired")
    let low ← parseHexUnit ((bytes.take 6).drop 2)
    ensure (0xdc00 ≤ low ∧ low ≤ 0xdfff) (.invalid "JSON high surrogate has an invalid pair")
    pure (bytes.drop 6)
  else do
    ensure (¬(0xdc00 ≤ unit ∧ unit ≤ 0xdfff)) (.invalid "JSON low surrogate is not paired")
    pure bytes

/-- What follows an escape, from behind its backslash. -/
def skipEscape : Bytes → Result Bytes
  | [] => .error (.invalid "JSON escape is incomplete")
  | escape :: bytes =>
      if escape ∈ ['"', '\\', '/', 'b', 'f', 'n', 'r', 't'].map byte then .ok bytes
      else if escape = byte 'u' then skipUnicodeEscape bytes
      else .error (.invalid "JSON escape is malformed")

theorem length_skipUnicodeEscape {bytes rest : Bytes} (h : skipUnicodeEscape bytes = .ok rest) :
    rest.length < bytes.length := by
  simp only [skipUnicodeEscape, bind_ok, ensure_ok] at h
  obtain ⟨-, hfour, unit, -, h⟩ := h
  have hdrop : (bytes.drop 4).length < bytes.length := by
    rw [List.length_drop]
    omega
  split at h
  · simp only [bind_ok, ensure_ok, pure_ok] at h
    obtain ⟨-, -, -, -, _, -, -, -, rfl⟩ := h
    rw [List.length_drop]
    omega
  · simp only [bind_ok, ensure_ok, pure_ok] at h
    obtain ⟨-, -, rfl⟩ := h
    exact hdrop

theorem length_skipEscape {bytes rest : Bytes} (h : skipEscape bytes = .ok rest) :
    rest.length < bytes.length := by
  cases bytes with
  | nil => cases h
  | cons escape bytes =>
      rw [skipEscape] at h
      by_cases hsimple : escape ∈ ['"', '\\', '/', 'b', 'f', 'n', 'r', 't'].map byte
      · rw [if_pos hsimple] at h
        rw [Except.ok.inj h]
        exact Nat.lt_succ_self _
      · rw [if_neg hsimple] at h
        by_cases hu : escape = byte 'u'
        · rw [if_pos hu] at h
          exact Nat.lt_succ_of_lt (length_skipUnicodeEscape h)
        · rw [if_neg hu] at h
          cases h

/-- The loop of `decoded_json_string_chars` over the escapes and the segments between them. -/
def decodedChars (raw : Bytes) : Result Nat :=
  match raw with
  | [] => .ok 0
  | b :: bytes =>
      if b = byte '\\' then
        match h : skipEscape bytes with
        | .error e => .error e
        | .ok rest => (decodedChars rest).map (1 + ·)
      else do
        let segment := b :: bytes.takeWhile (· ≠ byte '\\')
        let characters ← orRefuse (charCount segment) (.invalid "JSON string is not UTF-8")
        (decodedChars (bytes.dropWhile (· ≠ byte '\\'))).map (characters + ·)
termination_by raw.length
decreasing_by
  · exact Nat.lt_succ_of_lt (length_skipEscape h)
  · exact Nat.lt_succ_of_le (List.dropWhile_suffix _).length_le

/-- `decoded_json_string_chars`. -/
def decodedJsonStringChars (raw : Bytes) : Result Nat :=
  if byte '\\' ∈ raw then decodedChars raw
  else orRefuse (charCount raw) (.invalid "JSON string is not UTF-8")

/-- How many characters a string may have under a field name. -/
def stringMaximum (shape : InputShape) (key : String) : Nat :=
  match key with
  | "subject" => if shape.searches then 1024 else 998
  | "from" | "to" => if shape.searches then 1024 else 262144
  | "text" => if shape.searches then 1024 else 262144
  | "html" | "sanitized_html" => 262144
  | "name" => 256
  | "email" => 320
  | "filename" => 255
  | "mime_type" => 127
  | "account_id" => 64
  | "mailbox" | "destination" => 4096
  | "part_id" => 128
  | "message_id" | "in_reply_to" => 998
  | "signature_base64url" => 86
  | "content_base64" => 4 * ((1048576 + 2) / 3)
  | _ => max 4096 262144

/-- `enforce_string_limit`. -/
def enforceStringLimit (shape : InputShape) (key : String) (raw : Bytes) (characters : Nat) :
    Result Unit :=
  ensure (¬(characters > stringMaximum shape key ∨ raw.length > stringMaximum shape key * 12))
    (resource "JSON string exceeds its field boundary")

def isBase64Byte (b : UInt8) : Bool :=
  (byte '0' ≤ b && b ≤ byte '9') || (byte 'A' ≤ b && b ≤ byte 'Z') ||
    (byte 'a' ≤ b && b ≤ byte 'z') || b == byte '+' || b == byte '/'

/-- The padding a Base64 text ends with. -/
def base64Padding (raw : Bytes) : Nat :=
  if [byte '=', byte '='] <:+ raw then 2 else if [byte '='] <:+ raw then 1 else 0

def base64Error : MailError := .invalid "attachment content is not canonical Base64"

/-- `canonical_base64_decoded_len`. -/
def canonicalBase64DecodedLen (raw : Bytes) : Result Nat :=
  if raw = [] then .ok 0
  else do
    ensure (raw.length % 4 = 0) base64Error
    let content := raw.length - base64Padding raw
    ensure ((raw.take content).all isBase64Byte ∧ (raw.drop content).all (· = byte '=')) base64Error
    pure (raw.length / 4 * 3 - base64Padding raw)

/-! ## 2. The lexical pass -/

inductive Container where
  | object (members : Nat)
  | array (field : Option String) (items maximum : Nat) (countsAsRecipient : Bool)
  deriving DecidableEq, Repr

/-- The state of the pass; the innermost container comes first. -/
structure Preflight where
  depth : Nat
  containers : List Container
  currentKey : Option String
  decodedAttachmentTotal : Nat
  recipientItems : Nat
  deriving DecidableEq, Repr

def Preflight.start : Preflight := ⟨0, [], none, 0, 0⟩

def isRecipients (field : Option String) : Bool :=
  field = some "to" || field = some "cc" || field = some "bcc"

/-- How many items an array may have. -/
def arrayMaximum (field : Option String) (topLevel : Bool) : Nat :=
  match field with
  | some "to" | some "cc" | some "bcc" => 50
  | some "attachments" => if topLevel then 25 else 100
  | some "from" | some "reply_to" | some "references" => 100
  | _ => 500

def mismatchError : MailError := .invalid "JSON delimiters are mismatched"

namespace Preflight

/-- A delimiter opens. -/
def enter (st : Preflight) (container : Container) : Result Preflight := do
  ensure (st.depth + 1 ≤ 32) (.stable .inputNestingLimit "JSON nesting exceeds the contract")
  pure { st with depth := st.depth + 1, containers := container :: st.containers }

/-- `[`, with the bytes behind it. -/
def enterArray (st : Preflight) (bytes : Bytes) : Result Preflight :=
  let topLevel := st.containers.length = 1
  let items := if (skipWhitespace bytes).head? = some (byte ']') then 0 else 1
  st.enter (.array st.currentKey items (arrayMaximum st.currentKey topLevel)
    (topLevel && isRecipients st.currentKey))

/-- `}`. -/
def leaveObject (st : Preflight) : Result Preflight :=
  match st.containers with
  | .object _ :: containers => .ok { st with depth := st.depth - 1, containers := containers }
  | _ => .error mismatchError

/-- `]`. -/
def leaveArray (st : Preflight) : Result Preflight :=
  match st.containers with
  | .array field items maximum countsAsRecipient :: containers => do
      ensure (items ≤ maximum) (resource "JSON sequence exceeds its item boundary")
      let counted := countsAsRecipient && isRecipients field
      checkIf counted (ensure (st.recipientItems + items ≤ 50)
        (resource "recipient lists exceed their combined boundary"))
      pure { st with
        depth := st.depth - 1
        containers := containers
        recipientItems := st.recipientItems + if counted then items else 0 }
  | _ => .error mismatchError

/-- `,`. -/
def comma (st : Preflight) : Result Preflight :=
  match st.containers with
  | .array field items maximum countsAsRecipient :: containers => do
      ensure (items + 1 ≤ maximum) (resource "JSON sequence exceeds its item boundary")
      pure { st with containers := .array field (items + 1) maximum countsAsRecipient :: containers }
  | _ => .ok st

/-- A string before a colon. -/
def fieldName (decodeKey : Bytes → Option String) (st : Preflight) (raw : Bytes) :
    Result Preflight := do
  ensure (raw.length ≤ 128) (resource "JSON field name exceeds the boundary")
  let key ← orRefuse (decodeKey (byte '"' :: raw ++ [byte '"']))
    (.invalid "JSON field name is malformed")
  match st.containers with
  | .object members :: containers => do
      ensure (members + 1 ≤ 128) (resource "JSON object has too many members")
      pure { st with currentKey := some key, containers := .object (members + 1) :: containers }
  | _ => pure { st with currentKey := some key }

/-- Another string. -/
def text (shape : InputShape) (st : Preflight) (raw : Bytes) (hasEscape : Bool) :
    Result Preflight :=
  match st.currentKey with
  | none => .ok st
  | some key => do
      let characters ← decodedJsonStringChars raw
      enforceStringLimit shape key raw characters
      if key = "content_base64" then do
        ensure (hasEscape = false) (.invalid "attachment Base64 cannot use JSON escapes")
        let decoded ← canonicalBase64DecodedLen raw
        ensure (decoded ≤ 1048576) (resource "one attachment exceeds its decoded byte budget")
        ensure (st.decodedAttachmentTotal + decoded ≤ 8388608)
          (resource "attachments exceed the decoded-total byte budget")
        pure { st with decodedAttachmentTotal := st.decodedAttachmentTotal + decoded }
      else pure st

/-- A byte that starts no string, with the bytes behind it. -/
def symbol (st : Preflight) (b : UInt8) (bytes : Bytes) : Result Preflight :=
  if b = byte '\x7b' then st.enter (.object 0)
  else if b = byte '[' then st.enterArray bytes
  else if b = byte '\x7d' then st.leaveObject
  else if b = byte ']' then st.leaveArray
  else if b = byte ',' then st.comma
  else .ok st

/-- A string, with what follows it. -/
def string (decodeKey : Bytes → Option String) (shape : InputShape) (st : Preflight) (raw : Bytes)
    (hasEscape : Bool) (rest : Bytes) : Result Preflight :=
  if (skipWhitespace rest).head? = some (byte ':') then st.fieldName decodeKey raw
  else st.text shape raw hasEscape

end Preflight

theorem length_scanJsonString {escaped hasEscape : Bool} {bytes raw rest : Bytes} {escape : Bool}
    (h : scanJsonString escaped hasEscape bytes = .ok (raw, escape, rest)) :
    rest.length < bytes.length := by
  induction bytes generalizing escaped hasEscape raw with
  | nil => cases h
  | cons b bytes ih =>
      have hmap : ∀ {escaped hasEscape : Bool},
          (scanJsonString escaped hasEscape bytes).map (fun (raw, result) => (b :: raw, result)) =
            .ok (raw, escape, rest) → rest.length < (b :: bytes).length := by
        intro escaped hasEscape hm
        obtain ⟨⟨raw', escape', rest'⟩, hscan, hpair⟩ := map_ok.mp hm
        simp only [Prod.mk.injEq] at hpair
        obtain ⟨-, rfl, rfl⟩ := hpair
        exact Nat.lt_succ_of_lt (ih hscan)
      unfold scanJsonString at h
      split at h
      · exact hmap h
      · split at h
        · exact hmap h
        · split at h
          · simp only [Except.ok.injEq, Prod.mk.injEq] at h
            obtain ⟨-, -, rfl⟩ := h
            exact Nat.lt_succ_self _
          · split at h
            · cases h
            · exact hmap h

/-- The loop of `lexical_preflight`. -/
def preflightFrom (decodeKey : Bytes → Option String) (shape : InputShape) (st : Preflight)
    (bytes : Bytes) : Result Preflight :=
  match bytes with
  | [] => .ok st
  | b :: bytes =>
      if b = byte '"' then
        match _h : scanJsonString false false bytes with
        | .error e => .error e
        | .ok (raw, hasEscape, rest) => do
            let st ← st.string decodeKey shape raw hasEscape rest
            preflightFrom decodeKey shape st rest
      else do
        let st ← st.symbol b bytes
        preflightFrom decodeKey shape st bytes
termination_by bytes.length
decreasing_by
  · exact Nat.lt_succ_of_lt (length_scanJsonString _h)
  · exact Nat.lt_succ_self _

/-- `lexical_preflight`. -/
def lexicalPreflight (decodeKey : Bytes → Option String) (shape : InputShape) (bytes : Bytes) :
    Result Unit := do
  let st ← preflightFrom decodeKey shape .start bytes
  ensure (st.containers = []) (incompleteError "JSON document is incomplete")

/-! ## 3. Requests -/

/-- What the sealed trait fixes for a request type. -/
structure BoundedInput (α : Type) where
  shape : InputShape
  maxBytes : Nat
  validateInput : α → Result Unit

/-- `serde_json` for one request type: the value at the start of a document and what follows it,
    and the field name between two quotes. -/
structure Deserializer (α : Type) where
  deserialize : Bytes → Option (α × Bytes)
  fieldName : Bytes → Option String

/-- `parse_bounded_json`. -/
def parseBoundedJson {α : Type} (input : BoundedInput α) (serde : Deserializer α) (bytes : Bytes) :
    Result α := do
  ensure (bytes.length ≤ input.maxBytes) (resource "input document exceeds its byte budget")
  lexicalPreflight serde.fieldName input.shape bytes
  let (value, rest) ← orRefuse (serde.deserialize bytes)
    (.invalid "JSON input does not match the request contract")
  ensure (skipWhitespace rest = []) (.invalid "JSON input contains trailing data")
  input.validateInput value
  pure value

end Kirje
