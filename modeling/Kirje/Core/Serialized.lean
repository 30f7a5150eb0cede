import Kirje.Core.Draft
import Kirje.Core.Review

/-
  File:      Kirje/Core/Serialized.lean
  Subject:   The JSON of addresses, requests and messages, as `serde_json` writes
             them, and what the review says of their parts.

  A field of a request is reviewed under its own name, and the name of its last field
  stays behind it; the next field of the outer object replaces it.
-/

namespace Kirje

open Base

/-! ## 1. The JSON of the data -/

def optionJson {α : Type} (json : α → JsonValue) (o : Option α) : JsonValue := o.elim .null json

/-- The JSON of an address. -/
def addressJson (a : MailAddress) : JsonValue :=
  .object [("name", a.name.elim .null .string), ("email", .string a.email)]

def addressListJson (addresses : List MailAddress) : JsonValue := .array (addresses.map addressJson)

def SendAttachment.json (a : SendAttachment) : JsonValue :=
  .object [("filename", .string a.filename), ("mime_type", .string a.mimeType),
    ("content_base64", .string a.contentBase64)]

/-- The JSON of a send request. -/
def SendRequest.json (r : SendRequest) : JsonValue :=
  .object [("account_id", .string r.accountId), ("to", addressListJson r.toAddrs),
    ("cc", addressListJson r.cc), ("bcc", addressListJson r.bcc), ("subject", .string r.subject),
    ("text", optionJson .string r.text), ("html", optionJson .string r.html),
    ("attachments", .array (r.attachments.map SendAttachment.json))]

def MessageReference.json (r : MessageReference) : JsonValue :=
  .object [("account_id", .string r.accountId), ("mailbox", .string r.mailbox),
    ("uid_validity", optionJson .number r.uidValidity), ("uid", .number r.uid)]

def AttachmentMetadata.json (a : AttachmentMetadata) : JsonValue :=
  .object [("part_id", .string a.partId), ("filename", optionJson .string a.filename),
    ("mime_type", .string a.mimeType), ("size", .number a.size)]

/-- The JSON of a message, for the text of a time. -/
def MessageContent.json (timeText : DateTime → String) (m : MessageContent) : JsonValue :=
  .object [("reference", m.reference.json), ("message_id", optionJson .string m.messageId),
    ("subject", .string m.subject), ("from", addressListJson m.fromAddrs),
    ("to", addressListJson m.toAddrs), ("cc", addressListJson m.cc),
    ("reply_to", addressListJson m.replyTo),
    ("sent_at", optionJson (fun t => .string (timeText t)) m.sentAt),
    ("text", optionJson .string m.text), ("sanitized_html", optionJson .string m.sanitizedHtml),
    ("attachments", .array (m.attachments.map AttachmentMetadata.json)),
    ("untrusted", .bool m.untrusted), ("truncated", .bool m.truncated)]

/-- The serialized name of a draft mode. -/
def draftModeName : DraftMode → String
  | .new => "new"
  | .reply => "reply"
  | .replyAll => "reply_all"
  | .forward => "forward"

/-- The JSON of a draft input. -/
def DraftInput.json (timeText : DateTime → String) (input : DraftInput) : JsonValue :=
  .object [("account_id", .string input.accountId), ("mode", .string (draftModeName input.mode)),
    ("source", optionJson (MessageContent.json timeText) input.source),
    ("to", addressListJson input.toAddrs), ("cc", addressListJson input.cc),
    ("bcc", addressListJson input.bcc), ("subject", optionJson .string input.subject),
    ("text", optionJson .string input.text), ("html", optionJson .string input.html),
    ("attachments", .array (input.attachments.map SendAttachment.json))]

/-! ## 2. Fields -/

/-- The field names are read back. -/
def ReadsNames (decodeKey : Bytes → Option String) : Prop :=
  ∀ name : String, (∀ c ∈ name.toList, ¬special c) → decodeKey (encodeUtf8 (quoted name)) = some name

/-- A short name without special characters. -/
def PlainName (name : String) : Prop := name.toList.length ≤ 32 ∧ ∀ c ∈ name.toList, ¬special c

instance : DecidablePred PlainName := fun name =>
  have : Decidable (∀ c ∈ name.toList, ¬special c) := List.decidableBAll _ _
  inferInstanceAs (Decidable (name.toList.length ≤ 32 ∧ ∀ c ∈ name.toList, ¬special c))

section Fields

variable {decodeKey : Bytes → Option String} {shape : InputShape}

theorem readName_plain (h : ReadsNames decodeKey) {name : String} (hname : PlainName name) :
    readName decodeKey name = some name := by
  have hlen := length_encodeUtf8_le name.toList
  simp only [readName, Option.bind_eq_bind, Option.bind_eq_some_iff, guard_some]
  refine ⟨(), ?_, h name hname.2⟩
  rw [escape_plain hname.2]
  have := hname.1
  omega

/-- A member is reviewed under its name. -/
theorem reviewMembers_cons (h : ReadsNames decodeKey) {name : String} (hname : PlainName name)
    {level : Nat} {v : JsonValue} {members : List (String × JsonValue)} {t : Tally} :
    reviewMembers decodeKey shape level ((name, v) :: members) t =
      (reviewValue decodeKey shape level v ⟨some name, t.attachments, t.recipients⟩).bind
        (reviewMembers decodeKey shape level members) := by
  simp [reviewMembers, readName_plain h hname]

theorem reviewMembers_nil {level : Nat} {t : Tally} :
    reviewMembers decodeKey shape level [] t = some t := rfl

theorem review_number {level n : Nat} {t : Tally} :
    reviewValue decodeKey shape level (.number n) t = some t := rfl

theorem review_bool {level : Nat} {b : Bool} {t : Tally} :
    reviewValue decodeKey shape level (.bool b) t = some t := rfl

/-- A text under a name other than that of attachment content. -/
theorem review_text {key : String} (hkey : key ≠ "content_base64") {level : Nat} {s : String}
    {attachments recipients : Nat} {t' : Tally} :
    reviewValue decodeKey shape level (.string s) ⟨some key, attachments, recipients⟩ = some t' ↔
      s.length ≤ stringMaximum shape key ∧ ⟨some key, attachments, recipients⟩ = t' := by
  simp only [reviewValue, Tally.text, if_neg hkey, Option.bind_eq_bind, Option.bind_eq_some_iff,
    guard_some, Option.some.injEq]
  refine ⟨fun h => ?_, fun h => ⟨(), h⟩⟩
  obtain ⟨-, h⟩ := h
  exact h

theorem review_optionalText {key : String} (hkey : key ≠ "content_base64") {level : Nat}
    {o : Option String} {attachments recipients : Nat} {t' : Tally} :
    reviewValue decodeKey shape level (optionJson .string o) ⟨some key, attachments, recipients⟩ =
        some t' ↔
      (∀ s ∈ o, s.length ≤ stringMaximum shape key) ∧ ⟨some key, attachments, recipients⟩ = t' := by
  cases o with
  | none => simp [optionJson, reviewValue]
  | some s => simp [optionJson, review_text hkey]

theorem review_object {level : Nat} (hlevel : level < 32) {members : List (String × JsonValue)}
    (hlen : members.length ≤ 128) {t : Tally} :
    reviewValue decodeKey shape level (.object members) t =
      reviewMembers decodeKey shape (level + 1) members t := by
  simp [reviewValue, guard, hlevel, hlen]

/-- **An array**, when its maximum is kept. -/
theorem review_array {level : Nat} (hlevel : level < 32) {items : List JsonValue} {t t' : Tally} :
    reviewValue decodeKey shape level (.array items) t = some t' ↔
      items.length ≤ arrayMaximum t.key (level = 1) ∧
        ∃ u, reviewItems decodeKey shape (level + 1) items t = some u ∧
          u.receive (level = 1 && isRecipients t.key) items.length = some t' := by
  simp only [reviewValue, Option.bind_eq_bind, Option.bind_eq_some_iff, guard_some]
  refine ⟨fun h => ?_, fun h => ?_⟩
  · obtain ⟨-, ⟨-, hmax⟩, h⟩ := h
    exact ⟨hmax, h⟩
  · obtain ⟨hmax, h⟩ := h
    exact ⟨(), ⟨hlevel, hmax⟩, h⟩

/-- **An address**: its name and its email have their own limits. -/
theorem review_address (h : ReadsNames decodeKey) {level : Nat} (hlevel : level < 32)
    {a : MailAddress} {t t' : Tally} :
    reviewValue decodeKey shape level (addressJson a) t = some t' ↔
      ((∀ s ∈ a.name, s.length ≤ 256) ∧ a.email.length ≤ 320) ∧
        ⟨some "email", t.attachments, t.recipients⟩ = t' := by
  have hname : a.name.elim .null .string = optionJson .string a.name := rfl
  rw [addressJson, review_object hlevel (by simp), hname]
  simp only [reviewMembers_cons h (by decide : PlainName "name"),
    reviewMembers_cons h (by decide : PlainName "email"), reviewMembers_nil, Option.bind_eq_some_iff,
    review_optionalText (by decide : "name" ≠ "content_base64"),
    review_text (by decide : "email" ≠ "content_base64"), Option.some.injEq]
  constructor
  · rintro ⟨_, ⟨hname, rfl⟩, _, ⟨hemail, rfl⟩, rfl⟩
    exact ⟨⟨hname, hemail⟩, rfl⟩
  · rintro ⟨⟨hname, hemail⟩, rfl⟩
    exact ⟨_, ⟨hname, rfl⟩, _, ⟨hemail, rfl⟩, rfl⟩

/-- The limits of an address. -/
def MailAddress.Fits (a : MailAddress) : Prop :=
  (∀ s ∈ a.name, s.length ≤ 256) ∧ a.email.length ≤ 320

/-- Items that each leave the key `last` and the totals. -/
theorem review_items {α : Type} {json : α → JsonValue} {ok : α → Prop} {last : String} {level : Nat}
    (hitem : ∀ a t t', reviewValue decodeKey shape level (json a) t = some t' ↔
      ok a ∧ ⟨some last, t.attachments, t.recipients⟩ = t') (items : List α) {t t' : Tally} :
    reviewItems decodeKey shape level (items.map json) t = some t' ↔ (∀ a ∈ items, ok a) ∧
      ⟨if items = [] then t.key else some last, t.attachments, t.recipients⟩ = t' := by
  induction items generalizing t with
  | nil => simp [reviewItems]
  | cons a items ih =>
      simp only [List.map_cons, reviewItems, Option.bind_eq_bind, Option.bind_eq_some_iff, hitem, ih]
      constructor
      · rintro ⟨_, ⟨ha, rfl⟩, hitems, rfl⟩
        exact ⟨List.forall_mem_cons.mpr ⟨ha, hitems⟩, by simp⟩
      · rintro ⟨hall, rfl⟩
        obtain ⟨ha, hitems⟩ := List.forall_mem_cons.mp hall
        exact ⟨_, ⟨ha, rfl⟩, hitems, by simp⟩

/-- **A list of addresses** under its name. -/
theorem review_addresses (h : ReadsNames decodeKey) {level : Nat} (hlevel : level + 1 < 32)
    {field : String} {addresses : List MailAddress} {attachments recipients : Nat} {t' : Tally} :
    reviewValue decodeKey shape level (addressListJson addresses)
        ⟨some field, attachments, recipients⟩ = some t' ↔
      addresses.length ≤ arrayMaximum (some field) (level = 1) ∧ (∀ a ∈ addresses, a.Fits) ∧
        (⟨if addresses = [] then some field else some "email", attachments, recipients⟩ : Tally).receive
          (level = 1 && isRecipients (some field)) addresses.length = some t' := by
  have hitems := @review_items decodeKey shape _ addressJson MailAddress.Fits "email" (level + 1)
    (fun _ _ _ => review_address h hlevel) addresses
  rw [addressListJson, review_array (by omega)]
  simp only [hitems, List.length_map]
  constructor
  · rintro ⟨hmax, _, ⟨hall, rfl⟩, ht⟩
    exact ⟨hmax, hall, ht⟩
  · rintro ⟨hmax, hall, ht⟩
    exact ⟨hmax, _, ⟨hall, rfl⟩, ht⟩

end Fields

end Kirje
