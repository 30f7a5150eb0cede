import Kirje.Core.ReplyAll
import Kirje.Core.Serialized

/-
  File:      Kirje/Core/Requests.lean
  Subject:   Send requests as bounded JSON input: what the request contract accepts,
             the lexical pass lets through.

  Each limit of `SendRequest::validate` lies within the budget of the pass for the same
  field.  The lists share one budget of recipients, the attachments one of bytes.

  * **`send_request_reads_back`**: the JSON of a valid request within the byte budget is
    read back as the request.
-/

namespace Kirje

open Base

/-! ## 1. The request contract -/

section Contract

variable {env : External}

/-- `bounded_input!` of a send request. -/
def SendRequest.input (env : External) : BoundedInput SendRequest where
  shape := .send
  maxBytes := 25165824
  validateInput := SendRequest.validate env

/-- Base64 decoding is the standard one: it accepts the text that encodes the bytes, and no other. -/
def StandardBase64 (decode : String → Option Bytes) : Prop :=
  ∀ s bytes, decode s = some bytes → s.toList = base64 bytes

theorem validateAddress_fits {a : MailAddress} (h : validateAddress a = .ok ()) : a.Fits := by
  simp only [validateAddress, bind_ok, ensure_ok, Bool.or_eq_true, not_or, Bool.not_eq_true] at h
  obtain ⟨_, -, ⟨⟨⟨-, hbytes⟩, -⟩, -⟩, hname⟩ := h
  have hlen := length_le_utf8ByteSize a.email
  constructor
  · intro s hs
    rw [Option.mem_def.mp hs] at hname
    simp only [Option.any_some, Bool.or_eq_false_iff, decide_eq_false_iff_not] at hname
    omega
  · simp only [gt_iff_lt, decide_eq_false_iff_not] at hbytes
    omega

/-- The limits of an attachment and its bytes. -/
structure SendAttachment.Holds (env : External) (a : SendAttachment) (bytes : Bytes) : Prop where
  filename : a.filename.length ≤ 255
  mimeType : a.mimeType.length ≤ 127
  encoded : a.contentBase64.length ≤ 4 * ((1048576 + 2) / 3)
  decoded : env.base64 a.contentBase64 = some bytes
  size : bytes.length ≤ 1048576

theorem SendAttachment.validate_holds {a : SendAttachment} {bytes : Bytes}
    (h : a.validate env = .ok bytes) : a.Holds env bytes := by
  simp only [SendAttachment.validate, bind_ok, ensure_ok, orRefuse_ok, pure_ok, Bool.or_eq_true, not_or,
    Bool.not_eq_true, gt_iff_lt, decide_eq_true_eq] at h
  obtain ⟨-, hmeta, -, hencoded, _, hdecoded, -, hsize, rfl⟩ := h
  have hlen := length_le_utf8ByteSize a.contentBase64
  obtain ⟨⟨⟨⟨⟨⟨⟨-, hfilename⟩, -⟩, -⟩, -⟩, hmime⟩, -⟩, -⟩ := hmeta
  exact ⟨by omega, by omega, by omega, hdecoded, hsize⟩

/-- The limits of a request. -/
structure SendRequest.Fits (env : External) (r : SendRequest) : Prop where
  accountId : r.accountId.length ≤ 64
  recipients : r.toAddrs.length + r.cc.length + r.bcc.length ≤ 50
  addresses : ∀ a ∈ r.toAddrs ++ r.cc ++ r.bcc, a.Fits
  subject : r.subject.length ≤ 998
  text : ∀ s ∈ r.text, s.length ≤ 262144
  html : ∀ s ∈ r.html, s.length ≤ 262144
  attachments : r.attachments.length ≤ 25
  contents : validateAttachments env 0 r.attachments = .ok ()

theorem SendRequest.validate_fits {r : SendRequest} (h : r.validate env = .ok ()) : r.Fits env := by
  simp only [SendRequest.validate, bind_ok, ensure_ok, checkAll_ok, Bool.or_eq_true, not_or] at h
  obtain ⟨-, haccount, -, -, -, hrecipients, -, haddresses, -, hsubject, -, -, -, hbodies, -, hcount,
    hcontents⟩ := h
  have hbody : ∀ {o : Option String}, ¬o.any (fun s => decide (s.length > 262144)) = true →
      ∀ s ∈ o, s.length ≤ 262144 := by
    intro o ho s hs
    rw [Option.mem_def.mp hs] at ho
    simpa using ho
  have hlen := length_le_utf8ByteSize r.accountId
  simp only [validAccountId, Bool.and_eq_true, decide_eq_true_eq] at haccount
  exact ⟨by omega, hrecipients, fun a ha => validateAddress_fits (haddresses a ha), hsubject.1,
    hbody hbodies.1, hbody hbodies.2, hcount, hcontents⟩

/-! ## 2. The review of a request -/

section Review

variable {decodeKey : Bytes → Option String}

/-- **A valid attachment adds its bytes to the total.** -/
theorem review_sendAttachment (h : ReadsNames decodeKey) (hbase64 : StandardBase64 env.base64)
    {level : Nat} (hlevel : level < 32) {a : SendAttachment} {bytes : Bytes} (ha : a.Holds env bytes)
    {t : Tally} (htotal : t.attachments + bytes.length ≤ 8388608) :
    reviewValue decodeKey .send level a.json t =
      some ⟨some "content_base64", t.attachments + bytes.length, t.recipients⟩ := by
  have hcontent : reviewValue decodeKey .send (level + 1) (.string a.contentBase64)
      ⟨some "content_base64", t.attachments, t.recipients⟩ =
        some ⟨some "content_base64", t.attachments + bytes.length, t.recipients⟩ := by
    have htext := hbase64 _ _ ha.decoded
    simp only [reviewValue, Tally.text, if_pos, Option.bind_eq_bind, Option.bind_eq_some_iff, guard_some,
      toOption_eq_some, htext, canonicalBase64DecodedLen_base64]
    refine ⟨(), ha.encoded, (), ?_, bytes.length, rfl, (), ha.size, (), htotal, rfl⟩
    simpa using (base64_plain bytes).1
  rw [SendAttachment.json, review_object hlevel (by simp)]
  simp only [reviewMembers_cons h (by decide : PlainName "filename"),
    reviewMembers_cons h (by decide : PlainName "mime_type"),
    reviewMembers_cons h (by decide : PlainName "content_base64"), Option.bind_eq_some_iff,
    review_text (by decide : "filename" ≠ "content_base64"),
    review_text (by decide : "mime_type" ≠ "content_base64")]
  exact ⟨_, ⟨ha.filename, rfl⟩, _, ⟨ha.mimeType, rfl⟩, _, hcontent, rfl⟩

/-- **The attachments of a valid request stay within the budget of the pass.** -/
theorem review_sendAttachments (h : ReadsNames decodeKey) (hbase64 : StandardBase64 env.base64)
    {level : Nat} (hlevel : level < 32) {attachments : List SendAttachment} {t : Tally}
    (hvalid : validateAttachments env t.attachments attachments = .ok ()) :
    ∃ t', reviewItems decodeKey .send level (attachments.map SendAttachment.json) t = some t' ∧
      t'.recipients = t.recipients := by
  induction attachments generalizing t with
  | nil => exact ⟨t, rfl, rfl⟩
  | cons a attachments ih =>
      simp only [validateAttachments, bind_ok, ensure_ok] at hvalid
      obtain ⟨bytes, hbytes, -, -, -, htotal, hrest⟩ := hvalid
      have ha := review_sendAttachment h hbase64 hlevel (SendAttachment.validate_holds hbytes) htotal
      obtain ⟨t', ht', hkept⟩ :=
        ih (t := ⟨some "content_base64", t.attachments + bytes.length, t.recipients⟩) hrest
      refine ⟨t', ?_, hkept⟩
      simp only [List.map_cons, reviewItems, ha, Option.bind_eq_bind, Option.bind_some, ht']

/-- A list of recipients within what is left of their budget. -/
theorem review_recipients (h : ReadsNames decodeKey) {shape : InputShape} {field : String}
    (hfield : isRecipients (some field)) {addresses : List MailAddress} (hall : ∀ a ∈ addresses, a.Fits)
    {attachments recipients : Nat} (htotal : recipients + addresses.length ≤ 50) :
    ∃ key, reviewValue decodeKey shape 1 (addressListJson addresses)
        ⟨some field, attachments, recipients⟩ =
      some ⟨key, attachments, recipients + addresses.length⟩ := by
  have hmaximum : arrayMaximum (some field) true = 50 := by
    simp only [isRecipients, Bool.or_eq_true, decide_eq_true_eq, Option.some.injEq] at hfield
    rcases hfield with (rfl | rfl) | rfl <;> rfl
  refine ⟨if addresses = [] then some field else some "email",
    (review_addresses h (by decide)).mpr ⟨?_, hall, ?_⟩⟩
  · rw [decide_eq_true rfl, hmaximum]
    omega
  · simp [Tally.receive, hfield, guard, htotal]

/-- **The review admits every request within its limits.** -/
theorem review_sendRequest (h : ReadsNames decodeKey) (hbase64 : StandardBase64 env.base64)
    {r : SendRequest} (hr : r.Fits env) :
    ∃ t, reviewValue decodeKey .send 0 r.json .start = some t := by
  have hsum := hr.recipients
  have haddresses := hr.addresses
  simp only [List.forall_mem_append] at haddresses
  obtain ⟨⟨hto, hcc⟩, hbcc⟩ := haddresses
  obtain ⟨keyTo, hto⟩ := @review_recipients decodeKey h .send "to" (by decide) _ hto 0 0 (by omega)
  obtain ⟨keyCc, hcc⟩ := @review_recipients decodeKey h .send "cc" (by decide) _ hcc 0
    (0 + r.toAddrs.length) (by omega)
  obtain ⟨keyBcc, hbcc⟩ := @review_recipients decodeKey h .send "bcc" (by decide) _ hbcc 0
    (0 + r.toAddrs.length + r.cc.length) (by omega)
  obtain ⟨last, hlast, -⟩ := @review_sendAttachments env decodeKey h hbase64 2 (by decide) r.attachments
    ⟨some "attachments", 0, 0 + r.toAddrs.length + r.cc.length + r.bcc.length⟩ hr.contents
  have hattachments : reviewValue decodeKey .send 1 (.array (r.attachments.map SendAttachment.json))
      ⟨some "attachments", 0, 0 + r.toAddrs.length + r.cc.length + r.bcc.length⟩ = some last := by
    refine (review_array (by decide)).mpr ⟨?_, last, hlast, rfl⟩
    rw [List.length_map]
    exact hr.attachments
  rw [SendRequest.json, review_object (by decide) (by simp)]
  simp only [reviewMembers_cons h (by decide : PlainName "account_id"),
    reviewMembers_cons h (by decide : PlainName "to"),
    reviewMembers_cons h (by decide : PlainName "cc"),
    reviewMembers_cons h (by decide : PlainName "bcc"),
    reviewMembers_cons h (by decide : PlainName "subject"),
    reviewMembers_cons h (by decide : PlainName "text"),
    reviewMembers_cons h (by decide : PlainName "html"),
    reviewMembers_cons h (by decide : PlainName "attachments"), reviewMembers_nil,
    Option.bind_eq_some_iff, review_text (by decide : "account_id" ≠ "content_base64"),
    review_text (by decide : "subject" ≠ "content_base64"),
    review_optionalText (by decide : "text" ≠ "content_base64"),
    review_optionalText (by decide : "html" ≠ "content_base64")]
  exact ⟨last, _, ⟨hr.accountId, rfl⟩, _, hto, _, hcc, _, hbcc, _, ⟨hr.subject, rfl⟩, _, ⟨hr.text, rfl⟩, _,
    ⟨hr.html, rfl⟩, _, hattachments, rfl⟩

end Review

end Contract

/-! ## 3. Reading a request back -/

/-- **The JSON of a valid request is read back as the request.** -/
theorem send_request_reads_back (env : External) (serde : Deserializer SendRequest)
    (hbase64 : StandardBase64 env.base64) (hnames : ReadsNames serde.fieldName) (r : SendRequest)
    (hserde : serde.deserialize (encodeUtf8 r.json.chars) = some (r, []))
    (hvalid : r.validate env = .ok ()) (hsize : (encodeUtf8 r.json.chars).length ≤ 25165824) :
    parseBoundedJson (SendRequest.input env) serde (encodeUtf8 r.json.chars) = .ok r := by
  have hreview := review_sendRequest hnames hbase64 (SendRequest.validate_fits hvalid)
  have hpreflight := (@lexicalPreflight_chars serde.fieldName .send r.json).mpr hreview
  simp only [parseBoundedJson, bind_ok, ensure_ok, orRefuse_ok, pure_ok, hserde]
  exact ⟨(), hsize, (), hpreflight, _, rfl, (), rfl, (), hvalid, rfl⟩

/-- The text between two quotes. -/
def betweenQuotes (bytes : Bytes) : Option String :=
  String.fromUTF8? (bytes.drop 1).dropLast.toByteArray

theorem readsNames_betweenQuotes : ReadsNames betweenQuotes := by
  intro name hname
  have hquote : String.utf8EncodeChar '"' = [byte '"'] := utf8EncodeChar_ascii (by decide)
  have hbytes : ((encodeUtf8 (quoted name)).drop 1).dropLast = encodeUtf8 name.toList := by
    rw [quoted, escape_plain hname, List.cons_append, encodeUtf8_cons, encodeUtf8_append, encodeUtf8_cons,
      hquote, encodeUtf8_nil]
    simp
  have hname : (encodeUtf8 name.toList).toByteArray = name.toByteArray := by
    have h : (String.ofList name.toList).toByteArray = name.toList.utf8Encode :=
      String.toByteArray_ofList
    rw [String.ofList_toList] at h
    exact h.symm
  rw [betweenQuotes, hbytes, hname, String.fromUTF8?, dif_pos name.isValidUTF8]
  rfl

namespace RequestSample

def env : External :=
  { ReplySample.env with
    base64 := fun s => if s = "aGk=" then some [104, 105] else none }

/-- A request with a quote, a line break and an attachment. -/
def request : SendRequest where
  accountId := "me"
  toAddrs := [⟨some "Ann \"A\"", "ann@a.org"⟩]
  cc := []
  bcc := []
  subject := "Hi"
  text := some "One\nTwo"
  html := none
  attachments := [⟨"hi.txt", "text/plain", "aGk="⟩]

/-- What is read of the JSON of one request. -/
def serde (r : SendRequest) : Deserializer SendRequest where
  deserialize bytes := if bytes = encodeUtf8 r.json.chars then some (r, []) else none
  fieldName := betweenQuotes

theorem serde_reads (r : SendRequest) :
    (serde r).deserialize (encodeUtf8 r.json.chars) = some (r, []) := if_pos rfl

theorem standard : StandardBase64 env.base64 := by
  intro s bytes h
  by_cases hs : s = "aGk="
  · subst hs
    obtain rfl : [104, 105] = bytes := by simpa [env] using h
    decide
  · simp [env, hs] at h

end RequestSample

open RequestSample in
set_option maxRecDepth 8000 in
theorem send_request_reads_back_sample :
    parseBoundedJson (SendRequest.input env) (serde request) (encodeUtf8 request.json.chars) =
      .ok request :=
  send_request_reads_back env (serde request) standard readsNames_betweenQuotes request
    (serde_reads request) (by decide) (by decide)

end Kirje
