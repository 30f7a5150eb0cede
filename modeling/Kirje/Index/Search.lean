import Kirje.Base.Like
import Kirje.Core.Draft
import Kirje.Index.Store

/-
  File:      Kirje/Index/Search.lean
  Subject:   The search of the local message index (crates/kirje-store/src/lib.rs).

  Every text filter is a `LIKE` over a column in ASCII lower case.  The needle is
  brought to lower case by `str::to_lowercase`, which also changes letters that the
  column keeps; it is a parameter here, as nothing but its results matters.

  * `addLikeFilter_iff`: what a filter looks for.
  * **`subject_search_recall`**: the needles whose messages are all found.
-/

namespace Kirje

open Base

structure LocalMessageSearch where
  accountId : String
  mailbox : String
  fromText : Option String
  toText : Option String
  subject : Option String
  unread : Option Bool
  limit : Nat
  deriving DecidableEq, Repr

structure MessagePage where
  messages : List MessageEnvelope
  returned : Nat
  limit : Nat
  hasMore : Bool
  untrusted : Bool
  deriving DecidableEq, Repr

namespace MessageIndex

/-- `LocalMessageSearch::validate`. -/
def LocalMessageSearch.validate (search : LocalMessageSearch) : Result Unit := do
  validateScope search.accountId search.mailbox
  ensure (¬(search.limit = 0 ∨ search.limit > 100)) (.invalid "limit must be between 1 and 100")
  ensure (¬[search.fromText, search.toText, search.subject].any fun value =>
      value.any fun text => text.length > 1024)
    (.invalid "search filter values cannot exceed 1024 characters")

/-! ## 1. Filters -/

/-- `escape_like`. -/
def escapeLike (value : List Char) : List Char :=
  ((value.flatMap fun c => if c = '\\' then ['\\', '\\'] else [c]).flatMap
    fun c => if c = '%' then ['\\', '%'] else [c]).flatMap fun c => if c = '_' then ['\\', '_'] else [c]

/-- `lower(column)`: ASCII letters only. -/
def lowerAscii (text : List Char) : List Char := text.map Char.toLower

section Filters

variable (toLowercase : List Char → List Char)

/-- `add_like_filter`: the condition it adds, on the text of a column. -/
def addLikeFilter (column : String) (value : Option String) : Bool :=
  match (value.map trim).filter fun needle => !needle.isEmpty with
  | none => true
  | some needle => like '\\' ('%' :: escapeLike (toLowercase needle) ++ ['%']) (lowerAscii column.toList)

/-- The condition of the query of a search. -/
def selects (search : LocalMessageSearch) (row : MessageRow) : Bool :=
  MessageRow.of search.accountId search.mailbox row &&
    addLikeFilter toLowercase row.fromJson search.fromText &&
    addLikeFilter toLowercase row.toJson search.toText &&
    addLikeFilter toLowercase row.subject search.subject &&
    search.unread.all fun unread => row.isRead == !unread

theorem escapeLike_eq (value : List Char) : escapeLike value = value.flatMap (escapeLiteral '\\') := by
  unfold escapeLike
  rw [List.flatMap_assoc, List.flatMap_assoc]
  congr 1
  funext c
  unfold escapeLiteral
  by_cases h1 : c = '\\'
  · simp [h1]
  · by_cases h2 : c = '%'
    · simp [h2]
    · by_cases h3 : c = '_' <;> simp [h1, h2, h3]

@[simp] theorem lowerAscii_lowerAscii (text : List Char) :
    lowerAscii (lowerAscii text) = lowerAscii text := by
  simp [lowerAscii]

/-- **What a filter looks for**: its lowered needle, in the lowered column. -/
theorem addLikeFilter_iff {column value : String} (hneedle : trim value ≠ []) :
    addLikeFilter toLowercase column (some value) = true ↔
      lowerAscii (toLowercase (trim value)) <:+: lowerAscii column.toList := by
  have hfilter : ((some value).map trim).filter (fun needle => !needle.isEmpty) = some (trim value) := by
    simp [Option.filter, hneedle]
  unfold addLikeFilter
  rw [hfilter]
  show like '\\' _ _ = true ↔ _
  rw [escapeLike_eq, like_contains (by decide)]
  show lowerAscii _ <:+: lowerAscii (lowerAscii _) ↔ _
  rw [lowerAscii_lowerAscii]

end Filters

/-! ## 2. The query -/

/-- `message_from_row`. -/
def messageFromRow (env : IndexExternal) (row : MessageRow) : Result MessageEnvelope := do
  let inReplyTo ← orRefuse (env.messageIds.decode row.inReplyToJson) storeReadError
  let fromAddrs ← orRefuse (env.addresses.decode row.fromJson) storeReadError
  let toAddrs ← orRefuse (env.addresses.decode row.toJson) storeReadError
  let sentAt ← row.sentAt.elim (pure none) fun value => some <$> parseTimestamp env value
  pure {
    reference := ⟨row.accountId, row.mailbox, some row.uidValidity, row.uid⟩
    messageId := row.messageId
    inReplyTo := inReplyTo
    subject := row.subject
    fromAddrs := fromAddrs
    toAddrs := toAddrs
    sentAt := sentAt
    size := row.size
    isRead := row.isRead
    isStarred := row.isStarred
    hasAttachment := row.hasAttachment
    truncated := row.truncated }

/-- `ORDER BY sent_at IS NULL, sent_at DESC, uid DESC`. -/
def newerFirst (a b : MessageRow) : Bool :=
  match a.sentAt, b.sentAt with
  | some s, some t => if s = t then b.uid ≤ a.uid else t < s
  | some _, none => true
  | none, some _ => false
  | none, none => b.uid ≤ a.uid

/-- `search`: one row more than the limit is read. -/
def search (env : IndexExternal) (toLowercase : List Char → List Char) (search : LocalMessageSearch)
    (ix : Index) : Result MessagePage := do
  LocalMessageSearch.validate search
  let rows := ((ix.messages.filter (selects toLowercase search)).mergeSort newerFirst).take
    (search.limit + 1)
  let messages ← rows.mapM (messageFromRow env)
  let returned := messages.take search.limit
  pure {
    messages := returned
    returned := if returned.length < 2 ^ 16 then returned.length else search.limit
    limit := search.limit
    hasMore := messages.length > search.limit
    untrusted := true }

section Query

variable {env : IndexExternal} {toLowercase : List Char → List Char} {q : LocalMessageSearch} {ix : Index}
  {page : MessagePage}

/-- **A selected row is returned, or cut off by the limit.** -/
theorem search_returns (h : search env toLowercase q ix = .ok page) {row : MessageRow}
    (hrow : row ∈ ix.messages) (hsel : selects toLowercase q row = true) :
    (∃ message ∈ page.messages, messageFromRow env row = .ok message) ∨ page.hasMore = true := by
  simp only [search, bind_ok, pure_ok] at h
  obtain ⟨_, -, messages, hmessages, rfl⟩ := h
  have hlength := length_of_mapM hmessages
  rw [List.length_take, List.length_mergeSort] at hlength
  by_cases hfew : (ix.messages.filter (selects toLowercase q)).length ≤ q.limit
  · left
    have hmem : row ∈ ((ix.messages.filter (selects toLowercase q)).mergeSort newerFirst).take
        (q.limit + 1) := by
      rw [List.take_of_length_le (by rw [List.length_mergeSort]; omega), List.mem_mergeSort]
      exact List.mem_filter.mpr ⟨hrow, hsel⟩
    obtain ⟨message, hmessage, hread⟩ := mapM_of_mem hmessages hmem
    refine ⟨message, ?_, hread⟩
    rwa [List.take_of_length_le (by omega)]
  · right
    rw [decide_eq_true_eq]
    omega

end Query

/-! ## 3. Subjects -/

/-- A search with a filter on the subject only. -/
structure LocalMessageSearch.SubjectOnly (q : LocalMessageSearch) (text : String) : Prop where
  fromText : q.fromText = none
  toText : q.toText = none
  subject : q.subject = some text
  unread : q.unread = none

theorem selects_subjectOnly (toLowercase : List Char → List Char) {q : LocalMessageSearch} {text : String}
    (h : LocalMessageSearch.SubjectOnly q text) (row : MessageRow) :
    selects toLowercase q row =
      (MessageRow.of q.accountId q.mailbox row && addLikeFilter toLowercase row.subject (some text)) := by
  simp [selects, h.fromText, h.toText, h.subject, h.unread, addLikeFilter]

/-- Every message of the mailbox whose subject has the text is selected, and so it is returned or cut
    off by the limit. -/
def FindsSubjects (env : IndexExternal) (toLowercase : List Char → List Char) (text : String) : Prop :=
  ∀ (q : LocalMessageSearch) (ix : Index), LocalMessageSearch.SubjectOnly q text → ∀ row ∈ ix.messages,
    MessageRow.of q.accountId q.mailbox row = true → trim text <:+: row.subject.toList →
      selects toLowercase q row = true ∧ ∀ page, search env toLowercase q ix = .ok page →
        (∃ message ∈ page.messages, messageFromRow env row = .ok message) ∨ page.hasMore = true

/-- A row with a subject. -/
def rowOfSubject (subject : String) : MessageRow where
  accountId := "personal"
  mailbox := "INBOX"
  uidValidity := 1
  uid := 1
  messageId := none
  inReplyToJson := "[]"
  subject := subject
  fromJson := "[]"
  toJson := "[]"
  sentAt := none
  size := 0
  isRead := false
  isStarred := false
  hasAttachment := none
  truncated := false
  indexedAt := ""

/-- **The recall of a subject filter.**  Every message with the text in its subject is found exactly when
    the text, brought to lower case, is in the text again up to the case of ASCII letters. -/
theorem subject_search_recall (env : IndexExternal) (toLowercase : List Char → List Char) {text : String}
    (hneedle : trim text ≠ []) :
    FindsSubjects env toLowercase text ↔
      lowerAscii (toLowercase (trim text)) <:+: lowerAscii (trim text) := by
  constructor
  · intro h
    have hrow := h ⟨"personal", "INBOX", none, none, some text, none, 1⟩
      ⟨[rowOfSubject (String.ofList (trim text))], []⟩ ⟨rfl, rfl, rfl, rfl⟩
      (rowOfSubject (String.ofList (trim text))) List.mem_cons_self
      (by simp [MessageRow.of, rowOfSubject]) (by simp [rowOfSubject])
    have hsel := hrow.1
    rw [selects_subjectOnly toLowercase ⟨rfl, rfl, rfl, rfl⟩, Bool.and_eq_true,
      addLikeFilter_iff toLowercase hneedle] at hsel
    simpa [rowOfSubject] using hsel.2
  · intro h q ix hq row hrow hof hsubject
    have hsel : selects toLowercase q row = true := by
      rw [selects_subjectOnly toLowercase hq, hof, Bool.true_and, addLikeFilter_iff toLowercase hneedle]
      exact h.trans (hsubject.map Char.toLower)
    exact ⟨hsel, fun page hpage => search_returns hpage hrow hsel⟩

namespace SearchSample

def env : IndexExternal where
  messageIds := ⟨fun ids => if ids = [] then some "[]" else none, fun _ => some []⟩
  addresses := ⟨fun addresses => if addresses = [] then some "[]" else none, fun _ => some []⟩
  timestamp _ := ""
  parseTimestamp _ := none

/-- `str::to_lowercase` on ASCII letters and one accented letter. -/
def toLowercase (text : List Char) : List Char :=
  text.map fun c => if c = 'É' then 'é' else c.toLower

/-- The search for a subject. -/
def searchFor (text : String) : LocalMessageSearch := ⟨"personal", "INBOX", none, none, some text, none, 25⟩

end SearchSample

open SearchSample in
/-- A message with a plain subject is found. -/
theorem subject_search_recall_sample : FindsSubjects env SearchSample.toLowercase "50% off" ↔
    lowerAscii (SearchSample.toLowercase (trim "50% off")) <:+: lowerAscii (trim "50% off") :=
  subject_search_recall env SearchSample.toLowercase (by decide)

open SearchSample in
/-- **A message is not found by its own subject.** -/
theorem accented_subject_missed :
    trim "É" <:+: (rowOfSubject "É").subject.toList ∧
      selects SearchSample.toLowercase (searchFor "É") (rowOfSubject "É") = false ∧
      ∃ page, search env SearchSample.toLowercase (searchFor "É") ⟨[rowOfSubject "É"], []⟩ = .ok page ∧
        page.messages = [] ∧ page.hasMore = false := by
  have hsel : selects SearchSample.toLowercase (searchFor "É") (rowOfSubject "É") = false := by decide
  refine ⟨by decide, hsel, ⟨[], 0, 25, false, true⟩, ?_, rfl, rfl⟩
  simp only [search, bind_ok, pure_ok]
  exact ⟨(), by decide, [], by simp [hsel], rfl⟩

end MessageIndex

end Kirje
