import Kirje.Core.JsonText

/-
  File:      Kirje/Core/Review.lean
  Subject:   What the lexical pass says about a value: the pass over the text of a
             value admits exactly what a review of its tree admits.

  The review knows the nesting level, the field name last read and two totals; the
  containers of the pass are the levels above.

  * `preflight_value`: **the pass over the text of a value, whatever follows it**.
  * `lexicalPreflight_chars`: the pass over a whole document.
-/

namespace Kirje

open Base

/-! ## 1. The review -/

/-- What the review carries along. -/
structure Tally where
  key : Option String
  attachments : Nat
  recipients : Nat
  deriving DecidableEq, Repr

namespace Tally

def start : Tally := ⟨none, 0, 0⟩

/-- A string that is not a field name. -/
def text (shape : InputShape) (s : String) (t : Tally) : Option Tally :=
  match t.key with
  | none => some t
  | some key => do
      guard (s.length ≤ stringMaximum shape key)
      if key = "content_base64" then do
        guard (¬s.toList.any fun c => special c)
        let decoded ← (canonicalBase64DecodedLen (encodeUtf8 s.toList)).toOption
        guard (decoded ≤ 1048576)
        guard (t.attachments + decoded ≤ 8388608)
        some { t with attachments := t.attachments + decoded }
      else some t

/-- The end of an array of so many items. -/
def receive (counts : Bool) (items : Nat) (t : Tally) : Option Tally :=
  if counts then do
    guard (t.recipients + items ≤ 50)
    some { t with recipients := t.recipients + items }
  else some t

end Tally

/-- A field name, as it is read back from its text. -/
def readName (decodeKey : Bytes → Option String) (name : String) : Option String := do
  guard ((encodeUtf8 (escape name.toList)).length ≤ 128)
  decodeKey (encodeUtf8 (quoted name))

section Review

variable (decodeKey : Bytes → Option String) (shape : InputShape)

mutual

/-- The review of a value with so many containers around it. -/
def reviewValue (level : Nat) : JsonValue → Tally → Option Tally
  | .null, t => some t
  | .bool _, t => some t
  | .number _, t => some t
  | .string s, t => t.text shape s
  | .array items, t => do
      guard (level < 32 ∧ items.length ≤ arrayMaximum t.key (level = 1))
      let reviewed ← reviewItems (level + 1) items t
      reviewed.receive (level = 1 && isRecipients t.key) items.length
  | .object members, t => do
      guard (level < 32 ∧ members.length ≤ 128)
      reviewMembers (level + 1) members t

def reviewItems (level : Nat) : List JsonValue → Tally → Option Tally
  | [], t => some t
  | v :: items, t => do
      let t ← reviewValue level v t
      reviewItems level items t

def reviewMembers (level : Nat) : List (String × JsonValue) → Tally → Option Tally
  | [], t => some t
  | (name, v) :: members, t => do
      let key ← readName decodeKey name
      let t ← reviewValue level v { t with key := some key }
      reviewMembers level members t

end

end Review

/-! ## 2. One step of the pass -/

theorem plain_of_any {text : List Char} (h : (text.any fun c => special c) = false) :
    ∀ c ∈ text, ¬special c := by
  simpa using h

namespace Preflight

def tally (st : Preflight) : Tally := ⟨st.currentKey, st.decodedAttachmentTotal, st.recipientItems⟩

def withTally (st : Preflight) (t : Tally) : Preflight :=
  { st with
    currentKey := t.key
    decodedAttachmentTotal := t.attachments
    recipientItems := t.recipients }

@[simp] theorem withTally_tally (st : Preflight) : st.withTally st.tally = st := rfl

@[simp] theorem tally_withTally (st : Preflight) (t : Tally) : (st.withTally t).tally = t := rfl

@[simp] theorem withTally_withTally (st : Preflight) (t u : Tally) :
    (st.withTally t).withTally u = st.withTally u := rfl

theorem enforceStringLimit_escape {shape : InputShape} {key s : String} {u : Unit} :
    enforceStringLimit shape key (encodeUtf8 (escape s.toList)) s.length = .ok u ↔
      s.length ≤ stringMaximum shape key := by
  have hlen := length_escape_le s.toList
  rw [String.length_toList] at hlen
  rw [enforceStringLimit, ensure_ok]
  omega

/-- **The pass takes a text as the review does.** -/
theorem text_ok {shape : InputShape} {st st' : Preflight} {s : String} :
    st.text shape (encodeUtf8 (escape s.toList)) (s.toList.any fun c => special c) = .ok st' ↔
      ∃ t, st.tally.text shape s = some t ∧ st.withTally t = st' := by
  have hchars := decodedJsonStringChars_escape s.toList
  rw [String.length_toList] at hchars
  unfold text Tally.text
  have htally : st.tally.key = st.currentKey := rfl
  rw [htally]
  cases st.currentKey with
  | none =>
      constructor
      · intro h
        exact ⟨st.tally, rfl, by rw [withTally_tally, Except.ok.inj h]⟩
      · rintro ⟨t, ht, rfl⟩
        rw [← Option.some.inj ht, withTally_tally]
  | some key =>
      simp only [hchars, bind_ok, Except.ok.injEq, exists_eq_left', enforceStringLimit_escape]
      by_cases hkey : key = "content_base64"
      · simp only [if_pos hkey, bind_ok, ensure_ok, pure_ok, Option.bind_eq_bind, Option.bind_eq_some_iff,
          guard_some, toOption_eq_some, Option.some.injEq]
        constructor
        · rintro ⟨-, hlen, -, hesc, decoded, hdecoded, -, hone, -, htotal, rfl⟩
          rw [escape_plain (plain_of_any hesc)] at hdecoded
          exact ⟨_, ⟨(), hlen, (), by simpa using hesc, decoded, hdecoded, (), hone, (), htotal, rfl⟩, rfl⟩
        · rintro ⟨_, ⟨-, hlen, -, hesc, decoded, hdecoded, -, hone, -, htotal, rfl⟩, rfl⟩
          have hesc' : (s.toList.any fun c => special c) = false := by simpa using hesc
          rw [← escape_plain (plain_of_any hesc')] at hdecoded
          exact ⟨(), hlen, (), hesc', decoded, hdecoded, (), hone, (), htotal, rfl⟩
      · simp only [if_neg hkey, pure_ok, Option.bind_eq_bind, Option.bind_eq_some_iff, guard_some,
          Option.some.injEq]
        constructor
        · rintro ⟨-, hlen, rfl⟩
          exact ⟨st.tally, ⟨(), hlen, rfl⟩, rfl⟩
        · rintro ⟨_, ⟨-, hlen, rfl⟩, rfl⟩
          exact ⟨(), hlen, rfl⟩

/-- A delimiter opened. -/
def inside (st : Preflight) (container : Container) : Preflight :=
  { st with depth := st.depth + 1, containers := container :: st.containers }

theorem enter_ok {st st' : Preflight} {container : Container} :
    st.enter container = .ok st' ↔ st.depth < 32 ∧ st.inside container = st' := by
  simp only [enter, bind_ok, ensure_ok, pure_ok]
  refine ⟨fun h => ?_, fun h => ⟨(), h⟩⟩
  obtain ⟨-, h⟩ := h
  exact h

/-- **The end of an array gives the total of the review.** -/
theorem leaveArray_ok {st fin : Preflight} {t : Tally} {items maximum : Nat} {topLevel : Bool} :
    ((st.inside (.array st.currentKey items maximum
        (topLevel && isRecipients st.currentKey))).withTally t).leaveArray = .ok fin ↔
      items ≤ maximum ∧ ∃ t', t.receive (topLevel && isRecipients st.currentKey) items = some t' ∧
        st.withTally t' = fin := by
  have hcounted : (topLevel && isRecipients st.currentKey && isRecipients st.currentKey) =
      (topLevel && isRecipients st.currentKey) := by
    rw [Bool.and_assoc, Bool.and_self]
  simp only [leaveArray, withTally, inside, hcounted, bind_ok, ensure_ok, checkIf_ok, pure_ok,
    Tally.receive]
  cases topLevel && isRecipients st.currentKey with
  | false =>
      constructor
      · rintro ⟨-, hitems, -, -, rfl⟩
        exact ⟨hitems, t, rfl, rfl⟩
      · rintro ⟨hitems, t', ht, rfl⟩
        obtain rfl : t = t' := Option.some.inj ht
        exact ⟨(), hitems, (), (fun h => absurd h Bool.false_ne_true), rfl⟩
  | true =>
      simp only [if_pos, Option.bind_eq_bind, Option.bind_eq_some_iff, guard_some, Option.some.injEq]
      constructor
      · rintro ⟨-, hitems, -, htotal, rfl⟩
        exact ⟨hitems, _, ⟨(), ensure_ok.mp (htotal trivial), rfl⟩, rfl⟩
      · rintro ⟨hitems, _, ⟨-, htotal, rfl⟩, rfl⟩
        exact ⟨(), hitems, (), fun _ => ensure_ok.mpr htotal, rfl⟩

end Preflight

/-! ## 3. The pass over a text -/

section Pass

variable {decodeKey : Bytes → Option String} {shape : InputShape}

theorem preflightFrom_symbol {b : UInt8} (hb : b ≠ byte '"') (st : Preflight) (bytes : Bytes) :
    preflightFrom decodeKey shape st (b :: bytes) =
      st.symbol b bytes >>= fun st => preflightFrom decodeKey shape st bytes := by
  rw [preflightFrom, if_neg hb]

/-- A byte that opens, closes and separates nothing. -/
def Ordinary (b : UInt8) : Prop := b ∉ ['"', '\x7b', '[', '\x7d', ']', ','].map byte

instance : DecidablePred Ordinary := fun b =>
  inferInstanceAs (Decidable (b ∉ ['"', '\x7b', '[', '\x7d', ']', ','].map byte))

/-- Ordinary bytes are passed over. -/
theorem preflightFrom_ordinary {bytes : Bytes} (h : ∀ b ∈ bytes, Ordinary b) (st : Preflight)
    (rest : Bytes) :
    preflightFrom decodeKey shape st (bytes ++ rest) = preflightFrom decodeKey shape st rest := by
  induction bytes with
  | nil => rfl
  | cons b bytes ih =>
      have hb := h b List.mem_cons_self
      simp only [Ordinary, List.map_cons, List.map_nil, List.mem_cons, List.not_mem_nil, or_false,
        not_or] at hb
      obtain ⟨hquote, hopen, hbracket, hclose, hend, hcomma⟩ := hb
      have hsymbol : st.symbol b (bytes ++ rest) = .ok st := by
        rw [Preflight.symbol, if_neg hopen, if_neg hbracket, if_neg hclose, if_neg hend,
          if_neg hcomma]
      rw [List.cons_append, preflightFrom_symbol hquote, hsymbol]
      exact ih fun c hc => h c (List.mem_cons_of_mem _ hc)

/-- A string is taken as a whole. -/
theorem preflightFrom_string {raw rest : Bytes} {hasEscape : Bool}
    (hscan : scanJsonString false false (raw ++ byte '"' :: rest) = .ok (raw, hasEscape, rest))
    (st : Preflight) :
    preflightFrom decodeKey shape st (byte '"' :: (raw ++ byte '"' :: rest)) =
      st.string decodeKey shape raw hasEscape rest >>=
        fun st => preflightFrom decodeKey shape st rest := by
  rw [preflightFrom, if_pos rfl]
  split
  · rename_i e he
    rw [hscan] at he
    cases he
  · rename_i raw hasEscape rest' he
    rw [hscan] at he
    simp only [Except.ok.injEq, Prod.mk.injEq] at he
    obtain ⟨rfl, rfl, rfl⟩ := he
    rfl

/-- A quoted text is one string. -/
theorem preflightFrom_quoted (s : String) (st : Preflight) (rest : Bytes) :
    preflightFrom decodeKey shape st (encodeUtf8 (quoted s) ++ rest) =
      st.string decodeKey shape (encodeUtf8 (escape s.toList)) (s.toList.any fun c => special c) rest >>=
        fun st => preflightFrom decodeKey shape st rest := by
  have hquote : String.utf8EncodeChar '"' = [byte '"'] := utf8EncodeChar_ascii (by decide)
  have hbytes : encodeUtf8 (quoted s) ++ rest =
      byte '"' :: (encodeUtf8 (escape s.toList) ++ byte '"' :: rest) := by
    simp only [quoted, List.cons_append, encodeUtf8_cons, encodeUtf8_append, encodeUtf8_nil, hquote,
      List.append_assoc, List.nil_append]
  have hscan := scanJsonString_escape s.toList false rest
  rw [Bool.false_or] at hscan
  rw [hbytes, preflightFrom_string hscan]

/-! ## 4. The pass over a value -/

variable (decodeKey shape)

/-- The pass over the text of a value admits what the review admits, whatever follows, unless a
    colon does. -/
def Passes (v : JsonValue) : Prop :=
  ∀ (st fin : Preflight) (rest : Bytes), (skipWhitespace rest).head? ≠ some (byte ':') →
    st.depth = st.containers.length →
    (preflightFrom decodeKey shape st (encodeUtf8 v.chars ++ rest) = .ok fin ↔
      ∃ t, reviewValue decodeKey shape st.containers.length v st.tally = some t ∧
        preflightFrom decodeKey shape (st.withTally t) rest = .ok fin)

variable {decodeKey shape}

theorem passes_ordinary {v : JsonValue} (h : ∀ b ∈ encodeUtf8 v.chars, Ordinary b)
    (hreview : ∀ level t, reviewValue decodeKey shape level v t = some t) :
    Passes decodeKey shape v := by
  intro st fin rest _ _
  rw [preflightFrom_ordinary h, hreview]
  simp

/-- The range of the digits of a number. -/
theorem digit_range {n : Nat} {c : Char} (h : c ∈ Nat.toDigits 10 n) :
    48 ≤ c.toNat ∧ c.toNat ≤ 57 := by
  have hdigit : c.isDigit := Nat.isDigit_of_mem_toDigits (by decide) (by decide) h
  simp only [Char.isDigit, Bool.and_eq_true, decide_eq_true_eq, UInt32.le_iff_toNat_le] at hdigit
  exact hdigit

theorem passes_number (n : Nat) : Passes decodeKey shape (.number n) := by
  refine passes_ordinary (fun b hb => ?_) fun _ _ => rfl
  obtain ⟨c, hc, hmem⟩ := List.mem_flatMap.mp hb
  have hrange := digit_range hc
  rw [utf8EncodeChar_ascii (by omega), List.mem_singleton] at hmem
  have hnat : b.toNat = c.toNat := by rw [hmem, toNat_byte (by omega)]
  intro hb
  have hother : ∀ d ∈ ['"', '\x7b', '[', '\x7d', ']', ','],
      (d.toNat < 48 ∨ 57 < d.toNat) ∧ d.toNat < 0x80 := List.all_iff_forall_prop.mp (by decide)
  obtain ⟨d, hd, rfl⟩ := List.mem_map.mp hb
  have := hother d hd
  rw [toNat_byte this.2] at hnat
  omega

theorem passes_string (s : String) : Passes decodeKey shape (.string s) := by
  intro st fin rest hrest _
  rw [JsonValue.chars, preflightFrom_quoted, Preflight.string, if_neg hrest]
  simp only [bind_ok, reviewValue, Preflight.text_ok]
  constructor
  · rintro ⟨_, ⟨t, ht, rfl⟩, h⟩
    exact ⟨t, ht, h⟩
  · rintro ⟨t, ht, h⟩
    exact ⟨_, ⟨t, ht, rfl⟩, h⟩

/-- No value starts with a blank or with the end of an array. -/
theorem chars_head (v : JsonValue) : ∃ c text, v.chars = c :: text ∧ c.toNat < 0x80 ∧
    c ∉ [' ', '\n', '\r', '\t', ']'] := by
  cases v with
  | null => exact ⟨'n', _, rfl, by decide, by decide⟩
  | bool b =>
      cases b with
      | false => exact ⟨'f', _, rfl, by decide, by decide⟩
      | true => exact ⟨'t', _, rfl, by decide, by decide⟩
  | number n =>
      obtain ⟨c, text, htext⟩ := List.exists_cons_of_ne_nil (Nat.toDigits_ne_nil (n := n) (b := 10))
      have hrange := @digit_range n c (htext ▸ List.mem_cons_self)
      have hother : ∀ d ∈ [' ', '\n', '\r', '\t', ']'], d.toNat < 48 ∨ 57 < d.toNat :=
        List.all_iff_forall_prop.mp (by decide)
      refine ⟨c, text, htext, by omega, fun hc => ?_⟩
      have := hother c hc
      omega
  | string s => exact ⟨'"', _, rfl, by decide, by decide⟩
  | array items => cases items <;> exact ⟨'[', _, rfl, by decide, by decide⟩
  | object members => cases members <;> exact ⟨'\x7b', _, rfl, by decide, by decide⟩

/-- Behind a bracket, a value is not the end of the array. -/
theorem skipWhitespace_chars (v : JsonValue) (rest : Bytes) :
    (skipWhitespace (encodeUtf8 v.chars ++ rest)).head? ≠ some (byte ']') := by
  obtain ⟨c, text, hchars, hascii, hc⟩ := chars_head v
  have hne : ∀ d : Char, d.toNat < 0x80 → c ≠ d → byte c ≠ byte d := fun d hd hcd h =>
    hcd (byte_inj hascii hd h)
  simp only [List.mem_cons, List.not_mem_nil, or_false, not_or] at hc
  obtain ⟨hspace, hnewline, hreturn, htab, hclose⟩ := hc
  have hstop : ¬(byte c = byte ' ' ∨ byte c = byte '\n' ∨ byte c = byte '\r' ∨ byte c = byte '\t') := by
    rintro (h | h | h | h)
    · exact hne ' ' (by decide) hspace h
    · exact hne '\n' (by decide) hnewline h
    · exact hne '\r' (by decide) hreturn h
    · exact hne '\t' (by decide) htab h
  rw [hchars, encodeUtf8_cons, utf8EncodeChar_ascii hascii, List.append_assoc, List.singleton_append,
    skipWhitespace, List.dropWhile_cons_of_neg (by simpa using hstop), List.head?_cons]
  exact fun h => hne ']' (by decide) hclose (Option.some.inj h)

/-- What follows a value among others does not start with a colon. -/
theorem skipWhitespace_items {items : List JsonValue} {rest : Bytes}
    (h : (skipWhitespace rest).head? ≠ some (byte ':')) :
    (skipWhitespace (encodeUtf8 (itemChars items) ++ rest)).head? ≠ some (byte ':') := by
  cases items with
  | nil => exact h
  | cons v items =>
      have hcomma : (skipWhitespace (encodeUtf8 (itemChars (v :: items)) ++ rest)).head? =
          some (byte ',') := by
        rw [itemChars, List.cons_append, encodeUtf8_cons, utf8EncodeChar_ascii (by decide)]
        rfl
      rw [hcomma]
      decide

/-- **The items after the first.** -/
theorem passes_items {items : List JsonValue} (hitems : ∀ v ∈ items, Passes decodeKey shape v)
    {field : Option String} {n maximum : Nat} {counts : Bool} {containers : List Container}
    {st fin : Preflight} {rest : Bytes} (hst : st.containers = .array field n maximum counts :: containers)
    (hdepth : st.depth = st.containers.length)
    (hrest : (skipWhitespace rest).head? ≠ some (byte ':')) :
    preflightFrom decodeKey shape st (encodeUtf8 (itemChars items) ++ rest) = .ok fin ↔
      (items = [] ∨ n + items.length ≤ maximum) ∧
        ∃ t, reviewItems decodeKey shape st.containers.length items st.tally = some t ∧
          preflightFrom decodeKey shape
            ({ st with
                containers := .array field (n + items.length) maximum counts :: containers }.withTally t)
            rest = .ok fin := by
  induction items generalizing st n with
  | nil =>
      have hsame : { st with containers := .array field (n + 0) maximum counts :: containers } = st := by
        rw [Nat.add_zero, ← hst]
      simp only [itemChars, encodeUtf8_nil, List.nil_append, reviewItems, List.length_nil, hsame]
      simp
  | cons v items ih =>
      let st₁ : Preflight :=
        { st with containers := .array field (n + 1) maximum counts :: containers }
      have hlevel : st.containers.length = containers.length + 1 := by
        rw [hst]
        rfl
      have hcomma : ∀ bytes, preflightFrom decodeKey shape st (byte ',' :: bytes) = .ok fin ↔
          n + 1 ≤ maximum ∧ preflightFrom decodeKey shape st₁ bytes = .ok fin := by
        intro bytes
        have hsymbol : st.symbol (byte ',') bytes = st.comma := rfl
        rw [preflightFrom_symbol (by decide), hsymbol, Preflight.comma, hst]
        simp only [bind_ok, ensure_ok, pure_ok]
        constructor
        · rintro ⟨_, ⟨-, hn, rfl⟩, h⟩
          exact ⟨hn, h⟩
        · rintro ⟨hn, h⟩
          exact ⟨_, ⟨(), hn, rfl⟩, h⟩
      have hbytes : encodeUtf8 (itemChars (v :: items)) ++ rest =
          byte ',' :: (encodeUtf8 v.chars ++ (encodeUtf8 (itemChars items) ++ rest)) := by
        rw [itemChars, List.cons_append, encodeUtf8_cons, utf8EncodeChar_ascii (by decide),
          encodeUtf8_append, List.append_assoc, List.append_assoc]
        rfl
      have hv := hitems v List.mem_cons_self st₁ fin (encodeUtf8 (itemChars items) ++ rest)
        (skipWhitespace_items hrest) (hdepth.trans hlevel)
      have ih' := fun t => @ih (fun w hw => hitems w (List.mem_cons_of_mem _ hw)) (n + 1)
        (st₁.withTally t) rfl (hdepth.trans hlevel)
      have hsum : n + (items.length + 1) = n + 1 + items.length := by omega
      rw [hbytes, hcomma, hv]
      simp only [reviewItems, Option.bind_eq_bind, Option.bind_eq_some_iff, ih', List.length_cons, hlevel,
        hsum]
      constructor
      · rintro ⟨hn, t₁, ht₁, hmax, t, ht, h⟩
        refine ⟨.inr ?_, t, ⟨t₁, ht₁, ht⟩, h⟩
        rcases hmax with rfl | hmax
        · exact hn
        · exact hmax
      · rintro ⟨hmax, t, ⟨t₁, ht₁, ht⟩, h⟩
        have hmax := hmax.resolve_left (List.cons_ne_nil _ _)
        exact ⟨by omega, t₁, ht₁, .inr hmax, t, ht, h⟩

/-- A closing bracket, and what follows. -/
theorem preflightFrom_close {st fin : Preflight} {t : Tally} {items maximum : Nat} {topLevel : Bool}
    {rest : Bytes} :
    preflightFrom decodeKey shape ((st.inside (.array st.currentKey items maximum
        (topLevel && isRecipients st.currentKey))).withTally t) (byte ']' :: rest) = .ok fin ↔
      items ≤ maximum ∧ ∃ t', t.receive (topLevel && isRecipients st.currentKey) items = some t' ∧
        preflightFrom decodeKey shape (st.withTally t') rest = .ok fin := by
  have hsymbol : ∀ st : Preflight, st.symbol (byte ']') rest = st.leaveArray := fun _ => rfl
  rw [preflightFrom_symbol (by decide), hsymbol, bind_ok]
  simp only [Preflight.leaveArray_ok]
  constructor
  · rintro ⟨_, ⟨hitems, t', ht, rfl⟩, h⟩
    exact ⟨hitems, t', ht, h⟩
  · rintro ⟨hitems, t', ht, h⟩
    exact ⟨_, ⟨hitems, t', ht, rfl⟩, h⟩

/-- An opening bracket, and what follows. -/
theorem preflightFrom_open {st fin : Preflight} {bytes : Bytes} {items : Nat}
    (hitems : (if (skipWhitespace bytes).head? = some (byte ']') then 0 else 1) = items) :
    preflightFrom decodeKey shape st (byte '[' :: bytes) = .ok fin ↔ st.depth < 32 ∧
      preflightFrom decodeKey shape (st.inside (.array st.currentKey items
        (arrayMaximum st.currentKey (st.containers.length = 1))
        (st.containers.length = 1 && isRecipients st.currentKey))) bytes = .ok fin := by
  have hsymbol : st.symbol (byte '[') bytes = st.enterArray bytes := rfl
  rw [preflightFrom_symbol (by decide), hsymbol, Preflight.enterArray, hitems]
  simp only [bind_ok, Preflight.enter_ok]
  constructor
  · rintro ⟨_, ⟨hd, rfl⟩, h⟩
    exact ⟨hd, h⟩
  · rintro ⟨hd, h⟩
    exact ⟨_, ⟨hd, rfl⟩, h⟩

theorem passes_array {items : List JsonValue} (hitems : ∀ v ∈ items, Passes decodeKey shape v) :
    Passes decodeKey shape (.array items) := by
  intro st fin rest hrest hdepth
  have hclose : String.utf8EncodeChar ']' = [byte ']'] := utf8EncodeChar_ascii (by decide)
  have hopen : String.utf8EncodeChar '[' = [byte '['] := utf8EncodeChar_ascii (by decide)
  have hkey : st.tally.key = st.currentKey := rfl
  cases items with
  | nil =>
      have hbytes : encodeUtf8 (JsonValue.array []).chars ++ rest = byte '[' :: byte ']' :: rest := by
        rw [JsonValue.chars, encodeUtf8_cons, encodeUtf8_cons, hopen, hclose]
        rfl
      have hnone : (if (skipWhitespace (byte ']' :: rest)).head? = some (byte ']') then 0 else 1) = 0 :=
        rfl
      have hempty := @preflightFrom_close decodeKey shape st fin st.tally 0
        (arrayMaximum st.currentKey (st.containers.length = 1)) (st.containers.length = 1) rest
      rw [hbytes, preflightFrom_open hnone, hdepth, ← Preflight.withTally_tally (st.inside _)]
      simp only [reviewValue, reviewItems, hkey, Option.bind_eq_bind, Option.bind_eq_some_iff,
        guard_some, Option.some.injEq, List.length_nil]
      constructor
      · rintro ⟨hlevel, h⟩
        obtain ⟨hmax, t, ht, h⟩ := hempty.mp h
        exact ⟨t, ⟨(), ⟨hlevel, hmax⟩, _, rfl, ht⟩, h⟩
      · rintro ⟨t, ⟨-, ⟨hlevel, hmax⟩, _, rfl, ht⟩, h⟩
        exact ⟨hlevel, hempty.mpr ⟨hmax, t, ht, h⟩⟩
  | cons v items =>
      have hbytes : encodeUtf8 (JsonValue.array (v :: items)).chars ++ rest =
          byte '[' :: (encodeUtf8 v.chars ++ (encodeUtf8 (itemChars items) ++ byte ']' :: rest)) := by
        rw [JsonValue.chars, List.cons_append, List.cons_append, encodeUtf8_cons, hopen,
          encodeUtf8_append, encodeUtf8_append, encodeUtf8_cons, hclose, encodeUtf8_nil]
        simp only [List.append_assoc, List.append_nil, List.cons_append]
        rfl
      have hone : (if (skipWhitespace (encodeUtf8 v.chars ++
          (encodeUtf8 (itemChars items) ++ byte ']' :: rest))).head? = some (byte ']') then 0 else 1) = 1 :=
        if_neg (skipWhitespace_chars v _)
      have hend : (skipWhitespace (byte ']' :: rest)).head? ≠ some (byte ':') := by
        have hhead : (skipWhitespace (byte ']' :: rest)).head? = some (byte ']') := rfl
        rw [hhead]
        decide
      generalize hmaximum : arrayMaximum st.currentKey (st.containers.length = 1) = maximum at *
      let st₁ := st.inside (.array st.currentKey 1 maximum
        (st.containers.length = 1 && isRecipients st.currentKey))
      have hlevel₁ : st₁.depth = st₁.containers.length := congrArg (· + 1) hdepth
      have hv := hitems v List.mem_cons_self st₁ fin _ (@skipWhitespace_items items _ hend) hlevel₁
      have hrestItems := fun t => @passes_items decodeKey shape items
        (fun w hw => hitems w (List.mem_cons_of_mem _ hw)) st.currentKey 1 maximum
        (st.containers.length = 1 && isRecipients st.currentKey) st.containers (st₁.withTally t) fin
        (byte ']' :: rest) rfl hlevel₁ hend
      have hleave := fun t => @preflightFrom_close decodeKey shape st fin t (1 + items.length) maximum
        (st.containers.length = 1) rest
      rw [hbytes, preflightFrom_open hone, hmaximum, hv, hdepth]
      simp only [hrestItems, reviewValue, reviewItems, hkey, hmaximum, Option.bind_eq_bind,
        Option.bind_eq_some_iff, guard_some, List.length_cons]
      constructor
      · rintro ⟨hlevel, t₁, ht₁, -, t₂, ht₂, h⟩
        obtain ⟨hmax, t, ht, h⟩ := (hleave t₂).mp h
        rw [Nat.add_comm] at hmax ht
        exact ⟨t, ⟨(), ⟨hlevel, hmax⟩, t₂, ⟨t₁, ht₁, ht₂⟩, ht⟩, h⟩
      · rintro ⟨t, ⟨-, ⟨hlevel, hmax⟩, t₂, ⟨t₁, ht₁, ht₂⟩, ht⟩, h⟩
        rw [Nat.add_comm] at hmax ht
        exact ⟨hlevel, t₁, ht₁, .inr hmax, t₂, ht₂, (hleave t₂).mpr ⟨hmax, t, ht, h⟩⟩

/-- **A member**: its name, its colon, its value. -/
theorem passes_member {v : JsonValue} (hv : Passes decodeKey shape v) {name : String} {n : Nat}
    {containers : List Container} {st fin : Preflight} {rest : Bytes}
    (hst : st.containers = .object n :: containers) (hdepth : st.depth = st.containers.length)
    (hrest : (skipWhitespace rest).head? ≠ some (byte ':')) :
    preflightFrom decodeKey shape st
        (encodeUtf8 (quoted name) ++ byte ':' :: (encodeUtf8 v.chars ++ rest)) = .ok fin ↔
      n + 1 ≤ 128 ∧ ∃ key, readName decodeKey name = some key ∧
        ∃ t, reviewValue decodeKey shape st.containers.length v { st.tally with key := some key } =
            some t ∧
          preflightFrom decodeKey shape
            ({ st with containers := .object (n + 1) :: containers }.withTally t) rest = .ok fin := by
  have hcolon : (skipWhitespace (byte ':' :: (encodeUtf8 v.chars ++ rest))).head? =
      some (byte ':') := rfl
  have hquote : String.utf8EncodeChar '"' = [byte '"'] := utf8EncodeChar_ascii (by decide)
  have hquoted : byte '"' :: encodeUtf8 (escape name.toList) ++ [byte '"'] = encodeUtf8 (quoted name) := by
    simp only [quoted, List.cons_append, encodeUtf8_cons, encodeUtf8_append, encodeUtf8_nil, hquote,
      List.nil_append]
  have hpass : ∀ st : Preflight, preflightFrom decodeKey shape st
      (byte ':' :: (encodeUtf8 v.chars ++ rest)) =
        preflightFrom decodeKey shape st (encodeUtf8 v.chars ++ rest) := fun st =>
    @preflightFrom_ordinary decodeKey shape [byte ':'] (List.forall_mem_singleton.mpr (by decide)) st _
  have hlevel : st.containers.length = containers.length + 1 := by
    rw [hst]
    rfl
  rw [preflightFrom_quoted, Preflight.string, if_pos hcolon, Preflight.fieldName, hquoted, hst]
  simp only [readName, bind_ok, ensure_ok, orRefuse_ok, pure_ok, Option.bind_eq_bind,
    Option.bind_eq_some_iff, guard_some, hpass]
  have hvalue := fun key => hv ⟨st.depth, .object (n + 1) :: containers, some key,
    st.decodedAttachmentTotal, st.recipientItems⟩ fin rest hrest (hdepth.trans hlevel)
  constructor
  · rintro ⟨_, ⟨-, hlen, key, hkey, -, hn, rfl⟩, h⟩
    obtain ⟨t, ht, h⟩ := (hvalue key).mp h
    exact ⟨hn, key, ⟨(), hlen, hkey⟩, t, ht, h⟩
  · rintro ⟨hn, key, ⟨-, hlen, hkey⟩, t, ht, h⟩
    exact ⟨_, ⟨(), hlen, key, hkey, (), hn, rfl⟩, (hvalue key).mpr ⟨t, ht, h⟩⟩

/-- What follows a member among others does not start with a colon. -/
theorem skipWhitespace_members {members : List (String × JsonValue)} {rest : Bytes}
    (h : (skipWhitespace rest).head? ≠ some (byte ':')) :
    (skipWhitespace (encodeUtf8 (memberChars members) ++ rest)).head? ≠ some (byte ':') := by
  cases members with
  | nil => exact h
  | cons m members =>
      have hcomma : (skipWhitespace (encodeUtf8 (memberChars (m :: members)) ++ rest)).head? =
          some (byte ',') := by
        rw [memberChars, List.cons_append, List.cons_append, encodeUtf8_cons,
          utf8EncodeChar_ascii (by decide)]
        rfl
      rw [hcomma]
      decide

/-- **The members after the first.** -/
theorem passes_members {members : List (String × JsonValue)}
    (hmembers : ∀ m ∈ members, Passes decodeKey shape m.2) {n : Nat} {containers : List Container}
    {st fin : Preflight} {rest : Bytes} (hst : st.containers = .object n :: containers)
    (hdepth : st.depth = st.containers.length)
    (hrest : (skipWhitespace rest).head? ≠ some (byte ':')) :
    preflightFrom decodeKey shape st (encodeUtf8 (memberChars members) ++ rest) = .ok fin ↔
      (members = [] ∨ n + members.length ≤ 128) ∧
        ∃ t, reviewMembers decodeKey shape st.containers.length members st.tally = some t ∧
          preflightFrom decodeKey shape
            ({ st with containers := .object (n + members.length) :: containers }.withTally t)
            rest = .ok fin := by
  induction members generalizing st n with
  | nil =>
      have hsame : { st with containers := .object (n + 0) :: containers } = st := by
        rw [Nat.add_zero, ← hst]
      simp only [memberChars, encodeUtf8_nil, List.nil_append, reviewMembers, List.length_nil, hsame]
      simp
  | cons m members ih =>
      obtain ⟨name, v⟩ := m
      have hlevel : st.containers.length = containers.length + 1 := by
        rw [hst]
        rfl
      have hcomma : ∀ bytes, preflightFrom decodeKey shape st (byte ',' :: bytes) =
          preflightFrom decodeKey shape st bytes := by
        intro bytes
        have hsymbol : st.symbol (byte ',') bytes = .ok st := by
          have : st.symbol (byte ',') bytes = st.comma := rfl
          rw [this, Preflight.comma, hst]
        rw [preflightFrom_symbol (by decide), hsymbol]
        rfl
      have hbytes : encodeUtf8 (memberChars ((name, v) :: members)) ++ rest =
          byte ',' :: (encodeUtf8 (quoted name) ++ byte ':' ::
            (encodeUtf8 v.chars ++ (encodeUtf8 (memberChars members) ++ rest))) := by
        have hcolon : String.utf8EncodeChar ':' = [byte ':'] := utf8EncodeChar_ascii (by decide)
        have hcomma : String.utf8EncodeChar ',' = [byte ','] := utf8EncodeChar_ascii (by decide)
        simp only [memberChars, List.cons_append, List.append_assoc, encodeUtf8_cons, encodeUtf8_append,
          hcomma, hcolon, List.nil_append]
      have hmember := @passes_member decodeKey shape v (hmembers _ List.mem_cons_self) name n containers st
        fin (encodeUtf8 (memberChars members) ++ rest) hst hdepth (skipWhitespace_members hrest)
      have ih' := fun t => @ih (fun m hm => hmembers m (List.mem_cons_of_mem _ hm)) (n + 1)
        ({ st with containers := .object (n + 1) :: containers }.withTally t) rfl (hdepth.trans hlevel)
      have hsum : n + (members.length + 1) = n + 1 + members.length := by omega
      rw [hbytes, hcomma, hmember]
      simp only [reviewMembers, Option.bind_eq_bind, Option.bind_eq_some_iff, ih', List.length_cons,
        hlevel, hsum]
      constructor
      · rintro ⟨hn, key, hkey, t₁, ht₁, hmax, t, ht, h⟩
        refine ⟨.inr ?_, t, ⟨key, hkey, t₁, ht₁, ht⟩, h⟩
        rcases hmax with rfl | hmax
        · exact hn
        · exact hmax
      · rintro ⟨hmax, t, ⟨key, hkey, t₁, ht₁, ht⟩, h⟩
        have hmax := hmax.resolve_left (List.cons_ne_nil _ _)
        exact ⟨by omega, key, hkey, t₁, ht₁, .inr hmax, t, ht, h⟩


theorem passes_object {members : List (String × JsonValue)}
    (hmembers : ∀ m ∈ members, Passes decodeKey shape m.2) :
    Passes decodeKey shape (.object members) := by
  intro st fin rest hrest hdepth
  have hopen : String.utf8EncodeChar '\x7b' = [byte '\x7b'] := utf8EncodeChar_ascii (by decide)
  have hclose : String.utf8EncodeChar '\x7d' = [byte '\x7d'] := utf8EncodeChar_ascii (by decide)
  have hcolon : String.utf8EncodeChar ':' = [byte ':'] := utf8EncodeChar_ascii (by decide)
  have henter : ∀ bytes, preflightFrom decodeKey shape st (byte '\x7b' :: bytes) = .ok fin ↔
      st.containers.length < 32 ∧
        preflightFrom decodeKey shape (st.inside (.object 0)) bytes = .ok fin := by
    intro bytes
    have hsymbol : st.symbol (byte '\x7b') bytes = st.enter (.object 0) := rfl
    rw [preflightFrom_symbol (by decide), hsymbol, bind_ok, ← hdepth]
    simp only [Preflight.enter_ok]
    constructor
    · rintro ⟨_, ⟨hd, rfl⟩, h⟩
      exact ⟨hd, h⟩
    · rintro ⟨hd, h⟩
      exact ⟨_, ⟨hd, rfl⟩, h⟩
  have hleave : ∀ n t, preflightFrom decodeKey shape ((st.inside (.object n)).withTally t)
      (byte '\x7d' :: rest) = preflightFrom decodeKey shape (st.withTally t) rest := by
    intro n t
    have hsymbol : ((st.inside (.object n)).withTally t).symbol (byte '\x7d') rest =
        .ok (st.withTally t) := rfl
    rw [preflightFrom_symbol (by decide), hsymbol]
    rfl
  have hend : (skipWhitespace (byte '\x7d' :: rest)).head? ≠ some (byte ':') := by
    have hhead : (skipWhitespace (byte '\x7d' :: rest)).head? = some (byte '\x7d') := rfl
    rw [hhead]
    decide
  have hlevel : ∀ n, (st.inside (.object n)).depth = (st.inside (.object n)).containers.length :=
    fun _ => congrArg (· + 1) hdepth
  cases members with
  | nil =>
      have hbytes : encodeUtf8 (JsonValue.object []).chars ++ rest = byte '\x7b' :: byte '\x7d' :: rest := by
        rw [JsonValue.chars, encodeUtf8_cons, encodeUtf8_cons, hopen, hclose]
        rfl
      rw [hbytes, henter, ← Preflight.withTally_tally (st.inside (.object 0)), hleave]
      simp only [reviewValue, reviewMembers, Option.bind_eq_bind, Option.bind_eq_some_iff, guard_some,
        Option.some.injEq, List.length_nil]
      constructor
      · rintro ⟨hd, h⟩
        exact ⟨st.tally, ⟨(), ⟨hd, Nat.zero_le _⟩, rfl⟩, h⟩
      · rintro ⟨_, ⟨-, ⟨hd, -⟩, rfl⟩, h⟩
        exact ⟨hd, h⟩
  | cons m members =>
      obtain ⟨name, v⟩ := m
      have hbytes : encodeUtf8 (JsonValue.object ((name, v) :: members)).chars ++ rest =
          byte '\x7b' :: (encodeUtf8 (quoted name) ++ byte ':' :: (encodeUtf8 v.chars ++
            (encodeUtf8 (memberChars members) ++ byte '\x7d' :: rest))) := by
        simp only [JsonValue.chars, List.cons_append, List.append_assoc, encodeUtf8_cons,
          encodeUtf8_append, encodeUtf8_nil, hopen, hclose, hcolon, List.nil_append]
      have hmember := @passes_member decodeKey shape v (hmembers _ List.mem_cons_self) name 0
        st.containers (st.inside (.object 0)) fin _ rfl (hlevel 0)
        (@skipWhitespace_members members _ hend)
      have hothers := fun t => @passes_members decodeKey shape members
        (fun m hm => hmembers m (List.mem_cons_of_mem _ hm)) 1 st.containers
        ((st.inside (.object 1)).withTally t) fin (byte '\x7d' :: rest) rfl (hlevel 1) hend
      have hmembersLeave := hleave (1 + members.length)
      rw [hbytes, henter, hmember]
      simp only [reviewValue, reviewMembers, Option.bind_eq_bind, Option.bind_eq_some_iff, guard_some,
        List.length_cons]
      constructor
      · rintro ⟨hd, -, key, hkey, t₁, ht₁, h⟩
        obtain ⟨hmax, t, ht, h⟩ := (hothers t₁).mp h
        have hlen : members.length + 1 ≤ 128 := by
          rcases hmax with rfl | hmax
          · simp
          · omega
        exact ⟨t, ⟨(), ⟨hd, hlen⟩, key, hkey, t₁, ht₁, ht⟩, hmembersLeave t ▸ h⟩
      · rintro ⟨t, ⟨-, ⟨hd, hlen⟩, key, hkey, t₁, ht₁, ht⟩, h⟩
        refine ⟨hd, by omega, key, hkey, t₁, ht₁, (hothers t₁).mpr ⟨.inr (by omega), t, ht, ?_⟩⟩
        exact (hmembersLeave t).trans h

mutual

/-- **The pass over the text of a value is the review of the value.** -/
theorem preflight_value : ∀ v : JsonValue, Passes decodeKey shape v
  | .null => passes_ordinary (List.all_iff_forall_prop.mp (by decide)) fun _ _ => rfl
  | .bool true => passes_ordinary (List.all_iff_forall_prop.mp (by decide)) fun _ _ => rfl
  | .bool false => passes_ordinary (List.all_iff_forall_prop.mp (by decide)) fun _ _ => rfl
  | .number n => passes_number n
  | .string s => passes_string s
  | .array items => passes_array (preflight_items items)
  | .object members => passes_object (preflight_members members)

theorem preflight_items : ∀ items : List JsonValue, ∀ v ∈ items, Passes decodeKey shape v
  | [] => fun _ h => nomatch h
  | v :: items => List.forall_mem_cons.mpr ⟨preflight_value v, preflight_items items⟩

theorem preflight_members :
    ∀ members : List (String × JsonValue), ∀ m ∈ members, Passes decodeKey shape m.2
  | [] => fun _ h => nomatch h
  | (_, v) :: members => List.forall_mem_cons.mpr ⟨preflight_value v, preflight_members members⟩

end

/-- **The pass over a document admits what the review admits.** -/
theorem lexicalPreflight_chars (v : JsonValue) :
    lexicalPreflight decodeKey shape (encodeUtf8 v.chars) = .ok () ↔
      ∃ t, reviewValue decodeKey shape 0 v .start = some t := by
  have hpass := fun fin => @preflight_value decodeKey shape v .start fin [] (by decide) rfl
  simp only [List.append_nil] at hpass
  simp only [lexicalPreflight, bind_ok, ensure_ok, hpass]
  constructor
  · rintro ⟨_, ⟨t, ht, -⟩, -⟩
    exact ⟨t, ht⟩
  · rintro ⟨t, ht⟩
    exact ⟨Preflight.start.withTally t, ⟨t, ht, by rw [preflightFrom]⟩, rfl⟩

end Pass

end Kirje
