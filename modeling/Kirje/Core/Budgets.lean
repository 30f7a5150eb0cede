import Kirje.Core.Review

/-
  File:      Kirje/Core/Budgets.lean
  Subject:   The budgets of `lexical_preflight`, over every JSON text.

  The pass keeps one field name and counts items by their commas.  In a text of the
  grammar a value directly under a name follows that name, so it is measured under it;
  other strings are measured under a name left over from before, which only adds to the
  totals.

  * `Charged`: what the pass over a phrase adds to its counters, at least.
  * `observes`: **the pass over a phrase of the grammar charges for the phrase**.
  * **`lexical_preflight_budgets`**: a JSON text that the pass accepts is within its budgets.
-/

namespace Kirje

open Base Grammar

/-! ## 1. Budgets -/

/-- How many items an array directly under a name may have. -/
def itemBoundary (top : Bool) (key : String) : Nat :=
  if key = "to" ∨ key = "cc" ∨ key = "bcc" then 50
  else if key = "attachments" then if top then 25 else 100
  else if key = "from" ∨ key = "reply_to" ∨ key = "references" then 100
  else 500

/-- The items of a recipient list. -/
def recipientsUnder (key : Option String) : Tree → Nat
  | .array items => if isRecipients key then items.length else 0
  | _ => 0

/-- The decoded size of the content of an attachment. -/
def contentUnder (key : Option String) : Tree → Nat
  | .string _ text => if key = some "content_base64" then base64Size text.toList else 0
  | _ => 0

def contentTotal (members : List (String × Tree)) : Nat :=
  (members.map fun m => contentUnder (some m.1) m.2).sum

def recipientTotal (members : List (String × Tree)) : Nat :=
  (members.map fun m => recipientsUnder (some m.1) m.2).sum

/-- The budgets of a request. -/
structure WithinBudgets (shape : InputShape) (v : Tree) : Prop where
  nesting : v.nesting ≤ 32
  items : ∀ key items, (key, .array items) ∈ v.members → items.length ≤ itemBoundary false key
  topItems : ∀ key items, (key, .array items) ∈ v.topMembers → items.length ≤ itemBoundary true key
  recipients : recipientTotal v.topMembers ≤ 50
  strings : ∀ key raw text, (key, .string raw text) ∈ v.members →
    text.length ≤ stringMaximum shape key
  contents : ∀ m ∈ v.members, contentUnder (some m.1) m.2 ≤ 1048576
  contentTotal : contentTotal v.members ≤ 8388608

/-- The names of a document are read as the grammar reads them, where they are read. -/
def DecodesNames (decodeKey : Bytes → Option String) : Prop :=
  ∀ raw text key, StringBody raw text → decodeKey (byte '"' :: raw ++ [byte '"']) = some key →
    key.toList = text

theorem arrayMaximum_some (key : String) (top : Bool) :
    arrayMaximum (some key) top = itemBoundary top key := by
  unfold arrayMaximum itemBoundary
  split <;> simp_all

/-! ## 2. What the pass charges -/

/-- What is demanded of a value directly under a name. -/
def Allowed (shape : InputShape) (top : Bool) (key : Option String) : Tree → Prop
  | .array items => items.length ≤ arrayMaximum key top
  | .string _ text => ∀ k ∈ key, text.length ≤ stringMaximum shape k ∧
      (k = "content_base64" → base64Size text.toList ≤ 1048576)
  | _ => True

theorem Allowed.nested {shape : InputShape} {top : Bool} {key : String} {v : Tree}
    (h : Allowed shape top (some key) v) : Allowed shape false (some key) v := by
  cases v with
  | array items =>
      refine Nat.le_trans h ?_
      rw [arrayMaximum_some, arrayMaximum_some]
      unfold itemBoundary
      cases top with
      | false => exact Nat.le_refl _
      | true =>
          by_cases hlist : key = "to" ∨ key = "cc" ∨ key = "bcc"
          · rw [if_pos hlist, if_pos hlist]
          · rw [if_neg hlist, if_neg hlist]
            split <;> simp
  | _ => exact h

/-- The pass went from one state to another over a phrase: at the depth it was, and with all
    that the phrase holds charged to the totals. -/
structure Charged (shape : InputShape) (st st' : Preflight) (nesting : Nat)
    (members : List (String × Tree)) (content recipients : Nat) : Prop where
  depth : st'.depth = st.depth
  nesting : st.depth + nesting ≤ 32
  allowed : ∀ m ∈ members, Allowed shape false (some m.1) m.2
  content : st.decodedAttachmentTotal + content ≤ st'.decodedAttachmentTotal
  recipients : st.recipientItems + recipients ≤ st'.recipientItems

section Charged

variable {shape : InputShape} {st st₁ st' : Preflight}

theorem Charged.refl (h : st.depth ≤ 32) : Charged shape st st 0 [] 0 0 :=
  ⟨rfl, h, fun _ h => absurd h List.not_mem_nil, Nat.le_refl _, Nat.le_refl _⟩

theorem Charged.trans {n n' c c' r r' : Nat} {ms ms' : List (String × Tree)}
    (h : Charged shape st st₁ n ms c r) (h' : Charged shape st₁ st' n' ms' c' r') :
    Charged shape st st' (max n n') (ms ++ ms') (c + c') (r + r') where
  depth := h'.depth.trans h.depth
  nesting := by
    have := h.nesting
    have := h'.nesting
    rw [h.depth] at this
    omega
  allowed m hm := (List.mem_append.mp hm).elim (h.allowed m) (h'.allowed m)
  content := by
    have := h.content
    have := h'.content
    omega
  recipients := by
    have := h.recipients
    have := h'.recipients
    omega

end Charged

theorem contentTotal_append (ms ms' : List (String × Tree)) :
    contentTotal (ms ++ ms') = contentTotal ms + contentTotal ms' := by
  rw [contentTotal, List.map_append, List.sum_append]
  rfl

theorem contentTotal_cons (key : String) (v : Tree) (ms : List (String × Tree)) :
    contentTotal ((key, v) :: ms) = contentUnder (some key) v + contentTotal ms := rfl

/-- What a value adds to the recipients: a list under its name in the top-level object, or the
    lists of the top-level object itself. -/
def recipientsAt (st : Preflight) (v : Tree) : Nat :=
  if st.containers.length = 1 then recipientsUnder st.currentKey v
  else if st.containers = [] then recipientTotal v.topMembers
  else 0

/-- What follows a value is no colon. -/
def ColonFree (rest : Bytes) : Prop := (skipWhitespace rest).head? ≠ some (byte ':')

section Observations

variable (decodeKey : Bytes → Option String) (shape : InputShape)

/-- The pass over a value. -/
def ObservesValue (v : Tree) (bytes : Bytes) : Prop :=
  ∀ (st fin : Preflight) (rest : Bytes), ColonFree rest → st.depth ≤ 32 →
    preflightFrom decodeKey shape st (bytes ++ rest) = .ok fin →
      ∃ st', preflightFrom decodeKey shape st' rest = .ok fin ∧ st'.containers = st.containers ∧
        Allowed shape (st.containers.length = 1) st.currentKey v ∧
        (st.containers = [] → ∀ m ∈ v.topMembers, Allowed shape true (some m.1) m.2) ∧
        Charged shape st st' v.nesting v.members
          (contentUnder st.currentKey v + contentTotal v.members) (recipientsAt st v)

/-- The pass over phrases of an object: its container stays. -/
def ObservesMembers (ms all : List (String × Tree)) (nesting : Nat) (bytes : Bytes) : Prop :=
  ∀ (st fin : Preflight) (rest : Bytes) (n : Nat) (containers : List Container),
    st.containers = .object n :: containers → ColonFree rest → st.depth ≤ 32 →
    preflightFrom decodeKey shape st (bytes ++ rest) = .ok fin →
      ∃ st' n', preflightFrom decodeKey shape st' rest = .ok fin ∧
        st'.containers = .object n' :: containers ∧
        (∀ m ∈ ms, Allowed shape (st.containers.length = 1) (some m.1) m.2) ∧
        Charged shape st st' nesting all (contentTotal all)
          (if st.containers.length = 1 then recipientTotal ms else 0)

/-- The pass over items of an array: its container counts them. -/
def ObservesItems (vs : List Tree) (bytes : Bytes) : Prop :=
  ∀ (st fin : Preflight) (rest : Bytes) (field : Option String) (items maximum : Nat)
    (counts : Bool) (containers : List Container),
    st.containers = .array field items maximum counts :: containers → ColonFree rest →
    st.depth ≤ 32 → preflightFrom decodeKey shape st (bytes ++ rest) = .ok fin →
      ∃ st' items', preflightFrom decodeKey shape st' rest = .ok fin ∧
        st'.containers = .array field items' maximum counts :: containers ∧
        items' + 1 = items + vs.length ∧
        Charged shape st st' (nestingItems vs) (membersOfItems vs)
          (contentTotal (membersOfItems vs)) 0

/-- The pass over a phrase. -/
def Observes : Phrase → Bytes → Prop
  | .value v, bytes | .item v, bytes => ObservesValue decodeKey shape v bytes
  | .items vs, bytes => ObservesItems decodeKey shape vs bytes
  | .member key v, bytes =>
      ObservesMembers decodeKey shape [(key, v)] ((key, v) :: v.members) v.nesting bytes
  | .members ms, bytes =>
      ObservesMembers decodeKey shape ms (membersOfMembers ms) (nestingMembers ms) bytes

/-! ## 3. Bytes between the delimiters -/

theorem skipWhitespace_space {ws : Bytes} (h : Space ws) (rest : Bytes) :
    skipWhitespace (ws ++ rest) = skipWhitespace rest :=
  List.dropWhile_append_of_pos fun b hb => decide_eq_true (h b hb)

theorem ColonFree.space {ws rest : Bytes} (h : Space ws) (hrest : ColonFree rest) :
    ColonFree (ws ++ rest) := by
  rw [ColonFree, skipWhitespace_space h]
  exact hrest

theorem ordinary_of_space {ws : Bytes} (h : Space ws) : ∀ b ∈ ws, Ordinary b := by
  intro b hb
  rcases h b hb with rfl | rfl | rfl | rfl <;> decide

/-- A digit is none of the characters outside the digits. -/
theorem digit_not_mem {b : UInt8} (h : Digit b) {cs : List Char}
    (hcs : cs.all fun c => (byte c).toNat < 48 ∨ 57 < (byte c).toNat) : b ∉ cs.map byte := by
  obtain ⟨h0, h9⟩ := h
  rw [UInt8.le_iff_toNat_le] at h0 h9
  have h48 : (byte '0').toNat = 48 := rfl
  have h57 : (byte '9').toNat = 57 := rfl
  intro hb
  obtain ⟨c, hc, rfl⟩ := List.mem_map.mp hb
  have := List.all_iff_forall_prop.mp hcs c hc
  omega

theorem ordinary_of_digit {b : UInt8} (h : Digit b) : Ordinary b := digit_not_mem h (by decide)

theorem ordinary_of_digits {bytes : Bytes} (h : Digits bytes) : ∀ b ∈ bytes, Ordinary b :=
  fun b hb => ordinary_of_digit (h.2 b hb)

theorem ordinary_append {a b : Bytes} (ha : ∀ x ∈ a, Ordinary x) (hb : ∀ x ∈ b, Ordinary x) :
    ∀ x ∈ a ++ b, Ordinary x := fun x hx => (List.mem_append.mp hx).elim (ha x) (hb x)

theorem ordinary_cons {a : UInt8} {b : Bytes} (ha : Ordinary a) (hb : ∀ x ∈ b, Ordinary x) :
    ∀ x ∈ a :: b, Ordinary x := List.forall_mem_cons.mpr ⟨ha, hb⟩

/-- The bytes of a number open, close and separate nothing. -/
theorem ordinary_of_number {bytes : Bytes} (h : Number bytes) : ∀ b ∈ bytes, Ordinary b := by
  have hnil : ∀ b ∈ ([] : Bytes), Ordinary b := fun _ h => absurd h List.not_mem_nil
  obtain ⟨hsign, hint, hfraction, hexponent⟩ := h
  refine ordinary_append (ordinary_append (ordinary_append ?_ ?_) ?_) ?_
  · rcases hsign with rfl | rfl
    · exact hnil
    · exact ordinary_cons (by decide) hnil
  · cases hint with
    | zero => exact ordinary_cons (by decide) hnil
    | digits hb _ hdigits =>
        exact ordinary_cons (ordinary_of_digit hb) fun d hd => ordinary_of_digit (hdigits d hd)
  · cases hfraction with
    | absent => exact hnil
    | present hdigits => exact ordinary_cons (by decide) (ordinary_of_digits hdigits)
  · cases hexponent with
    | absent => exact hnil
    | present he hsign hdigits =>
        refine ordinary_append (ordinary_cons ?_ ?_) (ordinary_of_digits hdigits)
        · rcases he with rfl | rfl <;> decide
        · rcases hsign with rfl | rfl | rfl
          · exact hnil
          · exact ordinary_cons (by decide) hnil
          · exact ordinary_cons (by decide) hnil

theorem ordinary_of_scalar {token : Bytes} (h : Literal token ∨ Number token) :
    ∀ b ∈ token, Ordinary b := by
  rcases h with (rfl | rfl | rfl) | h
  · exact List.all_iff_forall_prop.mp (by decide)
  · exact List.all_iff_forall_prop.mp (by decide)
  · exact List.all_iff_forall_prop.mp (by decide)
  · exact ordinary_of_number h

/-- A byte that a value may start with. -/
def Initial (b : UInt8) : Prop := b ∉ [' ', '\n', '\r', '\t', ']'].map byte

instance : DecidablePred Initial := fun b =>
  inferInstanceAs (Decidable (b ∉ [' ', '\n', '\r', '\t', ']'].map byte))

theorem initial_of_digit {b : UInt8} (h : Digit b) : Initial b := digit_not_mem h (by decide)

/-- Behind white space, a value starts. -/
def Starts (bytes : Bytes) : Prop :=
  ∃ ws b tail, Space ws ∧ Initial b ∧ bytes = ws ++ b :: tail

theorem Starts.append {bytes : Bytes} (h : Starts bytes) (rest : Bytes) : Starts (bytes ++ rest) := by
  obtain ⟨ws, b, tail, hws, hb, rfl⟩ := h
  exact ⟨ws, b, tail ++ rest, hws, hb, by simp⟩

theorem Starts.space {ws bytes : Bytes} (hws : Space ws) (h : Starts bytes) : Starts (ws ++ bytes) := by
  obtain ⟨ws', b, tail, hws', hb, rfl⟩ := h
  exact ⟨ws ++ ws', b, tail, fun x hx => (List.mem_append.mp hx).elim (hws x) (hws' x), hb, by simp⟩

theorem starts_cons {b : UInt8} (hb : Initial b) (tail : Bytes) : Starts (b :: tail) :=
  ⟨[], b, tail, fun _ h => absurd h List.not_mem_nil, hb, rfl⟩

/-- Where a value starts, no array ends. -/
theorem Starts.not_close {bytes : Bytes} (h : Starts bytes) :
    (skipWhitespace bytes).head? ≠ some (byte ']') := by
  obtain ⟨ws, b, tail, hws, hb, rfl⟩ := h
  simp only [Initial, List.map_cons, List.map_nil, List.mem_cons, List.not_mem_nil, or_false,
    not_or] at hb
  obtain ⟨hspace, hnewline, hreturn, htab, hclose⟩ := hb
  rw [skipWhitespace_space hws, skipWhitespace, List.dropWhile_cons_of_neg (by
    simp [hspace, hnewline, hreturn, htab])]
  intro he
  exact hclose (Option.some.inj he)

theorem starts_scalar {token : Bytes} (h : Literal token ∨ Number token) : Starts token := by
  rcases h with (rfl | rfl | rfl) | ⟨hsign, hint, -, -⟩
  · exact starts_cons (by decide) _
  · exact starts_cons (by decide) _
  · exact starts_cons (by decide) _
  · refine Starts.append (Starts.append ?_ _) _
    rcases hsign with rfl | rfl
    · cases hint with
      | zero => exact starts_cons (by decide) _
      | digits hb _ _ => exact starts_cons (initial_of_digit hb) _
    · exact starts_cons (by decide) _

/-- Whether a phrase starts with a value. -/
def Leads : Phrase → Prop
  | .value _ | .item _ | .items _ => True
  | _ => False

theorem starts_of_derives {p : Phrase} {bytes : Bytes} (h : Derives p bytes) (hp : Leads p) :
    Starts bytes := by
  induction h with
  | scalar htoken => exact starts_scalar htoken
  | string _ => exact starts_cons (by decide) _
  | emptyArray _ => exact starts_cons (by decide) _
  | array _ _ => exact starts_cons (by decide) _
  | emptyObject _ => exact starts_cons (by decide) _
  | object _ _ => exact starts_cons (by decide) _
  | item hbefore _ _ ih => exact ((ih trivial).space hbefore).append _
  | oneItem _ ih => exact ih trivial
  | moreItems _ _ ih _ => exact (ih trivial).append _
  | member _ _ _ _ _ => exact hp.elim
  | oneMember _ _ => exact hp.elim
  | moreMembers _ _ _ _ => exact hp.elim

/-! ## 4. The content of attachments -/

/-- A string of ASCII bytes without a backslash is its text, byte for byte. -/
theorem body_ascii {raw : Bytes} {text : List Char} (h : StringBody raw text)
    (hraw : ∀ b ∈ raw, b ≠ byte '\\' ∧ b.toNat < 0x80) :
    raw = text.map byte ∧ ∀ c ∈ text, c.toNat < 0x80 := by
  induction h with
  | nil => exact ⟨rfl, fun _ h => absurd h List.not_mem_nil⟩
  | @cons bytes rest c text hc _ ih =>
      obtain ⟨hrest, htext⟩ := ih fun b hb => hraw b (List.mem_append_right _ hb)
      cases hc with
      | unescaped _ =>
          obtain ⟨b, tail, hbytes⟩ := List.exists_cons_of_ne_nil (String.utf8EncodeChar_ne_nil (c := c))
          have hb : b ∈ String.utf8EncodeChar c := hbytes ▸ List.mem_cons_self
          have hascii := (eq_byte_of_mem hb (hraw b (List.mem_append_left _ hb)).2).1
          rw [utf8EncodeChar_ascii hascii, hrest]
          exact ⟨rfl, List.forall_mem_cons.mpr ⟨hascii, htext⟩⟩
      | short _ => exact absurd rfl (hraw _ (List.mem_append_left _ List.mem_cons_self)).1
      | unicode _ _ => exact absurd rfl (hraw _ (List.mem_append_left _ List.mem_cons_self)).1
      | pair _ _ _ _ _ _ => exact absurd rfl (hraw _ (List.mem_append_left _ List.mem_cons_self)).1

theorem isBase64Byte_facts {b : UInt8} (h : isBase64Byte b = true) :
    b ≠ byte '\\' ∧ b.toNat < 0x80 ∧ b ≠ byte '=' := by
  refine ⟨?_, ?_, ?_⟩
  · rintro rfl
    revert h
    decide
  · have hZ : (byte 'Z').toNat = 90 := rfl
    have hz : (byte 'z').toNat = 122 := rfl
    have h9 : (byte '9').toNat = 57 := rfl
    have hplus : (byte '+').toNat = 43 := rfl
    have hslash : (byte '/').toNat = 47 := rfl
    simp only [isBase64Byte, Bool.or_eq_true, Bool.and_eq_true, decide_eq_true_eq, beq_iff_eq,
      UInt8.le_iff_toNat_le] at h
    rcases h with (((h | h) | h) | rfl) | rfl
    · omega
    · omega
    · omega
    · decide
    · decide
  · rintro rfl
    revert h
    decide

theorem base64Padding_le (raw : Bytes) : base64Padding raw ≤ 2 ∧ base64Padding raw ≤ raw.length := by
  unfold base64Padding
  split
  · rename_i h
    exact ⟨Nat.le_refl 2, h.length_le⟩
  · split
    · rename_i h
      exact ⟨by decide, h.length_le⟩
    · exact ⟨Nat.zero_le _, Nat.zero_le _⟩

/-- **The length that the pass takes for canonical Base64 is the decoded size of the text.** -/
theorem base64Size_of_canonical {raw : Bytes} {text : List Char} (hbody : StringBody raw text)
    {decoded : Nat} (h : canonicalBase64DecodedLen raw = .ok decoded) :
    base64Size text = decoded := by
  unfold canonicalBase64DecodedLen at h
  split at h
  · rename_i hnil
    have htext := (body_ascii hbody (by simp [hnil])).1
    rw [hnil, eq_comm, List.map_eq_nil_iff] at htext
    rw [htext]
    exact Except.ok.inj h
  · simp only [bind_ok, ensure_ok, pure_ok] at h
    obtain ⟨_, hmod, _, ⟨hcontent, hpadding⟩, rfl⟩ := h
    obtain ⟨hle, hlen⟩ := base64Padding_le raw
    have hsplit := List.take_append_drop (raw.length - base64Padding raw) raw
    rw [List.all_eq_true] at hcontent hpadding
    have hpadding' : ∀ b ∈ raw.drop (raw.length - base64Padding raw), b = byte '=' :=
      fun b hb => by simpa using hpadding b hb
    have hraw : ∀ b ∈ raw, b ≠ byte '\\' ∧ b.toNat < 0x80 := by
      intro b hb
      rw [← hsplit] at hb
      rcases List.mem_append.mp hb with hb | hb
      · exact ⟨(isBase64Byte_facts (hcontent b hb)).1, (isBase64Byte_facts (hcontent b hb)).2.1⟩
      · rw [hpadding' b hb]
        exact ⟨by decide, by decide⟩
    obtain ⟨htext, hascii⟩ := body_ascii hbody hraw
    -- The characters that are no padding are those of the content.
    have hcount : text.countP (· ≠ '=') = raw.length - base64Padding raw := by
      have hbytes : raw.countP (· ≠ byte '=') = text.countP (· ≠ '=') := by
        rw [htext, List.countP_map]
        refine List.countP_congr fun c hc => ?_
        have hsame : byte c = byte '=' ↔ c = '=' :=
          ⟨byte_inj (hascii c hc) (by decide), congrArg byte⟩
        simpa using not_congr hsame
      have hfront : (raw.take (raw.length - base64Padding raw)).countP (· ≠ byte '=') =
          raw.length - base64Padding raw := by
        rw [List.countP_eq_length.mpr fun b hb =>
          decide_eq_true (isBase64Byte_facts (hcontent b hb)).2.2, List.length_take]
        omega
      have hback : (raw.drop (raw.length - base64Padding raw)).countP (· ≠ byte '=') = 0 :=
        List.countP_eq_zero.mpr fun b hb => by simp [hpadding' b hb]
      rw [← hbytes, ← hsplit, List.countP_append, hsplit, hfront, hback, Nat.add_zero]
    rw [base64Size, hcount]
    omega

/-! ## 5. Delimiters and strings -/

section Steps

variable {decodeKey shape} {st fin : Preflight} {rest : Bytes} {containers : List Container}

theorem preflightFrom_comma_array {field : Option String} {items maximum : Nat} {counts : Bool}
    (hst : st.containers = .array field items maximum counts :: containers)
    (h : preflightFrom decodeKey shape st (byte ',' :: rest) = .ok fin) :
    preflightFrom decodeKey shape
      { st with containers := .array field (items + 1) maximum counts :: containers } rest = .ok fin := by
  have hsymbol : st.symbol (byte ',') rest = st.comma := rfl
  rw [preflightFrom_symbol (by decide), hsymbol, Preflight.comma, hst] at h
  simp only [bind_ok, ensure_ok, pure_ok] at h
  obtain ⟨_, ⟨_, _, rfl⟩, h⟩ := h
  exact h

theorem preflightFrom_comma_object {n : Nat} (hst : st.containers = .object n :: containers)
    (h : preflightFrom decodeKey shape st (byte ',' :: rest) = .ok fin) :
    preflightFrom decodeKey shape st rest = .ok fin := by
  have hsymbol : st.symbol (byte ',') rest = st.comma := rfl
  rw [preflightFrom_symbol (by decide), hsymbol, Preflight.comma, hst] at h
  exact h

theorem preflightFrom_close_array {field : Option String} {items maximum : Nat} {counts : Bool}
    (hst : st.containers = .array field items maximum counts :: containers)
    (h : preflightFrom decodeKey shape st (byte ']' :: rest) = .ok fin) :
    items ≤ maximum ∧ preflightFrom decodeKey shape
      { st with
        depth := st.depth - 1
        containers := containers
        recipientItems := st.recipientItems + if counts && isRecipients field then items else 0 }
      rest = .ok fin := by
  have hsymbol : st.symbol (byte ']') rest = st.leaveArray := rfl
  rw [preflightFrom_symbol (by decide), hsymbol, Preflight.leaveArray, hst] at h
  simp only [bind_ok, ensure_ok, pure_ok] at h
  obtain ⟨_, ⟨_, hitems, _, _, rfl⟩, h⟩ := h
  exact ⟨hitems, h⟩

theorem preflightFrom_open_object (h : preflightFrom decodeKey shape st (byte '\x7b' :: rest) = .ok fin) :
    st.depth < 32 ∧ preflightFrom decodeKey shape (st.inside (.object 0)) rest = .ok fin := by
  have hsymbol : st.symbol (byte '\x7b') rest = st.enter (.object 0) := rfl
  rw [preflightFrom_symbol (by decide), hsymbol, bind_ok] at h
  obtain ⟨_, hopen, h⟩ := h
  obtain ⟨hdepth, rfl⟩ := Preflight.enter_ok.mp hopen
  exact ⟨hdepth, h⟩

theorem preflightFrom_close_object {n : Nat} (hst : st.containers = .object n :: containers)
    (h : preflightFrom decodeKey shape st (byte '\x7d' :: rest) = .ok fin) :
    preflightFrom decodeKey shape { st with depth := st.depth - 1, containers := containers } rest =
      .ok fin := by
  have hsymbol : st.symbol (byte '\x7d') rest = st.leaveObject := rfl
  rw [preflightFrom_symbol (by decide), hsymbol, Preflight.leaveObject, hst] at h
  exact h

/-- A string that is no field name is charged under the name last read. -/
theorem preflightFrom_text {raw : Bytes} {text : String} (hbody : StringBody raw text.toList)
    (hrest : ColonFree rest) (hdepth : st.depth ≤ 32)
    (h : preflightFrom decodeKey shape st (byte '"' :: (raw ++ byte '"' :: rest)) = .ok fin) :
    ∃ st', preflightFrom decodeKey shape st' rest = .ok fin ∧ st'.containers = st.containers ∧
      Allowed shape (st.containers.length = 1) st.currentKey (.string raw text) ∧
      Charged shape st st' 0 [] (contentUnder st.currentKey (.string raw text)) 0 := by
  obtain ⟨hasEscape, hscan⟩ := scan_body hbody false rest
  rw [preflightFrom_string hscan, Preflight.string, if_neg hrest, bind_ok] at h
  obtain ⟨st', htext, h⟩ := h
  refine ⟨st', h, ?_⟩
  unfold Preflight.text at htext
  cases hkey : st.currentKey with
  | none =>
      rw [hkey] at htext
      obtain rfl := Except.ok.inj htext
      have hunder : contentUnder none (.string raw text) = 0 := by
        simp [contentUnder]
      refine ⟨rfl, fun k hk => ?_, ?_⟩
      · cases hk
      · rw [hunder]
        exact .refl hdepth
  | some key =>
      rw [hkey] at htext
      simp only [bind_ok, decodedJsonStringChars_eq, decodedChars_body hbody, Except.ok.injEq,
        enforceStringLimit, ensure_ok] at htext
      obtain ⟨_, rfl, _, hlimit, htext⟩ := htext
      have hlength : text.length ≤ stringMaximum shape key := by
        rw [← String.length_toList]
        omega
      split at htext
      · rename_i hcontent
        simp only [bind_ok, ensure_ok, pure_ok] at htext
        obtain ⟨_, _, decoded, hdecoded, _, hmax, _, _, rfl⟩ := htext
        have hsize := base64Size_of_canonical hbody hdecoded
        refine ⟨rfl, fun k hk => ?_, ?_⟩
        · obtain rfl : key = k := Option.some.inj hk
          exact ⟨hlength, fun _ => hsize ▸ hmax⟩
        · have hunder : contentUnder (some key) (.string raw text) = decoded := by
            rw [contentUnder, hcontent, if_pos rfl, hsize]
          rw [hunder]
          exact ⟨rfl, hdepth, fun _ h => absurd h List.not_mem_nil, Nat.le_refl _, Nat.le_refl _⟩
      · rename_i hcontent
        rw [pure_ok] at htext
        subst htext
        refine ⟨rfl, fun k hk => ?_, ?_⟩
        · obtain rfl : key = k := Option.some.inj hk
          exact ⟨hlength, fun hk => absurd hk hcontent⟩
        · have hunder : contentUnder (some key) (.string raw text) = 0 :=
            if_neg fun hk => hcontent (Option.some.inj hk)
          rw [hunder]
          exact .refl hdepth

/-- A field name is kept as the grammar reads it. -/
theorem preflightFrom_name (hnames : DecodesNames decodeKey) {raw after : Bytes} {key : String}
    (hbody : StringBody raw key.toList) (hafter : Space after) {n : Nat}
    (hst : st.containers = .object n :: containers)
    (h : preflightFrom decodeKey shape st
      (byte '"' :: (raw ++ byte '"' :: (after ++ byte ':' :: rest))) = .ok fin) :
    preflightFrom decodeKey shape
      { st with currentKey := some key, containers := .object (n + 1) :: containers } rest = .ok fin := by
  obtain ⟨hasEscape, hscan⟩ := scan_body hbody false (after ++ byte ':' :: rest)
  have hcolon : (skipWhitespace (after ++ byte ':' :: rest)).head? = some (byte ':') := by
    rw [skipWhitespace_space hafter]
    rfl
  rw [preflightFrom_string hscan, Preflight.string, if_pos hcolon, Preflight.fieldName, hst] at h
  simp only [bind_ok, ensure_ok, orRefuse_ok, pure_ok] at h
  obtain ⟨_, ⟨_, _, name, hname, _, _, rfl⟩, h⟩ := h
  obtain rfl : name = key := String.toList_inj.mp (hnames raw key.toList name hbody hname)
  have hordinary : ∀ b ∈ after ++ [byte ':'], Ordinary b :=
    ordinary_append (ordinary_of_space hafter) (List.forall_mem_singleton.mpr (by decide))
  rw [List.append_cons, preflightFrom_ordinary hordinary] at h
  exact h

end Steps

/-! ## 6. Phrases -/

section Phrases

variable {decodeKey shape}

theorem colonFree_cons {b : UInt8} {rest : Bytes}
    (hb : b ∉ [' ', '\n', '\r', '\t', ':'].map byte) : ColonFree (b :: rest) := by
  simp only [List.map_cons, List.map_nil, List.mem_cons, List.not_mem_nil, or_false, not_or] at hb
  obtain ⟨hspace, hnewline, hreturn, htab, hcolon⟩ := hb
  rw [ColonFree, skipWhitespace, List.dropWhile_cons_of_neg (by
    simp [hspace, hnewline, hreturn, htab])]
  exact fun he => hcolon (Option.some.inj he)

theorem observes_scalar {token : Bytes} (h : Literal token ∨ Number token) :
    ObservesValue decodeKey shape (.scalar token) token := by
  intro st fin rest _ hdepth hrun
  rw [preflightFrom_ordinary (ordinary_of_scalar h)] at hrun
  refine ⟨st, hrun, rfl, trivial, fun _ m hm => absurd hm List.not_mem_nil, ?_⟩
  have hnone : recipientsAt st (.scalar token) = 0 := by
    simp [recipientsAt, recipientsUnder, recipientTotal, Tree.topMembers]
  rw [hnone]
  exact .refl hdepth

theorem observes_string {raw : Bytes} {text : String} (h : StringBody raw text.toList) :
    ObservesValue decodeKey shape (.string raw text) (byte '"' :: raw ++ [byte '"']) := by
  intro st fin rest hrest hdepth hrun
  rw [List.append_assoc, List.cons_append, List.singleton_append] at hrun
  obtain ⟨st', hrun, hcontainers, hallowed, hcharged⟩ := preflightFrom_text h hrest hdepth hrun
  refine ⟨st', hrun, hcontainers, hallowed, fun _ m hm => absurd hm List.not_mem_nil, ?_⟩
  have hnone : recipientsAt st (.string raw text) = 0 := by
    simp [recipientsAt, recipientsUnder, recipientTotal, Tree.topMembers]
  rw [hnone]
  exact hcharged

/-- The end of an array whose items were charged. -/
theorem observes_array_end {vs : List Tree} {st st₁ fin : Preflight} {rest : Bytes} {initial : Nat}
    (hcontainers : st₁.containers = .array st.currentKey vs.length
      (arrayMaximum st.currentKey (st.containers.length = 1))
      (st.containers.length = 1 && isRecipients st.currentKey) :: st.containers)
    (hcharged : Charged shape (st.inside (.array st.currentKey initial
      (arrayMaximum st.currentKey (st.containers.length = 1))
      (st.containers.length = 1 && isRecipients st.currentKey))) st₁ (nestingItems vs)
      (membersOfItems vs) (contentTotal (membersOfItems vs)) 0)
    (hrun : preflightFrom decodeKey shape st₁ (byte ']' :: rest) = .ok fin) :
    ∃ st', preflightFrom decodeKey shape st' rest = .ok fin ∧ st'.containers = st.containers ∧
      Allowed shape (st.containers.length = 1) st.currentKey (.array vs) ∧
      (st.containers = [] → ∀ m ∈ (Tree.array vs).topMembers, Allowed shape true (some m.1) m.2) ∧
      Charged shape st st' (Tree.array vs).nesting (Tree.array vs).members
        (contentUnder st.currentKey (.array vs) + contentTotal (Tree.array vs).members)
        (recipientsAt st (.array vs)) := by
  obtain ⟨hmax, hrun⟩ := preflightFrom_close_array hcontainers hrun
  obtain ⟨hd, hn, hallowed, hcontent, hrecipients⟩ := hcharged
  refine ⟨_, hrun, rfl, hmax, fun _ m hm => absurd hm List.not_mem_nil, ?_, ?_, hallowed, ?_, ?_⟩
  · show st₁.depth - 1 = st.depth
    rw [hd]
    exact Nat.add_sub_cancel st.depth 1
  · have : st.depth + 1 + nestingItems vs ≤ 32 := hn
    rw [Tree.nesting]
    omega
  · have hunder : contentUnder st.currentKey (.array vs) = 0 := rfl
    rw [hunder, Nat.zero_add]
    exact hcontent
  · refine Nat.add_le_add hrecipients ?_
    rw [recipientsAt, recipientsUnder]
    by_cases hlevel : st.containers.length = 1
    · rw [if_pos hlevel]
      simp [hlevel]
    · rw [if_neg hlevel]
      split
      · exact Nat.zero_le _
      · exact Nat.zero_le _

theorem observes_emptyArray {ws : Bytes} (h : Space ws) :
    ObservesValue decodeKey shape (.array []) (byte '[' :: ws ++ [byte ']']) := by
  intro st fin rest _ _ hrun
  rw [List.append_assoc, List.cons_append, List.singleton_append] at hrun
  have hnone : (if (skipWhitespace (ws ++ byte ']' :: rest)).head? = some (byte ']') then 0 else 1) = 0 := by
    rw [skipWhitespace_space h]
    rfl
  obtain ⟨hdepth, hrun⟩ := (preflightFrom_open hnone).mp hrun
  rw [preflightFrom_ordinary (ordinary_of_space h)] at hrun
  exact observes_array_end rfl (.refl hdepth) hrun

theorem observes_array {vs : List Tree} {bytes : Bytes} (hstarts : Starts bytes)
    (h : ObservesItems decodeKey shape vs bytes) :
    ObservesValue decodeKey shape (.array vs) (byte '[' :: bytes ++ [byte ']']) := by
  intro st fin rest _ _ hrun
  rw [List.append_assoc, List.cons_append, List.singleton_append] at hrun
  have hone : (if (skipWhitespace (bytes ++ byte ']' :: rest)).head? = some (byte ']') then 0 else 1) = 1 :=
    if_neg (hstarts.append _).not_close
  obtain ⟨hdepth, hrun⟩ := (preflightFrom_open hone).mp hrun
  obtain ⟨st₁, items, hrun, hcontainers, hitems, hcharged⟩ :=
    h (st.inside _) fin _ _ _ _ _ _ rfl (colonFree_cons (by decide)) hdepth hrun
  obtain rfl : items = vs.length := by omega
  exact observes_array_end hcontainers hcharged hrun

/-- The end of an object whose members were charged. -/
theorem observes_object_end {ms : List (String × Tree)} {st st₁ fin : Preflight} {rest : Bytes} {n : Nat}
    (hcontainers : st₁.containers = .object n :: st.containers)
    (hallowed : ∀ m ∈ ms, Allowed shape ((st.inside (.object 0)).containers.length = 1) (some m.1) m.2)
    (hcharged : Charged shape (st.inside (.object 0)) st₁ (nestingMembers ms) (membersOfMembers ms)
      (contentTotal (membersOfMembers ms))
      (if (st.inside (.object 0)).containers.length = 1 then recipientTotal ms else 0))
    (hrun : preflightFrom decodeKey shape st₁ (byte '\x7d' :: rest) = .ok fin) :
    ∃ st', preflightFrom decodeKey shape st' rest = .ok fin ∧ st'.containers = st.containers ∧
      Allowed shape (st.containers.length = 1) st.currentKey (.object ms) ∧
      (st.containers = [] → ∀ m ∈ (Tree.object ms).topMembers, Allowed shape true (some m.1) m.2) ∧
      Charged shape st st' (Tree.object ms).nesting (Tree.object ms).members
        (contentUnder st.currentKey (.object ms) + contentTotal (Tree.object ms).members)
        (recipientsAt st (.object ms)) := by
  have hrun := preflightFrom_close_object hcontainers hrun
  obtain ⟨hd, hn, hmembers, hcontent, hrecipients⟩ := hcharged
  have hone : (st.inside (.object 0)).containers.length = 1 ↔ st.containers = [] := by
    rw [← List.length_eq_zero_iff]
    exact Nat.succ_inj
  refine ⟨_, hrun, rfl, trivial, fun htop m hm => ?_, ?_, ?_, hmembers, ?_, ?_⟩
  · have := hallowed m hm
    rwa [decide_eq_true (hone.mpr htop)] at this
  · show st₁.depth - 1 = st.depth
    rw [hd]
    exact Nat.add_sub_cancel st.depth 1
  · have : st.depth + 1 + nestingMembers ms ≤ 32 := hn
    rw [Tree.nesting]
    omega
  · have hunder : contentUnder st.currentKey (.object ms) = 0 := rfl
    rw [hunder, Nat.zero_add]
    exact hcontent
  · refine Nat.le_trans (Nat.add_le_add_left ?_ _) hrecipients
    have hunder : recipientsUnder st.currentKey (.object ms) = 0 := rfl
    rw [recipientsAt, hunder]
    split
    · exact Nat.zero_le _
    · split
      · rename_i htop
        rw [if_pos (hone.mpr htop)]
        exact Nat.le_refl _
      · exact Nat.zero_le _

theorem observes_emptyObject {ws : Bytes} (h : Space ws) :
    ObservesValue decodeKey shape (.object []) (byte '\x7b' :: ws ++ [byte '\x7d']) := by
  intro st fin rest _ _ hrun
  rw [List.append_assoc, List.cons_append, List.singleton_append] at hrun
  obtain ⟨hdepth, hrun⟩ := preflightFrom_open_object hrun
  rw [preflightFrom_ordinary (ordinary_of_space h)] at hrun
  refine observes_object_end rfl (fun m hm => absurd hm List.not_mem_nil) ?_ hrun
  have hnone : (if (st.inside (.object 0)).containers.length = 1 then recipientTotal [] else 0) = 0 := by
    simp [recipientTotal]
  rw [hnone]
  exact .refl hdepth

theorem observes_object {ms : List (String × Tree)} {bytes : Bytes}
    (h : ObservesMembers decodeKey shape ms (membersOfMembers ms) (nestingMembers ms) bytes) :
    ObservesValue decodeKey shape (.object ms) (byte '\x7b' :: bytes ++ [byte '\x7d']) := by
  intro st fin rest _ _ hrun
  rw [List.append_assoc, List.cons_append, List.singleton_append] at hrun
  obtain ⟨hdepth, hrun⟩ := preflightFrom_open_object hrun
  obtain ⟨st₁, n, hrun, hcontainers, hallowed, hcharged⟩ :=
    h (st.inside _) fin _ _ _ rfl (colonFree_cons (by decide)) hdepth hrun
  exact observes_object_end hcontainers hallowed hcharged hrun

theorem observes_item {v : Tree} {before bytes after : Bytes} (hbefore : Space before)
    (hafter : Space after) (h : ObservesValue decodeKey shape v bytes) :
    ObservesValue decodeKey shape v (before ++ bytes ++ after) := by
  intro st fin rest hrest hdepth hrun
  rw [List.append_assoc, List.append_assoc, preflightFrom_ordinary (ordinary_of_space hbefore)] at hrun
  obtain ⟨st', hrun, hvalue⟩ := h st fin _ (hrest.space hafter) hdepth hrun
  rw [preflightFrom_ordinary (ordinary_of_space hafter)] at hrun
  exact ⟨st', hrun, hvalue⟩

theorem observes_oneItem {v : Tree} {bytes : Bytes} (h : ObservesValue decodeKey shape v bytes) :
    ObservesItems decodeKey shape [v] bytes := by
  intro st fin rest field items maximum counts containers hst hrest hdepth hrun
  obtain ⟨st', hrun, hcontainers, -, -, hcharged⟩ := h st fin rest hrest hdepth hrun
  refine ⟨st', items, hrun, hcontainers.trans hst, rfl, hcharged.depth, ?_, ?_, ?_, ?_⟩
  · rw [nestingItems, nestingItems, Nat.max_eq_left (Nat.zero_le _)]
    exact hcharged.nesting
  · rw [membersOfItems, membersOfItems, List.append_nil]
    exact hcharged.allowed
  · rw [membersOfItems, membersOfItems, List.append_nil]
    have := hcharged.content
    omega
  · exact Nat.le_trans (Nat.le_add_right _ _) hcharged.recipients

theorem observes_moreItems {v : Tree} {vs : List Tree} {bytes rest : Bytes}
    (h : ObservesValue decodeKey shape v bytes) (hrest : ObservesItems decodeKey shape vs rest) :
    ObservesItems decodeKey shape (v :: vs) (bytes ++ byte ',' :: rest) := by
  intro st fin tail field items maximum counts containers hst htail hdepth hrun
  rw [List.append_assoc, List.cons_append] at hrun
  obtain ⟨st₁, hrun, hcontainers, -, -, hfirst⟩ :=
    h st fin _ (colonFree_cons (by decide)) hdepth hrun
  have hrun := preflightFrom_comma_array (hcontainers.trans hst) hrun
  have hdepth₁ : st₁.depth ≤ 32 := hfirst.depth ▸ hdepth
  obtain ⟨st', items', hrun, hcontainers', hitems, hothers⟩ :=
    hrest { st₁ with containers := .array field (items + 1) maximum counts :: containers } fin tail
      _ _ _ _ _ rfl htail hdepth₁ hrun
  have hall := hfirst.trans ⟨hothers.depth, hothers.nesting, hothers.allowed, hothers.content,
    hothers.recipients⟩
  refine ⟨st', items', hrun, hcontainers', by rw [hitems, List.length_cons]; omega, hall.depth,
    hall.nesting, hall.allowed, ?_, ?_⟩
  · rw [membersOfItems, contentTotal_append]
    have := hall.content
    omega
  · have := hall.recipients
    omega

theorem observes_member (hnames : DecodesNames decodeKey) {key : String} {v : Tree}
    {before raw after bytes : Bytes} (hbefore : Space before) (hbody : StringBody raw key.toList)
    (hafter : Space after) (h : ObservesValue decodeKey shape v bytes) :
    ObservesMembers decodeKey shape [(key, v)] ((key, v) :: v.members) v.nesting
      (before ++ byte '"' :: raw ++ byte '"' :: after ++ byte ':' :: bytes) := by
  intro st fin rest n containers hst hrest hdepth hrun
  have hbytes : before ++ byte '"' :: raw ++ byte '"' :: after ++ byte ':' :: bytes ++ rest =
      before ++ byte '"' :: (raw ++ byte '"' :: (after ++ byte ':' :: (bytes ++ rest))) := by
    simp only [List.append_assoc, List.cons_append]
  rw [hbytes, preflightFrom_ordinary (ordinary_of_space hbefore)] at hrun
  have hrun := preflightFrom_name hnames hbody hafter hst hrun
  obtain ⟨st', hrun, hcontainers, hallowed, -, hcharged⟩ :=
    h { st with currentKey := some key, containers := .object (n + 1) :: containers } fin rest hrest
      hdepth hrun
  have hlevel : (Container.object (n + 1) :: containers).length = st.containers.length := by
    rw [hst]
    rfl
  rw [hlevel] at hallowed
  refine ⟨st', n + 1, hrun, hcontainers, List.forall_mem_singleton.mpr hallowed, hcharged.depth,
    hcharged.nesting, List.forall_mem_cons.mpr ⟨hallowed.nested, hcharged.allowed⟩,
    hcharged.content, ?_⟩
  refine Nat.le_trans (Nat.add_le_add_left ?_ _) hcharged.recipients
  rw [recipientsAt, hlevel]
  split
  · exact Nat.le_refl _
  · exact Nat.zero_le _

theorem observes_oneMember {key : String} {v : Tree} {bytes : Bytes}
    (h : ObservesMembers decodeKey shape [(key, v)] ((key, v) :: v.members) v.nesting bytes) :
    ObservesMembers decodeKey shape [(key, v)] (membersOfMembers [(key, v)]) (nestingMembers [(key, v)])
      bytes := by
  have hmembers : membersOfMembers [(key, v)] = (key, v) :: v.members := by
    rw [membersOfMembers, membersOfMembers, List.append_nil]
  have hnesting : nestingMembers [(key, v)] = v.nesting := by
    rw [nestingMembers, nestingMembers, Nat.max_eq_left (Nat.zero_le _)]
  rw [hmembers, hnesting]
  exact h

theorem observes_moreMembers {key : String} {v : Tree} {ms : List (String × Tree)}
    {bytes rest : Bytes}
    (h : ObservesMembers decodeKey shape [(key, v)] ((key, v) :: v.members) v.nesting bytes)
    (hrest : ObservesMembers decodeKey shape ms (membersOfMembers ms) (nestingMembers ms) rest) :
    ObservesMembers decodeKey shape ((key, v) :: ms) (membersOfMembers ((key, v) :: ms))
      (nestingMembers ((key, v) :: ms)) (bytes ++ byte ',' :: rest) := by
  intro st fin tail n containers hst htail hdepth hrun
  rw [List.append_assoc, List.cons_append] at hrun
  obtain ⟨st₁, n₁, hrun, hcontainers, hallowed, hfirst⟩ :=
    h st fin _ n containers hst (colonFree_cons (by decide)) hdepth hrun
  have hrun := preflightFrom_comma_object hcontainers hrun
  have hdepth₁ : st₁.depth ≤ 32 := hfirst.depth ▸ hdepth
  obtain ⟨st', n', hrun, hcontainers', hallowed', hothers⟩ :=
    hrest st₁ fin tail n₁ containers hcontainers htail hdepth₁ hrun
  have hlevel : st₁.containers.length = st.containers.length := by
    rw [hcontainers, hst]
    rfl
  rw [hlevel] at hallowed' hothers
  have hall := hfirst.trans hothers
  refine ⟨st', n', hrun, hcontainers', ?_, hall.depth, hall.nesting, hall.allowed, ?_, ?_⟩
  · exact List.forall_mem_cons.mpr ⟨hallowed _ (List.mem_singleton_self _), hallowed'⟩
  · have := hall.content
    rw [← contentTotal_append] at this
    exact this
  · refine Nat.le_trans (Nat.add_le_add_left ?_ _) hall.recipients
    split
    · exact Nat.le_refl _
    · exact Nat.zero_le _

/-- **The pass over a phrase of the grammar charges for the phrase.** -/
theorem observes (hnames : DecodesNames decodeKey) {p : Phrase} {bytes : Bytes}
    (h : Derives p bytes) : Observes decodeKey shape p bytes := by
  induction h with
  | scalar htoken => exact observes_scalar htoken
  | string hbody => exact observes_string hbody
  | emptyArray hws => exact observes_emptyArray hws
  | array hitems ih => exact observes_array (starts_of_derives hitems trivial) ih
  | emptyObject hws => exact observes_emptyObject hws
  | object _ ih => exact observes_object ih
  | item hbefore _ hafter ih => exact observes_item hbefore hafter ih
  | oneItem _ ih => exact observes_oneItem ih
  | moreItems _ _ ih ihrest => exact observes_moreItems ih ihrest
  | member hbefore hbody hafter _ ih => exact observes_member hnames hbefore hbody hafter ih
  | oneMember _ ih => exact observes_oneMember ih
  | moreMembers _ _ ih ihrest => exact observes_moreMembers ih ihrest

end Phrases

/-! ## 7. The totals -/

/-- The totals of the pass are within their budgets. -/
def Preflight.Bounded (st : Preflight) : Prop :=
  st.decodedAttachmentTotal ≤ 8388608 ∧ st.recipientItems ≤ 50

section Totals

variable {decodeKey shape} {st st' : Preflight}

theorem enter_bounded {container : Container} (h : st.enter container = .ok st')
    (hst : st.Bounded) : st'.Bounded := by
  obtain ⟨-, rfl⟩ := Preflight.enter_ok.mp h
  exact hst

theorem leaveArray_bounded (h : st.leaveArray = .ok st') (hst : st.Bounded) : st'.Bounded := by
  unfold Preflight.leaveArray at h
  split at h
  · simp only [bind_ok, ensure_ok, checkIf_ok, pure_ok] at h
    obtain ⟨_, -, _, hcount, rfl⟩ := h
    refine ⟨hst.1, ?_⟩
    split
    · rename_i hcounted
      exact hcount hcounted
    · exact hst.2
  · cases h

theorem symbol_bounded {b : UInt8} {bytes : Bytes} (h : st.symbol b bytes = .ok st')
    (hst : st.Bounded) : st'.Bounded := by
  unfold Preflight.symbol at h
  split at h
  · exact enter_bounded h hst
  · split at h
    · exact enter_bounded h hst
    · split at h
      · unfold Preflight.leaveObject at h
        split at h
        · obtain rfl := Except.ok.inj h
          exact hst
        · cases h
      · split at h
        · exact leaveArray_bounded h hst
        · split at h
          · unfold Preflight.comma at h
            split at h
            · simp only [bind_ok, ensure_ok, pure_ok] at h
              obtain ⟨_, -, rfl⟩ := h
              exact hst
            · obtain rfl := Except.ok.inj h
              exact hst
          · obtain rfl := Except.ok.inj h
            exact hst

theorem fieldName_bounded {raw : Bytes} (h : st.fieldName decodeKey raw = .ok st')
    (hst : st.Bounded) : st'.Bounded := by
  simp only [Preflight.fieldName, bind_ok, ensure_ok, orRefuse_ok] at h
  obtain ⟨_, -, key, -, h⟩ := h
  split at h
  · simp only [bind_ok, ensure_ok, pure_ok] at h
    obtain ⟨_, -, rfl⟩ := h
    exact hst
  · rw [pure_ok] at h
    subst h
    exact hst

theorem text_bounded {raw : Bytes} {hasEscape : Bool} (h : st.text shape raw hasEscape = .ok st')
    (hst : st.Bounded) : st'.Bounded := by
  unfold Preflight.text at h
  split at h
  · obtain rfl := Except.ok.inj h
    exact hst
  · simp only [bind_ok] at h
    obtain ⟨characters, -, _, -, h⟩ := h
    split at h
    · simp only [bind_ok, ensure_ok, pure_ok] at h
      obtain ⟨_, -, decoded, -, _, -, _, htotal, rfl⟩ := h
      exact ⟨htotal, hst.2⟩
    · rw [pure_ok] at h
      subst h
      exact hst

/-- **The pass keeps its totals within their budgets.** -/
theorem preflightFrom_bounded {bytes : Bytes} (h : preflightFrom decodeKey shape st bytes = .ok st')
    (hst : st.Bounded) : st'.Bounded := by
  fun_induction preflightFrom decodeKey shape st bytes with
  | case1 st =>
      obtain rfl := Except.ok.inj h
      exact hst
  | case2 => cases h
  | case3 st bytes raw hasEscape rest _ ih =>
      obtain ⟨st₁, hstring, h⟩ := bind_ok.mp h
      refine ih st₁ h ?_
      unfold Preflight.string at hstring
      split at hstring
      · exact fieldName_bounded hstring hst
      · exact text_bounded hstring hst
  | case4 st b bytes _ ih =>
      obtain ⟨st₁, hsymbol, h⟩ := bind_ok.mp h
      exact ih st₁ h (symbol_bounded hsymbol hst)

end Totals

end Observations

/-! ## 8. The budgets of a document -/

/-- **A JSON text that the lexical pass accepts is within its budgets**, whatever white space,
    spelling and order of names, repeated names and nesting it has. -/
theorem lexical_preflight_budgets {decodeKey : Bytes → Option String} {shape : InputShape}
    (hnames : DecodesNames decodeKey) {v : Tree} {bytes : Bytes} (htext : Text v bytes)
    (h : lexicalPreflight decodeKey shape bytes = .ok ()) : WithinBudgets shape v := by
  simp only [lexicalPreflight, bind_ok, ensure_ok] at h
  obtain ⟨fin, hrun, -⟩ := h
  have hbounded := preflightFrom_bounded hrun ⟨Nat.zero_le _, Nat.zero_le _⟩
  rw [← List.append_nil bytes] at hrun
  have hfree : ColonFree [] := fun h => nomatch h
  obtain ⟨st, hrun, -, -, htop, hcharged⟩ :=
    observes hnames htext .start fin [] hfree (Nat.zero_le _) hrun
  rw [preflightFrom] at hrun
  obtain rfl := Except.ok.inj hrun
  have htop := htop rfl
  have hnesting := hcharged.nesting
  have hcontent := hcharged.content
  have hrecipients := hcharged.recipients
  have hat : recipientsAt .start v = recipientTotal v.topMembers := rfl
  rw [hat] at hrecipients
  refine ⟨?_, fun key items hm => ?_, fun key items hm => ?_, ?_, fun key raw text hm => ?_,
    fun m hm => ?_, ?_⟩
  · exact (Nat.zero_add _).symm.le.trans hnesting
  · rw [← arrayMaximum_some]
    exact hcharged.allowed _ hm
  · rw [← arrayMaximum_some]
    exact htop _ hm
  · have := hbounded.2
    omega
  · exact (hcharged.allowed _ hm key rfl).1
  · obtain ⟨key, v⟩ := m
    have hallowed := hcharged.allowed _ hm
    cases v with
    | string raw text =>
        rw [contentUnder]
        split
        · rename_i hkey
          exact (hallowed key rfl).2 (Option.some.inj hkey)
        · exact Nat.zero_le _
    | _ => exact Nat.zero_le _
  · have := hbounded.1
    omega

namespace BudgetSample

/-- `to`, with an escape. -/
def name : Bytes := byte 't' :: byte '\\' :: byte 'u' :: "006f".toList.map byte

def text : Bytes :=
  byte '\x7b' :: (byte '"' :: (name ++ byte '"' :: byte ':' :: byte '[' :: byte ' ' :: byte ']' ::
    [byte '\x7d']))

def decodeKey (bytes : Bytes) : Option String :=
  if bytes = byte '"' :: name ++ [byte '"'] then some "to" else none

theorem name_body : StringBody name "to".toList := by
  have hunit : Unit16 [byte '0', byte '0', byte '6', byte 'f'] 0x6f :=
    .mk (w := 0) (x := 0) (y := 6) (z := 15) rfl rfl rfl rfl
  have ht : StringChar (String.utf8EncodeChar 't') 't' := .unescaped (by decide)
  exact .cons ht (.cons (.unicode hunit (.inl (by decide))) .nil)

theorem decodesNames : DecodesNames decodeKey := by
  intro raw text key hbody h
  unfold decodeKey at h
  split at h
  · rename_i hbytes
    obtain rfl := Option.some.inj h
    obtain rfl := List.append_cancel_right (List.cons.inj hbytes).2
    exact name_body.unique hbody
  · cases h

theorem derives : Text (.object [("to", .array [])]) text := by
  have hempty : Space [] := fun _ h => absurd h List.not_mem_nil
  have hvalue : Derives (.item (.array [])) (byte '[' :: byte ' ' :: [byte ']']) :=
    .item hempty (.emptyArray (List.forall_mem_singleton.mpr (.inl rfl))) hempty
  have hobject := Derives.object (.oneMember (.member hempty name_body hempty hvalue))
  exact .item hempty hobject hempty

theorem step {shape : InputShape} {st : Preflight} (st' : Preflight) {b : UInt8} {bytes : Bytes}
    (hb : b ≠ byte '"') (h : st.symbol b bytes = .ok st') :
    preflightFrom decodeKey shape st (b :: bytes) = preflightFrom decodeKey shape st' bytes := by
  rw [preflightFrom_symbol hb, h]
  rfl

theorem accepted : lexicalPreflight decodeKey .send text = .ok () := by
  have hname : preflightFrom decodeKey .send ⟨1, [.object 0], none, 0, 0⟩
      (byte '"' :: (name ++ byte '"' :: byte ':' :: byte '[' :: byte ' ' :: byte ']' ::
        [byte '\x7d'])) =
      preflightFrom decodeKey .send ⟨1, [.object 1], some "to", 0, 0⟩
        (byte ':' :: byte '[' :: byte ' ' :: byte ']' :: [byte '\x7d']) := by
    have hscan : scanJsonString false false (name ++ byte '"' :: byte ':' :: byte '[' :: byte ' ' ::
        byte ']' :: [byte '\x7d']) = .ok (name, true, byte ':' :: byte '[' :: byte ' ' :: byte ']' ::
          [byte '\x7d']) := rfl
    rw [preflightFrom_string hscan]
    rfl
  have hrun : preflightFrom decodeKey .send .start text = .ok ⟨0, [], some "to", 0, 0⟩ := by
    rw [text, step ⟨1, [.object 0], none, 0, 0⟩ (by decide) rfl, hname,
      step ⟨1, [.object 1], some "to", 0, 0⟩ (by decide) rfl,
      step ⟨2, [.array (some "to") 0 50 true, .object 1], some "to", 0, 0⟩ (by decide) rfl,
      step ⟨2, [.array (some "to") 0 50 true, .object 1], some "to", 0, 0⟩ (by decide) rfl,
      step ⟨1, [.object 1], some "to", 0, 0⟩ (by decide) rfl,
      step ⟨0, [], some "to", 0, 0⟩ (by decide) rfl, preflightFrom]
  simp only [lexicalPreflight, bind_ok, ensure_ok]
  exact ⟨_, hrun, rfl⟩

end BudgetSample

/-- A list of recipients under an escaped name. -/
theorem lexical_preflight_budgets_sample :
    WithinBudgets .send (.object [("to", .array [])]) :=
  lexical_preflight_budgets BudgetSample.decodesNames BudgetSample.derives BudgetSample.accepted

end Kirje
