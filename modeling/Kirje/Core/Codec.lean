import Kirje.Core.Payload

/-
  File:      Kirje/Core/Codec.lean
  Subject:   The values inside transcripts: texts, codes, flags, nested transcripts and
             ordinal lists (crates/kirje-core/src/authorization.rs).

  An encoder and a parser are written separately.  What connects them is stated one
  value at a time by `ReadsBack`: whatever the encoder writes for the value, the parser
  reads as the value.

  * `parseText_utf8`, `parseOptionalText_optionalText`: texts.
  * `parseFields_encodeFields`: a nested transcript.
  * **`parseList_encodeList`**: a list reads back where its items do and the parser
    admits their number.
-/

namespace Kirje

open Base

/-! ## 1. UTF-8 -/

theorem utf8_toByteArray (s : String) : (utf8 s).toByteArray = s.toByteArray := by
  have h : (String.ofList s.toList).toByteArray = s.toList.utf8Encode := String.toByteArray_ofList
  rw [String.ofList_toList] at h
  exact h.symm

theorem utf8_injective : Function.Injective utf8 := by
  intro s t h
  rw [← String.toByteArray_inj, ← utf8_toByteArray, ← utf8_toByteArray, h]

theorem length_utf8 (s : String) : (utf8 s).length = s.utf8ByteSize := by
  rw [← List.size_toByteArray, utf8_toByteArray]
  rfl

/-- `parse_text`. -/
def parseText (bs : Bytes) : Result String :=
  orRefuse (String.fromUTF8? bs.toByteArray) (malformed "transcript text is not UTF-8")

@[simp] theorem parseText_utf8 (s : String) : parseText (utf8 s) = .ok s := by
  have h : String.fromUTF8? (utf8 s).toByteArray = some s := by
    rw [utf8_toByteArray, String.fromUTF8?, dif_pos s.isValidUTF8]
    rfl
  simp [parseText, h]

/-- `optional_text`: a byte for the presence, then the text. -/
def optionalText : Option String → Bytes
  | none => be 1 0
  | some s => be 1 1 ++ utf8 s

/-- `parse_optional_text`. -/
def parseOptionalText (bs : Bytes) : Result (Option String) :=
  match bs with
  | [] => .error (malformed "optional text presence encoding is malformed")
  | presence :: rest =>
      if presence = 0 ∧ rest = [] then pure none
      else if presence = 1 then some <$> parseText rest
      else .error (malformed "optional text presence encoding is malformed")

@[simp] theorem parseOptionalText_optionalText (s : Option String) :
    parseOptionalText (optionalText s) = .ok s := by
  cases s with
  | none => rfl
  | some s =>
      have hone : be 1 1 = [1] := rfl
      simp [parseOptionalText, optionalText, hone]

theorem length_optionalText (s : Option String) :
    (optionalText s).length = 1 + (s.map String.utf8ByteSize).getD 0 := by
  cases s with
  | none => rfl
  | some s => simp [optionalText, length_utf8]

/-! ## 2. Codes and flags -/

/-- A code of one byte: the values by their codes, and the refusal of any other. -/
def parseCode {α : Type} (values : List α) (code : α → Nat) (message : String) (bs : Bytes) :
    Result α := do
  let n ← parseNat 1 bs
  orRefuse (values.find? fun a => code a == n) (malformed message)

theorem parseCode_be {α : Type} {values : List α} {code : α → Nat} (message : String) {a : α}
    (hlt : code a < 256) (hfind : (values.find? fun b => code b == code a) = some a) :
    parseCode values code message (be 1 (code a)) = .ok a := by
  have hn : parseNat 1 (be 1 (code a)) = .ok (code a) := parseNat_be (by omega)
  simp [parseCode, hn, hfind]

/-- The code of an optional value: no byte where it is absent. -/
def optionalCode {α : Type} (code : α → Nat) (a : Option α) : Bytes :=
  (a.map fun a => be 1 (code a)).getD []

theorem parseOptional_code {α : Type} {parse : Bytes → Result α} {code : α → Nat} {a : Option α}
    (h : ∀ b ∈ a, parse (be 1 (code b)) = .ok b) :
    parseOptional parse (optionalCode code a) = .ok a := by
  cases a with
  | none => simp [parseOptional, optionalCode]
  | some a =>
      have hne : be 1 (code a) ≠ [] := fun he => by
        have := congrArg List.length he
        simp at this
      simp [parseOptional, optionalCode, hne, h a rfl]

def boolCode (b : Bool) : Nat := if b then 1 else 0

/-- `parse_bool`. -/
def parseBool (bs : Bytes) : Result Bool :=
  parseCode [false, true] boolCode "boolean field is not zero or one" bs

@[simp] theorem parseBool_be (b : Bool) : parseBool (be 1 (boolCode b)) = .ok b :=
  parseCode_be _ (by cases b <;> decide) (by cases b <;> rfl)

/-- `parse_nonzero_u32`. -/
def parseNonzeroU32 (bs : Bytes) : Result Nat := do
  let n ← parseNat 4 bs
  ensure (n ≠ 0) (malformed "positive u32 field cannot be zero")
  pure n

theorem parseNonzeroU32_be {n : Nat} (h : n ≠ 0) (hlt : n < 2 ^ 32) :
    parseNonzeroU32 (be 4 n) = .ok n := by
  have hn : parseNat 4 (be 4 n) = .ok n := parseNat_be (by omega)
  simp [parseNonzeroU32, hn, h]

/-- An optional number of eight bytes. -/
def optionalU64 (n : Option Nat) : Bytes := (n.map (be 8)).getD []

theorem parseOptional_u64 {n : Option Nat} (h : ∀ v ∈ n, v < 2 ^ 64) :
    parseOptional (parseNat 8) (optionalU64 n) = .ok n := by
  cases n with
  | none => simp [parseOptional, optionalU64]
  | some v =>
      have hv : v < 2 ^ 64 := h v rfl
      have hn : parseNat 8 (be 8 v) = .ok v := parseNat_be (by omega)
      have hne : be 8 v ≠ [] := fun he => by
        have := congrArg List.length he
        simp at this
      simp [parseOptional, optionalU64, hne, hn]

/-! ## 3. Transcripts -/

/-- `parse_fields`. -/
def parseFields (bytes domain : Bytes) (count : Nat) : Result (List (Nat × Bytes)) := do
  let fields ← parseFieldsAny bytes domain
  ensure (fields.length = count) (malformed "transcript field count is invalid")
  pure fields

/-- `expect_tags`, with the values in their order. -/
def expectTags (fields : List (Nat × Bytes)) (tags : List Nat) : Result (List Bytes) := do
  ensure (fields.map Prod.fst = tags) (malformed "transcript tag set is invalid")
  pure (fields.map Prod.snd)

/-- The encoder's bytes read back as the value. -/
def ReadsBack {α : Type} (encode : α → Result Bytes) (parse : Bytes → Result α) (a : α) : Prop :=
  ∀ bytes, encode a = .ok bytes → parse bytes = .ok a

/-- What `encode_fields` checked, and wrote. -/
theorem encodeFields_inv {domain bytes : Bytes} {fields : List (Nat × Bytes)}
    (h : encodeFields domain fields = .ok bytes) :
    (fields.map Prod.fst).Pairwise (· < ·) ∧ (∀ f ∈ fields, f.2.length < 2 ^ 32) ∧
      bytes = fieldBytes domain fields := by
  simp only [encodeFields, bind_ok, ensure_ok, pure_ok] at h
  obtain ⟨_, -, _, htags, _, hfit, rfl⟩ := h
  exact ⟨htags, hfit, rfl⟩

/-- **A transcript reads back.** -/
theorem parseFieldsAny_encodeFields {domain bytes : Bytes} {fields : List (Nat × Bytes)}
    (h : encodeFields domain fields = .ok bytes) (hn : fields.length ≤ 256)
    (htags : ∀ f ∈ fields, f.1 < 2 ^ 16) : parseFieldsAny bytes domain = .ok fields := by
  obtain ⟨hsorted, hfit, rfl⟩ := encodeFields_inv h
  exact parseFieldsAny_fieldBytes hn hsorted fun f hf => ⟨htags f hf, hfit f hf⟩

theorem parseFields_encodeFields {domain bytes : Bytes} {fields : List (Nat × Bytes)} {n : Nat}
    (h : encodeFields domain fields = .ok bytes) (hn : fields.length = n) (hle : n ≤ 256)
    (htags : ∀ f ∈ fields, f.1 < 2 ^ 16) : parseFields bytes domain n = .ok fields := by
  simp only [parseFields, bind_ok, ensure_ok, pure_ok]
  exact ⟨fields, parseFieldsAny_encodeFields h (by omega) htags, (), hn, rfl⟩

/-- The bytes of a transcript, counted. -/
theorem length_fieldBytes (domain : Bytes) (fields : List (Nat × Bytes)) :
    (fieldBytes domain fields).length =
      domain.length + 2 + (fields.map fun f => 6 + f.2.length).sum := by
  have hitems : (items fields).length = (fields.map fun f => 6 + f.2.length).sum := by
    rw [items, List.length_flatMap]
    refine congrArg List.sum (List.map_congr_left fun f _ => ?_)
    exact length_item f.1 f.2
  rw [fieldBytes, List.length_append, List.length_append, length_be, hitems]

/-! ## 4. Lists -/

/-- The items of `encode_list`, from an ordinal on. -/
def encodeItems {α : Type} (encode : α → Result Bytes) : Nat → List α → Result Bytes
  | _, [] => pure []
  | ordinal, a :: as => do
      let bytes ← encode a
      ensure (bytes.length < 2 ^ 32) (limit "canonical list item is too large")
      let rest ← encodeItems encode (ordinal + 1) as
      pure (item ordinal bytes ++ rest)

/-- `encode_list`. -/
def encodeList {α : Type} (encode : α → Result Bytes) (values : List α) : Result Bytes := do
  ensure (values.length < 2 ^ 16) (limit "canonical list contains too many items")
  let encoded ← encodeItems encode 0 values
  pure (be 2 values.length ++ encoded)

/-- The items of `parse_list`: so many, from an ordinal on. -/
def parseItems {α : Type} (parse : Bytes → Result α) : Nat → Nat → Bytes → Result (List α × Bytes)
  | 0, _, bs => pure ([], bs)
  | n + 1, expected, bs => do
      let (ordinal, bs) ← orRefuse (split 2 bs) (malformed "transcript is truncated")
      ensure (ofBe ordinal = expected) (malformed "canonical list ordinals are not contiguous")
      let (length, bs) ← orRefuse (split 4 bs) (malformed "transcript is truncated")
      let (value, bs) ← orRefuse (split (ofBe length) bs) (malformed "transcript is truncated")
      let a ← parse value
      let (as, bs) ← parseItems parse n (expected + 1) bs
      pure (a :: as, bs)

/-- `parse_list`. -/
def parseList {α : Type} (parse : Bytes → Result α) (maximum : Nat) (bs : Bytes) :
    Result (List α) := do
  let (count, bs) ← orRefuse (split 2 bs) (malformed "transcript is truncated")
  ensure (ofBe count ≤ maximum) (limit "canonical list contains too many items")
  let (values, bs) ← parseItems parse (ofBe count) 0 bs
  ensure (bs = []) (malformed "canonical list contains trailing bytes")
  pure values

section Lists

variable {α : Type} {encode : α → Result Bytes} {parse : Bytes → Result α}

/-- The items of a list read back, whatever follows them. -/
theorem parseItems_encodeItems {values : List α} (h : ∀ a ∈ values, ReadsBack encode parse a)
    {ordinal : Nat} (hord : ordinal + values.length ≤ 2 ^ 16) {bytes : Bytes}
    (hbytes : encodeItems encode ordinal values = .ok bytes) (rest : Bytes) :
    parseItems parse values.length ordinal (bytes ++ rest) = .ok (values, rest) := by
  induction values generalizing ordinal bytes with
  | nil =>
      rw [encodeItems, pure_ok] at hbytes
      subst hbytes
      rfl
  | cons a as ih =>
      simp only [encodeItems, bind_ok, ensure_ok, pure_ok] at hbytes
      obtain ⟨value, hvalue, _, hfit, tail, htail, rfl⟩ := hbytes
      rw [List.length_cons] at hord
      have hord' : ofBe (be 2 ordinal) = ordinal := ofBe_be (by omega)
      have hlen : ofBe (be 4 value.length) = value.length := ofBe_be (by omega)
      have hparse := h a List.mem_cons_self value hvalue
      have hrest := ih (fun b hb => h b (List.mem_cons_of_mem _ hb)) (by omega) htail
      rw [List.length_cons, parseItems]
      simp only [item, List.append_assoc, split_append_of_length (length_be _ _), bind_ok, orRefuse_ok,
        Option.some.injEq, exists_eq_left', ensure_ok, pure_ok, hord', hlen, split_append]
      exact ⟨(), trivial, a, hparse, (as, rest), hrest, rfl⟩

/-- **A list reads back.** -/
theorem parseList_encodeList {values : List α} (h : ∀ a ∈ values, ReadsBack encode parse a)
    {maximum : Nat} (hmax : values.length ≤ maximum) {bytes : Bytes}
    (hbytes : encodeList encode values = .ok bytes) : parseList parse maximum bytes = .ok values := by
  simp only [encodeList, bind_ok, ensure_ok, pure_ok] at hbytes
  obtain ⟨_, hcount, encoded, hencoded, rfl⟩ := hbytes
  have hofBe : ofBe (be 2 values.length) = values.length := ofBe_be (by omega)
  have hitems : parseItems parse values.length 0 (encoded ++ []) = .ok (values, []) :=
    parseItems_encodeItems h (by omega) hencoded []
  rw [List.append_nil] at hitems
  simp only [parseList, split_append_of_length (length_be _ _), bind_ok, orRefuse_ok,
    Option.some.injEq, exists_eq_left', ensure_ok, pure_ok, hofBe]
  exact ⟨(), hmax, (values, []), hitems, (), rfl, rfl⟩

/-- A list that is longer than the parser admits is refused. -/
theorem parseList_of_long {values : List α} {maximum : Nat} (hmax : maximum < values.length)
    {bytes : Bytes} (hbytes : encodeList encode values = .ok bytes) (as : List α) :
    parseList parse maximum bytes ≠ .ok as := by
  simp only [encodeList, bind_ok, ensure_ok, pure_ok] at hbytes
  obtain ⟨_, hcount, encoded, -, rfl⟩ := hbytes
  have hofBe : ofBe (be 2 values.length) = values.length := ofBe_be (by omega)
  intro h
  simp only [parseList, split_append_of_length (length_be _ _), bind_ok, orRefuse_ok,
    Option.some.injEq, exists_eq_left', ensure_ok, hofBe] at h
  obtain ⟨_, hle, -⟩ := h
  omega

/-- The bytes of a list, counted. -/
theorem length_encodeList {values : List α} {n : Nat}
    (h : ∀ a ∈ values, ∀ bytes, encode a = .ok bytes → bytes.length ≤ n) {bytes : Bytes}
    (hbytes : encodeList encode values = .ok bytes) :
    bytes.length ≤ 2 + values.length * (6 + n) := by
  have hitems : ∀ (as : List α) (ordinal : Nat) (bs : Bytes), (∀ a ∈ as, a ∈ values) →
      encodeItems encode ordinal as = .ok bs → bs.length ≤ as.length * (6 + n) := by
    intro as
    induction as with
    | nil =>
        intro ordinal bs _ hbs
        rw [encodeItems, pure_ok] at hbs
        subst hbs
        simp
    | cons a as ih =>
        intro ordinal bs hsub hbs
        simp only [encodeItems, bind_ok, ensure_ok, pure_ok] at hbs
        obtain ⟨value, hvalue, _, -, tail, htail, rfl⟩ := hbs
        have hval := h a (hsub a List.mem_cons_self) value hvalue
        have htl := ih (ordinal + 1) tail (fun b hb => hsub b (List.mem_cons_of_mem _ hb)) htail
        have hmul : (as.length + 1) * (6 + n) = as.length * (6 + n) + (6 + n) := by ring
        rw [List.length_append, length_item, List.length_cons, hmul]
        omega
  simp only [encodeList, bind_ok, ensure_ok, pure_ok] at hbytes
  obtain ⟨_, -, encoded, hencoded, rfl⟩ := hbytes
  have := hitems values 0 encoded (fun a ha => ha) hencoded
  rw [List.length_append, length_be]
  omega

end Lists

end Kirje
