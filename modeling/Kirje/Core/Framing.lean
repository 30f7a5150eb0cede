import Kirje.Base.Cursor
import Kirje.Core.Codec

/-
  File:      Kirje/Core/Framing.lean
  Subject:   The framing of transcripts and lists, as the loops of
             crates/kirje-core/src/account.rs and authorization.rs compute it.

  The loops check one field at a time and move a cursor; the transcripts of the other
  modules are read and written as a whole.  Both accept the same bytes.

  * `Cursor.encodeFields_ok`, `Cursor.parseFieldsAny_ok`: what the loops write and accept.
  * `Cursor.parseFieldsAny_iff`: **the loops and the readers of whole transcripts agree**.
  * **`transcript_framing_bijective`**: the framing is a bijection, for transcripts and for
    lists of any items whose codec is one.
-/

namespace Kirje

open Base

namespace Cursor

/-! ## 1. Transcripts -/

/-- The loop of `encode_fields`. -/
def encodeFrom : Option Nat → List (Nat × Bytes) → Result Bytes
  | _, [] => pure []
  | previous, (tag, value) :: fields => do
      ensure (previous.all (· < tag)) (.invalid "field tags must be strictly increasing")
      ensure (value.length < 2 ^ 32) (.stable .resourceLimit "field is too large")
      let rest ← encodeFrom (some tag) fields
      pure (item tag value ++ rest)

/-- `encode_fields`. -/
def encodeFields (domain : Bytes) (fields : List (Nat × Bytes)) : Result Bytes := do
  ensure (fields.length < 2 ^ 16) (.stable .resourceLimit "too many fields")
  let encoded ← encodeFrom none fields
  pure (domain ++ be 2 fields.length ++ encoded)

/-- `take`. -/
def take (bytes : Bytes) (cursor length : Nat) : Result (Bytes × Nat) :=
  orRefuse (slice bytes cursor length) (malformed "transcript is truncated")

/-- A number that `take` finds. -/
def takeNumber (bytes : Bytes) (cursor width : Nat) : Result (Nat × Nat) :=
  orRefuse (readNumber bytes cursor width) (malformed "transcript is truncated")

/-- The loop of `parse_fields_any`, for so many fields. -/
def parseFrom (bytes : Bytes) : Nat → Option Nat → Nat → Result (List (Nat × Bytes) × Nat)
  | 0, _, cursor => pure ([], cursor)
  | n + 1, previous, cursor => do
      let (tag, cursor) ← takeNumber bytes cursor 2
      ensure (previous.all (· < tag)) (malformed "transcript tags are not strictly increasing")
      let (length, cursor) ← takeNumber bytes cursor 4
      let (value, cursor) ← take bytes cursor length
      let (fields, cursor) ← parseFrom bytes n (some tag) cursor
      pure ((tag, value) :: fields, cursor)

/-- `parse_fields_any`. -/
def parseFieldsAny (bytes domain : Bytes) : Result (List (Nat × Bytes)) := do
  ensure (domain <+: bytes) (malformed "transcript domain is invalid")
  let (count, cursor) ← takeNumber bytes domain.length 2
  ensure (count ≤ 256) (limit "transcript has too many fields")
  let (fields, cursor) ← parseFrom bytes count none cursor
  ensure (cursor = bytes.length) (malformed "transcript contains trailing bytes")
  pure fields

/-- The tags go up from a tag. -/
def Ascends : Option Nat → List (Nat × Bytes) → Prop
  | _, [] => True
  | previous, (tag, _) :: fields => previous.all (· < tag) ∧ Ascends (some tag) fields

theorem ascends_some {tag : Nat} {fields : List (Nat × Bytes)} : Ascends (some tag) fields ↔
    (∀ f ∈ fields, tag < f.1) ∧ (fields.map Prod.fst).Pairwise (· < ·) := by
  induction fields generalizing tag with
  | nil => simp [Ascends]
  | cons f fields ih =>
      obtain ⟨t, value⟩ := f
      simp only [Ascends, ih, Option.all_some, decide_eq_true_eq, List.forall_mem_cons, List.map_cons,
        List.pairwise_cons, List.forall_mem_map]
      constructor
      · intro ⟨hlt, hall, hsorted⟩
        exact ⟨⟨hlt, fun f hf => hlt.trans (hall f hf)⟩, hall, hsorted⟩
      · intro ⟨⟨hlt, _⟩, hall, hsorted⟩
        exact ⟨hlt, hall, hsorted⟩

theorem ascends_none {fields : List (Nat × Bytes)} :
    Ascends none fields ↔ (fields.map Prod.fst).Pairwise (· < ·) := by
  cases fields with
  | nil => simp [Ascends]
  | cons f fields =>
      obtain ⟨t, value⟩ := f
      simp only [Ascends, ascends_some, Option.all_none, true_and, List.map_cons, List.pairwise_cons,
        List.forall_mem_map]

theorem encodeFrom_ok {previous : Option Nat} {fields : List (Nat × Bytes)} {bytes : Bytes} :
    encodeFrom previous fields = .ok bytes ↔
      Ascends previous fields ∧ (∀ f ∈ fields, f.2.length < 2 ^ 32) ∧ bytes = items fields := by
  induction fields generalizing previous bytes with
  | nil =>
      rw [encodeFrom, pure_ok]
      simp [Ascends, items, eq_comm]
  | cons f fields ih =>
      obtain ⟨tag, value⟩ := f
      simp only [encodeFrom, bind_ok, ensure_ok, pure_ok, ih, Ascends, List.forall_mem_cons, items,
        List.flatMap_cons]
      constructor
      · rintro ⟨_, hprevious, _, hlen, _, ⟨hascends, hfit, rfl⟩, rfl⟩
        exact ⟨⟨hprevious, hascends⟩, ⟨hlen, hfit⟩, rfl⟩
      · rintro ⟨⟨hprevious, hascends⟩, ⟨hlen, hfit⟩, rfl⟩
        exact ⟨(), hprevious, (), hlen, _, ⟨hascends, hfit, rfl⟩, rfl⟩

/-- **What `encode_fields` accepts and writes.** -/
theorem encodeFields_ok {domain bytes : Bytes} {fields : List (Nat × Bytes)} :
    encodeFields domain fields = .ok bytes ↔ fields.length < 2 ^ 16 ∧
      (fields.map Prod.fst).Pairwise (· < ·) ∧ (∀ f ∈ fields, f.2.length < 2 ^ 32) ∧
        bytes = fieldBytes domain fields := by
  simp only [encodeFields, bind_ok, ensure_ok, pure_ok, encodeFrom_ok, ascends_none]
  constructor
  · rintro ⟨_, hcount, _, ⟨hsorted, hfit, rfl⟩, rfl⟩
    exact ⟨hcount, hsorted, hfit, rfl⟩
  · rintro ⟨hcount, hsorted, hfit, rfl⟩
    exact ⟨(), hcount, _, ⟨hsorted, hfit, rfl⟩, rfl⟩

theorem take_append {front rest value : Bytes} {n cursor : Nat} :
    take (front ++ rest) front.length n = .ok (value, cursor) ↔
      ∃ tail, rest = value ++ tail ∧ value.length = n ∧ cursor = (front ++ value).length := by
  rw [take, orRefuse_ok, slice_append]

theorem takeNumber_append {front rest : Bytes} {width n cursor : Nat} :
    takeNumber (front ++ rest) front.length width = .ok (n, cursor) ↔
      ∃ tail, rest = be width n ++ tail ∧ n < 256 ^ width ∧ cursor = (front ++ be width n).length := by
  rw [takeNumber, orRefuse_ok, readNumber_append]

/-- **The loop reads fields off what is left.** -/
theorem parseFrom_append {front rest : Bytes} {n cursor : Nat} {previous : Option Nat}
    {fields : List (Nat × Bytes)} :
    parseFrom (front ++ rest) n previous front.length = .ok (fields, cursor) ↔
      ∃ tail, rest = items fields ++ tail ∧ fields.length = n ∧ Ascends previous fields ∧
        (∀ f ∈ fields, Fits f) ∧ cursor = (front ++ items fields).length := by
  induction n generalizing front rest previous fields cursor with
  | zero =>
      simp only [parseFrom, pure_ok, Prod.mk.injEq]
      constructor
      · rintro ⟨rfl, rfl⟩
        exact ⟨rest, rfl, rfl, trivial, fun _ h => absurd h List.not_mem_nil, by simp [items]⟩
      · rintro ⟨tail, rfl, hlen, -, -, rfl⟩
        obtain rfl := List.length_eq_zero_iff.mp hlen
        simp [items]
  | succ n ih =>
      simp only [parseFrom, bind_ok, ensure_ok, pure_ok, Prod.exists, Prod.mk.injEq, takeNumber_append]
      constructor
      · rintro ⟨tag, _, ⟨rest, rfl, htag, rfl⟩, _, hprevious, length, _, hlength, value, _, hvalue,
          fields, _, hfields, rfl, rfl⟩
        rw [← List.append_assoc, takeNumber_append] at hlength
        obtain ⟨rest, rfl, hlt, rfl⟩ := hlength
        rw [← List.append_assoc, ← List.append_assoc, take_append] at hvalue
        obtain ⟨rest, rfl, rfl, rfl⟩ := hvalue
        rw [← List.append_assoc, ← List.append_assoc, ← List.append_assoc, ih] at hfields
        obtain ⟨rest, rfl, rfl, hascends, hfit, rfl⟩ := hfields
        refine ⟨rest, ?_, rfl, ⟨hprevious, hascends⟩, List.forall_mem_cons.mpr ⟨⟨htag, hlt⟩, hfit⟩, ?_⟩
        · simp only [items, item, List.flatMap_cons, List.append_assoc]
        · simp only [items, item, List.flatMap_cons, List.append_assoc]
      · rintro ⟨tail, rfl, hlen, hascends, hfit, rfl⟩
        obtain ⟨⟨tag, value⟩, fields, rfl⟩ := List.exists_cons_of_length_eq_add_one hlen
        obtain ⟨⟨htag, hlt⟩, hfit⟩ := List.forall_mem_cons.mp hfit
        have hitems : items ((tag, value) :: fields) =
            be 2 tag ++ (be 4 value.length ++ (value ++ items fields)) := by
          simp only [items, item, List.flatMap_cons, List.append_assoc]
        rw [hitems]
        simp only [List.append_assoc]
        refine ⟨tag, _, ⟨_, rfl, htag, rfl⟩, (), hascends.1, value.length,
          (front ++ be 2 tag ++ be 4 value.length).length, ?_, value,
          (front ++ be 2 tag ++ be 4 value.length ++ value).length, ?_, fields, _, ?_, rfl, rfl⟩
        · rw [← List.append_assoc, takeNumber_append]
          exact ⟨_, rfl, hlt, rfl⟩
        · rw [← List.append_assoc, ← List.append_assoc, take_append]
          exact ⟨_, rfl, rfl, rfl⟩
        · rw [← List.append_assoc, ← List.append_assoc, ← List.append_assoc, ih]
          exact ⟨tail, rfl, Nat.succ.inj hlen, hascends.2, hfit, by simp only [List.append_assoc]⟩

/-- **What `parse_fields_any` accepts.** -/
theorem parseFieldsAny_ok {domain bytes : Bytes} {fields : List (Nat × Bytes)} :
    parseFieldsAny bytes domain = .ok fields ↔ fields.length ≤ 256 ∧
      (fields.map Prod.fst).Pairwise (· < ·) ∧ (∀ f ∈ fields, Fits f) ∧
        bytes = fieldBytes domain fields := by
  simp only [parseFieldsAny, bind_ok, ensure_ok, pure_ok, Prod.exists]
  constructor
  · rintro ⟨_, ⟨rest, rfl⟩, count, _, hcount, _, hmax, _, _, hfields, _, hend, rfl⟩
    rw [takeNumber_append] at hcount
    obtain ⟨rest, rfl, hlt, rfl⟩ := hcount
    rw [← List.append_assoc, parseFrom_append] at hfields
    obtain ⟨tail, rfl, rfl, hascends, hfit, rfl⟩ := hfields
    have htail : tail = [] := by
      rw [← List.length_eq_zero_iff]
      simp only [List.length_append] at hend
      omega
    rw [htail, List.append_nil]
    exact ⟨hmax, ascends_none.mp hascends, hfit, (List.append_assoc ..).symm⟩
  · rintro ⟨hmax, hsorted, hfit, rfl⟩
    refine ⟨(), ⟨_, (List.append_assoc ..).symm⟩, fields.length, (domain ++ be 2 fields.length).length,
      ?_, (), hmax, fields, _, ?_, (), rfl, rfl⟩
    · rw [fieldBytes, List.append_assoc, takeNumber_append]
      exact ⟨_, rfl, by omega, rfl⟩
    · rw [fieldBytes, ← List.append_nil (items fields), ← List.append_assoc, List.append_assoc _ (items fields),
        parseFrom_append]
      exact ⟨[], rfl, rfl, ascends_none.mpr hsorted, hfit, by simp⟩

/-! ## 2. Lists -/

section Lists

variable {α : Type} {encode : α → Result Bytes} {parse : Bytes → Result α}

/-- The loop of `parse_list`, for so many items from an ordinal on. -/
def parseItems (parse : Bytes → Result α) (bytes : Bytes) : Nat → Nat → Nat → Result (List α × Nat)
  | 0, _, cursor => pure ([], cursor)
  | n + 1, expected, cursor => do
      let (ordinal, cursor) ← takeNumber bytes cursor 2
      ensure (ordinal = expected) (malformed "canonical list ordinals are not contiguous")
      let (length, cursor) ← takeNumber bytes cursor 4
      let (value, cursor) ← take bytes cursor length
      let a ← parse value
      let (as, cursor) ← parseItems parse bytes n (expected + 1) cursor
      pure (a :: as, cursor)

/-- `parse_list`. -/
def parseList (parse : Bytes → Result α) (maximum : Nat) (bytes : Bytes) : Result (List α) := do
  let (count, cursor) ← takeNumber bytes 0 2
  ensure (count ≤ maximum) (limit "canonical list contains too many items")
  let (values, cursor) ← parseItems parse bytes count 0 cursor
  ensure (cursor = bytes.length) (malformed "canonical list contains trailing bytes")
  pure values

/-- `encode_list` refuses lists and items that do not fit their counts, and nothing else. -/
theorem encodeItems_isOk {ordinal : Nat} {values : List α} :
    (∃ bytes, encodeItems encode ordinal values = .ok bytes) ↔
      ∀ a ∈ values, ∃ bytes, encode a = .ok bytes ∧ bytes.length < 2 ^ 32 := by
  induction values generalizing ordinal with
  | nil => exact ⟨fun _ _ h => absurd h List.not_mem_nil, fun _ => ⟨[], rfl⟩⟩
  | cons a values ih =>
      simp only [encodeItems, bind_ok, ensure_ok, pure_ok, List.forall_mem_cons, ← @ih (ordinal + 1)]
      constructor
      · rintro ⟨_, bytes, ha, _, hlt, rest, hrest, rfl⟩
        exact ⟨⟨bytes, ha, hlt⟩, rest, hrest⟩
      · rintro ⟨⟨bytes, ha, hlt⟩, rest, hrest⟩
        exact ⟨_, bytes, ha, (), hlt, rest, hrest, rfl⟩

theorem encodeList_isOk {values : List α} :
    (∃ bytes, encodeList encode values = .ok bytes) ↔
      values.length < 2 ^ 16 ∧ ∀ a ∈ values, ∃ bytes, encode a = .ok bytes ∧ bytes.length < 2 ^ 32 := by
  rw [← @encodeItems_isOk _ encode 0 values]
  simp only [encodeList, bind_ok, ensure_ok, pure_ok]
  constructor
  · rintro ⟨_, _, hcount, encoded, hencoded, rfl⟩
    exact ⟨hcount, encoded, hencoded⟩
  · rintro ⟨hcount, encoded, hencoded⟩
    exact ⟨_, (), hcount, encoded, hencoded, rfl⟩

/-- **The loop reads items off what is left**: those whose encoding it is. -/
theorem parseItems_append (hcodec : ∀ a bytes, encode a = .ok bytes ↔ parse bytes = .ok a)
    {front rest : Bytes} {n ordinal cursor : Nat} {values : List α} :
    parseItems parse (front ++ rest) n ordinal front.length = .ok (values, cursor) ↔
      ∃ bytes tail, rest = bytes ++ tail ∧ values.length = n ∧
        encodeItems encode ordinal values = .ok bytes ∧ (∀ k < n, ordinal + k < 2 ^ 16) ∧
          cursor = (front ++ bytes).length := by
  induction n generalizing front rest ordinal values cursor with
  | zero =>
      simp only [parseItems, pure_ok, Prod.mk.injEq]
      constructor
      · rintro ⟨rfl, rfl⟩
        exact ⟨[], rest, rfl, rfl, rfl, fun k hk => absurd hk (Nat.not_lt_zero k), by simp⟩
      · rintro ⟨bytes, tail, rfl, hlen, hbytes, -, rfl⟩
        obtain rfl := List.length_eq_zero_iff.mp hlen
        rw [encodeItems, pure_ok] at hbytes
        simp [← hbytes]
  | succ n ih =>
      simp only [parseItems, bind_ok, ensure_ok, pure_ok, Prod.exists, Prod.mk.injEq, takeNumber_append]
      constructor
      · rintro ⟨ordinal, _, ⟨rest, rfl, hordinal, rfl⟩, _, rfl, length, _, hlength, value, _, hvalue, a,
          ha, as, _, has, rfl, rfl⟩
        rw [← List.append_assoc, takeNumber_append] at hlength
        obtain ⟨rest, rfl, hlt, rfl⟩ := hlength
        rw [← List.append_assoc, ← List.append_assoc, take_append] at hvalue
        obtain ⟨rest, rfl, rfl, rfl⟩ := hvalue
        rw [← List.append_assoc, ← List.append_assoc, ← List.append_assoc, ih] at has
        obtain ⟨bytes, tail, rfl, rfl, hbytes, hfit, rfl⟩ := has
        refine ⟨item ordinal value ++ bytes, tail, ?_, rfl, ?_, fun k hk => ?_, ?_⟩
        · simp only [item, List.append_assoc]
        · simp only [encodeItems, bind_ok, ensure_ok, pure_ok]
          exact ⟨value, (hcodec a value).mpr ha, (), hlt, bytes, hbytes, rfl⟩
        · cases k with
          | zero => exact hordinal
          | succ k =>
              have := hfit k (Nat.lt_of_succ_lt_succ hk)
              omega
        · simp only [item, List.append_assoc]
      · rintro ⟨bytes, tail, rfl, hlen, hbytes, hfit, rfl⟩
        obtain ⟨a, as, rfl⟩ := List.exists_cons_of_length_eq_add_one hlen
        simp only [encodeItems, bind_ok, ensure_ok, pure_ok] at hbytes
        obtain ⟨value, hvalue, _, hlt, bytes, hrest, rfl⟩ := hbytes
        simp only [item, List.append_assoc]
        refine ⟨ordinal, _, ⟨_, rfl, hfit 0 (Nat.succ_pos n), rfl⟩, (), rfl, value.length,
          (front ++ be 2 ordinal ++ be 4 value.length).length, ?_, value,
          (front ++ be 2 ordinal ++ be 4 value.length ++ value).length, ?_, a,
          (hcodec a value).mp hvalue, as, _, ?_, rfl, rfl⟩
        · rw [← List.append_assoc, takeNumber_append]
          exact ⟨_, rfl, hlt, rfl⟩
        · rw [← List.append_assoc, ← List.append_assoc, take_append]
          exact ⟨_, rfl, rfl, rfl⟩
        · rw [← List.append_assoc, ← List.append_assoc, ← List.append_assoc, ih]
          refine ⟨bytes, tail, rfl, Nat.succ.inj hlen, hrest, fun k hk => ?_,
            by simp only [List.append_assoc]⟩
          have := hfit (k + 1) (Nat.succ_lt_succ hk)
          omega

/-- **What `parse_list` accepts**: a list whose encoding it is. -/
theorem parseList_ok (hcodec : ∀ a bytes, encode a = .ok bytes ↔ parse bytes = .ok a)
    {maximum : Nat} {bytes : Bytes} {values : List α} :
    parseList parse maximum bytes = .ok values ↔
      values.length ≤ maximum ∧ encodeList encode values = .ok bytes := by
  have hstart : ∀ {n cursor : Nat}, takeNumber bytes 0 2 = .ok (n, cursor) ↔
      ∃ tail, bytes = be 2 n ++ tail ∧ n < 256 ^ 2 ∧ cursor = (be 2 n).length := @fun n cursor =>
    @takeNumber_append [] bytes 2 n cursor
  simp only [parseList, encodeList, bind_ok, ensure_ok, pure_ok, Prod.exists, hstart]
  constructor
  · rintro ⟨count, _, ⟨rest, rfl, hlt, rfl⟩, _, hmax, _, _, hitems, _, hend, rfl⟩
    rw [parseItems_append hcodec] at hitems
    obtain ⟨encoded, tail, rfl, rfl, hencoded, -, rfl⟩ := hitems
    have htail : tail = [] := by
      rw [← List.length_eq_zero_iff]
      simp only [List.length_append] at hend
      omega
    rw [htail, List.append_nil]
    exact ⟨hmax, (), hlt, encoded, hencoded, rfl⟩
  · rintro ⟨hmax, _, hcount, encoded, hencoded, rfl⟩
    refine ⟨values.length, _, ⟨encoded, rfl, hcount, rfl⟩, (), hmax, values, _, ?_, (), rfl, rfl⟩
    rw [← List.append_nil encoded, parseItems_append hcodec]
    exact ⟨encoded, [], rfl, rfl, hencoded, fun k hk => by omega, by simp⟩

end Lists

/-! ## 3. Transcripts as a whole -/

theorem split_ok {n : Nat} {bytes value rest : Bytes} :
    split n bytes = some (value, rest) ↔ bytes = value ++ rest ∧ value.length = n := by
  unfold split
  constructor
  · intro h
    split at h
    · simp only [Option.some.injEq, Prod.mk.injEq] at h
      obtain ⟨rfl, rfl⟩ := h
      exact ⟨(List.take_append_drop n bytes).symm, by rw [List.length_take]; omega⟩
    · cases h
  · rintro ⟨rfl, rfl⟩
    rw [if_pos (by rw [List.length_append]; omega), List.take_left, List.drop_left]

/-- Items that are read are what is in front. -/
theorem readItems_inv {n : Nat} {bytes rest : Bytes} {fields : List (Nat × Bytes)}
    (h : readItems n bytes = some (fields, rest)) :
    bytes = items fields ++ rest ∧ fields.length = n ∧ ∀ f ∈ fields, Fits f := by
  induction n generalizing bytes fields with
  | zero =>
      simp only [readItems, Option.some.injEq, Prod.mk.injEq] at h
      obtain ⟨rfl, rfl⟩ := h
      exact ⟨rfl, rfl, fun _ h => absurd h List.not_mem_nil⟩
  | succ n ih =>
      simp only [readItems, readItem, Option.bind_eq_bind, Option.bind_eq_some_iff, Prod.exists,
        Option.some.injEq, Prod.mk.injEq, split_ok] at h
      obtain ⟨_, _, _, ⟨tag, _, ⟨rfl, htag⟩, length, _, ⟨rfl, hlength⟩, value, _, ⟨rfl, hvalue⟩,
        ⟨rfl, rfl⟩, rfl⟩, fields, _, hfields, rfl, rfl⟩ := h
      obtain ⟨rfl, rfl, hfit⟩ := ih hfields
      have htag' : be 2 (ofBe tag) = tag := be_ofBe_of_length htag
      have hlength' : be 4 value.length = length := by
        rw [hvalue]
        exact be_ofBe_of_length hlength
      have htagLt := ofBe_lt tag
      have hlengthLt := ofBe_lt length
      rw [htag] at htagLt
      rw [hlength, ← hvalue] at hlengthLt
      refine ⟨?_, rfl, List.forall_mem_cons.mpr ⟨⟨htagLt, hlengthLt⟩, hfit⟩⟩
      simp only [items, item, List.flatMap_cons, htag', hlength', List.append_assoc]

/-- **The loop of `parse_fields_any` and the reader of whole transcripts accept the same.** -/
theorem parseFieldsAny_iff {domain bytes : Bytes} {fields : List (Nat × Bytes)} :
    parseFieldsAny bytes domain = .ok fields ↔ Kirje.parseFieldsAny bytes domain = .ok fields := by
  rw [parseFieldsAny_ok]
  constructor
  · rintro ⟨hmax, hsorted, hfit, rfl⟩
    exact parseFieldsAny_fieldBytes hmax hsorted hfit
  · intro h
    simp only [Kirje.parseFieldsAny, bind_ok, ensure_ok, orRefuse_ok, pure_ok, Prod.exists,
      split_ok] at h
    obtain ⟨_, ⟨front, rfl⟩, count, _, ⟨hcount, hlength⟩, _, hmax, fields, _, hfields, _, hsorted, _,
      rfl, rfl⟩ := h
    rw [List.drop_left] at hcount
    obtain ⟨rfl, hlen, hfit⟩ := readItems_inv hfields
    refine ⟨hlen ▸ hmax, hsorted, hfit, ?_⟩
    rw [hcount, fieldBytes, hlen, be_ofBe_of_length hlength, List.append_nil, List.append_assoc]

/-- **The loop of `encode_fields` and the writer of whole transcripts write the same.** -/
theorem encodeFields_iff {domain bytes : Bytes} {fields : List (Nat × Bytes)} :
    encodeFields domain fields = .ok bytes ↔ Kirje.encodeFields domain fields = .ok bytes := by
  rw [encodeFields_ok]
  simp only [Kirje.encodeFields, bind_ok, ensure_ok, pure_ok]
  constructor
  · rintro ⟨hcount, hsorted, hfit, rfl⟩
    exact ⟨(), hcount, (), hsorted, (), hfit, rfl⟩
  · rintro ⟨_, hcount, _, hsorted, _, hfit, rfl⟩
    exact ⟨hcount, hsorted, hfit, rfl⟩

end Cursor

/-! ## 4. The framing is a bijection -/

/-- **What `encode_fields` writes of at most 256 fields with increasing tags,
    `parse_fields_any` reads back, and what that accepts is what is written; and so for
    `encode_list` and `parse_list` with items whose codec has both laws.** -/
theorem transcript_framing_bijective :
    (∀ (domain : Bytes) (fields : List (Nat × Bytes)), fields.length ≤ 256 →
      (fields.map Prod.fst).Pairwise (· < ·) →
      (∀ f ∈ fields, f.1 < 2 ^ 16 ∧ f.2.length < 2 ^ 32) →
        ∃ bytes, Cursor.encodeFields domain fields = .ok bytes ∧
          Cursor.parseFieldsAny bytes domain = .ok fields) ∧
      (∀ (domain bytes : Bytes) (fields : List (Nat × Bytes)),
        Cursor.parseFieldsAny bytes domain = .ok fields →
          Cursor.encodeFields domain fields = .ok bytes) ∧
      ∀ (α : Type) (encode : α → Result Bytes) (parse : Bytes → Result α) (maximum : Nat),
        (∀ a bytes, encode a = .ok bytes → parse bytes = .ok a) →
        (∀ a bytes, parse bytes = .ok a → encode a = .ok bytes) →
          (∀ values bytes, values.length ≤ maximum → encodeList encode values = .ok bytes →
            Cursor.parseList parse maximum bytes = .ok values) ∧
          (∀ values bytes, Cursor.parseList parse maximum bytes = .ok values →
            encodeList encode values = .ok bytes) ∧
          ∀ values : List α, (∃ bytes, encodeList encode values = .ok bytes) ↔
            values.length < 2 ^ 16 ∧ ∀ a ∈ values, ∃ bytes, encode a = .ok bytes ∧ bytes.length < 2 ^ 32 := by
  refine ⟨fun domain fields hmax hsorted hfit => ?_, fun domain bytes fields h => ?_,
    fun α encode parse maximum hreads hwrites => ?_⟩
  · exact ⟨_, Cursor.encodeFields_ok.mpr ⟨by omega, hsorted, fun f hf => (hfit f hf).2, rfl⟩,
      Cursor.parseFieldsAny_ok.mpr ⟨hmax, hsorted, hfit, rfl⟩⟩
  · obtain ⟨hmax, hsorted, hfit, hbytes⟩ := Cursor.parseFieldsAny_ok.mp h
    exact Cursor.encodeFields_ok.mpr ⟨by omega, hsorted, fun f hf => (hfit f hf).2, hbytes⟩
  · have hcodec : ∀ a bytes, encode a = .ok bytes ↔ parse bytes = .ok a := fun a bytes =>
      ⟨hreads a bytes, hwrites a bytes⟩
    exact ⟨fun values bytes hmax h => (Cursor.parseList_ok hcodec).mpr ⟨hmax, h⟩,
      fun values bytes h => ((Cursor.parseList_ok hcodec).mp h).2, fun values => Cursor.encodeList_isOk⟩

end Kirje
