import Kirje.Authority.Locators
import Kirje.Base.Utf8
import Kirje.Core.Framing

/-
  File:      Kirje/Authority/Codecs.lean
  Subject:   The transcripts of the authority store, field by field
             (crates/kirje-store/src/authority.rs): `parse_delete_only_locator`,
             `delete_only_locator_shape_is_valid` and `parse_account_store_event_detail`
             as they move their cursors.

  The store tags its fields from one and has its own encoder and two parsers.  They
  agree with the core's `encode_fields` and with one another.

  * `readFields_append`: what a parser reads at a cursor.
  * `readTranscript_iff`: **a transcript is read exactly where it was written**.
  * `Cursor.parseDeleteOnlyLocator_eq`, `Cursor.parseStoreEventDetail_eq`,
    `shapeIsValid_eq`: the cursors read what the readers of whole transcripts read.
  * `parseDeleteOnlyLocator_iff`, `parseStoreEventDetail_iff`: what the parsers accept.
  * **`store_codecs_agree`**: the encoders write the same bytes, and the parsers accept
    what was encoded and nothing else.
-/

namespace Kirje.Authority

open Base

/-! ## 1. Fields tagged in their order -/

/-- Fields with their tags, from a tag on. -/
def tagged : Nat → List Bytes → List (Nat × Bytes)
  | _, [] => []
  | tag, field :: fields => (tag, field) :: tagged (tag + 1) fields

theorem tagged_eq_mapIdx (tag : Nat) (fields : List Bytes) :
    tagged tag fields = fields.mapIdx fun i f => (tag + i, f) := by
  induction fields generalizing tag with
  | nil => rfl
  | cons field fields ih =>
      rw [tagged, ih, List.mapIdx_cons]
      refine congrArg _ (congrFun (congrArg _ (funext fun i => funext fun f => ?_)) fields)
      rw [Nat.add_right_comm, Nat.add_assoc]

theorem length_tagged (tag : Nat) (fields : List Bytes) :
    (tagged tag fields).length = fields.length := by
  rw [tagged_eq_mapIdx, List.length_mapIdx]

theorem mem_tagged {tag : Nat} {fields : List Bytes} {f : Nat × Bytes} (h : f ∈ tagged tag fields) :
    tag ≤ f.1 ∧ f.1 < tag + fields.length ∧ f.2 ∈ fields := by
  rw [tagged_eq_mapIdx] at h
  obtain ⟨i, hi, rfl⟩ := List.mem_mapIdx.mp h
  exact ⟨Nat.le_add_right tag i, Nat.add_lt_add_left hi tag, List.getElem_mem hi⟩

theorem fits_of_tagged {tag : Nat} {fields : List Bytes} (h : ∀ f ∈ tagged tag fields, Fits f) :
    ∀ f ∈ fields, f.length < 2 ^ 32 := by
  intro f hf
  obtain ⟨i, hi, rfl⟩ := List.getElem_of_mem hf
  refine (h (tag + i, fields[i]) ?_).2
  rw [tagged_eq_mapIdx]
  exact List.mem_mapIdx.mpr ⟨i, hi, rfl⟩

theorem tagged_sorted (tag : Nat) (fields : List Bytes) :
    ((tagged tag fields).map Prod.fst).Pairwise (· < ·) := by
  induction fields generalizing tag with
  | nil => exact List.Pairwise.nil
  | cons field fields ih =>
      refine List.Pairwise.cons (fun t ht => ?_) (ih (tag + 1))
      obtain ⟨f, hf, rfl⟩ := List.mem_map.mp ht
      exact (mem_tagged hf).1

theorem encodeTranscript_tagged {domain : Bytes} {fields : List Bytes} (hn : fields.length ≤ 65535)
    (hl : ∀ f ∈ fields, f.length < 2 ^ 32) :
    encodeTranscript domain fields = fieldBytes domain (tagged 1 fields) := by
  have hflip : (fields.mapIdx fun i f => (i + 1, f)) = tagged 1 fields := by
    rw [tagged_eq_mapIdx]
    simp only [Nat.add_comm]
  rw [encodeTranscript_eq hn hl, hflip, fieldBytes, length_tagged]

/-! ## 2. Readers -/

/-- `transcript_field`; its refusals are one error. -/
def transcriptField (bytes : Bytes) (cursor expectedTag : Nat) : Option (Bytes × Nat) := do
  let (tag, cursor) ← readNumber bytes cursor 2
  guard (tag = expectedTag)
  let (length, cursor) ← readNumber bytes cursor 4
  slice bytes cursor length

/-- So many fields, from a tag on. -/
def readFields (bytes : Bytes) : Nat → Nat → Nat → Option (List Bytes × Nat)
  | 0, _, cursor => some ([], cursor)
  | n + 1, tag, cursor => do
      let (field, cursor) ← transcriptField bytes cursor tag
      let (fields, cursor) ← readFields bytes n (tag + 1) cursor
      some (field :: fields, cursor)

theorem transcriptField_append {front rest field : Bytes} {tag cursor : Nat} :
    transcriptField (front ++ rest) front.length tag = some (field, cursor) ↔
      ∃ tail, rest = item tag field ++ tail ∧ Fits (tag, field) ∧
        cursor = (front ++ item tag field).length := by
  simp only [transcriptField, Option.bind_eq_bind, Option.bind_eq_some_iff, guard_some, Prod.exists,
    readNumber_append]
  constructor
  · rintro ⟨tag, _, ⟨rest, rfl, htag, rfl⟩, _, rfl, length, _, hlength, hfield⟩
    rw [← List.append_assoc, readNumber_append] at hlength
    obtain ⟨rest, rfl, hlt, rfl⟩ := hlength
    rw [← List.append_assoc, ← List.append_assoc, slice_append] at hfield
    obtain ⟨rest, rfl, rfl, rfl⟩ := hfield
    exact ⟨rest, by simp only [item, List.append_assoc], ⟨htag, hlt⟩,
      by simp only [item, List.append_assoc]⟩
  · rintro ⟨tail, rfl, ⟨htag, hlt⟩, rfl⟩
    simp only [item, List.append_assoc]
    refine ⟨tag, _, ⟨_, rfl, htag, rfl⟩, (), rfl, field.length,
      (front ++ be 2 tag ++ be 4 field.length).length, ?_, ?_⟩
    · rw [← List.append_assoc, readNumber_append]
      exact ⟨_, rfl, hlt, rfl⟩
    · rw [← List.append_assoc, ← List.append_assoc, slice_append]
      exact ⟨tail, rfl, rfl, by simp only [List.append_assoc]⟩

/-- **The fields that are read are those that stand there.** -/
theorem readFields_append {front rest : Bytes} {n tag cursor : Nat} {fields : List Bytes} :
    readFields (front ++ rest) n tag front.length = some (fields, cursor) ↔
      ∃ tail, rest = items (tagged tag fields) ++ tail ∧ fields.length = n ∧
        (∀ f ∈ tagged tag fields, Fits f) ∧ cursor = (front ++ items (tagged tag fields)).length := by
  induction n generalizing front rest tag fields cursor with
  | zero =>
      simp only [readFields, Option.some.injEq, Prod.mk.injEq]
      constructor
      · rintro ⟨rfl, rfl⟩
        exact ⟨rest, rfl, rfl, fun _ h => absurd h List.not_mem_nil, by simp [tagged, items]⟩
      · rintro ⟨tail, rfl, hlen, -, rfl⟩
        obtain rfl := List.length_eq_zero_iff.mp hlen
        simp [tagged, items]
  | succ n ih =>
      simp only [readFields, Option.bind_eq_bind, Option.bind_eq_some_iff, Prod.exists,
        Option.some.injEq, Prod.mk.injEq, transcriptField_append]
      constructor
      · rintro ⟨field, _, ⟨rest, rfl, hfit, rfl⟩, fields, _, hfields, rfl, rfl⟩
        rw [← List.append_assoc, ih] at hfields
        obtain ⟨tail, rfl, rfl, hall, rfl⟩ := hfields
        exact ⟨tail, by simp only [tagged, items, List.flatMap_cons, List.append_assoc], rfl,
          List.forall_mem_cons.mpr ⟨hfit, hall⟩,
          by simp only [tagged, items, List.flatMap_cons, List.append_assoc]⟩
      · rintro ⟨tail, rfl, hlen, hall, rfl⟩
        obtain ⟨field, fields, rfl⟩ := List.exists_cons_of_length_eq_add_one hlen
        obtain ⟨hfit, hall⟩ := List.forall_mem_cons.mp hall
        simp only [tagged, items, List.flatMap_cons, List.append_assoc]
        refine ⟨field, (front ++ item tag field).length, ⟨_, rfl, hfit, rfl⟩, fields, _, ?_, rfl, rfl⟩
        rw [← List.append_assoc, ih]
        exact ⟨tail, rfl, Nat.succ.inj hlen, hall, by simp only [items, List.append_assoc]⟩

/-- A transcript of so many fields, behind its domain, with nothing left over. -/
def readWhole (domain : Bytes) (n : Nat) (bytes : Bytes) : Option (List Bytes) := do
  guard (domain <+: bytes)
  let (count, cursor) ← readNumber bytes domain.length 2
  guard (count = n)
  let (fields, cursor) ← readFields bytes n 1 cursor
  guard (cursor = bytes.length)
  some fields

theorem readWhole_iff {domain bytes : Bytes} {n : Nat} (hn : n < 65535) {fields : List Bytes} :
    readWhole domain n bytes = some fields ↔ fields.length = n ∧ (∀ f ∈ fields, f.length < 2 ^ 32) ∧
      bytes = encodeTranscript domain fields := by
  simp only [readWhole, Option.bind_eq_bind, Option.bind_eq_some_iff, guard_some, Prod.exists,
    Option.some.injEq]
  constructor
  · rintro ⟨_, ⟨rest, rfl⟩, count, _, hcount, _, rfl, fields, _, hfields, _, hend, rfl⟩
    rw [readNumber_append] at hcount
    obtain ⟨rest, rfl, hlt, rfl⟩ := hcount
    rw [← List.append_assoc, readFields_append] at hfields
    obtain ⟨tail, rfl, rfl, hall, rfl⟩ := hfields
    have htail : tail = [] := by
      rw [← List.length_eq_zero_iff]
      simp only [List.length_append] at hend
      omega
    have hfit := fits_of_tagged hall
    refine ⟨rfl, hfit, ?_⟩
    rw [htail, List.append_nil, encodeTranscript_tagged (by omega) hfit, fieldBytes, length_tagged,
      List.append_assoc]
  · rintro ⟨rfl, hfit, rfl⟩
    rw [encodeTranscript_tagged (by omega) hfit, fieldBytes, length_tagged]
    refine ⟨(), ⟨_, (List.append_assoc ..).symm⟩, fields.length, (domain ++ be 2 fields.length).length,
      ?_, (), rfl, fields, _, ?_, (), rfl, rfl⟩
    · rw [List.append_assoc, readNumber_append]
      exact ⟨_, rfl, by omega, rfl⟩
    · rw [← List.append_nil (items _), ← List.append_assoc, List.append_assoc _ (items _),
        readFields_append]
      refine ⟨[], rfl, rfl, fun f hf => ?_, by simp⟩
      obtain ⟨-, hlt, hmem⟩ := mem_tagged hf
      exact ⟨by omega, hfit _ hmem⟩

/-- **A transcript is read exactly where it was written.** -/
theorem readTranscript_iff {domain bytes : Bytes} {n : Nat} (hn : n < 65535) {fields : List Bytes} :
    readTranscript domain n bytes = some fields ↔ fields.length = n ∧
      (∀ f ∈ fields, f.length < 2 ^ 32) ∧ bytes = encodeTranscript domain fields := by
  constructor
  · intro h
    simp only [readTranscript, Option.bind_eq_bind, Option.bind_eq_some_iff, guard_some, Prod.exists,
      Option.some.injEq, Cursor.split_ok] at h
    obtain ⟨_, ⟨front, rfl⟩, count, _, ⟨hcount, hlength⟩, _, rfl, read, _, hread, _, ⟨htags, rfl⟩,
      rfl⟩ := h
    rw [List.drop_left] at hcount
    obtain ⟨rfl, hlen, hall⟩ := Cursor.readItems_inv hread
    have htagged : read = tagged 1 (read.map Prod.snd) := by
      rw [tagged_eq_mapIdx]
      apply List.ext_getElem
      · simp
      · intro i h1 h2
        have htag : (read.map Prod.fst)[i]? = some (i + 1) := by
          rw [htags, List.getElem?_map, List.getElem?_range (by omega)]
          rfl
        rw [List.getElem?_map, List.getElem?_eq_getElem h1, Option.map_some, Option.some.injEq] at htag
        simp only [List.getElem_mapIdx, List.getElem_map]
        exact Prod.ext (htag.trans (Nat.add_comm i 1)) rfl
    have hfit : ∀ f ∈ read.map Prod.snd, f.length < 2 ^ 32 := by
      intro f hf
      obtain ⟨p, hp, rfl⟩ := List.mem_map.mp hf
      exact (hall p hp).2
    refine ⟨by rw [List.length_map, hlen], hfit, ?_⟩
    rw [encodeTranscript_tagged (by rw [List.length_map]; omega) hfit, ← htagged, hcount, fieldBytes,
      hlen, be_ofBe_of_length hlength, List.append_nil, List.append_assoc]
  · rintro ⟨rfl, hfit, rfl⟩
    exact readTranscript_encode (by omega) hfit

theorem readWhole_eq {domain bytes : Bytes} {n : Nat} (hn : n < 65535) :
    readWhole domain n bytes = readTranscript domain n bytes :=
  Option.ext fun _ => (readWhole_iff hn).trans (readTranscript_iff hn).symm

/-! ## 3. The parsers -/

namespace Cursor

/-- `parse_delete_only_locator`. -/
def parseDeleteOnlyLocator (material : Bytes) : Option (LocatorKind × Bytes × Bytes) := do
  guard ((1 ≤ material.length ∧ material.length ≤ 4096) ∧ deleteOnlyLocatorDomain <+: material)
  let (count, cursor) ← readNumber material deleteOnlyLocatorDomain.length 2
  guard (count = 3)
  let (fields, cursor) ← readFields material 3 1 cursor
  guard (cursor = material.length)
  match fields with
  | [kind, service, username] =>
      match ← exactNat 1 kind with
      | 1 => some (.activeV2, service, username)
      | 2 => some (.legacyV1, service, username)
      | _ => none
  | _ => none

/-- `delete_only_locator_shape_is_valid`. -/
def deleteOnlyLocatorShapeIsValid (kind : LocatorKind) (service username : Bytes) : Bool :=
  match charCount service, charCount username with
  | some serviceChars, some usernameChars =>
      if service = [] ∨ 128 < service.length ∨ 128 < serviceChars ∨ username = [] ∨
          1024 < username.length ∨ 1024 < usernameChars ∨ 0 ∈ service ∨ 0 ∈ username then false
      else
        match kind with
        | .activeV2 => service == activeV2Service && username.length == 67 &&
            (ascii "v2:").isPrefixOf username && (username.drop 3).all isLowerHex
        | .legacyV1 => service == legacyV1Service && username.length ≤ 64 && username.all isNameByte
  | _, _ => false

/-- `parse_account_store_event_detail`. -/
def parseStoreEventDetail (row : Event) (storeId : StoreId) : Option StoreEventDetail := do
  guard ((row.entityKind = 4 ∧ row.eventCode = 9 ∧ row.entityId = storeId.bytes) ∧
    eventDetailDomain <+: row.detail)
  let (count, cursor) ← readNumber row.detail eventDetailDomain.length 2
  guard (count = 11)
  let (eventCode, cursor) ← transcriptField row.detail cursor 1
  let (entityKind, cursor) ← transcriptField row.detail cursor 2
  let (entityId, cursor) ← transcriptField row.detail cursor 3
  let (source, cursor) ← transcriptField row.detail cursor 4
  let (relatedKind, cursor) ← transcriptField row.detail cursor 5
  let (relatedId, cursor) ← transcriptField row.detail cursor 6
  let (priorState, cursor) ← transcriptField row.detail cursor 7
  let (nextState, cursor) ← transcriptField row.detail cursor 8
  let (context, cursor) ← transcriptField row.detail cursor 9
  let (receiptId, cursor) ← transcriptField row.detail cursor 10
  let (occurredAt, cursor) ← transcriptField row.detail cursor 11
  guard (cursor = row.detail.length ∧ exactNat 2 eventCode = some 9 ∧
    exactNat 2 entityKind = some 4 ∧ entityId = storeId.bytes ∧ exactNat 2 relatedKind = some 6)
  let source ← exactNat 1 source
  let transitionId ← Uuid.ofBytes? relatedId
  let priorState ← exactNat 2 priorState
  let nextState ← exactNat 2 nextState
  let context ← Digest.ofBytes? context
  let receiptId ← Uuid.ofBytes? receiptId
  let occurredAt ← exactI64 occurredAt
  some ⟨source, transitionId, priorState, nextState, context, receiptId, occurredAt⟩

/-- A loop that reads a field reads it, and then the others. -/
theorem readFields_bind {γ : Type} (bytes : Bytes) (n tag cursor : Nat)
    (k : List Bytes × Nat → Option γ) :
    (readFields bytes (n + 1) tag cursor).bind k =
      (transcriptField bytes cursor tag).bind fun p =>
        (readFields bytes n (tag + 1) p.2).bind fun q => k (p.1 :: q.1, q.2) := by
  rw [readFields]
  cases transcriptField bytes cursor tag with
  | none => rfl
  | some p =>
      show ((readFields bytes n (tag + 1) p.2).bind _).bind k = _
      rw [Option.bind_assoc]
      rfl

theorem readWhole_bind {γ : Type} (domain : Bytes) (n : Nat) (bytes : Bytes)
    (k : List Bytes → Option γ) :
    (readWhole domain n bytes).bind k =
      (guard (domain <+: bytes) : Option Unit).bind fun _ =>
        (readNumber bytes domain.length 2).bind fun count =>
          (guard (count.1 = n) : Option Unit).bind fun _ =>
            (readFields bytes n 1 count.2).bind fun read =>
              (guard (read.2 = bytes.length) : Option Unit).bind fun _ => k read.1 := by
  simp only [readWhole, Option.bind_eq_bind, Option.bind_assoc, Option.bind_some]

theorem guard_and_bind {γ : Type} (p q : Prop) [Decidable p] [Decidable q] (k : Unit → Option γ) :
    (guard (p ∧ q) : Option Unit).bind k =
      (guard p : Option Unit).bind fun _ => (guard q : Option Unit).bind k := by
  by_cases hp : p <;> by_cases hq : q <;> simp [guard, hp, hq]

/-- **The fields of a locator are those of its transcript.** -/
theorem parseDeleteOnlyLocator_eq (material : Bytes) :
    parseDeleteOnlyLocator material = Authority.parseDeleteOnlyLocator material := by
  unfold parseDeleteOnlyLocator Authority.parseDeleteOnlyLocator
  rw [← readWhole_eq (by decide)]
  refine (guard_and_bind ..).trans (Option.bind_congr fun _ _ => ?_)
  refine Eq.trans ?_ (readWhole_bind ..).symm
  refine Option.bind_congr fun _ _ => Option.bind_congr fun count _ => Option.bind_congr fun _ _ =>
    Option.bind_congr fun read _ => Option.bind_congr fun _ _ => ?_
  obtain ⟨fields, cursor⟩ := read
  rcases fields with _ | ⟨kind, _ | ⟨service, _ | ⟨username, _ | ⟨_, _⟩⟩⟩⟩
  · rfl
  · rfl
  · rfl
  · rfl
  · rfl

/-- **The fields of a store event are those of its transcript.** -/
theorem parseStoreEventDetail_eq (row : Event) (storeId : StoreId) :
    parseStoreEventDetail row storeId = Authority.parseStoreEventDetail row storeId := by
  unfold parseStoreEventDetail Authority.parseStoreEventDetail
  rw [← readWhole_eq (by decide)]
  refine (guard_and_bind ..).trans (Option.bind_congr fun _ _ => ?_)
  refine Eq.trans ?_ (readWhole_bind ..).symm
  refine Option.bind_congr fun _ _ => Option.bind_congr fun count _ => Option.bind_congr fun _ _ => ?_
  iterate 11
    refine Eq.trans ?_ (readFields_bind ..).symm
    refine Option.bind_congr fun _ _ => ?_
  refine (guard_and_bind ..).trans (Option.bind_congr fun _ _ => ?_)
  rfl

end Cursor

/-! ## 4. The shape of a locator -/

/-- The bytes of ASCII but zero. -/
def isPlain (b : UInt8) : Bool := 1 ≤ b && b ≤ 127

theorem plain_of_lowerHex {b : UInt8} (h : isLowerHex b) : isPlain b := by
  simp only [isLowerHex, isPlain, Bool.or_eq_true, Bool.and_eq_true, decide_eq_true_eq,
    UInt8.le_iff_toNat_le, UInt8.reduceToNat] at h ⊢
  omega

theorem plain_of_name {b : UInt8} (h : isNameByte b) : isPlain b := by
  simp only [isNameByte, isPlain, Bool.or_eq_true, Bool.and_eq_true, decide_eq_true_eq, beq_iff_eq,
    UInt8.le_iff_toNat_le, ← UInt8.toNat_inj, UInt8.reduceToNat] at h ⊢
  omega

/-- Plain bytes are as many characters, and none is zero. -/
theorem charCount_plain {bytes : Bytes} (h : bytes.all isPlain) :
    charCount bytes = some bytes.length ∧ 0 ∉ bytes := by
  have hplain : ∀ b ∈ bytes, 1 ≤ b.toNat ∧ b.toNat ≤ 127 := by
    intro b hb
    have := List.all_eq_true.mp h b hb
    simpa only [isPlain, Bool.and_eq_true, decide_eq_true_eq, UInt8.le_iff_toNat_le,
      UInt8.reduceToNat] using this
  refine ⟨charCount_ascii fun b hb => ?_, fun h0 => ?_⟩
  · have := (hplain b hb).2
    omega
  · exact absurd (hplain 0 h0).1 (by decide)

/-- Where both names are plain and neither is empty or too long, the kind decides. -/
theorem shapeIsValid_plain {kind : LocatorKind} {service username : Bytes}
    (hs : service.all isPlain) (hs0 : service ≠ []) (hsl : service.length ≤ 128)
    (hu : username.all isPlain) (hu0 : username ≠ []) (hul : username.length ≤ 1024) :
    Cursor.deleteOnlyLocatorShapeIsValid kind service username =
      deleteOnlyLocatorShapeIsValid kind service username := by
  obtain ⟨hsc, hsz⟩ := charCount_plain hs
  obtain ⟨huc, huz⟩ := charCount_plain hu
  unfold Cursor.deleteOnlyLocatorShapeIsValid
  rw [hsc, huc]
  simp only [hs0, hu0, hsz, huz, or_false, false_or]
  rw [if_neg (by omega)]
  cases kind with
  | activeV2 => rfl
  | legacyV1 =>
      have hempty : username.isEmpty = false := List.isEmpty_eq_false_iff.mpr hu0
      simp only [deleteOnlyLocatorShapeIsValid, hempty, Bool.not_false, Bool.and_true]
      rfl

/-- A name in the shape of its kind is plain. -/
theorem plain_of_shape {kind : LocatorKind} {service username : Bytes}
    (h : deleteOnlyLocatorShapeIsValid kind service username) :
    (service.all isPlain ∧ service ≠ [] ∧ service.length ≤ 128) ∧
      username.all isPlain ∧ username ≠ [] ∧ username.length ≤ 1024 := by
  cases kind with
  | activeV2 =>
      simp only [deleteOnlyLocatorShapeIsValid, Bool.and_eq_true, beq_iff_eq,
        List.isPrefixOf_iff_prefix] at h
      obtain ⟨⟨⟨rfl, hlen⟩, digits, rfl⟩, hall⟩ := h
      have hdrop : (ascii "v2:" ++ digits).drop 3 = digits := rfl
      rw [hdrop] at hall
      refine ⟨by decide, ?_, List.append_ne_nil_of_left_ne_nil (by decide) _, by omega⟩
      rw [List.all_append]
      refine Bool.and_eq_true _ _ ▸ ⟨by decide, List.all_eq_true.mpr fun b hb => ?_⟩
      exact plain_of_lowerHex (List.all_eq_true.mp hall b hb)
  | legacyV1 =>
      simp only [deleteOnlyLocatorShapeIsValid, Bool.and_eq_true, beq_iff_eq, decide_eq_true_eq,
        Bool.not_eq_true', List.isEmpty_eq_false_iff] at h
      obtain ⟨⟨⟨rfl, hne⟩, hlen⟩, hall⟩ := h
      refine ⟨by decide, List.all_eq_true.mpr fun b hb => ?_, hne, by omega⟩
      exact plain_of_name (List.all_eq_true.mp hall b hb)

/-- **The conditions on the text add nothing to those of the kind.** -/
theorem shapeIsValid_eq (kind : LocatorKind) (service username : Bytes) :
    Cursor.deleteOnlyLocatorShapeIsValid kind service username =
      deleteOnlyLocatorShapeIsValid kind service username := by
  rw [Bool.eq_iff_iff]
  constructor
  · intro h
    unfold Cursor.deleteOnlyLocatorShapeIsValid at h
    split at h
    · split_ifs at h with hbad
      simp only [not_or] at hbad
      cases kind with
      | activeV2 => exact h
      | legacyV1 =>
          simp only [deleteOnlyLocatorShapeIsValid, Bool.and_eq_true, Bool.not_eq_true',
            List.isEmpty_eq_false_iff] at h ⊢
          exact ⟨⟨⟨h.1.1, hbad.2.2.2.1⟩, h.1.2⟩, h.2⟩
    · cases h
  · intro h
    obtain ⟨⟨hs, hs0, hsl⟩, hu, hu0, hul⟩ := plain_of_shape h
    rw [shapeIsValid_plain hs hs0 hsl hu hu0 hul]
    exact h

/-! ## 5. What the parsers accept -/

theorem exactNat_eq_some {n v : Nat} {bytes : Bytes} :
    exactNat n bytes = some v ↔ v < 256 ^ n ∧ bytes = be n v := by
  unfold exactNat
  constructor
  · intro h
    split_ifs at h with hlen
    obtain rfl := Option.some.inj h
    exact ⟨hlen ▸ ofBe_lt bytes, (be_ofBe_of_length hlen).symm⟩
  · rintro ⟨hlt, rfl⟩
    rw [if_pos (length_be n v), ofBe_be hlt]

theorem exactI64_eq_some {v : Int} {bytes : Bytes} :
    exactI64 bytes = some v ↔ (-2 ^ 63 ≤ v ∧ v < 2 ^ 63) ∧ bytes = beI64 v := by
  unfold exactI64
  constructor
  · intro h
    split_ifs at h with hlen
    obtain rfl := Option.some.inj h
    exact ⟨ofBeI64_bounds hlen, (beI64_ofBeI64 hlen).symm⟩
  · rintro ⟨⟨hl, hu⟩, rfl⟩
    rw [if_pos (length_beI64 v), ofBeI64_beI64 hl hu]

theorem locatorKindCode_lt (kind : LocatorKind) : locatorKindCode kind < 256 ^ 1 := by
  cases kind <;> decide

/-- **A locator is read exactly where it was written.** -/
theorem parseDeleteOnlyLocator_iff {material service username : Bytes} {kind : LocatorKind} :
    parseDeleteOnlyLocator material = some (kind, service, username) ↔
      material = deleteOnlyLocator kind service username ∧ material.length ≤ 4096 := by
  simp only [parseDeleteOnlyLocator, Option.bind_eq_bind, Option.bind_eq_some_iff, guard_some,
    readTranscript_iff (show 3 < 65535 by decide)]
  constructor
  · rintro ⟨_, ⟨-, hlen⟩, fields, ⟨-, -, rfl⟩, hkind⟩
    refine ⟨?_, hlen⟩
    split at hkind
    · simp only [Option.bind_eq_some_iff, exactNat_eq_some] at hkind
      obtain ⟨code, ⟨-, rfl⟩, hkind⟩ := hkind
      split at hkind <;> cases hkind <;> rfl
    · cases hkind
  · rintro ⟨rfl, hlen⟩
    have hsize : (deleteOnlyLocator kind service username).length =
        29 + 2 + (6 + 1 + (6 + service.length + (6 + username.length))) := by
      have hdomain : deleteOnlyLocatorDomain.length = 29 := by decide
      simp only [deleteOnlyLocator, encodeTranscript, List.length_append, hdomain, length_be,
        List.mapIdx_cons, List.mapIdx_nil, List.flatten_cons, List.flatten_nil, List.length_nil]
      omega
    refine ⟨(), ⟨by omega, hlen⟩, _, ⟨rfl, ?_, rfl⟩, ?_⟩
    · intro f hf
      simp only [List.mem_cons, List.not_mem_nil, or_false] at hf
      rcases hf with rfl | rfl | rfl
      · simp
      · omega
      · omega
    · have hcode := exactNat_eq_some.mpr ⟨locatorKindCode_lt kind, rfl⟩
      simp only [hcode, Option.bind_some]
      cases kind <;> rfl

/-- **The fields of a store event are read exactly where they were written.** -/
theorem storeEventFields_iff {storeId : StoreId} {fields : List Bytes} {d : StoreEventDetail} :
    storeEventFields storeId fields = some d ↔
      (d.source < 2 ^ 8 ∧ d.priorState < 2 ^ 16 ∧ d.nextState < 2 ^ 16 ∧
        -2 ^ 63 ≤ d.occurredAt ∧ d.occurredAt < 2 ^ 63) ∧
      fields = (storeEvent storeId d.source d.transitionId d.priorState d.nextState d.context
        d.receiptId d.occurredAt).fields := by
  constructor
  · intro h
    unfold storeEventFields at h
    split at h
    · simp only [Option.bind_eq_bind, Option.bind_eq_some_iff, guard_some, exactNat_eq_some,
        exactI64_eq_some, Uuid.ofBytes?_eq_some, Digest.ofBytes?_eq_some, Option.some.injEq] at h
      obtain ⟨_, ⟨⟨-, rfl⟩, ⟨-, rfl⟩, rfl, -, rfl⟩, source, ⟨hsource, rfl⟩, transitionId, rfl,
        prior, ⟨hprior, rfl⟩, next, ⟨hnext, rfl⟩, context, rfl, receiptId, rfl, occurredAt,
        ⟨⟨hl, hu⟩, rfl⟩, rfl⟩ := h
      exact ⟨⟨hsource, hprior, hnext, hl, hu⟩, rfl⟩
    · cases h
  · rintro ⟨⟨hsource, hprior, hnext, hl, hu⟩, rfl⟩
    simp only [storeEventFields, EventSpec.fields, storeEvent, Uuid.optBytes, Option.map_some,
      Option.getD_some, Option.bind_eq_bind, Option.bind_eq_some_iff, guard_some, exactNat_eq_some,
      exactI64_eq_some, Uuid.ofBytes?_eq_some, Digest.ofBytes?_eq_some, Option.some.injEq]
    exact ⟨(), ⟨⟨by decide, trivial⟩, ⟨by decide, trivial⟩, trivial, by decide, trivial⟩, d.source, ⟨hsource, rfl⟩,
      d.transitionId, rfl, d.priorState, ⟨hprior, rfl⟩, d.nextState, ⟨hnext, rfl⟩, d.context, rfl,
      d.receiptId, rfl, d.occurredAt, ⟨⟨hl, hu⟩, rfl⟩, rfl⟩

theorem storeEvent_fields_fit {storeId : StoreId} {source : Nat} {transitionId : TransitionId}
    {prior next : Nat} {context : Digest} {receiptId : ReceiptId} {at' : Int} :
    ∀ f ∈ (storeEvent storeId source transitionId prior next context receiptId at').fields,
      f.length < 2 ^ 32 := by
  intro f hf
  simp only [EventSpec.fields, storeEvent, List.mem_cons, List.not_mem_nil, or_false] at hf
  rcases hf with rfl | rfl | rfl | rfl | rfl | rfl | rfl | rfl | rfl | rfl | rfl <;>
    simp [Uuid.optBytes, transitionId.length_eq, storeId.length_eq, context.length_eq,
      receiptId.length_eq]

/-- **A store event is read exactly where it was written.** -/
theorem parseStoreEventDetail_iff {row : Event} {storeId : StoreId} {d : StoreEventDetail} :
    parseStoreEventDetail row storeId = some d ↔
      (row.entityKind = 4 ∧ row.eventCode = 9 ∧ row.entityId = storeId.bytes) ∧
        (d.source < 2 ^ 8 ∧ d.priorState < 2 ^ 16 ∧ d.nextState < 2 ^ 16 ∧
          -2 ^ 63 ≤ d.occurredAt ∧ d.occurredAt < 2 ^ 63) ∧
        row.detail = (storeEvent storeId d.source d.transitionId d.priorState d.nextState d.context
          d.receiptId d.occurredAt).detail := by
  simp only [parseStoreEventDetail, Option.bind_eq_bind, Option.bind_eq_some_iff, guard_some,
    readTranscript_iff (show 11 < 65535 by decide), storeEventFields_iff]
  constructor
  · rintro ⟨_, hrow, fields, ⟨-, -, hdetail⟩, hbounds, rfl⟩
    exact ⟨hrow, hbounds, hdetail⟩
  · rintro ⟨hrow, hbounds, hdetail⟩
    exact ⟨(), hrow, _, ⟨rfl, storeEvent_fields_fit, hdetail⟩, hbounds, rfl⟩

/-! ## 6. The codecs agree -/

/-- The service and the username of `expected_delete_only_locator`. -/
def expectedLocatorNames (env : Platform) (realmId : RealmId) (storeId : StoreId)
    (before : AccountSnapshot) : LocatorKind → Bytes × Bytes
  | .activeV2 => (activeV2Service, activeV2Username env realmId storeId before.accountId
      before.credentialId before.bindingSha256)
  | .legacyV1 => (legacyV1Service, utf8 before.displayId)

theorem expectedDeleteOnlyLocator_eq (env : Platform) (realmId : RealmId) (storeId : StoreId)
    (before : AccountSnapshot) (kind : LocatorKind) :
    expectedDeleteOnlyLocator env realmId storeId before kind =
      deleteOnlyLocator kind (expectedLocatorNames env realmId storeId before kind).1
        (expectedLocatorNames env realmId storeId before kind).2 := by
  cases kind <;> rfl

/-- **The store encodes as the core does; the locator of a snapshot that passed its checks
    reads back in the shape of its kind, and a locator that is read is one that was
    written; and a store event reads back, and only from its own detail.** -/
theorem store_codecs_agree (env : Platform) :
    (∀ (domain : Bytes) (fields : List Bytes), fields.length < 65536 →
      (∀ f ∈ fields, f.length < 2 ^ 32) →
        Kirje.Cursor.encodeFields domain (fields.mapIdx fun i f => (i + 1, f)) =
          .ok (encodeTranscript domain fields)) ∧
      (∀ (realmId : RealmId) (storeId : StoreId) (before : AccountSnapshot) (kind : LocatorKind),
        validateAccountSnapshot env before = .ok () →
          Cursor.parseDeleteOnlyLocator (expectedDeleteOnlyLocator env realmId storeId before kind) =
              some (kind, expectedLocatorNames env realmId storeId before kind) ∧
            Cursor.deleteOnlyLocatorShapeIsValid kind
              (expectedLocatorNames env realmId storeId before kind).1
              (expectedLocatorNames env realmId storeId before kind).2 = true) ∧
      (∀ (material : Bytes) (kind : LocatorKind) (service username : Bytes),
        Cursor.parseDeleteOnlyLocator material = some (kind, service, username) →
          material = encodeTranscript deleteOnlyLocatorDomain
            [be 1 (locatorKindCode kind), service, username]) ∧
      ∀ (row : Event) (storeId : StoreId) (source : Nat) (transitionId : TransitionId)
        (prior next : Nat) (context : Digest) (receiptId : ReceiptId) (at' : Int),
        source < 2 ^ 8 → prior < 2 ^ 16 → next < 2 ^ 16 → -2 ^ 63 ≤ at' → at' < 2 ^ 63 →
          row.entityKind = 4 → row.eventCode = 9 → row.entityId = storeId.bytes →
            (Cursor.parseStoreEventDetail row storeId =
                some ⟨source, transitionId, prior, next, context, receiptId, at'⟩ ↔
              row.detail =
                (storeEvent storeId source transitionId prior next context receiptId at').detail) := by
  refine ⟨?_, ?_, ?_, ?_⟩
  · intro domain fields hn hfit
    have htagged : (fields.mapIdx fun i f => (i + 1, f)) = tagged 1 fields := by
      rw [tagged_eq_mapIdx]
      simp only [Nat.add_comm]
    rw [htagged, Kirje.Cursor.encodeFields_ok, length_tagged]
    exact ⟨hn, tagged_sorted 1 fields, fun f hf => hfit _ (mem_tagged hf).2.2,
      encodeTranscript_tagged (by omega) hfit⟩
  · intro realmId storeId before kind hbefore
    obtain ⟨service, username, hparse, hshape⟩ := @parse_expectedDeleteOnlyLocator env realmId
      storeId before kind (validateAccountSnapshot_displayId env hbefore)
    have hnames := parseDeleteOnlyLocator_iff.mpr ⟨expectedDeleteOnlyLocator_eq env realmId storeId
      before kind, (parseDeleteOnlyLocator_iff.mp hparse).2⟩
    rw [hparse, Option.some.injEq, Prod.mk.injEq] at hnames
    rw [← Prod.mk.eta (p := expectedLocatorNames env realmId storeId before kind), ← hnames.2, Cursor.parseDeleteOnlyLocator_eq, shapeIsValid_eq]
    exact ⟨hparse, hshape⟩
  · intro material kind service username h
    rw [Cursor.parseDeleteOnlyLocator_eq, parseDeleteOnlyLocator_iff] at h
    exact h.1
  · intro row storeId source transitionId prior next context receiptId at' hs hp hn hl hu hkind hcode
      hid
    rw [Cursor.parseStoreEventDetail_eq, parseStoreEventDetail_iff]
    constructor
    · rintro ⟨-, -, hdetail⟩
      exact hdetail
    · intro hdetail
      exact ⟨⟨hkind, hcode, hid⟩, ⟨hs, hp, hn, hl, hu⟩, hdetail⟩

end Kirje.Authority
