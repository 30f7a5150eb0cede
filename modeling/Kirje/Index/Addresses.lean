import Kirje.Core.Serialized
import Kirje.Index.Search

/-
  File:      Kirje/Index/Addresses.lean
  Subject:   The address filters of the local search (crates/kirje-store/src/lib.rs).

  The columns `from_json` and `to_json` hold the JSON text of a list of addresses, and
  a filter looks for its needle anywhere in that text: in the fields, in the keys and
  punctuation around them, and in the escapes inside them.

  * `Searchable`: the needles that cannot be met outside of a field.
  * **`address_filter_exact`**: for these needles, and no others, a filter selects the
    messages with an address that has the text.
-/

namespace Kirje

open Base

namespace MessageIndex

/-! ## 1. Columns -/

/-- The JSON text of a list of addresses. -/
def addressesJson (addresses : List MailAddress) : String :=
  String.ofList (JsonValue.array (addresses.map addressJson)).chars

inductive AddressColumn where
  | fromJson | toJson
  deriving DecidableEq, Repr

def AddressColumn.text : AddressColumn → MessageRow → String
  | .fromJson, row => row.fromJson
  | .toJson, row => row.toJson

def AddressColumn.filter : AddressColumn → LocalMessageSearch → Option String
  | .fromJson, search => search.fromText
  | .toJson, search => search.toText

/-! ## 2. Lower case and escapes -/

theorem toLower_special {c : Char} (h : special c) : c.toLower = c := by
  rcases h with rfl | rfl | h
  · decide
  · decide
  · exact toLower_of_not_letter (by omega)

theorem special_toLower {c : Char} : special c.toLower ↔ special c := by
  constructor
  · intro h
    by_cases hletter : 65 ≤ c.toNat ∧ c.toNat ≤ 90
    · have hnat : c.toLower.toNat = c.toNat + 32 := by rw [toNat_toLower, if_pos hletter]
      rcases h with h | h | h
      · rw [h] at hnat
        exact absurd hnat (by rw [show ('"' : Char).toNat = 34 from rfl]; omega)
      · rw [h] at hnat
        exact absurd hnat (by rw [show ('\\' : Char).toNat = 92 from rfl]; omega)
      · omega
    · have hsame : c.toLower = c := by
        apply Char.toNat_inj.mp
        rw [toNat_toLower, if_neg hletter]
      exact hsame ▸ h
  · intro h
    rw [toLower_special h]
    exact h

theorem lowerAscii_escapeChar (c : Char) : lowerAscii (escapeChar c) = escapeChar c.toLower := by
  by_cases hc : special c
  · rw [toLower_special hc]
    unfold escapeChar lowerAscii
    split
    · rename_i hq
      rcases hq with rfl | rfl <;> decide
    · split
      · rename_i hlt
        obtain ⟨t, ht, -, -, hchars⟩ := escapeControl_shape hlt
        rw [ht, List.map_cons, List.cons.injEq]
        exact ⟨by decide, (List.map_congr_left fun d hd => (hchars d hd).2.2.2).trans (List.map_id _)⟩
      · rename_i hq hlt
        exact absurd hc (by simp only [special]; tauto)
  · rw [escapeChar_plain hc, escapeChar_plain (special_toLower.not.mpr hc)]
    rfl

/-- **Escapes keep to their place under lower case.** -/
theorem lowerAscii_escape (text : List Char) : lowerAscii (escape text) = escape (lowerAscii text) := by
  induction text with
  | nil => rfl
  | cons c text ih =>
      have happend : ∀ a b, lowerAscii (a ++ b) = lowerAscii a ++ lowerAscii b := fun a b => List.map_append
      rw [escape_cons, happend, lowerAscii_escapeChar, ih]
      exact (escape_cons c.toLower (lowerAscii text)).symm

/-! ## 3. Where a needle is met -/

/-- The fields of an address, in lower case. -/
def loweredFields (a : MailAddress) : List (List Char) :=
  (a.name.map fun name => lowerAscii name.toList).toList ++ [lowerAscii a.email.toList]

/-- Some address of the list has the text in a field. -/
def HasText (needle : List Char) (addresses : List MailAddress) : Prop :=
  ∃ a ∈ addresses, ∃ field ∈ loweredFields a, lowerAscii needle <:+: field

/-- The JSON text of a name, in lower case, up to the key of the email. -/
def nameChars : Option (List Char) → List Char
  | none => ":null,".toList
  | some name => ':' :: '"' :: (escape name ++ '"' :: [','])

/-- The members of an address, in lower case. -/
def bodyChars (a : MailAddress) : List Char :=
  '"' :: ("name".toList ++ '"' :: (nameChars (a.name.map fun name => lowerAscii name.toList) ++
    '"' :: ("email".toList ++ '"' :: ':' :: '"' :: (escape (lowerAscii a.email.toList) ++ ['"']))))

/-- What follows the members of an address. -/
def restChars : List MailAddress → List Char
  | [] => "\x7d]".toList
  | a :: rest => "\x7d,\x7b".toList ++ bodyChars a ++ restChars rest

theorem lowerAscii_append (a b : List Char) : lowerAscii (a ++ b) = lowerAscii a ++ lowerAscii b :=
  List.map_append

theorem lowerAscii_cons (c : Char) (text : List Char) : lowerAscii (c :: text) = c.toLower :: lowerAscii text :=
  rfl

theorem lowerAscii_quoted (text : String) :
    lowerAscii (quoted text) = '"' :: (escape (lowerAscii text.toList) ++ ['"']) := by
  rw [quoted, List.cons_append, lowerAscii_cons, lowerAscii_append, lowerAscii_escape]
  rfl

theorem addressJson_lowered (a : MailAddress) :
    lowerAscii (addressJson a).chars = '{' :: (bodyChars a ++ ['}']) := by
  have hname : lowerAscii (quoted "name") = '"' :: ("name".toList ++ ['"']) := by decide
  have hemail : lowerAscii (quoted "email") = '"' :: ("email".toList ++ ['"']) := by decide
  obtain ⟨name, email⟩ := a
  cases name with
  | none =>
      simp only [addressJson, JsonValue.chars, memberChars, Option.elim_none, bodyChars, nameChars,
        Option.map_none, lowerAscii_cons, lowerAscii_append, hname, hemail, lowerAscii_quoted,
        List.append_assoc, List.cons_append, List.nil_append]
      rfl
  | some name =>
      simp only [addressJson, JsonValue.chars, memberChars, Option.elim_some, bodyChars, nameChars,
        Option.map_some, lowerAscii_cons, lowerAscii_append, hname, hemail, lowerAscii_quoted,
        List.append_assoc, List.cons_append, List.nil_append]
      rfl

/-- The column after an address, in lower case. -/
theorem itemChars_lowered (rest : List MailAddress) :
    '}' :: (lowerAscii (itemChars (rest.map addressJson)) ++ [']']) = restChars rest := by
  induction rest with
  | nil => rfl
  | cons a rest ih =>
      rw [List.map_cons, itemChars, List.cons_append, lowerAscii_cons, lowerAscii_append,
        addressJson_lowered, restChars, ← ih]
      simp

/-- **The column in lower case**, address by address. -/
theorem addressesJson_lowered (a : MailAddress) (rest : List MailAddress) :
    lowerAscii (addressesJson (a :: rest)).toList = "[\x7b".toList ++ bodyChars a ++ restChars rest := by
  rw [addressesJson, String.toList_ofList, List.map_cons, JsonValue.chars, ← itemChars_lowered]
  simp only [List.cons_append, lowerAscii_cons, List.append_assoc, lowerAscii_append, addressJson_lowered]
  rfl

/-! ## 4. Infixes around separators -/

/-- A text without a separator is met on one side of it. -/
theorem infix_separator {sep : Char} {k a b : List Char} (hk : sep ∉ k) :
    k <:+: a ++ sep :: b ↔ k <:+: a ∨ k <:+: b := by
  have hstart : ∀ q, (∀ c ∈ q, c ∈ k) → ¬(q ≠ [] ∧ q <+: sep :: b) := by
    intro q hq ⟨hne, hp⟩
    cases q with
    | nil => exact hne rfl
    | cons c q =>
        rw [List.cons_prefix_cons] at hp
        exact hk (hp.1 ▸ hq c List.mem_cons_self)
  rw [List.infix_append_iff_ne_nil, List.infix_cons_iff]
  constructor
  · intro h
    rcases h with h | (h | h) | ⟨t, q, -, hq, rfl, -, hp⟩
    · exact .inl h
    · by_cases hne : k = []
      · exact .inl (hne ▸ List.nil_infix)
      · exact absurd ⟨hne, h⟩ (hstart k fun c hc => hc)
    · exact .inr h
    · exact absurd ⟨hq, hp⟩ (hstart q fun c hc => List.mem_append_right t hc)
  · intro h
    cases h with
    | inl h => exact .inl h
    | inr h => exact .inr (.inl (.inr h))

/-! ## 5. Searchable needles -/

/-- The pieces of the column between two quotes that belong to no field. -/
def framePieces : List (List Char) :=
  ["[]", "[\x7b", "name", ":null,", "email", "\x7d,\x7b", "\x7d]"].map String.toList

/-- A needle, in lower case, that is met nowhere but in a field: it has no special character but for a
    backslash it starts with, it is in no piece of the frame, and neither it nor the end of an escape
    starts the other. -/
structure Searchable (needle : List Char) : Prop where
  head : ∀ c ∈ needle.head?, c = '\\' ∨ ¬special c
  tail : ∀ c ∈ needle.tail, ¬special c
  frame : ∀ piece ∈ framePieces, ¬needle <:+: piece
  escapes : ∀ c, special c → ∀ t, t <:+ escapeChar c → t ≠ [] → t ≠ ['\\'] →
    ¬t <+: needle ∧ ¬needle <+: t

variable {k : List Char}

theorem Searchable.quote (h : Searchable k) : '"' ∉ k := by
  intro hmem
  cases k with
  | nil => cases hmem
  | cons c k =>
      cases hmem with
      | head =>
          rcases h.head '"' rfl with hc | hc
          · revert hc
            decide
          · exact hc (.inl rfl)
      | tail _ hmem => exact h.tail '"' hmem (.inl rfl)

theorem Searchable.ne_backslash (h : Searchable k) : k ≠ ['\\'] := by
  intro hk
  have hesc := h.escapes '"' (.inl rfl) ['\\', '"'] (by decide) (by decide) (by decide)
  rw [hk] at hesc
  exact hesc.2 (by decide)

/-- **What is met in an escaped text is in the text.** -/
theorem Searchable.of_escape (h : Searchable k) (hne : k ≠ []) {text : List Char} (hk : k <:+: escape text) :
    k <:+: text := by
  induction text with
  | nil => simpa using hk
  | cons c text ih =>
      have hsmall : ∀ t, t <:+ escapeChar c → t ≠ [] → k <+: t → k <:+: c :: text := by
        intro t ht htne hkt
        by_cases hc : special c
        · by_cases hback : t = ['\\']
          · rw [hback, List.prefix_cons_iff] at hkt
            rcases hkt with hnil | ⟨q, rfl, hq⟩
            · exact absurd hnil hne
            · exact absurd (by rw [List.prefix_nil.mp hq]) h.ne_backslash
          · exact absurd hkt (h.escapes c hc t ht htne hback).2
        · rw [escapeChar_plain hc] at ht
          have hkc : k <:+: [c] := List.infix_iff_prefix_suffix.mpr ⟨t, hkt, ht⟩
          exact hkc.trans ⟨[], text, rfl⟩
      rw [escape_cons, List.infix_append_iff_ne_nil] at hk
      rcases hk with hk | hk | ⟨t, q, htne, hqne, rfl, ht, hq⟩
      · obtain ⟨t, hkt, ht⟩ := List.infix_iff_prefix_suffix.mp hk
        refine hsmall t ht (fun hnil => hne ?_) hkt
        exact List.prefix_nil.mp (hnil ▸ hkt)
      · exact (ih hk).trans (List.suffix_cons c text).isInfix
      · -- The needle starts at the end of an escape and goes on in the text behind it.
        have htail : ∀ d ∈ q, ¬special d := by
          intro d hd
          refine h.tail d ?_
          rw [List.tail_append_of_ne_nil htne]
          exact List.mem_append_right _ hd
        have hq := plain_prefix htail hq
        have hsingle : t = [c] := by
          by_cases hc : special c
          · by_cases hback : t = ['\\']
            · rw [hback, eq_backslash_of_suffix hc (hback ▸ ht)]
            · exact absurd (List.prefix_append t q) (h.escapes c hc t ht htne hback).1
          · rw [escapeChar_plain hc, List.suffix_cons_iff] at ht
            rcases ht with ht | ht
            · exact ht
            · exact absurd (List.suffix_nil.mp ht) htne
        rw [hsingle]
        exact (List.cons_prefix_cons.mpr ⟨rfl, hq⟩ : [c] ++ q <+: c :: text).isInfix

/-- What is met in a text is met in the escaped text. -/
theorem Searchable.to_escape (h : Searchable k) {text : List Char} (hk : k <:+: text) :
    k <:+: escape text := by
  have hself : k <:+ escape k := by
    cases k with
    | nil => exact List.suffix_rfl
    | cons c k =>
        have htail : ∀ d ∈ k, ¬special d := h.tail
        rw [escape_cons, escape_plain htail]
        by_cases hc : special c
        · have hback : c = '\\' := (h.head c rfl).resolve_right fun hno => hno hc
          rw [hback]
          exact ⟨['\\'], rfl⟩
        · rw [escapeChar_plain hc]
          exact List.suffix_rfl
  obtain ⟨u, w, rfl⟩ := hk
  rw [escape_append, escape_append]
  exact hself.isInfix.trans (List.infix_append _ _ _)

theorem Searchable.frame' (h : Searchable k) (piece : String) (hmem : piece.toList ∈ framePieces) :
    ¬k <:+: piece.toList := h.frame _ hmem

/-- A needle meets an address in the text before it, in a field, or in the text behind it. -/
theorem Searchable.met_body (h : Searchable k) {u w : List Char} {a : MailAddress} :
    k <:+: u ++ bodyChars a ++ w ↔
      k <:+: u ∨ (∃ field ∈ loweredFields a, k <:+: escape field) ∨ k <:+: w := by
  have hname := h.frame' "name" (by decide)
  have hemail := h.frame' "email" (by decide)
  have hnull := h.frame' ":null," (by decide)
  have hcolon : ¬k <:+: [':'] := fun hk => hnull (hk.trans ⟨[], "null,".toList, by decide⟩)
  have hcomma : ¬k <:+: [','] := fun hk => hnull (hk.trans ⟨":null".toList, [], by decide⟩)
  have hsplit : ∀ x y, k <:+: x ++ '"' :: y ↔ k <:+: x ∨ k <:+: y := fun x y => infix_separator h.quote
  obtain ⟨name, email⟩ := a
  cases name with
  | none =>
      have hbody : u ++ bodyChars ⟨none, email⟩ ++ w = u ++ '"' :: ("name".toList ++ '"' ::
          (":null,".toList ++ '"' :: ("email".toList ++ '"' :: ([':'] ++ '"' ::
            (escape (lowerAscii email.toList) ++ '"' :: w))))) := by
        simp [bodyChars, nameChars]
      rw [hbody, hsplit, hsplit, hsplit, hsplit, hsplit, hsplit]
      simp only [hname, hemail, hnull, hcolon, false_or, loweredFields, Option.map_none, Option.toList_none,
        List.nil_append, List.mem_singleton, exists_eq_left]
  | some name =>
      have hbody : u ++ bodyChars ⟨some name, email⟩ ++ w = u ++ '"' :: ("name".toList ++ '"' ::
          ([':'] ++ '"' :: (escape (lowerAscii name.toList) ++ '"' :: ([','] ++ '"' ::
            ("email".toList ++ '"' :: ([':'] ++ '"' ::
              (escape (lowerAscii email.toList) ++ '"' :: w))))))) := by
        simp [bodyChars, nameChars]
      rw [hbody, hsplit, hsplit, hsplit, hsplit, hsplit, hsplit, hsplit, hsplit]
      simp only [hname, hemail, hcolon, hcomma, false_or, loweredFields, Option.map_some,
        Option.toList_some, List.cons_append, List.nil_append, List.mem_cons, List.not_mem_nil, or_false,
        exists_eq_or_imp, exists_eq_left, or_assoc]

/-- **A searchable needle is met in the column exactly where a field has it.** -/
theorem Searchable.met_iff (h : Searchable k) (hne : k ≠ []) (addresses : List MailAddress) :
    k <:+: lowerAscii (addressesJson addresses).toList ↔
      ∃ a ∈ addresses, ∃ field ∈ loweredFields a, k <:+: field := by
  have hfield : ∀ field : List Char, k <:+: escape field ↔ k <:+: field := fun field =>
    ⟨h.of_escape hne, h.to_escape⟩
  have hrest : ∀ rest, k <:+: restChars rest ↔ ∃ a ∈ rest, ∃ field ∈ loweredFields a, k <:+: field := by
    intro rest
    induction rest with
    | nil =>
        have hend : ¬k <:+: restChars [] := h.frame' "\x7d]" (by decide)
        simp [hend]
    | cons a rest ih =>
        have hnext := h.frame' "\x7d,\x7b" (by decide)
        rw [restChars, h.met_body, ih]
        simp only [hnext, false_or, hfield, List.mem_cons, exists_eq_or_imp]
  cases addresses with
  | nil =>
      have hempty := h.frame' "[]" (by decide)
      have hcolumn : lowerAscii (addressesJson []).toList = "[]".toList := by decide
      rw [hcolumn]
      simp only [hempty, List.not_mem_nil, false_and, exists_false]
  | cons a rest =>
      have hfirst := h.frame' "[\x7b" (by decide)
      rw [addressesJson_lowered, h.met_body, hrest]
      simp only [hfirst, false_or, hfield, List.mem_cons, exists_eq_or_imp]

/-! ## 6. Exact needles -/

/-- The lowered needle meets the column of every list exactly where a field has the text. -/
def ExactNeedle (lowered k : List Char) : Prop :=
  ∀ addresses, lowered <:+: lowerAscii (addressesJson addresses).toList ↔
    ∃ a ∈ addresses, ∃ field ∈ loweredFields a, k <:+: field

/-- A text in lower case. -/
def Lowered (text : List Char) : Prop := ∀ c ∈ text, c.toLower = c

theorem Lowered.eq {text : List Char} (h : Lowered text) : lowerAscii text = text :=
  (List.map_congr_left h).trans (List.map_id _)

theorem lowered_special {c : Char} (h : special c) {text : List Char} (ht : Lowered text) :
    Lowered (c :: text) := by
  intro d hd
  cases hd with
  | head => exact toLower_special h
  | tail _ hd => exact ht d hd

theorem Lowered.of_subset {text text' : List Char} (h : Lowered text) (hsub : ∀ c ∈ text', c ∈ text) :
    Lowered text' := fun c hc => h c (hsub c hc)

/-- The column of an address without a name, up to its email. -/
def beforeEmail : List Char := "[\x7b\"name\":null,\"email\":\"".toList

def afterEmail : List Char := "\"\x7d]".toList

theorem beforeEmail_quote : ∃ front, beforeEmail = front ++ ['"'] :=
  ⟨"[\x7b\"name\":null,\"email\":".toList, by decide⟩

/-- The column of one address without a name. -/
def oneField (field : List Char) : List Char := beforeEmail ++ escape field ++ afterEmail

theorem addressesJson_one {field : List Char} (h : Lowered field) :
    lowerAscii (addressesJson [⟨none, String.ofList field⟩]).toList = oneField field := by
  have hbefore : beforeEmail = "[\x7b".toList ++ '"' :: ("name".toList ++ '"' :: (":null,".toList ++
      '"' :: ("email".toList ++ ['"', ':', '"']))) := by decide
  have hafter : afterEmail = '"' :: restChars [] := by decide
  rw [addressesJson_lowered, oneField, hbefore, hafter]
  simp only [bodyChars, nameChars, Option.map_none, String.toList_ofList, h.eq, List.append_assoc,
    List.cons_append, List.nil_append]

section Necessity

variable {lowered : List Char} (hexact : ExactNeedle lowered k) (hne : k ≠ [])

include hexact

theorem ExactNeedle.one {field : List Char} (h : Lowered field) :
    lowered <:+: oneField field ↔ k <:+: field := by
  rw [← addressesJson_one h, hexact]
  simp [loweredFields, h.eq]

/-- A needle met in an escaped text is in the text. -/
theorem ExactNeedle.of_escape {field : List Char} (h : Lowered field) (hmet : lowered <:+: escape field) :
    k <:+: field :=
  (hexact.one h).mp (hmet.trans (List.infix_append _ _ _))

/-- An exact needle is not met in the escape of a shorter text. -/
theorem ExactNeedle.not_shorter {field : List Char} (h : Lowered field) (hlen : field.length < k.length) :
    ¬lowered <:+: escape field := by
  intro hmet
  have hle := (hexact.of_escape h hmet).length_le
  omega

/-- Where an exact needle is met in its own escape, it is met from the first escape on. -/
theorem ExactNeedle.front (hlow : Lowered k) (hprint : ∀ c ∈ k, 0x20 ≤ c.toNat) {c : Char} {rest x y : List Char}
    (hk : k = c :: rest) (h : x ++ lowered ++ y = escape k) : x = [] ∨ special c ∧ x = ['\\'] := by
  have hshort : ¬lowered <:+: escape rest := by
    refine hexact.not_shorter (hlow.of_subset fun d hd => hk ▸ List.mem_cons_of_mem _ hd) ?_
    rw [hk, List.length_cons]
    omega
  rw [hk, escape_cons, List.append_assoc, List.append_eq_append_iff] at h
  rcases h with ⟨left, hleft, hrest⟩ | ⟨right, -, hrest⟩
  · rw [escapeChar_printable (hprint c (hk ▸ List.mem_cons_self))] at hleft
    have hleftne : left ≠ [] := by
      intro hnil
      rw [hnil, List.nil_append] at hrest
      exact hshort (hrest ▸ List.infix_append_left)
    by_cases hc : special c
    · rw [if_pos hc] at hleft
      match x, left, hleft, hleftne with
      | [], _, _, _ => exact .inl rfl
      | [_], _, hleft, _ =>
          right
          rw [List.cons_append, List.cons.injEq] at hleft
          exact ⟨hc, by rw [hleft.1]⟩
      | [_, _], [], _, hleftne => exact absurd rfl hleftne
      | _ :: _ :: _, _ :: _, hleft, _ => simp at hleft
      | _ :: _ :: _ :: _, [], hleft, _ => simp at hleft
    · rw [if_neg hc] at hleft
      match x, left, hleft, hleftne with
      | [], _, _, _ => exact .inl rfl
      | [_], [], _, hleftne => exact absurd rfl hleftne
      | _ :: _, _ :: _, hleft, _ => simp at hleft
      | _ :: _ :: _, [], hleft, _ => simp at hleft
  · exact absurd (hrest ▸ ⟨right, y, by rw [List.append_assoc]⟩) hshort

/-- Where an exact needle is met in its own escape, it is met up to the last escape. -/
theorem ExactNeedle.back (hlow : Lowered k) (hprint : ∀ c ∈ k, 0x20 ≤ c.toNat) {d : Char}
    {init x y : List Char} (hk : k = init ++ [d]) (h : x ++ lowered ++ y = escape k) :
    y = [] ∨ special d ∧ y = [d] := by
  have hshort : ¬lowered <:+: escape init := by
    refine hexact.not_shorter (hlow.of_subset fun c hc => hk ▸ List.mem_append_left _ hc) ?_
    rw [hk, List.length_append, List.length_singleton]
    omega
  rw [hk, escape_append, List.append_eq_append_iff] at h
  rcases h with ⟨left, hinit, -⟩ | ⟨right, hinit, hlast⟩
  · exact absurd (hinit ▸ ⟨x, left, rfl⟩) hshort
  · rw [escape_cons, escape_nil, List.append_nil,
      escapeChar_printable (hprint d (hk ▸ List.mem_append_right _ List.mem_cons_self))] at hlast
    have hrightne : right ≠ [] := by
      intro hnil
      rw [hnil, List.append_nil] at hinit
      exact hshort (hinit ▸ List.infix_append_right)
    by_cases hd : special d
    · rw [if_pos hd] at hlast
      match right, y, hlast, hrightne with
      | [], _, _, hrightne => exact absurd rfl hrightne
      | _, [], _, _ => exact .inl rfl
      | [_], [_], hlast, _ =>
          right
          rw [List.cons_append, List.cons.injEq, List.nil_append] at hlast
          exact ⟨hd, hlast.2.symm⟩
      | _ :: _ :: _, _ :: _, hlast, _ => simp at hlast
      | [_], _ :: _ :: _, hlast, _ => simp at hlast
    · rw [if_neg hd] at hlast
      match right, y, hlast, hrightne with
      | [], _, _, hrightne => exact absurd rfl hrightne
      | _, [], _, _ => exact .inl rfl
      | _ :: _, _ :: _, hlast, _ => simp at hlast

include hne

/-- An exact needle is in no list of addresses with empty fields. -/
theorem ExactNeedle.not_empty_fields (addresses : List MailAddress)
    (h : ∀ a ∈ addresses, ∀ field ∈ loweredFields a, field = []) :
    ¬lowered <:+: lowerAscii (addressesJson addresses).toList := by
  rw [hexact]
  intro ⟨a, ha, field, hfield, hk⟩
  rw [h a ha field hfield, List.infix_nil] at hk
  exact hne hk

/-- **A needle in a text is met in the escaped text**, where some character is not in the needle: between
    two of these there is no frame. -/
theorem ExactNeedle.to_escape {z : Char} (hz : ¬special z) (hzl : z.toLower = z) (hzn : z ∉ lowered)
    {field : List Char} (h : Lowered field) (hk : k <:+: field) : lowered <:+: escape field := by
  have hpadded : Lowered (z :: (field ++ [z])) := by
    intro c hc
    simp only [List.mem_cons, List.mem_append, List.not_mem_nil, or_false] at hc
    rcases hc with rfl | hc | rfl
    · exact hzl
    · exact h c hc
    · exact hzl
  have hin : k <:+: z :: (field ++ [z]) := hk.trans ⟨[z], [z], by simp⟩
  have hmet := (hexact.one hpadded).mpr hin
  have hshape : oneField (z :: (field ++ [z])) = beforeEmail ++
      z :: (escape field ++ z :: afterEmail) := by
    simp [oneField, escapeChar_plain hz]
  rw [hshape, infix_separator hzn, infix_separator hzn] at hmet
  have hnone : ¬lowered <:+: beforeEmail ++ afterEmail := by
    have hempty := @ExactNeedle.one k lowered hexact [] fun c hc => absurd hc List.not_mem_nil
    rw [List.infix_nil] at hempty
    exact fun hmet => hne (hempty.mp hmet)
  rcases hmet with hmet | hmet | hmet
  · exact absurd (hmet.trans List.infix_append_left) hnone
  · exact hmet
  · exact absurd (hmet.trans List.infix_append_right) hnone

/-- **An exact needle is met up to the end of its own escape**: else a quote could take the place of the
    backslash it ends with. -/
theorem ExactNeedle.ends (hlow : Lowered k) (hprint : ∀ c ∈ k, 0x20 ≤ c.toNat) {x y : List Char}
    (hxy : x ++ lowered ++ y = escape k) (hquotes : y.count '"' = 0) : y = [] := by
  have hk := (List.dropLast_concat_getLast hne).symm
  rcases hexact.back hlow hprint hk hxy with hy | ⟨hd, hy⟩
  · exact hy
  · exfalso
    have hback : k.getLast hne = '\\' := by
      rcases hd with hd | hd | hd
      · rw [hy, hd] at hquotes
        simp at hquotes
      · exact hd
      · exact absurd (hprint _ (List.getLast_mem hne)) (by omega)
    rw [hback] at hk hy
    have hcut : x ++ lowered = escape k.dropLast ++ ['\\'] := by
      have hesc : escape k = escape k.dropLast ++ ['\\'] ++ ['\\'] := by
        conv => lhs; rw [hk, escape_append]
        rw [List.append_assoc]
        rfl
      rw [hy, hesc] at hxy
      exact List.append_cancel_right hxy
    have hlowered : Lowered (k.dropLast ++ ['"']) := by
      intro c hc
      rcases List.mem_append.mp hc with hc | hc
      · exact hlow c (List.mem_of_mem_dropLast hc)
      · exact List.mem_singleton.mp hc ▸ by decide
    have hmet : lowered <:+: escape (k.dropLast ++ ['"']) := by
      rw [escape_append]
      refine ⟨x, ['"'], ?_⟩
      rw [hcut, List.append_assoc]
      rfl
    have heq := (hexact.of_escape hlowered hmet).eq_of_length (by simp [Nat.sub_add_cancel (List.length_pos_iff.mpr hne)])
    have hlast := hk.symm.trans heq
    simp at hlast

/-- **The shape of an exact needle**: it is brought to the lower case of ASCII, and a backslash at its
    start is its only special character. -/
theorem ExactNeedle.shape {z : Char} (hz : ¬special z) (hzl : z.toLower = z) (hzn : z ∉ lowered)
    (hlow : Lowered k) (hcount : ∀ c, special c → lowered.count c = k.count c) :
    lowered = k ∧ (∀ c ∈ k.head?, c = '\\' ∨ ¬special c) ∧ ∀ c ∈ k.tail, ¬special c := by
  have hmet := hexact.to_escape hne hz hzl hzn hlow List.infix_rfl
  have hprint : ∀ c ∈ k, 0x20 ≤ c.toNat := by
    intro c hc
    by_contra hlt
    have hmem : c ∈ lowered := by
      rw [← List.count_pos_iff, hcount c (.inr (.inr (by omega)))]
      exact List.count_pos_iff.mpr hc
    exact hlt (not_control_of_mem_escape (hmet.subset hmem))
  obtain ⟨x, y, hxy⟩ := hmet
  have hcounts := count_escape hprint
  rw [← hxy] at hcounts
  simp only [List.count_append, hcount '"' (.inl rfl), hcount '\\' (.inr (.inl rfl))] at hcounts
  obtain ⟨hquotes, hbacks⟩ := hcounts
  have hy := hexact.ends hne hlow hprint hxy (by omega)
  rw [hy, List.append_nil] at hxy
  rw [hy, List.count_nil, Nat.add_zero] at hbacks
  cases hk : k with
  | nil => exact absurd hk hne
  | cons c rest =>
      have hplain : ∀ d ∈ rest, d.toNat ≥ 0x20 ∧ (rest.count '"' = 0 ∧ rest.count '\\' = 0 → ¬special d) := by
        intro d hd
        have hpd := hprint d (hk ▸ List.mem_cons_of_mem _ hd)
        refine ⟨hpd, fun hzero hs => ?_⟩
        rcases hs with rfl | rfl | hs
        · exact (List.count_eq_zero.mp hzero.1) hd
        · exact (List.count_eq_zero.mp hzero.2) hd
        · omega
      have hsum : ∀ n, x.count '\\' = n → rest.count '\\' + rest.count '"' +
          (if special c then 1 else 0) = n := by
        intro n hn
        have hpc := hprint c (hk ▸ List.mem_cons_self)
        rw [hk, List.count_cons, List.count_cons] at hbacks
        by_cases hq : c = '"'
        · have hs : special c := .inl hq
          rw [if_pos hs]
          simp [hq] at hbacks
          omega
        · by_cases hb : c = '\\'
          · have hs : special c := .inr (.inl hb)
            rw [if_pos hs]
            simp [hb] at hbacks
            omega
          · have hs : ¬special c := by
              intro hs
              rcases hs with hs | hs | hs
              · exact hq hs
              · exact hb hs
              · omega
            rw [if_neg hs]
            simp [hq, hb] at hbacks
            omega
      rcases hexact.front hlow hprint hk (show x ++ lowered ++ [] = escape k by rwa [List.append_nil]) with
        hx | ⟨hc, hx⟩
      · have hzero := hsum 0 (by rw [hx]; rfl)
        have hc : ¬special c := fun hc => by rw [if_pos hc] at hzero; omega
        have hrest : ∀ d ∈ rest, ¬special d := fun d hd => (hplain d hd).2 (by omega)
        refine ⟨?_, fun d hd => ?_, hrest⟩
        · rw [hx, List.nil_append, hk, escape_cons, escapeChar_plain hc, escape_plain hrest] at hxy
          exact hxy
        · rw [List.head?_cons, Option.mem_some_iff] at hd
          exact .inr (hd ▸ hc)
      · have hone := hsum 1 (by rw [hx]; rfl)
        rw [if_pos hc] at hone
        have hrest : ∀ d ∈ rest, ¬special d := fun d hd => (hplain d hd).2 (by omega)
        rw [hx, hk, escape_cons, escapeChar_printable (hprint c (hk ▸ List.mem_cons_self)), if_pos hc,
          escape_plain hrest] at hxy
        have heq : lowered = c :: rest := (List.cons.inj hxy).2
        refine ⟨heq, fun d hd => ?_, hrest⟩
        rw [List.head?_cons, Option.mem_some_iff] at hd
        subst hd
        rcases hc with hq | hb | hctl
        · -- A quote before the text is also the quote before the field.
          exfalso
          have hlowrest : Lowered rest := hlow.of_subset fun d hd => hk ▸ List.mem_cons_of_mem _ hd
          have hmet : lowered <:+: oneField rest := by
            obtain ⟨front, hfront⟩ := beforeEmail_quote
            rw [heq, hq, oneField, escape_plain hrest, hfront]
            exact ⟨front, afterEmail, by simp only [List.append_assoc, List.cons_append, List.nil_append]⟩
          have hle := ((hexact.one hlowrest).mp hmet).length_le
          rw [hk, List.length_cons] at hle
          omega
        · exact .inl hb
        · exact absurd (hprint c (hk ▸ List.mem_cons_self)) (by omega)

/-- **An exact needle is searchable.** -/
theorem ExactNeedle.searchable {z : Char} (hz : ¬special z) (hzl : z.toLower = z) (hzn : z ∉ lowered)
    (hlow : Lowered k) (hcount : ∀ c, special c → lowered.count c = k.count c) :
    lowered = k ∧ Searchable k := by
  obtain ⟨heq, hhead, htail⟩ := hexact.shape hne hz hzl hzn hlow hcount
  subst heq
  -- A backslash alone is met in the escape of a quote.
  have hback : lowered ≠ ['\\'] := by
    intro h
    have hquote := @ExactNeedle.of_escape _ _ hexact ['"'] (List.forall_mem_singleton.mpr (by decide))
      (by rw [h]; decide)
    rw [h] at hquote
    revert hquote
    decide
  refine ⟨rfl, hhead, htail, fun piece hpiece hin => ?_, fun c hc t ht htne htback => ⟨fun hstart => ?_, fun hstart => ?_⟩⟩
  · have hpieces : ∀ piece ∈ framePieces, piece <:+: lowerAscii (addressesJson []).toList ∨
        piece <:+: lowerAscii (addressesJson [⟨none, ""⟩, ⟨none, ""⟩]).toList := by
      decide
    have hempty : ∀ a ∈ [(⟨none, ""⟩ : MailAddress), ⟨none, ""⟩], ∀ field ∈ loweredFields a, field = [] := by
      decide
    rcases hpieces piece hpiece with h | h
    · exact hexact.not_empty_fields hne [] (fun a ha => absurd ha List.not_mem_nil) (hin.trans h)
    · exact hexact.not_empty_fields hne _ hempty (hin.trans h)
  · -- An escape ends with the start of the needle: what follows it completes the needle.
    obtain ⟨q, hq⟩ := hstart
    have hqplain : ∀ d ∈ q, ¬special d := by
      intro d hd
      refine htail d ?_
      rw [← hq, List.tail_append_of_ne_nil htne]
      exact List.mem_append_right _ hd
    have hlowq : Lowered (c :: q) :=
      lowered_special hc (hlow.of_subset fun d hd => hq ▸ List.mem_append_right t hd)
    have hmet : lowered <:+: escape (c :: q) := by
      obtain ⟨u, hu⟩ := ht
      rw [escape_cons, escape_plain hqplain, ← hu, List.append_assoc, hq]
      exact List.infix_append_right
    have hin := hexact.of_escape hlowq hmet
    have hle := hin.length_le
    have htpos := List.length_pos_iff.mpr htne
    rw [← hq, List.length_append, List.length_cons] at hle
    have heq := hin.eq_of_length (by rw [← hq, List.length_append, List.length_cons]; omega)
    have hsingle : t = [c] := by
      rw [← hq, ← List.singleton_append] at heq
      exact List.append_cancel_right heq
    rcases hhead c (by rw [heq]; rfl) with hb | hb
    · exact htback (hb ▸ hsingle)
    · exact hb hc
  · have hmet : lowered <:+: escape [c] := by
      rw [escape_cons, escape_nil, List.append_nil]
      exact List.infix_iff_prefix_suffix.mpr ⟨t, hstart, ht⟩
    have hin := hexact.of_escape (lowered_special hc fun d hd => absurd hd List.not_mem_nil) hmet
    have hpos := List.length_pos_iff.mpr hne
    have hle := hin.length_le
    rw [List.length_singleton] at hle
    have heq := hin.eq_of_length (by rw [List.length_singleton]; omega)
    rcases hhead c (by rw [heq]; rfl) with hb | hb
    · exact hback (hb ▸ heq)
    · exact hb hc

end Necessity

/-! ## 7. Filters -/

/-- What is known of `str::to_lowercase`: it leaves the characters that JSON escapes, and a character
    becomes at most three. -/
structure LowersText (toLowercase : List Char → List Char) : Prop where
  keeps : ∀ text c, special c → (toLowercase text).count c = text.count c
  grows : ∀ text, (toLowercase text).length ≤ 3 * text.length

/-- The filter on a column selects the rows with an address that has the text. -/
def FiltersAddresses (toLowercase : List Char → List Char) (column : AddressColumn) (text : String) : Prop :=
  ∀ (q : LocalMessageSearch) (ix : Index), column.filter q = some text → ∀ row ∈ ix.messages, ∀ addresses,
    column.text row = addressesJson addresses →
      (addLikeFilter toLowercase (column.text row) (column.filter q) = true ↔ HasText (trim text) addresses)

/-- The columns of a stored message are the JSON of its addresses. -/
theorem messageRow_columns {env : IndexExternal} {message : MessageEnvelope} {indexedAt : String}
    {row : MessageRow} (hjson : ∀ addresses, env.addresses.encode addresses = some (addressesJson addresses))
    (h : messageRow env message indexedAt = .ok row) :
    AddressColumn.fromJson.text row = addressesJson message.fromAddrs ∧
      AddressColumn.toJson.text row = addressesJson message.toAddrs := by
  simp only [messageRow, hjson, bind_ok, orRefuse_ok, ensure_ok, pure_ok, Option.some.injEq] at h
  obtain ⟨_, -, _, rfl, _, rfl, _, -, _, -, rfl⟩ := h
  exact ⟨rfl, rfl⟩

/-- A row with a text in both columns. -/
def rowOfAddresses (addresses : List MailAddress) : MessageRow :=
  { rowOfSubject "" with fromJson := addressesJson addresses, toJson := addressesJson addresses }

theorem rowOfAddresses_text (column : AddressColumn) (addresses : List MailAddress) :
    column.text (rowOfAddresses addresses) = addressesJson addresses := by
  cases column <;> rfl

/-- The search for addresses. -/
def searchOfAddress (text : String) : LocalMessageSearch :=
  ⟨"personal", "INBOX", some text, some text, none, none, 25⟩

theorem searchOfAddress_filter (column : AddressColumn) (text : String) :
    column.filter (searchOfAddress text) = some text := by
  cases column <;> rfl

theorem lowerAscii_lowered (text : List Char) : Lowered (lowerAscii text) := by
  intro c hc
  obtain ⟨d, -, rfl⟩ := List.mem_map.mp hc
  exact toLower_toLower d

theorem count_lowerAscii {c : Char} (h : special c) (text : List Char) :
    (lowerAscii text).count c = text.count c := by
  induction text with
  | nil => rfl
  | cons d text ih =>
      have hd : d.toLower = c ↔ d = c := by
        constructor
        · intro heq
          have hs : special d := special_toLower.mp (heq ▸ h)
          rw [← heq, toLower_special hs]
        · intro heq
          rw [heq, toLower_special h]
      rw [lowerAscii_cons, List.count_cons, List.count_cons, ih]
      simp only [beq_iff_eq, hd]

/-- A short text leaves out some character that is neither special nor a letter of ASCII. -/
theorem exists_unused {text : List Char} (h : text.length ≤ 3072) :
    ∃ z, ¬special z ∧ z.toLower = z ∧ z ∉ text := by
  have hnat : ∀ i < 3073, (Char.ofNat (0x4e00 + i)).toNat = 0x4e00 + i := by
    intro i hi
    have hvalid : (0x4e00 + i).isValidChar := .inl (by omega)
    rw [Char.ofNat, dif_pos hvalid]
    rfl
  by_contra hno
  have hall : ∀ z, ¬special z → z.toLower = z → z ∈ text := by
    intro z hz hzl
    by_contra hmem
    exact hno ⟨z, hz, hzl, hmem⟩
  have hnodup : ((List.range 3073).map fun i => Char.ofNat (0x4e00 + i)).Nodup := by
    refine List.Nodup.map_on (fun i hi j hj heq => ?_) List.nodup_range
    have hi' := hnat i (List.mem_range.mp hi)
    have hj' := hnat j (List.mem_range.mp hj)
    rw [heq, hj'] at hi'
    omega
  have hsub : ((List.range 3073).map fun i => Char.ofNat (0x4e00 + i)) ⊆ text := by
    intro z hz
    obtain ⟨i, hi, rfl⟩ := List.mem_map.mp hz
    have hi := hnat i (List.mem_range.mp hi)
    refine hall _ (fun hs => ?_) ?_
    · rcases hs with hs | hs | hs
      · rw [hs, show ('"' : Char).toNat = 34 from rfl] at hi
        omega
      · rw [hs, show ('\\' : Char).toNat = 92 from rfl] at hi
        omega
      · omega
    · apply Char.toNat_inj.mp
      rw [toNat_toLower, if_neg (by omega)]
  have hle := (hnodup.subperm hsub).length_le
  rw [List.length_map, List.length_range] at hle
  omega

theorem length_trim_le (text : String) : (trim text).length ≤ text.length := by
  unfold trim
  have hback := (@List.dropWhile_suffix _ (text.toList.dropWhile isWhitespace).reverse
    isWhitespace).length_le
  have hfront := (@List.dropWhile_suffix _ text.toList isWhitespace).length_le
  rw [List.length_reverse] at hback
  rw [List.length_reverse, ← String.length_toList]
  omega

/-- **The needles whose filters are exact.**  A filter on addresses selects the messages with an address
    that has the text exactly when the text is brought to the lower case of ASCII and is met nowhere in the
    JSON of a list but in a field. -/
theorem address_filter_exact {toLowercase : List Char → List Char} (hlower : LowersText toLowercase)
    (column : AddressColumn) {text : String} (hneedle : trim text ≠ []) (hlen : text.length ≤ 1024) :
    FiltersAddresses toLowercase column text ↔
      lowerAscii (toLowercase (trim text)) = lowerAscii (trim text) ∧ Searchable (lowerAscii (trim text)) := by
  have hne : lowerAscii (trim text) ≠ [] := by simpa [lowerAscii] using hneedle
  have hfields : ∀ addresses, HasText (trim text) addresses ↔
      ∃ a ∈ addresses, ∃ field ∈ loweredFields a, lowerAscii (trim text) <:+: field := fun _ => Iff.rfl
  constructor
  · intro h
    have hexact : ExactNeedle (lowerAscii (toLowercase (trim text))) (lowerAscii (trim text)) := by
      intro addresses
      have hrow := h (searchOfAddress text) ⟨[rowOfAddresses addresses], []⟩
        (searchOfAddress_filter column text) (rowOfAddresses addresses) List.mem_cons_self addresses
        (rowOfAddresses_text column addresses)
      rw [searchOfAddress_filter, addLikeFilter_iff toLowercase hneedle, rowOfAddresses_text, hfields] at hrow
      exact hrow
    obtain ⟨z, hz, hzl, hzn⟩ := @exists_unused (lowerAscii (toLowercase (trim text))) (by
      have hgrows := hlower.grows (trim text)
      have htrim := length_trim_le text
      rw [lowerAscii, List.length_map]
      omega)
    refine hexact.searchable hne hz hzl hzn (lowerAscii_lowered _) fun c hc => ?_
    rw [count_lowerAscii hc, count_lowerAscii hc, hlower.keeps _ c hc]
  · intro h q ix hq row hrow addresses haddresses
    obtain ⟨heq, hsearchable⟩ := h
    rw [hq, addLikeFilter_iff toLowercase hneedle, haddresses, heq, hsearchable.met_iff hne, hfields]

/-- `str::to_lowercase` on ASCII. -/
theorem lowerAscii_lowersText : LowersText lowerAscii :=
  ⟨fun text _ hc => count_lowerAscii hc text, fun text => by rw [lowerAscii, List.length_map]; omega⟩

/-- The filter for `zoe`. -/
theorem address_filter_exact_sample : FiltersAddresses lowerAscii .fromJson "zoe" ↔
    lowerAscii (lowerAscii (trim "zoe")) = lowerAscii (trim "zoe") ∧ Searchable (lowerAscii (trim "zoe")) :=
  address_filter_exact lowerAscii_lowersText .fromJson (by decide) (by decide)

/-- **A filter for `email` selects a message of Bob.** -/
theorem key_matches_every_message :
    addLikeFilter lowerAscii (rowOfAddresses [⟨none, "bob@x.org"⟩]).fromJson (some "email") = true ∧
      ¬HasText (trim "email") [⟨none, "bob@x.org"⟩] := by
  constructor
  · decide +kernel
  · unfold HasText
    decide

end MessageIndex

end Kirje
