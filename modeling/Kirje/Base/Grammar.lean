import Kirje.Base.Json
import Kirje.Base.Utf8

/-
  File:      Kirje/Base/Grammar.lean
  Subject:   The grammar of JSON texts (RFC 8259), over bytes.

  A derivation says which bytes are a text of which tree.  The tree keeps, of a string,
  its bytes between the quotes and the characters they stand for, and of an object its
  members in their order, repeated names included; white space and the spelling of
  names are in the bytes only.

  * `StringBody`: what may stand between two quotes, and the characters it decodes to.
  * **`StringBody.unique`**: a string decodes to one text.
  * `Derives`: the values, and the items and members of arrays and objects.
  * `Tree.members`, `Tree.topMembers`, `Tree.nesting`: what a tree holds.
-/

namespace Kirje.Base.Grammar

/-! ## 1. White space, literals and numbers -/

/-- `ws` -/
def Space (bytes : Bytes) : Prop :=
  ∀ b ∈ bytes, b = byte ' ' ∨ b = byte '\n' ∨ b = byte '\r' ∨ b = byte '\t'

def Digit (b : UInt8) : Prop := byte '0' ≤ b ∧ b ≤ byte '9'

/-- `1*DIGIT` -/
def Digits (bytes : Bytes) : Prop := bytes ≠ [] ∧ ∀ b ∈ bytes, Digit b

/-- `int = zero / ( digit1-9 *DIGIT )` -/
inductive IntPart : Bytes → Prop where
  | zero : IntPart [byte '0']
  | digits {b : UInt8} {bytes : Bytes} :
      Digit b → b ≠ byte '0' → (∀ d ∈ bytes, Digit d) → IntPart (b :: bytes)

/-- `[ frac ]`, with `frac = decimal-point 1*DIGIT` -/
inductive Fraction : Bytes → Prop where
  | absent : Fraction []
  | present {digits : Bytes} : Digits digits → Fraction (byte '.' :: digits)

/-- `[ exp ]`, with `exp = e [ minus / plus ] 1*DIGIT` -/
inductive Exponent : Bytes → Prop where
  | absent : Exponent []
  | present {e : UInt8} {sign digits : Bytes} : e = byte 'e' ∨ e = byte 'E' →
      sign = [] ∨ sign = [byte '-'] ∨ sign = [byte '+'] → Digits digits →
        Exponent (e :: sign ++ digits)

/-- `number = [ minus ] int [ frac ] [ exp ]` -/
inductive Number : Bytes → Prop where
  | mk {sign int fraction exponent : Bytes} : sign = [] ∨ sign = [byte '-'] → IntPart int →
      Fraction fraction → Exponent exponent → Number (sign ++ int ++ fraction ++ exponent)

/-- A literal name. -/
def Literal (bytes : Bytes) : Prop :=
  bytes = "null".toList.map byte ∨ bytes = "true".toList.map byte ∨ bytes = "false".toList.map byte

/-! ## 2. Strings -/

/-- The value of a hexadecimal digit, in either case. -/
def hexValue? (b : UInt8) : Option Nat :=
  if byte '0' ≤ b ∧ b ≤ byte '9' then some (b.toNat - 48)
  else if byte 'a' ≤ b ∧ b ≤ byte 'f' then some (b.toNat - 87)
  else if byte 'A' ≤ b ∧ b ≤ byte 'F' then some (b.toNat - 55)
  else none

/-- `4HEXDIG`, with its number. -/
inductive Unit16 : Bytes → Nat → Prop where
  | mk {a b c d : UInt8} {w x y z : Nat} : hexValue? a = some w → hexValue? b = some x →
      hexValue? c = some y → hexValue? d = some z →
        Unit16 [a, b, c, d] (((w * 16 + x) * 16 + y) * 16 + z)

theorem Unit16.length {digits : Bytes} {n : Nat} (h : Unit16 digits n) : digits.length = 4 := by
  cases h
  rfl

/-- The letters of the short escapes and their characters. -/
def shortEscapes : List (Char × Char) :=
  [('"', '"'), ('\\', '\\'), ('/', '/'), ('b', '\x08'), ('f', '\x0c'), ('n', '\n'), ('r', '\r'),
    ('t', '\t')]

/-- `char`, with the character it stands for; a surrogate stands for one only in a pair. -/
inductive StringChar : Bytes → Char → Prop where
  | unescaped {c : Char} : ¬special c → StringChar (String.utf8EncodeChar c) c
  | short {letter c : Char} : (letter, c) ∈ shortEscapes → StringChar [byte '\\', byte letter] c
  | unicode {digits : Bytes} {n : Nat} : Unit16 digits n → n < 0xd800 ∨ 0xdfff < n →
      StringChar (byte '\\' :: byte 'u' :: digits) (Char.ofNat n)
  | pair {digits digits' : Bytes} {high low : Nat} : Unit16 digits high → Unit16 digits' low →
      0xd800 ≤ high → high ≤ 0xdbff → 0xdc00 ≤ low → low ≤ 0xdfff →
        StringChar (byte '\\' :: byte 'u' :: digits ++ byte '\\' :: byte 'u' :: digits')
          (Char.ofNat (0x10000 + (high - 0xd800) * 0x400 + (low - 0xdc00)))

/-- A character takes up to twelve bytes. -/
theorem StringChar.length {bytes : Bytes} {c : Char} (h : StringChar bytes c) :
    0 < bytes.length ∧ bytes.length ≤ 12 := by
  cases h with
  | unescaped _ =>
      rw [String.length_utf8EncodeChar]
      exact ⟨Char.utf8Size_pos c, Nat.le_trans (Char.utf8Size_le_four c) (by decide)⟩
  | short _ => exact ⟨Nat.succ_pos _, by rw [List.length_cons, List.length_singleton]; decide⟩
  | unicode hunit _ =>
      rw [List.length_cons, List.length_cons, hunit.length]
      decide
  | pair hunit hunit' _ _ _ _ =>
      rw [List.length_append, List.length_cons, List.length_cons, List.length_cons, List.length_cons,
        hunit.length, hunit'.length]
      decide

/-- `*char`, with the text it stands for. -/
inductive StringBody : Bytes → List Char → Prop where
  | nil : StringBody [] []
  | cons {bytes rest : Bytes} {c : Char} {text : List Char} : StringChar bytes c →
      StringBody rest text → StringBody (bytes ++ rest) (c :: text)

theorem StringBody.length_le {raw : Bytes} {text : List Char} (h : StringBody raw text) :
    raw.length ≤ 12 * text.length := by
  induction h with
  | nil => exact Nat.le_refl 0
  | cons hc _ ih =>
      have := hc.length.2
      rw [List.length_append, List.length_cons]
      omega

theorem Unit16.unique {digits : Bytes} {n m : Nat} (h : Unit16 digits n) (h' : Unit16 digits m) :
    n = m := by
  obtain ⟨ha, hb, hc, hd⟩ := h
  obtain ⟨ha', hb', hc', hd'⟩ := h'
  rw [ha, Option.some.injEq] at ha'
  rw [hb, Option.some.injEq] at hb'
  rw [hc, Option.some.injEq] at hc'
  rw [hd, Option.some.injEq] at hd'
  rw [ha', hb', hc', hd']

/-- Four digits in front are known. -/
theorem Unit16.append_inj {digits digits' r s : Bytes} {n m : Nat} (h : Unit16 digits n)
    (h' : Unit16 digits' m) (he : digits ++ r = digits' ++ s) : n = m ∧ r = s := by
  obtain ⟨rfl, hrest⟩ := List.append_inj he (h.length.trans h'.length.symm)
  exact ⟨h.unique h', hrest⟩

theorem shortEscapes_unique {l l' c d : Char} (h : (l, c) ∈ shortEscapes)
    (h' : (l', d) ∈ shortEscapes) (he : byte l = byte l') : c = d := by
  have hall : shortEscapes.all fun p => shortEscapes.all fun q =>
      byte p.1 = byte q.1 → p.2 = q.2 := by decide
  exact List.all_iff_forall_prop.mp (List.all_eq_true.mp hall _ h) _ h' he

theorem shortEscapes_ne {l c : Char} (h : (l, c) ∈ shortEscapes) : byte l ≠ byte 'u' := by
  have hall : shortEscapes.all fun p => byte p.1 ≠ byte 'u' := by decide
  exact List.all_iff_forall_prop.mp hall _ h

/-- No character that stands for itself starts with a backslash. -/
theorem unescaped_ne {c : Char} (hc : ¬special c) {r s : Bytes} :
    String.utf8EncodeChar c ++ r ≠ byte '\\' :: s := by
  intro he
  have hback : String.utf8EncodeChar '\\' = [byte '\\'] := utf8EncodeChar_ascii (by decide)
  rw [← List.singleton_append, ← hback] at he
  exact hc (.inr (.inl (utf8EncodeChar_append_inj he).1))

/-- **A character of a string is determined by the bytes it starts.** -/
theorem StringChar.unique {a b r s : Bytes} {c d : Char} (h : StringChar a c)
    (h' : StringChar b d) (he : a ++ r = b ++ s) : c = d ∧ r = s := by
  cases h with
  | unescaped hc =>
      cases h' with
      | unescaped _ => exact utf8EncodeChar_append_inj he
      | short _ => exact absurd he (unescaped_ne hc)
      | unicode _ _ => exact absurd he (unescaped_ne hc)
      | pair _ _ _ _ _ _ => exact absurd (he.trans (List.append_assoc ..)) (unescaped_ne hc)
  | short hl =>
      cases h' with
      | unescaped hd => exact absurd he.symm (unescaped_ne hd)
      | short hl' =>
          have htail := (List.cons.inj he).2
          exact ⟨shortEscapes_unique hl hl' (List.cons.inj htail).1, (List.cons.inj htail).2⟩
      | unicode _ _ => exact absurd (List.cons.inj (List.cons.inj he).2).1 (shortEscapes_ne hl)
      | pair _ _ _ _ _ _ => exact absurd (List.cons.inj (List.cons.inj he).2).1 (shortEscapes_ne hl)
  | unicode hunit hn =>
      cases h' with
      | unescaped hd => exact absurd he.symm (unescaped_ne hd)
      | short hl' => exact absurd (List.cons.inj (List.cons.inj he).2).1.symm (shortEscapes_ne hl')
      | unicode hunit' _ =>
          obtain ⟨rfl, hrest⟩ := hunit.append_inj hunit' (List.cons.inj (List.cons.inj he).2).2
          exact ⟨rfl, hrest⟩
      | pair hhigh _ hh hh' _ _ =>
          rw [List.append_assoc] at he
          obtain ⟨rfl, -⟩ := hunit.append_inj hhigh (List.cons.inj (List.cons.inj he).2).2
          omega
  | pair hhigh hlow hh hh' _ _ =>
      rw [List.append_assoc] at he
      cases h' with
      | unescaped hd => exact absurd he.symm (unescaped_ne hd)
      | short hl' => exact absurd (List.cons.inj (List.cons.inj he).2).1.symm (shortEscapes_ne hl')
      | unicode hunit' hn =>
          obtain ⟨rfl, -⟩ := hhigh.append_inj hunit' (List.cons.inj (List.cons.inj he).2).2
          omega
      | pair hhigh' hlow' _ _ _ _ =>
          rw [List.append_assoc] at he
          obtain ⟨rfl, htail⟩ := hhigh.append_inj hhigh' (List.cons.inj (List.cons.inj he).2).2
          obtain ⟨rfl, hrest⟩ := hlow.append_inj hlow' (List.cons.inj (List.cons.inj htail).2).2
          exact ⟨rfl, hrest⟩

/-- **A string decodes to one text.** -/
theorem StringBody.unique {raw : Bytes} {text text' : List Char} (h : StringBody raw text)
    (h' : StringBody raw text') : text = text' := by
  induction h generalizing text' with
  | nil =>
      generalize hraw : ([] : Bytes) = raw at h'
      cases h' with
      | nil => rfl
      | cons hc _ =>
          have := hc.length.1
          rw [(List.append_eq_nil_iff.mp hraw.symm).1] at this
          exact absurd this (Nat.lt_irrefl 0)
  | @cons bytes rest c text hc _ ih =>
      generalize hraw : bytes ++ rest = raw at h'
      cases h' with
      | nil =>
          have := hc.length.1
          rw [(List.append_eq_nil_iff.mp hraw).1] at this
          exact absurd this (Nat.lt_irrefl 0)
      | cons hc' hbody =>
          obtain ⟨rfl, rfl⟩ := hc.unique hc' hraw
          rw [ih hbody]

/-! ## 3. Values -/

inductive Tree where
  | scalar (token : Bytes)
  | string (raw : Bytes) (text : String)
  | array (items : List Tree)
  | object (members : List (String × Tree))

inductive Phrase where
  | value (v : Tree)
  | item (v : Tree)
  | items (vs : List Tree)
  | member (key : String) (v : Tree)
  | members (ms : List (String × Tree))

/-- What the bytes of a phrase are.  An item is a value with the white space around it. -/
inductive Derives : Phrase → Bytes → Prop where
  | scalar {token : Bytes} : Literal token ∨ Number token → Derives (.value (.scalar token)) token
  | string {raw : Bytes} {text : String} : StringBody raw text.toList →
      Derives (.value (.string raw text)) (byte '"' :: raw ++ [byte '"'])
  | emptyArray {ws : Bytes} : Space ws → Derives (.value (.array [])) (byte '[' :: ws ++ [byte ']'])
  | array {vs : List Tree} {bytes : Bytes} : Derives (.items vs) bytes →
      Derives (.value (.array vs)) (byte '[' :: bytes ++ [byte ']'])
  | emptyObject {ws : Bytes} : Space ws →
      Derives (.value (.object [])) (byte '\x7b' :: ws ++ [byte '\x7d'])
  | object {ms : List (String × Tree)} {bytes : Bytes} : Derives (.members ms) bytes →
      Derives (.value (.object ms)) (byte '\x7b' :: bytes ++ [byte '\x7d'])
  | item {v : Tree} {before bytes after : Bytes} : Space before → Derives (.value v) bytes →
      Space after → Derives (.item v) (before ++ bytes ++ after)
  | oneItem {v : Tree} {bytes : Bytes} : Derives (.item v) bytes → Derives (.items [v]) bytes
  | moreItems {v : Tree} {vs : List Tree} {bytes rest : Bytes} : Derives (.item v) bytes →
      Derives (.items vs) rest → Derives (.items (v :: vs)) (bytes ++ byte ',' :: rest)
  | member {key : String} {v : Tree} {before raw after bytes : Bytes} : Space before →
      StringBody raw key.toList → Space after → Derives (.item v) bytes →
        Derives (.member key v) (before ++ byte '"' :: raw ++ byte '"' :: after ++ byte ':' :: bytes)
  | oneMember {key : String} {v : Tree} {bytes : Bytes} : Derives (.member key v) bytes →
      Derives (.members [(key, v)]) bytes
  | moreMembers {key : String} {v : Tree} {ms : List (String × Tree)} {bytes rest : Bytes} :
      Derives (.member key v) bytes → Derives (.members ms) rest →
        Derives (.members ((key, v) :: ms)) (bytes ++ byte ',' :: rest)

/-- `JSON-text = ws value ws` -/
def Text (v : Tree) (bytes : Bytes) : Prop := Derives (.item v) bytes

/-! ## 4. What a tree holds -/

mutual

/-- How deep arrays and objects are nested. -/
def Tree.nesting : Tree → Nat
  | .scalar _ | .string .. => 0
  | .array items => nestingItems items + 1
  | .object members => nestingMembers members + 1

def nestingItems : List Tree → Nat
  | [] => 0
  | v :: vs => max v.nesting (nestingItems vs)

def nestingMembers : List (String × Tree) → Nat
  | [] => 0
  | (_, v) :: ms => max v.nesting (nestingMembers ms)

end

mutual

/-- The members of the objects of a tree, at every depth. -/
def Tree.members : Tree → List (String × Tree)
  | .scalar _ | .string .. => []
  | .array items => membersOfItems items
  | .object members => membersOfMembers members

def membersOfItems : List Tree → List (String × Tree)
  | [] => []
  | v :: vs => v.members ++ membersOfItems vs

def membersOfMembers : List (String × Tree) → List (String × Tree)
  | [] => []
  | (key, v) :: ms => (key, v) :: v.members ++ membersOfMembers ms

end

/-- The members of the tree itself, where it is an object. -/
def Tree.topMembers : Tree → List (String × Tree)
  | .object members => members
  | _ => []

end Kirje.Base.Grammar
