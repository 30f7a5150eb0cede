import Kirje.Base.Like
import Kirje.Base.Utf8

/-
  File:      Kirje/Base/Ip.lean
  Subject:   The texts of IP addresses, as the standard library of Rust reads and writes
             them (`std::net`).

  The parsers take from the front of a text and fail without taking.  An IPv4 address is
  four decimal octets without leading zeros; an IPv6 address is eight hexadecimal groups
  of which `::` stands for some zeros, and the last two may be an IPv4 address.

  * `parseIpv6_apart`: **no text is an address of both families**.
  * `parseIpv4_toLower`, `parseIpv6_toLower`: **the case of its letters does not matter
    to an address**.
  * `ipv4Text_ascii`, `ipv6Text_ascii`: the text of an address is a short one in ASCII.
-/

namespace Kirje.Base

/-! ## 1. Numbers -/

/-- A parser takes from the front of a text. -/
abbrev Parser (α : Type) := List Char → Option (α × List Char)

/-- `char::to_digit`. -/
def toDigit (radix : Nat) (c : Char) : Option Nat :=
  let value :=
    if 48 ≤ c.toNat ∧ c.toNat ≤ 57 then c.toNat - 48
    else if 65 ≤ c.toNat ∧ c.toNat ≤ 90 then c.toNat - 55
    else if 97 ≤ c.toNat ∧ c.toNat ≤ 122 then c.toNat - 87
    else radix
  if value < radix then some value else none

/-- The digits in front of a text. -/
def readDigits (radix : Nat) : List Char → List Nat × List Char
  | [] => ([], [])
  | c :: cs =>
      match toDigit radix c with
      | some digit => (digit :: (readDigits radix cs).1, (readDigits radix cs).2)
      | none => ([], c :: cs)

/-- `read_number`: so many digits at most, and no leading zero unless one is allowed. -/
def readDigitsNumber (radix maxDigits : Nat) (allowZeroPrefix : Bool) (bound : Nat) :
    Parser (Fin bound) := fun cs =>
  let digits := (readDigits radix cs).1
  let value := digits.foldl (fun value digit => value * radix + digit) 0
  if digits = [] ∨ maxDigits < digits.length ∨
      (allowZeroPrefix = false ∧ digits.head? = some 0 ∧ 1 < digits.length) then none
  else if h : value < bound then some (⟨value, h⟩, (readDigits radix cs).2)
  else none

/-- `read_given_char`. -/
def readGivenChar (target : Char) : Parser Unit
  | [] => none
  | c :: cs => if c = target then some ((), cs) else none

/-- `read_separator`: what is not the first stands behind a separator. -/
def readSeparator {α : Type} (separator : Char) (index : Nat) (inner : Parser α) : Parser α :=
  fun cs => if index = 0 then inner cs else (readGivenChar separator cs).bind fun p => inner p.2

/-- `parse_with`: the whole text. -/
def parseWith {α : Type} (inner : Parser α) (cs : List Char) : Option α :=
  match inner cs with
  | some (a, []) => some a
  | _ => none

/-! ## 2. IPv4 -/

/-- `Ipv4Addr`. -/
structure Ipv4Addr where
  a : Fin 256
  b : Fin 256
  c : Fin 256
  d : Fin 256
  deriving DecidableEq, Repr

/-- An octet. -/
def readOctet : Parser (Fin 256) := readDigitsNumber 10 3 false 256

/-- `read_ipv4_addr`. -/
def readIpv4Addr : Parser Ipv4Addr := fun cs => do
  let (a, cs) ← readSeparator '.' 0 readOctet cs
  let (b, cs) ← readSeparator '.' 1 readOctet cs
  let (c, cs) ← readSeparator '.' 2 readOctet cs
  let (d, cs) ← readSeparator '.' 3 readOctet cs
  some (⟨a, b, c, d⟩, cs)

/-- `Ipv4Addr::from_str`. -/
def parseIpv4Addr (s : String) : Option Ipv4Addr :=
  if 15 < s.utf8ByteSize then none else parseWith readIpv4Addr s.toList

/-- The characters of an IPv4 address. -/
def Ipv4Addr.chars (ip : Ipv4Addr) : List Char :=
  Nat.toDigits 10 ip.a.val ++ '.' :: (Nat.toDigits 10 ip.b.val ++ '.' :: (Nat.toDigits 10 ip.c.val ++
    '.' :: Nat.toDigits 10 ip.d.val))

/-- `Ipv4Addr::to_string`. -/
def Ipv4Addr.text (ip : Ipv4Addr) : String := String.ofList ip.chars

/-! ## 3. IPv6 -/

/-- `Ipv6Addr`. -/
structure Ipv6Addr where
  segments : List (Fin 65536)
  length_eq : segments.length = 8
  deriving DecidableEq, Repr

/-- Two octets as a group. -/
def groupOf (high low : Fin 256) : Fin 65536 := ⟨high * 256 + low, by omega⟩

/-- The octets of a group. -/
def octetsOf (group : Fin 65536) : Fin 256 × Fin 256 :=
  (⟨group / 256, by omega⟩, ⟨group % 256, Nat.mod_lt _ (by decide)⟩)

/-- A group. -/
def readGroup : Parser (Fin 65536) := readDigitsNumber 16 4 true 65536

/-- `read_groups`: the groups that are read for so many slots from an index on, whether the last
    two are an IPv4 address, and what is left. -/
def readGroups : Nat → Nat → List Char → List (Fin 65536) × Bool × List Char
  | 0, _, cs => ([], false, cs)
  | slots + 1, index, cs =>
      match if 0 < slots then readSeparator ':' index readIpv4Addr cs else none with
      | some (ip, cs) => ([groupOf ip.a ip.b, groupOf ip.c ip.d], true, cs)
      | none =>
          match readSeparator ':' index readGroup cs with
          | some (group, cs) =>
              let (groups, ipv4, cs) := readGroups slots (index + 1) cs
              (group :: groups, ipv4, cs)
          | none => ([], false, cs)

theorem length_readGroups (slots index : Nat) (cs : List Char) :
    (readGroups slots index cs).1.length ≤ slots := by
  induction slots generalizing index cs with
  | zero => simp [readGroups]
  | succ slots ih =>
      unfold readGroups
      split
      · rename_i h
        split_ifs at h with hslots
        show 2 ≤ slots + 1
        omega
      · split
        · exact Nat.succ_le_succ (ih _ _)
        · exact Nat.zero_le _

/-- The address of the groups on both sides of a gap. -/
def withGap (head tail : List (Fin 65536)) (h : head.length + tail.length ≤ 8) : Ipv6Addr :=
  ⟨head ++ List.replicate (8 - (head.length + tail.length)) 0 ++ tail, by
    simp only [List.length_append, List.length_replicate]
    omega⟩

/-- `read_ipv6_addr`. -/
def readIpv6Addr : Parser Ipv6Addr := fun cs =>
  let head := readGroups 8 0 cs
  if h : head.1.length = 8 then some (⟨head.1, h⟩, head.2.2)
  else if head.2.1 then none
  else
    (readGivenChar ':' head.2.2).bind fun p => (readGivenChar ':' p.2).bind fun p =>
      let tail := readGroups (8 - (head.1.length + 1)) 0 p.2
      some (withGap head.1 tail.1 (by
        have htail : tail.1.length ≤ 8 - (head.1.length + 1) := length_readGroups ..
        have hhead : head.1.length ≤ 8 := length_readGroups ..
        omega), tail.2.2)

/-- `Ipv6Addr::from_str`. -/
def parseIpv6Addr (s : String) : Option Ipv6Addr := parseWith readIpv6Addr s.toList

/-- `to_ipv4_mapped`. -/
def Ipv6Addr.toIpv4Mapped (ip : Ipv6Addr) : Option Ipv4Addr :=
  if ip.segments.take 6 = [0, 0, 0, 0, 0, 65535] then
    let ab := octetsOf (ip.segments.getD 6 0)
    let cd := octetsOf (ip.segments.getD 7 0)
    some ⟨ab.1, ab.2, cd.1, cd.2⟩
  else none

/-- A run of zeros: where it starts and its length. -/
structure Span where
  start : Nat
  len : Nat
  deriving DecidableEq, Repr

/-- The first of the longest runs of zeros from an index on, beside the runs so far. -/
def longestZeroes : Nat → List (Fin 65536) → Span → Span → Span
  | _, [], longest, _ => longest
  | index, segment :: segments, longest, current =>
      if segment = 0 then
        let current := ⟨if current.len = 0 then index else current.start, current.len + 1⟩
        longestZeroes (index + 1) segments (if longest.len < current.len then current else longest)
          current
      else longestZeroes (index + 1) segments longest ⟨0, 0⟩

/-- `fmt_subslice`: groups between colons. -/
def groupChars : List (Fin 65536) → List Char
  | [] => []
  | first :: tail =>
      Nat.toDigits 16 first.val ++ tail.flatMap fun group => ':' :: Nat.toDigits 16 group.val

/-- The characters of an IPv6 address. -/
def Ipv6Addr.chars (ip : Ipv6Addr) : List Char :=
  match ip.toIpv4Mapped with
  | some ipv4 => "::ffff:".toList ++ ipv4.chars
  | none =>
      let zeroes := longestZeroes 0 ip.segments ⟨0, 0⟩ ⟨0, 0⟩
      if 1 < zeroes.len then
        groupChars (ip.segments.take zeroes.start) ++
          ':' :: ':' :: groupChars (ip.segments.drop (zeroes.start + zeroes.len))
      else groupChars ip.segments

/-- `Ipv6Addr::to_string`. -/
def Ipv6Addr.text (ip : Ipv6Addr) : String := String.ofList ip.chars

example : (parseIpv6Addr "2001:DB8:0:0:1::").map Ipv6Addr.text = some "2001:db8:0:0:1::" := by decide

/-! ## 4. The families are apart -/

section Parsers

variable {α β : Type}

/-- A parser that takes only some characters. -/
def Takes (ok : Char → Prop) (p : Parser α) : Prop :=
  ∀ cs a rest, p cs = some (a, rest) → ∃ front, cs = front ++ rest ∧ ∀ c ∈ front, ok c

variable {ok : Char → Prop}

theorem Takes.bind {p : Parser α} {q : α → Parser β} (hp : Takes ok p) (hq : ∀ a, Takes ok (q a)) :
    Takes ok fun cs => (p cs).bind fun x => q x.1 x.2 := by
  intro cs b rest h
  obtain ⟨⟨a, left⟩, ha, hb⟩ := Option.bind_eq_some_iff.mp h
  obtain ⟨front, rfl, hfront⟩ := hp cs a left ha
  obtain ⟨more, rfl, hmore⟩ := hq a left b rest hb
  refine ⟨front ++ more, (List.append_assoc ..).symm, fun c hc => ?_⟩
  exact (List.mem_append.mp hc).elim (hfront c) (hmore c)

theorem takes_pure (a : α) : Takes ok fun cs => some (a, cs) := by
  intro cs b rest h
  cases h
  exact ⟨[], rfl, fun c hc => absurd hc List.not_mem_nil⟩

theorem readDigits_front (radix : Nat) (cs : List Char) :
    ∃ front, cs = front ++ (readDigits radix cs).2 ∧ ∀ c ∈ front, (toDigit radix c).isSome := by
  induction cs with
  | nil => exact ⟨[], rfl, fun c hc => absurd hc List.not_mem_nil⟩
  | cons c cs ih =>
      obtain ⟨front, hcs, hfront⟩ := ih
      cases hc : toDigit radix c with
      | none =>
          refine ⟨[], ?_, fun c hc => absurd hc List.not_mem_nil⟩
          rw [readDigits, hc]
          rfl
      | some digit =>
          refine ⟨c :: front, ?_, List.forall_mem_cons.mpr ⟨by rw [hc]; rfl, hfront⟩⟩
          rw [readDigits, hc, List.cons_append]
          exact congrArg (c :: ·) hcs

theorem takes_number {radix maxDigits bound : Nat} {allowZeroPrefix : Bool}
    (hdigit : ∀ c, (toDigit radix c).isSome → ok c) :
    Takes ok (readDigitsNumber radix maxDigits allowZeroPrefix bound) := by
  intro cs n rest h
  simp only [readDigitsNumber] at h
  split_ifs at h with hcount hbound
  obtain ⟨-, rfl⟩ := Prod.mk.inj (Option.some.inj h)
  obtain ⟨front, hcs, hfront⟩ := readDigits_front radix cs
  exact ⟨front, hcs, fun c hc => hdigit c (hfront c hc)⟩

theorem takes_given {target : Char} (h : ok target) : Takes ok (readGivenChar target) := by
  intro cs u rest hread
  cases cs with
  | nil => cases hread
  | cons c cs =>
      rw [readGivenChar] at hread
      split_ifs at hread with hc
      obtain ⟨-, rfl⟩ := Prod.mk.inj (Option.some.inj hread)
      exact ⟨[c], rfl, List.forall_mem_singleton.mpr (hc ▸ h)⟩

theorem takes_separator {separator : Char} {index : Nat} {inner : Parser α} (hs : ok separator)
    (hinner : Takes ok inner) : Takes ok (readSeparator separator index inner) := by
  unfold readSeparator
  split
  · exact hinner
  · exact (takes_given hs).bind fun _ => hinner

theorem takes_ipv4 (hdigit : ∀ c, (toDigit 10 c).isSome → ok c) (hdot : ok '.') :
    Takes ok readIpv4Addr := by
  have hoctet : ∀ index, Takes ok (readSeparator '.' index readOctet) := fun index =>
    takes_separator hdot (takes_number hdigit)
  exact (hoctet 0).bind fun a => (hoctet 1).bind fun b => (hoctet 2).bind fun c =>
    (hoctet 3).bind fun d => takes_pure _

theorem readGivenChar_absent {target : Char} {cs : List Char} (h : target ∉ cs) :
    readGivenChar target cs = none := by
  cases cs with
  | nil => rfl
  | cons c cs =>
      have hc : c ≠ target := fun heq => h (heq ▸ List.mem_cons_self)
      rw [readGivenChar, if_neg hc]

/-- A text without a separator has nothing behind one. -/
theorem readSeparator_absent {separator : Char} {index : Nat} {inner : Parser α} {cs : List Char}
    (h : separator ∉ cs) : readSeparator separator (index + 1) inner cs = none := by
  rw [readSeparator, if_neg (Nat.succ_ne_zero index), readGivenChar_absent h]
  rfl

end Parsers

theorem readGroups_later {slots index : Nat} {cs : List Char} (h : ':' ∉ cs) :
    readGroups slots (index + 1) cs = ([], false, cs) := by
  cases slots with
  | zero => rfl
  | succ slots =>
      rw [readGroups, readSeparator_absent h, readSeparator_absent h]
      split_ifs <;> rfl

/-- A text without colons is one group or one IPv4 address at most. -/
theorem readGroups_first {slots : Nat} {cs : List Char} (h : ':' ∉ cs) :
    (readGroups slots 0 cs).1.length ≤ 2 ∧ ':' ∉ (readGroups slots 0 cs).2.2 := by
  have hrest : ∀ {α : Type} {p : Parser α} {a : α} {rest : List Char}, Takes (fun _ => True) p →
      p cs = some (a, rest) → ':' ∉ rest := by
    intro α p a rest hp hread hmem
    obtain ⟨front, rfl, -⟩ := hp cs a rest hread
    exact h (List.mem_append_right front hmem)
  cases slots with
  | zero => exact ⟨by simp [readGroups], h⟩
  | succ slots =>
      unfold readGroups
      split
      · rename_i hread
        split_ifs at hread with hslots
        exact ⟨le_refl 2, hrest (takes_separator trivial (takes_ipv4 (fun _ _ => trivial) trivial)) hread⟩
      · split
        · rename_i hread
          have hleft := hrest (takes_separator trivial (takes_number fun _ _ => trivial)) hread
          simp only [readGroups_later hleft]
          exact ⟨by simp, hleft⟩
        · exact ⟨Nat.zero_le 2, h⟩

/-- **An IPv6 address has a colon.** -/
theorem readIpv6Addr_absent {cs : List Char} (h : ':' ∉ cs) : readIpv6Addr cs = none := by
  obtain ⟨hlen, hleft⟩ := @readGroups_first 8 cs h
  rw [readIpv6Addr, dif_neg (by omega)]
  split
  · rfl
  · rw [readGivenChar_absent hleft]
    rfl

/-- An IPv4 address has none. -/
theorem parseWith_ipv4_colon {cs : List Char} {ip : Ipv4Addr} (h : parseWith readIpv4Addr cs = some ip) :
    ':' ∉ cs := by
  unfold parseWith at h
  split at h
  · rename_i hread
    have hdigit : ∀ c, (toDigit 10 c).isSome → c ≠ ':' := by
      rintro c hc rfl
      revert hc
      decide
    obtain ⟨front, rfl, hfront⟩ := takes_ipv4 hdigit (by decide) cs _ _ hread
    intro hmem
    rw [List.append_nil] at hmem
    exact hfront ':' hmem rfl
  · cases h

/-- **No text is an address of both families.** -/
theorem parseIpv6_apart {s : String} {ip : Ipv6Addr} (h : parseIpv6Addr s = some ip) :
    parseIpv4Addr s = none := by
  cases h4 : parseIpv4Addr s with
  | none => rfl
  | some ip4 =>
      unfold parseIpv4Addr at h4
      split_ifs at h4
      rw [parseIpv6Addr, parseWith, readIpv6Addr_absent (parseWith_ipv4_colon h4)] at h
      cases h

/-! ## 5. The case of letters -/

section Folding

variable {α β : Type}

/-- A parser for which the case of letters does not matter. -/
def Folds (p : Parser α) : Prop :=
  ∀ cs, p (cs.map Char.toLower) = (p cs).map fun x => (x.1, x.2.map Char.toLower)

theorem Folds.bind {p : Parser α} {q : α → Parser β} (hp : Folds p) (hq : ∀ a, Folds (q a)) :
    Folds fun cs => (p cs).bind fun x => q x.1 x.2 := by
  intro cs
  show (p (cs.map Char.toLower)).bind _ = ((p cs).bind _).map _
  rw [hp cs]
  cases p cs with
  | none => rfl
  | some x => exact hq x.1 x.2

theorem folds_pure (a : α) : Folds fun cs => some (a, cs) := fun _ => rfl

theorem toDigit_toLower {radix : Nat} (c : Char) : toDigit radix c.toLower = toDigit radix c := by
  unfold toDigit
  rw [toNat_toLower]
  generalize c.toNat = n
  by_cases h : 65 ≤ n ∧ n ≤ 90
  · have hsub : n + 32 - 87 = n - 55 := by omega
    rw [if_pos h, if_neg (by omega : ¬(48 ≤ n + 32 ∧ n + 32 ≤ 57)),
      if_neg (by omega : ¬(65 ≤ n + 32 ∧ n + 32 ≤ 90)),
      if_pos (by omega : 97 ≤ n + 32 ∧ n + 32 ≤ 122), if_neg (by omega : ¬(48 ≤ n ∧ n ≤ 57)),
      if_pos h, hsub]
  · rw [if_neg h]

theorem readDigits_toLower (radix : Nat) (cs : List Char) :
    readDigits radix (cs.map Char.toLower) =
      ((readDigits radix cs).1, (readDigits radix cs).2.map Char.toLower) := by
  induction cs with
  | nil => rfl
  | cons c cs ih =>
      rw [List.map_cons, readDigits, readDigits, toDigit_toLower, ih]
      cases toDigit radix c <;> rfl

theorem folds_number (radix maxDigits bound : Nat) (allowZeroPrefix : Bool) :
    Folds (readDigitsNumber radix maxDigits allowZeroPrefix bound) := by
  intro cs
  simp only [readDigitsNumber, readDigits_toLower]
  split_ifs <;> rfl

/-- A character that is no letter is given in either case. -/
theorem folds_given {target : Char} (h : target.toNat < 65) : Folds (readGivenChar target) := by
  intro cs
  cases cs with
  | nil => rfl
  | cons c cs =>
      have hsame : c.toLower = target ↔ c = target := by
        rw [← Char.toNat_inj, ← Char.toNat_inj, toNat_toLower]
        split_ifs <;> omega
      rw [List.map_cons, readGivenChar, readGivenChar]
      by_cases hc : c = target
      · rw [if_pos hc, if_pos (hsame.mpr hc)]
        rfl
      · rw [if_neg hc, if_neg fun h => hc (hsame.mp h)]
        rfl

theorem folds_separator {separator : Char} {index : Nat} {inner : Parser α}
    (hs : separator.toNat < 65) (hinner : Folds inner) :
    Folds (readSeparator separator index inner) := by
  unfold readSeparator
  split
  · exact hinner
  · exact (folds_given hs).bind fun _ => hinner

theorem Folds.parseWith {inner : Parser α} (h : Folds inner) (cs : List Char) :
    parseWith inner (cs.map Char.toLower) = parseWith inner cs := by
  unfold Base.parseWith
  rw [h cs]
  rcases inner cs with _ | ⟨a, _ | ⟨c, rest⟩⟩ <;> rfl

end Folding

theorem folds_ipv4 : Folds readIpv4Addr := by
  have hoctet : ∀ index, Folds (readSeparator '.' index readOctet) := fun _ =>
    folds_separator (by decide) (folds_number 10 3 256 false)
  exact (hoctet 0).bind fun a => (hoctet 1).bind fun b => (hoctet 2).bind fun c =>
    (hoctet 3).bind fun d => folds_pure _

theorem readGroups_toLower (slots index : Nat) (cs : List Char) :
    readGroups slots index (cs.map Char.toLower) = ((readGroups slots index cs).1,
      (readGroups slots index cs).2.1, (readGroups slots index cs).2.2.map Char.toLower) := by
  induction slots generalizing index cs with
  | zero => rfl
  | succ slots ih =>
      have hipv4 : Folds (readSeparator ':' index readIpv4Addr) :=
        folds_separator (by decide) folds_ipv4
      have hgroup : Folds (readSeparator ':' index readGroup) :=
        folds_separator (by decide) (folds_number 16 4 65536 true)
      have hembedded : (if 0 < slots then readSeparator ':' index readIpv4Addr (cs.map Char.toLower)
          else none) = (if 0 < slots then readSeparator ':' index readIpv4Addr cs else none).map
            fun x => (x.1, x.2.map Char.toLower) := by
        split_ifs
        · exact hipv4 cs
        · rfl
      rw [readGroups, readGroups, hembedded, hgroup cs]
      cases if 0 < slots then readSeparator ':' index readIpv4Addr cs else none with
      | some x => rfl
      | none =>
          cases readSeparator ':' index readGroup cs with
          | none => rfl
          | some x => simp only [Option.map_none, Option.map_some, ih]

theorem folds_ipv6 : Folds readIpv6Addr := by
  intro cs
  simp only [readIpv6Addr, readGroups_toLower]
  split_ifs
  · rfl
  · rfl
  · -- Behind the head stand two colons, then the tail.
    have hcolon : Folds (readGivenChar ':') := folds_given (by decide)
    rw [hcolon (readGroups 8 0 cs).2.2]
    cases readGivenChar ':' (readGroups 8 0 cs).2.2 with
    | none => rfl
    | some x =>
        show (readGivenChar ':' (x.2.map Char.toLower)).bind _ =
          Option.map _ ((readGivenChar ':' x.2).bind _)
        rw [hcolon x.2]
        cases readGivenChar ':' x.2 with
        | none => rfl
        | some y => simp only [Option.map_some, Option.bind_some, readGroups_toLower]

theorem utf8Size_toLower (c : Char) : c.toLower.utf8Size = c.utf8Size := by
  have hlow := toNat_toLower c
  have hone : ∀ d : Char, d.toNat < 128 → d.utf8Size = 1 := by
    intro d hd
    refine Char.utf8Size_eq_one_iff.mpr (UInt32.le_iff_toNat_le.mpr ?_)
    exact Nat.le_of_lt_succ hd
  split_ifs at hlow with hletter
  · rw [hone c (by omega), hone c.toLower (by omega)]
  · rw [Char.toNat_inj.mp hlow]

theorem utf8ByteSize_toLower (s : String) :
    (String.ofList (s.toList.map Char.toLower)).utf8ByteSize = s.utf8ByteSize := by
  rw [← length_encodeUtf8_toList, ← length_encodeUtf8_toList, String.toList_ofList]
  induction s.toList with
  | nil => rfl
  | cons c cs ih =>
      rw [List.map_cons, encodeUtf8_cons, encodeUtf8_cons, List.length_append, List.length_append, ih,
        String.length_utf8EncodeChar, String.length_utf8EncodeChar, utf8Size_toLower]

/-- **The case of letters does not matter to an address.** -/
theorem parseIpv4_toLower (s : String) :
    parseIpv4Addr (String.ofList (s.toList.map Char.toLower)) = parseIpv4Addr s := by
  unfold parseIpv4Addr
  rw [utf8ByteSize_toLower, String.toList_ofList, folds_ipv4.parseWith]

theorem parseIpv6_toLower (s : String) :
    parseIpv6Addr (String.ofList (s.toList.map Char.toLower)) = parseIpv6Addr s := by
  unfold parseIpv6Addr
  rw [String.toList_ofList]
  exact folds_ipv6.parseWith s.toList

/-! ## 6. The texts of addresses -/

/-- A short text in ASCII. -/
structure ShortAscii (length : Nat) (cs : List Char) : Prop where
  nonempty : cs ≠ []
  short : cs.length ≤ length
  ascii : ∀ c ∈ cs, c.toNat < 0x80

theorem toDigits_ascii {base : Nat} (hlo : 1 < base) (hhi : base ≤ 16) (n : Nat) :
    ∀ c ∈ Nat.toDigits base n, c.toNat < 0x80 := by
  have hdigit : ∀ d < 16, (Nat.digitChar d).toNat < 0x80 := by decide
  induction n using Nat.strongRecOn with
  | ind n ih =>
      by_cases hn : n < base
      · rw [Nat.toDigits_of_lt_base hn]
        exact List.forall_mem_singleton.mpr (hdigit n (by omega))
      · have hdiv : n / base < n := Nat.div_lt_self (by omega) hlo
        have hmod : n % base < base := Nat.mod_lt _ (by omega)
        rw [Nat.toDigits_of_base_le hlo (by omega)]
        intro c hc
        rcases List.mem_append.mp hc with hc | hc
        · exact ih _ hdiv c hc
        · rw [List.mem_singleton.mp hc]
          exact hdigit _ (by omega)

/-- **A number of so many digits.** -/
theorem toDigits_short {base digits : Nat} (hlo : 1 < base) (hhi : base ≤ 16) (hd : 0 < digits)
    {n : Nat} (hn : n < base ^ digits) : ShortAscii digits (Nat.toDigits base n) :=
  ⟨Nat.toDigits_ne_nil, (Nat.length_toDigits_le_iff hlo hd).mpr hn, toDigits_ascii hlo hhi n⟩

theorem ShortAscii.append {m n : Nat} {a b : List Char} (ha : ShortAscii m a) (hb : b.length ≤ n)
    (hascii : ∀ c ∈ b, c.toNat < 0x80) : ShortAscii (m + n) (a ++ b) where
  nonempty := List.append_ne_nil_of_left_ne_nil ha.nonempty b
  short := by
    rw [List.length_append]
    exact Nat.add_le_add ha.short hb
  ascii c hc := (List.mem_append.mp hc).elim (ha.ascii c) (hascii c)

theorem ShortAscii.cons {n : Nat} {c : Char} {cs : List Char} (hc : c.toNat < 0x80)
    (hlen : cs.length ≤ n) (hascii : ∀ c ∈ cs, c.toNat < 0x80) : ShortAscii (n + 1) (c :: cs) :=
  ⟨List.cons_ne_nil c cs, Nat.succ_le_succ hlen, List.forall_mem_cons.mpr ⟨hc, hascii⟩⟩

/-- **The text of an IPv4 address.** -/
theorem Ipv4Addr.chars_ascii (ip : Ipv4Addr) : ShortAscii 15 ip.chars := by
  have hoctet : ∀ octet : Fin 256, ShortAscii 3 (Nat.toDigits 10 octet.val) := fun octet =>
    toDigits_short (by decide) (by decide) (by decide) (by omega)
  have hd := hoctet ip.d
  have hcd := (hoctet ip.c).append (ShortAscii.cons (c := '.') (by decide) hd.short hd.ascii).short
    (ShortAscii.cons (by decide) hd.short hd.ascii).ascii
  have hbcd := (hoctet ip.b).append (ShortAscii.cons (c := '.') (by decide) hcd.short hcd.ascii).short
    (ShortAscii.cons (by decide) hcd.short hcd.ascii).ascii
  exact (hoctet ip.a).append (ShortAscii.cons (c := '.') (by decide) hbcd.short hbcd.ascii).short
    (ShortAscii.cons (by decide) hbcd.short hbcd.ascii).ascii

theorem group_ascii (group : Fin 65536) : ShortAscii 4 (Nat.toDigits 16 group.val) :=
  toDigits_short (by decide) (by decide) (by decide) (by omega)

theorem groupChars_ascii (groups : List (Fin 65536)) :
    (groupChars groups).length ≤ 5 * groups.length ∧ ∀ c ∈ groupChars groups, c.toNat < 0x80 := by
  have htail : ∀ tail : List (Fin 65536),
      (tail.flatMap fun group => ':' :: Nat.toDigits 16 group.val).length ≤ 5 * tail.length ∧
        ∀ c ∈ tail.flatMap fun group => ':' :: Nat.toDigits 16 group.val, c.toNat < 0x80 := by
    intro tail
    induction tail with
    | nil => exact ⟨Nat.le_refl 0, fun c hc => absurd hc List.not_mem_nil⟩
    | cons group tail ih =>
        have hgroup := group_ascii group
        have h := (ShortAscii.cons (c := ':') (by decide) hgroup.short hgroup.ascii).append ih.1 ih.2
        rw [List.flatMap_cons, List.length_cons]
        exact ⟨by have := h.short; omega, h.ascii⟩
  cases groups with
  | nil => exact ⟨Nat.le_refl 0, fun c hc => absurd hc List.not_mem_nil⟩
  | cons first tail =>
      have h := (group_ascii first).append (htail tail).1 (htail tail).2
      exact ⟨by have := h.short; simp only [groupChars, List.length_cons]; omega, h.ascii⟩

/-- **The text of an IPv6 address.** -/
theorem Ipv6Addr.chars_ascii (ip : Ipv6Addr) : ShortAscii 45 ip.chars := by
  have hlen := ip.length_eq
  unfold Ipv6Addr.chars
  split
  · rename_i ipv4 _
    have hipv4 := ipv4.chars_ascii
    have hall : "::ffff:".toList.all fun c => decide (c.toNat < 0x80) := by decide
    have hprefix : ShortAscii 7 "::ffff:".toList :=
      ⟨by decide, by decide, fun c hc => of_decide_eq_true (List.all_eq_true.mp hall c hc)⟩
    have h := hprefix.append hipv4.short hipv4.ascii
    exact ⟨h.nonempty, by have := h.short; omega, h.ascii⟩
  · generalize longestZeroes 0 ip.segments ⟨0, 0⟩ ⟨0, 0⟩ = zeroes
    dsimp only
    split
    · obtain ⟨hhead, hheada⟩ := groupChars_ascii (ip.segments.take zeroes.start)
      obtain ⟨htail, htaila⟩ := groupChars_ascii (ip.segments.drop (zeroes.start + zeroes.len))
      rw [List.length_take] at hhead
      rw [List.length_drop] at htail
      refine ⟨List.append_ne_nil_of_right_ne_nil _ (List.cons_ne_nil _ _), ?_, ?_⟩
      · simp only [List.length_append, List.length_cons]
        omega
      · intro c hc
        rcases List.mem_append.mp hc with hc | hc
        · exact hheada c hc
        · simp only [List.mem_cons] at hc
          rcases hc with rfl | rfl | hc
          · decide
          · decide
          · exact htaila c hc
    · obtain ⟨hshort, hascii⟩ := groupChars_ascii ip.segments
      refine ⟨?_, by omega, hascii⟩
      match hsegments : ip.segments with
      | [] => rw [hsegments] at hlen; cases hlen
      | first :: tail =>
          exact List.append_ne_nil_of_left_ne_nil (group_ascii first).nonempty _

end Kirje.Base
