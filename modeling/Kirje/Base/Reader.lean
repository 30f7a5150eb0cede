import Kirje.Base.Bytes

/-
  File:      Kirje/Base/Reader.lean
  Subject:   Readers that hand out a byte stream in portions of their own choice.

  A reader gets the room there is for the next portion and returns at most as much.
  It may be interrupted, and it may fail.  `Streams` says which bytes it will deliver
  before it ends or fails, however it cuts them.

  * `Reader.Streams.next`: what one read takes off the stream.
  * `trickle`: a reader of single bytes.
-/

namespace Kirje.Base

variable {σ ε : Type}

/-- What one read returns; no bytes are the end. -/
inductive ReadReply (ε : Type) where
  | ok (bytes : Bytes)
  | interrupted
  | failed (e : ε)
  deriving DecidableEq, Repr

/-- A reader with states `σ`. -/
structure Reader (σ ε : Type) where
  read : σ → Nat → ReadReply ε × σ
  fits : ∀ s n bytes s', read s n = (.ok bytes, s') → bytes.length ≤ n

/-- From each state the reader delivers `remaining` and then ends, or fails with `failure`;
    it is interrupted at most `patience` times before the next portion. -/
structure Reader.Streams (reader : Reader σ ε) (remaining : σ → Bytes) (patience : σ → Nat)
    (failure : Option ε) : Prop where
  portion : ∀ s n bytes s', 0 < n → reader.read s n = (.ok bytes, s') →
    remaining s = bytes ++ remaining s'
  ended : ∀ s n s', 0 < n → reader.read s n = (.ok [], s') → remaining s = [] ∧ failure = none
  interrupted : ∀ s n s', reader.read s n = (.interrupted, s') →
    remaining s' = remaining s ∧ patience s' < patience s
  failed : ∀ s n e s', reader.read s n = (.failed e, s') →
    remaining s = [] ∧ remaining s' = [] ∧ failure = some e

/-- What one read does to a stream. -/
inductive Reader.Takes (remaining : σ → Bytes) (patience : σ → Nat) (failure : Option ε)
    (n : Nat) (s s' : σ) : ReadReply ε → Prop where
  | portion (b : UInt8) (bytes : Bytes) (hn : (b :: bytes).length ≤ n)
      (h : remaining s = b :: bytes ++ remaining s') :
      Takes remaining patience failure n s s' (.ok (b :: bytes))
  | ended (h : remaining s = []) (h' : remaining s' = []) (hf : failure = none) :
      Takes remaining patience failure n s s' (.ok [])
  | interrupted (h : remaining s' = remaining s) (hp : patience s' < patience s) :
      Takes remaining patience failure n s s' .interrupted
  | failed (e : ε) (h : remaining s = []) (h' : remaining s' = []) (hf : failure = some e) :
      Takes remaining patience failure n s s' (.failed e)

/-- **One read takes a portion, meets the end or the failure, or is interrupted.** -/
theorem Reader.Streams.next {reader : Reader σ ε} {remaining : σ → Bytes} {patience : σ → Nat}
    {failure : Option ε} (h : reader.Streams remaining patience failure) {s s' : σ} {n : Nat}
    (hn : 0 < n) {reply : ReadReply ε} (hread : reader.read s n = (reply, s')) :
    Reader.Takes remaining patience failure n s s' reply := by
  cases reply with
  | ok bytes =>
      cases bytes with
      | nil =>
          obtain ⟨hs, hf⟩ := h.ended s n s' hn hread
          exact .ended hs (by simpa [hs] using (h.portion s n _ s' hn hread).symm) hf
      | cons b bytes =>
          exact .portion b bytes (reader.fits s n _ s' hread) (h.portion s n _ s' hn hread)
  | interrupted =>
      obtain ⟨hs, hp⟩ := h.interrupted s n s' hread
      exact .interrupted hs hp
  | failed e =>
      obtain ⟨hs, hs', hf⟩ := h.failed s n e s' hread
      exact .failed e hs hs' hf

/-- A reader that hands out one byte at a time and is interrupted where the script says so. -/
def trickle : Reader (List (Option UInt8)) ε where
  read
    | [], _ => (.ok [], [])
    | s, 0 => (.ok [], s)
    | none :: rest, _ + 1 => (.interrupted, rest)
    | some b :: rest, _ + 1 => (.ok [b], rest)
  fits s n bytes s' h := by
    rcases s with _ | ⟨_ | b, rest⟩ <;> rcases n with _ | n <;> cases h <;> simp

theorem trickle_streams : (trickle : Reader _ ε).Streams (·.filterMap id) List.length none where
  portion s n bytes s' hn h := by
    rcases s with _ | ⟨_ | b, rest⟩ <;> rcases n with _ | n <;> cases h <;> simp
  ended s n s' hn h := by
    rcases s with _ | ⟨_ | b, rest⟩ <;> rcases n with _ | n <;> cases h <;> simp at hn ⊢
  interrupted s n s' h := by
    rcases s with _ | ⟨_ | b, rest⟩ <;> rcases n with _ | n <;> cases h <;> simp
  failed s n e s' h := by
    rcases s with _ | ⟨_ | b, rest⟩ <;> rcases n with _ | n <;> cases h

end Kirje.Base
