import Kirje.Base.Reader
import Kirje.Core.Review

/-
  File:      Kirje/Local/Reading.lean
  Subject:   Bounded reads at the local file boundary and the JSON inputs of the
             command line (crates/kirje-local-io/src/lib.rs, crates/kirje-cli/src/main.rs).

  `memory n` says whether a vector may grow to `n` bytes.  The loop runs on fuel, one
  unit a read; `none` is a loop that is still reading.

  * `readLoop_bounded`: whatever the reader does, no more than the limit is returned.
  * `readLoop_stream`: on a stream the loop ends, and its outcome is a function of the
    stream's bytes alone.
  * **`json_input_exact`**: a command accepts an input exactly when the parser accepts
    its bytes, however they arrive.
-/

namespace Kirje

open Base

variable {σ : Type}

/-! ## 1. `read_stream_bounded` -/

/-- The kinds of `io::Error` the boundary tells apart. -/
inductive IoError where
  | notFound | alreadyExists | other
  deriving DecidableEq, Repr

inductive BoundaryError where
  | invalidPath | linkRejected | notRegularFile | identityMismatch
  | resourceLimit (limit : Nat)
  | io (e : IoError)
  deriving DecidableEq, Repr

/-- `READ_CHUNK`. -/
def readChunk : Nat := 64 * 1024

/-- `limit.saturating_add(1)`. -/
def probeLimit (limit : Nat) : Nat := min (limit + 1) (2 ^ 64 - 1)

/-- The loop of `read_stream_bounded`. -/
def readLoop (reader : Reader σ IoError) (memory : Nat → Bool) (limit : Nat) :
    Nat → Bytes → σ → Option (Except BoundaryError Bytes × σ)
  | 0, _, _ => none
  | fuel + 1, output, s =>
      let remaining := probeLimit limit - output.length
      if remaining = 0 then some (.error (.resourceLimit limit), s)
      else
        match reader.read s (min remaining readChunk) with
        | (.ok [], s') => some (.ok output, s')
        | (.ok bytes, s') =>
            if memory (output.length + bytes.length) then
              if limit < (output ++ bytes).length then some (.error (.resourceLimit limit), s')
              else readLoop reader memory limit fuel (output ++ bytes) s'
            else some (.error (.resourceLimit limit), s')
        | (.interrupted, s') => readLoop reader memory limit fuel output s'
        | (.failed e, s') => some (.error (.io e), s')

/-- `read_stream_bounded`. -/
def readStreamBounded (reader : Reader σ IoError) (memory : Nat → Bool) (limit fuel : Nat) (s : σ) :
    Option (Except BoundaryError Bytes × σ) :=
  if memory (min limit readChunk) && memory readChunk then readLoop reader memory limit fuel [] s
  else some (.error (.resourceLimit limit), s)

/-- `read_bounded`, on a file of `length` bytes by its metadata. -/
def readBounded (reader : Reader σ IoError) (memory : Nat → Bool) (limit fuel length : Nat) (s : σ) :
    Option (Except BoundaryError Bytes × σ) :=
  if limit < length then some (.error (.resourceLimit limit), s)
  else readStreamBounded reader memory limit fuel s

/-! ## 2. What the loop returns -/

section Loop

variable {reader : Reader σ IoError} {memory : Nat → Bool} {limit : Nat}

/-- **No reader gets more than the limit past the loop.** -/
theorem readLoop_bounded {fuel : Nat} {output out : Bytes} {s s' : σ} (hout : output.length ≤ limit)
    (h : readLoop reader memory limit fuel output s = some (.ok out, s')) : out.length ≤ limit := by
  induction fuel generalizing output s with
  | zero => cases h
  | succ fuel ih =>
      rw [readLoop] at h
      split at h
      · cases h
      · split at h
        · cases h
          exact hout
        · split at h
          · split at h
            · cases h
            · next hle => exact ih (Nat.le_of_not_lt hle) h
          · cases h
        · exact ih hout h
        · cases h

/-- What a stream of `content` makes of the loop. -/
def boundedOutcome (limit : Nat) (content : Bytes) (failure : Option IoError) :
    Except BoundaryError Bytes :=
  if content.length ≤ limit then
    match failure with
    | none => .ok content
    | some e => .error (.io e)
  else .error (.resourceLimit limit)

theorem boundedOutcome_over {content : Bytes} {failure : Option IoError}
    (h : limit < content.length) :
    boundedOutcome limit content failure = .error (.resourceLimit limit) :=
  if_neg (by omega)

theorem boundedOutcome_ok {content : Bytes} (h : content.length ≤ limit) :
    boundedOutcome limit content none = .ok content := if_pos h

theorem boundedOutcome_io {content : Bytes} {e : IoError} (h : content.length ≤ limit) :
    boundedOutcome limit content (some e) = .error (.io e) := if_pos h

variable {remaining : σ → Bytes} {patience : σ → Nat} {failure : Option IoError}

/-- The loop goes on after a portion, or has too much. -/
theorem readLoop_portion (hlimit : limit < 2 ^ 64 - 1) (hmemory : ∀ n ≤ limit + 1, memory n = true)
    {output bytes : Bytes} {b : UInt8} {n fuel : Nat} {s s' : σ} (hout : output.length ≤ limit)
    (hn : n = min (probeLimit limit - output.length) readChunk) (hbytes : (b :: bytes).length ≤ n)
    (hread : reader.read s n = (.ok (b :: bytes), s')) :
    readLoop reader memory limit (fuel + 1) output s =
      if limit < (output ++ b :: bytes).length then some (.error (.resourceLimit limit), s')
      else readLoop reader memory limit fuel (output ++ b :: bytes) s' := by
  have hprobe : probeLimit limit = limit + 1 := Nat.min_eq_left (by omega)
  have hroom : probeLimit limit - output.length ≠ 0 := by omega
  have hfits : output.length + (b :: bytes).length ≤ limit + 1 := by omega
  rw [readLoop, if_neg hroom, ← hn, hread]
  exact if_pos (hmemory _ hfits)

/-- From `s` the loop ends, takes at most one byte over the limit off the stream, and returns what
    the bytes of the stream determine. -/
def Ends (reader : Reader σ IoError) (memory : Nat → Bool) (limit : Nat) (remaining : σ → Bytes)
    (failure : Option IoError) (output : Bytes) (s : σ) : Prop :=
  ∃ enough s' taken, remaining s = taken ++ remaining s' ∧ (output ++ taken).length ≤ limit + 1 ∧
    ∀ fuel, enough ≤ fuel → readLoop reader memory limit fuel output s =
      some (boundedOutcome limit (output ++ remaining s) failure, s')

/-- One round of the loop. -/
theorem readLoop_round (hstream : reader.Streams remaining patience failure)
    (hlimit : limit < 2 ^ 64 - 1) (hmemory : ∀ n ≤ limit + 1, memory n = true)
    {output : Bytes} {s : σ} (hout : output.length ≤ limit)
    (hportion : ∀ bytes s', (remaining s').length < (remaining s).length →
      (output ++ bytes).length ≤ limit → Ends reader memory limit remaining failure (output ++ bytes) s')
    (hinterrupted : ∀ s', remaining s' = remaining s → patience s' < patience s →
      Ends reader memory limit remaining failure output s') :
    Ends reader memory limit remaining failure output s := by
  have hprobe : probeLimit limit = limit + 1 := Nat.min_eq_left (by omega)
  have hroom : probeLimit limit - output.length ≠ 0 := by omega
  have hpos : 0 < min (probeLimit limit - output.length) readChunk := by
    rw [Nat.lt_min]
    exact ⟨by omega, by decide⟩
  cases hread : reader.read s (min (probeLimit limit - output.length) readChunk) with
  | mk reply s' =>
      cases hstream.next hpos hread with
      | portion b bytes hn hs =>
          by_cases hover : limit < (output ++ b :: bytes).length
          · refine ⟨1, s', b :: bytes, hs, ?_, fun fuel hfuel => ?_⟩
            · rw [List.length_append]
              omega
            · obtain ⟨fuel, rfl⟩ := Nat.exists_eq_add_of_le' hfuel
              rw [readLoop_portion hlimit hmemory hout rfl hn hread, if_pos hover,
                boundedOutcome_over]
              rw [hs, List.length_append, List.length_append]
              rw [List.length_append] at hover
              omega
          · have hshort : (remaining s').length < (remaining s).length := by
              rw [hs, List.length_append, List.length_cons]
              omega
            obtain ⟨enough, s'', taken, hs', hlen, hrun⟩ :=
              hportion (b :: bytes) s' hshort (Nat.le_of_not_lt hover)
            refine ⟨enough + 1, s'', b :: bytes ++ taken, ?_, ?_, fun fuel hfuel => ?_⟩
            · rw [hs, hs', List.append_assoc]
            · rwa [List.append_assoc] at hlen
            · obtain ⟨fuel, rfl⟩ := Nat.exists_eq_add_of_le' (Nat.le_trans (Nat.le_add_left 1 _) hfuel)
              rw [readLoop_portion hlimit hmemory hout rfl hn hread, if_neg hover,
                hrun fuel (by omega), hs, List.append_assoc]
      | ended hs hs' hf =>
          refine ⟨1, s', [], by rw [hs, hs']; rfl, by simpa using Nat.le_succ_of_le hout,
            fun fuel hfuel => ?_⟩
          obtain ⟨fuel, rfl⟩ := Nat.exists_eq_add_of_le' hfuel
          rw [readLoop, if_neg hroom, hread, hs, List.append_nil, hf, boundedOutcome_ok hout]
      | interrupted hs hp =>
          obtain ⟨enough, s'', taken, hs', hlen, hrun⟩ := hinterrupted s' hs hp
          refine ⟨enough + 1, s'', taken, hs ▸ hs', hlen, fun fuel hfuel => ?_⟩
          obtain ⟨fuel, rfl⟩ := Nat.exists_eq_add_of_le' (Nat.le_trans (Nat.le_add_left 1 _) hfuel)
          rw [readLoop, if_neg hroom, hread, ← hs]
          exact hrun fuel (by omega)
      | failed e hs hs' hf =>
          refine ⟨1, s', [], by rw [hs, hs']; rfl, by simpa using Nat.le_succ_of_le hout,
            fun fuel hfuel => ?_⟩
          obtain ⟨fuel, rfl⟩ := Nat.exists_eq_add_of_le' hfuel
          rw [readLoop, if_neg hroom, hread, hs, List.append_nil, hf, boundedOutcome_io hout]

/-- **On a stream the loop ends**, however the reader cuts it. -/
theorem readLoop_stream (hstream : reader.Streams remaining patience failure)
    (hlimit : limit < 2 ^ 64 - 1) (hmemory : ∀ n ≤ limit + 1, memory n = true)
    (output : Bytes) (s : σ) (hout : output.length ≤ limit) :
    Ends reader memory limit remaining failure output s := by
  -- A portion shortens what remains; between two of them the patience runs down.
  induction hlen : (remaining s).length using Nat.strong_induction_on generalizing output s with
  | _ len ihlen =>
      induction hpat : patience s using Nat.strong_induction_on generalizing s with
      | _ pat ihpat =>
          refine readLoop_round hstream hlimit hmemory hout (fun bytes s' hshort hle => ?_)
            fun s' hs hp => ?_
          · exact ihlen _ (hlen ▸ hshort) (output ++ bytes) s' hle rfl
          · exact ihpat _ (hpat ▸ hp) s' (by rw [hs, hlen]) rfl

end Loop

/-! ## 3. `read_json_input` -/

/-- `map_local_input_error`. -/
def mapLocalInputError (label : String) (stream : Bool) : BoundaryError → MailError
  | .resourceLimit _ => .new .resourceLimit (label ++ " exceeds the configured input limit") false
  | .linkRejected | .notRegularFile => .invalid (label ++ " must be a regular file, not a link")
  | .invalidPath => .invalid (label ++ " path is invalid")
  | .identityMismatch => .invalid (label ++ " changed while it was being read")
  | .io _ =>
      if stream then .invalid ("cannot read " ++ label ++ " from stdin")
      else .invalid ("cannot read " ++ label ++ " file")

/-- Where an input comes from: standard input, or a file as it was opened, with the length its
    metadata gives. -/
inductive JsonSource (σ : Type) where
  | stdin (s : σ)
  | file (opened : Except BoundaryError (Nat × σ))

def JsonSource.isStream : JsonSource σ → Bool
  | .stdin _ => true
  | .file _ => false

/-- The bytes of an input. -/
def readSource (reader : Reader σ IoError) (memory : Nat → Bool) (maxBytes fuel : Nat) :
    JsonSource σ → Option (Except BoundaryError Bytes)
  | .stdin s => (readStreamBounded reader memory maxBytes fuel s).map Prod.fst
  | .file (.error e) => some (.error e)
  | .file (.ok (length, s)) => (readBounded reader memory maxBytes fuel length s).map Prod.fst

/-- A parse error names the input and not the place in it. -/
def relabel {α : Type} (label : String) : Result α → Result α
  | .ok a => .ok a
  | .error e =>
      if e.code = .invalidInput then .error (.invalid (label ++ " must match the bounded JSON contract"))
      else .error e

/-- What is parsed of the bytes that were read. -/
def parseSource {α : Type} (input : BoundedInput α) (serde : Deserializer α) (label : String)
    (stream : Bool) : Except BoundaryError Bytes → Result α
  | .ok bytes => relabel label (parseBoundedJson input serde bytes)
  | .error e => .error (mapLocalInputError label stream e)

/-- `read_json_input`. -/
def readJsonInput {α : Type} (input : BoundedInput α) (serde : Deserializer α)
    (reader : Reader σ IoError) (memory : Nat → Bool) (maxBytes fuel : Nat) (label : String)
    (source : JsonSource σ) : Option (Result α) :=
  (readSource reader memory maxBytes fuel source).map (parseSource input serde label source.isStream)

section Inputs

variable {reader : Reader σ IoError} {memory : Nat → Bool} {limit : Nat}
  {remaining : σ → Bytes} {patience : σ → Nat} {failure : Option IoError}

theorem relabel_ok {α : Type} {label : String} {r : Result α} {a : α} :
    relabel label r = .ok a ↔ r = .ok a := by
  cases r with
  | ok b => exact Iff.rfl
  | error e =>
      simp only [relabel]
      split <;> simp

/-- A source whose bytes are those of the stream from `s`. -/
def JsonSource.From (remaining : σ → Bytes) (s : σ) (source : JsonSource σ) : Prop :=
  source = .stdin s ∨ source = .file (.ok ((remaining s).length, s))

/-- **A stream and a file of the same bytes are read alike.** -/
theorem readSource_eq (hstream : reader.Streams remaining patience failure)
    (hlimit : limit < 2 ^ 64 - 1) (hmemory : ∀ n ≤ max (limit + 1) readChunk, memory n = true)
    (s : σ) : ∃ enough, ∀ fuel, enough ≤ fuel → ∀ source, JsonSource.From remaining s source →
      readSource reader memory limit fuel source = some (boundedOutcome limit (remaining s) failure) := by
  obtain ⟨enough, s', taken, -, -, hrun⟩ := readLoop_stream hstream hlimit
    (fun n hn => hmemory n (by omega)) [] s (Nat.zero_le _)
  have hread : ∀ fuel, enough ≤ fuel → readStreamBounded reader memory limit fuel s =
      some (boundedOutcome limit (remaining s) failure, s') := by
    intro fuel hfuel
    have hreserve : (memory (min limit readChunk) && memory readChunk) = true := by
      rw [hmemory _ (by omega), hmemory _ (by omega)]
      rfl
    rw [readStreamBounded, if_pos hreserve, hrun fuel hfuel, List.nil_append]
  refine ⟨enough, fun fuel hfuel source hsource => ?_⟩
  rcases hsource with rfl | rfl
  · rw [readSource, hread fuel hfuel]
    rfl
  · rw [readSource, readBounded]
    by_cases hover : limit < (remaining s).length
    · rw [if_pos hover, boundedOutcome_over hover]
      rfl
    · rw [if_neg hover, hread fuel hfuel]
      rfl

/-- **A command accepts exactly what the parser accepts.**  Whatever portions the bytes of a stream or
    a file come in, and however often the reads are interrupted, `read_json_input` ends; under the
    parser's own byte budget it returns a value exactly when the bytes end without a failure and
    `parse_bounded_json` returns that value for all of them; and input over the budget is refused as
    such, before any of it is parsed. -/
theorem json_input_exact {α : Type} {input : BoundedInput α} {serde : Deserializer α}
    (hstream : reader.Streams remaining patience failure) (hlimit : input.maxBytes < 2 ^ 64 - 1)
    (hmemory : ∀ n ≤ max (input.maxBytes + 1) readChunk, memory n = true) (label : String) (s : σ) :
    ∃ enough, ∀ fuel, enough ≤ fuel → ∀ source, JsonSource.From remaining s source →
      ∃ r, readJsonInput input serde reader memory input.maxBytes fuel label source = some r ∧
        (∀ value, r = .ok value ↔
          failure = none ∧ parseBoundedJson input serde (remaining s) = .ok value) ∧
        (input.maxBytes < (remaining s).length →
          r = .error (.new .resourceLimit (label ++ " exceeds the configured input limit") false)) := by
  obtain ⟨enough, hread⟩ := readSource_eq hstream hlimit hmemory s
  refine ⟨enough, fun fuel hfuel source hsource => ?_⟩
  rw [readJsonInput, hread fuel hfuel source hsource, Option.map_some]
  refine ⟨_, rfl, fun value => ?_, fun hover => ?_⟩
  · by_cases hover : input.maxBytes < (remaining s).length
    · have hrefused : parseBoundedJson input serde (remaining s) ≠ .ok value := by
        intro h
        simp only [parseBoundedJson, bind_ok, ensure_ok] at h
        obtain ⟨_, hle, -⟩ := h
        omega
      rw [boundedOutcome_over hover]
      exact ⟨fun h => (by cases h), fun h => absurd h.2 hrefused⟩
    · cases failure with
      | none =>
          rw [boundedOutcome_ok (Nat.le_of_not_lt hover), parseSource, relabel_ok]
          exact ⟨fun h => ⟨rfl, h⟩, fun h => h.2⟩
      | some e =>
          rw [boundedOutcome_io (Nat.le_of_not_lt hover)]
          exact ⟨fun h => (by cases h), fun h => (by cases h.1)⟩
  · rw [boundedOutcome_over hover]
    rfl

end Inputs

/-- An empty object, with an interruption between its braces. -/
theorem json_input_sample : ∃ enough, ∀ fuel, enough ≤ fuel →
    readJsonInput ⟨.sync, 16, fun _ => .ok ()⟩ ⟨fun _ => some ((), []), fun _ => none⟩ trickle
      (fun _ => true) 16 fuel "sync JSON" (.stdin [some (byte '\x7b'), none, some (byte '\x7d')]) =
        some (.ok ()) := by
  let input : BoundedInput Unit := ⟨.sync, 16, fun _ => .ok ()⟩
  let serde : Deserializer Unit := ⟨fun _ => some ((), []), fun _ => none⟩
  obtain ⟨enough, h⟩ := @json_input_exact _ _ _ _ _ _ _ input serde trickle_streams (by decide)
    (fun _ _ => rfl) "sync JSON" [some (byte '\x7b'), none, some (byte '\x7d')]
  refine ⟨enough, fun fuel hfuel => ?_⟩
  obtain ⟨r, hr, hvalue, -⟩ := h fuel hfuel _ (.inl rfl)
  have hparse : parseBoundedJson ⟨.sync, 16, fun _ => .ok ()⟩ ⟨fun _ => some ((), []), fun _ => none⟩
      [byte '\x7b', byte '\x7d'] = .ok () := by
    have hbraces : lexicalPreflight (fun _ => none) .sync [byte '\x7b', byte '\x7d'] = .ok () := by
      exact (lexicalPreflight_chars (.object [])).mpr ⟨_, rfl⟩
    rw [parseBoundedJson, hbraces]
    rfl
  rw [hr, (hvalue ()).mpr ⟨rfl, hparse⟩]

end Kirje
