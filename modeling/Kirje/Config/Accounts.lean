import Mathlib.Data.List.Sort
import Kirje.Core.Mail

/-
  File:      Kirje/Config/Accounts.lean
  Subject:   `TomlAccountRepository::create` by any number of processes
             (crates/kirje-runtime/src/lib.rs, crates/kirje-local-io/src/lib.rs).

  A creation reads the file and closes it, and later replaces it under a lock if
  the object at the path still has the identity it read.  The identity is a
  device and inode number, and a file system may give those of an unlinked and
  closed file to a new one; so the comparison says "the same file" of a file that
  is not.

  * **`no_lost_account`**: if no temporary file is given an identity that a
    creation in flight has read, no created account is lost.
  * `account_lost_to_reused_identity`: with one, an account is.
-/

namespace Kirje.Config

open Base

/-! ## 1. The repository -/

structure ConfigDocument where
  version : Nat
  accounts : List MailAccountConfig
  deriving DecidableEq, Repr

def configVersion : Nat := 1

def maxAccounts : Nat := 100

def maxConfigBytes : Nat := 1024 * 1024

/-- `ConfigDocument::default`. -/
def ConfigDocument.default : ConfigDocument := ⟨configVersion, []⟩

/-- `FileObjectIdentity`. -/
structure FileObjectIdentity where
  device : Nat
  inode : Nat
  deriving DecidableEq, Repr

/-- A regular file: what the path names, and its text. -/
structure ConfigFile where
  identity : FileObjectIdentity
  source : String
  deriving DecidableEq, Repr

def configReadError (message : String) : MailError := .new .configRead message false

def configWriteError : MailError := .new .configWrite "cannot write account configuration" false

section Repository

variable (env : External) (toml : Json ConfigDocument)

/-- `load_with_identity`. -/
def loadWithIdentity : Option ConfigFile → Result (ConfigDocument × Option FileObjectIdentity)
  | none => pure (ConfigDocument.default, none)
  | some file => do
      ensure (file.source.utf8ByteSize ≤ maxConfigBytes)
        (.new .resourceLimit "account configuration exceeds the 1 MiB limit" false)
      let document ← orRefuse (toml.decode file.source)
        (configReadError "account configuration is invalid TOML")
      ensure (document.version = configVersion)
        (configReadError "account configuration version is unsupported")
      ensure (document.accounts.length ≤ maxAccounts)
        (.new .resourceLimit "account configuration exceeds the 100-account limit" false)
      checkAll (MailAccountConfig.validate env) document.accounts
      pure (document, some file.identity)

/-- A document with one account more, sorted by identifier. -/
def ConfigDocument.add (document : ConfigDocument) (account : MailAccountConfig) : ConfigDocument :=
  { document with
    accounts := (document.accounts ++ [account]).insertionSort fun a b => a.id ≤ b.id }

/-- A creation after its read: what it read, and what it will write. -/
structure Pending where
  account : MailAccountConfig
  document : ConfigDocument
  identity : Option FileObjectIdentity
  serialized : String
  deriving DecidableEq, Repr

/-- `create` up to `replace_private`. -/
def prepareCreate (account : MailAccountConfig) (file : Option ConfigFile) : Result Pending := do
  account.validate env
  let (document, identity) ← loadWithIdentity env toml file
  ensure (¬document.accounts.any fun candidate => candidate.id = account.id)
    (.new .accountAlreadyExists "account id is already configured" false)
  ensure (¬document.accounts.length ≥ maxAccounts)
    (.new .resourceLimit "account configuration cannot exceed 100 accounts" false)
  let serialized ← orRefuse (toml.encode (document.add account)) configWriteError
  pure ⟨account, document, identity, serialized⟩

/-- `verify_expectation` of what was read: no file then and none now, or the same identity. -/
def verifyExpectation (identity : Option FileObjectIdentity) (file : Option ConfigFile) : Bool :=
  identity = file.map ConfigFile.identity

end Repository

/-! ## 2. Processes -/

/-- Where a process is in `create`: after its read, and inside `replace_private` with the lock,
    after the first check, with a temporary file, and after the second check. -/
inductive CreatePhase where
  | idle
  | loaded (w : Pending)
  | locked (w : Pending)
  | verified (w : Pending)
  | staged (w : Pending) (temporary : FileObjectIdentity)
  | ready (w : Pending) (temporary : FileObjectIdentity)
  deriving DecidableEq, Repr

/-- The creation a process is in. -/
def CreatePhase.pending : CreatePhase → Option Pending
  | .idle => none
  | .loaded w | .locked w | .verified w | .staged w _ | .ready w _ => some w

/-- The process holds the lock. -/
def CreatePhase.locks : CreatePhase → Bool
  | .idle | .loaded _ => false
  | _ => true

/-- The path, the other files of the device that exist or are open, the lock, the processes, and
    the accounts whose creation has returned `Ok`. -/
structure Repository where
  file : Option ConfigFile
  others : List FileObjectIdentity
  lock : Option Nat
  phase : Nat → CreatePhase
  created : List MailAccountConfig

def Repository.goto (s : Repository) (p : Nat) (ph : CreatePhase) : Repository :=
  { s with phase := fun q => if q = p then ph else s.phase q }

/-- The process leaves the call, and the lock if it holds it. -/
def Repository.leave (s : Repository) (p : Nat) : Repository :=
  { s with lock := if s.lock = some p then none else s.lock }.goto p .idle

/-- No file has the identity: one that is unlinked and closed may be given again. -/
def Repository.Free (s : Repository) (identity : FileObjectIdentity) : Prop :=
  s.file.map ConfigFile.identity ≠ some identity ∧ identity ∉ s.others

instance (s : Repository) (identity : FileObjectIdentity) : Decidable (s.Free identity) := by
  unfold Repository.Free
  infer_instance

/-- The steps of a creation.  A process may stop anywhere, with or without removing its temporary
    file; `synced` says whether the steps after the rename succeeded. -/
inductive CreateMove where
  | load (p : Nat) (account : MailAccountConfig)
  | acquire (p : Nat)
  | verify (p : Nat)
  | stage (p : Nat) (temporary : FileObjectIdentity)
  | rename (p : Nat) (synced : Bool)
  | stop (p : Nat) (removed : Bool)

/-- One step of one process. -/
def Repository.step (env : External) (toml : Json ConfigDocument) (s : Repository) :
    CreateMove → Repository
  | .load p account =>
      match s.phase p with
      | .idle =>
          match prepareCreate env toml account s.file with
          | .ok w => s.goto p (.loaded w)
          | .error _ => s
      | _ => s
  | .acquire p =>
      match s.phase p, s.lock with
      | .loaded w, none => { s with lock := some p }.goto p (.locked w)
      | _, _ => s
  | .verify p =>
      match s.phase p with
      | .locked w =>
          if verifyExpectation w.identity s.file then s.goto p (.verified w) else s.leave p
      | .staged w temporary =>
          if verifyExpectation w.identity s.file then s.goto p (.ready w temporary) else s.leave p
      | _ => s
  | .stage p temporary =>
      match s.phase p with
      | .verified w => if s.Free temporary then s.goto p (.staged w temporary) else s
      | _ => s
  | .rename p synced =>
      match s.phase p with
      | .ready w temporary =>
          { s with
            file := some ⟨temporary, w.serialized⟩
            created := if synced then w.account :: s.created else s.created }.leave p
      | _ => s
  | .stop p removed =>
      match s.phase p with
      | .staged _ temporary | .ready _ temporary =>
          { s with others := if removed then s.others else temporary :: s.others }.leave p
      | _ => s.leave p

/-- No process is in a call. -/
def Repository.Initial (s : Repository) : Prop :=
  s.lock = none ∧ (∀ p, s.phase p = .idle) ∧ s.created = []

/-- The states that moves with a property lead to. -/
def AccountRun (env : External) (toml : Json ConfigDocument) (P : Repository → CreateMove → Prop) :
    Repository → Prop :=
  Reaches Repository.Initial fun s s' => ∃ m, P s m ∧ s.step env toml m = s'

/-- A temporary file is not given an identity that a creation in flight has read. -/
def Repository.TokenFresh (s : Repository) : CreateMove → Prop
  | .stage _ temporary => ∀ q w, (s.phase q).pending = some w → w.identity ≠ some temporary
  | _ => True

/-- The document of the file, if there is one. -/
def Contains (toml : Json ConfigDocument) (document : ConfigDocument) : Option ConfigFile → Prop
  | none => document = ConfigDocument.default
  | some file => toml.decode file.source = some document

section Runs

variable {env : External} {toml : Json ConfigDocument} {s : Repository}

/-! ## 3. One step -/

/-- The creation of a process that has compared identities and holds the lock since. -/
def CreatePhase.checked : CreatePhase → Option Pending
  | .verified w | .staged w _ | .ready w _ => some w
  | _ => none

/-- The temporary file of a process. -/
def CreatePhase.temporary : CreatePhase → Option FileObjectIdentity
  | .staged _ temporary | .ready _ temporary => some temporary
  | _ => none

theorem CreatePhase.locks_of_checked {ph : CreatePhase} {w : Pending} (h : ph.checked = some w) :
    ph.locks = true := by
  cases ph <;> first | rfl | cases h

theorem CreatePhase.locks_of_temporary {ph : CreatePhase} {i : FileObjectIdentity}
    (h : ph.temporary = some i) : ph.locks = true := by
  cases ph <;> first | rfl | cases h

theorem CreatePhase.pending_of_checked {ph : CreatePhase} {w : Pending} (h : ph.checked = some w) :
    ph.pending = some w := by
  cases ph <;> first | exact h | cases h

/-- The identity of the file at the path. -/
def Repository.identity (s : Repository) : Option FileObjectIdentity :=
  s.file.map ConfigFile.identity

/-- What a creation in flight has read is what the file contains, as long as the identity is the
    same; and no temporary file has that identity. -/
structure Pends (toml : Json ConfigDocument) (s : Repository) (w : Pending) : Prop where
  serialized : toml.encode (w.document.add w.account) = some w.serialized
  token : w.identity = s.identity → Contains toml w.document s.file
  unstaged : ∀ q i, (s.phase q).temporary = some i → w.identity ≠ some i

/-- What every step keeps. -/
structure AccountInv (toml : Json ConfigDocument) (s : Repository) : Prop where
  lock : ∀ p, (s.phase p).locks = true → s.lock = some p
  pends : ∀ p w, (s.phase p).pending = some w → Pends toml s w
  checked : ∀ p w, (s.phase p).checked = some w → w.identity = s.identity
  apart : ∀ p i, (s.phase p).temporary = some i → s.identity ≠ some i
  present : ∀ a ∈ s.created, ∃ d, Contains toml d s.file ∧ a ∈ d.accounts

/-- A move of one process that leaves the file alone. -/
structure Passes (toml : Json ConfigDocument) (s : Repository) (p : Nat) (ph : CreatePhase) : Prop where
  pends : ∀ w, ph.pending = some w → Pends toml s w
  checked : ∀ w, ph.checked = some w → w.identity = s.identity
  apart : ∀ i, ph.temporary = some i → s.identity ≠ some i
  unstaged : ∀ i, ph.temporary = some i →
    ∀ q w, (q = p → ph.pending = some w) → (q ≠ p → (s.phase q).pending = some w) →
      w.identity ≠ some i

theorem AccountInv.goto (h : AccountInv toml s) {p : Nat} {ph : CreatePhase}
    (hp : Passes toml s p ph) {lock : Option Nat} (others : List FileObjectIdentity)
    (hself : ph.locks = true → lock = some p)
    (hrest : ∀ q, q ≠ p → s.lock = some q → lock = some q) :
    AccountInv toml ({ s with lock := lock, others := others }.goto p ph) := by
  have hphase : ∀ q, ({ s with lock := lock, others := others }.goto p ph).phase q =
      if q = p then ph else s.phase q := fun _ => rfl
  refine ⟨fun q hq => ?_, fun q w hq => ?_, fun q w hq => ?_, fun q i hq => ?_, h.present⟩
  all_goals rw [hphase] at hq; split at hq
  · next he => exact he ▸ hself hq
  · next hne => exact hrest q hne (h.lock q hq)
  · have hw := hp.pends w hq
    refine ⟨hw.serialized, hw.token, fun r i hr => ?_⟩
    rw [hphase] at hr
    split at hr
    · next he _ => exact hp.unstaged i hr p w (fun _ => hq) (fun hne => absurd rfl hne)
    · exact hw.unstaged r i hr
  · next hne =>
      have hw := h.pends q w hq
      refine ⟨hw.serialized, hw.token, fun r i hr => ?_⟩
      rw [hphase] at hr
      split at hr
      · exact hp.unstaged i hr q w (fun he => absurd he hne) (fun _ => hq)
      · exact hw.unstaged r i hr
  · exact hp.checked w hq
  · exact h.checked q w hq
  · exact hp.apart i hq
  · exact h.apart q i hq

theorem Passes.idle (p : Nat) : Passes toml s p .idle :=
  ⟨by simp [CreatePhase.pending], by simp [CreatePhase.checked], by simp [CreatePhase.temporary],
    by simp [CreatePhase.temporary]⟩

/-- Leaving the call. -/
theorem AccountInv.leave (h : AccountInv toml s) (p : Nat) (others : List FileObjectIdentity) :
    AccountInv toml ({ s with others := others }.leave p) := by
  refine h.goto (.idle p) others (by simp [CreatePhase.locks]) fun q hne hq => ?_
  rw [if_neg (by rw [hq]; simpa using hne)]
  exact hq

/-- What a read leaves a process with. -/
theorem prepareCreate_spec {account : MailAccountConfig} {file : Option ConfigFile} {w : Pending}
    (h : prepareCreate env toml account file = .ok w) :
    w.identity = file.map ConfigFile.identity ∧ Contains toml w.document file ∧
      toml.encode (w.document.add w.account) = some w.serialized := by
  simp only [prepareCreate, bind_ok, ensure_ok, orRefuse_ok, pure_ok] at h
  obtain ⟨_, -, ⟨document, identity⟩, hload, _, -, _, -, serialized, henc, rfl⟩ := h
  refine ⟨?_, ?_, henc⟩
  all_goals
    cases file with
    | none =>
        rw [loadWithIdentity, pure_ok, Prod.mk.injEq] at hload
        obtain ⟨rfl, rfl⟩ := hload
        rfl
    | some file =>
        simp only [loadWithIdentity, bind_ok, ensure_ok, orRefuse_ok, pure_ok, Prod.mk.injEq] at hload
        obtain ⟨_, -, _, hdec, _, -, _, -, _, -, rfl, rfl⟩ := hload
        first | rfl | exact hdec

/-- A process that goes on with the creation it is in. -/
theorem AccountInv.passes (h : AccountInv toml s) {p : Nat} {ph : CreatePhase} {w : Pending}
    (hw : (s.phase p).pending = some w) (hph : ph.pending = some w)
    (hc : ph.checked = some w → w.identity = s.identity)
    (ht : ∀ i, ph.temporary = some i → s.identity ≠ some i ∧
      ∀ q w', (s.phase q).pending = some w' → w'.identity ≠ some i) : Passes toml s p ph := by
  refine ⟨fun w' hw' => ?_, fun w' hw' => ?_, fun i hi => (ht i hi).1, fun i hi q w' hq hq' => ?_⟩
  · obtain rfl := Option.some.inj (hph.symm.trans hw')
    exact h.pends p w hw
  · obtain rfl := Option.some.inj (hph.symm.trans (CreatePhase.pending_of_checked hw'))
    exact hc hw'
  · by_cases he : q = p
    · obtain rfl := Option.some.inj (hph.symm.trans (hq he))
      exact (ht i hi).2 p w hw
    · exact (ht i hi).2 q w' (hq' he)

theorem verifyExpectation_iff {identity : Option FileObjectIdentity} :
    verifyExpectation identity s.file = true ↔ identity = s.identity := by
  simp [verifyExpectation, Repository.identity]

theorem mem_add {document : ConfigDocument} {account a : MailAccountConfig} :
    a ∈ (document.add account).accounts ↔ a ∈ document.accounts ∨ a = account := by
  simp [ConfigDocument.add, List.mem_insertionSort]

theorem Contains.unique {d d' : ConfigDocument} {file : Option ConfigFile} (h : Contains toml d file)
    (h' : Contains toml d' file) : d = d' := by
  cases file with
  | none => exact Eq.trans h (Eq.symm h')
  | some file => exact Option.some.inj (Eq.trans (Eq.symm h) h')

/-- **The rename**: the file is what the process read and its account, and no creation in flight
    expects the new identity. -/
theorem AccountInv.rename (htoml : toml.Faithful) (h : AccountInv toml s) {p : Nat} {w : Pending}
    {i : FileObjectIdentity} (hp : s.phase p = .ready w i) (synced : Bool) :
    AccountInv toml ({ s with
      file := some ⟨i, w.serialized⟩
      created := if synced then w.account :: s.created else s.created }.leave p) := by
  have hw : (s.phase p).pending = some w := by rw [hp]; rfl
  have htmp : (s.phase p).temporary = some i := by rw [hp]; rfl
  have hpends := h.pends p w hw
  have hold : Contains toml w.document s.file :=
    hpends.token (h.checked p w (by rw [hp]; rfl))
  have hnew : toml.decode w.serialized = some (w.document.add w.account) :=
    htoml _ _ hpends.serialized
  have hlock := h.lock p (by rw [hp]; rfl)
  -- Whoever is inside the lock is the process that leaves it.
  have hout : ∀ q, q ≠ p → (s.phase q).locks = true → False := fun q hne hq =>
    hne (Option.some.inj ((h.lock q hq).symm.trans hlock))
  have hphase : ∀ q, ({ s with
      file := some ⟨i, w.serialized⟩
      created := if synced then w.account :: s.created else s.created }.leave p).phase q =
      if q = p then .idle else s.phase q := fun _ => rfl
  refine ⟨fun q hq => ?_, fun q w' hq => ?_, fun q w' hq => ?_, fun q j hq => ?_, fun a ha => ?_⟩
  · rw [hphase] at hq
    split at hq
    · cases hq
    · next hne => exact (hout q hne hq).elim
  · rw [hphase] at hq
    split at hq
    · cases hq
    · have hw' := h.pends q w' hq
      refine ⟨hw'.serialized, fun he => absurd he (hw'.unstaged p i htmp), fun r j hr => ?_⟩
      rw [hphase] at hr
      split at hr
      · cases hr
      · exact hw'.unstaged r j hr
  · rw [hphase] at hq
    split at hq
    · cases hq
    · next hne => exact (hout q hne (CreatePhase.locks_of_checked hq)).elim
  · rw [hphase] at hq
    split at hq
    · cases hq
    · next hne => exact (hout q hne (CreatePhase.locks_of_temporary hq)).elim
  · refine ⟨w.document.add w.account, hnew, mem_add.mpr ?_⟩
    have hcase : a = w.account ∨ a ∈ s.created := by
      have ha' : a ∈ if synced then w.account :: s.created else s.created := ha
      split at ha'
      · exact List.mem_cons.mp ha'
      · exact Or.inr ha'
    rcases hcase with rfl | ha
    · exact Or.inr rfl
    · obtain ⟨d, hd, had⟩ := h.present a ha
      exact Or.inl (hd.unique hold ▸ had)

/-- The process of a move. -/
def CreateMove.process : CreateMove → Nat
  | .load p _ | .acquire p | .verify p | .stage p _ | .rename p _ | .stop p _ => p

/-- A move leaves the other processes where they are. -/
theorem step_phase_other {m : CreateMove} {q : Nat} (h : q ≠ m.process) :
    (s.step env toml m).phase q = s.phase q := by
  have hgoto : ∀ (s : Repository) (ph : CreatePhase), (s.goto m.process ph).phase q = s.phase q :=
    fun _ _ => if_neg h
  cases m <;> simp only [Repository.step, Repository.leave] <;> repeat' split
  all_goals first | rfl | exact hgoto _ _

/-- **Every step keeps the invariant**, where the identity of a temporary file is fresh. -/
theorem AccountInv.step (htoml : toml.Faithful) (h : AccountInv toml s) {m : CreateMove}
    (hm : s.TokenFresh m) : AccountInv toml (s.step env toml m) := by
  cases m with
  | load p account =>
      simp only [Repository.step]
      split
      · split
        · next w hload =>
            obtain ⟨hid, hc, henc⟩ := prepareCreate_spec hload
            have hpends : Pends toml s w := by
              refine ⟨henc, fun _ => hc, fun q i hq => ?_⟩
              rw [hid]
              exact h.apart q i hq
            have hpass : Passes toml s p (.loaded w) :=
              ⟨fun w' hw' => Option.some.inj hw' ▸ hpends, by simp [CreatePhase.checked],
                by simp [CreatePhase.temporary], by simp [CreatePhase.temporary]⟩
            exact h.goto hpass s.others (by simp [CreatePhase.locks]) fun _ _ hq => hq
        · exact h
      · exact h
  | acquire p =>
      simp only [Repository.step]
      split
      · next w hp hlock =>
          refine h.goto (h.passes (w := w) (by rw [hp]; rfl) rfl ?_ ?_) s.others (fun _ => rfl)
            fun q _ hq => ?_
          · simp [CreatePhase.checked]
          · simp [CreatePhase.temporary]
          · rw [hlock] at hq
            cases hq
      · exact h
  | verify p =>
      simp only [Repository.step]
      split
      · next w hp =>
          split
          · next hv =>
              refine h.goto (h.passes (w := w) (by rw [hp]; rfl) rfl ?_ ?_) s.others
                (fun _ => h.lock p (by rw [hp]; rfl)) fun _ _ hq => hq
              · exact fun _ => verifyExpectation_iff.mp hv
              · simp [CreatePhase.temporary]
          · exact h.leave p s.others
      · next w i hp =>
          split
          · next hv =>
              refine h.goto (h.passes (w := w) (by rw [hp]; rfl) rfl ?_ ?_) s.others
                (fun _ => h.lock p (by rw [hp]; rfl)) fun _ _ hq => hq
              · exact fun _ => verifyExpectation_iff.mp hv
              · intro j hj
                have htmp : (s.phase p).temporary = some j := by rw [hp]; exact hj
                exact ⟨h.apart p j htmp, fun q w' hq => (h.pends q w' hq).unstaged p j htmp⟩
          · exact h.leave p s.others
      · exact h
  | stage p i =>
      simp only [Repository.step]
      split
      · next w hp =>
          split
          · next hfree =>
              refine h.goto (h.passes (w := w) (by rw [hp]; rfl) rfl ?_ ?_) s.others
                (fun _ => h.lock p (by rw [hp]; rfl)) fun _ _ hq => hq
              · exact fun _ => h.checked p w (by rw [hp]; rfl)
              · intro j hj
                obtain rfl := Option.some.inj hj
                exact ⟨hfree.1, hm⟩
          · exact h
      · exact h
  | rename p synced =>
      simp only [Repository.step]
      split
      · next w i hp => exact h.rename htoml hp synced
      · exact h
  | stop p removed =>
      simp only [Repository.step]
      split
      · exact h.leave p _
      · exact h.leave p _
      · exact h.leave p s.others

/-! ## 4. Runs -/

/-- **No created account is lost**, in every run in which no temporary file is given an identity
    that a creation in flight has read. -/
theorem no_lost_account (htoml : toml.Faithful)
    (h : AccountRun env toml (fun s m => s.TokenFresh m) s) :
    ∀ account ∈ s.created, ∃ document, Contains toml document s.file ∧
      account ∈ document.accounts := by
  have hinv : AccountInv toml s := by
    refine Reaches.invariant (P := AccountInv toml) ?_ ?_ h
    · rintro s ⟨-, hidle, hcreated⟩
      refine ⟨fun p hp => ?_, fun p w hp => ?_, fun p w hp => ?_, fun p i hp => ?_, ?_⟩
      · rw [hidle] at hp; cases hp
      · rw [hidle] at hp; cases hp
      · rw [hidle] at hp; cases hp
      · rw [hidle] at hp; cases hp
      · rw [hcreated]
        exact fun a ha => absurd ha List.not_mem_nil
    · rintro s _ hs ⟨m, hm, rfl⟩
      exact hs.step htoml hm
  exact hinv.present

end Runs

/-! ## 5. Samples

Three accounts, the texts the real encoding gives their documents, and a file system that gives
the number of the first file to the third. -/

namespace Sample

def account (name : String) : MailAccountConfig where
  id := name
  email := name ++ "@example.org"
  username := name ++ "@example.org"
  incoming := ⟨.imap, "imap.example.org", 993, .implicitTls⟩
  outgoing := none
  credentialKind := .appPassword

def accountToml (name : String) : String :=
  "\n[[accounts]]\nid = \"" ++ name ++ "\"\nemail = \"" ++ name ++ "@example.org\"\nusername = \"" ++
  name ++ "@example.org\"\ncredential_kind = \"app_password\"\n\n[accounts.incoming]\n" ++
  "protocol = \"imap\"\nhost = \"imap.example.org\"\nport = 993\nsecurity = \"implicit_tls\"\n"

/-- The documents of the run with their texts. -/
def table : List (ConfigDocument × String) :=
  [(⟨1, []⟩, "version = 1\naccounts = []\n"),
    (⟨1, [account "ada"]⟩, "version = 1\n" ++ accountToml "ada"),
    (⟨1, [account "bob"]⟩, "version = 1\n" ++ accountToml "bob"),
    (⟨1, [account "bob", account "cyd"]⟩, "version = 1\n" ++ accountToml "bob" ++ accountToml "cyd")]

def toml : Json ConfigDocument := Json.ofTable table

theorem toml_faithful : toml.Faithful := Json.ofTable_faithful (by decide +kernel)

def env : External where
  payloadDigest _ := ""
  bytesDigest _ := ""
  timestamp _ := ""
  parseTimestamp _ := none
  parseUuid _ := false
  sendRequest := ⟨fun _ => none, fun _ => none⟩
  mailOperation := ⟨fun _ => none, fun _ => none⟩
  mailError := ⟨fun _ => none, fun _ => none⟩
  sendReceipt := ⟨fun _ => none, fun _ => none⟩
  mailReceipt := ⟨fun _ => none, fun _ => none⟩
  base64 _ := none
  utf8 _ := none
  parseIpAddr _ := false

/-- A file without accounts, on inode 10. -/
def start : Repository where
  file := some ⟨⟨1, 10⟩, "version = 1\naccounts = []\n"⟩
  others := []
  lock := none
  phase _ := .idle
  created := []

/-- The steps of a creation after its read. -/
def replace (p inode : Nat) : List CreateMove :=
  [.acquire p, .verify p, .stage p ⟨1, inode⟩, .verify p, .rename p true]

def after (moves : List CreateMove) : Repository :=
  moves.foldl (fun s m => s.step env toml m) start

theorem after_run {P : Repository → CreateMove → Prop} (moves : List CreateMove)
    (h : ∀ n m, moves[n]? = some m → P (after (moves.take n)) m) :
    AccountRun env toml P (after moves) :=
  Reaches.of_moves ⟨rfl, fun _ => rfl, rfl⟩ moves h

/-- Process 0 reads the file on inode 10; process 1 adds `bob` on inode 11; process 2 adds `cyd`,
    on inode 10 again; process 0 compares, finds what it read, and replaces both. -/
def reused : List CreateMove :=
  .load 0 (account "ada") :: .load 1 (account "bob") :: replace 1 11 ++
    .load 2 (account "cyd") :: replace 2 10 ++ replace 0 12

end Sample

/-- A creation on a new inode keeps its account. -/
theorem no_lost_account_sample_run : ∃ s,
    AccountRun Sample.env Sample.toml (fun s m => s.TokenFresh m) s ∧
      Sample.account "bob" ∈ s.created ∧ ∃ document, Contains Sample.toml document s.file ∧
        Sample.account "bob" ∈ document.accounts := by
  have hfresh : (Sample.after [.load 1 (Sample.account "bob"), .acquire 1, .verify 1]).TokenFresh
      (.stage 1 ⟨1, 11⟩) := by
    intro q w hq
    by_cases h1 : q = 1
    · subst h1
      have hread : ((Sample.after [.load 1 (Sample.account "bob"), .acquire 1, .verify 1]).phase
          1).pending.bind Pending.identity = some ⟨1, 10⟩ := by decide
      rw [hq] at hread
      rw [show w.identity = _ from hread]
      decide
    · unfold Sample.after at hq
      simp only [List.foldl_cons, List.foldl_nil] at hq
      rw [step_phase_other h1, step_phase_other h1, step_phase_other h1] at hq
      cases hq
  have hrun := Sample.after_run (P := fun s m => s.TokenFresh m)
    (.load 1 (Sample.account "bob") :: Sample.replace 1 11) fun n m hn => by
      rcases n with _ | _ | _ | _ | _ | _ | n <;> cases hn <;> first | exact hfresh | trivial
  have hcreated : Sample.account "bob" ∈
      (Sample.after (.load 1 (Sample.account "bob") :: Sample.replace 1 11)).created := by
    decide
  exact ⟨_, hrun, hcreated, no_lost_account Sample.toml_faithful hrun _ hcreated⟩

/-- **An identity given again loses an account.** -/
theorem account_lost_to_reused_identity :
    AccountRun Sample.env Sample.toml (fun _ _ => True) (Sample.after Sample.reused) ∧
      Sample.account "bob" ∈ (Sample.after Sample.reused).created ∧
      ∀ document, Contains Sample.toml document (Sample.after Sample.reused).file →
        Sample.account "bob" ∉ document.accounts := by
  have hstate : Sample.account "bob" ∈ (Sample.after Sample.reused).created ∧
      (Sample.after Sample.reused).file =
        some ⟨⟨1, 12⟩, "version = 1\n" ++ Sample.accountToml "ada"⟩ ∧
      Sample.toml.decode ("version = 1\n" ++ Sample.accountToml "ada") =
        some ⟨1, [Sample.account "ada"]⟩ := by decide +kernel
  obtain ⟨hbob, hfile, hada⟩ := hstate
  refine ⟨Sample.after_run _ fun _ _ _ => trivial, hbob, ?_⟩
  rw [hfile]
  intro document hd
  obtain rfl := Option.some.inj (hada.symm.trans hd)
  decide

end Kirje.Config
