import Kirje.Base.Rely
import Kirje.Config.Accounts
import Kirje.Local.Reading

/-
  File:      Kirje/Local/Directory.lean
  Subject:   One directory, the system calls on it, and the programs of
             crates/kirje-local-io/src/lib.rs that make them.

  Any number of calls, of this process or of others, run side by side; each system call may
  fail, a failed write may leave any part of its bytes behind, and a call may be cut off
  between any two of them.  A new file may be given the identity of one that no name and
  no reader is left of.

  * `Exec`: what the system calls do to the directory.
  * `replacePrivate`, `loadBounded`: the programs.
  * `Shelf.after`, `Chained`: what the targets go through, one replacement after another.
  * `Rely`: what a call relies on; `directory_lawful`.
-/

namespace Kirje.Local

open Base Config

/-! ## 1. The directory -/

inductive NodeKind where
  | regular | link | other
  deriving DecidableEq, Repr

/-- What a name of the directory names. -/
structure Node where
  kind : NodeKind
  identity : FileObjectIdentity
  deriving DecidableEq, Repr

/-- `REPLACE_LOCK_NAME`. -/
def replaceLockName : String := ".kirje-local-io.lock"

/-- The name of a temporary file. -/
def temporaryName (random : Bytes) : String :=
  String.ofList (".kirje-".toList ++
    random.flatMap (fun b => [hexDigit (b.toNat / 16), hexDigit (b.toNat % 16)]) ++ ".tmp".toList)

/-- A name that is not one of the boundary's own. -/
structure TargetName where
  name : String
  notLock : name ≠ replaceLockName
  notTemporary : ∀ random, name ≠ temporaryName random

theorem TargetName.ext {t t' : TargetName} (h : t.name = t'.name) : t = t' := by
  obtain ⟨name, _, _⟩ := t
  obtain ⟨name', _, _⟩ := t'
  obtain rfl : name = name' := h
  rfl

instance : DecidableEq TargetName := fun t t' =>
  decidable_of_iff (t.name = t'.name) ⟨TargetName.ext, congrArg TargetName.name⟩

theorem temporaryName_ne {name : String} (h : name.toList.getLast? ≠ some 'p') (random : Bytes) :
    name ≠ temporaryName random := by
  have htail : ".tmp".toList = ['.', 't', 'm', 'p'] := by decide
  have hname : (temporaryName random).toList = _ := String.toList_ofList
  intro he
  rw [he, hname, htail, List.getLast?_append] at h
  exact h rfl

theorem temporaryName_ne_lock (random : Bytes) : temporaryName random ≠ replaceLockName :=
  (temporaryName_ne (by decide) random).symm

/-- `ReplaceExpectation`. -/
inductive ReplaceExpectation where
  | missing
  | matching (identity : FileObjectIdentity)
  | any
  deriving DecidableEq, Repr

/-- One call of `replace_private`. -/
structure Replacement where
  target : TargetName
  expected : ReplaceExpectation
  bytes : Bytes
  deriving DecidableEq

/-- A call: a replacement, or a bounded read of a target. -/
inductive Call where
  | replace (r : Replacement)
  | load (target : TargetName) (limit : Nat)

/-- A replacement that took place, with the call that made it and its file. -/
structure Commit where
  call : Nat
  replacement : Replacement
  file : FileObjectIdentity
  deriving DecidableEq

/-- A directory: its names, the bytes of every file, who holds a lock on which file, which calls
    have which files open for reading, and the replacements so far, the newest first. -/
structure Volume where
  entries : String → Option Node
  content : FileObjectIdentity → Bytes
  holder : FileObjectIdentity → Option Nat
  opened : List (Nat × FileObjectIdentity)
  history : List Commit

/-- No name and no reader has the file: its identity may be given to a new one. -/
def Volume.Fresh (v : Volume) (i : FileObjectIdentity) : Prop :=
  (∀ name node, v.entries name = some node → node.identity ≠ i) ∧ ∀ m, (m, i) ∉ v.opened

/-- A new regular file. -/
def Volume.create (v : Volume) (name : String) (i : FileObjectIdentity) : Volume :=
  { v with
    entries := Function.update v.entries name (some ⟨.regular, i⟩)
    content := Function.update v.content i [] }

def Volume.append (v : Volume) (i : FileObjectIdentity) (bytes : Bytes) : Volume :=
  { v with content := Function.update v.content i (v.content i ++ bytes) }

/-- What a rename by a call replaces. -/
def Call.commits (n : Nat) (i : FileObjectIdentity) : Call → List Commit
  | .replace r => [⟨n, r, i⟩]
  | .load _ _ => []

def Volume.rename (v : Volume) (n : Nat) (call : Call) (source target : String) (node : Node) : Volume :=
  { v with
    entries := Function.update (Function.update v.entries target (some node)) source none
    history := call.commits n node.identity ++ v.history }

/-- A call is over: its locks are released and its files closed. -/
def Volume.leave (n : Nat) (v : Volume) : Volume :=
  { v with
    holder := fun i => if v.holder i = some n then none else v.holder i
    opened := v.opened.filter fun o => o.1 ≠ n }

/-! ## 2. The system calls -/

structure Metadata where
  isFile : Bool
  length : Nat
  deriving DecidableEq, Repr

inductive FileCommand where
  | openLock
  | openRead (name : String)
  | symlinkMetadata (name : String)
  | metadata (node : Node)
  | setPermissions (node : Node)
  | lock (node : Node)
  | entropy
  | createNew (name : String)
  | write (i : FileObjectIdentity) (bytes : Bytes)
  | syncFile (i : FileObjectIdentity)
  | rename (source target : String)
  | syncParent
  | remove (name : String)
  | read (i : FileObjectIdentity) (offset room : Nat)
  | close (i : FileObjectIdentity)

def FileCommand.Answer : FileCommand → Type
  | .openLock | .openRead _ => Node
  | .symlinkMetadata _ => NodeKind
  | .metadata _ => Metadata
  | .entropy | .read .. => Bytes
  | .createNew _ => FileObjectIdentity
  | _ => Unit

abbrev FileCommand.Reply (c : FileCommand) : Type := Except IoError c.Answer

/-- How a system call may fail: a name is reported missing only where it is. -/
def FileCommand.Fails (v : Volume) (e : IoError) : FileCommand → Prop
  | .openRead name => e = .notFound → v.entries name = none
  | .metadata _ => e ≠ .notFound
  | _ => True

/-- What a system call of call `n` does. -/
inductive Exec (n : Nat) (call : Call) : Volume → (c : FileCommand) → c.Reply → Volume → Prop where
  | failed (v) (c : FileCommand) (e : IoError) (h : c.Fails v e) : Exec n call v c (.error e) v
  | lockCreated (v) (i : FileObjectIdentity) (h : v.entries replaceLockName = none) (hi : v.Fresh i) :
      Exec n call v .openLock (.ok (⟨.regular, i⟩ : Node)) (v.create replaceLockName i)
  | lockOpened (v) (node : Node) (h : v.entries replaceLockName = some node) (hk : node.kind ≠ .link) :
      Exec n call v .openLock (.ok node) v
  | opened (v) (name : String) (node : Node) (h : v.entries name = some node) (hk : node.kind ≠ .link) :
      Exec n call v (.openRead name) (.ok node) { v with opened := (n, node.identity) :: v.opened }
  | symlinkMetadata (v) (name : String) (node : Node) (h : v.entries name = some node) :
      Exec n call v (.symlinkMetadata name) (.ok node.kind) v
  | metadata (v) (node : Node) :
      Exec n call v (.metadata node)
        (.ok (⟨node.kind = .regular, (v.content node.identity).length⟩ : Metadata)) v
  | permitted (v) (node : Node) : Exec n call v (.setPermissions node) (.ok ()) v
  | locked (v) (node : Node) (h : v.holder node.identity = none) :
      Exec n call v (.lock node) (.ok ())
        { v with holder := Function.update v.holder node.identity (some n) }
  | entropy (v) (random : Bytes) (h : random.length = 16) : Exec n call v .entropy (.ok random) v
  | created (v) (name : String) (i : FileObjectIdentity) (h : v.entries name = none) (hi : v.Fresh i) :
      Exec n call v (.createNew name) (.ok i) (v.create name i)
  | written (v) (i : FileObjectIdentity) (bytes : Bytes) :
      Exec n call v (.write i bytes) (.ok ()) (v.append i bytes)
  | torn (v) (i : FileObjectIdentity) (bytes : Bytes) (k : Nat) (e : IoError) :
      Exec n call v (.write i bytes) (.error e) (v.append i (bytes.take k))
  | synced (v) (i : FileObjectIdentity) : Exec n call v (.syncFile i) (.ok ()) v
  | renamed (v) (source target : String) (node : Node) (h : v.entries source = some node) :
      Exec n call v (.rename source target) (.ok ()) (v.rename n call source target node)
  | parentSynced (v) : Exec n call v .syncParent (.ok ()) v
  | removed (v) (name : String) :
      Exec n call v (.remove name) (.ok ())
        { v with entries := Function.update v.entries name none }
  | read (v) (i : FileObjectIdentity) (offset room : Nat) (portion : Bytes)
      (h : portion <+: (v.content i).drop offset) (hroom : portion.length ≤ room)
      (hend : portion = [] → 0 < room → (v.content i).length ≤ offset) :
      Exec n call v (.read i offset room) (.ok portion) v
  | closed (v) (i : FileObjectIdentity) :
      Exec n call v (.close i) (.ok ()) { v with opened := v.opened.erase (n, i) }

/-! ## 3. The programs -/

abbrev FileProgram (α : Type) := Program FileCommand FileCommand.Reply (Except BoundaryError α)

/-- Go on with the value of a program, or return its error. -/
def FileProgram.andThen {α β : Type} (p : FileProgram α) (f : α → FileProgram β) : FileProgram β :=
  Program.bind p fun
    | .ok a => f a
    | .error e => .done (.error e)

/-- A system call whose error is an `Io` error. -/
def io (c : FileCommand) : FileProgram c.Answer :=
  .issue c fun
    | .ok a => .done (.ok a)
    | .error e => .done (.error (.io e))

/-- `map_open_error`. -/
def mapOpenError {α : Type} (name : String) (e : IoError) : FileProgram α :=
  .issue (.symlinkMetadata name) fun
    | .ok .link => .done (.error .linkRejected)
    | .ok .other => .done (.error .notRegularFile)
    | .ok .regular | .error _ => .done (.error (.io e))

/-- The file goes out of scope. -/
def closing {α : Type} (i : FileObjectIdentity) (r : Except BoundaryError α) : FileProgram α :=
  .issue (.close i) fun _ => .done r

/-- `OpenedRegularFile`. -/
structure OpenedRegularFile where
  identity : FileObjectIdentity
  length : Nat
  deriving DecidableEq, Repr

/-- `opened_regular`. -/
def openedRegular (node : Node) : FileProgram OpenedRegularFile :=
  .issue (.metadata node) fun
    | .ok metadata =>
        if metadata.isFile then .done (.ok ⟨node.identity, metadata.length⟩)
        else closing node.identity (.error .notRegularFile)
    | .error e => closing node.identity (.error (.io e))

/-- `open_existing_regular`. -/
def openExistingRegular (name : String) : FileProgram OpenedRegularFile :=
  .issue (.openRead name) fun
    | .ok node => openedRegular node
    | .error e => mapOpenError name e

/-- The arms of `verify_expectation` on what was opened. -/
def compareExpectation (expected : ReplaceExpectation) :
    Except BoundaryError OpenedRegularFile → Except BoundaryError Unit
  | .ok opened =>
      match expected with
      | .missing => .error .identityMismatch
      | .matching identity => if identity ≠ opened.identity then .error .identityMismatch else .ok ()
      | .any => .ok ()
  | .error (.io .notFound) =>
      match expected with
      | .missing | .any => .ok ()
      | .matching _ => .error .identityMismatch
  | .error e => .error e

/-- `verify_expectation`. -/
def verifyExpectation (name : String) (expected : ReplaceExpectation) : FileProgram Unit :=
  Program.bind (openExistingRegular name) fun
    | .ok opened => closing opened.identity (compareExpectation expected (.ok opened))
    | .error e => .done (compareExpectation expected (.error e))

/-- `create_private_temporary`, with the attempts that are left. -/
def createPrivateTemporary : Nat → FileProgram (String × FileObjectIdentity)
  | 0 => .done (.error (.io .alreadyExists))
  | attempts + 1 =>
      .issue .entropy fun
        | .error _ => .done (.error (.io .other))
        | .ok random =>
            .issue (.createNew (temporaryName random)) fun
              | .ok i => .done (.ok (temporaryName random, i))
              | .error .alreadyExists => createPrivateTemporary attempts
              | .error e => .done (.error (.io e))

/-- `acquire_replace_lock`. -/
def acquireReplaceLock : FileProgram Unit :=
  .issue .openLock fun
    | .error e => mapOpenError replaceLockName e
    | .ok node =>
        FileProgram.andThen (io (.metadata node)) fun metadata =>
          if metadata.isFile then
            FileProgram.andThen (io (.setPermissions node)) fun _ => io (.lock node)
          else .done (.error .notRegularFile)

/-- The closure of `replace_private_inner`. -/
def replaceStaged (r : Replacement) (temporary : String) (i : FileObjectIdentity) :
    FileProgram FileObjectIdentity :=
  FileProgram.andThen (io (.write i r.bytes)) fun _ =>
  FileProgram.andThen (io (.syncFile i)) fun _ =>
  FileProgram.andThen (verifyExpectation r.target.name r.expected) fun _ =>
  FileProgram.andThen (io (.rename temporary r.target.name)) fun _ =>
  FileProgram.andThen (io .syncParent) fun _ =>
  FileProgram.andThen (openExistingRegular r.target.name) fun opened =>
  closing opened.identity (.ok opened.identity)

/-- `replace_private`. -/
def replacePrivate (r : Replacement) : FileProgram FileObjectIdentity :=
  FileProgram.andThen acquireReplaceLock fun _ =>
  FileProgram.andThen (verifyExpectation r.target.name r.expected) fun _ =>
  FileProgram.andThen (createPrivateTemporary 16) fun staged =>
  Program.bind (replaceStaged r staged.1 staged.2) fun
    | .ok i => .done (.ok i)
    | .error e => .issue (.remove staged.1) fun _ => .done (.error e)

/-- The loop of `read_stream_bounded` on an open file, with the bytes it may still ask for. -/
def readRemaining (i : FileObjectIdentity) (limit remaining : Nat) (output : Bytes) :
    FileProgram Bytes :=
  if remaining = 0 then .done (.error (.resourceLimit limit))
  else
    .issue (.read i output.length (min remaining readChunk)) fun
      | .error e => .done (.error (.io e))
      | .ok [] => .done (.ok output)
      | .ok (b :: bytes) =>
          if limit < (output ++ b :: bytes).length then .done (.error (.resourceLimit limit))
          else readRemaining i limit (remaining - (b :: bytes).length) (output ++ b :: bytes)
termination_by remaining
decreasing_by
  rw [List.length_cons]
  omega

/-- `read_bounded`. -/
def readOpened (opened : OpenedRegularFile) (limit : Nat) : FileProgram Bytes :=
  if limit < opened.length then .done (.error (.resourceLimit limit))
  else readRemaining opened.identity limit (probeLimit limit) []

/-- `open_existing_regular` and `read_bounded`, as the configuration and the inputs are read. -/
def loadBounded (target : TargetName) (limit : Nat) : FileProgram (FileObjectIdentity × Bytes) :=
  FileProgram.andThen (openExistingRegular target.name) fun opened =>
  FileProgram.andThen (readOpened opened limit) fun bytes => .done (.ok (opened.identity, bytes))

inductive CallResult where
  | replaced (i : FileObjectIdentity)
  | loaded (i : FileObjectIdentity) (bytes : Bytes)
  deriving DecidableEq, Repr

/-- The program of a call. -/
def Call.body : Call → FileProgram CallResult
  | .replace r => FileProgram.andThen (replacePrivate r) fun i => .done (.ok (.replaced i))
  | .load target limit =>
      FileProgram.andThen (loadBounded target limit) fun read => .done (.ok (.loaded read.1 read.2))

/-! ## 4. Replacements one after another -/

/-- A file as a reader gets it. -/
structure Version where
  kind : NodeKind
  identity : FileObjectIdentity
  content : Bytes
  deriving DecidableEq, Repr

/-- The targets of a directory. -/
abbrev Shelf := TargetName → Option Version

def Commit.version (c : Commit) : Version := ⟨.regular, c.file, c.replacement.bytes⟩

/-- The targets after a history of replacements. -/
def Shelf.after (start : Shelf) : List Commit → Shelf
  | [] => start
  | c :: history => Function.update (start.after history) c.replacement.target (some c.version)

/-- The expectation holds of what the target names. -/
def ReplaceExpectation.Admits : ReplaceExpectation → Option Version → Prop
  | .missing, found => found = none
  | .matching i, found => ∃ w, found = some w ∧ w.kind = .regular ∧ w.identity = i
  | .any, found => ∀ w, found = some w → w.kind = .regular

/-- **Each replacement was made where its expectation held.** -/
def Chained (start : Shelf) : List Commit → Prop
  | [] => True
  | c :: history =>
      c.replacement.expected.Admits (start.after history c.replacement.target) ∧ Chained start history

section Histories

variable {start : Shelf} {t : TargetName}

theorem after_cons_of_ne {c : Commit} {history : List Commit} (h : c.replacement.target ≠ t) :
    start.after (c :: history) t = start.after history t :=
  Function.update_of_ne (Ne.symm h) _ _

theorem Chained.of_append {newer earlier : List Commit} (h : Chained start (newer ++ earlier)) :
    Chained start earlier := by
  induction newer with
  | nil => exact h
  | cons c newer ih => exact ih h.2

/-- A target that was replaced is what its newest replacement made of it. -/
theorem after_newest {newer : List Commit} (earlier : List Commit)
    (h : ∃ c ∈ newer, c.replacement.target = t) :
    ∃ c ∈ newer, c.replacement.target = t ∧ start.after (newer ++ earlier) t = some c.version := by
  induction newer with
  | nil => obtain ⟨c, hc, -⟩ := h; cases hc
  | cons c newer ih =>
      by_cases ht : c.replacement.target = t
      · exact ⟨c, List.mem_cons_self, ht, ht ▸ Function.update_self ..⟩
      · obtain ⟨c', hc', ht'⟩ := h
        have hmem := (List.mem_cons.mp hc').resolve_left fun he => ht (he ▸ ht')
        obtain ⟨c'', hc'', ht'', hafter⟩ := ih ⟨c', hmem, ht'⟩
        exact ⟨c'', .tail _ hc'', ht'', (after_cons_of_ne ht).trans hafter⟩

/-- **A target is created once**: after a replacement nothing finds it missing. -/
theorem Chained.created_once {newer earlier : List Commit} {c c' : Commit}
    (h : Chained start (c' :: newer ++ c :: earlier))
    (ht : c.replacement.target = c'.replacement.target) : c'.replacement.expected ≠ .missing := by
  intro hmissing
  have hnewer : newer ++ c :: earlier = newer ++ [c] ++ earlier := by simp
  obtain ⟨c'', -, -, hafter⟩ := @after_newest start c'.replacement.target (newer ++ [c]) earlier
    ⟨c, List.mem_append_right _ (List.mem_singleton_self c), ht⟩
  have hadmits : start.after (newer ++ c :: earlier) c'.replacement.target = none := by
    have h' := h.1
    rw [hmissing] at h'
    exact h'
  rw [hnewer, hafter] at hadmits
  cases hadmits

/-- **One of several calls that expect the same file wins**, unless its identity is given again. -/
theorem Chained.one_winner {newer earlier : List Commit} {c c' : Commit} {i : FileObjectIdentity}
    (h : Chained start (c' :: newer ++ c :: earlier))
    (ht : c.replacement.target = c'.replacement.target) (hc' : c'.replacement.expected = .matching i) :
    ∃ again ∈ newer ++ [c], again.replacement.target = c.replacement.target ∧ again.file = i := by
  have hnewer : newer ++ c :: earlier = newer ++ [c] ++ earlier := by simp
  obtain ⟨again, hmem, htarget, hafter⟩ := @after_newest start c'.replacement.target (newer ++ [c]) earlier
    ⟨c, List.mem_append_right _ (List.mem_singleton_self c), ht⟩
  obtain ⟨w, hw, -, hi⟩ : ReplaceExpectation.Admits (.matching i)
      (start.after (newer ++ c :: earlier) c'.replacement.target) := hc' ▸ h.1
  rw [hnewer, hafter] at hw
  obtain rfl := Option.some.inj hw
  exact ⟨again, hmem, htarget.trans ht.symm, hi⟩

end Histories

def Volume.shelf (v : Volume) : Shelf := fun t =>
  (v.entries t.name).map fun node => ⟨node.kind, node.identity, v.content node.identity⟩

/-- **The directory shows what its replacements made of it**, and each call made one at most. -/
structure Shows (start : Shelf) (v : Volume) : Prop where
  shelf : v.shelf = start.after v.history
  chained : Chained start v.history
  once : (v.history.map Commit.call).Nodup

/-! ## 5. What a call relies on -/

/-- The call holds the lock. -/
def Volume.HeldBy (v : Volume) (n : Nat) : Prop :=
  ∃ node, v.entries replaceLockName = some node ∧ v.holder node.identity = some n

theorem Volume.HeldBy.unique {v : Volume} {n m : Nat} (hn : v.HeldBy n) (hm : v.HeldBy m) : n = m := by
  obtain ⟨node, hnode, hn⟩ := hn
  obtain ⟨node', hnode', hm⟩ := hm
  obtain rfl := Option.some.inj (hnode.symm.trans hnode')
  exact Option.some.inj (hn.symm.trans hm)

/-- A target names the file. -/
def Volume.Named (v : Volume) (i : FileObjectIdentity) : Prop :=
  ∃ (t : TargetName) (node : Node), v.entries t.name = some node ∧ node.identity = i

/-- **What call `n` relies on**: the lock file stays; while `n` holds the lock nothing changes but
    that others open targets; the files `n` has open stay as they are; others replace in their own
    name. -/
structure Rely (n : Nat) (v v' : Volume) : Prop where
  lockEntry : ∀ node, v.entries replaceLockName = some node → v'.entries replaceLockName = some node
  held : v.HeldBy n → v'.HeldBy n ∧ v'.entries = v.entries ∧ v'.content = v.content ∧
    v'.history = v.history
  readers : v.HeldBy n → ∀ m i, m ≠ n → (m, i) ∈ v'.opened → (m, i) ∈ v.opened ∨ v.Named i
  own : ∀ i, (n, i) ∈ v.opened → (n, i) ∈ v'.opened ∧ v'.content i = v.content i
  history : ∃ newer, v'.history = newer ++ v.history ∧ ∀ c ∈ newer, c.call ≠ n

theorem Rely.refl (n : Nat) (v : Volume) : Rely n v v where
  lockEntry _ h := h
  held h := ⟨h, rfl, rfl, rfl⟩
  readers _ _ _ _ h := .inl h
  own _ h := ⟨h, rfl⟩
  history := ⟨[], rfl, fun _ h => by cases h⟩

theorem Rely.trans {n : Nat} {v v' v'' : Volume} (h : Rely n v v') (h' : Rely n v' v'') : Rely n v v'' where
  lockEntry node hn := h'.lockEntry node (h.lockEntry node hn)
  held hn := by
    obtain ⟨hn', he, hc, hh⟩ := h.held hn
    obtain ⟨hn'', he', hc', hh'⟩ := h'.held hn'
    exact ⟨hn'', he'.trans he, hc'.trans hc, hh'.trans hh⟩
  readers hn m i hm hi := by
    obtain ⟨hn', he, -, -⟩ := h.held hn
    rcases h'.readers hn' m i hm hi with hi | ⟨t, node, ht, hi⟩
    · exact h.readers hn m i hm hi
    · exact .inr ⟨t, node, he ▸ ht, hi⟩
  own i hi := by
    obtain ⟨hi', hc⟩ := h.own i hi
    obtain ⟨hi'', hc'⟩ := h'.own i hi'
    exact ⟨hi'', hc'.trans hc⟩
  history := by
    obtain ⟨newer, hh, hnew⟩ := h.history
    obtain ⟨newer', hh', hnew'⟩ := h'.history
    refine ⟨newer' ++ newer, by rw [hh', hh, List.append_assoc], fun c hc => ?_⟩
    rcases List.mem_append.mp hc with hc | hc
    · exact hnew' c hc
    · exact hnew c hc

/-- The calls on a directory that showed `start`. -/
def directory (start : Shelf) : Sharing FileCommand FileCommand.Reply Volume Call where
  exec := Exec
  leave := Volume.leave
  rely := Rely
  inv := Shows start

theorem directory_lawful (start : Shelf) : (directory start).Lawful where
  refl := Rely.refl
  trans _ _ _ _ := Rely.trans
  leave n m v hm := {
    lockEntry := fun _ h => h
    held := by
      intro h
      refine ⟨?_, rfl, rfl, rfl⟩
      obtain ⟨node, hnode, hheld⟩ := h
      refine ⟨node, hnode, ?_⟩
      have hne : v.holder node.identity ≠ some n := by
        rw [hheld]
        exact fun he => hm (Option.some.inj he)
      exact (if_neg hne).trans hheld
    readers := fun _ _ _ _ hi => .inl (List.mem_of_mem_filter hi)
    own := fun i hi => ⟨List.mem_filter.mpr ⟨hi, by simpa using hm⟩, rfl⟩
    history := ⟨[], rfl, fun _ h => by cases h⟩ }
  inv_leave _ _ h := ⟨h.shelf, h.chained, h.once⟩

/-! ## 6. Steps the others expect -/

section Steps

variable {start : Shelf} {n : Nat} {call : Call} {v v' : Volume}

/-- System calls that change nothing but what the call itself has open. -/
def FileCommand.Quiet : FileCommand → Prop
  | .openLock | .lock _ | .createNew _ | .write .. | .rename .. | .remove _ => False
  | .openRead name => ∃ t : TargetName, t.name = name
  | _ => True

structure Reopens (n : Nat) (v v' : Volume) : Prop where
  entries : v'.entries = v.entries
  content : v'.content = v.content
  holder : v'.holder = v.holder
  history : v'.history = v.history
  others : ∀ m i, m ≠ n → ((m, i) ∈ v'.opened ↔ (m, i) ∈ v.opened)
  named : ∀ i, (n, i) ∈ v'.opened → (n, i) ∈ v.opened ∨ v.Named i

theorem Reopens.refl (n : Nat) (v : Volume) : Reopens n v v :=
  ⟨rfl, rfl, rfl, rfl, fun _ _ _ => Iff.rfl, fun _ h => .inl h⟩

theorem Exec.reopens {c : FileCommand} {r : c.Reply} (h : Exec n call v c r v') (hc : c.Quiet) :
    Reopens n v v' := by
  cases h with
  | opened name node h hk =>
      refine ⟨rfl, rfl, rfl, rfl, fun m i hm => ?_, fun i hi => ?_⟩
      · refine ⟨fun hi => (List.mem_cons.mp hi).resolve_left fun he => ?_, fun hi => .tail _ hi⟩
        exact hm (congrArg Prod.fst he)
      · rcases List.mem_cons.mp hi with he | hi
        · obtain ⟨t, rfl⟩ := hc
          exact .inr ⟨t, node, h, (congrArg Prod.snd he).symm⟩
        · exact .inl hi
  | closed i =>
      refine ⟨rfl, rfl, rfl, rfl, fun m i' hm => ?_, fun i' hi => .inl (List.mem_of_mem_erase hi)⟩
      exact List.mem_erase_of_ne fun he => hm (congrArg Prod.fst he)
  | lockCreated | lockOpened | locked | created | written | torn | renamed | removed => exact hc.elim
  | _ => exact .refl n v

theorem Shows.of_eq (h : Shows start v) (hs : v'.shelf = v.shelf) (hh : v'.history = v.history) :
    Shows start v' := by
  refine ⟨?_, ?_, ?_⟩
  · rw [hs, hh]
    exact h.shelf
  · rw [hh]
    exact h.chained
  · rw [hh]
    exact h.once

theorem shelf_eq (he : ∀ t : TargetName, v'.entries t.name = v.entries t.name)
    (hc : ∀ (t : TargetName) node, v.entries t.name = some node →
      v'.content node.identity = v.content node.identity) : v'.shelf = v.shelf := by
  funext t
  rw [Volume.shelf, Volume.shelf, he]
  cases hn : v.entries t.name with
  | none => rfl
  | some node => simp only [Option.map_some, hc t node hn]

theorem Reopens.allowed (h : Reopens n v v') (hv : Shows start v) : (directory start).Allowed n v v' where
  rely m hm := {
    lockEntry := fun node hn => h.entries ▸ hn
    held := by
      intro hheld
      obtain ⟨node, hnode, hh⟩ := hheld
      exact ⟨⟨node, h.entries ▸ hnode, h.holder ▸ hh⟩, h.entries, h.content, h.history⟩
    readers := by
      intro _ k i _ hi
      by_cases hk : k = n
      · subst hk
        exact h.named i hi
      · exact .inl ((h.others k i hk).mp hi)
    own := fun i hi => ⟨(h.others m i hm).mpr hi, congrFun h.content i⟩
    history := ⟨[], h.history, fun _ hc => by cases hc⟩ }
  inv := by
    refine hv.of_eq (shelf_eq (fun t => ?_) fun t node _ => ?_) h.history
    · rw [h.entries]
    · rw [h.content]

/-- A step of the call that holds the lock: what others have open stays. -/
theorem allowed_of_held (hheld : v.HeldBy n)
    (hlock : v'.entries replaceLockName = v.entries replaceLockName)
    (hopened : v'.opened = v.opened)
    (hothers : ∀ m i, m ≠ n → (m, i) ∈ v.opened → v'.content i = v.content i)
    (hhistory : ∃ newer, v'.history = newer ++ v.history ∧ ∀ c ∈ newer, c.call = n)
    (hv : Shows start v') : (directory start).Allowed n v v' where
  rely m hm := {
    lockEntry := fun node hn => hlock ▸ hn
    held := fun hm' => absurd (hm'.unique hheld) hm
    readers := fun hm' => absurd (hm'.unique hheld) hm
    own := fun i hi => ⟨hopened ▸ hi, hothers m i hm hi⟩
    history := by
      obtain ⟨newer, hh, hn⟩ := hhistory
      exact ⟨newer, hh, fun c hc he => hm (he.symm.trans (hn c hc))⟩ }
  inv := hv

/-- A new lock file. -/
theorem allowed_lockCreated {i : FileObjectIdentity} (h : v.entries replaceLockName = none)
    (hi : v.Fresh i) (hv : Shows start v) :
    (directory start).Allowed n v (v.create replaceLockName i) where
  rely m _ := by
    have hnobody : ¬v.HeldBy m := by
      intro hheld
      obtain ⟨node, hnode, -⟩ := hheld
      rw [h] at hnode
      cases hnode
    refine ⟨fun node hn => ?_, fun hm => absurd hm hnobody, fun hm => absurd hm hnobody,
      fun j hj => ⟨hj, ?_⟩, [], rfl, fun _ hc => by cases hc⟩
    · rw [h] at hn
      cases hn
    · have hne : j ≠ i := fun he => hi.2 m (by rwa [he] at hj)
      exact Function.update_of_ne hne _ _
  inv := by
    refine hv.of_eq (shelf_eq (fun t => ?_) fun t node hn => ?_) rfl
    · exact Function.update_of_ne t.notLock _ _
    · exact Function.update_of_ne (hi.1 _ _ hn) _ _

/-- The lock is granted to nobody else. -/
theorem allowed_locked {node : Node} (hnode : v.entries replaceLockName = some node)
    (h : v.holder node.identity = none) (hv : Shows start v) :
    (directory start).Allowed n v
      { v with holder := Function.update v.holder node.identity (some n) } where
  rely m _ := by
    have hnobody : ¬v.HeldBy m := by
      intro hheld
      obtain ⟨node', hnode', hm⟩ := hheld
      obtain rfl := Option.some.inj (hnode.symm.trans hnode')
      rw [h] at hm
      cases hm
    exact ⟨fun _ hn => hn, fun hm => absurd hm hnobody, fun hm => absurd hm hnobody,
      fun _ hi => ⟨hi, rfl⟩, [], rfl, fun _ hc => by cases hc⟩
  inv := ⟨hv.shelf, hv.chained, hv.once⟩

end Steps

end Kirje.Local
