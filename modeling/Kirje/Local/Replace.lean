import Kirje.Local.Directory

/-
  File:      Kirje/Local/Replace.lean
  Subject:   Private files, their replacement and their reading, in any interleaving
             (crates/kirje-local-io/src/lib.rs).

  * `does_replacePrivate`, `does_loadBounded`: what a replacement and a read do, whatever
    the others do meanwhile.
  * **`replacement_atomic`**: the directory goes through a sequence of whole replacements,
    each made where its expectation held; a call that returned `Ok` made exactly one, one that
    reports a conflict made none, and every read returns one version in full.
-/

namespace Kirje.Local

open Base Config

/-! ## 1. What a call knows -/

section Knowledge

variable {start : Shelf} {n : Nat} {v v' : Volume}

/-- The call has replaced nothing. -/
def Uncommitted (n : Nat) (v : Volume) : Prop := ∀ c ∈ v.history, c.call ≠ n

/-- What neither the others nor the quiet steps of the call take away. -/
structure Steady (n : Nat) (P : Volume → Prop) : Prop where
  rely : ∀ v v', P v → Rely n v v' → P v'
  reopens : ∀ v v', P v → Reopens n v v' → P v'

theorem Uncommitted.steady (n : Nat) : Steady n (Uncommitted n) where
  rely v v' h hr := by
    obtain ⟨newer, hh, hn⟩ := hr.history
    intro c hc
    rw [hh] at hc
    rcases List.mem_append.mp hc with hc | hc
    · exact hn c hc
    · exact h c hc
  reopens v v' h hr c hc := h c (hr.history ▸ hc)

theorem Volume.HeldBy.reopens (h : v.HeldBy n) (hr : Reopens n v v') : v'.HeldBy n := by
  obtain ⟨node, hnode, hh⟩ := h
  exact ⟨node, hr.entries ▸ hnode, hr.holder ▸ hh⟩

/-- The call holds the lock and has replaced nothing. -/
structure Locked (n : Nat) (v : Volume) : Prop where
  held : v.HeldBy n
  uncommitted : Uncommitted n v

theorem Locked.steady (n : Nat) : Steady n (Locked n) where
  rely v v' h hr := ⟨(hr.held h.held).1, (Uncommitted.steady n).rely v v' h.uncommitted hr⟩
  reopens v v' h hr := ⟨h.held.reopens hr, (Uncommitted.steady n).reopens v v' h.uncommitted hr⟩

/-- The call has a temporary file of its own, which nobody else knows. -/
structure Staged (n : Nat) (temporary : String) (i : FileObjectIdentity) (bytes : Bytes) (v : Volume) :
    Prop extends Locked n v where
  isTemporary : ∃ random, temporary = temporaryName random
  entry : v.entries temporary = some ⟨.regular, i⟩
  only : ∀ name node, v.entries name = some node → node.identity = i → name = temporary
  content : v.content i = bytes
  unread : ∀ m, m ≠ n → (m, i) ∉ v.opened

theorem Staged.unnamed {temporary : String} {i : FileObjectIdentity} {bytes : Bytes}
    (h : Staged n temporary i bytes v) : ¬v.Named i := by
  intro hnamed
  obtain ⟨t, node, ht, hi⟩ := hnamed
  obtain ⟨random, hrandom⟩ := h.isTemporary
  exact t.notTemporary random ((h.only _ _ ht hi).trans hrandom)

theorem Staged.steady (n : Nat) (temporary : String) (i : FileObjectIdentity) (bytes : Bytes) :
    Steady n (Staged n temporary i bytes) where
  rely v v' h hr := by
    obtain ⟨-, he, hc, -⟩ := hr.held h.held
    refine ⟨(Locked.steady n).rely v v' h.toLocked hr, h.isTemporary, he ▸ h.entry, he ▸ h.only,
      hc ▸ h.content, fun m hm hi => ?_⟩
    rcases hr.readers h.held m i hm hi with hi | hi
    · exact h.unread m hm hi
    · exact h.unnamed hi
  reopens v v' h hr :=
    ⟨(Locked.steady n).reopens v v' h.toLocked hr, h.isTemporary, hr.entries ▸ h.entry,
      hr.entries ▸ h.only, hr.content ▸ h.content, fun m hm hi => h.unread m hm ((hr.others m i hm).mp hi)⟩

/-- The call has put its file in place. -/
structure Committed (n : Nat) (r : Replacement) (i : FileObjectIdentity) (v : Volume) : Prop where
  held : v.HeldBy n
  entry : v.entries r.target.name = some ⟨.regular, i⟩
  mem : ⟨n, r, i⟩ ∈ v.history

theorem Committed.steady (n : Nat) (r : Replacement) (i : FileObjectIdentity) :
    Steady n (Committed n r i) where
  rely v v' h hr := by
    obtain ⟨hheld, he, -, hh⟩ := hr.held h.held
    exact ⟨hheld, he ▸ h.entry, hh ▸ h.mem⟩
  reopens v v' h hr := ⟨h.held.reopens hr, hr.entries ▸ h.entry, hr.history ▸ h.mem⟩

/-- The holder of the lock knows what a name names. -/
theorem Steady.and_entry {P : Volume → Prop} (h : Steady n P) (hheld : ∀ v, P v → v.HeldBy n)
    (name : String) (entry : Option Node) : Steady n fun v => P v ∧ v.entries name = entry where
  rely v v' hv hr := ⟨h.rely v v' hv.1 hr, by rw [(hr.held (hheld v hv.1)).2.1]; exact hv.2⟩
  reopens v v' hv hr := ⟨h.reopens v v' hv.1 hr, by rw [hr.entries]; exact hv.2⟩

end Knowledge

/-! ## 2. The parts of a replacement -/

section Parts

variable {start : Shelf} {n : Nat} {call : Call} {P : Volume → Prop}

theorem does_value {α : Type} (hP : Steady n P) {a : α} {post : Volume → α → Prop}
    (h : ∀ v, P v → post v a) :
    (directory start).Does n call P (.done a : Program FileCommand FileCommand.Reply α) post :=
  fun v hv v' hr _ => h v' (hP.rely v v' hv hr)

/-- A quiet step keeps what the call knows; `mid` is what it learns from the reply. -/
theorem does_quiet {α : Type} (hP : Steady n P) {c : FileCommand} (hc : c.Quiet) (mid : c.Reply → Prop)
    {k : c.Reply → Program FileCommand FileCommand.Reply α} {post : Volume → α → Prop}
    (hmid : ∀ v r v', P v → Exec n call v c r v' → mid r)
    (hk : ∀ r, mid r → (directory start).Does n call P (k r) post) :
    (directory start).Does n call P (.issue c k) post := by
  refine Sharing.Does.issue (fun r v => P v ∧ mid r) hP.rely (fun v r v' hv hinv he => ?_) fun r v hv => ?_
  · have hre := Exec.reopens he hc
    exact ⟨hre.allowed hinv, hP.reopens v v' hv hre, hmid v r v' hv he⟩
  · exact hk r hv.2 v hv.1

theorem does_io (hP : Steady n P) {c : FileCommand} (hc : c.Quiet) :
    (directory start).Does n call P (io c) fun v r => P v ∧ ∀ err, r = .error err → ∃ e, err = .io e := by
  refine does_quiet hP hc (fun _ => True) (fun _ _ _ _ _ => trivial) fun r _ => ?_
  rcases r with e | a
  · exact does_value hP fun v hv => ⟨hv, fun err herr => ⟨e, (Except.error.inj herr).symm⟩⟩
  · exact does_value hP fun v hv => ⟨hv, fun _ herr => by cases herr⟩

theorem does_closing {α : Type} (hP : Steady n P) (i : FileObjectIdentity) (r : Except BoundaryError α) :
    (directory start).Does n call P (closing i r) fun v r' => P v ∧ r' = r :=
  does_quiet hP (c := .close i) trivial (fun _ => True) (fun _ _ _ _ _ => trivial) fun _ _ =>
    does_value hP fun _ hv => ⟨hv, rfl⟩

/-- The errors of an opening, where the name is known to name `entry`. -/
def Refuses (entry : Option Node) : BoundaryError → Prop
  | .linkRejected => ∃ i, entry = some ⟨.link, i⟩
  | .notRegularFile => ∃ i, entry = some ⟨.other, i⟩
  | .io e => e = .notFound → entry = none
  | _ => False

/-- What an opening finds. -/
def Finds (entry : Option Node) : Except BoundaryError OpenedRegularFile → Prop
  | .ok opened => entry = some ⟨.regular, opened.identity⟩
  | .error err => Refuses entry err

theorem Exec.symlinkMetadata_ok {name : String} {kind : NodeKind} {v v' : Volume}
    (h : Exec n call v (.symlinkMetadata name) (.ok kind) v') : ∃ i, v.entries name = some ⟨kind, i⟩ := by
  cases h with
  | symlinkMetadata _ node h => exact ⟨node.identity, h⟩

theorem Exec.metadata_ok {node : Node} {found : Metadata} {v v' : Volume}
    (h : Exec n call v (.metadata node) (.ok found) v') :
    found.isFile = decide (node.kind = .regular) ∧ found.length = (v.content node.identity).length ∧
      v' = v := by
  cases h
  exact ⟨rfl, rfl, rfl⟩

theorem Exec.metadata_error {node : Node} {e : IoError} {v v' : Volume}
    (h : Exec n call v (.metadata node) (.error e) v') : e ≠ .notFound := by
  cases h with
  | failed _ _ h => exact h

theorem Exec.openRead_ok {name : String} {node : Node} {v v' : Volume}
    (h : Exec n call v (.openRead name) (.ok node) v') : v.entries name = some node := by
  cases h with
  | opened _ _ h hk => exact h

theorem Exec.openRead_error {name : String} {e : IoError} {v v' : Volume}
    (h : Exec n call v (.openRead name) (.error e) v') : e = .notFound → v.entries name = none := by
  cases h with
  | failed _ _ h => exact h

theorem does_mapOpenError {α : Type} (hP : Steady n P) {name : String} {entry : Option Node} {e : IoError}
    (hentry : ∀ v, P v → v.entries name = entry) (he : e = .notFound → entry = none) :
    (directory start).Does n call P (mapOpenError name e : FileProgram α) fun v r =>
      P v ∧ ∃ err, r = .error err ∧ Refuses entry err := by
  refine does_quiet hP (c := .symlinkMetadata name) trivial
    (fun r => ∀ kind, r = .ok kind → ∃ i, entry = some ⟨kind, i⟩) (fun v r v' hv hx kind hr => ?_)
    fun r hr => ?_
  · subst hr
    exact hentry v hv ▸ hx.symlinkMetadata_ok
  · rcases r with e' | kind
    · exact does_value hP fun v hv => ⟨hv, _, rfl, he⟩
    · cases kind with
      | regular => exact does_value hP fun v hv => ⟨hv, _, rfl, he⟩
      | link => exact does_value hP fun v hv => ⟨hv, _, rfl, hr _ rfl⟩
      | other => exact does_value hP fun v hv => ⟨hv, _, rfl, hr _ rfl⟩

theorem does_openedRegular (hP : Steady n P) {node : Node} (hlink : node.kind ≠ .link) :
    (directory start).Does n call P (openedRegular node) fun v r => P v ∧ Finds (some node) r := by
  refine does_quiet hP (c := .metadata node) trivial
    (fun r => (∀ found, r = .ok found → found.isFile = decide (node.kind = .regular)) ∧
      ∀ e, r = .error e → e ≠ .notFound) (fun v r v' hv hx => ⟨fun found hr => ?_, fun e hr => ?_⟩)
    fun r hr => ?_
  · subst hr
    exact hx.metadata_ok.1
  · subst hr
    exact hx.metadata_error
  · rcases r with e | found
    · refine (does_closing hP node.identity _).mono (fun _ h => h) fun v r' hr' => ⟨hr'.1, ?_⟩
      rw [hr'.2]
      exact fun he => absurd he (hr.2 e rfl)
    · have hfile := hr.1 found rfl
      dsimp only
      split
      · next hyes =>
          have hkind : node.kind = .regular := of_decide_eq_true (hfile.symm.trans hyes)
          exact does_value hP fun v hv => ⟨hv, by rw [Finds, ← hkind]⟩
      · next hno =>
          have hkind : node.kind ≠ .regular := fun he => hno (hfile.trans (decide_eq_true he))
          refine (does_closing hP node.identity _).mono (fun _ h => h) fun v r' hr' => ⟨hr'.1, ?_⟩
          rw [hr'.2]
          refine ⟨node.identity, ?_⟩
          rcases node with ⟨_ | _ | _, i⟩
          · exact absurd rfl hkind
          · exact absurd rfl hlink
          · rfl

theorem Exec.openRead_kind {name : String} {node : Node} {v v' : Volume}
    (h : Exec n call v (.openRead name) (.ok node) v') : node.kind ≠ .link := by
  cases h with
  | opened _ _ h hk => exact hk

/-- **`open_existing_regular` under the lock.** -/
theorem does_openExistingRegular (hP : Steady n P) {t : TargetName} {entry : Option Node}
    (hentry : ∀ v, P v → v.entries t.name = entry) :
    (directory start).Does n call P (openExistingRegular t.name) fun v r => P v ∧ Finds entry r := by
  refine does_quiet hP (c := .openRead t.name) ⟨t, rfl⟩
    (fun r => (∀ node, r = .ok node → entry = some node ∧ node.kind ≠ .link) ∧
      ∀ e, r = .error e → e = .notFound → entry = none)
    (fun v r v' hv hx => ⟨fun node hr => ?_, fun e hr => ?_⟩) fun r hr => ?_
  · subst hr
    exact ⟨hentry v hv ▸ hx.openRead_ok, hx.openRead_kind⟩
  · subst hr
    exact hentry v hv ▸ hx.openRead_error
  · rcases r with e | node
    · refine (does_mapOpenError hP hentry (hr.2 e rfl)).mono (fun _ h => h) fun v r' hr' => ⟨hr'.1, ?_⟩
      obtain ⟨err, rfl, herr⟩ := hr'.2
      exact herr
    · obtain ⟨rfl, hlink⟩ := hr.1 node rfl
      exact does_openedRegular hP hlink

/-- The expectation holds of what a name names. -/
def ReplaceExpectation.Accepts : ReplaceExpectation → Option Node → Prop
  | .missing, entry => entry = none
  | .matching i, entry => entry = some ⟨.regular, i⟩
  | .any, entry => ∀ node, entry = some node → node.kind = .regular

theorem ReplaceExpectation.Accepts.admits {expected : ReplaceExpectation} {v : Volume} {t : TargetName}
    (h : expected.Accepts (v.entries t.name)) : expected.Admits (v.shelf t) := by
  rw [Volume.shelf]
  cases expected with
  | missing => rw [show v.entries t.name = none from h]; rfl
  | matching i => rw [show v.entries t.name = some ⟨.regular, i⟩ from h]; exact ⟨_, rfl, rfl, rfl⟩
  | any =>
      intro w hw
      obtain ⟨node, hnode, rfl⟩ := Option.map_eq_some_iff.mp hw
      exact h node hnode

theorem compareExpectation_ok {expected : ReplaceExpectation} {entry : Option Node}
    {r : Except BoundaryError OpenedRegularFile} (hr : Finds entry r)
    (h : compareExpectation expected r = .ok ()) : expected.Accepts entry := by
  rcases r with err | opened
  · cases err with
    | io e =>
        cases e with
        | notFound =>
            obtain rfl : entry = none := hr rfl
            cases expected with
            | missing => rfl
            | matching i => cases h
            | any => exact fun node hn => by cases hn
        | alreadyExists => cases h
        | other => cases h
    | _ => cases h
  · obtain rfl : entry = some ⟨.regular, opened.identity⟩ := hr
    cases expected with
    | missing => cases h
    | matching i =>
        by_cases hi : i = opened.identity
        · rw [hi]
          rfl
        · rw [compareExpectation, if_pos hi] at h
          cases h
    | any =>
        intro node hn
        rw [← Option.some.inj hn]

/-- **`verify_expectation` under the lock.** -/
theorem does_verifyExpectation (hP : Steady n P) (hheld : ∀ v, P v → v.HeldBy n) (t : TargetName)
    (expected : ReplaceExpectation) :
    (directory start).Does n call P (verifyExpectation t.name expected) fun v r =>
      P v ∧ (r = .ok () → expected.Accepts (v.entries t.name)) := by
  intro v hv
  have hP' := hP.and_entry hheld t.name (v.entries t.name)
  refine Sharing.Does.bind (directory_lawful start) (does_openExistingRegular hP' fun _ h => h.2) (fun r => ?_)
    v ⟨hv, rfl⟩
  have hfinds : ∀ r' : Except BoundaryError Unit, r' = compareExpectation expected r →
      ∀ v', (P v' ∧ v'.entries t.name = v.entries t.name) ∧ Finds (v.entries t.name) r →
        P v' ∧ (r' = .ok () → expected.Accepts (v'.entries t.name)) := by
    intro r' hr' v' hv'
    refine ⟨hv'.1.1, fun hok => ?_⟩
    rw [hv'.1.2]
    exact compareExpectation_ok hv'.2 (hr'.symm.trans hok)
  have hsteady : Steady n fun v' => (P v' ∧ v'.entries t.name = v.entries t.name) ∧
      Finds (v.entries t.name) r :=
    ⟨fun v₁ v₂ h hr => ⟨hP'.rely v₁ v₂ h.1 hr, h.2⟩, fun v₁ v₂ h hr => ⟨hP'.reopens v₁ v₂ h.1 hr, h.2⟩⟩
  rcases r with err | opened
  · exact does_value hsteady (hfinds _ rfl)
  · exact (does_closing hsteady opened.identity _).mono (fun _ h => h) fun v' r' h =>
      hfinds r' h.2 v' h.1

/-- A program and what follows its value. -/
theorem does_andThen {α β : Type} {pre : Volume → Prop} {p : FileProgram α} {f : α → FileProgram β}
    (mid : Volume → Except BoundaryError α → Prop) {post : Volume → Except BoundaryError β → Prop}
    (hp : (directory start).Does n call pre p mid)
    (hok : ∀ a, (directory start).Does n call (fun v => mid v (.ok a)) (f a) post)
    (herr : ∀ e, (directory start).Does n call (fun v => mid v (.error e)) (.done (.error e)) post) :
    (directory start).Does n call pre (FileProgram.andThen p f) post := by
  refine Sharing.Does.bind (directory_lawful start) hp fun r => ?_
  rcases r with e | a
  · exact herr e
  · exact hok a

theorem does_mapOpenError_lock {α : Type} (hP : Steady n P) {name : String} {e : IoError} :
    (directory start).Does n call P (mapOpenError name e : FileProgram α) fun v r =>
      P v ∧ ∀ a, r ≠ .ok a := by
  refine does_quiet hP (c := .symlinkMetadata name) trivial (fun _ => True)
    (fun _ _ _ _ _ => trivial) fun r _ => ?_
  rcases r with e' | kind
  · exact does_value hP fun v hv => ⟨hv, fun _ h => by cases h⟩
  · cases kind <;> exact does_value hP fun v hv => ⟨hv, fun _ h => by cases h⟩

theorem allowed_refl {v : Volume} (hv : Shows start v) : (directory start).Allowed n v v :=
  (Reopens.refl n v).allowed hv

/-- The call knows the lock file. -/
theorem lockEntry_steady (n : Nat) (node : Node) :
    Steady n fun v => Uncommitted n v ∧ v.entries replaceLockName = some node where
  rely v v' h hr := ⟨(Uncommitted.steady n).rely v v' h.1 hr, hr.lockEntry node h.2⟩
  reopens v v' h hr := ⟨(Uncommitted.steady n).reopens v v' h.1 hr, hr.entries ▸ h.2⟩

theorem does_lock (node : Node) :
    (directory start).Does n call (fun v => Uncommitted n v ∧ v.entries replaceLockName = some node)
      (io (.lock node)) fun v r => Uncommitted n v ∧ (r = .ok () → Locked n v) := by
  refine Sharing.Does.issue
    (fun r v => Uncommitted n v ∧ (r = .ok () → Locked n v)) (lockEntry_steady n node).rely
    (fun v r v' hv hinv hx => ?_) fun r => ?_
  · cases hx with
    | failed _ e h => exact ⟨allowed_refl hinv, hv.1, fun h => by cases h⟩
    | locked _ hfree =>
        refine ⟨allowed_locked hv.2 hfree hinv, hv.1, fun _ => ⟨⟨node, hv.2, ?_⟩, hv.1⟩⟩
        exact Function.update_self ..
  · rcases r with e | u
    · intro v hv
      exact does_value (Uncommitted.steady n) (fun v h => ⟨h, fun h => by cases h⟩) v hv.1
    · intro v hv
      exact does_value (Locked.steady n) (fun v h => ⟨h.uncommitted, fun _ => h⟩) v (hv.2 rfl)

/-- **`acquire_replace_lock`.** -/
theorem does_acquireReplaceLock :
    (directory start).Does n call (Uncommitted n) acquireReplaceLock fun v r =>
      Uncommitted n v ∧ (r = .ok () → Locked n v) := by
  have hunlocked : ∀ e : BoundaryError, (directory start).Does n call (Uncommitted n)
      (.done (.error e) : FileProgram Unit) fun v r => Uncommitted n v ∧ (r = .ok () → Locked n v) :=
    fun e => does_value (Uncommitted.steady n) fun v hv => ⟨hv, fun h => by cases h⟩
  refine Sharing.Does.issue
    (fun r v => Uncommitted n v ∧ ∀ node, r = .ok node → v.entries replaceLockName = some node)
    (Uncommitted.steady n).rely (fun v r v' hv hinv hx => ?_) fun r => ?_
  · cases hx with
    | failed _ e h => exact ⟨allowed_refl hinv, hv, fun _ h => by cases h⟩
    | lockCreated i h hi =>
        refine ⟨allowed_lockCreated h hi hinv, hv, fun node hnode => ?_⟩
        obtain rfl := Except.ok.inj hnode
        exact Function.update_self replaceLockName _ v.entries
    | lockOpened node h hk =>
        exact ⟨allowed_refl hinv, hv, fun node' hnode => Except.ok.inj hnode ▸ h⟩
  · rcases r with e | node
    · intro v hv
      exact (does_mapOpenError_lock (Uncommitted.steady n)).mono (fun _ h => h)
        (fun v r h => ⟨h.1, fun hok => absurd hok (h.2 ())⟩) v hv.1
    · intro v hv
      have hlock := lockEntry_steady n node
      refine does_andThen _ (does_io hlock (c := .metadata node) trivial) (fun found => ?_) (fun e => ?_)
        v ⟨hv.1, hv.2 node rfl⟩
      · split
        · intro v hv
          refine does_andThen _ (does_io hlock (c := .setPermissions node) trivial) (fun _ => ?_)
            (fun e => ?_) v hv.1
          · exact (does_lock node).mono (fun v h => h.1) fun _ _ h => h
          · exact fun v hv => hunlocked e v hv.1.1
        · exact fun v hv => hunlocked _ v hv.1.1
      · exact fun v hv => hunlocked e v hv.1.1

theorem Shows.created {v : Volume} {random : Bytes} {i : FileObjectIdentity} (hi : v.Fresh i)
    (h : Shows start v) : Shows start (v.create (temporaryName random) i) := by
  refine h.of_eq (shelf_eq (fun t => ?_) fun t node hn => ?_) rfl
  · exact Function.update_of_ne (t.notTemporary random) _ _
  · exact Function.update_of_ne (hi.1 _ _ hn) _ _

theorem Locked.created {v : Volume} {random : Bytes} {i : FileObjectIdentity} (hv : Locked n v)
    (hi : v.Fresh i) :
    Staged n (temporaryName random) i [] (v.create (temporaryName random) i) where
  held := by
    obtain ⟨node, hnode, hh⟩ := hv.held
    exact ⟨node, (Function.update_of_ne (temporaryName_ne_lock random).symm _ _).trans hnode, hh⟩
  uncommitted := hv.uncommitted
  isTemporary := ⟨random, rfl⟩
  entry := Function.update_self ..
  only := by
    intro name node hnode hid
    by_cases hname : name = temporaryName random
    · exact hname
    · have hold : v.entries name = some node := (Function.update_of_ne hname _ _).symm.trans hnode
      exact absurd hid (hi.1 name node hold)
  content := Function.update_self ..
  unread := fun m _ => hi.2 m

/-- **`create_private_temporary` under the lock.** -/
theorem does_createPrivateTemporary (attempts : Nat) :
    (directory start).Does n call (Locked n) (createPrivateTemporary attempts) fun v r =>
      (∀ staged, r = .ok staged → Staged n staged.1 staged.2 [] v) ∧
        ∀ e, r = .error e → Locked n v := by
  have hrefused : ∀ e : BoundaryError, (directory start).Does n call (Locked n)
      (.done (.error e) : FileProgram (String × FileObjectIdentity)) fun v r =>
        (∀ staged, r = .ok staged → Staged n staged.1 staged.2 [] v) ∧
          ∀ e, r = .error e → Locked n v :=
    fun e => does_value (Locked.steady n) fun v hv => ⟨fun _ h => (by cases h), fun _ _ => hv⟩
  induction attempts with
  | zero => exact hrefused _
  | succ attempts ih =>
      refine does_quiet (Locked.steady n) (c := .entropy) trivial (fun _ => True)
        (fun _ _ _ _ _ => trivial) fun r _ => ?_
      rcases r with e | random
      · exact hrefused _
      · refine Sharing.Does.issue
          (fun r v => (∀ i, r = .ok i → Staged n (temporaryName random) i [] v) ∧
            ∀ e, r = .error e → Locked n v)
          (Locked.steady n).rely (fun v r v' hv hinv hx => ?_) fun r => ?_
        · cases hx with
          | failed _ e h => exact ⟨allowed_refl hinv, fun _ h => (by cases h), fun _ _ => hv⟩
          | created _ i hnone hi =>
              refine ⟨allowed_of_held hv.held ?_ rfl (fun m j _ hj => ?_)
                ⟨[], rfl, fun _ hc => by cases hc⟩ (hinv.created hi), fun j hj => ?_, fun _ h => by cases h⟩
              · exact Function.update_of_ne (temporaryName_ne_lock random).symm _ _
              · have hne : j ≠ i := fun he => hi.2 m (by rwa [he] at hj)
                exact Function.update_of_ne hne _ _
              · exact Except.ok.inj hj ▸ hv.created hi
        · rcases r with e | i
          · cases e with
            | alreadyExists => exact fun v hv => ih v (hv.2 _ rfl)
            | notFound => exact fun v hv => hrefused _ v (hv.2 _ rfl)
            | other => exact fun v hv => hrefused _ v (hv.2 _ rfl)
          · intro v hv
            exact does_value (Staged.steady n (temporaryName random) i [])
              (fun v h => ⟨fun staged hs => Except.ok.inj hs ▸ h, fun _ h => by cases h⟩) v (hv.1 i rfl)

end Parts

/-! ## 3. Replacements and reads -/

section Calls

variable {start : Shelf} {n : Nat}

/-- How a replacement ends: in place, or with an error; only an `Io` error leaves it open whether the
    file is in place. -/
def Ends (n : Nat) (r : Replacement) (i : FileObjectIdentity) (v : Volume)
    (result : Except BoundaryError FileObjectIdentity) : Prop :=
  (∀ i', result = .ok i' → i' = i ∧ Committed n r i v) ∧
    ∀ err, result = .error err → v.HeldBy n ∧ ((∀ e, err ≠ .io e) → Uncommitted n v)

theorem Ends.of_locked {r : Replacement} {i : FileObjectIdentity} {v : Volume} (h : Locked n v)
    (err : BoundaryError) : Ends n r i v (.error err) :=
  ⟨fun _ h => (by cases h), fun _ _ => ⟨h.held, fun _ => h.uncommitted⟩⟩

theorem Ends.of_committed {r : Replacement} {i : FileObjectIdentity} {v : Volume}
    (h : Committed n r i v) {err : BoundaryError} (herr : ∃ e, err = .io e) :
    Ends n r i v (.error err) := by
  refine ⟨fun _ h => (by cases h), fun err' he => ⟨h.held, fun hno => ?_⟩⟩
  obtain ⟨e, rfl⟩ := herr
  exact absurd (Except.error.inj he).symm (hno e)

theorem Locked.ends {r : Replacement} {i : FileObjectIdentity} (err : BoundaryError) {P : Volume → Prop}
    (hP : ∀ v, P v → Locked n v) :
    (directory start).Does n (.replace r) P (.done (.error err)) (Ends n r i) := fun v hv =>
  does_value (Locked.steady n) (fun _ h => Ends.of_locked h err) v (hP v hv)

theorem Committed.ends {r : Replacement} {i : FileObjectIdentity} {err : BoundaryError}
    {P : Volume → Prop} (hP : ∀ v, P v → Committed n r i v ∧ ∃ e, err = .io e) :
    (directory start).Does n (.replace r) P (.done (.error err)) (Ends n r i) := by
  intro v hv
  obtain ⟨hc, herr⟩ := hP v hv
  exact does_value (Committed.steady n r i) (fun _ h => Ends.of_committed h herr) v hc

/-- A write of the call's own file. -/
theorem Staged.allowed_append {temporary : String} {i : FileObjectIdentity} {v : Volume}
    (h : Staged n temporary i [] v) (hv : Shows start v) (bytes : Bytes) :
    (directory start).Allowed n v (v.append i bytes) ∧ Staged n temporary i bytes (v.append i bytes) := by
  have hcontent : (v.append i bytes).content i = bytes := by
    rw [Volume.append]
    dsimp only
    rw [Function.update_self, h.content, List.nil_append]
  refine ⟨allowed_of_held h.held rfl rfl (fun m j hm hj => ?_) ⟨[], rfl, fun _ hc => by cases hc⟩
      (hv.of_eq (shelf_eq (fun _ => rfl) fun t node hn => ?_) rfl),
    { held := h.held, uncommitted := h.uncommitted, isTemporary := h.isTemporary, entry := h.entry
      only := h.only, content := hcontent, unread := h.unread }⟩
  · have hne : j ≠ i := fun he => h.unread m hm (by rwa [he] at hj)
    exact Function.update_of_ne hne _ _
  · exact Function.update_of_ne (fun he => h.unnamed ⟨t, node, hn, he⟩) _ _

theorem does_write {temporary : String} {i : FileObjectIdentity} {call : Call} (bytes : Bytes) :
    (directory start).Does n call (Staged n temporary i []) (io (.write i bytes)) fun v r =>
      (r = .ok () → Staged n temporary i bytes v) ∧ Locked n v := by
  refine Sharing.Does.issue (fun r v => (r = .ok () → Staged n temporary i bytes v) ∧ Locked n v)
    (Staged.steady n temporary i []).rely (fun v r v' hv hinv hx => ?_) fun r => ?_
  · cases hx with
    | failed _ e h => exact ⟨allowed_refl hinv, fun h => (by cases h), hv.toLocked⟩
    | written _ _ =>
        obtain ⟨hallowed, hstaged⟩ := hv.allowed_append hinv bytes
        exact ⟨hallowed, fun _ => hstaged, hstaged.toLocked⟩
    | torn _ _ k e =>
        obtain ⟨hallowed, hstaged⟩ := hv.allowed_append hinv (bytes.take k)
        exact ⟨hallowed, fun h => (by cases h), hstaged.toLocked⟩
  · rcases r with e | u
    · intro v hv
      exact does_value (Locked.steady n) (fun v h => ⟨fun h => (by cases h), h⟩) v hv.2
    · intro v hv
      exact does_value (Staged.steady n temporary i bytes) (fun v h => ⟨fun _ => h, h.toLocked⟩) v
        (hv.1 rfl)

/-- What the holder of the lock checked stays checked. -/
theorem Staged.checked_steady (temporary : String) (i : FileObjectIdentity) (bytes : Bytes)
    (expected : ReplaceExpectation) (name : String) : Steady n fun v =>
      Staged n temporary i bytes v ∧ expected.Accepts (v.entries name) where
  rely v v' h hr := by
    refine ⟨(Staged.steady n temporary i bytes).rely v v' h.1 hr, ?_⟩
    rw [(hr.held h.1.held).2.1]
    exact h.2
  reopens v v' h hr := by
    refine ⟨(Staged.steady n temporary i bytes).reopens v v' h.1 hr, ?_⟩
    rw [hr.entries]
    exact h.2

/-- **The rename makes one replacement, where its expectation holds.** -/
theorem Staged.renamed {r : Replacement} {temporary : String} {i : FileObjectIdentity} {v : Volume}
    (h : Staged n temporary i r.bytes v) (hv : Shows start v)
    (haccepts : r.expected.Accepts (v.entries r.target.name)) :
    (directory start).Allowed n v
        (v.rename n (.replace r) temporary r.target.name ⟨.regular, i⟩) ∧
      Committed n r i (v.rename n (.replace r) temporary r.target.name ⟨.regular, i⟩) := by
  obtain ⟨random, hrandom⟩ := h.isTemporary
  have hlock : (v.rename n (.replace r) temporary r.target.name ⟨.regular, i⟩).entries replaceLockName =
      v.entries replaceLockName := by
    rw [Volume.rename]
    dsimp only
    rw [Function.update_of_ne (hrandom ▸ (temporaryName_ne_lock random).symm),
      Function.update_of_ne r.target.notLock.symm]
  have htarget : ∀ t : TargetName, (v.rename n (.replace r) temporary r.target.name
      ⟨.regular, i⟩).entries t.name = Function.update v.entries r.target.name (some ⟨.regular, i⟩) t.name :=
    fun t => Function.update_of_ne (hrandom ▸ t.notTemporary random) _ _
  have hshelf : (v.rename n (.replace r) temporary r.target.name ⟨.regular, i⟩).shelf =
      Function.update v.shelf r.target (some ⟨.regular, i, r.bytes⟩) := by
    funext t
    rw [Volume.shelf, htarget]
    by_cases ht : t = r.target
    · subst ht
      rw [Function.update_self, Function.update_self, ← h.content]
      rfl
    · rw [Function.update_of_ne fun he => ht (TargetName.ext he), Function.update_of_ne ht]
      rfl
  have hheld : (v.rename n (.replace r) temporary r.target.name ⟨.regular, i⟩).HeldBy n := by
    obtain ⟨node, hnode, hh⟩ := h.held
    exact ⟨node, hlock.trans hnode, hh⟩
  refine ⟨allowed_of_held h.held hlock rfl (fun _ _ _ _ => rfl) ⟨[⟨n, r, i⟩], rfl, fun c hc => ?_⟩
      ⟨?_, ⟨?_, hv.chained⟩, ?_⟩, hheld, (htarget r.target).trans (Function.update_self ..),
      List.mem_cons_self⟩
  · rw [List.mem_singleton.mp hc]
  · rw [hshelf, hv.shelf]
    rfl
  · have hadmits : r.expected.Admits (start.after v.history r.target) := hv.shelf ▸ haccepts.admits
    exact hadmits
  · refine List.nodup_cons.mpr ⟨fun hmem => ?_, hv.once⟩
    obtain ⟨c, hc, hcall⟩ := List.mem_map.mp hmem
    exact h.uncommitted c hc hcall

theorem does_rename {r : Replacement} {temporary : String} {i : FileObjectIdentity} :
    (directory start).Does n (.replace r)
      (fun v => Staged n temporary i r.bytes v ∧ r.expected.Accepts (v.entries r.target.name))
      (io (.rename temporary r.target.name)) fun v result =>
        (result = .ok () → Committed n r i v) ∧ ∀ err, result = .error err → Locked n v := by
  refine Sharing.Does.issue
    (fun result v => (result = .ok () → Committed n r i v) ∧ ∀ e, result = .error e → Locked n v)
    (Staged.checked_steady temporary i r.bytes r.expected r.target.name).rely
    (fun v result v' hv hinv hx => ?_) fun result => ?_
  · cases hx with
    | failed _ e h => exact ⟨allowed_refl hinv, fun h => (by cases h), fun _ _ => hv.1.toLocked⟩
    | renamed _ _ node hnode =>
        obtain rfl := Option.some.inj (hv.1.entry.symm.trans hnode)
        obtain ⟨hallowed, hcommitted⟩ := hv.1.renamed hinv hv.2
        exact ⟨hallowed, fun _ => hcommitted, fun _ h => by cases h⟩
  · rcases result with e | u
    · intro v hv
      exact does_value (Locked.steady n) (fun v h => ⟨fun h => (by cases h), fun _ _ => h⟩) v (hv.2 e rfl)
    · intro v hv
      exact does_value (Committed.steady n r i) (fun v h => ⟨fun _ => h, fun _ h => by cases h⟩) v
        (hv.1 rfl)

/-- The reopening finds the call's own file. -/
theorem does_reopen {r : Replacement} {i : FileObjectIdentity} :
    (directory start).Does n (.replace r) (Committed n r i)
      (FileProgram.andThen (openExistingRegular r.target.name) fun opened =>
        closing opened.identity (.ok opened.identity)) (Ends n r i) := by
  refine does_andThen _ (does_openExistingRegular (Committed.steady n r i) fun v hv => hv.entry)
    (fun opened => ?_) fun err => Committed.ends fun v hv => ⟨hv.1, ?_⟩
  · intro v hv
    obtain rfl : i = opened.identity := by
      have hfinds : some (⟨.regular, i⟩ : Node) = some ⟨.regular, opened.identity⟩ := hv.2
      exact congrArg Node.identity (Option.some.inj hfinds)
    refine (does_closing (Committed.steady n r opened.identity) opened.identity _).mono (fun _ h => h)
      (fun v' result h => ⟨fun i' hi => ⟨?_, h.1⟩, fun err he => ?_⟩) v hv.1
    · exact (Except.ok.inj (h.2.symm.trans hi)).symm
    · cases h.2.symm.trans he
  · have hrefuses : Refuses (some ⟨.regular, i⟩) err := hv.2
    cases err with
    | io e => exact ⟨e, rfl⟩
    | linkRejected => obtain ⟨_, h⟩ := hrefuses; cases h
    | notRegularFile => obtain ⟨_, h⟩ := hrefuses; cases h
    | invalidPath => exact hrefuses.elim
    | identityMismatch => exact hrefuses.elim
    | resourceLimit limit => exact hrefuses.elim

/-- **The part under the lock.** -/
theorem does_replaceStaged {r : Replacement} {temporary : String} {i : FileObjectIdentity} :
    (directory start).Does n (.replace r) (Staged n temporary i []) (replaceStaged r temporary i)
      (Ends n r i) := by
  have hsteady := Staged.steady n temporary i r.bytes
  refine does_andThen _ (does_write r.bytes) (fun _ => ?_) fun err => Locked.ends err fun v hv => hv.2
  refine does_andThen _ (Sharing.Does.mono (does_io hsteady (c := .syncFile i) trivial)
    (fun v hv => hv.1 rfl) fun v r h => h.1) (fun _ => ?_) fun err => Locked.ends err fun v hv => hv.toLocked
  refine does_andThen _ (does_verifyExpectation hsteady (fun v hv => hv.held) r.target r.expected)
    (fun _ => ?_) fun err => Locked.ends err fun v hv => hv.1.toLocked
  refine does_andThen _ (Sharing.Does.mono does_rename (fun v hv => ⟨hv.1, hv.2 rfl⟩) fun _ _ h => h)
    (fun _ => ?_) fun err => Locked.ends err fun v hv => hv.2 err rfl
  refine does_andThen _ (Sharing.Does.mono (does_io (Committed.steady n r i) (c := .syncParent) trivial)
    (fun v hv => hv.1 rfl) fun _ _ h => h) (fun _ => ?_)
    fun err => Committed.ends fun v hv => ⟨hv.1, hv.2 err rfl⟩
  exact Sharing.Does.mono does_reopen (fun v hv => hv.1) fun _ _ h => h

theorem HeldBy.steady (n : Nat) {Q : Prop} (P : Volume → Prop) (hP : Steady n P) :
    Steady n fun v => v.HeldBy n ∧ (Q → P v) where
  rely v v' h hr := ⟨(hr.held h.1).1, fun hq => hP.rely v v' (h.2 hq) hr⟩
  reopens v v' h hr := ⟨h.1.reopens hr, fun hq => hP.reopens v v' (h.2 hq) hr⟩

/-- What a replacement leaves behind. -/
def Replaced (n : Nat) (r : Replacement) (v : Volume) (result : Except BoundaryError FileObjectIdentity) :
    Prop :=
  (∀ i, result = .ok i → ⟨n, r, i⟩ ∈ v.history) ∧
    ∀ err, result = .error err → (∀ e, err ≠ .io e) → Uncommitted n v

/-- The clean-up takes away a temporary name at most. -/
theorem does_remove {r : Replacement} {random : Bytes} {err : BoundaryError} :
    (directory start).Does n (.replace r)
      (fun v => v.HeldBy n ∧ ((∀ e, err ≠ .io e) → Uncommitted n v))
      (.issue (.remove (temporaryName random)) fun _ => .done (.error err)) (Replaced n r) := by
  have hsteady := HeldBy.steady n (Q := ∀ e, err ≠ .io e) _ (Uncommitted.steady n)
  refine Sharing.Does.issue (fun _ v => v.HeldBy n ∧ ((∀ e, err ≠ .io e) → Uncommitted n v))
    hsteady.rely (fun v result v' hv hinv hx => ?_) fun _ => does_value hsteady fun v hv => ?_
  · cases hx with
    | failed _ e h => exact ⟨allowed_refl hinv, hv⟩
    | removed _ =>
        have hlock : Function.update v.entries (temporaryName random) none replaceLockName =
            v.entries replaceLockName :=
          Function.update_of_ne (temporaryName_ne_lock random).symm _ _
        refine ⟨allowed_of_held hv.1 hlock rfl (fun _ _ _ _ => rfl) ⟨[], rfl, fun _ hc => by cases hc⟩
          (hinv.of_eq (shelf_eq (fun t => ?_) fun _ _ _ => rfl) rfl), ?_, hv.2⟩
        · exact Function.update_of_ne (t.notTemporary random) _ _
        · obtain ⟨node, hnode, hh⟩ := hv.1
          exact ⟨node, hlock.trans hnode, hh⟩
  · refine ⟨fun _ h => (by cases h), fun err' he hno => hv.2 ?_⟩
    rw [Except.error.inj he]
    exact hno

theorem does_unreplaced {r : Replacement} (err : BoundaryError) {P : Volume → Prop}
    (hP : ∀ v, P v → Uncommitted n v) :
    (directory start).Does n (.replace r) P (.done (.error err)) (Replaced n r) := fun v hv =>
  does_value (Uncommitted.steady n) (fun _ h => ⟨fun _ h => (by cases h), fun _ _ _ => h⟩) v (hP v hv)

/-- **`replace_private`**, whatever the other calls do. -/
theorem does_replacePrivate (r : Replacement) :
    (directory start).Does n (.replace r) (Uncommitted n) (replacePrivate r) (Replaced n r) := by
  refine does_andThen _ does_acquireReplaceLock (fun _ => ?_) fun err =>
    does_unreplaced err fun v hv => hv.1
  refine does_andThen _ (Sharing.Does.mono (does_verifyExpectation (Locked.steady n)
    (fun v hv => hv.held) r.target r.expected) (fun v hv => hv.2 rfl) fun _ _ h => h) (fun _ => ?_)
    fun err => does_unreplaced err fun v hv => hv.1.uncommitted
  refine does_andThen _ (Sharing.Does.mono (does_createPrivateTemporary 16) (fun v hv => hv.1)
    fun _ _ h => h) (fun staged => ?_) fun err => does_unreplaced err fun v hv => (hv.2 err rfl).uncommitted
  intro v hv
  have hstaged := hv.1 staged rfl
  obtain ⟨random, hrandom⟩ := hstaged.isTemporary
  refine Sharing.Does.bind (directory_lawful start) does_replaceStaged (fun result => ?_) v hstaged
  rcases result with err | i
  · dsimp only
    rw [hrandom]
    exact Sharing.Does.mono does_remove (fun v hv => hv.2 err rfl) fun _ _ h => h
  · intro v hv
    obtain ⟨rfl, hcommitted⟩ := hv.1 i rfl
    exact does_value (Committed.steady n r staged.2)
      (fun v h => ⟨fun j hj => Except.ok.inj hj ▸ h.mem, fun _ h => by cases h⟩) v hcommitted

/-! ## 4. Reads -/

/-- The target was once this version. -/
def Past (start : Shelf) (t : TargetName) (w : Version) (v : Volume) : Prop :=
  ∃ earlier, earlier <:+ v.history ∧ start.after earlier t = some w

theorem Past.rely {t : TargetName} {w : Version} {v v' : Volume} (h : Past start t w v)
    (hr : Rely n v v') : Past start t w v' := by
  obtain ⟨earlier, hsuffix, hafter⟩ := h
  obtain ⟨newer, hh, -⟩ := hr.history
  exact ⟨earlier, hh ▸ hsuffix.trans (List.suffix_append newer v.history), hafter⟩

/-- The call has the file of a version of the target open. -/
structure Pinned (start : Shelf) (n : Nat) (t : TargetName) (w : Version) (v : Volume) : Prop where
  mem : (n, w.identity) ∈ v.opened
  content : v.content w.identity = w.content
  past : Past start t w v

theorem Pinned.rely {t : TargetName} {w : Version} {v v' : Volume} (h : Pinned start n t w v)
    (hr : Rely n v v') : Pinned start n t w v' := by
  obtain ⟨hmem, hcontent⟩ := hr.own _ h.mem
  exact ⟨hmem, hcontent.trans h.content, h.past.rely hr⟩

theorem Pinned.stable {t : TargetName} {w : Version} :
    (directory start).Stable n (Pinned start n t w) := fun _ _ h hr => h.rely hr

theorem true_steady (n : Nat) : Steady n fun _ => True := ⟨fun _ _ _ _ => trivial, fun _ _ _ _ => trivial⟩

variable {call : Call}

/-- What a call returned is a version of the target, of the size it may have. -/
def Loads (start : Shelf) (t : TargetName) (limit : Nat) (i : FileObjectIdentity) (v : Volume)
    (result : Except BoundaryError Bytes) : Prop :=
  ∀ bytes, result = .ok bytes → bytes.length ≤ limit ∧ Past start t ⟨.regular, i, bytes⟩ v

theorem does_refused {α : Type} {P : Volume → Prop} {err : BoundaryError}
    {post : Volume → Except BoundaryError α → Prop} (hpost : ∀ v, post v (.error err)) :
    (directory start).Does n call P (.done (.error err)) post := fun v _ =>
  does_value (true_steady n) (fun v _ => hpost v) v trivial

/-- A file that is opened is the current version of the target. -/
theorem does_pin (t : TargetName) :
    (directory start).Does n call (fun _ => True) (openExistingRegular t.name) fun v r =>
      ∀ opened, r = .ok opened → ∃ w : Version, w.kind = .regular ∧ w.identity = opened.identity ∧
        opened.length = w.content.length ∧ Pinned start n t w v := by
  refine Sharing.Does.issue (fun r v => ∀ node, r = .ok node → ∃ bytes,
      Pinned start n t ⟨node.kind, node.identity, bytes⟩ v) (true_steady n).rely
    (fun v r v' _ hinv hx => ⟨(hx.reopens ⟨t, rfl⟩).allowed hinv, fun node hr => ?_⟩) fun r => ?_
  · subst hr
    cases hx with
    | opened _ _ h hk =>
        refine ⟨v.content node.identity, List.mem_cons_self, rfl, v.history, List.suffix_rfl, ?_⟩
        rw [← hinv.shelf, Volume.shelf, h]
        rfl
  · rcases r with e | node
    · exact Sharing.Does.mono (does_mapOpenError_lock (true_steady n)) (fun _ _ => trivial)
        fun v r h opened hr => absurd hr (h.2 opened)
    · intro v hv
      obtain ⟨bytes, hpinned⟩ := hv node rfl
      refine Sharing.Does.issue (fun r v => ∀ found, r = .ok found →
          found.isFile = decide (node.kind = .regular) ∧ found.length = bytes.length ∧
            Pinned start n t ⟨node.kind, node.identity, bytes⟩ v) Pinned.stable
        (fun v r v' hv hinv hx => ⟨(hx.reopens (c := .metadata node) trivial).allowed hinv,
          fun found hr => ?_⟩) (fun r => ?_) v hpinned
      · subst hr
        obtain ⟨hfile, hlength, rfl⟩ := hx.metadata_ok
        exact ⟨hfile, hlength.trans (congrArg List.length hv.content), hv⟩
      · rcases r with e | found
        · exact Sharing.Does.mono (does_closing (true_steady n) node.identity _) (fun _ _ => trivial)
            fun v r h opened hr => by cases h.2.symm.trans hr
        · dsimp only
          split
          · next hyes =>
              intro v hv v' hr _ opened hopened
              obtain ⟨hfile, hlength, hpinned⟩ := hv found rfl
              obtain rfl := Except.ok.inj hopened
              have hkind : node.kind = .regular := of_decide_eq_true (hfile.symm.trans hyes)
              exact ⟨_, hkind, rfl, hlength, hpinned.rely hr⟩
          · exact Sharing.Does.mono (does_closing (true_steady n) node.identity _) (fun _ _ => trivial)
              fun v r h opened hr => by cases h.2.symm.trans hr

/-- What a read of an open file returns. -/
theorem Exec.read_ok {i : FileObjectIdentity} {offset room : Nat} {portion : Bytes} {v v' : Volume}
    (h : Exec n call v (.read i offset room) (.ok portion) v') :
    portion <+: (v.content i).drop offset ∧
      (portion = [] → 0 < room → (v.content i).length ≤ offset) ∧ v' = v := by
  cases h with
  | read _ _ _ _ h hroom hend => exact ⟨h, hend, rfl⟩

theorem take_append_portion {whole output portion : Bytes} (ho : output <+: whole)
    (hp : portion <+: whole.drop output.length) : output ++ portion <+: whole := by
  obtain ⟨rest, rfl⟩ := ho
  rw [List.drop_left] at hp
  exact (List.prefix_append_right_inj output).mpr hp

/-- **The loop returns the whole file that is open**, whoever replaces it meanwhile. -/
theorem does_readRemaining {t : TargetName} {limit : Nat} {w : Version} (hkind : w.kind = .regular)
    (remaining : Nat) (output : Bytes) (hlimit : output.length ≤ limit) (hout : output <+: w.content) :
    (directory start).Does n call (Pinned start n t w) (readRemaining w.identity limit remaining output)
      (Loads start t limit w.identity) := by
  induction remaining using Nat.strong_induction_on generalizing output with
  | _ remaining ih =>
      rw [readRemaining]
      split
      · exact does_refused fun _ _ h => by cases h
      · next hpos =>
          refine Sharing.Does.issue (fun r v => Pinned start n t w v ∧ ∀ portion, r = .ok portion →
              portion <+: w.content.drop output.length ∧
                (portion = [] → w.content.length ≤ output.length)) Pinned.stable
            (fun v r v' hv hinv hx => ⟨(hx.reopens (c := .read _ _ _) trivial).allowed hinv, ?_⟩)
            fun r => ?_
          · rcases r with e | portion
            · have hsame : v' = v := by cases hx; rfl
              exact ⟨hsame ▸ hv, fun _ h => by cases h⟩
            · obtain ⟨hfront, hend, rfl⟩ := hx.read_ok
              rw [hv.content] at hfront hend
              refine ⟨hv, fun portion' hr => ?_⟩
              obtain rfl := Except.ok.inj hr
              refine ⟨hfront, fun he => hend he (Nat.lt_min.mpr ⟨Nat.pos_of_ne_zero hpos, ?_⟩)⟩
              decide
          · rcases r with e | _ | ⟨b, bytes⟩
            · exact does_refused fun _ _ h => by cases h
            · intro v hv v' hr _ bytes hbytes
              obtain rfl := Except.ok.inj hbytes
              have hwhole : output = w.content := hout.eq_of_length
                (Nat.le_antisymm hout.length_le ((hv.2 [] rfl).2 rfl))
              refine ⟨hlimit, hwhole ▸ hkind ▸ (hv.1.past.rely hr)⟩
            · intro v hv
              have hnext := take_append_portion hout (hv.2 _ rfl).1
              dsimp only
              split
              · exact does_refused (P := fun _ => True) (fun _ _ h => by cases h) v trivial
              · next hle =>
                  refine ih (remaining - (b :: bytes).length) ?_ _ (Nat.le_of_not_lt hle) hnext v hv.1
                  rw [List.length_cons]
                  omega

/-- **`open_existing_regular` and `read_bounded`**, whatever the other calls do. -/
theorem does_loadBounded (t : TargetName) (limit : Nat) :
    (directory start).Does n call (fun _ => True) (loadBounded t limit) fun v result =>
      ∀ i bytes, result = .ok (i, bytes) → bytes.length ≤ limit ∧ Past start t ⟨.regular, i, bytes⟩ v := by
  refine does_andThen _ (does_pin t) (fun opened => ?_) fun err => does_refused fun _ _ _ h => by cases h
  intro v hv
  obtain ⟨w, hkind, hid, hlength, hpinned⟩ := hv opened rfl
  refine does_andThen (Loads start t limit opened.identity) ?_ (fun bytes => ?_)
    (fun err => does_refused fun _ _ _ h => by cases h) v hpinned
  · rw [readOpened, ← hid]
    split
    · exact does_refused fun _ _ h => by cases h
    · exact does_readRemaining hkind _ [] (Nat.zero_le _) List.nil_prefix
  · intro v hv v' hr _ i bytes' hresult
    obtain ⟨hle, hpast⟩ := hv bytes rfl
    cases hresult
    exact ⟨hle, hpast.rely hr⟩

/-! ## 5. Runs -/

/-- What a call that returned has done. -/
def Finished (start : Shelf) (n : Nat) : Call → Volume → Except BoundaryError CallResult → Prop
  | .replace r, v, .ok (.replaced i) => ⟨n, r, i⟩ ∈ v.history
  | .replace _, v, .error err => (∀ e, err ≠ .io e) → Uncommitted n v
  | .load t limit, v, .ok (.loaded i bytes) =>
      bytes.length ≤ limit ∧ Past start t ⟨.regular, i, bytes⟩ v
  | .load _ _, _, .error _ => True
  | .replace _, _, .ok (.loaded _ _) | .load _ _, _, .ok (.replaced _) => False

theorem Finished.rely {call : Call} {v v' : Volume} {result : Except BoundaryError CallResult}
    (h : Finished start n call v result) (hr : Rely n v v') : Finished start n call v' result := by
  rcases call with r | ⟨t, limit⟩ <;> rcases result with err | i | ⟨i, bytes⟩
  · exact fun hno => (Uncommitted.steady n).rely v v' (h hno) hr
  · obtain ⟨newer, hh, -⟩ := hr.history
    have hmem : ⟨n, r, i⟩ ∈ v'.history := hh ▸ List.mem_append_right newer h
    exact hmem
  · exact h
  · trivial
  · exact h
  · exact ⟨h.1, h.2.rely hr⟩

/-- Every call meets its specification. -/
theorem directory_specified (start : Shelf) :
    Specified (directory start) Call.body Uncommitted (Finished start) where
  pre_stable n := (Uncommitted.steady n).rely
  post_stable n call result v v' h hr := h.rely hr
  post_leave n call result v h := by
    rcases call with r | ⟨t, limit⟩ <;> rcases result with err | i | ⟨i, bytes⟩ <;> exact h
  body n call := by
    rcases call with r | ⟨t, limit⟩
    · refine does_andThen _ (does_replacePrivate r) (fun i => ?_) fun err => ?_
      · intro v hv v' hr _
        exact @Finished.rely start n (.replace r) v v' (.ok (.replaced i)) (hv.1 i rfl) hr
      · intro v hv v' hr _
        exact @Finished.rely start n (.replace r) v v' (.error err) (hv.2 err rfl) hr
    · refine Sharing.Does.mono (does_andThen _ (does_loadBounded t limit) (fun read => ?_) fun err => ?_)
        (fun _ _ => trivial) fun _ _ h => h
      · intro v hv v' hr _
        exact @Finished.rely start n (.load t limit) v v' (.ok (.loaded read.1 read.2))
          (hv read.1 read.2 rfl) hr
      · exact does_refused fun _ => trivial

/-- No call is under way. -/
structure Volume.Idle (v : Volume) : Prop where
  holder : ∀ i, v.holder i = none
  opened : v.opened = []
  history : v.history = []

abbrev Directory := Pool FileCommand FileCommand.Reply Volume Call (Except BoundaryError CallResult)

/-- The states any interleaving of calls gets to. -/
def DirectoryRun (v₀ : Volume) : Directory → Prop :=
  Reaches (· = ⟨v₀, fun _ => .waiting⟩) (Pool.Step (directory v₀.shelf) Call.body)

theorem DirectoryRun.sound {v₀ : Volume} (hidle : v₀.Idle) {d : Directory} (h : DirectoryRun v₀ d) :
    Shows v₀.shelf d.shared ∧
      ∀ n, (d.task n).Meets (directory v₀.shelf) Uncommitted (Finished v₀.shelf) d.shared n := by
  refine Pool.sound (directory_lawful _) (directory_specified _) (fun d hd => ?_) h
  subst hd
  have hempty := hidle.history
  refine ⟨⟨?_, ?_, ?_⟩, fun n => ⟨rfl, fun c hc => ?_⟩⟩
  · rw [hempty]
    rfl
  · rw [hempty]
    trivial
  · rw [hempty]
    exact List.nodup_nil
  · rw [hempty] at hc
    cases hc

/-- **Replacement is atomic.**  However any number of replacements and reads interleave, fail and are
    cut off, the targets of the directory go through a sequence of whole replacements, each made by
    the call it is booked on, at most once and where its expectation held.  Of two replacements of one
    target the later did not expect it missing; and if it expected a file, then some replacement from
    the earlier one on was given that file's identity.  A call that returned `Ok` is in the sequence
    with the identity it returned, and one that returned an error other than `Io` is not; a read that
    returned has the whole of a version of its target, within its limit. -/
theorem replacement_atomic {v₀ : Volume} (hidle : v₀.Idle) {d : Directory} (h : DirectoryRun v₀ d) :
    Shows v₀.shelf d.shared ∧
      (∀ c ∈ d.shared.history, (d.task c.call).job = some (.replace c.replacement)) ∧
      (∀ later between earlier c c', d.shared.history = later ++ (c' :: between ++ c :: earlier) →
        c.replacement.target = c'.replacement.target → c'.replacement.expected ≠ .missing ∧
          ∀ i, c'.replacement.expected = .matching i → ∃ again ∈ between ++ [c],
            again.replacement.target = c.replacement.target ∧ again.file = i) ∧
      ∀ n call result, d.task n = .returned call result →
        Finished v₀.shelf n call d.shared result := by
  obtain ⟨hshows, hmeets⟩ := h.sound hidle
  refine ⟨hshows, ?_, fun later between earlier c c' hhistory ht => ?_, fun n call result ht => ?_⟩
  · refine Pool.attributed Volume.history (fun c => (c.call, .replace c.replacement))
      (fun n call v c r v' hx e he => ?_) (fun _ _ _ he => he) (fun d hd => hd ▸ hidle.history) h
    cases hx with
    | renamed source target node hnode =>
        rcases List.mem_append.mp he with hnew | hold
        · rcases call with r | ⟨t, limit⟩
          · rw [List.mem_singleton.mp hnew]
            exact .inr rfl
          · cases hnew
        · exact .inl hold
    | _ => exact .inl he
  · have hchained : Chained v₀.shelf (c' :: between ++ c :: earlier) :=
      Chained.of_append (hhistory ▸ hshows.chained)
    exact ⟨hchained.created_once ht, fun i hi => hchained.one_winner ht hi⟩
  · have hmeet := hmeets n
    rw [ht] at hmeet
    exact hmeet

end Calls

/-! ## 6. A sample -/

namespace Sample

/-- A directory with the lock file of an earlier call and nothing else. -/
def empty : Volume where
  entries := Function.update (fun _ => none) replaceLockName (some ⟨.regular, ⟨1, 1⟩⟩)
  content _ := []
  holder _ := none
  opened := []
  history := []

def accounts : TargetName where
  name := "accounts.toml"
  notLock := by decide
  notTemporary := temporaryName_ne (by decide)

/-- The first save of a configuration. -/
def save : Replacement := ⟨accounts, .missing, [118, 49]⟩

def random : Bytes := List.replicate 16 7

theorem empty_entry {name : String} {node : Node} (h : empty.entries name = some node) :
    name = replaceLockName ∧ node = ⟨.regular, ⟨1, 1⟩⟩ := by
  by_cases hname : name = replaceLockName
  · subst hname
    exact ⟨rfl, (Option.some.inj h).symm⟩
  · rw [empty] at h
    dsimp only at h
    rw [Function.update_of_ne hname] at h
    cases h

theorem empty_missing {name : String} (h : name ≠ replaceLockName) : empty.entries name = none := by
  simp [empty, Function.update_of_ne h]

theorem empty_idle : empty.Idle := ⟨fun _ => rfl, rfl, rfl⟩

/-- Call 0 gets to `p` with the directory in `v`. -/
def Gets (v : Volume) (p : FileProgram CallResult) : Prop :=
  ∃ d : Directory, DirectoryRun empty d ∧ d.shared = v ∧ d.task 0 = .running (.replace save) p

theorem Gets.act {v v' : Volume} {c : FileCommand} {k : c.Reply → FileProgram CallResult}
    (h : Gets v (.issue c k)) (r : c.Reply) (hx : Exec 0 (.replace save) v c r v') : Gets v' (k r) := by
  obtain ⟨d, hd, rfl, ht⟩ := h
  exact ⟨_, hd.next (.act d 0 _ _ _ ht r v' hx), rfl, Function.update_self 0 _ d.task⟩

theorem Gets.start : Gets empty (Call.replace save).body := by
  have hstart : DirectoryRun empty ⟨empty, fun _ => .waiting⟩ := .start rfl
  exact ⟨_, hstart.next (.start _ 0 (.replace save) rfl), rfl, rfl⟩

theorem save_run : ∃ d, DirectoryRun empty d ∧
    d.task 0 = .returned (.replace save) (.ok (.replaced ⟨1, 2⟩)) := by
  have hlock : empty.entries replaceLockName = some ⟨.regular, ⟨1, 1⟩⟩ := rfl
  have hnone : empty.entries accounts.name = none := empty_missing accounts.notLock
  have hfresh : empty.Fresh ⟨1, 2⟩ := by
    refine ⟨fun name node h => ?_, fun m hm => by cases hm⟩
    rw [(empty_entry h).2]
    decide
  have h₂ := Gets.start.act _ (.lockOpened _ _ hlock (by decide))
  have h₃ := h₂.act _ (.metadata _ _)
  have h₄ := h₃.act _ (.permitted _ _)
  have h₅ := h₄.act _ (.locked _ _ rfl)
  have h₆ := h₅.act _ (.failed _ _ .notFound (fun _ => hnone))
  have h₇ := h₆.act _ (.failed _ _ .notFound trivial)
  have h₈ := h₇.act _ (.entropy _ random rfl)
  have h₉ := h₈.act _ (.created _ _ ⟨1, 2⟩ (empty_missing (temporaryName_ne_lock random)) hfresh)
  have htarget : accounts.name ≠ temporaryName random := accounts.notTemporary random
  have hunsaved : ∀ entry, Function.update empty.entries (temporaryName random) entry accounts.name = none :=
    fun entry => (Function.update_of_ne htarget entry empty.entries).trans hnone
  have hsaved : ∀ f : String → Option Node, Function.update (Function.update f accounts.name
      (some ⟨.regular, ⟨1, 2⟩⟩)) (temporaryName random) none accounts.name = some ⟨.regular, ⟨1, 2⟩⟩ :=
    fun f => (Function.update_of_ne htarget none _).trans (Function.update_self accounts.name _ f)
  have h₁₀ := h₉.act _ (.written _ _ _)
  have h₁₁ := h₁₀.act _ (.synced _ _)
  have h₁₂ := h₁₁.act _ (.failed _ _ .notFound fun _ => hunsaved (some ⟨.regular, ⟨1, 2⟩⟩))
  have h₁₃ := h₁₂.act _ (.failed _ _ .notFound trivial)
  have h₁₄ := h₁₃.act _ (.renamed _ _ _ ⟨.regular, ⟨1, 2⟩⟩
    (Function.update_self (temporaryName random) _ empty.entries))
  have h₁₅ := h₁₄.act _ (.parentSynced _)
  have h₁₆ := h₁₅.act _ (.opened _ _ ⟨.regular, ⟨1, 2⟩⟩ (hsaved (Function.update empty.entries
    (temporaryName random) (some ⟨.regular, ⟨1, 2⟩⟩))) (by decide))
  have h₁₇ := h₁₆.act _ (.metadata _ _)
  have h₁₈ := h₁₇.act _ (.closed _ _)
  obtain ⟨d, hd, -, ht⟩ := h₁₈
  exact ⟨_, hd.next (.finish d 0 _ (.ok (.replaced ⟨1, 2⟩)) ht), Function.update_self 0 _ d.task⟩

end Sample

/-- The saved file is the one replacement of the run. -/
theorem replacement_sample_run : ∃ d, DirectoryRun Sample.empty d ∧
    Shows Sample.empty.shelf d.shared ∧ ⟨0, Sample.save, ⟨1, 2⟩⟩ ∈ d.shared.history := by
  obtain ⟨d, hd, ht⟩ := Sample.save_run
  obtain ⟨hshows, -, -, hreturned⟩ := replacement_atomic Sample.empty_idle hd
  exact ⟨d, hd, hshows, hreturned 0 _ _ ht⟩

end Kirje.Local
