import Kirje.Core.Canonical

/-
  File:      Kirje/Core/Updates.lean
  Subject:   What an account update changes
             (crates/kirje-core/src/authorization.rs, account.rs).

  The manifest of an update compares the snapshots field by field, the exact text of
  a host included; the binding keeps the canonical host only.  An update that spells
  a host anew is therefore an update, and leaves the binding as it was.

  * `hostIdentity_of_endpoint`: a checked endpoint states the identity of its host.
  * **`account_update_binding`**: when two snapshots have one binding, and when an update
    changes it.
-/

namespace Kirje

open Base

/-! ## 1. The material of a snapshot -/

/-- The config that a snapshot is bound as. -/
def AccountSnapshot.config (s : AccountSnapshot) : MailAccountConfig where
  id := s.displayId
  email := s.email
  username := s.username
  incoming := endpointFromSnapshot s.incoming
  outgoing := s.outgoing.map endpointFromSnapshot
  credentialKind := s.credentialKind

/-- An endpoint up to the text its host was given in. -/
def EndpointSnapshot.canonical (e : EndpointSnapshot) : EndpointSnapshot :=
  { e with exactHost := e.canonicalHost }

/-- The texts the hosts of a snapshot were given in. -/
def AccountSnapshot.spelling (s : AccountSnapshot) : String × Option String :=
  (s.incoming.exactHost, s.outgoing.map EndpointSnapshot.exactHost)

/-- Two snapshots of one user at the same canonical endpoints. -/
structure SameMaterial (before after : AccountSnapshot) : Prop where
  email : before.email = after.email
  username : before.username = after.username
  credentialKind : before.credentialKind = after.credentialKind
  incoming : before.incoming.canonical = after.incoming.canonical
  outgoing : before.outgoing.map EndpointSnapshot.canonical =
    after.outgoing.map EndpointSnapshot.canonical

theorem EndpointSnapshot.eq_iff {e e' : EndpointSnapshot} :
    e = e' ↔ e.canonical = e'.canonical ∧ e.exactHost = e'.exactHost := by
  cases e
  cases e'
  simp only [canonical, EndpointSnapshot.mk.injEq]
  tauto

theorem outgoing_eq_iff {o o' : Option EndpointSnapshot} :
    o = o' ↔ o.map EndpointSnapshot.canonical = o'.map EndpointSnapshot.canonical ∧
      o.map EndpointSnapshot.exactHost = o'.map EndpointSnapshot.exactHost := by
  cases o with
  | none => cases o' <;> simp
  | some e =>
      cases o' with
      | none => simp
      | some e' =>
          simp only [Option.map_some, Option.some.injEq]
          exact EndpointSnapshot.eq_iff

/-- **The comparison of the code sees the material and its spelling.** -/
theorem accountBindingMaterialChanged_iff {before after : AccountSnapshot} :
    accountBindingMaterialChanged before after ↔
      ¬SameMaterial before after ∨ before.spelling ≠ after.spelling := by
  have hsame : SameMaterial before after ∧ before.spelling = after.spelling ↔
      before.email = after.email ∧ before.username = after.username ∧
        before.credentialKind = after.credentialKind ∧ before.incoming = after.incoming ∧
        before.outgoing = after.outgoing := by
    rw [EndpointSnapshot.eq_iff (e := before.incoming), outgoing_eq_iff]
    simp only [AccountSnapshot.spelling, Prod.mk.injEq]
    constructor
    · intro ⟨h, hin, hout⟩
      exact ⟨h.email, h.username, h.credentialKind, ⟨h.incoming, hin⟩, h.outgoing, hout⟩
    · intro ⟨h1, h2, h3, ⟨h4, hin⟩, h5, hout⟩
      exact ⟨⟨h1, h2, h3, h4, h5⟩, hin, hout⟩
  rw [← not_and_or, hsame]
  simp only [accountBindingMaterialChanged, Bool.or_eq_true, bne_iff_ne]
  tauto

/-! ## 2. Checked endpoints -/

section Checked

variable (env : Platform)

/-- No text is an address of both families. -/
def FamiliesApart : Prop := ∀ host text, env.parseIpv6 host = some text → env.parseIpv4 host = none

/-- The identity an endpoint states. -/
def statedIdentity (kind : HostKind) (canonicalHost : String) : HostIdentity :=
  match kind with
  | .dns => .name canonicalHost
  | .ipv4 => .address 2 canonicalHost
  | .ipv6 => .address 3 canonicalHost

theorem statedIdentity_inj {kind kind' : HostKind} {host host' : String} :
    statedIdentity kind host = statedIdentity kind' host' ↔ kind = kind' ∧ host = host' := by
  cases kind <;> cases kind' <;> simp [statedIdentity]

/-- A host that matches has the stated identity. -/
theorem hostIdentity_of_matches (hapart : FamiliesApart env) {e : EndpointSnapshot}
    (hmatch : canonicalMatches env e = true) :
    hostIdentity env e.exactHost = statedIdentity e.hostKind e.canonicalHost := by
  unfold canonicalMatches at hmatch
  unfold hostIdentity statedIdentity
  cases hk : e.hostKind with
  | dns =>
      simp only [hk, Bool.and_eq_true, Option.isNone_iff_eq_none, beq_iff_eq] at hmatch
      obtain ⟨⟨⟨hexact, -⟩, hlower⟩, heq⟩ := hmatch
      simp only [hexact, heq, ← hlower]
  | ipv4 =>
      simp only [hk, beq_iff_eq] at hmatch
      simp only [parseIpAddr, hmatch]
  | ipv6 =>
      simp only [hk, beq_iff_eq] at hmatch
      simp only [parseIpAddr, hapart _ _ hmatch, hmatch, Option.map_some]

/-- **The host of a checked endpoint has the stated identity.** -/
theorem hostIdentity_of_endpoint (hapart : FamiliesApart env) {e : EndpointSnapshot}
    (h : validateEndpoint env e = .ok ()) :
    hostIdentity env e.exactHost = statedIdentity e.hostKind e.canonicalHost := by
  simp only [validateEndpoint, bind_ok, ensure_ok] at h
  obtain ⟨_, -, hmatch⟩ := h
  exact hostIdentity_of_matches env hapart hmatch

/-- Checked endpoints have one material exactly when they are one up to spelling. -/
theorem endpointMaterial_of_snapshot (hapart : FamiliesApart env) {e e' : EndpointSnapshot}
    (h : validateEndpoint env e = .ok ()) (h' : validateEndpoint env e' = .ok ()) :
    endpointMaterial env (endpointFromSnapshot e) = endpointMaterial env (endpointFromSnapshot e') ↔
      e.canonical = e'.canonical := by
  cases e
  cases e'
  simp only [endpointMaterial, endpointFromSnapshot, EndpointMaterial.mk.injEq,
    hostIdentity_of_endpoint env hapart h, hostIdentity_of_endpoint env hapart h', statedIdentity_inj,
    EndpointSnapshot.canonical, EndpointSnapshot.mk.injEq]
  tauto

/-! ## 3. Checked snapshots -/

/-- What the checks of a snapshot leave standing about its binding. -/
structure SnapshotBound (s : AccountSnapshot) : Prop where
  incoming : validateEndpoint env s.incoming = .ok ()
  outgoing : ∀ e ∈ s.outgoing, validateEndpoint env e = .ok ()
  ready : BindingReady env s.config
  binding : accountBindingSha256 env s.config = .ok s.bindingSha256

theorem validateAccountSnapshot_bound {s : AccountSnapshot}
    (h : validateAccountSnapshot env s = .ok ()) : SnapshotBound env s := by
  simp only [validateAccountSnapshot, bind_ok, ensure_ok, checkAll_ok] at h
  obtain ⟨_, -, _, hin, _, -, _, hout, _, -, _, hvalid, binding, hbinding, rfl⟩ := h
  refine ⟨hin, fun e he => ?_, ?_, hbinding⟩
  · have he := hout e (by simpa using he)
    simp only [validateOutgoing, bind_ok] at he
    exact he.elim fun _ he => he.1
  · have hready := MailAccountConfig.bindingReady env hvalid
    exact ⟨hready.email, hready.username, hready.incoming, hready.outgoing⟩

/-- The digest of a checked snapshot is that of its binding. -/
theorem SnapshotBound.sha256 (hip : IpText env) {s : AccountSnapshot} (h : SnapshotBound env s) :
    s.bindingSha256 = (bindingOf env s.config).sha256 := by
  have hbinding := h.binding
  rw [accountBindingSha256_eq, AccountBinding.fromValidatedConfig_ok env hip h.ready] at hbinding
  exact (Except.ok.inj hbinding).symm

theorem AccountSnapshot.Typed.portsFit {s : AccountSnapshot} (h : s.Typed) : PortsFit s.config := by
  refine ⟨h.incoming, fun e he => ?_⟩
  obtain ⟨o, ho, rfl⟩ := Option.map_eq_some_iff.mp he
  exact h.outgoing o ho

/-- **Two checked snapshots have one binding exactly when they have the same material.** -/
theorem bindingOf_snapshot_iff (hip : IpText env) (hapart : FamiliesApart env)
    {before after : AccountSnapshot} (hb : SnapshotBound env before) (ha : SnapshotBound env after)
    (hbt : before.Typed) (hat : after.Typed) :
    (bindingOf env before.config).canonicalBytes = (bindingOf env after.config).canonicalBytes ↔
      SameMaterial before after := by
  rw [bindingOf_eq_iff env hip hb.ready ha.ready hbt.portsFit hat.portsFit]
  have hin := endpointMaterial_of_snapshot env hapart hb.incoming ha.incoming
  have hout : (before.outgoing.map endpointFromSnapshot).map (endpointMaterial env) =
      (after.outgoing.map endpointFromSnapshot).map (endpointMaterial env) ↔
        before.outgoing.map EndpointSnapshot.canonical =
          after.outgoing.map EndpointSnapshot.canonical := by
    cases hob : before.outgoing with
    | none => cases after.outgoing <;> simp
    | some e =>
        cases hoa : after.outgoing with
        | none => simp
        | some e' =>
            simpa using endpointMaterial_of_snapshot env hapart (hb.outgoing e hob) (ha.outgoing e' hoa)
  simp only [connectionMaterial, AccountSnapshot.config, ConnectionMaterial.mk.injEq, hin, hout]
  constructor
  · intro h
    obtain ⟨h1, h2, h3, h4, h5⟩ := h
    exact ⟨h1, h2, h3, h4, h5⟩
  · intro h
    exact ⟨h.email, h.username, h.credentialKind, h.incoming, h.outgoing⟩

/-- The checks of the snapshots of an accepted update. -/
theorem accountUpdate_bound {codec : ManifestCodec} {context : ManifestContext}
    {value : AccountMutationManifest} {m : ActionManifest} {before after : AccountSnapshot}
    (h : ActionManifest.new env codec context (.accountUpdate value) = .ok m)
    (hb : value.before = some before) (ha : value.after = some after) :
    SnapshotBound env before ∧ SnapshotBound env after := by
  obtain ⟨-, hpayload, -⟩ := ActionManifest.new_ok.mp h
  obtain ⟨_, hok⟩ := validateAccountMutationContext_ok env hpayload
  exact ⟨validateAccountSnapshot_bound env (hok.before_ok before hb),
    validateAccountSnapshot_bound env (hok.after_ok after ha)⟩

end Checked

/-- **What an update changes.**  Two checked snapshots have one binding exactly when they agree in email,
    user name, credential kind and both endpoints up to the text of their hosts, a difference the
    comparison of the code sees as well.  An accepted update keeps the digest in that case, and changes
    it in every other one unless the two transcripts collide. -/
theorem account_update_binding {env : Platform} (hip : IpText env) (hapart : FamiliesApart env) :
    (∀ before after : AccountSnapshot, validateAccountSnapshot env before = .ok () →
      validateAccountSnapshot env after = .ok () → before.Typed → after.Typed →
        ∃ A B, AccountBinding.fromValidatedConfig env before.config = .ok A ∧
          AccountBinding.fromValidatedConfig env after.config = .ok B ∧
          (A.canonicalBytes ≠ B.canonicalBytes ↔ ¬SameMaterial before after) ∧
          (accountBindingMaterialChanged before after ↔
            A.canonicalBytes ≠ B.canonicalBytes ∨ before.spelling ≠ after.spelling)) ∧
      ∀ (codec : ManifestCodec) (context : ManifestContext) (value : AccountMutationManifest)
        (m : ActionManifest) (before after : AccountSnapshot),
        ActionManifest.new env codec context (.accountUpdate value) = .ok m → value.Typed →
          value.before = some before → value.after = some after →
          (env.sha256 (bindingOf env before.config).canonicalBytes =
              env.sha256 (bindingOf env after.config).canonicalBytes →
            (bindingOf env before.config).canonicalBytes =
              (bindingOf env after.config).canonicalBytes) →
            (before.bindingSha256 ≠ after.bindingSha256 ↔ ¬SameMaterial before after) := by
  constructor
  · intro before after hb ha hbt hat
    have hb := validateAccountSnapshot_bound env hb
    have ha := validateAccountSnapshot_bound env ha
    have hiff := bindingOf_snapshot_iff env hip hapart hb ha hbt hat
    refine ⟨_, _, AccountBinding.fromValidatedConfig_ok env hip hb.ready,
      AccountBinding.fromValidatedConfig_ok env hip ha.ready, not_congr hiff, ?_⟩
    rw [accountBindingMaterialChanged_iff, ← hiff]
  · intro codec context value m before after h ht hb ha hfree
    obtain ⟨hbb, hab⟩ := accountUpdate_bound env h hb ha
    have hiff := bindingOf_snapshot_iff env hip hapart hbb hab (ht.before before hb) (ht.after after ha)
    rw [hbb.sha256 env hip, hab.sha256 env hip, ← hiff, not_iff_not]
    exact ⟨hfree, fun heq => congrArg env.sha256 heq⟩

namespace UpdateSample

open BindingSample (platform)
open ManifestSample (uuid digest one two cas account)

/-- The account after an update, at a host. -/
def updated (host : String) : AccountSnapshot :=
  { account with
    generation := two
    credentialId := uuid 72
    bindingState := .authorized
    incoming := ⟨.imap, host, .dns, "m.fi", 993, .implicitTls⟩ }

/-- The update of the host of an account. -/
def update (host : String) : ManifestContext × ManifestPayload :=
  (⟨.account (uuid 70), some (uuid 40), some (uuid 70), some (digest 0), none, none⟩,
    .accountUpdate ⟨uuid 83, cas, some account, some (updated host), two, digest 44, []⟩)

theorem platform_apart : FamiliesApart platform := by
  intro host text h
  simp only [platform] at h ⊢
  split at h
  · rename_i h6
    have h4 : host ≠ "192.0.2.1" := by
      intro heq
      rw [heq] at h6
      revert h6
      decide
    rw [if_neg h4]
  · cases h

theorem account_typed : account.Typed := ⟨by decide, (by decide : 993 < 2 ^ 16), fun e he => by cases he⟩

theorem updated_typed {host : String} : (updated host).Typed :=
  ⟨(by decide : 1 < 2 ^ 16), (by decide : 993 < 2 ^ 16), fun e he => by cases he⟩

theorem built_respelled : ∃ m, ManifestSample.built (update "M.fi") = .ok m :=
  exists_ok_of_isSome (by decide +kernel)

/-- The two spellings of the host have one binding. -/
theorem respelled_material : (bindingOf platform account.config).canonicalBytes =
    (bindingOf platform (updated "M.fi").config).canonicalBytes := by
  have hfields : fieldsOf platform account.config = fieldsOf platform (updated "M.fi").config := by
    decide
  exact congrArg (fieldBytes _) hfields

end UpdateSample

open UpdateSample in
/-- The update of a host to another spelling. -/
theorem account_update_binding_sample : ∃ m, ManifestSample.built (update "M.fi") = .ok m ∧
    (ManifestSample.account.bindingSha256 ≠ (updated "M.fi").bindingSha256 ↔
      ¬SameMaterial ManifestSample.account (updated "M.fi")) := by
  obtain ⟨m, hm⟩ := built_respelled
  have htyped : (update "M.fi").2.Typed :=
    ⟨fun s hs => Option.mem_some_iff.mp hs ▸ account_typed, fun s hs => Option.mem_some_iff.mp hs ▸ updated_typed⟩
  obtain ⟨-, hupdate⟩ := account_update_binding BindingSample.platform_ipText platform_apart
  exact ⟨m, hm, hupdate _ _ _ m _ _ hm htyped rfl rfl fun _ => respelled_material⟩

open UpdateSample in
/-- **An update that spells the host anew is accepted, and its snapshots have one binding.** -/
theorem respelled_update_keeps_binding : ∃ m, ManifestSample.built (update "M.fi") = .ok m ∧
    (bindingOf BindingSample.platform ManifestSample.account.config).canonicalBytes =
      (bindingOf BindingSample.platform (updated "M.fi").config).canonicalBytes ∧
    ManifestSample.account.bindingSha256 = (updated "M.fi").bindingSha256 ∧
    accountBindingMaterialChanged ManifestSample.account (updated "M.fi") = true := by
  obtain ⟨m, hm⟩ := built_respelled
  exact ⟨m, hm, respelled_material, rfl, by decide⟩

end Kirje
