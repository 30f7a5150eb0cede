import Kirje.Core.Codec

/-
  File:      Kirje/Core/Binding.lean
  Subject:   Account bindings: `AccountBinding::from_config`
             (crates/kirje-core/src/account.rs), the transcript of the endpoints and
             the user that a credential was entered for.

  * `hostIdentity`: what the transcript keeps of a host, an address in its canonical
    text or a name in lower case.
  * **`account_binding_identifies`**: every config that `validate` accepts has a
    binding, and two of them have the same bytes exactly when they have the same
    connection material (`connectionMaterial`).
-/

namespace Kirje

open Base

/-! ## 1. Transcripts of tagged values -/

/-- **A transcript determines its fields.** -/
theorem fieldBytes_injective {domain : Bytes} {fields fields' : List (Nat × Bytes)}
    (hn : fields.length ≤ 256) (hn' : fields'.length ≤ 256)
    (ht : (fields.map Prod.fst).Pairwise (· < ·)) (ht' : (fields'.map Prod.fst).Pairwise (· < ·))
    (hf : ∀ f ∈ fields, Fits f) (hf' : ∀ f ∈ fields', Fits f)
    (h : fieldBytes domain fields = fieldBytes domain fields') : fields = fields' := by
  have hread := @parseFieldsAny_fieldBytes domain fields hn ht hf
  rw [h, parseFieldsAny_fieldBytes hn' ht' hf'] at hread
  exact (Except.ok.inj hread).symm

/-! ## 2. The binding -/

/-- `AccountBinding`. -/
structure AccountBinding where
  canonicalBytes : Bytes
  sha256 : Digest
  deriving DecidableEq, Repr

variable (env : Platform)

/-- The fields of the transcript, from the host bytes of both endpoints. -/
def bindingFields (config : MailAccountConfig) (incoming outgoing : Bytes) : List (Nat × Bytes) :=
  [(0x0001, utf8 config.email), (0x0002, utf8 config.username),
    (0x0003, be 1 (credentialKindCode config.credentialKind)),
    (0x0010, be 1 (protocolCode config.incoming.protocol)), (0x0011, incoming),
    (0x0012, be 2 config.incoming.port),
    (0x0013, be 1 (securityCode config.incoming.security)),
    (0x0020, be 1 (if config.outgoing.isSome then 1 else 0)),
    (0x0021, (config.outgoing.map fun e => be 1 (protocolCode e.protocol)).getD []),
    (0x0022, outgoing),
    (0x0023, (config.outgoing.map fun e => be 2 e.port).getD []),
    (0x0024, (config.outgoing.map fun e => be 1 (securityCode e.security)).getD [])]

/-- `AccountBinding::from_validated_config`. -/
def AccountBinding.fromValidatedConfig (config : MailAccountConfig) : Result AccountBinding := do
  let incoming ← normalizedHostBytes env config.incoming.host
  let outgoing ← config.outgoing.elim (pure []) fun e => normalizedHostBytes env e.host
  let bytes ← encodeFields (ascii "KIRJE-ACCOUNT-BINDING-V1\x00")
    (bindingFields config incoming outgoing)
  pure ⟨bytes, env.sha256 bytes⟩

/-- `AccountBinding::from_config`. -/
def AccountBinding.fromConfig (config : MailAccountConfig) : Result AccountBinding := do
  config.validate env.mail
  AccountBinding.fromValidatedConfig env config

/-- The digest that account snapshots are checked against is that of the binding. -/
theorem accountBindingSha256_eq (config : MailAccountConfig) :
    accountBindingSha256 env config =
      (AccountBinding.fromValidatedConfig env config).map AccountBinding.sha256 := by
  unfold accountBindingSha256 AccountBinding.fromValidatedConfig bindingFields
  cases normalizedHostBytes env config.incoming.host with
  | error e => rfl
  | ok incoming =>
      cases config.outgoing.elim (pure []) fun e => normalizedHostBytes env e.host with
      | error e => rfl
      | ok outgoing =>
          simp only [bind, Except.bind]
          split <;> rfl

/-! ## 3. The connection material -/

/-- A host after normalization: an address of a family in its canonical text, or a DNS name. -/
inductive HostIdentity where
  | address (family : Nat) (text : String)
  | name (lowered : String)
  deriving DecidableEq, Repr

def hostIdentity (host : String) : HostIdentity :=
  match parseIpAddr env host with
  | some (family, text) => .address family text
  | none => .name (toAsciiLowercase host)

/-- An endpoint up to the spelling of its host. -/
structure EndpointMaterial where
  protocol : Protocol
  host : HostIdentity
  port : Nat
  security : TransportSecurity
  deriving DecidableEq, Repr

def endpointMaterial (e : Endpoint) : EndpointMaterial :=
  ⟨e.protocol, hostIdentity env e.host, e.port, e.security⟩

/-- What a binding identifies; the account id is no part of it. -/
structure ConnectionMaterial where
  email : String
  username : String
  credentialKind : CredentialKind
  incoming : EndpointMaterial
  outgoing : Option EndpointMaterial
  deriving DecidableEq, Repr

def connectionMaterial (config : MailAccountConfig) : ConnectionMaterial where
  email := config.email
  username := config.username
  credentialKind := config.credentialKind
  incoming := endpointMaterial env config.incoming
  outgoing := config.outgoing.map (endpointMaterial env)

/-- What the address types of `std::net` guarantee: both parsers are one, and the text of an
    address reads back as the address and has at most 45 bytes. -/
structure IpText : Prop where
  parse : ∀ host, env.mail.parseIpAddr host = (parseIpAddr env host).isSome
  text : ∀ host family text, parseIpAddr env host = some (family, text) →
    parseIpAddr env text = some (family, text) ∧ text.utf8ByteSize ≤ 45

/-- The ports of a config are 16-bit numbers. -/
def PortsFit (config : MailAccountConfig) : Prop :=
  config.incoming.port < 2 ^ 16 ∧ ∀ e ∈ config.outgoing, e.port < 2 ^ 16

/-! ## 4. Host bytes -/

/-- What `normalized_host_bytes` writes: the family, or 1, and the text. -/
def HostIdentity.bytes : HostIdentity → Bytes
  | .address family text => be 1 family ++ utf8 text
  | .name lowered => be 1 1 ++ utf8 lowered

theorem parseIpAddr_family {host text : String} {family : Nat}
    (h : parseIpAddr env host = some (family, text)) : family = 2 ∨ family = 3 := by
  unfold parseIpAddr at h
  split at h
  · left
    exact (congrArg Prod.fst (Option.some.inj h)).symm
  · right
    obtain ⟨_, -, heq⟩ := Option.map_eq_some_iff.mp h
    exact (congrArg Prod.fst heq).symm

/-- **Host bytes determine the host.** -/
theorem hostIdentity_bytes_injective {host host' : String}
    (h : (hostIdentity env host).bytes = (hostIdentity env host').bytes) :
    hostIdentity env host = hostIdentity env host' := by
  have hsplit : ∀ {f f' : Nat} {s s' : String}, f < 256 → f' < 256 →
      be 1 f ++ utf8 s = be 1 f' ++ utf8 s' → f = f' ∧ s = s' := by
    intro f f' s s' hf hf' heq
    obtain ⟨hfam, htext⟩ := List.append_inj heq (by rw [length_be, length_be])
    exact ⟨be_injective (by omega) (by omega) hfam, utf8_injective htext⟩
  unfold hostIdentity at h ⊢
  cases hp : parseIpAddr env host with
  | none =>
      cases hp' : parseIpAddr env host' with
      | none =>
          rw [hp, hp'] at h
          rw [(hsplit (by omega) (by omega) h).2]
      | some x =>
          obtain ⟨f', t'⟩ := x
          have hfam := parseIpAddr_family env hp'
          rw [hp, hp'] at h
          have := (hsplit (by omega) (by omega) h).1
          omega
  | some x =>
      obtain ⟨f, t⟩ := x
      have hfam := parseIpAddr_family env hp
      cases hp' : parseIpAddr env host' with
      | none =>
          rw [hp, hp'] at h
          have := (hsplit (by omega) (by omega) h).1
          omega
      | some x =>
          obtain ⟨f', t'⟩ := x
          have hfam' := parseIpAddr_family env hp'
          rw [hp, hp'] at h
          obtain ⟨rfl, rfl⟩ := hsplit (by omega) (by omega) h
          rfl

/-- A character of a text split at a separator is the separator or in a part. -/
theorem mem_splitOn {sep c : Char} {text : List Char} (h : c ∈ text) :
    c = sep ∨ ∃ part ∈ text.splitOn sep, c ∈ part := by
  have hmem : ∀ parts : List (List Char), c ∈ [sep].intercalate parts →
      c = sep ∨ ∃ part ∈ parts, c ∈ part := by
    intro parts hc
    induction parts with
    | nil => simp at hc
    | cons part parts ih =>
        cases parts with
        | nil =>
            rw [List.intercalate_singleton] at hc
            exact Or.inr ⟨part, List.mem_cons_self, hc⟩
        | cons next rest =>
            rw [List.intercalate_cons_cons] at hc
            simp only [List.mem_append, List.mem_singleton] at hc
            rcases hc with (hc | hc) | hc
            · exact Or.inr ⟨part, List.mem_cons_self, hc⟩
            · exact Or.inl hc
            · rcases ih hc with hsep | ⟨p, hp, hcp⟩
              · exact Or.inl hsep
              · exact Or.inr ⟨p, List.mem_cons_of_mem _ hp, hcp⟩
  exact hmem _ (by rwa [List.intercalate_splitOn])

theorem isAlphanum_lt {c : Char} (h : c.isAlphanum = true) : c.toNat < 128 := by
  have hrange := isAlphanum_toNat h
  omega

/-- A host that passed its checks and is no address has ASCII labels. -/
theorem validHost_ascii {host : String} (h : validHost env.mail host = true)
    (hip : env.mail.parseIpAddr host = false) : isAsciiText host = true := by
  unfold validHost at h
  split at h
  · cases h
  · rw [hip, if_neg (by decide), List.all_eq_true] at h
    rw [isAsciiText, List.all_eq_true]
    intro c hc
    rw [decide_eq_true_eq]
    rcases @mem_splitOn '.' c host.toList hc with rfl | ⟨part, hpart, hcp⟩
    · decide
    · have hlabel := h part hpart
      simp only [Bool.and_eq_true, List.all_eq_true, Bool.or_eq_true, beq_iff_eq] at hlabel
      rcases hlabel.1.1.2 c hcp with hal | rfl
      · exact isAlphanum_lt hal
      · decide

theorem validHost_size {host : String} (h : validHost env.mail host = true) :
    host.utf8ByteSize ≤ 253 := by
  unfold validHost at h
  split at h
  · cases h
  · rename_i hno
    simp only [Bool.or_eq_true, decide_eq_true_eq, not_or] at hno
    omega

/-- A text in lower case has at most four bytes for each byte of the text. -/
theorem utf8_toAsciiLowercase_le (s : String) :
    (utf8 (toAsciiLowercase s)).length ≤ 4 * (utf8 s).length := by
  have hbytes : ∀ cs : List Char, (cs.flatMap String.utf8EncodeChar).length =
      (cs.map Char.utf8Size).sum := by
    intro cs
    simp [List.length_flatMap]
  rw [utf8, utf8, toAsciiLowercase, String.toList_ofList, hbytes, hbytes]
  induction s.toList with
  | nil => simp
  | cons c cs ih =>
      have hle := Char.utf8Size_le_four c.toLower
      have hpos := Char.utf8Size_pos c
      simp only [List.map_cons, List.sum_cons]
      omega

/-- **The host of a checked endpoint has its bytes**, and they fit a field. -/
theorem normalizedHostBytes_ok (hip : IpText env) {host : String}
    (h : validHost env.mail host = true) :
    normalizedHostBytes env host = .ok (hostIdentity env host).bytes ∧
      (hostIdentity env host).bytes.length < 2 ^ 32 := by
  have hsize := validHost_size env h
  unfold normalizedHostBytes hostIdentity
  cases hp : parseIpAddr env host with
  | none =>
      have hno : env.mail.parseIpAddr host = false := by rw [hip.parse, hp]; rfl
      have hlow := utf8_toAsciiLowercase_le host
      rw [length_utf8 host] at hlow
      constructor
      · simp only [bind_ok, ensure_ok, pure_ok]
        exact ⟨(), validHost_ascii env h hno, rfl⟩
      · simp only [HostIdentity.bytes, List.length_append, length_be]
        omega
  | some x =>
      obtain ⟨family, text⟩ := x
      have hshort := (hip.text host family text hp).2
      refine ⟨rfl, ?_⟩
      simp only [HostIdentity.bytes, List.length_append, length_be, length_utf8]
      omega

/-! ## 5. The binding of a checked config -/

/-- What `validate` says of the fields of the transcript. -/
structure BindingReady (config : MailAccountConfig) : Prop where
  email : config.email.utf8ByteSize ≤ 320
  username : config.username.utf8ByteSize ≤ 1024
  incoming : validHost env.mail config.incoming.host = true
  outgoing : ∀ e ∈ config.outgoing, validHost env.mail e.host = true

theorem MailAccountConfig.bindingReady {config : MailAccountConfig}
    (h : config.validate env.mail = .ok ()) : BindingReady env config := by
  obtain ⟨id, email, username, incoming, outgoing, kind⟩ := config
  simp only [MailAccountConfig.validate, bind_ok, ensure_ok, orRefuse_ok] at h
  obtain ⟨_, -, ⟨_, _⟩, -, _, hemail, _, huser, _, -, _, hin, _, -, hout⟩ := h
  simp only [Bool.or_eq_true, decide_eq_true_eq, not_or] at hemail huser
  refine ⟨by show email.utf8ByteSize ≤ 320; omega, by show username.utf8ByteSize ≤ 1024; omega,
    hin.1, fun e he => ?_⟩
  obtain rfl : outgoing = some e := he
  simp only [bind_ok, ensure_ok] at hout
  obtain ⟨_, -, _, hhost, -⟩ := hout
  exact hhost.1

/-- The host bytes of the outgoing endpoint, empty where there is none. -/
def outgoingBytes (config : MailAccountConfig) : Bytes :=
  (config.outgoing.map fun e => (hostIdentity env e.host).bytes).getD []

/-- The fields of the transcript of a checked config. -/
def fieldsOf (config : MailAccountConfig) : List (Nat × Bytes) :=
  bindingFields config (hostIdentity env config.incoming.host).bytes (outgoingBytes env config)

theorem fieldsOf_tags (config : MailAccountConfig) :
    ((fieldsOf env config).map Prod.fst).Pairwise (· < ·) := by
  show ([0x0001, 0x0002, 0x0003, 0x0010, 0x0011, 0x0012, 0x0013, 0x0020, 0x0021, 0x0022, 0x0023,
    0x0024] : List Nat).Pairwise (· < ·)
  decide

theorem fieldsOf_length (config : MailAccountConfig) : (fieldsOf env config).length = 12 := rfl

theorem fieldsOf_fits (hip : IpText env) {config : MailAccountConfig}
    (h : BindingReady env config) : ∀ f ∈ fieldsOf env config, Fits f := by
  have hemail := h.email
  have huser := h.username
  have hin := (normalizedHostBytes_ok env hip h.incoming).2
  have hcode : ∀ (n : Nat) (o : Option Endpoint) (f : Endpoint → Bytes), (∀ e, (f e).length = n) →
      ((o.map f).getD []).length ≤ n := by
    intro n o f hf
    cases o with
    | none => exact Nat.zero_le n
    | some e => exact le_of_eq (hf e)
  have hout : (outgoingBytes env config).length < 2 ^ 32 := by
    unfold outgoingBytes
    cases ho : config.outgoing with
    | none => simp
    | some e => exact (normalizedHostBytes_ok env hip (h.outgoing e ho)).2
  have h1 := hcode 1 config.outgoing (fun e => be 1 (protocolCode e.protocol)) fun e => length_be _ _
  have h2 := hcode 2 config.outgoing (fun e => be 2 e.port) fun e => length_be _ _
  have h3 := hcode 1 config.outgoing (fun e => be 1 (securityCode e.security)) fun e => length_be _ _
  simp only [fieldsOf, bindingFields, List.forall_mem_cons, Fits, length_be, length_utf8]
  refine ⟨?_, ?_, ?_, ?_, ?_, ?_, ?_, ?_, ?_, ?_, ?_, ?_, fun f hf => absurd hf List.not_mem_nil⟩ <;>
    exact ⟨by omega, by omega⟩

/-- The binding of a config. -/
def bindingOf (config : MailAccountConfig) : AccountBinding :=
  ⟨fieldBytes (ascii "KIRJE-ACCOUNT-BINDING-V1\x00") (fieldsOf env config),
    env.sha256 (fieldBytes (ascii "KIRJE-ACCOUNT-BINDING-V1\x00") (fieldsOf env config))⟩

/-- A config whose fields fit has a binding, whatever its credential kind. -/
theorem AccountBinding.fromValidatedConfig_ok (hip : IpText env) {config : MailAccountConfig}
    (hready : BindingReady env config) :
    AccountBinding.fromValidatedConfig env config = .ok (bindingOf env config) := by
  have hout : (config.outgoing.elim (pure []) fun e => normalizedHostBytes env e.host) =
      .ok (outgoingBytes env config) := by
    unfold outgoingBytes
    cases ho : config.outgoing with
    | none => rfl
    | some e => exact (normalizedHostBytes_ok env hip (hready.outgoing e ho)).1
  have hfits := fieldsOf_fits env hip hready
  have hbytes := @encodeFields_ok (ascii "KIRJE-ACCOUNT-BINDING-V1\x00") (fieldsOf env config)
    (by rw [fieldsOf_length]; decide) (fieldsOf_tags env config) fun f hf => (hfits f hf).2
  unfold AccountBinding.fromValidatedConfig
  simp only [bind_ok, pure_ok]
  exact ⟨_, (normalizedHostBytes_ok env hip hready.incoming).1, _, hout, _, hbytes, rfl⟩

/-- **Every checked config has a binding.** -/
theorem AccountBinding.fromConfig_ok (hip : IpText env) {config : MailAccountConfig}
    (h : config.validate env.mail = .ok ()) :
    AccountBinding.fromConfig env config = .ok (bindingOf env config) := by
  unfold AccountBinding.fromConfig
  rw [bind_ok]
  exact ⟨(), h, AccountBinding.fromValidatedConfig_ok env hip (config.bindingReady env h)⟩

/-! ## 6. What a binding identifies -/

theorem credentialKindCode_injective : Function.Injective credentialKindCode := by
  intro a b h
  cases a <;> cases b <;> first | rfl | cases h

theorem protocolCode_injective : Function.Injective protocolCode := by
  intro a b h
  cases a <;> cases b <;> first | rfl | cases h

theorem securityCode_injective : Function.Injective securityCode := by
  intro a b h
  cases a <;> cases b <;> first | rfl | cases h

/-- A code of one byte. -/
theorem be_one_inj {α : Type} {code : α → Nat} (hcode : Function.Injective code)
    (hlt : ∀ a, code a < 256) {a b : α} : be 1 (code a) = be 1 (code b) ↔ a = b := by
  constructor
  · intro h
    exact hcode (be_injective (hlt a) (hlt b) h)
  · rintro rfl
    rfl

theorem protocolCode_lt (p : Protocol) : protocolCode p < 256 := by
  cases p <;> decide

theorem securityCode_lt (s : TransportSecurity) : securityCode s < 256 := by
  cases s <;> decide

theorem credentialKindCode_lt (k : CredentialKind) : credentialKindCode k < 256 := by
  cases k <;> decide

/-- The four fields of an endpoint determine its material. -/
theorem endpointMaterial_eq_iff {e e' : Endpoint} (hp : e.port < 2 ^ 16) (hp' : e'.port < 2 ^ 16) :
    (be 1 (protocolCode e.protocol) = be 1 (protocolCode e'.protocol) ∧
      (hostIdentity env e.host).bytes = (hostIdentity env e'.host).bytes ∧
      be 2 e.port = be 2 e'.port ∧ be 1 (securityCode e.security) = be 1 (securityCode e'.security)) ↔
      endpointMaterial env e = endpointMaterial env e' := by
  rw [be_one_inj protocolCode_injective protocolCode_lt,
    be_one_inj securityCode_injective securityCode_lt]
  simp only [endpointMaterial, EndpointMaterial.mk.injEq]
  constructor
  · rintro ⟨hprot, hhost, hport, hsec⟩
    exact ⟨hprot, hostIdentity_bytes_injective env hhost, be_injective (by omega) (by omega) hport,
      hsec⟩
  · rintro ⟨hprot, hhost, hport, hsec⟩
    exact ⟨hprot, by rw [hhost], by rw [hport], hsec⟩

/-- **The fields of the transcript determine the connection material, and it them.** -/
theorem fieldsOf_eq_iff {a b : MailAccountConfig} (ha : PortsFit a) (hb : PortsFit b) :
    fieldsOf env a = fieldsOf env b ↔ connectionMaterial env a = connectionMaterial env b := by
  have hin := endpointMaterial_eq_iff env ha.1 hb.1
  have hkind := @be_one_inj _ _ credentialKindCode_injective credentialKindCode_lt
    a.credentialKind b.credentialKind
  simp only [fieldsOf, bindingFields, connectionMaterial, ConnectionMaterial.mk.injEq, List.cons.injEq,
    Prod.mk.injEq, true_and, and_true, hkind, utf8_injective.eq_iff, ← hin]
  cases hoa : a.outgoing with
  | none =>
      cases hob : b.outgoing with
      | none => simp [outgoingBytes, hoa, hob]
      | some e' =>
          have hne : be 1 0 ≠ be 1 1 := by decide
          simp [hne]
  | some e =>
      cases hob : b.outgoing with
      | none =>
          have hne : be 1 1 ≠ be 1 0 := by decide
          simp [hne]
      | some e' =>
          have hout := endpointMaterial_eq_iff env (ha.2 e hoa) (hb.2 e' hob)
          simp only [outgoingBytes, hoa, hob, Option.map_some, Option.getD_some, Option.isSome_some,
            true_and, Option.some.injEq, ← hout]
          tauto

/-- **Two bindings have the same bytes exactly when their configs have the same material.** -/
theorem bindingOf_eq_iff (hip : IpText env) {a b : MailAccountConfig} (ha : BindingReady env a)
    (hb : BindingReady env b) (hpa : PortsFit a) (hpb : PortsFit b) :
    (bindingOf env a).canonicalBytes = (bindingOf env b).canonicalBytes ↔
      connectionMaterial env a = connectionMaterial env b := by
  rw [← fieldsOf_eq_iff env hpa hpb]
  constructor
  · intro h
    have hlen : ∀ config, (fieldsOf env config).length ≤ 256 := fun config => by
      rw [fieldsOf_length]
      decide
    exact fieldBytes_injective (hlen a) (hlen b) (fieldsOf_tags env a) (fieldsOf_tags env b)
      (fieldsOf_fits env hip ha) (fieldsOf_fits env hip hb) h
  · intro h
    exact congrArg (fieldBytes _) h

/-- **Account bindings.**  Every config that `validate` accepts has a binding, which no other account
    id changes.  Two of them have the same bytes exactly when they have the same connection material:
    email, user name, credential kind, and each endpoint up to the spelling of its host. -/
theorem account_binding_identifies (hip : IpText env) {a b : MailAccountConfig}
    (ha : a.validate env.mail = .ok ()) (hb : b.validate env.mail = .ok ())
    (hpa : PortsFit a) (hpb : PortsFit b) :
    ∃ A B, AccountBinding.fromConfig env a = .ok A ∧ AccountBinding.fromConfig env b = .ok B ∧
      (A.canonicalBytes = B.canonicalBytes ↔ connectionMaterial env a = connectionMaterial env b) ∧
      ∀ id, validAccountId id → AccountBinding.fromConfig env { a with id := id } = .ok A := by
  have hA := AccountBinding.fromConfig_ok env hip ha
  have hB := AccountBinding.fromConfig_ok env hip hb
  refine ⟨_, _, hA, hB, ?_, fun id hid => ?_⟩
  · exact bindingOf_eq_iff env hip (a.bindingReady env ha) (b.bindingReady env hb) hpa hpb
  · have hid' : ({ a with id := id } : MailAccountConfig).validate env.mail = .ok () := by
      obtain ⟨aid, email, username, incoming, outgoing, kind⟩ := a
      simp only [MailAccountConfig.validate, bind_ok, ensure_ok] at ha ⊢
      obtain ⟨u, -, hrest⟩ := ha
      exact ⟨u, hid, hrest⟩
    exact AccountBinding.fromConfig_ok env hip hid'

namespace BindingSample

/-- Two addresses, one of each family, and another spelling of the second. -/
def platform : Platform where
  sha256 _ := ⟨List.replicate 32 0, rfl⟩
  isPoint _ := true
  isWeak _ := false
  verifyStrict _ _ _ := true
  parseIpv4 host := if host = "192.0.2.1" then some "192.0.2.1" else none
  parseIpv6 host := if host = "2001:db8::1" ∨ host = "2001:DB8:0::1" then some "2001:db8::1" else none
  mail := {
    payloadDigest := fun _ => ""
    bytesDigest := fun _ => ""
    timestamp := fun _ => ""
    parseTimestamp := fun _ => none
    parseUuid := fun _ => false
    sendRequest := ⟨fun _ => none, fun _ => none⟩
    mailOperation := ⟨fun _ => none, fun _ => none⟩
    mailError := ⟨fun _ => none, fun _ => none⟩
    sendReceipt := ⟨fun _ => none, fun _ => none⟩
    mailReceipt := ⟨fun _ => none, fun _ => none⟩
    base64 := fun _ => none
    utf8 := fun _ => none
    parseIpAddr := fun host => host = "192.0.2.1" ∨ host = "2001:db8::1" ∨ host = "2001:DB8:0::1" }

theorem platform_ipText : IpText platform := by
  constructor
  · intro host
    simp only [platform, parseIpAddr]
    by_cases h4 : host = "192.0.2.1"
    · simp [h4]
    · by_cases h6 : host = "2001:db8::1" ∨ host = "2001:DB8:0::1" <;> simp [h4, h6]
  · intro host family text h
    simp only [platform, parseIpAddr] at h ⊢
    by_cases h4 : host = "192.0.2.1"
    · simp only [h4, if_true, Option.some.injEq, Prod.mk.injEq] at h
      obtain ⟨rfl, rfl⟩ := h
      exact ⟨by decide, by decide⟩
    · by_cases h6 : host = "2001:db8::1" ∨ host = "2001:DB8:0::1"
      · simp only [h4, h6, if_false, if_true, Option.map_some, Option.some.injEq, Prod.mk.injEq] at h
        obtain ⟨rfl, rfl⟩ := h
        exact ⟨by decide, by decide⟩
      · simp [h4, h6] at h

def account (id host : String) : MailAccountConfig where
  id := id
  email := "agent@example.com"
  username := "agent@example.com"
  incoming := ⟨.imap, host, 993, .implicitTls⟩
  outgoing := none
  credentialKind := .appPassword

end BindingSample

set_option maxRecDepth 8000 in
/-- Two spellings of one address, under two account ids, and one binding. -/
theorem account_binding_identifies_sample : ∃ A B,
    AccountBinding.fromConfig BindingSample.platform (BindingSample.account "work" "2001:db8::1") =
        .ok A ∧
      AccountBinding.fromConfig BindingSample.platform
        (BindingSample.account "home" "2001:DB8:0::1") = .ok B ∧
      A.canonicalBytes = B.canonicalBytes := by
  obtain ⟨A, B, hA, hB, hiff, -⟩ := account_binding_identifies BindingSample.platform
    BindingSample.platform_ipText (a := BindingSample.account "work" "2001:db8::1")
    (b := BindingSample.account "home" "2001:DB8:0::1") rfl rfl
    ⟨by decide, fun e he => by cases he⟩ ⟨by decide, fun e he => by cases he⟩
  exact ⟨A, B, hA, hB, hiff.mpr (by decide)⟩

end Kirje
