import Kirje.Base.Ip
import Kirje.Core.Updates

/-
  File:      Kirje/Core/Hosts.lean
  Subject:   The two normal forms of a host: `encode_endpoint` checks one that is stated,
             `normalized_host_bytes` computes one
             (crates/kirje-core/src/authorization.rs, account.rs).

  * `canonicalMatches_iff`: a canonical host matches exactly when it states the identity
    of the exact host.
  * `normalizedHostBytes_iff`: the bytes of a host are those of its identity.
  * **`endpoint_hosts_agree`**: the bytes of the host of an accepted endpoint are its kind
    and its canonical host; and for a host that has bytes one kind and canonical host is
    accepted.
-/

namespace Kirje

open Base

/-! ## 1. Addresses -/

/-- The address types of the platform are those of the standard library. -/
structure StdAddresses (env : Platform) : Prop where
  ipv4 : ∀ host, env.parseIpv4 host = (parseIpv4Addr host).map Ipv4Addr.text
  ipv6 : ∀ host, env.parseIpv6 host = (parseIpv6Addr host).map Ipv6Addr.text

/-- A host in canonical form is a short text in ASCII. -/
structure CanonicalText (host : String) : Prop where
  nonempty : host.isEmpty = false
  short : host.utf8ByteSize ≤ 4096
  ascii : isAsciiText host = true

theorem canonicalText_ofList {n : Nat} (hn : n ≤ 4096) {cs : List Char} (h : ShortAscii n cs) :
    CanonicalText (String.ofList cs) := by
  have hsize : (encodeUtf8 cs).length = cs.length := by
    rw [encodeUtf8_ascii h.ascii, List.length_map]
  refine ⟨?_, ?_, ?_⟩
  · rw [String.isEmpty_eq_false_iff]
    intro h0
    refine h.nonempty ?_
    rw [← String.toList_ofList (l := cs), h0, String.toList_empty]
  · rw [← length_encodeUtf8_toList, String.toList_ofList, hsize]
    exact le_trans h.short hn
  · rw [isAsciiText, String.toList_ofList]
    exact List.all_eq_true.mpr fun c hc => decide_eq_true (h.ascii c hc)

variable {env : Platform}

theorem StdAddresses.apart (h : StdAddresses env) : FamiliesApart env := by
  intro host text h6
  rw [h.ipv6] at h6
  obtain ⟨ip, hip, -⟩ := Option.map_eq_some_iff.mp h6
  rw [h.ipv4, parseIpv6_apart hip, Option.map_none]

theorem StdAddresses.toLower (h : StdAddresses env) (host : String) :
    parseIpAddr env (toAsciiLowercase host) = parseIpAddr env host := by
  rw [parseIpAddr, parseIpAddr, h.ipv4, h.ipv4, h.ipv6, h.ipv6, toAsciiLowercase, parseIpv4_toLower,
    parseIpv6_toLower]

theorem StdAddresses.canonicalText (h : StdAddresses env) {host text : String} {family : Nat}
    (hp : parseIpAddr env host = some (family, text)) : CanonicalText text := by
  unfold parseIpAddr at hp
  split at hp
  · rename_i h4
    obtain ⟨-, rfl⟩ := Prod.mk.inj (Option.some.inj hp)
    rw [h.ipv4] at h4
    obtain ⟨ip, -, rfl⟩ := Option.map_eq_some_iff.mp h4
    exact canonicalText_ofList (by decide) ip.chars_ascii
  · obtain ⟨_, h6, heq⟩ := Option.map_eq_some_iff.mp hp
    obtain ⟨-, rfl⟩ := Prod.mk.inj heq
    rw [h.ipv6] at h6
    obtain ⟨ip, -, rfl⟩ := Option.map_eq_some_iff.mp h6
    exact canonicalText_ofList (by decide) ip.chars_ascii

/-! ## 2. Names -/

theorem toAsciiLowercase_idem (s : String) :
    toAsciiLowercase (toAsciiLowercase s) = toAsciiLowercase s := by
  have hidem : ∀ cs : List Char, (cs.map Char.toLower).map Char.toLower = cs.map Char.toLower := by
    intro cs
    rw [List.map_map]
    exact List.map_congr_left fun c _ => toLower_toLower c
  simp only [toAsciiLowercase, String.toList_ofList, hidem]

theorem isAsciiText_toAsciiLowercase (s : String) :
    isAsciiText (toAsciiLowercase s) = isAsciiText s := by
  have hchar : ∀ c : Char, decide (c.toLower.toNat < 128) = decide (c.toNat < 128) := by
    intro c
    rw [toNat_toLower, decide_eq_decide]
    split_ifs <;> omega
  simp only [isAsciiText, toAsciiLowercase, String.toList_ofList, List.all_map]
  exact congrArg (s.toList.all ·) (funext hchar)

theorem isEmpty_toAsciiLowercase {s : String} (h : s.isEmpty = false) :
    (toAsciiLowercase s).isEmpty = false := by
  rw [String.isEmpty_eq_false_iff] at h ⊢
  intro h0
  have hnil : s.toList.map Char.toLower = [] := by
    rw [← String.toList_ofList (l := s.toList.map Char.toLower)]
    exact congrArg String.toList h0 |>.trans String.toList_empty
  exact h (String.toList_eq_nil_iff.mp (List.map_eq_nil_iff.mp hnil))

theorem CanonicalText.toAsciiLowercase {host : String} (h : CanonicalText host) :
    CanonicalText (toAsciiLowercase host) := by
  refine ⟨isEmpty_toAsciiLowercase h.nonempty, ?_, ?_⟩
  · exact (utf8ByteSize_toLower host).trans_le h.short
  · rw [isAsciiText_toAsciiLowercase]
    exact h.ascii

/-! ## 3. The identity of a host -/

/-- **A canonical host matches when it states the identity of the exact host.** -/
theorem canonicalMatches_iff (hstd : StdAddresses env) {e : EndpointSnapshot} :
    canonicalMatches env e = true ↔
      hostIdentity env e.exactHost = statedIdentity e.hostKind e.canonicalHost := by
  refine ⟨hostIdentity_of_matches env hstd.apart, fun h => ?_⟩
  unfold hostIdentity statedIdentity at h
  unfold canonicalMatches
  cases hp : parseIpAddr env e.exactHost with
  | none =>
      rw [hp] at h
      cases hk : e.hostKind with
      | dns =>
          simp only [hk, HostIdentity.name.injEq] at h
          simp only [← h, hstd.toLower, hp, toAsciiLowercase_idem, Option.isNone_none, beq_self_eq_true,
            Bool.and_self]
      | ipv4 => simp [hk] at h
      | ipv6 => simp [hk] at h
  | some x =>
      obtain ⟨family, text⟩ := x
      rw [hp] at h
      unfold parseIpAddr at hp
      cases hk : e.hostKind with
      | dns => simp [hk] at h
      | ipv4 =>
          simp only [hk, HostIdentity.address.injEq] at h
          obtain ⟨rfl, rfl⟩ := h
          cases h4 : env.parseIpv4 e.exactHost with
          | none => simp [h4] at hp
          | some text =>
              simp only [h4, Option.some.injEq, Prod.mk.injEq, true_and] at hp
              rw [hp, beq_self_eq_true]
      | ipv6 =>
          simp only [hk, HostIdentity.address.injEq] at h
          obtain ⟨rfl, rfl⟩ := h
          cases h4 : env.parseIpv4 e.exactHost with
          | some text => simp [h4] at hp
          | none =>
              simp only [h4, Option.map_eq_some_iff, Prod.mk.injEq, true_and, exists_eq_right] at hp
              rw [hp, beq_self_eq_true]

/-- **The bytes of a host are those of its identity**; a name has some in ASCII only. -/
theorem normalizedHostBytes_iff {host : String} {bytes : Bytes} :
    normalizedHostBytes env host = .ok bytes ↔
      (parseIpAddr env host = none → isAsciiText host = true) ∧
        bytes = (hostIdentity env host).bytes := by
  unfold normalizedHostBytes hostIdentity
  cases parseIpAddr env host with
  | some x =>
      simp only [pure_ok, HostIdentity.bytes, reduceCtorEq, false_imp_iff, true_and]
      exact eq_comm
  | none =>
      simp only [bind_ok, ensure_ok, pure_ok, HostIdentity.bytes, true_imp_iff]
      constructor
      · rintro ⟨_, hascii, rfl⟩
        exact ⟨hascii, rfl⟩
      · rintro ⟨hascii, rfl⟩
        exact ⟨(), hascii, rfl⟩

theorem statedIdentity_bytes (kind : HostKind) (canonicalHost : String) :
    (statedIdentity kind canonicalHost).bytes = be 1 kind.code ++ utf8 canonicalHost := by
  cases kind <;> rfl

/-- Every identity of a host is stated. -/
theorem hostIdentity_stated (host : String) :
    ∃ kind canonicalHost, hostIdentity env host = statedIdentity kind canonicalHost := by
  unfold hostIdentity
  cases hp : parseIpAddr env host with
  | none => exact ⟨.dns, _, rfl⟩
  | some x =>
      rcases parseIpAddr_family env hp with h | h
      · exact ⟨.ipv4, x.2, congrArg (HostIdentity.address · x.2) h⟩
      · exact ⟨.ipv6, x.2, congrArg (HostIdentity.address · x.2) h⟩

/-- The host that is stated of a host with bytes is in canonical form. -/
theorem canonicalText_of_identity (hstd : StdAddresses env) {host canonicalHost : String}
    {kind : HostKind} (hne : host.isEmpty = false) (hshort : host.utf8ByteSize ≤ 4096)
    (hascii : parseIpAddr env host = none → isAsciiText host = true)
    (h : hostIdentity env host = statedIdentity kind canonicalHost) : CanonicalText canonicalHost := by
  unfold hostIdentity at h
  cases hp : parseIpAddr env host with
  | none =>
      rw [hp] at h
      have hlower : canonicalHost = toAsciiLowercase host := by
        cases kind <;> cases h
        rfl
      rw [hlower]
      exact CanonicalText.toAsciiLowercase ⟨hne, hshort, hascii hp⟩
  | some x =>
      obtain ⟨family, text⟩ := x
      rw [hp] at h
      have htext : canonicalHost = text := by
        cases kind <;> cases h <;> rfl
      rw [htext]
      exact hstd.canonicalText hp

/-! ## 4. Endpoints -/

/-- What `encode_endpoint` demands of an endpoint besides a canonical host. -/
structure EndpointSound (protocol : Protocol) (host : String) (port : Nat)
    (security : TransportSecurity) : Prop where
  host_nonempty : host.isEmpty = false
  host_short : host.utf8ByteSize ≤ 4096
  host_plain : hasControl host = false
  port_nonzero : port ≠ 0
  security_fits : security = .https ↔ protocol = .jmap

theorem validateEndpoint_iff {e : EndpointSnapshot} :
    validateEndpoint env e = .ok () ↔
      EndpointSound e.protocol e.exactHost e.port e.security ∧ CanonicalText e.canonicalHost ∧
        canonicalMatches env e = true := by
  obtain ⟨protocol, exactHost, hostKind, canonicalHost, port, security⟩ := e
  simp only [validateEndpoint, bind_ok, ensure_ok, Bool.or_eq_true, not_or,
    decide_eq_true_eq, not_lt, gt_iff_lt, Bool.not_eq_true, Bool.not_eq_true', Bool.not_eq_false,
    beq_iff_eq]
  refine ⟨fun h => ?_, fun h => ?_⟩
  · obtain ⟨_, ⟨⟨⟨⟨⟨⟨⟨h1, h2⟩, h3⟩, h4⟩, h5⟩, h6⟩, h7⟩, h8⟩, hmatch⟩ := h
    have hsecurity : security = .https ↔ protocol = .jmap := by
      revert h8
      cases protocol <;> cases security <;> decide
    exact ⟨⟨h1, h2, h3, h7, hsecurity⟩, ⟨h4, h5, h6⟩, hmatch⟩
  · obtain ⟨⟨h1, h2, h3, h7, h8⟩, ⟨h4, h5, h6⟩, hmatch⟩ := h
    refine ⟨(), ⟨⟨⟨⟨⟨⟨⟨h1, h2⟩, h3⟩, h4⟩, h5⟩, h6⟩, h7⟩, ?_⟩, hmatch⟩
    revert h8
    cases protocol <;> cases security <;> decide

/-- **What `encode_endpoint` accepts.** -/
theorem encodeEndpoint_isOk {e : EndpointSnapshot} :
    (∃ bytes, encodeEndpoint env e = .ok bytes) ↔
      EndpointSound e.protocol e.exactHost e.port e.security ∧ CanonicalText e.canonicalHost ∧
        canonicalMatches env e = true := by
  rw [← validateEndpoint_iff]
  simp only [encodeEndpoint, bind_ok]
  constructor
  · rintro ⟨_, _, h, -⟩
    exact h
  · intro h
    obtain ⟨hsound, htext, -⟩ := validateEndpoint_iff.mp h
    have hexact := hsound.host_short
    have hcanonical := htext.short
    refine ⟨_, (), h, encodeFields_ok (by simp) (by simp) fun f hf => ?_⟩
    simp only [List.mem_cons, List.not_mem_nil, or_false] at hf
    rcases hf with rfl | rfl | rfl | rfl | rfl | rfl
    · simp
    · rw [length_utf8]
      omega
    · simp
    · rw [length_utf8]
      omega
    · simp
    · simp

/-- **The bytes of the host of an accepted endpoint are its kind and its canonical host; and a
    host that has bytes has one kind and canonical host that are accepted.** -/
theorem endpoint_hosts_agree (hstd : StdAddresses env) :
    (∀ (e : EndpointSnapshot) (bytes : Bytes), encodeEndpoint env e = .ok bytes →
      normalizedHostBytes env e.exactHost = .ok (be 1 e.hostKind.code ++ utf8 e.canonicalHost)) ∧
      ∀ (protocol : Protocol) (host : String) (port : Nat) (security : TransportSecurity),
        EndpointSound protocol host port security →
          (∃ bytes, normalizedHostBytes env host = .ok bytes) →
            ∃! stated : HostKind × String, ∃ bytes,
              encodeEndpoint env ⟨protocol, host, stated.1, stated.2, port, security⟩ = .ok bytes := by
  constructor
  · intro e bytes h
    obtain ⟨-, htext, hmatch⟩ := encodeEndpoint_isOk.mp ⟨bytes, h⟩
    have hidentity := (canonicalMatches_iff hstd).mp hmatch
    rw [normalizedHostBytes_iff, hidentity, statedIdentity_bytes]
    refine ⟨fun hnone => ?_, rfl⟩
    -- A name is in ASCII because its lower case is the canonical host.
    have hlower : HostIdentity.name (toAsciiLowercase e.exactHost) =
        statedIdentity e.hostKind e.canonicalHost := by
      rw [← hidentity, hostIdentity, hnone]
    cases hk : e.hostKind with
    | dns =>
        rw [hk] at hlower
        rw [← isAsciiText_toAsciiLowercase, HostIdentity.name.inj hlower]
        exact htext.ascii
    | ipv4 => rw [hk] at hlower; cases hlower
    | ipv6 => rw [hk] at hlower; cases hlower
  · intro protocol host port security hsound ⟨bytes, hbytes⟩
    obtain ⟨kind, canonicalHost, hidentity⟩ := @hostIdentity_stated env host
    have htext := canonicalText_of_identity hstd hsound.host_nonempty hsound.host_short
      (normalizedHostBytes_iff.mp hbytes).1 hidentity
    refine ⟨(kind, canonicalHost), encodeEndpoint_isOk.mpr ⟨hsound, htext,
      (canonicalMatches_iff hstd).mpr hidentity⟩, fun stated h => ?_⟩
    obtain ⟨-, -, hmatch⟩ := encodeEndpoint_isOk.mp h
    have hsame := ((canonicalMatches_iff hstd).mp hmatch).symm.trans hidentity
    obtain ⟨hkind, hhost⟩ := statedIdentity_inj.mp hsame
    exact Prod.ext hkind hhost

namespace HostsSample

open BindingSample (platform)

/-- The platform with the addresses of the standard library. -/
def stdPlatform : Platform :=
  { platform with
    parseIpv4 := fun host => (parseIpv4Addr host).map Ipv4Addr.text
    parseIpv6 := fun host => (parseIpv6Addr host).map Ipv6Addr.text }

theorem stdPlatform_addresses : StdAddresses stdPlatform := ⟨fun _ => rfl, fun _ => rfl⟩

/-- An endpoint at an address in another spelling. -/
def endpoint : EndpointSnapshot :=
  ⟨.imap, "2001:DB8:0::1", .ipv6, "2001:db8::1", 993, .implicitTls⟩

theorem endpoint_encodes : ∃ bytes, encodeEndpoint stdPlatform endpoint = .ok bytes :=
  exists_ok_of_isSome (by decide +kernel)

theorem name_sound : EndpointSound .imap "Mail.fi" 993 .implicitTls :=
  ⟨by decide, by decide, by decide, by decide, by decide⟩

theorem name_normalizes : ∃ bytes, normalizedHostBytes stdPlatform "Mail.fi" = .ok bytes :=
  exists_ok_of_isSome (by decide +kernel)

end HostsSample

open HostsSample in
/-- An IPv6 address and a name, each in another spelling. -/
theorem endpoint_hosts_agree_sample :
    normalizedHostBytes stdPlatform "2001:DB8:0::1" = .ok (be 1 3 ++ utf8 "2001:db8::1") ∧
      ∃! stated : HostKind × String, ∃ bytes, encodeEndpoint stdPlatform
        ⟨.imap, "Mail.fi", stated.1, stated.2, 993, .implicitTls⟩ = .ok bytes := by
  obtain ⟨bytes, hbytes⟩ := endpoint_encodes
  exact ⟨(endpoint_hosts_agree stdPlatform_addresses).1 endpoint bytes hbytes,
    (endpoint_hosts_agree stdPlatform_addresses).2 .imap "Mail.fi" 993 .implicitTls name_sound
      name_normalizes⟩

end Kirje
