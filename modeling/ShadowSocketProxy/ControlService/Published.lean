import ShadowSocketProxy.Bpf.Classifier
import ShadowSocketProxy.ControlService.Adapter
import ShadowSocketProxy.ControlService.Lifecycle

/-! # What the classifiers read of a configuration

`set_runtime_config` writes the bytes of a configuration and the classifiers read them as a packed
record. For a validated configuration the record says what the configuration says: its targets, its
control listener, its grace and its capacity. -/

namespace ShadowSocketProxy.ControlService

open Bpf Bytes Interleaving

variable {config : RuntimeConfig} {maxima : MapMaxima} {value : RuntimeConfigValue}

/-! ## Validated configurations -/

/-- What validation guarantees of a configuration. -/
structure Validated (config : RuntimeConfig) (maxima : MapMaxima) : Prop where
  schema : config.schemaVersion = runtimeConfigAbiVersion
  capacity_ne_zero : config.activeFlowCapacity ≠ 0
  capacity_le : config.activeFlowCapacity ≤ maxima.flowState
  grace_ne_zero : config.tcpTerminalGrace ≠ 0
  ipv4Wildcard : config.listener.ipv4Wildcard =
    (config.listener.address.isUnspecified && config.listener.address.isIpv4)
  ipv6Wildcard : config.listener.ipv6Wildcard =
    (config.listener.address.isUnspecified && !config.listener.address.isIpv4)
  ipv4Target : validateTarget config.ipv4Target true = .ok ()
  ipv6Target : validateTarget config.ipv6Target false = .ok ()
  idleTtl : config.idleTtl < 2 ^ 64
  grace : config.tcpTerminalGrace < 2 ^ 64

theorem bpfDurationNanos_eq_ok {duration : Nat} {nanos : UInt64}
    (h : bpfDurationNanos duration = .ok nanos) : duration < 2 ^ 64 := by
  rw [bpfDurationNanos] at h
  split at h
  · assumption
  · cases h

theorem validated_of_validateWithMaxima (h : config.validateWithMaxima maxima = .ok ()) :
    Validated config maxima := by
  rw [RuntimeConfig.validateWithMaxima] at h
  simp only [ite_error_eq_ok, bind_eq_ok, not_or, not_not] at h
  obtain ⟨hschema, -, -, ⟨hcapacity, hmaximum⟩, -, hgrace, -, ⟨hwildcard4, hwildcard6⟩, _, htarget4, _,
    htarget6, _, hidle, _, hnanos, -⟩ := h
  exact ⟨hschema, hcapacity, Nat.not_lt.mp hmaximum, hgrace, hwildcard4, hwildcard6, htarget4, htarget6,
    bpfDurationNanos_eq_ok hidle, bpfDurationNanos_eq_ok hnanos⟩

/-- A validated target has a port, the family of its field and a proper address. -/
theorem validateTarget_eq_ok {target : SocketAddr} {ipv4 : Bool}
    (h : validateTarget (some target) ipv4 = .ok ()) :
    target.port ≠ 0 ∧ target.ip.isIpv4 = ipv4 ∧ target.ip.isUnspecified = false := by
  simp only [validateTarget, ite_error_eq_ok, not_not, Bool.not_eq_true] at h
  exact ⟨h.1, h.2.1, h.2.2.1⟩

/-! ## The record of a configuration -/

/-- The record carries the configuration. -/
structure Published (config : RuntimeConfig) (value : RuntimeConfigValue) : Prop where
  schema : value.schemaVersion = config.schemaVersion
  ipv4Target : (value.v4TargetSet, value.v4Target, value.v4TargetPort) =
    ipv4TargetBytes config.ipv4Target
  ipv6Target : (value.v6TargetSet, value.v6Target, value.v6TargetPort) =
    ipv6TargetBytes config.ipv6Target
  listener : Serves config.listener value
  grace : value.terminalGraceNs.toNat = config.tcpTerminalGrace
  capacity : value.activeFlowCapacity.toNat = config.activeFlowCapacity % 2 ^ 32

theorem published_unpack (idleTtlNs terminalGraceNs : UInt64)
    (hgrace : terminalGraceNs.toNat = config.tcpTerminalGrace) :
    Published config
      (RuntimeConfigValue.unpack (runtimeConfigBytes config idleTtlNs terminalGraceNs)) := by
  have hserves := serves_unpack config idleTtlNs terminalGraceNs
  refine ⟨?_, ?_, ?_, hserves, ?_, ?_⟩
  all_goals
    simp only [RuntimeConfigValue.unpack, runtimeConfigBytes]
    simp (disch := simp) only [be16At_append_left, be16At_append_right, byteAt_append_left,
      byteAt_append_right, arrayAt_append_left, arrayAt_append_right, leAt_append_left,
      leAt_append_right]
  · exact be16At_be16Bytes _
  all_goals
    simp only [List.length_append, List.length_cons, List.length_nil, length_be16Bytes,
      length_leBytes, Vector.length_toList, Nat.reduceAdd, Nat.reduceSub]
  · rw [be16At_be16Bytes, arrayAt_toList]
    rfl
  · rw [be16At_be16Bytes, arrayAt_toList]
    rfl
  · have hlt : terminalGraceNs.toNat < 256 ^ 8 := terminalGraceNs.toNat_lt
    rw [leAt_leBytes hlt, UInt64.ofNat_toNat, hgrace]
  · have hlt : config.activeFlowCapacity % 2 ^ 32 < 2 ^ 32 := Nat.mod_lt _ (by decide)
    rw [leAt_leBytes hlt, UInt32.toNat_ofNat_of_lt' hlt]

/-- Writing a configuration is one map call. -/
theorem setRuntimeConfig_eq (hidle : config.idleTtl < 2 ^ 64)
    (hgrace : config.tcpTerminalGrace < 2 ^ 64) :
    (setRuntimeConfig config).run = .call (.hostSetConfig (runtimeConfigBytes config
      (UInt64.ofNat config.idleTtl) (UInt64.ofNat config.tcpTerminalGrace)))
      fun result => .ret (result.mapError mapError) := by
  have hidle' : bpfDurationNanos config.idleTtl = .ok (UInt64.ofNat config.idleTtl) := if_pos hidle
  have hgrace' : bpfDurationNanos config.tcpTerminalGrace =
      .ok (UInt64.ofNat config.tcpTerminalGrace) := if_pos hgrace
  rw [setRuntimeConfig, hidle', hgrace']
  rfl

/-- A configuration that was written is published. -/
theorem published_of_returns (h : Validated config maxima) {allowed : Choice → Prop} {s s' : Maps}
    (hwritten : machine.Returns allowed (setRuntimeConfig config).run s (.ok ()) s') :
    Published config s'.runtimeConfig := by
  rw [setRuntimeConfig_eq h.idleTtl h.grace] at hwritten
  have hpublished := published_unpack (UInt64.ofNat config.idleTtl) _
    (UInt64.toNat_ofNat_of_lt' h.grace)
  generalize runtimeConfigBytes config _ _ = bytes at hpublished hwritten
  obtain ⟨c, resp, s₁, -, hexec, hok, rfl⟩ := hwritten
  have hexec : (if c.fault then some (.error (.syscall "bpf_map_update_elem"), s) else
      some (.ok (), { s with runtimeConfig := RuntimeConfigValue.unpack bytes })) =
        some (resp, s') := hexec
  split at hexec
  · cases hexec
    cases hok
  · cases hexec
    exact hpublished

/-- Writing a validated configuration succeeds unless the map call fails. -/
theorem run_setRuntimeConfig (h : Validated config maxima) {c : Choice} (hc : c.fault = false)
    (s : Maps) :
    ∃ s', machine.run (setRuntimeConfig config).run [c] s = some (.ok (), s', []) ∧
      Published config s'.runtimeConfig := by
  have hnanos : (UInt64.ofNat config.tcpTerminalGrace).toNat = config.tcpTerminalGrace :=
    UInt64.toNat_ofNat_of_lt' h.grace
  have hpublished := published_unpack (UInt64.ofNat config.idleTtl) _ hnanos
  rw [setRuntimeConfig_eq h.idleTtl h.grace]
  generalize runtimeConfigBytes config _ _ = bytes at hpublished ⊢
  have hexec : machine.exec c (.hostSetConfig bytes) s =
      some (.ok (), { s with runtimeConfig := RuntimeConfigValue.unpack bytes }) := by
    simp only [machine, exec, hostCall, hc]
    rfl
  refine ⟨{ s with runtimeConfig := RuntimeConfigValue.unpack bytes }, ?_, hpublished⟩
  rw [Machine.run, hexec]
  rfl

/-! ## Targets -/

/-- The target that a configuration has for a packet. -/
def RuntimeConfig.target (config : RuntimeConfig) (packet : PacketInfo) : Option SocketAddr :=
  if packet.family = 4 then config.ipv4Target else config.ipv6Target

/-- The classifiers select the target of the configuration. -/
theorem Published.targetFor (h : Published config value) (hvalid : Validated config maxima)
    (packet : PacketInfo) :
    value.targetFor packet =
      (config.target packet).map fun target => (addressBytes target.ip, target.port) := by
  have hschema : value.schemaVersion = runtimeConfigAbiVersion := h.schema.trans hvalid.schema
  rw [RuntimeConfigValue.targetFor, if_neg (not_not.mpr hschema), RuntimeConfig.target]
  by_cases hfamily : packet.family = 4
  · rw [if_pos hfamily, if_pos hfamily]
    have hvalue := h.ipv4Target
    have htarget := hvalid.ipv4Target
    cases hset : config.ipv4Target with
    | none =>
      rw [hset] at hvalue
      have hunset : value.v4TargetSet = 0 := congrArg Prod.fst hvalue
      rw [if_pos (.inl (by rw [hunset]; decide)), Option.map_none]
    | some target =>
      rw [hset] at hvalue htarget
      obtain ⟨hport, hip, hspecified⟩ := validateTarget_eq_ok htarget
      obtain ⟨ip, port⟩ := target
      cases ip with
      | v6 octets => cases hip
      | v4 octets =>
        simp only [ipv4TargetBytes, Prod.mk.injEq] at hvalue
        obtain ⟨hone, haddress, hvport⟩ := hvalue
        have hoctets : octets ≠ Vector.replicate 4 0 := of_decide_eq_false hspecified
        rw [hone, haddress, hvport, if_neg, if_neg hoctets, Option.map_some, addressBytes]
        exact fun hno => hno.elim (fun hne => hne rfl) hport
  · rw [if_neg hfamily, if_neg hfamily]
    have hvalue := h.ipv6Target
    have htarget := hvalid.ipv6Target
    cases hset : config.ipv6Target with
    | none =>
      rw [hset] at hvalue
      have hunset : value.v6TargetSet = 0 := congrArg Prod.fst hvalue
      rw [if_pos (.inl (by rw [hunset]; decide)), Option.map_none]
    | some target =>
      rw [hset] at hvalue htarget
      obtain ⟨hport, hip, hspecified⟩ := validateTarget_eq_ok htarget
      obtain ⟨ip, port⟩ := target
      cases ip with
      | v4 octets => cases hip
      | v6 octets =>
        simp only [ipv6TargetBytes, Prod.mk.injEq] at hvalue
        obtain ⟨hone, haddress, hvport⟩ := hvalue
        have hoctets : octets ≠ Vector.replicate 16 0 := of_decide_eq_false hspecified
        rw [hone, haddress, hvport, if_neg, if_neg hoctets, Option.map_some, addressBytes]
        exact fun hno => hno.elim (fun hne => hne rfl) hport

/-! ## Control traffic -/

/-- A packet is control traffic of a listener: TCP of its family, to its port, at its address unless
that is unspecified. -/
def ListenerDescriptor.Matches (listener : ListenerDescriptor) (packet : PacketInfo) (ingress : Bool) :
    Prop :=
  packet.protocol = ipprotoTcp ∧ packet.family = (if listener.address.isIpv4 then 4 else 6) ∧
    (if ingress then packet.destinationPort else packet.sourcePort) = listener.port ∧
    (listener.address.isUnspecified ∨
      (if ingress then packet.destination else packet.source) = addressBytes listener.address)

/-- An IPv4 address is its last four bytes, in the listener's field as in a packet. -/
theorem drop_eq_listenerAddressBytes_iff (a octets : Vector UInt8 4) :
    (ipv4ToMapped a).toList.drop 12 = (listenerAddressBytes (.v4 octets)).toList.drop 12 ↔
      ipv4ToMapped a = addressBytes (.v4 octets) := by
  have hmapped : (ipv4ToMapped a).toList.drop 12 = a.toList := by
    rw [ipv4ToMapped, Vector.toList_append]
    rfl
  have hfield : (listenerAddressBytes (.v4 octets)).toList.drop 12 = octets.toList := by
    rw [listenerAddressBytes, Vector.toList_append]
    rfl
  rw [hmapped, hfield, Vector.toList_inj, addressBytes]
  refine ⟨congrArg ipv4ToMapped, fun h => ?_⟩
  have haddress := congrArg (addressOf 4) h
  rw [addressOf_ipv4ToMapped, addressOf_ipv4ToMapped] at haddress
  exact IpAddr.v4.inj haddress

/-- The classifiers match the listener of the configuration. -/
theorem Published.listens_iff (h : Published config value) (hvalid : Validated config maxima)
    {family protocol : UInt8} {endpoint : Address} {port : UInt16}
    (hfamily : family = 4 ∨ family = 6) (hmapped : family = 4 → ∃ a, endpoint = ipv4ToMapped a) :
    value.listens family protocol endpoint port = true ↔
      protocol = ipprotoTcp ∧ family = (if config.listener.address.isIpv4 then 4 else 6) ∧
        port = config.listener.port ∧
        (config.listener.address.isUnspecified ∨ endpoint = addressBytes config.listener.address) := by
  have hschema : value.schemaVersion = runtimeConfigAbiVersion := h.schema.trans hvalid.schema
  have hserves := h.listener
  have hwildcard := hserves.wildcard
  rw [hvalid.ipv4Wildcard, hvalid.ipv6Wildcard] at hwildcard
  rw [RuntimeConfigValue.listens, hschema, hserves.port, hserves.family, hserves.address, hwildcard]
  by_cases hother : protocol ≠ ipprotoTcp ∨ port ≠ config.listener.port
  · rw [if_pos (.inr hother)]
    refine ⟨fun hfalse => (nomatch hfalse), fun hmatch => ?_⟩
    exact absurd hother (not_or.mpr ⟨not_not.mpr hmatch.1, not_not.mpr hmatch.2.2.1⟩)
  · rw [if_neg (fun hany => hany.elim (fun hne => hne rfl) hother)]
    obtain ⟨hprotocol, hport⟩ := not_or.mp hother
    rw [not_not] at hprotocol hport
    simp only [hprotocol, hport, true_and]
    -- the listener's family decides which of the two branches can match
    cases config.listener.address with
    | v4 octets =>
      rcases hfamily with rfl | rfl
      · obtain ⟨a, rfl⟩ := hmapped rfl
        have haddress := drop_eq_listenerAddressBytes_iff a octets
        cases hspecified : (IpAddr.v4 octets).isUnspecified <;> simp [IpAddr.isIpv4, haddress]
      · simp [IpAddr.isIpv4]
    | v6 octets =>
      rcases hfamily with rfl | rfl
      · simp [IpAddr.isIpv4]
      · cases hspecified : (IpAddr.v6 octets).isUnspecified with
        | false =>
          have hfour : ¬ (6 : UInt8) = 4 := by decide
          simp only [IpAddr.isIpv4, listenerAddressBytes, addressBytes, hfour, if_false,
            Bool.false_eq_true, ne_eq, not_true_eq_false, Bool.and_self, Bool.not_false,
            Bool.and_true, UInt8.or_self, UInt8.zero_and, false_or, true_and]
          exact decide_eq_true_iff
        | true => simp [IpAddr.isIpv4]

/-- The classifiers take for control traffic what the configuration says. -/
theorem Published.controls_iff (h : Published config value) (hvalid : Validated config maxima)
    {packet : PacketInfo} (hpacket : Parsed packet) (ingress : Bool) :
    value.controls packet ingress = true ↔ config.listener.Matches packet ingress := by
  cases ingress with
  | false => exact h.listens_iff hvalid hpacket.family hpacket.source
  | true => exact h.listens_iff hvalid hpacket.family hpacket.destination

/-! ## The configuration as the classifiers read it -/

/-- A validated configuration, once written, is what the classifiers read: the target of the packet's
family, the control listener, the grace and the capacity. -/
theorem written_config_read (config : RuntimeConfig) (maxima : MapMaxima)
    (hvalid : config.validateWithMaxima maxima = .ok ()) (hmaximum : maxima.flowState < 2 ^ 32)
    (s : Maps) (c : Choice) (hc : c.fault = false) :
    ∃ s', machine.run (setRuntimeConfig config).run [c] s = some (.ok (), s', []) ∧
      (∀ frame packet, parsePacket frame = some packet →
        (∀ c', machine.run (targetForPacket packet) [c'] s' =
          some ((config.target packet).map fun target => (addressBytes target.ip, target.port),
            s', [])) ∧
        ∀ ingress c', ∃ control, machine.run (isControlPacket packet ingress) [c'] s' =
            some (control, s', []) ∧
          (control = true ↔ config.listener.Matches packet ingress)) ∧
      (terminalGrace s'.runtimeConfig).toNat = config.tcpTerminalGrace ∧
      s'.runtimeConfig.activeFlowCapacity.toNat = config.activeFlowCapacity ∧
      ∀ previous, capacityReached (some s'.runtimeConfig) previous =
        decide (config.activeFlowCapacity ≤ previous) := by
  have hvalidated := validated_of_validateWithMaxima hvalid
  obtain ⟨s', hrun, hpublished⟩ := run_setRuntimeConfig hvalidated hc s
  have hcapacity : s'.runtimeConfig.activeFlowCapacity.toNat = config.activeFlowCapacity := by
    have hle := hvalidated.capacity_le
    rw [hpublished.capacity, Nat.mod_eq_of_lt (by omega)]
  have hgrace : s'.runtimeConfig.terminalGraceNs ≠ 0 := by
    intro hzero
    have hnanos := hpublished.grace
    rw [hzero] at hnanos
    exact hvalidated.grace_ne_zero hnanos.symm
  refine ⟨s', hrun, fun frame packet hparse => ⟨fun c' => ?_, fun ingress c' => ?_⟩, ?_, hcapacity,
    fun previous => ?_⟩
  · rw [← hpublished.targetFor hvalidated packet]
    rfl
  · exact ⟨s'.runtimeConfig.controls packet ingress, rfl,
      hpublished.controls_iff hvalidated (parsed_of_parsePacket hparse) ingress⟩
  · rw [terminalGrace, if_pos hgrace, hpublished.grace]
  · have hzero : s'.runtimeConfig.activeFlowCapacity ≠ 0 := by
      intro hzero
      rw [hzero] at hcapacity
      exact hvalidated.capacity_ne_zero hcapacity.symm
    rw [capacityReached, hcapacity, decide_eq_true hzero, Bool.true_and]

/-- A configuration with targets of both families and a listener of its own. -/
theorem written_config_read_sample :
    let config : RuntimeConfig :=
      { RuntimeConfig.default with
        ipv4Target := some ⟨.v4 (ipv4 10 0 0 3), 8080⟩
        ipv6Target := some ⟨.v6 (ipv4ToMapped (ipv4 10 0 0 4)), 8081⟩
        listener := ListenerDescriptor.fromSocketAddr ⟨.v4 (ipv4 10 0 0 5), 50051⟩ }
    ∃ s', machine.run (setRuntimeConfig config).run [{}] (Maps.initial {}) = some (.ok (), s', []) ∧
      (terminalGrace s'.runtimeConfig).toNat = 30000000000 := by
  intro config
  have hvalid : config.validateWithMaxima MapMaxima.default = .ok () := by decide
  obtain ⟨s', hrun, -, hgrace, -⟩ :=
    written_config_read config MapMaxima.default hvalid (by decide) (Maps.initial {}) {} rfl
  exact ⟨s', hrun, hgrace⟩

end ShadowSocketProxy.ControlService
