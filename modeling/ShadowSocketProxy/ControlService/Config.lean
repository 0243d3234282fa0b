import ShadowSocketProxy.ControlService.Mapping

/-! # Runtime configuration

The settings of `config.rs`, their validation, and the 80 bytes `set_runtime_config` writes for the
classifiers. A duration is its number of nanoseconds. -/

namespace ShadowSocketProxy.ControlService

open Bytes

/-- An address with a port. -/
structure SocketAddr where
  ip : IpAddr
  port : UInt16
  deriving DecidableEq

/-- Listener address and the wildcard flags of the map layout. -/
structure ListenerDescriptor where
  address : IpAddr
  port : UInt16
  ipv4Wildcard : Bool
  ipv6Wildcard : Bool
  deriving DecidableEq

/-- Split a socket address and derive the wildcard flags. -/
def ListenerDescriptor.fromSocketAddr (address : SocketAddr) : ListenerDescriptor where
  address := address.ip
  port := address.port
  ipv4Wildcard := address.ip.isUnspecified && address.ip.isIpv4
  ipv6Wildcard := address.ip.isUnspecified && !address.ip.isIpv4

/-- Settings of the service and the classifiers. -/
structure RuntimeConfig where
  schemaVersion : UInt16
  revision : UInt64
  idleTtl : Nat
  logCapacity : Nat
  activeFlowCapacity : Nat
  tcpTerminalGrace : Nat
  ipv4Target : Option SocketAddr
  ipv6Target : Option SocketAddr
  listener : ListenerDescriptor
  deriving DecidableEq

/-- Capacities of the loaded maps. -/
structure MapMaxima where
  flowIndex : Nat
  flowState : Nat

/-- The capacities compiled into the shipped object. -/
def MapMaxima.default : MapMaxima := ⟨16384, 8192⟩

/-- The baseline configuration, listening on every IPv4 address at port 50051. -/
def RuntimeConfig.default : RuntimeConfig where
  schemaVersion := Bpf.runtimeConfigAbiVersion
  revision := 1
  idleTtl := 60 * 1000000000
  logCapacity := 1024
  activeFlowCapacity := 4096
  tcpTerminalGrace := 30 * 1000000000
  ipv4Target := none
  ipv6Target := none
  listener := ListenerDescriptor.fromSocketAddr ⟨.v4 #v[0, 0, 0, 0], 50051⟩

/-- Validation failures. -/
inductive ConfigError where
  | unsupportedSchemaVersion
  | zeroIdleTtl
  | invalidLogCapacity
  | invalidFlowCapacity
  | flowIndexCapacityExceeded
  | zeroTerminalGrace
  | durationOverflow
  | invalidListenerPort
  | invalidListenerWildcard
  | partialTarget
  | targetFamilyMismatch
  | unspecifiedTarget
  deriving DecidableEq

/-- The text of an error. -/
def ConfigError.message : ConfigError → String
  | .unsupportedSchemaVersion => "runtime config schema version is unsupported"
  | .zeroIdleTtl => "idle TTL must be non-zero"
  | .invalidLogCapacity => "log capacity must be between 1 and 100000"
  | .invalidFlowCapacity => "active flow capacity must be between 1 and the ELF maximum"
  | .flowIndexCapacityExceeded => "active flow capacity requires three flow indexes per flow"
  | .zeroTerminalGrace => "TCP terminal grace must be non-zero"
  | .durationOverflow => "runtime duration is too large"
  | .invalidListenerPort => "listener port must be non-zero"
  | .invalidListenerWildcard => "listener wildcard flags do not match the listener address"
  | .partialTarget => "target address and port must be set together"
  | .targetFamilyMismatch => "target address family does not match its field"
  | .unspecifiedTarget => "target address is unspecified"

/-- A duration in the 64-bit nanoseconds of the map layout. -/
def bpfDurationNanos (duration : Nat) : Except ConfigError UInt64 :=
  if duration < 2 ^ 64 then .ok (UInt64.ofNat duration) else .error .durationOverflow

/-- Check an optional target: port, family and address. -/
def validateTarget (target : Option SocketAddr) (ipv4 : Bool) : Except ConfigError Unit :=
  match target with
  | none => .ok ()
  | some target =>
    if target.port = 0 then .error .partialTarget
    else if target.ip.isIpv4 ≠ ipv4 then .error .targetFamilyMismatch
    else if target.ip.isUnspecified then .error .unspecifiedTarget
    else .ok ()

/-- Check a configuration against the capacities of the maps. The source multiplies the flow
capacity by three with saturation, which differs only beyond a third of the address space. -/
def RuntimeConfig.validateWithMaxima (config : RuntimeConfig) (maxima : MapMaxima) :
    Except ConfigError Unit := do
  if config.schemaVersion ≠ Bpf.runtimeConfigAbiVersion then .error .unsupportedSchemaVersion
  else if config.idleTtl = 0 then .error .zeroIdleTtl
  else if config.logCapacity = 0 ∨ config.logCapacity > 100000 then .error .invalidLogCapacity
  else if config.activeFlowCapacity = 0 ∨ config.activeFlowCapacity > maxima.flowState then
    .error .invalidFlowCapacity
  else if config.activeFlowCapacity * 3 > maxima.flowIndex then .error .flowIndexCapacityExceeded
  else if config.tcpTerminalGrace = 0 then .error .zeroTerminalGrace
  else if config.listener.port = 0 then .error .invalidListenerPort
  else if config.listener.ipv4Wildcard ≠
        (config.listener.address.isUnspecified && config.listener.address.isIpv4) ∨
      config.listener.ipv6Wildcard ≠
        (config.listener.address.isUnspecified && !config.listener.address.isIpv4) then
    .error .invalidListenerWildcard
  else do
    validateTarget config.ipv4Target true
    validateTarget config.ipv6Target false
    let _ ← bpfDurationNanos config.idleTtl
    let _ ← bpfDurationNanos config.tcpTerminalGrace
    pure ()

/-! ## The bytes of the runtime configuration -/

/-- The flag, address and port written for an IPv4 target. -/
def ipv4TargetBytes (target : Option SocketAddr) : UInt8 × Vector UInt8 4 × UInt16 :=
  match target with
  | some ⟨.v4 octets, port⟩ => (1, octets, port)
  | _ => (0, Vector.replicate 4 0, 0)

/-- The flag, address and port written for an IPv6 target. -/
def ipv6TargetBytes (target : Option SocketAddr) : UInt8 × Vector UInt8 16 × UInt16 :=
  match target with
  | some ⟨.v6 octets, port⟩ => (1, octets, port)
  | _ => (0, Vector.replicate 16 0, 0)

/-- The listener address field: an IPv4 address stands in its last four bytes, behind zeros. -/
def listenerAddressBytes : IpAddr → Vector UInt8 16
  | .v4 octets => (Vector.replicate 12 0 : Vector UInt8 12) ++ octets
  | .v6 octets => octets

/-- The 80 bytes of a configuration, with its durations already in nanoseconds. -/
def runtimeConfigBytes (config : RuntimeConfig) (idleTtlNs terminalGraceNs : UInt64) :
    List UInt8 :=
  let v4 := ipv4TargetBytes config.ipv4Target
  let v6 := ipv6TargetBytes config.ipv6Target
  let listener := config.listener
  be16Bytes config.schemaVersion ++ [v4.1, v6.1] ++ v4.2.1.toList ++ be16Bytes v4.2.2 ++
    v6.2.1.toList ++ be16Bytes v6.2.2 ++
    [if listener.address.isIpv4 then 4 else 6,
      (if listener.ipv4Wildcard then 1 else 0) ||| (if listener.ipv6Wildcard then 2 else 0)] ++
    (listenerAddressBytes listener.address).toList ++ be16Bytes listener.port ++
    leBytes 8 idleTtlNs.toNat ++ leBytes 8 terminalGraceNs.toNat ++
    leBytes 4 (config.activeFlowCapacity % 2 ^ 32) ++ List.replicate 12 0

/-- The listener fields of a configuration are those of a listener. -/
structure Serves (listener : ListenerDescriptor) (config : Bpf.RuntimeConfigValue) : Prop where
  family : config.listenerFamily = if listener.address.isIpv4 then 4 else 6
  wildcard : config.listenerWildcardFlags =
    (if listener.ipv4Wildcard then 1 else 0) ||| (if listener.ipv6Wildcard then 2 else 0)
  address : config.listenerAddress = listenerAddressBytes listener.address
  port : config.listenerPort = listener.port

/-- The bytes of a configuration carry its listener. -/
theorem serves_unpack (config : RuntimeConfig) (idleTtlNs terminalGraceNs : UInt64) :
    Serves config.listener
      (Bpf.RuntimeConfigValue.unpack (runtimeConfigBytes config idleTtlNs terminalGraceNs)) := by
  simp only [Bpf.RuntimeConfigValue.unpack, runtimeConfigBytes]
  refine ⟨?_, ?_, ?_, ?_⟩
  all_goals
    simp (disch := simp) only [be16At_append_left, be16At_append_right, byteAt_append_left,
      byteAt_append_right, arrayAt_append_left, arrayAt_append_right]
    simp [be16At_be16Bytes, arrayAt_toList, byteAt]

end ShadowSocketProxy.ControlService
