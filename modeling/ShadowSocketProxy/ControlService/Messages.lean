import ShadowSocketProxy.ControlService.Adapter

/-! # Messages of the control service

The protobuf messages of `control.proto`, the statuses a request may fail with, and the conversions of
`service.rs` between messages and the types of the service. -/

namespace ShadowSocketProxy.ControlService

open Bytes

/-- The status codes the service answers with. -/
inductive StatusCode where
  | invalidArgument
  | failedPrecondition
  | internal
  | resourceExhausted
  | aborted
  | notFound
  deriving DecidableEq

/-- Why a request failed. -/
structure Status where
  code : StatusCode
  message : String
  deriving DecidableEq

def Status.invalidArgument (message : String) : Status := ⟨.invalidArgument, message⟩
def Status.failedPrecondition (message : String) : Status := ⟨.failedPrecondition, message⟩

/-- The status of a backend error. -/
def mapBackendError (error : BackendError) : Status :=
  match error with
  | .missingElf _ => ⟨.invalidArgument, error.message⟩
  | .invalidInterface _ => ⟨.invalidArgument, error.message⟩
  | .abiMismatch _ => ⟨.failedPrecondition, error.message⟩
  | .unsupported => ⟨.failedPrecondition, error.message⟩
  | .notAttached => ⟨.failedPrecondition, error.message⟩
  | .operation _ _ => ⟨.internal, error.message⟩
  | .flowCapacity => ⟨.resourceExhausted, error.message⟩
  | .partialCleanup _ => ⟨.aborted, error.message⟩

namespace Proto

structure InterfaceRequest where
  elfPath : String
  interfaces : List String

structure DetachRequest where
  interfaces : List String
  all : Bool

structure OperationReply where
  success : Bool
  message : String
  failures : List String
  deriving DecidableEq

structure Config where
  idleTtlMs : UInt64
  logCapacity : UInt32
  activeFlowCapacity : UInt32
  tcpTerminalGraceMs : UInt64
  schemaVersion : UInt32
  ipv4TargetAddress : List UInt8
  ipv4TargetPort : UInt32
  ipv6TargetAddress : List UInt8
  ipv6TargetPort : UInt32
  listenerFamily : UInt32
  listenerAddress : List UInt8
  listenerPort : UInt32
  listenerIpv4Wildcard : Bool
  listenerIpv6Wildcard : Bool
  deriving DecidableEq

structure ConfigReply where
  revision : UInt64
  config : Option Config
  deriving DecidableEq

structure Tuple where
  family : UInt32
  sourceAddress : List UInt8
  destinationAddress : List UInt8
  protocol : UInt32
  sourcePort : UInt32
  destinationPort : UInt32
  deriving DecidableEq

structure Flow where
  flowId : UInt64
  generation : UInt32
  synthetic : Option Tuple
  original : Option Tuple
  protocol : UInt32
  lastUsedNs : UInt64
  tcpStateFlags : UInt32
  protocolFlags : UInt32
  observedNowNs : UInt64
  finSeenMask : UInt32
  finAckSeenMask : UInt32
  deriving DecidableEq

structure Mapping where
  synthetic : Option Tuple
  original : Option Tuple
  lastSeenNs : UInt64
  protocolFlags : UInt32
  tcpStateFlags : UInt32
  deriving DecidableEq

structure EnumerateFlowsRequest where
  limit : UInt32
  pageToken : List UInt8

structure EnumerateFlowsReply where
  flows : List Flow
  nextPageToken : List UInt8

end Proto

/-! ## Addresses and targets -/

/-- The octets of an address. -/
def ipBytes : IpAddr → List UInt8
  | .v4 octets => octets.toList
  | .v6 octets => octets.toList

/-- The address that a family number and bytes stand for. -/
def addressOfBytes (family : UInt32) (bytes : List UInt8) : Option IpAddr :=
  if family = 4 ∧ bytes.length = 4 then some (.v4 (arrayAt 4 bytes 0))
  else if family = 6 ∧ bytes.length = 16 then some (.v6 (arrayAt 16 bytes 0))
  else none

/-- Bytes of an address stand for no other address. -/
theorem eq_of_addressOfBytes {family : UInt32} {ip ip' : IpAddr}
    (h : addressOfBytes family (ipBytes ip) = some ip') : ip' = ip := by
  cases ip with
  | v4 octets =>
    rw [addressOfBytes, ipBytes, arrayAt_toList] at h
    simp only [Vector.length_toList, Nat.reduceEqDiff, and_false, if_false] at h
    split at h
    · exact (Option.some.inj h).symm
    · cases h
  | v6 octets =>
    rw [addressOfBytes, ipBytes, arrayAt_toList] at h
    simp only [Vector.length_toList, Nat.reduceEqDiff, and_false, if_false] at h
    split at h
    · exact (Option.some.inj h).symm
    · cases h

/-- Decode an address of a labelled field. -/
def parseLabelledAddress (family : UInt32) (bytes : List UInt8) (label : String) :
    Except Status IpAddr :=
  match addressOfBytes family bytes with
  | some address => .ok address
  | none => .error (.invalidArgument ("invalid " ++ label ++ " address/family"))

/-- Decode an optional target; address and port come together. -/
def parseTarget (family : UInt32) (address : List UInt8) (port : UInt32) (label : String) :
    Except Status (Option SocketAddr) :=
  if address.isEmpty ∧ port = 0 then .ok none
  else if address.isEmpty ∨ port = 0 ∨ port.toNat > 65535 then
    .error (.invalidArgument (label ++ " address and port must be set together"))
  else do
    let ip ← parseLabelledAddress family address label
    pure (some ⟨ip, port.toUInt16⟩)

theorem ipBytes_ne_nil (ip : IpAddr) : (ipBytes ip).isEmpty = false := by
  cases ip <;> simp [ipBytes]

/-- A target that comes through a message is the one that went in. -/
theorem eq_of_parseTarget {family : UInt32} {target parsed : Option SocketAddr} {label : String}
    (hparse : parseTarget family ((target.map fun t => ipBytes t.ip).getD [])
      ((target.map fun t => t.port.toUInt32).getD 0) label = .ok parsed) : parsed = target := by
  cases target with
  | none =>
    simp only [Option.map_none, Option.getD_none, parseTarget] at hparse
    simpa using hparse.symm
  | some target =>
    obtain ⟨ip, port⟩ := target
    simp only [Option.map_some, Option.getD_some, parseTarget, ipBytes_ne_nil] at hparse
    rw [if_neg (by simp)] at hparse
    split at hparse
    · cases hparse
    · cases haddress : addressOfBytes family (ipBytes ip) with
      | none =>
        simp only [parseLabelledAddress, haddress] at hparse
        cases hparse
      | some ip' =>
        simp only [parseLabelledAddress, haddress] at hparse
        cases hparse
        rw [eq_of_addressOfBytes haddress, UInt16.toUInt16_toUInt32]

/-! ## Configurations -/

/-- The message of a configuration; durations are cut to milliseconds. -/
def configToProto (config : RuntimeConfig) : Proto.ConfigReply where
  revision := config.revision
  config := some
    { idleTtlMs := UInt64.ofNat (config.idleTtl / 1000000)
      logCapacity := UInt32.ofNat config.logCapacity
      activeFlowCapacity := UInt32.ofNat config.activeFlowCapacity
      tcpTerminalGraceMs := UInt64.ofNat (config.tcpTerminalGrace / 1000000)
      schemaVersion := config.schemaVersion.toUInt32
      ipv4TargetAddress := (config.ipv4Target.map fun target => ipBytes target.ip).getD []
      ipv4TargetPort := (config.ipv4Target.map fun target => target.port.toUInt32).getD 0
      ipv6TargetAddress := (config.ipv6Target.map fun target => ipBytes target.ip).getD []
      ipv6TargetPort := (config.ipv6Target.map fun target => target.port.toUInt32).getD 0
      listenerFamily := if config.listener.address.isIpv4 then 4 else 6
      listenerAddress := ipBytes config.listener.address
      listenerPort := config.listener.port.toUInt32
      listenerIpv4Wildcard := config.listener.ipv4Wildcard
      listenerIpv6Wildcard := config.listener.ipv6Wildcard }

/-- The configuration a message asks for, before validation. -/
def runtimeConfigFromProto (config : Option Proto.Config) : Except Status RuntimeConfig :=
  match config with
  | none => .error (.invalidArgument "config is required")
  | some config =>
    if config.schemaVersion ≠ Bpf.runtimeConfigAbiVersion.toUInt32 then
      .error (.invalidArgument "unsupported runtime config schema version")
    else do
      let address ← parseLabelledAddress config.listenerFamily config.listenerAddress "listener"
      let port ← if config.listenerPort.toNat > 65535 then
          .error (.invalidArgument "listener port is out of range")
        else pure config.listenerPort.toUInt16
      let ipv4Target ← parseTarget 4 config.ipv4TargetAddress config.ipv4TargetPort "IPv4 target"
      let ipv6Target ← parseTarget 6 config.ipv6TargetAddress config.ipv6TargetPort "IPv6 target"
      pure
        { schemaVersion := config.schemaVersion.toUInt16
          revision := 0
          idleTtl := config.idleTtlMs.toNat * 1000000
          logCapacity := config.logCapacity.toNat
          activeFlowCapacity := config.activeFlowCapacity.toNat
          tcpTerminalGrace := config.tcpTerminalGraceMs.toNat * 1000000
          ipv4Target := ipv4Target
          ipv6Target := ipv6Target
          listener :=
            { address := address
              port := port
              ipv4Wildcard := config.listenerIpv4Wildcard
              ipv6Wildcard := config.listenerIpv6Wildcard } }

/-! ## Tuples and flows -/

/-- The message of a tuple; one of two families has no addresses. -/
def tupleToProto (tuple : Tuple) : Proto.Tuple :=
  let addresses : UInt32 × List UInt8 × List UInt8 :=
    match tuple.source, tuple.destination with
    | .v4 source, .v4 destination => (4, source.toList, destination.toList)
    | .v6 source, .v6 destination => (6, source.toList, destination.toList)
    | _, _ => (0, [], [])
  { family := addresses.1
    sourceAddress := addresses.2.1
    destinationAddress := addresses.2.2
    protocol := tuple.protocol.toUInt32
    sourcePort := tuple.sourcePort.toUInt32
    destinationPort := tuple.destinationPort.toUInt32 }

/-- The tuple of a message, once it is checked. -/
def tupleFromProto (tuple : Option Proto.Tuple) : Except Status Tuple :=
  match tuple with
  | none => .error (.invalidArgument "synthetic tuple is required")
  | some tuple => do
    let source ← parseLabelledAddress tuple.family tuple.sourceAddress "source"
    let destination ← parseLabelledAddress tuple.family tuple.destinationAddress "destination"
    if tuple.protocol.toNat > 255 ∨ tuple.sourcePort.toNat > 65535 ∨
        tuple.destinationPort.toNat > 65535 then
      .error (.invalidArgument "tuple field is out of range")
    else do
      let tuple : Tuple :=
        { source := source
          destination := destination
          protocol := tuple.protocol.toUInt8
          sourcePort := tuple.sourcePort.toUInt16
          destinationPort := tuple.destinationPort.toUInt16 }
      match tuple.validate with
      | .error error => .error (.invalidArgument error.message)
      | .ok () => pure tuple

/-- The message of a flow. -/
def flowToProto (flow : FlowState) (observedNowNs : UInt64) : Proto.Flow where
  flowId := flow.flowId
  generation := flow.generation
  synthetic := some (tupleToProto flow.target)
  original := some (tupleToProto flow.original)
  protocol := flow.original.protocol.toUInt32
  lastUsedNs := flow.lastUsedNs
  tcpStateFlags := flow.tcpStateFlags
  protocolFlags := flow.protocolFlags
  observedNowNs := observedNowNs
  finSeenMask := flow.finSeenMask.toUInt32
  finAckSeenMask := flow.finAckSeenMask.toUInt32

end ShadowSocketProxy.ControlService
