import ShadowSocketProxy.Data.Bytes

/-! # Records of the packet path

The structures of `shadow-socket-proxy.bpf.c` and their packed layout. A port or version field holds
the number its two network-order bytes denote; the other multi-byte fields are in the byte order of
the machine, which is little-endian. Reserved bytes are always zero in the values the classifiers
write, so only the keys, which are compared byte by byte, carry them. -/

namespace ShadowSocketProxy.Bpf

open Bytes

/-- An address in its shared 16-byte form. -/
abbrev Address : Type := Vector UInt8 16

/-- An IPv4 address in dotted order. -/
def ipv4 (a b c d : UInt8) : Vector UInt8 4 := #v[a, b, c, d]

/-- Version encoded in tuple, index and state records. -/
def mapAbiVersion : UInt16 := 1

/-- Version of the runtime configuration layout. -/
def runtimeConfigAbiVersion : UInt16 := 3

/-- Lifecycle of a flow reserved before activation. -/
def flowCreating : UInt8 := 1

/-- Lifecycle of a flow eligible for rewriting. -/
def flowActive : UInt8 := 2

/-- A deletion that expired before the host committed it. -/
def flowDeleteAborted : UInt32 := 1

/-- A deletion committed by the host. -/
def flowDeleteCommitted : UInt32 := 2

/-- A capacity-release journal entry that is not consumed yet. -/
def flowReleasePending : UInt32 := 0

/-- IP protocol number of TCP. -/
def ipprotoTcp : UInt8 := 6

/-- IP protocol number of UDP. -/
def ipprotoUdp : UInt8 := 17

/-- Key of the tuple index. -/
structure TupleKey where
  version : UInt16 := 0
  family : UInt8 := 0
  protocol : UInt8 := 0
  source : Address := Vector.replicate 16 0
  destination : Address := Vector.replicate 16 0
  sourcePort : UInt16 := 0
  destinationPort : UInt16 := 0
  deriving DecidableEq

/-- Value of the tuple index: which flow owns the tuple. -/
structure FlowIndexValue where
  version : UInt16 := 0
  reserved : UInt16 := 0
  flowId : UInt64 := 0
  generation : UInt32 := 0
  deriving DecidableEq

/-- Key of the flow-state map and of the maps beside it. -/
structure FlowStateKey where
  version : UInt16 := 0
  reserved : UInt16 := 0
  flowId : UInt64 := 0
  generation : UInt32 := 0
  deriving DecidableEq

/-- The state key of a flow identity. -/
def stateKeyOf (flowId : UInt64) (generation : UInt32) : FlowStateKey where
  version := mapAbiVersion
  flowId := flowId
  generation := generation

/-- The index value of a flow identity. -/
def indexOf (flowId : UInt64) (generation : UInt32) : FlowIndexValue where
  version := mapAbiVersion
  flowId := flowId
  generation := generation

/-- The tuples and the lifecycle of one flow. -/
structure FlowStateValue where
  original : TupleKey := {}
  target : TupleKey := {}
  reverse : TupleKey := {}
  lastUsedNs : UInt64 := 0
  protocolFlags : UInt32 := 0
  tcpStateFlags : UInt32 := 0
  finSeenMask : UInt8 := 0
  finAckSeenMask : UInt8 := 0
  lifecycle : UInt8 := 0
  terminalDeadlineNs : UInt64 := 0
  flowId : UInt64 := 0
  generation : UInt32 := 0
  deriving DecidableEq

/-- Targets, listener identity and limits read by the classifiers. -/
structure RuntimeConfigValue where
  schemaVersion : UInt16 := 0
  v4TargetSet : UInt8 := 0
  v6TargetSet : UInt8 := 0
  v4Target : Vector UInt8 4 := Vector.replicate 4 0
  v4TargetPort : UInt16 := 0
  v6Target : Address := Vector.replicate 16 0
  v6TargetPort : UInt16 := 0
  listenerFamily : UInt8 := 0
  listenerWildcardFlags : UInt8 := 0
  listenerAddress : Address := Vector.replicate 16 0
  listenerPort : UInt16 := 0
  idleTtlNs : UInt64 := 0
  terminalGraceNs : UInt64 := 0
  activeFlowCapacity : UInt32 := 0
  deriving DecidableEq

/-- Offsets and normalised tuple of one parsed frame. -/
structure PacketInfo where
  l3Offset : Nat := 0
  l4Offset : Nat := 0
  l4ChecksumOffset : Nat := 0
  family : UInt8 := 0
  protocol : UInt8 := 0
  tcpFlags : UInt8 := 0
  source : Address := Vector.replicate 16 0
  destination : Address := Vector.replicate 16 0
  sourcePort : UInt16 := 0
  destinationPort : UInt16 := 0
  deriving DecidableEq

/-- What a classifier tells the kernel to do with a frame. -/
inductive TcAction where
  /-- `TC_ACT_OK`: let the frame pass. -/
  | ok
  /-- `TC_ACT_SHOT`: drop the frame. -/
  | shot
  deriving DecidableEq

/-! ## Packed layout -/

/-- The 40 bytes of a tuple key. -/
def TupleKey.pack (k : TupleKey) : List UInt8 :=
  be16Bytes k.version ++ [k.family, k.protocol] ++ k.source.toList ++ k.destination.toList ++
    be16Bytes k.sourcePort ++ be16Bytes k.destinationPort

/-- The tuple key that 40 bytes hold. -/
def TupleKey.unpack (bs : List UInt8) : TupleKey where
  version := be16At bs 0
  family := byteAt bs 2
  protocol := byteAt bs 3
  source := arrayAt 16 bs 4
  destination := arrayAt 16 bs 20
  sourcePort := be16At bs 36
  destinationPort := be16At bs 38

/-- The 16 bytes of a flow identity, shared by index values and state keys. -/
def packIdentity (version reserved : UInt16) (flowId : UInt64) (generation : UInt32) : List UInt8 :=
  be16Bytes version ++ leBytes 2 reserved.toNat ++ leBytes 8 flowId.toNat ++
    leBytes 4 generation.toNat

/-- The 16 bytes of an index value. -/
def FlowIndexValue.pack (v : FlowIndexValue) : List UInt8 :=
  packIdentity v.version v.reserved v.flowId v.generation

/-- The state key that 16 bytes hold. -/
def FlowStateKey.unpack (bs : List UInt8) : FlowStateKey where
  version := be16At bs 0
  reserved := UInt16.ofNat (leAt 2 bs 2)
  flowId := UInt64.ofNat (leAt 8 bs 4)
  generation := UInt32.ofNat (leAt 4 bs 12)

/-- The 256 bytes of a flow-state value. -/
def FlowStateValue.pack (v : FlowStateValue) : List UInt8 :=
  v.original.pack ++ v.target.pack ++ v.reverse.pack ++ leBytes 8 v.lastUsedNs.toNat ++
    leBytes 4 v.protocolFlags.toNat ++ leBytes 4 v.tcpStateFlags.toNat ++
    [v.finSeenMask, v.finAckSeenMask, v.lifecycle, 0] ++ leBytes 8 v.terminalDeadlineNs.toNat ++
    leBytes 8 v.flowId.toNat ++ leBytes 4 v.generation.toNat ++ List.replicate 96 0

/-- The flow-state value that 256 bytes hold. -/
def FlowStateValue.unpack (bs : List UInt8) : FlowStateValue where
  original := TupleKey.unpack (bs.take 40)
  target := TupleKey.unpack ((bs.drop 40).take 40)
  reverse := TupleKey.unpack ((bs.drop 80).take 40)
  lastUsedNs := UInt64.ofNat (leAt 8 bs 120)
  protocolFlags := UInt32.ofNat (leAt 4 bs 128)
  tcpStateFlags := UInt32.ofNat (leAt 4 bs 132)
  finSeenMask := byteAt bs 136
  finAckSeenMask := byteAt bs 137
  lifecycle := byteAt bs 138
  terminalDeadlineNs := UInt64.ofNat (leAt 8 bs 140)
  flowId := UInt64.ofNat (leAt 8 bs 148)
  generation := UInt32.ofNat (leAt 4 bs 156)

/-- The configuration that 80 bytes hold. -/
def RuntimeConfigValue.unpack (bs : List UInt8) : RuntimeConfigValue where
  schemaVersion := be16At bs 0
  v4TargetSet := byteAt bs 2
  v6TargetSet := byteAt bs 3
  v4Target := arrayAt 4 bs 4
  v4TargetPort := be16At bs 8
  v6Target := arrayAt 16 bs 10
  v6TargetPort := be16At bs 26
  listenerFamily := byteAt bs 28
  listenerWildcardFlags := byteAt bs 29
  listenerAddress := arrayAt 16 bs 30
  listenerPort := be16At bs 46
  idleTtlNs := UInt64.ofNat (leAt 8 bs 48)
  terminalGraceNs := UInt64.ofNat (leAt 8 bs 56)
  activeFlowCapacity := UInt32.ofNat (leAt 4 bs 64)

@[simp] theorem TupleKey.length_pack (k : TupleKey) : k.pack.length = 40 := by
  simp [TupleKey.pack]

@[simp] theorem FlowStateValue.length_pack (v : FlowStateValue) : v.pack.length = 256 := by
  simp [FlowStateValue.pack]

/-- Unpacking a packed tuple key gives it back. -/
@[simp] theorem TupleKey.unpack_pack (k : TupleKey) : TupleKey.unpack k.pack = k := by
  obtain ⟨version, family, protocol, source, destination, sourcePort, destinationPort⟩ := k
  simp only [TupleKey.unpack, TupleKey.pack, TupleKey.mk.injEq]
  refine ⟨?_, ?_, ?_, ?_, ?_, ?_, ?_⟩
  all_goals
    simp (disch := simp) only [be16At_append_left, be16At_append_right, byteAt_append_left,
      byteAt_append_right, arrayAt_append_left, arrayAt_append_right]
    simp [be16At_be16Bytes, arrayAt_toList, byteAt]

/-- Unpacking a packed flow identity gives the state key with that identity. -/
@[simp] theorem FlowStateKey.unpack_packIdentity (version reserved : UInt16) (flowId : UInt64)
    (generation : UInt32) :
    FlowStateKey.unpack (packIdentity version reserved flowId generation) =
      ⟨version, reserved, flowId, generation⟩ := by
  have hr : reserved.toNat < 256 ^ 2 := reserved.toNat_lt
  have hf : flowId.toNat < 256 ^ 8 := flowId.toNat_lt
  have hg : generation.toNat < 256 ^ 4 := generation.toNat_lt
  simp only [FlowStateKey.unpack, packIdentity, FlowStateKey.mk.injEq]
  refine ⟨?_, ?_, ?_, ?_⟩
  all_goals
    simp (disch := simp) only [be16At_append_left, leAt_append_left, leAt_append_right]
    simp [be16At_be16Bytes, leAt_leBytes hr, leAt_leBytes hf, leAt_leBytes hg]

theorem FlowStateValue.take_original (v : FlowStateValue) : v.pack.take 40 = v.original.pack := by
  simp [FlowStateValue.pack]

theorem FlowStateValue.take_target (v : FlowStateValue) :
    (v.pack.drop 40).take 40 = v.target.pack := by
  simp [FlowStateValue.pack]

theorem FlowStateValue.take_reverse (v : FlowStateValue) :
    (v.pack.drop 80).take 40 = v.reverse.pack := by
  simp [FlowStateValue.pack, List.take_append, List.drop_append]

/-- Unpacking a packed flow-state value gives it back. -/
@[simp] theorem FlowStateValue.unpack_pack (v : FlowStateValue) :
    FlowStateValue.unpack v.pack = v := by
  have ho := v.take_original
  have ht := v.take_target
  have hr := v.take_reverse
  obtain ⟨original, target, reverse, lastUsed, protocolFlags, tcpFlags, fin, finAck, lifecycle,
    deadline, flowId, generation⟩ := v
  have h₁ : lastUsed.toNat < 256 ^ 8 := lastUsed.toNat_lt
  have h₂ : protocolFlags.toNat < 256 ^ 4 := protocolFlags.toNat_lt
  have h₃ : tcpFlags.toNat < 256 ^ 4 := tcpFlags.toNat_lt
  have h₄ : deadline.toNat < 256 ^ 8 := deadline.toNat_lt
  have h₅ : flowId.toNat < 256 ^ 8 := flowId.toNat_lt
  have h₆ : generation.toNat < 256 ^ 4 := generation.toNat_lt
  simp only [FlowStateValue.unpack, ho, ht, hr, TupleKey.unpack_pack, FlowStateValue.mk.injEq,
    true_and]
  refine ⟨?_, ?_, ?_, ?_, ?_, ?_, ?_, ?_, ?_⟩
  all_goals
    simp (disch := simp) only [FlowStateValue.pack, leAt_append_left, leAt_append_right,
      byteAt_append_left, byteAt_append_right]
    simp [byteAt, leAt_leBytes h₁, leAt_leBytes h₂, leAt_leBytes h₃, leAt_leBytes h₄,
      leAt_leBytes h₅, leAt_leBytes h₆]

/-- Tuple keys with the same bytes are equal. -/
theorem TupleKey.pack_injective : Function.Injective TupleKey.pack :=
  Function.LeftInverse.injective TupleKey.unpack_pack

end ShadowSocketProxy.Bpf
