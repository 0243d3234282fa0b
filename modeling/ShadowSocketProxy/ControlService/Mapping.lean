import ShadowSocketProxy.Bpf.Packet

/-! # Tuples and flow states of the control service

The typed view `mapping.rs` has of the map records, with its encoders, decoders and checks. The
native byte order is little-endian, as on the packet side. -/

namespace ShadowSocketProxy.ControlService

open Bytes

variable {ε β α : Type} {k : Bpf.TupleKey} {v : Bpf.FlowStateValue} {f : α → Except ε β}

/-- An IP address. -/
inductive IpAddr where
  | v4 (octets : Vector UInt8 4)
  | v6 (octets : Vector UInt8 16)
  deriving DecidableEq

namespace IpAddr

/-- `is_ipv4`. -/
def isIpv4 : IpAddr → Bool
  | .v4 _ => true
  | .v6 _ => false

/-- `is_unspecified`: all octets are zero. -/
def isUnspecified : IpAddr → Bool
  | .v4 octets => octets = Vector.replicate 4 0
  | .v6 octets => octets = Vector.replicate 16 0

end IpAddr

/-- Failures of validating or decoding the map layout. -/
inductive AbiError where
  | unsupportedVersion (version : UInt16)
  | invalidLength (expected actual : Nat)
  | invalidFamily (family : UInt8)
  | unsupportedProtocol (protocol : UInt8)
  | familyMismatch
  | zeroPort
  | unspecifiedAddress
  | invalidLifecycle (value : UInt8)
  deriving DecidableEq

/-- The text of an error. -/
def AbiError.message : AbiError → String
  | .unsupportedVersion version => "unsupported ABI version " ++ toString version
  | .invalidLength expected actual =>
    "malformed ABI length: expected " ++ toString expected ++ ", got " ++ toString actual
  | .invalidFamily family => "invalid address family " ++ toString family
  | .unsupportedProtocol protocol => "unsupported protocol " ++ toString protocol
  | .familyMismatch => "address families do not match"
  | .zeroPort => "port must be non-zero"
  | .unspecifiedAddress => "unspecified address is not supported"
  | .invalidLifecycle value => "invalid lifecycle value " ++ toString value

/-- Five-tuple of a flow. -/
structure Tuple where
  source : IpAddr
  destination : IpAddr
  protocol : UInt8
  sourcePort : UInt16
  destinationPort : UInt16
  deriving DecidableEq

/-- Reject protocols other than TCP and UDP. -/
def validateProtocol (protocol : UInt8) : Except AbiError Unit :=
  if protocol = Bpf.ipprotoTcp ∨ protocol = Bpf.ipprotoUdp then .ok ()
  else .error (.unsupportedProtocol protocol)

namespace Tuple

/-- The family discriminator, 4 or 6. -/
def family (t : Tuple) : UInt8 :=
  match t.source with
  | .v4 _ => 4
  | .v6 _ => 6

/-- Check family, protocol, ports and addresses. -/
def validate (t : Tuple) : Except AbiError Unit := do
  if t.source.isIpv4 ≠ t.destination.isIpv4 then .error .familyMismatch
  else do
    validateProtocol t.protocol
    if t.sourcePort = 0 ∨ t.destinationPort = 0 then .error .zeroPort
    else if t.source.isUnspecified ∨ t.destination.isUnspecified then .error .unspecifiedAddress
    else .ok ()

end Tuple

/-- Lifecycle of a flow. -/
inductive FlowLifecycle where
  | creating
  | active
  deriving DecidableEq

namespace FlowLifecycle

/-- `TryFrom<u8>`. -/
def ofUInt8 (value : UInt8) : Except AbiError FlowLifecycle :=
  if value = 1 then .ok .creating
  else if value = 2 then .ok .active
  else .error (.invalidLifecycle value)

/-- The wire value. -/
def toUInt8 : FlowLifecycle → UInt8
  | .creating => 1
  | .active => 2

end FlowLifecycle

/-- Flow identity stored for each tuple index. -/
structure FlowIndexValue where
  flowId : UInt64
  generation : UInt32
  deriving DecidableEq

/-- Complete state of one flow. -/
structure FlowState where
  flowId : UInt64
  generation : UInt32
  original : Tuple
  target : Tuple
  reverse : Tuple
  lastUsedNs : UInt64
  protocolFlags : UInt32
  tcpStateFlags : UInt32
  finSeenMask : UInt8
  finAckSeenMask : UInt8
  lifecycle : FlowLifecycle
  terminalDeadlineNs : UInt64
  deriving DecidableEq

/-- Check the tuples, their compatibility and the deadline of a flow in creation. -/
def FlowState.validate (s : FlowState) : Except AbiError Unit := do
  s.original.validate
  s.target.validate
  s.reverse.validate
  if s.original.protocol ≠ s.target.protocol ∨ s.target.protocol ≠ s.reverse.protocol then
    .error (.unsupportedProtocol s.original.protocol)
  else if s.original.destination.isIpv4 ≠ s.target.destination.isIpv4 ∨
      s.target.destination.isIpv4 ≠ s.reverse.destination.isIpv4 then
    .error .familyMismatch
  else if s.lifecycle = .creating ∧ s.terminalDeadlineNs ≠ 0 then
    .error (.invalidLifecycle s.lifecycle.toUInt8)
  else .ok ()

/-! ## Codecs -/

/-- An address in its 16-byte form. -/
def addressBytes : IpAddr → Vector UInt8 16
  | .v4 octets => Bpf.ipv4ToMapped octets
  | .v6 octets => octets

/-- The address 16 bytes hold in a family. -/
def parseAddress (family : UInt8) (bytes : Vector UInt8 16) : Except AbiError IpAddr :=
  if family = 4 then .ok (.v4 #v[bytes[12], bytes[13], bytes[14], bytes[15]])
  else if family = 6 then .ok (.v6 bytes)
  else .error (.invalidFamily family)

/-- Serialise a tuple into its map key. -/
def encodeKey (t : Tuple) : List UInt8 :=
  be16Bytes Bpf.mapAbiVersion ++ [t.family, t.protocol] ++ (addressBytes t.source).toList ++
    (addressBytes t.destination).toList ++ be16Bytes t.sourcePort ++ be16Bytes t.destinationPort

/-- Parse a map key. -/
def decodeKey (bytes : List UInt8) : Except AbiError Tuple := do
  if bytes.length ≠ 40 then .error (.invalidLength 40 bytes.length)
  else if be16At bytes 0 ≠ Bpf.mapAbiVersion then .error (.unsupportedVersion (be16At bytes 0))
  else do
    let source ← parseAddress (byteAt bytes 2) (arrayAt 16 bytes 4)
    let destination ← parseAddress (byteAt bytes 2) (arrayAt 16 bytes 20)
    let tuple : Tuple :=
      { source := source
        destination := destination
        protocol := byteAt bytes 3
        sourcePort := be16At bytes 36
        destinationPort := be16At bytes 38 }
    if tuple.source.isIpv4 ≠ tuple.destination.isIpv4 then .error .familyMismatch
    else .ok tuple

/-- Parse a flow-index value. -/
def decodeFlowIndex (bytes : List UInt8) : Except AbiError FlowIndexValue :=
  if bytes.length ≠ 16 then .error (.invalidLength 16 bytes.length)
  else if be16At bytes 0 ≠ Bpf.mapAbiVersion then .error (.unsupportedVersion (be16At bytes 0))
  else .ok
    { flowId := UInt64.ofNat (leAt 8 bytes 4)
      generation := UInt32.ofNat (leAt 4 bytes 12) }

/-- Serialise the key of a state record. -/
def encodeFlowStateKey (flowId : UInt64) (generation : UInt32) : List UInt8 :=
  Bpf.packIdentity Bpf.mapAbiVersion 0 flowId generation

/-- Decode and validate a flow-state value. -/
def decodeFlowState (bytes : List UInt8) : Except AbiError FlowState := do
  if bytes.length ≠ 256 then .error (.invalidLength 256 bytes.length)
  else do
    let original ← decodeKey (bytes.take 40)
    let target ← decodeKey ((bytes.drop 40).take 40)
    let reverse ← decodeKey ((bytes.drop 80).take 40)
    let lifecycle ← FlowLifecycle.ofUInt8 (byteAt bytes 138)
    let state : FlowState :=
      { original := original
        target := target
        reverse := reverse
        lastUsedNs := UInt64.ofNat (leAt 8 bytes 120)
        protocolFlags := UInt32.ofNat (leAt 4 bytes 128)
        tcpStateFlags := UInt32.ofNat (leAt 4 bytes 132)
        finSeenMask := byteAt bytes 136
        finAckSeenMask := byteAt bytes 137
        lifecycle := lifecycle
        terminalDeadlineNs := UInt64.ofNat (leAt 8 bytes 140)
        flowId := UInt64.ofNat (leAt 8 bytes 148)
        generation := UInt32.ofNat (leAt 4 bytes 156) }
    state.validate
    pure state

/-! ## Decoding what the packet path writes -/

/-- The address a key field denotes. -/
def addressOf (family : UInt8) (a : Bpf.Address) : IpAddr :=
  if family = 4 then .v4 #v[a[12], a[13], a[14], a[15]] else .v6 a

/-- The tuple a key denotes. -/
def tupleOf (k : Bpf.TupleKey) : Tuple where
  source := addressOf k.family k.source
  destination := addressOf k.family k.destination
  protocol := k.protocol
  sourcePort := k.sourcePort
  destinationPort := k.destinationPort

/-- The flow state a record denotes, once its lifecycle byte is decoded. -/
def flowStateOf (v : Bpf.FlowStateValue) (lifecycle : FlowLifecycle) : FlowState where
  flowId := v.flowId
  generation := v.generation
  original := tupleOf v.original
  target := tupleOf v.target
  reverse := tupleOf v.reverse
  lastUsedNs := v.lastUsedNs
  protocolFlags := v.protocolFlags
  tcpStateFlags := v.tcpStateFlags
  finSeenMask := v.finSeenMask
  finAckSeenMask := v.finAckSeenMask
  lifecycle := lifecycle
  terminalDeadlineNs := v.terminalDeadlineNs

/-- A key in the layout of the current version. -/
structure Versioned (k : Bpf.TupleKey) : Prop where
  version : k.version = Bpf.mapAbiVersion
  family : k.family = 4 ∨ k.family = 6

/-- A versioned key whose IPv4 addresses are in mapped form: the only keys the packet path makes. -/
structure Canonical (k : Bpf.TupleKey) : Prop extends Versioned k where
  source : k.family = 4 → ∃ a, k.source = Bpf.ipv4ToMapped a
  destination : k.family = 4 → ∃ a, k.destination = Bpf.ipv4ToMapped a

theorem parseAddress_eq {family : UInt8} (h : family = 4 ∨ family = 6) (a : Bpf.Address) :
    parseAddress family a = .ok (addressOf family a) := by
  rcases h with rfl | rfl <;> rfl

@[simp] theorem isIpv4_addressOf (family : UInt8) (a : Bpf.Address) :
    (addressOf family a).isIpv4 = decide (family = 4) := by
  rw [addressOf]
  split <;> simp [IpAddr.isIpv4, *]

/-- A versioned key decodes to the tuple it denotes. -/
theorem decodeKey_pack (h : Versioned k) : decodeKey k.pack = .ok (tupleOf k) := by
  have hlength := k.length_pack
  have hfields := k.unpack_pack
  generalize k.pack = bytes at hlength hfields
  subst hfields
  have hversion : be16At bytes 0 = Bpf.mapAbiVersion := h.version
  have hfamily : byteAt bytes 2 = 4 ∨ byteAt bytes 2 = 6 := h.family
  simp only [decodeKey, hlength, hversion, parseAddress_eq hfamily]
  simp [bind, Except.bind, tupleOf, Bpf.TupleKey.unpack]

/-- The record of three versioned keys decodes to the state it denotes, if its lifecycle is known
and the state is valid. -/
theorem decodeFlowState_pack (ho : Versioned v.original) (ht : Versioned v.target)
    (hr : Versioned v.reverse) :
    decodeFlowState v.pack = (do
      let lifecycle ← FlowLifecycle.ofUInt8 v.lifecycle
      (flowStateOf v lifecycle).validate
      pure (flowStateOf v lifecycle)) := by
  have hlength := v.length_pack
  have hfields := v.unpack_pack
  have h₁ : decodeKey (v.pack.take 40) = .ok (tupleOf v.original) := by
    rw [v.take_original, decodeKey_pack ho]
  have h₂ : decodeKey ((v.pack.drop 40).take 40) = .ok (tupleOf v.target) := by
    rw [v.take_target, decodeKey_pack ht]
  have h₃ : decodeKey ((v.pack.drop 80).take 40) = .ok (tupleOf v.reverse) := by
    rw [v.take_reverse, decodeKey_pack hr]
  generalize v.pack = bytes at *
  subst hfields
  simp only [decodeFlowState, hlength, h₁, h₂, h₃]
  rfl

/-- A check succeeds when it is not violated and the rest succeeds. -/
theorem ite_error_eq_ok {c : Prop} [Decidable c] {e : ε} {x : Except ε β} {b : β} :
    (if c then .error e else x) = .ok b ↔ ¬ c ∧ x = .ok b := by
  split
  · rename_i h
    exact ⟨fun h => (nomatch h), fun hb => absurd h hb.1⟩
  · rename_i h
    exact ⟨fun hx => ⟨h, hx⟩, fun hx => hx.2⟩

/-- A sequence of fallible steps succeeds when each step does. -/
theorem bind_eq_ok {x : Except ε α} {b : β} : (x >>= f) = .ok b ↔ ∃ a, x = .ok a ∧ f a = .ok b := by
  cases x with
  | error e => exact ⟨fun h => (nomatch h), fun ⟨_, h, _⟩ => (nomatch h)⟩
  | ok a => exact ⟨fun h => ⟨a, rfl, h⟩, fun ⟨_, ha, h⟩ => by cases ha; exact h⟩

/-- A step for each entry of a list succeeds when every one does. -/
theorem mapM_eq_ok {l : List α} {values : List β} :
    l.mapM f = .ok values ↔ l.map f = values.map .ok := by
  induction l generalizing values with
  | nil =>
    rw [List.mapM_nil, List.map_nil, eq_comm (a := []), List.map_eq_nil_iff]
    exact ⟨fun h => (Except.ok.inj h).symm, fun h => congrArg Except.ok h.symm⟩
  | cons a l ih =>
    rw [List.mapM_cons, bind_eq_ok, List.map_cons]
    constructor
    · rintro ⟨value, hvalue, h⟩
      obtain ⟨rest, hrest, h⟩ := bind_eq_ok.mp h
      rw [← Except.ok.inj h, hvalue, ih.mp hrest, List.map_cons]
    · intro h
      obtain ⟨value, rest, rfl, hvalue, hrest⟩ := List.map_eq_cons_iff.mp h.symm
      exact ⟨value, hvalue.symm, bind_eq_ok.mpr ⟨rest, ih.mpr hrest.symm, rfl⟩⟩

/-- Where every step succeeds, so do all. -/
theorem exists_mapM_ok {l : List α} (h : ∀ a ∈ l, ∃ b, f a = .ok b) :
    ∃ values, l.mapM f = .ok values := by
  induction l with
  | nil => exact ⟨[], rfl⟩
  | cons a l ih =>
    obtain ⟨value, hvalue⟩ := h a List.mem_cons_self
    obtain ⟨values, hvalues⟩ := ih fun a' ha' => h a' (List.mem_cons_of_mem a ha')
    refine ⟨value :: values, mapM_eq_ok.mpr ?_⟩
    rw [List.map_cons, List.map_cons, hvalue, mapM_eq_ok.mp hvalues]

/-- Only a versioned key decodes. -/
theorem versioned_of_decodeKey {t : Tuple} (h : decodeKey k.pack = .ok t) : Versioned k := by
  have hfields := k.unpack_pack
  generalize k.pack = bytes at h hfields
  subst hfields
  simp only [decodeKey, ite_error_eq_ok, bind_eq_ok, not_not] at h
  obtain ⟨-, hversion, source, hsource, -⟩ := h
  refine ⟨hversion, ?_⟩
  rw [parseAddress] at hsource
  split at hsource
  · exact .inl ‹_›
  · split at hsource
    · exact .inr ‹_›
    · cases hsource

variable {flow : FlowState}

/-- What decodes, and what it decodes to. -/
theorem decodeFlowState_pack_iff :
    decodeFlowState v.pack = .ok flow ↔
      Versioned v.original ∧ Versioned v.target ∧ Versioned v.reverse ∧
        ∃ lifecycle, FlowLifecycle.ofUInt8 v.lifecycle = .ok lifecycle ∧
          (flowStateOf v lifecycle).validate = .ok () ∧ flow = flowStateOf v lifecycle := by
  constructor
  · intro h
    have hkeys : Versioned v.original ∧ Versioned v.target ∧ Versioned v.reverse := by
      rw [decodeFlowState, if_neg (not_not.mpr v.length_pack)] at h
      obtain ⟨original, horiginal, h⟩ := bind_eq_ok.mp h
      obtain ⟨target, htarget, h⟩ := bind_eq_ok.mp h
      obtain ⟨reverse, hreverse, -⟩ := bind_eq_ok.mp h
      rw [v.take_original] at horiginal
      rw [v.take_target] at htarget
      rw [v.take_reverse] at hreverse
      exact ⟨versioned_of_decodeKey horiginal, versioned_of_decodeKey htarget,
        versioned_of_decodeKey hreverse⟩
    obtain ⟨ho, ht, hr⟩ := hkeys
    rw [decodeFlowState_pack ho ht hr] at h
    obtain ⟨lifecycle, hlifecycle, h⟩ := bind_eq_ok.mp h
    obtain ⟨_, hvalid, h⟩ := bind_eq_ok.mp h
    exact ⟨ho, ht, hr, lifecycle, hlifecycle, hvalid, (Except.ok.inj h).symm⟩
  · rintro ⟨ho, ht, hr, lifecycle, hlifecycle, hvalid, rfl⟩
    rw [decodeFlowState_pack ho ht hr, hlifecycle]
    exact bind_eq_ok.mpr ⟨lifecycle, rfl, bind_eq_ok.mpr ⟨(), hvalid, rfl⟩⟩

/-- A decoded state is valid. -/
theorem validate_of_decodeFlowState {bytes : List UInt8} (h : decodeFlowState bytes = .ok flow) :
    flow.validate = .ok () := by
  rw [decodeFlowState] at h
  split at h
  · cases h
  · obtain ⟨original, -, h⟩ := bind_eq_ok.mp h
    obtain ⟨target, -, h⟩ := bind_eq_ok.mp h
    obtain ⟨reverse, -, h⟩ := bind_eq_ok.mp h
    obtain ⟨lifecycle, -, h⟩ := bind_eq_ok.mp h
    obtain ⟨_, hvalid, h⟩ := bind_eq_ok.mp h
    rw [← Except.ok.inj h]
    exact hvalid

/-- A decoded record has the timestamp of the record. -/
theorem lastUsedNs_of_decode_pack (h : decodeFlowState v.pack = .ok flow) :
    flow.lastUsedNs = v.lastUsedNs := by
  obtain ⟨-, -, -, lifecycle, -, -, rfl⟩ := decodeFlowState_pack_iff.mp h
  rfl

/-- The last four bytes of a mapped address are the IPv4 address. -/
theorem addressOf_ipv4ToMapped (a : Vector UInt8 4) :
    addressOf 4 (Bpf.ipv4ToMapped a) = .v4 a := by
  simp only [addressOf, if_true, IpAddr.v4.injEq]
  apply Vector.ext
  intro i hi
  match i, hi with
  | 0, hi => exact Bpf.getElem_ipv4ToMapped a 0 hi
  | 1, hi => exact Bpf.getElem_ipv4ToMapped a 1 hi
  | 2, hi => exact Bpf.getElem_ipv4ToMapped a 2 hi
  | 3, hi => exact Bpf.getElem_ipv4ToMapped a 3 hi

/-- The address bytes of a key field in canonical form. -/
theorem addressBytes_addressOf {family : UInt8} {a : Bpf.Address} (hfamily : family = 4 ∨ family = 6)
    (h : family = 4 → ∃ b, a = Bpf.ipv4ToMapped b) : addressBytes (addressOf family a) = a := by
  rcases hfamily with rfl | rfl
  · obtain ⟨b, rfl⟩ := h rfl
    rw [addressOf_ipv4ToMapped, addressBytes]
  · rfl

/-- A canonical key is the encoding of the tuple it denotes. -/
theorem encodeKey_tupleOf (h : Canonical k) : encodeKey (tupleOf k) = k.pack := by
  have hfamily : (tupleOf k).family = k.family := by
    rcases h.family with hf | hf <;> simp [Tuple.family, tupleOf, addressOf, hf]
  have hsource := addressBytes_addressOf h.family h.source
  have hdest := addressBytes_addressOf h.family h.destination
  simp only [encodeKey, Bpf.TupleKey.pack, hfamily, h.version]
  simp only [tupleOf, hsource, hdest]

/-- The host addresses a flow by the same key as the packet path. -/
@[simp] theorem unpack_encodeFlowStateKey (flowId : UInt64) (generation : UInt32) :
    Bpf.FlowStateKey.unpack (encodeFlowStateKey flowId generation) =
      Bpf.stateKeyOf flowId generation := by
  rw [encodeFlowStateKey, Bpf.FlowStateKey.unpack_packIdentity]
  rfl

/-- The index values of the packet path decode to the flow identity they hold. -/
theorem decodeFlowIndex_pack (v : Bpf.FlowIndexValue) :
    decodeFlowIndex v.pack =
      if v.version ≠ Bpf.mapAbiVersion then .error (.unsupportedVersion v.version)
      else .ok ⟨v.flowId, v.generation⟩ := by
  have hlength : v.pack.length = 16 := by simp [Bpf.FlowIndexValue.pack, Bpf.packIdentity]
  have hfields : Bpf.FlowStateKey.unpack v.pack = ⟨v.version, v.reserved, v.flowId, v.generation⟩ :=
    Bpf.FlowStateKey.unpack_packIdentity _ _ _ _
  simp only [Bpf.FlowStateKey.unpack, Bpf.FlowStateKey.mk.injEq] at hfields
  obtain ⟨hversion, -, hflow, hgen⟩ := hfields
  simp only [decodeFlowIndex, hlength, hversion, hflow, hgen, ne_eq, not_true_eq_false, if_false]

-- From here on the codecs are used through the lemmas above only.
attribute [irreducible] decodeFlowState decodeFlowIndex encodeKey

end ShadowSocketProxy.ControlService
