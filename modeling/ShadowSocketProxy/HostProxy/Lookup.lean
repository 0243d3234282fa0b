import ShadowSocketProxy.ControlService.Lookup
import ShadowSocketProxy.HostProxy.Client

/-! # Asking for the original destination

The proxy asks the control service where a redirected connection was going. Its own addresses are
socket addresses of the standard library, which for IPv6 carry flow information and a scope. Neither is
part of a message, and the answer is compared with the question as a whole. -/

namespace ShadowSocketProxy.HostProxy

open Interleaving Bpf ControlService Alone
open Interleaving.Machine (wp_seq)

/-- A socket address of the standard library. -/
inductive StdSocketAddr where
  | v4 (octets : Vector UInt8 4) (port : UInt16)
  | v6 (octets : Vector UInt8 16) (port : UInt16) (flowinfo scopeId : UInt32)
  deriving DecidableEq

namespace StdSocketAddr

/-- Its address. -/
def ip : StdSocketAddr → IpAddr
  | .v4 octets _ => .v4 octets
  | .v6 octets _ _ _ => .v6 octets

/-- Its port. -/
def port : StdSocketAddr → UInt16
  | .v4 _ port => port
  | .v6 _ port _ _ => port

/-- `SocketAddr::new`. -/
def new (ip : IpAddr) (port : UInt16) : StdSocketAddr :=
  match ip with
  | .v4 octets => .v4 octets port
  | .v6 octets => .v6 octets port 0 0

/-- Without flow information and scope. -/
def unscoped : StdSocketAddr → Bool
  | .v4 _ _ => true
  | .v6 _ _ flowinfo scopeId => flowinfo = 0 && scopeId = 0

/-- An address is given by `ip` and `port` exactly when it is `unscoped`. -/
theorem new_ip_port_eq_iff (address : StdSocketAddr) :
    new address.ip address.port = address ↔ address.unscoped = true := by
  cases address with
  | v4 octets port => simp [new, ip, StdSocketAddr.port, unscoped]
  | v6 octets port flowinfo scopeId =>
    simp only [new, ip, StdSocketAddr.port, v6.injEq, true_and, unscoped, Bool.and_eq_true,
      decide_eq_true_eq]
    exact ⟨fun h => ⟨h.1.symm, h.2.symm⟩, fun h => ⟨h.1.symm, h.2.symm⟩⟩

@[simp] theorem ip_new (ip : IpAddr) (port : UInt16) : (new ip port).ip = ip := by
  cases ip <;> rfl

@[simp] theorem port_new (ip : IpAddr) (port : UInt16) : (new ip port).port = port := by
  cases ip <;> rfl

end StdSocketAddr

/-- The two ends of a connection and its protocol. -/
structure SocketTuple where
  source : StdSocketAddr
  destination : StdSocketAddr
  protocol : UInt8
  deriving DecidableEq

/-- Where a connection was going. -/
structure OriginalDestination where
  address : StdSocketAddr
  protocol : UInt8
  deriving DecidableEq

/-! ## The client -/

/-- The message that asks for a tuple. -/
def requestTuple (tuple : SocketTuple) : Proto.Tuple where
  family := if tuple.source.ip.isIpv4 then 4 else 6
  sourceAddress := ipBytes tuple.source.ip
  destinationAddress := ipBytes tuple.destination.ip
  protocol := tuple.protocol.toUInt32
  sourcePort := tuple.source.port.toUInt32
  destinationPort := tuple.destination.port.toUInt32

/-- The address of a message. -/
def ipFromBytes (family : UInt32) (bytes : List UInt8) : Except ProxyError IpAddr :=
  match addressOfBytes family bytes with
  | some ip => .ok ip
  | none => .error (.invalidMapping "invalid address family")

/-- The tuple of a message. -/
def socketTupleFromProto (tuple : Proto.Tuple) : Except ProxyError SocketTuple := do
  let source ← ipFromBytes tuple.family tuple.sourceAddress
  let destination ← ipFromBytes tuple.family tuple.destinationAddress
  if tuple.protocol.toNat > 255 ∨ tuple.sourcePort.toNat > 65535 ∨
      tuple.destinationPort.toNat > 65535 then
    .error (.invalidMapping "tuple field out of range")
  else
    .ok
      { source := StdSocketAddr.new source tuple.sourcePort.toUInt16
        destination := StdSocketAddr.new destination tuple.destinationPort.toUInt16
        protocol := tuple.protocol.toUInt8 }

/-- The destination of an original tuple, checked against the question. -/
def acceptOriginal (tuple : SocketTuple) (original : Proto.Tuple) :
    Except ProxyError OriginalDestination := do
  let address ← socketTupleFromProto original
  if address.protocol ≠ tuple.protocol then
    .error (.invalidMapping "mapping protocol does not match lookup")
  else if address.destination.ip.isUnspecified ∨ address.destination.port = 0 ∨
      address.destination.ip.isIpv4 ≠ tuple.destination.ip.isIpv4 then
    .error (.invalidMapping "mapping destination has an invalid address or port")
  else
    .ok ⟨address.destination, address.protocol⟩

/-- What the client makes of an answer. -/
def acceptMapping (tuple : SocketTuple) (mapping : Proto.Mapping) :
    Except ProxyError OriginalDestination :=
  match mapping.synthetic with
  | none => .error (.invalidMapping "missing synthetic tuple")
  | some synthetic => do
    let echoed ← socketTupleFromProto synthetic
    -- The comparison is that of socket addresses: scopes count.
    if echoed ≠ tuple then
      .error (.invalidMapping "mapping synthetic tuple does not match lookup")
    else
      match mapping.original with
      | none => .error (.invalidMapping "missing original tuple")
      | some original => acceptOriginal tuple original

/-- How a call gets to the service and back. -/
inductive Transport where
  | lockTimedOut
  | rpcTimedOut
  /-- The service answers; an error other than a missing mapping is reported with this text. -/
  | answered (text : String)

/-- `get_mapping` of the client. -/
def lookupOriginal (transport : Transport) (tuple : SocketTuple) :
    Prog (Except ProxyError OriginalDestination) :=
  match transport with
  | .lockTimedOut => pure (.error (.control "control client lock timed out"))
  | .rpcTimedOut => do
    let _ ← getMapping (some (requestTuple tuple))
    pure (.error (.control "control RPC timed out"))
  | .answered text => do
    let reply ← getMapping (some (requestTuple tuple))
    match reply with
    | .error status =>
      if status.code = .notFound then pure (.error .mappingNotFound)
      else pure (.error (.control text))
    | .ok mapping => pure (acceptMapping tuple mapping)

/-! ## What comes back -/

/-- A tuple as the control service has it. -/
def serviceTuple (tuple : SocketTuple) : Tuple where
  source := tuple.source.ip
  destination := tuple.destination.ip
  protocol := tuple.protocol
  sourcePort := tuple.source.port
  destinationPort := tuple.destination.port

/-- Neither end has flow information or a scope. -/
def SocketTuple.unscoped (tuple : SocketTuple) : Bool :=
  tuple.source.unscoped && tuple.destination.unscoped

/-- The original destination of a flow. -/
def originalOf (flow : FlowState) : OriginalDestination :=
  ⟨StdSocketAddr.new flow.original.destination flow.original.destinationPort, flow.original.protocol⟩

/-- A tuple as the service sends it back. -/
def echo (tuple : SocketTuple) : SocketTuple where
  source := StdSocketAddr.new tuple.source.ip tuple.source.port
  destination := StdSocketAddr.new tuple.destination.ip tuple.destination.port
  protocol := tuple.protocol

theorem echo_eq_iff (tuple : SocketTuple) : echo tuple = tuple ↔ tuple.unscoped = true := by
  rw [SocketTuple.unscoped, Bool.and_eq_true, ← StdSocketAddr.new_ip_port_eq_iff,
    ← StdSocketAddr.new_ip_port_eq_iff]
  obtain ⟨source, destination, protocol⟩ := tuple
  simp only [echo, SocketTuple.mk.injEq, and_true]

theorem requestTuple_eq {tuple : SocketTuple}
    (h : tuple.source.ip.isIpv4 = tuple.destination.ip.isIpv4) :
    requestTuple tuple = tupleToProto (serviceTuple tuple) := by
  rw [tupleToProto_eq h]
  simp only [requestTuple, serviceTuple]
  cases tuple.source.ip <;> rfl

/-- `socketTupleFromProto` takes a tuple of the service without scopes. -/
theorem socketTupleFromProto_eq {tuple : Tuple} (h : tuple.source.isIpv4 = tuple.destination.isIpv4) :
    socketTupleFromProto (tupleToProto tuple) = .ok
      { source := StdSocketAddr.new tuple.source tuple.sourcePort
        destination := StdSocketAddr.new tuple.destination tuple.destinationPort
        protocol := tuple.protocol } := by
  have hdestination : addressOfBytes tuple.source.familyNumber (ipBytes tuple.destination) =
      some tuple.destination := by
    rw [familyNumber_eq h, addressOfBytes_ipBytes]
  rw [tupleToProto_eq h]
  simp only [socketTupleFromProto, ipFromBytes, addressOfBytes_ipBytes, hdestination]
  refine (if_neg (in_range tuple)).trans ?_
  simp only [UInt8.toUInt8_toUInt32, UInt16.toUInt16_toUInt32]

/-- The destination of a valid tuple is a specified address with a port. -/
theorem destination_of_validate {tuple : Tuple} (h : tuple.validate = .ok ()) :
    tuple.destination.isUnspecified = false ∧ tuple.destinationPort ≠ 0 := by
  rw [Tuple.validate] at h
  obtain ⟨-, h⟩ := ite_error_eq_ok.mp h
  obtain ⟨_, -, h⟩ := bind_eq_ok.mp h
  obtain ⟨hports, h⟩ := ite_error_eq_ok.mp h
  obtain ⟨haddresses, -⟩ := ite_error_eq_ok.mp h
  rw [not_or] at hports haddresses
  exact ⟨Bool.eq_false_iff.mpr haddresses.2, hports.2⟩

/-- `acceptOriginal` takes the original tuple of a valid flow. -/
theorem acceptOriginal_eq {tuple : SocketTuple} {flow : FlowState} (hvalid : flow.validate = .ok ())
    (htarget : flow.target = serviceTuple tuple) :
    acceptOriginal tuple (tupleToProto flow.original) = .ok (originalOf flow) := by
  obtain ⟨horiginal, -, hprotocol, hfamily⟩ := FlowState.of_validate hvalid
  obtain ⟨hspecified, hport⟩ := destination_of_validate horiginal
  rw [htarget] at hprotocol hfamily
  rw [acceptOriginal, socketTupleFromProto_eq (Tuple.isIpv4_of_validate horiginal)]
  refine (if_neg (not_not.mpr hprotocol)).trans ((if_neg ?_).trans rfl)
  simp [hspecified, hport, hfamily, serviceTuple]

/-- `acceptMapping` compares the answer with its question before it looks at the original tuple. -/
theorem acceptMapping_eq {tuple : SocketTuple} {flow : FlowState} (hvalid : flow.validate = .ok ())
    (htarget : flow.target = serviceTuple tuple) :
    acceptMapping tuple (mappingToProto flow.mapping) =
      if echo tuple ≠ tuple then
        .error (.invalidMapping "mapping synthetic tuple does not match lookup")
      else acceptOriginal tuple (tupleToProto flow.original) := by
  have hfamily := Tuple.isIpv4_of_validate (FlowState.of_validate hvalid).2.1
  have hecho : socketTupleFromProto (tupleToProto flow.target) = .ok (echo tuple) := by
    rw [socketTupleFromProto_eq hfamily, htarget]
    rfl
  show (socketTupleFromProto (tupleToProto flow.target) >>= _) = _
  rw [hecho]
  rfl

/-! ## Lookups -/

variable {s : Maps} {tuple : SocketTuple} {flow : FlowState}

/-- `lookupOriginal` gets the message of the flow, compares it with its question and takes the
destination. -/
theorem lookupOriginal_eq (text : String) {r : Except ProxyError OriginalDestination} {s' : Maps}
    (hholds : HoldsFlow s (serviceTuple tuple) flow)
    (hret : machine.Returns Faultless (lookupOriginal (.answered text) tuple) s r s') :
    r = if echo tuple ≠ tuple then
        .error (.invalidMapping "mapping synthetic tuple does not match lookup")
      else acceptOriginal tuple (tupleToProto flow.original) := by
  obtain ⟨hleads, htarget⟩ := hholds
  have hvalid := hleads.valid
  have hservice := (FlowState.of_validate hvalid).2.1
  rw [htarget] at hservice
  have hfamily := Tuple.isIpv4_of_validate hservice
  have hanswer : Ensures Faultless (lookupOriginal (.answered text) tuple)
      (fun r _ => r = acceptMapping tuple (mappingToProto flow.mapping)) s := by
    rw [lookupOriginal, requestTuple_eq hfamily]
    refine wp_seq (ensures_getMapping hservice not_faulty_faultless) fun r s' hr => ?_
    rw [(hr _).mpr ⟨flow, hleads, rfl⟩, mappingFor_eq htarget]
    rfl
  rw [← acceptMapping_eq hvalid htarget]
  exact hret.of_wp hanswer

/-- **The client finds the original destination of a flow exactly when neither address of the connection
carries flow information or a scope.** Every lookup that reaches the service returns. -/
theorem original_found_iff (text : String) (hholds : HoldsFlow s (serviceTuple tuple) flow) :
    (∃ r s', machine.Returns Faultless (lookupOriginal (.answered text) tuple) s r s') ∧
    ∀ r s', machine.Returns Faultless (lookupOriginal (.answered text) tuple) s r s' →
      (r = .ok (originalOf flow) ↔ tuple.unscoped = true) := by
  refine ⟨exists_returns_faultless _ _, fun r s' hret => ?_⟩
  obtain ⟨hleads, htarget⟩ := hholds
  have hvalid := hleads.valid
  rw [lookupOriginal_eq text ⟨hleads, htarget⟩ hret, ← echo_eq_iff]
  by_cases h : echo tuple = tuple
  · rw [if_neg (not_not.mpr h), acceptOriginal_eq hvalid htarget]
    exact iff_of_true rfl h
  · rw [if_pos h]
    exact iff_of_false (fun habsurd => nomatch habsurd) h

/-- A lookup with a scope is refused, though the service answers it. -/
theorem exists_refused (text : String) (hholds : HoldsFlow s (serviceTuple tuple) flow)
    (hscoped : tuple.unscoped = false) :
    ∃ r s', machine.Returns Faultless (lookupOriginal (.answered text) tuple) s r s' ∧
      r = .error (.invalidMapping "mapping synthetic tuple does not match lookup") := by
  obtain ⟨r, s', hret⟩ := exists_returns_faultless (lookupOriginal (.answered text) tuple) s
  have hne : echo tuple ≠ tuple := by
    rw [Ne, echo_eq_iff, hscoped]
    exact Bool.false_ne_true
  refine ⟨r, s', hret, ?_⟩
  rw [lookupOriginal_eq text hholds hret, if_pos hne]

/-! ### A link-local connection

A client at fe80::1, port 1000, connects to fe80::2, port 2000, and is redirected to the proxy at
fe80::3, port 3000. -/

/-- The link-local address with a last octet. -/
def linkLocal (last : UInt8) : Vector UInt8 16 :=
  #v[0xfe, 0x80, 0, 0, 0, 0, 0, 0, 0, 0, 0, 0, 0, 0, 0, last]

/-- The record of the flow. -/
def linkLocalFlow : FlowStateValue where
  original := ⟨1, 6, 6, linkLocal 1, linkLocal 2, 1000, 2000⟩
  target := ⟨1, 6, 6, linkLocal 1, linkLocal 3, 1000, 3000⟩
  reverse := ⟨1, 6, 6, linkLocal 3, linkLocal 1, 3000, 1000⟩
  lifecycle := flowActive
  flowId := 7
  generation := 1

/-- Maps with the flow and its index. -/
def linkLocalMaps : Maps :=
  ((Maps.initial {}).put .flowIndex linkLocalFlow.target (indexOf 7 1)).put .flowState (stateKeyOf 7 1)
    linkLocalFlow

/-- The connection as the proxy has it, with the scope of the client's address. -/
def linkLocalTuple (scopeId : UInt32) : SocketTuple where
  source := .v6 (linkLocal 1) 1000 0 scopeId
  destination := .v6 (linkLocal 3) 3000 0 0
  protocol := 6

/-- The service holds the flow of the connection, whatever the scope. -/
theorem holdsFlow_linkLocal (scopeId : UInt32) :
    HoldsFlow linkLocalMaps (serviceTuple (linkLocalTuple scopeId))
      (flowStateOf linkLocalFlow .active) := by
  have hkey : tupleKeyOf (serviceTuple (linkLocalTuple scopeId)) = linkLocalFlow.target := rfl
  refine ⟨⟨indexOf 7 1, linkLocalFlow, ?_, rfl, Maps.find_put_self .., ?_, rfl⟩, rfl⟩
  · have hne : MapId.flowIndex ≠ MapId.flowState := by decide
    rw [hkey, linkLocalMaps, Maps.find_put_of_ne _ _ _ hne, Maps.find_put_self]
  · rw [decodeFlowState_pack ⟨rfl, .inr rfl⟩ ⟨rfl, .inr rfl⟩ ⟨rfl, .inr rfl⟩]
    rfl

/-- Without a scope the original destination is found. -/
theorem original_found_sample : ∃ r s',
    machine.Returns Faultless (lookupOriginal (.answered "") (linkLocalTuple 0)) linkLocalMaps r s' ∧
      r = .ok ⟨.v6 (linkLocal 2) 2000 0 0, 6⟩ := by
  obtain ⟨⟨r, s', hret⟩, hfound⟩ := original_found_iff "" (holdsFlow_linkLocal 0)
  exact ⟨r, s', hret, (hfound r s' hret).mpr rfl⟩

/-- **With a scope the lookup fails**: the service finds the flow and sends it, and the client takes the
answer for one to another question. -/
theorem scoped_lookup_fails :
    HoldsFlow linkLocalMaps (serviceTuple (linkLocalTuple 2)) (flowStateOf linkLocalFlow .active) ∧
    ∃ r s', machine.Returns Faultless (lookupOriginal (.answered "") (linkLocalTuple 2)) linkLocalMaps
        r s' ∧
      r = .error (.invalidMapping "mapping synthetic tuple does not match lookup") := by
  have hholds := holdsFlow_linkLocal 2
  exact ⟨hholds, exists_refused "" hholds rfl⟩

end ShadowSocketProxy.HostProxy
