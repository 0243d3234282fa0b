import ShadowSocketProxy.ControlService.Messages
import ShadowSocketProxy.Alone.HostCalls

/-! # Looking up a flow

`GetMapping` finds the active flow of a synthetic tuple. On its way the tuple is a message, a map key, a
record and a message again; each conversion gives back what went in. -/

namespace ShadowSocketProxy.ControlService

open Bytes Bpf Interleaving Alone
open Interleaving.Machine (wp_seq)

/-! ## Mappings -/

/-- What a lookup returns of a flow. -/
structure Mapping where
  synthetic : Tuple
  original : Tuple
  lastSeenNs : UInt64
  protocolFlags : UInt32
  tcpStateFlags : UInt32
  deriving DecidableEq

/-- The mapping of a flow. -/
def FlowState.mapping (flow : FlowState) : Mapping where
  synthetic := flow.target
  original := flow.original
  lastSeenNs := flow.lastUsedNs
  protocolFlags := flow.protocolFlags
  tcpStateFlags := flow.tcpStateFlags

/-- The value of a mapping in the layout that was once a map's. -/
def encodeValue (mapping : Mapping) : List UInt8 :=
  encodeKey mapping.original ++ beBytes 8 mapping.lastSeenNs.toNat ++
    beBytes 4 mapping.protocolFlags.toNat ++ beBytes 4 mapping.tcpStateFlags.toNat

/-- The mapping of a key and a value. -/
def decodeValue (key value : List UInt8) : Except AbiError Mapping := do
  if value.length ≠ 56 then .error (.invalidLength 56 value.length)
  else do
    let synthetic ← decodeKey key
    let original ← decodeKey (value.take 40)
    pure
      { synthetic := synthetic
        original := original
        lastSeenNs := UInt64.ofNat (beAt 8 value 40)
        protocolFlags := UInt32.ofNat (beAt 4 value 48)
        tcpStateFlags := UInt32.ofNat (beAt 4 value 52) }

/-- The message of a mapping. -/
def mappingToProto (mapping : Mapping) : Proto.Mapping where
  synthetic := some (tupleToProto mapping.synthetic)
  original := some (tupleToProto mapping.original)
  lastSeenNs := mapping.lastSeenNs
  protocolFlags := mapping.protocolFlags
  tcpStateFlags := mapping.tcpStateFlags

/-! ## The request -/

/-- The value of the active flow that is indexed under a key. -/
def getEntry (key : List UInt8) : Host (Option (List UInt8)) := do
  if key.length ≠ 40 then
    throw (.operation "map:get" ("invalid mapping key length: " ++ toString key.length))
  else do
    let index ← getOption .flowIndex (TupleKey.unpack key)
    match index with
    | none => pure none
    | some index => do
      let index ← decoded "flow-index:decode" (decodeFlowIndex index.pack)
      let flow ← getOption .flowState (stateKeyOf index.flowId index.generation)
      match flow with
      | none => pure none
      | some flow => do
        let flow ← decoded "flow-state:decode" (decodeFlowState flow.pack)
        if flow.lifecycle ≠ .active then pure none else pure (some (encodeValue flow.mapping))

/-- The answer to a lookup, from what is stored under its key. -/
def mappingReply (key : List UInt8) :
    Except BackendError (Option (List UInt8)) → Except Status Proto.Mapping
  | .error error => .error (mapBackendError error)
  | .ok none => .error ⟨.notFound, "mapping not found"⟩
  | .ok (some value) =>
    match decodeValue key value with
    | .error error => .error (.failedPrecondition error.message)
    | .ok mapping => .ok (mappingToProto mapping)

/-- The `GetMapping` request. -/
def getMapping (synthetic : Option Proto.Tuple) : Prog (Except Status Proto.Mapping) :=
  match tupleFromProto synthetic with
  | .error status => pure (.error status)
  | .ok tuple => do
    let entry ← (getEntry (encodeKey tuple)).run
    pure (mappingReply (encodeKey tuple) entry)

/-! ## Round trips -/

/-- The family discriminator of an address. -/
def IpAddr.familyNumber : IpAddr → UInt32
  | .v4 _ => 4
  | .v6 _ => 6

theorem addressOfBytes_ipBytes (ip : IpAddr) : addressOfBytes ip.familyNumber (ipBytes ip) = some ip := by
  cases ip with
  | v4 octets => simp [addressOfBytes, ipBytes, IpAddr.familyNumber, arrayAt_toList]
  | v6 octets => simp [addressOfBytes, ipBytes, IpAddr.familyNumber, arrayAt_toList]

theorem familyNumber_eq {ip ip' : IpAddr} (h : ip.isIpv4 = ip'.isIpv4) :
    ip.familyNumber = ip'.familyNumber := by
  cases ip <;> cases ip' <;> first | rfl | cases h

/-- The message of a tuple of one family. -/
theorem tupleToProto_eq {tuple : Tuple} (h : tuple.source.isIpv4 = tuple.destination.isIpv4) :
    tupleToProto tuple =
      { family := tuple.source.familyNumber
        sourceAddress := ipBytes tuple.source
        destinationAddress := ipBytes tuple.destination
        protocol := tuple.protocol.toUInt32
        sourcePort := tuple.sourcePort.toUInt32
        destinationPort := tuple.destinationPort.toUInt32 } := by
  obtain ⟨source, destination, protocol, sourcePort, destinationPort⟩ := tuple
  cases source <;> cases destination <;> first | rfl | cases h

/-- A valid tuple has one family. -/
theorem Tuple.isIpv4_of_validate {tuple : Tuple} (h : tuple.validate = .ok ()) :
    tuple.source.isIpv4 = tuple.destination.isIpv4 := by
  rw [Tuple.validate] at h
  by_contra hne
  rw [if_pos hne] at h
  cases h

/-- The numbers of a message are in range. -/
theorem in_range (tuple : Tuple) : ¬ (tuple.protocol.toUInt32.toNat > 255 ∨
    tuple.sourcePort.toUInt32.toNat > 65535 ∨ tuple.destinationPort.toUInt32.toNat > 65535) := by
  have hprotocol := tuple.protocol.toNat_lt
  have hsource := tuple.sourcePort.toNat_lt
  have hdestination := tuple.destinationPort.toNat_lt
  simp only [UInt8.toNat_toUInt32, UInt16.toNat_toUInt32]
  omega

/-- A valid tuple comes through its message. -/
theorem tupleFromProto_tupleToProto {tuple : Tuple} (h : tuple.validate = .ok ()) :
    tupleFromProto (some (tupleToProto tuple)) = .ok tuple := by
  have hfamily := Tuple.isIpv4_of_validate h
  have hdestination : addressOfBytes tuple.source.familyNumber (ipBytes tuple.destination) =
      some tuple.destination := by
    rw [familyNumber_eq hfamily, addressOfBytes_ipBytes]
  rw [tupleToProto_eq hfamily]
  simp only [tupleFromProto, parseLabelledAddress, addressOfBytes_ipBytes, hdestination]
  refine (if_neg (in_range tuple)).trans ?_
  simp only [UInt8.toUInt8_toUInt32, UInt16.toUInt16_toUInt32, h]
  rfl

/-- The key of a tuple of one family. -/
def tupleKeyOf (tuple : Tuple) : TupleKey where
  version := mapAbiVersion
  family := tuple.family
  protocol := tuple.protocol
  source := addressBytes tuple.source
  destination := addressBytes tuple.destination
  sourcePort := tuple.sourcePort
  destinationPort := tuple.destinationPort

theorem canonical_tupleKeyOf {tuple : Tuple} (h : tuple.source.isIpv4 = tuple.destination.isIpv4) :
    Canonical (tupleKeyOf tuple) ∧ tupleOf (tupleKeyOf tuple) = tuple := by
  obtain ⟨source, destination, protocol, sourcePort, destinationPort⟩ := tuple
  cases source with
  | v4 source =>
    cases destination with
    | v6 destination => cases h
    | v4 destination =>
      refine ⟨⟨⟨rfl, .inl rfl⟩, fun _ => ⟨source, rfl⟩, fun _ => ⟨destination, rfl⟩⟩, ?_⟩
      simp only [tupleOf, tupleKeyOf, Tuple.family, addressBytes, addressOf_ipv4ToMapped]
  | v6 source =>
    cases destination with
    | v4 destination => cases h
    | v6 destination =>
      exact ⟨⟨⟨rfl, .inr rfl⟩, by rintro ⟨⟩, by rintro ⟨⟩⟩, rfl⟩

theorem encodeKey_eq {tuple : Tuple} (h : tuple.source.isIpv4 = tuple.destination.isIpv4) :
    encodeKey tuple = (tupleKeyOf tuple).pack := by
  obtain ⟨hcanonical, htuple⟩ := canonical_tupleKeyOf h
  rw [← encodeKey_tupleOf hcanonical, htuple]

/-- A tuple of one family comes through its key. -/
theorem decodeKey_encodeKey {tuple : Tuple} (h : tuple.source.isIpv4 = tuple.destination.isIpv4) :
    decodeKey (encodeKey tuple) = .ok tuple := by
  obtain ⟨hcanonical, htuple⟩ := canonical_tupleKeyOf h
  rw [encodeKey_eq h, decodeKey_pack hcanonical.toVersioned, htuple]

theorem length_encodeKey {tuple : Tuple} (h : tuple.source.isIpv4 = tuple.destination.isIpv4) :
    (encodeKey tuple).length = 40 := by
  rw [encodeKey_eq h, TupleKey.length_pack]

/-- A mapping of tuples of one family each comes through its key and value. -/
theorem decodeValue_encodeValue {mapping : Mapping}
    (hsynthetic : mapping.synthetic.source.isIpv4 = mapping.synthetic.destination.isIpv4)
    (horiginal : mapping.original.source.isIpv4 = mapping.original.destination.isIpv4) :
    decodeValue (encodeKey mapping.synthetic) (encodeValue mapping) = .ok mapping := by
  have hlength := length_encodeKey horiginal
  have hseen : mapping.lastSeenNs.toNat < 256 ^ 8 := mapping.lastSeenNs.toNat_lt
  have hprotocol : mapping.protocolFlags.toNat < 256 ^ 4 := mapping.protocolFlags.toNat_lt
  have htcp : mapping.tcpStateFlags.toNat < 256 ^ 4 := mapping.tcpStateFlags.toNat_lt
  have htake : (encodeValue mapping).take 40 = encodeKey mapping.original := by
    rw [encodeValue, List.append_assoc, List.append_assoc, List.take_left' hlength]
  rw [decodeValue, if_neg (by simp [encodeValue, hlength]), decodeKey_encodeKey hsynthetic, htake,
    decodeKey_encodeKey horiginal]
  simp (disch := simp [hlength]) only [encodeValue, beAt_append_left, beAt_append_right,
    List.length_append, hlength, length_beBytes, Nat.reduceAdd, Nat.reduceSub, beAt_beBytes hseen,
    beAt_beBytes hprotocol, beAt_beBytes htcp, UInt64.ofNat_toNat, UInt32.ofNat_toNat]
  rfl

/-! ## Lookups that succeed -/

/-- What the tuples of a valid flow have in common. -/
theorem FlowState.of_validate {flow : FlowState} (h : flow.validate = .ok ()) :
    flow.original.validate = .ok () ∧ flow.target.validate = .ok () ∧
      flow.original.protocol = flow.target.protocol ∧
      flow.original.destination.isIpv4 = flow.target.destination.isIpv4 := by
  rw [FlowState.validate] at h
  obtain ⟨_, horiginal, h⟩ := bind_eq_ok.mp h
  obtain ⟨_, htarget, h⟩ := bind_eq_ok.mp h
  obtain ⟨_, -, h⟩ := bind_eq_ok.mp h
  obtain ⟨hprotocol, h⟩ := ite_error_eq_ok.mp h
  obtain ⟨hfamily, -⟩ := ite_error_eq_ok.mp h
  rw [not_or, not_not] at hprotocol hfamily
  exact ⟨horiginal, htarget, hprotocol.1, hfamily.1⟩

/-- The index leads from a tuple to an active flow. -/
def Leads (s : Maps) (tuple : Tuple) (flow : FlowState) : Prop :=
  ∃ index record, s.find .flowIndex (tupleKeyOf tuple) = some index ∧ index.version = mapAbiVersion ∧
    s.find .flowState (stateKeyOf index.flowId index.generation) = some record ∧
    decodeFlowState record.pack = .ok flow ∧ flow.lifecycle = .active

/-- The maps lead a tuple to an active flow of which it is the target. -/
def HoldsFlow (s : Maps) (tuple : Tuple) (flow : FlowState) : Prop :=
  Leads s tuple flow ∧ flow.target = tuple

variable {allowed : Choice → Prop} {s : Maps} {tuple : Tuple} {flow : FlowState}

theorem Leads.valid (hleads : Leads s tuple flow) : flow.validate = .ok () := by
  obtain ⟨_, _, -, -, -, hdecode, -⟩ := hleads
  exact validate_of_decodeFlowState hdecode

/-- A tuple leads to one flow at most. -/
theorem Leads.unique {flow' : FlowState} (h : Leads s tuple flow) (h' : Leads s tuple flow') :
    flow = flow' := by
  obtain ⟨index, record, hindex, -, hrecord, hdecode, -⟩ := h
  obtain ⟨index', record', hindex', -, hrecord', hdecode', -⟩ := h'
  rw [hindex] at hindex'
  cases hindex'
  rw [hrecord] at hrecord'
  cases hrecord'
  rw [hdecode] at hdecode'
  exact Except.ok.inj hdecode'

/-- A lookup finds an entry exactly where the index leads to a flow. -/
theorem ensures_getEntry (hfamily : tuple.source.isIpv4 = tuple.destination.isIpv4)
    (hfaultless : ¬ Faulty allowed) :
    Ensures allowed (getEntry (encodeKey tuple)).run
      (fun r _ => ∀ value, r = .ok (some value) ↔
        ∃ flow, Leads s tuple flow ∧ value = encodeValue flow.mapping) s := by
  have hkey : TupleKey.unpack (encodeKey tuple) = tupleKeyOf tuple := by
    rw [encodeKey_eq hfamily, TupleKey.unpack_pack]
  rw [getEntry, if_neg (not_not.mpr (length_encodeKey hfamily)), hkey]
  refine ensures_getThen ?_ fun hfaulty => absurd hfaulty hfaultless
  cases hindex : s.find .flowIndex (tupleKeyOf tuple) with
  | none =>
    refine fun value => iff_of_false (by rintro ⟨⟩) ?_
    rintro ⟨flow, ⟨index, record, h, -⟩, -⟩
    rw [hindex] at h
    cases h
  | some index =>
    dsimp only
    rw [decodeFlowIndex_pack]
    by_cases hversion : index.version = mapAbiVersion
    · rw [if_neg (not_not.mpr hversion)]
      refine ensures_getThen ?_ fun hfaulty => absurd hfaulty hfaultless
      -- from here on a flow the tuple leads to is the one of this record
      have hleads : ∀ flow, Leads s tuple flow ↔ ∃ record,
          s.find .flowState (stateKeyOf index.flowId index.generation) = some record ∧
            decodeFlowState record.pack = .ok flow ∧ flow.lifecycle = .active := by
        refine fun flow => ⟨?_, fun ⟨record, h⟩ => ⟨index, record, hindex, hversion, h⟩⟩
        rintro ⟨index', record, hindex', -, h⟩
        rw [hindex] at hindex'
        cases hindex'
        exact ⟨record, h⟩
      simp only [hleads]
      cases s.find .flowState (stateKeyOf index.flowId index.generation) with
      | none =>
        refine fun value => iff_of_false (by rintro ⟨⟩) ?_
        rintro ⟨_, ⟨_, ⟨⟩, -⟩, -⟩
      | some record =>
        dsimp only
        cases hdecode : decodeFlowState record.pack with
        | error error =>
          refine fun value => iff_of_false (by rintro ⟨⟩) ?_
          rintro ⟨_, ⟨_, ⟨⟩, h, -⟩, -⟩
          rw [hdecode] at h
          cases h
        | ok flow =>
          show Ensures allowed (if flow.lifecycle ≠ .active then pure none
            else pure (some (encodeValue flow.mapping)) : Host _).run _ s
          split
          · rename_i hinactive
            refine fun value => iff_of_false (by rintro ⟨⟩) ?_
            rintro ⟨_, ⟨_, ⟨⟩, h, hactive⟩, -⟩
            rw [hdecode] at h
            cases h
            exact hinactive hactive
          · rename_i hactive
            refine fun value => ⟨fun h => ?_, ?_⟩
            · cases h
              exact ⟨flow, ⟨record, rfl, hdecode, not_not.mp hactive⟩, rfl⟩
            · rintro ⟨_, ⟨_, ⟨⟩, h, -⟩, rfl⟩
              rw [hdecode] at h
              cases h
              rfl
    · rw [if_pos hversion]
      refine fun value => iff_of_false (by rintro ⟨⟩) ?_
      rintro ⟨flow, ⟨index', record, h, hok, -⟩, -⟩
      rw [hindex] at h
      cases h
      exact hversion hok

/-- The mapping that a lookup reports: the tuple it asked for is the synthetic one. -/
def mappingFor (tuple : Tuple) (flow : FlowState) : Mapping :=
  { flow.mapping with synthetic := tuple }

/-- **A lookup reports the flow its tuple leads to.** -/
theorem ensures_getMapping (hvalid : tuple.validate = .ok ()) (hfaultless : ¬ Faulty allowed) :
    Ensures allowed (getMapping (some (tupleToProto tuple)))
      (fun r _ => ∀ message, r = .ok message ↔
        ∃ flow, Leads s tuple flow ∧ message = mappingToProto (mappingFor tuple flow)) s := by
  have hfamily := Tuple.isIpv4_of_validate hvalid
  rw [getMapping, tupleFromProto_tupleToProto hvalid]
  refine wp_seq (ensures_getEntry hfamily hfaultless) fun r s' hr message => ?_
  have hvalue : ∀ flow, Leads s tuple flow →
      decodeValue (encodeKey tuple) (encodeValue flow.mapping) = .ok (mappingFor tuple flow) := by
    intro flow hleads
    have horiginal := (FlowState.of_validate hleads.valid).1
    exact @decodeValue_encodeValue (mappingFor tuple flow) hfamily (Tuple.isIpv4_of_validate horiginal)
  show mappingReply (encodeKey tuple) r = .ok message ↔ _
  constructor
  · intro hreply
    obtain ⟨value, rfl⟩ : ∃ value, r = .ok (some value) := by
      match r, hreply with
      | .ok (some value), _ => exact ⟨value, rfl⟩
    obtain ⟨flow, hleads, rfl⟩ := (hr value).mp rfl
    rw [mappingReply, hvalue flow hleads] at hreply
    exact ⟨flow, hleads, (Except.ok.inj hreply).symm⟩
  · rintro ⟨flow, hleads, rfl⟩
    rw [(hr _).mpr ⟨flow, hleads, rfl⟩, mappingReply, hvalue flow hleads]

/-- For the target tuple of a flow the service answers with the mapping of the flow. -/
theorem mappingFor_eq (htarget : flow.target = tuple) : mappingFor tuple flow = flow.mapping := by
  rw [← htarget]
  rfl

end ShadowSocketProxy.ControlService
