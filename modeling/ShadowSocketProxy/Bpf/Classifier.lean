import ShadowSocketProxy.Bpf.Maps

/-! # The classifiers

`process_packet` of `shadow-socket-proxy.bpf.c` and the routines it calls, as programs over the
atomic map operations. Record pointers are modelled by the record a lookup returned together with
its key: the fields a packet reads through the pointer (tuples and identity) never change in place,
and its one in-place write is an operation of its own. -/

namespace ShadowSocketProxy.Bpf

open Interleaving

/-! ## Counters and slots -/

/-- The retry loop of `increment_counter`. -/
def incrementCounterLoop (counter : Counter) : Nat → Prog Unit
  | 0 => pure ()
  | attempt + 1 => do
    let current ← perform (.counterLoad counter)
    if current = 0xffffffffffffffff then pure ()
    else do
      let swapped ← perform (.counterCas counter current (current + 1))
      if swapped then pure () else incrementCounterLoop counter attempt

/-- Increment one counter; a missing slot is ignored. -/
def incrementCounter (counter : Counter) : Prog Unit := do
  let present ← perform (.arrayLookup .counters)
  if present then incrementCounterLoop counter 8 else pure ()

/-- The retry loop of `release_flow_slot`. -/
def releaseFlowSlotLoop : Nat → Prog Unit
  | 0 => pure ()
  | attempt + 1 => do
    let current ← perform .activeLoad
    if current = 0 then pure ()
    else do
      let swapped ← perform (.activeCas current (current - 1))
      if swapped then pure () else releaseFlowSlotLoop attempt

/-- Release a reserved slot without underflowing the count. -/
def releaseFlowSlot : Prog Unit := do
  let present ← perform (.arrayLookup .activeFlows)
  if present then releaseFlowSlotLoop 8 else pure ()

/-- The part of `reserve_flow_slot` that consumes one host release: deleting the journal entry
claims it. -/
def consumeRelease : Prog Unit := do
  let release ← perform .releasePop
  match release with
  | none => pure ()
  | some release => do
    let claimed ← perform (.delete .releasePending release)
    if claimed then releaseFlowSlot else pure ()

/-- Whether a configuration bounds the count and the count before the increment has reached it. -/
def capacityReached (config : Option RuntimeConfigValue) (previous : Nat) : Bool :=
  match config with
  | none => false
  | some config =>
    config.activeFlowCapacity ≠ 0 && config.activeFlowCapacity.toNat ≤ previous

/-- Reserve one slot; the increment is rolled back when the capacity has been reached. -/
def reserveFlowSlot : Prog Bool := do
  let present ← perform (.arrayLookup .activeFlows)
  let config ← perform .configLookup
  if present then do
    consumeRelease
    let previous ← perform .activeAdd
    if capacityReached config previous then do
      perform .activeSub
      pure false
    else pure true
  else pure false

/-- How `process_packet` reserves and releases slots. -/
structure Slots where
  /-- `reserve_flow_slot`. -/
  reserve : Prog Bool
  /-- `release_flow_slot`. -/
  release : Prog Unit

/-- The two routines operation by operation. -/
def Slots.split : Slots := ⟨reserveFlowSlot, releaseFlowSlot⟩

/-- The two routines as single steps. -/
def Slots.atomic : Slots := ⟨perform .reserveSlot, perform .releaseSlot⟩

/-! ## Configuration -/

/-- The target a configuration gives for the family of a packet; a disabled, zero, unspecified or
schema-mismatched target is none. -/
def RuntimeConfigValue.targetFor (config : RuntimeConfigValue) (packet : PacketInfo) :
    Option (Address × UInt16) :=
  if config.schemaVersion ≠ runtimeConfigAbiVersion then none
  else if packet.family = 4 then
    if config.v4TargetSet ≠ 1 ∨ config.v4TargetPort = 0 then none
    else if config.v4Target = Vector.replicate 4 0 then none
    else some (ipv4ToMapped config.v4Target, config.v4TargetPort)
  else
    if config.v6TargetSet ≠ 1 ∨ config.v6TargetPort = 0 then none
    else if config.v6Target = Vector.replicate 16 0 then none
    else some (config.v6Target, config.v6TargetPort)

/-- A selected target has a port and an address of the packet's family. -/
theorem usable_of_targetFor {config : RuntimeConfigValue} {packet : PacketInfo} {target : Address}
    {port : UInt16} (h : config.targetFor packet = some (target, port)) :
    port ≠ 0 ∧
      (packet.family = 4 → ∃ a, target = ipv4ToMapped a ∧ a ≠ Vector.replicate 4 0) ∧
      (packet.family ≠ 4 → target ≠ Vector.replicate 16 0) := by
  rw [RuntimeConfigValue.targetFor, Option.ite_none_left_eq_some] at h
  obtain ⟨-, h⟩ := h
  split at h
  · rename_i hfamily
    rw [Option.ite_none_left_eq_some, Option.ite_none_left_eq_some] at h
    obtain ⟨hset, haddress, h⟩ := h
    cases h
    exact ⟨fun hport => hset (.inr hport), fun _ => ⟨_, rfl, haddress⟩, fun hnot => absurd hfamily hnot⟩
  · rename_i hfamily
    rw [Option.ite_none_left_eq_some, Option.ite_none_left_eq_some] at h
    obtain ⟨hset, haddress, h⟩ := h
    cases h
    exact ⟨fun hport => hset (.inr hport), fun h => absurd h hfamily, fun _ => haddress⟩

/-- Select the target for a packet. -/
def targetForPacket (packet : PacketInfo) : Prog (Option (Address × UInt16)) := do
  let config ← perform .configLookup
  pure (config.bind fun config => config.targetFor packet)

/-- Whether the control listener of a configuration matches an endpoint of the given family. Only
TCP matches. -/
def RuntimeConfigValue.listens (config : RuntimeConfigValue) (family protocol : UInt8)
    (endpoint : Address) (port : UInt16) : Bool :=
  if config.schemaVersion ≠ runtimeConfigAbiVersion ∨ protocol ≠ ipprotoTcp ∨
      port ≠ config.listenerPort then false
  else if family = 4 then
    if config.listenerFamily ≠ 4 then false
    else if config.listenerWildcardFlags &&& 1 ≠ 0 then true
    else endpoint.toList.drop 12 = config.listenerAddress.toList.drop 12
  else
    if config.listenerFamily ≠ 6 then false
    else if config.listenerWildcardFlags &&& 2 ≠ 0 then true
    else endpoint = config.listenerAddress

/-- Whether the configuration makes a packet control traffic in the given direction. -/
def RuntimeConfigValue.controls (config : RuntimeConfigValue) (packet : PacketInfo)
    (ingress : Bool) : Bool :=
  if ingress then
    config.listens packet.family packet.protocol packet.destination packet.destinationPort
  else config.listens packet.family packet.protocol packet.source packet.sourcePort

/-- Whether a packet is control traffic. -/
def isControlPacket (packet : PacketInfo) (ingress : Bool) : Prog Bool := do
  let config ← perform .configLookup
  pure (config.any fun config => config.controls packet ingress)

/-! ## The packet side of a deletion -/

/-- Whether the host has frozen a flow. An expired guard races the host's commit through the outcome
map: exactly one of the two inserts succeeds. -/
def deletionGuardActive (key : FlowStateKey) : Prog Bool := do
  let guard ← perform (.lookup .deleteGuard key)
  let outcome ← perform (.lookup .deleteOutcome key)
  match outcome with
  | some outcome =>
    if outcome = flowDeleteCommitted then pure true
    else if outcome = flowDeleteAborted then pure false
    else pure true
  | none =>
    match guard with
    | none => pure false
    | some deadline => do
      let now ← perform .ktime
      if deadline ≤ now then do
        let aborted ← perform (.update .deleteOutcome key flowDeleteAborted .noexist)
        if aborted then do
          let _ ← perform (.delete .deleteGuard key)
          pure false
        else do
          let outcome ← perform (.lookup .deleteOutcome key)
          pure (outcome = some flowDeleteCommitted)
      else pure true

/-- Back out of the critical section. -/
def backOut (key : FlowStateKey) : Prog (Option FlowStateValue) := do
  perform (.inflightAdd key (-1))
  pure none

/-- The part of `enter_flow_packet` behind the second guard check: the record is resolved again. -/
def reenterState (key : FlowStateKey) : Prog (Option FlowStateValue) := do
  let current ← perform (.lookup .flowState key)
  match current with
  | none => backOut key
  | some state => if state.lifecycle = flowActive then pure (some state) else backOut key

/-- Enter the critical section of a flow; the admitted packet gets the record. -/
def enterFlowPacket (key : FlowStateKey) : Prog (Option FlowStateValue) := do
  let active ← deletionGuardActive key
  if active then pure none
  else do
    let inFlight ← perform (.lookup .packetInflight key)
    match inFlight with
    | none => pure none
    | some _ => do
      perform (.inflightAdd key 1)
      let active ← deletionGuardActive key
      if active then backOut key else reenterState key

/-- Leave the critical section of a flow. -/
def leaveFlowPacket (key : FlowStateKey) : Prog Unit := do
  let inFlight ← perform (.lookup .packetInflight key)
  match inFlight with
  | none => pure ()
  | some _ => perform (.inflightAdd key (-1))

/-! ## Flow creation -/

/-- The generation drawn when the counter stood at `previous`. -/
def drawGeneration (previous : UInt64) : UInt32 :=
  let generation := (previous + 1).toUInt32
  if generation = 0 then 1 else generation

/-- The record a creation inserts. -/
def makeCandidate (packet : PacketInfo) (lookupKey : TupleKey) (target : Address)
    (targetPort : UInt16) (flowId : UInt64) (generation : UInt32) (now : UInt64) :
    FlowStateValue where
  original := lookupKey
  target := { lookupKey with destination := target, destinationPort := targetPort }
  reverse := { lookupKey with
    source := target
    destination := packet.source
    sourcePort := targetPort
    destinationPort := packet.sourcePort }
  flowId := flowId
  generation := generation
  protocolFlags := if packet.protocol = ipprotoTcp then 1 else 2
  lifecycle := flowCreating
  lastUsedNs := now

/-- Delete an index only when it still belongs to the given flow generation. -/
def deleteOwnedIndex (key : TupleKey) (owner : FlowIndexValue) : Prog Unit := do
  let current ← perform (.lookup .flowIndex key)
  match current with
  | none => pure ()
  | some current =>
    if current.flowId = owner.flowId ∧ current.generation = owner.generation then do
      let _ ← perform (.delete .flowIndex key)
      pure ()
    else pure ()

/-- How a creation or a lookup went on: with a verdict, or with the index of a flow. -/
inductive Resolution where
  | verdict (action : TcAction)
  | index (value : FlowIndexValue)

/-- Insert the three indexes and the in-flight count; stop at the first that fails. -/
def insertEntries (stateKey : FlowStateKey) (candidate : FlowStateValue) (index : FlowIndexValue) :
    Prog Bool := do
  let original ← perform (.update .flowIndex candidate.original index .noexist)
  if original then do
    let target ← perform (.update .flowIndex candidate.target index .noexist)
    if target then do
      let reverse ← perform (.update .flowIndex candidate.reverse index .noexist)
      if reverse then perform (.update .packetInflight stateKey 0 .noexist) else pure false
    else pure false
  else pure false

/-- Undo a creation: its own indexes, its in-flight count, its record and its slot. -/
def rollBack (slots : Slots) (stateKey : FlowStateKey) (candidate : FlowStateValue)
    (index : FlowIndexValue) : Prog Unit := do
  deleteOwnedIndex candidate.original index
  deleteOwnedIndex candidate.target index
  deleteOwnedIndex candidate.reverse index
  let _ ← perform (.delete .packetInflight stateKey)
  let _ ← perform (.delete .flowState stateKey)
  slots.release

/-- Give up a creation. -/
def dropCreation : Prog Resolution := do
  incrementCounter .insertFailure
  pure (.verdict .shot)

/-- After a failed insert: use the flow that owns the tuple by now, if there is one. -/
def resolveAgain (lookupKey : TupleKey) : Prog Resolution := do
  let index ← perform (.lookup .flowIndex lookupKey)
  match index with
  | none => dropCreation
  | some index => pure (.index index)

/-- Make the created record active. -/
def activate (slots : Slots) (stateKey : FlowStateKey) (candidate : FlowStateValue)
    (index : FlowIndexValue) : Prog Resolution := do
  let activated ← perform
    (.update .flowState stateKey { candidate with lifecycle := flowActive } .exist)
  if activated then pure (.index index)
  else do
    rollBack slots stateKey candidate index
    dropCreation

/-- The inserts of a creation, once a slot is reserved. -/
def insertFlow (slots : Slots) (candidate : FlowStateValue) : Prog Resolution := do
  let stateKey := stateKeyOf candidate.flowId candidate.generation
  let index := indexOf candidate.flowId candidate.generation
  let inserted ← perform (.update .flowState stateKey candidate .noexist)
  if inserted then do
    let indexed ← insertEntries stateKey candidate index
    if indexed then activate slots stateKey candidate index
    else do
      rollBack slots stateKey candidate index
      resolveAgain candidate.original
  else do
    slots.release
    resolveAgain candidate.original

/-- The part of a creation behind the selection of the target: draw a generation, reserve a slot and
insert the flow. -/
def createToward (slots : Slots) (packet : PacketInfo) (lookupKey : TupleKey) (target : Address)
    (targetPort : UInt16) : Prog Resolution := do
  let scratch ← perform (.arrayLookup .scratch)
  if scratch then do
    let generationCounter ← perform (.arrayLookup .generation)
    if generationCounter then do
      let previous ← perform .generationAdd
      let now ← perform .ktime
      let reserved ← slots.reserve
      if reserved then
        insertFlow slots (makeCandidate packet lookupKey target targetPort (tupleHash lookupKey)
          (drawGeneration previous) now)
      else dropCreation
    else pure (.verdict .shot)
  else pure (.verdict .shot)

/-- Create a flow for a packet whose tuple is not indexed. -/
def createFlow (slots : Slots) (packet : PacketInfo) (lookupKey : TupleKey) :
    Prog Resolution := do
  let target ← targetForPacket packet
  match target with
  | none => do
    incrementCounter .targetMiss
    pure (.verdict .ok)
  | some (target, targetPort) => createToward slots packet lookupKey target targetPort

/-! ## Processing -/

/-- Write the record of an admitted packet's flow. -/
def updateState (stateKey : FlowStateKey) (packet : PacketInfo) (ingress : Bool) (now : UInt64) :
    Prog Unit :=
  if packet.protocol = ipprotoTcp then do
    let config ← perform .configLookup
    let grace := match config with
      | some config => if config.terminalGraceNs ≠ 0 then config.terminalGraceNs else 30000000000
      | none => 30000000000
    perform (.stateStore stateKey (.tcp grace (if ingress then 0 else 1) packet.tcpFlags now))
  else perform (.stateStore stateKey (.touch now))

/-- The frame an admitted packet leaves as. -/
def rewriteFrame (frame : List UInt8) (packet : PacketInfo) (ingress : Bool)
    (state : FlowStateValue) : List UInt8 :=
  if ingress then
    rewriteDestination frame packet state.target.destination state.target.destinationPort
  else rewriteSource frame packet state.original.destination state.original.destinationPort

/-- Admission, update and rewrite of a packet of a resolved flow. -/
def admitPacket (frame : List UInt8) (packet : PacketInfo) (ingress : Bool)
    (stateKey : FlowStateKey) : Prog (TcAction × List UInt8) := do
  let entered ← enterFlowPacket stateKey
  match entered with
  | none => pure (.shot, frame)
  | some state => do
    let now ← perform .ktime
    updateState stateKey packet ingress now
    leaveFlowPacket stateKey
    pure (.ok, rewriteFrame frame packet ingress state)

/-- The tail of `process_packet` for a packet with an index. -/
def processResolved (frame : List UInt8) (packet : PacketInfo) (ingress : Bool)
    (index : FlowIndexValue) : Prog (TcAction × List UInt8) := do
  let stateKey := stateKeyOf index.flowId index.generation
  let state ← perform (.lookup .flowState stateKey)
  match state with
  | none => pure (.ok, frame)
  | some state =>
    if state.lifecycle = flowActive then admitPacket frame packet ingress stateKey
    else pure (.ok, frame)

/-- The index of a packet's tuple: found, created, or absent on the reverse path. -/
def resolvePacket (slots : Slots) (packet : PacketInfo) (ingress : Bool) (lookupKey : TupleKey) :
    Prog Resolution := do
  let index ← perform (.lookup .flowIndex lookupKey)
  match index with
  | some index => pure (.index index)
  | none => if ingress then createFlow slots packet lookupKey else pure (.verdict .ok)

/-- The tuple key of a packet. -/
def packetKey (packet : PacketInfo) : TupleKey :=
  makeTupleKey packet packet.source packet.destination packet.sourcePort packet.destinationPort

/-- `process_packet`: resolve or create the flow of a frame and rewrite the frame. The result is the
verdict and the frame as it leaves. -/
def processPacket (slots : Slots) (frame : List UInt8) (ingress : Bool) :
    Prog (TcAction × List UInt8) :=
  match parsePacket frame with
  | none => pure (.ok, frame)
  | some packet => do
    let control ← isControlPacket packet ingress
    if control then do
      incrementCounter .controlBypass
      pure (.ok, frame)
    else do
      let resolution ← resolvePacket slots packet ingress (packetKey packet)
      match resolution with
      | .verdict action => pure (action, frame)
      | .index index => processResolved frame packet ingress index

end ShadowSocketProxy.Bpf
