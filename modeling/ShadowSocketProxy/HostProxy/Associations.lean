import ShadowSocketProxy.HostProxy.Expiry
import ShadowSocketProxy.Interleaving.Guarantee

/-! # UDP associations

The UDP side of the host proxy: the receive loop with `UdpAssociations::forward`, the maintenance of
flows, the relays of the associations and the shutdown, as programs over the state they share. Between
two operations of a program any other may run; a critical section of the entry table, which nobody
leaves at an `await`, is one operation. Beside the proxy stands the dataplane, which makes flows and
delivers datagrams, and whose flows the control service reads and deletes. -/

namespace ShadowSocketProxy.HostProxy

open Interleaving Bpf

/-! ## State -/

/-- How far the relay task of an association is. -/
inductive Relay where
  | unspawned
  /-- In its loop. -/
  | running
  /-- Out of its loop, before the critical section of `finish_udp_relay`. -/
  | stopping
  /-- Behind that critical section, before the completion is sent. -/
  | removed
  /-- Returned from `finish_udp_relay`. -/
  | returned
  deriving DecidableEq

/-- One outbound socket with its relay. The two watch channels are held as their values; of the one that
signals completion also the number of its receivers counts. -/
structure UdpAssociation where
  key : SocketTuple
  destination : StdSocketAddr
  lastSeen : Nat
  activity : Bool := false
  flowIdentity : Option (UInt64 × UInt32) := none
  cancel : Bool := false
  relayDone : Bool := false
  receivers : Nat := 0
  relay : Relay := .unspawned
  deriving DecidableEq

/-- A datagram that the dataplane has delivered to the proxy. The proxy sees client and payload; the
original destination is that of the flow by which it was rewritten. -/
structure Datagram where
  client : StdSocketAddr
  payload : List UInt8
  original : StdSocketAddr
  deriving DecidableEq

/-- What the tasks share. Associations are numbered in the order in which they are made, and an `Arc` to
one is its number. -/
structure UdpAssociations where
  /-- The address of the socket that faces the clients. -/
  listen : StdSocketAddr
  idleTimeout : Nat
  shutdown : Bool := false
  entries : Table SocketTuple Nat := .empty
  associations : List UdpAssociation := []
  /-- Datagrams in the socket, the oldest first. -/
  inbox : List Datagram := []
  /-- The datagram that the receive loop is forwarding. -/
  buffer : Option Datagram := none
  /-- The UDP flows of the dataplane, by the tuple the proxy sees. -/
  flows : Table SocketTuple FlowRecord := .empty
  /-- How many flows there have been. -/
  generation : UInt32 := 0

namespace UdpAssociations

/-- An empty table around a socket, beside a dataplane without flows. -/
def new (listen : StdSocketAddr) (idleTimeout : Nat) : UdpAssociations :=
  { listen := listen, idleTimeout := idleTimeout }

/-- The tuple under which the datagrams of a client arrive. -/
def tupleFrom (s : UdpAssociations) (client : StdSocketAddr) : SocketTuple :=
  ⟨client, s.listen, ipprotoUdp⟩

/-- Change one association. -/
def update (s : UdpAssociations) (id : Nat) (f : UdpAssociation → UdpAssociation) : UdpAssociations :=
  { s with associations := s.associations.modify id f }

/-- The association of a tuple, if it goes to the given destination. -/
def entryTo (s : UdpAssociations) (tuple : SocketTuple) (destination : StdSocketAddr) : Option Nat :=
  (s.entries.find? tuple).filter fun id =>
    (s.associations[id]?).any fun association => association.destination = destination

/-- Remove the entry of a tuple if it is the given association. -/
def removeExactly (s : UdpAssociations) (tuple : SocketTuple) (id : Nat) : UdpAssociations :=
  if s.entries.find? tuple = some id then { s with entries := s.entries.erase tuple } else s

end UdpAssociations

/-! ## Operations -/

/-- How sending a datagram fails. -/
inductive SendError where
  | connectionRefused
  | timedOut
  | networkUnreachable
  | hostUnreachable
  | other
  deriving DecidableEq

/-- Whether a failure to send is followed by a retry on a new association. -/
def SendError.retried : SendError → Bool
  | .other => false
  | _ => true

/-- What a relay wakes up for. -/
inductive Wake where
  | shutdown
  | cancel
  | activity
  /-- The timer, which was set by an earlier last use. -/
  | idle
  /-- A reply, which is delivered to the client or not. -/
  | received (delivered : Bool)
  | receiveError
  deriving DecidableEq

/-- Outcome of deleting a flow. -/
inductive FlowDeleteOutcome where
  | complete
  | alreadyAbsent
  | staleGeneration
  | observationMismatch
  | isPartial
  deriving DecidableEq

/-- What the receive loop gets. -/
inductive Received where
  | stopped
  | failed
  | datagram (client : StdSocketAddr) (payload : List UInt8)

/-- What the second critical section of `insert_association` does. -/
inductive Publication where
  /-- Another association to the same destination is there. -/
  | existing (id : Nat)
  | inserted (previous : Option Nat)

/-- The operations of the tasks. -/
inductive UdpOp where
  /-- `recv_from`, or the shutdown signal. -/
  | recv
  /-- The forwarding of a datagram is over. -/
  | clear
  | localAddr
  | getEntry (tuple : SocketTuple)
  | removeEntry (tuple : SocketTuple)
  | send (id : Nat) (payload : List UInt8)
  | touch (id : Nat)
  | getMapping (tuple : SocketTuple)
  | bind (destination : StdSocketAddr)
  | connect (destination : StdSocketAddr)
  /-- Make an association and its channels. -/
  | allocate (tuple : SocketTuple) (destination : StdSocketAddr)
  /-- The first critical section of `insert_association`. -/
  | checkExisting (tuple : SocketTuple) (destination : StdSocketAddr)
  | spawnRelay (id : Nat)
  /-- The second critical section of `insert_association`, for the key of the candidate. -/
  | publish (id : Nat)
  | subscribe (id : Nat)
  | borrow (id : Nat)
  | cancel (id : Nat)
  /-- Wait until the completion is seen; a caller that can be dropped may be dropped at shutdown. -/
  | changed (id : Nat) (droppable : Bool)
  | unsubscribe (id : Nat)
  | identityIs (id : Nat) (identity : UInt64 × UInt32)
  | removeIf (tuple : SocketTuple) (id : Nat)
  | observe (tuple : SocketTuple) (identity : UInt64 × UInt32)
  | drain
  | enumerateFlows
  | deleteFlow (flowId : UInt64) (generation : UInt32) (observedLastUsedNs : UInt64)
  | signal
  /-- The next step of the relay task of an association. -/
  | relay (id : Nat)
  /-- A client sends a datagram, which passes the dataplane. -/
  | datagram (client destination : StdSocketAddr) (payload : List UInt8)

/-- The response of an operation. The calls that maintenance makes have none at shutdown. -/
@[reducible] def UdpOp.Resp : UdpOp → Type
  | .recv => Received
  | .localAddr => Except ProxyError StdSocketAddr
  | .getEntry _ => Option Nat
  | .removeEntry _ => Option Nat
  | .send _ _ => Except (SendError × String) Unit
  | .getMapping _ => Except ProxyError OriginalDestination
  | .bind _ => Except ProxyError Unit
  | .connect _ => Except ProxyError Unit
  | .allocate _ _ => Nat
  | .checkExisting _ _ => Option Nat
  | .publish _ => Publication
  | .borrow _ => Bool
  | .changed _ _ => Bool
  | .identityIs _ _ => Bool
  | .removeIf _ _ => Bool
  | .drain => List Nat
  | .enumerateFlows => Option (Except ProxyError (List FlowRecord × Bool))
  | .deleteFlow _ _ _ => Option (Except ProxyError FlowDeleteOutcome)
  | _ => Unit

/-- What the environment decides at an operation. -/
structure UdpChoice where
  /-- The call fails, or the dataplane drops the datagram. -/
  fault : Bool := false
  text : String := ""
  sendError : SendError := .other
  /-- The shutdown branch is taken. -/
  stop : Bool := false
  now : Nat := 0
  wake : Wake := .idle
  /-- The flows of a page, and whether more pages follow. -/
  page : List SocketTuple := []
  more : Bool := false
  /-- A deletion that does not answer takes effect all the same. -/
  effect : Bool := false
  /-- A deletion finds the flow changed or in use. -/
  refused : Bool := false
  /-- A deletion leaves something for a retry. -/
  leaves : Bool := false
  /-- The hash a new flow is named by, and the time in nanoseconds. -/
  flowId : UInt64 := 0
  nowNs : UInt64 := 0

/-- One step of a relay task. -/
def relayStep (c : UdpChoice) (id : Nat) (association : UdpAssociation) (s : UdpAssociations) :
    Option UdpAssociations :=
  let leave := s.update id fun association => { association with relay := .stopping }
  match association.relay with
  | .unspawned => none
  | .running =>
    match c.wake with
    | .shutdown => if s.shutdown then some leave else none
    | .cancel => if association.cancel then some leave else none
    | .activity =>
      if association.activity then
        some (s.update id fun association => { association with activity := false })
      else none
    | .idle => if c.now - association.lastSeen < s.idleTimeout then some s else some leave
    | .received delivered =>
      if delivered then
        some (s.update id fun association =>
          { association with lastSeen := c.now, activity := true })
      else some leave
    | .receiveError => some leave
  | .stopping =>
    some ((s.removeExactly association.key id).update id fun association =>
      { association with relay := .removed })
  | .removed =>
    -- without a receiver the send fails and leaves the value as it is
    some (s.update id fun association =>
      { association with
        relayDone := association.relayDone || decide (0 < association.receivers)
        relay := .returned })
  | .returned => none

/-- A datagram passes the dataplane: on a flow of its own, or on a new one if no other has the tuple. -/
def UdpAssociations.deliver (c : UdpChoice) (client destination : StdSocketAddr) (payload : List UInt8)
    (s : UdpAssociations) : UdpAssociations :=
  let tuple := s.tupleFrom client
  let original : SocketTuple := ⟨client, destination, ipprotoUdp⟩
  let arrived := { s with inbox := s.inbox ++ [(⟨client, payload, destination⟩ : Datagram)] }
  if c.fault then s
  else
    match s.flows.find? tuple with
    | some flow =>
      if flow.original = original then
        { arrived with flows := s.flows.insert tuple { flow with lastUsedNs := c.nowNs } }
      else s
    | none =>
      { arrived with
        flows := s.flows.insert tuple
          { flowId := c.flowId
            generation := s.generation + 1
            synthetic := tuple
            original := original
            lastUsedNs := c.nowNs
            protocolFlags := 0
            tcpStateFlags := 0
            observedNowNs := 0
            finSeenMask := 0
            finAckSeenMask := 0 }
        generation := s.generation + 1 }

/-- The deletion of a flow by the control service, when it takes effect. -/
def UdpAssociations.deleteNow (c : UdpChoice) (flowId : UInt64) (generation : UInt32)
    (observedLastUsedNs : UInt64) (s : UdpAssociations) : FlowDeleteOutcome × UdpAssociations :=
  let found := s.flows.pairs.find? fun entry =>
    entry.2.flowId = flowId && entry.2.generation = generation
  match found with
  | some (tuple, flow) =>
    if c.refused || (observedLastUsedNs ≠ 0 && flow.lastUsedNs ≠ observedLastUsedNs) then
      (.observationMismatch, s)
    else (if c.leaves then .isPartial else .complete, { s with flows := s.flows.erase tuple })
  | none =>
    if s.flows.pairs.any fun entry => entry.2.flowId = flowId then (.staleGeneration, s)
    else (.alreadyAbsent, s)

/-- Execute one operation; one on an association waits while there is none of that number. -/
def UdpOp.exec (c : UdpChoice) : (op : UdpOp) → UdpAssociations → Option (op.Resp × UdpAssociations)
  | .recv, s =>
    if c.stop && s.shutdown then some (.stopped, s)
    else if c.fault then some (.failed, s)
    else
      match s.inbox with
      | [] => none
      | next :: inbox =>
        some (.datagram next.client next.payload, { s with inbox := inbox, buffer := some next })
  | .clear, s => some ((), { s with buffer := none })
  | .localAddr, s => some (if c.fault then .error (.io c.text) else .ok s.listen, s)
  | .getEntry tuple, s => some (s.entries.find? tuple, s)
  | .removeEntry tuple, s => some (s.entries.find? tuple, { s with entries := s.entries.erase tuple })
  | .send _ _, s => some (if c.fault then .error (c.sendError, c.text) else .ok (), s)
  | .touch id, s =>
    some ((), s.update id fun association => { association with lastSeen := c.now, activity := true })
  | .getMapping tuple, s =>
    some (if c.fault then .error (.control c.text)
      else
        match s.flows.find? tuple with
        | some flow => .ok ⟨flow.original.destination, flow.original.protocol⟩
        | none => .error .mappingNotFound, s)
  | .bind _, s => some (if c.fault then .error (.io c.text) else .ok (), s)
  | .connect _, s => some (if c.fault then .error (.io c.text) else .ok (), s)
  | .allocate tuple destination, s =>
    some (s.associations.length,
      { s with associations := s.associations ++
        [{ key := tuple, destination := destination, lastSeen := c.now }] })
  | .checkExisting tuple destination, s => some (s.entryTo tuple destination, s)
  | .spawnRelay id, s =>
    some ((), s.update id fun association =>
      if association.relay = .unspawned then { association with relay := .running } else association)
  | .publish id, s =>
    match s.associations[id]? with
    | none => none
    | some candidate =>
      match s.entryTo candidate.key candidate.destination with
      | some other => some (.existing other, s)
      | none =>
        some (.inserted (s.entries.find? candidate.key),
          { s with entries := s.entries.insert candidate.key id })
  | .subscribe id, s =>
    some ((), s.update id fun association =>
      { association with receivers := association.receivers + 1 })
  | .borrow id, s =>
    match s.associations[id]? with
    | none => none
    | some association => some (association.relayDone, s)
  | .cancel id, s => some ((), s.update id fun association => { association with cancel := true })
  | .changed id droppable, s =>
    match s.associations[id]? with
    | none => none
    | some association =>
      if association.relayDone then some (true, s)
      else if droppable && c.stop && s.shutdown then some (false, s)
      else none
  | .unsubscribe id, s =>
    some ((), s.update id fun association =>
      { association with receivers := association.receivers - 1 })
  | .identityIs id identity, s =>
    match s.associations[id]? with
    | none => none
    | some association => some (association.flowIdentity = some identity, s)
  | .removeIf tuple id, s =>
    some (s.entries.find? tuple = some id, s.removeExactly tuple id)
  | .observe tuple identity, s =>
    match s.entries.find? tuple with
    | none => some ((), s)
    | some id =>
      some ((), s.update id fun association => { association with flowIdentity := some identity })
  | .drain, s => some (s.entries.pairs.map fun entry => entry.2, { s with entries := .empty })
  | .enumerateFlows, s =>
    if c.stop && s.shutdown then some (none, s)
    else if c.fault then some (some (.error (.control c.text)), s)
    else
      some (some (.ok (c.page.filterMap fun tuple =>
        (s.flows.find? tuple).map fun flow => { flow with observedNowNs := c.nowNs }, c.more)), s)
  | .deleteFlow flowId generation observedLastUsedNs, s =>
    let deleted := s.deleteNow c flowId generation observedLastUsedNs
    if c.stop && s.shutdown then some (none, if c.effect then deleted.2 else s)
    else if c.fault then some (some (.error (.control c.text)), if c.effect then deleted.2 else s)
    else some (some (.ok deleted.1), deleted.2)
  | .signal, s => some ((), { s with shutdown := true })
  | .relay id, s =>
    match s.associations[id]? with
    | none => none
    | some association => (relayStep c id association s).map fun s' => ((), s')
  | .datagram client destination payload, s => some ((), s.deliver c client destination payload)

/-- The machine of the tasks. -/
def udpMachine : Machine UdpOp UdpOp.Resp UdpAssociations UdpChoice := ⟨UdpOp.exec⟩

/-! ## Programs -/

/-- Programs of the tasks. -/
abbrev Udp : Type → Type := Program UdpOp UdpOp.Resp

/-- Take one operation. -/
abbrev UdpOp.take (op : UdpOp) : Udp op.Resp := Program.perform op

/-- How the forwarding of a datagram ends early. -/
inductive Halt where
  | failed (error : ProxyError)
  /-- The receive loop has dropped it at shutdown. -/
  | dropped

/-- Programs of the forwarding. -/
abbrev Forward : Type → Type := ExceptT Halt Udp

/-- An operation that does not fail. -/
def UdpOp.step (op : UdpOp) : Forward op.Resp := ExceptT.lift op.take

/-- Go on with the value of a call, or fail with its error. -/
def orFail {α : Type} : Except ProxyError α → Forward α
  | .ok value => pure value
  | .error error => throw (.failed error)

/-- `stop_association`: whether the completion was seen. -/
def stopAssociation (id : Nat) (droppable : Bool) : Udp Bool := do
  UdpOp.take (.subscribe id)
  let done ← UdpOp.take (.borrow id)
  if done then
    UdpOp.take (.unsubscribe id)
    pure true
  else
    UdpOp.take (.cancel id)
    let seen ← UdpOp.take (.changed id droppable)
    UdpOp.take (.unsubscribe id)
    pure seen

/-- `stop_association` while a datagram is forwarded. -/
def stopForwarding (id : Nat) : Forward Unit := do
  let seen ← ExceptT.lift (stopAssociation id true)
  if seen then pure () else throw .dropped

/-- `insert_association`. -/
def insertAssociation (tuple : SocketTuple) (mapping : OriginalDestination) : Forward Nat := do
  let destination := mapping.address
  let bound ← UdpOp.step (.bind destination)
  orFail bound
  let connected ← UdpOp.step (.connect destination)
  orFail connected
  let candidate ← UdpOp.step (.allocate tuple destination)
  let existing ← UdpOp.step (.checkExisting tuple destination)
  match existing with
  | some existing => pure existing
  | none => do
    UdpOp.step (.spawnRelay candidate)
    let published ← UdpOp.step (.publish candidate)
    match published with
    | .existing existing => do
      stopForwarding candidate
      pure existing
    | .inserted none => pure candidate
    | .inserted (some previous) => do
      stopForwarding previous
      pure candidate

/-- `resolve_association`. -/
def resolveAssociation (tuple : SocketTuple) : Forward Nat := do
  let answer ← UdpOp.step (.getMapping tuple)
  let mapping ← orFail answer
  if mapping.protocol ≠ ipprotoUdp then
    throw (.failed (.invalidMapping "UDP lookup returned a non-UDP mapping"))
  else insertAssociation tuple mapping

/-- The association that a datagram is sent on: the cached one, or a new one. -/
def findAssociation (tuple : SocketTuple) : Forward Nat := do
  let entry ← UdpOp.step (.getEntry tuple)
  match entry with
  | some association => pure association
  | none => resolveAssociation tuple

/-- Stop what was removed from the table, if anything. -/
def stopRemoved : Option Nat → Forward Unit
  | some old => stopForwarding old
  | none => pure ()

/-- The retry behind a send that failed for its destination. -/
def retrySend (tuple : SocketTuple) (payload : List UInt8) : Forward Unit := do
  let old ← UdpOp.step (.removeEntry tuple)
  stopRemoved old
  let replacement ← resolveAssociation tuple
  let sent ← UdpOp.step (.send replacement payload)
  match sent with
  | .ok () => UdpOp.step (.touch replacement)
  | .error (_, text) => throw (.failed (.io text))

/-- Send a datagram on an association, with one retry. -/
def sendOn (tuple : SocketTuple) (payload : List UInt8) (association : Nat) : Forward Unit := do
  let sent ← UdpOp.step (.send association payload)
  match sent with
  | .ok () => UdpOp.step (.touch association)
  | .error (error, text) =>
    if error.retried then retrySend tuple payload else throw (.failed (.io text))

/-- `forward`. -/
def forward (client : StdSocketAddr) (payload : List UInt8) : Forward Unit := do
  let address ← UdpOp.step .localAddr
  let address ← orFail address
  let tuple : SocketTuple := ⟨client, address, ipprotoUdp⟩
  let association ← findAssociation tuple
  sendOn tuple payload association

/-- One round of `run_udp`. -/
def runUdp : Udp Unit := do
  let received ← UdpOp.take .recv
  match received with
  | .stopped => pure ()
  | .failed => pure ()
  | .datagram client payload => do
    let _ ← (forward client payload).run
    UdpOp.take .clear

/-- `invalidate`. -/
def invalidate (tuple : SocketTuple) (flowId : UInt64) (generation : UInt32) : Udp Unit := do
  let entry ← UdpOp.take (.getEntry tuple)
  match entry with
  | none => pure ()
  | some association => do
    let same ← UdpOp.take (.identityIs association (flowId, generation))
    if same then
      let removed ← UdpOp.take (.removeIf tuple association)
      if removed then
        let _ ← stopAssociation association false
        pure ()
      else pure ()
    else pure ()

/-- The deletions that maintenance has yet to confirm. -/
abbrev PendingDeletes : Type := Table (UInt64 × UInt32) FlowRecord

/-- The flows of one page: observe those of UDP and note those that are expired. -/
def observeFlows (policy : ExpiryPolicy) : List FlowRecord → PendingDeletes → Udp PendingDeletes
  | [], pending => pure pending
  | flow :: flows, pending => do
    if flow.original.protocol = ipprotoUdp then
      UdpOp.take (.observe flow.synthetic (flow.flowId, flow.generation))
    else pure ()
    observeFlows policy flows
      (if policy.expired flow then pending.insert (flow.flowId, flow.generation) flow else pending)

/-- The pages of one pass; nothing at shutdown. The number bounds the pages. -/
def scanFlows (policy : ExpiryPolicy) : Nat → PendingDeletes → Udp (Option PendingDeletes)
  | 0, pending => pure (some pending)
  | pages + 1, pending => do
    let page ← UdpOp.take .enumerateFlows
    match page with
    | none => pure none
    | some (.error _) => pure (some pending)
    | some (.ok (flows, more)) => do
      let pending ← observeFlows policy flows pending
      if more then scanFlows policy pages pending else pure (some pending)

/-- The deletions of one pass; nothing at shutdown. -/
def deleteFlows : List FlowRecord → PendingDeletes → Udp (Option PendingDeletes)
  | [], pending => pure (some pending)
  | flow :: flows, pending => do
    let answer ← UdpOp.take (.deleteFlow flow.flowId flow.generation flow.lastUsedNs)
    match answer with
    | none => pure none
    | some (.error _) => deleteFlows flows pending
    | some (.ok .isPartial) => deleteFlows flows pending
    | some (.ok outcome) => do
      if flow.original.protocol = ipprotoUdp ∧ (outcome = .complete ∨ outcome = .alreadyAbsent) then
        invalidate flow.synthetic flow.flowId flow.generation
      else pure ()
      deleteFlows flows (pending.erase (flow.flowId, flow.generation))

/-- `run_maintenance`, for a number of passes with a bounded number of pages each. -/
def runMaintenance (policy : ExpiryPolicy) (pages : Nat) : Nat → PendingDeletes → Udp Unit
  | 0, _ => pure ()
  | passes + 1, pending => do
    let scanned ← scanFlows policy pages pending
    match scanned with
    | none => pure ()
    | some pending => do
      let rest ← deleteFlows (pending.pairs.map fun entry => entry.2) pending
      match rest with
      | none => pure ()
      | some pending => runMaintenance policy pages passes pending

/-- Stop associations one after the other. -/
def stopAll : List Nat → Udp Unit
  | [] => pure ()
  | association :: associations => do
    let _ ← stopAssociation association false
    stopAll associations

/-- `UdpAssociations::shutdown`. -/
def shutdownAssociations : Udp Unit := do
  let associations ← UdpOp.take .drain
  stopAll associations

/-! ### Their blocks -/

/-- The operations that need no knowledge of the datagram in the receive loop. -/
def UdpOp.background : UdpOp → Bool
  | .recv => false
  | .clear => false
  | .send _ _ => false
  | .publish _ => false
  | _ => true

/-- The operations that take associations out of the table. -/
def UdpOp.takes : UdpOp → Bool
  | .removeEntry _ => true
  | .removeIf _ _ => true
  | .drain => true
  | _ => false

/-- The operations by which no association is made, published, taken out of the table or stopped. -/
def UdpOp.plain : UdpOp → Bool
  | .allocate _ _ => false
  | .spawnRelay _ => false
  | .publish _ => false
  | .subscribe _ => false
  | .unsubscribe _ => false
  | op => !op.takes

/-- Blocks that make no association: plain operations, and the routines that take associations out of the
table and stop them. Only the receive loop has others than background operations. -/
inductive StopBlock (receiving : Bool) : (β : Type) → Udp β → Prop
  | op (op : UdpOp) (hplain : op.plain = true) (hop : receiving = true ∨ op.background = true) :
      StopBlock receiving op.Resp (UdpOp.take op)
  | discard (tuple : SocketTuple) :
      StopBlock receiving _ (UdpOp.step (.removeEntry tuple) >>= stopRemoved).run
  | invalidate (tuple : SocketTuple) (flowId : UInt64) (generation : UInt32) :
      StopBlock receiving _ (invalidate tuple flowId generation)
  | shutdown : StopBlock receiving _ shutdownAssociations

/-- The blocks of the tasks. -/
inductive UdpBlock (receiving : Bool) : (β : Type) → Udp β → Prop
  | insert (hreceiving : receiving = true) (tuple : SocketTuple) (mapping : OriginalDestination) :
      UdpBlock receiving _ (insertAssociation tuple mapping).run
  | stop {β : Type} {p : Udp β} (h : StopBlock receiving β p) : UdpBlock receiving β p

/-- A program of blocks. -/
abbrev UdpBuilt {β : Type} (receiving : Bool) (p : Udp β) : Prop :=
  Program.Built (UdpBlock receiving) β p

section Blocks

variable {β : Type} {receiving : Bool}

/-- A `plain` operation of the background, then the rest. -/
theorem built_take {op : UdpOp} {f : op.Resp → Udp β} (hplain : op.plain = true)
    (hop : receiving = true ∨ op.background = true) (hf : ∀ resp, UdpBuilt receiving (f resp)) :
    UdpBuilt receiving (UdpOp.take op >>= f) :=
  .bind (.block (.stop (.op op hplain hop))) hf

/-- A `plain` operation of `forward`, then the rest. -/
theorem built_step {op : UdpOp} {f : op.Resp → Forward β} (hplain : op.plain = true)
    (hf : ∀ resp, UdpBuilt true (f resp).run) : UdpBuilt true (UdpOp.step op >>= f).run :=
  built_take hplain (.inl rfl) hf

theorem built_orFail {α : Type} {answer : Except ProxyError α} {f : α → Forward β}
    (hf : ∀ value, UdpBuilt true (f value).run) : UdpBuilt true (orFail answer >>= f).run := by
  cases answer with
  | ok value => exact hf value
  | error error => exact .ret _

theorem built_resolveAssociation (tuple : SocketTuple) :
    UdpBuilt true (resolveAssociation tuple).run := by
  refine built_step rfl fun answer => built_orFail fun mapping => ?_
  split
  · exact .ret _
  · exact .block (.insert rfl tuple mapping)

theorem built_touch (id : Nat) : UdpBuilt true (UdpOp.step (.touch id)).run :=
  .bind (.block (.stop (.op (.touch id) rfl (.inl rfl)))) fun _ => .ret _

theorem built_retrySend (tuple : SocketTuple) (payload : List UInt8) :
    UdpBuilt true (retrySend tuple payload).run := by
  refine .bindE (p := UdpOp.step (.removeEntry tuple) >>= stopRemoved) (.block (.stop (.discard tuple)))
    fun _ => .bindE (built_resolveAssociation tuple) fun replacement => built_step rfl fun sent => ?_
  rcases sent with ⟨_, text⟩ | ⟨⟨⟩⟩
  · exact .ret _
  · exact built_touch replacement

theorem built_forward (client : StdSocketAddr) (payload : List UInt8) :
    UdpBuilt true (forward client payload).run := by
  refine built_step rfl fun answer => built_orFail fun address => ?_
  refine .bindE (built_step rfl fun entry => ?_) fun association => built_step rfl fun sent => ?_
  · cases entry with
    | some association => exact .ret _
    | none => exact built_resolveAssociation _
  · rcases sent with ⟨error, text⟩ | ⟨⟨⟩⟩
    · dsimp only
      split
      · exact built_retrySend _ payload
      · exact .ret _
    · exact built_touch association

theorem built_runUdp : UdpBuilt true runUdp := by
  refine built_take rfl (.inl rfl) fun received => ?_
  cases received with
  | stopped => exact .ret _
  | failed => exact .ret _
  | datagram client payload =>
    exact .bind (built_forward client payload) fun _ =>
      .block (.stop (.op .clear rfl (.inl rfl)))

theorem built_observeFlows (policy : ExpiryPolicy) (flows : List FlowRecord)
    (pending : PendingDeletes) : UdpBuilt receiving (observeFlows policy flows pending) := by
  induction flows generalizing pending with
  | nil => exact .ret _
  | cons flow flows ih =>
    rw [observeFlows]
    split
    · exact built_take rfl (.inr rfl) fun _ => ih _
    · exact ih _

theorem built_scanFlows (policy : ExpiryPolicy) (pages : Nat) (pending : PendingDeletes) :
    UdpBuilt receiving (scanFlows policy pages pending) := by
  induction pages generalizing pending with
  | zero => exact .ret _
  | succ pages ih =>
    refine built_take rfl (.inr rfl) fun page => ?_
    rcases page with _ | _ | ⟨flows, more⟩
    · exact .ret _
    · exact .ret _
    · refine .bind (built_observeFlows policy flows pending) fun pending => ?_
      split
      · exact ih pending
      · exact .ret _

theorem built_deleteFlows (flows : List FlowRecord) (pending : PendingDeletes) :
    UdpBuilt receiving (deleteFlows flows pending) := by
  induction flows generalizing pending with
  | nil => exact .ret _
  | cons flow flows ih =>
    refine built_take rfl (.inr rfl) fun answer => ?_
    -- a confirmed outcome, with or without an invalidation
    have hconfirmed : ∀ outcome : FlowDeleteOutcome, UdpBuilt receiving (do
        if flow.original.protocol = ipprotoUdp ∧ (outcome = .complete ∨ outcome = .alreadyAbsent) then
          invalidate flow.synthetic flow.flowId flow.generation
        else pure ()
        deleteFlows flows (pending.erase (flow.flowId, flow.generation)) :
        Udp (Option PendingDeletes)) := by
      intro outcome
      dsimp only
      split
      · exact .bind (.block (.stop (.invalidate _ _ _))) fun _ => ih _
      · exact ih _
    rcases answer with _ | _ | outcome
    · exact .ret _
    · exact ih pending
    · cases outcome with
      | isPartial => exact ih pending
      | _ => exact hconfirmed _

theorem built_runMaintenance (policy : ExpiryPolicy) (pages passes : Nat) (pending : PendingDeletes) :
    UdpBuilt receiving (runMaintenance policy pages passes pending) := by
  induction passes generalizing pending with
  | zero => exact .ret _
  | succ passes ih =>
    refine .bind (built_scanFlows policy pages pending) fun scanned => ?_
    cases scanned with
    | none => exact .ret _
    | some pending =>
      refine .bind (built_deleteFlows _ pending) fun rest => ?_
      cases rest with
      | none => exact .ret _
      | some pending => exact ih pending

end Blocks

/-! ### The routines that stop associations -/

section Stopping

variable {allowed : UdpOp → Prop} {id : Nat} {droppable : Bool}

/-- The operations of `stop_association`. -/
def UdpOp.stops (id : Nat) : UdpOp → Bool
  | .subscribe id' => id' = id
  | .borrow id' => id' = id
  | .cancel id' => id' = id
  | .changed id' _ => id' = id
  | .unsubscribe id' => id' = id
  | _ => false

theorem all_stopAssociation (id : Nat) (droppable : Bool) :
    (stopAssociation id droppable).All fun op => op.stops id = true := by
  simp [stopAssociation, Program.All, UdpOp.stops]

theorem all_stopForwarding (id : Nat) : (stopForwarding id).run.All fun op => op.stops id = true := by
  refine Program.All.bindE ((all_stopAssociation id true).bind fun _ => trivial) fun seen => ?_
  cases seen <;> trivial

theorem all_stopAll (associations : List Nat) :
    (stopAll associations).All fun op => ∃ id ∈ associations, op.stops id = true := by
  induction associations with
  | nil => trivial
  | cons association associations ih =>
    refine ((all_stopAssociation association false).mono fun op hop =>
      ⟨association, List.mem_cons_self, hop⟩).bind fun _ => ih.mono ?_
    exact fun op ⟨id, hid, hop⟩ => ⟨id, List.mem_cons_of_mem _ hid, hop⟩

/-- What a `StopBlock` may do: `plain` operations, taking associations out of the table, and stopping
them. -/
theorem StopBlock.all {receiving : Bool} {β : Type} {p : Udp β} (h : StopBlock receiving β p)
    (hplain : ∀ op, op.plain = true → receiving = true ∨ op.background = true → allowed op)
    (htakes : ∀ op, op.takes = true → allowed op) (hstops : ∀ op id, op.stops id = true → allowed op) :
    p.All allowed := by
  cases h with
  | op op hop hreceiving => exact ⟨hplain op hop hreceiving, fun _ => trivial⟩
  | discard tuple =>
    refine ⟨htakes _ rfl, fun old => ?_⟩
    cases old with
    | none => trivial
    | some old => exact (all_stopForwarding old).mono fun op => hstops op old
  | invalidate tuple flowId generation =>
    refine ⟨hplain _ rfl (.inr rfl), fun entry => ?_⟩
    cases entry with
    | none => trivial
    | some association =>
      refine ⟨hplain _ rfl (.inr rfl), fun same => ?_⟩
      cases same with
      | false => trivial
      | true =>
        refine ⟨htakes _ rfl, fun removed => ?_⟩
        cases removed with
        | false => trivial
        | true =>
          exact ((all_stopAssociation association false).mono fun op =>
            hstops op association).bind fun _ => trivial
  | shutdown =>
    refine ⟨htakes _ rfl, fun associations => (all_stopAll associations).mono ?_⟩
    exact fun op ⟨id, _, hop⟩ => hstops op id hop

end Stopping

/-! ## Tasks -/

/-- What runs: rounds of the receive loop, the maintenance, the stop signal of the proxy and the shutdown
behind it, steps of relays, and datagrams of clients. -/
inductive UdpJob where
  | receive
  | maintain (policy : ExpiryPolicy) (pages passes : Nat)
  | stop
  | shutdown
  | relay (id : Nat)
  | datagram (client destination : StdSocketAddr) (payload : List UInt8)

/-- The program of a task. -/
def UdpJob.code : UdpJob → Udp Unit
  | .receive => runUdp
  | .maintain policy pages passes => runMaintenance policy pages passes .empty
  | .stop => UdpOp.take .signal
  | .shutdown => shutdownAssociations
  | .relay id => UdpOp.take (.relay id)
  | .datagram client destination payload => UdpOp.take (.datagram client destination payload)

namespace UdpJob

def isReceive : UdpJob → Bool
  | .receive => true
  | _ => false

def isMaintain : UdpJob → Bool
  | .maintain _ _ _ => true
  | _ => false

def isStop : UdpJob → Bool
  | .stop => true
  | _ => false

def isShutdown : UdpJob → Bool
  | .shutdown => true
  | _ => false

/-- There is one receive loop and one maintenance. The shutdown comes once, after the stop signal and the
end of maintenance; a forwarding that was dropped stays where it was. -/
def admitted (job : UdpJob) (threads : List (Thread UdpOp UdpOp.Resp UdpJob Unit)) : Bool :=
  match job with
  | .receive => threads.all fun t => !t.job.isShutdown && (!t.job.isReceive || t.finished)
  | .maintain _ _ _ => threads.all fun t => !t.job.isShutdown && (!t.job.isMaintain || t.finished)
  | .shutdown =>
    (threads.any fun t => t.job.isStop && t.finished) &&
      threads.all fun t => !t.job.isShutdown && (!t.job.isMaintain || t.finished)
  | _ => true

end UdpJob

/-- Every task is `UdpBuilt` from the blocks. -/
theorem built_code (job : UdpJob) : UdpBuilt job.isReceive job.code := by
  cases job with
  | receive => exact built_runUdp
  | maintain policy pages passes => exact built_runMaintenance policy pages passes _
  | shutdown => exact .block (.stop .shutdown)
  | stop => exact .block (.stop (.op .signal rfl (.inr rfl)))
  | relay id => exact .block (.stop (.op (.relay id) rfl (.inr rfl)))
  | datagram client destination payload =>
    exact .block (.stop (.op (.datagram client destination payload) rfl (.inr rfl)))

theorem background_of_stops (op : UdpOp) (id : Nat) (h : op.stops id = true) :
    op.background = true := by
  cases op <;> first | rfl | cases h

/-- Beside the receive loop all operations are `background`. -/
theorem background_of_built {β : Type} {p : Udp β} (h : UdpBuilt false p) :
    p.All fun op => op.background = true := by
  induction h with
  | block h =>
    cases h with
    | insert hreceiving => cases hreceiving
    | stop h =>
      refine h.all (fun op _ hop => hop.resolve_left (by rintro ⟨⟩)) (fun op hop => ?_)
        background_of_stops
      cases op <;> first | rfl | cases hop
  | ret value => trivial
  | bind _ _ ihp ihf => exact ihp.bind ihf

/-- The UDP side of the proxy beside the dataplane. -/
def udpSystem : Pool UdpOp UdpOp.Resp UdpAssociations UdpChoice UdpJob Unit where
  machine := udpMachine
  code := UdpJob.code
  admits := UdpJob.admitted

/-- Its worlds. -/
abbrev UdpWorld : Type := World UdpOp UdpOp.Resp UdpAssociations UdpChoice UdpJob Unit

/-- Its events. -/
abbrev UdpEvent : Type := Event UdpOp UdpOp.Resp UdpAssociations UdpChoice UdpJob

end ShadowSocketProxy.HostProxy
