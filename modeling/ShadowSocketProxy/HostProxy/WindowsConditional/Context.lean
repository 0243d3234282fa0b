import ShadowSocketProxy.HostProxy.Lookup
import ShadowSocketProxy.Interleaving.Guarantee

/-! # Conditional accept: the shared state

On Windows the proxy connects to the original destination before it accepts a client. The callback of
`WSAAccept` defers the client, a worker looks its destination up and connects, the coordinator puts the
connected socket into the slot of the attempt, and the next callback accepts. Here are the state that the
threads share and its atomic operations: what is read or written under the lock of the slot, each access
to an atomic variable, each use of a channel, and the calls of the system, which the environment answers.

What a thread has taken out of the shared state and not given back stands under the name of that thread:
an attempt that is not in the slot, a unit of `handoffs` that is between the counter and its flag, a
handoff that is not in the channel. Records of what has happened (`mappings`, `runs`, `claims`,
`stoppers`, `fates`) are read by no thread. -/

namespace ShadowSocketProxy.HostProxy.WindowsConditional

open Interleaving Bpf Bytes

/-! ## Data -/

/-- Lifecycle of an attempt. -/
inductive ConditionalAttemptState where
  | deferred
  | ready
  | claimed
  | rejected
  | cancelled
  deriving DecidableEq

/-- Which client an attempt is for, and which of its attempts it is. -/
structure ConditionalRequestId where
  tuple : SocketTuple
  generation : UInt64
  deriving DecidableEq

structure ConditionalAttempt where
  id : ConditionalRequestId
  state : ConditionalAttemptState := .deferred
  released : Bool := false
  deriving DecidableEq

/-- A connected outbound socket. -/
structure PreparedSocket where
  socket : Nat
  destination : StdSocketAddr
  deriving DecidableEq

structure AttemptSlot where
  attempt : ConditionalAttempt
  prepared : Option PreparedSocket := none
  deriving DecidableEq

/-- The slot with its attempt in another state. -/
def AttemptSlot.withState (state : ConditionalAttemptState) (slot : AttemptSlot) : AttemptSlot :=
  { slot with attempt := { slot.attempt with state := state } }

/-- What the worker reports. -/
inductive WorkerResult where
  | ready (id : ConditionalRequestId) (prepared : PreparedSocket)
  | rejected (id : ConditionalRequestId) (error : ProxyError)

def WorkerResult.id : WorkerResult → ConditionalRequestId
  | .ready id _ => id
  | .rejected id _ => id

/-- An accepted socket, with the addresses of its connection. -/
structure ClientSocket where
  socket : Nat
  tuple : SocketTuple
  deriving DecidableEq

/-- A client with its outbound socket. The generation is that of the attempt it was made from. -/
structure SocketHandoff where
  client : ClientSocket
  outbound : PreparedSocket
  tuple : SocketTuple
  generation : UInt64
  deriving DecidableEq

/-- What the callback returns. -/
inductive Answer where
  | accept
  | reject
  | defer
  deriving DecidableEq

/-- The threads. -/
inductive Party where
  | coordinator
  | worker
  /-- The loop that converts handoffs. -/
  | consumer
  /-- What follows that loop. -/
  | owner
  /-- Another caller of `stop_and_reject_pending`. -/
  | stopper (n : Nat)
  deriving DecidableEq

/-- A connection that the worker has made, and what for. -/
structure WorkerRun where
  id : ConditionalRequestId
  mapping : OriginalDestination
  socket : Nat
  deriving DecidableEq

/-- What has become of a socket that the worker has reported. -/
inductive Fate where
  | queued
  | received
  | stored
  | discarded
  deriving DecidableEq

/-- What the threads share. -/
structure ConditionalContext where
  -- `ConditionalAdmissions`
  limit : Nat
  pending : Int := 0
  nextGeneration : UInt64 := 1
  -- the slot and its lock
  attempt : Option AttemptSlot := none
  guard : Option Party := none
  -- the atomic variables of `ConditionalContext`
  accepting : Bool := true
  handoffs : Int := 0
  handoffReserved : Bool := false
  acceptedGeneration : UInt64 := 0
  wakeEvent : Bool := false
  -- the channels: wake-ups of the worker, its results, and handoffs
  requests : Nat := 0
  results : List WorkerResult := []
  queue : List SocketHandoff := []
  closed : Bool := false
  /-- How many sockets have been opened. -/
  sockets : Nat := 0
  -- what the threads hold
  hands : Table Party AttemptSlot := .empty
  transit : Table Party Unit := .empty
  carried : Table Party SocketHandoff := .empty
  -- what has happened
  mappings : List (ConditionalRequestId × OriginalDestination) := []
  runs : List WorkerRun := []
  claims : List AttemptSlot := []
  stoppers : List Party := []
  fates : Table Nat Fate := .empty

/-- The number of attempts that are supported at once. -/
def conditionalAttemptCapacity : Nat := 1

/-- The state in which the threads start. -/
def ConditionalContext.new : ConditionalContext := { limit := conditionalAttemptCapacity }

/-- The check of a mapping for a TCP connection. -/
def validateTcpMapping (tuple : SocketTuple) (original : OriginalDestination) : Except ProxyError Unit :=
  if original.protocol ≠ ipprotoTcp then
    .error (.invalidMapping "TCP lookup returned a non-TCP mapping")
  else if original.address.ip.isUnspecified ∨ original.address.port = 0 ∨
      original.address.ip.isIpv4 ≠ tuple.destination.ip.isIpv4 then
    .error (.invalidMapping "TCP mapping destination has an invalid address, port, or family")
  else .ok ()

/-- The address in a buffer of the callback; there may be no buffer. -/
def socketAddrFromWsaBuf : Option (List UInt8) → Option StdSocketAddr
  | none => none
  | some bytes =>
    if bytes.length < 4 then none
    else if leAt 2 bytes 0 = 2 ∧ 16 ≤ bytes.length then
      some (.v4 (arrayAt 4 bytes 4) (be16At bytes 2))
    else if leAt 2 bytes 0 = 23 ∧ 28 ≤ bytes.length then
      some (.v6 (arrayAt 16 bytes 8) (be16At bytes 2) 0 (UInt32.ofNat (leAt 4 bytes 24)))
    else none

/-! ## Operations -/

/-- Why the lock of the slot is given up. -/
inductive Unlock where
  /-- `stop_and_reject_pending` has taken the slot. -/
  | stop
  /-- The callback returns, about the given tuple. -/
  | answer (tuple : SocketTuple) (answer : Answer)
  | other

/-- What becomes of a handoff that is sent. -/
inductive Sent where
  | sent
  | full
  | closed
  deriving DecidableEq

/-- How waiting for the wake event ends. -/
inductive Waited where
  | signalled
  | timeout
  | failed
  deriving DecidableEq

/-- The operations of the threads; those without a party that concern the slot or a reservation are the
coordinator's. -/
inductive AcceptOp where
  | loadAccepting
  | lock (party : Party)
  | tryLock
  | unlock (party : Party) (cause : Unlock)
  /-- Identity and state of the attempt in the slot. -/
  | readSlot (party : Party)
  | setState (state : ConditionalAttemptState)
  /-- Store the socket of a worker result in the slot. -/
  | prepare (id : ConditionalRequestId) (prepared : PreparedSocket)
  | unprepare
  /-- `mark_attempt_ready`. -/
  | markReady
  /-- `claim_ready_attempt`. -/
  | claim
  | stopAccepting (party : Party)
  | takeSlot (party : Party)
  /-- `ConditionalAdmissions::reserve`. -/
  | reserve (tuple : SocketTuple)
  | install
  /-- Wake the worker up. -/
  | trySend
  /-- Write the state of an attempt that is not in the slot. -/
  | setHeldState (party : Party) (state : ConditionalAttemptState)
  | swapReleased (party : Party)
  | subPending (party : Party)
  /-- The compare-exchange of `reserve_handoff`. -/
  | addHandoff
  | setReserved
  /-- Clear the flag to give the unit back. -/
  | swapReserved (party : Party)
  /-- Clear the flag to make the handoff from it. -/
  | handOver (handoff : SocketHandoff)
  | subHandoff (party : Party)
  | storeGeneration (generation : UInt64)
  | loadGeneration
  | tryRecv
  /-- A result is dropped, and with it its socket. -/
  | discard (result : WorkerResult)
  /-- `WSAAccept` returns, after its last callback. -/
  | wsaAccept (last : Option (SocketTuple × Answer))
  | setNonblocking
  | sendHandoff
  /-- A handoff is dropped, and with it its reservation. -/
  | dropHandoff (party : Party)
  | wake
  | wait
  | resetEvent
  | recvRequest
  | budget
  | getMapping (id : ConditionalRequestId)
  | connect (id : ConditionalRequestId) (mapping : OriginalDestination)
  | sendResult (result : WorkerResult)
  | recvHandoff (party : Party)
  | convert
  | closeReceiver

/-- The response of an operation. -/
@[reducible] def AcceptOp.Resp : AcceptOp → Type
  | .loadAccepting => Bool
  | .tryLock => Bool
  | .readSlot _ => Option (ConditionalRequestId × ConditionalAttemptState)
  | .markReady => Bool
  | .claim => Bool
  | .takeSlot _ => Option AttemptSlot
  | .reserve _ => Option ConditionalRequestId
  | .trySend => Bool
  | .swapReleased _ => Bool
  | .addHandoff => Bool
  | .swapReserved _ => Bool
  | .handOver _ => Bool
  | .loadGeneration => UInt64
  | .tryRecv => Option WorkerResult
  | .wsaAccept _ => Except Int ClientSocket
  | .setNonblocking => Except ProxyError Unit
  | .sendHandoff => Sent
  | .wait => Waited
  | .resetEvent => Bool
  | .recvRequest => Bool
  | .budget => Bool
  | .getMapping _ => Except ProxyError OriginalDestination
  | .connect _ _ => Except ProxyError PreparedSocket
  | .sendResult _ => Bool
  | .recvHandoff _ => Bool
  | .convert => Bool
  | .closeReceiver => Nat
  | _ => Unit

/-- What the environment decides at an operation. -/
structure AcceptChoice where
  /-- The call fails. -/
  fault : Bool := false
  error : ProxyError := .mappingNotFound
  /-- The error of a failed `WSAAccept`. -/
  code : Int := 10035
  /-- The connection that `WSAAccept` returns. -/
  tuple : SocketTuple := ⟨.v4 (ipv4 0 0 0 0) 0, .v4 (ipv4 0 0 0 0) 0, ipprotoTcp⟩
  /-- The answer of the control service. -/
  mapping : OriginalDestination := ⟨.v4 (ipv4 0 0 0 0) 0, ipprotoTcp⟩

/-- What is done with an attempt that a party holds; without one the party waits. -/
def ConditionalContext.holding {α : Type} (s : ConditionalContext) (party : Party)
    (f : AttemptSlot → α) : Option α :=
  (s.hands.find? party).map f

/-- The fates, with a new one of the socket of a result, if it has one. -/
def ConditionalContext.mark (s : ConditionalContext) (fate : Fate) : WorkerResult → Table Nat Fate
  | .ready _ prepared => s.fates.insert prepared.socket fate
  | .rejected _ _ => s.fates

/-- Execute one operation. -/
def AcceptOp.exec (c : AcceptChoice) :
    (op : AcceptOp) → ConditionalContext → Option (op.Resp × ConditionalContext)
  | .loadAccepting, s => some (s.accepting, s)
  | .lock party, s => if s.guard = none then some ((), { s with guard := some party }) else none
  | .tryLock, s =>
    if s.guard = none then some (true, { s with guard := some .coordinator }) else some (false, s)
  | .unlock _ _, s => some ((), { s with guard := none })
  | .readSlot _, s => some (s.attempt.map fun slot => (slot.attempt.id, slot.attempt.state), s)
  | .setState state, s => some ((), { s with attempt := s.attempt.map (AttemptSlot.withState state) })
  | .prepare _ prepared, s =>
    some ((), { s with
      attempt := s.attempt.map fun slot => { slot with prepared := some prepared }
      fates := s.fates.insert prepared.socket .stored })
  | .unprepare, s =>
    some ((), { s with attempt := s.attempt.map fun slot => { slot with prepared := none } })
  | .markReady, s =>
    match s.attempt with
    | none => none
    | some slot =>
      if slot.attempt.state = .deferred then
        some (true, { s with attempt := some (slot.withState .ready) })
      else some (false, s)
  | .claim, s =>
    match s.attempt with
    | none => none
    | some slot =>
      if slot.attempt.state = .ready then
        some (true, { s with
          attempt := some (slot.withState .claimed)
          claims := slot.withState .claimed :: s.claims })
      else some (false, s)
  | .stopAccepting party, s =>
    some ((), { s with accepting := false, stoppers := party :: s.stoppers })
  | .takeSlot party, s =>
    match s.attempt with
    | none => some (none, s)
    | some slot => some (some slot, { s with attempt := none, hands := s.hands.insert party slot })
  | .reserve tuple, s =>
    if s.limit ≤ s.pending then some (none, s)
    else
      let id : ConditionalRequestId := ⟨tuple, s.nextGeneration⟩
      some (some id, { s with
        pending := s.pending + 1
        nextGeneration := s.nextGeneration + 1
        hands := s.hands.insert .coordinator { attempt := { id := id } } })
  | .install, s =>
    s.holding .coordinator fun slot =>
      ((), { s with attempt := some slot, hands := s.hands.erase .coordinator })
  | .trySend, s =>
    if c.fault || conditionalAttemptCapacity ≤ s.requests then some (false, s)
    else some (true, { s with requests := s.requests + 1 })
  | .setHeldState party state, s =>
    s.holding party fun slot => ((), { s with hands := s.hands.insert party (slot.withState state) })
  | .swapReleased party, s =>
    s.holding party fun slot => (slot.attempt.released, { s with
      hands := s.hands.insert party { slot with attempt := { slot.attempt with released := true } } })
  | .subPending party, s =>
    some ((), { s with pending := s.pending - 1, hands := s.hands.erase party })
  | .addHandoff, s =>
    if s.limit ≤ s.handoffs then some (false, s)
    else
      some (true, { s with
        handoffs := s.handoffs + 1
        transit := s.transit.insert .coordinator () })
  | .setReserved, s =>
    some ((), { s with handoffReserved := true, transit := s.transit.erase .coordinator })
  | .swapReserved party, s =>
    if s.handoffReserved then
      some (true, { s with handoffReserved := false, transit := s.transit.insert party () })
    else some (false, s)
  | .handOver handoff, s =>
    if s.handoffReserved then
      some (true, { s with
        handoffReserved := false
        carried := s.carried.insert .coordinator handoff })
    else some (false, s)
  | .subHandoff party, s =>
    some ((), { s with handoffs := s.handoffs - 1, transit := s.transit.erase party })
  | .storeGeneration generation, s => some ((), { s with acceptedGeneration := generation })
  | .loadGeneration, s => some (s.acceptedGeneration, s)
  | .tryRecv, s =>
    match s.results with
    | [] => some (none, s)
    | result :: results =>
      some (some result, { s with results := results, fates := s.mark .received result })
  | .discard result, s => some ((), { s with fates := s.mark .discarded result })
  | .wsaAccept _, s =>
    if c.fault then some (.error c.code, s)
    else some (.ok ⟨s.sockets, c.tuple⟩, { s with sockets := s.sockets + 1 })
  | .setNonblocking, s => some (if c.fault then .error c.error else .ok (), s)
  | .sendHandoff, s =>
    match s.carried.find? .coordinator with
    | none => none
    | some handoff =>
      if s.closed then some (.closed, s)
      else if s.limit ≤ s.queue.length then some (.full, s)
      else
        some (.sent, { s with
          queue := s.queue ++ [handoff]
          carried := s.carried.erase .coordinator })
  | .dropHandoff party, s =>
    some ((), { s with handoffs := s.handoffs - 1, carried := s.carried.erase party })
  | .wake, s => some ((), { s with wakeEvent := true })
  | .wait, s => some (if c.fault then .failed else if s.wakeEvent then .signalled else .timeout, s)
  | .resetEvent, s => if c.fault then some (false, s) else some (true, { s with wakeEvent := false })
  | .recvRequest, s =>
    if s.requests = 0 then some (false, s) else some (true, { s with requests := s.requests - 1 })
  | .budget, s => some (!c.fault, s)
  | .getMapping id, s =>
    if c.fault then some (.error c.error, s)
    else some (.ok c.mapping, { s with mappings := (id, c.mapping) :: s.mappings })
  | .connect id mapping, s =>
    if c.fault then some (.error c.error, s)
    else some (.ok ⟨s.sockets, mapping.address⟩, { s with
      sockets := s.sockets + 1
      runs := ⟨id, mapping, s.sockets⟩ :: s.runs })
  | .sendResult result, s =>
    if c.fault then some (false, s)
    else some (true, { s with results := s.results ++ [result], fates := s.mark .queued result })
  | .recvHandoff party, s =>
    -- the loop may be told to end; the rest of the channel is dropped to its end
    if c.fault ∧ party = .consumer then some (false, s)
    else
      match s.queue with
      | [] => if s.closed then some (false, s) else none
      | handoff :: queue =>
        some (true, { s with queue := queue, carried := s.carried.insert party handoff })
  | .convert, s => some (!c.fault, s)
  | .closeReceiver, s => some (s.queue.length, { s with closed := true })

/-- The machine of the threads. -/
def acceptMachine : Machine AcceptOp AcceptOp.Resp ConditionalContext AcceptChoice := ⟨AcceptOp.exec⟩

end ShadowSocketProxy.HostProxy.WindowsConditional
