import ShadowSocketProxy.HostProxy.WindowsConditional.Context

/-! # Conditional accept: the threads

The coordinator with its callback, the preconnect worker, the conversion of handoffs and the callers of
`stop_and_reject_pending`, as programs over the shared state. A loop is given by its rounds; how often a
loop inside a round goes round is a parameter of the round. -/

namespace ShadowSocketProxy.HostProxy.WindowsConditional

open Interleaving Bpf

/-- Programs of the threads. -/
abbrev Prog : Type → Type := Program AcceptOp AcceptOp.Resp

/-- Take one operation. -/
abbrev AcceptOp.take (op : AcceptOp) : Prog op.Resp := Program.perform op

/-! ## Reservations -/

/-- `ConditionalAdmissions::release`, for the attempt that a party holds. -/
def release (party : Party) : Prog Unit := do
  let released ← AcceptOp.take (.swapReleased party)
  if released then pure () else AcceptOp.take (.subPending party)

/-- `release_handoff_reservation`. -/
def releaseHandoffReservation (party : Party) : Prog Unit := do
  let reserved ← AcceptOp.take (.swapReserved party)
  if reserved then AcceptOp.take (.subHandoff party) else pure ()

/-- `reject_and_release`. -/
def rejectAndRelease (party : Party) (state : ConditionalAttemptState) : Prog Unit := do
  AcceptOp.take (.setHeldState party state)
  releaseHandoffReservation party
  release party

/-- Reject what was taken out of the slot, if anything. -/
def rejectTaken (party : Party) : Option AttemptSlot → Prog Unit
  | some _ => rejectAndRelease party .rejected
  | none => pure ()

/-- Cancel what was taken out of the slot, if anything. -/
def cancelTaken (party : Party) : Option AttemptSlot → Prog Unit
  | some _ => do
    AcceptOp.take (.setHeldState party .cancelled)
    release party
  | none => pure ()

/-- `stop_and_reject_pending`. -/
def stopAndRejectPending (party : Party) : Prog Unit := do
  AcceptOp.take (.lock party)
  AcceptOp.take (.stopAccepting party)
  let slot ← AcceptOp.take (.takeSlot party)
  AcceptOp.take (.unlock party .stop)
  cancelTaken party slot
  releaseHandoffReservation party
  AcceptOp.take .wake

/-- Take the slot if a test on it was passed. -/
def takeIf (party : Party) (passed : Bool) : Prog (Option AttemptSlot) :=
  if passed then AcceptOp.take (.takeSlot party) else pure none

/-- The attempt was claimed in a generation. -/
def claimedIn (generation : UInt64) (current : Option (ConditionalRequestId × ConditionalAttemptState)) :
    Bool :=
  current.any fun attempt => attempt.1.generation = generation && attempt.2 = .claimed

/-- Take the slot if its attempt was claimed in a generation. -/
def takeClaimed (generation : UInt64) : Prog (Option AttemptSlot) := do
  AcceptOp.take (.lock .coordinator)
  let current ← AcceptOp.take (.readSlot .coordinator)
  let slot ← takeIf .coordinator (claimedIn generation current)
  AcceptOp.take (.unlock .coordinator .other)
  pure slot

/-- `reject_claimed_generation`. -/
def rejectClaimedGeneration (generation : UInt64) : Prog Unit := do
  let slot ← takeClaimed generation
  rejectTaken .coordinator slot

/-- `reject_active_attempt`. -/
def rejectActiveAttempt : Prog Unit := do
  AcceptOp.take (.lock .coordinator)
  let slot ← AcceptOp.take (.takeSlot .coordinator)
  AcceptOp.take (.unlock .coordinator .other)
  rejectTaken .coordinator slot

/-- `reject_terminal_attempt`. -/
def rejectTerminalAttempt : Prog Unit := do
  AcceptOp.take (.lock .coordinator)
  let current ← AcceptOp.take (.readSlot .coordinator)
  AcceptOp.take (.unlock .coordinator .other)
  if current.any fun attempt => attempt.2 = .rejected || attempt.2 = .cancelled then rejectActiveAttempt
  else pure ()

/-! ## The callback -/

/-- The connection that a callback is about. -/
def callbackTuple (callerId calleeId : Option (List UInt8)) : Option SocketTuple := do
  let source ← socketAddrFromWsaBuf callerId
  let destination ← socketAddrFromWsaBuf calleeId
  if source.ip.isIpv4 ≠ destination.ip.isIpv4 then none else some ⟨source, destination, ipprotoTcp⟩

/-- Return from the callback, which gives up the lock. -/
def answerLocked (tuple : SocketTuple) (answer : Answer) : Prog Answer := do
  AcceptOp.take (.unlock .coordinator (.answer tuple answer))
  pure answer

/-- Mark the attempt in the slot and reject the client. -/
def rejectMarked (tuple : SocketTuple) (state : ConditionalAttemptState) : Prog Answer := do
  AcceptOp.take (.setState state)
  answerLocked tuple .reject

/-- Claim a ready attempt for which a handoff is reserved. -/
def claimReady (tuple : SocketTuple) (generation : UInt64) : Prog Answer := do
  let claimed ← AcceptOp.take .claim
  if claimed then do
    AcceptOp.take (.storeGeneration generation)
    answerLocked tuple .accept
  else do
    releaseHandoffReservation .coordinator
    rejectMarked tuple .rejected

/-- Reserve a handoff for a ready attempt and claim it. -/
def acceptReady (tuple : SocketTuple) (generation : UInt64) : Prog Answer := do
  let reserved ← AcceptOp.take .addHandoff
  if reserved then do
    AcceptOp.take .setReserved
    claimReady tuple generation
  else rejectMarked tuple .rejected

/-- Answer for the attempt in the slot. -/
def answerAttempt (tuple : SocketTuple) (id : ConditionalRequestId) (state : ConditionalAttemptState) :
    Prog Answer :=
  if id.tuple ≠ tuple then answerLocked tuple .reject
  else do
    let accepting ← AcceptOp.take .loadAccepting
    if accepting then
      match state with
      | .deferred => answerLocked tuple .defer
      | .ready => acceptReady tuple id.generation
      | .claimed | .rejected | .cancelled => answerLocked tuple .reject
    else rejectMarked tuple .cancelled

/-- The new attempt is in the slot: wake the worker up, or take the attempt back. -/
def deferInstalled : Prog Answer := do
  let sent ← AcceptOp.take .trySend
  if sent then do
    AcceptOp.take (.unlock .coordinator .other)
    AcceptOp.take .wake
    pure .defer
  else do
    let removed ← AcceptOp.take (.takeSlot .coordinator)
    AcceptOp.take (.unlock .coordinator .other)
    rejectTaken .coordinator removed
    pure .reject

/-- Answer for a new attempt. -/
def answerNew (tuple : SocketTuple) : Prog Answer := do
  let accepting ← AcceptOp.take .loadAccepting
  if accepting then do
    let reservation ← AcceptOp.take (.reserve tuple)
    match reservation with
    | none => answerLocked tuple .reject
    | some _ => do
      AcceptOp.take .install
      deferInstalled
  else answerLocked tuple .reject

/-- The callback once it has the lock. -/
def answerWithLock (tuple : SocketTuple) : Prog Answer := do
  let current ← AcceptOp.take (.readSlot .coordinator)
  match current with
  | some (id, state) => answerAttempt tuple id state
  | none => answerNew tuple

/-- `condition_callback`. -/
def conditionCallback (callerId calleeId : Option (List UInt8)) : Prog Answer :=
  match callbackTuple callerId calleeId with
  | none => pure .reject
  | some tuple => do
    let locked ← AcceptOp.take .tryLock
    if locked then answerWithLock tuple else pure .reject

/-! ## The coordinator -/

/-- Publish a result in the slot it belongs to. -/
def publishResult : WorkerResult → Prog Unit
  | .ready id prepared => do
    AcceptOp.take (.prepare id prepared)
    let marked ← AcceptOp.take .markReady
    if marked then AcceptOp.take (.unlock .coordinator .other)
    else do
      AcceptOp.take .unprepare
      AcceptOp.take (.unlock .coordinator .other)
  | .rejected _ _ => do
    AcceptOp.take (.setState .rejected)
    AcceptOp.take (.unlock .coordinator .other)

/-- `apply_worker_result`. -/
def applyWorkerResult (result : WorkerResult) : Prog Unit := do
  AcceptOp.take (.lock .coordinator)
  let current ← AcceptOp.take (.readSlot .coordinator)
  if current = some (result.id, .deferred) then publishResult result
  else do
    AcceptOp.take (.unlock .coordinator .other)
    AcceptOp.take (.discard result)

/-- Apply the results that are there, at most as many as given. -/
def drainResults : Nat → Prog Unit
  | 0 => pure ()
  | n + 1 => do
    let result ← AcceptOp.take .tryRecv
    match result with
    | none => pure ()
    | some result => do
      applyWorkerResult result
      drainResults n

/-- The callbacks that one `WSAAccept` makes; the last answer, with what it is about. -/
def runCallbacks : List (Option (List UInt8) × Option (List UInt8)) → Option (SocketTuple × Answer) →
    Prog (Option (SocketTuple × Answer))
  | [], last => pure last
  | (callerId, calleeId) :: callbacks, _ => do
    let answer ← conditionCallback callerId calleeId
    runCallbacks callbacks ((callbackTuple callerId calleeId).map fun tuple => (tuple, answer))

/-- Make a handoff of what was taken out of the slot. -/
def makeHandoff (client : ClientSocket) : Option AttemptSlot → Prog Bool
  | none => pure false
  | some slot =>
    match slot.prepared with
    | none => do
      releaseHandoffReservation .coordinator
      release .coordinator
      pure false
    | some outbound => do
      release .coordinator
      AcceptOp.take (.handOver
        ⟨client, outbound, slot.attempt.id.tuple, slot.attempt.id.generation⟩)

/-- `take_handoff`; the handoff is then held by the coordinator. -/
def takeHandoff (generation : UInt64) (client : ClientSocket) : Prog Bool := do
  let slot ← takeClaimed generation
  makeHandoff client slot

/-- How a round goes on. -/
inductive Next where
  | again
  /-- Out of the loop. -/
  | leave
  /-- The loop has returned an error. -/
  | failed
  deriving DecidableEq

/-- Send a handoff to its conversion, or drop it. -/
def sendAccepted : Prog Next := do
  let configured ← AcceptOp.take .setNonblocking
  match configured with
  | .error _ => do
    AcceptOp.take (.dropHandoff .coordinator)
    pure .again
  | .ok () => do
    let outcome ← AcceptOp.take .sendHandoff
    match outcome with
    | .sent => pure .again
    | .full => do
      AcceptOp.take (.dropHandoff .coordinator)
      pure .again
    | .closed => do
      AcceptOp.take (.dropHandoff .coordinator)
      pure .leave

/-- The coordinator has a generation for an accepted socket. -/
def serveGeneration (generation : UInt64) (client : ClientSocket) : Prog Next := do
  let handed ← takeHandoff generation client
  if handed then sendAccepted
  else do
    rejectClaimedGeneration generation
    pure .again

/-- `WSAAccept` has returned a socket. -/
def serveAccepted (client : ClientSocket) : Prog Next := do
  let generation ← AcceptOp.take .loadGeneration
  if generation = 0 then pure .again else serveGeneration generation client

/-- Errors of Winsock that say that there is no client yet. -/
def wsaEWouldBlock : Int := 10035
def wsaTryAgain : Int := 11002

/-- `is_conditional_client_error`. -/
def isConditionalClientError (error : Int) : Bool :=
  error ∈ [wsaEWouldBlock, wsaTryAgain, 10054, 10053, 10060, 10061, 10013]

/-- Reject the attempt that a failed `WSAAccept` was about. -/
def rejectRefused (generation : UInt64) (error : Int) : Prog Unit :=
  if generation ≠ 0 then rejectClaimedGeneration generation
  else if error ≠ wsaEWouldBlock ∧ error ≠ wsaTryAgain then rejectActiveAttempt
  else pure ()

/-- `WSAAccept` has failed. -/
def serveRefused (error : Int) : Prog Next := do
  let generation ← AcceptOp.take .loadGeneration
  rejectRefused generation error
  rejectTerminalAttempt
  if isConditionalClientError error then pure .again
  else do
    stopAndRejectPending .coordinator
    pure .failed

/-- `WSAAccept` has returned. -/
def serveReturned : Except Int ClientSocket → Prog Next
  | .ok client => serveAccepted client
  | .error error => serveRefused error

/-- Wait for the wake event. -/
def waitForWake : Prog Unit := do
  let waited ← AcceptOp.take .wait
  match waited with
  | .failed => stopAndRejectPending .coordinator
  | .timeout => pure ()
  | .signalled => do
    let reset ← AcceptOp.take .resetEvent
    if reset then pure () else stopAndRejectPending .coordinator

/-- The end of a round. -/
def endRound : Next → Prog Unit
  | .again => waitForWake
  | .leave => stopAndRejectPending .coordinator
  | .failed => pure ()

/-- One round of `run_coordinator`. -/
def runCoordinator (results : Nat) (callbacks : List (Option (List UInt8) × Option (List UInt8))) :
    Prog Unit := do
  let accepting ← AcceptOp.take .loadAccepting
  if accepting then do
    drainResults results
    AcceptOp.take (.storeGeneration 0)
    let last ← runCallbacks callbacks none
    let returned ← AcceptOp.take (.wsaAccept last)
    let next ← serveReturned returned
    endRound next
  else stopAndRejectPending .coordinator

/-! ## The preconnect worker -/

/-- Read the slot under its lock. -/
def peekSlot : Prog (Option (ConditionalRequestId × ConditionalAttemptState)) := do
  AcceptOp.take (.lock .worker)
  let current ← AcceptOp.take (.readSlot .worker)
  AcceptOp.take (.unlock .worker .other)
  pure current

/-- `deferred_attempt`. -/
def deferredAttempt : Prog (Option ConditionalRequestId) := do
  let current ← peekSlot
  pure ((current.filter fun attempt => attempt.2 = .deferred).map fun attempt => attempt.1)

/-- `attempt_state`. -/
def attemptState (id : ConditionalRequestId) : Prog (Option ConditionalAttemptState) := do
  let current ← peekSlot
  pure ((current.filter fun attempt => attempt.1 = id).map fun attempt => attempt.2)

/-- `wait_for_attempt_cancellation`, polled so often; whether it has ended. -/
def waitForAttemptCancellation (id : ConditionalRequestId) : Nat → Prog Bool
  | 0 => pure false
  | polls + 1 => do
    let state ← attemptState id
    if state = some .deferred then waitForAttemptCancellation id polls else pure true

/-- Connect to a validated destination. -/
def connectOutbound (id : ConditionalRequestId) (polls : Nat) (mapping : OriginalDestination) :
    Prog (Except ProxyError PreparedSocket) := do
  let cancelled ← waitForAttemptCancellation id polls
  if cancelled then pure (.error (.control "conditional preconnect cancelled"))
  else do
    let connected ← AcceptOp.take (.connect id mapping)
    match connected with
    | .error error => pure (.error error)
    | .ok prepared => do
      let configured ← AcceptOp.take .setNonblocking
      match configured with
      | .error error => pure (.error error)
      | .ok () => pure (.ok prepared)

/-- Validate a mapping and connect. -/
def connectMapping (id : ConditionalRequestId) (polls : Nat) :
    Except ProxyError OriginalDestination → Prog (Except ProxyError PreparedSocket)
  | .error error => pure (.error error)
  | .ok mapping =>
    match validateTcpMapping id.tuple mapping with
    | .error error => pure (.error error)
    | .ok () => connectOutbound id polls mapping

/-- `preconnect_attempt`, with so many polls before the lookup and before the connection. -/
def preconnectAttempt (id : ConditionalRequestId) (before between : Nat) :
    Prog (Except ProxyError PreparedSocket) := do
  let inTime ← AcceptOp.take .budget
  if inTime then do
    let cancelled ← waitForAttemptCancellation id before
    if cancelled then pure (.error (.control "conditional preconnect cancelled"))
    else do
      let answer ← AcceptOp.take (.getMapping id)
      connectMapping id between answer
  else pure (.error (.control "conditional preconnect timed out before it started"))

/-- The report about an attempt. -/
def workerResult (id : ConditionalRequestId) : Except ProxyError PreparedSocket → WorkerResult
  | .ok prepared => .ready id prepared
  | .error error => .rejected id error

/-- Report a result. -/
def reportResult (result : WorkerResult) : Prog Unit := do
  let sent ← AcceptOp.take (.sendResult result)
  if sent then AcceptOp.take .wake else pure ()

/-- Prepare the attempt that was found. -/
def preconnectFound (before between : Nat) : Option ConditionalRequestId → Prog Unit
  | none => pure ()
  | some id => do
    let state ← attemptState id
    if state = some .deferred then do
      let result ← preconnectAttempt id before between
      reportResult (workerResult id result)
    else pure ()

/-- One round of `run_preconnect_worker`. -/
def runPreconnectWorker (before between : Nat) : Prog Unit := do
  let accepting ← AcceptOp.take .loadAccepting
  if accepting then do
    let received ← AcceptOp.take .recvRequest
    if received then do
      let attempt ← deferredAttempt
      preconnectFound before between attempt
    else pure ()
  else pure ()

/-! ## The handoffs -/

/-- Receive a handoff and convert it. -/
def convertHandoff : Prog Unit := do
  let received ← AcceptOp.take (.recvHandoff .consumer)
  if received then do
    let _ ← AcceptOp.take .convert
    AcceptOp.take (.dropHandoff .consumer)
  else pure ()

/-- Drop the handoffs that are left in the channel. -/
def dropQueued : Nat → Prog Unit
  | 0 => pure ()
  | n + 1 => do
    let received ← AcceptOp.take (.recvHandoff .owner)
    if received then do
      AcceptOp.take (.dropHandoff .owner)
      dropQueued n
    else pure ()

/-- The end of `run_tcp_conditional`. -/
def closeConditional : Prog Unit := do
  stopAndRejectPending .owner
  let queued ← AcceptOp.take .closeReceiver
  dropQueued queued

/-! ## The system -/

/-- What runs. -/
inductive AcceptJob where
  | coordinate (results : Nat) (callbacks : List (Option (List UInt8) × Option (List UInt8)))
  | preconnect (before between : Nat)
  | convert
  | close
  | stop (n : Nat)

namespace AcceptJob

/-- The thread of a job. -/
def party : AcceptJob → Party
  | .coordinate _ _ => .coordinator
  | .preconnect _ _ => .worker
  | .convert => .consumer
  | .close => .owner
  | .stop n => .stopper n

/-- The program of a job. -/
def code : AcceptJob → Prog Unit
  | .coordinate results callbacks => runCoordinator results callbacks
  | .preconnect before between => runPreconnectWorker before between
  | .convert => convertHandoff
  | .close => closeConditional
  | .stop n => stopAndRejectPending (.stopper n)

/-- A thread does one thing at a time, and nothing is converted beside or after the end. -/
def admitted (job : AcceptJob) (threads : List (Thread AcceptOp AcceptOp.Resp AcceptJob Unit)) : Bool :=
  threads.all fun t =>
    match job with
    | .convert => t.job.party ≠ .owner && (t.job.party ≠ .consumer || t.finished)
    | .close => t.job.party ≠ .owner && (t.job.party ≠ .consumer || t.finished)
    | _ => t.job.party ≠ job.party || t.finished

end AcceptJob

/-- The threads of the conditional listener. -/
def acceptSystem : Pool AcceptOp AcceptOp.Resp ConditionalContext AcceptChoice AcceptJob Unit where
  machine := acceptMachine
  code := AcceptJob.code
  admits := AcceptJob.admitted

/-- Its worlds. -/
abbrev AcceptWorld : Type :=
  World AcceptOp AcceptOp.Resp ConditionalContext AcceptChoice AcceptJob Unit

/-- Its events. -/
abbrev AcceptEvent : Type := Event AcceptOp AcceptOp.Resp ConditionalContext AcceptChoice AcceptJob

end ShadowSocketProxy.HostProxy.WindowsConditional
