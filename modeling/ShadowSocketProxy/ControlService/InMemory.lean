import ShadowSocketProxy.ControlService.Codecs

/-! # The in-memory backend

The flows of `InMemoryBackend` of `bpf.rs`, the double that the tests of the service use in place of the
adapter, and the reply that the service makes of either's report. -/

namespace ShadowSocketProxy.ControlService

/-- The flow part of `MemoryState`. -/
structure InMemoryBackend where
  flowStates : Table (UInt64 × UInt32) FlowState := .empty
  flowIndexes : Table (List UInt8) FlowIndexValue := .empty
  pendingReleases : Table (UInt64 × UInt32) Unit := .empty
  publishedReleases : Nat := 0
  failReleasePublication : Bool := false
  abortDeleteGuard : Bool := false

namespace InMemoryBackend

/-- The keys under which a flow is indexed. -/
def keysOf (state : FlowState) : List (List UInt8) :=
  [encodeKey state.original, encodeKey state.target, encodeKey state.reverse]

/-- Insert a flow and its three indexes. -/
def insertFlowState (state : FlowState) (memory : InMemoryBackend) : InMemoryBackend :=
  let index : FlowIndexValue := ⟨state.flowId, state.generation⟩
  { memory with
    flowStates := memory.flowStates.insert (state.flowId, state.generation) state
    flowIndexes := ((memory.flowIndexes.insert (encodeKey state.original) index).insert
      (encodeKey state.target) index).insert (encodeKey state.reverse) index }

/-- Make the publication of releases fail, or work again. -/
def setReleasePublicationFailure (failure : Bool) (memory : InMemoryBackend) : InMemoryBackend :=
  { memory with failReleasePublication := failure }

/-- Whether another generation of a flow is there. -/
def otherGeneration (memory : InMemoryBackend) (flowId : UInt64) (generation : UInt32) : Bool :=
  memory.flowStates.pairs.any fun entry => entry.1.1 = flowId && entry.1.2 ≠ generation

/-- The deletion of a flow that is not there. An unpublished release goes first; whether another
generation is there counts only without one. -/
def deleteAbsent (flowId : UInt64) (generation : UInt32) (memory : InMemoryBackend) :
    FlowCleanupReport × InMemoryBackend :=
  if (memory.pendingReleases.find? (flowId, generation)).isSome then
    if memory.failReleasePublication then ({ isPartial := true }, memory)
    else
      ({}, { memory with
        pendingReleases := memory.pendingReleases.erase (flowId, generation)
        publishedReleases := memory.publishedReleases + 1 })
  else ({ staleGeneration := memory.otherGeneration flowId generation }, memory)

/-- The deletion of a flow that is there: the flow, all indexes with its identity, and the release. -/
def deletePresent (flowId : UInt64) (generation : UInt32) (memory : InMemoryBackend) :
    FlowCleanupReport × InMemoryBackend :=
  let expected : FlowIndexValue := ⟨flowId, generation⟩
  let memory := { memory with
    pendingReleases := memory.pendingReleases.insert (flowId, generation) ()
    flowStates := memory.flowStates.erase (flowId, generation) }
  let before := memory.flowIndexes.size
  let memory := { memory with flowIndexes := memory.flowIndexes.retain fun value => value ≠ expected }
  let report : FlowCleanupReport :=
    { stateDeleted := true
      indexesDeleted := before - memory.flowIndexes.size
      isPartial := memory.failReleasePublication }
  if memory.failReleasePublication then (report, memory)
  else
    (report, { memory with
      pendingReleases := memory.pendingReleases.erase (flowId, generation)
      publishedReleases := memory.publishedReleases + 1 })

/-- `InMemoryBackend::delete_flow`; the guard deadline is ignored. -/
def deleteFlow (flowId : UInt64) (generation : UInt32) (observedLastUsedNs _guardDeadlineNs : UInt64)
    (memory : InMemoryBackend) : FlowCleanupReport × InMemoryBackend :=
  match memory.flowStates.find? (flowId, generation) with
  | none => memory.deleteAbsent flowId generation
  | some current =>
    if memory.abortDeleteGuard then (.mismatch, memory)
    else if observedLastUsedNs ≠ 0 ∧ current.lastUsedNs ≠ observedLastUsedNs then (.mismatch, memory)
    else memory.deletePresent flowId generation

end InMemoryBackend

/-! ## The reply of the service -/

namespace Proto

inductive DeleteFlowOutcome where
  | observationMismatch
  | partialCleanup
  | staleGeneration
  | complete
  | alreadyAbsent
  deriving DecidableEq

structure DeleteFlowReply where
  outcome : DeleteFlowOutcome
  flowId : UInt64
  generation : UInt32
  indexesDeleted : UInt32
  stateDeleted : Bool
  retryable : Bool
  deriving DecidableEq

end Proto

/-- What a report comes to; the first reason that applies. -/
def FlowCleanupReport.outcome (report : FlowCleanupReport) : Proto.DeleteFlowOutcome :=
  if report.observationMismatch then .observationMismatch
  else if report.isPartial then .partialCleanup
  else if report.staleGeneration then .staleGeneration
  else if report.stateDeleted ∨ report.indexesDeleted ≠ 0 then .complete
  else .alreadyAbsent

/-- The answer of the `DeleteFlow` request to what the backend has returned. -/
def deleteFlowReply (flowId : UInt64) (generation : UInt32)
    (result : Except BackendError FlowCleanupReport) : Except Status Proto.DeleteFlowReply :=
  match result with
  | .error error => .error (mapBackendError error)
  | .ok report => .ok
      { outcome := report.outcome
        flowId := flowId
        generation := generation
        indexesDeleted := UInt32.ofNat report.indexesDeleted
        stateDeleted := report.stateDeleted
        retryable := report.isPartial }

end ShadowSocketProxy.ControlService
