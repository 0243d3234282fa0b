import ShadowSocketProxy.Interleaving.Outline
import ShadowSocketProxy.Bpf.Classifier
import ShadowSocketProxy.ControlService.Adapter

/-! # The system

Any number of classifier runs on any number of CPUs, interleaved operation by operation with the
calls of the control service. The adapter's mutex lets one call of the host start only when the
earlier ones have returned. -/

namespace ShadowSocketProxy

open Interleaving Bpf ControlService

/-- What may be started. -/
inductive Job where
  /-- A frame at the forward (`ingress`) or the reverse hook. -/
  | packet (frame : List UInt8) (ingress : Bool)
  /-- `delete_flow`. -/
  | delete (flowId : UInt64) (generation : UInt32) (observedLastUsedNs guardDeadlineNs : UInt64)
  /-- `set_runtime_config`. -/
  | setConfig (config : RuntimeConfig)
  /-- `list_flow_states`. -/
  | listFlows
  deriving DecidableEq

/-- What a job returns. -/
inductive Outcome where
  | verdict (action : TcAction) (frame : List UInt8)
  | report (result : Except BackendError FlowCleanupReport)
  | configured (result : Except BackendError Unit)
  | flows (result : Except BackendError (List FlowState))
  deriving DecidableEq

namespace Job

/-- Whether the job is a call of the control service. -/
def isHost : Job → Bool
  | .packet _ _ => false
  | .delete _ _ _ _ => true
  | .setConfig _ => true
  | .listFlows => true

/-- Whether the job is a deletion. -/
def deletes : Job → Bool
  | .delete _ _ _ _ => true
  | _ => false

/-- The program of a job. -/
def code (slots : Slots) : Job → Prog Outcome
  | .packet frame ingress => do
    let result ← processPacket slots frame ingress
    pure (.verdict result.1 result.2)
  | .delete flowId generation observedLastUsedNs guardDeadlineNs => do
    let result ← (deleteFlow flowId generation observedLastUsedNs guardDeadlineNs).run
    pure (.report result)
  | .setConfig config => do
    let result ← (setRuntimeConfig config).run
    pure (.configured result)
  | .listFlows => do
    let result ← listFlowStates.run
    pure (.flows result)

end Job

/-- A thread of the system. -/
abbrev SystemThread : Type := Thread Op Resp Job Outcome

/-- An executed operation of the system. -/
abbrev SystemEvent : Type := Event Op Resp Maps Choice Job

/-- A world of the system. -/
abbrev SystemWorld : Type := World Op Resp Maps Choice Job Outcome

/-- Whether no call of the control service is in progress. -/
def hostIdle (threads : List SystemThread) : Bool :=
  threads.all fun t => !t.job.isHost || t.finished

/-- Classifiers and control service over the shared maps. -/
def system (slots : Slots) : Pool Op Resp Maps Choice Job Outcome where
  machine := machine
  code := Job.code slots
  admits job threads := !job.isHost || hostIdle threads

/-- Beside a starting call of the host no other call of the host is running. -/
theorem not_host_of_admits {slots : Slots} {job : Job} {threads : List SystemThread} {Phase : Type}
    {running : Multiset (Job × Phase)} (hadmits : (system slots).admits job threads = true)
    (hrunning : ∀ x ∈ running, ∃ t ∈ threads, t.job = x.1 ∧ t.finished = false)
    (hhost : job.isHost = true) : ∀ x ∈ running, x.1.isHost = false := by
  intro x hx
  obtain ⟨t, ht, hjob, hfin⟩ := hrunning x hx
  simp only [system, hhost, hostIdle, Bool.not_true, Bool.false_or, List.all_eq_true] at hadmits
  have := hadmits t ht
  rw [hfin, Bool.or_false, Bool.not_eq_true', hjob] at this
  exact this

/-- Every job can be run to its end. -/
theorem exists_returns_job (job : Job) (s : Maps) :
    ∃ outcome s', machine.Returns (fun _ => True) (job.code Slots.split) s outcome s' :=
  Machine.exists_returns fun op s => ⟨{}, trivial, isSome_exec {} op s⟩

/-- Whether an answered operation created a record under a key. -/
def creates (key : FlowStateKey) : (op : Op) → Resp op → Bool
  | .update .flowState key' _ .noexist, created => created && key' = key
  | _, _ => false

/-! ## A sample

A client at 10.0.0.1:1000 sends a datagram to 10.0.0.2:2000, and the proxy target is 10.0.0.3:3000. -/

/-- The configuration of the sample. -/
def sampleConfig : RuntimeConfigValue where
  schemaVersion := runtimeConfigAbiVersion
  v4TargetSet := 1
  v4Target := ipv4 10 0 0 3
  v4TargetPort := 3000
  listenerFamily := 4
  listenerWildcardFlags := 1
  listenerPort := 50051
  terminalGraceNs := 30000000000
  activeFlowCapacity := 4096

/-- Settings with another target than the one of `sampleConfig`. -/
def sampleRetarget : ControlService.RuntimeConfig :=
  { ControlService.RuntimeConfig.default with ipv4Target := some ⟨.v4 (ipv4 10 0 0 9), 9000⟩ }

/-- The client's datagram, and what is parsed of it. -/
def sampleFrame : List UInt8 :=
  List.replicate 12 0 ++ [0x08, 0x00] ++
    [0x45, 0, 0, 28, 0, 0, 0, 0, 64, 17, 0, 0, 10, 0, 0, 1, 10, 0, 0, 2] ++
    [0x03, 0xe8, 0x07, 0xd0, 0, 8, 0, 0]
def samplePacket : PacketInfo where
  l3Offset := 14
  l4Offset := 34
  l4ChecksumOffset := 40
  family := 4
  protocol := ipprotoUdp
  source := ipv4ToMapped (ipv4 10 0 0 1)
  destination := ipv4ToMapped (ipv4 10 0 0 2)
  sourcePort := 1000
  destinationPort := 2000

example : parsePacket sampleFrame = some samplePacket := by decide

/-- The datagram of a second client, at 10.0.0.1:1001. -/
def sampleRival : List UInt8 := sampleFrame.set 35 0xe9

/-- The flow of the datagram, created at time 5 and active since. -/
def sampleFlow : FlowStateValue :=
  { makeCandidate samplePacket (packetKey samplePacket) (ipv4ToMapped sampleConfig.v4Target)
      sampleConfig.v4TargetPort (tupleHash (packetKey samplePacket)) 1 5 with
    lifecycle := flowActive }

/-- The identity of the flow in the maps. -/
def sampleKey : FlowStateKey := stateKeyOf sampleFlow.flowId sampleFlow.generation

/-- Maps that hold the flow with its indexes and its in-flight count. -/
def sampleMaps : Maps :=
  let index := indexOf sampleFlow.flowId sampleFlow.generation
  let s := Maps.initial sampleConfig
  let s := ((s.put .flowIndex sampleFlow.original index).put .flowIndex sampleFlow.target index).put
    .flowIndex sampleFlow.reverse index
  { (s.put .flowState sampleKey sampleFlow).put .packetInflight sampleKey 0 with
    activeFlows := 1
    generation := 1 }

end ShadowSocketProxy
