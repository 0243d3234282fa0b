import ShadowSocketProxy.ControlService.Links
import ShadowSocketProxy.ControlService.Messages
import ShadowSocketProxy.Interleaving.Outline

/-! # The control service

The requests of `service.rs` that attach, detach and configure. A request is a program over calls of
the backend, the configuration store, the log ring, the readiness flag and the transaction lock; it may
be interrupted by other requests at each of these steps. A call of the backend is one step, because the
backend's operation lock is held for the whole call. -/

namespace ShadowSocketProxy.ControlService

open Interleaving

/-- The service with everything its requests share. -/
structure Service where
  backend : LinuxBpfBackend := {}
  /-- The published configuration. -/
  snapshot : RuntimeConfig := RuntimeConfig.default
  nextRevision : UInt64 := 2
  /-- The capacities against which the store validates. -/
  maxima : MapMaxima := MapMaxima.default
  logCapacity : Nat := 1024
  ready : Bool := false
  /-- Whether a request holds the transaction lock. -/
  transaction : Bool := false

/-- A service with a fresh store. -/
def Service.new (initial : RuntimeConfig) (maxima : MapMaxima) (logCapacity : Nat) : Service where
  snapshot := initial
  nextRevision := initial.revision + 1
  maxima := maxima
  logCapacity := logCapacity

/-- The steps of the requests. -/
inductive ServiceOp where
  | lock
  | unlock
  | backend (call : BackendCall)
  | attachments
  | mapMaxima
  | snapshot
  /-- `ConfigStore::update`. -/
  | update (next : RuntimeConfig)
  | setCapacity (capacity : Nat)
  | setReady (ready : Bool)

/-- The response of a step. -/
@[reducible] def ServiceOp.Resp : ServiceOp → Type
  | .lock => Unit
  | .unlock => Unit
  | .backend call => Except BackendError call.Reply
  | .attachments => List Attachment
  | .mapMaxima => MapMaxima
  | .snapshot => RuntimeConfig
  | .update _ => Except ConfigError RuntimeConfig
  | .setCapacity _ => Unit
  | .setReady _ => Unit

/-- The capacities of the loaded object, or the defaults. -/
def Service.mapMaxima (s : Service) : MapMaxima :=
  (s.backend.loaded.map (·.maxima)).getD MapMaxima.default

/-- Validate, assign a fresh revision and publish. -/
def Service.update (next : RuntimeConfig) (s : Service) :
    Except ConfigError RuntimeConfig × Service :=
  match next.validateWithMaxima s.maxima with
  | .error error => (.error error, s)
  | .ok () =>
    let next := { next with revision := s.nextRevision }
    (.ok next, { s with snapshot := next, nextRevision := s.nextRevision + 1 })

/-- Execute one step; the choices are those of the adapter calls inside it. -/
def ServiceOp.exec (c : List LinkChoice) :
    (op : ServiceOp) → Service → Option (op.Resp × Service)
  | .lock, s => if s.transaction then none else some ((), { s with transaction := true })
  | .unlock, s => some ((), { s with transaction := false })
  | .backend call, s =>
    (linkMachine.run call.code c s.backend).map fun r => (r.1, { s with backend := r.2.1 })
  | .attachments, s => some (s.backend.attachments, s)
  | .mapMaxima, s => some (s.mapMaxima, s)
  | .snapshot, s => some (s.snapshot, s)
  | .update next, s => some (s.update next)
  | .setCapacity capacity, s => some ((), { s with logCapacity := max capacity 1 })
  | .setReady ready, s => some ((), { s with ready := ready })

/-- The machine of the service. -/
def serviceMachine : Machine ServiceOp ServiceOp.Resp Service (List LinkChoice) := ⟨ServiceOp.exec⟩

/-- Programs of the service. -/
abbrev Rpc : Type → Type := Program ServiceOp ServiceOp.Resp

/-- Take one step. -/
abbrev ServiceOp.take (op : ServiceOp) : Rpc op.Resp := Program.perform op

/-! ## Requests -/

/-- Run a program with the transaction lock held. -/
def locked {α : Type} (body : Rpc α) : Rpc α := do
  ServiceOp.take .lock
  let result ← body
  ServiceOp.take .unlock
  pure result

/-- Take back what an attach has created and describe the failure. -/
def rollBack (report : AttachReport) (message : String) : Rpc String := do
  let rollback ← ServiceOp.take (.backend (.rollbackAttach report.created))
  pure (match rollback with
    | .ok () => message
    | .error error => message ++ "; attach rollback failed: " ++ error.message)

/-- Validate the published configuration, write it, and become ready. -/
def configureAttached (report : AttachReport) : Rpc (Except Status Proto.OperationReply) := do
  let snapshot ← ServiceOp.take .snapshot
  match snapshot.validateWithMaxima report.maxima with
  | .error error => do
    let message ← rollBack report error.message
    pure (.error (.failedPrecondition message))
  | .ok () => do
    let snapshot ← ServiceOp.take .snapshot
    let written ← ServiceOp.take (.backend (.setRuntimeConfig snapshot))
    match written with
    | .error error => do
      let message ← rollBack report error.message
      pure (.error (mapBackendError (.operation "runtime-config" message)))
    | .ok () => do
      ServiceOp.take (.setReady true)
      pure (.ok ⟨true, "attached ingress and egress", []⟩)

/-- The `Attach` request. -/
def Service.attach (request : Proto.InterfaceRequest) : Rpc (Except Status Proto.OperationReply) :=
  locked (
    if request.elfPath.isEmpty ∨ request.interfaces = [] then
      pure (.error (.invalidArgument "elf_path and interfaces are required"))
    else do
      let result ← ServiceOp.take (.backend (.attach request.elfPath request.interfaces))
      match result with
      | .error error => pure (.error (mapBackendError error))
      | .ok report => configureAttached report)

/-- Detach, and become unready when nothing is left. -/
def detachInterfaces (interfaces : Option (List String)) :
    Rpc (Except Status Proto.OperationReply) := do
  let result ← ServiceOp.take (.backend (.detach interfaces))
  match result with
  | .error error => pure (.error (mapBackendError error))
  | .ok () => do
    let attachments ← ServiceOp.take .attachments
    if attachments = [] then do
      ServiceOp.take (.setReady false)
      pure (.ok ⟨true, "detached", []⟩)
    else pure (.ok ⟨true, "detached", []⟩)

/-- The `Detach` request; it does not take the transaction lock. -/
def Service.detach (request : Proto.DetachRequest) : Rpc (Except Status Proto.OperationReply) :=
  if request.all then detachInterfaces none
  else if request.interfaces = [] then
    pure (.error (.invalidArgument "interfaces or all is required"))
  else detachInterfaces (some request.interfaces)

/-- The `GetConfig` request. -/
def Service.getConfig : Rpc (Except Status Proto.ConfigReply) := do
  let snapshot ← ServiceOp.take .snapshot
  pure (.ok (configToProto snapshot))

/-- Publish a configuration that has been written. -/
def publish (next : RuntimeConfig) : Rpc (Except Status Proto.ConfigReply) := do
  let updated ← ServiceOp.take (.update next)
  match updated with
  | .error error => pure (.error (.invalidArgument error.message))
  | .ok updated => do
    ServiceOp.take (.setCapacity updated.logCapacity)
    pure (.ok (configToProto updated))

/-- Check a configuration, write it and publish it. An unloaded object is no obstacle. -/
def changeConfig (next : RuntimeConfig) : Rpc (Except Status Proto.ConfigReply) := do
  let snapshot ← ServiceOp.take .snapshot
  if next.listener ≠ snapshot.listener then
    pure (.error (.failedPrecondition "listener descriptor is immutable"))
  else do
    let maxima ← ServiceOp.take .mapMaxima
    match next.validateWithMaxima maxima with
    | .error error => pure (.error (.invalidArgument error.message))
    | .ok () => do
      let written ← ServiceOp.take (.backend (.setRuntimeConfig next))
      match written with
      | .ok () => publish next
      | .error .notAttached => publish next
      | .error .unsupported => publish next
      | .error error => pure (.error (mapBackendError error))

/-- The `SetConfig` request. -/
def Service.setConfig (config : Option Proto.Config) : Rpc (Except Status Proto.ConfigReply) :=
  locked (
    match runtimeConfigFromProto config with
    | .error status => pure (.error status)
    | .ok next => changeConfig next)

/-! ## Steps -/

/-- What every run of a call of the backend under the choices of a step leads to holds of the step. -/
theorem exec_backend {call : BackendCall} {c : List LinkChoice} {s s' : Service}
    {resp : Except BackendError call.Reply} {Q : Except BackendError call.Reply → LinuxBpfBackend → Prop}
    (hexec : ServiceOp.exec c (.backend call) s = some (resp, s'))
    (hcall : Guarantees (· ∈ c) call.code Q s.backend) :
    Q resp s'.backend ∧ s' = { s with backend := s'.backend } := by
  rw [ServiceOp.exec, Option.map_eq_some_iff] at hexec
  obtain ⟨⟨resp', backend, rest⟩, hrun, heq⟩ := hexec
  cases heq
  have hret : linkMachine.Returns (· ∈ c) call.code s.backend resp' backend :=
    Machine.returns_of_run hrun fun _ hmem => hmem
  exact ⟨hret.of_wp hcall, rfl⟩

/-- What a write of the configuration leads to. -/
theorem exec_setRuntimeConfig {config : RuntimeConfig} {c : List LinkChoice} {s s' : Service}
    {resp : Except BackendError Unit}
    (hexec : ServiceOp.exec c (.backend (.setRuntimeConfig config)) s = some (resp, s')) :
    (resp = .ok () ∧ ∃ loaded, s.backend.loaded = some loaded ∧ s' = { s with
        backend := { s.backend with loaded := some { loaded with config := some config } } }) ∨
      ∃ e, resp = .error e ∧ s' = s ∧
        (e = .notAttached ∧ s.backend.loaded = none ∨ e ≠ .notAttached ∧ e ≠ .unsupported) := by
  obtain ⟨hresult, hs'⟩ := exec_backend (Q := fun resp backend =>
    (resp = .ok () ∧ ∃ loaded, s.backend.loaded = some loaded ∧
        backend = { s.backend with loaded := some { loaded with config := some config } }) ∨
      ∃ e, resp = .error e ∧ backend = s.backend ∧
        (e = .notAttached ∧ s.backend.loaded = none ∨ e ≠ .notAttached ∧ e ≠ .unsupported))
    hexec (by
      intro c resp backend _ hexec
      have hexec : s.backend.writeConfig c config = (resp, backend) := Option.some.inj hexec
      rcases writeConfig_cases c config with ⟨loaded, hloaded, hwrite⟩ | ⟨e, hwrite, hwhy⟩
      · rw [hwrite] at hexec
        cases hexec
        exact .inl ⟨rfl, loaded, hloaded, rfl⟩
      · rw [hwrite] at hexec
        cases hexec
        exact .inr ⟨e, rfl, rfl, hwhy⟩)
  rcases hresult with ⟨hok, loaded, hloaded, hbackend⟩ | ⟨e, he, hbackend, hwhy⟩
  · rw [hbackend] at hs'
    exact .inl ⟨hok, loaded, hloaded, hs'⟩
  · rw [hbackend] at hs'
    exact .inr ⟨e, he, hs', hwhy⟩

/-! ## The running service -/

/-- A request. -/
inductive Request where
  | attach (request : Proto.InterfaceRequest)
  | detach (request : Proto.DetachRequest)
  | getConfig
  | setConfig (config : Option Proto.Config)

/-- What a request is answered with. -/
inductive Reply where
  | operation (reply : Except Status Proto.OperationReply)
  | config (reply : Except Status Proto.ConfigReply)
  deriving DecidableEq

/-- The program of a request. -/
def Request.code : Request → Rpc Reply
  | .attach request => do
    let reply ← Service.attach request
    pure (.operation reply)
  | .detach request => do
    let reply ← Service.detach request
    pure (.operation reply)
  | .getConfig => do
    let reply ← Service.getConfig
    pure (.config reply)
  | .setConfig config => do
    let reply ← Service.setConfig config
    pure (.config reply)

/-- Any number of requests at once. -/
def service : Pool ServiceOp ServiceOp.Resp Service (List LinkChoice) Request Reply where
  machine := serviceMachine
  code := Request.code
  admits _ _ := true

/-- A thread of the service. -/
abbrev ServiceThread : Type := Thread ServiceOp ServiceOp.Resp Request Reply

/-- An executed step of the service. -/
abbrev ServiceEvent : Type := Event ServiceOp ServiceOp.Resp Service (List LinkChoice) Request

/-- A world of the service. -/
abbrev ServiceWorld : Type := World ServiceOp ServiceOp.Resp Service (List LinkChoice) Request Reply

/-- A service with the defaults. -/
def sampleService : Service := Service.new RuntimeConfig.default MapMaxima.default 1024

end ShadowSocketProxy.ControlService
