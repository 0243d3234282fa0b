import ShadowSocketProxy.ControlService.Requests

/-! # The control client of the proxy

`TlsRustlsMappingClient` of the host proxy calls the control service over gRPC. Here a call is one step:
the service runs the request to its end and answers, or the call fails, on the way or in the service. A
call that fails has no effect; what failing requests leave behind in the service is the subject of
`ControlService.Links` and `ControlService.Agreement`. -/

namespace ShadowSocketProxy.HostProxy

open Interleaving ControlService

/-- Errors of the proxy. -/
inductive ProxyError where
  | invalidConfiguration (message : String)
  | mappingNotFound
  | invalidMapping (message : String)
  | control (message : String)
  | io (message : String)
  | unsupportedPlatform
  deriving DecidableEq

/-- The text of an error. -/
def ProxyError.message : ProxyError → String
  | .invalidConfiguration message => "invalid configuration: " ++ message
  | .mappingNotFound => "mapping not found"
  | .invalidMapping message => "mapping response is invalid: " ++ message
  | .control message => "control service error: " ++ message
  | .io message => "I/O error: " ++ message
  | .unsupportedPlatform => "proxy is unsupported on this platform"

/-! ## Calls -/

/-- The steps of a client. -/
inductive ClientOp where
  /-- Wait for the gRPC client, which other calls of this process share. -/
  | lock
  | attach (request : Proto.InterfaceRequest)
  | detach (request : Proto.DetachRequest)
  | getConfig
  | setConfig (config : Option Proto.Config)

/-- The response of a step. -/
@[reducible] def ClientOp.Resp : ClientOp → Type
  | .lock => Except ProxyError Unit
  | .attach _ => Except ProxyError Proto.OperationReply
  | .detach _ => Except ProxyError Proto.OperationReply
  | .getConfig => Except ProxyError Proto.ConfigReply
  | .setConfig _ => Except ProxyError Proto.ConfigReply

/-- What the environment decides at a call: whether it is lost or timed out, the text with which a
failure is reported, and the choices of the steps of the service. -/
structure CallChoice where
  lost : Bool := false
  text : String := ""
  steps : List (List LinkChoice) := []

/-- A call of the service, bounded in time. -/
def boundedRpc {α : Type} (c : CallChoice) (request : Rpc (Except Status α)) (s : Service) :
    Option (Except ProxyError α × Service) :=
  if c.lost then some (.error (.control c.text), s)
  else
    match serviceMachine.run request c.steps s with
    | none => none
    | some (.error _, _, _) => some (.error (.control c.text), s)
    | some (.ok reply, s', _) => some (.ok reply, s')

/-- Execute one step. -/
def ClientOp.exec (c : CallChoice) : (op : ClientOp) → Service → Option (op.Resp × Service)
  | .lock, s => some (if c.lost then .error (.control "control client lock timed out") else .ok (), s)
  | .attach request, s => boundedRpc c (Service.attach request) s
  | .detach request, s => boundedRpc c (Service.detach request) s
  | .getConfig, s => boundedRpc c Service.getConfig s
  | .setConfig config, s => boundedRpc c (Service.setConfig config) s

/-- The machine of the clients: the service is what they share. -/
def clientMachine : Machine ClientOp ClientOp.Resp Service CallChoice := ⟨ClientOp.exec⟩

/-- Programs of a client. -/
abbrev Client : Type → Type := Program ClientOp ClientOp.Resp

/-- Take one step. -/
abbrev ClientOp.take (op : ClientOp) : Client op.Resp := Program.perform op

/-- A call that fails has no effect, and one that succeeds has the effect of its request. -/
theorem boundedRpc_cases {α : Type} {c : CallChoice} {request : Rpc (Except Status α)} {s s' : Service}
    {resp : Except ProxyError α} {Q : Except Status α → Service → Prop}
    (hexec : boundedRpc c request s = some (resp, s')) (hrequest : Answers request Q s) :
    (∃ e, resp = .error e ∧ s' = s) ∨ ∃ reply, resp = .ok reply ∧ Q (.ok reply) s' := by
  rw [boundedRpc] at hexec
  split at hexec
  · cases hexec
    exact .inl ⟨_, rfl, rfl⟩
  · split at hexec
    · cases hexec
    · cases hexec
      exact .inl ⟨_, rfl, rfl⟩
    · rename_i reply s₁ rest hrun
      obtain ⟨rfl, rfl⟩ := Prod.mk.inj (Option.some.inj hexec)
      have hret : serviceMachine.Returns (fun _ => True) request s (.ok reply) s₁ :=
        Machine.returns_of_run hrun fun _ _ => trivial
      exact .inr ⟨reply, rfl, hret.of_wp hrequest⟩

/-! ## Activation -/

/-- What an activation is asked for: the object, the interface and the listener of the proxy. -/
structure Activation where
  elfPath : String
  interface : String
  proxy : SocketAddr
  deriving DecidableEq

/-- A configuration with the target of one family replaced. -/
def withTarget (proxy : SocketAddr) (config : Proto.Config) : Proto.Config :=
  match proxy.ip with
  | .v4 octets =>
    { config with ipv4TargetAddress := octets.toList, ipv4TargetPort := proxy.port.toUInt32 }
  | .v6 octets =>
    { config with ipv6TargetAddress := octets.toList, ipv6TargetPort := proxy.port.toUInt32 }

/-- Read the configuration, replace the target of the family, and set it. -/
def configureTarget (proxy : SocketAddr) : Client (Except ProxyError Unit) := do
  let reply ← ClientOp.take .getConfig
  match reply with
  | .error error => pure (.error error)
  | .ok reply =>
    match reply.config with
    | none => pure (.error (.control "control service returned no config"))
    | some config => do
      let set ← ClientOp.take (.setConfig (some (withTarget proxy config)))
      match set with
      | .error error => pure (.error error)
      | .ok _ => pure (.ok ())

/-- How an activation ends. -/
inductive Outcome where
  /-- Nothing was attached. -/
  | refused (error : ProxyError)
  | configured
  /-- The interface was detached again, or was to be. -/
  | rolledBack (error : ProxyError) (rollback : Except ProxyError Proto.OperationReply)

/-- What the caller sees of it. -/
def Outcome.result : Outcome → Except ProxyError Unit
  | .refused error => .error error
  | .configured => .ok ()
  | .rolledBack error (.ok _) => .error error
  | .rolledBack error (.error rollback) =>
    .error (.control (error.message ++ "; attach rollback failed: " ++ rollback.message))

/-- The steps of an activation. -/
def activation (a : Activation) : Client Outcome :=
  if a.elfPath.isEmpty ∨ a.interface.isEmpty then
    pure (.refused (.invalidConfiguration "BPF ELF path and interface are required"))
  else do
    let locked ← ClientOp.take .lock
    match locked with
    | .error error => pure (.refused error)
    | .ok () => do
      let attached ← ClientOp.take (.attach ⟨a.elfPath, [a.interface]⟩)
      match attached with
      | .error error => pure (.refused error)
      | .ok attached =>
        if !attached.success then pure (.refused (.control attached.message))
        else do
          let configured ← configureTarget a.proxy
          match configured with
          | .ok () => pure .configured
          | .error error => do
            let rollback ← ClientOp.take (.detach ⟨[a.interface], false⟩)
            pure (.rolledBack error rollback)

/-- `activate` of the client. -/
def activate (a : Activation) : Client (Except ProxyError Unit) := do
  let outcome ← activation a
  pure outcome.result

end ShadowSocketProxy.HostProxy
