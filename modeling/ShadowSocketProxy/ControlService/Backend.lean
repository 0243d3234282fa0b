import ShadowSocketProxy.Interleaving.Sequential
import ShadowSocketProxy.ControlService.Adapter

/-! # Links

`LinuxBpfBackend` of `bpf.rs`: it attaches both classifiers to interfaces through an adapter, keeps the
list of the links it owns, and takes links back. The adapter holds the loaded object and the kernel
links; each of its calls may fail, and a failed call changes nothing. The backend's operation lock makes
the calls of the backend exclude each other, so a call is read sequentially. -/

namespace ShadowSocketProxy.ControlService

open Interleaving

/-- Which of the two packet paths a classifier serves. -/
inductive Direction where
  | ingress
  | egress
  deriving DecidableEq

/-- The text of a direction. -/
def Direction.text : Direction → String
  | .ingress => "Ingress"
  | .egress => "Egress"

/-- A classifier on an interface. -/
structure Attachment where
  interface : String
  direction : Direction
  deriving DecidableEq

/-- The location an error of an attachment names. -/
def Attachment.location (attachment : Attachment) : String :=
  attachment.interface ++ ":" ++ attachment.direction.text

/-- What a successful attach reports. -/
structure AttachReport where
  attachments : List Attachment
  /-- The links this call has created. -/
  created : List Attachment
  maxima : MapMaxima

/-- A loaded object: where it came from, the capacities of its maps, and the configuration last written
to its runtime map. -/
structure LoadedElf where
  elf : String
  maxima : MapMaxima
  config : Option RuntimeConfig := none

/-- The backend with its adapter. -/
structure LinuxBpfBackend where
  /-- The object the adapter has loaded. -/
  loaded : Option LoadedElf := none
  /-- The kernel links the adapter holds. -/
  links : List Attachment := []
  /-- The links the backend has on record. -/
  attachments : List Attachment := []

/-! ## Calls of the adapter -/

/-- The steps of the backend: calls of the adapter and accesses to the list of attachments. -/
inductive LinkOp where
  /-- Whether the path exists. -/
  | elfExists (elf : String)
  | loadElf (elf : String)
  | attach (attachment : Attachment)
  | detach (attachment : Attachment)
  | setRuntimeConfig (config : RuntimeConfig)
  | mapMaxima
  | attachments
  | extend (created : List Attachment)
  | retain (detached : List Attachment)

/-- The response of a step. -/
@[reducible] def LinkOp.Resp : LinkOp → Type
  | .elfExists _ => Bool
  | .loadElf _ => Except BackendError Unit
  | .attach _ => Except BackendError Unit
  | .detach _ => Except BackendError Unit
  | .setRuntimeConfig _ => Except BackendError Unit
  | .mapMaxima => MapMaxima
  | .attachments => List Attachment
  | .extend _ => Unit
  | .retain _ => Unit

/-- What the environment decides at a step: whether a path exists, what a freshly loaded object
reports, and the text of the error with which a call of each kind fails, if it does. -/
structure LinkChoice where
  missing : Bool := false
  maxima : MapMaxima := MapMaxima.default
  load : Option String := none
  attach : Option String := none
  detach : Option String := none
  write : Option String := none

/-- Load an object unless it is the one already loaded; one with links is not replaced. -/
def LinuxBpfBackend.loadElf (c : LinkChoice) (elf : String) (s : LinuxBpfBackend) :
    Except BackendError Unit × LinuxBpfBackend :=
  let fresh : Except BackendError Unit × LinuxBpfBackend :=
    match c.load with
    | some message => (.error (.operation "load" message), s)
    | none => (.ok (), { s with loaded := some { elf := elf, maxima := c.maxima }, links := [] })
  match s.loaded with
  | none => fresh
  | some current =>
    if current.elf = elf then (.ok (), s)
    else if s.links ≠ [] then
      (.error (.operation "load" "cannot replace an ELF while owned TC links are attached"), s)
    else fresh

/-- Attach one classifier; a link that is there already is no error. -/
def LinuxBpfBackend.attachLink (c : LinkChoice) (attachment : Attachment) (s : LinuxBpfBackend) :
    Except BackendError Unit × LinuxBpfBackend :=
  if s.loaded.isNone then (.error .notAttached, s)
  else if attachment ∈ s.links then (.ok (), s)
  else
    match c.attach with
    | some message => (.error (.operation attachment.location message), s)
    | none => (.ok (), { s with links := s.links ++ [attachment] })

/-- Detach one classifier; a link that is not there is an error. -/
def LinuxBpfBackend.detachLink (c : LinkChoice) (attachment : Attachment) (s : LinuxBpfBackend) :
    Except BackendError Unit × LinuxBpfBackend :=
  if s.loaded.isNone then (.error .notAttached, s)
  else if attachment ∉ s.links then
    (.error (.operation attachment.location "owned link is missing"), s)
  else
    match c.detach with
    | some message => (.error (.operation attachment.location message), s)
    | none => (.ok (), { s with links := s.links.erase attachment })

/-- Write the runtime map of the loaded object. -/
def LinuxBpfBackend.writeConfig (c : LinkChoice) (config : RuntimeConfig) (s : LinuxBpfBackend) :
    Except BackendError Unit × LinuxBpfBackend :=
  match bpfDurationNanos config.idleTtl, bpfDurationNanos config.tcpTerminalGrace with
  | .error error, _ => (.error (.operation "runtime-config:idle-ttl" error.message), s)
  | _, .error error => (.error (.operation "runtime-config:terminal-grace" error.message), s)
  | .ok _, .ok _ =>
    match s.loaded with
    | none => (.error .notAttached, s)
    | some loaded =>
      match c.write with
      | some message => (.error (.operation "map" message), s)
      | none => (.ok (), { s with loaded := some { loaded with config := some config } })

/-- Execute one step. -/
def LinkOp.exec (c : LinkChoice) :
    (op : LinkOp) → LinuxBpfBackend → Option (op.Resp × LinuxBpfBackend)
  | .elfExists _, s => some (!c.missing, s)
  | .loadElf elf, s => some (s.loadElf c elf)
  | .attach attachment, s => some (s.attachLink c attachment)
  | .detach attachment, s => some (s.detachLink c attachment)
  | .setRuntimeConfig config, s => some (s.writeConfig c config)
  | .mapMaxima, s => some ((s.loaded.map (·.maxima)).getD MapMaxima.default, s)
  | .attachments, s => some (s.attachments, s)
  | .extend created, s => some ((), { s with attachments := s.attachments ++ created })
  | .retain detached, s =>
    some ((), { s with attachments := s.attachments.filter (· ∉ detached) })

/-- The machine of the backend. -/
def linkMachine : Machine LinkOp LinkOp.Resp LinuxBpfBackend LinkChoice := ⟨LinkOp.exec⟩

/-- Programs of the backend. -/
abbrev Link : Type → Type := Program LinkOp LinkOp.Resp

/-- Take one step. -/
abbrev LinkOp.take (op : LinkOp) : Link op.Resp := Program.perform op

/-! ## Attach, detach, roll back -/

/-- Detach the listed links one by one: which went, and the texts of the failures. -/
def detachEach : List Attachment → Link (List Attachment × List String)
  | [] => pure ([], [])
  | attachment :: rest => do
    let result ← LinkOp.take (.detach attachment)
    let others ← detachEach rest
    pure (match result with
      | .ok () => (attachment :: others.1, others.2)
      | .error error => (others.1, (attachment.location ++ ": " ++ error.message) :: others.2))

/-- How the rollback inside a failed attach went. -/
def rollbackText (failures : List String) : String :=
  if failures = [] then "transaction rolled back"
  else "transaction rollback incomplete: " ++ "; ".intercalate failures

/-- Attach what is not on record yet; the first failure takes back what was created so far. -/
def attachEach : List Attachment → List Attachment → Link (Except BackendError (List Attachment))
  | [], created => pure (.ok created)
  | attachment :: rest, created => do
    let owned ← LinkOp.take .attachments
    if attachment ∈ owned then attachEach rest created
    else do
      let result ← LinkOp.take (.attach attachment)
      match result with
      | .ok () => attachEach rest (created ++ [attachment])
      | .error error => do
        let rollback ← detachEach created
        pure (.error (.operation attachment.location
          (error.message ++ " (" ++ rollbackText rollback.2 ++ ")")))

/-- Both classifiers on each of the interfaces. -/
def requested (interfaces : List String) : List Attachment :=
  interfaces.flatMap fun interface => [⟨interface, .ingress⟩, ⟨interface, .egress⟩]

/-- An interface name the kernel does not take. -/
def badInterface (interface : String) : Bool :=
  interface.isEmpty || decide (interface.utf8ByteSize > 15)

/-- Load the object and attach both classifiers to every interface. -/
def attach (elf : String) (interfaces : List String) : Link (Except BackendError AttachReport) := do
  let found ← LinkOp.take (.elfExists elf)
  if !found then pure (.error (.missingElf elf))
  else if interfaces = [] then pure (.error (.invalidInterface "no interfaces supplied"))
  else
    match interfaces.find? badInterface with
    | some interface => pure (.error (.invalidInterface interface))
    | none => do
      let loaded ← LinkOp.take (.loadElf elf)
      match loaded with
      | .error error => pure (.error error)
      | .ok () => do
        let result ← attachEach (requested interfaces) []
        match result with
        | .error error => pure (.error error)
        | .ok created => do
          LinkOp.take (.extend created)
          let attachments ← LinkOp.take .attachments
          let maxima ← LinkOp.take .mapMaxima
          pure (.ok ⟨attachments, created, maxima⟩)

/-- Which of the links on record a detach concerns. -/
def selected (interfaces : Option (List String)) (owned : List Attachment) : List Attachment :=
  owned.filter fun attachment =>
    match interfaces with
    | none => true
    | some interfaces => attachment.interface ∈ interfaces

/-- Detach links, strike those that went from the record, and report the failures. -/
def detachAndRetain (location : String) (attachments : List Attachment) :
    Link (Except BackendError Unit) := do
  let result ← detachEach attachments
  LinkOp.take (.retain result.1)
  pure (if result.2 = [] then .ok () else .error (.operation location ("; ".intercalate result.2)))

/-- Detach all links on record, or those on the given interfaces. -/
def detach (interfaces : Option (List String)) : Link (Except BackendError Unit) := do
  let owned ← LinkOp.take .attachments
  detachAndRetain "detach" (selected interfaces owned)

/-- Take back the links an attach has created. -/
def rollbackAttach (attachments : List Attachment) : Link (Except BackendError Unit) :=
  detachAndRetain "attach-rollback" attachments

/-! ## Calls of the backend -/

/-- A call of the backend. -/
inductive BackendCall where
  | attach (elf : String) (interfaces : List String)
  | detach (interfaces : Option (List String))
  | rollbackAttach (attachments : List Attachment)
  | setRuntimeConfig (config : RuntimeConfig)

/-- What a successful call returns. -/
@[reducible] def BackendCall.Reply : BackendCall → Type
  | .attach _ _ => AttachReport
  | .detach _ => Unit
  | .rollbackAttach _ => Unit
  | .setRuntimeConfig _ => Unit

/-- The program of a call. -/
def BackendCall.code : (call : BackendCall) → Link (Except BackendError call.Reply)
  | .attach elf interfaces => ControlService.attach elf interfaces
  | .detach interfaces => ControlService.detach interfaces
  | .rollbackAttach attachments => ControlService.rollbackAttach attachments
  | .setRuntimeConfig config => LinkOp.take (.setRuntimeConfig config)

end ShadowSocketProxy.ControlService
