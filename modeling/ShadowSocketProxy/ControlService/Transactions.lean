import ShadowSocketProxy.ControlService.Service
import ShadowSocketProxy.Interleaving.Automaton

/-! # Where a request stands

One automaton for the requests of the service: what a request has attached, read, written or detached so
far, and by which operation it goes on (`Transition`). `Readiness` and `Agreement` state their invariants
over the stages and prove them over the transitions, not over the programs. What both invariants rest on
is here too: who holds the transaction lock (`Transition.exclusive`), and that every link on record is in
the kernel (`linked_of_exec`). -/

namespace ShadowSocketProxy.ControlService

open Interleaving
open Interleaving.Program (Follows)

/-! ## Stages -/

/-- Where a request stands. -/
inductive Stage where
  /-- It holds nothing. -/
  | out
  /-- It holds the transaction lock. -/
  | holding
  /-- It has added links to those on record and has not configured the object yet. -/
  | created (new : List Attachment)
  /-- It has also read what is published. -/
  | read (new : List Attachment) (snapshot : RuntimeConfig)
  /-- It has configured the object and is not ready yet. -/
  | configured (new : List Attachment)
  /-- It has written a configuration and has not published it yet. -/
  | written (next : RuntimeConfig)
  /-- It has found nothing loaded. -/
  | unloaded
  /-- It has detached links and has not settled readiness yet. -/
  | detached

/-- The stages with the transaction lock. -/
def Stage.holds : Stage → Bool
  | .out | .detached => false
  | _ => true

namespace Request

/-- Whether the request attaches. -/
def attaches : Request → Bool
  | .attach _ => true
  | _ => false

/-- Whether the request detaches. -/
def detaches : Request → Bool
  | .detach _ => true
  | _ => false

end Request

/-- The transitions of a request: its stage, the next operation with its response, and the stage it leads
to. -/
inductive Transition (request : Request) : Stage → (op : ServiceOp) → op.Resp → Stage → Prop
  | lock : Transition request .out .lock () .holding
  | unlock : Transition request .holding .unlock () .out
  /-- Reading what is published, where the request does not go by it. -/
  | snapshot {φ : Stage} (resp : RuntimeConfig) :
      Transition request φ .snapshot resp φ
  | mapMaxima {φ : Stage} (resp : MapMaxima) :
      Transition request φ .mapMaxima resp φ
  | setCapacity {φ : Stage} (capacity : Nat) :
      Transition request φ (.setCapacity capacity) () φ
  | attached (hattaches : request.attaches = true) (elf : String) (interfaces : List String)
      (report : AttachReport) :
      Transition request .holding (.backend (.attach elf interfaces)) (.ok report)
        (.created report.created)
  | unattached (hattaches : request.attaches = true) (elf : String) (interfaces : List String)
      (error : BackendError) :
      Transition request .holding (.backend (.attach elf interfaces)) (.error error) .holding
  | rollback (new : List Attachment) (resp : Except BackendError Unit) :
      Transition request (.created new) (.backend (.rollbackAttach new)) resp .holding
  /-- Reading what is to be written to the new object. -/
  | read (new : List Attachment) (snapshot : RuntimeConfig) :
      Transition request (.created new) .snapshot snapshot (.read new snapshot)
  | configured (new : List Attachment) (snapshot : RuntimeConfig) :
      Transition request (.read new snapshot) (.backend (.setRuntimeConfig snapshot)) (.ok ())
        (.configured new)
  | unconfigured (new : List Attachment) (snapshot : RuntimeConfig)
      (error : BackendError) :
      Transition request (.read new snapshot) (.backend (.setRuntimeConfig snapshot)) (.error error)
        (.created new)
  | becomeReady (new : List Attachment) :
      Transition request (.configured new) (.setReady true) () .holding
  | written {config : Option Proto.Config} (hset : request = .setConfig config) (next : RuntimeConfig) :
      Transition request .holding (.backend (.setRuntimeConfig next)) (.ok ())
        (.written next)
  /-- Without a loaded object `SetConfig` goes on to publish. -/
  | unloaded {config : Option Proto.Config} (hset : request = .setConfig config)
      (next : RuntimeConfig) {error : BackendError}
      (herror : error = .notAttached ∨ error = .unsupported) :
      Transition request .holding (.backend (.setRuntimeConfig next)) (.error error) .unloaded
  | unwritten {config : Option Proto.Config} (hset : request = .setConfig config)
      (next : RuntimeConfig) (error : BackendError) :
      Transition request .holding (.backend (.setRuntimeConfig next)) (.error error) .holding
  | publish {φ : Stage} {next : RuntimeConfig}
      (hφ : φ = .written next ∨ φ = .unloaded) (resp : Except ConfigError RuntimeConfig) :
      Transition request φ (.update next) resp .holding
  | detached (hdetaches : request.detaches = true) (interfaces : Option (List String)) :
      Transition request .out (.backend (.detach interfaces)) (.ok ()) .detached
  | undetached (hdetaches : request.detaches = true) (interfaces : Option (List String))
      (error : BackendError) :
      Transition request .out (.backend (.detach interfaces)) (.error error) .out
  | noneLeft : Transition request .detached .attachments [] .detached
  | someLeft {attachments : List Attachment} (hne : attachments ≠ []) :
      Transition request .detached .attachments attachments .out
  | becomeUnready : Transition request .detached (.setReady false) () .out

/-! ## Requests -/

section Requests

variable {request : Request} {φ : Stage} {β : Type}

/-- `Moves request φ φ' p`: the program follows the transitions of a request from one stage to
another. -/
abbrev Moves (request : Request) (φ φ' : Stage) (p : Rpc β) : Prop :=
  p.Follows (Transition request) (fun ψ _ => ψ = φ') φ

/-- A program under `locked`. -/
theorem moves_locked {body : Rpc β} (hbody : Moves request .holding .holding body) :
    Moves request .out .out (locked body) :=
  Follows.perform fun _ => ⟨.holding, .lock, hbody.seq fun _ =>
    Follows.perform fun _ => ⟨.out, .unlock, rfl⟩⟩

theorem moves_rollBack (report : AttachReport) (message : String) :
    Moves request (.created report.created) .holding (rollBack report message) :=
  Follows.perform fun resp => ⟨.holding, .rollback _ resp, rfl⟩

theorem moves_configureAttached (report : AttachReport) :
    Moves request (.created report.created) .holding (configureAttached report) := by
  refine Follows.keep .snapshot fun snapshot => ?_
  cases snapshot.validateWithMaxima report.maxima with
  | error error => exact (moves_rollBack report _).seq fun _ => rfl
  | ok =>
    refine Follows.perform fun snapshot => ⟨_, .read _ snapshot, Follows.perform fun written => ?_⟩
    cases written with
    | error error => exact ⟨_, .unconfigured _ _ error, (moves_rollBack report _).seq fun _ => rfl⟩
    | ok => exact ⟨_, .configured _ _, Follows.perform fun _ => ⟨_, .becomeReady _, rfl⟩⟩

theorem moves_attach (message : Proto.InterfaceRequest) :
    Moves (.attach message) .out .out (Service.attach message) := by
  refine moves_locked ?_
  split
  · rfl
  · refine Follows.perform fun result => ?_
    cases result with
    | error error => exact ⟨_, .unattached rfl _ _ error, rfl⟩
    | ok report => exact ⟨_, .attached rfl _ _ report, moves_configureAttached report⟩

theorem moves_detachInterfaces (message : Proto.DetachRequest) (interfaces : Option (List String)) :
    Moves (.detach message) .out .out (detachInterfaces interfaces) := by
  refine Follows.perform fun result => ?_
  cases result with
  | error error => exact ⟨_, .undetached rfl _ error, rfl⟩
  | ok =>
    refine ⟨_, .detached rfl _, Follows.perform fun attachments => ?_⟩
    by_cases hnil : attachments = []
    · subst hnil
      exact ⟨_, .noneLeft, Follows.perform fun _ => ⟨_, .becomeUnready, rfl⟩⟩
    · refine ⟨_, .someLeft hnil, ?_⟩
      rw [if_neg hnil]
      rfl

theorem moves_detach (message : Proto.DetachRequest) :
    Moves (.detach message) .out .out (Service.detach message) := by
  unfold Service.detach
  split
  · exact moves_detachInterfaces message none
  · split
    · rfl
    · exact moves_detachInterfaces message _

/-- `publish` of what has been written, or what nothing needs to be written for. -/
theorem moves_publish {next : RuntimeConfig} (hφ : φ = .written next ∨ φ = .unloaded) :
    Moves request φ .holding (publish next) := by
  refine Follows.perform fun updated => ⟨_, .publish hφ updated, ?_⟩
  cases updated with
  | error error => rfl
  | ok updated => exact Follows.keep (fun _ => .setCapacity _) fun _ => rfl

theorem moves_setConfig (config : Option Proto.Config) :
    Moves (.setConfig config) .out .out (Service.setConfig config) := by
  refine moves_locked ?_
  cases runtimeConfigFromProto config with
  | error status => rfl
  | ok next =>
    refine Follows.keep .snapshot fun snapshot => ?_
    split
    · rfl
    · refine Follows.keep .mapMaxima fun maxima => ?_
      cases next.validateWithMaxima maxima with
      | error error => rfl
      | ok =>
        refine Follows.perform fun written => ?_
        split
        · exact ⟨_, .written rfl next, moves_publish (.inl rfl)⟩
        · exact ⟨_, .unloaded rfl next (.inl rfl), moves_publish (.inr rfl)⟩
        · exact ⟨_, .unloaded rfl next (.inr rfl), moves_publish (.inr rfl)⟩
        · exact ⟨_, .unwritten rfl next _, rfl⟩

/-- **Every request follows the automaton `Transition`.** -/
theorem moves_code (request : Request) : Moves request .out .out request.code := by
  cases request with
  | attach message => exact (moves_attach message).seq fun _ => rfl
  | detach message => exact (moves_detach message).seq fun _ => rfl
  | getConfig => exact Follows.keep .snapshot fun _ => rfl
  | setConfig config => exact (moves_setConfig config).seq fun _ => rfl

end Requests

/-! ## Lock and links -/

section Steps

variable {op : ServiceOp} {resp : op.Resp} {c : List LinkChoice} {s s' : Service}

/-- A free lock is taken. -/
theorem exec_lock {resp : Unit} (hexec : ServiceOp.exec c .lock s = some (resp, s')) :
    s.transaction = false ∧ s' = { s with transaction := true } := by
  rw [ServiceOp.exec, Option.ite_none_left_eq_some] at hexec
  obtain ⟨hfree, heq⟩ := hexec
  cases heq
  exact ⟨by simpa using hfree, rfl⟩

/-- `update` refuses a configuration and stays as it is, or publishes it under a new revision. -/
theorem exec_update {next : RuntimeConfig} {result : Except ConfigError RuntimeConfig}
    (hexec : ServiceOp.exec c (.update next) s = some (result, s')) :
    (∃ error, result = .error error ∧ s' = s ∧ next.validateWithMaxima s.maxima = .error error) ∨
      ∃ published, result = .ok published ∧ s' = { s with
        snapshot := { next with revision := s.nextRevision }
        nextRevision := s.nextRevision + 1 } := by
  have hexec := Option.some.inj hexec
  rw [Service.update] at hexec
  split at hexec
  · rename_i error herror
    cases hexec
    exact .inl ⟨error, rfl, rfl, herror⟩
  · cases hexec
    exact .inr ⟨_, rfl, rfl⟩

/-- The lock changes hands by its own operations only. -/
theorem exec_transaction (hexec : op.exec c s = some (resp, s')) (hlock : op ≠ .lock)
    (hunlock : op ≠ .unlock) : s'.transaction = s.transaction := by
  cases op with
  | lock => exact absurd rfl hlock
  | unlock => exact absurd rfl hunlock
  | backend call =>
    rw [ServiceOp.exec, Option.map_eq_some_iff] at hexec
    obtain ⟨_, -, heq⟩ := hexec
    cases heq
    rfl
  | update next => rcases exec_update hexec with ⟨_, -, rfl, -⟩ | ⟨_, -, rfl⟩ <;> rfl
  | _ =>
    cases hexec
    rfl

/-- Along every transition one request at most has the lock, and it has it while it is taken. -/
theorem Transition.exclusive {request : Request} {φ φ' : Stage} {rest : Multiset (Request × Stage)}
    (hstep : Transition request φ op resp φ')
    (h : Exclusive Stage.holds s.transaction ((request, φ) ::ₘ rest))
    (hexec : op.exec c s = some (resp, s')) :
    Exclusive Stage.holds s'.transaction ((request, φ') ::ₘ rest) := by
  have hmove : op ≠ .lock → op ≠ .unlock → φ'.holds = φ.holds →
      Exclusive Stage.holds s'.transaction ((request, φ') ::ₘ rest) := fun hlock hunlock hholds => by
    rw [exec_transaction hexec hlock hunlock]
    exact h.move hholds
  cases hstep with
  | lock =>
    obtain ⟨hfree, rfl⟩ := exec_lock hexec
    rw [hfree] at h
    exact h.acquire rfl
  | unlock =>
    cases hexec
    exact h.release rfl rfl
  | publish hφ => exact hmove (by simp) (by simp) (by rcases hφ with rfl | rfl <;> rfl)
  | _ => exact hmove (by simp) (by simp) rfl

/-- The links of the backend: what is on record is in the kernel. -/
structure Linked (s : LinuxBpfBackend) : Prop extends SoundLinks s where
  recorded : ∀ a ∈ s.attachments, a ∈ s.links

theorem Linked.retained {allowed : LinkChoice → Prop} {l detached : List Attachment}
    {result : Except BackendError Unit} {b b' : LinuxBpfBackend} (h : Linked b)
    (hretained : Retained allowed l b b' detached result) : Linked b' := by
  refine ⟨hretained.sound, fun a ha => ?_⟩
  rw [hretained.attachments, List.mem_filter, decide_eq_true_eq] at ha
  exact (hretained.links a).mpr ⟨h.recorded a ha.1, ha.2⟩

theorem Linked.attached {allowed : LinkChoice → Prop} {interfaces : List String}
    {result : Except BackendError AttachReport} {b b' : LinuxBpfBackend} (h : Linked b)
    (hresult : AttachResult allowed interfaces b b' result) : Linked b' := by
  cases hresult with
  | ok report hinterfaces hattachments hcreated hloaded hkept hsound hlinks =>
    refine ⟨hsound, fun a ha => ?_⟩
    rw [hattachments, List.mem_append] at ha
    exact (hlinks a).mpr (ha.imp_left (h.recorded a))
  | error e hattachments hkept hsound hlinks hgone =>
    refine ⟨hsound, fun a ha => ?_⟩
    rw [hattachments] at ha
    exact hlinks a (h.recorded a ha) fun hnew => (mem_unrecorded.mp hnew).2 ha

/-- Every operation keeps the backend `Linked`. -/
theorem linked_of_exec (h : Linked s.backend) (hexec : op.exec c s = some (resp, s')) :
    Linked s'.backend := by
  cases op with
  | backend call =>
    cases call with
    | attach elf interfaces =>
      exact h.attached (exec_backend hexec (guarantees_attach elf interfaces h.toSoundLinks)).1
    | rollbackAttach created =>
      obtain ⟨⟨_, hretained⟩, -⟩ :=
        exec_backend hexec (guarantees_detachAndRetain _ created h.toSoundLinks)
      exact h.retained hretained
    | detach interfaces =>
      obtain ⟨⟨_, hretained⟩, -⟩ := exec_backend hexec (guarantees_detach interfaces h.toSoundLinks)
      exact h.retained hretained
    | setRuntimeConfig config =>
      rcases exec_setRuntimeConfig hexec with ⟨-, loaded, -, rfl⟩ | ⟨-, -, rfl, -⟩
      · exact ⟨⟨h.nodup, fun _ => rfl⟩, h.recorded⟩
      · exact h
  | lock =>
    obtain ⟨-, rfl⟩ := exec_lock hexec
    exact h
  | update next => rcases exec_update hexec with ⟨_, -, rfl, -⟩ | ⟨_, -, rfl⟩ <;> exact h
  | _ =>
    cases hexec
    exact h

end Steps

end ShadowSocketProxy.ControlService
