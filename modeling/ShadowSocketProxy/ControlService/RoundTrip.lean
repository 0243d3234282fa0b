import ShadowSocketProxy.ControlService.Lookup
import ShadowSocketProxy.ControlService.Published
import ShadowSocketProxy.ControlService.Requests

/-! # Configurations through messages and back

`GetConfig` answers with a message and `SetConfig` takes one. The fields are narrowed on the way out and
checked on the way in. Every configuration that the service publishes comes back as it went. -/

namespace ShadowSocketProxy.ControlService

open Interleaving
open Interleaving.Machine (wp_mono)

variable {ipv4 : Bool} {next config before : RuntimeConfig} {target : Option SocketAddr}
  {op : ServiceOp}

/-! ## Configurations that survive -/

/-- A target fits a field of its family. -/
def FitsTarget (ipv4 : Bool) (target : Option SocketAddr) : Prop :=
  ∀ t, target = some t → t.port ≠ 0 ∧ t.ip.isIpv4 = ipv4

/-- No field of the configuration loses anything in a message. -/
structure Encodable (config : RuntimeConfig) : Prop where
  schema : config.schemaVersion = Bpf.runtimeConfigAbiVersion
  idleTtl : ∃ ms : UInt64, config.idleTtl = ms.toNat * 1000000
  grace : ∃ ms : UInt64, config.tcpTerminalGrace = ms.toNat * 1000000
  logCapacity : config.logCapacity < 2 ^ 32
  capacity : config.activeFlowCapacity < 2 ^ 32
  ipv4Target : FitsTarget true config.ipv4Target
  ipv6Target : FitsTarget false config.ipv6Target

theorem Encodable.withRevision (h : Encodable config) (revision : UInt64) :
    Encodable { config with revision := revision } :=
  ⟨h.schema, h.idleTtl, h.grace, h.logCapacity, h.capacity, h.ipv4Target, h.ipv6Target⟩

/-- The baseline, whatever the service listens on. -/
theorem encodable_default (listener : ListenerDescriptor) :
    Encodable { RuntimeConfig.default with listener := listener } where
  schema := rfl
  idleTtl := ⟨60000, rfl⟩
  grace := ⟨30000, rfl⟩
  logCapacity := by simp [RuntimeConfig.default]
  capacity := by simp [RuntimeConfig.default]
  ipv4Target := by rintro t ⟨⟩
  ipv6Target := by rintro t ⟨⟩

/-- The field of the family. -/
def familyField (ipv4 : Bool) : UInt32 := if ipv4 then 4 else 6

theorem familyNumber_eq_familyField (ip : IpAddr) : ip.familyNumber = familyField ip.isIpv4 := by
  cases ip <;> rfl

theorem isIpv4_of_addressOfBytes {bytes : List UInt8} {ip : IpAddr}
    (h : addressOfBytes (familyField ipv4) bytes = some ip) : ip.isIpv4 = ipv4 := by
  cases ipv4 with
  | false =>
    simp [addressOfBytes, familyField] at h
    rw [← h.2]
    rfl
  | true =>
    simp [addressOfBytes, familyField] at h
    rw [← h.2]
    rfl

/-- What a target field is decoded to fits it. -/
theorem fitsTarget_of_parseTarget {address : List UInt8} {port : UInt32} {label : String}
    (h : parseTarget (familyField ipv4) address port label = .ok target) :
    FitsTarget ipv4 target := by
  rintro t rfl
  rw [parseTarget] at h
  split at h
  · cases h
  · simp only [ite_error_eq_ok, bind_eq_ok, not_or] at h
    obtain ⟨⟨-, hport, hrange⟩, ip, haddress, heq⟩ := h
    cases heq
    constructor
    · -- The port is below the bound, so that narrowing it keeps it apart from zero.
      intro hzero
      apply hport
      have hnat : port.toNat % 2 ^ 16 = 0 := by simpa using congrArg UInt16.toNat hzero
      exact UInt32.toNat_inj.mp (by simpa using (by omega : port.toNat = 0))
    · rw [parseLabelledAddress] at haddress
      split at haddress
      · rename_i hip
        cases haddress
        exact isIpv4_of_addressOfBytes hip
      · cases haddress

/-- **What `SetConfig` decodes can be encoded.** -/
theorem encodable_of_runtimeConfigFromProto {config : Option Proto.Config}
    (h : runtimeConfigFromProto config = .ok next) : Encodable next := by
  cases config with
  | none => cases h
  | some config =>
    simp only [runtimeConfigFromProto, ite_error_eq_ok, bind_eq_ok, not_not] at h
    obtain ⟨hschema, address, -, h⟩ := h
    split at h
    · cases h
    · simp only [bind_eq_ok] at h
      obtain ⟨port, -, ipv4Target, hipv4, ipv6Target, hipv6, heq⟩ := h
      cases heq
      exact
        { schema := by
            show config.schemaVersion.toUInt16 = _
            rw [hschema, UInt16.toUInt16_toUInt32]
          idleTtl := ⟨config.idleTtlMs, rfl⟩
          grace := ⟨config.tcpTerminalGraceMs, rfl⟩
          logCapacity := config.logCapacity.toNat_lt
          capacity := config.activeFlowCapacity.toNat_lt
          ipv4Target := fitsTarget_of_parseTarget hipv4
          ipv6Target := fitsTarget_of_parseTarget hipv6 }

/-! ## There and back -/

theorem parseTarget_of_fits (h : FitsTarget ipv4 target) (label : String) :
    parseTarget (familyField ipv4) ((target.map fun t => ipBytes t.ip).getD [])
      ((target.map fun t => t.port.toUInt32).getD 0) label = .ok target := by
  cases target with
  | none => rfl
  | some target =>
    obtain ⟨hport, hfamily⟩ := h target rfl
    have hport' : target.port.toUInt32 ≠ 0 := by
      intro hzero
      apply hport
      rw [← UInt16.toUInt16_toUInt32 target.port, hzero]
      rfl
    have hrange : ¬ target.port.toUInt32.toNat > 65535 := by
      have := target.port.toNat_lt
      simp only [UInt16.toNat_toUInt32]
      omega
    simp only [Option.map_some, Option.getD_some, parseTarget, ipBytes_ne_nil, Bool.false_eq_true,
      false_and, if_false, false_or, hport', hrange, parseLabelledAddress, ← hfamily,
      ← familyNumber_eq_familyField, addressOfBytes_ipBytes, UInt16.toUInt16_toUInt32]
    rfl

/-- A duration in whole milliseconds comes back. -/
theorem millis_round_trip {duration : Nat} (h : ∃ ms : UInt64, duration = ms.toNat * 1000000) :
    (UInt64.ofNat (duration / 1000000)).toNat * 1000000 = duration := by
  obtain ⟨ms, rfl⟩ := h
  rw [Nat.mul_div_cancel _ (by decide), UInt64.ofNat_toNat]

/-- **An encodable configuration comes back**, all but its revision. -/
theorem runtimeConfigFromProto_configToProto (h : Encodable config) :
    runtimeConfigFromProto (configToProto config).config = .ok { config with revision := 0 } := by
  have hlistener : parseLabelledAddress (if config.listener.address.isIpv4 then 4 else 6)
      (ipBytes config.listener.address) "listener" = .ok config.listener.address := by
    show parseLabelledAddress (familyField config.listener.address.isIpv4) _ _ = _
    rw [← familyNumber_eq_familyField, parseLabelledAddress, addressOfBytes_ipBytes]
  have hport : ¬ config.listener.port.toUInt32.toNat > 65535 := by
    have := config.listener.port.toNat_lt
    simp only [UInt16.toNat_toUInt32]
    omega
  have hipv4 := parseTarget_of_fits h.ipv4Target "IPv4 target"
  have hipv6 := parseTarget_of_fits h.ipv6Target "IPv6 target"
  simp only [familyField, if_true, Bool.false_eq_true, if_false] at hipv4 hipv6
  simp only [configToProto, runtimeConfigFromProto, h.schema, ne_eq, not_true_eq_false, if_false,
    hlistener, hport, hipv4, hipv6]
  show Except.ok _ = Except.ok _
  congr 1
  rw [millis_round_trip h.idleTtl, millis_round_trip h.grace]
  simp only [UInt16.toUInt16_toUInt32, UInt32.toNat_ofNat_of_lt' h.logCapacity,
    UInt32.toNat_ofNat_of_lt' h.capacity, ← h.schema]

/-! ## What the service publishes -/

/-- Only encodable configurations are published. -/
def PublishesEncodable (op : ServiceOp) : Prop := ∀ next, op = .update next → Encodable next

theorem publishesEncodable_of_silent (h : Silent op) : PublishesEncodable op :=
  fun next hop => absurd hop (h next)

theorem all_publish (h : Encodable next) : (publish next).All PublishesEncodable := by
  refine all_take ?_ fun updated => ?_
  · rintro _ ⟨⟩
    exact h
  · split
    · trivial
    · exact all_take (publishesEncodable_of_silent (by simp [Silent])) fun _ => trivial

theorem all_changeConfig (h : Encodable next) : (changeConfig next).All PublishesEncodable := by
  have hsilent : ∀ {op : ServiceOp}, Silent op → PublishesEncodable op := publishesEncodable_of_silent
  refine all_take (hsilent (by simp [Silent])) fun snapshot => ?_
  split
  · trivial
  · refine all_take (hsilent (by simp [Silent])) fun maxima => ?_
    split
    · trivial
    · refine all_take (hsilent (by simp [Silent])) fun written => ?_
      split
      · exact all_publish h
      · exact all_publish h
      · exact all_publish h
      · trivial

theorem all_setConfig (config : Option Proto.Config) :
    (Service.setConfig config).All PublishesEncodable := by
  refine all_locked (publishesEncodable_of_silent (by simp [Silent]))
    (publishesEncodable_of_silent (by simp [Silent])) ?_
  cases hnext : runtimeConfigFromProto config with
  | error status => trivial
  | ok next => exact all_changeConfig (encodable_of_runtimeConfigFromProto hnext)

theorem all_code (request : Request) : request.code.All PublishesEncodable := by
  have hsilent : ∀ op, Silent op → PublishesEncodable op := fun _ => publishesEncodable_of_silent
  cases request with
  | attach message => exact ((all_attach message).mono hsilent).bind fun _ => trivial
  | detach message => exact ((all_detach message).mono hsilent).bind fun _ => trivial
  | getConfig => exact all_take (hsilent _ (by simp [Silent])) fun _ => trivial
  | setConfig config => exact (all_setConfig config).bind fun _ => trivial

/-- A step that publishes at most an encodable configuration. -/
theorem encodable_step {c : List LinkChoice} {s s' : Service} {resp : op.Resp}
    (hop : PublishesEncodable op) (hs : Encodable s.snapshot)
    (hexec : op.exec c s = some (resp, s')) : Encodable s'.snapshot := by
  by_cases hupdate : ∃ next, op = .update next
  · obtain ⟨next, rfl⟩ := hupdate
    have hexec : s.update next = (resp, s') := Option.some.inj hexec
    rw [Service.update] at hexec
    split at hexec
    · cases hexec
      exact hs
    · cases hexec
      exact (hop next rfl).withRevision s.nextRevision
  · rw [snapshot_of_silent (fun next heq => hupdate ⟨next, heq⟩) hexec]
    exact hs

/-- **Every published configuration is encodable**, however requests interleave. -/
theorem encodable_of_reachable {address : SocketAddr} {maxima : MapMaxima} {logCapacity : Nat}
    {w : ServiceWorld}
    (hreach : service.Reachable (World.start (Service.new
      { RuntimeConfig.default with listener := ListenerDescriptor.fromSocketAddr address }
      maxima logCapacity)) w) : Encodable w.shared.snapshot :=
  hreach.keeps (I := fun s => Encodable s.snapshot) all_code (encodable_default _)
    fun _ _ _ _ _ hop hs hexec => encodable_step hop hs hexec

/-! ## Sending a reply back -/

/-- The status of a request for another listener. -/
def immutableListener : Status := .failedPrecondition "listener descriptor is immutable"

theorem mapBackendError_ne_immutableListener (error : BackendError) :
    mapBackendError error ≠ immutableListener := by
  intro h
  have hcode := congrArg Status.code h
  -- The texts that share the code of the refusal start with other letters.
  have hhead := congrArg (fun status : Status => status.message.toList.head?) h
  cases error with
  | abiMismatch version =>
    have htext : ∀ digits : String,
        ("ABI version " ++ digits ++ " is not supported").toList.head? = some 'A' := by
      intro digits
      rw [String.append_assoc, String.toList_append, List.head?_append]
      rfl
    exact absurd ((htext (toString version.toNat)).symm.trans hhead) (by decide)
  | unsupported => exact absurd hhead (by decide)
  | notAttached => exact absurd hhead (by decide)
  | _ => cases hcode

/-- The configuration of a service is unchanged, or published again under a new revision; the answer
is not about the listener, and a refusal is one of validation or of the backend. -/
structure Resent (before : RuntimeConfig) (r : Except Status Proto.ConfigReply) (s : Service) : Prop where
  settings : { s.snapshot with revision := 0 } = { before with revision := 0 }
  listener : r ≠ .error immutableListener
  refused : ∀ status, r = .error status →
    (∃ error : ConfigError, status = .invalidArgument error.message) ∨
      ∃ error : BackendError, status = mapBackendError error

theorem resent_of_invalid {s : Service} (error : ConfigError)
    (hs : { s.snapshot with revision := 0 } = { before with revision := 0 }) :
    Resent before (.error (.invalidArgument error.message)) s where
  settings := hs
  listener := by
    intro h
    have hcode := congrArg Status.code (Except.error.inj h)
    cases hcode
  refused := by
    rintro status ⟨⟩
    exact .inl ⟨error, rfl⟩

variable {s : Service}

theorem answers_publish_resent
    (hs : { s.snapshot with revision := 0 } = { before with revision := 0 }) :
    Answers (publish { before with revision := 0 }) (Resent before) s := by
  refine answers_take fun c updated s₁ hexec => ?_
  have hexec : s.update { before with revision := 0 } = (updated, s₁) := Option.some.inj hexec
  rw [Service.update] at hexec
  split at hexec
  · cases hexec
    exact resent_of_invalid _ hs
  · cases hexec
    refine answers_take fun c _ s₂ hexec => ?_
    cases hexec
    exact ⟨rfl, by rintro ⟨⟩, by rintro status ⟨⟩⟩

/-- Changing to what is published already. -/
theorem answers_changeConfig_resent :
    Answers (changeConfig { s.snapshot with revision := 0 }) (Resent s.snapshot) s := by
  refine answers_take fun c snapshot s₁ hexec => ?_
  obtain ⟨rfl, rfl⟩ := Prod.mk.inj (Option.some.inj hexec)
  rw [if_neg (fun h => h rfl)]
  refine answers_take fun c maxima s₁ hexec => ?_
  obtain ⟨rfl, rfl⟩ := Prod.mk.inj (Option.some.inj hexec)
  split
  · exact resent_of_invalid _ rfl
  · refine answers_take fun c written s₁ hexec => ?_
    have hsnapshot : s₁.snapshot = s.snapshot := snapshot_of_silent (by simp [Silent]) hexec
    have hpublish : Answers (publish { s.snapshot with revision := 0 }) (Resent s.snapshot) s₁ :=
      answers_publish_resent (by rw [hsnapshot])
    split
    · exact hpublish
    · exact hpublish
    · exact hpublish
    · rename_i error _ _
      exact ⟨by rw [hsnapshot], fun h => mapBackendError_ne_immutableListener error (Except.error.inj h),
        by rintro status ⟨⟩; exact .inr ⟨error, rfl⟩⟩

/-- **A published configuration survives the round trip.** However requests have interleaved, what the
service has published is what its own message is decoded to, up to the revision; and sending the answer
of `GetConfig` back with `SetConfig` is never refused for its form or its listener and changes no
setting. -/
theorem config_round_trip {address : SocketAddr} {maxima : MapMaxima} {logCapacity : Nat}
    {w : ServiceWorld}
    (hreach : service.Reachable (World.start (Service.new
      { RuntimeConfig.default with listener := ListenerDescriptor.fromSocketAddr address }
      maxima logCapacity)) w) :
    runtimeConfigFromProto (configToProto w.shared.snapshot).config =
        .ok { w.shared.snapshot with revision := 0 } ∧
      Answers Service.getConfig (fun r s => ∃ reply, r = .ok reply ∧
        Answers (Service.setConfig reply.config) (Resent w.shared.snapshot) s) w.shared := by
  have hdecode := runtimeConfigFromProto_configToProto (encodable_of_reachable hreach)
  refine ⟨hdecode, wp_mono answers_getConfig ?_⟩
  rintro r s ⟨rfl, rfl⟩
  refine ⟨_, rfl, answers_locked ?_⟩
  rw [hdecode]
  refine wp_mono answers_changeConfig_resent fun r s' hresent => ?_
  exact ⟨hresent.settings, hresent.listener, hresent.refused⟩

/-- A configuration with both targets set. -/
def sampleTargets : RuntimeConfig :=
  { RuntimeConfig.default with
    ipv4Target := some ⟨.v4 (Bpf.ipv4 192 0 2 10), 443⟩
    ipv6Target := some ⟨.v6 (Vector.replicate 16 1), 8443⟩
    activeFlowCapacity := 17 }

/-- A service that has been given targets. -/
theorem config_round_trip_targets : ∃ w : ServiceWorld,
    service.Reachable (World.start sampleService) w ∧ w.shared.snapshot.revision = 2 ∧
      w.shared.snapshot.ipv4Target = sampleTargets.ipv4Target ∧
      runtimeConfigFromProto (configToProto w.shared.snapshot).config =
        .ok { w.shared.snapshot with revision := 0 } := by
  have hrun : (service.run (World.start sampleService)
      ([.spawn (.setConfig (configToProto sampleTargets).config)] ++
        List.replicate 7 (.step 0 [{}]))).any (fun w =>
      decide (w.shared.snapshot.revision = 2) &&
        decide (w.shared.snapshot.ipv4Target = sampleTargets.ipv4Target)) = true := by
    decide +kernel
  obtain ⟨w, hreach, hcheck⟩ := Pool.exists_reachable_of_run hrun
  simp only [Bool.and_eq_true, decide_eq_true_eq] at hcheck
  exact ⟨w, hreach, hcheck.1, hcheck.2, (@config_round_trip ⟨.v4 #v[0, 0, 0, 0], 50051⟩ _ _ w hreach).1⟩

end ShadowSocketProxy.ControlService
