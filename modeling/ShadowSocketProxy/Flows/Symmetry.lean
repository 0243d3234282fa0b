import ShadowSocketProxy.Flows.Runs
import ShadowSocketProxy.Bpf.Rewriting

/-! # Both directions of a flow

A flow keeps the target that was configured when it was created. Its forward packets leave toward that
target, its replies leave from the destination the client had asked for, and no other flow could have
claimed the same reply. -/

namespace ShadowSocketProxy.Flows

open Interleaving Bpf Alone ControlService
open Interleaving.Machine (wp_mono wp_seq wp_of_all)

variable {s s' : Maps} {T : FlowTable} {allowed : Choice → Prop} {outcome : Outcome}

/-! ## The listener stays -/

/-- The control service lets no configuration change the listener. -/
def KeepsListener (listener : ListenerDescriptor) (job : Job) (_ : Maps) : Prop :=
  ∀ settings, job = .setConfig settings → settings.listener = listener

instance (listener : ListenerDescriptor) (job : Job) (s : Maps) :
    Decidable (KeepsListener listener job s) := by
  cases job with
  | setConfig settings =>
    refine decidable_of_iff (settings.listener = listener) ⟨?_, fun h => h settings rfl⟩
    rintro h _ ⟨⟩
    exact h
  | _ => exact .isTrue (by rintro _ ⟨⟩)

/-- A configuration in use has the listener. -/
def Uses (listener : ListenerDescriptor) (config : RuntimeConfigValue) : Prop :=
  config.schemaVersion = runtimeConfigAbiVersion → Serves listener config

/-- Configurations that `Uses` one listener agree on what `listens`. -/
theorem listens_eq_false {listener : ListenerDescriptor} {config config' : RuntimeConfigValue}
    {family protocol : UInt8} {endpoint : Address} {port : UInt16}
    (hversion : config.schemaVersion = runtimeConfigAbiVersion) (h : Uses listener config)
    (h' : Uses listener config') (hfree : config.listens family protocol endpoint port = false) :
    config'.listens family protocol endpoint port = false := by
  by_cases hversion' : config'.schemaVersion = runtimeConfigAbiVersion
  · obtain ⟨hfamily, hwildcard, haddress, hport⟩ := h hversion
    obtain ⟨hfamily', hwildcard', haddress', hport'⟩ := h' hversion'
    rw [← hfree, RuntimeConfigValue.listens, RuntimeConfigValue.listens, hversion, hversion', hfamily,
      hwildcard, haddress, hport, hfamily', hwildcard', haddress', hport']
  · rw [RuntimeConfigValue.listens, if_pos (.inl hversion')]

/-- Configurations are written by `setConfig` jobs only. -/
theorem all_code_config (job : Job) :
    (job.code Slots.split).All fun op => ∀ value, op = .hostSetConfig value →
      ∃ settings idleTtlNs terminalGraceNs, job = .setConfig settings ∧
        value = runtimeConfigBytes settings idleTtlNs terminalGraceNs := by
  cases job with
  | packet frame ingress =>
    exact ((allPacket_processPacket Slots.proper_split frame ingress).mono fun op hop value h =>
      absurd h (hop.ne_hostSetConfig value)).bind fun _ => trivial
  | delete flowId generation observed deadline =>
    refine ((all_deleteFlow flowId generation observed deadline).mono fun op hop value h => ?_).bind
      fun _ => trivial
    subst h
    cases hop with
    | index h => cases h
  | listFlows =>
    refine (all_listFlowStates.mono fun op hop value h => ?_).bind fun _ => trivial
    rw [hop] at h
    cases h
  | setConfig settings =>
    refine Program.All.bind ?_ fun _ => trivial
    unfold setRuntimeConfig
    cases bpfDurationNanos settings.idleTtl with
    | error error => trivial
    | ok idleTtlNs =>
      cases bpfDurationNanos settings.tcpTerminalGrace with
      | error error => trivial
      | ok terminalGraceNs =>
        refine ⟨fun value h => ⟨settings, idleTtlNs, terminalGraceNs, rfl, ?_⟩, fun _ => trivial⟩
        cases h
        rfl

/-- What holds of the configuration and of all that may be written holds after a job. -/
theorem config_of_returns {P : RuntimeConfigValue → Prop} {job : Job} (hs : P s.runtimeConfig)
    (hset : ∀ settings idleTtlNs terminalGraceNs, job = .setConfig settings →
      P (RuntimeConfigValue.unpack (runtimeConfigBytes settings idleTtlNs terminalGraceNs)))
    (hret : machine.Returns allowed (job.code Slots.split) s outcome s') : P s'.runtimeConfig := by
  refine hret.of_wp (Q := fun _ (s' : Maps) => P s'.runtimeConfig)
    (wp_of_all (I := fun s' : Maps => P s'.runtimeConfig) (fun op hop c resp s₁ s₂ _ hs₁ hexec => ?_)
      (all_code_config job) hs)
  have hexec : exec c op s₁ = some (resp, s₂) := hexec
  by_cases hwrite : ∃ value, op = .hostSetConfig value
  · obtain ⟨value, rfl⟩ := hwrite
    obtain ⟨settings, idleTtlNs, terminalGraceNs, hjob, rfl⟩ := hop value rfl
    simp only [exec, hostCall] at hexec
    split at hexec
    · cases hexec
      exact hs₁
    · cases hexec
      exact hset settings idleTtlNs terminalGraceNs hjob
  · rw [exec_runtimeConfig hexec fun value h => hwrite ⟨value, h⟩]
    exact hs₁

/-- A `Serial` run of jobs under one listener. -/
abbrev ListenerRun (listener : ListenerDescriptor) (s s' : Maps) : Prop :=
  machine.Serial (Job.code Slots.split) (fun _ _ => True) (KeepsListener listener) s s'

/-- A `ListenerRun` in which no map call of a deletion fails. -/
abbrev FaultFreeRun (listener : ListenerDescriptor) (s s' : Maps) : Prop :=
  machine.Serial (Job.code Slots.split) faultFree (KeepsListener listener) s s'

theorem uses_of_run {listener : ListenerDescriptor} (hs : Uses listener s.runtimeConfig)
    (hrun : FaultFreeRun listener s s') : Uses listener s'.runtimeConfig := by
  refine hrun.invariant (I := fun s => Uses listener s.runtimeConfig) hs ?_
  intro job value s₁ s₂ huses hfits hret
  refine config_of_returns huses (fun settings _ _ hjob _ => ?_) hret
  rw [← hfits settings hjob]
  exact serves_unpack settings _ _

/-! ## Snapped targets -/

/-- `Since listener start key s₀ packet s`: in a run from `start` to `s` the flow under `key` was not
there in the state `s₀`, was there after `packet` had run in `s₀`, and has been there ever since. -/
inductive Since (listener : ListenerDescriptor) (start : Maps) (key : FlowStateKey) (s₀ : Maps)
    (packet : PacketInfo) : Maps → Prop
  | created {frame : List UInt8} {ingress : Bool} {outcome : Outcome} {s : Maps}
      (hrun : FaultFreeRun listener start s₀) (habsent : s₀.find .flowState key = none)
      (hparse : parsePacket frame = some packet)
      (hret : machine.Returns (faultFree (.packet frame ingress))
        ((Job.packet frame ingress).code Slots.split) s₀ outcome s)
      (hpresent : (s.find .flowState key).isSome) : Since listener start key s₀ packet s
  | kept {job : Job} {outcome : Outcome} {s s' : Maps} (h : Since listener start key s₀ packet s)
      (hfits : KeepsListener listener job s)
      (hret : machine.Returns (faultFree job) (job.code Slots.split) s outcome s')
      (hpresent : (s'.find .flowState key).isSome) : Since listener start key s₀ packet s'

/-- A record of a flow that a packet created in a state: its target is the one configured there, and
the destination the packet asked for is not the listener's. -/
structure SnappedIn (s : Maps) (packet : PacketInfo) (record : FlowStateValue) : Prop where
  version : s.runtimeConfig.schemaVersion = runtimeConfigAbiVersion
  original : packetKey packet = record.original
  target : s.runtimeConfig.targetFor packet =
    some (record.target.destination, record.target.destinationPort)
  apart : s.runtimeConfig.listens record.original.family record.original.protocol
    record.original.destination record.original.destinationPort = false

theorem snappedIn_of_candidate {packet : PacketInfo} {candidate record : FlowStateValue}
    (h : Candidate s packet candidate) (halike : Alike (activated candidate) record) :
    SnappedIn s packet record := by
  obtain ⟨target, port, now, htarget, rfl⟩ := h.made
  obtain ⟨horiginal, hrecordTarget, -⟩ := halike.fields
  refine ⟨?_, horiginal.symm, ?_, ?_⟩
  · rw [RuntimeConfigValue.targetFor, Option.ite_none_left_eq_some] at htarget
    exact not_not.mp htarget.1
  · rw [htarget, hrecordTarget]
    rfl
  · rw [horiginal]
    exact h.control

theorem SnappedIn.alike {packet : PacketInfo} {record record' : FlowStateValue}
    (h : SnappedIn s packet record) (halike : Alike record record') : SnappedIn s packet record' := by
  obtain ⟨horiginal, htarget, -⟩ := halike.fields
  obtain ⟨hversion, hkey, hsnapped, hapart⟩ := h
  rw [← horiginal] at hkey hapart
  rw [← htarget] at hsnapped
  exact ⟨hversion, hkey, hsnapped, hapart⟩

section Life

variable {listener : ListenerDescriptor} {config : RuntimeConfigValue} {key : FlowStateKey}
  {s₀ : Maps} {packet : PacketInfo}

theorem Since.run {start : Maps} (h : Since listener start key s₀ packet s) :
    FaultFreeRun listener start s₀ ∧ FaultFreeRun listener start s := by
  induction h with
  | created hrun habsent hparse hret hpresent => exact ⟨hrun, hrun.step (fun _ h => by cases h) hret⟩
  | kept h hfits hret hpresent ih => exact ⟨ih.1, ih.2.step hfits hret⟩

theorem Since.present {start : Maps} (h : Since listener start key s₀ packet s) :
    (s.find .flowState key).isSome := by
  cases h with
  | created _ _ _ _ hpresent | kept _ _ _ hpresent => exact hpresent

/-- A flow that is there was created by a packet and has been there `Since`. -/
theorem since_of_run (hrun : FaultFreeRun listener (Maps.initial config) s)
    (hpresent : (s.find .flowState key).isSome) :
    ∃ s₀ packet, Since listener (Maps.initial config) key s₀ packet s := by
  induction hrun with
  | start => cases hpresent
  | @step job value s₁ s₂ hrun hfits hret ih =>
    cases hbefore : s₁.find .flowState key with
    | some record =>
      obtain ⟨s₀, packet, h⟩ := ih (by rw [hbefore]; rfl)
      exact ⟨s₀, packet, h.kept hfits hret hpresent⟩
    | none =>
      obtain ⟨record, hrecord⟩ := Option.isSome_iff_exists.mp hpresent
      obtain ⟨T, hT⟩ := represents_of_run hrun
      obtain ⟨frame, packet, candidate, rfl, hparse, -⟩ := hT.born_of_new hret hbefore hrecord
      exact ⟨s₁, packet, .created hrun hbefore hparse hret hpresent⟩

/-- **The target stays `SnappedIn` the state of the creation**, whatever has been configured since. -/
theorem Since.snapped (h : Since listener (Maps.initial config) key s₀ packet s)
    {record : FlowStateValue} (hrecord : s.find .flowState key = some record) :
    SnappedIn s₀ packet record := by
  induction h generalizing record with
  | created hrun habsent hparse hret hpresent =>
    obtain ⟨T, hT⟩ := represents_of_run hrun
    obtain ⟨_, packet', candidate, hjob, hparse', hcandidate, halike⟩ :=
      hT.born_of_new hret habsent hrecord
    cases hjob
    obtain rfl : packet = packet' := Option.some.inj (hparse.symm.trans hparse')
    exact snappedIn_of_candidate hcandidate halike
  | @kept job outcome s s' h hfits hret hpresent ih =>
    obtain ⟨T, hT⟩ := represents_of_run h.run.2
    cases hbefore : s.find .flowState key with
    | none =>
      have hthere := h.present
      rw [hbefore] at hthere
      cases hthere
    | some record₀ => exact (ih hbefore).alike (hT.alike_of_kept hret hbefore hrecord)

end Life

/-! ## A packet of a flow -/

/-- A flow that is not `Unfrozen` has a deletion on the way. -/
theorem deleting_of_not_unfrozen {key : FlowStateKey} (h : ¬ Unfrozen allowed s key) :
    (s.find .deleteGuard key).isSome ∨ (s.find .deleteOutcome key).isSome := by
  by_contra hnone
  simp only [not_or, Option.not_isSome_iff_eq_none] at hnone
  refine h fun c _ => ?_
  rw [hnone.1, hnone.2]
  rfl

/-- A packet whose tuple belongs to a flow and that is not control traffic leaves by `rewriteFrame`,
unless the flow is frozen. -/
theorem Represents.outcome_of_packet {key : FlowStateKey} {record : FlowStateValue}
    {frame : List UInt8} {packet : PacketInfo} {ingress : Bool} (h : Represents s T)
    (hf : T.flows key = some record) (hparse : parsePacket frame = some packet)
    (hmember : packetKey packet ∈ tuplesOf record)
    (hcontrol : s.runtimeConfig.controls packet ingress = false)
    (hret : machine.Returns allowed ((Job.packet frame ingress).code Slots.split) s outcome s') :
    (outcome = .verdict .shot frame ∧ ¬ Unfrozen allowed s key) ∨
      outcome = .verdict .ok (rewriteFrame frame packet ingress record) ∧ ∃ c, allowed c ∧
        frozen (s.find .deleteGuard key) (s.find .deleteOutcome key) c.now = false := by
  have hindex : s.find .flowIndex (packetKey packet) = some (ownerOf record) :=
    h.owned hf _ hmember
  have hkey : stateKeyOf (ownerOf record).flowId (ownerOf record).generation = key :=
    (key_ownerOf record).trans (T.identity hf).symm
  have hstate : s.find .flowState key = some record := (h.state key).trans hf
  obtain ⟨result, rfl, hprocessed⟩ := processed_of_returns hret
  have hfrozen : ¬ (Unfrozen allowed s key ∧ (s.find .packetInflight key).isSome) →
      ¬ Unfrozen allowed s key := by
    intro hwhy hunfrozen
    refine hwhy ⟨hunfrozen, ?_⟩
    rw [h.counted hf]
    rfl
  cases hprocessed with
  | passed hwhy hbeside =>
    have hinactive := hwhy packet hparse hcontrol
    rw [hindex] at hinactive
    dsimp only at hinactive
    rw [hkey] at hinactive
    exact absurd (T.wellFormed hf).active (hinactive record hstate)
  | dropped hingress hparse' hcandidate hfailed =>
    obtain rfl : packet = _ := Option.some.inj (hparse.symm.trans hparse')
    rw [hcandidate.free] at hindex
    cases hindex
  | resolved hparse' hcontrol' hindex' hrecord hactive hadmission =>
    obtain rfl : packet = _ := Option.some.inj (hparse.symm.trans hparse')
    obtain rfl : ownerOf record = _ := Option.some.inj (hindex.symm.trans hindex')
    rw [hkey] at hrecord hadmission
    obtain rfl : record = _ := Option.some.inj (hstate.symm.trans hrecord)
    cases hadmission with
    | refused hwhy hchecked hinflight => exact .inl ⟨rfl, hfrozen hwhy⟩
    | admitted write hthawed hchecked hinflight hothers hnext => exact .inr ⟨rfl, hthawed⟩
  | created hingress hparse' hcandidate hcreated hadmission =>
    obtain rfl : packet = _ := Option.some.inj (hparse.symm.trans hparse')
    rw [hcandidate.free] at hindex
    cases hindex

/-! ## Symmetry -/

/-- The tuple of a packet that goes the other way. -/
def reversal (t : TupleKey) : TupleKey :=
  { t with
    source := t.destination
    sourcePort := t.destinationPort
    destination := t.source
    destinationPort := t.sourcePort }

section Rewriting

variable {record : FlowStateValue} {frame : List UInt8} {packet : PacketInfo}

/-- A forward frame of a flow leaves toward its target and keeps its source. -/
theorem WellFormed.parsePacket_forward (h : WellFormed record)
    (hparse : parsePacket frame = some packet) (htuple : packetKey packet = record.original) :
    parsePacket (rewriteFrame frame packet true record) = some { packet with
      destination := record.target.destination
      destinationPort := record.target.destinationPort } := by
  have hfamily : record.target.family = packet.family := by
    rw [h.target, ← htuple]
    rfl
  refine parsePacket_rewriteDestination hparse fun h4 => ?_
  exact (h.canonical record.target (by simp [tuplesOf])).destination (hfamily.trans h4)

/-- A reply of a flow leaves from the original destination and keeps its own destination. -/
theorem WellFormed.parsePacket_reply (h : WellFormed record)
    (hparse : parsePacket frame = some packet) (htuple : packetKey packet = record.reverse) :
    parsePacket (rewriteFrame frame packet false record) = some { packet with
      source := record.original.destination
      sourcePort := record.original.destinationPort } := by
  have hfamily : packet.family = record.original.family := by
    rw [show packet.family = (packetKey packet).family from rfl, htuple, h.reverse]
  refine parsePacket_rewriteSource hparse fun h4 => ?_
  exact (h.canonical record.original (by simp [tuplesOf])).destination (hfamily.symm.trans h4)

/-- The tuple of a rewritten reply is the `reversal` of the original tuple. -/
theorem WellFormed.packetKey_reply (h : WellFormed record)
    (htuple : packetKey packet = record.reverse) :
    packetKey { packet with
      source := record.original.destination
      sourcePort := record.original.destinationPort } = reversal record.original := by
  have hreply : packetKey { packet with
      source := record.original.destination
      sourcePort := record.original.destinationPort } = { packetKey packet with
        source := record.original.destination
        sourcePort := record.original.destinationPort } := rfl
  rw [hreply, htuple, h.reverse]
  rfl

end Rewriting

/-- The ends of a reply are the target and the client. -/
theorem controls_reply {record : FlowStateValue} (h : WellFormed record) {reply : PacketInfo}
    (htuple : packetKey reply = record.reverse) (value : RuntimeConfigValue) :
    value.controls reply false = value.listens record.original.family record.original.protocol
      record.target.destination record.target.destinationPort := by
  have hends := htuple.trans h.reverse
  have hfamily : reply.family = record.original.family := congrArg TupleKey.family hends
  have hprotocol : reply.protocol = record.original.protocol := congrArg TupleKey.protocol hends
  have hsource : reply.source = record.target.destination := congrArg TupleKey.source hends
  have hport : reply.sourcePort = record.target.destinationPort := congrArg TupleKey.sourcePort hends
  rw [RuntimeConfigValue.controls, if_neg (by decide), hfamily, hprotocol, hsource, hport]

/-- **Both directions of every flow fit together.** Whatever ran before, one job after the other and
no map call of a deletion failing, a flow that is there was created by a packet and has been there
since, and it has the tuple of that packet and the target configured when the packet ran. When that
target is not the listener, a forward packet of the flow leaves toward it, a reply leaves from the
original destination, so that its tuple is the original one turned around, and no other flow has the
same target or reverse tuple. -/
theorem serial_symmetric {listener : ListenerDescriptor} {config : RuntimeConfigValue}
    (hconfig : Uses listener config) (hrun : FaultFreeRun listener (Maps.initial config) s)
    {key : FlowStateKey} {record : FlowStateValue} (hrecord : s.find .flowState key = some record)
    (htarget : s.runtimeConfig.listens record.original.family record.original.protocol
      record.target.destination record.target.destinationPort = false) :
    (∃ s₀ packet, Since listener (Maps.initial config) key s₀ packet s) ∧
    (∀ s₀ packet, Since listener (Maps.initial config) key s₀ packet s →
      packetKey packet = record.original ∧ s₀.runtimeConfig.targetFor packet =
        some (record.target.destination, record.target.destinationPort)) ∧
    (∀ allowed frame packet outcome s', parsePacket frame = some packet →
      packetKey packet = record.original →
      machine.Returns allowed ((Job.packet frame true).code Slots.split) s outcome s' →
      ∃ out, outcome = .verdict .ok out ∧ parsePacket out = some { packet with
        destination := record.target.destination
        destinationPort := record.target.destinationPort }) ∧
    (∀ allowed frame packet outcome s', parsePacket frame = some packet →
      packetKey packet = record.reverse →
      machine.Returns allowed ((Job.packet frame false).code Slots.split) s outcome s' →
      ∃ out packet', outcome = .verdict .ok out ∧ parsePacket out = some packet' ∧
        packet' = { packet with
          source := record.original.destination
          sourcePort := record.original.destinationPort } ∧
        packetKey packet' = reversal record.original) ∧
    ∀ key' record', s.find .flowState key' = some record' →
      record'.target = record.target ∨ record'.reverse = record.reverse → key' = key := by
  obtain ⟨T, hT⟩ := tidy_of_serial hrun
  have hf : T.flows key = some record := (hT.state key).symm.trans hrecord
  have hwell := T.wellFormed hf
  have hpresent : (s.find .flowState key).isSome := by rw [hrecord]; rfl
  obtain ⟨s₀, packet₀, hsince⟩ := since_of_run hrun hpresent
  -- No flow is frozen, so a packet of the flow that is not control traffic leaves rewritten.
  have hleaves : ∀ {allowed frame packet outcome s' ingress}, parsePacket frame = some packet →
      packetKey packet ∈ tuplesOf record → s.runtimeConfig.controls packet ingress = false →
      machine.Returns allowed ((Job.packet frame ingress).code Slots.split) s outcome s' →
      outcome = .verdict .ok (rewriteFrame frame packet ingress record) := by
    intro allowed frame packet outcome s' ingress hparse hmember hcontrol hret
    rcases hT.toRepresents.outcome_of_packet hf hparse hmember hcontrol hret with ⟨-, hfrozen⟩ | ⟨h, -⟩
    · rcases deleting_of_not_unfrozen hfrozen with hguard | houtcome
      · rw [hT.unguarded] at hguard
        cases hguard
      · rw [hT.undecided] at houtcome
        cases houtcome
    · exact h
  refine ⟨⟨s₀, packet₀, hsince⟩, fun s₁ packet₁ h => ⟨(h.snapped hrecord).original,
    (h.snapped hrecord).target⟩, ?_, ?_, ?_⟩
  · intro allowed frame packet outcome s' hparse htuple hret
    have hcontrol : s.runtimeConfig.controls packet true = false := by
      have hlistens := listens_eq_false (hsince.snapped hrecord).version
        (uses_of_run hconfig hsince.run.1) (uses_of_run hconfig hrun) (hsince.snapped hrecord).apart
      rw [← htuple] at hlistens
      exact hlistens
    exact ⟨_, hleaves hparse (htuple ▸ .head _) hcontrol hret, hwell.parsePacket_forward hparse htuple⟩
  · intro allowed frame packet outcome s' hparse htuple hret
    have hcontrol : s.runtimeConfig.controls packet false = false :=
      (controls_reply hwell htuple _).trans htarget
    exact ⟨_, _, hleaves hparse (by simp [htuple, tuplesOf]) hcontrol hret,
      hwell.parsePacket_reply hparse htuple, rfl, hwell.packetKey_reply htuple⟩
  · intro key' record' hrecord' hshared
    have hf' : T.flows key' = some record' := (hT.state key').symm.trans hrecord'
    rcases hshared with hshared | hshared
    · refine T.disjoint hf' hf record.target ?_ ?_
      · simp [tuplesOf, hshared]
      · simp [tuplesOf]
    · refine T.disjoint hf' hf record.reverse ?_ ?_
      · simp [tuplesOf, hshared]
      · simp [tuplesOf]

/-- Whether the sample flow is there with the target of `sampleConfig`, while another one is configured,
and its target is not control traffic. -/
def sampleServed (s : Maps) : Bool :=
  (s.find .flowState sampleKey).any fun record =>
    record.original = packetKey samplePacket && record.target.destinationPort = 3000 &&
      s.runtimeConfig.v4TargetPort = 9000 &&
      !s.runtimeConfig.listens record.original.family record.original.protocol
        record.target.destination record.target.destinationPort

/-- The sample datagram creates a flow and another target is configured; the next datagram of the client
leaves toward the first target. -/
theorem serial_symmetric_sample : ∃ s record,
    FaultFreeRun RuntimeConfig.default.listener (Maps.initial sampleConfig) s ∧
    s.find .flowState sampleKey = some record ∧ record.target.destinationPort = 3000 ∧
    s.runtimeConfig.v4TargetPort = 9000 ∧
    ∀ allowed outcome s',
      machine.Returns allowed ((Job.packet sampleFrame true).code Slots.split) s outcome s' →
      ∃ out, outcome = .verdict .ok out ∧ parsePacket out = some { samplePacket with
        destination := record.target.destination
        destinationPort := record.target.destinationPort } := by
  have hrun : (machine.runAll (Job.code Slots.split)
      (fun job s => decide (KeepsListener RuntimeConfig.default.listener job s))
      [(.packet sampleFrame true, List.replicate 29 {}), (.setConfig sampleRetarget, [{}])]
      (Maps.initial sampleConfig)).any sampleServed = true := by
    decide +kernel
  have hexists : ∃ s, FaultFreeRun RuntimeConfig.default.listener (Maps.initial sampleConfig) s ∧
      sampleServed s = true := by
    refine Machine.exists_serial_of_runAll hrun ?_ fun _ _ h => of_decide_eq_true h
    simp [faultFree]
  obtain ⟨s, hserial, hserved⟩ := hexists
  rw [sampleServed, Option.any_eq_true] at hserved
  obtain ⟨record, hrecord, hserved⟩ := hserved
  simp only [Bool.and_eq_true, decide_eq_true_eq, Bool.not_eq_true'] at hserved
  obtain ⟨⟨⟨horiginal, hport⟩, hretarget⟩, htarget⟩ := hserved
  have huses : Uses RuntimeConfig.default.listener sampleConfig := fun _ =>
    ⟨by decide, by decide, by decide, by decide⟩
  exact ⟨s, record, hserial, hrecord, hport, hretarget, fun allowed outcome s' hret =>
    (serial_symmetric huses hserial hrecord htarget).2.2.1 allowed sampleFrame samplePacket
      outcome s' (by decide) horiginal.symm hret⟩

end ShadowSocketProxy.Flows
