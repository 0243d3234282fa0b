import ShadowSocketProxy.Bpf.Datagrams
import ShadowSocketProxy.ControlService.Published
import ShadowSocketProxy.Flows.Symmetry

/-! # Targets that fall into the control bypass

Control traffic passes the classifiers as it came. Validation checks the listener and the targets each
on its own, so a target may be an endpoint of the listener. The replies of its flows are then taken for
control traffic and keep the target as their source. -/

namespace ShadowSocketProxy.Flows

open Interleaving Bpf Alone ControlService

variable {s s' : Maps} {allowed : Choice → Prop} {outcome : Outcome}

/-! ## Covered targets -/

/-- A target is an endpoint of the listener: family and port are the same, and so is the address unless
that of the listener is unspecified. -/
def Covers (listener : ListenerDescriptor) (target : SocketAddr) : Prop :=
  listener.address.isIpv4 = target.ip.isIpv4 ∧ listener.port = target.port ∧
    (listener.address.isUnspecified = true ∨ listener.address = target.ip)

/-- Addresses of one family are their `addressBytes`. -/
theorem addressBytes_inj {a b : IpAddr} (h : a.isIpv4 = b.isIpv4) :
    addressBytes a = addressBytes b ↔ a = b := by
  refine ⟨fun hbytes => ?_, fun heq => by rw [heq]⟩
  cases a with
  | v4 octets =>
    cases b with
    | v4 octets' =>
      have haddress := congrArg (addressOf 4) hbytes
      rwa [addressBytes, addressBytes, addressOf_ipv4ToMapped, addressOf_ipv4ToMapped] at haddress
    | v6 octets' => cases h
  | v6 octets =>
    cases b with
    | v4 octets' => cases h
    | v6 octets' => exact congrArg IpAddr.v6 hbytes

section Configured

variable {config : RuntimeConfig} {maxima : MapMaxima} {packet : PacketInfo} {target : SocketAddr}

theorem target_mem (htarget : config.target packet = some target) :
    config.ipv4Target = some target ∨ config.ipv6Target = some target := by
  rw [RuntimeConfig.target] at htarget
  split at htarget
  · exact .inl htarget
  · exact .inr htarget

/-- A target of a `Validated` configuration has the family of the packets it is for. -/
theorem isIpv4_of_target (hvalid : Validated config maxima) (htarget : config.target packet = some target) :
    target.ip.isIpv4 = decide (packet.family = 4) := by
  rw [RuntimeConfig.target] at htarget
  by_cases hfamily : packet.family = 4
  · rw [if_pos hfamily] at htarget
    have hchecked := hvalid.ipv4Target
    rw [htarget] at hchecked
    rw [(validateTarget_eq_ok hchecked).2.1, decide_eq_true hfamily]
  · rw [if_neg hfamily] at htarget
    have hchecked := hvalid.ipv6Target
    rw [htarget] at hchecked
    rw [(validateTarget_eq_ok hchecked).2.1, decide_eq_false hfamily]

/-- A `Published` configuration `listens` at a target exactly when the listener `Covers` it. -/
theorem listens_target_iff {value : RuntimeConfigValue} (hvalid : Validated config maxima)
    (hpublished : Published config value) (hpacket : Parsed packet)
    (htarget : config.target packet = some target) :
    value.listens packet.family ipprotoTcp (addressBytes target.ip) target.port = true ↔
      Covers config.listener target := by
  have hfamily := isIpv4_of_target hvalid htarget
  have hmapped : packet.family = 4 → ∃ a, addressBytes target.ip = ipv4ToMapped a := by
    intro h4
    rw [decide_eq_true h4] at hfamily
    cases hip : target.ip with
    | v4 octets => exact ⟨octets, rfl⟩
    | v6 octets =>
      rw [hip] at hfamily
      cases hfamily
  rw [hpublished.listens_iff hvalid hpacket.family hmapped, Covers, and_iff_right rfl]
  have hsame : packet.family = (if config.listener.address.isIpv4 then 4 else 6) ↔
      config.listener.address.isIpv4 = target.ip.isIpv4 := by
    rw [hfamily]
    rcases hpacket.family with h | h <;> rw [h] <;> cases config.listener.address.isIpv4 <;> decide
  rw [hsame, eq_comm (a := target.port)]
  refine and_congr_right fun h4 => and_congr_right fun _ => or_congr_right ?_
  rw [addressBytes_inj h4.symm, eq_comm]

end Configured

/-! ## Replies -/

/-- Control traffic passes as it came. -/
theorem outcome_of_controls {frame : List UInt8} {packet : PacketInfo}
    (hparse : parsePacket frame = some packet) (hcontrol : s.runtimeConfig.controls packet false = true)
    (hret : machine.Returns allowed ((Job.packet frame false).code Slots.split) s outcome s') :
    outcome = .verdict .ok frame := by
  obtain ⟨result, rfl, hprocessed⟩ := processed_of_returns hret
  cases hprocessed with
  | passed => rfl
  | dropped hingress => cases hingress
  | resolved hparse' hfree =>
    obtain rfl := Option.some.inj (hparse.symm.trans hparse')
    rw [hcontrol] at hfree
    cases hfree
  | created hingress => cases hingress

/-- **A reply is taken for control traffic exactly when the listener covers the target of its flow.**
Under a validated configuration that was written, a packet creates a TCP flow; later, with the
configuration still in force, a frame carries the reverse tuple of the flow. If the listener covers the
target, the frame passes as it came. If not, it leaves from the original destination, unless a deletion
of the flow is on the way. -/
theorem reply_bypassed_iff {config : RuntimeConfig} {maxima : MapMaxima}
    (hvalid : config.validateWithMaxima maxima = .ok ()) {before written : Maps}
    (hwritten : machine.Returns allowed (setRuntimeConfig config).run before (.ok ()) written)
    {start : RuntimeConfigValue} (hrun : ListenerRun config.listener (Maps.initial start) s)
    (hforce : s.runtimeConfig = written.runtimeConfig) {frame : List UInt8} {s₁ : Maps}
    (hcreate : machine.Returns (fun _ => True) ((Job.packet frame true).code Slots.split) s outcome s₁)
    {key : FlowStateKey} {record : FlowStateValue} (hnew : s.find .flowState key = none)
    (hrecord : s₁.find .flowState key = some record) (htcp : record.original.protocol = ipprotoTcp)
    {s₂ : Maps} (hlater : ListenerRun config.listener s₁ s₂)
    (hforce₂ : s₂.runtimeConfig = written.runtimeConfig) {record₂ : FlowStateValue}
    (hrecord₂ : s₂.find .flowState key = some record₂) (halike : Alike record record₂)
    {replyFrame : List UInt8} {reply : PacketInfo} (hparse : parsePacket replyFrame = some reply)
    (htuple : packetKey reply = record.reverse) :
    ∃ target, (config.ipv4Target = some target ∨ config.ipv6Target = some target) ∧
      record.target.destination = addressBytes target.ip ∧
      record.target.destinationPort = target.port ∧
      (s₂.runtimeConfig.controls reply false = true ↔ Covers config.listener target) ∧
      ∀ allowed outcome s₃,
        machine.Returns allowed ((Job.packet replyFrame false).code Slots.split) s₂ outcome s₃ →
        (Covers config.listener target → outcome = .verdict .ok replyFrame) ∧
        (¬ Covers config.listener target →
          (outcome = .verdict .shot replyFrame ∧
            ((s₂.find .deleteGuard key).isSome ∨ (s₂.find .deleteOutcome key).isSome)) ∨
          ∃ out, outcome = .verdict .ok out ∧ parsePacket out = some { reply with
            source := record.original.destination
            sourcePort := record.original.destinationPort }) := by
  have hvalidated := validated_of_validateWithMaxima hvalid
  have hpublished := published_of_returns hvalidated hwritten
  -- the flow has the target that the configuration gives for its first packet
  obtain ⟨T₀, hT₀⟩ := represents_of_run hrun
  obtain ⟨_, packet, candidate, -, hparse₀, hcandidate, halike₀⟩ := hT₀.born_of_new hcreate hnew hrecord
  obtain ⟨address, port, now, htargetFor, rfl⟩ := hcandidate.made
  rw [hforce, hpublished.targetFor hvalidated, Option.map_eq_some_iff] at htargetFor
  obtain ⟨target, htarget, hends⟩ := htargetFor
  obtain ⟨rfl, rfl⟩ := Prod.mk.inj hends
  obtain ⟨horiginal, hrecordTarget, -⟩ := halike₀.fields
  obtain ⟨horiginal₂, htarget₂, hreverse₂, -⟩ := halike.fields
  -- the later state represents a table of flows, this one among them
  have hrun₂ : ListenerRun config.listener (Maps.initial start) s₂ :=
    (hrun.step (fun _ h => by cases h) hcreate).trans hlater
  obtain ⟨T, hT⟩ := represents_of_run hrun₂
  have hf : T.flows key = some record₂ := (hT.state key).symm.trans hrecord₂
  have htuple₂ : packetKey reply = record₂.reverse := htuple.trans hreverse₂.symm
  have hfamily : record₂.original.family = packet.family := by
    rw [horiginal₂, horiginal]
    rfl
  have haddress : record.target.destination = addressBytes target.ip := by
    rw [hrecordTarget]
    rfl
  have hport : record.target.destinationPort = target.port := by
    rw [hrecordTarget]
    rfl
  have hlistens : s₂.runtimeConfig.listens record₂.original.family record₂.original.protocol
      record₂.target.destination record₂.target.destinationPort = true ↔
        Covers config.listener target := by
    rw [hforce₂, hfamily, htarget₂, horiginal₂, htcp, haddress, hport]
    exact listens_target_iff hvalidated hpublished (parsed_of_parsePacket hparse₀) htarget
  have hcontrols : s₂.runtimeConfig.controls reply false = true ↔ Covers config.listener target := by
    rw [controls_reply (T.wellFormed hf) htuple₂, hlistens]
  refine ⟨target, target_mem htarget, haddress, hport, hcontrols, fun allowed outcome s₃ hret =>
    ⟨fun hcovers => ?_, fun hfree => ?_⟩⟩
  · exact outcome_of_controls hparse (hcontrols.mpr hcovers) hret
  · refine (hT.outcome_of_packet hf hparse (by simp [htuple₂, tuplesOf])
      (Bool.eq_false_iff.mpr fun h => hfree (hcontrols.mp h)) hret).imp
      (And.imp_right deleting_of_not_unfrozen) fun ⟨hok, _⟩ => ?_
    rw [← horiginal₂]
    exact ⟨_, hok, (T.wellFormed hf).parsePacket_reply hparse htuple₂⟩

/-! ## Samples -/

/-- The default configuration with a target at 10.0.0.3. -/
def targetSettings (port : UInt16) : RuntimeConfig :=
  { RuntimeConfig.default with ipv4Target := some ⟨.v4 (ipv4 10 0 0 3), port⟩ }

/-- The maps after the configuration was written. -/
def configured (port : UInt16) : Maps :=
  Maps.initial (RuntimeConfigValue.unpack (runtimeConfigBytes (targetSettings port)
    (UInt64.ofNat (targetSettings port).idleTtl) (UInt64.ofNat (targetSettings port).tcpTerminalGrace)))

/-- The answer of the target to the sample SYN. -/
def sampleReply (port : UInt16) : List UInt8 :=
  List.replicate 12 0 ++ [0x08, 0x00] ++
    [0x45, 0, 0, 40, 0, 0, 0, 0, 64, 6, 0, 0, 10, 0, 0, 3, 10, 0, 0, 1] ++ Bytes.be16Bytes port ++
    [0x03, 0xe8, 0, 0, 0, 0, 0, 0, 0, 0, 0x50, 0x12, 0, 0, 0, 0, 0, 0]

/-- What is parsed of it. -/
def sampleReplyPacket (port : UInt16) : PacketInfo where
  l3Offset := 14
  l4Offset := 34
  l4ChecksumOffset := 50
  family := 4
  protocol := ipprotoTcp
  tcpFlags := 0x12
  source := ipv4ToMapped (ipv4 10 0 0 3)
  destination := ipv4ToMapped (ipv4 10 0 0 1)
  sourcePort := port
  destinationPort := 1000

/-- The key of the flow of the sample SYN. -/
def sampleSynKey : FlowStateKey := stateKeyOf (tupleHash (packetKey sampleSynPacket)) 1

/-- Whether the flow of the sample SYN is there with the target at a port. -/
def redirected (port : UInt16) (s : Maps) : Bool :=
  (s.find .flowState sampleSynKey).any fun record =>
    record.original = packetKey sampleSynPacket &&
      record.reverse = packetKey (sampleReplyPacket port)

/-- Whether the reply then passes as it came. -/
def bypassed (port : UInt16) (s : Maps) : Bool :=
  (machine.run ((Job.packet (sampleReply port) false).code Slots.split) (List.replicate 20 {}) s).any
    fun r => r.1 = .verdict .ok (sampleReply port)

theorem written_targetSettings {port : UInt16} {maxima : MapMaxima}
    (h : (targetSettings port).validateWithMaxima maxima = .ok ()) :
    machine.Returns (fun _ => True) (setRuntimeConfig (targetSettings port)).run (Maps.initial {})
      (.ok ()) (configured port) := by
  have hvalidated := validated_of_validateWithMaxima h
  rw [setRuntimeConfig_eq hvalidated.idleTtl hvalidated.grace]
  exact ⟨{}, .ok (), configured port, trivial, rfl, rfl, rfl⟩

/-- The replies of a target beside the listener leave from the original destination. -/
theorem reply_bypassed_iff_restored : ∃ outcome s,
    machine.Returns (fun _ => True) ((Job.packet sampleSyn true).code Slots.split) (configured 3000)
      outcome s ∧ redirected 3000 s = true ∧
    ∀ outcome' s', machine.Returns (fun _ => True)
        ((Job.packet (sampleReply 3000) false).code Slots.split) s outcome' s' →
      (outcome' = .verdict .shot (sampleReply 3000) ∧
        ((s.find .deleteGuard sampleSynKey).isSome ∨ (s.find .deleteOutcome sampleSynKey).isSome)) ∨
      ∃ out, outcome' = .verdict .ok out ∧ parsePacket out = some { sampleReplyPacket 3000 with
        source := ipv4ToMapped (ipv4 10 0 0 2)
        sourcePort := 2000 } := by
  have hrun : (machine.run ((Job.packet sampleSyn true).code Slots.split) (List.replicate 40 {})
      (configured 3000)).any (fun r => redirected 3000 r.2.1) = true := by
    decide +kernel
  obtain ⟨outcome, s, hret, hredirected⟩ := Machine.exists_returns_of_run (M := machine)
    (fun _ => True) (fun _ s => redirected 3000 s) hrun fun _ _ => trivial
  have hrecord := hredirected
  rw [redirected, Option.any_eq_true] at hrecord
  obtain ⟨record, hrecord, hends⟩ := hrecord
  simp only [Bool.and_eq_true, decide_eq_true_eq] at hends
  have hvalid : (targetSettings 3000).validateWithMaxima MapMaxima.default = .ok () := by decide
  have hforce : s.runtimeConfig = (configured 3000).runtimeConfig :=
    config_of_returns (P := fun value => value = (configured 3000).runtimeConfig) rfl
      (fun _ _ _ h => by cases h) hret
  have htcp : record.original.protocol = ipprotoTcp := by
    rw [hends.1]
    rfl
  have hparse : parsePacket (sampleReply 3000) = some (sampleReplyPacket 3000) := by decide
  obtain ⟨target, htarget, -, -, -, hreply⟩ := reply_bypassed_iff hvalid
    (written_targetSettings hvalid) .start rfl hret rfl hrecord htcp .start hforce hrecord rfl
    hparse hends.2.symm
  refine ⟨outcome, s, hret, hredirected, fun outcome' s' hret' => ?_⟩
  have hfree : ¬ Covers (targetSettings 3000).listener target := by
    rintro ⟨-, hport, -⟩
    rcases htarget with htarget | htarget
    · obtain rfl := Option.some.inj htarget
      exact absurd hport (by decide)
    · cases htarget
  have hrestored := (hreply _ outcome' s' hret').2 hfree
  rw [hends.1] at hrestored
  exact hrestored

/-- **A target that the listener covers is accepted, and its replies keep their source.** The listener
is the default one, at port 50051 of every address. -/
theorem reply_bypassed : (targetSettings 50051).validateWithMaxima MapMaxima.default = .ok () ∧
    machine.Returns (fun _ => True) (setRuntimeConfig (targetSettings 50051)).run (Maps.initial {})
      (.ok ()) (configured 50051) ∧
    ∃ outcome s, machine.Returns (fun _ => True) ((Job.packet sampleSyn true).code Slots.split)
        (configured 50051) outcome s ∧
      redirected 50051 s = true ∧ bypassed 50051 s = true := by
  have hvalid : (targetSettings 50051).validateWithMaxima MapMaxima.default = .ok () := by decide
  have hrun : (machine.run ((Job.packet sampleSyn true).code Slots.split) (List.replicate 40 {})
      (configured 50051)).any (fun r => redirected 50051 r.2.1 && bypassed 50051 r.2.1) = true := by
    decide +kernel
  obtain ⟨outcome, s, hret, hcheck⟩ := Machine.exists_returns_of_run (M := machine) (fun _ => True)
    (fun _ s => redirected 50051 s && bypassed 50051 s) hrun fun _ _ => trivial
  rw [Bool.and_eq_true] at hcheck
  exact ⟨hvalid, written_targetSettings hvalid, outcome, s, hret, hcheck⟩

end ShadowSocketProxy.Flows
