import ShadowSocketProxy.Flows.Symmetry

/-! # Rewrites and directions

All three tuples of a flow stand in one index, which does not tell their roles apart. The forward hook
should rewrite only what carries the original or the target tuple, the reverse hook only what carries
the reverse tuple. -/

namespace ShadowSocketProxy.Flows

open Interleaving Bpf Alone ControlService

variable {s s' : Maps} {T : FlowTable} {allowed : Choice → Prop} {outcome : Outcome}
  {ingress : Bool} {record : FlowStateValue} {frame : List UInt8} {result : TcAction × List UInt8}

/-- Whether a tuple of a flow has a role in a direction. -/
def hasRole (ingress : Bool) (t : TupleKey) (record : FlowStateValue) : Prop :=
  if ingress then t = record.original ∨ t = record.target else t = record.reverse

theorem hasRole_of_alike {t : TupleKey} {record' : FlowStateValue} (halike : Alike record record')
    (h : hasRole ingress t record) : hasRole ingress t record' := by
  obtain ⟨horiginal, htarget, hreverse, -⟩ := halike.fields
  rw [hasRole, horiginal, htarget, hreverse]
  exact h

/-- The index of a packet leads to an active flow in which its tuple has no role (`hasRole`) in this
direction. -/
structure Opposes (s : Maps) (packet : PacketInfo) (ingress : Bool) (index : Bpf.FlowIndexValue)
    (record : FlowStateValue) : Prop where
  indexed : s.find .flowIndex (packetKey packet) = some index
  stored : s.find .flowState (stateKeyOf index.flowId index.generation) = some record
  active : record.lifecycle = flowActive
  role : ¬ hasRole ingress (packetKey packet) record

/-- A frame that is no control traffic and whose packet `Opposes` its flow. -/
def Crosses (s : Maps) (frame : List UInt8) (ingress : Bool) : Prop :=
  ∃ packet index record, parsePacket frame = some packet ∧
    s.runtimeConfig.controls packet ingress = false ∧ Opposes s packet ingress index record

/-- What a hook may do to a frame: rewrite it for a flow in which its tuple has a role, and leave a
frame of the other direction and the records of the flows alone. -/
structure Respects (s s' : Maps) (frame : List UInt8) (ingress : Bool) (out : List UInt8) : Prop where
  rewritten : out ≠ frame → ∃ packet key record, parsePacket frame = some packet ∧
    s'.find .flowState key = some record ∧ record.lifecycle = flowActive ∧
    hasRole ingress (packetKey packet) record
  opposite : ∀ packet index record, parsePacket frame = some packet →
    Opposes s packet ingress index record → out = frame ∧ Same s s' .flowState

/-- An `Admission` rewrites for its own record, if at all. -/
theorem hasRole_of_admission {packet : PacketInfo} {key : FlowStateKey}
    (hactive : record.lifecycle = flowActive) (hrole : hasRole ingress (packetKey packet) record)
    (h : Admission allowed frame packet ingress key record s s' result) (hout : result.2 ≠ frame) :
    ∃ record', s'.find .flowState key = some record' ∧ record'.lifecycle = flowActive ∧
      hasRole ingress (packetKey packet) record' := by
  cases h with
  | refused hwhy hchecked hinflight => exact absurd rfl hout
  | admitted write hthawed hchecked hinflight hothers hstate =>
    have halike : Alike record (write.apply record) := fixedPart_apply write record
    refine ⟨write.apply record, (hstate key).trans (if_pos rfl), ?_, hasRole_of_alike halike hrole⟩
    exact halike.fields.2.2.2.2.2.trans hactive

theorem respects_of_processed (h : Processed allowed frame ingress s s' result)
    (hcross : ¬ Crosses s frame ingress) : Respects s s' frame ingress result.2 := by
  cases h with
  | passed hwhy hbeside =>
    exact ⟨fun hout => absurd rfl hout, fun _ _ _ _ _ => ⟨rfl, hbeside _ (by decide)⟩⟩
  | dropped hingress hparse hcandidate hfailed =>
    exact ⟨fun hout => absurd rfl hout, fun _ _ _ _ _ => ⟨rfl, hfailed.state⟩⟩
  | @resolved _ packet index record _ hparse hcontrol hindex hrecord hactive hadmission =>
    have hrole : hasRole ingress (packetKey packet) record := by
      by_contra hrole
      exact hcross ⟨packet, index, record, hparse, hcontrol, hindex, hrecord, hactive, hrole⟩
    refine ⟨fun hout => ?_, fun packet' index' record' hparse' hopposes => ?_⟩
    · obtain ⟨record', hrecord', hactive', hrole'⟩ :=
        hasRole_of_admission hactive hrole hadmission hout
      exact ⟨packet, _, record', hparse, hrecord', hactive', hrole'⟩
    · obtain rfl : packet = packet' := Option.some.inj (hparse.symm.trans hparse')
      exact absurd ⟨packet, index', record', hparse, hcontrol, hopposes⟩ hcross
  | @created s₁ _ packet candidate _ hingress hparse hcandidate hcreated hadmission =>
    refine ⟨fun hout => ?_, fun packet' index' record' hparse' hopposes => ?_⟩
    · have hrole : hasRole ingress (packetKey packet) (activated candidate) := by
        obtain ⟨target, port, now, -, rfl⟩ := hcandidate.made
        rw [hasRole, if_pos hingress]
        exact .inl rfl
      obtain ⟨record', hrecord', hactive', hrole'⟩ :=
        hasRole_of_admission rfl hrole hadmission hout
      exact ⟨packet, _, record', hparse, hrecord', hactive', hrole'⟩
    · -- The tuple of a packet that creates its flow was not indexed.
      obtain rfl : packet = packet' := Option.some.inj (hparse.symm.trans hparse')
      have hindex := hopposes.indexed
      rw [hcandidate.free] at hindex
      cases hindex

/-- A frame that `Opposes` its flow is admitted like any other. -/
theorem rewritten_of_processed {packet : PacketInfo} {index : Bpf.FlowIndexValue}
    (h : Processed allowed frame ingress s s' result) (hparse : parsePacket frame = some packet)
    (hcontrol : s.runtimeConfig.controls packet ingress = false)
    (hopposes : Opposes s packet ingress index record)
    (hunfrozen : Unfrozen allowed s (stateKeyOf index.flowId index.generation))
    (hcount : (s.find .packetInflight (stateKeyOf index.flowId index.generation)).isSome) :
    result = (.ok, rewriteFrame frame packet ingress record) := by
  obtain ⟨hindex, hrecord, hactive, -⟩ := hopposes
  cases h with
  | passed hwhy hbeside =>
    have hinactive := hwhy packet hparse hcontrol
    rw [hindex] at hinactive
    exact absurd hactive (hinactive record hrecord)
  | dropped hingress hparse' hcandidate hfailed =>
    obtain rfl : packet = _ := Option.some.inj (hparse.symm.trans hparse')
    rw [hcandidate.free] at hindex
    cases hindex
  | resolved hparse' hcontrol' hindex' hrecord' hactive' hadmission =>
    obtain rfl : packet = _ := Option.some.inj (hparse.symm.trans hparse')
    obtain rfl : index = _ := Option.some.inj (hindex.symm.trans hindex')
    obtain rfl : record = _ := Option.some.inj (hrecord.symm.trans hrecord')
    cases hadmission with
    | refused hwhy hchecked hinflight => exact absurd ⟨hunfrozen, hcount⟩ hwhy
    | admitted write hthawed hchecked hinflight hothers hnext => rfl
  | created hingress hparse' hcandidate hcreated hadmission =>
    obtain rfl : packet = _ := Option.some.inj (hparse.symm.trans hparse')
    rw [hcandidate.free] at hindex
    cases hindex

/-- **A hook respects the direction of every frame that does not cross.** A frame that does is admitted
and rewritten all the same: nothing but a deletion on the way keeps it out. -/
theorem directions_respected {frame out : List UInt8} {ingress : Bool} {action : TcAction}
    (hret : machine.Returns allowed ((Job.packet frame ingress).code Slots.split) s
      (.verdict action out) s') :
    (¬ Crosses s frame ingress → Respects s s' frame ingress out) ∧
    ∀ packet index record, parsePacket frame = some packet →
      s.runtimeConfig.controls packet ingress = false → Opposes s packet ingress index record →
      Unfrozen allowed s (stateKeyOf index.flowId index.generation) →
      (s.find .packetInflight (stateKeyOf index.flowId index.generation)).isSome →
      action = .ok ∧ out = rewriteFrame frame packet ingress record := by
  obtain ⟨result, houtcome, hprocessed⟩ := processed_of_returns hret
  cases houtcome
  refine ⟨respects_of_processed hprocessed, ?_⟩
  intro packet index record hparse hcontrol hopposes hunfrozen hcount
  have hresult := rewritten_of_processed hprocessed hparse hcontrol hopposes hunfrozen hcount
  rw [hresult]
  exact ⟨rfl, rfl⟩

/-- The sample datagram as the forward hook sends it on, and what is parsed of it. -/
def sampleForwarded : List UInt8 :=
  rewriteDestination sampleFrame samplePacket (ipv4ToMapped (ipv4 10 0 0 3)) 3000
def sampleForwardedPacket : PacketInfo :=
  { samplePacket with destination := ipv4ToMapped (ipv4 10 0 0 3), destinationPort := 3000 }

/-- Whether a state holds the sample flow with nothing on the way. -/
def sampleSettled (s : Maps) : Bool :=
  decide (s.find .flowIndex sampleFlow.target = some (ownerOf sampleFlow)) &&
    (s.find .flowState sampleKey).any (fun record => fixedPart record = fixedPart sampleFlow) &&
    decide (s.find .deleteGuard sampleKey = none) && decide (s.find .deleteOutcome sampleKey = none) &&
    (s.find .packetInflight sampleKey).isSome && decide (s.runtimeConfig = sampleConfig)

/-- The sample datagram is processed without a mistake at the forward hook. -/
theorem directions_respected_sample :
    ∃ s, machine.Returns (fun _ => True) ((Job.packet sampleFrame true).code Slots.split)
      (Maps.initial sampleConfig) (.verdict .ok sampleForwarded) s ∧
      Respects (Maps.initial sampleConfig) s sampleFrame true sampleForwarded := by
  have hrun : (machine.run ((Job.packet sampleFrame true).code Slots.split) (List.replicate 29 {})
      (Maps.initial sampleConfig)).any
        (fun r => decide (r.1 = Outcome.verdict .ok sampleForwarded)) = true := by
    decide +kernel
  obtain ⟨value, s, hret, hvalue⟩ := Machine.exists_returns_of_run (M := machine) (fun _ => True)
    (fun value _ => decide (value = Outcome.verdict .ok sampleForwarded)) hrun fun _ _ => trivial
  obtain rfl := of_decide_eq_true hvalue
  refine ⟨s, hret, (directions_respected hret).1 ?_⟩
  rintro ⟨packet, index, record, -, -, hopposes⟩
  have hindex := hopposes.indexed
  rw [show (Maps.initial sampleConfig).find .flowIndex (packetKey packet) = none from rfl] at hindex
  cases hindex

/-- **The reverse hook rewrites a forward packet.** The datagram that the forward hook of one interface
has sent on toward the proxy passes the reverse hook of another; there its source becomes the
destination the client had asked for. -/
theorem forwarded_rewritten_again :
    parsePacket sampleForwarded = some sampleForwardedPacket ∧
    ∃ s, machine.Serial (Job.code Slots.split) faultFree (fun _ _ => True)
      (Maps.initial sampleConfig) s ∧ ∃ out s',
      machine.Returns (fun _ => True) ((Job.packet sampleForwarded false).code Slots.split) s
        (.verdict .ok out) s' ∧
      parsePacket out = some { sampleForwardedPacket with
        source := ipv4ToMapped #v[10, 0, 0, 2]
        sourcePort := 2000 } ∧
      ¬ Respects s s' sampleForwarded false out := by
  have hparse : parsePacket sampleForwarded = some sampleForwardedPacket := by decide +kernel
  refine ⟨hparse, ?_⟩
  have hrun : (machine.run ((Job.packet sampleFrame true).code Slots.split) (List.replicate 29 {})
      (Maps.initial sampleConfig)).any (fun r => sampleSettled r.2.1) = true := by
    decide +kernel
  obtain ⟨value, s, hret, hsettled⟩ := Machine.exists_returns_of_run (M := machine)
    (faultFree (.packet sampleFrame true)) (fun _ s => sampleSettled s) hrun fun _ _ h => (nomatch h)
  simp only [sampleSettled, Bool.and_eq_true, decide_eq_true_eq, Option.any_eq_true] at hsettled
  obtain ⟨⟨⟨⟨⟨hindex, record, hrecord, halike⟩, hguard⟩, houtcome⟩, hcount⟩, hconfig⟩ := hsettled
  have halike : Alike sampleFlow record := halike
  obtain ⟨horiginal, htarget, hreverse, -, -, hactive⟩ := halike.fields
  have hkey : sampleKey = stateKeyOf (ownerOf sampleFlow).flowId (ownerOf sampleFlow).generation := by
    rw [key_ownerOf, sampleKey, keyOf]
  rw [hkey] at hrecord hguard houtcome hcount
  have hopposes : Opposes s sampleForwardedPacket false (ownerOf sampleFlow) record := by
    refine ⟨hindex, hrecord, hactive, ?_⟩
    rw [hasRole, if_neg (by decide), hreverse]
    decide
  obtain ⟨value, s', hret'⟩ := exists_returns_job (.packet sampleForwarded false) s
  obtain ⟨result, rfl, hprocessed⟩ := processed_of_returns hret'
  have hresult := rewritten_of_processed hprocessed hparse
    (by rw [hconfig]; decide) hopposes (fun c _ => by rw [hguard, houtcome]; rfl) hcount
  subst hresult
  have hout : parsePacket (rewriteFrame sampleForwarded sampleForwardedPacket false record) =
      some { sampleForwardedPacket with
        source := ipv4ToMapped #v[10, 0, 0, 2]
        sourcePort := 2000 } := by
    rw [rewriteFrame, if_neg (by decide), horiginal]
    exact parsePacket_rewriteSource hparse fun _ => ⟨_, rfl⟩
  refine ⟨s, .step .start trivial hret, _, s', hret', hout, fun hrespects => ?_⟩
  have hsame : rewriteFrame sampleForwarded sampleForwardedPacket false record = sampleForwarded :=
    (hrespects.opposite _ _ _ hparse hopposes).1
  rw [hsame, hparse] at hout
  exact absurd hout (by decide)

end ShadowSocketProxy.Flows
