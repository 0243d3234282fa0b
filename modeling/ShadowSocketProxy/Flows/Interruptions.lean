import ShadowSocketProxy.Alone.Interrupted
import ShadowSocketProxy.Flows.Directions

/-! # Interrupted deletions

The host may stop anywhere in a deletion, and any of its map calls may fail. As long as the record of
the flow is there, so are its indexes and its in-flight count; what is left of the round decides
whether packets still get in. An expired guard lets them in, a recorded commit never does. -/

namespace ShadowSocketProxy.Flows

open Interleaving Bpf Alone ControlService
open Interleaving.Machine (wp_mono wp_seq wp_of_all always_of_all always_seqE always_mono)

variable {s s' : Maps} {T : FlowTable} {allowed : Choice → Prop} {key : FlowStateKey}
  {expected : ControlService.FlowIndexValue}

/-! ## What a prefix keeps -/

/-- Records, indexes and in-flight counts are as they were. -/
structure Kept (s s' : Maps) : Prop where
  state : Same s s' .flowState
  index : Same s s' .flowIndex
  inflight : Same s s' .packetInflight

/-- The record is gone, or everything is `Kept`. -/
def GoneOrKept (key : FlowStateKey) (s s' : Maps) : Prop :=
  s'.find .flowState key = none ∨ Kept s s'

/-- An `OpeningOp` of a deletion leaves the flow `GoneOrKept`. -/
theorem goneOrKept_opening (op : Op) (hop : OpeningOp key op) (c : Choice) (resp : Resp op)
    (s₁ s₂ : Maps) (_ : allowed c) (hs₁ : GoneOrKept key s s₁)
    (hexec : machine.exec c op s₁ = some (resp, s₂)) : GoneOrKept key s s₂ := by
  rcases hs₁ with hgone | hkept
  · exact .inl (gone_step hop.host c resp s₁ s₂ hgone hexec)
  · have hexec : exec c op s₁ = some (resp, s₂) := hexec
    by_cases hremove : op = .hostRemove .flowState key
    · subst hremove
      rcases exec_hostRemove hexec with ⟨e, -, rfl⟩ | ⟨-, rfl, -⟩
      · exact .inr hkept
      · exact .inl (by rw [Maps.find_remove, if_pos rfl])
    · have hspares : ∀ m, m = .flowState ∨ m = .flowIndex ∨ m = .packetInflight →
          ∀ k : m.Key, ¬ op.MayChange m k := by
        rintro m (rfl | rfl | rfl) k hchange <;> cases hop with
        | removeState => exact hremove rfl
        | round h => cases h <;> simp [Op.MayChange] at hchange
        | _ => simp [Op.MayChange] at hchange
      have hsame : ∀ m, m = .flowState ∨ m = .flowIndex ∨ m = .packetInflight → Same s₁ s₂ m :=
        fun m hm k => exec_frame hexec (hspares m hm k)
      exact .inr ⟨hkept.state.trans (hsame _ (by simp)), hkept.index.trans (hsame _ (by simp)),
        hkept.inflight.trans (hsame _ (by simp))⟩

/-- **Wherever a deletion stops, the flow is `GoneOrKept`.** -/
theorem always_deleteFlow (flowId : UInt64) (generation : UInt32) (observed deadline : UInt64) :
    machine.always allowed (deleteFlow flowId generation observed deadline).run
      (GoneOrKept (stateKeyOf flowId generation) s) s := by
  refine Upheld.deleteFlow ⟨goneOrKept_opening, fun tuples stateDeleted staleGeneration s' _ hgone => ?_⟩
    (.inr ⟨Same.refl s _, Same.refl s _, Same.refl s _⟩) observed deadline
  -- the cleanup never brings the record back
  have halways : machine.always allowed (finishCleanup ⟨flowId, generation⟩ _ tuples stateDeleted
      staleGeneration).run (fun s'' => s''.find .flowState (stateKeyOf flowId generation) = none) s' :=
    always_of_all (fun _ hop c resp s₁ s₂ _ => gone_step hop c resp s₁ s₂) (all_finishCleanup _ _ _)
      hgone
  exact always_mono halways fun _ h => .inl h

/-! ## What a prefix leaves to the packets -/

/-- A recorded outcome that keeps packets out for good: it says that the deletion has committed. -/
def Blocked (s : Maps) (key : FlowStateKey) : Prop :=
  ∃ recorded, s.find .deleteOutcome key = some recorded ∧ recorded ≠ flowDeleteAborted

/-- The moments at which no guard of the flow is alive. -/
def afterGuard (s : Maps) (key : FlowStateKey) (c : Choice) : Prop :=
  ∀ deadline, s.find .deleteGuard key = some deadline → deadline ≤ c.now

/-- `afterGuard` only a flow that is `Blocked` is `frozen`. -/
theorem frozen_iff_blocked {c : Choice} (hc : afterGuard s key c) :
    frozen (s.find .deleteGuard key) (s.find .deleteOutcome key) c.now = true ↔ Blocked s key := by
  rw [Blocked]
  cases houtcome : s.find .deleteOutcome key with
  | some recorded => simp [frozen]
  | none =>
    cases hguard : s.find .deleteGuard key with
    | none => simp [frozen]
    | some deadline =>
      have hexpired : deadline ≤ c.now := hc deadline hguard
      simpa [frozen] using hexpired

/-- Where a deletion stopped with the record in place, the maps still represent the table. -/
theorem represents_of_stop {config : RuntimeConfigValue} {fits : Job → Maps → Prop}
    {choices : Job → Choice → Prop}
    (hrun : machine.Serial (Job.code Slots.split) choices fits (Maps.initial config) s)
    {flowId : UInt64} {generation : UInt32} {observed deadline : UInt64}
    (hstop : machine.Stops allowed
      ((Job.delete flowId generation observed deadline).code Slots.split) s s')
    {record : FlowStateValue}
    (hrecord : s'.find .flowState (stateKeyOf flowId generation) = some record) :
    ∃ T, Represents s' T ∧ T.flows (stateKeyOf flowId generation) = some record := by
  obtain ⟨T, hT⟩ := represents_of_run hrun
  have halways : machine.always allowed
      ((Job.delete flowId generation observed deadline).code Slots.split)
      (GoneOrKept (stateKeyOf flowId generation) s) s :=
    Machine.always_seq (always_deleteFlow flowId generation observed deadline)
      (R := fun _ _ => True) (Machine.wp_of_returns fun _ _ _ => trivial) fun _ _ _ h => h
  rcases hstop.of_always halways with hgone | hkept
  · rw [hgone] at hrecord
    cases hrecord
  · have hT' : Represents s' T := hT.of_same hkept.state hkept.index hkept.inflight
    exact ⟨T, hT', (hT'.state _).symm.trans hrecord⟩

/-- **A deletion that stopped anywhere keeps a flow out exactly by a recorded commit.** The host may
have stopped after any map call, and any of them may have failed. If the record is still there, a packet
of the flow that comes after the guard's deadline is admitted and rewritten, unless the deletion has
recorded its commit and not taken it back. -/
theorem interrupted_deletion_admits_iff {config : RuntimeConfigValue}
    (hrun : machine.Serial (Job.code Slots.split) (fun _ _ => True) (fun _ _ => True)
      (Maps.initial config) s)
    {flowId : UInt64} {generation : UInt32} {observed deadline : UInt64}
    (hstop : machine.Stops (fun _ => True)
      ((Job.delete flowId generation observed deadline).code Slots.split) s s')
    {record : FlowStateValue} (hrecord : s'.find .flowState (stateKeyOf flowId generation) = some record)
    {frame : List UInt8} {packet : PacketInfo} {ingress : Bool}
    (hparse : parsePacket frame = some packet) (htuple : packetKey packet ∈ tuplesOf record)
    (hcontrol : s'.runtimeConfig.controls packet ingress = false) {outcome : Outcome} {s'' : Maps}
    (hret : machine.Returns (afterGuard s' (stateKeyOf flowId generation))
      ((Job.packet frame ingress).code Slots.split) s' outcome s'') :
    outcome = .verdict .ok (rewriteFrame frame packet ingress record) ↔
      ¬ Blocked s' (stateKeyOf flowId generation) := by
  obtain ⟨T, hT, hf⟩ := represents_of_stop hrun hstop hrecord
  rcases hT.outcome_of_packet hf hparse htuple hcontrol hret with
    ⟨rfl, hfrozen⟩ | ⟨rfl, c, hc, hthawed⟩
  · refine ⟨fun h => (nomatch h), fun hfree => absurd (fun c hc => ?_) hfrozen⟩
    rw [← frozen_iff_blocked hc] at hfree
    exact Bool.eq_false_iff.mpr hfree
  · refine ⟨fun _ hblocked => ?_, fun _ => rfl⟩
    rw [← frozen_iff_blocked hc, hthawed] at hblocked
    cases hblocked

/-- Whether a state holds the sample flow under the guard of a deletion, until the time 100. -/
def sampleGuarded (s : Maps) : Bool :=
  (s.find .flowState sampleKey).any (fun record => fixedPart record = fixedPart sampleFlow) &&
    decide (s.find .deleteGuard sampleKey = some 100) &&
    decide (s.find .deleteOutcome sampleKey = none) && decide (s.runtimeConfig = sampleConfig)

/-- Whether a deletion that cannot read the in-flight count, nor remove its guard, leaves the guard. -/
def sampleAbandoned (s : Maps) : Bool :=
  (machine.run ((Job.delete sampleFlow.flowId sampleFlow.generation 0 100).code Slots.split)
    (List.replicate 4 ({} : Choice) ++ List.replicate 3 { fault := true }) s).any fun r =>
      sampleGuarded r.2.1

/-- The sample flow under the guard that a failed deletion has left: from the deadline on, the next
datagram of the client is admitted. -/
theorem interrupted_deletion_admits_sample : ∃ s s' record outcome s'',
    machine.Serial (Job.code Slots.split) (fun _ _ => True) (fun _ _ => True)
      (Maps.initial sampleConfig) s ∧
    machine.Stops (fun _ => True)
      ((Job.delete sampleFlow.flowId sampleFlow.generation 0 100).code Slots.split) s s' ∧
    s'.find .flowState sampleKey = some record ∧ s'.find .deleteGuard sampleKey = some 100 ∧
    machine.Returns (afterGuard s' sampleKey) ((Job.packet sampleFrame true).code Slots.split) s'
      outcome s'' ∧
    outcome = .verdict .ok (rewriteFrame sampleFrame samplePacket true record) := by
  have hrun : (machine.run ((Job.packet sampleFrame true).code Slots.split) (List.replicate 29 {})
      (Maps.initial sampleConfig)).any (fun r => sampleAbandoned r.2.1) = true := by
    decide +kernel
  obtain ⟨value, s, hret, habandoned⟩ := Machine.exists_returns_of_run (M := machine)
    (fun _ => True) (fun _ s => sampleAbandoned s) hrun fun _ _ => trivial
  obtain ⟨value', s', hret', hguarded⟩ := Machine.exists_returns_of_run (M := machine)
    (fun _ => True) (fun _ s => sampleGuarded s) habandoned fun _ _ => trivial
  simp only [sampleGuarded, Bool.and_eq_true, decide_eq_true_eq, Option.any_eq_true] at hguarded
  obtain ⟨⟨⟨⟨record, hrecord, halike⟩, hguard⟩, houtcome⟩, hconfig⟩ := hguarded
  have halike : Alike sampleFlow record := halike
  obtain ⟨outcome, s'', hpacket⟩ : ∃ outcome s'', machine.Returns (afterGuard s' sampleKey)
      ((Job.packet sampleFrame true).code Slots.split) s' outcome s'' := by
    refine Machine.exists_returns fun op s => ⟨{ now := 100 }, fun deadline h => ?_, isSome_exec _ op s⟩
    rw [hguard] at h
    cases h
    exact UInt64.le_refl 100
  have hserial : machine.Serial (Job.code Slots.split) (fun _ _ => True) (fun _ _ => True)
      (Maps.initial sampleConfig) s := .step .start trivial hret
  refine ⟨s, s', record, outcome, s'', hserial, hret'.stops, hrecord, hguard, hpacket, ?_⟩
  refine (interrupted_deletion_admits_iff hserial hret'.stops hrecord (by decide) ?_ ?_ hpacket).mpr ?_
  · rw [halike.tuplesOf_eq]
    exact .head _
  · rw [hconfig]
    decide
  · rintro ⟨recorded, hrecorded, -⟩
    have hnone : s'.find .deleteOutcome sampleKey = some recorded := hrecorded
    rw [houtcome] at hnone
    cases hnone

/-- The map calls of a deletion that commits, cannot read the in-flight count any more, and can remove
neither guard nor outcome. -/
def sampleFailures : List Choice :=
  List.replicate 7 ({} : Choice) ++ List.replicate 3 { fault := true }

/-- Whether a state holds the sample flow committed for deletion. -/
def sampleCommitted (s : Maps) : Bool :=
  (s.find .flowState sampleKey).any (fun record => fixedPart record = fixedPart sampleFlow) &&
    decide (s.find .deleteOutcome sampleKey = some flowDeleteCommitted) &&
    decide (s.runtimeConfig = sampleConfig)

/-- Whether the failing deletion leaves the sample flow committed. -/
def sampleStranded (s : Maps) : Bool :=
  (machine.run ((Job.delete sampleFlow.flowId sampleFlow.generation 0 100).code Slots.split)
    sampleFailures s).any fun r => sampleCommitted r.2.1

/-- **A deletion that stops behind its commit keeps the flow out for good.** Its record is in place, and
no datagram of the client gets through any more, whatever the clock says. -/
theorem committed_flow_stranded : ∃ s s' record,
    machine.Serial (Job.code Slots.split) (fun _ _ => True) (fun _ _ => True)
      (Maps.initial sampleConfig) s ∧
    machine.Stops (fun _ => True)
      ((Job.delete sampleFlow.flowId sampleFlow.generation 0 100).code Slots.split) s s' ∧
    s'.find .flowState sampleKey = some record ∧ record.lifecycle = flowActive ∧
    ∀ allowed outcome s'',
      machine.Returns allowed ((Job.packet sampleFrame true).code Slots.split) s' outcome s'' →
      outcome = .verdict .shot sampleFrame := by
  have hrun : (machine.run ((Job.packet sampleFrame true).code Slots.split) (List.replicate 29 {})
      (Maps.initial sampleConfig)).any (fun r => sampleStranded r.2.1) = true := by
    decide +kernel
  obtain ⟨value, s, hret, hstranded⟩ := Machine.exists_returns_of_run (M := machine)
    (fun _ => True) (fun _ s => sampleStranded s) hrun fun _ _ => trivial
  obtain ⟨value', s', hret', hcommitted⟩ := Machine.exists_returns_of_run (M := machine)
    (fun _ => True) (fun _ s => sampleCommitted s) hstranded fun _ _ => trivial
  simp only [sampleCommitted, Bool.and_eq_true, decide_eq_true_eq, Option.any_eq_true] at hcommitted
  obtain ⟨⟨⟨record, hrecord, halike⟩, houtcome⟩, hconfig⟩ := hcommitted
  have halike : Alike sampleFlow record := halike
  have hserial : machine.Serial (Job.code Slots.split) (fun _ _ => True) (fun _ _ => True)
      (Maps.initial sampleConfig) s := .step .start trivial hret
  refine ⟨s, s', record, hserial, hret'.stops, hrecord, halike.fields.2.2.2.2.2, ?_⟩
  intro allowed outcome s'' hret''
  obtain ⟨T, hT, hf⟩ := represents_of_stop hserial hret'.stops hrecord
  have hmember : packetKey samplePacket ∈ tuplesOf record := by
    rw [halike.tuplesOf_eq]
    exact .head _
  rcases hT.outcome_of_packet hf (by decide) hmember (by rw [hconfig]; decide) hret'' with
    ⟨rfl, -⟩ | ⟨-, c, -, hthawed⟩
  · rfl
  · -- The recorded commit decides, at every moment.
    rw [show s'.find .deleteOutcome (stateKeyOf sampleFlow.flowId sampleFlow.generation) =
      some flowDeleteCommitted from houtcome] at hthawed
    cases hthawed

end ShadowSocketProxy.Flows
