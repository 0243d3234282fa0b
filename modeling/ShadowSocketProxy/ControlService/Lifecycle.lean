import ShadowSocketProxy.Bpf.Maps
import ShadowSocketProxy.ControlService.Mapping

/-! # The TCP lifecycle

The packet path keeps the lifecycle of a TCP flow in its record, and the control service has a model of
its own for the same events. Both follow one abstract lifecycle, each in its own encoding of the
flags. -/

namespace ShadowSocketProxy.ControlService

open Bpf Bytes

/-! ## The lifecycle -/

/-- What is known of a TCP flow. -/
structure TcpState where
  lastUsedNs : UInt64
  tcpStateFlags : UInt32
  finSeenMask : UInt8
  finAckSeenMask : UInt8
  terminalDeadlineNs : UInt64
  deriving DecidableEq

/-- The flags of a segment that matter. -/
structure TcpFlags where
  syn : Bool
  ack : Bool
  fin : Bool
  rst : Bool

/-- One segment in a direction: an acknowledgement counts once the other side has finished, and the
deadline is set once both sides have finished and have been acknowledged. -/
def TcpState.observe (flags : TcpFlags) (direction : UInt8) (now deadline : UInt64) (t : TcpState) :
    TcpState :=
  let t := { t with lastUsedNs := now }
  let t :=
    if flags.syn then
      { t with tcpStateFlags := t.tcpStateFlags ||| (if direction ≠ 0 then tcpSynAckBit else tcpSynBit) }
    else t
  let t :=
    if flags.ack ∧ t.finSeenMask &&& (1 <<< (direction ^^^ 1)) ≠ 0 then
      { t with
        tcpStateFlags := t.tcpStateFlags ||| tcpAckBit
        finAckSeenMask := t.finAckSeenMask ||| (1 <<< direction) }
    else t
  let t :=
    if flags.fin then
      { t with
        tcpStateFlags := t.tcpStateFlags ||| tcpFinBit
        finSeenMask := t.finSeenMask ||| (1 <<< direction) }
    else t
  let t := if flags.rst then { t with tcpStateFlags := t.tcpStateFlags ||| tcpRstBit } else t
  if t.finSeenMask = 3 ∧ t.finAckSeenMask = 3 ∧ t.terminalDeadlineNs = 0 then
    { t with terminalDeadlineNs := deadline }
  else t

/-- A branch of a model is a branch of the lifecycle. -/
theorem view_ite {σ : Type} (view : σ → TcpState) {c d : Prop} [Decidable c] [Decidable d] {a b : σ}
    {s t : TcpState} (hc : c ↔ d) (ha : view a = s) (hb : view b = t) :
    view (if c then a else b) = if d then s else t := by
  by_cases h : c
  · rw [if_pos h, if_pos (hc.mp h), ha]
  · rw [if_neg h, if_neg fun hd => h (hc.mpr hd), hb]

/-! ## The record of the packet path -/

/-- The lifecycle in a record. -/
def tcpStateOf (record : FlowStateValue) : TcpState where
  lastUsedNs := record.lastUsedNs
  tcpStateFlags := record.tcpStateFlags
  finSeenMask := record.finSeenMask
  finAckSeenMask := record.finAckSeenMask
  terminalDeadlineNs := record.terminalDeadlineNs

/-- The flags on the wire. -/
def wireFlags (flags : UInt8) : TcpFlags where
  syn := flags &&& tcpFlagSyn ≠ 0
  ack := flags &&& tcpFlagAck ≠ 0
  fin := flags &&& tcpFlagFin ≠ 0
  rst := flags &&& tcpFlagRst ≠ 0

/-- The packet path follows the lifecycle. -/
theorem tcpStateOf_updateTcpState {record : FlowStateValue} (h : record.protocolFlags = 1)
    (grace : UInt64) (direction flags : UInt8) (now : UInt64) :
    tcpStateOf (updateTcpState grace direction flags now record) =
      (tcpStateOf record).observe (wireFlags flags) direction now (now + grace) := by
  rw [updateTcpState, if_neg (not_not.mpr h)]
  unfold TcpState.observe
  extract_lets s₁ s₂ s₃ s₄ s₅ t₁ t₂ t₃ t₄ t₅
  have h₁ : tcpStateOf s₁ = t₁ := rfl
  have h₂ : tcpStateOf s₂ = t₂ := view_ite tcpStateOf decide_eq_true_iff.symm (by rw [← h₁]; rfl) h₁
  have h₃ : tcpStateOf s₃ = t₃ := by
    refine view_ite tcpStateOf (and_congr decide_eq_true_iff.symm ?_) ?_ h₂
    · rw [← h₂]
      rfl
    · rw [← h₂]
      rfl
  have h₄ : tcpStateOf s₄ = t₄ := view_ite tcpStateOf decide_eq_true_iff.symm (by rw [← h₃]; rfl) h₃
  have h₅ : tcpStateOf s₅ = t₅ := view_ite tcpStateOf decide_eq_true_iff.symm (by rw [← h₄]; rfl) h₄
  refine view_ite tcpStateOf ?_ ?_ h₅
  · rw [← h₅]
    rfl
  · rw [← h₅]
    rfl

/-! ## The model of the control service -/

/-- Bits of the control service. -/
def tcpSyn : UInt32 := 1
def tcpSynAck : UInt32 := 2
def tcpAck : UInt32 := 4
def tcpFin : UInt32 := 8
def tcpRst : UInt32 := 16

/-- Record the flags of a segment in a direction. -/
def FlowState.observeTcp (direction : UInt8) (flags : UInt32) (nowNs graceNs : UInt64)
    (flow : FlowState) : FlowState :=
  if flow.original.protocol ≠ ipprotoTcp ∨ direction > 1 then flow
  else
    let flow := { flow with lastUsedNs := nowNs }
    let flow :=
      if flags &&& tcpSyn ≠ 0 then
        { flow with
          tcpStateFlags := flow.tcpStateFlags ||| (if direction = 0 then tcpSyn else tcpSynAck) }
      else flow
    let flow :=
      if flags &&& tcpAck ≠ 0 ∧ flow.finSeenMask &&& (1 <<< (direction ^^^ 1)) ≠ 0 then
        { flow with
          tcpStateFlags := flow.tcpStateFlags ||| tcpAck
          finAckSeenMask := flow.finAckSeenMask ||| (1 <<< direction) }
      else flow
    let flow :=
      if flags &&& tcpFin ≠ 0 then
        { flow with
          tcpStateFlags := flow.tcpStateFlags ||| tcpFin
          finSeenMask := flow.finSeenMask ||| (1 <<< direction) }
      else flow
    let flow :=
      if flags &&& tcpRst ≠ 0 then { flow with tcpStateFlags := flow.tcpStateFlags ||| tcpRst }
      else flow
    if flow.finSeenMask = 3 ∧ flow.finAckSeenMask = 3 ∧ flow.terminalDeadlineNs = 0 then
      { flow with terminalDeadlineNs := saturatingAdd nowNs graceNs }
    else flow

/-- The lifecycle of a flow of the control service. -/
def FlowState.tcpState (flow : FlowState) : TcpState where
  lastUsedNs := flow.lastUsedNs
  tcpStateFlags := flow.tcpStateFlags
  finSeenMask := flow.finSeenMask
  finAckSeenMask := flow.finAckSeenMask
  terminalDeadlineNs := flow.terminalDeadlineNs

/-- The flags in the encoding of the control service. -/
def serviceFlags (flags : UInt32) : TcpFlags where
  syn := flags &&& tcpSyn ≠ 0
  ack := flags &&& tcpAck ≠ 0
  fin := flags &&& tcpFin ≠ 0
  rst := flags &&& tcpRst ≠ 0

/-- The control service follows the lifecycle. -/
theorem tcpState_observeTcp {flow : FlowState} {direction : UInt8}
    (h : ¬ (flow.original.protocol ≠ ipprotoTcp ∨ direction > 1)) (flags : UInt32)
    (nowNs graceNs : UInt64) :
    (flow.observeTcp direction flags nowNs graceNs).tcpState =
      flow.tcpState.observe (serviceFlags flags) direction nowNs (saturatingAdd nowNs graceNs) := by
  rw [FlowState.observeTcp, if_neg h]
  unfold TcpState.observe
  extract_lets s₁ s₂ s₃ s₄ s₅ t₁ t₂ t₃ t₄ t₅
  have hdirection : (if direction = 0 then tcpSyn else tcpSynAck) =
      if direction ≠ 0 then tcpSynAckBit else tcpSynBit := by
    rw [ite_not]
    rfl
  have h₁ : s₁.tcpState = t₁ := rfl
  have h₂ : s₂.tcpState = t₂ := by
    refine view_ite FlowState.tcpState decide_eq_true_iff.symm ?_ h₁
    rw [hdirection, ← h₁]
    rfl
  have h₃ : s₃.tcpState = t₃ := by
    refine view_ite FlowState.tcpState (and_congr decide_eq_true_iff.symm ?_) ?_ h₂
    · rw [← h₂]
      rfl
    · rw [← h₂]
      rfl
  have h₄ : s₄.tcpState = t₄ :=
    view_ite FlowState.tcpState decide_eq_true_iff.symm (by rw [← h₃]; rfl) h₃
  have h₅ : s₅.tcpState = t₅ :=
    view_ite FlowState.tcpState decide_eq_true_iff.symm (by rw [← h₄]; rfl) h₄
  refine view_ite FlowState.tcpState ?_ ?_ h₅
  · rw [← h₅]
    rfl
  · rw [← h₅]
    rfl

/-! ## Agreement -/

/-- An update leaves the protocol of the record. -/
theorem protocolFlags_updateTcpState (grace : UInt64) (direction flags : UInt8) (now : UInt64)
    (record : FlowStateValue) :
    (updateTcpState grace direction flags now record).protocolFlags = record.protocolFlags := by
  unfold updateTcpState
  refine kept_ite FlowStateValue.protocolFlags rfl ?_
  extract_lets s₁ s₂ s₃ s₄ s₅
  have h₂ : s₂.protocolFlags = record.protocolFlags := kept_ite FlowStateValue.protocolFlags rfl rfl
  have h₃ : s₃.protocolFlags = record.protocolFlags := kept_ite FlowStateValue.protocolFlags h₂ h₂
  have h₄ : s₄.protocolFlags = record.protocolFlags := kept_ite FlowStateValue.protocolFlags h₃ h₃
  have h₅ : s₅.protocolFlags = record.protocolFlags := kept_ite FlowStateValue.protocolFlags h₄ h₄
  exact kept_ite FlowStateValue.protocolFlags h₅ h₅

/-- An observation leaves the tuple of the flow. -/
theorem original_observeTcp (direction : UInt8) (flags : UInt32) (nowNs graceNs : UInt64)
    (flow : FlowState) : (flow.observeTcp direction flags nowNs graceNs).original = flow.original := by
  unfold FlowState.observeTcp
  refine kept_ite FlowState.original rfl ?_
  extract_lets s₁ s₂ s₃ s₄ s₅
  have h₂ : s₂.original = flow.original := kept_ite FlowState.original rfl rfl
  have h₃ : s₃.original = flow.original := kept_ite FlowState.original h₂ h₂
  have h₄ : s₄.original = flow.original := kept_ite FlowState.original h₃ h₃
  have h₅ : s₅.original = flow.original := kept_ite FlowState.original h₄ h₄
  exact kept_ite FlowState.original h₅ h₅

/-- The bits of the control service for the flags on the wire. -/
def translateFlags (flags : UInt8) : UInt32 :=
  (if flags &&& tcpFlagSyn ≠ 0 then tcpSyn else 0) |||
    (if flags &&& tcpFlagAck ≠ 0 then tcpAck else 0) |||
    (if flags &&& tcpFlagFin ≠ 0 then tcpFin else 0) |||
    (if flags &&& tcpFlagRst ≠ 0 then tcpRst else 0)

/-- A translation keeps the meaning of the flags. -/
theorem serviceFlags_translateFlags (flags : UInt8) :
    serviceFlags (translateFlags flags) = wireFlags flags := by
  unfold serviceFlags wireFlags translateFlags
  by_cases hsyn : flags &&& tcpFlagSyn = 0 <;> by_cases hack : flags &&& tcpFlagAck = 0 <;>
    by_cases hfin : flags &&& tcpFlagFin = 0 <;> by_cases hrst : flags &&& tcpFlagRst = 0 <;>
    simp only [hsyn, hack, hfin, hrst, ne_eq, not_true_eq_false, not_false_eq_true, if_true,
      if_false] <;>
    rfl

/-- The grace that the packet path reads of a configuration. -/
def terminalGrace (config : RuntimeConfigValue) : UInt64 :=
  if config.terminalGraceNs ≠ 0 then config.terminalGraceNs else 30000000000

/-- A segment seen by both models. -/
structure TcpEvent where
  direction : UInt8
  flags : UInt8
  now : UInt64

/-- The packet path over segments. -/
def runRecord (config : RuntimeConfigValue) (record : FlowStateValue) (events : List TcpEvent) :
    FlowStateValue :=
  events.foldl (fun record event =>
    updateTcpState (terminalGrace config) event.direction event.flags event.now record) record

/-- The control service over segments. -/
def runFlow (graceNs : UInt64) (flow : FlowState) (events : List TcpEvent) : FlowState :=
  events.foldl (fun flow event =>
    flow.observeTcp event.direction (translateFlags event.flags) event.now graceNs) flow

/-- One segment keeps the models together. -/
theorem agree_step {record : FlowStateValue} {flow : FlowState} {graceNs : UInt64} {event : TcpEvent}
    (hrecord : record.protocolFlags = 1) (hflow : flow.original.protocol = ipprotoTcp)
    (hdirection : event.direction ≤ 1) (hnow : event.now.toNat + graceNs.toNat < 2 ^ 64)
    (h : tcpStateOf record = flow.tcpState) :
    tcpStateOf (updateTcpState graceNs event.direction event.flags event.now record) =
      (flow.observeTcp event.direction (translateFlags event.flags) event.now graceNs).tcpState := by
  have hguard : ¬ (flow.original.protocol ≠ ipprotoTcp ∨ event.direction > 1) := by
    rintro (hne | hgt)
    · exact hne hflow
    · exact UInt8.not_le.mpr hgt hdirection
  rw [tcpStateOf_updateTcpState hrecord, tcpState_observeTcp hguard, serviceFlags_translateFlags,
    saturatingAdd_eq hnow, h]

/-- A run keeps the models together. -/
theorem agree_run {config : RuntimeConfigValue} (hgrace : config.terminalGraceNs ≠ 0)
    (events : List TcpEvent) (hdirection : ∀ event ∈ events, event.direction ≤ 1)
    (hnow : ∀ event ∈ events, event.now.toNat + config.terminalGraceNs.toNat < 2 ^ 64)
    (record : FlowStateValue) (flow : FlowState) (hrecord : record.protocolFlags = 1)
    (hflow : flow.original.protocol = ipprotoTcp) (h : tcpStateOf record = flow.tcpState) :
    tcpStateOf (runRecord config record events) =
      (runFlow config.terminalGraceNs flow events).tcpState := by
  have hread : terminalGrace config = config.terminalGraceNs := if_pos hgrace
  induction events generalizing record flow with
  | nil => exact h
  | cons event events ih =>
    rw [List.forall_mem_cons] at hdirection hnow
    have hstep := agree_step hrecord hflow hdirection.1 hnow.1 h
    rw [← hread] at hstep
    refine ih hdirection.2 hnow.2 _ _ ?_ ?_ (hread ▸ hstep)
    · rw [protocolFlags_updateTcpState, hrecord]
    · rw [original_observeTcp, hflow]

/-- The packet path and the control service agree on the lifecycle of a TCP flow after every
initial part of every sequence of segments. -/
theorem lifecycles_agree (config : RuntimeConfigValue) (hgrace : config.terminalGraceNs ≠ 0)
    (record : FlowStateValue) (flow : FlowState) (hrecord : record.protocolFlags = 1)
    (hflow : flow.original.protocol = ipprotoTcp) (h : tcpStateOf record = flow.tcpState)
    (events : List TcpEvent) (hdirection : ∀ event ∈ events, event.direction ≤ 1)
    (hnow : ∀ event ∈ events, event.now.toNat + config.terminalGraceNs.toNat < 2 ^ 64) (n : Nat) :
    tcpStateOf (runRecord config record (events.take n)) =
      (runFlow config.terminalGraceNs flow (events.take n)).tcpState := by
  have hmem : ∀ event ∈ events.take n, event ∈ events := fun _ => List.mem_of_mem_take
  exact agree_run hgrace _ (fun event he => hdirection event (hmem event he))
    (fun event he => hnow event (hmem event he)) record flow hrecord hflow h

/-- A TCP flow that both sides close while a reset and a late segment arrive. -/
theorem lifecycles_agree_sample :
    tcpStateOf (runRecord { terminalGraceNs := 5 } { protocolFlags := 1 }
        ([⟨0, 0x02, 1⟩, ⟨1, 0x12, 2⟩, ⟨0, 0x11, 3⟩, ⟨1, 0x15, 4⟩, ⟨0, 0x10, 6⟩].take 5)) =
      (runFlow 5 ⟨1, 1, ⟨.v4 (ipv4 10 0 0 1), .v4 (ipv4 10 0 0 2), ipprotoTcp, 1, 2⟩,
        ⟨.v4 (ipv4 10 0 0 1), .v4 (ipv4 10 0 0 3), ipprotoTcp, 1, 3⟩,
        ⟨.v4 (ipv4 10 0 0 3), .v4 (ipv4 10 0 0 1), ipprotoTcp, 3, 1⟩, 0, 1, 0, 0, 0, .active, 0⟩
        ([⟨0, 0x02, 1⟩, ⟨1, 0x12, 2⟩, ⟨0, 0x11, 3⟩, ⟨1, 0x15, 4⟩, ⟨0, 0x10, 6⟩].take 5)).tcpState :=
  lifecycles_agree { terminalGraceNs := 5 } (by decide) { protocolFlags := 1 } _ rfl rfl rfl
    [⟨0, 0x02, 1⟩, ⟨1, 0x12, 2⟩, ⟨0, 0x11, 3⟩, ⟨1, 0x15, 4⟩, ⟨0, 0x10, 6⟩] (by decide) (by decide) 5

end ShadowSocketProxy.ControlService
