import ShadowSocketProxy.ControlService.Closing
import ShadowSocketProxy.ControlService.Codecs
import ShadowSocketProxy.HostProxy.Lookup

/-! # The expiry policy of the host

Maintenance enumerates the flows and deletes those that a policy calls expired. The policy works from
what a page of the enumeration shows: the masks and the last use, but no deadline. The model of the
control service decides by the deadline of the record. -/

namespace ShadowSocketProxy.HostProxy

open Bpf ControlService Bytes

/-! ## Flow records -/

/-- A flow as the enumeration returns it. -/
structure FlowRecord where
  flowId : UInt64
  generation : UInt32
  synthetic : SocketTuple
  original : SocketTuple
  lastUsedNs : UInt64
  protocolFlags : UInt32
  tcpStateFlags : UInt32
  observedNowNs : UInt64
  finSeenMask : UInt32
  finAckSeenMask : UInt32
  deriving DecidableEq

/-- The protocol of a message. -/
def checkedFlowProtocol (protocol : UInt32) : Except ProxyError UInt8 :=
  if protocol.toNat ≤ 255 then .ok protocol.toUInt8
  else .error (.invalidMapping "flow protocol is out of range")

/-- One flow of a page, as `enumerate_flows` of the client makes it. -/
def flowRecordFromProto (flow : Proto.Flow) : Except ProxyError FlowRecord := do
  let synthetic ← match flow.synthetic with
    | some tuple => socketTupleFromProto tuple
    | none => .error (.invalidMapping "flow synthetic tuple missing")
  let original ← match flow.original with
    | some tuple => socketTupleFromProto tuple
    | none => .error (.invalidMapping "flow original tuple missing")
  let protocol ← checkedFlowProtocol flow.protocol
  if synthetic.protocol ≠ protocol ∨ original.protocol ≠ protocol then
    .error (.invalidMapping "flow protocol does not match tuples")
  else
    .ok
      { flowId := flow.flowId
        generation := flow.generation
        synthetic := synthetic
        original := original
        lastUsedNs := flow.lastUsedNs
        protocolFlags := flow.protocolFlags
        tcpStateFlags := flow.tcpStateFlags
        observedNowNs := flow.observedNowNs
        finSeenMask := flow.finSeenMask
        finAckSeenMask := flow.finAckSeenMask }

/-- The tuple of a flow in socket addresses. -/
def socketTupleOf (tuple : Tuple) : SocketTuple where
  source := StdSocketAddr.new tuple.source tuple.sourcePort
  destination := StdSocketAddr.new tuple.destination tuple.destinationPort
  protocol := tuple.protocol

/-- What maintenance sees of a flow. -/
def flowRecordOf (flow : FlowState) (observedNowNs : UInt64) : FlowRecord where
  flowId := flow.flowId
  generation := flow.generation
  synthetic := socketTupleOf flow.target
  original := socketTupleOf flow.original
  lastUsedNs := flow.lastUsedNs
  protocolFlags := flow.protocolFlags
  tcpStateFlags := flow.tcpStateFlags
  observedNowNs := observedNowNs
  finSeenMask := flow.finSeenMask.toUInt32
  finAckSeenMask := flow.finAckSeenMask.toUInt32

/-- `flowRecordFromProto` undoes `flowToProto` on a valid flow. -/
theorem flowRecordFromProto_eq {flow : FlowState} (h : flow.validate = .ok ())
    (observedNowNs : UInt64) :
    flowRecordFromProto (flowToProto flow observedNowNs) = .ok (flowRecordOf flow observedNowNs) := by
  obtain ⟨horiginal, htarget, -⟩ := FlowState.isIpv4_of_validate h
  have hprotocol : flow.target.protocol = flow.original.protocol := by
    rw [FlowState.validate] at h
    simp only [ite_error_eq_ok, bind_eq_ok, not_or, not_not] at h
    obtain ⟨_, -, _, -, _, -, ⟨hprotocol, -⟩, -⟩ := h
    exact hprotocol.symm
  have hchecked : checkedFlowProtocol flow.original.protocol.toUInt32 = .ok flow.original.protocol := by
    have hlt := flow.original.protocol.toNat_lt
    rw [checkedFlowProtocol, UInt8.toNat_toUInt32, if_pos (by omega), UInt8.toUInt8_toUInt32]
  have hsynthetic := socketTupleFromProto_eq htarget
  have horiginal' := socketTupleFromProto_eq horiginal
  simp only [flowRecordFromProto, flowToProto, hsynthetic, horiginal', hchecked, bind, Except.bind]
  rw [if_neg]
  · rfl
  · exact fun hne => hne.elim (fun hne => hne hprotocol) fun hne => hne rfl

/-! ## The policy -/

/-- The thresholds of maintenance, in nanoseconds. -/
structure ExpiryPolicy where
  udpIdleTimeoutNs : UInt64
  idleTtlNs : UInt64
  tcpTerminalGraceNs : UInt64

/-- Maintenance takes the flow for reset. -/
def FlowRecord.reset (flow : FlowRecord) : Bool := flow.tcpStateFlags &&& ((1 : UInt32) <<< 4) ≠ 0

/-- Maintenance takes the flow for terminal. -/
def FlowRecord.terminal (flow : FlowRecord) : Bool :=
  flow.original.protocol = ipprotoTcp && flow.finSeenMask = 3 && flow.finAckSeenMask = 3

namespace ExpiryPolicy

/-- How long a flow may be idle. -/
def idleThreshold (policy : ExpiryPolicy) (protocol : UInt8) : UInt64 :=
  if protocol = ipprotoUdp then policy.udpIdleTimeoutNs else policy.idleTtlNs

/-- Whether maintenance deletes the flow. -/
def expired (policy : ExpiryPolicy) (flow : FlowRecord) : Bool :=
  let age := saturatingSub flow.observedNowNs flow.lastUsedNs
  flow.reset || (!flow.terminal && age ≥ policy.idleThreshold flow.original.protocol) ||
    (flow.terminal && age ≥ policy.tcpTerminalGraceNs)

end ExpiryPolicy

section Seen

variable (flow : FlowState) (observedNowNs : UInt64)

/-- Maintenance and the model read `reset` off the same bit. -/
theorem reset_flowRecordOf :
    (flowRecordOf flow observedNowNs).reset = decide flow.tcpState.Reset := rfl

theorem toUInt32_eq_three {mask : UInt8} : mask.toUInt32 = 3 ↔ mask = 3 := by
  rw [← UInt32.toNat_inj, ← UInt8.toNat_inj, UInt8.toNat_toUInt32]
  rfl

/-- Maintenance takes a TCP flow for `terminal` exactly when it is. -/
theorem terminal_flowRecordOf : (flowRecordOf flow observedNowNs).terminal = true ↔
    flow.original.protocol = ipprotoTcp ∧ flow.tcpState.Terminal := by
  show (decide (flow.original.protocol = ipprotoTcp) && decide (flow.finSeenMask.toUInt32 = 3) &&
    decide (flow.finAckSeenMask.toUInt32 = 3)) = true ↔ _
  simp only [toUInt32_eq_three, Bool.and_eq_true, decide_eq_true_eq, TcpState.Terminal,
    FlowState.tcpState, and_assoc]

end Seen

/-! ## Maintenance against the model of the control service -/

/-- A page of the enumeration shows this of a record. -/
def Enumerates (record : FlowStateValue) (observedNowNs : UInt64) (flow : FlowState)
    (seen : FlowRecord) : Prop :=
  decodeFlowState record.pack = .ok flow ∧
    flowRecordFromProto (flowToProto flow observedNowNs) = .ok seen

theorem Enumerates.eq {record : FlowStateValue} {observedNowNs : UInt64} {flow : FlowState}
    {seen : FlowRecord} (h : Enumerates record observedNowNs flow seen) :
    seen = flowRecordOf flow observedNowNs := by
  have hseen := h.2
  rw [flowRecordFromProto_eq (validate_of_decodeFlowState h.1)] at hseen
  exact (Except.ok.inj hseen).symm

/-- A terminal flow that has been silent for the grace is past its deadline. -/
theorem deadline_le_of_age {t : TcpState} {grace observed : UInt64} (ht : t.Closing grace)
    (hgrace : grace ≠ 0) (hage : grace ≤ saturatingSub observed t.lastUsedNs) :
    t.terminalDeadlineNs ≤ observed := by
  have hage' := UInt64.le_iff_toNat_le.mp hage
  rw [toNat_saturatingSub] at hage'
  have hgrace' : grace.toNat ≠ 0 := fun hzero => hgrace (UInt64.toNat_inj.mp hzero)
  have hle := ht.deadline_le
  rw [UInt64.le_iff_toNat_le]
  omega

/-- What maintenance deletes, the model of the control service would delete: under a grace that is no
shorter than that of the packet path and the same idle threshold, for every record that packets make
and whenever it is observed. -/
theorem shouldDelete_of_expired (policy : ExpiryPolicy) (grace : UInt64) (hgrace : grace ≠ 0)
    (hpolicy : grace ≤ policy.tcpTerminalGraceNs) (record : FlowStateValue)
    (hrecord : Reached (Timed grace) record) (observedNowNs : UInt64) (flow : FlowState)
    (seen : FlowRecord) (hseen : Enumerates record observedNowNs flow seen)
    (hexpired : policy.expired seen = true) :
    flow.shouldDelete observedNowNs (policy.idleThreshold flow.original.protocol) = true := by
  obtain rfl := hseen.eq
  have hclosing := hrecord.closing hgrace
  rw [← tcpState_of_decode_pack hseen.1] at hclosing
  rw [FlowState.shouldDelete]
  split
  · rfl
  split
  · rfl
  rename_i hreset
  have hnoreset : (flowRecordOf flow observedNowNs).reset = false := by
    rw [reset_flowRecordOf]
    exact decide_eq_false hreset
  simp only [ExpiryPolicy.expired, hnoreset, Bool.false_or, Bool.or_eq_true, Bool.and_eq_true,
    Bool.not_eq_true', decide_eq_true_eq] at hexpired
  rcases hexpired with ⟨hopen, hidle⟩ | ⟨hterminal, hsilent⟩
  · -- a TCP flow that is not terminal has no deadline
    split
    · rename_i htcp
      have hunset : flow.terminalDeadlineNs = 0 := by
        by_contra hset
        have hterminal := (terminal_flowRecordOf flow observedNowNs).mpr
          ⟨htcp, hclosing.terminal.mp hset⟩
        rw [hterminal] at hopen
        cases hopen
      rw [if_neg (not_not.mpr hunset)]
      exact decide_eq_true hidle
    · exact decide_eq_true hidle
  · obtain ⟨htcp, hclosed⟩ := (terminal_flowRecordOf flow observedNowNs).mp hterminal
    have hset : flow.terminalDeadlineNs ≠ 0 := hclosing.terminal.mpr hclosed
    have hlate : flow.tcpState.terminalDeadlineNs ≤ observedNowNs :=
      deadline_le_of_age hclosing hgrace (UInt64.le_trans hpolicy hsilent)
    rw [if_pos htcp, if_pos hset]
    exact decide_eq_true hlate

/-- The record of a TCP flow when it is activated. -/
def openRecord : FlowStateValue :=
  { makeCandidate { protocol := ipprotoTcp, source := ipv4ToMapped (ipv4 10 0 0 1), sourcePort := 1 }
      { version := mapAbiVersion, family := 4, protocol := ipprotoTcp,
        source := ipv4ToMapped (ipv4 10 0 0 1),
        destination := ipv4ToMapped (ipv4 10 0 0 2), sourcePort := 1, destinationPort := 2 }
      (ipv4ToMapped (ipv4 10 0 0 3)) 3 1 1 0 with
    lifecycle := flowActive }

theorem decode_openRecord : decodeFlowState openRecord.pack = .ok (flowStateOf openRecord .active) := by
  refine decodeFlowState_pack_iff.mpr ⟨⟨?_, ?_⟩, ⟨?_, ?_⟩, ⟨?_, ?_⟩, .active, ?_, ?_, rfl⟩ <;> decide

/-- The same flow, closed by both sides. -/
def closedRecord : FlowStateValue :=
  updateTcpState 5 0 tcpFlagAck 3 (updateTcpState 5 1 (tcpFlagFin ||| tcpFlagAck) 2
    (updateTcpState 5 0 tcpFlagFin 1 openRecord))

theorem reached_closedRecord : Reached (Timed 5) closedRecord := by
  have hopen : Reached (Timed 5) openRecord := (Reached.created _ _ _ _ _ _ _).activated
  have hforward : (0 : UInt8) ≤ 1 := by decide
  refine ((hopen.tcp hforward ?_).tcp (UInt8.le_refl 1) ?_).tcp hforward ?_
  · exact ⟨rfl, by decide, by decide⟩
  · exact ⟨rfl, by decide, by decide⟩
  · exact ⟨rfl, by decide, by decide⟩

/-- Maintenance deletes a closed flow when its deadline has come. -/
theorem shouldDelete_of_expired_closed : ∃ flow seen, Enumerates closedRecord 8 flow seen ∧
    (⟨100, 100, 5⟩ : ExpiryPolicy).expired seen = true ∧ flow.shouldDelete 8 100 = true := by
  have hdecode : decodeFlowState closedRecord.pack = .ok (flowStateOf closedRecord .active) := by
    refine decodeFlowState_pack_iff.mpr ⟨⟨?_, ?_⟩, ⟨?_, ?_⟩, ⟨?_, ?_⟩, .active, ?_, ?_, rfl⟩ <;> decide
  have hseen : Enumerates closedRecord 8 (flowStateOf closedRecord .active)
      (flowRecordOf (flowStateOf closedRecord .active) 8) :=
    ⟨hdecode, flowRecordFromProto_eq (validate_of_decodeFlowState hdecode) 8⟩
  have hexpired : (⟨100, 100, 5⟩ : ExpiryPolicy).expired
      (flowRecordOf (flowStateOf closedRecord .active) 8) = true := by decide
  exact ⟨_, _, hseen, hexpired, shouldDelete_of_expired ⟨100, 100, 5⟩ 5 (by decide) (by decide)
    closedRecord reached_closedRecord 8 _ _ hseen hexpired⟩

/-! ## Opening anew -/

/-- A segment with which the client opens. -/
structure ClientSyn (event : TcpEvent) : Prop where
  direction : event.direction = 0
  syn : (wireFlags event.flags).syn = true
  ack : (wireFlags event.flags).ack = false

/-- A segment that closes nothing. -/
structure Unclosing (event : TcpEvent) : Prop where
  direction : event.direction ≤ 1
  fin : (wireFlags event.flags).fin = false
  rst : (wireFlags event.flags).rst = false

/-- With this segment the flow starts anew: maintenance does not delete it there and then, and takes it
neither for reset nor for terminal before it is reset or finished again. -/
structure StartsAnew (policy : ExpiryPolicy) (config : RuntimeConfigValue) (record : FlowStateValue)
    (history : List TcpEvent) (syn : TcpEvent) : Prop where
  kept : ∃ flow seen, Enumerates (runRecord config record (history ++ [syn])) syn.now flow seen ∧
    policy.expired seen = false
  unclosed : ∀ later, (∀ event ∈ later, Unclosing event) → ∀ observedNowNs, ∃ flow seen,
    Enumerates (runRecord config record (history ++ syn :: later)) observedNowNs flow seen ∧
      seen.reset = false ∧ seen.terminal = false

/-- What closes nothing finishes nothing. -/
theorem finished_append_unclosing {direction : UInt8} (events : List TcpEvent) {later : List TcpEvent}
    (h : ∀ event ∈ later, Unclosing event) :
    finished direction (events ++ later) = finished direction events := by
  have hlater : finished direction later = false := by
    rw [finished, List.any_eq_false]
    intro event hevent
    rw [(h event hevent).fin, Bool.and_false]
    exact Bool.false_ne_true
  rw [finished, List.any_append]
  exact (congrArg _ hlater).trans (Bool.or_false _)

/-- The enumeration shows a TCP flow with this lifecycle. -/
structure Shows (t : TcpState) (observedNowNs : UInt64) (seen : FlowRecord) : Prop where
  reset : seen.reset = decide t.Reset
  terminal : seen.terminal = decide t.Terminal
  observedNowNs : seen.observedNowNs = observedNowNs
  lastUsedNs : seen.lastUsedNs = t.lastUsedNs
  protocol : seen.original.protocol = ipprotoTcp

/-- A flow that is neither reset nor terminal is kept right after a segment. -/
theorem Shows.not_expired {t : TcpState} {observedNowNs : UInt64} {seen : FlowRecord}
    (h : Shows t observedNowNs seen) (hnoreset : ¬ t.Reset) (hopen : ¬ t.Terminal)
    (hlast : t.lastUsedNs = observedNowNs) {policy : ExpiryPolicy} (hidle : policy.idleTtlNs ≠ 0) :
    policy.expired seen = false := by
  have hage : saturatingSub seen.observedNowNs seen.lastUsedNs = 0 := by
    apply UInt64.toNat_inj.mp
    rw [toNat_saturatingSub, h.observedNowNs, h.lastUsedNs, hlast, Nat.sub_self]
    rfl
  have hthreshold : policy.idleThreshold seen.original.protocol = policy.idleTtlNs := by
    rw [h.protocol]
    rfl
  have hyoung : ¬ policy.idleTtlNs ≤ 0 := by
    intro hle
    exact hidle (UInt64.toNat_inj.mp (Nat.le_zero.mp (UInt64.le_iff_toNat_le.mp hle)))
  simp only [ExpiryPolicy.expired, h.reset, h.terminal, decide_eq_false hnoreset,
    decide_eq_false hopen, hage, hthreshold, ge_iff_le, decide_eq_false hyoung, Bool.not_false,
    Bool.true_and, Bool.false_and, Bool.or_self]

section Runs

variable {config : RuntimeConfigValue} {record : FlowStateValue} {flow : FlowState}
  (hread : decodeFlowState record.pack = .ok flow) (hactive : flow.lifecycle = .active)
  (htcp : flow.original.protocol = ipprotoTcp)

include hread hactive

/-- An active record is enumerated after every history. -/
theorem exists_enumerates_runRecord (config : RuntimeConfigValue) (events : List TcpEvent)
    (observedNowNs : UInt64) :
    ∃ flow' seen, Enumerates (runRecord config record events) observedNowNs flow' seen := by
  obtain ⟨flow', hdecode, -⟩ := decode_of_fixedPart hread hactive (fixedPart_runRecord record events)
  exact ⟨flow', _, hdecode, flowRecordFromProto_eq (validate_of_decodeFlowState hdecode) _⟩

include htcp

/-- Maintenance reads the lifecycle off what is enumerated. -/
theorem Enumerates.shows {events : List TcpEvent} {observedNowNs : UInt64} {flow' : FlowState}
    {seen : FlowRecord} (h : Enumerates (runRecord config record events) observedNowNs flow' seen) :
    Shows (tcpStateOf (runRecord config record events)) observedNowNs seen := by
  have hfixed : fixedPart (runRecord config record events) = fixedPart record :=
    fixedPart_runRecord record events
  obtain ⟨flow'', hdecode, -, horiginal⟩ := decode_of_fixedPart hread hactive hfixed
  obtain rfl : flow'' = flow' := Except.ok.inj (hdecode.symm.trans h.1)
  obtain rfl := h.eq
  have hterminal := terminal_flowRecordOf flow'' observedNowNs
  rw [horiginal, and_iff_right htcp] at hterminal
  rw [← tcpState_of_decode_pack hdecode]
  exact ⟨reset_flowRecordOf flow'' observedNowNs,
    Bool.eq_iff_iff.mpr (hterminal.trans decide_eq_true_iff.symm), rfl, rfl,
    (congrArg Tuple.protocol horiginal).trans htcp⟩

end Runs

section New

variable {config : RuntimeConfigValue} {record : FlowStateValue} (hprotocol : record.protocolFlags = 1)
  (hnew : tcpStateOf record = ⟨record.lastUsedNs, 0, 0, 0, 0⟩) {events : List TcpEvent}

include hprotocol hnew

theorem reset_of_new_iff : (tcpStateOf (runRecord config record events)).Reset ↔
    ∃ event ∈ events, (wireFlags event.flags).rst = true := by
  have hunreset : ¬ (tcpStateOf record).Reset := by
    rw [hnew]
    exact fun h => h UInt32.zero_and
  rw [reset_runRecord_iff hprotocol, or_iff_left hunreset]

variable (hdirection : ∀ event ∈ events, event.direction ≤ 1)

include hdirection

/-- Once both sides have finished, acknowledgements alone close the flow. -/
theorem terminal_of_finished (hfinished : finished 0 events = true ∧ finished 1 events = true) :
    (tcpStateOf (runRecord config record
      (events ++ [⟨0, tcpFlagAck, 0⟩, ⟨1, tcpFlagAck, 0⟩]))).Terminal := by
  have hseen : (tcpStateOf record).finSeenMask = 0 := by rw [hnew]
  have hacked : (tcpStateOf record).finAckSeenMask ||| 3 = 3 := by
    rw [hnew]
    exact UInt8.zero_or
  rw [runRecord_append]
  apply terminal_of_acks
  · exact (protocolFlags_runRecord record events).trans hprotocol
  · exact (finSeenMask_runRecord_eq_three_iff hprotocol hseen hdirection).mpr hfinished
  · exact finAckSeenMask_runRecord hprotocol hdirection hacked

/-- Where there is nothing to forget, a flow stays open until it is closed again. -/
theorem open_of_unclosing (hrst : ∀ event ∈ events, (wireFlags event.flags).rst = false)
    (hfinished : ¬ (finished 0 events = true ∧ finished 1 events = true)) {later : List TcpEvent}
    (hlater : ∀ event ∈ later, Unclosing event) :
    ¬ (tcpStateOf (runRecord config record (events ++ later))).Reset ∧
      ¬ (tcpStateOf (runRecord config record (events ++ later))).Terminal := by
  have hseen : (tcpStateOf record).finSeenMask = 0 := by rw [hnew]
  constructor
  · rw [reset_of_new_iff hprotocol hnew]
    rintro ⟨event, hevent, hset⟩
    rcases List.mem_append.mp hevent with hevent | hevent
    · rw [hrst event hevent] at hset
      cases hset
    · rw [(hlater event hevent).rst] at hset
      cases hset
  · intro hterminal
    apply hfinished
    have hsame : ∀ direction, finished direction (events ++ later) = finished direction events :=
      fun _ => finished_append_unclosing _ hlater
    rw [← hsame 0, ← hsame 1]
    refine (finSeenMask_runRecord_eq_three_iff hprotocol hseen ?_).mp hterminal.1
    intro event hevent
    rcases List.mem_append.mp hevent with hevent | hevent
    · exact hdirection event hevent
    · exact (hlater event hevent).direction

end New

/-- A client that opens anew starts a fresh lifecycle exactly when there is nothing to forget: when no
segment so far was a reset, and not both sides have finished. -/
theorem starts_anew_iff (policy : ExpiryPolicy) (hidle : policy.idleTtlNs ≠ 0)
    (config : RuntimeConfigValue) (record : FlowStateValue) (flow : FlowState)
    (hread : decodeFlowState record.pack = .ok flow) (hactive : flow.lifecycle = .active)
    (htcp : flow.original.protocol = ipprotoTcp) (hprotocol : record.protocolFlags = 1)
    (hnew : tcpStateOf record = ⟨record.lastUsedNs, 0, 0, 0, 0⟩) (history : List TcpEvent)
    (hdirection : ∀ event ∈ history, event.direction ≤ 1) (syn : TcpEvent) (hsyn : ClientSyn syn) :
    StartsAnew policy config record history syn ↔
      (∀ event ∈ history ++ [syn], (wireFlags event.flags).rst = false) ∧
        ¬ (finished 0 (history ++ [syn]) = true ∧ finished 1 (history ++ [syn]) = true) := by
  have hdirection' : ∀ event ∈ history ++ [syn], event.direction ≤ 1 := by
    intro event hevent
    rcases List.mem_append.mp hevent with hevent | hevent
    · exact hdirection event hevent
    · rw [List.mem_singleton.mp hevent, hsyn.direction]
      decide
  have hnone : ∀ event ∈ ([] : List TcpEvent), Unclosing event := fun _ h => absurd h List.not_mem_nil
  constructor
  · intro hanew
    constructor
    · intro event hevent
      obtain ⟨flow', seen, hview, hnoreset, -⟩ := hanew.unclosed [] hnone 0
      rw [(hview.shows hread hactive htcp).reset, decide_eq_false_iff_not,
        reset_of_new_iff hprotocol hnew] at hnoreset
      exact Bool.eq_false_iff.mpr fun hrst => hnoreset ⟨event, hevent, hrst⟩
    · intro hfinished
      -- the acknowledgements that may still be missing close the flow without a new FIN
      have hacks : ∀ event ∈ [⟨0, tcpFlagAck, 0⟩, ⟨1, tcpFlagAck, 0⟩], Unclosing event := by
        intro event hevent
        rcases List.mem_pair.mp hevent with rfl | rfl
        · exact ⟨by decide, rfl, rfl⟩
        · exact ⟨by decide, rfl, rfl⟩
      obtain ⟨flow', seen, hview, -, hopen⟩ := hanew.unclosed _ hacks 0
      rw [(hview.shows hread hactive htcp).terminal, decide_eq_false_iff_not, List.append_cons] at hopen
      exact hopen (terminal_of_finished hprotocol hnew hdirection' hfinished)
  · rintro ⟨hrst, hfinished⟩
    constructor
    · have hopen : ¬ (tcpStateOf (runRecord config record (history ++ [syn] ++ []))).Reset ∧
          ¬ (tcpStateOf (runRecord config record (history ++ [syn] ++ []))).Terminal :=
        open_of_unclosing hprotocol hnew hdirection' hrst hfinished hnone
      rw [List.append_nil] at hopen
      obtain ⟨flow', seen, hview⟩ := exists_enumerates_runRecord hread hactive config
        (history ++ [syn]) syn.now
      have hshows := hview.shows hread hactive htcp
      refine ⟨flow', seen, hview, hshows.not_expired hopen.1 hopen.2 ?_ hidle⟩
      rw [lastUsedNs_runRecord_concat hprotocol]
    · intro later hlater observedNowNs
      obtain ⟨flow', seen, hview⟩ := exists_enumerates_runRecord hread hactive config
        (history ++ syn :: later) observedNowNs
      have hshows := hview.shows hread hactive htcp
      rw [List.append_cons] at hshows
      obtain ⟨hnoreset, hopen⟩ := open_of_unclosing hprotocol hnew hdirection' hrst hfinished hlater
      refine ⟨flow', seen, hview, ?_, ?_⟩
      · rw [hshows.reset, decide_eq_false hnoreset]
      · rw [hshows.terminal, decide_eq_false hopen]

/-- A client opens anew after the server alone has finished. -/
theorem starts_anew_iff_half_closed :
    StartsAnew ⟨100, 100, 5⟩ {} openRecord
      [⟨0, tcpFlagSyn, 1⟩, ⟨1, tcpFlagFin ||| tcpFlagAck, 2⟩, ⟨0, tcpFlagAck, 3⟩] ⟨0, tcpFlagSyn, 10⟩ :=
  (starts_anew_iff ⟨100, 100, 5⟩ (by decide) {} openRecord _ decode_openRecord rfl rfl rfl rfl _
    (by decide) ⟨0, tcpFlagSyn, 10⟩ ⟨rfl, rfl, rfl⟩).mpr (by decide)

/-- A client opens anew after a reset, and after both sides have closed: maintenance takes the flow for
reset and deletes it, or takes it for terminal. -/
theorem closing_outlives_syn :
    (∃ flow seen, Enumerates (runRecord {} openRecord
        [⟨0, tcpFlagSyn, 1⟩, ⟨1, tcpFlagRst ||| tcpFlagAck, 2⟩, ⟨0, tcpFlagSyn, 10⟩]) 10 flow seen ∧
      seen.reset = true ∧ (⟨100, 100, 5⟩ : ExpiryPolicy).expired seen = true) ∧
    ∃ flow seen, Enumerates (runRecord {} openRecord
        [⟨0, tcpFlagSyn, 1⟩, ⟨0, tcpFlagFin, 2⟩, ⟨1, tcpFlagFin ||| tcpFlagAck, 3⟩,
          ⟨0, tcpFlagAck, 4⟩, ⟨0, tcpFlagSyn, 10⟩]) 10 flow seen ∧
      seen.terminal = true := by
  constructor
  · obtain ⟨flow, seen, hview⟩ := exists_enumerates_runRecord decode_openRecord rfl {}
      [⟨0, tcpFlagSyn, 1⟩, ⟨1, tcpFlagRst ||| tcpFlagAck, 2⟩, ⟨0, tcpFlagSyn, 10⟩] 10
    have hreset : seen.reset = true := by
      rw [(hview.shows decode_openRecord rfl rfl).reset]
      decide
    refine ⟨flow, seen, hview, hreset, ?_⟩
    rw [ExpiryPolicy.expired, hreset, Bool.true_or, Bool.true_or]
  · obtain ⟨flow, seen, hview⟩ := exists_enumerates_runRecord decode_openRecord rfl {}
      [⟨0, tcpFlagSyn, 1⟩, ⟨0, tcpFlagFin, 2⟩, ⟨1, tcpFlagFin ||| tcpFlagAck, 3⟩,
        ⟨0, tcpFlagAck, 4⟩, ⟨0, tcpFlagSyn, 10⟩] 10
    refine ⟨flow, seen, hview, ?_⟩
    rw [(hview.shows decode_openRecord rfl rfl).terminal]
    decide

end ShadowSocketProxy.HostProxy
