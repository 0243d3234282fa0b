import ShadowSocketProxy.ControlService.Published

/-! # Closing a TCP flow

A flow is terminal once both sides have finished and have been acknowledged. From then on its record
holds a deadline. Along any sequence of segments the deadline is set exactly while the flow is terminal,
and it is never further away than the grace behind the last segment. -/

namespace ShadowSocketProxy.ControlService

open Bpf Bytes Interleaving

variable {record : FlowStateValue} {timed : FlowStateValue → StateUpdate → Prop} {grace : UInt64}

/-! ## One segment -/

namespace TcpState

/-- Both sides have finished and have been acknowledged. -/
def Terminal (t : TcpState) : Prop := t.finSeenMask = 3 ∧ t.finAckSeenMask = 3

instance (t : TcpState) : Decidable t.Terminal := inferInstanceAs (Decidable (_ ∧ _))

/-- A reset was seen. -/
def Reset (t : TcpState) : Prop := t.tcpStateFlags &&& tcpRstBit ≠ 0

instance (t : TcpState) : Decidable t.Reset := inferInstanceAs (Decidable (_ ≠ _))

/-- Other bits do not matter. -/
theorem or_and_of_disjoint {other bit : UInt32} (h : other &&& bit = 0) (bits : UInt32) :
    (bits ||| other) &&& bit = bits &&& bit := by
  have hdistrib : (bits ||| other) &&& bit = (bits &&& bit) ||| (other &&& bit) := by
    apply UInt32.toBitVec_inj.mp
    simp only [UInt32.toBitVec_and, UInt32.toBitVec_or]
    ext i
    simp [Bool.and_or_distrib_right]
  rw [hdistrib, h, UInt32.or_zero]

/-- A bit that was set is set. -/
theorem or_and_self (bits bit : UInt32) : (bits ||| bit) &&& bit = bit := by
  apply UInt32.toBitVec_inj.mp
  simp only [UInt32.toBitVec_and, UInt32.toBitVec_or]
  ext i
  simp only [BitVec.getElem_and, BitVec.getElem_or, Bool.and_eq_right_iff_imp, Bool.or_eq_true]
  exact Or.inr

section Observe

variable (flags : TcpFlags) (direction : UInt8) (now deadline : UInt64) (t : TcpState)

theorem lastUsedNs_observe : (t.observe flags direction now deadline).lastUsedNs = now := by
  simp only [observe, apply_ite lastUsedNs, ite_self]

theorem finSeenMask_observe : (t.observe flags direction now deadline).finSeenMask =
    if flags.fin then t.finSeenMask ||| (1 <<< direction) else t.finSeenMask := by
  simp only [observe, apply_ite finSeenMask, ite_self]

theorem finAckSeenMask_observe : (t.observe flags direction now deadline).finAckSeenMask =
    if flags.ack ∧ t.finSeenMask &&& (1 <<< (direction ^^^ 1)) ≠ 0 then
      t.finAckSeenMask ||| (1 <<< direction)
    else t.finAckSeenMask := by
  simp only [observe, apply_ite finAckSeenMask, apply_ite finSeenMask, ite_self]

theorem terminalDeadlineNs_observe : (t.observe flags direction now deadline).terminalDeadlineNs =
    if (t.observe flags direction now deadline).Terminal ∧ t.terminalDeadlineNs = 0 then deadline
    else t.terminalDeadlineNs := by
  simp only [Terminal, observe, apply_ite terminalDeadlineNs, apply_ite finAckSeenMask,
    apply_ite finSeenMask, ite_self, and_assoc]

/-- `observe` sets the bit of a reset for a reset and for nothing else. -/
theorem rstBit_observe : (t.observe flags direction now deadline).tcpStateFlags &&& tcpRstBit =
    if flags.rst then tcpRstBit else t.tcpStateFlags &&& tcpRstBit := by
  have hsyn : (if direction ≠ 0 then tcpSynAckBit else tcpSynBit) &&& tcpRstBit = 0 := by
    split <;> rfl
  have hack : tcpAckBit &&& tcpRstBit = 0 := rfl
  have hfin : tcpFinBit &&& tcpRstBit = 0 := rfl
  simp only [observe, apply_ite tcpStateFlags, apply_ite (fun bits : UInt32 => bits &&& tcpRstBit),
    ite_self, or_and_of_disjoint hsyn, or_and_of_disjoint hack, or_and_of_disjoint hfin, or_and_self]

end Observe

/-- A direction is one of two. -/
theorem direction_cases {direction : UInt8} (h : direction ≤ 1) : direction = 0 ∨ direction = 1 := by
  have hle : direction.toNat ≤ 1 := UInt8.le_iff_toNat_le.mp h
  rcases Nat.le_one_iff_eq_zero_or_eq_one.mp hle with hzero | hone
  · exact .inl (UInt8.toNat_inj.mp hzero)
  · exact .inr (UInt8.toNat_inj.mp hone)

/-- A full mask stays full. -/
theorem three_or {direction : UInt8} (h : direction ≤ 1) : (3 : UInt8) ||| (1 <<< direction) = 3 := by
  rcases direction_cases h with rfl | rfl <;> rfl

section Step

variable {flags : TcpFlags} {direction : UInt8} {now deadline : UInt64} {t : TcpState}

/-- A flow that is `Terminal` stays so. -/
theorem Terminal.observe (ht : t.Terminal) (hdirection : direction ≤ 1) :
    (t.observe flags direction now deadline).Terminal := by
  obtain ⟨hseen, hacked⟩ := ht
  rw [Terminal, finSeenMask_observe, finAckSeenMask_observe, hseen, hacked, three_or hdirection,
    ite_self, ite_self]
  exact ⟨rfl, rfl⟩

/-- A reset is never forgotten. -/
theorem reset_observe_iff : (t.observe flags direction now deadline).Reset ↔ flags.rst ∨ t.Reset := by
  rw [Reset, rstBit_observe]
  by_cases hrst : flags.rst = true
  · rw [if_pos hrst]
    exact iff_of_true (by decide) (.inl hrst)
  · rw [if_neg hrst]
    exact ⟨.inr, fun h => h.resolve_left hrst⟩

/-- A deadline means that the flow is terminal. -/
theorem terminal_observe_of_deadline (hdirection : direction ≤ 1)
    (ht : t.terminalDeadlineNs ≠ 0 → t.Terminal)
    (hdeadline : (t.observe flags direction now deadline).terminalDeadlineNs ≠ 0) :
    (t.observe flags direction now deadline).Terminal := by
  rw [terminalDeadlineNs_observe] at hdeadline
  split at hdeadline
  · rename_i hset
    exact hset.1
  · exact (ht hdeadline).observe hdirection

end Step

/-- What holds of a deadline under a grace: it is set exactly while the flow is terminal, and it is no
further away than the grace behind the last segment. -/
structure Closing (grace : UInt64) (t : TcpState) : Prop where
  terminal : t.terminalDeadlineNs ≠ 0 ↔ t.Terminal
  deadline_le : t.terminalDeadlineNs.toNat ≤ t.lastUsedNs.toNat + grace.toNat

/-- One segment keeps `Closing`, if time does not run backwards and does not overflow. -/
theorem Closing.observe {grace : UInt64} {t : TcpState} (ht : Closing grace t) (hgrace : grace ≠ 0)
    (flags : TcpFlags) {direction : UInt8} (hdirection : direction ≤ 1) {now : UInt64}
    (hlater : t.terminalDeadlineNs ≠ 0 → t.lastUsedNs ≤ now) (hnow : now.toNat + grace.toNat < 2 ^ 64) :
    Closing grace (t.observe flags direction now (now + grace)) := by
  have hsum : (now + grace).toNat = now.toNat + grace.toNat := by
    rw [UInt64.toNat_add, Nat.mod_eq_of_lt hnow]
  have hgrace' : grace.toNat ≠ 0 := fun hzero => hgrace (UInt64.toNat_inj.mp hzero)
  have hdeadline := terminalDeadlineNs_observe flags direction now (now + grace) t
  constructor
  · constructor
    · exact terminal_observe_of_deadline hdirection ht.terminal.mp
    · intro hterminal
      rw [hdeadline]
      by_cases hunset : t.terminalDeadlineNs = 0
      · rw [if_pos ⟨hterminal, hunset⟩]
        intro hzero
        rw [hzero] at hsum
        have hzero' : now.toNat + grace.toNat = 0 := hsum.symm
        omega
      · rw [if_neg fun h => hunset h.2]
        exact hunset
  · rw [hdeadline, lastUsedNs_observe]
    split
    · exact hsum.le
    · by_cases hunset : t.terminalDeadlineNs = 0
      · rw [hunset]
        exact Nat.zero_le _
      · have hle := ht.deadline_le
        have hlater' : t.lastUsedNs.toNat ≤ now.toNat := UInt64.le_iff_toNat_le.mp (hlater hunset)
        omega

end TcpState

/-! ## The records that packets make -/

/-- The direction of a write is one of two. -/
def Directed : StateUpdate → Prop
  | .tcp _ direction _ _ => direction ≤ 1
  | .touch _ => True

/-- The records that packets make: a candidate, activated once it is indexed, and written by the packets
of its flow. `timed` says which writes there are. -/
inductive Reached (timed : FlowStateValue → StateUpdate → Prop) : FlowStateValue → Prop
  | created (packet : PacketInfo) (lookupKey : TupleKey) (target : Address) (targetPort : UInt16)
      (flowId : UInt64) (generation : UInt32) (now : UInt64) :
      Reached timed (makeCandidate packet lookupKey target targetPort flowId generation now)
  | activated {record : FlowStateValue} :
      Reached timed record → Reached timed { record with lifecycle := flowActive }
  | written {record : FlowStateValue} {write : StateUpdate} :
      Reached timed record → Directed write → timed record write → Reached timed (write.apply record)

theorem Reached.tcp (h : Reached timed record) {direction flags : UInt8} {now : UInt64}
    (hdirection : direction ≤ 1) (htimed : timed record (.tcp grace direction flags now)) :
    Reached timed (updateTcpState grace direction flags now record) :=
  have hdirected : Directed (.tcp grace direction flags now) := hdirection
  h.written hdirected htimed

/-- What holds of new lifecycles, and what each write keeps, holds of every record. -/
theorem Reached.invariant {P : TcpState → Prop} (hnew : ∀ now, P ⟨now, 0, 0, 0, 0⟩)
    (htouch : ∀ record now, timed record (.touch now) → P (tcpStateOf record) →
      P { tcpStateOf record with lastUsedNs := now })
    (htcp : ∀ record grace direction flags now, direction ≤ 1 →
      timed record (.tcp grace direction flags now) → P (tcpStateOf record) →
      P ((tcpStateOf record).observe (wireFlags flags) direction now (now + grace)))
    (h : Reached timed record) : P (tcpStateOf record) := by
  induction h with
  | created packet lookupKey target targetPort flowId generation now => exact hnew now
  | activated _ ih => exact ih
  | @written record write _ hdirected htimed ih =>
    cases write with
    | touch now => exact htouch record now htimed ih
    | tcp grace direction flags now =>
      by_cases hprotocol : record.protocolFlags = 1
      · rw [StateUpdate.apply, tcpStateOf_updateTcpState hprotocol]
        exact htcp record grace direction flags now hdirected htimed ih
      · -- a record of another protocol is left alone
        rw [StateUpdate.apply, updateTcpState, if_pos hprotocol]
        exact ih

/-- Under any clock, a deadline means that the flow is terminal. -/
theorem Reached.terminal_of_deadline (h : Reached timed record) :
    (tcpStateOf record).terminalDeadlineNs ≠ 0 → (tcpStateOf record).Terminal := by
  apply h.invariant (P := fun t => t.terminalDeadlineNs ≠ 0 → t.Terminal)
  · intro now hne
    exact absurd rfl hne
  · intro record now _ ih
    exact ih
  · intro record grace direction flags now hdirection _ ih
    exact TcpState.terminal_observe_of_deadline hdirection ih

/-- Writes under one grace, at times that neither run backwards nor overflow. -/
def Timed (grace : UInt64) (record : FlowStateValue) : StateUpdate → Prop
  | .tcp grace' _ _ now =>
    grace' = grace ∧ record.lastUsedNs ≤ now ∧ now.toNat + grace.toNat < 2 ^ 64
  | .touch now => record.lastUsedNs ≤ now

/-- Under one grace every record is `Closing`: its deadline is as it should be. -/
theorem Reached.closing (hgrace : grace ≠ 0) (h : Reached (Timed grace) record) :
    (tcpStateOf record).Closing grace := by
  refine h.invariant ?_ ?_ ?_
  · intro now
    have hzero : ¬ (0 : UInt8) = 3 := by decide
    exact ⟨iff_of_false (fun hne => hne rfl) (fun ht => hzero ht.1), Nat.zero_le _⟩
  · intro record now hlater ih
    have hlater' : record.lastUsedNs.toNat ≤ now.toNat := UInt64.le_iff_toNat_le.mp hlater
    have hle : record.terminalDeadlineNs.toNat ≤ record.lastUsedNs.toNat + grace.toNat :=
      ih.deadline_le
    exact ⟨ih.terminal, hle.trans (Nat.add_le_add_right hlater' _)⟩
  · rintro record _ direction flags now hdirection ⟨rfl, hlater, hnow⟩ ih
    exact ih.observe hgrace _ hdirection (fun _ => hlater) hnow

/-! ## Histories -/

section Histories

variable {config : RuntimeConfigValue} {record : FlowStateValue} {events : List TcpEvent}

theorem runRecord_append (record : FlowStateValue) (events more : List TcpEvent) :
    runRecord config record (events ++ more) = runRecord config (runRecord config record events) more :=
  List.foldl_append

theorem fixedPart_runRecord (record : FlowStateValue) (events : List TcpEvent) :
    fixedPart (runRecord config record events) = fixedPart record := by
  induction events generalizing record with
  | nil => rfl
  | cons event events ih =>
    exact (ih _).trans (fixedPart_apply (.tcp (terminalGrace config) event.direction event.flags
      event.now) record)

theorem protocolFlags_runRecord (record : FlowStateValue) (events : List TcpEvent) :
    (runRecord config record events).protocolFlags = record.protocolFlags := by
  induction events generalizing record with
  | nil => rfl
  | cons event events ih => exact (ih _).trans (protocolFlags_updateTcpState _ _ _ _ record)

/-- What one segment makes of a TCP record. -/
theorem tcpStateOf_runRecord_cons (config : RuntimeConfigValue) (h : record.protocolFlags = 1)
    (event : TcpEvent) :
    ∃ record', (∀ events, runRecord config record (event :: events) = runRecord config record' events) ∧
      record'.protocolFlags = 1 ∧
      tcpStateOf record' = (tcpStateOf record).observe (wireFlags event.flags) event.direction event.now
        (event.now + terminalGrace config) := by
  refine ⟨updateTcpState (terminalGrace config) event.direction event.flags event.now record,
    fun _ => rfl, ?_, tcpStateOf_updateTcpState h _ _ _ _⟩
  rw [protocolFlags_updateTcpState, h]

theorem lastUsedNs_runRecord_concat (h : record.protocolFlags = 1) (events : List TcpEvent)
    (event : TcpEvent) :
    (tcpStateOf (runRecord config record (events ++ [event]))).lastUsedNs = event.now := by
  have h' : (runRecord config record events).protocolFlags = 1 :=
    (protocolFlags_runRecord record events).trans h
  obtain ⟨record', hrun, -, hstate⟩ := tcpStateOf_runRecord_cons config h' event
  rw [runRecord_append, hrun]
  show (tcpStateOf record').lastUsedNs = event.now
  rw [hstate, TcpState.lastUsedNs_observe]

/-- A reset in the history is all that makes a flow `Reset`. -/
theorem reset_runRecord_iff (h : record.protocolFlags = 1) (events : List TcpEvent) :
    (tcpStateOf (runRecord config record events)).Reset ↔
      (∃ event ∈ events, (wireFlags event.flags).rst = true) ∨ (tcpStateOf record).Reset := by
  induction events generalizing record with
  | nil => simp [runRecord]
  | cons event events ih =>
    obtain ⟨record', hrun, h', hstate⟩ := tcpStateOf_runRecord_cons config h event
    rw [hrun, ih h', hstate, TcpState.reset_observe_iff, List.exists_mem_cons_iff, or_assoc,
      or_left_comm]

/-- The side of a direction has finished. -/
def finished (direction : UInt8) (events : List TcpEvent) : Bool :=
  events.any fun event => event.direction = direction && (wireFlags event.flags).fin

/-- `finSeenMask` says which sides have finished. -/
theorem finSeenMask_runRecord (h : record.protocolFlags = 1)
    (hdirection : ∀ event ∈ events, event.direction ≤ 1) :
    (tcpStateOf (runRecord config record events)).finSeenMask =
      (tcpStateOf record).finSeenMask ||| (if finished 0 events then 1 else 0) |||
        (if finished 1 events then 2 else 0) := by
  induction events generalizing record with
  | nil => simp [runRecord, finished]
  | cons event events ih =>
    rw [List.forall_mem_cons] at hdirection
    obtain ⟨record', hrun, h', hstate⟩ := tcpStateOf_runRecord_cons config h event
    rw [hrun, ih h' hdirection.2, hstate, TcpState.finSeenMask_observe]
    have hcons : ∀ direction, finished direction (event :: events) =
      (decide (event.direction = direction) && (wireFlags event.flags).fin ||
        finished direction events) := fun _ => rfl
    rw [hcons, hcons]
    -- which of the two bits the segment sets is known; the rest is associativity
    have hone : (1 : UInt8) <<< 0 = 1 := rfl
    have htwo : (1 : UInt8) <<< 1 = 2 := rfl
    have hboth : (1 : UInt8) ||| 2 = 3 ∧ (2 : UInt8) ||| 1 = 3 ∧ (3 : UInt8) ||| 2 = 3 :=
      ⟨rfl, rfl, rfl⟩
    rcases TcpState.direction_cases hdirection.1 with hd | hd <;>
      cases (wireFlags event.flags).fin <;> cases finished 0 events <;> cases finished 1 events <;>
      simp [hd, hone, htwo, hboth, UInt8.or_assoc]

/-- The mask is full once both sides have finished. -/
theorem finSeenMask_runRecord_eq_three_iff (h : record.protocolFlags = 1)
    (hmask : (tcpStateOf record).finSeenMask = 0)
    (hdirection : ∀ event ∈ events, event.direction ≤ 1) :
    (tcpStateOf (runRecord config record events)).finSeenMask = 3 ↔
      finished 0 events = true ∧ finished 1 events = true := by
  rw [finSeenMask_runRecord h hdirection, hmask]
  cases finished 0 events <;> cases finished 1 events <;> decide

/-- The sides that have been acknowledged are sides. -/
theorem finAckSeenMask_runRecord (h : record.protocolFlags = 1)
    (hdirection : ∀ event ∈ events, event.direction ≤ 1)
    (hmask : (tcpStateOf record).finAckSeenMask ||| 3 = 3) :
    (tcpStateOf (runRecord config record events)).finAckSeenMask ||| 3 = 3 := by
  induction events generalizing record with
  | nil => exact hmask
  | cons event events ih =>
    rw [List.forall_mem_cons] at hdirection
    obtain ⟨record', hrun, h', hstate⟩ := tcpStateOf_runRecord_cons config h event
    rw [hrun]
    refine ih h' hdirection.2 ?_
    rw [hstate, TcpState.finAckSeenMask_observe]
    split
    · rw [UInt8.or_assoc, UInt8.or_comm _ 3, TcpState.three_or hdirection.1, hmask]
    · exact hmask

/-- Two acknowledgements make a flow `Terminal` that both sides have finished. -/
theorem terminal_of_acks (h : record.protocolFlags = 1)
    (hseen : (tcpStateOf record).finSeenMask = 3)
    (hacked : (tcpStateOf record).finAckSeenMask ||| 3 = 3) :
    (tcpStateOf (runRecord config record [⟨0, tcpFlagAck, 0⟩, ⟨1, tcpFlagAck, 0⟩])).Terminal := by
  obtain ⟨record₁, hrun₁, h₁, hstate₁⟩ := tcpStateOf_runRecord_cons config h ⟨0, tcpFlagAck, 0⟩
  obtain ⟨record₂, hrun₂, h₂, hstate₂⟩ := tcpStateOf_runRecord_cons config h₁ ⟨1, tcpFlagAck, 0⟩
  rw [hrun₁, hrun₂]
  show (tcpStateOf record₂).Terminal
  have hfin : (wireFlags tcpFlagAck).fin = false := rfl
  have hseen₁ : (tcpStateOf record₁).finSeenMask = 3 := by
    rw [hstate₁, TcpState.finSeenMask_observe, hfin, hseen]
    rfl
  have hacked₁ : (tcpStateOf record₁).finAckSeenMask = (tcpStateOf record).finAckSeenMask ||| 1 := by
    rw [hstate₁, TcpState.finAckSeenMask_observe, hseen]
    rfl
  rw [hstate₂, TcpState.Terminal, TcpState.finSeenMask_observe, TcpState.finAckSeenMask_observe, hfin,
    hseen₁, hacked₁]
  refine ⟨rfl, ?_⟩
  show (tcpStateOf record).finAckSeenMask ||| 1 ||| 2 = 3
  rw [UInt8.or_assoc]
  exact hacked

end Histories

/-! ## Records read back -/

/-- A decoded record has the lifecycle of the record. -/
theorem tcpState_of_decode_pack {flow : FlowState} (h : decodeFlowState record.pack = .ok flow) :
    flow.tcpState = tcpStateOf record := by
  obtain ⟨-, -, -, lifecycle, -, -, rfl⟩ := decodeFlowState_pack_iff.mp h
  rfl

/-- What packets write does not matter to the decoder, once the record is active. -/
theorem decode_of_fixedPart {record' : FlowStateValue} {flow : FlowState}
    (h : decodeFlowState record.pack = .ok flow) (hactive : flow.lifecycle = .active)
    (hfixed : fixedPart record' = fixedPart record) :
    ∃ flow', decodeFlowState record'.pack = .ok flow' ∧ flow'.lifecycle = .active ∧
      flow'.original = flow.original := by
  simp only [fixedPart, Prod.mk.injEq] at hfixed
  obtain ⟨horiginal, htarget, hreverse, -, -, hlifecycle⟩ := hfixed
  obtain ⟨ho, ht, hr, lifecycle, hread, hvalid, rfl⟩ := decodeFlowState_pack_iff.mp h
  obtain rfl : lifecycle = .active := hactive
  refine ⟨flowStateOf record' .active, decodeFlowState_pack_iff.mpr ?_, rfl, ?_⟩
  · rw [horiginal, htarget, hreverse, hlifecycle]
    refine ⟨ho, ht, hr, .active, hread, ?_, rfl⟩
    rw [FlowState.validate] at hvalid ⊢
    simp only [flowStateOf, horiginal, htarget, hreverse] at hvalid ⊢
    exact hvalid
  · simp only [flowStateOf, horiginal]

/-- Whether the model of the control service would delete the flow. -/
def FlowState.shouldDelete (flow : FlowState) (nowNs idleTtlNs : UInt64) : Bool :=
  if flow.lifecycle = .creating then true
  else if flow.tcpStateFlags &&& tcpRst ≠ 0 then true
  else if flow.original.protocol = ipprotoTcp then
    if flow.terminalDeadlineNs ≠ 0 then nowNs ≥ flow.terminalDeadlineNs
    else saturatingSub nowNs flow.lastUsedNs ≥ idleTtlNs
  else saturatingSub nowNs flow.lastUsedNs ≥ idleTtlNs

/-! ## Deadlines under a written configuration -/

/-- The grace of a published configuration is the one it was configured with. -/
theorem Published.terminalGrace_eq {config : RuntimeConfig} {maxima : MapMaxima}
    {value : RuntimeConfigValue} (h : Published config value) (hvalid : Validated config maxima) :
    (terminalGrace value).toNat = config.tcpTerminalGrace := by
  have hgrace : value.terminalGraceNs ≠ 0 := by
    intro hzero
    have hnanos := h.grace
    rw [hzero] at hnanos
    exact hvalid.grace_ne_zero hnanos.symm
  rw [terminalGrace, if_pos hgrace, h.grace]

/-- The deadline that a segment sets on a flow that it makes terminal. -/
theorem deadline_of_closed (hrecord : Reached timed record) {direction flags : UInt8}
    {now : UInt64} (hopen : ¬ (tcpStateOf record).Terminal)
    (hclosed : (tcpStateOf (updateTcpState grace direction flags now record)).Terminal) :
    (updateTcpState grace direction flags now record).terminalDeadlineNs = now + grace := by
  have hunset : (tcpStateOf record).terminalDeadlineNs = 0 :=
    not_not.mp (mt hrecord.terminal_of_deadline hopen)
  by_cases hprotocol : record.protocolFlags = 1
  · have hview := tcpStateOf_updateTcpState hprotocol grace direction flags now
    rw [hview] at hclosed
    have hdeadline := TcpState.terminalDeadlineNs_observe (wireFlags flags) direction now (now + grace)
      (tcpStateOf record)
    rw [if_pos ⟨hclosed, hunset⟩, ← hview] at hdeadline
    exact hdeadline
  · rw [updateTcpState, if_pos hprotocol] at hclosed
    exact absurd hclosed hopen

/-- A sum of times that wraps is zero or early, and one that does not is neither. -/
theorem not_early_iff {now : UInt64} (hgrace : grace ≠ 0) :
    (now + grace ≠ 0 ∧ now ≤ now + grace) ↔ now.toNat + grace.toNat < 2 ^ 64 := by
  have hnow := now.toNat_lt
  have hlt := grace.toNat_lt
  have hgrace' : grace.toNat ≠ 0 := fun hzero => hgrace (UInt64.toNat_inj.mp hzero)
  rw [UInt64.le_iff_toNat_le, Ne, ← UInt64.toNat_inj, UInt64.toNat_add]
  show ¬ (now.toNat + grace.toNat) % 2 ^ 64 = 0 ∧ _ ↔ _
  constructor
  · rintro ⟨-, hle⟩
    by_contra hwrap
    rw [Nat.mod_eq_sub_mod (Nat.not_lt.mp hwrap), Nat.mod_eq_of_lt (by omega)] at hle
    omega
  · intro hfits
    rw [Nat.mod_eq_of_lt hfits]
    omega

/-- The record of a TCP flow of which only the last acknowledgement is missing. -/
def halfClosed : FlowStateValue :=
  updateTcpState 1 1 (tcpFlagFin ||| tcpFlagAck) 0 (updateTcpState 1 0 tcpFlagFin 0
    (makeCandidate { protocol := ipprotoTcp } {} (ipv4ToMapped (ipv4 10 0 0 3)) 80 1 1 0))

theorem reached_halfClosed : Reached (fun _ _ => True) halfClosed := by
  have hforward : (0 : UInt8) ≤ 1 := by decide
  exact ((Reached.created _ _ _ _ _ _ _).tcp hforward trivial).tcp (UInt8.le_refl 1) trivial

/-- Whenever a segment makes a flow terminal before the time `2 ^ 63`, its deadline is set and not in
the past: this holds exactly of the configurations with a grace of at most `2 ^ 63` nanoseconds. -/
theorem terminal_deadline_iff (config : RuntimeConfig) (maxima : MapMaxima)
    (hvalid : config.validateWithMaxima maxima = .ok ()) (s s' : Maps) (allowed : Choice → Prop)
    (hwritten : machine.Returns allowed (setRuntimeConfig config).run s (.ok ()) s') :
    (∀ record direction flags now, Reached (fun _ _ => True) record → now.toNat < 2 ^ 63 →
      ¬ (tcpStateOf record).Terminal →
      let closed := updateTcpState (terminalGrace s'.runtimeConfig) direction flags now record
      (tcpStateOf closed).Terminal → closed.terminalDeadlineNs ≠ 0 ∧ now ≤ closed.terminalDeadlineNs) ↔
      config.tcpTerminalGrace ≤ 2 ^ 63 := by
  have hvalidated := validated_of_validateWithMaxima hvalid
  have hgrace := (published_of_returns hvalidated hwritten).terminalGrace_eq hvalidated
  generalize terminalGrace s'.runtimeConfig = grace at hgrace ⊢
  have hgrace' : grace ≠ 0 := by
    rintro rfl
    exact hvalidated.grace_ne_zero hgrace.symm
  constructor
  · intro h
    -- the last acknowledgement of a half closed flow, one nanosecond before the bound
    have hnow : (9223372036854775807 : UInt64).toNat = 2 ^ 63 - 1 := rfl
    have hopen : ¬ (tcpStateOf halfClosed).Terminal := by decide
    have hclosed : (tcpStateOf (updateTcpState grace 0 tcpFlagAck 9223372036854775807
        halfClosed)).Terminal := by
      rw [tcpStateOf_updateTcpState rfl, TcpState.Terminal, TcpState.finSeenMask_observe,
        TcpState.finAckSeenMask_observe]
      decide
    have hok := h halfClosed 0 tcpFlagAck 9223372036854775807 reached_halfClosed (by decide) hopen
      hclosed
    rw [deadline_of_closed reached_halfClosed hopen hclosed, not_early_iff hgrace', hnow, hgrace] at hok
    omega
  · intro hle record direction flags now hrecord hnow hopen closed hclosed
    rw [deadline_of_closed hrecord hopen hclosed, not_early_iff hgrace', hgrace]
    omega

/-- The default configuration is among them. -/
theorem terminal_deadline_iff_default : ∃ s', machine.Returns (fun _ => True)
      (setRuntimeConfig RuntimeConfig.default).run (Maps.initial {}) (.ok ()) s' ∧
    ∀ record direction flags now, Reached (fun _ _ => True) record → now.toNat < 2 ^ 63 →
      ¬ (tcpStateOf record).Terminal →
      let closed := updateTcpState (terminalGrace s'.runtimeConfig) direction flags now record
      (tcpStateOf closed).Terminal →
        closed.terminalDeadlineNs ≠ 0 ∧ now ≤ closed.terminalDeadlineNs := by
  have hvalid : RuntimeConfig.default.validateWithMaxima MapMaxima.default = .ok () := by decide
  obtain ⟨s', hrun, -⟩ := run_setRuntimeConfig (validated_of_validateWithMaxima hvalid)
    (c := {}) rfl (Maps.initial {})
  have hwritten : machine.Returns (fun _ => True) (setRuntimeConfig RuntimeConfig.default).run
      (Maps.initial {}) (.ok ()) s' := Machine.returns_of_run hrun fun _ _ => trivial
  exact ⟨s', hwritten, (terminal_deadline_iff _ _ hvalid _ s' _ hwritten).mpr (by decide)⟩

/-- A configuration that validation accepts and whose deadlines wrap. -/
def longGrace : RuntimeConfig := { RuntimeConfig.default with tcpTerminalGrace := 2 ^ 64 - 1 }

/-- Under it a flow that becomes terminal at time one is left without a deadline. -/
theorem deadline_wraps : longGrace.validateWithMaxima MapMaxima.default = .ok () ∧
    ∃ s', machine.Returns (fun _ => True) (setRuntimeConfig longGrace).run (Maps.initial {}) (.ok ())
        s' ∧
      Reached (fun _ _ => True) halfClosed ∧ ¬ (tcpStateOf halfClosed).Terminal ∧
      let closed := updateTcpState (terminalGrace s'.runtimeConfig) 0 tcpFlagAck 1 halfClosed
      (tcpStateOf closed).Terminal ∧ closed.terminalDeadlineNs = 0 := by
  have hvalid : longGrace.validateWithMaxima MapMaxima.default = .ok () := by decide
  have hvalidated := validated_of_validateWithMaxima hvalid
  obtain ⟨s', hrun, hpublished⟩ := run_setRuntimeConfig hvalidated (c := {}) rfl (Maps.initial {})
  have hgrace : terminalGrace s'.runtimeConfig = 18446744073709551615 :=
    UInt64.toNat_inj.mp (hpublished.terminalGrace_eq hvalidated)
  refine ⟨hvalid, s', Machine.returns_of_run hrun fun _ _ => trivial, reached_halfClosed, by decide, ?_⟩
  rw [hgrace]
  decide

end ShadowSocketProxy.ControlService
