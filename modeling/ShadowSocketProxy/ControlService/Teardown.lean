import ShadowSocketProxy.ControlService.Closing

/-! # The invariant of a TCP lifecycle

Whatever segments a new TCP flow sees, its record only gains bits, and bits, masks and deadline fit
together: a side is acknowledged only after it has finished, the FIN and the ACK bit say which masks are
empty, and a deadline stands for a full teardown. The invariant is one of the abstract lifecycle; the
packet path and the control service both inherit it. -/

namespace ShadowSocketProxy.ControlService

open Bpf Bytes

namespace TcpState

/-! ## Growth -/

/-- A later state has every bit of an earlier one, and keeps its deadline once it is set. -/
structure Grows (t t' : TcpState) : Prop where
  flags : t.tcpStateFlags ||| t'.tcpStateFlags = t'.tcpStateFlags
  seen : t.finSeenMask ||| t'.finSeenMask = t'.finSeenMask
  acked : t.finAckSeenMask ||| t'.finAckSeenMask = t'.finAckSeenMask
  deadline : t.terminalDeadlineNs ≠ 0 → t'.terminalDeadlineNs = t.terminalDeadlineNs

theorem Grows.refl (t : TcpState) : Grows t t :=
  ⟨UInt32.or_self, UInt8.or_self, UInt8.or_self, fun _ => rfl⟩

theorem Grows.trans {t t' t'' : TcpState} (h : Grows t t') (h' : Grows t' t'') : Grows t t'' where
  flags := by rw [← h'.flags, ← UInt32.or_assoc, h.flags]
  seen := by rw [← h'.seen, ← UInt8.or_assoc, h.seen]
  acked := by rw [← h'.acked, ← UInt8.or_assoc, h.acked]
  deadline hset := by
    have hkept := h.deadline hset
    have hset' : t'.terminalDeadlineNs ≠ 0 := by rwa [hkept]
    rw [h'.deadline hset', hkept]

/-- A branch that sets a bit sets it or nothing. -/
theorem ite_or {c : Prop} [Decidable c] (bits bit : UInt32) :
    (if c then bits ||| bit else bits) = bits ||| (if c then bit else 0) := by
  by_cases h : c
  · rw [if_pos h, if_pos h]
  · rw [if_neg h, if_neg h, UInt32.or_zero]

section Observe

variable (flags : TcpFlags) (direction : UInt8) (now deadline : UInt64) (t : TcpState)

/-- The bits that `observe` sets. -/
theorem tcpStateFlags_observe : (t.observe flags direction now deadline).tcpStateFlags =
    t.tcpStateFlags |||
      (if flags.syn then (if direction ≠ 0 then tcpSynAckBit else tcpSynBit) else 0) |||
      (if flags.ack ∧ t.finSeenMask &&& (1 <<< (direction ^^^ 1)) ≠ 0 then tcpAckBit else 0) |||
      (if flags.fin then tcpFinBit else 0) ||| (if flags.rst then tcpRstBit else 0) := by
  simp only [observe, apply_ite tcpStateFlags, apply_ite finSeenMask, ite_self, ite_or]

/-- The bit of a FIN is set by a FIN and by nothing else. -/
theorem finBit_observe : (t.observe flags direction now deadline).tcpStateFlags &&& tcpFinBit =
    if flags.fin then tcpFinBit else t.tcpStateFlags &&& tcpFinBit := by
  have hsyn : (if direction ≠ 0 then tcpSynAckBit else tcpSynBit) &&& tcpFinBit = 0 := by
    split <;> rfl
  have hack : tcpAckBit &&& tcpFinBit = 0 := rfl
  have hrst : tcpRstBit &&& tcpFinBit = 0 := rfl
  simp only [observe, apply_ite tcpStateFlags, apply_ite (fun bits : UInt32 => bits &&& tcpFinBit),
    ite_self, or_and_of_disjoint hsyn, or_and_of_disjoint hack, or_and_of_disjoint hrst, or_and_self]

/-- The bit of an acknowledgement is set by one that counts and by nothing else. -/
theorem ackBit_observe : (t.observe flags direction now deadline).tcpStateFlags &&& tcpAckBit =
    if flags.ack ∧ t.finSeenMask &&& (1 <<< (direction ^^^ 1)) ≠ 0 then tcpAckBit
    else t.tcpStateFlags &&& tcpAckBit := by
  have hsyn : (if direction ≠ 0 then tcpSynAckBit else tcpSynBit) &&& tcpAckBit = 0 := by
    split <;> rfl
  have hfin : tcpFinBit &&& tcpAckBit = 0 := rfl
  have hrst : tcpRstBit &&& tcpAckBit = 0 := rfl
  simp only [observe, apply_ite tcpStateFlags, apply_ite (fun bits : UInt32 => bits &&& tcpAckBit),
    apply_ite finSeenMask, ite_self, or_and_of_disjoint hsyn, or_and_of_disjoint hfin,
    or_and_of_disjoint hrst, or_and_self]

/-- `observe` only adds: the state `Grows`. -/
theorem grows_observe : Grows t (t.observe flags direction now deadline) where
  flags := by
    rw [tcpStateFlags_observe]
    simp only [← UInt32.or_assoc, UInt32.or_self]
  seen := by
    rw [finSeenMask_observe]
    split
    · rw [← UInt8.or_assoc, UInt8.or_self]
    · exact UInt8.or_self
  acked := by
    rw [finAckSeenMask_observe]
    split
    · rw [← UInt8.or_assoc, UInt8.or_self]
    · exact UInt8.or_self
  deadline hset := by
    rw [terminalDeadlineNs_observe, if_neg fun h => hset h.2]

end Observe

/-! ## Coherence -/

/-- What fits together in a lifecycle under a grace: its deadline, the sides that were acknowledged with
those that have finished, and the bits with the masks. -/
structure Coherent (grace : UInt64) (t : TcpState) : Prop extends Closing grace t where
  acked : ∀ direction : UInt8, direction ≤ 1 → t.finAckSeenMask &&& (1 <<< direction) ≠ 0 →
    t.finSeenMask &&& (1 <<< (direction ^^^ 1)) ≠ 0
  sides : t.finSeenMask ≤ 3 ∧ t.finAckSeenMask ≤ 3
  fin : t.tcpStateFlags &&& tcpFinBit ≠ 0 ↔ t.finSeenMask ≠ 0
  ack : t.tcpStateFlags &&& tcpAckBit ≠ 0 ↔ t.finAckSeenMask ≠ 0

/-- A new flow is `Coherent`. -/
theorem coherent_new (grace now : UInt64) : Coherent grace ⟨now, 0, 0, 0, 0⟩ where
  terminal := iff_of_false (fun h => h rfl) (fun h => by cases h.1)
  deadline_le := Nat.zero_le _
  acked direction _ h := absurd UInt8.zero_and h
  sides := ⟨UInt8.zero_le, UInt8.zero_le⟩
  fin := iff_of_false (fun h => h UInt32.zero_and) (fun h => h rfl)
  ack := iff_of_false (fun h => h UInt32.zero_and) (fun h => h rfl)

section Masks

variable {mask other direction : UInt8}

/-- A mask with one more side is not empty. -/
theorem or_side_ne_zero (hdirection : direction ≤ 1) (mask : UInt8) : mask ||| (1 <<< direction) ≠ 0 := by
  intro hzero
  have hside := (UInt8.or_eq_zero_iff.mp hzero).2
  rcases direction_cases hdirection with rfl | rfl <;> cases hside

/-- A mask of sides with one more side is a mask of sides. -/
theorem or_side_le (hdirection : direction ≤ 1) (hmask : mask ≤ 3) : mask ||| (1 <<< direction) ≤ 3 := by
  rw [UInt8.le_iff_toNat_le] at hmask ⊢
  rw [UInt8.toNat_or]
  have hside : ((1 : UInt8) <<< direction).toNat < 2 ^ 2 := by
    rcases direction_cases hdirection with rfl | rfl <;> decide
  exact Nat.le_of_lt_succ (Nat.or_lt_two_pow (Nat.lt_succ_of_le hmask) hside)

theorem and_or_ne_zero_iff (side : UInt8) :
    (mask ||| other) &&& side ≠ 0 ↔ mask &&& side ≠ 0 ∨ other &&& side ≠ 0 := by
  have hdistrib : (mask ||| other) &&& side = (mask &&& side) ||| (other &&& side) := by
    apply UInt8.toBitVec_inj.mp
    simp only [UInt8.toBitVec_and, UInt8.toBitVec_or]
    ext i
    simp [Bool.and_or_distrib_right]
  rw [hdistrib, Ne, UInt8.or_eq_zero_iff, not_and_or]

/-- The two sides have different bits. -/
theorem eq_of_side_and_side {direction' : UInt8} (h : direction ≤ 1) (h' : direction' ≤ 1)
    (hsame : (1 : UInt8) <<< direction &&& 1 <<< direction' ≠ 0) : direction = direction' := by
  rcases direction_cases h with rfl | rfl <;> rcases direction_cases h' with rfl | rfl
  · rfl
  · exact absurd rfl hsame
  · exact absurd rfl hsame
  · rfl

end Masks

/-- One segment keeps it. The test of an acknowledgement is on the mask before the segment's own FIN;
masks only grow, so it still holds after. -/
theorem Coherent.observe {grace : UInt64} {t : TcpState} (h : Coherent grace t) (hgrace : grace ≠ 0)
    (flags : TcpFlags) {direction : UInt8} (hdirection : direction ≤ 1) {now : UInt64}
    (hlater : t.terminalDeadlineNs ≠ 0 → t.lastUsedNs ≤ now) (hnow : now.toNat + grace.toNat < 2 ^ 64) :
    Coherent grace (t.observe flags direction now (now + grace)) where
  toClosing := h.toClosing.observe hgrace flags hdirection hlater hnow
  acked direction' hdirection' hbit := by
    have hgrows := (grows_observe flags direction now (now + grace) t).seen
    -- what had finished before has finished
    have hkept : t.finSeenMask &&& (1 <<< (direction' ^^^ 1)) ≠ 0 →
        (t.observe flags direction now (now + grace)).finSeenMask &&& (1 <<< (direction' ^^^ 1)) ≠ 0 := by
      intro hseen
      rw [← hgrows]
      exact (and_or_ne_zero_iff _).mpr (.inl hseen)
    apply hkept
    rw [finAckSeenMask_observe] at hbit
    split at hbit
    · rename_i hcounts
      rcases (and_or_ne_zero_iff _).mp hbit with hold | hnew
      · exact h.acked direction' hdirection' hold
      · rw [← eq_of_side_and_side hdirection hdirection' hnew]
        exact hcounts.2
    · exact h.acked direction' hdirection' hbit
  sides := by
    rw [finSeenMask_observe, finAckSeenMask_observe]
    constructor
    · split
      · exact or_side_le hdirection h.sides.1
      · exact h.sides.1
    · split
      · exact or_side_le hdirection h.sides.2
      · exact h.sides.2
  fin := by
    rw [finBit_observe, finSeenMask_observe]
    by_cases hfin : flags.fin = true
    · rw [if_pos hfin, if_pos hfin]
      exact iff_of_true (by decide) (or_side_ne_zero hdirection _)
    · rw [if_neg hfin, if_neg hfin]
      exact h.fin
  ack := by
    rw [ackBit_observe, finAckSeenMask_observe]
    by_cases hcounts : flags.ack = true ∧ t.finSeenMask &&& (1 <<< (direction ^^^ 1)) ≠ 0
    · rw [if_pos hcounts, if_pos hcounts]
      exact iff_of_true (by decide) (or_side_ne_zero hdirection _)
    · rw [if_neg hcounts, if_neg hcounts]
      exact h.ack

/-! ## Runs -/

/-- The lifecycle over segments. -/
def run (grace : UInt64) (t : TcpState) (events : List TcpEvent) : TcpState :=
  events.foldl (fun t event => t.observe (wireFlags event.flags) event.direction event.now
    (event.now + grace)) t

section Runs

variable {grace : UInt64} {t : TcpState} {events : List TcpEvent}

theorem grows_run (grace : UInt64) (t : TcpState) (events : List TcpEvent) :
    Grows t (t.run grace events) := by
  induction events generalizing t with
  | nil => exact .refl t
  | cons event events ih => exact (grows_observe _ _ _ _ t).trans (ih _)

/-- Segments at times that neither run backwards nor overflow keep a lifecycle coherent. The time of the
creation does not matter: no deadline is set by then. -/
theorem Coherent.run (h : Coherent grace t) (hgrace : grace ≠ 0)
    (hdirection : ∀ event ∈ events, event.direction ≤ 1)
    (hlater : ∀ event ∈ events, t.terminalDeadlineNs ≠ 0 → t.lastUsedNs ≤ event.now)
    (htimes : events.Pairwise fun event event' => event.now ≤ event'.now)
    (hnow : ∀ event ∈ events, event.now.toNat + grace.toNat < 2 ^ 64) :
    Coherent grace (t.run grace events) := by
  induction events generalizing t with
  | nil => exact h
  | cons event events ih =>
    rw [List.forall_mem_cons] at hdirection hlater hnow
    rw [List.pairwise_cons] at htimes
    have hstep := h.observe hgrace (wireFlags event.flags) hdirection.1 hlater.1 hnow.1
    refine ih hstep hdirection.2 (fun event' hmem _ => ?_) htimes.2 hnow.2
    rw [lastUsedNs_observe]
    exact htimes.1 event' hmem

theorem run_append (grace : UInt64) (t : TcpState) (events more : List TcpEvent) :
    t.run grace (events ++ more) = (t.run grace events).run grace more :=
  List.foldl_append

end Runs

/-- What holds of the states of a lifecycle, one after each segment. -/
structure Orderly (grace : UInt64) (states : Nat → TcpState) : Prop where
  grows : ∀ m n, m ≤ n → Grows (states m) (states n)
  coherent : ∀ n, Coherent grace (states n)

/-- The states of a new flow. -/
theorem orderly_run {grace : UInt64} (hgrace : grace ≠ 0) (created : UInt64) {events : List TcpEvent}
    (hdirection : ∀ event ∈ events, event.direction ≤ 1)
    (htimes : events.Pairwise fun event event' => event.now ≤ event'.now)
    (hnow : ∀ event ∈ events, event.now.toNat + grace.toNat < 2 ^ 64) :
    Orderly grace fun n => run grace ⟨created, 0, 0, 0, 0⟩ (events.take n) := by
  constructor
  · intro m n hmn
    have hsplit : events.take n = events.take m ++ (events.take n).drop m := by
      conv_lhs => rw [← List.take_append_drop m (events.take n), List.take_take, Nat.min_eq_left hmn]
    show Grows _ (run grace _ (events.take n))
    rw [hsplit, run_append]
    exact grows_run grace _ _
  · intro n
    have hmem : ∀ event ∈ events.take n, event ∈ events := fun _ => List.mem_of_mem_take
    exact (coherent_new grace created).run hgrace (fun event he => hdirection event (hmem event he))
      (fun _ _ hset => absurd rfl hset) (htimes.sublist (List.take_sublist n events))
      (fun event he => hnow event (hmem event he))

end TcpState

/-! ## The two models -/

theorem terminalGrace_ne_zero (config : RuntimeConfigValue) : terminalGrace config ≠ 0 := by
  unfold terminalGrace
  split
  · assumption
  · decide

/-- `runRecord`, of the packet path, runs the lifecycle. -/
theorem tcpStateOf_runRecord {config : RuntimeConfigValue} {record : FlowStateValue}
    (h : record.protocolFlags = 1) (events : List TcpEvent) :
    tcpStateOf (runRecord config record events) =
      (tcpStateOf record).run (terminalGrace config) events := by
  induction events generalizing record with
  | nil => rfl
  | cons event events ih =>
    obtain ⟨record', hrun, h', hstate⟩ := tcpStateOf_runRecord_cons config h event
    rw [hrun, ih h', hstate]
    rfl

/-- `runFlow`, of the control service, runs the lifecycle, while times do not overflow. -/
theorem tcpState_runFlow {graceNs : UInt64} {flow : FlowState} (h : flow.original.protocol = ipprotoTcp)
    {events : List TcpEvent} (hdirection : ∀ event ∈ events, event.direction ≤ 1)
    (hnow : ∀ event ∈ events, event.now.toNat + graceNs.toNat < 2 ^ 64) :
    (runFlow graceNs flow events).tcpState = flow.tcpState.run graceNs events := by
  induction events generalizing flow with
  | nil => rfl
  | cons event events ih =>
    rw [List.forall_mem_cons] at hdirection hnow
    have hguard : ¬ (flow.original.protocol ≠ ipprotoTcp ∨ event.direction > 1) := by
      rintro (hne | hgt)
      · exact hne h
      · exact UInt8.not_le.mpr hgt hdirection.1
    have h' : (flow.observeTcp event.direction (translateFlags event.flags) event.now
        graceNs).original.protocol = ipprotoTcp := by
      rw [original_observeTcp, h]
    refine (ih h' hdirection.2 hnow.2).trans ?_
    rw [tcpState_observeTcp hguard, serviceFlags_translateFlags, saturatingAdd_eq hnow.1]
    rfl

/-- The record of a flow when its creation is over. -/
def createdRecord (packet : PacketInfo) (lookupKey : TupleKey) (target : Address) (targetPort : UInt16)
    (flowId : UInt64) (generation : UInt32) (now : UInt64) : FlowStateValue :=
  { makeCandidate packet lookupKey target targetPort flowId generation now with lifecycle := flowActive }

/-- **The lifecycle of a new TCP flow**, after each segment of every sequence: nothing that was seen is
forgotten, a deadline never moves, and bits, masks and deadline fit together. The control service's model
of the flow has the same invariant under the same grace. -/
theorem tcp_lifecycle_orderly (config : RuntimeConfigValue) (packet : PacketInfo)
    (hprotocol : packet.protocol = ipprotoTcp) (lookupKey : TupleKey) (target : Address)
    (targetPort : UInt16) (flowId : UInt64) (generation : UInt32) (created : UInt64)
    (events : List TcpEvent) (hdirection : ∀ event ∈ events, event.direction ≤ 1)
    (htimes : events.Pairwise fun event event' => event.now ≤ event'.now)
    (hnow : ∀ event ∈ events, event.now.toNat + (terminalGrace config).toNat < 2 ^ 64) :
    TcpState.Orderly (terminalGrace config) (fun n => tcpStateOf (runRecord config
        (createdRecord packet lookupKey target targetPort flowId generation created) (events.take n))) ∧
      ∀ flow : FlowState, flow.original.protocol = ipprotoTcp → flow.tcpState = ⟨created, 0, 0, 0, 0⟩ →
        TcpState.Orderly (terminalGrace config) fun n =>
          (runFlow (terminalGrace config) flow (events.take n)).tcpState := by
  have horderly := TcpState.orderly_run (terminalGrace_ne_zero config) created hdirection htimes hnow
  constructor
  · have hrecord : (createdRecord packet lookupKey target targetPort flowId generation
        created).protocolFlags = 1 := if_pos hprotocol
    have hstates : (fun n => tcpStateOf (runRecord config (createdRecord packet lookupKey target targetPort
        flowId generation created) (events.take n))) =
        fun n => TcpState.run (terminalGrace config) ⟨created, 0, 0, 0, 0⟩ (events.take n) := by
      funext n
      rw [tcpStateOf_runRecord hrecord]
      rfl
    rw [hstates]
    exact horderly
  · intro flow hflow hnew
    have hstates : (fun n => (runFlow (terminalGrace config) flow (events.take n)).tcpState) =
        fun n => TcpState.run (terminalGrace config) ⟨created, 0, 0, 0, 0⟩ (events.take n) := by
      funext n
      have hmem : ∀ event ∈ events.take n, event ∈ events := fun _ => List.mem_of_mem_take
      rw [tcpState_runFlow hflow (fun event he => hdirection event (hmem event he))
        (fun event he => hnow event (hmem event he)), hnew]
    rw [hstates]
    exact horderly

/-- Both sides close; a reset and a late segment follow. -/
def sampleTeardown : List TcpEvent :=
  [⟨0, 0x02, 1⟩, ⟨1, 0x12, 2⟩, ⟨0, 0x11, 3⟩, ⟨1, 0x11, 4⟩, ⟨0, 0x10, 4⟩, ⟨1, 0x14, 9⟩]

/-- Its deadline is set by the fifth segment and stays. -/
theorem tcp_lifecycle_orderly_sample :
    (TcpState.Orderly 5 fun n => tcpStateOf (runRecord { terminalGraceNs := 5 }
      (createdRecord { protocol := ipprotoTcp } {} (ipv4ToMapped (ipv4 10 0 0 3)) 80 1 1 7)
      (sampleTeardown.take n))) ∧
    (tcpStateOf (runRecord { terminalGraceNs := 5 }
      (createdRecord { protocol := ipprotoTcp } {} (ipv4ToMapped (ipv4 10 0 0 3)) 80 1 1 7)
      sampleTeardown)).terminalDeadlineNs = 9 :=
  ⟨(tcp_lifecycle_orderly { terminalGraceNs := 5 } { protocol := ipprotoTcp } rfl {}
    (ipv4ToMapped (ipv4 10 0 0 3)) 80 1 1 7 sampleTeardown (by decide) (by decide) (by decide)).1,
    by decide⟩

end ShadowSocketProxy.ControlService
