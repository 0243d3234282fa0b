import ShadowSocketProxy.Bpf.Classifier

/-! # Footprints of the packet path

Which operations each routine of the packet path may issue. An argument about interleavings cites
these to pass over the routines that do not matter to it. -/

namespace ShadowSocketProxy.Bpf

open Interleaving Interleaving.Program

/-! ## Kinds of operations -/

/-- Operations that change nothing but a counter and read no flow record. `SlotOp`, `GuardOp`,
`AdmitOp` and `CreateOp` contain them, each with the writes of its own routines. -/
inductive ReadOp : Op → Prop
  | lookup {m : MapId} (hm : m ≠ .flowState) (key : m.Key) : ReadOp (.lookup m key)
  | arrayLookup (array : ArrayId) : ReadOp (.arrayLookup array)
  | configLookup : ReadOp .configLookup
  | ktime : ReadOp .ktime
  | activeLoad : ReadOp .activeLoad
  | counterLoad (counter : Counter) : ReadOp (.counterLoad counter)
  | counterCas (counter : Counter) (expected new : UInt64) :
      ReadOp (.counterCas counter expected new)

/-- Operations that reserve and release slots. -/
inductive SlotOp : Op → Prop
  | read {op : Op} (h : ReadOp op) : SlotOp op
  | releasePop : SlotOp .releasePop
  | claim (key : FlowStateKey) : SlotOp (.delete .releasePending key)
  | activeCas (expected new : Nat) : SlotOp (.activeCas expected new)
  | activeAdd : SlotOp .activeAdd
  | activeSub : SlotOp .activeSub
  | reserveSlot : SlotOp .reserveSlot
  | releaseSlot : SlotOp .releaseSlot

/-- Operations of a guard check. -/
inductive GuardOp (key : FlowStateKey) : Op → Prop
  | read {op : Op} (h : ReadOp op) : GuardOp key op
  | abort : GuardOp key (.update .deleteOutcome key flowDeleteAborted .noexist)
  | dropGuard : GuardOp key (.delete .deleteGuard key)

/-- Operations of a packet on its resolved flow. -/
inductive AdmitOp (key : FlowStateKey) : Op → Prop
  | guard {op : Op} (h : GuardOp key op) : AdmitOp key op
  | resolve : AdmitOp key (.lookup .flowState key)
  | inflightAdd (delta : Int) : AdmitOp key (.inflightAdd key delta)
  | stateStore (write : StateUpdate) : AdmitOp key (.stateStore key write)

/-- Operations of the creation of a candidate once its slot is reserved. Records are written under the
identity of the candidate only: the candidate itself is inserted, and activated. -/
inductive CreateOp (candidate : FlowStateValue) : Op → Prop
  | slot {op : Op} (h : SlotOp op) : CreateOp candidate op
  | insertIndex (tuple : TupleKey) (index : FlowIndexValue) :
      CreateOp candidate (.update .flowIndex tuple index .noexist)
  | deleteIndex (tuple : TupleKey) : CreateOp candidate (.delete .flowIndex tuple)
  | insertInflight : CreateOp candidate
      (.update .packetInflight (stateKeyOf candidate.flowId candidate.generation) 0 .noexist)
  | deleteInflight : CreateOp candidate
      (.delete .packetInflight (stateKeyOf candidate.flowId candidate.generation))
  | insertState : CreateOp candidate
      (.update .flowState (stateKeyOf candidate.flowId candidate.generation) candidate .noexist)
  | activateState : CreateOp candidate
      (.update .flowState (stateKeyOf candidate.flowId candidate.generation)
        { candidate with lifecycle := flowActive } .exist)
  | deleteState : CreateOp candidate
      (.delete .flowState (stateKeyOf candidate.flowId candidate.generation))

/-- Operations of the packet path. -/
inductive PacketOp : Op → Prop
  | admission {key : FlowStateKey} {op : Op} (h : AdmitOp key op) : PacketOp op
  | create {candidate : FlowStateValue} {op : Op} (h : CreateOp candidate op) : PacketOp op
  | generationAdd : PacketOp .generationAdd

/-! ## Counters, configuration and slots -/

/-- The attempts of `increment_counter` load and swap the counter only: each is a `ReadOp`. -/
theorem all_incrementCounterLoop (counter : Counter) (attempts : Nat) :
    (incrementCounterLoop counter attempts).All ReadOp := by
  induction attempts with
  | zero => trivial
  | succ attempts ih =>
    simp only [incrementCounterLoop, all_perform_bind, all_ite, ih]
    exact ⟨.counterLoad _, fun _ => ⟨fun _ => trivial, fun _ => ⟨.counterCas _ _ _, by simp⟩⟩⟩

/-- `increment_counter` looks its array up and then swaps: `ReadOp`s only. -/
theorem all_incrementCounter (counter : Counter) : (incrementCounter counter).All ReadOp := by
  simp only [incrementCounter, all_perform_bind, all_ite, all_incrementCounterLoop]
  exact ⟨.arrayLookup _, by simp⟩

/-- `is_control_packet` reads the configuration and nothing else. -/
theorem all_isControlPacket (packet : PacketInfo) (ingress : Bool) :
    (isControlPacket packet ingress).All ReadOp := ⟨.configLookup, fun _ => trivial⟩

/-- `target_for_packet` reads the configuration and nothing else. -/
theorem all_targetForPacket (packet : PacketInfo) : (targetForPacket packet).All ReadOp :=
  ⟨.configLookup, fun _ => trivial⟩

/-- The attempts of `release_flow_slot` load and swap `active_flows`, both `SlotOp`s. -/
theorem all_releaseFlowSlotLoop (attempts : Nat) : (releaseFlowSlotLoop attempts).All SlotOp := by
  induction attempts with
  | zero => trivial
  | succ attempts ih =>
    simp only [releaseFlowSlotLoop, all_perform_bind, all_ite, ih]
    exact ⟨.read .activeLoad, fun _ => ⟨fun _ => trivial, fun _ => ⟨.activeCas _ _, by simp⟩⟩⟩

/-- `release_flow_slot` issues `SlotOp`s only. -/
theorem all_releaseFlowSlot : releaseFlowSlot.All SlotOp := by
  simp only [releaseFlowSlot, all_perform_bind, all_ite, all_releaseFlowSlotLoop]
  exact ⟨.read (.arrayLookup _), by simp⟩

/-- `consume_release` pops a key, claims its pending entry and releases a slot: `SlotOp`s only. -/
theorem all_consumeRelease : consumeRelease.All SlotOp := by
  simp only [consumeRelease, all_perform_bind]
  refine ⟨.releasePop, fun release => ?_⟩
  cases release with
  | none => trivial
  | some key =>
    simp only [all_perform_bind, all_ite, all_releaseFlowSlot]
    exact ⟨.claim key, by simp⟩

/-- `reserve_flow_slot` issues `SlotOp`s only, those of `consume_release` among them. -/
theorem all_reserveFlowSlot : reserveFlowSlot.All SlotOp := by
  simp only [reserveFlowSlot, all_perform_bind, all_ite]
  refine ⟨.read (.arrayLookup _), fun present => ⟨.read .configLookup, fun config => ⟨fun _ => ?_,
    fun _ => trivial⟩⟩⟩
  refine all_consumeRelease.bind fun _ => ?_
  simp only [all_perform_bind, all_ite]
  exact ⟨.activeAdd, fun _ => ⟨fun _ => ⟨.activeSub, fun _ => trivial⟩, fun _ => trivial⟩⟩

/-- Slot routines that keep to slot operations. -/
structure Slots.Proper (slots : Slots) : Prop where
  reserve : slots.reserve.All SlotOp
  release : slots.release.All SlotOp

/-- The routines of the source, `Slots.split`, are `Slots.Proper`. -/
theorem Slots.proper_split : Slots.split.Proper := ⟨all_reserveFlowSlot, all_releaseFlowSlot⟩

/-- The routines in one operation each, `Slots.atomic`, are `Slots.Proper`. -/
theorem Slots.proper_atomic : Slots.atomic.Proper :=
  ⟨⟨.reserveSlot, fun _ => trivial⟩, ⟨.releaseSlot, fun _ => trivial⟩⟩

/-! ## A packet on its resolved flow -/

/-- `deletion_guard_active` reads, aborts an expired guard of `key` and drops it: `GuardOp`s. -/
theorem all_deletionGuardActive (key : FlowStateKey) :
    (deletionGuardActive key).All (GuardOp key) := by
  simp only [deletionGuardActive, all_perform_bind]
  refine ⟨.read (.lookup (by decide) _), fun guard => ⟨.read (.lookup (by decide) _), fun outcome => ?_⟩⟩
  cases outcome with
  | some outcome => simp
  | none =>
    cases guard with
    | none => trivial
    | some deadline =>
      simp only [all_perform_bind, all_ite]
      exact ⟨.read .ktime, fun now => ⟨fun _ => ⟨.abort, fun _ =>
        ⟨fun _ => ⟨.dropGuard, fun _ => trivial⟩,
          fun _ => ⟨.read (.lookup (by decide) _), fun _ => trivial⟩⟩⟩, fun _ => trivial⟩⟩

/-- Leaving again after a refused admission is an `AdmitOp` on `key`. -/
theorem all_backOut (key : FlowStateKey) : (backOut key).All (AdmitOp key) :=
  ⟨.inflightAdd _, fun _ => trivial⟩

/-- `enter_flow_packet` checks the guard twice and counts itself in: `AdmitOp`s on `key`. -/
theorem all_enterFlowPacket (key : FlowStateKey) : (enterFlowPacket key).All (AdmitOp key) := by
  have hguard := (all_deletionGuardActive key).mono fun _ => AdmitOp.guard
  refine hguard.bind fun active => ?_
  simp only [all_ite, all_perform_bind]
  refine ⟨fun _ => trivial, fun _ => ⟨.guard (.read (.lookup (by decide) _)), fun inFlight => ?_⟩⟩
  cases inFlight with
  | none => trivial
  | some count =>
    refine ⟨.inflightAdd _, fun _ => hguard.bind fun active => ?_⟩
    simp only [all_ite, all_backOut, reenterState, all_perform_bind]
    refine ⟨fun _ => trivial, fun _ => ⟨.resolve, fun current => ?_⟩⟩
    cases current with
    | none => exact all_backOut key
    | some state => simp [all_backOut]

/-- `leave_flow_packet` issues `AdmitOp`s on `key` only. -/
theorem all_leaveFlowPacket (key : FlowStateKey) : (leaveFlowPacket key).All (AdmitOp key) := by
  simp only [leaveFlowPacket, all_perform_bind]
  refine ⟨.guard (.read (.lookup (by decide) _)), fun inFlight => ?_⟩
  cases inFlight with
  | none => trivial
  | some count => exact ⟨.inflightAdd _, fun _ => trivial⟩

/-- `update_state` reads the configuration for TCP and stores into the record: `AdmitOp`s on `key`. -/
theorem all_updateState (key : FlowStateKey) (packet : PacketInfo) (ingress : Bool) (now : UInt64) :
    (updateState key packet ingress now).All (AdmitOp key) := by
  simp only [updateState, all_ite, all_perform_bind]
  exact ⟨fun _ => ⟨.guard (.read .configLookup), fun _ => ⟨.stateStore _, fun _ => trivial⟩⟩,
    fun _ => ⟨.stateStore _, fun _ => trivial⟩⟩

/-- From its admission to its leaving a packet issues `AdmitOp`s on the key of its flow. -/
theorem all_admitPacket (frame : List UInt8) (packet : PacketInfo) (ingress : Bool)
    (key : FlowStateKey) : (admitPacket frame packet ingress key).All (AdmitOp key) := by
  refine (all_enterFlowPacket key).bind fun entered => ?_
  cases entered with
  | none => trivial
  | some state =>
    refine ⟨.guard (.read .ktime), fun now => ?_⟩
    exact (all_updateState key packet ingress now).bind fun _ =>
      (all_leaveFlowPacket key).bind fun _ => trivial

/-! ## Creation -/

/-- `delete_owned_index` reads an entry and deletes it: `CreateOp`s of any candidate. -/
theorem all_deleteOwnedIndex (candidate : FlowStateValue) (tuple : TupleKey) (owner : FlowIndexValue) :
    (deleteOwnedIndex tuple owner).All (CreateOp candidate) := by
  simp only [deleteOwnedIndex, all_perform_bind]
  refine ⟨.slot (.read (.lookup (by decide) _)), fun current => ?_⟩
  cases current with
  | none => trivial
  | some current =>
    simp only [all_ite, all_perform_bind]
    exact ⟨fun _ => ⟨.deleteIndex _, fun _ => trivial⟩, fun _ => trivial⟩

/-- The inserts of a creation are `CreateOp`s of its candidate. -/
theorem all_insertEntries (candidate : FlowStateValue) (index : FlowIndexValue) :
    (insertEntries (stateKeyOf candidate.flowId candidate.generation) candidate index).All
      (CreateOp candidate) := by
  simp only [insertEntries, all_perform_bind, all_ite, all_perform]
  exact ⟨.insertIndex _ _, fun _ => ⟨fun _ => ⟨.insertIndex _ _, fun _ => ⟨fun _ =>
    ⟨.insertIndex _ _, fun _ => ⟨fun _ => .insertInflight, fun _ => trivial⟩⟩, fun _ => trivial⟩⟩,
    fun _ => trivial⟩⟩

/-- The rollback of a creation, its slot included, issues `CreateOp`s of its candidate. -/
theorem all_rollBack {slots : Slots} (hslots : slots.Proper) (candidate : FlowStateValue)
    (index : FlowIndexValue) :
    (rollBack slots (stateKeyOf candidate.flowId candidate.generation) candidate index).All
      (CreateOp candidate) := by
  refine (all_deleteOwnedIndex _ _ _).bind fun _ => (all_deleteOwnedIndex _ _ _).bind fun _ =>
    (all_deleteOwnedIndex _ _ _).bind fun _ => ⟨.deleteInflight, fun _ => ⟨.deleteState, fun _ => ?_⟩⟩
  exact hslots.release.mono fun _ => CreateOp.slot

/-- A dropped creation counts itself, by `ReadOp`s. -/
theorem all_dropCreation : dropCreation.All ReadOp :=
  (all_incrementCounter _).bind fun _ => trivial

/-- The second look at the index issues `ReadOp`s only. -/
theorem all_resolveAgain (tuple : TupleKey) : (resolveAgain tuple).All ReadOp := by
  simp only [resolveAgain, all_perform_bind]
  refine ⟨.lookup (by decide) _, fun index => ?_⟩
  cases index with
  | none => exact all_dropCreation
  | some index => trivial

/-- The creation after its reservation, activated or rolled back, issues `CreateOp`s of its candidate.
-/
theorem all_insertFlow {slots : Slots} (hslots : slots.Proper) (candidate : FlowStateValue) :
    (insertFlow slots candidate).All (CreateOp candidate) := by
  have hread : ∀ {β : Type} {p : Prog β}, p.All ReadOp → p.All (CreateOp candidate) :=
    fun hp => hp.mono fun _ h => .slot (.read h)
  simp only [insertFlow, activate, all_perform_bind, all_ite]
  refine ⟨.insertState, fun inserted => ⟨fun _ => ?_, fun _ => ?_⟩⟩
  · refine (all_insertEntries _ _).bind fun indexed => ?_
    simp only [all_ite, all_perform_bind]
    refine ⟨fun _ => ⟨.activateState, fun _ => ⟨fun _ => trivial, fun _ => ?_⟩⟩, fun _ => ?_⟩
    · exact (all_rollBack hslots _ _).bind fun _ => hread all_dropCreation
    · exact (all_rollBack hslots _ _).bind fun _ => hread (all_resolveAgain _)
  · exact (hslots.release.mono fun _ => CreateOp.slot).bind fun _ => hread (all_resolveAgain _)

/-! ## Processing -/

/-- A `ReadOp` is an operation of the packet path. -/
theorem PacketOp.read {op : Op} (h : ReadOp op) : PacketOp op :=
  .create (CreateOp.slot (.read h) : CreateOp {} op)

/-- A `SlotOp` is an operation of the packet path, as part of a creation. -/
theorem PacketOp.slot {op : Op} (h : SlotOp op) : PacketOp op :=
  .create (CreateOp.slot h : CreateOp {} op)

/-- `create_flow` toward a known target issues `PacketOp`s only. -/
theorem allPacket_createToward {slots : Slots} (hslots : slots.Proper) (packet : PacketInfo)
    (lookupKey : TupleKey) (target : Address) (targetPort : UInt16) :
    (createToward slots packet lookupKey target targetPort).All PacketOp := by
  simp only [createToward, all_perform_bind, all_ite]
  refine ⟨.read (.arrayLookup _), fun _ => ⟨fun _ => ⟨.read (.arrayLookup _), fun _ => ⟨fun _ =>
    ⟨.generationAdd, fun previous => ⟨.read .ktime, fun now =>
      (hslots.reserve.mono fun _ => .slot).bind fun reserved => ?_⟩⟩, fun _ => trivial⟩⟩,
        fun _ => trivial⟩⟩
  simp only [all_ite]
  exact ⟨fun _ => (all_insertFlow hslots _).mono fun _ => .create,
    fun _ => all_dropCreation.mono fun _ => .read⟩

/-- A packet on a resolved index entry issues `PacketOp`s only. -/
theorem allPacket_processResolved (frame : List UInt8) (packet : PacketInfo) (ingress : Bool)
    (index : FlowIndexValue) : (processResolved frame packet ingress index).All PacketOp := by
  simp only [processResolved, all_perform_bind]
  refine ⟨.admission .resolve, fun state => ?_⟩
  cases state with
  | none => trivial
  | some state =>
    dsimp only
    split
    · exact (all_admitPacket frame packet ingress _).mono fun _ => .admission
    · trivial

/-- `process_packet` issues `PacketOp`s only, for `Slots.Proper` slot routines. -/
theorem allPacket_processPacket {slots : Slots} (hslots : slots.Proper) (frame : List UInt8)
    (ingress : Bool) : (processPacket slots frame ingress).All PacketOp := by
  unfold processPacket
  cases parsePacket frame with
  | none => trivial
  | some packet =>
    refine ((all_isControlPacket packet ingress).mono fun _ => .read).bind fun control => ?_
    cases control with
    | true => exact ((all_incrementCounter _).mono fun _ => .read).bind fun _ => trivial
    | false =>
      refine All.bind ?_ fun resolution => ?_
      · simp only [resolvePacket, all_perform_bind]
        refine ⟨.read (.lookup (by decide) _), fun index => ?_⟩
        cases index with
        | some index => trivial
        | none =>
          cases ingress with
          | false => trivial
          | true =>
            refine ((all_targetForPacket packet).mono fun _ => .read).bind fun target => ?_
            cases target with
            | none => exact ((all_incrementCounter _).mono fun _ => .read).bind fun _ => trivial
            | some target => exact allPacket_createToward hslots packet _ target.1 target.2
      · cases resolution with
        | verdict action => trivial
        | index index => exact allPacket_processResolved frame packet ingress index

/-- The packet path writes no configuration. -/
theorem PacketOp.ne_hostSetConfig {op : Op} (h : PacketOp op) (value : List UInt8) :
    op ≠ .hostSetConfig value := by
  rintro rfl
  cases h with
  | admission h =>
    cases h with
    | guard h =>
      cases h with
      | read h => cases h
  | create h =>
    cases h with
    | slot h =>
      cases h with
      | read h => cases h

end ShadowSocketProxy.Bpf
