import ShadowSocketProxy.Bpf.Footprint
import ShadowSocketProxy.ControlService.Lookup

/-! # The codecs of the flow maps

What the control service encodes it decodes again, and the keys that the packet path writes are the
keys that the control service encodes for their tuples. A deletion can therefore find the indexes of a
record from the decoded record. -/

namespace ShadowSocketProxy.ControlService

open Bytes Bpf Interleaving Alone
open Interleaving.Program (All AllSome Path all_ite all_perform all_perform_bind)

variable {state : FlowState} {op : Op} {packet : PacketInfo}

/-! ## Flow states -/

/-- The 256 bytes of a flow state. -/
def encodeFlowState (state : FlowState) : List UInt8 :=
  encodeKey state.original ++ encodeKey state.target ++ encodeKey state.reverse ++
    leBytes 8 state.lastUsedNs.toNat ++ leBytes 4 state.protocolFlags.toNat ++
    leBytes 4 state.tcpStateFlags.toNat ++
    [state.finSeenMask, state.finAckSeenMask, state.lifecycle.toUInt8, 0] ++
    leBytes 8 state.terminalDeadlineNs.toNat ++ leBytes 8 state.flowId.toNat ++
    leBytes 4 state.generation.toNat ++ List.replicate 96 0

/-- The record of a flow state. -/
def recordOf (state : FlowState) : FlowStateValue where
  original := tupleKeyOf state.original
  target := tupleKeyOf state.target
  reverse := tupleKeyOf state.reverse
  lastUsedNs := state.lastUsedNs
  protocolFlags := state.protocolFlags
  tcpStateFlags := state.tcpStateFlags
  finSeenMask := state.finSeenMask
  finAckSeenMask := state.finAckSeenMask
  lifecycle := state.lifecycle.toUInt8
  terminalDeadlineNs := state.terminalDeadlineNs
  flowId := state.flowId
  generation := state.generation

/-- The tuples of a valid flow state have one family each. -/
theorem FlowState.isIpv4_of_validate (h : state.validate = .ok ()) :
    state.original.source.isIpv4 = state.original.destination.isIpv4 ∧
      state.target.source.isIpv4 = state.target.destination.isIpv4 ∧
      state.reverse.source.isIpv4 = state.reverse.destination.isIpv4 := by
  rw [FlowState.validate] at h
  obtain ⟨_, horiginal, h⟩ := bind_eq_ok.mp h
  obtain ⟨_, htarget, h⟩ := bind_eq_ok.mp h
  obtain ⟨_, hreverse, -⟩ := bind_eq_ok.mp h
  exact ⟨Tuple.isIpv4_of_validate horiginal, Tuple.isIpv4_of_validate htarget,
    Tuple.isIpv4_of_validate hreverse⟩

theorem ofUInt8_toUInt8 (lifecycle : FlowLifecycle) :
    FlowLifecycle.ofUInt8 lifecycle.toUInt8 = .ok lifecycle := by
  cases lifecycle <;> rfl

/-- A valid flow state is written as its record. -/
theorem encodeFlowState_eq (h : state.validate = .ok ()) :
    encodeFlowState state = (recordOf state).pack := by
  obtain ⟨horiginal, htarget, hreverse⟩ := FlowState.isIpv4_of_validate h
  rw [encodeFlowState, encodeKey_eq horiginal, encodeKey_eq htarget, encodeKey_eq hreverse]
  rfl

/-- A valid flow state comes through its bytes. -/
theorem decodeFlowState_encodeFlowState (h : state.validate = .ok ()) :
    decodeFlowState (encodeFlowState state) = .ok state := by
  obtain ⟨horiginal, htarget, hreverse⟩ := FlowState.isIpv4_of_validate h
  obtain ⟨hcanonical, htuple⟩ := canonical_tupleKeyOf horiginal
  obtain ⟨hcanonical', htuple'⟩ := canonical_tupleKeyOf htarget
  obtain ⟨hcanonical'', htuple''⟩ := canonical_tupleKeyOf hreverse
  have hstate : flowStateOf (recordOf state) state.lifecycle = state := by
    simp only [flowStateOf, recordOf, htuple, htuple', htuple'']
  have hlifecycle : FlowLifecycle.ofUInt8 (recordOf state).lifecycle = .ok state.lifecycle :=
    ofUInt8_toUInt8 state.lifecycle
  rw [encodeFlowState_eq h, decodeFlowState_pack hcanonical.toVersioned hcanonical'.toVersioned
    hcanonical''.toVersioned, hlifecycle]
  show ((flowStateOf (recordOf state) state.lifecycle).validate >>= fun _ =>
    pure (flowStateOf (recordOf state) state.lifecycle)) = _
  rw [hstate, h]
  rfl

/-- Tuples of one family each have different keys. -/
theorem encodeKey_injective {t t' : Tuple} (h : t.source.isIpv4 = t.destination.isIpv4)
    (h' : t'.source.isIpv4 = t'.destination.isIpv4) (hkeys : encodeKey t = encodeKey t') : t = t' := by
  have hdecoded := congrArg decodeKey hkeys
  rw [decodeKey_encodeKey h, decodeKey_encodeKey h'] at hdecoded
  exact Except.ok.inj hdecoded

/-! ## Keys of the packet path -/

/-- The record of one creation, with the keys the packet path makes. -/
structure Creation where
  candidate : FlowStateValue
  canonical : ∀ t ∈ tuplesOf candidate, Canonical t

/-- The indexes and records that an operation writes are those of one creation. -/
structure Creation.Writes (creation : Creation) (op : Op) : Prop where
  index : ∀ key value flag, op = .update .flowIndex key value flag →
    key ∈ tuplesOf creation.candidate ∧ value = ownerOf creation.candidate
  state : ∀ key record flag, op = .update .flowState key record flag →
    key = keyOf creation.candidate ∧ tuplesOf record = tuplesOf creation.candidate

/-- An operation that writes no index and no record. -/
def Neutral (op : Op) : Prop := ∀ creation : Creation, creation.Writes op

theorem neutral_of_slotOp (h : SlotOp op) : Neutral op := by
  intro creation
  constructor <;> rintro key value flag rfl <;> cases h with | read h => cases h

theorem neutral_of_readOp (h : ReadOp op) : Neutral op := neutral_of_slotOp (.read h)

theorem neutral_of_admitOp {key : FlowStateKey} (h : AdmitOp key op) : Neutral op := by
  intro creation
  constructor <;> rintro key value flag rfl <;> cases h with
  | guard h => cases h with | read h => cases h

theorem neutral_delete {m : MapId} (key : m.Key) : Neutral (.delete m key) := by
  intro creation
  constructor <;> rintro key value flag h <;> cases h

variable {slots : Slots}

theorem neutral_deleteOwnedIndex (tuple : TupleKey) (owner : Bpf.FlowIndexValue) :
    (deleteOwnedIndex tuple owner).All Neutral := by
  simp only [deleteOwnedIndex, all_perform_bind]
  refine ⟨neutral_of_readOp (.lookup (by decide) _), fun current => ?_⟩
  cases current with
  | none => trivial
  | some current =>
    simp only [all_ite, all_perform_bind]
    exact ⟨fun _ => ⟨neutral_delete _, fun _ => trivial⟩, fun _ => trivial⟩

theorem neutral_rollBack (hslots : slots.Proper) (key : FlowStateKey) (candidate : FlowStateValue)
    (index : Bpf.FlowIndexValue) : (rollBack slots key candidate index).All Neutral := by
  refine (neutral_deleteOwnedIndex _ _).bind fun _ => (neutral_deleteOwnedIndex _ _).bind fun _ =>
    (neutral_deleteOwnedIndex _ _).bind fun _ =>
      ⟨neutral_delete _, fun _ => ⟨neutral_delete _, fun _ => ?_⟩⟩
  exact hslots.release.mono fun _ => neutral_of_slotOp

/-- The inserts of a creation write its own keys. -/
theorem writes_insertFlow (hslots : slots.Proper) (creation : Creation) :
    (insertFlow slots creation.candidate).All creation.Writes := by
  have hread : ∀ {β : Type} {p : Prog β}, p.All ReadOp → p.All creation.Writes :=
    fun hp => hp.mono fun _ h => neutral_of_readOp h creation
  have hrollBack : (rollBack slots (keyOf creation.candidate) creation.candidate
      (ownerOf creation.candidate)).All creation.Writes :=
    (neutral_rollBack hslots _ _ _).mono fun _ h => h creation
  have hindex : ∀ t ∈ tuplesOf creation.candidate,
      creation.Writes (.update .flowIndex t (ownerOf creation.candidate) .noexist) := by
    intro t ht
    constructor
    · rintro key value flag ⟨⟩
      exact ⟨ht, rfl⟩
    · rintro key value flag h
      cases h
  have hstate : ∀ record flag, tuplesOf record = tuplesOf creation.candidate →
      creation.Writes (.update .flowState (keyOf creation.candidate) record flag) := by
    intro record flag htuples
    constructor
    · rintro key value flag h
      cases h
    · rintro key record flag ⟨⟩
      exact ⟨rfl, htuples⟩
  have hcount : creation.Writes (.update .packetInflight (keyOf creation.candidate) 0 .noexist) := by
    constructor <;> rintro key value flag h <;> cases h
  simp only [insertFlow, activate, insertEntries, all_perform_bind, all_ite]
  refine ⟨hstate _ _ rfl, fun inserted => ⟨fun _ => ?_, fun _ => ?_⟩⟩
  · refine All.bind ?_ fun indexed => ?_
    · simp only [all_perform_bind, all_ite, all_perform]
      exact ⟨hindex _ (by simp [tuplesOf]), fun _ => ⟨fun _ => ⟨hindex _ (by simp [tuplesOf]), fun _ =>
        ⟨fun _ => ⟨hindex _ (by simp [tuplesOf]), fun _ => ⟨fun _ => hcount, fun _ => trivial⟩⟩,
          fun _ => trivial⟩⟩, fun _ => trivial⟩⟩
    · simp only [all_ite, all_perform_bind]
      refine ⟨fun _ => ⟨hstate _ _ rfl, fun _ => ⟨fun _ => trivial, fun _ => ?_⟩⟩, fun _ => ?_⟩
      · exact hrollBack.bind fun _ => hread all_dropCreation
      · exact hrollBack.bind fun _ => hread (all_resolveAgain _)
  · exact (hslots.release.mono fun _ h => neutral_of_slotOp h creation).bind fun _ =>
      hread (all_resolveAgain _)

/-- The creation of a parsed packet towards a target of its family. -/
def creationOf {packet : PacketInfo} (hparsed : Parsed packet) (target : Address)
    (htarget : packet.family = 4 → ∃ a, target = ipv4ToMapped a) (targetPort : UInt16)
    (flowId : UInt64) (generation : UInt32) (now : UInt64) : Creation where
  candidate := makeCandidate packet (packetKey packet) target targetPort flowId generation now
  canonical t ht := by
    simp only [tuplesOf, makeCandidate, List.mem_cons, List.not_mem_nil, or_false] at ht
    rcases ht with rfl | rfl | rfl
    · exact ⟨⟨rfl, hparsed.family⟩, hparsed.source, hparsed.destination⟩
    · exact ⟨⟨rfl, hparsed.family⟩, hparsed.source, htarget⟩
    · exact ⟨⟨rfl, hparsed.family⟩, htarget, hparsed.source⟩

theorem allSome_createToward (hslots : slots.Proper) (hparsed : Parsed packet) {target : Address}
    (htarget : packet.family = 4 → ∃ a, target = ipv4ToMapped a) (targetPort : UInt16) :
    AllSome Creation.Writes (createToward slots packet (packetKey packet) target targetPort) := by
  have fallback := creationOf hparsed target htarget targetPort 0 0 0
  have hread : ∀ {op : Op}, ReadOp op → (perform op : Prog _).All Neutral :=
    fun h => ⟨neutral_of_readOp h, fun _ => trivial⟩
  have hstop : AllSome Creation.Writes (pure (.verdict .shot) : Prog Resolution) :=
    .of_all (c := fallback) trivial
  have hdraw : (perform .generationAdd : Prog _).All Neutral := by
    refine ⟨fun creation => ?_, fun _ => trivial⟩
    constructor <;> rintro key value flag h <;> cases h
  refine AllSome.bind fallback (hread (.arrayLookup _)) fun scratch => ?_
  cases scratch with
  | false => exact hstop
  | true =>
    refine AllSome.bind fallback (hread (.arrayLookup _)) fun counter => ?_
    cases counter with
    | false => exact hstop
    | true =>
      refine AllSome.bind fallback hdraw fun previous =>
        AllSome.bind fallback (hread .ktime) fun now =>
          AllSome.bind fallback (hslots.reserve.mono fun _ => neutral_of_slotOp) fun reserved => ?_
      cases reserved with
      | false =>
        exact .of_all (c := fallback) (all_dropCreation.mono fun _ h => neutral_of_readOp h _)
      | true => exact .of_all (writes_insertFlow hslots (creationOf hparsed target htarget
          targetPort (tupleHash (packetKey packet)) (drawGeneration previous) now))

theorem allSome_createFlow (hslots : slots.Proper) (hparsed : Parsed packet) :
    AllSome Creation.Writes (createFlow slots packet (packetKey packet)) := by
  have fallback := creationOf hparsed packet.destination hparsed.destination 0 0 0 0
  show AllSome Creation.Writes (perform .configLookup >>= _)
  refine AllSome.bind fallback ⟨neutral_of_readOp .configLookup, fun _ => trivial⟩ fun config => ?_
  cases htarget : config.bind fun config => config.targetFor packet with
  | none =>
    have hmiss := (all_incrementCounter .targetMiss).mono fun _ h => neutral_of_readOp h fallback
    exact .of_all (c := fallback) (hmiss.bind fun _ => trivial)
  | some target =>
    -- the target of a configuration has the family of the packet
    obtain ⟨config, -, htarget⟩ := Option.bind_eq_some_iff.mp htarget
    obtain ⟨-, hmapped, -⟩ := usable_of_targetFor htarget
    refine allSome_createToward hslots hparsed (fun hfamily => ?_) target.2
    obtain ⟨a, ha, -⟩ := hmapped hfamily
    exact ⟨a, ha⟩

theorem neutral_processResolved (frame : List UInt8) (packet : PacketInfo) (ingress : Bool)
    (index : Bpf.FlowIndexValue) : (processResolved frame packet ingress index).All Neutral := by
  simp only [processResolved, all_perform_bind]
  refine ⟨neutral_of_admitOp .resolve, fun state => ?_⟩
  cases state with
  | none => trivial
  | some state =>
    dsimp only
    split
    · exact (all_admitPacket frame packet ingress _).mono fun _ => neutral_of_admitOp
    · trivial

/-- Every path of a packet writes the keys of one creation. -/
theorem allSome_processPacket (hslots : slots.Proper) {frame : List UInt8}
    (hparse : parsePacket frame = some packet) (ingress : Bool) :
    AllSome Creation.Writes (processPacket slots frame ingress) := by
  have hparsed := parsed_of_parsePacket hparse
  have fallback := creationOf hparsed packet.destination hparsed.destination 0 0 0 0
  have hpure : ∀ {β : Type} (value : β), AllSome Creation.Writes (pure value : Prog β) :=
    fun value => .of_all (c := fallback) trivial
  unfold processPacket
  rw [hparse]
  refine AllSome.bind fallback ((all_isControlPacket packet ingress).mono fun _ => neutral_of_readOp)
    fun control => ?_
  cases control with
  | true =>
    have hbypass := (all_incrementCounter .controlBypass).mono fun _ h => neutral_of_readOp h fallback
    exact .of_all (c := fallback) (hbypass.bind fun _ => trivial)
  | false =>
    refine AllSome.bind_all ?_ fun resolution => ?_
    · refine AllSome.bind fallback (p := perform (.lookup .flowIndex (packetKey packet)))
        ⟨neutral_of_readOp (.lookup (by decide) _), fun _ => trivial⟩ fun index => ?_
      cases index with
      | some index => exact hpure _
      | none =>
        cases ingress with
        | false => exact hpure _
        | true => exact allSome_createFlow hslots hparsed
    · cases resolution with
      | verdict action => trivial
      | index index => exact neutral_processResolved frame packet ingress index

/-! ## The codecs agree -/

/-- The keys that the control service encodes for a decoded record are the keys of the record. -/
theorem encodeKey_of_decodeFlowState {record : FlowStateValue}
    (hcanonical : ∀ t ∈ tuplesOf record, Canonical t)
    (h : decodeFlowState record.pack = .ok state) :
    [encodeKey state.original, encodeKey state.target, encodeKey state.reverse] =
      (tuplesOf record).map TupleKey.pack := by
  have horiginal := hcanonical record.original (by simp [tuplesOf])
  have htarget := hcanonical record.target (by simp [tuplesOf])
  have hreverse := hcanonical record.reverse (by simp [tuplesOf])
  rw [decodeFlowState_pack horiginal.toVersioned htarget.toVersioned hreverse.toVersioned] at h
  obtain ⟨lifecycle, -, h⟩ := bind_eq_ok.mp h
  obtain ⟨_, -, h⟩ := bind_eq_ok.mp h
  rw [← Except.ok.inj h, flowStateOf]
  simp only [encodeKey_tupleOf horiginal, encodeKey_tupleOf htarget, encodeKey_tupleOf hreverse,
    tuplesOf, List.map_cons, List.map_nil]

/-- Flow states, mappings and keys come through their bytes; the keys a packet writes are those that
the control service encodes, and those of the decoded record are all the keys written for it. -/
theorem codecs_faithful :
    (∀ state : FlowState, state.validate = .ok () →
      decodeFlowState (encodeFlowState state) = .ok state) ∧
    (∀ mapping : Mapping,
      mapping.synthetic.source.isIpv4 = mapping.synthetic.destination.isIpv4 →
      mapping.original.source.isIpv4 = mapping.original.destination.isIpv4 →
        decodeValue (encodeKey mapping.synthetic) (encodeValue mapping) = .ok mapping) ∧
    (∀ t t' : Tuple, t.source.isIpv4 = t.destination.isIpv4 →
      t'.source.isIpv4 = t'.destination.isIpv4 → encodeKey t = encodeKey t' → t = t') ∧
    ∀ frame packet ingress answers rest, parsePacket frame = some packet →
      Path (processPacket Slots.split frame ingress) answers rest →
        (∀ answer ∈ answers, ∀ key value flag, answer.1 = .update .flowIndex key value flag →
          ∃ t, decodeKey key.pack = .ok t ∧ encodeKey t = key.pack) ∧
        ∀ answer ∈ answers, ∀ stateKey record flag,
          answer.1 = .update .flowState stateKey record flag →
          ∀ state, decodeFlowState record.pack = .ok state →
            [encodeKey state.original, encodeKey state.target, encodeKey state.reverse] =
              (tuplesOf record).map TupleKey.pack ∧
            ∀ answer' ∈ answers, ∀ key value flag', answer'.1 = .update .flowIndex key value flag' →
              key.pack ∈ [encodeKey state.original, encodeKey state.target,
                encodeKey state.reverse] := by
  refine ⟨fun _ => decodeFlowState_encodeFlowState, fun _ => decodeValue_encodeValue,
    fun _ _ => encodeKey_injective, fun frame packet ingress answers rest hparse hpath => ?_⟩
  obtain ⟨creation, hwrites⟩ :=
    allSome_processPacket Slots.proper_split hparse ingress answers rest hpath
  refine ⟨fun answer hanswer key value flag hop => ?_,
    fun answer hanswer stateKey record flag hop state hdecode => ?_⟩
  · have hcanonical := creation.canonical key ((hwrites answer hanswer).index key value flag hop).1
    exact ⟨tupleOf key, decodeKey_pack hcanonical.toVersioned, encodeKey_tupleOf hcanonical⟩
  · have htuples := ((hwrites answer hanswer).state stateKey record flag hop).2
    have hkeys := encodeKey_of_decodeFlowState (fun t ht => creation.canonical t (htuples ▸ ht)) hdecode
    refine ⟨hkeys, fun answer' hanswer' key value flag' hop' => ?_⟩
    rw [hkeys, htuples]
    exact List.mem_map_of_mem ((hwrites answer' hanswer').index key value flag' hop').1

end ShadowSocketProxy.ControlService
