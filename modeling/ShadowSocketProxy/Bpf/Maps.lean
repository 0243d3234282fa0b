import ShadowSocketProxy.Interleaving.Sequential
import ShadowSocketProxy.Data.Table
import ShadowSocketProxy.Bpf.Packet
import Mathlib.Logic.Function.Basic

/-! # The shared maps

The BPF maps that the classifiers and the control service share, and the atomic operations on them.
Each kernel map operation, each atomic instruction through a map pointer and each map call of the
host is one operation. What the kernel leaves open (whether an allocation fails, the clock, how the
removal of an absent key is reported) is an environment choice. -/

namespace ShadowSocketProxy.Bpf

open Interleaving

/-! ## Contents -/

/-- The hash maps. -/
inductive MapId where
  /-- `ssp_flow_index_v1`. -/
  | flowIndex
  /-- `ssp_flow_state_v1`. -/
  | flowState
  /-- `ssp_tc_active_flow_release_pending_v1`. -/
  | releasePending
  /-- `ssp_flow_delete_guard_v1`. -/
  | deleteGuard
  /-- `ssp_flow_delete_outcome_v1`. -/
  | deleteOutcome
  /-- `ssp_flow_packet_inflight_v1`. -/
  | packetInflight
  deriving DecidableEq

/-- The keys of a map. -/
@[reducible] def MapId.Key : MapId → Type
  | .flowIndex => TupleKey
  | .flowState => FlowStateKey
  | .releasePending => FlowStateKey
  | .deleteGuard => FlowStateKey
  | .deleteOutcome => FlowStateKey
  | .packetInflight => FlowStateKey

/-- The values of a map. The in-flight count is a whole number: it stands for the number of packets
inside one flow, which does not come near the 64 bits of its field. -/
@[reducible] def MapId.Val : MapId → Type
  | .flowIndex => FlowIndexValue
  | .flowState => FlowStateValue
  | .releasePending => UInt32
  | .deleteGuard => UInt64
  | .deleteOutcome => UInt32
  | .packetInflight => Int

instance MapId.decidableEqKey : (m : MapId) → DecidableEq m.Key
  | .flowIndex => inferInstanceAs (DecidableEq TupleKey)
  | .flowState => inferInstanceAs (DecidableEq FlowStateKey)
  | .releasePending => inferInstanceAs (DecidableEq FlowStateKey)
  | .deleteGuard => inferInstanceAs (DecidableEq FlowStateKey)
  | .deleteOutcome => inferInstanceAs (DecidableEq FlowStateKey)
  | .packetInflight => inferInstanceAs (DecidableEq FlowStateKey)

/-- The array maps of which the classifiers use one element. -/
inductive ArrayId where
  /-- `ssp_tc_scratch_v1`. -/
  | scratch
  /-- `ssp_flow_generation_v1`. -/
  | generation
  /-- `ssp_tc_active_flows_v1`. -/
  | activeFlows
  /-- `ssp_tc_counters_v1`. -/
  | counters

/-- The slots of `ssp_tc_counters_v1`. -/
inductive Counter where
  /-- Slot 0: no usable target. -/
  | targetMiss
  /-- Slot 1: a flow could not be created. -/
  | insertFailure
  /-- Slot 2: control traffic passed by. -/
  | controlBypass
  deriving DecidableEq

/-- The contents of all shared maps. -/
structure Maps where
  /-- The hash maps. -/
  tables : (m : MapId) → Table m.Key m.Val
  /-- `ssp_runtime_config_v3`. -/
  runtimeConfig : RuntimeConfigValue
  /-- `ssp_tc_counters_v1`. -/
  counters : Counter → UInt64
  /-- `ssp_tc_active_flows_v1`. -/
  activeFlows : Nat
  /-- `ssp_tc_active_flow_releases_v1`, the next element to pop first. -/
  releases : List FlowStateKey
  /-- `ssp_flow_generation_v1`. -/
  generation : UInt64

namespace Maps

/-- The maps right after loading, with a configuration. -/
def initial (config : RuntimeConfigValue) : Maps where
  tables _ := Table.empty
  runtimeConfig := config
  counters _ := 0
  activeFlows := 0
  releases := []
  generation := 0

/-- The value at a key of a hash map. -/
def find (s : Maps) (m : MapId) (key : m.Key) : Option m.Val := (s.tables m).find? key

/-- The number of entries of a hash map. -/
def size (s : Maps) (m : MapId) : Nat := (s.tables m).size

/-- Set the value at a key of a hash map. -/
def put (s : Maps) (m : MapId) (key : m.Key) (value : m.Val) : Maps :=
  { s with tables := Function.update s.tables m ((s.tables m).insert key value) }

/-- Remove a key of a hash map. -/
def remove (s : Maps) (m : MapId) (key : m.Key) : Maps :=
  { s with tables := Function.update s.tables m ((s.tables m).erase key) }

section Lemmas

variable (s : Maps) (m : MapId) (key : m.Key) (value : m.Val) {m' : MapId}

theorem find_put (key' : m.Key) :
    (s.put m key value).find m key' = if key' = key then some value else s.find m key' := by
  simp only [find, put, Function.update_self, Table.find?_insert]

theorem find_remove (key' : m.Key) :
    (s.remove m key).find m key' = if key' = key then none else s.find m key' := by
  simp only [find, remove, Function.update_self, Table.find?_erase]

@[simp] theorem find_put_self : (s.put m key value).find m key = some value := by
  rw [find_put, if_pos rfl]

@[simp] theorem find_remove_self : (s.remove m key).find m key = none := by
  rw [find_remove, if_pos rfl]

variable {m} in
@[simp] theorem find_put_of_ne (h : m' ≠ m) (key' : m'.Key) :
    (s.put m key value).find m' key' = s.find m' key' := by
  simp only [find, put, Function.update_of_ne h]

variable {m} in
@[simp] theorem find_remove_of_ne (h : m' ≠ m) (key' : m'.Key) :
    (s.remove m key).find m' key' = s.find m' key' := by
  simp only [find, remove, Function.update_of_ne h]

variable {m} in
@[simp] theorem size_put_of_ne (h : m' ≠ m) : (s.put m key value).size m' = s.size m' := by
  simp only [size, put, Function.update_of_ne h]

variable {m} in
@[simp] theorem size_remove_of_ne (h : m' ≠ m) : (s.remove m key).size m' = s.size m' := by
  simp only [size, remove, Function.update_of_ne h]

variable {s m key value}

/-- Inserting a new key adds one entry. -/
theorem size_put_of_none (h : s.find m key = none) :
    (s.put m key value).size m = s.size m + 1 := by
  simp only [size, put, Function.update_self]
  exact Table.size_insert_of_none h

/-- Replacing a value keeps the number of entries. -/
theorem size_put_of_some {value' : m.Val} (h : s.find m key = some value') :
    (s.put m key value).size m = s.size m := by
  simp only [size, put, Function.update_self]
  exact Table.size_insert_of_some h

/-- Removing a present key removes one entry. -/
theorem size_remove_of_some (h : s.find m key = some value) :
    (s.remove m key).size m + 1 = s.size m := by
  simp only [size, remove, Function.update_self]
  exact Table.size_erase_of_some h

end Lemmas

/-- `release_flow_slot` without interference. -/
def releaseFlowSlot (s : Maps) : Maps := { s with activeFlows := s.activeFlows - 1 }

/-- Consume one host release, if there is one: its slot is released when its journal entry is still
there. -/
def consumeRelease (s : Maps) : Maps :=
  match s.releases with
  | [] => s
  | release :: rest =>
    let s := { s with releases := rest }
    match s.find .releasePending release with
    | none => s
    | some _ => (s.remove .releasePending release).releaseFlowSlot

/-- `reserve_flow_slot` without interference. -/
def reserveFlowSlot (s : Maps) : Bool × Maps :=
  let s := s.consumeRelease
  let capacity := s.runtimeConfig.activeFlowCapacity
  if capacity ≠ 0 ∧ capacity.toNat ≤ s.activeFlows then (false, s)
  else (true, { s with activeFlows := s.activeFlows + 1 })

end Maps

/-! ## Updates of a record in place -/

/-- TCP wire flags and internal state bits. -/
def tcpFlagFin : UInt8 := 0x01
def tcpFlagSyn : UInt8 := 0x02
def tcpFlagRst : UInt8 := 0x04
def tcpFlagAck : UInt8 := 0x10
def tcpSynBit : UInt32 := 1
def tcpSynAckBit : UInt32 := 2
def tcpAckBit : UInt32 := 4
def tcpFinBit : UInt32 := 8
def tcpRstBit : UInt32 := 16

/-- The in-place part of `update_tcp_state`; `grace` is what the function read of the
configuration. -/
def updateTcpState (grace : UInt64) (direction flags : UInt8) (now : UInt64)
    (state : FlowStateValue) : FlowStateValue :=
  if state.protocolFlags ≠ 1 then state
  else
    let state := { state with lastUsedNs := now }
    let state :=
      if flags &&& tcpFlagSyn ≠ 0 then
        { state with
          tcpStateFlags :=
            state.tcpStateFlags ||| (if direction ≠ 0 then tcpSynAckBit else tcpSynBit) }
      else state
    let state :=
      if flags &&& tcpFlagAck ≠ 0 ∧ state.finSeenMask &&& (1 <<< (direction ^^^ 1)) ≠ 0 then
        { state with
          tcpStateFlags := state.tcpStateFlags ||| tcpAckBit
          finAckSeenMask := state.finAckSeenMask ||| (1 <<< direction) }
      else state
    let state :=
      if flags &&& tcpFlagFin ≠ 0 then
        { state with
          tcpStateFlags := state.tcpStateFlags ||| tcpFinBit
          finSeenMask := state.finSeenMask ||| (1 <<< direction) }
      else state
    let state :=
      if flags &&& tcpFlagRst ≠ 0 then
        { state with tcpStateFlags := state.tcpStateFlags ||| tcpRstBit }
      else state
    if state.finSeenMask = 0x3 ∧ state.finAckSeenMask = 0x3 ∧ state.terminalDeadlineNs = 0 then
      { state with terminalDeadlineNs := now + grace }
    else state

/-- What a packet writes into the record of its flow. -/
inductive StateUpdate where
  /-- `update_tcp_state`. -/
  | tcp (grace : UInt64) (direction flags : UInt8) (now : UInt64)
  /-- `state->last_used_ns = now`. -/
  | touch (now : UInt64)

/-- The record after the write. -/
def StateUpdate.apply : StateUpdate → FlowStateValue → FlowStateValue
  | .tcp grace direction flags now, state => updateTcpState grace direction flags now state
  | .touch now, state => { state with lastUsedNs := now }

/-- The fields of a record that no packet changes. -/
def fixedPart (record : FlowStateValue) :
    TupleKey × TupleKey × TupleKey × UInt64 × UInt32 × UInt8 :=
  (record.original, record.target, record.reverse, record.flowId, record.generation,
    record.lifecycle)

/-- What both branches keep. -/
theorem kept_ite {σ β : Type} (f : σ → β) {c : Prop} [Decidable c] {a b : σ} {x : β} (ha : f a = x)
    (hb : f b = x) : f (if c then a else b) = x := by
  split
  · exact ha
  · exact hb

/-- A write keeps tuples, identity and lifecycle. -/
@[simp] theorem fixedPart_apply (write : StateUpdate) (record : FlowStateValue) :
    fixedPart (write.apply record) = fixedPart record := by
  cases write with
  | touch now => rfl
  | tcp grace direction flags now =>
    unfold StateUpdate.apply updateTcpState
    refine kept_ite fixedPart rfl ?_
    extract_lets s₁ s₂ s₃ s₄ s₅
    have h₁ : fixedPart s₁ = fixedPart record := rfl
    have h₂ : fixedPart s₂ = fixedPart record := kept_ite fixedPart h₁ h₁
    have h₃ : fixedPart s₃ = fixedPart record := kept_ite fixedPart h₂ h₂
    have h₄ : fixedPart s₄ = fixedPart record := kept_ite fixedPart h₃ h₃
    have h₅ : fixedPart s₅ = fixedPart record := kept_ite fixedPart h₄ h₄
    exact kept_ite fixedPart h₅ h₅

/-! ## Operations -/

/-- Flags of a map update. -/
inductive UpdateFlag where
  /-- `BPF_ANY`. -/
  | any
  /-- `BPF_NOEXIST`. -/
  | noexist
  /-- `BPF_EXIST`. -/
  | exist
  deriving DecidableEq

/-- Errors the host's map library reports. -/
inductive MapError where
  | keyNotFound
  | elementNotFound
  /-- A failed `bpf` call. -/
  | syscall (call : String)
  deriving DecidableEq

/-- The atomic operations. -/
inductive Op where
  /-- `bpf_map_lookup_elem` on a hash map, with the value read at once. -/
  | lookup (m : MapId) (key : m.Key)
  /-- `bpf_map_update_elem` on a hash map. -/
  | update (m : MapId) (key : m.Key) (value : m.Val) (flag : UpdateFlag)
  /-- `bpf_map_delete_elem` on a hash map. -/
  | delete (m : MapId) (key : m.Key)
  /-- `__sync_fetch_and_add` through a pointer to an in-flight count. -/
  | inflightAdd (key : FlowStateKey) (delta : Int)
  /-- A packet's write through a pointer to a state record. -/
  | stateStore (key : FlowStateKey) (write : StateUpdate)
  /-- `bpf_map_lookup_elem` on an array map. -/
  | arrayLookup (array : ArrayId)
  /-- `bpf_map_lookup_elem` on the runtime configuration. -/
  | configLookup
  /-- `bpf_ktime_get_ns`. -/
  | ktime
  /-- `__sync_fetch_and_add` on the generation counter. -/
  | generationAdd
  /-- `bpf_map_pop_elem` on the release queue. -/
  | releasePop
  /-- `__sync_fetch_and_add` of zero on the active-flow count. -/
  | activeLoad
  /-- `__sync_bool_compare_and_swap` on the active-flow count. -/
  | activeCas (expected new : Nat)
  /-- `__sync_fetch_and_add` of one on the active-flow count. -/
  | activeAdd
  /-- `__sync_fetch_and_sub` of one on the active-flow count. -/
  | activeSub
  /-- `__sync_fetch_and_add` of zero on a counter. -/
  | counterLoad (counter : Counter)
  /-- `__sync_bool_compare_and_swap` on a counter. -/
  | counterCas (counter : Counter) (expected new : UInt64)
  /-- The whole of `reserve_flow_slot` in one step. -/
  | reserveSlot
  /-- The whole of `release_flow_slot` in one step. -/
  | releaseSlot
  /-- Host: read a hash map. -/
  | hostGet (m : MapId) (key : m.Key)
  /-- Host: insert into a hash map. -/
  | hostInsert (m : MapId) (key : m.Key) (value : m.Val) (flag : UpdateFlag)
  /-- Host: remove from a hash map. -/
  | hostRemove (m : MapId) (key : m.Key)
  /-- Host: read all entries of a hash map. -/
  | hostIter (m : MapId)
  /-- Host: push onto the release queue. -/
  | hostPush (key : FlowStateKey)
  /-- Host: read the monotonic clock. -/
  | hostNow
  /-- Host: write the runtime configuration. -/
  | hostSetConfig (value : List UInt8)

/-- The response of an operation. -/
@[reducible] def Resp : Op → Type
  | .lookup m _ => Option m.Val
  | .update _ _ _ _ => Bool
  | .delete _ _ => Bool
  | .inflightAdd _ _ => Unit
  | .stateStore _ _ => Unit
  | .arrayLookup _ => Bool
  | .configLookup => Option RuntimeConfigValue
  | .ktime => UInt64
  | .generationAdd => UInt64
  | .releasePop => Option FlowStateKey
  | .activeLoad => Nat
  | .activeCas _ _ => Bool
  | .activeAdd => Nat
  | .activeSub => Unit
  | .counterLoad _ => UInt64
  | .counterCas _ _ _ => Bool
  | .reserveSlot => Bool
  | .releaseSlot => Unit
  | .hostGet m _ => Except MapError m.Val
  | .hostInsert _ _ _ _ => Except MapError Unit
  | .hostRemove _ _ => Except MapError Unit
  | .hostIter m => Except MapError (List (m.Key × m.Val))
  | .hostPush _ => Except MapError Unit
  | .hostNow => UInt64
  | .hostSetConfig _ => Except MapError Unit

/-- What the environment decides at an operation. -/
structure Choice where
  /-- Whether the operation fails: an update of a classifier for lack of space, a map call of the
  host for any reason. -/
  fault : Bool := false
  /-- The monotonic clock. -/
  now : UInt64 := 0
  /-- Whether the removal of an absent key is reported as a missing key or as a failed call. -/
  missing : Bool := true
  deriving DecidableEq

/-- Whether an update with the given flag is refused by what the map holds. -/
def UpdateFlag.refuses (flag : UpdateFlag) (present : Bool) : Bool :=
  match flag with
  | .any => false
  | .noexist => present
  | .exist => !present

/-- A map call of the host: it fails without effect, or has the given response and effect. -/
def hostCall {α : Type} (c : Choice) (call : String) (s : Maps)
    (effect : Except MapError α × Maps) : Option (Except MapError α × Maps) :=
  if c.fault then some (.error (.syscall call), s) else some effect

/-- Execute one operation. -/
def exec (c : Choice) : (op : Op) → Maps → Option (Resp op × Maps)
  | .lookup m key, s => some (s.find m key, s)
  | .update m key value flag, s =>
    if c.fault || flag.refuses (s.find m key).isSome then some (false, s)
    else some (true, s.put m key value)
  | .delete m key, s =>
    if (s.find m key).isSome then some (true, s.remove m key) else some (false, s)
  | .inflightAdd key delta, s =>
    match s.find .packetInflight key with
    | some count => some ((), s.put .packetInflight key (count + delta))
    | none => some ((), s)
  | .stateStore key write, s =>
    match s.find .flowState key with
    | some state => some ((), s.put .flowState key (write.apply state))
    | none => some ((), s)
  | .arrayLookup _, s => some (true, s)
  | .configLookup, s => some (some s.runtimeConfig, s)
  | .ktime, s => some (c.now, s)
  | .generationAdd, s => some (s.generation, { s with generation := s.generation + 1 })
  | .releasePop, s =>
    match s.releases with
    | [] => some (none, s)
    | release :: rest => some (some release, { s with releases := rest })
  | .activeLoad, s => some (s.activeFlows, s)
  | .activeCas expected new, s =>
    if s.activeFlows = expected then some (true, { s with activeFlows := new })
    else some (false, s)
  | .activeAdd, s => some (s.activeFlows, { s with activeFlows := s.activeFlows + 1 })
  | .activeSub, s => some ((), { s with activeFlows := s.activeFlows - 1 })
  | .counterLoad counter, s => some (s.counters counter, s)
  | .counterCas counter expected new, s =>
    if s.counters counter = expected then
      some (true, { s with counters := Function.update s.counters counter new })
    else some (false, s)
  | .reserveSlot, s => some s.reserveFlowSlot
  | .releaseSlot, s => some ((), s.releaseFlowSlot)
  | .hostGet m key, s =>
    hostCall c "bpf_map_lookup_elem" s
      (match s.find m key with
        | some value => (.ok value, s)
        | none => (.error .keyNotFound, s))
  | .hostInsert m key value flag, s =>
    hostCall c "bpf_map_update_elem" s
      (if flag.refuses (s.find m key).isSome then (.error (.syscall "bpf_map_update_elem"), s)
        else (.ok (), s.put m key value))
  | .hostRemove m key, s =>
    hostCall c "bpf_map_delete_elem" s
      (if (s.find m key).isSome then (.ok (), s.remove m key)
        else (.error (if c.missing then .keyNotFound else .syscall "bpf_map_delete_elem"), s))
  | .hostIter m, s => hostCall c "bpf_map_get_next_key" s (.ok (s.tables m).pairs, s)
  | .hostPush key, s =>
    hostCall c "bpf_map_push_elem" s (.ok (), { s with releases := s.releases ++ [key] })
  | .hostNow, s => some (c.now, s)
  | .hostSetConfig value, s =>
    hostCall c "bpf_map_update_elem" s
      (.ok (), { s with runtimeConfig := RuntimeConfigValue.unpack value })

/-- The machine of the shared maps. -/
def machine : Machine Op Resp Maps Choice := ⟨exec⟩

/-- Programs over the shared maps. -/
abbrev Prog : Type → Type := Program Op Resp

/-- Issue one operation on the shared maps. -/
abbrev perform (op : Op) : Prog (Resp op) := Program.perform op

/-! ## What each operation can do -/

section Spec

variable {c : Choice} {s s' : Maps} {m : MapId} {key : m.Key} {value : m.Val} {flag : UpdateFlag}

/-- A lookup returns the value and changes nothing. -/
theorem exec_lookup {resp : Option m.Val} (h : exec c (.lookup m key) s = some (resp, s')) :
    resp = s.find m key ∧ s' = s := by
  cases h
  exact ⟨rfl, rfl⟩

/-- An update fails without effect, or sets the value where its flag allows it. -/
theorem exec_update {resp : Bool} (h : exec c (.update m key value flag) s = some (resp, s')) :
    resp = false ∧ s' = s ∨
      resp = true ∧ s' = s.put m key value ∧ flag.refuses (s.find m key).isSome = false := by
  simp only [exec] at h
  split at h
  · cases h
    exact .inl ⟨rfl, rfl⟩
  · rename_i hfree
    cases h
    simp only [Bool.or_eq_true, not_or, Bool.not_eq_true] at hfree
    exact .inr ⟨rfl, rfl, hfree.2⟩

/-- A deletion removes a present key. -/
theorem exec_delete {resp : Bool} (h : exec c (.delete m key) s = some (resp, s')) :
    resp = false ∧ s' = s ∧ s.find m key = none ∨
      resp = true ∧ s' = s.remove m key ∧ (s.find m key).isSome := by
  simp only [exec] at h
  split at h
  · cases h
    exact .inr ⟨rfl, rfl, ‹_›⟩
  · cases h
    exact .inl ⟨rfl, rfl, Option.not_isSome_iff_eq_none.mp ‹_›⟩

/-- A read of the host changes nothing; it fails, or tells the value. -/
theorem exec_hostGet {resp : Except MapError m.Val}
    (h : exec c (.hostGet m key) s = some (resp, s')) :
    s' = s ∧ ((∃ call, resp = .error (.syscall call)) ∨
      (∃ value, s.find m key = some value ∧ resp = .ok value) ∨
      s.find m key = none ∧ resp = .error .keyNotFound) := by
  simp only [exec, hostCall] at h
  repeat' split at h
  all_goals cases h
  · exact ⟨rfl, .inl ⟨_, rfl⟩⟩
  · exact ⟨rfl, .inr (.inl ⟨_, ‹_›, rfl⟩)⟩
  · exact ⟨rfl, .inr (.inr ⟨‹_›, rfl⟩)⟩

/-- An insert of the host fails without effect, or sets the value where its flag allows it. -/
theorem exec_hostInsert {resp : Except MapError Unit}
    (h : exec c (.hostInsert m key value flag) s = some (resp, s')) :
    (∃ error, resp = .error error ∧ s' = s) ∨
      resp = .ok () ∧ s' = s.put m key value ∧ flag.refuses (s.find m key).isSome = false := by
  simp only [exec, hostCall] at h
  repeat' split at h
  all_goals cases h
  · exact .inl ⟨_, rfl, rfl⟩
  · exact .inl ⟨_, rfl, rfl⟩
  · exact .inr ⟨rfl, rfl, by simpa using ‹¬ _ = true›⟩

/-- A removal of the host fails without effect, or removes a present key. -/
theorem exec_hostRemove {resp : Except MapError Unit}
    (h : exec c (.hostRemove m key) s = some (resp, s')) :
    (∃ error, resp = .error error ∧ s' = s) ∨
      resp = .ok () ∧ s' = s.remove m key ∧ (s.find m key).isSome := by
  simp only [exec, hostCall] at h
  repeat' split at h
  all_goals cases h
  · exact .inl ⟨_, rfl, rfl⟩
  · exact .inr ⟨rfl, rfl, ‹_›⟩
  · exact .inl ⟨_, rfl, rfl⟩
  · exact .inl ⟨_, rfl, rfl⟩

end Spec

/-! ## Frames -/

/-- Whether an operation may change the value at a key of a hash map. -/
@[simp] def Op.MayChange (m : MapId) (key : m.Key) : Op → Prop
  | .update m' key' _ _ => (⟨m', key'⟩ : Σ m : MapId, m.Key) = ⟨m, key⟩
  | .delete m' key' => (⟨m', key'⟩ : Σ m : MapId, m.Key) = ⟨m, key⟩
  | .inflightAdd key' _ => (⟨.packetInflight, key'⟩ : Σ m : MapId, m.Key) = ⟨m, key⟩
  | .stateStore key' _ => (⟨.flowState, key'⟩ : Σ m : MapId, m.Key) = ⟨m, key⟩
  | .reserveSlot => m = .releasePending
  | .hostInsert m' key' _ _ => (⟨m', key'⟩ : Σ m : MapId, m.Key) = ⟨m, key⟩
  | .hostRemove m' key' => (⟨m', key'⟩ : Σ m : MapId, m.Key) = ⟨m, key⟩
  | _ => False

namespace Maps

theorem find_put_frame (s : Maps) {m m' : MapId} {key : m.Key} {key' : m'.Key} (value : m'.Val)
    (h : (⟨m', key'⟩ : Σ m : MapId, m.Key) ≠ ⟨m, key⟩) :
    (s.put m' key' value).find m key = s.find m key := by
  by_cases hm : m = m'
  · subst hm
    have hkey : key ≠ key' := fun heq => h (by rw [heq])
    rw [find_put, if_neg hkey]
  · rw [find_put_of_ne s key' value hm]

theorem find_remove_frame (s : Maps) {m m' : MapId} {key : m.Key} {key' : m'.Key}
    (h : (⟨m', key'⟩ : Σ m : MapId, m.Key) ≠ ⟨m, key⟩) :
    (s.remove m' key').find m key = s.find m key := by
  by_cases hm : m = m'
  · subst hm
    have hkey : key ≠ key' := fun heq => h (by rw [heq])
    rw [find_remove, if_neg hkey]
  · rw [find_remove_of_ne s key' hm]

/-- Reserving a slot changes no hash map but the release journal. -/
theorem tables_reserveFlowSlot (s : Maps) {m : MapId} (h : m ≠ .releasePending) :
    s.reserveFlowSlot.2.tables m = s.tables m := by
  have hconsume : s.consumeRelease.tables m = s.tables m := by
    rw [consumeRelease]
    split
    · rfl
    · rename_i release rest hqueue
      dsimp only
      split
      · rfl
      · exact Function.update_of_ne h _ _
  rw [← hconsume, reserveFlowSlot]
  split <;> rfl

theorem find_reserveFlowSlot (s : Maps) {m : MapId} (h : m ≠ .releasePending) (key : m.Key) :
    s.reserveFlowSlot.2.find m key = s.find m key := by
  rw [find, find, tables_reserveFlowSlot s h]

end Maps

variable {op : Op} {resp : Resp op}

/-- **Frame rule.** An operation leaves the entries it cannot change alone. -/
theorem exec_frame {c : Choice} {s s' : Maps} (hexec : exec c op s = some (resp, s')) {m : MapId}
    {key : m.Key} (h : ¬ op.MayChange m key) : s'.find m key = s.find m key := by
  cases op
  case update m' key' value flag =>
      rcases exec_update hexec with ⟨-, rfl⟩ | ⟨-, rfl, -⟩
      · rfl
      · exact Maps.find_put_frame s value h
  case delete m' key' =>
      rcases exec_delete hexec with ⟨-, rfl, -⟩ | ⟨-, rfl, -⟩
      · rfl
      · exact Maps.find_remove_frame s h
  case inflightAdd key' delta =>
      simp only [exec] at hexec
      split at hexec <;> cases hexec
      · exact Maps.find_put_frame s _ h
      · rfl
  case stateStore key' write =>
      simp only [exec] at hexec
      split at hexec <;> cases hexec
      · exact Maps.find_put_frame s _ h
      · rfl
  case reserveSlot =>
      obtain rfl : s.reserveFlowSlot.2 = s' := congrArg Prod.snd (Option.some.inj hexec)
      exact Maps.find_reserveFlowSlot s h key
  case hostInsert m' key' value flag =>
      rcases exec_hostInsert hexec with ⟨error, -, rfl⟩ | ⟨-, rfl, -⟩
      · rfl
      · exact Maps.find_put_frame s value h
  case hostRemove m' key' =>
      rcases exec_hostRemove hexec with ⟨error, -, rfl⟩ | ⟨-, rfl, -⟩
      · rfl
      · exact Maps.find_remove_frame s h
  all_goals
    simp only [exec, hostCall] at hexec
    repeat' split at hexec
  all_goals
    cases hexec
    rfl

/-- No operation waits. -/
theorem isSome_exec (c : Choice) (op : Op) (s : Maps) : (exec c op s).isSome := by
  cases op <;> simp only [exec, hostCall] <;> repeat' split
  all_goals rfl

/-- A reservation touches slots and releases only. -/
theorem reserveFlowSlot_keeps {β : Type} (s : Maps) (f : Maps → β)
    (hf : ∀ (s : Maps) (tables : (m : MapId) → Table m.Key m.Val) (releases : List FlowStateKey)
      (activeFlows : Nat), f { s with
        tables := tables
        releases := releases
        activeFlows := activeFlows } = f s) : f s.reserveFlowSlot.2 = f s := by
  have hconsume : f s.consumeRelease = f s := by
    rw [Maps.consumeRelease]
    split
    · rfl
    · dsimp only
      split
      · exact hf s _ _ _
      · exact hf s _ _ _
  rw [← hconsume, Maps.reserveFlowSlot]
  split
  · rfl
  · exact hf s.consumeRelease _ _ _

/-- Only a configuration write changes the configuration. -/
theorem exec_runtimeConfig {c : Choice} {s s' : Maps} (hexec : exec c op s = some (resp, s'))
    (h : ∀ value, op ≠ .hostSetConfig value) : s'.runtimeConfig = s.runtimeConfig := by
  cases op
  case hostSetConfig value => exact absurd rfl (h value)
  case reserveSlot =>
      obtain rfl : s.reserveFlowSlot.2 = s' := congrArg Prod.snd (Option.some.inj hexec)
      exact reserveFlowSlot_keeps s Maps.runtimeConfig fun _ _ _ _ => rfl
  all_goals
    simp only [exec, hostCall] at hexec
    repeat' split at hexec
  all_goals
    cases hexec
    rfl

/-- An operation leaves a hash map alone when it can change none of its entries. -/
theorem exec_tables {c : Choice} {s s' : Maps} {m : MapId} (hexec : exec c op s = some (resp, s'))
    (h : ∀ key, ¬ op.MayChange m key) : s'.tables m = s.tables m := by
  have hother : ∀ {m' : MapId} {key : m'.Key},
      (∀ key', (⟨m', key⟩ : Σ m : MapId, m.Key) ≠ ⟨m, key'⟩) → m ≠ m' := by
    intro m' key hkey heq
    subst heq
    exact hkey key rfl
  cases op
  case update m' key value flag =>
      rcases exec_update hexec with ⟨-, rfl⟩ | ⟨-, rfl, -⟩
      · rfl
      · exact Function.update_of_ne (hother h) _ _
  case delete m' key =>
      rcases exec_delete hexec with ⟨-, rfl, -⟩ | ⟨-, rfl, -⟩
      · rfl
      · exact Function.update_of_ne (hother h) _ _
  case inflightAdd key delta =>
      simp only [exec] at hexec
      split at hexec <;> cases hexec
      · exact Function.update_of_ne (hother h) _ _
      · rfl
  case stateStore key write =>
      simp only [exec] at hexec
      split at hexec <;> cases hexec
      · exact Function.update_of_ne (hother h) _ _
      · rfl
  case reserveSlot =>
      obtain rfl : s.reserveFlowSlot.2 = s' := congrArg Prod.snd (Option.some.inj hexec)
      refine Maps.tables_reserveFlowSlot s fun hm => ?_
      subst hm
      exact h {} rfl
  case hostInsert m' key value flag =>
      rcases exec_hostInsert hexec with ⟨_, -, rfl⟩ | ⟨-, rfl, -⟩
      · rfl
      · exact Function.update_of_ne (hother h) _ _
  case hostRemove m' key =>
      rcases exec_hostRemove hexec with ⟨_, -, rfl⟩ | ⟨-, rfl, -⟩
      · rfl
      · exact Function.update_of_ne (hother h) _ _
  all_goals
    simp only [exec, hostCall] at hexec
    repeat' split at hexec
  all_goals
    cases hexec
    rfl

/-- Whether an operation may change the active-flow count. -/
def Op.countsFlows : Op → Bool
  | .activeCas _ _ => true
  | .activeAdd => true
  | .activeSub => true
  | .reserveSlot => true
  | .releaseSlot => true
  | _ => false

theorem exec_activeFlows {c : Choice} {s s' : Maps} (hexec : exec c op s = some (resp, s'))
    (h : op.countsFlows = false) : s'.activeFlows = s.activeFlows := by
  cases op
  case activeCas expected new => cases h
  case activeAdd => cases h
  case activeSub => cases h
  case reserveSlot => cases h
  case releaseSlot => cases h
  all_goals
    simp only [exec, hostCall] at hexec
    repeat' split at hexec
  all_goals
    cases hexec
    rfl

/-- Only reservations and pushes change the release queue. -/
theorem exec_releases {c : Choice} {s s' : Maps} (hexec : exec c op s = some (resp, s'))
    (hpop : op ≠ .releasePop) (hreserve : op ≠ .reserveSlot) (hpush : ∀ key, op ≠ .hostPush key) :
    s'.releases = s.releases := by
  cases op
  case releasePop => exact absurd rfl hpop
  case reserveSlot => exact absurd rfl hreserve
  case hostPush key => exact absurd rfl (hpush key)
  all_goals
    simp only [exec, hostCall] at hexec
    repeat' split at hexec
  all_goals
    cases hexec
    rfl

end ShadowSocketProxy.Bpf
