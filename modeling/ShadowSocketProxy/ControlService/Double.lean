import ShadowSocketProxy.Alone.Report
import ShadowSocketProxy.ControlService.InMemory

/-! # The in-memory backend as a double

The in-memory backend and the adapter go through the same insertions, deletions and switches of the
publication of releases, without packets. Both keep the same flows and indexes throughout. What they
answer differs in some deletions of flows that are not there: the double consults its journal first and
forgets a release once it is published, the adapter consults the indexes first and keeps its journal
until a packet has taken the release. -/

namespace ShadowSocketProxy.Double

open Interleaving Bpf ControlService Alone
open ControlService.InMemoryBackend (keysOf)

/-! ## Keys of a flow -/

section Keys

variable {flow : FlowState} {t : TupleKey} {bytes : List UInt8}

theorem exists_pack_of_mem_keysOf (hvalid : flow.validate = .ok ()) (h : bytes ∈ keysOf flow) :
    ∃ t : TupleKey, bytes = t.pack := by
  obtain ⟨horiginal, htarget, hreverse⟩ := FlowState.isIpv4_of_validate hvalid
  rw [keysOf, encodeKey_eq horiginal, encodeKey_eq htarget, encodeKey_eq hreverse] at h
  simp only [List.mem_cons, List.not_mem_nil, or_false] at h
  rcases h with h | h | h
  · exact ⟨_, h⟩
  · exact ⟨_, h⟩
  · exact ⟨_, h⟩

/-- The adapter goes through the `keysOf` the flow in the double. -/
theorem pack_mem_keysOf_iff (hvalid : flow.validate = .ok ()) :
    t.pack ∈ keysOf flow ↔ t ∈ tupleKeysOf flow := by
  show _ ↔ t ∈ sortedKeys (keysOf flow)
  rw [mem_sortedKeys_iff]
  constructor
  · intro h
    exact ⟨t.pack, h, TupleKey.unpack_pack t⟩
  · rintro ⟨bytes, hmem, rfl⟩
    obtain ⟨t, rfl⟩ := exists_pack_of_mem_keysOf hvalid hmem
    rw [TupleKey.unpack_pack]
    exact hmem

/-- No key of `tupleKeysOf` is gone through twice. -/
theorem nodup_tupleKeysOf (hvalid : flow.validate = .ok ()) : (tupleKeysOf flow).Nodup := by
  show ((dedup ((keysOf flow).insertionSort (· ≤ ·))).map TupleKey.unpack).Nodup
  have hsorted := pairwise_dedup (List.pairwise_insertionSort (· ≤ ·) (keysOf flow))
  refine List.Nodup.map_on ?_ (hsorted.imp fun h => h.2)
  intro bytes hbytes bytes' hbytes' heq
  rw [mem_dedup_iff, List.mem_insertionSort] at hbytes hbytes'
  obtain ⟨t, rfl⟩ := exists_pack_of_mem_keysOf hvalid hbytes
  obtain ⟨t', rfl⟩ := exists_pack_of_mem_keysOf hvalid hbytes'
  rw [TupleKey.unpack_pack, TupleKey.unpack_pack] at heq
  rw [heq]

end Keys

/-! ## Corresponding states -/

/-- The flow that a table has for a key of the state map. -/
def liveAt (flows : Table (UInt64 × UInt32) FlowState) (key : FlowStateKey) : Option FlowState :=
  if key = stateKeyOf key.flowId key.generation then flows.find? (key.flowId, key.generation) else none

section LiveAt

variable (flows : Table (UInt64 × UInt32) FlowState) (flowId : UInt64) (generation : UInt32)
  (key : FlowStateKey)

@[simp] theorem liveAt_stateKeyOf :
    liveAt flows (stateKeyOf flowId generation) = flows.find? (flowId, generation) := if_pos rfl

theorem liveAt_of_ne {flows' : Table (UInt64 × UInt32) FlowState}
    (h : ∀ identity, identity ≠ (flowId, generation) → flows'.find? identity = flows.find? identity)
    (hkey : key ≠ stateKeyOf flowId generation) : liveAt flows' key = liveAt flows key := by
  rw [liveAt, liveAt]
  split
  · rename_i hform
    apply h
    intro heq
    obtain ⟨hid, hgeneration⟩ := Prod.mk.inj heq
    rw [hid, hgeneration] at hform
    exact hkey hform
  · rfl

theorem liveAt_insert (flow : FlowState) :
    liveAt (flows.insert (flowId, generation) flow) key =
      if key = stateKeyOf flowId generation then some flow else liveAt flows key := by
  split
  · rename_i hkey
    rw [hkey, liveAt_stateKeyOf, Table.find?_insert_self]
  · rename_i hkey
    refine liveAt_of_ne _ flowId generation _ (fun identity hne => ?_) hkey
    rw [Table.find?_insert, if_neg hne]

theorem liveAt_erase :
    liveAt (flows.erase (flowId, generation)) key =
      if key = stateKeyOf flowId generation then none else liveAt flows key := by
  split
  · rename_i hkey
    rw [hkey, liveAt_stateKeyOf, Table.find?_erase_self]
  · rename_i hkey
    refine liveAt_of_ne _ flowId generation _ (fun identity hne => ?_) hkey
    rw [Table.find?_erase, if_neg hne]

end LiveAt

/-- The maps hold the flows and the indexes of the double, and no others. -/
structure Mirrors (memory : InMemoryBackend) (s : Maps) : Prop where
  state : ∀ key, (s.find .flowState key).map (fun record => decodeFlowState record.pack) =
    (liveAt memory.flowStates key).map .ok
  index : ∀ t, s.find .flowIndex t = (memory.flowIndexes.find? t.pack).map ownerFor
  keys : ∀ bytes value, memory.flowIndexes.find? bytes = some value → ∃ t : TupleKey, bytes = t.pack

/-- What holds besides: each flow has its three indexes and a count of zero, every index is of such a
flow, no deletion is on the way, and what the double has yet to publish is in the journal. -/
structure Tracks (memory : InMemoryBackend) (s : Maps) : Prop extends Mirrors memory s where
  indexed : ∀ flowId generation flow, memory.flowStates.find? (flowId, generation) = some flow →
    ∀ bytes ∈ keysOf flow, memory.flowIndexes.find? bytes = some ⟨flowId, generation⟩
  owned : ∀ bytes value, memory.flowIndexes.find? bytes = some value →
    ∃ flow, memory.flowStates.find? (value.flowId, value.generation) = some flow ∧ bytes ∈ keysOf flow
  inflight : ∀ flowId generation, s.find .packetInflight (stateKeyOf flowId generation) =
    (memory.flowStates.find? (flowId, generation)).map fun _ => 0
  guard : ∀ key, s.find .deleteGuard key = none
  outcome : ∀ key, s.find .deleteOutcome key = none
  pending : ∀ flowId generation, (memory.pendingReleases.find? (flowId, generation)).isSome →
    (s.find .releasePending (stateKeyOf flowId generation)).isSome
  working : memory.abortDeleteGuard = false

section Lookups

variable {memory : InMemoryBackend} {s : Maps} {flowId : UInt64} {generation : UInt32} {flow : FlowState}

theorem Mirrors.exists_record (h : Mirrors memory s)
    (hflow : memory.flowStates.find? (flowId, generation) = some flow) :
    ∃ record, s.find .flowState (stateKeyOf flowId generation) = some record ∧
      decodeFlowState record.pack = .ok flow := by
  have hstate := h.state (stateKeyOf flowId generation)
  rw [liveAt_stateKeyOf, hflow, Option.map_some, Option.map_eq_some_iff] at hstate
  exact hstate

theorem Mirrors.validate (h : Mirrors memory s)
    (hflow : memory.flowStates.find? (flowId, generation) = some flow) : flow.validate = .ok () := by
  obtain ⟨record, -, hdecode⟩ := h.exists_record hflow
  exact validate_of_decodeFlowState hdecode

theorem Mirrors.decodable (h : Mirrors memory s) : Decodable s := by
  intro t index hindex
  rw [h.index, Option.map_eq_some_iff] at hindex
  obtain ⟨value, -, rfl⟩ := hindex
  rfl

theorem Tracks.exists_present (h : Tracks memory s)
    (hflow : memory.flowStates.find? (flowId, generation) = some flow) :
    ∃ record, Present flowId generation record flow s := by
  obtain ⟨record, hrecord, hdecode⟩ := h.exists_record hflow
  have hvalid := h.validate hflow
  refine ⟨record, hrecord, hdecode, nodup_tupleKeysOf hvalid, fun t ht => ?_, ?_, h.guard _, h.outcome _⟩
  · rw [h.index, h.indexed _ _ _ hflow _ ((pack_mem_keysOf_iff hvalid).mpr ht)]
    rfl
  · rw [h.inflight, hflow]
    rfl

theorem Tracks.absent (h : Tracks memory s) (hnone : memory.flowStates.find? (flowId, generation) = none) :
    Absent flowId generation s where
  state := by
    have hstate := h.state (stateKeyOf flowId generation)
    rw [liveAt_stateKeyOf, hnone, Option.map_none, Option.map_eq_none_iff] at hstate
    exact hstate
  inflight := by
    rw [h.inflight, hnone]
    rfl
  guard := h.guard _
  outcome := h.outcome _
  decodable := h.decodable
  unowned t index hindex heq := by
    rw [h.index, Option.map_eq_some_iff] at hindex
    obtain ⟨value, hvalue, rfl⟩ := hindex
    obtain ⟨flow, hflow, -⟩ := h.owned _ _ hvalue
    have heq : value = ⟨flowId, generation⟩ := heq
    rw [heq, hnone] at hflow
    cases hflow

/-- `staleIn` finds another generation exactly when there is one. -/
theorem Tracks.staleIn_eq (h : Tracks memory s) (flowId : UInt64) (generation : UInt32) :
    staleIn s flowId generation = memory.otherGeneration flowId generation := by
  rw [Bool.eq_iff_iff, staleIn, InMemoryBackend.otherGeneration, List.any_eq_true, List.any_eq_true]
  constructor
  · rintro ⟨⟨t, index⟩, hmem, hother⟩
    have hindex : s.find .flowIndex t = some index := Table.mem_pairs_iff.mp hmem
    rw [h.index, Option.map_eq_some_iff] at hindex
    obtain ⟨value, hvalue, rfl⟩ := hindex
    obtain ⟨flow, hflow, -⟩ := h.owned _ _ hvalue
    exact ⟨((value.flowId, value.generation), flow), Table.mem_pairs_iff.mpr hflow, hother⟩
  · rintro ⟨⟨⟨flowId', generation'⟩, flow⟩, hmem, hother⟩
    have hflow := Table.mem_pairs_iff.mp hmem
    -- the original key of that flow is indexed
    have hkey : encodeKey flow.original ∈ keysOf flow := List.mem_cons_self
    obtain ⟨t, ht⟩ := exists_pack_of_mem_keysOf (h.validate hflow) hkey
    have hindex : s.find .flowIndex t = some (indexOf flowId' generation') := by
      rw [h.index, ← ht, h.indexed _ _ _ hflow _ hkey]
      rfl
    exact ⟨(t, indexOf flowId' generation'), Table.mem_pairs_iff.mpr hindex, hother⟩

/-- The indexes with the identity of a flow are those of its keys. -/
theorem Tracks.find_eq_iff (h : Tracks memory s)
    (hflow : memory.flowStates.find? (flowId, generation) = some flow) {bytes : List UInt8} :
    memory.flowIndexes.find? bytes = some ⟨flowId, generation⟩ ↔ bytes ∈ keysOf flow := by
  constructor
  · intro hindex
    obtain ⟨flow', hflow', hmem⟩ := h.owned _ _ hindex
    rw [hflow] at hflow'
    cases hflow'
    exact hmem
  · exact h.indexed _ _ _ hflow bytes

/-- Both remove the same number of indexes. -/
theorem Tracks.indexes_deleted (h : Tracks memory s)
    (hflow : memory.flowStates.find? (flowId, generation) = some flow) :
    memory.flowIndexes.size - (memory.flowIndexes.retain fun value =>
        value ≠ (⟨flowId, generation⟩ : ControlService.FlowIndexValue)).size =
      (tupleKeysOf flow).length := by
  have hvalid := h.validate hflow
  rw [Table.size_sub_size_retain, ← List.length_map (f := fun entry => entry.1),
    ← List.length_map (f := TupleKey.pack)]
  apply List.Perm.length_eq
  rw [List.perm_ext_iff_of_nodup]
  · intro bytes
    constructor
    · intro hmem
      obtain ⟨⟨bytes', value⟩, hentry, rfl⟩ := List.mem_map.mp hmem
      obtain ⟨hmem, hvalue⟩ := List.mem_filter.mp hentry
      have hvalue : value = ⟨flowId, generation⟩ := by simpa using hvalue
      have hfind := Table.mem_pairs_iff.mp hmem
      rw [hvalue, h.find_eq_iff hflow] at hfind
      obtain ⟨t, rfl⟩ := exists_pack_of_mem_keysOf hvalid hfind
      exact List.mem_map_of_mem ((pack_mem_keysOf_iff hvalid).mp hfind)
    · intro hmem
      obtain ⟨t, ht, rfl⟩ := List.mem_map.mp hmem
      have hfind := (h.find_eq_iff hflow).mpr ((pack_mem_keysOf_iff hvalid).mpr ht)
      exact List.mem_map.mpr ⟨_, List.mem_filter.mpr ⟨Table.mem_pairs_iff.mpr hfind, by simp⟩, rfl⟩
  · exact (Table.nodup_keys_pairs _).sublist (List.filter_sublist.map _)
  · exact (nodup_tupleKeysOf hvalid).map TupleKey.pack_injective

end Lookups

/-! ## Insertions -/

/-- Indexes of one owner under the keys of a list. -/
def putAll (owner : Bpf.FlowIndexValue) (tuples : List TupleKey) (s : Maps) : Maps :=
  tuples.foldl (fun s t => s.put .flowIndex t owner) s

theorem find_putAll (owner : Bpf.FlowIndexValue) (tuples : List TupleKey) (s : Maps) (t : TupleKey) :
    (putAll owner tuples s).find .flowIndex t =
      if t ∈ tuples then some owner else s.find .flowIndex t := by
  induction tuples generalizing s with
  | nil => rfl
  | cons t' tuples ih =>
    rw [putAll, List.foldl_cons, ← putAll, ih, Maps.find_put]
    by_cases ht : t = t'
    · simp [ht]
    · simp [ht]

@[simp] theorem find_putAll_of_ne (owner : Bpf.FlowIndexValue) (tuples : List TupleKey) (s : Maps)
    {m : MapId} (hm : m ≠ .flowIndex) (k : m.Key) : (putAll owner tuples s).find m k = s.find m k := by
  induction tuples generalizing s with
  | nil => rfl
  | cons t tuples ih =>
    rw [putAll, List.foldl_cons, ← putAll, ih]
    exact Maps.find_put_of_ne s t owner hm k

/-- A flow in the maps: its record, its in-flight count and its indexes. -/
def insertFlow (record : FlowStateValue) (flow : FlowState) (s : Maps) : Maps :=
  let key := stateKeyOf flow.flowId flow.generation
  putAll (indexOf flow.flowId flow.generation) (tupleKeysOf flow)
    ((s.put .flowState key record).put .packetInflight key 0)

section Insertion

variable {memory : InMemoryBackend} {s : Maps} {flow : FlowState} {record : FlowStateValue}

theorem find?_insertFlowState (bytes : List UInt8) :
    (memory.insertFlowState flow).flowIndexes.find? bytes =
      if bytes ∈ keysOf flow then some ⟨flow.flowId, flow.generation⟩
      else memory.flowIndexes.find? bytes := by
  show (((memory.flowIndexes.insert _ _).insert _ _).insert _ _).find? bytes = _
  rw [Table.find?_insert, Table.find?_insert, Table.find?_insert, keysOf]
  simp only [List.mem_cons, List.not_mem_nil, or_false]
  by_cases hreverse : bytes = encodeKey flow.reverse
  · rw [if_pos hreverse, if_pos (.inr (.inr hreverse))]
  · rw [if_neg hreverse]
    by_cases htarget : bytes = encodeKey flow.target
    · rw [if_pos htarget, if_pos (.inr (.inl htarget))]
    · rw [if_neg htarget]
      simp only [htarget, hreverse, or_false]

theorem Tracks.insert (h : Tracks memory s) (hdecode : decodeFlowState record.pack = .ok flow)
    (hnew : memory.flowStates.find? (flow.flowId, flow.generation) = none)
    (hfree : ∀ bytes ∈ keysOf flow, memory.flowIndexes.find? bytes = none) :
    Tracks (memory.insertFlowState flow) (insertFlow record flow s) := by
  have hvalid := validate_of_decodeFlowState hdecode
  -- a flow of the double is the new one or one of before
  have hflows : ∀ flowId generation, (memory.insertFlowState flow).flowStates.find? (flowId, generation) =
      if (flowId, generation) = (flow.flowId, flow.generation) then some flow
      else memory.flowStates.find? (flowId, generation) := fun flowId generation =>
    Table.find?_insert memory.flowStates (flow.flowId, flow.generation) (flowId, generation) flow
  constructor
  · constructor
    · intro key
      show _ = (liveAt (memory.flowStates.insert _ flow) key).map Except.ok
      rw [insertFlow, find_putAll_of_ne _ _ _ (by decide), Maps.find_put_of_ne _ _ _ (by decide),
        Maps.find_put, liveAt_insert]
      split
      · rw [Option.map_some, Option.map_some, hdecode]
      · exact h.state key
    · intro t
      rw [insertFlow, find_putAll, find?_insertFlowState]
      by_cases ht : t ∈ tupleKeysOf flow
      · rw [if_pos ht, if_pos ((pack_mem_keysOf_iff hvalid).mpr ht)]
        rfl
      · rw [if_neg ht, if_neg fun hmem => ht ((pack_mem_keysOf_iff hvalid).mp hmem)]
        simp [h.index]
    · intro bytes value hvalue
      rw [find?_insertFlowState] at hvalue
      split at hvalue
      · rename_i hmem
        exact exists_pack_of_mem_keysOf hvalid hmem
      · exact h.keys bytes value hvalue
  · intro flowId generation flow' hflow' bytes hbytes
    rw [hflows] at hflow'
    rw [find?_insertFlowState]
    split at hflow'
    · rename_i heq
      obtain ⟨rfl, rfl⟩ := Prod.mk.inj heq
      cases hflow'
      rw [if_pos hbytes]
    · have hindex := h.indexed _ _ _ hflow' bytes hbytes
      -- a key that is indexed is none of the new flow
      rw [if_neg, hindex]
      intro hmem
      rw [hfree bytes hmem] at hindex
      cases hindex
  · intro bytes value hvalue
    rw [find?_insertFlowState] at hvalue
    split at hvalue
    · rename_i hmem
      cases hvalue
      exact ⟨flow, by rw [hflows, if_pos rfl], hmem⟩
    · obtain ⟨flow', hflow', hmem⟩ := h.owned bytes value hvalue
      refine ⟨flow', ?_, hmem⟩
      rw [hflows, if_neg, hflow']
      intro heq
      rw [heq, hnew] at hflow'
      cases hflow'
  · intro flowId generation
    rw [insertFlow, find_putAll_of_ne _ _ _ (by decide), Maps.find_put, hflows]
    by_cases heq : (flowId, generation) = (flow.flowId, flow.generation)
    · obtain ⟨rfl, rfl⟩ := Prod.mk.inj heq
      rw [if_pos rfl, if_pos rfl]
      rfl
    · rw [if_neg heq, if_neg, Maps.find_put_of_ne _ _ _ (by decide), h.inflight]
      intro hkey
      exact heq (Prod.ext (congrArg FlowStateKey.flowId hkey) (congrArg FlowStateKey.generation hkey))
  · intro key
    simp [insertFlow, h.guard]
  · intro key
    simp [insertFlow, h.outcome]
  · intro flowId generation hpending
    simpa [insertFlow] using h.pending flowId generation hpending
  · exact h.working

end Insertion

/-! ## Deletions -/

section Deletion

variable {memory : InMemoryBackend} {s s' : Maps} {flowId : UInt64} {generation : UInt32}
  {flow : FlowState}

section

variable (h : Tracks memory s)

include h

/-- `Tracks` for maps that agree. -/
theorem Tracks.of_same (hsame : ∀ m, Same s s' m) : Tracks memory s' where
  state key := by rw [hsame .flowState key]; exact h.state key
  index t := by rw [hsame .flowIndex t]; exact h.index t
  keys := h.keys
  indexed := h.indexed
  owned := h.owned
  inflight flowId generation := by rw [hsame .packetInflight]; exact h.inflight flowId generation
  guard key := by rw [hsame .deleteGuard key]; exact h.guard key
  outcome key := by rw [hsame .deleteOutcome key]; exact h.outcome key
  pending flowId generation hpending := by
    rw [hsame .releasePending]
    exact h.pending flowId generation hpending
  working := h.working

/-- `Tracks` with less to publish. -/
theorem Tracks.settle {pendingReleases : Table (UInt64 × UInt32) Unit}
    (hpending : ∀ identity, (pendingReleases.find? identity).isSome →
      (memory.pendingReleases.find? identity).isSome) (published : Nat) :
    Tracks { memory with pendingReleases := pendingReleases, publishedReleases := published } s :=
  { h with
    pending := fun flowId generation hsome => h.pending flowId generation (hpending _ hsome) }

theorem Tracks.publish (identity : UInt64 × UInt32) : Tracks { memory with
      pendingReleases := memory.pendingReleases.erase identity
      publishedReleases := memory.publishedReleases + 1 } s := by
  apply h.settle
  intro identity' hsome
  rw [Table.find?_erase] at hsome
  split at hsome
  · cases hsome
  · exact hsome

theorem Tracks.deleteAbsent (flowId : UInt64) (generation : UInt32) :
    Tracks (memory.deleteAbsent flowId generation).2 s := by
  unfold InMemoryBackend.deleteAbsent
  split
  · split
    · exact h
    · exact h.publish (flowId, generation)
  · exact h

/-- `Tracks` with a flow `Deleted` from both with its indexes. -/
theorem Tracks.remove (hflow : memory.flowStates.find? (flowId, generation) = some flow)
    (hdeleted : Deleted (stateKeyOf flowId generation) (tupleKeysOf flow) s s') :
    Tracks { memory with
      pendingReleases := memory.pendingReleases.insert (flowId, generation) ()
      flowStates := memory.flowStates.erase (flowId, generation)
      flowIndexes := memory.flowIndexes.retain fun value =>
        value ≠ (⟨flowId, generation⟩ : ControlService.FlowIndexValue) } s' := by
  have hvalid := h.validate hflow
  constructor
  · constructor
    · intro key
      rw [hdeleted.state, liveAt_erase]
      split
      · rfl
      · exact h.state key
    · intro t
      rw [hdeleted.index, Table.find?_retain, h.index]
      by_cases ht : t ∈ tupleKeysOf flow
      · rw [if_pos ht, h.indexed _ _ _ hflow _ ((pack_mem_keysOf_iff hvalid).mpr ht)]
        simp
      · rw [if_neg ht]
        cases hvalue : memory.flowIndexes.find? t.pack with
        | none => rfl
        | some value =>
          have hne : value ≠ ⟨flowId, generation⟩ := by
            rintro rfl
            exact ht ((pack_mem_keysOf_iff hvalid).mp ((h.find_eq_iff hflow).mp hvalue))
          rw [Option.filter_some, if_pos (by simpa using hne)]
    · intro bytes value hvalue
      rw [Table.find?_retain, Option.filter_eq_some_iff] at hvalue
      exact h.keys bytes value hvalue.1
  · intro flowId' generation' flow' hflow' bytes hbytes
    rw [Table.find?_erase] at hflow'
    split at hflow'
    · cases hflow'
    · rename_i hne
      rw [Table.find?_retain, h.indexed _ _ _ hflow' bytes hbytes, Option.filter_some, if_pos]
      rw [decide_eq_true_iff]
      intro heq
      cases heq
      exact hne rfl
  · intro bytes value hvalue
    rw [Table.find?_retain, Option.filter_eq_some_iff, decide_eq_true_iff] at hvalue
    obtain ⟨flow', hflow', hmem⟩ := h.owned bytes value hvalue.1
    refine ⟨flow', ?_, hmem⟩
    rw [Table.find?_erase, if_neg, hflow']
    intro heq
    obtain ⟨hid, hgeneration⟩ := Prod.mk.inj heq
    apply hvalue.2
    rw [← hid, ← hgeneration]
  · intro flowId' generation'
    rw [hdeleted.inflight, Table.find?_erase]
    by_cases heq : (flowId', generation') = (flowId, generation)
    · obtain ⟨rfl, rfl⟩ := Prod.mk.inj heq
      rw [if_pos rfl, if_pos rfl]
      rfl
    · rw [if_neg heq, if_neg, h.inflight]
      intro hkey
      exact heq (Prod.ext (congrArg FlowStateKey.flowId hkey) (congrArg FlowStateKey.generation hkey))
  · intro key
    rw [hdeleted.guard, h.guard]
  · intro key
    rw [hdeleted.outcome, h.outcome]
  · intro flowId' generation' hsome
    rw [hdeleted.pending]
    split
    · rfl
    · rename_i hne
      apply h.pending
      rw [Table.find?_insert, if_neg] at hsome
      · exact hsome
      · intro heq
        obtain ⟨rfl, rfl⟩ := Prod.mk.inj heq
        exact hne rfl
  · exact h.working

theorem Tracks.deletePresent (hflow : memory.flowStates.find? (flowId, generation) = some flow)
    (hdeleted : Deleted (stateKeyOf flowId generation) (tupleKeysOf flow) s s') :
    Tracks (memory.deletePresent flowId generation).2 s' := by
  unfold InMemoryBackend.deletePresent
  dsimp only
  split
  · exact h.remove hflow hdeleted
  · exact (h.remove hflow hdeleted).publish (flowId, generation)

end

end Deletion

/-! ## Joint runs -/

section Runs

/-- A deletion by the adapter, with pushes that fail as those of the double do. -/
def AdapterDeletes (reported failing : Bool) (flowId : UInt64) (generation : UInt32)
    (observed deadline : UInt64) (s : Maps) (result : Except BackendError FlowCleanupReport)
    (s' : Maps) : Prop :=
  (adapterMachine failing reported).Returns (fun _ => True)
    (ControlService.deleteFlow flowId generation observed deadline).run s result s'

/-- Both backends after the same calls, from nothing. A flow is inserted when its identity is not there
and none of its tuples is indexed, in the maps with a record that decodes to it. -/
inductive Joint (reported : Bool) : InMemoryBackend → Maps → Prop
  | start (config : RuntimeConfigValue) : Joint reported {} (Maps.initial config)
  | insert {memory : InMemoryBackend} {s : Maps} {record : FlowStateValue} {flow : FlowState} :
      Joint reported memory s → decodeFlowState record.pack = .ok flow →
      memory.flowStates.find? (flow.flowId, flow.generation) = none →
      (∀ bytes ∈ keysOf flow, memory.flowIndexes.find? bytes = none) →
      Joint reported (memory.insertFlowState flow) (insertFlow record flow s)
  | delete {memory : InMemoryBackend} {s s' : Maps} {flowId : UInt64} {generation : UInt32}
      {observed deadline : UInt64} {result : Except BackendError FlowCleanupReport} :
      Joint reported memory s →
      AdapterDeletes reported memory.failReleasePublication flowId generation observed deadline s
        result s' →
      Joint reported (memory.deleteFlow flowId generation observed deadline).2 s'
  | switch {memory : InMemoryBackend} {s : Maps} (failure : Bool) :
      Joint reported memory s → Joint reported (memory.setReleasePublicationFailure failure) s

variable {memory : InMemoryBackend} {s s' : Maps} {flowId : UInt64} {generation : UInt32}
  {observed deadline : UInt64} {reported : Bool} {result : Except BackendError FlowCleanupReport}

/-- The adapter always comes to an answer. -/
theorem exists_adapterDeletes (reported failing : Bool) (flowId : UInt64) (generation : UInt32)
    (observed deadline : UInt64) (s : Maps) :
    ∃ result s', AdapterDeletes reported failing flowId generation observed deadline s result s' :=
  Machine.exists_returns fun op s => ⟨{}, trivial, isSome_exec _ op s⟩

/-- The answer of the adapter for a flow that is there is that of the double. -/
theorem deletes_present {flow : FlowState} (h : Tracks memory s)
    (hflow : memory.flowStates.find? (flowId, generation) = some flow)
    (hrun : AdapterDeletes reported memory.failReleasePublication flowId generation observed deadline s
      result s') :
    result = .ok (memory.deleteFlow flowId generation observed deadline).1 ∧
      Tracks (memory.deleteFlow flowId generation observed deadline).2 s' := by
  obtain ⟨record, hpresent⟩ := h.exists_present hflow
  obtain ⟨rfl, heffect⟩ := hrun.of_wp (settles_deleteFlow_present hpresent observed deadline)
  have hdouble : memory.deleteFlow flowId generation observed deadline =
      if observed ≠ 0 ∧ flow.lastUsedNs ≠ observed then (.mismatch, memory)
      else memory.deletePresent flowId generation := by
    simp only [InMemoryBackend.deleteFlow, hflow, h.working, Bool.false_eq_true, if_false]
  rw [hdouble]
  unfold presentReport
  unfold PresentEffect at heffect
  by_cases hmismatch : observed ≠ 0 ∧ flow.lastUsedNs ≠ observed
  · rw [if_pos hmismatch] at heffect
    rw [if_pos hmismatch, if_pos hmismatch]
    exact ⟨rfl, h.of_same heffect⟩
  · rw [if_neg hmismatch] at heffect
    rw [if_neg hmismatch, if_neg hmismatch]
    refine ⟨?_, h.deletePresent hflow heffect⟩
    unfold InMemoryBackend.deletePresent
    rw [← h.indexes_deleted hflow]
    cases memory.failReleasePublication <;> rfl

/-- The answer of the adapter for a flow that is not there. -/
theorem deletes_absent (h : Tracks memory s)
    (hnone : memory.flowStates.find? (flowId, generation) = none)
    (hrun : AdapterDeletes reported memory.failReleasePublication flowId generation observed deadline s
      result s') :
    result = .ok (absentReport memory.failReleasePublication reported
        (s.find .releasePending (stateKeyOf flowId generation)).isSome
        (memory.otherGeneration flowId generation)) ∧
      (memory.deleteFlow flowId generation observed deadline).1 =
        (memory.deleteAbsent flowId generation).1 ∧
      Tracks (memory.deleteFlow flowId generation observed deadline).2 s' := by
  obtain ⟨rfl, hsame⟩ := hrun.of_wp (settles_deleteFlow_absent (h.absent hnone) observed deadline)
  rw [InMemoryBackend.deleteFlow, hnone, h.staleIn_eq]
  exact ⟨rfl, rfl, (h.deleteAbsent flowId generation).of_same hsame⟩

/-- Every `Joint` run keeps `Tracks`: the two backends have the same flows and indexes. -/
theorem Joint.tracks (h : Joint reported memory s) : Tracks memory s := by
  induction h with
  | start config =>
    constructor
    · constructor
      · intro key
        show none = (liveAt Table.empty key).map Except.ok
        rw [liveAt]
        split <;> rfl
      · intro t
        rfl
      · rintro bytes value ⟨⟩
    · rintro flowId generation flow ⟨⟩
    · rintro bytes value ⟨⟩
    · intro flowId generation
      rfl
    · intro key
      rfl
    · intro key
      rfl
    · rintro flowId generation ⟨⟩
    · rfl
  | insert _ hdecode hnew hfree ih => exact ih.insert hdecode hnew hfree
  | @delete memory s s' flowId generation observed deadline result _ hrun ih =>
    cases hflow : memory.flowStates.find? (flowId, generation) with
    | some flow => exact (deletes_present ih hflow hrun).2
    | none => exact (deletes_absent ih hflow hrun).2.2
  | switch failure _ ih =>
    exact ⟨⟨ih.state, ih.index, ih.keys⟩, ih.indexed, ih.owned, ih.inflight, ih.guard, ih.outcome,
      ih.pending, ih.working⟩

/-- What a client sees of the answer besides the identity it has sent. -/
def seen (flowId : UInt64) (generation : UInt32) (result : Except BackendError FlowCleanupReport) :
    Except Status (Proto.DeleteFlowOutcome × Bool × UInt32) :=
  (deleteFlowReply flowId generation result).map fun reply =>
    (reply.outcome, reply.stateDeleted, reply.indexesDeleted)

/-- When the two answer alike: the flow is there; or its release is yet to be published, and either
publication fails still or absent keys are reported and no other generation is there; or it is not, and
absent keys are reported and publication works or has nothing in the journal. -/
def Alike (reported : Bool) (flowId : UInt64) (generation : UInt32) (memory : InMemoryBackend)
    (s : Maps) : Prop :=
  (memory.flowStates.find? (flowId, generation)).isSome ∨
    if (memory.pendingReleases.find? (flowId, generation)).isSome then
      memory.failReleasePublication ∨ reported ∧ ¬ memory.otherGeneration flowId generation
    else reported ∧ ¬ (memory.failReleasePublication ∧
      (s.find .releasePending (stateKeyOf flowId generation)).isSome)

instance (reported : Bool) (flowId : UInt64) (generation : UInt32) (memory : InMemoryBackend) (s : Maps) :
    Decidable (Alike reported flowId generation memory s) := by
  unfold Alike
  infer_instance

theorem alike_iff (h : Tracks memory s)
    (hrun : AdapterDeletes reported memory.failReleasePublication flowId generation observed deadline s
      result s') :
    seen flowId generation result =
        seen flowId generation (.ok (memory.deleteFlow flowId generation observed deadline).1) ↔
      Alike reported flowId generation memory s := by
  unfold Alike
  cases hflow : memory.flowStates.find? (flowId, generation) with
  | some flow =>
    rw [(deletes_present h hflow hrun).1]
    simp
  | none =>
    obtain ⟨hresult, hdouble, -⟩ := deletes_absent h hflow hrun
    have hjournal := h.pending flowId generation
    rw [hresult, hdouble, InMemoryBackend.deleteAbsent]
    generalize (s.find .releasePending (stateKeyOf flowId generation)).isSome = journal at hjournal ⊢
    generalize (memory.pendingReleases.find? (flowId, generation)).isSome = pending at hjournal ⊢
    generalize memory.otherGeneration flowId generation = other
    generalize memory.failReleasePublication = failing
    revert hjournal
    cases pending <;> cases journal <;> cases other <;> cases failing <;> cases reported <;>
      simp [seen, deleteFlowReply, absentReport, FlowCleanupReport.outcome, Except.map]

/-- **The double answers like the adapter.** After the same calls both hold the same flows and indexes,
and so they do after one more deletion, which the adapter always completes; the client sees the same
answer exactly when `Alike` holds. -/
theorem double_alike_iff (h : Joint reported memory s) (flowId : UInt64) (generation : UInt32)
    (observed deadline : UInt64) :
    Mirrors memory s ∧
      (∃ result s', AdapterDeletes reported memory.failReleasePublication flowId generation observed
        deadline s result s') ∧
      ∀ result s', AdapterDeletes reported memory.failReleasePublication flowId generation observed
          deadline s result s' →
        Mirrors (memory.deleteFlow flowId generation observed deadline).2 s' ∧
          (seen flowId generation result =
              seen flowId generation (.ok (memory.deleteFlow flowId generation observed deadline).1) ↔
            Alike reported flowId generation memory s) := by
  refine ⟨h.tracks.toMirrors, exists_adapterDeletes _ _ _ _ _ _ s, fun result s' hrun => ⟨?_, ?_⟩⟩
  · exact (h.delete hrun).tracks.toMirrors
  · exact alike_iff h.tracks hrun

end Runs

/-! ## A release that is published late -/

/-- A generation of one flow. -/
def lateFlow (generation : UInt32) : FlowState where
  flowId := 7
  generation := generation
  original := ⟨.v4 (Bpf.ipv4 10 0 0 1), .v4 (Bpf.ipv4 10 0 0 2), 17, 1000, 2000⟩
  target := ⟨.v4 (Bpf.ipv4 10 0 0 1), .v4 (Bpf.ipv4 10 0 0 3), 17, 1000, 3000⟩
  reverse := ⟨.v4 (Bpf.ipv4 10 0 0 3), .v4 (Bpf.ipv4 10 0 0 1), 17, 3000, 1000⟩
  lastUsedNs := 5
  protocolFlags := 0
  tcpStateFlags := 0
  finSeenMask := 0
  finAckSeenMask := 0
  lifecycle := .active
  terminalDeadlineNs := 0

/-- A valid flow decodes from the record that is written for it. -/
theorem decode_lateFlow (generation : UInt32) :
    decodeFlowState (recordOf (lateFlow generation)).pack = .ok (lateFlow generation) := by
  have hvalid : (lateFlow generation).validate = .ok () := rfl
  rw [← encodeFlowState_eq hvalid]
  exact decodeFlowState_encodeFlowState hvalid

/-- The double with the first generation, while publication fails. -/
def holding : InMemoryBackend :=
  (({} : InMemoryBackend).insertFlowState (lateFlow 1)).setReleasePublicationFailure true

/-- The double when the first generation is deleted and its release is held back. -/
def withheld : InMemoryBackend := (holding.deleteFlow 7 1 0 0).2

/-- The double when publication works again and the second generation has come with the same tuples. -/
def replaced : InMemoryBackend :=
  (withheld.setReleasePublicationFailure false).insertFlowState (lateFlow 2)

/-- `withheld` is reached by a joint run, however the library answers for absent keys. -/
theorem exists_joint_withheld (reported : Bool) : ∃ s, Joint reported withheld s := by
  have hholding : Joint reported holding _ :=
    .switch true ((Joint.start {}).insert (decode_lateFlow 1) rfl fun _ _ => rfl)
  obtain ⟨result, s, hrun⟩ := exists_adapterDeletes reported holding.failReleasePublication 7 1 0 0
    (insertFlow (recordOf (lateFlow 1)) (lateFlow 1) (Maps.initial {}))
  exact ⟨s, hholding.delete hrun⟩

/-- `replaced` is reached by a joint run, however the library answers for absent keys. -/
theorem exists_joint_replaced (reported : Bool) : ∃ s, Joint reported replaced s := by
  obtain ⟨s, hjoint⟩ := exists_joint_withheld reported
  have hfree : ∀ bytes ∈ keysOf (lateFlow 2),
      (withheld.setReleasePublicationFailure false).flowIndexes.find? bytes = none := by
    decide +kernel
  exact ⟨_, (hjoint.switch false).insert (decode_lateFlow 2) (by decide +kernel) hfree⟩

/-- While the release of the first generation is held back, a second deletion is answered alike, also
when the library does not report absent keys. -/
theorem double_alike_iff_holding : ∃ s, Joint false withheld s ∧
    ∀ result s', AdapterDeletes false withheld.failReleasePublication 7 1 5 0 s result s' →
      Mirrors (withheld.deleteFlow 7 1 5 0).2 s' ∧
        seen 7 1 result = seen 7 1 (.ok (withheld.deleteFlow 7 1 5 0).1) := by
  obtain ⟨s, hjoint⟩ := exists_joint_withheld false
  refine ⟨s, hjoint, fun result s' hrun => ?_⟩
  obtain ⟨hmirrors, halike⟩ := (double_alike_iff hjoint 7 1 5 0).2.2 result s' hrun
  have hpending : (withheld.pendingReleases.find? (7, 1)).isSome := by decide +kernel
  refine ⟨hmirrors, halike.mpr (.inr ?_)⟩
  rw [if_pos hpending]
  exact .inl rfl

/-- Asked for the first generation when the second is there, the adapter reports another generation, or
a partial cleanup where the library does not report absent keys. -/
theorem exists_late_publication (reported : Bool) : ∃ s result s', Joint reported replaced s ∧
    AdapterDeletes reported replaced.failReleasePublication 7 1 0 0 s result s' ∧
    seen 7 1 result = .ok (if reported then .staleGeneration else .partialCleanup, false, 0) := by
  obtain ⟨s, hjoint⟩ := exists_joint_replaced reported
  obtain ⟨result, s', hrun⟩ := exists_adapterDeletes reported replaced.failReleasePublication 7 1 0 0 s
  obtain ⟨hresult, -⟩ := deletes_absent hjoint.tracks (by decide +kernel) hrun
  have hworks : replaced.failReleasePublication = false := rfl
  have hother : replaced.otherGeneration 7 1 = true := by decide +kernel
  refine ⟨s, result, s', hjoint, hrun, ?_⟩
  rw [hresult, hworks, hother]
  cases reported <;> rfl

/-- The release of the first generation is published when the second is there: however the library
reports absent keys, the double says that the flow is absent and the adapter says something else. -/
theorem late_publication_differs :
    (∃ s result s', Joint true replaced s ∧
      AdapterDeletes true replaced.failReleasePublication 7 1 0 0 s result s' ∧
      seen 7 1 result = .ok (.staleGeneration, false, 0)) ∧
    (∃ s result s', Joint false replaced s ∧
      AdapterDeletes false replaced.failReleasePublication 7 1 0 0 s result s' ∧
      seen 7 1 result = .ok (.partialCleanup, false, 0)) ∧
    seen 7 1 (.ok (replaced.deleteFlow 7 1 0 0).1) = .ok (.alreadyAbsent, false, 0) :=
  ⟨exists_late_publication true, exists_late_publication false, by decide +kernel⟩

end ShadowSocketProxy.Double
