import ShadowSocketProxy.Alone.Packet
import ShadowSocketProxy.Alone.Deletion

/-! # The table of flows

What the flow maps are for: a table of active flows, each with three tuples of its own. The maps
represent a table when records, indexes and in-flight counts all say the same; the indexes and counts
of flows that are no longer there may linger, and the maps are tidy when none does. -/

namespace ShadowSocketProxy.Flows

open Bpf Alone
open ControlService (Canonical addressOf)

/-! ## Records -/

/-- A record of an active flow. Its three tuples follow from the original tuple and the target. -/
structure WellFormed (record : FlowStateValue) : Prop where
  active : record.lifecycle = flowActive
  canonical : ∀ t ∈ tuplesOf record, Canonical t
  distinct : (tuplesOf record).Nodup
  protocol : record.original.protocol = ipprotoTcp ∨ record.original.protocol = ipprotoUdp
  target : record.target = { record.original with
    destination := record.target.destination
    destinationPort := record.target.destinationPort }
  reverse : record.reverse = { record.original with
    source := record.target.destination
    sourcePort := record.target.destinationPort
    destination := record.original.source
    destinationPort := record.original.sourcePort }
  usablePort : record.target.destinationPort ≠ 0
  usableAddress :
    (addressOf record.original.family record.target.destination).isUnspecified = false

/-- Two records with the same tuples, identity and lifecycle. -/
def Alike (record record' : FlowStateValue) : Prop := fixedPart record' = fixedPart record

section Alike

variable {record record' : FlowStateValue} (h : Alike record record')

include h

theorem Alike.fields :
    record'.original = record.original ∧ record'.target = record.target ∧
      record'.reverse = record.reverse ∧ record'.flowId = record.flowId ∧
      record'.generation = record.generation ∧ record'.lifecycle = record.lifecycle := by
  simpa only [Alike, fixedPart, Prod.mk.injEq] using h

theorem Alike.tuplesOf_eq : tuplesOf record' = tuplesOf record := by
  simp only [tuplesOf, h.fields]

theorem Alike.keyOf_eq : keyOf record' = keyOf record := by
  simp only [keyOf, h.fields]

theorem Alike.ownerOf_eq : ownerOf record' = ownerOf record := by
  simp only [ownerOf, h.fields]

theorem Alike.wellFormed (hrecord : WellFormed record) : WellFormed record' := by
  obtain ⟨horiginal, htarget, hreverse, -, -, hlifecycle⟩ := h.fields
  refine ⟨?_, ?_, ?_, ?_, ?_, ?_, ?_, ?_⟩
  · rw [hlifecycle]
    exact hrecord.active
  · rw [h.tuplesOf_eq]
    exact hrecord.canonical
  · rw [h.tuplesOf_eq]
    exact hrecord.distinct
  · rw [horiginal]
    exact hrecord.protocol
  · rw [horiginal, htarget]
    exact hrecord.target
  · rw [horiginal, htarget, hreverse]
    exact hrecord.reverse
  · rw [htarget]
    exact hrecord.usablePort
  · rw [horiginal, htarget]
    exact hrecord.usableAddress

end Alike

/-! ## The abstract table -/

/-- A table of active flows. No tuple belongs to two of them. -/
structure FlowTable where
  /-- The record of each flow. -/
  flows : FlowStateKey → Option FlowStateValue
  identity : ∀ {key record}, flows key = some record → key = keyOf record
  wellFormed : ∀ {key record}, flows key = some record → WellFormed record
  disjoint : ∀ {key key' record record'}, flows key = some record → flows key' = some record' →
    ∀ t ∈ tuplesOf record, t ∈ tuplesOf record' → key = key'

namespace FlowTable

/-- The table without flows. -/
def empty : FlowTable where
  flows _ := none
  identity h := (nomatch h)
  wellFormed h := (nomatch h)
  disjoint h := (nomatch h)

/-- Replace the record of a flow by one that is `Alike`. -/
def replace (T : FlowTable) (key : FlowStateKey) (record record' : FlowStateValue)
    (hold : T.flows key = some record) (halike : Alike record record') : FlowTable :=
  -- Every record of the new table is alike one of the old table under the same key.
  have hback : ∀ {k r}, (if k = key then some record' else T.flows k) = some r →
      ∃ r₀, T.flows k = some r₀ ∧ Alike r₀ r := by
    intro k r h
    split at h
    · rename_i hk
      subst hk
      cases h
      exact ⟨record, hold, halike⟩
    · exact ⟨r, h, rfl⟩
  { flows := fun k => if k = key then some record' else T.flows k
    identity := fun h => by
      obtain ⟨r₀, h₀, ha⟩ := hback h
      rw [ha.keyOf_eq]
      exact T.identity h₀
    wellFormed := fun h => by
      obtain ⟨r₀, h₀, ha⟩ := hback h
      exact ha.wellFormed (T.wellFormed h₀)
    disjoint := fun h h' => by
      obtain ⟨r₀, h₀, ha⟩ := hback h
      obtain ⟨r₁, h₁, hb⟩ := hback h'
      rw [ha.tuplesOf_eq, hb.tuplesOf_eq]
      exact T.disjoint h₀ h₁ }

/-- Add a flow whose key and tuples are free. -/
def insert (T : FlowTable) (record : FlowStateValue) (hrecord : WellFormed record)
    (hfresh : ∀ {k r}, T.flows k = some r → ∀ t ∈ tuplesOf record, t ∉ tuplesOf r) : FlowTable :=
  have hcases : ∀ {k r}, (if k = keyOf record then some record else T.flows k) = some r →
      k = keyOf record ∧ r = record ∨ T.flows k = some r := by
    intro k r h
    split at h
    · rename_i hk
      cases h
      exact .inl ⟨hk, rfl⟩
    · exact .inr h
  { flows := fun k => if k = keyOf record then some record else T.flows k
    identity := fun h => by
      rcases hcases h with ⟨hk, rfl⟩ | h
      · exact hk
      · exact T.identity h
    wellFormed := fun h => by
      rcases hcases h with ⟨-, rfl⟩ | h
      · exact hrecord
      · exact T.wellFormed h
    disjoint := fun h h' t ht ht' => by
      rcases hcases h with ⟨hk, hr⟩ | h₀ <;> rcases hcases h' with ⟨hk', hr'⟩ | h₁
      · rw [hk, hk']
      · exact absurd ht' (hfresh h₁ t (hr ▸ ht))
      · exact absurd ht (hfresh h₀ t (hr' ▸ ht'))
      · exact T.disjoint h₀ h₁ t ht ht' }

/-- Remove a flow. -/
def erase (T : FlowTable) (key : FlowStateKey) : FlowTable :=
  have hback : ∀ {k r}, (if k = key then none else T.flows k) = some r → T.flows k = some r := by
    intro k r h
    split at h
    · cases h
    · exact h
  { flows := fun k => if k = key then none else T.flows k
    identity := fun h => T.identity (hback h)
    wellFormed := fun h => T.wellFormed (hback h)
    disjoint := fun h h' => T.disjoint (hback h) (hback h') }

end FlowTable

/-! ## Maps that represent a table -/

/-- The flow maps represent a table: they hold its records, every flow is indexed under its three
tuples, nobody is inside a flow, and the host can decode every index. -/
structure Represents (s : Maps) (T : FlowTable) : Prop where
  state : ∀ key, s.find .flowState key = T.flows key
  owned : ∀ {key record}, T.flows key = some record → ∀ t ∈ tuplesOf record,
    s.find .flowIndex t = some (ownerOf record)
  counted : ∀ {key record}, T.flows key = some record → s.find .packetInflight key = some 0
  decodable : Decodable s

/-- The flow maps hold nothing but the table, and no deletion is on the way. -/
structure Tidy (s : Maps) (T : FlowTable) : Prop extends Represents s T where
  indexed : ∀ {t index}, s.find .flowIndex t = some index →
    ∃ record, T.flows (stateKeyOf index.flowId index.generation) = some record ∧ t ∈ tuplesOf record
  uncounted : ∀ {key}, T.flows key = none → s.find .packetInflight key = none
  unguarded : ∀ key, s.find .deleteGuard key = none
  undecided : ∀ key, s.find .deleteOutcome key = none

/-- The maps right after loading are `Tidy`. -/
theorem tidy_initial (config : RuntimeConfigValue) :
    Tidy (Maps.initial config) FlowTable.empty where
  state _ := rfl
  owned h := (nomatch h)
  counted h := (nomatch h)
  decodable _ _ h := (nomatch h)
  indexed h := (nomatch h)
  uncounted _ := rfl
  unguarded _ := rfl
  undecided _ := rfl

section Represents

variable {s s' : Maps} {T : FlowTable}

/-- `ownerOf` names the flow that `keyOf` names. -/
theorem key_ownerOf (record : FlowStateValue) :
    stateKeyOf (ownerOf record).flowId (ownerOf record).generation = keyOf record := rfl

/-- An entry `ownedBy` a flow is of its identity. -/
theorem ownedBy_ownerOf {record record' : FlowStateValue}
    (h : ownedBy (ownerOf record) (some (ownerOf record')) = true) : keyOf record' = keyOf record := by
  obtain ⟨hid, hgeneration⟩ := ownedBy_some_iff.mp h
  rw [keyOf, keyOf, show record'.flowId = record.flowId from hid,
    show record'.generation = record.generation from hgeneration]

theorem Represents.of_same (h : Represents s T) (hstate : Same s s' .flowState)
    (hindex : Same s s' .flowIndex) (hinflight : Same s s' .packetInflight) : Represents s' T where
  state key := (hstate key).trans (h.state key)
  owned hf t ht := (hindex t).trans (h.owned hf t ht)
  counted hf := (hinflight _).trans (h.counted hf)
  decodable t index ht := h.decodable t index ((hindex t).symm.trans ht)

theorem Tidy.of_same (h : Tidy s T) (hstate : Same s s' .flowState)
    (hindex : Same s s' .flowIndex) (hinflight : Same s s' .packetInflight)
    (hguard : Same s s' .deleteGuard) (houtcome : Same s s' .deleteOutcome) : Tidy s' T where
  toRepresents := h.toRepresents.of_same hstate hindex hinflight
  indexed ht := h.indexed ((hindex _).symm.trans ht)
  uncounted hnone := (hinflight _).trans (h.uncounted hnone)
  unguarded key := (hguard key).trans (h.unguarded key)
  undecided key := (houtcome key).trans (h.undecided key)

end Represents

end ShadowSocketProxy.Flows
