import ShadowSocketProxy.Alone.Creation

/-! # A classifier run alone

Everything `process_packet` can do to the flow maps when nothing runs in between. -/

namespace ShadowSocketProxy.Alone

open Interleaving Bpf
open Interleaving.Machine (wp_mono wp_seq)

variable {allowed : Choice → Prop} {s s₁ s' : Maps} {slots : Slots} {packet : PacketInfo}
  {ingress : Bool}

/-! ## Creating -/

theorem Failed.of_beside_left {candidate : FlowStateValue} (hbeside : Beside s s₁)
    (h : Failed candidate s₁ s') :
    Failed candidate s s' where
  index t := by
    have hstate := hbeside .flowState (by decide) (keyOf candidate)
    rw [← hbeside .flowIndex (by decide) t, ← hstate]
    exact h.index t
  state := (hbeside _ (by decide)).trans h.state
  inflight key := by
    have hstate := hbeside .flowState (by decide) (keyOf candidate)
    rw [← hbeside .packetInflight (by decide) key, ← hstate]
    exact h.inflight key
  guard := (hbeside _ (by decide)).trans h.guard
  outcome := (hbeside _ (by decide)).trans h.outcome

theorem Created.of_beside_left {record : FlowStateValue} (hbeside : Beside s s₁)
    (h : Created record s₁ s') :
    Created record s s' where
  key := (hbeside .flowState (by decide) _).symm.trans h.key
  count := (hbeside .packetInflight (by decide) _).symm.trans h.count
  fresh t ht := (hbeside .flowIndex (by decide) t).symm.trans (h.fresh t ht)
  distinct := h.distinct
  index t := by
    rw [h.index t, hbeside .flowIndex (by decide) t]
  state key := by
    rw [h.state key, hbeside .flowState (by decide) key]
  inflight key := by
    rw [h.inflight key, hbeside .packetInflight (by decide) key]
  guard := (hbeside _ (by decide)).trans h.guard
  outcome := (hbeside _ (by decide)).trans h.outcome

/-- The candidate a forward packet leads to in a state in which its tuple is not indexed. -/
structure Candidate (s : Maps) (packet : PacketInfo) (candidate : FlowStateValue) : Prop where
  control : s.runtimeConfig.controls packet true = false
  free : s.find .flowIndex (packetKey packet) = none
  made : ∃ target port now, s.runtimeConfig.targetFor packet = some (target, port) ∧
    candidate = makeCandidate packet (packetKey packet) target port (tupleHash (packetKey packet))
      (drawGeneration s.generation) now

theorem ensures_createToward (hslots : slots.Proper) {target : Address} {port : UInt16}
    (hcontrol : s.runtimeConfig.controls packet true = false)
    (hfree : s.find .flowIndex (packetKey packet) = none)
    (htarget : s.runtimeConfig.targetFor packet = some (target, port)) :
    Ensures allowed (createToward slots packet (packetKey packet) target port)
      (fun resolution s' => ∃ candidate, Candidate s packet candidate ∧
        Creation candidate s s' resolution) s := by
  refine ensures_arrayLookup (ensures_arrayLookup ?_)
  intro c previous s₁ _ hexec
  cases hexec
  have hbeside₁ : Beside s { s with generation := s.generation + 1 } := fun m _ key => rfl
  refine ensures_ktime fun c' _ => ?_
  refine wp_seq (ensures_slots hslots.reserve) fun reserved s₂ hbeside₂ => ?_
  have hbeside := hbeside₁.trans hbeside₂
  have hcandidate : Candidate s packet (makeCandidate packet (packetKey packet) target port
      (tupleHash (packetKey packet)) (drawGeneration s.generation) c'.now) :=
    ⟨hcontrol, hfree, target, port, c'.now, htarget, rfl⟩
  cases reserved with
  | true =>
    refine wp_mono (ensures_insertFlow hslots _ ?_) fun resolution s₃ h => ⟨_, hcandidate, ?_⟩
    · exact (hbeside .flowIndex (by decide) _).trans hfree
    · cases h with
      | failed h => exact .failed (h.of_beside_left hbeside)
      | created h => exact .created (h.of_beside_left hbeside)
  | false =>
    exact wp_seq (ensures_reads (all_incrementCounter _)) fun _ s₃ hbeside₃ =>
      ⟨_, hcandidate, .failed (.of_beside (hbeside.trans hbeside₃))⟩

/-! ## Processing -/

/-- Why a packet passes as it came: it is not parsed, it is control traffic, it has no flow and gets
none, or the record of its flow is not active. -/
def Bypassed (s : Maps) (frame : List UInt8) (ingress : Bool) : Prop :=
  ∀ packet, parsePacket frame = some packet → s.runtimeConfig.controls packet ingress = false →
    match s.find .flowIndex (packetKey packet) with
    | none => ingress = false ∨ s.runtimeConfig.targetFor packet = none
    | some index => ∀ record, s.find .flowState (stateKeyOf index.flowId index.generation) =
        some record → record.lifecycle ≠ flowActive

/-- **What a classifier run alone can lead to.** -/
inductive Processed (allowed : Choice → Prop) (frame : List UInt8) (ingress : Bool) (s : Maps) :
    Maps → TcAction × List UInt8 → Prop
  /-- The packet passes as it came. -/
  | passed {s' : Maps} (hwhy : Bypassed s frame ingress) (hbeside : Beside s s') :
      Processed allowed frame ingress s s' (.ok, frame)
  /-- The packet needs a flow and gets none. -/
  | dropped {s' : Maps} {packet : PacketInfo} {candidate : FlowStateValue} (hingress : ingress = true)
      (hparse : parsePacket frame = some packet) (hcandidate : Candidate s packet candidate)
      (h : Failed candidate s s') : Processed allowed frame ingress s s' (.shot, frame)
  /-- The packet belongs to an active flow. -/
  | resolved {s' : Maps} {packet : PacketInfo} {index : FlowIndexValue} {record : FlowStateValue}
      {result : TcAction × List UInt8} (hparse : parsePacket frame = some packet)
      (hcontrol : s.runtimeConfig.controls packet ingress = false)
      (hindex : s.find .flowIndex (packetKey packet) = some index)
      (hrecord : s.find .flowState (stateKeyOf index.flowId index.generation) = some record)
      (hactive : record.lifecycle = flowActive)
      (h : Admission allowed frame packet ingress (stateKeyOf index.flowId index.generation) record s
        s' result) : Processed allowed frame ingress s s' result
  /-- The packet creates its flow and goes on with it. -/
  | created {s₁ s' : Maps} {packet : PacketInfo} {candidate : FlowStateValue}
      {result : TcAction × List UInt8} (hingress : ingress = true)
      (hparse : parsePacket frame = some packet) (hcandidate : Candidate s packet candidate)
      (hcreated : Created (activated candidate) s s₁)
      (h : Admission allowed frame packet ingress (keyOf candidate) (activated candidate) s₁ s'
        result) : Processed allowed frame ingress s s' result

/-- `processResolved`, by the record that is looked up. -/
theorem ensures_processResolved {index : FlowIndexValue} {frame : List UInt8}
    {Q : TcAction × List UInt8 → Maps → Prop}
    (hpass : (∀ record, s.find .flowState (stateKeyOf index.flowId index.generation) = some record →
      record.lifecycle ≠ flowActive) → Q (.ok, frame) s)
    (hadmitted : ∀ record result s',
      s.find .flowState (stateKeyOf index.flowId index.generation) = some record →
      record.lifecycle = flowActive →
      Admission allowed frame packet ingress (stateKeyOf index.flowId index.generation) record s s'
        result → Q result s') :
    Ensures allowed (processResolved frame packet ingress index) Q s := by
  refine ensures_lookup ?_
  cases hrecord : s.find .flowState (stateKeyOf index.flowId index.generation) with
  | none => exact hpass fun record h => by rw [hrecord] at h; cases h
  | some record =>
    dsimp only
    split
    · rename_i hactive
      exact wp_mono (ensures_admitPacket hrecord hactive frame packet ingress) fun result s' h =>
        hadmitted record result s' hrecord hactive h
    · rename_i hactive
      refine hpass fun record' h => ?_
      rw [hrecord, Option.some.injEq] at h
      rw [← h]
      exact hactive

theorem ensures_isControlPacket (packet : PacketInfo) (ingress : Bool) :
    Ensures allowed (isControlPacket packet ingress) (fun control s' =>
      control = s.runtimeConfig.controls packet ingress ∧ s' = s) s :=
  ensures_configLookup ⟨rfl, rfl⟩

/-- How the tuple of a packet is resolved. -/
inductive Resolved (s : Maps) (packet : PacketInfo) (ingress : Bool) : Maps → Resolution → Prop
  | found {index : FlowIndexValue} (hindex : s.find .flowIndex (packetKey packet) = some index) :
      Resolved s packet ingress s (.index index)
  | unknown {s' : Maps} (hfree : s.find .flowIndex (packetKey packet) = none)
      (hwhy : ingress = false ∨ s.runtimeConfig.targetFor packet = none) (hbeside : Beside s s') :
      Resolved s packet ingress s' (.verdict .ok)
  | attempted {s' : Maps} {candidate : FlowStateValue} {resolution : Resolution}
      (hingress : ingress = true) (hcandidate : Candidate s packet candidate)
      (h : Creation candidate s s' resolution) : Resolved s packet ingress s' resolution

theorem ensures_resolvePacket (hslots : slots.Proper)
    (hcontrol : s.runtimeConfig.controls packet ingress = false) :
    Ensures allowed (resolvePacket slots packet ingress (packetKey packet)) (fun resolution s' =>
      Resolved s packet ingress s' resolution) s := by
  refine ensures_lookup ?_
  cases hindex : s.find .flowIndex (packetKey packet) with
  | some index => exact .found hindex
  | none =>
    cases ingress with
    | false => exact .unknown hindex (.inl rfl) (Beside.refl s)
    | true =>
      refine ensures_configLookup ?_
      cases htarget : s.runtimeConfig.targetFor packet with
      | none =>
        simp only [Option.bind_some, htarget]
        exact wp_seq (ensures_reads (all_incrementCounter _)) fun _ s₁ hbeside =>
          .unknown hindex (.inr htarget) hbeside
      | some target =>
        simp only [Option.bind_some, htarget]
        exact wp_mono (ensures_createToward hslots hcontrol hindex htarget)
          fun resolution s₁ ⟨candidate, hcandidate, h⟩ => .attempted rfl hcandidate h

theorem ensures_processPacket (hslots : slots.Proper) (frame : List UInt8) (ingress : Bool) :
    Ensures allowed (processPacket slots frame ingress) (fun result s' =>
      Processed allowed frame ingress s s' result) s := by
  unfold processPacket
  cases hparse : parsePacket frame with
  | none => exact .passed (fun packet h => by rw [hparse] at h; cases h) (Beside.refl s)
  | some packet =>
    refine wp_seq (ensures_isControlPacket packet ingress) fun control s₁ ⟨hcontrol, hs₁⟩ => ?_
    subst hs₁
    cases control with
    | true =>
      refine wp_seq (ensures_reads (all_incrementCounter _)) fun _ s₂ hbeside =>
        .passed (fun packet' h hnot => ?_) hbeside
      rw [hparse, Option.some.injEq] at h
      rw [← h, ← hcontrol] at hnot
      cases hnot
    | false =>
      refine wp_seq (ensures_resolvePacket hslots hcontrol.symm) fun resolution s₂ h => ?_
      cases h with
      | found hindex =>
        refine ensures_processResolved (fun hrecord => ?_) fun record result s₃ hrecord hactive h =>
          .resolved hparse hcontrol.symm hindex hrecord hactive h
        refine .passed (fun packet' h _ => ?_) (Beside.refl s₁)
        rw [hparse, Option.some.injEq] at h
        rw [← h, hindex]
        exact hrecord
      | unknown hfree hwhy hbeside =>
        refine .passed (fun packet' h _ => ?_) hbeside
        rw [hparse, Option.some.injEq] at h
        rw [← h, hfree]
        exact hwhy
      | attempted hingress hcandidate h =>
        cases h with
        | failed h => exact .dropped hingress hparse hcandidate h
        | created hcreated =>
          have hrecord : s₂.find .flowState (keyOf _) = some (activated _) :=
            (hcreated.state _).trans (if_pos rfl)
          refine ensures_processResolved (fun hnot => ?_)
            fun record result s₃ hrecord' hactive h => ?_
          · exact absurd rfl (hnot _ hrecord)
          · obtain rfl : _ = record := Option.some.inj (hrecord.symm.trans hrecord')
            exact .created hingress hparse hcandidate hcreated h

end ShadowSocketProxy.Alone
