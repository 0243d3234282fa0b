import ShadowSocketProxy.Flows.Deletions
import ShadowSocketProxy.System

/-! # Runs without overlap

Classifiers, deletions and configuration writes one after the other. Every state of such a run
represents a table of flows; when no map call of a deletion fails, the maps hold nothing else. -/

namespace ShadowSocketProxy.Flows

open Interleaving Bpf Alone ControlService
open Interleaving.Machine (wp_mono wp_seq wp_of_all)

variable {s s' : Maps} {T : FlowTable} {allowed : Choice → Prop} {outcome : Outcome}

/-! ## Jobs -/

theorem processed_of_returns {frame : List UInt8} {ingress : Bool}
    (hret : machine.Returns allowed ((Job.packet frame ingress).code Slots.split) s outcome s') :
    ∃ result, outcome = .verdict result.1 result.2 ∧
      Processed allowed frame ingress s s' result :=
  hret.of_wp (Q := fun outcome s' => ∃ result, outcome = .verdict result.1 result.2 ∧
    Processed allowed frame ingress s s' result)
    (wp_seq (ensures_processPacket Slots.proper_split frame ingress) fun result _ h =>
      ⟨result, rfl, h⟩)

theorem deletion_of_returns {flowId : UInt64} {generation : UInt32} {observed deadline : UInt64}
    (hret : machine.Returns allowed
      ((Job.delete flowId generation observed deadline).code Slots.split) s outcome s') :
    Deletion allowed (indexOf flowId generation) (stateKeyOf flowId generation) s s' :=
  hret.of_wp (Q := fun _ s' =>
    Deletion allowed (indexOf flowId generation) (stateKeyOf flowId generation) s s')
    (wp_seq (ensures_deleteFlow flowId generation observed deadline) fun _ _ h => h)

/-- A program of operations that change no hash map. -/
theorem ensures_same {β : Type} {p : Prog β} {allowedOp : Op → Prop}
    (hop : ∀ op, allowedOp op → ∀ m key, ¬ op.MayChange m key) (hp : p.All allowedOp) :
    Ensures allowed p (fun _ s' => ∀ m, Same s s' m) s :=
  wp_of_all (I := fun s' => ∀ m, Same s s' m) (fun op h c _ _ _ _ hs hexec m key =>
    (exec_frame (c := c) hexec (hop op h m key)).trans (hs m key)) hp fun m => Same.refl s m

/-- `listFlows` and `setConfig` write no hash map. -/
theorem same_of_returns {job : Job} (hjob : job = .listFlows ∨ ∃ config, job = .setConfig config)
    (hret : machine.Returns allowed (job.code Slots.split) s outcome s') : ∀ m, Same s s' m := by
  refine hret.of_wp (Q := fun _ s' => ∀ m, Same s s' m) ?_
  rcases hjob with rfl | ⟨config, rfl⟩
  · refine wp_seq (ensures_same (fun op hop m key => ?_) all_listFlowStates) fun _ _ h => h
    subst hop
    exact fun h => h
  · refine wp_seq (ensures_same (fun op hop m key => ?_) (all_setRuntimeConfig config)) fun _ _ h => h
    obtain ⟨value, rfl⟩ := hop
    exact fun h => h

/-- The records a job may give birth to. -/
def BornFrom (s : Maps) (job : Job) (record : FlowStateValue) : Prop :=
  ∃ frame ingress, job = .packet frame ingress ∧ BornOf s frame ingress record

/-- **Every job keeps the maps representing a table.** `Tidy` maps stay so unless a map call of a
deletion fails. -/
theorem Represents.job {job : Job} (h : Represents s T)
    (hret : machine.Returns allowed (job.code Slots.split) s outcome s') :
    ∃ T', Represents s' T' ∧ ((job.deletes = true → ¬ Faulty allowed) → Tidy s T → Tidy s' T') ∧
      Grown (BornFrom s job) T T' := by
  have hsame : (∀ m, Same s s' m) → ∃ T', Represents s' T' ∧
      ((job.deletes = true → ¬ Faulty allowed) → Tidy s T → Tidy s' T') ∧
      Grown (BornFrom s job) T T' := fun hsame =>
    ⟨T, h.of_same (hsame _) (hsame _) (hsame _), fun _ htidy =>
      htidy.of_same (hsame _) (hsame _) (hsame _) (hsame _) (hsame _), .refl _ T⟩
  cases job with
  | packet frame ingress =>
    obtain ⟨result, -, hprocessed⟩ := processed_of_returns hret
    obtain ⟨T', hT', htidy, hgrown⟩ := h.processed hprocessed
    refine ⟨T', hT', fun _ => htidy, fun key record hf => ?_⟩
    obtain ⟨record₀, halike, hfrom⟩ := hgrown key record hf
    exact ⟨record₀, halike, hfrom.imp_right (And.imp_right fun hborn => ⟨frame, ingress, rfl, hborn⟩)⟩
  | delete flowId generation observed deadline =>
    obtain ⟨T', hT', htidy, hgrown⟩ := h.deletion (deletion_of_returns hret)
      (BornFrom s (.delete flowId generation observed deadline))
    exact ⟨T', hT', fun hfaultless => htidy (hfaultless rfl), hgrown⟩
  | setConfig config => exact hsame (same_of_returns (.inr ⟨config, rfl⟩) hret)
  | listFlows => exact hsame (same_of_returns (.inl rfl) hret)

/-- A record that was not there before a job is `BornFrom` it. -/
theorem Represents.born_of_new {job : Job} (h : Represents s T)
    (hret : machine.Returns allowed (job.code Slots.split) s outcome s') {key : FlowStateKey}
    {record : FlowStateValue} (hnew : s.find .flowState key = none)
    (hrecord : s'.find .flowState key = some record) :
    ∃ frame packet candidate, job = .packet frame true ∧ parsePacket frame = some packet ∧
      Candidate s packet candidate ∧ Alike (activated candidate) record := by
  obtain ⟨T', hT', -, hgrown⟩ := h.job hret
  obtain ⟨record₀, halike, hold | ⟨-, frame, _, hjob, packet, candidate, rfl, hparse, hcandidate, rfl⟩⟩ :=
    hgrown key record ((hT'.state key).symm.trans hrecord)
  · rw [← h.state key, hnew] at hold
    cases hold
  · exact ⟨frame, packet, candidate, hjob, hparse, hcandidate, halike⟩

/-- A record that is there before and after a job stays `Alike`. -/
theorem Represents.alike_of_kept {job : Job} (h : Represents s T)
    (hret : machine.Returns allowed (job.code Slots.split) s outcome s') {key : FlowStateKey}
    {record record' : FlowStateValue} (hrecord : s.find .flowState key = some record)
    (hrecord' : s'.find .flowState key = some record') : Alike record record' := by
  obtain ⟨T', hT', -, hgrown⟩ := h.job hret
  rw [h.state] at hrecord
  obtain ⟨record₀, halike, hold | ⟨hnone, -⟩⟩ :=
    hgrown key record' ((hT'.state key).symm.trans hrecord')
  · rw [hrecord, Option.some.injEq] at hold
    exact hold ▸ halike
  · rw [hrecord] at hnone
    cases hnone

/-- In every state of a `Serial` run the maps represent a table. -/
theorem represents_of_run {config : RuntimeConfigValue} {fits : Job → Maps → Prop}
    {choices : Job → Choice → Prop}
    (hrun : machine.Serial (Job.code Slots.split) choices fits (Maps.initial config) s) :
    ∃ T, Represents s T := by
  refine hrun.invariant (I := fun s => ∃ T, Represents s T) ⟨_, (tidy_initial config).toRepresents⟩ ?_
  rintro job value s₁ s₂ ⟨T, hT⟩ - hret
  obtain ⟨T', hT', -⟩ := hT.job hret
  exact ⟨T', hT'⟩

/-! ## The invariant of the flow maps -/

/-- Indexes, records and in-flight counts agree. -/
structure CanonicalMaps (s : Maps) : Prop where
  /-- Every index points to an active record of which its key is a tuple. -/
  indexed : ∀ t index, s.find .flowIndex t = some index → ∃ record,
    s.find .flowState (stateKeyOf index.flowId index.generation) = some record ∧
      record.lifecycle = flowActive ∧ (t = record.original ∨ t = record.target ∨ t = record.reverse)
  active : ∀ key record, s.find .flowState key = some record → record.lifecycle = flowActive
  distinct : ∀ key record, s.find .flowState key = some record →
    record.original ≠ record.target ∧ record.original ≠ record.reverse ∧
      record.target ≠ record.reverse
  /-- The three tuples of a record are indexed to its own identity. -/
  owned : ∀ key record, s.find .flowState key = some record →
    key = stateKeyOf record.flowId record.generation ∧
      ∀ t ∈ [record.original, record.target, record.reverse],
        s.find .flowIndex t = some (indexOf record.flowId record.generation)
  idle : ∀ key record, s.find .flowState key = some record → s.find .packetInflight key = some 0
  /-- No two records share a tuple. -/
  disjoint : ∀ key key' record record', s.find .flowState key = some record →
    s.find .flowState key' = some record' → ∀ t ∈ [record.original, record.target, record.reverse],
      t ∈ [record'.original, record'.target, record'.reverse] → key = key'

theorem Tidy.canonicalMaps (h : Tidy s T) : CanonicalMaps s where
  indexed t index hindex := by
    obtain ⟨record, hf, ht⟩ := h.indexed hindex
    refine ⟨record, (h.state _).trans hf, (T.wellFormed hf).active, ?_⟩
    simpa [tuplesOf] using ht
  active key record hrecord := (T.wellFormed ((h.state key).symm.trans hrecord)).active
  distinct key record hrecord := by
    have hnodup := (T.wellFormed ((h.state key).symm.trans hrecord)).distinct
    simp only [tuplesOf, List.nodup_cons, List.mem_cons, List.not_mem_nil, or_false, not_or,
      not_false_eq_true, List.nodup_nil, and_true] at hnodup
    exact ⟨hnodup.1.1, hnodup.1.2, hnodup.2⟩
  owned key record hrecord :=
    have hf := (h.state key).symm.trans hrecord
    ⟨T.identity hf, h.owned hf⟩
  idle key record hrecord := h.counted ((h.state key).symm.trans hrecord)
  disjoint key key' record record' hrecord hrecord' :=
    T.disjoint ((h.state key).symm.trans hrecord) ((h.state key').symm.trans hrecord')

/-- No map call of a deletion fails; everything else may. -/
def faultFree (job : Job) (c : Choice) : Prop := job.deletes = true → c.fault = false

theorem tidy_of_serial {config : RuntimeConfigValue} {fits : Job → Maps → Prop}
    (hrun : machine.Serial (Job.code Slots.split) faultFree fits (Maps.initial config) s) :
    ∃ T, Tidy s T := by
  refine hrun.invariant (I := fun s => ∃ T, Tidy s T) ⟨_, tidy_initial config⟩ ?_
  rintro job value s₁ s₂ ⟨T, hT⟩ - hret
  obtain ⟨T', -, htidy, -⟩ := hT.toRepresents.job hret
  refine ⟨T', htidy (fun hdeletes => ?_) hT⟩
  rintro ⟨c, hc, hfault⟩
  rw [hc hdeletes] at hfault
  cases hfault

/-- **Whatever runs one after the other, indexes, records and counts agree, and a dropped packet
leaves them exactly as they were.** -/
theorem serial_keeps_canonicalMaps {config : RuntimeConfigValue}
    (hrun : machine.Serial (Job.code Slots.split) faultFree (fun _ _ => True)
      (Maps.initial config) s) :
    CanonicalMaps s ∧ ∀ frame ingress out s',
      machine.Returns (faultFree (.packet frame ingress))
        ((Job.packet frame ingress).code Slots.split) s (.verdict .shot out) s' →
      Same s s' .flowIndex ∧ Same s s' .flowState ∧ Same s s' .packetInflight := by
  obtain ⟨T, hT⟩ := tidy_of_serial hrun
  refine ⟨hT.canonicalMaps, fun frame ingress out s' hret => ?_⟩
  obtain ⟨⟨action, out'⟩, houtcome, hprocessed⟩ := processed_of_returns hret
  cases houtcome
  exact hT.same_of_shot hprocessed

/-- The third index insert of a creation does not fit. -/
def sampleOverflow : List Choice :=
  List.replicate 14 ({} : Choice) ++ [{ fault := true }] ++ List.replicate 20 ({} : Choice)

/-- The sample datagram creates its flow; where its third index does not fit, it is dropped without a
trace. -/
theorem serial_keeps_canonicalMaps_sample :
    (∃ s, machine.Serial (Job.code Slots.split) faultFree (fun _ _ => True)
      (Maps.initial sampleConfig) s ∧ s.size .flowState = 1 ∧ CanonicalMaps s) ∧
    ∃ s', machine.Returns (faultFree (.packet sampleFrame true))
        ((Job.packet sampleFrame true).code Slots.split) (Maps.initial sampleConfig)
        (.verdict .shot sampleFrame) s' ∧
      Same (Maps.initial sampleConfig) s' .flowIndex ∧
      Same (Maps.initial sampleConfig) s' .flowState ∧
      Same (Maps.initial sampleConfig) s' .packetInflight := by
  constructor
  · have hrun : (machine.run ((Job.packet sampleFrame true).code Slots.split) (List.replicate 29 {})
        (Maps.initial sampleConfig)).any (fun r => decide (r.2.1.size .flowState = 1)) = true := by
      decide +kernel
    obtain ⟨value, s, hret, hsize⟩ := Machine.exists_returns_of_run (M := machine)
      (faultFree (.packet sampleFrame true)) (fun _ s => decide (s.size .flowState = 1)) hrun
      fun _ _ h => (nomatch h)
    have hserial : machine.Serial (Job.code Slots.split) faultFree (fun _ _ => True)
        (Maps.initial sampleConfig) s := .step .start trivial hret
    exact ⟨s, hserial, of_decide_eq_true hsize, (serial_keeps_canonicalMaps hserial).1⟩
  · have hrun : (machine.run ((Job.packet sampleFrame true).code Slots.split) sampleOverflow
        (Maps.initial sampleConfig)).any
        (fun r => decide (r.1 = .verdict .shot sampleFrame)) = true := by
      decide +kernel
    obtain ⟨value, s', hret, hshot⟩ := Machine.exists_returns_of_run (M := machine)
      (faultFree (.packet sampleFrame true))
      (fun value _ => decide (value = Outcome.verdict .shot sampleFrame)) hrun
      fun _ _ h => (nomatch h)
    obtain rfl := of_decide_eq_true hshot
    exact ⟨s', hret, (serial_keeps_canonicalMaps .start).2 _ _ _ _ hret⟩

end ShadowSocketProxy.Flows
