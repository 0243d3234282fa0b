import ShadowSocketProxy.Flows.Table

/-! # Packets on the table of flows

A classifier run alone takes maps that represent a table to maps that represent a table: it leaves
the table as it is, touches the record of one flow, or adds one flow. -/

namespace ShadowSocketProxy.Flows

open Bpf Alone
open ControlService (Canonical addressOf addressOf_ipv4ToMapped IpAddr.isUnspecified)

variable {s s' : Maps} {T : FlowTable} {record candidate record' : FlowStateValue}
  {key : FlowStateKey} {packet : PacketInfo} {allowed : Choice → Prop} {frame : List UInt8}
  {ingress : Bool}

/-! ## Candidates -/

theorem canonical_packetKey (h : Parsed packet) : Canonical (packetKey packet) :=
  ⟨⟨rfl, h.family⟩, h.source, h.destination⟩

/-- A `Candidate` made from a parsed packet is `WellFormed` once activated. -/
theorem wellFormed_activated (hparsed : Parsed packet) (hcandidate : Candidate s packet candidate)
    (hdistinct : (tuplesOf (activated candidate)).Nodup) : WellFormed (activated candidate) := by
  obtain ⟨target, port, now, htarget, rfl⟩ := hcandidate.made
  obtain ⟨hport, h4, h6⟩ := usable_of_targetFor htarget
  have hmapped : packet.family = 4 → ∃ a, target = ipv4ToMapped a := fun hfamily =>
    let ⟨a, ha, _⟩ := h4 hfamily
    ⟨a, ha⟩
  refine ⟨rfl, fun t ht => ?_, hdistinct, hparsed.protocol, rfl, rfl, hport, ?_⟩
  · simp only [tuplesOf, List.mem_cons, List.not_mem_nil, or_false] at ht
    rcases ht with rfl | rfl | rfl
    · exact canonical_packetKey hparsed
    · exact ⟨⟨rfl, hparsed.family⟩, hparsed.source, hmapped⟩
    · exact ⟨⟨rfl, hparsed.family⟩, hmapped, hparsed.source⟩
  · show (addressOf packet.family target).isUnspecified = false
    rcases hparsed.family with hfamily | hfamily
    · obtain ⟨a, rfl, ha⟩ := h4 hfamily
      rw [hfamily, addressOf_ipv4ToMapped]
      exact decide_eq_false ha
    · have hne : packet.family ≠ 4 := by
        rw [hfamily]
        decide
      rw [addressOf, if_neg hne]
      exact decide_eq_false (h6 hne)

/-! ## Failed creations -/

/-- A `Failed` creation takes away nothing of a flow. -/
theorem Represents.failed (h : Represents s T) (hfailed : Failed candidate s s') :
    Represents s' T where
  state key := (hfailed.state key).trans (h.state key)
  owned {key record} hf t ht := by
    rcases hfailed.index t with hsame | ⟨-, howned, hnone⟩
    · exact hsame.trans (h.owned hf t ht)
    · -- The index would belong to a record that is not there.
      rw [h.owned hf t ht] at howned
      rw [← ownedBy_ownerOf howned, ← T.identity hf, h.state, hf] at hnone
      cases hnone
  counted {key record} hf := by
    rcases hfailed.inflight key with hsame | ⟨-, hkey, hnone⟩
    · exact hsame.trans (h.counted hf)
    · rw [← hkey, h.state, hf] at hnone
      cases hnone
  decodable t index ht := by
    rcases hfailed.index t with hsame | ⟨hnone, -⟩
    · exact h.decodable t index (hsame.symm.trans ht)
    · rw [hnone] at ht
      cases ht

/-- In `Tidy` maps a `Failed` creation changes nothing at all. -/
theorem Tidy.same_of_failed (h : Tidy s T) (hfailed : Failed candidate s s') :
    Same s s' .flowIndex ∧ Same s s' .packetInflight := by
  refine ⟨fun t => ?_, fun key => ?_⟩
  · rcases hfailed.index t with hsame | ⟨-, howned, hnone⟩
    · exact hsame
    · cases hindex : s.find .flowIndex t with
      | none =>
        rw [hindex] at howned
        cases howned
      | some index =>
        obtain ⟨record, hf, ht⟩ := h.indexed hindex
        have howner := h.owned hf t ht
        rw [howner] at howned
        rw [← ownedBy_ownerOf howned, ← T.identity hf, h.state, hf] at hnone
        cases hnone
  · rcases hfailed.inflight key with hsame | ⟨hgone, hkey, hnone⟩
    · exact hsame
    · rw [hgone, h.uncounted]
      rw [← h.state, hkey, hnone]

theorem Tidy.failed (h : Tidy s T) (hfailed : Failed candidate s s') : Tidy s' T :=
  let ⟨hindex, hinflight⟩ := h.same_of_failed hfailed
  h.of_same hfailed.state hindex hinflight hfailed.guard hfailed.outcome

/-! ## Creations -/

/-- The tuples of a `Created` flow belonged to no flow. -/
theorem Represents.fresh (h : Represents s T) (hcreated : Created record s s')
    (hf : T.flows key = some record') : ∀ t ∈ tuplesOf record, t ∉ tuplesOf record' := by
  intro t ht ht'
  have hfree := hcreated.fresh t ht
  rw [h.owned hf t ht'] at hfree
  cases hfree

theorem Represents.created (h : Represents s T) (hcreated : Created record s s')
    (hrecord : WellFormed record) :
    Represents s' (T.insert record hrecord (h.fresh hcreated)) where
  state key := by
    rw [hcreated.state key, h.state key]
    rfl
  owned {key record'} hf t ht := by
    rw [hcreated.index t]
    simp only [FlowTable.insert] at hf
    split at hf
    · cases hf
      rw [if_pos ht]
    · rw [if_neg fun hnew => h.fresh hcreated hf t hnew ht]
      exact h.owned hf t ht
  counted {key record'} hf := by
    rw [hcreated.inflight key]
    simp only [FlowTable.insert] at hf
    split at hf
    · rename_i hkey
      rw [if_pos hkey]
    · rename_i hkey
      rw [if_neg hkey]
      exact h.counted hf
  decodable t index ht := by
    rw [hcreated.index t] at ht
    split at ht
    · cases ht
      rfl
    · exact h.decodable t index ht

theorem Tidy.created (h : Tidy s T) (hcreated : Created record s s') (hrecord : WellFormed record) :
    Tidy s' (T.insert record hrecord (h.toRepresents.fresh hcreated)) where
  toRepresents := h.toRepresents.created hcreated hrecord
  indexed {t index} hindex := by
    rw [hcreated.index t] at hindex
    simp only [FlowTable.insert]
    split at hindex
    · rename_i ht
      cases hindex
      exact ⟨record, if_pos (key_ownerOf record), ht⟩
    · obtain ⟨record', hf, ht⟩ := h.indexed hindex
      refine ⟨record', ?_, ht⟩
      rw [if_neg ?_]
      · exact hf
      · intro hkey
        rw [hkey, ← h.state, hcreated.key] at hf
        cases hf
  uncounted {key} hnone := by
    simp only [FlowTable.insert] at hnone
    rw [hcreated.inflight key]
    split at hnone
    · cases hnone
    · rename_i hkey
      rw [if_neg hkey]
      exact h.uncounted hnone
  unguarded key := (hcreated.guard key).trans (h.unguarded key)
  undecided key := (hcreated.outcome key).trans (h.undecided key)

/-! ## Admissions -/

/-- `Represents` with a write into the record of a flow. -/
theorem Represents.replace (h : Represents s T) (hold : T.flows key = some record)
    (halike : Alike record record')
    (hstate : ∀ key', s'.find .flowState key' =
      if key' = key then some record' else s.find .flowState key') (hindex : Same s s' .flowIndex)
    (hinflight : Same s s' .packetInflight) :
    Represents s' (T.replace key record record' hold halike) where
  state key' := by
    rw [hstate key', h.state key']
    rfl
  owned {key' r} hf t ht := by
    rw [hindex t]
    simp only [FlowTable.replace] at hf
    split at hf
    · cases hf
      rw [halike.ownerOf_eq]
      rw [halike.tuplesOf_eq] at ht
      exact h.owned hold t ht
    · exact h.owned hf t ht
  counted {key' r} hf := by
    rw [hinflight key']
    simp only [FlowTable.replace] at hf
    split at hf
    · rename_i hkey
      rw [hkey]
      exact h.counted hold
    · exact h.counted hf
  decodable t index ht := h.decodable t index ((hindex t).symm.trans ht)

theorem Tidy.replace (h : Tidy s T) (hold : T.flows key = some record)
    (halike : Alike record record')
    (hstate : ∀ key', s'.find .flowState key' =
      if key' = key then some record' else s.find .flowState key') (hindex : Same s s' .flowIndex)
    (hinflight : Same s s' .packetInflight) (hguard : Same s s' .deleteGuard)
    (houtcome : Same s s' .deleteOutcome) :
    Tidy s' (T.replace key record record' hold halike) where
  toRepresents := h.toRepresents.replace hold halike hstate hindex hinflight
  indexed {t index} ht := by
    obtain ⟨r, hf, hmem⟩ := h.indexed ((hindex t).symm.trans ht)
    simp only [FlowTable.replace]
    split
    · rename_i hkey
      refine ⟨record', rfl, ?_⟩
      rw [hkey, hold, Option.some.injEq] at hf
      rw [halike.tuplesOf_eq, hf]
      exact hmem
    · exact ⟨r, hf, hmem⟩
  uncounted {key'} hnone := by
    simp only [FlowTable.replace] at hnone
    split at hnone
    · cases hnone
    · exact (hinflight key').trans (h.uncounted hnone)
  unguarded key' := (hguard key').trans (h.unguarded key')
  undecided key' := (houtcome key').trans (h.undecided key')

/-- Every record of the second table continues one of the first, or was born under a key that was
free. -/
def Grown (born : FlowStateValue → Prop) (T T' : FlowTable) : Prop :=
  ∀ key record, T'.flows key = some record →
    ∃ record₀, Alike record₀ record ∧ (T.flows key = some record₀ ∨ T.flows key = none ∧ born record₀)

theorem Grown.refl (born : FlowStateValue → Prop) (T : FlowTable) : Grown born T T :=
  fun _ _ hf => ⟨_, rfl, .inl hf⟩

/-- An `Admission` touches at most the record of its flow. -/
theorem Represents.admission {result : TcAction × List UInt8} (h : Represents s T)
    (hrecord : s.find .flowState key = some record)
    (hadmission : Admission allowed frame packet ingress key record s s' result)
    (born : FlowStateValue → Prop) :
    ∃ T', Represents s' T' ∧ (Tidy s T → Tidy s' T') ∧ Grown born T T' := by
  cases hadmission with
  | refused hwhy hchecked hinflight =>
    refine ⟨T, h.of_same hchecked.state hchecked.index hinflight, fun htidy => ?_, .refl born T⟩
    exact htidy.of_same hchecked.state hchecked.index hinflight
      (hchecked.guard (htidy.unguarded key)) (hchecked.outcome (htidy.unguarded key))
  | admitted write hthawed hchecked hinflight hothers hstate =>
    have hold : T.flows key = some record := (h.state key).symm.trans hrecord
    have halike : Alike record (write.apply record) := fixedPart_apply write record
    have hindex := hchecked.index.trans (hothers _ (by decide) (by decide))
    refine ⟨T.replace key record _ hold halike, h.replace hold halike hstate hindex hinflight,
      fun htidy => ?_, fun key' r hf => ?_⟩
    · have hnone := htidy.unguarded key
      exact htidy.replace hold halike hstate hindex hinflight
        ((hchecked.guard hnone).trans (hothers _ (by decide) (by decide)))
        ((hchecked.outcome hnone).trans (hothers _ (by decide) (by decide)))
    · simp only [FlowTable.replace] at hf
      split at hf
      · rename_i hkey
        cases hf
        exact ⟨record, halike, .inl (hkey ▸ hold)⟩
      · exact ⟨r, rfl, .inl hf⟩

/-! ## Packets -/

/-- The records a frame may give birth to: it is a forward frame whose tuple is not indexed. -/
def BornOf (s : Maps) (frame : List UInt8) (ingress : Bool) (record : FlowStateValue) : Prop :=
  ∃ packet candidate, ingress = true ∧ parsePacket frame = some packet ∧
    Candidate s packet candidate ∧ record = activated candidate

/-- **What a packet alone has `Processed` still `Represents` a table, and `Tidy` maps stay so.** -/
theorem Represents.processed {result : TcAction × List UInt8} (h : Represents s T)
    (hprocessed : Processed allowed frame ingress s s' result) :
    ∃ T', Represents s' T' ∧ (Tidy s T → Tidy s' T') ∧ Grown (BornOf s frame ingress) T T' := by
  cases hprocessed with
  | passed hwhy hbeside =>
    exact ⟨T, h.of_same (hbeside _ (by decide)) (hbeside _ (by decide)) (hbeside _ (by decide)),
      fun htidy => htidy.of_same (hbeside _ (by decide)) (hbeside _ (by decide))
        (hbeside _ (by decide)) (hbeside _ (by decide)) (hbeside _ (by decide)), .refl _ T⟩
  | dropped hingress hparse hcandidate hfailed =>
    exact ⟨T, h.failed hfailed, fun htidy => htidy.failed hfailed, .refl _ T⟩
  | resolved hparse hcontrol hindex hrecord hactive hadmission =>
    exact h.admission hrecord hadmission _
  | created hingress hparse hcandidate hcreated hadmission =>
    have hrecord := wellFormed_activated (parsed_of_parsePacket hparse) hcandidate hcreated.distinct
    have hfound := (hcreated.state _).trans (if_pos rfl)
    obtain ⟨T', hT', htidy', hgrown⟩ :=
      (h.created hcreated hrecord).admission hfound hadmission fun _ => False
    refine ⟨T', hT', fun htidy => htidy' (htidy.created hcreated hrecord), fun key record hf => ?_⟩
    obtain ⟨record₀, halike, hf₀ | ⟨-, hfalse⟩⟩ := hgrown key record hf
    · refine ⟨record₀, halike, ?_⟩
      simp only [FlowTable.insert] at hf₀
      split at hf₀
      · rename_i hkey
        cases hf₀
        rw [← h.state, hkey]
        exact .inr ⟨hcreated.key, _, _, hingress, hparse, hcandidate, rfl⟩
      · exact .inl hf₀
    · exact hfalse.elim

/-- **A dropped packet leaves no trace in `Tidy` maps.** -/
theorem Tidy.same_of_shot {out : List UInt8} (h : Tidy s T)
    (hprocessed : Processed allowed frame ingress s s' (.shot, out)) :
    Same s s' .flowIndex ∧ Same s s' .flowState ∧ Same s s' .packetInflight := by
  cases hprocessed with
  | dropped hingress hparse hcandidate hfailed =>
    obtain ⟨hindex, hinflight⟩ := h.same_of_failed hfailed
    exact ⟨hindex, hfailed.state, hinflight⟩
  | resolved hparse hcontrol hindex hrecord hactive hadmission =>
    cases hadmission with
    | refused hwhy hchecked hinflight => exact ⟨hchecked.index, hchecked.state, hinflight⟩
  | @created s₁ _ _ candidate _ hingress hparse hcandidate hcreated hadmission =>
    cases hadmission with
    | refused hwhy hchecked hinflight =>
      -- A new flow has a count and, in tidy maps, neither guard nor outcome.
      refine absurd ⟨fun c _ => ?_, ?_⟩ hwhy
      · rw [hcreated.guard, hcreated.outcome, h.unguarded, h.undecided]
        rfl
      · rw [hcreated.inflight (keyOf candidate), if_pos (by rfl)]
        rfl

end ShadowSocketProxy.Flows
