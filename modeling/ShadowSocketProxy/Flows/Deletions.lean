import ShadowSocketProxy.Flows.Packets

/-! # Deletions on the table of flows

A deletion alone takes maps that represent a table to maps that represent the table or the table
without the flow, even when its map calls fail. Without failing calls it keeps tidy maps tidy. -/

namespace ShadowSocketProxy.Flows

open Bpf Alone

variable {s s' : Maps} {T : FlowTable} {allowed : Choice → Prop} {flowId : UInt64}
  {generation : UInt32}

/-- The index of another flow is not `ownedBy` the deleted one. -/
theorem Represents.not_owned (h : Represents s T) {key : FlowStateKey} {record : FlowStateValue}
    (hf : T.flows key = some record) (hkey : key ≠ stateKeyOf flowId generation) {t : TupleKey}
    (ht : t ∈ tuplesOf record) :
    ownedBy (indexOf flowId generation) (s.find .flowIndex t) ≠ true := by
  intro howned
  rw [h.owned hf t ht] at howned
  obtain ⟨hid, hgeneration⟩ := ownedBy_some_iff.mp howned
  refine hkey ?_
  rw [T.identity hf, keyOf, show record.flowId = flowId from hid,
    show record.generation = generation from hgeneration]

theorem Represents.erased (h : Represents s T)
    (herased : Erased (indexOf flowId generation) (stateKeyOf flowId generation) s s') :
    Represents s' (T.erase (stateKeyOf flowId generation)) where
  state key := by
    rw [herased.state key, h.state key]
    rfl
  owned {key record} hf t ht := by
    simp only [FlowTable.erase] at hf
    split at hf
    · cases hf
    · rename_i hkey
      rcases herased.index t with hsame | ⟨-, howned⟩
      · exact hsame.trans (h.owned hf t ht)
      · exact absurd howned (h.not_owned hf hkey ht)
  counted {key record} hf := by
    simp only [FlowTable.erase] at hf
    split at hf
    · cases hf
    · rename_i hkey
      exact (herased.inflight key hkey).trans (h.counted hf)
  decodable t index ht := by
    rcases herased.index t with hsame | ⟨hnone, -⟩
    · exact h.decodable t index (hsame.symm.trans ht)
    · rw [hnone] at ht
      cases ht

/-- Every tuple of a flow of the table is `Concerned` by a cleanup of the flow. -/
theorem Represents.concerned (h : Represents s T) {key : FlowStateKey} {record : FlowStateValue}
    (hf : T.flows key = some record) {t : TupleKey} (ht : t ∈ tuplesOf record) :
    Concerned s key t := by
  intro record' hrecord'
  rw [h.state, hf, Option.some.injEq] at hrecord'
  rw [← hrecord']
  exact ⟨(T.wellFormed hf).canonical, ht⟩

theorem Tidy.erased (h : Tidy s T) (hfaultless : ¬ Faulty allowed)
    (herased : Erased (indexOf flowId generation) (stateKeyOf flowId generation) s s')
    (hcleared : Cleared allowed (indexOf flowId generation) (stateKeyOf flowId generation)
      (Concerned s (stateKeyOf flowId generation)) s s')
    (hguard : s'.find .deleteGuard (stateKeyOf flowId generation) = none)
    (houtcome : s'.find .deleteOutcome (stateKeyOf flowId generation) = none) :
    Tidy s' (T.erase (stateKeyOf flowId generation)) where
  toRepresents := h.toRepresents.erased herased
  indexed {t index} ht := by
    have hold : s.find .flowIndex t = some index := by
      rcases herased.index t with hsame | ⟨hnone, -⟩
      · exact hsame.symm.trans ht
      · rw [hnone] at ht
        cases ht
    obtain ⟨record, hf, hmem⟩ := h.indexed hold
    refine ⟨record, ?_, hmem⟩
    simp only [FlowTable.erase]
    split
    · -- An index of the deleted flow would have been removed.
      rename_i hkey
      have hcanonical := h.toRepresents.concerned hf hmem
      rw [hkey] at hcanonical
      have hgone := hcleared.index hfaultless h.decodable t hcanonical
      rw [ht, Bool.eq_false_iff, ne_eq, ownedBy_some_iff] at hgone
      simp only [stateKeyOf, FlowStateKey.mk.injEq, true_and] at hkey
      exact absurd hkey hgone
    · exact hf
  uncounted {key} hnone := by
    simp only [FlowTable.erase] at hnone
    split at hnone
    · rename_i hkey
      rw [hkey]
      exact hcleared.inflight hfaultless
    · rename_i hkey
      exact (herased.inflight key hkey).trans (h.uncounted hnone)
  unguarded key := by
    by_cases hkey : key = stateKeyOf flowId generation
    · rw [hkey, hguard]
    · exact (herased.guard key hkey).trans (h.unguarded key)
  undecided key := by
    by_cases hkey : key = stateKeyOf flowId generation
    · rw [hkey, houtcome]
    · exact (herased.outcome key hkey).trans (h.undecided key)

theorem Tidy.aside {key : FlowStateKey} (h : Tidy s T) (haside : Aside key s s')
    (hguard : s'.find .deleteGuard key = none) (houtcome : s'.find .deleteOutcome key = none) :
    Tidy s' T := by
  refine h.of_same haside.state haside.index haside.inflight (fun key' => ?_) fun key' => ?_
  · by_cases hkey : key' = key
    · rw [hkey, hguard, h.unguarded]
    · exact haside.guard key' hkey
  · by_cases hkey : key' = key
    · rw [hkey, houtcome, h.undecided]
    · exact haside.outcome key' hkey

/-- **A `Deletion` alone keeps the maps representing a table.** -/
theorem Represents.deletion (h : Represents s T)
    (hdeletion : Deletion allowed (indexOf flowId generation) (stateKeyOf flowId generation) s s')
    (born : FlowStateValue → Prop) :
    ∃ T', Represents s' T' ∧ (¬ Faulty allowed → Tidy s T → Tidy s' T') ∧ Grown born T T' := by
  cases hdeletion with
  | kept haside hwhy hclean =>
    refine ⟨T, h.of_same haside.state haside.index haside.inflight, fun hfaultless htidy => ?_,
      .refl born T⟩
    obtain ⟨hguard, houtcome⟩ := hclean hfaultless (htidy.unguarded _)
    exact htidy.aside haside hguard houtcome
  | erased herased hcleared hclean =>
    refine ⟨T.erase (stateKeyOf flowId generation), h.erased herased, fun hfaultless htidy => ?_,
      fun key record hf => ?_⟩
    · obtain ⟨hguard, houtcome⟩ := hclean hfaultless
      exact htidy.erased hfaultless herased hcleared hguard houtcome
    · simp only [FlowTable.erase] at hf
      split at hf
      · cases hf
      · exact ⟨record, rfl, .inl hf⟩

end ShadowSocketProxy.Flows
