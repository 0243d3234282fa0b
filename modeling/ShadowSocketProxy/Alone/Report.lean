import ShadowSocketProxy.Alone.Deletion

/-! # What a deletion reports

`delete_flow` run alone on maps without packets and guards, where no map call fails but the push to the
release queue, which may refuse. The run then goes one way only, and the report says what it did. How
the removal of an absent key is reported is a matter of the map library; both ways are considered. -/

namespace ShadowSocketProxy.Alone

open Interleaving Bpf ControlService
open Interleaving.Machine (wp_mono wp_seq wp_seqE)

/-- Whether the operation is a push to the release queue. -/
def pushes : Op → Bool
  | .hostPush _ => true
  | _ => false

/-- The map operations with pushes that fail or not, and with absent keys reported as such or as failed
calls. -/
def adapterMachine (failing reported : Bool) : Machine Op Resp Maps Choice :=
  ⟨fun c op s => exec { c with fault := failing && pushes op, missing := reported } op s⟩

/-- What every result of a program on the `adapterMachine` must be. -/
abbrev Settles {β : Type} (failing reported : Bool) (p : Prog β) (Q : β → Maps → Prop) (s : Maps) : Prop :=
  (adapterMachine failing reported).wp (fun _ => True) p Q s

variable {failing reported : Bool} {s : Maps} {β : Type}

/-! ## Calls -/

section Calls

variable {m : MapId} {k : m.Key} {Q : Except BackendError β → Maps → Prop}

theorem settles_getOption :
    Settles failing reported (getOption m k).run (fun r s' => r = .ok (s.find m k) ∧ s' = s) s := by
  intro c resp s' _ hexec
  have hexec : exec { c with fault := failing && false, missing := reported } (.hostGet m k) s =
    some (resp, s') := hexec
  simp only [exec, hostCall, Bool.and_false, Bool.false_eq_true, if_false] at hexec
  split at hexec
  · rename_i value hvalue
    cases hexec
    exact ⟨congrArg _ hvalue.symm, rfl⟩
  · rename_i hnone
    cases hexec
    exact ⟨congrArg _ hnone.symm, rfl⟩

theorem settles_insertKey {value : m.Val} {flag : UpdateFlag}
    (hfree : flag.refuses (s.find m k).isSome = false) :
    Settles failing reported (insertKey m k value flag).run
      (fun r s' => r = .ok () ∧ s' = s.put m k value) s := by
  intro c resp s' _ hexec
  have hexec : exec { c with fault := failing && false, missing := reported }
    (.hostInsert m k value flag) s = some (resp, s') := hexec
  simp only [exec, hostCall, Bool.and_false, Bool.false_eq_true, if_false, hfree] at hexec
  cases hexec
  exact ⟨rfl, rfl⟩

theorem settles_removeKey :
    Settles failing reported (removeKey m k).run (fun r s' =>
      if (s.find m k).isSome then r = .ok () ∧ s' = s.remove m k else (∃ e, r = .error e) ∧ s' = s) s := by
  intro c resp s' _ hexec
  have hexec : exec { c with fault := failing && false, missing := reported } (.hostRemove m k) s =
    some (resp, s') := hexec
  simp only [exec, hostCall, Bool.and_false, Bool.false_eq_true, if_false] at hexec
  split
  · rename_i hsome
    rw [if_pos hsome] at hexec
    cases hexec
    exact ⟨rfl, rfl⟩
  · rename_i hnone
    rw [if_neg hnone] at hexec
    cases hexec
    exact ⟨⟨_, rfl⟩, rfl⟩

theorem settles_removeIfPresent :
    Settles failing reported (removeIfPresent m k).run (fun r s' =>
      if (s.find m k).isSome then r = .ok () ∧ s' = s.remove m k else r.isOk = reported ∧ s' = s) s := by
  intro c resp s' _ hexec
  have hexec : exec { c with fault := failing && false, missing := reported } (.hostRemove m k) s =
    some (resp, s') := hexec
  simp only [exec, hostCall, Bool.and_false, Bool.false_eq_true, if_false] at hexec
  split
  · rename_i hsome
    rw [if_pos hsome] at hexec
    cases hexec
    exact ⟨rfl, rfl⟩
  · rename_i hnone
    rw [if_neg hnone] at hexec
    cases hexec
    cases reported <;> exact ⟨rfl, rfl⟩

theorem settles_iterate :
    Settles failing reported (iterate m).run
      (fun r s' => r = .ok (s.tables m).pairs ∧ s' = s) s := by
  intro c resp s' _ hexec
  have hexec : exec { c with fault := failing && false, missing := reported } (.hostIter m) s =
    some (resp, s') := hexec
  simp only [exec, hostCall, Bool.and_false, Bool.false_eq_true, if_false] at hexec
  cases hexec
  exact ⟨rfl, rfl⟩

/-- A call that goes one way, then the rest. -/
theorem settles_then {α : Type} {p : Host α} {f : α → Host β} {value : α} {s' : Maps}
    (hp : Settles failing reported p.run (fun r s₁ => r = .ok value ∧ s₁ = s') s)
    (hf : Settles failing reported (f value).run Q s') :
    Settles failing reported (p >>= f).run Q s := by
  refine wp_seqE hp ?_ ?_
  · rintro v s₁ ⟨heq, rfl⟩
    cases heq
    exact hf
  · rintro e s₁ ⟨heq, -⟩
    cases heq

end Calls

/-! ## Guard and commit -/

section Round

variable {key : FlowStateKey}

theorem settles_pollQuiescent (h : s.find .packetInflight key = some 0) :
    Settles failing reported (pollQuiescent key pollLimit).run (fun r s' => r = .ok true ∧ s' = s) s := by
  show Settles failing reported (pollQuiescent key (127 + 1)).run _ s
  rw [pollQuiescent]
  have hread : Settles failing reported (readInflight key).run (fun r s' => r = .ok 0 ∧ s' = s) s := by
    refine settles_then settles_getOption ?_
    rw [h]
    exact ⟨rfl, rfl⟩
  refine settles_then hread ?_
  rw [if_pos rfl]
  exact ⟨rfl, rfl⟩

theorem settles_installGuard (hguard : s.find .deleteGuard key = none)
    (houtcome : s.find .deleteOutcome key = none) (deadline : UInt64) :
    Settles failing reported (installGuard key deadline).run
      (fun r s' => r = .ok true ∧ s' = s.put .deleteGuard key deadline) s := by
  refine settles_then settles_getOption ?_
  rw [hguard]
  refine wp_attempt settles_removeKey fun removed s₁ hremoved => ?_
  rw [houtcome, if_neg (by simp)] at hremoved
  obtain ⟨-, rfl⟩ := hremoved
  refine settles_then (settles_insertKey ?_) ⟨rfl, rfl⟩
  rw [hguard]
  rfl

theorem settles_commitDeletion {record : FlowStateValue} (hinflight : s.find .packetInflight key = some 0)
    (hrecord : s.find .flowState key = some record) (houtcome : s.find .deleteOutcome key = none) :
    Settles failing reported (commitDeletion key).run
      (fun r s' => r = .ok (.flow record) ∧ s' = s.put .deleteOutcome key flowDeleteCommitted) s := by
  have hstable : Settles failing reported (readStable key).run
      (fun r s' => r = .ok (some record) ∧ s' = s) s := by
    refine settles_then (settles_pollQuiescent hinflight) ?_
    rw [if_pos rfl, ← hrecord]
    exact settles_getOption
  refine settles_then hstable (wp_attempt (settles_insertKey ?_) ?_)
  · rw [houtcome]
    rfl
  · rintro _ _ ⟨rfl, rfl⟩
    refine settles_then (settles_pollQuiescent ?_) ?_
    · simpa using hinflight
    · rw [if_pos rfl]
      refine settles_then settles_getOption ?_
      rw [Maps.find_put_of_ne _ _ _ (by decide), hrecord]
      exact ⟨rfl, rfl⟩

end Round

/-! ## Cleanup -/

section Cleanup

variable {expected : ControlService.FlowIndexValue} {key : FlowStateKey} {tuples : List TupleKey}

/-- Remove the indexes of a list. -/
def removeAll (tuples : List TupleKey) (s : Maps) : Maps :=
  tuples.foldl (fun s t => s.remove .flowIndex t) s

theorem find_removeAll (tuples : List TupleKey) (s : Maps) (t : TupleKey) :
    (removeAll tuples s).find .flowIndex t = if t ∈ tuples then none else s.find .flowIndex t := by
  induction tuples generalizing s with
  | nil => rfl
  | cons t' tuples ih =>
    rw [removeAll, List.foldl_cons, ← removeAll, ih, Maps.find_remove]
    by_cases ht : t = t'
    · simp [ht]
    · simp [ht]

@[simp] theorem find_removeAll_of_ne (tuples : List TupleKey) (s : Maps) {m : MapId} (hm : m ≠ .flowIndex)
    (k : m.Key) : (removeAll tuples s).find m k = s.find m k := by
  induction tuples generalizing s with
  | nil => rfl
  | cons t tuples ih =>
    rw [removeAll, List.foldl_cons, ← removeAll, ih]
    exact same_remove_of_ne s hm t k

theorem settles_removeIndex {t : TupleKey} (h : s.find .flowIndex t = some (ownerFor expected)) :
    Settles failing reported (removeIndex expected t).run
      (fun r s' => r = .ok true ∧ s' = s.remove .flowIndex t) s := by
  refine settles_then settles_getOption ?_
  rw [h]
  have hdecode : decodeFlowIndex (ownerFor expected).pack = .ok expected := by
    rw [decodeFlowIndex_pack, if_neg fun hversion => hversion rfl]
    rfl
  have hdecoded : Settles failing reported
      (decoded "flow-index:decode" (decodeFlowIndex (ownerFor expected).pack)).run
      (fun r s' => r = .ok expected ∧ s' = s) s := by
    rw [hdecode]
    exact ⟨rfl, rfl⟩
  refine settles_then hdecoded ?_
  rw [if_pos rfl]
  have hremove : Settles failing reported (removeKey .flowIndex t).run
      (fun r s' => r = .ok () ∧ s' = s.remove .flowIndex t) s := by
    refine wp_mono settles_removeKey fun r s' hr => ?_
    rw [h] at hr
    exact hr
  exact settles_then hremove ⟨rfl, rfl⟩

theorem settles_removeIndexes (hnodup : tuples.Nodup)
    (h : ∀ t ∈ tuples, s.find .flowIndex t = some (ownerFor expected)) :
    Settles failing reported (removeIndexes expected tuples).run
      (fun r s' => r = .ok (tuples.length, false) ∧ s' = removeAll tuples s) s := by
  induction tuples generalizing s with
  | nil => exact ⟨rfl, rfl⟩
  | cons t tuples ih =>
    obtain ⟨hnew, hnodup⟩ := List.nodup_cons.mp hnodup
    refine wp_attempt (settles_removeIndex (h t List.mem_cons_self)) ?_
    rintro _ _ ⟨rfl, rfl⟩
    refine settles_then (ih hnodup fun t' ht' => ?_) ⟨rfl, rfl⟩
    have hne : t' ≠ t := fun heq => hnew (heq ▸ ht')
    rw [Maps.find_remove, if_neg hne]
    exact h t' (List.mem_cons_of_mem _ ht')

/-- `publishRelease` changes no map; it fails when there is something to push and pushes fail. -/
theorem settles_publishRelease :
    Settles failing reported (publishRelease key).run (fun r s' =>
      r = .ok (failing && (s.find .releasePending key).isSome) ∧ ∀ m, Same s s' m) s := by
  refine settles_then settles_getOption ?_
  cases hpending : s.find .releasePending key with
  | none =>
    refine ⟨?_, fun m => Same.refl s m⟩
    rw [Option.isSome_none, Bool.and_false]
  | some value =>
    intro c resp s' _ hexec
    have hexec : exec { c with fault := failing && true, missing := reported } (.hostPush key) s =
      some (resp, s') := hexec
    simp only [exec, hostCall, Bool.and_true] at hexec
    cases failing with
    | true =>
      cases hexec
      exact ⟨rfl, fun m => Same.refl s m⟩
    | false =>
      cases hexec
      exact ⟨rfl, fun m k => rfl⟩

/-- `finishCleanup` removes the listed indexes and the in-flight count, and publishes the release. -/
theorem settles_finishCleanup (hnodup : tuples.Nodup)
    (h : ∀ t ∈ tuples, s.find .flowIndex t = some (ownerFor expected))
    (stateDeleted staleGeneration : Bool) :
    Settles failing reported (finishCleanup expected key tuples stateDeleted staleGeneration).run
      (fun r s' => r = .ok
          { stateDeleted := stateDeleted
            indexesDeleted := tuples.length
            isPartial := !((s.find .packetInflight key).isSome || reported) ||
              failing && (s.find .releasePending key).isSome
            staleGeneration := staleGeneration } ∧
        ∀ m, Same ((removeAll tuples s).remove .packetInflight key) s' m) s := by
  refine settles_then (settles_removeIndexes hnodup h) ?_
  have hinflight : (removeAll tuples s).find .packetInflight key = s.find .packetInflight key :=
    find_removeAll_of_ne (m := .packetInflight) tuples s (by decide) key
  refine wp_attempt settles_removeIfPresent fun removed s₁ hremoved => ?_
  -- whether or not there was a count, it is not there afterwards
  have hs₁ : removed.isOk = ((s.find .packetInflight key).isSome || reported) ∧
      ∀ m, Same ((removeAll tuples s).remove .packetInflight key) s₁ m := by
    rw [hinflight] at hremoved
    split at hremoved
    · rename_i hsome
      obtain ⟨rfl, rfl⟩ := hremoved
      rw [hsome]
      exact ⟨rfl, fun m => Same.refl _ m⟩
    · rename_i hnone
      obtain ⟨hok, rfl⟩ := hremoved
      rw [Option.not_isSome_iff_eq_none] at hnone
      rw [hnone, hok]
      refine ⟨rfl, fun m k => ?_⟩
      by_cases hm : m = .packetInflight
      · subst hm
        rw [Maps.find_remove]
        split
        · rename_i heq
          rw [heq, hinflight, hnone]
        · rfl
      · exact (same_remove_of_ne _ hm key k).symm
  have hpending : s₁.find .releasePending key = s.find .releasePending key := by
    rw [hs₁.2 .releasePending key]
    simp
  refine wp_seqE settles_publishRelease ?_ ?_
  · rintro unpublished s₂ ⟨heq, hsame⟩
    cases heq
    refine ⟨?_, fun m => (hs₁.2 m).trans (hsame m)⟩
    rw [hs₁.1, hpending]
    simp only [Bool.false_or]
  · rintro e s₂ ⟨heq, -⟩
    cases heq

/-- The flow is gone with the listed indexes, and its release is in the journal. -/
structure Deleted (key : FlowStateKey) (tuples : List TupleKey) (s s' : Maps) : Prop where
  state : ∀ k, s'.find .flowState k = if k = key then none else s.find .flowState k
  index : ∀ t, s'.find .flowIndex t = if t ∈ tuples then none else s.find .flowIndex t
  inflight : ∀ k, s'.find .packetInflight k = if k = key then none else s.find .packetInflight k
  pending : ∀ k, s'.find .releasePending k =
    if k = key then some flowReleasePending else s.find .releasePending k
  guard : Same s s' .deleteGuard
  outcome : Same s s' .deleteOutcome

theorem Deleted.of_same {s' s'' : Maps} (h : Deleted key tuples s s') (hsame : ∀ m, Same s' s'' m) :
    Deleted key tuples s s'' where
  state k := (hsame .flowState k).trans (h.state k)
  index t := (hsame .flowIndex t).trans (h.index t)
  inflight k := (hsame .packetInflight k).trans (h.inflight k)
  pending k := (hsame .releasePending k).trans (h.pending k)
  guard := h.guard.trans (hsame .deleteGuard)
  outcome := h.outcome.trans (hsame .deleteOutcome)

/-- The flow is `Deleted` behind journal entry, record, indexes and count, one after the other. -/
theorem deleted_removeAll (tuples : List TupleKey) (s : Maps) :
    Deleted key tuples s ((removeAll tuples ((s.put .releasePending key flowReleasePending).remove
      .flowState key)).remove .packetInflight key) where
  state k := by simp [Maps.find_remove]
  index t := by simp [find_removeAll]
  inflight k := by simp [Maps.find_remove]
  pending k := by simp [Maps.find_put]
  guard k := by simp
  outcome k := by simp

/-- `removeRecord` of a record whose indexes are all there. -/
theorem settles_removeRecord (hnodup : tuples.Nodup)
    (hindexes : ∀ t ∈ tuples, s.find .flowIndex t = some (ownerFor expected))
    (hrecord : (s.find .flowState key).isSome) (hinflight : s.find .packetInflight key = some 0) :
    Settles failing reported (removeRecord expected key tuples).run (fun r s' =>
      r = .ok { stateDeleted := true, indexesDeleted := tuples.length, isPartial := failing } ∧
        Deleted key tuples s s') s := by
  refine settles_then (settles_insertKey rfl) (wp_attempt settles_removeKey fun removed s₁ hremoved => ?_)
  rw [Maps.find_put_of_ne _ _ _ (by decide), if_pos hrecord] at hremoved
  obtain ⟨rfl, rfl⟩ := hremoved
  refine wp_mono (settles_finishCleanup hnodup ?_ true false) ?_
  · intro t ht
    simpa using hindexes t ht
  · rintro r s₂ ⟨rfl, hsame⟩
    refine ⟨?_, (deleted_removeAll tuples s).of_same hsame⟩
    simp [hinflight]

end Cleanup

/-! ## Deletions -/

section Deletions

variable {flowId deadline : UInt64} {generation outcome : UInt32} {flow : FlowState} {s' : Maps}

/-- The tuple keys of a decoded flow, as a deletion goes through them. -/
def tupleKeysOf (flow : FlowState) : List TupleKey :=
  sortedKeys [encodeKey flow.original, encodeKey flow.target, encodeKey flow.reverse]

/-- The maps hold an idle flow with all its indexes, and no deletion is on the way. -/
structure Present (flowId : UInt64) (generation : UInt32) (record : FlowStateValue) (flow : FlowState)
    (s : Maps) : Prop where
  state : s.find .flowState (stateKeyOf flowId generation) = some record
  decodes : decodeFlowState record.pack = .ok flow
  nodup : (tupleKeysOf flow).Nodup
  index : ∀ t ∈ tupleKeysOf flow, s.find .flowIndex t = some (indexOf flowId generation)
  inflight : s.find .packetInflight (stateKeyOf flowId generation) = some 0
  guard : s.find .deleteGuard (stateKeyOf flowId generation) = none
  outcome : s.find .deleteOutcome (stateKeyOf flowId generation) = none

/-- The report of deleting a flow that is there. -/
def presentReport (failing : Bool) (observed : UInt64) (flow : FlowState) : FlowCleanupReport :=
  if observed ≠ 0 ∧ flow.lastUsedNs ≠ observed then .mismatch
  else { stateDeleted := true, indexesDeleted := (tupleKeysOf flow).length, isPartial := failing }

/-- What deleting a flow that is there does to the maps. -/
def PresentEffect (flowId : UInt64) (generation : UInt32) (observed : UInt64) (flow : FlowState)
    (s s' : Maps) : Prop :=
  if observed ≠ 0 ∧ flow.lastUsedNs ≠ observed then ∀ m, Same s s' m
  else Deleted (stateKeyOf flowId generation) (tupleKeysOf flow) s s'

/-- With guard and outcome in place, `cleanupRecord` reports what it finds. -/
theorem settles_cleanupRecord {record : FlowStateValue} {s : Maps}
    (hrecord : s.find .flowState (stateKeyOf flowId generation) = some record)
    (hdecode : decodeFlowState record.pack = .ok flow) (hnodup : (tupleKeysOf flow).Nodup)
    (hindex : ∀ t ∈ tupleKeysOf flow, s.find .flowIndex t = some (indexOf flowId generation))
    (hinflight : s.find .packetInflight (stateKeyOf flowId generation) = some 0)
    (observed : UInt64) :
    Settles failing reported
      (cleanupRecord ⟨flowId, generation⟩ (stateKeyOf flowId generation) observed record).run
      (fun r s' => r = .ok (presentReport failing observed flow) ∧
        PresentEffect flowId generation observed flow s s') s := by
  unfold cleanupRecord
  have hdecoded : Settles failing reported
      (decoded "flow-state:decode" (decodeFlowState record.pack)).run
      (fun r s' => r = .ok flow ∧ s' = s) s := by
    rw [hdecode]
    exact ⟨rfl, rfl⟩
  refine settles_then hdecoded ?_
  unfold presentReport PresentEffect
  by_cases hmismatch : observed ≠ 0 ∧ flow.lastUsedNs ≠ observed
  · simp only [if_pos hmismatch]
    exact ⟨rfl, fun m => Same.refl s m⟩
  · simp only [if_neg hmismatch]
    exact settles_removeRecord hnodup hindex (Option.isSome_of_eq_some hrecord) hinflight

/-- Guard and outcome leave no trace once they are removed again. -/
theorem same_of_round {s : Maps} {key : FlowStateKey} {m : MapId}
    (hguard : s.find .deleteGuard key = none) (houtcome : s.find .deleteOutcome key = none)
    (h : Same ((s.put .deleteGuard key deadline).put .deleteOutcome key outcome) s' m) :
    Same s ((s'.remove .deleteGuard key).remove .deleteOutcome key) m := by
  intro k
  by_cases hm : m = .deleteOutcome
  · subst hm
    by_cases hk : k = key
    · simp [hk, houtcome]
    · simp [Maps.find_remove, hk, h k, Maps.find_put]
  · rw [Maps.find_remove_of_ne _ _ hm]
    by_cases hm' : m = .deleteGuard
    · subst hm'
      by_cases hk : k = key
      · simp [hk, hguard]
      · simp [Maps.find_remove, hk, h k, Maps.find_put]
    · simp [hm, hm', h k]

theorem Deleted.of_round {s : Maps} {key : FlowStateKey} {tuples : List TupleKey}
    (hguard : s.find .deleteGuard key = none) (houtcome : s.find .deleteOutcome key = none)
    (h : Deleted key tuples ((s.put .deleteGuard key deadline).put .deleteOutcome key outcome) s') :
    Deleted key tuples s ((s'.remove .deleteGuard key).remove .deleteOutcome key) where
  state k := by simp [h.state]
  index t := by simp [h.index]
  inflight k := by simp [h.inflight]
  pending k := by simp [h.pending]
  guard := same_of_round hguard houtcome h.guard
  outcome := same_of_round hguard houtcome h.outcome

theorem PresentEffect.of_round {s : Maps} {observed : UInt64}
    (hguard : s.find .deleteGuard (stateKeyOf flowId generation) = none)
    (houtcome : s.find .deleteOutcome (stateKeyOf flowId generation) = none)
    (h : PresentEffect flowId generation observed flow
      ((s.put .deleteGuard (stateKeyOf flowId generation) deadline).put .deleteOutcome
        (stateKeyOf flowId generation) outcome) s') :
    PresentEffect flowId generation observed flow s
        ((s'.remove .deleteGuard (stateKeyOf flowId generation)).remove .deleteOutcome
          (stateKeyOf flowId generation)) ∧
      s'.find .deleteGuard (stateKeyOf flowId generation) = some deadline ∧
      s'.find .deleteOutcome (stateKeyOf flowId generation) = some outcome := by
  unfold PresentEffect at h ⊢
  by_cases hobserved : observed ≠ 0 ∧ flow.lastUsedNs ≠ observed
  · rw [if_pos hobserved] at h ⊢
    refine ⟨fun m => same_of_round hguard houtcome (h m), ?_, ?_⟩
    · simp [h .deleteGuard _]
    · simp [h .deleteOutcome _]
  · rw [if_neg hobserved] at h ⊢
    refine ⟨h.of_round hguard houtcome, ?_, ?_⟩
    · simp [h.guard _]
    · simp [h.outcome _]

/-- **`delete_flow` of a flow that is `Present`.** -/
theorem settles_deleteFlow_present {record : FlowStateValue}
    (h : Present flowId generation record flow s) (observed deadline : UInt64) :
    Settles failing reported (deleteFlow flowId generation observed deadline).run
      (fun r s' => r = .ok (presentReport failing observed flow) ∧
        PresentEffect flowId generation observed flow s s') s := by
  unfold deleteFlow
  simp only [unpack_encodeFlowStateKey]
  refine settles_then settles_getOption ?_
  rw [h.state]
  refine settles_then (settles_installGuard h.guard h.outcome deadline) ?_
  rw [if_pos rfl]
  -- the cleanup starts with guard and outcome in place
  have hcleanup : Settles failing reported
      (guardedCleanup ⟨flowId, generation⟩ (stateKeyOf flowId generation) observed).run
      (fun r s' => r = .ok (presentReport failing observed flow) ∧
        PresentEffect flowId generation observed flow
          ((s.put .deleteGuard (stateKeyOf flowId generation) deadline).put .deleteOutcome
            (stateKeyOf flowId generation) flowDeleteCommitted) s')
      (s.put .deleteGuard (stateKeyOf flowId generation) deadline) := by
    refine settles_then (settles_commitDeletion ?_ ?_ ?_) (settles_cleanupRecord ?_ h.decodes h.nodup ?_ ?_
      observed)
    · simpa using h.inflight
    · simpa using h.state
    · simpa using h.outcome
    · simpa using h.state
    · intro t ht
      simpa using h.index t ht
    · simpa using h.inflight
  refine wp_attempt hcleanup ?_
  rintro _ s₁ ⟨rfl, heffect⟩
  obtain ⟨heffect, hguard, houtcome⟩ := heffect.of_round h.guard h.outcome
  refine wp_attempt settles_removeIfPresent fun removed s₂ hremoved => ?_
  rw [hguard] at hremoved
  obtain ⟨rfl, rfl⟩ := hremoved
  refine wp_attempt settles_removeIfPresent fun removed s₃ hremoved => ?_
  rw [Maps.find_remove_of_ne _ _ (by decide), houtcome] at hremoved
  obtain ⟨rfl, rfl⟩ := hremoved
  exact ⟨rfl, heffect⟩

/-- The maps hold neither record nor count nor index of a flow, and no deletion is on the way. -/
structure Absent (flowId : UInt64) (generation : UInt32) (s : Maps) : Prop where
  state : s.find .flowState (stateKeyOf flowId generation) = none
  inflight : s.find .packetInflight (stateKeyOf flowId generation) = none
  guard : s.find .deleteGuard (stateKeyOf flowId generation) = none
  outcome : s.find .deleteOutcome (stateKeyOf flowId generation) = none
  decodable : Decodable s
  unowned : ∀ t index, s.find .flowIndex t = some index →
    identityOf index ≠ ⟨flowId, generation⟩

/-- Whether an index belongs to another generation of a flow. -/
def staleIn (s : Maps) (flowId : UInt64) (generation : UInt32) : Bool :=
  (s.tables .flowIndex).pairs.any fun entry =>
    entry.2.flowId = flowId && entry.2.generation ≠ generation

/-- The report of deleting a flow that is not there. -/
def absentReport (failing reported pending stale : Bool) : FlowCleanupReport :=
  { isPartial := !reported || failing && pending, staleGeneration := stale }

theorem settles_decodedIndexes (h : Decodable s) :
    Settles failing reported decodedIndexes.run (fun r s' =>
      r = .ok ((s.tables .flowIndex).pairs.map fun entry => (entry.1, identityOf entry.2)) ∧ s' = s) s := by
  refine settles_then settles_iterate ?_
  rw [mapM_decodeFlowIndex h]
  exact ⟨rfl, rfl⟩

/-- **`delete_flow` of a flow that is `Absent`.** -/
theorem settles_deleteFlow_absent (h : Absent flowId generation s) (observed deadline : UInt64) :
    Settles failing reported (deleteFlow flowId generation observed deadline).run (fun r s' =>
      r = .ok (absentReport failing reported
        (s.find .releasePending (stateKeyOf flowId generation)).isSome (staleIn s flowId generation)) ∧
        ∀ m, Same s s' m) s := by
  unfold deleteFlow
  simp only [unpack_encodeFlowStateKey]
  refine settles_then settles_getOption ?_
  rw [h.state]
  refine wp_attempt settles_removeKey fun removed s₁ hremoved => ?_
  rw [h.guard, if_neg (by simp)] at hremoved
  obtain ⟨-, rfl⟩ := hremoved
  refine wp_attempt settles_removeKey fun removed s₁ hremoved => ?_
  rw [h.outcome, if_neg (by simp)] at hremoved
  obtain ⟨-, rfl⟩ := hremoved
  refine settles_then (settles_decodedIndexes h.decodable)
    (settles_then (settles_decodedIndexes h.decodable) ?_)
  -- no index is the flow's own, so that there is none to remove
  have hnone : ((s₁.tables .flowIndex).pairs.map fun entry => (entry.1, identityOf entry.2)).filter
      (fun entry => entry.2 = (⟨flowId, generation⟩ : ControlService.FlowIndexValue)) = [] := by
    rw [List.filter_eq_nil_iff]
    intro entry hentry
    obtain ⟨⟨t, index⟩, hmem, rfl⟩ := List.mem_map.mp hentry
    simpa using h.unowned t index (Table.mem_pairs_iff.mp hmem)
  rw [hnone]
  refine wp_mono (settles_finishCleanup List.nodup_nil (fun t ht => absurd ht List.not_mem_nil) _ _) ?_
  rintro r s₂ ⟨rfl, hsame⟩
  refine ⟨?_, fun m => ?_⟩
  · rw [h.inflight, absentReport, staleIn, List.any_map]
    rfl
  · refine Same.trans (fun k => ?_) (hsame m)
    by_cases hm : m = .packetInflight
    · subst hm
      rw [Maps.find_remove]
      split
      · rename_i hk
        rw [hk, h.inflight]
      · rfl
    · rw [Maps.find_remove_of_ne _ _ hm]
      rfl

end Deletions

end ShadowSocketProxy.Alone
