import ShadowSocketProxy.Alone.HostCalls

/-! # Deletions that stop anywhere

The host may stop anywhere in a deletion, and any of its map calls may fail. What the operations up to the
removal of the record keep, and what the cleanup keeps once the record is gone, holds wherever the
deletion stops. -/

namespace ShadowSocketProxy.Alone

open Interleaving Bpf ControlService
open Interleaving.Machine (wp_mono wp_seq wp_of_all always_of_all always_seqE)

variable {allowed : Choice → Prop} {s : Maps} {key : FlowStateKey}
  {expected : ControlService.FlowIndexValue}

/-! ## Operations -/

/-- The operations of a deletion outside its last part, the cleanup behind the removal of the record. -/
inductive OpeningOp (key : FlowStateKey) : Op → Prop
  | round {op : Op} (h : RoundOp key op) : OpeningOp key op
  | iterIndexes : OpeningOp key (.hostIter .flowIndex)
  | journal : OpeningOp key (.hostInsert .releasePending key flowReleasePending .any)
  | removeState : OpeningOp key (.hostRemove .flowState key)
  | removePending : OpeningOp key (.hostRemove .releasePending key)
  | getPending : OpeningOp key (.hostGet .releasePending key)

/-- An `OpeningOp` of `key` is one of the operations `HostOp key` of its deletion. -/
theorem OpeningOp.host {op : Op} (h : OpeningOp key op) : HostOp key op := by
  cases h with
  | round h => exact h.host
  | iterIndexes => exact .index .iter
  | journal => exact .journal
  | removeState => exact .removeState
  | removePending => exact .removePending
  | getPending => exact .getPending

/-- No `HostOp` of a deletion brings the record back. -/
theorem gone_step {op : Op} (hop : HostOp key op) (c : Choice) (resp : Resp op) (s₁ s₂ : Maps)
    (hs₁ : s₁.find .flowState key = none) (hexec : machine.exec c op s₁ = some (resp, s₂)) :
    s₂.find .flowState key = none := by
  have hexec : exec c op s₁ = some (resp, s₂) := hexec
  by_cases hremove : op = .hostRemove .flowState key
  · subst hremove
    simp only [exec, hostCall, hs₁] at hexec
    split at hexec <;> cases hexec <;> exact hs₁
  · rw [exec_frame hexec, hs₁]
    intro hchange
    cases hop with
    | index h => cases h <;> simp [Op.MayChange] at hchange
    | removeState => exact hremove rfl
    | _ => simp [Op.MayChange] at hchange

/-- A program of `OpeningOp`s inserts no flow record, so an absent one stays absent. -/
theorem stays_gone {β : Type} {p : Prog β} (hp : p.All (OpeningOp key))
    (hgone : s.find .flowState key = none) :
    Ensures allowed p (fun _ s' => s'.find .flowState key = none) s :=
  wp_of_all (fun _ hop c resp s₁ s₂ _ hs₁ => gone_step (OpeningOp.host hop) c resp s₁ s₂ hs₁) hp hgone

/-- `attempt` goes through no further state. -/
theorem always_attempt {α : Type} {p : Host α} {I : Maps → Prop}
    (hp : machine.always allowed p.run I s) : machine.always allowed (attempt p).run I s := by
  rw [run_attempt]
  exact Machine.always_seq hp (R := fun _ _ => True) (Machine.wp_of_returns fun _ _ _ => trivial)
    fun _ _ _ h => h

/-! ## The rule -/

/-- What a deletion keeps: its opening operations keep it, and so does the cleanup from any state in
which the record is gone. -/
structure Upheld (allowed : Choice → Prop) (expected : ControlService.FlowIndexValue)
    (key : FlowStateKey) (I : Maps → Prop) : Prop where
  opening : ∀ op, OpeningOp key op → ∀ c resp s₁ s₂, allowed c → I s₁ →
    machine.exec c op s₁ = some (resp, s₂) → I s₂
  finish : ∀ tuples stateDeleted staleGeneration s, I s → s.find .flowState key = none →
    machine.always allowed
      (finishCleanup expected key tuples stateDeleted staleGeneration).run I s

namespace Upheld

variable {I : Maps → Prop} (h : Upheld allowed expected key I)

include h

/-- An invariant that `OpeningOp`s keep holds throughout a program of them. -/
theorem always_opening {β : Type} {p : Prog β} (hp : p.All (OpeningOp key)) (hs : I s) :
    machine.always allowed p I s :=
  always_of_all h.opening hp hs

/-- As `always_opening`, for the state such a program ends in. -/
theorem ensures_opening {β : Type} {p : Prog β} (hp : p.All (OpeningOp key)) (hs : I s) :
    Ensures allowed p (fun _ s' => I s') s :=
  wp_of_all h.opening hp hs

/-- The invariant holds throughout `removeRecord`, before and after it deletes the record. -/
theorem removeRecord (tuples : List TupleKey) (hs : I s) :
    machine.always allowed (removeRecord expected key tuples).run I s := by
  have hjournal : (insertKey .releasePending key flowReleasePending .any).run.All (OpeningOp key) :=
    ⟨.journal, fun _ => trivial⟩
  have hremove : (removeKey .flowState key).run.All (OpeningOp key) :=
    ⟨.removeState, fun _ => trivial⟩
  refine always_seqE (h.always_opening hjournal hs) (h.ensures_opening hjournal hs) fun _ s₁ hs₁ _ => ?_
  -- the removal tells by its result whether the record is gone
  refine always_seqE (R := fun r s' => r = .ok (.ok ()) → s'.find .flowState key = none)
    (always_attempt (h.always_opening hremove hs₁)) ?_ fun removed s₂ hgone hs₂ => ?_
  · rw [run_attempt]
    refine wp_seq ensures_removeKey fun r s₂ hr hok => ?_
    rcases hr with ⟨-, hdropped⟩ | ⟨⟨e, rfl⟩, -⟩
    · exact (hdropped.find key).trans (if_pos rfl)
    · cases hok
  · cases removed with
    | ok => exact h.finish tuples true false s₂ hs₂ (hgone rfl)
    | error e =>
      refine h.always_opening ?_ hs₂
      exact (all_attempt (p := removeKey _ _) ⟨.removePending, fun _ => trivial⟩).bindE fun _ =>
        Program.All.bindE (p := getOption _ _) ⟨.getPending, fun _ => trivial⟩ fun _ => trivial

/-- The invariant holds throughout `guardedCleanup`: the reads, the removal and the cleanup. -/
theorem guardedCleanup (observed : UInt64) (hs : I s) :
    machine.always allowed (guardedCleanup expected key observed).run I s := by
  have hcommit : (commitDeletion key).run.All (OpeningOp key) :=
    all_commitDeletion.mono fun _ => .round
  refine always_seqE (h.always_opening hcommit hs) (h.ensures_opening hcommit hs)
    fun commit s₁ _ hs₁ => ?_
  cases commit with
  | report report => exact hs₁
  | flow record =>
    dsimp only
    unfold cleanupRecord
    cases decodeFlowState record.pack with
    | error e => exact hs₁
    | ok flow =>
      refine always_seqE (R := fun _ s' => I s') (p := decoded _ _) hs₁ hs₁ fun _ s₂ _ hs₂ => ?_
      split
      · exact hs₂
      · exact h.removeRecord _ hs₂

/-- The invariant holds throughout `guardedRound`, whichever way the cleanup ends. -/
theorem guardedRound (observed : UInt64) (hs : I s) :
    machine.always allowed (guardedRound expected key observed).run I s := by
  refine always_seqE (always_attempt (h.guardedCleanup observed hs)) (R := fun _ _ => True)
    (Machine.wp_of_returns fun _ _ _ => trivial) fun cleanup s₁ _ hs₁ => h.always_opening ?_ hs₁
  exact (all_attempt (p := removeIfPresent _ _) ⟨.round .removeGuard, fun _ => trivial⟩).bindE fun _ =>
    (all_attempt (p := removeIfPresent _ _) ⟨.round .removeOutcome, fun _ => trivial⟩).bindE
      fun _ => trivial

/-- The invariant holds throughout `cleanupAbsent`, once the record is gone. -/
theorem cleanupAbsent (hs : I s) (hgone : s.find .flowState key = none) :
    machine.always allowed (cleanupAbsent expected key).run I s := by
  have hindexes : decodedIndexes.run.All (OpeningOp key) :=
    Program.All.bindE (p := iterate _) ⟨.iterIndexes, fun _ => trivial⟩ fun _ => all_decoded _ _ _
  unfold ControlService.cleanupAbsent
  refine always_seqE (h.always_opening hindexes hs) (stays_gone hindexes hgone)
    fun _ s₁ hgone₁ hs₁ => ?_
  refine always_seqE (h.always_opening hindexes hs₁) (stays_gone hindexes hgone₁)
    fun _ s₂ hgone₂ hs₂ => ?_
  exact h.finish _ _ _ s₂ hs₂ hgone₂

end Upheld

/-- **Wherever `delete_flow` stops, what is `Upheld` holds.** -/
theorem Upheld.deleteFlow {I : Maps → Prop} {flowId : UInt64} {generation : UInt32}
    (h : Upheld allowed ⟨flowId, generation⟩ (stateKeyOf flowId generation) I) (hs : I s)
    (observed deadline : UInt64) :
    machine.always allowed (deleteFlow flowId generation observed deadline).run I s := by
  simp only [ControlService.deleteFlow, unpack_encodeFlowStateKey]
  have hget : (getOption .flowState (stateKeyOf flowId generation)).run.All
      (OpeningOp (stateKeyOf flowId generation)) := ⟨.round .getState, fun _ => trivial⟩
  refine always_seqE (h.always_opening hget hs) ensures_getOption fun initial s₁ hread hs₁ => ?_
  obtain ⟨rfl, hinitial | ⟨-, e, he⟩⟩ := hread
  · cases initial with
    | none =>
      have hguard : (attempt (removeKey .deleteGuard (stateKeyOf flowId generation))).run.All
          (OpeningOp (stateKeyOf flowId generation)) :=
        all_attempt (p := removeKey _ _) ⟨.round .removeGuard, fun _ => trivial⟩
      have houtcome : (attempt (removeKey .deleteOutcome (stateKeyOf flowId generation))).run.All
          (OpeningOp (stateKeyOf flowId generation)) :=
        all_attempt (p := removeKey _ _) ⟨.round .removeOutcome, fun _ => trivial⟩
      have hgone : s₁.find .flowState (stateKeyOf flowId generation) = none :=
        (Except.ok.inj hinitial).symm
      refine always_seqE (h.always_opening hguard hs₁) (stays_gone hguard hgone)
        fun _ s₂ hgone₂ hs₂ => ?_
      refine always_seqE (h.always_opening houtcome hs₂) (stays_gone houtcome hgone₂)
        fun _ s₃ hgone₃ hs₃ => ?_
      exact h.cleanupAbsent hs₃ hgone₃
    | some record =>
      have hguard : (installGuard (stateKeyOf flowId generation) deadline).run.All
          (OpeningOp (stateKeyOf flowId generation)) :=
        (all_installGuard deadline).mono fun _ => .round
      refine always_seqE (h.always_opening hguard hs₁) (h.ensures_opening hguard hs₁)
        fun armed s₂ _ hs₂ => ?_
      split
      · exact h.guardedRound observed hs₂
      · exact hs₂
  · cases he

end ShadowSocketProxy.Alone
