import ShadowSocketProxy.Alone.HostCalls

/-! # A deletion run alone

What `delete_flow` does to the flow maps when nothing runs in between, with any of its map calls
failing. -/

namespace ShadowSocketProxy.Alone

open Interleaving Bpf ControlService
open Interleaving.Machine (wp_mono wp_seq wp_seqE)

variable {allowed : Choice → Prop} {s : Maps}

/-! ## Guard and commit -/

section Round

variable {key : FlowStateKey} {s' : Maps}

/-- Nothing but the guard, the outcome and the release journal of one flow has changed. -/
structure Aside (key : FlowStateKey) (s s' : Maps) : Prop where
  index : Same s s' .flowIndex
  state : Same s s' .flowState
  inflight : Same s s' .packetInflight
  guard : ∀ key', key' ≠ key → s'.find .deleteGuard key' = s.find .deleteGuard key'
  outcome : ∀ key', key' ≠ key → s'.find .deleteOutcome key' = s.find .deleteOutcome key'

theorem Aside.refl (key : FlowStateKey) (s : Maps) : Aside key s s :=
  ⟨Same.refl s _, Same.refl s _, Same.refl s _, fun _ _ => rfl, fun _ _ => rfl⟩

theorem Aside.trans {s'' : Maps} (h : Aside key s s') (h' : Aside key s' s'') : Aside key s s'' :=
  ⟨h.index.trans h'.index, h.state.trans h'.state, h.inflight.trans h'.inflight,
    fun k hk => (h'.guard k hk).trans (h.guard k hk),
    fun k hk => (h'.outcome k hk).trans (h.outcome k hk)⟩

theorem Dropped.aside_guard (h : Dropped .deleteGuard key s s') : Aside key s s' :=
  ⟨h.others _ (by decide), h.others _ (by decide), h.others _ (by decide),
    fun k hk => by rw [h.find k, if_neg hk], fun k _ => h.others .deleteOutcome (by decide) k⟩

theorem Dropped.aside_outcome (h : Dropped .deleteOutcome key s s') : Aside key s s' :=
  ⟨h.others _ (by decide), h.others _ (by decide), h.others _ (by decide),
    fun k _ => h.others .deleteGuard (by decide) k, fun k hk => by rw [h.find k, if_neg hk]⟩

theorem aside_putGuard (deadline : UInt64) : Aside key s (s.put .deleteGuard key deadline) :=
  ⟨same_put_of_ne s (by decide) _ _, same_put_of_ne s (by decide) _ _,
    same_put_of_ne s (by decide) _ _, fun k hk => by rw [Maps.find_put, if_neg hk],
    fun k _ => by rw [Maps.find_put_of_ne _ _ _ (by decide)]⟩

theorem aside_putOutcome (outcome : UInt32) : Aside key s (s.put .deleteOutcome key outcome) :=
  ⟨same_put_of_ne s (by decide) _ _, same_put_of_ne s (by decide) _ _,
    same_put_of_ne s (by decide) _ _, fun k _ => by rw [Maps.find_put_of_ne _ _ _ (by decide)],
    fun k hk => by rw [Maps.find_put, if_neg hk]⟩

/-- `armGuard`: without faults and without another guard it succeeds, and no outcome is left. -/
theorem ensures_armGuard (deadline : UInt64) :
    Ensures allowed (armGuard key deadline).run (fun r s' => Aside key s s' ∧
      (¬ Faulty allowed → s.find .deleteGuard key = none →
        r = .ok true ∧ s'.find .deleteOutcome key = none)) s := by
  refine ensures_attempt ensures_gone fun _ s₁ hgone => ?_
  have haside : Aside key s s₁ := by
    rcases hgone with h | ⟨-, rfl⟩
    · exact h.aside_outcome
    · exact .refl _ _
  refine ensures_insertThen ⟨haside.trans (aside_putGuard deadline), fun hfaultless _ => ⟨rfl, ?_⟩⟩
    fun hwhy e => ⟨haside, fun hfaultless hnone => ?_⟩
  · rw [Maps.find_put_of_ne _ _ _ (by decide)]
    rcases hgone with h | ⟨hfaulty, -⟩
    · rw [h.find, if_pos rfl]
    · exact absurd hfaulty hfaultless
  · have hguard : s₁.find .deleteGuard key = none := by
      rcases hgone with h | ⟨-, rfl⟩
      · rw [h.others .deleteGuard (by decide) key, hnone]
      · exact hnone
    rw [hguard] at hwhy
    exact absurd (hwhy.resolve_right (by decide)) hfaultless

theorem ensures_installGuard (deadline : UInt64) :
    Ensures allowed (installGuard key deadline).run (fun r s' => Aside key s s' ∧
      (¬ Faulty allowed → s.find .deleteGuard key = none →
        r = .ok true ∧ s'.find .deleteOutcome key = none)) s := by
  refine ensures_getThen ?_ fun hfaulty e => ⟨.refl _ _, fun hfaultless => absurd hfaulty hfaultless⟩
  cases hguard : s.find .deleteGuard key with
  | none => exact wp_mono (ensures_armGuard deadline) fun r s₂ h => ⟨h.1, fun hf _ => h.2 hf hguard⟩
  | some old =>
    have habsurd : ∀ {P : Prop}, (some old : Option UInt64) = none → P := fun h => nomatch h
    refine ensures_hostNow fun c _ => ?_
    split
    · exact ⟨.refl _ _, fun _ => habsurd⟩
    · refine ensures_removeThen (fun s₁ hgone => ?_) fun _ e => ⟨.refl _ _, fun _ => habsurd⟩
      exact wp_mono (ensures_armGuard deadline) fun r s₂ h =>
        ⟨hgone.aside_guard.trans h.1, fun _ => habsurd⟩

/-- `pollQuiescent` changes nothing; without faults it finds a flow without packets quiescent. -/
theorem ensures_pollQuiescent (attempts : Nat) :
    Ensures allowed (pollQuiescent key attempts).run (fun r s' => s' = s ∧
      (¬ Faulty allowed → s.find .packetInflight key = some 0 → 0 < attempts → r = .ok true)) s := by
  induction attempts with
  | zero => exact ⟨rfl, fun _ _ h => absurd h (by decide)⟩
  | succ attempts ih =>
    have hread : Ensures allowed (readInflight key).run (fun r s' => s' = s ∧
        (r = .ok ((s.find .packetInflight key).getD 0) ∨ Faulty allowed)) s :=
      ensures_getThen ⟨rfl, .inl rfl⟩ fun hfaulty e => ⟨rfl, .inr hfaulty⟩
    refine wp_seqE hread (fun count s₁ ⟨hs, h⟩ => ?_) fun e s₁ ⟨hs, h⟩ => ⟨hs, fun hfaultless => ?_⟩
    · subst hs
      split
      · exact ⟨rfl, fun _ _ _ => rfl⟩
      · rename_i hcount
        refine wp_mono ih fun r s₂ h' => ⟨h'.1, fun hfaultless hzero _ => ?_⟩
        rw [hzero] at h
        rcases h with h | h
        · exact absurd (Except.ok.inj h) hcount
        · exact absurd h hfaultless
    · exact absurd (h.resolve_left (by simp)) hfaultless

/-- `readStable` returns the record at the first zero count. -/
theorem ensures_readStable :
    Ensures allowed (readStable key).run (fun r s' => s' = s ∧
      (¬ Faulty allowed → s.find .packetInflight key = some 0 → r = .ok (s.find .flowState key)))
      s := by
  refine wp_seqE (ensures_pollQuiescent _) (fun quiescent s₁ ⟨hs, h⟩ => ?_) fun e s₁ ⟨hs, h⟩ =>
    ⟨hs, fun hfaultless hzero => ?_⟩
  · subst hs
    cases quiescent with
    | true =>
      exact wp_mono ensures_getOption fun r s' h => ⟨h.1, fun hfaultless _ =>
        h.2.resolve_right fun hfaulty => hfaultless hfaulty.1⟩
    | false =>
      refine ⟨rfl, fun hfaultless hzero => ?_⟩
      exact absurd (h hfaultless hzero (by decide)) (by simp)
  · exact absurd (h hfaultless hzero (by decide)) (by simp)

/-- `commitDeletion` hands over the record that is there; without faults and obstacles it does. -/
theorem ensures_commitDeletion :
    Ensures allowed (commitDeletion key).run (fun r s' => Aside key s s' ∧
      (∀ record, r = .ok (.flow record) → s.find .flowState key = some record) ∧
      (¬ Faulty allowed → s.find .packetInflight key = some 0 → s.find .deleteOutcome key = none →
        ∀ record, s.find .flowState key = some record → r = .ok (.flow record))) s := by
  refine wp_seqE ensures_readStable (fun stable s₁ ⟨hs, h⟩ => ?_) fun e s₁ ⟨hs, h⟩ => ?_
  · subst hs
    cases stable with
    | none =>
      refine ⟨.refl _ _, fun _ hr => (nomatch hr), fun hfaultless hzero _ record hrecord => ?_⟩
      rw [hrecord] at h
      exact absurd (Except.ok.inj (h hfaultless hzero)) (by simp)
    | some record₀ =>
      refine ensures_attempt ensures_insertKey fun committed s₂ hcommit => ?_
      rcases hcommit with ⟨rfl, rfl⟩ | ⟨⟨e, rfl⟩, rfl, hwhy⟩
      · refine wp_seqE (ensures_pollQuiescent _) (fun quiescent s₃ ⟨hs, hq⟩ => ?_)
          fun e s₃ ⟨hs, hq⟩ => ?_
        all_goals
          subst hs
          rw [Maps.find_put_of_ne _ _ _ (by decide)] at hq
        · cases quiescent with
          | false =>
            refine ⟨aside_putOutcome _, fun _ hr => (nomatch hr),
              fun hfaultless hzero _ => ?_⟩
            exact absurd (Except.ok.inj (hq hfaultless hzero (by decide))) (by simp)
          | true =>
            refine ensures_getThen ?_ fun hfaulty e => ⟨aside_putOutcome _,
              fun _ hr => (nomatch hr), fun hfaultless => absurd hfaulty hfaultless⟩
            rw [Maps.find_put_of_ne _ _ _ (by decide)]
            cases hstate : s₁.find .flowState key with
            | none =>
              exact ⟨aside_putOutcome _, fun _ hr => (nomatch hr),
                fun _ _ _ _ hr => (nomatch hr)⟩
            | some record₁ =>
              refine ⟨aside_putOutcome _, fun record hr => ?_, fun _ _ _ record hr => ?_⟩
              · cases hr
                rfl
              · cases hr
                rfl
        · refine ⟨aside_putOutcome _, fun _ hr => (nomatch hr),
            fun hfaultless hzero => ?_⟩
          exact absurd (hq hfaultless hzero (by decide)) (by simp)
      · refine ⟨.refl _ _, fun _ hr => (nomatch hr), fun hfaultless _ hnone => ?_⟩
        rw [hnone] at hwhy
        exact absurd (hwhy.resolve_right (by decide)) hfaultless
  · refine ⟨hs ▸ .refl _ _, fun _ hr => (nomatch hr), fun hfaultless hzero _ => ?_⟩
    exact absurd (h hfaultless hzero) (by simp)

end Round

/-! ## Indexes -/

/-- The owner an index must have to be removed. -/
def ownerFor (expected : ControlService.FlowIndexValue) : Bpf.FlowIndexValue :=
  indexOf expected.flowId expected.generation

/-- Index entries of one owner are gone, and nothing else has changed. -/
structure Reclaimed (owner : Bpf.FlowIndexValue) (s s' : Maps) : Prop where
  index : ∀ t, s'.find .flowIndex t = s.find .flowIndex t ∨
    s'.find .flowIndex t = none ∧ ownedBy owner (s.find .flowIndex t) = true
  others : ∀ m, m ≠ .flowIndex → Same s s' m

/-- All index entries have the layout version of the decoder. -/
def Decodable (s : Maps) : Prop :=
  ∀ t index, s.find .flowIndex t = some index → index.version = mapAbiVersion

section Indexes

variable {owner : Bpf.FlowIndexValue} {s' : Maps}

theorem Reclaimed.refl (owner : Bpf.FlowIndexValue) (s : Maps) : Reclaimed owner s s :=
  ⟨fun _ => .inl rfl, fun m _ => Same.refl s m⟩

theorem Reclaimed.trans {s'' : Maps} (h : Reclaimed owner s s') (h' : Reclaimed owner s' s'') :
    Reclaimed owner s s'' := by
  refine ⟨fun t => ?_, fun m hm => (h.others m hm).trans (h'.others m hm)⟩
  rcases h.index t with hsame | ⟨hnone, howned⟩
  · rw [← hsame]
    exact h'.index t
  · refine .inr ⟨?_, howned⟩
    rcases h'.index t with hsame | ⟨hnone', -⟩
    · rw [hsame, hnone]
    · exact hnone'

/-- What is not `ownedBy` the owner does not become so. -/
theorem Reclaimed.not_owned (h : Reclaimed owner s s') {t : TupleKey}
    (hnot : ownedBy owner (s.find .flowIndex t) = false) :
    ownedBy owner (s'.find .flowIndex t) = false := by
  rcases h.index t with hsame | ⟨hnone, -⟩
  · rw [hsame, hnot]
  · rw [hnone]
    rfl

theorem Reclaimed.decodable (h : Reclaimed owner s s') (hs : Decodable s) : Decodable s' := by
  intro t index hindex
  rcases h.index t with hsame | ⟨hnone, -⟩
  · exact hs t index (hsame ▸ hindex)
  · rw [hnone] at hindex
    cases hindex

variable {expected : ControlService.FlowIndexValue}

theorem ensures_removeIndex (t : TupleKey) :
    Ensures allowed (removeIndex expected t).run (fun _ s' => Reclaimed (ownerFor expected) s s' ∧
      (¬ Faulty allowed → Decodable s →
        ownedBy (ownerFor expected) (s'.find .flowIndex t) = false)) s := by
  refine ensures_getThen ?_ fun hfaulty e =>
    ⟨.refl _ _, fun hfaultless => absurd hfaulty hfaultless⟩
  cases hindex : s.find .flowIndex t with
  | none =>
    refine ⟨.refl _ _, fun _ _ => ?_⟩
    rw [hindex]
    rfl
  | some index =>
    dsimp only
    rw [decodeFlowIndex_pack]
    split
    · rename_i hversion
      exact ⟨.refl _ _, fun _ hs => absurd (hs t index hindex) hversion⟩
    · simp only [decoded, pure_bind]
      split
      · rename_i howner
        have howned : ownedBy (ownerFor expected) (s.find .flowIndex t) = true := by
          rw [hindex, ← howner]
          exact ownedBy_some_iff.mpr ⟨rfl, rfl⟩
        refine ensures_removeThen (fun s₁ hgone => ?_) fun hwhy e =>
          ⟨.refl _ _, fun hfaultless _ => ?_⟩
        · refine ⟨⟨fun t' => ?_, hgone.others⟩, fun _ _ => ?_⟩
          · rw [hgone.find t']
            split
            · rename_i heq
              rw [heq]
              exact .inr ⟨rfl, howned⟩
            · exact .inl rfl
          · rw [hgone.find t, if_pos rfl]
            rfl
        · rcases hwhy with hfaulty | hnone
          · exact absurd hfaulty hfaultless
          · rw [hindex] at hnone
            cases hnone
      · rename_i howner
        refine ⟨.refl _ _, fun _ _ => ?_⟩
        rw [hindex]
        refine Bool.eq_false_iff.mpr fun howned => howner ?_
        obtain ⟨hid, hgeneration⟩ := ownedBy_some_iff.mp howned
        rw [hid, hgeneration]
        rfl

theorem ensures_removeIndexes (tuples : List TupleKey) :
    Ensures allowed (removeIndexes expected tuples).run (fun r s' =>
      Reclaimed (ownerFor expected) s s' ∧ (∃ counts, r = .ok counts) ∧
      (¬ Faulty allowed → Decodable s → ∀ t ∈ tuples,
        ownedBy (ownerFor expected) (s'.find .flowIndex t) = false)) s := by
  induction tuples generalizing s with
  | nil => exact ⟨.refl _ _, ⟨_, rfl⟩, fun _ _ t ht => absurd ht (by simp)⟩
  | cons t tuples ih =>
    refine ensures_attempt (ensures_removeIndex t) fun removed s₁ ⟨h₁, hgone⟩ => ?_
    refine wp_seqE ih (fun rest s₂ ⟨h₂, _, hrest⟩ => ?_) fun e s₂ ⟨_, ⟨counts, he⟩, _⟩ => ?_
    · refine ⟨h₁.trans h₂, ⟨_, rfl⟩, fun hfaultless hs t' ht' => ?_⟩
      rcases List.mem_cons.mp ht' with rfl | ht'
      · exact h₂.not_owned (hgone hfaultless hs)
      · exact hrest hfaultless (h₁.decodable hs) t' ht'
    · cases he

end Indexes

/-! ## Cleanup -/

section Cleanup

variable {expected : ControlService.FlowIndexValue} {owner : Bpf.FlowIndexValue}
  {key : FlowStateKey} {s' s'' : Maps} {tuples : TupleKey → Prop}

/-- A flow is no longer there: its record is gone, and indexes of its own and its in-flight count may
be gone as well. -/
structure Erased (owner : Bpf.FlowIndexValue) (key : FlowStateKey) (s s' : Maps) : Prop where
  state : ∀ key', s'.find .flowState key' = if key' = key then none else s.find .flowState key'
  index : ∀ t, s'.find .flowIndex t = s.find .flowIndex t ∨
    s'.find .flowIndex t = none ∧ ownedBy owner (s.find .flowIndex t) = true
  inflight : ∀ key', key' ≠ key → s'.find .packetInflight key' = s.find .packetInflight key'
  guard : ∀ key', key' ≠ key → s'.find .deleteGuard key' = s.find .deleteGuard key'
  outcome : ∀ key', key' ≠ key → s'.find .deleteOutcome key' = s.find .deleteOutcome key'

theorem Erased.aside_left (h : Aside key s s') (h' : Erased owner key s' s'') :
    Erased owner key s s'' where
  state k := by
    rw [h'.state k, h.state k]
  index t := by
    rw [← h.index t]
    exact h'.index t
  inflight k hk := (h'.inflight k hk).trans (h.inflight k)
  guard k hk := (h'.guard k hk).trans (h.guard k hk)
  outcome k hk := (h'.outcome k hk).trans (h.outcome k hk)

theorem Erased.aside_right (h : Erased owner key s s') (h' : Aside key s' s'') :
    Erased owner key s s'' where
  state k := (h'.state k).trans (h.state k)
  index t := by
    rw [h'.index t]
    exact h.index t
  inflight k hk := (h'.inflight k).trans (h.inflight k hk)
  guard k hk := (h'.guard k hk).trans (h.guard k hk)
  outcome k hk := (h'.outcome k hk).trans (h.outcome k hk)

/-- What a cleanup without faults takes away: the in-flight count, and the indexes of the flow under
the tuples it looks at. -/
structure Cleared (allowed : Choice → Prop) (owner : Bpf.FlowIndexValue) (key : FlowStateKey)
    (tuples : TupleKey → Prop) (s s' : Maps) : Prop where
  inflight : ¬ Faulty allowed → s'.find .packetInflight key = none
  index : ¬ Faulty allowed → Decodable s → ∀ t, tuples t →
    ownedBy owner (s'.find .flowIndex t) = false

theorem Cleared.aside_left (h : Aside key s s') (h' : Cleared allowed owner key tuples s' s'') :
    Cleared allowed owner key tuples s s'' where
  inflight := h'.inflight
  index hfaultless hs := h'.index hfaultless fun t index hindex =>
    hs t index ((h.index t).symm.trans hindex)

theorem Cleared.aside_right (h : Cleared allowed owner key tuples s s') (h' : Aside key s' s'') :
    Cleared allowed owner key tuples s s'' where
  inflight hfaultless := (h'.inflight key).trans (h.inflight hfaultless)
  index hfaultless hs t ht := by
    rw [h'.index t]
    exact h.index hfaultless hs t ht

/-- `publishRelease` touches only the release queue. -/
theorem ensures_publishRelease :
    Ensures allowed (publishRelease key).run (fun _ s' => ∀ m, Same s s' m) s := by
  refine ensures_getThen ?_ fun _ _ m => Same.refl s m
  cases s.find .releasePending key with
  | none => exact fun m => Same.refl s m
  | some pending =>
    intro c resp s' hc hexec
    have hexec : exec c (.hostPush key) s = some (resp, s') := hexec
    exact fun m key' => exec_frame hexec fun h => h

theorem ensures_finishCleanup (tuples : List TupleKey) (stateDeleted staleGeneration : Bool)
    (hnone : s.find .flowState key = none) :
    Ensures allowed (finishCleanup expected key tuples stateDeleted staleGeneration).run
      (fun _ s' => (Erased (ownerFor expected) key s s' ∧
        Cleared allowed (ownerFor expected) key (· ∈ tuples) s s') ∧
        Same s s' .deleteGuard ∧ Same s s' .deleteOutcome) s := by
  refine wp_seqE (ensures_removeIndexes tuples) (fun counts s₁ ⟨hindex, _, hgone⟩ => ?_)
    fun e s₁ ⟨_, ⟨counts, he⟩, _⟩ => by cases he
  refine ensures_attempt ensures_removeIfPresent fun removed s₂ hinflight => ?_
  have hothers : ∀ m, m ≠ .packetInflight → Same s₁ s₂ m := by
    rcases hinflight with h | ⟨-, rfl⟩
    · exact h.others
    · exact fun m _ => Same.refl _ m
  -- The state of the maps at the end, whatever publishing leads to.
  have hend : ∀ s₃, (∀ m, Same s₂ s₃ m) → (Erased (ownerFor expected) key s s₃ ∧
      Cleared allowed (ownerFor expected) key (· ∈ tuples) s s₃) ∧
        Same s s₃ .deleteGuard ∧ Same s s₃ .deleteOutcome := by
    intro s₃ hsame
    have hframe : ∀ m, m ≠ .flowIndex → m ≠ .packetInflight → Same s s₃ m := fun m h₁ h₂ =>
      ((hindex.others m h₁).trans (hothers m h₂)).trans (hsame m)
    refine ⟨⟨⟨fun k => ?_, fun t => ?_, fun k hk => ?_, fun k _ => ?_, fun k _ => ?_⟩,
      fun hfaultless => ?_, fun hfaultless hs t ht => ?_⟩, hframe _ (by decide) (by decide),
        hframe _ (by decide) (by decide)⟩
    · rw [hframe .flowState (by decide) (by decide) k]
      split
      · rename_i heq
        rw [heq, hnone]
      · rfl
    · rw [hsame .flowIndex t, hothers .flowIndex (by decide) t]
      exact hindex.index t
    · rw [hsame .packetInflight k, ← hindex.others .packetInflight (by decide) k]
      rcases hinflight with h | ⟨-, rfl⟩
      · rw [h.find k, if_neg hk]
      · rfl
    · exact hframe .deleteGuard (by decide) (by decide) k
    · exact hframe .deleteOutcome (by decide) (by decide) k
    · rcases hinflight with h | ⟨hfaulty, -⟩
      · rw [hsame .packetInflight key, h.find, if_pos rfl]
      · exact absurd hfaulty hfaultless
    · rw [hsame .flowIndex t, hothers .flowIndex (by decide) t]
      exact hgone hfaultless hs t ht
  exact wp_seqE ensures_publishRelease (fun _ s₃ h => hend s₃ h) fun _ s₃ h => hend s₃ h

/-- `removeRecord` fails and nothing has changed, or the flow is `Erased`. -/
theorem ensures_removeRecord (tuples : List TupleKey) :
    Ensures allowed (removeRecord expected key tuples).run (fun _ s' =>
      Aside key s s' ∨ Erased (ownerFor expected) key s s' ∧
        Cleared allowed (ownerFor expected) key (· ∈ tuples) s s') s := by
  have hjournal : ∀ s' : Maps, (∀ m, m ≠ .releasePending → Same s s' m) → Aside key s s' :=
    fun s' h => ⟨h _ (by decide), h _ (by decide), h _ (by decide), fun k _ => h .deleteGuard
      (by decide) k, fun k _ => h .deleteOutcome (by decide) k⟩
  refine ensures_insertThen ?_ fun _ _ => .inl (.refl _ _)
  have hput : ∀ m, m ≠ .releasePending → Same s (s.put .releasePending key flowReleasePending) m :=
    fun m hm => same_put_of_ne s hm _ _
  refine ensures_attempt ensures_removeKey fun removed s₂ hremoved => ?_
  rcases hremoved with ⟨rfl, hgone⟩ | ⟨⟨e, rfl⟩, rfl, -⟩
  · have hnone : s₂.find .flowState key = none := by
      rw [hgone.find, if_pos rfl]
    refine wp_mono (ensures_finishCleanup tuples true false hnone) fun _ s₃ ⟨⟨herased, hcleared⟩, _⟩ => ?_
    have hframe : ∀ m, m ≠ .releasePending → m ≠ .flowState → Same s s₂ m := fun m h₁ h₂ =>
      (hput m h₁).trans (hgone.others m h₂)
    refine .inr ⟨⟨fun k => ?_, fun t => ?_, fun k hk => ?_, fun k hk => ?_, fun k hk => ?_⟩,
      hcleared.inflight, fun hfaultless hs => ?_⟩
    · rw [herased.state k, hgone.find k]
      split
      · rfl
      · exact hput .flowState (by decide) k
    · rw [← hframe .flowIndex (by decide) (by decide) t]
      exact herased.index t
    · exact (herased.inflight k hk).trans (hframe .packetInflight (by decide) (by decide) k)
    · exact (herased.guard k hk).trans (hframe .deleteGuard (by decide) (by decide) k)
    · exact (herased.outcome k hk).trans (hframe .deleteOutcome (by decide) (by decide) k)
    · exact hcleared.index hfaultless fun t index hindex =>
        hs t index ((hframe .flowIndex (by decide) (by decide) t).symm.trans hindex)
  · refine ensures_attempt ensures_gone fun _ s₃ hgone => ?_
    have hframe : ∀ m, m ≠ .releasePending → Same s s₃ m := by
      rcases hgone with h | ⟨-, rfl⟩
      · exact fun m hm => (hput m hm).trans (h.others m hm)
      · exact hput
    exact ensures_getThen (.inl (hjournal s₃ hframe)) fun _ _ => .inl (hjournal s₃ hframe)

theorem Cleared.mono {tuples' : TupleKey → Prop} (h : Cleared allowed owner key tuples s s')
    (hsub : ∀ t, tuples' t → tuples t) : Cleared allowed owner key tuples' s s' :=
  ⟨h.inflight, fun hfaultless hs t ht => h.index hfaultless hs t (hsub t ht)⟩

/-- The `sortedKeys` of a decoded record contain its tuples. -/
theorem mem_sortedKeys_of_decode {record : FlowStateValue} {flow : FlowState}
    (hdecode : decodeFlowState record.pack = .ok flow)
    (hcanonical : ∀ t ∈ tuplesOf record, Canonical t) {t : TupleKey} (ht : t ∈ tuplesOf record) :
    t ∈ sortedKeys [encodeKey flow.original, encodeKey flow.target, encodeKey flow.reverse] := by
  have horiginal := hcanonical record.original (by simp [tuplesOf])
  have htarget := hcanonical record.target (by simp [tuplesOf])
  have hreverse := hcanonical record.reverse (by simp [tuplesOf])
  rw [decodeFlowState_pack horiginal.toVersioned htarget.toVersioned hreverse.toVersioned] at hdecode
  obtain ⟨lifecycle, -, hdecode⟩ := bind_eq_ok.mp hdecode
  obtain ⟨-, -, hflow⟩ := bind_eq_ok.mp hdecode
  obtain rfl : flowStateOf record lifecycle = flow := Except.ok.inj hflow
  have hpack : ∀ t' ∈ tuplesOf record, encodeKey (tupleOf t') = t'.pack := fun t' ht' =>
    encodeKey_tupleOf (hcanonical t' ht')
  refine mem_sortedKeys_iff.mpr ⟨t.pack, ?_, t.unpack_pack⟩
  rw [← hpack t ht]
  simp only [tuplesOf, List.mem_cons, List.not_mem_nil, or_false] at ht
  rcases ht with rfl | rfl | rfl <;> simp [flowStateOf]

/-- The tuples a cleanup looks at: those of the record, or all when there is no record. -/
def Concerned (s : Maps) (key : FlowStateKey) (t : TupleKey) : Prop :=
  ∀ record, s.find .flowState key = some record →
    (∀ t' ∈ tuplesOf record, Canonical t') ∧ t ∈ tuplesOf record

theorem ensures_cleanupRecord {record : FlowStateValue}
    (hrecord : s.find .flowState key = some record) (observed : UInt64) :
    Ensures allowed (cleanupRecord expected key observed record).run (fun _ s' =>
      Aside key s s' ∨ Erased (ownerFor expected) key s s' ∧
        Cleared allowed (ownerFor expected) key (Concerned s key) s s') s := by
  unfold cleanupRecord
  cases hdecode : decodeFlowState record.pack with
  | error e => exact .inl (.refl _ _)
  | ok flow =>
    simp only [decoded, pure_bind]
    split
    · exact .inl (.refl _ _)
    · refine wp_mono (ensures_removeRecord _) fun _ s' h => h.imp_right fun h => ⟨h.1, ?_⟩
      exact h.2.mono fun t ht =>
        mem_sortedKeys_of_decode hdecode (ht record hrecord).1 (ht record hrecord).2

theorem ensures_guardedCleanup (observed : UInt64) :
    Ensures allowed (guardedCleanup expected key observed).run (fun _ s' =>
      Aside key s s' ∨ Erased (ownerFor expected) key s s' ∧
        Cleared allowed (ownerFor expected) key (Concerned s key) s s') s := by
  unfold guardedCleanup
  refine wp_seqE ensures_commitDeletion (fun commit s₁ ⟨haside, hflow, _⟩ => ?_)
    fun _ _ ⟨haside, _⟩ => .inl haside
  cases commit with
  | report report => exact .inl haside
  | flow record =>
    have hrecord : s₁.find .flowState key = some record :=
      (haside.state key).trans (hflow record rfl)
    refine wp_mono (ensures_cleanupRecord hrecord observed) fun _ s₂ h => ?_
    rcases h with h | ⟨herased, hcleared⟩
    · exact .inl (haside.trans h)
    · refine .inr ⟨herased.aside_left haside, (hcleared.mono fun t ht record' hr => ?_).aside_left
        haside⟩
      exact ht record' ((haside.state key).symm.trans hr)

/-- The end of a round is `Aside`: guard and outcome are gone unless a call fails. -/
theorem aside_of_gone {s₁ s₂ : Maps}
    (hguard : Dropped .deleteGuard key s s₁ ∨ Faulty allowed ∧ s₁ = s)
    (houtcome : Dropped .deleteOutcome key s₁ s₂ ∨ Faulty allowed ∧ s₂ = s₁) :
    Aside key s s₂ ∧ (¬ Faulty allowed →
      s₂.find .deleteGuard key = none ∧ s₂.find .deleteOutcome key = none) := by
  have h₁ : Aside key s s₁ := by
    rcases hguard with h | ⟨-, rfl⟩
    · exact h.aside_guard
    · exact .refl _ _
  have h₂ : Aside key s₁ s₂ := by
    rcases houtcome with h | ⟨-, rfl⟩
    · exact h.aside_outcome
    · exact .refl _ _
  refine ⟨h₁.trans h₂, fun hfaultless => ?_⟩
  rcases hguard with hguard | ⟨hfaulty, -⟩
  · rcases houtcome with houtcome | ⟨hfaulty, -⟩
    · rw [houtcome.others .deleteGuard (by decide) key, hguard.find, if_pos rfl, houtcome.find,
        if_pos rfl]
      exact ⟨rfl, rfl⟩
    · exact absurd hfaulty hfaultless
  · exact absurd hfaulty hfaultless

theorem ensures_guardedRound (observed : UInt64) :
    Ensures allowed (guardedRound expected key observed).run (fun _ s' =>
      (Aside key s s' ∨ Erased (ownerFor expected) key s s' ∧
        Cleared allowed (ownerFor expected) key (Concerned s key) s s') ∧
      (¬ Faulty allowed →
        s'.find .deleteGuard key = none ∧ s'.find .deleteOutcome key = none)) s := by
  unfold guardedRound
  refine ensures_attempt (ensures_guardedCleanup observed) fun cleanup s₁ h => ?_
  refine ensures_attempt ensures_removeIfPresent fun _ s₂ hguard => ?_
  refine ensures_attempt ensures_removeIfPresent fun _ s₃ houtcome => ?_
  obtain ⟨haside, hclean⟩ := aside_of_gone hguard houtcome
  refine ⟨?_, hclean⟩
  rcases h with h | ⟨herased, hcleared⟩
  · exact .inl (h.trans haside)
  · exact .inr ⟨herased.aside_right haside, hcleared.aside_right haside⟩

/-! ## A flow without a record -/

/-- The identity an index entry holds. -/
def identityOf (index : Bpf.FlowIndexValue) : ControlService.FlowIndexValue :=
  ⟨index.flowId, index.generation⟩

/-- `Decodable` indexes are decoded one by one. -/
theorem mapM_decodeFlowIndex (hs : Decodable s) :
    ((s.tables .flowIndex).pairs.mapM fun entry => (do
      let value ← decodeFlowIndex entry.2.pack
      pure (entry.1, value) : Except AbiError (TupleKey × ControlService.FlowIndexValue))) =
      .ok ((s.tables .flowIndex).pairs.map fun entry => (entry.1, identityOf entry.2)) := by
  rw [mapM_eq_ok, List.map_map]
  refine List.map_congr_left fun entry hentry => ?_
  have hversion := hs entry.1 entry.2 (Table.mem_pairs_iff.mp hentry)
  rw [decodeFlowIndex_pack, if_neg (not_not.mpr hversion)]
  rfl

/-- `decodedIndexes` changes nothing; without faults the indexes are read as they are. -/
theorem ensures_decodedIndexes :
    Ensures allowed decodedIndexes.run (fun r s' => s' = s ∧
      (¬ Faulty allowed → Decodable s → r =
        .ok ((s.tables .flowIndex).pairs.map fun entry => (entry.1, identityOf entry.2)))) s := by
  refine ensures_iterate ?_ fun hfaulty e => ⟨rfl, fun hfaultless => absurd hfaulty hfaultless⟩
  have hall : Decodable s → ((s.tables .flowIndex).pairs.mapM fun entry => (do
      let value ← decodeFlowIndex entry.2.pack
      pure (entry.1, value) : Except AbiError (TupleKey × ControlService.FlowIndexValue))) =
        .ok ((s.tables .flowIndex).pairs.map fun entry => (entry.1, identityOf entry.2)) :=
    mapM_decodeFlowIndex
  revert hall
  generalize ((s.tables .flowIndex).pairs.mapM fun entry => (do
      let value ← decodeFlowIndex entry.2.pack
      pure (entry.1, value) : Except AbiError (TupleKey × ControlService.FlowIndexValue))) = result
  intro hall
  cases result with
  | ok entries =>
    refine ⟨rfl, fun _ hs => ?_⟩
    rw [← Except.ok.inj (hall hs)]
  | error e => exact ⟨rfl, fun _ hs => (nomatch hall hs)⟩

/-- Every index of the generation is among those `cleanupAbsent` looks at. -/
theorem mem_sortedKeys_of_owned {t : TupleKey}
    (howned : ownedBy (ownerFor expected) (s.find .flowIndex t) = true) :
    t ∈ sortedKeys ((((s.tables .flowIndex).pairs.map fun entry => (entry.1, identityOf entry.2)).filter
      fun entry => entry.2 = expected).map fun entry => entry.1.pack) := by
  refine mem_sortedKeys_iff.mpr ⟨t.pack, ?_, t.unpack_pack⟩
  cases hindex : s.find .flowIndex t with
  | none =>
    rw [hindex] at howned
    cases howned
  | some index =>
    rw [hindex] at howned
    obtain ⟨hid, hgeneration⟩ := ownedBy_some_iff.mp howned
    have hentry : (t, index) ∈ (s.tables .flowIndex).pairs := Table.mem_pairs_iff.mpr hindex
    refine List.mem_map.mpr ⟨(t, identityOf index), List.mem_filter.mpr ⟨?_, ?_⟩, rfl⟩
    · exact List.mem_map.mpr ⟨(t, index), hentry, rfl⟩
    · rw [identityOf, hid, hgeneration]
      exact decide_eq_true rfl

theorem ensures_cleanupAbsent (hnone : s.find .flowState key = none) :
    Ensures allowed (cleanupAbsent expected key).run (fun _ s' =>
      (s' = s ∧ (¬ Faulty allowed → ¬ Decodable s)) ∨
      (Erased (ownerFor expected) key s s' ∧
        Cleared allowed (ownerFor expected) key (fun _ => True) s s') ∧
        Same s s' .deleteGuard ∧ Same s s' .deleteOutcome) s := by
  unfold cleanupAbsent
  refine wp_seqE ensures_decodedIndexes (fun _ s₁ ⟨hs₁, _⟩ => ?_) fun e s₁ ⟨hs₁, h⟩ => ?_
  · subst hs₁
    refine wp_seqE ensures_decodedIndexes (fun entries s₂ ⟨hs₂, h⟩ => ?_) fun e s₂ ⟨hs₂, h⟩ => ?_
    · subst hs₂
      refine wp_mono (ensures_finishCleanup _ _ _ hnone) fun _ s₃ ⟨⟨herased, hcleared⟩, hsame⟩ =>
        .inr ⟨⟨herased, hcleared.inflight, fun hfaultless hs t _ => ?_⟩, hsame⟩
      by_cases howned : ownedBy (ownerFor expected) (s₂.find .flowIndex t) = true
      · refine hcleared.index hfaultless hs t ?_
        obtain rfl := Except.ok.inj (h hfaultless hs)
        exact mem_sortedKeys_of_owned howned
      · rcases herased.index t with hsame | ⟨hgone, -⟩
        · rw [hsame]
          exact Bool.eq_false_iff.mpr howned
        · rw [hgone]
          rfl
    · exact .inl ⟨hs₂, fun hfaultless hs => (nomatch h hfaultless hs)⟩
  · exact .inl ⟨hs₁, fun hfaultless hs => (nomatch h hfaultless hs)⟩

/-- **What a deletion alone can lead to.** -/
inductive Deletion (allowed : Choice → Prop) (owner : Bpf.FlowIndexValue) (key : FlowStateKey)
    (s : Maps) : Maps → Prop
  /-- The flow maps are as they were. -/
  | kept {s' : Maps} (h : Aside key s s')
      (hwhy : ¬ Faulty allowed → Decodable s → s.find .flowState key ≠ none)
      (hclean : ¬ Faulty allowed → s.find .deleteGuard key = none →
        s'.find .deleteGuard key = none ∧ s'.find .deleteOutcome key = none) :
      Deletion allowed owner key s s'
  /-- The flow is gone. -/
  | erased {s' : Maps} (h : Erased owner key s s')
      (hcleared : Cleared allowed owner key (Concerned s key) s s')
      (hclean : ¬ Faulty allowed →
        s'.find .deleteGuard key = none ∧ s'.find .deleteOutcome key = none) :
      Deletion allowed owner key s s'

/-- **`delete_flow` alone leads to a `Deletion`.** -/
theorem ensures_deleteFlow (flowId : UInt64) (generation : UInt32) (observed deadline : UInt64) :
    Ensures allowed (deleteFlow flowId generation observed deadline).run (fun _ s' =>
      Deletion allowed (indexOf flowId generation) (stateKeyOf flowId generation) s s') s := by
  unfold deleteFlow
  simp only [unpack_encodeFlowStateKey]
  refine ensures_getThen ?_ fun hfaulty _ => .kept (.refl _ _)
    (fun hfaultless => absurd hfaulty hfaultless) fun hfaultless => absurd hfaulty hfaultless
  cases hstate : s.find .flowState (stateKeyOf flowId generation) with
  | none =>
    refine ensures_attempt ensures_gone fun _ s₁ hguard => ?_
    refine ensures_attempt ensures_gone fun _ s₂ houtcome => ?_
    obtain ⟨haside, hclean⟩ := aside_of_gone hguard houtcome
    refine wp_mono (ensures_cleanupAbsent ((haside.state _).trans hstate)) fun _ s₃ h => ?_
    rcases h with ⟨rfl, hwhy⟩ | ⟨⟨herased, hcleared⟩, hguard', houtcome'⟩
    · refine .kept haside (fun hfaultless hs => absurd (fun t index hindex => ?_) (hwhy hfaultless))
        fun hfaultless _ => hclean hfaultless
      exact hs t index ((haside.index t).symm.trans hindex)
    · refine .erased (herased.aside_left haside)
        ((hcleared.mono fun _ _ => trivial).aside_left haside) fun hfaultless => ?_
      rw [hguard', houtcome']
      exact hclean hfaultless
  | some record =>
    have hpresent : s.find .flowState (stateKeyOf flowId generation) ≠ none := by
      rw [hstate]
      simp
    refine wp_seqE (ensures_installGuard deadline) (fun armed s₁ ⟨haside, harmed⟩ => ?_)
      fun e s₁ ⟨haside, harmed⟩ => .kept haside (fun _ _ => hpresent) fun hfaultless hnone => ?_
    · cases armed with
      | false =>
        exact .kept haside (fun _ _ => hpresent) fun hfaultless hnone =>
          (nomatch (harmed hfaultless hnone).1)
      | true =>
        refine wp_mono (ensures_guardedRound observed) fun _ s₂ ⟨h, hclean⟩ => ?_
        rcases h with h | ⟨herased, hcleared⟩
        · exact .kept (haside.trans h) (fun _ _ => hpresent) fun hfaultless _ => hclean hfaultless
        · refine .erased (herased.aside_left haside)
            ((hcleared.mono fun t ht record' hr => ?_).aside_left haside) hclean
          exact ht record' ((haside.state _).symm.trans hr)
    · exact (nomatch (harmed hfaultless hnone).1)

end Cleanup

end ShadowSocketProxy.Alone
