import ShadowSocketProxy.Alone.Deletion
import ShadowSocketProxy.Alone.Interrupted
import ShadowSocketProxy.System

/-! # The frame of a deletion

From any maps, with any map calls failing, a deletion touches the entries of its own flow generation
only: the entries under its key, the indexes it owns, and the release queue by its own key. Indexes and
queue are touched only once the record is gone. -/

namespace ShadowSocketProxy.Alone

open Interleaving Bpf ControlService
open Interleaving.Machine (always_of_all always_seqE wp_mono wp_seq)

variable {allowed : Choice → Prop} {s s₁ s₂ : Maps} {key : FlowStateKey}
  {expected : ControlService.FlowIndexValue} {op : Op} {c : Choice} {resp : Resp op}

/-! ## What a deletion may touch -/

/-- The entries under the key of a flow generation; indexes are keyed by tuples and belong by value. -/
def Belongs (key : FlowStateKey) : (m : MapId) → m.Key → Prop
  | .flowIndex, _ => True
  | .flowState, k => k = key
  | .releasePending, k => k = key
  | .deleteGuard, k => k = key
  | .deleteOutcome, k => k = key
  | .packetInflight, k => k = key

/-- What stands in no hash map and in no queue. -/
def outside (s : Maps) : RuntimeConfigValue × (Counter → UInt64) × Nat × UInt64 :=
  (s.runtimeConfig, s.counters, s.activeFlows, s.generation)

/-- The maps `s'` differ from `s` by entries of one flow generation only, and in indexes and queue only
if its record is gone. -/
structure Framed (owner : Bpf.FlowIndexValue) (key : FlowStateKey) (s s' : Maps) : Prop where
  keyed : ∀ m (k : m.Key), ¬ Belongs key m k → s'.find m k = s.find m k
  index : ∀ t, s'.find .flowIndex t = s.find .flowIndex t ∨
    s'.find .flowIndex t = none ∧ ownedBy owner (s.find .flowIndex t) = true
  released : ∃ n, s'.releases = s.releases ++ List.replicate n key
  outside : outside s' = outside s
  ordered : s'.find .flowState key ≠ none → Same s s' .flowIndex ∧ s'.releases = s.releases

theorem Framed.refl (owner : Bpf.FlowIndexValue) (key : FlowStateKey) (s : Maps) :
    Framed owner key s s :=
  ⟨fun _ _ _ => rfl, fun _ => .inl rfl, ⟨0, (List.append_nil _).symm⟩, rfl,
    fun _ => ⟨Same.refl s _, rfl⟩⟩

/-! ## Operations -/

/-- A `HostOp` of a deletion changes only entries that `Belongs` allows. -/
theorem belongs_of_mayChange (hop : HostOp key op) {m : MapId} {k : m.Key} (h : op.MayChange m k) :
    Belongs key m k := by
  cases m with
  | flowIndex => trivial
  | _ =>
    cases hop with
    | index hop => cases hop <;> cases h
    | _ => cases h <;> rfl

/-- A `HostOp` changes nothing `outside`, and the queue only by its push. -/
theorem outside_step (hop : HostOp key op) (hexec : exec c op s₁ = some (resp, s₂)) :
    outside s₂ = outside s₁ ∧ (op ≠ .hostPush key → s₂.releases = s₁.releases) := by
  cases hop
  case index hop =>
      cases hop
      all_goals
        simp only [exec, hostCall] at hexec
        repeat' split at hexec
      all_goals
        cases hexec
        exact ⟨rfl, fun _ => rfl⟩
  case push =>
      simp only [exec, hostCall] at hexec
      split at hexec
      all_goals
        cases hexec
        exact ⟨rfl, fun h => absurd rfl h⟩
  all_goals
    simp only [exec, hostCall] at hexec
    repeat' split at hexec
  all_goals
    cases hexec
    exact ⟨rfl, fun _ => rfl⟩

variable {owner : Bpf.FlowIndexValue}

/-- An operation of a deletion that removes no index and pushes nothing. -/
structure Calm (key : FlowStateKey) (op : Op) : Prop where
  host : HostOp key op
  not_remove : ∀ t, op ≠ .hostRemove .flowIndex t
  not_push : op ≠ .hostPush key

theorem calm_of_openingOp (hop : OpeningOp key op) : Calm key op := by
  refine ⟨hop.host, ?_, ?_⟩
  · rintro t rfl
    cases hop with
    | round hop => cases hop
  · rintro rfl
    cases hop with
    | round hop => cases hop

/-- A `Calm` operation keeps the maps `Framed`. -/
theorem Framed.step (hop : Calm key op) (h : Framed owner key s s₁)
    (hexec : exec c op s₁ = some (resp, s₂)) : Framed owner key s s₂ := by
  obtain ⟨hhost, hremove, hpush⟩ := hop
  obtain ⟨houtside, hreleases⟩ := outside_step hhost hexec
  have hindex : Same s₁ s₂ .flowIndex := by
    refine fun t => exec_frame hexec fun hchange => hremove t ?_
    cases hhost with
    | index hop =>
      cases hop <;> cases hchange
      rfl
    | _ => cases hchange
  refine ⟨fun m k hnot => ?_, fun t => ?_, ?_, houtside.trans h.outside, fun hpresent => ?_⟩
  · rw [← h.keyed m k hnot]
    exact exec_frame hexec fun hchange => hnot (belongs_of_mayChange hhost hchange)
  · rw [hindex t]
    exact h.index t
  · rw [hreleases hpush]
    exact h.released
  · have hpresent₁ : s₁.find .flowState key ≠ none := fun hgone =>
      hpresent (gone_step hhost c resp s₁ s₂ hgone hexec)
    obtain ⟨hsame, hqueue⟩ := h.ordered hpresent₁
    exact ⟨hsame.trans hindex, (hreleases hpush).trans hqueue⟩

/-! ## The cleanup behind the removal of the record -/

/-- The maps are `Framed` and the record is gone. -/
def Past (owner : Bpf.FlowIndexValue) (key : FlowStateKey) (s s' : Maps) : Prop :=
  Framed owner key s s' ∧ s'.find .flowState key = none

theorem Past.step (hop : Calm key op) (h : Past owner key s s₁)
    (hexec : machine.exec c op s₁ = some (resp, s₂)) : Past owner key s s₂ :=
  ⟨h.1.step hop hexec, gone_step hop.host c resp s₁ s₂ h.2 hexec⟩

theorem always_calm {β : Type} {p : Prog β} (hp : p.All (Calm key)) (h : Past owner key s s₁) :
    machine.always allowed p (Past owner key s) s₁ :=
  always_of_all (fun _ hop _ _ _ _ _ hs hexec => hs.step hop hexec) hp h

/-- `Past` with an index removed that is owned at that moment. -/
theorem Past.removeIndex {t : TupleKey} {resp : Except MapError Unit} (h : Past owner key s s₁)
    (howned : ownedBy owner (s₁.find .flowIndex t) = true)
    (hexec : exec c (.hostRemove .flowIndex t) s₁ = some (resp, s₂)) : Past owner key s s₂ := by
  have hhost : HostOp key (.hostRemove .flowIndex t) := .index (.remove t)
  have hgone := gone_step hhost c resp s₁ s₂ h.2 hexec
  obtain ⟨houtside, hreleases⟩ := outside_step hhost hexec
  refine ⟨⟨fun m k hnot => ?_, fun t' => ?_, ?_, houtside.trans h.1.outside,
    fun hpresent => absurd hgone hpresent⟩, hgone⟩
  · rw [← h.1.keyed m k hnot]
    exact exec_frame hexec fun hchange => hnot (belongs_of_mayChange hhost hchange)
  · -- an owned index is still the one that was there at first
    have howned₀ : ownedBy owner (s.find .flowIndex t) = true := by
      rcases h.1.index t with hsame | ⟨hnone, howned₀⟩
      · rw [← hsame]
        exact howned
      · exact howned₀
    rcases exec_hostRemove hexec with ⟨e, -, rfl⟩ | ⟨-, rfl, -⟩
    · exact h.1.index t'
    · rw [Maps.find_remove]
      split
      · rename_i heq
        rw [heq]
        exact .inr ⟨rfl, howned₀⟩
      · exact h.1.index t'
  · rw [hreleases (by rintro ⟨⟩)]
    exact h.1.released

/-- `Past` with the key of the flow pushed. -/
theorem Past.push {resp : Except MapError Unit} (h : Past owner key s s₁)
    (hexec : exec c (.hostPush key) s₁ = some (resp, s₂)) : Past owner key s s₂ := by
  have hgone := gone_step .push c resp s₁ s₂ h.2 hexec
  refine ⟨⟨fun m k hnot => ?_, fun t => ?_, ?_, (outside_step .push hexec).1.trans h.1.outside,
    fun hpresent => absurd hgone hpresent⟩, hgone⟩
  · rw [← h.1.keyed m k hnot]
    exact exec_frame hexec fun hchange => hnot (belongs_of_mayChange .push hchange)
  · rw [exec_frame hexec fun hchange => by cases hchange]
    exact h.1.index t
  · obtain ⟨n, hn⟩ := h.1.released
    simp only [exec, hostCall] at hexec
    split at hexec
    all_goals cases hexec
    · exact ⟨n, hn⟩
    · refine ⟨n + 1, ?_⟩
      dsimp only
      rw [hn, List.append_assoc, List.replicate_succ']

theorem always_removeIndex (t : TupleKey) (h : Past (ownerFor expected) key s s₁) :
    machine.always allowed (removeIndex expected t).run (Past (ownerFor expected) key s) s₁ := by
  have hget : (getOption .flowIndex t).run.All (Calm key) :=
    ⟨⟨.index (.get t), by rintro _ ⟨⟩, by rintro ⟨⟩⟩, fun _ => trivial⟩
  refine always_seqE (always_calm hget h) ensures_getOption fun current s₂ hread hs₂ => ?_
  obtain ⟨rfl, hcurrent | ⟨-, e, he⟩⟩ := hread
  · cases current with
    | none => exact hs₂
    | some index =>
      dsimp only
      rw [decodeFlowIndex_pack]
      split
      · exact hs₂
      · simp only [decoded, pure_bind]
        split
        · rename_i howner
          have howned : ownedBy (ownerFor expected) (s₂.find .flowIndex t) = true := by
            rw [← Except.ok.inj hcurrent, ← howner]
            exact ownedBy_some_iff.mpr ⟨rfl, rfl⟩
          refine always_seqE (p := removeKey .flowIndex t) (R := fun _ _ => True)
            ⟨hs₂, fun c resp s₃ _ hexec => hs₂.removeIndex howned hexec⟩
            (Machine.wp_of_returns fun _ _ _ => trivial) fun _ s₃ _ hs₃ => hs₃
        · exact hs₂
  · cases he

theorem always_removeIndexes (tuples : List TupleKey) (h : Past (ownerFor expected) key s s₁) :
    machine.always allowed (removeIndexes expected tuples).run (Past (ownerFor expected) key s) s₁ := by
  have hany : ∀ {β : Type} {p : Prog β} {s : Maps}, Ensures allowed p (fun _ _ => True) s :=
    Machine.wp_of_returns fun _ _ _ => trivial
  induction tuples generalizing s₁ with
  | nil => exact h
  | cons t tuples ih =>
    refine always_seqE (always_attempt (always_removeIndex t h)) hany fun _ s₂ _ hs₂ => ?_
    exact always_seqE (ih hs₂) hany fun _ s₃ _ hs₃ => hs₃

theorem always_finishCleanup (tuples : List TupleKey) (stateDeleted staleGeneration : Bool)
    (h : Past (ownerFor expected) key s s₁) :
    machine.always allowed (finishCleanup expected key tuples stateDeleted staleGeneration).run
      (Past (ownerFor expected) key s) s₁ := by
  have hany : ∀ {β : Type} {p : Prog β} {s : Maps}, Ensures allowed p (fun _ _ => True) s :=
    Machine.wp_of_returns fun _ _ _ => trivial
  have hinflight : (attempt (removeIfPresent .packetInflight key)).run.All (Calm key) :=
    all_attempt (p := removeIfPresent _ _)
      ⟨⟨.removeInflight, by rintro _ ⟨⟩, by rintro ⟨⟩⟩, fun _ => trivial⟩
  have hpending : (getOption .releasePending key).run.All (Calm key) :=
    ⟨calm_of_openingOp .getPending, fun _ => trivial⟩
  refine always_seqE (always_removeIndexes tuples h) hany fun _ s₂ _ hs₂ => ?_
  refine always_seqE (always_calm hinflight hs₂) hany fun _ s₃ _ hs₃ => ?_
  refine always_seqE (p := publishRelease key) ?_ hany fun _ s₄ _ hs₄ => hs₄
  refine always_seqE (always_calm hpending hs₃) hany fun pending s₄ _ hs₄ => ?_
  cases pending with
  | none => exact hs₄
  | some _ => exact ⟨hs₄, fun c resp s₅ _ hexec => hs₄.push hexec⟩

/-- **Wherever a deletion stops, the maps are `Framed`.** -/
theorem always_framed (flowId : UInt64) (generation : UInt32) (observed deadline : UInt64) :
    machine.always allowed (deleteFlow flowId generation observed deadline).run
      (Framed (indexOf flowId generation) (stateKeyOf flowId generation) s) s := by
  refine Upheld.deleteFlow ⟨fun op hop c resp s₁ s₂ _ hs₁ hexec =>
    hs₁.step (calm_of_openingOp hop) hexec, fun tuples stateDeleted staleGeneration s₁ hs₁ hgone => ?_⟩
    (.refl _ _ _) observed deadline
  have hfinish : machine.always allowed (finishCleanup ⟨flowId, generation⟩ _ tuples stateDeleted
      staleGeneration).run (Past (indexOf flowId generation) (stateKeyOf flowId generation) s) s₁ :=
    always_finishCleanup tuples stateDeleted staleGeneration ⟨hs₁, hgone⟩
  exact Machine.always_mono hfinish fun _ h => h.1

/-! ## The frame -/

/-- Wherever a deletion of a flow generation stops, from any maps and with any failures: the entries
under other keys are as before, an index has changed only if it belonged to the generation, only the
generation's key was pushed, and as long as its record is there no index is gone and nothing is pushed.
In particular, nothing of another generation has changed. -/
theorem deletion_frame (flowId : UInt64) (generation : UInt32) (observed deadline : UInt64)
    (s s' : Maps)
    (hstop : machine.Stops (fun _ => True) (deleteFlow flowId generation observed deadline).run s s') :
    Framed (indexOf flowId generation) (stateKeyOf flowId generation) s s' ∧
      ∀ flowId' generation', ¬ (flowId' = flowId ∧ generation' = generation) →
        (∀ m (k : m.Key), m ≠ .flowIndex → Belongs (stateKeyOf flowId' generation') m k →
          s'.find m k = s.find m k) ∧
        ∀ t index, s.find .flowIndex t = some index →
          index.flowId = flowId' → index.generation = generation' →
          s'.find .flowIndex t = some index := by
  have hframed := hstop.of_always (always_framed flowId generation observed deadline)
  refine ⟨hframed, fun flowId' generation' hother =>
    ⟨fun m k hm hk => ?_, fun t index hindex hid hgen => ?_⟩⟩
  · refine hframed.keyed m k fun hown => hother ?_
    have hkeys : stateKeyOf flowId' generation' = stateKeyOf flowId generation := by
      cases m with
      | flowIndex => exact absurd rfl hm
      | _ => exact hk.symm.trans hown
    exact ⟨congrArg FlowStateKey.flowId hkeys, congrArg FlowStateKey.generation hkeys⟩
  · rcases hframed.index t with hsame | ⟨-, howned⟩
    · rw [hsame, hindex]
    · rw [hindex] at howned
      obtain ⟨hown, hown'⟩ := ownedBy_some_iff.mp howned
      exact absurd ⟨hid.symm.trans hown, hgen.symm.trans hown'⟩ hother

/-- Maps in which a newer generation of the sample flow has taken two of its tuples. -/
def supersededMaps : Maps :=
  let newer := indexOf sampleFlow.flowId 2
  ((sampleMaps.put .flowIndex sampleFlow.original newer).put .flowIndex sampleFlow.target newer).put
    .flowState (stateKeyOf sampleFlow.flowId 2) { sampleFlow with generation := 2 }

/-- The deletion of the older generation removes its record and the index it still owns, and nothing of
the newer one. -/
theorem deletion_frame_sample : ∃ s',
    machine.Stops (fun _ => True) (deleteFlow sampleFlow.flowId 1 0 100).run supersededMaps s' ∧
    s'.find .flowState sampleKey = none ∧ s'.find .flowIndex sampleFlow.reverse = none ∧
    s'.find .flowState (stateKeyOf sampleFlow.flowId 2) = some { sampleFlow with generation := 2 } ∧
    s'.find .flowIndex sampleFlow.original = some (indexOf sampleFlow.flowId 2) := by
  have hrun : (machine.run (deleteFlow sampleFlow.flowId 1 0 100).run (List.replicate 22 {})
      supersededMaps).any (fun r => decide (r.2.1.find .flowState sampleKey = none) &&
        decide (r.2.1.find .flowIndex sampleFlow.reverse = none)) = true := by decide +kernel
  obtain ⟨⟨_, s', _⟩, hrun, hcheck⟩ := (Option.any_eq_true _ _).mp hrun
  rw [Bool.and_eq_true, decide_eq_true_eq, decide_eq_true_eq] at hcheck
  have hstop := (Machine.returns_of_run hrun fun _ _ => trivial).stops
  obtain ⟨hkeyed, hindexes⟩ := (deletion_frame sampleFlow.flowId 1 0 100 _ s' hstop).2
    sampleFlow.flowId 2 (by rintro ⟨-, ⟨⟩⟩)
  refine ⟨s', hstop, hcheck.1, hcheck.2, ?_, hindexes _ (indexOf sampleFlow.flowId 2) ?_
    (by simp only [indexOf]) (by simp only [indexOf])⟩
  · rw [hkeyed .flowState _ (by decide) rfl]
    decide +kernel
  · decide +kernel

end ShadowSocketProxy.Alone
