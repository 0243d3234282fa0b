import ShadowSocketProxy.Alone.Deletion
import ShadowSocketProxy.Deletion.Conservation
import ShadowSocketProxy.Flows.Runs

/-! # When a reservation fails

Classifier runs and deletions without overlap and without failing map calls of the host. A reservation
claims at most one release, the first in the queue. It fails although there is room exactly when that
first entry is the duplicate of a release that has been claimed before. -/

namespace ShadowSocketProxy.Capacity

open Interleaving Bpf ControlService Alone Conservation
open Concurrent (Quiet quiet_of_readOp quiet_of_guardOp quiet_of_roundOp)
open Interleaving.Machine (wp_mono wp_seq wp_seqE wp_of_all wp_and_yields)

variable {s s' : Maps} {allowed : Choice → Prop} {key : FlowStateKey} {β : Type} {p : Prog β}
  {op : Op}

/-! ## Slots, run alone -/

theorem ensures_releaseFlowSlot :
    Ensures allowed releaseFlowSlot (fun _ s' => s' = s.releaseFlowSlot) s := by
  refine ensures_arrayLookup ?_
  rw [if_pos rfl, releaseFlowSlotLoop]
  intro c current s₁ _ hexec
  obtain ⟨rfl, rfl⟩ := Prod.mk.inj (Option.some.inj hexec)
  show machine.wp allowed (if s.activeFlows = 0 then pure () else do
    let swapped ← perform (.activeCas s.activeFlows (s.activeFlows - 1))
    if swapped then pure () else releaseFlowSlotLoop 7) _ s
  split
  · rename_i hzero
    show s = { s with activeFlows := s.activeFlows - 1 }
    rw [hzero, Nat.zero_sub, ← hzero]
  · -- nothing intervenes, so that the first swap succeeds
    intro c swapped s₁ _ hexec
    have hexec : (if s.activeFlows = s.activeFlows then
        some (true, { s with activeFlows := s.activeFlows - 1 }) else some (false, s)) =
          some (swapped, s₁) := hexec
    rw [if_pos rfl] at hexec
    cases hexec
    exact rfl

theorem ensures_consumeRelease :
    Ensures allowed consumeRelease (fun _ s' => s' = s.consumeRelease) s := by
  intro c release s₁ _ hexec
  have hexec : exec c .releasePop s = some (release, s₁) := hexec
  rw [Maps.consumeRelease]
  simp only [exec] at hexec
  split at hexec
  · rename_i hqueue
    cases hexec
    exact rfl
  · rename_i release rest hqueue
    cases hexec
    dsimp only
    refine ensures_delete (fun hnone => ?_) fun hsome => ?_
    · rw [hnone]
      exact rfl
    · obtain ⟨value, hvalue⟩ := Option.isSome_iff_exists.mp hsome
      rw [hvalue]
      exact ensures_releaseFlowSlot

/-- `consumeRelease` touches slots, journal and queue only. -/
theorem runtimeConfig_consumeRelease (s : Maps) : s.consumeRelease.runtimeConfig = s.runtimeConfig := by
  rw [Maps.consumeRelease]
  split
  · rfl
  · dsimp only
    split <;> rfl

/-- **`reserve_flow_slot` alone is the one step `Maps.reserveFlowSlot`.** -/
theorem ensures_reserveFlowSlot :
    Ensures allowed reserveFlowSlot (fun r s' => (r, s') = s.reserveFlowSlot) s := by
  refine ensures_arrayLookup (ensures_configLookup ?_)
  rw [if_pos rfl]
  refine wp_seq ensures_consumeRelease ?_
  rintro - _ rfl
  intro c previous s₁ _ hexec
  obtain ⟨rfl, rfl⟩ := Prod.mk.inj (Option.some.inj hexec)
  rw [Maps.reserveFlowSlot, ← runtimeConfig_consumeRelease s]
  generalize s.consumeRelease = s₀
  show machine.wp allowed (if capacityReached (some s₀.runtimeConfig) s₀.activeFlows then do
    perform .activeSub
    pure false
    else pure true) _ { s₀ with activeFlows := s₀.activeFlows + 1 }
  have hreached : capacityReached (some s₀.runtimeConfig) s₀.activeFlows = true ↔
      s₀.runtimeConfig.activeFlowCapacity ≠ 0 ∧
        s₀.runtimeConfig.activeFlowCapacity.toNat ≤ s₀.activeFlows := by
    simp [capacityReached]
  by_cases hfull : s₀.runtimeConfig.activeFlowCapacity ≠ 0 ∧
      s₀.runtimeConfig.activeFlowCapacity.toNat ≤ s₀.activeFlows
  · rw [if_pos (hreached.mpr hfull), if_pos hfull]
    intro c _ s₂ _ hexec
    cases hexec
    exact rfl
  · rw [if_neg fun h => hfull (hreached.mp h), if_neg hfull]
    exact rfl

/-- A reservation alone returns what `Maps.reserveFlowSlot` says, and only that. -/
theorem returns_reserveFlowSlot_iff {r : Bool} :
    machine.Returns (fun _ => True) reserveFlowSlot s r s' ↔ (r, s') = s.reserveFlowSlot := by
  constructor
  · exact fun hret => hret.of_wp ensures_reserveFlowSlot
  · intro heq
    obtain ⟨r', s'', hret⟩ := exists_returns_faultless reserveFlowSlot s
    have heq' : (r', s'') = s.reserveFlowSlot := hret.of_wp ensures_reserveFlowSlot
    rw [← heq'] at heq
    cases heq
    exact hret.mono fun _ _ => trivial

/-! ## Steps beside the slots -/

/-- Neither slots nor records, journal, queue or configuration have changed. -/
structure Level (s s' : Maps) : Prop extends Steady s s' where
  config : s'.runtimeConfig = s.runtimeConfig

theorem Level.refl (s : Maps) : Level s s :=
  ⟨⟨rfl, rfl, fun _ h => h, rfl, rfl⟩, rfl⟩

theorem Level.trans {s'' : Maps} (h : Level s s') (h' : Level s' s'') : Level s s'' :=
  ⟨⟨h'.active.trans h.active, h'.states.trans h.states, fun k hk => h'.creating k (h.creating k hk),
    h'.pending.trans h.pending, h'.releases.trans h.releases⟩, h'.config.trans h.config⟩

/-- An operation that keeps the `Level`, whatever it is answered. -/
def Inert (op : Op) : Prop := ∀ c s resp s', exec c op s = some (resp, s') → Level s s'

theorem inert_of_quiet (h : Quiet op) : Inert op := fun _ _ _ _ hexec =>
  ⟨.of_unchanged (h.unchanged hexec), (h.unchanged hexec).runtimeConfig⟩

theorem inert_admitOp (h : AdmitOp key op) : Inert op := by
  cases h with
  | guard h => exact inert_of_quiet (quiet_of_guardOp h)
  | stateStore write =>
    exact fun _ _ _ _ hexec => ⟨.of_stateStore hexec, exec_runtimeConfig hexec (by rintro _ ⟨⟩)⟩
  | resolve | inflightAdd => exact inert_of_quiet trivial

theorem inert_indexOp (h : IndexOp op) : Inert op := by
  cases h with
  | get | iter => exact inert_of_quiet trivial
  | remove tuple =>
    intro c s resp s' hexec
    have hunchanged := Concurrent.unchanged_of_unindex hexec
    exact ⟨.of_unchanged hunchanged, hunchanged.runtimeConfig⟩

theorem inert_insertEntries (candidate : FlowStateValue) (index : Bpf.FlowIndexValue) :
    (insertEntries key candidate index).All Inert := by
  have hupdate : ∀ {m : MapId} (k : m.Key) (value : m.Val), m ≠ .flowState → m ≠ .releasePending →
      Inert (.update m k value .noexist) := fun k value hstate hpending c s resp s' hexec =>
    ⟨.of_exec hexec (fun _ h => hstate (congrArg Sigma.fst h))
      (fun _ h => hpending (congrArg Sigma.fst h)) rfl (by rintro ⟨⟩) fun _ => by rintro ⟨⟩,
      exec_runtimeConfig hexec (by rintro _ ⟨⟩)⟩
  have hindex : ∀ tuple, Inert (.update .flowIndex tuple index .noexist) := fun tuple =>
    hupdate _ _ (by decide) (by decide)
  simp only [insertEntries, Program.all_perform_bind, Program.all_ite, Program.all_perform]
  exact ⟨hindex _, fun _ => ⟨fun _ => ⟨hindex _, fun _ => ⟨fun _ => ⟨hindex _, fun _ =>
    ⟨fun _ => hupdate _ _ (by decide) (by decide), fun _ => trivial⟩⟩, fun _ => trivial⟩⟩,
    fun _ => trivial⟩⟩

theorem ensures_level (hp : p.All Inert) : Ensures allowed p (fun _ s' => Level s s') s :=
  wp_of_all (I := fun s' => Level s s')
    (fun _ hop c resp s₁ s₂ _ hs hexec => hs.trans (hop c s₁ resp s₂ hexec)) hp (.refl s)

/-- A program of `Quiet` operations keeps the level. -/
theorem ensures_quiet (hp : p.All Quiet) : Ensures allowed p (fun _ s' => Level s s') s :=
  ensures_level (hp.mono fun _ => inert_of_quiet)

theorem ensures_reads_level (hp : p.All ReadOp) : Ensures allowed p (fun _ s' => Level s s') s :=
  ensures_quiet (hp.mono fun _ => quiet_of_readOp)

/-! ## The books -/

/-- The books are in order: every slot is a record, a journal entry or held by the run in progress; the
count is within the capacity; and every journal entry but the one a deletion is about to publish is in
the queue. -/
structure Settled (held : Int) (late : Option FlowStateKey) (s : Maps) : Prop where
  balance : excess s = held
  bounded : s.runtimeConfig.activeFlowCapacity = 0 ∨
    s.activeFlows ≤ s.runtimeConfig.activeFlowCapacity.toNat
  queued : ∀ k, some k ≠ late → (s.find .releasePending k).isSome → k ∈ s.releases

theorem settled_initial (config : RuntimeConfigValue) : Settled 0 none (Maps.initial config) where
  balance := rfl
  bounded := .inr (Nat.zero_le _)
  queued k _ hk := by cases hk

variable {held : Int} {late : Option FlowStateKey}

theorem Settled.level (h : Settled held late s) (hlevel : Level s s') : Settled held late s' where
  balance := hlevel.excess_eq.trans h.balance
  bounded := by
    rw [hlevel.config, hlevel.active]
    exact h.bounded
  queued k hk hpending := by
    rw [Maps.find, hlevel.pending] at hpending
    rw [hlevel.releases]
    exact h.queued k hk hpending

/-- Whoever holds a slot of `Settled` books finds one to release. -/
theorem Settled.pos (h : Settled 1 late s) : 1 ≤ s.activeFlows := by
  have hbalance := h.balance
  rw [excess] at hbalance
  omega

theorem Settled.release (h : Settled 1 late s) : Settled 0 late s.releaseFlowSlot where
  balance := by
    rw [excess_releaseFlowSlot h.pos, h.balance]
    rfl
  bounded := h.bounded.imp_right fun hle => Nat.le_trans (Nat.sub_le _ _) hle
  queued := h.queued

/-- `consumeRelease` keeps the books: what it claims leaves the journal, and what stays is further
back. -/
theorem Settled.consume (h : Settled 0 none s) : Settled 0 none s.consumeRelease := by
  rw [Maps.consumeRelease]
  split
  · exact h
  · rename_i release rest hqueue
    have hqueued : ∀ k, k ≠ release → (s.find .releasePending k).isSome → k ∈ rest := by
      intro k hk hpending
      have hmem := h.queued k (by rintro ⟨⟩) hpending
      rw [hqueue] at hmem
      exact (List.mem_cons.mp hmem).resolve_left hk
    dsimp only
    split
    · rename_i hnone
      have hnone : s.find .releasePending release = none := hnone
      refine ⟨h.balance, h.bounded, fun k _ hpending => hqueued k ?_ hpending⟩
      rintro rfl
      have hpending : (s.find .releasePending k).isSome = true := hpending
      rw [hnone] at hpending
      cases hpending
    · rename_i value hvalue
      have hvalue : s.find .releasePending release = some value := hvalue
      have hclaimed : Settled 1 none (({ s with releases := rest } : Maps).remove .releasePending
          release) := by
        refine ⟨?_, h.bounded, fun k _ hpending => ?_⟩
        · rw [excess_removePending (s := { s with releases := rest }) hvalue]
          show excess s + 1 = 1
          rw [h.balance]
          rfl
        · rw [Maps.find_remove] at hpending
          split at hpending
          · cases hpending
          · rename_i hk
            exact hqueued k hk hpending
      exact hclaimed.release

theorem Settled.reserve (h : Settled 0 none s) :
    Settled (if s.reserveFlowSlot.1 then 1 else 0) none s.reserveFlowSlot.2 := by
  have hconsumed := h.consume
  rw [Maps.reserveFlowSlot]
  generalize s.consumeRelease = s₀ at hconsumed
  split
  · exact hconsumed
  · rename_i hroom
    refine ⟨?_, ?_, hconsumed.queued⟩
    · have hbalance := hconsumed.balance
      rw [excess] at hbalance
      show ((s₀.activeFlows + 1 : Nat) : Int) - s₀.size .flowState - s₀.size .releasePending = 1
      omega
    · rw [not_and_or, not_not, Nat.not_le] at hroom
      exact hroom

/-! ## Packets -/

theorem ensures_settled (hlevel : Ensures allowed p (fun _ s' => Level s s') s)
    (h : Settled held late s) : Ensures allowed p (fun _ s' => Settled held late s') s :=
  wp_mono hlevel fun _ _ hs' => h.level hs'

theorem ensures_release (h : Settled 1 none s) :
    Ensures allowed Slots.split.release (fun _ s' => Settled 0 none s') s := by
  refine wp_mono ensures_releaseFlowSlot ?_
  rintro - _ rfl
  exact h.release

theorem ensures_rollBack (h : Settled 0 none s) (hcreating : Creating key s)
    (candidate : FlowStateValue) (index : Bpf.FlowIndexValue) :
    Ensures allowed (rollBack Slots.split key candidate index) (fun _ s' => Settled 0 none s') s := by
  have hindex : ∀ tuple (s : Maps),
      Ensures allowed (deleteOwnedIndex tuple index) (fun _ s' => Level s s') s := fun tuple s =>
    ensures_quiet (Concurrent.all_quiet_deleteOwnedIndex tuple index)
  refine wp_seq (hindex _ _) fun _ s₁ h₁ => wp_seq (hindex _ _) fun _ s₂ h₂ =>
    wp_seq (hindex _ _) fun _ s₃ h₃ => ?_
  have hinflight : Ensures allowed (perform (.delete .packetInflight key)) (fun _ s' => Level s₃ s') s₃ :=
    ensures_quiet ⟨by simp [Quiet], fun _ => trivial⟩
  refine wp_seq hinflight fun _ s₄ h₄ => ?_
  have hlevel := ((h₁.trans h₂).trans h₃).trans h₄
  have hs₄ := h.level hlevel
  obtain ⟨record, hrecord, -⟩ := hlevel.creating key hcreating
  refine ensures_delete (fun hnone => ?_) fun _ => ensures_release ⟨?_, hs₄.bounded, hs₄.queued⟩
  · rw [hrecord] at hnone
    cases hnone
  · rw [excess_removeState hrecord, hs₄.balance]
    rfl

/-- Whatever the inserts of `insertFlow` lead to, the slot ends with a record or is given back. -/
theorem ensures_insertFlow {candidate : FlowStateValue} (hcandidate : candidate.lifecycle = flowCreating)
    (h : Settled 1 none s) :
    Ensures allowed (insertFlow Slots.split candidate) (fun _ s' => Settled 0 none s') s := by
  have hread : ∀ {β : Type} {p : Prog β} {s : Maps}, p.All ReadOp → Settled 0 none s →
      Ensures allowed p (fun _ s' => Settled 0 none s') s := fun hp h =>
    ensures_settled (ensures_reads_level hp) h
  refine ensures_update ?_ fun hfree => ?_
  · exact wp_seq (ensures_release h) fun _ s₁ hs₁ => hread (all_resolveAgain _) hs₁
  · have hnone := free_of_noexist hfree
    have hput : Settled 0 none (s.put .flowState
        (stateKeyOf candidate.flowId candidate.generation) candidate) := by
      refine ⟨?_, h.bounded, h.queued⟩
      rw [excess_putState hnone, h.balance]
      rfl
    have hcreating : Creating (stateKeyOf candidate.flowId candidate.generation) (s.put .flowState
        (stateKeyOf candidate.flowId candidate.generation) candidate) :=
      ⟨candidate, Maps.find_put_self _ _ _ _, hcandidate⟩
    refine wp_seq (ensures_level (inert_insertEntries _ _)) fun indexed s₁ h₁ => ?_
    have hs₁ := hput.level h₁
    have hcreating₁ := h₁.creating _ hcreating
    cases indexed with
    | false =>
      exact wp_seq (ensures_rollBack hs₁ hcreating₁ _ _) fun _ s₂ hs₂ => hread (all_resolveAgain _) hs₂
    | true =>
      refine ensures_update ?_ fun _ => ?_
      · exact wp_seq (ensures_rollBack hs₁ hcreating₁ _ _) fun _ s₂ hs₂ => hread all_dropCreation hs₂
      · obtain ⟨record, hrecord, -⟩ := hcreating₁
        refine ⟨?_, hs₁.bounded, hs₁.queued⟩
        rw [excess_replaceState hrecord]
        exact hs₁.balance

theorem ensures_createToward (packet : PacketInfo) (lookupKey : TupleKey) (target : Address)
    (targetPort : UInt16) (h : Settled 0 none s) :
    Ensures allowed (createToward Slots.split packet lookupKey target targetPort)
      (fun _ s' => Settled 0 none s') s := by
  refine ensures_arrayLookup (ensures_arrayLookup ?_)
  have hdraw : Ensures allowed (perform .generationAdd) (fun _ s' => Level s s') s := by
    rintro c resp s₁ - ⟨⟩
    exact ⟨⟨rfl, rfl, fun _ h => h, rfl, rfl⟩, rfl⟩
  refine wp_seq hdraw fun previous s₁ h₁ => ensures_ktime fun c _ => ?_
  have hs₁ := h.level h₁
  refine wp_seq ensures_reserveFlowSlot fun reserved s₂ hreserved => ?_
  have hs₂ : Settled (if reserved then 1 else 0) none s₂ := by
    have hreserve := hs₁.reserve
    rw [← hreserved] at hreserve
    exact hreserve
  cases reserved with
  | true => exact ensures_insertFlow rfl hs₂
  | false => exact ensures_settled (ensures_reads_level all_dropCreation) hs₂

/-- **`process_packet` keeps the books `Settled`**, whichever of its map calls fail. -/
theorem ensures_processPacket (frame : List UInt8) (ingress : Bool) (h : Settled 0 none s) :
    Ensures allowed (processPacket Slots.split frame ingress) (fun _ s' => Settled 0 none s') s := by
  have hread : ∀ {β : Type} {p : Prog β} {s : Maps}, p.All ReadOp → Settled 0 none s →
      Ensures allowed p (fun _ s' => Settled 0 none s') s := fun hp h =>
    ensures_settled (ensures_reads_level hp) h
  unfold processPacket
  cases parsePacket frame with
  | none => exact h
  | some packet =>
    refine wp_seq (hread (all_isControlPacket packet ingress) h) fun control s₁ hs₁ => ?_
    split
    · exact wp_seq (hread (all_incrementCounter _) hs₁) fun _ s₂ hs₂ => hs₂
    · refine wp_seq (R := fun _ s' => Settled 0 none s') ?_ fun resolution s₂ hs₂ => ?_
      · refine ensures_lookup ?_
        cases s₁.find .flowIndex (packetKey packet) with
        | some index => exact hs₁
        | none =>
          cases ingress with
          | false => exact hs₁
          | true =>
            refine wp_seq (hread (all_targetForPacket packet) hs₁) fun target s₂ hs₂ => ?_
            cases target with
            | none => exact wp_seq (hread (all_incrementCounter _) hs₂) fun _ s₃ hs₃ => hs₃
            | some target => exact ensures_createToward packet _ target.1 target.2 hs₂
      · cases resolution with
        | verdict action => exact hs₂
        | index index =>
          refine ensures_lookup ?_
          cases s₂.find .flowState (stateKeyOf index.flowId index.generation) with
          | none => exact hs₂
          | some state =>
            dsimp only
            split
            · have hpacket := all_admitPacket frame packet ingress
                (stateKeyOf index.flowId index.generation)
              exact ensures_settled (ensures_level (hpacket.mono fun _ => inert_admitOp)) hs₂
            · exact hs₂

/-! ## Deletions -/

section Deletions

variable {expected : ControlService.FlowIndexValue}

/-- `RoundOp`s of a deletion, beside record, journal and queue, keep the `Level`. -/
theorem ensures_level_of_round {β : Type} {p : Prog β} (hp : p.All (RoundOp key)) :
    Ensures allowed p (fun _ s' => Level s s') s :=
  ensures_quiet (hp.mono fun _ => quiet_of_roundOp)

theorem ensures_level_of_index {β : Type} {p : Prog β} (hp : p.All IndexOp) :
    Ensures allowed p (fun _ s' => Level s s') s :=
  ensures_level (hp.mono fun _ => inert_indexOp)

theorem ensures_level_dropped {m : MapId} (hstate : m ≠ .flowState) (hpending : m ≠ .releasePending)
    (hindex : m ≠ .flowIndex) (k : m.Key) :
    Ensures allowed (removeIfPresent m k).run (fun _ s' => Level s s') s :=
  ensures_quiet ⟨⟨hstate, hpending, hindex⟩, fun _ => trivial⟩

theorem ensures_level_gone {m : MapId} (hstate : m ≠ .flowState) (hpending : m ≠ .releasePending)
    (hindex : m ≠ .flowIndex) (k : m.Key) :
    Ensures allowed (removeKey m k).run (fun _ s' => Level s s') s :=
  ensures_quiet ⟨⟨hstate, hpending, hindex⟩, fun _ => trivial⟩

theorem Settled.weaken (h : Settled held none s) : Settled held (some key) s :=
  ⟨h.balance, h.bounded, fun k _ hk => h.queued k (by rintro ⟨⟩) hk⟩

section

variable (hfaultless : ¬ Faulty allowed)

include hfaultless

/-- `publishRelease` puts the last journal entry into the queue. -/
theorem ensures_publishRelease (h : Settled 0 (some key) s) :
    Ensures allowed (publishRelease key).run (fun _ s' => Settled 0 none s') s := by
  refine ensures_getThen ?_ fun hfaulty _ => absurd hfaulty hfaultless
  cases hpending : s.find .releasePending key with
  | none =>
    refine ⟨h.balance, h.bounded, fun k _ hk => h.queued k ?_ hk⟩
    rintro ⟨⟩
    rw [hpending] at hk
    cases hk
  | some value =>
    intro c resp s' hc hexec
    have hexec : exec c (.hostPush key) s = some (resp, s') := hexec
    simp only [exec, hostCall] at hexec
    split at hexec
    · exact absurd ⟨c, hc, ‹_›⟩ hfaultless
    · cases hexec
      refine ⟨h.balance, h.bounded, fun k _ hk => ?_⟩
      by_cases hkey : k = key
      · subst hkey
        exact List.mem_append_right _ (List.mem_singleton_self k)
      · exact List.mem_append_left _ (h.queued k (fun heq => hkey (Option.some.inj heq)) hk)

theorem ensures_finishCleanup (h : Settled 0 (some key) s)
    (tuples : List TupleKey) (stateDeleted staleGeneration : Bool) :
    Ensures allowed (finishCleanup expected key tuples stateDeleted staleGeneration).run
      (fun _ s' => Settled 0 none s') s := by
  refine wp_seqE (Machine.wp_and (ensures_level_of_index (all_removeIndexes tuples))
    (ensures_removeIndexes tuples)) (fun counts s₁ ⟨hlevel, _⟩ => ?_) ?_
  · refine ensures_attempt (ensures_level_dropped (by decide) (by decide) (by decide) _)
      fun _ s₂ hlevel₂ => ?_
    exact wp_seqE (ensures_publishRelease hfaultless (h.level (hlevel.trans hlevel₂)))
      (fun _ _ hs₃ => hs₃) fun _ _ hs₃ => hs₃
  · rintro e s₁ ⟨-, -, ⟨counts, he⟩, -⟩
    cases he

/-- `cleanupAbsent` publishes again what is still in the journal. -/
theorem ensures_cleanupAbsent (h : Settled 0 none s) :
    Ensures allowed (cleanupAbsent expected key).run (fun _ s' => Settled 0 none s') s := by
  have hindexes : ∀ s, Ensures allowed decodedIndexes.run (fun _ s' => Level s s') s := fun _ =>
    ensures_level_of_index all_decodedIndexes
  unfold cleanupAbsent
  refine wp_seqE (hindexes s) (fun _ s₁ h₁ => ?_) fun _ s₁ h₁ => h.level h₁
  refine wp_seqE (hindexes s₁) (fun _ s₂ h₂ => ?_) fun _ s₂ h₂ => h.level (h₁.trans h₂)
  exact ensures_finishCleanup hfaultless (h.level (h₁.trans h₂)).weaken _ _ _

/-- `removeRecord` passes the slot of the record to a new journal entry. -/
theorem ensures_removeRecord (h : Settled 0 none s)
    (hnew : s.find .releasePending key = none) (tuples : List TupleKey) :
    Ensures allowed (removeRecord expected key tuples).run (fun _ s' => Settled 0 none s') s := by
  refine ensures_insertThen ?_ ?_
  · have hpending : (s.put .releasePending key flowReleasePending).find .releasePending key =
        some flowReleasePending := Maps.find_put_self _ _ _ _
    have hput : Settled (-1) (some key) (s.put .releasePending key flowReleasePending) := by
      refine ⟨?_, h.bounded, fun k hk hsome => ?_⟩
      · rw [excess_putPending hnew, h.balance]
        rfl
      · have hne : k ≠ key := fun heq => hk (congrArg some heq)
        rw [Maps.find_put, if_neg hne] at hsome
        exact h.queued k (by rintro ⟨⟩) hsome
    generalize s.put .releasePending key flowReleasePending = s₁ at hpending hput
    refine ensures_attempt ensures_removeKey_eq fun removed s₂ hremoved => ?_
    rcases hremoved with ⟨rfl, rfl, hsome⟩ | ⟨⟨e, rfl⟩, rfl, -⟩
    · obtain ⟨record, hrecord⟩ := Option.isSome_iff_exists.mp hsome
      have hgone : Settled 0 (some key) (s₁.remove .flowState key) := by
        refine ⟨?_, hput.bounded, hput.queued⟩
        rw [excess_removeState hrecord, hput.balance]
        rfl
      exact ensures_finishCleanup hfaultless hgone _ _ _
    · -- the removal has failed, and the journal entry is withdrawn
      refine ensures_attempt ensures_removeKey_eq fun withdrawn s₃ hwithdrawn => ?_
      rcases hwithdrawn with ⟨-, rfl, -⟩ | ⟨-, -, hfaulty | hnone⟩
      · have hback : Settled 0 none (s₂.remove .releasePending key) := by
          refine ⟨?_, hput.bounded, fun k _ hk => ?_⟩
          · rw [excess_removePending hpending, hput.balance]
            rfl
          · rw [Maps.find_remove] at hk
            split at hk
            · cases hk
            · rename_i hne
              exact hput.queued k (fun heq => hne (Option.some.inj heq)) hk
        exact ensures_getThen hback fun hfaulty _ => absurd hfaulty hfaultless
      · exact absurd hfaulty hfaultless
      · rw [hpending] at hnone
        cases hnone
  · rintro (hfaulty | hrefused)
    · exact absurd hfaulty hfaultless
    · cases hrefused

theorem ensures_guardedRound (h : Settled 0 none s)
    (hnew : s.find .releasePending key = none) (observed : UInt64) :
    Ensures allowed (guardedRound expected key observed).run (fun _ s' => Settled 0 none s') s := by
  have hcleanup : Ensures allowed (guardedCleanup expected key observed).run
      (fun _ s' => Settled 0 none s') s := by
    refine wp_seqE (ensures_level_of_round all_commitDeletion) (fun commit s₁ h₁ => ?_)
      fun _ s₁ h₁ => h.level h₁
    have hnew₁ : s₁.find .releasePending key = none := by
      rw [Maps.find, h₁.pending]
      exact hnew
    cases commit with
    | report report => exact h.level h₁
    | flow record =>
      dsimp only
      unfold cleanupRecord
      have hdecoded : ∀ {α : Type} (location : String) (result : Except AbiError α),
          Ensures allowed (decoded location result).run (fun _ s' => Level s₁ s') s₁ :=
        fun location result =>
          ensures_quiet (all_decoded _ location result)
      refine wp_seqE (hdecoded _ _) (fun flow s₂ h₂ => ?_)
        fun _ s₂ h₂ => h.level (h₁.trans h₂)
      split
      · exact h.level (h₁.trans h₂)
      · refine ensures_removeRecord hfaultless (h.level (h₁.trans h₂)) ?_ _
        rw [Maps.find, h₂.pending]
        exact hnew₁
  refine ensures_attempt hcleanup fun _ s₁ hs₁ => ?_
  refine ensures_attempt (ensures_level_dropped (by decide) (by decide) (by decide) _) fun _ s₂ h₂ => ?_
  refine ensures_attempt (ensures_level_dropped (by decide) (by decide) (by decide) _) fun _ s₃ h₃ => ?_
  exact hs₁.level (h₂.trans h₃)

/-- **`delete_flow` without failing map calls keeps the books `Settled`**, unless it journals the
release of a record over an earlier one of the same flow generation. -/
theorem ensures_deleteFlow (h : Settled 0 none s) {flowId : UInt64} {generation : UInt32}
    (hnew : (s.find .flowState (stateKeyOf flowId generation)).isSome →
      s.find .releasePending (stateKeyOf flowId generation) = none) (observed deadline : UInt64) :
    Ensures allowed (deleteFlow flowId generation observed deadline).run
      (fun _ s' => Settled 0 none s') s := by
  unfold deleteFlow
  simp only [unpack_encodeFlowStateKey]
  refine ensures_getThen ?_ fun hfaulty _ => absurd hfaulty hfaultless
  cases hstate : s.find .flowState (stateKeyOf flowId generation) with
  | none =>
    refine ensures_attempt (ensures_level_gone (by decide) (by decide) (by decide) _) fun _ s₁ h₁ => ?_
    refine ensures_attempt (ensures_level_gone (by decide) (by decide) (by decide) _) fun _ s₂ h₂ => ?_
    exact ensures_cleanupAbsent hfaultless (h.level (h₁.trans h₂))
  | some record =>
    refine wp_seqE (ensures_level_of_round (all_installGuard deadline)) (fun armed s₁ h₁ => ?_)
      fun _ s₁ h₁ => h.level h₁
    cases armed with
    | false => exact h.level h₁
    | true =>
      refine ensures_guardedRound hfaultless (h.level h₁) ?_ observed
      rw [Maps.find, h₁.pending]
      exact hnew (Option.isSome_of_eq_some hstate)

end

end Deletions

/-! ## Runs without overlap -/

/-- Classifier runs and deletions, and no deletion of a record under whose identity an earlier release
is still in the journal. -/
def Fresh : Job → Maps → Prop
  | .packet _ _, _ => True
  | .delete flowId generation _ _, s =>
    (s.find .flowState (stateKeyOf flowId generation)).isSome →
      s.find .releasePending (stateKeyOf flowId generation) = none
  | .setConfig _, _ => False
  | .listFlows, _ => False

instance : (job : Job) → (s : Maps) → Decidable (Fresh job s)
  | .packet _ _, _ => .isTrue trivial
  | .delete _ _ _ _, _ => inferInstanceAs (Decidable (_ → _))
  | .setConfig _, _ => .isFalse id
  | .listFlows, _ => .isFalse id

theorem settled_of_serial {config : RuntimeConfigValue}
    (hrun : machine.Serial (Job.code Slots.split) Flows.faultFree Fresh (Maps.initial config) s) :
    Settled 0 none s := by
  refine hrun.invariant (I := Settled 0 none) (settled_initial config) ?_
  intro job value s₁ s₂ hs₁ hfresh hret
  refine hret.of_wp (Q := fun _ s' => Settled 0 none s') ?_
  cases job with
  | packet frame ingress =>
    exact wp_seq (ensures_processPacket frame ingress hs₁) fun _ _ hs₂ => hs₂
  | delete flowId generation observed deadline =>
    have hfaultless : ¬ Faulty (Flows.faultFree (.delete flowId generation observed deadline)) := by
      rintro ⟨c, hc, hfault⟩
      rw [hc rfl] at hfault
      cases hfault
    exact wp_seq (ensures_deleteFlow hfaultless hs₁ hfresh observed deadline) fun _ _ hs₂ => hs₂
  | setConfig config => exact hfresh.elim
  | listFlows => exact hfresh.elim

/-- The first release of the queue can still be claimed. -/
def Claimable (s : Maps) : Prop := ∃ k, s.releases.head? = some k ∧ (s.find .releasePending k).isSome

theorem activeFlows_consumeRelease_of_claimable (h : Claimable s) :
    s.consumeRelease.activeFlows = s.activeFlows - 1 := by
  obtain ⟨k, hhead, hsome⟩ := h
  obtain ⟨value, hvalue⟩ := Option.isSome_iff_exists.mp hsome
  obtain ⟨rest, hqueue⟩ := List.head?_eq_some_iff.mp hhead
  -- the journal does not depend on the queue
  have hvalue : ({ s with releases := rest } : Maps).find .releasePending k = some value := hvalue
  rw [Maps.consumeRelease, hqueue]
  simp only [hvalue]
  rfl

theorem activeFlows_consumeRelease_of_not_claimable (h : ¬ Claimable s) :
    s.consumeRelease.activeFlows = s.activeFlows := by
  rw [Maps.consumeRelease]
  split
  · rfl
  · rename_i release rest hqueue
    dsimp only
    split
    · rfl
    · rename_i value hvalue
      have hvalue : s.find .releasePending release = some value := hvalue
      exact absurd ⟨release, by rw [hqueue, List.head?_cons], Option.isSome_of_eq_some hvalue⟩ h

/-- A reservation fails exactly when the capacity is reached behind `consumeRelease`. -/
theorem returns_false_iff :
    (∃ s', machine.Returns (fun _ => True) reserveFlowSlot s false s') ↔
      s.runtimeConfig.activeFlowCapacity ≠ 0 ∧
        s.runtimeConfig.activeFlowCapacity.toNat ≤ s.consumeRelease.activeFlows := by
  simp only [returns_reserveFlowSlot_iff, Maps.reserveFlowSlot, runtimeConfig_consumeRelease]
  split
  · rename_i hfull
    exact ⟨fun _ => hfull, fun _ => ⟨_, rfl⟩⟩
  · rename_i hroom
    refine ⟨?_, fun hfull => absurd hfull hroom⟩
    rintro ⟨s', heq⟩
    cases heq

/-- **When a reservation is refused only for want of room.** In every run of classifiers and deletions
without overlap and without failing calls of the host, in which no record is deleted under an identity
that still has a release in the journal: a reservation fails only with as many records as the capacity
allows if and only if the capacity is unlimited or not reached, or nothing is journaled, or the first
release in the queue is still in the journal. -/
theorem rejection_iff {config : RuntimeConfigValue}
    (hrun : machine.Serial (Job.code Slots.split) Flows.faultFree Fresh (Maps.initial config) s) :
    ((∃ s', machine.Returns (fun _ => True) reserveFlowSlot s false s') →
        s.runtimeConfig.activeFlowCapacity.toNat ≤ s.size .flowState) ↔
      s.runtimeConfig.activeFlowCapacity = 0 ∨
        s.activeFlows < s.runtimeConfig.activeFlowCapacity.toNat ∨
        s.size .releasePending = 0 ∨ Claimable s := by
  have hsettled := settled_of_serial hrun
  have hbalance := hsettled.balance
  rw [excess] at hbalance
  rw [returns_false_iff]
  constructor
  · intro hclaim
    by_contra hnot
    simp only [not_or, Nat.not_lt] at hnot
    obtain ⟨hlimited, hreached, hpending, hstale⟩ := hnot
    have hroom := hclaim ⟨hlimited, by rwa [activeFlows_consumeRelease_of_not_claimable hstale]⟩
    have hbounded := hsettled.bounded.resolve_left hlimited
    omega
  · rintro hcond ⟨hlimited, hfull⟩
    by_cases hclaimable : Claimable s
    · -- a claimed release makes room, since the count was within the capacity
      rw [activeFlows_consumeRelease_of_claimable hclaimable] at hfull
      have hbounded := hsettled.bounded.resolve_left hlimited
      obtain ⟨k, -, hsome⟩ := hclaimable
      have := size_pos hsome
      omega
    · rw [activeFlows_consumeRelease_of_not_claimable hclaimable] at hfull
      rcases hcond with hzero | hbelow | hnone | hclaim
      · exact absurd hzero hlimited
      · omega
      · omega
      · exact absurd hclaim hclaimable

/-- Room for one flow. -/
def narrowConfig : RuntimeConfigValue := { sampleConfig with activeFlowCapacity := 1 }

/-- The second client's flow. -/
def rivalFlowId : UInt64 := tupleHash (packetKey { samplePacket with sourcePort := 1001 })

/-- Run jobs one after the other at time zero, without faults. -/
def runFresh (jobs : List Job) : Option Maps :=
  machine.runAll (Job.code Slots.split) (fun job s => decide (Fresh job s))
    (jobs.map fun job => (job, List.replicate 40 {})) (Maps.initial narrowConfig)

theorem exists_serial_of_runFresh {jobs : List Job} {check : Maps → Bool}
    (hrun : (runFresh jobs).any check = true) : ∃ s,
    machine.Serial (Job.code Slots.split) Flows.faultFree Fresh (Maps.initial narrowConfig) s ∧
      check s = true := by
  refine Machine.exists_serial_of_runAll hrun ?_ fun _ _ h => of_decide_eq_true h
  rintro x hx c hc -
  obtain ⟨job, -, rfl⟩ := List.mem_map.mp hx
  rw [List.eq_of_mem_replicate hc]

/-- The sample datagram creates its flow, and the flow is deleted. -/
def sampleJobs : List Job := [.packet sampleFrame true, .delete sampleFlow.flowId 1 0 100]

/-- The only slot is free for the next flow after a deletion. -/
theorem rejection_iff_freed : ∃ s,
    machine.Serial (Job.code Slots.split) Flows.faultFree Fresh (Maps.initial narrowConfig) s ∧
      s.size .releasePending = 1 ∧ ¬ ∃ s', machine.Returns (fun _ => True) reserveFlowSlot s false s' := by
  have hrun : (runFresh sampleJobs).any (fun s => decide (s.size .releasePending = 1) &&
      decide (s.size .flowState = 0) && decide (s.runtimeConfig.activeFlowCapacity = 1) &&
      (s.releases.head?.any fun k => (s.find .releasePending k).isSome)) = true := by
    decide +kernel
  obtain ⟨s, hserial, hcheck⟩ := exists_serial_of_runFresh hrun
  simp only [Bool.and_eq_true, decide_eq_true_eq, Option.any_eq_true] at hcheck
  obtain ⟨⟨⟨hpending, hnone⟩, hcapacity⟩, k, hhead, hsome⟩ := hcheck
  refine ⟨s, hserial, hpending, fun hfails => ?_⟩
  have hroom := (rejection_iff hserial).mpr (.inr (.inr (.inr ⟨k, hhead, hsome⟩))) hfails
  rw [hcapacity, hnone] at hroom
  cases hroom

/-- The first flow is deleted twice, its slot goes to the second flow, and that flow is deleted too. -/
def repeatedJobs : List Job :=
  sampleJobs ++ [.delete sampleFlow.flowId 1 0 100, .packet sampleRival true, .delete rivalFlowId 2 0 100]

/-- **A reservation fails with no flow alive.** The repeated deletion has published the first release
twice; its duplicate stands before the release of the second flow, and a reservation looks at no more
than one. -/
theorem rejected_without_flows : ∃ s s',
    machine.Serial (Job.code Slots.split) Flows.faultFree Fresh (Maps.initial narrowConfig) s ∧
      s.runtimeConfig.activeFlowCapacity = 1 ∧ s.size .flowState = 0 ∧
      machine.Returns (fun _ => True) reserveFlowSlot s false s' := by
  have hrun : (runFresh repeatedJobs).any (fun s => decide (s.runtimeConfig.activeFlowCapacity = 1) &&
      decide (s.size .flowState = 0) && !s.reserveFlowSlot.1) = true := by
    decide +kernel
  obtain ⟨s, hserial, hcheck⟩ := exists_serial_of_runFresh hrun
  simp only [Bool.and_eq_true, decide_eq_true_eq, Bool.not_eq_true'] at hcheck
  obtain ⟨⟨hcapacity, hnone⟩, hfails⟩ := hcheck
  refine ⟨s, s.reserveFlowSlot.2, hserial, hcapacity, hnone, returns_reserveFlowSlot_iff.mpr ?_⟩
  rw [← hfails]

end ShadowSocketProxy.Capacity
