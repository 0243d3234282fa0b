import ShadowSocketProxy.Alone.Deletion
import ShadowSocketProxy.Bpf.Footprint
import ShadowSocketProxy.Interleaving.Interference
import ShadowSocketProxy.Interleaving.Outline

/-! # Deletions that are tried again

Any sequence of deletions of one flow generation, interleaved operation by operation with any number of
`reserve_flow_slot` calls. Every map call of the host may fail. The journal entry of the generation is
claimed once at most, and a deletion without faults finishes what the earlier ones left. -/

namespace ShadowSocketProxy.Retries

open Interleaving Bpf ControlService Alone
open Interleaving.Machine (wp_mono wp_seq under_seq under_seqE under_of_wp under_of_all)

/-! ## The system -/

/-- What may be started. -/
inductive Job where
  /-- `delete_flow` of the generation. -/
  | delete (observedLastUsedNs guardDeadlineNs : UInt64)
  /-- `reserve_flow_slot`, by any packet. -/
  | reserve
  deriving DecidableEq

/-- What a job returns. -/
inductive Outcome where
  | report (result : Except BackendError FlowCleanupReport)
  | reserved (success : Bool)

/-- Whether the job is a call of the host. -/
def Job.isHost : Job → Bool
  | .delete _ _ => true
  | .reserve => false

/-- The program of a job. -/
def Job.code (flowId : UInt64) (generation : UInt32) : Job → Prog Outcome
  | .delete observedLastUsedNs guardDeadlineNs => do
    let result ← (deleteFlow flowId generation observedLastUsedNs guardDeadlineNs).run
    pure (.report result)
  | .reserve => do
    let success ← reserveFlowSlot
    pure (.reserved success)

/-- A thread. -/
abbrev RetryThread : Type := Thread Op Resp Job Outcome

/-- An executed operation. -/
abbrev RetryEvent : Type := Event Op Resp Maps Choice Job

/-- A world. -/
abbrev RetryWorld : Type := World Op Resp Maps Choice Job Outcome

/-- The deletions of one generation, one at a time, beside any number of reservations. -/
def system (flowId : UInt64) (generation : UInt32) : Pool Op Resp Maps Choice Job Outcome where
  machine := machine
  code := Job.code flowId generation
  admits job threads := !job.isHost || threads.all fun t => !t.job.isHost || t.finished

/-! ## What reservations leave alone -/

/-- All hash maps but the release journal are the same. -/
def Beside (s s' : Maps) : Prop := ∀ m, m ≠ .releasePending → s'.tables m = s.tables m

theorem Beside.refl (s : Maps) : Beside s s := fun _ _ => rfl

theorem Beside.trans {s s' s'' : Maps} (h : Beside s s') (h' : Beside s' s'') : Beside s s'' :=
  fun m hm => (h' m hm).trans (h m hm)

theorem Beside.same {s s' : Maps} (h : Beside s s') (m : MapId) (hm : m ≠ .releasePending) :
    Same s s' m := by
  intro key
  rw [Maps.find, Maps.find, h m hm]

theorem Beside.remove {s s' : Maps} (h : Beside s s') (m : MapId) (key : m.Key) :
    Beside (s.remove m key) (s'.remove m key) := by
  intro m' hm'
  by_cases heq : m' = m
  · subst heq
    simp only [Maps.remove, Function.update_self, h m' hm']
  · simp only [Maps.remove, Function.update_of_ne heq, h m' hm']

/-- A `SlotOp` of a reservation leaves all maps `Beside` the journal. -/
theorem beside_slot {op : Op} (hop : SlotOp op) {c : Choice} {s s' : Maps} {resp : Resp op}
    (hexec : exec c op s = some (resp, s')) : Beside s s' := by
  intro m hm
  cases hop with
  | read h =>
    cases h
    case counterCas counter expected new =>
        simp only [exec] at hexec
        split at hexec <;> cases hexec <;> rfl
    all_goals
      cases hexec
      rfl
  | releasePop =>
    simp only [exec] at hexec
    split at hexec <;> cases hexec <;> rfl
  | claim key =>
    rcases exec_delete hexec with ⟨-, rfl, -⟩ | ⟨-, rfl, -⟩
    · rfl
    · exact Function.update_of_ne hm _ _
  | activeCas expected new =>
    simp only [exec] at hexec
    split at hexec <;> cases hexec <;> rfl
  | activeAdd =>
    cases hexec
    rfl
  | activeSub =>
    cases hexec
    rfl
  | reserveSlot =>
    obtain rfl : s.reserveFlowSlot.2 = s' := congrArg Prod.snd (Option.some.inj hexec)
    exact Maps.tables_reserveFlowSlot s hm
  | releaseSlot =>
    cases hexec
    rfl

theorem blind_hostGet (m : MapId) (hm : m ≠ .releasePending) (key : m.Key) :
    machine.Blind Beside (.hostGet m key) := by
  intro c s s₁ resp s₂ hrely hexec
  have hexec : exec c (.hostGet m key) s₁ = some (resp, s₂) := hexec
  obtain ⟨rfl, -⟩ := exec_hostGet hexec
  refine ⟨s, ?_, hrely⟩
  show exec c (.hostGet m key) s = some (resp, s)
  simp only [exec, hostCall, hrely.same m hm key] at hexec ⊢
  repeat' split at hexec
  all_goals
    cases hexec
    simp_all

theorem blind_hostRemove (m : MapId) (hm : m ≠ .releasePending) (key : m.Key) :
    machine.Blind Beside (.hostRemove m key) := by
  intro c s s₁ resp s₂ hrely hexec
  have hexec : exec c (.hostRemove m key) s₁ = some (resp, s₂) := hexec
  show ∃ s₂', exec c (.hostRemove m key) s = some (resp, s₂') ∧ Beside s₂' s₂
  simp only [exec, hostCall, hrely.same m hm key] at hexec ⊢
  split at hexec
  · cases hexec
    exact ⟨s, by simp_all, hrely⟩
  · split at hexec
    · cases hexec
      exact ⟨s.remove m key, by simp_all, hrely.remove m key⟩
    · cases hexec
      exact ⟨s, by simp_all, hrely⟩

theorem blind_hostIter (m : MapId) (hm : m ≠ .releasePending) :
    machine.Blind Beside (.hostIter m) := by
  intro c s s₁ resp s₂ hrely hexec
  have hexec : exec c (.hostIter m) s₁ = some (resp, s₂) := hexec
  show ∃ s₂', exec c (.hostIter m) s = some (resp, s₂') ∧ Beside s₂' s₂
  simp only [exec, hostCall, hrely m hm] at hexec ⊢
  split at hexec
  · cases hexec
    exact ⟨s, by simp_all, hrely⟩
  · cases hexec
    exact ⟨s, by simp_all, hrely⟩

/-! ## A late deletion -/

/-- A map call that succeeds, at a time when the record is gone. -/
def Late (key : FlowStateKey) (c : Choice) (s : Maps) : Prop :=
  c.fault = false ∧ s.find .flowState key = none

/-- Nothing is left of a generation but what its release needs. -/
structure Swept (owner : Bpf.FlowIndexValue) (key : FlowStateKey) (s : Maps) : Prop where
  state : s.find .flowState key = none
  guard : s.find .deleteGuard key = none
  outcome : s.find .deleteOutcome key = none
  inflight : s.find .packetInflight key = none
  index : ∀ t, ownedBy owner (s.find .flowIndex t) = false

theorem Swept.beside {owner : Bpf.FlowIndexValue} {key : FlowStateKey} {s s' : Maps}
    (h : Swept owner key s) (hrely : Beside s s') : Swept owner key s' where
  state := (hrely.same .flowState (by decide) key).trans h.state
  guard := (hrely.same .deleteGuard (by decide) key).trans h.guard
  outcome := (hrely.same .deleteOutcome (by decide) key).trans h.outcome
  inflight := (hrely.same .packetInflight (by decide) key).trans h.inflight
  index t := by
    rw [hrely.same .flowIndex (by decide) t]
    exact h.index t

section Late

variable {key : FlowStateKey} {s : Maps} {expected : ControlService.FlowIndexValue}

/-- What a host call alone `Ensures` holds `Beside` reservations. -/
theorem under_host {α : Type} {p : Host α} (hblind : p.run.All (machine.Blind Beside))
    {Q : Except BackendError α → Maps → Prop} (hQ : ∀ r s s', Q r s → Beside s s' → Q r s')
    (h : Ensures Faultless p.run Q s) : machine.under Beside (Late key) p.run Q s :=
  under_of_wp (fun _ _ _ h h' => h.trans h') (fun c s (hlate : Late key c s) => hlate.1) hblind hQ h

/-- What a late deletion starts from: no record, and indexes that decode. -/
structure Orphaned (key : FlowStateKey) (s : Maps) : Prop where
  state : s.find .flowState key = none
  index : Decodable s

theorem Orphaned.same {s s' : Maps} (h : Orphaned key s) (hstate : Same s s' .flowState)
    (hindex : Same s s' .flowIndex) : Orphaned key s' := by
  refine ⟨(hstate key).trans h.state, fun t index ht => h.index t index ?_⟩
  rwa [hindex t] at ht

theorem Orphaned.beside {s s' : Maps} (h : Orphaned key s) (hrely : Beside s s') : Orphaned key s' :=
  h.same (hrely.same .flowState (by decide)) (hrely.same .flowIndex (by decide))

theorem under_getState (hs : Decodable s) :
    machine.under Beside (Late key) (getOption .flowState key).run
      (fun r s' => r = .ok none ∧ Orphaned key s') s := by
  intro s₁ hrely c resp s₂ ⟨hfault, hnone⟩ hexec
  have hexec : exec c (.hostGet .flowState key) s₁ = some (resp, s₂) := hexec
  simp only [exec, hostCall, hfault, Bool.false_eq_true, if_false, hnone] at hexec
  cases hexec
  intro s₃ hrely₃
  refine ⟨rfl, Orphaned.beside ⟨hnone, fun t index ht => hs t index ?_⟩ hrely₃⟩
  rwa [hrely.same .flowIndex (by decide) t] at ht

/-- A removal that may find nothing has `Dropped` its key. -/
theorem under_drop {m : MapId} {k : m.Key} {p : Host Unit} (hblind : p.run.All (machine.Blind Beside))
    (hp : Ensures Faultless p.run (fun _ s' => Dropped m k s s' ∨ Faulty Faultless ∧ s' = s) s)
    {A : Maps → Prop} (hA : ∀ s s', A s → Beside s s' → A s') (hdrop : ∀ s', Dropped m k s s' → A s') :
    machine.under Beside (Late key) (attempt p).run (fun r s' => (∃ r', r = .ok r') ∧ A s') s := by
  refine under_host (all_attempt hblind) (fun r s s' h hrely => ⟨h.1, hA s s' h.2 hrely⟩) ?_
  rw [run_attempt]
  refine wp_seq hp fun r s' h => ⟨⟨r, rfl⟩, ?_⟩
  rcases h with h | ⟨hfaulty, -⟩
  · exact hdrop s' h
  · exact absurd hfaulty not_faulty_faultless

/-- `Orphaned`, and no round of a deletion is open. -/
structure Unguarded (key : FlowStateKey) (s : Maps) : Prop extends Orphaned key s where
  guard : s.find .deleteGuard key = none
  outcome : s.find .deleteOutcome key = none

theorem Unguarded.same {s s' : Maps} (h : Unguarded key s)
    (hsame : ∀ m, m ≠ .releasePending → m ≠ .packetInflight → Same s s' m) : Unguarded key s' where
  toOrphaned := h.toOrphaned.same (hsame .flowState (by decide) (by decide))
    (hsame .flowIndex (by decide) (by decide))
  guard := (hsame .deleteGuard (by decide) (by decide) key).trans h.guard
  outcome := (hsame .deleteOutcome (by decide) (by decide) key).trans h.outcome

theorem Unguarded.beside {s s' : Maps} (h : Unguarded key s) (hrely : Beside s s') :
    Unguarded key s' :=
  h.same fun m hm _ => hrely.same m hm

/-- The tuples a late deletion looks at: at least those of the indexes of the generation. -/
def Covers (owner : Bpf.FlowIndexValue) (tuples : List TupleKey) (s : Maps) : Prop :=
  ∀ t, ownedBy owner (s.find .flowIndex t) = true → t ∈ tuples

theorem Covers.beside {owner : Bpf.FlowIndexValue} {tuples : List TupleKey} {s s' : Maps}
    (h : Covers owner tuples s) (hrely : Beside s s') : Covers owner tuples s' := by
  intro t ht
  rw [hrely.same .flowIndex (by decide) t] at ht
  exact h t ht

theorem blind_index {op : Op} (h : IndexOp op) : machine.Blind Beside op := by
  cases h with
  | get tuple => exact blind_hostGet .flowIndex (by decide) tuple
  | remove tuple => exact blind_hostRemove .flowIndex (by decide) tuple
  | iter => exact blind_hostIter .flowIndex (by decide)

theorem under_decodedIndexes (expected : ControlService.FlowIndexValue) (hs : Unguarded key s) :
    machine.under Beside (Late key) decodedIndexes.run (fun r s' => Unguarded key s' ∧
      ∃ entries, r = .ok entries ∧ Covers (ownerFor expected) (sortedKeys
        ((entries.filter fun entry => entry.2 = expected).map fun entry => entry.1.pack)) s') s := by
  refine under_host (all_decodedIndexes.mono fun _ => blind_index) ?_ ?_
  · rintro r s s' ⟨h, entries, hr, hcovers⟩ hrely
    exact ⟨h.beside hrely, entries, hr, hcovers.beside hrely⟩
  · refine wp_mono ensures_decodedIndexes ?_
    rintro r s' ⟨rfl, hr⟩
    exact ⟨hs, _, hr not_faulty_faultless hs.index, fun t howned => mem_sortedKeys_of_owned howned⟩

/-- `publishRelease` touches no hash map. -/
theorem all_publishRelease (key : FlowStateKey) :
    (publishRelease key).run.All fun op => ∀ c resp s s',
      machine.exec c op s = some (resp, s') → Beside s s' := by
  refine Program.All.bindE (p := getOption _ _) ⟨?_, fun _ => trivial⟩ fun pending => ?_
  · intro c resp s s' hexec
    obtain ⟨rfl, -⟩ := exec_hostGet hexec
    exact .refl _
  · cases pending with
    | none => trivial
    | some _ =>
      refine ⟨fun c resp s s' hexec => ?_, fun _ => trivial⟩
      have hexec : exec c (.hostPush key) s = some (resp, s') := hexec
      simp only [exec, hostCall] at hexec
      split at hexec <;> cases hexec <;> exact fun _ _ => rfl

theorem under_finishCleanup {tuples : List TupleKey} (hs : Unguarded key s)
    (hcovers : Covers (ownerFor expected) tuples s) (stateDeleted staleGeneration : Bool) :
    machine.under Beside (Late key)
      (finishCleanup expected key tuples stateDeleted staleGeneration).run
      (fun _ s' => Swept (ownerFor expected) key s') s := by
  have hswept : ∀ (s s' : Maps), Swept (ownerFor expected) key s → Beside s s' →
      Swept (ownerFor expected) key s' := fun _ _ h hrely => h.beside hrely
  have hindexes : machine.under Beside (Late key) (removeIndexes expected tuples).run (fun r s' =>
      (∃ counts, r = .ok counts) ∧ Unguarded key s' ∧
        ∀ t, ownedBy (ownerFor expected) (s'.find .flowIndex t) = false) s := by
    refine under_host ((all_removeIndexes tuples).mono fun _ => blind_index) ?_ ?_
    · rintro r s s' ⟨hr, h, hindex⟩ hrely
      refine ⟨hr, h.beside hrely, fun t => ?_⟩
      rw [hrely.same .flowIndex (by decide) t]
      exact hindex t
    · refine wp_mono (ensures_removeIndexes tuples) ?_
      rintro r s' ⟨hreclaimed, hr, hgone⟩
      refine ⟨hr, ⟨⟨?_, hreclaimed.decodable hs.index⟩, ?_, ?_⟩, fun t => ?_⟩
      · exact (hreclaimed.others .flowState (by decide) key).trans hs.state
      · exact (hreclaimed.others .deleteGuard (by decide) key).trans hs.guard
      · exact (hreclaimed.others .deleteOutcome (by decide) key).trans hs.outcome
      · by_cases howned : ownedBy (ownerFor expected) (s.find .flowIndex t) = true
        · exact hgone not_faulty_faultless hs.index t (hcovers t howned)
        · exact hreclaimed.not_owned (Bool.eq_false_iff.mpr howned)
  unfold finishCleanup
  refine under_seqE Beside.refl hindexes ?_ ?_
  · rintro counts s₁ ⟨-, h₁, hindex⟩
    refine under_seqE Beside.refl (under_drop (p := removeIfPresent .packetInflight key)
      (A := Swept (ownerFor expected) key) ⟨blind_hostRemove .packetInflight (by decide) key,
        fun _ => trivial⟩ ensures_removeIfPresent hswept fun s₂ hdrop => ?_) ?_ ?_
    · refine ⟨?_, ?_, ?_, ?_, fun t => ?_⟩
      · exact (hdrop.others .flowState (by decide) key).trans h₁.state
      · exact (hdrop.others .deleteGuard (by decide) key).trans h₁.guard
      · exact (hdrop.others .deleteOutcome (by decide) key).trans h₁.outcome
      · rw [hdrop.find, if_pos rfl]
      · rw [hdrop.others .flowIndex (by decide) t]
        exact hindex t
    · rintro inflight s₂ ⟨-, h₂⟩
      refine under_seqE Beside.refl (R := fun _ s' => Swept (ownerFor expected) key s') ?_ ?_ ?_
      · exact under_of_all (fun op hop c resp s s' h hexec => h.beside (hop c resp s s' hexec))
          hswept (all_publishRelease key) h₂
      · exact fun unpublished s₃ h₃ s₄ hrely => h₃.beside hrely
      · exact fun e s₃ h₃ s₄ hrely => h₃.beside hrely
    · rintro e s₂ ⟨⟨r', hr⟩, -⟩
      cases hr
  · rintro e s₁ ⟨⟨counts, hr⟩, -⟩
    cases hr

/-- **A `Late` deletion leaves the generation `Swept`.** -/
theorem under_deleteFlow {flowId : UInt64} {generation : UInt32} (observed deadline : UInt64)
    (hs : Decodable s) :
    machine.under Beside (Late (stateKeyOf flowId generation))
      (deleteFlow flowId generation observed deadline).run
      (fun _ s' => Swept (indexOf flowId generation) (stateKeyOf flowId generation) s') s := by
  unfold deleteFlow
  simp only [unpack_encodeFlowStateKey]
  refine under_seqE Beside.refl (under_getState hs) ?_ (by rintro e s' ⟨⟨⟩, -⟩)
  rintro initial s₁ ⟨hinitial, h₁⟩
  cases hinitial
  dsimp only
  refine under_seqE Beside.refl (under_drop (p := removeKey .deleteGuard (stateKeyOf flowId generation))
    (A := fun s => Orphaned (stateKeyOf flowId generation) s ∧
      s.find .deleteGuard (stateKeyOf flowId generation) = none)
    ⟨blind_hostRemove .deleteGuard (by decide) _, fun _ => trivial⟩ ensures_gone ?_ ?_) ?_ ?_
  · rintro s s' ⟨h, hguard⟩ hrely
    exact ⟨h.beside hrely, (hrely.same .deleteGuard (by decide) _).trans hguard⟩
  · intro s₂ hdrop
    refine ⟨h₁.same (hdrop.others .flowState (by decide)) (hdrop.others .flowIndex (by decide)), ?_⟩
    rw [hdrop.find, if_pos rfl]
  · rintro _ s₂ ⟨-, h₂, hguard⟩
    refine under_seqE Beside.refl (under_drop
      (p := removeKey .deleteOutcome (stateKeyOf flowId generation))
      (A := Unguarded (stateKeyOf flowId generation))
      ⟨blind_hostRemove .deleteOutcome (by decide) _, fun _ => trivial⟩ ensures_gone
      (fun _ _ h hrely => h.beside hrely) ?_) ?_ ?_
    · intro s₃ hdrop
      refine ⟨h₂.same (hdrop.others .flowState (by decide)) (hdrop.others .flowIndex (by decide)),
        (hdrop.others .deleteGuard (by decide) _).trans hguard, ?_⟩
      rw [hdrop.find, if_pos rfl]
    · rintro _ s₃ ⟨-, h₃⟩
      unfold cleanupAbsent
      refine under_seqE Beside.refl (under_decodedIndexes ⟨flowId, generation⟩ h₃) ?_
        (by rintro e s' ⟨-, _, ⟨⟩, -⟩)
      rintro _ s₄ ⟨h₄, -⟩
      refine under_seqE Beside.refl (under_decodedIndexes ⟨flowId, generation⟩ h₄) ?_
        (by rintro e s' ⟨-, _, ⟨⟩, -⟩)
      rintro entries s₅ ⟨h₅, entries', hentries, hcovers⟩
      cases hentries
      exact under_finishCleanup h₅ hcovers _ _
    · rintro e s₃ ⟨⟨r', hr⟩, -⟩
      cases hr
  · rintro e s₂ ⟨⟨r', hr⟩, -⟩
    cases hr

end Late

end ShadowSocketProxy.Retries
