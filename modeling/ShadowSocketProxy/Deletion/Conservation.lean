import ShadowSocketProxy.Concurrent.Threads
import Mathlib.Algebra.Order.BigOperators.Group.Multiset

/-! # Conservation of flow slots

A slot is reserved before the record of a flow is inserted. It is released when the creation fails, or
when a reservation claims the journal entry that the deletion of the flow has left. Reservation and
release are single steps here, and all other map operations interleave: whenever nothing runs, the active
flows are the records and the journal entries together, as long as the host removes no record that is
still being created. -/

namespace ShadowSocketProxy.Conservation

open Interleaving Bpf ControlService
open Alone (keyOf)
open Concurrent (Phase Step Unchanged)
open Multiset (countP_cons mem_cons mem_cons_of_mem mem_cons_self)

/-! ## The balance -/

/-- Every record and every journaled release stands for one slot. -/
def Balanced (s : Maps) : Prop :=
  s.activeFlows = s.size .flowState + s.size .releasePending

/-- The active flows that are neither records nor journal entries: zero when `Balanced`. -/
def excess (s : Maps) : Int :=
  s.activeFlows - s.size .flowState - s.size .releasePending

theorem balanced_iff {s : Maps} : Balanced s ↔ excess s = 0 := by
  rw [Balanced, excess]
  omega

/-- A record that its creator has not activated yet. -/
def Creating (key : FlowStateKey) (s : Maps) : Prop :=
  ∃ record, s.find .flowState key = some record ∧ record.lifecycle = flowCreating

instance (key : FlowStateKey) (s : Maps) : Decidable (Creating key s) :=
  decidable_of_iff ((s.find .flowState key).any fun record => record.lifecycle = flowCreating) (by
    rw [Option.any_eq_true]
    simp only [Creating, decide_eq_true_eq])

/-- A release is in the journal and not published. -/
def Journaled (key : FlowStateKey) (s : Maps) : Prop :=
  (s.find .releasePending key).isSome ∧ key ∉ s.releases

/-- What keeps the balance: the host removes no record that is being created; it journals a release only
when no earlier release of the same identity is in the journal or in the queue; and it can withdraw what
it has journaled. -/
def Conserving (e : SystemEvent) : Prop :=
  match e.op with
  | .hostRemove .flowState key => ¬ Creating key e.before
  | .hostInsert .releasePending key _ _ =>
    e.before.find .releasePending key = none ∧ key ∉ e.before.releases
  | .hostRemove .releasePending _ => e.choice.fault = false
  | _ => True

instance (e : SystemEvent) : Decidable (Conserving e) := by
  unfold Conserving
  split <;> infer_instance

/-! ## Phases -/

/-- The slots of a thread that are neither a record nor a journal entry: one that is reserved, and less
than none once a deletion has journaled a release and not yet removed the record. -/
def load : Phase → Int
  | .reserved _ | .vacating => 1
  | .journaled _ => -1
  | _ => 0

/-- What a phase says of the maps. -/
def Fact (s : Maps) : Phase → Prop
  | .creating candidate => Creating (keyOf candidate) s
  | .journaled key => Journaled key s
  | _ => True

/-- The record a thread is creating. -/
def creates? : Phase → Option FlowStateKey
  | .creating candidate => some (keyOf candidate)
  | _ => none

/-- The `load` of all running threads. -/
def weight (running : Multiset (Job × Phase)) : Int :=
  (running.map fun x => load x.2).sum

theorem weight_cons (job : Job) (φ : Phase) (running : Multiset (Job × Phase)) :
    weight ((job, φ) ::ₘ running) = load φ + weight running := by
  rw [weight, Multiset.map_cons, Multiset.sum_cons]
  rfl

/-- The `load` of a thread is negative only in the middle of a removal. -/
theorem load_nonneg {φ : Phase} (h : φ.isOwn = false) : 0 ≤ load φ := by
  cases φ with
  | journaled key => cases h
  | reserved | vacating => exact Int.one_nonneg
  | _ => exact Int.le_refl 0

theorem weight_nonneg {running : Multiset (Job × Phase)} (h : ∀ x ∈ running, x.2.isOwn = false) :
    0 ≤ weight running := by
  refine Multiset.sum_nonneg fun n hn => ?_
  obtain ⟨x, hx, rfl⟩ := Multiset.mem_map.mp hn
  exact load_nonneg (h x hx)

/-- A thread that may end has no `load`. -/
theorem load_of_isLast {φ : Phase} (h : φ.isLast = true) : load φ = 0 := by
  cases φ with
  | reserved | vacating | journaled => cases h
  | _ => rfl

/-- The invariant: `excess` is the `weight` of the running threads, whose phases say what is so. -/
structure Inv (s : Maps) (running : Multiset (Job × Phase)) : Prop where
  balance : excess s = weight running
  facts : ∀ x ∈ running, Fact s x.2
  /-- Two threads do not create the same record. -/
  single : ∀ key, running.countP (fun x => creates? x.2 = some key) ≤ 1
  roles : Roles Job.isHost Phase.isOwn running

/-- The outline with `Inv` as its invariant. -/
def outline : Outline Op Resp Maps Choice Job Outcome Phase where
  inv s _ running := Inv s running
  permitted := Conserving
  ends _ job := Concurrent.Ends job
  settled _ _ _ _ := True

/-! ## Steps -/

section Steps

variable {s s' : Maps} {job : Job} {φ φ' : Phase} {rest : Multiset (Job × Phase)} {key : FlowStateKey}

section Excess

variable {record : FlowStateValue} {value : UInt32}

/-- A new record takes one from the `excess`. -/
theorem excess_putState (h : s.find .flowState key = none) :
    excess (s.put .flowState key record) = excess s - 1 := by
  have hsize : (s.put .flowState key record).size .flowState = s.size .flowState + 1 :=
    Maps.size_put_of_none h
  have hpending : (s.put .flowState key record).size .releasePending = s.size .releasePending :=
    Maps.size_put_of_ne _ _ _ (by decide)
  have hactive : (s.put .flowState key record).activeFlows = s.activeFlows := rfl
  rw [excess, hactive, hsize, hpending, excess]
  omega

/-- A record that is replaced keeps its slot and the `excess`. -/
theorem excess_replaceState {old : FlowStateValue} (h : s.find .flowState key = some old) :
    excess (s.put .flowState key record) = excess s := by
  have hsize : (s.put .flowState key record).size .flowState = s.size .flowState :=
    Maps.size_put_of_some h
  have hpending : (s.put .flowState key record).size .releasePending = s.size .releasePending :=
    Maps.size_put_of_ne _ _ _ (by decide)
  rw [excess, hsize, hpending]
  rfl

/-- A removed record adds its slot to the `excess`. -/
theorem excess_removeState (h : s.find .flowState key = some record) :
    excess (s.remove .flowState key) = excess s + 1 := by
  have hsize := Maps.size_remove_of_some h
  have hpending : (s.remove .flowState key).size .releasePending = s.size .releasePending :=
    Maps.size_remove_of_ne _ _ (by decide)
  have hactive : (s.remove .flowState key).activeFlows = s.activeFlows := rfl
  rw [excess, hactive, hpending, excess]
  omega

theorem excess_putPending (h : s.find .releasePending key = none) :
    excess (s.put .releasePending key value) = excess s - 1 := by
  have hsize : (s.put .releasePending key value).size .releasePending = s.size .releasePending + 1 :=
    Maps.size_put_of_none h
  have hstates : (s.put .releasePending key value).size .flowState = s.size .flowState :=
    Maps.size_put_of_ne _ _ _ (by decide)
  have hactive : (s.put .releasePending key value).activeFlows = s.activeFlows := rfl
  rw [excess, hactive, hsize, hstates, excess]
  omega

theorem excess_removePending (h : s.find .releasePending key = some value) :
    excess (s.remove .releasePending key) = excess s + 1 := by
  have hsize := Maps.size_remove_of_some h
  have hstates : (s.remove .releasePending key).size .flowState = s.size .flowState :=
    Maps.size_remove_of_ne _ _ (by decide)
  have hactive : (s.remove .releasePending key).activeFlows = s.activeFlows := rfl
  rw [excess, hactive, hstates, excess]
  omega

/-- `releaseFlowSlot` with a slot to release takes one from the `excess`. -/
theorem excess_releaseFlowSlot (h : 1 ≤ s.activeFlows) : excess s.releaseFlowSlot = excess s - 1 := by
  have hactive : s.releaseFlowSlot.activeFlows = s.activeFlows - 1 := rfl
  have hstates : s.releaseFlowSlot.size .flowState = s.size .flowState := rfl
  have hpending : s.releaseFlowSlot.size .releasePending = s.size .releasePending := rfl
  rw [excess, hactive, hstates, hpending, excess]
  omega

end Excess

theorem size_pos {m : MapId} {k : m.Key} (h : (s.find m k).isSome) : 1 ≤ s.size m := by
  obtain ⟨value, hvalue⟩ := Option.isSome_iff_exists.mp h
  have := Maps.size_remove_of_some hvalue
  omega

/-- A thread that creates a record is the only one to do so. -/
theorem Inv.not_creates (hinv : Inv s ((job, φ) ::ₘ rest)) (hφ : creates? φ = some key) :
    ∀ x ∈ rest, creates? x.2 ≠ some key := by
  intro x hx heq
  have hone := hinv.single key
  rw [countP_cons, if_pos hφ] at hone
  have hpos : 0 < rest.countP fun x => creates? x.2 = some key := Multiset.countP_pos.mpr ⟨x, hx, heq⟩
  omega

/-- One step: the `excess` moves with the `load` of the thread, and the others keep their `Fact`. -/
theorem Inv.move (hinv : Inv s ((job, φ) ::ₘ rest))
    (hbalance : excess s' - load φ' = excess s - load φ) (hfact : Fact s' φ')
    (hothers : ∀ x ∈ rest, Fact s x.2 → Fact s' x.2)
    (hsingle : ∀ k, creates? φ' = some k →
      creates? φ = some k ∨ ∀ x ∈ rest, creates? x.2 ≠ some k)
    (hrole : φ'.isOwn = true → job.isHost = true) : Inv s' ((job, φ') ::ₘ rest) where
  balance := by
    have h := hinv.balance
    rw [weight_cons] at h ⊢
    omega
  facts x hx := by
    rcases mem_cons.mp hx with rfl | hx
    · exact hfact
    · exact hothers x hx (hinv.facts x (mem_cons_of_mem hx))
  single k := by
    have hone := hinv.single k
    rw [countP_cons] at hone ⊢
    by_cases heq : creates? φ' = some k
    · rcases hsingle k heq with hφ | hfree
      · rw [if_pos heq]
        rw [if_pos hφ] at hone
        exact hone
      · rw [Multiset.countP_eq_zero.mpr hfree, if_pos heq]
    · rw [if_neg heq]
      exact le_trans (Nat.le_add_right _ _) hone
  roles := hinv.roles.move hrole

/-- A `Fact` stays when its record and its journal entry do. -/
theorem Fact.of_kept (h : Fact s φ)
    (hcreating : ∀ k, creates? φ = some k → Creating k s → Creating k s')
    (hjournaled : ∀ k, φ = .journaled k → Journaled k s → Journaled k s') : Fact s' φ := by
  cases φ with
  | creating candidate => exact hcreating _ rfl h
  | journaled k => exact hjournaled k rfl h
  | _ => trivial

/-- Beside a call of the host no thread is `.journaled`. -/
theorem Inv.not_journaled (hinv : Inv s ((job, φ) ::ₘ rest)) (hhost : job.isHost = true)
    {x : Job × Phase} (hx : x ∈ rest) (k : FlowStateKey) : x.2 ≠ .journaled k := by
  intro heq
  have hown := hinv.roles.alone hhost x hx
  rw [heq] at hown
  cases hown

/-- A step that touches neither the balance nor what the phases say. -/
structure Steady (s s' : Maps) : Prop where
  active : s'.activeFlows = s.activeFlows
  states : s'.size .flowState = s.size .flowState
  creating : ∀ k, Creating k s → Creating k s'
  pending : s'.tables .releasePending = s.tables .releasePending
  releases : s'.releases = s.releases

theorem Steady.of_frame (hstates : s'.tables .flowState = s.tables .flowState)
    (hpending : s'.tables .releasePending = s.tables .releasePending)
    (hactive : s'.activeFlows = s.activeFlows) (hreleases : s'.releases = s.releases) : Steady s s' where
  active := hactive
  states := by
    rw [Maps.size, hstates]
    rfl
  creating k hk := by
    rw [Creating, Maps.find, hstates]
    exact hk
  pending := hpending
  releases := hreleases

theorem Steady.of_unchanged (h : Unchanged s s') : Steady s s' :=
  .of_frame h.records h.journal h.activeFlows h.releases

/-- An operation that may change neither records nor journal, nor count, nor queue is `Steady`. -/
theorem Steady.of_exec {op : Op} {resp : Resp op} {c : Choice} (hexec : exec c op s = some (resp, s'))
    (hstate : ∀ k, ¬ op.MayChange .flowState k) (hpending : ∀ k, ¬ op.MayChange .releasePending k)
    (hcounts : op.countsFlows = false) (hpop : op ≠ .releasePop) (hpush : ∀ k, op ≠ .hostPush k) :
    Steady s s' := by
  refine .of_frame (exec_tables hexec hstate) (exec_tables hexec hpending)
    (exec_activeFlows hexec hcounts) (exec_releases hexec hpop ?_ hpush)
  rintro rfl
  exact hpending {} rfl

/-- `stateStore` is `Steady`: it writes a record that is there, and keeps its lifecycle. -/
theorem Steady.of_stateStore {c : Choice} {write : StateUpdate} {resp : Unit}
    (hexec : exec c (.stateStore key write) s = some (resp, s')) : Steady s s' := by
  simp only [exec] at hexec
  split at hexec
  · rename_i record hrecord
    cases hexec
    have hlifecycle : (write.apply record).lifecycle = record.lifecycle := by
      have hfixed := fixedPart_apply write record
      simp only [fixedPart, Prod.mk.injEq] at hfixed
      exact hfixed.2.2.2.2.2
    refine ⟨rfl, Maps.size_put_of_some hrecord, ?_, ?_, rfl⟩
    · rintro k ⟨old, hold, hcreating⟩
      by_cases hk : k = key
      · subst hk
        rw [hrecord] at hold
        cases hold
        exact ⟨_, Maps.find_put_self _ _ _ _, hlifecycle.trans hcreating⟩
      · refine ⟨old, ?_, hcreating⟩
        rw [Maps.find_put, if_neg hk]
        exact hold
    · have hne : MapId.releasePending ≠ .flowState := by decide
      simp only [Maps.put, Function.update_of_ne hne]
  · cases hexec
    exact ⟨rfl, rfl, fun _ h => h, rfl, rfl⟩

theorem Steady.excess_eq (h : Steady s s') : excess s' = excess s := by
  have hpending : s'.size .releasePending = s.size .releasePending := by
    rw [Maps.size, h.pending]
    rfl
  rw [excess, h.active, h.states, hpending]
  rfl

theorem Steady.fact (h : Steady s s') (hφ : Fact s φ) : Fact s' φ := by
  refine hφ.of_kept (fun k _ => h.creating k) fun k _ hk => ?_
  rw [Journaled, Maps.find, h.pending, h.releases]
  exact hk

/-- A `Steady` step, to a phase that weighs as much and says no more. -/
theorem Inv.steady (hinv : Inv s ((job, φ) ::ₘ rest)) (h : Steady s s') (hload : load φ' = load φ)
    (hφ' : φ' = φ ∨ (Fact s' φ' ∧ creates? φ' = none)) (hrole : φ'.isOwn = true → job.isHost = true) :
    Inv s' ((job, φ') ::ₘ rest) := by
  refine hinv.move (by rw [h.excess_eq, hload]) ?_ (fun x _ => h.fact) ?_ hrole
  · rcases hφ' with rfl | ⟨hfact, -⟩
    · exact h.fact (hinv.facts _ (mem_cons_self _ _))
    · exact hfact
  · rcases hφ' with rfl | ⟨-, hnone⟩
    · exact fun k hk => .inl hk
    · intro k hk
      rw [hnone] at hk
      cases hk

/-- The others weigh no less than the removal under way, whose entry is `Journaled`. -/
theorem Inv.weight_rest (hinv : Inv s ((job, φ) ::ₘ rest)) :
    0 ≤ weight rest ∨ (-1 ≤ weight rest ∧ ∃ k, Journaled k s) := by
  by_cases hown : ∀ x ∈ rest, x.2.isOwn = false
  · exact .inl (weight_nonneg hown)
  · push Not at hown
    obtain ⟨⟨job', φ'⟩, hx, hφ'⟩ := hown
    obtain ⟨rest', rfl⟩ := Multiset.exists_cons_of_mem hx
    have hfact : Fact s φ' := hinv.facts _ (mem_cons_of_mem hx)
    have hhost : job'.isHost = true :=
      hinv.roles.host _ (mem_cons_of_mem hx) (Bool.not_eq_false _ ▸ hφ')
    have hothers := weight_nonneg (hinv.roles.retire.alone hhost)
    rw [weight_cons]
    cases φ' with
    | journaled k =>
      rw [show load (.journaled k) = -1 from rfl]
      exact .inr ⟨by omega, k, hfact⟩
    | seen k | gone k =>
      refine .inl ?_
      rw [show load _ = 0 from rfl]
      omega
    | _ => exact absurd rfl hφ'

/-- There is a slot to release for a thread whose `load` is one. -/
theorem Inv.pos_of_load (hinv : Inv s ((job, φ) ::ₘ rest)) (hload : load φ = 1) : 1 ≤ s.activeFlows := by
  have hbalance := hinv.balance
  rw [excess, weight_cons, hload] at hbalance
  rcases hinv.weight_rest with hrest | ⟨hrest, k, hk⟩
  · omega
  · have := size_pos hk.1
    omega

/-! ### Creations -/

/-- The record of one identity changes; others stay `Creating`. -/
theorem Creating.of_ne {k : FlowStateKey} (h : Creating k s) (key : FlowStateKey) (hk : k ≠ key)
    (hstate : ∀ k, k ≠ key → s'.find .flowState k = s.find .flowState k) : Creating k s' := by
  obtain ⟨record, hrecord, hlifecycle⟩ := h
  exact ⟨record, (hstate k hk).trans hrecord, hlifecycle⟩

/-- A record is written that no other thread `creates?`. -/
theorem Fact.put {record : FlowStateValue} (h : Fact s φ) (hne : creates? φ ≠ some key) :
    Fact (s.put .flowState key record) φ := by
  refine h.of_kept (fun k hφ hk => hk.of_ne key ?_ fun k hk => by rw [Maps.find_put, if_neg hk])
    fun k _ hk => ?_
  · rintro rfl
    exact hne hφ
  · rw [Journaled, Maps.find_put_of_ne _ _ _ (by decide)]
    exact hk

/-- A record is removed that no other thread `creates?`. -/
theorem Fact.remove (h : Fact s φ) (hne : creates? φ ≠ some key) :
    Fact (s.remove .flowState key) φ := by
  refine h.of_kept (fun k hφ hk => hk.of_ne key ?_ fun k hk => by rw [Maps.find_remove, if_neg hk])
    fun k _ hk => ?_
  · rintro rfl
    exact hne hφ
  · rw [Journaled, Maps.find_remove_of_ne _ _ (by decide)]
    exact hk

/-- What a thread `creates?` is `Creating`. -/
theorem Fact.creating (h : Fact s φ) (hφ : creates? φ = some key) : Creating key s := by
  cases φ with
  | creating candidate =>
    cases hφ
    exact h
  | _ => cases hφ

/-- `consumeRelease` keeps `Inv`: the release at the head of the queue is claimed, if there is one. -/
theorem Inv.consume (hinv : Inv s ((job, .drawn key) ::ₘ rest)) :
    Inv s.consumeRelease ((job, .drawn key) ::ₘ rest) := by
  rw [Maps.consumeRelease]
  split
  · exact hinv
  · rename_i release queue hqueue
    have hmem : release ∈ s.releases := by
      rw [hqueue]
      exact List.mem_cons_self
    have hshorter : ∀ k, Journaled k s → k ∉ queue := by
      intro k hk hin
      refine hk.2 ?_
      rw [hqueue]
      exact List.mem_cons_of_mem _ hin
    dsimp only
    split
    · refine hinv.move rfl trivial (fun x _ hx => ?_) (by rintro k ⟨⟩) (by rintro ⟨⟩)
      exact hx.of_kept (fun k _ hk => hk) fun k _ hk => ⟨hk.1, hshorter k hk⟩
    · rename_i value hvalue
      have hvalue : s.find .releasePending release = some value := hvalue
      have hkept : ∀ k, Journaled k s →
          ((s.remove .releasePending release).find .releasePending k).isSome := by
        intro k hk
        have hne : k ≠ release := fun heq => hk.2 (heq ▸ hmem)
        rw [Maps.find_remove, if_neg hne]
        exact hk.1
      -- the entry in the queue is beside that of a removal under way
      have hpos : 1 ≤ s.activeFlows := by
        have hbalance := hinv.balance
        have hsize := Maps.size_remove_of_some hvalue
        rw [excess, weight_cons, show load (.drawn key) = 0 from rfl] at hbalance
        rcases hinv.weight_rest with hrest | ⟨hrest, k, hk⟩
        · omega
        · have := size_pos (hkept k hk)
          omega
      refine hinv.move ?_ trivial (fun x _ hx => ?_) (by rintro k ⟨⟩) (by rintro ⟨⟩)
      · have hclaimed := excess_removePending (s := { s with releases := queue }) hvalue
        rw [excess_releaseFlowSlot (s := ({ s with releases := queue } : Maps).remove .releasePending
          release) hpos, hclaimed, Int.add_sub_cancel]
        rfl
      · exact hx.of_kept (fun k _ hk => hk) fun k _ hk => ⟨hkept k hk, hshorter k hk⟩

theorem Inv.reserve {resp : Bool} (hinv : Inv s ((job, .drawn key) ::ₘ rest))
    (hexec : s.reserveFlowSlot = (resp, s')) :
    Inv s' ((job, if resp then .reserved key else .drawn key) ::ₘ rest) := by
  rw [Maps.reserveFlowSlot] at hexec
  split at hexec
  · cases hexec
    exact hinv.consume
  · cases hexec
    refine hinv.consume.move ?_ trivial (fun x _ hx => hx) (by rintro k ⟨⟩) (by rintro ⟨⟩)
    show ((s.consumeRelease.activeFlows + 1 : Nat) : Int) - s.consumeRelease.size .flowState -
      s.consumeRelease.size .releasePending - 1 = excess s.consumeRelease - 0
    rw [excess]
    omega

/-! ### Every transition -/

/-- **Every `Conserving` transition of `Step` keeps `Inv`.** -/
theorem Inv.step {op : Op} {resp : Resp op} {c : Choice} {thread : Nat}
    (hstep : Step true job.isHost φ op resp φ') (hinv : Inv s ((job, φ) ::ₘ rest))
    (hexec : exec c op s = some (resp, s')) (hperm : Conserving ⟨thread, job, c, op, resp, s⟩) :
    Inv s' ((job, φ') ::ₘ rest) := by
  have hself := hinv.facts _ (mem_cons_self _ _)
  have hrole : φ'.isOwn = true → job.isHost = true := fun hown =>
    (hstep.host_of_isOwn hown).elim (hinv.roles.host _ (mem_cons_self _ _)) id
  cases hstep with
  | idle h hφ =>
    have hsteady := Steady.of_unchanged (Concurrent.unchanged_of_idle h hexec)
    cases hφ with
    | stay => exact hinv.steady hsteady rfl (.inl rfl) hrole
    | leak _ hsplit => cases hsplit
    | vacate => exact hinv.steady hsteady rfl (.inr ⟨trivial, rfl⟩) hrole
  | learn h hφ =>
    have hsteady := Steady.of_unchanged (h.unchanged hexec)
    cases hφ <;> exact hinv.steady hsteady rfl (.inr ⟨trivial, rfl⟩) hrole
  | store => exact hinv.steady (.of_stateStore hexec) rfl (.inl rfl) hrole
  | unindex =>
    exact hinv.steady (.of_unchanged (Concurrent.unchanged_of_unindex hexec)) rfl (.inl rfl) hrole
  | configure | index =>
    exact hinv.steady (.of_exec hexec (fun _ => by rintro ⟨⟩) (fun _ => by rintro ⟨⟩) rfl
      (by rintro ⟨⟩) fun _ => by rintro ⟨⟩) rfl (.inl rfl) hrole
  | draw =>
    exact hinv.steady (.of_exec hexec (fun _ => by rintro ⟨⟩) (fun _ => by rintro ⟨⟩) rfl
      (by rintro ⟨⟩) fun _ => by rintro ⟨⟩) rfl (.inr ⟨trivial, rfl⟩) hrole
  | pop _ _ _ h | lose _ _ _ h | claim _ _ _ h | back _ _ h | take _ _ _ h | untake h => cases h
  | reserve key done => exact hinv.reserve (Option.some.inj hexec)
  | release =>
    have hpos := hinv.pos_of_load rfl
    cases hexec
    refine hinv.move ?_ trivial (fun _ _ hx => hx) (by rintro k ⟨⟩) hrole
    rw [excess_releaseFlowSlot hpos]
    exact Int.sub_zero _
  | insert candidate hcreating =>
    rcases exec_update hexec with ⟨hresp, -⟩ | ⟨-, rfl, hfree⟩
    · cases hresp
    · have hnone : s.find .flowState (keyOf candidate) = none := Alone.free_of_noexist hfree
      have hothers : ∀ x ∈ rest, creates? x.2 ≠ some (keyOf candidate) := by
        intro x hx heq
        obtain ⟨record, hrecord, -⟩ := (hinv.facts x (mem_cons_of_mem hx)).creating heq
        rw [hnone] at hrecord
        cases hrecord
      refine hinv.move ?_ ⟨candidate, Maps.find_put_self _ _ _ _, hcreating⟩
        (fun x hx h => h.put (hothers x hx)) (fun k hk => .inr ?_) hrole
      · rw [excess_putState hnone]
        exact Int.sub_zero _
      · cases hk
        exact hothers
  | activate candidate =>
    obtain ⟨record, hrecord, -⟩ := hself
    rcases exec_update hexec with ⟨hresp, -⟩ | ⟨-, rfl, -⟩
    · cases hresp
    · refine hinv.move ?_ trivial (fun x hx h => h.put (hinv.not_creates rfl x hx)) (by rintro k ⟨⟩) hrole
      rw [excess_replaceState hrecord]
      rfl
  | takeBack candidate done =>
    obtain ⟨record, hrecord, -⟩ := hself
    rcases exec_delete hexec with ⟨-, -, hnone⟩ | ⟨-, rfl, -⟩
    · rw [hrecord] at hnone
      cases hnone
    · refine hinv.move ?_ trivial (fun x hx h => h.remove (hinv.not_creates rfl x hx)) (by rintro k ⟨⟩)
        hrole
      show excess (s.remove .flowState (keyOf candidate)) - 1 = excess s - 0
      rw [excess_removeState hrecord]
      omega
  | journal hhost key =>
    obtain ⟨hnew, hunqueued⟩ : s.find .releasePending key = none ∧ key ∉ s.releases := hperm
    rcases exec_hostInsert hexec with ⟨_, hresp, -⟩ | ⟨-, rfl, -⟩
    · cases hresp
    · refine hinv.move ?_ ⟨?_, hunqueued⟩ (fun x hx h => h.of_kept (fun k _ hk => ?_) fun k heq =>
        absurd heq (hinv.not_journaled hhost hx k)) (by rintro k ⟨⟩) hrole
      · show excess (s.put .releasePending key flowReleasePending) - -1 = excess s - 0
        rw [excess_putPending hnew]
        omega
      · rw [Maps.find_put_self]
        rfl
      · rw [Creating, Maps.find_put_of_ne _ _ _ (by decide)]
        exact hk
  | remove hhost key =>
    have hsettled : ¬ Creating key s := hperm
    rcases exec_hostRemove hexec with ⟨_, hresp, -⟩ | ⟨-, rfl, hsome⟩
    · cases hresp
    · obtain ⟨record, hrecord⟩ := Option.isSome_iff_exists.mp hsome
      refine hinv.move ?_ trivial (fun x hx h => h.remove fun heq => hsettled (h.creating heq))
        (by rintro k ⟨⟩) hrole
      show excess (s.remove .flowState key) - 0 = excess s - -1
      rw [excess_removeState hrecord]
      omega
  | withdraw hhost key result =>
    have hfault : c.fault = false := hperm
    obtain ⟨hsome, -⟩ : Journaled key s := hself
    obtain ⟨value, hvalue⟩ := Option.isSome_iff_exists.mp hsome
    simp only [exec, hostCall, hfault, Bool.false_eq_true, if_false, hsome, if_true] at hexec
    cases hexec
    refine hinv.move ?_ trivial (fun x hx h => h.of_kept (fun k _ hk => ?_) fun k heq =>
      absurd heq (hinv.not_journaled hhost hx k)) (by rintro k ⟨⟩) hrole
    · show excess (s.remove .releasePending key) - 0 = excess s - -1
      rw [excess_removePending hvalue]
      omega
    · rw [Creating, Maps.find_remove_of_ne _ _ (by decide)]
      exact hk
  | push hhost key result =>
    simp only [exec, hostCall] at hexec
    split at hexec <;> cases hexec
    · exact hinv
    · exact hinv.move rfl trivial (fun x hx h => h.of_kept (fun k _ hk => hk) fun k heq =>
        absurd heq (hinv.not_journaled hhost hx k)) (by rintro k ⟨⟩) hrole

end Steps

/-! ## Every interleaving -/

theorem outline_valid {s₀ : Maps} (h : Balanced s₀) : outline.Valid (system Slots.atomic) s₀ := by
  have hkept : outline.Kept machine fun job => Step true job.isHost :=
    fun _ _ _ _ _ _ _ _ _ _ _ hstep hinv hexec hperm => Inv.step hstep hinv hexec hperm
  refine hkept.valid rfl ⟨balanced_iff.mp h, fun x hx => absurd hx (Multiset.notMem_zero x),
    fun key => Nat.zero_le 1, roles_zero⟩ (fun _ => .calm)
    (fun _ job => Concurrent.follows_code true job) ?_ ?_
    fun _ _ _ _ _ _ => trivial
  · intro job s history running threads hinv hadmits hrunning
    refine ⟨?_, fun x hx => ?_, fun key => ?_, ?_⟩
    · rw [weight_cons, show load .calm = 0 from rfl, Int.zero_add]
      exact hinv.balance
    · rcases mem_cons.mp hx with rfl | hx
      · trivial
      · exact hinv.facts x hx
    · rw [countP_cons, if_neg (by rintro ⟨⟩)]
      exact hinv.single key
    · exact hinv.roles.spawn rfl fun hhost => not_host_of_admits hadmits hrunning hhost
  · intro thread job φ value s history rest hends hinv
    refine ⟨⟨?_, fun x hx => hinv.facts x (mem_cons_of_mem hx), fun key => ?_,
      hinv.roles.retire⟩, trivial⟩
    · have hbalance := hinv.balance
      rw [weight_cons, load_of_isLast hends.1, Int.zero_add] at hbalance
      exact hbalance
    · exact le_trans (Multiset.countP_le_of_le _ (Multiset.le_cons_self _ _)) (hinv.single key)

/-- **Slots are conserved.** In every interleaving of classifier runs and host calls whose steps keep the
balance, whenever no run is in progress the active flows are the records and the journal entries
together. -/
theorem slots_conserved {s₀ : Maps} {w : SystemWorld} (h : Balanced s₀)
    (hreach : (system Slots.atomic).Reachable (World.start s₀) w)
    (hconserving : ∀ e ∈ w.history, Conserving e) (hquiet : w.quiet = true) : Balanced w.shared :=
  balanced_iff.mpr ((outline_valid h).inv_of_quiet hreach hconserving hquiet).balance

/-- A packet that creates the sample flow, then the deletion of the flow. -/
def sampleSchedule : List (Action Job Choice) :=
  .spawn (.packet sampleFrame true) :: List.replicate 26 (.step 0 {}) ++
    .spawn (.delete sampleFlow.flowId 1 0 100) :: List.replicate 22 (.step 1 {})

theorem slots_conserved_sample :
    ∃ w : SystemWorld, (system Slots.atomic).Reachable (World.start (Maps.initial sampleConfig)) w ∧
      w.shared.size .releasePending = 1 ∧ Balanced w.shared := by
  have hrun : ((system Slots.atomic).run (World.start (Maps.initial sampleConfig)) sampleSchedule).any
      (fun w => w.quiet && w.shared.size .releasePending = 1 &&
        w.history.all fun e => Conserving e) = true := by
    decide +kernel
  obtain ⟨w, hreach, hcheck⟩ := Pool.exists_reachable_of_run hrun
  simp only [Bool.and_eq_true, decide_eq_true_eq, List.all_eq_true] at hcheck
  obtain ⟨⟨hquiet, hpending⟩, hconserving⟩ := hcheck
  have hstart : Balanced (Maps.initial sampleConfig) := rfl
  exact ⟨w, hreach, hpending, slots_conserved hstart hreach hconserving hquiet⟩

/-- A deletion while the packet is between the insert and the activation of its record. -/
def earlySchedule : List (Action Job Choice) :=
  .spawn (.packet sampleFrame true) :: List.replicate 9 (.step 0 {}) ++
    .spawn (.delete sampleFlow.flowId 1 0 100) :: List.replicate 19 (.step 1 {}) ++
    List.replicate 17 (.step 0 {})

/-- **A slot is released twice.** The deletion removes a record that is being created and journals its
release; the creator cannot activate the record any more and releases the slot as well. -/
theorem slot_released_twice :
    ∃ w : SystemWorld, (system Slots.atomic).Reachable (World.start (Maps.initial sampleConfig)) w ∧
      w.quiet = true ∧ w.shared.activeFlows = 0 ∧ w.shared.size .releasePending = 1 ∧
      ¬ Balanced w.shared := by
  have hrun : ((system Slots.atomic).run (World.start (Maps.initial sampleConfig)) earlySchedule).any
      (fun w => w.quiet && w.shared.activeFlows = 0 && w.shared.size .releasePending = 1) = true := by
    decide +kernel
  obtain ⟨w, hreach, hcheck⟩ := Pool.exists_reachable_of_run hrun
  simp only [Bool.and_eq_true, decide_eq_true_eq] at hcheck
  obtain ⟨⟨hquiet, hactive⟩, hpending⟩ := hcheck
  refine ⟨w, hreach, hquiet, hactive, hpending, fun hbalanced => ?_⟩
  rw [Balanced, hactive, hpending] at hbalanced
  omega

end ShadowSocketProxy.Conservation
