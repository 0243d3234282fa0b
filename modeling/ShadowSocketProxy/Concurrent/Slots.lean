import ShadowSocketProxy.Concurrent.Records
import Mathlib.Algebra.Order.BigOperators.Group.Multiset
import Mathlib.Algebra.Order.Group.Nat
import Mathlib.Data.Finset.Card

/-! # The capacity under interleaving

The slot routines operation by operation, as the classifiers execute them: the count is incremented
first and compared with the capacity afterwards, releases are claimed one at a time, and an attempt to
give a slot back may fail for good. Every flow that has a record or a release in the journal is
counted, and so is every slot in the hands of a thread. Failed attempts only leave the count too high.
So the records never exceed the capacity, whatever the order of the steps. -/

namespace ShadowSocketProxy.Concurrent

open Interleaving Bpf ControlService
open Alone (keyOf)

/-! ## Who holds a slot -/

/-- The flows that hold a slot: those with a record, and those whose release is in the journal. -/
def holders (s : Maps) : Finset FlowStateKey :=
  (s.tables .flowState).list.keys.toFinset ∪ (s.tables .releasePending).list.keys.toFinset

section Holders

variable {s s' : Maps} {key : FlowStateKey}

theorem mem_holders_iff :
    key ∈ holders s ↔ stage s key ≠ none ∨ (s.find .releasePending key).isSome := by
  have hkeys : ∀ (m : MapId) (k : m.Key), k ∈ (s.tables m).list.keys ↔ (s.find m k).isSome := by
    intro m k
    rw [Table.mem_keys_iff, Option.isSome_iff_exists]
    rfl
  rw [holders, Finset.mem_union, List.mem_toFinset, List.mem_toFinset, hkeys .flowState,
    hkeys .releasePending, ne_eq, stage_eq_none_iff, ← ne_eq, Option.ne_none_iff_isSome]

theorem size_le_card_holders : s.size .flowState ≤ (holders s).card := by
  have hkeys : (s.tables .flowState).list.keys.toFinset.card = s.size .flowState :=
    List.toFinset_card_of_nodup (s.tables .flowState).list.keys_nodup
  rw [← hkeys]
  exact Finset.card_le_card Finset.subset_union_left

/-- A flow whose record and journal entry are both gone leaves the `holders`. -/
theorem card_holders_of_gone (hbefore : key ∈ holders s) (hafter : key ∉ holders s')
    (hothers : ∀ k ∈ holders s', k ∈ holders s) : (holders s').card + 1 ≤ (holders s).card := by
  rw [← Finset.card_insert_of_notMem hafter]
  refine Finset.card_le_card fun k hk => ?_
  rcases Finset.mem_insert.mp hk with rfl | hk
  · exact hbefore
  · exact hothers k hk

end Holders

/-! ## The invariant -/

namespace Phase

/-- The slots in the hands of a thread. -/
def weight : Phase → Nat
  | .refunding _ _ | .overdrawn | .reserved _ | .vacating => 1
  | _ => 0

/-- The slots in the hands of a thread that may become records. -/
def reserves : Phase → Nat
  | .reserved _ => 1
  | _ => 0

/-- The configuration a reservation goes by. -/
def prices? : Phase → Option (Option RuntimeConfigValue)
  | .reserving _ config | .claiming _ config _ | .refunding _ config => some config
  | _ => none

theorem reserves_le_weight (φ : Phase) : φ.reserves ≤ φ.weight := by
  cases φ <;> first | exact le_rfl | exact Nat.zero_le 1

end Phase

/-- A configuration that bounds the flows. -/
def Bounding (capacity : Nat) (config : RuntimeConfigValue) : Prop :=
  config.activeFlowCapacity ≠ 0 ∧ config.activeFlowCapacity.toNat ≤ capacity

instance (capacity : Nat) (config : RuntimeConfigValue) : Decidable (Bounding capacity config) :=
  inferInstanceAs (Decidable (_ ∧ _))

/-- The configuration an operation writes. -/
def writesConfig : Op → Option (List UInt8)
  | .hostSetConfig value => some value
  | _ => none

/-- The host writes no configuration that is not `Bounding`. -/
def Bounds (capacity : Nat) (e : SystemEvent) : Prop :=
  ∀ value ∈ writesConfig e.op, Bounding capacity (RuntimeConfigValue.unpack value)

instance (capacity : Nat) (e : SystemEvent) : Decidable (Bounds capacity e) := by
  unfold Bounds
  infer_instance

/-- The slots in the hands of all threads, by one of the two measures. -/
def total (measure : Phase → Nat) (running : Multiset (Job × Phase)) : Nat :=
  (running.map fun x => measure x.2).sum

theorem total_cons (measure : Phase → Nat) (job : Job) (φ : Phase) (running : Multiset (Job × Phase)) :
    total measure ((job, φ) ::ₘ running) = measure φ + total measure running := by
  rw [total, Multiset.map_cons, Multiset.sum_cons]
  rfl

/-- Whoever holds a slot is counted, and what may become a record fits the capacity. -/
structure Reservations (capacity : Nat) (s : Maps) (running : Multiset (Job × Phase)) : Prop where
  counted : (holders s).card + total Phase.weight running ≤ s.activeFlows
  bounded : (holders s).card + total Phase.reserves running ≤ capacity
  config : Bounding capacity s.runtimeConfig
  priced : ∀ x ∈ running, ∀ config, x.2.prices? = some config →
    ∃ value, config = some value ∧ Bounding capacity value

/-! ## Steps -/

/-- A step in balance: what becomes a holder or comes into the hands of the thread is counted, and was
reserved before. -/
structure Balanced (s s' : Maps) (φ φ' : Phase) : Prop where
  counted : (holders s').card + φ'.weight + s.activeFlows ≤ (holders s).card + φ.weight + s'.activeFlows
  bounded : (holders s').card + φ'.reserves ≤ (holders s).card + φ.reserves

section Steps

variable {capacity : Nat} {s s' : Maps} {history : List SystemEvent} {job : Job} {φ φ' : Phase}
  {rest : Multiset (Job × Phase)} {op : Op} {resp : Resp op} {c : Choice} {e : SystemEvent}
  {host : Bool} {key : FlowStateKey}

/-- `Balanced` where nothing becomes a holder. -/
theorem Balanced.shrink (hsub : ∀ key ∈ holders s', key ∈ holders s)
    (hactive : s'.activeFlows = s.activeFlows) (hweight : φ'.weight ≤ φ.weight)
    (hreserves : φ'.reserves ≤ φ.reserves) : Balanced s s' φ φ' := by
  have hcard : (holders s').card ≤ (holders s).card := Finset.card_le_card hsub
  exact ⟨by omega, by omega⟩

/-- `Balanced` where neither the records, nor the journal, nor the count change. -/
theorem Balanced.same (hstate : s'.tables .flowState = s.tables .flowState)
    (hpending : s'.tables .releasePending = s.tables .releasePending)
    (hactive : s'.activeFlows = s.activeFlows) (hweight : φ'.weight ≤ φ.weight)
    (hreserves : φ'.reserves ≤ φ.reserves) : Balanced s s' φ φ' := by
  refine .shrink (fun key hkey => ?_) hactive hweight hreserves
  rwa [holders, hstate, hpending] at hkey

/-- `Balanced` where a slot in the hands of a thread is given back. -/
theorem Balanced.giveBack (hholders : holders s' = holders s)
    (hactive : s'.activeFlows = s.activeFlows - 1) (hpos : φ.weight ≤ s.activeFlows)
    (hweight : φ'.weight + 1 = φ.weight) (hreserves : φ'.reserves ≤ φ.reserves) :
    Balanced s s' φ φ' := by
  have hcard : (holders s').card = (holders s).card := by rw [hholders]
  exact ⟨by omega, by omega⟩

theorem Gives.weight (h : Gives φ φ') : φ'.weight + 1 = φ.weight ∧ φ'.reserves ≤ φ.reserves := by
  cases h <;> exact ⟨rfl, le_rfl⟩

theorem Rests.weight (h : Rests false φ φ') : φ'.weight ≤ φ.weight ∧ φ'.reserves ≤ φ.reserves := by
  cases h with
  | leak h => exact ⟨Nat.le_of_succ_le h.weight.1.le, h.weight.2⟩
  | vacate => exact ⟨le_rfl, Nat.zero_le 1⟩
  | _ => exact ⟨le_rfl, le_rfl⟩

theorem Learns.weight (h : Learns host φ op resp φ') : φ'.weight = 0 ∧ φ'.reserves = 0 := by
  cases h <;> exact ⟨rfl, rfl⟩

/-- A record that is written adds at most its own key to the `holders`. -/
theorem mem_holders_of_putState {record : FlowStateValue} {k : FlowStateKey}
    (h : k ∈ holders (s.put .flowState key record)) : k = key ∨ k ∈ holders s := by
  rw [mem_holders_iff, stage_put, Function.update_apply, Maps.find_put_of_ne _ _ _ (by decide)] at h
  split at h
  · rename_i hk
    exact .inl hk
  · exact .inr (mem_holders_iff.mpr h)

theorem mem_holders_of_removeState {k : FlowStateKey} (h : k ∈ holders (s.remove .flowState key)) :
    k ∈ holders s := by
  rw [mem_holders_iff, stage_remove, Function.update_apply, Maps.find_remove_of_ne _ _ (by decide)] at h
  rw [mem_holders_iff]
  split at h
  · exact .inr (h.resolve_left fun h => h rfl)
  · exact h

theorem mem_holders_of_removePending {k : FlowStateKey}
    (h : k ∈ holders (s.remove .releasePending key)) : k ∈ holders s := by
  rw [mem_holders_iff, stage_remove_of_ne (by decide), Maps.find_remove] at h
  rw [mem_holders_iff]
  split at h
  · exact .inl (h.resolve_right (by simp))
  · exact h

/-- **Every `Step` but a reservation is `Balanced`.** -/
theorem Step.balanced (hstep : Step false host φ op resp φ') (hexec : exec c op s = some (resp, s'))
    (hcustody : Custody s history ((job, φ) ::ₘ rest)) (hpos : φ.weight ≤ s.activeFlows) :
    Balanced s s' φ φ' ∨ ∃ key config, φ = .reserving key config ∧ holders s' = holders s ∧
      s'.activeFlows = s.activeFlows + 1 ∧
      φ' = if capacityReached config s.activeFlows then .overdrawn else .reserved key := by
  have hclaims := hcustody.claims _ (Multiset.mem_cons_self _ _)
  cases hstep with
  | idle h hφ =>
    have hsame := unchanged_of_idle h hexec
    exact .inl (.same hsame.records hsame.journal hsame.activeFlows hφ.weight.1 hφ.weight.2)
  | learn h hφ =>
    have hsame := h.unchanged hexec
    exact .inl (.same hsame.records hsame.journal hsame.activeFlows (hφ.weight.1 ▸ Nat.zero_le _)
      (hφ.weight.2 ▸ Nat.zero_le _))
  | store key write =>
    simp only [exec] at hexec
    split at hexec
    · rename_i record hrecord
      cases hexec
      refine .inl (.shrink (fun k hk => ?_) rfl le_rfl le_rfl)
      rcases mem_holders_of_putState hk with rfl | hk
      · exact mem_holders_iff.mpr (.inl (by rw [stage_of_find hrecord]; rintro ⟨⟩))
      · exact hk
    · cases hexec
      exact .inl (.same rfl rfl rfl le_rfl le_rfl)
  | lose =>
    rcases exec_delete hexec with ⟨-, rfl, -⟩ | ⟨hresp, -⟩
    · exact .inl (.same rfl rfl rfl le_rfl le_rfl)
    · cases hresp
  | claim key config release =>
    rcases exec_delete hexec with ⟨hresp, -⟩ | ⟨-, rfl, hsome⟩
    · cases hresp
    · -- the record is gone, so its release is the last that holds the slot
      have hless : (holders (s.remove .releasePending release)).card + 1 ≤ (holders s).card := by
        refine card_holders_of_gone (mem_holders_iff.mpr (.inr hsome)) (fun hmem => ?_)
          fun k => mem_holders_of_removePending
        rw [mem_holders_iff, stage_remove_of_ne (by decide),
          (hclaims release none rfl).1, Maps.find_remove_self] at hmem
        simp at hmem
      exact .inl ⟨Nat.add_le_add_right hless _, Nat.le_of_succ_le hless⟩
  | back hgives current =>
    simp only [exec] at hexec
    split at hexec <;> cases hexec
    rename_i hcurrent
    exact .inl (.giveBack rfl (by rw [hcurrent]) hpos hgives.weight.1 hgives.weight.2)
  | take key config previous =>
    cases hexec
    exact .inr ⟨key, config, rfl, rfl, rfl, rfl⟩
  | untake =>
    cases hexec
    exact .inl (.giveBack rfl rfl hpos rfl le_rfl)
  | insert candidate hcreating =>
    rcases exec_update hexec with ⟨hresp, -⟩ | ⟨-, rfl, -⟩
    · cases hresp
    · have hgrow : (holders (s.put .flowState (keyOf candidate) candidate)).card ≤
          (holders s).card + 1 := by
        refine (Finset.card_le_card fun k hk => ?_).trans (Finset.card_insert_le (keyOf candidate) _)
        exact Finset.mem_insert.mpr (mem_holders_of_putState hk)
      exact .inl ⟨Nat.add_le_add_right hgrow _, hgrow⟩
  | activate candidate =>
    rcases exec_update hexec with ⟨hresp, -⟩ | ⟨-, rfl, -⟩
    · cases hresp
    · refine .inl (.shrink (fun k hk => ?_) rfl le_rfl le_rfl)
      rcases mem_holders_of_putState hk with rfl | hk
      · exact mem_holders_iff.mpr (.inl (by rw [(hclaims _ _ rfl).1]; rintro ⟨⟩))
      · exact hk
  | takeBack candidate done =>
    have hstage := (hclaims (keyOf candidate) _ rfl).1
    rcases exec_delete hexec with ⟨-, -, hnone⟩ | ⟨-, rfl, hsome⟩
    · rw [stage_eq_none_iff.mpr hnone] at hstage
      cases hstage
    · -- no release of a flow is in the journal while it is being created
      have hpending : s.find .releasePending (keyOf candidate) = none := by
        rw [← Option.not_isSome_iff_eq_none]
        exact fun h => (hcustody.pending _ h).2 hstage
      have hless : (holders (s.remove .flowState (keyOf candidate))).card + 1 ≤ (holders s).card := by
        refine card_holders_of_gone (mem_holders_iff.mpr (.inl (by rw [hstage]; rintro ⟨⟩)))
          (fun hmem => ?_) fun k => mem_holders_of_removeState
        rw [mem_holders_iff, stage_remove, Function.update_self,
          Maps.find_remove_of_ne _ _ (by decide), hpending] at hmem
        simp at hmem
      exact .inl ⟨Nat.add_le_add_right hless _, Nat.le_of_succ_le hless⟩
  | journal hhost key =>
    rcases exec_hostInsert hexec with ⟨_, hresp, -⟩ | ⟨-, rfl, -⟩
    · cases hresp
    · refine .inl (.shrink (fun k hk => ?_) rfl le_rfl le_rfl)
      rw [mem_holders_iff, stage_put_of_ne (by decide), Maps.find_put] at hk
      rw [mem_holders_iff]
      split at hk
      · rename_i heq
        rw [heq, (hclaims key _ rfl).1]
        exact .inl (by rintro ⟨⟩)
      · exact hk
  | remove hhost key =>
    rcases exec_hostRemove hexec with ⟨_, hresp, -⟩ | ⟨-, rfl, -⟩
    · cases hresp
    · exact .inl (.shrink (fun k => mem_holders_of_removeState) rfl le_rfl le_rfl)
  | withdraw hhost key result =>
    rcases exec_hostRemove hexec with ⟨_, -, rfl⟩ | ⟨-, rfl, -⟩
    · exact .inl (.same rfl rfl rfl le_rfl le_rfl)
    · exact .inl (.shrink (fun k => mem_holders_of_removePending) rfl le_rfl le_rfl)
  | reserve _ _ hatomic | release hatomic => cases hatomic
  | _ =>
    exact .inl (.same (exec_tables hexec fun k => by rintro ⟨⟩)
      (exec_tables hexec fun k => by rintro ⟨⟩) (exec_activeFlows hexec rfl) le_rfl le_rfl)

/-- A reservation `prices?` by the configuration it has read. -/
theorem Step.prices_of_prices (hstep : Step false host φ op resp φ')
    (hexec : exec c op s = some (resp, s')) {config : Option RuntimeConfigValue}
    (h : φ'.prices? = some config) : φ.prices? = some config ∨ config = some s.runtimeConfig := by
  cases hstep with
  | idle _ hφ =>
    cases hφ with
    | stay => exact .inl h
    | leak hgives => cases hgives with
      | refunding => exact .inl h
      | vacating => cases h
    | vacate => cases h
  | learn _ hφ =>
    cases hφ with
    | price key config' =>
      cases h
      cases hexec
      exact .inr rfl
    | _ => cases h
  | store | configure | pop | lose | claim => exact .inl h
  | take | reserve => split at h <;> cases h
  | back hgives => cases hgives with
    | refunding => exact .inl h
    | vacating => cases h
  | _ => cases h

/-- The configuration stays `Bounding`: it is the one before, or one the host has written. -/
theorem bounding_step (hexec : exec e.choice e.op e.before = some (e.resp, s'))
    (hbounds : Bounds capacity e) (hold : Bounding capacity e.before.runtimeConfig) :
    Bounding capacity s'.runtimeConfig := by
  obtain ⟨thread, job, c, op, resp, s⟩ := e
  by_cases hop : ∃ value, op = .hostSetConfig value
  · obtain ⟨value, rfl⟩ := hop
    simp only [exec, hostCall] at hexec
    split at hexec <;> cases hexec
    · exact hold
    · exact hbounds value rfl
  · rw [exec_runtimeConfig hexec fun value heq => hop ⟨value, heq⟩]
    exact hold

/-- Every step keeps `Reservations`: a counted slot becomes a record only below the capacity. -/
theorem reservations_step (hstep : Moves e.job φ e.op e.resp φ')
    (hcustody : Custody e.before history ((e.job, φ) ::ₘ rest))
    (hinv : Reservations capacity e.before ((e.job, φ) ::ₘ rest))
    (hexec : exec e.choice e.op e.before = some (e.resp, s')) (hbounds : Bounds capacity e) :
    Reservations capacity s' ((e.job, φ') ::ₘ rest) := by
  have hself : (e.job, φ) ∈ (e.job, φ) ::ₘ rest := Multiset.mem_cons_self _ _
  have hcounted := hinv.counted
  have hbounded := hinv.bounded
  have hle : total Phase.reserves rest ≤ total Phase.weight rest :=
    Multiset.sum_map_le_sum_map _ _ fun x _ => x.2.reserves_le_weight
  rw [total_cons] at hcounted hbounded
  have hbalance : (holders s').card + total Phase.weight ((e.job, φ') ::ₘ rest) ≤ s'.activeFlows ∧
      (holders s').card + total Phase.reserves ((e.job, φ') ::ₘ rest) ≤ capacity := by
    rw [total_cons, total_cons]
    rcases hstep.balanced hexec hcustody (by omega) with
      hbalanced | ⟨key, config, rfl, hholders, hactive, rfl⟩
    · have := hbalanced.counted
      have := hbalanced.bounded
      exact ⟨by omega, by omega⟩
    · -- a reservation: the count before it bounds the holders and all that is reserved
      obtain ⟨value, rfl, hne, hcapacity⟩ := hinv.priced _ hself config rfl
      rw [hholders, hactive]
      simp only [Phase.weight, Phase.reserves] at hcounted hbounded
      split
      · simp only [Phase.weight, Phase.reserves]
        omega
      · rename_i hbelow
        simp only [capacityReached, Bool.and_eq_true, decide_eq_true_eq, not_and, not_le] at hbelow
        have hlt := hbelow hne
        simp only [Phase.weight, Phase.reserves]
        omega
  refine ⟨hbalance.1, hbalance.2, bounding_step hexec hbounds hinv.config, fun x hx config hconfig => ?_⟩
  rcases Multiset.mem_cons.mp hx with rfl | hx
  · rcases hstep.prices_of_prices hexec hconfig with hold | rfl
    · exact hinv.priced _ hself config hold
    · exact ⟨_, rfl, hinv.config⟩
  · exact hinv.priced x (Multiset.mem_cons_of_mem hx) config hconfig

end Steps

theorem reservations_upheld {capacity : Nat} {config : RuntimeConfigValue}
    (hconfig : Bounding capacity config) :
    Upheld config (Bounds capacity) fun s _ running => Reservations capacity s running where
  start := ⟨Nat.zero_le _, Nat.zero_le _, hconfig, fun x hx => absurd hx (Multiset.notMem_zero x)⟩
  step hstep hcustody hinv hexec _ hbounds := reservations_step hstep hcustody hinv hexec hbounds
  spawn hinv := by
    refine ⟨?_, ?_, hinv.config, fun x hx => ?_⟩
    · simpa [total_cons, Phase.weight] using hinv.counted
    · simpa [total_cons, Phase.reserves] using hinv.bounded
    · rcases Multiset.mem_cons.mp hx with rfl | hx
      · rintro config ⟨⟩
      · exact hinv.priced x hx
  retire _ hinv := by
    have hcounted := hinv.counted
    have hbounded := hinv.bounded
    rw [total_cons] at hcounted hbounded
    exact ⟨by omega, by omega, hinv.config, fun x hx => hinv.priced x (Multiset.mem_cons_of_mem hx)⟩

/-- **The records never exceed the capacity**, and every one of them is counted: in every interleaving
of classifiers and calls of the host, with slots reserved and given back operation by operation,
failing map operations and lost attempts to give a slot back included. -/
theorem capacity_respected {capacity : Nat} {config : RuntimeConfigValue} {w : SystemWorld}
    (hreach : (system Slots.split).Reachable (World.start (Maps.initial config)) w)
    (hconfig : Bounding capacity config) (hbounds : ∀ e ∈ w.history, Bounds capacity e)
    (hnumbered : ∀ e ∈ w.history, Numbered e) (hinformed : Informed w.history) :
    w.shared.size .flowState ≤ capacity ∧ w.shared.size .flowState ≤ w.shared.activeFlows := by
  obtain ⟨running, -, hinv⟩ := (reservations_upheld hconfig).inv hreach hnumbered hinformed hbounds
  have hsize := size_le_card_holders (s := w.shared)
  have hcounted := hinv.counted
  have hbounded := hinv.bounded
  exact ⟨by omega, by omega⟩

/-- Two clients at a capacity of one flow, their packets in lockstep. -/
def lockstepSchedule : List (Action Job Choice) :=
  [.spawn (.packet sampleFrame true), .spawn (.packet sampleRival true)] ++
    (List.replicate 15 [(.step 0 {} : Action Job Choice), .step 1 {}]).flatten

theorem capacity_respected_lockstep :
    ∃ w : SystemWorld, (system Slots.split).Reachable
        (World.start (Maps.initial { sampleConfig with activeFlowCapacity := 1 })) w ∧
      (w.returned 1).isSome = true ∧ w.shared.size .flowState = 1 ∧ w.shared.activeFlows = 1 ∧
      (w.shared.size .flowState ≤ 1 ∧ w.shared.size .flowState ≤ w.shared.activeFlows) := by
  have hrun : ((system Slots.split).run
      (World.start (Maps.initial { sampleConfig with activeFlowCapacity := 1 })) lockstepSchedule).any
      (fun w => (w.returned 1).isSome && w.shared.size .flowState = 1 && w.shared.activeFlows = 1 &&
        (w.history.all fun e => Bounds 1 e && Numbered e) && Informed w.history) = true := by
    decide +kernel
  obtain ⟨w, hreach, hcheck⟩ := Pool.exists_reachable_of_run hrun
  simp only [Bool.and_eq_true, decide_eq_true_eq, List.all_eq_true] at hcheck
  obtain ⟨⟨⟨⟨hreturned, hsize⟩, hactive⟩, hhistory⟩, hinformed⟩ := hcheck
  exact ⟨w, hreach, hreturned, hsize, hactive, capacity_respected hreach (by decide)
    (fun e he => (hhistory e he).1) (fun e he => (hhistory e he).2) hinformed⟩

end ShadowSocketProxy.Concurrent
