import ShadowSocketProxy.Concurrent.Identities
import ShadowSocketProxy.Flows.Table

/-! # Records and their owners

Who may touch the record of a flow: its creator while it is being created, and afterwards the one
deletion that has read it. Whatever is queued for release or being cleaned up belongs to a flow that was
created and whose record does not come back. -/

namespace ShadowSocketProxy.Concurrent

open Interleaving Bpf ControlService
open Alone (keyOf ownerOf tuplesOf activated)
open Multiset (countP_cons mem_cons mem_cons_of_mem mem_cons_self)

/-! ## Stages -/

/-- The lifecycle of the record of a flow. -/
def stage (s : Maps) (key : FlowStateKey) : Option UInt8 :=
  (s.find .flowState key).map fun record => record.lifecycle

section Stage

variable {s s' : Maps} {key : FlowStateKey} {record : FlowStateValue}

theorem stage_of_find (h : s.find .flowState key = some record) :
    stage s key = some record.lifecycle := by
  rw [stage, h, Option.map_some]

theorem stage_eq_none_iff : stage s key = none ↔ s.find .flowState key = none :=
  Option.map_eq_none_iff

theorem stage_congr (h : s'.tables .flowState = s.tables .flowState) : stage s' = stage s := by
  funext key
  rw [stage, stage, Maps.find, Maps.find, h]

theorem stage_put (s : Maps) (key : FlowStateKey) (record : FlowStateValue) :
    stage (s.put .flowState key record) = Function.update (stage s) key (some record.lifecycle) := by
  funext key'
  rw [stage, Maps.find_put, Function.update_apply]
  split <;> rfl

theorem stage_remove (s : Maps) (key : FlowStateKey) :
    stage (s.remove .flowState key) = Function.update (stage s) key none := by
  funext key'
  rw [stage, Maps.find_remove, Function.update_apply]
  split <;> rfl

theorem stage_put_of_ne {m : MapId} (h : MapId.flowState ≠ m) (key : m.Key) (value : m.Val) :
    stage (s.put m key value) = stage s := by
  funext key'
  rw [stage, Maps.find_put_of_ne _ _ _ h, stage]

theorem stage_remove_of_ne {m : MapId} (h : MapId.flowState ≠ m) (key : m.Key) :
    stage (s.remove m key) = stage s := by
  funext key'
  rw [stage, Maps.find_remove_of_ne _ _ h, stage]

end Stage

/-- The flow a thread depends on, and the stage its record is at. -/
def Phase.claims? : Phase → Option (FlowStateKey × Option UInt8)
  | .creating candidate => some (keyOf candidate, some flowCreating)
  | .seen key | .journaled key => some (key, some flowActive)
  | .gone key | .claiming _ _ key => some (key, none)
  | _ => none

/-- Only a phase of the host `claims?` an active record. -/
theorem Phase.isOwn_of_claims {φ : Phase} {key : FlowStateKey}
    (h : φ.claims? = some (key, some flowActive)) : φ.isOwn = true := by
  cases φ with
  | seen | journaled => rfl
  | _ => cases h

/-! ## Informed deletions -/

/-- The flow whose record a call of the host reads. -/
def readsRecord : Op → Option FlowStateKey
  | .hostGet .flowState key => some key
  | _ => none

/-- Deletions are for flows that were created and are not being created any more. -/
def Informed : List SystemEvent → Prop
  | [] => True
  | e :: history =>
    (∀ key ∈ readsRecord e.op, Used key history ∧ stage e.before key ≠ some flowCreating) ∧
      Informed history

instance (key : FlowStateKey) (history : List SystemEvent) : Decidable (Used key history) := by
  unfold Used
  infer_instance

instance decidableInformed : (history : List SystemEvent) → Decidable (Informed history)
  | [] => isTrue trivial
  | _ :: history =>
    have := decidableInformed history
    inferInstanceAs (Decidable (_ ∧ _))

/-! ## Effects on the stages -/

/-- What a step does to the stages, and what the thread depends on afterwards. -/
inductive Restages {op : Op} (resp : Resp op) (s s' : Maps) (φ φ' : Phase) : Prop
  | keep (hstage : stage s' = stage s) (hclaims : φ'.claims? = φ.claims? ∨ φ'.claims? = none)
  /-- The thread reads the record, or pops a release. -/
  | learn {key : FlowStateKey} {value : Option UInt8} (hstage : stage s' = stage s)
      (hclaims : φ'.claims? = some (key, value))
      (hsource : value = none ∧ key ∈ s.releases ∨ readsRecord op = some key ∧
        (value = none ∧ stage s key = none ∨ value = some flowActive ∧ stage s key ≠ none))
  | insert {key : FlowStateKey} (hcreates : creates key op resp = true)
      (hstage : stage s' = Function.update (stage s) key (some flowCreating))
      (hclaims : φ'.claims? = some (key, some flowCreating))
  /-- The owner of the record activates or removes it. -/
  | settle {key : FlowStateKey} {before : UInt8} {after : Option UInt8}
      (hφ : φ.claims? = some (key, some before))
      (hstage : stage s' = Function.update (stage s) key after)
      (hafter : after = none ∨ after = some flowActive)
      (hclaims : φ'.claims? = none ∨ φ'.claims? = some (key, none) ∧ after = none)

section Steps

variable {s s' : Maps} {history : List SystemEvent} {e : SystemEvent} {job : Job} {φ φ' : Phase}
  {rest : Multiset (Job × Phase)} {op : Op} {resp : Resp op} {key : FlowStateKey} {c : Choice}
  {host : Bool} {value : Option UInt8} {before : UInt8}

theorem Learns.restages (h : Learns host φ op resp φ') (hexec : exec c op s = some (resp, s'))
    (hstage : stage s' = stage s) : Restages resp s s' φ φ' := by
  cases h with
  | see hhost key record =>
    refine .learn hstage rfl (.inr ⟨rfl, .inr ⟨rfl, ?_⟩⟩)
    obtain ⟨-, ⟨call, hresp⟩ | ⟨found, hfound, hresp⟩ | ⟨-, hresp⟩⟩ := exec_hostGet hexec
    · cases hresp
    · rw [stage_of_find hfound]
      rintro ⟨⟩
    · cases hresp
  | miss hhost key error herror =>
    refine .learn hstage rfl (.inr ⟨rfl, .inl ⟨rfl, ?_⟩⟩)
    obtain ⟨-, ⟨call, hresp⟩ | ⟨found, -, hresp⟩ | ⟨hnone, -⟩⟩ := exec_hostGet hexec
    · cases hresp
      rcases herror with herror | herror <;> cases herror
    · cases hresp
    · exact stage_eq_none_iff.mpr hnone
  | _ => exact .keep hstage (.inr rfl)

theorem Step.restages (hstep : Step false host φ op resp φ') (hexec : exec c op s = some (resp, s')) :
    Restages resp s s' φ φ' := by
  cases hstep with
  | idle h hφ =>
    refine .keep (stage_congr (unchanged_of_idle h hexec).records) ?_
    cases hφ with
    | stay => exact .inl rfl
    | leak h =>
      refine .inr ?_
      cases h <;> rfl
    | _ => exact .inr rfl
  | learn h hφ => exact hφ.restages hexec (stage_congr (h.unchanged hexec).records)
  | store key write =>
    refine .keep ?_ (.inl rfl)
    simp only [exec] at hexec
    split at hexec
    · rename_i record hrecord
      cases hexec
      rw [stage_put, (Flows.Alike.fields (fixedPart_apply write record)).2.2.2.2.2,
        ← stage_of_find hrecord, Function.update_eq_self]
    · cases hexec
      rfl
  | pop k config release =>
    refine .learn (stage_congr (exec_tables hexec fun key => by rintro ⟨⟩)) rfl (.inl ⟨rfl, ?_⟩)
    simp only [exec] at hexec
    split at hexec <;> cases hexec
    rename_i heq
    rw [heq]
    exact List.mem_cons_self
  | insert candidate hcreating =>
    rcases exec_update hexec with ⟨hresp, -⟩ | ⟨-, rfl, -⟩
    · cases hresp
    · exact .insert (by simp [creates]) (hcreating ▸ stage_put _ _ candidate) rfl
  | activate candidate =>
    rcases exec_update hexec with ⟨hresp, -⟩ | ⟨-, rfl, -⟩
    · cases hresp
    · exact .settle rfl (stage_put _ _ _) (.inr rfl) (.inl rfl)
  | takeBack candidate done =>
    have hstage : stage s' = Function.update (stage s) (keyOf candidate) none := by
      rcases exec_delete hexec with ⟨-, rfl, hnone⟩ | ⟨-, rfl, -⟩
      · rw [← stage_eq_none_iff.mpr hnone, Function.update_eq_self]
      · exact stage_remove _ _
    exact .settle rfl hstage (.inl rfl) (.inl rfl)
  | remove hhost key =>
    rcases exec_hostRemove hexec with ⟨error, hresp, -⟩ | ⟨-, rfl, -⟩
    · cases hresp
    · exact .settle rfl (stage_remove _ _) (.inl rfl) (.inr ⟨rfl, rfl⟩)
  | configure | index | journal | withdraw | unindex | push =>
    exact .keep (stage_congr (exec_tables hexec fun key => by rintro ⟨⟩)) (.inl rfl)
  | back h =>
    refine .keep (stage_congr (exec_tables hexec fun key h => h)) (.inr ?_)
    cases h <;> rfl
  | take =>
    refine .keep (stage_congr (exec_tables hexec fun key h => h)) (.inr ?_)
    split <;> rfl
  | reserve _ _ hatomic => cases hatomic
  | _ => exact .keep (stage_congr (exec_tables hexec fun key => by rintro ⟨⟩)) (.inr rfl)

/-- Nobody but a deletion that has read the record adds to `releasePending`. -/
theorem Step.pending_of_pending (hstep : Step false host φ op resp φ')
    (hexec : exec c op s = some (resp, s')) (h : (s'.find .releasePending key).isSome) :
    (s.find .releasePending key).isSome ∨ φ.claims? = some (key, some flowActive) := by
  have hsame : s'.tables .releasePending = s.tables .releasePending →
      (s.find .releasePending key).isSome := fun hsame => by
    rw [Maps.find, ← hsame]
    exact h
  have hremove : ∀ k, s' = s.remove .releasePending k → (s.find .releasePending key).isSome := by
    rintro k rfl
    obtain ⟨value, hvalue⟩ := Option.isSome_iff_exists.mp h
    exact Option.isSome_iff_exists.mpr ⟨value, find_of_find_remove hvalue⟩
  cases hstep with
  | idle hop => exact .inl (hsame (unchanged_of_idle hop hexec).journal)
  | learn hop => exact .inl (hsame (hop.unchanged hexec).journal)
  | lose k config release | claim k config release =>
    rcases exec_delete hexec with ⟨-, rfl, -⟩ | ⟨-, hs', -⟩
    · exact .inl h
    · exact .inl (hremove _ hs')
  | withdraw hhost k result =>
    rcases exec_hostRemove hexec with ⟨_, -, rfl⟩ | ⟨-, hs', -⟩
    · exact .inl h
    · exact .inl (hremove _ hs')
  | journal hhost k =>
    rcases exec_hostInsert hexec with ⟨_, hresp, -⟩ | ⟨-, rfl, -⟩
    · cases hresp
    · rw [Maps.find_put] at h
      split at h
      · rename_i hk
        exact .inr (hk ▸ rfl)
      · exact .inl h
  | reserve _ _ hatomic => cases hatomic
  | _ => exact .inl (hsame (exec_tables hexec fun k => by rintro ⟨⟩))

/-- Nobody but a deletion that publishes a release adds to `releases`. -/
theorem Step.mem_releases (hstep : Step false host φ op resp φ') (hexec : exec c op s = some (resp, s'))
    (h : key ∈ s'.releases) : key ∈ s.releases ∨ φ.claims? = some (key, none) := by
  cases hstep with
  | idle hop => exact .inl ((unchanged_of_idle hop hexec).releases ▸ h)
  | learn hop => exact .inl ((hop.unchanged hexec).releases ▸ h)
  | pop k config release =>
    simp only [exec] at hexec
    split at hexec <;> cases hexec
    rename_i heq
    rw [heq]
    exact .inl (List.mem_cons_of_mem _ h)
  | push hhost k result =>
    simp only [exec, hostCall] at hexec
    split at hexec <;> cases hexec
    · exact .inl h
    · rcases List.mem_append.mp h with h | h
      · exact .inl h
      · exact .inr (by rw [List.mem_singleton.mp h]; rfl)
  | reserve _ _ hatomic => cases hatomic
  | _ =>
    rw [exec_releases hexec (by rintro ⟨⟩) (by rintro ⟨⟩) fun _ => by rintro ⟨⟩] at h
    exact .inl h

/-! ## The invariant -/

/-- Records are at the stage their owners know them at, and have one owner each. -/
structure Custody (s : Maps) (history : List SystemEvent) (running : Multiset (Job × Phase)) :
    Prop where
  roles : Roles Job.isHost Phase.isOwn running
  known : ∀ key value, stage s key = some value →
    Used key history ∧ (value = flowCreating ∨ value = flowActive)
  claims : ∀ x ∈ running, ∀ key value, x.2.claims? = some (key, value) →
    stage s key = value ∧ Used key history
  single : ∀ key, running.countP (fun x => x.2.claims? = some (key, some flowCreating)) ≤ 1
  pending : ∀ key, (s.find .releasePending key).isSome →
    Used key history ∧ stage s key ≠ some flowCreating
  queue : ∀ key ∈ s.releases, stage s key = none ∧ Used key history

/-- Nobody else `claims?` a record that a thread claims. -/
theorem Custody.not_claimed (hinv : Custody s history ((job, φ) ::ₘ rest))
    (hφ : φ.claims? = some (key, some before)) {x : Job × Phase} (hx : x ∈ rest)
    (hclaims : x.2.claims? = some (key, value)) : False := by
  have hself : (job, φ) ∈ (job, φ) ::ₘ rest := mem_cons_self _ _
  have hstage := (hinv.claims _ hself key _ hφ).1
  obtain rfl : value = some before :=
    (hinv.claims x (mem_cons_of_mem hx) key value hclaims).1.symm.trans hstage
  rcases (hinv.known key before hstage).2 with rfl | rfl
  · have hone := hinv.single key
    rw [countP_cons, if_pos hφ] at hone
    have hpos : 0 < rest.countP fun x => x.2.claims? = some (key, some flowCreating) :=
      Multiset.countP_pos.mpr ⟨x, hx, hclaims⟩
    omega
  · have halone := hinv.roles.alone (hinv.roles.host _ hself (Phase.isOwn_of_claims hφ)) x hx
    rw [Phase.isOwn_of_claims hclaims] at halone
    cases halone

/-- `Restages` touches nothing that others claim, nor what is gone. -/
theorem Restages.others (h : Restages resp s s' φ φ')
    (hfresh : ∀ k, creates k op resp = true → ¬ Used k history) (hused : Used key history)
    (hother : ∀ before, φ.claims? ≠ some (key, some before)) : stage s' key = stage s key := by
  cases h with
  | keep hstage | learn hstage => rw [hstage]
  | insert hcreates hstage =>
    rw [hstage, Function.update_of_ne]
    rintro rfl
    exact hfresh _ hcreates hused
  | settle hφ hstage =>
    rw [hstage, Function.update_of_ne]
    rintro rfl
    exact hother _ hφ

/-- A record comes into `flowCreating` by its insert. -/
theorem Restages.creating (h : Restages resp s s' φ φ') (hstage : stage s' key = some flowCreating) :
    stage s key = some flowCreating ∨ creates key op resp = true := by
  cases h with
  | keep h | learn h => exact .inl (h ▸ hstage)
  | @insert k hcreates h =>
    rw [h, Function.update_apply] at hstage
    split at hstage
    · rename_i hk
      exact .inr (hk ▸ hcreates)
    · exact .inl hstage
  | settle _ h hafter =>
    rw [h, Function.update_apply] at hstage
    split at hstage
    · rcases hafter with rfl | rfl <;> cases hstage
    · exact .inl hstage

section Custody

variable (hrestages : Restages e.resp e.before s' φ φ')
  (hinv : Custody e.before history ((e.job, φ) ::ₘ rest))

include hrestages hinv

theorem Custody.known_step (hvalue : stage s' key = some before) :
    Used key (e :: history) ∧ (before = flowCreating ∨ before = flowActive) := by
  have hold : stage e.before key = some before →
      Used key (e :: history) ∧ (before = flowCreating ∨ before = flowActive) := fun h =>
    ⟨(hinv.known key before h).1.cons, (hinv.known key before h).2⟩
  cases hrestages with
  | keep hstage | learn hstage => exact hold (hstage ▸ hvalue)
  | insert hcreates hstage =>
    rw [hstage, Function.update_apply] at hvalue
    split at hvalue
    · rename_i hk
      cases hvalue
      exact ⟨used_cons_iff.mpr (.inl (hk ▸ hcreates)), .inl rfl⟩
    · exact hold hvalue
  | settle hφ hstage hafter =>
    rw [hstage, Function.update_apply] at hvalue
    split at hvalue
    · rename_i hk
      rcases hafter with rfl | rfl <;> cases hvalue
      exact ⟨(hk ▸ (hinv.claims _ (mem_cons_self _ _) _ _ hφ).2).cons, .inr rfl⟩
    · exact hold hvalue

/-- What the thread `claims?` behind a step it knew, or has just read, inserted or removed. -/
theorem Custody.claims_step (hinformed : Informed (e :: history))
    (hclaims : φ'.claims? = some (key, value)) : stage s' key = value ∧ Used key (e :: history) := by
  have hself : (e.job, φ) ∈ (e.job, φ) ::ₘ rest := mem_cons_self _ _
  cases hrestages with
  | keep hstage hsame =>
    rcases hsame with hsame | hnone
    · obtain ⟨heq, hused⟩ := hinv.claims _ hself key value (hsame ▸ hclaims)
      exact ⟨hstage ▸ heq, hused.cons⟩
    · rw [hnone] at hclaims
      cases hclaims
  | learn hstage hlearned hsource =>
    obtain ⟨rfl, rfl⟩ := Prod.mk.inj (Option.some.inj (hlearned.symm.trans hclaims))
    rw [hstage]
    rcases hsource with ⟨rfl, hqueue⟩ | ⟨hreads, ⟨rfl, hnone⟩ | ⟨rfl, hsome⟩⟩
    · exact ⟨(hinv.queue _ hqueue).1, (hinv.queue _ hqueue).2.cons⟩
    · exact ⟨hnone, (hinformed.1 _ hreads).1.cons⟩
    · obtain ⟨found, hfound⟩ := Option.ne_none_iff_exists'.mp hsome
      rcases (hinv.known _ found hfound).2 with rfl | rfl
      · exact absurd hfound (hinformed.1 _ hreads).2
      · exact ⟨hfound, (hinformed.1 _ hreads).1.cons⟩
  | insert hcreates hstage hinserted =>
    obtain ⟨rfl, rfl⟩ := Prod.mk.inj (Option.some.inj (hinserted.symm.trans hclaims))
    rw [hstage, Function.update_self]
    exact ⟨rfl, used_cons_iff.mpr (.inl hcreates)⟩
  | settle hφ hstage hafter hclaims' =>
    rcases hclaims' with hnone | ⟨hsome, rfl⟩
    · rw [hnone] at hclaims
      cases hclaims
    · obtain ⟨rfl, rfl⟩ := Prod.mk.inj (Option.some.inj (hsome.symm.trans hclaims))
      rw [hstage, Function.update_self]
      exact ⟨rfl, (hinv.claims _ hself _ _ hφ).2.cons⟩

/-- A creator was the creator before, or the identity was not `Used`. -/
theorem Custody.single_step (hfresh : Fresh (e :: history)) (key : FlowStateKey) :
    ((e.job, φ') ::ₘ rest).countP (fun x => x.2.claims? = some (key, some flowCreating)) ≤ 1 := by
  have hone := hinv.single key
  rw [countP_cons] at hone ⊢
  have hkept : (φ'.claims? = some (key, some flowCreating) →
      φ.claims? = some (key, some flowCreating)) ∨ creates key e.op e.resp = true := by
    cases hrestages with
    | keep _ hsame =>
      refine .inl fun h => ?_
      rcases hsame with hsame | hnone
      · exact hsame.symm.trans h
      · rw [hnone] at h
        cases h
    | learn _ hlearned hsource =>
      refine .inl fun h => ?_
      obtain ⟨rfl, rfl⟩ := Prod.mk.inj (Option.some.inj (hlearned.symm.trans h))
      rcases hsource with ⟨h, -⟩ | ⟨-, ⟨h, -⟩ | ⟨h, -⟩⟩ <;> cases h
    | @insert k hcreates _ hinserted =>
      by_cases hk : k = key
      · exact .inr (hk ▸ hcreates)
      · exact .inl fun h => absurd (congrArg Prod.fst (Option.some.inj (hinserted.symm.trans h))) hk
    | settle _ _ _ hclaims' =>
      refine .inl fun h => ?_
      rcases hclaims' with h' | ⟨h', -⟩ <;> rw [h'] at h <;> cases h
  rcases hkept with hkept | hcreates
  · split
    · rename_i h
      rw [if_pos (hkept h)] at hone
      exact hone
    · omega
  · rw [Multiset.countP_eq_zero.mpr fun x hx hclaims => hfresh.1 _ hcreates
      (hinv.claims x (mem_cons_of_mem hx) key _ hclaims).2]
    split <;> omega

end Custody

/-- **Every step keeps `Custody`**, as long as identities are `Fresh` and deletions `Informed`. -/
theorem custody_step (hstep : Moves e.job φ e.op e.resp φ')
    (hinv : Custody e.before history ((e.job, φ) ::ₘ rest))
    (hexec : exec e.choice e.op e.before = some (e.resp, s')) (hfresh : Fresh (e :: history))
    (hinformed : Informed (e :: history)) : Custody s' (e :: history) ((e.job, φ') ::ₘ rest) := by
  have hself : (e.job, φ) ∈ (e.job, φ) ::ₘ rest := mem_cons_self _ _
  have hrestages := hstep.restages hexec
  have hrole : φ'.isOwn = true → e.job.isHost = true := fun hown =>
    (hstep.host_of_isOwn hown).elim (hinv.roles.host _ hself) id
  -- what is gone stays gone
  have hgone : ∀ k, stage e.before k = none → Used k history →
      stage s' k = none ∧ Used k (e :: history) := by
    intro k hk hused
    refine ⟨?_, hused.cons⟩
    rw [hrestages.others hfresh.1 hused fun before hφ => ?_]
    · exact hk
    · rw [(hinv.claims _ hself k _ hφ).1] at hk
      cases hk
  refine ⟨hinv.roles.move hrole, fun key before => hinv.known_step hrestages,
    fun x hx key value hclaims => ?_, hinv.single_step hrestages hfresh, fun key hkey => ?_,
    fun key hkey => ?_⟩
  · rcases mem_cons.mp hx with rfl | hrest
    · exact hinv.claims_step hrestages hinformed hclaims
    · obtain ⟨heq, hused⟩ := hinv.claims x (mem_cons_of_mem hrest) key value hclaims
      rw [hrestages.others hfresh.1 hused fun before hφ => hinv.not_claimed hφ hrest hclaims]
      exact ⟨heq, hused.cons⟩
  · obtain ⟨hused, hnot⟩ : Used key history ∧ stage e.before key ≠ some flowCreating := by
      rcases hstep.pending_of_pending hexec hkey with hold | hclaims
      · exact hinv.pending key hold
      · obtain ⟨hstage, hused⟩ := hinv.claims _ hself key _ hclaims
        exact ⟨hused, hstage ▸ by decide⟩
    exact ⟨hused.cons, fun hcreating => (hrestages.creating hcreating).elim hnot fun hcreates =>
      hfresh.1 _ hcreates hused⟩
  · rcases hstep.mem_releases hexec hkey with hold | hclaims
    · exact hgone key (hinv.queue key hold).1 (hinv.queue key hold).2
    · exact hgone key (hinv.claims _ hself key _ hclaims).1 (hinv.claims _ hself key _ hclaims).2

/-- A thread starts with nothing it `claims?`. -/
theorem Custody.spawn (hinv : Custody s history rest)
    (halone : job.isHost = true → ∀ x ∈ rest, x.1.isHost = false) :
    Custody s history ((job, .calm) ::ₘ rest) := by
  refine ⟨hinv.roles.spawn rfl halone, hinv.known, fun x hx => ?_, fun key => ?_, hinv.pending,
    hinv.queue⟩
  · rcases mem_cons.mp hx with rfl | hx
    · rintro key value ⟨⟩
    · exact hinv.claims x hx
  · rw [countP_cons, if_neg (by rintro ⟨⟩)]
    exact hinv.single key

theorem Custody.retire (hinv : Custody s history ((job, φ) ::ₘ rest)) : Custody s history rest :=
  ⟨hinv.roles.retire, hinv.known, fun x hx => hinv.claims x (mem_cons_of_mem hx),
    fun key => (Multiset.countP_le_of_le _ (Multiset.le_cons_self _ _)).trans (hinv.single key),
    hinv.pending, hinv.queue⟩

theorem custody_initial (config : RuntimeConfigValue) : Custody (Maps.initial config) [] 0 where
  roles := roles_zero
  known _ _ h := by cases h
  claims x hx := absurd hx (Multiset.notMem_zero x)
  single _ := Nat.zero_le 1
  pending _ h := by cases h
  queue _ h := by cases h

end Steps

/-! ## Every interleaving

Freshness and informedness are properties of the whole history. So they are hypotheses inside the
invariant, and what the transitions keep given custody holds in every interleaving that has them. -/

/-- An invariant that the transitions keep, given `Custody`. -/
structure Upheld (config : RuntimeConfigValue) (permitted : SystemEvent → Prop)
    (I : Maps → List SystemEvent → Multiset (Job × Phase) → Prop) : Prop where
  start : I (Maps.initial config) [] 0
  step : ∀ {e : SystemEvent} {φ φ' : Phase} {s' : Maps} {history : List SystemEvent}
    {rest : Multiset (Job × Phase)}, Moves e.job φ e.op e.resp φ' →
    Custody e.before history ((e.job, φ) ::ₘ rest) → I e.before history ((e.job, φ) ::ₘ rest) →
    exec e.choice e.op e.before = some (e.resp, s') →
    (∀ key, creates key e.op e.resp = true → ¬ Used key history) → permitted e →
    I s' (e :: history) ((e.job, φ') ::ₘ rest)
  spawn : ∀ {job : Job} {s : Maps} {history : List SystemEvent} {running : Multiset (Job × Phase)},
    I s history running → I s history ((job, .calm) ::ₘ running)
  retire : ∀ {job : Job} {φ : Phase} {s : Maps} {history : List SystemEvent}
    {rest : Multiset (Job × Phase)}, φ.isLast = true → I s history ((job, φ) ::ₘ rest) →
    I s history rest

/-- The outline of an invariant beside `Custody`. -/
def custodian (permitted : SystemEvent → Prop)
    (I : Maps → List SystemEvent → Multiset (Job × Phase) → Prop) :
    Outline Op Resp Maps Choice Job Outcome Phase where
  inv s history running :=
    Fresh history → Informed history → Custody s history running ∧ I s history running
  permitted := permitted
  ends _ job := Ends job
  settled _ _ _ _ := True

/-- An `Upheld` invariant at a reached world. -/
theorem Upheld.inv {config : RuntimeConfigValue} {permitted : SystemEvent → Prop}
    {I : Maps → List SystemEvent → Multiset (Job × Phase) → Prop} {w : SystemWorld}
    (h : Upheld config permitted I)
    (hreach : (system Slots.split).Reachable (World.start (Maps.initial config)) w)
    (hnumbered : ∀ e ∈ w.history, Numbered e) (hinformed : Informed w.history)
    (hpermitted : ∀ e ∈ w.history, permitted e) :
    ∃ running, Custody w.shared w.history running ∧ I w.shared w.history running := by
  have hkept : (custodian permitted I).Kept machine Moves := by
    intro thread job φ op resp φ' c s s' history rest hstep hinv hexec hperm hfresh hinformed
    obtain ⟨hcustody, hI⟩ := hinv hfresh.2 hinformed.2
    exact ⟨custody_step (e := ⟨thread, job, c, op, resp, s⟩) hstep hcustody hexec hfresh hinformed,
      h.step (e := ⟨thread, job, c, op, resp, s⟩) hstep hcustody hI hexec hfresh.1 hperm⟩
  have hvalid : (custodian permitted I).Valid (system Slots.split) (Maps.initial config) := by
    refine hkept.valid rfl (fun _ _ => ⟨custody_initial config, h.start⟩) (fun _ => .calm)
      (fun _ job => follows_code false job) ?_ ?_ fun _ _ _ _ _ _ => trivial
    · intro job s history running threads hinv hadmits hrunning hfresh hinformed
      obtain ⟨hcustody, hI⟩ := hinv hfresh hinformed
      exact ⟨hcustody.spawn (not_host_of_admits hadmits hrunning), h.spawn hI⟩
    · intro thread job φ value s history rest hends hinv
      refine ⟨fun hfresh hinformed => ?_, trivial⟩
      obtain ⟨hcustody, hI⟩ := hinv hfresh hinformed
      exact ⟨hcustody.retire, h.retire hends.1 hI⟩
  obtain ⟨running, hinv⟩ := hvalid.inv hreach hpermitted
  exact ⟨running, hinv (fresh_of_numbered hreach hnumbered) hinformed⟩

/-- **Slots are released for removed flows only**: a release in the queue is for a flow that was created
and whose record is gone, so the slot of a flow that is still there is never given away. A release in
the journal is for a flow that was created and is not being created any more. -/
theorem releases_for_removed {config : RuntimeConfigValue} {w : SystemWorld}
    (hreach : (system Slots.split).Reachable (World.start (Maps.initial config)) w)
    (hnumbered : ∀ e ∈ w.history, Numbered e) (hinformed : Informed w.history) :
    (∀ key ∈ w.shared.releases, w.shared.find .flowState key = none ∧ Used key w.history) ∧
      ∀ key, (w.shared.find .releasePending key).isSome →
        Used key w.history ∧ stage w.shared key ≠ some flowCreating := by
  have hupheld : Upheld config (fun _ => True) fun _ _ _ => True :=
    ⟨trivial, fun _ _ _ _ _ _ => trivial, fun _ => trivial, fun _ _ => trivial⟩
  obtain ⟨running, hcustody, -⟩ := hupheld.inv hreach hnumbered hinformed fun _ _ => trivial
  exact ⟨fun key hkey => ⟨stage_eq_none_iff.mp (hcustody.queue key hkey).1, (hcustody.queue key hkey).2⟩,
    hcustody.pending⟩

/-- A packet creates a flow, then the flow is deleted. -/
def deletionSchedule : List (Action Job Choice) :=
  .spawn (.packet sampleFrame true) :: List.replicate 29 (.step 0 {}) ++
    .spawn (.delete sampleFlow.flowId 1 0 100) :: List.replicate 22 (.step 1 {})

theorem releases_for_removed_deletion :
    ∃ w : SystemWorld, (system Slots.split).Reachable (World.start (Maps.initial sampleConfig)) w ∧
      sampleKey ∈ w.shared.releases ∧ w.shared.find .flowState sampleKey = none := by
  have hrun : ((system Slots.split).run (World.start (Maps.initial sampleConfig)) deletionSchedule).any
      (fun w => decide (sampleKey ∈ w.shared.releases) && (w.history.all fun e => Numbered e) &&
        Informed w.history) = true := by
    decide +kernel
  obtain ⟨w, hreach, hcheck⟩ := Pool.exists_reachable_of_run hrun
  simp only [Bool.and_eq_true, decide_eq_true_eq, List.all_eq_true] at hcheck
  obtain ⟨⟨hqueued, hnumbered⟩, hinformed⟩ := hcheck
  exact ⟨w, hreach, hqueued, ((releases_for_removed hreach hnumbered hinformed).1 _ hqueued).1⟩

end ShadowSocketProxy.Concurrent
