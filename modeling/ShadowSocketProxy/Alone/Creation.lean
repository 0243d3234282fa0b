import ShadowSocketProxy.Alone.Admission

/-! # Creation of a flow, run alone

A creation makes five inserts and may stop behind each of them; whatever it has inserted by then it
takes back. Run alone it therefore either inserts the whole flow or leaves the maps as they were,
apart from index and in-flight entries that an earlier flow of the same identity left behind. -/

namespace ShadowSocketProxy.Alone

open Interleaving Bpf
open Interleaving.Machine (wp_mono wp_seq wp_of_all)

variable {allowed : Choice → Prop} {s s₁ s' s'' s₂ : Maps} {candidate : FlowStateValue} {β : Type}
  {owner : FlowIndexValue} {p : Prog β} {tuple : TupleKey} {slots : Slots} {added : List TupleKey}

/-! ## Slots and counters -/

/-- All hash maps but the release journal are as they were. -/
def Beside (s s' : Maps) : Prop := ∀ m, m ≠ .releasePending → Same s s' m

theorem Beside.refl (s : Maps) : Beside s s := fun m _ => Same.refl s m

theorem Beside.trans {s : Maps} (h : Beside s s') (h' : Beside s' s'') : Beside s s'' :=
  fun m hm => (h m hm).trans (h' m hm)

/-- `SlotOp`s leave every hash map `Beside` the journal. -/
theorem ensures_slots (hp : p.All SlotOp) : Ensures allowed p (fun _ s' => Beside s s') s := by
  refine wp_of_all (I := fun s' => Beside s s') (fun op hop c resp s₁ s₂ _ hs hexec m hm => ?_) hp
    (Beside.refl s)
  refine (hs m hm).trans fun key => exec_frame (c := c) hexec ?_
  cases hop with
  | read h => cases h <;> exact fun h => h
  | claim key' => exact fun h => hm (congrArg Sigma.fst h).symm
  | reserveSlot => exact hm
  | _ => exact fun h => h

theorem ensures_reads (hp : p.All ReadOp) : Ensures allowed p (fun _ s' => Beside s s') s :=
  ensures_slots (hp.mono fun _ => SlotOp.read)

/-! ## Indexes -/

/-- Whether an index entry belongs to the flow of an index value. -/
def ownedBy (owner : FlowIndexValue) (entry : Option FlowIndexValue) : Bool :=
  entry.any fun current => current.flowId = owner.flowId && current.generation = owner.generation

theorem ownedBy_some_iff {index : FlowIndexValue} :
    ownedBy owner (some index) = true ↔
      index.flowId = owner.flowId ∧ index.generation = owner.generation := by
  simp [ownedBy]

/-- The index map after the entries of one flow under the listed tuples are gone. -/
def Disowned (owner : FlowIndexValue) (tuples : List TupleKey) (s s' : Maps) : Prop :=
  ∀ t, s'.find .flowIndex t =
    if t ∈ tuples ∧ ownedBy owner (s.find .flowIndex t) = true then none else s.find .flowIndex t

/-- `Disowned` with the entry of one more tuple. -/
theorem Disowned.cons {tuples : List TupleKey} (h : Disowned owner [tuple] s s₁)
    (h' : Disowned owner tuples s₁ s₂) : Disowned owner (tuple :: tuples) s s₂ := by
  intro t
  rw [h' t, h t]
  by_cases ht : t = tuple
  · subst ht
    have hnone : ownedBy owner none = false := rfl
    by_cases howned : ownedBy owner (s.find .flowIndex t) = true <;> simp [howned, hnone]
  · simp [ht]

theorem ensures_deleteOwnedIndex (tuple : TupleKey) (owner : FlowIndexValue) :
    Ensures allowed (deleteOwnedIndex tuple owner) (fun _ s' =>
      Disowned owner [tuple] s s' ∧ ∀ m, m ≠ .flowIndex → Same s s' m) s := by
  -- An entry that is not owned stays.
  have hkeep : ownedBy owner (s.find .flowIndex tuple) = false → Disowned owner [tuple] s s := by
    intro hnot t
    by_cases ht : t = tuple
    · subst ht
      simp [hnot]
    · simp [ht]
  refine ensures_lookup ?_
  cases hcurrent : s.find .flowIndex tuple with
  | none => exact ⟨hkeep (by simp [hcurrent, ownedBy]), fun m _ => Same.refl s m⟩
  | some current =>
    dsimp only
    split
    · rename_i howned
      refine ensures_delete (fun hnone => ?_) fun _ => ?_
      · rw [hcurrent] at hnone
        cases hnone
      · refine ⟨fun t => ?_, fun m hm => same_remove_of_ne s hm _⟩
        rw [Maps.find_remove]
        by_cases ht : t = tuple
        · subst ht
          simp [hcurrent, ownedBy, howned]
        · simp [ht]
    · rename_i hnot
      refine ⟨hkeep ?_, fun m _ => Same.refl s m⟩
      rw [hcurrent]
      simpa [ownedBy] using hnot

/-- The three tuples of a flow. -/
def tuplesOf (record : FlowStateValue) : List TupleKey :=
  [record.original, record.target, record.reverse]

/-- The identity of a record in the state map and in the indexes. -/
def keyOf (record : FlowStateValue) : FlowStateKey := stateKeyOf record.flowId record.generation
def ownerOf (record : FlowStateValue) : FlowIndexValue := indexOf record.flowId record.generation

/-! ## Taking back -/

/-- What a rollback leaves: nothing of the flow. -/
structure RolledBack (candidate : FlowStateValue) (s s' : Maps) : Prop where
  index : Disowned (ownerOf candidate) (tuplesOf candidate) s s'
  state : ∀ key, s'.find .flowState key =
    if key = keyOf candidate then none else s.find .flowState key
  inflight : ∀ key, s'.find .packetInflight key =
    if key = keyOf candidate then none else s.find .packetInflight key
  guard : Same s s' .deleteGuard
  outcome : Same s s' .deleteOutcome

theorem ensures_drop {m : MapId} {key : m.Key} {f : Bool → Prog β} {Q : β → Maps → Prop}
    (h : ∀ removed s', (∀ key', s'.find m key' = if key' = key then none else s.find m key') →
      (∀ m', m' ≠ m → Same s s' m') → Ensures allowed (f removed) Q s') :
    Ensures allowed (perform (.delete m key) >>= f) Q s := by
  refine ensures_delete (fun hnone => h _ _ (fun key' => ?_) fun m' _ => Same.refl s m')
    fun _ => h _ _ (fun key' => Maps.find_remove s m key key') fun m' hm => same_remove_of_ne s hm _
  split
  · rename_i heq
    rw [heq, hnone]
  · rfl

theorem ensures_rollBack (hslots : slots.Proper) (candidate : FlowStateValue) :
    Ensures allowed (rollBack slots (keyOf candidate) candidate (ownerOf candidate)) (fun _ s' =>
      RolledBack candidate s s') s := by
  refine wp_seq (ensures_deleteOwnedIndex _ _) fun _ s₁ ⟨hindex₁, hothers₁⟩ => ?_
  refine wp_seq (ensures_deleteOwnedIndex _ _) fun _ s₂ ⟨hindex₂, hothers₂⟩ => ?_
  refine wp_seq (ensures_deleteOwnedIndex _ _) fun _ s₃ ⟨hindex₃, hothers₃⟩ => ?_
  refine ensures_drop fun _ s₄ hinflight hothers₄ => ?_
  refine ensures_drop fun _ s₅ hstate hothers₅ => ?_
  refine wp_mono (ensures_slots hslots.release) fun _ s₆ hbeside => ?_
  have hothers : ∀ m, m ≠ .flowIndex → Same s s₃ m := fun m hm =>
    ((hothers₁ m hm).trans (hothers₂ m hm)).trans (hothers₃ m hm)
  exact
    { index := fun t => by
        rw [hbeside _ (by decide) t, hothers₅ _ (by decide) t, hothers₄ _ (by decide) t]
        exact hindex₁.cons (hindex₂.cons hindex₃) t
      state := fun key => by
        rw [hbeside _ (by decide) key, hstate key, hothers₄ _ (by decide) key,
          hothers _ (by decide) key]
      inflight := fun key => by
        rw [hbeside _ (by decide) key, hothers₅ _ (by decide) key, hinflight key,
          hothers _ (by decide) key]
      guard := (((hothers _ (by decide)).trans (hothers₄ _ (by decide))).trans
        (hothers₅ _ (by decide))).trans (hbeside _ (by decide))
      outcome := (((hothers _ (by decide)).trans (hothers₄ _ (by decide))).trans
        (hothers₅ _ (by decide))).trans (hbeside _ (by decide)) }

/-! ## Inserting -/

/-- The index map with entries of one flow added under new tuples. -/
structure Indexed (owner : FlowIndexValue) (added : List TupleKey) (s s' : Maps) : Prop where
  fresh : ∀ t ∈ added, s.find .flowIndex t = none
  distinct : added.Nodup
  index : ∀ t, s'.find .flowIndex t = if t ∈ added then some owner else s.find .flowIndex t
  others : ∀ m, m ≠ .flowIndex → Same s s' m

theorem Indexed.nil (owner : FlowIndexValue) (s : Maps) : Indexed owner [] s s :=
  ⟨by simp, List.nodup_nil, by simp, fun m _ => Same.refl s m⟩

/-- `Indexed` with one more successful insert. -/
theorem Indexed.snoc (h : Indexed owner added s s') (hfree : s'.find .flowIndex tuple = none) :
    Indexed owner (added ++ [tuple]) s (s'.put .flowIndex tuple owner) := by
  have hnot : tuple ∉ added := by
    intro hmem
    rw [h.index, if_pos hmem] at hfree
    cases hfree
  refine ⟨fun t ht => ?_, ?_, fun t => ?_, fun m hm =>
    (h.others m hm).trans (same_put_of_ne _ hm _ _)⟩
  · rcases List.mem_append.mp ht with ht | ht
    · exact h.fresh t ht
    · rw [List.mem_singleton.mp ht, ← hfree, h.index, if_neg hnot]
  · rw [List.nodup_append]
    exact ⟨h.distinct, List.nodup_singleton _, fun a ha b hb hab => hnot (by
      rw [← List.mem_singleton.mp hb, ← hab]
      exact ha)⟩
  · rw [Maps.find_put, h.index t]
    by_cases ht : t = tuple
    · simp [ht]
    · simp [ht]

/-- An insert with `noexist` succeeds only where there is none. -/
theorem free_of_noexist {α : Type} {entry : Option α}
    (h : UpdateFlag.noexist.refuses entry.isSome = false) : entry = none :=
  Option.not_isSome_iff_eq_none.mp (by simpa [UpdateFlag.refuses] using h)

/-- `insertEntries`: all are inserted, or some indexes and the count is not. -/
theorem ensures_insertEntries (candidate : FlowStateValue) :
    Ensures allowed (insertEntries (keyOf candidate) candidate (ownerOf candidate)) (fun inserted s' =>
      (inserted = false ∧ ∃ added, (∀ t ∈ added, t ∈ tuplesOf candidate) ∧
        Indexed (ownerOf candidate) added s s') ∨
      (inserted = true ∧ s.find .packetInflight (keyOf candidate) = none ∧ ∃ s₁,
        Indexed (ownerOf candidate) (tuplesOf candidate) s s₁ ∧
        s' = s₁.put .packetInflight (keyOf candidate) 0)) s := by
  refine ensures_update (.inl ⟨rfl, [], by simp, Indexed.nil _ _⟩) fun h₁ => ?_
  have hadded₁ := (Indexed.nil (ownerOf candidate) s).snoc (free_of_noexist h₁)
  refine ensures_update (.inl ⟨rfl, _, by simp [tuplesOf], hadded₁⟩) fun h₂ => ?_
  have hadded₂ := hadded₁.snoc (free_of_noexist h₂)
  refine ensures_update (.inl ⟨rfl, _, by simp [tuplesOf], hadded₂⟩) fun h₃ => ?_
  have hadded₃ := hadded₂.snoc (free_of_noexist h₃)
  refine ensures_update (f := fun inserted => pure inserted)
    (.inl ⟨rfl, _, by simp [tuplesOf], hadded₃⟩) fun h₄ => ?_
  have hcount := (hadded₃.others _ (by decide) _).symm.trans (free_of_noexist h₄)
  exact .inr ⟨rfl, hcount, _, hadded₃, rfl⟩

/-! ## A whole creation -/

/-- A creation in progress: the record is in, and some of the indexes and perhaps the count. -/
structure InProgress (candidate : FlowStateValue) (s s' : Maps) : Prop where
  key : s.find .flowState (keyOf candidate) = none
  index : ∃ added : List TupleKey,
    (∀ t ∈ added, t ∈ tuplesOf candidate ∧ s.find .flowIndex t = none) ∧
    ∀ t, s'.find .flowIndex t =
      if t ∈ added then some (ownerOf candidate) else s.find .flowIndex t
  state : ∀ key, key ≠ keyOf candidate → s'.find .flowState key = s.find .flowState key
  inflight : ∀ key, key ≠ keyOf candidate → s'.find .packetInflight key = s.find .packetInflight key
  guard : Same s s' .deleteGuard
  outcome : Same s s' .deleteOutcome

theorem Indexed.inProgress (hkey : s.find .flowState (keyOf candidate) = none)
    (hsub : ∀ t ∈ added, t ∈ tuplesOf candidate)
    (h : Indexed (ownerOf candidate) added (s.put .flowState (keyOf candidate) candidate) s₁) :
    InProgress candidate s s₁ where
  key := hkey
  index := by
    refine ⟨added, fun t ht => ⟨hsub t ht, ?_⟩, fun t => ?_⟩
    · rw [← h.fresh t ht, Maps.find_put_of_ne _ _ _ (by decide)]
    · rw [h.index t, Maps.find_put_of_ne _ _ _ (by decide)]
  state key hne := by
    rw [h.others .flowState (by decide) key, Maps.find_put, if_neg hne]
  inflight key _ := by
    rw [h.others .packetInflight (by decide) key, Maps.find_put_of_ne _ _ _ (by decide)]
  guard := (same_put_of_ne s (by decide) _ _).trans (h.others _ (by decide))
  outcome := (same_put_of_ne s (by decide) _ _).trans (h.others _ (by decide))

theorem InProgress.putInflight (h : InProgress candidate s s₁) (count : Int) :
    InProgress candidate s (s₁.put .packetInflight (keyOf candidate) count) where
  key := h.key
  index := by
    obtain ⟨added, hadded, hindex⟩ := h.index
    refine ⟨added, hadded, fun t => ?_⟩
    rw [Maps.find_put_of_ne _ _ _ (by decide), hindex t]
  state key hne := by
    rw [Maps.find_put_of_ne _ _ _ (by decide), h.state key hne]
  inflight key hne := by
    rw [Maps.find_put, if_neg hne, h.inflight key hne]
  guard := h.guard.trans (same_put_of_ne _ (by decide) _ _)
  outcome := h.outcome.trans (same_put_of_ne _ (by decide) _ _)

/-- A creation that was given up: at most what an earlier flow of the same identity had left behind
is gone. -/
structure Failed (candidate : FlowStateValue) (s s' : Maps) : Prop where
  index : ∀ t, s'.find .flowIndex t = s.find .flowIndex t ∨
    s'.find .flowIndex t = none ∧ ownedBy (ownerOf candidate) (s.find .flowIndex t) = true ∧
      s.find .flowState (keyOf candidate) = none
  state : Same s s' .flowState
  inflight : ∀ key, s'.find .packetInflight key = s.find .packetInflight key ∨
    s'.find .packetInflight key = none ∧ key = keyOf candidate ∧
      s.find .flowState (keyOf candidate) = none
  guard : Same s s' .deleteGuard
  outcome : Same s s' .deleteOutcome

/-- A creation that changed nothing has `Failed`. -/
theorem Failed.of_beside (h : Beside s s') : Failed candidate s s' :=
  ⟨fun t => .inl (h _ (by decide) t), h _ (by decide), fun key => .inl (h _ (by decide) key),
    h _ (by decide), h _ (by decide)⟩

theorem Failed.trans_beside (h : Failed candidate s s') (h' : Beside s' s'') :
    Failed candidate s s'' where
  index t := by
    rw [h' _ (by decide) t]
    exact h.index t
  state := h.state.trans (h' _ (by decide))
  inflight key := by
    rw [h' _ (by decide) key]
    exact h.inflight key
  guard := h.guard.trans (h' _ (by decide))
  outcome := h.outcome.trans (h' _ (by decide))

/-- **A rollback of what is `InProgress` takes back exactly the creation's own entries.** -/
theorem InProgress.rolledBack (h : InProgress candidate s s₁) (hback : RolledBack candidate s₁ s₂) :
    Failed candidate s s₂ := by
  obtain ⟨added, hadded, hindex⟩ := h.index
  refine ⟨fun t => ?_, fun key => ?_, fun key => ?_, h.guard.trans hback.guard,
    h.outcome.trans hback.outcome⟩
  · rw [hback.index t, hindex t]
    by_cases ht : t ∈ added
    · -- An entry of its own: it was not there before and is not there now.
      have howned : ownedBy (ownerOf candidate) (some (ownerOf candidate)) = true := by
        simp [ownedBy]
      rw [if_pos ht, if_pos ⟨(hadded t ht).1, howned⟩, (hadded t ht).2]
      exact .inl rfl
    · rw [if_neg ht]
      split
      · rename_i howned
        exact .inr ⟨rfl, howned.2, h.key⟩
      · exact .inl rfl
  · rw [hback.state key]
    split
    · rename_i hkey
      rw [hkey, h.key]
    · rename_i hkey
      exact h.state key hkey
  · rw [hback.inflight key]
    split
    · rename_i hkey
      exact .inr ⟨rfl, hkey, h.key⟩
    · rename_i hkey
      exact .inl (h.inflight key hkey)

/-- A flow that was created: its record, its three indexes and its in-flight count are new. -/
structure Created (record : FlowStateValue) (s s' : Maps) : Prop where
  key : s.find .flowState (keyOf record) = none
  count : s.find .packetInflight (keyOf record) = none
  fresh : ∀ t ∈ tuplesOf record, s.find .flowIndex t = none
  distinct : (tuplesOf record).Nodup
  index : ∀ t, s'.find .flowIndex t =
    if t ∈ tuplesOf record then some (ownerOf record) else s.find .flowIndex t
  state : ∀ key, s'.find .flowState key =
    if key = keyOf record then some record else s.find .flowState key
  inflight : ∀ key, s'.find .packetInflight key =
    if key = keyOf record then some 0 else s.find .packetInflight key
  guard : Same s s' .deleteGuard
  outcome : Same s s' .deleteOutcome

/-- The record of a candidate once it is active. -/
def activated (candidate : FlowStateValue) : FlowStateValue := { candidate with lifecycle := flowActive }

theorem Indexed.created (hkey : s.find .flowState (keyOf candidate) = none)
    (hcount : (s.put .flowState (keyOf candidate) candidate).find .packetInflight (keyOf candidate) =
      none)
    (h : Indexed (ownerOf candidate) (tuplesOf candidate)
      (s.put .flowState (keyOf candidate) candidate) s₁) :
    Created (activated candidate) s ((s₁.put .packetInflight (keyOf candidate) 0).put .flowState
      (keyOf candidate) (activated candidate)) := by
  have hprogress := (h.inProgress hkey fun _ ht => ht).putInflight 0
  have hkeyOf : keyOf (activated candidate) = keyOf candidate := rfl
  refine ⟨hkey, ?_, fun t ht => ?_, h.distinct, fun t => ?_, fun key => ?_, fun key => ?_,
    hprogress.guard.trans (same_put_of_ne _ (by decide) _ _),
    hprogress.outcome.trans (same_put_of_ne _ (by decide) _ _)⟩
  · rw [hkeyOf, ← hcount, Maps.find_put_of_ne _ _ _ (by decide)]
  · rw [← h.fresh t ht, Maps.find_put_of_ne _ _ _ (by decide)]
  · rw [Maps.find_put_of_ne _ _ _ (by decide), Maps.find_put_of_ne _ _ _ (by decide), h.index t,
      Maps.find_put_of_ne _ _ _ (by decide)]
    rfl
  · rw [hkeyOf, Maps.find_put]
    by_cases hk : key = keyOf candidate
    · rw [if_pos hk, if_pos hk]
    · rw [if_neg hk, if_neg hk]
      exact hprogress.state key hk
  · rw [hkeyOf, Maps.find_put_of_ne _ _ _ (by decide)]
    by_cases hk : key = keyOf candidate
    · rw [Maps.find_put, if_pos hk, if_pos hk]
    · rw [if_neg hk]
      exact hprogress.inflight key hk

/-- What a creation alone can lead to. -/
inductive Creation (candidate : FlowStateValue) (s : Maps) : Maps → Resolution → Prop
  | failed {s' : Maps} (h : Failed candidate s s') : Creation candidate s s' (.verdict .shot)
  | created {s' : Maps} (h : Created (activated candidate) s s') :
      Creation candidate s s' (.index (ownerOf candidate))

/-- `resolveAgain` behind a `Failed` creation drops the packet: the tuple is still not indexed. -/
theorem ensures_resolveAgain (h : Failed candidate s s₁)
    (hfree : s.find .flowIndex candidate.original = none) :
    Ensures allowed (resolveAgain candidate.original) (fun resolution s' =>
      Creation candidate s s' resolution) s₁ := by
  have hnone : s₁.find .flowIndex candidate.original = none := by
    rcases h.index candidate.original with hsame | ⟨hnone, -⟩
    · rw [hsame, hfree]
    · exact hnone
  refine ensures_lookup ?_
  rw [hnone]
  exact wp_seq (ensures_reads (all_incrementCounter _)) fun _ s₂ hbeside =>
    .failed (h.trans_beside hbeside)

theorem ensures_insertFlow (hslots : slots.Proper) (candidate : FlowStateValue)
    (hfree : s.find .flowIndex candidate.original = none) :
    Ensures allowed (insertFlow slots candidate) (fun resolution s' =>
      Creation candidate s s' resolution) s := by
  refine ensures_update ?_ fun hkey => ?_
  · exact wp_seq (ensures_slots hslots.release) fun _ s₁ hbeside =>
      ensures_resolveAgain (.of_beside hbeside) hfree
  · replace hkey : s.find .flowState (keyOf candidate) = none := free_of_noexist hkey
    refine wp_seq (ensures_insertEntries candidate) fun inserted s₂ h => ?_
    rcases h with ⟨rfl, added, hsub, hindexed⟩ | ⟨rfl, hcount, s₁, hindexed, rfl⟩
    · exact wp_seq (ensures_rollBack hslots candidate) fun _ s₃ hback =>
        ensures_resolveAgain ((hindexed.inProgress hkey hsub).rolledBack hback) hfree
    · have hprogress := (hindexed.inProgress hkey fun _ ht => ht).putInflight 0
      refine ensures_update ?_ fun _ => .created ?_
      · refine wp_seq (ensures_rollBack hslots candidate) fun _ s₃ hback => ?_
        exact wp_seq (ensures_reads (all_incrementCounter _)) fun _ s₄ hbeside =>
          .failed ((hprogress.rolledBack hback).trans_beside hbeside)
      · exact hindexed.created hkey hcount

end ShadowSocketProxy.Alone
