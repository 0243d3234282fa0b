import ShadowSocketProxy.Bpf.Footprint

/-! # Admission of a packet, run alone

The routines of the packet path on a resolved flow, run with nothing in between. The first part gives
one rule for each map operation; the others follow the routines. -/

namespace ShadowSocketProxy.Alone

open Interleaving Bpf
open Interleaving.Machine (wp_mono wp_seq)

/-- What a program `Ensures` of result and maps, whichever of the `allowed` choices are taken. -/
abbrev Ensures {β : Type} (allowed : Choice → Prop) (p : Prog β) (Q : β → Maps → Prop) (s : Maps) :
    Prop :=
  machine.wp allowed p Q s

/-! ## Operations -/

section Operations

variable {allowed : Choice → Prop} {β : Type} {s : Maps} {Q : β → Maps → Prop} {m : MapId}
  {key : m.Key} {f : Bool → Prog β}

theorem ensures_lookup {f : Option m.Val → Prog β} (h : Ensures allowed (f (s.find m key)) Q s) :
    Ensures allowed (perform (.lookup m key) >>= f) Q s := by
  intro c resp s' _ hexec
  obtain ⟨rfl, rfl⟩ := exec_lookup (c := c) hexec
  exact h

theorem ensures_update {value : m.Val} {flag : UpdateFlag} (hfail : Ensures allowed (f false) Q s)
    (hset : flag.refuses (s.find m key).isSome = false →
      Ensures allowed (f true) Q (s.put m key value)) :
    Ensures allowed (perform (.update m key value flag) >>= f) Q s := by
  intro c resp s' _ hexec
  obtain ⟨rfl, rfl⟩ | ⟨rfl, rfl, hfree⟩ := exec_update (c := c) hexec
  · exact hfail
  · exact hset hfree

theorem ensures_delete (habsent : s.find m key = none → Ensures allowed (f false) Q s)
    (hpresent : (s.find m key).isSome → Ensures allowed (f true) Q (s.remove m key)) :
    Ensures allowed (perform (.delete m key) >>= f) Q s := by
  intro c resp s' _ hexec
  obtain ⟨rfl, rfl, hnone⟩ | ⟨rfl, rfl, hsome⟩ := exec_delete (c := c) hexec
  · exact habsent hnone
  · exact hpresent hsome

theorem ensures_ktime {f : UInt64 → Prog β}
    (h : ∀ c, allowed c → Ensures allowed (f c.now) Q s) :
    Ensures allowed (perform .ktime >>= f) Q s := by
  intro c resp s' hc hexec
  cases hexec
  exact h c hc

theorem ensures_configLookup {f : Option RuntimeConfigValue → Prog β}
    (h : Ensures allowed (f (some s.runtimeConfig)) Q s) :
    Ensures allowed (perform .configLookup >>= f) Q s := by
  intro c resp s' _ hexec
  cases hexec
  exact h

theorem ensures_arrayLookup {array : ArrayId} (h : Ensures allowed (f true) Q s) :
    Ensures allowed (perform (.arrayLookup array) >>= f) Q s := by
  intro c resp s' _ hexec
  cases hexec
  exact h

theorem ensures_inflightAdd {key : FlowStateKey} {delta : Int} {f : Unit → Prog β} {count : Int}
    (hcount : s.find .packetInflight key = some count)
    (h : Ensures allowed (f ()) Q (s.put .packetInflight key (count + delta))) :
    Ensures allowed (perform (.inflightAdd key delta) >>= f) Q s := by
  intro c resp s' _ hexec
  have hexec : exec c (.inflightAdd key delta) s = some (resp, s') := hexec
  simp only [exec, hcount, Option.some.injEq, Prod.mk.injEq] at hexec
  obtain ⟨-, rfl⟩ := hexec
  exact h

theorem ensures_stateStore {key : FlowStateKey} {write : StateUpdate} {f : Unit → Prog β}
    {record : FlowStateValue} (hrecord : s.find .flowState key = some record)
    (h : Ensures allowed (f ()) Q (s.put .flowState key (write.apply record))) :
    Ensures allowed (perform (.stateStore key write) >>= f) Q s := by
  intro c resp s' _ hexec
  have hexec : exec c (.stateStore key write) s = some (resp, s') := hexec
  simp only [exec, hrecord, Option.some.injEq, Prod.mk.injEq] at hexec
  obtain ⟨-, rfl⟩ := hexec
  exact h

end Operations

/-- Two states hold the same entries in a hash map. -/
def Same (s s' : Maps) (m : MapId) : Prop := ∀ key : m.Key, s'.find m key = s.find m key

theorem Same.refl (s : Maps) (m : MapId) : Same s s m := fun _ => rfl

theorem Same.trans {s s' s'' : Maps} {m : MapId} (h : Same s s' m) (h' : Same s' s'' m) :
    Same s s'' m := fun key => (h' key).trans (h key)

theorem same_put_of_ne (s : Maps) {m m' : MapId} (h : m' ≠ m) (key : m.Key) (value : m.Val) :
    Same s (s.put m key value) m' := fun key' => Maps.find_put_of_ne s key value h key'

theorem same_remove_of_ne (s : Maps) {m m' : MapId} (h : m' ≠ m) (key : m.Key) :
    Same s (s.remove m key) m' := fun key' => Maps.find_remove_of_ne s key h key'

/-! ## The guard check -/

section Admission

variable {allowed : Choice → Prop} {s : Maps} {key : FlowStateKey} {record : FlowStateValue}

/-- Whether the guard and the outcome of a flow keep packets out at a moment. -/
def frozen (guard : Option UInt64) (outcome : Option UInt32) (now : UInt64) : Bool :=
  match outcome with
  | some outcome => outcome ≠ flowDeleteAborted
  | none =>
    match guard with
    | none => false
    | some deadline => now < deadline

/-- No `allowed` moment finds the flow `frozen`. -/
def Unfrozen (allowed : Choice → Prop) (s : Maps) (key : FlowStateKey) : Prop :=
  ∀ c, allowed c → frozen (s.find .deleteGuard key) (s.find .deleteOutcome key) c.now = false

/-- The maps with a round of the flow aborted: the outcome is recorded and the guard is gone. -/
def aborted (s : Maps) (key : FlowStateKey) : Maps :=
  (s.put .deleteOutcome key flowDeleteAborted).remove .deleteGuard key

/-- `deletion_guard_active` tells whether the flow is `frozen`, and at most aborts an expired round.
-/
theorem ensures_deletionGuardActive :
    Ensures allowed (deletionGuardActive key) (fun active s' =>
      (∃ c, allowed c ∧
        active = frozen (s.find .deleteGuard key) (s.find .deleteOutcome key) c.now) ∧
      (s' = s ∨ (s.find .deleteGuard key).isSome ∧ s.find .deleteOutcome key = none ∧
        s' = aborted s key)) s := by
  intro c guard s₁ hc hexec
  obtain ⟨rfl, rfl⟩ := exec_lookup (c := c) hexec
  refine ensures_lookup ?_
  cases houtcome : s₁.find .deleteOutcome key with
  | some outcome =>
    -- A recorded outcome decides alone.
    have hkeep : ∀ active, active = frozen (s₁.find .deleteGuard key) (some outcome) c.now →
        Ensures allowed (pure active) (fun active s' =>
          (∃ c, allowed c ∧ active = frozen (s₁.find .deleteGuard key) (some outcome) c.now) ∧
          (s' = s₁ ∨ (s₁.find .deleteGuard key).isSome ∧ some outcome = none ∧
            s' = aborted s₁ key)) s₁ :=
      fun active h => ⟨⟨c, hc, h⟩, .inl rfl⟩
    dsimp only
    split
    · rename_i h
      exact hkeep true (by simp [frozen, h, flowDeleteCommitted, flowDeleteAborted])
    · split
      · rename_i h
        exact hkeep false (by simp [frozen, h])
      · rename_i h
        exact hkeep true (by simp [frozen, h])
  | none =>
    cases hguard : s₁.find .deleteGuard key with
    | none => exact ⟨⟨c, hc, rfl⟩, .inl rfl⟩
    | some deadline =>
      refine ensures_ktime fun c' hc' => ?_
      split
      · rename_i hexpired
        have hthawed : false = frozen (some deadline) none c'.now := by
          simpa [frozen] using hexpired
        refine ensures_update ?_ fun _ => ?_
        · refine ensures_lookup ⟨⟨c', hc', ?_⟩, .inl rfl⟩
          simpa [houtcome] using hthawed
        · refine ensures_delete (fun habsent => ?_) fun _ =>
            ⟨⟨c', hc', hthawed⟩, .inr ⟨rfl, rfl, rfl⟩⟩
          rw [Maps.find_put_of_ne _ _ _ (by decide), hguard] at habsent
          cases habsent
      · rename_i hlive
        exact ⟨⟨c', hc', by simpa [frozen] using hlive⟩, .inl rfl⟩

/-- What guard checks of a flow may have done: at most an expired round was aborted. -/
structure Checked (allowed : Choice → Prop) (key : FlowStateKey) (s s' : Maps) : Prop where
  index : Same s s' .flowIndex
  state : Same s s' .flowState
  /-- Without a guard there is nothing to abort. -/
  guard : s.find .deleteGuard key = none → Same s s' .deleteGuard
  outcome : s.find .deleteGuard key = none → Same s s' .deleteOutcome
  unfrozen : Unfrozen allowed s key → Unfrozen allowed s' key

theorem Checked.refl (allowed : Choice → Prop) (key : FlowStateKey) (s : Maps) :
    Checked allowed key s s :=
  ⟨Same.refl s _, Same.refl s _, fun _ => Same.refl s _, fun _ => Same.refl s _, fun h => h⟩

theorem Checked.trans {s' s'' : Maps} (h : Checked allowed key s s') (h' : Checked allowed key s' s'') :
    Checked allowed key s s'' where
  index := h.index.trans h'.index
  state := h.state.trans h'.state
  guard hnone := (h.guard hnone).trans (h'.guard ((h.guard hnone key).trans hnone))
  outcome hnone := (h.outcome hnone).trans (h'.outcome ((h.guard hnone key).trans hnone))
  unfrozen hs := h'.unfrozen (h.unfrozen hs)

/-- An `aborted` round is all that a check may leave. -/
theorem checked_aborted (hguard : (s.find .deleteGuard key).isSome) :
    Checked allowed key s (aborted s key) := by
  have habsurd : s.find .deleteGuard key ≠ none := Option.isSome_iff_ne_none.mp hguard
  have hsame : ∀ m, m ≠ .deleteOutcome → m ≠ .deleteGuard → Same s (aborted s key) m :=
    fun m h₁ h₂ => (same_put_of_ne s h₁ _ _).trans (same_remove_of_ne _ h₂ _)
  exact ⟨hsame _ (by decide) (by decide), hsame _ (by decide) (by decide),
    fun h => absurd h habsurd, fun h => absurd h habsurd, fun _ c _ => by simp [aborted, frozen]⟩

/-- A change of the in-flight count is `Checked` too: no business of the guard. -/
theorem checked_putInflight (key' : FlowStateKey) (count : Int) :
    Checked allowed key s (s.put .packetInflight key' count) where
  index := same_put_of_ne s (by decide) _ _
  state := same_put_of_ne s (by decide) _ _
  guard _ := same_put_of_ne s (by decide) _ _
  outcome _ := same_put_of_ne s (by decide) _ _
  unfrozen h c hc := by
    rw [Maps.find_put_of_ne _ _ _ (by decide), Maps.find_put_of_ne _ _ _ (by decide)]
    exact h c hc

/-- `deletion_guard_active`: what it tells, and that it leaves the flow `Checked`. -/
theorem ensures_check :
    Ensures allowed (deletionGuardActive key) (fun active s' =>
      (∃ c, allowed c ∧
        active = frozen (s.find .deleteGuard key) (s.find .deleteOutcome key) c.now) ∧
      Checked allowed key s s' ∧ Same s s' .packetInflight) s := by
  refine wp_mono ensures_deletionGuardActive fun active s' h => ?_
  obtain ⟨hactive, rfl | ⟨hguard, -, rfl⟩⟩ := h
  · exact ⟨hactive, Checked.refl _ _ _, Same.refl _ _⟩
  · exact ⟨hactive, checked_aborted hguard,
      (same_put_of_ne s (by decide) _ _).trans (same_remove_of_ne _ (by decide) _)⟩

/-! ## Entering and leaving -/

/-- `enter_flow_packet` alone on an active flow lets the packet in unless the flow is `frozen` or has
no in-flight count. -/
theorem ensures_enterFlowPacket (hrecord : s.find .flowState key = some record)
    (hactive : record.lifecycle = flowActive) :
    Ensures allowed (enterFlowPacket key) (fun entered s' => Checked allowed key s s' ∧
      ((entered = none ∧ ¬ (Unfrozen allowed s key ∧ (s.find .packetInflight key).isSome) ∧
          Same s s' .packetInflight) ∨
        (entered = some record ∧
          (∃ c, allowed c ∧
            frozen (s.find .deleteGuard key) (s.find .deleteOutcome key) c.now = false) ∧
          ∃ count, s.find .packetInflight key = some count ∧
            ∀ key', s'.find .packetInflight key' =
              if key' = key then some (count + 1) else s.find .packetInflight key'))) s := by
  refine wp_seq ensures_check fun active s₁ ⟨⟨c, hc, hthawed⟩, hchecked, hinflight⟩ => ?_
  cases active with
  | true =>
    refine ⟨hchecked, .inl ⟨rfl, fun h => ?_, hinflight⟩⟩
    exact absurd (hthawed.trans (h.1 c hc)) (by simp)
  | false =>
    refine ensures_lookup ?_
    cases hcount : s₁.find .packetInflight key with
    | none =>
      refine ⟨hchecked, .inl ⟨rfl, fun h => ?_, hinflight⟩⟩
      rw [← hinflight key, hcount] at h
      exact absurd h.2 (by simp)
    | some count =>
      refine ensures_inflightAdd hcount ?_
      have hcount' : s.find .packetInflight key = some count := (hinflight key).symm.trans hcount
      have hbumped : ∀ key', (s₁.put .packetInflight key (count + 1)).find .packetInflight key' =
          if key' = key then some (count + 1) else s.find .packetInflight key' := by
        intro key'
        rw [Maps.find_put, hinflight key']
      refine wp_seq ensures_check fun active s₂ ⟨⟨c', hc', hthawed₂⟩, hchecked₂, hinflight₂⟩ => ?_
      have hall : Checked allowed key s s₂ :=
        (hchecked.trans (checked_putInflight key (count + 1))).trans hchecked₂
      -- Backing out takes the count back to where it was.
      have hback : ∀ s₃, s₃ = s₂.put .packetInflight key (count + 1 + -1) →
          Checked allowed key s s₃ ∧ Same s s₃ .packetInflight := by
        rintro s₃ rfl
        refine ⟨hall.trans (checked_putInflight _ _), fun key' => ?_⟩
        rw [Maps.find_put, hinflight₂ key', hbumped key']
        split
        · rename_i h
          have hcancel : count + 1 + -1 = count := Int.add_neg_cancel_right count 1
          rw [h, hcount', hcancel]
        · rfl
      have hcount₂ : s₂.find .packetInflight key = some (count + 1) := by
        rw [hinflight₂ key, hbumped key, if_pos rfl]
      cases active with
      | true =>
        refine ensures_inflightAdd hcount₂ ?_
        obtain ⟨h₁, h₂⟩ := hback _ rfl
        refine ⟨h₁, .inl ⟨rfl, fun h => ?_, h₂⟩⟩
        have hunfrozen := (checked_putInflight key (count + 1)).unfrozen (hchecked.unfrozen h.1)
        exact absurd (hthawed₂.trans (hunfrozen c' hc')) (by simp)
      | false =>
        refine ensures_lookup ?_
        rw [hall.state key, hrecord]
        simp only [hactive, if_true]
        exact ⟨hall, .inr ⟨rfl, ⟨c, hc, hthawed.symm⟩, count, hcount', fun key' =>
          (hinflight₂ key').trans (hbumped key')⟩⟩

/-! ## The whole admission -/

/-- What an admission alone can lead to on a flow with an active record. -/
inductive Admission (allowed : Choice → Prop) (frame : List UInt8) (packet : PacketInfo)
    (ingress : Bool) (key : FlowStateKey) (record : FlowStateValue) (s : Maps) :
    Maps → TcAction × List UInt8 → Prop
  /-- The packet is dropped, because the flow is frozen at some moment or has no in-flight count. -/
  | refused {s' : Maps}
      (hwhy : ¬ (Unfrozen allowed s key ∧ (s.find .packetInflight key).isSome))
      (hchecked : Checked allowed key s s') (hinflight : Same s s' .packetInflight) :
      Admission allowed frame packet ingress key record s s' (.shot, frame)
  /-- The packet writes the record and leaves rewritten; the in-flight count is back where it was. -/
  | admitted {s₁ s' : Maps} (write : StateUpdate)
      (hthawed : ∃ c, allowed c ∧
        frozen (s.find .deleteGuard key) (s.find .deleteOutcome key) c.now = false)
      (hchecked : Checked allowed key s s₁) (hinflight : Same s s' .packetInflight)
      (hothers : ∀ m, m ≠ .flowState → m ≠ .packetInflight → Same s₁ s' m)
      (hstate : ∀ key', s'.find .flowState key' =
        if key' = key then some (write.apply record) else s.find .flowState key') :
      Admission allowed frame packet ingress key record s s'
        (.ok, rewriteFrame frame packet ingress record)

theorem ensures_updateState (hrecord : s.find .flowState key = some record) (packet : PacketInfo)
    (ingress : Bool) (now : UInt64) :
    Ensures allowed (updateState key packet ingress now) (fun _ s' =>
      ∃ write : StateUpdate, s' = s.put .flowState key (write.apply record)) s := by
  have hstore : ∀ write : StateUpdate, Ensures allowed (perform (.stateStore key write)) (fun _ s' =>
      ∃ write : StateUpdate, s' = s.put .flowState key (write.apply record)) s :=
    fun write => ensures_stateStore (f := fun _ => pure ()) hrecord ⟨write, rfl⟩
  unfold updateState
  split
  · exact ensures_configLookup (hstore _)
  · exact hstore _

theorem ensures_admitPacket (hrecord : s.find .flowState key = some record)
    (hactive : record.lifecycle = flowActive) (frame : List UInt8) (packet : PacketInfo)
    (ingress : Bool) :
    Ensures allowed (admitPacket frame packet ingress key) (fun result s' =>
      Admission allowed frame packet ingress key record s s' result) s := by
  refine wp_seq (ensures_enterFlowPacket hrecord hactive) fun entered s₁ ⟨hchecked, h⟩ => ?_
  rcases h with ⟨rfl, hwhy, hinflight⟩ | ⟨rfl, hthawed, count, hcount, hinflight⟩
  · exact .refused hwhy hchecked hinflight
  · refine ensures_ktime fun c _ => ?_
    have hrecord₁ : s₁.find .flowState key = some record := (hchecked.state key).trans hrecord
    refine wp_seq (ensures_updateState hrecord₁ packet ingress c.now) fun _ s₂ ⟨write, hs₂⟩ => ?_
    subst hs₂
    have hcount₂ : (s₁.put .flowState key (write.apply record)).find .packetInflight key =
        some (count + 1) := by
      rw [Maps.find_put_of_ne _ _ _ (by decide), hinflight, if_pos rfl]
    refine ensures_lookup ?_
    rw [hcount₂]
    refine ensures_inflightAdd hcount₂ (.admitted write hthawed hchecked ?_ ?_ ?_)
    · intro key'
      rw [Maps.find_put, Maps.find_put_of_ne _ _ _ (by decide), hinflight]
      split
      · rename_i h
        have hcancel : count + 1 + -1 = count := Int.add_neg_cancel_right count 1
        rw [h, hcount, hcancel]
      · rfl
    · exact fun m hstate hinflight => (same_put_of_ne _ hstate _ _).trans (same_put_of_ne _ hinflight _ _)
    · intro key'
      rw [Maps.find_put_of_ne _ _ _ (by decide), Maps.find_put, hchecked.state key']

end Admission

end ShadowSocketProxy.Alone
