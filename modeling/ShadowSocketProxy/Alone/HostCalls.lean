import ShadowSocketProxy.Alone.Creation
import ShadowSocketProxy.ControlService.Adapter

/-! # Map calls of the host, run alone

One rule for each map call of the adapter. A call may fail when a fault is allowed; what holds only
without faults is stated behind `Faulty`. -/

namespace ShadowSocketProxy.Alone

open Interleaving Bpf ControlService
open Interleaving.Machine (wp_mono wp_seq wp_seqE)

variable {allowed : Choice → Prop} {s : Maps}

/-- Some map call of the host may fail. -/
def Faulty (allowed : Choice → Prop) : Prop := ∃ c, allowed c ∧ c.fault = true

/-- No map call of the host fails. -/
abbrev Faultless (c : Choice) : Prop := c.fault = false

theorem not_faulty_faultless : ¬ Faulty Faultless := by
  rintro ⟨c, hfaultless, hfault⟩
  rw [hfaultless] at hfault
  cases hfault

/-- Every program has a `Faultless` run. -/
theorem exists_returns_faultless {α : Type} (p : Prog α) (s : Maps) :
    ∃ r s', machine.Returns Faultless p s r s' :=
  Machine.exists_returns fun op s => ⟨{}, rfl, isSome_exec {} op s⟩

section Calls

variable {m : MapId} {key : m.Key} {β α : Type} {Q : Except BackendError β → Maps → Prop}
  {p : Host α} {f : Except BackendError α → Host β} {R : Except BackendError α → Maps → Prop}
  {value : m.Val} {flag : UpdateFlag}

/-- `attempt` runs a call whose failure is no failure of the caller. -/
theorem wp_attempt {M : Machine Op Resp Maps Choice} (hp : M.wp allowed p.run R s)
    (hf : ∀ r s', R r s' → M.wp allowed (f r).run Q s') :
    M.wp allowed (attempt p >>= f).run Q s := by
  refine wp_seqE (R := fun r s' => ∃ r', r = .ok r' ∧ R r' s') ?_ (fun r s' h => ?_)
    fun e s' h => ?_
  · rw [run_attempt]
    exact wp_seq hp fun r s' h => ⟨r, rfl, h⟩
  · obtain ⟨r', hr, h⟩ := h
    cases hr
    exact hf r s' h
  · obtain ⟨r', hr, -⟩ := h
    cases hr

theorem ensures_attempt (hp : Ensures allowed p.run R s)
    (hf : ∀ r s', R r s' → Ensures allowed (f r).run Q s') :
    Ensures allowed (attempt p >>= f).run Q s :=
  wp_attempt hp hf

theorem ensures_getOption :
    Ensures allowed (getOption m key).run (fun r s' => s' = s ∧
      (r = .ok (s.find m key) ∨ Faulty allowed ∧ ∃ e, r = .error e)) s := by
  intro c resp s' hc hexec
  have hexec : exec c (.hostGet m key) s = some (resp, s') := hexec
  simp only [exec, hostCall] at hexec
  split at hexec
  · rename_i hfault
    cases hexec
    exact ⟨rfl, .inr ⟨⟨c, hc, hfault⟩, _, rfl⟩⟩
  · split at hexec
    all_goals
      rename_i hfind
      cases hexec
      exact ⟨rfl, .inl (by rw [hfind])⟩

/-- A `getOption` that the rest depends on. -/
theorem ensures_getThen {f : Option m.Val → Host β}
    (hok : Ensures allowed (f (s.find m key)).run Q s)
    (herror : Faulty allowed → ∀ e, Q (.error e) s) :
    Ensures allowed (getOption m key >>= f).run Q s := by
  refine wp_seqE ensures_getOption (fun value s' h => ?_) fun e s' h => ?_
  · obtain ⟨rfl, hvalue | ⟨-, e, he⟩⟩ := h
    · rw [Except.ok.inj hvalue]
      exact hok
    · cases he
  · obtain ⟨rfl, he | ⟨hfaulty, -⟩⟩ := h
    · cases he
    · exact herror hfaulty e

theorem ensures_insertKey :
    Ensures allowed (insertKey m key value flag).run (fun r s' =>
      (r = .ok () ∧ s' = s.put m key value) ∨
      (∃ e, r = .error e) ∧ s' = s ∧ (Faulty allowed ∨ flag.refuses (s.find m key).isSome = true))
      s := by
  intro c resp s' hc hexec
  have hexec : exec c (.hostInsert m key value flag) s = some (resp, s') := hexec
  simp only [exec, hostCall] at hexec
  split at hexec
  · rename_i hfault
    cases hexec
    exact .inr ⟨⟨_, rfl⟩, rfl, .inl ⟨c, hc, hfault⟩⟩
  · split at hexec
    · rename_i hrefused
      cases hexec
      exact .inr ⟨⟨_, rfl⟩, rfl, .inr hrefused⟩
    · cases hexec
      exact .inl ⟨rfl, rfl⟩

/-- An `insertKey` that the rest depends on. -/
theorem ensures_insertThen {f : Unit → Host β}
    (hok : Ensures allowed (f ()).run Q (s.put m key value))
    (herror : Faulty allowed ∨ flag.refuses (s.find m key).isSome = true → ∀ e, Q (.error e) s) :
    Ensures allowed (insertKey m key value flag >>= f).run Q s := by
  refine wp_seqE ensures_insertKey (fun _ s' h => ?_) fun e s' h => ?_
  · rcases h with ⟨-, rfl⟩ | ⟨⟨e, he⟩, -⟩
    · exact hok
    · cases he
  · rcases h with ⟨he, -⟩ | ⟨-, rfl, hwhy⟩
    · cases he
    · exact herror hwhy e

/-- An entry is gone, and nothing else has changed. -/
structure Dropped (m : MapId) (key : m.Key) (s s' : Maps) : Prop where
  find : ∀ key', s'.find m key' = if key' = key then none else s.find m key'
  others : ∀ m', m' ≠ m → Same s s' m'

theorem dropped_remove : Dropped m key s (s.remove m key) :=
  ⟨fun key' => Maps.find_remove s m key key', fun _ h => same_remove_of_ne s h key⟩

theorem dropped_of_none (h : s.find m key = none) : Dropped m key s s := by
  refine ⟨fun key' => ?_, fun m' _ => Same.refl s m'⟩
  split
  · rename_i heq
    rw [heq, h]
  · rfl

theorem ensures_removeKey_eq :
    Ensures allowed (removeKey m key).run (fun r s' =>
      (r = .ok () ∧ s' = s.remove m key ∧ (s.find m key).isSome) ∨
      (∃ e, r = .error e) ∧ s' = s ∧ (Faulty allowed ∨ s.find m key = none)) s := by
  intro c resp s' hc hexec
  have hexec : exec c (.hostRemove m key) s = some (resp, s') := hexec
  simp only [exec, hostCall] at hexec
  split at hexec
  · rename_i hfault
    cases hexec
    exact .inr ⟨⟨_, rfl⟩, rfl, .inl ⟨c, hc, hfault⟩⟩
  · split at hexec
    · rename_i hsome
      cases hexec
      exact .inl ⟨rfl, rfl, hsome⟩
    · rename_i hnone
      cases hexec
      exact .inr ⟨⟨_, rfl⟩, rfl, .inr (Option.not_isSome_iff_eq_none.mp hnone)⟩

theorem ensures_removeKey :
    Ensures allowed (removeKey m key).run (fun r s' =>
      (r = .ok () ∧ Dropped m key s s') ∨
      (∃ e, r = .error e) ∧ s' = s ∧ (Faulty allowed ∨ s.find m key = none)) s := by
  refine wp_mono ensures_removeKey_eq fun r s' h => h.imp_left ?_
  rintro ⟨hok, rfl, -⟩
  exact ⟨hok, dropped_remove⟩

/-- A `removeKey` that the rest depends on. -/
theorem ensures_removeThen {f : Unit → Host β}
    (hok : ∀ s', Dropped m key s s' → Ensures allowed (f ()).run Q s')
    (herror : Faulty allowed ∨ s.find m key = none → ∀ e, Q (.error e) s) :
    Ensures allowed (removeKey m key >>= f).run Q s := by
  refine wp_seqE ensures_removeKey (fun _ s' h => ?_) fun e s' h => ?_
  · rcases h with ⟨-, h⟩ | ⟨⟨e, he⟩, -⟩
    · exact hok s' h
    · cases he
  · rcases h with ⟨he, -⟩ | ⟨-, rfl, hwhy⟩
    · cases he
    · exact herror hwhy e

/-- Behind `removeKey` without faults the entry is gone, whatever is returned. -/
theorem ensures_gone :
    Ensures allowed (removeKey m key).run (fun _ s' =>
      Dropped m key s s' ∨ Faulty allowed ∧ s' = s) s := by
  refine wp_mono ensures_removeKey fun r s' h => ?_
  rcases h with ⟨-, h⟩ | ⟨-, rfl, hfaulty | hnone⟩
  · exact .inl h
  · exact .inr ⟨hfaulty, rfl⟩
  · exact .inl (dropped_of_none hnone)

theorem ensures_removeIfPresent :
    Ensures allowed (removeIfPresent m key).run (fun _ s' =>
      Dropped m key s s' ∨ Faulty allowed ∧ s' = s) s := by
  intro c resp s' hc hexec
  exact (ensures_gone : Ensures allowed (removeKey m key).run _ s) c resp s' hc hexec

theorem ensures_iterate {f : List (m.Key × m.Val) → Host β}
    (hok : Ensures allowed (f (s.tables m).pairs).run Q s)
    (herror : Faulty allowed → ∀ error, Q (.error (mapError error)) s) :
    Ensures allowed (iterate m >>= f).run Q s := by
  intro c resp s' hc hexec
  have hexec : exec c (.hostIter m) s = some (resp, s') := hexec
  simp only [exec, hostCall] at hexec
  split at hexec
  · rename_i hfault
    cases hexec
    exact herror ⟨c, hc, hfault⟩ _
  · cases hexec
    exact hok

theorem ensures_hostNow {f : UInt64 → Host β}
    (h : ∀ c, allowed c → Ensures allowed (f c.now).run Q s) :
    Ensures allowed ((ExceptT.lift (perform .hostNow) : Host UInt64) >>= f).run Q s := by
  intro c resp s' hc hexec
  cases hexec
  exact h c hc

end Calls

end ShadowSocketProxy.Alone
