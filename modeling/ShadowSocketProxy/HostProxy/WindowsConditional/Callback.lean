import ShadowSocketProxy.HostProxy.WindowsConditional.Releases

/-! # Conditional accept: the slot and the callback

What the coordinator does under the lock of the slot: it takes attempts out, publishes what the worker
reports, and answers in `condition_callback`. The callback accepts for the attempt in the slot only, once a
handoff is reserved and the attempt is claimed. -/

namespace ShadowSocketProxy.HostProxy.WindowsConditional

open Interleaving

/-- What has happened has happened, and a result that the coordinator has received is still its own. -/
structure Recalls (s s' : ConditionalContext) : Prop extends Remembers s s' where
  received : ∀ socket, s.fates.find? socket = some .received → s'.fates.find? socket = some .received

theorem Recalls.trans {s s' s'' : ConditionalContext} (h : Recalls s s') (h' : Recalls s' s'') :
    Recalls s s'' :=
  ⟨h.toRemembers.trans h'.toRemembers,
    fun socket hreceived => h'.received socket (h.received socket hreceived)⟩

theorem Around.recalls {s s' : ConditionalContext} (hs : Around .coordinator s s') : Recalls s s' :=
  ⟨hs.toRemembers, hs.received rfl⟩

/-- A result that the coordinator has received: the worker has connected its socket, and nothing has been
decided about it. -/
def Received (s : ConditionalContext) (result : WorkerResult) : Prop :=
  ∀ id prepared, result = .ready id prepared →
    Backed s id prepared ∧ s.fates.find? prepared.socket = some .received

theorem Received.recalls {s s' : ConditionalContext} {result : WorkerResult} (h : Received s result)
    (hs : Recalls s s') : Received s' result := by
  intro id prepared hresult
  obtain ⟨hbacked, hreceived⟩ := h id prepared hresult
  exact ⟨hbacked.remembers hs.toRemembers, hs.received _ hreceived⟩

/-- The coordinator has taken out what stood in the slot, if anything; else the flag is settled. -/
structure Removed (taken : Option AttemptSlot) (locked : Prop) (s : ConditionalContext) : Prop
    extends View .coordinator taken none locked s where
  settled : taken = none → Settled s
  unreleased : ∀ slot, taken = some slot → slot.attempt.released = false

section Removed

variable {taken : Option AttemptSlot} {locked : Prop} {s s' : ConditionalContext}

theorem Removed.around (h : Removed taken locked s) (hs : Around .coordinator s s') :
    Removed taken locked s' :=
  ⟨h.toView.around hs, fun htaken => (h.settled htaken).keeps hs.toKeeps, h.unreleased⟩

theorem Removed.lock (h : Removed taken locked s) :
    Removed taken True { s with guard := some .coordinator } :=
  ⟨h.toView.lock, h.settled, h.unreleased⟩

theorem Removed.unlock (h : Removed taken locked s) : Removed taken False { s with guard := none } :=
  ⟨h.toView.unlock, h.settled, h.unreleased⟩

theorem Removed.guarded (h : Removed taken True s) : s.guard = some .coordinator := h.guard.mpr trivial

theorem Removed.idle (h : Removed none False s) : Idle .coordinator s := ⟨h.toView, fun _ => h.settled rfl⟩

theorem Idle.removed (h : Idle .coordinator s) : Removed none False s :=
  ⟨h.toView, fun _ => h.settled rfl, fun _ hslot => (by cases hslot)⟩

end Removed

/-- If an attempt is in the slot, it is one for the given client. -/
def Accepted (tuple : SocketTuple) (s : ConditionalContext) : Prop :=
  ∀ slot, s.attempt = some slot → slot.attempt.id.tuple = tuple

/-- An attempt in the slot has been there. -/
theorem Around.attempt {s s' : ConditionalContext} (hs : Around .coordinator s s') {slot : AttemptSlot}
    (hslot : s'.attempt = some slot) : s.attempt = some slot := by
  rcases hs.slot rfl with hsame | ⟨hnone, -⟩
  · exact hsame.symm.trans hslot
  · rw [hnone] at hslot
    cases hslot

theorem Accepted.around {tuple : SocketTuple} {s s' : ConditionalContext} (h : Accepted tuple s)
    (hs : Around .coordinator s s') : Accepted tuple s' :=
  fun slot hslot => h slot (hs.attempt hslot)

/-- `Settled` with a reserved handoff and no claimed attempt: everything is being ended. -/
theorem Settled.ended {s : ConditionalContext} (h : Settled s)
    (hslot : ∀ slot, s.attempt = some slot → slot.attempt.state ≠ .claimed)
    (hreserved : s.handoffReserved = true) : s.accepting = false := by
  rcases h hreserved with hended | ⟨slot, hattempt, hclaimed⟩
  · exact hended
  · exact absurd hclaimed (hslot slot hattempt)

/-- `Removed` with the slot written while no claimed attempt in it stands for a reserved handoff. -/
theorem Removed.write {s : ConditionalContext} (h : Removed none True s) (attempt : Option AttemptSlot)
    (fates : Table Nat Fate) (hended : s.handoffReserved = true → s.accepting = false) :
    Removed none True { s with attempt := attempt, fates := fates } :=
  ⟨⟨{ h.toHolds with }, h.ended⟩, fun _ hreserved => .inl (hended hreserved), h.unreleased⟩

section Coordinator

variable {trusted : Prop} {results : Nat}
  {callbacks : List (Option (List UInt8) × Option (List UInt8))} {s : ConditionalContext}
  {tuple : SocketTuple} {β : Type} {Q : β → ConditionalContext → Prop} {generation : UInt64}
  {slot : AttemptSlot} {f : Unit → Prog β}

/-! ## Taking an attempt out -/

/-- The coordinator takes the slot. -/
theorem meets_takeSlot_coordinator {f : Option AttemptSlot → Prog β} (h : Removed none True s)
    (hf : ∀ s', Removed s.attempt True s' → Recalls s s' →
      Meets trusted (.coordinate results callbacks) (f s.attempt) Q s') :
    Meets trusted (.coordinate results callbacks) (AcceptOp.take (.takeSlot .coordinator) >>= f) Q s := by
  refine meets_takeSlot rfl h.guarded h.hands (fun hparty => absurd rfl hparty)
    fun s₁ hands hs hledger hhands => ?_
  have hattempt : s₁.attempt = s.attempt := (hs.held h.guarded).1
  rw [hattempt]
  refine hf _ ⟨⟨{ (h.around hs).toHolds with hands := hhands.trans hattempt }, (h.around hs).ended⟩,
    fun hnone hreserved => ?_, fun slot hslot => ?_⟩ { hs.recalls with }
  · -- nothing was in the slot, so nothing was claimed
    refine .inl (((h.around hs).settled rfl).ended (fun slot hslot => ?_) hreserved)
    rw [hattempt, hnone] at hslot
    cases hslot
  · exact hledger.unreleased slot (hattempt.trans hslot)

/-- `rejectTaken`: the coordinator rejects what it took out. -/
theorem meets_rejectTaken {taken : Option AttemptSlot} (h : Removed taken False s) :
    Meets trusted (.coordinate results callbacks) (rejectTaken .coordinator taken)
      (fun _ s' => Idle .coordinator s') s := by
  cases taken with
  | none => exact h.idle
  | some slot =>
    refine Contract.meets_mono
      (meets_rejectAndRelease rfl h.hands (h.unreleased slot rfl) h.transit) ?_
    rintro - s' ⟨hs, hhand, hreserved⟩
    refine ⟨h.toView.keeps hs hhand, fun _ htrue => ?_⟩
    rw [hreserved (.inl rfl)] at htrue
    cases htrue

/-- The coordinator gives up the lock. -/
theorem meets_unlock_coordinator {taken : Option AttemptSlot} (h : Removed taken True s)
    (hf : ∀ s', Removed taken False s' → Recalls s s' →
      Meets trusted (.coordinate results callbacks) (f ()) Q s') :
    Meets trusted (.coordinate results callbacks)
      (AcceptOp.take (.unlock .coordinator .other) >>= f) Q s :=
  meets_unlock h.guarded trivial fun s₁ hs =>
    hf { s₁ with guard := none } (h.around hs).unlock { hs.recalls with }

/-- The coordinator takes the lock. -/
theorem meets_lock_coordinator (h : Idle .coordinator s)
    (hf : ∀ s', Removed none True s' → Recalls s s' →
      (∀ slot, s'.attempt = some slot → s.attempt = some slot) →
      Meets trusted (.coordinate results callbacks) (f ()) Q s') :
    Meets trusted (.coordinate results callbacks) (AcceptOp.take (.lock .coordinator) >>= f) Q s :=
  meets_lock h fun s₁ hs =>
    hf { s₁ with guard := some .coordinator } (h.removed.around hs).lock { hs.recalls with }
      fun _ hslot => hs.attempt hslot

/-- An operation of the coordinator under the lock: the slot is as it was. -/
theorem meets_locked {op : AcceptOp} {f : op.Resp → Prog β} (hpauses : op.pauses = false)
    (hop : op.party = some .coordinator) (hguard : s.guard = some .coordinator)
    (hf : ∀ s₁, Around .coordinator s s₁ → s₁.attempt = s.attempt → s₁.accepting = s.accepting →
      Backing s₁ → Knows trusted s₁ op ∧ ∀ c resp s₂, op.exec c s₁ = some (resp, s₂) →
        Meets trusted (.coordinate results callbacks) (f resp) Q s₂) :
    Meets trusted (.coordinate results callbacks) (op.take >>= f) Q s := by
  refine meets_take hpauses (fun party hparty => ?_) fun s₁ hs hinv => ?_
  · rw [hop] at hparty
    exact (Option.some.inj hparty).symm
  · obtain ⟨hattempt, haccepting⟩ := hs.held hguard
    exact hf s₁ hs hattempt haccepting hinv.backing

/-- The coordinator reads the slot under the lock. -/
theorem meets_readSlot_coordinator
    {f : Option (ConditionalRequestId × ConditionalAttemptState) → Prog β}
    (h : Removed none True s)
    (hf : ∀ s', Removed none True s' → Recalls s s' → s'.attempt = s.attempt → Backing s' →
      Meets trusted (.coordinate results callbacks)
        (f (s'.attempt.map fun slot => (slot.attempt.id, slot.attempt.state))) Q s') :
    Meets trusted (.coordinate results callbacks)
      (AcceptOp.take (.readSlot .coordinator) >>= f) Q s := by
  refine meets_locked rfl rfl h.guarded fun s₁ hs hattempt _ hbacking =>
    ⟨(h.around hs).guarded, fun c resp s₂ hexec => ?_⟩
  cases hexec
  exact hf s₁ (h.around hs) hs.recalls hattempt hbacking

/-- `takeClaimed` takes the slot if its attempt was claimed in a generation. -/
theorem meets_takeClaimed (h : Idle .coordinator s) :
    Meets trusted (.coordinate results callbacks) (takeClaimed generation)
      (fun taken s' => Removed taken False s' ∧
        ∀ slot, taken = some slot → s.attempt = some slot ∧ slot ∈ s'.claims) s := by
  refine meets_lock_coordinator h fun s₁ h₁ _ hslot₁ => ?_
  refine meets_readSlot_coordinator h₁ fun s₂ h₂ _ hslot₂ hbacking => ?_
  unfold takeIf
  split
  · rename_i hclaimed
    refine meets_takeSlot_coordinator h₂ fun s₃ h₃ hs₃ => ?_
    refine meets_unlock_coordinator h₃ fun s₄ h₄ hs₄ => ⟨h₄, fun slot hslot => ⟨?_, ?_⟩⟩
    · exact hslot₁ slot (hslot₂.symm.trans hslot)
    · -- a claimed attempt stands among the claims
      simp only [claimedIn, hslot, Option.map_some, Option.any_some, Bool.and_eq_true,
        decide_eq_true_iff] at hclaimed
      exact hs₄.claims _ (hs₃.claims _ (hbacking.claimed slot hslot hclaimed.2))
  · refine meets_unlock_coordinator h₂ fun s₄ h₄ _ => ⟨h₄, fun slot hslot => ?_⟩
    cases hslot

theorem meets_rejectClaimedGeneration (h : Idle .coordinator s) :
    Meets trusted (.coordinate results callbacks) (rejectClaimedGeneration generation)
      (fun _ s' => Idle .coordinator s') s :=
  Contract.meets_seq (meets_takeClaimed h) fun _ _ h' => meets_rejectTaken h'.1

theorem meets_rejectActiveAttempt (h : Idle .coordinator s) :
    Meets trusted (.coordinate results callbacks) rejectActiveAttempt
      (fun _ s' => Idle .coordinator s') s := by
  refine meets_lock_coordinator h fun s₁ h₁ _ _ => ?_
  refine meets_takeSlot_coordinator h₁ fun s₂ h₂ _ => ?_
  exact meets_unlock_coordinator h₂ fun s₃ h₃ _ => meets_rejectTaken h₃

theorem meets_rejectTerminalAttempt (h : Idle .coordinator s) :
    Meets trusted (.coordinate results callbacks) rejectTerminalAttempt
      (fun _ s' => Idle .coordinator s') s := by
  refine meets_lock_coordinator h fun s₁ h₁ _ _ => ?_
  refine meets_readSlot_coordinator h₁ fun s₂ h₂ _ _ _ => ?_
  refine meets_unlock_coordinator h₂ fun s₃ h₃ _ => ?_
  split
  · exact meets_rejectActiveAttempt h₃.idle
  · exact h₃.idle

/-! ## Results of the worker -/

/-- `setState` writes a state into the slot. -/
theorem meets_setState {state : ConditionalAttemptState} (h : Removed none True s)
    (hstate : state ≠ .ready ∧ state ≠ .claimed)
    (hended : s.handoffReserved = true → s.accepting = false)
    (hf : ∀ s', Removed none True s' → Meets trusted (.coordinate results callbacks) (f ()) Q s') :
    Meets trusted (.coordinate results callbacks) (AcceptOp.take (.setState state) >>= f) Q s := by
  refine meets_locked rfl rfl h.guarded fun s₁ hs _ haccepting _ => ?_
  have h₁ := h.around hs
  refine ⟨⟨h₁.guarded, hstate⟩, fun c resp s₂ hexec => ?_⟩
  cases hexec
  exact hf _ (h₁.write _ s₁.fates fun hreserved =>
    haccepting.trans (hended (hs.reserved (.inl rfl) hreserved)))

/-- `publishResult` puts a result into the slot of its deferred attempt. -/
theorem meets_publishResult {result : WorkerResult} (h : Removed none True s)
    (hslot : s.attempt = some slot) (hid : slot.attempt.id = result.id)
    (hstate : slot.attempt.state = .deferred) (hreceived : Received s result) :
    Meets trusted (.coordinate results callbacks) (publishResult result)
      (fun _ s' => Idle .coordinator s') s := by
  -- a deferred attempt is not a claimed one
  have hunclaimed : ∀ other, s.attempt = some other → other.attempt.state ≠ .claimed := by
    intro other hother
    rw [← Option.some.inj (hslot.symm.trans hother), hstate]
    exact ConditionalAttemptState.noConfusion
  have hended := (h.settled rfl).ended hunclaimed
  cases result with
  | rejected id error =>
    refine meets_setState h ⟨by decide, by decide⟩ hended fun s₁ h₁ => ?_
    exact meets_unlock_coordinator h₁ fun s₂ h₂ _ => h₂.idle
  | ready id prepared =>
    refine meets_locked rfl rfl h.guarded fun s₁ hs₁ hattempt haccepting _ => ?_
    have h₁ := h.around hs₁
    refine ⟨?_, fun c resp s₂ hexec => ?_⟩
    · obtain ⟨hbacked, hfate⟩ := hreceived.recalls hs₁.recalls id prepared rfl
      exact ⟨h₁.guarded, hbacked, hfate, slot, hattempt.trans hslot, hid, hstate⟩
    cases hexec
    have hended₁ : s₁.handoffReserved = true → s₁.accepting = false :=
      fun hreserved => haccepting.trans (hended (hs₁.reserved (.inl rfl) hreserved))
    have h₂ := h₁.write (s₁.attempt.map fun slot => { slot with prepared := some prepared })
      (s₁.fates.insert prepared.socket .stored) hended₁
    refine meets_locked rfl rfl h₂.guarded fun s₃ hs₃ hattempt₃ haccepting₃ _ => ?_
    have h₃ := h₂.around hs₃
    refine ⟨⟨h₃.guarded, fun other hother => ?_⟩, fun c resp s₄ hexec => ?_⟩
    · rw [hattempt₃, hattempt, hslot] at hother
      cases hother
      rfl
    have hended₃ : s₃.handoffReserved = true → s₃.accepting = false :=
      fun hreserved => haccepting₃.trans (hended₁ (hs₃.reserved (.inl rfl) hreserved))
    rw [hattempt, hslot] at hattempt₃
    simp only [AcceptOp.exec, hattempt₃, Option.map_some, hstate, if_true] at hexec
    cases hexec
    exact meets_unlock_coordinator (h₃.write _ s₃.fates hended₃) fun s₅ h₅ _ => h₅.idle

/-- `apply_worker_result` leaves nothing behind. -/
theorem meets_applyWorkerResult {result : WorkerResult} (h : Idle .coordinator s)
    (hreceived : Received s result) :
    Meets trusted (.coordinate results callbacks) (applyWorkerResult result)
      (fun _ s' => Idle .coordinator s') s := by
  refine meets_lock_coordinator h fun s₁ h₁ hs₁ _ => ?_
  refine meets_readSlot_coordinator h₁ fun s₂ h₂ hs₂ _ _ => ?_
  split
  · rename_i hcurrent
    obtain ⟨slot, hslot, hpair⟩ := Option.map_eq_some_iff.mp hcurrent
    exact meets_publishResult h₂ hslot (congrArg Prod.fst hpair) (congrArg Prod.snd hpair)
      (hreceived.recalls (hs₁.trans hs₂))
  · refine meets_unlock_coordinator h₂ fun s₃ h₃ hs₃ => ?_
    have hreceived₃ := hreceived.recalls ((hs₁.trans hs₂).trans hs₃)
    refine meets_take (f := Program.ret) rfl (fun _ h => (Option.some.inj h).symm) fun s₄ hs₄ _ =>
      ⟨fun id prepared hresult => ?_, fun c resp s₅ hexec => ?_⟩
    · exact (hreceived₃.recalls hs₄.recalls id prepared hresult).2
    · cases hexec
      have h₄ := h₃.idle.around hs₄
      exact ⟨⟨{ h₄.toHolds with }, h₄.ended⟩, h₄.settled⟩

/-! ## The callback -/

/-- What the callback leaves: nothing, and if it accepts, an attempt in the slot is for its client. -/
def Answered (tuple : SocketTuple) (answer : Answer) (s : ConditionalContext) : Prop :=
  Idle .coordinator s ∧ (answer = .accept → Accepted tuple s)

/-- `answerLocked`: the callback returns. -/
theorem meets_answerLocked {answer : Answer} (h : Removed none True s)
    (hfits : (Unlock.answer tuple answer).Fits s)
    (haccepted : answer = .accept → Accepted tuple s) :
    Meets trusted (.coordinate results callbacks) (answerLocked tuple answer) (Answered tuple) s :=
  meets_unlock h.guarded hfits fun _ hs =>
    ⟨(h.around hs).unlock.idle, fun haccept slot hslot => (haccepted haccept).around hs slot hslot⟩

/-- `answerLocked` that does not accept. -/
theorem meets_answerLocked_reject (h : Removed none True s) :
    Meets trusted (.coordinate results callbacks) (answerLocked tuple .reject) (Answered tuple) s :=
  meets_answerLocked h trivial fun haccept => (by cases haccept)

theorem meets_rejectMarked {state : ConditionalAttemptState} (h : Removed none True s)
    (hstate : state ≠ .ready ∧ state ≠ .claimed)
    (hended : s.handoffReserved = true → s.accepting = false) :
    Meets trusted (.coordinate results callbacks) (rejectMarked tuple state) (Answered tuple) s :=
  meets_setState h hstate hended fun _ h' => meets_answerLocked_reject h'

/-- `claimReady` claims a ready attempt for its client. -/
theorem meets_claimReady (h : View .coordinator none none True s) (hslot : s.attempt = some slot)
    (htuple : slot.attempt.id.tuple = tuple) (hready : slot.attempt.state = .ready)
    (haccepting : s.accepting = true) :
    Meets trusted (.coordinate results callbacks) (claimReady tuple generation) (Answered tuple) s := by
  have hguard := h.guard.mpr trivial
  refine meets_locked rfl rfl hguard fun s₁ hs₁ hattempt₁ haccepting₁ _ =>
    ⟨hs₁.guard.mpr hguard, fun c resp s₂ hexec => ?_⟩
  have h₁ := h.around hs₁
  rw [hslot] at hattempt₁
  simp only [AcceptOp.exec, hattempt₁, hready, if_true] at hexec
  cases hexec
  have h₂ : Removed none True { s₁ with
      attempt := some (slot.withState .claimed), claims := slot.withState .claimed :: s₁.claims } :=
    ⟨⟨{ h₁.toHolds with }, h₁.ended⟩, fun _ _ => .inr ⟨_, rfl, rfl⟩, fun _ h => (by cases h)⟩
  refine meets_locked rfl rfl h₂.guarded fun s₃ hs₃ hattempt₃ haccepting₃ _ =>
    ⟨trivial, fun c resp s₄ hexec => ?_⟩
  cases hexec
  have h₃ := h₂.around hs₃
  refine meets_answerLocked ⟨⟨{ h₃.toHolds with }, h₃.ended⟩, h₃.settled, h₃.unreleased⟩ ?_ fun _ => ?_
  · exact ⟨haccepting₃.trans (haccepting₁.trans haccepting), _, hattempt₃, htuple, rfl⟩
  · intro other hother
    rw [← Option.some.inj (hattempt₃.symm.trans hother)]
    exact htuple

/-- `acceptReady`: a handoff is reserved for a ready attempt, or its client is rejected. -/
theorem meets_acceptReady (h : Removed none True s) (hslot : s.attempt = some slot)
    (htuple : slot.attempt.id.tuple = tuple) (hready : slot.attempt.state = .ready)
    (haccepting : s.accepting = true) :
    Meets trusted (.coordinate results callbacks) (acceptReady tuple generation) (Answered tuple) s := by
  -- no handoff is reserved yet: the attempt is not claimed, and nothing is being ended
  have hunreserved : s.handoffReserved = false := by
    refine Bool.eq_false_iff.mpr fun htrue => ?_
    have hended := (h.settled rfl).ended (fun other hother => ?_) htrue
    · rw [haccepting] at hended
      cases hended
    · rw [← Option.some.inj (hslot.symm.trans hother), hready]
      exact ConditionalAttemptState.noConfusion
  refine meets_locked rfl rfl h.guarded fun s₁ hs₁ hattempt₁ haccepting₁ _ => ?_
  have h₁ := h.around hs₁
  refine ⟨h₁.transit, fun c resp s₂ hexec => ?_⟩
  have hunreserved₁ : s₁.handoffReserved = false := hs₁.unreserved (.inl rfl) hunreserved
  simp only [AcceptOp.exec] at hexec
  split at hexec
  · cases hexec
    refine meets_rejectMarked h₁ ⟨by decide, by decide⟩ fun htrue => ?_
    rw [hunreserved₁] at htrue
    cases htrue
  · cases hexec
    refine meets_locked rfl rfl h₁.guarded fun s₃ hs₃ hattempt₃ haccepting₃ _ => ?_
    have htrue : s₃.accepting = true := haccepting₃.trans (haccepting₁.trans haccepting)
    refine ⟨⟨htrue, hs₃.unreserved (.inl rfl) hunreserved₁, ?_⟩, fun c resp s₄ hexec => ?_⟩
    · exact hs₃.transit.trans (Table.find?_insert_self ..)
    cases hexec
    -- until it is claimed, the attempt does not account for the flag
    refine meets_claimReady ⟨⟨?_, Table.find?_erase_self .., ?_, ?_⟩, fun hmem => ?_⟩
      (hattempt₃.trans (hattempt₁.trans hslot)) htuple hready htrue
    · exact hs₃.hands.trans h₁.hands
    · exact hs₃.carried.trans h₁.carried
    · exact hs₃.guard.trans h₁.guard
    · have hended := (h₁.ended (hs₃.stoppers.mp hmem)).1
      rw [haccepting₁, haccepting] at hended
      cases hended

/-- Whether anything is accepted is read under the lock. -/
theorem meets_loadAccepting {f : Bool → Prog β} (hguard : s.guard = some .coordinator)
    (hf : ∀ s', Around .coordinator s s' → s'.attempt = s.attempt →
      Meets trusted (.coordinate results callbacks) (f s'.accepting) Q s') :
    Meets trusted (.coordinate results callbacks) (AcceptOp.take .loadAccepting >>= f) Q s := by
  refine meets_take rfl (fun _ h => (by cases h)) fun s₁ hs _ => ⟨trivial, fun c resp s₂ hexec => ?_⟩
  cases hexec
  exact hf s₁ hs (hs.held hguard).1

/-- `answerAttempt` for the attempt in the slot. -/
theorem meets_answerAttempt (h : Removed none True s) (hslot : s.attempt = some slot) :
    Meets trusted (.coordinate results callbacks)
      (answerAttempt tuple slot.attempt.id slot.attempt.state) (Answered tuple) s := by
  unfold answerAttempt
  split
  · exact meets_answerLocked_reject h
  · rename_i htuple
    refine meets_loadAccepting h.guarded fun s₁ hs hattempt => ?_
    have h₁ := h.around hs
    split
    · rename_i haccepting
      cases hstate : slot.attempt.state with
      | deferred => exact meets_answerLocked h₁ trivial fun haccept => (by cases haccept)
      | ready =>
        exact meets_acceptReady h₁ (hattempt.trans hslot) (Decidable.not_not.mp htuple) hstate haccepting
      | claimed => exact meets_answerLocked_reject h₁
      | rejected => exact meets_answerLocked_reject h₁
      | cancelled => exact meets_answerLocked_reject h₁
    · rename_i hended
      exact meets_rejectMarked h₁ ⟨by decide, by decide⟩ fun _ => Bool.not_eq_true _ ▸ hended

/-- `deferInstalled`: a new attempt is left to the worker, or taken back. -/
theorem meets_deferInstalled (h : Removed none True s) :
    Meets trusted (.coordinate results callbacks) deferInstalled (Answered tuple) s := by
  refine meets_free rfl rfl (fun _ => trivial) fun sent s₁ hs => ?_
  have h₁ := h.around hs
  cases sent with
  | true =>
    refine meets_unlock_coordinator h₁ fun s₂ h₂ _ => ?_
    refine meets_free rfl rfl (fun _ => trivial) fun _ s₃ hs₃ => ?_
    exact ⟨h₂.idle.around hs₃, fun haccept => (by cases haccept)⟩
  | false =>
    refine meets_takeSlot_coordinator h₁ fun s₂ h₂ _ => ?_
    refine meets_unlock_coordinator h₂ fun s₃ h₃ _ => ?_
    refine Contract.meets_seq (meets_rejectTaken h₃) fun _ s₄ h₄ => ?_
    exact ⟨h₄, fun haccept => (by cases haccept)⟩

/-- `answerNew` for a client without an attempt. -/
theorem meets_answerNew (h : Removed none True s) (hslot : s.attempt = none) :
    Meets trusted (.coordinate results callbacks) (answerNew tuple) (Answered tuple) s := by
  refine meets_loadAccepting h.guarded fun s₁ hs hattempt => ?_
  have h₁ := h.around hs
  split
  · refine meets_locked rfl rfl h₁.guarded fun s₂ hs₂ hattempt₂ _ _ => ?_
    have h₂ := h₁.around hs₂
    refine ⟨h₂.hands, fun c resp s₃ hexec => ?_⟩
    simp only [AcceptOp.exec] at hexec
    split at hexec
    · cases hexec
      exact meets_answerLocked_reject h₂
    · cases hexec
      refine meets_locked rfl rfl h₂.guarded fun s₄ hs₄ hattempt₄ _ _ => ?_
      have hhand := hs₄.hands.trans (Table.find?_insert_self ..)
      refine ⟨⟨hs₄.guard.mpr h₂.guarded, ?_, _, hhand⟩, fun c resp s₅ hexec => ?_⟩
      · exact hattempt₄.trans (hattempt₂.trans (hattempt.trans hslot))
      obtain ⟨held, -, hpair⟩ := holding_eq_some hexec
      cases hpair
      -- no attempt was in the slot, so a reserved handoff means the end
      have hended := (h₂.settled rfl).ended fun other hother => by
        rw [hattempt₂, hattempt, hslot] at hother
        cases hother
      refine meets_deferInstalled ⟨⟨⟨Table.find?_erase_self .., ?_, ?_, ?_⟩, fun hmem => ?_⟩,
        fun _ hreserved => .inl ?_, fun _ h => (by cases h)⟩
      · exact hs₄.transit.trans h₂.transit
      · exact hs₄.carried.trans h₂.carried
      · exact hs₄.guard.trans h₂.guard
      · obtain ⟨haccepting, hreserved⟩ := h₂.ended (hs₄.stoppers.mp hmem)
        exact ⟨hs₄.accepting haccepting, hs₄.unreserved (.inl rfl) hreserved⟩
      · exact hs₄.accepting (hended (hs₄.reserved (.inl rfl) hreserved))
  · exact meets_answerLocked_reject h₁

/-- **`condition_callback`** leaves nothing behind, and accepts only for the attempt in the slot. -/
theorem meets_conditionCallback {callerId calleeId : Option (List UInt8)} (h : Idle .coordinator s) :
    Meets trusted (.coordinate results callbacks) (conditionCallback callerId calleeId)
      (fun answer s' => Idle .coordinator s' ∧ (answer = .accept → ∃ tuple,
        callbackTuple callerId calleeId = some tuple ∧ Accepted tuple s')) s := by
  unfold conditionCallback
  split
  · exact ⟨h, fun haccept => (by cases haccept)⟩
  · rename_i tuple htuple
    refine meets_take rfl (fun _ h => (Option.some.inj h).symm) fun s₁ hs _ =>
      ⟨trivial, fun c resp s₂ hexec => ?_⟩
    have h₁ := h.removed.around hs
    simp only [AcceptOp.exec] at hexec
    split at hexec
    · cases hexec
      refine Contract.meets_mono (Q := Answered tuple) ?_ fun answer s' hanswer =>
        ⟨hanswer.1, fun haccept => ⟨tuple, htuple, hanswer.2 haccept⟩⟩
      refine meets_readSlot_coordinator h₁.lock fun s₃ h₃ _ _ _ => ?_
      cases hslot : s₃.attempt with
      | none => exact meets_answerNew h₃ hslot
      | some slot => exact meets_answerAttempt h₃ hslot
    · cases hexec
      exact ⟨h₁.idle, fun haccept => (by cases haccept)⟩

end Coordinator

end ShadowSocketProxy.HostProxy.WindowsConditional
