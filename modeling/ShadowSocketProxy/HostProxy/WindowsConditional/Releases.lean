import ShadowSocketProxy.HostProxy.WindowsConditional.Sockets

/-! # Conditional accept: giving back

Rules for programs under the contract, and what the routines do that give back an attempt or a reserved
handoff, up to `stop_and_reject_pending`. Each is said by what it leaves under the name of its thread,
however the others move. -/

namespace ShadowSocketProxy.HostProxy.WindowsConditional

open Interleaving

/-- A program of a thread of `job` meets the contract. -/
abbrev Meets (trusted : Prop) (job : AcceptJob) {α : Type} (p : Prog α)
    (Q : α → ConditionalContext → Prop) (s : ConditionalContext) : Prop :=
  (acceptContract trusted).meets acceptMachine job p Q s

section Rules

variable {trusted : Prop} {job : AcceptJob} {β : Type} {op : AcceptOp} {f : op.Resp → Prog β}
  {Q : β → ConditionalContext → Prop} {s : ConditionalContext}

/-- **The rule `Meets` has for an operation.** -/
theorem meets_take (hpauses : op.pauses = false)
    (hparty : ∀ party, op.party = some party → party = job.party)
    (h : ∀ s₁, Around job.party s s₁ → Consistent s₁ → Knows trusted s₁ op ∧
      ∀ c resp s₂, op.exec c s₁ = some (resp, s₂) → Meets trusted job (f resp) Q s₂) :
    Meets trusted job (op.take >>= f) Q s := by
  intro s₁ hs hinv
  obtain ⟨hknows, hnext⟩ := h s₁ hs hinv
  refine ⟨⟨hparty, hknows, fun htrue => ?_⟩, fun c resp s₂ hexec _ _ => hnext c resp s₂ hexec⟩
  rw [hpauses] at htrue
  cases htrue

/-- The rule of an operation at which a thread has nothing in its hands. -/
theorem meets_pause (hidle : Idle job.party s) (hparty : ∀ party, op.party = some party → party = job.party)
    (h : ∀ s₁, Around job.party s s₁ → Consistent s₁ → Knows trusted s₁ op ∧
      ∀ c resp s₂, op.exec c s₁ = some (resp, s₂) → Meets trusted job (f resp) Q s₂) :
    Meets trusted job (op.take >>= f) Q s := by
  intro s₁ hs hinv
  obtain ⟨hknows, hnext⟩ := h s₁ hs hinv
  exact ⟨⟨hparty, hknows, fun _ => hidle.around hs⟩, fun c resp s₂ hexec _ _ => hnext c resp s₂ hexec⟩

/-- The rule of an operation that everyone may issue. -/
theorem meets_free (hpauses : op.pauses = false) (hop : op.party = none)
    (hknows : ∀ s, Knows trusted s op)
    (h : ∀ resp s', Around job.party s s' → Meets trusted job (f resp) Q s') :
    Meets trusted job (op.take >>= f) Q s := by
  refine meets_take hpauses (fun party hparty => ?_) fun s₁ hs hinv =>
    ⟨hknows s₁, fun c resp s₂ hexec => ?_⟩
  · rw [hop] at hparty
    cases hparty
  · refine h resp s₂ (hs.trans (around_of_exec hinv.once hexec ?_ (hknows s₁)))
    rw [hop]
    exact (Option.some_ne_none job.party).symm

end Rules

section Releases

variable {trusted : Prop} {job : AcceptJob} {s s' : ConditionalContext} {slot : AttemptSlot}

/-- What a thread does to its own hand is all that it changes. -/
theorem Keeps.of_hands (party : Party) (s : ConditionalContext) (hands : Table Party AttemptSlot)
    (pending : Int) : Keeps party s { s with hands := hands, pending := pending } :=
  { Keeps.refl party s with }

/-- `release` of an attempt that is held and not released yet. -/
theorem meets_release (hslot : s.hands.find? job.party = some slot)
    (hreleased : slot.attempt.released = false) :
    Meets trusted job (release job.party)
      (fun _ s' => Keeps job.party s s' ∧ s'.hands.find? job.party = none) s := by
  refine meets_take rfl (fun _ h => (Option.some.inj h).symm) fun s₁ hs _ =>
    ⟨trivial, fun c resp s₂ hexec => ?_⟩
  obtain ⟨held, hheld, hpair⟩ := holding_eq_some hexec
  obtain rfl : slot = held := Option.some.inj ((hs.hands.trans hslot).symm.trans hheld)
  cases hpair
  rw [hreleased]
  refine meets_take rfl (fun _ h => (Option.some.inj h).symm) fun s₃ hs' _ =>
    ⟨?_, fun c resp s₄ hexec => ?_⟩
  · exact ⟨_, hs'.hands.trans (Table.find?_insert_self ..)⟩
  · cases hexec
    refine ⟨?_, Table.find?_erase_self ..⟩
    exact hs.toKeeps.trans ((Keeps.of_hands ..).trans (hs'.toKeeps.trans (Keeps.of_hands ..)))

/-- `releaseHandoffReservation` gives a reserved handoff back, if there is one. -/
theorem meets_releaseHandoffReservation (hstops : job.party.stops = true)
    (htransit : s.transit.find? job.party = none) :
    Meets trusted job (releaseHandoffReservation job.party)
      (fun _ s' => Around job.party s s' ∧
        (job.party = .coordinator ∨ s.accepting = false → s'.handoffReserved = false)) s := by
  refine meets_take rfl (fun _ h => (Option.some.inj h).symm) fun s₁ hs _ =>
    ⟨⟨hstops, hs.transit.trans htransit⟩, fun c resp s₂ hexec => ?_⟩
  simp only [AcceptOp.exec] at hexec
  split at hexec
  · cases hexec
    refine meets_take rfl (fun _ h => (Option.some.inj h).symm) fun s₃ hs' _ =>
      ⟨?_, fun c resp s₄ hexec => ?_⟩
    · exact hs'.transit.trans (Table.find?_insert_self ..)
    · cases hexec
      -- the flag was cleared, and nobody sets it under these conditions
      have hfalse : job.party = .coordinator ∨ s₁.accepting = false → s₃.handoffReserved = false :=
        fun hwhen => hs'.unreserved hwhen rfl
      refine ⟨hs.trans { hs' with transit := ?_, reserved := fun hwhen htrue => ?_ },
        fun hwhen => hfalse (hwhen.imp id hs.accepting)⟩
      · rw [hs.transit, htransit]
        exact Table.find?_erase_self ..
      · rw [hfalse hwhen] at htrue
        cases htrue
  · rename_i hfalse
    cases hexec
    exact ⟨hs, fun _ => Bool.not_eq_true _ ▸ hfalse⟩

/-- The state of a held attempt is written. -/
theorem meets_setHeldState {state : ConditionalAttemptState} {β : Type} {f : Unit → Prog β}
    {Q : β → ConditionalContext → Prop} (hslot : s.hands.find? job.party = some slot)
    (h : ∀ s', Keeps job.party s s' → s'.hands.find? job.party = some (slot.withState state) →
      Meets trusted job (f ()) Q s') :
    Meets trusted job (AcceptOp.take (.setHeldState job.party state) >>= f) Q s := by
  refine meets_take rfl (fun _ h => (Option.some.inj h).symm) fun s₁ hs _ =>
    ⟨trivial, fun c resp s₂ hexec => ?_⟩
  obtain ⟨held, hheld, hpair⟩ := holding_eq_some hexec
  obtain rfl : slot = held := Option.some.inj ((hs.hands.trans hslot).symm.trans hheld)
  cases hpair
  exact h _ (hs.toKeeps.trans (Keeps.of_hands ..)) (Table.find?_insert_self ..)

/-- What `reject_and_release` and its likes leave: the hand is empty and nothing is reserved. -/
theorem meets_rejectAndRelease {state : ConditionalAttemptState} (hstops : job.party.stops = true)
    (hslot : s.hands.find? job.party = some slot) (hreleased : slot.attempt.released = false)
    (htransit : s.transit.find? job.party = none) :
    Meets trusted job (rejectAndRelease job.party state)
      (fun _ s' => Keeps job.party s s' ∧ s'.hands.find? job.party = none ∧
        (job.party = .coordinator ∨ s.accepting = false → s'.handoffReserved = false)) s := by
  refine meets_setHeldState hslot fun s₁ hs hslot' => ?_
  refine Contract.meets_seq
    (meets_releaseHandoffReservation hstops (hs.transit.trans htransit)) fun _ s₂ ⟨hs', hreserved⟩ => ?_
  refine Contract.meets_mono (meets_release (hs'.hands.trans hslot') hreleased) fun _ s₃ ⟨hs'', hhand⟩ => ?_
  refine ⟨hs.trans (hs'.toKeeps.trans hs''), hhand, fun hwhen => ?_⟩
  have hwhen' := hwhen.imp id hs.accepting
  exact hs''.unreserved (hwhen'.imp id hs'.accepting) (hreserved hwhen')

/-- `cancelTaken` of what was taken out of the slot. -/
theorem meets_cancelTaken {taken : Option AttemptSlot} (htaken : s.hands.find? job.party = taken)
    (hreleased : ∀ slot, taken = some slot → slot.attempt.released = false) :
    Meets trusted job (cancelTaken job.party taken)
      (fun _ s' => Keeps job.party s s' ∧ s'.hands.find? job.party = none) s := by
  cases taken with
  | none => exact ⟨.refl .., htaken⟩
  | some slot =>
    refine meets_setHeldState htaken fun s₁ hs hslot => ?_
    refine Contract.meets_mono (meets_release hslot (hreleased slot rfl)) fun _ s₂ ⟨hs', hhand⟩ => ?_
    exact ⟨hs.trans hs', hhand⟩

/-! ## The end of everything -/

/-- The lock is taken. -/
theorem meets_lock {β : Type} {f : Unit → Prog β} {Q : β → ConditionalContext → Prop}
    (hidle : Idle job.party s)
    (h : ∀ s₁, Around job.party s s₁ → Meets trusted job (f ()) Q { s₁ with guard := some job.party }) :
    Meets trusted job (AcceptOp.take (.lock job.party) >>= f) Q s := by
  refine meets_pause hidle (fun _ h => (Option.some.inj h).symm) fun s₁ hs _ =>
    ⟨trivial, fun c resp s₂ hexec => ?_⟩
  simp only [AcceptOp.exec] at hexec
  split at hexec
  · cases hexec
    exact h s₁ hs
  · cases hexec

/-- What `Fits` under the lock still does: nobody changes the slot. -/
theorem Unlock.Fits.around {party : Party} {cause : Unlock} (h : cause.Fits s) (hs : Around party s s')
    (hguard : s.guard = some party) : cause.Fits s' := by
  obtain ⟨hattempt, haccepting⟩ := hs.held hguard
  cases cause with
  | stop => exact haccepting.trans h
  | answer tuple answer =>
    cases answer with
    | accept =>
      obtain ⟨htrue, slot, hslot, hclaimed⟩ := h
      exact ⟨haccepting.trans htrue, slot, hattempt.trans hslot, hclaimed⟩
    | reject => trivial
    | defer => trivial
  | other => trivial

/-- The lock is given up. -/
theorem meets_unlock {cause : Unlock} {β : Type} {f : Unit → Prog β} {Q : β → ConditionalContext → Prop}
    (hguard : s.guard = some job.party) (hfits : cause.Fits s)
    (h : ∀ s₁, Around job.party s s₁ → Meets trusted job (f ()) Q { s₁ with guard := none }) :
    Meets trusted job (AcceptOp.take (.unlock job.party cause) >>= f) Q s := by
  refine meets_take rfl (fun _ h => (Option.some.inj h).symm) fun s₁ hs _ =>
    ⟨⟨hs.guard.mpr hguard, hfits.around hs hguard⟩, fun c resp s₂ hexec => ?_⟩
  cases hexec
  exact h s₁ hs

/-- The slot is taken, under its lock. -/
theorem meets_takeSlot {β : Type} {f : Option AttemptSlot → Prog β} {Q : β → ConditionalContext → Prop}
    (hstops : job.party.stops = true) (hguard : s.guard = some job.party)
    (hhand : s.hands.find? job.party = none)
    (hended : job.party ≠ .coordinator → s.accepting = false)
    (h : ∀ s₁ hands, Around job.party s s₁ → Ledger s₁ → hands.find? job.party = s₁.attempt →
      Meets trusted job (f s₁.attempt) Q { s₁ with attempt := none, hands := hands }) :
    Meets trusted job (AcceptOp.take (.takeSlot job.party) >>= f) Q s := by
  refine meets_take rfl (fun _ h => (Option.some.inj h).symm) fun s₁ hs hinv =>
    ⟨?_, fun c resp s₂ hexec => ?_⟩
  · exact ⟨hs.guard.mpr hguard, hstops, hs.hands.trans hhand, fun hparty => hs.accepting (hended hparty)⟩
  · simp only [AcceptOp.exec] at hexec
    split at hexec
    · rename_i hattempt
      cases hexec
      have hnext := h s₁ s₁.hands hs hinv.ledger (by rw [hs.hands, hhand, hattempt])
      have hsame : { s₁ with attempt := none, hands := s₁.hands } = s₁ := by rw [← hattempt]
      rw [hsame, hattempt] at hnext
      exact hnext
    · rename_i slot hattempt
      cases hexec
      have hnext := h s₁ (s₁.hands.insert job.party slot) hs hinv.ledger
        (by rw [hattempt, Table.find?_insert_self])
      rw [hattempt] at hnext
      exact hnext

/-- `stop_and_reject_pending` ends everything and leaves nothing behind. -/
theorem meets_stopAndRejectPending (hstops : job.party.stops = true) (h : Idle job.party s) :
    Meets trusted job (stopAndRejectPending job.party)
      (fun _ s' => Idle job.party s' ∧ s'.accepting = false) s := by
  refine meets_lock h fun s₁ hs₁ => ?_
  have h₁ := (h.toHolds.around hs₁).lock
  refine meets_take rfl (fun _ h => (Option.some.inj h).symm) fun s₂ hs₂ _ =>
    ⟨⟨(h₁.around hs₂).guard.mpr trivial, hstops⟩, fun c resp s₃ hexec => ?_⟩
  cases hexec
  -- from here on nothing is accepted, and this thread has the slot
  have h₃ : Holds job.party none none True
      { s₂ with accepting := false, stoppers := job.party :: s₂.stoppers } :=
    { h₁.around hs₂ with }
  refine meets_takeSlot hstops (h₃.guard.mpr trivial) h₃.hands (fun _ => rfl)
    fun s₄ hands hs₄ hledger hhands => ?_
  have h₄ : Holds job.party s₄.attempt none True { s₄ with attempt := none, hands := hands } :=
    { h₃.around hs₄ with hands := hhands }
  have hended : s₄.accepting = false := hs₄.accepting rfl
  refine meets_unlock (h₄.guard.mpr trivial) hended fun s₅ hs₅ => ?_
  have h₅ := (h₄.around hs₅).unlock
  refine Contract.meets_seq (meets_cancelTaken h₅.hands hledger.unreleased) fun _ s₆ ⟨hs₆, hhand⟩ => ?_
  have h₆ := h₅.keeps hs₆ hhand
  have hended₆ : s₆.accepting = false := hs₆.accepting (hs₅.accepting hended)
  refine Contract.meets_seq (meets_releaseHandoffReservation hstops h₆.transit)
    fun _ s₇ ⟨hs₇, hreserved⟩ => ?_
  refine meets_free rfl rfl (fun _ => trivial) fun _ s₈ hs₈ => ?_
  have hended₇ := hs₇.accepting hended₆
  have hreserved₈ := hs₈.unreserved (.inr hended₇) (hreserved (.inr hended₆))
  have hended₈ := hs₈.accepting hended₇
  exact ⟨⟨⟨(h₆.around hs₇).around hs₈, fun _ => ⟨hended₈, hreserved₈⟩⟩, fun _ _ => .inl hended₈⟩, hended₈⟩

end Releases

end ShadowSocketProxy.HostProxy.WindowsConditional
