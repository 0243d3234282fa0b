import ShadowSocketProxy.HostProxy.WindowsConditional.Ownership

/-! # Conditional accept: the operations keep the contract

By the operations: what another thread relies on, and the ledger of the counters. -/

namespace ShadowSocketProxy.HostProxy.WindowsConditional

open Interleaving

section Operations

variable {c : AcceptChoice} {op : AcceptOp} {resp : op.Resp} {s s' : ConditionalContext}
  {party : Party} {trusted : Prop} {slot : AttemptSlot}

/-! ## Other threads -/

/-- The attempt with which an operation on `holding` was executed. -/
theorem holding_eq_some {α : Type} {f : AttemptSlot → α} {x : α} (h : s.holding party f = some x) :
    ∃ slot, s.hands.find? party = some slot ∧ f slot = x :=
  Option.map_eq_some_iff.mp h

/-- What others do to the slot leaves a thread alone that has not its lock. -/
theorem Around.of_attempt {attempt : Option AttemptSlot} {claims : List AttemptSlot}
    (hguard : s.guard = some .coordinator) (hparty : party ≠ .coordinator)
    (hclaims : ∀ x ∈ s.claims, x ∈ claims) :
    Around party s { s with attempt := attempt, claims := claims } :=
  { Around.refl party s with
    claims := hclaims
    held := fun h => absurd (Option.some.inj (h.symm.trans hguard)) hparty
    slot := fun h => absurd h hparty }

/-- What the coordinator decides about sockets that were reported leaves the others alone. -/
theorem Around.of_fates {fates : Table Nat Fate} (hparty : party ≠ .coordinator)
    (hnone : ∀ socket, s.fates.find? socket = none → fates.find? socket = none) :
    Around party s { s with fates := fates } :=
  { Around.refl party s with
    unreported := fun _ => hnone
    received := fun h => absurd h hparty }

/-- `mark` leaves other sockets their fates. -/
theorem find?_mark {result : WorkerResult} {fate : Fate} {socket : Nat}
    (h : ∀ id prepared, result = .ready id prepared → prepared.socket ≠ socket) :
    (s.mark fate result).find? socket = s.fates.find? socket := by
  cases result with
  | ready id prepared =>
    show (s.fates.insert prepared.socket fate).find? socket = _
    exact Table.find?_insert_of_ne (h id prepared rfl)
  | rejected id error => rfl

/-- A socket with one fate is none with another. -/
theorem socket_ne_of_fates {socket socket' : Nat} {fate fate' : Option Fate}
    (h : s.fates.find? socket = fate) (h' : s.fates.find? socket' = fate') (hne : fate ≠ fate') :
    socket ≠ socket' := by
  rintro rfl
  exact hne (h.symm.trans h')

/-- What others do to what they hold leaves a thread alone. -/
theorem Around.of_hands {hands : Table Party AttemptSlot} {pending : Int} {generation : UInt64}
    (hhands : hands.find? party = s.hands.find? party) :
    Around party s { s with hands := hands, pending := pending, nextGeneration := generation } :=
  { Around.refl party s with hands := hhands }

/-- An operation of one thread stays `Around` any other. -/
theorem around_of_exec (honce : Once s) (hexec : op.exec c s = some (resp, s'))
    (hother : op.party ≠ some party) (hknows : Knows trusted s op) : Around party s s' := by
  have hne : ∀ {other : Party}, op.party = some other → other ≠ party := by
    rintro other hop rfl
    exact hother hop
  cases op with
  | lock other =>
    have hne := hne rfl
    simp only [AcceptOp.exec] at hexec
    split at hexec
    · rename_i hfree
      cases hexec
      refine { Around.refl party s with guard := ?_ }
      show some other = some party ↔ _
      rw [hfree]
      exact ⟨fun h => absurd (Option.some.inj h) hne, fun h => (by cases h)⟩
    · cases hexec
  | tryLock =>
    have hne := hne rfl
    simp only [AcceptOp.exec] at hexec
    split at hexec
    · rename_i hfree
      cases hexec
      refine { Around.refl party s with guard := ?_ }
      show some Party.coordinator = some party ↔ _
      rw [hfree]
      exact ⟨fun h => absurd (Option.some.inj h) hne, fun h => (by cases h)⟩
    · cases hexec
      exact .refl party s
  | unlock other cause =>
    have hne := hne rfl
    cases hexec
    refine { Around.refl party s with guard := ?_ }
    show none = some party ↔ _
    rw [hknows.1]
    exact ⟨fun h => (by cases h), fun h => absurd (Option.some.inj h) hne⟩
  | setState state => cases hexec; exact .of_attempt hknows.1 (Ne.symm (hne rfl)) fun _ h => h
  | prepare id prepared =>
    have hparty := Ne.symm (hne rfl)
    obtain ⟨hguard, -, hreceived, -⟩ := hknows
    cases hexec
    have hslot : Around party s { s with
        attempt := s.attempt.map fun slot => { slot with prepared := some prepared } } :=
      .of_attempt hguard hparty fun _ h => h
    refine hslot.trans (.of_fates hparty fun socket hnone => ?_)
    rw [← hnone]
    exact Table.find?_insert_of_ne (socket_ne_of_fates hreceived hnone (by simp))
  | unprepare => cases hexec; exact .of_attempt hknows.1 (Ne.symm (hne rfl)) fun _ h => h
  | markReady =>
    simp only [AcceptOp.exec] at hexec
    split at hexec
    · cases hexec
    · split at hexec
      · cases hexec
        exact .of_attempt hknows.1 (Ne.symm (hne rfl)) fun _ h => h
      · cases hexec
        exact .refl party s
  | claim =>
    simp only [AcceptOp.exec] at hexec
    split at hexec
    · cases hexec
    · split at hexec
      · cases hexec
        exact .of_attempt hknows (Ne.symm (hne rfl)) fun _ h => List.mem_cons_of_mem _ h
      · cases hexec
        exact .refl party s
  | stopAccepting other =>
    have hne := hne rfl
    cases hexec
    exact { Around.refl party s with
      held := fun h => absurd (Option.some.inj (hknows.1.symm.trans h)) hne
      accepting := fun _ => rfl
      slot := fun _ => .inl rfl
      stoppers := by
        rw [List.mem_cons]
        exact or_iff_right (Ne.symm hne) }
  | takeSlot other =>
    have hne := hne rfl
    simp only [AcceptOp.exec] at hexec
    split at hexec
    · cases hexec
      exact .refl party s
    · cases hexec
      exact { Around.refl party s with
        hands := Table.find?_insert_of_ne hne
        held := fun h => absurd (Option.some.inj (hknows.1.symm.trans h)) hne
        slot := fun h => .inr ⟨rfl, hknows.2.2.2 (h ▸ hne)⟩ }
  | reserve tuple =>
    simp only [AcceptOp.exec] at hexec
    split at hexec
    · cases hexec
      exact .refl party s
    · cases hexec
      exact .of_hands (Table.find?_insert_of_ne (hne rfl))
  | install =>
    have hne := hne rfl
    obtain ⟨slot, -, hslot⟩ := holding_eq_some hexec
    cases hslot
    exact { Around.refl party s with
      hands := Table.find?_erase_of_ne hne
      held := fun h => absurd (Option.some.inj (hknows.1.symm.trans h)) hne
      slot := fun h => absurd h.symm hne }
  | setHeldState other state =>
    obtain ⟨slot, -, hslot⟩ := holding_eq_some hexec
    cases hslot
    exact .of_hands (Table.find?_insert_of_ne (hne rfl))
  | swapReleased other =>
    obtain ⟨slot, -, hslot⟩ := holding_eq_some hexec
    cases hslot
    exact .of_hands (Table.find?_insert_of_ne (hne rfl))
  | subPending other =>
    cases hexec
    exact .of_hands (Table.find?_erase_of_ne (hne rfl))
  | addHandoff =>
    simp only [AcceptOp.exec] at hexec
    split at hexec
    · cases hexec
      exact .refl party s
    · cases hexec
      exact { Around.refl party s with transit := Table.find?_insert_of_ne (hne rfl) }
  | setReserved =>
    have hne := hne rfl
    cases hexec
    refine { Around.refl party s with transit := Table.find?_erase_of_ne hne, reserved := ?_ }
    -- only the coordinator reserves, and only before the end
    rintro (hparty | hended) -
    · exact absurd hparty.symm hne
    · rw [hknows.1] at hended
      cases hended
  | swapReserved other =>
    simp only [AcceptOp.exec] at hexec
    split at hexec
    · cases hexec
      exact { Around.refl party s with
        transit := Table.find?_insert_of_ne (hne rfl)
        reserved := fun _ h => by cases h }
    · cases hexec
      exact .refl party s
  | handOver handoff =>
    simp only [AcceptOp.exec] at hexec
    split at hexec
    · cases hexec
      exact { Around.refl party s with
        carried := Table.find?_insert_of_ne (hne rfl)
        reserved := fun _ h => by cases h }
    · cases hexec
      exact .refl party s
  | subHandoff other =>
    cases hexec
    exact { Around.refl party s with transit := Table.find?_erase_of_ne (hne rfl) }
  | storeGeneration generation =>
    have hne := hne rfl
    cases hexec
    exact { Around.refl party s with generation := fun h => absurd h.symm hne }
  | tryRecv =>
    simp only [AcceptOp.exec] at hexec
    split at hexec
    · cases hexec
      exact .refl party s
    · rename_i result results hresults
      cases hexec
      have hqueue : Around party s { s with results := results } := { Around.refl party s with }
      refine hqueue.trans (.of_fates (Ne.symm (hne rfl)) fun socket hnone => ?_)
      -- what is received had been reported
      rw [← show s.fates.find? socket = none from hnone]
      refine find?_mark fun id prepared hresult => ?_
      refine socket_ne_of_fates (honce.queued id prepared ?_) hnone (by simp)
      rw [hresults, hresult]
      exact List.mem_cons_self
  | discard result =>
    cases hexec
    refine .of_fates (Ne.symm (hne rfl)) fun socket hnone => ?_
    rw [← hnone]
    exact find?_mark fun id prepared hresult =>
      socket_ne_of_fates (hknows id prepared hresult) hnone (by simp)
  | sendHandoff =>
    simp only [AcceptOp.exec] at hexec
    split at hexec
    · cases hexec
    · split at hexec
      · cases hexec
        exact .refl party s
      · split at hexec
        · cases hexec
          exact .refl party s
        · cases hexec
          exact { Around.refl party s with carried := Table.find?_erase_of_ne (hne rfl) }
  | dropHandoff other =>
    cases hexec
    exact { Around.refl party s with carried := Table.find?_erase_of_ne (hne rfl) }
  | getMapping id =>
    simp only [AcceptOp.exec] at hexec
    split at hexec
    · cases hexec
      exact .refl party s
    · cases hexec
      exact { Around.refl party s with mappings := fun _ h => List.mem_cons_of_mem _ h }
  | connect id mapping =>
    simp only [AcceptOp.exec] at hexec
    split at hexec
    · cases hexec
      exact .refl party s
    · cases hexec
      exact { Around.refl party s with runs := fun _ h => List.mem_cons_of_mem _ h }
  | sendResult result =>
    have hne := hne rfl
    simp only [AcceptOp.exec] at hexec
    split at hexec
    · cases hexec
      exact .refl party s
    · cases hexec
      refine { Around.refl party s with unreported := fun h => absurd h.symm hne, received := ?_ }
      -- a new socket is none that was received
      intro _ socket hreceived
      rw [← hreceived]
      exact find?_mark fun id prepared hresult =>
        socket_ne_of_fates (hknows id prepared hresult).2 hreceived (by simp)
  | recvHandoff other =>
    simp only [AcceptOp.exec] at hexec
    split at hexec
    · cases hexec
      exact .refl party s
    · split at hexec
      · split at hexec
        · cases hexec
          exact .refl party s
        · cases hexec
      · cases hexec
        exact { Around.refl party s with carried := Table.find?_insert_of_ne (hne rfl) }
  | _ =>
    -- the others touch nothing that a thread relies on
    simp only [AcceptOp.exec] at hexec
    (repeat' split at hexec) <;> cases hexec <;> exact { Around.refl party s with }

/-! ## The ledger -/

theorem occupied_some (h : s.attempt = some slot) : s.occupied = 1 := by
  rw [ConditionalContext.occupied, h]
  rfl

theorem occupied_none (h : s.attempt = none) : s.occupied = 0 := by
  rw [ConditionalContext.occupied, h]
  rfl

/-- An outsider is none of those who stop. -/
theorem outsider_ne {outsider : Party} (h : outsider.stops = false) (hstops : party.stops = true) :
    party ≠ outsider := by
  rintro rfl
  rw [h] at hstops
  cases hstops

/-- `Ledger` with the attempt in the slot changed: it is still one. -/
theorem Ledger.map_attempt (h : Ledger s) (claims : List AttemptSlot) (f : AttemptSlot → AttemptSlot)
    (hreleased : ∀ slot, (f slot).attempt.released = slot.attempt.released) :
    Ledger { s with attempt := s.attempt.map f, claims := claims } := by
  refine { h with pending := ?_, unreleased := ?_ }
  · show s.pending = ((if (s.attempt.map f).isSome then 1 else 0) + s.hands.size : Nat)
    rw [h.pending, Option.isSome_map]
    rfl
  · intro slot hslot
    obtain ⟨old, hold, rfl⟩ := Option.map_eq_some_iff.mp hslot
    rw [hreleased]
    exact h.unreleased old hold

/-- `Ledger` with an attempt in a hand changed: it is still one. -/
theorem Ledger.replace_hand {slot' : AttemptSlot} (h : Ledger s)
    (hslot : s.hands.find? party = some slot) :
    Ledger { s with hands := s.hands.insert party slot' } := by
  refine { h with pending := ?_, outsiders := fun outsider houtsider => ?_ }
  · show s.pending = (s.occupied + (s.hands.insert party slot').size : Nat)
    rw [h.pending, Table.size_insert_of_some hslot]
  · obtain ⟨hhands, hrest⟩ := h.outsiders outsider houtsider
    have hne : party ≠ outsider := by
      rintro rfl
      rw [hslot] at hhands
      cases hhands
    exact ⟨(Table.find?_insert_of_ne hne).trans hhands, hrest⟩

theorem Ledger.takeSlot (h : Ledger s) (hslot : s.attempt = some slot)
    (hstops : party.stops = true) (hhands : s.hands.find? party = none) :
    Ledger { s with attempt := none, hands := s.hands.insert party slot } := by
  refine { h with pending := ?_, unreleased := ?_, outsiders := fun outsider houtsider => ?_ }
  · show s.pending = (0 + (s.hands.insert party slot).size : Nat)
    rw [h.pending, occupied_some hslot, Table.size_insert_of_none hhands, Nat.zero_add, Nat.add_comm]
  · intro slot hslot
    cases hslot
  · obtain ⟨hnone, hrest⟩ := h.outsiders outsider houtsider
    exact ⟨(Table.find?_insert_of_ne (outsider_ne houtsider hstops)).trans hnone, hrest⟩

theorem Ledger.reserve {generation : UInt64} (h : Ledger s)
    (hroom : ¬ (s.limit : Int) ≤ s.pending) (hhands : s.hands.find? .coordinator = none) :
    Ledger { s with
      pending := s.pending + 1
      nextGeneration := generation
      hands := s.hands.insert .coordinator slot } := by
  refine { h with pending := ?_, pending_le := ?_, outsiders := fun outsider houtsider => ?_ }
  · show s.pending + 1 = (s.occupied + (s.hands.insert .coordinator slot).size : Nat)
    rw [Table.size_insert_of_none hhands, h.pending]
    omega
  · show s.pending + 1 ≤ s.limit
    omega
  · obtain ⟨hnone, hrest⟩ := h.outsiders outsider houtsider
    exact ⟨(Table.find?_insert_of_ne (outsider_ne houtsider rfl)).trans hnone, hrest⟩

theorem Ledger.install (h : Ledger s) (hnone : s.attempt = none)
    (hslot : s.hands.find? .coordinator = some slot) (hreleased : slot.attempt.released = false) :
    Ledger { s with attempt := some slot, hands := s.hands.erase .coordinator } := by
  refine { h with pending := ?_, unreleased := ?_, outsiders := fun outsider houtsider => ?_ }
  · show s.pending = (1 + (s.hands.erase .coordinator).size : Nat)
    rw [h.pending, occupied_none hnone, ← Table.size_erase_of_some hslot]
    omega
  · intro slot' hslot'
    cases hslot'
    exact hreleased
  · obtain ⟨hhands, hrest⟩ := h.outsiders outsider houtsider
    exact ⟨Table.find?_erase_eq_none hhands, hrest⟩

theorem Ledger.subPending (h : Ledger s) (hslot : s.hands.find? party = some slot) :
    Ledger { s with pending := s.pending - 1, hands := s.hands.erase party } := by
  refine { h with pending := ?_, pending_le := ?_, outsiders := fun outsider houtsider => ?_ }
  · show s.pending - 1 = (s.occupied + (s.hands.erase party).size : Nat)
    rw [h.pending, ← Table.size_erase_of_some hslot]
    omega
  · have hle := h.pending_le
    show s.pending - 1 ≤ s.limit
    omega
  · obtain ⟨hhands, hrest⟩ := h.outsiders outsider houtsider
    exact ⟨Table.find?_erase_eq_none hhands, hrest⟩

/-- The units of `handoffs` move between their owners, and their number changes with the counter. -/
theorem Ledger.move {handoffs : Int} {flag : Bool} {transit : Table Party Unit}
    {carried : Table Party SocketHandoff} {queue : List SocketHandoff} (h : Ledger s)
    (hcount : handoffs - (carried.size + queue.length + (if flag then 1 else 0) + transit.size : Nat) =
      s.handoffs - (s.live + s.reserved + s.transit.size : Nat))
    (hle : handoffs ≤ s.limit)
    (houtsiders : ∀ outsider : Party, outsider.stops = false → s.transit.find? outsider = none →
      transit.find? outsider = none) :
    Ledger { s with
      handoffs := handoffs
      handoffReserved := flag
      transit := transit
      carried := carried
      queue := queue } := by
  refine { h with handoffs := ?_, handoffs_le := hle, outsiders := fun outsider houtsider => ?_ }
  · show handoffs = (carried.size + queue.length + (if flag then 1 else 0) + transit.size : Nat)
    have hold := h.handoffs
    omega
  · obtain ⟨hhands, htransit, hstoppers⟩ := h.outsiders outsider houtsider
    exact ⟨hhands, houtsiders outsider houtsider htransit, hstoppers⟩

/-- Every operation keeps the `Ledger`. -/
theorem ledger_of_exec (h : Ledger s) (hexec : op.exec c s = some (resp, s'))
    (hknows : Knows trusted s op) : Ledger s' := by
  have hlive : s.live = s.carried.size + s.queue.length := rfl
  have hreserved : s.reserved = if s.handoffReserved then 1 else 0 := rfl
  have hhandoffs_le := h.handoffs_le
  cases op with
  | setState state => cases hexec; exact h.map_attempt s.claims _ fun _ => rfl
  | prepare id prepared =>
    cases hexec
    have hmap := h.map_attempt s.claims (fun slot => { slot with prepared := some prepared }) fun _ => rfl
    exact { hmap with }
  | unprepare =>
    cases hexec
    exact h.map_attempt s.claims (fun slot => { slot with prepared := none }) fun _ => rfl
  | markReady =>
    simp only [AcceptOp.exec] at hexec
    split at hexec
    · cases hexec
    · rename_i slot hslot
      split at hexec <;> cases hexec
      · have hmap := h.map_attempt s.claims (AttemptSlot.withState .ready) fun _ => rfl
        rw [hslot] at hmap
        exact hmap
      · exact h
  | claim =>
    simp only [AcceptOp.exec] at hexec
    split at hexec
    · cases hexec
    · rename_i slot hslot
      split at hexec <;> cases hexec
      · have hmap := h.map_attempt (slot.withState .claimed :: s.claims)
          (AttemptSlot.withState .claimed) fun _ => rfl
        rw [hslot] at hmap
        exact hmap
      · exact h
  | stopAccepting other =>
    cases hexec
    refine { h with stopped := fun _ => List.cons_ne_nil _ _, outsiders := ?_ }
    intro outsider houtsider
    obtain ⟨hhands, htransit, hstoppers⟩ := h.outsiders outsider houtsider
    refine ⟨hhands, htransit, fun hmem => ?_⟩
    rcases List.mem_cons.mp hmem with heq | hmem
    · exact outsider_ne houtsider hknows.2 heq.symm
    · exact hstoppers hmem
  | takeSlot other =>
    simp only [AcceptOp.exec] at hexec
    split at hexec
    · cases hexec
      exact h
    · rename_i slot hslot
      cases hexec
      exact h.takeSlot hslot hknows.2.1 hknows.2.2.1
  | reserve tuple =>
    simp only [AcceptOp.exec] at hexec
    split at hexec
    · cases hexec
      exact h
    · rename_i hroom
      cases hexec
      exact h.reserve hroom hknows
  | install =>
    obtain ⟨slot, hslot, heq⟩ := holding_eq_some hexec
    cases heq
    obtain ⟨-, hnone, id, hid⟩ := hknows
    rw [hslot] at hid
    cases hid
    exact h.install hnone hslot rfl
  | setHeldState other state =>
    obtain ⟨slot, hslot, heq⟩ := holding_eq_some hexec
    cases heq
    exact h.replace_hand hslot
  | swapReleased other =>
    obtain ⟨slot, hslot, heq⟩ := holding_eq_some hexec
    cases heq
    exact h.replace_hand hslot
  | subPending other =>
    obtain ⟨slot, hslot⟩ := hknows
    cases hexec
    exact h.subPending hslot
  | addHandoff =>
    simp only [AcceptOp.exec] at hexec
    split at hexec <;> cases hexec
    · exact h
    · refine h.move ?_ (by omega) fun outsider houtsider hnone => ?_
      · rw [Table.size_insert_of_none hknows, hlive, hreserved]
        omega
      · exact (Table.find?_insert_of_ne (outsider_ne houtsider rfl)).trans hnone
  | setReserved =>
    obtain ⟨-, hflag, htransit⟩ := hknows
    cases hexec
    refine h.move ?_ hhandoffs_le fun outsider _ hnone => Table.find?_erase_eq_none hnone
    have hsize := Table.size_erase_of_some htransit
    rw [hlive, hreserved, hflag, ← hsize]
    simp only [if_true, Bool.false_eq_true, if_false]
    omega
  | swapReserved other =>
    obtain ⟨hstops, hnone⟩ := hknows
    simp only [AcceptOp.exec] at hexec
    split at hexec <;> cases hexec
    · rename_i hflag
      refine h.move ?_ hhandoffs_le fun outsider houtsider hnone' => ?_
      · rw [Table.size_insert_of_none hnone, hlive, hreserved, if_pos hflag]
        simp only [Bool.false_eq_true, if_false]
        omega
      · exact (Table.find?_insert_of_ne (outsider_ne houtsider hstops)).trans hnone'
    · exact h
  | handOver handoff =>
    simp only [AcceptOp.exec] at hexec
    split at hexec <;> cases hexec
    · rename_i hflag
      refine h.move ?_ hhandoffs_le fun _ _ hnone => hnone
      rw [Table.size_insert_of_none hknows.1, hlive, hreserved, if_pos hflag]
      simp only [Bool.false_eq_true, if_false]
      omega
    · exact h
  | subHandoff other =>
    cases hexec
    refine h.move ?_ (by omega) fun outsider _ hnone => Table.find?_erase_eq_none hnone
    have hsize := Table.size_erase_of_some hknows
    rw [hlive, hreserved, ← hsize]
    omega
  | sendHandoff =>
    simp only [AcceptOp.exec] at hexec
    split at hexec
    · cases hexec
    · rename_i handoff hcarried
      split at hexec
      · cases hexec
        exact h
      · split at hexec <;> cases hexec
        · exact h
        · refine h.move ?_ hhandoffs_le fun _ _ hnone => hnone
          have hsize := Table.size_erase_of_some hcarried
          rw [hlive, hreserved, ← hsize, List.length_append]
          simp only [List.length_cons, List.length_nil]
          omega
  | dropHandoff other =>
    obtain ⟨handoff, hcarried⟩ := hknows
    cases hexec
    refine h.move ?_ (by omega) fun _ _ hnone => hnone
    have hsize := Table.size_erase_of_some hcarried
    rw [hlive, hreserved, ← hsize]
    omega
  | recvHandoff other =>
    simp only [AcceptOp.exec] at hexec
    split at hexec
    · cases hexec
      exact h
    · split at hexec
      · split at hexec <;> cases hexec
        exact h
      · rename_i handoff queue hqueue
        cases hexec
        refine h.move ?_ hhandoffs_le fun _ _ hnone => hnone
        rw [Table.size_insert_of_none hknows, hlive, hreserved, hqueue, List.length_cons]
        omega
  | _ =>
    -- the others move neither attempts nor handoffs, and do not stop anything
    simp only [AcceptOp.exec] at hexec
    (repeat' split at hexec) <;> cases hexec <;> exact { h with }

end Operations

end ShadowSocketProxy.HostProxy.WindowsConditional
