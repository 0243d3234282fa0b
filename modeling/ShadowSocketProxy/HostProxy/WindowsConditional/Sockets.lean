import ShadowSocketProxy.HostProxy.WindowsConditional.Operations

/-! # Conditional accept: the sockets

By the operations: the socket in the slot and those that were claimed were connected for their attempts,
and no socket that was discarded comes back. -/

namespace ShadowSocketProxy.HostProxy.WindowsConditional

open Interleaving

section Sockets

variable {c : AcceptChoice} {op : AcceptOp} {resp : op.Resp} {s s' : ConditionalContext}
  {party : Party} {trusted : Prop} {result : WorkerResult} {slot : AttemptSlot} {fate : Fate}

/-! ## The sockets -/

/-- `Backing` with another attempt in the slot, if what is in the slot afterwards is as it should be.
-/
theorem Backing.set_attempt (h : Backing s) (attempt : Option AttemptSlot)
    (hslot : ∀ slot prepared, attempt = some slot → slot.prepared = some prepared →
      Backed s slot.attempt.id prepared)
    (hready : ∀ slot, attempt = some slot →
      slot.attempt.state = .ready ∨ slot.attempt.state = .claimed → slot.prepared.isSome = true)
    (hclaimed : ∀ slot, attempt = some slot → slot.attempt.state = .claimed → slot ∈ s.claims) :
    Backing { s with attempt := attempt } :=
  { h with slot := hslot, ready := hready, claimed := hclaimed }

/-- `Backing` without an attempt in the slot. -/
theorem Backing.clear_attempt (h : Backing s) : Backing { s with attempt := none } :=
  h.set_attempt none (fun _ _ hnone => by cases hnone) (fun _ hnone => by cases hnone)
    fun _ hnone => by cases hnone

/-- `Backing` when more is known than before. -/
theorem Backing.remember (h : Backing s) (mappings : List (ConditionalRequestId × OriginalDestination))
    (runs : List WorkerRun) (sockets : Nat)
    (hs : Remembers s { s with mappings := mappings, runs := runs, sockets := sockets })
    (hfresh : ∀ run ∈ runs, run.socket < sockets)
    (hdistinct : ∀ run ∈ runs, ∀ run' ∈ runs, run.socket = run'.socket → run = run') :
    Backing { s with mappings := mappings, runs := runs, sockets := sockets } where
  slot slot prepared hslot hprepared := (h.slot slot prepared hslot hprepared).remembers hs
  ready := h.ready
  results id prepared hmem := (h.results id prepared hmem).remembers hs
  claimed := h.claimed
  claims slot hmem := by
    obtain ⟨prepared, hprepared, hbacked⟩ := h.claims slot hmem
    exact ⟨prepared, hprepared, hbacked.remembers hs⟩
  fresh := hfresh
  distinct := hdistinct

theorem Backing.setState {state : ConditionalAttemptState} (h : Backing s) (hready : state ≠ .ready)
    (hclaimed : state ≠ .claimed) :
    Backing { s with attempt := s.attempt.map (AttemptSlot.withState state) } := by
  refine h.set_attempt _ (fun slot prepared hslot hprepared => ?_) (fun slot hslot hstate => ?_)
    fun slot hslot hstate => ?_
  · obtain ⟨old, hold, rfl⟩ := Option.map_eq_some_iff.mp hslot
    exact h.slot old prepared hold hprepared
  · obtain ⟨old, hold, rfl⟩ := Option.map_eq_some_iff.mp hslot
    exact absurd hstate (not_or.mpr ⟨hready, hclaimed⟩)
  · obtain ⟨old, hold, rfl⟩ := Option.map_eq_some_iff.mp hslot
    exact absurd hstate hclaimed

theorem Backing.prepare {id : ConditionalRequestId} {prepared : PreparedSocket} (h : Backing s)
    (hbacked : Backed s id prepared) (hslot : s.attempt = some slot) (hid : slot.attempt.id = id)
    (hstate : slot.attempt.state = .deferred) :
    Backing { s with attempt := s.attempt.map fun slot => { slot with prepared := some prepared } } := by
  rw [hslot]
  refine h.set_attempt _ (fun slot' prepared' hslot' hprepared => ?_) (fun slot' hslot' _ => ?_)
    fun slot' hslot' hclaimed => ?_
  · cases hslot'
    cases hprepared
    rw [← hid] at hbacked
    exact hbacked
  · cases hslot'
    rfl
  · cases hslot'
    rw [show slot.attempt.state = .claimed from hclaimed] at hstate
    cases hstate

theorem Backing.unprepare (h : Backing s)
    (hstate : ∀ slot, s.attempt = some slot → slot.attempt.state ≠ .ready ∧ slot.attempt.state ≠ .claimed) :
    Backing { s with attempt := s.attempt.map fun slot => { slot with prepared := none } } := by
  refine h.set_attempt _ (fun slot prepared hslot hprepared => ?_) (fun slot hslot hready => ?_)
    fun slot hslot hclaimed => ?_
  · obtain ⟨old, hold, rfl⟩ := Option.map_eq_some_iff.mp hslot
    cases hprepared
  · obtain ⟨old, hold, rfl⟩ := Option.map_eq_some_iff.mp hslot
    exact absurd hready (not_or.mpr (hstate old hold))
  · obtain ⟨old, hold, rfl⟩ := Option.map_eq_some_iff.mp hslot
    exact absurd hclaimed (hstate old hold).2

theorem Backing.markReady (h : Backing s) (hslot : s.attempt = some slot)
    (hprepared : slot.prepared.isSome = true) :
    Backing { s with attempt := some (slot.withState .ready) } := by
  refine h.set_attempt _ (fun slot' prepared hslot' hprepared' => ?_) (fun slot' hslot' _ => ?_)
    fun slot' hslot' hclaimed => ?_
  · cases hslot'
    exact h.slot slot prepared hslot hprepared'
  · cases hslot'
    exact hprepared
  · cases hslot'
    cases hclaimed

theorem Backing.claim (h : Backing s) (hslot : s.attempt = some slot)
    (hstate : slot.attempt.state = .ready) :
    Backing { s with
      attempt := some (slot.withState .claimed)
      claims := slot.withState .claimed :: s.claims } := by
  have hprepared := h.ready slot hslot (.inl hstate)
  refine { h with slot := ?_, ready := ?_, claimed := ?_, claims := ?_ }
  · intro slot' prepared hslot' hprepared'
    cases hslot'
    exact h.slot slot prepared hslot hprepared'
  · intro slot' hslot' _
    cases hslot'
    exact hprepared
  · intro slot' hslot' _
    cases hslot'
    exact List.mem_cons_self
  · intro slot' hmem
    rcases List.mem_cons.mp hmem with rfl | hmem
    · obtain ⟨prepared, heq⟩ := Option.isSome_iff_exists.mp hprepared
      exact ⟨prepared, heq, h.slot slot prepared hslot heq⟩
    · exact h.claims slot' hmem

theorem Backing.connect {id : ConditionalRequestId} {mapping : OriginalDestination} (h : Backing s) :
    Backing { s with sockets := s.sockets + 1, runs := ⟨id, mapping, s.sockets⟩ :: s.runs } := by
  refine h.remember s.mappings _ _
    ⟨fun _ hx => hx, fun _ hx => List.mem_cons_of_mem _ hx, fun _ hx => hx⟩ (fun run hmem => ?_)
    fun run hmem run' hmem' hsame => ?_
  · rcases List.mem_cons.mp hmem with rfl | hmem
    · exact Nat.lt_succ_self _
    · exact Nat.lt_succ_of_lt (h.fresh run hmem)
  · -- the new socket is none of the old ones
    rcases List.mem_cons.mp hmem with rfl | hmem <;> rcases List.mem_cons.mp hmem' with rfl | hmem'
    · rfl
    · exact absurd hsame.symm (Nat.ne_of_lt (h.fresh run' hmem'))
    · exact absurd hsame (Nat.ne_of_lt (h.fresh run hmem))
    · exact h.distinct run hmem run' hmem' hsame

/-- Every operation keeps `Backing`: the sockets stay where they belong. -/
theorem backing_of_exec (h : Backing s) (hexec : op.exec c s = some (resp, s'))
    (hknows : Knows trusted s op) : Backing s' := by
  cases op with
  | setState state => cases hexec; exact h.setState hknows.2.1 hknows.2.2
  | prepare id prepared =>
    obtain ⟨-, hbacked, -, slot, hslot, hid, hstate⟩ := hknows
    cases hexec
    exact { h.prepare hbacked hslot hid hstate with }
  | unprepare => cases hexec; exact h.unprepare hknows.2
  | markReady =>
    simp only [AcceptOp.exec] at hexec
    split at hexec
    · cases hexec
    · rename_i slot hslot
      split at hexec <;> cases hexec
      · exact h.markReady hslot (hknows.2 slot hslot)
      · exact h
  | claim =>
    simp only [AcceptOp.exec] at hexec
    split at hexec
    · cases hexec
    · rename_i slot hslot
      split at hexec <;> cases hexec
      · rename_i hstate
        exact h.claim hslot hstate
      · exact h
  | takeSlot other =>
    simp only [AcceptOp.exec] at hexec
    split at hexec <;> cases hexec
    · exact h
    · exact { h.clear_attempt with }
  | install =>
    obtain ⟨slot, hslot, heq⟩ := holding_eq_some hexec
    cases heq
    obtain ⟨-, -, id, hid⟩ := hknows
    rw [hslot] at hid
    cases hid
    have hnew := h.set_attempt (some { attempt := { id := id } })
      (fun slot prepared hslot hprepared => by cases hslot; cases hprepared)
      (fun slot hslot hready => by cases hslot; rcases hready with hready | hready <;> cases hready)
      (fun slot hslot hclaimed => by cases hslot; cases hclaimed)
    exact { hnew with }
  | tryRecv =>
    simp only [AcceptOp.exec] at hexec
    split at hexec
    · cases hexec
      exact h
    · rename_i result results hresults
      cases hexec
      refine { h with results := fun id prepared hmem => ?_ }
      refine h.results id prepared ?_
      rw [hresults]
      exact List.mem_cons_of_mem _ hmem
  | wsaAccept last =>
    simp only [AcceptOp.exec] at hexec
    split at hexec <;> cases hexec
    · exact h
    · exact { h with fresh := fun run hmem => Nat.lt_succ_of_lt (h.fresh run hmem) }
  | getMapping id =>
    simp only [AcceptOp.exec] at hexec
    split at hexec <;> cases hexec
    · exact h
    · exact h.remember _ s.runs s.sockets
        ⟨fun _ hx => List.mem_cons_of_mem _ hx, fun _ hx => hx, fun _ hx => hx⟩ h.fresh h.distinct
  | connect id mapping =>
    simp only [AcceptOp.exec] at hexec
    split at hexec <;> cases hexec
    · exact h
    · exact h.connect
  | sendResult result =>
    simp only [AcceptOp.exec] at hexec
    split at hexec <;> cases hexec
    · exact h
    · refine { h with results := fun id prepared hmem => ?_ }
      rcases List.mem_append.mp hmem with hmem | hmem
      · exact h.results id prepared hmem
      · exact (hknows id prepared (List.mem_singleton.mp hmem).symm).1
  | setHeldState | swapReleased =>
    obtain ⟨slot, -, heq⟩ := holding_eq_some hexec
    cases heq
    exact { h with }
  | _ =>
    -- the others change neither the slot, nor the results, nor what has happened
    simp only [AcceptOp.exec] at hexec
    (repeat' split at hexec) <;> cases hexec <;> exact { h with }

/-! ## Their fates -/

section

variable (h : Once s)

include h

/-- A socket in the slot or claimed is stored, whatever becomes of the others. -/
theorem Once.set_fates (fates : Table Nat Fate) (results : List WorkerResult)
    (hstored : ∀ socket, s.fates.find? socket = some .stored → fates.find? socket = some .stored)
    (hfresh : ∀ socket fate, fates.find? socket = some fate → socket < s.sockets)
    (hqueued : ∀ id prepared, .ready id prepared ∈ results →
      fates.find? prepared.socket = some .queued)
    (hapart : results.Pairwise WorkerResult.Apart) :
    Once { s with results := results, fates := fates } where
  fresh := hfresh
  queued := hqueued
  apart := hapart
  slot slot prepared hslot hprepared := hstored _ (h.slot slot prepared hslot hprepared)
  claims slot hmem prepared hprepared := hstored _ (h.claims slot hmem prepared hprepared)

/-- A new fate for a socket that had one. -/
theorem Once.mark_fresh
    (hresult : ∀ id prepared, result = .ready id prepared → prepared.socket < s.sockets) :
    ∀ socket fate', (s.mark fate result).find? socket = some fate' → socket < s.sockets := by
  intro socket fate' hfound
  cases result with
  | rejected id error => exact h.fresh socket fate' hfound
  | ready id prepared =>
    have hfound : (s.fates.insert prepared.socket fate).find? socket = some fate' := hfound
    by_cases hsame : prepared.socket = socket
    · rw [← hsame]
      exact hresult id prepared rfl
    · rw [Table.find?_insert_of_ne hsame] at hfound
      exact h.fresh socket fate' hfound

/-- A new fate for a socket that is not in the channel. -/
theorem Once.mark_queued (hresult : ∀ id prepared, result = .ready id prepared →
      s.fates.find? prepared.socket ≠ some .queued) :
    ∀ id prepared, .ready id prepared ∈ s.results →
      (s.mark fate result).find? prepared.socket = some .queued := by
  intro id prepared hmem
  have hqueued := h.queued id prepared hmem
  rw [← hqueued]
  refine find?_mark fun id' prepared' hready => ?_
  exact socket_ne_of_fates rfl hqueued (hresult id' prepared' hready)

/-- What becomes of a received socket is decided. -/
theorem Once.judge (hreceived : ∀ id prepared, result = .ready id prepared →
      s.fates.find? prepared.socket = some .received) :
    Once { s with fates := s.mark fate result } := by
  refine h.set_fates _ s.results (fun socket hstored => ?_) (h.mark_fresh fun id prepared hready => ?_)
    (h.mark_queued fun id prepared hready => ?_) h.apart
  · rw [← hstored]
    exact find?_mark fun id prepared hready =>
      socket_ne_of_fates (hreceived id prepared hready) hstored (by simp)
  · exact h.fresh _ _ (hreceived id prepared hready)
  · rw [hreceived id prepared hready]
    simp

theorem Once.tryRecv {results : List WorkerResult} (hresults : s.results = result :: results) :
    Once { s with results := results, fates := s.mark .received result } := by
  have hmem : ∀ x ∈ results, x ∈ s.results := by
    rw [hresults]
    exact fun x hx => List.mem_cons_of_mem _ hx
  have hqueued : ∀ id prepared, result = .ready id prepared →
      s.fates.find? prepared.socket = some .queued := by
    intro id prepared hready
    refine h.queued id prepared ?_
    rw [hresults, hready]
    exact List.mem_cons_self
  have hapart := h.apart
  rw [hresults, List.pairwise_cons] at hapart
  refine h.set_fates _ results (fun socket hstored => ?_) (h.mark_fresh fun id prepared hready => ?_)
    (fun id prepared hresult => ?_) hapart.2
  · rw [← hstored]
    exact find?_mark fun id prepared hready =>
      socket_ne_of_fates (hqueued id prepared hready) hstored (by simp)
  · exact h.fresh _ _ (hqueued id prepared hready)
  · -- the sockets in the channel are distinct
    rw [← h.queued id prepared (hmem _ hresult)]
    exact find?_mark fun id' prepared' hready =>
      hapart.1 _ hresult id' prepared' id prepared hready rfl

theorem Once.sendResult
    (hsocket : ∀ id prepared, result = .ready id prepared → prepared.socket < s.sockets)
    (hnew : ∀ id prepared, result = .ready id prepared → s.fates.find? prepared.socket = none) :
    Once { s with results := s.results ++ [result], fates := s.mark .queued result } := by
  refine h.set_fates _ _ (fun socket hstored => ?_) (h.mark_fresh hsocket) (fun id prepared hmem => ?_) ?_
  · rw [← hstored]
    exact find?_mark fun id prepared hready =>
      socket_ne_of_fates (hnew id prepared hready) hstored (by simp)
  · rcases List.mem_append.mp hmem with hmem | hmem
    · refine h.mark_queued (fun id' prepared' hready => ?_) id prepared hmem
      rw [hnew id' prepared' hready]
      simp
    · rw [← List.mem_singleton.mp hmem]
      exact Table.find?_insert_self ..
  · refine List.pairwise_append.mpr ⟨h.apart, List.pairwise_singleton .., fun old hold new hnew' => ?_⟩
    rintro id prepared id' prepared' rfl rfl
    -- the new socket has no fate yet
    have hresult := List.mem_singleton.mp hnew'
    exact socket_ne_of_fates (h.queued id prepared hold) (hnew id' prepared' hresult.symm) (by simp)

/-- What is in the slot changes, if afterwards its socket is stored. -/
theorem Once.set_attempt (attempt : Option AttemptSlot)
    (hslot : ∀ slot prepared, attempt = some slot → slot.prepared = some prepared →
      s.fates.find? prepared.socket = some .stored) :
    Once { s with attempt := attempt } :=
  { h with slot := hslot }

/-- The same socket in the slot. -/
theorem Once.map_attempt {f : AttemptSlot → AttemptSlot}
    (hf : ∀ slot, (f slot).prepared = slot.prepared) :
    Once { s with attempt := s.attempt.map f } := by
  refine h.set_attempt _ fun slot prepared hslot hprepared => ?_
  obtain ⟨old, hold, rfl⟩ := Option.map_eq_some_iff.mp hslot
  exact h.slot old prepared hold ((hf old).symm.trans hprepared)

theorem Once.prepare (id : ConditionalRequestId) {prepared : PreparedSocket}
    (hreceived : s.fates.find? prepared.socket = some .received) :
    Once { s with
      attempt := s.attempt.map fun slot => { slot with prepared := some prepared }
      fates := s.fates.insert prepared.socket .stored } := by
  have hfates : Once { s with fates := s.mark .stored (.ready id prepared) } := by
    refine h.judge ?_
    rintro id' prepared' ⟨⟩
    exact hreceived
  refine hfates.set_attempt _ fun slot prepared' hslot hprepared => ?_
  obtain ⟨old, hold, rfl⟩ := Option.map_eq_some_iff.mp hslot
  cases hprepared
  exact Table.find?_insert_self ..

theorem Once.claim (hslot : s.attempt = some slot) : Once { s with
      attempt := some (slot.withState .claimed)
      claims := slot.withState .claimed :: s.claims } := by
  refine { h with slot := ?_, claims := ?_ }
  · intro slot' prepared hslot' hprepared
    cases hslot'
    exact h.slot slot prepared hslot hprepared
  · intro slot' hmem prepared hprepared
    rcases List.mem_cons.mp hmem with rfl | hmem
    · exact h.slot slot prepared hslot hprepared
    · exact h.claims slot' hmem prepared hprepared

/-- More sockets are opened. -/
theorem Once.open (runs : List WorkerRun) :
    Once { s with sockets := s.sockets + 1, runs := runs } :=
  { h with fresh := fun socket fate hfound => Nat.lt_succ_of_lt (h.fresh socket fate hfound) }

/-- Every operation keeps `Once`: it decides about a socket at most once. -/
theorem once_of_exec (hbacking : Backing s) (hexec : op.exec c s = some (resp, s'))
    (hknows : Knows trusted s op) : Once s' := by
  cases op with
  | setState state => cases hexec; exact h.map_attempt fun _ => rfl
  | prepare id prepared => cases hexec; exact h.prepare id hknows.2.2.1
  | unprepare =>
    cases hexec
    refine h.set_attempt _ fun slot prepared hslot hprepared => ?_
    obtain ⟨old, -, rfl⟩ := Option.map_eq_some_iff.mp hslot
    cases hprepared
  | markReady =>
    simp only [AcceptOp.exec] at hexec
    split at hexec
    · cases hexec
    · rename_i slot hslot
      split at hexec <;> cases hexec
      · have hmap := h.map_attempt (f := AttemptSlot.withState .ready) fun _ => rfl
        rw [hslot] at hmap
        exact hmap
      · exact h
  | claim =>
    simp only [AcceptOp.exec] at hexec
    split at hexec
    · cases hexec
    · rename_i slot hslot
      split at hexec <;> cases hexec
      · exact h.claim hslot
      · exact h
  | takeSlot other =>
    simp only [AcceptOp.exec] at hexec
    split at hexec <;> cases hexec
    · exact h
    · exact { h with slot := fun _ _ hnone => by cases hnone }
  | install =>
    obtain ⟨slot, hslot, heq⟩ := holding_eq_some hexec
    cases heq
    obtain ⟨-, -, id, hid⟩ := hknows
    rw [hslot] at hid
    cases hid
    exact { h with slot := fun slot prepared hslot hprepared => by cases hslot; cases hprepared }
  | tryRecv =>
    simp only [AcceptOp.exec] at hexec
    split at hexec
    · cases hexec
      exact h
    · rename_i result results hresults
      cases hexec
      exact h.tryRecv hresults
  | discard result => cases hexec; exact h.judge hknows
  | wsaAccept last =>
    simp only [AcceptOp.exec] at hexec
    split at hexec <;> cases hexec
    · exact h
    · exact h.open s.runs
  | connect id mapping =>
    simp only [AcceptOp.exec] at hexec
    split at hexec <;> cases hexec
    · exact h
    · exact h.open _
  | sendResult result =>
    simp only [AcceptOp.exec] at hexec
    split at hexec <;> cases hexec
    · exact h
    · refine h.sendResult (fun id prepared hresult => ?_) fun id prepared hresult => ?_
      · obtain ⟨mapping, -, -, -, hrun⟩ := (hknows id prepared hresult).1
        exact hbacking.fresh _ hrun
      · exact (hknows id prepared hresult).2
  | setHeldState | swapReleased =>
    obtain ⟨slot, -, heq⟩ := holding_eq_some hexec
    cases heq
    exact { h with }
  | _ =>
    -- the others change neither the slot, nor the results, nor the fates
    simp only [AcceptOp.exec] at hexec
    (repeat' split at hexec) <;> cases hexec <;> exact { h with }

end

/-- **Every operation keeps the context `Consistent`.** -/
theorem consistent_of_exec (h : Consistent s) (hexec : op.exec c s = some (resp, s'))
    (hknows : Knows trusted s op) : Consistent s' :=
  ⟨ledger_of_exec h.ledger hexec hknows, backing_of_exec h.backing hexec hknows,
    once_of_exec h.once h.backing hexec hknows⟩

end Sockets

end ShadowSocketProxy.HostProxy.WindowsConditional
