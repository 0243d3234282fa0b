import ShadowSocketProxy.HostProxy.WindowsConditional.Rounds

/-! # Conditional accept: the reservations

The counters of the context over all interleavings: `pending` is the number of admitted attempts that have
not been given back, wherever they are, and `handoffs` the number of units that live handoffs, the flag or
a thread own. Both stay within the limit, and both are zero when nothing is in the slot or in a handoff and
no thread is in between. -/

namespace ShadowSocketProxy.HostProxy.WindowsConditional

open Interleaving Bpf

/-- The first state. -/
theorem ledger_new : Ledger .new where
  pending := rfl
  pending_le := by decide
  handoffs := rfl
  handoffs_le := by decide
  unreleased _ hslot := by cases hslot
  stopped h := by cases h
  outsiders _ _ := ⟨rfl, rfl, List.not_mem_nil⟩

theorem backing_new : Backing .new where
  slot _ _ hslot := by cases hslot
  ready _ hslot := by cases hslot
  results _ _ hmem := by cases hmem
  claimed _ hslot := by cases hslot
  claims _ hmem := by cases hmem
  fresh _ hmem := by cases hmem
  distinct _ hmem := by cases hmem

theorem once_new : Once .new where
  fresh _ _ hfound := by cases hfound
  queued _ _ hmem := by cases hmem
  apart := .nil
  slot _ _ hslot := by cases hslot
  claims _ hmem := by cases hmem

theorem idle_new (party : Party) : Idle party .new := by
  refine ⟨⟨⟨rfl, rfl, rfl, ?_⟩, fun hmem => ?_⟩, fun _ hreserved => ?_⟩
  · exact iff_of_false (Option.some_ne_none party).symm id
  · cases hmem
  · cases hreserved

/-- The `acceptContract` is kept in every world of the conditional listener. -/
theorem acceptContract_kept {trusted : Prop} {w : AcceptWorld}
    (h : acceptSystem.Reachable (World.start .new) w)
    (hpermitted : ∀ e ∈ w.history, trusted → acceptsLast e) :
    (acceptContract trusted).Kept acceptSystem w :=
  (acceptContract_sound trusted).kept ⟨ledger_new, backing_new, once_new⟩
    (fun job => idle_new job.party) h hpermitted

/-- No operation changes `limit`. -/
theorem limit_of_exec {c : AcceptChoice} {op : AcceptOp} {resp : op.Resp} {s s' : ConditionalContext}
    (hexec : op.exec c s = some (resp, s')) : s'.limit = s.limit := by
  cases op with
  | install | setHeldState | swapReleased =>
    obtain ⟨slot, -, hpair⟩ := holding_eq_some hexec
    cases hpair
    rfl
  | _ =>
    simp only [AcceptOp.exec] at hexec
    (repeat' split at hexec) <;> cases hexec <;> rfl

theorem limit_eq {w : AcceptWorld} (h : acceptSystem.Reachable (World.start .new) w) :
    w.shared.limit = conditionalAttemptCapacity :=
  (h.unchanged fun _ _ _ _ _ hexec => limit_of_exec hexec).1

/-! ## Threads in between -/

/-- The thread has returned, or is about to do something at which it has nothing in its hands. -/
def paused (t : Thread AcceptOp AcceptOp.Resp AcceptJob Unit) : Bool :=
  match t.program with
  | .ret _ => true
  | .call op _ => op.pauses

/-- A job of a thread. -/
def Party.job : Party → AcceptJob
  | .coordinator => .coordinate 0 []
  | .worker => .preconnect 0 0
  | .consumer => .convert
  | .owner => .close
  | .stopper n => .stop n

theorem Party.party_job (party : Party) : party.job.party = party := by
  cases party <;> rfl

variable {trusted : Prop} {w : AcceptWorld}

/-- A thread that is `paused`, or does not run, is `Idle`. -/
theorem idle_of_paused (hkept : (acceptContract trusted).Kept acceptSystem w) {party : Party}
    (hpaused : ∀ t ∈ w.threads, t.job.party = party → paused t = true) : Idle party w.shared := by
  by_cases hruns : ∃ (i : Nat) (t : Thread AcceptOp AcceptOp.Resp AcceptJob Unit),
      w.threads[i]? = some t ∧ t.finished = false ∧ t.job.party = party
  · obtain ⟨i, ⟨job, program⟩, ht, hfinished, hparty⟩ := hruns
    have hpauses := hpaused _ (List.mem_of_getElem? ht) hparty
    cases program with
    | ret value => cases hfinished
    | call op next =>
      have hmeets := hkept.threads i _ ht hfinished
      obtain ⟨⟨-, -, hidle⟩, -⟩ := hmeets w.shared (.refl job.party w.shared) hkept.inv
      exact hparty ▸ hidle hpauses
  · have hrest := hkept.rest party.job fun i t ht hfinished hsame => by
      refine hruns ⟨i, t, ht, hfinished, ?_⟩
      rw [← hsame, party.party_job]
    exact party.party_job ▸ hrest

/-- With all threads `paused` nothing is held, and a reserved handoff is one for a claimed attempt. -/
theorem settled_of_paused (hkept : (acceptContract trusted).Kept acceptSystem w)
    (hpaused : ∀ t ∈ w.threads, t.job.party.stops = true → paused t = true) :
    w.shared.hands.size = 0 ∧ w.shared.transit.size = 0 ∧
      (w.shared.handoffReserved = true → w.shared.attempt ≠ none) := by
  have hidle : ∀ party, party.stops = true → Idle party w.shared := fun party hstops =>
    idle_of_paused hkept fun t ht hparty => hpaused t ht (hparty ▸ hstops)
  have hledger : Ledger w.shared := hkept.inv.ledger
  have houtside := hledger.outsiders
  refine ⟨Table.size_eq_zero fun party => ?_, Table.size_eq_zero fun party => ?_, fun hreserved hnone => ?_⟩
  · cases hstops : party.stops with
    | true => exact (hidle party hstops).hands
    | false => exact (houtside party hstops).1
  · cases hstops : party.stops with
    | true => exact (hidle party hstops).transit
    | false => exact (houtside party hstops).2.1
  · -- with the slot empty someone has ended everything, and has cleared the flag
    have hended := ((hidle .coordinator rfl).settled rfl).ended
      (fun slot hslot => absurd (hnone.symm.trans hslot) (by simp)) hreserved
    obtain ⟨party, hparty⟩ := List.exists_mem_of_ne_nil _ (hledger.stopped hended)
    have hstops : party.stops = true := by
      by_contra hfalse
      exact (houtside party (Bool.not_eq_true _ ▸ hfalse)).2.2 hparty
    have hcleared := ((hidle party hstops).ended hparty).2
    rw [hreserved] at hcleared
    cases hcleared

/-- **The reservations are accounted for**, in every interleaving. -/
theorem reservations_accounted (h : acceptSystem.Reachable (World.start .new) w) :
    (0 ≤ w.shared.pending ∧ w.shared.pending ≤ conditionalAttemptCapacity ∧
      w.shared.pending = (w.shared.occupied + w.shared.hands.size : Nat)) ∧
    (0 ≤ w.shared.handoffs ∧ w.shared.handoffs ≤ conditionalAttemptCapacity ∧
      w.shared.handoffs = (w.shared.live + w.shared.reserved + w.shared.transit.size : Nat)) ∧
    ((∀ t ∈ w.threads, t.job.party.stops = true → paused t = true) →
      w.shared.attempt = none → w.shared.live = 0 → w.shared.pending = 0 ∧ w.shared.handoffs = 0) := by
  have hkept : (acceptContract False).Kept acceptSystem w :=
    acceptContract_kept h fun _ _ hfalse => hfalse.elim
  have hledger : Ledger w.shared := hkept.inv.ledger
  have hlimit := limit_eq h
  refine ⟨⟨?_, hlimit ▸ hledger.pending_le, hledger.pending⟩,
    ⟨?_, hlimit ▸ hledger.handoffs_le, hledger.handoffs⟩, fun hpaused hattempt hlive => ?_⟩
  · rw [hledger.pending]
    exact Int.natCast_nonneg _
  · rw [hledger.handoffs]
    exact Int.natCast_nonneg _
  · obtain ⟨hhands, htransit, hreserved⟩ := settled_of_paused hkept hpaused
    have hunreserved : w.shared.handoffReserved = false :=
      Bool.eq_false_iff.mpr fun htrue => hreserved htrue hattempt
    rw [hledger.pending, hledger.handoffs, hhands, htransit, hlive]
    simp [ConditionalContext.occupied, ConditionalContext.reserved, hattempt, hunreserved]

/-! ### Samples -/

/-- An address 10.0.0.x in a buffer of the callback. -/
def sampleBuffer (host port : UInt8) : List UInt8 :=
  [2, 0, 0, port, 10, 0, 0, host, 0, 0, 0, 0, 0, 0, 0, 0]

/-- The callback about a client. -/
def sampleCallback : Option (List UInt8) × Option (List UInt8) :=
  (some (sampleBuffer 1 7), some (sampleBuffer 3 9))

/-- The connection of that client. -/
def sampleConnection : SocketTuple := ⟨.v4 (ipv4 10 0 0 1) 7, .v4 (ipv4 10 0 0 3) 9, ipprotoTcp⟩

/-- Where the client was going. -/
def sampleOriginal : OriginalDestination := ⟨.v4 (ipv4 10 0 1 5) 80, ipprotoTcp⟩

/-- A thread goes on. -/
def goOn (thread n : Nat) (c : AcceptChoice := {}) : List (Action AcceptJob AcceptChoice) :=
  List.replicate n (.step thread c)

/-- A round in which the client is deferred, so that `WSAAccept` fails. -/
def deferRound : List (Action AcceptJob AcceptChoice) :=
  .spawn (.coordinate 0 [sampleCallback]) :: (goOn 0 10 ++ goOn 0 1 { fault := true } ++ goOn 0 6)

/-- A round of the worker, which connects for the client. -/
def connectRound : List (Action AcceptJob AcceptChoice) :=
  .spawn (.preconnect 0 0) :: goOn 1 14 { mapping := sampleOriginal }

/-- A round that begins with the result of the worker, up to a given operation. -/
def acceptRound (n : Nat) : List (Action AcceptJob AcceptChoice) :=
  .spawn (.coordinate 1 [sampleCallback]) :: goOn 2 n { tuple := sampleConnection }

/-- The client is deferred, connected for, accepted and converted: everything is given back, while the
coordinator waits. -/
theorem reservations_accounted_sample : ∃ w : AcceptWorld,
    acceptSystem.Reachable (World.start .new) w ∧ w.shared.claims.length = 1 ∧
      w.shared.pending = 0 ∧ w.shared.handoffs = 0 := by
  have hrun : (acceptSystem.run (World.start .new) (deferRound ++ connectRound ++ acceptRound 29 ++
      .spawn .convert :: goOn 3 3 ++ .spawn (.coordinate 1 []) :: goOn 4 1)).any (fun w =>
        w.shared.claims.length = 1 && w.shared.attempt = none && w.shared.live = 0 &&
          w.threads.all paused) = true := by
    decide +kernel
  obtain ⟨w, hreach, hcheck⟩ := Pool.exists_reachable_of_run hrun
  simp only [Bool.and_eq_true, List.all_eq_true, decide_eq_true_iff] at hcheck
  obtain ⟨⟨⟨hclaims, hattempt⟩, hlive⟩, hpaused⟩ := hcheck
  obtain ⟨-, -, hzero⟩ := reservations_accounted hreach
  exact ⟨w, hreach, hclaims, hzero (fun t ht _ => hpaused t ht) hattempt hlive⟩

/-- Between two operations of a thread the counters run ahead: the attempt has been taken out of the slot
but not released, it has been marked as released but is still counted, and a handoff is counted but the
flag is not yet set. -/
theorem reservations_ahead :
    (∃ w : AcceptWorld, acceptSystem.Reachable (World.start .new) w ∧ w.shared.attempt = none ∧
      w.shared.live = 0 ∧ w.shared.pending = 1) ∧
    (∃ (w : AcceptWorld) (slot : AttemptSlot), acceptSystem.Reachable (World.start .new) w ∧
      w.shared.pending = 1 ∧ w.shared.attempt = none ∧
      w.shared.hands.pairs = [(.stopper 0, slot)] ∧ slot.attempt.released = true) ∧
    (∃ w : AcceptWorld, acceptSystem.Reachable (World.start .new) w ∧ w.shared.handoffs = 1 ∧
      w.shared.live = 0 ∧ w.shared.handoffReserved = false) := by
  refine ⟨?_, ?_, ?_⟩
  · have hrun : (acceptSystem.run (World.start .new) (deferRound ++ .spawn (.stop 0) :: goOn 1 4)).any
        (fun w => w.shared.attempt = none && w.shared.live = 0 && w.shared.pending = 1) = true := by
      decide +kernel
    obtain ⟨w, hreach, hcheck⟩ := Pool.exists_reachable_of_run hrun
    simp only [Bool.and_eq_true, decide_eq_true_iff] at hcheck
    exact ⟨w, hreach, hcheck.1.1, hcheck.1.2, hcheck.2⟩
  · have hrun : (acceptSystem.run (World.start .new) (deferRound ++ .spawn (.stop 0) :: goOn 1 6)).any
        (fun w => w.shared.pending = 1 && w.shared.attempt = none && w.shared.hands.pairs =
          [(.stopper 0, ⟨⟨⟨sampleConnection, 1⟩, .cancelled, true⟩, none⟩)]) = true := by
      decide +kernel
    obtain ⟨w, hreach, hcheck⟩ := Pool.exists_reachable_of_run hrun
    simp only [Bool.and_eq_true, decide_eq_true_iff] at hcheck
    exact ⟨w, _, hreach, hcheck.1.1, hcheck.1.2, hcheck.2, rfl⟩
  · have hrun : (acceptSystem.run (World.start .new) (deferRound ++ connectRound ++ acceptRound 12)).any
        (fun w => w.shared.handoffs = 1 && w.shared.live = 0 && w.shared.handoffReserved = false) =
          true := by
      decide +kernel
    obtain ⟨w, hreach, hcheck⟩ := Pool.exists_reachable_of_run hrun
    simp only [Bool.and_eq_true, decide_eq_true_iff] at hcheck
    exact ⟨w, hreach, hcheck.1.1, hcheck.1.2, hcheck.2⟩

end ShadowSocketProxy.HostProxy.WindowsConditional
