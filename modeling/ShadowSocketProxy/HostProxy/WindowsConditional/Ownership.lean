import ShadowSocketProxy.HostProxy.WindowsConditional.Threads

/-! # Conditional accept: who owns what

The contract between the threads. Each counter is the number of units that someone owns: the slot, the
flag of the reserved handoff, the channel, or a thread. A thread gives back only what it owns, changes the
slot only under its lock, and leaves alone what stands under the name of another. What is in the slot was
connected by the worker for the very attempt. -/

namespace ShadowSocketProxy.HostProxy.WindowsConditional

open Interleaving

/-! ## The invariant -/

/-- A thread that takes attempts out of the slot and reserves or releases handoffs. -/
def Party.stops : Party → Bool
  | .worker => false
  | .consumer => false
  | _ => true

namespace ConditionalContext

/-- The number of attempts in the slot. -/
def occupied (s : ConditionalContext) : Nat := if s.attempt.isSome then 1 else 0

/-- The number of units that the flag stands for. -/
def reserved (s : ConditionalContext) : Nat := if s.handoffReserved then 1 else 0

/-- The number of live handoffs. -/
def live (s : ConditionalContext) : Nat := s.carried.size + s.queue.length

end ConditionalContext

/-- The worker has asked where the client of an attempt was going, the answer has passed the check, and
the socket is connected there. -/
def Backed (s : ConditionalContext) (id : ConditionalRequestId) (prepared : PreparedSocket) : Prop :=
  ∃ mapping, (id, mapping) ∈ s.mappings ∧ validateTcpMapping id.tuple mapping = .ok () ∧
    prepared.destination = mapping.address ∧ ⟨id, mapping, prepared.socket⟩ ∈ s.runs

/-- The counters are what is owned. -/
structure Ledger (s : ConditionalContext) : Prop where
  pending : s.pending = (s.occupied + s.hands.size : Nat)
  pending_le : s.pending ≤ s.limit
  handoffs : s.handoffs = (s.live + s.reserved + s.transit.size : Nat)
  handoffs_le : s.handoffs ≤ s.limit
  unreleased : ∀ slot, s.attempt = some slot → slot.attempt.released = false
  stopped : s.accepting = false → s.stoppers ≠ []
  outsiders : ∀ party, party.stops = false →
    s.hands.find? party = none ∧ s.transit.find? party = none ∧ party ∉ s.stoppers

/-- Sockets belong to attempts. -/
structure Backing (s : ConditionalContext) : Prop where
  slot : ∀ slot prepared, s.attempt = some slot → slot.prepared = some prepared →
    Backed s slot.attempt.id prepared
  ready : ∀ slot, s.attempt = some slot →
    slot.attempt.state = .ready ∨ slot.attempt.state = .claimed → slot.prepared.isSome = true
  results : ∀ id prepared, .ready id prepared ∈ s.results → Backed s id prepared
  claimed : ∀ slot, s.attempt = some slot → slot.attempt.state = .claimed → slot ∈ s.claims
  claims : ∀ slot ∈ s.claims, ∃ prepared, slot.prepared = some prepared ∧
    Backed s slot.attempt.id prepared
  fresh : ∀ run ∈ s.runs, run.socket < s.sockets
  distinct : ∀ run ∈ s.runs, ∀ run' ∈ s.runs, run.socket = run'.socket → run = run'

/-- Two results have no socket in common. -/
def WorkerResult.Apart (result result' : WorkerResult) : Prop :=
  ∀ id prepared id' prepared', result = .ready id prepared → result' = .ready id' prepared' →
    prepared.socket ≠ prepared'.socket

/-- A socket is reported once, and either stored in the slot or discarded. -/
structure Once (s : ConditionalContext) : Prop where
  fresh : ∀ socket fate, s.fates.find? socket = some fate → socket < s.sockets
  queued : ∀ id prepared, .ready id prepared ∈ s.results →
    s.fates.find? prepared.socket = some .queued
  apart : s.results.Pairwise WorkerResult.Apart
  slot : ∀ slot prepared, s.attempt = some slot → slot.prepared = some prepared →
    s.fates.find? prepared.socket = some .stored
  claims : ∀ slot ∈ s.claims, ∀ prepared, slot.prepared = some prepared →
    s.fates.find? prepared.socket = some .stored

/-- **The invariant** of the shared state. -/
structure Consistent (s : ConditionalContext) : Prop where
  ledger : Ledger s
  backing : Backing s
  once : Once s

/-! ## What the threads know -/

/-- What has happened has happened. -/
structure Remembers (s s' : ConditionalContext) : Prop where
  mappings : ∀ x ∈ s.mappings, x ∈ s'.mappings
  runs : ∀ x ∈ s.runs, x ∈ s'.runs
  claims : ∀ x ∈ s.claims, x ∈ s'.claims

theorem Remembers.refl (s : ConditionalContext) : Remembers s s :=
  ⟨fun _ h => h, fun _ h => h, fun _ h => h⟩

theorem Remembers.trans {s s' s'' : ConditionalContext} (h : Remembers s s') (h' : Remembers s' s'') :
    Remembers s s'' :=
  ⟨fun x hx => h'.mappings x (h.mappings x hx), fun x hx => h'.runs x (h.runs x hx),
    fun x hx => h'.claims x (h.claims x hx)⟩

theorem Backed.remembers {s s' : ConditionalContext} {id : ConditionalRequestId}
    {prepared : PreparedSocket} (h : Backed s id prepared) (hs : Remembers s s') :
    Backed s' id prepared := by
  obtain ⟨mapping, hmapping, hvalid, haddress, hrun⟩ := h
  exact ⟨mapping, hs.mappings _ hmapping, hvalid, haddress, hs.runs _ hrun⟩

/-- What a thread may rely on besides its own hand. -/
structure Keeps (party : Party) (s s' : ConditionalContext) : Prop extends Remembers s s' where
  transit : s'.transit.find? party = s.transit.find? party
  carried : s'.carried.find? party = s.carried.find? party
  guard : s'.guard = some party ↔ s.guard = some party
  /-- Under the lock the slot is one's own. -/
  held : s.guard = some party → s'.attempt = s.attempt ∧ s'.accepting = s.accepting
  accepting : s.accepting = false → s'.accepting = false
  /-- Only the coordinator reserves, and only before the end. -/
  reserved : party = .coordinator ∨ s.accepting = false → s'.handoffReserved = true →
    s.handoffReserved = true
  /-- Only those who end everything take the slot from the coordinator. -/
  slot : party = .coordinator → s'.attempt = s.attempt ∨ s'.attempt = none ∧ s'.accepting = false
  generation : party = .coordinator → s'.acceptedGeneration = s.acceptedGeneration
  stoppers : party ∈ s'.stoppers ↔ party ∈ s.stoppers
  /-- Only the worker reports sockets. -/
  unreported : party = .worker → ∀ socket, s.fates.find? socket = none → s'.fates.find? socket = none
  /-- Only the coordinator decides what becomes of them. -/
  received : party = .coordinator → ∀ socket, s.fates.find? socket = some .received →
    s'.fates.find? socket = some .received

theorem Keeps.refl (party : Party) (s : ConditionalContext) : Keeps party s s where
  toRemembers := .refl s
  transit := rfl
  carried := rfl
  guard := Iff.rfl
  held _ := ⟨rfl, rfl⟩
  accepting h := h
  reserved _ h := h
  slot _ := .inl rfl
  generation _ := rfl
  stoppers := Iff.rfl
  unreported _ _ h := h
  received _ _ h := h

theorem Keeps.trans {party : Party} {s s' s'' : ConditionalContext} (h : Keeps party s s')
    (h' : Keeps party s' s'') : Keeps party s s'' where
  toRemembers := h.toRemembers.trans h'.toRemembers
  transit := h'.transit.trans h.transit
  carried := h'.carried.trans h.carried
  guard := h'.guard.trans h.guard
  held hguard := by
    obtain ⟨hattempt, haccepting⟩ := h.held hguard
    obtain ⟨hattempt', haccepting'⟩ := h'.held (h.guard.mpr hguard)
    exact ⟨hattempt'.trans hattempt, haccepting'.trans haccepting⟩
  accepting hended := h'.accepting (h.accepting hended)
  reserved hwhen hreserved := h.reserved hwhen (h'.reserved (hwhen.imp id h.accepting) hreserved)
  slot hparty := by
    rcases h'.slot hparty with hsame | hended
    · rcases h.slot hparty with hsame' | ⟨hnone, hended⟩
      · exact .inl (hsame.trans hsame')
      · exact .inr ⟨hsame.trans hnone, h'.accepting hended⟩
    · exact .inr hended
  generation hparty := (h'.generation hparty).trans (h.generation hparty)
  stoppers := h'.stoppers.trans h.stoppers
  unreported hparty socket hnone := h'.unreported hparty socket (h.unreported hparty socket hnone)
  received hparty socket hreceived := h'.received hparty socket (h.received hparty socket hreceived)

/-- How the others may change the state under a thread. -/
structure Around (party : Party) (s s' : ConditionalContext) : Prop extends Keeps party s s' where
  hands : s'.hands.find? party = s.hands.find? party

theorem Around.refl (party : Party) (s : ConditionalContext) : Around party s s := ⟨.refl party s, rfl⟩

theorem Around.trans {party : Party} {s s' s'' : ConditionalContext} (h : Around party s s')
    (h' : Around party s' s'') : Around party s s'' :=
  ⟨h.toKeeps.trans h'.toKeeps, h'.hands.trans h.hands⟩

/-- What stands under the name of a thread. -/
structure Holds (party : Party) (hand : Option AttemptSlot) (handoff : Option SocketHandoff)
    (locked : Prop) (s : ConditionalContext) : Prop where
  hands : s.hands.find? party = hand
  transit : s.transit.find? party = none
  carried : s.carried.find? party = handoff
  guard : s.guard = some party ↔ locked

/-- The same; and once the thread has ended everything, no handoff is reserved. -/
structure View (party : Party) (hand : Option AttemptSlot) (handoff : Option SocketHandoff)
    (locked : Prop) (s : ConditionalContext) : Prop extends Holds party hand handoff locked s where
  ended : party ∈ s.stoppers → s.accepting = false ∧ s.handoffReserved = false

section View

variable {party : Party} {hand : Option AttemptSlot} {handoff : Option SocketHandoff} {locked : Prop}
  {s s' : ConditionalContext}

/-- No handoff is reserved again. -/
theorem Keeps.unreserved (hs : Keeps party s s') (hwhen : party = .coordinator ∨ s.accepting = false)
    (h : s.handoffReserved = false) : s'.handoffReserved = false := by
  refine Bool.eq_false_iff.mpr fun htrue => ?_
  rw [hs.reserved hwhen htrue] at h
  cases h

section

variable (h : Holds party hand handoff locked s)

include h

theorem Holds.keeps (hs : Keeps party s s')
    {hand' : Option AttemptSlot} (hhand : s'.hands.find? party = hand') :
    Holds party hand' handoff locked s' where
  hands := hhand
  transit := hs.transit.trans h.transit
  carried := hs.carried.trans h.carried
  guard := hs.guard.trans h.guard

theorem Holds.around (hs : Around party s s') : Holds party hand handoff locked s' :=
  h.keeps hs.toKeeps (hs.hands.trans h.hands)

theorem Holds.lock : Holds party hand handoff True { s with guard := some party } :=
  { h with guard := iff_of_true rfl trivial }

theorem Holds.unlock : Holds party hand handoff False { s with guard := none } :=
  { h with guard := iff_of_false (Option.some_ne_none party).symm id }

end

section

variable (h : View party hand handoff locked s)

include h

theorem View.lock : View party hand handoff True { s with guard := some party } :=
  ⟨h.toHolds.lock, h.ended⟩

theorem View.unlock : View party hand handoff False { s with guard := none } :=
  ⟨h.toHolds.unlock, h.ended⟩

theorem View.keeps (hs : Keeps party s s')
    {hand' : Option AttemptSlot} (hhand : s'.hands.find? party = hand') :
    View party hand' handoff locked s' where
  toHolds := h.toHolds.keeps hs hhand
  ended hmem := by
    obtain ⟨haccepting, hreserved⟩ := h.ended (hs.stoppers.mp hmem)
    exact ⟨hs.accepting haccepting, hs.unreserved (.inr haccepting) hreserved⟩

theorem View.around (hs : Around party s s') : View party hand handoff locked s' :=
  h.keeps hs.toKeeps (hs.hands.trans h.hands)

end

end View

/-- A reserved handoff is one for the claimed attempt in the slot, or someone is ending everything. -/
def Settled (s : ConditionalContext) : Prop :=
  s.handoffReserved = true →
    s.accepting = false ∨ ∃ slot, s.attempt = some slot ∧ slot.attempt.state = .claimed

theorem Settled.keeps {s s' : ConditionalContext} (h : Settled s) (hs : Keeps .coordinator s s') :
    Settled s' := by
  intro hreserved
  rcases h (hs.reserved (.inl rfl) hreserved) with hended | ⟨slot, hslot, hclaimed⟩
  · exact .inl (hs.accepting hended)
  · rcases hs.slot rfl with hsame | ⟨-, hended⟩
    · exact .inr ⟨slot, hsame.trans hslot, hclaimed⟩
    · exact .inl hended

/-- What a thread leaves behind: nothing under its name. -/
structure Idle (party : Party) (s : ConditionalContext) : Prop extends View party none none False s where
  settled : party = .coordinator → Settled s

theorem Idle.around {party : Party} {s s' : ConditionalContext} (h : Idle party s)
    (hs : Around party s s') : Idle party s' := by
  refine ⟨h.toView.around hs, fun hparty => ?_⟩
  subst hparty
  exact (h.settled rfl).keeps hs.toKeeps

/-! ## The contract -/

/-- The thread that may issue an operation, where not everyone may. -/
def AcceptOp.party : AcceptOp → Option Party
  | .lock party => some party
  | .unlock party _ => some party
  | .readSlot party => some party
  | .stopAccepting party => some party
  | .takeSlot party => some party
  | .setHeldState party _ => some party
  | .swapReleased party => some party
  | .subPending party => some party
  | .swapReserved party => some party
  | .subHandoff party => some party
  | .dropHandoff party => some party
  | .recvHandoff party => some party
  | .tryLock => some .coordinator
  | .setState _ => some .coordinator
  | .prepare _ _ => some .coordinator
  | .unprepare => some .coordinator
  | .markReady => some .coordinator
  | .claim => some .coordinator
  | .reserve _ => some .coordinator
  | .install => some .coordinator
  | .addHandoff => some .coordinator
  | .setReserved => some .coordinator
  | .handOver _ => some .coordinator
  | .sendHandoff => some .coordinator
  | .storeGeneration _ => some .coordinator
  | .tryRecv => some .coordinator
  | .discard _ => some .coordinator
  | .sendResult _ => some .worker
  | _ => none

/-- What must be so when the lock is given up. -/
def Unlock.Fits (s : ConditionalContext) : Unlock → Prop
  | .stop => s.accepting = false
  | .answer tuple .accept => s.accepting = true ∧
      ∃ slot, s.attempt = some slot ∧ slot.attempt.id.tuple = tuple ∧ slot.attempt.state = .claimed
  | _ => True

/-- A handoff is of a claimed attempt; if accepted sockets can be trusted, also its client is. -/
structure Pairs (trusted : Prop) (s : ConditionalContext) (handoff : SocketHandoff) : Prop where
  claim : ∃ slot ∈ s.claims, slot.attempt.id = ⟨handoff.tuple, handoff.generation⟩ ∧
    slot.prepared = some handoff.outbound
  client : trusted → handoff.client.tuple = handoff.tuple

/-- What a thread must know before an operation. -/
def Knows (trusted : Prop) (s : ConditionalContext) : AcceptOp → Prop
  | .unlock party cause => s.guard = some party ∧ cause.Fits s
  | .readSlot party => s.guard = some party
  | .setState state => s.guard = some .coordinator ∧ state ≠ .ready ∧ state ≠ .claimed
  | .prepare id prepared => s.guard = some .coordinator ∧ Backed s id prepared ∧
      s.fates.find? prepared.socket = some .received ∧
      ∃ slot, s.attempt = some slot ∧ slot.attempt.id = id ∧ slot.attempt.state = .deferred
  | .unprepare => s.guard = some .coordinator ∧ ∀ slot, s.attempt = some slot →
      slot.attempt.state ≠ .ready ∧ slot.attempt.state ≠ .claimed
  | .markReady => s.guard = some .coordinator ∧ ∀ slot, s.attempt = some slot →
      slot.prepared.isSome = true
  | .claim => s.guard = some .coordinator
  | .stopAccepting party => s.guard = some party ∧ party.stops = true
  | .takeSlot party => s.guard = some party ∧ party.stops = true ∧ s.hands.find? party = none ∧
      (party ≠ .coordinator → s.accepting = false)
  | .reserve _ => s.hands.find? .coordinator = none
  | .install => s.guard = some .coordinator ∧ s.attempt = none ∧
      ∃ id, s.hands.find? .coordinator = some { attempt := { id := id } }
  | .subPending party => ∃ slot, s.hands.find? party = some slot
  | .addHandoff => s.transit.find? .coordinator = none
  | .setReserved => s.accepting = true ∧ s.handoffReserved = false ∧
      s.transit.find? .coordinator = some ()
  | .swapReserved party => party.stops = true ∧ s.transit.find? party = none
  | .handOver handoff => s.carried.find? .coordinator = none ∧ Pairs trusted s handoff
  | .subHandoff party => s.transit.find? party = some ()
  | .dropHandoff party => ∃ handoff, s.carried.find? party = some handoff
  | .recvHandoff party => s.carried.find? party = none
  | .connect id mapping => (id, mapping) ∈ s.mappings ∧ validateTcpMapping id.tuple mapping = .ok ()
  | .discard result => ∀ id prepared, result = .ready id prepared →
      s.fates.find? prepared.socket = some .received
  | .sendResult result => ∀ id prepared, result = .ready id prepared →
      Backed s id prepared ∧ s.fates.find? prepared.socket = none
  | _ => True

/-- The operations at which a thread has nothing in its hands: it waits for the lock, for results, for the
wake event, or for `WSAAccept`. -/
def AcceptOp.pauses : AcceptOp → Bool
  | .lock _ => true
  | .tryRecv => true
  | .wsaAccept _ => true
  | .wait => true
  | .resetEvent => true
  | _ => false

/-- `WSAAccept` returns a socket only for the connection that its last callback has accepted. -/
def acceptsLast (e : AcceptEvent) : Prop :=
  match e.op, e.resp with
  | .wsaAccept last, .ok client => last = some (client.tuple, .accept)
  | _, _ => True

/-- The contract between the threads. -/
def acceptContract (trusted : Prop) :
    Contract AcceptOp AcceptOp.Resp ConditionalContext AcceptChoice AcceptJob where
  inv := Consistent
  pre job op s := (∀ party, op.party = some party → party = job.party) ∧ Knows trusted s op ∧
    (op.pauses = true → Idle job.party s)
  rely job s s' := Around job.party s s'
  beside job job' := job.party ≠ job'.party
  permitted e := trusted → acceptsLast e
  rest job s := Idle job.party s

end ShadowSocketProxy.HostProxy.WindowsConditional
