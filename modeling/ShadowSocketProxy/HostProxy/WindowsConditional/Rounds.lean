import ShadowSocketProxy.HostProxy.WindowsConditional.Callback

/-! # Conditional accept: the threads keep the contract

What is left of a round of the coordinator, the rounds of the worker and of the conversion, and the end of
everything; together, every job keeps the contract. -/

namespace ShadowSocketProxy.HostProxy.WindowsConditional

open Interleaving

section Coordinator

variable {trusted : Prop} {results : Nat}
  {callbacks : List (Option (List UInt8) × Option (List UInt8))} {s : ConditionalContext} {β : Type}
  {Q : β → ConditionalContext → Prop} {handoff : SocketHandoff}

/-! ## Before `WSAAccept` returns -/

/-- `drainResults` applies the results that are there. -/
theorem meets_drainResults (n : Nat) (h : Idle .coordinator s) :
    Meets trusted (.coordinate results callbacks) (drainResults n)
      (fun _ s' => Idle .coordinator s') s := by
  induction n generalizing s with
  | zero => exact h
  | succ n ih =>
    refine meets_pause h (fun _ h => (Option.some.inj h).symm) fun s₁ hs hinv =>
      ⟨trivial, fun c resp s₂ hexec => ?_⟩
    have h₁ := h.around hs
    simp only [AcceptOp.exec] at hexec
    split at hexec
    · cases hexec
      exact h₁
    · rename_i result rest hresults
      cases hexec
      have h₂ : Idle .coordinator { s₁ with results := rest, fates := s₁.mark .received result } :=
        ⟨⟨{ h₁.toHolds with }, h₁.ended⟩, h₁.settled⟩
      refine Contract.meets_seq (meets_applyWorkerResult h₂ ?_) fun _ s₃ h₃ => ih h₃
      -- what is received had been backed when it was sent
      rintro id prepared rfl
      have hmem : WorkerResult.ready id prepared ∈ s₁.results := by
        rw [hresults]
        exact List.mem_cons_self
      refine ⟨(hinv.backing.results id prepared hmem).remembers
        ⟨fun _ h => h, fun _ h => h, fun _ h => h⟩, ?_⟩
      exact Table.find?_insert_self ..

/-- The callbacks of one `WSAAccept`, by induction on them: the last answer is what counts. -/
theorem meets_runCallbacks (callbacks' : List (Option (List UInt8) × Option (List UInt8)))
    {last : Option (SocketTuple × Answer)} (h : Idle .coordinator s)
    (hlast : ∀ tuple, last = some (tuple, .accept) → Accepted tuple s) :
    Meets trusted (.coordinate results callbacks) (runCallbacks callbacks' last)
      (fun last s' => Idle .coordinator s' ∧
        ∀ tuple, last = some (tuple, .accept) → Accepted tuple s') s := by
  induction callbacks' generalizing s last with
  | nil => exact ⟨h, hlast⟩
  | cons callback callbacks' ih =>
    refine Contract.meets_seq (meets_conditionCallback h) fun answer s₁ ⟨h₁, hanswer⟩ => ?_
    refine ih h₁ fun tuple htuple => ?_
    obtain ⟨other, hother, hpair⟩ := Option.map_eq_some_iff.mp htuple
    cases hpair
    obtain ⟨accepted, haccepted, hslot⟩ := hanswer rfl
    rw [Option.some.inj (hother.symm.trans haccepted)]
    exact hslot

/-- `WSAAccept` returns. A socket that can be trusted is for the attempt in the slot. -/
theorem meets_wsaAccept {last : Option (SocketTuple × Answer)}
    {f : Except Int ClientSocket → Prog β} (h : Idle .coordinator s)
    (hlast : ∀ tuple, last = some (tuple, .accept) → Accepted tuple s)
    (hf : ∀ returned s', Idle .coordinator s' →
      (∀ client, returned = .ok client → trusted → Accepted client.tuple s') →
      Meets trusted (.coordinate results callbacks) (f returned) Q s') :
    Meets trusted (.coordinate results callbacks) (AcceptOp.take (.wsaAccept last) >>= f) Q s := by
  intro s₁ hs hinv
  refine ⟨⟨fun _ h => (by cases h), trivial, fun _ => h.around hs⟩,
    fun c returned s₂ hexec hpermitted _ => ?_⟩
  obtain ⟨thread, hpermitted⟩ := hpermitted
  have hexec : AcceptOp.exec c (.wsaAccept last) s₁ = some (returned, s₂) := hexec
  have hknows : Knows trusted s₁ (.wsaAccept last) := trivial
  have hs₂ : Around .coordinator s s₂ :=
    hs.trans (around_of_exec hinv.once hexec (Option.some_ne_none _).symm hknows)
  refine hf returned s₂ (h.around hs₂) fun client hreturned htrusted => ?_
  subst hreturned
  exact (hlast client.tuple (hpermitted htrusted)).around hs₂

/-! ## After `WSAAccept` has returned -/

/-- `makeHandoff` of a claimed attempt, or nothing is left of it. -/
theorem meets_makeHandoff {taken : Option AttemptSlot} {client : ClientSocket}
    (h : Removed taken False s) (hclaim : ∀ slot, taken = some slot → slot ∈ s.claims)
    (hclient : ∀ slot, taken = some slot → trusted → client.tuple = slot.attempt.id.tuple) :
    Meets trusted (.coordinate results callbacks) (makeHandoff client taken)
      (fun handed s' => (handed = false → Idle .coordinator s') ∧
        (handed = true → ∃ handoff, View .coordinator none (some handoff) False s' ∧ Settled s')) s := by
  cases taken with
  | none => exact ⟨fun _ => h.idle, fun htrue => (by cases htrue)⟩
  | some slot =>
    have hreleased := h.unreleased slot rfl
    simp only [makeHandoff]
    split
    · refine Contract.meets_seq (meets_releaseHandoffReservation rfl h.transit) ?_
      rintro - s₁ ⟨hs₁, hreserved⟩
      refine Contract.meets_seq (meets_release (hs₁.hands.trans h.hands) hreleased) ?_
      rintro - s₂ ⟨hs₂, hhand⟩
      have hunreserved := hs₂.unreserved (.inl rfl) (hreserved (.inl rfl))
      refine ⟨fun _ => ⟨(h.toView.around hs₁).keeps hs₂ hhand, fun _ htrue => ?_⟩,
        fun htrue => (by cases htrue)⟩
      rw [hunreserved] at htrue
      cases htrue
    · rename_i outbound hprepared
      refine Contract.meets_seq (meets_release h.hands hreleased) fun _ s₁ ⟨hs₁, hhand⟩ => ?_
      have h₁ := h.toView.keeps hs₁ hhand
      refine meets_take (f := Program.ret) rfl (fun _ h => (Option.some.inj h).symm)
        fun s₂ hs₂ _ => ⟨⟨hs₂.carried.trans h₁.carried, ?_⟩, fun c handed s₃ hexec => ?_⟩
      · refine ⟨⟨slot, ?_, rfl, hprepared⟩, hclient slot rfl⟩
        exact hs₂.claims _ (hs₁.claims _ (hclaim slot rfl))
      have h₂ := h₁.around hs₂
      simp only [AcceptOp.exec] at hexec
      -- either way the flag is down afterwards
      split at hexec
      · cases hexec
        refine ⟨fun hfalse => (by cases hfalse), fun _ => ?_⟩
        refine ⟨⟨client, outbound, slot.attempt.id.tuple, slot.attempt.id.generation⟩,
          ⟨?_, fun hmem => ?_⟩, ?_⟩
        · exact ⟨h₂.hands, h₂.transit, Table.find?_insert_self .., h₂.guard⟩
        · exact ⟨(h₂.ended hmem).1, rfl⟩
        · exact fun htrue => (by cases htrue)
      · rename_i hunreserved
        cases hexec
        exact ⟨fun _ => ⟨h₂, fun _ htrue => absurd htrue hunreserved⟩, fun htrue => (by cases htrue)⟩

/-- `dropHandoff` gives the unit of the handoff back. -/
theorem meets_dropHandoff {job : AcceptJob} {f : Unit → Prog β}
    (hhandoff : s.carried.find? job.party = some handoff)
    (hf : ∀ s₁, Around job.party s s₁ → ∀ carried handoffs, carried.find? job.party = none →
      Meets trusted job (f ()) Q { s₁ with carried := carried, handoffs := handoffs }) :
    Meets trusted job (AcceptOp.take (.dropHandoff job.party) >>= f) Q s := by
  refine meets_take rfl (fun _ h => (Option.some.inj h).symm) fun s₁ hs _ =>
    ⟨⟨handoff, hs.carried.trans hhandoff⟩, fun c resp s₂ hexec => ?_⟩
  cases hexec
  exact hf s₁ hs _ _ (Table.find?_erase_self ..)

/-- The coordinator drops its handoff and goes on. -/
theorem meets_dropHandoff_coordinator {next : Next}
    (h : View .coordinator none (some handoff) False s) (hsettled : Settled s) :
    Meets trusted (.coordinate results callbacks)
      (do AcceptOp.take (.dropHandoff .coordinator); pure next) (fun _ s' => Idle .coordinator s') s := by
  refine meets_dropHandoff h.carried fun s₁ hs carried handoffs hcarried => ?_
  have h₁ := h.around hs
  have hsettled₁ : Settled s₁ := hsettled.keeps hs.toKeeps
  exact ⟨⟨⟨h₁.hands, h₁.transit, hcarried, h₁.guard⟩, h₁.ended⟩, fun _ => hsettled₁⟩

/-- `sendAccepted` sends a handoff or drops it. -/
theorem meets_sendAccepted (h : View .coordinator none (some handoff) False s)
    (hsettled : Settled s) :
    Meets trusted (.coordinate results callbacks) sendAccepted (fun _ s' => Idle .coordinator s') s := by
  refine meets_free rfl rfl (fun _ => trivial) fun configured s₁ hs₁ => ?_
  have h₁ := h.around hs₁
  have hsettled₁ := hsettled.keeps hs₁.toKeeps
  cases configured with
  | error error => exact meets_dropHandoff_coordinator h₁ hsettled₁
  | ok =>
    refine meets_take rfl (fun _ h => (Option.some.inj h).symm) fun s₂ hs₂ _ =>
      ⟨trivial, fun c resp s₃ hexec => ?_⟩
    have h₂ := h₁.around hs₂
    have hsettled₂ := hsettled₁.keeps hs₂.toKeeps
    simp only [AcceptOp.exec] at hexec
    split at hexec
    · cases hexec
    · split at hexec
      · cases hexec
        exact meets_dropHandoff_coordinator h₂ hsettled₂
      · split at hexec
        · cases hexec
          exact meets_dropHandoff_coordinator h₂ hsettled₂
        · cases hexec
          exact ⟨⟨⟨h₂.hands, h₂.transit, Table.find?_erase_self .., h₂.guard⟩, h₂.ended⟩,
            fun _ => hsettled₂⟩

/-- `serveAccepted` hands an accepted socket over with the socket of its attempt. -/
theorem meets_serveAccepted {client : ClientSocket} (h : Idle .coordinator s)
    (haccepted : trusted → Accepted client.tuple s) :
    Meets trusted (.coordinate results callbacks) (serveAccepted client)
      (fun _ s' => Idle .coordinator s') s := by
  refine meets_free rfl rfl (fun _ => trivial) fun generation s₁ hs => ?_
  have h₁ := h.around hs
  split
  · exact h₁
  · refine Contract.meets_seq (p := takeHandoff generation client)
      (Contract.meets_seq (meets_takeClaimed h₁) fun taken s₂ ⟨h₂, htaken⟩ => meets_makeHandoff h₂
        (fun slot hslot => (htaken slot hslot).2) fun slot hslot htrusted => ?_)
      fun handed s₃ ⟨hfalse, htrue⟩ => ?_
    · exact ((haccepted htrusted).around hs slot (htaken slot hslot).1).symm
    · cases handed with
      | true =>
        obtain ⟨handoff, h₃, hsettled⟩ := htrue rfl
        exact meets_sendAccepted h₃ hsettled
      | false =>
        exact Contract.meets_seq (meets_rejectClaimedGeneration (hfalse rfl)) fun _ s₄ h₄ => h₄

/-- `stopAndRejectPending` by the coordinator. -/
theorem meets_stop_coordinator (h : Idle .coordinator s) :
    Meets trusted (.coordinate results callbacks) (stopAndRejectPending .coordinator)
      (fun _ s' => Idle .coordinator s') s :=
  Contract.meets_mono (meets_stopAndRejectPending rfl h) fun _ _ h' => h'.1

/-- A failed `WSAAccept`. -/
theorem meets_serveRefused {error : Int} (h : Idle .coordinator s) :
    Meets trusted (.coordinate results callbacks) (serveRefused error)
      (fun _ s' => Idle .coordinator s') s := by
  refine meets_free rfl rfl (fun _ => trivial) fun generation s₁ hs => ?_
  have h₁ := h.around hs
  have hrefused : Meets trusted (.coordinate results callbacks) (rejectRefused generation error)
      (fun _ s' => Idle .coordinator s') s₁ := by
    unfold rejectRefused
    split
    · exact meets_rejectClaimedGeneration h₁
    · split
      · exact meets_rejectActiveAttempt h₁
      · exact h₁
  refine Contract.meets_seq hrefused fun _ s₂ h₂ => ?_
  refine Contract.meets_seq (meets_rejectTerminalAttempt h₂) fun _ s₃ h₃ => ?_
  split
  · exact h₃
  · exact Contract.meets_seq (meets_stop_coordinator h₃) fun _ s₄ h₄ => h₄

/-- The coordinator waits with nothing in its hands. -/
theorem meets_pause_coordinator {op : AcceptOp} {f : op.Resp → Prog β} (h : Idle .coordinator s)
    (hop : op.party = none) (hknows : ∀ s, Knows trusted s op)
    (hf : ∀ resp s', Idle .coordinator s' →
      Meets trusted (.coordinate results callbacks) (f resp) Q s') :
    Meets trusted (.coordinate results callbacks) (op.take >>= f) Q s := by
  refine meets_pause h (fun party hparty => ?_) fun s₁ hs hinv =>
    ⟨hknows s₁, fun c resp s₂ hexec => ?_⟩
  · rw [hop] at hparty
    cases hparty
  · refine hf resp s₂ ((h.around hs).around (around_of_exec hinv.once hexec ?_ (hknows s₁)))
    rw [hop]
    exact (Option.some_ne_none _).symm

theorem meets_waitForWake (h : Idle .coordinator s) :
    Meets trusted (.coordinate results callbacks) waitForWake (fun _ s' => Idle .coordinator s') s := by
  refine meets_pause_coordinator h rfl (fun _ => trivial) fun waited s₁ h₁ => ?_
  cases waited with
  | failed => exact meets_stop_coordinator h₁
  | timeout => exact h₁
  | signalled =>
    refine meets_pause_coordinator h₁ rfl (fun _ => trivial) fun reset s₂ h₂ => ?_
    split
    · exact h₂
    · exact meets_stop_coordinator h₂

/-- **A round `runCoordinator`** leaves nothing behind. -/
theorem meets_runCoordinator (h : Idle .coordinator s) :
    Meets trusted (.coordinate results callbacks) (runCoordinator results callbacks)
      (fun _ s' => Idle .coordinator s') s := by
  refine meets_free rfl rfl (fun _ => trivial) fun accepting s₁ hs₁ => ?_
  have h₁ := h.around hs₁
  split
  · refine Contract.meets_seq (meets_drainResults results h₁) fun _ s₂ h₂ => ?_
    refine meets_take rfl (fun _ h => (Option.some.inj h).symm) fun s₃ hs₃ _ =>
      ⟨trivial, fun c resp s₄ hexec => ?_⟩
    cases hexec
    have h₃ := h₂.around hs₃
    have h₄ : Idle .coordinator { s₃ with acceptedGeneration := 0 } :=
      ⟨⟨{ h₃.toHolds with }, h₃.ended⟩, h₃.settled⟩
    refine Contract.meets_seq (meets_runCallbacks callbacks h₄ fun _ hlast => (by cases hlast))
      fun last s₅ ⟨h₅, hlast⟩ => ?_
    refine meets_wsaAccept h₅ hlast fun returned s₆ h₆ haccepted => ?_
    refine Contract.meets_seq (R := fun _ s' => Idle .coordinator s') ?_ fun next s₇ h₇ => ?_
    · cases returned with
      | ok client => exact meets_serveAccepted h₆ (haccepted client rfl)
      | error error => exact meets_serveRefused h₆
    · cases next with
      | again => exact meets_waitForWake h₇
      | leave => exact meets_stop_coordinator h₇
      | failed => exact h₇
  · exact meets_stop_coordinator h₁

end Coordinator

/-! ## The worker -/

section Worker

variable {trusted : Prop} {before between : Nat} {s : ConditionalContext} {id : ConditionalRequestId}

/-- What only reads the slot leaves nothing behind, and forgets nothing. -/
def Watched (s s' : ConditionalContext) : Prop := Idle .worker s' ∧ Remembers s s'

theorem Watched.trans {s s' s'' : ConditionalContext} (h : Watched s s') (h' : Watched s' s'') :
    Watched s s'' :=
  ⟨h'.1, h.2.trans h'.2⟩

theorem meets_peekSlot (h : Idle .worker s) :
    Meets trusted (.preconnect before between) peekSlot (fun _ s' => Watched s s') s := by
  refine meets_lock h fun s₁ hs₁ => ?_
  have h₁ := (h.toView.around hs₁).lock
  refine meets_take rfl (fun _ h => (Option.some.inj h).symm) fun s₂ hs₂ _ =>
    ⟨(h₁.around hs₂).guard.mpr trivial, fun c resp s₃ hexec => ?_⟩
  cases hexec
  have h₂ := h₁.around hs₂
  refine meets_unlock (h₂.guard.mpr trivial) trivial fun s₄ hs₄ => ?_
  refine ⟨⟨(h₂.around hs₄).unlock, fun hparty => (by cases hparty)⟩, ?_⟩
  have hs := hs₁.toRemembers.trans ({ hs₂.toRemembers with } : Remembers s₁ s₂)
  exact { hs.trans hs₄.toRemembers with }

theorem meets_deferredAttempt (h : Idle .worker s) :
    Meets trusted (.preconnect before between) deferredAttempt (fun _ s' => Watched s s') s :=
  Contract.meets_seq (meets_peekSlot h) fun _ _ h' => h'

theorem meets_attemptState (h : Idle .worker s) :
    Meets trusted (.preconnect before between) (attemptState id) (fun _ s' => Watched s s') s :=
  Contract.meets_seq (meets_peekSlot h) fun _ _ h' => h'

theorem meets_waitForAttemptCancellation (polls : Nat) (h : Idle .worker s) :
    Meets trusted (.preconnect before between) (waitForAttemptCancellation id polls)
      (fun _ s' => Watched s s') s := by
  induction polls generalizing s with
  | zero => exact ⟨h, .refl s⟩
  | succ polls ih =>
    refine Contract.meets_seq (meets_attemptState h) fun state s₁ h₁ => ?_
    split
    · exact Contract.meets_mono (ih h₁.1) fun _ _ h₂ => h₁.trans h₂
    · exact h₁

/-- What the worker has prepared is backed, and not reported yet. -/
def Prepared (id : ConditionalRequestId) (result : Except ProxyError PreparedSocket)
    (s : ConditionalContext) : Prop :=
  Idle .worker s ∧ ∀ prepared, result = .ok prepared →
    Backed s id prepared ∧ s.fates.find? prepared.socket = none

theorem Idle.prepared_error (h : Idle .worker s) (error : ProxyError) : Prepared id (.error error) s :=
  ⟨h, fun _ hprepared => (by cases hprepared)⟩

/-- `connectOutbound`: the worker connects to the answer that it was given. -/
theorem meets_connectOutbound {polls : Nat} {mapping : OriginalDestination} (h : Idle .worker s)
    (hmapping : (id, mapping) ∈ s.mappings) (hvalid : validateTcpMapping id.tuple mapping = .ok ()) :
    Meets trusted (.preconnect before between) (connectOutbound id polls mapping) (Prepared id) s := by
  refine Contract.meets_seq (meets_waitForAttemptCancellation polls h) fun cancelled s₁ ⟨h₁, hs₁⟩ => ?_
  split
  · exact h₁.prepared_error _
  · refine meets_take rfl (fun _ h => (by cases h)) fun s₂ hs₂ hinv =>
      ⟨⟨hs₂.mappings _ (hs₁.mappings _ hmapping), hvalid⟩, fun c resp s₃ hexec => ?_⟩
    have h₂ := h₁.around hs₂
    simp only [AcceptOp.exec] at hexec
    split at hexec
    · cases hexec
      exact h₂.prepared_error _
    · cases hexec
      have h₃ : Idle .worker { s₂ with
          sockets := s₂.sockets + 1, runs := ⟨id, mapping, s₂.sockets⟩ :: s₂.runs } :=
        ⟨⟨{ h₂.toHolds with }, h₂.ended⟩, h₂.settled⟩
      refine meets_free rfl rfl (fun _ => trivial) fun configured s₄ hs₄ => ?_
      cases configured with
      | error error => exact (h₃.around hs₄).prepared_error error
      | ok =>
        refine ⟨h₃.around hs₄, fun prepared hprepared => ?_⟩
        cases hprepared
        refine ⟨⟨mapping, hs₄.mappings _ (hs₂.mappings _ (hs₁.mappings _ hmapping)), hvalid, rfl, ?_⟩, ?_⟩
        · exact hs₄.runs _ List.mem_cons_self
        · -- the socket is new
          refine hs₄.unreported rfl _ (Option.eq_none_iff_forall_ne_some.mpr fun fate hfate => ?_)
          exact Nat.lt_irrefl _ (hinv.once.fresh _ fate hfate)

theorem meets_connectMapping {polls : Nat} {answer : Except ProxyError OriginalDestination}
    (h : Idle .worker s) (hanswer : ∀ mapping, answer = .ok mapping → (id, mapping) ∈ s.mappings) :
    Meets trusted (.preconnect before between) (connectMapping id polls answer) (Prepared id) s := by
  cases answer with
  | error error => exact h.prepared_error error
  | ok mapping =>
    simp only [connectMapping]
    split
    · exact h.prepared_error _
    · rename_i hvalid
      exact meets_connectOutbound h (hanswer mapping rfl) hvalid

theorem meets_preconnectAttempt (h : Idle .worker s) :
    Meets trusted (.preconnect before between) (preconnectAttempt id before between) (Prepared id) s := by
  refine meets_free rfl rfl (fun _ => trivial) fun inTime s₁ hs₁ => ?_
  split
  · refine Contract.meets_seq (meets_waitForAttemptCancellation before (h.around hs₁))
      fun cancelled s₂ ⟨h₂, _⟩ => ?_
    split
    · exact h₂.prepared_error _
    · refine meets_take rfl (fun _ h => (by cases h)) fun s₃ hs₃ _ => ⟨trivial, fun c resp s₄ hexec => ?_⟩
      have h₃ := h₂.around hs₃
      simp only [AcceptOp.exec] at hexec
      split at hexec
      · cases hexec
        exact meets_connectMapping h₃ fun _ hmapping => (by cases hmapping)
      · cases hexec
        refine meets_connectMapping ⟨⟨{ h₃.toHolds with }, h₃.ended⟩, h₃.settled⟩ fun mapping hmapping => ?_
        cases hmapping
        exact List.mem_cons_self
  · exact (h.around hs₁).prepared_error _

/-- `reportResult`: the worker reports what it has prepared. -/
theorem meets_reportResult {result : WorkerResult} (h : Idle .worker s)
    (hprepared : ∀ id prepared, result = .ready id prepared →
      Backed s id prepared ∧ s.fates.find? prepared.socket = none) :
    Meets trusted (.preconnect before between) (reportResult result)
      (fun _ s' => Idle .worker s') s := by
  refine meets_take rfl (fun _ h => (Option.some.inj h).symm) fun s₁ hs₁ _ =>
    ⟨fun id prepared hresult => ?_, fun c sent s₂ hexec => ?_⟩
  · obtain ⟨hbacked, hnone⟩ := hprepared id prepared hresult
    exact ⟨hbacked.remembers hs₁.toRemembers, hs₁.unreported rfl _ hnone⟩
  have h₁ := h.around hs₁
  have h₂ : Idle .worker s₂ := by
    simp only [AcceptOp.exec] at hexec
    split at hexec <;> cases hexec
    · exact h₁
    · exact ⟨⟨{ h₁.toHolds with }, h₁.ended⟩, h₁.settled⟩
  split
  · exact meets_free (f := Program.ret) rfl rfl (fun _ => trivial) fun _ s₃ hs₃ => h₂.around hs₃
  · exact h₂

/-- **A round `runPreconnectWorker`** leaves nothing behind, and reports only what is `Backed`. -/
theorem meets_runPreconnectWorker (h : Idle .worker s) :
    Meets trusted (.preconnect before between) (runPreconnectWorker before between)
      (fun _ s' => Idle .worker s') s := by
  refine meets_free rfl rfl (fun _ => trivial) fun accepting s₁ hs₁ => ?_
  have h₁ := h.around hs₁
  split
  · refine meets_free rfl rfl (fun _ => trivial) fun received s₂ hs₂ => ?_
    have h₂ := h₁.around hs₂
    split
    · refine Contract.meets_seq (meets_deferredAttempt h₂) fun attempt s₃ ⟨h₃, _⟩ => ?_
      cases attempt with
      | none => exact h₃
      | some id =>
        refine Contract.meets_seq (meets_attemptState h₃) fun state s₄ ⟨h₄, _⟩ => ?_
        split
        · refine Contract.meets_seq (meets_preconnectAttempt h₄) fun result s₅ ⟨h₅, hprepared⟩ => ?_
          refine meets_reportResult h₅ fun id' prepared hresult => ?_
          cases result with
          | error error => cases hresult
          | ok prepared' =>
            cases hresult
            exact hprepared prepared rfl
        · exact h₄
    · exact h₂
  · exact h₁

end Worker

/-! ## The handoffs -/

section Handoffs

variable {trusted : Prop} {job : AcceptJob} {s : ConditionalContext}

/-- Receive a handoff and drop it in the end. -/
theorem meets_recvHandoff {β : Type} {f : Bool → Prog β} {Q : β → ConditionalContext → Prop}
    (h : Idle job.party s) (hf : ∀ s', Idle job.party s' → Meets trusted job (f false) Q s')
    (ht : ∀ s' handoff, View job.party none (some handoff) False s' → Meets trusted job (f true) Q s') :
    Meets trusted job (AcceptOp.take (.recvHandoff job.party) >>= f) Q s := by
  refine meets_take rfl (fun _ h => (Option.some.inj h).symm) fun s₁ hs _ => ?_
  have h₁ := h.around hs
  refine ⟨h₁.carried, fun c resp s₂ hexec => ?_⟩
  simp only [AcceptOp.exec] at hexec
  split at hexec
  · cases hexec
    exact hf s₁ h₁
  · split at hexec
    · split at hexec
      · cases hexec
        exact hf s₁ h₁
      · cases hexec
    · rename_i handoff queue _
      cases hexec
      refine ht _ handoff ⟨⟨h₁.hands, h₁.transit, ?_, h₁.guard⟩, h₁.ended⟩
      exact Table.find?_insert_self ..

/-- A thread other than the coordinator drops its handoff. -/
theorem meets_dropHandoff_idle {handoff : SocketHandoff} {β : Type} {f : Unit → Prog β}
    {Q : β → ConditionalContext → Prop} (hparty : job.party ≠ .coordinator)
    (h : View job.party none (some handoff) False s)
    (hf : ∀ s', Idle job.party s' → Meets trusted job (f ()) Q s') :
    Meets trusted job (AcceptOp.take (.dropHandoff job.party) >>= f) Q s := by
  refine meets_dropHandoff h.carried fun s₁ hs carried handoffs hcarried => hf _ ?_
  have h₁ := h.around hs
  exact ⟨⟨⟨h₁.hands, h₁.transit, hcarried, h₁.guard⟩, h₁.ended⟩, fun h => absurd h hparty⟩

theorem meets_convertHandoff (h : Idle .consumer s) :
    Meets trusted .convert convertHandoff (fun _ s' => Idle .consumer s') s := by
  refine meets_recvHandoff h (fun _ h' => h') fun s₁ handoff h₁ => ?_
  refine meets_free rfl rfl (fun _ => trivial) fun _ s₂ hs₂ => ?_
  exact meets_dropHandoff_idle (f := Program.ret) (by decide) (h₁.around hs₂) fun _ h' => h'

theorem meets_dropQueued (n : Nat) (h : Idle .owner s) :
    Meets trusted .close (dropQueued n) (fun _ s' => Idle .owner s') s := by
  induction n generalizing s with
  | zero => exact h
  | succ n ih =>
    refine meets_recvHandoff h (fun _ h' => h') fun s₁ handoff h₁ => ?_
    exact meets_dropHandoff_idle (by decide) h₁ fun s₂ h₂ => ih h₂

theorem meets_closeConditional (h : Idle .owner s) :
    Meets trusted .close closeConditional (fun _ s' => Idle .owner s') s := by
  refine Contract.meets_seq (meets_stopAndRejectPending rfl h) fun _ s₁ ⟨h₁, _⟩ => ?_
  refine meets_free rfl rfl (fun _ => trivial) fun queued s₂ hs₂ => ?_
  exact meets_dropQueued queued (h₁.around hs₂)

end Handoffs

/-! ## All threads -/

/-- Jobs that are admitted beside each other are jobs of different threads. -/
theorem party_ne_of_admitted {job : AcceptJob}
    {threads : List (Thread AcceptOp AcceptOp.Resp AcceptJob Unit)} (h : job.admitted threads = true)
    {t : Thread AcceptOp AcceptOp.Resp AcceptJob Unit} (ht : t ∈ threads) (hfinished : t.finished = false) :
    t.job.party ≠ job.party := by
  have hall := List.all_eq_true.mp h t ht
  simp only [hfinished, Bool.or_false] at hall
  cases job with
  | coordinate results callbacks => exact of_decide_eq_true hall
  | preconnect before between => exact of_decide_eq_true hall
  | convert => exact of_decide_eq_true ((Bool.and_eq_true_iff.mp hall).2)
  | close => exact of_decide_eq_true ((Bool.and_eq_true_iff.mp hall).1)
  | stop n => exact of_decide_eq_true hall

/-- **The threads keep the `acceptContract`.** -/
theorem acceptContract_sound (trusted : Prop) : (acceptContract trusted).Sound acceptSystem where
  refl job s := .refl job.party s
  trans job a b c hab hbc := hab.trans hbc
  admits job threads h t ht hfinished :=
    have hne := party_ne_of_admitted h ht hfinished
    ⟨hne, hne.symm⟩
  keeps e s' _ hinv hpre hexec := consistent_of_exec hinv hexec hpre.2.1
  moves job e s' hbeside _ hinv hpre hexec :=
    around_of_exec (Consistent.once hinv) hexec (fun hparty => hbeside (hpre.1 job.party hparty)) hpre.2.1
  rest_rely job s s' hs h := Idle.around h hs
  rest_apart job job' s hbeside h := by
    have hparty : job.party = job'.party := Decidable.not_not.mp hbeside
    show Idle job.party s
    rw [hparty]
    exact h
  code job s _ h := by
    cases job with
    | coordinate results callbacks => exact meets_runCoordinator h
    | preconnect before between => exact meets_runPreconnectWorker h
    | convert => exact meets_convertHandoff h
    | close => exact meets_closeConditional h
    | stop n =>
      have hstops : (AcceptJob.stop n).party.stops = true := rfl
      exact Contract.meets_mono (meets_stopAndRejectPending hstops h) fun _ _ h' => h'.1

end ShadowSocketProxy.HostProxy.WindowsConditional
