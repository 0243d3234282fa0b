import ShadowSocketProxy.HostProxy.WindowsConditional.Accounting

/-! # Conditional accept: the pairs of sockets

Over all interleavings: the callback accepts a client only after the worker has looked up and connected
for the very attempt, a handoff consists of the accepted client and of the socket that was stored for its
attempt, a result that was discarded is in no handoff, and after the end nothing is accepted. -/

namespace ShadowSocketProxy.HostProxy.WindowsConditional

open Interleaving Bpf

section Records

variable {c : AcceptChoice} {op : AcceptOp} {resp : op.Resp} {s s' : ConditionalContext}
  {trusted : Prop} {past : List AcceptEvent}

/-! ## What the records record -/

/-- An operation was answered in this way. -/
def Did (past : List AcceptEvent) (op : AcceptOp) (resp : op.Resp) : Prop :=
  ∃ e ∈ past, (⟨e.op, e.resp⟩ : Program.Answer AcceptOp AcceptOp.Resp) = ⟨op, resp⟩

/-- The operations that write records. -/
def AcceptOp.records : AcceptOp → Bool
  | .getMapping _ => true
  | .connect _ _ => true
  | .claim => true
  | _ => false

/-- Operations without `records` leave the records alone. -/
theorem records_of_exec (hexec : op.exec c s = some (resp, s')) (hop : op.records = false) :
    s'.mappings = s.mappings ∧ s'.runs = s.runs ∧ s'.claims = s.claims := by
  cases op with
  | getMapping | connect | claim => cases hop
  | install | setHeldState | swapReleased =>
    obtain ⟨slot, -, hpair⟩ := holding_eq_some hexec
    cases hpair
    exact ⟨rfl, rfl, rfl⟩
  | _ =>
    simp only [AcceptOp.exec] at hexec
    (repeat' split at hexec) <;> cases hexec <;> exact ⟨rfl, rfl, rfl⟩

/-- Every record was made by an event. -/
structure Recorded (past : List AcceptEvent) (s : ConditionalContext) : Prop where
  mappings : ∀ id mapping, (id, mapping) ∈ s.mappings → Did past (.getMapping id) (.ok mapping)
  runs : ∀ run ∈ s.runs, Did past (.connect run.id run.mapping) (.ok ⟨run.socket, run.mapping.address⟩)
  claims : ∀ slot ∈ s.claims, ∃ e ∈ past, e.op = .claim ∧
    ∃ old, e.before.attempt = some old ∧ slot = old.withState .claimed

theorem Did.cons (h : Did past op resp) (e : AcceptEvent) : Did (e :: past) op resp := by
  obtain ⟨f, hf, hanswer⟩ := h
  exact ⟨f, List.mem_cons_of_mem _ hf, hanswer⟩

/-- `Recorded` with one more event. -/
theorem Recorded.step (h : Recorded past s) (thread : Nat) (job : AcceptJob)
    (hexec : op.exec c s = some (resp, s')) :
    Recorded (⟨thread, job, c, op, resp, s⟩ :: past) s' := by
  -- the old records are still accounted for
  have hold : Recorded (⟨thread, job, c, op, resp, s⟩ :: past) s := by
    refine ⟨fun id mapping hmem => (h.mappings id mapping hmem).cons _,
      fun run hmem => (h.runs run hmem).cons _, fun slot hmem => ?_⟩
    obtain ⟨e, he, hclaim⟩ := h.claims slot hmem
    exact ⟨e, List.mem_cons_of_mem _ he, hclaim⟩
  cases hrecords : op.records with
  | false =>
    obtain ⟨hmappings, hruns, hclaims⟩ := records_of_exec hexec hrecords
    exact ⟨hmappings ▸ hold.mappings, hruns ▸ hold.runs, hclaims ▸ hold.claims⟩
  | true =>
    cases op with
    | getMapping id =>
      simp only [AcceptOp.exec] at hexec
      split at hexec <;> cases hexec
      · exact hold
      · refine { hold with mappings := fun id' mapping hmem => ?_ }
        rcases List.mem_cons.mp hmem with heq | hmem
        · cases heq
          exact ⟨_, List.mem_cons_self, rfl⟩
        · exact hold.mappings id' mapping hmem
    | connect id mapping =>
      simp only [AcceptOp.exec] at hexec
      split at hexec <;> cases hexec
      · exact hold
      · refine { hold with runs := fun run hmem => ?_ }
        rcases List.mem_cons.mp hmem with rfl | hmem
        · exact ⟨_, List.mem_cons_self, rfl⟩
        · exact hold.runs run hmem
    | claim =>
      simp only [AcceptOp.exec] at hexec
      split at hexec
      · cases hexec
      · rename_i slot hslot
        split at hexec <;> cases hexec
        · refine { hold with claims := fun slot' hmem => ?_ }
          rcases List.mem_cons.mp hmem with rfl | hmem
          · exact ⟨_, List.mem_cons_self, rfl, slot, hslot, rfl⟩
          · exact hold.claims slot' hmem
        · exact hold
    | _ => cases hrecords

theorem recorded {w : AcceptWorld} (h : acceptSystem.Reachable (World.start .new) w) :
    Recorded w.history w.shared := by
  refine Pool.Reachable.induction (I := fun w => Recorded w.history w.shared) h ⟨?_, ?_, ?_⟩ ?_
  · exact fun _ _ hmem => (by cases hmem)
  · exact fun _ hmem => (by cases hmem)
  · exact fun _ hmem => (by cases hmem)
  · intro w a w' ih hact
    cases a with
    | spawn job =>
      obtain ⟨-, rfl⟩ := Pool.act_spawn_iff.mp hact
      exact ih
    | step i c =>
      obtain ⟨job, op, next, resp, s, -, hexec, rfl⟩ := Pool.act_step_iff.mp hact
      exact ih.step i job hexec

/-- A run of the worker for an attempt: it was told a destination that passes the check, and has connected
to its address. -/
def Preconnected (past : List AcceptEvent) (id : ConditionalRequestId) (prepared : PreparedSocket) :
    Prop :=
  ∃ mapping, Did past (.getMapping id) (.ok mapping) ∧ validateTcpMapping id.tuple mapping = .ok () ∧
    prepared.destination = mapping.address ∧ Did past (.connect id mapping) (.ok prepared)

theorem Backed.preconnected {id : ConditionalRequestId} {prepared : PreparedSocket}
    (h : Backed s id prepared) (hrecorded : Recorded past s) : Preconnected past id prepared := by
  obtain ⟨mapping, hmapping, hvalid, haddress, hrun⟩ := h
  refine ⟨mapping, hrecorded.mappings id mapping hmapping, hvalid, haddress, ?_⟩
  have hconnect := hrecorded.runs _ hrun
  rw [← haddress] at hconnect
  exact hconnect

/-! ## What stays so -/

/-- Once `accepting` is off it stays off. -/
theorem accepting_of_exec (hexec : op.exec c s = some (resp, s')) (h : s.accepting = false) :
    s'.accepting = false := by
  cases op with
  | stopAccepting =>
    cases hexec
    rfl
  | install | setHeldState | swapReleased =>
    obtain ⟨slot, -, hpair⟩ := holding_eq_some hexec
    cases hpair
    exact h
  | _ =>
    simp only [AcceptOp.exec] at hexec
    (repeat' split at hexec) <;> cases hexec <;> exact h

/-- The operations that decide about sockets. -/
def AcceptOp.decides : AcceptOp → Bool
  | .prepare _ _ => true
  | .tryRecv => true
  | .discard _ => true
  | .sendResult _ => true
  | _ => false

theorem fates_of_exec (hexec : op.exec c s = some (resp, s')) (hop : op.decides = false) :
    s'.fates = s.fates := by
  cases op with
  | prepare | tryRecv | discard | sendResult => cases hop
  | install | setHeldState | swapReleased =>
    obtain ⟨slot, -, hpair⟩ := holding_eq_some hexec
    cases hpair
    rfl
  | _ =>
    simp only [AcceptOp.exec] at hexec
    (repeat' split at hexec) <;> cases hexec <;> rfl

/-- A fate that nothing changes. -/
def Fate.final : Fate → Bool
  | .stored => true
  | .discarded => true
  | _ => false

/-- What has become of a socket in the end stays so. -/
theorem fate_of_exec {socket : Nat} {fate : Fate} (honce : Once s) (hexec : op.exec c s = some (resp, s'))
    (hknows : Knows trusted s op) (hfate : s.fates.find? socket = some fate) (hfinal : fate.final = true) :
    s'.fates.find? socket = some fate := by
  -- a socket about which something is decided had another fate before
  have hmark : ∀ {result : WorkerResult} {fate' : Fate} (old : Option Fate), old ≠ some fate →
      (∀ id prepared, result = .ready id prepared → s.fates.find? prepared.socket = old) →
      (s.mark fate' result).find? socket = some fate := by
    intro result fate' old hne hresult
    rw [← hfate]
    exact find?_mark fun id prepared hready =>
      socket_ne_of_fates (hresult id prepared hready) hfate hne
  have hreceived : some Fate.received ≠ some fate := by
    rintro ⟨⟩
    cases hfinal
  cases hdecides : op.decides with
  | false =>
    rw [fates_of_exec hexec hdecides]
    exact hfate
  | true =>
    cases op with
    | prepare id prepared =>
      cases hexec
      have hprepare : (s.mark .stored (.ready id prepared)).find? socket = some fate := by
        refine hmark _ hreceived ?_
        rintro id' prepared' ⟨⟩
        exact hknows.2.2.1
      exact hprepare
    | tryRecv =>
      simp only [AcceptOp.exec] at hexec
      split at hexec
      · cases hexec
        exact hfate
      · rename_i result results hresults
        cases hexec
        refine hmark (some .queued) (by rintro ⟨⟩; cases hfinal) fun id prepared hready => ?_
        refine honce.queued id prepared ?_
        rw [hresults, hready]
        exact List.mem_cons_self
    | discard result => cases hexec; exact hmark _ hreceived hknows
    | sendResult result =>
      simp only [AcceptOp.exec] at hexec
      split at hexec <;> cases hexec
      · exact hfate
      · exact hmark none (by simp) fun id prepared hready => (hknows id prepared hready).2
    | _ => cases hdecides

end Records

/-! ## The pairs -/

section Pairs

variable {w : AcceptWorld} {e : AcceptEvent}

/-- A final fate is the fate in every later state. -/
theorem fate_after (h : acceptSystem.Reachable (World.start .new) w)
    (hkept : (acceptContract True).Kept acceptSystem w) (he : e ∈ w.history) {socket : Nat}
    {fate : Fate} (hfinal : fate.final = true)
    (hfate : ∀ s', e.op.exec e.choice e.before = some (e.resp, s') →
      s'.fates.find? socket = some fate) :
    w.shared.fates.find? socket = some fate := by
  refine h.after (K := fun s : ConditionalContext => s.fates.find? socket = some fate) he hfate
    fun f hf s' hexec hbefore => ?_
  obtain ⟨hinv, -, hknows, -⟩ := hkept.past f hf
  exact fate_of_exec (Consistent.once hinv) hexec hknows hbefore hfinal

/-- A discarded socket is in no handoff. -/
theorem handoff_ne_discarded (h : acceptSystem.Reachable (World.start .new) w)
    (hkept : (acceptContract True).Kept acceptSystem w) {f : AcceptEvent} (he : e ∈ w.history)
    (hf : f ∈ w.history) {id : ConditionalRequestId} {prepared : PreparedSocket}
    {handoff : SocketHandoff} (hdiscard : e.op = .discard (.ready id prepared))
    (hhandoff : f.op = .handOver handoff) : handoff.outbound.socket ≠ prepared.socket := by
  intro hsame
  have hdiscarded : w.shared.fates.find? prepared.socket = some .discarded := by
    refine fate_after h hkept he rfl fun s' hexec => ?_
    obtain ⟨thread, job, c, op, resp, s⟩ := e
    have hdiscard : op = .discard (.ready id prepared) := hdiscard
    subst hdiscard
    cases hexec
    exact Table.find?_insert_self ..
  have hstored : w.shared.fates.find? handoff.outbound.socket = some .stored := by
    refine fate_after h hkept hf rfl fun s' hexec => ?_
    obtain ⟨hinv, -, hknows, -⟩ := hkept.past f hf
    obtain ⟨thread, job, c, op, resp, s⟩ := f
    have hhandoff : op = .handOver handoff := hhandoff
    subst hhandoff
    obtain ⟨slot, hclaim, -, hprepared⟩ := hknows.2.claim
    rw [fates_of_exec hexec rfl]
    exact (Consistent.once hinv).claims slot hclaim _ hprepared
  rw [hsame, hdiscarded] at hstored
  cases hstored

/-- After `stop_and_reject_pending` has given up the lock nothing is accepted. -/
theorem accepting_after_stop (h : acceptSystem.Reachable (World.start .new) w)
    (hkept : (acceptContract True).Kept acceptSystem w) (he : e ∈ w.history) {party : Party}
    (hstop : e.op = .unlock party .stop) : w.shared.accepting = false := by
  refine h.after (K := fun s : ConditionalContext => s.accepting = false) he (fun s' hexec => ?_)
    fun f _ s' hexec hbefore => accepting_of_exec hexec hbefore
  obtain ⟨-, -, hknows, -⟩ := hkept.past e he
  obtain ⟨thread, job, c, op, resp, s⟩ := e
  have hstop : op = .unlock party .stop := hstop
  subst hstop
  cases hexec
  exact hknows.2

/-- **Clients and sockets are paired**, in every interleaving in which `WSAAccept` returns only sockets of
clients that its last callback has accepted. About any event of a run, with those before it: -/
theorem sockets_paired (h : acceptSystem.Reachable (World.start .new) w)
    (haccept : ∀ e ∈ w.history, acceptsLast e) {later earlier : List AcceptEvent} {e : AcceptEvent}
    (hsplit : w.history = later ++ e :: earlier) :
    -- the callback accepts a client
    (∀ party tuple, e.op = .unlock party (.answer tuple .accept) →
      (∃ slot prepared, e.before.attempt = some slot ∧ slot.attempt.id.tuple = tuple ∧
        slot.prepared = some prepared ∧ Preconnected earlier slot.attempt.id prepared) ∧
      ∀ f ∈ earlier, ∀ party', f.op ≠ .unlock party' .stop) ∧
    -- a handoff is made
    (∀ handoff, e.op = .handOver handoff →
      handoff.client.tuple = handoff.tuple ∧
      (∃ f ∈ earlier, f.op = .claim ∧ ∃ slot, f.before.attempt = some slot ∧
        slot.attempt.id = ⟨handoff.tuple, handoff.generation⟩ ∧
        slot.prepared = some handoff.outbound) ∧
      Preconnected earlier ⟨handoff.tuple, handoff.generation⟩ handoff.outbound) ∧
    -- a result is stored in the slot
    (∀ id prepared, e.op = .prepare id prepared →
      ∃ slot, e.before.attempt = some slot ∧ slot.attempt.id = id ∧ slot.attempt.state = .deferred) ∧
    -- a result is discarded
    (∀ id prepared, e.op = .discard (.ready id prepared) → ∀ f ∈ w.history, ∀ handoff,
      f.op = .handOver handoff → handoff.outbound.socket ≠ prepared.socket) := by
  have hkept : (acceptContract True).Kept acceptSystem w :=
    acceptContract_kept h fun e he _ => haccept e he
  have he : e ∈ w.history := by
    rw [hsplit]
    exact List.mem_append_right _ List.mem_cons_self
  obtain ⟨hinv, -, hknows, -⟩ := hkept.past e he
  have hinv : Consistent e.before := hinv
  obtain ⟨w', hreach, hpast, hshared⟩ := h.before hsplit
  have hrecorded : Recorded earlier e.before := hpast ▸ hshared ▸ recorded hreach
  refine ⟨fun party tuple hop => ?_, fun handoff hop => ?_, fun id prepared hop => ?_,
    fun id prepared hop f hf handoff hhandoff => handoff_ne_discarded h hkept he hf hop hhandoff⟩
  · rw [hop] at hknows
    obtain ⟨-, haccepting, slot, hslot, htuple, hclaimed⟩ := hknows
    refine ⟨?_, fun f hf party' hstop => ?_⟩
    · obtain ⟨prepared, hprepared⟩ :=
        Option.isSome_iff_exists.mp (hinv.backing.ready slot hslot (.inr hclaimed))
      refine ⟨slot, prepared, hslot, htuple, hprepared, ?_⟩
      exact (hinv.backing.slot slot prepared hslot hprepared).preconnected hrecorded
    · -- the world before the answer has the end in its history
      have hkept' : (acceptContract True).Kept acceptSystem w' := by
        refine acceptContract_kept hreach fun g hg _ => haccept g ?_
        rw [hsplit]
        exact List.mem_append_right _ (List.mem_cons_of_mem _ (hpast ▸ hg))
      have hended := accepting_after_stop hreach hkept' (hpast ▸ hf) hstop
      rw [hshared, haccepting] at hended
      cases hended
  · rw [hop] at hknows
    obtain ⟨-, ⟨slot, hclaim, hid, hprepared⟩, hclient⟩ := hknows
    refine ⟨hclient trivial, ?_, ?_⟩
    · obtain ⟨f, hf, hfop, old, hold, rfl⟩ := hrecorded.claims slot hclaim
      exact ⟨f, hf, hfop, old, hold, hid, hprepared⟩
    · obtain ⟨prepared, hprepared', hbacked⟩ := hinv.backing.claims slot hclaim
      obtain rfl : prepared = handoff.outbound := Option.some.inj (hprepared'.symm.trans hprepared)
      rw [hid] at hbacked
      exact hbacked.preconnected hrecorded
  · rw [hop] at hknows
    exact hknows.2.2.2

/-! ### Sample -/

instance (e : AcceptEvent) : Decidable (acceptsLast e) := by
  unfold acceptsLast
  split <;> infer_instance

/-- What is handed over in an event. -/
def handedOver (e : AcceptEvent) : Option SocketHandoff :=
  match e.op with
  | .handOver handoff => some handoff
  | _ => none

theorem op_of_handedOver {handoff : SocketHandoff} (h : handedOver e = some handoff) :
    e.op = .handOver handoff := by
  unfold handedOver at h
  split at h
  · rename_i hop
    cases h
    exact hop
  · cases h

/-- The client that was deferred is handed over with the socket that the worker has connected for it. -/
theorem sockets_paired_sample : ∃ (w : AcceptWorld) (e : AcceptEvent) (earlier : List AcceptEvent),
    acceptSystem.Reachable (World.start .new) w ∧ (∀ f ∈ w.history, acceptsLast f) ∧ e ∈ w.history ∧
      e.op = .handOver ⟨⟨1, sampleConnection⟩, ⟨0, sampleOriginal.address⟩, sampleConnection, 1⟩ ∧
      Preconnected earlier ⟨sampleConnection, 1⟩ ⟨0, sampleOriginal.address⟩ := by
  have hrun : (acceptSystem.run (World.start .new) (deferRound ++ connectRound ++ acceptRound 29)).any
      (fun w => w.history.all (fun e => acceptsLast e) && w.history.any fun e => handedOver e =
        some ⟨⟨1, sampleConnection⟩, ⟨0, sampleOriginal.address⟩, sampleConnection, 1⟩) = true := by
    decide +kernel
  obtain ⟨w, hreach, hcheck⟩ := Pool.exists_reachable_of_run hrun
  simp only [Bool.and_eq_true, List.all_eq_true, List.any_eq_true, decide_eq_true_iff] at hcheck
  obtain ⟨haccept, e, he, hhanded⟩ := hcheck
  have hop := op_of_handedOver hhanded
  obtain ⟨later, earlier, hsplit⟩ := List.append_of_mem he
  obtain ⟨-, hpaired, -⟩ := sockets_paired hreach haccept hsplit
  exact ⟨w, e, earlier, hreach, haccept, he, hop, (hpaired _ hop).2.2⟩

end Pairs

end ShadowSocketProxy.HostProxy.WindowsConditional
