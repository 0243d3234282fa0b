import ShadowSocketProxy.HostProxy.Entries

/-! # Where payloads go

The dataplane and the proxy both keep a destination for the tuple that a client is seen under: the one
with its flow, the other with its association. They are dropped apart from each other. As long as a new
flow finds nothing in the proxy that goes elsewhere, everything for a tuple goes to one destination, and
every payload is sent where its datagram was going. -/

namespace ShadowSocketProxy.HostProxy

open Interleaving Interleaving.Program Interleaving.Contract Bpf

/-! ## One destination for each tuple -/

/-- The proxy has the datagram, in its socket or in its receive loop. -/
def UdpAssociations.Holds (s : UdpAssociations) (g : Datagram) : Prop := g ∈ s.inbox ∨ s.buffer = some g

/-- What the proxy has for a tuple goes to one destination. -/
structure Vacated (tuple : SocketTuple) (destination : StdSocketAddr) (s : UdpAssociations) : Prop where
  entry : ∀ id, s.entries.find? tuple = some id →
    ∃ a, s.associations[id]? = some a ∧ a.destination = destination
  datagram : ∀ g, s.Holds g → s.tupleFrom g.client = tuple → g.original = destination

/-- `Vacated`, and what the dataplane has for the tuple goes to that destination too. -/
structure Agrees (tuple : SocketTuple) (destination : StdSocketAddr) (s : UdpAssociations) : Prop extends
    Vacated tuple destination s where
  flow : ∀ flow, s.flows.find? tuple = some flow → flow.original.destination = destination

/-- The test for `Vacated`. -/
def UdpAssociations.vacated (s : UdpAssociations) (tuple : SocketTuple)
    (destination : StdSocketAddr) : Bool :=
  ((s.entries.find? tuple).all fun id =>
    (s.associations[id]?).any fun a => a.destination = destination) &&
    (s.inbox ++ s.buffer.toList).all fun g => s.tupleFrom g.client ≠ tuple || g.original = destination

/-- What passes the test `UdpAssociations.vacated` is vacated. -/
theorem Vacated.of_test {s : UdpAssociations} {tuple : SocketTuple} {destination : StdSocketAddr}
    (h : s.vacated tuple destination = true) : Vacated tuple destination s := by
  rw [UdpAssociations.vacated, Bool.and_eq_true, List.all_eq_true] at h
  obtain ⟨hentry, hdatagrams⟩ := h
  constructor
  · intro id hid
    rw [hid, Option.all_some, Option.any_eq_true] at hentry
    obtain ⟨a, ha, hdestination⟩ := hentry
    exact ⟨a, ha, of_decide_eq_true hdestination⟩
  · intro g hg htuple
    have hmem : g ∈ s.inbox ++ s.buffer.toList := by
      rw [List.mem_append, Option.mem_toList]
      exact hg
    have hg := hdatagrams g hmem
    rw [Bool.or_eq_true, decide_eq_true_iff, decide_eq_true_iff] at hg
    exact hg.resolve_left fun hne => hne htuple

/-- The tuple and the destination of the flow that an event makes, if it makes one. -/
def createdFlow (e : UdpEvent) : Option (SocketTuple × StdSocketAddr) :=
  match e.op with
  | .datagram client destination _ =>
    if e.choice.fault || (e.before.flows.find? (e.before.tupleFrom client)).isSome then none
    else some (e.before.tupleFrom client, destination)
  | _ => none

/-- A flow that the event makes finds the proxy `vacated`. -/
def vacates (e : UdpEvent) : Bool :=
  (createdFlow e).all fun created => e.before.vacated created.1 created.2

/-! ## Frames -/

/-- What an operation leaves alone besides associations and entries. -/
structure Outside (op : UdpOp) (s s' : UdpAssociations) : Prop where
  listen : s'.listen = s.listen
  buffer : op ≠ .recv → op ≠ .clear → s'.buffer = s.buffer
  datagram : (∀ client destination payload, op ≠ .datagram client destination payload) →
    ∀ g, s'.Holds g → s.Holds g
  flow : (∀ client destination payload, op ≠ .datagram client destination payload) →
    ∀ tuple flow, s'.flows.find? tuple = some flow → s.flows.find? tuple = some flow

section Frames

variable {c : UdpChoice} {op : UdpOp} {s s' : UdpAssociations} {resp : op.Resp}

theorem Outside.of_same {op : UdpOp} (hlisten : s'.listen = s.listen) (hflows : s'.flows = s.flows)
    (hinbox : s'.inbox = s.inbox) (hbuffer : s'.buffer = s.buffer) : Outside op s s' where
  listen := hlisten
  buffer _ _ := hbuffer
  datagram _ g hg := by
    rw [UdpAssociations.Holds, hinbox, hbuffer] at hg
    exact hg
  flow _ tuple flow h := by rwa [hflows] at h

theorem Outside.of_removeExactly {op : UdpOp} (tuple : SocketTuple) (id : Nat) :
    Outside op s (s.removeExactly tuple id) := by
  unfold UdpAssociations.removeExactly
  split <;> exact .of_same rfl rfl rfl rfl

theorem Outside.of_relayStep {op : UdpOp} {id : Nat} {a : UdpAssociation}
    (h : relayStep c id a s = some s') : Outside op s s' := by
  unfold relayStep at h
  dsimp only at h
  split at h
  · cases h
  · split at h
    · simp only [Option.ite_none_right_eq_some] at h
      cases h.2
      exact .of_same rfl rfl rfl rfl
    · simp only [Option.ite_none_right_eq_some] at h
      cases h.2
      exact .of_same rfl rfl rfl rfl
    · simp only [Option.ite_none_right_eq_some] at h
      cases h.2
      exact .of_same rfl rfl rfl rfl
    · split at h <;> cases h <;> exact .of_same rfl rfl rfl rfl
    · split at h <;> cases h <;> exact .of_same rfl rfl rfl rfl
    · cases h
      exact .of_same rfl rfl rfl rfl
  · cases h
    unfold UdpAssociations.removeExactly
    split <;> exact .of_same rfl rfl rfl rfl
  · cases h
    exact .of_same rfl rfl rfl rfl
  · cases h

theorem Outside.of_deleteNow {op : UdpOp} (flowId : UInt64) (generation : UInt32) (observed : UInt64) :
    Outside op s (s.deleteNow c flowId generation observed).2 := by
  unfold UdpAssociations.deleteNow
  dsimp only
  split
  · split
    · exact .of_same rfl rfl rfl rfl
    · refine ⟨rfl, fun _ _ => rfl, fun _ g hg => hg, fun _ tuple flow h => ?_⟩
      rw [Table.find?_erase] at h
      split at h
      · cases h
      · exact h
  · split <;> exact .of_same rfl rfl rfl rfl

theorem Outside.of_deliver (client destination : StdSocketAddr) (payload : List UInt8) :
    Outside (.datagram client destination payload) s (s.deliver c client destination payload) := by
  have hsocket : (s.deliver c client destination payload).listen = s.listen ∧
      (s.deliver c client destination payload).buffer = s.buffer := by
    unfold UdpAssociations.deliver
    dsimp only
    split
    · exact ⟨rfl, rfl⟩
    · split
      · split <;> exact ⟨rfl, rfl⟩
      · exact ⟨rfl, rfl⟩
  exact ⟨hsocket.1, fun _ _ => hsocket.2, fun hop => absurd rfl (hop client destination payload),
    fun hop => absurd rfl (hop client destination payload)⟩

theorem outside_of_exec (h : UdpOp.exec c op s = some (resp, s')) : Outside op s s' := by
  cases op with
  | recv =>
    simp only [UdpOp.exec] at h
    split at h
    · cases h
      exact .of_same rfl rfl rfl rfl
    · split at h
      · cases h
        exact .of_same rfl rfl rfl rfl
      · split at h
        · cases h
        · rename_i g inbox hinbox
          cases h
          refine ⟨rfl, fun hop => absurd rfl hop, fun _ g' hg' => ?_, fun _ tuple flow h => h⟩
          rw [UdpAssociations.Holds, hinbox]
          rcases hg' with hmem | hbuffer
          · exact .inl (List.mem_cons_of_mem _ hmem)
          · cases hbuffer
            exact .inl List.mem_cons_self
  | clear =>
    cases h
    refine ⟨rfl, fun _ hop => absurd rfl hop, fun _ g hg => ?_, fun _ tuple flow h => h⟩
    rcases hg with hmem | hbuffer
    · exact .inl hmem
    · cases hbuffer
  | changed id droppable =>
    simp only [UdpOp.exec] at h
    split at h
    · cases h
    · split at h
      · cases h
        exact .of_same rfl rfl rfl rfl
      · simp only [Option.ite_none_right_eq_some] at h
        cases h.2
        exact .of_same rfl rfl rfl rfl
  | removeIf tuple id =>
    cases h
    exact .of_removeExactly tuple id
  | deleteFlow flowId generation observed =>
    simp only [UdpOp.exec] at h
    split at h
    · cases h
      split
      · exact .of_deleteNow flowId generation observed
      · exact .of_same rfl rfl rfl rfl
    · split at h
      · cases h
        split
        · exact .of_deleteNow flowId generation observed
        · exact .of_same rfl rfl rfl rfl
      · cases h
        exact .of_deleteNow flowId generation observed
  | relay id =>
    simp only [UdpOp.exec] at h
    split at h
    · cases h
    · rw [Option.map_eq_some_iff] at h
      obtain ⟨s₁, hstep, heq⟩ := h
      cases heq
      exact .of_relayStep hstep
  | datagram client destination payload =>
    cases h
    exact .of_deliver client destination payload
  | _ =>
    -- the others touch neither the socket nor the flows
    simp only [UdpOp.exec] at h
    (repeat' split at h) <;> cases h <;> exact .of_same rfl rfl rfl rfl

/-- Between two operations of the receive loop: associations have moved, and its datagram and the
listener are the same. -/
structure Beside (s s' : UdpAssociations) : Prop where
  later : Later s s'
  buffer : s'.buffer = s.buffer
  listen : s'.listen = s.listen

theorem Beside.refl (s : UdpAssociations) : Beside s s := ⟨.refl s, rfl, rfl⟩

theorem Beside.trans {s s' s'' : UdpAssociations} (h : Beside s s') (h' : Beside s' s'') : Beside s s'' :=
  ⟨h.later.trans h'.later, h'.buffer.trans h.buffer, h'.listen.trans h.listen⟩

theorem beside_of_exec (h : UdpOp.exec c op s = some (resp, s')) (hrecv : op ≠ .recv)
    (hclear : op ≠ .clear) : Beside s s' :=
  ⟨(effect_of_exec h).later, (outside_of_exec h).buffer hrecv hclear, (outside_of_exec h).listen⟩

theorem beside_of_background (h : UdpOp.exec c op s = some (resp, s')) (hop : op.background = true) :
    Beside s s' := by
  refine beside_of_exec h ?_ ?_
  · rintro rfl
    cases hop
  · rintro rfl
    cases hop

end Frames

/-! ## The contract -/

/-- Everything for a tuple goes to one destination. The receive loop publishes an association only for
its datagram and sends only where its datagram was going; the datagram is its own. -/
def destinationContract : Contract UdpOp UdpOp.Resp UdpAssociations UdpChoice UdpJob where
  inv s := ∀ tuple, ∃ destination, Agrees tuple destination s
  pre job op s :=
    match op with
    | .recv => job.isReceive = true
    | .clear => job.isReceive = true
    | .send id payload => ∃ g a, s.buffer = some g ∧ g.payload = payload ∧
        s.associations[id]? = some a ∧ a.destination = g.original
    | .publish id => ∃ g a, s.buffer = some g ∧ s.associations[id]? = some a ∧
        a.key = s.tupleFrom g.client ∧ a.destination = g.original
    | _ => True
  rely job s s' := job.isReceive = true → Beside s s'
  beside job job' := ¬ (job.isReceive = true ∧ job'.isReceive = true)
  permitted e := vacates e = true

section Keeps

variable {c : UdpChoice} {s s' : UdpAssociations} {tuple : SocketTuple} {destination : StdSocketAddr}

theorem tupleFrom_eq (h : s'.listen = s.listen) (client : StdSocketAddr) :
    s'.tupleFrom client = s.tupleFrom client := by
  rw [UdpAssociations.tupleFrom, UdpAssociations.tupleFrom, h]

/-- An operation that neither publishes nor delivers keeps `Agrees`. -/
theorem Agrees.narrow {op : UdpOp} (h : Agrees tuple destination s)
    (hpublish : ∀ id, op ≠ .publish id)
    (hdatagram : ∀ client destination payload, op ≠ .datagram client destination payload)
    (heffect : UdpEffect op s s') (houtside : Outside op s s') : Agrees tuple destination s' where
  entry id hentry := by
    have hentry := (heffect.entry hentry).resolve_right (hpublish id)
    obtain ⟨a, ha, hdestination⟩ := h.entry id hentry
    obtain ⟨a', ha', hmoves⟩ := heffect.later id a ha
    exact ⟨a', ha', hmoves.destination.trans hdestination⟩
  datagram g hg htuple := by
    rw [tupleFrom_eq houtside.listen] at htuple
    exact h.datagram g (houtside.datagram hdatagram g hg) htuple
  flow flow hflow := h.flow flow (houtside.flow hdatagram tuple flow hflow)

/-- `Agrees` with an association published for the datagram of the receive loop. -/
theorem Agrees.publish {id : Nat} {a : UdpAssociation} {g : Datagram} {resp : Publication}
    (h : Agrees tuple destination s) (hbuffer : s.buffer = some g) (ha : s.associations[id]? = some a)
    (hkey : a.key = s.tupleFrom g.client) (hdestination : a.destination = g.original)
    (hexec : UdpOp.exec c (.publish id) s = some (resp, s')) : Agrees tuple destination s' := by
  simp only [UdpOp.exec, ha] at hexec
  split at hexec
  · cases hexec
    exact h
  · cases hexec
    refine ⟨⟨fun j hj => ?_, h.datagram⟩, h.flow⟩
    rw [Table.find?_insert] at hj
    split at hj
    · rename_i htuple
      cases hj
      refine ⟨a, ha, hdestination.trans (h.datagram g (.inr hbuffer) ?_)⟩
      rw [htuple, hkey]
    · exact h.entry j hj

/-- `Agrees` with a delivered datagram; a new flow decides where its tuple goes. -/
theorem agrees_deliver {client server : StdSocketAddr} {payload : List UInt8}
    (hinv : destinationContract.inv s)
    (hvacated : c.fault = false → s.flows.find? (s.tupleFrom client) = none →
      Vacated (s.tupleFrom client) server s) (tuple : SocketTuple) :
    ∃ destination, Agrees tuple destination (s.deliver c client server payload) := by
  obtain ⟨destination, hagrees⟩ := hinv tuple
  -- one more datagram in the socket, where the tuple is that of the client
  have harrives : ∀ flows generation, Vacated tuple destination s →
      (∀ flow, flows.find? tuple = some flow → flow.original.destination = destination) →
      (s.tupleFrom client = tuple → server = destination) →
      Agrees tuple destination { s with
        inbox := s.inbox ++ [(⟨client, payload, server⟩ : Datagram)]
        flows := flows
        generation := generation } := by
    intro flows generation hvacated hflow hserver
    refine ⟨⟨hvacated.entry, fun g hg htuple => ?_⟩, hflow⟩
    rcases hg with hmem | hbuffer
    · rcases List.mem_append.mp hmem with hmem | hnew
      · exact hvacated.datagram g (.inl hmem) htuple
      · obtain rfl := List.mem_singleton.mp hnew
        exact hserver htuple
    · exact hvacated.datagram g (.inr hbuffer) htuple
  unfold UdpAssociations.deliver
  dsimp only
  split
  · exact ⟨destination, hagrees⟩
  · rename_i hfault
    split
    · rename_i flow hflow
      split
      · rename_i horiginal
        refine ⟨destination, harrives _ s.generation hagrees.toVacated ?_ fun htuple => ?_⟩
        · intro flow' hflow'
          rw [Table.find?_insert] at hflow'
          split at hflow'
          · rename_i htuple
            cases hflow'
            exact hagrees.flow flow (htuple ▸ hflow)
          · exact hagrees.flow flow' hflow'
        · have hdestination := hagrees.flow flow (htuple ▸ hflow)
          rw [horiginal] at hdestination
          exact hdestination
      · exact ⟨destination, hagrees⟩
    · rename_i hnone
      have hvacated := hvacated (Bool.eq_false_iff.mpr hfault) hnone
      by_cases htuple : s.tupleFrom client = tuple
      · -- the tuple of the new flow
        rw [htuple] at hvacated
        refine ⟨server, ⟨⟨hvacated.entry, fun g hg htuple' => ?_⟩, fun flow hflow => ?_⟩⟩
        · rcases hg with hmem | hbuffer
          · rcases List.mem_append.mp hmem with hmem | hnew
            · exact hvacated.datagram g (.inl hmem) htuple'
            · obtain rfl := List.mem_singleton.mp hnew
              rfl
          · exact hvacated.datagram g (.inr hbuffer) htuple'
        · rw [Table.find?_insert, if_pos htuple.symm] at hflow
          cases hflow
          rfl
      · refine ⟨destination, harrives _ _ hagrees.toVacated ?_ fun h => absurd h htuple⟩
        intro flow hflow
        rw [Table.find?_insert, if_neg (Ne.symm htuple)] at hflow
        exact hagrees.flow flow hflow

theorem destinationContract_keeps {e : UdpEvent} (hpermitted : vacates e = true)
    (hinv : destinationContract.inv e.before) (hpre : destinationContract.pre e.job e.op e.before)
    (hexec : UdpOp.exec e.choice e.op e.before = some (e.resp, s')) : destinationContract.inv s' := by
  obtain ⟨thread, job, c, op, resp, s⟩ := e
  have hexec : UdpOp.exec c op s = some (resp, s') := hexec
  have hinv : destinationContract.inv s := hinv
  intro tuple
  by_cases hpublish : ∃ id, op = .publish id
  · obtain ⟨id, rfl⟩ := hpublish
    obtain ⟨g, a, hbuffer, ha, hkey, hdestination⟩ := hpre
    obtain ⟨destination, hagrees⟩ := hinv tuple
    exact ⟨destination, hagrees.publish hbuffer ha hkey hdestination hexec⟩
  · by_cases hdatagram : ∃ client destination payload, op = .datagram client destination payload
    · obtain ⟨client, server, payload, rfl⟩ := hdatagram
      cases hexec
      refine agrees_deliver hinv (fun hfault hnone => ?_) tuple
      have hcreated : createdFlow ⟨thread, job, c, .datagram client server payload, (), s⟩ =
          some (s.tupleFrom client, server) := by
        simp [createdFlow, hfault, hnone]
      rw [vacates, hcreated] at hpermitted
      exact .of_test hpermitted
    · obtain ⟨destination, hagrees⟩ := hinv tuple
      exact ⟨destination, hagrees.narrow (fun id h => hpublish ⟨id, h⟩)
        (fun client destination payload h => hdatagram ⟨client, destination, payload, h⟩)
        (effect_of_exec hexec) (outside_of_exec hexec)⟩

end Keeps

/-! ## The receive loop -/

/-- What a program of the receive loop ensures under `destinationContract`. -/
abbrev Directs {β : Type} (p : Udp β) (Q : β → UdpAssociations → Prop) (s : UdpAssociations) : Prop :=
  destinationContract.meets udpMachine .receive p Q s

/-- The datagram that is forwarded, and the address of the listener. -/
structure Forwards (g : Datagram) (address : StdSocketAddr) (s : UdpAssociations) : Prop where
  buffer : s.buffer = some g
  listen : s.listen = address

/-- An association goes where the datagram goes. -/
def GoesTo (id : Nat) (destination : StdSocketAddr) (s : UdpAssociations) : Prop :=
  ∃ a, s.associations[id]? = some a ∧ a.destination = destination

section Programs

variable {s : UdpAssociations} {β : Type} {g : Datagram} {address : StdSocketAddr} {id : Nat}
  {tuple : SocketTuple} {payload : List UInt8}

theorem Forwards.beside {s' : UdpAssociations} (h : Forwards g address s) (hbeside : Beside s s') :
    Forwards g address s' :=
  ⟨hbeside.buffer.trans h.buffer, hbeside.listen.trans h.listen⟩

theorem GoesTo.beside {s' : UdpAssociations} {destination : StdSocketAddr} (h : GoesTo id destination s)
    (hbeside : Beside s s') : GoesTo id destination s' := by
  obtain ⟨a, ha, hdestination⟩ := h
  obtain ⟨a', ha', hmoves⟩ := hbeside.later id a ha
  exact ⟨a', ha', hmoves.destination.trans hdestination⟩

theorem pre_of_background {op : UdpOp} (hop : op.background = true) (job : UdpJob) (s : UdpAssociations) :
    destinationContract.pre job op s := by
  cases op <;> trivial

/-- A background operation of `forward`. What comes after it starts from its result. -/
theorem directs_step {op : UdpOp} {f : op.Resp → Forward β}
    {Q : Except Halt β → UdpAssociations → Prop} (hop : op.background = true)
    (hf : ∀ c resp s₁ s₂, Beside s s₁ → destinationContract.inv s₁ →
      UdpOp.exec c op s₁ = some (resp, s₂) → Beside s s₂ → Directs (f resp).run Q s₂) :
    Directs (UdpOp.step op >>= f).run Q s := by
  intro s₁ hrely hinv
  refine ⟨pre_of_background hop _ _, fun c resp s₂ hexec _ _ => ?_⟩
  exact hf c resp s₁ s₂ (hrely rfl) hinv hexec ((hrely rfl).trans (beside_of_background hexec hop))

theorem directs_last {op : UdpOp} {Q : Except Halt op.Resp → UdpAssociations → Prop}
    (hop : op.background = true) (hQ : ∀ r s', Beside s s' → Q r s') :
    Directs (UdpOp.step op).run Q s := by
  intro s₁ hrely _
  refine ⟨pre_of_background hop _ _, fun c resp s₂ hexec _ _ => ?_⟩
  exact hQ _ s₂ ((hrely rfl).trans (beside_of_background hexec hop))

/-- Background operations keep what does not change `Beside` the receive loop. -/
theorem directs_of_all {p : Udp β} {K : UdpAssociations → Prop} (hp : p.All fun op => op.background = true)
    (hK : ∀ s s', Beside s s' → K s → K s') (hs : K s) : Directs p (fun _ s' => K s') s :=
  meets_of_all (fun _ hop s _ => pre_of_background hop _ s)
    (fun _ hop _ _ s s' h hexec => hK s s' (beside_of_background hexec hop) h)
    (fun s s' hrely h => hK s s' (hrely rfl) h) hp hs

theorem directs_stopForwarding (id : Nat) {K : UdpAssociations → Prop}
    (hK : ∀ s s', Beside s s' → K s → K s') (hs : K s) :
    Directs (stopForwarding id).run (fun _ s' => K s') s :=
  directs_of_all ((all_stopForwarding id).mono fun op => background_of_stops op id) hK hs

/-- A step of `forward` that finds an association leads to one that `GoesTo` the destination. -/
def Found (g : Datagram) (address : StdSocketAddr) (r : Except Halt Nat) (s : UdpAssociations) : Prop :=
  Forwards g address s ∧ ∀ id, r = .ok id → GoesTo id g.original s

theorem found_error (h : Forwards g address s) (halt : Halt) : Found g address (.error halt) s :=
  ⟨h, fun id hid => by cases hid⟩

theorem found_ok (h : Forwards g address s) (hgoes : GoesTo id g.original s) :
    Found g address (.ok id) s := by
  refine ⟨h, fun id' hid => ?_⟩
  cases hid
  exact hgoes

theorem goesTo_of_entryTo {destination : StdSocketAddr} (h : s.entryTo tuple destination = some id) :
    GoesTo id destination s := by
  rw [UdpAssociations.entryTo, Option.filter_eq_some_iff, Option.any_eq_true] at h
  obtain ⟨-, a, ha, hdestination⟩ := h
  exact ⟨a, ha, of_decide_eq_true hdestination⟩

/-- `stopForwarding` of one association, and another is returned. -/
theorem directs_stop_found (h : Forwards g address s) (hgoes : GoesTo id g.original s) (old : Nat) :
    Directs (do stopForwarding old; pure id : Forward Nat).run (Found g address) s := by
  have hstop := directs_stopForwarding (s := s) old
    (K := fun s => Forwards g address s ∧ GoesTo id g.original s)
    (fun s s' hbeside h => ⟨h.1.beside hbeside, h.2.beside hbeside⟩) ⟨h, hgoes⟩
  exact meets_seqE hstop (fun _ s' h => found_ok h.1 h.2) fun halt s' h => found_error h.1 halt

theorem directs_orFail {α : Type} {answer : Except ProxyError α} {f : α → Forward Nat}
    (h : Forwards g address s)
    (hf : ∀ value, answer = .ok value → Directs (f value).run (Found g address) s) :
    Directs (orFail answer >>= f).run (Found g address) s := by
  cases answer with
  | ok value => exact hf value rfl
  | error error => exact found_error h _

theorem directs_insertAssociation {mapping : OriginalDestination} (h : Forwards g address s)
    (htuple : tuple = ⟨g.client, address, ipprotoUdp⟩) (hmapping : mapping.address = g.original) :
    Directs (insertAssociation tuple mapping).run (Found g address) s := by
  unfold insertAssociation
  refine directs_step rfl fun _ bound _ s₁ _ _ _ hbeside => ?_
  have h := h.beside hbeside
  refine directs_orFail h fun _ _ => ?_
  refine directs_step rfl fun _ connected _ s₂ _ _ _ hbeside => ?_
  have h := h.beside hbeside
  refine directs_orFail h fun _ _ => ?_
  refine directs_step rfl fun _ candidate _ s₃ _ _ hexec hbeside => ?_
  have h := h.beside hbeside
  -- the candidate is for the datagram
  have hcandidate : ∃ a, s₃.associations[candidate]? = some a ∧ a.key = tuple ∧
      a.destination = g.original := by
    cases hexec
    exact ⟨_, List.getElem?_concat_length, rfl, hmapping⟩
  refine directs_step rfl fun _ existing s₄ s₅ hbeside₄ _ hexec hbeside => ?_
  have h := h.beside hbeside
  obtain ⟨a, ha, hkey, hdestination⟩ := hcandidate
  obtain ⟨a₅, ha₅, hmoves⟩ := hbeside.later candidate a ha
  have hkey := hmoves.key.trans hkey
  have hdestination := hmoves.destination.trans hdestination
  cases existing with
  | some existing =>
    have hentry : s₅.entryTo tuple mapping.address = some existing := by
      have heq := Option.some.inj hexec
      rw [← (Prod.mk.inj heq).2]
      exact (Prod.mk.inj heq).1
    exact found_ok h (hmapping ▸ goesTo_of_entryTo hentry)
  | none =>
    refine directs_step rfl fun _ _ _ s₆ _ _ _ hbeside => ?_
    have h := h.beside hbeside
    obtain ⟨a₆, ha₆, hmoves⟩ := hbeside.later candidate a₅ ha₅
    have hkey := hmoves.key.trans hkey
    have hdestination := hmoves.destination.trans hdestination
    intro s₇ hrely _
    have h := h.beside (hrely rfl)
    obtain ⟨a₇, ha₇, hmoves⟩ := (hrely rfl).later candidate a₆ ha₆
    have hkey := hmoves.key.trans hkey
    have hdestination := hmoves.destination.trans hdestination
    refine ⟨⟨g, a₇, h.buffer, ha₇, ?_, hdestination⟩, fun c published s₈ hexec _ _ => ?_⟩
    · rw [hkey, htuple, UdpAssociations.tupleFrom, h.listen]
    · have hexec : UdpOp.exec c (.publish candidate) s₇ = some (published, s₈) := hexec
      have hbeside := beside_of_exec hexec (by rintro ⟨⟩) (by rintro ⟨⟩)
      have h := h.beside hbeside
      have hcandidate : GoesTo candidate g.original s₈ :=
        GoesTo.beside ⟨a₇, ha₇, hdestination⟩ hbeside
      rcases published with existing | _ | previous
      · -- another association to the same destination
        have hexisting : GoesTo existing g.original s₇ := by
          simp only [UdpOp.exec, ha₇] at hexec
          split at hexec
          · rename_i other hother
            cases hexec
            exact hdestination ▸ goesTo_of_entryTo hother
          · cases hexec
        exact directs_stop_found h (hexisting.beside hbeside) candidate
      · exact found_ok h hcandidate
      · exact directs_stop_found h hcandidate previous

theorem directs_resolveAssociation (h : Forwards g address s)
    (htuple : tuple = ⟨g.client, address, ipprotoUdp⟩) :
    Directs (resolveAssociation tuple).run (Found g address) s := by
  unfold resolveAssociation
  refine directs_step rfl fun c answer s₁ s₂ hbeside₁ hinv hexec hbeside => ?_
  have h₁ := h.beside hbeside₁
  have h := h.beside hbeside
  refine directs_orFail h fun mapping hmapping => ?_
  -- the flow of the tuple goes where the datagram goes
  have haddress : mapping.address = g.original := by
    obtain ⟨destination, hagrees⟩ := hinv tuple
    have hg : g.original = destination := by
      refine hagrees.datagram g (.inr h₁.buffer) ?_
      rw [UdpAssociations.tupleFrom, h₁.listen, htuple]
    have heq := (Prod.mk.inj (Option.some.inj hexec)).1
    rw [hmapping] at heq
    split at heq
    · cases heq
    · split at heq
      · rename_i flow hflow
        cases heq
        exact (hagrees.flow flow hflow).trans hg.symm
      · cases heq
  split
  · exact found_error h _
  · exact directs_insertAssociation h htuple haddress

theorem directs_findAssociation (h : Forwards g address s)
    (htuple : tuple = ⟨g.client, address, ipprotoUdp⟩) :
    Directs (findAssociation tuple).run (Found g address) s := by
  unfold findAssociation
  refine directs_step rfl fun c entry s₁ s₂ hbeside₁ hinv hexec hbeside => ?_
  have h₁ := h.beside hbeside₁
  have h := h.beside hbeside
  cases entry with
  | none => exact directs_resolveAssociation h htuple
  | some id =>
    -- the entry of the tuple goes where the datagram goes
    obtain ⟨destination, hagrees⟩ := hinv tuple
    have hg : g.original = destination := by
      refine hagrees.datagram g (.inr h₁.buffer) ?_
      rw [UdpAssociations.tupleFrom, h₁.listen, htuple]
    have heq := Prod.mk.inj (Option.some.inj hexec)
    have hgoes : GoesTo id g.original s₁ := hg ▸ hagrees.entry id heq.1
    exact found_ok h (heq.2 ▸ hgoes)

/-- The send of the payload on an association that `GoesTo` its destination. -/
theorem directs_send {f : Except (SendError × String) Unit → Forward Unit} (h : Forwards g address s)
    (hgoes : GoesTo id g.original s) (hpayload : g.payload = payload)
    (hf : ∀ sent s', Forwards g address s' → Directs (f sent).run (fun _ _ => True) s') :
    Directs (UdpOp.step (.send id payload) >>= f).run (fun _ _ => True) s := by
  intro s₁ hrely _
  have h := h.beside (hrely rfl)
  obtain ⟨a, ha, hdestination⟩ := hgoes.beside (hrely rfl)
  refine ⟨⟨g, a, h.buffer, hpayload, ha, hdestination⟩, fun c sent s₂ hexec _ _ => ?_⟩
  have hexec : UdpOp.exec c (.send id payload) s₁ = some (sent, s₂) := hexec
  exact hf sent s₂ (h.beside (beside_of_exec hexec (by rintro ⟨⟩) (by rintro ⟨⟩)))

theorem directs_retrySend (h : Forwards g address s) (hpayload : g.payload = payload)
    (htuple : tuple = ⟨g.client, address, ipprotoUdp⟩) :
    Directs (retrySend tuple payload).run (fun _ _ => True) s := by
  unfold retrySend
  refine directs_step rfl fun _ old _ s₁ _ _ _ hbeside => ?_
  have h := h.beside hbeside
  have hstop : Directs (stopRemoved old).run (fun _ s' => Forwards g address s') s₁ := by
    cases old with
    | some old => exact directs_stopForwarding old (fun _ _ hbeside h => h.beside hbeside) h
    | none => exact h
  refine meets_seqE hstop (fun _ s₂ h => ?_) fun _ _ _ => trivial
  refine meets_seqE (directs_resolveAssociation h htuple) (fun id s₃ hfound => ?_) fun _ _ _ => trivial
  refine directs_send hfound.1 (hfound.2 id rfl) hpayload fun sent s₄ _ => ?_
  rcases sent with ⟨_, text⟩ | ⟨⟨⟩⟩
  · trivial
  · exact directs_last rfl fun _ _ _ => trivial

theorem directs_forward (h : s.buffer = some g) :
    Directs (forward g.client g.payload).run (fun _ _ => True) s := by
  unfold forward
  refine directs_step rfl fun c answer s₁ s₂ hbeside₁ _ hexec hbeside => ?_
  cases answer with
  | error error => trivial
  | ok address =>
    have heq := Prod.mk.inj (Option.some.inj hexec)
    have hlisten : s₁.listen = address := by
      have heq := heq.1
      split at heq
      · cases heq
      · exact Except.ok.inj heq
    have h : Forwards g address s₂ :=
      ⟨hbeside.buffer.trans h, (hbeside.listen.trans hbeside₁.listen.symm).trans hlisten⟩
    show Directs (findAssociation ⟨g.client, address, ipprotoUdp⟩ >>= fun association =>
      sendOn ⟨g.client, address, ipprotoUdp⟩ g.payload association).run _ s₂
    refine meets_seqE (directs_findAssociation h rfl) (fun id s₃ hfound => ?_) fun _ _ _ => trivial
    unfold sendOn
    refine directs_send hfound.1 (hfound.2 id rfl) rfl fun sent s₄ h => ?_
    rcases sent with ⟨error, text⟩ | ⟨⟨⟩⟩
    · dsimp only
      split
      · exact directs_retrySend h rfl rfl
      · trivial
    · exact directs_last rfl fun _ _ _ => trivial

theorem directs_runUdp : Directs runUdp (fun _ _ => True) s := by
  intro s₁ _ _
  refine ⟨rfl, fun c received s₂ hexec _ _ => ?_⟩
  cases received with
  | stopped => trivial
  | failed => trivial
  | datagram client payload =>
    -- what was received is in the buffer
    have hbuffer : ∃ g : Datagram, s₂.buffer = some g ∧ g.client = client ∧ g.payload = payload := by
      have hexec : UdpOp.exec c .recv s₁ = some (.datagram client payload, s₂) := hexec
      simp only [UdpOp.exec] at hexec
      split at hexec
      · cases hexec
      · split at hexec
        · cases hexec
        · split at hexec
          · cases hexec
          · cases hexec
            exact ⟨_, rfl, rfl, rfl⟩
    obtain ⟨g, hbuffer, rfl, rfl⟩ := hbuffer
    show Directs ((forward g.client g.payload).run >>= fun _ => UdpOp.take .clear) _ s₂
    refine meets_seq (directs_forward hbuffer) fun _ s₃ _ => ?_
    exact fun s₄ _ _ => ⟨rfl, fun _ _ _ _ _ _ => trivial⟩

end Programs

theorem destinationContract_sound : destinationContract.Sound udpSystem where
  refl _ s _ := .refl s
  trans _ _ _ _ h h' hjob := (h hjob).trans (h' hjob)
  admits job threads hadmits t ht hfinished := by
    -- a round of the receive loop starts only when the last is over
    have hapart : ¬ (t.job.isReceive = true ∧ job.isReceive = true) := by
      rintro ⟨hother, hjob⟩
      cases job <;> cases hjob
      have hall := List.all_eq_true.mp hadmits t ht
      rw [hother, hfinished] at hall
      simp at hall
    exact ⟨hapart, fun h => hapart ⟨h.2, h.1⟩⟩
  keeps _ _ hpermitted hinv hpre hexec := destinationContract_keeps hpermitted hinv hpre hexec
  moves job e s' hbeside _ _ hpre hexec hjob := by
    have hother : e.job.isReceive = false := Bool.eq_false_iff.mpr fun h => hbeside ⟨hjob, h⟩
    obtain ⟨thread, job', c, op, resp, s⟩ := e
    refine beside_of_exec hexec ?_ ?_
    · rintro rfl
      rw [show job'.isReceive = true from hpre] at hother
      cases hother
    · rintro rfl
      rw [show job'.isReceive = true from hpre] at hother
      cases hother
  code job s _ _ := by
    cases hreceive : job.isReceive with
    | true =>
      cases job <;> cases hreceive
      exact directs_runUdp
    | false =>
      exact meets_of_all (fun _ hop s _ => pre_of_background hop _ s) (fun _ _ _ _ _ _ h _ => h)
        (fun _ _ _ h => h) (background_of_built (hreceive ▸ built_code job)) trivial

/-- **Every payload goes where its datagram was going**, in every run in which each new flow finds
nothing for its tuple in the proxy that goes elsewhere. -/
theorem payload_directed {listen : StdSocketAddr} {idleTimeout : Nat} {w : UdpWorld}
    (h : udpSystem.Reachable (World.start (.new listen idleTimeout)) w)
    (hvacates : ∀ e ∈ w.history, vacates e = true) :
    ∀ e ∈ w.history, ∀ id payload, e.op = .send id payload →
      ∃ g a, e.before.buffer = some g ∧ g.payload = payload ∧
        e.before.associations[id]? = some a ∧ a.destination = g.original := by
  have hstart : destinationContract.inv (.new listen idleTimeout) := by
    intro tuple
    refine ⟨listen, ⟨fun id h => ?_, fun g hg => ?_⟩, fun flow h => ?_⟩
    · cases h
    · rcases hg with hmem | hbuffer
      · cases hmem
      · cases hbuffer
    · cases h
  have hkept := destinationContract_sound.kept hstart (fun _ => trivial) h hvacates
  intro e he id payload hop
  obtain ⟨thread, job, c, op, resp, s⟩ := e
  have hop : op = .send id payload := hop
  subst hop
  exact (hkept.past _ he).2

/-! ### Samples -/

/-- What is sent on which association, in an event. -/
def sentOn (e : UdpEvent) : Option (Nat × List UInt8) :=
  match e.op with
  | .send id payload => some (id, payload)
  | _ => none

theorem op_of_sentOn {e : UdpEvent} {id : Nat} {payload : List UInt8} (h : sentOn e = some (id, payload)) :
    e.op = .send id payload := by
  unfold sentOn at h
  split at h
  · rename_i hop
    cases h
    exact hop
  · cases h

/-- The maintenance deletes the flow of the client and takes its association out of the table; the client
then goes on to another server, on a new flow of the same tuple. -/
def sampleConfirmed : List (Action UdpJob UdpChoice) :=
  sampleForwarding 0 1 (sampleClient 1000) (sampleServer 1) ++
    [.spawn (.maintain ⟨60, 60, 60⟩ 1 1), .step 2 { page := [sampleTuple], nowNs := 100 }] ++
    List.replicate 5 (.step 2 {}) ++ sampleForwarding 3 4 (sampleClient 1000) (sampleServer 2)

/-- Behind a confirmed deletion the datagram on the same tuple is sent where it was going. -/
theorem payload_directed_sample : ∃ (w : UdpWorld) (e : UdpEvent) (g : Datagram) (a : UdpAssociation),
    udpSystem.Reachable (World.start (.new sampleListen 60)) w ∧ e ∈ w.history ∧
      (∃ d ∈ w.history, createdFlow d = some (sampleTuple, sampleServer 1)) ∧
      e.op = .send 1 [1] ∧ e.before.buffer = some g ∧ g.original = sampleServer 2 ∧ g.payload = [1] ∧
      e.before.associations[1]? = some a ∧ a.destination = g.original := by
  have hrun : (udpSystem.run (World.start (.new sampleListen 60)) sampleConfirmed).any (fun w =>
      w.history.all vacates &&
        w.history.any (fun d => createdFlow d = some (sampleTuple, sampleServer 1)) &&
        w.history.any fun e => decide (sentOn e = some (1, [1])) &&
          e.before.buffer.all fun g => g.original = sampleServer 2) = true := by
    decide +kernel
  obtain ⟨w, hreach, hcheck⟩ := Pool.exists_reachable_of_run hrun
  simp only [Bool.and_eq_true, List.all_eq_true, List.any_eq_true, decide_eq_true_iff] at hcheck
  obtain ⟨⟨hvacates, hfirst⟩, e, he, hsent, horiginal⟩ := hcheck
  have hop := op_of_sentOn hsent
  obtain ⟨g, a, hbuffer, hdirected⟩ := payload_directed hreach hvacates e he 1 [1] hop
  rw [hbuffer, Option.all_some, decide_eq_true_iff] at horiginal
  exact ⟨w, e, g, a, hreach, he, hfirst, hop, hbuffer, horiginal, hdirected⟩

/-- One pass of the maintenance: the flow of the client is expired, and the answer to its deletion is
lost, although it took effect. -/
def sampleMaintenance (job : Nat) : List (Action UdpJob UdpChoice) :=
  [.spawn (.maintain ⟨60, 60, 60⟩ 1 1), .step job { page := [sampleTuple], nowNs := 100 }, .step job {},
    .step job { fault := true, effect := true }]

/-- The client goes on to another server: its new flow has the tuple of the deleted one, and the payload is
sent to the old server. -/
theorem payload_misdirected : ∃ (w : UdpWorld) (e : UdpEvent) (g : Datagram) (a : UdpAssociation),
    udpSystem.Reachable (World.start (.new sampleListen 60)) w ∧ e ∈ w.history ∧
      e.op = .send 0 [2] ∧ e.before.buffer = some g ∧ g.payload = [2] ∧ g.original = sampleServer 2 ∧
      e.before.associations[0]? = some a ∧ a.destination = sampleServer 1 := by
  have hrun : (udpSystem.run (World.start (.new sampleListen 60))
      (sampleForwarding 0 1 (sampleClient 1000) (sampleServer 1) ++ sampleMaintenance 2 ++
        [.spawn (.datagram (sampleClient 1000) (sampleServer 2) [2]), .step 3 {}, .spawn .receive] ++
        List.replicate 6 (.step 4 {}))).any (fun w =>
        w.history.any fun e => decide (sentOn e = some (0, [2])) &&
          (e.before.buffer.any fun g => g.payload = [2] && g.original = sampleServer 2) &&
          (e.before.associations[0]?).any fun a => a.destination = sampleServer 1) = true := by
    decide +kernel
  obtain ⟨w, hreach, hcheck⟩ := Pool.exists_reachable_of_run hrun
  simp only [Bool.and_eq_true, List.any_eq_true, Option.any_eq_true, decide_eq_true_iff] at hcheck
  obtain ⟨e, he, ⟨hsent, g, hbuffer, hpayload, horiginal⟩, a, ha, hdestination⟩ := hcheck
  exact ⟨w, e, g, a, hreach, he, op_of_sentOn hsent, hbuffer, hpayload, horiginal, ha, hdestination⟩

end ShadowSocketProxy.HostProxy
