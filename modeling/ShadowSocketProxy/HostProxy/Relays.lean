import ShadowSocketProxy.HostProxy.Associations

/-! # Relays and the entry table

A relay takes its own entry out of the table when it ends, and then sends its completion. Neither works
in every order of events: the entry may come only after the relay has looked for it, and the completion
is lost when nobody waits for it yet. -/

namespace ShadowSocketProxy.HostProxy

open Interleaving Interleaving.Program Bpf

/-! ## What an operation does to associations and entries -/

/-- Whether the relay has left the table for good. -/
def Relay.gone : Relay → Bool
  | .removed => true
  | .returned => true
  | _ => false

/-- How far a relay is, as a number. -/
def Relay.rank : Relay → Nat
  | .unspawned => 0
  | .running => 1
  | .stopping => 2
  | .removed => 3
  | .returned => 4

theorem Relay.gone_iff (relay : Relay) : relay.gone = true ↔ 3 ≤ relay.rank := by
  cases relay <;> decide

theorem Relay.eq_unspawned_iff (relay : Relay) : relay = .unspawned ↔ relay.rank = 0 := by
  cases relay <;> decide

theorem Relay.eq_returned_iff (relay : Relay) : relay = .returned ↔ 4 ≤ relay.rank := by
  cases relay <;> decide

/-- A change of an association that leaves its ends and its completion alone; a relay may be spawned or
leave its loop. -/
structure Adjusts (a a' : UdpAssociation) : Prop where
  key : a'.key = a.key
  destination : a'.destination = a.destination
  done : a'.relayDone = a.relayDone
  relay : a'.relay = a.relay ∨ a.relay = .unspawned ∧ a'.relay = .running ∨
    a.relay = .running ∧ a'.relay = .stopping

/-- The association behind the critical section of its relay. -/
def UdpAssociation.remove (a : UdpAssociation) : UdpAssociation := { a with relay := .removed }

/-- The association behind the completion of its relay. -/
def UdpAssociation.complete (a : UdpAssociation) : UdpAssociation :=
  { a with relayDone := a.relayDone || decide (0 < a.receivers), relay := .returned }

/-- What an operation may do to associations and entries. -/
inductive UdpEffect (op : UdpOp) (s s' : UdpAssociations) : Prop where
  | shrink (hassociations : s'.associations = s.associations)
      (hentries : ∀ tuple id, s'.entries.find? tuple = some id → s.entries.find? tuple = some id)
  | adjust (id : Nat) (f : UdpAssociation → UdpAssociation)
      (hadjusts : ∀ a, s.associations[id]? = some a → Adjusts a (f a))
      (hassociations : s'.associations = s.associations.modify id f) (hentries : s'.entries = s.entries)
  | make (a : UdpAssociation) (hrelay : a.relay = .unspawned) (hdone : a.relayDone = false)
      (hassociations : s'.associations = s.associations ++ [a]) (hentries : s'.entries = s.entries)
  | publish (id : Nat) (a : UdpAssociation) (hop : op = .publish id)
      (ha : s.associations[id]? = some a) (hassociations : s'.associations = s.associations)
      (hentries : s'.entries = s.entries.insert a.key id)
  | remove (id : Nat) (a : UdpAssociation) (hop : op = .relay id) (ha : s.associations[id]? = some a)
      (hrelay : a.relay = .stopping)
      (hassociations : s'.associations = s.associations.modify id UdpAssociation.remove)
      (hentries : s'.entries = (s.removeExactly a.key id).entries)
  | complete (id : Nat) (a : UdpAssociation) (hop : op = .relay id)
      (ha : s.associations[id]? = some a) (hrelay : a.relay = .removed)
      (hassociations : s'.associations = s.associations.modify id UdpAssociation.complete)
      (hentries : s'.entries = s.entries)

section Effects

variable {c : UdpChoice} {op : UdpOp} {s s' : UdpAssociations} {resp : op.Resp}

theorem UdpEffect.of_same {op : UdpOp} (hassociations : s'.associations = s.associations)
    (hentries : s'.entries = s.entries) : UdpEffect op s s' :=
  .shrink hassociations fun tuple id h => by rwa [hentries] at h

theorem find_erase {entries : Table SocketTuple Nat} {tuple tuple' : SocketTuple} {id : Nat}
    (h : (entries.erase tuple).find? tuple' = some id) :
    tuple' ≠ tuple ∧ entries.find? tuple' = some id := by
  rw [Table.find?_erase] at h
  split at h
  · cases h
  · rename_i hne
    exact ⟨hne, h⟩

theorem UdpEffect.of_removeExactly {op : UdpOp} (tuple : SocketTuple) (id : Nat) :
    UdpEffect op s (s.removeExactly tuple id) := by
  unfold UdpAssociations.removeExactly
  split
  · exact .shrink rfl fun tuple' id' h => (find_erase h).2
  · exact .of_same rfl rfl

/-- A change of one association that only `Adjusts` it. -/
theorem UdpEffect.of_update {op : UdpOp} (id : Nat) {f : UdpAssociation → UdpAssociation}
    (hf : ∀ a, Adjusts a (f a)) : UdpEffect op s (s.update id f) :=
  .adjust id f (fun a _ => hf a) rfl rfl

theorem UdpEffect.of_relayStep {c : UdpChoice} {id : Nat} {a : UdpAssociation}
    (ha : s.associations[id]? = some a) (h : relayStep c id a s = some s') :
    UdpEffect (.relay id) s s' := by
  -- a relay in its loop goes on with it or leaves it
  have hleave : a.relay = .running →
      UdpEffect (.relay id) s (s.update id fun a => { a with relay := .stopping }) := fun hrelay =>
    .adjust id _ (fun a' ha' => by
      rw [ha] at ha'
      cases ha'
      exact ⟨rfl, rfl, rfl, .inr (.inr ⟨hrelay, rfl⟩)⟩) rfl rfl
  unfold relayStep at h
  cases hrelay : a.relay with
  | unspawned =>
    rw [hrelay] at h
    cases h
  | running =>
    rw [hrelay] at h
    cases hwake : c.wake with
    | shutdown =>
      simp only [hwake, Option.ite_none_right_eq_some] at h
      obtain ⟨-, h⟩ := h
      cases h
      exact hleave hrelay
    | cancel =>
      simp only [hwake, Option.ite_none_right_eq_some] at h
      obtain ⟨-, h⟩ := h
      cases h
      exact hleave hrelay
    | activity =>
      simp only [hwake, Option.ite_none_right_eq_some] at h
      obtain ⟨-, h⟩ := h
      cases h
      exact .of_update id fun a => ⟨rfl, rfl, rfl, .inl rfl⟩
    | idle =>
      simp only [hwake] at h
      split at h
      · cases h
        exact .of_same rfl rfl
      · cases h
        exact hleave hrelay
    | received delivered =>
      simp only [hwake] at h
      split at h
      · cases h
        exact .of_update id fun a => ⟨rfl, rfl, rfl, .inl rfl⟩
      · cases h
        exact hleave hrelay
    | receiveError =>
      simp only [hwake] at h
      cases h
      exact hleave hrelay
  | stopping =>
    rw [hrelay] at h
    cases h
    refine .remove id a rfl ha hrelay ?_ rfl
    show (s.removeExactly a.key id).associations.modify id _ = _
    unfold UdpAssociations.removeExactly
    split <;> rfl
  | removed =>
    rw [hrelay] at h
    cases h
    exact .complete id a rfl ha hrelay rfl rfl
  | returned =>
    rw [hrelay] at h
    cases h

theorem associations_deliver (client destination : StdSocketAddr) (payload : List UInt8) :
    (s.deliver c client destination payload).associations = s.associations ∧
      (s.deliver c client destination payload).entries = s.entries := by
  unfold UdpAssociations.deliver
  dsimp only
  split
  · exact ⟨rfl, rfl⟩
  · split
    · split <;> exact ⟨rfl, rfl⟩
    · exact ⟨rfl, rfl⟩

theorem associations_deleteNow (flowId : UInt64) (generation : UInt32) (observed : UInt64) :
    (s.deleteNow c flowId generation observed).2.associations = s.associations ∧
      (s.deleteNow c flowId generation observed).2.entries = s.entries := by
  unfold UdpAssociations.deleteNow
  dsimp only
  split
  · split <;> exact ⟨rfl, rfl⟩
  · split <;> exact ⟨rfl, rfl⟩

/-- **Every operation has one of the effects `UdpEffect`.** -/
theorem effect_of_exec (h : UdpOp.exec c op s = some (resp, s')) : UdpEffect op s s' := by
  cases op with
  | touch id | subscribe id | cancel id | unsubscribe id =>
    cases h
    exact .of_update id fun a => ⟨rfl, rfl, rfl, .inl rfl⟩
  | removeEntry tuple =>
    cases h
    exact .shrink rfl fun tuple' id h => (find_erase h).2
  | allocate tuple destination =>
    cases h
    exact .make _ rfl rfl rfl rfl
  | spawnRelay id =>
    cases h
    refine .of_update id fun a => ?_
    split
    · rename_i hrelay
      exact ⟨rfl, rfl, rfl, .inr (.inl ⟨hrelay, rfl⟩)⟩
    · exact ⟨rfl, rfl, rfl, .inl rfl⟩
  | publish id =>
    simp only [UdpOp.exec] at h
    split at h
    · cases h
    · rename_i a ha
      split at h
      · cases h
        exact .of_same rfl rfl
      · cases h
        exact .publish id a rfl ha rfl rfl
  | changed id droppable =>
    simp only [UdpOp.exec] at h
    split at h
    · cases h
    · split at h
      · cases h
        exact .of_same rfl rfl
      · simp only [Option.ite_none_right_eq_some] at h
        obtain ⟨-, h⟩ := h
        cases h
        exact .of_same rfl rfl
  | removeIf tuple id =>
    cases h
    exact .of_removeExactly tuple id
  | observe tuple identity =>
    simp only [UdpOp.exec] at h
    split at h
    · cases h
      exact .of_same rfl rfl
    · cases h
      exact .of_update _ fun a => ⟨rfl, rfl, rfl, .inl rfl⟩
  | drain =>
    cases h
    exact .shrink rfl fun tuple id h => by cases h
  | deleteFlow flowId generation observed =>
    obtain ⟨hassociations, hentries⟩ :=
      associations_deleteNow (c := c) (s := s) flowId generation observed
    simp only [UdpOp.exec] at h
    split at h
    · cases h
      split
      · exact .of_same hassociations hentries
      · exact .of_same rfl rfl
    · split at h
      · cases h
        split
        · exact .of_same hassociations hentries
        · exact .of_same rfl rfl
      · cases h
        exact .of_same hassociations hentries
  | relay id =>
    simp only [UdpOp.exec] at h
    split at h
    · cases h
    · rename_i a ha
      rw [Option.map_eq_some_iff] at h
      obtain ⟨s₁, hstep, heq⟩ := h
      cases heq
      exact .of_relayStep ha hstep
  | datagram client destination payload =>
    cases h
    obtain ⟨hassociations, hentries⟩ :=
      associations_deliver (c := c) (s := s) client destination payload
    exact .of_same hassociations hentries
  | _ =>
    -- the others touch neither associations nor table
    simp only [UdpOp.exec] at h
    (repeat' split at h) <;> cases h <;> exact .of_same rfl rfl

end Effects

/-! ## Associations over a run -/

/-- How an association may have changed: its ends stay, its relay goes on, and its completion is sent at
most when the relay returns. -/
structure Moves (a a' : UdpAssociation) : Prop where
  key : a'.key = a.key
  destination : a'.destination = a.destination
  rank : a.relay.rank ≤ a'.relay.rank
  done : a.relayDone = true → a'.relayDone = true
  settled : a.relay = .returned → a'.relayDone = a.relayDone

theorem Moves.refl (a : UdpAssociation) : Moves a a := ⟨rfl, rfl, le_rfl, id, fun _ => rfl⟩

theorem Moves.returned {a a' : UdpAssociation} (h : Moves a a') (ha : a.relay = .returned) :
    a'.relay = .returned := by
  rw [Relay.eq_returned_iff] at ha ⊢
  exact ha.trans h.rank

theorem Moves.trans {a a' a'' : UdpAssociation} (h : Moves a a') (h' : Moves a' a'') : Moves a a'' where
  key := h'.key.trans h.key
  destination := h'.destination.trans h.destination
  rank := h.rank.trans h'.rank
  done hdone := h'.done (h.done hdone)
  settled hreturned := (h'.settled (h.returned hreturned)).trans (h.settled hreturned)

theorem Adjusts.moves {a a' : UdpAssociation} (h : Adjusts a a') : Moves a a' where
  key := h.key
  destination := h.destination
  rank := by
    rcases h.relay with heq | ⟨hfrom, hto⟩ | ⟨hfrom, hto⟩
    · rw [heq]
    · rw [hfrom, hto]
      decide
    · rw [hfrom, hto]
      decide
  done hdone := h.done.trans hdone
  settled _ := h.done

/-- Every association stays, and `Moves` on. -/
def Later (s s' : UdpAssociations) : Prop :=
  ∀ (id : Nat) (a : UdpAssociation), s.associations[id]? = some a →
    ∃ a', s'.associations[id]? = some a' ∧ Moves a a'

theorem Later.refl (s : UdpAssociations) : Later s s := fun _ a ha => ⟨a, ha, .refl a⟩

theorem Later.trans {s s' s'' : UdpAssociations} (h : Later s s') (h' : Later s' s'') : Later s s'' := by
  intro id a ha
  obtain ⟨a', ha', hmoves⟩ := h id a ha
  obtain ⟨a'', ha'', hmoves'⟩ := h' id a' ha'
  exact ⟨a'', ha'', hmoves.trans hmoves'⟩

theorem later_of_eq {s s' : UdpAssociations} (h : s'.associations = s.associations) : Later s s' := by
  intro id a ha
  rw [h]
  exact ⟨a, ha, .refl a⟩

theorem getElem?_modify_some {l : List UdpAssociation} {id j : Nat} {a : UdpAssociation}
    (f : UdpAssociation → UdpAssociation) (ha : l[j]? = some a) :
    (l.modify id f)[j]? = some (if id = j then f a else a) := by
  rw [List.getElem?_modify, ha]
  rfl

theorem later_of_modify {s s' : UdpAssociations} {id : Nat} {f : UdpAssociation → UdpAssociation}
    (hf : ∀ a, s.associations[id]? = some a → Moves a (f a))
    (h : s'.associations = s.associations.modify id f) : Later s s' := by
  intro j a ha
  rw [h]
  refine ⟨_, getElem?_modify_some f ha, ?_⟩
  split
  · rename_i heq
    subst heq
    exact hf a ha
  · exact .refl a

section Runs

variable {c : UdpChoice} {op : UdpOp} {s s' : UdpAssociations} {id : Nat} {a a' : UdpAssociation}

theorem UdpEffect.later (h : UdpEffect op s s') : Later s s' := by
  cases h with
  | shrink hassociations hentries => exact later_of_eq hassociations
  | adjust id f hadjusts hassociations hentries =>
    exact later_of_modify (fun a ha => (hadjusts a ha).moves) hassociations
  | make a hrelay hdone hassociations hentries =>
    intro j b hb
    rw [hassociations, List.getElem?_append_left (List.getElem?_eq_some_iff.mp hb).1]
    exact ⟨b, hb, .refl b⟩
  | publish id a hop ha hassociations hentries => exact later_of_eq hassociations
  | remove id a hop ha hrelay hassociations hentries =>
    refine later_of_modify (fun b hb => ?_) hassociations
    rw [ha] at hb
    cases hb
    refine ⟨rfl, rfl, ?_, fun hdone => hdone, fun hreturned => rfl⟩
    show a.relay.rank ≤ Relay.removed.rank
    rw [hrelay]
    decide
  | complete id a hop ha hrelay hassociations hentries =>
    refine later_of_modify (fun b hb => ?_) hassociations
    rw [ha] at hb
    cases hb
    refine ⟨rfl, rfl, ?_, fun hdone => ?_, fun hreturned => ?_⟩
    · show a.relay.rank ≤ Relay.returned.rank
      rw [hrelay]
      decide
    · show (a.relayDone || _) = true
      rw [hdone, Bool.true_or]
    · rw [hrelay] at hreturned
      cases hreturned

/-- The completion of a relay is sent to someone. -/
def Heard (id : Nat) (e : UdpEvent) : Prop :=
  e.op = .relay id ∧ ∃ a, e.before.associations[id]? = some a ∧ a.relay = .removed ∧ 0 < a.receivers

/-- A `relayDone` that is set was so before, or is sent to someone just now. -/
theorem UdpEffect.heard (h : UdpEffect op s s') (ha' : s'.associations[id]? = some a')
    (hdone : a'.relayDone = true) :
    (∃ a, s.associations[id]? = some a ∧ a.relayDone = true) ∨
      op = .relay id ∧ ∃ a, s.associations[id]? = some a ∧ a.relay = .removed ∧ 0 < a.receivers := by
  -- a change of one association by which no completion is sent
  have hmodify : ∀ {j : Nat} {f : UdpAssociation → UdpAssociation},
      (∀ b, s.associations[j]? = some b → (f b).relayDone = b.relayDone) →
      s'.associations = s.associations.modify j f →
      ∃ a, s.associations[id]? = some a ∧ a.relayDone = true := by
    intro j f hf hassociations
    rw [hassociations, List.getElem?_modify, Option.map_eq_map, Option.map_eq_some_iff] at ha'
    obtain ⟨b, hb, rfl⟩ := ha'
    refine ⟨b, hb, ?_⟩
    split at hdone
    · rename_i heq
      subst heq
      rwa [hf b hb] at hdone
    · exact hdone
  cases h with
  | shrink hassociations hentries =>
    rw [hassociations] at ha'
    exact .inl ⟨a', ha', hdone⟩
  | adjust j f hadjusts hassociations hentries =>
    exact .inl (hmodify (fun b hb => (hadjusts b hb).done) hassociations)
  | make b hrelay hfresh hassociations hentries =>
    rw [hassociations] at ha'
    rcases Pool.getElem?_append_singleton ha' with hold | ⟨-, rfl⟩
    · exact .inl ⟨a', hold, hdone⟩
    · rw [hfresh] at hdone
      cases hdone
  | publish j b hop hb hassociations hentries =>
    rw [hassociations] at ha'
    exact .inl ⟨a', ha', hdone⟩
  | remove j b hop hb hrelay hassociations hentries =>
    exact .inl (hmodify (f := UdpAssociation.remove) (fun b hb => rfl) hassociations)
  | complete j b hop hb hrelay hassociations hentries =>
    by_cases hj : j = id
    · subst hj
      rw [hassociations, getElem?_modify_some _ hb, if_pos rfl] at ha'
      cases ha'
      have hdone : (b.relayDone || decide (0 < b.receivers)) = true := hdone
      rw [Bool.or_eq_true, decide_eq_true_iff] at hdone
      rcases hdone with hdone | hreceivers
      · exact .inl ⟨b, hb, hdone⟩
      · exact .inr ⟨hop, b, hb, hrelay, hreceivers⟩
    · rw [hassociations, List.getElem?_modify, Option.map_eq_map, Option.map_eq_some_iff] at ha'
      obtain ⟨b', hb', rfl⟩ := ha'
      rw [if_neg hj] at hdone
      exact .inl ⟨b', hb', hdone⟩

/-- Behind an event that is `Heard` the association has `relayDone` set. -/
theorem Heard.done {e : UdpEvent} (h : Heard id e)
    (hexec : UdpOp.exec e.choice e.op e.before = some (e.resp, s')) :
    ∃ a', s'.associations[id]? = some a' ∧ a'.relayDone = true := by
  obtain ⟨thread, job, c, op, resp, before⟩ := e
  obtain ⟨hop, a, ha, hrelay, hreceivers⟩ := h
  have hop : op = .relay id := hop
  subst hop
  have ha : before.associations[id]? = some a := ha
  have hexec : UdpOp.exec c (.relay id) before = some (resp, s') := hexec
  simp only [UdpOp.exec, ha, relayStep, hrelay, Option.map_some, Option.some.injEq, Prod.mk.injEq,
    true_and] at hexec
  rw [← hexec]
  refine ⟨a.complete, ?_, ?_⟩
  · show (before.associations.modify id UdpAssociation.complete)[id]? = some a.complete
    rw [getElem?_modify_some _ ha, if_pos rfl]
  · show (a.relayDone || decide (0 < a.receivers)) = true
    rw [decide_eq_true hreceivers, Bool.or_true]

end Runs

section Reachable

variable {w w' : UdpWorld} {s₀ : UdpAssociations} {listen : StdSocketAddr} {idleTimeout : Nat} {id : Nat}
  {a : UdpAssociation}

theorem later_of_act {action : Action UdpJob UdpChoice} (h : udpSystem.act w action = some w') :
    Later w.shared w'.shared := by
  cases action with
  | spawn job =>
    obtain ⟨-, rfl⟩ := Pool.act_spawn_iff.mp h
    exact .refl _
  | step i c =>
    obtain ⟨job, op, next, resp, s, -, hexec, rfl⟩ := Pool.act_step_iff.mp h
    exact (effect_of_exec hexec).later

theorem later_of_reachable (h : udpSystem.Reachable w w') : Later w.shared w'.shared :=
  Pool.Reachable.induction (I := fun w' => Later w.shared w'.shared) h (.refl _)
    fun _ _ _ hlater hact => hlater.trans (later_of_act hact)

/-- The present state is `Later` than every event of the run. -/
theorem later_of_mem_history (h : udpSystem.Reachable (World.start s₀) w) :
    ∀ e ∈ w.history, Later e.before w.shared := by
  refine Pool.Reachable.induction (I := fun w => ∀ e ∈ w.history, Later e.before w.shared) h
    (by simp [World.start]) ?_
  intro w action w' ih hact e he
  have hlater := later_of_act hact
  cases action with
  | spawn job =>
    obtain ⟨-, rfl⟩ := Pool.act_spawn_iff.mp hact
    exact ih e he
  | step i c =>
    obtain ⟨job, op, next, resp, s, -, hexec, rfl⟩ := Pool.act_step_iff.mp hact
    rcases List.mem_cons.mp he with rfl | he
    · exact hlater
    · exact (ih e he).trans hlater

/-- **`relayDone` is set exactly when an event of the run is `Heard`.** -/
theorem done_iff_heard (h : udpSystem.Reachable (World.start (.new listen idleTimeout)) w)
    (ha : w.shared.associations[id]? = some a) :
    a.relayDone = true ↔ ∃ e ∈ w.history, Heard id e := by
  have key : (∀ id a, w.shared.associations[id]? = some a → a.relayDone = true →
        ∃ e ∈ w.history, Heard id e) ∧
      ∀ id, ∀ e ∈ w.history, Heard id e →
        ∃ a, w.shared.associations[id]? = some a ∧ a.relayDone = true := by
    refine Pool.Reachable.induction (I := fun w =>
      (∀ id a, w.shared.associations[id]? = some a → a.relayDone = true →
        ∃ e ∈ w.history, Heard id e) ∧
      ∀ id, ∀ e ∈ w.history, Heard id e →
        ∃ a, w.shared.associations[id]? = some a ∧ a.relayDone = true) h ?_ ?_
    · exact ⟨fun id a ha => (by cases ha), by simp [World.start]⟩
    · rintro w action w' ⟨hpast, hnow⟩ hact
      cases action with
      | spawn job =>
        obtain ⟨-, rfl⟩ := Pool.act_spawn_iff.mp hact
        exact ⟨hpast, hnow⟩
      | step i c =>
        obtain ⟨job, op, next, resp, s, -, hexec, rfl⟩ := Pool.act_step_iff.mp hact
        have heffect := effect_of_exec hexec
        refine ⟨fun id a' ha' hdone => ?_, fun id e he hheard => ?_⟩
        · rcases heffect.heard ha' hdone with ⟨a, ha, hdone⟩ | hheard
          · obtain ⟨e, he, hheard⟩ := hpast id a ha hdone
            exact ⟨e, List.mem_cons_of_mem _ he, hheard⟩
          · exact ⟨_, List.mem_cons_self, hheard⟩
        · rcases List.mem_cons.mp he with rfl | he
          · exact hheard.done hexec
          · obtain ⟨a, ha, hdone⟩ := hnow id e he hheard
            obtain ⟨a', ha', hmoves⟩ := heffect.later id a ha
            exact ⟨a', ha', hmoves.done hdone⟩
  constructor
  · exact key.1 id a ha
  · rintro ⟨e, he, hheard⟩
    obtain ⟨a', ha', hdone⟩ := key.2 id e he hheard
    rw [ha] at ha'
    cases ha'
    exact hdone

end Reachable

/-! ## Stopping an association -/

/-- A call of `stop_association` that waits goes on, and one that starts returns; both have seen the
completion. -/
structure StopReturns (id : Nat) (s : UdpAssociations) : Prop where
  waits : ∀ c droppable, UdpOp.exec c (.changed id droppable) s = some (true, s)
  starts : ∀ droppable, ∃ s', udpMachine.Returns (fun _ => True) (stopAssociation id droppable) s true s'

section Stops

variable {s : UdpAssociations} {id : Nat} {a : UdpAssociation}

theorem exec_changed_of_done (ha : s.associations[id]? = some a) (hdone : a.relayDone = true)
    (c : UdpChoice) (droppable : Bool) : UdpOp.exec c (.changed id droppable) s = some (true, s) := by
  simp only [UdpOp.exec, ha]
  rw [if_pos hdone]

theorem stopReturns_of_done (ha : s.associations[id]? = some a) (hdone : a.relayDone = true) :
    StopReturns id s := by
  refine ⟨exec_changed_of_done ha hdone, fun droppable => ?_⟩
  -- one run: subscribe, find the completion, unsubscribe
  obtain ⟨s₁, hs₁⟩ : ∃ s₁, s₁ = s.update id fun a => { a with receivers := a.receivers + 1 } := ⟨_, rfl⟩
  have hsubscribed : s₁.associations[id]? = some { a with receivers := a.receivers + 1 } := by
    rw [hs₁]
    show (s.associations.modify id _)[id]? = _
    rw [getElem?_modify_some _ ha, if_pos rfl]
  have hborrow : UdpOp.exec {} (.borrow id) s₁ = some (true, s₁) := by
    simp only [UdpOp.exec, hsubscribed]
    rw [hdone]
  have hsubscribe : UdpOp.exec {} (.subscribe id) s = some ((), s₁) := by
    rw [hs₁]
    rfl
  exact ⟨_, {}, (), s₁, trivial, hsubscribe, {}, true, s₁, trivial, hborrow,
    {}, (), _, trivial, rfl, rfl, rfl⟩

/-- `StopReturns` holds only where `relayDone` is set: any other call waits. -/
theorem StopReturns.done (h : StopReturns id s) (ha : s.associations[id]? = some a) :
    a.relayDone = true := by
  have hexec := h.waits {} false
  simp only [UdpOp.exec, ha] at hexec
  by_contra hdone
  rw [if_neg hdone] at hexec
  simp at hexec

end Stops

/-- A relay that has returned with `relayDone` not set is waited for in vain. -/
theorem waits_for_ever {w w' : UdpWorld} {id : Nat} {a : UdpAssociation}
    (ha : w.shared.associations[id]? = some a) (hreturned : a.relay = .returned)
    (hdone : a.relayDone = false) (h : udpSystem.Reachable w w') (c : UdpChoice) :
    UdpOp.exec c (.changed id false) w'.shared = none := by
  obtain ⟨a', ha', hmoves⟩ := later_of_reachable h id a ha
  simp only [UdpOp.exec, ha']
  rw [hmoves.settled hreturned, hdone]
  rfl

/-! ### Samples -/

/-- The address of the proxy in the samples. -/
def sampleListen : StdSocketAddr := .v4 (Bpf.ipv4 10 0 0 3) 3000

/-- A client of the samples. -/
def sampleClient (port : UInt16) : StdSocketAddr := .v4 (Bpf.ipv4 10 0 0 1) port

/-- A destination of the samples. -/
def sampleServer (last : UInt8) : StdSocketAddr := .v4 (Bpf.ipv4 10 0 1 last) 2000

/-- A client sends a datagram, and the receive loop forwards it on a new association. The job numbers of
the two are given. -/
def sampleForwarding (datagram receive : Nat) (client destination : StdSocketAddr) :
    List (Action UdpJob UdpChoice) :=
  [.spawn (.datagram client destination [1]), .step datagram {}, .spawn .receive] ++
    List.replicate 13 (.step receive {})

/-- One step of a relay, with the number of its job. -/
def sampleRelay (job id : Nat) (wake : Wake) (now : Nat) : List (Action UdpJob UdpChoice) :=
  [.spawn (.relay id), .step job { wake := wake, now := now }]

/-- Two associations, then the stop signal, and the shutdown waits for the relay of the second. -/
def sampleStop : List (Action UdpJob UdpChoice) :=
  sampleForwarding 0 1 (sampleClient 1000) (sampleServer 1) ++
    sampleForwarding 2 3 (sampleClient 1001) (sampleServer 1) ++
    [.spawn .stop, .step 4 {}, .spawn .shutdown] ++ List.replicate 4 (.step 5 {})

/-- The signal wakes both relays, and the first is done first. -/
def sampleHang : List (Action UdpJob UdpChoice) :=
  sampleStop ++ sampleRelay 6 0 .shutdown 0 ++ sampleRelay 7 0 .shutdown 0 ++
    sampleRelay 8 0 .shutdown 0 ++ sampleRelay 9 1 .shutdown 0 ++ sampleRelay 10 1 .shutdown 0 ++
    sampleRelay 11 1 .shutdown 0 ++ List.replicate 5 (.step 5 {})

/-- The thread is the shutdown, and waits for the completion of an association. -/
def waitsAtShutdown (id : Nat) : Thread UdpOp UdpOp.Resp UdpJob Unit → Bool
  | ⟨.shutdown, .call (.changed id' false) _⟩ => id' == id
  | _ => false

theorem exists_of_waitsAtShutdown {id : Nat} {t : Thread UdpOp UdpOp.Resp UdpJob Unit}
    (h : waitsAtShutdown id t = true) : ∃ next, t = ⟨.shutdown, .call (.changed id false) next⟩ := by
  unfold waitsAtShutdown at h
  split at h
  · obtain rfl := beq_iff_eq.mp h
    exact ⟨_, rfl⟩
  · cases h

/-- At the end of that run both relays have returned. The completion of the second was seen; that of the
first was not, and the shutdown waits for it. -/
theorem exists_hung : ∃ (w : UdpWorld) (a b : UdpAssociation) (t : Thread UdpOp UdpOp.Resp UdpJob Unit),
    udpSystem.Reachable (World.start (.new sampleListen 60)) w ∧
      (w.shared.associations[0]? = some a ∧ a.relay = .returned ∧ a.relayDone = false) ∧
      (w.shared.associations[1]? = some b ∧ b.relay = .returned ∧ b.relayDone = true) ∧
      w.threads[5]? = some t ∧ ∃ next, t = ⟨.shutdown, .call (.changed 0 false) next⟩ := by
  have hrun : (udpSystem.run (World.start (.new sampleListen 60)) sampleHang).any (fun w =>
      ((w.shared.associations[0]?).any fun a => a.relay = .returned && !a.relayDone) &&
        ((w.shared.associations[1]?).any fun b => b.relay = .returned && b.relayDone) &&
        (w.threads[5]?).any (waitsAtShutdown 0)) = true := by
    decide +kernel
  obtain ⟨w, hreach, hcheck⟩ := Pool.exists_reachable_of_run hrun
  simp only [Bool.and_eq_true, Option.any_eq_true, decide_eq_true_iff, Bool.not_eq_true'] at hcheck
  obtain ⟨⟨⟨a, ha⟩, b, hb⟩, t, ht, hwaits⟩ := hcheck
  exact ⟨w, a, b, t, hreach, ha, hb, ht, exists_of_waitsAtShutdown hwaits⟩

/-- Two associations at shutdown: the relay of one completes while the other is waited for, and then the
shutdown waits for its completion for ever. -/
theorem shutdown_hangs : ∃ (w : UdpWorld) (a : UdpAssociation) (t : Thread UdpOp UdpOp.Resp UdpJob Unit),
    udpSystem.Reachable (World.start (.new sampleListen 60)) w ∧
      w.shared.associations[0]? = some a ∧ a.relay = .returned ∧
      w.threads[5]? = some t ∧ (∃ next, t = ⟨.shutdown, .call (.changed 0 false) next⟩) ∧
      ∀ w', udpSystem.Reachable w w' → ∀ c, UdpOp.exec c (.changed 0 false) w'.shared = none := by
  obtain ⟨w, a, -, t, hreach, ⟨ha, hreturned, hdone⟩, -, ht, hwaits⟩ := exists_hung
  exact ⟨w, a, t, hreach, ha, hreturned, ht, hwaits,
    fun w' hreach' c => waits_for_ever ha hreturned hdone hreach' c⟩

end ShadowSocketProxy.HostProxy
