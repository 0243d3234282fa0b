import ShadowSocketProxy.HostProxy.Relays

/-! # Dead entries

`insert_association` spawns the relay of a candidate before it puts the candidate into the table. A relay
that ends in between finds no entry to take out, and the entry that comes afterwards stays. -/

namespace ShadowSocketProxy.HostProxy

open Interleaving Interleaving.Program Interleaving.Contract Bpf

/-! ## Entries have relays -/

/-- The association is there and its relay has been spawned. -/
def Spawned (id : Nat) (s : UdpAssociations) : Prop :=
  ∃ a, s.associations[id]? = some a ∧ a.relay ≠ .unspawned

/-- Every entry is an association of its tuple whose relay has been spawned; a candidate is published
only with its relay spawned. -/
def relayContract : Contract UdpOp UdpOp.Resp UdpAssociations UdpChoice UdpJob where
  inv s := ∀ tuple id, s.entries.find? tuple = some id →
    ∃ a, s.associations[id]? = some a ∧ a.key = tuple ∧ a.relay ≠ .unspawned
  pre _ op s := ∀ id, op = .publish id → Spawned id s
  rely _ := Later
  beside _ _ := True
  permitted _ := True

theorem Moves.spawned {a a' : UdpAssociation} (h : Moves a a') (ha : a.relay ≠ .unspawned) :
    a'.relay ≠ .unspawned := by
  rw [Ne, Relay.eq_unspawned_iff] at ha ⊢
  have := h.rank
  omega

theorem Spawned.later {id : Nat} {s s' : UdpAssociations} (h : Spawned id s) (hlater : Later s s') :
    Spawned id s' := by
  obtain ⟨a, ha, hspawned⟩ := h
  obtain ⟨a', ha', hmoves⟩ := hlater id a ha
  exact ⟨a', ha', hmoves.spawned hspawned⟩

theorem relayContract_keeps {op : UdpOp} {s s' : UdpAssociations} (hinv : relayContract.inv s)
    (hpre : ∀ id, op = .publish id → Spawned id s) (h : UdpEffect op s s') : relayContract.inv s' := by
  have hlater := h.later
  -- an entry of before is still an association of its tuple with a relay
  have hold : ∀ tuple id, s.entries.find? tuple = some id →
      ∃ a, s'.associations[id]? = some a ∧ a.key = tuple ∧ a.relay ≠ .unspawned := by
    intro tuple id hentry
    obtain ⟨a, ha, hkey, hspawned⟩ := hinv tuple id hentry
    obtain ⟨a', ha', hmoves⟩ := hlater id a ha
    exact ⟨a', ha', hmoves.key.trans hkey, hmoves.spawned hspawned⟩
  intro tuple id hentry
  cases h with
  | shrink hassociations hentries => exact hold tuple id (hentries tuple id hentry)
  | adjust j f hadjusts hassociations hentries => exact hold tuple id (hentries ▸ hentry)
  | make b hrelay hdone hassociations hentries => exact hold tuple id (hentries ▸ hentry)
  | publish j b hop hb hassociations hentries =>
    rw [hentries, Table.find?_insert] at hentry
    split at hentry
    · rename_i htuple
      cases hentry
      obtain ⟨a, ha, hspawned⟩ := hpre _ hop
      rw [ha] at hb
      cases hb
      rw [hassociations]
      exact ⟨_, ha, htuple.symm, hspawned⟩
    · exact hold tuple id hentry
  | remove j b hop hb hrelay hassociations hentries =>
    rw [hentries, UdpAssociations.removeExactly] at hentry
    split at hentry
    · exact hold tuple id (find_erase hentry).2
    · exact hold tuple id hentry
  | complete j b hop hb hrelay hassociations hentries => exact hold tuple id (hentries ▸ hentry)

/-! ### Programs -/

/-- What a program of a task ensures under `relayContract`. -/
abbrev Spawns {β : Type} (job : UdpJob) (p : Udp β) (Q : β → UdpAssociations → Prop)
    (s : UdpAssociations) : Prop :=
  relayContract.meets udpMachine job p Q s

section Programs

variable {job : UdpJob} {s : UdpAssociations} {β : Type}

theorem spawns_of_all {p : Udp β} (hp : p.All fun op => ∀ id, op ≠ .publish id) :
    Spawns job p (fun _ _ => True) s :=
  meets_of_all (fun _ hop _ _ id heq => absurd heq (hop id)) (fun _ _ _ _ _ _ h _ => h)
    (fun _ _ _ h => h) hp trivial

theorem ne_publish_of_stops (op : UdpOp) (stopped : Nat) (h : op.stops stopped = true) (id : Nat) :
    op ≠ .publish id := by
  rintro rfl
  cases h

/-- Only `insert_association` publishes. -/
theorem StopBlock.ne_publish {receiving : Bool} {p : Udp β} (h : StopBlock receiving β p) :
    p.All fun op => ∀ id, op ≠ .publish id := by
  refine h.all (fun op hop _ id => ?_) (fun op hop id => ?_) ne_publish_of_stops
  all_goals
    rintro rfl
    cases hop

/-- A `plain` operation of `forward`, then the rest. -/
theorem spawns_step {op : UdpOp} {f : op.Resp → Forward β}
    {Q : Except Halt β → UdpAssociations → Prop} (hop : ∀ id, op ≠ .publish id)
    (hf : ∀ resp s', Spawns job (f resp).run Q s') :
    Spawns job (UdpOp.step op >>= f).run Q s := by
  intro s₁ _ _
  exact ⟨fun id heq => absurd heq (hop id), fun c resp s₂ _ _ _ => hf resp s₂⟩

theorem spawns_orFail {α : Type} {answer : Except ProxyError α} {f : α → Forward β}
    (hf : ∀ value, Spawns job (f value).run (fun _ _ => True) s) :
    Spawns job (orFail answer >>= f).run (fun _ _ => True) s := by
  cases answer with
  | ok value => exact hf value
  | error error => trivial

theorem spawns_stopForwarding (id : Nat) :
    Spawns job (stopForwarding id).run (fun _ _ => True) s :=
  spawns_of_all ((all_stopForwarding id).mono fun op => ne_publish_of_stops op id)

/-- `insert_association` publishes its candidate with the relay spawned. -/
theorem spawns_insertAssociation (tuple : SocketTuple) (mapping : OriginalDestination) :
    Spawns job (insertAssociation tuple mapping).run (fun _ _ => True) s := by
  unfold insertAssociation
  refine spawns_step (by simp) fun bound s₁ => spawns_orFail fun _ => ?_
  refine spawns_step (by simp) fun connected s₂ => spawns_orFail fun _ => ?_
  intro s₃ _ _
  refine ⟨fun id heq => (by cases heq), fun c candidate s₄ hexec _ _ => ?_⟩
  -- the candidate is the newest association, and its relay is not spawned yet
  have hcandidate : ∃ a, s₄.associations[candidate]? = some a := by
    cases hexec
    exact ⟨_, List.getElem?_concat_length⟩
  intro s₅ hlater _
  refine ⟨fun id heq => (by cases heq), fun c existing s₆ hexec _ _ => ?_⟩
  obtain rfl : s₆ = s₅ := by
    cases hexec
    rfl
  obtain ⟨a, ha⟩ := hcandidate
  obtain ⟨a, ha, -⟩ := hlater candidate a ha
  cases existing with
  | some existing => trivial
  | none =>
    intro s₇ hlater _
    obtain ⟨a, ha, -⟩ := hlater candidate a ha
    refine ⟨fun id heq => (by cases heq), fun c _ s₈ hexec _ _ => ?_⟩
    have hspawned : Spawned candidate s₈ := by
      cases hexec
      refine ⟨_, getElem?_modify_some _ ha, ?_⟩
      rw [if_pos rfl]
      split
      · rintro ⟨⟩
      · assumption
    intro s₉ hlater _
    refine ⟨fun id heq => ?_, fun c published s₁₀ _ _ _ => ?_⟩
    · cases heq
      exact hspawned.later hlater
    · rcases published with existing | _ | previous
      · exact meets_seqE (spawns_stopForwarding candidate) (fun _ _ _ => trivial) fun _ _ _ => trivial
      · trivial
      · exact meets_seqE (spawns_stopForwarding previous) (fun _ _ _ => trivial) fun _ _ _ => trivial

/-- `UdpBuilt` programs meet `relayContract`. -/
theorem spawns_of_built {receiving : Bool} {p : Udp β} (h : UdpBuilt receiving p)
    (s : UdpAssociations) : Spawns job p (fun _ _ => True) s := by
  induction h generalizing s with
  | block h =>
    cases h with
    | insert _ tuple mapping => exact spawns_insertAssociation tuple mapping
    | stop h => exact spawns_of_all h.ne_publish
  | ret value => trivial
  | bind _ _ ihp ihf => exact meets_seq (ihp s) fun value s' _ => ihf value s'

end Programs

theorem relayContract_sound : relayContract.Sound udpSystem where
  refl _ s := .refl s
  trans _ _ _ _ h h' := h.trans h'
  admits _ _ _ _ _ _ := ⟨trivial, trivial⟩
  keeps _ _ _ hinv hpre hexec := relayContract_keeps hinv hpre (effect_of_exec hexec)
  moves _ _ _ _ _ _ _ hexec := (effect_of_exec hexec).later
  code job s _ _ := spawns_of_built (built_code job) s

/-! ## Entries whose relay is gone -/

/-- Every publication of the association found its relay before its critical section. -/
def PublishedInTime (id : Nat) (history : List UdpEvent) : Prop :=
  ∀ e ∈ history, e.op = .publish id → ∀ a, e.before.associations[id]? = some a → a.relay.gone = false

section Dead

variable {listen : StdSocketAddr} {idleTimeout : Nat} {w : UdpWorld} {tuple : SocketTuple} {id : Nat}

/-- The associations of the entries that an operation leaves are those of before, unless it publishes
one; a relay does not leave an entry of its own. -/
theorem UdpEffect.gone {op : UdpOp} {s s' : UdpAssociations} {a a' : UdpAssociation}
    (h : UdpEffect op s s') (ha : s.associations[id]? = some a) (ha' : s'.associations[id]? = some a')
    (hentry : s'.entries.find? a.key = some id) (hgone : a'.relay.gone = true) :
    a.relay.gone = true := by
  cases h with
  | shrink hassociations hentries =>
    rw [hassociations, ha] at ha'
    cases ha'
    exact hgone
  | adjust j f hadjusts hassociations hentries =>
    rw [hassociations, getElem?_modify_some f ha] at ha'
    cases ha'
    split at hgone
    · rename_i heq
      subst heq
      rcases (hadjusts a ha).relay with heq | ⟨-, heq⟩ | ⟨-, heq⟩
      · rwa [heq] at hgone
      · rw [heq] at hgone
        cases hgone
      · rw [heq] at hgone
        cases hgone
    · exact hgone
  | make b hrelay hdone hassociations hentries =>
    rw [hassociations, List.getElem?_append_left (List.getElem?_eq_some_iff.mp ha).1, ha] at ha'
    cases ha'
    exact hgone
  | publish j b hop hb hassociations hentries =>
    rw [hassociations, ha] at ha'
    cases ha'
    exact hgone
  | remove j b hop hb hrelay hassociations hentries =>
    by_cases hj : j = id
    · -- its own entry is what it takes out
      subst hj
      rw [ha] at hb
      cases hb
      rw [hentries, UdpAssociations.removeExactly] at hentry
      split at hentry
      · exact absurd rfl (find_erase hentry).1
      · rename_i hne
        exact absurd hentry hne
    · rw [hassociations, getElem?_modify_some _ ha, if_neg hj] at ha'
      cases ha'
      exact hgone
  | complete j b hop hb hrelay hassociations hentries =>
    by_cases hj : j = id
    · subst hj
      rw [ha] at hb
      cases hb
      rw [hrelay]
      rfl
    · rw [hassociations, getElem?_modify_some _ ha, if_neg hj] at ha'
      cases ha'
      exact hgone

/-- Behind a `UdpEffect` an entry was there before, or is published. -/
theorem UdpEffect.entry {op : UdpOp} {s s' : UdpAssociations} (h : UdpEffect op s s')
    (hentry : s'.entries.find? tuple = some id) : s.entries.find? tuple = some id ∨ op = .publish id := by
  cases h with
  | shrink hassociations hentries => exact .inl (hentries tuple id hentry)
  | adjust j f hadjusts hassociations hentries => exact .inl (hentries ▸ hentry)
  | make b hrelay hdone hassociations hentries => exact .inl (hentries ▸ hentry)
  | publish j b hop hb hassociations hentries =>
    rw [hentries, Table.find?_insert] at hentry
    split at hentry
    · cases hentry
      exact .inr hop
    · exact .inl hentry
  | remove j b hop hb hrelay hassociations hentries =>
    rw [hentries, UdpAssociations.removeExactly] at hentry
    split at hentry
    · exact .inl (find_erase hentry).2
    · exact .inl hentry
  | complete j b hop hb hrelay hassociations hentries => exact .inl (hentries ▸ hentry)

theorem associations_publish {c : UdpChoice} {s s' : UdpAssociations} {resp : Publication}
    (h : UdpOp.exec c (.publish id) s = some (resp, s')) : s'.associations = s.associations := by
  simp only [UdpOp.exec] at h
  split at h
  · cases h
  · split at h <;> cases h <;> rfl

theorem entry_association (h : udpSystem.Reachable (World.start (.new listen idleTimeout)) w)
    (hentry : w.shared.entries.find? tuple = some id) :
    ∃ a, w.shared.associations[id]? = some a ∧ a.key = tuple ∧ a.relay ≠ .unspawned := by
  have hkept := relayContract_sound.kept (s := .new listen idleTimeout) (fun _ _ h => by cases h)
    (fun _ => trivial) h fun _ _ => trivial
  exact hkept.inv tuple id hentry

/-- An entry whose association was `PublishedInTime` has a relay that is not `gone`. -/
theorem not_gone_of_publishedInTime
    (h : udpSystem.Reachable (World.start (.new listen idleTimeout)) w)
    (hentry : w.shared.entries.find? tuple = some id) (htime : PublishedInTime id w.history)
    {a : UdpAssociation} (ha : w.shared.associations[id]? = some a) : a.relay.gone = false := by
  have key : udpSystem.Reachable (World.start (.new listen idleTimeout)) w ∧
      ∀ tuple id a, w.shared.entries.find? tuple = some id → PublishedInTime id w.history →
        w.shared.associations[id]? = some a → a.relay.gone = false := by
    refine Pool.Reachable.induction (I := fun w =>
      udpSystem.Reachable (World.start (.new listen idleTimeout)) w ∧
      ∀ tuple id a, w.shared.entries.find? tuple = some id → PublishedInTime id w.history →
        w.shared.associations[id]? = some a → a.relay.gone = false) h ⟨.refl _, ?_⟩ ?_
    · intro tuple id a hentry
      cases hentry
    · rintro w action w' ⟨hreach, ih⟩ hact
      refine ⟨hreach.step hact, ?_⟩
      cases action with
      | spawn job =>
        obtain ⟨-, rfl⟩ := Pool.act_spawn_iff.mp hact
        exact ih
      | step i c =>
        obtain ⟨job, op, next, resp, s, -, hexec, rfl⟩ := Pool.act_step_iff.mp hact
        intro tuple id a' hentry htime ha'
        have heffect := effect_of_exec hexec
        have hpast : PublishedInTime id w.history := fun e he => htime e (List.mem_cons_of_mem _ he)
        rw [← Bool.not_eq_true]
        intro hgone
        rcases heffect.entry hentry with hold | hop
        · obtain ⟨a, ha, rfl, -⟩ := entry_association hreach hold
          have hgone := heffect.gone ha ha' hentry hgone
          rw [ih a.key id a hold hpast ha] at hgone
          cases hgone
        · subst hop
          rw [associations_publish (c := c) hexec] at ha'
          rw [htime _ List.mem_cons_self rfl a' ha'] at hgone
          cases hgone
  exact key.2 tuple id a hentry htime ha

/-- **An entry is alive exactly when it was published in time.** The association of every entry has a
relay; the relay is still in its loop, or about to take the entry out, exactly when the association was
published before the critical section of the relay. -/
theorem entry_alive_iff (h : udpSystem.Reachable (World.start (.new listen idleTimeout)) w)
    (hentry : w.shared.entries.find? tuple = some id) :
    ∃ a, w.shared.associations[id]? = some a ∧ a.relay ≠ .unspawned ∧
      (a.relay ≠ .removed ∧ a.relay ≠ .returned ↔ PublishedInTime id w.history) := by
  obtain ⟨a, ha, -, hspawned⟩ := entry_association h hentry
  refine ⟨a, ha, hspawned, ⟨fun ⟨hremoved, hreturned⟩ => ?_, fun htime => ?_⟩⟩
  · -- a relay that is not gone now was not gone at any publication
    intro e he _ b hb
    obtain ⟨a', ha', hmoves⟩ := later_of_mem_history h e he id b hb
    rw [ha] at ha'
    cases ha'
    have hgone : ¬ a.relay.gone = true := by
      intro hgone
      unfold Relay.gone at hgone
      split at hgone
      · contradiction
      · contradiction
      · cases hgone
    rw [Relay.gone_iff] at hgone
    rw [← Bool.not_eq_true, Relay.gone_iff]
    have := hmoves.rank
    omega
  · have hgone := not_gone_of_publishedInTime h hentry htime ha
    constructor
    · intro hrelay
      rw [hrelay] at hgone
      cases hgone
    · intro hrelay
      rw [hrelay] at hgone
      cases hgone

end Dead

/-! ### Samples -/

/-- The tuple of the client of the samples. -/
def sampleTuple : SocketTuple := ⟨sampleClient 1000, sampleListen, ipprotoUdp⟩

/-- One datagram is forwarded, and its association stays. -/
theorem entry_alive_sample : ∃ (w : UdpWorld) (a : UdpAssociation),
    udpSystem.Reachable (World.start (.new sampleListen 60)) w ∧
      w.shared.entries.find? sampleTuple = some 0 ∧ w.shared.associations[0]? = some a ∧
      a.relay = .running ∧ PublishedInTime 0 w.history := by
  have hrun : (udpSystem.run (World.start (.new sampleListen 60))
      (sampleForwarding 0 1 (sampleClient 1000) (sampleServer 1))).any (fun w =>
        decide (w.shared.entries.find? sampleTuple = some 0) &&
          (w.shared.associations[0]?).any fun a => a.relay = .running) = true := by
    decide +kernel
  obtain ⟨w, hreach, hcheck⟩ := Pool.exists_reachable_of_run hrun
  simp only [Bool.and_eq_true, Option.any_eq_true, decide_eq_true_iff] at hcheck
  obtain ⟨hentry, a, ha, hrelay⟩ := hcheck
  obtain ⟨a', ha', -, halive⟩ := entry_alive_iff hreach hentry
  rw [ha] at ha'
  cases ha'
  refine ⟨w, a, hreach, hentry, ha, hrelay, halive.mp ?_⟩
  rw [hrelay]
  exact ⟨by rintro ⟨⟩, by rintro ⟨⟩⟩

/-- The relay is idle for its timeout before the receive loop comes to publish the association: the
forwarding is over, nothing runs, and the entry has a relay that has returned. -/
theorem dead_entry : ∃ (w : UdpWorld) (a : UdpAssociation),
    udpSystem.Reachable (World.start (.new sampleListen 60)) w ∧ w.quiet = true ∧
      w.shared.entries.find? sampleTuple = some 0 ∧ w.shared.associations[0]? = some a ∧
      a.relay = .returned := by
  have hrun : (udpSystem.run (World.start (.new sampleListen 60))
      ([.spawn (.datagram (sampleClient 1000) (sampleServer 1) [1]), .step 0 {}, .spawn .receive] ++
        List.replicate 9 (.step 1 {}) ++ sampleRelay 2 0 .idle 60 ++ sampleRelay 3 0 .idle 60 ++
        sampleRelay 4 0 .idle 60 ++ List.replicate 4 (.step 1 {}))).any (fun w =>
        w.quiet && decide (w.shared.entries.find? sampleTuple = some 0) &&
          (w.shared.associations[0]?).any fun a => a.relay = .returned) = true := by
    decide +kernel
  obtain ⟨w, hreach, hcheck⟩ := Pool.exists_reachable_of_run hrun
  simp only [Bool.and_eq_true, Option.any_eq_true, decide_eq_true_iff] at hcheck
  obtain ⟨⟨hquiet, hentry⟩, a, ha, hrelay⟩ := hcheck
  exact ⟨w, a, hreach, hquiet, hentry, ha, hrelay⟩

end ShadowSocketProxy.HostProxy
